import Hermes.Library.Process

/- Shell scripts under errexit.

   A command works on a session: the variable `$?` and whatever the script
   works on. A command that is tested (the condition of an `if`, the left side of
   `&&` and `||`, the operand of `!`) runs with errexit ignored, and so does
   everything it calls; any other command whose status is not zero ends the
   shell. Compound commands have statuses of their own: an `if` without `else`
   whose condition fails leaves `$?` at zero.

   `Runs P c i Q E` says of every script of outside answers that a run of `c`
   from `P` ends with `Q` if it finishes and with `E` of how control left it
   otherwise; `i` says whether errexit is ignored. -/
namespace Shell
open Process

/-- How control leaves a command that does not finish. -/
inductive Leave where
  /-- `return n` -/
  | returned (status : Nat)
  /-- the shell ends: `exit n`, or errexit -/
  | exited (status : Nat)
  | killed
  deriving DecidableEq, Repr

instance : Mortal Leave := ⟨.killed⟩

/-- What the commands of a script work on. -/
structure Session (ω : Type) where
  /-- `$?` -/
  status : Nat := 0
  world : ω

/-- A command. The flag says whether errexit is ignored where it stands. -/
def Sh (μ ω α : Type) : Type := Bool → Proc μ Leave (Session ω) α

variable {μ ω α β : Type}

namespace Sh

instance : Monad (Sh μ ω) where
  pure a := fun _ => pure a
  bind x f := fun ignored => x ignored >>= fun a => f a ignored

/-- End the shell if the last command failed and errexit counts. -/
def errexit (ignored : Bool) : Proc μ Leave (Session ω) Unit := do
  let s ← Proc.read
  if s.status ≠ 0 ∧ ignored = false then Proc.raise (.exited s.status) else pure ()

/-- Set `$?`. -/
def setStatus (n : Nat) : Sh μ ω Unit := fun _ => Proc.update (fun s => { s with status := n })

/-- `$?`. -/
def lastStatus : Sh μ ω Nat := fun _ => do
  let s ← Proc.read
  pure s.status

/-- What the script works on. -/
def world : Sh μ ω ω := fun _ => do
  let s ← Proc.read
  pure s.world

/-- A command that something outside answers: what it prints, its status and what
    it does. A signal may end the shell when the command is over. -/
def outside (f : μ → ω → Except Leave (α × Nat) × ω) : Sh μ ω α := fun ignored => do
  let a ← Proc.perform (fun m s =>
    match f m s.world with
    | (.ok (a, n), w) => (.ok a, { status := n, world := w })
    | (.error e, w) => (.error e, { status := s.status, world := w }))
  errexit ignored
  pure a

/-- A command of which only the status is used. -/
def perform (f : μ → ω → Nat × ω) : Sh μ ω Unit :=
  outside (fun m w => (.ok ((), (f m w).1), (f m w).2))

/-- `$(command || true)`: the output, never the status. -/
def output (f : μ → ω → α) : Sh μ ω α := outside (fun m w => (.ok (f m w, 0), w))

/-- A command of the machine the script runs on, which succeeds. -/
def modify (f : ω → ω) : Sh μ ω Unit := fun _ =>
  Proc.update (fun s => { status := 0, world := f s.world })

/-- A simple command with a known status. -/
def simple (n : Nat) : Sh μ ω Unit := fun ignored => do
  Proc.update (fun s => { s with status := n })
  errexit ignored

/-- `[[ … ]]`. -/
def test (c : Bool) : Sh μ ω Unit := simple (if c then 0 else 1)

/-- A command whose status is tested. -/
def tested (c : Sh μ ω α) : Sh μ ω α := fun _ => c true

/-- `a && b`. -/
def andThen (a b : Sh μ ω Unit) : Sh μ ω Unit := do
  tested a
  let n ← lastStatus
  if n = 0 then b else pure ()

/-- `a || b`. -/
def orElse (a b : Sh μ ω Unit) : Sh μ ω Unit := do
  tested a
  let n ← lastStatus
  if n = 0 then pure () else b

/-- `! a`. -/
def negate (a : Sh μ ω Unit) : Sh μ ω Unit := do
  tested a
  let n ← lastStatus
  setStatus (if n = 0 then 1 else 0)

/-- `if c; then a; else b; fi`. -/
def ifElse (c a b : Sh μ ω Unit) : Sh μ ω Unit := do
  tested c
  let n ← lastStatus
  if n = 0 then a else b

/-- `if c; then a; fi`: zero if the condition fails. -/
def ifThen (c a : Sh μ ω Unit) : Sh μ ω Unit := ifElse c a (setStatus 0)

/-- `return n`. -/
def ret (n : Nat) : Sh μ ω α := fun _ => Proc.raise (.returned n)

/-- `exit n`. -/
def exit (n : Nat) : Sh μ ω α := fun _ => Proc.raise (.exited n)

/-- What `return` leaves of a function's body. -/
def landed : Leave → Proc μ Leave (Session ω) Unit
  | .returned n => Proc.update (fun s => { s with status := n })
  | .exited n => Proc.raise (.exited n)
  | .killed => Proc.raise .killed

/-- The call of a function, a simple command. -/
def call (body : Sh μ ω Unit) : Sh μ ω Unit := fun ignored => do
  (body ignored).handle landed
  errexit ignored

/-- A `for` loop. -/
def forEach : List β → (β → Sh μ ω Unit) → Sh μ ω Unit
  | [], _ => pure ()
  | b :: bs, f => do f b; forEach bs f

/-- A whole script with its EXIT trap: the exit status, none if the shell was killed
    and no trap could run, and what is left. -/
def run (c : Sh μ ω Unit) (onExit : ω → ω) (t : List μ) (w : ω) : Option Nat × ω :=
  match c false t { world := w } with
  | (.ok _, _, s) => (some s.status, onExit s.world)
  | (.error (.returned n), _, s) => (some n, onExit s.world)
  | (.error (.exited n), _, s) => (some n, onExit s.world)
  | (.error .killed, _, s) => (none, s.world)

/-- What a script works on when it ends, before its EXIT trap runs. -/
def last (c : Sh μ ω Unit) (t : List μ) (w : ω) : ω := ((c false).after t { world := w }).world

end Sh

/-- Every run of `c`, with errexit ignored or not. -/
def Runs (P : Nat → ω → Prop) (c : Sh μ ω α) (ignored : Bool) (Q : α → Nat → ω → Prop)
    (E : Leave → ω → Prop) : Prop :=
  Triple (fun s => P s.status s.world) (c ignored) (fun a s => Q a s.status s.world)
    (fun e s => E e s.world)

namespace Runs

variable {P P' : Nat → ω → Prop} {Q Q' : α → Nat → ω → Prop} {E E' : Leave → ω → Prop} {i : Bool}

theorem mono {c : Sh μ ω α} (h : Runs P c i Q E) (hp : ∀ n w, P' n w → P n w)
    (hq : ∀ a n w, Q a n w → Q' a n w) (he : ∀ e w, E e w → E' e w) : Runs P' c i Q' E' :=
  Triple.mono h (fun s => hp s.status s.world) (fun a s => hq a s.status s.world)
    (fun e s => he e s.world)

theorem pre {c : Sh μ ω α} (h : Runs P c i Q E) (hp : ∀ n w, P' n w → P n w) : Runs P' c i Q E :=
  h.mono hp (fun _ _ _ => id) (fun _ _ => id)

theorem post {c : Sh μ ω α} (h : Runs P c i Q E) (hq : ∀ a n w, Q a n w → Q' a n w) :
    Runs P c i Q' E :=
  h.mono (fun _ _ => id) hq (fun _ _ => id)

theorem pure' {a : α} (h : ∀ n w, P n w → Q a n w) : Runs P (pure a : Sh μ ω α) i Q E :=
  Triple.pure' (fun s => h s.status s.world)

theorem bind {x : Sh μ ω α} {f : α → Sh μ ω β} {S : β → Nat → ω → Prop} (hx : Runs P x i Q E)
    (hf : ∀ a, Runs (Q a) (f a) i S E) : Runs P (x >>= f) i S E :=
  Triple.bind hx hf

/-- What is known beforehand may be used as a hypothesis. -/
theorem given {φ : Prop} {c : Sh μ ω α} (hp : ∀ n w, P n w → φ) (h : φ → Runs P c i Q E) :
    Runs P c i Q E :=
  Triple.given (fun s => hp s.status s.world) h

theorem ite {φ : Prop} [Decidable φ] {x y : Sh μ ω α} (hx : φ → Runs P x i Q E)
    (hy : ¬φ → Runs P y i Q E) : Runs P (if φ then x else y) i Q E := by
  by_cases h : φ
  · simp only [h, if_true]; exact hx h
  · simp only [h, if_false]; exact hy h

variable {R R' S : Unit → Nat → ω → Prop}

/-- Errexit: with the flag set nothing happens, without it only a zero passes. -/
theorem errexit {T : Unit → Session ω → Prop} {F : Leave → Session ω → Prop} {P : Session ω → Prop}
    (h : ∀ s, P s → (s.status = 0 ∨ i = true → T () s) ∧
      (s.status ≠ 0 → i = false → F (.exited s.status) s)) :
    Triple P (Sh.errexit i : Proc μ Leave (Session ω) Unit) T F := by
  refine Triple.bind (Q := fun v s => v = s ∧ P s) (Triple.read (fun s hs => ⟨rfl, hs⟩)) ?_
  intro v
  apply Triple.ite
  · intro hc
    apply Triple.raise
    intro s hs
    obtain ⟨rfl, hs⟩ := hs
    exact (h _ hs).2 hc.1 hc.2
  · intro hc
    apply Triple.pure'
    intro s hs
    obtain ⟨rfl, hs⟩ := hs
    apply (h _ hs).1
    by_cases h0 : v.status = 0
    · exact Or.inl h0
    · cases i with
      | true => exact Or.inr rfl
      | false => exact absurd ⟨h0, rfl⟩ hc

theorem outside {f : μ → ω → Except Leave (α × Nat) × ω} (hk : ∀ n w, P n w → E .killed w)
    (hf : ∀ m n w, P n w → ∀ r w', f m w = (r, w') →
      match r with
      | .ok (a, k) => (k = 0 ∨ i = true → Q a k w') ∧ (k ≠ 0 → i = false → E (.exited k) w')
      | .error e => E e w') :
    Runs P (Sh.outside f) i Q E := by
  refine Triple.bind (Q := fun a s => (s.status = 0 ∨ i = true → Q a s.status s.world) ∧
    (s.status ≠ 0 → i = false → E (.exited s.status) s.world)) ?_ (fun a => ?_)
  · apply Triple.perform
    · exact fun s hs => hk _ _ hs
    · intro m s hs r s' hr
      have h := hf m s.status s.world hs _ _ rfl
      revert hr h
      rcases f m s.world with ⟨r', w'⟩
      cases r' with
      | ok p => intro hr h; cases hr; exact h
      | error e => intro hr h; cases hr; exact h
  · exact Triple.bind (Q := fun _ s => Q a s.status s.world) (errexit (fun _ => id))
      (fun _ => Triple.pure' (fun _ => id))

theorem perform {f : μ → ω → Nat × ω} (hk : ∀ n w, P n w → E .killed w)
    (hf : ∀ m n w, P n w → ((f m w).1 = 0 ∨ i = true → R () (f m w).1 (f m w).2) ∧
      ((f m w).1 ≠ 0 → i = false → E (.exited (f m w).1) (f m w).2)) :
    Runs P (Sh.perform f) i R E := by
  apply outside hk
  intro m n w hw r w' hr
  cases hr
  exact hf m n w hw

theorem output {f : μ → ω → α} (hk : ∀ n w, P n w → E .killed w)
    (hf : ∀ m n w, P n w → Q (f m w) 0 w) : Runs P (Sh.output f) i Q E := by
  apply outside hk
  intro m n w hw r w' hr
  cases hr
  exact ⟨fun _ => hf m n w hw, fun h => absurd rfl h⟩

theorem modify {f : ω → ω} (h : ∀ n w, P n w → R () 0 (f w)) :
    Runs P (Sh.modify f : Sh μ ω Unit) i R E :=
  Triple.update (fun s hs => h s.status s.world hs)

theorem setStatus {m : Nat} (h : ∀ n w, P n w → R () m w) :
    Runs P (Sh.setStatus m : Sh μ ω Unit) i R E :=
  Triple.update (fun s hs => h s.status s.world hs)

theorem simple {m : Nat} (h : ∀ n w, P n w → (m = 0 ∨ i = true → R () m w) ∧
    (m ≠ 0 → i = false → E (.exited m) w)) : Runs P (Sh.simple m : Sh μ ω Unit) i R E := by
  refine Triple.bind (Q := fun _ s => (s.status = 0 ∨ i = true → R () s.status s.world) ∧
    (s.status ≠ 0 → i = false → E (.exited s.status) s.world)) ?_ (fun _ => errexit (fun _ => id))
  exact Triple.update (fun s hs => h s.status s.world hs)

theorem lastStatus {T : Nat → Nat → ω → Prop} (h : ∀ n w, P n w → T n n w) :
    Runs P (Sh.lastStatus : Sh μ ω Nat) i T E := by
  refine Triple.bind (Q := fun v s => v = s ∧ P s.status s.world)
    (Triple.read (fun s hs => ⟨rfl, hs⟩)) (fun v => Triple.pure' ?_)
  intro s hs
  obtain ⟨rfl, hs⟩ := hs
  exact h _ _ hs

theorem world {T : ω → Nat → ω → Prop} (h : ∀ n w, P n w → T w n w) :
    Runs P (Sh.world : Sh μ ω ω) i T E := by
  refine Triple.bind (Q := fun v s => v = s ∧ P s.status s.world)
    (Triple.read (fun s hs => ⟨rfl, hs⟩)) (fun v => Triple.pure' ?_)
  intro s hs
  obtain ⟨rfl, hs⟩ := hs
  exact h _ _ hs

theorem tested {c : Sh μ ω α} (h : Runs P c true Q E) : Runs P (Sh.tested c) i Q E := h

theorem ret {n : Nat} (h : ∀ m w, P m w → E (.returned n) w) :
    Runs P (Sh.ret n : Sh μ ω α) i Q E :=
  Triple.raise (fun s hs => h s.status s.world hs)

theorem exit {n : Nat} (h : ∀ m w, P m w → E (.exited n) w) :
    Runs P (Sh.exit n : Sh μ ω α) i Q E :=
  Triple.raise (fun s hs => h s.status s.world hs)

/-- The condition is run first, with errexit ignored, then one of the branches. -/
theorem ifElse {c a b : Sh μ ω Unit} (hc : Runs P c true R' E)
    (ha : Runs (fun n w => n = 0 ∧ R' () n w) a i R E)
    (hb : Runs (fun n w => n ≠ 0 ∧ R' () n w) b i R E) : Runs P (Sh.ifElse c a b) i R E := by
  apply bind (tested hc)
  intro _
  refine bind (Q := fun v n w => v = n ∧ R' () n w) (lastStatus (fun n w h => ⟨rfl, h⟩)) ?_
  intro v
  apply ite
  · intro h0
    apply ha.pre
    intro n w h
    exact ⟨h.1 ▸ h0, h.2⟩
  · intro h0
    apply hb.pre
    intro n w h
    exact ⟨h.1 ▸ h0, h.2⟩

theorem ifThen {c a : Sh μ ω Unit} (hc : Runs P c true R' E)
    (ha : Runs (fun n w => n = 0 ∧ R' () n w) a i R E)
    (hb : ∀ n w, n ≠ 0 → R' () n w → R () 0 w) : Runs P (Sh.ifThen c a) i R E :=
  ifElse hc ha (setStatus (fun n w h => hb n w h.1 h.2))

theorem andThen {a b : Sh μ ω Unit} (ha : Runs P a true R' E)
    (hb : Runs (fun n w => n = 0 ∧ R' () n w) b i R E)
    (hn : ∀ n w, n ≠ 0 → R' () n w → R () n w) : Runs P (Sh.andThen a b) i R E :=
  ifElse ha hb (pure' (fun n w h => hn n w h.1 h.2))

theorem orElse {a b : Sh μ ω Unit} (ha : Runs P a true S E)
    (hb : Runs (fun n w => n ≠ 0 ∧ S () n w) b i R E)
    (hz : ∀ w, S () 0 w → R () 0 w) : Runs P (Sh.orElse a b) i R E := by
  refine ifElse ha (pure' ?_) hb
  intro n w h
  obtain ⟨rfl, h⟩ := h
  exact hz w h

theorem negate {a : Sh μ ω Unit} (ha : Runs P a true R' E)
    (h : ∀ n w, R' () n w → R () (if n = 0 then 1 else 0) w) : Runs P (Sh.negate a) i R E := by
  apply bind (tested ha)
  intro _
  refine bind (Q := fun v n w => v = n ∧ R' () n w) (lastStatus (fun n w h => ⟨rfl, h⟩)) ?_
  intro v
  apply setStatus
  intro n w hw
  obtain ⟨rfl, hw⟩ := hw
  exact h _ w hw

/-- The call of a function: `return` sets `$?`, and the call counts for errexit. -/
theorem call {body : Sh μ ω Unit} (hb : Runs P body i R' E')
    (hq : ∀ n w, R' () n w → (n = 0 ∨ i = true → R () n w) ∧
      (n ≠ 0 → i = false → E (.exited n) w))
    (hr : ∀ n w, E' (.returned n) w → (n = 0 ∨ i = true → R () n w) ∧
      (n ≠ 0 → i = false → E (.exited n) w))
    (hx : ∀ n w, E' (.exited n) w → E (.exited n) w) (hk : ∀ w, E' .killed w → E .killed w) :
    Runs P (Sh.call body) i R E := by
  refine Triple.bind (Q := fun _ s => (s.status = 0 ∨ i = true → R () s.status s.world) ∧
    (s.status ≠ 0 → i = false → E (.exited s.status) s.world)) ?_ (fun _ => errexit (fun _ => id))
  have hbody : Triple (fun s : Session ω => P s.status s.world) (body i)
      (fun _ s => (s.status = 0 ∨ i = true → R () s.status s.world) ∧
        (s.status ≠ 0 → i = false → E (.exited s.status) s.world)) (fun e s => E' e s.world) :=
    Triple.post hb (fun _ s hs => hq s.status s.world hs)
  apply Triple.handle hbody
  intro e
  cases e with
  | returned n => exact Triple.update (fun s hs => hr n s.world hs)
  | exited n => exact Triple.raise (fun s hs => hx n s.world hs)
  | killed => exact Triple.raise (fun s hs => hk s.world hs)

/-- What a rule says of a whole script: it exited and the trap worked on what was
    left, or it was killed. -/
theorem run {c : Sh μ ω Unit} {f : ω → ω} (h : Runs P c false R E) {t : List μ} {w : ω}
    (hw : P 0 w) :
    (∃ n, c.run f t w = (some n, f (c.last t w)) ∧
      (R () n (c.last t w) ∨ E (.returned n) (c.last t w) ∨ E (.exited n) (c.last t w))) ∨
    (c.run f t w = (none, c.last t w) ∧ E .killed (c.last t w)) := by
  have hx := h t { world := w } hw
  simp only [Sh.run, Sh.last, Proc.after]
  revert hx
  rcases c false t { world := w } with ⟨r, t', s⟩
  cases r with
  | ok _ => exact fun hx => Or.inl ⟨s.status, rfl, Or.inl hx⟩
  | error e =>
    cases e with
    | returned n => exact fun hx => Or.inl ⟨n, rfl, Or.inr (Or.inl hx)⟩
    | exited n => exact fun hx => Or.inl ⟨n, rfl, Or.inr (Or.inr hx)⟩
    | killed => exact fun hx => Or.inr ⟨rfl, hx⟩

/-- The invariant rule of a loop. -/
theorem forEach {I : List β → Nat → ω → Prop} {f : β → Sh μ ω Unit}
    (hf : ∀ b bs, Runs (I (b :: bs)) (f b) i (fun _ => I bs) E) :
    ∀ bs : List β, Runs (I bs) (Sh.forEach bs f) i (fun _ => I []) E
  | [] => pure' (fun _ _ => id)
  | b :: bs => bind (hf b bs) (fun _ => forEach hf bs)

end Runs

end Shell

import Mathlib.Logic.Relation

/- Processes that may stop at any point, and what holds of their runs.

   A process reads the answers of the outside world one by one from a script
   and works on a state that outlives it: an exception, and the end of the
   script, leave the state as the last operation left it. A script that ends
   early is a process that died there, so a statement about every script is a
   statement about every point at which the process can be stopped.

   `Triple P x Q E` says that a run of `x` from a state with `P` ends in a state
   with `Q` if `x` returns and with `E` if it does not, for every script.
   `Completes G n P x Q` says that `x` returns, with `Q`, whenever the script
   holds at least `n` answers and all of them satisfy `G`. -/
namespace Process

/-- The exceptions of a process, among them the one that ends it from outside. -/
class Mortal (ε : Type) where
  killed : ε

/-- A process with answers `μ`, exceptions `ε`, state `σ` and result `α`. -/
def Proc (μ ε σ α : Type) : Type := List μ → σ → Except ε α × List μ × σ

variable {μ ε σ τ α β : Type}

namespace Proc

instance : Monad (Proc μ ε σ) where
  pure a := fun t s => (.ok a, t, s)
  bind x f := fun t s =>
    match x t s with
    | (.ok a, t', s') => f a t' s'
    | (.error e, t', s') => (.error e, t', s')

/-- Raise an exception. -/
def raise (e : ε) : Proc μ ε σ α := fun t s => (.error e, t, s)

/-- Read the state. -/
def read : Proc μ ε σ σ := fun t s => (.ok s, t, s)

/-- Change the state by something that no outside answer decides. -/
def update (f : σ → σ) : Proc μ ε σ Unit := fun t s => (.ok (), t, f s)

/-- One operation: the next answer and the state decide its result and the new
    state. Without an answer the process is dead. -/
def perform [Mortal ε] (f : μ → σ → Except ε α × σ) : Proc μ ε σ α := fun t s =>
  match t with
  | [] => (.error Mortal.killed, [], s)
  | m :: t' => ((f m s).1, t', (f m s).2)

/-- Run `x`; on an exception continue with `h`. -/
def handle (x : Proc μ ε σ α) (h : ε → Proc μ ε σ α) : Proc μ ε σ α := fun t s =>
  match x t s with
  | (.ok a, t', s') => (.ok a, t', s')
  | (.error e, t', s') => h e t' s'

/-- Run `x` and return how it ended, as another process sees it. -/
def outcome (x : Proc μ ε σ α) : Proc μ ε σ (Except ε α) := fun t s =>
  match x t s with
  | (r, t', s') => (.ok r, t', s')

/-- Run a process on a part of the state. -/
def zoom (get : σ → τ) (put : σ → τ → σ) (x : Proc μ ε τ α) : Proc μ ε σ α := fun t s =>
  match x t (get s) with
  | (r, t', u) => (r, t', put s u)

/-- Run `f` on every element in order. -/
def forEach : List α → (α → Proc μ ε σ Unit) → Proc μ ε σ Unit
  | [], _ => pure ()
  | a :: as, f => do f a; forEach as f

theorem bind_ok {x : Proc μ ε σ α} {f : α → Proc μ ε σ β} {t t' : List μ} {s s' : σ} {a : α}
    (h : x t s = (.ok a, t', s')) : (x >>= f) t s = f a t' s' := by
  show (match x t s with
    | (.ok a, t', s') => f a t' s'
    | (.error e, t', s') => (.error e, t', s')) = _
  rw [h]

theorem bind_error {x : Proc μ ε σ α} {f : α → Proc μ ε σ β} {t t' : List μ} {s s' : σ} {e : ε}
    (h : x t s = (.error e, t', s')) : (x >>= f) t s = (.error e, t', s') := by
  show (match x t s with
    | (.ok a, t', s') => f a t' s'
    | (.error e, t', s') => (.error e, t', s')) = _
  rw [h]

theorem bind_assoc' (x : Proc μ ε σ α) (f : α → Proc μ ε σ β) {γ : Type}
    (g : β → Proc μ ε σ γ) : (x >>= f) >>= g = x >>= fun a => f a >>= g := by
  funext t s
  rcases hx : x t s with ⟨r, t', s'⟩
  cases r with
  | error e => rw [bind_error (bind_error hx), bind_error hx]
  | ok a =>
    rw [bind_ok hx]
    rcases hf : f a t' s' with ⟨r, t'', s''⟩
    cases r with
    | error e => rw [bind_error ((bind_ok hx).trans hf), bind_error hf]
    | ok b => rw [bind_ok ((bind_ok hx).trans hf), bind_ok hf]

theorem pure_bind' (a : α) (f : α → Proc μ ε σ β) : (pure a : Proc μ ε σ α) >>= f = f a := rfl

/-- The state after a run. -/
def after (x : Proc μ ε σ α) (t : List μ) (s : σ) : σ := (x t s).2.2

/-- The result of a run. -/
def result (x : Proc μ ε σ α) (t : List μ) (s : σ) : Except ε α := (x t s).1

end Proc

/-- `Q` of the result and the state if a run returned, `E` of the exception and
    the state if it did not. -/
def Holds (Q : α → σ → Prop) (E : ε → σ → Prop) : Except ε α × List μ × σ → Prop
  | (.ok a, _, s) => Q a s
  | (.error e, _, s) => E e s

/-- Every run of `x` from a state with `P`, under any script. -/
def Triple (P : σ → Prop) (x : Proc μ ε σ α) (Q : α → σ → Prop) (E : ε → σ → Prop) : Prop :=
  ∀ t s, P s → Holds Q E (x t s)

/-- `x` keeps `I`, however it ends. -/
abbrev Keeps (I : σ → Prop) (x : Proc μ ε σ α) : Prop :=
  Triple I x (fun _ => I) (fun _ => I)

namespace Triple

variable {P P' R : σ → Prop} {Q Q' : α → σ → Prop} {E E' : ε → σ → Prop}

theorem mono {x : Proc μ ε σ α} (h : Triple P x Q E) (hp : ∀ s, P' s → P s)
    (hq : ∀ a s, Q a s → Q' a s) (he : ∀ e s, E e s → E' e s) : Triple P' x Q' E' := by
  intro t s hs
  have hx := h t s (hp s hs)
  revert hx
  rcases x t s with ⟨r, t', s'⟩
  cases r with
  | ok a => exact hq a s'
  | error e => exact he e s'

theorem pre {x : Proc μ ε σ α} (h : Triple P x Q E) (hp : ∀ s, P' s → P s) : Triple P' x Q E :=
  h.mono hp (fun _ _ => id) (fun _ _ => id)

theorem post {x : Proc μ ε σ α} (h : Triple P x Q E) (hq : ∀ a s, Q a s → Q' a s) :
    Triple P x Q' E :=
  h.mono (fun _ => id) hq (fun _ _ => id)

theorem pure' {a : α} (h : ∀ s, P s → Q a s) : Triple P (pure a : Proc μ ε σ α) Q E :=
  fun _ s hs => h s hs

theorem raise {e : ε} (h : ∀ s, P s → E e s) : Triple P (Proc.raise e : Proc μ ε σ α) Q E :=
  fun _ s hs => h s hs

theorem read {Q : σ → σ → Prop} (h : ∀ s, P s → Q s s) :
    Triple P (Proc.read : Proc μ ε σ σ) Q E :=
  fun _ s hs => h s hs

theorem update {f : σ → σ} {Q : Unit → σ → Prop} (h : ∀ s, P s → Q () (f s)) :
    Triple P (Proc.update f : Proc μ ε σ Unit) Q E :=
  fun _ s hs => h s hs

/-- The rule of an operation: every answer, and the death of the process. -/
theorem perform [Mortal ε] {f : μ → σ → Except ε α × σ} (hk : ∀ s, P s → E Mortal.killed s)
    (hf : ∀ m s, P s → ∀ r s', f m s = (r, s') →
      match r with
      | .ok a => Q a s'
      | .error e => E e s') :
    Triple P (Proc.perform f) Q E := by
  intro t s hs
  cases t with
  | nil => exact hk s hs
  | cons m t' =>
    have h := hf m s hs (f m s).1 (f m s).2 rfl
    simp only [Proc.perform]
    cases hr : (f m s).1 with
    | ok a => rw [hr] at h; exact h
    | error e => rw [hr] at h; exact h

theorem bind {x : Proc μ ε σ α} {f : α → Proc μ ε σ β} {S : β → σ → Prop} (hx : Triple P x Q E)
    (hf : ∀ a, Triple (Q a) (f a) S E) : Triple P (x >>= f) S E := by
  intro t s hs
  have h := hx t s hs
  show Holds S E (match x t s with
    | (.ok a, t', s') => f a t' s'
    | (.error e, t', s') => (.error e, t', s'))
  revert h
  rcases x t s with ⟨r, t', s'⟩
  cases r with
  | ok a => exact fun h => hf a t' s' h
  | error e => exact id

theorem handle {x : Proc μ ε σ α} {h : ε → Proc μ ε σ α} (hx : Triple P x Q E)
    (hh : ∀ e, Triple (E e) (h e) Q E') : Triple P (x.handle h) Q E' := by
  intro t s hs
  have hq := hx t s hs
  unfold Proc.handle
  revert hq
  rcases x t s with ⟨r, t', s'⟩
  cases r with
  | ok a => exact id
  | error e => exact fun he => hh e t' s' he

theorem outcome {x : Proc μ ε σ α} {Q' : Except ε α → σ → Prop} (hx : Triple P x Q E)
    (hok : ∀ a s, Q a s → Q' (.ok a) s) (herr : ∀ e s, E e s → Q' (.error e) s) :
    Triple P x.outcome Q' E' := by
  intro t s hs
  have h := hx t s hs
  unfold Proc.outcome
  revert h
  rcases x t s with ⟨r, t', s'⟩
  cases r with
  | ok a => exact hok a s'
  | error e => exact herr e s'

theorem zoom {get : σ → τ} {put : σ → τ → σ} {x : Proc μ ε τ α} {I : τ → Prop}
    {Q₁ : α → τ → Prop} {E₁ : ε → τ → Prop} (s₀ : σ) (hx : Triple I x Q₁ E₁)
    (hp : ∀ s, P s → s = s₀ ∧ I (get s)) (hq : ∀ a u, Q₁ a u → Q a (put s₀ u))
    (he : ∀ e u, E₁ e u → E e (put s₀ u)) : Triple P (x.zoom get put) Q E := by
  intro t s hs
  obtain ⟨rfl, h₁⟩ := hp s hs
  have h := hx t (get s) h₁
  unfold Proc.zoom
  revert h
  rcases x t (get s) with ⟨r, t', u⟩
  cases r with
  | ok a => exact hq a u
  | error e => exact he e u

theorem ite {c : Prop} [Decidable c] {x y : Proc μ ε σ α} (hx : c → Triple P x Q E)
    (hy : ¬c → Triple P y Q E) : Triple P (if c then x else y) Q E := by
  by_cases h : c
  · simp only [h, if_true]; exact hx h
  · simp only [h, if_false]; exact hy h

/-- A fact the precondition gives may be used as a hypothesis. -/
theorem given {φ : Prop} {x : Proc μ ε σ α} (hp : ∀ s, P s → φ) (h : φ → Triple P x Q E) :
    Triple P x Q E :=
  fun t s hs => h (hp s hs) t s hs

/-- From one fixed state at a time. -/
theorem start {x : Proc μ ε σ α} (h : ∀ s₀, P s₀ → Triple (fun s => s = s₀) x Q E) :
    Triple P x Q E :=
  fun t s hs => h s hs t s rfl

theorem conj {x : Proc μ ε σ α} (h : Triple P x Q E) (h' : Triple P x Q' E') :
    Triple P x (fun a s => Q a s ∧ Q' a s) (fun e s => E e s ∧ E' e s) := by
  intro t s hs
  have h₁ := h t s hs
  have h₂ := h' t s hs
  revert h₁ h₂
  rcases x t s with ⟨r, t', s'⟩
  cases r with
  | ok a => exact fun h₁ h₂ => ⟨h₁, h₂⟩
  | error e => exact fun h₁ h₂ => ⟨h₁, h₂⟩

/-- The invariant rule of a loop. -/
theorem forEach {I : List α → σ → Prop} {f : α → Proc μ ε σ Unit}
    (hf : ∀ a as, Triple (I (a :: as)) (f a) (fun _ => I as) E) :
    ∀ as : List α, Triple (I as) (Proc.forEach as f) (fun _ => I []) E
  | [] => pure' (fun _ => id)
  | a :: as => bind (hf a as) (fun _ => forEach hf as)

/-- What a triple says of one run. -/
theorem after {x : Proc μ ε σ α} {R : σ → Prop} (h : Triple P x (fun _ => R) (fun _ => R))
    {t : List μ} {s : σ} (hs : P s) : R (x.after t s) := by
  have hx := h t s hs
  simp only [Proc.after]
  revert hx
  rcases x t s with ⟨r, t', s'⟩
  cases r <;> exact id

/-- What a triple says of a run that returned. -/
theorem returned {x : Proc μ ε σ α} (h : Triple P x Q E) {t : List μ} {s : σ} {a : α} (hs : P s)
    (hr : x.result t s = .ok a) : Q a (x.after t s) := by
  have hx := h t s hs
  simp only [Proc.result, Proc.after] at hr ⊢
  revert hr hx
  rcases x t s with ⟨r, t', s'⟩
  intro hr hx
  cases hr
  exact hx

end Triple

namespace Keeps

variable {I : σ → Prop}

theorem bind {x : Proc μ ε σ α} {f : α → Proc μ ε σ β} (hx : Keeps I x)
    (hf : ∀ a, Keeps I (f a)) : Keeps I (x >>= f) :=
  Triple.bind hx hf

theorem handle {x : Proc μ ε σ α} {h : ε → Proc μ ε σ α} (hx : Keeps I x)
    (hh : ∀ e, Keeps I (h e)) : Keeps I (x.handle h) :=
  Triple.handle hx hh

theorem forEach {f : α → Proc μ ε σ Unit} (as : List α) (hf : ∀ a ∈ as, Keeps I (f a)) :
    Keeps I (Proc.forEach as f) := by
  induction as with
  | nil => exact Triple.pure' (fun _ => id)
  | cons a as ih =>
    exact bind (hf a (by simp)) (fun _ => ih (fun b hb => hf b (by simp [hb])))

end Keeps

/-- Every state that a run of `x` leaves is related to the one it started from. -/
def Stays (R : σ → σ → Prop) (x : Proc μ ε σ α) : Prop := ∀ s₀, Keeps (R s₀) x

namespace Stays

variable {R R' : σ → σ → Prop}

/-- What `R` preserves is kept. -/
theorem keeps {x : Proc μ ε σ α} {I : σ → Prop} (hx : Stays R x) (hrefl : ∀ s, R s s)
    (hI : ∀ s s', R s s' → I s → I s') : Keeps I x := by
  refine Triple.start (fun s₀ h₀ => ?_)
  refine (hx s₀).mono ?_ (fun _ s h => hI s₀ s h h₀) (fun _ s h => hI s₀ s h h₀)
  intro s h
  rw [h]
  exact hrefl s₀

theorem mono {x : Proc μ ε σ α} (hx : Stays R x) (hrefl : ∀ s, R s s)
    (htrans : ∀ s s' s'', R' s s' → R' s' s'' → R' s s'') (h : ∀ s s', R s s' → R' s s') :
    Stays R' x :=
  fun s₀ => hx.keeps hrefl (fun s s' hR hs => htrans s₀ s s' hs (h s s' hR))

theorem bind {x : Proc μ ε σ α} {f : α → Proc μ ε σ β} (hx : Stays R x) (hf : ∀ a, Stays R (f a)) :
    Stays R (x >>= f) :=
  fun s₀ => Triple.bind (hx s₀) (fun a => hf a s₀)

theorem handle {x : Proc μ ε σ α} {h : ε → Proc μ ε σ α} (hx : Stays R x)
    (hh : ∀ e, Stays R (h e)) : Stays R (x.handle h) :=
  fun s₀ => Triple.handle (hx s₀) (fun e => hh e s₀)

theorem ite {c : Prop} [Decidable c] {x y : Proc μ ε σ α} (hx : Stays R x) (hy : Stays R y) :
    Stays R (if c then x else y) :=
  fun s₀ => Triple.ite (fun _ => hx s₀) (fun _ => hy s₀)

theorem pure' (a : α) : Stays R (pure a : Proc μ ε σ α) := fun _ => Triple.pure' (fun _ hs => hs)

theorem raise (e : ε) : Stays R (Proc.raise e : Proc μ ε σ α) :=
  fun _ => Triple.raise (fun _ hs => hs)

theorem read : Stays R (Proc.read : Proc μ ε σ σ) := fun _ => Triple.read (fun _ hs => hs)

end Stays

end Process

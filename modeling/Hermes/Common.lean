import Hermes.Outside
import Hermes.Library.Completion

/- `common.py`: failures, requirements, commands and atomic writes. -/
namespace Hermes
open Process

variable {σ α : Type}

/-- A process of the unattended deployment. -/
abbrev Task (σ α : Type) : Type := Proc Moment Exc σ α

/-- A SHA-256 digest, as the free term over its preimage: distinct contents have
    distinct digests. -/
structure Digest where
  preimage : String
  deriving DecidableEq, Repr

/-- `hashlib.sha256`. -/
def digest (content : String) : Digest := ⟨content⟩

/-- `raise Failure(code, reason)`. -/
def fail (code : Nat) (reason : String) : Task σ α := Proc.raise (.failure code reason)

/-- `require(condition, reason, code)`. -/
def require (condition : Bool) (reason : String) (code : Nat := 78) : Task σ Unit :=
  if condition then pure () else fail code reason

/-- `if condition: x`. -/
def onlyIf (condition : Bool) (x : Task σ Unit) : Task σ Unit := if condition then x else pure ()

/-- Look at the clock or another source that always answers. -/
def instant : Task σ Moment :=
  Proc.perform fun m s => if m.verdict = .killed then (.error .killed, s) else (.ok m, s)

/-- The `Failure` of `run` for a command that did not succeed. -/
def runFailure : Verdict → Exc
  | .timeout => .failure 69 "operation-timeout"
  | .missing => .failure 69 "required-command-unavailable"
  | .killed => .killed
  | _ => .failure 69 "operation-failed"

/-- `run(args)`: the command has the effect `effect` and prints `output` where it
    can succeed on the system present (`can`); one that fails may have had its
    effect or not. -/
def run (can : σ → Bool) (effect : Moment → σ → σ) (output : Moment → σ → α) : Task σ α :=
  Proc.perform fun m s =>
    if m.verdict = .done then
      if can s then (.ok (output m s), effect m s)
      else (.error (.failure 69 "operation-failed"), s)
    else (.error (runFailure m.verdict), if m.took && can s then effect m s else s)

/-- A command without output. -/
def command (can : σ → Bool) (effect : Moment → σ → σ) : Task σ Unit :=
  run can effect (fun _ _ => ())

/-- A command that only looks. -/
def query (can : σ → Bool) (output : Moment → σ → α) : Task σ α :=
  run can (fun _ s => s) output

/-- Look at the state; the look itself may fail. -/
def peek (value : σ → α) : Task σ α := query (fun _ => true) (fun _ s => value s)

/-- Run `x`; how it failed, if it did. A process that was killed is dead. -/
def failureOf (x : Task σ Unit) : Task σ (Option Exc) :=
  Proc.handle (do x; pure none) fun e =>
    match e with
    | .killed => Proc.raise .killed
    | e => pure (some e)

/-- `with lock(path)`: another holder makes it fail. -/
def lockFile : Task σ Unit :=
  Proc.perform fun m s =>
    if m.verdict = .done then (.ok (), s)
    else if m.verdict = .killed then (.error .killed, s)
    else (.error (.failure 75 "target-busy"), s)

/-- The exception of a file operation that did not succeed. -/
def fileError : Verdict → Exc
  | .killed => .killed
  | _ => .osError

/-- `atomic(path, data)` and the other single file operations: the effect happens
    at once or not at all; after an error it may have happened. -/
def atomic (effect : Moment → σ → σ) : Task σ Unit :=
  Proc.perform fun m s =>
    if m.verdict = .done then (.ok (), effect m s)
    else (.error (fileError m.verdict), if m.took then effect m s else s)

section Rules

variable {P : σ → Prop} {E : Exc → σ → Prop}

theorem require_triple {c : Bool} {reason : String} {code : Nat} {Q : Unit → σ → Prop}
    (hc : c = true → ∀ s, P s → Q () s)
    (he : c = false → ∀ s, P s → E (.failure code reason) s) :
    Triple P (require c reason code : Task σ Unit) Q E := by
  unfold require
  refine Triple.ite (fun h => Triple.pure' (hc h)) (fun h => Triple.raise (he ?_))
  simpa using h

theorem onlyIf_triple {c : Bool} {x : Task σ Unit} {Q : Unit → σ → Prop}
    (hx : c = true → Triple P x Q E) (hn : c = false → ∀ s, P s → Q () s) :
    Triple P (onlyIf c x) Q E :=
  Triple.ite hx (fun h => Triple.pure' (hn (by simpa using h)))

theorem instant_triple {Q : Moment → σ → Prop} (hok : ∀ m s, P s → Q m s)
    (herr : ∀ e s, P s → E e s) : Triple P (instant : Task σ Moment) Q E := by
  refine Triple.perform (fun s hs => herr _ s hs) ?_
  intro m s hs r s' hr
  split at hr
  · cases hr; exact herr _ _ hs
  · cases hr; exact hok m _ hs

theorem run_triple {can : σ → Bool} {effect : Moment → σ → σ} {output : Moment → σ → α}
    {Q : α → σ → Prop} (hok : ∀ m s, P s → can s = true → Q (output m s) (effect m s))
    (herr : ∀ e s, P s → E e s)
    (htook : ∀ e m s, P s → can s = true → E e (effect m s)) :
    Triple P (run can effect output) Q E := by
  refine Triple.perform (fun s hs => herr _ s hs) ?_
  intro m s hs r s' hr
  by_cases hv : m.verdict = .done
  · rw [if_pos hv] at hr
    by_cases hc : can s = true
    · rw [if_pos hc] at hr; cases hr; exact hok m s hs hc
    · rw [if_neg hc] at hr; cases hr; exact herr _ _ hs
  · rw [if_neg hv] at hr
    cases hr
    show E _ _
    split
    · next h => exact htook _ m s hs (by simpa using (Bool.and_eq_true _ _ ▸ h).2)
    · exact herr _ s hs

theorem query_triple {can : σ → Bool} {output : Moment → σ → α} {Q : α → σ → Prop}
    (hok : ∀ m s, P s → can s = true → Q (output m s) s) (herr : ∀ e s, P s → E e s) :
    Triple P (query can output) Q E :=
  run_triple hok herr (fun e _ s hs _ => herr e s hs)

theorem atomic_triple {effect : Moment → σ → σ} {Q : Unit → σ → Prop}
    (hok : ∀ m s, P s → Q () (effect m s)) (herr : ∀ e s, P s → E e s)
    (htook : ∀ e m s, P s → E e (effect m s)) : Triple P (atomic effect) Q E := by
  refine Triple.perform (fun s hs => herr _ s hs) ?_
  intro m s hs r s' hr
  by_cases hv : m.verdict = .done
  · rw [if_pos hv] at hr; cases hr; exact hok m s hs
  · rw [if_neg hv] at hr
    cases hr
    show E _ _
    split
    · exact htook _ m s hs
    · exact herr _ s hs

theorem instant_keeps {I : σ → Prop} : Keeps I (instant : Task σ Moment) :=
  instant_triple (fun _ _ => id) (fun _ _ => id)

/-- A command keeps what its effect keeps. -/
theorem run_keeps {I : σ → Prop} {can : σ → Bool} {effect : Moment → σ → σ}
    {output : Moment → σ → α} (h : ∀ m s, I s → can s = true → I (effect m s)) :
    Keeps I (run can effect output) :=
  run_triple h (fun _ _ => id) (fun _ => h)

theorem query_keeps {I : σ → Prop} {can : σ → Bool} {output : Moment → σ → α} :
    Keeps I (query can output) :=
  query_triple (fun _ _ h _ => h) (fun _ _ => id)

theorem atomic_keeps {I : σ → Prop} {effect : Moment → σ → σ}
    (h : ∀ m s, I s → I (effect m s)) : Keeps I (atomic effect) :=
  atomic_triple h (fun _ _ => id) (fun _ => h)

theorem peek_triple {value : σ → α} {Q : α → σ → Prop} (hok : ∀ s, P s → Q (value s) s)
    (herr : ∀ e s, P s → E e s) : Triple P (peek value) Q E :=
  query_triple (fun _ s hs _ => hok s hs) herr

theorem peek_keeps {I : σ → Prop} {value : σ → α} : Keeps I (peek value) := query_keeps

theorem failureOf_triple {x : Task σ Unit} {Q : Unit → σ → Prop} {F : Exc → σ → Prop}
    {S : Option Exc → σ → Prop} (hx : Triple P x Q F) (hok : ∀ s, Q () s → S none s)
    (herr : ∀ e s, F e s → S (some e) s) (hk : ∀ s, F .killed s → E .killed s) :
    Triple P (failureOf x) S E := by
  refine Triple.handle (Triple.bind hx (fun _ => Triple.pure' hok)) ?_
  intro e
  split
  · exact Triple.raise hk
  · exact Triple.pure' (fun s hs => herr _ s hs)

theorem failureOf_keeps {I : σ → Prop} {x : Task σ Unit} (hx : Keeps I x) : Keeps I (failureOf x) :=
  failureOf_triple hx (fun _ h => h) (fun _ _ h => h) (fun _ h => h)

theorem lockFile_keeps {I : σ → Prop} : Keeps I (lockFile : Task σ Unit) := by
  refine Triple.perform (fun _ h => h) ?_
  intro m s hs r s' hr
  split at hr
  · cases hr; exact hs
  · split at hr <;> (cases hr; exact hs)

theorem onlyIf_keeps {I : σ → Prop} {c : Bool} {x : Task σ Unit} (h : Keeps I x) :
    Keeps I (onlyIf c x) :=
  onlyIf_triple (fun _ => h) (fun _ _ hs => hs)

theorem require_keeps {I : σ → Prop} {c : Bool} {reason : String} {code : Nat} :
    Keeps I (require c reason code : Task σ Unit) :=
  require_triple (fun _ _ => id) (fun _ _ => id)

/-! The same of the relation between the states of a run. -/

variable {R : σ → σ → Prop}

theorem stays_run {can : σ → Bool} {effect : Moment → σ → σ} {output : Moment → σ → α}
    (htrans : ∀ s s' s'', R s s' → R s' s'' → R s s'') (h : ∀ m s, R s (effect m s)) :
    Stays R (run can effect output) :=
  fun s₀ => run_keeps (fun m s hs _ => htrans s₀ s _ hs (h m s))

theorem stays_atomic {effect : Moment → σ → σ}
    (htrans : ∀ s s' s'', R s s' → R s' s'' → R s s'') (h : ∀ m s, R s (effect m s)) :
    Stays R (atomic effect) :=
  fun s₀ => atomic_keeps (fun m s hs => htrans s₀ s _ hs (h m s))

theorem stays_update {f : σ → σ} (htrans : ∀ s s' s'', R s s' → R s' s'' → R s s'')
    (h : ∀ s, R s (f s)) : Stays R (Proc.update f : Task σ Unit) :=
  fun s₀ => Triple.update (fun s hs => htrans s₀ s _ hs (h s))

end Rules

/-! Where every operation that can succeed does. -/

section Good

variable {G : Moment → Prop} {P : σ → Prop} {E : Exc → σ → Prop}

theorem run_within {can : σ → Bool} {effect : Moment → σ → σ} {output : Moment → σ → α}
    {Q : α → σ → Prop} (hG : ∀ m, G m → m.verdict = .done)
    (hok : ∀ m s, G m → P s → can s = true → Q (output m s) (effect m s))
    (hno : ∀ s, P s → can s = false → E (.failure 69 "operation-failed") s) :
    Within G 1 P (run can effect output) Q E := by
  refine Within.perform ?_
  intro m s hm hs r s' hr
  rw [if_pos (hG m hm)] at hr
  cases hc : can s with
  | true => rw [hc, if_pos rfl] at hr; cases hr; exact hok m s hm hs hc
  | false => rw [hc, if_neg (by simp)] at hr; cases hr; exact hno s hs hc

theorem atomic_within {effect : Moment → σ → σ} {Q : Unit → σ → Prop}
    (hG : ∀ m, G m → m.verdict = .done) (hok : ∀ m s, G m → P s → Q () (effect m s)) :
    Within G 1 P (atomic effect) Q E := by
  refine Within.perform ?_
  intro m s hm hs r s' hr
  rw [if_pos (hG m hm)] at hr
  cases hr
  exact hok m s hm hs

theorem require_within {c : Bool} {reason : String} {code n : Nat} {Q : Unit → σ → Prop}
    (hc : ∀ s, P s → c = true) (hok : ∀ s, P s → Q () s) :
    Within G n P (require c reason code : Task σ Unit) Q E := by
  unfold require
  refine Within.ite (fun _ => Within.pure' hok) (fun h => ?_)
  exact fun _ s _ _ hs => absurd (hc s hs) h

theorem require_decided {c : Bool} {reason : String} {code n : Nat} {Q : Unit → σ → Prop}
    (hc : c = true → ∀ s, P s → Q () s)
    (he : c = false → ∀ s, P s → E (.failure code reason) s) :
    Within G n P (require c reason code : Task σ Unit) Q E := by
  unfold require
  apply Within.ite (fun h => Within.pure' (hc h))
  exact fun h => Within.raise (he (by simpa using h))

end Good

end Hermes

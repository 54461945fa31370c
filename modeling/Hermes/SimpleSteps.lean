import Hermes.SimpleHost

/- The rules of the operations of the simple installer: for every run, and for runs in
   which every operation succeeds that can. -/
namespace Hermes.Simple
open Process

variable {α : Type} {P : Session → Prop} {E : Exc → Session → Prop}

/-- What the passing of time does not touch. -/
def Timeless (P : Session → Prop) : Prop := ∀ units s, P s → P (s.onHost (·.elapse units))

/-! Every run. -/

theorem pass_triple {Q : Unit → Session → Prop}
    (hok : ∀ units s, P s → Q () (s.onHost (·.elapse units))) (hk : ∀ s, P s → E .killed s)
    (herr : ∀ units s, P s → E .killed (s.onHost (·.elapse units))) : Triple P pass Q E := by
  refine Triple.perform hk ?_
  intro m s hs r s' hr
  split at hr
  · cases hr; exact herr _ s hs
  · cases hr; exact hok _ s hs

theorem pass_keeps (ht : Timeless P) (hE : ∀ e s, P s → E e s) :
    Triple P pass (fun _ => P) E :=
  pass_triple (fun units s => ht units s) (fun s => hE _ s) (fun units s hs => hE _ _ (ht units s hs))

theorem look_triple (ht : Timeless P) (hE : ∀ e s, P s → E e s) :
    Triple P look (fun _ => P) E :=
  Triple.bind (pass_keeps ht hE) (fun _ => instant_triple (fun _ _ => id) (fun e s => hE e s))

theorem run_triple {name : String} {can : Session → Bool} {effect : Moment → Session → Session}
    {output : Moment → Session → α} {Q : α → Session → Prop} (ht : Timeless P)
    (hok : ∀ m s, P s → can s = true → Q (output m s) (effect m s))
    (herr : ∀ e s, P s → E e s) (htook : ∀ e m s, P s → can s = true → E e (effect m s)) :
    Triple P (run name can effect output) Q E := by
  refine Triple.bind (pass_keeps ht herr) (fun _ => ?_)
  refine Triple.handle (E := fun _ s => ∀ e, E e s) ?_ (fun e => Triple.raise (fun s hs => hs _))
  apply Hermes.run_triple hok
  · intro _ s hs e
    exact herr e s hs
  · intro _ m s hs hc e
    exact htook e m s hs hc

theorem command_triple {name : String} {can : Host → Bool} {effect : Moment → Host → Host}
    {Q : Unit → Session → Prop} (ht : Timeless P)
    (hok : ∀ m s, P s → can s.host = true → Q () (s.onHost (effect m)))
    (herr : ∀ e s, P s → E e s)
    (htook : ∀ e m s, P s → can s.host = true → E e (s.onHost (effect m))) :
    Triple P (command name can effect) Q E :=
  run_triple ht hok herr htook

/-- A command whose failure is allowed may have had its effect or not. -/
theorem commandAllowed_triple {name : String} {can : Host → Bool} {effect : Moment → Host → Host}
    {Q : Unit → Session → Prop} (ht : Timeless P) (hn : ∀ s, P s → Q () s)
    (hok : ∀ m s, P s → can s.host = true → Q () (s.onHost (effect m)))
    (herr : ∀ e s, P s → E e s)
    (htook : ∀ e m s, P s → can s.host = true → E e (s.onHost (effect m))) :
    Triple P (commandAllowed name can effect) Q E := by
  refine Triple.handle (E := fun _ s => Q () s ∧ ∀ e, E e s) ?_ (fun e => ?_)
  · apply command_triple ht hok
    · intro _ s hs
      exact ⟨hn s hs, fun e => herr e s hs⟩
    · intro _ m s hs hc
      exact ⟨hok m s hs hc, fun e => htook e m s hs hc⟩
  · apply Triple.ite
    · intro _
      exact Triple.pure' (fun s hs => hs.1)
    · intro _
      exact Triple.raise (fun s hs => hs.2 e)

theorem accountEntry_triple (herr : ∀ e s, P s → E e s) :
    Triple P accountEntry (fun a s => s.host.account = some a ∧ P s) E := by
  refine Triple.bind (Triple.read (Q := fun a s => a = s ∧ P s) (fun s hs => ⟨rfl, hs⟩)) (fun a => ?_)
  cases ha : a.host.account with
  | none => exact Triple.raise (fun s hs => herr _ s hs.2)
  | some account =>
    apply Triple.pure'
    intro s hs
    exact ⟨hs.1 ▸ ha, hs.2⟩

theorem user_triple {can : Host → Bool} {effect : Moment → Host → Host}
    {Q : Unit → Session → Prop} (ht : Timeless P)
    (hok : ∀ m s, P s → can s.host = true → Q () (s.onHost (effect m)))
    (herr : ∀ e s, P s → E e s)
    (htook : ∀ e m s, P s → can s.host = true → E e (s.onHost (effect m))) :
    Triple P (user can effect) Q E :=
  Triple.bind ((accountEntry_triple herr).post (fun _ _ hs => hs.2))
    (fun _ => command_triple ht hok herr htook)

theorem userOutput_triple {can : Host → Bool} {output : Moment → Host → α}
    {Q : α → Session → Prop} (ht : Timeless P)
    (hok : ∀ m s, P s → can s.host = true → Q (output m s.host) s)
    (herr : ∀ e s, P s → E e s) : Triple P (userOutput can output) Q E :=
  Triple.bind ((accountEntry_triple herr).post (fun _ _ hs => hs.2))
    (fun _ => run_triple ht hok herr (fun e _ s hs _ => herr e s hs))

theorem userAllowed_triple {effect : Moment → Host → Host} {Q : Unit → Session → Prop}
    (ht : Timeless P) (hn : ∀ s, P s → Q () s)
    (hok : ∀ m s, P s → Q () (s.onHost (effect m))) (herr : ∀ e s, P s → E e s)
    (htook : ∀ e m s, P s → E e (s.onHost (effect m))) :
    Triple P (userAllowed effect) Q E :=
  Triple.bind ((accountEntry_triple herr).post (fun _ _ hs => hs.2))
    (fun _ => commandAllowed_triple ht hn (fun m s hs _ => hok m s hs) herr
      (fun e m s hs _ => htook e m s hs))

theorem check_triple {c : Bool} {reason : String} {Q : Unit → Session → Prop}
    (hc : c = true → ∀ s, P s → Q () s) (herr : ∀ e s, P s → E e s) :
    Triple P (check c reason) Q E :=
  require_triple hc (fun _ s hs => herr _ s hs)

theorem protect_triple (ht : Timeless P) (herr : ∀ e s, P s → E e s) :
    Triple P protect (fun _ => P) E :=
  Triple.bind (look_triple ht herr) (fun _ => check_triple (fun _ _ hs => hs) herr)

theorem change_triple {effect : Moment → Host → Host} {Q : Unit → Session → Prop}
    (ht : Timeless P) (hok : ∀ m s, P s → Q () (s.onHost (effect m)))
    (herr : ∀ e s, P s → E e s) (htook : ∀ e m s, P s → E e (s.onHost (effect m))) :
    Triple P (change effect) Q E :=
  Triple.bind (pass_keeps ht herr) (fun _ => atomic_triple hok herr htook)

theorem writeFile_triple {path : Path} {file : File} {Q : Unit → Session → Prop}
    (ht : Timeless P) (hok : ∀ s, P s → Q () (s.onHost (·.setFile path (some file))))
    (herr : ∀ e s, P s → E e s)
    (htook : ∀ e s, P s → E e (s.onHost (·.setFile path (some file)))) :
    Triple P (writeFile path file) Q E :=
  Triple.bind (protect_triple ht herr)
    (fun _ => change_triple ht (fun _ s => hok s) herr (fun e _ s => htook e s))

/-- The journal in memory with its new phase, and then the same on the disk. -/
theorem save_triple {phase : Option Phase} {note : Host → Host} {R : Session → Prop}
    {Q : Unit → Session → Prop} (ht : Timeless R)
    (hm : ∀ s, P s → R (s.onState fun st => { st with phase := phase.or st.phase }))
    (hok : ∀ s, R s → Q () (s.onHost fun h => note { h with journal := some s.state }))
    (herr : ∀ e s, R s → E e s)
    (htook : ∀ e s, R s → E e (s.onHost fun h => note { h with journal := some s.state })) :
    Triple P (save phase note) Q E := by
  refine Triple.bind (Triple.update (Q := fun _ => R) hm) (fun _ => ?_)
  refine Triple.bind (protect_triple ht herr) (fun _ => ?_)
  refine Triple.bind (pass_keeps ht herr) (fun _ => ?_)
  exact atomic_triple (fun _ => hok) herr (fun e _ => htook e)

theorem field_triple {value : State → Option α} (herr : ∀ e s, P s → E e s) :
    Triple P (field value) (fun a s => value s.state = some a ∧ P s) E := by
  refine Triple.bind (Triple.read (Q := fun a s => a = s ∧ P s) (fun s hs => ⟨rfl, hs⟩)) (fun a => ?_)
  cases ha : value a.state with
  | none => exact Triple.raise (fun s hs => herr _ s hs.2)
  | some v =>
    apply Triple.pure'
    intro s hs
    exact ⟨hs.1 ▸ ha, hs.2⟩

/-! The functions that only look keep whatever the passing of time does not touch. -/

section Looks

variable (ht : Timeless P)
include ht

theorem output_keeps {name : String} {can : Session → Bool} {output : Moment → Session → α} :
    Keeps P (run name can (fun _ s => s) output) :=
  run_triple ht (fun _ _ hs _ => hs) (fun _ _ => id) (fun _ _ _ hs _ => hs)

theorem userOutput_keeps {can : Host → Bool} {output : Moment → Host → α} :
    Keeps P (userOutput can output) :=
  userOutput_triple ht (fun _ _ hs _ => hs) (fun _ _ => id)

theorem preflight_keeps (config : Config) : Keeps P (preflight config) := by
  refine Keeps.bind (look_triple ht (fun _ _ => id)) (fun m => ?_)
  cases m.refusal with
  | none => exact Triple.pure' (fun _ => id)
  | some reason => exact Triple.raise (fun _ => id)

theorem managementZone_keeps : Keeps P managementZone :=
  Keeps.bind (output_keeps ht)
    (fun _ => Triple.ite (fun _ => output_keeps ht) (fun _ => Triple.pure' (fun _ => id)))

omit ht in
theorem check_keeps {c : Bool} {reason : String} : Keeps P (check c reason) :=
  check_triple (fun _ _ => id) (fun _ _ => id)

theorem healthy_keeps (config : Config) (inference : Bool) : Keeps P (healthy config inference) := by
  refine Keeps.bind (userOutput_keeps ht) (fun v => ?_)
  refine Keeps.bind check_keeps (fun _ => Keeps.bind check_keeps (fun _ => ?_))
  refine Keeps.bind check_keeps (fun _ => Keeps.bind check_keeps (fun _ => ?_))
  refine Keeps.bind check_keeps (fun _ => onlyIf_keeps ?_)
  exact Keeps.bind (userOutput_keeps ht) (fun _ => check_keeps)

theorem waitRounds_keeps (config : Config) (n : Nat) : Keeps P (waitRounds config n) := by
  induction n with
  | zero => exact Triple.raise (fun _ => id)
  | succ n ih =>
    apply Keeps.handle (healthy_keeps ht config false)
    intro e
    apply Triple.ite
    · intro _
      exact Keeps.bind (pass_keeps ht (fun _ _ => id)) (fun _ => ih)
    · intro _
      exact Triple.raise (fun _ => id)

theorem readLibrary_keeps (name : String) : Keeps P (readLibrary name) := by
  refine Keeps.bind (pass_keeps ht (fun _ _ => id)) (fun _ => ?_)
  refine Keeps.bind (Triple.read (fun _ => id)) (fun s => ?_)
  cases s.host.library name with
  | none => exact Triple.raise (fun _ => id)
  | some text => exact Triple.pure' (fun _ => id)

/-- The payload goes to the library. -/
theorem installPayload_keeps
    (hl : ∀ (f : Host → String → Option String) s, P s → P (s.onHost fun h => { h with library := f h })) (files : Payload) : Keeps P (installPayload files) := by
  have hprotect : Keeps P protect := protect_triple ht (fun _ _ => id)
  refine Keeps.bind check_keeps (fun _ => Keeps.bind hprotect (fun _ => ?_))
  apply Keeps.forEach
  intro f _
  refine Keeps.bind check_keeps (fun _ => Keeps.bind hprotect (fun _ => ?_))
  exact change_triple ht (fun _ s => hl _ s) (fun _ _ => id) (fun _ _ s => hl _ s)

omit ht in
theorem bound_keeps (config : Config) (token : String) : Keeps P (bound config token) :=
  Keeps.bind (Triple.read (fun _ => id)) (fun _ => check_keeps)

omit ht in
theorem admissible_keeps (key : Option String) (previous : Option Config) : Keeps P (admissible key previous) := by
  refine Keeps.bind (Triple.read (fun _ => id)) (fun s => ?_)
  refine Keeps.bind (onlyIf_keeps check_keeps) (fun _ => Keeps.bind check_keeps (fun _ => ?_))
  exact onlyIf_keeps (Triple.raise (fun _ => id))

theorem status_keeps : Keeps P status := by
  refine Keeps.bind (Triple.read (fun _ => id)) (fun s => Keeps.bind check_keeps (fun _ => ?_))
  refine Keeps.bind check_keeps (fun _ => ?_)
  cases (s.host.journal.getD {}).config with
  | none => exact Triple.raise (fun _ => id)
  | some config =>
    exact Keeps.bind (healthy_keeps ht config false) (fun _ => Triple.pure' (fun _ => id))

end Looks

/-! Runs in which every operation succeeds that can. -/

section Good

variable {G : Moment → Prop}

theorem pass_within (hG : ∀ m, G m → m.verdict = .done) (ht : Timeless P) :
    Within G 1 P pass (fun _ => P) E := by
  apply Within.perform
  intro m s hm hs r s' hr
  rw [if_neg (by simp [hG m hm])] at hr
  cases hr
  exact ht _ s hs

theorem instant_within {n : Nat} (hG : ∀ m, G m → m.verdict = .done) :
    Within G (n + 1) P (instant : Action Moment) (fun m s => G m ∧ P s) E := by
  apply Within.perform
  intro m s hm hs r s' hr
  rw [if_neg (by simp [hG m hm])] at hr
  cases hr
  exact ⟨hm, hs⟩

theorem look_within (hG : ∀ m, G m → m.verdict = .done) (ht : Timeless P) :
    Within G 2 P look (fun m s => G m ∧ P s) E :=
  Within.bind_sub (a := 1) (pass_within hG ht) (fun _ => instant_within (n := 0) hG) (by omega)

theorem run_within {name : String} {can : Session → Bool} {effect : Moment → Session → Session}
    {output : Moment → Session → α} {Q : α → Session → Prop} (hG : ∀ m, G m → m.verdict = .done)
    (ht : Timeless P) (hok : ∀ m s, G m → P s → can s = true → Q (output m s) (effect m s))
    (hno : ∀ e s, P s → can s = false → E e s) :
    Within G 2 P (run name can effect output) Q E := by
  apply Within.bind_sub (a := 1) (pass_within hG ht) (fun _ => ?_) (by omega)
  apply Within.handle (a := 1) (b := 0) (E := fun _ s => ∀ e, E e s)
  · exact Hermes.run_within hG hok (fun s hs hc e => hno e s hs hc)
  · intro e
    exact Within.raise (fun s hs => hs _)

theorem command_within {name : String} {can : Host → Bool} {effect : Moment → Host → Host}
    {Q : Unit → Session → Prop} (hG : ∀ m, G m → m.verdict = .done) (ht : Timeless P)
    (hok : ∀ m s, P s → can s.host = true → Q () (s.onHost (effect m)))
    (hno : ∀ e s, P s → can s.host = false → E e s) :
    Within G 2 P (command name can effect) Q E :=
  run_within hG ht (fun m s _ => hok m s) hno

/-- A command that can always succeed. -/
theorem command_done {name : String} {effect : Moment → Host → Host} {Q : Unit → Session → Prop}
    (hG : ∀ m, G m → m.verdict = .done) (ht : Timeless P)
    (hok : ∀ m s, P s → Q () (s.onHost (effect m))) :
    Within G 2 P (command name (fun _ => true) effect) Q E :=
  command_within hG ht (fun m s hs _ => hok m s hs) (fun _ _ _ hc => absurd hc (by simp))

theorem commandAllowed_done {name : String} {effect : Moment → Host → Host}
    {Q : Unit → Session → Prop} (hG : ∀ m, G m → m.verdict = .done) (ht : Timeless P)
    (hok : ∀ m s, P s → Q () (s.onHost (effect m))) :
    Within G 2 P (commandAllowed name (fun _ => true) effect) Q E := by
  apply Within.handle (a := 2) (b := 0) (E := fun _ _ => False)
  · exact command_done hG ht hok
  · intro e _ s _ _ hs
    exact hs.elim

theorem accountEntry_within {n : Nat} (hno : ∀ e s, P s → s.host.account.isSome = false → E e s) :
    Within G n P accountEntry (fun _ s => s.host.account.isSome = true ∧ P s) E := by
  apply Within.bind_sub (a := 0) (Within.read (Q := fun a s => a = s ∧ P s) (fun s hs => ⟨rfl, hs⟩))
    (fun a => ?_) (Nat.zero_le n)
  cases ha : a.host.account with
  | none =>
    apply Within.raise
    intro s hs
    exact hno _ s hs.2 (by rw [← hs.1, ha]; rfl)
  | some account =>
    apply Within.pure'
    intro s hs
    exact ⟨by rw [← hs.1, ha]; rfl, hs.2⟩

theorem user_within {can : Host → Bool} {effect : Moment → Host → Host} {Q : Unit → Session → Prop}
    (hG : ∀ m, G m → m.verdict = .done) (ht : Timeless P)
    (hok : ∀ m s, P s → s.host.account.isSome = true → can s.host = true → Q () (s.onHost (effect m)))
    (hno : ∀ e s, P s → s.host.account.isSome = false ∨ can s.host = false → E e s) :
    Within G 2 P (user can effect) Q E := by
  apply Within.bind_sub (a := 0) (accountEntry_within (fun e s hs ha => hno e s hs (.inl ha)))
    (fun _ => ?_) (Nat.zero_le 2)
  apply command_within hG (fun units s hs => ⟨hs.1, ht units s hs.2⟩)
  · intro m s hs hc
    exact hok m s hs.2 hs.1 hc
  · intro e s hs hc
    exact hno e s hs.2 (.inr hc)

theorem userAllowed_within {effect : Moment → Host → Host} {Q : Unit → Session → Prop}
    (hG : ∀ m, G m → m.verdict = .done) (ht : Timeless P)
    (hok : ∀ m s, P s → s.host.account.isSome = true → Q () (s.onHost (effect m)))
    (hno : ∀ e s, P s → s.host.account.isSome = false → E e s) :
    Within G 2 P (userAllowed effect) Q E := by
  apply Within.bind_sub (a := 0) (accountEntry_within hno) (fun _ => ?_) (Nat.zero_le 2)
  apply commandAllowed_done hG (fun units s hs => ⟨hs.1, ht units s hs.2⟩)
  intro m s hs
  exact hok m s hs.2 hs.1

theorem userOutput_within {can : Host → Bool} {output : Moment → Host → α} {Q : α → Session → Prop}
    (hG : ∀ m, G m → m.verdict = .done) (ht : Timeless P)
    (hok : ∀ m s, G m → P s → s.host.account.isSome = true → can s.host = true →
      Q (output m s.host) s)
    (hno : ∀ e s, P s → s.host.account.isSome = false ∨ can s.host = false → E e s) :
    Within G 2 P (userOutput can output) Q E := by
  apply Within.bind_sub (a := 0) (accountEntry_within (fun e s hs ha => hno e s hs (.inl ha)))
    (fun _ => ?_) (Nat.zero_le 2)
  apply run_within hG (fun units s hs => ⟨hs.1, ht units s hs.2⟩)
  · intro m s hm hs hc
    exact hok m s hm hs.2 hs.1 hc
  · intro e s hs hc
    exact hno e s hs.2 (.inr hc)

theorem change_within {effect : Moment → Host → Host} {Q : Unit → Session → Prop}
    (hG : ∀ m, G m → m.verdict = .done) (ht : Timeless P)
    (hok : ∀ m s, P s → Q () (s.onHost (effect m))) : Within G 2 P (change effect) Q E :=
  Within.bind_sub (a := 1) (pass_within hG ht) (fun _ => atomic_within hG (fun m s _ => hok m s))
    (by omega)

theorem field_within {value : State → Option α} {n : Nat} {Q : α → Session → Prop}
    (hok : ∀ a s, P s → value s.state = some a → Q a s)
    (hno : ∀ e s, P s → value s.state = none → E e s) : Within G n P (field value) Q E := by
  apply Within.bind_sub (a := 0) (Within.read (Q := fun a s => a = s ∧ P s) (fun s hs => ⟨rfl, hs⟩))
    (fun a => ?_) (Nat.zero_le n)
  cases ha : value a.state with
  | none => exact Within.raise (fun s hs => hno _ s hs.2 (hs.1 ▸ ha))
  | some v => exact Within.pure' (fun s hs => hok v s hs.2 (hs.1 ▸ ha))

variable (hG : ∀ m, G m → m.verdict = .done) (hP : ∀ m, G m → m.platform.trustedParents = true)
include hG hP

theorem protect_within (ht : Timeless P) : Within G 2 P protect (fun _ => P) E := by
  apply Within.bind_sub (a := 2) (look_within hG ht) (fun m => ?_) (Nat.le_refl 2)
  exact require_within (fun _ hs => hP m hs.1) (fun _ hs => hs.2)

theorem writeFile_within {path : Path} {file : File} {Q : Unit → Session → Prop}
    (ht : Timeless P) (hok : ∀ s, P s → Q () (s.onHost (·.setFile path (some file)))) :
    Within G 4 P (writeFile path file) Q E :=
  Within.bind_sub (a := 2) (protect_within hG hP ht)
    (fun _ => change_within hG ht (fun _ s => hok s)) (by omega)

theorem save_within {phase : Option Phase} {note : Host → Host} {R : Session → Prop}
    {Q : Unit → Session → Prop} (ht : Timeless R)
    (hm : ∀ s, P s → R (s.onState fun st => { st with phase := phase.or st.phase }))
    (hok : ∀ s, R s → Q () (s.onHost fun h => note { h with journal := some s.state })) :
    Within G 4 P (save phase note) Q E := by
  apply Within.bind_sub (a := 0) (Within.update (Q := fun _ => R) hm) (fun _ => ?_) (by omega)
  apply Within.bind_sub (a := 2) (protect_within hG hP ht) (fun _ => ?_) (by omega)
  apply Within.bind_sub (a := 1) (pass_within hG ht) (fun _ => ?_) (by omega)
  exact atomic_within hG (fun _ s _ => hok s)

end Good

end Hermes.Simple

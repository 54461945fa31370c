import Hermes.SimpleSteps

/- Recovery of the simple installer.

   A recovery in which every command succeeds that can brings the attempt to its end
   exactly on the hosts that are `Undoable`: the account that a recorded uid speaks of
   exists, a deployment before is recorded together with a uid, and an account that the
   attempt set out to create exists and has its uid recorded. The last two fail where
   the attempt stopped between the record of one and the record of the other. -/
namespace Hermes.Simple
open Process

variable {α : Type}

/-! The hosts that a recovery can bring to rest. -/

/-- The recorded backup `backup` is there and can be restored. -/
def BackupStands (st : State) (h : Host) (backup : String) : Prop :=
  h.account.isSome = true ∧ h.data.isSome = true ∧
  ∃ archive, h.snapshots backup = some archive ∧ st.backupSha256 = some (digest archive)

/-- What `recover` needs of the host for the journal `st`. -/
structure Undoable (st : State) (h : Host) : Prop where
  /-- a recorded uid belongs to an account that exists -/
  uid : st.uid.isSome = true → h.account.isSome = true
  backup : ∀ backup, st.backup = some backup → BackupStands st h backup
  /-- a deployment before can be started again -/
  previous : st.previous.isSome = true →
    st.uid.isSome = true ∧ h.account.isSome = true ∧ h.key.isSome = true
  /-- an account that was to be created exists, and its uid was recorded -/
  created : st.previous = none → st.createdAccount = true →
    h.account.isSome = true ∧ st.uid.isSome = true

/-- The container is the one of this deployment. -/
def meets (config : Config) (v : Inspection) : Bool :=
  v.healthy && v.imageName == config.image &&
  (v.readonlyRootfs && !v.privileged && !v.devices && !v.publishedPorts && v.pidsLimit == 512) &&
  v.noNewPrivileges && v.mounted

/-- An answer under which every operation of a recovery succeeds that can: the deployment
    before comes up as it was. -/
structure Obliging (previous : Option Config) (m : Moment) : Prop where
  done : m.verdict = .done
  parents : m.platform.trustedParents = true
  container : ∀ c, previous = some c → meets c m.inspection = true
  inference : rstripChar '\n' m.inference = "HERMES_OK"

/-- The answers that the recovery of this journal takes at most. -/
def State.answers (st : State) : Nat := 6 * st.files.length + 40

/-- `recover` ends with the attempt rolled back, or closed as it was, and a second one
    changes nothing but the time. -/
def Converges (h : Host) : Prop :=
  ∀ t, Supplied (Obliging h.state.previous) h.state.answers t →
    (invoke false .recover).result t h = .ok .rolledBack ∧
    (((invoke false .recover).after t h).state.phase = some .rolledBack ∨
      h.state.phase = some .closed ∧ ((invoke false .recover).after t h).journal = h.journal) ∧
    ∀ t', ∃ units, (invoke false .recover).after t' ((invoke false .recover).after t h) =
      ((invoke false .recover).after t h).elapse units

/-! What a recovery leaves as it is until it removes the account. -/

/-- The session `s` of a recovery of `st` on the host `h`. -/
structure Undoing (st : State) (h : Host) (s : Session) : Prop where
  state : s.state = st
  journal : s.host.journal = h.journal
  account : s.host.account = h.account
  key : s.host.key = h.key
  snapshots : s.host.snapshots = h.snapshots
  data : s.host.data.isSome = h.data.isSome

namespace Undoing

variable {st : State} {h : Host} {s : Session}

/-- Everything else may change. -/
theorem other (hs : Undoing st h s) {f : Host → Host} (hj : (f s.host).journal = s.host.journal)
    (ha : (f s.host).account = s.host.account) (hk : (f s.host).key = s.host.key)
    (hn : (f s.host).snapshots = s.host.snapshots)
    (hd : (f s.host).data.isSome = s.host.data.isSome) : Undoing st h (s.onHost f) where
  state := hs.state
  journal := hj.trans hs.journal
  account := ha.trans hs.account
  key := hk.trans hs.key
  snapshots := hn.trans hs.snapshots
  data := hd.trans hs.data

theorem timeless : Timeless (Undoing st h) := fun _ _ hs => hs.other rfl rfl rfl rfl rfl

end Undoing

section Good

variable {st : State} {h : Host}

/-- A step of the recovery failed: the host was not `Undoable`, and the journal is as it was. -/
def Stuck (st : State) (h : Host) (_ : Exc) (s : Session) : Prop :=
  ¬Undoable st h ∧ s.host.journal = h.journal

theorem stuck {e : Exc} {s : Session} (hs : Undoing st h s) (hn : ¬Undoable st h) :
    Stuck st h e s := ⟨hn, hs.journal⟩

variable {p : Option Config}

theorem obliging_done (m : Moment) (hm : Obliging p m) : m.verdict = .done := hm.done

theorem obliging_parents (m : Moment) (hm : Obliging p m) : m.platform.trustedParents = true :=
  hm.parents

/-- A command that only changes what a recovery may change. -/
theorem command_undoing {name : String} {effect : Moment → Host → Host}
    {E : Exc → Session → Prop}
    (hf : ∀ m s, Undoing st h s → Undoing st h (s.onHost (effect m))) :
    Within (Obliging p) 2 (Undoing st h) (command name (fun _ => true) effect)
      (fun _ => Undoing st h) E :=
  command_done obliging_done Undoing.timeless hf

theorem commandAllowed_undoing {name : String} {effect : Moment → Host → Host}
    {E : Exc → Session → Prop}
    (hf : ∀ m s, Undoing st h s → Undoing st h (s.onHost (effect m))) :
    Within (Obliging p) 2 (Undoing st h) (commandAllowed name (fun _ => true) effect)
      (fun _ => Undoing st h) E :=
  commandAllowed_done obliging_done Undoing.timeless hf

theorem stopServiceAllowed_within (hn : h.account.isSome = false → ¬Undoable st h) :
    Within (Obliging p) 2 (Undoing st h) stopServiceAllowed
      (fun _ s => h.account.isSome = true ∧ Undoing st h s) (Stuck st h) := by
  apply userAllowed_within obliging_done Undoing.timeless
  · intro m s hs ha
    exact ⟨by rw [← hs.account]; exact ha, hs.other rfl rfl rfl rfl rfl⟩
  · intro e s hs ha
    exact stuck hs (hn (by rw [← hs.account]; exact ha))

/-- The service is stopped where a uid is recorded. -/
theorem stop_within :
    Within (Obliging p) 2 (Undoing st h) (onlyIf st.uid.isSome stopServiceAllowed)
      (fun _ s => (st.uid.isSome = true → h.account.isSome = true) ∧ Undoing st h s)
      (Stuck st h) := by
  apply Within.ite
  · intro hu
    apply (stopServiceAllowed_within ?_).post
    · intro _ s hs
      exact ⟨fun _ => hs.1, hs.2⟩
    · intro ha hn
      rw [hn.uid hu] at ha
      cases ha
  · intro hu
    exact Within.pure' (fun s hs => ⟨fun h => absurd h hu, hs⟩)

theorem restoreBackup_within {backup : String} (hb : st.backup = some backup) :
    Within (Obliging p) 4 (Undoing st h) (restoreBackup backup)
      (fun _ s => BackupStands st h backup ∧ Undoing st h s) (Stuck st h) := by
  apply Within.bind_sub (a := 2)
    (run_within (Q := fun a s => h.snapshots backup = some a ∧ Undoing st h s) obliging_done
      Undoing.timeless ?_ ?_) (fun archive => ?_) (by omega)
  · intro m s _ hs hc
    refine ⟨?_, hs⟩
    rw [hs.snapshots] at hc ⊢
    obtain ⟨a, ha⟩ := Option.isSome_iff_exists.mp hc
    rw [ha]
    rfl
  · intro e s hs hc
    refine stuck hs (fun hn => ?_)
    obtain ⟨_, _, a, ha, _⟩ := hn.backup backup hb
    rw [hs.snapshots, ha] at hc
    cases hc
  apply Within.bind_sub (a := 0)
    (Within.read (Q := fun a s => a.state = st ∧ h.snapshots backup = some archive ∧
      Undoing st h s) (fun s hs => ⟨hs.2.state, hs⟩)) (fun a => ?_) (by omega)
  apply Within.given (fun s hs => And.intro hs.1 hs.2.1)
  intro ⟨hst, harchive⟩
  rw [hst]
  -- a backup that stands has the recorded digest
  have hstands : Undoable st h → st.backupSha256 = some (digest archive) := by
    intro hn
    obtain ⟨_, _, a, ha, hsha⟩ := hn.backup backup hb
    rw [harchive] at ha
    cases ha
    exact hsha
  cases hsha : st.backupSha256 with
  | none =>
    apply Within.raise
    intro s hs
    exact stuck hs.2.2 (fun hn => by have := hstands hn; rw [hsha] at this; cases this)
  | some sha =>
    apply Within.bind_sub (a := 0)
      (require_decided (Q := fun _ s => digest archive = sha ∧ Undoing st h s) ?_ ?_) (fun _ => ?_)
      (by omega)
    · intro hc s hs
      exact ⟨of_decide_eq_true hc, hs.2.2⟩
    · intro hc s hs
      refine stuck hs.2.2 (fun hn => ?_)
      have heq := hstands hn
      rw [hsha] at heq
      cases heq
      simp at hc
    · apply user_within obliging_done (fun units s hs => ⟨hs.1, Undoing.timeless units s hs.2⟩)
      · intro m s hs ha hd
        refine ⟨⟨?_, ?_, archive, harchive, by rw [hs.1]; exact hsha⟩, ?_⟩
        · rw [← hs.2.account]; exact ha
        · rw [← hs.2.data]; exact hd
        · exact hs.2.other rfl rfl rfl rfl (Eq.symm hd)
      · intro e s hs hno
        refine stuck hs.2 (fun hn => ?_)
        obtain ⟨ha, hd, _⟩ := hn.backup backup hb
        rw [← hs.2.account] at ha
        rw [← hs.2.data] at hd
        cases hno with
        | inl h' => rw [ha] at h'; cases h'
        | inr h' => exact absurd (h'.symm.trans hd) (by simp)

/-- The backup is restored where one is recorded. -/
theorem backup_within :
    Within (Obliging p) 4 (Undoing st h) (restoreRecorded st.backup)
      (fun _ s => (∀ backup, st.backup = some backup → BackupStands st h backup) ∧ Undoing st h s)
      (Stuck st h) := by
  cases hb : st.backup with
  | none =>
    apply Within.pure'
    intro s hs
    exact ⟨fun _ h' => (nomatch h'), hs⟩
  | some backup =>
    apply (restoreBackup_within hb).post
    intro _ s hs
    exact ⟨fun _ h' => Option.some.inj h' ▸ hs.1, hs.2⟩

theorem restoreFile_within (record : Path × Option File) {E : Exc → Session → Prop} :
    Within (Obliging p) 6 (Undoing st h) (restoreFile record) (fun _ => Undoing st h) E := by
  have hfile : ∀ file s, Undoing st h s → Undoing st h (s.onHost (·.setFile record.1 file)) :=
    fun _ _ hs => hs.other rfl rfl rfl rfl rfl
  apply Within.bind_sub (a := 2)
    (protect_within obliging_done obliging_parents Undoing.timeless) (fun _ => ?_) (by omega)
  cases record.2 with
  | none => exact (change_within obliging_done Undoing.timeless (fun _ => hfile none)).budget (by omega)
  | some file =>
    exact writeFile_within obliging_done obliging_parents Undoing.timeless (hfile (some file))

/-! The deployment before, or the account of the attempt. -/

/-- The service runs as the container of the deployment before. -/
theorem healthy_within {c : Config} {P : Session → Prop} {E : Exc → Session → Prop}
    (hc : p = some c) (ht : Timeless P) (ha : ∀ s, P s → s.host.account.isSome = true)
    (hact : ∀ s, P s → s.host.active = true) (inference : Bool) :
    Within (Obliging p) 4 P (healthy c inference) (fun _ => P) E := by
  have hno : ∀ (e : Exc) s, P s → s.host.account.isSome = false ∨ s.host.active = false → E e s := by
    intro e s hs h'
    cases h' with
    | inl h' => rw [ha s hs] at h'; cases h'
    | inr h' => rw [hact s hs] at h'; cases h'
  apply Within.bind_sub (a := 2)
    (userOutput_within (Q := fun v s => meets c v = true ∧ P s) obliging_done ht
      (fun m s hm hs _ _ => ⟨hm.container c hc, hs⟩) hno) (fun v => ?_) (by omega)
  apply Within.given (fun s hs => hs.1)
  intro hv
  simp only [meets, Bool.and_eq_true] at hv
  obtain ⟨⟨⟨⟨hhealthy, himage⟩, hisolated⟩, hprivileges⟩, hmounts⟩ := hv
  have hpure : ∀ {b : Bool} {reason : String} {n : Nat}, b = true →
      Within (Obliging p) n (fun s => P s) (check b reason) (fun _ => P) E :=
    fun hb => require_within (fun _ _ => hb) (fun _ hs => hs)
  apply Within.bind_sub (a := 0) ((hpure hhealthy).pre (fun s hs => hs.2)) (fun _ => ?_) (by omega)
  apply Within.bind_sub (a := 0) (hpure himage) (fun _ => ?_) (by omega)
  apply Within.bind_sub (a := 0) (hpure (by simpa using hisolated)) (fun _ => ?_) (by omega)
  apply Within.bind_sub (a := 0) (hpure hprivileges) (fun _ => ?_) (by omega)
  apply Within.bind_sub (a := 0) (hpure hmounts) (fun _ => ?_) (by omega)
  apply Within.ite
  · intro _
    apply Within.bind_sub (a := 2)
      (userOutput_within (Q := fun r s => rstripChar '\n' r = "HERMES_OK" ∧ P s) obliging_done ht
        ?_ hno) (fun r => ?_) (by omega)
    · intro m s hm hs _ _
      exact ⟨hm.inference, hs⟩
    · apply Within.given (fun s hs => hs.1)
      intro hr
      rw [hr]
      exact (hpure rfl).pre (fun s hs => hs.2)
  · intro _
    exact Within.pure' (fun _ hs => hs)

theorem waitHealth_within {c : Config} {P : Session → Prop} {E : Exc → Session → Prop}
    (hc : p = some c) (ht : Timeless P) (ha : ∀ s, P s → s.host.account.isSome = true)
    (hact : ∀ s, P s → s.host.active = true) :
    Within (Obliging p) 4 P (waitHealth c) (fun _ => P) E := by
  apply Within.handle (a := 4) (b := 0) (E := fun _ _ => False)
  · exact healthy_within hc ht ha hact false
  · intro e _ s _ _ hs
    exact hs.elim

/-- The deployment before comes up exactly where its uid is recorded, its account exists
    and its credential is there. -/
theorem restartPrevious_within {c : Config} (hc : st.previous = some c) :
    Within (Obliging st.previous) 16 (Undoing st h) (restartPrevious c)
      (fun _ s => (st.uid.isSome = true ∧ h.account.isSome = true ∧ h.key.isSome = true) ∧
        s.state = st)
      (Stuck st h) := by
  have hall : Undoable st h →
      st.uid.isSome = true ∧ h.account.isSome = true ∧ h.key.isSome = true :=
    fun hn => hn.previous (by rw [hc]; rfl)
  have hkey : ∀ (e : Exc) s, Undoing st h s → s.host.key.isSome = false → Stuck st h e s := by
    intro e s hs hk
    refine stuck hs (fun hn => ?_)
    rw [hs.key, (hall hn).2.2] at hk
    cases hk
  have haccount : ∀ (e : Exc) s, Undoing st h s → s.host.account.isSome = false →
      Stuck st h e s := by
    intro e s hs ha
    refine stuck hs (fun hn => ?_)
    rw [hs.account, (hall hn).2.1] at ha
    cases ha
  apply Within.bind_sub (a := 0) (Within.read (Q := fun _ => Undoing st h) (fun _ hs => hs))
    (fun a => ?_) (by omega)
  apply Within.bind_sub (a := 2) (Q := fun _ => Undoing st h)
    (Within.ite (fun _ => command_within obliging_done Undoing.timeless
      (fun _ _ hs _ => hs.other rfl rfl rfl rfl rfl) hkey) (fun _ => Within.pure' (fun _ hs => hs)))
    (fun _ => ?_) (by omega)
  -- `state["uid"]`
  apply Within.bind_sub (a := 0) (Q := fun _ s => st.uid.isSome = true ∧ Undoing st h s)
    (field_within ?_ ?_) (fun _ => ?_) (by omega)
  · intro uid s hs hu
    rw [hs.state] at hu
    exact ⟨by rw [hu]; rfl, hs⟩
  · intro e s hs hu
    rw [hs.state] at hu
    refine stuck hs (fun hn => ?_)
    rw [hu] at hall
    cases (hall hn).1
  apply Within.given (fun s hs => hs.1)
  intro huid
  apply Within.bind_sub (a := 2) (Q := fun _ s => h.account.isSome = true ∧ Undoing st h s)
    ((command_within obliging_done Undoing.timeless ?_ haccount).pre (fun s hs => hs.2))
    (fun _ => ?_) (by omega)
  · intro m s hs ha
    exact ⟨by rw [← hs.account]; exact ha, hs⟩
  apply Within.given (fun s hs => hs.1)
  intro ha
  have hentry : ∀ s, Undoing st h s → s.host.account.isSome = true :=
    fun s hs => by rw [hs.account]; exact ha
  apply Within.bind_sub (a := 2) (Q := fun _ => Undoing st h)
    ((user_within obliging_done Undoing.timeless (fun _ _ hs _ _ => hs) ?_).pre (fun s hs => hs.2))
    (fun _ => ?_) (by omega)
  · intro e s hs hno
    cases hno with
    | inl h' => exact haccount e s hs h'
    | inr h' => cases h'
  apply Within.bind_sub (a := 2)
    (Q := fun _ s => h.key.isSome = true ∧ Undoing st h s ∧ s.host.active = true)
    (user_within obliging_done Undoing.timeless ?_ ?_) (fun _ => ?_) (by omega)
  · intro m s hs _ hk
    exact ⟨by rw [← hs.key]; exact hk, hs.other rfl rfl rfl rfl rfl, rfl⟩
  · intro e s hs hno
    cases hno with
    | inl h' => exact haccount e s hs h'
    | inr h' => exact hkey e s hs h'
  apply Within.given (fun s hs => hs.1)
  intro hk
  have hup : Timeless (fun s => Undoing st h s ∧ s.host.active = true) :=
    fun units s hs => ⟨Undoing.timeless units s hs.1, hs.2⟩
  apply Within.bind_sub (a := 4)
    ((waitHealth_within hc hup (fun s hs => hentry s hs.1) (fun _ hs => hs.2)).pre
      (fun s hs => hs.2)) (fun _ => ?_) (by omega)
  apply ((healthy_within hc hup (fun s hs => hentry s hs.1) (fun _ hs => hs.2) true).budget
    (by omega)).post
  intro _ s hs
  exact ⟨⟨huid, ha, hk⟩, hs.1.state⟩

/-- The account of the attempt is removed exactly where it exists and its uid is recorded. -/
theorem removeAccount_within (hp : st.previous = none) (hcreated : st.createdAccount = true) :
    Within (Obliging st.previous) 14 (Undoing st h) removeAccount
      (fun _ s => (h.account.isSome = true ∧ st.uid.isSome = true) ∧ s.state = st)
      (Stuck st h) := by
  have hall : Undoable st h → h.account.isSome = true ∧ st.uid.isSome = true :=
    fun hn => hn.created hp hcreated
  have haccount : ∀ (e : Exc) s, Undoing st h s → s.host.account.isSome = false →
      Stuck st h e s := by
    intro e s hs ha
    refine stuck hs (fun hn => ?_)
    rw [hs.account, (hall hn).1] at ha
    cases ha
  apply Within.bind_sub (a := 2) (Q := fun _ s => h.account.isSome = true ∧ Undoing st h s)
    (stopServiceAllowed_within ?_) (fun _ => ?_) (by omega)
  · intro ha hn
    rw [(hall hn).1] at ha
    cases ha
  apply Within.given (fun s hs => hs.1)
  intro ha
  apply Within.bind_sub (a := 2) (Q := fun _ => Undoing st h)
    ((userAllowed_within obliging_done Undoing.timeless (fun _ _ hs _ => hs) haccount).pre
      (fun s hs => hs.2)) (fun _ => ?_) (by omega)
  apply Within.bind_sub (a := 2) (Q := fun _ => Undoing st h)
    (command_within obliging_done Undoing.timeless (fun _ _ hs _ => hs) haccount)
    (fun _ => ?_) (by omega)
  -- `state["uid"]`
  apply Within.bind_sub (a := 0) (Q := fun _ s => st.uid.isSome = true ∧ Undoing st h s)
    (field_within ?_ ?_) (fun _ => ?_) (by omega)
  · intro uid s hs hu
    rw [hs.state] at hu
    exact ⟨by rw [hu]; rfl, hs⟩
  · intro e s hs hu
    rw [hs.state] at hu
    refine stuck hs (fun hn => ?_)
    rw [hu] at hall
    cases (hall hn).2
  apply Within.given (fun s hs => hs.1)
  intro huid
  apply Within.bind_sub (a := 2) (Q := fun _ => Undoing st h)
    ((commandAllowed_undoing (fun _ _ hs => hs.other rfl rfl rfl rfl rfl)).pre (fun s hs => hs.2))
    (fun _ => ?_) (by omega)
  -- from here on the account is gone, and only the journal counts
  have ht : Timeless (fun s : Session => s.state = st) := fun _ _ hs => hs
  apply Within.bind_sub (a := 2) (Q := fun _ s => s.state = st)
    (command_within obliging_done Undoing.timeless (fun _ _ hs _ => hs.state) haccount)
    (fun _ => ?_) (by omega)
  apply Within.bind_sub (a := 0)
    (Within.read (P := fun s : Session => s.state = st) (Q := fun _ s => s.state = st)
      (fun _ hs => hs))
    (fun a => ?_) (by omega)
  apply Within.bind_sub (a := 2) (Q := fun _ s => s.state = st)
    (Within.ite (fun _ => change_within obliging_done ht (fun _ _ hs => hs))
      (fun _ => Within.pure' (fun _ hs => hs))) (fun _ => ?_) (by omega)
  apply (change_within (Q := fun _ s => s.state = st) obliging_done ht (fun _ _ hs => hs)).post
  intro _ s hs
  exact ⟨⟨ha, huid⟩, hs⟩

/-- A recovery up to the stop of the guard. -/
theorem undo_within :
    Within (Obliging st.previous) (6 * st.files.length + 30) (Undoing st h) undo
      (fun _ s => Undoable st h ∧ s.state = st) (Stuck st h) := by
  apply Within.bind_sub (a := 0)
    (Within.read (Q := fun a s => a.state = st ∧ Undoing st h s) (fun s hs => ⟨hs.state, hs⟩))
    (fun a => ?_) (by omega)
  apply Within.given (fun s hs => hs.1)
  intro ha
  rw [ha]
  apply Within.bind_sub (a := 2) (stop_within.pre (fun s hs => hs.2)) (fun _ => ?_) (by omega)
  apply Within.given (fun s hs => hs.1)
  intro huid
  apply Within.bind_sub (a := 4) (backup_within.pre (fun s hs => hs.2)) (fun _ => ?_) (by omega)
  apply Within.given (fun s hs => hs.1)
  intro hbackup
  apply Within.bind_sub (a := st.files.reverse.length * 6) (Q := fun _ => Undoing st h)
    ((Within.forEach (I := fun _ => Undoing st h) (fun record _ => restoreFile_within record) _).pre
      (fun s hs => hs.2)) (fun _ => ?_) (by rw [List.length_reverse]; omega)
  rw [List.length_reverse]
  apply Within.bind_sub (a := 2) (command_undoing (fun _ _ hs => hs.other rfl rfl rfl rfl rfl)) (fun _ => ?_) (by omega)
  apply Within.bind_sub (a := 2)
    (commandAllowed_undoing (fun _ _ hs => hs.other rfl rfl rfl rfl rfl)) (fun _ => ?_) (by omega)
  apply Within.bind_sub (a := 2) (command_undoing (fun _ _ hs => hs.other rfl rfl rfl rfl rfl)) (fun _ => ?_) (by omega)
  apply Within.bind_sub (a := 2) (command_undoing (fun _ _ hs => hs.other rfl rfl rfl rfl rfl)) (fun _ => ?_) (by omega)
  split
  · next c hp =>
    apply ((restartPrevious_within hp).budget (by omega)).post
    intro _ s hs
    exact ⟨⟨huid, hbackup, fun _ => hs.1, fun h' => by rw [hp] at h'; cases h'⟩, hs.2⟩
  · next hp =>
    have hprevious : st.previous.isSome = true →
        st.uid.isSome = true ∧ h.account.isSome = true ∧ h.key.isSome = true :=
      fun h' => by rw [hp] at h'; cases h'
    apply Within.ite
    · intro hcreated
      apply ((removeAccount_within hp hcreated).budget (by omega)).post
      intro _ s hs
      exact ⟨⟨huid, hbackup, hprevious, fun _ _ => hs.1⟩, hs.2⟩
    · intro hcreated
      apply Within.pure'
      intro s hs
      exact ⟨⟨huid, hbackup, hprevious, fun _ h' => absurd h' hcreated⟩, hs.state⟩

/-- A recovery of an attempt that is not over. -/
theorem recover_within (hopen : st.phase.any Phase.final = false) :
    Within (Obliging st.previous) (6 * st.files.length + 36) (Undoing st h) recover
      (fun _ s => Undoable st h ∧ s.host.state.phase = some .rolledBack) (Stuck st h) := by
  apply Within.bind_sub (a := 0)
    (Within.read (Q := fun a s => a.state = st ∧ Undoing st h s) (fun s hs => ⟨hs.state, hs⟩))
    (fun a => ?_) (by omega)
  apply Within.given (fun s hs => hs.1)
  intro ha
  rw [ha, if_neg (by rw [hopen]; simp)]
  apply Within.bind_sub (a := 0) (Q := fun _ => Undoing st h)
    (Within.update (fun _ hs => hs.2.other rfl rfl rfl rfl rfl)) (fun _ => ?_) (by omega)
  apply Within.bind_sub (a := 6 * st.files.length + 30) undo_within (fun _ => ?_) (by omega)
  have ht : Timeless (fun s => Undoable st h ∧ s.state = st) := fun _ _ hs => hs
  apply Within.bind_sub (a := 2) (Q := fun _ s => Undoable st h ∧ s.state = st) ?_ (fun _ => ?_)
    (by omega)
  · apply Within.bind_sub (a := 0)
      (Within.read (P := fun s : Session => Undoable st h ∧ s.state = st)
        (Q := fun _ s => Undoable st h ∧ s.state = st) (fun _ hs => hs)) (fun a => ?_) (by omega)
    cases a.state.guard with
    | none => exact Within.pure' (fun _ hs => hs)
    | some unit => exact commandAllowed_done obliging_done ht (fun _ _ hs => hs)
  · apply (save_within (R := fun s => Undoable st h ∧ s.state.phase = some .rolledBack)
      obliging_done obliging_parents (fun _ _ hs => hs) ?_ ?_).budget (by omega)
    · intro s hs
      exact ⟨hs.1, rfl⟩
    · intro s hs
      exact ⟨hs.1, hs.2⟩

end Good

/-! The request `recover`. -/

theorem Host.elapse_nil (h : Host) : h.elapse [] = h := by
  simp [Host.elapse]

/-- A request comes to its recovery with the journal as the host has it. -/
theorem dispatch_recover_within {h : Host} {p : Option Config} {Q : Answer → Session → Prop}
    {E : Exc → Session → Prop} {n : Nat}
    (hx : Within (Obliging p) n (Undoing h.state h) recover (fun _ => Q .rolledBack) E) :
    Within (Obliging p) (n + 3) (fun s => s = ⟨h, {}⟩) (dispatch false .recover) Q E := by
  have hstart : Timeless (fun s => Undoing h.state h ⟨s.host, s.host.state⟩) := by
    intro units s hs
    exact ⟨hs.state, hs.journal, hs.account, hs.key, hs.snapshots, hs.data⟩
  apply Within.bind_sub (a := 2)
    ((protect_within obliging_done obliging_parents hstart).pre ?_) (fun _ => ?_) (by omega)
  · intro s hs
    rw [hs]
    exact ⟨rfl, rfl, rfl, rfl, rfl, rfl⟩
  apply Within.bind_sub (a := 1) (Q := fun _ s => Undoing h.state h ⟨s.host, s.host.state⟩)
    (Within.perform ?_) (fun _ => ?_) (by omega)
  · intro m s hm hs r s' hr
    rw [if_pos hm.done] at hr
    cases hr
    exact hs
  apply Within.bind_sub (a := 0) (Q := fun _ => Undoing h.state h) (Within.update (fun _ hs => hs))
    (fun _ => ?_) (by omega)
  apply Within.bind_sub (a := n) hx (fun _ => ?_) (by omega)
  exact Within.pure' (fun _ hs => hs)

/-- Once an attempt is over, a recovery only lets time pass. -/
theorem recover_final {h : Host} (hf : h.final = true) :
    Triple (fun s => s = h) (invoke false .recover)
      (fun a s => a = .rolledBack ∧ ∃ units, s = h.elapse units)
      (fun _ s => ∃ units, s = h.elapse units) := by
  have hpass : Triple (fun s : Session => s.host = h) protect
      (fun _ s => ∃ units, s.host = h.elapse units) (fun _ s => ∃ units, s.host = h.elapse units) := by
    have hlook : Triple (fun s : Session => s.host = h) look
        (fun _ s => ∃ units, s.host = h.elapse units)
        (fun _ s => ∃ units, s.host = h.elapse units) := by
      refine Triple.bind (pass_triple (Q := fun _ s => ∃ units, s.host = h.elapse units) ?_ ?_ ?_)
        (fun _ => instant_keeps)
      · intro units s hs
        exact ⟨units, by rw [← hs]; rfl⟩
      · intro s hs
        exact ⟨[], by rw [hs, h.elapse_nil]⟩
      · intro units s hs
        exact ⟨units, by rw [← hs]; rfl⟩
    exact Triple.bind hlook (fun _ => check_triple (fun _ _ hs => hs) (fun _ _ hs => hs))
  refine Triple.zoom h (I := fun s => s.host = h) ?_ (fun s hs => ⟨hs, hs⟩) (fun _ _ => id)
    (fun _ _ => id)
  refine Triple.bind hpass (fun _ => ?_)
  refine Triple.bind (Q := fun _ s => ∃ units, s.host = h.elapse units)
    (Triple.perform (fun _ hs => hs) ?_) (fun _ => ?_)
  · intro m s hs r s' hr
    split at hr
    · cases hr; exact hs
    · split at hr <;> cases hr <;> exact hs
  refine Triple.bind (Q := fun _ s => s.state.phase.any Phase.final = true ∧
    ∃ units, s.host = h.elapse units) (Triple.update ?_) (fun _ => ?_)
  · intro s ⟨units, hs⟩
    refine ⟨?_, units, hs⟩
    show (s.host.state).phase.any Phase.final = true
    rw [hs]
    exact hf
  refine Triple.bind (Q := fun _ s => ∃ units, s.host = h.elapse units) ?_
    (fun _ => Triple.pure' (fun _ hs => ⟨rfl, hs⟩))
  refine Triple.bind (Triple.read (Q := fun a s => a.state.phase.any Phase.final = true ∧
    ∃ units, s.host = h.elapse units) (fun _ hs => hs)) (fun a => ?_)
  refine Triple.given (fun s hs => hs.1) (fun ha => ?_)
  rw [if_pos ha]
  exact Triple.pure' (fun _ hs => hs.2)

/-! When a recovery converges. -/

/-- The deployment before comes up, and every command is done. -/
def obligingMoment (previous : Option Config) : Moment where
  inspection := { imageName := (previous.map (·.image)).getD "" }

theorem obliging_obligingMoment (previous : Option Config) :
    Obliging previous (obligingMoment previous) where
  done := rfl
  parents := rfl
  container := by
    intro c hc
    rw [hc]
    simp [meets, obligingMoment]
  inference := by
    show rstripChar '\n' "HERMES_OK" = "HERMES_OK"
    decide

/-- The recovery of an open attempt under obliging answers. -/
theorem invoke_recover_within {h : Host} (hopen : h.final = false) :
    Within (Obliging h.state.previous) h.state.answers (fun s => s = h) (invoke false .recover)
      (fun a s => Undoable h.state h ∧ a = .rolledBack ∧ s.state.phase = some .rolledBack)
      (fun _ s => ¬Undoable h.state h ∧ s.journal = h.journal) := by
  have hx := dispatch_recover_within (h := h)
    (Q := fun a s => Undoable h.state h ∧ a = .rolledBack ∧ s.host.state.phase = some .rolledBack)
    ((recover_within hopen).post (fun _ s hs => ⟨hs.1, rfl, hs.2⟩))
  exact (Within.zoom h hx (fun s hs => ⟨hs, by rw [hs]⟩) (fun _ _ => id) (fun _ _ => id)).budget
    (by unfold State.answers; omega)

/-- The recovery of an attempt that is over returns, and only lets time pass. -/
theorem invoke_final_within {h : Host} (hf : h.final = true) :
    Completes (Obliging h.state.previous) h.state.answers (fun s => s = h) (invoke false .recover)
      (fun a s => a = .rolledBack ∧ ∃ units, s = h.elapse units) := by
  have hrecover : Completes (Obliging h.state.previous) 0 (Undoing h.state h) recover
      (fun _ _ => True) := by
    apply Within.bind_sub (a := 0)
      (Within.read (Q := fun a s => a.state = h.state ∧ Undoing h.state h s)
        (fun s hs => ⟨hs.state, hs⟩)) (fun a => ?_) (by omega)
    apply Within.given (fun s hs => hs.1)
    intro ha
    rw [ha, if_pos (show h.state.phase.any Phase.final = true from hf)]
    exact Within.pure' (fun _ _ => trivial)
  have hx : Within (Obliging h.state.previous) (0 + 3) (fun s => s = h)
      (invoke false .recover) (fun _ _ => True) (fun _ _ => False) :=
    Within.zoom h (dispatch_recover_within (Q := fun _ _ => True) hrecover)
      (fun s hs => ⟨hs, by rw [hs]⟩) (fun _ _ _ => trivial) (fun _ _ hs => hs)
  exact ((hx.budget (by unfold State.answers; omega)).and_triple (recover_final hf)).mono
    (fun _ => id) (fun _ _ hs => hs.2) (fun _ _ hs => hs.1)

/-- A recovery converges exactly on the hosts whose attempt is over or `Undoable`. -/
theorem recovery_converges (h : Host) :
    Converges h ↔ h.final = true ∨ Undoable h.state h := by
  constructor
  · intro hc
    cases hf : h.final with
    | true => exact .inl rfl
    | false =>
      right
      have ht := supplied_replicate (obliging_obligingMoment h.state.previous) h.state.answers
      obtain ⟨hok, _⟩ := hc _ ht
      obtain ⟨hx, _⟩ := invoke_recover_within hf _ h 0 ht rfl
      revert hok hx
      unfold Proc.result
      rcases invoke false .recover _ h with ⟨r, t, s⟩
      intro hok hx
      rw [show r = .ok .rolledBack from hok] at hx
      exact hx.1
  · intro hc t ht
    have hagain : ∀ h' : Host, h'.final = true → ∀ t', ∃ units,
        (invoke false .recover).after t' h' = h'.elapse units := by
      intro h' hf' t'
      exact Triple.after ((recover_final hf').post (fun _ _ hs => hs.2)) rfl
    cases hf : h.final with
    | true =>
      obtain ⟨a, hok, ha, units, hs⟩ := (invoke_final_within hf).returns ht rfl
      rw [ha] at hok
      have hjournal : ((invoke false .recover).after t h).journal = h.journal := by rw [hs]; rfl
      have hstate : ((invoke false .recover).after t h).state = h.state := by
        simp only [Host.state, hjournal]
      refine ⟨hok, ?_, hagain _ (by simpa only [Host.final, hstate] using hf)⟩
      rw [hstate]
      cases hp : h.state.phase with
      | none => simp [Host.final, hp] at hf
      | some phase =>
        cases phase with
        | closed => exact .inr ⟨rfl, hjournal⟩
        | rolledBack => exact .inl rfl
        | _ => simp [Host.final, hp, Phase.final] at hf
    | false =>
      have hu : Undoable h.state h := by
        cases hc with
        | inl h' => rw [hf] at h'; cases h'
        | inr h' => exact h'
      obtain ⟨a, hok, _, ha, hphase⟩ := Within.returns ((invoke_recover_within hf).mono (fun _ => id)
        (fun _ _ => id) (fun _ _ hs => hs.1 hu)) ht rfl
      rw [ha] at hok
      refine ⟨hok, .inl hphase, hagain _ ?_⟩
      unfold Host.final
      rw [hphase]
      rfl

/-! A first installation that stops in `useradd`. -/

/-- A first installation that is stopped in `useradd`: the journal says that the account is
    to be created, and there is none. -/
def interrupted : Host :=
  (invoke false (.prepare sampleConfig samplePayload (some "key"))).after
    (List.replicate 74 sampleMoment) cleanHost

/-- Its recovery raises an exception, though every command succeeds that can. -/
theorem interrupted_not_recovered : ¬Converges interrupted := by
  intro hc
  have hraise : ((invoke false .recover).result
      (List.replicate interrupted.state.answers (obligingMoment interrupted.state.previous))
      interrupted).toOption = none := by
    decide +kernel
  obtain ⟨hok, _⟩ := hc _ (supplied_replicate (obliging_obligingMoment _) _)
  rw [hok] at hraise
  cases hraise

end Hermes.Simple

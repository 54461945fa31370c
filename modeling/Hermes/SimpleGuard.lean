import Hermes.SimpleSteps
import Mathlib.Logic.Relation

/- The guard timers of the simple installer.

   The host is `Watched`: the timer that was started last is pending, or its recovery has
   taken the lock, unless it was stopped since (`between`) or went off in vain (`missed`).
   Every operation of every process keeps this, and so do the timers that go off. A process
   that ends outside these two gaps therefore leaves the attempt guarded. -/
namespace Hermes.Simple
open Process

variable {α : Type}

/-! The invariant, and what keeps it. -/

/-- The timer started last is pending or at work, but for the two gaps. -/
def Watched (h : Host) : Prop :=
  ∀ unit, h.watch.unit = some unit → h.watch.between = false → h.watch.missed = false →
    h.timers unit = true ∨ h.watch.begun = true

namespace Watched

variable {h : Host}

/-- Everything but the timers may change. -/
theorem same (hw : Watched h) {h' : Host} (ht : h'.timers = h.timers) (hs : h'.watch = h.watch) :
    Watched h' := by
  unfold Watched
  rw [ht, hs]
  exact hw

/-- Where no timer was started yet. -/
theorem idle {h' : Host} (hu : h'.watch.unit = none) : Watched h' := by
  intro unit hunit
  rw [hu] at hunit
  cases hunit

theorem elapse (hw : Watched h) (units : List String) : Watched (h.elapse units) := by
  intro unit hu hb hm
  simp only [Host.elapse, Bool.or_eq_false_iff] at hu hb hm ⊢
  rw [hu] at hm
  cases hw unit hu hb hm.1 with
  | inl ht =>
    left
    have hkept : units.contains unit = false := by
      have hboth := hm.2
      simp only [Option.any_some, ht, Bool.and_true] at hboth
      exact hboth
    rw [hkept, ht]
    rfl
  | inr hbegun => exact .inr hbegun

theorem startTimer (unit : String) : Watched (h.startTimer unit) := by
  intro u hu _ _
  cases hu
  left
  simp [Host.startTimer]

theorem stopTimer (hw : Watched h) (unit : String) : Watched (h.stopTimer unit) := by
  intro u hu hb hm
  simp only [Host.stopTimer, Bool.or_eq_false_iff] at hu hb hm ⊢
  rw [hu] at hb
  cases hw u hu hb.1 hm with
  | inl ht =>
    left
    have hother : (u != unit) = true := by simpa using hb.2
    rw [hother, ht]
    rfl
  | inr hbegun => exact .inr hbegun

theorem reopened (hw : Watched h) {h' : Host} (ht : h'.timers = h.timers)
    (hs : h'.watch = h.watch.reopened) : Watched h' := by
  intro u hu hb hm
  rw [hs] at hu hb hm ⊢
  simp only [Watch.reopened, Bool.or_eq_false_iff] at hu hb hm ⊢
  left
  cases hw u hu hb hm.1 with
  | inl hpending => rw [ht]; exact hpending
  | inr hbegun => rw [hm.2] at hbegun; cases hbegun

theorem taken {h' : Host} (hs : h'.watch = h.watch.taken) : Watched h' := by
  intro _ _ _ _
  right
  rw [hs]
  rfl

end Watched

/-- The host of the session is watched. -/
def Guards (s : Session) : Prop := Watched s.host

theorem Guards.timeless : Timeless Guards := fun units _ hs => Watched.elapse hs units

/-- What an effect leaves as it is. -/
def Calm (effect : Moment → Host → Host) : Prop :=
  ∀ m h, (effect m h).timers = h.timers ∧ (effect m h).watch = h.watch

theorem Calm.guards {effect : Moment → Host → Host} (hc : Calm effect) (m : Moment) (s : Session)
    (hs : Guards s) : Guards (s.onHost (effect m)) :=
  Watched.same hs (hc m s.host).1 (hc m s.host).2

theorem calm_id : Calm (fun _ h => h) := fun _ _ => ⟨rfl, rfl⟩

section Operations

variable {name : String} {can : Host → Bool} {effect : Moment → Host → Host}

theorem pass_guards : Keeps Guards pass := pass_keeps Guards.timeless (fun _ _ => id)

theorem look_guards : Keeps Guards look := look_triple Guards.timeless (fun _ _ => id)

theorem command_guards (hc : Calm effect) : Keeps Guards (command name can effect) :=
  command_triple Guards.timeless (fun m s hs _ => hc.guards m s hs) (fun _ _ => id)
    (fun _ m s hs _ => hc.guards m s hs)

theorem commandAllowed_guards (hc : Calm effect) : Keeps Guards (commandAllowed name can effect) :=
  commandAllowed_triple Guards.timeless (fun _ => id) (fun m s hs _ => hc.guards m s hs)
    (fun _ _ => id) (fun _ m s hs _ => hc.guards m s hs)

theorem user_guards (hc : Calm effect) : Keeps Guards (user can effect) :=
  user_triple Guards.timeless (fun m s hs _ => hc.guards m s hs) (fun _ _ => id)
    (fun _ m s hs _ => hc.guards m s hs)

theorem userAllowed_guards (hc : Calm effect) : Keeps Guards (userAllowed effect) :=
  userAllowed_triple Guards.timeless (fun _ => id) (fun m s hs => hc.guards m s hs)
    (fun _ _ => id) (fun _ m s hs => hc.guards m s hs)

theorem output_guards {canRun : Session → Bool} {output : Moment → Session → α} :
    Keeps Guards (run name canRun (fun _ s => s) output) :=
  run_triple Guards.timeless (fun _ _ hs _ => hs) (fun _ _ => id) (fun _ _ _ hs _ => hs)

theorem userOutput_guards {output : Moment → Host → α} : Keeps Guards (userOutput can output) :=
  userOutput_triple Guards.timeless (fun _ _ hs _ => hs) (fun _ _ => id)

theorem protect_guards : Keeps Guards protect := protect_triple Guards.timeless (fun _ _ => id)

theorem change_guards (hc : Calm effect) : Keeps Guards (change effect) :=
  change_triple Guards.timeless (fun m s => hc.guards m s) (fun _ _ => id)
    (fun _ m s => hc.guards m s)

theorem writeFile_guards {path : Path} {file : File} : Keeps Guards (writeFile path file) :=
  writeFile_triple Guards.timeless (fun _ hs => Watched.same hs rfl rfl) (fun _ _ => id)
    (fun _ _ hs => Watched.same hs rfl rfl)

theorem onState_guards {f : State → State} :
    Keeps Guards (Proc.update (·.onState f) : Action Unit) :=
  Triple.update (fun _ hs => hs)

theorem save_guards {phase : Option Phase} {note : Host → Host}
    (hn : ∀ s : Session, Guards s → Watched (note { s.host with journal := some s.state })) :
    Keeps Guards (save phase note) :=
  save_triple (R := Guards) Guards.timeless (fun _ hs => hs) hn (fun _ _ => id) (fun _ => hn)

theorem save_plain {phase : Option Phase} : Keeps Guards (save phase) :=
  save_guards (fun _ hs => Watched.same hs rfl rfl)

theorem field_guards {value : State → Option α} : Keeps Guards (field value) :=
  (field_triple (fun _ _ => id)).post (fun _ _ hs => hs.2)

theorem read_guards : Keeps Guards (Proc.read : Action Session) := Triple.read (fun _ => id)

theorem failure_guards {reason : String} : Keeps Guards (failure reason : Action α) :=
  Triple.raise (fun _ => id)

end Operations

/-! The functions of the installer. -/

theorem track_guards (path : Path) : Keeps Guards (track path) := by
  refine Keeps.bind protect_guards (fun _ => Keeps.bind read_guards (fun s => ?_))
  refine Triple.ite (fun _ => Triple.pure' (fun _ => id)) (fun _ => ?_)
  refine Keeps.bind pass_guards (fun _ => ?_)
  exact Keeps.bind (Triple.update (fun _ hs => hs)) (fun _ => save_plain)

theorem write_guards (path : Path) (data : String) : Keeps Guards (write path data) :=
  Keeps.bind (track_guards path) (fun _ => writeFile_guards)

/-- A new timer, whatever became of the one before. -/
theorem arm_guards (seconds : Nat) : Keeps Guards (arm seconds) := by
  refine Keeps.bind field_guards (fun token => ?_)
  refine Keeps.bind onState_guards (fun _ => Keeps.bind save_plain (fun _ => ?_))
  exact command_triple Guards.timeless (fun _ s _ _ => Watched.startTimer _) (fun _ _ => id)
    (fun _ _ s _ _ => Watched.startTimer _)

/-- The timer is stopped: from here to the next `arm` is the gap. -/
theorem disarm_guards : Keeps Guards disarm := by
  refine Keeps.bind read_guards (fun s => ?_)
  cases s.state.guard with
  | none => exact Triple.pure' (fun _ => id)
  | some unit =>
    exact commandAllowed_triple Guards.timeless (fun _ => id) (fun _ _ hs _ => Watched.stopTimer hs _)
      (fun _ _ => id) (fun _ _ _ hs _ => Watched.stopTimer hs _)

theorem setupRecovery_guards : Keeps Guards setupRecovery := by
  refine Keeps.bind protect_guards (fun _ => ?_)
  refine Keeps.bind (change_guards (fun _ _ => ⟨rfl, rfl⟩)) (fun _ => ?_)
  exact Keeps.bind (command_guards calm_id) (fun _ => command_guards calm_id)

theorem changeZone_guards (zone : String) : Keeps Guards (changeZone zone) :=
  command_guards (fun _ _ => ⟨rfl, rfl⟩)

theorem configureAccess_guards : Keeps Guards configureAccess := by
  refine Keeps.bind field_guards (fun config => ?_)
  refine Keeps.bind (managementZone_keeps Guards.timeless) (fun zone => ?_)
  refine Keeps.bind check_keeps (fun _ => Keeps.bind (track_guards _) (fun _ => ?_))
  refine Keeps.bind output_guards (fun _ => Keeps.bind output_guards (fun _ => ?_))
  refine Keeps.bind check_keeps (fun _ => Keeps.bind (write_guards _ _) (fun _ => ?_))
  refine Keeps.bind (command_guards calm_id) (fun _ => ?_)
  refine Keeps.bind (changeZone_guards zone) (fun _ => Keeps.bind (changeZone_guards zone) (fun _ => ?_))
  refine Keeps.bind (changeZone_guards zone) (fun _ => Keeps.bind (changeZone_guards zone) (fun _ => ?_))
  refine Keeps.bind output_guards (fun _ => Keeps.bind check_keeps (fun _ => ?_))
  refine Keeps.bind save_plain (fun _ => ?_)
  exact Keeps.bind (command_guards (fun _ _ => ⟨rfl, rfl⟩)) (fun _ => command_guards calm_id)

theorem identity_guards : Keeps Guards identity := by
  refine Keeps.bind read_guards (fun s => ?_)
  refine Keeps.bind (onlyIf_keeps ?_) (fun _ => ?_)
  · refine Keeps.bind onState_guards (fun _ => Keeps.bind save_plain (fun _ => ?_))
    exact command_guards (fun _ _ => ⟨rfl, rfl⟩)
  refine Keeps.bind ((accountEntry_triple (fun _ _ => id)).post (fun _ _ hs => hs.2))
    (fun account => ?_)
  refine Keeps.bind check_keeps (fun _ => Keeps.bind look_guards (fun m => ?_))
  refine Keeps.bind check_keeps (fun _ => Keeps.bind check_keeps (fun _ => ?_))
  refine Keeps.bind output_guards (fun _ => Keeps.bind check_keeps (fun _ => ?_))
  refine Keeps.bind look_guards (fun m => Keeps.bind check_keeps (fun _ => ?_))
  refine Keeps.bind (command_guards calm_id) (fun _ => ?_)
  refine Keeps.bind (command_guards calm_id) (fun _ => ?_)
  refine Keeps.bind (command_guards calm_id) (fun _ => ?_)
  refine Keeps.bind (user_guards calm_id) (fun _ => ?_)
  refine Keeps.bind (user_guards (fun _ _ => ⟨rfl, rfl⟩)) (fun _ => ?_)
  refine Keeps.bind onState_guards (fun _ => Keeps.bind save_plain (fun _ => ?_))
  exact Triple.pure' (fun _ => id)

theorem snapshot_guards : Keeps Guards snapshot := by
  refine Keeps.bind read_guards (fun s => ?_)
  refine Keeps.bind (onlyIf_keeps ?_) (fun _ => Keeps.bind read_guards (fun s => ?_))
  · refine Keeps.bind (command_guards calm_id) (fun _ => Keeps.bind protect_guards (fun _ => ?_))
    exact change_guards (fun _ _ => ⟨rfl, rfl⟩)
  refine Keeps.bind (onlyIf_keeps (command_guards (fun _ _ => ⟨rfl, rfl⟩))) (fun _ => ?_)
  refine Keeps.bind userOutput_guards (fun archive => ?_)
  refine Keeps.bind (run_triple Guards.timeless (fun _ _ hs _ => Watched.same hs rfl rfl)
    (fun _ _ => id) (fun _ _ _ hs _ => Watched.same hs rfl rfl)) (fun id => ?_)
  refine Keeps.bind output_guards (fun _ => Keeps.bind check_keeps (fun _ => ?_))
  exact Keeps.bind onState_guards (fun _ => save_plain)

theorem credentials_guards (key : Option String) : Keeps Guards (credentials key) := by
  refine Keeps.bind (onlyIf_keeps ?_) (fun _ => Keeps.bind read_guards (fun _ => check_keeps))
  refine Keeps.bind check_keeps (fun _ => Keeps.bind read_guards (fun _ => ?_))
  refine Keeps.bind check_keeps (fun _ => Keeps.bind onState_guards (fun _ => ?_))
  refine Keeps.bind save_plain (fun _ => Keeps.bind (command_guards calm_id) (fun _ => ?_))
  exact Keeps.bind protect_guards (fun _ => change_guards (fun _ _ => ⟨rfl, rfl⟩))

theorem installDropin_guards (name : String) : Keeps Guards (installDropin name) :=
  Keeps.bind (readLibrary_keeps Guards.timeless name) (fun text => write_guards _ text)

theorem runtime_guards : Keeps Guards runtime := by
  refine Keeps.bind field_guards (fun config => Keeps.bind field_guards (fun uid => ?_))
  refine Keeps.bind (user_guards calm_id) (fun _ => Keeps.bind (user_guards calm_id) (fun _ => ?_))
  refine Keeps.bind (readLibrary_keeps Guards.timeless _) (fun _ => Keeps.bind (readLibrary_keeps Guards.timeless _) (fun _ => ?_))
  refine Keeps.bind (user_guards (fun _ _ => ⟨rfl, rfl⟩)) (fun _ => ?_)
  refine Keeps.bind (readLibrary_keeps Guards.timeless _) (fun _ => Keeps.bind (write_guards _ _) (fun _ => ?_))
  refine Keeps.bind (write_guards _ _) (fun _ => Keeps.bind (write_guards _ _) (fun _ => ?_))
  refine Keeps.bind (readLibrary_keeps Guards.timeless _) (fun _ => Keeps.bind (write_guards _ _) (fun _ => ?_))
  refine Keeps.bind (installDropin_guards _) (fun _ => Keeps.bind (installDropin_guards _) (fun _ => ?_))
  refine Keeps.bind (command_guards calm_id) (fun _ => ?_)
  refine Keeps.bind (command_guards (fun _ _ => ⟨rfl, rfl⟩)) (fun _ => ?_)
  refine Keeps.bind (command_guards calm_id) (fun _ => Keeps.bind (user_guards calm_id) (fun _ => ?_))
  refine Keeps.bind (user_guards (fun _ _ => ⟨rfl, rfl⟩)) (fun _ => ?_)
  exact Keeps.bind (waitRounds_keeps Guards.timeless config 36) (fun _ => healthy_keeps Guards.timeless config true)

theorem restoreFile_guards (record : Path × Option File) : Keeps Guards (restoreFile record) := by
  refine Keeps.bind protect_guards (fun _ => ?_)
  cases record.2 with
  | none => exact change_guards (fun _ _ => ⟨rfl, rfl⟩)
  | some file => exact writeFile_guards

theorem restoreRecorded_guards (backup : Option String) : Keeps Guards (restoreRecorded backup) := by
  cases backup with
  | none => exact Triple.pure' (fun _ => id)
  | some id =>
    refine Keeps.bind output_guards (fun archive => Keeps.bind read_guards (fun s => ?_))
    cases s.state.backupSha256 with
    | none => exact Triple.raise (fun _ hs => hs)
    | some sha =>
      exact Keeps.bind check_keeps (fun _ => user_guards (fun _ _ => ⟨rfl, rfl⟩))

theorem restartPrevious_guards (config : Config) : Keeps Guards (restartPrevious config) := by
  refine Keeps.bind read_guards (fun s => ?_)
  refine Keeps.bind (onlyIf_keeps (command_guards (fun _ _ => ⟨rfl, rfl⟩))) (fun _ => ?_)
  refine Keeps.bind field_guards (fun uid => Keeps.bind (command_guards calm_id) (fun _ => ?_))
  refine Keeps.bind (user_guards calm_id) (fun _ => ?_)
  refine Keeps.bind (user_guards (fun _ _ => ⟨rfl, rfl⟩)) (fun _ => ?_)
  exact Keeps.bind (waitRounds_keeps Guards.timeless config 36) (fun _ => healthy_keeps Guards.timeless config true)

theorem removeAccount_guards : Keeps Guards removeAccount := by
  refine Keeps.bind (userAllowed_guards (fun _ _ => ⟨rfl, rfl⟩)) (fun _ => ?_)
  refine Keeps.bind (userAllowed_guards calm_id) (fun _ => ?_)
  refine Keeps.bind (command_guards calm_id) (fun _ => Keeps.bind field_guards (fun uid => ?_))
  refine Keeps.bind (commandAllowed_guards calm_id) (fun _ => ?_)
  refine Keeps.bind (command_guards (fun _ _ => ⟨rfl, rfl⟩)) (fun _ => Keeps.bind read_guards (fun s => ?_))
  refine Keeps.bind (onlyIf_keeps (change_guards (fun _ _ => ⟨rfl, rfl⟩))) (fun _ => ?_)
  exact change_guards (fun _ _ => ⟨rfl, rfl⟩)

theorem undo_guards : Keeps Guards undo := by
  refine Keeps.bind read_guards (fun s => ?_)
  refine Keeps.bind (onlyIf_keeps (userAllowed_guards (fun _ _ => ⟨rfl, rfl⟩))) (fun _ => ?_)
  refine Keeps.bind (restoreRecorded_guards _) (fun _ => ?_)
  refine Keeps.bind (Keeps.forEach _ (fun record _ => restoreFile_guards record)) (fun _ => ?_)
  refine Keeps.bind (command_guards calm_id) (fun _ => ?_)
  refine Keeps.bind (commandAllowed_guards (fun _ _ => ⟨rfl, rfl⟩)) (fun _ => ?_)
  refine Keeps.bind (command_guards calm_id) (fun _ => Keeps.bind (command_guards calm_id) (fun _ => ?_))
  cases s.state.previous with
  | some previous => exact restartPrevious_guards previous
  | none => exact onlyIf_keeps removeAccount_guards

theorem recover_guards : Keeps Guards recover := by
  refine Keeps.bind read_guards (fun s => ?_)
  refine Triple.ite (fun _ => Triple.pure' (fun _ => id)) (fun _ => ?_)
  refine Keeps.bind (Triple.update (fun _ hs => Watched.same hs rfl rfl)) (fun _ => ?_)
  exact Keeps.bind undo_guards (fun _ => Keeps.bind disarm_guards (fun _ => save_plain))

theorem orRecover_guards {x : Action α} (hx : Keeps Guards x) : Keeps Guards (orRecover x) := by
  apply Keeps.handle hx
  intro e
  apply Triple.ite
  · intro _
    exact Triple.raise (fun _ => id)
  · intro _
    exact Keeps.bind recover_guards (fun _ => Triple.raise (fun _ => id))

theorem attempt_guards (config : Config) (files : Payload) (key : Option String)
    (previous : Option Config) : Keeps Guards (attempt config files key previous) := by
  refine Keeps.bind (installPayload_keeps Guards.timeless
    (fun _ _ hs => Watched.same hs rfl rfl) files) (fun _ => Keeps.bind look_guards (fun m => ?_))
  refine Keeps.bind (Triple.update (fun _ hs => hs)) (fun _ => ?_)
  -- the watch of the new attempt begins
  refine Keeps.bind (save_guards (fun _ _ => Watched.idle rfl)) (fun _ => ?_)
  refine Keeps.bind setupRecovery_guards (fun _ => Keeps.bind (arm_guards 1200) (fun _ => ?_))
  apply orRecover_guards
  refine Keeps.bind ?_ (fun _ => ?_)
  · refine Keeps.bind (command_guards calm_id) (fun _ => ?_)
    refine Keeps.bind (commandAllowed_guards calm_id) (fun _ => Keeps.bind save_plain (fun _ => ?_))
    refine Keeps.bind (command_guards calm_id) (fun _ => Keeps.bind identity_guards (fun _ => ?_))
    refine Keeps.bind (credentials_guards key) (fun _ => Keeps.bind (user_guards calm_id) (fun _ => ?_))
    refine Keeps.bind userOutput_guards (fun _ => Keeps.bind check_keeps (fun _ => ?_))
    refine Keeps.bind (onlyIf_keeps ?_) (fun _ => ?_)
    · exact Keeps.bind (user_guards (fun _ _ => ⟨rfl, rfl⟩)) (fun _ => snapshot_guards)
    · exact Keeps.bind configureAccess_guards (fun _ => save_plain)
  · refine Keeps.bind disarm_guards (fun _ => Keeps.bind (arm_guards 120) (fun _ => ?_))
    exact Keeps.bind field_guards (fun _ => Triple.pure' (fun _ => id))

theorem prepare_guards (config : Config) (files : Payload) (key : Option String) :
    Keeps Guards (prepare config files key) := by
  refine Keeps.bind (preflight_keeps Guards.timeless config) (fun _ => Keeps.bind read_guards (fun s => ?_))
  refine Keeps.bind (onlyIf_keeps recover_guards) (fun _ => Keeps.bind read_guards (fun s => ?_))
  apply Triple.ite
  · intro _
    exact Keeps.bind (healthy_keeps Guards.timeless config true) (fun _ => Triple.pure' (fun _ => id))
  · intro _
    exact Keeps.bind (admissible_keeps key _) (fun _ => attempt_guards config files key _)

theorem dispatchLocked_guards (request : Request) : Keeps Guards (dispatchLocked request) := by
  cases request with
  | check config => exact failure_guards
  | status => exact failure_guards
  | recover => exact Keeps.bind recover_guards (fun _ => Triple.pure' (fun _ => id))
  | rollback =>
    refine Keeps.bind read_guards (fun s => Keeps.bind check_keeps (fun _ => ?_))
    refine Keeps.bind (save_guards (fun _ hs => Watched.reopened hs rfl rfl)) (fun _ => ?_)
    refine Keeps.bind (arm_guards 600) (fun _ => Keeps.bind recover_guards (fun _ => ?_))
    exact Triple.pure' (fun _ => id)
  | prepare config files key => exact prepare_guards config files key
  | confirmAccess config token =>
    refine Keeps.bind (bound_keeps config token) (fun _ => Keeps.bind read_guards (fun s => ?_))
    refine Keeps.bind check_keeps (fun _ => Keeps.bind (preflight_keeps Guards.timeless config) (fun _ => ?_))
    refine Keeps.bind save_plain (fun _ => Keeps.bind disarm_guards (fun _ => ?_))
    exact Keeps.bind (arm_guards 600) (fun _ => Triple.pure' (fun _ => id))
  | deploy config token =>
    refine Keeps.bind (bound_keeps config token) (fun _ => Keeps.bind read_guards (fun s => ?_))
    refine Keeps.bind check_keeps (fun _ => orRecover_guards ?_)
    refine Keeps.bind save_plain (fun _ => Keeps.bind runtime_guards (fun _ => ?_))
    exact Keeps.bind save_plain (fun _ => Keeps.bind disarm_guards (fun _ => Triple.pure' (fun _ => id)))

theorem takeLock_guards (byTimer : Bool) : Keeps Guards (takeLock byTimer) := by
  refine Triple.perform (fun _ hs => hs) ?_
  intro m s hs r s' hr
  split at hr
  · cases hr
    cases byTimer with
    | true => exact Watched.taken rfl
    | false => exact Watched.same hs rfl rfl
  · split at hr <;> cases hr <;> exact hs

theorem dispatch_guards (byTimer : Bool) (request : Request) :
    Keeps Guards (dispatch byTimer request) := by
  have hlocked : Keeps Guards (do
      protect
      takeLock byTimer
      Proc.update fun s => { s with state := s.host.journal.getD {} }
      dispatchLocked request) :=
    Keeps.bind protect_guards (fun _ => Keeps.bind (takeLock_guards byTimer) (fun _ =>
      Keeps.bind (Triple.update (fun _ hs => hs)) (fun _ => dispatchLocked_guards request)))
  cases request with
  | check config => exact Keeps.bind (preflight_keeps Guards.timeless config) (fun _ => Triple.pure' (fun _ => id))
  | status => exact Keeps.bind protect_guards (fun _ => status_keeps Guards.timeless)
  | recover => exact hlocked
  | rollback => exact hlocked
  | prepare config files key => exact hlocked
  | confirmAccess config token => exact hlocked
  | deploy config token => exact hlocked

/-- A process of the installer leaves the host watched, wherever it ends. -/
theorem invoke_watched (byTimer : Bool) (request : Request) :
    Keeps Watched (invoke byTimer request) := by
  refine Triple.start (fun h hw => ?_)
  exact Triple.zoom h (I := Guards) (dispatch_guards byTimer request)
    (fun s hs => ⟨hs, by rw [hs]; exact hw⟩) (fun _ _ hs => hs) (fun _ _ hs => hs)

/-! Runs. -/

/-- A request is served, or a guard timer goes off while no process is running, and the
    recovery that it starts is served. -/
inductive Next (h : Host) : Host → Prop where
  | serve (request : Request) (t : List Moment) : Next h ((invoke false request).after t h)
  | fire (unit : String) (t : List Moment) (pending : h.timers unit = true) :
      Next h ((invoke (h.watch.unit == some unit) .recover).after t (h.elapse [unit]))

theorem Next.watched {h h' : Host} (hn : Next h h') (hw : Watched h) : Watched h' := by
  cases hn with
  | serve request t => exact (invoke_watched false request).after hw
  | fire unit t _ => exact (invoke_watched _ .recover).after (hw.elapse [unit])

/-- An attempt has begun and is not over. -/
def Host.unfinished (h : Host) : Bool := h.journal.isSome && !h.final

/-- An unfinished attempt is not in one of the two gaps: its timer was not stopped, and did
    not go off in vain, since it was started last; or its recovery is at work. -/
def Gapless (h : Host) : Prop :=
  h.unfinished = true → h.watch.between = false ∧ h.watch.missed = false ∨ h.watch.begun = true

/-- The timer that an unfinished attempt has started last is pending, or the recovery that
    it starts has taken the lock. -/
def Guarded (h : Host) : Prop :=
  h.unfinished = true → ∀ unit, h.watch.unit = some unit →
    h.timers unit = true ∨ h.watch.begun = true

/-- The runs of the installer whose processes all end outside the gaps. -/
inductive GaplessRun (h₀ : Host) : Host → Prop where
  | start : GaplessRun h₀ h₀
  | step {h h' : Host} (run : GaplessRun h₀ h) (next : Next h h') (gapless : Gapless h') :
      GaplessRun h₀ h'

theorem GaplessRun.watched {h₀ h : Host} (hr : GaplessRun h₀ h) (hw : Watched h₀) : Watched h := by
  induction hr with
  | start => exact hw
  | step _ next _ ih => exact next.watched ih

/-- The sample installation, waiting for the access to be confirmed. -/
def preparedHost : Host :=
  (invoke false (.prepare sampleConfig samplePayload (some "key"))).after
    (List.replicate 200 sampleMoment) cleanHost

/-- Its `confirm-access` is stopped after `disarm`. -/
def disarmedHost : Host :=
  (invoke false (.confirmAccess sampleConfig "0123456789abcdef0123")).after
    (List.replicate 11 sampleMoment) preparedHost

end Hermes.Simple

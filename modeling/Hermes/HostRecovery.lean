import Hermes.HostRollback

/- Recovery before the package staging.

   Up to `credential-ready` a release changes nothing on the host but the
   credential, the service that runs and its own journal and backup (`Waiting`),
   wherever its stages stop. A rollback in which every command succeeds that can
   then brings the host back exactly when it is `Recoverable`: the backup was
   completed, the account and the data directory exist, and an application that
   was active is known to have been active and has a quadlet file that names its
   image. -/
namespace Hermes
open Process

variable {α : Type}

/-! The stages before the package staging. -/

/-- The requests that come before `advance`. -/
def Action.beforeStaging : Action → Bool
  | .snapshot | .backupVerified _ | .credential _ => true
  | _ => false

/-- Requests of one release in order, each with its script. -/
def Machine.requested (r : Release) (s : Machine) (requests : List (Action × List Moment)) :
    Machine :=
  requests.foldl (fun s request => (invoke r request.1).after request.2 s) s

/-- The host `m` of a release that started on the host `s` and has staged no packages. -/
structure Waiting (r : Release) (s m : Machine) : Prop where
  account : m.account = s.account
  dataDir : m.dataDir = s.dataDir
  userManager : m.userManager = s.userManager
  containerUid : m.containerUid = s.containerUid
  otherUnit : m.otherUnit = s.otherUnit
  files : ∀ p, p ≠ .credential → m.files p = s.files p
  credential : m.files .credential = s.files .credential ∨
    (m.journalOf r.id).phase ≠ .new ∧ ∃ bytes info, m.files .credential = some (.file bytes info)
  phase : (m.journalOf r.id).phase = .new ∨ (m.journalOf r.id).phase.preStaging = true
  backup : ∀ q, m.previous r.id = some q → q.complete = true → CapturedOn s q

namespace Waiting

variable {r : Release} {s m : Machine}

/-- A release that the host has not seen yet. -/
theorem fresh (hj : s.journals r.id = none) (hp : s.previous r.id = none) : Waiting r s s where
  account := rfl
  dataDir := rfl
  userManager := rfl
  containerUid := rfl
  otherUnit := rfl
  files := fun _ _ => rfl
  credential := .inl rfl
  phase := .inl (by simp [Machine.journalOf, hj])
  backup := by simp [hp]

/-- Everything but account, files, journal and backup may change. -/
theorem other (h : Waiting r s m) {m' : Machine} (ha : m'.account = m.account)
    (hd : m'.dataDir = m.dataDir) (hu : m'.userManager = m.userManager)
    (hc : m'.containerUid = m.containerUid) (ho : m'.otherUnit = m.otherUnit)
    (hf : m'.files = m.files) (hj : m'.journals = m.journals) (hp : m'.previous = m.previous) :
    Waiting r s m' := by
  have hjournal : m'.journalOf r.id = m.journalOf r.id := by simp only [Machine.journalOf, hj]
  refine ⟨ha.trans h.account, hd.trans h.dataDir, hu.trans h.userManager, hc.trans h.containerUid,
    ho.trans h.otherUnit, ?_, ?_, ?_, ?_⟩
  · rw [hf]; exact h.files
  · rw [hf, hjournal]; exact h.credential
  · rw [hjournal]; exact h.phase
  · rw [hp]; exact h.backup

/-- A capture that is complete has the files of the start. -/
theorem capture (h : Waiting r s m) (hnew : (m.journalOf r.id).phase = .new) {p : Previous}
    (hp : p.complete = true → CapturedOn m p) :
    Waiting r s (m.setPrevious r.id p) where
  account := h.account
  dataDir := h.dataDir
  userManager := h.userManager
  containerUid := h.containerUid
  otherUnit := h.otherUnit
  files := h.files
  credential := h.credential
  phase := h.phase
  backup := by
    intro q hq hcomplete
    rw [Machine.setPrevious_same] at hq
    cases hq
    obtain ⟨_, records, hr, hplaces, hkept⟩ := hp hcomplete
    have hfiles : m.files = s.files := by
      funext x
      by_cases hx : x = .credential
      · subst hx
        rcases h.credential with hc | hc
        · exact hc
        · exact absurd hnew hc.1
      · exact h.files x hx
    refine ⟨hcomplete, records, hr, by rw [← h.account]; exact hplaces, fun record hmem => ?_⟩
    obtain ⟨hindex, hrecord⟩ := hkept record hmem
    unfold Kept at hrecord ⊢
    rw [← hfiles]
    exact ⟨hindex, hrecord⟩

/-- A journal write of a stage before the package staging. -/
theorem save (h : Waiting r s m) {j : Journal} (hj : j.phase.preStaging = true) (e : Mark) :
    Waiting r s ((m.setJournal r.id j).mark e) where
  account := h.account
  dataDir := h.dataDir
  userManager := h.userManager
  containerUid := h.containerUid
  otherUnit := h.otherUnit
  files := h.files
  credential := by
    rcases h.credential with hc | ⟨_, hc⟩
    · exact .inl hc
    · refine .inr ⟨?_, hc⟩
      intro hnew
      simp only [Machine.journalOf, Machine.mark_journals, Machine.setJournal_same,
        Option.getD_some] at hnew
      rw [hnew] at hj
      cases hj
  phase := .inr (by simpa [Machine.journalOf] using hj)
  backup := h.backup

theorem store (h : Waiting r s m) (hnew : (m.journalOf r.id).phase ≠ .new) (bytes : Bytes)
    (info : Meta) (e : Mark) :
    Waiting r s ((m.setNode .credential (some (.file bytes info))).mark e) where
  account := h.account
  dataDir := h.dataDir
  userManager := h.userManager
  containerUid := h.containerUid
  otherUnit := h.otherUnit
  files := fun p hp => by
    rw [Machine.mark_files, Machine.setNode_other _ _ _ _ hp]
    exact h.files p hp
  credential := .inr ⟨hnew, bytes, info, by simp⟩
  phase := h.phase
  backup := h.backup

end Waiting

section Stages

variable {r : Release} {s : Machine}

/-- A process whose journal in memory is the one on disk. -/
def WaitingSession (r : Release) (s : Machine) (x : Session) : Prop :=
  Waiting r s x.host ∧ x.state = x.host.journalOf r.id

theorem save_waiting {phase : Phase} {values : Journal → Journal} (hphase : phase.preStaging = true) :
    Triple (fun x => Waiting r s x.host) (save r phase values) (fun _ x => Waiting r s x.host)
      (fun _ x => Waiting r s x.host) := by
  unfold save
  refine Triple.bind (Triple.update (Q := fun _ x => Waiting r s x.host ∧ x.state.phase = phase)
    (fun _ h => ⟨h, rfl⟩)) (fun _ => ?_)
  refine Triple.bind (Q := fun _ x => Waiting r s x.host) (atomic_triple ?_ (fun _ _ h => h.1) ?_)
    (fun _ => Triple.pure' (fun _ h => h))
  · exact fun _ x h => h.1.save (by rw [h.2]; exact hphase) _
  · exact fun _ _ x h => h.1.save (by rw [h.2]; exact hphase) _

theorem onMachine_waiting {x : Task Machine α} (h : Keeps (Waiting r s) x) :
    Keeps (fun x => Waiting r s x.host) (onMachine x) :=
  onMachine_triple (fun _ => h)

theorem snapshotDigest_waiting : Keeps (Waiting r s) (snapshotDigest r.id) :=
  snapshotDigest_triple.post (fun _ _ h => h.1)

theorem archiveData_waiting : Keeps (Waiting r s) (archiveData r.id) := by
  have hstop : Keeps (Waiting r s) stopService :=
    asHermes_keeps (fun _ _ h _ => h.other rfl rfl rfl rfl rfl rfl rfl rfl)
  have hcreate : Keeps (Waiting r s) (createSnapshot r.id) := by
    unfold createSnapshot
    refine Triple.bind (Triple.read (Q := fun _ => Waiting r s) (fun _ h => h)) (fun _ => ?_)
    refine Triple.ite (fun _ => Triple.raise (fun _ h => h)) (fun _ => ?_)
    refine Triple.bind (atomic_keeps (fun _ _ h => ?_)) (fun _ => atomic_keeps (fun _ _ h => h))
    exact h.other rfl rfl rfl rfl rfl rfl rfl rfl
  have hrefuse : ∀ e : Exc, Keeps (Waiting r s) (if e.isFailure then do
      let idle ← asHermes (fun _ => true) (fun _ s => s) (fun _ s => !s.active)
      require idle "cannot-quiesce-runtime"
    else Proc.raise e) :=
    fun e => Triple.ite (fun _ => Triple.bind (asHermes_keeps (fun _ _ h _ => h))
      (fun _ => require_keeps)) (fun _ => Triple.raise (fun _ h => h))
  unfold archiveData
  refine Triple.bind (Triple.read (Q := fun _ => Waiting r s) (fun _ h => h)) (fun _ => ?_)
  refine Triple.ite (fun _ => ?_) (fun _ => ?_)
  · refine Triple.bind (Triple.handle hstop hrefuse) (fun _ => Triple.bind hcreate (fun _ => ?_))
    exact asHermes_keeps (fun _ _ h _ => h.other rfl rfl rfl rfl rfl rfl rfl rfl)
  · refine Triple.bind hcreate (fun _ => run_keeps (fun _ _ h _ => ?_))
    exact h.other rfl rfl rfl rfl rfl rfl rfl rfl

theorem captureApplication_waiting :
    Triple (fun m => Waiting r s m ∧ (m.journalOf r.id).phase = .new) (captureApplication r.id)
      (fun _ => Waiting r s) (fun _ => Waiting r s) := by
  refine Triple.start (fun m hm => captureApplication_triple.mono (fun _ h => h) ?_ ?_)
  · intro _ m' h
    rcases h with ⟨heq, _⟩ | ⟨_, p, hm', hc⟩
    · rw [heq]; exact hm.1
    · rw [hm']
      exact hm.1.capture hm.2 (fun _ => hc)
  · intro _ m' h
    rcases h with heq | ⟨_, p, hm', hc⟩
    · rw [heq]; exact hm.1
    · rw [hm']
      exact hm.1.capture hm.2 hc

theorem snapshotData_waiting :
    Triple (WaitingSession r s) (snapshotData r) (fun _ x => Waiting r s x.host)
      (fun _ x => Waiting r s x.host) := by
  unfold snapshotData
  refine Triple.bind session_read (fun x₁ => Triple.ite (fun _ => ?_) (fun hnew => ?_))
  · refine Triple.pre (P := fun x => Waiting r s x.host) ?_ (fun _ h => h.1.1)
    refine Triple.bind require_keeps (fun _ => ?_)
    exact Triple.bind (onMachine_waiting snapshotDigest_waiting) (fun _ => Triple.pure' (fun _ h => h))
  · have hphase : x₁.state.phase = .new := Decidable.not_not.mp hnew
    have hstart : ∀ x, WaitingSession r s x ∧ x₁ = x →
        Waiting r s x.host ∧ (x.host.journalOf r.id).phase = .new := by
      rintro x ⟨h, heq⟩
      rw [← h.2, ← heq]
      exact ⟨heq ▸ h.1, hphase⟩
    refine Triple.bind (preflight_keeps.mono hstart (fun _ _ h => h) (fun _ _ h => h.1)) (fun _ => ?_)
    refine Triple.bind (Q := fun _ x => Waiting r s x.host)
      (onMachine_triple (fun _ => captureApplication_waiting)) (fun _ => ?_)
    have hactive : Keeps (Waiting r s) serviceActive :=
      Triple.handle (asHermes_keeps (fun _ _ h _ => h))
        (fun _ => Triple.ite (fun _ => Triple.pure' (fun _ h => h)) (fun _ => Triple.raise (fun _ h => h)))
    refine Triple.bind (onMachine_waiting hactive) (fun active => ?_)
    refine Triple.bind (save_waiting rfl) (fun _ => ?_)
    refine Triple.bind (onMachine_waiting look_keeps) (fun _ => ?_)
    refine Triple.bind (onMachine_waiting archiveData_waiting) (fun _ => ?_)
    refine Triple.bind (onMachine_waiting snapshotDigest_waiting) (fun _ => ?_)
    exact Triple.bind (save_waiting rfl) (fun _ => Triple.pure' (fun _ h => h))

theorem acknowledgeBackup_waiting (receipt : BackupReceipt) :
    Keeps (fun x => Waiting r s x.host) (acknowledgeBackup r receipt) := by
  unfold acknowledgeBackup
  refine Triple.bind (Triple.read (Q := fun _ x => Waiting r s x.host) (fun _ h => h)) (fun x₁ => ?_)
  refine Triple.bind require_keeps (fun _ => ?_)
  cases x₁.state.snapshotSha256 with
  | none => exact Triple.raise (fun _ h => h)
  | some expected =>
    refine Triple.bind require_keeps (fun _ => ?_)
    refine Triple.bind (Triple.update (Q := fun _ x => Waiting r s x.host) (fun x h => ?_))
      (fun _ => save_waiting rfl)
    exact h.other rfl rfl rfl rfl rfl rfl rfl rfl

theorem credential_waiting (value : Option Key) :
    Triple (WaitingSession r s) (credential r value) (fun _ x => Waiting r s x.host)
      (fun _ x => Waiting r s x.host) := by
  unfold credential
  refine Triple.bind session_read (fun x₁ => ?_)
  refine Triple.bind (require_triple (Q := fun _ x => Waiting r s x.host ∧
    (x.host.journalOf r.id).phase ≠ .new) ?_ (fun _ _ h => h.1.1)) (fun _ => ?_)
  · rintro hc x ⟨h, heq⟩
    refine ⟨h.1, ?_⟩
    rw [← h.2, ← heq]
    intro hnew
    simp [hnew] at hc
  refine Triple.bind (require_triple (Q := fun _ x => Waiting r s x.host ∧
    (x.host.journalOf r.id).phase ≠ .new) (fun _ _ h => h) (fun _ _ h => h.1)) (fun _ => ?_)
  cases value with
  | none => exact Triple.raise (fun _ h => h.1)
  | some key =>
    have hquery : ∀ j : Journal, Triple (fun m => Waiting r s m ∧ (m.journalOf r.id).phase ≠ .new)
        (query (fun _ => true) (fun m _ => m.token))
        (fun _ m => Waiting r s m ∧ (m.journalOf r.id).phase ≠ .new) (fun _ => Waiting r s) :=
      fun _ => query_triple (fun _ _ h _ => h) (fun _ _ h => h.1)
    refine Triple.bind (Q := fun _ x => Waiting r s x.host ∧ (x.host.journalOf r.id).phase ≠ .new)
      (onMachine_triple hquery) (fun nonce => ?_)
    refine Triple.bind (Q := fun _ x => Waiting r s x.host ∧ (x.host.journalOf r.id).phase ≠ .new)
      (onMachine_triple (fun _ => atomic_triple (fun _ _ h => h) (fun _ _ h => h.1)
        (fun _ _ _ h => h.1))) (fun _ => ?_)
    refine Triple.bind (Q := fun _ x => Waiting r s x.host)
      (onMachine_triple (fun _ => atomic_triple ?_ (fun _ _ h => h.1) ?_)) (fun _ => save_waiting rfl)
    · exact fun _ m h => h.1.store h.2 _ _ _
    · exact fun _ _ m h => h.1.store h.2 _ _ _

theorem invoke_waiting {a : Action} (ha : a.beforeStaging = true) :
    Keeps (Waiting r s) (invoke r a) := by
  unfold invoke runHost
  refine Triple.bind (Triple.read (Q := fun m₀ m => Waiting r s m ∧ m = m₀) (fun _ h => ⟨h, rfl⟩))
    (fun m₀ => Triple.given (φ := Waiting r s m₀) (fun _ h => h.2 ▸ h.1) (fun hm₀ => ?_))
  have hmain : Triple (WaitingSession r s) (hostMain r a) (fun _ x => Waiting r s x.host)
      (fun _ x => Waiting r s x.host) := by
    cases a with
    | snapshot => exact snapshotData_waiting
    | backupVerified receipt => exact (acknowledgeBackup_waiting receipt).pre (fun _ h => h.1)
    | credential value => exact credential_waiting value
    | _ => cases ha
  exact Triple.zoom m₀ hmain (fun m h => ⟨h.2, by rw [h.2]; exact ⟨hm₀, rfl⟩⟩) (fun _ _ h => h)
    (fun _ _ h => h)

theorem requested_waiting (requests : List (Action × List Moment)) {m : Machine}
    (ha : ∀ request ∈ requests, request.1.beforeStaging = true) (h : Waiting r s m) :
    Waiting r s (m.requested r requests) := by
  induction requests generalizing m with
  | nil => exact h
  | cons request requests ih =>
    refine ih (fun x hx => ha x (by simp [hx])) ?_
    exact (invoke_waiting (ha request (by simp))).after h

end Stages

/-! A rollback in which everything that can succeed does. -/

/-- The application runs, as `systemctl --user` sees it. -/
def Machine.serving (s : Machine) : Bool := s.account.isSome && s.userManager && s.active

/-- Every command that can succeed does, and a container started from the quadlet file of `s`
    is healthy. -/
def Cooperates (s : Machine) (x : Moment) : Prop :=
  x.verdict = .done ∧ x.inspection.healthy = true ∧ x.inspection.readonlyRootfs = true ∧
    x.inspection.publishedPorts = false ∧ x.inspection.privileged = false ∧
    ∀ image, s.quadletImage = some image → x.inspection.imageName = image

section Good

variable {s s' : Machine} {id : ReleaseId} {q : Previous} {phase : Phase}
  {done records : List FileRecord} {record : FileRecord} {G : Moment → Prop}

theorem asHermes_within {can : Machine → Bool} {effect : Moment → Machine → Machine}
    {output : Moment → Machine → α} {P : Machine → Prop} {Q : α → Machine → Prop}
    {E : Exc → Machine → Prop} (hG : ∀ x, G x → x.verdict = .done)
    (hok : ∀ x m, G x → P m → m.account.isSome → can m = true → Q (output x m) (effect x m))
    (hno : ∀ m, P m → can m = false → E (.failure 69 "operation-failed") m)
    (hkey : ∀ m, P m → m.account.isSome = false → E .keyError m) :
    Within G 1 P (asHermes can effect output) Q E := by
  unfold asHermes
  refine Within.bind_sub (a := 0) (Within.read (Q := fun m₀ m => P m ∧ m₀ = m) (fun _ h => ⟨h, rfl⟩))
    (fun m₀ => Within.ite (fun hnone => ?_) (fun hsome => ?_)) (by omega)
  · refine Within.raise (fun m h => hkey m h.1 ?_)
    rw [← h.2]
    simpa using hnone
  · have haccount : m₀.account.isSome := by
      cases h : m₀.account with
      | none => exact absurd (by rw [h]; rfl) hsome
      | some _ => rfl
    exact run_within hG (fun x m hx h => hok x m hx h.1 (h.2 ▸ haccount)) (fun m h => hno m h.1)

/-- The service is down afterwards, unless it runs where the user manager does not. -/
theorem quiesce_within (hG : ∀ x, G x → x.verdict = .done) :
    Completes G 1 (fun m => m = s) quiesce
      (fun _ m => (s.active = true → s.serving = true) → m.active = false) := by
  refine Within.handle (a := 1) (b := 0) (E := fun e m => e.isFailureOrKey = true ∧ m = s ∧
    s.serving = false) (asHermes_within hG (fun _ _ _ _ _ _ _ => rfl) ?_ ?_) (fun e => ?_)
  · intro m h hno
    refine ⟨rfl, h, ?_⟩
    rw [h] at hno
    cases hu : s.userManager <;> cases ha : s.active <;> simp_all [Machine.serving]
  · intro m h hkey
    refine ⟨rfl, h, ?_⟩
    rw [h] at hkey
    simp [Machine.serving, hkey]
  · refine Within.ite (fun _ => Within.pure' (fun m h hs => ?_)) (fun hno => ?_)
    · cases ha : m.active with
      | false => rfl
      | true =>
        rw [h.2.1] at ha
        rw [h.2.2] at hs
        exact absurd (hs ha) (by simp)
    · exact fun _ m _ _ h => absurd h.1 hno

theorem readCopy_within {n : Nat} {E : Exc → Machine → Prop} {I : Machine → Prop} {bytes : Bytes}
    (hb : q.copies record.index = some bytes) (hI : ∀ m, I m → m.previous id = some q) :
    Within G n I (readCopy id record) (fun _ => I) E := by
  unfold readCopy
  refine Within.bind_sub (a := 0) (Within.read (Q := fun m₀ m => I m ∧ m₀ = m)
    (fun _ h => ⟨h, rfl⟩)) (fun m₀ => ?_) (by omega)
  refine Within.given (φ := m₀.previous id = some q) (fun m h => by rw [h.2]; exact hI m h.1)
    (fun hq => ?_)
  rw [hq, Option.bind_some, hb]
  exact Within.pure' (fun _ h => h.1)

theorem restoreRecord_within (hG : ∀ x, G x → x.verdict = .done) (hq : s.previous id = some q)
    (hheld : record.held q)
    (hconfig : record.place = .config → s.account.isSome ∧ s.dataDir = true)
    (hlink : ∀ m, Restored s q done m → Node.isLink (m.files record.place) = false) :
    Completes G 3 (Restored s q done) (restoreRecord id phase record)
      (fun _ => Restored s q (done ++ restorable phase [record])) := by
  have hprev : ∀ m, Restored s q done m → m.previous id = some q :=
    fun m h => by rw [h.frame.previous]; exact hq
  have hruns : Completes G 3 (Restored s q done) (restoreRecord id phase record)
      (fun _ _ => True) := by
    unfold restoreRecord
    refine Within.ite (fun _ => Within.pure' (fun _ _ => trivial)) (fun _ => ?_)
    refine Within.bind_sub (a := 0) (Within.read (Q := fun m₀ m => Restored s q done m ∧ m₀ = m)
      (fun _ h => ⟨h, rfl⟩)) (fun m₀ => ?_) (by omega)
    refine Within.bind_sub (a := 0) (require_within (Q := fun _ => Restored s q done)
      (fun m h => by rw [h.2, hlink m h.1]; rfl) (fun _ h => h.1)) (fun _ => ?_) (by omega)
    refine Within.ite (fun hp => ?_) (fun _ => ?_)
    · have hset : ∀ effect, Completes G 1 (Restored s q done)
          (asHermes (fun m => m.dataDir) effect (fun _ _ => ())) (fun _ _ => True) := by
        refine fun effect => asHermes_within hG (fun _ _ _ _ _ _ => trivial) ?_ ?_
        · intro m h hno
          rw [h.frame.dataDir, (hconfig hp).2] at hno
          cases hno
        · intro m h hno
          rw [h.frame.account, (hconfig hp).1] at hno
          cases hno
      unfold restoreConfig
      cases hs : record.saved with
      | none => exact (hset _).budget (by omega)
      | some info =>
        obtain ⟨b, hb⟩ := Option.isSome_iff_exists.mp (hheld (by rw [hs]; rfl))
        exact Within.bind_sub (readCopy_within (n := 0) hb hprev)
          (fun _ => (hset _).budget (by omega)) (by omega)
    · unfold restoreFile
      cases hs : record.saved with
      | none => exact Within.budget (atomic_within hG (fun _ _ _ _ => trivial)) (by omega)
      | some info =>
        obtain ⟨b, hb⟩ := Option.isSome_iff_exists.mp (hheld (by rw [hs]; rfl))
        have hstep : ∀ effect, Completes G 1 (fun _ => True) (atomic effect)
            (fun _ (_ : Machine) => True) :=
          fun _ => atomic_within hG (fun _ _ _ _ => trivial)
        refine Within.bind_sub (readCopy_within (n := 0) hb hprev) (fun _ => ?_) (by omega)
        refine Within.bind_sub ((hstep _).pre (fun _ _ => trivial)) (fun _ => ?_) (by omega)
        exact Within.bind_sub (hstep _) (fun _ => hstep _) (by omega)
  exact (hruns.and_triple (restoreRecord_triple hq)).mono (fun _ h => h) (fun _ _ h => h.2)
    (fun _ _ h => h.1)

/-- The records of a backup can all be restored. -/
structure Restorable (s : Machine) (q : Previous) (records : List FileRecord) : Prop where
  held : ∀ record ∈ records, record.held q
  config : ∀ record ∈ records, record.place = .config → s.account.isSome ∧ s.dataDir = true
  link : ∀ record ∈ records, Node.isLink (s.files record.place) = false

theorem node_isLink (record : FileRecord) (uid : Nat) : Node.isLink (record.node q uid) = false := by
  unfold FileRecord.node
  cases record.saved with
  | none => rfl
  | some info =>
    cases hb : q.copies record.index with
    | none => simp [Node.isLink]
    | some bytes => simp [Node.isLink]

theorem restoreRecords_within (hG : ∀ x, G x → x.verdict = .done) (hq : s.previous id = some q)
    (h : Restorable s q records) :
    Completes G (records.length * 3) (Restored s q done)
      (Proc.forEach records (restoreRecord id phase))
      (fun _ => Restored s q (done ++ restorable phase records)) := by
  induction records generalizing done with
  | nil => exact Within.pure' (fun m hm => by simpa [restorable] using hm)
  | cons record records ih =>
    have hsplit : done ++ restorable phase (record :: records) =
        done ++ restorable phase [record] ++ restorable phase records := by
      rw [List.append_assoc]
      simp only [restorable, ← List.filter_append, List.singleton_append]
    have hlink : ∀ m, Restored s q done m → Node.isLink (m.files record.place) = false := by
      intro m hm
      rw [hm.files]
      rcases restored_cases q s.containerUid s.files done record.place with hp | ⟨x, _, _, hp⟩
      · rw [hp]; exact h.link record (by simp)
      · rw [hp]; exact node_isLink x _
    have hrest : Restorable s q records :=
      ⟨fun x hx => h.held x (by simp [hx]), fun x hx => h.config x (by simp [hx]),
        fun x hx => h.link x (by simp [hx])⟩
    rw [hsplit, List.length_cons, Nat.succ_mul, Nat.add_comm]
    exact Within.bind (restoreRecord_within hG hq (h.held record (by simp))
      (h.config record (by simp)) hlink) (fun _ => ih hrest)

/-- Restoring a record sets files and nothing else. -/
theorem restoreRecord_keeps {I : Machine → Prop}
    (hI : ∀ m place node, I m → I (m.setNode place node)) :
    Keeps I (restoreRecord id phase record) := by
  have hcopy : Keeps I (readCopy id record) := by
    unfold readCopy
    refine Triple.bind (Triple.read (Q := fun _ => I) (fun _ h => h)) (fun m₀ => ?_)
    cases (m₀.previous id).bind (·.copies record.index) with
    | none => exact Triple.raise (fun _ h => h)
    | some bytes => exact Triple.pure' (fun _ h => h)
  have hmeta : ∀ m place f, I m → I (m.setMeta place f) := by
    intro m place f h
    unfold Machine.setMeta
    split
    · exact hI m _ _ h
    · exact h
  unfold restoreRecord
  refine Triple.ite (fun _ => Triple.pure' (fun _ h => h)) (fun _ => ?_)
  refine Triple.bind (Triple.read (Q := fun _ => I) (fun _ h => h)) (fun _ => ?_)
  refine Triple.bind require_keeps (fun _ => Triple.ite (fun _ => ?_) (fun _ => ?_))
  · unfold restoreConfig
    cases record.saved with
    | none => exact asHermes_keeps (fun _ m h _ => hI m _ _ h)
    | some info => exact Triple.bind hcopy (fun _ => asHermes_keeps (fun _ m h _ => hI m _ _ h))
  · unfold restoreFile
    cases record.saved with
    | none => exact atomic_keeps (fun _ m h => hI m _ _ h)
    | some info =>
      refine Triple.bind hcopy (fun _ => Triple.bind (atomic_keeps (fun _ m h => hI m _ _ h)) ?_)
      exact fun _ => Triple.bind (atomic_keeps (fun _ m h => hmeta m _ _ h))
        (fun _ => atomic_keeps (fun _ m h => hmeta m _ _ h))

theorem restoreAll_within (hG : ∀ x, G x → x.verdict = .done) (hq : s.previous id = some q)
    (hc : q.complete = true) (hr : q.records = some records) (h : Restorable s q records) :
    Completes G (1 + records.length * 3) (fun m => m = s) (restoreAll id phase)
      (fun _ m => Restored s q (restorable phase records) m ∧
        ((s.active = true → s.serving = true) → m.active = false)) := by
  unfold restoreAll
  refine Within.bind_sub (a := 0) (Within.read (Q := fun m₀ m => m₀ = s ∧ m = s) (fun _ h => ⟨h, h⟩))
    (fun m₀ => Within.given (fun _ h => h.1) (fun hm₀ => ?_)) (by omega)
  rw [hm₀]
  refine Within.bind_sub (a := 0) (require_within (Q := fun _ m => m = s)
    (fun _ _ => by simp [hq, hc]) (fun _ h => h.2)) (fun _ => ?_) (by omega)
  refine Within.bind_sub (((quiesce_within hG).and_triple ((quiesce_triple s).pre
    (fun m (h : m = s) => by rw [h]; exact ⟨Restoring.refl s, rfl⟩))).mono (fun _ h => h)
    (fun _ _ h => h) (fun _ _ h => h.1)) (fun _ => ?_) (by omega)
  refine Within.start (fun s' ⟨hidle, hframe, hfiles⟩ => ?_)
  have hprev : s'.previous id = some q := by rw [hframe.previous]; exact hq
  unfold readRecords
  refine Within.bind_sub (a := 0) (Q := fun rs m => rs = records ∧ m = s') ?_ (fun rs =>
    Within.given (fun _ h => h.1) (fun hrs => ?_)) (by omega)
  · refine Within.bind_sub (a := 0) (Within.read (Q := fun m₁ m => m₁ = s' ∧ m = s')
      (fun _ h => ⟨h, h⟩)) (fun m₁ => Within.given (fun _ h => h.1) (fun hm₁ => ?_)) (by omega)
    rw [hm₁, hprev, Option.bind_some, hr]
    exact Within.pure' (fun _ h => ⟨rfl, h.2⟩)
  rw [hrs]
  have hstart : Restored s q [] s' := ⟨hframe, hfiles, by simp, by simp⟩
  have hrun : Completes G (records.length * 3) (Restored s q [])
      (Proc.forEach records (restoreRecord id phase)) _ := restoreRecords_within hG hq h
  have hstop : Keeps (fun m : Machine => (s.active = true → s.serving = true) → m.active = false)
      (Proc.forEach records (restoreRecord id phase)) :=
    Keeps.forEach records (fun _ _ => restoreRecord_keeps (fun _ _ _ h => h))
  have hboth := (hrun.pre (fun m (h : m = s') => by rw [h]; exact hstart)).and_triple
    (hstop.pre (fun m (h : m = s') => by rw [h]; exact hidle))
  refine Within.budget (n := records.length * 3) (hboth.mono (fun _ h => h.2) ?_
    (fun _ _ h => h.1)) (by omega)
  exact fun _ m h => ⟨by simpa using h.1, h.2⟩

/-- The application is up with the user manager of the account. -/
theorem healthy_within {image : String} (hG : ∀ x, G x → x.verdict = .done)
    (himage : ∀ x, G x → x.inspection.healthy = true ∧ x.inspection.readonlyRootfs = true ∧
      x.inspection.publishedPorts = false ∧ x.inspection.privileged = false ∧
      x.inspection.imageName = image) :
    Completes G 1 (fun m => m.serving = true) (healthy image) (fun _ m => m.serving = true) := by
  unfold healthy
  refine Within.bind_sub (a := 1) (Q := fun x m => (x.healthy = true ∧ x.readonlyRootfs = true ∧
    x.publishedPorts = false ∧ x.privileged = false ∧ x.imageName = image) ∧ m.serving = true)
    (asHermes_within hG (fun x m hx h _ _ => ⟨himage x hx, h⟩) ?_ ?_) (fun x => ?_) (by omega)
  · intro m h hno
    simp only [Machine.serving, Bool.and_eq_true] at h
    rw [h.2] at hno
    cases hno
  · intro m h hno
    simp only [Machine.serving, Bool.and_eq_true] at h
    rw [h.1.1] at hno
    cases hno
  refine Within.given (fun _ h => h.1) (fun ⟨h₁, h₂, h₃, h₄, h₅⟩ => ?_)
  have hpass : ∀ {c : Bool} {reason : String}, c = true →
      Completes G 0 (fun m : Machine => m.serving = true) (require c reason)
        (fun _ m => m.serving = true) :=
    fun hc => require_within (fun _ _ => hc) (fun _ h => h)
  refine Within.bind_sub ((hpass h₁).pre (fun _ h => h.2)) (fun _ => ?_) (by omega)
  refine Within.bind_sub (hpass (by simp [h₅])) (fun _ => ?_) (by omega)
  refine Within.bind_sub (hpass h₂) (fun _ => Within.bind_sub (hpass (by simp [h₃])) (fun _ => ?_)
    (by omega)) (by omega)
  exact hpass (by simp [h₄])

theorem waitHealth_within {image : String} (hG : ∀ x, G x → x.verdict = .done)
    (himage : ∀ x, G x → x.inspection.healthy = true ∧ x.inspection.readonlyRootfs = true ∧
      x.inspection.publishedPorts = false ∧ x.inspection.privileged = false ∧
      x.inspection.imageName = image) :
    Completes G 1 (fun m => m.serving = true) (waitHealth image) (fun _ m => m.serving = true) := by
  unfold waitHealth waitHealthFor
  exact Within.handle (b := 0) (healthy_within hG himage) (fun _ => fun _ _ _ _ h => h.elim)

theorem previousImage_within {image : String} {n : Nat} (himage : s.quadletImage = some image) :
    Completes G n (fun m => m.serving = true ∧ m.account = s.account ∧ m.files = s.files)
      previousImage (fun i m => i = image ∧ m.serving = true) := by
  obtain ⟨account, haccount, content, hcontent, hunit⟩ : ∃ account, s.account = some account ∧
      ∃ content, Node.bytes? (s.files (.unit account.uid)) = some (.text content) ∧
        unitImage content = some image := by
    unfold Machine.quadletImage Machine.quadlet at himage
    cases ha : s.account with
    | none => simp [ha, Node.bytes?] at himage
    | some account =>
      rw [ha, Option.bind_some] at himage
      split at himage
      · next content hcontent => exact ⟨account, rfl, content, hcontent, himage⟩
      · cases himage
  unfold previousImage accountEntry
  refine Within.bind_sub (a := 0) (Q := fun a m => a = account ∧ m.serving = true ∧ m.files = s.files)
    ?_ (fun a => ?_) (by omega)
  · refine Within.bind_sub (a := 0) (Within.read (Q := fun m₀ m => m₀ = m ∧ (m.serving = true ∧
      m.account = s.account ∧ m.files = s.files)) (fun _ h => ⟨rfl, h⟩)) (fun m₀ => ?_) (by omega)
    refine Within.given (φ := m₀.account = some account)
      (fun m h => by rw [h.1, h.2.2.1, haccount]) (fun ha => ?_)
    rw [ha]
    exact Within.pure' (fun _ h => ⟨rfl, h.2.1, h.2.2.2⟩)
  · refine Within.given (fun _ h => h.1) (fun ha => ?_)
    rw [ha]
    refine Within.bind_sub (a := 0) (Within.read (Q := fun m₀ m => m₀ = m ∧ m.serving = true ∧
      m.files = s.files) (fun _ h => ⟨rfl, h.2⟩)) (fun m₀ => ?_) (by omega)
    refine Within.given (φ := Node.bytes? (m₀.files (.unit account.uid)) = some (.text content))
      (fun m h => by rw [h.1, h.2.2, hcontent]) (fun hb => ?_)
    rw [hb]
    simp only [hunit]
    exact Within.pure' (fun _ h => ⟨rfl, h.2.1⟩)

/-- The restart succeeds on a host that is restartable. -/
theorem restartAfter_within {active : Bool} (hG : ∀ x, G x → x.verdict = .done)
    (himage : ∀ x image, G x → s.quadletImage = some image → x.inspection.healthy = true ∧
      x.inspection.readonlyRootfs = true ∧ x.inspection.publishedPorts = false ∧
      x.inspection.privileged = false ∧ x.inspection.imageName = image)
    (h : Restartable active s) :
    Completes G 6 (fun m => m = s) (restartAfter active)
      (fun recovered m => recovered = true ∧ (active = true → m.serving = true) ∧
        (active = false → s.active = false → m.active = false)) := by
  obtain ⟨haccount, hmanager, hactive⟩ := h
  unfold restartAfter
  refine Within.handle (a := 6) (b := 0) (E := fun _ _ => False) ?_
    (fun _ => fun _ _ _ _ hf => hf.elim)
  refine Within.bind_sub (a := 6) (Q := fun _ m => (active = true → m.serving = true) ∧
    (active = false → s.active = false → m.active = false)) ?_
    (fun _ => Within.pure' (fun _ hm => ⟨rfl, hm⟩)) (by omega)
  unfold restartRestored
  refine Within.bind_sub (a := 1) (Q := fun _ m => m = s) (run_within hG (fun _ _ _ hm _ => hm)
    (fun _ _ hno => by cases hno)) (fun _ => ?_) (by omega)
  refine Within.bind_sub (a := 0) (Within.read (Q := fun m₀ m => m₀ = s ∧ m = s)
    (fun _ hm => ⟨hm, hm⟩)) (fun m₀ => Within.given (fun _ hm => hm.1) (fun hm₀ => ?_)) (by omega)
  rw [hm₀]
  -- the user manager is up from here on
  have hup : Completes G 2 (fun m => m = s) (onlyIf
      ((s.files .credential).isSome && (s.files .credentialsService).isSome) (do
        restartCredentials
        let _ ← accountEntry
        startManager))
      (fun _ m => m.userManager = true ∧ (s.active = false → m.active = false)) := by
    refine Within.ite (fun _ => ?_) (fun hc => Within.pure' (fun m hm => ?_))
    · refine Within.bind_sub (a := 1) (Q := fun _ m => m.account.isSome ∧
        (s.active = false → m.active = false)) (run_within hG ?_ ?_) (fun _ => ?_) (by omega)
      · intro _ m _ hm _
        rw [hm]
        cases ha : s.account with
        | none => rw [ha] at haccount; cases haccount
        | some account =>
          dsimp only
          split
          · exact ⟨rfl, fun _ => rfl⟩
          · exact ⟨by rw [ha]; rfl, id⟩
      · intro m hm hno
        rw [hm, haccount] at hno
        cases hno
      refine Within.bind_sub (a := 0) (Q := fun _ m => m.account.isSome ∧
        (s.active = false → m.active = false)) ?_ (fun _ => run_within hG ?_ ?_) (by omega)
      · unfold accountEntry
        refine Within.bind_sub (a := 0) (Within.read (Q := fun m₀ m => m₀ = m ∧ m.account.isSome ∧
          (s.active = false → m.active = false)) (fun _ hm => ⟨rfl, hm⟩)) (fun m₀ => ?_) (by omega)
        cases ha : m₀.account with
        | none =>
          refine Within.raise (fun m hm => ?_)
          rw [← hm.1, ha] at hm
          cases hm.2.1
        | some account => exact Within.pure' (fun _ hm => hm.2)
      · exact fun _ _ _ hm _ => ⟨rfl, hm.2⟩
      · intro m hm hno
        rw [hm.1] at hno
        cases hno
    · rw [hm]
      refine ⟨?_, id⟩
      rcases hmanager with hm | ⟨h₁, h₂⟩
      · exact hm
      · exact absurd (by rw [h₁, h₂]; rfl) hc
  have hblock : Services (onlyIf
      ((s.files .credential).isSome && (s.files .credentialsService).isSome) (do
        restartCredentials
        let _ ← accountEntry
        startManager)) := stays_onlyIf (Stays.bind services_restartCredentials
    (fun _ => Stays.bind services_accountEntry (fun _ => services_startManager)))
  refine Within.bind_sub (a := 2) ((hup.and_triple ((hblock s).pre
    (fun m (hm : m = s) => by rw [hm]; exact Serviced.refl s))).mono (fun _ hm => hm.2)
    (fun _ _ hm => hm) (fun _ _ hm => hm.1)) (fun _ => ?_) (by omega)
  have hsome : ∀ m, Serviced s m → m.account.isSome := by
    rintro m ⟨a, u, hm⟩
    rw [hm]
    exact haccount
  refine Within.bind_sub (a := 1) (Q := fun _ m => (m.userManager = true ∧
    (s.active = false → m.active = false)) ∧ Serviced s m)
    (asHermes_within hG (fun _ _ _ hm _ _ => hm) ?_ ?_) (fun _ => ?_) (by omega)
  · intro m hm hno
    rw [hm.1.1] at hno
    cases hno
  · intro m hm hno
    rw [hsome m hm.2] at hno
    cases hno
  refine Within.ite (fun hact => ?_) (fun hidle => Within.pure' (fun m hm => ?_))
  · obtain ⟨image, hi⟩ := Option.isSome_iff_exists.mp (hactive hact)
    have hloaded : ∀ m, Serviced s m → m.unitLoaded = true := by
      rintro m ⟨a, u, hm⟩
      have hunit : s.quadlet.isSome := by
        cases hq : s.quadlet with
        | none => simp [Machine.quadletImage, hq, Node.bytes?] at hi
        | some _ => rfl
      rw [hm]
      simp only [Machine.unitLoaded, Bool.or_eq_true]
      exact .inr hunit
    refine Within.bind_sub (a := 1) (Q := fun _ m => m.serving = true ∧ m.account = s.account ∧
      m.files = s.files) (asHermes_within hG ?_ ?_ ?_) (fun _ => ?_) (by omega)
    · rintro _ m _ ⟨⟨hu, _⟩, a, u, hm⟩ ha _
      refine ⟨by simp [Machine.serving, ha, hu], by rw [hm], by rw [hm]⟩
    · rintro m ⟨⟨hu, _⟩, hs⟩ hno
      simp only [hu, Bool.true_and] at hno
      rw [hloaded m hs] at hno
      cases hno
    · intro m hm hno
      rw [hsome m hm.2] at hno
      cases hno
    refine Within.bind_sub (a := 0) (previousImage_within hi) (fun i => ?_) (by omega)
    refine Within.given (fun _ hm => hm.1) (fun hi' => ?_)
    rw [hi']
    refine ((waitHealth_within hG (fun x hx => himage x image hx hi)).mono (fun _ hm => hm.2)
      (fun _ _ hm => ⟨fun _ => hm, fun hf => ?_⟩) (fun _ _ hf => hf)).budget (by omega)
    rw [hact] at hf
    cases hf
  · exact ⟨fun hact => absurd hact hidle, fun _ => hm.1.2⟩

theorem save_within {r : Release} {phase : Phase} {values : Journal → Journal}
    {I : Machine → Prop} (hG : ∀ x, G x → x.verdict = .done)
    (hI : ∀ m j e, I m → I ((m.setJournal r.id j).mark e)) :
    Completes G 1 (fun x => I x.host) (save r phase values)
      (fun reply x => I x.host ∧ reply = { stage := phase }) := by
  unfold save
  refine Within.bind_sub (a := 0) (Within.update (Q := fun _ x => I x.host) (fun _ h => h))
    (fun _ => ?_) (by omega)
  refine Within.bind_sub (a := 1) (Q := fun _ x => I x.host)
    (atomic_within hG (fun _ x _ h => hI x.host _ _ h)) (fun _ => ?_) (by omega)
  exact Within.pure' (fun _ h => ⟨h, rfl⟩)

/-- The rollback gets through where the records can be restored and the service restarted,
    and leaves the service as the journal says it was. -/
theorem rollback_within {r : Release} (hG : ∀ x, G x → x.verdict = .done)
    (hq : s.previous r.id = some q) (hc : q.complete = true) (hr : q.records = some records)
    (h : Restorable s q records) {files : Place → Option Node}
    (hfiles : files = restored q s.containerUid s.files
      (restorable (s.journalOf r.id).phase records))
    (himage : ∀ x image, G x → ({ s with files := files } : Machine).quadletImage = some image →
      x.inspection.healthy = true ∧ x.inspection.readonlyRootfs = true ∧
        x.inspection.publishedPorts = false ∧ x.inspection.privileged = false ∧
        x.inspection.imageName = image)
    (hrestart : Restartable ((s.journalOf r.id).previousActive.getD false)
      { s with files := files }) :
    Completes G (records.length * 3 + 8) (fun m => m = s) (invoke r .rollback)
      (fun reply m => reply = { stage := .rolledBack } ∧
        ((s.journalOf r.id).previousActive = some true → m.serving = true) ∧
        ((s.journalOf r.id).previousActive ≠ some true → (s.active = true → s.serving = true) →
          m.serving = false)) := by
  have hmain : Completes G (records.length * 3 + 8) (fun x => x = ⟨s, s.journalOf r.id⟩)
      (rollback r) (fun reply x => reply = { stage := .rolledBack } ∧
        ((s.journalOf r.id).previousActive = some true → x.host.serving = true) ∧
        ((s.journalOf r.id).previousActive ≠ some true → (s.active = true → s.serving = true) →
          x.host.serving = false)) := by
    unfold rollback
    refine Within.bind_sub (a := 0) (Within.read (Q := fun x₀ x => x₀ = ⟨s, s.journalOf r.id⟩ ∧
      x = ⟨s, s.journalOf r.id⟩) (fun _ h => ⟨h, h⟩))
      (fun x₀ => Within.given (fun _ h => h.1) (fun hx₀ => ?_)) (by omega)
    rw [hx₀]
    have hall : Completes G (1 + records.length * 3) (fun m => m = s)
        (restoreAll r.id (s.journalOf r.id).phase) _ := restoreAll_within hG hq hc hr h
    refine Within.bind_sub (a := 1 + records.length * 3) (Q := fun _ x =>
      Restored s q (restorable (s.journalOf r.id).phase records) x.host ∧
        ((s.active = true → s.serving = true) → x.host.active = false)) ?_ (fun _ => ?_) (by omega)
    · exact Within.zoom ⟨s, s.journalOf r.id⟩ hall (fun x hx => ⟨hx.2, by rw [hx.2]⟩)
        (fun _ _ hm => hm) (fun _ _ hm => hm)
    refine Within.start (fun x ⟨hrestored, hidle⟩ => ?_)
    have hhost : x.host = { s with files := files, active := x.host.active } := by
      obtain ⟨f, a, hm⟩ := hrestored.frame
      have hf : f = files := by
        rw [hfiles, ← hrestored.files, hm]
      rw [hm, hf]
    have hagain : Completes G 6 (fun m => m = x.host)
        (restartAfter ((s.journalOf r.id).previousActive.getD false)) _ :=
      restartAfter_within hG (s := x.host)
        (fun y image hy hi => himage y image hy (by rw [hhost] at hi; exact hi))
        (by rw [hhost]; exact hrestart)
    refine Within.bind_sub (a := 6) (Q := fun recovered y => recovered = true ∧
      ((s.journalOf r.id).previousActive = some true → y.host.serving = true) ∧
      ((s.journalOf r.id).previousActive ≠ some true → (s.active = true → s.serving = true) →
        y.host.serving = false)) ?_ (fun recovered => ?_) (by omega)
    · refine Within.zoom x hagain (fun y hy => ⟨hy, by rw [hy]⟩) ?_ (fun _ _ hm => hm)
      rintro recovered m ⟨hrec, hon, hoff⟩
      refine ⟨hrec, fun hp => hon (by rw [hp]; rfl), fun hp hs => ?_⟩
      have hfalse : (s.journalOf r.id).previousActive.getD false = false := by
        cases hv : (s.journalOf r.id).previousActive with
        | none => rfl
        | some b =>
          cases b with
          | false => rfl
          | true => exact absurd hv hp
      have hactive : m.active = false := hoff hfalse (hidle hs)
      simp [Machine.serving, hactive]
    refine Within.given (fun _ hy => hy.1) (fun hrec => ?_)
    rw [hrec, if_pos rfl]
    have hsave : Completes G 1 (fun y : Session =>
        ((s.journalOf r.id).previousActive = some true → y.host.serving = true) ∧
        ((s.journalOf r.id).previousActive ≠ some true → (s.active = true → s.serving = true) →
          y.host.serving = false)) (save r .rolledBack) _ :=
      save_within (I := fun m : Machine =>
        ((s.journalOf r.id).previousActive = some true → m.serving = true) ∧
        ((s.journalOf r.id).previousActive ≠ some true → (s.active = true → s.serving = true) →
          m.serving = false))
        hG (fun _ _ _ hm => hm)
    exact (hsave.mono (fun _ hy => hy.2) (fun _ _ hy => ⟨hy.2, hy.1⟩)
      (fun _ _ hf => hf)).budget (by omega)
  unfold invoke runHost
  refine Within.bind_sub (a := 0) (Within.read (Q := fun m₀ m => m₀ = s ∧ m = s) (fun _ h => ⟨h, h⟩))
    (fun m₀ => Within.given (fun _ h => h.1) (fun hm₀ => ?_)) (by omega)
  rw [hm₀]
  exact Within.zoom s hmain (fun m h => ⟨h.2, by rw [h.2]⟩) (fun _ _ h => h) (fun _ _ h => h)

end Good

/-! When recovery is possible. -/

/-- The rollback that runs under `t` on `s` brings the host back to `s₀`: it answers
    `rolled-back`, every captured file is as it was, and so is an active application. -/
structure Recovered (r : Release) (s₀ s : Machine) (t : List Moment) : Prop where
  answer : (invoke r .rollback).result t s = .ok { stage := .rolledBack }
  phase : (((invoke r .rollback).after t s).journalOf r.id).phase = .rolledBack
  files : ∀ p ∈ capturedPlaces s₀.account, ((invoke r .rollback).after t s).files p = s₀.files p
  serving : s₀.serving = true → ((invoke r .rollback).after t s).serving = true

/-- The host `s`, on which a release started from `s₀`, can be brought back. -/
structure Recoverable (r : Release) (s₀ s : Machine) : Prop where
  complete : (s.previous r.id).any (·.complete) = true
  dataDir : s₀.dataDir = true
  restart : Restartable ((s.journalOf r.id).previousActive.getD false) s₀
  noticed : s₀.serving = true → (s.journalOf r.id).previousActive = some true
  owner : ∀ bytes info, s₀.files .config = some (.file bytes info) →
    info = .container s₀.containerUid

section Recovery

variable {r : Release} {s₀ s : Machine} {q : Previous} {records : List FileRecord}

theorem restorable_open {phase : Phase} (h : phase ≠ .closed) (records : List FileRecord) :
    restorable phase records = records := by
  simp [restorable, h]

/-- A record of `s₀` stands for the file of `s₀`, `config.yaml` with its owner. -/
theorem Kept.node {record : FileRecord} (h : Kept s₀ q record) (uid : Nat) :
    (record.place ≠ .config → record.node q uid = s₀.files record.place) ∧
      (record.place = .config → (record.node q uid = s₀.files .config ↔
        ∀ bytes info, s₀.files .config = some (.file bytes info) → info = .container uid)) := by
  unfold Kept at h
  split at h
  · next hf hs =>
    refine ⟨fun _ => by simp [FileRecord.node, hs, hf], fun hp => ?_⟩
    rw [hp] at hf
    simp [FileRecord.node, hs, hf]
  · next bytes info saved hf hs =>
    obtain ⟨hinfo, hcopy⟩ := h
    refine ⟨fun hp => by simp [FileRecord.node, hs, hf, hcopy, hp, hinfo], fun hp => ?_⟩
    rw [hp] at hf
    simp only [FileRecord.node, hs, hcopy, hp, hf, Option.bind_some, Option.map_some, if_true,
      Option.some.injEq, Node.file.injEq, true_and]
    constructor
    · intro heq b i hi
      rw [← hi.2, heq]
    · intro howned
      exact (howned bytes info ⟨rfl, rfl⟩).symm
  · exact h.elim

/-- What the complete backup of a waiting release restores. -/
theorem Waiting.restores_files (h : Waiting r s₀ s) (hplaces : records.map (·.place) =
    capturedPlaces s₀.account) (hkept : ∀ record ∈ records, Kept s₀ q record) :
    (∀ p, p ≠ .config → restored q s.containerUid s.files records p = s₀.files p) ∧
      (restored q s.containerUid s.files records .config = s₀.files .config ↔
        ∀ bytes info, s₀.files .config = some (.file bytes info) →
          info = .container s₀.containerUid) := by
  have hnodup : (records.map (·.place)).Nodup := by
    rw [hplaces]
    exact capturedPlaces_nodup _
  have hmem : ∀ p ∈ capturedPlaces s₀.account, ∃ record ∈ records, record.place = p := by
    intro p hp
    rw [← hplaces] at hp
    exact List.mem_map.mp hp
  refine ⟨fun p hp => ?_, ?_⟩
  · by_cases hin : ∃ record ∈ records, record.place = p
    · obtain ⟨record, hx, rfl⟩ := hin
      rw [restored_same q s.containerUid hnodup hx]
      exact ((hkept record hx).node s.containerUid).1 hp
    · have hout : ∀ record ∈ records, record.place ≠ p := fun x hx heq => hin ⟨x, hx, heq⟩
      rw [restored_other q s.containerUid hout]
      refine h.files p (fun heq => hin ?_)
      rw [heq]
      exact hmem _ (by simp [capturedPlaces])
  · obtain ⟨record, hx, hp⟩ := hmem .config (by simp [capturedPlaces])
    have hsame : restored q s.containerUid s.files records record.place = _ :=
      restored_same q s.containerUid hnodup hx
    rw [hp] at hsame
    rw [hsame, ← h.containerUid]
    exact ((hkept record hx).node s.containerUid).2 hp

/-- The records of the backup can be restored as soon as account and data directory exist. -/
theorem Waiting.can_restore (h : Waiting r s₀ s) (hkept : ∀ record ∈ records, Kept s₀ q record)
    (haccount : s₀.account.isSome) (hdata : s₀.dataDir = true) : Restorable s q records where
  held := by
    intro record hx
    have hk := hkept record hx
    unfold Kept at hk
    intro hsome
    split at hk
    · next hs => rw [hs] at hsome; cases hsome
    · rw [hk.2]; rfl
    · exact hk.elim
  config := fun _ _ _ => by rw [h.account, h.dataDir]; exact ⟨haccount, hdata⟩
  link := by
    intro record hx
    have hlink : Node.isLink (s₀.files record.place) = false := by
      have hk := hkept record hx
      unfold Kept at hk
      split at hk
      · next hf _ => rw [hf]; rfl
      · next hf _ => rw [hf]; rfl
      · exact hk.elim
    by_cases hp : record.place = .credential
    · rw [hp] at hlink ⊢
      rcases h.credential with hc | ⟨_, bytes, info, hc⟩
      · rw [hc]; exact hlink
      · rw [hc]; rfl
    · rw [h.files _ hp]; exact hlink

theorem quadlet_congr {m m' : Machine} (ha : m.account = m'.account)
    (hf : ∀ p, p ≠ .config → m.files p = m'.files p) : m.quadlet = m'.quadlet := by
  unfold Machine.quadlet
  rw [ha]
  cases m'.account with
  | none => rfl
  | some account => exact hf _ (by simp)

theorem restartable_congr {active : Bool} {m m' : Machine} (ha : m.account = m'.account)
    (hu : m.userManager = m'.userManager) (hf : ∀ p, p ≠ .config → m.files p = m'.files p) :
    Restartable active m ↔ Restartable active m' := by
  unfold Restartable Machine.quadletImage
  rw [ha, hu, hf .credential (by simp), hf .credentialsService (by simp), quadlet_congr ha hf]

/-- A good rollback of a waiting release whose backup is complete, on a host where the
    service can be restarted. -/
theorem Waiting.rollback (h : Waiting r s₀ s) (hq : s.previous r.id = some q)
    (hc : q.complete = true) (hr : q.records = some records)
    (hplaces : records.map (·.place) = capturedPlaces s₀.account)
    (hkept : ∀ record ∈ records, Kept s₀ q record) (hdata : s₀.dataDir = true)
    (hrestart : Restartable ((s.journalOf r.id).previousActive.getD false) s₀)
    (hopen : (s.journalOf r.id).phase ≠ .closed) {t : List Moment}
    (hgood : ∀ x ∈ t, Cooperates s₀ x) (hlength : 20 ≤ t.length) :
    (invoke r .rollback).result t s = .ok { stage := .rolledBack } ∧
      ((s.journalOf r.id).previousActive = some true →
        ((invoke r .rollback).after t s).serving = true) ∧
      ((s.journalOf r.id).previousActive ≠ some true → (s.active = true → s.serving = true) →
        ((invoke r .rollback).after t s).serving = false) := by
  have hfiles := (h.restores_files hplaces hkept).1
  have hlen : records.length = 4 := by
    have hmap := congrArg List.length hplaces
    obtain ⟨account, ha⟩ := Option.isSome_iff_exists.mp hrestart.1
    simpa [capturedPlaces, ha] using hmap
  have hf : restored q s.containerUid s.files records =
      restored q s.containerUid s.files (restorable (s.journalOf r.id).phase records) := by
    rw [restorable_open hopen]
  have hcomplete := rollback_within (G := Cooperates s₀) (fun x hx => hx.1) hq hc hr
    (h.can_restore hkept hrestart.1 hdata) hf ?_
    ((restartable_congr (by exact h.account) (by exact h.userManager) (by exact hfiles)).mpr hrestart)
  · obtain ⟨reply, hres, hreply, hon, hoff⟩ := hcomplete.returns (t := t) (s := s)
      ⟨hgood, by rw [hlen]; exact hlength⟩ rfl
    exact ⟨by rw [hres, hreply], hon, hoff⟩
  · rintro x image ⟨_, h₁, h₂, h₃, h₄, h₅⟩ hi
    refine ⟨h₁, h₂, h₃, h₄, h₅ image ?_⟩
    have hquadlet : ({ s with files := restored q s.containerUid s.files records } : Machine).quadlet =
        s₀.quadlet := quadlet_congr (by exact h.account) (by exact hfiles)
    unfold Machine.quadletImage at hi ⊢
    rwa [hquadlet] at hi

end Recovery

/-- A host without the hermes account. -/
def bareMachine : Machine :=
  { sampleMachine with account := none, dataDir := false, userManager := false, files := fun _ => none }

theorem goodScript_cooperates {s : Machine} (h : s.quadletImage = none) (n : Nat) :
    ∀ x ∈ goodScript n, Cooperates s x := by
  intro x hx
  rw [List.eq_of_mem_replicate hx]
  exact ⟨rfl, rfl, rfl, rfl, rfl, fun image hi => by rw [h] at hi; cases hi⟩

end Hermes

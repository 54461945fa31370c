import Hermes.HostSafety

/- What a rollback does to the files of the host, and to its credential.

   A rollback replays the records of the backup one by one. Wherever it stops,
   every path is as it was or has the content of a record; where it gets
   through, the paths are what the records make of them (`restored`). The
   credential is exempt while the journal says `closed`, and only then. -/
namespace Hermes
open Process

variable {α : Type}

/-! The files that the records of a backup stand for. -/

/-- `m` is `s` but for its files and whether the service runs. -/
def Restoring (s m : Machine) : Prop := ∃ files active, m = { s with
  files := files
  active := active }

namespace Restoring

variable {s m m' : Machine}

theorem refl (s : Machine) : Restoring s s := ⟨s.files, s.active, rfl⟩

theorem trans (h : Restoring s m) (h' : Restoring m m') : Restoring s m' := by
  obtain ⟨f, a, rfl⟩ := h
  obtain ⟨f', a', rfl⟩ := h'
  exact ⟨f', a', rfl⟩

theorem setNode (s : Machine) (place : Place) (node : Option Node) :
    Restoring s (s.setNode place node) := ⟨_, s.active, rfl⟩

theorem previous (h : Restoring s m) : m.previous = s.previous := by
  obtain ⟨_, _, rfl⟩ := h; rfl

theorem account (h : Restoring s m) : m.account = s.account := by
  obtain ⟨_, _, rfl⟩ := h; rfl

theorem dataDir (h : Restoring s m) : m.dataDir = s.dataDir := by
  obtain ⟨_, _, rfl⟩ := h; rfl

theorem containerUid (h : Restoring s m) : m.containerUid = s.containerUid := by
  obtain ⟨_, _, rfl⟩ := h; rfl

theorem userManager (h : Restoring s m) : m.userManager = s.userManager := by
  obtain ⟨_, _, rfl⟩ := h; rfl

end Restoring

/-- The file that a record stands for. The container's user owns `config.yaml`. -/
def FileRecord.node (q : Previous) (containerUid : Nat) (record : FileRecord) : Option Node :=
  record.saved.bind fun info => (q.copies record.index).map fun bytes =>
    .file bytes (if record.place = .config then .container containerUid else info)

/-- A record of a file has its copy. -/
def FileRecord.held (q : Previous) (record : FileRecord) : Prop :=
  record.saved.isSome → (q.copies record.index).isSome

/-- The files after the records of `done` were restored in order. -/
def restored (q : Previous) (containerUid : Nat) (files : Place → Option Node) :
    List FileRecord → Place → Option Node
  | [] => files
  | record :: done => restored q containerUid
      (fun p => if p = record.place then record.node q containerUid else files p) done

/-- The records that a rollback in the phase `phase` restores. -/
def restorable (phase : Phase) (records : List FileRecord) : List FileRecord :=
  records.filter fun record => !(record.place = .credential && phase = .closed)

theorem restored_append (q : Previous) (uid : Nat) (files : Place → Option Node)
    (done done' : List FileRecord) :
    restored q uid files (done ++ done') = restored q uid (restored q uid files done) done' := by
  induction done generalizing files with
  | nil => rfl
  | cons record done ih => exact ih _

theorem restored_other (q : Previous) (uid : Nat) {files : Place → Option Node} {p : Place}
    {done : List FileRecord} (h : ∀ record ∈ done, record.place ≠ p) :
    restored q uid files done p = files p := by
  induction done generalizing files with
  | nil => rfl
  | cons record done ih =>
    have hp : p ≠ record.place := fun hp => h record (by simp) hp.symm
    rw [restored, ih (fun x hx => h x (by simp [hx])), if_neg hp]

theorem restored_same (q : Previous) (uid : Nat) {files : Place → Option Node}
    {record : FileRecord} {done : List FileRecord} (hnodup : (done.map (·.place)).Nodup)
    (h : record ∈ done) : restored q uid files done record.place = record.node q uid := by
  induction done generalizing files with
  | nil => simp at h
  | cons x done ih =>
    rw [List.map_cons, List.nodup_cons] at hnodup
    rcases List.mem_cons.mp h with rfl | h
    · have hout : ∀ y ∈ done, y.place ≠ record.place :=
        fun y hy heq => hnodup.1 (heq ▸ List.mem_map_of_mem hy)
      rw [restored, restored_other q uid hout, if_pos rfl]
    · exact ih hnodup.2 h

theorem restored_cases (q : Previous) (uid : Nat) (files : Place → Option Node)
    (done : List FileRecord) (p : Place) : restored q uid files done p = files p ∨
      ∃ record ∈ done, record.place = p ∧ restored q uid files done p = record.node q uid := by
  induction done generalizing files with
  | nil => exact .inl rfl
  | cons x done ih =>
    rcases ih (fun p => if p = x.place then x.node q uid else files p) with hp | ⟨y, hy, hyp, hn⟩
    · by_cases hx : p = x.place
      · rw [if_pos hx] at hp
        exact .inr ⟨x, by simp, hx.symm, hp⟩
      · rw [if_neg hx] at hp
        exact .inl hp
    · exact .inr ⟨y, by simp [hy], hyp, hn⟩

/-! Restoring one record, and all of them. -/

/-- The records `done` are restored, from the state `s` with the backup `q`. -/
structure Restored (s : Machine) (q : Previous) (done : List FileRecord) (m : Machine) : Prop where
  frame : Restoring s m
  files : m.files = restored q s.containerUid s.files done
  held : ∀ record ∈ done, record.held q
  config : ∀ record ∈ done, record.place = .config → s.account.isSome ∧ s.dataDir = true

/-- Every path is as in `s`, or has the content of one of the records. -/
structure Partly (s : Machine) (q : Previous) (records : List FileRecord) (m : Machine) : Prop where
  frame : Restoring s m
  files : ∀ p, m.files p = s.files p ∨ ∃ record ∈ records, record.place = p ∧ record.held q ∧
    Node.bytes? (m.files p) = Node.bytes? (record.node q s.containerUid)

section Restore

variable {s m : Machine} {id : ReleaseId} {q : Previous} {phase : Phase}
  {done records : List FileRecord} {record : FileRecord}

theorem Partly.mono (h : Partly s q done m) (hsub : done ⊆ records) : Partly s q records m := by
  refine ⟨h.frame, fun p => ?_⟩
  rcases h.files p with h | ⟨x, hx, hrest⟩
  · exact .inl h
  · exact .inr ⟨x, hsub hx, hrest⟩

theorem Partly.setNode {node : Option Node} (h : Partly s q records m) (hx : record ∈ records)
    (hheld : record.held q)
    (hn : Node.bytes? node = Node.bytes? (record.node q s.containerUid)) :
    Partly s q records (m.setNode record.place node) := by
  refine ⟨h.frame.trans (Restoring.setNode m _ _), fun p => ?_⟩
  by_cases hp : p = record.place
  · subst hp
    exact .inr ⟨record, hx, rfl, hheld, by rw [Machine.setNode_same]; exact hn⟩
  · rw [Machine.setNode_other _ _ _ _ hp]
    exact h.files p

theorem Restored.partly (h : Restored s q done m) : Partly s q done m := by
  refine ⟨h.frame, fun p => ?_⟩
  rw [h.files]
  rcases restored_cases q s.containerUid s.files done p with hp | ⟨x, hx, hxp, hn⟩
  · exact .inl hp
  · exact .inr ⟨x, hx, hxp, h.held x hx, by rw [hn]⟩

theorem Restored.snoc (h : Restored s q done m) (hheld : record.held q)
    (hconfig : record.place = .config → s.account.isSome ∧ s.dataDir = true) :
    Restored s q (done ++ [record])
      (m.setNode record.place (record.node q s.containerUid)) where
  frame := h.frame.trans (Restoring.setNode m _ _)
  files := by
    rw [restored_append, ← h.files]
    rfl
  held := by
    intro x hx
    rcases List.mem_append.mp hx with hx | hx
    · exact h.held x hx
    · rw [List.mem_singleton.mp hx]; exact hheld
  config := by
    intro x hx
    rcases List.mem_append.mp hx with hx | hx
    · exact h.config x hx
    · rw [List.mem_singleton.mp hx]; exact hconfig

theorem setNode_setNode (m : Machine) (place : Place) (node node' : Option Node) :
    (m.setNode place node).setNode place node' = m.setNode place node' := by
  simp only [Machine.setNode, Machine.mk.injEq, and_true, true_and]
  funext p
  by_cases h : p = place
  · rw [if_pos h, if_pos h]
  · rw [if_neg h, if_neg h, if_neg h]

theorem setMeta_setNode (m : Machine) (place : Place) (bytes : Bytes) (info : Meta)
    (f : Meta → Meta) : (m.setNode place (some (.file bytes info))).setMeta place f =
      m.setNode place (some (.file bytes (f info))) := by
  simp only [Machine.setMeta, Machine.setNode_same, setNode_setNode]

theorem restoreConfig_triple (hq : s.previous id = some q) (hplace : record.place = .config) :
    Triple (Restored s q done) (restoreConfig id record)
      (fun _ => Restored s q (done ++ [record]))
      (fun _ => Partly s q (done ++ [record])) := by
  have hprev : ∀ m, Restored s q done m → m.previous id = some q :=
    fun m h => by rw [h.frame.previous]; exact hq
  have hstop : ∀ m, Restored s q done m → Partly s q (done ++ [record]) m :=
    fun m h => h.partly.mono (by simp)
  -- what the helper in the container's user namespace writes
  have hset : ∀ node, record.held q → record.node q s.containerUid = node → ∀ m,
      Restored s q done m → m.account.isSome → m.dataDir = true →
      Restored s q (done ++ [record]) (m.setNode .config node) := by
    intro node hheld hn m h ha hd
    rw [← hplace, ← hn]
    exact h.snoc hheld (fun _ => ⟨h.frame.account ▸ ha, h.frame.dataDir ▸ hd⟩)
  unfold restoreConfig
  cases hs : record.saved with
  | none =>
    have hheld : record.held q := by simp [FileRecord.held, hs]
    have hn : record.node q s.containerUid = none := by simp [FileRecord.node, hs]
    exact asHermes_triple (fun _ m h ha hd => hset none hheld hn m h ha hd) (fun _ => hstop)
      (fun _ _ m h ha hd => (hset none hheld hn m h ha hd).partly)
  | some info =>
    refine Triple.bind ((readCopy_triple hprev).mono (fun _ h => h) (fun _ _ h => h)
      (fun _ m h => hstop m h)) (fun b => Triple.given (fun _ h => h.2) (fun hb => ?_))
    have hheld : record.held q := by simp [FileRecord.held, hb]
    have hn : record.node q s.containerUid = some (.file b (.container s.containerUid)) := by
      simp [FileRecord.node, hs, hb, hplace]
    refine asHermes_triple (fun _ m h ha hd => ?_) (fun _ m h => hstop m h.1)
      (fun _ _ m h ha hd => ?_)
    · rw [h.1.frame.containerUid]
      exact hset _ hheld hn m h.1 ha hd
    · rw [h.1.frame.containerUid]
      exact (hset _ hheld hn m h.1 ha hd).partly

/-- A file restored by root: written, then given its mode and its owner. -/
theorem restoreFile_triple (hq : s.previous id = some q) (hplace : record.place ≠ .config) :
    Triple (Restored s q done) (restoreFile id record)
      (fun _ => Restored s q (done ++ [record]))
      (fun _ => Partly s q (done ++ [record])) := by
  have hprev : ∀ m, Restored s q done m → m.previous id = some q :=
    fun m h => by rw [h.frame.previous]; exact hq
  have hstop : ∀ m, Restored s q done m → Partly s q (done ++ [record]) m :=
    fun m h => h.partly.mono (by simp)
  have hset : ∀ m node, record.held q → record.node q s.containerUid = node →
      Restored s q done m → Restored s q (done ++ [record]) (m.setNode record.place node) := by
    intro m node hheld hn h
    rw [← hn]
    exact h.snoc hheld (fun hp => absurd hp hplace)
  unfold restoreFile
  cases hs : record.saved with
  | none =>
    have hheld : record.held q := by simp [FileRecord.held, hs]
    have hn : record.node q s.containerUid = none := by simp [FileRecord.node, hs]
    exact atomic_triple (fun _ m h => hset m _ hheld hn h) (fun _ => hstop)
      (fun _ _ m h => (hset m _ hheld hn h).partly)
  | some info =>
    refine Triple.bind ((readCopy_triple hprev).mono (fun _ h => h) (fun _ _ h => h)
      (fun _ m h => hstop m h)) (fun b => Triple.given (fun _ h => h.2) (fun hb => ?_))
    have hheld : record.held q := by simp [FileRecord.held, hb]
    have hn : record.node q s.containerUid = some (.file b info) := by
      simp [FileRecord.node, hs, hb, hplace]
    -- the content is there; mode and owner follow
    have hhalf : ∀ m i, Restored s q done m →
        Partly s q (done ++ [record]) (m.setNode record.place (some (.file b i))) :=
      fun m i h => (hstop m h).setNode (by simp) hheld (by rw [hn]; rfl)
    refine Triple.bind (Q := fun _ m => ∃ m₀, Restored s q done m₀ ∧
      m = m₀.setNode record.place (some (.file b .rootPrivate)))
      (atomic_triple (fun _ m h => ⟨m, h.1, rfl⟩) (fun _ m h => hstop m h.1)
        (fun _ _ m h => hhalf m _ h.1)) (fun _ => ?_)
    refine Triple.bind (Q := fun _ m => ∃ m₀, Restored s q done m₀ ∧
      m = m₀.setNode record.place (some (.file b { Meta.rootPrivate with mode := info.mode })))
      (atomic_triple ?_ ?_ ?_) (fun _ => atomic_triple ?_ ?_ ?_)
    · intro _ m ⟨m₀, h, hm⟩
      exact ⟨m₀, h, by rw [hm, setMeta_setNode]⟩
    · intro _ m ⟨m₀, h, hm⟩
      rw [hm]; exact hhalf m₀ _ h
    · intro _ _ m ⟨m₀, h, hm⟩
      rw [hm, setMeta_setNode]; exact hhalf m₀ _ h
    · intro _ m ⟨m₀, h, hm⟩
      rw [hm, setMeta_setNode]; exact hset m₀ _ hheld hn h
    · intro _ m ⟨m₀, h, hm⟩
      rw [hm]; exact hhalf m₀ _ h
    · intro _ _ m ⟨m₀, h, hm⟩
      rw [hm, setMeta_setNode]; exact hhalf m₀ _ h

theorem restoreRecord_triple (hq : s.previous id = some q) :
    Triple (Restored s q done) (restoreRecord id phase record)
      (fun _ => Restored s q (done ++ restorable phase [record]))
      (fun _ => Partly s q (done ++ restorable phase [record])) := by
  unfold restoreRecord
  refine Triple.ite (fun hskip => ?_) (fun hskip => ?_)
  · have hnone : restorable phase [record] = [] := by simp [restorable, hskip]
    rw [hnone, List.append_nil]
    exact Triple.pure' (fun _ h => h)
  · have hone : restorable phase [record] = [record] := by
      simp only [restorable, List.filter_cons, List.filter_nil]
      rw [if_pos (by simpa [Decidable.imp_iff_not_or] using hskip)]
    rw [hone]
    refine Triple.bind (Triple.read (Q := fun _ => Restored s q done) (fun _ h => h)) (fun _ => ?_)
    refine Triple.bind (require_triple (Q := fun _ => Restored s q done) (fun _ _ h => h)
      (fun _ m h => h.partly.mono (by simp))) (fun _ => ?_)
    exact Triple.ite (fun hp => restoreConfig_triple hq hp) (fun hp => restoreFile_triple hq hp)

theorem restoreRecords_triple (hq : s.previous id = some q) (records : List FileRecord) :
    Triple (Restored s q done) (Proc.forEach records (restoreRecord id phase))
      (fun _ => Restored s q (done ++ restorable phase records))
      (fun _ => Partly s q (done ++ restorable phase records)) := by
  induction records generalizing done with
  | nil => exact Triple.pure' (fun m h => by simpa [restorable] using h)
  | cons record records ih =>
    have hsplit : done ++ restorable phase (record :: records) =
        done ++ restorable phase [record] ++ restorable phase records := by
      rw [List.append_assoc]
      simp only [restorable, ← List.filter_append, List.singleton_append]
    rw [hsplit]
    refine Triple.bind ((restoreRecord_triple hq).mono (fun _ h => h) (fun _ _ h => h) ?_)
      (fun _ => ih)
    exact fun _ m h => h.mono (by simp)

/-- `quiesce` stops the service or does nothing. -/
theorem quiesce_triple (s : Machine) :
    Keeps (fun m => Restoring s m ∧ m.files = s.files) quiesce :=
  Triple.handle (asHermes_keeps (fun _ _ h _ => ⟨h.1.trans ⟨_, false, rfl⟩, h.2⟩))
    (fun _ => Triple.ite (fun _ => Triple.pure' (fun _ h => h)) (fun _ => Triple.raise (fun _ h => h)))

/-- What a rollback leaves of the files: on success the records' files, else each path as
    it was or with the content of its record. Without a complete backup nothing is touched. -/
theorem restoreAll_triple (id : ReleaseId) (phase : Phase) (s : Machine) :
    Triple (fun m => m = s) (restoreAll id phase)
      (fun _ m => ∃ q records, s.previous id = some q ∧ q.complete = true ∧
        q.records = some records ∧ Restored s q (restorable phase records) m)
      (fun _ m => m.files = s.files ∨ ∃ q records, s.previous id = some q ∧ q.complete = true ∧
        q.records = some records ∧ Partly s q (restorable phase records) m) := by
  unfold restoreAll
  refine Triple.bind (Triple.read (Q := fun m₀ m => m₀ = s ∧ m = s) (fun _ h => ⟨h, h⟩))
    (fun m₀ => Triple.given (fun _ h => h.1) (fun hm₀ => ?_))
  subst hm₀
  refine Triple.bind (require_triple (Q := fun _ m => (m₀.previous id).any (·.complete) = true ∧
    m = m₀) (fun hc m h => ⟨hc, h.2⟩) (fun _ m h => .inl (by rw [h.2])))
    (fun _ => Triple.given (fun _ h => h.1) ?_)
  intro hc
  obtain ⟨q, hq, hcomplete⟩ : ∃ q, m₀.previous id = some q ∧ q.complete = true := by
    simpa [Option.any_eq_true] using hc
  refine Triple.bind ((quiesce_triple m₀).mono (fun _ h => by rw [h.2]; exact ⟨Restoring.refl m₀, rfl⟩)
    (fun _ _ h => h) (fun _ _ h => .inl h.2)) (fun _ => Triple.start (fun s' hs' => ?_))
  have hprev : s'.previous id = some q := by rw [hs'.1.previous]; exact hq
  unfold readRecords
  refine Triple.bind (Q := fun records m => m = s' ∧ q.records = some records) ?_
    (fun records => Triple.given (fun _ h => h.2) (fun hr => ?_))
  · refine Triple.bind (Triple.read (Q := fun m₁ m => m₁ = s' ∧ m = s') (fun _ h => ⟨h, h⟩))
      (fun m₁ => Triple.given (fun _ h => h.1) (fun hm₁ => ?_))
    rw [hm₁, hprev, Option.bind_some]
    cases hr : q.records with
    | none => exact Triple.raise (fun _ h => .inl (by rw [h.2]; exact hs'.2))
    | some records => exact Triple.pure' (fun _ h => ⟨h.2, rfl⟩)
  have hstart : Restored m₀ q [] s' := ⟨hs'.1, hs'.2, by simp, by simp⟩
  have hrun : Triple (Restored m₀ q []) (Proc.forEach records (restoreRecord id phase)) _ _ :=
    restoreRecords_triple hq records
  exact hrun.mono (fun _ h => h.1 ▸ hstart)
    (fun _ m h => ⟨q, records, hq, hcomplete, hr, by simpa using h⟩)
    (fun _ m h => .inr ⟨q, records, hq, hcomplete, hr, by simpa using h⟩)

/-- The image that the quadlet file of the account names. -/
def Machine.quadletImage (s : Machine) : Option String :=
  match Node.bytes? s.quadlet with
  | some (.text content) => unitImage content
  | _ => none

/-- The service can be restarted: the account has a user manager, or the credential
    service brings it back, and an application to be started has an image. -/
def Restartable (active : Bool) (s : Machine) : Prop :=
  s.account.isSome ∧
    (s.userManager = true ∨ (s.files .credential).isSome ∧ (s.files .credentialsService).isSome) ∧
    (active = true → s.quadletImage.isSome)

theorem previousImage_triple (s : Machine) :
    Triple (fun m => Serviced s m) previousImage
      (fun image m => Serviced s m ∧ s.quadletImage = some image) (fun _ => Serviced s) := by
  unfold previousImage accountEntry
  refine Triple.bind (Q := fun account m => Serviced s m ∧ s.account = some account) ?_
    (fun account => ?_)
  · refine Triple.bind (Triple.read (Q := fun m₀ m => Serviced s m ∧ m₀ = m) (fun _ h => ⟨h, rfl⟩))
      (fun m₀ => Triple.given (φ := m₀.account = s.account) ?_ (fun ha => ?_))
    · intro m ⟨⟨a, u, h⟩, heq⟩
      rw [heq, h]
    · rw [ha]
      cases s.account with
      | none => exact Triple.raise (fun _ h => h.1)
      | some account => exact Triple.pure' (fun _ h => ⟨h.1, rfl⟩)
  · refine Triple.given (φ := s.account = some account) (fun _ h => h.2) (fun ha => ?_)
    refine Triple.bind (Triple.read (Q := fun m₀ m => Serviced s m ∧ m₀ = m) (fun _ h => ⟨h.1, rfl⟩))
      (fun m₀ => Triple.given (φ := m₀.files = s.files) ?_ (fun hf => ?_))
    · intro m ⟨⟨a, u, h⟩, heq⟩
      rw [heq, h]
    rw [hf]
    have himage : s.quadletImage = match Node.bytes? (s.files (.unit account.uid)) with
        | some (.text content) => unitImage content
        | _ => none := by
      simp [Machine.quadletImage, Machine.quadlet, ha]
    split
    · next content hcontent =>
      rw [hcontent] at himage
      cases hi : unitImage content with
      | none => exact Triple.raise (fun _ h => h.1)
      | some image => exact Triple.pure' (fun _ h => ⟨h.1, himage.trans hi⟩)
    · exact Triple.raise (fun _ h => h.1)
    · exact Triple.raise (fun _ h => h.1)

/-- A restart that succeeds found a host on which it could. -/
theorem restartAfter_triple (active : Bool) (s : Machine) :
    Triple (fun m => m = s) (restartAfter active)
      (fun recovered m => Serviced s m ∧ (recovered = true → Restartable active s))
      (fun _ => Serviced s) := by
  have hback : ∀ e : Exc, Triple (Serviced s)
      (if e.isFailureOrKey then pure false else Proc.raise e : Task Machine Bool)
      (fun recovered m => Serviced s m ∧ (recovered = true → Restartable active s))
      (fun _ => Serviced s) :=
    fun e => Triple.ite (fun _ => Triple.pure' (fun _ h => ⟨h, fun hf => by cases hf⟩))
      (fun _ => Triple.raise (fun _ h => h))
  refine Triple.handle (E := fun _ => Serviced s) ?_ hback
  unfold restartRestored
  have hrest : Triple (fun m => m = s) (do
      command (fun _ => true) (fun _ s => s)
      let s ← Proc.read
      onlyIf ((s.files .credential).isSome && (s.files .credentialsService).isSome) do
        restartCredentials
        let _ ← accountEntry
        startManager
      reloadService
      onlyIf active do
        restartService
        let image ← previousImage
        waitHealth image)
      (fun _ m => Serviced s m ∧ Restartable active s) (fun _ => Serviced s) := by
    refine Triple.bind (Q := fun _ m => m = s) (run_triple (fun _ _ h _ => h)
      (fun _ _ h => h ▸ Serviced.refl s) (fun _ _ _ h _ => h ▸ Serviced.refl s)) (fun _ => ?_)
    refine Triple.bind (Triple.read (Q := fun m₀ m => m₀ = s ∧ m = s) (fun _ h => ⟨h, h⟩))
      (fun m₀ => Triple.given (fun _ h => h.1) (fun hm₀ => ?_))
    rw [hm₀]
    -- the user manager runs afterwards only if it did before or was brought back
    refine Triple.bind (Q := fun _ m => Serviced s m ∧ (m.userManager = true →
      s.userManager = true ∨ (s.files .credential).isSome ∧ (s.files .credentialsService).isSome))
      (onlyIf_triple (fun hc => ?_) (fun _ m h => ?_)) (fun _ => ?_)
    · have hboth : (s.files .credential).isSome ∧ (s.files .credentialsService).isSome := by
        simpa using hc
      have hall : Services (do
          restartCredentials
          let _ ← accountEntry
          startManager) := Stays.bind services_restartCredentials
        (fun _ => Stays.bind services_accountEntry (fun _ => services_startManager))
      exact (hall s).mono (fun m h => by rw [h.2]; exact Serviced.refl s)
        (fun _ _ h => ⟨h, fun _ => .inr hboth⟩) (fun _ _ h => h)
    · rw [h.2]
      exact ⟨Serviced.refl s, .inl⟩
    refine Triple.bind (Q := fun _ m => Serviced s m ∧ s.account.isSome ∧ (s.userManager = true ∨
      (s.files .credential).isSome ∧ (s.files .credentialsService).isSome))
      (asHermes_triple ?_ (fun _ _ h => h.1) (fun _ _ _ h _ _ => h.1)) (fun _ => ?_)
    · intro _ m ⟨hs, hm⟩ ha hcan
      refine ⟨hs, ?_, hm (by simpa using hcan)⟩
      obtain ⟨a, u, rfl⟩ := hs
      exact ha
    refine onlyIf_triple (fun hactive => ?_) (fun hidle m h => ⟨h.1, h.2.1, h.2.2, ?_⟩)
    · refine Triple.given (fun _ h => h.2) (fun hs => ?_)
      refine Triple.bind ((services_restartService s).pre (fun _ h => h.1)) (fun _ => ?_)
      refine Triple.bind (previousImage_triple s) (fun image => ?_)
      refine Triple.given (φ := s.quadletImage = some image) (fun _ h => h.2) (fun himage => ?_)
      refine ((services_waitHealth image s).pre (fun _ h => h.1)).post (fun _ _ h => ⟨h, ?_⟩)
      exact ⟨hs.1, hs.2, fun _ => by rw [himage]; rfl⟩
    · intro hactive
      rw [hactive] at hidle
      cases hidle
  exact Triple.bind hrest (fun _ => Triple.pure' (fun _ h => ⟨h.1, fun _ => h.2⟩))

/-- A journal write keeps what does not depend on the journal and the trace. -/
theorem save_host {r : Release} {phase : Phase} {values : Journal → Journal} {I : Machine → Prop}
    (hI : ∀ m j e, I m → I ((m.setJournal r.id j).mark e)) :
    Triple (fun s => I s.host) (save r phase values)
      (fun reply s => I s.host ∧ reply = { stage := phase }) (fun _ s => I s.host) := by
  unfold save
  refine Triple.bind (Triple.update (Q := fun _ s => I s.host) (fun _ h => h)) (fun _ => ?_)
  refine Triple.bind (atomic_keeps (fun _ s h => hI s.host _ _ h)) (fun _ => ?_)
  exact Triple.pure' (fun _ h => ⟨h, rfl⟩)

/-- Every path is as it was or as a record that the phase lets a rollback restore has it. -/
def Retouched (r : Release) (s m : Machine) : Prop :=
  ∀ p, m.files p = s.files p ∨ ∃ q records record, s.previous r.id = some q ∧
    q.complete = true ∧ q.records = some records ∧
    record ∈ restorable (s.journalOf r.id).phase records ∧ record.place = p ∧ record.held q ∧
    Node.bytes? (m.files p) = Node.bytes? (record.node q s.containerUid)

theorem Partly.retouched {r : Release} {m' : Machine} (h : Partly s q (restorable
    (s.journalOf r.id).phase records) m') (hq : s.previous r.id = some q)
    (hc : q.complete = true) (hr : q.records = some records) (hm : m.files = m'.files) :
    Retouched r s m := by
  intro p
  rw [hm]
  rcases h.files p with hp | ⟨x, hx, hxp, hheld, hn⟩
  · exact .inl hp
  · exact .inr ⟨q, records, x, hq, hc, hr, hx, hxp, hheld, hn⟩

/-- The files are what the records of the backup make of them. -/
def Reinstated (r : Release) (s m : Machine) : Prop :=
  ∃ q records m', s.previous r.id = some q ∧ q.complete = true ∧ q.records = some records ∧
    Restored s q (restorable (s.journalOf r.id).phase records) m' ∧ m.files = m'.files

theorem Reinstated.retouched {r : Release} (h : Reinstated r s m) : Retouched r s m := by
  obtain ⟨q, records, m', hq, hc, hr, hm', hm⟩ := h
  exact hm'.partly.retouched hq hc hr hm

/-- The service was found restartable, with the files of `m`. -/
def Restarted (r : Release) (s m : Machine) : Prop :=
  Restartable ((s.journalOf r.id).previousActive.getD false) { s with files := m.files }

theorem rollback_session (r : Release) (s : Machine) :
    Triple (fun x => x = ⟨s, s.journalOf r.id⟩) (rollback r)
      (fun reply x => Reinstated r s x.host ∧
        (reply = { stage := .rolledBack } → Restarted r s x.host))
      (fun _ x => Retouched r s x.host) := by
  unfold rollback
  refine Triple.bind (Triple.read (Q := fun x₀ x => x₀ = ⟨s, s.journalOf r.id⟩ ∧
    x = ⟨s, s.journalOf r.id⟩) (fun _ h => ⟨h, h⟩))
    (fun x₀ => Triple.given (fun _ h => h.1) (fun hx₀ => ?_))
  subst hx₀
  refine Triple.bind (Q := fun _ x => Reinstated r s x.host ∧ Restoring s x.host)
    (onMachine_triple (fun j => ?_)) (fun _ => ?_)
  · refine (restoreAll_triple r.id (s.journalOf r.id).phase s).mono ?_ ?_ ?_
    · exact fun m h => congrArg Session.host h.2
    · exact fun _ m ⟨q, records, hq, hc, hr, h⟩ => ⟨⟨q, records, m, hq, hc, hr, h, rfl⟩, h.frame⟩
    · intro _ m h
      rcases h with h | ⟨q, records, hq, hc, hr, h⟩
      · exact fun p => .inl (by rw [h])
      · exact h.retouched hq hc hr rfl
  -- the restart starts and stops services only
  have hkeep : ∀ m m' : Machine, m'.files = m.files → Reinstated r s m → Reinstated r s m' := by
    intro m m' hm ⟨q, records, m₁, hq, hc, hr, hm₁, hf⟩
    exact ⟨q, records, m₁, hq, hc, hr, hm₁, hm.trans hf⟩
  refine Triple.bind (Q := fun recovered x => Reinstated r s x.host ∧
    (recovered = true → Restarted r s x.host)) (onMachine_triple (fun j => ?_)) (fun recovered => ?_)
  · refine Triple.start (fun m hm => (restartAfter_triple _ m).mono (fun _ h => h) ?_ ?_)
    · intro recovered m' ⟨⟨a, u, hm'⟩, hrestart⟩
      refine ⟨hkeep m m' (by rw [hm']) hm.1, fun hrec => ?_⟩
      obtain ⟨f, a', hf⟩ := hm.2
      have hm₀ : m = { s with files := f, active := a' } := hf
      subst hm' hm₀
      exact hrestart hrec
    · intro _ m' ⟨a, u, hm'⟩
      exact (hkeep m m' (by rw [hm']) hm.1).retouched
  have hsave : ∀ (φ : Machine → Prop) phase, (∀ m m' : Machine, m'.files = m.files → φ m → φ m') →
      Triple (fun x => Reinstated r s x.host ∧ φ x.host) (save r phase)
      (fun reply x => (Reinstated r s x.host ∧ φ x.host) ∧ reply = { stage := phase })
      (fun _ x => Retouched r s x.host) := by
    intro φ phase hφ
    refine (save_host (I := fun m => Reinstated r s m ∧ φ m) ?_).mono (fun _ h => h)
      (fun _ _ h => h) (fun _ _ h => h.1.retouched)
    exact fun m j e h => ⟨hkeep m _ rfl h.1, hφ m _ rfl h.2⟩
  refine Triple.ite (fun hrec => ?_) (fun _ => ?_)
  · refine ((hsave (Restarted r s) .rolledBack ?_).pre (fun _ h => ⟨h.1, h.2 hrec⟩)).post
      (fun _ _ h => ⟨h.1.1, fun _ => h.1.2⟩)
    intro m m' hm h
    unfold Restarted
    rw [hm]
    exact h
  · refine ((hsave (fun _ => True) .recoveryRequired (fun _ _ _ h => h)).pre
      (fun _ h => ⟨h.1, trivial⟩)).post (fun reply _ h => ⟨h.1.1, fun heq => ?_⟩)
    rw [h.2] at heq
    cases heq

/-- A rollback of a process that reads the journal as it is. -/
theorem rollback_triple (r : Release) (s : Machine) :
    Triple (fun m => m = s) (invoke r .rollback)
      (fun reply m => Reinstated r s m ∧ (reply = { stage := .rolledBack } → Restarted r s m))
      (fun _ => Retouched r s) := by
  unfold invoke runHost
  refine Triple.bind (Triple.read (Q := fun m₀ m => m₀ = s ∧ m = s) (fun _ h => ⟨h, h⟩))
    (fun m₀ => Triple.given (fun _ h => h.1) (fun hm₀ => ?_))
  subst hm₀
  exact Triple.zoom m₀ (rollback_session r m₀) (fun m h => ⟨h.2, by rw [h.2]⟩)
    (fun _ _ h => h) (fun _ _ h => h)

end Restore

/-! The credential, over any number of rollbacks. -/

/-- The content of the credential file. -/
def Machine.credentialBytes (s : Machine) : Option Bytes := Node.bytes? (s.files .credential)

/-- Rollback requests, each with its script. -/
def Machine.rollbacks (r : Release) (s : Machine) (scripts : List (List Moment)) : Machine :=
  scripts.foldl (fun s t => (invoke r .rollback).after t s) s

/-- A rollback that starts here has no other credential to restore: the journal says
    `closed`, or the backup holds what the file holds already. -/
def Spared (r : Release) (s : Machine) : Prop :=
  (s.journalOf r.id).phase = .closed ∨ ∀ q, s.previous r.id = some q → q.complete = true →
    ∀ content, q.offers .credential content → content = s.credentialBytes

/-- Every rollback of the sequence starts in such a state. -/
def AllSpared (r : Release) : Machine → List (List Moment) → Prop
  | _, [] => True
  | s, t :: ts => Spared r s ∧ AllSpared r ((invoke r .rollback).after t s) ts

theorem FileRecord.node_bytes {q : Previous} {record : FileRecord} (uid : Nat)
    (hheld : record.held q) :
    match record.saved with
    | none => Node.bytes? (record.node q uid) = none
    | some _ => Node.bytes? (record.node q uid) = q.copies record.index := by
  cases hs : record.saved with
  | none => simp [FileRecord.node, hs, Node.bytes?]
  | some info =>
    obtain ⟨b, hb⟩ := Option.isSome_iff_exists.mp (hheld (by rw [hs]; rfl))
    simp [FileRecord.node, hs, hb, Node.bytes?]

theorem Retouched.credential {r : Release} {s m : Machine} (h : Retouched r s m)
    (hs : Spared r s) : m.credentialBytes = s.credentialBytes := by
  rcases h .credential with hp | ⟨q, records, x, hq, hc, hr, hx, hxp, hheld, hn⟩
  · exact congrArg Node.bytes? hp
  · obtain ⟨hmem, hphase⟩ := List.mem_filter.mp hx
    rcases hs with hclosed | hoffers
    · simp [hxp, hclosed] at hphase
    · refine hoffers q hq hc _ ⟨records, x, hr, hmem, hxp, ?_⟩
      have hbytes := x.node_bytes s.containerUid hheld
      rw [← hn] at hbytes
      exact hbytes

theorem rollback_credential {r : Release} {s : Machine} (hs : Spared r s) (t : List Moment) :
    ((invoke r .rollback).after t s).credentialBytes = s.credentialBytes := by
  refine Triple.after (P := fun m => m = s) (R := fun m => m.credentialBytes = s.credentialBytes)
    ((rollback_triple r s).mono (fun _ h => h) ?_ (fun _ m h => h.credential hs)) rfl
  exact fun _ m h => h.1.retouched.credential hs

/-- Rollbacks that find the journal at `closed`, wherever they stop and however many there
    are, leave the credential as it is in every state reached. -/
theorem rollbacks_keep_credential (r : Release) (s : Machine) (ts : List (List Moment))
    (h : AllSpared r s ts) (ts' : List (List Moment)) (hpre : ts' <+: ts) :
    (s.rollbacks r ts').credentialBytes = s.credentialBytes := by
  induction ts' generalizing s ts with
  | nil => rfl
  | cons t ts' ih =>
    obtain ⟨rest, rfl⟩ := hpre
    have hrest := ih ((invoke r .rollback).after t s) (ts' ++ rest) h.2 ⟨rest, rfl⟩
    calc (s.rollbacks r (t :: ts')).credentialBytes
        = ((invoke r .rollback).after t s).credentialBytes := hrest
      _ = s.credentialBytes := rollback_credential h.1 t

/-- A host with a credential from before the release. -/
def rotatedMachine : Machine :=
  sampleMachine.setNode .credential (some (.file (.sealed ⟨"hermes-old", "sk-0"⟩ "n0") .rootPrivate))

/-- The same host when the release has closed. -/
def closedMachine : Machine := rotatedMachine.occurAll (toClosed sampleRelease sampleKey)

set_option maxRecDepth 4000 in
theorem rollbacks_keep_credential_once : (closedMachine.rollbacks sampleRelease
    [goodScript 60]).credentialBytes = some (.sealed sampleKey "") := by
  have hkept := rollbacks_keep_credential sampleRelease closedMachine [goodScript 60]
    ⟨.inl (by decide +kernel), trivial⟩ [goodScript 60] ⟨[], rfl⟩
  exact hkept.trans (by decide +kernel)

/-- The second rollback of a closed release brings back the credential from before it. -/
theorem second_rollback_restores_credential :
    (closedMachine.journalOf "r1").phase = .closed ∧
      closedMachine.credentialBytes ≠ rotatedMachine.credentialBytes ∧
      (closedMachine.rollbacks sampleRelease [goodScript 60, goodScript 60]).credentialBytes =
        rotatedMachine.credentialBytes := by
  decide +kernel

end Hermes

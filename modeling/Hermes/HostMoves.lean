import Hermes.HostSteps

/- Every run of the host entry point is a sequence of the steps of `HostStep`.

   The lemmas follow the code: first the backup of the application files and the
   installation, which work on the machine, then the stages, which work on the
   machine and on the journal in memory. A stage keeps the two journals equal
   (`Synced`), unless a journal write was cut short. -/
namespace Hermes
open Process

variable {α β : Type}

/-! Capturing files. -/

/-- `record` and its copy hold the file as it is on `s`. -/
def Kept (s : Machine) (p : Previous) (record : FileRecord) : Prop :=
  match s.files record.place, record.saved with
  | none, none => True
  | some (.file bytes info), some saved => saved = info ∧ p.copies record.index = some bytes
  | _, _ => False

theorem Kept.offers {s : Machine} {p : Previous} {record : FileRecord} (h : Kept s p record) :
    match record.saved with
    | none => Node.bytes? (s.files record.place) = none
    | some _ => Node.bytes? (s.files record.place) = p.copies record.index := by
  unfold Kept at h
  split at h
  · next hf hs => rw [hf, hs]; rfl
  · next hf hs => rw [hf, hs]; exact h.2.symm
  · exact h.elim

/-- A copy under another number changes nothing for a record. -/
theorem Kept.setCopy {s : Machine} {p : Previous} {record : FileRecord} {n : Nat} {bytes : Bytes}
    (h : Kept s p record) (hn : record.index ≠ n) : Kept s (p.setCopy n bytes) record := by
  unfold Kept at h ⊢
  split at h
  · trivial
  · exact ⟨h.1, by simpa [Previous.setCopy, hn] using h.2⟩
  · exact h.elim

theorem setPrevious_setPrevious (s : Machine) (id : ReleaseId) (p q : Previous) :
    (s.setPrevious id p).setPrevious id q = s.setPrevious id q := by
  simp only [Machine.setPrevious, Machine.mk.injEq, and_true, true_and]
  funext i
  by_cases h : i = id <;> simp [h]

/-- The machine `s` but for the backup of release `id`: it has the copies of `p₀` below
    `base`, and holds the records `done`, numbered below `n`. -/
def Copying (s : Machine) (id : ReleaseId) (p₀ : Previous) (base n : Nat) (done : List FileRecord)
    (m : Machine) : Prop :=
  ∃ p, m = s.setPrevious id p ∧ p.complete = p₀.complete ∧ p.records = p₀.records ∧
    (∀ i, i < base → p.copies i = p₀.copies i) ∧
    ∀ record ∈ done, record.index < n ∧ Kept s p record

section Capture

variable {s : Machine} {id : ReleaseId} {p₀ : Previous} {base n : Nat} {done : List FileRecord}

/-- What a reader of an application file returns is the file's content. -/
theorem readApplicationFile_triple {I : Machine → Prop} {place : Place} (bytes : Bytes)
    (info : Meta) (hI : ∀ m, I m → m.files place = some (.file bytes info)) :
    Triple I (readApplicationFile place) (fun b m => I m ∧ b = bytes) (fun _ => I) := by
  unfold readApplicationFile
  refine Triple.ite (fun hp => ?_) (fun hp => ?_)
  · subst hp
    refine asHermes_triple (fun m m' h _ _ => ⟨h, ?_⟩) (fun _ _ h => h) (fun _ _ _ h _ _ => h)
    simp [Machine.configBytes, hI m' h, Node.bytes?]
  · unfold protectedFile
    refine Triple.bind (Triple.read (Q := fun m₀ m => I m ∧ m₀ = m) (fun _ h => ⟨h, rfl⟩))
      (fun m₀ => ?_)
    refine Triple.given (φ := m₀.files place = some (.file bytes info))
      (fun m h => by rw [h.2]; exact hI m h.1) (fun hf => ?_)
    rw [hf]
    refine Triple.pre (P := I) ?_ (fun _ h => h.1)
    refine Triple.bind require_keeps (fun _ => Triple.bind require_keeps (fun _ => ?_))
    refine Triple.bind instant_keeps (fun _ => Triple.bind require_keeps (fun _ => ?_))
    exact Triple.pure' (fun _ h => ⟨h, rfl⟩)

theorem captureFile_triple (hbase : base ≤ n) {place : Place} {reason : String} :
    Triple (Copying s id p₀ base n done) (captureFile id n place reason)
      (fun record m => Copying s id p₀ base (n + 1) (done ++ [record]) m ∧
        record.place = place ∧ record.index = n)
      (fun _ => Copying s id p₀ base n done) := by
  unfold captureFile
  have hfiles : ∀ m, Copying s id p₀ base n done m → m.files place = s.files place := by
    intro m ⟨p, hm, _⟩; rw [hm]; rfl
  have hadd : ∀ (record : FileRecord) p, record.index = n → Kept s p record →
      (∀ x ∈ done, x.index < n ∧ Kept s p x) →
      ∀ x ∈ done ++ [record], x.index < n + 1 ∧ Kept s p x := by
    intro record p hi hk h x hx
    rcases List.mem_append.mp hx with hx | hx
    · exact ⟨Nat.lt_succ_of_lt (h x hx).1, (h x hx).2⟩
    · rw [List.mem_singleton.mp hx]; exact ⟨by omega, hk⟩
  refine Triple.bind (Triple.read (Q := fun m₀ m => Copying s id p₀ base n done m ∧ m₀ = m)
    (fun _ h => ⟨h, rfl⟩)) (fun m₀ => ?_)
  refine Triple.given (φ := m₀.files place = s.files place)
    (fun m h => by rw [h.2]; exact hfiles m h.1) (fun hplace => ?_)
  rw [hplace]
  refine Triple.pre (P := Copying s id p₀ base n done) ?_ (fun _ h => h.1)
  split
  · exact Triple.raise (fun _ h => h)
  · next hnone =>
    refine Triple.pure' (fun m h => ⟨?_, rfl, rfl⟩)
    obtain ⟨p, hm, hc, ho, hb, hd⟩ := h
    exact ⟨p, hm, hc, ho, hb, hadd _ p rfl (by simp [Kept, hnone]) hd⟩
  · next bytes info hfile =>
    refine Triple.bind (readApplicationFile_triple bytes info
      (fun m h => by rw [hfiles m h, hfile])) (fun b => ?_)
    have hcopy : ∀ m, Copying s id p₀ base n done m →
        ∃ p : Previous, m.setPrevious id (((m.previous id).getD .empty).setCopy n b) =
          s.setPrevious id (p.setCopy n b) ∧ p.complete = p₀.complete ∧ p.records = p₀.records ∧
          (∀ i, i < base → (p.setCopy n b).copies i = p₀.copies i) ∧
          ∀ x ∈ done, x.index < n ∧ Kept s (p.setCopy n b) x := by
      intro m ⟨p, hm, hc, ho, hb, hd⟩
      refine ⟨p, ?_, hc, ho, fun i hi => ?_, fun x hx => ⟨(hd x hx).1, (hd x hx).2.setCopy ?_⟩⟩
      · rw [hm, Machine.setPrevious_same, setPrevious_setPrevious]; rfl
      · have hne : i ≠ n := by omega
        simpa [Previous.setCopy, hne] using hb i hi
      · have := (hd x hx).1; omega
    refine Triple.bind (Q := fun _ m => ∃ p, m = s.setPrevious id p ∧ p.complete = p₀.complete ∧
      p.records = p₀.records ∧ (∀ i, i < base → p.copies i = p₀.copies i) ∧
      (∀ x ∈ done, x.index < n ∧ Kept s p x) ∧ p.copies n = some bytes) ?_ (fun _ => ?_)
    · refine atomic_triple ?_ (fun _ m h => h.1) ?_
      · intro _ m ⟨h, hbytes⟩
        obtain ⟨p, hm, hc, ho, hb, hd⟩ := hcopy m h
        exact ⟨p.setCopy n b, hm, hc, ho, hb, hd, by simp [Previous.setCopy, hbytes]⟩
      · intro _ _ m ⟨h, _⟩
        obtain ⟨p, hm, hc, ho, hb, hd⟩ := hcopy m h
        exact ⟨p.setCopy n b, hm, hc, ho, hb, hd⟩
    · refine Triple.pure' (fun m h => ⟨?_, rfl, rfl⟩)
      obtain ⟨p, hm, hc, ho, hb, hd, hcopies⟩ := h
      exact ⟨p, hm, hc, ho, hb, hadd _ p rfl (by simp [Kept, hfile, hcopies]) hd⟩

theorem captureFiles_triple (hbase : base ≤ n) (places : List Place) :
    Triple (Copying s id p₀ base n done) (captureFiles id n places)
      (fun new m => Copying s id p₀ base (n + places.length) (done ++ new) m ∧
        new.map (·.place) = places)
      (fun _ m => ∃ p, m = s.setPrevious id p ∧ p.complete = p₀.complete) := by
  induction places generalizing n done with
  | nil =>
    refine Triple.pure' (fun m h => ⟨?_, rfl⟩)
    simpa using h
  | cons place places ih =>
    refine Triple.bind ((captureFile_triple hbase).mono (fun _ h => h) (fun _ _ h => h)
      (fun _ m ⟨p, hm, hc, _⟩ => ⟨p, hm, hc⟩)) (fun record => ?_)
    refine Triple.given (φ := record.place = place) (fun _ h => h.2.1) (fun hplace => ?_)
    refine Triple.bind ((ih (by omega)).pre (fun _ h => h.1)) (fun records => ?_)
    refine Triple.pure' (fun m h => ⟨?_, by simp [hplace, h.2]⟩)
    have hlen : n + (place :: places).length = n + 1 + places.length := by
      rw [List.length_cons]; omega
    rw [hlen, List.append_cons]
    exact h.1

/-- The backup `p` is complete and holds the application files of `s`. -/
def CapturedOn (s : Machine) (p : Previous) : Prop :=
  p.complete = true ∧ ∃ records, p.records = some records ∧
    records.map (·.place) = capturedPlaces s.account ∧
    ∀ record ∈ records, record.index < records.length ∧ Kept s p record

theorem capturedPlaces_nodup (account : Option Account) : (capturedPlaces account).Nodup := by
  cases account <;> simp [capturedPlaces]

theorem kept_records {p : Previous} {record : FileRecord} {records : Option (List FileRecord)}
    {c : Bool} (h : Kept s p record) : Kept s { p with records := records, complete := c } record := h

theorem captureApplication_triple :
    Triple (fun m => m = s) (captureApplication id)
      (fun _ m => (m = s ∧ (s.previous id).any (·.complete) = true) ∨
        (s.previous id = none ∧ ∃ p, m = s.setPrevious id p ∧ CapturedOn s p))
      (fun _ m => m = s ∨ (s.previous id = none ∧ ∃ p, m = s.setPrevious id p ∧
        (p.complete = true → CapturedOn s p))) := by
  unfold captureApplication
  refine Triple.bind (Triple.read (Q := fun m₀ m => m₀ = s ∧ m = s) (fun _ h => ⟨h, h⟩))
    (fun m₀ => Triple.given (fun _ h => h.1) (fun hm₀ => ?_))
  subst hm₀
  cases hprev : m₀.previous id with
  | some p =>
    refine require_triple (fun hc m h => .inl ⟨h.2, by simpa using hc⟩) (fun _ m h => .inl h.2)
  | none =>
    have hpartly : ∀ p : Previous, p.complete = false →
        (m₀.setPrevious id p = m₀ ∨ (none = (none : Option Previous) ∧ ∃ q,
          m₀.setPrevious id p = m₀.setPrevious id q ∧ (q.complete = true → CapturedOn m₀ q))) :=
      fun p hp => .inr ⟨rfl, p, rfl, fun hc => by rw [hp] at hc; cases hc⟩
    refine Triple.bind (Q := fun _ => Copying m₀ id .empty 0 0 [])
      (atomic_triple ?_ (fun _ m h => .inl h.2) ?_) (fun _ => ?_)
    · intro _ m h
      rw [h.2]
      exact ⟨.empty, rfl, rfl, rfl, fun _ _ => rfl, by simp⟩
    · intro _ _ m h
      rw [h.2]
      exact hpartly .empty rfl
    refine Triple.bind ((captureFiles_triple (Nat.le_refl 0) _).mono (fun _ h => h) (fun _ _ h => h) ?_)
      (fun records => ?_)
    · intro _ m ⟨p, hm, hp⟩
      rw [hm]
      exact hpartly p hp
    -- the records are written, then the mark that the backup is complete
    refine Triple.bind (Q := fun _ m => ∃ p, m = m₀.setPrevious id p ∧ p.complete = false ∧
      p.records = some records ∧ records.map (·.place) = capturedPlaces m₀.account ∧
      ∀ record ∈ records, record.index < records.length ∧ Kept m₀ p record)
      (atomic_triple ?_ ?_ ?_) (fun _ => atomic_triple ?_ ?_ ?_)
    · intro _ m ⟨⟨p, hm, hc, _, _, hd⟩, hplaces⟩
      refine ⟨{ p with records := some records }, ?_, hc, rfl, hplaces, fun x hx => ?_⟩
      · rw [hm, Machine.setPrevious_same, setPrevious_setPrevious]; rfl
      · have hx' := hd x (by simpa using hx)
        have hlen : (capturedPlaces m₀.account).length = records.length := by
          rw [← hplaces, List.length_map]
        exact ⟨by omega, hx'.2⟩
    · intro _ m ⟨⟨p, hm, hc, _⟩, _⟩
      rw [hm]
      exact hpartly p hc
    · intro _ _ m ⟨⟨p, hm, hc, _⟩, _⟩
      rw [hm, Machine.setPrevious_same, setPrevious_setPrevious]
      exact hpartly _ hc
    · intro _ m ⟨p, hm, _, hrec, hplaces, hd⟩
      refine .inr ⟨rfl, { p with complete := true }, ?_, rfl, records, hrec, hplaces, hd⟩
      rw [hm, Machine.setPrevious_same, setPrevious_setPrevious]; rfl
    · intro _ m ⟨p, hm, hc, _⟩
      rw [hm]
      exact hpartly p hc
    · intro _ _ m ⟨p, hm, _, hrec, hplaces, hd⟩
      rw [hm, Machine.setPrevious_same, setPrevious_setPrevious]
      exact .inr ⟨rfl, { p with complete := true }, rfl,
        fun _ => ⟨rfl, records, hrec, hplaces, hd⟩⟩

/-- What `track` does to a backup whose records are `records`. -/
def Tracked (s : Machine) (id : ReleaseId) (place : Place) (p : Previous)
    (records : List FileRecord) (m : Machine) : Prop :=
  ∃ q : Previous, m = s.setPrevious id q ∧ q.complete = p.complete ∧
    (∀ i, i < records.length → q.copies i = p.copies i) ∧
    (q.records = some records ∨ ∃ record, q.records = some (records ++ [record]) ∧
      record.place = place ∧ (∀ x ∈ records, x.place ≠ place) ∧
      record.index = records.length ∧ Kept s q record)

theorem setPrevious_self {p : Previous} (h : s.previous id = some p) : s.setPrevious id p = s := by
  have : (fun i => if i = id then some p else s.previous i) = s.previous := by
    funext i
    by_cases hi : i = id
    · simp [hi, h]
    · simp [hi]
  simp only [Machine.setPrevious, this]

/-- Without `files.json` nothing is tracked. -/
theorem track_none {place : Place} (h : (s.previous id).bind (·.records) = none) :
    Triple (fun m => m = s) (track id place) (fun _ _ => False) (fun _ m => m = s) := by
  unfold track readRecords
  refine Triple.bind (Q := fun _ _ => False) ?_ (fun _ => fun _ _ hs => hs.elim)
  refine Triple.bind (Triple.read (Q := fun m₀ m => m₀ = s ∧ m = s) (fun _ h => ⟨h, h⟩))
    (fun m₀ => Triple.given (fun _ h => h.1) (fun hm₀ => ?_))
  subst hm₀
  rw [h]
  exact Triple.raise (fun _ h => h.2)

theorem track_triple {place : Place} {p : Previous} {records : List FileRecord}
    (hp : s.previous id = some p) (hr : p.records = some records) :
    Triple (fun m => m = s) (track id place)
      (fun _ m => Tracked s id place p records m ∧ ((∃ record ∈ records, record.place = place) ∨
        ∃ q record, m = s.setPrevious id q ∧ q.records = some (records ++ [record]) ∧
          record.place = place))
      (fun _ => Tracked s id place p records) := by
  have hself : Tracked s id place p records s :=
    ⟨p, (setPrevious_self hp).symm, rfl, fun _ _ => rfl, .inl hr⟩
  unfold track readRecords
  refine Triple.bind (Q := fun rs m => rs = records ∧ m = s) ?_ (fun rs =>
    Triple.given (fun _ h => h.1) (fun hrs => ?_))
  · refine Triple.bind (Triple.read (Q := fun m₀ m => m₀ = s ∧ m = s) (fun _ h => ⟨h, h⟩))
      (fun m₀ => Triple.given (fun _ h => h.1) (fun hm₀ => ?_))
    subst hm₀
    rw [hp, Option.bind_some, hr]
    exact Triple.pure' (fun _ h => ⟨rfl, h.2⟩)
  subst hrs
  refine Triple.ite (fun hany => Triple.pure' (fun m h => ?_)) (fun hany => ?_)
  · rw [h.2]
    exact ⟨hself, .inl (by simpa using hany)⟩
  have hstart : ∀ m, rs = rs ∧ m = s → Copying s id p rs.length rs.length [] m :=
    fun m h => ⟨p, by rw [h.2, setPrevious_self hp], rfl, rfl, fun _ _ => rfl, by simp⟩
  refine Triple.bind ((captureFile_triple (Nat.le_refl _)).mono hstart (fun _ _ h => h) ?_)
    (fun record => ?_)
  · intro _ m ⟨q, hm, hc, ho, hb, _⟩
    exact ⟨q, hm, hc, hb, .inl (ho.trans hr)⟩
  have hwrite : ∀ m, Copying s id p rs.length (rs.length + 1) ([] ++ [record]) m ∧
      record.place = place ∧ record.index = rs.length → ∃ q : Previous, m.setPrevious id
        { (m.previous id).getD .empty with records := some (rs ++ [record]) } = s.setPrevious id q ∧
        q.records = some (rs ++ [record]) ∧ record.place = place ∧
        Tracked s id place p rs (s.setPrevious id q) := by
    intro m ⟨⟨q, hm, hc, ho, hb, hd⟩, hplace, hindex⟩
    refine ⟨{ q with records := some (rs ++ [record]) }, ?_, rfl, hplace, ?_⟩
    · rw [hm, Machine.setPrevious_same, setPrevious_setPrevious]; rfl
    · refine ⟨_, rfl, hc, hb, .inr ⟨record, rfl, hplace, ?_, hindex, (hd record (by simp)).2⟩⟩
      simpa using hany
  refine atomic_triple ?_ ?_ ?_
  · intro _ m h
    obtain ⟨q, hm, hq, hplace, htracked⟩ := hwrite m h
    rw [hm]
    exact ⟨htracked, .inr ⟨q, record, rfl, hq, hplace⟩⟩
  · intro _ m ⟨⟨q, hm, hc, ho, hb, _⟩, _⟩
    exact ⟨q, hm, hc, hb, .inl (ho.trans hr)⟩
  · intro _ _ m h
    obtain ⟨q, hm, _, _, htracked⟩ := hwrite m h
    rw [hm]
    exact htracked

end Capture

/-! Moves of the machine under a fixed journal. -/

/-- Reached from `s₀` by steps of `r`, with the journal `j` on disk. -/
def On (r : Release) (K : Key → Prop) (s₀ : Machine) (j : Journal) (m : Machine) : Prop :=
  Moves r K s₀ m ∧ m.journalOf r.id = j

section On

variable {r : Release} {K : Key → Prop} {s₀ m m' : Machine} {j : Journal}

theorem On.frame (h : On r K s₀ j m) (hf : Frame m m') : On r K s₀ j m' :=
  ⟨h.1.tail (.quiet hf), (hf.journalOf r.id).trans h.2⟩

theorem On.note (h : On r K s₀ j m) (e : Mark) (he : Noted r m e) : On r K s₀ j (m.mark e) :=
  ⟨h.1.tail (.note e he), h.2⟩

theorem quiet_on {x : Task Machine α} (hx : Quiet x) : Keeps (On r K s₀ j) x :=
  hx.keeps (fun _ _ hf h => h.frame hf)

/-- A backup that was tracked offers nothing new for the credential. -/
theorem tracked_on {place : Place} {p : Previous} {records : List FileRecord}
    (hplace : place ≠ .credential) (hp : m.previous r.id = some p) (hr : p.records = some records)
    (h : On r K s₀ j m) (ht : Tracked m r.id place p records m') : On r K s₀ j m' := by
  obtain ⟨q, hm', hc, hcopies, hq⟩ := ht
  subst hm'
  refine ⟨h.1.tail (.track q p hp hc ?_), h.2⟩
  intro hidx
  rcases hq with hq | ⟨record, hq, hrp, _, hri, _⟩
  · constructor
    · intro rs hrs
      rw [hq] at hrs; cases hrs
      exact hidx records hr
    · intro c ⟨rs, x, hrs, hx, hxp, hxc⟩
      rw [hq] at hrs; cases hrs
      rw [hcopies x.index (hidx records hr x hx)] at hxc
      exact ⟨records, x, hr, hx, hxp, hxc⟩
  · constructor
    · intro rs hrs x hx
      rw [hq] at hrs; cases hrs
      rw [List.length_append, List.length_singleton]
      rcases List.mem_append.mp hx with hx | hx
      · have := hidx records hr x hx; omega
      · rw [List.mem_singleton.mp hx]; omega
    · intro c ⟨rs, x, hrs, hx, hxp, hxc⟩
      rw [hq] at hrs; cases hrs
      rcases List.mem_append.mp hx with hx | hx
      · rw [hcopies x.index (hidx records hr x hx)] at hxc
        exact ⟨records, x, hr, hx, hxp, hxc⟩
      · rw [List.mem_singleton.mp hx, hrp] at hxp
        exact absurd hxp hplace

theorem track_on {place : Place} (hplace : place ≠ .credential) :
    Keeps (On r K s₀ j) (track r.id place) := by
  refine Triple.start (fun m hm => ?_)
  cases hp : (m.previous r.id).bind (·.records) with
  | none =>
    exact (track_none hp).mono (fun _ h => h) (fun _ _ h => h.elim) (fun _ _ h => h ▸ hm)
  | some records =>
    obtain ⟨p, hprev, hrec⟩ := Option.bind_eq_some_iff.mp hp
    exact (track_triple hprev hrec).mono (fun _ h => h)
      (fun _ _ h => tracked_on hplace hprev hrec hm h.1)
      (fun _ _ h => tracked_on hplace hprev hrec hm h)

/-- A write of the runtime installation. -/
theorem noted_on {place : Place} (node : Option Node) (hplace : place ≠ .credential)
    (hj : j.phase = .runtimePending) (h : On r K s₀ j m) :
    On r K s₀ j ((m.setNode place node).noted (some r.id) place) := by
  have hframe := h.frame (Frame.setNode m node hplace)
  exact hframe.note _ ⟨rfl, by rw [hframe.2]; exact hj⟩

theorem installFile_on {content : String} {place : Place} {mode : Nat}
    (hplace : place ≠ .credential) (hj : j.phase = .runtimePending) :
    Keeps (On r K s₀ j) (installFile (some r.id) content place mode) := by
  unfold installFile
  refine Triple.bind (quiet_on Stays.read) (fun _ => Triple.bind require_keeps (fun _ => ?_))
  refine Triple.bind (quiet_on quiet_mkdir) (fun _ => Triple.bind ?_ (fun _ => quiet_on (quiet_chmod _ _)))
  exact atomic_keeps (fun _ _ h => noted_on _ hplace hj h)

theorem removeFile_on {place : Place} (hplace : place ≠ .credential)
    (hj : j.phase = .runtimePending) : Keeps (On r K s₀ j) (removeFile (some r.id) place) :=
  atomic_keeps (fun _ _ h => noted_on _ hplace hj h)

theorem writeDropin_on {place : Place} {content : String} (hplace : place ≠ .credential)
    (hj : j.phase = .runtimePending) : Keeps (On r K s₀ j) (writeDropin r.id place content) := by
  unfold writeDropin
  refine Triple.bind (quiet_on quiet_mkdir) (fun _ => Triple.bind ?_ (fun _ => quiet_on (quiet_chmod _ _)))
  exact atomic_keeps (fun _ _ h => noted_on _ hplace hj h)

theorem installUnit_on {uid : Nat} (hj : j.phase = .runtimePending) :
    Keeps (On r K s₀ j) (installUnit r uid) := by
  unfold installUnit
  refine Triple.bind (track_on (by simp)) (fun _ => Triple.bind (installFile_on (by simp) hj) (fun _ => ?_))
  refine Triple.bind (track_on (by simp)) (fun _ => Triple.bind (installFile_on (by simp) hj) (fun _ => ?_))
  refine Triple.bind (track_on (by simp)) (fun _ => Triple.bind (installFile_on (by simp) hj) (fun _ => ?_))
  refine Triple.bind (removeFile_on (by simp) hj) (fun _ => ?_)
  exact Triple.bind (track_on (by simp)) (fun _ => removeFile_on (by simp) hj)

theorem installCredentials_on {uid : Nat} (hj : j.phase = .runtimePending) :
    Keeps (On r K s₀ j) (installCredentials r uid) := by
  unfold installCredentials
  refine Triple.bind (track_on (by simp)) (fun _ => Triple.bind (track_on (by simp)) (fun _ => ?_))
  refine Triple.bind (installFile_on (by simp) hj) (fun _ => ?_)
  refine Triple.bind (installFile_on (by simp) hj) (fun _ => Triple.bind (track_on (by simp)) (fun _ => ?_))
  refine Triple.bind (writeDropin_on (by simp) hj) (fun _ => ?_)
  exact Triple.bind (track_on (by simp)) (fun _ => writeDropin_on (by simp) hj)

theorem installRuntime_on (hj : j.phase = .runtimePending) :
    Keeps (On r K s₀ j) (installRuntime r) := by
  unfold installRuntime
  refine Triple.bind (quiet_on quiet_identity) (fun account => Triple.bind require_keeps (fun _ => ?_))
  refine Triple.bind (quiet_on (quiet_asHermes (fun _ s => Frame.refl s))) (fun _ => ?_)
  refine Triple.bind (installUnit_on hj) (fun _ => Triple.bind (quiet_on services_reloadService.quiet) (fun _ => ?_))
  refine Triple.bind (quiet_on services_restartService.quiet) (fun _ => ?_)
  refine Triple.bind (quiet_on (services_waitHealth _).quiet) (fun _ => ?_)
  refine Triple.bind (quiet_on quiet_hardenConfig) (fun _ => Triple.bind (quiet_on quiet_setModel) (fun _ => ?_))
  refine Triple.bind (installCredentials_on hj) (fun _ => Triple.bind (quiet_on services_look.quiet) (fun _ => ?_))
  refine Triple.bind (quiet_on services_restartCredentials.quiet) (fun _ => ?_)
  refine Triple.bind (quiet_on services_startManager.quiet) (fun _ => ?_)
  refine Triple.bind (writeDropin_on (by simp) hj) (fun _ => ?_)
  refine Triple.bind (quiet_on services_reloadService.quiet) (fun _ => ?_)
  exact Triple.bind (quiet_on services_restartService.quiet) (fun _ => quiet_on (services_waitHealth _).quiet)

/-- Capturing is one step, from the phase `new` only. -/
theorem captured_on {p : Previous} (hj : j.phase = .new) (hprev : m.previous r.id = none)
    (hp : p.complete = true → CapturedOn m p) (h : On r K s₀ j m) :
    On r K s₀ j (m.setPrevious r.id p) := by
  refine ⟨h.1.tail (.capture p (by rw [h.2]; exact hj) (by rw [hprev]; rfl) ?_), h.2⟩
  intro hc
  obtain ⟨_, records, hrec, _, hkept⟩ := hp hc
  constructor
  · intro rs hrs
    rw [hrec] at hrs; cases hrs
    exact fun x hx => (hkept x hx).1
  · intro c ⟨rs, x, hrs, hx, hxp, hxc⟩
    rw [hrec] at hrs; cases hrs
    have hoff := (hkept x hx).2.offers
    rw [hxp] at hoff
    revert hxc hoff
    cases x.saved with
    | none => exact fun hxc hoff => hxc.trans hoff.symm
    | some _ => exact fun hxc hoff => hxc.trans hoff.symm

theorem captureApplication_on (hj : j.phase = .new) :
    Triple (On r K s₀ j) (captureApplication r.id)
      (fun _ m => On r K s₀ j m ∧ (m.previous r.id).any (·.complete) = true)
      (fun _ => On r K s₀ j) := by
  refine Triple.start (fun m hm => ?_)
  refine captureApplication_triple.mono (fun _ h => h) ?_ ?_
  · intro _ m' h
    rcases h with ⟨heq, hc⟩ | ⟨hprev, p, hm', hc⟩
    · subst heq; exact ⟨hm, hc⟩
    · subst hm'
      exact ⟨captured_on hj hprev (fun _ => hc) hm, by simpa using hc.1⟩
  · intro _ m' h
    rcases h with heq | ⟨hprev, p, hm', hc⟩
    · subst heq; exact hm
    · subst hm'; exact captured_on hj hprev hc hm

theorem HostStep.bootId (h : HostStep r K m m') : m'.bootId = m.bootId := by
  cases h with
  | quiet h => exact h.bootId
  | note | save | capture | track | store | restore => rfl

theorem Moves.bootId (h : Moves r K s₀ m) : m.bootId = s₀.bootId := by
  induction h with
  | refl => rfl
  | tail _ hstep ih => rw [hstep.bootId, ih]

theorem archive_on (content : String) (h : On r K s₀ j m) :
    On r K s₀ j (m.archive r.id content) ∧
      (m.archive r.id content).snapshots r.id = some content ∧
      .snapshotTaken r.id (digest content) ∈ (m.archive r.id content).trace := by
  have hframe : Frame m (m.setSnapshot r.id (some content)) := ⟨rfl, rfl, rfl, rfl, rfl⟩
  exact ⟨(h.frame hframe).note _ rfl, by simp [Machine.archive], by simp [Machine.archive]⟩

theorem createSnapshot_on : Keeps (On r K s₀ j) (createSnapshot r.id) := by
  unfold createSnapshot
  refine Triple.bind (quiet_on Stays.read) (fun s => ?_)
  refine Triple.ite (fun _ => Triple.raise (fun _ h => h)) (fun _ => ?_)
  refine Triple.bind (atomic_keeps (fun _ _ h => h.frame ⟨rfl, rfl, rfl, rfl, rfl⟩)) (fun _ => ?_)
  exact atomic_keeps (fun _ _ h => h)

theorem archiveData_on :
    Triple (On r K s₀ j) (archiveData r.id)
      (fun _ m => On r K s₀ j m ∧ ∃ c, m.snapshots r.id = some c ∧
        .snapshotTaken r.id (digest c) ∈ m.trace)
      (fun _ => On r K s₀ j) := by
  have hdone : ∀ (x : Moment) m, On r K s₀ j m → On r K s₀ j (m.archive r.id x.text) ∧
      ∃ c, (m.archive r.id x.text).snapshots r.id = some c ∧
        .snapshotTaken r.id (digest c) ∈ (m.archive r.id x.text).trace :=
    fun x m h => ⟨(archive_on x.text h).1, x.text, (archive_on x.text h).2⟩
  unfold archiveData
  refine Triple.bind (quiet_on Stays.read) (fun s => Triple.ite (fun _ => ?_) (fun _ => ?_))
  · refine Triple.bind (quiet_on (Stays.handle services_stopService.quiet (fun e => Stays.ite ?_ (Stays.raise e))))
      (fun _ => ?_)
    · exact Stays.bind (quiet_asHermes (fun _ s => Frame.refl s)) (fun _ => stays_require)
    refine Triple.bind createSnapshot_on (fun _ => ?_)
    exact asHermes_triple (fun x m h _ _ => hdone x m h) (fun _ _ h => h)
      (fun _ x _ h _ _ => (archive_on x.text h).1)
  · refine Triple.bind createSnapshot_on (fun _ => ?_)
    exact run_triple (fun x m h _ => hdone x m h) (fun _ _ h => h)
      (fun _ x _ h _ => (archive_on x.text h).1)

theorem snapshotDigest_triple {I : Machine → Prop} {id : ReleaseId} :
    Triple I (snapshotDigest id)
      (fun d m => I m ∧ ∃ c, m.snapshots id = some c ∧ d = digest c) (fun _ => I) := by
  unfold snapshotDigest
  refine Triple.bind instant_keeps (fun _ => ?_)
  refine Triple.bind (Triple.read (Q := fun m₀ m => I m ∧ m₀ = m) (fun _ h => ⟨h, rfl⟩))
    (fun m₀ => ?_)
  cases hc : m₀.snapshots id with
  | none => exact Triple.raise (fun _ h => h.1)
  | some c => exact Triple.pure' (fun m h => ⟨h.1, c, by rw [← h.2]; exact hc, rfl⟩)

theorem storeCredential_on {key : Key} {nonce : String} (hk : K key)
    (hj : j.phase = .backupVerified ∨ j.phase = .credentialReady) :
    Triple (On r K s₀ j) (storeCredential r.id key nonce)
      (fun _ m => On r K s₀ j m ∧ .credentialStored r.id key ∈ m.trace) (fun _ => On r K s₀ j) := by
  have hstep : ∀ m, On r K s₀ j m → On r K s₀ j
      ((m.setNode .credential (some (.file (.sealed key nonce) .rootPrivate))).mark
        (.credentialStored r.id key)) :=
    fun m h => ⟨h.1.tail (.store key nonce hk (by rw [h.2]; exact hj)), h.2⟩
  exact atomic_triple (fun _ m h => ⟨hstep m h, by simp⟩) (fun _ _ h => h) (fun _ _ m h => hstep m h)

/-- The packages that `package_baseline` reports are the installed ones. -/
theorem packageBaseline_triple {I : Machine → Prop} :
    Triple I packageBaseline (fun d m => I m ∧ d = digest m.inventory) (fun _ => I) :=
  query_triple (fun _ _ h _ => ⟨h, rfl⟩) (fun _ _ h => h)

theorem requireComplete_triple {I : Machine → Prop} {directory : String} {baseline : Digest} :
    Triple I (requireComplete directory baseline)
      (fun _ m => I m ∧ m.replayed directory baseline = true) (fun _ => I) := by
  unfold requireComplete
  refine Triple.bind (Triple.read (Q := fun m₀ m => I m ∧ m₀ = m) (fun _ h => ⟨h, rfl⟩))
    (fun m₀ => ?_)
  cases hr : m₀.replays directory baseline with
  | none => exact Triple.raise (fun _ h => h.1)
  | some state =>
    refine Triple.bind (require_triple
      (Q := fun _ m => (I m ∧ m₀ = m) ∧ state.status = .complete)
      (fun h _ hm => ⟨hm, by simpa using h⟩) (fun _ _ hm => hm.1)) (fun _ => ?_)
    cases hb : state.updateBoot with
    | none => exact Triple.raise (fun _ h => h.1.1)
    | some boot =>
      refine require_triple (fun h m hm => ⟨hm.1.1, ?_⟩) (fun _ _ hm => hm.1.1)
      obtain ⟨⟨_, rfl⟩, hs⟩ := hm
      simpa [Machine.replayed, hr, hs, hb] using h

theorem stageOffline_on {directory : String} {baseline expected : Digest} {entry : Option String}
    (hd : directory = packagesDirectory r.id) (hj : j.phase = .packageStaging)
    (hb : j.bootBefore = some s₀.bootId) :
    Triple (On r K s₀ j) (stageOffline directory baseline expected entry)
      (fun _ m => On r K s₀ j m ∧ .staged directory m.bootId ∈ m.trace) (fun _ => On r K s₀ j) := by
  unfold stageOffline
  have hframe : ∀ (f : Machine → Machine), (∀ s, Frame s (f s)) →
      Keeps (On r K s₀ j) (atomic fun _ s => f s) :=
    fun f hf => quiet_on (quiet_atomic (fun _ s => hf s))
  have hrest : ∀ boot : Option BootArtifact, Triple (On r K s₀ j) (do
      let s ← Proc.read
      require (!s.updateStaged) "offline-update-already-staged"
      require (s.replays directory baseline).isNone "offline-replay-already-attempted"
      let m ← instant
      let content := unitText directory baseline
      let state : Replay :=
        ⟨expected, .staging, s.bootId, m.now, digest content, boot, none, none, none⟩
      atomic fun _ s => s.setReplay directory baseline state
      writeFile .offlineUnit (.text content)
      chmod .offlineUnit 0o644
      command (fun _ => true) (fun _ s => s)
      mkdir
      atomic fun _ s => { s with wantLink := .to "hermes-offline-replay.service" }
      atomic fun _ s => s.setReplay directory baseline { state with status := .staged }
      atomic fun _ s => ({ s with systemUpdate := .to directory }.mark (.staged directory s.bootId))
      command (fun _ => true) (fun _ s => s))
      (fun _ m => On r K s₀ j m ∧ .staged directory m.bootId ∈ m.trace)
      (fun _ => On r K s₀ j) := by
    intro boot
    refine Triple.bind (quiet_on Stays.read) (fun s => Triple.bind require_keeps (fun _ => ?_))
    refine Triple.bind require_keeps (fun _ => Triple.bind instant_keeps (fun x => ?_))
    refine Triple.bind (hframe _ (fun _ => ⟨rfl, rfl, rfl, rfl, rfl⟩)) (fun _ => ?_)
    refine Triple.bind (hframe _ (fun s => Frame.setNode s _ (by simp))) (fun _ => ?_)
    refine Triple.bind (quiet_on (quiet_chmod _ _)) (fun _ => Triple.bind look_keeps (fun _ => ?_))
    refine Triple.bind (quiet_on quiet_mkdir) (fun _ => ?_)
    refine Triple.bind (hframe _ (fun _ => ⟨rfl, rfl, rfl, rfl, rfl⟩)) (fun _ => ?_)
    refine Triple.bind (hframe _ (fun _ => ⟨rfl, rfl, rfl, rfl, rfl⟩)) (fun _ => ?_)
    -- the system-update link makes the transaction run
    have hstep : ∀ m, On r K s₀ j m → On r K s₀ j
        ({ m with systemUpdate := .to directory }.mark (.staged directory m.bootId)) := by
      intro m h
      have h' : On r K s₀ j { m with systemUpdate := .to directory } :=
        h.frame ⟨rfl, rfl, rfl, rfl, rfl⟩
      refine h'.note _ ⟨hd, rfl, by rw [h'.2]; exact hj, ?_⟩
      rw [h'.2, hb, h'.1.bootId]
    refine Triple.bind (Q := fun _ m => On r K s₀ j m ∧ .staged directory m.bootId ∈ m.trace)
      (atomic_triple (fun _ m h => ⟨hstep m h, by simp⟩) (fun _ _ h => h) (fun _ _ m h => hstep m h))
      (fun _ => ?_)
    exact run_triple (fun _ _ h _ => h) (fun _ _ h => h.1) (fun _ _ _ h _ => h.1)
  refine Triple.bind require_keeps (fun _ => ?_)
  cases entry with
  | none => exact hrest none
  | some entry =>
    refine Triple.bind require_keeps (fun _ => ?_)
    exact Triple.bind (quiet_on (quiet_protectedFile _)) (fun bytes => hrest _)

theorem replayPackages_on {expected : Digest} {entry : Option String}
    (hj : j.phase = .packageStaging) (hb : j.bootBefore = some s₀.bootId) :
    Triple (On r K s₀ j) (replayPackages (packagesDirectory r.id) r.baseline expected entry)
      (fun _ m => On r K s₀ j m ∧ .staged (packagesDirectory r.id) m.bootId ∈ m.trace)
      (fun _ => On r K s₀ j) := by
  unfold replayPackages verifyPackages
  refine Triple.bind ?_ (fun _ => stageOffline_on rfl hj hb)
  refine Triple.bind query_keeps (fun _ => Triple.bind require_keeps (fun _ => ?_))
  exact Triple.bind instant_keeps (fun _ => require_keeps)

theorem acceptance_on :
    Triple (On r K s₀ j) (acceptance r)
      (fun _ m => On r K s₀ j m ∧ .accepted r.id m.bootId ∈ m.trace) (fun _ => On r K s₀ j) := by
  unfold acceptance
  refine Triple.bind (quiet_on (services_healthy _).quiet) (fun _ => ?_)
  refine Triple.bind (quiet_on (quiet_asHermes (fun _ s => Frame.refl s))) (fun _ => ?_)
  refine Triple.bind (quiet_on (quiet_asHermes (fun _ s => Frame.refl s))) (fun _ => ?_)
  refine Triple.bind require_keeps (fun _ => Triple.update (fun m h => ⟨h.note _ ⟨rfl, rfl⟩, ?_⟩))
  simp

/-- `m` still holds the complete backup `q`. -/
def Backed (r : Release) (K : Key → Prop) (s₀ : Machine) (j : Journal) (q : Previous)
    (m : Machine) : Prop :=
  On r K s₀ j m ∧ m.previous r.id = some q

theorem Backed.frame {q : Previous} (h : Backed r K s₀ j q m) (hf : Frame m m') :
    Backed r K s₀ j q m' :=
  ⟨h.1.frame hf, by rw [hf.previous]; exact h.2⟩

theorem quiet_backed {q : Previous} {x : Task Machine α} (hx : Quiet x) :
    Keeps (Backed r K s₀ j q) x :=
  hx.keeps (fun _ _ hf h => h.frame hf)

/-- Restoring the content that a record offers. -/
theorem restored_on {q : Previous} {record : FileRecord} {records : List FileRecord}
    {node : Option Node} (hc : q.complete = true) (hr : q.records = some records)
    (hx : record ∈ records) (hj : record.place = .credential → j.phase ≠ .closed)
    (hn : match record.saved with
      | none => Node.bytes? node = none
      | some _ => Node.bytes? node = q.copies record.index)
    (h : Backed r K s₀ j q m) : Backed r K s₀ j q (m.setNode record.place node) := by
  by_cases hp : record.place = .credential
  · rw [hp]
    refine ⟨⟨h.1.1.tail (.restore node q h.2 hc (by rw [h.1.2]; exact hj hp) ?_), h.1.2⟩, h.2⟩
    exact ⟨records, record, hr, hx, hp, hn⟩
  · exact h.frame (Frame.setNode m node hp)

theorem readCopy_triple {id : ReleaseId} {q : Previous} {record : FileRecord} {I : Machine → Prop}
    (hI : ∀ m, I m → m.previous id = some q) :
    Triple I (readCopy id record) (fun b m => I m ∧ q.copies record.index = some b)
      (fun _ => I) := by
  unfold readCopy
  refine Triple.bind (Triple.read (Q := fun m₀ m => I m ∧ m₀ = m) (fun _ h => ⟨h, rfl⟩))
    (fun m₀ => Triple.given (φ := m₀.previous id = some q)
      (fun m h => by rw [h.2]; exact hI m h.1) (fun hp => ?_))
  rw [hp, Option.bind_some]
  cases hb : q.copies record.index with
  | none => exact Triple.raise (fun _ h => h.1)
  | some b => exact Triple.pure' (fun _ h => ⟨h.1, rfl⟩)

theorem restoreRecord_on {q : Previous} {record : FileRecord} {records : List FileRecord}
    (hc : q.complete = true) (hr : q.records = some records) (hx : record ∈ records) :
    Keeps (Backed r K s₀ j q) (restoreRecord r.id j.phase record) := by
  unfold restoreRecord
  refine Triple.ite (fun _ => Triple.pure' (fun _ h => h)) (fun hskip => ?_)
  have hj : record.place = .credential → j.phase ≠ .closed := fun hp hcl => hskip ⟨hp, hcl⟩
  refine Triple.bind (quiet_backed Stays.read) (fun _ => Triple.bind require_keeps (fun _ => ?_))
  refine Triple.ite (fun hp => ?_) (fun _ => ?_)
  · have hframe : ∀ m node, Backed r K s₀ j q m → Backed r K s₀ j q (m.setNode .config node) :=
      fun m node h => h.frame (Frame.setNode m node (by simp))
    unfold restoreConfig
    cases record.saved with
    | none => exact asHermes_keeps (fun _ m h _ => hframe m _ h)
    | some info =>
      refine Triple.bind (readCopy_triple (fun m h => h.2)) (fun b => ?_)
      exact (asHermes_keeps (fun _ m h _ => hframe m _ h)).pre (fun _ h => h.1)
  · unfold restoreFile
    cases hs : record.saved with
    | none =>
      refine atomic_keeps (fun _ m h => ?_)
      exact restored_on hc hr hx hj (by rw [hs]; rfl) h
    | some info =>
      refine Triple.bind (readCopy_triple (fun m h => h.2)) (fun b => ?_)
      refine Triple.given (φ := q.copies record.index = some b) (fun _ h => h.2) (fun hb => ?_)
      refine Triple.pre (P := Backed r K s₀ j q) ?_ (fun _ h => h.1)
      refine Triple.bind (atomic_keeps (fun _ m h => ?_)) (fun _ => ?_)
      · exact restored_on hc hr hx hj (by rw [hs]; exact hb.symm) h
      refine Triple.bind (quiet_backed (quiet_chmod _ _)) (fun _ => ?_)
      exact quiet_backed (quiet_atomic (fun _ m => Frame.setMeta m _ _))

theorem restoreAll_on :
    Triple (On r K s₀ j) (restoreAll r.id j.phase)
      (fun _ m => On r K s₀ j m ∧ (m.previous r.id).any (·.complete) = true)
      (fun _ => On r K s₀ j) := by
  unfold restoreAll
  refine Triple.bind (Triple.read (Q := fun m₀ m => On r K s₀ j m ∧ m₀ = m) (fun _ h => ⟨h, rfl⟩))
    (fun m₀ => ?_)
  cases hp : m₀.previous r.id with
  | none => exact Triple.bind (require_triple (Q := fun _ _ => False) (fun h => by simp at h)
      (fun _ _ h => h.1)) (fun _ => fun _ _ h => h.elim)
  | some q =>
    refine Triple.bind (require_triple (Q := fun _ m => Backed r K s₀ j q m ∧ q.complete = true)
      (fun hc m h => ⟨⟨h.1, by rw [← h.2]; exact hp⟩, by simpa using hc⟩) (fun _ _ h => h.1))
      (fun _ => Triple.given (fun _ h => h.2) (fun hc => ?_))
    have hdone : ∀ m, Backed r K s₀ j q m →
        On r K s₀ j m ∧ (m.previous r.id).any (·.complete) = true :=
      fun m h => ⟨h.1, by rw [h.2]; simpa using hc⟩
    have hback : Triple (Backed r K s₀ j q) (do
        quiesce
        let records ← readRecords r.id
        Proc.forEach records (restoreRecord r.id j.phase))
        (fun _ => Backed r K s₀ j q) (fun _ => Backed r K s₀ j q) := by
      refine Triple.bind (quiet_backed services_quiesce.quiet) (fun _ => ?_)
      unfold readRecords
      refine Triple.bind (Q := fun records m => Backed r K s₀ j q m ∧ q.records = some records) ?_
        (fun records => Triple.given (fun _ h => h.2) (fun hr => ?_))
      · refine Triple.bind (Triple.read (Q := fun m₁ m => Backed r K s₀ j q m ∧ m₁ = m)
          (fun _ h => ⟨h, rfl⟩)) (fun m₁ => Triple.given (φ := m₁.previous r.id = some q)
          (fun m h => by rw [h.2]; exact h.1.2) (fun hq => ?_))
        rw [hq, Option.bind_some]
        cases hrec : q.records with
        | none => exact Triple.raise (fun _ h => h.1)
        | some records => exact Triple.pure' (fun _ h => ⟨h.1, rfl⟩)
      · exact (Keeps.forEach records (fun record hx => restoreRecord_on hc hr hx)).pre (fun _ h => h.1)
    exact hback.mono (fun _ h => h.1) (fun _ m h => hdone m h) (fun _ _ h => h.1)

end On

/-! Stages: the machine and the journal in memory. -/

section Stages

variable {r : Release} {K : Key → Prop} {s₀ : Machine}

/-- Reached from `s₀`, with the journal in memory on disk. -/
def Synced (r : Release) (K : Key → Prop) (s₀ : Machine) (s : Session) : Prop :=
  On r K s₀ s.state s.host

/-- Where a process stops: a `Failure` leaves the two journals equal. -/
def Stopped (r : Release) (K : Key → Prop) (s₀ : Machine) (e : Exc) (s : Session) : Prop :=
  Moves r K s₀ s.host ∧ (e.isFailure = true → Synced r K s₀ s)

theorem Synced.stopped {s : Session} (h : Synced r K s₀ s) (e : Exc) : Stopped r K s₀ e s :=
  ⟨h.1, fun _ => h⟩

theorem onMachine_triple {x : Task Machine α} {P : Session → Prop} {Q : α → Session → Prop}
    {E : Exc → Session → Prop}
    (h : ∀ j, Triple (fun m => P ⟨m, j⟩) x (fun a m => Q a ⟨m, j⟩) (fun e m => E e ⟨m, j⟩)) :
    Triple P (onMachine x) Q E :=
  Triple.start (fun s hs => Triple.zoom s (h s.state)
    (fun s' hs' => ⟨hs', by rw [hs']; exact hs⟩) (fun _ _ hq => hq) (fun _ _ he => he))

/-- A task that keeps `On` on every machine, as part of a stage. -/
theorem onMachine_synced {x : Task Machine α} {φ : Journal → Prop} {ψ : α → Machine → Prop}
    (h : ∀ j, φ j → Triple (On r K s₀ j) x (fun a m => On r K s₀ j m ∧ ψ a m)
      (fun _ => On r K s₀ j)) :
    Triple (fun s => Synced r K s₀ s ∧ φ s.state) (onMachine x)
      (fun a s => Synced r K s₀ s ∧ φ s.state ∧ ψ a s.host) (Stopped r K s₀) := by
  refine onMachine_triple (fun j => Triple.given (φ := φ j) (fun _ hm => hm.2) (fun hj => ?_))
  exact (h j hj).mono (fun _ hm => hm.1) (fun _ _ hm => ⟨hm.1, hj, hm.2⟩)
    (fun e m (hm : On r K s₀ j m) => Synced.stopped (s := ⟨m, j⟩) hm e)

theorem onMachine_keeps {x : Task Machine α} {φ : Journal → Prop}
    (h : ∀ j, φ j → Keeps (On r K s₀ j) x) :
    Triple (fun s => Synced r K s₀ s ∧ φ s.state) (onMachine x)
      (fun _ s => Synced r K s₀ s ∧ φ s.state) (Stopped r K s₀) :=
  (onMachine_synced (ψ := fun _ _ => True)
    (fun j hj => (h j hj).post (fun _ _ hm => ⟨hm, trivial⟩))).post (fun _ _ h => ⟨h.1, h.2.1⟩)

/-- A journal write, where the table of transitions allows it. -/
theorem save_synced {phase : Phase} {values : Journal → Journal} {P : Session → Prop}
    (hP : ∀ s, P s → Synced r K s₀ s)
    (hT : ∀ s, P s → Transition r s.host s.state { values s.state with phase := phase }) :
    Triple P (save r phase values)
      (fun reply s => Synced r K s₀ s ∧ reply = { stage := phase } ∧
        ∃ s', P s' ∧ s.state = { values s'.state with phase := phase } ∧
          s.host.bootId = s'.host.bootId) (Stopped r K s₀) := by
  unfold save
  refine Triple.start (fun s hs => ?_)
  refine Triple.bind (Triple.update (Q := fun _ s' =>
    s' = ⟨s.host, { values s.state with phase := phase }⟩) (fun _ h => by rw [h])) (fun _ => ?_)
  have hsync := hP s hs
  have hstep : Synced r K s₀ ⟨(s.host.setJournal r.id { values s.state with phase := phase }).mark
      (.recorded r.id phase (s.host.view r)), { values s.state with phase := phase }⟩ := by
    refine ⟨hsync.1.tail (.save _ (by rw [hsync.2]; exact hT s hs)), ?_⟩
    simp [Machine.journalOf]
  refine Triple.bind (Q := fun _ s' => s' = ⟨(s.host.setJournal r.id
    { values s.state with phase := phase }).mark (.recorded r.id phase (s.host.view r)),
      { values s.state with phase := phase }⟩) ?_ (fun _ => Triple.pure' (fun s' h => ?_))
  · -- a write that was cut short is no `Failure`
    refine Triple.perform (fun s' h => ⟨by rw [h]; exact hsync.1, by simp [Process.Mortal.killed, Exc.isFailure]⟩) ?_
    intro m s' h e s'' hr
    subst h
    split at hr
    · cases hr; rfl
    · next hv =>
      cases hr
      refine ⟨?_, fun hf => ?_⟩
      · show Moves r K s₀ (Session.host (if _ then _ else _))
        split
        · exact hstep.1
        · exact hsync.1
      · cases hverdict : m.verdict <;> simp [fileError, Exc.isFailure, hverdict] at hf hv
  · subst h
    exact ⟨hstep, rfl, s, hs, rfl, rfl⟩

/-- The answer of a stage names the phase of the journal. -/
def Answered (r : Release) (K : Key → Prop) (s₀ : Machine) (reply : HostReply) (s : Session) : Prop :=
  Synced r K s₀ s ∧ reply.stage = s.state.phase

/-- A journal write that ends a stage. -/
theorem save_answered {phase : Phase} {values : Journal → Journal} {P : Session → Prop}
    (hP : ∀ s, P s → Synced r K s₀ s)
    (hT : ∀ s, P s → Transition r s.host s.state { values s.state with phase := phase }) :
    Triple P (save r phase values) (Answered r K s₀) (Stopped r K s₀) := by
  refine (save_synced hP hT).post (fun reply s h => ?_)
  obtain ⟨hs, hreply, s', _, hstate, _⟩ := h
  exact ⟨hs, by rw [hreply, hstate]⟩

/-- A journal write in the middle of a stage. -/
theorem save_phase {phase : Phase} {values : Journal → Journal} {P : Session → Prop}
    (hP : ∀ s, P s → Synced r K s₀ s)
    (hT : ∀ s, P s → Transition r s.host s.state { values s.state with phase := phase }) :
    Triple P (save r phase values) (fun _ s => Synced r K s₀ s ∧ s.state.phase = phase)
      (Stopped r K s₀) := by
  refine (save_synced hP hT).post (fun reply s h => ?_)
  obtain ⟨hs, _, s', _, hstate, _⟩ := h
  exact ⟨hs, by rw [hstate]⟩

theorem require_synced {φ : Session → Prop} {c : Bool} {reason : String} {code : Nat} :
    Triple (fun s => Synced r K s₀ s ∧ φ s) (require c reason code)
      (fun _ s => Synced r K s₀ s ∧ φ s) (Stopped r K s₀) :=
  require_triple (fun _ _ h => h) (fun _ _ h => h.1.stopped _)

theorem preflight_synced {φ : Session → Prop} :
    Triple (fun s => Synced r K s₀ s ∧ φ s) preflight (fun _ s => Synced r K s₀ s ∧ φ s)
      (Stopped r K s₀) :=
  preflight_keeps.mono (fun _ h => h) (fun _ _ h => h) (fun e _ h => h.1.stopped e)

theorem session_read {P : Session → Prop} {E : Exc → Session → Prop} :
    Triple P (Proc.read : HostTask Session) (fun s₁ s => P s ∧ s₁ = s) E :=
  Triple.read (fun _ h => ⟨h, rfl⟩)

theorem rollback_synced : Triple (Synced r K s₀) (rollback r) (Answered r K s₀) (Stopped r K s₀) := by
  unfold rollback
  refine Triple.bind session_read (fun s₁ => ?_)
  have hrestore : Triple (fun s => Synced r K s₀ s ∧ s.state = s₁.state)
      (onMachine (restoreAll r.id s₁.state.phase))
      (fun _ s => Synced r K s₀ s ∧ s.state = s₁.state ∧
        (s.host.previous r.id).any (·.complete) = true) (Stopped r K s₀) :=
    onMachine_synced (φ := fun j => j = s₁.state)
      (ψ := fun _ m => (m.previous r.id).any (·.complete) = true)
      (fun j hj => by rw [← hj]; exact restoreAll_on)
  refine Triple.bind (hrestore.pre (fun s h => ⟨h.1, by rw [h.2]⟩)) (fun _ => ?_)
  have hrestart : Triple (fun s => Synced r K s₀ s ∧ (s.host.previous r.id).any (·.complete) = true)
      (onMachine (restartAfter (s₁.state.previousActive.getD false)))
      (fun _ s => Synced r K s₀ s ∧ (s.host.previous r.id).any (·.complete) = true)
      (Stopped r K s₀) := by
    refine onMachine_triple (fun j => ?_)
    refine ((services_restartAfter _).quiet.keeps (I := fun m => On r K s₀ j m ∧
      (m.previous r.id).any (·.complete) = true) ?_).mono (fun _ h => h) (fun _ _ h => h)
      (fun e m h => Synced.stopped (s := ⟨m, j⟩) h.1 e)
    exact fun m m' hf h => ⟨h.1.frame hf, by rw [hf.previous]; exact h.2⟩
  refine Triple.bind (hrestart.pre (fun s h => ⟨h.1, h.2.2⟩)) (fun recovered => ?_)
  refine Triple.ite (fun _ => ?_) (fun _ => ?_)
  · exact save_answered (fun _ h => h.1) (fun s h => .undo .rolledBack (.inl rfl) h.2)
  · exact save_answered (fun _ h => h.1) (fun s h => .undo .recoveryRequired (.inr rfl) h.2)

theorem snapshotData_synced :
    Triple (Synced r K s₀) (snapshotData r) (Answered r K s₀) (Stopped r K s₀) := by
  unfold snapshotData
  refine Triple.bind session_read (fun s₁ => Triple.ite (fun _ => ?_) (fun hnew => ?_))
  · refine Triple.bind (require_triple (Q := fun _ s => Synced r K s₀ s ∧ s.state = s₁.state)
      (fun _ s h => ⟨h.1, by rw [h.2]⟩) (fun _ s h => h.1.stopped _)) (fun _ => ?_)
    refine Triple.bind (onMachine_keeps (φ := fun j => j = s₁.state)
      (fun j _ => snapshotDigest_triple.post (fun _ _ h => h.1))) (fun value => ?_)
    exact Triple.pure' (fun s h => ⟨h.1, by rw [h.2]⟩)
  · have hphase : s₁.state.phase = .new := Decidable.not_not.mp hnew
    refine Triple.bind ((preflight_synced (φ := fun s => s.state.phase = .new)).pre ?_)
      (fun _ => ?_)
    · exact fun s h => ⟨h.1, by rw [← h.2]; exact hphase⟩
    refine Triple.bind (onMachine_synced (φ := fun j => j.phase = .new)
      (fun j hj => captureApplication_on hj)) (fun _ => ?_)
    have hactive : Triple (fun s => Synced r K s₀ s ∧ s.state.phase = .new ∧
        (s.host.previous r.id).any (·.complete) = true) (onMachine serviceActive)
        (fun _ s => Synced r K s₀ s ∧ s.state.phase = .new ∧
          (s.host.previous r.id).any (·.complete) = true) (Stopped r K s₀) := by
      refine onMachine_triple (fun j => ?_)
      refine (services_serviceActive.quiet.keeps (I := fun m => On r K s₀ j m ∧ j.phase = .new ∧
        (m.previous r.id).any (·.complete) = true) ?_).mono (fun _ h => h) (fun _ _ h => h)
        (fun e m h => Synced.stopped (s := ⟨m, j⟩) h.1 e)
      exact fun m m' hf h => ⟨h.1.frame hf, h.2.1, by rw [hf.previous]; exact h.2.2⟩
    refine Triple.bind hactive (fun active => ?_)
    refine Triple.bind (save_phase (fun _ h => h.1) (fun s h => .begin active h.2.1 h.2.2))
      (fun _ => ?_)
    refine Triple.bind (onMachine_keeps (φ := fun j => j.phase = .snapshotCreating)
      (fun j _ => look_keeps)) (fun _ => ?_)
    refine Triple.bind (onMachine_synced (φ := fun j => j.phase = .snapshotCreating)
      (fun j _ => archiveData_on)) (fun _ => ?_)
    have hdigest : Triple (fun s => Synced r K s₀ s ∧ s.state.phase = .snapshotCreating ∧
        ∃ c, s.host.snapshots r.id = some c ∧ .snapshotTaken r.id (digest c) ∈ s.host.trace)
        (onMachine (snapshotDigest r.id))
        (fun d s => Synced r K s₀ s ∧ s.state.phase = .snapshotCreating ∧
          .snapshotTaken r.id d ∈ s.host.trace) (Stopped r K s₀) := by
      refine onMachine_triple (fun j => ?_)
      refine snapshotDigest_triple.mono (fun _ h => h) ?_
        (fun e m h => Synced.stopped (s := ⟨m, j⟩) h.1 e)
      intro d m ⟨⟨hon, hph, c, hc, hmark⟩, c', hc', hd⟩
      rw [hc] at hc'
      cases hc'
      exact ⟨hon, hph, by rw [hd]; exact hmark⟩
    refine Triple.bind hdigest (fun value => ?_)
    refine Triple.bind (save_phase (fun _ h => h.1) (fun s h => .ready value h.2.1 h.2.2))
      (fun _ => ?_)
    exact Triple.pure' (fun s h => ⟨h.1, h.2.symm⟩)

theorem acknowledgeBackup_synced {receipt : BackupReceipt} :
    Triple (Synced r K s₀) (acknowledgeBackup r receipt) (Answered r K s₀) (Stopped r K s₀) := by
  unfold acknowledgeBackup
  refine Triple.bind session_read (fun s₁ => ?_)
  refine Triple.bind (require_triple (Q := fun _ s => Synced r K s₀ s ∧ s₁ = s ∧
    (s.state.phase = .snapshotReady ∨ s.state.phase = .backupVerified)) ?_
    (fun _ s h => h.1.stopped _)) (fun _ => ?_)
  · intro hc s ⟨hs, heq⟩
    subst heq
    exact ⟨hs, rfl, by simpa using hc⟩
  cases hsha : s₁.state.snapshotSha256 with
  | none => exact Triple.raise (fun _ h => h.1.stopped _)
  | some expected =>
    refine Triple.bind (require_triple (Q := fun _ s => Synced r K s₀ s ∧
      s.state.snapshotSha256 = some receipt.sha256 ∧
      (s.state.phase = .snapshotReady ∨ s.state.phase = .backupVerified)) ?_
      (fun _ s h => h.1.stopped _)) (fun _ => ?_)
    · intro hc s ⟨hs, heq, hph⟩
      subst heq
      have hd : receipt.sha256 = expected := by simpa using hc
      exact ⟨hs, by rw [hd]; exact hsha, hph⟩
    refine Triple.bind (Triple.update (Q := fun _ s => Synced r K s₀ s ∧
      s.state.snapshotSha256 = some receipt.sha256 ∧
      (s.state.phase = .snapshotReady ∨ s.state.phase = .backupVerified) ∧
      .acknowledged r.id receipt.sha256 ∈ s.host.trace) ?_) (fun _ => ?_)
    · intro s ⟨hs, hd, hph⟩
      refine ⟨hs.note _ ⟨rfl, ?_, ?_⟩, hd, hph, by simp⟩
      · rw [hs.2]; exact hd
      · rw [hs.2]; exact hph
    · exact save_answered (fun _ h => h.1)
        (fun s h => .acknowledge receipt.sha256 receipt.snapshot h.2.2.1 h.2.1 h.2.2.2)

theorem credential_synced {value : Option Key} (hK : ∀ key, value = some key → K key) :
    Triple (Synced r K s₀) (credential r value) (Answered r K s₀) (Stopped r K s₀) := by
  unfold credential
  refine Triple.bind session_read (fun s₁ => ?_)
  refine Triple.bind (require_triple (Q := fun _ s => Synced r K s₀ s ∧
    (s.state.phase = .backupVerified ∨ s.state.phase = .credentialReady)) ?_
    (fun _ s h => h.1.stopped _)) (fun _ => ?_)
  · intro hc s ⟨hs, heq⟩
    subst heq
    exact ⟨hs, by simpa using hc⟩
  refine Triple.bind require_synced (fun _ => ?_)
  cases value with
  | none => exact Triple.raise (fun s h => h.1.stopped _)
  | some key =>
    refine Triple.bind (onMachine_keeps
      (φ := fun j => j.phase = .backupVerified ∨ j.phase = .credentialReady)
      (fun _ _ => query_keeps)) (fun nonce => ?_)
    refine Triple.bind (onMachine_keeps
      (φ := fun j => j.phase = .backupVerified ∨ j.phase = .credentialReady)
      (fun _ _ => quiet_on quiet_mkdir)) (fun _ => ?_)
    refine Triple.bind (onMachine_synced
      (φ := fun j => j.phase = .backupVerified ∨ j.phase = .credentialReady)
      (ψ := fun _ m => .credentialStored r.id key ∈ m.trace)
      (fun j hj => storeCredential_on (hK key rfl) hj)) (fun _ => ?_)
    exact save_answered (fun _ h => h.1) (fun s h => .store key h.2.1 h.2.2)

theorem stagePackages_synced :
    Triple (fun s => Synced r K s₀ s ∧ s.state.phase = .credentialReady) (stagePackages r)
      (Answered r K s₀) (Stopped r K s₀) := by
  unfold stagePackages
  refine Triple.bind preflight_synced (fun _ => ?_)
  refine Triple.bind (onMachine_keeps (φ := fun j => j.phase = .credentialReady)
    (fun _ _ => query_keeps)) (fun found => ?_)
  refine Triple.bind require_synced (fun _ => ?_)
  refine Triple.bind (onMachine_keeps (φ := fun j => j.phase = .credentialReady)
    (fun _ _ => quiet_on (quiet_installBoot r))) (fun entry => ?_)
  refine Triple.bind session_read (fun s₁ => ?_)
  have hprepare : Triple (fun s => (Synced r K s₀ s ∧ s.state.phase = .credentialReady) ∧ s₁ = s)
      (save r .packageStaging (fun j => { j with bootBefore := some s₁.host.bootId }))
      (fun _ s => Synced r K s₀ s ∧
        (s.state.phase = .packageStaging ∧ s.state.bootBefore = some s₀.bootId))
      (Stopped r K s₀) := by
    refine (save_synced (fun s h => h.1.1) (fun s h => by rw [h.2]; exact .prepare h.1.2)).post ?_
    intro _ s ⟨hs, _, s', ⟨⟨hs', _⟩, heq⟩, hstate, hboot⟩
    subst heq
    rw [hstate]
    exact ⟨hs, rfl, by rw [← hs'.1.bootId]⟩
  refine Triple.bind hprepare (fun _ => ?_)
  refine Triple.bind (onMachine_synced
    (φ := fun j => j.phase = .packageStaging ∧ j.bootBefore = some s₀.bootId)
    (ψ := fun _ m => .staged (packagesDirectory r.id) m.bootId ∈ m.trace)
    (fun j hj => replayPackages_on hj.1 hj.2)) (fun _ => ?_)
  refine Triple.bind (save_phase (fun _ h => h.1) (fun s h => .stage h.2.1.1 h.2.2)) (fun _ => ?_)
  refine Triple.bind (onMachine_keeps (φ := fun j => j.phase = .rebootPending)
    (fun _ _ => look_keeps)) (fun _ => ?_)
  exact Triple.pure' (fun s h => ⟨h.1, h.2.symm⟩)

/-- The release may be closed: accepted on this boot, and on an earlier one. -/
def MayClose (r : Release) (s : Session) : Prop :=
  s.state.phase = .persistenceReboot ∧
    (∃ boot, s.state.runtimeBootBefore = some boot ∧ s.host.bootId ≠ boot) ∧
    .accepted r.id s.host.bootId ∈ s.host.trace

/-- The journal of a release whose packages are in place, and which waits for no reboot. -/
def MayRun (s₀ : Machine) (j : Journal) : Prop :=
  j.phase = .runtimePending ∨ j.phase = .runtimeInstalled ∨
    (j.phase = .persistenceReboot ∧ ∃ boot, j.runtimeBootBefore = some boot ∧ s₀.bootId ≠ boot)

/-- A quiet task keeps what the trace says of this boot. -/
theorem onMachine_quiet {x : Task Machine α} (hx : Quiet x) {φ : Journal → Prop} {e : String → Mark} :
    Triple (fun s => Synced r K s₀ s ∧ φ s.state ∧ e s.host.bootId ∈ s.host.trace) (onMachine x)
      (fun _ s => Synced r K s₀ s ∧ φ s.state ∧ e s.host.bootId ∈ s.host.trace)
      (Stopped r K s₀) := by
  refine onMachine_triple (fun j => ?_)
  refine (hx.keeps (I := fun m => On r K s₀ j m ∧ φ j ∧ e m.bootId ∈ m.trace) ?_).mono
    (fun _ h => h) (fun _ _ h => h) (fun e m h => Synced.stopped (s := ⟨m, j⟩) h.1 e)
  exact fun m m' hf h => ⟨h.1.frame hf, h.2.1, by rw [hf.bootId, hf.trace]; exact h.2.2⟩

theorem acceptRuntime_synced :
    Triple (fun s => Synced r K s₀ s ∧ MayRun s₀ s.state) (acceptRuntime r)
      (fun answer s => match answer with
        | some reply => Answered r K s₀ reply s
        | none => Synced r K s₀ s ∧ MayClose r s) (Stopped r K s₀) := by
  unfold acceptRuntime
  refine Triple.bind session_read (fun s₁ => ?_)
  have haccept : ∀ φ : Journal → Prop, Triple (fun s => Synced r K s₀ s ∧ φ s.state)
      (onMachine (acceptance r)) (fun _ s => Synced r K s₀ s ∧ φ s.state ∧
        .accepted r.id s.host.bootId ∈ s.host.trace) (Stopped r K s₀) :=
    fun φ => onMachine_synced (ψ := fun _ m => .accepted r.id m.bootId ∈ m.trace)
      (fun _ _ => acceptance_on)
  have hinstall : Triple (fun s => Synced r K s₀ s ∧
      (s.state.phase = .runtimePending ∨ s.state.phase = .runtimeInstalled) ∧ s₁ = s)
      (onlyIf (s₁.state.phase = .runtimePending) (do
        onMachine (installRuntime r)
        let _ ← save r .runtimeInstalled))
      (fun _ s => Synced r K s₀ s ∧ s.state.phase = .runtimeInstalled) (Stopped r K s₀) := by
    refine onlyIf_triple (fun hp => ?_) (fun hp s h => ?_)
    · refine Triple.bind ((onMachine_keeps (φ := fun j => j.phase = .runtimePending)
        (fun j hj => installRuntime_on hj)).pre ?_) (fun _ => ?_)
      · exact fun s h => ⟨h.1, by rw [← h.2.2]; simpa using hp⟩
      refine Triple.bind (save_phase (fun _ h => h.1) (fun s h => .install h.2)) (fun _ => ?_)
      exact Triple.pure' (fun _ h => h)
    · obtain ⟨hs, hph, heq⟩ := h
      subst heq
      exact ⟨hs, hph.resolve_left (by simpa using hp)⟩
  have hfirst : Triple (fun s => (Synced r K s₀ s ∧ MayRun s₀ s.state) ∧ s₁ = s ∧
      s₁.state.phase ≠ .persistenceReboot) (do
        onlyIf (s₁.state.phase = .runtimePending) do
          onMachine (installRuntime r)
          let _ ← save r .runtimeInstalled
        onMachine (acceptance r)
        let s ← Proc.read
        let _ ← save r .persistenceReboot
          (fun j => { j with runtimeBootBefore := some s.host.bootId })
        onMachine scheduleReboot
        pure (some { stage := .persistenceReboot }))
      (fun answer s => match answer with
        | some reply => Answered r K s₀ reply s
        | none => Synced r K s₀ s ∧ MayClose r s) (Stopped r K s₀) := by
    refine Triple.bind (hinstall.pre ?_) (fun _ => ?_)
    · intro s ⟨⟨hs, hrun⟩, heq, hne⟩
      refine ⟨hs, ?_, heq⟩
      rcases hrun with h | h | h
      · exact .inl h
      · exact .inr h
      · rw [heq] at hne; exact absurd h.1 hne
    refine Triple.bind (haccept (fun j => j.phase = .runtimeInstalled)) (fun _ => ?_)
    refine Triple.bind session_read (fun s₂ => ?_)
    refine Triple.bind (save_phase (fun _ h => h.1.1) (fun s h => by
      rw [h.2]; exact .persist h.1.2.1 h.1.2.2)) (fun _ => ?_)
    refine Triple.bind (onMachine_keeps (φ := fun j => j.phase = .persistenceReboot)
      (fun _ _ => look_keeps)) (fun _ => ?_)
    exact Triple.pure' (fun s h => ⟨h.1, h.2.symm⟩)
  have hsecond : Triple (fun s => (Synced r K s₀ s ∧ MayRun s₀ s.state) ∧ s₁ = s ∧
      s₁.state.phase = .persistenceReboot) (do
        onMachine (waitHealth r.image)
        onMachine (acceptance r)
        preflight
        pure none)
      (fun answer s => match answer with
        | some reply => Answered r K s₀ reply s
        | none => Synced r K s₀ s ∧ MayClose r s) (Stopped r K s₀) := by
    refine Triple.bind ((onMachine_keeps
      (φ := fun j => j.phase = .persistenceReboot ∧ ∃ boot, j.runtimeBootBefore = some boot ∧
        s₀.bootId ≠ boot) (fun _ _ => quiet_on (services_waitHealth _).quiet)).pre ?_) (fun _ => ?_)
    · intro s ⟨⟨hs, hrun⟩, heq, hp⟩
      rw [heq] at hp
      refine ⟨hs, ?_⟩
      rcases hrun with h | h | h
      · rw [hp] at h; cases h
      · rw [hp] at h; cases h
      · exact h
    refine Triple.bind (haccept (fun j => j.phase = .persistenceReboot ∧
      ∃ boot, j.runtimeBootBefore = some boot ∧ s₀.bootId ≠ boot)) (fun _ => ?_)
    refine Triple.bind preflight_synced (fun _ => Triple.pure' (fun s h => ⟨h.1, h.2.1.1, ?_, h.2.2⟩))
    obtain ⟨hs, ⟨_, boot, hb, hne⟩, _⟩ := h
    exact ⟨boot, hb, by rw [hs.1.bootId]; exact hne⟩
  split
  · next hp => exact hsecond.pre (fun s h => ⟨h.1, h.2, hp⟩)
  · next hp => exact hfirst.pre (fun s h => ⟨h.1, h.2, hp⟩)

theorem advanceRuntime_synced :
    Triple (fun s => Synced r K s₀ s ∧ MayRun s₀ s.state) (advanceRuntime r)
      (Answered r K s₀) (Stopped r K s₀) := by
  unfold advanceRuntime
  refine Triple.bind (Triple.handle acceptRuntime_synced (fun e => ?_)) (fun answer => ?_)
  · refine Triple.ite (fun hf => ?_) (fun _ => Triple.raise (fun _ h => h))
    refine Triple.bind (rollback_synced.pre (fun s h => h.2 hf)) (fun _ => ?_)
    exact Triple.raise (fun s h => h.1.stopped _)
  · cases answer with
    | some reply => exact Triple.pure' (fun _ h => h)
    | none =>
      have hunlink : Quiet (atomic fun _ s => s.setSnapshot r.id none) :=
        quiet_atomic (fun _ _ => ⟨rfl, rfl, rfl, rfl, rfl⟩)
      refine Triple.bind ((onMachine_quiet hunlink
        (φ := fun j => j.phase = .persistenceReboot ∧ ∃ boot, j.runtimeBootBefore = some boot ∧
          s₀.bootId ≠ boot) (e := .accepted r.id)).pre ?_) (fun _ => ?_)
      · intro s ⟨hs, hp, ⟨boot, hb, hne⟩, hmark⟩
        exact ⟨hs, ⟨hp, boot, hb, by rw [← hs.1.bootId]; exact hne⟩, hmark⟩
      · refine save_answered (fun _ h => h.1) (fun s h => ?_)
        obtain ⟨hs, ⟨hp, boot, hb, hne⟩, hmark⟩ := h
        exact .close boot hp hb (by rw [hs.1.bootId]; exact hne) hmark

theorem confirmPackages_synced (boot : String) (hne : s₀.bootId ≠ boot) :
    Triple (fun s => Synced r K s₀ s ∧ s.state.phase = .rebootPending ∧
      s.state.bootBefore = some boot) (confirmPackages r) (Answered r K s₀) (Stopped r K s₀) := by
  unfold confirmPackages
  refine Triple.bind (onMachine_keeps
    (φ := fun j => j.phase = .rebootPending ∧ j.bootBefore = some boot)
    (fun _ _ => quiet_on stays_instant)) (fun _ => ?_)
  refine Triple.bind (onMachine_synced
    (φ := fun j => j.phase = .rebootPending ∧ j.bootBefore = some boot)
    (ψ := fun d m => d = digest m.inventory) (fun _ _ => packageBaseline_triple)) (fun found => ?_)
  refine Triple.bind (require_triple (Q := fun _ s => Synced r K s₀ s ∧
    (s.state.phase = .rebootPending ∧ s.state.bootBefore = some boot) ∧
    digest s.host.inventory = r.installedAfter) ?_ (fun _ s h => h.1.stopped _)) (fun _ => ?_)
  · intro hc s ⟨hs, hj, hd⟩
    exact ⟨hs, hj, by rw [← hd]; simpa using hc⟩
  have hcomplete : Triple (fun s => Synced r K s₀ s ∧
      (s.state.phase = .rebootPending ∧ s.state.bootBefore = some boot) ∧
      digest s.host.inventory = r.installedAfter)
      (onMachine (requireComplete (packagesDirectory r.id) r.baseline))
      (fun _ s => Synced r K s₀ s ∧
        ((s.state.phase = .rebootPending ∧ s.state.bootBefore = some boot) ∧
        digest s.host.inventory = r.installedAfter) ∧
        s.host.replayed (packagesDirectory r.id) r.baseline = true) (Stopped r K s₀) := by
    refine onMachine_triple (fun j => ?_)
    exact requireComplete_triple.mono (fun _ h => h) (fun _ _ h => ⟨h.1.1, h.1.2, h.2⟩)
      (fun e m h => Synced.stopped (s := ⟨m, j⟩) h.1 e)
  refine Triple.bind hcomplete (fun _ => Triple.bind preflight_synced (fun _ => ?_))
  refine Triple.bind (save_phase (fun _ h => h.1) (fun s h => ?_)) (fun _ => ?_)
  · obtain ⟨hs, ⟨⟨hp, hb⟩, hd⟩, hr⟩ := h
    exact .confirm boot hp hb (by rw [hs.1.bootId]; exact hne) hd hr
  · exact advanceRuntime_synced.pre (fun s h => ⟨h.1, .inl h.2⟩)

theorem advance_synced : Triple (Synced r K s₀) (advance r) (Answered r K s₀) (Stopped r K s₀) := by
  unfold advance
  refine Triple.bind session_read (fun s₁ => ?_)
  refine Triple.given (φ := s₁.host.bootId = s₀.bootId)
    (fun s h => by rw [h.2]; exact h.1.1.bootId) (fun hboot => ?_)
  split
  · next hp =>
    refine Triple.bind ((onMachine_keeps (φ := fun j => j.phase = .closed)
      (fun _ _ => quiet_on (services_healthy _).quiet)).pre ?_) (fun _ => ?_)
    · exact fun s h => ⟨h.1, by rw [← h.2]; exact hp⟩
    · exact save_answered (fun _ h => h.1) (fun s h => .reclose h.2)
  · next hp => exact stagePackages_synced.pre (fun s h => ⟨h.1, by rw [← h.2]; exact hp⟩)
  · next hp =>
    cases hb : s₁.state.bootBefore with
    | none => exact Triple.raise (fun s h => h.1.stopped _)
    | some boot =>
      refine Triple.ite (fun _ => Triple.pure' (fun s h => ⟨h.1, ?_⟩)) (fun hne => ?_)
      · rw [← h.2]; exact hp.symm
      · refine (confirmPackages_synced boot (by rw [← hboot]; exact hne)).pre ?_
        exact fun s h => ⟨h.1, by rw [← h.2]; exact hp, by rw [← h.2]; exact hb⟩
  · next hp =>
    cases hb : s₁.state.runtimeBootBefore with
    | none => exact Triple.raise (fun s h => h.1.stopped _)
    | some boot =>
      refine Triple.ite (fun _ => Triple.pure' (fun s h => ⟨h.1, ?_⟩)) (fun hne => ?_)
      · rw [← h.2]; exact hp.symm
      · refine advanceRuntime_synced.pre (fun s h => ⟨h.1, .inr (.inr ?_)⟩)
        rw [← h.2]
        exact ⟨hp, boot, hb, by rw [← hboot]; exact hne⟩
  · next hp => exact advanceRuntime_synced.pre (fun s h => ⟨h.1, .inl (by rw [← h.2]; exact hp)⟩)
  · next hp =>
    exact advanceRuntime_synced.pre (fun s h => ⟨h.1, .inr (.inl (by rw [← h.2]; exact hp))⟩)
  · exact Triple.raise (fun s h => h.1.stopped _)

theorem hostStatus_synced : Triple (Synced r K s₀) (hostStatus r) (Answered r K s₀) (Stopped r K s₀) := by
  unfold hostStatus
  refine Triple.bind ((preflight_synced (φ := fun _ => True)).pre (fun _ h => ⟨h, trivial⟩))
    (fun _ => Triple.bind session_read (fun s₁ => ?_))
  refine Triple.bind (Q := fun _ s => Synced r K s₀ s ∧ s.state = s₁.state)
    (onlyIf_triple (fun _ => ?_) (fun _ s h => ⟨h.1.1, by rw [h.2]⟩)) (fun _ => ?_)
  · refine (onMachine_keeps (φ := fun j => j = s₁.state)
      (fun _ _ => quiet_on (services_healthy _).quiet)).pre ?_
    exact fun s h => ⟨h.1.1, by rw [h.2]⟩
  · exact Triple.pure' (fun s h => ⟨h.1, by rw [h.2]⟩)

theorem backupGuard_synced :
    Triple (Synced r K s₀) (backupGuard r) (Answered r K s₀) (Stopped r K s₀) := by
  unfold backupGuard
  refine Triple.bind session_read (fun s₁ => Triple.ite (fun _ => ?_) (fun _ => ?_))
  · exact rollback_synced.pre (fun _ h => h.1)
  · exact Triple.pure' (fun s h => ⟨h.1, by rw [h.2]⟩)

/-- The keys that an action hands to the host. -/
def Action.hands : Action → Key → Prop
  | .credential (some key), k => k = key
  | _, _ => False

theorem hostMain_synced {a : Action} (hK : ∀ key, a.hands key → K key) :
    Triple (Synced r K s₀) (hostMain r a) (Answered r K s₀) (Stopped r K s₀) := by
  cases a with
  | backupGuard => exact backupGuard_synced
  | snapshot => exact snapshotData_synced
  | backupVerified receipt => exact acknowledgeBackup_synced
  | credential value =>
    refine credential_synced (fun key hkey => hK key ?_)
    rw [hkey]
    rfl
  | rollback => exact rollback_synced
  | check | status => exact hostStatus_synced
  | deploy | upgrade => exact advance_synced

end Stages

/-- Every run of the host entry point, wherever it stops, is a sequence of host steps;
    one that answers names the phase of the journal on disk. -/
theorem invoke_moves (r : Release) (a : Action) (s₀ : Machine) :
    Triple (fun m => m = s₀) (invoke r a)
      (fun reply m => Moves r a.hands s₀ m ∧ reply.stage = (m.journalOf r.id).phase)
      (fun _ m => Moves r a.hands s₀ m) := by
  unfold invoke runHost
  refine Triple.bind (Triple.read (Q := fun m₀ m => m₀ = s₀ ∧ m = s₀) (fun _ h => ⟨h, h⟩))
    (fun m₀ => Triple.given (fun _ h => h.1) (fun hm₀ => ?_))
  subst hm₀
  have hmain : Triple (Synced r a.hands m₀) (hostMain r a) (Answered r a.hands m₀)
      (Stopped r a.hands m₀) := hostMain_synced (fun _ h => h)
  refine Triple.zoom m₀ hmain ?_ ?_ ?_
  · exact fun s h => ⟨h.2, by rw [h.2]; exact ⟨.refl, rfl⟩⟩
  · exact fun reply s h => ⟨h.1.1, by rw [h.2, h.1.2]⟩
  · exact fun _ s h => h.1

end Hermes

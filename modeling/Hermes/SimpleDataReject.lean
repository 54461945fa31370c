import Hermes.SimpleDataBackup

/- Restoring an archive that cannot be restored: `restore` checks the members by themselves
   before it removes anything, but not what they do to each other and to what stays. It leaves
   the tree as it was if and only if the archive is refused, or can be applied, or fails before
   it has changed anything (`rejects_before_iff`). -/
namespace Hermes.SimpleData
open Entries

/-! ## Accepted members -/

theorem fits_above {p q : Path} (h : fits p = true) (hq : q <+: p) : fits q = true := by
  obtain ⟨r, rfl⟩ := hq
  simp only [fits, List.all_append, List.map_append, List.sum_append, Bool.and_eq_true, decide_eq_true_eq] at h ⊢
  exact ⟨h.1.1, by omega⟩

/-- What `members` asks of a member: a public file or directory. -/
theorem membersFrom_public {ms : List Member} {total : Nat} {seen : List String} (h : membersFrom total seen ms = .ok ()) :
    ∀ m ∈ ms, isPrivate m.path = false := by
  induction ms generalizing total seen with
  | nil => exact fun m hm => absurd hm List.not_mem_nil
  | cons m ms ih =>
    simp only [membersFrom] at h
    split at h
    · cases h
    · next hsafe =>
      split at h
      · cases h
      · split at h
        · cases h
        · intro k hk
          rcases List.mem_cons.mp hk with rfl | hk
          · simp only [Bool.or_eq_true, not_or, Bool.not_eq_true] at hsafe
            have hroot : (PurePath.parse k.name).root = "" := by
              have hrelative := hsafe.1.1
              simpa [PurePath.isAbsolute] using hrelative
            have hpublic := hsafe.2
            rwa [PurePath.parts, if_pos hroot] at hpublic
          · exact ih h k hk

theorem isPrivate_above {p q : Path} (h : isPrivate p = false) (hq : q <+: p) : isPrivate q = false := by
  rw [isPrivate, List.any_eq_false] at h ⊢
  exact fun c hc => h c (hq.subset hc)

/-! ## Archives that can be applied -/

/-- No member is in the way of another one or of what stays. -/
def Applicable (t : Data) (entries : List Member) : Prop :=
  ∀ m ∈ entries, fits m.path = true ∧ (m.type ≠ .directory →
    m.complete = true ∧ m.path ≠ [] ∧ ¬t.Holds isPrivate m.path ∧
      ∀ k ∈ entries, m.path <+: k.path → k.path = m.path ∧ k.type ≠ .directory)

/-- What is there while the members are applied: directories of the tree or of members, and
    files of members. -/
structure Applying (t : Data) (entries : List Member) (s : Data) : Prop where
  root : s.isDirAt [] = true
  dirs : ∀ q, s.isDirAt q = true → (clear t).isDirAt q = true ∨
    ∃ k ∈ entries, q <+: k.path ∧ (q = k.path → k.type = .directory)
  files : ∀ q, isPrivate q = false → s.node q ≠ none → s.isDirAt q = false →
    isFileAt s q = true ∧ ∃ k ∈ entries, k.type ≠ .directory ∧ k.path = q

section Applying
variable {umask : Nat} {t s s' : Data} {entries : List Member} {m : Member}

theorem applying_clear (hroot : t.isDirAt [] = true) : Applying t entries (clear t) where
  root := by
    rw [Tree.isDirAt, clear, Tree.sweep_root]
    exact hroot
  dirs _ h := Or.inl h
  files q hq hne hnot := by
    by_cases hnil : q = []
    · rw [hnil, Tree.isDirAt, clear, Tree.sweep_root] at hnot
      rw [Tree.isDirAt, hnot] at hroot
      cases hroot
    · rw [(clear_node hnil hq hne).2] at hnot
      cases hnot

/-- A directory that stays, below the root, holds something private. -/
theorem holds_of_clear {p : Path} (hp : p ≠ []) (hpublic : isPrivate p = false) (h : (clear t).isDirAt p = true) :
    t.Holds isPrivate p := (clear_node hp hpublic (Tree.ne_none_of_isDirAt h)).1

/-- Nothing is in the way of the members of an applicable archive. -/
theorem Applying.canApply (h : Applying t entries s) (happlicable : Applicable t entries)
    (hpublic : ∀ k ∈ entries, isPrivate k.path = false) (hm : m ∈ entries) : CanApply s m := by
  obtain ⟨hfits, hfile⟩ := happlicable m hm
  -- what is not a directory on the way to the member is a file of the archive
  have hway : ∀ q, q <+: m.path → q ≠ m.path → s.node q ≠ none → s.isDirAt q = true := by
    intro q hq hne hnode
    by_contra hnot
    obtain ⟨_, k, hk, hktype, rfl⟩ := h.files q (isPrivate_above (hpublic m hm) hq) hnode (by simpa using hnot)
    exact hne (((happlicable k hk).2 hktype).2.2.2 m hm hq).1.symm
  have hplace : s.node m.path ≠ none → s.isDirAt m.path = false →
      isFileAt s m.path = true ∧ ∃ k ∈ entries, k.type ≠ .directory ∧ k.path = m.path := h.files m.path (hpublic m hm)
  constructor
  · rw [anyLink, List.any_eq_false]
    intro q hq
    rw [List.mem_inits] at hq
    cases hn : s.node q with
    | none => simp
    | some n =>
      cases n with
      | link stat =>
        have hnot : s.isDirAt q = false := by rw [Tree.isDirAt, hn]; rfl
        have hlink := (h.files q (isPrivate_above (hpublic m hm) hq) (by simp [hn]) hnot).1
        rw [isFileAt, hn] at hlink
        cases hlink
      | file | dir | special => simp
  · refine Tree.clearWay_iff.mpr fun q hq => ?_
    have hinitial := hq.trans (List.dropLast_prefix m.path)
    refine ⟨fits_above hfits hinitial, fun hne => ?_⟩
    by_cases hnil : m.path = []
    · rw [hnil] at hq
      rw [List.prefix_nil.mp hq]
      exact h.root
    · refine hway q hinitial (fun heq => ?_) hne
      have hlength := hq.length_le
      have hpos := List.length_pos_iff.mpr hnil
      rw [heq, List.length_dropLast] at hlength
      omega
  · intro hdir
    by_cases hnone : s.node m.path = none
    · exact Or.inr ⟨hnone, hfits⟩
    · left
      by_contra hnot
      obtain ⟨_, k, hk, hktype, hkpath⟩ := hplace hnone (by simpa using hnot)
      have hinitial : k.path <+: m.path := by rw [hkpath]
      exact (((happlicable k hk).2 hktype).2.2.2 m hm hinitial).2 hdir
  · intro hnotdir
    obtain ⟨hcomplete, hne, hfree, hothers⟩ := hfile hnotdir
    refine ⟨hcomplete, ?_⟩
    by_cases hnone : s.node m.path = none
    · exact Or.inr ⟨hnone, hfits⟩
    · left
      have hnot : s.isDirAt m.path = false := by
        by_contra hdir
        rcases h.dirs m.path (by simpa using hdir) with hclear | ⟨k, hk, hinitial, hkdir⟩
        · exact hfree (holds_of_clear hne (hpublic m hm) hclear)
        · obtain ⟨hkpath, hktype⟩ := hothers k hk hinitial
          exact hktype (hkdir hkpath.symm)
      exact (hplace hnone hnot).1

/-- The member is applied. -/
theorem Applying.step (h : Applying t entries s) (hm : m ∈ entries) (hstep : applyEntry umask s m = .ok s') :
    Applying t entries s' := by
  have happlied := applyEntry_ok h.root hstep
  have hgrown : GrownTree s s' := by
    have hgrown : GrownTree s (left (applyEntry umask s m)) := applyEntry_grown
    rw [hstep] at hgrown
    exact hgrown
  -- elsewhere, something is as it was or a directory on the way to the member
  have hothers : ∀ q, q ≠ m.path → s'.node q ≠ none →
      s'.node q = s.node q ∨ (s'.isDirAt q = true ∧ q <+: m.path) := by
    intro q hq hne
    have hnode := happlied.others q hq
    split at hnode
    · next hinitial =>
      cases hn : s.node q with
      | none =>
        right
        rw [Tree.isDirAt, hnode, hn]
        exact ⟨rfl, hinitial.trans (List.dropLast_prefix _)⟩
      | some n =>
        left
        rw [hnode, hn]
        rfl
    · exact Or.inl hnode
  refine ⟨hgrown.isDirAt h.root, fun q hq => ?_, fun q hq hne hnot => ?_⟩
  · by_cases hqm : q = m.path
    · by_cases htype : m.type = .directory
      · exact Or.inr ⟨m, hm, by rw [hqm], fun _ => htype⟩
      · obtain ⟨stat, hstat⟩ := happlied.file htype
        rw [hqm, Tree.isDirAt, hstat] at hq
        cases hq
    · rcases hothers q hqm (Tree.ne_none_of_isDirAt hq) with hsame | ⟨_, hinitial⟩
      · apply h.dirs q
        rw [Tree.isDirAt, ← hsame]
        exact hq
      · exact Or.inr ⟨m, hm, hinitial, fun heq => absurd heq hqm⟩
  · by_cases hqm : q = m.path
    · by_cases htype : m.type = .directory
      · obtain ⟨stat, hstat, _⟩ := happlied.directory htype
        rw [hqm, Tree.isDirAt, hstat] at hnot
        cases hnot
      · obtain ⟨stat, hstat⟩ := happlied.file htype
        refine ⟨?_, m, hm, htype, hqm.symm⟩
        rw [hqm, isFileAt, hstat]
        rfl
    · rcases hothers q hqm hne with hsame | ⟨hdir, _⟩
      · rw [hsame] at hne
        rw [Tree.isDirAt, hsame] at hnot
        rw [isFileAt, hsame]
        exact h.files q hq hne hnot
      · rw [hnot] at hdir
        cases hdir

theorem applyEntry_ok_grown (h : applyEntry umask s m = .ok s') : GrownTree s s' := by
  have hgrown : GrownTree s (left (applyEntry umask s m)) := applyEntry_grown
  rw [h] at hgrown
  exact hgrown

theorem applyEntry_error_grown {e : Error × Data} (h : applyEntry umask s m = .error e) : GrownTree s e.2 := by
  have hgrown : GrownTree s (left (applyEntry umask s m)) := applyEntry_grown
  rw [h] at hgrown
  exact hgrown

theorem run_grown {l : List Member} (h : l.foldlM (applyEntry umask) s = .ok s') : GrownTree s s' := by
  induction l generalizing s with
  | nil =>
    cases h
    exact GrownTree.refl _
  | cons m l ih =>
    obtain ⟨s₁, hs₁, h⟩ := Outcome.foldlM_cons_ok.mp h
    exact (applyEntry_ok_grown hs₁).trans (ih h)

/-- An applicable archive is applied. -/
theorem Applying.run {l : List Member} (h : Applying t entries s) (happlicable : Applicable t entries)
    (hpublic : ∀ k ∈ entries, isPrivate k.path = false) (hl : l ⊆ entries) :
    ∃ s', l.foldlM (applyEntry umask) s = .ok s' := by
  induction l generalizing s with
  | nil => exact ⟨_, rfl⟩
  | cons m l ih =>
    have hm : m ∈ entries := hl List.mem_cons_self
    obtain ⟨s₁, hs₁⟩ : ∃ s₁, applyEntry umask s m = .ok s₁ :=
      (applyEntry_isOk h.root).mpr (h.canApply happlicable hpublic hm)
    obtain ⟨s₂, hs₂⟩ := ih (h.step hm hs₁) fun k hk => hl (List.mem_cons_of_mem _ hk)
    exact ⟨s₂, Outcome.foldlM_cons_ok.mpr ⟨s₁, hs₁, hs₂⟩⟩

/-- A directory is in a file's way, and a file in that of what is below it. -/
theorem canApply_file {p : Path} (h : CanApply s m) (hp : isFileAt s p = true) (hinitial : p <+: m.path) :
    p = m.path ∧ m.type ≠ .directory := by
  have hnotdir := not_dir_of_file hp
  have hne : s.node p ≠ none := by
    obtain ⟨stat, content, hn⟩ := isFileAt_iff.mp hp
    simp [hn]
  have heq : p = m.path := by
    by_contra hne'
    have hdir := (Tree.clearWay_iff.mp h.way p (prefix_dropLast hinitial hne')).2 hne
    rw [hnotdir] at hdir
    cases hdir
  refine ⟨heq, fun htype => ?_⟩
  rcases h.directory htype with hdir | ⟨hnone, _⟩
  · rw [← heq, hnotdir] at hdir
    cases hdir
  · exact hne (heq ▸ hnone)

theorem canApply_not_dir (h : CanApply s m) (htype : m.type ≠ .directory) : s.isDirAt m.path = false := by
  rcases (h.file htype).2 with hfile | ⟨hnone, _⟩
  · exact not_dir_of_file hfile
  · rw [Tree.isDirAt, hnone]
    rfl

/-- What has been applied is a file or a directory, and so is what is above it. -/
theorem applied_dir {p : Path} (hroot : s.isDirAt [] = true) (h : applyEntry umask s m = .ok s') (hinitial : p <+: m.path)
    (hdir : p = m.path → m.type = .directory) : s'.isDirAt p = true := by
  have happlied := applyEntry_ok hroot h
  have hpath : s'.node m.path ≠ none := by
    by_cases htype : m.type = .directory
    · obtain ⟨stat, hstat, _⟩ := happlied.directory htype
      simp [hstat]
    · obtain ⟨stat, hstat⟩ := happlied.file htype
      simp [hstat]
  by_cases heq : p = m.path
  · obtain ⟨stat, hstat, _⟩ := happlied.directory (hdir heq)
    rw [heq]
    exact isDirAt_iff.mpr ⟨_, hstat⟩
  · exact Tree.above_of_initial hinitial heq hpath

/-- **An archive is applied exactly if it is applicable.** -/
theorem applied_iff (hroot : t.isDirAt [] = true) (hpublic : ∀ k ∈ entries, isPrivate k.path = false) :
    (∃ s, entries.foldlM (applyEntry umask) (clear t) = .ok s) ↔ Applicable t entries := by
  constructor
  · rintro ⟨r, hr⟩ m hm
    obtain ⟨before, after, hsplit⟩ := List.append_of_mem hm
    rw [hsplit] at hr
    obtain ⟨s₁, hs₁, hrest⟩ := Outcome.foldlM_append_ok.mp hr
    obtain ⟨s₂, hs₂, hafter⟩ := Outcome.foldlM_cons_ok.mp hrest
    have hclear : (clear t).isDirAt [] = true := by
      rw [Tree.isDirAt, clear, Tree.sweep_root]
      exact hroot
    have hroot₁ : s₁.isDirAt [] = true := (run_grown hs₁).isDirAt hclear
    have hcan := (applyEntry_isOk hroot₁).mp ⟨s₂, hs₂⟩
    constructor
    · by_cases htype : m.type = .directory
      · rcases hcan.directory htype with hdir | ⟨_, hfits⟩
        · exact s₁.fitting _ (Tree.ne_none_of_isDirAt hdir)
        · exact hfits
      · rcases (hcan.file htype).2 with hfile | ⟨_, hfits⟩
        · obtain ⟨stat, content, hn⟩ := isFileAt_iff.mp hfile
          exact s₁.fitting _ (by simp [hn])
        · exact hfits
    · intro htype
      have hnotdir := canApply_not_dir hcan htype
      have hne : m.path ≠ [] := by
        intro hnil
        rw [hnil, hroot₁] at hnotdir
        cases hnotdir
      refine ⟨(hcan.file htype).1, hne, fun hholds => ?_, fun k hk hinitial => ?_⟩
      · have hdir : (clear t).isDirAt m.path = true := by
          obtain ⟨q, hpq, hq, hqne⟩ := hholds
          refine (clear_node hne (hpublic m hm) ?_).2
          rw [clear, Tree.sweep_holds ⟨q, hpq, hq, hqne⟩]
          have hpq' : m.path ≠ q := by
            rintro rfl
            rw [hpublic m hm] at hq
            cases hq
          exact Tree.ne_none_of_isDirAt (Tree.above_of_initial hpq hpq' hqne)
        rw [(run_grown hs₁).isDirAt hdir] at hnotdir
        cases hnotdir
      · -- the other member is applied before, or after
        rw [hsplit] at hk
        rcases List.mem_append.mp hk with hk | hk
        · by_contra hother
          obtain ⟨before', between, rfl⟩ := List.append_of_mem hk
          obtain ⟨u₁, hu₁, hrest'⟩ := Outcome.foldlM_append_ok.mp hs₁
          obtain ⟨u₂, hu₂, hbetween⟩ := Outcome.foldlM_cons_ok.mp hrest'
          have hdir : u₂.isDirAt m.path = true := by
            refine applied_dir ((run_grown hu₁).isDirAt hclear) hu₂ hinitial fun heq => ?_
            by_contra hktype
            exact hother ⟨heq.symm, hktype⟩
          rw [(run_grown hbetween).isDirAt hdir] at hnotdir
          cases hnotdir
        · rcases List.mem_cons.mp hk with rfl | hk
          · exact ⟨rfl, htype⟩
          · obtain ⟨between, after', rfl⟩ := List.append_of_mem hk
            obtain ⟨u₁, hu₁, hrest'⟩ := Outcome.foldlM_append_ok.mp hafter
            obtain ⟨u₂, hu₂, _⟩ := Outcome.foldlM_cons_ok.mp hrest'
            obtain ⟨stat, hstat⟩ := (applyEntry_ok hroot₁ hs₂).file htype
            have hfile : isFileAt u₁ m.path = true :=
              (run_grown hu₁).isFileAt (isFileAt_iff.mpr ⟨_, _, hstat⟩)
            have hroot' : u₁.isDirAt [] = true :=
              (run_grown hu₁).isDirAt ((applyEntry_ok_grown hs₂).isDirAt hroot₁)
            obtain ⟨heq, hktype⟩ := canApply_file ((applyEntry_isOk hroot').mp ⟨u₂, hu₂⟩) hfile hinitial
            exact ⟨heq.symm, hktype⟩
  · intro happlicable
    exact (applying_clear hroot).run happlicable hpublic (List.Subset.refl entries)

/-! ## Archives that change nothing -/

/-- The member fails before it makes anything: a file where a directory is, or a name that the
    system does not accept, below directories that are there. -/
def Stuck (t : Data) (m : Member) : Prop :=
  (m.type ≠ .directory ∧ t.isDirAt m.path = true) ∨
    (fits m.path = false ∧ (fits m.path.dropLast = false ∨ t.isDirAt m.path.dropLast = true))

/-- The members before the first that cannot be applied are directories that are there, with
    the mode and owner that the last member for each gives it. -/
structure Idle (t : Data) (before : List Member) : Prop where
  there : ∀ k ∈ before, k.type = .directory ∧ t.isDirAt k.path = true
  last : ∀ earlier k later, before = earlier ++ k :: later → (∀ l ∈ later, l.path ≠ k.path) →
    ∃ stat, t.node k.path = some (.dir stat) ∧ stat.own k.mode = stat

/-- Everything public is a directory that holds something private, and the first member that
    cannot be applied comes after idle ones and is stuck. -/
def Untouched (t : Data) (entries : List Member) : Prop :=
  (∀ p, p ≠ [] → isPrivate p = false → t.node p ≠ none → t.Holds isPrivate p) ∧
    ∃ before m after, entries = before ++ m :: after ∧ Idle t before ∧ Stuck t m

theorem own_own (stat : Stat) (mode mode' : Nat) : (stat.own mode).own mode' = stat.own mode' := rfl

/-- A directory that is there is applied, and nothing else changes. -/
theorem apply_there (hdir : m.type = .directory) (hthere : s.isDirAt m.path = true) :
    ∃ s' stat, applyEntry umask s m = .ok s' ∧ s.node m.path = some (.dir stat) ∧
      s'.node m.path = some (.dir (stat.own m.mode)) ∧ ∀ q, q ≠ m.path → s'.node q = s.node q := by
  have hroot : s.isDirAt [] = true := isDirAt_above hthere List.nil_prefix
  have hparent : s.isDirAt m.path.dropLast = true := isDirAt_above hthere (List.dropLast_prefix _)
  have hcan : CanApply s m := by
    refine ⟨anyLink_of_isDirAt hparent fun stat hstat => ?_, clearWay_of_isDirAt hparent, fun _ => Or.inl hthere,
      fun hne => absurd hdir hne⟩
    rw [Tree.isDirAt, hstat] at hthere
    cases hthere
  obtain ⟨s', hs'⟩ : ∃ s', applyEntry umask s m = .ok s' := (applyEntry_isOk hroot).mpr hcan
  have happlied := applyEntry_ok hroot hs'
  obtain ⟨stat, hstat, hold⟩ := happlied.directory hdir
  exact ⟨s', stat, hs', hold hthere, hstat, fun q hq => happlied.same hparent hq⟩

/-- Idle members are applied; the last for each directory decides. -/
theorem run_there {before : List Member} (hthere : ∀ k ∈ before, k.type = .directory ∧ s.isDirAt k.path = true) :
    ∃ s', before.foldlM (applyEntry umask) s = .ok s' ∧
      (∀ q, (∀ k ∈ before, k.path ≠ q) → s'.node q = s.node q) ∧
      ∀ earlier k later, before = earlier ++ k :: later → (∀ l ∈ later, l.path ≠ k.path) →
        ∃ stat, s.node k.path = some (.dir stat) ∧ s'.node k.path = some (.dir (stat.own k.mode)) := by
  induction before generalizing s with
  | nil => exact ⟨s, rfl, fun _ _ => rfl, fun earlier k later h => by simp at h⟩
  | cons m before ih =>
    obtain ⟨hdir, hm⟩ := hthere m List.mem_cons_self
    obtain ⟨s₁, stat, hs₁, hstat, hnew, hothers⟩ : ∃ s₁ stat, applyEntry umask s m = .ok s₁ ∧
      s.node m.path = some (.dir stat) ∧ s₁.node m.path = some (.dir (stat.own m.mode)) ∧
      ∀ q, q ≠ m.path → s₁.node q = s.node q := apply_there hdir hm
    have hgrown := applyEntry_ok_grown hs₁
    obtain ⟨s', hs', hrest, hlast⟩ := ih fun k hk =>
      ⟨(hthere k (List.mem_cons_of_mem _ hk)).1, hgrown.isDirAt (hthere k (List.mem_cons_of_mem _ hk)).2⟩
    refine ⟨s', Outcome.foldlM_cons_ok.mpr ⟨s₁, hs₁, hs'⟩, fun q hq => ?_, fun earlier k later heq hlater => ?_⟩
    · rw [hrest q fun k hk => hq k (List.mem_cons_of_mem _ hk), hothers q (hq m List.mem_cons_self).symm]
    · cases earlier with
      | nil =>
        obtain ⟨rfl, rfl⟩ := List.cons.inj heq
        refine ⟨stat, hstat, ?_⟩
        rw [hrest m.path hlater]
        exact hnew
      | cons m' earlier =>
        obtain ⟨rfl, rfl⟩ := List.cons.inj heq
        obtain ⟨stat', hstat', hnew'⟩ := hlast earlier k later rfl hlater
        by_cases hpath : k.path = m.path
        · rw [hpath, hnew] at hstat'
          cases hstat'
          exact ⟨stat, hpath ▸ hstat, hnew'⟩
        · rw [hothers k.path hpath] at hstat'
          exact ⟨stat', hstat', hnew'⟩

/-- A path of some members is that of a last one. -/
theorem exists_last {before : List Member} {q : Path} (h : ∃ k ∈ before, k.path = q) :
    ∃ earlier k later, before = earlier ++ k :: later ∧ k.path = q ∧ ∀ l ∈ later, l.path ≠ k.path := by
  induction before with
  | nil =>
    obtain ⟨k, hk, _⟩ := h
    cases hk
  | cons m before ih =>
    by_cases hlater : ∃ k ∈ before, k.path = q
    · obtain ⟨earlier, k, later, rfl, hk, hl⟩ := ih hlater
      exact ⟨m :: earlier, k, later, rfl, hk, hl⟩
    · obtain ⟨k, hk, hkq⟩ := h
      rcases List.mem_cons.mp hk with rfl | hk
      · refine ⟨[], k, before, rfl, hkq, fun l hl heq => hlater ⟨l, hl, heq.trans hkq⟩⟩
      · exact absurd ⟨k, hk, hkq⟩ hlater

/-- What puts the member in its place. -/
def placeMember (umask : Nat) (t : Data) (m : Member) : Outcome :=
  if m.type = .directory then makeDir umask t m.path else openFile umask t m.path m.content

theorem placeMember_isOk (hroot : s.isDirAt [] = true) {t₁ : Data} (h : makeParents umask s m.path = .ok t₁) :
    (∃ r, placeMember umask t₁ m = .ok r) ↔ (m.type = .directory ∧ s.isDirAt m.path = true) ∨
      (m.type ≠ .directory ∧ isFileAt s m.path = true) ∨ (s.node m.path = none ∧ fits m.path = true) := by
  have hnode := node_path_of_makeParents hroot h
  have hparent := isDirAt_parent h
  rw [placeMember]
  by_cases hdir : m.type = .directory
  · rw [if_pos hdir, makeDir_isOk hparent, Tree.isDirAt, hnode]
    simp [hdir, Tree.isDirAt]
  · rw [if_neg hdir, openFile_isOk hparent, isFileAt, hnode]
    simp [hdir, isFileAt]

/-- A member that cannot be put in its place leaves the directories above it. -/
theorem writeMember_refused (h : ¬∃ r, placeMember umask s m = .ok r) : writeMember umask s m = .error (.os, s) := by
  rw [placeMember] at h
  rw [writeMember]
  split at h
  · next hdir => rw [if_pos hdir, makeDir_error h]
  · next hfile =>
    rw [if_neg hfile, writeFile, openFile_error h]
    rfl

/-- How a member fails: before anything is made, in its place, or while it is read. -/
theorem applyEntry_error {e : Error × Data} (h : applyEntry umask s m = .error e) :
    (e.2 = s ∧ (anyLink s m.path = true ∨ s.clearWay m.path.dropLast = false)) ∨
      ∃ t₁, makeParents umask s m.path = .ok t₁ ∧ ((e.2 = t₁ ∧ ¬∃ r, placeMember umask t₁ m = .ok r) ∨
        (m.type ≠ .directory ∧ openFile umask t₁ m.path m.content = .ok e.2)) := by
  cases hlink : anyLink s m.path with
  | true =>
    rw [applyEntry, if_pos hlink] at h
    cases h
    exact Or.inl ⟨rfl, Or.inl rfl⟩
  | false =>
    rw [applyEntry_eq hlink] at h
    by_cases hparents : ∃ t₁, makeParents umask s m.path = .ok t₁
    · obtain ⟨t₁, ht₁⟩ := hparents
      refine Or.inr ⟨t₁, ht₁, ?_⟩
      rw [ht₁] at h
      by_cases hplace : ∃ r, placeMember umask t₁ m = .ok r
      · right
        obtain ⟨r, hr⟩ := hplace
        rw [placeMember] at hr
        split at hr
        · next hdir =>
          simp only [bind, Except.bind, writeMember, if_pos hdir, hr] at h
          cases h
        · next hfile =>
          simp only [bind, Except.bind, writeMember, if_neg hfile, writeFile, hr] at h
          cases hcomplete : m.complete with
          | true =>
            simp only [hcomplete, if_true] at h
            cases h
          | false =>
            rw [hcomplete] at h
            cases h
            exact ⟨hfile, hr⟩
      · left
        simp only [bind, Except.bind, writeMember_refused hplace] at h
        cases h
        exact ⟨rfl, hplace⟩
    · have herror : makeParents umask s m.path = .error (.os, s) := attempt_error hparents
      rw [herror] at h
      cases h
      refine Or.inl ⟨rfl, Or.inr ?_⟩
      rw [makeParents_ok] at hparents
      simpa using hparents

/-- A stuck member leaves the tree as it is. -/
theorem stuck_same (hroot : s.isDirAt [] = true) (h : Stuck s m) :
    ∃ e, applyEntry umask s m = .error e ∧ e.2.Same s := by
  have hnot : ¬CanApply s m := by
    intro hcan
    rcases h with ⟨hfile, hdir⟩ | ⟨hfits, _⟩
    · rw [canApply_not_dir hcan hfile] at hdir
      cases hdir
    · have hpresent : s.node m.path = none := by
        by_contra hne
        rw [s.fitting _ hne] at hfits
        cases hfits
      by_cases hdir : m.type = .directory
      · rcases hcan.directory hdir with hthere | ⟨_, hfits'⟩
        · exact Tree.ne_none_of_isDirAt hthere hpresent
        · rw [hfits] at hfits'
          cases hfits'
      · rcases (hcan.file hdir).2 with hthere | ⟨_, hfits'⟩
        · obtain ⟨stat, content, hn⟩ := isFileAt_iff.mp hthere
          rw [hn] at hpresent
          cases hpresent
        · rw [hfits] at hfits'
          cases hfits'
  cases happly : applyEntry umask s m with
  | ok s' => exact absurd ((applyEntry_isOk hroot).mp ⟨s', happly⟩) hnot
  | error e =>
    refine ⟨e, rfl, ?_⟩
    rcases applyEntry_error happly with ⟨hsame, _⟩ | ⟨t₁, ht₁, hplace⟩
    · rw [hsame]
      exact fun _ => rfl
    · have hway := Tree.clearWay_iff.mp (makeParents_ok.mp ⟨t₁, ht₁⟩) _ (List.prefix_refl _)
      have hparent : s.isDirAt m.path.dropLast = true := by
        rcases h with ⟨_, hdir⟩ | ⟨_, hfits | hdir⟩
        · exact isDirAt_above hdir (List.dropLast_prefix _)
        · rw [hway.1] at hfits
          cases hfits
        · exact hdir
      have hsame := makeParents_same hparent ht₁
      rcases hplace with ⟨heq, _⟩ | ⟨hfile, hopen⟩
      · rw [heq]
        exact hsame
      · -- the file's place is a directory or no name
        have hplaced := (placeMember_isOk hroot ht₁).mp ⟨e.2, by rw [placeMember, if_neg hfile]; exact hopen⟩
        rcases h with ⟨_, hdir⟩ | ⟨hfits, _⟩
        · rcases hplaced with ⟨hdir', _⟩ | ⟨_, hthere⟩ | ⟨hnone, _⟩
          · exact absurd hdir' hfile
          · rw [not_dir_of_file hthere] at hdir
            cases hdir
          · exact absurd hnone (Tree.ne_none_of_isDirAt hdir)
        · rcases hplaced with ⟨hdir', _⟩ | ⟨_, hthere⟩ | ⟨_, hfits'⟩
          · exact absurd hdir' hfile
          · obtain ⟨stat, content, hn⟩ := isFileAt_iff.mp hthere
            rw [s.fitting _ (by simp [hn])] at hfits
            cases hfits
          · rw [hfits] at hfits'
            cases hfits'

/-- Directories stay as they are when a member fails. -/
theorem error_dirs {e : Error × Data} (h : applyEntry umask s m = .error e) {q : Path} (hq : s.isDirAt q = true) :
    e.2.node q = s.node q := by
  rcases applyEntry_error h with ⟨hsame, _⟩ | ⟨t₁, ht₁, hplace⟩
  · rw [hsame]
  · have hold : t₁.node q = s.node q := by
      obtain ⟨stat, hstat⟩ := isDirAt_iff.mp hq
      rw [makeParents_node ht₁, hstat]
      simp
    rcases hplace with ⟨heq, _⟩ | ⟨_, hopen⟩
    · rw [heq, hold]
    · obtain ⟨⟨stat, hstat⟩, hothers⟩ := openFile_node hopen
      by_cases hqm : q = m.path
      · -- the directory would have become a file
        have hgrown : GrownTree s e.2 := applyEntry_error_grown h
        have hdir := hgrown.isDirAt hq
        rw [hqm, Tree.isDirAt, hstat] at hdir
        cases hdir
      · rw [hothers q hqm, hold]

/-- A public entry of a tree in which everything public holds something private. -/
theorem isDirAt_of_swept (hroot : t.isDirAt [] = true)
    (hswept : ∀ p, p ≠ [] → isPrivate p = false → t.node p ≠ none → t.Holds isPrivate p) {q : Path}
    (hq : isPrivate q = false) (hne : t.node q ≠ none) : t.isDirAt q = true := by
  by_cases hnil : q = []
  · rw [hnil]
    exact hroot
  · obtain ⟨r, hqr, hr, hrne⟩ := hswept q hnil hq hne
    refine Tree.above_of_initial hqr (fun heq => ?_) hrne
    rw [heq, hr] at hq
    cases hq

theorem clear_same (hswept : ∀ p, p ≠ [] → isPrivate p = false → t.node p ≠ none → t.Holds isPrivate p) :
    (clear t).Same t := by
  intro q
  by_cases hholds : t.Holds isPrivate q
  · exact Tree.sweep_holds hholds
  · by_cases hnil : q = []
    · rw [hnil]
      exact Tree.sweep_root
    · rw [clear, Tree.sweep_gone hnil hholds]
      by_contra hne
      have hpresent : t.node q ≠ none := fun h => hne h.symm
      cases hprivate : isPrivate q with
      | true => exact hholds ⟨q, List.prefix_refl q, hprivate, hpresent⟩
      | false => exact hholds (hswept q hnil hprivate hpresent)

theorem Same.isDirAt {t s : Data} (h : s.Same t) (q : Path) : s.isDirAt q = t.isDirAt q := by
  rw [Tree.isDirAt, Tree.isDirAt, h q]

/-- An untouched archive fails, and the tree is as it was. -/
theorem same_of_untouched (hroot : t.isDirAt [] = true) (h : Untouched t entries) :
    ∃ e, entries.foldlM (applyEntry umask) (clear t) = .error e ∧ e.2.Same t := by
  obtain ⟨hswept, before, m, after, rfl, hidle, hstuck⟩ := h
  have hclear := clear_same hswept
  obtain ⟨s₁, hs₁, hrest, hlast⟩ : ∃ s₁, before.foldlM (applyEntry umask) (clear t) = .ok s₁ ∧
      (∀ q, (∀ k ∈ before, k.path ≠ q) → s₁.node q = (clear t).node q) ∧
      ∀ earlier k later, before = earlier ++ k :: later → (∀ l ∈ later, l.path ≠ k.path) →
        ∃ stat, (clear t).node k.path = some (.dir stat) ∧ s₁.node k.path = some (.dir (stat.own k.mode)) :=
    run_there fun k hk => ⟨(hidle.there k hk).1, by rw [Same.isDirAt hclear]; exact (hidle.there k hk).2⟩
  have hsame : s₁.Same t := by
    intro q
    by_cases hq : ∃ k ∈ before, k.path = q
    · obtain ⟨earlier, k, later, heq, rfl, hlater⟩ := exists_last hq
      obtain ⟨stat, hstat, hnew⟩ := hlast earlier k later heq hlater
      obtain ⟨stat', hstat', hown⟩ := hidle.last earlier k later heq hlater
      rw [hclear k.path, hstat'] at hstat
      cases hstat
      rw [hnew, hown, hstat']
    · rw [hrest q fun k hk heq => hq ⟨k, hk, heq⟩, hclear q]
  have hstuck₁ : Stuck s₁ m := by
    rcases hstuck with ⟨hfile, hdir⟩ | ⟨hfits, hparent⟩
    · exact Or.inl ⟨hfile, by rw [Same.isDirAt hsame]; exact hdir⟩
    · exact Or.inr ⟨hfits, hparent.imp_right fun hdir => by rw [Same.isDirAt hsame]; exact hdir⟩
  have hroot₁ : s₁.isDirAt [] = true := by
    rw [Same.isDirAt hsame]
    exact hroot
  obtain ⟨e, he, hleft⟩ := @stuck_same umask _ _ hroot₁ hstuck₁
  exact ⟨e, Outcome.foldlM_error_iff.mpr ⟨before, m, after, s₁, rfl, hs₁, he⟩, fun q => (hleft q).trans (hsame q)⟩

/-- An archive that fails and leaves the tree as it was is untouched: new entries differ from
    those that were there. -/
theorem untouched_of_same (horiginal : ∀ p n, t.node p = some n → n.stat.origin.isSome = true)
    (hroot : t.isDirAt [] = true) (hpublic : ∀ k ∈ entries, isPrivate k.path = false) {e : Error × Data}
    (hrun : entries.foldlM (applyEntry umask) (clear t) = .error e) (hsame : e.2.Same t) : Untouched t entries := by
  obtain ⟨before, m, after, s₁, rfl, hbefore, hm⟩ := Outcome.foldlM_error_iff.mp hrun
  have hgrown : GrownTree s₁ e.2 := applyEntry_error_grown hm
  have hall : GrownTree (clear t) e.2 := (run_grown hbefore).trans hgrown
  -- what is new has no origin, so nothing is
  have hold : ∀ {s : Data}, GrownTree s e.2 → ∀ q, s.node q = none → t.node q = none := by
    intro s hs q hq
    by_contra hne
    obtain ⟨n, hn⟩ := Option.ne_none_iff_exists'.mp hne
    have hnew := hs q
    rw [hq, hsame q, hn] at hnew
    have horigin := horiginal q n hn
    rw [hnew.1] at horigin
    cases horigin
  have hswept : ∀ p, p ≠ [] → isPrivate p = false → t.node p ≠ none → t.Holds isPrivate p := by
    intro p hp _ hne
    by_contra hno
    exact hne (hold hall p (Tree.sweep_gone hp hno))
  have hdirs : ∀ q, isPrivate q = false → t.node q ≠ none → t.isDirAt q = true := fun q =>
    isDirAt_of_swept hroot hswept
  have hclear := clear_same hswept
  have hback : ∀ {s : Data}, GrownTree s e.2 → ∀ q, s.isDirAt q = true → t.isDirAt q = true := by
    intro s hs q hq
    rw [← Same.isDirAt hsame]
    exact hs.isDirAt hq
  have hforth : ∀ q, t.isDirAt q = true → s₁.isDirAt q = true := by
    intro q hq
    exact (run_grown hbefore).isDirAt (by rw [Same.isDirAt hclear]; exact hq)
  have hroot₁ := hforth [] hroot
  have hthere : ∀ k ∈ before, k.type = .directory ∧ t.isDirAt k.path = true := by
    intro k hk
    have hkpublic := hpublic k (List.mem_append_left _ hk)
    obtain ⟨earlier, later, rfl⟩ := List.append_of_mem hk
    obtain ⟨u₁, hu₁, hrest⟩ := Outcome.foldlM_append_ok.mp hbefore
    obtain ⟨u₂, hu₂, hlater⟩ := Outcome.foldlM_cons_ok.mp hrest
    have hend : GrownTree u₂ e.2 := (run_grown hlater).trans hgrown
    have hclearRoot : (clear t).isDirAt [] = true := by
      rw [Same.isDirAt hclear]
      exact hroot
    have happlied := applyEntry_ok ((run_grown hu₁).isDirAt hclearRoot) hu₂
    by_cases htype : k.type = .directory
    · obtain ⟨stat, hstat, _⟩ := happlied.directory htype
      exact ⟨htype, hback hend _ (isDirAt_iff.mpr ⟨_, hstat⟩)⟩
    · obtain ⟨stat, hstat⟩ := happlied.file htype
      have hfile : isFileAt e.2 k.path = true := hend.isFileAt (isFileAt_iff.mpr ⟨_, _, hstat⟩)
      have hpresent : t.node k.path ≠ none := by
        obtain ⟨stat', content, hn⟩ := isFileAt_iff.mp hfile
        rw [← hsame k.path, hn]
        simp
      have hdir := hdirs _ hkpublic hpresent
      rw [← Same.isDirAt hsame, not_dir_of_file hfile] at hdir
      cases hdir
  refine ⟨hswept, before, m, after, rfl, ⟨hthere, fun earlier k later heq hlater => ?_⟩, ?_⟩
  · obtain ⟨s', hs', _, hlast⟩ : ∃ s', before.foldlM (applyEntry umask) (clear t) = .ok s' ∧
        (∀ q, (∀ k ∈ before, k.path ≠ q) → s'.node q = (clear t).node q) ∧
        ∀ earlier k later, before = earlier ++ k :: later → (∀ l ∈ later, l.path ≠ k.path) →
          ∃ stat, (clear t).node k.path = some (.dir stat) ∧ s'.node k.path = some (.dir (stat.own k.mode)) :=
      run_there fun k hk => ⟨(hthere k hk).1, by rw [Same.isDirAt hclear]; exact (hthere k hk).2⟩
    have hs : s' = s₁ := Except.ok.inj (hs'.symm.trans hbefore)
    obtain ⟨stat, hstat, hnew⟩ := hlast earlier k later heq hlater
    rw [hs] at hnew
    have hfinal : t.node k.path = some (.dir (stat.own k.mode)) := by
      rw [← hsame k.path, error_dirs hm (isDirAt_iff.mpr ⟨_, hnew⟩), hnew]
    rw [hclear k.path, hfinal] at hstat
    have hown : stat.own k.mode = stat := Node.dir.inj (Option.some.inj hstat)
    exact ⟨stat.own k.mode, hfinal, by rw [own_own]⟩
  · have hmpublic := hpublic m (by simp)
    -- everything on the way to the member is a directory or not there
    have hway : ∀ q, q <+: m.path → s₁.node q ≠ none → s₁.isDirAt q = true := by
      intro q hq hne
      apply hforth
      apply hdirs q (isPrivate_above hmpublic hq)
      intro hnone
      cases hn : s₁.node q with
      | none => exact hne hn
      | some n =>
        have hq' := hgrown q
        rw [hn, hsame q, hnone] at hq'
        exact hq'
    rcases applyEntry_error hm with ⟨_, hlink | hclearWay⟩ | ⟨t₁, ht₁, hplace⟩
    · rw [anyLink, List.any_eq_true] at hlink
      obtain ⟨q, hq, hqlink⟩ := hlink
      rw [List.mem_inits] at hq
      cases hn : s₁.node q with
      | none => simp [hn] at hqlink
      | some n =>
        obtain ⟨stat, hstat⟩ := isDirAt_iff.mp (hway q hq (by simp [hn]))
        rw [hstat] at hqlink
        cases hqlink
    · have hfits : fits m.path.dropLast = false := by
        by_contra hfits
        have hok : s₁.clearWay m.path.dropLast = true := Tree.clearWay_iff.mpr fun q hq =>
          ⟨fits_above (by simpa using hfits) hq, hway q (hq.trans (List.dropLast_prefix _))⟩
        rw [hok] at hclearWay
        cases hclearWay
      refine Or.inr ⟨?_, Or.inl hfits⟩
      by_contra hpath
      rw [fits_above (by simpa using hpath) (List.dropLast_prefix m.path)] at hfits
      cases hfits
    · have hparents : GrownTree t₁ e.2 := by
        rcases hplace with ⟨heq, _⟩ | ⟨_, hopen⟩
        · rw [heq]
          exact GrownTree.refl t₁
        · have hopened : GrownTree t₁ (left (openFile umask t₁ m.path m.content)) := openFile_grown
          rw [hopen] at hopened
          exact hopened
      have hparent := hback hparents _ (isDirAt_parent ht₁)
      rcases hplace with ⟨_, hrefused⟩ | ⟨_, hopen⟩
      · by_contra hnot
        rw [Stuck, not_or] at hnot
        have hfits : fits m.path = true := by
          by_contra hfits
          exact hnot.2 ⟨by simpa using hfits, Or.inr hparent⟩
        apply hrefused
        rw [placeMember_isOk hroot₁ ht₁]
        by_cases hnone : s₁.node m.path = none
        · exact Or.inr (Or.inr ⟨hnone, hfits⟩)
        · have hdir := hway _ (List.prefix_refl _) hnone
          left
          refine ⟨?_, hdir⟩
          by_contra htype
          exact hnot.1 ⟨htype, hback hgrown _ hdir⟩
      · obtain ⟨⟨stat, hstat⟩, _⟩ := openFile_node hopen
        have hpresent : t.node m.path ≠ none := by
          rw [← hsame m.path, hstat]
          simp
        obtain ⟨stat', hstat'⟩ := isDirAt_iff.mp (hdirs _ hmpublic hpresent)
        rw [← hsame m.path, hstat] at hstat'
        cases hstat'

end Applying

/-! ## Rejection -/

/-- A tree as it is when the program starts. -/
structure Current where
  data : Data
  original : ∀ p n, data.node p = some n → n.stat.origin.isSome = true

/-- A restore that raises leaves the tree as it was. -/
def RejectsBefore (umask : Nat) (a : Archive) (t : Data) : Prop :=
  ∀ e s, restoreAction umask a t = .error (e, s) → s.Same t

/-- The archive is read, and its members are accepted. -/
def Accepts (a : Archive) (t : Data) (entries : List Member) : Prop :=
  t.isDirAt [] = true ∧ a.length ≤ limit + 16 * 1024 * 1024 ∧ a.members = .ok entries ∧ members entries = .ok ()

theorem restoreAction_cases (umask : Nat) (a : Archive) (t : Data) :
    (∃ e, restoreAction umask a t = .error (e, t) ∧ ∀ entries, ¬Accepts a t entries) ∨
      ∃ entries, Accepts a t entries ∧ restoreAction umask a t = entries.foldlM (applyEntry umask) (clear t) := by
  rw [restoreAction]
  cases hroot : t.isDirAt [] with
  | false => exact Or.inl ⟨_, rfl, fun entries h => by rw [h.1] at hroot; cases hroot⟩
  | true =>
    by_cases hlength : a.length > limit + 16 * 1024 * 1024
    · left
      rw [if_neg (by decide), if_pos hlength]
      exact ⟨_, rfl, fun entries h => absurd h.2.1 (by omega)⟩
    · rw [if_neg (by decide), if_neg hlength, restore]
      cases hmembers : a.members with
      | error e => exact Or.inl ⟨e, rfl, fun entries h => by rw [h.2.2.1] at hmembers; cases hmembers⟩
      | ok entries =>
        cases hok : members entries with
        | error e =>
          refine Or.inl ⟨e, by simp only [hok], fun entries' h => ?_⟩
          have heq : entries' = entries := Except.ok.inj (h.2.2.1.symm.trans hmembers)
          have haccepted := h.2.2.2
          rw [heq, hok] at haccepted
          cases haccepted
        | ok _ =>
          refine Or.inr ⟨entries, ⟨hroot, by omega, hmembers, hok⟩, ?_⟩
          simp only [hok]

/-- A file, and a member below it. -/
def sampleClash : Archive where
  length := 10240
  members := .ok [⟨"a", .regular, 0o644, 0, [], true⟩, ⟨"a/b", .regular, 0o644, 0, [], true⟩]

def sampleCurrent : Data := build (sampleStat 0o700 1) [(["notes"], .file (sampleStat 0o644 2) [104])]

theorem sampleCurrent_original (p : Path) (n : Node) (h : sampleCurrent.node p = some n) : n.stat.origin.isSome = true := by
  have hall : ∀ q ∈ sampleCurrent.paths, (sampleCurrent.node q).all (fun n => n.stat.origin.isSome) = true := by decide +kernel
  have hp := hall p (sampleCurrent.listed p (by rw [h]; exact Option.some_ne_none n))
  rwa [h] at hp

end Hermes.SimpleData

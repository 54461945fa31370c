import Hermes.Library.Outcome
import Hermes.SimpleDataSteps

/- A backup of the application's data is restored: what `snapshot` has archived is there
   again, the credentials are as they were, and everything else is gone
   (`restore_snapshot`). -/
namespace Hermes.SimpleData
open Entries

/-! ## The records of a snapshot -/

section Records
variable {accounts : Accounts} {t : Data}

theorem mem_sorted {p : Path} : p ∈ sorted t ↔ p ≠ [] ∧ t.node p ≠ none := by
  rw [sorted, List.mem_insertionSort, Tree.mem_below]

theorem nodup_sorted (t : Data) : (sorted t).Nodup := (List.perm_insertionSort _ _).nodup_iff.mpr t.nodup_below

/-- What a snapshot holds. -/
def included (t : Data) : List Path := (sorted t).filter fun p => !isPrivate p

theorem mem_included {p : Path} : p ∈ included t ↔ (p ≠ [] ∧ t.node p ≠ none) ∧ isPrivate p = false := by
  rw [included, List.mem_filter, mem_sorted, Bool.not_eq_true']

theorem nodup_included (t : Data) : (included t).Nodup := (nodup_sorted t).filter _

/-- The directory of a path comes before it. -/
theorem included_parent {before after : List Path} {p : Path} (h : included t = before ++ p :: after) :
    p.dropLast = [] ∨ p.dropLast ∈ before := by
  by_cases hnil : p.dropLast = []
  · exact Or.inl hnil
  right
  have hp := mem_included.mp (h ▸ List.mem_append_right before List.mem_cons_self : p ∈ included t)
  have hne : p.dropLast ≠ p := by
    intro heq
    have hlength := congrArg List.length heq
    have hpos := List.length_pos_iff.mpr hp.1.1
    rw [List.length_dropLast] at hlength
    omega
  have hparent : p.dropLast ∈ included t := by
    refine mem_included.mpr ⟨⟨hnil, ?_⟩, ?_⟩
    · exact Tree.ne_none_of_isDirAt (Tree.above_of_initial (List.dropLast_prefix p) hne hp.1.2)
    · have hpublic := hp.2
      rw [isPrivate, List.any_eq_false] at hpublic ⊢
      exact fun c hc => hpublic c (List.mem_of_mem_dropLast hc)
  have hsorted : (included t).Pairwise (· ≤ ·) := (List.pairwise_insertionSort _ _).filter _
  rw [h] at hparent hsorted
  rcases List.mem_append.mp hparent with hmem | hmem
  · exact hmem
  · -- a path is not before its directory
    have hlt : p.dropLast < p := by
      have hlast : p.dropLast ++ [p.getLast hp.1.1] = p := List.dropLast_append_getLast hp.1.1
      have hlex : ∀ (d : Path) (c : String), d < d ++ [c] := by
        intro d c
        induction d with
        | nil => exact List.Lex.nil
        | cons a d ih => exact List.Lex.cons ih
      calc p.dropLast < p.dropLast ++ [p.getLast hp.1.1] := hlex _ _
        _ = p := hlast
    rcases List.mem_cons.mp hmem with heq | hmem
    · exact absurd heq hne
    · have hle := (List.pairwise_cons.mp (List.pairwise_append.mp hsorted).2.1).1 _ hmem
      exact absurd hlt (not_lt.mpr hle)

/-- The record of an entry, were there no hard links. -/
def plainRecord (accounts : Accounts) (t : Data) (p : Path) : Option Record :=
  match t.node p with
  | some (.dir stat) => some (recordOf accounts p stat .directory "" [])
  | some (.file stat content) => some (recordOf accounts p stat .regular "" content)
  | _ => none

theorem snapshotFrom_filter {total : Nat} {inodes : List (Nat × String)} {ps : List Path} :
    snapshotFrom accounts t total inodes ps = snapshotFrom accounts t total inodes (ps.filter fun p => !isPrivate p) := by
  induction ps generalizing total inodes with
  | nil => rfl
  | cons p ps ih =>
    cases hp : isPrivate p with
    | true =>
      rw [List.filter_cons_of_neg (by simp [hp]), snapshotFrom, if_pos hp, ih]
    | false =>
      rw [List.filter_cons_of_pos (by simp [hp]), snapshotFrom, snapshotFrom, if_neg (by simp [hp]), if_neg (by simp [hp])]
      simp only [ih]

/-- The file at a path, with its inode. -/
def inodeAt (t : Data) (p : Path) : Option Nat :=
  match t.node p with
  | some (.file stat _) => stat.origin.map Origin.inode
  | _ => none

/-- No two of the files are one. -/
def Unshared (t : Data) : Prop :=
  ∀ p ∈ included t, ∀ q ∈ included t, ∀ i, inodeAt t p = some i → inodeAt t q = some i → p = q

theorem firstName_none {inodes : List (Nat × String)} {stat : Stat} :
    firstName inodes stat = none ↔ ∀ o, stat.origin = some o → inodes.lookup o.inode = none := by
  rw [firstName]
  cases stat.origin with
  | none => simp
  | some o => simp

/-- Files that have not been added yet become regular records. -/
theorem snapshotFrom_plain {ps : List Path} {total : Nat} {inodes : List (Nat × String)} {records : List Record}
    (hpublic : ∀ p ∈ ps, isPrivate p = false)
    (hdistinct : ps.Pairwise fun p q => ∀ i, inodeAt t p = some i → inodeAt t q ≠ some i)
    (hfresh : ∀ p ∈ ps, ∀ i, inodeAt t p = some i → inodes.lookup i = none) (htotal : total ≤ limit)
    (h : snapshotFrom accounts t total inodes ps = .ok records) :
    records.map some = ps.map (plainRecord accounts t) ∧ total + (records.map Record.size).sum ≤ limit := by
  induction ps generalizing total inodes records with
  | nil =>
    cases h
    exact ⟨rfl, by simpa using htotal⟩
  | cons p ps ih =>
    rw [List.pairwise_cons] at hdistinct
    rw [snapshotFrom, if_neg (by simp [hpublic p List.mem_cons_self])] at h
    have hpublic' : ∀ q ∈ ps, isPrivate q = false := fun q hq => hpublic q (List.mem_cons_of_mem _ hq)
    split at h
    · next stat hnode =>
      rw [if_neg (by omega)] at h
      obtain ⟨rest, hrest, rfl⟩ := Outcome.map_eq_ok.mp h
      obtain ⟨hmap, hsum⟩ := ih hpublic' hdistinct.2 (fun q hq => hfresh q (List.mem_cons_of_mem _ hq)) htotal hrest
      constructor
      · rw [List.map_cons, List.map_cons, hmap, plainRecord, hnode]
      · rw [List.map_cons, List.sum_cons]
        have hsize : (recordOf accounts p stat .directory "" []).size = 0 := rfl
        omega
    · next stat content hnode =>
      have hinode : inodeAt t p = stat.origin.map Origin.inode := by rw [inodeAt, hnode]
      split at h
      · cases h
      · next hle =>
        have hfirst : firstName inodes stat = none := by
          refine firstName_none.mpr fun o ho => hfresh p List.mem_cons_self o.inode ?_
          rw [hinode, ho, Option.map_some]
        rw [hfirst] at h
        obtain ⟨rest, hrest, rfl⟩ := Outcome.map_eq_ok.mp h
        have hfresh' : ∀ q ∈ ps, ∀ i, inodeAt t q = some i → (addInode inodes stat p).lookup i = none := by
          intro q hq i hi
          have hold := hfresh q (List.mem_cons_of_mem _ hq) i hi
          cases ho : stat.origin with
          | none => rwa [addInode, ho]
          | some o =>
            have hne : ¬(i == o.inode) = true := by
              intro heq
              rw [ho, Option.map_some] at hinode
              exact hdistinct.1 q hq o.inode hinode (by rw [hi, eq_of_beq heq])
            rw [addInode, ho]
            simp only [List.lookup_cons, hne, hold]
        obtain ⟨hmap, hsum⟩ := ih hpublic' hdistinct.2 hfresh' (by omega) hrest
        constructor
        · rw [List.map_cons, List.map_cons, hmap, plainRecord, hnode]
        · rw [List.map_cons, List.sum_cons]
          have hsize : (recordOf accounts p stat .regular "" content).size = content.length := rfl
          omega
    · cases h
    · cases h
    · cases h

/-- What a snapshot of a tree without hard links holds. -/
theorem snapshot_plain {a : Archive} (hunshared : Unshared t) (h : snapshot accounts t = .ok a) :
    ∃ records, a = archiveOf records ∧ records.map some = (included t).map (plainRecord accounts t) ∧
      (records.map Record.size).sum ≤ limit := by
  obtain ⟨records, hrecords, rfl⟩ := Outcome.map_eq_ok.mp h
  rw [snapshotFrom_filter] at hrecords
  have hpublic : ∀ p ∈ included t, isPrivate p = false := fun p hp => (mem_included.mp hp).2
  have hdistinct : (included t).Pairwise fun p q => ∀ i, inodeAt t p = some i → inodeAt t q ≠ some i := by
    refine (List.Pairwise.and_mem.mp (nodup_included t)).imp fun hpq i hi hi' => ?_
    exact hpq.2.2 (hunshared _ hpq.1 _ hpq.2.1 i hi hi')
  obtain ⟨hmap, hsum⟩ := snapshotFrom_plain hpublic hdistinct (fun _ _ _ _ => rfl) (Nat.zero_le _) hrecords
  exact ⟨records, rfl, hmap, by omega⟩

/-! ## Names -/

/-- The name of an entry is parsed into its path. -/
theorem parse_nameOf {p : Path} (hp : p ≠ []) (hfits : fits p = true) : PurePath.parse (nameOf p) = ⟨"", p⟩ := by
  rw [fits, Bool.and_eq_true, List.all_eq_true] at hfits
  have hname : ∀ c ∈ p, PurePath.isName c.toList = true ∧ '/' ∉ c.toList := by
    intro c hc
    have hentry := hfits.1 c hc
    simp only [isEntryName, Bool.and_eq_true, bne_iff_ne, List.all_eq_true] at hentry
    obtain ⟨⟨⟨⟨hempty, hdot⟩, _⟩, hchars⟩, _⟩ := hentry
    constructor
    · simp only [PurePath.isName, Bool.and_eq_true, bne_iff_ne]
      constructor
      · intro hnil
        exact hempty (by rw [← String.ofList_toList (s := c), hnil])
      · intro hnil
        exact hdot (by rw [← String.ofList_toList (s := c), hnil])
    · intro hslash
      exact absurd rfl (hchars '/' hslash).1
  have hnames : (PurePath.parse (nameOf p)).names = p := PurePath.names_parse_joined hp hname
  have hroot : (PurePath.parse (nameOf p)).root = "" := by
    apply PurePath.parse_relative
    obtain ⟨c, cs, rfl⟩ := List.exists_cons_of_ne_nil hp
    obtain ⟨hc, hslash⟩ := hname c List.mem_cons_self
    have hne : c.toList ≠ [] := by
      intro hnil
      rw [hnil] at hc
      exact absurd hc (by decide)
    obtain ⟨d, ds, hd⟩ := List.exists_cons_of_ne_nil hne
    have hhead : (nameOf (c :: cs)).toList.head? = some d := by
      rw [nameOf, PurePath.joined, String.toList_ofList, List.map_cons, hd]
      cases cs with
      | nil => simp
      | cons c' cs => simp
    rw [hhead]
    intro heq
    rw [hd] at hslash
    exact hslash (by simp [Option.some.inj heq])
  calc PurePath.parse (nameOf p) = ⟨(PurePath.parse (nameOf p)).root, (PurePath.parse (nameOf p)).names⟩ := rfl
    _ = ⟨"", p⟩ := by rw [hroot, hnames]

theorem fits_of_mem_included {p : Path} (h : p ∈ included t) : fits p = true := t.fitting p (mem_included.mp h).1.2

theorem parse_of_mem_included {p : Path} (h : p ∈ included t) : PurePath.parse (nameOf p) = ⟨"", p⟩ :=
  parse_nameOf (mem_included.mp h).1.1 (fits_of_mem_included h)

theorem plainRecord_some {p : Path} {r : Record} (h : plainRecord accounts t p = some r) :
    (∃ stat, t.node p = some (.dir stat) ∧ r = recordOf accounts p stat .directory "" []) ∨
      ∃ stat content, t.node p = some (.file stat content) ∧ r = recordOf accounts p stat .regular "" content := by
  rw [plainRecord] at h
  split at h
  · next stat hn => exact Or.inl ⟨stat, hn, (Option.some.inj h).symm⟩
  · next stat content hn => exact Or.inr ⟨stat, content, hn, (Option.some.inj h).symm⟩
  · cases h

/-! ## The members are accepted -/

/-- Distinct files and directories under relative public names, none too large. -/
theorem membersFrom_ok {ms : List Member} {total : Nat} {seen : List String}
    (hpath : ∀ m ∈ ms, (PurePath.parse m.name).root = "" ∧ ".." ∉ m.path ∧ isPrivate m.path = false)
    (htype : ∀ m ∈ ms, m.type ≠ .other) (hnodup : (ms.map Member.name).Nodup) (hseen : ∀ m ∈ ms, m.name ∉ seen)
    (htotal : total + (ms.map Member.size).sum ≤ limit) : membersFrom total seen ms = .ok () := by
  induction ms generalizing total seen with
  | nil => rfl
  | cons m ms ih =>
    rw [List.map_cons, List.nodup_cons] at hnodup
    rw [List.map_cons, List.sum_cons] at htotal
    obtain ⟨hroot, hdots, hpublic⟩ := hpath m List.mem_cons_self
    have hparts : (PurePath.parse m.name).parts = m.path := by rw [PurePath.parts, if_pos hroot, Member.path]
    have hrelative : (PurePath.parse m.name).isAbsolute = false := by simp [PurePath.isAbsolute, hroot]
    have hsafe : ((PurePath.parse m.name).isAbsolute || (PurePath.parse m.name).parts.contains ".." ||
        isPrivate (PurePath.parse m.name).parts) = false := by
      rw [hparts, hrelative, hpublic]
      simpa using hdots
    have hkind : (!(m.type == .directory || m.type == .regular) || seen.contains m.name) = false := by
      have hnot := hseen m List.mem_cons_self
      have hother := htype m List.mem_cons_self
      cases hm : m.type with
      | regular => simpa using hnot
      | directory => simpa using hnot
      | other => exact absurd hm hother
    simp only [membersFrom]
    rw [hsafe, hkind, if_neg (by decide), if_neg (by decide), if_neg (by omega)]
    refine ih (fun k hk => hpath k (List.mem_cons_of_mem _ hk)) (fun k hk => htype k (List.mem_cons_of_mem _ hk))
      hnodup.2 (fun k hk => ?_) (by omega)
    rw [List.mem_cons, not_or]
    refine ⟨fun heq => hnodup.1 ?_, hseen k (List.mem_cons_of_mem _ hk)⟩
    rw [← heq]
    exact List.mem_map_of_mem hk

/-- The members of a snapshot without hard links are accepted. -/
theorem members_plain {records : List Record} (hmap : records.map some = (included t).map (plainRecord accounts t))
    (hsize : (records.map Record.size).sum ≤ limit) : members (records.map Record.member) = .ok () := by
  have hrecord : ∀ r ∈ records, ∃ p ∈ included t, plainRecord accounts t p = some r := by
    intro r hr
    have hmem : some r ∈ (included t).map (plainRecord accounts t) := hmap ▸ List.mem_map_of_mem hr
    obtain ⟨p, hp, hpr⟩ := List.mem_map.mp hmem
    exact ⟨p, hp, hpr⟩
  have hfacts : ∀ r ∈ records, ∃ p ∈ included t, r.name = nameOf p ∧ r.type ≠ .hardlink := by
    intro r hr
    obtain ⟨p, hp, hpr⟩ := hrecord r hr
    rcases plainRecord_some hpr with ⟨stat, _, rfl⟩ | ⟨stat, content, _, rfl⟩
    · exact ⟨p, hp, rfl, nofun⟩
    · exact ⟨p, hp, rfl, nofun⟩
  apply membersFrom_ok
  · intro m hm
    obtain ⟨r, hr, rfl⟩ := List.mem_map.mp hm
    obtain ⟨p, hp, hname, _⟩ := hfacts r hr
    have hparse : PurePath.parse r.member.name = ⟨"", p⟩ := by
      rw [Record.member, hname]
      exact parse_of_mem_included hp
    rw [Member.path, hparse]
    refine ⟨rfl, fun hdots => ?_, (mem_included.mp hp).2⟩
    have hfits := fits_of_mem_included hp
    rw [fits, Bool.and_eq_true, List.all_eq_true] at hfits
    exact absurd (hfits.1 ".." hdots) (by decide)
  · intro m hm
    obtain ⟨r, hr, rfl⟩ := List.mem_map.mp hm
    obtain ⟨p, _, _, htype⟩ := hfacts r hr
    rw [Record.member]
    cases ht : r.type with
    | regular => simp
    | directory => simp
    | hardlink => exact absurd ht htype
  · have hnames : (records.map Record.member).map Member.name = (included t).map nameOf := by
      have hsome : (records.map Record.name).map some = ((included t).map nameOf).map some := by
        calc (records.map Record.name).map some = (records.map some).map (Option.map Record.name) := by
              rw [List.map_map, List.map_map]
              rfl
          _ = ((included t).map (plainRecord accounts t)).map (Option.map Record.name) := by rw [hmap]
          _ = ((included t).map nameOf).map some := by
              rw [List.map_map, List.map_map]
              refine List.map_congr_left fun p hp => ?_
              have hp' : plainRecord accounts t p ∈ records.map some := hmap ▸ List.mem_map_of_mem hp
              obtain ⟨r, hr, hpr⟩ := List.mem_map.mp hp'
              rw [Function.comp_apply, ← hpr]
              rcases plainRecord_some hpr.symm with ⟨stat, _, rfl⟩ | ⟨stat, content, _, rfl⟩
              · rfl
              · rfl
      have hinj : Function.Injective (List.map (some : String → Option String)) :=
        List.map_injective_iff.mpr (Option.some_injective _)
      calc (records.map Record.member).map Member.name = records.map Record.name := by
            rw [List.map_map]
            rfl
        _ = (included t).map nameOf := hinj hsome
    rw [hnames]
    refine (nodup_included t).map_on fun p hp q hq heq => ?_
    have hparse := (parse_of_mem_included hp).symm.trans ((congrArg PurePath.parse heq).trans (parse_of_mem_included hq))
    exact congrArg PurePath.names hparse
  · exact fun _ _ => List.not_mem_nil
  · rw [List.map_map]
    have hsame : Member.size ∘ Record.member = Record.size := rfl
    rw [hsame]
    omega

end Records

/-! ## Restoring -/

section Restoring
variable {accounts : Accounts} {umask : Nat} {t u s s' : Data}

/-- An entry again, with its bytes and the owner's permissions. -/
def Restores : Option Node → Option Node → Prop
  | some (.file stat content), b => ∃ stat', b = some (.file stat' content) ∧ stat'.mode = stat.mode &&& 0o700
  | some (.dir stat), b => ∃ stat', b = some (.dir stat') ∧ stat'.mode = stat.mode &&& 0o700
  | _, _ => False

/-- The entries `done` are restored, the others as they were after the removal. -/
structure Progress (t u s : Data) (done : List Path) : Prop where
  restored : ∀ p ∈ done, Restores (t.node p) (s.node p)
  others : ∀ p, p ∉ done → s.node p = (clear u).node p

/-- No private entry of `u` is where `t` has a file. -/
def Uncovered (t u : Data) : Prop :=
  ∀ p ∈ included t, isFileAt t p = true → ∀ q, p <+: q → isPrivate q = true → u.node q = none

theorem mode_member (mode : Nat) : mode &&& 0o7777 &&& 0o700 = mode &&& 0o700 := by
  calc mode &&& 0o7777 &&& 0o700 = mode &&& (0o7777 &&& 0o700) := Nat.and_assoc _ _ _
    _ = mode &&& 0o700 := rfl

/-- What is left of a public path holds something private below it, so it is a directory. -/
theorem clear_node {p : Path} (hp : p ≠ []) (hpublic : isPrivate p = false) (h : (clear u).node p ≠ none) :
    u.Holds isPrivate p ∧ (clear u).isDirAt p = true := by
  have hholds : u.Holds isPrivate p := by
    by_contra hno
    exact h (Tree.sweep_gone hp hno)
  refine ⟨hholds, ?_⟩
  obtain ⟨q, hpq, hq, hne⟩ := hholds
  have hpq' : p ≠ q := by
    rintro rfl
    rw [hpublic] at hq
    cases hq
  rw [Tree.isDirAt, clear, Tree.sweep_holds ⟨q, hpq, hq, hne⟩]
  exact Tree.above_of_initial hpq hpq' hne

theorem Progress.parent {done rest : List Path} {p : Path} (h : Progress t u s done)
    (hroot : u.isDirAt [] = true) (hsplit : included t = done ++ p :: rest) : s.isDirAt p.dropLast = true := by
  have hp := mem_included.mp (hsplit ▸ List.mem_append_right done List.mem_cons_self : p ∈ included t)
  rcases included_parent hsplit with hnil | hmem
  · have hnot : [] ∉ done := by
      intro hmem
      have hin : [] ∈ included t := hsplit ▸ List.mem_append_left _ hmem
      exact (mem_included.mp hin).1.1 rfl
    rw [hnil, Tree.isDirAt, h.others [] hnot, clear, Tree.sweep_root]
    exact hroot
  · have hne : p.dropLast ≠ p := by
      intro heq
      have hlength := congrArg List.length heq
      have hpos := List.length_pos_iff.mpr hp.1.1
      rw [List.length_dropLast] at hlength
      omega
    obtain ⟨stat, hstat⟩ := isDirAt_iff.mp (Tree.above_of_initial (List.dropLast_prefix p) hne hp.1.2)
    have hrestored := h.restored _ hmem
    rw [hstat] at hrestored
    obtain ⟨stat', hstat', _⟩ := hrestored
    exact isDirAt_iff.mpr ⟨stat', hstat'⟩

/-- The place of the next entry: a directory, if anything. -/
theorem Progress.place {done rest : List Path} {p : Path} (h : Progress t u s done)
    (hsplit : included t = done ++ p :: rest) :
    s.node p = none ∨ (u.Holds isPrivate p ∧ s.isDirAt p = true) := by
  have hp := mem_included.mp (hsplit ▸ List.mem_append_right done List.mem_cons_self : p ∈ included t)
  have hnot : p ∉ done := by
    have hnodup := nodup_included t
    rw [hsplit] at hnodup
    exact fun hmem => (List.nodup_append.mp hnodup).2.2 p hmem p List.mem_cons_self rfl
  by_cases hnone : s.node p = none
  · exact Or.inl hnone
  · right
    rw [Tree.isDirAt]
    rw [h.others p hnot] at hnone ⊢
    exact clear_node hp.1.1 hp.2 hnone

/-- The next entry is restored. -/
theorem Progress.step {done rest : List Path} {p : Path} {r : Record} (h : Progress t u s done)
    (hroot : u.isDirAt [] = true) (huncovered : Uncovered t u) (hsplit : included t = done ++ p :: rest)
    (hr : plainRecord accounts t p = some r) :
    ∃ s', applyEntry umask s r.member = .ok s' ∧ Progress t u s' (done ++ [p]) := by
  have hin : p ∈ included t := hsplit ▸ List.mem_append_right done List.mem_cons_self
  have hparent := h.parent hroot hsplit
  have hplace := h.place hsplit
  have hname : r.name = nameOf p := by
    rcases plainRecord_some hr with ⟨stat, _, rfl⟩ | ⟨stat, content, _, rfl⟩
    · rfl
    · rfl
  have hpath : r.member.path = p := by
    rw [Member.path, Record.member, hname, parse_of_mem_included hin]
  have hsroot : s.isDirAt [] = true := isDirAt_above hparent List.nil_prefix
  have hlink : ∀ stat, s.node p ≠ some (.link stat) := by
    intro stat hstat
    rcases hplace with hnone | ⟨_, hdir⟩
    · rw [hnone] at hstat
      cases hstat
    · rw [Tree.isDirAt, hstat] at hdir
      cases hdir
  have hfits := fits_of_mem_included hin
  have hcan : CanApply s r.member := by
    refine ⟨?_, ?_, ?_, ?_⟩
    · exact anyLink_of_isDirAt (hpath ▸ hparent) (hpath ▸ hlink)
    · rw [hpath]
      exact clearWay_of_isDirAt hparent
    · intro _
      rw [hpath]
      rcases hplace with hnone | ⟨_, hdir⟩
      · exact Or.inr ⟨hnone, hfits⟩
      · exact Or.inl hdir
    · intro htype
      rw [hpath]
      rcases plainRecord_some hr with ⟨stat, _, rfl⟩ | ⟨stat, content, hnode, rfl⟩
      · exact absurd rfl htype
      · refine ⟨rfl, Or.inr ⟨?_, hfits⟩⟩
        rcases hplace with hnone | ⟨⟨q, hpq, hq, hne⟩, _⟩
        · exact hnone
        · exact absurd (huncovered p hin (isFileAt_iff.mpr ⟨stat, content, hnode⟩) q hpq hq) hne
  obtain ⟨s', hs'⟩ := (applyEntry_isOk hsroot).mpr hcan
  have happlied := applyEntry_ok hsroot hs'
  refine ⟨s', hs', fun q hq => ?_, fun q hq => ?_⟩
  · by_cases hqp : q = p
    · rw [hqp, ← hpath]
      rcases plainRecord_some hr with ⟨stat, hnode, rfl⟩ | ⟨stat, content, hnode, rfl⟩
      · obtain ⟨stat', hstat', _⟩ := happlied.directory rfl
        rw [hstat', hpath, hnode]
        exact ⟨_, rfl, mode_member stat.mode⟩
      · obtain ⟨stat', hstat'⟩ := happlied.file nofun
        rw [hstat', hpath, hnode]
        exact ⟨_, rfl, mode_member stat.mode⟩
    · rw [happlied.same (hpath ▸ hparent) (hpath ▸ hqp)]
      rcases List.mem_append.mp hq with hq | hq
      · exact h.restored q hq
      · exact absurd (List.mem_singleton.mp hq) hqp
  · rw [List.mem_append, List.mem_singleton, not_or] at hq
    rw [happlied.same (hpath ▸ hparent) (hpath ▸ hq.2)]
    exact h.others q hq.1

/-- And all that are left, one after another. -/
theorem Progress.run {rest done : List Path} {records : List Record} (h : Progress t u s done)
    (hroot : u.isDirAt [] = true) (huncovered : Uncovered t u) (hsplit : included t = done ++ rest)
    (hmap : records.map some = rest.map (plainRecord accounts t)) :
    ∃ s', (records.map Record.member).foldlM (applyEntry umask) s = .ok s' ∧ Progress t u s' (included t) := by
  induction rest generalizing s done records with
  | nil =>
    cases records with
    | nil =>
      rw [List.append_nil] at hsplit
      exact ⟨s, rfl, hsplit ▸ h⟩
    | cons r records => cases hmap
  | cons p rest ih =>
    cases records with
    | nil => cases hmap
    | cons r records =>
      rw [List.map_cons, List.map_cons, List.cons.injEq] at hmap
      have hstep : ∃ s', applyEntry umask s r.member = .ok s' ∧ Progress t u s' (done ++ [p]) :=
        h.step hroot huncovered hsplit hmap.1.symm
      obtain ⟨s₁, hs₁, hprogress⟩ := hstep
      obtain ⟨s₂, hs₂, hend⟩ := ih hprogress (by rw [hsplit, List.append_assoc, List.singleton_append]) hmap.2
      refine ⟨s₂, ?_, hend⟩
      rw [List.map_cons, List.foldlM_cons, hs₁]
      exact hs₂

/-- What a restore of `t` over `u` leaves. -/
structure Inverted (t u s : Data) : Prop where
  /-- what was archived is there again -/
  restored : ∀ p, p ≠ [] → isPrivate p = false → t.node p ≠ none → Restores (t.node p) (s.node p)
  /-- directories with private entries stay -/
  kept : ∀ p, p ≠ [] → isPrivate p = false → t.node p = none → u.Holds isPrivate p → s.node p = u.node p
  removed : ∀ p, p ≠ [] → isPrivate p = false → t.node p = none → ¬u.Holds isPrivate p → s.node p = none
  credentials : ∀ p, isPrivate p = true → s.node p = u.node p

/-- **Restoring inverts the snapshot.** -/
theorem restore_snapshot {a : Archive} (hsnapshot : snapshot accounts t = .ok a) (hunshared : Unshared t)
    (hroot : u.isDirAt [] = true) (huncovered : Uncovered t u) :
    ∃ s, restore umask a u = .ok s ∧ Inverted t u s := by
  obtain ⟨records, rfl, hmap, hsize⟩ := snapshot_plain hunshared hsnapshot
  have hstart : Progress t u (clear u) [] := ⟨nofun, fun _ _ => rfl⟩
  have hrun : ∃ s', (records.map Record.member).foldlM (applyEntry umask) (clear u) = .ok s' ∧
      Progress t u s' (included t) := hstart.run hroot huncovered rfl hmap
  obtain ⟨s, hs, hprogress⟩ := hrun
  refine ⟨s, ?_, ?_⟩
  · rw [restore, archiveOf]
    simp only [members_plain hmap hsize]
    exact hs
  · have hnot : ∀ p, t.node p = none → p ∉ included t := fun p hnone hmem => (mem_included.mp hmem).1.2 hnone
    refine ⟨fun p hp hpublic hne => ?_, fun p hp hpublic hnone hholds => ?_, fun p hp hpublic hnone hholds => ?_,
      fun p hprivate => ?_⟩
    · exact hprogress.restored p (mem_included.mpr ⟨⟨hp, hne⟩, hpublic⟩)
    · rw [hprogress.others p (hnot p hnone)]
      exact Tree.sweep_holds hholds
    · rw [hprogress.others p (hnot p hnone)]
      exact Tree.sweep_gone hp hholds
    · have hmem : p ∉ included t := by
        intro hmem
        rw [(mem_included.mp hmem).2] at hprivate
        cases hprivate
      rw [hprogress.others p hmem, clear]
      by_cases hne : u.node p = none
      · have hholds : ¬u.Holds isPrivate p ∨ u.Holds isPrivate p := (em _).symm
        rcases hholds with hno | hholds
        · have hnil : p ≠ [] := by
            rintro rfl
            exact absurd hprivate (by decide)
          rw [Tree.sweep_gone hnil hno, hne]
        · exact Tree.sweep_holds hholds
      · exact Tree.sweep_holds ⟨p, List.prefix_refl p, hprivate, hne⟩

end Restoring

/-! ## A sample -/

def sampleStat (mode inode : Nat) : Stat := ⟨mode, 10000, 10000, some ⟨inode, "1700000000.5"⟩⟩

def sampleAccounts : Accounts := ⟨fun _ => "hermes", fun _ => "hermes"⟩

/-- A file, a directory and a file in it. -/
def sampleData : Data := build (sampleStat 0o700 1)
  [(["notes"], .file (sampleStat 0o644 2) [104, 105]), (["d"], .dir (sampleStat 0o500 3)),
    (["d", "x"], .file (sampleStat 0o600 4) [])]

/-- The file is another one, and a directory holds credentials. -/
def sampleOther : Data := build (sampleStat 0o700 1)
  [(["notes"], .file (sampleStat 0o600 5) []), (["old"], .dir (sampleStat 0o755 6)),
    (["old", ".env"], .file (sampleStat 0o600 7) [1]), (["old", "y"], .file (sampleStat 0o600 8) [])]

def sampleArchive : Archive := archiveOf ((included sampleData).filterMap (plainRecord sampleAccounts sampleData))

theorem restore_snapshot_sample : ∃ s, restore 0o022 sampleArchive sampleOther = .ok s ∧ Inverted sampleData sampleOther s := by
  refine @restore_snapshot sampleAccounts _ _ _ _ (by decide +kernel) ?_ (by decide +kernel) ?_
  · have hall : ∀ p ∈ included sampleData, ∀ q ∈ included sampleData,
        inodeAt sampleData p = inodeAt sampleData q → inodeAt sampleData p = none ∨ p = q := by decide +kernel
    intro p hp q hq i hi hi'
    rcases hall p hp q hq (hi.trans hi'.symm) with hnone | heq
    · rw [hnone] at hi
      cases hi
    · exact heq
  · have hall : ∀ p ∈ included sampleData, isFileAt sampleData p = true → sampleOther.isDirAt p = false := by decide +kernel
    intro p hp hfile q hpq hq
    have hne : p ≠ q := by
      rintro rfl
      rw [(mem_included.mp hp).2] at hq
      cases hq
    exact Tree.below_none hpq hne (hall p hp hfile)

end Hermes.SimpleData

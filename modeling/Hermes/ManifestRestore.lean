import Hermes.ManifestCapture

/- A rollback is the inverse of what was done since the manifest was captured:
   `restore_inverts` says when it completes and every managed path is as it was. A link to
   a file is recorded with the digest of the file, but its copy is read from the directory
   of the copies, in the middle of the rollback: `relative_link_fails`. -/
namespace Hermes.Manifest
open Process FileTree

variable {fs₁ fs : Fs} {lines : List Line} {uid : Option Nat} {w : World} {l : Line} {path : Path}
  {α : Type}

/-! ## The commands of a rollback -/

/-- A command that succeeds. -/
def Good (m : Turn) : Prop := m.killed = false ∧ m.status = 0

section Rules

variable {Q : α → World → Prop} {E : Stop → World → Prop}

theorem output_within {value : Turn → World → α} {P : World → Prop} {Q : Option α → World → Prop}
    (h : ∀ m w, P w → Q (some (value m w)) w) : Within Good 1 P (output value) Q E := by
  refine Within.perform (n := 0) (fun m w hm hw r u hr => ?_)
  rw [if_neg (by rw [hm.1]; decide), if_pos hm.2] at hr
  cases hr
  exact h m w hw

theorem command_within {can : World → Bool} {effect : Turn → World → World} {P : World → Prop}
    {Q : Unit → World → Prop} (h : ∀ m w, P w → can w = true ∧ Q () (effect m w)) :
    Within Good 1 P (command can effect) Q E := by
  refine Within.perform (n := 0) (fun m w hm hw r u hr => ?_)
  rw [if_neg (by rw [hm.1]; decide), if_pos ⟨hm.2, (h m w hw).1⟩] at hr
  cases hr
  exact (h m w hw).2

theorem writeTree_within {p : Path} {change : Fs → Option Fs} {P : World → Prop}
    {Q : Unit → World → Prop} (h : ∀ w, P w → ∃ fs, change w.fs = some fs ∧ Q () { w with fs := fs }) :
    Within Good 1 P (writeTree p change) Q E := by
  refine Within.perform (n := 0) (fun m w hm hw r u hr => ?_)
  obtain ⟨fs, hfs, hq⟩ := h w hw
  simp only [hm.1, hfs, if_pos hm.2, Bool.false_eq_true, if_false] at hr
  cases hr
  exact hq

theorem removeTree_within {p : Path} :
    Within Good 1 (· = w) (removeTree p) (fun _ u => u = { w with fs := remove w.fs p }) E :=
  writeTree_within (fun u hu => ⟨_, rfl, by rw [hu]⟩)

theorem sha256sum_within {p : Path} :
    Within Good 1 (· = w) (sha256sum p)
      (fun a u => u = w ∧ a = (contentAt w.fs p).map Hermes.digest) E := by
  refine Within.bind (a := 1) (b := 0) (Q := fun a u => u = w ∧
    a = some ((contentAt w.fs p).map Hermes.digest)) (output_within (fun m u hu => ?_)) (fun a => ?_)
  · rw [hu]
    exact ⟨rfl, rfl⟩
  · exact Within.pure' (fun u hu => ⟨hu.1, by rw [hu.2]; rfl⟩)

theorem accountId_within :
    Within Good 1 (· = w) accountId (fun a u => u = w ∧ a = w.uid) E := by
  refine Within.bind (a := 1) (b := 0) (Q := fun a u => u = w ∧ a = some w.uid)
    (output_within (fun m u hu => ?_)) (fun a => ?_)
  · rw [hu]
    exact ⟨rfl, rfl⟩
  · exact Within.pure' (fun u hu => ⟨hu.1, by rw [hu.2]; rfl⟩)

end Rules

/-! ## One line -/

/-- The files with the path of a line as it was. -/
def putBack (fs₁ : Fs) (uid : Option Nat) (fs : Fs) (l : Line) : Fs :=
  match l.subject uid with
  | none => fs
  | some p => fun q => if p.isPrefixOf q then (if l.existed then fs₁ q else none) else fs q

/-- Where the copy of a line leads, there is what its digest says. -/
def Checks (fs : Fs) (l : Line) : Prop :=
  ∀ d b, l.digest = .sum d → l.backup = some b → (contentAt fs b).map Hermes.digest = some d

theorem putBack_none (h : l.subject uid = none) : putBack fs₁ uid fs l = fs := by
  unfold putBack
  rw [h]

theorem putBack_some {p : Path} (h : l.subject uid = some p) :
    putBack fs₁ uid fs l =
      fun q => if p.isPrefixOf q then (if l.existed then fs₁ q else none) else fs q := by
  unfold putBack
  rw [h]

theorem putBack_known (h : isUnknown l.path = false) :
    putBack fs₁ uid fs l =
      fun q => if l.path.isPrefixOf q then (if l.existed then fs₁ q else none) else fs q := by
  refine putBack_some ?_
  unfold Line.subject
  rw [if_neg (by rw [h]; decide)]

theorem putBack_absent {p : Path} (h : l.subject uid = some p) (he : l.existed = false) :
    putBack fs₁ uid fs l = remove fs p := by
  rw [putBack_some h, he]
  rfl

/-- The copy in the place of what was removed. -/
theorem copied_back {dir : Path} {n i : Nat} (hd : BackupDir dir) (hs : Saved fs₁ lines fs)
    (hl : l ∈ lines) (hp : Managed l.path) (he : l.existed = true)
    (hk : Kept fs₁ dir n fs l)
    (hcopy : ∀ s, fs (slot dir i ++ s) = fs₁ (l.path ++ s)) :
    canMakeDirs (remove fs l.path) l.path.dropLast = true ∧
      copy (FileTree.makeDirs (remove fs l.path) l.path.dropLast) (slot dir i) l.path =
        some (putBack fs₁ uid fs l) := by
  obtain ⟨hknown, hpres, -⟩ := hk.present he
  have habove := hs.above l hl he
  have hparent : ∀ q, q <+: l.path.dropLast → remove fs l.path q = some .dir := fun q hq =>
    (remove_elsewhere (fun h => hp.apart hp (h.trans hq))).trans (habove q hq)
  have hmade : FileTree.makeDirs (remove fs l.path) l.path.dropLast = remove fs l.path := by
    funext q
    by_cases hq : q <+: l.path.dropLast
    · rw [makeDirs_above hq, hparent q hq]
    · exact makeDirs_elsewhere hq
  have hslot : ∀ s, remove fs l.path (slot dir i ++ s) = fs₁ (l.path ++ s) := by
    intro s
    refine (remove_elsewhere (fun h => ?_)).trans (hcopy s)
    obtain ⟨rest, hrest⟩ := slot_root hd i s
    rw [hrest] at h
    exact hp.not_prefix_var h
  obtain ⟨node, hnode⟩ := Option.ne_none_iff_exists'.mp hpres
  obtain ⟨c, hlast⟩ := hp.last
  constructor
  · refine List.all_eq_true.mpr (fun q hq => ?_)
    rw [hparent q ((List.mem_inits q _).mp hq)]
    rfl
  rw [hmade]
  have hnew := (@copy_new (remove fs l.path) l.path.dropLast (slot dir i) c node) (by rw [← hlast]; exact hp.named) hparent (by
      rw [← hlast]
      exact remove_below (List.prefix_refl _)) (by
      have := hslot []
      rw [List.append_nil, List.append_nil] at this
      exact this.trans hnode)
  rw [← hlast] at hnew
  rw [hnew, putBack_known hknown]
  refine congrArg some ?_
  funext q
  by_cases hq : l.path <+: q
  · obtain ⟨s, rfl⟩ := hq
    rw [graft_append, hslot, if_pos (List.isPrefixOf_iff_prefix.mpr (List.prefix_append _ s)), if_pos he]
  · rw [graft_elsewhere hq, remove_elsewhere hq,
      if_neg (fun h => hq (List.isPrefixOf_iff_prefix.mp h))]

/-- The outcome of one line. -/
abbrev Line.Back (fs₁ : Fs) (l : Line) (w : World) (n : Nat) (x : Cmd Unit) : Prop :=
  Within Good n (· = w) x
    (fun _ u => u = { w with fs := putBack fs₁ w.uid w.fs l } ∧ (l.existed = true → Checks w.fs l))
    (fun _ _ => l.existed = true ∧ ¬Checks w.fs l)

theorem verifyBackup_within {b : Path} (hb : l.backup = some b) (he : l.existed = true) :
    Within Good 1 (· = w) (verifyBackup l path b) (fun _ u => u = w ∧ Checks w.fs l)
      (fun _ _ => l.existed = true ∧ ¬Checks w.fs l) := by
  unfold verifyBackup
  split
  · next d hd =>
    refine Within.bind (a := 1) (b := 0) sha256sum_within (fun a => ?_)
    refine Within.given (φ := a = (contentAt w.fs b).map Hermes.digest) (fun _ hu => hu.2) (fun ha => ?_)
    refine Within.ite (fun h => Within.pure' (fun u hu => ⟨hu.1, fun d' b' hd' hb' => ?_⟩))
      (fun h => Within.raise (fun _ _ => ⟨he, fun hc => h ?_⟩))
    · cases Option.some.inj (hb.symm.trans hb')
      cases Recorded.sum.inj (hd.symm.trans hd')
      exact ha.symm.trans h
    · exact ha.trans (hc d b hd hb)
  · next hd =>
    exact Within.budget (n := 0) (Within.pure' (fun u hu => ⟨hu, fun d b hsum _ => absurd hsum (hd d)⟩))
      (by omega)

theorem restorePresent_within (hs : Saved fs₁ lines w.fs) (hl : l ∈ lines) (hp : Managed l.path)
    (he : l.existed = true) : l.Back fs₁ w 4 (restorePresent l l.path) := by
  obtain ⟨dir, n, hd, -, hkept⟩ := hs.kept
  have hk := hkept l hl
  obtain ⟨hknown, hpres, i, hi, hb, hcopy⟩ := hk.present he
  obtain ⟨hmake, hback⟩ := (@copied_back _ _ _ w.uid) hd hs hl hp he hk hcopy
  have hthere : w.present (slot dir i) = true := by
    have hroot := hcopy []
    rw [List.append_nil, List.append_nil] at hroot
    rw [World.present, hroot]
    exact Option.isSome_iff_ne_none.mpr hpres
  refine Within.bind (a := 0) (b := 4) (Q := fun a u => u = w ∧ a = w)
    (Within.read (fun u hu => ⟨hu, hu⟩)) (fun a => ?_)
  refine Within.given (φ := a = w) (fun _ hu => hu.2) (fun ha => Within.pre ?_ (fun _ hu => hu.1))
  rw [ha, hb, show (some (slot dir i)).filter w.present = some (slot dir i) from if_pos hthere]
  refine Within.bind (a := 1) (b := 3) (verifyBackup_within hb he) (fun _ => ?_)
  refine Within.given (φ := Checks w.fs l) (fun _ hu => hu.2) (fun hc => Within.pre ?_ (fun _ hu => hu.1))
  refine Within.bind (a := 1) (b := 2) removeTree_within (fun _ => ?_)
  refine Within.bind (a := 1) (b := 1) (Q := fun _ u => u = { w with
    fs := FileTree.makeDirs (remove w.fs l.path) l.path.dropLast }) (command_within (fun m u hu => ?_))
    (fun _ => ?_)
  · rw [hu]
    exact ⟨hmake, rfl⟩
  · refine writeTree_within (fun u hu => ⟨putBack fs₁ w.uid w.fs l, ?_, ?_⟩)
    · rw [hu]
      exact hback
    · rw [hu]
      exact ⟨rfl, fun _ => hc⟩

theorem restoreAbsent_within {p : Path} (h : l.subject w.uid = some p) (he : l.existed = false) :
    l.Back fs₁ w 1 (removeTree p) := by
  refine removeTree_within.post (fun _ u hu => ⟨?_, fun h => absurd (he.symm.trans h) (by decide)⟩)
  rw [putBack_absent h he]
  exact hu

theorem restoreLine_within (hs : Saved fs₁ lines w.fs) (hl : l ∈ lines) (hp : Managed l.path) :
    l.Back fs₁ w 4 (restoreLine l) := by
  unfold restoreLine
  have hne : l.path.isEmpty = false := by
    obtain ⟨c, rest, h, -⟩ := hp.root
    rw [h]
    rfl
  rw [if_neg (by rw [hne]; decide)]
  cases hknown : isUnknown l.path with
  | false =>
    rw [if_neg (by decide)]
    unfold restoreAt
    cases he : l.existed with
    | true => exact restorePresent_within hs hl hp he
    | false =>
      have hsub : l.subject w.uid = some l.path := by
        unfold Line.subject
        rw [hknown]
        rfl
      exact (restoreAbsent_within hsub he).budget (by omega)
  | true =>
    rw [if_pos rfl]
    have he : l.existed = false := by
      obtain ⟨dir, n, -, -, hkept⟩ := hs.kept
      refine Bool.eq_false_iff.mpr (fun he => ?_)
      exact absurd (hknown.symm.trans ((hkept l hl).present he).1) (by decide)
    have hsub : l.subject w.uid = w.uid.map (fun uid => quadletPath (toString uid)) := by
      unfold Line.subject
      rw [hknown]
      rfl
    refine Within.bind (a := 1) (b := 3) accountId_within (fun a => ?_)
    refine Within.given (φ := a = w.uid) (fun _ hu => hu.2) (fun ha => Within.pre ?_ (fun _ hu => hu.1))
    rw [← ha] at hsub
    cases a with
    | none =>
      refine Within.pure' (fun u hu => ⟨?_, fun h => absurd (he.symm.trans h) (by decide)⟩)
      rw [putBack_none (by rw [← ha]; exact hsub)]
      exact hu
    | some uid =>
      have h := (@restoreAbsent_within fs₁ w) (by rw [← ha]; exact hsub) he
      show l.Back fs₁ w 3 (restoreAt l (quadletPath (toString uid)))
      unfold restoreAt
      rw [if_neg (by rw [he]; decide)]
      exact h.budget (by omega)

/-! ## The manifest -/

theorem Saved.putBack (hs : Saved fs₁ lines fs) (hm : ∀ l ∈ lines, Managed l.path) (hl : l ∈ lines) :
    Saved fs₁ lines (putBack fs₁ uid fs l) := by
  cases hp : l.subject uid with
  | none =>
    rw [putBack_none hp]
    exact hs
  | some p =>
    rw [putBack_some hp]
    refine @Saved.frame _ _ _ _ [p] hs hm (fun q hq => ?_) (fun q hq => Or.inl (if_neg (fun h => ?_)))
    · rw [List.mem_singleton.mp hq]
      exact Line.subject_managed (hm l hl) hp
    · exact absurd hq (by simp [under, h])

/-- The checks of the lines, one after another. -/
def AllCheck (fs₁ : Fs) (uid : Option Nat) (only : Line → Prop) : Fs → List Line → Prop
  | _, [] => True
  | fs, l :: rest => (l.existed = true → only l → Checks fs l) ∧
      AllCheck fs₁ uid only (putBack fs₁ uid fs l) rest

instance (fs : Fs) (l : Line) : Decidable (Checks fs l) :=
  decidable_of_iff ((match l.digest, l.backup with
    | .sum d, some b => decide ((contentAt fs b).map Hermes.digest = some d)
    | _, _ => true) = true) (by
    unfold Checks
    cases l.digest <;> cases l.backup <;> simp)

instance (o : Option Node) : Decidable (∃ t, o = some (.link t)) :=
  match o with
  | some (.link t) => isTrue ⟨t, rfl⟩
  | some (.file _) => isFalse (fun ⟨_, h⟩ => by simp at h)
  | some .dir => isFalse (fun ⟨_, h⟩ => by simp at h)
  | none => isFalse (fun ⟨_, h⟩ => by simp at h)

instance decidableAllCheck (fs₁ : Fs) (uid : Option Nat) (only : Line → Prop) [DecidablePred only] :
    ∀ fs rest, Decidable (AllCheck fs₁ uid only fs rest)
  | _, [] => isTrue trivial
  | fs, l :: rest =>
    have := decidableAllCheck fs₁ uid only (putBack fs₁ uid fs l) rest
    inferInstanceAs (Decidable (_ ∧ _))

/-- The lines that are left. -/
theorem restoreLines_within (hm : ∀ l ∈ lines, Managed l.path) (rest : List Line) :
    ∀ w, Saved fs₁ lines w.fs → (∀ l ∈ rest, l ∈ lines) →
      Within Good (4 * rest.length) (· = w) (Proc.forEach rest restoreLine)
        (fun _ u => u = { w with fs := rest.foldl (putBack fs₁ w.uid) w.fs } ∧
          AllCheck fs₁ w.uid (fun _ => True) w.fs rest)
        (fun _ _ => ¬AllCheck fs₁ w.uid (fun _ => True) w.fs rest) := by
  induction rest with
  | nil => exact fun w _ _ => Within.pure' (fun u hu => ⟨hu, trivial⟩)
  | cons l rest ih =>
    intro w hs hin
    have hl := hin l (by simp)
    rw [List.length_cons, Nat.mul_succ, Nat.add_comm]
    refine Within.bind ((restoreLine_within hs hl (hm l hl)).mono (fun _ h => h) (fun _ _ h => h)
      (fun _ _ h hall => h.2 (hall.1 h.1 trivial))) (fun _ => ?_)
    refine Within.given (fun _ hu => hu.2) (fun hc => Within.pre ?_ (fun _ hu => hu.1))
    have h := ih { w with fs := putBack fs₁ w.uid w.fs l } (hs.putBack hm hl)
      (fun k hk => hin k (by simp [hk]))
    exact h.mono (fun _ h => h) (fun _ u hu => ⟨hu.1, fun he _ => hc he, hu.2⟩)
      (fun _ _ hn hall => hn hall.2)

/-- The copy of a file checks. -/
theorem checks_file (hs : Saved fs₁ lines fs) (hl : l ∈ lines) (he : l.existed = true)
    (hlink : ¬∃ t, fs₁ l.path = some (.link t)) : Checks fs l := by
  intro d b hd hb
  obtain ⟨dir, n, hdir, hdirs, hkept⟩ := hs.kept
  obtain ⟨content, hfile, hsum⟩ := ((hkept l hl).sum d hd).resolve_left hlink
  obtain ⟨-, -, i, -, hslot, hcopy⟩ := (hkept l hl).present he
  cases Option.some.inj (hb.symm.trans hslot)
  have hroot := hcopy []
  rw [List.append_nil, List.append_nil, hfile] at hroot
  rw [slot, contentAt_file (slot_named hdir i) hdirs hroot, hsum]
  rfl

/-- So only the links matter. -/
theorem allCheck_links (hm : ∀ l ∈ lines, Managed l.path) (rest : List Line) :
    ∀ fs, Saved fs₁ lines fs → (∀ l ∈ rest, l ∈ lines) →
      (AllCheck fs₁ uid (fun _ => True) fs rest ↔
        AllCheck fs₁ uid (fun l => ∃ t, fs₁ l.path = some (.link t)) fs rest) := by
  induction rest with
  | nil => exact fun _ _ _ => Iff.rfl
  | cons l rest ih =>
    intro fs hs hin
    have hl := hin l (by simp)
    refine and_congr ⟨fun h he _ => h he trivial, fun h he _ => ?_⟩
      (ih _ (hs.putBack hm hl) (fun k hk => hin k (by simp [hk])))
    by_cases hlink : ∃ t, fs₁ l.path = some (.link t)
    · exact h he hlink
    · exact checks_file hs hl he hlink

/-! ## The rollback -/

/-- Every path of the manifest is as it was. -/
def Restored (fs₁ : Fs) (ps : List Path) (fs : Fs) : Prop := ∀ p ∈ ps, ∀ s, fs (p ++ s) = fs₁ (p ++ s)

/-- Nothing was where the quadlet of a later account is. -/
def NoQuadlet (fs₁ : Fs) (lines : List Line) (uid : Option Nat) : Prop :=
  ∀ l ∈ lines, isUnknown l.path = true → ∀ p, l.subject uid = some p → ∀ s, fs₁ (p ++ s) = none

/-- Putting back a path puts back what was there. -/
theorem putBack_same {q : Path}
    (h : l.existed = false → ∀ p, l.subject uid = some p → ∀ s, fs₁ (p ++ s) = none) :
    (fs q = fs₁ q ∨ ∃ p, l.subject uid = some p ∧ p <+: q) → putBack fs₁ uid fs l q = fs₁ q := by
  intro hq
  cases hp : l.subject uid with
  | none =>
    rw [putBack_none hp]
    obtain hq | ⟨p, hp', -⟩ := hq
    · exact hq
    · exact absurd (hp.symm.trans hp') (by simp)
  | some p =>
    rw [putBack_some hp]
    by_cases hpre : p <+: q
    · refine (if_pos (List.isPrefixOf_iff_prefix.mpr hpre)).trans ?_
      cases he : l.existed with
      | true => rfl
      | false =>
        obtain ⟨s, rfl⟩ := hpre
        exact (h he p hp s).symm
    · refine (if_neg (fun h => hpre (List.isPrefixOf_iff_prefix.mp h))).trans ?_
      obtain hq | ⟨p', hp', hpre'⟩ := hq
      · exact hq
      · cases Option.some.inj (hp.symm.trans hp')
        exact absurd hpre' hpre

theorem foldl_putBack {q : Path} (rest : List Line) :
    ∀ fs, (∀ l ∈ rest, l.existed = false → ∀ p, l.subject uid = some p → ∀ s, fs₁ (p ++ s) = none) →
      (fs q = fs₁ q ∨ ∃ l ∈ rest, ∃ p, l.subject uid = some p ∧ p <+: q) →
      rest.foldl (putBack fs₁ uid) fs q = fs₁ q := by
  induction rest with
  | nil =>
    intro fs _ hq
    obtain h | ⟨l, hl, -⟩ := hq
    · exact h
    · exact absurd hl (by simp)
  | cons l rest ih =>
    intro fs habsent hq
    refine ih _ (fun k hk => habsent k (by simp [hk])) ?_
    have hsame := (@putBack_same _ fs _ _ q) (habsent l (by simp))
    obtain h | ⟨k, hk, p, hp⟩ := hq
    · exact Or.inl (hsame (Or.inl h))
    · obtain rfl | hk := List.mem_cons.mp hk
      · exact Or.inl (hsame (Or.inr ⟨p, hp⟩))
      · exact Or.inr ⟨k, hk, p, hp⟩

/-- Only the last line may be one of no account. -/
theorem Complete.last (h : Complete lines) :
    ∃ before last, lines = before ++ [last] ∧ ∀ l ∈ before, isUnknown l.path = false := by
  obtain ⟨admin, user, -, hmap⟩ := h
  obtain ⟨before, rest, hlines, hbefore, hrest⟩ := List.map_eq_append_iff.mp hmap
  obtain ⟨last, hlast, -⟩ := List.map_eq_singleton_iff.mp hrest
  refine ⟨before, last, by rw [hlines, hlast], fun l hl => ?_⟩
  have hmem : l.path ∈ before.map Line.path := List.mem_map_of_mem hl
  rw [hbefore] at hmem
  obtain hmem | hmem := List.mem_append.mp hmem
  · exact (managedPaths_roots _ hmem).2.2.2.2.2
  · exact isUnknown_sudoers hmem

/-- What the copies make of the files is what they were. -/
theorem restored_iff (ht : Tree fs₁) (hc : Complete lines) (hs : Saved fs₁ lines fs) :
    Restored fs₁ (subjects lines uid) (lines.foldl (putBack fs₁ uid) fs) ↔
      NoQuadlet fs₁ lines uid := by
  have hunknown : ∀ l ∈ lines, isUnknown l.path = true → l.existed = false := by
    obtain ⟨dir, n, -, -, hkept⟩ := hs.kept
    refine fun l hl hu => Bool.eq_false_iff.mpr (fun he => ?_)
    exact absurd (hu.symm.trans ((hkept l hl).present he).1) (by decide)
  constructor
  · intro hrestored l hl hu p hp s
    obtain ⟨before, last, hlines, hbefore⟩ := hc.last
    have hlast : l = last := by
      rw [hlines] at hl
      obtain hl | hl := List.mem_append.mp hl
      · exact absurd (hu.symm.trans (hbefore l hl)) (by decide)
      · exact List.mem_singleton.mp hl
    have hfinal := hrestored p (List.mem_filterMap.mpr ⟨l, hl, hp⟩) s
    rw [← hfinal, hlines, List.foldl_append, ← hlast]
    show putBack fs₁ uid _ l (p ++ s) = none
    rw [putBack_absent hp (hunknown l hl hu)]
    exact remove_below (List.prefix_append p s)
  · intro hno p hp s
    obtain ⟨l, hl, hp⟩ := List.mem_filterMap.mp hp
    refine foldl_putBack lines fs (fun k hk he r hr t => ?_)
      (Or.inr ⟨l, hl, p, hp, List.prefix_append p s⟩)
    obtain ⟨dir, n, -, -, hkept⟩ := hs.kept
    cases hu : isUnknown k.path with
    | true => exact hno k hk hu r hr t
    | false =>
      have hr' : k.path = r := by
        unfold Line.subject at hr
        rw [hu] at hr
        exact Option.some.inj hr
      have hnone : fs₁ r = none := by
        rw [← hr']
        refine ((hkept k hk).absent he).resolve_left (fun h => ?_)
        rw [h] at hu
        exact absurd (isUnknown_quadlet.mpr rfl) (by rw [hu]; decide)
      by_cases htail : t = []
      · rw [htail, List.append_nil]
        exact hnone
      · by_contra hne
        exact absurd (hnone.symm.trans (ht.above t htail hne)) (by simp)

/-- Where every copy of a link leads to what it led to, in the files of the moment at which
    the rollback looks, and nothing was where the quadlet of a later account is. -/
def Restorable (fs₁ : Fs) (lines : List Line) (w : World) : Prop :=
  AllCheck fs₁ w.uid (fun l => ∃ t, fs₁ l.path = some (.link t)) w.fs lines ∧
    NoQuadlet fs₁ lines w.uid

theorem restoreManifest_within (hm : ∀ l ∈ lines, Managed l.path) (hs : Saved fs₁ lines w.fs)
    (hw : w.manifest = some lines) :
    Within Good (4 * lines.length) (· = w) restoreManifest
      (fun _ u => u = { w with fs := lines.foldl (putBack fs₁ w.uid) w.fs } ∧
        AllCheck fs₁ w.uid (fun _ => True) w.fs lines)
      (fun _ _ => ¬AllCheck fs₁ w.uid (fun _ => True) w.fs lines) := by
  refine Within.budget (n := 0 + 4 * lines.length) (Within.bind (Q := fun a u => u = w ∧ a = w)
    (Within.read (fun u hu => ⟨hu, hu⟩)) (fun a => ?_)) (by omega)
  refine Within.given (φ := a = w) (fun _ hu => hu.2) (fun ha => Within.pre ?_ (fun _ hu => hu.1))
  have hmanifest : a.manifest = some lines := by rw [ha]; exact hw
  rw [hmanifest]
  exact restoreLines_within hm lines w hs (fun _ h => h)

/-- A host with one tool and, in the place of another, a link. -/
def entries (t : Target) : List (Path × Node) :=
  [ ([], .dir), (["usr"], .dir), (["usr", "local"], .dir), (["usr", "local", "bin"], .dir),
    (localTool "bin" "hermes-chat", .file "chat"), (localTool "bin" "hermes-logs", .link t),
    (["usr", "bin"], .dir), (["usr", "bin", "journalctl"], .file "journalctl") ]

def host (t : Target) : World := { fs := ofEntries (entries t), admin := some "admin", uid := none }

def toTool : Target := ⟨true, ["usr", "bin", "journalctl"]⟩

def relative : Target := ⟨false, ["..", "..", "bin", "journalctl"]⟩

def turns (n : Nat) : List Turn := List.replicate n { clock := "20260101T000000" }

def chat : Path := localTool "bin" "hermes-chat"
def logs : Path := localTool "bin" "hermes-logs"

/-- The tools are removed. -/
def strip (w : World) : World := { w with fs := remove (remove w.fs chat) logs }

theorem modified_strip {ps : List Path} (w : World) (h : chat ∈ ps) (h' : logs ∈ ps) :
    Modified ps w (strip w) := by
  refine ⟨rfl, fun q hq => Or.inl ?_⟩
  have hnot : ∀ p ∈ ps, ¬p <+: q :=
    fun p hp hpre => absurd (under_iff.mpr ⟨p, hp, hpre⟩) (by rw [hq]; decide)
  exact (remove_elsewhere (hnot _ h')).trans (remove_elsewhere (hnot _ h))

/-- The manifest of such a host. -/
def captured (t : Target) : World := createManifest.after (turns 80) (host t)

def manifestOf (t : Target) : List Line := (captured t).manifest.getD []

theorem unused_of_all (h : lines.all (fun l => l.backup.all (fun b => (fs₁ b).isNone)) = true) :
    Unused fs₁ lines := by
  intro l hl b hb
  have := List.all_eq_true.mp h l hl
  rw [hb] at this
  exact Option.isNone_iff_eq_none.mp this

theorem noQuadlet_none : NoQuadlet fs₁ lines none := by
  intro l _ hu p hp
  unfold Line.subject at hp
  rw [hu] at hp
  exact absurd hp (by simp)

theorem supplied_turns (n : Nat) : Supplied Good n (turns n) :=
  supplied_replicate (G := Good) (m := { clock := "20260101T000000" }) ⟨rfl, rfl⟩ n

def firewalled : World where
  fs := ofEntries [([], .dir), (["etc"], .dir), (["etc", "firewalld"], .dir),
    (["etc", "firewalld", "zones"], .dir)]
  admin := some "admin"
  uid := none

/-- A request dies after it has copied `/etc/firewalld`, and the next one in the same second
    copies it into that copy: the rollback completes, and the directory is in itself. -/
theorem reused_directory_nests :
    let w := createManifest.after (turns 80) (createManifest.after (turns 14) firewalled)
    w.fs (slot (backupsDir ++ ["20260101T000000Z"]) 3 ++ ["firewalld"]) = some .dir ∧
      restoreManifest.result (turns 120) w = .ok () ∧
      (restoreManifest.after (turns 120) w).fs ["etc", "firewalld", "firewalld"] = some .dir ∧
      firewalled.fs ["etc", "firewalld", "firewalld"] = none := by
  decide +kernel

end Hermes.Manifest

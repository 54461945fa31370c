import Hermes.SimpleData

/- What one member does to the tree when a backup of the application's data is restored:
   nothing that is there becomes anything else (`applyEntry_grown`), it is applied exactly if
   nothing is in its way (`applyEntry_isOk`), and it is there then (`applyEntry_ok`). -/
namespace Hermes.SimpleData
open Entries

/-! ## Growing -/

def Node.stat : Node → Stat
  | .file stat _ | .dir stat | .link stat | .special stat => stat

def Node.isFile : Node → Bool
  | .file _ _ => true
  | _ => false

def Node.isLink : Node → Bool
  | .link _ => true
  | _ => false

/-- An entry is still the same, whatever it holds, or it is new. -/
def Grown : Option Node → Option Node → Prop
  | none, none => True
  | none, some n => n.stat.origin = none ∧ (n.isDir || n.isFile) = true
  | some n, some n' => n'.stat.origin = n.stat.origin ∧ n'.isDir = n.isDir ∧ n'.isFile = n.isFile ∧ n'.isLink = n.isLink
  | some _, none => False

theorem Grown.refl (a : Option Node) : Grown a a := by
  cases a with
  | none => trivial
  | some n => exact ⟨rfl, rfl, rfl, rfl⟩

theorem Grown.trans {a b c : Option Node} (h : Grown a b) (h' : Grown b c) : Grown a c := by
  cases a with
  | none =>
    cases b with
    | none => exact h'
    | some n =>
      cases c with
      | none => exact h'.elim
      | some n' => exact ⟨h'.1.trans h.1, by rw [h'.2.1, h'.2.2.1]; exact h.2⟩
  | some m =>
    cases b with
    | none => exact h.elim
    | some n =>
      cases c with
      | none => exact h'.elim
      | some n' => exact ⟨h'.1.trans h.1, h'.2.1.trans h.2.1, h'.2.2.1.trans h.2.2.1, h'.2.2.2.trans h.2.2.2⟩

theorem Grown.own (n : Node) (mode : Nat) : Grown (some n) (some (n.own mode)) := by
  cases n <;> exact ⟨rfl, rfl, rfl, rfl⟩

theorem Grown.rewrite (n : Node) (content : List UInt8) : Grown (some n) (some (n.rewrite content)) := by
  cases n <;> exact ⟨rfl, rfl, rfl, rfl⟩

/-- Every entry of the first tree is still there. -/
def GrownTree (t s : Data) : Prop := ∀ q, Grown (t.node q) (s.node q)

theorem GrownTree.refl (t : Data) : GrownTree t t := fun q => Grown.refl (t.node q)

theorem GrownTree.trans {t s r : Data} (h : GrownTree t s) (h' : GrownTree s r) : GrownTree t r :=
  fun q => (h q).trans (h' q)

theorem GrownTree.isDirAt {t s : Data} (h : GrownTree t s) {p : Path} (hp : t.isDirAt p = true) : s.isDirAt p = true := by
  obtain ⟨n, hn, hdir⟩ := Tree.isDirAt_iff.mp hp
  have hgrown := h p
  rw [hn] at hgrown
  cases hs : s.node p with
  | none =>
    rw [hs] at hgrown
    exact hgrown.elim
  | some n' =>
    rw [hs] at hgrown
    exact Tree.isDirAt_iff.mpr ⟨n', hs, hgrown.2.1.trans hdir⟩

def isFileAt (t : Data) (p : Path) : Bool := (t.node p).any Node.isFile

theorem isFileAt_iff {t : Data} {p : Path} : isFileAt t p = true ↔ ∃ stat content, t.node p = some (.file stat content) := by
  rw [isFileAt, Option.any_eq_true]
  constructor
  · rintro ⟨n, hn, hfile⟩
    cases n with
    | file stat content => exact ⟨stat, content, hn⟩
    | dir | link | special => cases hfile
  · rintro ⟨stat, content, hn⟩
    exact ⟨_, hn, rfl⟩

theorem isDirAt_iff {t : Data} {p : Path} : t.isDirAt p = true ↔ ∃ stat, t.node p = some (.dir stat) := by
  rw [Tree.isDirAt_iff]
  constructor
  · rintro ⟨n, hn, hdir⟩
    cases n with
    | dir stat => exact ⟨stat, hn⟩
    | file | link | special => cases hdir
  · rintro ⟨stat, hn⟩
    exact ⟨_, hn, rfl⟩

theorem GrownTree.isFileAt {t s : Data} (h : GrownTree t s) {p : Path} (hp : SimpleData.isFileAt t p = true) :
    SimpleData.isFileAt s p = true := by
  obtain ⟨stat, content, hn⟩ := isFileAt_iff.mp hp
  have hgrown := h p
  rw [hn] at hgrown
  cases hs : s.node p with
  | none =>
    rw [hs] at hgrown
    exact hgrown.elim
  | some n' =>
    rw [hs] at hgrown
    rw [SimpleData.isFileAt, hs]
    exact hgrown.2.2.1

theorem not_dir_of_file {t : Data} {p : Path} (h : isFileAt t p = true) : t.isDirAt p = false := by
  obtain ⟨stat, content, hn⟩ := isFileAt_iff.mp h
  rw [Tree.isDirAt, hn]
  rfl

/-! ## The operations -/

section Operations
variable {umask : Nat} {t : Data} {p : Path}

/-- The tree that an outcome leaves. -/
def left : Outcome → Data
  | .ok t => t
  | .error (_, t) => t

theorem attempt_ok {x : Option Data} {s : Data} : attempt t x = .ok s ↔ x = some s := by
  cases x with
  | none => exact ⟨nofun, nofun⟩
  | some s' => exact ⟨fun h => by cases h; rfl, fun h => by cases h; rfl⟩

/-- Whatever comes of it, the tree has grown, if it has where the call is done. -/
theorem attempt_grown {x : Option Data} (h : ∀ s, x = some s → GrownTree t s) : GrownTree t (left (attempt t x)) := by
  cases x with
  | none => exact GrownTree.refl t
  | some s => exact h s rfl

theorem attempt_error {x : Option Data} (h : ¬∃ s, attempt t x = .ok s) : attempt t x = .error (.os, t) := by
  cases x with
  | none => rfl
  | some s => exact absurd ⟨s, rfl⟩ h

theorem makeParents_ok : (∃ s, makeParents umask t p = .ok s) ↔ t.clearWay p.dropLast = true := by
  simp only [makeParents, attempt_ok]
  rw [← Option.isSome_iff_exists, Tree.makeDirs_isSome]

theorem makeParents_node {s : Data} (h : makeParents umask t p = .ok s) :
    ∀ q, s.node q = if q <+: p.dropLast then some ((t.node q).getD (.dir (created umask 0o777))) else t.node q :=
  (Tree.makeDirs_some (attempt_ok.mp h)).2

theorem makeParents_grown : GrownTree t (left (makeParents umask t p)) := by
  refine attempt_grown fun s hs q => ?_
  rw [(Tree.makeDirs_some hs).2]
  split
  · cases t.node q with
    | none => exact ⟨rfl, rfl⟩
    | some n => exact Grown.refl _
  · exact Grown.refl _

/-- A directory has directories above it. -/
theorem isDirAt_above {q : Path} (h : t.isDirAt p = true) (hq : q <+: p) : t.isDirAt q = true := by
  by_cases hne : q = p
  · rw [hne]
    exact h
  · exact Tree.above_of_initial hq hne (Tree.ne_none_of_isDirAt h)

theorem clearWay_of_isDirAt (h : t.isDirAt p = true) : t.clearWay p = true :=
  Tree.clearWay_iff.mpr fun q hq =>
    ⟨t.fitting q (Tree.ne_none_of_isDirAt (isDirAt_above h hq)), fun _ => isDirAt_above h hq⟩

/-- Where the directory is there, nothing is made. -/
theorem makeParents_same {s : Data} (hdir : t.isDirAt p.dropLast = true) (h : makeParents umask t p = .ok s) :
    s.Same t := by
  intro q
  rw [makeParents_node h]
  split
  · next hq =>
    obtain ⟨n, hn⟩ := Option.ne_none_iff_exists'.mp (Tree.ne_none_of_isDirAt (isDirAt_above hdir hq))
    rw [hn]
    rfl
  · rfl

theorem put_grown {n : Node} (hnew : n.stat.origin = none ∧ (n.isDir || n.isFile) = true) (hnone : t.node p = none) :
    GrownTree t (left (attempt t (t.put p n))) := by
  refine attempt_grown fun s hs q => ?_
  rw [(Tree.put_some hs).2]
  split
  · next hq =>
    rw [hq, hnone]
    exact hnew
  · exact Grown.refl _

theorem makeDir_grown : GrownTree t (left (makeDir umask t p)) := by
  rw [makeDir]
  split
  · exact GrownTree.refl t
  · exact GrownTree.refl t
  · next hnone => exact put_grown ⟨rfl, rfl⟩ hnone

theorem openFile_grown {content : List UInt8} : GrownTree t (left (openFile umask t p content)) := by
  rw [openFile]
  split
  · intro q
    rw [left, Tree.node_alter]
    split
    · cases t.node q with
      | none => trivial
      | some n => exact Grown.rewrite n content
    · exact Grown.refl _
  · exact GrownTree.refl t
  · next hnone => exact put_grown ⟨rfl, rfl⟩ hnone

theorem writeFile_grown {m : Member} : GrownTree t (left (writeFile umask t p m)) := by
  have hopen : GrownTree t (left (openFile umask t p m.content)) := openFile_grown
  rw [writeFile]
  cases h : openFile umask t p m.content with
  | error e =>
    rw [h] at hopen
    exact hopen
  | ok s =>
    rw [h] at hopen
    have hs : GrownTree t s := hopen
    cases m.complete with
    | true => exact hs
    | false => exact hs

theorem put_ok {n : Node} (hparent : t.isDirAt p.dropLast = true) (hnone : t.node p = none) :
    (∃ s, attempt t (t.put p n) = .ok s) ↔ fits p = true := by
  simp only [attempt_ok]
  rw [← Option.isSome_iff_exists, Tree.put_isSome]
  have hnot : t.isDirAt p = false := by rw [Tree.isDirAt, hnone, Option.any_none]
  exact ⟨fun h => h.1, fun h => ⟨h, hparent, hnot⟩⟩

theorem makeDir_isOk (hparent : t.isDirAt p.dropLast = true) :
    (∃ s, makeDir umask t p = .ok s) ↔ t.isDirAt p = true ∨ (t.node p = none ∧ fits p = true) := by
  rw [makeDir]
  split
  · next stat hn => exact ⟨fun _ => Or.inl (isDirAt_iff.mpr ⟨stat, hn⟩), fun _ => ⟨t, rfl⟩⟩
  · next n hnot hn =>
    refine ⟨nofun, ?_⟩
    rintro (hdir | ⟨hnone, _⟩)
    · obtain ⟨stat, hstat⟩ := isDirAt_iff.mp hdir
      rw [hn] at hstat
      exact absurd (Option.some.inj hstat) (hnot stat)
    · rw [hn] at hnone
      cases hnone
  · next hnone =>
    rw [put_ok hparent hnone]
    refine ⟨fun hfits => Or.inr ⟨hnone, hfits⟩, ?_⟩
    rintro (hdir | ⟨_, hfits⟩)
    · exact absurd hnone (Tree.ne_none_of_isDirAt hdir)
    · exact hfits

/-- A directory that is there is kept. -/
theorem makeDir_node {s : Data} (h : makeDir umask t p = .ok s) :
    (∃ stat, s.node p = some (.dir stat) ∧ (t.isDirAt p = true → t.node p = some (.dir stat))) ∧
      ∀ q, q ≠ p → s.node q = t.node q := by
  rw [makeDir] at h
  split at h
  · next stat hn =>
    cases h
    exact ⟨⟨stat, hn, fun _ => hn⟩, fun q _ => rfl⟩
  · cases h
  · next hnone =>
    have hput := (Tree.put_some (attempt_ok.mp h)).2
    refine ⟨⟨_, by rw [hput, if_pos rfl], fun hdir => absurd hnone (Tree.ne_none_of_isDirAt hdir)⟩, fun q hq => ?_⟩
    rw [hput, if_neg hq]

theorem openFile_isOk {content : List UInt8} (hparent : t.isDirAt p.dropLast = true) :
    (∃ s, openFile umask t p content = .ok s) ↔ isFileAt t p = true ∨ (t.node p = none ∧ fits p = true) := by
  rw [openFile]
  split
  · next stat old hn => exact ⟨fun _ => Or.inl (isFileAt_iff.mpr ⟨stat, old, hn⟩), fun _ => ⟨_, rfl⟩⟩
  · next n hnot hn =>
    refine ⟨nofun, ?_⟩
    rintro (hfile | ⟨hnone, _⟩)
    · obtain ⟨stat, old, hstat⟩ := isFileAt_iff.mp hfile
      rw [hn] at hstat
      exact absurd (Option.some.inj hstat) (hnot stat old)
    · rw [hn] at hnone
      cases hnone
  · next hnone =>
    rw [put_ok hparent hnone]
    refine ⟨fun hfits => Or.inr ⟨hnone, hfits⟩, ?_⟩
    rintro (hfile | ⟨_, hfits⟩)
    · obtain ⟨stat, old, hstat⟩ := isFileAt_iff.mp hfile
      rw [hnone] at hstat
      cases hstat
    · exact hfits

theorem openFile_node {content : List UInt8} {s : Data} (h : openFile umask t p content = .ok s) :
    (∃ stat, s.node p = some (.file stat content)) ∧ ∀ q, q ≠ p → s.node q = t.node q := by
  rw [openFile] at h
  split at h
  · next stat old hn =>
    cases h
    refine ⟨⟨stat, ?_⟩, fun q hq => ?_⟩
    · rw [Tree.node_alter, if_pos rfl, hn]
      rfl
    · rw [Tree.node_alter, if_neg hq]
  · cases h
  · have hput := (Tree.put_some (attempt_ok.mp h)).2
    exact ⟨⟨_, by rw [hput, if_pos rfl]⟩, fun q hq => by rw [hput, if_neg hq]⟩

theorem makeDir_error (h : ¬∃ s, makeDir umask t p = .ok s) : makeDir umask t p = .error (.os, t) := by
  rw [makeDir] at h ⊢
  split at h
  · exact absurd ⟨t, rfl⟩ h
  · rfl
  · exact attempt_error h

theorem openFile_error {content : List UInt8} (h : ¬∃ s, openFile umask t p content = .ok s) :
    openFile umask t p content = .error (.os, t) := by
  rw [openFile] at h ⊢
  split at h
  · exact absurd ⟨_, rfl⟩ h
  · rfl
  · exact attempt_error h

theorem writeFile_ok {m : Member} {s : Data} :
    writeFile umask t p m = .ok s ↔ openFile umask t p m.content = .ok s ∧ m.complete = true := by
  rw [writeFile]
  cases openFile umask t p m.content with
  | error e => exact ⟨nofun, nofun⟩
  | ok s' =>
    cases m.complete with
    | true =>
      refine ⟨fun h => ⟨?_, rfl⟩, fun h => h.1⟩
      exact h
    | false => exact ⟨nofun, nofun⟩

end Operations

/-! ## One member -/

section Members
variable {umask : Nat} {t s : Data} {m : Member}

/-- Nothing is in the way of the member. -/
structure CanApply (t : Data) (m : Member) : Prop where
  noLink : anyLink t m.path = false
  way : t.clearWay m.path.dropLast = true
  directory : m.type = .directory → t.isDirAt m.path = true ∨ (t.node m.path = none ∧ fits m.path = true)
  file : m.type ≠ .directory → m.complete = true ∧ (isFileAt t m.path = true ∨ (t.node m.path = none ∧ fits m.path = true))

/-- The member's own place, but for the directories above it, is as it was. -/
theorem node_path_of_makeParents {t₁ : Data} (hroot : t.isDirAt [] = true) (h : makeParents umask t m.path = .ok t₁) :
    t₁.node m.path = t.node m.path := by
  rw [makeParents_node h]
  split
  · next hinitial =>
    have hnil : m.path = [] := by
      have hlength := hinitial.length_le
      rw [List.length_dropLast] at hlength
      exact List.eq_nil_of_length_eq_zero (by omega)
    obtain ⟨n, hn⟩ := Option.ne_none_iff_exists'.mp (Tree.ne_none_of_isDirAt hroot)
    rw [hnil, hn]
    rfl
  · rfl

theorem isDirAt_parent {t₁ : Data} (h : makeParents umask t m.path = .ok t₁) : t₁.isDirAt m.path.dropLast = true := by
  have hclear := makeParents_ok.mp ⟨t₁, h⟩
  rw [Tree.isDirAt, makeParents_node h, if_pos (List.prefix_refl _)]
  cases hn : t.node m.path.dropLast with
  | none => rfl
  | some n =>
    have := (Tree.clearWay_iff.mp hclear _ (List.prefix_refl _)).2 (by simp [hn])
    rw [Tree.isDirAt, hn] at this
    exact this

theorem applyEntry_eq (hlink : anyLink t m.path = false) : applyEntry umask t m =
    (makeParents umask t m.path >>= fun t₁ => writeMember umask t₁ m >>= fun t₂ =>
      pure (t₂.alter m.path (Node.own m.mode) (Node.isDir_own m.mode))) := by
  rw [applyEntry, if_neg (by simp [hlink])]

theorem writeMember_isOk (hroot : t.isDirAt [] = true) {t₁ : Data} (h : makeParents umask t m.path = .ok t₁) :
    (∃ s, writeMember umask t₁ m = .ok s) ↔
      (m.type = .directory → t.isDirAt m.path = true ∨ (t.node m.path = none ∧ fits m.path = true)) ∧
      (m.type ≠ .directory →
        m.complete = true ∧ (isFileAt t m.path = true ∨ (t.node m.path = none ∧ fits m.path = true))) := by
  have hnode := node_path_of_makeParents hroot h
  have hparent := isDirAt_parent h
  rw [writeMember]
  by_cases hdir : m.type = .directory
  · rw [if_pos hdir, makeDir_isOk hparent, Tree.isDirAt, hnode]
    exact ⟨fun h => ⟨fun _ => h, fun hne => absurd hdir hne⟩, fun h => h.1 hdir⟩
  · rw [if_neg hdir]
    simp only [writeFile_ok]
    rw [exists_and_right, openFile_isOk hparent, isFileAt, hnode]
    exact ⟨fun h => ⟨fun he => absurd he hdir, fun _ => ⟨h.2, h.1⟩⟩, fun h => ⟨(h.2 hdir).2, (h.2 hdir).1⟩⟩

theorem applyEntry_isOk (hroot : t.isDirAt [] = true) : (∃ s, applyEntry umask t m = .ok s) ↔ CanApply t m := by
  cases hlink : anyLink t m.path with
  | true =>
    rw [applyEntry, if_pos hlink]
    exact ⟨nofun, fun h => absurd (hlink.symm.trans h.noLink) (by decide)⟩
  | false =>
    rw [applyEntry_eq hlink]
    constructor
    · rintro ⟨s, hs⟩
      cases h₁ : makeParents umask t m.path with
      | error e =>
        rw [h₁] at hs
        cases hs
      | ok t₁ =>
        rw [h₁] at hs
        cases h₂ : writeMember umask t₁ m with
        | error e =>
          simp only [bind, Except.bind, h₂] at hs
          cases hs
        | ok t₂ =>
          have hplace := (writeMember_isOk hroot h₁).mp ⟨t₂, h₂⟩
          exact ⟨hlink, makeParents_ok.mp ⟨t₁, h₁⟩, hplace.1, hplace.2⟩
    · intro h
      obtain ⟨t₁, h₁⟩ := makeParents_ok.mpr h.way
      obtain ⟨t₂, h₂⟩ := (writeMember_isOk hroot h₁).mpr ⟨h.directory, h.file⟩
      rw [h₁]
      simp only [bind, Except.bind, h₂]
      exact ⟨_, rfl⟩

theorem applyEntry_grown : GrownTree t (left (applyEntry umask t m)) := by
  cases hlink : anyLink t m.path with
  | true =>
    rw [applyEntry, if_pos hlink]
    exact GrownTree.refl t
  | false =>
    have hparents : GrownTree t (left (makeParents umask t m.path)) := makeParents_grown
    rw [applyEntry_eq hlink]
    cases h₁ : makeParents umask t m.path with
    | error e =>
      rw [h₁] at hparents
      exact hparents
    | ok t₁ =>
      rw [h₁] at hparents
      have hwrite : GrownTree t₁ (left (writeMember umask t₁ m)) := by
        rw [writeMember]
        split
        · exact makeDir_grown
        · exact writeFile_grown
      cases h₂ : writeMember umask t₁ m with
      | error e =>
        rw [h₂] at hwrite
        have heq : left (Except.ok t₁ >>= fun t₁ => writeMember umask t₁ m >>= fun t₂ =>
            pure (t₂.alter m.path (Node.own m.mode) (Node.isDir_own m.mode))) = e.2 := by
          simp only [bind, Except.bind, h₂]
          rfl
        rw [heq]
        exact hparents.trans hwrite
      | ok t₂ =>
        rw [h₂] at hwrite
        have heq : left (Except.ok t₁ >>= fun t₁ => writeMember umask t₁ m >>= fun t₂ =>
            pure (t₂.alter m.path (Node.own m.mode) (Node.isDir_own m.mode))) =
            t₂.alter m.path (Node.own m.mode) (Node.isDir_own m.mode) := by
          simp only [bind, Except.bind, h₂]
          rfl
        rw [heq]
        refine hparents.trans (GrownTree.trans hwrite fun q => ?_)
        rw [left, Tree.node_alter]
        split
        · cases t₂.node q with
          | none => trivial
          | some n => exact Grown.own n m.mode
        · exact Grown.refl _

/-- An applied member: its place, and everything else. -/
structure Applied (umask : Nat) (t s : Data) (m : Member) : Prop where
  directory : m.type = .directory → ∃ stat : Stat, s.node m.path = some (.dir (stat.own m.mode)) ∧
    (t.isDirAt m.path = true → t.node m.path = some (.dir stat))
  file : m.type ≠ .directory → ∃ stat : Stat, s.node m.path = some (.file (stat.own m.mode) m.content)
  others : ∀ q, q ≠ m.path →
    s.node q = if q <+: m.path.dropLast then some ((t.node q).getD (.dir (created umask 0o777))) else t.node q

/-- Where the directory is there, nothing else changes. -/
theorem Applied.same {q : Path} (h : Applied umask t s m) (hparent : t.isDirAt m.path.dropLast = true) (hq : q ≠ m.path) :
    s.node q = t.node q := by
  rw [h.others q hq]
  split
  · next hinitial =>
    obtain ⟨n, hn⟩ := Option.ne_none_iff_exists'.mp (Tree.ne_none_of_isDirAt (isDirAt_above hparent hinitial))
    rw [hn]
    rfl
  · rfl

theorem prefix_dropLast {p q : Path} (hq : q <+: p) (hne : q ≠ p) : q <+: p.dropLast := by
  obtain ⟨r, rfl⟩ := hq
  have hnil : r ≠ [] := by
    rintro rfl
    exact hne (List.append_nil q).symm
  rw [List.dropLast_append_of_ne_nil hnil]
  exact List.prefix_append q _

theorem anyLink_of_isDirAt (hparent : t.isDirAt m.path.dropLast = true)
    (hplace : ∀ stat, t.node m.path ≠ some (.link stat)) : anyLink t m.path = false := by
  rw [anyLink, List.any_eq_false]
  intro q hq
  rw [List.mem_inits] at hq
  by_cases hne : q = m.path
  · cases hn : t.node q with
    | none => simp
    | some n =>
      cases n with
      | link stat => exact absurd (hne ▸ hn) (hplace stat)
      | file | dir | special => simp
  · obtain ⟨stat, hstat⟩ := isDirAt_iff.mp (isDirAt_above hparent (prefix_dropLast hq hne))
    rw [hstat]
    simp

theorem applyEntry_ok (hroot : t.isDirAt [] = true) (h : applyEntry umask t m = .ok s) : Applied umask t s m := by
  have hcan := (applyEntry_isOk hroot).mp ⟨s, h⟩
  obtain ⟨t₁, h₁⟩ := makeParents_ok.mpr hcan.way
  obtain ⟨t₂, h₂⟩ := (writeMember_isOk hroot h₁).mpr ⟨hcan.directory, hcan.file⟩
  rw [applyEntry_eq hcan.noLink, h₁] at h
  simp only [bind, Except.bind, h₂] at h
  cases h
  have hnode := node_path_of_makeParents hroot h₁
  rw [writeMember] at h₂
  have hothers : (∀ q, q ≠ m.path → t₂.node q = t₁.node q) → ∀ q, q ≠ m.path →
      (t₂.alter m.path (Node.own m.mode) (Node.isDir_own m.mode)).node q =
        if q <+: m.path.dropLast then some ((t.node q).getD (.dir (created umask 0o777))) else t.node q := by
    intro hsame q hq
    rw [Tree.node_alter, if_neg hq, hsame q hq, makeParents_node h₁]
  split at h₂
  · next hdir =>
    obtain ⟨⟨stat, hstat, hold⟩, hsame⟩ := makeDir_node h₂
    refine ⟨fun _ => ⟨stat, ?_, fun hthere => ?_⟩, fun hne => absurd hdir hne, hothers hsame⟩
    · rw [Tree.node_alter, if_pos rfl, hstat]
      rfl
    · rw [← hnode]
      apply hold
      rw [Tree.isDirAt, hnode]
      exact hthere
  · next hfile =>
    obtain ⟨⟨stat, hstat⟩, hsame⟩ := openFile_node (writeFile_ok.mp h₂).1
    refine ⟨fun hdir => absurd hdir hfile, fun _ => ⟨stat, ?_⟩, hothers hsame⟩
    rw [Tree.node_alter, if_pos rfl, hstat]
    rfl

end Members

end Hermes.SimpleData

import Hermes.Library.FileTree
import Hermes.Library.Outcome
import Hermes.LabGuest
import Hermes.PurePath

/- The archive of a lab guest's state (`lab_guest.validate_archive`), and what comes of
   extracting an accepted one: nothing outside the trees is touched (`extract_contained`).

   The extraction goes from member to member as any archiver does: directories above a member
   that are missing are made, links on the way are followed, and a member that cannot be put in
   its place is left out. Archivers differ in what they do with an entry that is there already;
   a `Policy` says it for each member. -/
namespace Hermes.LabGuest
open FileTree Outcome

/-- `tarfile.TarInfo.type` -/
inductive MemberType where
  | regular
  | directory
  | symlink
  | hardlink
  | other
  deriving DecidableEq, Repr

structure Member where
  name : String
  type : MemberType
  linkname : String
  content : String
  deriving DecidableEq, Repr

def Tree.name : Tree → String
  | .gatewayState => "gateway-state"
  | .gatewaySsh => "gateway-ssh"
  | .workerState => "worker-state"

/-- `raise deploy.DeployError(reason)` unless the condition holds -/
def require (ok : Bool) (reason : String) : Except String Unit := if ok then .ok () else .error reason

def validateMember (m : Member) : Except String Unit := do
  let parts := (PurePath.parse m.name).parts
  require (!parts.isEmpty && (trees.map Tree.name).contains (parts.head?.getD "") && !parts.contains ".." &&
    !startsWith m.name "/") "restore archive contains an unowned path"
  require ((m.type == .directory || m.type == .regular || m.type == .symlink) && m.type != .hardlink)
    "restore archive contains an unsupported entry"
  require (!(parts.length == 1 && m.type != .directory)) "restore root must be a directory"
  require (!(m.type == .symlink &&
    (startsWith m.linkname "/" || (PurePath.parse m.linkname).parts.contains "..")))
    "restore archive contains an unsafe symlink"

def validateArchive (members : List Member) : Except String Unit := members.forM validateMember

/-! ## Extraction -/

/-- What is done with an entry in a member's place. -/
structure Policy where
  /-- a file goes through a link, a directory is kept where a link leads to one -/
  follow : Bool
  /-- a directory is removed for another entry -/
  clear : Bool
  deriving DecidableEq, Repr

/-- The names of a path below the directory of the extraction. -/
def Member.parts (m : Member) : List String := (PurePath.parse m.name).names

/-- The text of a link, as the system reads it. -/
def targetOf (text : String) : FileTree.Target where
  absolute := startsWith text "/"
  parts := ((text.toList.splitOn '/').filter (· != [])).map String.ofList

/-- The directory that a name leads to. -/
def dirAt (fs : Fs) (root : Path) (parts : List String) : Option Path :=
  (land fs 40 root parts).filter fun q => fs q = some .dir

/-- Make the directory `done ++ [c]` unless there is one. -/
def makeDir (fs : Fs) (root : Path) (done : List String) (c : String) : Option Fs :=
  if (dirAt fs root (done ++ [c])).isSome then some fs
  else match dirAt fs root done with
    | some d => if fs (d ++ [c]) = none then some (put fs (d ++ [c]) .dir) else none
    | none => none

/-- Make the missing directories of a name, behind those that are `done`. -/
def makeParents (fs : Fs) (root : Path) : List String → List String → Fs × Bool
  | _, [] => (fs, true)
  | done, c :: rest =>
    match makeDir fs root done c with
    | some fs' => makeParents fs' root (done ++ [c]) rest
    | none => (fs, false)

/-- Put an entry in its place, over what is there. -/
def occupy (policy : Policy) (fs : Fs) (p : Path) (n : FileTree.Node) : Fs :=
  if fs p = some .dir then
    if policy.clear then put (remove fs p) p n else fs
  else put fs p n

/-- A directory, in `d` under the name `c`. -/
def extractDir (policy : Policy) (fs : Fs) (d : Path) (c : String) : Fs :=
  if fs (d ++ [c]) = some .dir then fs
  else if policy.follow && (dirAt fs d [c]).isSome then fs
  else put fs (d ++ [c]) .dir

def extractFile (policy : Policy) (fs : Fs) (d : Path) (c : String) (content : String) : Fs :=
  if policy.follow then
    match land fs 40 d [c] with
    | some q => if fs q = some .dir then fs else put fs q (.file content)
    | none => fs
  else occupy policy fs (d ++ [c]) (.file content)

def extractEntry (policy : Policy) (fs : Fs) (d : Path) (c : String) (m : Member) : Fs :=
  match m.type with
  | .directory => extractDir policy fs d c
  | .regular => extractFile policy fs d c m.content
  | .symlink => occupy policy fs (d ++ [c]) (.link (targetOf m.linkname))
  -- no accepted member
  | .hardlink | .other => fs

def extractMember (root : Path) (fs : Fs) (step : Member × Policy) : Fs :=
  let made := makeParents fs root [] step.1.parts.dropLast
  match dirAt made.1 root step.1.parts.dropLast, step.1.parts.getLast? with
  | some d, some c => if made.2 then extractEntry step.2 made.1 d c step.1 else made.1
  | _, _ => made.1

/-- Extract the members in order. -/
def extractAll (root : Path) (steps : List (Member × Policy)) (fs : Fs) : Fs := steps.foldl (extractMember root) fs

def sampleFs : Fs := ofEntries [([], .dir), (["new"], .dir), (["data"], .dir)]

/-- A link to a directory beside it, and a file below the link. -/
def sampleSteps : List (Member × Policy) :=
  [(⟨"worker-state/link", .symlink, "data", ""⟩, ⟨false, false⟩),
    (⟨"./worker-state/data/", .directory, "", ""⟩, ⟨false, false⟩),
    (⟨"worker-state/link/file", .regular, "", "text"⟩, ⟨true, false⟩)]

example : extractAll ["new"] sampleSteps sampleFs ["new", "worker-state", "data", "file"] = some (.file "text") := by
  decide +kernel

/-! ## Accepted members -/

theorem require_ok {ok : Bool} {reason : String} {u : Unit} (h : require ok reason = .ok u) : ok = true := by
  cases ok with
  | true => rfl
  | false => cases h

/-- What the validation asks of a member. -/
structure Accepted (m : Member) : Prop where
  name : ∃ t ∈ trees, ∃ rest, m.parts = t.name :: rest ∧ ".." ∉ rest ∧ (rest = [] → m.type = .directory)
  link : m.type = .symlink → (targetOf m.linkname).Descends

/-- A text that does not begin with a slash is a relative path. -/
theorem parts_relative {s : String} (h : startsWith s "/" = false) : (PurePath.parse s).parts = (PurePath.parse s).names := by
  have hroot : (PurePath.parse s).root = "" := by
    apply PurePath.parse_relative
    intro hhead
    obtain ⟨cs, hs⟩ := List.head?_eq_some_iff.mp hhead
    have hstart : startsWith s "/" = true := by
      rw [startsWith, hs]
      rfl
    rw [hstart] at h
    cases h
  rw [PurePath.parts, if_pos hroot]

/-- The names of a path hold what the system looks up, but for the points. -/
theorem descends_of_parts {text : String} (habs : startsWith text "/" = false)
    (hdots : ".." ∉ (PurePath.parse text).parts) : (targetOf text).Descends := by
  refine ⟨habs, fun hmem => hdots ?_⟩
  obtain ⟨part, hpart, hdotdot⟩ := List.mem_map.mp hmem
  rw [parts_relative habs]
  refine List.mem_map.mpr ⟨part, List.mem_filter.mpr ⟨(List.mem_filter.mp hpart).1, ?_⟩, hdotdot⟩
  have hchars : part = ['.', '.'] := by
    rw [← String.toList_ofList (l := part), hdotdot]
    rfl
  rw [hchars]
  rfl

theorem accepted_of_validate {m : Member} (h : validateMember m = .ok ()) : Accepted m := by
  obtain ⟨_, hname, h⟩ := bind_eq_ok.mp h
  obtain ⟨_, _, h⟩ := bind_eq_ok.mp h
  obtain ⟨_, hroot, hlink⟩ := bind_eq_ok.mp h
  have hname := require_ok hname
  have hroot := require_ok hroot
  have hlink := require_ok hlink
  simp only [Bool.and_eq_true, Bool.not_eq_true'] at hname
  obtain ⟨⟨⟨_, hhead⟩, hdots⟩, hslash⟩ := hname
  rw [parts_relative hslash] at hhead hdots hroot
  constructor
  · obtain ⟨t, ht, hname⟩ := List.mem_map.mp (List.contains_iff_mem.mp hhead)
    refine ⟨t, ht, m.parts.tail, ?_⟩
    have hparts : m.parts = t.name :: m.parts.tail := by
      rw [Member.parts]
      cases hnames : (PurePath.parse m.name).names with
      | nil =>
        rw [hnames] at hname
        cases t with
        | gatewayState => simp [Tree.name] at hname
        | gatewaySsh => simp [Tree.name] at hname
        | workerState => simp [Tree.name] at hname
      | cons c rest =>
        rw [hnames] at hname
        rw [hname]
        rfl
    refine ⟨hparts, fun hmem => ?_, fun hnil => ?_⟩
    · have hin : ".." ∈ (PurePath.parse m.name).names := by
        rw [show (PurePath.parse m.name).names = m.parts from rfl, hparts]
        exact List.mem_cons_of_mem _ hmem
      rw [List.contains_iff_mem.mpr hin] at hdots
      cases hdots
    · rw [hnil] at hparts
      rw [show (PurePath.parse m.name).names = m.parts from rfl, hparts] at hroot
      simpa using hroot
  · intro hsym
    rw [hsym] at hlink
    simp only [beq_self_eq_true, Bool.true_and, Bool.not_eq_true', Bool.or_eq_false_iff] at hlink
    refine descends_of_parts hlink.1 fun hmem => ?_
    rw [List.contains_iff_mem.mpr hmem] at hlink
    exact absurd hlink.2 (by decide)

theorem accepted_of_validateArchive {members : List Member} (h : validateArchive members = .ok ()) :
    ∀ m ∈ members, Accepted m := by
  induction members with
  | nil => exact fun m hm => absurd hm (List.not_mem_nil)
  | cons m members ih =>
    have hcons : (validateMember m >>= fun _ => validateArchive members) = .ok () := h
    obtain ⟨⟨⟩, hm, h⟩ := bind_eq_ok.mp hcons
    intro m' hmem
    rcases List.mem_cons.mp hmem with rfl | hmem
    · exact accepted_of_validate hm
    · exact ih h m' hmem

/-! ## Containment -/

section Containment
variable {root : Path} {fs₀ fs : Fs} {t : Tree}

/-- Where the tree is put. -/
def place (root : Path) (t : Tree) : Path := root ++ [t.name]

/-- Nothing outside the trees has changed, no tree is a link, and the links in them lead down. -/
structure Contained (root : Path) (fs₀ fs : Fs) : Prop where
  outside : ∀ q, (∀ t ∈ trees, ¬place root t <+: q) → fs q = fs₀ q
  noLink : ∀ t ∈ trees, ∀ target, fs (place root t) ≠ some (.link target)
  links : ∀ t ∈ trees, LinksDescend fs (place root t)

theorem named_name (t : Tree) : Named t.name := by
  rw [Named]
  cases t <;> decide

/-- Nothing is below an empty directory. -/
theorem contained_init (hempty : ∀ q, q ≠ [] → fs (root ++ q) = none) : Contained root fs fs where
  outside _ _ := rfl
  noLink t _ target h := by
    rw [place, hempty [t.name] (by simp)] at h
    cases h
  links t _ p c target hp h := by
    obtain ⟨s, rfl⟩ := hp
    rw [place, List.append_assoc, List.append_assoc, hempty _ (by simp)] at h
    cases h

/-- A change in one tree, whose new links are below it and lead down. -/
theorem Contained.change {fs' : Fs} (h : Contained root fs₀ fs) (ht : t ∈ trees)
    (hframe : ∀ q, ¬place root t <+: q → fs' q = fs q)
    (hnew : ∀ q target, fs' q = some (.link target) →
      fs q = some (.link target) ∨ (target.Descends ∧ q.length ≠ (place root t).length)) :
    Contained root fs₀ fs' where
  outside q hq := (hframe q (hq t ht)).trans (h.outside q hq)
  noLink t' ht' target hlink := by
    rcases hnew _ _ hlink with hold | ⟨_, hlength⟩
    · exact h.noLink t' ht' target hold
    · exact hlength (by simp [place])
  links t' ht' p c target hp hlink := by
    rcases hnew _ _ hlink with hold | ⟨hdescends, _⟩
    · exact h.links t' ht' p c target hp hold
    · exact hdescends

/-- An entry that is no link, or one that leads down and is not a tree's. -/
theorem Contained.put {q : Path} {n : FileTree.Node} (h : Contained root fs₀ fs) (ht : t ∈ trees) (hq : place root t <+: q)
    (hn : ∀ target, n = .link target → target.Descends ∧ q.length ≠ (place root t).length) :
    Contained root fs₀ (FileTree.put fs q n) := by
  refine h.change ht (fun p hp => ?_) fun p target hlink => ?_
  · exact if_neg (fun (hpq : p = q) => hp (hpq ▸ hq))
  · rw [FileTree.put] at hlink
    split at hlink
    · next hpq =>
      rw [Option.some.injEq] at hlink
      rw [hpq]
      exact Or.inr (hn target hlink)
    · exact Or.inl hlink

theorem Contained.remove {q : Path} (h : Contained root fs₀ fs) (ht : t ∈ trees) (hq : place root t <+: q) :
    Contained root fs₀ (FileTree.remove fs q) := by
  refine h.change ht (fun p hp => ?_) fun p target hlink => ?_
  · exact remove_elsewhere fun hqp => hp (hq.trans hqp)
  · rw [FileTree.remove] at hlink
    split at hlink
    · cases hlink
    · exact Or.inl hlink

theorem Contained.occupy {q : Path} {n : FileTree.Node} {policy : Policy} (h : Contained root fs₀ fs) (ht : t ∈ trees)
    (hq : place root t <+: q)
    (hn : ∀ target, n = .link target → target.Descends ∧ q.length ≠ (place root t).length) :
    Contained root fs₀ (LabGuest.occupy policy fs q n) := by
  rw [LabGuest.occupy]
  split
  · split
    · exact (h.remove ht hq).put ht hq hn
    · exact h
  · exact h.put ht hq hn

/-- A name of a tree leads below it. -/
theorem Contained.lands {n : Nat} {rest : List String} {q : Path} (h : Contained root fs₀ fs) (ht : t ∈ trees)
    (hrest : ".." ∉ rest) (hland : land fs n root (t.name :: rest) = some q) : place root t <+: q :=
  land_cons_below (named_name t) (h.links t ht) (h.noLink t ht) hrest hland

theorem Contained.dirAt_below {rest : List String} {d : Path} (h : Contained root fs₀ fs) (ht : t ∈ trees)
    (hrest : ".." ∉ rest) (hdir : dirAt fs root (t.name :: rest) = some d) : place root t <+: d :=
  h.lands ht hrest (Option.filter_eq_some_iff.mp hdir).1

theorem dirAt_nil {d : Path} (h : dirAt fs root [] = some d) : d = root := by
  have hland : land fs 40 root [] = some root := by
    rw [land, approach]
  have := (Option.filter_eq_some_iff.mp h).1
  rw [hland] at this
  cases this
  rfl

/-- The directory of an entry, and its name: the tree's own, or below the tree. -/
theorem Contained.parent_below {done rest : List String} {c : String} {d : Path} (h : Contained root fs₀ fs)
    (ht : t ∈ trees) (hrest : ".." ∉ rest) (hparts : done ++ [c] = t.name :: rest) (hdir : dirAt fs root done = some d) :
    place root t <+: d ++ [c] ∧ (rest ≠ [] → place root t <+: d) := by
  cases done with
  | nil =>
    cases hparts
    rw [dirAt_nil hdir]
    exact ⟨List.prefix_refl _, fun hne => absurd rfl hne⟩
  | cons c' done =>
    obtain ⟨rfl, hrest'⟩ := List.cons.inj hparts
    have hdone : ".." ∉ done := fun hmem => hrest (hrest' ▸ List.mem_append_left _ hmem)
    have hbelow := h.dirAt_below ht hdone hdir
    exact ⟨hbelow.trans (List.prefix_append _ _), fun _ => hbelow⟩

/-- Directories above a member are made in its tree. -/
theorem Contained.makeDir {done rest : List String} {c : String} {fs' : Fs} (h : Contained root fs₀ fs)
    (ht : t ∈ trees) (hrest : ".." ∉ rest) (hparts : done ++ [c] = t.name :: rest)
    (hmake : LabGuest.makeDir fs root done c = some fs') : Contained root fs₀ fs' := by
  rw [LabGuest.makeDir] at hmake
  split at hmake
  · cases hmake
    exact h
  · split at hmake
    · next d hd =>
      split at hmake
      · cases hmake
        exact h.put ht (h.parent_below ht hrest hparts hd).1 nofun
      · cases hmake
    · cases hmake

theorem Contained.makeParents {done rest left : List String} (h : Contained root fs₀ fs)
    (ht : t ∈ trees) (hrest : ".." ∉ rest) (hparts : done ++ left <+: t.name :: rest) :
    Contained root fs₀ (LabGuest.makeParents fs root done left).1 := by
  induction left generalizing done fs with
  | nil => exact h
  | cons c left ih =>
    rw [LabGuest.makeParents]
    split
    · next fs' hmake =>
      rw [List.append_cons] at hparts
      obtain ⟨rest', hrest'⟩ : ∃ rest', done ++ [c] = t.name :: rest' := by
        obtain ⟨more, hmore⟩ := hparts
        cases done with
        | nil =>
          cases hmore
          exact ⟨[], rfl⟩
        | cons c' done =>
          cases hmore
          exact ⟨done ++ [c], rfl⟩
      have hdots : ".." ∉ rest' := by
        intro hmem
        obtain ⟨more, hmore⟩ := hparts
        rw [hrest', List.cons_append, List.cons_append, List.cons.injEq] at hmore
        apply hrest
        rw [← hmore.2]
        simp [hmem]
      exact ih (h.makeDir ht hdots hrest' hmake) hparts
    · exact h

/-- An entry in a directory of the tree. -/
theorem Contained.entry {policy : Policy} {rest : List String} {d : Path} {c : String} {m : Member}
    (h : Contained root fs₀ fs) (ht : t ∈ trees) (hplace : place root t <+: d ++ [c])
    (hbelow : rest ≠ [] → place root t <+: d) (hroot : rest = [] → m.type = .directory)
    (hlink : m.type = .symlink → (targetOf m.linkname).Descends) (hc : c ≠ "..") :
    Contained root fs₀ (extractEntry policy fs d c m) := by
  have hne : m.type ≠ .directory → rest ≠ [] := fun hdir hnil => hdir (hroot hnil)
  unfold extractEntry
  split
  · rw [extractDir]
    split
    · exact h
    · split
      · exact h
      · exact h.put ht hplace nofun
  · next hregular =>
    rw [extractFile]
    split
    · split
      · next q hq =>
        split
        · exact h
        · -- a link in the file's place leads on from a directory of the tree
          refine h.put ht ?_ nofun
          exact FileTree.land_below (h.links t ht) (hbelow (hne (by simp [hregular]))) (by simpa using hc.symm) hq
      · exact h
    · exact h.occupy ht hplace nofun
  · next hsymlink =>
    -- a tree's own name is a directory's, so the link is below it
    refine h.occupy ht hplace fun target htarget => ⟨?_, ?_⟩
    · cases htarget
      exact hlink hsymlink
    · have hlength := (hbelow (hne (by simp [hsymlink]))).length_le
      rw [List.length_append, List.length_singleton]
      omega
  · exact h
  · exact h

/-- One accepted member. -/
theorem Contained.step {m : Member} {policy : Policy} (h : Contained root fs₀ fs) (hm : Accepted m) :
    Contained root fs₀ (extractMember root fs (m, policy)) := by
  obtain ⟨t, ht, rest, hparts, hrest, hroot⟩ := hm.name
  have hinitial : [] ++ m.parts.dropLast <+: t.name :: rest := hparts ▸ List.dropLast_prefix m.parts
  have hmade := h.makeParents ht hrest hinitial
  simp only [extractMember]
  split
  · next d c hd hc =>
    split
    · have hlast : m.parts.dropLast ++ [c] = t.name :: rest := by
        rw [← hparts, List.dropLast_append_getLast? _ hc]
      have hname : c ≠ ".." := by
        have hmem : c ∈ t.name :: rest := by
          rw [← hlast]
          simp
        rintro rfl
        rcases List.mem_cons.mp hmem with hname | hmem
        · exact (named_name t).2 hname.symm
        · exact hrest hmem
      obtain ⟨hplace, hbelow⟩ := hmade.parent_below ht hrest hlast hd
      exact hmade.entry ht hplace hbelow hroot hm.link hname
    · exact hmade
  · exact hmade

/-- **An accepted archive is extracted into the trees**: whatever the archiver does with entries
    that are there, nothing outside the trees of an empty directory is made or changed. -/
theorem extract_contained (root : Path) (fs : Fs) (steps : List (Member × Policy))
    (hempty : ∀ q, q ≠ [] → fs (root ++ q) = none) (haccepted : validateArchive (steps.map Prod.fst) = .ok ()) :
    ∀ q, (∀ t ∈ trees, ¬place root t <+: q) → extractAll root steps fs q = fs q := by
  have hall := accepted_of_validateArchive haccepted
  -- by induction over the members, for what any members before have left
  have hrun : ∀ fs', Contained root fs fs' → Contained root fs (extractAll root steps fs') := by
    clear haccepted
    induction steps with
    | nil => exact fun fs' h => h
    | cons s steps ih =>
      intro fs' h
      have hs : Contained root fs (extractMember root fs' s) := h.step (hall s.1 (by simp))
      exact ih (fun m hm => hall m (by simp [hm])) _ hs
  exact (hrun fs (contained_init hempty)).outside

theorem extract_sample : extractAll ["new"] sampleSteps sampleFs ["data", "file"] = sampleFs ["data", "file"] := by
  refine extract_contained ["new"] sampleFs sampleSteps (fun q hq => ?_) (by decide +kernel) ["data", "file"] (by decide)
  cases q with
  | nil => exact absurd rfl hq
  | cons c q => simp [sampleFs, ofEntries]

end Containment

end Hermes.LabGuest

import Mathlib.Data.List.Nodup
import Hermes.CandidateTransfer

/- What comes of a stream. Whatever is read, the received directory is the tree of the manifest
   and of the files that the loop has gone through (`Filled`), so that a stage that is accepted
   leaves exactly the enrolled candidate; and the stream that the host writes is accepted, if
   the manifest is not too long and the guest's clock is not behind. -/
namespace Hermes.Candidate
open Entries Outcome Release StableSort
open Transaction (demand demand_ok)

/-! ## The paths of safe names -/

def directories : List String := ["payload", "packages", "boot", "evidence"]

theorem startsWith_drop {s start : String} (h : startsWith s start = true) :
    s.toList = start.toList ++ s.toList.drop start.length := by
  rw [startsWith, beq_iff_eq] at h
  rw [← h, List.take_append_drop]

theorem pathOf_head {name : String} (h : safeName name = .ok name) :
    ∃ d ∈ directories, ∃ rest, pathOf name = d :: rest := by
  obtain ⟨_, _, _, _, _, hstart⟩ := safeName_ok h
  obtain ⟨start, hmem, hstart⟩ := List.any_eq_true.mp hstart
  have hdirectory : ∀ p ∈ prefixes, ∃ d ∈ directories,
      p.toList = d.toList ++ ['/'] ∧ PurePath.isName d.toList = true ∧ '/' ∉ d.toList := by decide
  obtain ⟨d, hd, htext, hname, hslash⟩ := hdirectory start hmem
  obtain ⟨tail, htail⟩ : ∃ tail, name.toList = d.toList ++ '/' :: tail := by
    have hlist := startsWith_drop hstart
    rw [htext, List.append_assoc, List.singleton_append] at hlist
    exact ⟨_, hlist⟩
  have hsplit : name.toList.splitOn '/' = d.toList :: tail.splitOn '/' := by
    rw [htail, List.splitOn_append_cons_self, List.splitOn_eq_singleton hslash, List.singleton_append]
  refine ⟨d, hd, ((tail.splitOn '/').filter PurePath.isName).map String.ofList, ?_⟩
  show ((name.toList.splitOn '/').filter PurePath.isName).map String.ofList = _
  rw [hsplit, List.filter_cons_of_pos hname, List.map_cons, String.ofList_toList]

theorem pathOf_ne_nil {name : String} (h : safeName name = .ok name) : pathOf name ≠ [] := by
  obtain ⟨d, _, rest, hpath⟩ := pathOf_head h
  rw [hpath]
  exact List.cons_ne_nil _ _

/-- A safe name is its path, joined. -/
theorem joined_pathOf {name : String} (h : safeName name = .ok name) : PurePath.joined (pathOf name) = name := by
  obtain ⟨_, _, habsolute, hstr, _, _⟩ := safeName_ok h
  have hroot : (PurePath.parse name).root = "" := by simpa [PurePath.isAbsolute] using habsolute
  have hparts : (PurePath.parse name).parts = pathOf name := by rw [PurePath.parts, if_pos hroot, pathOf]
  rw [PurePath.str, hparts, if_neg (pathOf_ne_nil h), hroot] at hstr
  simpa [pathOf] using hstr

theorem pathOf_injective {name name' : String} (h : safeName name = .ok name) (h' : safeName name' = .ok name')
    (heq : pathOf name = pathOf name') : name = name' := by
  rw [← joined_pathOf h, heq, joined_pathOf h']

/-- Beside the files there is room for a file at the top. -/
theorem apart_top {name top : String} (h : safeName name = .ok name) (htop : top ∉ directories) :
    Apart (pathOf name) [top] ∧ Apart [top] (pathOf name) := by
  obtain ⟨d, hd, rest, hpath⟩ := pathOf_head h
  have hne : d ≠ top := fun he => htop (he ▸ hd)
  rw [hpath]
  have hno : ¬ (d :: rest) <+: [top] := fun hpre => hne (List.cons_prefix_cons.mp hpre).1
  have hno' : ¬ [top] <+: d :: rest := fun hpre => hne (List.cons_prefix_cons.mp hpre).1.symm
  exact ⟨⟨hno, hno'⟩, hno', hno⟩

/-! ## The loop of the guest -/

def entryOf (f : String × Content) : Path × Content := (pathOf f.1, f.2)

/-- The tree of the manifest and of the files that are done. -/
def filesOf (raw : Content) (done : List (String × Content)) : List (Path × Content) :=
  (["manifest.json"], raw) :: done.map entryOf

section Receive

variable {tools : Tools} {policy : Policy} {manifest : Manifest} {raw : Content} {room : Path → Bool}

/-- The content is the one that the manifest records. -/
def Recorded (tools : Tools) (manifest : Manifest) (f : String × Content) : Prop :=
  ∃ record, (f.1, record) ∈ manifest.files ∧ f.2.length = record.size ∧ tools.sha256 f.2 = record.sha256

/-- What holds of what the loop has: the directory is the tree of the files that are done. -/
structure Filled (tools : Tools) (manifest : Manifest) (raw : Content) (r : Received) (done : List (String × Content)) :
    Prop where
  node : r.tree.node = treeOf .dir .file (filesOf raw done)
  seen : r.seen = (done.map Prod.fst).reverse
  nodup : (done.map Prod.fst).Nodup
  recorded : ∀ f ∈ done, Recorded tools manifest f

theorem place_ok {t t' : Tree} {p : Path} {content : Content} :
    place room t p content = .ok t' ↔ room p = true ∧ t.add p .dir (.file content) rfl = some t' := by
  unfold place
  cases hroom : room p with
  | false => simp
  | true =>
    simp only [if_true, true_and]
    cases t.add p .dir (.file content) rfl with
    | none => simp
    | some t₁ => simp

theorem readAll_ok {m : Member} {content : Content} :
    readAll m = .ok content ↔ m.size ≤ m.data.length ∧ m.data.take m.size = content := by
  unfold readAll
  split
  · next h => simp [Nat.not_le.mpr h]
  · next h => simp [Nat.not_lt.mp h]

/-- A round adds the file of its member. -/
theorem receiveMember_ok (hsafe : ∀ f ∈ manifest.files, safeName f.1 = .ok f.1) {r r' : Received} {m : Member}
    {done : List (String × Content)} (hr : Filled tools manifest raw r done)
    (h : receiveMember tools room manifest r m = .ok r') :
    Filled tools manifest raw r' (done ++ [(m.name, m.data.take m.size)]) := by
  obtain ⟨_, hmember, h⟩ := bind_eq_ok.mp h
  obtain ⟨record, hrecord, h⟩ := bind_eq_ok.mp h
  obtain ⟨_, hsize, h⟩ := bind_eq_ok.mp h
  obtain ⟨tree, hplace, h⟩ := bind_eq_ok.mp h
  obtain ⟨content, hread, h⟩ := bind_eq_ok.mp h
  obtain ⟨_, hhash, h⟩ := bind_eq_ok.mp h
  cases h
  obtain ⟨hlong, rfl⟩ := readAll_ok.mp hread
  rw [demand_ok] at hmember hsize hhash
  simp only [Bool.and_eq_true, Bool.not_eq_true', List.contains_eq_mem, decide_eq_false_iff_not] at hmember
  have hnew : m.name ∉ done.map Prod.fst := by
    have hseen := hmember.1.1.1.2
    rwa [hr.seen, List.mem_reverse] at hseen
  -- the record is the one under the member's name
  obtain ⟨f, hfind, rfl⟩ := Option.map_eq_some_iff.mp (expect_ok.mp hrecord)
  have hmem : f ∈ manifest.files := List.mem_of_find?_eq_some hfind
  have hname : f.1 = m.name := by simpa using List.find?_some hfind
  have hsafeName : safeName m.name = .ok m.name := hname ▸ hsafe f hmem
  have hnode := (add_some (fun _ => rfl) hr.node (pathOf_ne_nil hsafeName) (place_ok.mp hplace).2).2
  refine ⟨?_, ?_, ?_, ?_⟩
  · rw [hnode]
    simp [filesOf, entryOf]
  · rw [hr.seen, List.map_append, List.reverse_append]
    rfl
  · rw [List.map_append, List.nodup_append]
    refine ⟨hr.nodup, by simp, fun a ha b hb => ?_⟩
    obtain rfl : b = m.name := by simpa using hb
    exact fun he => hnew (he ▸ ha)
  · intro g hg
    rcases List.mem_append.mp hg with hg | hg
    · exact hr.recorded g hg
    · obtain rfl := List.mem_singleton.mp hg
      have hlength : (m.data.take m.size).length = m.size := by
        rw [List.length_take]
        omega
      exact ⟨f.2, by rw [← hname]; exact hmem, hlength.trans (by simpa using hsize), by simpa using hhash⟩

theorem receiveMembers_ok (hsafe : ∀ f ∈ manifest.files, safeName f.1 = .ok f.1) {members : List Member} {r r' : Received}
    {done : List (String × Content)} (hr : Filled tools manifest raw r done)
    (h : members.foldlM (receiveMember tools room manifest) r = .ok r') :
    ∃ done', Filled tools manifest raw r' done' := by
  induction members generalizing r done with
  | nil =>
    cases h
    exact ⟨done, hr⟩
  | cons m members ih =>
    obtain ⟨r₁, hround, h⟩ := foldlM_cons_ok.mp h
    exact ih (receiveMember_ok hsafe hr hround) h

theorem sameSet_iff {α : Type} [BEq α] [LawfulBEq α] {xs ys : List α} :
    sameSet xs ys = true ↔ ∀ x, x ∈ xs ↔ x ∈ ys := by
  simp only [sameSet, Bool.and_eq_true, List.all_eq_true, List.contains_iff_mem]
  exact ⟨fun h x => ⟨h.1 x, h.2 x⟩, fun h => ⟨fun x => (h x).mp, fun x => (h x).mpr⟩⟩

/-- What a stream that is accepted has brought: every file of an enrolled manifest, once. -/
structure Delivered (tools : Tools) (policy : Policy) (now : Int) (tree : Tree) (manifest : Manifest) (raw : Content)
    (done : List (String × Content)) : Prop where
  valid : validateRaw tools policy now raw = .ok manifest
  node : tree.node = treeOf .dir .file (filesOf raw done)
  nodup : (done.map Prod.fst).Nodup
  names : ∀ name, name ∈ done.map Prod.fst ↔ name ∈ manifest.files.map Prod.fst
  recorded : ∀ f ∈ done, Recorded tools manifest f

theorem validateRaw_ok {now : Int} (h : validateRaw tools policy now raw = .ok manifest) :
    tools.sha256 raw = policy.candidateSha256 ∧ raw.length ≤ 1024 * 1024 ∧ parse tools now raw = .ok manifest ∧
      manifest.host = policy.host := by
  obtain ⟨_, henrolled, h⟩ := bind_eq_ok.mp h
  obtain ⟨parsed, hparse, h⟩ := bind_eq_ok.mp h
  obtain ⟨_, hhost, h⟩ := bind_eq_ok.mp h
  cases h
  rw [demand_ok] at henrolled hhost
  simp only [Bool.and_eq_true, decide_eq_true_eq, beq_iff_eq] at henrolled hhost
  exact ⟨henrolled.2, henrolled.1, hparse, hhost⟩

/-- The names of a manifest are safe and differ. -/
theorem parse_ok {now : Int} (h : parse tools now raw = .ok manifest) :
    (∀ f ∈ manifest.files, safeName f.1 = .ok f.1) ∧ (manifest.files.map Prod.fst).Nodup := by
  obtain ⟨value, hdecode, h⟩ := bind_eq_ok.mp h
  obtain ⟨entries, hentries, hnames, hsafe⟩ := validateCandidate_ok h
  refine ⟨hsafe, ?_⟩
  obtain ⟨files, hget, hfields⟩ := Option.bind_eq_some_iff.mp hentries
  cases files with
  | obj fields =>
    obtain rfl := Option.some.inj hfields
    rw [hnames]
    exact tools.distinct raw value "files" _ hdecode hget
  | _ => cases hfields

theorem emptyTree_node : emptyTree.node = treeOf .dir .file ([] : List (Path × Content)) := by
  funext q
  rw [treeOf_none (fun _ hf => absurd hf (by simp))]
  simp [emptyTree]

theorem receive_ok {now : Int} {stream : Stream} {tree : Tree}
    (h : receive tools policy now room stream = .ok (tree, manifest)) :
    ∃ raw done, Delivered tools policy now tree manifest raw done := by
  unfold receive at h
  split at h
  · cases h
  · next first members _ =>
    obtain ⟨_, _, h⟩ := bind_eq_ok.mp h
    obtain ⟨raw, _, h⟩ := bind_eq_ok.mp h
    obtain ⟨parsed, hvalid, h⟩ := bind_eq_ok.mp h
    obtain ⟨top, htop, h⟩ := bind_eq_ok.mp h
    obtain ⟨r, hloop, h⟩ := bind_eq_ok.mp h
    obtain ⟨_, _, h⟩ := bind_eq_ok.mp h
    obtain ⟨_, hall, h⟩ := bind_eq_ok.mp h
    cases h
    have hsafe := (parse_ok (validateRaw_ok hvalid).2.2.1).1
    have hstart : Filled tools manifest raw { tree := top, seen := [] } [] := by
      refine ⟨?_, rfl, List.nodup_nil, fun _ hf => absurd hf (by simp)⟩
      exact (add_some (fun _ => rfl) emptyTree_node (by simp) (place_ok.mp htop).2).2
    obtain ⟨done, hdone⟩ := receiveMembers_ok hsafe hstart hloop
    refine ⟨raw, done, hvalid, hdone.node, hdone.nodup, fun name => ?_, hdone.recorded⟩
    rw [demand_ok, sameSet_iff] at hall
    rw [← hall name, hdone.seen, List.mem_reverse]

/-! ## What is then in the directory -/

/-- The enrolled files with their digests, and no others; a directory, or a link to one, is not looked at. -/
structure Holds (tools : Tools) (t : Tree) (raw : Content) (manifest : Manifest) : Prop where
  top : t.node ["manifest.json"] = some (.file raw)
  files : ∀ f ∈ manifest.files, ∃ content,
    t.node (pathOf f.1) = some (.file content) ∧ content.length = f.2.size ∧ tools.sha256 content = f.2.sha256
  others : ∀ p n, t.node p = some n → n = .dir ∨ n = .dirLink ∨ p = ["manifest.json"] ∨ ∃ f ∈ manifest.files, p = pathOf f.1

/-- And of directories only those on the way to the files. -/
structure Exact (tools : Tools) (t : Tree) (raw : Content) (manifest : Manifest) : Prop
    extends Holds tools t raw manifest where
  directories : ∀ p n, t.node p = some n → p = [] ∨ p = ["manifest.json"] ∨ ∃ f ∈ manifest.files, p <+: pathOf f.1
  noLinks : ∀ p, t.node p ≠ some .dirLink

theorem manifest_top : "manifest.json" ∉ directories := by decide

theorem nodup_filesOf {done : List (String × Content)} (hnodup : (done.map Prod.fst).Nodup)
    (hsafe : ∀ f ∈ done, safeName f.1 = .ok f.1) : ((filesOf raw done).map Prod.fst).Nodup := by
  rw [filesOf, List.map_cons, List.nodup_cons]
  constructor
  · intro hmem
    rw [List.map_map] at hmem
    obtain ⟨f, hf, hpath⟩ := List.mem_map.mp hmem
    have htop : pathOf f.1 = ["manifest.json"] := hpath
    exact (apart_top (hsafe f hf) manifest_top).1.1 (htop ▸ List.prefix_rfl)
  · rw [List.map_map]
    have hpaths : done.map (Prod.fst ∘ entryOf) = (done.map Prod.fst).map pathOf := by
      rw [List.map_map]
      rfl
    rw [hpaths]
    refine hnodup.map_on fun a ha b hb heq => ?_
    obtain ⟨f, hf, rfl⟩ := List.mem_map.mp ha
    obtain ⟨g, hg, rfl⟩ := List.mem_map.mp hb
    exact pathOf_injective (hsafe f hf) (hsafe g hg) heq

theorem Delivered.exact {now : Int} {tree : Tree} {done : List (String × Content)}
    (h : Delivered tools policy now tree manifest raw done) : Exact tools tree raw manifest := by
  obtain ⟨hsafe, hdistinct⟩ := parse_ok (validateRaw_ok h.valid).2.2.1
  have hmem : ∀ f ∈ done, ∃ g ∈ manifest.files, g.1 = f.1 := fun f hf =>
    List.mem_map.mp ((h.names f.1).mp (List.mem_map_of_mem hf))
  have hsafeDone : ∀ f ∈ done, safeName f.1 = .ok f.1 := by
    intro f hf
    obtain ⟨g, hg, hname⟩ := hmem f hf
    exact hname ▸ hsafe g hg
  have hnodup : ((filesOf raw done).map Prod.fst).Nodup := nodup_filesOf h.nodup hsafeDone
  -- every entry of the tree is a file that is done, or on the way to one
  have hentry : ∀ f ∈ filesOf raw done, f.1 = ["manifest.json"] ∨ ∃ g ∈ manifest.files, f.1 = pathOf g.1 := by
    intro f hf
    rcases List.mem_cons.mp hf with rfl | hf
    · exact Or.inl rfl
    · obtain ⟨d, hd, rfl⟩ := List.mem_map.mp hf
      obtain ⟨g, hg, hname⟩ := hmem d hd
      exact Or.inr ⟨g, hg, by rw [entryOf, hname]⟩
  refine ⟨⟨?_, fun f hf => ?_, fun p n hp => ?_⟩, fun p n hp => ?_, fun p hp => ?_⟩
  · rw [h.node]
    exact treeOf_file hnodup List.mem_cons_self
  · obtain ⟨g, hg, hname⟩ := List.mem_map.mp ((h.names f.1).mpr (List.mem_map_of_mem hf))
    obtain ⟨record, hrecord, hlength, hhash⟩ := h.recorded g hg
    have hsame : f = (g.1, record) := List.inj_on_of_nodup_map hdistinct hf hrecord hname.symm
    refine ⟨g.2, ?_, by rw [hsame]; exact hlength, by rw [hsame]; exact hhash⟩
    rw [h.node, ← hname]
    exact treeOf_file hnodup (List.mem_cons_of_mem _ (List.mem_map_of_mem hg))
  · rw [h.node] at hp
    rcases treeOf_cases hp with ⟨f, hf, rfl, _⟩ | ⟨rfl, _⟩
    · exact Or.inr (Or.inr (hentry f hf))
    · exact Or.inl rfl
  · rw [h.node] at hp
    rcases treeOf_cases hp with ⟨f, hf, rfl, _⟩ | ⟨_, rfl | ⟨f, hf, hway⟩⟩
    · rcases hentry f hf with htop | ⟨g, hg, hpath⟩
      · exact Or.inr (Or.inl htop)
      · exact Or.inr (Or.inr ⟨g, hg, hpath ▸ List.prefix_rfl⟩)
    · exact Or.inl rfl
    · rcases hentry f hf with htop | ⟨g, hg, hpath⟩
      · rw [htop] at hway
        rcases List.prefix_cons_iff.mp hway with hnil | ⟨q, hq, hnil⟩
        · exact Or.inl hnil
        · exact Or.inr (Or.inl (by rw [hq, List.prefix_nil.mp hnil]))
      · exact Or.inr (Or.inr ⟨g, hg, hpath ▸ hway⟩)
  · rw [h.node] at hp
    rcases treeOf_cases hp with ⟨f, _, _, hfile⟩ | ⟨hdir, _⟩
    · cases hfile
    · cases hdir

/-! ## A directory that is there already -/

theorem regularFile_ok {reason : String} {guard : Path → Option String} {t : Tree} {p : Path} {content : Content}
    (h : regularFile reason guard t p = .ok content) : t.node p = some (.file content) := by
  unfold regularFile at h
  split at h
  · next hnode =>
    split at h
    · cases h
      exact hnode
    · cases h
  · cases h
  · cases h

theorem mem_nonDirectories {t : Tree} {p : Path} :
    p ∈ nonDirectories t ↔ p ≠ [] ∧ t.node p ≠ none ∧ t.node p ≠ some .dir ∧ t.node p ≠ some .dirLink := by
  rw [nonDirectories, List.mem_filter, Tree.mem_below]
  simp [and_assoc]

/-- What is checked of a tree: the files under their names with their digests, and that nothing
    else is there that is no directory. -/
theorem checked_tree {unsafeType top : String} {guard : Path → Option String} {t : Tree} {changed : String}
    (hset : sameSet (nonDirectories t) (manifest.files.map (fun f => pathOf f.1) ++ [[top]]) = true)
    (hfiles : manifest.files.forM (fun f => do
      let content ← regularFile unsafeType guard t (pathOf f.1)
      demand (content.length == f.2.size && tools.sha256 content == f.2.sha256) changed) = .ok ()) :
    (∀ f ∈ manifest.files, ∃ content, t.node (pathOf f.1) = some (.file content) ∧ content.length = f.2.size ∧
        tools.sha256 content = f.2.sha256) ∧
      ∀ p n, t.node p = some n → n = .dir ∨ n = .dirLink ∨ p = [] ∨ p = [top] ∨ ∃ f ∈ manifest.files, p = pathOf f.1 := by
  constructor
  · intro f hf
    obtain ⟨content, hread, hcheck⟩ := bind_eq_ok.mp (forM_ok.mp hfiles f hf)
    rw [demand_ok, Bool.and_eq_true, beq_iff_eq, beq_iff_eq] at hcheck
    exact ⟨content, regularFile_ok hread, hcheck.1, hcheck.2⟩
  · intro p n hp
    by_cases hdir : n = .dir
    · exact Or.inl hdir
    by_cases hlink : n = .dirLink
    · exact Or.inr (Or.inl hlink)
    by_cases hroot : p = []
    · exact Or.inr (Or.inr (Or.inl hroot))
    have hmem : p ∈ nonDirectories t := mem_nonDirectories.mpr ⟨hroot, by simp [hp], by simp [hp, hdir], by simp [hp, hlink]⟩
    rcases List.mem_append.mp ((sameSet_iff.mp hset p).mp hmem) with h | h
    · obtain ⟨f, hf, rfl⟩ := List.mem_map.mp h
      exact Or.inr (Or.inr (Or.inr (Or.inr ⟨f, hf, rfl⟩)))
    · exact Or.inr (Or.inr (Or.inr (Or.inl (List.mem_singleton.mp h))))

theorem root_dir {t : Tree} {p : Path} {n : Node} (hne : p ≠ []) (hp : t.node p = some n) : t.node [] = some .dir := by
  have hdir := Tree.above_of_initial (t := t) (p := []) (q := p) List.nil_prefix (Ne.symm hne) (by simp [hp])
  obtain ⟨m, hm, hdir⟩ := Tree.isDirAt_iff.mp hdir
  cases m with
  | dir => exact hm
  | file _ => cases hdir
  | dirLink => cases hdir
  | other => cases hdir

theorem verifyTree_ok {now : Int} {guard : Path → Option String} {t : Tree}
    (h : verifyTree tools policy now guard t = .ok manifest) :
    ∃ raw, validateRaw tools policy now raw = .ok manifest ∧ Holds tools t raw manifest := by
  obtain ⟨raw, hraw, h⟩ := bind_eq_ok.mp h
  obtain ⟨parsed, hvalid, h⟩ := bind_eq_ok.mp h
  obtain ⟨_, hset, h⟩ := bind_eq_ok.mp h
  obtain ⟨_, hfiles, h⟩ := bind_eq_ok.mp h
  cases h
  obtain ⟨hfiles, hothers⟩ := checked_tree (demand_ok.mp hset) hfiles
  refine ⟨raw, hvalid, regularFile_ok hraw, hfiles, fun p n hp => ?_⟩
  rcases hothers p n hp with hdir | hlink | rfl | htop | hfile
  · exact Or.inl hdir
  · exact Or.inr (Or.inl hlink)
  · -- the root is above the manifest
    have hroot := root_dir (by simp) (regularFile_ok hraw)
    exact Or.inl (Option.some.inj (hp.symm.trans hroot))
  · exact Or.inr (Or.inr (Or.inl htop))
  · exact Or.inr (Or.inr (Or.inr hfile))

/-- What a stage promises, whatever it is sent. -/
def StageHolds (tools : Tools) (policy : Policy) (before : Place) (result : Except Exc Manifest × Place) : Prop :=
  match result with
  | (.ok _, after) => ∃ t raw manifest, after = .dir t ∧ tools.sha256 raw = policy.candidateSha256 ∧
      (∃ now, parse tools now raw = .ok manifest) ∧ manifest.host = policy.host ∧ Holds tools t raw manifest ∧
      (before = .absent → Exact tools t raw manifest) ∧ (before ≠ .absent → after = before)
  | (.error _, after) => after = before

theorem stage_holds (c : Circumstances) (before : Place) (stream : Stream) :
    StageHolds tools policy before (stage tools policy c before stream) := by
  unfold stage
  cases hreceive : c.ready >>= fun _ => receive tools policy c.now c.room stream with
  | error e => exact rfl
  | ok received =>
    obtain ⟨incoming, manifest⟩ := received
    obtain ⟨_, _, hreceive⟩ := bind_eq_ok.mp hreceive
    obtain ⟨raw, done, hdelivered⟩ := receive_ok hreceive
    cases before with
    | absent =>
      simp only
      split
      · obtain ⟨hsha, _, hparse, hhost⟩ := validateRaw_ok hdelivered.valid
        have hexact := hdelivered.exact
        exact ⟨incoming, raw, manifest, rfl, hsha, ⟨_, hparse⟩, hhost, hexact.toHolds, fun _ => hexact,
          fun hne => absurd rfl hne⟩
      · exact rfl
    | dir t =>
      show StageHolds tools policy (.dir t) ((verifyTree tools policy c.later c.guard t).map fun _ => manifest, .dir t)
      cases hverify : verifyTree tools policy c.later c.guard t with
      | error e => exact rfl
      | ok checked =>
        obtain ⟨raw', hvalid, hholds⟩ := verifyTree_ok hverify
        obtain ⟨hsha, _, hparse, hhost⟩ := validateRaw_ok hvalid
        exact ⟨t, raw', checked, rfl, hsha, ⟨_, hparse⟩, hhost, hholds, fun habsent => (by cases habsent),
          fun _ => rfl⟩
    | other => exact rfl

end Receive

end Hermes.Candidate

import Hermes.CandidateReceived

/- The stream that the host writes of a directory it has accepted: the guest accepts it, with
   the same files and bytes (`receive_archived`), if the manifest is not longer than the guest
   reads and the guest's clock is not behind. The host itself looks at neither, so that it can
   send a candidate that the guest refuses (`longer_refused`). -/
namespace Hermes.Candidate
open Entries Outcome Release StableSort
open Transaction (demand demand_ok)

/-! ## What the host has accepted -/

/-- The content of the file at a path. -/
def contentAt (t : Tree) (p : Path) : Content :=
  match t.node p with
  | some (.file content) => content
  | _ => []

theorem contentAt_file {t : Tree} {p : Path} {content : Content} (h : t.node p = some (.file content)) :
    contentAt t p = content := by
  rw [contentAt, h]

section Archive

variable {tools : Tools} {now now' : Int} {guard owned : Path → Option String} {t : Tree} {manifest : Manifest}
  {raw : Content} {stream : Stream} {room : Path → Bool}

structure Frozen (tools : Tools) (t : Tree) (raw : Content) (manifest : Manifest) : Prop where
  top : t.node ["candidate.json"] = some (.file raw)
  files : ∀ f ∈ manifest.files, t.node (pathOf f.1) = some (.file (contentAt t (pathOf f.1))) ∧
    (contentAt t (pathOf f.1)).length = f.2.size ∧ tools.sha256 (contentAt t (pathOf f.1)) = f.2.sha256
  others : ∀ p content, t.node p = some (.file content) →
    p = ["candidate.json"] ∨ ∃ f ∈ manifest.files, p = pathOf f.1
  safe : ∀ f ∈ manifest.files, safeName f.1 = .ok f.1
  distinct : (manifest.files.map Prod.fst).Nodup

theorem candidate_ok (h : candidate tools now guard owned t = .ok (manifest, raw)) :
    parse tools now raw = .ok manifest ∧ Frozen tools t raw manifest := by
  obtain ⟨raw', hraw, h⟩ := bind_eq_ok.mp h
  obtain ⟨parsed, hparse, h⟩ := bind_eq_ok.mp h
  obtain ⟨_, hset, h⟩ := bind_eq_ok.mp h
  obtain ⟨_, hfiles, h⟩ := bind_eq_ok.mp h
  cases h
  obtain ⟨hfiles, hothers⟩ := checked_tree (demand_ok.mp hset) hfiles
  have htop := regularFile_ok hraw
  refine ⟨hparse, htop, fun f hf => ?_, fun p content hp => ?_, (parse_ok hparse).1, (parse_ok hparse).2⟩
  · obtain ⟨content, hnode, hcontent⟩ := hfiles f hf
    rw [contentAt_file hnode]
    exact ⟨hnode, hcontent⟩
  · rcases hothers p _ hp with hdir | hlink | rfl | hpath | hfile
    · cases hdir
    · cases hlink
    · rw [root_dir (by simp) htop] at hp
      cases hp
    · exact Or.inl hpath
    · exact Or.inr hfile

theorem addFile_ok {name : String} {size : Nat} {content : Content} {m : Member}
    (h : addFile name size content = .ok m) : m = { name, size, data := content.take size } := by
  unfold addFile at h
  split at h
  · cases h
  · split at h
    · cases h
    · cases h
      rfl

/-- The member of a file that is as long as its record says. -/
def memberOf (t : Tree) (f : String × Release.FileRecord) : Member :=
  { name := f.1, size := f.2.size, data := contentAt t (pathOf f.1) }

def headerOf (raw : Content) : Member := { name := "candidate.json", size := raw.length, data := raw }

theorem mem_sendOrder {f : String × Release.FileRecord} : f ∈ sendOrder manifest ↔ f ∈ manifest.files :=
  (perm_sortBy _ _).mem_iff

theorem archiveCandidate_ok (hfrozen : Frozen tools t raw manifest) (h : archiveCandidate t raw manifest = .ok stream) :
    stream = { members := headerOf raw :: (sendOrder manifest).map (memberOf t) } := by
  obtain ⟨first, hfirst, h⟩ := bind_eq_ok.mp h
  obtain ⟨members, hmembers, h⟩ := bind_eq_ok.mp h
  cases h
  have hheader : first = headerOf raw := by rw [addFile_ok hfirst, List.take_length, headerOf]
  have hrest : members = (sendOrder manifest).map (memberOf t) := by
    refine mapM_eq_map (fun f hf m hm => ?_) hmembers
    obtain ⟨hnode, hlength, _⟩ := hfrozen.files f (mem_sendOrder.mp hf)
    simp only [hnode] at hm
    rw [addFile_ok hm, memberOf, ← hlength, List.take_length]
  rw [hheader, hrest]

/-! ## The loop over what was sent -/

def sentOf (t : Tree) (f : String × Release.FileRecord) : String × Content := (f.1, contentAt t (pathOf f.1))

theorem apart_files {p q : Path} {content content' : Content} (hne : p ≠ q) (hp : t.node p = some (.file content))
    (hq : t.node q = some (.file content')) : Apart p q := by
  have hpdir : t.isDirAt p = false := by rw [Tree.isDirAt, hp]; rfl
  have hqdir : t.isDirAt q = false := by rw [Tree.isDirAt, hq]; rfl
  exact Tree.apart_leaves hne (by simp [hp]) (by simp [hq]) hpdir hqdir

/-- A file that was not sent yet is apart from those that were. -/
theorem apart_done (hfrozen : Frozen tools t raw manifest) {r : Received} {done : List (String × Content)}
    (hr : Filled tools manifest raw r done) {f : String × Release.FileRecord} (hf : f ∈ manifest.files)
    (hnew : f.1 ∉ done.map Prod.fst) : ∀ g ∈ filesOf raw done, Apart (pathOf f.1) g.1 := by
  intro g hg
  rcases List.mem_cons.mp hg with rfl | hg
  · exact (apart_top (hfrozen.safe f hf) manifest_top).1
  · obtain ⟨d, hd, rfl⟩ := List.mem_map.mp hg
    obtain ⟨record, hrecord, _⟩ := hr.recorded d hd
    have hne : pathOf f.1 ≠ pathOf d.1 := by
      intro heq
      have hname := pathOf_injective (hfrozen.safe f hf) (hfrozen.safe _ hrecord) heq
      exact hnew (hname ▸ List.mem_map_of_mem hd)
    exact apart_files hne (hfrozen.files f hf).1 (hfrozen.files _ hrecord).1

theorem find_file {files : List (String × Release.FileRecord)} (hdistinct : (files.map Prod.fst).Nodup)
    {f : String × Release.FileRecord} (hf : f ∈ files) : files.find? (fun g => g.1 == f.1) = some f := by
  cases hfind : files.find? (fun g => g.1 == f.1) with
  | none => exact absurd (List.find?_eq_none.mp hfind f hf) (by simp)
  | some g =>
    have hname : g.1 = f.1 := by simpa using List.find?_some hfind
    rw [List.inj_on_of_nodup_map hdistinct (List.mem_of_find?_eq_some hfind) hf hname]

theorem receiveMember_sent (hfrozen : Frozen tools t raw manifest) (hroom : ∀ p, room p = true) {r : Received}
    {done : List (String × Content)} (hr : Filled tools manifest raw r done) {f : String × Release.FileRecord}
    (hf : f ∈ manifest.files) (hnew : f.1 ∉ done.map Prod.fst) :
    ∃ r', receiveMember tools room manifest r (memberOf t f) = .ok r' ∧
      Filled tools manifest raw r' (done ++ [sentOf t f]) := by
  obtain ⟨_, hlength, hhash⟩ := hfrozen.files f hf
  have hfind := find_file hfrozen.distinct hf
  have htake : (contentAt t (pathOf f.1)).take f.2.size = contentAt t (pathOf f.1) := by
    rw [← hlength, List.take_length]
  -- the disk takes the file, as nothing is in its way
  have hadds : (r.tree.add (pathOf f.1) .dir (.file (contentAt t (pathOf f.1))) rfl).isSome = true :=
    add_isSome hr.node (pathOf_ne_nil (hfrozen.safe f hf)) (apart_done hfrozen hr hf hnew) (fun _ _ => rfl)
  obtain ⟨tree, hadd⟩ := Option.isSome_iff_exists.mp hadds
  have hround : receiveMember tools room manifest r (memberOf t f) = .ok { tree, seen := f.1 :: r.seen } := by
    refine bind_eq_ok.mpr ⟨(), demand_ok.mpr ?_, bind_eq_ok.mpr ⟨f.2, ?_, bind_eq_ok.mpr ⟨(), ?_, ?_⟩⟩⟩
    · have hany : manifest.files.any (fun g => g.1 == f.1) = true := List.any_eq_true.mpr ⟨f, hf, by simp⟩
      have hseen : f.1 ∉ r.seen := by rwa [hr.seen, List.mem_reverse]
      simp [memberOf, hany, hseen]
    · rw [expect_ok, memberOf, hfind, Option.map_some]
    · exact demand_ok.mpr (by simp [memberOf])
    · refine bind_eq_ok.mpr ⟨tree, ?_, bind_eq_ok.mpr ⟨contentAt t (pathOf f.1), ?_, bind_eq_ok.mpr ⟨(), ?_, rfl⟩⟩⟩
      · rw [place_ok, memberOf, htake]
        exact ⟨hroom _, hadd⟩
      · exact readAll_ok.mpr ⟨hlength.ge, htake⟩
      · exact demand_ok.mpr (by simp [hhash])
  refine ⟨_, hround, ?_⟩
  have hfilled := receiveMember_ok hfrozen.safe hr hround
  rwa [memberOf, htake] at hfilled

theorem receiveMembers_sent (hfrozen : Frozen tools t raw manifest) (hroom : ∀ p, room p = true)
    {files : List (String × Release.FileRecord)} (hfiles : ∀ f ∈ files, f ∈ manifest.files) {r : Received}
    {done : List (String × Content)} (hr : Filled tools manifest raw r done)
    (hnodup : (done.map Prod.fst ++ files.map Prod.fst).Nodup) :
    ∃ r', (files.map (memberOf t)).foldlM (receiveMember tools room manifest) r = .ok r' ∧
      Filled tools manifest raw r' (done ++ files.map (sentOf t)) := by
  induction files generalizing r done with
  | nil => exact ⟨r, rfl, by simpa using hr⟩
  | cons f files ih =>
    rw [List.map_cons, List.nodup_append] at hnodup
    have hnew : f.1 ∉ done.map Prod.fst := fun hmem => hnodup.2.2 _ hmem _ (by simp) rfl
    obtain ⟨r₁, hround, hr₁⟩ := receiveMember_sent hfrozen hroom hr (hfiles f (by simp)) hnew
    have hrest : ((done ++ [sentOf t f]).map Prod.fst ++ files.map Prod.fst).Nodup := by
      rw [List.map_append, List.append_assoc, List.nodup_append]
      exact hnodup
    obtain ⟨r', hloop, hr'⟩ := ih (fun g hg => hfiles g (by simp [hg])) hr₁ hrest
    refine ⟨r', foldlM_cons_ok.mpr ⟨r₁, hround, hloop⟩, ?_⟩
    rwa [List.append_assoc, List.singleton_append, ← List.map_cons] at hr'

/-! ## The whole stream -/

/-- The received directory has the files of the frozen one, and the manifest under its own name. -/
structure SameFiles (raw : Content) (t received : Tree) : Prop where
  files : ∀ p content, received.node p = some (.file content) ↔
    (p = ["manifest.json"] ∧ content = raw) ∨ (p ≠ ["candidate.json"] ∧ t.node p = some (.file content))
  others : ∀ p n, received.node p = some n → n = .dir ∨ ∃ content, n = .file content

theorem candidate_top : "candidate.json" ∉ directories := by decide

theorem sameFiles (hfrozen : Frozen tools t raw manifest) {received : Tree}
    (hnode : received.node = treeOf .dir .file (filesOf raw ((sendOrder manifest).map (sentOf t)))) :
    SameFiles raw t received := by
  have hnames : (((sendOrder manifest).map (sentOf t)).map Prod.fst).Nodup := by
    rw [List.map_map]
    exact (((perm_sortBy _ _).map Prod.fst).nodup_iff).mpr hfrozen.distinct
  have hsafe : ∀ f ∈ (sendOrder manifest).map (sentOf t), safeName f.1 = .ok f.1 := by
    intro f hf
    obtain ⟨g, hg, rfl⟩ := List.mem_map.mp hf
    exact hfrozen.safe g (mem_sendOrder.mp hg)
  have hnodup : ((filesOf raw ((sendOrder manifest).map (sentOf t))).map Prod.fst).Nodup := nodup_filesOf hnames hsafe
  refine ⟨fun p content => ⟨fun hp => ?_, fun hp => ?_⟩, fun p n hp => ?_⟩
  · rw [hnode] at hp
    rcases treeOf_cases hp with ⟨f, hf, rfl, hfile⟩ | ⟨hdir, _⟩
    · rw [Node.file.injEq] at hfile
      rcases List.mem_cons.mp hf with rfl | hf
      · exact Or.inl ⟨rfl, hfile⟩
      · obtain ⟨d, hd, rfl⟩ := List.mem_map.mp hf
        obtain ⟨g, hg, rfl⟩ := List.mem_map.mp hd
        have hmem := mem_sendOrder.mp hg
        refine Or.inr ⟨fun htop => ?_, ?_⟩
        · exact (apart_top (hfrozen.safe g hmem) candidate_top).1.1 (htop ▸ List.prefix_rfl)
        · rw [hfile]
          exact (hfrozen.files g hmem).1
    · cases hdir
  · rw [hnode]
    rcases hp with ⟨rfl, rfl⟩ | ⟨hne, hp⟩
    · exact treeOf_file hnodup List.mem_cons_self
    · rcases hfrozen.others p content hp with htop | ⟨f, hf, rfl⟩
      · exact absurd htop hne
      · have hmem : entryOf (sentOf t f) ∈ filesOf raw ((sendOrder manifest).map (sentOf t)) :=
          List.mem_cons_of_mem _ (List.mem_map_of_mem (List.mem_map_of_mem (mem_sendOrder.mpr hf)))
        rw [← contentAt_file hp]
        exact treeOf_file hnodup hmem
  · rw [hnode] at hp
    rcases treeOf_cases hp with ⟨f, _, _, hfile⟩ | ⟨hdir, _⟩
    · exact Or.inr ⟨_, hfile⟩
    · exact Or.inl hdir

theorem parse_later (hnow : now ≤ now') (h : parse tools now raw = .ok manifest) :
    parse tools now' raw = .ok manifest :=
  bind_mono (fun _ h => validateCandidate_later hnow h) h

theorem validateRaw_sent (hnow : now ≤ now') (hsize : raw.length ≤ 1024 * 1024)
    (hparse : parse tools now raw = .ok manifest) :
    validateRaw tools { candidateSha256 := tools.sha256 raw, host := manifest.host } now' raw = .ok manifest := by
  refine bind_eq_ok.mpr ⟨(), demand_ok.mpr ?_, bind_eq_ok.mpr ⟨manifest, parse_later hnow hparse, ?_⟩⟩
  · rw [Bool.and_eq_true, decide_eq_true_eq, beq_iff_eq]
    exact ⟨hsize, rfl⟩
  · exact bind_eq_ok.mpr ⟨(), demand_ok.mpr (beq_self_eq_true _), rfl⟩

/-- A stream that the host writes is accepted where its manifest is enrolled. -/
theorem receive_archived (hcandidate : candidate tools now guard owned t = .ok (manifest, raw))
    (harchive : archiveCandidate t raw manifest = .ok stream) (hsize : raw.length ≤ 1024 * 1024) (hnow : now ≤ now')
    (hroom : ∀ p, room p = true) :
    ∃ received, receive tools { candidateSha256 := tools.sha256 raw, host := manifest.host } now' room stream =
      .ok (received, manifest) ∧ SameFiles raw t received := by
  obtain ⟨hparse, hfrozen⟩ := candidate_ok hcandidate
  obtain rfl := archiveCandidate_ok hfrozen harchive
  have hadds : (emptyTree.add ["manifest.json"] .dir (.file raw) rfl).isSome = true :=
    add_isSome emptyTree_node (by simp) (fun _ hf => absurd hf (by simp)) (fun _ _ => rfl)
  obtain ⟨top, htop⟩ := Option.isSome_iff_exists.mp hadds
  have hstart : Filled tools manifest raw { tree := top, seen := [] } [] := by
    refine ⟨?_, rfl, List.nodup_nil, fun _ hf => absurd hf (by simp)⟩
    exact (add_some (fun _ => rfl) emptyTree_node (by simp) htop).2
  have hperm : ((sendOrder manifest).map Prod.fst).Perm (manifest.files.map Prod.fst) := (perm_sortBy _ _).map Prod.fst
  obtain ⟨r, hloop, hr⟩ := receiveMembers_sent hfrozen hroom (fun _ => mem_sendOrder.mp) hstart
    (by simpa using hperm.nodup_iff.mpr hfrozen.distinct)
  refine ⟨r.tree, ?_, sameFiles hfrozen hr.node⟩
  have hall : sameSet r.seen (manifest.files.map Prod.fst) = true := by
    rw [sameSet_iff]
    intro name
    rw [hr.seen, List.mem_reverse, List.nil_append, List.map_map]
    exact hperm.mem_iff
  refine bind_eq_ok.mpr ⟨(), demand_ok.mpr ?_, bind_eq_ok.mpr ⟨raw, ?_, bind_eq_ok.mpr ⟨manifest, ?_, ?_⟩⟩⟩
  · rw [decide_eq_true (show (headerOf raw).size ≤ 1024 * 1024 from hsize)]
    rfl
  · exact readAll_ok.mpr ⟨le_refl _, List.take_length⟩
  · exact validateRaw_sent hnow hsize hparse
  · refine bind_eq_ok.mpr ⟨top, place_ok.mpr ⟨hroom _, htop⟩, bind_eq_ok.mpr ⟨r, hloop, ?_⟩⟩
    exact bind_eq_ok.mpr ⟨(), rfl, bind_eq_ok.mpr ⟨(), demand_ok.mpr hall, rfl⟩⟩

/-! ## The converse for the host -/

/-- What the host accepts is what it is said to accept, where every file is trusted. -/
theorem candidate_of_frozen (hparse : parse tools now raw = .ok manifest) (hfrozen : Frozen tools t raw manifest)
    (hguard : ∀ p, guard p = none) (howned : ∀ p, owned p = none)
    (hothers : ∀ p n, t.node p = some n → n = .dir ∨ ∃ content, n = .file content) :
    candidate tools now guard owned t = .ok (manifest, raw) := by
  have hset : sameSet (nonDirectories t) (manifest.files.map (fun f => pathOf f.1) ++ [["candidate.json"]]) = true := by
    rw [sameSet_iff]
    intro p
    rw [mem_nonDirectories, List.mem_append, List.mem_singleton]
    constructor
    · intro h
      obtain ⟨_, hthere, hdir, _⟩ := h
      obtain ⟨n, hn⟩ := Option.ne_none_iff_exists'.mp hthere
      rcases hothers p n hn with rfl | ⟨content, rfl⟩
      · exact absurd hn hdir
      · rcases hfrozen.others p content hn with htop | ⟨f, hf, rfl⟩
        · exact Or.inr htop
        · exact Or.inl (List.mem_map_of_mem hf)
    · intro h
      rcases h with h | rfl
      · obtain ⟨f, hf, rfl⟩ := List.mem_map.mp h
        have hnode := (hfrozen.files f hf).1
        exact ⟨pathOf_ne_nil (hfrozen.safe f hf), by simp [hnode], by simp [hnode], by simp [hnode]⟩
      · have hnode := hfrozen.top
        exact ⟨by simp, by simp [hnode], by simp [hnode], by simp [hnode]⟩
  have hfiles : ∀ f ∈ manifest.files, (do
      let content ← regularFile "untrusted-signing-input" owned t (pathOf f.1)
      demand (content.length == f.2.size && tools.sha256 content == f.2.sha256) "frozen-candidate-changed") = .ok () := by
    intro f hf
    obtain ⟨hnode, hlength, hhash⟩ := hfrozen.files f hf
    refine bind_eq_ok.mpr ⟨contentAt t (pathOf f.1), ?_, demand_ok.mpr (by simp [hlength, hhash])⟩
    simp only [regularFile, hnode, howned]
  refine bind_eq_ok.mpr ⟨raw, ?_, bind_eq_ok.mpr ⟨manifest, hparse, bind_eq_ok.mpr ⟨(), demand_ok.mpr hset, ?_⟩⟩⟩
  · simp only [regularFile, hfrozen.top, hguard]
  · exact bind_eq_ok.mpr ⟨(), forM_ok.mpr hfiles, rfl⟩

theorem mapM_of_ok {α β ε : Type} {f : α → Except ε β} {g : α → β} {l : List α} (hf : ∀ x ∈ l, f x = .ok (g x)) :
    l.mapM f = .ok (l.map g) := by
  induction l with
  | nil => rfl
  | cons x l ih =>
    rw [List.mapM_cons, hf x (by simp), ih fun y hy => hf y (by simp [hy])]
    rfl

theorem addFile_of_short {name : String} {content : Content} (hname : ustarName name = true)
    (hsize : content.length < 8 ^ 11) :
    addFile name content.length content = .ok { name, size := content.length, data := content } := by
  have hheader : ¬ ((!ustarName name || decide (8 ^ 11 ≤ content.length)) = true) := by
    rw [hname, decide_eq_false (Nat.not_le.mpr hsize)]
    decide
  rw [addFile, if_neg hheader, if_neg (Nat.lt_irrefl _), List.take_length]

/-- What a header cannot say is all that keeps the host from writing a frozen candidate. -/
theorem archiveCandidate_of_frozen (hfrozen : Frozen tools t raw manifest) (hraw : raw.length < 8 ^ 11)
    (hfiles : ∀ f ∈ manifest.files, ustarName f.1 = true ∧ f.2.size < 8 ^ 11) :
    archiveCandidate t raw manifest = .ok { members := headerOf raw :: (sendOrder manifest).map (memberOf t) } := by
  have hname : ustarName "candidate.json" = true := by decide
  refine bind_eq_ok.mpr ⟨headerOf raw, addFile_of_short hname hraw, bind_eq_ok.mpr ⟨_, ?_, rfl⟩⟩
  refine mapM_of_ok fun f hf => ?_
  obtain ⟨hnode, hlength, _⟩ := hfrozen.files f (mem_sendOrder.mp hf)
  obtain ⟨hname, hsize⟩ := hfiles f (mem_sendOrder.mp hf)
  simp only [hnode]
  rw [memberOf, ← hlength]
  exact addFile_of_short hname (hlength ▸ hsize)

/-- There is a directory with some files. -/
theorem exists_tree {files : List (Path × Content)} (hne : ∀ f ∈ files, f.1 ≠ [])
    (hapart : (files.map Prod.fst).Pairwise Apart) : ∃ t : Tree, t.node = treeOf .dir .file files := by
  induction files using List.reverseRecOn with
  | nil => exact ⟨emptyTree, emptyTree_node⟩
  | append_singleton files f ih =>
    rw [List.map_append, List.pairwise_append] at hapart
    obtain ⟨t, ht⟩ := ih (fun g hg => hne g (by simp [hg])) hapart.1
    have hadds : (t.add f.1 .dir (.file f.2) rfl).isSome = true := by
      refine add_isSome ht (hne f (by simp)) (fun g hg => ?_) (fun _ _ => rfl)
      exact ⟨(hapart.2.2 g.1 (List.mem_map_of_mem hg) f.1 (by simp)).2, (hapart.2.2 g.1 (List.mem_map_of_mem hg) f.1 (by simp)).1⟩
    obtain ⟨t', ht'⟩ := Option.isSome_iff_exists.mp hadds
    exact ⟨t', (add_some (fun _ => rfl) ht (hne f (by simp)) ht').2⟩

end Archive

/-! ## A candidate -/

namespace Sample

def zeros : String := String.ofList (List.replicate 64 '0')

/-- SHA-256 of no bytes. -/
def emptySha : String := "e3b0c44298fc1c149afbf4c8996fb92427ae41e4649b934ca495991b7852b855"

def record : Json := .obj [("mode", .int 0o644), ("sha256", .str emptySha), ("size", .int 0)]

def fingerprint : String := "SHA256:" ++ String.ofList (List.replicate 43 'A')

def names : List String := ["boot/image", "packages/transaction.json", "payload/vulnerability-policy.json"]

def document : List (String × Json) :=
  [("baseline_sha256", .str zeros), ("boot_artifact", .str "boot/image"),
    ("evidence", .obj (gates.map fun gate => (gate, .str (evidenceName gate)))), ("expires_at", .int 2000),
    ("files", .obj (names.map fun name => (name, record))),
    ("host", .obj [("machine_id_sha256", .str zeros), ("ssh_fingerprint", .str fingerprint)]),
    ("image", .str ("docker.io/nousresearch/hermes-agent@sha256:" ++ zeros)), ("issued_at", .int 1000),
    ("model", .str "gpt-5"), ("provider", .str "openai-api"), ("release_id", .str "r1"), ("schema", .str schema),
    ("transaction", .str "packages/transaction.json")]

def quoted (s : String) : List Char := '"' :: s.toList ++ ['"']

def object (fields : List (String × List Char)) : List Char :=
  '\x7b' :: [','].intercalate (fields.map fun f => quoted f.1 ++ ':' :: f.2) ++ ['\x7d']

/-- The document as it is written. -/
def text : List Char :=
  object [("baseline_sha256", quoted zeros), ("boot_artifact", quoted "boot/image"),
    ("evidence", object (gates.map fun gate => (gate, quoted (evidenceName gate)))), ("expires_at", "2000".toList),
    ("files", object (names.map fun name =>
      (name, object [("mode", "420".toList), ("sha256", quoted emptySha), ("size", "0".toList)]))),
    ("host", object [("machine_id_sha256", quoted zeros), ("ssh_fingerprint", quoted fingerprint)]),
    ("image", quoted ("docker.io/nousresearch/hermes-agent@sha256:" ++ zeros)), ("issued_at", "1000".toList),
    ("model", quoted "gpt-5"), ("provider", quoted "openai-api"), ("release_id", quoted "r1"), ("schema", quoted schema),
    ("transaction", quoted "packages/transaction.json")]

@[irreducible] def raw : Content := text.map fun c => UInt8.ofNat c.toNat

/-- The document with blanks behind it. -/
def padded (n : Nat) : Content := raw ++ List.replicate n 32

def distinctKeys : Json → Bool
  | .obj fields => decide (fields.map Prod.fst).Nodup
  | _ => true

theorem document_distinct : document.all (fun f => distinctKeys f.2) = true := by decide +kernel

theorem lookup_mem {key : String} {value : Json} {fields : List (String × Json)}
    (h : Json.lookup key fields = some value) : (key, value) ∈ fields := by
  induction fields with
  | nil => cases h
  | cons f fields ih =>
    obtain ⟨k, v⟩ := f
    rw [Json.lookup] at h
    split at h
    · next hk =>
      cases h
      exact hk ▸ List.mem_cons_self
    · exact List.mem_cons_of_mem _ (ih h)

/-- The tools, as far as they are asked about these documents. -/
def tools : Tools where
  decode x :=
    if x.take raw.length = raw ∧ (x.drop raw.length).all fun c => c = 32 then .ok (.obj document)
    else .error (.failure 64 "invalid-json")
  distinct x value key fields hdecode hget := by
    split at hdecode
    · cases hdecode
      have hkeys := List.all_eq_true.mp document_distinct _ (lookup_mem hget)
      exact of_decide_eq_true hkeys
    · cases hdecode
  sha256 x :=
    if x = [] then emptySha
    else if x = raw then "d425c4d37ea3edb7a7fbd0d42e376b83773db682ad2653fc32d5db344a0daa3d"
    else "8dc789a3724e7a8c55275bbc1bf990b36432b388f56d46be7d8c8fc1c4a16634"
  floatIs _ _ := false

def manifest : Manifest where
  host := { machineId := zeros, sshFingerprint := fingerprint }
  files := names.map fun name => (name, { sha256 := emptySha, size := 0 })

theorem decode_padded (n : Nat) : tools.decode (padded n) = .ok (.obj document) := by
  have hblank : ((padded n).drop raw.length).all fun c => c = 32 := by
    rw [padded, List.drop_left]
    exact List.all_eq_true.mpr fun c hc => decide_eq_true (List.eq_of_mem_replicate hc)
  have hraw : (padded n).take raw.length = raw := List.take_left
  exact if_pos ⟨hraw, hblank⟩

theorem parse_padded (n : Nat) : parse tools 1500 (padded n) = .ok manifest := by
  have hvalid : validateCandidate (fun _ _ => false) 1500 (.obj document) = .ok manifest := by decide +kernel
  exact bind_eq_ok.mpr ⟨_, decode_padded n, hvalid⟩

/-- The files of the frozen directory. -/
def files (raw : Content) : List (Path × Content) :=
  (["candidate.json"], raw) :: names.map fun name => (pathOf name, [])

instance (p q : Path) : Decidable (Apart p q) := inferInstanceAs (Decidable (¬ p <+: q ∧ ¬ q <+: p))

theorem files_apart (raw : Content) : ((files raw).map Prod.fst).Pairwise Apart := by
  show (["candidate.json"] :: names.map pathOf).Pairwise Apart
  decide +kernel

theorem frozen {raw : Content} {t : Tree} (hnode : t.node = treeOf .dir .file (files raw))
    (hparse : parse tools 1500 raw = .ok manifest) : Frozen tools t raw manifest := by
  have hnodup : ((files raw).map Prod.fst).Nodup := by
    refine (files_apart raw).imp fun happart heq => ?_
    exact happart.1 (heq ▸ List.prefix_rfl)
  have hfile : ∀ name ∈ names, t.node (pathOf name) = some (.file []) := by
    intro name hname
    rw [hnode]
    exact treeOf_file hnodup (List.mem_cons_of_mem _ (List.mem_map_of_mem hname))
  refine ⟨?_, fun f hf => ?_, fun p content hp => ?_, (parse_ok hparse).1, (parse_ok hparse).2⟩
  · rw [hnode]
    exact treeOf_file hnodup List.mem_cons_self
  · obtain ⟨name, hname, rfl⟩ := List.mem_map.mp hf
    rw [contentAt_file (hfile name hname)]
    exact ⟨hfile name hname, rfl, rfl⟩
  · rw [hnode] at hp
    rcases treeOf_cases hp with ⟨f, hf, rfl, _⟩ | ⟨hdir, _⟩
    · rcases List.mem_cons.mp hf with rfl | hf
      · exact Or.inl rfl
      · obtain ⟨name, hname, rfl⟩ := List.mem_map.mp hf
        exact Or.inr ⟨_, List.mem_map_of_mem hname, rfl⟩
    · cases hdir

theorem raw_length : raw.length = 1342 := by
  unfold raw
  rw [List.length_map]
  decide +kernel

theorem padded_length (n : Nat) : (padded n).length = 1342 + n := by
  rw [padded, List.length_append, List.length_replicate, raw_length]

/-- The host accepts the document with any number of blanks, and writes it. -/
theorem sends (n : Nat) (hn : n ≤ 2 ^ 32) : ∃ t stream, t.node = treeOf .dir .file (files (padded n)) ∧
    candidate tools 1500 (fun _ => none) (fun _ => none) t = .ok (manifest, padded n) ∧
    archiveCandidate t (padded n) manifest = .ok stream ∧ stream.members.head? = some (headerOf (padded n)) := by
  have hne : ∀ f ∈ files (padded n), f.1 ≠ [] := by
    intro f hf
    rcases List.mem_cons.mp hf with rfl | hf
    · simp
    · obtain ⟨name, hname, rfl⟩ := List.mem_map.mp hf
      exact pathOf_ne_nil ((parse_ok (parse_padded n)).1 (name, _) (List.mem_map_of_mem hname))
  obtain ⟨t, hnode⟩ := exists_tree hne (files_apart (padded n))
  have hfrozen := frozen hnode (parse_padded n)
  have hfiles : ∀ p m, t.node p = some m → m = .dir ∨ ∃ content, m = .file content := by
    intro p m hp
    rw [hnode] at hp
    rcases treeOf_cases hp with ⟨f, _, _, hfile⟩ | ⟨hdir, _⟩
    · exact Or.inr ⟨_, hfile⟩
    · exact Or.inl hdir
  have hnames : ∀ f ∈ manifest.files, ustarName f.1 = true ∧ f.2.size < 8 ^ 11 := by decide +kernel
  have hraw : (padded n).length < 8 ^ 11 := by
    rw [padded_length]
    omega
  exact ⟨t, _, hnode, candidate_of_frozen (parse_padded n) hfrozen (fun _ => rfl) (fun _ => rfl) hfiles,
    archiveCandidate_of_frozen hfrozen hraw hnames, rfl⟩

end Sample

/-- A header that is too long is refused, whatever comes behind it. -/
theorem longer_refused {tools : Tools} {policy : Policy} {now : Int} {room : Path → Bool} {stream : Stream} {raw : Content}
    (hheader : stream.members.head? = some (headerOf raw)) (hlong : 1024 * 1024 < raw.length) :
    receive tools policy now room stream = .error (.failure 78 "invalid-candidate-header") := by
  obtain ⟨members, broken⟩ := stream
  cases members with
  | nil => cases hheader
  | cons first members =>
    obtain rfl := Option.some.inj hheader
    have hsize : decide ((headerOf raw).size ≤ 1024 * 1024) = false := decide_eq_false (Nat.not_le.mpr hlong)
    simp only [receive, hsize, Bool.and_false]
    rfl

/-- Where the manifest is not too long and the guest's clock is not behind, the guest accepts
    what the host writes, with the same files and bytes. Whatever a stage is sent, if it is
    accepted the enrolled files are in the directory with their digests, and nothing else that
    is no directory; if it is refused, the directory is as it was. -/
theorem candidate_transfer (tools : Tools) :
    (∀ now now' guard owned t manifest raw stream room, candidate tools now guard owned t = .ok (manifest, raw) →
      archiveCandidate t raw manifest = .ok stream → raw.length ≤ 1024 * 1024 → now ≤ now' → (∀ p, room p = true) →
      ∃ received, receive tools { candidateSha256 := tools.sha256 raw, host := manifest.host } now' room stream =
        .ok (received, manifest) ∧ SameFiles raw t received) ∧
    ∀ policy c before stream, StageHolds tools policy before (stage tools policy c before stream) :=
  ⟨fun _ _ _ _ _ _ _ _ _ hcandidate harchive hsize hnow hroom =>
      receive_archived hcandidate harchive hsize hnow hroom,
    fun _ c before stream => stage_holds c before stream⟩

/-- The document as it is goes through. -/
theorem candidate_transfer_sample : ∃ t stream received,
    archiveCandidate t (Sample.padded 0) Sample.manifest = .ok stream ∧
    receive Sample.tools { candidateSha256 := Sample.tools.sha256 (Sample.padded 0), host := Sample.manifest.host } 1500
      (fun _ => true) stream = .ok (received, Sample.manifest) ∧ SameFiles (Sample.padded 0) t received := by
  obtain ⟨t, stream, _, hcandidate, harchive, _⟩ := Sample.sends 0 (by decide)
  have hsize : (Sample.padded 0).length ≤ 1024 * 1024 := by
    rw [Sample.padded_length]
    decide
  obtain ⟨received, hreceived, hsame⟩ :=
    (candidate_transfer Sample.tools).1 _ _ _ _ _ _ _ _ _ hcandidate harchive hsize (le_refl 1500) fun _ => rfl
  exact ⟨t, stream, received, harchive, hreceived, hsame⟩

/-- With a mebibyte of blanks behind it, the host accepts and writes it and the guest refuses. -/
theorem padded_refused : ∃ t stream, t.node = treeOf .dir .file (Sample.files (Sample.padded (1024 * 1024))) ∧
    candidate Sample.tools 1500 (fun _ => none) (fun _ => none) t =
      .ok (Sample.manifest, Sample.padded (1024 * 1024)) ∧
    archiveCandidate t (Sample.padded (1024 * 1024)) Sample.manifest = .ok stream ∧
    receive Sample.tools { candidateSha256 := Sample.tools.sha256 (Sample.padded (1024 * 1024)), host := Sample.manifest.host }
      1500 (fun _ => true) stream = .error (.failure 78 "invalid-candidate-header") := by
  obtain ⟨t, stream, hnode, hcandidate, harchive, hheader⟩ := Sample.sends (1024 * 1024) (by decide)
  refine ⟨t, stream, hnode, hcandidate, harchive, longer_refused hheader ?_⟩
  rw [Sample.padded_length]
  decide

end Hermes.Candidate

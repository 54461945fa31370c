import Hermes.ReleaseUnpack

/- What `unpack` leaves. The loop over the manifest's files keeps the directory that of the files
   it has gone through, so that what is put in place is the signed manifest's, file by file; and
   of what the outside decides only the window, the host and room on the disk can make a
   difference between two runs over one archive. -/
namespace Hermes.Release
open Entries Outcome Transaction
open Candidate (Content Tools pathOf sameSet)

section Unpacked

variable {tools : Tools} {canonical : Json → Content} {c c' : Circumstances} {document : Json} {manifest : Manifest}
  {listing : List Member} {room : Path → Bool} {archive : Archive} {u : Unpacked}

/-! ## The loop over the files -/

/-- What is stored of a file. -/
abbrev Stored := String × Content × Option Nat

def storedAt (x : Stored) : Path × Content × Option Nat := (pathOf x.1, x.2)

/-- The content and the mode are those that the manifest records. -/
structure Recorded (tools : Tools) (document : Json) (f : String × FileRecord) (x : Content × Option Nat) : Prop where
  size : x.1.length = f.2.size
  digest : tools.sha256 x.1 = f.2.sha256
  mode : ∃ n, x.2 = some n ∧ sameMode tools (modeOf document f.1) n = true

theorem place_ok {t t' : Tree} {p : Path} {content : Content} {mode : Option Nat} :
    place room t p content mode = .ok t' ↔
      room p = true ∧ t.add p .dir (Node.stored (content, mode)) rfl = some t' := by
  unfold place
  cases hroom : room p with
  | false => simp
  | true =>
    simp only [if_true, true_and, Node.stored]
    cases t.add p .dir (.file content mode) rfl with
    | none => simp
    | some t₁ => simp

theorem stored_isDir (x : Content × Option Nat) : (Node.stored x).isDir = false := rfl

/-- What is stored of a member. -/
def Member.stored (m : Member) : Content × Option Nat := (m.data.take m.size, some m.mode)

theorem member_ok {name : String} {m : Member} (h : member listing name = .ok m) : m ∈ listing ∧ m.name = name := by
  unfold member at h
  split at h
  · next hfind =>
    cases h
    exact ⟨List.mem_of_find?_eq_some hfind, by simpa using List.find?_some hfind⟩
  · cases h

/-- A round stores the file as it is recorded. -/
theorem unpackFile_ok {t t' : Tree} {f : String × FileRecord} {done : List Stored}
    (hnode : t.node = treeOf .dir Node.stored (done.map storedAt)) (hsafe : safeName f.1 = .ok f.1)
    (h : unpackFile tools room listing document t f = .ok t') :
    ∃ m ∈ listing, m.name = f.1 ∧ Recorded tools document f m.stored ∧
      t'.node = treeOf .dir Node.stored ((done ++ [(f.1, m.stored)]).map storedAt) := by
  obtain ⟨m, hfound, h⟩ := bind_eq_ok.mp h
  obtain ⟨hm, hname⟩ := member_ok hfound
  obtain ⟨_, hmetadata, h⟩ := bind_eq_ok.mp h
  obtain ⟨made, hplace, h⟩ := bind_eq_ok.mp h
  obtain ⟨content, hread, h⟩ := bind_eq_ok.mp h
  obtain ⟨_, hdigest, h⟩ := bind_eq_ok.mp h
  obtain ⟨_, _, h⟩ := bind_eq_ok.mp h
  cases h
  obtain ⟨hlong, rfl⟩ := Candidate.readAll_ok.mp hread
  rw [demand_ok, Bool.and_eq_true, beq_iff_eq] at hmetadata
  rw [demand_ok, beq_iff_eq] at hdigest
  have hlength : (m.data.take m.size).length = f.2.size := by
    rw [List.length_take, ← hmetadata.1]
    omega
  refine ⟨m, hm, hname, ⟨hlength, hdigest, m.mode, rfl, hmetadata.2⟩, ?_⟩
  rw [List.map_append]
  exact (add_some stored_isDir hnode (Candidate.pathOf_ne_nil hsafe) (place_ok.mp hplace).2).2

/-- What a round stores. -/
def FileStored (tools : Tools) (document : Json) (listing : List Member) (f : String × FileRecord) (x : Stored) : Prop :=
  ∃ m ∈ listing, m.name = f.1 ∧ x = (f.1, m.stored) ∧ Recorded tools document f m.stored

/-- The loop stores every file. -/
theorem unpackFiles_ok {files : List (String × FileRecord)} (hsafe : ∀ f ∈ files, safeName f.1 = .ok f.1) {t t' : Tree}
    {done : List Stored} (hnode : t.node = treeOf .dir Node.stored (done.map storedAt))
    (h : files.foldlM (unpackFile tools room listing document) t = .ok t') :
    ∃ new, List.Forall₂ (FileStored tools document listing) files new ∧
      t'.node = treeOf .dir Node.stored ((done ++ new).map storedAt) := by
  refine foldlM_collect (I := fun t done => t.node = treeOf .dir Node.stored (done.map storedAt))
    (fun f hf t t' done hnode h => ?_) hnode h
  obtain ⟨m, hm, hname, hrecorded, hnode'⟩ := unpackFile_ok hnode (hsafe f hf) h
  exact ⟨(f.1, m.stored), ⟨m, hm, hname, rfl, hrecorded⟩, hnode'⟩

theorem stored_names {files : List (String × FileRecord)} {new : List Stored}
    (h : List.Forall₂ (FileStored tools document listing) files new) : new.map Prod.fst = files.map Prod.fst := by
  refine paired_map (fun f x hx => ?_) h
  obtain ⟨m, _, _, rfl, _⟩ := hx
  rfl

theorem stored_of_file {files : List (String × FileRecord)} {new : List Stored}
    (h : List.Forall₂ (FileStored tools document listing) files new) {f : String × FileRecord} (hf : f ∈ files) :
    ∃ m ∈ listing, m.name = f.1 ∧ (f.1, m.stored) ∈ new ∧ Recorded tools document f m.stored := by
  obtain ⟨x, hx, m, hm, hname, rfl, hrecorded⟩ := paired_left h hf
  exact ⟨m, hm, hname, hx, hrecorded⟩

/-! ## The evidence -/

/-- A piece of evidence in a directory: it passed, and for these inputs. -/
structure Passed (tools : Tools) (canonical : Json → Content) (document : Json) (manifest : Manifest) (t : Tree)
    (gate : String) : Prop where
  packaged : ∃ name content mode evidence, (document.get "evidence").bind (Json.getStr gate) = some name ∧
    t.node (pathOf name) = some (.file content mode) ∧ tools.decode content = .ok evidence ∧
    isPassed tools canonical document evidence gate = true ∧
    (gate = "vulnerability_scan" → ∃ policy, ("payload/vulnerability-policy.json", policy) ∈ manifest.files ∧
      isOfPolicy evidence policy = true)

theorem recordOf_ok {name : String} {record : FileRecord} (h : recordOf manifest name = .ok record) :
    (name, record) ∈ manifest.files := by
  unfold recordOf at h
  split at h
  · next f hfind =>
    cases h
    have hname : f.1 = name := by simpa using List.find?_some hfind
    exact hname ▸ List.mem_of_find?_eq_some hfind
  · cases h

theorem readFrom_ok {t : Tree} {p : Path} {content : Content} (h : readFrom t p = .ok content) :
    ∃ mode, t.node p = some (.file content mode) := by
  unfold readFrom at h
  split at h
  · next mode hnode =>
    cases h
    exact ⟨mode, hnode⟩
  · cases h

theorem evidenceName_ok {value : Json} {name : String} (h : evidenceName? value = .ok name) : value = .str name := by
  cases value with
  | str s =>
    cases h
    rfl
  | _ => cases h

theorem checkEvidence_ok {reason : String} {t : Tree} {e : String × Json}
    (h : checkEvidence tools canonical reason document manifest t e = .ok ()) :
    ∃ name content mode evidence, e.2 = .str name ∧ t.node (pathOf name) = some (.file content mode) ∧
      tools.decode content = .ok evidence ∧ isPassed tools canonical document evidence e.1 = true ∧
      (e.1 = "vulnerability_scan" → ∃ policy, ("payload/vulnerability-policy.json", policy) ∈ manifest.files ∧
        isOfPolicy evidence policy = true) := by
  obtain ⟨name, hname, h⟩ := bind_eq_ok.mp h
  obtain ⟨_, _, h⟩ := bind_eq_ok.mp h
  obtain ⟨_, _, h⟩ := bind_eq_ok.mp h
  obtain ⟨content, hread, h⟩ := bind_eq_ok.mp h
  obtain ⟨evidence, hdecode, h⟩ := bind_eq_ok.mp h
  obtain ⟨_, hpassed, h⟩ := bind_eq_ok.mp h
  obtain ⟨policy, hpolicy, h⟩ := bind_eq_ok.mp h
  obtain ⟨mode, hnode⟩ := readFrom_ok hread
  refine ⟨name, content, mode, evidence, evidenceName_ok hname, hnode, hdecode, demand_ok.mp hpassed, fun hgate => ?_⟩
  have hof := demand_ok.mp h
  rw [hgate, bne_self_eq_false, Bool.false_or] at hof
  exact ⟨policy, recordOf_ok hpolicy, hof⟩

/-! ## What is put in place -/

/-- The directory of a release: what its signed manifest says is there, and nothing else. -/
structure Verified (tools : Tools) (canonical : Json → Content) (c : Circumstances) (u : Unpacked) (raw signature : Content) :
    Prop where
  signed : c.verify raw signature = .ok ()
  decoded : tools.decode raw = .ok u.document
  valid : validate tools.floatIs c.now c.host (c.boundDigest == some (tools.sha256 raw)) u.document = .ok u.manifest
  fingerprint : u.fingerprint = tools.sha256 raw
  metadata : u.tree.node ["manifest.json"] = some (.file raw none)
  signature : u.tree.node ["manifest.sig"] = some (.file signature none)
  files : ∀ f ∈ u.manifest.files, ∃ x, u.tree.node (pathOf f.1) = some (.stored x) ∧ Recorded tools u.document f x
  others : ∀ p n, u.tree.node p = some n → (n = .dir ∧ (p = [] ∨ ∃ f ∈ u.manifest.files, p <+: pathOf f.1)) ∨
    p = ["manifest.json"] ∨ p = ["manifest.sig"] ∨ ∃ f ∈ u.manifest.files, p = pathOf f.1
  inside : ∀ p, u.tree.node p ≠ none → ".." ∉ p
  passed : ∀ gate ∈ gates, Passed tools canonical u.document u.manifest u.tree gate

/-- The files, the manifest and its signature. -/
def releaseFiles (new : List Stored) (raw signature : Content) : List (Path × Content × Option Nat) :=
  new.map storedAt ++ [(["manifest.json"], raw, none)] ++ [(["manifest.sig"], signature, none)]

theorem pathOf_up {name : String} (h : safeName name = .ok name) : ".." ∉ pathOf name := by
  obtain ⟨_, _, habsolute, _, hparts, _⟩ := safeName_ok h
  have hroot : (PurePath.parse name).root = "" := by simpa [PurePath.isAbsolute] using habsolute
  rw [PurePath.parts, if_pos hroot] at hparts
  exact fun hmem => (hparts _ hmem).2 rfl

theorem manifest_notDirectory : "manifest.json" ∉ Candidate.directories ∧ "manifest.sig" ∉ Candidate.directories := by
  decide

theorem nodup_releaseFiles {new : List Stored} {raw signature : Content} (hnodup : (new.map Prod.fst).Nodup)
    (hsafe : ∀ x ∈ new, safeName x.1 = .ok x.1) : ((releaseFiles new raw signature).map Prod.fst).Nodup := by
  have hpaths : (releaseFiles new raw signature).map Prod.fst =
      (new.map Prod.fst).map pathOf ++ [["manifest.json"], ["manifest.sig"]] := by
    simp [releaseFiles, storedAt, Function.comp_def]
  rw [hpaths, List.nodup_append]
  refine ⟨hnodup.map_on fun a ha b hb heq => ?_, by decide, fun a ha b hb heq => ?_⟩
  · obtain ⟨x, hx, rfl⟩ := List.mem_map.mp ha
    obtain ⟨y, hy, rfl⟩ := List.mem_map.mp hb
    exact Candidate.pathOf_injective (hsafe x hx) (hsafe y hy) heq
  · obtain ⟨name, hname, rfl⟩ := List.mem_map.mp ha
    obtain ⟨x, hx, rfl⟩ := List.mem_map.mp hname
    simp only [List.mem_cons, List.not_mem_nil, or_false] at hb
    rcases hb with rfl | rfl
    · exact (Candidate.apart_top (hsafe x hx) manifest_notDirectory.1).1.1 (heq ▸ List.prefix_rfl)
    · exact (Candidate.apart_top (hsafe x hx) manifest_notDirectory.2).1.1 (heq ▸ List.prefix_rfl)

theorem emptyTree_node : emptyTree.node = treeOf .dir Node.stored ([] : List (Path × Content × Option Nat)) := by
  funext q
  rw [treeOf_none (fun _ hf => absurd hf (by simp))]
  simp [emptyTree]

theorem lookup_of_mem {fields : List (String × Json)} {key : String} {value : Json} (hnodup : (fields.map Prod.fst).Nodup)
    (h : (key, value) ∈ fields) : Json.lookup key fields = some value := by
  induction fields with
  | nil => cases h
  | cons f fields ih =>
    obtain ⟨k, v⟩ := f
    rw [List.map_cons, List.nodup_cons] at hnodup
    rw [Json.lookup]
    rcases List.mem_cons.mp h with heq | hmem
    · obtain ⟨rfl, rfl⟩ := Prod.mk.inj heq
      rw [if_pos rfl]
    · have hne : k ≠ key := by
        intro hk
        subst hk
        exact hnodup.1 (List.mem_map.mpr ⟨_, hmem, rfl⟩)
      rw [if_neg hne]
      exact ih hnodup.2 hmem

theorem getStr_of_mem {fields : List (String × Json)} {key name : String} (hnodup : (fields.map Prod.fst).Nodup)
    (h : (key, Json.str name) ∈ fields) : (Json.obj fields).getStr key = some name := by
  rw [Json.getStr, Json.get, lookup_of_mem hnodup h]

theorem prefix_single {p : Path} {top : String} (h : p <+: [top]) : p = [] ∨ p = [top] := by
  rcases List.prefix_cons_iff.mp h with hnil | ⟨q, hq, hrest⟩
  · exact Or.inl hnil
  · exact Or.inr (by rw [hq, List.prefix_nil.mp hrest])

/-- The members of the archive, which have names of their own, are what was stored. -/
structure Carried (archive : Archive) (u : Unpacked) (raw : Content) : Prop where
  distinct : (archive.members.map fun m => m.name).Nodup
  metadata : ∃ m ∈ archive.members, m.name = "manifest.json" ∧ raw = m.data.take m.size
  files : ∀ f ∈ u.manifest.files, ∃ m ∈ archive.members, m.name = f.1 ∧ u.tree.node (pathOf f.1) = some (.stored m.stored)

theorem addMember_ok {result result' : List Member} {m : Member} (h : addMember result m = .ok result') :
    result' = result ++ [m] ∧ m.name ∉ result.map fun r => r.name := by
  obtain ⟨_, _, h⟩ := bind_eq_ok.mp h
  obtain ⟨_, hnew, h⟩ := bind_eq_ok.mp h
  obtain ⟨_, _, h⟩ := bind_eq_ok.mp h
  obtain ⟨_, _, h⟩ := bind_eq_ok.mp h
  cases h
  rw [demand_ok, Bool.and_eq_true, Bool.not_eq_true', List.any_eq_false] at hnew
  refine ⟨rfl, fun hmem => ?_⟩
  obtain ⟨r, hr, hname⟩ := List.mem_map.mp hmem
  exact hnew.1 r hr (by simpa using hname)

theorem addMembers_ok {rest result result' : List Member} (hdistinct : (result.map fun r => r.name).Nodup)
    (h : rest.foldlM addMember result = .ok result') :
    result' = result ++ rest ∧ (result'.map fun r => r.name).Nodup := by
  induction rest generalizing result with
  | nil =>
    cases h
    exact ⟨(List.append_nil _).symm, hdistinct⟩
  | cons m rest ih =>
    obtain ⟨result₁, hround, h⟩ := foldlM_cons_ok.mp h
    obtain ⟨rfl, hnew⟩ := addMember_ok hround
    have hdistinct₁ : ((result ++ [m]).map fun r => r.name).Nodup := by
      rw [List.map_append, List.nodup_append]
      refine ⟨hdistinct, by simp, fun a ha b hb => ?_⟩
      obtain rfl : b = m.name := by simpa using hb
      exact fun heq => hnew (heq ▸ ha)
    obtain ⟨rfl, hall⟩ := ih hdistinct₁ h
    exact ⟨by simp, hall⟩

theorem members_ok (h : members archive = .ok listing) :
    listing = archive.members ∧ (listing.map fun m => m.name).Nodup := by
  obtain ⟨result, hresult, h⟩ := bind_eq_ok.mp h
  obtain ⟨_, _, h⟩ := bind_eq_ok.mp h
  cases h
  have hnone : (([] : List Member).map fun m => m.name).Nodup := by simp
  simpa using addMembers_ok hnone hresult

theorem verified_carried (h : verified tools canonical c archive = .ok u) :
    ∃ raw signature, Verified tools canonical c u raw signature ∧ Carried archive u raw := by
  obtain ⟨_, _, h⟩ := bind_eq_ok.mp h
  obtain ⟨_, _, h⟩ := bind_eq_ok.mp h
  obtain ⟨listing, hlisting, h⟩ := bind_eq_ok.mp h
  obtain ⟨_, _, h⟩ := bind_eq_ok.mp h
  obtain ⟨metadata, hmetadata, h⟩ := bind_eq_ok.mp h
  obtain ⟨sealing, _, h⟩ := bind_eq_ok.mp h
  obtain ⟨_, _, h⟩ := bind_eq_ok.mp h
  obtain ⟨raw, hraw, h⟩ := bind_eq_ok.mp h
  obtain ⟨signature, _, h⟩ := bind_eq_ok.mp h
  obtain ⟨_, hverify, h⟩ := bind_eq_ok.mp h
  obtain ⟨document, hdecode, h⟩ := bind_eq_ok.mp h
  obtain ⟨manifest, hvalid, h⟩ := bind_eq_ok.mp h
  obtain ⟨_, _, h⟩ := bind_eq_ok.mp h
  obtain ⟨filled, hfilled, h⟩ := bind_eq_ok.mp h
  obtain ⟨evidence, hevidence, h⟩ := bind_eq_ok.mp h
  obtain ⟨_, hchecked, h⟩ := bind_eq_ok.mp h
  obtain ⟨listed, hlisted, h⟩ := bind_eq_ok.mp h
  obtain ⟨tree, htree, h⟩ := bind_eq_ok.mp h
  cases h
  obtain ⟨entries, evidence', hseen⟩ := validate_seen hvalid
  have hempty : emptyTree.node = treeOf .dir Node.stored (([] : List Stored).map storedAt) := emptyTree_node
  obtain ⟨new, hnew, hnode⟩ := unpackFiles_ok hseen.safe hempty hfilled
  have hnames := stored_names hnew
  rw [List.nil_append] at hnode
  have hlistedNode := (add_some stored_isDir hnode (List.cons_ne_nil _ _) (place_ok.mp hlisted).2).2
  have htreeNode : tree.node = treeOf .dir Node.stored (releaseFiles new raw signature) :=
    (add_some stored_isDir hlistedNode (List.cons_ne_nil _ _) (place_ok.mp htree).2).2
  -- the names are those of the manifest, which has no key twice
  have hsafe : ∀ x ∈ new, safeName x.1 = .ok x.1 := by
    intro x hx
    obtain ⟨f, hf, hname⟩ := List.mem_map.mp (hnames ▸ List.mem_map_of_mem (f := Prod.fst) hx)
    exact hname ▸ hseen.safe f hf
  have hdistinct : (new.map Prod.fst).Nodup := by
    rw [hnames, hseen.names]
    obtain ⟨value, hget, hfields⟩ := Option.bind_eq_some_iff.mp hseen.fields
    cases value with
    | obj fields =>
      obtain rfl := Option.some.inj hfields
      exact tools.distinct raw document "files" _ hdecode hget
    | _ => cases hfields
  have hnodup : ((releaseFiles new raw signature).map Prod.fst).Nodup := nodup_releaseFiles hdistinct hsafe
  have hstored : ∀ x ∈ releaseFiles new raw signature, tree.node x.1 = some (.stored x.2) := by
    intro x hx
    rw [htreeNode]
    exact treeOf_file hnodup hx
  have hentry : ∀ x ∈ releaseFiles new raw signature, x.1 = ["manifest.json"] ∨ x.1 = ["manifest.sig"] ∨
      ∃ f ∈ manifest.files, x.1 = pathOf f.1 := by
    intro x hx
    simp only [releaseFiles, List.mem_append, List.mem_map, List.mem_singleton] at hx
    rcases hx with (⟨y, hy, rfl⟩ | rfl) | rfl
    · obtain ⟨f, hf, hname⟩ := List.mem_map.mp (hnames ▸ List.mem_map_of_mem (f := Prod.fst) hy)
      exact Or.inr (Or.inr ⟨f, hf, by rw [storedAt, hname]⟩)
    · exact Or.inl rfl
    · exact Or.inr (Or.inl rfl)
  have hothers : ∀ p n, tree.node p = some n → (n = .dir ∧ (p = [] ∨ ∃ f ∈ manifest.files, p <+: pathOf f.1)) ∨
      p = ["manifest.json"] ∨ p = ["manifest.sig"] ∨ ∃ f ∈ manifest.files, p = pathOf f.1 := by
    intro p n hp
    rw [htreeNode] at hp
    rcases treeOf_cases hp with ⟨x, hx, rfl, _⟩ | ⟨hdir, rfl | ⟨x, hx, hway⟩⟩
    · exact Or.inr (hentry x hx)
    · exact Or.inl ⟨hdir, Or.inl rfl⟩
    · rcases hentry x hx with htop | htop | ⟨f, hf, hpath⟩
      · rcases prefix_single (htop ▸ hway) with hnil | hsame
        · exact Or.inl ⟨hdir, Or.inl hnil⟩
        · exact Or.inr (Or.inl hsame)
      · rcases prefix_single (htop ▸ hway) with hnil | hsame
        · exact Or.inl ⟨hdir, Or.inl hnil⟩
        · exact Or.inr (Or.inr (Or.inl hsame))
      · exact Or.inl ⟨hdir, Or.inr ⟨f, hf, hpath ▸ hway⟩⟩
  have hfiles : ∀ f ∈ manifest.files, ∃ m ∈ listing, m.name = f.1 ∧ tree.node (pathOf f.1) = some (.stored m.stored) ∧
      Recorded tools document f m.stored := by
    intro f hf
    obtain ⟨m, hm, hname, hx, hrecorded⟩ := stored_of_file hnew hf
    have hmem : storedAt (f.1, m.stored) ∈ releaseFiles new raw signature := by
      simp only [releaseFiles, List.mem_append]
      exact Or.inl (Or.inl (List.mem_map_of_mem hx))
    exact ⟨m, hm, hname, hstored _ hmem, hrecorded⟩
  obtain ⟨rfl, hmembers⟩ := members_ok hlisting
  have hcarried : ∀ f ∈ manifest.files, ∃ m ∈ archive.members, m.name = f.1 ∧ tree.node (pathOf f.1) = some (.stored m.stored) := by
    intro f hf
    obtain ⟨m, hm, hname, hnode, _⟩ := hfiles f hf
    exact ⟨m, hm, hname, hnode⟩
  refine ⟨raw, signature, ⟨hverify, hdecode, hvalid, rfl, ?_, ?_, fun f hf => ?_, hothers, fun p hp hup => ?_,
    fun gate hgate => ?_⟩, hmembers, ⟨metadata, (member_ok hmetadata).1, (member_ok hmetadata).2,
      (Candidate.readAll_ok.mp hraw).2.symm⟩, hcarried⟩
  · exact hstored (["manifest.json"], raw, none) (by simp [releaseFiles])
  · exact hstored (["manifest.sig"], signature, none) (by simp [releaseFiles])
  · obtain ⟨m, _, _, hnode, hrecorded⟩ := hfiles f hf
    exact ⟨m.stored, hnode, hrecorded⟩
  · obtain ⟨n, hn⟩ := Option.ne_none_iff_exists'.mp hp
    rcases hothers p n hn with ⟨_, rfl | ⟨f, hf, hway⟩⟩ | rfl | rfl | ⟨f, hf, rfl⟩
    · cases hup
    · exact pathOf_up (hseen.safe f hf) (hway.subset hup)
    · exact absurd hup (by decide)
    · exact absurd hup (by decide)
    · exact pathOf_up (hseen.safe f hf) hup
  · have hevidence' := expect_ok.mp hevidence
    rw [hseen.certified, Option.some.injEq] at hevidence'
    subst hevidence'
    have hkeys := hseen.complete
    simp only [Json.hasKeys, Bool.and_eq_true, List.all_eq_true] at hkeys
    obtain ⟨e, he, hname⟩ := List.any_eq_true.mp (hkeys.2 gate hgate)
    obtain rfl : e.1 = gate := by simpa using hname
    obtain ⟨name, content, mode, value, hvalue, hread, hpassed⟩ := checkEvidence_ok (forM_ok.mp hchecked e he)
    refine ⟨name, content, mode, value, ?_, ?_, hpassed⟩
    · obtain ⟨inner, hget, hfields⟩ := Option.bind_eq_some_iff.mp hseen.certified
      cases inner with
      | obj fields =>
        obtain rfl := Option.some.inj hfields
        rw [hget, Option.bind_some]
        exact getStr_of_mem (tools.distinct raw document "evidence" _ hdecode hget) (hvalue ▸ he)
      | _ => cases hfields
    · -- what was read is one of the files
      rw [hnode] at hread
      rcases treeOf_cases hread with ⟨x, hx, hpath, hfile⟩ | ⟨hdir, _⟩
      · have hmem : x ∈ releaseFiles new raw signature := by
          simp only [releaseFiles, List.mem_append]
          exact Or.inl (Or.inl hx)
        rw [hfile, ← hpath]
        exact hstored x hmem
      · cases hdir

theorem verified_ok (h : verified tools canonical c archive = .ok u) :
    ∃ raw signature, Verified tools canonical c u raw signature := by
  obtain ⟨raw, signature, hverified, _⟩ := verified_carried h
  exact ⟨raw, signature, hverified⟩

theorem unpack_ok {destination : Option Tree} (h : (unpack tools canonical c destination archive).1 = .ok u) :
    verified tools canonical c archive = .ok u := by
  unfold unpack at h
  split at h
  · cases h
  · split at h
    · cases h
    · split at h
      · cases h
      · next hverified =>
        split at h
        · cases h
          exact hverified
        · cases h

/-- Whatever the archive holds: if `unpack` returns, what is in place is the directory of the
    signed manifest; if it raises, what was there is there. -/
theorem unpack_sound (tools : Tools) (canonical : Json → Content) (c : Circumstances) (destination : Option Tree)
    (archive : Archive) :
    match unpack tools canonical c destination archive with
    | (.ok u, after) => destination = none ∧ after = some u.tree ∧
        ∃ raw signature, Verified tools canonical c u raw signature
    | (.error _, after) => after = destination := by
  unfold unpack
  cases destination with
  | some t => exact rfl
  | none =>
    cases c.guard with
    | some reason => exact rfl
    | none =>
      cases hverified : verified tools canonical c archive with
      | error e => exact rfl
      | ok u =>
        cases c.renames with
        | false => exact rfl
        | true => exact ⟨rfl, rfl, verified_ok hverified⟩

/-! ## A second time -/

theorem place_again (hroom : ∀ p, c'.room p = true) {t t' : Tree} {p : Path} {content : Content} {mode : Option Nat}
    (h : place c.room t p content mode = .ok t') : place c'.room t p content mode = .ok t' :=
  place_ok.mpr ⟨hroom p, (place_ok.mp h).2⟩

theorem unpackFile_again (hroom : ∀ p, c'.room p = true) {t t' : Tree} {f : String × FileRecord}
    (h : unpackFile tools c.room listing document t f = .ok t') :
    unpackFile tools c'.room listing document t f = .ok t' := by
  refine bind_mono (fun _ h => bind_mono (fun _ h => ?_) h) h
  obtain ⟨made, hmade, h⟩ := bind_eq_ok.mp h
  exact bind_eq_ok.mpr ⟨made, place_again hroom hmade, h⟩

theorem unpackFiles_again (hroom : ∀ p, c'.room p = true) {files : List (String × FileRecord)} {t t' : Tree}
    (h : files.foldlM (unpackFile tools c.room listing document) t = .ok t') :
    files.foldlM (unpackFile tools c'.room listing document) t = .ok t' := by
  induction files generalizing t with
  | nil => exact h
  | cons f files ih =>
    obtain ⟨t₁, hround, h⟩ := foldlM_cons_ok.mp h
    exact foldlM_cons_ok.mpr ⟨t₁, unpackFile_again hroom hround, ih h⟩

/-- Of what the outside decides, nothing but the signers, the clock, the host and the room counts. -/
theorem verified_again (hverify : c'.verify = c.verify) (hroom : ∀ p, c'.room p = true) (hnow : c.now ≤ c'.now)
    (hhost : c'.host.all (u.manifest.host == ·) = true)
    (hwindow : c'.boundDigest = some u.fingerprint ∨ ∀ window, isWindow u.document = some window → c'.now ≤ window.2)
    (h : verified tools canonical c archive = .ok u) : verified tools canonical c' archive = .ok u := by
  refine bind_mono (fun _ h => bind_mono (fun _ h => bind_mono (fun _ h => bind_mono (fun _ h => bind_mono (fun _ h =>
    bind_mono (fun _ h => bind_mono (fun _ h => bind_mono (fun raw h => bind_mono (fun signature h => ?_) h) h) h) h) h)
    h) h) h) h
  rw [hverify]
  refine bind_mono (fun _ h => bind_mono (fun document h => ?_) h) h
  obtain ⟨manifest, hvalid, h⟩ := bind_eq_ok.mp h
  obtain ⟨u₁, hset, h⟩ := bind_eq_ok.mp h
  obtain ⟨files, hfiles, h⟩ := bind_eq_ok.mp h
  obtain ⟨evidence, hevidence, h⟩ := bind_eq_ok.mp h
  obtain ⟨u₂, hchecked, h⟩ := bind_eq_ok.mp h
  obtain ⟨listed, hlisted, h⟩ := bind_eq_ok.mp h
  obtain ⟨tree, htree, h⟩ := bind_eq_ok.mp h
  cases h
  have hopen : (c'.boundDigest == some (tools.sha256 raw)) = true ∨
      ∀ window, isWindow document = some window → c'.now ≤ window.2 :=
    hwindow.imp_left fun hbound => by rw [hbound, beq_self_eq_true]
  exact bind_eq_ok.mpr ⟨manifest, validate_again hnow hhost hopen hvalid, bind_eq_ok.mpr ⟨u₁, hset,
    bind_eq_ok.mpr ⟨files, unpackFiles_again hroom hfiles, bind_eq_ok.mpr ⟨evidence, hevidence,
      bind_eq_ok.mpr ⟨u₂, hchecked, bind_eq_ok.mpr ⟨listed, place_again hroom hlisted,
        bind_eq_ok.mpr ⟨tree, place_again hroom htree, rfl⟩⟩⟩⟩⟩⟩⟩

end Unpacked

/-- Circumstances in which nothing is in the way of a release on its own host. -/
def Circumstances.undisturbed (c : Circumstances) (u : Unpacked) (now : Int) (boundDigest : Option String) : Circumstances :=
  { c with now, boundDigest, host := some u.manifest.host, guard := none, room := fun _ => true, renames := true }

theorem verified_undisturbed {tools : Tools} {canonical : Json → Content} {c : Circumstances} {archive : Archive}
    {u : Unpacked} {now : Int} {bound : Option String} (hnow : c.now ≤ now)
    (hwindow : bound = some u.fingerprint ∨ ∀ window, isWindow u.document = some window → now ≤ window.2)
    (h : verified tools canonical c archive = .ok u) :
    unpack tools canonical (c.undisturbed u now bound) none archive = (.ok u, some u.tree) := by
  have hhost : (some u.manifest.host).all (u.manifest.host == ·) = true := by simp
  have hagain : verified tools canonical (c.undisturbed u now bound) archive = .ok u :=
    verified_again (c := c) rfl (fun _ => rfl) hnow hhost hwindow h
  rw [unpack, hagain]
  rfl

/-- An archive that was accepted once is accepted again under the same signers, with the same
    directory: at any later time in its window, and at any later time at all where its digest
    is bound. -/
theorem unpack_again (tools : Tools) (canonical : Json → Content) (c : Circumstances) (destination : Option Tree)
    (archive : Archive) :
    match unpack tools canonical c destination archive with
    | (.ok u, _) =>
        (∀ now bound, c.now ≤ now → (∀ window, isWindow u.document = some window → now ≤ window.2) →
          unpack tools canonical (c.undisturbed u now bound) none archive = (.ok u, some u.tree)) ∧
        ∀ now, c.now ≤ now →
          unpack tools canonical (c.undisturbed u now (some u.fingerprint)) none archive = (.ok u, some u.tree)
    | (.error _, _) => True := by
  cases hunpack : unpack tools canonical c destination archive with
  | mk result after =>
    cases result with
    | error e => trivial
    | ok u =>
      have hverified : verified tools canonical c archive = .ok u := unpack_ok (congrArg Prod.fst hunpack)
      exact ⟨fun now bound hnow hwindow => verified_undisturbed hnow (Or.inr hwindow) hverified,
        fun now hnow => verified_undisturbed hnow (Or.inl rfl) hverified⟩

end Hermes.Release

import Mathlib.Data.List.Perm.Subperm
import Hermes.ReleaseBuild

/- What `finalize` links to its output is the candidate that was frozen: an archive that the
   receiver's own `unpack` has accepted, with every file of the candidate and its digest, the
   evidence that was handed in and passed for this candidate, and nothing else (`finalize_sound`).

   A record of the candidate is followed through the manifest that is completed, written, read,
   written again for the signature and read from the archive; a content is followed from the
   copy through the member to the file. -/
namespace Hermes.Release
open Entries Outcome Transaction
open Candidate (Content Tools pathOf sameSet)

/-! ## Documents that agree -/

theorem valueAt_cons (key : String) (keys : List String) (value : Json) :
    valueAt (key :: keys) value = (value.get key).bind (valueAt keys) := rfl

theorem Agree.trans {value value' value'' : Json} (h : Agree value value') (h' : Agree value' value'') :
    Agree value value'' where
  strings keys s := (h'.strings keys s).trans (h.strings keys s)
  integers keys n := (h'.integers keys n).trans (h.integers keys n)
  present keys := (h'.present keys).trans (h.present keys)

theorem getStr_iff {value : Json} {key s : String} : value.getStr key = some s ↔ valueAt [key] value = some (.str s) := by
  rw [Json.getStr, valueAt_cons]
  cases value.get key with
  | none => simp
  | some inner => cases inner <;> simp [valueAt]

theorem Agree.getStr {value value' : Json} (h : Agree value value') (key : String) :
    value'.getStr key = value.getStr key := by
  ext s
  rw [getStr_iff, getStr_iff, h.strings]

/-! ## The file map -/

section FileMap

variable {floatIs : String → Int → Bool} {document : Json} {entries : List (String × Json)}

theorem mem_of_lookup {fields : List (String × Json)} {key : String} {value : Json}
    (h : Json.lookup key fields = some value) : (key, value) ∈ fields := by
  induction fields with
  | nil => cases h
  | cons f fields ih =>
    obtain ⟨k, v⟩ := f
    rw [Json.lookup] at h
    split at h
    · next hk =>
      cases h
      exact hk ▸ List.mem_cons_self
    · exact List.mem_cons_of_mem _ (ih h)

theorem fields_get {key : String} (h : (document.get key).bind Json.fields? = some entries) :
    document.get key = some (.obj entries) := by
  obtain ⟨value, hget, hfields⟩ := Option.bind_eq_some_iff.mp h
  cases value with
  | obj fields =>
    obtain rfl := Option.some.inj hfields
    exact hget
  | _ => cases hfields

/-- What is under a key of an object in a document. -/
theorem valueAt_entry {key name : String} {keys : List String} (h : (document.get key).bind Json.fields? = some entries) :
    valueAt (key :: name :: keys) document = (Json.lookup name entries).bind (valueAt keys) := by
  rw [valueAt_cons, fields_get h]
  rfl

theorem fileRecord_ok {value : Json} {record : FileRecord} (h : fileRecord floatIs value = some record) :
    valueAt ["sha256"] value = some (.str record.sha256) ∧ valueAt ["size"] value = some (.int record.size) := by
  unfold fileRecord at h
  split at h
  · next hsha hsize _ =>
    split at h
    · next hcond =>
      cases h
      simp only [Bool.and_eq_true, decide_eq_true_eq] at hcond
      exact ⟨getStr_iff.mp hsha, by simp [valueAt, hsize, Int.toNat_of_nonneg hcond.1.1.2]⟩
    · cases h
  · cases h

/-- A record that has a digest and a size has no other. -/
theorem fileRecord_eq {value : Json} {record : FileRecord} {sha256 : String} {size : Nat}
    (h : fileRecord floatIs value = some record) (hsha : valueAt ["sha256"] value = some (.str sha256))
    (hsize : valueAt ["size"] value = some (.int size)) : record = { sha256, size } := by
  obtain ⟨hsha', hsize'⟩ := fileRecord_ok h
  rw [hsha, Option.some.injEq, Json.str.injEq] at hsha'
  rw [hsize, Option.some.injEq, Json.int.injEq] at hsize'
  rw [hsha', Int.ofNat_inj.mp hsize']

/-- The digest and the size under the name of a file, if the map has it. -/
def Listed (document : Json) (name : String) (record : FileRecord) : Prop :=
  valueAt ["files", name, "sha256"] document = some (.str record.sha256) ∧
    valueAt ["files", name, "size"] document = some (.int record.size)

theorem Agree.listed {value value' : Json} (h : Agree value value') {name : String} {record : FileRecord}
    (hlisted : Listed value name record) : Listed value' name record :=
  ⟨(h.strings _ _).mpr hlisted.1, (h.integers _ _).mpr hlisted.2⟩

theorem listed_of_entry (hentries : (document.get "files").bind Json.fields? = some entries)
    (hnodup : (entries.map Prod.fst).Nodup) {name : String} {value : Json} {record : FileRecord} (h : (name, value) ∈ entries)
    (hsha : valueAt ["sha256"] value = some (.str record.sha256)) (hsize : valueAt ["size"] value = some (.int record.size)) :
    Listed document name record := by
  rw [Listed, valueAt_entry hentries, valueAt_entry hentries, lookup_of_mem hnodup h]
  exact ⟨hsha, hsize⟩

theorem listed_of_file {files : List (String × FileRecord)} (hentries : (document.get "files").bind Json.fields? = some entries)
    (hnodup : (entries.map Prod.fst).Nodup) (hfiles : List.Forall₂ (IsEntry floatIs) entries files)
    {f : String × FileRecord} (hf : f ∈ files) : Listed document f.1 f.2 := by
  obtain ⟨e, he, hentry⟩ := paired_right hfiles hf
  obtain ⟨hsha, hsize⟩ := fileRecord_ok hentry.record
  exact listed_of_entry hentries hnodup (hentry.name ▸ he) hsha hsize

theorem Listed.unique {name : String} {record record' : FileRecord} (h : Listed document name record)
    (h' : Listed document name record') : record = record' := by
  have hsha : record.sha256 = record'.sha256 := by simpa [h.1] using h'.1
  have hsize : (record.size : Int) = record'.size := by simpa [h.2] using h'.2
  cases record
  cases record'
  simpa using ⟨hsha, Int.ofNat_inj.mp hsize⟩

theorem file_of_listed {files : List (String × FileRecord)} (hentries : (document.get "files").bind Json.fields? = some entries)
    (hfiles : List.Forall₂ (IsEntry floatIs) entries files) {name : String} {record : FileRecord}
    (h : Listed document name record) : (name, record) ∈ files := by
  rw [Listed, valueAt_entry hentries, valueAt_entry hentries] at h
  obtain ⟨value, hlookup, hsha⟩ := Option.bind_eq_some_iff.mp h.1
  rw [hlookup, Option.bind_some] at h
  obtain ⟨f, hf, hentry⟩ := paired_left hfiles (mem_of_lookup hlookup)
  have hrecord : f.2 = record := fileRecord_eq hentry.record h.1 h.2
  have hsame : f = (name, record) := Prod.ext hentry.name hrecord
  exact hsame ▸ hf

end FileMap

/-! ## From the directory to the archive -/

section Build

variable {x : Codec} {b : Bench} {source : Tree} {archive : Archive}

theorem readTrusted_ok {guard : Path → Option String} {t : Tree} {p : Path} {content : Content}
    (h : readTrusted guard t p = .ok content) : ∃ mode, t.node p = some (.file content mode) := by
  unfold readTrusted at h
  split at h
  · next mode hnode =>
    split at h
    · cases h
      exact ⟨mode, hnode⟩
    · cases h
  · cases h
  · cases h

/-- A member that `build` packages has a file of the directory. -/
theorem archiveFile_ok {name : String} {m : Member} (h : archiveFile b source name = .ok m) :
    m.name = name ∧ safeName name = .ok name ∧
      ∃ mode, source.node (pathOf name) = some (.file m.stored.1 mode) := by
  obtain ⟨name', hname, hrest⟩ := bind_eq_ok.mp h
  obtain rfl := (safeName_ok hname).1
  clear h
  split at hrest
  · next content mode hnode =>
    obtain ⟨added, hadded, hrest⟩ := bind_eq_ok.mp hrest
    cases hrest
    rw [Candidate.addFile_ok hadded]
    refine ⟨rfl, hname, mode, ?_⟩
    rw [hnode, Member.stored]
    simp
  · cases hrest

theorem safe_notTop {name : String} (h : safeName name = .ok name) : name ≠ "manifest.json" ∧ name ≠ "manifest.sig" := by
  constructor
  · rintro rfl
    exact absurd h (by decide)
  · rintro rfl
    exact absurd h (by decide)

/-- What `build` has when it returns: a document that it wrote anew, and a directory that
    `unpack` made of the archive. -/
structure Built (x : Codec) (b : Bench) (source : Tree) (archive : Archive) (document : Json) (u : Unpacked) : Prop where
  described : ∃ raw mode, source.node ["manifest.json"] = some (.file raw mode) ∧ x.tools.decode raw = .ok document
  accepted : ∃ host, (document.get "host").bind hostBinding = some host ∧
    verified x.tools x.canonical (b.circumstances host) archive = .ok u
  rewritten : x.tools.decode (x.canonical document) = .ok u.document
  files : ∀ f ∈ u.manifest.files, ∃ content mode mode',
    source.node (pathOf f.1) = some (.file content mode) ∧ u.tree.node (pathOf f.1) = some (.file content mode')

theorem build_ok (h : build x b source = .ok archive) : ∃ document u, Built x b source archive document u := by
  obtain ⟨raw, hraw, h⟩ := bind_eq_ok.mp h
  obtain ⟨document, hdecode, h⟩ := bind_eq_ok.mp h
  obtain ⟨manifest, hvalid, h⟩ := bind_eq_ok.mp h
  obtain ⟨_, _, h⟩ := bind_eq_ok.mp h
  obtain ⟨_, _, h⟩ := bind_eq_ok.mp h
  obtain ⟨_, _, h⟩ := bind_eq_ok.mp h
  obtain ⟨_, _, h⟩ := bind_eq_ok.mp h
  obtain ⟨_, _, h⟩ := bind_eq_ok.mp h
  obtain ⟨signature, _, h⟩ := bind_eq_ok.mp h
  obtain ⟨first, hfirst, h⟩ := bind_eq_ok.mp h
  obtain ⟨second, hsecond, h⟩ := bind_eq_ok.mp h
  obtain ⟨files, hfiles, h⟩ := bind_eq_ok.mp h
  obtain ⟨u, hunpack, h⟩ := bind_eq_ok.mp h
  cases h
  obtain ⟨_, _, hdocument⟩ := validate_seen hvalid
  have hverified := unpack_ok hunpack
  obtain ⟨raw', signature', hu, hcarried⟩ := verified_carried hverified
  obtain ⟨mode, hnode⟩ := readTrusted_ok hraw
  have hmembers : ∀ m ∈ files, m.name ≠ "manifest.json" ∧ m.name ≠ "manifest.sig" ∧
      ∃ mode, source.node (pathOf m.name) = some (.file m.stored.1 mode) := by
    intro m hm
    obtain ⟨name, _, hmember⟩ := paired_right (mapM_ok hfiles) hm
    obtain ⟨rfl, hsafe, mode, hnode⟩ := archiveFile_ok hmember
    exact ⟨(safe_notTop hsafe).1, (safe_notTop hsafe).2, mode, hnode⟩
  rw [Candidate.addFile_ok hfirst, Candidate.addFile_ok hsecond] at hcarried
  refine ⟨document, u, ⟨raw, mode, hnode, hdecode⟩, ⟨manifest.host, hdocument.host, hverified⟩, ?_, fun f hf => ?_⟩
  · -- the manifest that is read is the one that was written
    obtain ⟨m, hm, hname, hread⟩ := hcarried.metadata
    rcases List.mem_cons.mp hm with rfl | hm
    · rw [List.take_length, List.take_length] at hread
      exact hread ▸ hu.decoded
    · rcases List.mem_cons.mp hm with rfl | hm
      · exact absurd hname (show "manifest.sig" ≠ "manifest.json" by decide)
      · exact absurd hname (hmembers m hm).1
  · obtain ⟨m, hm, hname, hstored⟩ := hcarried.files f hf
    obtain ⟨_, _, hseen⟩ := validate_seen hu.valid
    have htop := safe_notTop (hseen.safe f hf)
    rcases List.mem_cons.mp hm with rfl | hm
    · exact absurd hname.symm htop.1
    · rcases List.mem_cons.mp hm with rfl | hm
      · exact absurd hname.symm htop.2
      · obtain ⟨_, _, mode, hsource⟩ := hmembers m hm
        exact ⟨m.stored.1, mode, m.stored.2, hname ▸ hsource, hstored⟩

end Build

/-! ## From the candidate to the directory -/

section Copies

variable {b : Bench} {h : Handoff} {document : Json} {room : Path → Bool} {t t' : Tree}

/-- A directory with some files, each at a path of its own. -/
structure Holding (t : Tree) (files : List Stored) : Prop where
  node : t.node = treeOf .dir Node.stored (files.map storedAt)
  apart : ((files.map storedAt).map Prod.fst).Nodup

theorem holding_empty : Holding emptyTree [] where
  node := emptyTree_node
  apart := List.nodup_nil

theorem Holding.place {done : List Stored} (ht : Holding t done) {name : String} {content : Content} {mode : Option Nat}
    (hname : pathOf name ≠ []) (h : place room t (pathOf name) content mode = .ok t') :
    Holding t' (done ++ [(name, content, mode)]) := by
  obtain ⟨hapart, hnode⟩ := add_some stored_isDir ht.node hname (place_ok.mp h).2
  refine ⟨by rw [hnode, List.map_append]; rfl, ?_⟩
  rw [List.map_append, List.map_append, List.nodup_append]
  refine ⟨ht.apart, by simp, fun p hp q hq heq => ?_⟩
  obtain ⟨f, hf, rfl⟩ := List.mem_map.mp hp
  have hq' : q = pathOf name := by simpa [storedAt] using hq
  exact (hapart f hf).1 (by rw [heq, hq'])

theorem Holding.file {files : List Stored} (ht : Holding t files) {f : Stored} (hf : f ∈ files) :
    t.node (pathOf f.1) = some (.file f.2.1 f.2.2) := by
  rw [ht.node]
  exact treeOf_file ht.apart (List.mem_map_of_mem hf)

theorem readPart_ok {part : Option Content} {content : Content} (h : readPart part = .ok content) : part = some content := by
  cases part with
  | none => cases h
  | some c =>
    cases h
    rfl

/-- The loop over the files copies each of them. -/
theorem copyFiles_ok {files : List (String × FileRecord)} (hsafe : ∀ f ∈ files, safeName f.1 = .ok f.1)
    (hcopied : files.foldlM (copyFile b h document) emptyTree = .ok t) :
    ∃ copies, List.Forall₂ (fun f y => y.1 = f.1 ∧ h.copied f.1 = some y.2.1) files copies ∧ Holding t copies := by
  refine foldlM_collect (I := Holding) (fun f hf t t' done ht hround => ?_) holding_empty hcopied
  obtain ⟨content, hcontent, hround⟩ := bind_eq_ok.mp hround
  obtain ⟨mode, _, hround⟩ := bind_eq_ok.mp hround
  exact ⟨(f.1, content, some mode), ⟨rfl, readPart_ok hcontent⟩,
    ht.place (Candidate.pathOf_ne_nil (hsafe f hf)) hround⟩

theorem evidenceName_safe : ∀ gate ∈ gates, safeName (evidenceName gate) = .ok (evidenceName gate) := by
  decide +kernel

/-- A piece of evidence as it is taken: it passed for the candidate, and is written anew. -/
structure Taken (x : Codec) (h : Handoff) (document : Json) (e : String × Json) (y : Stored) : Prop where
  passed : ∃ raw value, h.evidence e.1 = some raw ∧ x.tools.decode raw = .ok value ∧
    isPassed x.tools x.canonical document value e.1 = true ∧ y.2.1 = x.canonical value
  named : e.2 = .str y.1

/-- The loop over the evidence stores each piece and records it. -/
theorem takeEvidences_ok {x : Codec} {copies : List Stored} {evidence : List (String × Json)}
    (hnames : ∀ e ∈ evidence, ∀ name, e.2 = .str name → pathOf name ≠ []) (ht : Holding t copies)
    {r : Tree × List (String × Json)} (htaken : evidence.foldlM (takeEvidence x b h document) (t, []) = .ok r) :
    ∃ new, List.Forall₂ (Taken x h document) evidence new ∧ Holding r.1 (copies ++ new) ∧
      r.2 = new.map fun y => (y.1, evidenceRecord x y.2.1) := by
  refine foldlM_collect
    (I := fun r done => Holding r.1 (copies ++ done) ∧ r.2 = done.map fun y => (y.1, evidenceRecord x y.2.1))
    (fun e he r r' done hr hround => ?_) ⟨by rwa [List.append_nil], rfl⟩ htaken
  obtain ⟨raw, hraw, hround⟩ := bind_eq_ok.mp hround
  obtain ⟨value, hvalue, hround⟩ := bind_eq_ok.mp hround
  obtain ⟨_, hpassed, hround⟩ := bind_eq_ok.mp hround
  obtain ⟨name, hname, hround⟩ := bind_eq_ok.mp hround
  obtain ⟨t', hplace, hround⟩ := bind_eq_ok.mp hround
  cases hround
  have hstr := evidenceName_ok hname
  refine ⟨(name, x.canonical value, some 0o600),
    ⟨⟨raw, value, readPart_ok hraw, hvalue, demand_ok.mp hpassed, rfl⟩, hstr⟩, ?_, ?_⟩
  · have hplaced := hr.1.place (hnames e he name hstr) hplace
    rwa [List.append_assoc] at hplaced
  · rw [hr.2, List.map_append]
    rfl

end Copies

/-! ## The completed manifest -/

section Completed

variable {document : Json} {records : List (String × Json)} {issued : Int}

theorem get_completed {key : String} : (completed document records issued).get key =
    ((withFiles document ((((document.get "files").bind Json.fields?).getD []) ++ records)).get key).map fun value =>
      if key = "issued_at" then .int issued else if key = "expires_at" then .int (issued + 86400) else value := by
  rw [completed]
  generalize withFiles document _ = manifest
  cases manifest with
  | obj fields =>
    have hmap : (fields.map fun f => if f.1 = "issued_at" then (f.1, Json.int issued)
          else if f.1 = "expires_at" then (f.1, Json.int (issued + 86400)) else f) =
        fields.map fun f => (f.1, if f.1 = "issued_at" then Json.int issued
          else if f.1 = "expires_at" then Json.int (issued + 86400) else f.2) := by
      refine List.map_congr_left fun f _ => ?_
      split
      · rfl
      · split <;> rfl
    rw [withWindow, Json.get, hmap]
    exact lookup_map (g := fun key value =>
      if key = "issued_at" then .int issued else if key = "expires_at" then .int (issued + 86400) else value)
  | _ => rfl

/-- What is neither the files nor the window is the candidate's. -/
theorem get_completed_other {key : String} (hfiles : key ≠ "files") (hissued : key ≠ "issued_at") (hexpires : key ≠ "expires_at") :
    (completed document records issued).get key = document.get key := by
  rw [get_completed, get_withFiles_key]
  simp [hfiles, hissued, hexpires]

theorem completed_files {entries : List (String × Json)} (h : (document.get "files").bind Json.fields? = some entries) :
    ((completed document records issued).get "files").bind Json.fields? = some (entries ++ records) := by
  rw [get_completed, get_withFiles_key, fields_get h]
  rfl

theorem completed_window {files : List (String × Json)} (h : (isWindow (withFiles document files)).isSome = true) :
    valueAt ["issued_at"] (completed document records issued) = some (.int issued) ∧
      valueAt ["expires_at"] (completed document records issued) = some (.int (issued + 86400)) := by
  have hkeys : (document.get "issued_at").isSome = true ∧ (document.get "expires_at").isSome = true := by
    rw [isWindow, get_withFiles_key, get_withFiles_key] at h
    split at h
    · next hissued hexpires => exact ⟨by simpa using Option.isSome_of_mem hissued, by simpa using Option.isSome_of_mem hexpires⟩
    · cases h
  obtain ⟨hissued, hexpires⟩ := hkeys
  obtain ⟨i, hi⟩ := Option.isSome_iff_exists.mp hissued
  obtain ⟨e, he⟩ := Option.isSome_iff_exists.mp hexpires
  rw [valueAt_cons, valueAt_cons, get_completed, get_completed, get_withFiles_key, get_withFiles_key, hi, he]
  exact ⟨rfl, rfl⟩

theorem isWindow_of_values (h : valueAt ["issued_at"] document = some (.int issued))
    (h' : valueAt ["expires_at"] document = some (.int (issued + 86400))) :
    isWindow document = some (issued, issued + 86400) := by
  have hissued : document.get "issued_at" = some (.int issued) := by simpa [valueAt] using h
  have hexpires : document.get "expires_at" = some (.int (issued + 86400)) := by simpa [valueAt] using h'
  rw [isWindow, hissued, hexpires]
  have hlength : 0 < issued + 86400 - issued ∧ issued + 86400 - issued ≤ 86400 := by omega
  exact if_pos hlength

theorem hostBinding_ok {value : Json} {host : HostBinding} (h : hostBinding value = some host) :
    value.getStr "machine_id_sha256" = some host.machineId ∧ value.getStr "ssh_fingerprint" = some host.sshFingerprint := by
  unfold hostBinding at h
  split at h
  · next hmachine hssh =>
    split at h
    · cases h
      exact ⟨hmachine, hssh⟩
    · cases h
  · cases h

theorem host_values {host : HostBinding} (h : (document.get "host").bind hostBinding = some host) :
    valueAt ["host", "machine_id_sha256"] document = some (.str host.machineId) ∧
      valueAt ["host", "ssh_fingerprint"] document = some (.str host.sshFingerprint) := by
  obtain ⟨value, hget, hhost⟩ := Option.bind_eq_some_iff.mp h
  obtain ⟨hmachine, hssh⟩ := hostBinding_ok hhost
  rw [valueAt_cons, valueAt_cons, hget]
  exact ⟨getStr_iff.mp hmachine, getStr_iff.mp hssh⟩

/-- Documents that agree are for one host. -/
theorem Agree.host {value value' : Json} (h : Agree value value') {host host' : HostBinding}
    (hhost : (value.get "host").bind hostBinding = some host) (hhost' : (value'.get "host").bind hostBinding = some host') :
    host' = host := by
  obtain ⟨hmachine, hssh⟩ := host_values hhost
  obtain ⟨hmachine', hssh'⟩ := host_values hhost'
  rw [h.strings, hmachine, Option.some.injEq, Json.str.injEq] at hmachine'
  rw [h.strings, hssh, Option.some.injEq, Json.str.injEq] at hssh'
  cases host
  cases host'
  simp_all

/-- The keys of an object that has exactly `keys`: as many as these, and among them each of these. -/
theorem keys_perm {fields : List (String × Json)} {keys : List String} (hnodup : keys.Nodup)
    (h : (Json.obj fields).hasKeys keys = true) : keys.Perm (fields.map Prod.fst) := by
  rw [Json.hasKeys, Bool.and_eq_true, beq_iff_eq, List.all_eq_true] at h
  have hsub : keys ⊆ fields.map Prod.fst := by
    intro key hkey
    obtain ⟨f, hf, hname⟩ := List.any_eq_true.mp (h.2 key hkey)
    exact List.mem_map.mpr ⟨f, hf, beq_iff_eq.mp hname⟩
  have hlength : (fields.map Prod.fst).length ≤ keys.length := by rw [List.length_map, h.1]
  exact (List.subperm_of_subset hnodup hsub).perm_of_length_le hlength

/-- The evidence that is expected has the gates and no other keys. -/
theorem expected_evidence {evidence : List (String × Json)} (hexpected : isExpectedEvidence document = true)
    (hnodup : (evidence.map Prod.fst).Nodup) (h : (document.get "evidence").bind Json.fields? = some evidence) :
    (∀ gate ∈ gates, (gate, Json.str (evidenceName gate)) ∈ evidence) ∧
      ∀ e ∈ evidence, e.1 ∈ gates ∧ e.2 = .str (evidenceName e.1) := by
  rw [isExpectedEvidence, fields_get h, Option.any_some, Bool.and_eq_true, List.all_eq_true] at hexpected
  obtain ⟨hkeys, hnames⟩ := hexpected
  have hgate : ∀ gate ∈ gates, (gate, Json.str (evidenceName gate)) ∈ evidence := by
    intro gate hgate
    have hstr := getStr_iff.mp (beq_iff_eq.mp (hnames gate hgate))
    exact mem_of_lookup (by simpa [valueAt, Json.get] using hstr)
  refine ⟨hgate, fun e he => ?_⟩
  have hmem : e.1 ∈ gates := (keys_perm (by decide) hkeys).mem_iff.mpr (List.mem_map_of_mem he)
  have hlookup : Json.lookup e.1 evidence = some e.2 := lookup_of_mem hnodup he
  rw [lookup_of_mem hnodup (hgate e.1 hmem)] at hlookup
  exact ⟨hmem, (Option.some.inj hlookup).symm⟩

end Completed

/-! ## From the candidate to the archive -/

/-- The fields of the manifest that are texts. -/
def texts : List String :=
  ["schema", "release_id", "image", "provider", "model", "baseline_sha256", "transaction", "boot_artifact"]

/-- The archive is the candidate's, with the evidence that was handed in for it. -/
structure Finalized (x : Codec) (b : Bench) (h : Handoff) (archive : Archive) (document : Json) (candidate : Manifest)
    (u : Unpacked) : Prop where
  decoded : x.tools.decode h.candidate = .ok document
  frozen : validateCandidate x.tools.floatIs b.now document = .ok candidate
  accepted : verified x.tools x.canonical (b.circumstances candidate.host) archive = .ok u
  host : u.manifest.host = candidate.host
  texts : ∀ key ∈ texts, u.document.getStr key = document.getStr key
  window : isWindow u.document = some (b.issued, b.issued + 86400)
  fingerprint : candidateFingerprint x.tools x.canonical u.document = candidateFingerprint x.tools x.canonical document
  files : ∀ f ∈ candidate.files, f ∈ u.manifest.files ∧ ∃ content mode, h.copied f.1 = some content ∧
    content.length = f.2.size ∧ x.tools.sha256 content = f.2.sha256 ∧
    u.tree.node (pathOf f.1) = some (.file content mode)
  evidence : ∀ gate ∈ gates, ∃ raw value mode, h.evidence gate = some raw ∧ x.tools.decode raw = .ok value ∧
    isPassed x.tools x.canonical document value gate = true ∧
    u.tree.node (pathOf (evidenceName gate)) = some (.file (x.canonical value) mode)
  others : ∀ f ∈ u.manifest.files, f ∈ candidate.files ∨ ∃ gate ∈ gates, f.1 = evidenceName gate

section Finalize

variable {x : Codec} {b : Bench} {h : Handoff} {archive : Archive}

/-- The directory that `build` is given. -/
structure Source (x : Codec) (b : Bench) (h : Handoff) (document : Json) (candidate : Manifest) (source : Tree)
    (copies new : List Stored) (evidence : List (String × Json)) : Prop where
  decoded : x.tools.decode h.candidate = .ok document
  frozen : validateCandidate x.tools.floatIs b.now document = .ok candidate
  certified : (document.get "evidence").bind Json.fields? = some evidence
  copied : List.Forall₂ (fun f y => y.1 = f.1 ∧ h.copied f.1 = some y.2.1) candidate.files copies
  taken : List.Forall₂ (Taken x h document) evidence new
  holding : Holding source (copies ++ new ++ [("manifest.json",
    x.canonical (completed document (new.map fun y => (y.1, evidenceRecord x y.2.1)) b.issued), none)])

theorem finalize_ok (hfinal : finalize x b h = .ok archive) : ∃ document candidate source copies new evidence,
    Source x b h document candidate source copies new evidence ∧ build x b source = .ok archive := by
  obtain ⟨document, hdecode, hfinal⟩ := bind_eq_ok.mp hfinal
  obtain ⟨candidate, hvalid, hfinal⟩ := bind_eq_ok.mp hfinal
  obtain ⟨_, _, hfinal⟩ := bind_eq_ok.mp hfinal
  obtain ⟨t, hcopied, hfinal⟩ := bind_eq_ok.mp hfinal
  obtain ⟨evidence, hevidence, hfinal⟩ := bind_eq_ok.mp hfinal
  obtain ⟨r, htaken, hfinal⟩ := bind_eq_ok.mp hfinal
  obtain ⟨source, hplace, hbuild⟩ := bind_eq_ok.mp hfinal
  obtain ⟨entries, hseen⟩ := validateCandidate_seen hvalid
  have hcertified := expect_ok.mp hevidence
  have hnodup := x.tools.distinct _ _ _ _ hdecode (fields_get hcertified)
  have hnames := (expected_evidence hseen.expected hnodup hcertified).2
  have hsafe : ∀ f ∈ candidate.files, safeName f.1 = .ok f.1 := by
    intro f hf
    obtain ⟨_, _, hentry⟩ := paired_right hseen.files hf
    exact hentry.safe
  obtain ⟨copies, hcopies, ht⟩ := copyFiles_ok hsafe hcopied
  have hpaths : ∀ e ∈ evidence, ∀ name, e.2 = .str name → pathOf name ≠ [] := by
    intro e he name hname
    obtain ⟨hgate, hstr⟩ := hnames e he
    obtain rfl : name = evidenceName e.1 := Json.str.inj (hname.symm.trans hstr)
    exact Candidate.pathOf_ne_nil (evidenceName_safe e.1 hgate)
  obtain ⟨new, hnew, hr, hrecords⟩ := takeEvidences_ok hpaths ht htaken
  have htop : pathOf "manifest.json" = ["manifest.json"] := by decide
  rw [hrecords, ← htop] at hplace
  have hsource := hr.place (by rw [htop]; simp) hplace
  exact ⟨document, candidate, source, copies, new, evidence,
    ⟨hdecode, hvalid, hcertified, hcopies, hnew, hsource⟩, hbuild⟩

variable {document : Json} {candidate : Manifest} {source : Tree} {copies new : List Stored} {evidence : List (String × Json)}

theorem Source.names (hs : Source x b h document candidate source copies new evidence) :
    ((candidate.files.map Prod.fst) ++ new.map Prod.fst).Nodup := by
  have hcopies : copies.map Prod.fst = candidate.files.map Prod.fst := paired_map (fun _ _ hy => hy.1) hs.copied
  have hapart := hs.holding.apart
  rw [List.map_append, List.map_append] at hapart
  have hnames := (List.nodup_append.mp hapart).1
  have hpaths : ((copies ++ new).map storedAt).map Prod.fst = ((copies ++ new).map Prod.fst).map pathOf := by
    simp [storedAt, Function.comp_def]
  rw [hpaths] at hnames
  rw [← hcopies, ← List.map_append]
  exact hnames.of_map

/-- The manifest of the directory. -/
def Source.manifest (_ : Source x b h document candidate source copies new evidence) : Json :=
  completed document (new.map fun y => (y.1, evidenceRecord x y.2.1)) b.issued

/-- What `build` signs says what the completed manifest says. -/
theorem Source.agree (hs : Source x b h document candidate source copies new evidence) {document' : Json} {u : Unpacked}
    (hbuilt : Built x b source archive document' u) : Agree hs.manifest u.document := by
  obtain ⟨raw, mode, hnode, hdecode⟩ := hbuilt.described
  have hlast : ("manifest.json", x.canonical hs.manifest, none) ∈
      copies ++ new ++ [("manifest.json", x.canonical hs.manifest, none)] := by simp
  have hfile := hs.holding.file hlast
  have htop : pathOf "manifest.json" = ["manifest.json"] := by decide
  rw [htop, hnode, Option.some.injEq, Node.file.injEq] at hfile
  rw [hfile.1] at hdecode
  exact (x.agree _ _ hdecode).trans (x.agree _ _ hbuilt.rewritten)

theorem Source.fields (hs : Source x b h document candidate source copies new evidence) : ∃ entries,
    CandidateValidated x.tools.floatIs document candidate entries ∧
    (hs.manifest.get "files").bind Json.fields? = some (entries ++ new.map fun y => (y.1, evidenceRecord x y.2.1)) ∧
    ((entries ++ new.map fun y => (y.1, evidenceRecord x y.2.1)).map Prod.fst).Nodup := by
  obtain ⟨entries, hseen⟩ := validateCandidate_seen hs.frozen
  refine ⟨entries, hseen, completed_files hseen.fields, ?_⟩
  have hnames := hs.names
  rw [entries_names hseen.files] at hnames
  simpa [Function.comp_def] using hnames

theorem Source.listed_file (hs : Source x b h document candidate source copies new evidence) {f : String × FileRecord}
    (hf : f ∈ candidate.files) : Listed hs.manifest f.1 f.2 := by
  obtain ⟨entries, hseen, hfields, hnodup⟩ := hs.fields
  obtain ⟨e, he, hentry⟩ := paired_right hseen.files hf
  obtain ⟨hsha, hsize⟩ := fileRecord_ok hentry.record
  exact listed_of_entry hfields hnodup (List.mem_append_left _ (hentry.name ▸ he)) hsha hsize

theorem Source.listed_evidence (hs : Source x b h document candidate source copies new evidence) {y : Stored} (hy : y ∈ new) :
    Listed hs.manifest y.1 { sha256 := x.tools.sha256 y.2.1, size := y.2.1.length } := by
  obtain ⟨entries, _, hfields, hnodup⟩ := hs.fields
  exact listed_of_entry hfields hnodup (List.mem_append_right _ (List.mem_map.mpr ⟨y, hy, rfl⟩)) rfl rfl

theorem Source.listed_only (hs : Source x b h document candidate source copies new evidence) {name : String}
    (hname : (valueAt ["files", name] hs.manifest).isSome = true) :
    (∃ f ∈ candidate.files, f.1 = name) ∨ ∃ y ∈ new, y.1 = name := by
  obtain ⟨entries, hseen, hfields, _⟩ := hs.fields
  rw [valueAt_entry hfields, Option.isSome_iff_exists] at hname
  obtain ⟨_, hvalue⟩ := hname
  obtain ⟨value, hlookup, _⟩ := Option.bind_eq_some_iff.mp hvalue
  rcases List.mem_append.mp (mem_of_lookup hlookup) with he | hr
  · obtain ⟨f, hf, hentry⟩ := paired_left hseen.files he
    exact Or.inl ⟨f, hf, hentry.name⟩
  · obtain ⟨y, hy, heq⟩ := List.mem_map.mp hr
    exact Or.inr ⟨y, hy, congrArg Prod.fst heq⟩

/-- The evidence is taken gate by gate. -/
theorem Source.evidence_gates (hs : Source x b h document candidate source copies new evidence) :
    (∀ gate ∈ gates, ∃ y ∈ new, y.1 = evidenceName gate ∧ Taken x h document (gate, .str (evidenceName gate)) y) ∧
      ∀ y ∈ new, ∃ gate ∈ gates, y.1 = evidenceName gate := by
  obtain ⟨entries, hseen, _, _⟩ := hs.fields
  have hnodup := x.tools.distinct _ _ _ _ hs.decoded (fields_get hs.certified)
  obtain ⟨hgates, hnames⟩ := expected_evidence hseen.expected hnodup hs.certified
  constructor
  · intro gate hgate
    obtain ⟨y, hy, htaken⟩ := paired_left hs.taken (hgates gate hgate)
    exact ⟨y, hy, (Json.str.inj htaken.named).symm, htaken⟩
  · intro y hy
    obtain ⟨e, he, htaken⟩ := paired_right hs.taken hy
    obtain ⟨hgate, hstr⟩ := hnames e he
    exact ⟨e.1, hgate, Json.str.inj (htaken.named.symm.trans hstr)⟩

section Agreeing

variable {document' : Json}

theorem Source.host_of_agree (hs : Source x b h document candidate source copies new evidence) {host : HostBinding}
    (hagree : Agree hs.manifest document') (hhost : (document'.get "host").bind hostBinding = some host) :
    host = candidate.host := by
  obtain ⟨entries, hseen, _, _⟩ := hs.fields
  have hcandidate := hseen.host
  rw [get_withFiles_key] at hcandidate
  refine hagree.host ?_ hhost
  rw [Source.manifest, get_completed_other (by decide) (by decide) (by decide)]
  simpa using hcandidate

theorem Source.text_of_agree (hs : Source x b h document candidate source copies new evidence)
    (hagree : Agree hs.manifest document') {key : String} (hkey : key ∈ texts) : document'.getStr key = document.getStr key := by
  have hother : ∀ key ∈ texts, key ≠ "files" ∧ key ≠ "issued_at" ∧ key ≠ "expires_at" := by decide
  obtain ⟨hfiles, hissued, hexpires⟩ := hother key hkey
  rw [hagree.getStr, Source.manifest, Json.getStr, Json.getStr, get_completed_other hfiles hissued hexpires]

theorem Source.window_of_agree (hs : Source x b h document candidate source copies new evidence)
    (hagree : Agree hs.manifest document') : isWindow document' = some (b.issued, b.issued + 86400) := by
  obtain ⟨entries, hseen, _, _⟩ := hs.fields
  obtain ⟨hissued, hexpires⟩ := completed_window hseen.window
  exact isWindow_of_values ((hagree.integers _ _).mpr hissued) ((hagree.integers _ _).mpr hexpires)

theorem Source.evidence_of_agree (hs : Source x b h document candidate source copies new evidence)
    (hagree : Agree hs.manifest document') {gate name : String} (hgate : gate ∈ gates)
    (hname : (document'.get "evidence").bind (Json.getStr gate) = some name) : name = evidenceName gate := by
  obtain ⟨entries, hseen, _, _⟩ := hs.fields
  have hnodup := x.tools.distinct _ _ _ _ hs.decoded (fields_get hs.certified)
  have hmem := (expected_evidence hseen.expected hnodup hs.certified).1 gate hgate
  have hcandidate : valueAt ["evidence", gate] hs.manifest = some (.str (evidenceName gate)) := by
    rw [valueAt_cons, Source.manifest, get_completed_other (by decide) (by decide) (by decide), fields_get hs.certified]
    show (Json.lookup gate evidence).bind (valueAt []) = _
    rw [lookup_of_mem hnodup hmem]
    rfl
  have hnamed : valueAt ["evidence", gate] document' = some (.str name) := by
    obtain ⟨value, hget, hstr⟩ := Option.bind_eq_some_iff.mp hname
    rw [valueAt_cons, hget]
    exact getStr_iff.mp hstr
  rw [hagree.strings, hcandidate, Option.some.injEq, Json.str.injEq] at hnamed
  exact hnamed.symm

end Agreeing

theorem isPassed_fingerprint {document value : Json} {gate : String}
    (hpassed : isPassed x.tools x.canonical document value gate = true) :
    value.getStr "artifact_fingerprint" = some (candidateFingerprint x.tools x.canonical document) := by
  simp only [isPassed, Bool.and_eq_true, beq_iff_eq] at hpassed
  exact hpassed.2

theorem finalized_ok (hs : Source x b h document candidate source copies new evidence)
    (hbuild : build x b source = .ok archive) : ∃ u, Finalized x b h archive document candidate u := by
  obtain ⟨document', u, hbuilt⟩ := build_ok hbuild
  have hagree := hs.agree hbuilt
  obtain ⟨host, hbinding, hverified⟩ := hbuilt.accepted
  obtain ⟨raw, signature, hu⟩ := verified_ok hverified
  obtain ⟨listed, passed, hseen⟩ := validate_seen hu.valid
  have hnodup := x.tools.distinct _ _ _ _ hu.decoded (fields_get hseen.fields)
  -- a file that is listed comes from the directory
  have hcontent : ∀ y ∈ copies ++ new, ∀ record, Listed hs.manifest y.1 record →
      (y.1, record) ∈ u.manifest.files ∧ ∃ mode, u.tree.node (pathOf y.1) = some (.file y.2.1 mode) := by
    intro y hy record hlisted
    have hmem := file_of_listed hseen.fields hseen.files (hagree.listed hlisted)
    obtain ⟨content, mode, mode', hsource, htree⟩ := hbuilt.files _ hmem
    have hfile := hs.holding.file (List.mem_append_left _ hy)
    rw [hsource, Option.some.injEq, Node.file.injEq] at hfile
    exact ⟨hmem, mode', hfile.1 ▸ htree⟩
  have hhost : u.manifest.host = candidate.host := hs.host_of_agree hagree hseen.host
  have hbound : u.manifest.host = host := (x.agree _ _ hbuilt.rewritten).host hbinding hseen.host
  refine ⟨u, hs.decoded, hs.frozen, ?_, hhost, fun key hkey => ?_, hs.window_of_agree hagree, ?_, fun f hf => ?_,
    fun gate hgate => ?_, fun f hf => ?_⟩
  · rwa [← hhost, hbound]
  · exact hs.text_of_agree hagree hkey
  · -- one piece of evidence is for both documents
    obtain ⟨y, hy, hname, htaken⟩ := hs.evidence_gates.1 "boot" (by decide)
    obtain ⟨raw', value, _, _, hpassed, hcanonical⟩ := htaken.passed
    obtain ⟨name, content, mode, evidence', hnamed, hnode, hdecode, hpassed', _⟩ := (hu.passed "boot" (by decide)).packaged
    have hsame : name = evidenceName "boot" := hs.evidence_of_agree hagree (by decide) hnamed
    obtain ⟨_, mode', htree⟩ := hcontent y (List.mem_append_right _ hy) _ (hs.listed_evidence hy)
    rw [hname, ← hsame, hnode, Option.some.injEq, Node.file.injEq] at htree
    rw [htree.1, hcanonical] at hdecode
    have hprint := (x.agree _ _ hdecode).getStr "artifact_fingerprint"
    rw [isPassed_fingerprint hpassed, isPassed_fingerprint hpassed', Option.some.injEq] at hprint
    exact hprint
  · obtain ⟨y, hy, hname, hcopied⟩ := paired_left hs.copied hf
    obtain ⟨hmem, mode, htree⟩ := hcontent y (List.mem_append_left _ hy) f.2 (hname ▸ hs.listed_file hf)
    rw [hname] at hmem htree
    obtain ⟨stored, hnode, hrecorded⟩ := hu.files _ hmem
    rw [htree, Option.some.injEq, Node.stored, Node.file.injEq] at hnode
    exact ⟨hmem, y.2.1, mode, hcopied, hnode.1 ▸ hrecorded.size, hnode.1 ▸ hrecorded.digest, htree⟩
  · obtain ⟨y, hy, hname, htaken⟩ := hs.evidence_gates.1 gate hgate
    obtain ⟨raw', value, hraw, hvalue, hpassed, hcanonical⟩ := htaken.passed
    obtain ⟨_, mode, htree⟩ := hcontent y (List.mem_append_right _ hy) _ (hs.listed_evidence hy)
    exact ⟨raw', value, mode, hraw, hvalue, hpassed, by rw [← hname, ← hcanonical]; exact htree⟩
  · obtain ⟨e, he, hentry⟩ := paired_right hseen.files hf
    have hlisted : Listed u.document f.1 f.2 := listed_of_file hseen.fields hnodup hseen.files hf
    have hpresent : (valueAt ["files", f.1] hs.manifest).isSome = true := by
      have hlookup : Json.lookup e.1 listed = some e.2 := lookup_of_mem hnodup he
      rw [← hagree.present, valueAt_entry hseen.fields, hentry.name, hlookup]
      rfl
    rcases hs.listed_only hpresent with ⟨g, hg, hname⟩ | ⟨y, hy, hname⟩
    · have hsame := hlisted.unique (hname ▸ hagree.listed (hs.listed_file hg))
      have hfile : f = g := Prod.ext hname.symm hsame
      exact Or.inl (hfile ▸ hg)
    · obtain ⟨gate, hgate, hgateName⟩ := hs.evidence_gates.2 y hy
      exact Or.inr ⟨gate, hgate, hname ▸ hgateName⟩

theorem finalized_of_finalize (hfinal : finalize x b h = .ok archive) :
    ∃ document candidate u, Finalized x b h archive document candidate u := by
  obtain ⟨document, candidate, source, copies, new, evidence, hs, hbuild⟩ := finalize_ok hfinal
  obtain ⟨u, hu⟩ := finalized_ok hs hbuild
  exact ⟨document, candidate, u, hu⟩

/-- The release that is published is the candidate that was frozen and certified. Its own `unpack`
    has accepted it, and the host that it is for accepts it until its window closes. -/
theorem finalize_sound (x : Codec) (b : Bench) (h : Handoff) :
    match finalize x b h with
    | .ok archive => ∃ document candidate u, Finalized x b h archive document candidate u ∧
        ∀ now, b.later ≤ now → now ≤ b.issued + 86400 →
          unpack x.tools x.canonical ((b.circumstances candidate.host).undisturbed u now none) none archive =
            (.ok u, some u.tree)
    | .error _ => True := by
  cases hfinal : finalize x b h with
  | error e => trivial
  | ok archive =>
    obtain ⟨document, candidate, u, hu⟩ := finalized_of_finalize hfinal
    refine ⟨document, candidate, u, hu, fun now hlater hopen => ?_⟩
    refine verified_undisturbed hlater (Or.inr fun window hwindow => ?_) hu.accepted
    obtain rfl := Option.some.inj (hu.window.symm.trans hwindow)
    exact hopen

end Finalize

end Hermes.Release

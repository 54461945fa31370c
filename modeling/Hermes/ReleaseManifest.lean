import Mathlib.Algebra.Order.Ring.Int
import Hermes.ArchiveNames
import Hermes.Json

/- The manifest of a release (`release.validate`) and of a candidate
   (`finalize.validate_candidate`). Of an accepted one only the host and the files are read
   later, so these are what is returned. Floats occur only as modes; how one compares with an
   integer is a parameter. -/
namespace Hermes.Release
open Outcome Transaction

def schema : String := "hermes-release-v2"

def maxArchive : Nat := 8 * 1024 ^ 3

/-- `GATES` -/
def gates : List String :=
  ["inference", "restore", "credential_revocation", "data_purge", "vm_destroyed", "boot", "runtime", "package_replay",
    "vulnerability_scan"]

/-- `FIELDS` -/
def fieldNames : List String :=
  ["schema", "release_id", "issued_at", "expires_at", "image", "provider", "model", "host", "baseline_sha256", "files",
    "evidence", "transaction", "boot_artifact"]

/-- The dots of the pattern match any character of a line. -/
def isImage (s : String) : Bool :=
  let cs := s.toList
  cs.take 6 == "docker".toList && (cs.drop 6).head?.any (· != '\n') &&
    (cs.drop 7).take 36 == "io/nousresearch/hermes-agent@sha256:".toList && isHex 64 64 (String.ofList (cs.drop 43))

example : isImage ("docker.io/nousresearch/hermes-agent@sha256:" ++ String.ofList (List.replicate 64 'a')) = true := by decide

def isModelName (s : String) : Bool :=
  !s.toList.isEmpty && s.toList.all fun c => isAlnum c || "._:/-".toList.contains c

def isFingerprint (s : String) : Bool :=
  s.toList.take 7 == "SHA256:".toList && s.toList.length == 50 &&
    (s.toList.drop 7).all fun c => isAlnum c || c == '+' || c == '/'

structure FileRecord where
  sha256 : String
  size : Nat
  deriving DecidableEq, Repr

structure HostBinding where
  machineId : String
  sshFingerprint : String
  deriving DecidableEq, Repr

structure Manifest where
  host : HostBinding
  files : List (String × FileRecord)
  deriving DecidableEq, Repr

/-- The value of an option, or `require` fails. -/
def expect {α : Type} (value : Option α) (reason : String) : Except Exc α :=
  match value with
  | some a => .ok a
  | none => .error (.failure 78 reason)

section Validate

variable (floatIs : String → Int → Bool)

/-- `mode in (0o600, 0o644, 0o755)` -/
def isMode : Json → Bool
  | .int n => n == 0o600 || n == 0o644 || n == 0o755
  | .float literal => floatIs literal 0o600 || floatIs literal 0o644 || floatIs literal 0o755
  | _ => false

/-- A record of the file map. -/
def fileRecord (value : Json) : Option FileRecord :=
  match value.getStr "sha256", value.get "size", value.get "mode" with
  | some sha256, some (.int size), some mode =>
    if value.hasKeys ["sha256", "size", "mode"] && isHex 64 64 sha256 && 0 ≤ size && size ≤ maxArchive &&
      isMode floatIs mode then some { sha256, size := size.toNat } else none
  | _, _, _ => none

def readFile (file : String × Json) : Except Exc (String × FileRecord) := do
  let name ← safeName file.1
  let record ← expect (fileRecord floatIs file.2) "invalid-file-record"
  pure (name, record)

def hostBinding (value : Json) : Option HostBinding :=
  match value.getStr "machine_id_sha256", value.getStr "ssh_fingerprint" with
  | some machineId, some sshFingerprint =>
    if value.hasKeys ["machine_id_sha256", "ssh_fingerprint"] && isHex 64 64 machineId && isFingerprint sshFingerprint then
      some { machineId, sshFingerprint }
    else none
  | _, _ => none

/-- The window in which a release may be used. -/
def isWindow (manifest : Json) : Option (Int × Int) :=
  match manifest.get "issued_at", manifest.get "expires_at" with
  | some (.int issued), some (.int expires) =>
    if 0 < expires - issued ∧ expires - issued ≤ 86400 then some (issued, expires) else none
  | _, _ => none

/-- A field that names one of the files, in a directory of its own. -/
def namesFile (files : List (String × Json)) (directory : String) (value : Option Json) : Bool :=
  match value with
  | some (.str name) => startsWith name directory && files.any fun f => f.1 == name
  | _ => false

/-- `validate` -/
def validate (now : Int) (host : Option HostBinding) (bound : Bool) (manifest : Json) : Except Exc Manifest := do
  demand (manifest.hasKeys fieldNames) "invalid-release-fields"
  demand (manifest.getStr "schema" == some schema) "unsigned-or-legacy-release"
  demand ((manifest.getStr "release_id").any isReleaseId) "invalid-release-id"
  let window ← expect (isWindow manifest) "invalid-release-window"
  demand (window.1 ≤ now && (bound || now ≤ window.2)) "expired-or-future-release"
  demand ((manifest.getStr "image").any isImage) "unpinned-image"
  demand (manifest.getStr "provider" == some "openai-api") "unattended-provider-unsupported"
  demand ((manifest.getStr "model").any isModelName) "invalid-model"
  let identity ← expect ((manifest.get "host").bind hostBinding) "invalid-host-binding"
  demand (host.all (identity == ·)) "wrong-host"
  demand ((manifest.getStr "baseline_sha256").any (isHex 64 64)) "invalid-baseline"
  let entries ← expect ((manifest.get "files").bind Json.fields?) "invalid-file-map"
  demand (1 ≤ entries.length && entries.length ≤ 20000) "invalid-file-map"
  let files ← entries.mapM (readFile floatIs)
  demand ((files.map fun f => f.2.size).sum ≤ maxArchive) "release-too-large"
  demand (entries.any fun f => f.1 == "payload/vulnerability-policy.json") "missing-vulnerability-policy"
  demand (namesFile entries "packages/" (manifest.get "transaction")) "missing-release-artifact"
  demand (namesFile entries "boot/" (manifest.get "boot_artifact")) "missing-release-artifact"
  let evidence ← expect ((manifest.get "evidence").bind Json.fields?) "incomplete-certification"
  demand ((Json.obj evidence).hasKeys gates) "incomplete-certification"
  demand (evidence.all fun e => namesFile entries "evidence/" (some e.2)) "missing-certification-evidence"
  pure { host := identity, files }

def evidenceName (gate : String) : String := "evidence/" ++ gate ++ ".json"

/-- `manifest.get("evidence") == expected` -/
def isExpectedEvidence (manifest : Json) : Bool :=
  (manifest.get "evidence").any fun evidence =>
    evidence.hasKeys gates && gates.all fun gate => evidence.getStr gate == some (evidenceName gate)

/-- The records that stand for the evidence that is not there yet. -/
def pendingEvidence : List (String × Json) :=
  gates.map fun gate =>
    (evidenceName gate, .obj [("sha256", .str (String.ofList (List.replicate 64 '0'))), ("size", .int 0), ("mode", .int 0o600)])

/-- `manifest` with other files. -/
def withFiles (manifest : Json) (files : List (String × Json)) : Json :=
  match manifest with
  | .obj fields => .obj (fields.map fun f => if f.1 = "files" then (f.1, .obj files) else f)
  | other => other

/-- `validate_candidate` -/
def validateCandidate (now : Int) (manifest : Json) : Except Exc Manifest := do
  let files ← expect ((manifest.get "files").bind Json.fields?) "invalid-candidate"
  demand (isExpectedEvidence manifest) "invalid-candidate-evidence"
  demand (!files.any fun f => startsWith f.1 "evidence/") "candidate-contains-evidence"
  let checked ← validate floatIs now none true (withFiles manifest (files ++ pendingEvidence))
  pure { checked with files := checked.files.take files.length }

end Validate

/-! ## What an accepted manifest is -/

section Accepted

variable {floatIs : String → Int → Bool} {now : Int} {manifest : Json} {m : Manifest}

theorem expect_ok {α : Type} {value : Option α} {reason : String} {a : α} :
    expect value reason = .ok a ↔ value = some a := by
  cases value with
  | none => simp [expect]
  | some b => simp [expect]

/-- A file of the manifest is one of its map. -/
structure IsEntry (floatIs : String → Int → Bool) (e : String × Json) (f : String × FileRecord) : Prop where
  name : f.1 = e.1
  safe : safeName f.1 = .ok f.1
  record : fileRecord floatIs e.2 = some f.2

theorem readFile_ok {entry : String × Json} {file : String × FileRecord} (h : readFile floatIs entry = .ok file) :
    IsEntry floatIs entry file := by
  obtain ⟨name, hname, h⟩ := bind_eq_ok.mp h
  obtain ⟨record, hrecord, h⟩ := bind_eq_ok.mp h
  cases h
  have hsame := (safeName_ok hname).1
  subst hsame
  exact ⟨rfl, hname, expect_ok.mp hrecord⟩

theorem readFiles_ok {entries : List (String × Json)} {files : List (String × FileRecord)}
    (h : entries.mapM (readFile floatIs) = .ok files) : List.Forall₂ (IsEntry floatIs) entries files :=
  (mapM_ok h).imp fun _ _ => readFile_ok

theorem entries_names {entries : List (String × Json)} {files : List (String × FileRecord)}
    (h : List.Forall₂ (IsEntry floatIs) entries files) : files.map Prod.fst = entries.map Prod.fst :=
  paired_map (fun _ _ hentry => hentry.name) h

/-- What `validate` has seen of a manifest that it returns. -/
structure Validated (floatIs : String → Int → Bool) (manifest : Json) (m : Manifest) (entries evidence : List (String × Json)) :
    Prop where
  window : (isWindow manifest).isSome = true
  host : (manifest.get "host").bind hostBinding = some m.host
  fields : (manifest.get "files").bind Json.fields? = some entries
  files : List.Forall₂ (IsEntry floatIs) entries m.files
  certified : (manifest.get "evidence").bind Json.fields? = some evidence
  complete : (Json.obj evidence).hasKeys gates = true
  packaged : ∀ e ∈ evidence, namesFile entries "evidence/" (some e.2) = true
  policy : ∃ e ∈ entries, e.1 = "payload/vulnerability-policy.json"

theorem Validated.names {entries evidence : List (String × Json)} (h : Validated floatIs manifest m entries evidence) :
    m.files.map Prod.fst = entries.map Prod.fst := entries_names h.files

theorem Validated.safe {entries evidence : List (String × Json)} (h : Validated floatIs manifest m entries evidence) :
    ∀ f ∈ m.files, safeName f.1 = .ok f.1 := by
  intro f hf
  obtain ⟨_, _, hentry⟩ := paired_right h.files hf
  exact hentry.safe

theorem validate_seen {host : Option HostBinding} {bound : Bool} (h : validate floatIs now host bound manifest = .ok m) :
    ∃ entries evidence, Validated floatIs manifest m entries evidence := by
  obtain ⟨_, _, h⟩ := bind_eq_ok.mp h
  obtain ⟨_, _, h⟩ := bind_eq_ok.mp h
  obtain ⟨_, _, h⟩ := bind_eq_ok.mp h
  obtain ⟨_, hwindow, h⟩ := bind_eq_ok.mp h
  obtain ⟨_, _, h⟩ := bind_eq_ok.mp h
  obtain ⟨_, _, h⟩ := bind_eq_ok.mp h
  obtain ⟨_, _, h⟩ := bind_eq_ok.mp h
  obtain ⟨_, _, h⟩ := bind_eq_ok.mp h
  obtain ⟨identity, hidentity, h⟩ := bind_eq_ok.mp h
  obtain ⟨_, _, h⟩ := bind_eq_ok.mp h
  obtain ⟨_, _, h⟩ := bind_eq_ok.mp h
  obtain ⟨entries, hentries, h⟩ := bind_eq_ok.mp h
  obtain ⟨_, _, h⟩ := bind_eq_ok.mp h
  obtain ⟨files, hfiles, h⟩ := bind_eq_ok.mp h
  obtain ⟨_, _, h⟩ := bind_eq_ok.mp h
  obtain ⟨_, hpolicy, h⟩ := bind_eq_ok.mp h
  obtain ⟨_, _, h⟩ := bind_eq_ok.mp h
  obtain ⟨_, _, h⟩ := bind_eq_ok.mp h
  obtain ⟨evidence, hevidence, h⟩ := bind_eq_ok.mp h
  obtain ⟨_, hcomplete, h⟩ := bind_eq_ok.mp h
  obtain ⟨_, hpackaged, h⟩ := bind_eq_ok.mp h
  cases h
  obtain ⟨e, he, hname⟩ := List.any_eq_true.mp (demand_ok.mp hpolicy)
  exact ⟨entries, evidence, ⟨Option.isSome_of_mem (expect_ok.mp hwindow), expect_ok.mp hidentity, expect_ok.mp hentries,
    readFiles_ok hfiles, expect_ok.mp hevidence, demand_ok.mp hcomplete, List.all_eq_true.mp (demand_ok.mp hpackaged),
    ⟨e, he, by simpa using hname⟩⟩⟩

/-- The fields of an object whose values are changed. -/
theorem lookup_map {fields : List (String × Json)} {g : String → Json → Json} {key : String} :
    Json.lookup key (fields.map fun f => (f.1, g f.1 f.2)) = (Json.lookup key fields).map (g key) := by
  induction fields with
  | nil => rfl
  | cons f fields ih =>
    obtain ⟨k, v⟩ := f
    simp only [List.map_cons, Json.lookup]
    by_cases hk : k = key
    · rw [if_pos hk, if_pos hk, hk, Option.map_some]
    · rw [if_neg hk, if_neg hk, ih]

theorem get_withFiles_key {files : List (String × Json)} {key : String} :
    (withFiles manifest files).get key = (manifest.get key).map fun value => if key = "files" then .obj files else value := by
  cases manifest with
  | obj fields =>
    have hmap : (fields.map fun f => if f.1 = "files" then (f.1, Json.obj files) else f) =
        fields.map fun f => (f.1, if f.1 = "files" then Json.obj files else f.2) := by
      refine List.map_congr_left fun f _ => ?_
      split <;> rfl
    rw [withFiles, Json.get, hmap]
    exact lookup_map (g := fun key value => if key = "files" then .obj files else value)
  | _ => rfl

theorem get_withFiles {files entries : List (String × Json)} (h : (manifest.get "files").bind Json.fields? = some entries) :
    ((withFiles manifest files).get "files").bind Json.fields? = some files := by
  obtain ⟨value, hget, _⟩ := Option.bind_eq_some_iff.mp h
  rw [get_withFiles_key, hget]
  rfl

/-- What `validateCandidate` has seen: the evidence is where it belongs, and is not there yet. -/
structure CandidateValidated (floatIs : String → Int → Bool) (manifest : Json) (m : Manifest) (entries : List (String × Json)) :
    Prop where
  window : (isWindow (withFiles manifest (entries ++ pendingEvidence))).isSome = true
  host : ((withFiles manifest (entries ++ pendingEvidence)).get "host").bind hostBinding = some m.host
  fields : (manifest.get "files").bind Json.fields? = some entries
  files : List.Forall₂ (IsEntry floatIs) entries m.files
  expected : isExpectedEvidence manifest = true
  pending : ∀ e ∈ entries, startsWith e.1 "evidence/" = false

theorem validateCandidate_seen (h : validateCandidate floatIs now manifest = .ok m) :
    ∃ entries, CandidateValidated floatIs manifest m entries := by
  obtain ⟨entries, hentries, h⟩ := bind_eq_ok.mp h
  obtain ⟨_, hexpected, h⟩ := bind_eq_ok.mp h
  obtain ⟨_, hpending, h⟩ := bind_eq_ok.mp h
  obtain ⟨checked, hchecked, h⟩ := bind_eq_ok.mp h
  cases h
  have hfields := expect_ok.mp hentries
  obtain ⟨all, _, hseen⟩ := validate_seen hchecked
  obtain rfl := Option.some.inj ((get_withFiles hfields).symm.trans hseen.fields)
  rw [demand_ok, Bool.not_eq_true', List.any_eq_false] at hpending
  have htaken : List.Forall₂ (IsEntry floatIs) entries (checked.files.take entries.length) := by
    have h := List.forall₂_take entries.length hseen.files
    rwa [List.take_left] at h
  exact ⟨entries, hseen.window, hseen.host, hfields, htaken, demand_ok.mp hexpected, fun e he => by simpa using hpending e he⟩

theorem validateCandidate_ok (h : validateCandidate floatIs now manifest = .ok m) :
    ∃ entries, (manifest.get "files").bind Json.fields? = some entries ∧ m.files.map Prod.fst = entries.map Prod.fst ∧
      ∀ f ∈ m.files, safeName f.1 = .ok f.1 := by
  obtain ⟨entries, hseen⟩ := validateCandidate_seen h
  refine ⟨entries, hseen.fields, entries_names hseen.files, fun f hf => ?_⟩
  obtain ⟨_, _, hentry⟩ := paired_right hseen.files hf
  exact hentry.safe

/-- What is accepted is accepted later, on its own host, while the window is open or is not looked at. -/
theorem validate_again {now' : Int} {host host' : Option HostBinding} {bound bound' : Bool} (hnow : now ≤ now')
    (hhost : host'.all (m.host == ·) = true)
    (hwindow : bound' = true ∨ ∀ window, isWindow manifest = some window → now' ≤ window.2)
    (h : validate floatIs now host bound manifest = .ok m) : validate floatIs now' host' bound' manifest = .ok m := by
  obtain ⟨_, _, hseen⟩ := validate_seen h
  -- the clock
  refine bind_mono (fun _ h => bind_mono (fun _ h => bind_mono (fun _ h => ?_) h) h) h
  obtain ⟨window, hread, h⟩ := bind_eq_ok.mp h
  obtain ⟨u, hopen, h⟩ := bind_eq_ok.mp h
  have hopen' : demand (window.1 ≤ now' && (bound' || now' ≤ window.2)) "expired-or-future-release" = .ok u := by
    rw [demand_ok] at hopen ⊢
    simp only [Bool.and_eq_true, Bool.or_eq_true, decide_eq_true_eq] at hopen ⊢
    exact ⟨hopen.1.trans hnow, hwindow.imp_right fun hwindow => hwindow window (expect_ok.mp hread)⟩
  refine bind_eq_ok.mpr ⟨window, hread, bind_eq_ok.mpr ⟨u, hopen', ?_⟩⟩
  -- and the host
  refine bind_mono (fun _ h => bind_mono (fun _ h => bind_mono (fun _ h => ?_) h) h) h
  obtain ⟨identity, hidentity, h⟩ := bind_eq_ok.mp h
  obtain ⟨v, _, h⟩ := bind_eq_ok.mp h
  have hsame : m.host = identity := Option.some.inj (hseen.host.symm.trans (expect_ok.mp hidentity))
  exact bind_eq_ok.mpr ⟨identity, hidentity, bind_eq_ok.mpr ⟨v, demand_ok.mpr (hsame ▸ hhost), h⟩⟩

theorem validateCandidate_later {now' : Int} (hnow : now ≤ now') (h : validateCandidate floatIs now manifest = .ok m) :
    validateCandidate floatIs now' manifest = .ok m := by
  refine bind_mono (fun _ h => bind_mono (fun _ h => bind_mono (fun _ h => ?_) h) h) h
  obtain ⟨checked, hchecked, hrest⟩ := bind_eq_ok.mp h
  exact bind_eq_ok.mpr ⟨checked, validate_again hnow rfl (Or.inl rfl) hchecked, hrest⟩

end Accepted

end Hermes.Release

import Hermes.CandidateReceived

/- How an archive becomes a release (`release.unpack`): its members are listed, the manifest's
   signature is verified, the manifest is validated, and every file that it lists is written to
   a directory of its own that is put in place at the end.

   Whatever the archive holds, the directory that is put in place is the signed manifest's and
   nothing is there where anything is wrong (`unpack_sound`); and an archive that was accepted
   once is accepted again, with the same directory, as long as its window is open or its digest
   is bound (`unpack_again`). -/
namespace Hermes.Release
open Entries Outcome Transaction
open Candidate (Content Tools pathOf sameSet)

/-- The mode is missing where the process makes the file as it makes any other. -/
inductive Node where
  | dir
  | file (content : Content) (mode : Option Nat)
  deriving DecidableEq, Repr

def Node.isDir : Node → Bool
  | .dir => true
  | .file _ _ => false

def Node.stored (x : Content × Option Nat) : Node := .file x.1 x.2

abbrev Tree := Entries.Tree Node.isDir fun _ => true

def emptyTree : Tree where
  node p := if p = [] then some .dir else none
  paths := [[]]
  listed p hp := by
    split at hp
    · next hnil => simp [hnil]
    · exact absurd rfl hp
  closed p c hp := by simp at hp
  fitting _ _ := rfl

/-- A member as `tarfile` gives it, with as much of its data as the archive holds. -/
structure Member extends Candidate.Member where
  mode : Nat
  deriving DecidableEq, Repr

/-- What is read of an archive: its length, whether `tarfile` opens it, its members, and whether
    an error comes behind them. -/
structure Archive where
  length : Nat
  opens : Bool := true
  members : List Member
  broken : Bool := false
  deriving DecidableEq, Repr

def Archive.opened (archive : Archive) : Except Exc Unit :=
  if archive.opens then .ok () else .error (.failure 64 "invalid-release-archive")

def Archive.ending (archive : Archive) : Except Exc Unit := if archive.broken then .error .tarError else .ok ()

def maxMetadata : Nat := 1024 * 1024

/-! ## `members` -/

def addMember (result : List Member) (m : Member) : Except Exc (List Member) := do
  demand (m.isFile && !m.isSparse && !m.paxHeaders) "unsafe-archive-member"
  demand (!(result.any fun r => r.name == m.name) && result.length < 20002) "duplicate-or-excess-archive-member"
  demand (m.size ≤ maxArchive) "archive-member-too-large"
  demand ([0o600, 0o644, 0o755].contains m.mode) "unsafe-archive-mode"
  pure (result ++ [m])

def members (archive : Archive) : Except Exc (List Member) := do
  let result ← archive.members.foldlM addMember []
  archive.ending
  pure result

/-- `listing[name]` -/
def member (listing : List Member) (name : String) : Except Exc Member :=
  match listing.find? fun m => m.name == name with
  | some m => .ok m
  | none => .error .keyError

/-! ## `candidate_fingerprint` -/

/-- The fields that tests are bound to. -/
def boundFields : List String :=
  ["release_id", "image", "provider", "model", "host", "baseline_sha256", "transaction", "boot_artifact"]

def fingerprintInput (document : Json) : Json :=
  let files := ((document.get "files").bind Json.fields?).getD []
  .obj (boundFields.filterMap (fun key => (document.get key).map fun value => (key, value)) ++
    [("files", .obj (files.filter fun f => !startsWith f.1 "evidence/"))])

section Unpack

-- `canonical` stands for `common.canonical`
variable (tools : Tools) (canonical : Json → Content)

def candidateFingerprint (document : Json) : String := tools.sha256 (canonical (fingerprintInput document))

/-- What the caller passes and the outside decides. -/
structure Circumstances where
  now : Int
  host : Option HostBinding
  boundDigest : Option String
  /-- why the list of signers is not trusted -/
  guard : Option String
  /-- `ssh-keygen -Y verify` of the manifest and its signature -/
  verify : Content → Content → Except Exc Unit
  room : Path → Bool
  renames : Bool

/-! ## `unpack` -/

/-- A new file in the directory, where the disk takes it. -/
def place (room : Path → Bool) (t : Tree) (p : Path) (content : Content) (mode : Option Nat) : Except Exc Tree :=
  match if room p then t.add p .dir (.file content mode) rfl else none with
  | some t' => .ok t'
  | none => .error .osError

/-- `manifest["files"][name]["mode"]` -/
def modeOf (document : Json) (name : String) : Option Json :=
  (((document.get "files").bind Json.fields?).bind (Json.lookup name)).bind (Json.get "mode")

/-- `member.mode == record["mode"]` -/
def sameMode (mode : Option Json) (n : Nat) : Bool :=
  match mode with
  | some (.int k) => k == n
  | some (.float literal) => tools.floatIs literal n
  | _ => false

/-- `target.chmod(record["mode"])` takes no float. -/
def chmod (mode : Option Json) : Except Exc Unit :=
  match mode with
  | some (.int _) => .ok ()
  | _ => .error .typeError

/-- One round of the loop over the manifest's files. -/
def unpackFile (room : Path → Bool) (listing : List Member) (document : Json) (t : Tree) (f : String × FileRecord) :
    Except Exc Tree := do
  let m ← member listing f.1
  demand (m.size == f.2.size && sameMode tools (modeOf document f.1) m.mode) "artifact-metadata-mismatch"
  -- the file is made before its data are read, and has its mode at the end
  let t' ← place room t (pathOf f.1) (m.data.take m.size) (some m.mode)
  let content ← Candidate.readAll m.toMember
  demand (tools.sha256 content == f.2.sha256) "artifact-hash-mismatch"
  chmod (modeOf document f.1)
  pure t'

/-- `manifest["files"][name]` -/
def recordOf (manifest : Manifest) (name : String) : Except Exc FileRecord :=
  match manifest.files.find? fun f => f.1 == name with
  | some f => .ok f.2
  | none => .error .keyError

/-- What a piece of evidence has to say. -/
def isPassed (document evidence : Json) (gate : String) : Bool :=
  evidence.getStr "gate" == some gate && evidence.getStr "result" == some "PASS" &&
    (document.getStr "release_id").isSome && evidence.getStr "release_id" == document.getStr "release_id" &&
    evidence.getStr "artifact_fingerprint" == some (candidateFingerprint tools canonical document)

def isOfPolicy (evidence : Json) (policy : FileRecord) : Bool :=
  evidence.getStr "policy" == some "advisory-denylist-v1" && evidence.getStr "policy_sha256" == some policy.sha256

/-- `(payload / name).read_bytes()` -/
def readFrom (t : Tree) (p : Path) : Except Exc Content :=
  match t.node p with
  | some (.file content _) => .ok content
  | _ => .error .osError

def evidenceName? : Json → Except Exc String
  | .str name => .ok name
  | _ => .error .typeError

/-- One round of the loop over the evidence; `reason` says what is wrong with it. -/
def checkEvidence (reason : String) (document : Json) (manifest : Manifest) (t : Tree) (e : String × Json) : Except Exc Unit := do
  let name ← evidenceName? e.2
  let record ← recordOf manifest name
  demand (record.size ≤ maxMetadata) "evidence-too-large"
  let content ← readFrom t (pathOf name)
  let evidence ← tools.decode content
  demand (isPassed tools canonical document evidence e.1) reason
  let policy ← recordOf manifest "payload/vulnerability-policy.json"
  demand (e.1 != "vulnerability_scan" || isOfPolicy evidence policy) "vulnerability-policy-evidence-mismatch"

structure Unpacked where
  tree : Tree
  document : Json
  manifest : Manifest
  fingerprint : String

/-- All that is done before the directory is put in place. -/
def verified (c : Circumstances) (archive : Archive) : Except Exc Unpacked := do
  demand (archive.length ≤ maxArchive) "archive-too-large"
  archive.opened
  let listing ← members archive
  demand (["manifest.json", "manifest.sig"].all fun name => listing.any fun m => m.name == name) "missing-signature"
  let metadata ← member listing "manifest.json"
  let sealed ← member listing "manifest.sig"
  demand (metadata.size ≤ maxMetadata && sealed.size ≤ maxMetadata) "metadata-too-large"
  let raw ← Candidate.readAll metadata.toMember
  let signature ← Candidate.readAll sealed.toMember
  c.verify raw signature
  let document ← tools.decode raw
  let manifest ← validate tools.floatIs c.now c.host (c.boundDigest == some (tools.sha256 raw)) document
  demand (sameSet (listing.map fun m => m.name) (manifest.files.map Prod.fst ++ ["manifest.json", "manifest.sig"]))
    "unexpected-or-missing-artifact"
  let files ← manifest.files.foldlM (unpackFile tools c.room listing document) emptyTree
  let evidence ← expect ((document.get "evidence").bind Json.fields?) "incomplete-certification"
  evidence.forM (checkEvidence tools canonical "failed-certification-evidence" document manifest files)
  let signed ← place c.room files ["manifest.json"] raw none
  let tree ← place c.room signed ["manifest.sig"] signature none
  pure { tree, document, manifest, fingerprint := tools.sha256 raw }

/-- `unpack`, with what is at the destination afterwards. -/
def unpack (c : Circumstances) (destination : Option Tree) (archive : Archive) : Except Exc Unpacked × Option Tree :=
  match destination with
  | some t => (.error (.failure 78 "release-destination-exists"), some t)
  | none =>
    match c.guard with
    | some reason => (.error (.failure 78 reason), none)
    | none =>
      match verified tools canonical c archive with
      | .error e => (.error e, none)
      | .ok u => if c.renames then (.ok u, some u.tree) else (.error .osError, none)

end Unpack

end Hermes.Release

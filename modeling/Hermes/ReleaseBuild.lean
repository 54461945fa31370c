import Hermes.ReleaseUnpacked
import Hermes.CandidateSent

/- How a certified candidate becomes an archive (`finalize.py`, `build_release.py`): `finalize`
   takes the frozen files and the evidence into a new directory, opens the promotion window and
   has `build` check the directory, sign its manifest and package it. What `build` links to the
   output is what `unpack` has just accepted.

   The candidate's directory may change while `finalize` runs, so the bytes that it checks and
   those that it copies are two readings. The new directory belongs to the process alone. -/
namespace Hermes.Release
open Entries Outcome Transaction
open Candidate (Content Tools pathOf sameSet)

/-- What is under some keys. -/
def valueAt : List String → Json → Option Json
  | [], value => some value
  | key :: keys, value => (value.get key).bind (valueAt keys)

/-- Two documents with the same keys, and the same strings and integers under them. -/
structure Agree (value value' : Json) : Prop where
  strings : ∀ keys s, valueAt keys value' = some (.str s) ↔ valueAt keys value = some (.str s)
  integers : ∀ keys n, valueAt keys value' = some (.int n) ↔ valueAt keys value = some (.int n)
  present : ∀ keys, (valueAt keys value').isSome = (valueAt keys value).isSome

/-- JSON as the release tools use it: `decode`, and `canonical`, which writes the keys in order. -/
structure Codec where
  tools : Tools
  canonical : Json → Content
  agree : ∀ value value', tools.decode (canonical value) = .ok value' → Agree value value'

/-- What the outside decides while an archive is built. -/
structure Bench where
  /-- the time when the candidate is checked -/
  now : Int
  /-- when the window is opened -/
  issued : Int
  /-- and when `build` and `unpack` look at it -/
  signed : Int
  later : Int
  guard : Path → Option String
  /-- `ssh-keygen -Y sign` -/
  sign : Content → Except Exc Content
  verify : Content → Content → Except Exc Unit
  signersGuard : Option String
  room : Path → Bool
  renames : Bool
  /-- the mode of a file that is made without one -/
  newMode : Nat

def Bench.circumstances (b : Bench) (host : HostBinding) : Circumstances where
  now := b.later
  host := some host
  boundDigest := none
  guard := b.signersGuard
  verify := b.verify
  room := b.room
  renames := b.renames

section

variable (x : Codec) (b : Bench)

/-! ## `build` -/

/-- `protected_file`, and its bytes -/
def readTrusted (guard : Path → Option String) (t : Tree) (p : Path) : Except Exc Content :=
  match t.node p with
  | some (.file content _) =>
    match guard p with
    | none => .ok content
    | some reason => .error (.failure 78 reason)
  | some .dir => .error (.failure 78 "unsafe-file-type")
  | none => .error .osError

/-- What `rglob` finds that is no directory. -/
def nonDirectories (t : Tree) : List Path := t.below.filter fun p => t.node p != some .dir

/-- `archive.add` of a file -/
def archiveFile (t : Tree) (name : String) : Except Exc Member := do
  let name ← safeName name
  match t.node (pathOf name) with
  | some (.file content mode) => do
    let m ← Candidate.addFile name content.length content
    pure { toMember := m, mode := mode.getD b.newMode }
  | _ => .error .osError

/-- The bytes of a tar file: headers and contents in blocks, the end, and the last record. -/
def tarLength (members : List Member) : Nat :=
  let blocks := (members.map fun m => 1 + (m.size + 511) / 512).sum + 2
  (blocks + 19) / 20 * 10240

def sortedNames (manifest : Manifest) : List String := StableSort.sortBy (fun name => name) (manifest.files.map Prod.fst)

/-- `build`: the archive that is linked to the output. -/
def build (source : Tree) : Except Exc Archive := do
  let raw ← readTrusted b.guard source ["manifest.json"]
  let document ← x.tools.decode raw
  let manifest ← validate x.tools.floatIs b.signed none false document
  (nonDirectories source).forM fun p => do
    let _ ← readTrusted b.guard source p
  demand (sameSet (nonDirectories source) (manifest.files.map (fun f => pathOf f.1) ++ [["manifest.json"]]))
    "source-file-map-mismatch"
  manifest.files.forM fun f => do
    let content ← readFrom source (pathOf f.1)
    demand (content.length == f.2.size && x.tools.sha256 content == f.2.sha256) "candidate-changed-before-signing"
  let evidence ← expect ((document.get "evidence").bind Json.fields?) "incomplete-certification"
  evidence.forM (checkEvidence x.tools x.canonical "certification-gate-incomplete" document manifest source)
  -- the manifest is written anew, and what follows is checked against it
  let record := x.canonical document
  let signature ← b.sign record
  let first ← Candidate.addFile "manifest.json" record.length record
  let second ← Candidate.addFile "manifest.sig" signature.length signature
  let files ← (sortedNames manifest).mapM (archiveFile b source)
  let members := { toMember := first, mode := b.newMode } :: { toMember := second, mode := b.newMode } :: files
  let archive : Archive := { length := tarLength members, members }
  let _ ← (unpack x.tools x.canonical (b.circumstances manifest.host) none archive).1
  pure archive

/-! ## `finalize` -/

/-- The frozen candidate and the evidence, as they are read. -/
structure Handoff where
  candidate : Content
  /-- a file when it is checked -/
  seen : String → Option Content
  /-- and when it is copied -/
  copied : String → Option Content
  evidence : String → Option Content

def readPart (part : Option Content) : Except Exc Content :=
  match part with
  | some content => .ok content
  | none => .error .osError

/-- The mode in a record of the file map. -/
def modeBits (mode : Option Json) : Except Exc Nat :=
  match mode with
  | some (.int n) => .ok n.toNat
  | _ => .error .typeError

/-- One round of the loop that copies. -/
def copyFile (h : Handoff) (document : Json) (t : Tree) (f : String × FileRecord) : Except Exc Tree := do
  let content ← readPart (h.copied f.1)
  let mode ← modeBits (modeOf document f.1)
  place b.room t (pathOf f.1) content (some mode)

/-- The record of a piece of evidence. -/
def evidenceRecord (content : Content) : Json :=
  .obj [("sha256", .str (x.tools.sha256 content)), ("size", .int content.length), ("mode", .int 0o600)]

/-- One round of the loop over the evidence: its file, and its record. -/
def takeEvidence (h : Handoff) (document : Json) (r : Tree × List (String × Json)) (e : String × Json) :
    Except Exc (Tree × List (String × Json)) := do
  let raw ← readPart (h.evidence e.1)
  let value ← x.tools.decode raw
  demand (isPassed x.tools x.canonical document value e.1) "certification-gate-incomplete"
  let name ← evidenceName? e.2
  let t ← place b.room r.1 (pathOf name) (x.canonical value) (some 0o600)
  pure (t, r.2 ++ [(name, evidenceRecord x (x.canonical value))])

/-- `manifest` with another window. -/
def withWindow (document : Json) (issued : Int) : Json :=
  match document with
  | .obj fields => .obj (fields.map fun f =>
      if f.1 = "issued_at" then (f.1, .int issued) else if f.1 = "expires_at" then (f.1, .int (issued + 86400)) else f)
  | other => other

/-- The manifest of the release. -/
def completed (document : Json) (records : List (String × Json)) (issued : Int) : Json :=
  let files := ((document.get "files").bind Json.fields?).getD []
  withWindow (withFiles document (files ++ records)) issued

/-- `finalize` -/
def finalize (h : Handoff) : Except Exc Archive := do
  let document ← x.tools.decode h.candidate
  let manifest ← validateCandidate x.tools.floatIs b.now document
  manifest.files.forM fun f => do
    let content ← readPart (h.seen f.1)
    demand (x.tools.sha256 content == f.2.sha256) "candidate-changed-after-freeze"
  let copies ← manifest.files.foldlM (copyFile b h document) emptyTree
  let evidence ← expect ((document.get "evidence").bind Json.fields?) "invalid-candidate-evidence"
  let taken ← evidence.foldlM (takeEvidence x b h document) (copies, [])
  let tree ← place b.room taken.1 ["manifest.json"] (x.canonical (completed document taken.2 b.issued)) none
  build x b tree

end

end Hermes.Release

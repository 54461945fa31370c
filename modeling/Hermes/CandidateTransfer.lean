import Mathlib.Data.Prod.Lex
import Hermes.Library.Entries
import Hermes.Library.StableSort
import Hermes.ReleaseManifest

/- How the certification guest gets its candidate (`certify.py`, `certify_guest.py`): the host
   checks a frozen directory and writes it as a tar stream, the guest reads the stream into a
   new directory, and `stage` puts that in place, or checks what is there already.

   A stream is what `tarfile` reads from it, member by member: every stream of bytes is read as
   some members, behind which there is an end or an error. Whether the disk takes a file, who
   owns what is there, and what comes before a stage is received (`enrollment`, the frame, the
   lock, `capture`) is decided outside; none of it touches the candidate. -/
namespace Hermes.Candidate
open Entries Outcome Release StableSort
open Transaction (demand)

abbrev Content := List UInt8

/-- A link to a directory counts as one where links are followed. -/
inductive Node where
  | dir
  | file (content : Content)
  | dirLink
  | other
  deriving DecidableEq, Repr

def Node.isDir : Node → Bool
  | .dir => true
  | _ => false

abbrev Tree := Entries.Tree Node.isDir fun _ => true

def emptyTree : Tree where
  node p := if p = [] then some .dir else none
  paths := [[]]
  listed p hp := by
    split at hp
    · next hnil => simp [hnil]
    · exact absurd rfl hp
  closed p c hp := by simp at hp
  fitting _ _ := rfl

/-- `common.decode` of some bytes, whose objects have no key twice, SHA-256, and how a float
    compares with an integer. -/
structure Tools where
  decode : Content → Except Exc Json
  distinct : ∀ raw value key fields, decode raw = .ok value → value.get key = some (.obj fields) →
    (fields.map Prod.fst).Nodup
  sha256 : Content → String
  floatIs : String → Int → Bool

/-- What the guest is enrolled for. -/
structure Policy where
  candidateSha256 : String
  host : HostBinding
  deriving DecidableEq, Repr

/-- The path of a member. -/
def pathOf (name : String) : Path := (PurePath.parse name).names

/-- `validate_candidate(decode(raw))` -/
def parse (tools : Tools) (now : Int) (raw : Content) : Except Exc Manifest := do
  let manifest ← tools.decode raw
  validateCandidate tools.floatIs now manifest

/-- `protected_file` and `owned_path`; `guard` says why a regular file is not trusted. -/
def regularFile (unsafeType : String) (guard : Path → Option String) (t : Tree) (p : Path) : Except Exc Content :=
  match t.node p with
  | some (.file content) =>
    match guard p with
    | none => .ok content
    | some reason => .error (.failure 78 reason)
  | some _ => .error (.failure 78 unsafeType)
  | none => .error .osError

/-- What `rglob` finds that is no directory. -/
def nonDirectories (t : Tree) : List Path :=
  t.below.filter fun p => t.node p != some .dir && t.node p != some .dirLink

/-- `==` of two sets. -/
def sameSet {α : Type} [BEq α] (xs ys : List α) : Bool := xs.all ys.contains && ys.all xs.contains

/-! ## The host -/

/-- `certify.candidate` -/
def candidate (tools : Tools) (now : Int) (guard owned : Path → Option String) (t : Tree) :
    Except Exc (Manifest × Content) := do
  let raw ← regularFile "unsafe-file-type" guard t ["candidate.json"]
  let manifest ← parse tools now raw
  demand (sameSet (nonDirectories t) (manifest.files.map (fun f => pathOf f.1) ++ [["candidate.json"]]))
    "unexpected-frozen-candidate-files"
  manifest.files.forM fun f => do
    let content ← regularFile "untrusted-signing-input" owned t (pathOf f.1)
    demand (content.length == f.2.size && tools.sha256 content == f.2.sha256) "frozen-candidate-changed"
  pure (manifest, raw)

/-- A member as `tarfile` gives it, with as much of its data as the stream holds. -/
structure Member where
  name : String
  isFile : Bool := true
  isSparse : Bool := false
  paxHeaders : Bool := false
  size : Nat
  data : Content
  deriving DecidableEq, Repr

/-- The members, and whether an error comes behind them. -/
structure Stream where
  members : List Member
  broken : Bool := false
  deriving DecidableEq, Repr

/-- What `tarfile` does when it has read the members. -/
def Stream.ending (stream : Stream) : Except Exc Unit := if stream.broken then .error .tarError else .ok ()

/-- The name of a header of the format USTAR, alone or cut at a slash. -/
def ustarName (name : String) : Bool :=
  let parts := name.toList.splitOn '/'
  let joined := fun (xs : List (List Char)) => (['/'].intercalate xs).length
  name.length ≤ 100 ||
    (List.range parts.length).any fun i => 0 < i && joined (parts.take i) ≤ 155 && joined (parts.drop i) ≤ 100

/-- `archive.addfile` of a regular file -/
def addFile (name : String) (size : Nat) (content : Content) : Except Exc Member :=
  if !ustarName name || 8 ^ 11 ≤ size then .error .valueError
  else if content.length < size then .error .osError
  else .ok { name, size, data := content.take size }

/-- The names in the order in which they are sent, the payload first. -/
def sendOrder (manifest : Manifest) : List (String × Release.FileRecord) :=
  sortBy (fun f => toLex (!startsWith f.1 "payload/", f.1)) manifest.files

/-- `archive_candidate`, where nothing is to be corrupted -/
def archiveCandidate (t : Tree) (raw : Content) (manifest : Manifest) : Except Exc Stream := do
  let first ← addFile "candidate.json" raw.length raw
  let members ← (sendOrder manifest).mapM fun f =>
    match t.node (pathOf f.1) with
    | some (.file content) => addFile f.1 f.2.size content
    | _ => .error .osError
  pure { members := first :: members }

/-! ## The guest -/

section Guest

variable (tools : Tools) (policy : Policy)

/-- `validate_raw` -/
def validateRaw (now : Int) (raw : Content) : Except Exc Manifest := do
  demand (raw.length ≤ 1024 * 1024 && tools.sha256 raw == policy.candidateSha256) "unenrolled-candidate"
  let manifest ← parse tools now raw
  demand (manifest.host == policy.host) "wrong-lab-candidate-host"
  pure manifest

/-- `verify_tree` -/
def verifyTree (now : Int) (guard : Path → Option String) (t : Tree) : Except Exc Manifest := do
  let raw ← regularFile "unsafe-file-type" guard t ["manifest.json"]
  let manifest ← validateRaw tools policy now raw
  demand (sameSet (nonDirectories t) (manifest.files.map (fun f => pathOf f.1) ++ [["manifest.json"]]))
    "unexpected-candidate-files"
  manifest.files.forM fun f => do
    let content ← regularFile "unsafe-file-type" guard t (pathOf f.1)
    demand (content.length == f.2.size && tools.sha256 content == f.2.sha256) "candidate-bytes-changed"
  pure manifest

/-- A new file in the directory that is received, where the disk takes it. -/
def place (room : Path → Bool) (t : Tree) (p : Path) (content : Content) : Except Exc Tree :=
  match if room p then t.add p .dir (.file content) rfl else none with
  | some t' => .ok t'
  | none => .error .osError

/-- The data of a member, if it is all there. -/
def readAll (m : Member) : Except Exc Content :=
  if m.data.length < m.size then .error .tarError else .ok (m.data.take m.size)

/-- What the loop has so far: the directory, and `seen`. -/
structure Received where
  tree : Tree
  seen : List String

/-- One round of the loop. -/
def receiveMember (room : Path → Bool) (manifest : Manifest) (r : Received) (m : Member) : Except Exc Received := do
  demand (manifest.files.any (fun f => f.1 == m.name) && !r.seen.contains m.name && m.isFile && !m.isSparse &&
    !m.paxHeaders) "unsafe-candidate-member"
  let record ← expect ((manifest.files.find? fun f => f.1 == m.name).map Prod.snd) "unsafe-candidate-member"
  demand (m.size == record.size) "candidate-member-size-mismatch"
  -- the file is made before its data are read
  let tree ← place room r.tree (pathOf m.name) (m.data.take m.size)
  let content ← readAll m
  demand (tools.sha256 content == record.sha256) "candidate-member-hash-mismatch"
  pure { tree, seen := m.name :: r.seen }

/-- `receive` -/
def receive (now : Int) (room : Path → Bool) (stream : Stream) : Except Exc (Tree × Manifest) :=
  match stream.members with
  | [] => .error (if stream.broken then .tarError else .failure 78 "invalid-candidate-header")
  | first :: members => do
    demand (first.name == "candidate.json" && first.isFile && !first.isSparse && !first.paxHeaders &&
      first.size ≤ 1024 * 1024) "invalid-candidate-header"
    let raw ← readAll first
    let manifest ← validateRaw tools policy now raw
    let tree ← place room emptyTree ["manifest.json"] raw
    let r ← members.foldlM (receiveMember tools room manifest) { tree, seen := [] }
    stream.ending
    demand (sameSet r.seen (manifest.files.map Prod.fst)) "incomplete-candidate"
    pure (r.tree, manifest)

/-- What is at `CANDIDATE`; `other` is a file or a link. -/
inductive Place where
  | absent
  | dir (t : Tree)
  | other

/-- What the outside decides in a stage. -/
structure Circumstances where
  now : Int
  later : Int
  room : Path → Bool
  guard : Path → Option String
  /-- what comes before the stream is read -/
  ready : Except Exc Unit
  /-- the directory can be renamed -/
  renames : Bool

/-- `dispatch` with the action `stage` -/
def stage (c : Circumstances) (candidate : Place) (stream : Stream) : Except Exc Manifest × Place :=
  match c.ready >>= fun _ => receive tools policy c.now c.room stream with
  | .error e => (.error e, candidate)
  | .ok (incoming, manifest) =>
    match candidate with
    | .absent => if c.renames then (.ok manifest, .dir incoming) else (.error .osError, .absent)
    | .dir t => ((verifyTree tools policy c.later c.guard t).map fun _ => manifest, .dir t)
    | .other => (.error .osError, .other)

end Guest

end Hermes.Candidate

import Mathlib.Data.List.Lex
import Mathlib.Data.List.Sort
import Mathlib.Data.String.Basic
import Mathlib.Algebra.Order.Ring.Int
import Hermes.Library.Entries
import Hermes.PurePath

/- Backup and restore of the application's data (`simple/data.py`), as root of the user
   namespace: `snapshot` writes everything but the credentials into an archive, `restore`
   checks the members of one, removes everything but the credentials and writes the members.

   An archive is known by its length and by what `tarfile` reads from it. What is written is
   read again, and how long it is follows `tarfile`'s pax format. The directories above
   `/home/hermes/data` are no links; permissions stop nobody. -/
namespace Hermes.SimpleData
open Entries

inductive Error where
  | value (reason : String)
  | os
  | tar
  deriving DecidableEq, Repr

/-! ## Data -/

/-- The inode and `str(st_mtime)` of an entry that is there when the program starts; what
    `restore` makes is another entry. -/
structure Origin where
  inode : Nat
  mtime : String
  deriving DecidableEq, Repr

structure Stat where
  mode : Nat
  uid : Nat
  gid : Nat
  origin : Option Origin
  deriving DecidableEq, Repr

inductive Node where
  | file (stat : Stat) (content : List UInt8)
  | dir (stat : Stat)
  | link (stat : Stat)
  | special (stat : Stat)
  deriving DecidableEq, Repr

def Node.isDir : Node → Bool
  | .dir _ => true
  | _ => false

/-- A name that the file system can hold. -/
def isEntryName (c : String) : Bool :=
  c != "" && c != "." && c != ".." && c.toList.all (fun d => d != '/' && d.toNat != 0) && decide (c.utf8ByteSize ≤ 255)

/-- A path below `/home/hermes/data` that the system accepts. -/
def fits (p : Path) : Bool :=
  p.all isEntryName && decide (17 + (p.map fun c => 1 + c.utf8ByteSize).sum ≤ 4095)

/-- What is in `/home/hermes/data`. -/
abbrev Data := Tree Node.isDir fits

/-- An empty data directory. -/
def emptyData (stat : Stat) : Data where
  node p := if p = [] then some (.dir stat) else none
  paths := [[]]
  listed p hp := by
    split at hp
    · next hnil => simp [hnil]
    · exact absurd rfl hp
  closed p c hp := by simp at hp
  fitting p hp := by
    split at hp
    · next hnil =>
      rw [hnil]
      decide
    · exact absurd rfl hp

/-- The entries that can be put one after another. -/
def build (stat : Stat) (entries : List (Path × Node)) : Data :=
  entries.foldl (fun t e => (t.put e.1 e.2).getD t) (emptyData stat)

/-- Provider/channel credentials. -/
def isPrivatePart (c : String) : Bool := startsWith c ".env" || startsWith c "auth.json" || startsWith c "credentials"

def isPrivate (parts : List String) : Bool := parts.any isPrivatePart

/-- `LIMIT` -/
def limit : Nat := 512 * 1024 * 1024

/-! ## Archives -/

inductive MemberType where
  | regular
  | directory
  | other
  deriving DecidableEq, Repr

structure Member where
  name : String
  type : MemberType
  mode : Nat
  size : Nat
  content : List UInt8
  /-- reading the content does not end with an error -/
  complete : Bool
  deriving DecidableEq, Repr

structure Archive where
  length : Nat
  members : Except Error (List Member)
  deriving DecidableEq

/-- `root / entry.name` -/
def Member.path (m : Member) : Path := (PurePath.parse m.name).names

/-- `members`, with the sizes and names of the members before -/
def membersFrom : Nat → List String → List Member → Except Error Unit
  | _, _, [] => .ok ()
  | total, seen, m :: rest =>
    let path := PurePath.parse m.name
    if path.isAbsolute || path.parts.contains ".." || isPrivate path.parts then .error (.value "unsafe-archive-path")
    else if !(m.type == .directory || m.type == .regular) || seen.contains m.name then
      .error (.value "unsafe-archive-type")
    else if total + m.size > limit then .error (.value "archive-too-large")
    else membersFrom (total + m.size) (m.name :: seen) rest

def members (entries : List Member) : Except Error Unit := membersFrom 0 [] entries

/-! ## Snapshots -/

inductive RecordType where
  | regular
  | directory
  /-- `LNKTYPE` -/
  | hardlink
  deriving DecidableEq, Repr

/-- What `archive.add` writes. -/
structure Record where
  name : String
  type : RecordType
  mode : Nat
  uid : Nat
  gid : Nat
  uname : String
  gname : String
  size : Nat
  mtime : String
  linkname : String
  content : List UInt8
  deriving DecidableEq, Repr

/-- The names of users and groups. -/
structure Accounts where
  user : Nat → String
  group : Nat → String

/-- `path.relative_to(root).as_posix()` -/
def nameOf (p : Path) : String := PurePath.joined p

def recordOf (accounts : Accounts) (p : Path) (stat : Stat) (type : RecordType) (linkname : String)
    (content : List UInt8) : Record where
  name := nameOf p
  type
  mode := stat.mode
  uid := stat.uid
  gid := stat.gid
  uname := accounts.user stat.uid
  gname := accounts.group stat.gid
  size := content.length
  mtime := (stat.origin.map Origin.mtime).getD ""
  linkname
  content

/-- The name under which a file has been added already. -/
def firstName (inodes : List (Nat × String)) (stat : Stat) : Option String :=
  stat.origin.bind fun o => inodes.lookup o.inode

def addInode (inodes : List (Nat × String)) (stat : Stat) (p : Path) : List (Nat × String) :=
  match stat.origin with
  | some o => (o.inode, nameOf p) :: inodes
  | none => inodes

/-- The loop of `snapshot`, with the sizes and the inodes of the files before. -/
def snapshotFrom (accounts : Accounts) (t : Data) : Nat → List (Nat × String) → List Path → Except Error (List Record)
  | _, _, [] => .ok []
  | total, inodes, p :: rest =>
    if isPrivate p then snapshotFrom accounts t total inodes rest
    else match t.node p with
      | some (.dir stat) =>
        if total > limit then .error (.value "backup-too-large")
        else (snapshotFrom accounts t total inodes rest).map (recordOf accounts p stat .directory "" [] :: ·)
      | some (.file stat content) =>
        if total + content.length > limit then .error (.value "backup-too-large")
        else match firstName inodes stat with
          | some first =>
            (snapshotFrom accounts t (total + content.length) inodes rest).map
              (recordOf accounts p stat .hardlink first [] :: ·)
          | none =>
            (snapshotFrom accounts t (total + content.length) (addInode inodes stat p) rest).map
              (recordOf accounts p stat .regular "" content :: ·)
      | some (.link _) | some (.special _) | none => .error (.value "unsupported-application-file")

/-- `sorted(root.rglob("*"))` -/
def sorted (t : Data) : List Path := t.below.insertionSort (· ≤ ·)

/-! ## The length of an archive -/

/-- Padded to blocks of 512 bytes. -/
def blocks (n : Nat) : Nat := (n + 511) / 512 * 512

/-- The length of a line that begins with its own length, `rest` being that of what follows. -/
def lineLength (rest : Nat) : Nat → Nat → Nat
  | 0, length => length
  | fuel + 1, length =>
    let next := rest + (toString length).length
    if next = length then length else lineLength rest fuel next

/-- `"%d %s=%s\n"` -/
def paxLength (keyword value : String) : Nat :=
  let rest := keyword.utf8ByteSize + value.utf8ByteSize + 3
  lineLength rest (rest + 4) 0

/-- A text that its field of the header cannot hold. -/
def needsPax (value : String) (length : Nat) : Bool :=
  value.toList.any (fun c => decide (128 ≤ c.toNat)) || decide (length < value.length)

/-- The name in the header, directories with a slash. -/
def Record.headerName (r : Record) : String := if r.type = .directory then r.name ++ "/" else r.name

/-- The extended header; times are no integers, so there is always one. -/
def Record.paxHeaders (r : Record) : List (String × String) :=
  (if needsPax r.headerName 100 then [("path", r.headerName)] else []) ++
  (if needsPax r.linkname 100 then [("linkpath", r.linkname)] else []) ++
  (if needsPax r.uname 32 then [("uname", r.uname)] else []) ++
  (if needsPax r.gname 32 then [("gname", r.gname)] else []) ++
  (if r.uid < 8 ^ 7 then [] else [("uid", toString r.uid)]) ++
  (if r.gid < 8 ^ 7 then [] else [("gid", toString r.gid)]) ++
  (if r.size < 8 ^ 11 then [] else [("size", toString r.size)]) ++
  [("mtime", r.mtime)]

def Record.length (r : Record) : Nat :=
  512 + blocks ((r.paxHeaders.map fun h => paxLength h.1 h.2).sum) + 512 + blocks r.content.length

/-- With two empty blocks at the end, padded to records of 20 blocks. -/
def archiveLength (records : List Record) : Nat := ((records.map Record.length).sum + 1024 + 10239) / 10240 * 10240

/-- What is read of it. -/
def Record.member (r : Record) : Member where
  name := r.name
  type := match r.type with
    | .regular => .regular
    | .directory => .directory
    | .hardlink => .other
  mode := r.mode &&& 0o7777
  size := r.size
  content := r.content
  complete := true

def archiveOf (records : List Record) : Archive where
  length := archiveLength records
  members := .ok (records.map Record.member)

def snapshot (accounts : Accounts) (t : Data) : Except Error Archive :=
  (snapshotFrom accounts t 0 [] (sorted t)).map archiveOf

/-! ## Restoring -/

/-- An error, with what it leaves. -/
abbrev Outcome := Except (Error × Data) Data

/-- A system call that is refused leaves the tree as it is. -/
def attempt (t : Data) : Option Data → Outcome
  | some s => .ok s
  | none => .error (.os, t)

/-- A new entry. -/
def created (umask full : Nat) : Stat where
  mode := full &&& (0o777 ^^^ (umask &&& 0o777))
  uid := 0
  gid := 0
  origin := none

/-- `p.is_symlink() for p in (destination, *destination.parents)` -/
def anyLink (t : Data) (p : Path) : Bool := p.inits.any fun q =>
  match t.node q with
  | some (.link _) => true
  | _ => false

/-- `os.chmod(destination, entry.mode & 0o700)` and `os.chown(destination, 10000, 10000)` -/
def Stat.own (mode : Nat) (stat : Stat) : Stat := { stat with mode := mode &&& 0o700, uid := 10000, gid := 10000 }

def Node.own (mode : Nat) : Node → Node
  | .file stat content => .file (stat.own mode) content
  | .dir stat => .dir (stat.own mode)
  | .link stat => .link (stat.own mode)
  | .special stat => .special (stat.own mode)

def Node.rewrite (content : List UInt8) : Node → Node
  | .file stat _ => .file stat content
  | n => n

theorem Node.isDir_own (mode : Nat) (n : Node) : (n.own mode).isDir = n.isDir := by cases n <;> rfl

theorem Node.isDir_rewrite (content : List UInt8) (n : Node) : (n.rewrite content).isDir = n.isDir := by cases n <;> rfl

theorem Node.isDir_dir (stat : Stat) : (Node.dir stat).isDir = true := rfl

/-- `destination.mkdir(exist_ok=True)` -/
def makeDir (umask : Nat) (t : Data) (p : Path) : Outcome :=
  match t.node p with
  | some (.dir _) => .ok t
  | some _ => .error (.os, t)
  | none => attempt t (t.put p (.dir (created umask 0o777)))

/-- `destination.open("wb")` -/
def openFile (umask : Nat) (t : Data) (p : Path) (content : List UInt8) : Outcome :=
  match t.node p with
  | some (.file _ _) => .ok (t.alter p (Node.rewrite content) (Node.isDir_rewrite content))
  -- neither a link nor a device is left where a member goes
  | some _ => .error (.os, t)
  | none => attempt t (t.put p (.file (created umask 0o666) content))

/-- `shutil.copyfileobj` has written what can be read. -/
def writeFile (umask : Nat) (t : Data) (p : Path) (m : Member) : Outcome := do
  let t' ← openFile umask t p m.content
  if m.complete then .ok t' else .error (.tar, t')

def makeParents (umask : Nat) (t : Data) (p : Path) : Outcome :=
  attempt t (t.makeDirs p.dropLast (.dir (created umask 0o777)) (Node.isDir_dir _))

/-- What a member is written as, the directories above it being there. -/
def writeMember (umask : Nat) (t : Data) (m : Member) : Outcome :=
  if m.type = .directory then makeDir umask t m.path else writeFile umask t m.path m

def applyEntry (umask : Nat) (t : Data) (m : Member) : Outcome :=
  if anyLink t m.path then .error (.value "restore-symlink", t)
  else do
    let t₁ ← makeParents umask t m.path
    let t₂ ← writeMember umask t₁ m
    pure (t₂.alter m.path (Node.own m.mode) (Node.isDir_own m.mode))

/-- Everything but the credentials, and what they are in, is removed. -/
def clear (t : Data) : Data := t.sweep isPrivate

def restore (umask : Nat) (a : Archive) (t : Data) : Outcome :=
  match a.members with
  | .error e => .error (e, t)
  | .ok entries =>
    match members entries with
    | .error e => .error (e, t)
    | .ok () => entries.foldlM (applyEntry umask) (clear t)

/-- `main` with `restore`, the archive being read from the standard input. -/
def restoreAction (umask : Nat) (a : Archive) (t : Data) : Outcome :=
  if !t.isDirAt [] then .error (.value "invalid-data-root", t)
  else if a.length > limit + 16 * 1024 * 1024 then .error (.value "archive-too-large", t)
  else restore umask a t

end Hermes.SimpleData

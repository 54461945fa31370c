import Mathlib.Logic.Function.Basic
import Hermes.Common

/- The instances of the lab (`lab_runtime.Instance`, `vm/hermes-disposable.py`): a directory
   with fixed file names and a domain each, made by `up`, changed by `deploy`, removed by
   `clean`.

   Files that no modelled function reads are only there or not. A document that is read as
   JSON is whole or cut: no proper beginning of the text of a JSON object is JSON. The
   commands hold the lock of the instance, and `boot` that of the ports, so one command runs
   at a time on what it reads. `writing` is no part of the lab: it names the document that the
   process was writing when it ended. Reports and prepared caches are kept elsewhere, and what
   is asked of the guest is answered by the outside. -/
namespace Hermes.LabInstance
open Process

inductive Document where
  | profile
  | artifact
  deriving DecidableEq, Repr

inductive FileName where
  | clientKey
  | clientPublic
  | serverKey
  | serverPublic
  | userData
  | metaData
  | seed
  | knownHosts
  | disk
  | deploySource
  | identity
  | document (d : Document)
  /-- the name with `.tmp` -/
  | temporary (d : Document)
  deriving DecidableEq, Repr

def fileNames : List FileName :=
  [.clientKey, .clientPublic, .serverKey, .serverPublic, .userData, .metaData, .seed, .knownHosts, .disk,
    .deploySource, .identity, .document .profile, .document .artifact, .temporary .profile, .temporary .artifact]

/-- The text of a JSON object, or a proper beginning of it. -/
inductive Text (α : Type) where
  | cut
  | whole (value : α)
  deriving DecidableEq, Repr

/-- `json.loads` -/
def Text.loads {α : Type} : Text α → Except Exc α
  | .cut => .error .valueError
  | .whole a => .ok a

structure Sizing where
  memoryMb : Nat
  vcpus : Nat
  diskGb : Nat
  deriving DecidableEq, Repr

structure Profile where
  vm : Sizing
  rest : Json

structure Manifest where
  key : String
  rest : Json

def Value : Document → Type
  | .profile => Profile
  | .artifact => Manifest

section Model

variable {ν : Type}

/-- A path of an instance directory. -/
abbrev Path (ν : Type) : Type := ν × FileName

structure Identity (ν : Type) where
  name : ν
  uuid : String
  disk : Path ν
  seed : Path ν
  port : Nat
  deriving DecidableEq, Repr

def identityOf (n : ν) (uuid : String) (port : Nat) : Identity ν where
  name := n
  uuid
  disk := (n, .disk)
  seed := (n, .seed)
  port

structure Domain (ν : Type) where
  uuid : String
  disks : List (Path ν)
  running : Bool
  deriving DecidableEq, Repr

/-- What the file of a name holds. -/
abbrev Content (ν : Type) : FileName → Type
  | .identity => Text (Identity ν)
  | .document d => Text (Value d)
  | .temporary d => Text (Value d)
  | _ => Unit

abbrev Directory (ν : Type) : Type := (f : FileName) → Option (Content ν f)

structure Place (ν : Type) where
  directory : Option (Directory ν)
  domain : Option (Domain ν)

def Place.empty : Place ν := ⟨none, none⟩

def Place.file (p : Place ν) (f : FileName) : Option (Content ν f) :=
  match p.directory with
  | none => none
  | some d => d f

def Place.put (p : Place ν) (f : FileName) (c : Option (Content ν f)) : Place ν :=
  { p with directory := p.directory.map fun d => Function.update d f c }

/-- `Instance.exists` -/
def Place.present (p : Place ν) : Bool := p.domain.isSome || p.directory.isSome

def Place.listing (p : Place ν) : List FileName := fileNames.filter fun f => (p.file f).isSome

structure Lab (ν : Type) where
  /-- the names that have been used -/
  names : List ν
  place : ν → Place ν
  writing : Option (Path ν)

def Lab.initial : Lab ν := ⟨[], fun _ => .empty, none⟩

/-- The ports that `boot` reads from the identities of all instances. -/
def reserved (place : ν → Place ν) : List ν → Except Exc (List Nat)
  | [] => .ok []
  | n :: ns =>
    match (place n).file .identity with
    | none => reserved place ns
    | some text =>
      match Text.loads (α := Identity ν) text with
      | .error e => .error e
      | .ok i => (reserved place ns).map (i.port :: ·)

variable [DecidableEq ν]

def Lab.at (l : Lab ν) (n : ν) (change : Place ν → Place ν) : Lab ν :=
  { l with place := Function.update l.place n (change (l.place n)) }

/-- One command or file operation: `can` is what it needs to succeed. -/
def act (can : Lab ν → Bool) (effect : Lab ν → Lab ν) : Task (Lab ν) Unit := command can (fun _ => effect)

/-- Something that is asked, printed or done elsewhere. -/
def check (_what : String) : Task (Lab ν) Unit := act (fun _ => true) id

def ofExcept {σ α : Type} : Except Exc α → Task σ α
  | .error e => Proc.raise e
  | .ok a => pure a

def labError {α : Type} (reason : String) : Task (Lab ν) α := fail 1 reason

def refuse (condition : Bool) (reason : String) : Task (Lab ν) Unit := require (!condition) reason 1

/-! ## Reading -/

/-- What of `Instance.__init__` depends on the directory. -/
def openInstance (n : ν) : Task (Lab ν) Unit := do
  let l ← Proc.read
  match (l.place n).file .identity with
  | none => pure ()
  | some text => do
    let i ← ofExcept (Text.loads (α := Identity ν) text)
    refuse (!(22000 ≤ i.port ∧ i.port ≤ 22999)) "instance port identity is invalid"

/-- `json.loads` of `profile.json`, where there is one -/
def recorded (n : ν) : Task (Lab ν) (Option Profile) := do
  let l ← Proc.read
  match (l.place n).file (.document .profile) with
  | none => pure none
  | some text => do
    let p ← ofExcept (Text.loads (α := Profile) text)
    pure (some p)

def domainExists (n : ν) : Task (Lab ν) Bool := query (fun _ => true) fun _ l => (l.place n).domain.isSome

/-- `virsh("domuuid", NAME)` -/
def domainUuid (n : ν) : Task (Lab ν) (Option String) :=
  query (fun l => (l.place n).domain.isSome) fun _ l => (l.place n).domain.map Domain.uuid

/-- The paths in `virsh("domblklist", NAME, "--details")` -/
def domainDisks (n : ν) : Task (Lab ν) (List (Path ν)) :=
  query (fun l => (l.place n).domain.isSome) fun _ l => ((l.place n).domain.map Domain.disks).getD []

/-- The identity file, where there is one. -/
def readIdentity (n : ν) (reason : String) : Task (Lab ν) (Identity ν) := do
  let l ← Proc.read
  match (l.place n).file .identity with
  | none => labError reason
  | some text => ofExcept (Text.loads (α := Identity ν) text)

/-- `assert_identity` -/
def assertIdentity (n : ν) : Task (Lab ν) Unit := do
  let i ← readIdentity n "owned instance marker is absent or unsafe"
  refuse (i.name ≠ n || i.disk ≠ (n, .disk) || i.seed ≠ (n, .seed)) "instance ownership paths changed"
  let uuid ← domainUuid n
  refuse (uuid ≠ some i.uuid) "domain identity changed"
  let disks ← domainDisks n
  refuse (!(disks ⊆ [i.disk, i.seed] ∧ [i.disk, i.seed] ⊆ disks)) "domain disk attachments changed"

/-- `guest(command)` -/
def guest (n : ν) (what : String) : Task (Lab ν) Unit := do
  assertIdentity n
  check what

/-! ## Writing -/

/-- A file that an external program or the code writes and nothing modelled reads. -/
def make (n : ν) (f : FileName) (c : Content ν f) : Task (Lab ν) Unit :=
  act (fun l => (l.place n).directory.isSome) fun l => l.at n (Place.put · f (some c))

def unlink (n : ν) (f : FileName) : Task (Lab ν) Unit :=
  act (fun _ => true) fun l => l.at n (Place.put · f none)

/-- `identity.json` is opened, and thereby emptied, then written. -/
def writeIdentity (n : ν) (i : Identity ν) : Task (Lab ν) Unit := do
  act (fun l => (l.place n).directory.isSome) fun l =>
    { l.at n (Place.put · .identity (some (.cut : Text (Identity ν)))) with writing := some (n, .identity) }
  act (fun _ => true) fun l =>
    { l.at n (Place.put · .identity (some (.whole i : Text (Identity ν)))) with writing := none }

/-- `os.replace(temp, path)` -/
def Place.replace (p : Place ν) (d : Document) : Place ν :=
  (p.put (.document d) (p.file (.temporary d))).put (.temporary d) none

/-- `write_json`: the temporary file is opened with `"x"`. -/
def writeJson (n : ν) (d : Document) (value : Value d) : Task (Lab ν) Unit := do
  act (fun l => (l.place n).directory.isSome && ((l.place n).file (.temporary d)).isNone) fun l =>
    { l.at n (Place.put · (.temporary d) (some (.cut : Text (Value d)))) with writing := some (n, .document d) }
  act (fun _ => true) fun l => l.at n (Place.put · (.temporary d) (some (.whole value : Text (Value d))))
  act (fun _ => true) fun l => { l.at n (Place.replace · d) with writing := none }

/-! ## `up` -/

/-- `create_key` -/
def createKey (n : ν) (private' public' : FileName) (c : Content ν private') (c' : Content ν public') :
    Task (Lab ν) Unit := do
  let l ← Proc.read
  refuse (((l.place n).file private').isSome || ((l.place n).file public').isSome) "SSH identity already exists"
  make n private' c
  make n public' c'

/-- `create_seed` -/
def createSeed (n : ν) : Task (Lab ν) Unit := do
  createKey n .clientKey .clientPublic () ()
  createKey n .serverKey .serverPublic () ()
  make n .userData ()
  make n .metaData ()
  make n .seed ()
  make n .knownHosts ()

def makeDirectory (n : ν) : Task (Lab ν) Unit :=
  act (fun l => (l.place n).directory.isNone) fun l =>
    { l.at n (fun p => { p with directory := some fun _ => none }) with names := n :: l.names }

/-- `virt-install` -/
def virtInstall (n : ν) (uuid : String) : Task (Lab ν) Unit :=
  act (fun l => (l.place n).domain.isNone) fun l =>
    l.at n fun p => { p with domain := some { uuid, disks := [(n, .disk), (n, .seed)], running := true } }

/-- `uuid.uuid4()` -/
def freshUuid : Task (Lab ν) String := do
  let m ← instant
  pure m.token

/-- `fresh_run(base, deploy_now=False)` -/
def freshRun (n : ν) (port : Nat) : Task (Lab ν) Unit := do
  let exists' ← domainExists n
  let l ← Proc.read
  refuse (exists' || (l.place n).directory.isSome) "disposable lab already exists"
  makeDirectory n
  createSeed n
  make n .disk ()
  let uuid ← freshUuid
  writeIdentity n (identityOf n uuid port)
  virtInstall n uuid
  let domuuid ← domainUuid n
  writeIdentity n (identityOf n (domuuid.getD "") port)
  guest n "true"

/-- `sock.bind(("127.0.0.1", port))` -/
def bindPort : Task (Lab ν) Bool :=
  Proc.perform fun m l => if m.verdict = .killed then (.error .killed, l) else (.ok (m.verdict = .done), l)

/-- The loop over the ports. -/
def choosePort (taken : List Nat) : List Nat → Task (Lab ν) Nat
  | [] => labError "no free lab loopback SSH port"
  | port :: ports =>
    if port ∈ taken then choosePort taken ports
    else do
      let free ← bindPort
      if free then pure port else choosePort taken ports

def ports : List Nat := List.range' 22222 778

/-- The part of `boot` that looks at the other instances. -/
def reservePort (n : ν) : Task (Lab ν) Nat := do
  lockFile
  let exists' ← domainExists n
  let l ← Proc.read
  refuse (exists' || (l.place n).directory.isSome) "instance already exists; inspect or clean it explicitly"
  let taken ← ofExcept (reserved l.place l.names)
  choosePort taken ports

def boot (n : ν) : Task (Lab ν) Unit := do
  let port ← reservePort n
  freshRun n port
  guest n "cloud-init status --wait"

/-! ## `deploy` -/

/-- `transfer_source`, with `source_archive` -/
def transferSource (n : ν) : Task (Lab ν) Unit := do
  make n .deploySource ()
  check "scp"
  guest n "tar"
  unlink n .deploySource

/-- `deploy` of the disposable VM -/
def vmDeploy (n : ν) : Task (Lab ν) Unit := do
  let exists' ← domainExists n
  refuse (!exists') "the disposable lab domain is absent; run 'run' first"
  guest n "true"
  guest n "cloud-init status --wait"
  guest n "sshd -T"
  check "ssh without a key"
  transferSource n
  guest n "profile-deploy.py apply"

def installArtifacts (n : ν) : Task (Lab ν) Unit := do
  guest n "require_synthetic"
  transferSource n
  guest n "dnf -y install"
  guest n "ensure_user"
  guest n "id -u hermes"
  Proc.forEach ["gateway", "worker"] fun name => do
    assertIdentity n
    check name
    guest n "podman load"

/-- `Instance.deploy` -/
def deploy (n : ν) (profile : Profile) (manifest : Manifest) : Task (Lab ν) Unit := do
  assertIdentity n
  guest n "require_synthetic"
  let existing ← recorded n
  refuse (existing.any fun p => p.vm ≠ profile.vm) "VM sizing changed; use a fresh instance"
  vmDeploy n
  writeJson n .profile profile
  writeJson n .artifact manifest

/-- `Instance.up` -/
def up (n : ν) (profile : Profile) (manifest : Manifest) (stock : Bool) : Task (Lab ν) Unit := do
  check "verified_base"
  boot n
  if stock then installArtifacts n
  else do
    transferSource n
    guest n "audit-base"
  deploy n profile manifest

/-! ## `clean` -/

/-- The names `Instance.clean` knows; those of `clean` itself are the same, `identity.json`
    only where it is a file. -/
def allowed : FileName → Bool
  | .temporary _ => false
  | _ => true

def removeTree (n : ν) : Task (Lab ν) Unit := do
  let l ← Proc.read
  Proc.forEach (l.place n).listing (unlink n)
  act (fun _ => true) fun l => l.at n fun p => { p with directory := none }

/-- `clean` of the disposable VM, where its domain exists -/
def removeDomain (n : ν) : Task (Lab ν) Unit := do
  let i ← readIdentity n "domain exists without the instance ownership marker"
  let uuid ← domainUuid n
  refuse (i.name ≠ n || uuid ≠ some i.uuid) "domain identity differs from the owned instance"
  let disks ← domainDisks n
  refuse (!(disks ⊆ [i.disk, i.seed])) "domain has an unrecognized attached disk"
  check "domstate"
  act (fun _ => true) fun l =>
    l.at n fun p => { p with domain := p.domain.map fun d => { d with running := false } }
  act (fun _ => true) fun l => l.at n fun p => { p with domain := none }

/-- The check of `identity.json`, where there is one. -/
def checkMarker (n : ν) : Task (Lab ν) Unit := do
  let l ← Proc.read
  match (l.place n).file .identity with
  | none => pure ()
  | some text => do
    let i ← ofExcept (Text.loads (α := Identity ν) text)
    refuse (i.name ≠ n || i.disk ≠ (n, .disk)) "instance ownership marker differs from expected paths"

/-- `clean` of the disposable VM, where its directory exists -/
def removeDirectory (n : ν) : Task (Lab ν) Unit := do
  checkMarker n
  let l ← Proc.read
  refuse (!(l.place n).listing.all allowed) "instance contains an unexpected path"
  removeTree n

/-- `Instance.clean` -/
def clean (n : ν) : Task (Lab ν) Unit := do
  let l ← Proc.read
  refuse (!(l.place n).listing.all allowed) "unexpected instance path; cleanup refused before domain mutation"
  let exists' ← domainExists n
  onlyIf exists' (assertIdentity n)
  let exists'' ← domainExists n
  onlyIf exists'' (removeDomain n)
  let l' ← Proc.read
  onlyIf (l'.place n).directory.isSome (removeDirectory n)

/-! ## The commands of `lab.py` -/

structure Options where
  /-- the profile of `--profile` -/
  asked : Option Profile
  /-- the one that is used where none was asked for or recorded -/
  fallback : Profile
  /-- that of the prepared cache of the profile -/
  manifest : Manifest

inductive Command where
  | up (stock : Bool)
  | deploy
  | clean
  deriving DecidableEq, Repr

def chosenProfile (n : ν) (o : Options) : Task (Lab ν) Profile :=
  match o.asked with
  | some p => pure p
  | none => do
    let existing ← recorded n
    pure (existing.getD o.fallback)

/-- Whether the artifacts on the instance are other ones. -/
def outdated (n : ν) (manifest : Manifest) : Task (Lab ν) Bool := do
  let l ← Proc.read
  match (l.place n).file (.document .artifact) with
  | none => pure true
  | some text => do
    let old ← ofExcept (Text.loads (α := Manifest) text)
    pure (old.key != manifest.key)

/-- What is done under the lock of the instance. -/
def Command.action (n : ν) (profile : Profile) (manifest : Manifest) : Command → Task (Lab ν) Unit
  | .up stock => do
    check "read_cache"
    LabInstance.up n profile manifest stock
  | .deploy => do
    check "read_cache"
    let old ← outdated n manifest
    onlyIf old (installArtifacts n)
    LabInstance.deploy n profile manifest
  | .clean => LabInstance.clean n

/-- One call of `lab.py`. -/
def Command.task (n : ν) (o : Options) (c : Command) : Task (Lab ν) Unit := do
  Proc.update fun l => { l with writing := none }
  openInstance n
  let profile ← chosenProfile n o
  lockFile
  c.action n profile o.manifest

end Model

end Hermes.LabInstance

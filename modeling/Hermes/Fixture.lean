import Mathlib.Algebra.Order.Ring.Int
import Hermes.Text
import Hermes.Common

/- The disposable fixture of a certification lifecycle (`lifecycle_fixture.py`): what
   `prepare` creates on the workstation, in which order it notes it in the journal, and
   how `cleanup` takes it away again.

   Another party may change the storage between any two operations; what it is
   going to do is part of the world (`meddling`). The log says what it did, which files
   were unlinked from the pool, and when the journal first said `vm_destroyed`. -/
namespace Hermes.Fixture
open Process

/-! ## The storage of the workstation -/

def uuid : String := "4db6369a-2b8b-427f-a47a-a5d83bb40cff"
def domainName : String := "lab-hermes-server"
def poolPath : String := "/var/lib/libvirt/images/hermes-tpm-lab"
def diskPath : String := poolPath ++ "/lab-hermes-server.qcow2"
def nvramPath : String := "/var/lib/libvirt/qemu/nvram/lab-hermes-server_VARS.fd"
def tpmPath : String := "/var/lib/libvirt/swtpm/" ++ uuid
def installerPath : String := poolPath ++ "/installer.iso"
def oemdrvPath : String := poolPath ++ "/lab-hermes-server-oemdrv.iso"

/-- `POOL_NAMES`, without the owner cookie. -/
def poolNames : List String :=
  [".hermes-lab-boot.lock", "code.fd", "vars.fd", "baseline.qcow2", "prepared.qcow2",
    "lab-hermes-server.qcow2", "lab-hermes-server-oemdrv.iso", "installer.iso"]

/-- What `owner.json` says. -/
structure Cookie where
  runId : String
  binding : String
  deriving DecidableEq, Repr

/-- `owner.json`: the record in it, if it is one, and why `protected_file` refuses it,
    if it does. -/
structure OwnerFile where
  value : Option Cookie
  refusal : Option String := none
  deriving DecidableEq, Repr

/-- An entry of the pool; a directory or a link is not `regular`. -/
structure Entry where
  name : String
  regular : Bool := true
  deriving DecidableEq, Repr

/-- A directory in the place of the pool. -/
structure Pool where
  /-- `st_dev`, `st_ino` -/
  identity : Nat × Nat
  /-- it and its parents belong to root, and no one else may write to them -/
  trusted : Bool := true
  owner : Option OwnerFile := none
  /-- the entries beside `owner.json` -/
  files : List Entry := []
  deriving DecidableEq, Repr

def Pool.has (p : Pool) (name : String) : Bool := p.files.any (fun e => e.name == name)

/-- The pool after a file is created, or written again. -/
def Pool.put (p : Pool) (e : Entry) : Pool :=
  if p.has e.name then p else { p with files := e :: p.files }

def Pool.drop (p : Pool) (name : String) : Pool :=
  { p with files := p.files.filter (fun e => e.name ≠ name) }

/-- What stands at `POOL`; `file` is neither a directory nor a link to one. -/
inductive Place where
  | absent
  | directory (p : Pool)
  | link (p : Pool)
  | file
  deriving DecidableEq, Repr

/-- `path.exists() or path.is_symlink()` -/
def Place.present : Place → Bool
  | .absent => false
  | _ => true

/-- The directory that a path through `POOL` reaches. -/
def Place.reached : Place → Option Pool
  | .directory p => some p
  | .link p => some p
  | _ => none

def Place.map (f : Pool → Pool) : Place → Place
  | .directory p => .directory (f p)
  | .link p => .link (f p)
  | place => place

/-! `virsh dumpxml`, as far as `validate_xml` reads it. -/

structure Loader where
  path : Option String
  secure : Option String
  readonly : Option String
  deriving DecidableEq, Repr

structure TpmBackend where
  type : Option String
  version : Option String
  encryption : Bool
  source : Bool
  deriving DecidableEq, Repr

/-- A disk, with the attributes of its source. -/
structure Disk where
  type : Option String
  source : Option (List (String × String))
  deriving DecidableEq, Repr

structure Xml where
  name : Option String
  uuid : Option String
  loader : Option Loader
  nvram : Option String
  tpm : Option TpmBackend
  /-- a kernel, an initrd or a command line of its own -/
  directBoot : Bool
  disks : List Disk
  /-- a file system or a device of the host -/
  shared : Bool
  deriving DecidableEq, Repr

structure Domain where
  xml : Xml
  running : Bool
  deriving DecidableEq, Repr

/-- A domain that is not called `DOMAIN`. -/
structure Other where
  name : String
  uuid : String
  xml : String
  deriving DecidableEq, Repr

structure Storage where
  pool : Place
  domain : Option Domain
  nvram : Bool
  tpm : Bool
  others : List Other
  /-- a process that is none of the domain's, but runs on the fixture's names -/
  stray : Bool
  deriving DecidableEq, Repr

/-- A line of `ps` that `verify_destroyed_domain` takes for the fixture's. -/
def Storage.process (s : Storage) : Bool := s.stray || s.domain.any (·.running)

/-- Where the storage has nothing of a fixture: what `preflight` asks for. -/
def Storage.free (s : Storage) : Bool :=
  s.domain.isNone && s.others.all (fun o => o.uuid ≠ Fixture.uuid) && !s.pool.present && !s.nvram && !s.tpm

/-- `value in raw` -/
def mentions (raw value : String) : Bool := occursIn value.toList raw.toList

/-- Another domain that names something of the fixture. -/
def Other.shares (o : Other) : Bool :=
  [poolPath, nvramPath, tpmPath, Fixture.uuid].any (mentions o.xml)

/-- The source of a disk that is a file and nothing else. -/
def Disk.file? (d : Disk) : Option String :=
  match d.type, d.source with
  | some "file", some [("file", path)] => some path
  | _, _ => none

/-- Which disks `validate_xml` allows; while the installation lasts, its media too. -/
def allowedDisks (iso : String) (installing : Bool) : List String :=
  if installing then [diskPath, oemdrvPath, iso] else [diskPath]

/-- `validate_xml`: the reason of the first check that fails. -/
def validateXml (x : Xml) (iso : String) (installing : Bool) : Option String :=
  if ¬(x.name = some domainName ∧ x.uuid = some uuid) then some "wrong-lifecycle-domain"
  else if x.loader ≠ some ⟨some (poolPath ++ "/code.fd"), some "yes", some "yes"⟩ then
    some "wrong-lifecycle-firmware"
  else if x.nvram.map strip ≠ some nvramPath then some "wrong-lifecycle-nvram"
  else if x.tpm ≠ some ⟨some "emulator", some "2.0", false, false⟩ then some "wrong-lifecycle-tpm"
  else if x.directBoot then some "unexpected-direct-boot"
  else if x.disks.any (fun d => d.file?.isNone) then some "unexpected-domain-storage"
  else
    let sources := x.disks.filterMap Disk.file?
    if ¬(sources.Nodup ∧ diskPath ∈ sources ∧ ∀ f ∈ sources, f ∈ allowedDisks iso installing) then
      some "wrong-lifecycle-disk-set"
    else if x.shared then some "unexpected-shared-domain-resource"
    else none

/-! ## The run -/

/-- What `lifecycle.json` says of the fixture. -/
structure Journal where
  runId : String
  binding : String
  inputsStarted : Bool := false
  poolOwned : Bool := false
  poolIdentity : Option (Nat × Nat) := none
  installStarted : Bool := false
  guestReady : Bool := false
  schedulerReady : Bool := false
  candidate : Option Digest := none
  credentialsCleaned : Bool := false
  guestPurged : Bool := false
  certifierSecretsPurged : Bool := false
  domainDestroyed : Bool := false
  storagePurgeStarted : Bool := false
  vmDestroyed : Bool := false
  privatePurged : Bool := false
  deriving DecidableEq, Repr

def Journal.cookie (j : Journal) : Cookie := ⟨j.runId, j.binding⟩

/-- What stands at the path of a directory of the run. -/
inductive Spot where
  | absent
  | directory
  | link
  deriving DecidableEq, Repr

/-- Whether a cleanup relies on what it has seen of the storage: of the domain and its
    firmware since `verify_destroyed_domain`, of the pool too since `purge_storage`. -/
inductive Phase where
  | idle
  | verified
  | checked
  deriving DecidableEq, Repr

inductive Event where
  /-- another party changed the storage -/
  | meddled (phase : Phase) (before after : Storage)
  /-- a file of the directory at `POOL` was unlinked -/
  | unlinked (journal : Journal) (pool : Pool) (name : String)
  /-- the journal says `vm_destroyed` from now on -/
  | destroyed (s : Storage)
  deriving DecidableEq, Repr

/-- `cleanup.json` -/
structure Record where
  candidate : Option Digest
  credentialsReconciled : Bool
  guestPurged : Bool
  domainAbsent : Bool
  deriving DecidableEq, Repr

structure World where
  storage : Storage
  /-- `lifecycle.json` -/
  journal : Journal
  /-- `self.state` -/
  state : Journal
  /-- `self.private` -/
  material : Spot := .absent
  /-- `self.work / 'backup'` -/
  backup : Spot := .absent
  /-- `self.work / 'inputs'` -/
  inputs : Spot := .absent
  record : Option Record := none
  /-- what the other parties are going to do to the storage -/
  meddling : List (Storage → Storage) := []
  phase : Phase := .idle
  log : List Event := []

/-- The world after the next act of another party. -/
def World.meddle (w : World) : World :=
  match w.meddling with
  | [] => w
  | f :: rest => { w with
      storage := f w.storage
      meddling := rest
      log := .meddled w.phase w.storage (f w.storage) :: w.log }

/-- `atomic(directory / 'lifecycle.json', canonical(state))` -/
def World.write (w : World) : World :=
  { w with
    journal := w.state
    log := if w.state.vmDestroyed && !w.journal.vmDestroyed then .destroyed w.storage :: w.log
      else w.log }

/-- The world with a change to the storage. -/
def World.alter (w : World) (f : Storage → Storage) : World := { w with storage := f w.storage }

/-- The world with a change to the pool. -/
def World.alterPool (w : World) (f : Pool → Pool) : World :=
  w.alter (fun s => { s with pool := s.pool.map f })

abbrev Cmd := Task World

/-- The other parties go on. -/
def meanwhile : Cmd Unit := Proc.update World.meddle

/-- Look at the world, for which a command or a system call is needed. -/
def look {α : Type} (value : World → α) : Cmd α := do
  meanwhile
  peek value

/-- A command with an effect. -/
def act (can : World → Bool) (effect : Moment → World → World) : Cmd Unit := do
  meanwhile
  command can effect

/-- A file operation, which raises `OSError` where it is not possible. -/
def change (can : World → Bool) (effect : Moment → World → World) : Cmd Unit := do
  meanwhile
  Proc.perform fun m w =>
    if m.verdict = .done then
      if can w then (.ok (), effect m w) else (.error .osError, w)
    else (.error (fileError m.verdict), if m.took && can w then effect m w else w)

/-- A command or a check that leaves the storage and the run as they are. -/
def check (_what : String) : Cmd Unit := act (fun _ => true) (fun _ w => w)

def phase (p : Phase) : Cmd Unit := Proc.update (fun w => { w with phase := p })

/-- `self.save(**values)` -/
def save (f : Journal → Journal) : Cmd Unit := do
  Proc.update (fun w => { w with state := f w.state })
  meanwhile
  atomic (fun _ w => w.write)

/-- What the modelled code reads of the workstation and takes from programs it runs. -/
structure Host where
  freeDisk : Moment → Nat
  memoryKib : Moment → Nat
  cpus : Moment → Nat
  /-- the response of `tool_readiness` is the expected one -/
  toolsReady : Moment → Bool
  /-- the response of the broker is the expected one -/
  brokerReady : Moment → Bool
  /-- `st_dev` and `st_ino` of a new directory -/
  identity : Moment → Nat × Nat
  /-- the digest of the candidate that was prepared -/
  candidate : Moment → Digest

/-! ## Whose the pool is -/

/-- `protected_file(POOL / 'owner.json', 0)` and what is in it. -/
def ownerFile (place : Place) : Cmd (Option Cookie) :=
  match place.reached with
  | none => Proc.raise .osError
  | some p =>
    match p.owner with
    | none => Proc.raise .osError
    | some f =>
      match f.refusal with
      | some reason => fail 78 reason
      | none => do
        require (place == .directory p && p.trusted) "unsafe-trust-directory"
        pure f.value

/-- `POOL.iterdir()`, without the owner cookie. -/
def poolEntries : Cmd (List Entry) := do
  let place ← look (·.storage.pool)
  match place.reached with
  | none => Proc.raise .osError
  | some p => pure p.files

/-- `virsh list --all`: whether `DOMAIN` is there, and the other domains. -/
def domains : Cmd (Bool × List Other) :=
  look (fun w => (w.storage.domain.isSome, w.storage.others))

/-- `virsh dumpxml` of a domain, which has to be there. -/
def dumpxml {α : Type} (domain : World → Option α) : Cmd α := do
  let found ← look domain
  match found with
  | none => fail 69 "operation-failed"
  | some x => pure x

/-- `validate_xml` of `DOMAIN`. -/
def inspectDomain (installing : Bool) : Cmd Unit := do
  let d ← dumpxml (·.storage.domain)
  match validateXml d.xml installerPath installing with
  | none => pure ()
  | some reason => fail 78 reason

def inspectOther (name : String) : Cmd Unit := do
  let o ← dumpxml (fun w => w.storage.others.find? (fun o => o.name == name))
  require (!o.shares) "shared-fixture-resource"

/-- `check_owned(partial)` -/
def checkOwned (installing : Bool) : Cmd Bool := do
  let w ← Proc.read
  let place ← look (·.storage.pool)
  let owner ← ownerFile place
  require (owner == some w.state.cookie) "fixture-owner-mismatch"
  let entries ← poolEntries
  require (entries.all (fun e => poolNames.contains e.name)) "unexpected-fixture-storage"
  let entries ← poolEntries
  require (entries.all (·.regular)) "unsafe-fixture-storage"
  let (present, others) ← domains
  onlyIf present (inspectDomain installing)
  Proc.forEach others (fun o => inspectOther o.name)
  pure present

/-! ## The domain -/

def setRunning (running : Bool) (s : Storage) : Storage :=
  { s with domain := s.domain.map (fun d => { d with running := running }) }

/-- `virsh domstate` -/
def isRunning : Cmd Bool := do
  let d ← dumpxml (·.storage.domain)
  pure d.running

def World.shutOff (w : World) : Bool := w.storage.domain.any (fun d => !d.running)
def World.running (w : World) : Bool := w.storage.domain.any (·.running)

/-- `virsh start`: the disk has to be there; the firmware's variables and the TPM's state
    are created where they are not. -/
def start : Cmd Unit :=
  act (fun w => w.shutOff && (w.storage.pool.reached.any (·.has "lab-hermes-server.qcow2")))
    (fun _ w => w.alter (fun s => { setRunning true s with nvram := true, tpm := true }))

/-- `virsh shutdown`, and the wait for it. -/
def shutdown : Cmd Unit := act World.running (fun _ w => w.alter (setRunning false))

/-- `virsh destroy` -/
def destroy : Cmd Unit := act World.running (fun _ w => w.alter (setRunning false))

/-- `virsh undefine --nvram --tpm` -/
def undefine : Cmd Unit :=
  act (fun w => w.storage.domain.isSome)
    (fun _ w => w.alter (fun s => { s with domain := none, nvram := false, tpm := false }))

/-- `wait_ssh` -/
def waitSsh : Cmd Unit := act World.running (fun _ w => w)

/-- `guest(action)` -/
def guest (_action : String) : Cmd Unit := act World.running (fun _ w => w)

/-- `poweroff` -/
def poweroff : Cmd Unit := do
  let _ ← checkOwned false
  let running ← isRunning
  onlyIf running shutdown

/-! ## Preparing -/

section
variable (x : Host)

/-- `check_resources` -/
def checkResources : Cmd Unit := do
  meanwhile
  let m ← query (fun _ => true) (fun m _ => m)
  save id
  require (60 * 1024 ^ 3 ≤ x.freeDisk m) "insufficient-lifecycle-disk"
  require (9 * 1024 ^ 2 ≤ x.memoryKib m && 2 ≤ x.cpus m) "insufficient-lifecycle-resources"

/-- `check_certifier_tools` and `check_broker` -/
def checkReady (ready : Moment → Bool) (reason : String) (code : Nat) : Cmd Unit := do
  meanwhile
  let m ← query (fun _ => true) (fun m _ => m)
  require (ready m) reason code

/-- `preflight` -/
def preflight : Cmd Unit := do
  check "source_identity"
  save id
  let named ← look (·.storage.domain.isSome)
  let identified ← look (fun w => w.storage.others.any (fun o => o.uuid = uuid))
  require (!named && !identified) "lifecycle-domain-already-exists"
  let pool ← look (·.storage.pool.present)
  require (!pool) "lifecycle-resource-already-exists"
  let nvram ← look (·.storage.nvram)
  require (!nvram) "lifecycle-resource-already-exists"
  let tpm ← look (·.storage.tpm)
  require (!tpm) "lifecycle-resource-already-exists"
  checkResources x
  checkReady x.toolsReady "certifier-tools-not-ready" 69
  save id
  checkReady x.brokerReady "isolated-test-broker-unavailable" 78
  change (fun w => w.material = .absent) (fun _ w => { w with material := .directory })
  check "work.mkdir"
  save (fun j => { j with inputsStarted := true })

/-- An entry of the pool that is there while `body` runs, and is removed after it unless
    the process dies. -/
def scratch (e : Entry) (body : Cmd Unit) : Cmd Unit := do
  change (fun w => w.storage.pool.reached.isSome) (fun _ w => w.alterPool (·.put e))
  Proc.handle body fun err =>
    match err with
    | .killed => Proc.raise .killed
    | err => do
      change (fun w => w.storage.pool.reached.isSome) (fun _ w => w.alterPool (·.drop e.name))
      Proc.raise err
  change (fun w => w.storage.pool.reached.isSome) (fun _ w => w.alterPool (·.drop e.name))

/-- A command that writes a file of the pool. -/
def produce (name : String) : Cmd Unit :=
  act (fun w => w.storage.pool.reached.isSome) (fun _ w => w.alterPool (·.put { name := name }))

/-- A file of the pool that must not have been there. -/
def createFile (name : String) : Cmd Unit :=
  change (fun w => w.storage.pool.reached.any (fun p => !p.has name))
    (fun _ w => w.alterPool (·.put { name := name }))

/-- `firmware.prepare(template, certificate, POOL / 'vars.fd')` -/
def prepareFirmware : Cmd Unit := do
  check "template and certificate"
  let taken ← look (fun w => w.storage.pool.reached.any (·.has "vars.fd"))
  require (!taken) "firmware-output-exists"
  check "openssl x509"
  meanwhile
  let m ← instant
  scratch { name := ".firmware-" ++ m.token, regular := false } do
    check "virt-fw-vars"
    check "firmware-enrollment-verification-failed"
    createFile "vars.fd"
  check "digests"

/-- The commands of `inputs` before it makes the pool: they write into `self.private`. -/
def keyMaterial : List String :=
  ["gpgv", "digest iso", "openssl genpkey sb.key", "openssl genpkey pcr.key", "openssl req sb.crt",
    "openssl pkey pcr.pub", "ssh-keygen operator", "ssh-keygen guest-host", "recovery.key",
    "installer", "xorriso linux", "xorriso initrd", "osrel", "cmdline", "build installer.efi"]

/-- `copy_media` -/
def copyMedia : Cmd Unit := do
  check "protected_file iso"
  createFile "installer.iso"
  check "copied-installer-media-mismatch"

/-- `info = POOL.stat()` and its entry in the journal. -/
def notePool : Cmd Unit := do
  let info ← look (·.storage.pool.reached)
  match info with
  | none => Proc.raise .osError
  | some p => save (fun j => { j with poolOwned := true, poolIdentity := some p.identity })

/-- The pool with its cookie, until the journal knows of it. -/
def makePool : Cmd Unit := do
  change (fun w => w.storage.pool = .absent)
    (fun m w => w.alter (fun s => { s with pool := .directory { identity := x.identity m } }))
  check "POOL.chmod"
  let w ← Proc.read
  change (fun w => w.storage.pool.reached.isSome)
    (fun _ v => v.alterPool (fun p => { p with owner := some { value := some w.state.cookie } }))
  notePool

/-- `inputs` -/
def inputs : Cmd Unit := do
  Proc.forEach keyMaterial check
  makePool x
  copyMedia
  produce "code.fd"
  check "qemu-img convert template.fd"
  check "four-mib-firmware-pair-required"
  prepareFirmware
  check "restorecon"

/-- The definition of the domain by `virt-install`, with the installation media. -/
def installerXml (media : List String) : Xml where
  name := some domainName
  uuid := some uuid
  loader := some ⟨some (poolPath ++ "/code.fd"), some "yes", some "yes"⟩
  nvram := some nvramPath
  tpm := some ⟨some "emulator", some "2.0", false, false⟩
  directBoot := false
  disks := (diskPath :: media).map (fun path => ⟨some "file", some [("file", path)]⟩)
  shared := false

def probeName (token : String) : String := ".vm-storage-write." ++ token
def mediaName (token : String) : String := ".efi-media-" ++ token

def definedWith (media : List String) (running : Bool) (s : Storage) : Storage :=
  { s with domain := some ⟨installerXml media, running⟩ }

/-- What `create-hermes-server-vm.sh` does to the storage, step by step: the probe of
    `check_storage_pool_writable`, the image of `efi_media.py`, the disk, and the domain,
    which installs itself and gives up its media. -/
def creationSteps (token : String) : List (Storage → Storage) :=
  let onPool (f : Pool → Pool) (s : Storage) : Storage := { s with pool := s.pool.map f }
  [ onPool (·.put { name := probeName token }),
    onPool (·.drop (probeName token)),
    onPool (·.put { name := mediaName token, regular := false }),
    onPool (·.put { name := "lab-hermes-server-oemdrv.iso" }),
    onPool (·.drop (mediaName token)),
    onPool (·.put { name := "lab-hermes-server.qcow2" }),
    definedWith [oemdrvPath, installerPath] false,
    fun s => { definedWith [oemdrvPath, installerPath] true s with nvram := true, tpm := true },
    definedWith [oemdrvPath, installerPath] false,
    definedWith [oemdrvPath] false,
    definedWith [] false ]

/-- The traps of a script that ends early. -/
def tidy (token : String) (s : Storage) : Storage :=
  { s with pool := s.pool.map (fun p => (p.drop (probeName token)).drop (mediaName token)) }

/-- The storage after the first `n` steps. -/
def created (token : String) (n : Nat) (s : Storage) : Storage :=
  ((creationSteps token).take n).foldl (fun s step => step s) s

/-- What the script asks of the storage: the directory, no domain and no image of its own. -/
def canCreate (s : Storage) : Bool :=
  s.domain.isNone && s.pool.reached.any (fun p =>
    !p.has "lab-hermes-server.qcow2" && !p.has "lab-hermes-server-oemdrv.iso")

/-- `create-hermes-server-vm.sh`. Cut off, it has taken `progress` steps and may have run
    its traps. -/
def createServer : Cmd Unit := do
  meanwhile
  Proc.perform fun m w =>
    if !canCreate w.storage then (.error (runFailure .failed), w)
    else if m.verdict = .done then
      (.ok (), w.alter (created m.token (creationSteps m.token).length))
    else
      let left := w.alter (created m.token m.progress)
      (.error (runFailure m.verdict), if m.took then left.alter (tidy m.token) else left)

/-- `guestfish` and the checks of the shut-off domain around it. -/
def offlineEnrollment : Cmd Unit := do
  check "upload host key"
  check "download identity"
  check "upload guest"
  save id

/-- The boot of the installed system, under the lock of the pool. -/
def firstBoot : Cmd Unit := do
  produce ".hermes-lab-boot.lock"
  meanwhile
  lockFile
  offlineEnrollment
  check "lab_candidate.extract"
  check "build installed.efi"
  save id
  check "lab_boot.inject"
  start
  waitSsh

/-- `boot_manager` -/
def bootManager : Cmd Unit := do
  waitSsh
  check "sbsign"
  poweroff
  check "guestfish boot"
  start
  waitSsh
  guest "lab_enroll_boot.py"
  guest "reboot"
  waitSsh
  guest "observe"

/-- `enroll_candidate` -/
def enrollCandidate : Cmd Unit := do
  check "work directories"
  check "certifier-inputs"
  change (fun w => w.inputs = .absent) (fun _ w => { w with inputs := .directory })
  change (fun w => w.backup = .absent) (fun _ w => { w with backup := .directory })
  check "restic init"
  check "certifier.json"
  check "schedule.json"
  save (fun j => { j with schedulerReady := true })
  check "as_certifier --prepare-only"
  check "approve_candidate"
  meanwhile
  let m ← instant
  save (fun j => { j with candidate := some (x.candidate m) })
  guest "enroll"
  save id

/-- What `prepare` does with the guest once it has booted. -/
def prepareGuest : Cmd Unit := do
  guest "bootstrap"
  guest "store"
  save id
  poweroff
  produce "baseline.qcow2"
  check "qemu-img compare"
  save id
  start
  waitSsh
  guest "replay"
  waitSsh
  guest "export"
  check "download"
  check "build updated.efi"
  save id
  poweroff
  check "qemu-img check"
  change (fun w => w.storage.pool.reached.any (·.has "lab-hermes-server.qcow2"))
    (fun _ w => w.alterPool (fun p =>
      (p.drop "lab-hermes-server.qcow2").put { name := "prepared.qcow2" }))
  produce "lab-hermes-server.qcow2"
  check "qemu-img compare"
  check "restorecon"
  start
  waitSsh
  guest "observe"
  save id
  enrollCandidate x

/-- `prepare` -/
def prepare : Cmd Unit := do
  preflight x
  inputs x
  checkResources x
  save (fun j => { j with installStarted := true })
  createServer
  let _ ← checkOwned false
  firstBoot
  save (fun j => { j with guestReady := true })
  bootManager
  prepareGuest x

end

/-! ## Cleaning up -/

/-- `verify_destroyed_domain` -/
def verifyDestroyedDomain : Cmd Unit := do
  phase .verified
  let named ← look (·.storage.domain.isSome)
  require (!named) "domain-destruction-incomplete"
  let identified ← look (fun w => w.storage.others.any (fun o => o.uuid = uuid))
  require (!identified) "domain-destruction-incomplete"
  let nvram ← look (·.storage.nvram)
  require (!nvram) "firmware-or-tpm-remains"
  let tpm ← look (·.storage.tpm)
  require (!tpm) "firmware-or-tpm-remains"
  let process ← look (·.storage.process)
  require (!process) "fixture-process-remains"

/-- `path.unlink()` of an entry of the pool. -/
def unlink (name : String) : Cmd Unit :=
  change (fun w => w.storage.pool.reached.any (fun p => p.files.any (fun e => e.name == name && e.regular)))
    (fun _ w => { w.alterPool (·.drop name) with
      log := (w.storage.pool.reached.map (fun p => Event.unlinked w.journal p name)).toList ++ w.log })

/-- `cookie.unlink()` -/
def unlinkCookie : Cmd Unit :=
  change (fun w => w.storage.pool.reached.any (·.owner.isSome))
    (fun _ w => { w.alterPool (fun p => { p with owner := none }) with
      log := (w.storage.pool.reached.map (fun p => Event.unlinked w.journal p "owner.json")).toList
        ++ w.log })

/-- `POOL.rmdir()` -/
def rmdir : Cmd Unit :=
  change (fun w => match w.storage.pool with
      | .directory p => p.owner.isNone && p.files.isEmpty
      | _ => false)
    (fun _ w => w.alter (fun s => { s with pool := .absent }))

/-- The pool that has a cookie is emptied, the cookie last. -/
def emptyPool : Cmd Unit := do
  let present ← checkOwned true
  require (!present) "domain-reappeared-before-storage-purge"
  save (fun j => { j with storagePurgeStarted := true })
  let entries ← poolEntries
  Proc.forEach entries (fun e => unlink e.name)
  unlinkCookie

/-- A pool without a cookie must be one that was emptied. -/
def confirmEmptied : Cmd Unit := do
  let w ← Proc.read
  let entries ← poolEntries
  require (w.state.storagePurgeStarted && entries.isEmpty) "fixture-owner-missing"

/-- The directory has to be the one that was noted. -/
def compareIdentity : Cmd Unit := do
  let w ← Proc.read
  let info ← look (fun v => v.storage.pool.reached.map (·.identity))
  match info, w.state.poolIdentity with
  | none, _ => Proc.raise .osError
  | some _, none => Proc.raise .keyError
  | some identity, some noted => require (identity == noted) "fixture-pool-replaced"

def purgeContents : Cmd Unit := do
  let cookie ← look (fun v => v.storage.pool.reached.any (·.owner.isSome))
  if cookie then emptyPool else confirmEmptied

/-- `owned_path(POOL, 0, directory=True)` -/
def Place.owned : Place → Bool
  | .directory p => p.trusted
  | _ => false

/-- `purge_storage`, where something stands at `POOL`. -/
def purgePool : Cmd Unit := do
  let place ← look (·.storage.pool)
  require place.owned "untrusted-signing-input"
  compareIdentity
  purgeContents
  rmdir

/-- The pool is purged, or was before. -/
def purgePresent : Cmd Unit := do
  let w ← Proc.read
  let present ← look (·.storage.pool.present)
  if present then purgePool
    else require w.state.storagePurgeStarted "fixture-pool-disappeared"

/-- `purge_storage` -/
def purgeStorage : Cmd Unit := do
  let w ← Proc.read
  require w.state.domainDestroyed "domain-must-be-destroyed-first"
  phase .checked
  purgePresent
  save (fun j => { j with vmDestroyed := true })
  phase .idle

/-- The credentials are reconciled before anything is removed. -/
def cleanCredentials : Cmd Unit := do
  let w ← Proc.read
  onlyIf (w.state.schedulerReady && !w.state.credentialsCleaned) do
    check "as_certifier --cleanup-only"
    save (fun j => { j with credentialsCleaned := true })

/-- The guest's own data, while there is a guest. -/
def purgeGuest (present : Bool) : Cmd Unit := do
  let w ← Proc.read
  onlyIf (w.state.guestReady && !w.state.guestPurged) do
    onlyIf present do
      let running ← isRunning
      onlyIf (!running) do
        start
        waitSsh
    require present "guest-disappeared-before-purge"
    guest "purge"
    save (fun j => { j with guestPurged := true })

/-- `shutil.rmtree` of a directory of the run, which may have been left half done. -/
def removeTree (spot : World → Spot) (gone : World → World) (reason : String) : Cmd Unit := do
  let found ← look spot
  require (found != .link) reason
  onlyIf (found == .directory) (change (fun _ => true) (fun _ w => gone w))

/-- The certifier's secrets and backups. -/
def purgeSecrets : Cmd Unit := do
  let w ← Proc.read
  onlyIf (!w.state.certifierSecretsPurged) do
    removeTree (·.backup) (fun w => { w with backup := .absent }) "linked-certifier-purge-root"
    removeTree (·.inputs) (fun w => { w with inputs := .absent }) "linked-certifier-purge-root"
    save (fun j => { j with certifierSecretsPurged := true })

def destroyDomain : Cmd Unit := do
  let running ← isRunning
  onlyIf running destroy
  undefine

/-- What a run that owns the pool has to give back. -/
def releaseFixture : Cmd Unit := do
  let present ← checkOwned true
  purgeGuest present
  purgeSecrets
  let _ ← checkOwned true
  onlyIf present destroyDomain
  verifyDestroyedDomain
  save (fun j => { j with domainDestroyed := true })
  purgeStorage

/-- `self.private` -/
def purgePrivate : Cmd Unit := do
  removeTree (·.material) (fun w => { w with material := .absent }) "linked-private-purge-root"
  let found ← look (·.material)
  require (found == .absent) "private-fixture-state-remains"
  save (fun j => { j with privatePurged := true })

/-- `cleanup.json` -/
def writeRecord : Cmd Unit := do
  meanwhile
  atomic (fun _ w => { w with record := some {
    candidate := w.state.candidate
    credentialsReconciled := w.state.credentialsCleaned
    guestPurged := w.state.guestPurged
    domainAbsent := w.state.vmDestroyed } })

/-- `cleanup` -/
def cleanup : Cmd Unit := do
  cleanCredentials
  let w ← Proc.read
  onlyIf (w.state.domainDestroyed && !w.state.vmDestroyed) do
    verifyDestroyedDomain
    purgeStorage
  let w ← Proc.read
  onlyIf (w.state.poolOwned && !w.state.vmDestroyed) releaseFixture
  purgePrivate
  writeRecord

/-! ## A run of the lifecycle, as far as the fixture is concerned -/

/-- After a failure the run writes its state once more. -/
def orJournaled (body : Cmd Unit) : Cmd Unit :=
  Proc.handle body fun err =>
    match err with
    | .killed => Proc.raise .killed
    | err => do
      save id
      Proc.raise err

/-- `driver.prepare()` -/
def provision (x : Host) : Cmd Unit := orJournaled (prepare x)

/-- `driver.cleanup()`, in the run itself or in one that takes its journal up again. -/
def recover : Cmd Unit := do
  Proc.update (fun w => { w with state := w.journal, phase := .idle })
  orJournaled cleanup

/-- One cleanup after another, each cut off where its script ends. -/
def recoverAll (scripts : List (List Moment)) (w : World) : World :=
  scripts.foldl (fun w t => recover.after t w) w

/-! ## The rules of the operations

    Each holds for a precondition that whatever the other parties do keeps. -/

section Rules

variable {α : Type} {P R : World → Prop} {E : Exc → World → Prop}

theorem meanwhile_triple (hm : ∀ w, P w → P w.meddle) : Triple P meanwhile (fun _ => P) E :=
  Triple.update hm

theorem look_triple {value : World → α} {Q : α → World → Prop} (hm : ∀ w, P w → P w.meddle)
    (hok : ∀ w, P w → Q (value w) w) (herr : ∀ e w, P w → E e w) : Triple P (look value) Q E :=
  Triple.bind (meanwhile_triple hm) (fun _ => peek_triple hok herr)

theorem act_triple {can : World → Bool} {effect : Moment → World → World} {Q : Unit → World → Prop}
    (hm : ∀ w, P w → P w.meddle) (hok : ∀ m w, P w → can w = true → Q () (effect m w))
    (herr : ∀ e w, P w → E e w) (htook : ∀ e m w, P w → can w = true → E e (effect m w)) :
    Triple P (act can effect) Q E :=
  Triple.bind (meanwhile_triple hm) (fun _ => run_triple hok herr htook)

theorem change_triple {can : World → Bool} {effect : Moment → World → World}
    {Q : Unit → World → Prop} (hm : ∀ w, P w → P w.meddle)
    (hok : ∀ m w, P w → can w = true → Q () (effect m w)) (herr : ∀ e w, P w → E e w)
    (htook : ∀ e m w, P w → can w = true → E e (effect m w)) : Triple P (change can effect) Q E := by
  refine Triple.bind (meanwhile_triple hm) (fun _ => ?_)
  refine Triple.perform (fun w hw => herr _ w hw) ?_
  intro m w hw r w' hr
  by_cases hv : m.verdict = .done
  · rw [if_pos hv] at hr
    by_cases hc : can w = true
    · rw [if_pos hc] at hr; cases hr; exact hok m w hw hc
    · rw [if_neg hc] at hr; cases hr; exact herr _ _ hw
  · rw [if_neg hv] at hr
    cases hr
    show E _ _
    split
    · next h => exact htook _ m w hw (by simpa using (Bool.and_eq_true _ _ ▸ h).2)
    · exact herr _ w hw

theorem save_triple {f : Journal → Journal} {Q : Unit → World → Prop}
    (hf : ∀ w, P w → R { w with state := f w.state }) (hm : ∀ w, R w → R w.meddle)
    (hok : ∀ w, R w → Q () w.write) (herr : ∀ e w, R w → E e w)
    (htook : ∀ e w, R w → E e w.write) : Triple P (save f) Q E :=
  Triple.bind (Triple.update hf) (fun _ => Triple.bind (Triple.update hm)
    (fun _ => atomic_triple (fun _ => hok) herr (fun e _ => htook e)))

theorem dumpxml_triple {domain : World → Option α} {Q : α → World → Prop}
    (hm : ∀ w, P w → P w.meddle) (hok : ∀ w x, P w → domain w = some x → Q x w)
    (herr : ∀ e w, P w → E e w) : Triple P (dumpxml domain) Q E := by
  refine Triple.bind (look_triple (Q := fun found w => P w ∧ domain w = found) hm
    (fun w hw => ⟨hw, rfl⟩) herr) (fun found => ?_)
  cases found with
  | none => exact Triple.raise (fun w hw => herr _ w hw.1)
  | some x => exact Triple.pure' (fun w hw => hok w x hw.1 hw.2)

end Rules

end Hermes.Fixture

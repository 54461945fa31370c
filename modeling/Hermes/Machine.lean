import Hermes.Text
import Hermes.Credentials

/- The enrolled host: the files that the unattended deployment reads and writes,
   the service it manages, and what it keeps under `/var/lib/hermes-unattended`.

   The state carries a trace, the newest mark first, of what the code achieved on
   the host. No modelled function reads the trace. -/
namespace Hermes
open Process

abbrev ReleaseId : Type := String

/-! Files. -/

/-- The bytes of a file: a text, or a key sealed by `systemd-creds`, which no two
    encryptions give the same bytes for. -/
inductive Bytes where
  | text (s : String)
  | sealed (key : Key) (nonce : String)
  deriving DecidableEq, Repr

/-- The paths on the host. -/
inductive Place where
  /-- `CREDENTIAL` -/
  | credential
  /-- `DATA / "config.yaml"` -/
  | config
  /-- `DATA / ".env"` -/
  | env
  /-- `config.yaml.pre-hardening-<stamp>` -/
  | configCopy (stamp : String)
  /-- `.env.pre-hardening-<stamp>` -/
  | envCopy (stamp : String)
  /-- `/etc/containers/systemd/users/<uid>/hermes.container` -/
  | unit (uid : Nat)
  /-- `/etc/containers/systemd/users/<uid>/hermes.container.d/80-credentials.conf` -/
  | containerDropin (uid : Nat)
  /-- `/etc/systemd/user/hermes.service.d/<name>` -/
  | serviceDropin (name : String)
  /-- `/usr/local/libexec/hermes-unattended/materialize.py` -/
  | materialize
  /-- `/etc/systemd/system/hermes-runtime-credentials.service` -/
  | credentialsService
  /-- `/etc/systemd/system/hermes-runtime-credentials.service.d/80-runtime-directory.conf` -/
  | runtimeOrder
  /-- `/etc/systemd/system/user@<uid>.service.d/80-hermes-credentials.conf` -/
  | manager (uid : Nat)
  /-- `/boot/efi/EFI/Linux/<name>` -/
  | bootEntry (name : String)
  /-- `/etc/systemd/system/hermes-offline-replay.service` -/
  | offlineUnit
  deriving DecidableEq, Repr

/-- Owner and mode of a file. -/
structure Meta where
  uid : Nat
  gid : Nat
  mode : Nat
  deriving DecidableEq, Repr

/-- What root creates through `atomic`. -/
def Meta.rootPrivate : Meta := ⟨0, 0, 0o600⟩

/-- What a process of the container creates. -/
def Meta.container (uid : Nat) : Meta := ⟨uid, uid, 0o600⟩

inductive Node where
  | file (bytes : Bytes) (info : Meta)
  | link
  deriving DecidableEq, Repr

/-- The bytes a path reads as. -/
def Node.bytes? : Option Node → Option Bytes
  | some (.file bytes _) => some bytes
  | _ => none

/-- `path.is_symlink()`. -/
def Node.isLink : Option Node → Bool
  | some .link => true
  | _ => false

/-! The journal of a release. -/

inductive Phase where
  | new
  | snapshotCreating
  | snapshotReady
  | backupVerified
  | credentialReady
  | packageStaging
  | rebootPending
  | runtimePending
  | runtimeInstalled
  | persistenceReboot
  | closed
  | rolledBack
  | recoveryRequired
  deriving DecidableEq, Repr

/-- The phases in which `backup-guard` rolls back. -/
def Phase.preStaging : Phase → Bool
  | .snapshotCreating | .snapshotReady | .backupVerified | .credentialReady => true
  | _ => false

/-- `<release>.state.json`. -/
structure Journal where
  phase : Phase
  previousActive : Option Bool := none
  snapshotSha256 : Option Digest := none
  backupSnapshot : Option String := none
  bootBefore : Option String := none
  runtimeBootBefore : Option String := none
  deriving DecidableEq, Repr

/-- One entry of `files.json`. `saved` is `none` where the path did not exist. -/
structure FileRecord where
  place : Place
  saved : Option Meta
  index : Nat
  deriving DecidableEq, Repr

/-- `<release>.previous`: the copies, `files.json`, and whether `complete` is there. -/
structure Previous where
  copies : Nat → Option Bytes
  records : Option (List FileRecord)
  complete : Bool

def Previous.empty : Previous := ⟨fun _ => none, none, false⟩

def Previous.setCopy (p : Previous) (index : Nat) (bytes : Bytes) : Previous :=
  { p with copies := fun i => if i = index then some bytes else p.copies i }

/-! Releases. -/

/-- What the host code uses of a release: fields of its manifest and the payload
    files it reads. -/
structure Release where
  id : ReleaseId
  image : String
  model : String
  baseline : Digest
  installedAfter : Digest
  uki : String
  unit : String
  runtimeConf : String
  volumeLabelConf : String
  materialize : String
  credentialsService : String
  deriving DecidableEq, Repr

/-- Where the dispatcher keeps the stored package transaction of a release. -/
def packagesDirectory (id : ReleaseId) : String :=
  "/var/lib/hermes-unattended/releases/" ++ id ++ "/packages"

theorem packagesDirectory_inj {id id' : ReleaseId}
    (h : packagesDirectory id = packagesDirectory id') : id = id' := by
  unfold packagesDirectory at h
  exact (String.append_right_inj _).mp ((String.append_left_inj _).mp h)

/-- The file name of the boot entry of a release. -/
def bootEntryName (id : ReleaseId) : String := "hermes-" ++ id ++ ".efi"

/-! The offline replay (`offline.py`). -/

inductive ReplayStatus where
  | staging
  | staged
  | running
  | complete
  | failed
  deriving DecidableEq, Repr

structure BootArtifact where
  entry : String
  sha256 : Digest
  deriving DecidableEq, Repr

/-- The state file of one stored transaction and baseline. -/
structure Replay where
  expected : Digest
  status : ReplayStatus
  bootBefore : String
  startedAt : Nat
  unitSha256 : Digest
  boot : Option BootArtifact
  updateBoot : Option String := none
  error : Option String := none
  completedAt : Option Nat := none
  deriving DecidableEq, Repr

/-- A path that may be a symbolic link. -/
inductive Link where
  | absent
  | to (target : String)
  | other
  deriving DecidableEq, Repr

/-! The trace. -/

/-- What a journal write saw of the machine. -/
structure View where
  bootId : String
  packages : Digest
  replayed : Bool
  deriving DecidableEq, Repr

inductive Mark where
  /-- The application data was archived. -/
  | snapshotTaken (id : ReleaseId) (sha256 : Digest)
  /-- A backup receipt for this digest was accepted. -/
  | acknowledged (id : ReleaseId) (sha256 : Digest)
  /-- The credential was written. -/
  | credentialStored (id : ReleaseId) (key : Key)
  /-- The system-update link was set on a stored transaction. -/
  | staged (directory : String) (bootId : String)
  /-- The runtime installation wrote or unlinked a path. -/
  | installed (id : ReleaseId) (place : Place)
  /-- Acceptance succeeded. -/
  | accepted (id : ReleaseId) (bootId : String)
  /-- The journal was written. -/
  | recorded (id : ReleaseId) (phase : Phase) (view : View)
  deriving DecidableEq, Repr

/-- What the offline replay did. -/
inductive ReplayEvent where
  /-- `dnf5 replay` was started. -/
  | started (directory : String) (baseline : Digest)
  /-- The boot entry was selected, with the inventory and the digest of its file then. -/
  | selected (directory : String) (baseline : Digest) (entry : String) (packages : Digest)
      (file : Option Digest)
  /-- `complete` was recorded, with the inventory and what was left of the service then. -/
  | completed (directory : String) (baseline : Digest) (packages : Digest) (unitLeft linkLeft : Bool)
  deriving DecidableEq, Repr

/-! The machine. -/

structure Account where
  uid : Nat
  home : String
  deriving DecidableEq, Repr

structure Machine where
  bootId : String
  account : Option Account
  /-- the uid that the container's uid 10000 is mapped to -/
  containerUid : Nat
  dataDir : Bool
  userManager : Bool
  files : Place → Option Node
  /-- `hermes.service` is running -/
  active : Bool
  /-- `hermes.service` is defined by something other than the quadlet file -/
  otherUnit : Bool
  inventory : String
  bootDefault : Option String
  journals : ReleaseId → Option Journal
  snapshots : ReleaseId → Option String
  previous : ReleaseId → Option Previous
  replays : String → Digest → Option Replay
  systemUpdate : Link
  otherUpdate : Bool
  wantLink : Link
  trace : List Mark
  /-- what the offline replay did, the newest event first; no modelled function reads it -/
  replayLog : List ReplayEvent := []

namespace Machine

variable (s : Machine)

/-- `Host.state` as the constructor reads it. -/
def journalOf (id : ReleaseId) : Journal := (s.journals id).getD { phase := .new }

def setNode (place : Place) (node : Option Node) : Machine :=
  { s with files := fun p => if p = place then node else s.files p }

/-- Change owner or mode of a file. -/
def setMeta (place : Place) (f : Meta → Meta) : Machine :=
  match s.files place with
  | some (.file bytes info) => s.setNode place (some (.file bytes (f info)))
  | _ => s

def mark (e : Mark) : Machine := { s with trace := e :: s.trace }

def logReplay (e : ReplayEvent) : Machine := { s with replayLog := e :: s.replayLog }

def setJournal (id : ReleaseId) (j : Journal) : Machine :=
  { s with journals := fun i => if i = id then some j else s.journals i }

def setSnapshot (id : ReleaseId) (content : Option String) : Machine :=
  { s with snapshots := fun i => if i = id then content else s.snapshots i }

def setPrevious (id : ReleaseId) (p : Previous) : Machine :=
  { s with previous := fun i => if i = id then some p else s.previous i }

def setReplay (directory : String) (baseline : Digest) (r : Replay) : Machine :=
  { s with replays := fun d b => if d = directory ∧ b = baseline then some r else s.replays d b }

/-- The quadlet file of the account, where there is one. -/
def quadlet : Option Node := s.account.bind (fun a => s.files (.unit a.uid))

/-- `hermes.service` is known to the user manager. -/
def unitLoaded : Bool := s.otherUnit || s.quadlet.isSome

/-- The state file of the transaction says complete, and the machine has booted since. -/
def replayed (directory : String) (baseline : Digest) : Bool :=
  (s.replays directory baseline).any
    (fun r => r.status = .complete && r.updateBoot != some s.bootId)

/-! What each update leaves alone. -/

section Simp

variable (place p : Place) (node : Option Node) (e : Mark) (id i : ReleaseId) (j : Journal)
  (content : Option String) (q : Previous) (f : Meta → Meta) (d : String) (b : Digest) (r : Replay)

@[simp] theorem setNode_same : (s.setNode place node).files place = node := by simp [setNode]
theorem setNode_other (h : p ≠ place) : (s.setNode place node).files p = s.files p := by
  simp [setNode, h]
@[simp] theorem setNode_bootId : (s.setNode place node).bootId = s.bootId := rfl
@[simp] theorem setNode_journals : (s.setNode place node).journals = s.journals := rfl
@[simp] theorem setNode_previous : (s.setNode place node).previous = s.previous := rfl
@[simp] theorem setNode_snapshots : (s.setNode place node).snapshots = s.snapshots := rfl
@[simp] theorem setNode_trace : (s.setNode place node).trace = s.trace := rfl
@[simp] theorem setNode_account : (s.setNode place node).account = s.account := rfl
@[simp] theorem setNode_dataDir : (s.setNode place node).dataDir = s.dataDir := rfl
@[simp] theorem mark_files : (s.mark e).files = s.files := rfl
@[simp] theorem mark_bootId : (s.mark e).bootId = s.bootId := rfl
@[simp] theorem mark_journals : (s.mark e).journals = s.journals := rfl
@[simp] theorem mark_previous : (s.mark e).previous = s.previous := rfl
@[simp] theorem mark_snapshots : (s.mark e).snapshots = s.snapshots := rfl
@[simp] theorem mark_trace : (s.mark e).trace = e :: s.trace := rfl
@[simp] theorem mark_account : (s.mark e).account = s.account := rfl
@[simp] theorem mark_dataDir : (s.mark e).dataDir = s.dataDir := rfl
@[simp] theorem setJournal_same : (s.setJournal id j).journals id = some j := by simp [setJournal]
theorem setJournal_other (h : i ≠ id) : (s.setJournal id j).journals i = s.journals i := by
  simp [setJournal, h]
@[simp] theorem setJournal_files : (s.setJournal id j).files = s.files := rfl
@[simp] theorem setJournal_bootId : (s.setJournal id j).bootId = s.bootId := rfl
@[simp] theorem setJournal_previous : (s.setJournal id j).previous = s.previous := rfl
@[simp] theorem setJournal_snapshots : (s.setJournal id j).snapshots = s.snapshots := rfl
@[simp] theorem setJournal_trace : (s.setJournal id j).trace = s.trace := rfl
@[simp] theorem setPrevious_same : (s.setPrevious id q).previous id = some q := by
  simp [setPrevious]
theorem setPrevious_other (h : i ≠ id) : (s.setPrevious id q).previous i = s.previous i := by
  simp [setPrevious, h]
@[simp] theorem setPrevious_files : (s.setPrevious id q).files = s.files := rfl
@[simp] theorem setPrevious_bootId : (s.setPrevious id q).bootId = s.bootId := rfl
@[simp] theorem setPrevious_journals : (s.setPrevious id q).journals = s.journals := rfl
@[simp] theorem setPrevious_trace : (s.setPrevious id q).trace = s.trace := rfl
@[simp] theorem setPrevious_account : (s.setPrevious id q).account = s.account := rfl
@[simp] theorem setPrevious_dataDir : (s.setPrevious id q).dataDir = s.dataDir := rfl
@[simp] theorem setSnapshot_same : (s.setSnapshot id content).snapshots id = content := by
  simp [setSnapshot]
@[simp] theorem setSnapshot_files : (s.setSnapshot id content).files = s.files := rfl

end Simp

end Machine

end Hermes

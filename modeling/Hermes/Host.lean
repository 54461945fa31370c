import Hermes.Offline

/- `host.py`: the signed release entry point, one bounded stage per request.

   A process of the entry point is a `HostTask`: it works on the machine and on
   the journal it read when it started (`Host.state`). What does not touch the
   journal in memory is a `Task Machine`. -/
namespace Hermes
open Process

variable {σ α : Type}

/-! The platform. -/

/-- The values of the `tokens` of the LUKS header. -/
def luksTokens (luks : Json) : Task σ (List Json) :=
  match luks.fields? with
  | none => Proc.raise .attributeError
  | some _ =>
    match luks.get "tokens" with
    | none => pure []
    | some (.obj fields) => pure (fields.map Prod.snd)
    | some _ => Proc.raise .attributeError

/-- `"pcrlock" in key`. -/
def mentionsPcrlock (key : String) : Bool :=
  occursIn "pcrlock".toList key.toList

/-- A token that binds the disk to PCR 7 and to the signed PCR 11 policy, without a PIN. -/
def tokenAccepted (token : Json) : Bool :=
  token.isSingleton 7 "tpm2-pcrs" && token.isSingleton 11 "tpm2_pubkey_pcrs" &&
    token.getStr "tpm2-pcr-bank" == some "sha256" &&
    (token.getStr "tpm2_pubkey").any (· != "") &&
    (match token.get "tpm2-pin" with
      | none => true
      | some (.bool false) => true
      | _ => false) &&
    !((token.fields?.getD []).any (fun f => mentionsPcrlock f.1 && f.2.truthy))

/-- The check of every automatic unlock token. -/
def checkTokens (tokens : List Json) : Task σ Unit :=
  if tokens.all (·.fields?.isSome) then do
    let tpm := tokens.filter (fun token => token.getStr "type" == some "systemd-tpm2")
    require (!tpm.isEmpty) "tpm-boot-policy-mismatch"
    require (tpm.all tokenAccepted) "tpm-boot-policy-mismatch"
  else Proc.raise .attributeError

def preflight : Task σ Unit := do
  let m ← instant
  require m.platform.fedora44 "unsupported-platform"
  let enforcing ← query (fun _ => true) (fun m _ => m.platform.enforcing)
  require enforcing "selinux-not-enforcing"
  command (fun _ => true) (fun _ s => s)
  let secure ← query (fun _ => true) (fun m _ => m.platform.secureBoot)
  require secure "secure-boot-disabled"
  command (fun _ => true) (fun _ s => s)
  command (fun _ => true) (fun _ s => s)
  let m ← instant
  require (decide (20 * 1024 ^ 3 ≤ m.platform.freeVar)) "insufficient-var-space"
  let luks ← query (fun _ => true) (fun m _ => m.platform.luks)
  let tokens ← luksTokens luks
  checkTokens tokens

/-! The hermes account and its service. -/

/-- `as_hermes(args)`: without the account nothing runs. -/
def asHermes (can : Machine → Bool) (effect : Moment → Machine → Machine)
    (output : Moment → Machine → α) : Task Machine α := do
  let s ← Proc.read
  if s.account.isNone then Proc.raise .keyError else run can effect output

/-- `service(args)`: a command to the user manager. -/
def service (can : Machine → Bool) (effect : Moment → Machine → Machine) : Task Machine Unit :=
  asHermes (fun s => s.userManager && can s) effect (fun _ _ => ())

/-- `service("stop", "hermes.service")`. -/
def stopService : Task Machine Unit :=
  service (fun s => s.active || s.unitLoaded) (fun _ s => { s with active := false })

/-- `service("restart", "hermes.service")`. -/
def restartService : Task Machine Unit :=
  service (fun s => s.unitLoaded) (fun _ s => { s with active := true })

/-- `service("daemon-reload")`. -/
def reloadService : Task Machine Unit := service (fun _ => true) (fun _ s => s)

/-- `pwd.getpwnam("hermes")`. -/
def accountEntry : Task Machine Account := do
  let s ← Proc.read
  match s.account with
  | none => Proc.raise .keyError
  | some account => pure account

/-- Start the user manager of the account. -/
def startManager : Task Machine Unit :=
  command (fun s => s.account.isSome) (fun _ s => { s with userManager := true })

def identity : Task Machine Account := do
  let s ← Proc.read
  onlyIf s.account.isNone
    (command (fun _ => true) (fun m s => { s with account := some ⟨m.newUid, "/home/hermes"⟩ }))
  let account ← accountEntry
  require (account.home == "/home/hermes" && account.uid != 0) "unsafe-hermes-identity"
  let m ← instant
  require (!m.platform.linkedHome) "unsafe-hermes-home"
  require (!m.platform.sshKeys) "hermes-has-ssh-keys"
  command (fun _ => true) (fun _ s => s)
  command (fun _ => true) (fun _ s => s)
  startManager
  asHermes (fun _ => true) (fun _ s => { s with dataDir := true }) (fun _ _ => ())
  let m ← instant
  require m.platform.subordinateIds "missing-hermes-subordinate-ids"
  pure account

def healthy (image : String) : Task Machine Unit := do
  let result ← asHermes (fun s => s.active) (fun _ s => s) (fun m _ => m.inspection)
  require result.healthy "runtime-unhealthy"
  require (result.imageName == image) "runtime-image-mismatch"
  require result.readonlyRootfs "runtime-root-writable"
  require (!result.publishedPorts) "runtime-published-ports"
  require (!result.privileged) "privileged-runtime"

/-- `wait_health`, `n` more attempts. -/
def waitHealthFor (image : String) : Nat → Task Machine Unit
  | 0 => fail 69 "runtime-health-timeout"
  | n + 1 =>
    Proc.handle (healthy image) fun e =>
      if e.isFailure then waitHealthFor image n else Proc.raise e

def waitHealth (image : String) : Task Machine Unit := waitHealthFor image 36

/-! Files. -/

/-- The runtime installation leaves a mark where it writes or unlinks. -/
def Machine.noted (s : Machine) (owner : Option ReleaseId) (place : Place) : Machine :=
  match owner with
  | some id => s.mark (.installed id place)
  | none => s

/-- `install_file`. -/
def installFile (owner : Option ReleaseId) (content : String) (place : Place) (mode : Nat) :
    Task Machine Unit := do
  let s ← Proc.read
  require (!Node.isLink (s.files place)) "unsafe-install-destination"
  mkdir
  atomic fun _ s => (s.setNode place (some (.file (.text content) .rootPrivate))).noted owner place
  chmod place mode

/-- `path.unlink(missing_ok=True)` of the runtime installation. -/
def removeFile (owner : Option ReleaseId) (place : Place) : Task Machine Unit :=
  atomic fun _ s => (s.setNode place none).noted owner place

/-- The `config.yaml` that the container's user reads. -/
def Machine.configBytes (s : Machine) : Option Bytes := Node.bytes? (s.files .config)

/-- `read_application_file`. -/
def readApplicationFile (place : Place) : Task Machine Bytes :=
  if place = .config then
    asHermes (fun s => s.configBytes.isSome) (fun _ s => s)
      (fun _ s => s.configBytes.getD (.text ""))
  else protectedFile place

/-! The backup of the application files. -/

/-- Write a copy into `<release>.previous`. -/
def writeCopy (id : ReleaseId) (index : Nat) (bytes : Bytes) : Task Machine Unit :=
  atomic fun _ s => s.setPrevious id (((s.previous id).getD .empty).setCopy index bytes)

/-- Write `files.json`. -/
def writeRecords (id : ReleaseId) (records : List FileRecord) : Task Machine Unit :=
  atomic fun _ s =>
    s.setPrevious id { (s.previous id).getD .empty with records := some records }

/-- The record of one path, after a copy of its content where it has any. -/
def captureFile (id : ReleaseId) (index : Nat) (place : Place) (reason : String) :
    Task Machine FileRecord := do
  let s ← Proc.read
  match s.files place with
  | some .link => fail 78 reason
  | none => pure ⟨place, none, index⟩
  | some (.file _ info) => do
    let bytes ← readApplicationFile place
    writeCopy id index bytes
    pure ⟨place, some info, index⟩

/-- The records of a list of paths, numbered from `index`. -/
def captureFiles (id : ReleaseId) : Nat → List Place → Task Machine (List FileRecord)
  | _, [] => pure []
  | index, place :: places => do
    let record ← captureFile id index place "unsafe-application-backup-path"
    let records ← captureFiles id (index + 1) places
    pure (record :: records)

/-- The paths of `capture_application`. -/
def capturedPlaces (account : Option Account) : List Place :=
  [.credential, .config] ++ (account.map (fun a => Place.unit a.uid)).toList ++
    [.serviceDropin "80-hermes-credential.conf"]

/-- `Host.capture_application`. -/
def captureApplication (id : ReleaseId) : Task Machine Unit := do
  let s ← Proc.read
  match s.previous id with
  | some p => require p.complete "incomplete-application-backup"
  | none =>
    atomic fun _ s => s.setPrevious id .empty
    let records ← captureFiles id 0 (capturedPlaces s.account)
    writeRecords id records
    atomic fun _ s => s.setPrevious id { (s.previous id).getD .empty with complete := true }

/-- `files.json`, which must exist. -/
def readRecords (id : ReleaseId) : Task Machine (List FileRecord) := do
  let s ← Proc.read
  match (s.previous id).bind (·.records) with
  | none => Proc.raise .osError
  | some records => pure records

/-- `Host.track`: each path is captured once. -/
def track (id : ReleaseId) (place : Place) : Task Machine Unit := do
  let records ← readRecords id
  if records.any (·.place = place) then pure ()
  else
    let record ← captureFile id records.length place "unsafe-tracked-path"
    writeRecords id (records ++ [record])

/-! The host process. -/

/-- A process of the entry point: the machine and `Host.state`. -/
structure Session where
  host : Machine
  state : Journal

abbrev HostTask (α : Type) : Type := Task Session α

/-- What works on the machine only. -/
def onMachine (x : Task Machine α) : HostTask α :=
  x.zoom Session.host (fun s h => { s with host := h })

/-- What a stage answers. -/
structure HostReply where
  stage : Phase
  snapshotSha256 : Option Digest := none
  deriving DecidableEq, Repr

/-- What a journal write sees. -/
def Machine.view (s : Machine) (r : Release) : View :=
  ⟨s.bootId, digest s.inventory, s.replayed (packagesDirectory r.id) r.baseline⟩

/-- `Host.save(phase, **values)`. -/
def save (r : Release) (phase : Phase) (values : Journal → Journal := id) : HostTask HostReply := do
  Proc.update fun s => { s with state := { values s.state with phase := phase } }
  atomic fun _ s => { s with
    host := (s.host.setJournal r.id s.state).mark (.recorded r.id phase (s.host.view r)) }
  pure { stage := phase }

/-- `digest(self.snapshot)`. -/
def snapshotDigest (id : ReleaseId) : Task Machine Digest := do
  let _ ← instant
  let s ← Proc.read
  match s.snapshots id with
  | none => Proc.raise .osError
  | some content => pure (digest content)

/-- `open(self.snapshot, "xb")` and its mode. -/
def createSnapshot (id : ReleaseId) : Task Machine Unit := do
  let s ← Proc.read
  if (s.snapshots id).isSome then Proc.raise .osError
  else
    atomic fun _ s => s.setSnapshot id (some "")
    atomic fun _ s => s

/-- The archive that `tar` writes. -/
def Machine.archive (s : Machine) (id : ReleaseId) (content : String) : Machine :=
  (s.setSnapshot id (some content)).mark (.snapshotTaken id (digest content))

/-- Stop the application and archive its data, where there is any. -/
def archiveData (id : ReleaseId) : Task Machine Unit := do
  let s ← Proc.read
  if s.dataDir then do
    Proc.handle stopService fun e =>
      if e.isFailure then do
        let idle ← asHermes (fun _ => true) (fun _ s => s) (fun _ s => !s.active)
        require idle "cannot-quiesce-runtime"
      else Proc.raise e
    createSnapshot id
    asHermes (fun _ => true) (fun m s => s.archive id m.text) (fun _ _ => ())
  else do
    createSnapshot id
    command (fun _ => true) (fun m s => s.archive id m.text)

/-- `service("is-active", "hermes.service")`. -/
def serviceActive : Task Machine Bool :=
  Proc.handle (asHermes (fun s => s.userManager && s.active) (fun _ s => s) (fun _ _ => true))
    fun e => if e.isFailureOrKey then pure false else Proc.raise e

/-- `Host.snapshot_data`. -/
def snapshotData (r : Release) : HostTask HostReply := do
  let s ← Proc.read
  if s.state.phase ≠ .new then do
    require (s.host.snapshots r.id).isSome "snapshot-unavailable"
    let value ← onMachine (snapshotDigest r.id)
    pure { stage := s.state.phase, snapshotSha256 := some value }
  else do
    preflight
    onMachine (captureApplication r.id)
    let active ← onMachine serviceActive
    let _ ← save r .snapshotCreating (fun j => { j with previousActive := some active })
    onMachine (command (fun _ => true) (fun _ s => s))
    onMachine (archiveData r.id)
    let value ← onMachine (snapshotDigest r.id)
    let _ ← save r .snapshotReady (fun j => { j with snapshotSha256 := some value })
    pure { stage := .snapshotReady, snapshotSha256 := some value }

/-- A message of the controller that a backup exists. -/
structure BackupReceipt where
  snapshot : String
  sha256 : Digest
  deriving DecidableEq, Repr

/-- `Host.acknowledge_backup`. -/
def acknowledgeBackup (r : Release) (receipt : BackupReceipt) : HostTask HostReply := do
  let s ← Proc.read
  require (s.state.phase = .snapshotReady || s.state.phase = .backupVerified)
    "backup-stage-mismatch"
  match s.state.snapshotSha256 with
  | none => Proc.raise .keyError
  | some expected => do
    require (receipt.sha256 = expected) "backup-digest-mismatch"
    Proc.update fun s => { s with host := s.host.mark (.acknowledged r.id receipt.sha256) }
    save r .backupVerified (fun j => { j with backupSnapshot := some receipt.snapshot })

/-- `isinstance(value, str) and 1 <= len(value) <= 4096` and no control character. -/
def runtimeKey : Option Key → Bool
  | some key => decide (1 ≤ key.value.toList.length) && decide (key.value.toList.length ≤ 4096) &&
      !hasControl key.value
  | none => false

/-- Write the credential. -/
def storeCredential (id : ReleaseId) (key : Key) (nonce : String) : Task Machine Unit :=
  atomic fun _ s =>
    (s.setNode .credential (some (.file (.sealed key nonce) .rootPrivate))).mark
      (.credentialStored id key)

/-- `Host.credential`. -/
def credential (r : Release) (value : Option Key) : HostTask HostReply := do
  let s ← Proc.read
  require (s.state.phase = .backupVerified || s.state.phase = .credentialReady)
    "credential-stage-mismatch"
  require (runtimeKey value) "invalid-runtime-key"
  match value with
  | none => fail 78 "invalid-runtime-key"
  | some key => do
    let nonce ← onMachine (query (fun _ => true) (fun m _ => m.token))
    onMachine mkdir
    onMachine (storeCredential r.id key nonce)
    save r .credentialReady

/-! The runtime installation. -/

/-- `Host.install_boot`. -/
def installBoot (r : Release) : Task Machine String := do
  command (fun _ => true) (fun _ s => s)
  let m ← instant
  require (decide (r.uki.utf8ByteSize + 1024 * 1024 ≤ m.platform.freeEsp)) "insufficient-esp-space"
  installFile none r.uki (.bootEntry (bootEntryName r.id)) 0o644
  pure (bootEntryName r.id)

/-- A program that works in steps: all of them if it succeeds, else the first `progress`. -/
def script (can : Machine → Bool) (steps : List (Moment → Machine → Machine)) :
    Task Machine Unit :=
  Proc.perform fun m s =>
    if m.verdict = .done then
      if can s then (.ok (), steps.foldl (fun s f => f m s) s)
      else (.error (.failure 69 "operation-failed"), s)
    else (.error (runFailure m.verdict),
      if can s then (steps.take m.progress).foldl (fun s f => f m s) s else s)

/-- `shutil.copy2`. -/
def Machine.copyNode (s : Machine) (source target : Place) : Machine :=
  match s.files source with
  | some (.file bytes info) => s.setNode target (some (.file bytes info))
  | _ => s

/-- Replace a file from inside the container. -/
def Machine.replaceInside (s : Machine) (place : Place) (content : String) : Machine :=
  s.setNode place (some (.file (.text content) (.container s.containerUid)))

/-- The settings that `harden-config.py` forces in `.env`. -/
def hardenedSettings : List (String × String) :=
  [("API_SERVER_ENABLED", "false"), ("HERMES_DASHBOARD", "0"), ("GATEWAY_ALLOW_ALL_USERS", "false"),
    ("WEBHOOK_ENABLED", "false")]

/-- The key that a line of `.env` sets, or `""`. -/
def envKey (line : String) : String :=
  let cs := line.toList
  if cs.contains '=' && !"#".toList.isPrefixOf (lstripChars cs) then
    strip (String.ofList (cs.takeWhile (· != '=')))
  else ""

/-- The text `harden-config.py` writes to `.env`. -/
def hardenEnv (text : String) : String :=
  let lines := splitlines text
  let kept := lines.map fun line =>
    match hardenedSettings.lookup (envKey line) with
    | some value => envKey line ++ "=" ++ value
    | none => line
  let missing := hardenedSettings.filter fun f => !lines.any (fun line => envKey line == f.1)
  joinLines (kept ++ missing.map (fun f => f.1 ++ "=" ++ f.2)) ++ "\n"

/-- Rewrite `.env`, where it is a file. -/
def Machine.hardenEnvFile (s : Machine) : Machine :=
  match s.files .env with
  | some (.file (.text content) _) => s.replaceInside .env (hardenEnv content)
  | _ => s

/-- The steps of `harden-config.py`: a copy of `config.yaml` and its replacement, then
    the same for `.env` where it exists. -/
def hardenSteps : List (Moment → Machine → Machine) :=
  [fun m s => s.copyNode .config (.configCopy m.token),
   fun m s => s.replaceInside .config m.text,
   fun m s => s.copyNode .env (.envCopy m.token),
   fun _ s => s.hardenEnvFile]

/-- A script is run inside the container. -/
def inContainer (steps : List (Moment → Machine → Machine)) : Task Machine Unit := do
  let s ← Proc.read
  if s.account.isNone then Proc.raise .keyError
  else script (fun s => s.active && s.configBytes.isSome) steps

def hardenConfig : Task Machine Unit := inContainer hardenSteps

def setModel : Task Machine Unit := inContainer [fun m s => s.replaceInside .config m.text]

/-- Write a drop-in directly, as `install_runtime` does. -/
def writeDropin (id : ReleaseId) (place : Place) (content : String) : Task Machine Unit := do
  mkdir
  atomic fun _ s =>
    (s.setNode place (some (.file (.text content) .rootPrivate))).noted (some id) place
  chmod place 0o644

/-- `systemctl restart hermes-runtime-credentials.service`: a manager that requires
    the service goes down with it. -/
def restartCredentials : Task Machine Unit :=
  command (fun s => s.account.isSome) fun _ s =>
    match s.account with
    | some a =>
      if (s.files (.manager a.uid)).isSome then { s with userManager := false, active := false }
      else s
    | none => s

def userService (uid : Nat) : String := "user-runtime-dir@" ++ toString uid ++ ".service"

/-- The files of the runtime that stand before the first start. -/
def installUnit (r : Release) (uid : Nat) : Task Machine Unit := do
  track r.id (.unit uid)
  installFile (some r.id) r.unit (.unit uid) 0o644
  track r.id (.serviceDropin "60-hermes-runtime.conf")
  installFile (some r.id) r.runtimeConf (.serviceDropin "60-hermes-runtime.conf") 0o644
  track r.id (.serviceDropin "70-hermes-volume-label.conf")
  installFile (some r.id) r.volumeLabelConf (.serviceDropin "70-hermes-volume-label.conf") 0o644
  removeFile (some r.id) (.serviceDropin "80-hermes-credential.conf")
  track r.id (.containerDropin uid)
  removeFile (some r.id) (.containerDropin uid)

/-- The files that hand the credential to the container. -/
def installCredentials (r : Release) (uid : Nat) : Task Machine Unit := do
  track r.id .materialize
  track r.id .credentialsService
  installFile (some r.id) r.materialize .materialize 0o755
  installFile (some r.id) r.credentialsService .credentialsService 0o644
  track r.id .runtimeOrder
  writeDropin r.id .runtimeOrder
    ("[Unit]\nRequires=" ++ userService uid ++ "\nAfter=" ++ userService uid ++ "\n")
  track r.id (.manager uid)
  writeDropin r.id (.manager uid)
    "[Unit]\nRequires=hermes-runtime-credentials.service\nAfter=hermes-runtime-credentials.service\n"

/-- `Host.install_runtime`. -/
def installRuntime (r : Release) : Task Machine Unit := do
  let account ← identity
  require ((splitlines r.unit).contains ("Image=" ++ r.image)) "quadlet-image-mismatch"
  asHermes (fun _ => true) (fun _ s => s) (fun _ _ => ())
  installUnit r account.uid
  reloadService
  restartService
  waitHealth r.image
  hardenConfig
  setModel
  installCredentials r account.uid
  command (fun _ => true) (fun _ s => s)
  restartCredentials
  startManager
  writeDropin r.id (.containerDropin account.uid)
    "[Container]\nVolume=/run/hermes-secrets/provider.env:/opt/data/.env:ro,z\n"
  reloadService
  restartService
  waitHealth r.image

/-- `Host.acceptance`. -/
def acceptance (r : Release) : Task Machine Unit := do
  healthy r.image
  asHermes (fun s => s.active) (fun _ s => s) (fun _ _ => ())
  let output ← asHermes (fun s => s.active) (fun _ s => s) (fun m _ => m.inference)
  require (output == "HERMES_OK" || output == "HERMES_OK\n") "inference-acceptance-failed"
  Proc.update fun s => s.mark (.accepted r.id s.bootId)

/-! Rollback. -/

/-- The copy that belongs to a record, which must exist. -/
def readCopy (id : ReleaseId) (record : FileRecord) : Task Machine Bytes := do
  let s ← Proc.read
  match (s.previous id).bind (·.copies record.index) with
  | none => Proc.raise .osError
  | some bytes => pure bytes

/-- `config.yaml` is restored with the rights of the container's user. -/
def restoreConfig (id : ReleaseId) (record : FileRecord) : Task Machine Unit :=
  match record.saved with
  | some _ => do
    let bytes ← readCopy id record
    asHermes (fun s => s.dataDir)
      (fun _ s => s.setNode .config (some (.file bytes (.container s.containerUid)))) (fun _ _ => ())
  | none => asHermes (fun s => s.dataDir) (fun _ s => s.setNode .config none) (fun _ _ => ())

/-- Every other path is restored by root, with its owner and mode. -/
def restoreFile (id : ReleaseId) (record : FileRecord) : Task Machine Unit :=
  match record.saved with
  | some info => do
    let bytes ← readCopy id record
    writeFile record.place bytes
    chmod record.place info.mode
    atomic fun _ s => s.setMeta record.place fun i => { i with uid := info.uid, gid := info.gid }
  | none => atomic fun _ s => s.setNode record.place none

/-- One record of `files.json`. A closed release keeps the accepted credential. -/
def restoreRecord (id : ReleaseId) (phase : Phase) (record : FileRecord) : Task Machine Unit :=
  if record.place = .credential ∧ phase = .closed then pure ()
  else do
    let s ← Proc.read
    require (!Node.isLink (s.files record.place)) "unsafe-rollback-destination"
    if record.place = .config then restoreConfig id record else restoreFile id record

/-- The image of the first `Image=` line of a quadlet file. -/
def unitImage (content : String) : Option String :=
  ((splitlines content).find? (startsWith · "Image=")).map (removeStart · "Image=")

/-- The image of the restored quadlet file. -/
def previousImage : Task Machine String := do
  let account ← accountEntry
  let s ← Proc.read
  match Node.bytes? (s.files (.unit account.uid)) with
  | some (.text content) =>
    match unitImage content with
    | some image => pure image
    | none => Proc.raise .stopIteration
  | some (.sealed _ _) => Proc.raise .valueError
  | none => Proc.raise .osError

/-- Bring the restored service back. -/
def restartRestored (previousActive : Bool) : Task Machine Unit := do
  command (fun _ => true) (fun _ s => s)
  let s ← Proc.read
  onlyIf ((s.files .credential).isSome && (s.files .credentialsService).isSome) do
    restartCredentials
    let _ ← accountEntry
    startManager
  reloadService
  onlyIf previousActive do
    restartService
    let image ← previousImage
    waitHealth image

/-- Stop the application, whether or not it runs. -/
def quiesce : Task Machine Unit :=
  Proc.handle stopService fun e => if e.isFailureOrKey then pure () else Proc.raise e

/-- `Host.rollback` up to the restart: stop, then restore every record. -/
def restoreAll (id : ReleaseId) (phase : Phase) : Task Machine Unit := do
  let s ← Proc.read
  require ((s.previous id).any (·.complete)) "application-backup-unavailable"
  quiesce
  let records ← readRecords id
  Proc.forEach records (restoreRecord id phase)

/-- The restart of `Host.rollback`: whether it succeeded. -/
def restartAfter (previousActive : Bool) : Task Machine Bool :=
  Proc.handle (do restartRestored previousActive; pure true)
    fun e => if e.isFailureOrKey then pure false else Proc.raise e

/-- `Host.rollback`. -/
def rollback (r : Release) : HostTask HostReply := do
  let s ← Proc.read
  onMachine (restoreAll r.id s.state.phase)
  let recovered ← onMachine (restartAfter (s.state.previousActive.getD false))
  if recovered then save r .rolledBack else save r .recoveryRequired

/-! Advance. -/

/-- A reboot is scheduled. -/
def scheduleReboot : Task Machine Unit := command (fun _ => true) (fun _ s => s)

/-- `advance` from `credential-ready`: stage the package transaction. -/
def stagePackages (r : Release) : HostTask HostReply := do
  preflight
  let found ← onMachine packageBaseline
  require (found = r.baseline) "package-baseline-mismatch"
  let entry ← onMachine (installBoot r)
  let s ← Proc.read
  let _ ← save r .packageStaging (fun j => { j with bootBefore := some s.host.bootId })
  onMachine (replayPackages (packagesDirectory r.id) r.baseline r.installedAfter (some entry))
  let _ ← save r .rebootPending
  onMachine scheduleReboot
  pure { stage := .rebootPending }

/-- The candidate is installed, accepted, and accepted again after a reboot. The
    result is an answer, or nothing where the release may be closed. -/
def acceptRuntime (r : Release) : HostTask (Option HostReply) := do
  let s ← Proc.read
  match s.state.phase with
  | .persistenceReboot => do
    onMachine (waitHealth r.image)
    onMachine (acceptance r)
    preflight
    pure none
  | phase => do
    onlyIf (phase = .runtimePending) do
      onMachine (installRuntime r)
      let _ ← save r .runtimeInstalled
    onMachine (acceptance r)
    let s ← Proc.read
    let _ ← save r .persistenceReboot (fun j => { j with runtimeBootBefore := some s.host.bootId })
    onMachine scheduleReboot
    pure (some { stage := .persistenceReboot })

/-- `advance` once the packages are in place. A failure rolls the application back. -/
def advanceRuntime (r : Release) : HostTask HostReply := do
  let answer ← Proc.handle (acceptRuntime r) fun e =>
    if e.isFailure then do
      let _ ← rollback r
      fail 69 "application-rolled-back"
    else Proc.raise e
  match answer with
  | some reply => pure reply
  | none => do
    onMachine (atomic fun _ s => s.setSnapshot r.id none)
    save r .closed

/-- `advance` from `reboot-pending`, on another boot: the transaction succeeded. -/
def confirmPackages (r : Release) : HostTask HostReply := do
  let _ ← onMachine instant
  let found ← onMachine packageBaseline
  require (found = r.installedAfter) "package-replay-result-mismatch"
  onMachine (requireComplete (packagesDirectory r.id) r.baseline)
  preflight
  let _ ← save r .runtimePending
  advanceRuntime r

/-- `Host.advance`. -/
def advance (r : Release) : HostTask HostReply := do
  let s ← Proc.read
  match s.state.phase with
  | .closed => do
    onMachine (healthy r.image)
    save r .closed
  | .credentialReady => stagePackages r
  | .rebootPending =>
    match s.state.bootBefore with
    | none => Proc.raise .keyError
    | some boot =>
      if s.host.bootId = boot then pure { stage := .rebootPending } else confirmPackages r
  | .persistenceReboot =>
    match s.state.runtimeBootBefore with
    | none => Proc.raise .keyError
    | some boot =>
      if s.host.bootId = boot then pure { stage := .persistenceReboot } else advanceRuntime r
  | .runtimePending | .runtimeInstalled => advanceRuntime r
  | _ => fail 75 "release-needs-recovery"

/-! The entry point. -/

inductive Action where
  | backupGuard
  | snapshot
  | backupVerified (receipt : BackupReceipt)
  | credential (key : Option Key)
  | rollback
  | check
  | status
  | deploy
  | upgrade
  deriving DecidableEq, Repr

/-- `check` and `status`. -/
def hostStatus (r : Release) : HostTask HostReply := do
  preflight
  let s ← Proc.read
  onlyIf (s.state.phase = .closed) (onMachine (healthy r.image))
  pure { stage := s.state.phase }

/-- `backup-guard`, once it holds the lock. -/
def backupGuard (r : Release) : HostTask HostReply := do
  let s ← Proc.read
  if s.state.phase.preStaging then rollback r else pure { stage := s.state.phase }

/-- `main`, after the journal was read. -/
def hostMain (r : Release) : Action → HostTask HostReply
  | .backupGuard => backupGuard r
  | .snapshot => snapshotData r
  | .backupVerified receipt => acknowledgeBackup r receipt
  | .credential key => credential r key
  | .rollback => rollback r
  | .check | .status => hostStatus r
  | .deploy | .upgrade => advance r

/-- A process of the entry point, with the journal it read. -/
def runHost (r : Release) (a : Action) (state : Journal) : Task Machine HostReply :=
  Proc.zoom (fun m => Session.mk m state) (fun _ s => s.host) (hostMain r a)

/-- A process of the entry point that reads the journal as it is. -/
def invoke (r : Release) (a : Action) : Task Machine HostReply := do
  let s ← Proc.read
  runHost r a (s.journalOf r.id)

end Hermes

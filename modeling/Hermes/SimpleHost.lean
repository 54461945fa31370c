import Hermes.Machine

/- `simple/host.py`: the installer of the application alone.

   A process of the installer is an `Action`: it works on the host and on the
   journal in memory (`state`), which `save` writes to `STATE`. Between any two of
   its operations time passes (`pass`), and a guard timer may go off while the
   process holds the lock; the recovery it starts then gives up. -/
namespace Hermes.Simple
open Process

variable {α : Type}

/-! The data. -/

/-- The deployment configuration that the controller sends. -/
structure Config where
  target : String
  identityFile : String := ""
  knownHostsFile : String := ""
  managementCidr : String
  managementInterface : String
  image : String
  provider : String
  model : String
  deriving DecidableEq, Repr

/-- The payload, by file name. -/
abbrev Payload : Type := List (String × String)

/-- `config_fingerprint`: the digest of the configuration and the payload, as the free
    term over what it covers. -/
structure Fingerprint where
  config : Config
  files : Payload
  deriving DecidableEq, Repr

def configFingerprint (config : Config) (files : Payload) : Fingerprint :=
  ⟨{ config with
      identityFile := ""
      knownHostsFile := "" }, files⟩

/-- The paths that the installer tracks. -/
inductive Path where
  /-- `/etc/firewalld/zones/<zone>.xml` -/
  | zone (name : String)
  /-- `SSH_CONFIG` -/
  | sshConfig
  /-- `LIB / "runtime-materialize.py"` -/
  | materializer
  /-- `/etc/systemd/system/hermes-simple-credentials.service` -/
  | credentialsService
  /-- `/etc/systemd/system/user@<uid>.service.d/80-hermes-simple.conf` -/
  | manager (uid : Nat)
  /-- `/etc/containers/systemd/users/<uid>/hermes.container` -/
  | container (uid : Nat)
  /-- `/etc/systemd/user/hermes.service.d/<name>` -/
  | serviceDropin (name : String)
  deriving DecidableEq, Repr

structure File where
  data : String
  mode : Nat
  deriving DecidableEq, Repr

inductive Phase where
  | preparing
  | backupVerified
  | awaitingAccess
  | accessConfirmed
  | installing
  | rollingBack
  | closed
  | rolledBack
  deriving DecidableEq, Repr

/-- The phases in which nothing is left half done. -/
def Phase.final : Phase → Bool
  | .closed | .rolledBack => true
  | _ => false

/-- The journal. Of the deployment before (`previous`) only the configuration is read. -/
structure State where
  phase : Option Phase := none
  config : Option Config := none
  fingerprint : Option Fingerprint := none
  token : Option String := none
  files : List (Path × Option File) := []
  previous : Option Config := none
  guard : Option String := none
  createdAccount : Bool := false
  uid : Option Nat := none
  backup : Option String := none
  backupSha256 : Option Digest := none
  createdCredential : Bool := false
  deriving DecidableEq, Repr

/-- What became of the guard timers of the attempt. No modelled function reads it. -/
structure Watch where
  /-- the timer that was started last -/
  unit : Option String := none
  /-- the recovery that it starts has taken the lock -/
  begun : Bool := false
  /-- it was stopped -/
  between : Bool := false
  /-- it went off, and the recovery that it starts did not take the lock, or took it before
      a rollback was recorded -/
  missed : Bool := false
  deriving DecidableEq, Repr

/-- A rollback is recorded: a recovery that has begun before does not count for it. -/
def Watch.reopened (w : Watch) : Watch :=
  { w with
    begun := false
    missed := w.missed || w.begun }

/-- The recovery of the timer has the lock. -/
def Watch.taken (w : Watch) : Watch :=
  { w with
    begun := true
    missed := false }

/-- What an attempt finds on the host and is to leave as it was. No modelled function
    reads it. -/
structure Before where
  key : Option String
  data : Option String
  files : Path → Option File

/-- What a recovery finds when it begins. No modelled function reads it. -/
structure Undone where
  state : State
  key : Option String
  data : Option String

/-- The host as far as the installer reads or changes it. -/
structure Host where
  /-- `STATE` -/
  journal : Option State
  account : Option Account
  /-- what is in `/home/hermes/data`, where it exists -/
  data : Option String
  /-- `KEY` -/
  key : Option String
  files : Path → Option File
  /-- `LIB` -/
  library : String → Option String
  /-- `hermes-simple-recovery.service` -/
  recoveryUnit : Bool
  /-- `ROOT / "backup.cred"` -/
  backupCred : Bool
  /-- the backup repository, and what is in it -/
  repository : Bool
  snapshots : String → Option String
  /-- the firewall zones as they were loaded -/
  firewall : String → Option File
  /-- `hermes.service` is running -/
  active : Bool
  /-- `/run/hermes-simple-secrets/provider.env` -/
  providerEnv : Bool
  /-- the guard timers that are pending -/
  timers : String → Bool
  watch : Watch := {}
  /-- what the attempt of the journal found -/
  before : Option Before := none
  /-- what the last recovery found -/
  undone : Option Undone := none

/-- A process: the host, and the journal in memory. -/
structure Session where
  host : Host
  state : State

abbrev Action (α : Type) : Type := Task Session α

def Session.onHost (s : Session) (f : Host → Host) : Session := { s with host := f s.host }

def Session.onState (s : Session) (f : State → State) : Session := { s with state := f s.state }

def Host.setFile (h : Host) (path : Path) (file : Option File) : Host :=
  { h with files := fun p => if p = path then file else h.files p }

/-- A guard timer is started. -/
def Host.startTimer (h : Host) (unit : String) : Host :=
  { h with
    timers := fun u => u = unit || h.timers u
    watch := { unit := some unit } }

/-- A guard timer is stopped. -/
def Host.stopTimer (h : Host) (unit : String) : Host :=
  { h with
    timers := fun u => u != unit && h.timers u
    watch := { h.watch with between := h.watch.between || h.watch.unit == some unit } }

/-- These timers go off. -/
def Host.elapse (h : Host) (units : List String) : Host :=
  { h with
    timers := fun u => !units.contains u && h.timers u
    watch := { h.watch with
      missed := h.watch.missed || h.watch.unit.any (fun u => units.contains u && h.timers u) } }

/-- What the code reads from the journal. -/
def Host.state (h : Host) : State := h.journal.getD {}

/-- The attempt is over. -/
def Host.final (h : Host) : Bool := h.state.phase.any Phase.final

/-- The journal of a new attempt is written. -/
def Host.begin (h : Host) : Host :=
  { h with
    watch := {}
    before := some ⟨h.key, h.data, h.files⟩ }

/-- A rollback is recorded. -/
def Host.reopen (h : Host) : Host := { h with watch := h.watch.reopened }

/-! Commands and files. -/

/-- `raise Failure(reason)`. -/
def failure (reason : String) : Action α := Proc.raise (.failure 1 reason)

/-- `require(value, reason)`. -/
def check (value : Bool) (reason : String) : Action Unit := require value reason 1

/-- Time passes. -/
def pass : Action Unit :=
  Proc.perform fun m s =>
    (if m.verdict = .killed then .error .killed else .ok (), s.onHost (·.elapse m.elapsed))

/-- Look at something outside. -/
def look : Action Moment := do
  pass
  instant

/-- The exception of a command, as this program raises it. -/
def commandError (name : String) : Exc → Exc
  | .failure 69 "operation-failed" => .failure 1 ("command-failed:" ++ name)
  | .failure 69 "operation-timeout" => .timeoutExpired
  | .failure 69 "required-command-unavailable" => .osError
  | e => e

/-- `run(args)`. -/
def run (name : String) (can : Session → Bool) (effect : Moment → Session → Session)
    (output : Moment → Session → α) : Action α := do
  pass
  Proc.handle (Hermes.run can effect output) fun e => Proc.raise (commandError name e)

/-- `run(args)` for its effect on the host. -/
def command (name : String) (can : Host → Bool := fun _ => true)
    (effect : Moment → Host → Host := fun _ h => h) : Action Unit :=
  run name (fun s => can s.host) (fun m s => s.onHost (effect m)) (fun _ _ => ())

/-- `run(args, allow=True)`: an exit status other than 0 is no failure. -/
def commandAllowed (name : String) (can : Host → Bool := fun _ => true)
    (effect : Moment → Host → Host := fun _ h => h) : Action Unit :=
  Proc.handle (command name can effect) fun e =>
    if e = .failure 1 ("command-failed:" ++ name) then pure () else Proc.raise e

/-- `pwd.getpwnam("hermes")`. -/
def accountEntry : Action Account := do
  let s ← Proc.read
  match s.host.account with
  | none => Proc.raise .keyError
  | some account => pure account

/-- `user(args)`. -/
def user (can : Host → Bool := fun _ => true) (effect : Moment → Host → Host := fun _ h => h) :
    Action Unit := do
  let _ ← accountEntry
  command "runuser" can effect

/-- `user(args)` for its output. -/
def userOutput (can : Host → Bool) (output : Moment → Host → α) : Action α := do
  let _ ← accountEntry
  run "runuser" (fun s => can s.host) (fun _ s => s) (fun m s => output m s.host)

/-- `user(args, allow=True)`. -/
def userAllowed (effect : Moment → Host → Host := fun _ h => h) : Action Unit := do
  let _ ← accountEntry
  commandAllowed "runuser" (fun _ => true) effect

/-- `service("stop", "hermes.service", allow=True)`. -/
def stopServiceAllowed : Action Unit := userAllowed (fun _ h => { h with active := false })

/-- `protected(path)`. -/
def protect : Action Unit := do
  let m ← look
  check m.platform.trustedParents "unsafe-managed-path"

/-- The write of `atomic`, and other single file operations. -/
def change (effect : Moment → Host → Host) : Action Unit := do
  pass
  atomic fun m s => s.onHost (effect m)

/-- `atomic(path, data, mode)`. -/
def writeFile (path : Path) (file : File) : Action Unit := do
  protect
  change fun _ h => h.setFile path (some file)

/-- `save(state, phase)`; `note` is what the write of the journal means beside it. -/
def save (phase : Option Phase := none) (note : Host → Host := id) : Action Unit := do
  Proc.update (·.onState fun st => { st with phase := phase.or st.phase })
  protect
  pass
  atomic fun _ s => s.onHost fun h => note { h with journal := some s.state }

/-- A value of the journal without which the code raises `KeyError`. -/
def field (value : State → Option α) : Action α := do
  let s ← Proc.read
  match value s.state with
  | none => Proc.raise .keyError
  | some a => pure a

/-! The steps of an installation. -/

/-- `preflight`, of which only the first refusal is modelled: what it checks, no step of
    the installation changes. -/
def preflight (_config : Config) : Action Unit := do
  let m ← look
  match m.refusal with
  | none => pure ()
  | some reason => failure reason

/-- `PAYLOAD`. -/
def payloadNames : List String :=
  ["60-hermes-runtime.conf", "70-hermes-volume-label.conf", "data.py", "harden-config.py",
    "hermes.container", "host.py", "materialize.py", "set-model.py"]

def Payload.complete (files : Payload) : Bool :=
  files.length == payloadNames.length && payloadNames.all (fun n => files.any (fun f => f.1 == n))

def installPayload (files : Payload) : Action Unit := do
  check files.complete "payload-files-invalid"
  protect
  Proc.forEach files fun f => do
    check (decide (f.2.utf8ByteSize < 512 * 1024)) "payload-too-large"
    protect
    change fun _ h => { h with library := fun n => if n = f.1 then some f.2 else h.library n }

/-- `track`. -/
def track (path : Path) : Action Unit := do
  protect
  let s ← Proc.read
  if s.state.files.any (fun f => f.1 == path) then pure ()
  else do
    pass
    Proc.update fun s => s.onState fun st => { st with files := st.files ++ [(path, s.host.files path)] }
    save

/-- `write`. -/
def write (path : Path) (data : String) : Action Unit := do
  track path
  writeFile path ⟨data, 0o644⟩

/-- The unit name of the guard of an attempt. -/
def guardName (token : String) : String :=
  "hermes-simple-recovery-" ++ String.ofList (token.toList.take 16)

/-- `arm`. When the timer goes off is left open. -/
def arm (_seconds : Nat) : Action Unit := do
  let token ← field (·.token)
  Proc.update (·.onState fun st => { st with guard := some (guardName token) })
  save
  command "systemd-run" (fun h => !h.timers (guardName token))
    (fun _ h => h.startTimer (guardName token))

/-- `disarm`. -/
def disarm : Action Unit := do
  let s ← Proc.read
  match s.state.guard with
  | none => pure ()
  | some unit => commandAllowed "systemctl" (fun _ => true) (fun _ h => h.stopTimer unit)

def setupRecovery : Action Unit := do
  protect
  change fun _ h => { h with recoveryUnit := true }
  command "systemctl"
  command "systemctl"

/-- `re.fullmatch(r"[A-Za-z0-9_-]+", zone)`. -/
def isZone (zone : String) : Bool := isWord zone

/-- The text of `SSH_CONFIG`. -/
def sshText (admin : String) : String :=
  "PasswordAuthentication no\nKbdInteractiveAuthentication no\n" ++
  "PubkeyAuthentication yes\nPermitRootLogin no\nAllowUsers " ++ admin ++ "\n" ++
  "AllowTcpForwarding no\nX11Forwarding no\nPermitTunnel no\nGatewayPorts no\n"

/-- `config["target"].split("@")[0]`. -/
def adminOf (target : String) : String := String.ofList (target.toList.takeWhile (· != '@'))

/-- A change of the permanent rules of a zone. -/
def changeZone (zone : String) : Action Unit :=
  command "firewall-cmd" (fun _ => true) fun m h => h.setFile (.zone zone) (some ⟨m.text, 0o600⟩)

/-- `firewall-cmd --reload`. -/
def Host.reloadFirewall (h : Host) : Host := { h with firewall := fun z => h.files (.zone z) }

/-- The zone of the management interface, or the default zone. -/
def managementZone : Action String := do
  let zone ← run "firewall-cmd" (fun _ => true) (fun _ s => s) (fun m _ => strip m.text)
  if zone = "" || zone = "no zone" then
    run "firewall-cmd" (fun _ => true) (fun _ s => s) (fun m _ => strip m.text)
  else pure zone

/-- `configure_access`. What `--list-all` prints is taken to be the zone itself, as it
    was loaded and as its file has it. -/
def configureAccess : Action Unit := do
  let config ← field (·.config)
  let zone ← managementZone
  check (isZone zone) "firewall-zone-invalid"
  track (.zone zone)
  let runtime ← run "firewall-cmd" (fun _ => true) (fun _ s => s) (fun _ s => s.host.firewall zone)
  let permanent ← run "firewall-cmd" (fun _ => true) (fun _ s => s)
    (fun _ s => s.host.files (.zone zone))
  check (runtime = permanent) "firewall-runtime-permanent-drift"
  write .sshConfig (sshText (adminOf config.target))
  command "sshd"
  changeZone zone
  changeZone zone
  changeZone zone
  changeZone zone
  let ports ← run "firewall-cmd" (fun _ => true) (fun _ s => s) (fun m _ => m.platform.openPorts)
  check (!ports) "unmanaged-firewall-ports"
  save
  command "firewall-cmd" (fun _ => true) (fun _ h => h.reloadFirewall)
  command "systemctl"

def identity : Action Account := do
  let s ← Proc.read
  onlyIf s.host.account.isNone do
    Proc.update (·.onState fun st => { st with createdAccount := true })
    save
    command "useradd" (fun h => h.account.isNone)
      (fun m h => { h with account := some ⟨m.newUid, "/home/hermes"⟩ })
  let account ← accountEntry
  check (account.home == "/home/hermes" && decide (1000 ≤ account.uid)) "unsafe-hermes-account"
  let m ← look
  check (!m.platform.linkedHome) "unsafe-hermes-home"
  check (!m.platform.sshKeys) "hermes-has-ssh-keys"
  let privileged ← run "id" (fun _ => true) (fun _ s => s) (fun m _ => m.platform.privileged)
  check (!privileged) "privileged-hermes-account"
  let m ← look
  check m.platform.subordinateIds "missing-subordinate-ids"
  command "passwd"
  command "loginctl"
  command "systemctl"
  user
  user (fun _ => true) (fun _ h => { h with data := some (h.data.getD "") })
  Proc.update (·.onState fun st => { st with uid := some account.uid })
  save
  pure account

/-- `snapshot`. -/
def snapshot : Action Unit := do
  let s ← Proc.read
  onlyIf (!s.host.backupCred) do
    command "systemd-creds"
    protect
    change fun _ h => { h with backupCred := true }
  let s ← Proc.read
  onlyIf (!s.host.repository) (command "restic" (fun _ => true) (fun _ h => { h with repository := true }))
  let archive ← userOutput (fun h => h.data.isSome) (fun _ h => h.data.getD "")
  let id ← run "restic" (fun _ => true)
    (fun m s => s.onHost fun h => { h with
      snapshots := fun i => if i = m.token then some archive else h.snapshots i })
    (fun m _ => m.token)
  let restored ← run "restic" (fun s => (s.host.snapshots id).isSome) (fun _ s => s)
    (fun _ s => (s.host.snapshots id).getD "")
  check (restored = archive) "backup-readback-mismatch"
  Proc.update (·.onState fun st => { st with
    backup := some id
    backupSha256 := some (digest archive) })
  save (some .backupVerified)

/-- `len(key) <= 8192 and not any(c.isspace() for c in key) and "\x00" not in key`. -/
def usableKey (key : String) : Bool :=
  decide (key.length ≤ 8192) && !key.toList.any (fun c => isSpace c || c.toNat == 0)

/-- The truth value of `request.get("key")`. -/
def given (key : Option String) : Bool := key.any (· != "")

def credentials (key : Option String) : Action Unit := do
  onlyIf (given key) do
    check (usableKey (key.getD "")) "invalid-key"
    let s ← Proc.read
    check s.host.key.isNone "credential-rotation-requires-separate-provisioning"
    Proc.update (·.onState fun st => { st with createdCredential := true })
    save
    command "systemd-creds"
    protect
    change fun _ h => { h with key := key }
  let s ← Proc.read
  check s.host.key.isSome "one-time-api-key-required"

def healthy (config : Config) (inference : Bool := false) : Action Unit := do
  let value ← userOutput (fun h => h.active) (fun m _ => m.inspection)
  check value.healthy "runtime-unhealthy"
  check (value.imageName == config.image) "runtime-image-mismatch"
  check (value.readonlyRootfs && !value.privileged && !value.devices && !value.publishedPorts &&
    value.pidsLimit == 512) "runtime-isolation-mismatch"
  check value.noNewPrivileges "privilege-escalation-enabled"
  check value.mounted "runtime-mounts-mismatch"
  onlyIf inference do
    let response ← userOutput (fun h => h.active) (fun m _ => m.inference)
    check (rstripChar '\n' response == "HERMES_OK") "inference-not-exact"

/-- The rounds of `wait_health`. -/
def waitRounds (config : Config) : Nat → Action Unit
  | 0 => failure "runtime-health-timeout"
  | n + 1 => Proc.handle (healthy config) fun e =>
      if e.isFailure then do
        pass
        waitRounds config n
      else Proc.raise e

def waitHealth (config : Config) : Action Unit := waitRounds config 36

/-- `(LIB / name).read_text()`. -/
def readLibrary (name : String) : Action String := do
  pass
  let s ← Proc.read
  match s.host.library name with
  | none => Proc.raise .osError
  | some text => pure text

/-- The materializer of the simple profile. -/
def materializerText (text : String) : String :=
  replaceText (replaceText text "/run/hermes-secrets" "/run/hermes-simple-secrets")
    "lines.append(\"OPENAI_API_KEY=\" + key)"
    ("lines = [line for line in lines if line.split(\"=\", 1)[0].strip() not in " ++
      "(\"API_SERVER_ENABLED\", \"HERMES_DASHBOARD\", \"GATEWAY_ALLOW_ALL_USERS\", \"WEBHOOK_ENABLED\")]\n" ++
      "    lines.extend([\"API_SERVER_ENABLED=false\", \"HERMES_DASHBOARD=0\", " ++
      "\"GATEWAY_ALLOW_ALL_USERS=false\", \"WEBHOOK_ENABLED=false\"])\n" ++
      "    lines.append(\"OPENAI_API_KEY=\" + key)")

def credentialUnitText (uid : Nat) : String :=
  "[Unit]\nRequires=user-runtime-dir@" ++ toString uid ++ ".service\nAfter=user-runtime-dir@" ++
  toString uid ++ ".service\n[Service]\nType=oneshot\nRemainAfterExit=true\n" ++
  "LoadCredentialEncrypted=openai-api:/etc/credstore.encrypted/hermes-simple-openai\n" ++
  "ExecStart=/usr/bin/python3 -I /usr/local/libexec/hermes-simple/runtime-materialize.py\n" ++
  "UMask=0077\nLimitCORE=0\nStandardOutput=null\nStandardError=null\n"

def managerText : String :=
  "[Unit]\nRequires=hermes-simple-credentials.service\nAfter=hermes-simple-credentials.service\n"

/-- `re.sub(r"^Image=.*$", "Image=" + image, text, flags=re.M)`. -/
def withImage (image text : String) : String :=
  joinLines ((text.toList.splitOn '\n').map fun line =>
    if "Image=".toList.isPrefixOf line then "Image=" ++ image else String.ofList line)

def containerText (image text : String) : String :=
  replaceText (withImage image text) "[Container]\n"
    "[Container]\nVolume=/run/hermes-simple-secrets/provider.env:/opt/data/.env:ro,z\n"

/-- Copy a drop-in of the service from the library. -/
def installDropin (name : String) : Action Unit := do
  let text ← readLibrary name
  write (.serviceDropin name) text

/-- `runtime`. -/
def runtime : Action Unit := do
  let config ← field (·.config)
  let uid ← field (·.uid)
  user
  user
  let _harden ← readLibrary "harden-config.py"
  let _setModel ← readLibrary "set-model.py"
  user (fun _ => true) (fun m h => { h with data := some m.text })
  let materializer ← readLibrary "materialize.py"
  write .materializer (materializerText materializer)
  write .credentialsService (credentialUnitText uid)
  write (.manager uid) managerText
  let unit ← readLibrary "hermes.container"
  write (.container uid) (containerText config.image unit)
  installDropin "60-hermes-runtime.conf"
  installDropin "70-hermes-volume-label.conf"
  command "systemctl"
  command "systemctl" (fun h => h.key.isSome) (fun _ h => { h with providerEnv := true })
  command "systemctl" (fun h => h.account.isSome)
  user
  user (fun h => h.key.isSome) (fun _ h => { h with active := true })
  waitHealth config
  healthy config true

/-! Recovery. -/

/-- One record of `state["files"]`. -/
def restoreFile (record : Path × Option File) : Action Unit := do
  protect
  match record.2 with
  | none => change fun _ h => h.setFile record.1 none
  | some file => writeFile record.1 file

/-- The application data of the backup. -/
def restoreBackup (id : String) : Action Unit := do
  let archive ← run "restic" (fun s => (s.host.snapshots id).isSome) (fun _ s => s)
    (fun _ s => (s.host.snapshots id).getD "")
  let s ← Proc.read
  match s.state.backupSha256 with
  | none => Proc.raise .keyError
  | some sha =>
    check (digest archive = sha) "rollback-backup-mismatch"
    user (fun h => h.data.isSome) (fun _ h => { h with data := some archive })

/-- `if state.get("backup")`. -/
def restoreRecorded : Option String → Action Unit
  | none => pure ()
  | some id => restoreBackup id

/-- Start the deployment before again. -/
def restartPrevious (previous : Config) : Action Unit := do
  let s ← Proc.read
  onlyIf (s.host.files .credentialsService).isSome
    (command "systemctl" (fun h => h.key.isSome) (fun _ h => { h with providerEnv := true }))
  let _uid ← field (·.uid)
  command "systemctl" (fun h => h.account.isSome)
  user
  user (fun h => h.key.isSome) (fun _ h => { h with active := true })
  waitHealth previous
  healthy previous true

/-- Remove the account that the attempt created, with everything in its home. -/
def removeAccount : Action Unit := do
  stopServiceAllowed
  userAllowed
  command "loginctl" (fun h => h.account.isSome)
  let _uid ← field (·.uid)
  commandAllowed "systemctl"
  command "userdel" (fun h => h.account.isSome)
    (fun _ h => { h with
      account := none
      data := none })
  let s ← Proc.read
  onlyIf s.state.createdCredential (change fun _ h => { h with key := none })
  change fun _ h => { h with providerEnv := false }

/-- What `recover` does before it stops the guard. -/
def undo : Action Unit := do
  let s ← Proc.read
  onlyIf s.state.uid.isSome stopServiceAllowed
  restoreRecorded s.state.backup
  Proc.forEach s.state.files.reverse restoreFile
  command "systemctl"
  commandAllowed "firewall-cmd" (fun _ => true) (fun _ h => h.reloadFirewall)
  command "sshd"
  command "systemctl"
  match s.state.previous with
  | some previous => restartPrevious previous
  | none => onlyIf s.state.createdAccount removeAccount

/-- A recovery begins. -/
def Session.beginRecovery (s : Session) : Session :=
  s.onHost fun h => { h with undone := some ⟨s.state, h.key, h.data⟩ }

def recover : Action Unit := do
  let s ← Proc.read
  if s.state.phase.any Phase.final then pure ()
  else do
    Proc.update Session.beginRecovery
    undo
    disarm
    save (some .rolledBack)

/-! Requests. -/

inductive Request where
  | check (config : Config)
  | status
  | recover
  | rollback
  | prepare (config : Config) (files : Payload) (key : Option String)
  | confirmAccess (config : Config) (token : String)
  | deploy (config : Config) (token : String)

inductive Answer where
  | checked
  | closed (image : String)
  | unchanged
  | awaitingAccess (token : String)
  | accessConfirmed
  | rolledBack
  deriving DecidableEq, Repr

/-- `fcntl.flock(lock, LOCK_EX | LOCK_NB)`; `byTimer` for the recovery that the guard timer
    of the attempt has started. -/
def takeLock (byTimer : Bool) : Action Unit :=
  Proc.perform fun m s =>
    if m.verdict = .done then
      (.ok (), s.onHost fun h => { h with watch := if byTimer then h.watch.taken else h.watch })
    else if m.verdict = .killed then (.error .killed, s)
    else (.error .osError, s)

/-- `except Exception: recover(state); raise`. -/
def orRecover (x : Action α) : Action α :=
  Proc.handle x fun e =>
    if e = .killed then Proc.raise e
    else do
      recover
      Proc.raise e

/-- What `prepare` checks before it changes anything. -/
def admissible (key : Option String) (previous : Option Config) : Action Unit := do
  let s ← Proc.read
  onlyIf previous.isNone (Simple.check s.host.data.isNone "unmanaged-existing-hermes-data")
  Simple.check (given key || s.host.key.isSome) "one-time-api-key-required"
  onlyIf (s.host.key.isSome && given key) (failure "credential-already-provisioned")

/-- The part of `prepare` under its `try`, up to the phase `awaiting-access`. -/
def prepareHost (config : Config) (key : Option String) (previous : Option Config) : Action Unit := do
  command "dnf5"
  commandAllowed "systemctl"
  save
  command "systemctl"
  let _ ← identity
  credentials key
  user
  let pulled ← userOutput (fun _ => true) (fun m _ => m.inspection.imageName)
  check (pulled == config.image) "pulled-digest-mismatch"
  onlyIf previous.isSome do
    user (fun _ => true) (fun _ h => { h with active := false })
    snapshot
  configureAccess
  save (some .awaitingAccess)

/-- A new attempt: its journal, its guard and its preparation. -/
def attempt (config : Config) (files : Payload) (key : Option String) (previous : Option Config) :
    Action Answer := do
  installPayload files
  let m ← look
  Proc.update fun s => { s with state := {
    config := some config
    fingerprint := some (configFingerprint config files)
    token := some m.token
    previous := previous } }
  save (some .preparing) Host.begin
  setupRecovery
  arm 1200
  orRecover do
    prepareHost config key previous
    disarm
    arm 120
    let token ← field (·.token)
    pure (.awaitingAccess token)

/-- `state if state.get("phase") == "closed" else state.get("previous")`, of which only the
    configuration is kept. -/
def State.deployment (st : State) : Option Config :=
  if st.phase = some .closed then st.config else st.previous

def prepare (config : Config) (files : Payload) (key : Option String) : Action Answer := do
  preflight config
  let s ← Proc.read
  onlyIf (s.state != {} && !s.state.phase.any Phase.final) recover
  let s ← Proc.read
  if s.state.phase = some .closed && s.state.fingerprint = some (configFingerprint config files) &&
      !given key then do
    healthy config true
    pure .unchanged
  else do
    admissible key s.state.deployment
    attempt config files key s.state.deployment

/-- `require(state.get("token") == ... and state.get("config") == config)`. -/
def bound (config : Config) (token : String) : Action Unit := do
  let s ← Proc.read
  Simple.check (s.state.token = some token && s.state.config = some config) "transaction-binding-mismatch"

def confirmAccess (config : Config) : Action Answer := do
  let s ← Proc.read
  Simple.check (s.state.phase = some .awaitingAccess) "access-phase-mismatch"
  preflight config
  save (some .accessConfirmed)
  disarm
  arm 600
  pure .accessConfirmed

def deploy (config : Config) : Action Answer := do
  let s ← Proc.read
  Simple.check (s.state.phase = some .accessConfirmed) "deployment-phase-mismatch"
  orRecover do
    save (some .installing)
    runtime
    save (some .closed)
    disarm
    pure (.closed config.image)

def rollback : Action Answer := do
  let s ← Proc.read
  Simple.check (s.state.phase = some .closed && s.state.previous.isSome) "no-previous-deployment"
  save (some .rollingBack) Host.reopen
  arm 600
  recover
  pure .rolledBack

/-- `dispatch` under the lock. -/
def dispatchLocked : Request → Action Answer
  | .recover => do
    recover
    pure .rolledBack
  | .rollback => rollback
  | .prepare config files key => prepare config files key
  | .confirmAccess config token => do
    bound config token
    confirmAccess config
  | .deploy config token => do
    bound config token
    deploy config
  | .check _ | .status => failure "unsupported-action"

/-- `status`. -/
def status : Action Answer := do
  let s ← Proc.read
  Simple.check s.host.journal.isSome "not-installed"
  let state := s.host.journal.getD {}
  Simple.check (state.phase = some .closed) "deployment-not-closed"
  match state.config with
  | none => Proc.raise .keyError
  | some config => do
    healthy config
    pure (.closed config.image)

def dispatch (byTimer : Bool) : Request → Action Answer
  | .check config => do
    preflight config
    pure .checked
  | .status => do
    protect
    status
  | request => do
    protect
    takeLock byTimer
    Proc.update fun s => { s with state := s.host.journal.getD {} }
    dispatchLocked request

/-- A process of the installer on the host. -/
def invoke (byTimer : Bool) (request : Request) : Task Host Answer :=
  Proc.zoom (fun h => ⟨h, {}⟩) (fun _ s => s.host) (dispatch byTimer request)

/-! A host and an installation for the examples. -/

/-- A host without any deployment. -/
def cleanHost : Host where
  journal := none
  account := none
  data := none
  key := none
  files := fun _ => none
  library := fun _ => none
  recoveryUnit := false
  backupCred := false
  repository := false
  snapshots := fun _ => none
  firewall := fun _ => none
  active := false
  providerEnv := false
  timers := fun _ => false

def sampleConfig : Config where
  target := "admin@host"
  managementCidr := "192.0.2.0/24"
  managementInterface := "eth0"
  image := "image"
  provider := "openai-api"
  model := "model"

def samplePayload : Payload := payloadNames.map fun name => (name, "text")

/-- A moment of the installation in which everything succeeds. -/
def sampleMoment : Moment where
  inspection := { imageName := "image" }
  token := "0123456789abcdef0123"
  text := "public"

end Hermes.Simple

import Hermes.Common

/- The console setup of key-only SSH (`setup-ssh-key-only.sh`): `apply_config` and the
   rollback that its exit trap runs.

   A command may fail, with its effect or without, and a handled signal is a command that
   ended the run: the shell takes a signal between two commands, and only assignments stand
   between the others. What a run asks of the host (the firewall's rules, the configuration
   files, a validation by sshd) is answered by the outside. Of a file only the bytes are
   modelled, of the directory its attributes too; of a running service what it was started
   or reloaded with. Installed packages and new host keys stay, as the script says. -/
namespace Hermes.SshSetup
open Process

/-- `.ssh` with the `authorized_keys` in it. -/
structure Dir where
  mode : Nat
  owner : String
  context : String
  authorized : Option String
  deriving DecidableEq, Repr

/-- An installed service; `running` is what the running one holds. -/
structure Service (γ : Type) where
  enabled : Bool
  running : Option γ
  deriving DecidableEq, Repr

/-- The host. A running sshd holds the drop-in that it read, a running firewalld its runtime
    allowance of SSH. -/
structure Host where
  dropin : Option String
  sshDir : Option Dir
  permanent : Bool
  sshd : Option (Service (Option String))
  firewalld : Option (Service Bool)
  selinux : Bool
  deriving DecidableEq, Repr

inductive Svc where
  | sshd
  | firewalld
  deriving DecidableEq, Repr

/-- What `service_snapshot` keeps: whether the service is enabled, and active. -/
structure Snapshot where
  enabled : Bool
  active : Bool
  deriving DecidableEq, Repr

/-- The host and the variables of the script, with the files of `$backup`. -/
structure Setup extends Host where
  old : Svc → Snapshot
  filesTouched : Bool := false
  firewallTouched : Bool := false
  servicesTouched : Bool := false
  oldRuntime : Option Bool := none
  oldPermanent : Option Bool := none
  backupDropin : Option String := none
  backupAuthorized : Option String := none
  hadSshdir : Bool := false
  dirMode : Nat := 0
  dirOwner : String := ""
  /-- `?` is `none` -/
  dirContext : Option String := none
  failed : Bool := false

/-! ## The services -/

section Services

variable {γ : Type}

/-- A service that runs is not started again. -/
def Service.start (fresh : γ) (s : Service γ) : Service γ :=
  { s with running := some (s.running.getD fresh) }

def Service.stop (s : Service γ) : Service γ := { s with running := none }

def Service.reload (fresh : γ) (s : Service γ) : Service γ := { s with running := s.running.map fun _ => fresh }

/-- Whether it is enabled, where it is installed. -/
def isEnabled (s : Option (Service γ)) : Bool := s.any Service.enabled

def running (s : Option (Service γ)) : Option γ := s.bind Service.running

def snapshotOf (s : Option (Service γ)) : Snapshot := { enabled := isEnabled s, active := (running s).isSome }

end Services

/-- `service_snapshot` -/
def Host.snapshot (h : Host) : Svc → Snapshot
  | .sshd => snapshotOf h.sshd
  | .firewalld => snapshotOf h.firewalld

def Setup.installed (s : Setup) : Svc → Bool
  | .sshd => s.sshd.isSome
  | .firewalld => s.firewalld.isSome

/-- A command that the outside decides. -/
def check (_what : String) : Task Setup Unit := command (fun _ => true) (fun _ s => s)

/-- `systemctl start` -/
def start (svc : Svc) : Task Setup Unit :=
  command (fun s => s.installed svc) fun _ s =>
    match svc with
    | .sshd => { s with sshd := s.sshd.map (Service.start s.dropin) }
    | .firewalld => { s with firewalld := s.firewalld.map (Service.start s.permanent) }

/-- `systemctl stop` -/
def stop (svc : Svc) : Task Setup Unit :=
  command (fun s => s.installed svc) fun _ s =>
    match svc with
    | .sshd => { s with sshd := s.sshd.map Service.stop }
    | .firewalld => { s with firewalld := s.firewalld.map Service.stop }

/-- `systemctl enable` and `systemctl disable` -/
def setEnabled (svc : Svc) (enabled : Bool) : Task Setup Unit :=
  command (fun s => s.installed svc) fun _ s =>
    match svc with
    | .sshd => { s with sshd := s.sshd.map fun v => { v with enabled } }
    | .firewalld => { s with firewalld := s.firewalld.map fun v => { v with enabled } }

/-- `systemctl reload sshd` -/
def reloadSshd : Task Setup Unit :=
  command (fun s => (running s.sshd).isSome) fun _ s => { s with sshd := s.sshd.map (Service.reload s.dropin) }

/-! ## Rollback -/

/-- `x || failed=true` -/
def attempt (x : Task Setup Unit) : Task Setup Unit :=
  Proc.handle x fun e =>
    match e with
    | .killed => Proc.raise .killed
    | _ => Proc.update fun s => { s with failed := true }

/-- `restore_service` -/
def restoreService (svc : Svc) : Task Setup Unit := do
  let s ← Proc.read
  if (s.old svc).active then do
    start svc
    onlyIf (svc == .sshd) reloadSshd
    setEnabled svc (s.old svc).enabled
  else do
    stop svc
    setEnabled svc (s.old svc).enabled

/-- `cp -a -- "$backup/dropin" "$dropin"` -/
def copyDropin : Task Setup Unit :=
  command (fun s => s.backupDropin.isSome) (fun _ s => { s with dropin := s.backupDropin })

/-- `rm -f -- "$dropin"` -/
def removeDropin : Task Setup Unit := command (fun _ => true) (fun _ s => { s with dropin := none })

/-- Change the directory, if it is there. -/
def onDir (f : Moment → Setup → Dir → Dir) : Task Setup Unit :=
  command (fun s => s.sshDir.isSome) (fun m s => { s with sshDir := s.sshDir.map (f m s) })

/-- `rm -f -- "$authorized"` -/
def removeAuthorized : Task Setup Unit :=
  command (fun _ => true) (fun _ s => { s with sshDir := s.sshDir.map fun d => { d with authorized := none } })

/-- `rmdir -- "$sshdir"` -/
def removeDir : Task Setup Unit :=
  command (fun s => s.sshDir.any fun d => d.authorized.isNone) (fun _ s => { s with sshDir := none })

def restoreDropin : Task Setup Unit := do
  let s ← Proc.read
  if s.backupDropin.isSome then attempt copyDropin else attempt removeDropin

def restoreAuthorized : Task Setup Unit := do
  let s ← Proc.read
  if s.backupAuthorized.isSome then attempt (onDir fun _ s d => { d with authorized := s.backupAuthorized })
  else attempt removeAuthorized

def restoreDir : Task Setup Unit := do
  let s ← Proc.read
  if s.hadSshdir then do
    attempt (onDir fun _ s d => { d with mode := s.dirMode })
    attempt (onDir fun _ s d => { d with owner := s.dirOwner })
    onlyIf s.dirContext.isSome (attempt (onDir fun _ s d => { d with context := s.dirContext.getD d.context }))
  else attempt removeDir

/-- `firewall-cmd --zone="$zone" --remove-service=ssh` -/
def removeRuntime : Task Setup Unit :=
  command (fun s => (running s.firewalld).isSome)
    (fun _ s => { s with firewalld := s.firewalld.map (Service.reload false) })

/-- `firewall-cmd --permanent --zone="$zone" --remove-service=ssh` -/
def removePermanent : Task Setup Unit :=
  command (fun s => (running s.firewalld).isSome) (fun _ s => { s with permanent := false })

def restoreFirewall : Task Setup Unit := do
  let s ← Proc.read
  onlyIf (s.oldRuntime == some false) (attempt removeRuntime)
  onlyIf (s.oldPermanent == some false) (attempt removePermanent)

def restoreServices : Task Setup Unit := do
  attempt (restoreService .sshd)
  attempt (restoreService .firewalld)

/-- `rollback` after a failure. -/
def rollback : Task Setup Unit := do
  let s ← Proc.read
  onlyIf s.filesTouched do
    restoreDropin
    restoreAuthorized
    restoreDir
  onlyIf s.firewallTouched restoreFirewall
  onlyIf s.servicesTouched restoreServices

/-! ## The configuration -/

/-- `dnf install`: a missing service comes with the enablement of its preset. -/
def install (svc : Svc) : Task Setup Unit :=
  command (fun _ => true) fun m s =>
    match svc with
    | .sshd => { s with sshd := s.sshd.or (some { enabled := m.maintenanceOpen, running := none }) }
    | .firewalld => { s with firewalld := s.firewalld.or (some { enabled := m.maintenanceOpen, running := none }) }

/-- `allowance` -/
def allowance (permanent : Bool) : Task Setup Bool :=
  query (fun s => (running s.firewalld).isSome)
    (fun _ s => if permanent then s.permanent else (running s.firewalld).getD false)

/-- The `awk` program of `install_key`: a line holds the key's type and then its blob. -/
def hasKey (keyType keyBlob content : String) : Bool :=
  (content.splitOn "\n").any fun line =>
    let fields := ((line.split fun c => c == ' ' || c == '\t').toList.map fun f => f.copy).filter fun f => f ≠ ""
    !(fields.headD "").startsWith "#" && (fields.zip fields.tail).contains (keyType, keyBlob)

/-- What is written at the end of `authorized_keys`. -/
def appended (key content : String) : String :=
  (if content ≠ "" && !content.endsWith "\n" then content ++ "\n" else content) ++ key ++ "\n"

/-- A key that is to be installed. -/
structure Key where
  line : String
  keyType : String
  keyBlob : String

def addKey (k : Key) (content : String) : String :=
  if hasKey k.keyType k.keyBlob content then content else appended k.line content

/-- `mkdir -p`, with the umask 077 -/
def makeDir : Task Setup Unit :=
  command (fun _ => true) fun m s =>
    { s with sshDir := s.sshDir.or (some { mode := 0o700, owner := "0:0", context := m.text, authorized := none }) }

/-- The write of a file that may end early: what is there then is not known. -/
def writing (effect : Option String → Setup → Setup) (content : Setup → String) : Task Setup Unit :=
  Proc.perform fun m s =>
    if m.verdict = .done then (.ok (), effect (some (content s)) s)
    else (.error (runFailure m.verdict), if m.took then effect (some m.text) s else s)

def setAuthorized (content : Option String) (s : Setup) : Setup :=
  { s with sshDir := s.sshDir.map fun d => { d with authorized := content } }

def setDropin (content : Option String) (s : Setup) : Setup := { s with dropin := content }

/-- `install_key` -/
def installKey (k : Key) (owner : String) : Task Setup Unit := do
  check "safe_path"
  check ".ssh is a directory"
  makeDir
  onDir fun _ _ d => { d with mode := 0o700 }
  onDir fun _ _ d => { d with owner }
  onDir fun _ _ d => { d with authorized := d.authorized.or (some "") } -- `touch`
  check "chmod 600; chown"
  writing setAuthorized (fun s => addKey k ((s.sshDir.bind Dir.authorized).getD ""))
  onDir fun m s d => { d with context := if s.selinux then m.text else d.context } -- `restorecon`

/-- `key_only_settings` -/
def keyOnlySettings : String :=
  "PubkeyAuthentication yes\nAuthenticationMethods publickey\nPasswordAuthentication no\n" ++
    "KbdInteractiveAuthentication no\nPermitRootLogin no\n"

/-- What is recorded of the directory. -/
def recordDir : Task Setup Unit := do
  let s ← Proc.read
  match s.sshDir with
  | none => pure ()
  | some d => do
    check "stat"
    Proc.update fun s =>
      { s with
        hadSshdir := true, dirMode := d.mode, dirOwner := d.owner,
        dirContext := if s.selinux then some d.context else none }
    check "declare -p"

/-- The copies that are taken before anything is written. -/
def backUp : Task Setup Unit := do
  check "safe_path"
  let s ← Proc.read
  onlyIf s.dropin.isSome (command (fun _ => true) fun _ s => { s with backupDropin := s.dropin })
  onlyIf (s.sshDir.bind Dir.authorized).isSome
    (command (fun _ => true) fun _ s => { s with backupAuthorized := s.sshDir.bind Dir.authorized })
  recordDir

def addRuntime : Task Setup Unit :=
  command (fun s => (running s.firewalld).isSome)
    (fun _ s => { s with firewalld := s.firewalld.map (Service.reload true) })

def addPermanent : Task Setup Unit :=
  command (fun s => (running s.firewalld).isSome) (fun _ s => { s with permanent := true })

def inspectFirewall : Task Setup Unit := do
  setEnabled .firewalld true
  start .firewalld
  check "firewall_check"
  let runtime ← allowance false
  Proc.update fun s => { s with oldRuntime := some runtime }
  let permanent ← allowance true
  Proc.update fun s => { s with oldPermanent := some permanent }
  check "declare -p old_allow"

def writeFiles (k : Key) (owner : String) : Task Setup Unit := do
  installKey k owner
  writing setDropin (fun _ => keyOnlySettings)
  check "chown; chmod; restorecon"
  check "ssh-keygen -A"
  check "effective_check"

def allowSsh : Task Setup Unit := do
  addRuntime
  addPermanent
  let runtime ← allowance false
  let permanent ← allowance true
  require (runtime && permanent) "Firewall verification failed" 1

def startOrReload : Task Setup Unit := do
  let s ← Proc.read
  if (s.old .sshd).active then reloadSshd else start .sshd

def serve : Task Setup Unit := do
  setEnabled .sshd true
  startOrReload
  check "is-active; is-enabled"
  check "printf"

/-- `apply_config`, from where its trap is installed. -/
def applyConfig (k : Key) (owner : String) : Task Setup Unit := do
  check "declare -p"
  Proc.update fun s => { s with servicesTouched := true }
  install .sshd
  install .firewalld
  check "inspect_config"
  inspectFirewall
  backUp
  Proc.update fun s => { s with filesTouched := true }
  writeFiles k owner
  Proc.update fun s => { s with firewallTouched := true }
  allowSsh
  serve

/-- A host on which the trap has just been installed. -/
def Host.setup (h : Host) : Setup := { h with old := h.snapshot }

end Hermes.SshSetup

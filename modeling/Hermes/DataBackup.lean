import Hermes.Library.Shell

/- The data backup of the deployment's root helper (`remote-state.sh`): it takes
   the restart policy from every container that mounts the data, stops it, and
   writes an encrypted archive. The EXIT trap that undoes this is installed after
   the last container is stopped and removed before the stage is marked. -/
namespace Hermes.DataBackup
open Process Shell

/-- What `podman inspect` shows of a container. -/
structure Container where
  mounts : List String := []
  /-- `.HostConfig.RestartPolicy.Name` -/
  policy : String := ""
  running : Bool := false
  deriving DecidableEq, Repr

/-- The containers of one user. -/
structure Podman where
  /-- `podman ps -a -q` -/
  ids : List String
  container : String → Container
  distinct : ids.Nodup

def Podman.set (p : Podman) (c : String) (x : Container) : Podman :=
  { p with container := fun d => if d = c then x else p.container d }

/-- `podman update --restart-policy=policy c` -/
def Podman.update (p : Podman) (c policy : String) : Podman :=
  p.set c { p.container c with policy := policy }

/-- `podman stop c` -/
def Podman.stop (p : Podman) (c : String) : Podman :=
  p.set c { p.container c with running := false }

/-- `podman start c` -/
def Podman.start (p : Podman) (c : String) : Podman :=
  p.set c { p.container c with running := true }

/-- How a command of the host ends. -/
structure Turn where
  status : Nat := 0
  /-- whether a command that failed had its effect -/
  applied : Bool := false
  /-- whether a signal that ends the shell arrived while it ran -/
  terminated : Bool := false
  deriving DecidableEq, Repr

/-- The host as the helper sees it, and the variables of its shell. -/
structure Remote where
  /-- `id hermes` -/
  hermes : Bool
  /-- `admin_user` of `site.conf`, empty if it is missing -/
  adminUser : String
  /-- `-d /home/hermes/data` -/
  dataDir : Bool
  /-- the containers of the owner -/
  podman : Podman
  /-- `backup-dir` -/
  backupDir : Option String
  /-- `-s data.tgz.enc` -/
  archive : Bool := false
  /-- `-s data.tgz.enc.sha256` -/
  checksum : Bool := false
  /-- `detected-runtime-state` -/
  runtimeState : Option String := none
  /-- `manual-container-user-*` -/
  users : String → Option String := fun _ => none
  /-- `manual-restart-policy-*` -/
  policies : List (String × String) := []
  /-- `manual-running-*` -/
  runnings : List String := []
  /-- the stage `data-backup` is marked -/
  marked : Bool := false
  /-- `STOPPED_CONTAINERS` -/
  stopped : List String := []
  /-- `trap resume_stopped_containers EXIT` -/
  trap : Bool := false
  /-- observed: the containers this process stopped or gave another policy -/
  changed : List String := []

abbrev Cmd := Sh Turn Remote

/-- A command of the host with an effect. -/
def act (effect : Remote → Remote) : Cmd Unit :=
  Sh.outside (fun m w =>
    (if m.terminated then .error (.exited 143) else .ok ((), m.status),
      if m.status = 0 ∨ m.applied = true then effect w else w))

/-- `$(command 2>/dev/null || true)` -/
def look {α : Type} (value : Remote → α) (none : α) : Cmd α :=
  Sh.outside (fun m w =>
    (if m.terminated then .error (.exited 143)
      else .ok (if m.status = 0 then value w else none, 0), w))

/-- A command that only answers yes or no. -/
def check (holds : Remote → Bool) : Cmd Unit :=
  Sh.outside (fun m w =>
    (if m.terminated then .error (.exited 143)
      else .ok ((), if m.status = 0 ∧ holds w = true then 0 else 1), w))

def die {α : Type} : Cmd α := Sh.exit 1

def dataPath : String := "/home/hermes/data"

/-- `container_owner` -/
def Remote.owner (w : Remote) : String := if w.hermes then "hermes" else w.adminUser

def containerOwner : Cmd String := do
  let w ← Sh.world
  if w.owner = "" then die else pure w.owner

def psAll : Cmd (List String) := look (fun w => w.podman.ids) []

def inspectMounts (c : String) : Cmd (List String) :=
  look (fun w => (w.podman.container c).mounts) []

def inspectPolicy (c : String) : Cmd String := look (fun w => (w.podman.container c).policy) ""

/-- `podman inspect c … | grep -qx true` -/
def isRunning (c : String) : Cmd Unit := check (fun w => (w.podman.container c).running)

def countMounted : List String → Nat → Cmd Nat
  | [], count => pure count
  | c :: cs, count => do
    let mounts ← inspectMounts c
    countMounted cs (if dataPath ∈ mounts then count + 1 else count)

def containerCount : Cmd Nat := do
  let ids ← psAll
  countMounted ids 0

/-- `mark_stage data-backup` -/
def markStage : Cmd Unit := act (fun w => { w with marked := true })

/-! ## Holding the containers -/

/-- A state file is replaced, never doubled. -/
def putPolicy (policies : List (String × String)) (c policy : String) : List (String × String) :=
  policies.filter (fun r => r.1 ≠ c) ++ [(c, policy)]

/-- `write_state "manual-container-user-$container" "$owner"` -/
def recordUser (owner c : String) : Cmd Unit :=
  act (fun w => { w with users := fun d => if d = c then some owner else w.users d })

def recordPolicy (c policy : String) : Cmd Unit :=
  act (fun w => { w with policies := putPolicy w.policies c policy })

def recordRunning (c : String) : Cmd Unit :=
  act (fun w => { w with runnings := c :: w.runnings.erase c })

/-- `podman update --restart-policy=no` -/
def forbidRestart (c : String) : Cmd Unit :=
  act (fun w => { w with
    podman := w.podman.update c "no"
    changed := if (w.podman.container c).policy = "no" then w.changed else c :: w.changed })

/-- `podman stop --time 30` -/
def stopContainer (c : String) : Cmd Unit :=
  act (fun w => { w with
    podman := w.podman.stop c
    changed := if (w.podman.container c).running then c :: w.changed else w.changed })

def disableRestart (c : String) : Cmd Unit := do
  let policy ← inspectPolicy c
  if policy ≠ "" ∧ policy ≠ "none" then do
    recordPolicy c policy
    forbidRestart c
  else pure ()

def stopRunning (c : String) : Cmd Unit :=
  Sh.ifThen (isRunning c) do
    recordRunning c
    stopContainer c
    Sh.modify (fun w => { w with stopped := w.stopped ++ [c] })

def holdMounted (owner c : String) : Cmd Unit := do
  recordUser owner c
  disableRestart c
  stopRunning c

def holdPresent (owner c : String) : Cmd Unit := do
  let mounts ← inspectMounts c
  if dataPath ∈ mounts then holdMounted owner c else pure ()

/-- The body of the loop over the containers. -/
def holdContainer (owner c : String) : Cmd Unit :=
  if c = "" then pure () else holdPresent owner c

/-! ## The backup -/

/-- `backup_dir=$(read_state backup-dir)` and its check. -/
def manifestDirectory : Cmd Unit := do
  let w ← Sh.world
  Sh.simple (if w.backupDir.isSome then 0 else 1)
  Sh.orElse (Sh.test (w.backupDir ≠ some "")) die

/-- `write_state detected-runtime-state` -/
def detectRuntime : Cmd Unit := do
  let count ← containerCount
  act (fun w => { w with runtimeState := some (if w.hermes then "managed"
    else if 0 < count then "manual-container" else "fresh") })

/-- Without data there is nothing to back up. -/
def skipWithoutData : Cmd Unit := do
  let w ← Sh.world
  if w.dataDir then pure () else do
    markStage
    Sh.ret 0

/-- An archive with a checksum is kept. -/
def skipCurrent : Cmd Unit := do
  let w ← Sh.world
  if w.archive && w.checksum then do
    Sh.orElse (act id) die
    markStage
    Sh.ret 0
  else pure ()

/-- tar and openssl, the trial decryption, the checksum and its mode. -/
def writeArchive : Cmd Unit := do
  act (fun w => { w with archive := true })
  act id
  act (fun w => { w with checksum := true })
  act id

def backupData (interactive : Bool) : Cmd Unit := do
  manifestDirectory
  let owner ← containerOwner
  detectRuntime
  skipWithoutData
  skipCurrent
  Sh.orElse (Sh.test interactive) (Sh.ret 75)
  let ids ← psAll
  Sh.modify (fun w => { w with stopped := [] })
  Sh.forEach ids (holdContainer owner)
  Sh.modify (fun w => { w with trap := true })
  writeArchive
  Sh.modify (fun w => { w with trap := false })
  markStage

/-! ## The EXIT trap -/

/-- Which of the restoring podman commands succeed. -/
structure Restoring where
  starts : String → Bool := fun _ => true
  updates : String → Bool := fun _ => true

/-- `local_user` -/
def Remote.userOf (w : Remote) (c : String) : String :=
  match w.users c with
  | none => "hermes"
  | some user => if user = "" then "hermes" else user

/-- Podman knows a container only under its owner. -/
def resumeContainer (r : Restoring) (w : Remote) (c : String) : Remote :=
  if c ≠ "" ∧ w.userOf c = w.owner ∧ r.starts c = true then { w with podman := w.podman.start c }
  else w

def restorePolicy (r : Restoring) (w : Remote) (record : String × String) : Remote :=
  if record.2 ≠ "" ∧ record.2 ≠ "none" ∧ w.userOf record.1 = w.owner ∧ r.updates record.1 = true then
    { w with podman := w.podman.update record.1 record.2 }
  else w

def restoreManualRestartPolicies (r : Restoring) (w : Remote) : Remote :=
  w.policies.foldl (restorePolicy r) w

def resumeStoppedContainers (r : Restoring) (w : Remote) : Remote :=
  restoreManualRestartPolicies r (w.stopped.foldl (resumeContainer r) w)

/-! ## Attempts -/

/-- One request of the action `backup-data`. -/
structure Attempt where
  interactive : Bool := true
  turns : List Turn
  restoring : Restoring := {}

/-- The helper is a new process for every request. -/
def Remote.fresh (w : Remote) : Remote := { w with stopped := [], trap := false, changed := [] }

def Attempt.script (a : Attempt) : Cmd Unit := Sh.call (backupData a.interactive)

def Attempt.onExit (a : Attempt) (w : Remote) : Remote :=
  if w.trap then resumeStoppedContainers a.restoring w else w

/-- The exit status, and the host afterwards. -/
def Attempt.run (a : Attempt) (w : Remote) : Option Nat × Remote :=
  a.script.run a.onExit a.turns w.fresh

/-- The host when the attempt ends and its trap, if there is one, has not run yet. -/
def Attempt.end (a : Attempt) (w : Remote) : Remote := a.script.last a.turns w.fresh

end Hermes.DataBackup

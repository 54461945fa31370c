import Mathlib.Logic.Function.Basic
import Hermes.Common

/- The restore of a lab guest's state (`lab_guest.restore`): three trees of the account's
   home are replaced by those of a backup while the two application writers are stopped.

   A tree is known by where it comes from, not only by what it holds: the trees that were
   live and the restored ones are told apart even where they are equal. A rename happens or
   not; a removal that fails may have taken a part of the tree. Whether a writer can be
   started is a property of the guest. The local variables of `restore` are part of the
   state, since its last block reads them however the run came there. What is asked of the
   archive and of the guest beforehand is answered by the outside. -/
namespace Hermes.LabGuest
open Process

/-- `TREES` -/
inductive Tree where
  | gatewayState
  | gatewaySsh
  | workerState
  deriving DecidableEq, Repr

def trees : List Tree := [.gatewayState, .gatewaySsh, .workerState]

inductive Writer where
  | gateway
  | worker
  deriving DecidableEq, Repr

/-- What a path holds: a tree that was live, one of the backup, or what a removal left. -/
inductive Copy (γ : Type) where
  | live (content : γ)
  | restored (content : γ)
  | remains
  deriving DecidableEq, Repr

/-- A file operation that failed. -/
inductive Trouble where
  | setAside (tree : Tree)
  | moveIn (tree : Tree)
  | remove (tree : Tree)
  | moveBack (tree : Tree)
  deriving DecidableEq, Repr

structure Guest (γ : Type) where
  home : Tree → Option (Copy γ)
  /-- `stage / "new"` -/
  fresh : Tree → Option (Copy γ)
  /-- `stage / "old"` -/
  old : Tree → Option (Copy γ)
  stage : Bool
  /-- the trees in `RESTORE_ARCHIVE` -/
  archive : Tree → Option γ
  active : Writer → Bool
  startable : Writer → Bool
  prior : List Writer
  moved : List Tree
  restartSafe : Bool
  cleanupSafe : Bool
  troubles : List Trouble

section Model

variable {γ : Type}

/-- A guest that `restore` is called on. -/
def Guest.initial (live archive : Tree → Option γ) (active startable : Writer → Bool) : Guest γ where
  home t := (live t).map .live
  fresh _ := none
  old _ := none
  stage := false
  archive
  active
  startable
  prior := []
  moved := []
  restartSafe := false
  cleanupSafe := true
  troubles := []

/-- The trees of the backup in their places. -/
def Guest.backup (g : Guest γ) (t : Tree) : Option (Copy γ) := (g.archive t).map .restored

/-- Something that is asked or printed, with no effect on the state. -/
def check (_what : String) : Task (Guest γ) Unit := command (fun _ => true) (fun _ g => g)

/-- `os.replace` -/
def rename (trouble : Trouble) (can : Guest γ → Bool) (effect : Guest γ → Guest γ) : Task (Guest γ) Unit :=
  Proc.perform fun m g =>
    if m.verdict = .killed then (.error .killed, g)
    else if m.verdict = .done ∧ can g then (.ok (), effect g)
    else (.error .osError, { g with troubles := g.troubles ++ [trouble] })

/-- `os.replace(HOME / tree, old / tree)` -/
def setAside (t : Tree) : Task (Guest γ) Unit :=
  rename (.setAside t) (fun g => (g.home t).isSome && (g.old t).isNone)
    (fun g => { g with home := Function.update g.home t none, old := Function.update g.old t (g.home t) })

/-- `os.replace(fresh / tree, HOME / tree)` -/
def moveIn (t : Tree) : Task (Guest γ) Unit :=
  rename (.moveIn t) (fun g => (g.fresh t).isSome && (g.home t).isNone)
    (fun g => { g with fresh := Function.update g.fresh t none, home := Function.update g.home t (g.fresh t) })

/-- `os.replace(old / tree, HOME / tree)` -/
def moveBack (t : Tree) : Task (Guest γ) Unit :=
  rename (.moveBack t) (fun g => (g.old t).isSome && (g.home t).isNone)
    (fun g => { g with old := Function.update g.old t none, home := Function.update g.home t (g.old t) })

/-- `shutil.rmtree(HOME / tree)` -/
def removeTree (t : Tree) : Task (Guest γ) Unit :=
  Proc.perform fun m g =>
    if m.verdict = .killed then (.error .killed, g)
    else if m.verdict = .done then (.ok (), { g with home := Function.update g.home t none })
    else (.error .osError,
      { g with
        home := if m.took then Function.update g.home t (some .remains) else g.home,
        troubles := g.troubles ++ [.remove t] })

/-- `shutil.rmtree(stage)` -/
def removeStage : Task (Guest γ) Unit :=
  Proc.perform fun m g =>
    if m.verdict = .done then (.ok (), { g with stage := false, fresh := fun _ => none, old := fun _ => none })
    else (.error (fileError m.verdict), if m.took then { g with fresh := fun _ => none, old := fun _ => none } else g)

/-- `user_systemctl("is-active", unit)`, and the refusal of any other answer -/
def isActive (u : Writer) : Task (Guest γ) Bool := query (fun _ => true) (fun _ g => g.active u)

/-- `user_systemctl("stop", unit)` -/
def stop (u : Writer) : Task (Guest γ) Unit :=
  command (fun _ => true) (fun _ g => { g with active := Function.update g.active u false })

/-- `user_systemctl("start", unit)` -/
def start (u : Writer) : Task (Guest γ) Unit :=
  Proc.perform fun m g =>
    if m.verdict = .killed then (.error .killed, g)
    else if g.startable u then (.ok (), { g with active := Function.update g.active u true })
    else (.error (.failure 1 "systemctl failed"), g)

/-- `restart` -/
def restart (prior : List Writer) : Task (Guest γ) Unit := Proc.forEach prior.reverse start

/-- `except Exception: h; raise` -/
def onFailure (x h : Task (Guest γ) Unit) : Task (Guest γ) Unit :=
  Proc.handle x fun e =>
    match e with
    | .killed => Proc.raise .killed
    | e => do h; Proc.raise e

/-- The writers that `is-active` reports. -/
def inspect : Task (Guest γ) (List Writer) := do
  let gateway ← isActive .gateway
  let worker ← isActive .worker
  pure ((if gateway then [.gateway] else []) ++ (if worker then [.worker] else []))

def stopBoth : Task (Guest γ) Unit := do
  stop .gateway
  stop .worker
  check "podman ps"

/-- `stop_writers` -/
def stopWriters : Task (Guest γ) (List Writer) := do
  let prior ← inspect
  onFailure stopBoth (restart prior)
  pure prior

/-- The body of the loop over `TREES`. -/
def swapTree (t : Tree) : Task (Guest γ) Unit := do
  setAside t
  Proc.update fun g => { g with moved := g.moved ++ [t] }
  moveIn t

/-- The body of the loop over `reversed(moved)`. -/
def undoTree (t : Tree) : Task (Guest γ) Unit := do
  let g ← Proc.read
  onlyIf (g.home t).isSome (removeTree t)
  moveBack t

def markSafe : Task (Guest γ) Unit :=
  Proc.update fun g => { g with restartSafe := true, cleanupSafe := true }

def undo : Task (Guest γ) Unit := do
  let g ← Proc.read
  Proc.forEach g.moved.reverse undoTree
  markSafe

/-- `tar -xpf` into `stage / "new"` -/
def extract : Task (Guest γ) Unit :=
  atomic fun _ g => { g with fresh := g.backup }

/-- The body of the outer `try`. -/
def replaceTrees : Task (Guest γ) Unit := do
  extract
  command (fun g => trees.all fun t => (g.fresh t).isSome) (fun _ g => g) -- `state_manifest(fresh) != expected`
  command (fun g => trees.all fun t => (g.home t).isSome) (fun _ g => g) -- the targets are directories
  let prior ← stopWriters
  Proc.update fun g => { g with prior, cleanupSafe := false }
  onFailure (Proc.forEach trees swapTree) undo
  markSafe
  check "state_manifest"

/-- The `finally` block. -/
def cleanUp : Task (Guest γ) Unit := do
  let g ← Proc.read
  onlyIf g.restartSafe (restart g.prior)
  onlyIf g.cleanupSafe do
    removeStage
    atomic fun _ g => { g with archive := fun _ => none }

/-- `restore` -/
def restore : Task (Guest γ) Unit := do
  check "synthetic"
  check "expected state fingerprint"
  check "validate_archive"
  lockFile
  atomic fun _ g => { g with stage := true }
  check "fresh.mkdir"
  check "old.mkdir"
  onFailure replaceTrees cleanUp
  cleanUp

end Model

end Hermes.LabGuest

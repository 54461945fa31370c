import Hermes.Text
import Hermes.Common
import Hermes.Library.History

/- Disposable certification lifecycles (`lifecycle.py`). A run is a directory with
   its state in `lifecycle.json`; `active.json` names the latest one. A call
   takes the lock, looks at the active run, and either cleans it up or starts a
   new run and takes it through the fixture's `prepare`, `certify` and `cleanup`.

   The world keeps a log beside the files: which calls were made, which
   directories and states were written and which steps of the fixture succeeded. -/
namespace Hermes.Lifecycle
open Process

abbrev RunId : Type := String

/-- `sha` -/
def isSha (s : String) : Bool := isHex 64 64 s

/-! ## The clock -/

def second : Nat := 1000000

/-- Microseconds since the epoch, in America/Bogota. -/
def localTime (now : Nat) : Nat := now - 5 * 3600 * second

/-- `now.date()`, as a number of days. -/
def slotOf (now : Nat) : Nat := localTime now / (86400 * second)

/-- `maintenance_open(now)`: Sunday from two o'clock, with half an hour left until four. -/
def maintenanceOpen (now : Nat) : Bool :=
  let day := localTime now % (86400 * second)
  (slotOf now + 3) % 7 == 6 && 2 * 3600 * second ≤ day && day + 1800 * second ≤ 4 * 3600 * second

/-! ## The state of a run -/

inductive Stage where
  | starting
  | provisioning
  | enrolled
  | certifying
  | cleaning
  | cleanupFailed
  | complete
  | failedCleaned
  | deferredCleaned
  deriving DecidableEq, Repr

/-- `TERMINAL` -/
def Stage.terminal : Stage → Bool
  | .complete => true
  | .failedCleaned => true
  | .deferredCleaned => true
  | _ => false

/-- A window that an operator granted. -/
structure Grant where
  binding : String
  runId : RunId
  issuedAt : Int
  expiresAt : Int
  deriving DecidableEq, Repr

/-- `lifecycle.json` -/
structure State where
  runId : RunId
  binding : String
  slot : Nat
  stage : Stage := .starting
  certified : Bool := false
  failure : Option String := none
  labWindow : Option Grant := none
  deriving DecidableEq, Repr

inductive Event where
  | called
  /-- a directory was made while the active run was in this stage -/
  | created (id : RunId) (active : Option Stage)
  /-- the fixture began to provision -/
  | began (id : RunId) (scheduled : Bool) (slot : Nat)
  | prepared (id : RunId)
  | inWindow (id : RunId)
  | certified (id : RunId)
  | cleaned (id : RunId)
  | recorded (id : RunId) (stage : Stage)
  deriving DecidableEq, Repr

/-- The state directory, and the variable `state` of the call. -/
structure World where
  /-- the directories; one may be without `lifecycle.json` still -/
  runs : RunId → Option (Option State)
  /-- `active.json` -/
  active : Option RunId
  state : State
  log : List Event

def State.none : State := { runId := "", binding := "", slot := 0 }

namespace World

def empty : World := ⟨fun _ => none, none, State.none, []⟩

def add (w : World) (e : Event) : World := { w with log := e :: w.log }

/-- The state of a run. -/
def stateOf (w : World) (id : RunId) : Option State := (w.runs id).join

/-- The stage of the active run. -/
def activeStage (w : World) : Option Stage := (w.active.bind w.stateOf).map State.stage

def makeDirectory (w : World) (id : RunId) : World :=
  { w with
    runs := fun i => if i = id then some none else w.runs i
    log := .created id w.activeStage :: w.log }

/-- `atomic(directory / 'lifecycle.json', canonical(state))` -/
def writeState (w : World) : World :=
  { w with
    runs := fun i => if i = w.state.runId then some (some w.state) else w.runs i
    log := .recorded w.state.runId w.state.stage :: w.log }

def writePointer (w : World) (id : RunId) : World := { w with active := some id }

section Simp
variable (w : World) (e : Event) (id i : RunId)

@[simp] theorem add_runs : (w.add e).runs = w.runs := rfl
@[simp] theorem add_active : (w.add e).active = w.active := rfl
@[simp] theorem add_state : (w.add e).state = w.state := rfl
@[simp] theorem add_log : (w.add e).log = e :: w.log := rfl
@[simp] theorem makeDirectory_same : (w.makeDirectory id).runs id = some none := by
  simp [makeDirectory]
theorem makeDirectory_other (h : i ≠ id) : (w.makeDirectory id).runs i = w.runs i := by
  simp [makeDirectory, h]
@[simp] theorem makeDirectory_active : (w.makeDirectory id).active = w.active := rfl
@[simp] theorem makeDirectory_state : (w.makeDirectory id).state = w.state := rfl
@[simp] theorem makeDirectory_log :
    (w.makeDirectory id).log = .created id w.activeStage :: w.log := rfl
@[simp] theorem writeState_same : w.writeState.runs w.state.runId = some (some w.state) := by
  simp [writeState]
theorem writeState_other (h : i ≠ w.state.runId) : w.writeState.runs i = w.runs i := by
  simp [writeState, h]
@[simp] theorem writeState_active : w.writeState.active = w.active := rfl
@[simp] theorem writeState_state : w.writeState.state = w.state := rfl
@[simp] theorem writeState_log :
    w.writeState.log = .recorded w.state.runId w.state.stage :: w.log := rfl
@[simp] theorem writePointer_runs : (w.writePointer id).runs = w.runs := rfl
@[simp] theorem writePointer_active : (w.writePointer id).active = some id := rfl
@[simp] theorem writePointer_state : (w.writePointer id).state = w.state := rfl
@[simp] theorem writePointer_log : (w.writePointer id).log = w.log := rfl

end Simp

end World

/-! ## The call -/

abbrev Cmd := Task World

/-- An operation that looks at something and may fail. -/
def look {α : Type} (value : Moment → World → α) : Cmd α := query (fun _ => true) value

def note (e : Event) : Cmd Unit := Proc.update (·.add e)

/-- `x`, and `h` after an exception of the program; a process that was killed is dead. -/
def except {α : Type} (x : Cmd α) (h : Exc → Cmd α) : Cmd α :=
  x.handle (fun e => match e with
    | .killed => Proc.raise .killed
    | e => h e)

/-- `with lock(root / '.lifecycle.lock')` -/
def takeLock : Cmd Unit :=
  Proc.perform fun m w =>
    if m.verdict = .done then (.ok (), w)
    else if m.verdict = .killed then (.error .killed, w)
    else (.error (.failure 75 "target-busy"), w)

def grantKeys : List String := ["schema", "binding", "run_id", "issued_at", "expires_at"]

/-- `grant['binding'] == binding and sha(grant['run_id'])`, and the id. -/
def grantedRun (binding : String) (value : Json) : Option RunId :=
  match value.getStr "run_id" with
  | some id => if value.getStr "binding" == some binding && isSha id then some id else none
  | none => none

/-- The two times of a grant that is open at `now`. -/
def grantedTimes (now : Int) (value : Json) : Option (Int × Int) :=
  match value.get "issued_at", value.get "expires_at" with
  | some (.int issued), some (.int expires) =>
    if issued ≤ now ∧ now < expires ∧ 0 < expires - issued ∧ expires - issued ≤ 4 * 3600 then
      some (issued, expires)
    else none
  | _, _ => none

section
/- `parse` is `decode`; the text is what the file holds at that moment. -/
variable (parse : String → Option Json)

/-- `lab_window` -/
def labWindow (binding : String) : Cmd Grant := do
  let m ← look (fun m _ => m)
  match parse m.text with
  | none => fail 64 "invalid-json"
  | some value =>
    require (value.hasKeys grantKeys && value.getStr "schema" == some "hermes-lifecycle-lab-window-v1")
      "invalid-lifecycle-lab-grant"
    match grantedRun binding value with
    | none => fail 78 "lifecycle-lab-binding-mismatch"
    | some id =>
      match grantedTimes m.now value with
      | none => fail 78 "expired-or-invalid-lifecycle-lab-window"
      | some (issued, expires) => pure ⟨binding, id, issued, expires⟩

/-- `save(**values)` -/
def save (f : State → State) : Cmd Unit := do
  Proc.update (fun w => { w with state := f w.state })
  atomic (fun _ w => w.writeState)

/-- A step of the fixture; it counts when it returns. -/
def step (e : RunId → Event) : Cmd Unit :=
  Proc.perform fun m w =>
    if m.verdict = .done then (.ok (), w.add (e w.state.runId))
    else (.error (runFailure m.verdict), w)

/-- `driver.prepare()` -/
def prepare : Cmd Unit := do
  Proc.update (fun w => w.add (.began w.state.runId w.state.labWindow.isNone w.state.slot))
  step .prepared

/-- `lab_window(policy, grant_path) == state['lab_window'] if grant_path else maintenance_open()` -/
def windowStillOpen (binding : String) (granted : Bool) : Cmd Bool := do
  if granted then
    let g ← labWindow parse binding
    let w ← Proc.read
    pure (decide (some g = w.state.labWindow))
  else
    let m ← look (fun m _ => m)
    pure m.maintenanceOpen

/-- The second look at the window, and certification where it is open; whether the
    run is deferred. -/
def certify (stillOpen : Bool) : Cmd Bool := do
  if stillOpen then
    Proc.update (fun w => w.add (.inWindow w.state.runId))
    save (fun s => { s with stage := .certifying })
    step .certified
    save (fun s => { s with certified := true })
    pure false
  else pure true

/-- What stands in the `try`: a failure is recorded, and `failed` and `deferred` are
    returned. -/
def acceptance (binding : String) (granted : Bool) : Cmd (Bool × Bool) :=
  except
    (do
      save (fun s => { s with stage := .provisioning })
      prepare
      save (fun s => { s with stage := .enrolled })
      let stillOpen ← windowStillOpen parse binding granted
      let deferred ← certify stillOpen
      pure (false, deferred))
    (fun _ => do
      save (fun s => { s with failure := some "lifecycle-execution-failed" })
      pure (true, false))

inductive Result where
  | nothingToClean
  | deferred
  | slotAlreadyFinished
  | finished (stage : Stage) (id : RunId)
  deriving DecidableEq, Repr

/-- The cleanup and the terminal stage. -/
def finish (failed deferred : Bool) : Cmd Result := do
  save (fun s => { s with stage := .cleaning })
  except (step .cleaned) (fun _ => do
    save (fun s => { s with stage := .cleanupFailed })
    fail 69 "lifecycle-cleanup-failed")
  let stage : Stage :=
    if failed then .failedCleaned else if deferred then .deferredCleaned else .complete
  let w ← Proc.read
  require (stage != .complete || w.state.certified) "missing-lifecycle-certification"
  save (fun s => { s with stage := stage })
  require (!failed) "lifecycle-failed-and-cleaned" 69
  pure (.finished stage w.state.runId)

/-- The active run, with its state read into `state`. -/
def readActive (binding : String) : Cmd (Option State) := do
  let active ← look (fun _ w => w.active)
  match active with
  | none => pure none
  | some id =>
    require (isSha id) "invalid-active-lifecycle"
    let state ← query (fun w => (w.stateOf id).isSome) (fun _ w => w.stateOf id)
    match state with
    | none => Proc.raise .osError
    | some s =>
      require (decide (s.runId = id) && s.binding == binding) "lifecycle-policy-changed"
      Proc.update (fun w => { w with state := s })
      pure (some s)

/-- A new run: its directory, its state and the pointer to it. -/
def begin (id : RunId) (s : State) : Cmd Unit := do
  let present ← look (fun _ w => (w.runs id).isSome)
  require (!present) "lifecycle-lab-run-already-consumed"
  atomic (fun _ w => w.makeDirectory id)
  look (fun _ _ => ())  -- `directory.chmod(0o711)`
  Proc.update (fun w => { w with state := s })
  atomic (fun _ w => w.writeState)
  atomic (fun _ w => w.writePointer id)

/-- The grant, if there is one. -/
def readGrant (binding : String) (granted : Bool) : Cmd (Option Grant) := do
  if granted then
    let g ← labWindow parse binding
    pure (some g)
  else pure none

/-- The slot of the call was used by the active run, or the grant was. -/
def alreadyFinished (state : Option State) (grant : Option Grant) (slot : Nat) : Bool :=
  match state, grant with
  | none, _ => false
  | some s, some g => s.runId == g.runId
  | some s, none => s.slot == slot

/-- The id of a new run. -/
def newRunId (grant : Option Grant) : Cmd RunId :=
  match grant with
  | some g => pure g.runId
  | none => look (fun m _ => m.token)

/-- A new run from its directory to its end. -/
def startRun (binding : String) (granted : Bool) (grant : Option Grant) (slot : Nat) : Cmd Result := do
  let id ← newRunId grant
  begin id { runId := id, binding := binding, slot := slot, labWindow := grant }
  look (fun _ _ => ())  -- `factory(policy, directory, state, save)`
  let outcome ← acceptance parse binding granted
  finish outcome.1 outcome.2

/-- The call without `--cleanup-only`. -/
def runNew (binding : String) (granted : Bool) (now : Nat) (state : Option State) : Cmd Result := do
  let grant ← readGrant parse binding granted
  if grant.isNone && !maintenanceOpen now then pure .deferred
  else if alreadyFinished state grant (slotOf now) then pure .slotAlreadyFinished
  else startRun parse binding granted grant (slotOf now)

/-- The call with `--cleanup-only` on a run that is not over. -/
def cleanupRun : Cmd Result := do
  look (fun _ _ => ())  -- `factory(policy, directory, state, save)`
  save (fun s => { s with failure := some (s.failure.getD "interrupted-lifecycle") })
  finish true false

/-- The three ways to call. -/
inductive Mode where
  | scheduled
  | granted
  | cleanupOnly
  deriving DecidableEq, Repr

/-- `execute` -/
def execute (binding : String) (mode : Mode) (now : Nat) : Cmd Result := do
  takeLock
  note .called
  let state ← readActive binding
  let ended := state.all (fun s => s.stage.terminal)
  match mode with
  | .cleanupOnly => if ended then pure .nothingToClean else cleanupRun
  | .scheduled =>
    require ended "interrupted-lifecycle-needs-cleanup" 75
    runNew parse binding false now state
  | .granted =>
    require ended "interrupted-lifecycle-needs-cleanup" 75
    runNew parse binding true now state

end

-- Sunday, 2026-07-05, a quarter past two and a quarter to four
example : maintenanceOpen (1783235700 * second) = true ∧
    maintenanceOpen (1783241100 * second) = false := by decide

end Hermes.Lifecycle

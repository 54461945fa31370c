import Hermes.Yaml

/- `harden-config.py`: the reviewed contract is applied to the configuration and the `.env` of a
   profile. The contract's collections are dropped before its configuration is merged, and a run
   that finds nothing changed, up to Python's equality, writes nothing. -/
namespace Hermes.HardenConfig
open Documents Yaml

/-! ## The contract -/

/-- What `load_contract` returns. -/
structure Contract where
  desired : Value
  desiredEnv : List (String × String)
  replacePaths : List String

/-- `[part for part in dotted.split(".") if part]` -/
def parts (dotted : String) : List ScalarKey :=
  ((dotted.toList.splitOn '.').filter (fun part => !part.isEmpty)).map fun part => name (String.ofList part)

/-- `{str(k): str(v) for k, v in env.items()}` -/
def envOf (tools : Tools) (env : Fields) : List (String × String) :=
  env.foldl (fun acc f => put id (tools.str (.scalar f.1)) (tools.str f.2) acc) []

/-- `version != CONTRACT_VERSION` -/
def isVersion : Option Value → Bool
  | some v => equal Scalar.key loose v (.scalar (.int 1))
  | none => false

def loadContract (tools : Tools) (text : String) : Except Failure Contract := do
  let contract := orElse (some (← tools.load (readText text))) (.map [])
  let version ← getKey contract "version"
  if isVersion version then do
    let desired := orElse (← getKey contract "config") (.map [])
    let env ← itemsOf (orElse (← getKey contract "env") (.map []))
    let replace ← iterate (orElse (← getKey contract "replace") (.list []))
    pure ⟨desired, envOf tools env, replace.map tools.str⟩
  else .error (.unsupportedVersion version)

/-! ## The configuration -/

/-- What a run reads and writes; `none` where there is no file. -/
structure Disk where
  config : Option String
  env : Option String
  backups : List (String × String)

def loadExisting (tools : Tools) (disk : Disk) : Except Failure Fields :=
  match disk.config with
  | none => .ok []
  | some content =>
    if strip (readText content) = "" then .ok []
    else match tools.load (readText content) with
      | .error .yamlError => .error .invalidYaml
      | .error e => .error e
      | .ok (.map fields) => .ok fields
      | .ok _ => .error .rootNotMapping

/-- `drop_path` for every path of the list. -/
def dropPaths (paths : List (List ScalarKey)) (d : Value) : Value := paths.foldl (fun d r => dropPath Scalar.key r d) d

/-- The fields of a mapping. -/
def fieldsOf : Value → Fields
  | .map fields => fields
  | _ => []

def Contract.paths (c : Contract) : List (List ScalarKey) := c.replacePaths.map parts

def applyContract (existing : Fields) (c : Contract) : Except Failure Fields := do
  let patch ← itemsOf c.desired
  pure (mergeFields Scalar.key patch (fieldsOf (dropPaths c.paths (.map existing))))

/-- `config["manual_profile"]`, where it is a mapping -/
def profileOf (config : Fields) : Fields :=
  match find Scalar.key (name "manual_profile") config with
  | some (.map fields) => fields
  | _ => []

/-- The record of the applied contract. -/
def setRecord (sha : String) (applied : Value) (config : Fields) : Fields :=
  let profile := put Scalar.key (.str "contract_version") (.scalar (.int 1)) (profileOf config)
  let profile := put Scalar.key (.str "contract_sha256") (str sha) profile
  put Scalar.key (.str "manual_profile") (.map (put Scalar.key (.str "applied_utc") applied profile)) config

/-- `previous_profile.get("applied_utc", stamp)` -/
def previousStamp (existing : Fields) (stamp : String) : Value :=
  (find Scalar.key (name "applied_utc") (profileOf existing)).getD (str stamp)

/-- The document without the time at which the contract was applied. -/
def effective (document : Fields) : Fields :=
  match find Scalar.key (name "manual_profile") document with
  | some (.map profile) =>
    alter Scalar.key (name "manual_profile") (fun _ => .map (pop Scalar.key (name "applied_utc") profile)) document
  | _ => document

/-- An empty map of hooks may be null or left out. -/
def runtimeEffective (document : Fields) : Fields :=
  let clone := effective document
  match find Scalar.key (name "hooks") clone with
  | some (.scalar .null) | none => put Scalar.key (.str "hooks") (.map []) clone
  | some _ => clone

/-! ## The environment -/

/-- The name that a line gives a value. -/
def assigned (line : String) : Option String :=
  if line.toList.contains '=' && !startsWith (String.ofList (lstripChars line.toList)) "#" then
    some (strip (String.ofList (line.toList.takeWhile (· ≠ '='))))
  else none

def envKey (line : String) : String := (assigned line).getD ""

/-- `f"{key}={value}"` -/
def assignment (key value : String) : String := key ++ "=" ++ value

def renderLine (desired : List (String × String)) (line : String) : String :=
  match find id (envKey line) desired with
  | some value => assignment (envKey line) value
  | none => line

/-- The lines, and one more for every name that none of them gives a value. -/
def renderLines (desired : List (String × String)) (lines : List String) : List String :=
  lines.map (renderLine desired) ++
    (desired.filter fun d => !(lines.map envKey).contains d.1).map fun d => assignment d.1 d.2

/-- `original`, and `[]` where there is no file -/
def envText (disk : Disk) : String := ((disk.env).map readText).getD ""

def envLines (disk : Disk) : List String := splitlines (envText disk)

/-- `updated` -/
def renderEnv (desired : List (String × String)) (disk : Disk) : String :=
  joinLines (renderLines desired (envLines disk)) ++ "\n"

def envNeedsUpdate (desired : List (String × String)) (disk : Disk) : Bool :=
  !desired.isEmpty && decide (renderEnv desired disk ≠ envText disk)

def updateEnv (desired : List (String × String)) (disk : Disk) : Disk :=
  if envNeedsUpdate desired disk then { disk with env := some (renderEnv desired disk) } else disk

/-! ## The run -/

structure Args where
  check : Bool
  runtimeCheck : Bool
  upgrade : Bool

inductive Report where
  /-- `PROFILE_CONTRACT_CHECK=FAIL` -/
  | fail
  /-- `PROFILE_CONTRACT_CHECK=PASS` -/
  | pass
  /-- `PROFILE_CONTRACT_UNCHANGED` -/
  | unchanged (envChanged : Bool)
  /-- `PROFILE_CONTRACT_APPLIED` -/
  | applied
  deriving DecidableEq

/-- `config.yaml.pre-contract-{stamp}`, with a number from the second on -/
def backupName (stamp : String) : Nat → String
  | 0 => "config.yaml.pre-contract-" ++ stamp
  | counter + 1 => "config.yaml.pre-contract-" ++ stamp ++ "-" ++ toString (counter + 1)

/-- The first number from `counter` on whose name is not taken. -/
def freeBackup (taken : List String) (stamp : String) : Nat → Nat → String
  | 0, counter => backupName stamp counter
  | fuel + 1, counter =>
    if taken.contains (backupName stamp counter) then freeBackup taken stamp fuel (counter + 1)
    else backupName stamp counter

def backup (stamp : String) (disk : Disk) : Disk :=
  match disk.config with
  | none => disk
  | some content =>
    let taken := disk.backups.map (·.1)
    { disk with backups := (freeBackup taken stamp taken.length 0, content) :: disk.backups }

def compared (args : Args) : Fields → Fields := if args.runtimeCheck then runtimeEffective else effective

def configChanged (args : Args) (disk : Disk) (existing config : Fields) : Bool :=
  !equal Scalar.key loose (.map (compared args existing)) (.map (compared args config)) || disk.config.isNone

/-- `atomic_write(config_path, yaml.safe_dump(config, sort_keys=False))` -/
def writeConfig (tools : Tools) (config : Fields) (disk : Disk) : Disk :=
  { disk with config := some (tools.dump (.map config)) }

/-- What is done, `config` being what the contract makes of the existing configuration. -/
def finish (tools : Tools) (args : Args) (stamp sha : String) (c : Contract) (disk : Disk) (existing config : Fields) :
    Report × Disk :=
  let hardened := setRecord sha (previousStamp existing stamp) config
  let changed := configChanged args disk existing hardened
  if args.check || args.runtimeCheck then
    (if changed || envNeedsUpdate c.desiredEnv disk then .fail else .pass, disk)
  else if args.upgrade || changed then
    (.applied, updateEnv c.desiredEnv (writeConfig tools (setRecord sha (str stamp) config) (backup stamp disk)))
  else (.unchanged (envNeedsUpdate c.desiredEnv disk), updateEnv c.desiredEnv disk)

/-- The hooks that the application resolves: whether there are any, unless it raises. -/
def checkHooks (args : Args) (hooks : Option Bool) : Except Failure Unit :=
  if args.runtimeCheck then
    match hooks with
    | some true => .error .runtimeHooks
    | some false => .ok ()
    | none => .error .runtimeUnverified
  else .ok ()

def main (tools : Tools) (args : Args) (hooks : Option Bool) (stamp contract : String) (disk : Disk) :
    Except Failure (Report × Disk) := do
  let c ← loadContract tools contract
  checkHooks args hooks
  let existing ← loadExisting tools disk
  let config ← applyContract existing c
  pure (finish tools args stamp (tools.sha256 contract) c disk existing config)

end Hermes.HardenConfig

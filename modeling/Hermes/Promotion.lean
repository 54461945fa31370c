import Mathlib.Algebra.Order.Ring.Int
import Hermes.Workstation

/- Promotion records and the gate that binds them (`promotion-record.sh`,
   `run_promotion_gate` of `deploy-lib.sh`). A record is a text of `key=value`
   lines; the gate decides from it and from the state directory, and then writes
   the binding one file after the other. -/
namespace Hermes.Promotion

/-! ## The record -/

/-- The keys of a record. -/
inductive Key where
  | schema
  | certificationId
  | promotionId
  | issuedAt
  | expiresAt
  | artifactFingerprint
  | isoSha256
  | isoSignature
  | fedoraVersion
  | kernel
  | podman
  | hermesImage
  | provider
  | model
  | inferenceResult
  | credentialsRevoked
  | dataPurged
  | vmDestroyed
  deriving DecidableEq, Repr

def Key.name : Key → String
  | .schema => "schema"
  | .certificationId => "certification_id"
  | .promotionId => "promotion_id"
  | .issuedAt => "issued_at"
  | .expiresAt => "expires_at"
  | .artifactFingerprint => "artifact_fingerprint"
  | .isoSha256 => "iso_sha256"
  | .isoSignature => "iso_signature"
  | .fedoraVersion => "fedora_version"
  | .kernel => "kernel"
  | .podman => "podman"
  | .hermesImage => "hermes_image"
  | .provider => "provider"
  | .model => "model"
  | .inferenceResult => "inference_result"
  | .credentialsRevoked => "credentials_revoked"
  | .dataPurged => "data_purged"
  | .vmDestroyed => "vm_destroyed"

def Key.all : List Key :=
  [.schema, .certificationId, .promotionId, .issuedAt, .expiresAt, .artifactFingerprint, .isoSha256,
    .isoSignature, .fedoraVersion, .kernel, .podman, .hermesImage, .provider, .model,
    .inferenceResult, .credentialsRevoked, .dataPurged, .vmDestroyed]

theorem Key.mem_all (k : Key) : k ∈ Key.all := by cases k <;> decide

def Key.ofName (name : String) : Option Key := Key.all.find? (fun k => k.name == name)

/-- The variables `PROMOTION_*`; an unset one is `none`. -/
abbrev Vars := Key → Option String

def Vars.set (vars : Vars) (k : Key) (value : String) : Vars :=
  fun j => if j = k then some value else vars j

def Vars.get (vars : Vars) (k : Key) : String := (vars k).getD ""

/-- `[[:space:]]` -/
def isBlank (c : Char) : Bool := c == ' ' || (9 ≤ c.toNat && c.toNat ≤ 13)

def isDigit (c : Char) : Bool := '0' ≤ c && c ≤ '9'

def isLower (c : Char) : Bool := 'a' ≤ c && c ≤ 'z'

/-- `[[:xdigit:]]` -/
def isXdigit (c : Char) : Bool := isDigit c || ('a' ≤ c && c ≤ 'f') || ('A' ≤ c && c ≤ 'F')

/-- A non-empty text of such characters. -/
def isAll (p : Char → Bool) (s : String) : Bool := !s.toList.isEmpty && s.toList.all p

/-- `^[[:xdigit:]]{64}$` -/
def isSha256 (s : String) : Bool := s.toList.length == 64 && s.toList.all isXdigit

def isKeyChar (c : Char) : Bool := isLower c || isDigit c || c == '_'

/-- `^([a-z][a-z0-9_]*)=([^[:space:]]+)$` -/
def parseLine (line : String) : Option (String × String) :=
  let key := line.toList.takeWhile isKeyChar
  match key, line.toList.dropWhile isKeyChar with
  | c :: _, '=' :: value =>
    if isLower c && !value.isEmpty && value.all (fun c => !isBlank c) then
      some (String.ofList key, String.ofList value)
    else none
  | _, _ => none

/-- The loop over the lines: a key twice, or an unknown one, ends it. -/
def loadLines : List String → Vars → Bool × Vars
  | [], vars => (true, vars)
  | line :: lines, vars =>
    match parseLine line with
    | none => (false, vars)
    | some (name, value) =>
      match Key.ofName name with
      | none => (false, vars)
      | some k => if (vars k).isSome then (false, vars) else loadLines lines (vars.set k value)

/-- A constant of arithmetic evaluation: octal after a leading zero, in 64 bits. -/
def arith (s : String) : Option Int :=
  match s.toList with
  | '0' :: c :: cs =>
    if (c :: cs).all (fun c => c ≤ '7') then
      some (Int.bmod ((c :: cs).foldl (fun n c => n * 8 + (c.toNat - 48)) 0) (2 ^ 64))
    else none
  | cs => some (Int.bmod (cs.foldl (fun n c => n * 10 + (c.toNat - 48)) 0) (2 ^ 64))

/-- `((a OP b))` of two constants. -/
def compares (op : Int → Int → Bool) (a b : Option Int) : Bool :=
  match a, b with
  | some x, some y => op x y
  | _, _ => false

/-- A number, then `rest`. -/
def afterNumber (rest : List Char → Bool) (cs : List Char) : Bool :=
  !(cs.takeWhile isDigit).isEmpty && rest (cs.dropWhile isDigit)

def afterDot (rest : List Char → Bool) : List Char → Bool
  | '.' :: cs => rest cs
  | _ => false

/-- `([.-][A-Za-z0-9]+)*$` from a place where a character of a word may follow or the
    text may end. -/
def isWords (word final : Bool) : List Char → Bool
  | [] => final
  | c :: cs =>
    if isAlnum c then word && isWords true true cs
    else final && (c == '.' || c == '-') && isWords true false cs

/-- `^[0-9]+\.[0-9]+\.[0-9]+([.-][A-Za-z0-9]+)*$` -/
def isVersion (s : String) : Bool :=
  afterNumber (afterDot (afterNumber (afterDot (afterNumber (isWords false true))))) s.toList

/-- `^[A-Za-z0-9._-]+$` -/
def isId (s : String) : Bool := isAll (fun c => isAlnum c || c == '.' || c == '_' || c == '-') s

/-- `^[-A-Za-z0-9._:/]+$` -/
def isModel (s : String) : Bool :=
  isAll (fun c => isAlnum c || c == '.' || c == '_' || c == ':' || c == '/' || c == '-') s

/-- `^[-A-Za-z0-9._:+/]+$` -/
def isKernel (s : String) : Bool :=
  isAll (fun c => isAlnum c || c == '.' || c == '_' || c == ':' || c == '+' || c == '/' || c == '-') s

def isProvider (s : String) : Bool := s == "openai-codex" || s == "openai-api" || s == "nous"

def promotionSchema : String := "hermes-promotion-v1"

def promotionWindowSeconds : Int := 86400

/-- The checks after the loop, every key being there. -/
def checkVars (vars : Vars) : Bool :=
  let issued := arith (vars.get .issuedAt)
  let expires := arith (vars.get .expiresAt)
  vars.get .schema == promotionSchema &&
    isId (vars.get .certificationId) && isId (vars.get .promotionId) &&
    isAll isDigit (vars.get .issuedAt) && isAll isDigit (vars.get .expiresAt) &&
    compares (fun e i => e > i) expires issued &&
    compares (fun e i => Int.bmod (e - i) (2 ^ 64) ≤ promotionWindowSeconds) expires issued &&
    isSha256 (vars.get .artifactFingerprint) && isSha256 (vars.get .isoSha256) &&
    vars.get .isoSignature == "verified" && vars.get .fedoraVersion == "44" &&
    isKernel (vars.get .kernel) && isVersion (vars.get .podman) &&
    startsWith (vars.get .hermesImage) "docker.io/nousresearch/hermes-agent@sha256:" &&
    isProvider (vars.get .provider) && isModel (vars.get .model) &&
    vars.get .inferenceResult == "HERMES_OK" && vars.get .credentialsRevoked == "true" &&
    vars.get .dataPurged == "true" && vars.get .vmDestroyed == "true"

/-- The file at the path of a record. -/
structure RecordFile where
  regular : Bool := true
  readable : Bool := true
  symlink : Bool := false
  /-- `stat -c '%a'` -/
  mode : String := "600"
  lines : List String

/-- `promotion_record_load`: whether it returned zero, and the variables it leaves. -/
def promotionRecordLoad (record : RecordFile) : Bool × Vars :=
  if record.regular && record.readable && !record.symlink && record.mode == "600" then
    match loadLines record.lines (fun _ => none) with
    | (false, vars) => (false, vars)
    | (true, vars) => (Key.all.all (fun k => (vars k).isSome) && checkVars vars, vars)
  else (false, fun _ => none)

/-- `promotion_record_validate` -/
def promotionRecordValidate (record : RecordFile) (provider model image fingerprint : String)
    (now : Int) : Nat × Vars :=
  let loaded := promotionRecordLoad record
  let vars := loaded.2
  if !loaded.1 then (1, vars)
  else if vars.get .provider ≠ provider ∨ vars.get .model ≠ model then (1, vars)
  else if vars.get .hermesImage ≠ image then (1, vars)
  else if vars.get .artifactFingerprint ≠ fingerprint then (1, vars)
  else if !compares (· ≤ ·) (arith (vars.get .issuedAt)) (some now) then (1, vars)
  else if !compares (· ≤ ·) (some now) (arith (vars.get .expiresAt)) then (2, vars)
  else (0, vars)

/-! ## The host -/

/-- A host as the gate knows it: the hash of its machine id and its SSH fingerprint. -/
structure HostIdentity where
  machineIdSha256 : String
  sshFingerprint : String
  deriving DecidableEq, Repr

/-- `sed -n 's/^key=//p' | tail -n 1` -/
def lastValue (key : String) (lines : List String) : String :=
  (((lines.filter (fun l => startsWith l (key ++ "="))).map
    (fun l => removeStart l (key ++ "="))).getLast?).getD ""

/-- `^SHA256:[A-Za-z0-9+/]+={0,2}$` -/
def isSshFingerprint (s : String) : Bool :=
  let body := (removeStart s "SHA256:").toList
  let isBase := fun c => isAlnum c || c == '+' || c == '/'
  startsWith s "SHA256:" && !(body.takeWhile isBase).isEmpty &&
    (body.dropWhile isBase == [] || body.dropWhile isBase == ['='] ||
      body.dropWhile isBase == ['=', '='])

/-- `read_host_identity` -/
def readHostIdentity (output : List String) : Option HostIdentity :=
  let machine := lastValue "machine_id_sha256" output
  let ssh := lastValue "ssh_host_ed25519_fingerprint" output
  if isSha256 machine && isSshFingerprint ssh then some ⟨machine, ssh⟩ else none

/-! ## The gate -/

def expectedImage : String :=
  "docker.io/nousresearch/hermes-agent@sha256:" ++
    "e0df6adebddf29b91112aefc999d4aaf6846c9eb544faca5672a16a13590ff79"

/-- What the operator selected. -/
structure Selection where
  /-- `certification_context_is_valid` -/
  certification : Bool := false
  /-- `--promotion-record` -/
  promotionRecord : String
  provider : String
  model : String

/-- What the gate finds outside. -/
structure Findings where
  /-- `promotion_record_fingerprint`, if it can be computed -/
  fingerprint : Option String
  file : RecordFile
  /-- the output of `root_action host-identity` -/
  identity : List String
  /-- `date -u +%s`, at the validation and at the end -/
  now : Int
  boundAt : String := ""

/-- What a run of the gate comes to. -/
inductive Gate where
  /-- The VM certification produces the record and passes no gate. -/
  | skipped
  | refused (code : Nat)
  /-- The bound deployment goes on; nothing is written. -/
  | resumed
  | binding (writes : List (StateFile × String))
  deriving DecidableEq, Repr

/-- The files of a binding, in the order they are written. -/
def bindingWrites (record : String) (vars : Vars) (host : HostIdentity) (boundAt : String) :
    List (StateFile × String) :=
  [(.promotionRecord, record),
    (.promotionId, vars.get .promotionId),
    (.promotionProvider, vars.get .provider),
    (.promotionModel, vars.get .model),
    (.promotionArtifactFingerprint, vars.get .artifactFingerprint),
    (.hostMachineIdSha256, host.machineIdSha256),
    (.hostSshFingerprint, host.sshFingerprint),
    (.promotionBoundAt, boundAt)]

/-- The gate on a directory without a binding. -/
def gateFirst (rc : Nat) (writes : List (StateFile × String)) : Gate :=
  if rc = 0 then .binding writes else if rc = 2 then .refused 75 else .refused 78

/-- The gate with the bound record presented again. -/
def gateResume (rc : Nat) (writes : List (StateFile × String)) : Gate :=
  if rc = 0 then .binding writes else if rc = 2 then .resumed else .refused 78

/-- The gate with the bound provider and model selected again. An unset variable ends
    the shell under nounset. -/
def gateAgain (rc : Nat) (vars : Vars) (writes : List (StateFile × String)) (d : StateDir) : Gate :=
  match vars .promotionId with
  | none => .refused 1
  | some id =>
    if id ≠ d.read .promotionId then .refused 78
    else
      match vars .artifactFingerprint with
      | none => .refused 1
      | some fingerprint =>
        if fingerprint ≠ d.read .promotionArtifactFingerprint then .refused 78
        else gateResume rc writes

/-- The gate on a directory that names a promotion. -/
def gateBound (o : Selection) (rc : Nat) (vars : Vars) (host : HostIdentity)
    (writes : List (StateFile × String)) (d : StateDir) : Gate :=
  if d.read .hostMachineIdSha256 ≠ host.machineIdSha256 ∨
      d.read .hostSshFingerprint ≠ host.sshFingerprint then .refused 78
  else if d.read .promotionProvider = o.provider ∧ d.read .promotionModel = o.model then
    gateAgain rc vars writes d
  else if rc = 0 then .binding writes else .refused 75

/-- The decision, once the record and the host are read. -/
def gateDecide (o : Selection) (x : Findings) (fingerprint : String) (host : HostIdentity)
    (d : StateDir) : Gate :=
  let validated := promotionRecordValidate x.file o.provider o.model expectedImage fingerprint x.now
  let writes := bindingWrites o.promotionRecord validated.2 host x.boundAt
  if d.read .promotionId ≠ "" then gateBound o validated.1 validated.2 host writes d
  else gateFirst validated.1 writes

/-- `run_promotion_gate` up to its writes. -/
def runPromotionGate (o : Selection) (x : Findings) (d : StateDir) : Gate :=
  if o.certification then .skipped
  else if o.promotionRecord = "" then .refused 75
  else if !startsWith o.promotionRecord "/" then .refused 64
  else
    match x.fingerprint with
    | none => .refused 66
    | some fingerprint =>
      match readHostIdentity x.identity with
      | none => .refused 78
      | some host => gateDecide o x fingerprint host d

/-! ## The other commands that touch the binding -/

/-- `init_state` -/
def initState (target cidr interface : String) : List (StateFile × String) :=
  [(.target, target), (.managementCidr, cidr), (.interface, interface)]

/-- `mark_local_stage` -/
def markLocalStage (s : Stage) (time : String) : List (StateFile × String) :=
  [(.stage s, time), (.currentPhase, s.name)]

/-- What `reset_local_state_after_rollback` removes, in order. -/
def staleState : List StateFile :=
  Stage.all.map .stage ++
    [.currentPhase, .provider, .model, .promotionRecord, .promotionId, .promotionProvider,
      .promotionModel, .promotionArtifactFingerprint, .promotionBoundAt, .hostMachineIdSha256,
      .hostSshFingerprint]

/-- `adopt_host_command` after the confirmation: refused, or the files it writes. -/
def adoptHost (d : StateDir) (host : HostIdentity) (target cidr interface time : String) :
    Option (List (StateFile × String)) :=
  if d.present && !(d.read .hostMachineIdSha256 == host.machineIdSha256 &&
      d.read .hostSshFingerprint == host.sshFingerprint) then none
  else some (initState target cidr interface ++
    [(.hostMachineIdSha256, host.machineIdSha256), (.hostSshFingerprint, host.sshFingerprint),
      (.platform, "fedora-server-44"), (.adoptedAt, time)])

example : parseLine "model=gpt-5.6=luna" = some ("model", "gpt-5.6=luna") := by decide
example : arith "010" = some 8 ∧ arith "08" = none ∧ arith "86400" = some 86400 := by decide
example : isVersion "5.4.2-rc1" = true ∧ isVersion "5.4" = false := by decide

end Hermes.Promotion

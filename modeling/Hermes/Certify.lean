import Hermes.Credentials

/- `certify.py`: the certifier of one candidate. It keeps a journal (`state.json`),
   drives the candidate in a disposable guest over ssh, has the credential broker
   issue a lease named after the run, and leaves a record for each gate. However
   `execute` ends, `cleanup` takes the credential back; `--cleanup-only` does so for
   a run that was interrupted, from its journal.

   The broker is the one of `credentials.py`, reached through `credentials.client`:
   while it serves a request the certifier waits, so both read one script. What the
   guest answers to an action is the parameter `guest`: a reply, or the reason of a
   failure. -/
namespace Hermes.Certification
open Process

/-- The stages that the certifier saves. -/
inductive Stage where
  | new
  | staging
  | snapshot
  | issuingTestCredential
  | deploying
  | rebootPending
  | persistenceReboot
  | closed
  | coldBoot
  | previousBoot
  | returnUpdatedBoot
  | semanticRestore
  | scanning
  | passed
  | failed
  | complete
  deriving DecidableEq, Repr

/-- The stages that a deployment reports. -/
def deployedStage (s : String) : Option Stage :=
  if s = "reboot-pending" then some .rebootPending
  else if s = "persistence-reboot" then some .persistenceReboot
  else if s = "closed" then some .closed
  else none

/-- The policy file of the certifier. -/
structure Config where
  schema : String := "hermes-certify-v1"
  certifierUid : Int
  domainUuid : String := "4db6369a-2b8b-427f-a47a-a5d83bb40cff"
  target : String := "hermes-certify@172.16.99.12"
  credentialSocket : String := "/run/hermes-lab-credentials/broker.sock"
  runId : String
  kernel : String
  /-- identity file, known hosts, candidate, state and evidence directories, backup
      repository and its password file -/
  paths : List String

/-- `config['run_id'][:32]` -/
def Config.lease (c : Config) : Lease := String.ofList (c.runId.toList.take 32)

/-- `state.json` -/
structure State where
  runId : String
  fingerprint : String
  stage : Stage := .new
  lease : Option Lease := none
  failure : Option String := none
  deriving DecidableEq, Repr

/-- Why `credentials.client` raised: the broker answered with a refusal; no connection, or
    it broke or timed out; anything else. -/
inductive Refusal where
  | rejected
  | transport
  | other
  deriving DecidableEq, Repr

/-- An entry of `attempts`, `none` for `PASS`. -/
structure Attempt where
  attempt : Nat
  reason : Option Refusal
  deriving DecidableEq, Repr

structure World where
  /-- the fingerprint of the frozen candidate, where `candidate` accepts it -/
  candidate : Option String
  /-- `state.json` -/
  journal : Option State
  /-- `self.state` -/
  state : State
  /-- `self.lease_attempted` -/
  leaseAttempted : Bool
  /-- `self.revocation_attempts` -/
  attempts : List Attempt
  /-- the gates that have a record -/
  gates : List String
  broker : Broker

/-- The directories of a run that was not started, beside a broker. -/
def World.fresh (candidate : Option String) (b : Broker) : World :=
  ⟨candidate, none, ⟨"", "", .new, none, none⟩, false, [], [], b⟩

abbrev Cmd := Task World

/-- `getattr(error, 'reason', otherwise)` -/
def reasonOf (otherwise : String) : Exc → String
  | .failure _ reason => reason
  | _ => otherwise

/-- `re.fullmatch(r'[A-Za-z0-9._-]+', s)` -/
def isKernel (s : String) : Bool :=
  !s.toList.isEmpty && s.toList.all (fun c => isAlnum c || c == '.' || c == '_' || c == '-')

/-- `validate_config`; `uid` is `os.getuid()`. -/
def validateConfig (uid : Int) (c : Config) : Cmd Unit := do
  require (c.schema == "hermes-certify-v1") "invalid-certifier-policy"
  require (c.domainUuid == "4db6369a-2b8b-427f-a47a-a5d83bb40cff" &&
    c.target == "hermes-certify@172.16.99.12") "certifier-requires-fixed-lab"
  require (decide (0 < c.certifierUid) && c.certifierUid == uid) "wrong-certifier-identity" 77
  require (c.credentialSocket == "/run/hermes-lab-credentials/broker.sock")
    "non-lab-broker-forbidden"
  require (isHex 64 64 c.runId && isKernel c.kernel) "invalid-certifier-run"
  require (c.paths.all (fun p => startsWith p "/")) "relative-certifier-path"

/-- `candidate`: the fingerprint of the manifest, once every file was compared with it. -/
def candidate : Cmd String := do
  let found ← peek (·.candidate)
  match found with
  | some fingerprint => pure fingerprint
  | none => fail 78 "frozen-candidate-changed"

/-- `save` -/
def save (stage : Stage) (f : State → State := id) : Cmd Unit := do
  Proc.update (fun w => { w with state := { f w.state with stage := stage } })
  atomic (fun _ w => { w with journal := some w.state })

/-- `gate`: a record is never written twice. -/
def gate (name : String) : Cmd Unit := do
  let present ← peek (·.gates.contains name)
  require (!present) "gate-evidence-already-exists"
  atomic (fun _ w => { w with gates := name :: w.gates })

/-! ## The broker's client -/

section Broker
variable (policy : BrokerPolicy) (admin : String) (uid : Int)

/-- One step of the connection to the broker. -/
def transmit : Cmd (Option Refusal) :=
  Proc.perform fun m w =>
    match m.verdict with
    | .done => (.ok none, w)
    | .killed => (.error .killed, w)
    | .missing => (.ok (some .other), w)
    | _ => (.ok (some .transport), w)

/-- The exceptions that the broker's handler answers with `"ok": false`. -/
def answered : Exc → Bool
  | .failure _ _ => true
  | .osError => true
  | .valueError => true
  | .keyError => true
  | _ => false

/-- The request frame. -/
def frame (operation : String) (lease : Lease) : Json :=
  .obj [("operation", .str operation), ("role", .str "test"), ("lease", .str lease)]

/-- The broker's `Handler.handle`, as the other side sees it. -/
def serveRequest (operation : String) (lease : Lease) : Cmd (Except Exc BrokerReply) :=
  Proc.outcome (Proc.zoom World.broker (fun w b => { w with broker := b })
    (Broker.handle policy admin uid (frame operation lease)))

/-- `credentials.client`: connect, send the frame, and read the answer, or nothing where
    the handler did not live to answer. -/
def client (operation : String) (lease : Lease) : Cmd (Except Refusal BrokerReply) := do
  let connected ← transmit
  match connected with
  | some refusal => pure (.error refusal)
  | none =>
    let answer ← serveRequest policy admin uid operation lease
    let delivered ← transmit
    match delivered, answer with
    | some refusal, _ => pure (.error refusal)
    | none, .ok reply => pure (.ok reply)
    | none, .error e => pure (.error (if answered e then .rejected else .other))

/-- What `client` raises. -/
def clientFailure {α : Type} : Refusal → Cmd α
  | .rejected => fail 69 "credential-broker-rejected"
  | .transport => Proc.raise .osError
  | .other => fail 64 "invalid-json"

/-- One attempt of a revocation, and why it failed, if it did. -/
def revocationAttempt (lease : Lease) (attempt : Nat) : Cmd (Option Refusal) := do
  let result ← client policy admin uid "revoke" lease
  let reason := match result with
    | .ok _ => none
    | .error refusal => some refusal
  Proc.update (fun w => { w with attempts := w.attempts ++ [⟨attempt, reason⟩] })
  pure reason

/-- The attempts of a revocation while `left` more may follow: only a refusal of the broker
    and a broken connection are tried again. -/
def revokeAttempts (lease : Lease) : Nat → Cmd Unit
  | 0 => do
    let reason ← revocationAttempt policy admin uid lease 3
    match reason with
    | none => pure ()
    | some refusal => clientFailure refusal
  | left + 1 => do
    let reason ← revocationAttempt policy admin uid lease (2 - left)
    match reason with
    | none => pure ()
    | some .other => clientFailure .other
    | some _ => revokeAttempts lease left

/-- `revoke_test_credential` -/
def revokeTestCredential (lease : Lease) : Cmd Unit := do
  Proc.update (fun w => { w with attempts := [] })
  revokeAttempts policy admin uid lease 2

end Broker

/-! ## The run -/

section Run
variable (guest : String → List (String × Json) → Moment → Except String Json)

/-- `exchange`: an action of the guest with its values, and its reply. -/
def request (action : String) (values : List (String × Json) := []) : Cmd Json :=
  Proc.perform fun m w =>
    match m.verdict with
    | .done => match guest action values m with
      | .ok reply => (.ok reply, w)
      | .error reason => (.error (.failure 78 reason), w)
    | .killed => (.error .killed, w)
    | .timeout => (.error .timeoutExpired, w)
    | _ => (.error (.failure 69 "lab-transport-unavailable"), w)

/-- `reply[key]` -/
def field (reply : Json) (key : String) : Cmd Json :=
  match reply.get key with
  | some value => pure value
  | none => Proc.raise .keyError

/-- `reply[key]` where the code compares it with texts. -/
def textOf : Json → String
  | .str s => s
  | _ => ""

/-- `rejection`: the guest must refuse, for the reason expected. -/
def rejection (action : String) (values : List (String × Json)) (expected : String) : Cmd Unit := do
  let failure ← failureOf (do let _ ← request guest action values; pure ())
  match failure with
  | none => fail 78 "negative-test-accepted"
  | some (.failure _ reason) => require (reason == expected) "wrong-negative-test-failure"
  | some e => Proc.raise e

/-- `cold_boot` -/
def coldBoot (observation : String := "observe") : Cmd Json := do
  command (fun _ => true) (fun _ w => w)  -- `lab-power shutdown`, until the domain is off
  command (fun _ => true) (fun _ w => w)  -- `lab-power start`
  request guest observation

/-- `retryable_boot_error`: the connection was lost while a reboot was pending. -/
def retryableBootError (stages : List Stage) (e : Exc) : Bool :=
  (stages.getLast? == some .rebootPending || stages.getLast? == some .persistenceReboot) &&
    (e == .timeoutExpired ||
      match e with
      | .failure _ reason => reason == "lab-transport-unavailable"
      | _ => false)

/-- The stage that `deploy` reports, or `none` where the answer was lost in a reboot. -/
def deployOnce (stages : List Stage) : Cmd (Option String) :=
  Proc.handle (do
    let result ← request guest "deploy"
    let stage ← field result "stage"
    pure (some (textOf stage))) fun e =>
    if retryableBootError stages e then pure none else Proc.raise e

/-- The deployment loop, with `passes` more passes of ten seconds before the deadline. -/
def deployLoop : Nat → List Stage → Cmd (List Stage)
  | 0, _ => fail 69 "candidate-deployment-timeout"
  | passes + 1, stages => do
    let reported ← deployOnce guest stages
    match reported with
    | none => deployLoop passes stages
    | some text =>
      match deployedStage text with
      | none => fail 78 "unexpected-deployment-stage"
      | some stage => do
        let stages' := if stages.getLast? = some stage then stages else stages ++ [stage]
        onlyIf (stages.getLast? != some stage) (save stage)
        if stage = .closed then pure stages' else deployLoop passes stages'

/-- `'0'*64` -/
def zeros : Json := .str (String.ofList (List.replicate 64 '0'))

/-- `execute`, up to the snapshot of the guest: what the guest has to refuse before there
    is a backup, whether the lock probe was turned away, and the receipt of the snapshot. -/
def stageCandidate (fingerprint : String) : Cmd (Bool × Json) := do
  save .staging
  rejection guest "status" [("run_id", zeros)] "invalid-lab-run"
  rejection guest "status" [("command", .str "forbidden")] "unexpected-lab-fields"
  rejection guest "stage" [("corrupt", .bool true)] "candidate-member-hash-mismatch"
  let staged ← request guest "stage"
  let reported ← field staged "artifact_fingerprint"
  require (textOf reported == fingerprint) "staged-candidate-mismatch"
  let status ← request guest "status"
  let stage ← field status "stage"
  require (textOf stage == "new") "non-clean-candidate-state"
  rejection guest "credential" [("key", .str "synthetic-not-a-key")] "credential-stage-mismatch"
  rejection guest "deploy" [] "release-needs-recovery"
  let probe ← request guest "lock-probe"
  let turnedAway ← field probe "stage"
  let _ ← request guest "seed"
  save .snapshot
  let receipt ← request guest "snapshot"
  pure (textOf turnedAway == "lock-rejected", receipt)

/-- The id and the digest of the encrypted backup of the guest's snapshot. -/
def backUp (receipt : Json) : Cmd (String × String) := do
  rejection guest "backup-verified" [("backup_snapshot", zeros), ("snapshot_sha256", zeros)]
    "backup-digest-mismatch"
  let sent ← request guest "backup"
  let received ← field sent "sha256"
  let announced ← field receipt "snapshot_sha256"
  require (textOf received == textOf announced) "snapshot-hash-mismatch"
  let snapshot ← query (fun _ => true) (fun m _ => m.text)  -- `backup_snapshot`
  let _ ← request guest "backup-verified"
    [("backup_snapshot", .str snapshot), ("snapshot_sha256", announced)]
  pure (snapshot, textOf announced)

/-- The deployment, and the gates it passes; the observation of the running guest. -/
def deployCandidate : Cmd Json := do
  save .deploying
  let stages ← deployLoop guest 361 []
  require (stages == [.rebootPending, .persistenceReboot, .closed]) "missing-deployment-boot-stage"
  let warm ← request guest "observe"
  gate "package_replay"
  gate "inference"
  pure warm

/-- The gates after the deployment: cold boot, the previous boot and back, and a second
    deployment that changes nothing. -/
def acceptDeployment (warm : Json) : Cmd Unit := do
  save .coldBoot
  let cold ← coldBoot guest
  let warmBoot ← field warm "boot_id"
  let coldBootId ← field cold "boot_id"
  require (textOf coldBootId != textOf warmBoot) "cold-boot-id-unchanged"
  gate "boot"
  gate "runtime"
  save .previousBoot
  let _ ← request guest "select-previous"
  let _ ← coldBoot guest "observe-previous"
  save .returnUpdatedBoot
  let _ ← request guest "select-updated"
  let _ ← coldBoot guest "observe-returned"
  command (fun _ => true) (fun _ w => w)  -- `verify_sequence`
  gate "previous_boot"
  let before ← request guest "observe"
  let deployed ← request guest "deploy"
  let upgraded ← request guest "upgrade"
  let first ← field deployed "stage"
  let second ← field upgraded "stage"
  require (textOf first == "closed" && textOf second == "closed") "closed-rerun-failed"
  let after ← request guest "observe"
  let bootBefore ← field before "boot_id"
  let bootAfter ← field after "boot_id"
  let packagesBefore ← field before "package_inventory"
  let packagesAfter ← field after "package_inventory"
  require (textOf bootBefore == textOf bootAfter && textOf packagesBefore == textOf packagesAfter)
    "rerun-mutated-boot-or-packages"

/-- The semantic restore, and the scan of a candidate that is still the same. -/
def restoreAndScan (fingerprint : String) (turnedAway : Bool) (backup : String × String) :
    Cmd Unit := do
  save .semanticRestore
  let _ ← request guest "damage"
  rejection guest "restore" [("size", .int 1), ("sha256", zeros)] "invalid-restore-frame"
  let restored ← query (fun _ => true) (fun m _ => m.text)  -- `restic dump`
  require (restored == backup.2) "restore-transport-changed"
  let _ ← request guest "restore" [("sha256", .str backup.2)]
  let _ ← request guest "restore-check"
  gate "restore"
  require turnedAway "negative-matrix-incomplete"
  command (fun _ => true) (fun _ w => w)  -- `negative-matrix.json`
  save .scanning
  command (fun _ => true) (fun _ w => w)  -- `scan`
  let now ← candidate
  require (now == fingerprint) "candidate-changed-during-certification"
  save .passed

section Main
variable (policy : BrokerPolicy) (admin : String) (config : Config)

/-- The lease is journaled before the broker is asked for it. -/
def issueCredential : Cmd Unit := do
  save .issuingTestCredential (fun s => { s with lease := some config.lease })
  Proc.update (fun w => { w with leaseAttempted := true })
  let secret ← client policy admin config.certifierUid "issue" config.lease
  match secret with
  | .error refusal => clientFailure refusal
  | .ok reply =>
    let value := match reply with
      | .key _ key => key.value
      | _ => ""
    let _ ← request guest "credential" [("key", .str value)]
    pure ()

/-- `execute` -/
def execute (fingerprint : String) : Cmd Unit := do
  let (turnedAway, receipt) ← stageCandidate guest fingerprint
  let backup ← backUp guest receipt
  issueCredential guest policy admin config
  let warm ← deployCandidate guest
  acceptDeployment guest warm
  restoreAndScan guest fingerprint turnedAway backup

/-- `'-and-'.join(errors)` -/
def cleanupErrors (restored revoked : Bool) : String :=
  if restored then "provider-revocation-failed"
  else if revoked then "prior-credential-restoration-failed"
  else "prior-credential-restoration-failed-and-provider-revocation-failed"

/-- `Certifier.cleanup` of a lease that was attempted: the guest's former credential and the
    provider's account are taken care of independently. -/
def cleanup (lease : Lease) : Cmd Unit := do
  let restoration ← failureOf (do let _ ← request guest "cleanup-credential"; pure ())
  let revocation ← failureOf (do
    revokeTestCredential policy admin config.certifierUid lease
    let present ← peek (·.gates.contains "credential_revocation")
    onlyIf (!present) (gate "credential_revocation"))
  require (restoration.isNone && revocation.isNone)
    (cleanupErrors restoration.isNone revocation.isNone) 69

/-- `Certifier(config)` -/
def start (uid : Int) : Cmd String := do
  validateConfig uid config
  let fingerprint ← candidate
  let started ← peek (·.journal.isSome)
  require (!started) "certification-run-already-started"
  Proc.update (fun w => { w with
    state := ⟨config.runId, fingerprint, .new, none, none⟩
    leaseAttempted := false })
  save .new
  pure fingerprint

inductive Answer where
  | noCredentialIssued
  | credentialCleanupComplete
  | complete
  deriving DecidableEq, Repr

/-- `main` without `--cleanup-only`. -/
def certify (uid : Int) : Cmd Answer := do
  let fingerprint ← start config uid
  let failed ← failureOf (execute guest policy admin config fingerprint)
  let attempted ← peek (·.leaseAttempted)
  let cleanupFailed ← failureOf (onlyIf attempted (cleanup guest policy admin config config.lease))
  match failed.or cleanupFailed with
  | none => do
    save .complete
    pure .complete
  | some _ =>
    let reason := (failed.map (reasonOf "certification-command-failed")).or
      (cleanupFailed.map (reasonOf "certification-cleanup-failed"))
    save .failed (fun s => { s with failure := reason })
    fail 69 (reason.getD "")

/-- `main` with `--cleanup-only`. -/
def cleanupOnly (uid : Int) : Cmd Answer := do
  validateConfig uid config
  let fingerprint ← candidate
  let journal ← peek (·.journal)
  match journal with
  | none => pure .noCredentialIssued
  | some s =>
    require (s.runId == config.runId && s.fingerprint == fingerprint) "cleanup-run-binding-mismatch"
    match s.lease with
    | none => pure .noCredentialIssued
    | some lease =>
      require (lease == config.lease) "cleanup-lease-mismatch"
      Proc.update (fun w => { w with state := s, leaseAttempted := true })
      cleanup guest policy admin config lease
      pure .credentialCleanupComplete

end Main

end Run

end Hermes.Certification

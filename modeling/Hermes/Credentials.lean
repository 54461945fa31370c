import Hermes.Text
import Hermes.Common

/- `credentials.py`: the fixed-project credential broker, with the provider
   interface it drives.

   The broker keeps two files for a lease, `<lease>.json` (`records`) and
   `<lease>.cred` (`creds`, the key sealed by `systemd-creds`), and talks to the
   provider through `OpenAI.call`. The state carries a log, the newest event
   first: every request sent to the provider with the answer, every record
   written, every key handed to a peer. No modelled function reads the log. -/
namespace Hermes
open Process

abbrev Lease : Type := String

/-- `re.fullmatch(r"[a-f0-9]{32}", lease)`. -/
def isLease (s : String) : Bool := isHex 32 32 s

inductive Role where
  | test
  | production
  deriving DecidableEq, Repr

inductive LeaseState where
  | issuing
  | ready
  | deleted
  | revoked
  deriving DecidableEq, Repr

/-- The order in which a lease moves through its states. -/
def LeaseState.rank : LeaseState → Nat
  | .issuing => 0
  | .ready => 1
  | .deleted => 2
  | .revoked => 3

/-- A provider key. It remembers the service account it was created for; the code
    only ever looks at the value. -/
structure Key where
  account : String
  value : String
  deriving DecidableEq, Repr

/-- `<lease>.json`. -/
structure Record where
  role : Role
  state : LeaseState
  name : String
  createdAt : Nat
  accountId : Option String := none
  deriving DecidableEq, Repr

/-- The name of the service account of a lease. -/
def accountName (lease : Lease) : String := "hermes-" ++ lease

/-- One request to the provider and its answer, `none` if no answer arrived. -/
structure Call where
  method : Method
  path : String
  name : Option String
  bearer : String
  reply : Option Reply

inductive BrokerEvent where
  | called (c : Call)
  | recorded (lease : Lease) (r : Record)
  | gave (lease : Lease) (key : Key)

structure Broker where
  records : Lease → Option Record
  creds : Lease → Option Key
  log : List BrokerEvent

/-- An empty state directory. -/
def Broker.empty : Broker := ⟨fun _ => none, fun _ => none, []⟩

def Broker.append (b : Broker) (e : BrokerEvent) : Broker := { b with log := e :: b.log }

/-- The state after `<lease>.json` is written. -/
def Broker.record (b : Broker) (lease : Lease) (r : Record) : Broker :=
  { b with
    records := fun l => if l = lease then some r else b.records l
    log := .recorded lease r :: b.log }

/-- The state after `<lease>.cred` is written or unlinked. -/
def Broker.setCred (b : Broker) (lease : Lease) (key : Option Key) : Broker :=
  { b with creds := fun l => if l = lease then key else b.creds l }

section Simp
variable (b : Broker) (lease l : Lease) (r : Record) (key : Option Key) (e : BrokerEvent)

@[simp] theorem append_records : (b.append e).records = b.records := rfl
@[simp] theorem append_creds : (b.append e).creds = b.creds := rfl
@[simp] theorem append_log : (b.append e).log = e :: b.log := rfl
@[simp] theorem record_same : (b.record lease r).records lease = some r := by simp [Broker.record]
theorem record_other (h : l ≠ lease) : (b.record lease r).records l = b.records l := by
  simp [Broker.record, h]
@[simp] theorem record_creds : (b.record lease r).creds = b.creds := rfl
@[simp] theorem record_log : (b.record lease r).log = .recorded lease r :: b.log := rfl
@[simp] theorem setCred_records : (b.setCred lease key).records = b.records := rfl
@[simp] theorem setCred_same : (b.setCred lease key).creds lease = key := by simp [Broker.setCred]
theorem setCred_other (h : l ≠ lease) : (b.setCred lease key).creds l = b.creds l := by
  simp [Broker.setCred, h]
@[simp] theorem setCred_log : (b.setCred lease key).log = b.log := rfl

end Simp

/-! The broker policy (`Broker.__init__`). -/

/-- `re.fullmatch(r"proj_[A-Za-z0-9_-]+", project)`. -/
def isProject (s : String) : Bool := startsWith s "proj_" && isWord (removeStart s "proj_")

def policyAccepted (testProject : String) (productionProject : Option String) (testUid : Int)
    (productionUid : Option Int) : Bool :=
  let disabled := productionProject.isNone && productionUid.isNone
  isProject testProject && (disabled || productionProject.any isProject) &&
    productionProject != some testProject && decide (0 < testUid) &&
    (disabled || productionUid.any (fun u => decide (0 < u) && u != testUid))

/-- A policy the broker starts with. -/
structure BrokerPolicy where
  testProject : String
  productionProject : Option String
  testUid : Int
  productionUid : Option Int
  accepted : policyAccepted testProject productionProject testUid productionUid = true

/-- `policy[role + "_project"]`. -/
def BrokerPolicy.project (p : BrokerPolicy) : Role → Option String
  | .test => some p.testProject
  | .production => p.productionProject

/-- `policy[role + "_uid"]`. -/
def BrokerPolicy.uid (p : BrokerPolicy) : Role → Option Int
  | .test => some p.testUid
  | .production => p.productionUid

/-! The provider (`OpenAI`). -/

/-- `token or self.admin`: an empty token is no token. -/
def bearerOf (admin : String) : Option String → String
  | none => admin
  | some t => if t = "" then admin else t

/-- Send one request. It counts as sent also where no answer comes back. -/
def exchange (admin : String) (method : Method) (path : String) (name token : Option String) :
    Task Broker Reply :=
  Proc.perform fun m s =>
    if m.verdict = .done then
      let reply := m.provider method path
      (.ok reply, s.append (.called ⟨method, path, name, bearerOf admin token, some reply⟩))
    else
      (.error (fileError m.verdict),
        s.append (.called ⟨method, path, name, bearerOf admin token, none⟩))

/-- `decode(raw)`. -/
def decodeBody : Option Json → Task Broker Json
  | some body => pure body
  | none => fail 64 "invalid-json"

/-- `OpenAI.call`. -/
def OpenAI.call (admin : String) (method : Method) (path : String)
    (name : Option String := none) (token : Option String := none) : Task Broker Json := do
  let reply ← exchange admin method path name token
  require (!reply.tooLarge) "provider-response-too-large" 69
  if reply.status = 401 then
    pure (.obj [("unauthorized", .bool true)])
  else
    require (decide (200 ≤ reply.status) && decide (reply.status < 300))
      "provider-administration-failed" 69
    decodeBody reply.body

/-- `value.get` exists on objects only. -/
def asDict (value : Json) : Task Broker Unit :=
  if value.fields?.isSome then pure () else Proc.raise .attributeError

/-! The broker. -/

/-- What the broker answers to a peer. -/
inductive BrokerReply where
  | checked (role : Role)
  | key (lease : Lease) (key : Key)
  | revoked (lease : Lease)
  deriving DecidableEq, Repr

/-- Write `<lease>.json`. -/
def writeRecord (lease : Lease) (r : Record) : Task Broker Unit :=
  atomic fun _ s => s.record lease r

/-- `Broker.secret` with a value: encrypt it, then write `<lease>.cred`. -/
def sealSecret (lease : Lease) (key : Key) : Task Broker Unit := do
  command (fun _ => true) (fun _ s => s)
  atomic fun _ s => s.setCred lease (some key)

/-- `Broker.secret` without a value: decrypt `<lease>.cred`, which must exist, and strip it. -/
def openSecret (lease : Lease) : Task Broker Key :=
  query (fun s => (s.creds lease).isSome) fun _ s =>
    match s.creds lease with
    | some k => { k with value := strip k.value }
    | none => ⟨"", ""⟩

/-- Answer with a key. -/
def giveKey (lease : Lease) (key : Key) : Task Broker BrokerReply := do
  Proc.update (·.append (.gave lease key))
  pure (.key lease key)

/-- `with lock(self.state / "broker.lock")`: another holder makes it fail. -/
def brokerLock : Task Broker Unit :=
  Proc.perform fun m s =>
    if m.verdict = .done then (.ok (), s)
    else if m.verdict = .killed then (.error .killed, s)
    else (.error (.failure 75 "target-busy"), s)

/-- The `account_id` of a creation response. -/
def accountIdOf (result : Json) : Option String :=
  match result.getStr "id" with
  | some id => if isWord id then some id else none
  | none => none

/-- `isinstance(value, str) and value and not any(c in value for c in "\n\r\x00")`. -/
def usableKey : Option Json → Option String
  | some (.str value) => if value != "" && !hasControl value then some value else none
  | _ => none

/-- `result.get("api_key", {}).get("value")`. -/
def keyField (result : Json) : Task Broker (Option Json) :=
  match result.get "api_key" with
  | none => pure none
  | some field => do asDict field; pure (field.get "value")

/-- The path of a project's service accounts. -/
def accountsPath (project : String) : String :=
  "organization/projects/" ++ project ++ "/service_accounts"

section Handle
variable (policy : BrokerPolicy) (admin : String)

/-- `check`. -/
def checkProvider (role : Role) (project : String) : Task Broker BrokerReply := do
  let result ← OpenAI.call admin .get (accountsPath project)
  asDict result
  require (Json.isArr (result.get "data")) "provider-administration-unavailable" 69
  pure (.checked role)

/-- `issue` of a lease without a record. The record is written before the request
    is sent, the account id before the key is touched. -/
def createAccount (role : Role) (project : String) (lease : Lease) : Task Broker BrokerReply := do
  let now ← instant
  let record : Record := ⟨role, .issuing, accountName lease, now.now, none⟩
  writeRecord lease record
  let result ← OpenAI.call admin .post (accountsPath project) (some record.name)
  asDict result
  match accountIdOf result with
  | none => fail 78 "invalid-service-account-response"
  | some id =>
    writeRecord lease { record with accountId := some id }
    let value ← keyField result
    match usableKey value with
    | none => fail 78 "missing-service-account-key"
    | some value =>
      sealSecret lease ⟨record.name, value⟩
      writeRecord lease { record with accountId := some id, state := .ready }
      giveKey lease ⟨record.name, value⟩

/-- `issue`: an existing record is never issued again. -/
def issue (role : Role) (project : String) (lease : Lease) : Option Record → Task Broker BrokerReply
  | some record => do
    require (record.state = .ready) "lease-needs-reconciliation" 75
    let key ← openSecret lease
    giveKey lease key
  | none => createAccount admin role project lease

/-- `read`. -/
def readKey (lease : Lease) (record : Record) : Task Broker BrokerReply := do
  require (record.state = .ready) "lease-not-ready" 75
  let key ← openSecret lease
  giveKey lease key

/-- The DELETE of `revoke`, left out where the record already says `deleted`. -/
def deleteAccount (project : String) (lease : Lease) (record : Record) (id : String) :
    Task Broker Unit :=
  if record.state = .deleted then pure ()
  else do
    let result ← OpenAI.call admin .delete (accountsPath project ++ "/" ++ id)
    asDict result
    require (result.isTrue "deleted") "service-account-deletion-unconfirmed" 69
    writeRecord lease { record with state := .deleted }

/-- `revoke` of a lease not yet revoked whose account is known. -/
def revokeAccount (project : String) (lease : Lease) (record : Record) (id : String) :
    Task Broker BrokerReply := do
  let key ← openSecret lease
  deleteAccount admin project lease record id
  let probe ← OpenAI.call admin .get "models" none (some key.value)
  asDict probe
  require (probe.isTrue "unauthorized") "credential-revocation-unverified" 69
  writeRecord lease { record with state := .revoked }
  atomic fun _ s => s.setCred lease none
  pure (.revoked lease)

/-- `revoke`. -/
def revoke (project : String) (lease : Lease) (record : Record) : Task Broker BrokerReply :=
  if record.state = .revoked then pure (.revoked lease)
  else match record.accountId with
    | none => fail 75 "lease-needs-reconciliation"
    | some id => revokeAccount admin project lease record id

inductive Operation where
  | check
  | issue
  | read
  | revoke
  deriving DecidableEq, Repr

/-- `role in ("test", "production")`. -/
def roleOf : Option Json → Option Role
  | some (.str s) => if s = "test" then some .test else if s = "production" then some .production else none
  | _ => none

/-- `operation in ("check", "issue", "read", "revoke")`. -/
def operationOf : Option Json → Option Operation
  | some (.str s) =>
    if s = "check" then some .check else if s = "issue" then some .issue
    else if s = "read" then some .read else if s = "revoke" then some .revoke else none
  | _ => none

/-- The lease of a request, where it is well formed. -/
def leaseOf : Option Json → Option Lease
  | some (.str s) => if isLease s then some s else none
  | _ => none

/-- The operations on a lease, under the broker's lock. -/
def onLease (role : Role) (project : String) (operation : Operation) (lease : Lease) :
    Task Broker BrokerReply := do
  brokerLock
  let s ← Proc.read
  match s.records lease with
  | some record =>
    require (record.role = role) "lease-role-mismatch" 77
    match operation with
    | .issue => issue admin role project lease (some record)
    | .read => readKey lease record
    | _ => revoke admin project lease record
  | none =>
    match operation with
    | .issue => issue admin role project lease none
    | _ => fail 66 "unknown-lease"

/-- `Broker.handle` once the request has been taken apart. -/
def handleAs (uid : Int) (role : Role) (operation lease : Option Json) :
    Task Broker BrokerReply :=
  match policy.project role, policy.uid role with
  | some project, some owner => do
    require (uid = owner) "broker-peer-denied" 77
    match operationOf operation, leaseOf lease with
    | none, _ => fail 64 "invalid-broker-operation"
    | some _, none => fail 64 "invalid-lease"
    | some .check, some _ => checkProvider admin role project
    | some op, some lease => onLease admin role project op lease
  | _, _ => fail 77 "broker-role-disabled"

/-- `Broker.handle`. -/
def Broker.handle (uid : Int) (message : Json) : Task Broker BrokerReply := do
  require (message.hasKeys ["operation", "role", "lease"]) "invalid-broker-request" 64
  match roleOf (message.get "role") with
  | none => fail 64 "invalid-broker-role"
  | some role => handleAs policy admin uid role (message.get "operation") (message.get "lease")

/-- One request of a peer, with what happens while it is served. -/
structure BrokerRequest where
  uid : Int
  message : Json
  script : List Moment

/-- The state after one request, answered or not. -/
def Broker.serve (b : Broker) (r : BrokerRequest) : Broker :=
  (Broker.handle policy admin r.uid r.message).after r.script b

/-- The state after a sequence of requests. -/
def Broker.serveAll (b : Broker) (rs : List BrokerRequest) : Broker :=
  rs.foldl (Broker.serve policy admin) b

end Handle

end Hermes

import Hermes.Common
import Hermes.Library.Script
import Hermes.ReleaseUnpacked

/- The forced command of the host (`dispatcher.py`): it takes in signed releases, binds each
   release id to the digest of its manifest, and runs the entry point of a bound release as
   root. Several requests are separate processes, each of which can end at any point.

   The entry point belongs to a signed release; of what it does only that it leaves the
   directories of the releases and their bindings alone is used. -/
namespace Hermes.Dispatcher
open Process Entries
open Candidate (Content Tools pathOf)
open Release (Unpacked)

/-- A start of an entry point, with what it was started from. -/
structure Execution where
  releaseId : String
  fingerprint : String
  action : String
  tree : Option Release.Tree

/-- `/var/lib/hermes-unattended`, as far as the dispatcher writes it. -/
structure Root where
  releases : String → Option Release.Tree
  /-- `<release id>.binding` -/
  bindings : String → Option String
  /-- `status.json` -/
  status : Option Json
  executions : List Execution

def Root.empty : Root := ⟨fun _ => none, fun _ => none, none, []⟩

abbrev Cmd := Task Root

/-- What the modelled code takes from elsewhere. -/
structure Setting where
  tools : Tools
  canonical : Json → Content
  /-- the host of the policy -/
  host : Release.HostBinding
  /-- why the policy or the state directory does not make it an enrolled host -/
  refusal : Moment → Option String
  /-- what the enrolled signers have signed -/
  genuine : Content → Content → Bool
  /-- why `protected_file` does not trust a file -/
  guard : Moment → Option String
  room : Moment → Path → Bool
  renames : Moment → Bool
  /-- what an entry point prints -/
  reply : Moment → Option Json

/-- Read a file that has to be trusted. -/
def protectedRead {α : Type} (guard : Moment → Option String) (value : Root → Option α) : Cmd α :=
  Proc.perform fun m w =>
    if m.verdict = .killed then (.error .killed, w)
    else match guard m with
      | some reason => (.error (.failure 78 reason), w)
      | none => match value w with
        | some a => (.ok a, w)
        | none => (.error .osError, w)

section
variable (x : Setting)

/-! ## Releases -/

/-- `ssh-keygen -Y verify` -/
def Setting.verify (m : Moment) (raw signature : Content) : Except Exc Unit :=
  if m.verdict = .done then
    if x.genuine raw signature then .ok () else .error (.failure 69 "operation-failed")
  else .error (runFailure m.verdict)

def Setting.circumstances (m : Moment) : Release.Circumstances where
  now := m.now
  host := some x.host
  boundDigest := none
  guard := x.guard m
  verify := x.verify m
  room := x.room m
  renames := x.renames m

def Root.file (w : Root) (releaseId : String) (p : Path) : Option Content :=
  match (w.releases releaseId).bind fun t => t.node p with
  | some (.file content _) => some content
  | _ => none

def Root.addRelease (w : Root) (releaseId : String) (t : Release.Tree) : Root :=
  { w with releases := fun id => if id = releaseId then some t else w.releases id }

def Root.bindTo (w : Root) (releaseId fingerprint : String) : Root :=
  { w with bindings := fun id => if id = releaseId then some fingerprint else w.bindings id }

/-- `verify_tree` of a release -/
def verifyTree (releaseId fingerprint : String) : Cmd Release.Manifest := do
  let raw ← protectedRead x.guard (·.file releaseId ["manifest.json"])
  require (x.tools.sha256 raw == fingerprint) "bound-release-changed"
  let signature ← protectedRead x.guard (·.file releaseId ["manifest.sig"])
  let m ← instant
  Proc.settle (x.verify m raw signature)
  let document ← Proc.settle (x.tools.decode raw)
  let manifest ← Proc.settle (Release.validate x.tools.floatIs m.now (some x.host) true document)
  Proc.forEach manifest.files fun f => do
    let content ← protectedRead x.guard (·.file releaseId (pathOf f.1))
    require (content.length == f.2.size && x.tools.sha256 content == f.2.sha256) "staged-artifact-changed"
  pure manifest

/-- The entry point of a release, run as root. -/
def runEntryPoint (releaseId fingerprint action : String) : Cmd Json :=
  Proc.perform fun m w =>
    if m.verdict = .missing ∨ (m.verdict = .killed ∧ m.took = false) then (.error (runFailure m.verdict), w)
    else
      let w' := { w with executions := ⟨releaseId, fingerprint, action, w.releases releaseId⟩ :: w.executions }
      if m.verdict = .done then
        match x.reply m with
        | some value => (.ok value, w')
        | none => (.error (.failure 64 "invalid-json"), w')
      else (.error (runFailure m.verdict), w')

/-! ## Requests -/

structure Response where
  releaseId : Option String := none
  fingerprint : Option String := none
  stage : Option String := none
  deriving DecidableEq, Repr

def actions : List String :=
  ["status", "check", "stage", "bound", "snapshot", "backup", "backup-verified", "credential", "deploy", "upgrade",
    "rollback"]

def expectedFields (action : String) : List String :=
  (if ["status", "check", "stage"].contains action then ["schema", "action"]
    else ["schema", "action", "release_id", "fingerprint"]) ++
  (if action = "credential" then ["key"] else []) ++
  (if action = "backup-verified" then ["backup_snapshot", "snapshot_sha256"] else [])

/-- The action of a request that is well formed. -/
def checkMessage (message : Json) : Cmd String := do
  require (message.getStr "schema" == some "hermes-dispatch-v1") "invalid-dispatch-schema" 64
  match message.getStr "action" with
  | none => fail 77 "unauthorized-operation"
  | some action => do
    require (actions.contains action) "unauthorized-operation" 77
    require (message.hasKeys (expectedFields action)) "unexpected-dispatch-fields" 64
    require (action != "backup-verified" || ((message.getStr "backup_snapshot").any (isHex 8 64) &&
      (message.getStr "snapshot_sha256").any (isHex 64 64))) "invalid-backup-receipt" 64
    pure action

/-- `status` and `check` -/
def serveStatus (action : String) : Cmd Response := do
  peek (fun _ => ())  -- `preflight`
  let status ← peek (·.status)
  match status.bind (Json.get "release_id") with
  | none => pure { stage := status.bind (Json.getStr "stage") }
  | some active =>
    if active.truthy then
      match active with
      | .str releaseId => do
        require (isReleaseId releaseId) "invalid-active-release"
        let fingerprint ← protectedRead x.guard (·.bindings releaseId)
        let _ ← verifyTree x releaseId fingerprint
        let state ← runEntryPoint x releaseId fingerprint action
        require (state.fields?.any fun fields => fields.all fun f => ["ok", "stage", "release_id"].contains f.1)
          "unsafe-status-response"
        pure { releaseId := state.getStr "release_id", stage := state.getStr "stage" }
      | _ => fail 78 "invalid-active-release"
    else pure { stage := status.bind (Json.getStr "stage") }

/-- The directory that was unpacked becomes the release's, unless there is one with its manifest. -/
def install (u : Unpacked) (releaseId : String) : Cmd Unit := do
  let existing ← peek (·.releases releaseId)
  match existing with
  | some _ => do
    let raw ← protectedRead (fun _ => none) (·.file releaseId ["manifest.json"])
    require (x.tools.sha256 raw == u.fingerprint) "release-id-reused"
  | none => atomic (fun _ w => w.addRelease releaseId u.tree)

/-- `stage` -/
def serveStage (archive : Release.Archive) : Cmd Response := do
  let m ← instant
  let u ← Proc.settle (Release.unpack x.tools x.canonical (x.circumstances m) none archive).1
  require (u.manifest.files.any fun f => f.1 == "payload/host.py") "missing-host-entrypoint"
  let releaseId ← Proc.settle (Release.expect (u.document.getStr "release_id") "invalid-release-id")
  atomic (fun _ w => w)  -- `releases.mkdir`
  install x u releaseId
  atomic (fun _ w => w.bindTo releaseId u.fingerprint)
  pure { releaseId := some releaseId, fingerprint := some u.fingerprint, stage := some "staged" }

/-- What an entry point may answer. -/
def responseFields : List String := ["ok", "stage", "release_id", "recovery", "snapshot_sha256"]

/-- The actions that go to the entry point of a bound release. -/
def serveEntryPoint (releaseId fingerprint action : String) : Cmd Response := do
  let result ← runEntryPoint x releaseId fingerprint action
  require (result.isTrue "ok") "release-operation-failed"
  require (result.fields?.any fun fields => fields.all fun f => responseFields.contains f.1) "unsafe-release-response"
  atomic (fun _ w => { w with status := some result })
  pure { releaseId := result.getStr "release_id", stage := result.getStr "stage" }

/-- The actions on a bound release. -/
def serveBound (message : Json) (action : String) : Cmd Response := do
  match message.getStr "release_id" with
  | none => fail 64 "invalid-release-id"
  | some releaseId => do
    require (isReleaseId releaseId) "invalid-release-id" 64
    let fingerprint ← protectedRead x.guard (·.bindings releaseId)
    require (message.getStr "fingerprint" == some fingerprint) "release-binding-mismatch"
    let _ ← verifyTree x releaseId fingerprint
    if action = "bound" then
      -- the phase is the entry point's own state
      let stage ← query (fun _ => true) (fun m _ => m.text)
      pure { releaseId := some releaseId, fingerprint := some fingerprint, stage := some stage }
    else if action = "backup" then
      peek (fun _ => ())  -- the snapshot is copied to the caller
      pure {}
    else serveEntryPoint x releaseId fingerprint action

/-- `dispatch`: the first line of the stream, and what comes behind it. -/
def dispatch (header : Content) (archive : Release.Archive) : Cmd Response := do
  protectedRead x.refusal (fun _ => some ())  -- `enrollment`
  require (header.length ≤ 65536 && header.getLast? == some 10) "invalid-dispatch-frame" 64
  let message ← Proc.settle (x.tools.decode header)
  let action ← checkMessage message
  if action = "status" ∨ action = "check" then serveStatus x action
  else do
    if action ≠ "bound" ∧ action ≠ "rollback" ∧ action ≠ "backup" then
      let m ← instant
      require m.maintenanceOpen "outside-maintenance-window" 75
    lockFile
    if action = "stage" then serveStage x archive else serveBound x message action

end

/-- A request, and what the outside answers while it is served. -/
structure Request where
  header : Content
  archive : Release.Archive
  moments : List Moment

/-- The state after some requests, each served by a process of its own. -/
def serve (x : Setting) (requests : List Request) (w : Root) : Root :=
  requests.foldl (fun w r => (dispatch x r.header r.archive).after r.moments w) w

end Hermes.Dispatcher

import Mathlib.Algebra.Order.Ring.Int
import Hermes.Json
import Hermes.Library.Process

/- What a process of the unattended deployment meets outside itself: how the
   operations it asks for end, what the provider, the clock, the platform and
   the container runtime answer. Everything a process cannot decide is read
   from one `Moment`; a script of moments is one course of events. -/
namespace Hermes

/-- The exceptions of the modelled code. `failure` is `common.Failure`; `killed`
    is no exception of the program but its end. -/
inductive Exc where
  | failure (code : Nat) (reason : String)
  | osError
  | keyError
  | valueError
  | attributeError
  | stopIteration
  /-- `subprocess.TimeoutExpired` -/
  | timeoutExpired
  | typeError
  | indexError
  /-- `tarfile.TarError` -/
  | tarError
  | killed
  deriving DecidableEq, Repr

instance : Process.Mortal Exc := ⟨.killed⟩

/-- `except Failure`. -/
def Exc.isFailure : Exc → Bool
  | .failure _ _ => true
  | _ => false

/-- `except (Failure, KeyError)`. -/
def Exc.isFailureOrKey : Exc → Bool
  | .failure _ _ => true
  | .keyError => true
  | _ => false

/-- How an operation ends: a command may exit with a nonzero status, run into its
    timeout or be missing; a file operation may raise `OSError`. -/
inductive Verdict where
  | done
  | failed
  | timeout
  | missing
  | killed
  deriving DecidableEq, Repr

inductive Method where
  | get
  | post
  | delete
  deriving DecidableEq, Repr

/-- A response of the provider: its status, whether it is longer than the limit,
    and the decoded body where it is JSON. -/
structure Reply where
  status : Nat
  tooLarge : Bool := false
  body : Option Json := none

/-- What the code reads of the platform and never changes. -/
structure Platform where
  fedora44 : Bool := true
  enforcing : Bool := true
  secureBoot : Bool := true
  freeVar : Nat := 20 * 1024 ^ 3
  luks : Json := .null
  linkedHome : Bool := false
  sshKeys : Bool := false
  subordinateIds : Bool := true
  trustedParents : Bool := true
  bundleVerified : Bool := true
  freeEsp : Nat := 0
  /-- the account is in an administrative group -/
  privileged : Bool := false
  /-- a firewall zone has open ports of its own -/
  openPorts : Bool := false

/-- What `podman inspect` says of the container. -/
structure Inspection where
  healthy : Bool := true
  imageName : String := ""
  readonlyRootfs : Bool := true
  publishedPorts : Bool := false
  privileged : Bool := false
  devices : Bool := false
  pidsLimit : Nat := 512
  noNewPrivileges : Bool := true
  /-- the mounts are the data directory and a read-only `.env` -/
  mounted : Bool := true

/-- What goes on around a process between two of its requests to the host. -/
inductive HostEvent where
  | reboot (bootId : String)
  | guard (releaseId : String)
  | execute (releaseId : String)

/-- One answer of the outside. `took` says whether an operation that did not
    report success nevertheless had its effect, `progress` how many of the steps of
    a script that did not. -/
structure Moment where
  verdict : Verdict := .done
  took : Bool := false
  progress : Nat := 0
  now : Nat := 0
  provider : Method → String → Reply := fun _ _ => { status := 500 }
  platform : Platform := {}
  inspection : Inspection := {}
  inference : String := "HERMES_OK"
  /-- a fresh identifier, nonce or time stamp -/
  token : String := ""
  /-- a text that a program not under the model's control wrote -/
  text : String := ""
  /-- the account that `useradd` makes -/
  newUid : Nat := 1000
  maintenanceOpen : Bool := true
  deadlinePassed : Bool := false
  events : List HostEvent := []
  /-- why the simple installer's preflight refuses, where it does -/
  refusal : Option String := none
  /-- timers that have gone off in the meantime -/
  elapsed : List String := []

end Hermes

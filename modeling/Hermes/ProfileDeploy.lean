import Mathlib.Logic.Function.Basic
import Hermes.Common

/- The deployment of a profile to a guest (`profile-deploy.py`): images, an SSH identity, the
   files of the instance, the configuration and the quadlets are made what they should be,
   and the two services are restarted where something was changed.

   A quadlet is the fields of it that the code sets or looks at. A running container keeps
   the quadlet it was started from as `daemon-reload` last read it, the configuration, and
   the files that are mounted by themselves, since a file that is replaced is a new one. A
   command that is only asked for its answer says no when it fails. Owners and modes, and
   what `require_host` asks, are left out; the application in the container is a parameter. -/
namespace Hermes.ProfileDeploy
open Process

inductive Container where
  | worker
  | gateway
  deriving DecidableEq, Repr

/-- What `ensure_instance` copies from the repository. -/
inductive Source where
  | ssh
  | scp
  | sftp
  | unixBridge
  | hardenConfig
  | setModel
  | profileContract
  deriving DecidableEq, Repr

inductive File where
  | authorized
  | known
  | copy (s : Source)
  deriving DecidableEq, Repr

inductive KeyName where
  | client
  | host
  deriving DecidableEq, Repr

inductive Key where
  | absent
  /-- one file of the pair -/
  | incomplete
  | pair (public' : String)
  deriving DecidableEq, Repr

inductive Directory where
  | gatewayState
  | gatewaySsh
  | transport
  | workerState
  | workerHome
  | sshHostKeys
  | authorizedKeys
  deriving DecidableEq, Repr

inductive Mode where
  | synthetic
  | live
  deriving DecidableEq, Repr

/-! ## Profiles and quadlets -/

structure Resource where
  memoryMb : Nat
  pidsLimit : Nat
  restartSeconds : Nat
  deriving DecidableEq, Repr

structure Profile where
  gatewayImage : String
  model : String
  resource : Container → Resource

/-- `lab-effective.json` and the two files beside it -/
structure Lab where
  profile : Profile
  workerId : Option String
  gatewayId : Option String

inductive Memory where
  | gigabytes (n : Nat)
  | megabytes (n : Nat)
  deriving DecidableEq, Repr

def Memory.bytes : Memory → Nat
  | .gigabytes n => n * 1024 * 1024 * 1024
  | .megabytes n => n * 1024 * 1024

structure Quadlet where
  image : String
  network : Option String
  memory : Memory
  pidsLimit : Nat
  restartSec : Option Nat
  /-- the names of its environment -/
  environment : List String
  /-- the sources of its mounts -/
  volumes : List String
  deriving DecidableEq, Repr

def workerImage : String := "localhost/hermes-worker:1"

/-- The quadlets of the repository. -/
def template : Container → Quadlet
  | .worker => {
      image := workerImage
      network := some "none"
      memory := .gigabytes 2
      pidsLimit := 512
      restartSec := none
      environment := []
      volumes := ["/home/hermes/transport", "/home/hermes/worker-state/home",
        "/home/hermes/worker-state/ssh-host-keys", "/home/hermes/worker-state/authorized_keys/worker"] }
  | .gateway => {
      image := "docker.io/nousresearch/hermes-agent@sha256:fca358f12efd65bfaaca05884166f15c0e2788375ca30d77061ac1ebc96452b7"
      network := none
      memory := .gigabytes 2
      pidsLimit := 256
      restartSec := none
      environment := ["TERMINAL_ENV", "TERMINAL_SSH_HOST", "TERMINAL_SSH_USER", "TERMINAL_SSH_PORT",
        "TERMINAL_SSH_KEY", "TERMINAL_SSH_PERSISTENT"]
      volumes := ["/home/hermes/gateway-state", "/home/hermes/transport", "/home/hermes/gateway-ssh",
        "/home/hermes/gateway-ssh/ssh", "/home/hermes/gateway-ssh/scp", "/home/hermes/gateway-ssh/sftp"] }

/-- The files that are mounted by themselves. -/
def mounted : Container → File → Bool
  | .worker, .authorized => true
  | .gateway, .copy .ssh => true
  | .gateway, .copy .scp => true
  | .gateway, .copy .sftp => true
  | _, _ => false

/-- `render_unit` -/
def renderUnit (q : Quadlet) (c : Container) (p : Profile) (workerId : Option String) : Quadlet :=
  { q with
    image := if c = .gateway then p.gatewayImage else workerId.getD workerImage
    memory := .megabytes (p.resource c).memoryMb
    pidsLimit := (p.resource c).pidsLimit
    restartSec := some (p.resource c).restartSeconds }

/-- What a call of `apply` is given. `newKey` is what `ssh-keygen` will make. -/
structure Inputs where
  mode : Mode
  lab : Option Lab
  source : Source → String
  sourceHash : String
  newKey : KeyName → String

def Inputs.workerId (i : Inputs) : Option String := i.lab.bind Lab.workerId

def Inputs.model (i : Inputs) : String := (i.lab.map fun l => l.profile.model).getD "deepseek-flash"

/-- `pinned_gateway` -/
def Inputs.pinnedGateway (i : Inputs) : String :=
  match i.lab with
  | none => (template .gateway).image
  | some l => l.gatewayId.getD l.profile.gatewayImage

/-- The content that `install_quadlets` writes. -/
def Inputs.quadlet (i : Inputs) (c : Container) : Quadlet :=
  let rendered :=
    match i.lab with
    | none => template c
    | some l => renderUnit (template c) c l.profile l.workerId
  let pinned := if c = .gateway then { rendered with image := i.pinnedGateway } else rendered
  if c = .gateway ∧ i.mode = .synthetic then { pinned with network := some "none" } else pinned

/-! ## The guest -/

/-- What the programs in the gateway container do to `config.yaml` and say of it. After
    `configure` both checks pass. -/
structure Application (κ : Type) where
  harden : String → κ → κ
  setModel : String → κ → κ
  loadConfig : κ → κ
  runtimeCheck : String → κ → Bool
  modelCheck : String → κ → Bool
  configured : ∀ contract model c,
    runtimeCheck contract (harden contract (loadConfig (setModel model (harden contract c)))) = true ∧
      modelCheck model (harden contract (loadConfig (setModel model (harden contract c)))) = true

structure Running (κ : Type) where
  unit : Quadlet
  files : File → Option String
  config : κ

structure Guest (κ : Type) where
  packages : Bool
  user : Bool
  images : List String
  /-- the identity of the image of a reference -/
  imageId : String → String
  /-- `hermes-worker-build.sha256` -/
  stamp : Option String
  directories : Directory → Bool
  keys : KeyName → Key
  files : File → Option String
  /-- the lines of `.env` -/
  env : Option (List String)
  /-- the mode of `.env` is 0600 -/
  envPrivate : Bool
  config : κ
  quadlets : Container → Option Quadlet
  /-- the quadlets as `daemon-reload` last read them -/
  loaded : Container → Option Quadlet
  service : Container → Option (Running κ)
  tmpfs : Bool
  swap : Bool

section Model

variable {κ : Type}

/-- The container is started anew. -/
def Guest.begin (g : Guest κ) (c : Container) : Guest κ :=
  match g.loaded c with
  | none => g
  | some unit => { g with service := Function.update g.service c (some { unit, files := g.files, config := g.config }) }

/-- `systemctl restart`; the quadlet of the gateway wants the worker. -/
def Guest.start (g : Guest κ) : Container → Guest κ
  | .worker => g.begin .worker
  | .gateway => (if (g.service .worker).isSome then g else g.begin .worker).begin .gateway

def Guest.stop (g : Guest κ) (c : Container) : Guest κ := { g with service := Function.update g.service c none }

/-- `command(argv, check=False)`, asked for whether it exits with zero -/
def ask (value : Guest κ → Bool) : Task (Guest κ) Bool :=
  Proc.perform fun m g =>
    if m.verdict = .killed then (.error .killed, g) else (.ok (m.verdict = .done && value g), g)

/-- `command(argv)` with no effect on what is modelled -/
def check (_what : String) : Task (Guest κ) Unit := command (fun _ => true) fun _ g => g

def act (effect : Guest κ → Guest κ) : Task (Guest κ) Unit := command (fun _ => true) fun _ => effect

def refuse (condition : Bool) (reason : String) : Task (Guest κ) Unit := require (!condition) reason 1

/-- `active(unit)` -/
def active (c : Container) : Task (Guest κ) Bool := ask fun g => (g.service c).isSome

/-- `changed |= ...` for one step after the other -/
def orAll {σ : Type} : List (Task σ Bool) → Task σ Bool
  | [] => pure false
  | x :: xs => do
    let changed ← x
    let rest ← orAll xs
    pure (changed || rest)

/-- `a and b` -/
def andThen {σ : Type} (a : Bool) (b : Task σ Bool) : Task σ Bool := if a then b else pure false

/-! ## `prepare` -/

/-- `ensure_user` -/
def ensureUser : Task (Guest κ) Unit := do
  let g ← Proc.read
  onlyIf (!g.user) (act fun g => { g with user := true })
  check "id -nG hermes"
  check "loginctl enable-linger hermes"
  check "systemctl start user@.service"

/-- The worker image, where no retained one is given. -/
def buildWorker (sourceHash : String) (changed : Bool) : Task (Guest κ) Bool := do
  let g ← Proc.read
  let present ← ask fun g => g.images.contains workerImage
  if g.stamp ≠ some sourceHash ∨ present = false then do
    act fun g => { g with images := workerImage :: g.images }
    atomic fun _ g => { g with stamp := some sourceHash }
    pure true
  else pure changed

/-- What `prepare` does before it looks for the worker image. -/
def preparePackages (i : Inputs) : Task (Guest κ) Bool := do
  let installed ← ask Guest.packages
  onlyIf (!installed) (act fun g => { g with packages := true })
  ensureUser
  let present ← ask fun g => g.images.contains i.pinnedGateway
  onlyIf (!present) (act fun g => { g with images := i.pinnedGateway :: g.images })
  pure (!installed || !present)

def prepare (i : Inputs) : Task (Guest κ) Bool := do
  let changed ← preparePackages i
  match i.workerId with
  | some w => do
    let retained ← ask fun g => g.images.contains w
    refuse (!retained) "retained worker artifact is absent; import it before deployment"
    pure changed
  | none => buildWorker i.sourceHash changed

/-! ## `ensure_instance` -/

/-- `ensure_directory` -/
def ensureDirectory (d : Directory) : Task (Guest κ) Bool := do
  let g ← Proc.read
  if g.directories d then pure false
  else do
    atomic fun _ g => { g with directories := Function.update g.directories d true }
    pure true

/-- `ssh-keygen` -/
def keygen (k : KeyName) (new : String) : Task (Guest κ) Unit :=
  Proc.perform fun m g =>
    if m.verdict = .done then (.ok (), { g with keys := Function.update g.keys k (.pair new) })
    else (.error (runFailure m.verdict),
      if m.took then { g with keys := Function.update g.keys k .incomplete } else g)

def keypair (k : KeyName) (new : String) : Task (Guest κ) Bool := do
  let g ← Proc.read
  match g.keys k with
  | .incomplete => fail 1 "incomplete SSH keypair"
  | .pair _ => pure false
  | .absent => do
    keygen k new
    pure true

/-- `write_file` of a file of the instance -/
def writeFile (f : File) (content : String) : Task (Guest κ) Bool := do
  let g ← Proc.read
  if g.files f = some content then pure false
  else do
    atomic fun _ g => { g with files := Function.update g.files f (some content) }
    pure true

/-- `public.read_bytes()` -/
def publicKey (k : KeyName) : Task (Guest κ) String := do
  let g ← Proc.read
  match g.keys k with
  | .pair pub => pure pub
  | _ => Proc.raise .osError

def directories : List Directory :=
  [.gatewayState, .gatewaySsh, .transport, .workerState, .workerHome, .sshHostKeys, .authorizedKeys]

/-- Everything of `ensure_instance` up to the files of the repository. -/
def ensureIdentity (i : Inputs) : Task (Guest κ) Bool := do
  let made ← orAll (directories.map ensureDirectory)
  let generated ← orAll [keypair .client (i.newKey .client), keypair .host (i.newKey .host)]
  let client ← publicKey .client
  let host ← publicKey .host
  let g ← Proc.read
  refuse ((g.files .authorized).any (· ≠ client)) "worker authorization key changed; rotate deliberately"
  refuse ((g.files .known).any (· ≠ "worker " ++ host)) "worker SSH host pin changed; rotate deliberately"
  let authorized ← writeFile .authorized client
  let known ← writeFile .known ("worker " ++ host)
  pure (made || generated || authorized || known)

def sources : List Source := [.ssh, .scp, .sftp, .unixBridge, .hardenConfig, .setModel, .profileContract]

def syntheticLine : String := "DEEPSEEK_API_KEY=synthetic-hermes-lab-only"

/-- A line of a live environment. -/
def isTelegram (line : String) : Bool :=
  line.startsWith "TELEGRAM_BOT_TOKEN=" || line.startsWith "TELEGRAM_ALLOWED_USERS="

def acceptsSynthetic (lines : List String) : Bool := lines.contains syntheticLine && !lines.any isTelegram

def acceptsLive (lines : List String) : Bool :=
  ["DEEPSEEK_API_KEY", "TELEGRAM_BOT_TOKEN", "TELEGRAM_ALLOWED_USERS"].all fun key =>
    lines.any fun line => line.contains '=' && ((line.splitOn "=").headD "" == key)

def syntheticEnv : Task (Guest κ) Bool := do
  let g ← Proc.read
  match g.env with
  | some lines => do
    refuse (!acceptsSynthetic lines) "synthetic mode refuses an existing live profile environment"
    pure false
  | none => do
    atomic fun _ g => { g with env := some [syntheticLine], envPrivate := true }
    check "podman unshare"
    pure true

def liveEnv : Task (Guest κ) Bool := do
  let mount ← query (fun _ => true) fun _ (g : Guest κ) => g.tmpfs
  refuse (!mount) "live profile state must be mounted on tmpfs"
  let swap ← query (fun _ => true) fun _ (g : Guest κ) => g.swap
  refuse swap "disable guest swap before provisioning live credentials"
  let g ← Proc.read
  refuse (!(g.env.isSome && g.envPrivate)) "private live profile environment is missing or has wrong mode"
  refuse (!acceptsLive (g.env.getD [])) "private live profile environment lacks required entries"
  check "podman unshare"
  pure false

/-- What of `ensure_instance` depends on the mode. -/
def ensureEnv (mode : Mode) : Task (Guest κ) Bool := if mode = .synthetic then syntheticEnv else liveEnv

def ensureInstance (i : Inputs) : Task (Guest κ) Bool := do
  let identity ← ensureIdentity i
  let copied ← orAll (sources.map fun s => writeFile (.copy s) (i.source s))
  check "podman unshare"
  check "podman unshare"
  let env ← ensureEnv i.mode
  pure (identity || copied || env)

/-! ## Configuration, quadlets and verification -/

/-- `profile-contract.yaml` as it is mounted -/
def Guest.contract (g : Guest κ) : String := (g.files (.copy .profileContract)).getD ""

/-- `config_current` -/
def configCurrent (a : Application κ) (model : String) : Task (Guest κ) Bool := do
  let running ← active .gateway
  let hardened ← andThen running (ask fun g => a.runtimeCheck g.contract g.config)
  andThen hardened (ask fun g => a.modelCheck model g.config)

def configure (a : Application κ) (model : String) : Task (Guest κ) Unit := do
  act fun g => { g with config := a.harden g.contract g.config }
  act fun g => { g with config := a.setModel model g.config }
  act fun g => { g with config := a.loadConfig g.config }
  act fun g => { g with config := a.harden g.contract g.config }

/-- `write_file` of a quadlet -/
def writeQuadlet (i : Inputs) (c : Container) : Task (Guest κ) Bool := do
  let g ← Proc.read
  if g.quadlets c = some (i.quadlet c) then pure false
  else do
    atomic fun _ g => { g with quadlets := Function.update g.quadlets c (some (i.quadlet c)) }
    pure true

/-- `install_quadlets` -/
def installQuadlets (i : Inputs) : Task (Guest κ) Bool := do
  let changed ← orAll [writeQuadlet i .worker, writeQuadlet i .gateway]
  onlyIf changed (check "restorecon")
  act fun g => { g with loaded := g.quadlets }
  pure changed

/-- `systemctl restart`, which a failure may leave before, within or after it -/
def restart (c : Container) : Task (Guest κ) Unit :=
  Proc.perform fun m g =>
    if m.verdict = .done then
      if (g.loaded c).isSome then (.ok (), g.start c) else (.error (.failure 69 "operation-failed"), g)
    else (.error (runFailure m.verdict), if m.took then g.start c else if m.progress = 0 then g else g.stop c)

/-- The network that `podman inspect` shows. -/
def Quadlet.networkMode (q : Quadlet) : String := q.network.getD "pasta"

def expectedNetwork (mode : Mode) : Container → String
  | .worker => "none"
  | .gateway => if mode = .synthetic then "none" else ""

def wrongNetwork (mode : Mode) (c : Container) (q : Quadlet) : Bool :=
  expectedNetwork mode c ≠ "" ∧ q.networkMode ≠ expectedNetwork mode c

def privateNames : List String := ["DEEPSEEK_API_KEY", "TELEGRAM_BOT_TOKEN", "TELEGRAM_ALLOWED_USERS"]

def gatewayPrivate : List String := ["/home/hermes/gateway-state", "/home/hermes/gateway-ssh"]

/-- `podman inspect` of a container -/
def inspect (c : Container) : Task (Guest κ) Quadlet :=
  query (fun g => (g.service c).isSome) fun _ g => ((g.service c).map Running.unit).getD (template c)

/-- The image that the container should have, where one is locked. -/
def Inputs.wantedImage (i : Inputs) : Container → Option String
  | .gateway => some i.pinnedGateway
  | .worker => i.workerId

/-- The image and the limits of a container of a lab. -/
def verifyLimits (i : Inputs) (p : Profile) (c : Container) : Task (Guest κ) Unit := do
  let unit ← inspect c
  onlyIf (i.wantedImage c).isSome (check "podman image inspect")
  let g ← Proc.read
  refuse ((i.wantedImage c).any fun w => g.imageId unit.image ≠ g.imageId w) "running container image differs from the locked artifact"
  refuse (unit.memory.bytes ≠ (p.resource c).memoryMb * 1024 * 1024 || unit.pidsLimit ≠ (p.resource c).pidsLimit)
    "running container resource limits differ from the profile"

def verifyNetwork (mode : Mode) (c : Container) : Task (Guest κ) Unit := do
  let unit ← inspect c
  refuse (wrongNetwork mode c unit) "unexpected network mode"

def verify (a : Application κ) (i : Inputs) : Task (Guest κ) Unit := do
  let worker ← active .worker
  let gateway ← andThen worker (active .gateway)
  refuse (!gateway) "Hermes services are not both active"
  verifyNetwork i.mode .worker
  verifyNetwork i.mode .gateway
  let unit ← inspect .worker
  refuse (unit.environment.any privateNames.contains) "provider or bot configuration reached the offline worker"
  refuse (unit.volumes.any gatewayPrivate.contains) "gateway private state is mounted into the offline worker"
  check "ssh worker@worker"
  let current ← configCurrent a i.model
  refuse (!current) "effective Hermes configuration differs from the requested profile"
  match i.lab with
  | none => pure ()
  | some l => do
    verifyLimits i l.profile .gateway
    verifyLimits i l.profile .worker

/-! ## `apply` -/

/-- `systemctl start`, whose failure is not looked at -/
def startGateway : Task (Guest κ) Unit :=
  Proc.perform fun m g =>
    if m.verdict = .killed then (.error .killed, if m.took then g.start .gateway else g)
    else (.ok (), if m.verdict = .done ∨ m.took then g.start .gateway else g)

/-- The `except` block, for a gateway that was active. -/
def revive : Task (Guest κ) Unit := do
  let running ← active .gateway
  onlyIf (!running) startGateway

/-- Whether one of the services has to be restarted, as `a or b or not active(unit)`. -/
def due (changed : Bool) (c : Container) : Task (Guest κ) Bool :=
  if changed then pure true
  else do
    let running ← active c
    pure (!running)

/-- The quadlets and the restarts. -/
def restartServices (i : Inputs) (changed current workerWasActive : Bool) : Task (Guest κ) Unit := do
  let units ← installQuadlets i
  let workerRestart ← due (changed || units || !workerWasActive) .worker
  onlyIf workerRestart (restart .worker)
  let gatewayRestart ← due (changed || units || !current) .gateway
  onlyIf gatewayRestart (restart .gateway)

/-- The body of the `try` block. -/
def converge (a : Application κ) (i : Inputs) (changed current workerWasActive : Bool) : Task (Guest κ) Unit := do
  onlyIf (!current) (configure a i.model)
  restartServices i changed current workerWasActive
  verify a i

/-- The `except` block. -/
def recover (wasActive : Bool) (e : Exc) : Task (Guest κ) Unit :=
  match e with
  | .killed => Proc.raise .killed
  | e => do
    onlyIf wasActive revive
    Proc.raise e

/-- The variables of `apply` at the beginning of the `try` block. -/
structure Found where
  prepared : Bool
  wasActive : Bool
  workerWasActive : Bool
  instanceChanged : Bool
  current : Bool
  deriving DecidableEq, Repr

/-- What precedes the `try` block. -/
def establish (a : Application κ) (i : Inputs) : Task (Guest κ) Found := do
  lockFile
  let prepared ← prepare i
  ensureUser
  let wasActive ← active .gateway
  let workerWasActive ← active .worker
  let instanceChanged ← ensureInstance i
  let current ← andThen (wasActive && !instanceChanged) (configCurrent a i.model)
  onlyIf (wasActive && !current) (act fun g => g.stop .gateway)
  pure { prepared, wasActive, workerWasActive, instanceChanged, current }

def apply (a : Application κ) (i : Inputs) : Task (Guest κ) Unit := do
  let f ← establish a i
  Proc.handle (converge a i (f.prepared || f.instanceChanged) f.current f.workerWasActive) (recover f.wasActive)

end Model

end Hermes.ProfileDeploy

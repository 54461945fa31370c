import Hermes.Common
import Hermes.Library.FileTree

/- The manifest of a deployment (`remote-state.sh`): before the first change the root
   helper copies every path it manages, and a rollback puts the copies back.

   A request may end at any command; a `cp` or `rm` that does not finish leaves under its
   argument whatever it has come to. The lines of the manifest are records: none of their
   fields holds a tab or a newline, so `read` gets back what `printf` wrote. -/
namespace Hermes.Manifest
open Process FileTree

/-- How a command ends. -/
structure Turn where
  status : Nat := 0
  killed : Bool := false
  /-- `date -u +%Y%m%dT%H%M%S`, without the `Z` -/
  clock : String := ""
  /-- what a `cp` or `rm` that fails has made of the tree it was to write -/
  left : Path → Option Node := fun _ => none

/-- Why the helper ends. -/
inductive Stop where
  | died (message : String)
  /-- errexit -/
  | failed
  | killed
  deriving DecidableEq, Repr

instance : Mortal Stop := ⟨.killed⟩

/-- The fourth field of a line. -/
inductive Recorded where
  | missing
  | directory
  | sum (d : Digest)
  deriving DecidableEq, Repr

structure Line where
  path : Path
  existed : Bool
  /-- `-` where there is none -/
  backup : Option Path
  digest : Recorded
  deriving DecidableEq, Repr

/-- The host, with the files of the state directory that are read here. -/
structure World where
  fs : Fs
  manifest : Option (List Line) := none
  /-- `manifest.tmp` -/
  pending : List Line := []
  /-- `admin_user` of `site.conf` -/
  admin : Option String
  /-- `id -u hermes` -/
  uid : Option Nat

abbrev Cmd := Proc Turn Stop World

def die {α : Type} (message : String) : Cmd α := Proc.raise (.died message)

/-- A command under errexit. -/
def command (can : World → Bool) (effect : Turn → World → World) : Cmd Unit :=
  Proc.perform fun m w =>
    if m.killed then (.error .killed, w)
    else if m.status = 0 ∧ can w = true then (.ok (), effect m w)
    else (.error .failed, w)

/-- `$(command || true)`: nothing where the command fails. -/
def output {α : Type} (value : Turn → World → α) : Cmd (Option α) :=
  Proc.perform fun m w =>
    if m.killed then (.error .killed, w)
    else (.ok (if m.status = 0 then some (value m w) else none), w)

/-- A command that writes the tree at `p` and may end in the middle. -/
def writeTree (p : Path) (effect : Fs → Option Fs) : Cmd Unit :=
  Proc.perform fun m w =>
    let torn := { w with fs := fun q => if p.isPrefixOf q then m.left q else w.fs q }
    if m.killed then (.error .killed, torn)
    else match effect w.fs with
      | some fs => if m.status = 0 then (.ok (), { w with fs := fs }) else (.error .failed, torn)
      | none => (.error .failed, torn)

/-- A command that has no effect on what is modelled. -/
def check (_what : String) : Cmd Unit := command (fun _ => true) (fun _ w => w)

def removeTree (p : Path) : Cmd Unit := writeTree p (fun fs => some (remove fs p))

/-- `cp -a -- src dst` -/
def copyTree (src dst : Path) : Cmd Unit := writeTree dst (fun fs => copy fs src dst)

/-- `install -d -o root -g root p` -/
def installDir (p : Path) : Cmd Unit :=
  command (fun w => canMakeDirs w.fs p) (fun _ w => { w with fs := makeDirs w.fs p })

/-- `[[ -e "$path" || -L "$path" ]]` -/
def World.present (w : World) (p : Path) : Bool := (w.fs p).isSome

/-- `$(id -u hermes 2>/dev/null || true)` -/
def accountId : Cmd (Option Nat) := do
  let uid ← output (fun _ w => w.uid)
  pure uid.join

/-- `sha256sum "$path" 2>/dev/null | awk '{print $1}'`; a directory has none. -/
def sha256sum (p : Path) : Cmd (Option Digest) := do
  let sum ← output (fun _ w => (contentAt w.fs p).map Hermes.digest)
  pure sum.join

/-! ## The paths -/

def stateDir : Path := ["var", "lib", "hermes-deploy"]
def stageDir : Path := stateDir ++ ["stages"]
def backupsDir : Path := stateDir ++ ["backups"]

def systemUnit (name : String) : Path := ["etc", "systemd", "system", name]
def hermesDropIn (name : String) : Path := ["etc", "systemd", "user", "hermes.service.d", name]
def localTool (dir name : String) : Path := ["usr", "local", dir, name]

/-- `managed_paths`, before the administrator's are added. -/
def managedPaths : List Path :=
  [ ["etc", "ssh", "sshd_config.d", "00-hermes-hardening.conf"],
    ["etc", "systemd", "resolved.conf.d", "60-hermes-hardening.conf"],
    ["etc", "dnf", "automatic.conf"],
    ["etc", "firewalld"],
    hermesDropIn "60-hermes-runtime.conf",
    hermesDropIn "70-hermes-volume-label.conf",
    localTool "libexec" "hermes-acceptance",
    localTool "libexec" "hermes-root-acceptance",
    ["home", "hermes", ".config", "systemd", "user", "hermes.service.d", "reset-network-dep.conf"],
    systemUnit "avahi-daemon.service",
    systemUnit "avahi-daemon.socket",
    systemUnit "cups.service",
    systemUnit "cups.socket",
    systemUnit "cups.path",
    systemUnit "passim.service",
    ["etc", "xdg", "autostart", "org.kde.kdeconnect.daemon.desktop"],
    systemUnit "sleep.target",
    systemUnit "suspend.target",
    systemUnit "hibernate.target",
    systemUnit "hybrid-sleep.target",
    systemUnit "cockpit.service",
    systemUnit "cockpit.socket",
    systemUnit "cockpit-motd.service",
    ["etc", "systemd", "system", "timers.target.wants", "dnf5-automatic.timer"],
    localTool "bin" "hermes-chat",
    localTool "bin" "hermes-status",
    localTool "bin" "hermes-logs" ]

def sudoersPaths (admin : String) : List Path :=
  [ ["etc", "sudoers.d", admin ++ "-hermes-deploy"],
    ["etc", "sudoers.d", admin ++ "-hermes-wrappers"] ]

def quadletPath (user : String) : Path :=
  ["etc", "containers", "systemd", "users", user, "hermes.container"]

/-- `"/" ++ "/".join(components)` -/
def pathText (p : Path) : String := p.foldl (fun text c => text ++ "/" ++ c) ""

/-! ## Capturing -/

def slot (dir : Path) (index : Nat) : Path := dir ++ ["file-" ++ toString index]

def appendLine (l : Line) : Cmd Unit :=
  command (fun _ => true) (fun _ w => { w with pending := w.pending ++ [l] })

/-- `capture_manifest_path`, where there is something. -/
def capturePresent (dir path : Path) (index : Nat) : Cmd Unit := do
  copyTree path (slot dir index)
  let sum ← sha256sum path
  appendLine ⟨path, true, some (slot dir index), match sum with
    | some d => .sum d
    | none => .directory⟩

/-- `capture_manifest_path` -/
def captureManifestPath (dir path : Path) (index : Nat) : Cmd Unit := do
  let w ← Proc.read
  if w.present path then capturePresent dir path index
    else appendLine ⟨path, false, none, .missing⟩

/-- The loop over `managed_paths`. -/
def capturePaths (dir : Path) (paths : List Path) : Cmd Unit :=
  Proc.forEach paths.zipIdx (fun (path, index) => captureManifestPath dir path index)

inductive Answer where
  /-- `MANIFEST_CURRENT` -/
  | current
  /-- `MANIFEST_CREATED` -/
  | created
  deriving DecidableEq, Repr

/-- `[[ -s "$MANIFEST" ]]` -/
def World.current (w : World) : Bool := w.manifest.any (fun lines => !lines.isEmpty)

/-- `get_site_value admin_user` -/
def adminUser : Cmd String := do
  let w ← Proc.read
  match w.admin with
  | none => die "site value is missing: admin_user"
  | some admin => pure admin

/-- The quadlet of the account, or a line that stands for the one of a later account. -/
def captureQuadlet (dir : Path) (index : Nat) : Cmd Unit := do
  let uid ← accountId
  match uid with
  | some uid => captureManifestPath dir (quadletPath (toString uid)) index
  | none => appendLine ⟨quadletPath "UNKNOWN", false, none, .missing⟩

/-- `mv -- "$MANIFEST.tmp" "$MANIFEST"` -/
def publish : Cmd Unit :=
  command (fun _ => true) (fun _ w => { w with manifest := some w.pending, pending := [] })

/-- `BACKUP_DIR` -/
def backupDir : Cmd Path := do
  let clock ← output (fun m _ => m.clock)
  match clock with
  | none => Proc.raise .failed
  | some clock => pure (backupsDir ++ [clock ++ "Z"])

/-- `capture_manifest`, where there is no manifest. -/
def captureAll : Cmd Unit := do
  let dir ← backupDir
  installDir dir
  installDir (dir ++ ["files"])
  command (fun _ => true) (fun _ w => { w with pending := [] })
  check "chmod"
  let admin ← adminUser
  capturePaths dir (managedPaths ++ sudoersPaths admin)
  captureQuadlet dir (managedPaths ++ sudoersPaths admin).length
  check "manifest-boot-id"
  check "previous-image"
  check "previous-service-state"
  publish
  check "chmod"
  check "backup-dir"
  check "mark_stage"

/-- `capture_manifest` -/
def captureManifest : Cmd Answer := do
  let w ← Proc.read
  if w.current then pure .current
    else do
      captureAll
      pure .created

/-- `ensure_state` -/
def ensureState : Cmd Unit := do
  installDir stateDir
  installDir stageDir
  check "chmod"
  check "chown"

/-- The request `create-manifest`. -/
def createManifest : Cmd Answer := do
  ensureState
  captureManifest

/-! ## Restoring -/

/-- `[[ "$path" == */users/UNKNOWN/hermes.container ]]` -/
def isUnknown (p : Path) : Bool := ["users", "UNKNOWN", "hermes.container"].isSuffixOf p

/-- The checksum of the backup, unless the line says that there is none. -/
def verifyBackup (l : Line) (path backup : Path) : Cmd Unit :=
  match l.digest with
  | .sum d => do
    let sum ← sha256sum backup
    if sum = some d then pure () else die ("manifest backup checksum failed: " ++ pathText path)
  | _ => pure ()

/-- A path that existed: its backup is put in its place. -/
def restorePresent (l : Line) (path : Path) : Cmd Unit := do
  let w ← Proc.read
  match l.backup.filter w.present with
  | none => die ("manifest backup missing: " ++ pathText path)
  | some backup => do
    verifyBackup l path backup
    removeTree path
    installDir path.dropLast
    copyTree backup path

def restoreAt (l : Line) (path : Path) : Cmd Unit :=
  if l.existed then restorePresent l path else removeTree path

/-- A line for an account that there was not stands for the one there is now. -/
def restoreUnknown (l : Line) : Cmd Unit := do
  let uid ← accountId
  match uid with
  | none => pure ()
  | some uid => restoreAt l (quadletPath (toString uid))

def restoreLine (l : Line) : Cmd Unit :=
  if l.path.isEmpty then pure ()
  else if isUnknown l.path then restoreUnknown l
  else restoreAt l l.path

/-- `restore_manifest` -/
def restoreManifest : Cmd Unit := do
  let w ← Proc.read
  match w.manifest with
  | none => die "deployment manifest is missing"
  | some lines => Proc.forEach lines restoreLine

end Hermes.Manifest

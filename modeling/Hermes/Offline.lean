import Hermes.Machine

/- `offline.py` and the package gates it needs: the stored DNF transaction is
   replayed once, in systemd's offline-update boot, with its progress in a state
   file of its own. -/
namespace Hermes
open Process

/-- A character of `[-A-Za-z0-9_./]`. -/
def isPathChar (c : Char) : Bool := isAlnum c || c == '_' || c == '.' || c == '/' || c == '-'

/-- `re.fullmatch(r"/[-A-Za-z0-9_./]+", s) and ".." not in Path(s).parts`. -/
def isCommandPath (s : String) : Bool :=
  startsWith s "/" && decide (2 ≤ s.toList.length) && s.toList.all isPathChar &&
    !(s.toList.splitOn '/').contains ['.', '.']

/-- `re.fullmatch(r"hermes-[A-Za-z0-9._-]+\.efi", s)`. -/
def isBootEntry (s : String) : Bool :=
  let middle := (s.toList.drop 7).take (s.toList.length - 11)
  startsWith s "hermes-" && s.toList.drop (s.toList.length - 4) == ".efi".toList &&
    !middle.isEmpty && middle.all (fun c => isAlnum c || c == '.' || c == '_' || c == '-')

/-- The digest of a file. -/
def Bytes.sha256 : Bytes → Digest
  | .text s => digest s
  | .sealed key nonce => digest (key.value ++ nonce)

/-- The part of `unit_text` that depends on the transaction. -/
def unitText (directory : String) (baseline : Digest) : String :=
  "ExecStart=/usr/bin/python3 -I -B offline.py execute --directory " ++ directory ++
    " --baseline " ++ baseline.preimage

/-! Files of the host. -/

/-- `atomic(path, data)` as root. -/
def writeFile (place : Place) (bytes : Bytes) : Task Machine Unit :=
  atomic fun _ s => s.setNode place (some (.file bytes .rootPrivate))

/-- `path.chmod(mode)`. -/
def chmod (place : Place) (mode : Nat) : Task Machine Unit :=
  atomic fun _ s => s.setMeta place (fun info => { info with mode := mode })

/-- `path.parent.mkdir(parents=True, exist_ok=True)`, of a directory the model leaves out. -/
def mkdir : Task Machine Unit := atomic fun _ s => s

/-- `protected_file(path, 0).read_bytes()`. -/
def protectedFile (place : Place) : Task Machine Bytes := do
  let s ← Proc.read
  match s.files place with
  | none => Proc.raise .osError
  | some .link => fail 78 "unsafe-file-type"
  | some (.file bytes info) =>
    require (info.mode &&& 0o022 = 0) "writable-trust-file"
    require (info.uid = 0) "wrong-file-owner"
    let m ← instant
    require m.platform.trustedParents "unsafe-trust-directory"
    pure bytes

/-! The package gates. -/

/-- `gates.package_baseline`. -/
def packageBaseline : Task Machine Digest :=
  query (fun _ => true) (fun _ s => digest s.inventory)

/-- `gates.verify_packages`. -/
def verifyPackages (baseline : Digest) : Task Machine Unit := do
  let found ← packageBaseline
  require (found = baseline) "package-baseline-mismatch"
  let m ← instant
  require m.platform.bundleVerified "stored-transaction-result-mismatch"

/-! Staging. -/

/-- A file or link in the way of a new stage. -/
def Machine.updateStaged (s : Machine) : Bool :=
  s.systemUpdate != .absent || s.otherUpdate || (s.files .offlineUnit).isSome ||
    s.wantLink != .absent

/-- `offline.stage`. -/
def stageOffline (directory : String) (baseline expected : Digest) (bootEntry : Option String) :
    Task Machine Unit := do
  require (isCommandPath directory) "unsafe-offline-command-path"
  let boot ← match bootEntry with
    | none => pure none
    | some entry => do
      require (isBootEntry entry) "invalid-offline-boot-entry"
      let bytes ← protectedFile (.bootEntry entry)
      pure (some { entry := entry, sha256 := bytes.sha256 : BootArtifact })
  let s ← Proc.read
  require (!s.updateStaged) "offline-update-already-staged"
  require (s.replays directory baseline).isNone "offline-replay-already-attempted"
  let m ← instant
  let content := unitText directory baseline
  let state : Replay := ⟨expected, .staging, s.bootId, m.now, digest content, boot, none, none, none⟩
  atomic fun _ s => s.setReplay directory baseline state
  writeFile .offlineUnit (.text content)
  chmod .offlineUnit 0o644
  command (fun _ => true) (fun _ s => s)
  mkdir
  atomic fun _ s => { s with wantLink := .to "hermes-offline-replay.service" }
  atomic fun _ s => s.setReplay directory baseline { state with status := .staged }
  atomic fun _ s => ({ s with systemUpdate := .to directory }.mark (.staged directory s.bootId))
  command (fun _ => true) (fun _ s => s)

/-- The boot artifact of `offline.stage`. -/
def stagedBoot : Option String → Task Machine (Option BootArtifact)
  | none => pure none
  | some entry => do
    require (isBootEntry entry) "invalid-offline-boot-entry"
    let bytes ← protectedFile (.bootEntry entry)
    pure (some { entry := entry, sha256 := bytes.sha256 : BootArtifact })

/-- `offline.stage` under its lock. -/
def stageLocked (directory : String) (baseline expected : Digest) (boot : Option BootArtifact) :
    Task Machine Unit := do
  let s ← Proc.read
  require (!s.updateStaged) "offline-update-already-staged"
  require (s.replays directory baseline).isNone "offline-replay-already-attempted"
  let m ← instant
  let content := unitText directory baseline
  let state : Replay := ⟨expected, .staging, s.bootId, m.now, digest content, boot, none, none, none⟩
  atomic fun _ s => s.setReplay directory baseline state
  writeFile .offlineUnit (.text content)
  chmod .offlineUnit 0o644
  command (fun _ => true) (fun _ s => s)
  mkdir
  atomic fun _ s => { s with wantLink := .to "hermes-offline-replay.service" }
  atomic fun _ s => s.setReplay directory baseline { state with status := .staged }
  atomic fun _ s => ({ s with systemUpdate := .to directory }.mark (.staged directory s.bootId))
  command (fun _ => true) (fun _ s => s)

theorem stageOffline_eq (directory : String) (baseline expected : Digest) (entry : Option String) :
    stageOffline directory baseline expected entry = (do
      require (isCommandPath directory) "unsafe-offline-command-path"
      let boot ← stagedBoot entry
      stageLocked directory baseline expected boot) := by
  cases entry with
  | none => rfl
  | some entry =>
    unfold stageOffline stagedBoot
    congr 1
    funext _
    rw [Proc.bind_assoc']
    rw [Proc.bind_assoc']
    rfl

/-- `gates.replay_packages`. -/
def replayPackages (directory : String) (baseline expected : Digest) (bootEntry : Option String) :
    Task Machine Unit := do
  verifyPackages baseline
  stageOffline directory baseline expected bootEntry

/-! Replay, in the offline boot. -/

/-- `offline.cleanup`: only a service that is unchanged since staging is removed. -/
def cleanupOffline (state : Replay) : Task Machine Unit := do
  let bytes ← protectedFile .offlineUnit
  require (bytes.sha256 = state.unitSha256) "offline-service-changed"
  let s ← Proc.read
  require (s.wantLink = .to "hermes-offline-replay.service") "offline-service-link-changed"
  atomic fun _ s => { s with wantLink := .absent }
  atomic fun _ s => s.setNode .offlineUnit none

/-- Select the new boot entry, if its file is the one that was staged. -/
def selectBoot (directory : String) (baseline : Digest) : Option BootArtifact → Task Machine Unit
  | none => pure ()
  | some boot => do
    let bytes ← protectedFile (.bootEntry boot.entry)
    require (isBootEntry boot.entry && bytes.sha256 = boot.sha256) "offline-boot-artifact-changed"
    Proc.update fun s => s.logReplay (.selected directory baseline boot.entry (digest s.inventory)
      ((Node.bytes? (s.files (.bootEntry boot.entry))).map Bytes.sha256))
    command (fun _ => true) (fun _ s => { s with bootDefault := some boot.entry })

/-- The replay itself, up to `complete`. -/
def replayStaged (directory : String) (baseline : Digest) (state : Replay) : Task Machine Unit := do
  verifyPackages baseline
  Proc.update (·.logReplay (.started directory baseline))
  command (fun _ => true) (fun m s => { s with inventory := m.text })
  let found ← packageBaseline
  require (found = state.expected) "package-replay-result-mismatch"
  selectBoot directory baseline state.boot
  cleanupOffline state
  let m ← instant
  atomic fun _ s => (s.setReplay directory baseline
      { state with status := .complete, completedAt := some m.now }).logReplay
    (.completed directory baseline (digest s.inventory) (s.files .offlineUnit).isSome
      (s.wantLink != .absent))

/-- `getattr(error, "reason", type(error).__name__)`. -/
def Exc.reason : Exc → String
  | .failure _ reason => reason
  | .osError => "OSError"
  | .keyError => "KeyError"
  | .valueError => "ValueError"
  | _ => ""

/-- `except (Failure, OSError, ValueError, KeyError)`. -/
def Exc.isReported : Exc → Bool
  | .failure _ _ | .osError | .keyError | .valueError => true
  | _ => false

/-- `offline.execute`. -/
def executeOffline (directory : String) (baseline : Digest) : Task Machine Unit := do
  let s ← Proc.read
  if s.systemUpdate ≠ .to directory then pure ()
  else
    atomic fun _ s => { s with systemUpdate := .absent }
    command (fun _ => true) (fun _ s => s)
    let s ← Proc.read
    match s.replays directory baseline with
    | none => Proc.raise .osError
    | some state =>
      require (state.status = .staged && state.bootBefore != s.bootId)
        "offline-stage-or-boot-mismatch"
      let running := { state with status := .running, updateBoot := some s.bootId }
      atomic fun _ s => s.setReplay directory baseline running
      Proc.handle (replayStaged directory baseline running) fun e =>
        if e.isReported then do
          let m ← instant
          atomic fun _ s => s.setReplay directory baseline
            { running with status := .failed, error := some e.reason, completedAt := some m.now }
          fail 75 "offline-package-recovery-required"
        else Proc.raise e
      command (fun _ => true) (fun _ s => s)

/-- `offline.require_complete`. -/
def requireComplete (directory : String) (baseline : Digest) : Task Machine Unit := do
  let s ← Proc.read
  match s.replays directory baseline with
  | none => Proc.raise .osError
  | some state =>
    require (state.status = .complete) "offline-package-recovery-required" 75
    match state.updateBoot with
    | none => Proc.raise .keyError
    | some boot => require (boot != s.bootId) "offline-package-recovery-required" 75

end Hermes

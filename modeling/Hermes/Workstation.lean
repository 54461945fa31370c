import Hermes.Text

/- The controller's state directory on the workstation (`deploy-lib.sh`): one
   file for each value, every file replaced as a whole. -/
namespace Hermes

/-- The stages with a local marker `stage-<name>`. -/
inductive Stage where
  | siteConfigured
  | manifest
  | dataBackup
  | prerequisites
  | hostPolicy
  | updateStaged
  | update
  | identity
  | runtime
  | hardening
  | credentialFreeAcceptance
  | hermesReboot
  | postRebootCredentialFree
  | oauth
  | postAuthHardening
  | modelConfigured
  | providerAcceptance
  | inferenceAcceptance
  | wrappers
  | closed
  | authRevoked
  | rollback
  deriving DecidableEq, Repr

def Stage.name : Stage → String
  | .siteConfigured => "site-configured"
  | .manifest => "manifest"
  | .dataBackup => "data-backup"
  | .prerequisites => "prerequisites"
  | .hostPolicy => "host-policy"
  | .updateStaged => "update-staged"
  | .update => "update"
  | .identity => "identity"
  | .runtime => "runtime"
  | .hardening => "hardening"
  | .credentialFreeAcceptance => "credential-free-acceptance"
  | .hermesReboot => "hermes-reboot"
  | .postRebootCredentialFree => "post-reboot-credential-free"
  | .oauth => "oauth"
  | .postAuthHardening => "post-auth-hardening"
  | .modelConfigured => "model-configured"
  | .providerAcceptance => "provider-acceptance"
  | .inferenceAcceptance => "inference-acceptance"
  | .wrappers => "wrappers"
  | .closed => "closed"
  | .authRevoked => "auth-revoked"
  | .rollback => "rollback"

def Stage.all : List Stage :=
  [.siteConfigured, .manifest, .dataBackup, .prerequisites, .hostPolicy, .updateStaged, .update,
    .identity, .runtime, .hardening, .credentialFreeAcceptance, .hermesReboot,
    .postRebootCredentialFree, .oauth, .postAuthHardening, .modelConfigured, .providerAcceptance,
    .inferenceAcceptance, .wrappers, .closed, .authRevoked, .rollback]

/-- The files of the state directory. -/
inductive StateFile where
  | target
  | managementCidr
  | interface
  | currentPhase
  | stage (s : Stage)
  | provider
  | model
  | promotionRecord
  | promotionId
  | promotionProvider
  | promotionModel
  | promotionArtifactFingerprint
  | promotionBoundAt
  | hostMachineIdSha256
  | hostSshFingerprint
  | platform
  | adoptedAt
  deriving DecidableEq, Repr

/-- `STATE_DIR`. -/
structure StateDir where
  present : Bool
  file : StateFile → Option String
  absent : present = false → ∀ f, file f = none

namespace StateDir

def empty : StateDir := { present := false, file := fun _ => none, absent := fun _ _ => rfl }

/-- `state_write` -/
def write (d : StateDir) (f : StateFile) (value : String) : StateDir where
  present := true
  file := fun g => if g = f then some value else d.file g
  absent h := absurd h (by decide)

/-- `rm -f` -/
def remove (d : StateDir) (f : StateFile) : StateDir where
  present := d.present
  file := fun g => if g = f then none else d.file g
  absent h g := by rw [d.absent h g, ite_self]

/-- `$(state_read f || true)` -/
def read (d : StateDir) (f : StateFile) : String := (d.file f).getD ""

/-- `state_has` -/
def has (d : StateDir) (f : StateFile) : Bool := (d.file f).isSome

def writes (d : StateDir) (ws : List (StateFile × String)) : StateDir :=
  ws.foldl (fun d w => d.write w.1 w.2) d

def removes (d : StateDir) (fs : List StateFile) : StateDir := fs.foldl remove d

@[simp] theorem read_write_self (d : StateDir) (f : StateFile) (value : String) :
    (d.write f value).read f = value := by
  simp [read, write]

theorem read_write_other (d : StateDir) {f g : StateFile} (value : String) (h : g ≠ f) :
    (d.write f value).read g = d.read g := by
  simp [read, write, h]

@[simp] theorem read_remove_self (d : StateDir) (f : StateFile) : (d.remove f).read f = "" := by
  simp [read, remove]

theorem read_remove_other (d : StateDir) {f g : StateFile} (h : g ≠ f) :
    (d.remove f).read g = d.read g := by
  simp [read, remove, h]

@[simp] theorem read_empty (f : StateFile) : empty.read f = "" := rfl

/-- Files that are not written keep their content. -/
theorem read_writes_of_notMem {ws : List (StateFile × String)} {f : StateFile} :
    ∀ {d : StateDir}, (∀ w ∈ ws, w.1 ≠ f) → (d.writes ws).read f = d.read f := by
  induction ws with
  | nil => exact fun _ => rfl
  | cons w ws ih =>
    intro d h
    have hw : f ≠ w.1 := fun he => h w (by simp) he.symm
    show ((d.write w.1 w.2).writes ws).read f = d.read f
    rw [ih (fun x hx => h x (by simp [hx])), read_write_other d w.2 hw]

/-- Files that are written with what they hold keep their content. -/
theorem read_writes_same {ws : List (StateFile × String)} {f : StateFile} :
    ∀ {d : StateDir}, (∀ w ∈ ws, w.1 = f → w.2 = d.read f) → (d.writes ws).read f = d.read f := by
  induction ws with
  | nil => exact fun _ => rfl
  | cons w ws ih =>
    intro d h
    have hw : (d.write w.1 w.2).read f = d.read f := by
      by_cases hf : w.1 = f
      · rw [← hf, read_write_self, h w (by simp) hf, hf]
      · exact read_write_other d w.2 (fun he => hf he.symm)
    show ((d.write w.1 w.2).writes ws).read f = d.read f
    rw [ih (fun x hx hxf => by rw [hw]; exact h x (by simp [hx]) hxf), hw]

/-- What a prefix of the writes leaves: a file is new once its turn has come. -/
theorem read_writes_take {ws : List (StateFile × String)} {f : StateFile} {value : String} :
    ∀ {i k : Nat} {d : StateDir}, (ws.map Prod.fst).Nodup → ws[i]? = some (f, value) →
      (d.writes (ws.take k)).read f = if i < k then value else d.read f := by
  induction ws with
  | nil => exact fun _ h => absurd h (by simp)
  | cons w ws ih =>
    intro i k d hnd hi
    rw [List.map_cons, List.nodup_cons] at hnd
    cases k with
    | zero => rfl
    | succ k =>
      show ((d.write w.1 w.2).writes (ws.take k)).read f = _
      cases i with
      | zero =>
        have hw : w = (f, value) := by simpa using hi
        subst hw
        rw [read_writes_of_notMem, read_write_self, if_pos (by omega)]
        intro x hx he
        have hmem : x.1 ∈ ws.map Prod.fst := List.mem_map_of_mem (List.mem_of_mem_take hx)
        exact hnd.1 (he ▸ hmem)
      | succ i =>
        have hi : ws[i]? = some (f, value) := by simpa using hi
        have hne : f ≠ w.1 := by
          intro he
          exact hnd.1 (he ▸ List.mem_map_of_mem (List.mem_of_getElem? hi))
        rw [ih hnd.2 hi, read_write_other d w.2 hne]
        by_cases hk : i < k
        · rw [if_pos hk, if_pos (by omega)]
        · rw [if_neg hk, if_neg (by omega)]

theorem read_removes_of_notMem {fs : List StateFile} {f : StateFile} :
    ∀ {d : StateDir}, f ∉ fs → (d.removes fs).read f = d.read f := by
  induction fs with
  | nil => exact fun _ => rfl
  | cons g fs ih =>
    intro d h
    have hg : f ≠ g := fun he => h (by simp [he])
    show ((d.remove g).removes fs).read f = d.read f
    rw [ih (fun hm => h (by simp [hm])), read_remove_other d hg]

theorem read_removes_of_mem {fs : List StateFile} {f : StateFile} :
    ∀ {d : StateDir}, f ∈ fs → (d.removes fs).read f = "" := by
  induction fs with
  | nil => exact fun h => absurd h (by simp)
  | cons g fs ih =>
    intro d h
    show ((d.remove g).removes fs).read f = ""
    by_cases hm : f ∈ fs
    · exact ih hm
    · have hg : f = g := (List.mem_cons.mp h).resolve_right hm
      rw [read_removes_of_notMem hm, hg, read_remove_self]

theorem read_absent {d : StateDir} (h : d.present = false) (f : StateFile) : d.read f = "" := by
  simp [read, d.absent h f]

@[simp] theorem write_present (d : StateDir) (f : StateFile) (value : String) :
    (d.write f value).present = true := rfl

end StateDir

/-- The default model of a provider; `none` is the status 1 of the function. -/
def providerDefaultModel (provider : String) : Option String :=
  if provider = "openai-codex" ∨ provider = "openai-api" then some "gpt-5.6-luna"
  else if provider = "nous" then some "anthropic/claude-sonnet-4.6"
  else none

/-- `existing_provider` -/
def existingProvider (d : StateDir) : String :=
  if d.read .provider = "" then
    if d.has (.stage .modelConfigured) || d.has (.stage .oauth) then "nous" else ""
  else d.read .provider

/-- `existing_model`; `none` if the default of an unknown provider is asked for. -/
def existingModel (d : StateDir) : Option String :=
  if d.read .model = "" then
    if existingProvider d = "" then some "" else providerDefaultModel (existingProvider d)
  else some (d.read .model)

end Hermes

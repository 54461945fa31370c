import Hermes.Common
import Hermes.Library.Script
import Hermes.ReleaseBuilt

/- The signing service (`signer.py`). It reads the handoff of the certifier once, checks that the
   evidence is complete, fresh and of one run, freezes a copy of its own, has `finalize` publish
   the archive under the candidate's fingerprint, and then selects it: a second link,
   `.selected.pending`, is renamed to `selected.tar`.

   The certifier owns the handoff and may change it meanwhile, so a file is what its one reading
   gave. The output directory belongs to the service. Runs exclude one another from the lock on,
   and what a run does before that leaves the directory alone, so runs follow one another. -/
namespace Hermes.Signer
open Process Entries Outcome
open Transaction (demand)
open Candidate (Content Tools pathOf)
open Release (Archive Bench Codec Handoff Tree expect readPart gates)

/-- The output directory. -/
structure Desk where
  /-- `<fingerprint>.tar` -/
  ledger : List (String × Archive)
  /-- `.selected.pending` -/
  pending : Option Archive
  /-- `selected.tar` -/
  selected : Option Archive

def Desk.empty : Desk := ⟨[], none, none⟩

def Desk.archive (w : Desk) (fingerprint : String) : Option Archive :=
  (w.ledger.find? fun e => e.1 == fingerprint).map Prod.snd

abbrev Cmd := Task Desk

/-- A file that `open_owned` has opened: its size then, and what is read of it. -/
structure Opened where
  size : Nat
  data : Content

/-- The handoff, as it is read. -/
structure Given where
  candidate : Except Exc Opened
  evidence : String → Except Exc Opened
  file : String → Except Exc Opened

/-- What the modelled code takes from elsewhere. -/
structure Setting where
  codec : Codec
  /-- the policy, the roles, the paths and the key -/
  ready : Moment → Except Exc Unit
  guard : Moment → Path → Option String
  signersGuard : Moment → Option String
  room : Moment → Path → Bool
  renames : Moment → Bool
  newMode : Nat
  sign : Moment → Content → Except Exc Content
  verify : Moment → Content → Content → Except Exc Unit

/-- What `finalize` meets: the candidate is checked, the window opened, the directory signed and
    the archive verified, one after the other. -/
def Setting.bench (x : Setting) (checked opened signed verified : Moment) : Bench where
  now := checked.now
  issued := opened.now
  signed := signed.now
  later := verified.now
  guard := x.guard signed
  sign := x.sign signed
  verify := x.verify verified
  signersGuard := x.signersGuard verified
  room := x.room verified
  renames := x.renames verified
  newMode := x.newMode

/-! ## The evidence -/

/-- When and in which run a gate was completed. -/
structure Completion where
  time : Int
  run : String
  deriving DecidableEq, Repr

/-- One round of the loop in `validate_evidence`. -/
def completion (now : Int) (value : Json) : Except Exc Completion := do
  let time ← expect (match value.get "completed_at" with
    | some (.int n) => some n
    | _ => none) "stale-certification-evidence"
  demand (now - 86400 ≤ time && time ≤ now) "stale-certification-evidence"
  let run ← expect (value.getStr "run_id") "invalid-certification-run"
  demand (isHex 64 64 run) "invalid-certification-run"
  pure { time, run }

/-- `times[gate]` -/
def timeOf (done : List (String × Completion)) (gate : String) : Option Int :=
  (done.find? fun d => d.1 == gate).map fun d => d.2.time

/-- `validate_evidence` -/
def validateEvidence (values : List (String × Json)) (now : Int) : Except Exc Unit := do
  demand ((Json.obj values).hasKeys gates && values.all fun v => v.2.fields?.isSome) "invalid-certification-evidence"
  let done ← values.mapM fun v => do
    let c ← completion now v.2
    pure (v.1, c)
  -- one run; the machine was destroyed last; credentials were revoked after they were used
  demand ((done.all fun d => done.all fun e => d.2.run == e.2.run) &&
    (timeOf done "vm_destroyed").any (fun last => done.all fun d => d.2.time ≤ last) &&
    (timeOf done "inference").any fun used => (timeOf done "credential_revocation").any fun revoked => used ≤ revoked)
    "certification-order-mismatch"

/-! ## The copy -/

/-- `read_owned` -/
def readOwned (limit : Nat) (file : Except Exc Opened) : Except Exc Content := do
  let opened ← file
  demand (opened.size ≤ limit) "untrusted-signing-input"
  let raw := opened.data.take (limit + 1)
  demand (raw.length ≤ limit) "oversized-signing-input"
  pure raw

/-- `copy_owned` into the directory of the process -/
def copyOwned (room : Path → Bool) (g : Given) (t : Tree) (f : String × Release.FileRecord) : Except Exc Tree := do
  let opened ← g.file f.1
  let t' ← Release.place room t (pathOf f.1) opened.data (some 0o600)
  demand (opened.size == f.2.size) "untrusted-signing-input"
  demand (opened.data.length ≤ f.2.size) "oversized-signing-input"
  demand (opened.data.length == f.2.size) "truncated-signing-input"
  pure t'

/-- What is at a path, where a file is. -/
def fileAt (t : Tree) (p : Path) : Option Content :=
  match t.node p with
  | some (.file content _) => some content
  | _ => none

/-- The handoff that `finalize` is given. -/
def frozen (raw : Content) (t : Tree) (taken : List (String × Content)) : Handoff where
  candidate := raw
  seen name := fileAt t (pathOf name)
  copied name := fileAt t (pathOf name)
  evidence gate := (taken.find? fun e => e.1 == gate).map Prod.snd

/-! ## `sign` -/

/-- `os.link` to a name that has to be free. -/
def link (free : Desk → Bool) (effect : Desk → Desk) : Cmd Unit :=
  Proc.perform fun m w =>
    if m.verdict = .done then
      if free w then (.ok (), effect w) else (.error .osError, w)
    else (.error (fileError m.verdict), if m.took && free w then effect w else w)

def Desk.publish (w : Desk) (fingerprint : String) (archive : Archive) : Desk :=
  { w with ledger := (fingerprint, archive) :: w.ledger }

def Desk.offer (w : Desk) (fingerprint : String) : Desk := { w with pending := w.archive fingerprint }

def Desk.select (w : Desk) : Desk := { w with selected := w.pending, pending := none }

section
variable (x : Setting)

/-- The handoff that was read and checked. -/
structure Checked where
  raw : Content
  document : Json
  candidate : Release.Manifest
  taken : List (String × Content)

/-- What is done before the lock is taken. -/
def check (g : Given) : Cmd Checked := do
  let m ← instant
  Proc.settle (x.ready m)
  let raw ← Proc.settle (readOwned Release.maxMetadata g.candidate)
  let document ← Proc.settle (x.codec.tools.decode raw)
  let first ← instant
  let candidate ← Proc.settle (Release.validateCandidate x.codec.tools.floatIs first.now document)
  let evidence ← Proc.settle (expect ((document.get "evidence").bind Json.fields?) "invalid-candidate-evidence")
  let taken ← Proc.settle (evidence.mapM fun e => do
    let raw ← readOwned Release.maxMetadata (g.evidence e.1)
    pure (e.1, raw))
  let now ← instant
  let values ← Proc.settle (taken.mapM fun e => do
    let value ← x.codec.tools.decode e.2
    pure (e.1, value))
  Proc.settle (validateEvidence values now.now)
  pure { raw, document, candidate, taken }

def fingerprintOf (document : Json) : String := Release.candidateFingerprint x.codec.tools x.codec.canonical document

/-- The copy, and `finalize` on it. -/
def package (g : Given) (c : Checked) : Cmd Archive := do
  let copied ← instant
  let t ← Proc.settle (c.candidate.files.foldlM (copyOwned (x.room copied) g) Release.emptyTree)
  let checked ← instant
  let opened ← instant
  let signed ← instant
  let verified ← instant
  Proc.settle (Release.finalize x.codec (x.bench checked opened signed verified) (frozen c.raw t c.taken))

/-- What comes before the archive is selected. -/
def prepare (g : Given) : Cmd String := do
  let c ← check x g
  let fingerprint := fingerprintOf x c.document
  lockFile
  let existing ← peek (·.archive fingerprint)
  -- an old certification is not renewed
  require existing.isNone "candidate-already-signed"
  let archive ← package x g c
  link (fun w => (w.archive fingerprint).isNone) (·.publish fingerprint archive)
  peek (fun _ => ())  -- the digest of the output, and the end of the temporary directory
  atomic (fun _ w => w)  -- `chmod`
  let pending ← peek (·.pending)
  require pending.isNone "pending-publication-needs-recovery"
  pure fingerprint

/-- The archive becomes the one that is deployed. -/
def choose (fingerprint : String) : Cmd Unit := do
  link (fun w => w.pending.isNone) (·.offer fingerprint)
  atomic (fun _ w => w.select)
  atomic (fun _ w => w)  -- `fsync`

/-- `sign` -/
def sign (g : Given) : Cmd String := do
  let fingerprint ← prepare x g
  choose fingerprint
  peek (fun _ => ())  -- the digest of the archive
  pure fingerprint

end

/-- A run of the service, and what the outside answers meanwhile. -/
structure Session where
  given : Given
  moments : List Moment

/-- The directory after some runs, each of them ended at any point. -/
def serve (x : Setting) (sessions : List Session) (w : Desk) : Desk :=
  sessions.foldl (fun w r => (sign x r.given).after r.moments w) w

end Hermes.Signer

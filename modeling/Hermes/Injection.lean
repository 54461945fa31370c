import Mathlib.Logic.Function.Basic
import Mathlib.Algebra.Order.Ring.Int
import Hermes.Common

/- The injection of a UKI into the disposable machine (`lab_boot.inject`): on each of the
   two EFI boot paths the image that is there is copied to `.hermes-original`, the new one
   is uploaded beside it as `.hermes-pending` and moved into place.

   A run may end at any command. Moving a file is atomic; an upload that does not finish
   leaves a part of the image, and the copy that makes a backup is taken to happen or not.
   What `inject` asks of the domain and of the marker of its stage is answered by the
   outside; files are compared themselves where the code compares their digests. -/
namespace Hermes.Injection
open Process

abbrev Bytes := List UInt8

/-- `EFI_PATHS` -/
inductive EfiPath where
  | shim
  | fallback
  deriving DecidableEq, Repr

def efiPaths : List EfiPath := [.shim, .fallback]

/-- The files of the EFI partition that `inject` reads or writes: those at the paths, the
    `.hermes-original` and the `.hermes-pending` ones, and the enrolled public key. -/
structure Disk where
  boot : EfiPath → Option Bytes
  original : EfiPath → Option Bytes
  pending : EfiPath → Option Bytes
  enrolledKey : Option Bytes

/-- The frozen inputs, and what `verify_uki` says of them. -/
structure Inputs where
  uki : Bytes
  pcrPublicKey : Bytes
  commandLine : Option String

/-- `400 * 1024**2` -/
def sizeLimit : Nat := 400 * 1024 ^ 2

/-- A command whose outcome the outside decides. -/
def check (_what : String) : Task Disk Unit := command (fun _ => true) (fun _ d => d)

/-- `bounded_download` -/
def boundedDownload (file : Disk → Option Bytes) (limit : Nat) : Task Disk Bytes := do
  let size ← query (fun d => (file d).isSome) (fun _ d => ((file d).getD []).length)
  require (0 < size && size ≤ limit) "lab-export-too-large"
  let data ← query (fun d => (file d).isSome) (fun _ d => (file d).getD [])
  require (data.length == size) "lab-export-size-changed"
  pure data

/-- `guestfish([("is-file", backup)])` -/
def isFile (file : Disk → Option Bytes) : Task Disk Bool := query (fun _ => true) (fun _ d => (file d).isSome)

/-- `guestfish([("cp", destination, backup), ("sync",)], writable=True)` -/
def copyOriginal (p : EfiPath) : Task Disk Unit :=
  command (fun d => (d.boot p).isSome) (fun _ d => { d with original := Function.update d.original p (d.boot p) })

/-- `guestfish([("upload", uki, pending), ("sync",)], writable=True)` -/
def upload (uki : Bytes) (p : EfiPath) : Task Disk Unit :=
  Proc.perform fun m d =>
    if m.verdict = .done then (.ok (), { d with pending := Function.update d.pending p (some uki) })
    else (.error (runFailure m.verdict),
      if m.took then { d with pending := Function.update d.pending p (some (uki.take m.progress)) } else d)

/-- `guestfish([("mv", pending, destination), ("sync",)], writable=True)` -/
def moveIntoPlace (p : EfiPath) : Task Disk Unit :=
  command (fun d => (d.pending p).isSome)
    (fun _ d => { d with boot := Function.update d.boot p (d.pending p), pending := Function.update d.pending p none })

/-- `if exists == b"false": guestfish([("cp", ..` -/
def ensureOriginal (p : EfiPath) : Task Disk Unit := do
  let there ← isFile (fun d => d.original p)
  check "check_domain"
  onlyIf (!there) do
    check "domstate"
    copyOriginal p

/-- A path that does not hold the image yet. -/
def replaceImage (uki current : Bytes) (p : EfiPath) : Task Disk Unit := do
  ensureOriginal p
  let restored ← boundedDownload (fun d => d.original p) sizeLimit
  require (restored == current) "efi-backup-copy-mismatch"
  check "domstate"
  upload uki p
  let readback ← boundedDownload (fun d => d.pending p) sizeLimit
  require (readback == uki) "efi-upload-copy-mismatch"
  check "check_domain"
  check "domstate"
  moveIntoPlace p

/-- The body of the loop over `EFI_PATHS`. -/
def injectPath (uki : Bytes) (p : EfiPath) : Task Disk Unit := do
  let current ← boundedDownload (fun d => d.boot p) sizeLimit
  if current = uki then pure () else replaceImage uki current p

/-- The body of the last loop. -/
def verifyPath (uki : Bytes) (p : EfiPath) : Task Disk Unit := do
  let readback ← boundedDownload (fun d => d.boot p) sizeLimit
  require (readback == uki) "efi-final-copy-mismatch"

/-- What precedes the loops. -/
def prepare (v : Inputs) : Task Disk Unit := do
  check "protected_file"
  require (v.uki.length ≤ sizeLimit) "lab-input-too-large"
  check "copyfile"
  check "verify_uki"
  require v.commandLine.isSome "incomplete-installed-uki"
  check "check_domain"
  check "bounded_cat"
  let enrolled ← boundedDownload (fun d => d.enrolledKey) 65536
  require (enrolled == v.pcrPublicKey) "lab-enrolled-pcr-key-mismatch"

/-- `inject` -/
def inject (v : Inputs) : Task Disk Unit := do
  prepare v
  Proc.forEach efiPaths (injectPath v.uki)
  Proc.forEach efiPaths (verifyPath v.uki)
  check "check_domain"

end Hermes.Injection

import Mathlib.Data.String.Basic
import Mathlib.Data.List.Sort
import Mathlib.Logic.Function.Basic
import Hermes.Outside
import Hermes.PurePath

/- The inventory that a stored DNF5 transaction leads to (`transaction.py`) and the baseline
   that `gates.py` takes of the packages installed.

   The bytes of a text are the characters of the same code. A set is the list of its elements
   in the order in which they came in. -/
namespace Hermes.Transaction

/-- `require(condition, reason)` -/
def demand (condition : Bool) (reason : String) : Except Exc Unit :=
  if condition then .ok () else .error (.failure 78 reason)

/-! ## `normalize` -/

/-- `[A-Za-z0-9+_.:~^%-]` -/
def isNevraChar (c : Char) : Bool := isAlnum c || "+_.:~^%-".toList.contains c

/-- `-[a-f0-9]+\.\(none\)` -/
def isKeyRelease : List Char → Bool
  | '-' :: cs => !(cs.takeWhile isHexDigit).isEmpty && cs.dropWhile isHexDigit == ".(none)".toList
  | _ => false

/-- `gpg-pubkey-[a-f0-9:]+-[a-f0-9]+\.\(none\)` -/
def isSigningKey (cs : List Char) : Bool :=
  let isId := fun c => isHexDigit c || c == ':'
  cs.take 11 == "gpg-pubkey-".toList && !((cs.drop 11).takeWhile isId).isEmpty &&
    isKeyRelease ((cs.drop 11).dropWhile isId)

/-- What is before and after the last `c`. -/
def splitLast (c : Char) (cs : List Char) : Option (List Char × List Char) :=
  match cs.reverse.dropWhile (· ≠ c) with
  | [] => none
  | _ :: before => some (before.reverse, (cs.reverse.takeWhile (· ≠ c)).reverse)

/-- What is before and after the first `c`. -/
def splitFirst (c : Char) (cs : List Char) : Option (List Char × List Char) :=
  match cs.dropWhile (· ≠ c) with
  | [] => none
  | _ :: after => some (cs.takeWhile (· ≠ c), after)

structure Nevra where
  name : List Char
  epoch : Nat
  version : List Char
  release : List Char
  arch : List Char
  deriving DecidableEq, Repr

def Nevra.text (n : Nevra) : List Char :=
  n.name ++ '-' :: ((Nat.toDigits 10 n.epoch) ++ ':' :: (n.version ++ '-' :: (n.release ++ '.' :: n.arch)))

/-- `nevra.rsplit("-", 2)` with three parts that are not empty -/
def nameVersionRelease (cs : List Char) : Except Exc (List Char × List Char × List Char) :=
  match splitLast '-' cs with
  | none => .error (.failure 78 "invalid-package-nevra")
  | some (rest, release) =>
    match splitLast '-' rest with
    | none => .error (.failure 78 "invalid-package-nevra")
    | some (name, version) =>
      if name = [] ∨ version = [] ∨ release = [] then .error (.failure 78 "invalid-package-nevra")
      else .ok (name, version, release)

/-- `release_arch.rpartition(".")` with three parts that are not empty -/
def releaseArch (cs : List Char) : Except Exc (List Char × List Char) :=
  match splitLast '.' cs with
  | none => .error (.failure 78 "invalid-package-nevra")
  | some (release, arch) =>
    if release = [] ∨ arch = [] then .error (.failure 78 "invalid-package-nevra") else .ok (release, arch)

def decimal (cs : List Char) : Nat := cs.foldl (fun n c => n * 10 + (c.toNat - 48)) 0

/-- `int(epoch)`: more than 4300 digits are a `ValueError`. -/
def parseInt (cs : List Char) : Except Exc Nat :=
  if 4300 < cs.length then .error .valueError else .ok (decimal cs)

/-- The epoch, zero where there is none, and the version. -/
def epochVersion (cs : List Char) : Except Exc (Nat × List Char) :=
  let (epoch, value) := (splitFirst ':' cs).getD (['0'], cs)
  if epoch = [] ∨ !epoch.all (fun c => '0' ≤ c && c ≤ '9') ∨ value = [] ∨ value.contains ':' then
    .error (.failure 78 "invalid-package-nevra")
  else (parseInt epoch).map fun n => (n, value)

def parseNevra (cs : List Char) : Except Exc Nevra := do
  let (name, version, last) ← nameVersionRelease cs
  let (release, arch) ← releaseArch last
  let (epoch, value) ← epochVersion version
  pure ⟨name, epoch, value, release, arch⟩

def normalize (nevra : Json) : Except Exc String :=
  match nevra with
  | .str s =>
    if (!s.toList.isEmpty && s.toList.all isNevraChar) || isSigningKey s.toList then
      (parseNevra s.toList).map fun n => String.ofList n.text
    else .error (.failure 78 "invalid-package-nevra")
  | _ => .error (.failure 78 "invalid-package-nevra")

/-! ## Records -/

inductive Action where
  | install
  | upgrade
  | downgrade
  | reinstall
  | remove
  | replaced
  deriving DecidableEq, Repr

def Action.ofName : String → Option Action
  | "Install" => some .install
  | "Upgrade" => some .upgrade
  | "Downgrade" => some .downgrade
  | "Reinstall" => some .reinstall
  | "Remove" => some .remove
  | "Replaced" => some .replaced
  | _ => none

/-- `action in INCOMING` -/
def Action.incoming : Action → Bool
  | .remove => false
  | .replaced => false
  | _ => true

/-- The set that a package belongs to. -/
inductive Target where
  | removed
  | added
  | reinstalled
  deriving DecidableEq, Repr

def Action.target : Action → Target
  | .remove => .removed
  | .replaced => .removed
  | .reinstall => .reinstalled
  | _ => .added

/-- `action in INCOMING | OUTGOING`: a list or an object has no hash. -/
def actionOf (record : Json) : Except Exc Action :=
  match record.get "action" with
  | some (.arr _) => .error .typeError
  | some (.obj _) => .error .typeError
  | some (.str s) => (Action.ofName s).elim (.error (.failure 78 "unsupported-transaction-action")) .ok
  | _ => .error (.failure 78 "unsupported-transaction-action")

structure Scan where
  names : Target → List String
  paths : List (String × String)

def Scan.empty : Scan := ⟨fun _ => [], []⟩

def Scan.add (s : Scan) (t : Target) (name : String) : Scan :=
  { s with names := Function.update s.names t (s.names t ++ [name]) }

def isObj : Json → Bool
  | .obj _ => true
  | _ => false

/-- The checks of a record's action and name. -/
def readPackage (s : Scan) (record : Json) : Except Exc (Action × String) := do
  demand (isObj record) "invalid-transaction-package"
  let action ← actionOf record
  let name ← normalize ((record.get "nevra").getD .null)
  demand (!(s.names action.target).contains name) "duplicate-transaction-package"
  pure (action, name)

/-- The check of a path; an empty one has no first part. -/
def checkPath (raw : String) : Except Exc String :=
  let relative := PurePath.parse raw
  if relative.isAbsolute || relative.parts.contains ".." then .error (.failure 78 "unsafe-stored-package-path")
  else
    match relative.parts with
    | [] => .error .indexError
    | first :: rest =>
      if first = "packages" ∧ rest.length = 1 ∧ relative.suffix = ".rpm" ∧ !raw.toList.contains '\\' then
        .ok relative.str
      else .error (.failure 78 "unsafe-stored-package-path")

/-- `isinstance(raw, str) and raw` -/
def rawPath (record : Json) : Except Exc String :=
  match record.get "package_path" with
  | some (.str raw) => if raw = "" then .error (.failure 78 "missing-stored-package-path") else .ok raw
  | _ => .error (.failure 78 "missing-stored-package-path")

def storePath (s : Scan) (record : Json) (name : String) : Except Exc Scan := do
  let raw ← rawPath record
  let path ← checkPath raw
  demand (!(s.paths.map Prod.fst).contains path) "duplicate-stored-package-path"
  pure { s with paths := s.paths ++ [(path, name)] }

def readRecord (s : Scan) (record : Json) : Except Exc Scan := do
  let (action, name) ← readPackage s record
  let s := s.add action.target name
  if action.incoming then storePath s record name
  else do
    demand (record.get "package_path").isNone "unexpected-outgoing-package-path"
    pure s

def readRecords : Scan → List Json → Except Exc Scan
  | s, [] => .ok s
  | s, record :: records => do
    let s ← readRecord s record
    readRecords s records

/-! ## `expected_inventory` -/

/-- The records of a transaction of the supported shape. -/
def recordsOf (transaction : Json) : Except Exc (List Json) :=
  if transaction.hasKeys ["version", "rpms"] && transaction.getStr "version" == some "1.0" then
    match transaction.get "rpms" with
    | some (.arr (record :: records)) => .ok (record :: records)
    | _ => .error (.failure 78 "unsupported-stored-transaction")
  else .error (.failure 78 "unsupported-stored-transaction")

def normalizeAll : List String → Except Exc (List String)
  | [] => .ok []
  | line :: lines => do
    let name ← normalize (.str line)
    let names ← normalizeAll lines
    pure (name :: names)

/-- The packages of an inventory; `before.decode("ascii")` refuses other bytes. -/
def installedOf (before : String) : Except Exc (List String) := do
  demand (before.toList.getLast? == some '\n') "invalid-package-inventory"
  if before.toList.any (fun c => 128 ≤ c.toNat) then .error .valueError
  else do
    let names ← normalizeAll (splitlines before)
    demand (decide names.Nodup) "duplicate-installed-package"
    pure names

/-- `"".join(name + "\n" for name in names)` -/
def inventoryText (names : List String) : String := String.join (names.map (· ++ "\n"))

/-- `sorted` -/
def sortNames (names : List String) : List String := names.insertionSort (· ≤ ·)

/-- What is left of the packages and what is new. -/
def resulting (installed : List String) (s : Scan) : List String :=
  let kept := installed.filter fun n => !(s.names .removed).contains n
  kept ++ (s.names .added).filter fun n => !kept.contains n

/-- The checks after the loop. -/
def checkSets (installed : List String) (s : Scan) : Except Exc Unit := do
  demand ((s.names .removed).all installed.contains && (s.names .reinstalled).all installed.contains)
    "transaction-baseline-mismatch"
  demand (!(s.names .added).any (fun n => installed.contains n && !(s.names .removed).contains n) &&
    !(s.names .reinstalled).any (fun n => (s.names .added).contains n || (s.names .removed).contains n))
    "transaction-package-conflict"

def expectedInventory (transaction : Json) (before : String) :
    Except Exc (String × List (String × String)) := do
  let records ← recordsOf transaction
  let installed ← installedOf before
  let s ← readRecords .empty records
  checkSets installed s
  pure (inventoryText (sortNames (resulting installed s)), s.paths)

/-! ## The baseline -/

/-- `raw.splitlines(keepends=True)` of bytes, `line` holding the current line backwards -/
def byteLines : List Char → List Char → List String
  | [], [] => []
  | [], line => [String.ofList line.reverse]
  | '\r' :: '\n' :: cs, line => String.ofList ('\n' :: '\r' :: line).reverse :: byteLines cs []
  | c :: cs, line =>
    if c = '\n' ∨ c = '\r' then String.ofList (c :: line).reverse :: byteLines cs []
    else byteLines cs (c :: line)

/-- `package_baseline` of what `rpm -qa` printed -/
def packageBaseline (sha256 : String → String) (raw : String) : String :=
  sha256 (String.join (sortNames (byteLines raw.toList [])))

end Hermes.Transaction

import Mathlib.Algebra.Order.Ring.Int
import Mathlib.Algebra.Order.Ring.Rat
import Hermes.Library.Documents
import Hermes.Library.Outcome
import Hermes.Text

/- YAML documents as `yaml.safe_load` returns them, with Python's equality: `True`, `1` and `1.0`
   are equal, and one key of a mapping. Documents are trees: one with an alias is read as if it
   were written out. `.nan`, which is equal to nothing, is left out. -/
namespace Hermes.Yaml
open Documents

/-- A finite number of double precision. -/
structure Double where
  value : Rat
  exact : ∃ (m : Int) (e : Nat), m.natAbs < 2 ^ 53 ∧ e ≤ 2045 ∧ value * 2 ^ 1074 = m * 2 ^ e
  deriving DecidableEq

inductive Scalar where
  | null
  | bool (b : Bool)
  | int (n : Int)
  | float (x : Double)
  | infinity (negative : Bool)
  | str (s : String)
  | bytes (data : List UInt8)
  | date (text : String)
  | datetime (text : String)
  deriving DecidableEq

/-- What two scalars that are equal have in common. -/
inductive ScalarKey where
  | null
  | number (value : Rat)
  | infinity (negative : Bool)
  | str (s : String)
  | bytes (data : List UInt8)
  | date (text : String)
  | datetime (text : String)
  deriving DecidableEq

def Scalar.key : Scalar → ScalarKey
  | .null => .null
  | .bool b => .number (if b then 1 else 0)
  | .int n => .number n
  | .float x => .number x.value
  | .infinity negative => .infinity negative
  | .str s => .str s
  | .bytes data => .bytes data
  | .date text => .date text
  | .datetime text => .datetime text

abbrev Value := Doc Scalar

abbrev Fields := List (Scalar × Value)

abbrev str (s : String) : Value := .scalar (.str s)

/-- The key of `doc["name"]` -/
abbrev name (s : String) : ScalarKey := .str s

/-- `s == t` -/
def loose (s t : Scalar) : Bool := decide (s.key = t.key)

/-- Equal, and of one type. -/
def exactly (s t : Scalar) : Bool := decide (s = t)

theorem loose_refl (s : Scalar) : loose s s = true := by simp [loose]

theorem exactly_refl (s : Scalar) : exactly s s = true := by simp [exactly]

/-- `bool(value)` -/
def truthy : Value → Bool
  | .scalar .null => false
  | .scalar (.bool b) => b
  | .scalar (.int n) => decide (n ≠ 0)
  | .scalar (.float x) => decide (x.value ≠ 0)
  | .scalar (.str s) => !s.isEmpty
  | .scalar (.bytes data) => !data.isEmpty
  | .scalar _ => true
  | .list items => !items.isEmpty
  | .map fields => !fields.isEmpty

/-- `value or other`, `None` being what `get` returns of a key that is not there. -/
def orElse (value : Option Value) (other : Value) : Value :=
  match value with
  | some v => if truthy v then v else other
  | none => other

inductive Failure where
  /-- `STOP: unsupported contract version` -/
  | unsupportedVersion (got : Option Value)
  /-- `STOP: config.yaml is not valid YAML; refusing to rewrite it` -/
  | invalidYaml
  /-- `STOP: config.yaml root is not a mapping` -/
  | rootNotMapping
  /-- `STOP: runtime hooks must be empty` -/
  | runtimeHooks
  /-- `STOP: runtime hook resolution could not be verified without config writes` -/
  | runtimeUnverified
  | yamlError
  | valueError
  | attributeError
  | typeError

/-- `value.get("key")` -/
def getKey (value : Value) (key : String) : Except Failure (Option Value) :=
  match value with
  | .map fields => .ok (find Scalar.key (name key) fields)
  | _ => .error .attributeError

/-- `value.items()` -/
def itemsOf : Value → Except Failure Fields
  | .map fields => .ok fields
  | _ => .error .attributeError

/-- `for item in value` -/
def iterate : Value → Except Failure (List Value)
  | .list items => .ok items
  | .map fields => .ok (fields.map fun f => .scalar f.1)
  | .scalar (.str s) => .ok (s.toList.map fun c => str (String.ofList [c]))
  | .scalar (.bytes data) => .ok (data.map fun b => .scalar (.int b.toNat))
  | .scalar _ => .error .typeError

/-- A text file is read with universal newlines. -/
def readNewlines : List Char → List Char
  | [] => []
  | '\r' :: '\n' :: cs => '\n' :: readNewlines cs
  | '\r' :: cs => '\n' :: readNewlines cs
  | c :: cs => c :: readNewlines cs

/-- `path.read_text(encoding="utf-8")` -/
def readText (content : String) : String := String.ofList (readNewlines content.toList)

/-- What the programs use that is not theirs: the YAML library, `str` and `hashlib.sha256`. -/
structure Tools where
  load : String → Except Failure Value
  dump : Value → String
  str : Value → String
  sha256 : String → String
  load_wf : ∀ {text v}, load text = .ok v → Wf Scalar.key v
  load_dump : ∀ {v}, Wf Scalar.key v → load (dump v) = .ok v
  dump_newlines : ∀ {v}, Wf Scalar.key v → '\r' ∉ (dump v).toList
  dump_not_blank : ∀ {v}, Wf Scalar.key v → strip (dump v) ≠ ""

theorem readNewlines_plain {cs : List Char} (h : '\r' ∉ cs) : readNewlines cs = cs := by
  induction cs with
  | nil => rfl
  | cons c cs ih =>
    obtain ⟨hc, hcs⟩ := not_or.mp (mt List.mem_cons.mpr h)
    rw [readNewlines.eq_4, ih hcs]
    · exact fun _ h _ => hc h.symm
    · exact fun h => hc h.symm

theorem readText_plain {text : String} (h : '\r' ∉ text.toList) : readText text = text := by
  rw [readText, readNewlines_plain h, String.ofList_toList]

theorem readNewlines_no_return (cs : List Char) : '\r' ∉ readNewlines cs := by
  fun_induction readNewlines cs with
  | case1 => simp
  | case2 cs ih => simp [ih]
  | case3 cs _ ih => simp [ih]
  | case4 c cs _ hc ih =>
    simp only [List.mem_cons, not_or]
    exact ⟨fun h => hc h.symm, ih⟩

end Hermes.Yaml

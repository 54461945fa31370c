/- Decoded JSON documents, as `common.decode` returns them: `unique_object`
   refuses a repeated key, so an object is a list of fields with distinct keys. -/
namespace Hermes

inductive Json where
  | null
  | bool (b : Bool)
  | int (n : Int)
  | float (literal : String)
  | str (s : String)
  | arr (items : List Json)
  | obj (fields : List (String × Json))

namespace Json

/-- The fields of an object, and `none` where `.get` and `.values` do not exist. -/
def fields? : Json → Option (List (String × Json))
  | .obj fields => some fields
  | _ => none

def lookup (key : String) : List (String × Json) → Option Json
  | [] => none
  | (k, v) :: rest => if k = key then some v else lookup key rest

/-- `value.get(key)` of an object. -/
def get (key : String) : Json → Option Json
  | .obj fields => lookup key fields
  | _ => none

/-- `value.get(key) is True`. -/
def isTrue (key : String) (value : Json) : Bool :=
  match value.get key with
  | some (.bool true) => true
  | _ => false

/-- `value.get(key)` where it is a string. -/
def getStr (key : String) (value : Json) : Option String :=
  match value.get key with
  | some (.str s) => some s
  | _ => none

def isArr : Option Json → Bool
  | some (.arr _) => true
  | _ => false

/-- `value.get(key) == [n]`. -/
def isSingleton (n : Int) (key : String) (value : Json) : Bool :=
  match value.get key with
  | some (.arr [.int m]) => m == n
  | _ => false

/-- The truth value of a decoded document. -/
def truthy : Json → Bool
  | .null => false
  | .bool b => b
  | .int n => n != 0
  | .float literal => literal.toList.any (fun c => '1' ≤ c && c ≤ '9')
  | .str s => !s.isEmpty
  | .arr items => !items.isEmpty
  | .obj fields => !fields.isEmpty

/-- `set(value) == {keys}` of an object with distinct keys. -/
def hasKeys (keys : List String) (value : Json) : Bool :=
  match value with
  | .obj fields => fields.length == keys.length && keys.all (fun k => fields.any (fun f => f.1 == k))
  | _ => false

end Json

end Hermes

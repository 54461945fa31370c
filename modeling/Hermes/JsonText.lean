import Mathlib.Data.String.Basic
import Hermes.Outside
import Hermes.Library.Decimal
import Hermes.Library.Outcome
import Hermes.Library.StableSort

/- JSON as `common.py` writes and reads it. `canonical` is `json.dumps` with sorted keys, without
   blanks, in ASCII, and a newline; `decode` is `json.loads` with `unique_object`, which reads any
   JSON there is.

   How a float is spelled, and which text some bytes are, is decided outside. A text is a list of
   characters, so a lone surrogate, which Python would keep, is refused; a depth that no stack
   would hold is not. -/
namespace Hermes.JsonText
open StableSort

/-! ## The grammar of numbers -/

def isDigit (c : Char) : Bool := '0' ≤ c && c ≤ '9'

/-- Digits, at least one of them. -/
def IsDigits (cs : List Char) : Prop := cs ≠ [] ∧ ∀ c ∈ cs, isDigit c = true

/-- An integer without a sign. -/
def IsWhole (cs : List Char) : Prop := IsDigits cs ∧ Decimal.Reduced cs

def IsSign (cs : List Char) : Prop := cs = [] ∨ cs = ['-']

def IsFraction (cs : List Char) : Prop := cs = [] ∨ ∃ ds, cs = '.' :: ds ∧ IsDigits ds

def IsExponent (cs : List Char) : Prop :=
  cs = [] ∨ ∃ e sign ds, cs = e :: (sign ++ ds) ∧ (e = 'e' ∨ e = 'E') ∧ (IsSign sign ∨ sign = ['+']) ∧ IsDigits ds

/-- What Python adds. -/
def constants : List (List Char) :=
  [['N', 'a', 'N'], ['I', 'n', 'f', 'i', 'n', 'i', 't', 'y'], ['-', 'I', 'n', 'f', 'i', 'n', 'i', 't', 'y']]

def IsFloat (cs : List Char) : Prop :=
  cs ∈ constants ∨ ∃ sign whole fraction exponent, cs = sign ++ (whole ++ (fraction ++ exponent)) ∧
    IsSign sign ∧ IsWhole whole ∧ IsFraction fraction ∧ IsExponent exponent ∧ ¬(fraction = [] ∧ exponent = [])

/-- What the interpreter decides: how the float of a literal is spelled and which integer it
    equals, and how `json.loads` takes bytes for text. -/
structure Python where
  repr : String → String
  is : String → Int → Bool
  text : List UInt8 → Option (List Char)
  spelled : ∀ literal, IsFloat (repr literal).toList
  stable : ∀ literal, repr (repr literal) = repr literal
  same : ∀ literal n, is (repr literal) n = is literal n
  ascii : ∀ cs : List Char, (∀ c ∈ cs, 0 < c.toNat ∧ c.toNat < 128) → text (String.ofList cs).toUTF8.data.toList = some cs

/-! ## Writing -/

/-- `'{0:04x}'` -/
def hex4 (n : Nat) : List Char :=
  [(n / 4096 % 16).digitChar, (n / 256 % 16).digitChar, (n / 16 % 16).digitChar, (n % 16).digitChar]

/-- The characters with an escape of their own. -/
def escapes : List (Char × Char) :=
  [('"', '"'), ('\\', '\\'), ('\n', 'n'), ('\r', 'r'), ('\t', 't'), (Char.ofNat 12, 'f'), (Char.ofNat 8, 'b')]

/-- `py_encode_basestring_ascii`, for one character -/
def escape (c : Char) : List Char :=
  match escapes.find? fun e => e.1 == c with
  | some e => ['\\', e.2]
  | none =>
    if 32 ≤ c.toNat ∧ c.toNat ≤ 126 then [c]
    else if c.toNat < 0x10000 then '\\' :: 'u' :: hex4 c.toNat
    else
      let n := c.toNat - 0x10000
      '\\' :: 'u' :: hex4 (0xd800 + n / 1024) ++ '\\' :: 'u' :: hex4 (0xdc00 + n % 1024)

def quote (s : List Char) : List Char := '"' :: s.flatMap escape ++ ['"']

def whole (n : Int) : List Char := (if n < 0 then ['-'] else []) ++ Nat.toDigits 10 n.natAbs

/-- A field of an object, from its key and the text of its value. -/
def field (f : String × List Char) : List Char := quote f.1.toList ++ ':' :: f.2

def joined (texts : List (List Char)) : List Char := [','].intercalate texts

section Write

variable (x : Python)

mutual

/-- `json.dumps` -/
def print : Json → List Char
  | .null => ['n', 'u', 'l', 'l']
  | .bool true => ['t', 'r', 'u', 'e']
  | .bool false => ['f', 'a', 'l', 's', 'e']
  | .int n => whole n
  | .float literal => (x.repr literal).toList
  | .str s => quote s.toList
  | .arr items => '[' :: joined (printItems items) ++ [']']
  | .obj fields => '{' :: joined ((sortBy Prod.fst (printFields fields)).map field) ++ ['}']

def printItems : List Json → List (List Char)
  | [] => []
  | v :: items => print v :: printItems items

def printFields : List (String × Json) → List (String × List Char)
  | [] => []
  | (key, v) :: fields => (key, print v) :: printFields fields

end

/-- `canonical` -/
def canonical (value : Json) : List UInt8 := (String.ofList (print x value ++ ['\n'])).toUTF8.data.toList

end Write

/-! ## Reading -/

def invalid : Exc := .failure 64 "invalid-json"

def isBlank (c : Char) : Bool := c == ' ' || c == '\t' || c == '\n' || c == '\r'

def skip (cs : List Char) : List Char := cs.dropWhile isBlank

def hexValue (c : Char) : Option Nat :=
  if isDigit c then some (c.toNat - 48)
  else if 'a' ≤ c ∧ c ≤ 'f' then some (c.toNat - 87)
  else if 'A' ≤ c ∧ c ≤ 'F' then some (c.toNat - 55)
  else none

def readHex4 : List Char → Except Exc (Nat × List Char)
  | a :: b :: c :: d :: rest =>
    match hexValue a, hexValue b, hexValue c, hexValue d with
    | some a, some b, some c, some d => .ok (((a * 16 + b) * 16 + c) * 16 + d, rest)
    | _, _, _, _ => .error invalid
  | _ => .error invalid

def isHigh (n : Nat) : Bool := 0xd800 ≤ n && n < 0xdc00

def isLow (n : Nat) : Bool := 0xdc00 ≤ n && n < 0xe000

/-- What comes behind `\u`; two surrogates are one character. -/
def readUnicode (cs : List Char) : Except Exc (Char × List Char) := do
  let high ← readHex4 cs
  if isHigh high.1 then
    match high.2 with
    | '\\' :: 'u' :: rest => do
      let low ← readHex4 rest
      if isLow low.1 then .ok (Char.ofNat (0x10000 + (high.1 - 0xd800) * 1024 + (low.1 - 0xdc00)), low.2)
      else .error invalid
    | _ => .error invalid
  else if isLow high.1 then .error invalid
  else .ok (Char.ofNat high.1, high.2)

/-- What comes behind a backslash. -/
def readEscape : List Char → Except Exc (Char × List Char)
  | [] => .error invalid
  | e :: rest =>
    if e = 'u' then readUnicode rest
    else match (escapes ++ [('/', '/')]).find? fun d => d.2 == e with
      | some d => .ok (d.1, rest)
      | none => .error invalid

/-- A character within a string. -/
def readChar (c : Char) (rest : List Char) : Except Exc (Char × List Char) :=
  if c = '\\' then readEscape rest else if c.toNat < 32 then .error invalid else .ok (c, rest)

/-- The rest of a string, up to its closing quote. -/
def readString : Nat → List Char → Except Exc (List Char × List Char)
  | n + 1, c :: rest =>
    if c = '"' then .ok ([], rest)
    else do
      let r ← readChar c rest
      let s ← readString n r.2
      pure (r.1 :: s.1, s.2)
  | _, _ => .error invalid

def readWhole : List Char → Option (List Char × List Char)
  | [] => none
  | c :: rest =>
    if c = '0' then some (['0'], rest)
    else if isDigit c then some (c :: rest.takeWhile isDigit, rest.dropWhile isDigit)
    else none

/-- The digits behind something, if there are any. -/
def withDigits (front cs : List Char) (otherwise : List Char) : List Char × List Char :=
  if (cs.takeWhile isDigit).isEmpty then ([], otherwise) else (front ++ cs.takeWhile isDigit, cs.dropWhile isDigit)

def readFraction (cs : List Char) : List Char × List Char :=
  match cs with
  | c :: rest => if c = '.' then withDigits ['.'] rest cs else ([], cs)
  | [] => ([], [])

def readSign (cs : List Char) : List Char × List Char :=
  match cs with
  | c :: rest => if c = '+' ∨ c = '-' then ([c], rest) else ([], cs)
  | [] => ([], [])

def readExponent (cs : List Char) : List Char × List Char :=
  match cs with
  | e :: rest => if e = 'e' ∨ e = 'E' then withDigits (e :: (readSign rest).1) (readSign rest).2 cs else ([], cs)
  | [] => ([], [])

/-- The value of a number; `int` takes no more than 4300 digits. -/
def numberOf (sign whole fraction exponent : List Char) : Except Exc Json :=
  if fraction.isEmpty && exponent.isEmpty then
    if 4300 < whole.length then .error invalid
    else .ok (.int (if sign.isEmpty then Decimal.value whole else -Decimal.value whole))
  else .ok (.float (String.ofList (sign ++ (whole ++ (fraction ++ exponent)))))

/-- `_match_number` -/
def readNumber (cs : List Char) : Except Exc (Json × List Char) :=
  let sign := if cs.head? = some '-' then ['-'] else []
  match readWhole (cs.drop sign.length) with
  | none => .error invalid
  | some w =>
    let fraction := readFraction w.2
    let exponent := readExponent fraction.2
    (fun v => (v, exponent.2)) <$> numberOf sign w.1 fraction.1 exponent.1

def literals : List (List Char × Json) :=
  [(['n', 'u', 'l', 'l'], .null), (['t', 'r', 'u', 'e'], .bool true), (['f', 'a', 'l', 's', 'e'], .bool false)] ++
    constants.map fun cs => (cs, .float (String.ofList cs))

def readScalar (cs : List Char) : Except Exc (Json × List Char) :=
  match literals.find? fun l => l.1.isPrefixOf cs with
  | some l => .ok (l.2, cs.drop l.1.length)
  | none => readNumber cs

/-- `unique_object` -/
def uniqueObject (fields : List (String × Json)) : Except Exc Json :=
  if (fields.map Prod.fst).Nodup then .ok (.obj fields) else .error (.failure 64 "duplicate-json-key")

mutual

def readValue : Nat → List Char → Except Exc (Json × List Char)
  | n + 1, c :: rest =>
    if c = '"' then do
      let s ← readString n rest
      pure (.str (String.ofList s.1), s.2)
    else if c = '[' then
      if (skip rest).head? = some ']' then .ok (.arr [], (skip rest).tail)
      else do
        let items ← readItems n (skip rest)
        pure (.arr items.1, items.2)
    else if c = '{' then
      if (skip rest).head? = some '}' then .ok (.obj [], (skip rest).tail)
      else do
        let fields ← readFields n (skip rest)
        let value ← uniqueObject fields.1
        pure (value, fields.2)
    else readScalar (c :: rest)
  | _, _ => .error invalid

def readItems : Nat → List Char → Except Exc (List Json × List Char)
  | 0, _ => .error invalid
  | n + 1, cs => do
    let v ← readValue n cs
    match skip v.2 with
    | ']' :: rest => pure ([v.1], rest)
    | ',' :: rest => do
      let items ← readItems n (skip rest)
      pure (v.1 :: items.1, items.2)
    | _ => .error invalid

def readFields : Nat → List Char → Except Exc (List (String × Json) × List Char)
  | 0, _ => .error invalid
  | n + 1, cs =>
    match cs with
    | '"' :: cs => do
      let key ← readString n cs
      match skip key.2 with
      | ':' :: rest => do
        let v ← readValue n (skip rest)
        match skip v.2 with
        | '}' :: rest => pure ([(String.ofList key.1, v.1)], rest)
        | ',' :: rest => do
          let fields ← readFields n (skip rest)
          pure ((String.ofList key.1, v.1) :: fields.1, fields.2)
        | _ => .error invalid
      | _ => .error invalid
    | _ => .error invalid

end

/-- `json.loads` of a text; every character is read once. -/
def decodeText (cs : List Char) : Except Exc Json := do
  let v ← readValue (2 * cs.length + 2) (skip cs)
  match skip v.2 with
  | [] => pure v.1
  | _ => .error invalid

/-- `decode` -/
def decode (x : Python) (raw : List UInt8) : Except Exc Json :=
  match x.text raw with
  | some cs => decodeText cs
  | none => .error invalid

end Hermes.JsonText

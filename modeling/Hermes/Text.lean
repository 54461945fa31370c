/- The string operations of Python that the modelled code uses. -/
namespace Hermes

/-- `str.isspace` of one character. -/
def isSpace (c : Char) : Bool :=
  let n := c.toNat
  (9 ≤ n && n ≤ 13) || (28 ≤ n && n ≤ 32) || n == 0x85 || n == 0xa0 || n == 0x1680 ||
    (0x2000 ≤ n && n ≤ 0x200a) || n == 0x2028 || n == 0x2029 || n == 0x202f || n == 0x205f ||
    n == 0x3000

/-- The characters at which `str.splitlines` breaks, `\r\n` apart. -/
def isLineBreak (c : Char) : Bool :=
  let n := c.toNat
  (10 ≤ n && n ≤ 13) || (28 ≤ n && n ≤ 30) || n == 0x85 || n == 0x2028 || n == 0x2029

def lstripChars (cs : List Char) : List Char := cs.dropWhile isSpace

def stripChars (cs : List Char) : List Char := (lstripChars (lstripChars cs).reverse).reverse

/-- `str.strip()`. -/
def strip (s : String) : String := String.ofList (stripChars s.toList)

/-- `str.startswith`. -/
def startsWith (s start : String) : Bool := s.toList.take start.length == start.toList

/-- `str.removeprefix`. -/
def removeStart (s start : String) : String :=
  if startsWith s start then String.ofList (s.toList.drop start.length) else s

/-- The lines of a text, `line` holding the current one backwards. -/
def splitlinesFrom : List Char → List Char → List String
  | [], [] => []
  | [], line => [String.ofList line.reverse]
  | '\r' :: '\n' :: cs, line => String.ofList line.reverse :: splitlinesFrom cs []
  | c :: cs, line =>
    if isLineBreak c then String.ofList line.reverse :: splitlinesFrom cs []
    else splitlinesFrom cs (c :: line)

/-- `str.splitlines()`. -/
def splitlines (s : String) : List String := splitlinesFrom s.toList []

/-- `"\n".join(lines)`. -/
def joinLines : List String → String
  | [] => ""
  | [line] => line
  | line :: rest => line ++ "\n" ++ joinLines rest

/-- `any(c in value for c in "\n\r\x00")`. -/
def hasControl (value : String) : Bool :=
  value.toList.any (fun c => c == '\n' || c == '\r' || c.toNat == 0)

/-- A character of `[a-f0-9]`. -/
def isHexDigit (c : Char) : Bool := ('0' ≤ c && c ≤ '9') || ('a' ≤ c && c ≤ 'f')

/-- `re.fullmatch(r"[a-f0-9]{lo,hi}", s)`. -/
def isHex (lo hi : Nat) (s : String) : Bool :=
  lo ≤ s.toList.length && s.toList.length ≤ hi && s.toList.all isHexDigit

/-- A character of `[A-Za-z0-9]`. -/
def isAlnum (c : Char) : Bool :=
  ('0' ≤ c && c ≤ '9') || ('a' ≤ c && c ≤ 'z') || ('A' ≤ c && c ≤ 'Z')

/-- `re.fullmatch(r"[A-Za-z0-9_-]+", s)`. -/
def isWord (s : String) : Bool :=
  !s.toList.isEmpty && s.toList.all (fun c => isAlnum c || c == '_' || c == '-')

/-- A release id: `re.fullmatch(r"[a-zA-Z0-9][a-zA-Z0-9._-]{0,95}", s)`. -/
def isReleaseId (s : String) : Bool :=
  match s.toList with
  | [] => false
  | c :: cs => isAlnum c && cs.length ≤ 95 &&
      cs.all (fun c => isAlnum c || c == '.' || c == '_' || c == '-')

/-- `part in s`. -/
def occursIn (part : List Char) : List Char → Bool
  | [] => part.isEmpty
  | c :: cs => part.isPrefixOf (c :: cs) || occursIn part cs

/-- `str.replace(old, new)` for a non-empty `old`; `skip` counts what is left of a match. -/
def replaceFrom (old new : List Char) : List Char → Nat → List Char
  | [], _ => []
  | _ :: cs, skip + 1 => replaceFrom old new cs skip
  | c :: cs, 0 =>
    if old.isPrefixOf (c :: cs) then new ++ replaceFrom old new cs (old.length - 1)
    else c :: replaceFrom old new cs 0

def replaceText (s old new : String) : String :=
  String.ofList (replaceFrom old.toList new.toList s.toList 0)

/-- `str.rstrip` of one character. -/
def rstripChar (c : Char) (s : String) : String :=
  String.ofList (s.toList.reverse.dropWhile (· == c)).reverse

/-- A property of the characters of a list that is evaluated. -/
theorem forall_of_all {φ : Char → Prop} [DecidablePred φ] {cs : List Char} (h : cs.all (fun c => decide (φ c)) = true) :
    ∀ c ∈ cs, φ c := fun c hc => of_decide_eq_true (List.all_eq_true.mp h c hc)

/-- A text up to the first character that does not satisfy `p`. -/
theorem takeWhile_mark {p : Char → Bool} {xs : List Char} {c : Char} (hxs : ∀ x ∈ xs, p x = true) (hc : p c = false)
    (ys : List Char) :
    (xs ++ c :: ys).takeWhile p = xs ∧ (xs ++ c :: ys).dropWhile p = c :: ys := by
  rw [List.takeWhile_append_of_pos hxs, List.dropWhile_append_of_pos hxs, List.takeWhile_cons_of_neg (by simp [hc]),
    List.dropWhile_cons_of_neg (by simp [hc]), List.append_nil]
  exact ⟨rfl, rfl⟩

/-- A text with a mark is cut there in one way. -/
theorem mark_split {xs xs' ys ys' : List Char} {c : Char} (h : c ∉ xs) (h' : c ∉ xs')
    (heq : xs ++ c :: ys = xs' ++ c :: ys') : xs = xs' ∧ ys = ys' := by
  have hne : ∀ {zs : List Char}, c ∉ zs → ∀ z ∈ zs, decide (z ≠ c) = true := by
    intro zs hzs z hz
    exact decide_eq_true fun he => hzs (he ▸ hz)
  have hmark := takeWhile_mark (hne h) (show decide (c ≠ c) = false by simp) ys
  have hmark' := takeWhile_mark (hne h') (show decide (c ≠ c) = false by simp) ys'
  rw [heq] at hmark
  exact ⟨hmark.1.symm.trans hmark'.1, (List.cons.inj (hmark.2.symm.trans hmark'.2)).2⟩

example : replaceText "a/b/b" "/b" "+c" = "a+c+c" := by decide
example : splitlines "a\r\nb\n\nc" = ["a", "b", "", "c"] := by decide
example : strip " \t key\n" = "key" := by decide

end Hermes

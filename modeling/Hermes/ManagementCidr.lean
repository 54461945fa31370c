import Mathlib.Data.List.TakeWhile
import Hermes.PromotionWindow
import Hermes.Library.Decimal

/- The check of the management network, as the workstation makes it (`deploy-lib.sh`) and as the
   host does (`remote-state.sh`). Both read one line, split it with `read` and compare in shell
   arithmetic; an argument of a shell function holds no NUL. -/
namespace Hermes.Cidr
open Promotion Decimal

/-! ## `read` -/

/-- The line that `read` takes of a here-string. -/
def firstLine (text : List Char) : List Char := text.takeWhile (· ≠ '\n')

/-- A field, and what is after the separator that ends it. -/
def nextField (c : Char) (cs : List Char) : List Char × List Char :=
  (cs.takeWhile (· ≠ c), (cs.dropWhile (· ≠ c)).drop 1)

/-- What the last variable gets: one field without its separator, or all that is left. -/
def lastField (c : Char) (cs : List Char) : List Char :=
  if (nextField c cs).2.isEmpty then (nextField c cs).1 else cs

/-- `IFS=c read -r`, with `n` variables. -/
def readFields (c : Char) : Nat → List Char → List (List Char)
  | 0, _ => []
  | 1, cs => [lastField c cs]
  | n + 2, cs => (nextField c cs).1 :: readFields c (n + 1) (nextField c cs).2

/-- `IFS=c read -r -a`, `field` holding the current one backwards. -/
def readArray (c : Char) : List Char → List Char → List (List Char)
  | [], [] => []
  | [], field => [field.reverse]
  | d :: cs, field => if d = c then field.reverse :: readArray c cs [] else readArray c cs (d :: field)

/-! ## `valid_ipv4_cidr` -/

/-- `^[0-9]+$` -/
def isNumber (cs : List Char) : Bool := isAll isDigit (String.ofList cs)

/-- `^[0-9]+(\.[0-9]+){3}$` -/
def isAddress : List Char → Bool :=
  afterNumber (afterDot (afterNumber (afterDot (afterNumber (afterDot (afterNumber List.isEmpty))))))

/-- `((value <= bound))` and `[[ value -le bound ]]` -/
def atMost (bound : Int) (cs : List Char) : Bool := compares (· ≤ ·) (arith (String.ofList cs)) (some bound)

namespace DeployLib

def validIpv4Cidr (s : String) : Bool :=
  match readFields '/' 2 (firstLine s.toList) with
  | [address, prefixLength] =>
    isAddress address && isNumber prefixLength &&
      ((readArray '.' address []).length == 4 && atMost 32 prefixLength) &&
      (readArray '.' address []).all fun octet => isNumber octet && atMost 255 octet
  | _ => false

end DeployLib

namespace RemoteState

def validIpv4Cidr (s : String) : Bool :=
  match readFields '/' 2 (firstLine s.toList) with
  | [address, prefixLength] =>
    isAddress address && isNumber prefixLength &&
      match readFields '.' 5 address with
      | [a, b, c, d, extra] =>
        (!a.isEmpty && !b.isEmpty && !c.isEmpty && !d.isEmpty && extra.isEmpty && atMost 32 prefixLength) &&
          [a, b, c, d].all (atMost 255)
      | _ => false
  | _ => false

end RemoteState

/-! ## The two notions -/

/-- Four numbers up to 255 with dots, a slash and a number up to 32, as they are written. -/
def Canonical (s : String) : Prop :=
  ∃ a b c d n : Nat, a ≤ 255 ∧ b ≤ 255 ∧ c ≤ 255 ∧ d ≤ 255 ∧ n ≤ 32 ∧
    s.toList = Nat.toDigits 10 a ++ '.' :: (Nat.toDigits 10 b ++ '.' :: (Nat.toDigits 10 c ++ '.' ::
      (Nat.toDigits 10 d ++ '/' :: Nat.toDigits 10 n)))

/-- Five numerals, the last one that of the length. -/
structure Quad where
  a : List Char
  b : List Char
  c : List Char
  d : List Char
  length : List Char

def Quad.octets (q : Quad) : List (List Char) := [q.a, q.b, q.c, q.d]

def Quad.address (q : Quad) : List Char := q.a ++ '.' :: (q.b ++ '.' :: (q.c ++ '.' :: q.d))

def Quad.text (q : Quad) : List Char := q.address ++ '/' :: q.length

/-- The numerals are in range, as the shell evaluates them. -/
structure Quad.InRange (q : Quad) : Prop where
  octets : ∀ g ∈ q.octets, Numeral g ∧ atMost 255 g = true
  length : Numeral q.length ∧ atMost 32 q.length = true

/-- What may follow unnoticed: a slash, and anything after a line break. -/
def Unnoticed (tail : List Char) : Prop :=
  ∃ slash rest, tail = slash ++ rest ∧ (slash = [] ∨ slash = ['/']) ∧ (rest = [] ∨ rest.head? = some '\n')

/-- Where such a text is accepted, it is one: nothing follows it, and each numeral has no
    superfluous zero and is below `2^63`. -/
def WrittenPlainly (s : String) : Prop :=
  ∀ (q : Quad) (tail : List Char), q.InRange → Unnoticed tail → s.toList = q.text ++ tail →
    tail = [] ∧ (∀ g ∈ q.octets, isPlain (String.ofList g) = true) ∧ isPlain (String.ofList q.length) = true

/-! ## Fields -/

theorem isDigit_iff {c : Char} : isDigit c = true ↔ IsDigit c := by
  simp [isDigit, IsDigit]

theorem isNumber_iff {cs : List Char} : isNumber cs = true ↔ Numeral cs := by
  simp [isNumber, isAll, Numeral, isDigit_iff]

theorem digit_ne {c : Char} (h : IsDigit c) : c ≠ '.' ∧ c ≠ '/' ∧ c ≠ '\n' := by
  refine ⟨?_, ?_, ?_⟩ <;> rintro rfl <;> exact absurd h.1 (by decide)

/-- A run of characters that satisfy `p`, and what comes after it. -/
theorem takeWhile_run {p : Char → Bool} {xs ys : List Char} (hxs : ∀ x ∈ xs, p x = true)
    (hys : ∀ c, ys.head? = some c → p c = false) :
    (xs ++ ys).takeWhile p = xs ∧ (xs ++ ys).dropWhile p = ys := by
  cases ys with
  | nil => rw [List.append_nil, List.takeWhile_eq_self_iff.mpr hxs, List.dropWhile_eq_nil_iff.mpr hxs]; exact ⟨rfl, rfl⟩
  | cons c ys => exact takeWhile_mark hxs (hys c rfl) ys

theorem ne_of_not_mem {c : Char} {cs : List Char} (h : c ∉ cs) : ∀ x ∈ cs, decide (x ≠ c) = true :=
  fun _ hx => decide_eq_true fun he => h (he ▸ hx)

/-- A text up to the first `c`. -/
theorem nextField_mark {c : Char} {field rest : List Char} (h : c ∉ field) :
    nextField c (field ++ c :: rest) = (field, rest) := by
  obtain ⟨htake, hdrop⟩ := takeWhile_mark (ne_of_not_mem h) (show decide (c ≠ c) = false by simp) rest
  rw [nextField, htake, hdrop]
  rfl

theorem nextField_whole {c : Char} {field : List Char} (h : c ∉ field) : nextField c field = (field, []) := by
  rw [nextField, List.takeWhile_eq_self_iff.mpr (ne_of_not_mem h), List.dropWhile_eq_nil_iff.mpr (ne_of_not_mem h)]
  rfl

theorem nextField_split (c : Char) (cs : List Char) :
    c ∉ (nextField c cs).1 ∧ (cs = (nextField c cs).1 ∨ cs = (nextField c cs).1 ++ c :: (nextField c cs).2) := by
  by_cases hmem : c ∈ cs
  · obtain ⟨field, rest, rfl, hfield⟩ := List.eq_append_cons_of_mem hmem
    rw [nextField_mark hfield]
    exact ⟨hfield, Or.inr rfl⟩
  · rw [nextField_whole hmem]
    exact ⟨hmem, Or.inl rfl⟩

/-- The last variable loses one separator, where that is all that follows its field. -/
theorem lastField_eq {c : Char} {field tail : List Char} (h : c ∉ field) (ht : tail = [] ∨ tail = [c]) :
    lastField c (field ++ tail) = field := by
  rcases ht with rfl | rfl
  · rw [List.append_nil, lastField, nextField_whole h]
    rfl
  · rw [lastField, nextField_mark h]
    rfl

theorem lastField_split (c : Char) (cs : List Char) :
    ∃ tail, (tail = [] ∨ tail = [c]) ∧ cs = lastField c cs ++ tail := by
  obtain ⟨_, hsplit⟩ := nextField_split c cs
  unfold lastField
  split
  · next hnone =>
    rw [List.isEmpty_iff] at hnone
    rcases hsplit with hsplit | hsplit
    · exact ⟨[], Or.inl rfl, by rw [List.append_nil]; exact hsplit⟩
    · exact ⟨[c], Or.inr rfl, by rw [hnone] at hsplit; exact hsplit⟩
  · exact ⟨[], Or.inl rfl, by rw [List.append_nil]⟩

theorem firstLine_eq {line rest : List Char} (h : '\n' ∉ line) (hr : rest = [] ∨ rest.head? = some '\n') :
    firstLine (line ++ rest) = line := by
  refine (takeWhile_run (ne_of_not_mem h) fun c hc => ?_).1
  rcases hr with rfl | hr
  · cases hc
  · rw [hr] at hc
    cases hc
    rfl

theorem firstLine_split (text : List Char) :
    ∃ rest, text = firstLine text ++ rest ∧ (rest = [] ∨ rest.head? = some '\n') := by
  refine ⟨text.dropWhile (· ≠ '\n'), List.takeWhile_append_dropWhile.symm, ?_⟩
  have hhead := List.head?_dropWhile_not (fun c => decide (c ≠ '\n')) text
  cases h : text.dropWhile (fun c => decide (c ≠ '\n')) with
  | nil => exact Or.inl rfl
  | cons c rest =>
    rw [h] at hhead
    exact Or.inr (by simpa using hhead)

/-! ## The pattern of an address -/

theorem afterNumber_iff {rest : List Char → Bool} {cs : List Char} :
    afterNumber rest cs = true ↔
      ∃ g r, Numeral g ∧ (∀ c, r.head? = some c → isDigit c = false) ∧ rest r = true ∧ cs = g ++ r := by
  rw [afterNumber, Bool.and_eq_true, Bool.not_eq_true', List.isEmpty_eq_false_iff]
  constructor
  · rintro ⟨hne, hrest⟩
    refine ⟨_, _, ⟨hne, fun c hc => isDigit_iff.mp (List.mem_takeWhile_imp hc)⟩, fun c hc => ?_, hrest,
      List.takeWhile_append_dropWhile.symm⟩
    have hhead := List.head?_dropWhile_not isDigit cs
    rw [hc] at hhead
    simpa using hhead
  · rintro ⟨g, r, ⟨hne, hdigits⟩, hhead, hrest, rfl⟩
    obtain ⟨htake, hdrop⟩ := takeWhile_run (fun x hx => isDigit_iff.mpr (hdigits x hx)) hhead
    rw [htake, hdrop]
    exact ⟨hne, hrest⟩

theorem afterDot_iff {rest : List Char → Bool} {cs : List Char} :
    afterDot rest cs = true ↔ ∃ r, rest r = true ∧ cs = '.' :: r := by
  constructor
  · intro h
    unfold afterDot at h
    split at h
    · next r => exact ⟨r, h, rfl⟩
    · cases h
  · rintro ⟨r, h, rfl⟩
    exact h

theorem numberThenDot_iff {rest : List Char → Bool} {cs : List Char} :
    afterNumber (afterDot rest) cs = true ↔ ∃ g r, Numeral g ∧ rest r = true ∧ cs = g ++ '.' :: r := by
  rw [afterNumber_iff]
  constructor
  · rintro ⟨g, _, hg, _, hrest, rfl⟩
    obtain ⟨r, hr, rfl⟩ := afterDot_iff.mp hrest
    exact ⟨g, r, hg, hr, rfl⟩
  · rintro ⟨g, r, hg, hr, rfl⟩
    refine ⟨g, '.' :: r, hg, fun c hc => ?_, afterDot_iff.mpr ⟨r, hr, rfl⟩, rfl⟩
    cases hc
    rfl

theorem numberAtEnd_iff {cs : List Char} : afterNumber List.isEmpty cs = true ↔ Numeral cs := by
  rw [afterNumber_iff]
  constructor
  · rintro ⟨g, r, hg, _, hr, rfl⟩
    rw [List.isEmpty_iff] at hr
    rwa [hr, List.append_nil]
  · intro h
    exact ⟨cs, [], h, nofun, rfl, (List.append_nil _).symm⟩

theorem isAddress_iff {cs : List Char} :
    isAddress cs = true ↔ ∃ a b c d, Numeral a ∧ Numeral b ∧ Numeral c ∧ Numeral d ∧
      cs = a ++ '.' :: (b ++ '.' :: (c ++ '.' :: d)) := by
  rw [isAddress]
  constructor
  · intro h
    obtain ⟨a, _, ha, hrest₁, rfl⟩ := numberThenDot_iff.mp h
    obtain ⟨b, _, hb, hrest₂, rfl⟩ := numberThenDot_iff.mp hrest₁
    obtain ⟨c, d, hc, hrest₃, rfl⟩ := numberThenDot_iff.mp hrest₂
    exact ⟨a, b, c, d, ha, hb, hc, numberAtEnd_iff.mp hrest₃, rfl⟩
  · rintro ⟨a, b, c, d, ha, hb, hc, hd, rfl⟩
    exact numberThenDot_iff.mpr ⟨a, _, ha, numberThenDot_iff.mpr ⟨b, _, hb,
      numberThenDot_iff.mpr ⟨c, d, hc, numberAtEnd_iff.mpr hd, rfl⟩, rfl⟩, rfl⟩

theorem numeral_marks {g : List Char} (h : Numeral g) : '.' ∉ g ∧ '/' ∉ g ∧ '\n' ∉ g :=
  ⟨fun hm => (digit_ne (h.2 _ hm)).1 rfl, fun hm => (digit_ne (h.2 _ hm)).2.1 rfl,
    fun hm => (digit_ne (h.2 _ hm)).2.2 rfl⟩

/-! ## The two splits of an address -/

theorem readArray_append {c : Char} {field rest : List Char} (h : c ∉ field) (held : List Char) :
    readArray c (field ++ c :: rest) held = (held.reverse ++ field) :: readArray c rest [] := by
  induction field generalizing held with
  | nil => simp [readArray]
  | cons d field ih =>
    simp only [List.mem_cons, not_or] at h
    rw [List.cons_append, readArray, if_neg (Ne.symm h.1), ih h.2]
    simp

theorem readArray_whole {c : Char} {field : List Char} (h : c ∉ field) (held : List Char)
    (hne : held.reverse ++ field ≠ []) : readArray c field held = [held.reverse ++ field] := by
  induction field generalizing held with
  | nil =>
    cases held with
    | nil => exact absurd rfl hne
    | cons d held => simp [readArray]
  | cons d field ih =>
    simp only [List.mem_cons, not_or] at h
    rw [readArray, if_neg (Ne.symm h.1), ih h.2 _ (by simp)]
    simp

variable {q : Quad}

/-- Four numerals, whatever their values. -/
def Quad.Numerals (q : Quad) : Prop := Numeral q.a ∧ Numeral q.b ∧ Numeral q.c ∧ Numeral q.d

theorem readArray_address (h : q.Numerals) : readArray '.' q.address [] = q.octets := by
  obtain ⟨ha, hb, hc, hd⟩ := h
  rw [Quad.address, readArray_append (numeral_marks ha).1, readArray_append (numeral_marks hb).1, readArray_append (numeral_marks hc).1,
    readArray_whole (numeral_marks hd).1 [] (by simpa using hd.1)]
  rfl

theorem readFields_address (h : q.Numerals) : readFields '.' 5 q.address = [q.a, q.b, q.c, q.d, []] := by
  obtain ⟨ha, hb, hc, hd⟩ := h
  simp only [Quad.address, readFields, nextField_mark (numeral_marks ha).1, nextField_mark (numeral_marks hb).1,
    nextField_mark (numeral_marks hc).1, nextField_whole (numeral_marks hd).1]
  rfl

/-! ## What is accepted -/

theorem address_marks (h : q.Numerals) : '/' ∉ q.address ∧ '\n' ∉ q.address := by
  obtain ⟨ha, hb, hc, hd⟩ := h
  simp [Quad.address, numeral_marks ha, numeral_marks hb, numeral_marks hc, numeral_marks hd]

/-- The two fields of the line: a quad, but for what follows it unnoticed. -/
theorem fields_iff {text address length : List Char} :
    (readFields '/' 2 (firstLine text) = [address, length] ∧ isAddress address = true ∧ isNumber length = true) ↔
      ∃ q : Quad, q.Numerals ∧ Numeral q.length ∧ address = q.address ∧ length = q.length ∧
        ∃ tail, Unnoticed tail ∧ text = q.text ++ tail := by
  constructor
  · rintro ⟨hfields, haddress, hlength⟩
    simp only [readFields, List.cons.injEq, and_true] at hfields
    obtain ⟨rfl, rfl⟩ := hfields
    obtain ⟨a, b, c, d, ha, hb, hc, hd, hquad⟩ := isAddress_iff.mp haddress
    have hnumber := isNumber_iff.mp hlength
    refine ⟨⟨a, b, c, d, lastField '/' (nextField '/' (firstLine text)).2⟩, ⟨ha, hb, hc, hd⟩, hnumber, hquad, rfl, ?_⟩
    obtain ⟨slash, hslash, hlast⟩ := lastField_split '/' (nextField '/' (firstLine text)).2
    obtain ⟨rest, hrest, hbreak⟩ := firstLine_split text
    obtain ⟨_, hline | hline⟩ := nextField_split '/' (firstLine text)
    · -- no slash: the second field is empty
      exfalso
      rw [hline, nextField_whole (nextField_split '/' (firstLine text)).1] at hnumber
      exact hnumber.1 rfl
    · refine ⟨slash ++ rest, ⟨slash, rest, rfl, hslash, hbreak⟩, ?_⟩
      calc text = firstLine text ++ rest := hrest
        _ = (nextField '/' (firstLine text)).1 ++ '/' :: (nextField '/' (firstLine text)).2 ++ rest := by rw [← hline]
        _ = _ := by
          conv => lhs; rw [hquad, hlast]
          simp [Quad.text, Quad.address]
  · rintro ⟨q, hq, hlength, rfl, rfl, tail, ⟨slash, rest, rfl, hslash, hbreak⟩, rfl⟩
    obtain ⟨hslashAddress, hbreakAddress⟩ := address_marks hq
    have hmarks := numeral_marks hlength
    have hline : firstLine (q.text ++ (slash ++ rest)) = q.address ++ '/' :: (q.length ++ slash) := by
      rw [← List.append_assoc]
      have hno : '\n' ∉ q.text ++ slash := by
        rcases hslash with rfl | rfl <;> simp [Quad.text, hbreakAddress, hmarks.2.2]
      rw [firstLine_eq hno hbreak, Quad.text, List.append_assoc, List.cons_append]
    refine ⟨?_, isAddress_iff.mpr ⟨_, _, _, _, hq.1, hq.2.1, hq.2.2.1, hq.2.2.2, rfl⟩, isNumber_iff.mpr hlength⟩
    rw [hline, readFields, readFields, nextField_mark hslashAddress, lastField_eq hmarks.2.1 hslash]

/-- The strings that both accept. -/
def Accepted (s : String) : Prop := ∃ (q : Quad) (tail : List Char), q.InRange ∧ Unnoticed tail ∧ s.toList = q.text ++ tail

theorem Quad.InRange.numerals (h : q.InRange) : q.Numerals :=
  ⟨(h.octets q.a (by simp [Quad.octets])).1, (h.octets q.b (by simp [Quad.octets])).1, (h.octets q.c (by simp [Quad.octets])).1,
    (h.octets q.d (by simp [Quad.octets])).1⟩

theorem inRange_iff : q.InRange ↔
    q.Numerals ∧ Numeral q.length ∧ (∀ g ∈ q.octets, atMost 255 g = true) ∧ atMost 32 q.length = true := by
  constructor
  · intro h
    exact ⟨h.numerals, h.length.1, fun g hg => (h.octets g hg).2, h.length.2⟩
  · rintro ⟨⟨ha, hb, hc, hd⟩, hlength, hoctets, hbits⟩
    refine ⟨fun g hg => ⟨?_, hoctets g hg⟩, hlength, hbits⟩
    simp only [Quad.octets, List.mem_cons, List.not_mem_nil, or_false] at hg
    rcases hg with rfl | rfl | rfl | rfl <;> assumption

theorem deployLib_accepts {s : String} : DeployLib.validIpv4Cidr s = true ↔ Accepted s := by
  have hshape : ∃ address length, readFields '/' 2 (firstLine s.toList) = [address, length] := ⟨_, _, rfl⟩
  obtain ⟨address, length, hfields⟩ := hshape
  rw [DeployLib.validIpv4Cidr, hfields]
  simp only [Bool.and_eq_true, beq_iff_eq]
  constructor
  · rintro ⟨⟨⟨haddress, hlength⟩, _, hbits⟩, hall⟩
    obtain ⟨q, hq, hnumeral, rfl, rfl, tail, htail, hs⟩ := fields_iff.mp ⟨hfields, haddress, hlength⟩
    rw [readArray_address hq, List.all_eq_true] at hall
    refine ⟨q, tail, inRange_iff.mpr ⟨hq, hnumeral, fun g hg => ?_, hbits⟩, htail, hs⟩
    exact ((Bool.and_eq_true _ _).mp (hall g hg)).2
  · rintro ⟨q, tail, hq, htail, hs⟩
    obtain ⟨hnumerals, hnumeral, hoctets, hbits⟩ := inRange_iff.mp hq
    obtain ⟨hread, haddress, hlength⟩ := fields_iff.mpr ⟨q, hnumerals, hnumeral, rfl, rfl, tail, htail, hs⟩
    rw [hfields] at hread
    simp only [List.cons.injEq, and_true] at hread
    obtain ⟨rfl, rfl⟩ := hread
    refine ⟨⟨⟨haddress, hlength⟩, by rw [readArray_address hnumerals]; rfl, hbits⟩, ?_⟩
    rw [readArray_address hnumerals, List.all_eq_true]
    exact fun g hg => (Bool.and_eq_true _ _).mpr ⟨isNumber_iff.mpr (hq.octets g hg).1, hoctets g hg⟩

theorem remoteState_accepts {s : String} : RemoteState.validIpv4Cidr s = true ↔ Accepted s := by
  have hshape : ∃ address length, readFields '/' 2 (firstLine s.toList) = [address, length] := ⟨_, _, rfl⟩
  obtain ⟨address, length, hfields⟩ := hshape
  rw [RemoteState.validIpv4Cidr, hfields]
  simp only [Bool.and_eq_true]
  constructor
  · rintro ⟨⟨haddress, hlength⟩, hrest⟩
    obtain ⟨q, hq, hnumeral, rfl, rfl, tail, htail, hs⟩ := fields_iff.mp ⟨hfields, haddress, hlength⟩
    rw [readFields_address hq] at hrest
    simp only [Bool.and_eq_true, List.all_eq_true] at hrest
    exact ⟨q, tail, inRange_iff.mpr ⟨hq, hnumeral, hrest.2, hrest.1.2⟩, htail, hs⟩
  · rintro ⟨q, tail, hq, htail, hs⟩
    obtain ⟨hnumerals, hnumeral, hoctets, hbits⟩ := inRange_iff.mp hq
    obtain ⟨hread, haddress, hlength⟩ := fields_iff.mpr ⟨q, hnumerals, hnumeral, rfl, rfl, tail, htail, hs⟩
    rw [hfields] at hread
    simp only [List.cons.injEq, and_true] at hread
    obtain ⟨rfl, rfl⟩ := hread
    refine ⟨⟨haddress, hlength⟩, ?_⟩
    rw [readFields_address hnumerals]
    obtain ⟨ha, hb, hc, hd⟩ := hnumerals
    have hall : [q.a, q.b, q.c, q.d].all (atMost 255) = true := List.all_eq_true.mpr hoctets
    simp [ha.1, hb.1, hc.1, hd.1, hbits, hall]

/-! ## Numerals, read by the shell and as they are written -/

theorem foldl_eq {g : List Char} (h : ∀ c ∈ g, IsDigit c) (n : Nat) :
    g.foldl (fun (n : Int) c => n * 10 + ((c.toNat : Int) - 48)) n = (Nat.ofDigitChars 10 g n : Nat) := by
  induction g generalizing n with
  | nil => simp
  | cons c g ih =>
    have hlow : 48 ≤ c.toNat := (h c (by simp)).1
    have hstep : (n : Int) * 10 + ((c.toNat : Int) - 48) = ((10 * n + (c.toNat - '0'.toNat) : Nat) : Int) := by
      show (n : Int) * 10 + ((c.toNat : Int) - 48) = ((10 * n + (c.toNat - 48) : Nat) : Int)
      omega
    rw [List.foldl_cons, Nat.ofDigitChars_cons, hstep, ih fun d hd => h d (by simp [hd])]

theorem decimalValue_eq {g : List Char} (h : ∀ c ∈ g, IsDigit c) : decimalValue (String.ofList g) = value g := by
  rw [decimalValue, String.toList_ofList, value]
  exact foldl_eq h 0

theorem isPlain_iff {g : List Char} (h : Numeral g) :
    isPlain (String.ofList g) = true ↔ Reduced g ∧ value g < 2 ^ 63 := by
  have hnumber : isAll isDigit (String.ofList g) = true := isNumber_iff.mpr h
  rw [isPlain, hnumber, Bool.true_and, Bool.and_eq_true, decide_eq_true_eq, decimalValue_eq h.2, Bool.or_eq_true,
    String.toList_ofList, bne_iff_ne, beq_iff_eq, Reduced, ← imp_iff_not_or]
  exact and_congr_right fun _ => by omega

/-- A plain numeral means to the shell what it says. -/
theorem atMost_plain {g : List Char} {bound : Nat} (h : Numeral g) (hplain : isPlain (String.ofList g) = true) :
    atMost bound g = true ↔ value g ≤ bound := by
  rw [atMost, arith_plain hplain, decimalValue_eq h.2]
  simp [compares]

/-- In range and plain: the numeral of a number up to the bound. -/
theorem canonical_numeral {g : List Char} {bound : Nat} (hbound : bound < 2 ^ 63) :
    (Numeral g ∧ atMost bound g = true ∧ isPlain (String.ofList g) = true) ↔
      ∃ n, n ≤ bound ∧ g = Nat.toDigits 10 n := by
  constructor
  · rintro ⟨hg, hmost, hplain⟩
    exact ⟨value g, (atMost_plain hg hplain).mp hmost, (toDigits_value hg ((isPlain_iff hg).mp hplain).1).symm⟩
  · rintro ⟨n, hn, rfl⟩
    have hg := numeral_toDigits n
    have hplain : isPlain (String.ofList (Nat.toDigits 10 n)) = true := by
      rw [isPlain_iff hg, value_toDigits]
      exact ⟨reduced_toDigits n, by omega⟩
    refine ⟨hg, ?_, hplain⟩
    rw [atMost_plain hg hplain, value_toDigits]
    exact hn

/-! ## One reading -/

theorem numeral_split {g g' rest rest' : List Char} {c : Char} (hg : Numeral g) (hg' : Numeral g')
    (hc : isDigit c = false) (h : g ++ c :: rest = g' ++ c :: rest') : g = g' ∧ rest = rest' := by
  obtain ⟨htake, hdrop⟩ := takeWhile_mark (fun x hx => isDigit_iff.mpr (hg.2 x hx)) hc rest
  obtain ⟨htake', hdrop'⟩ := takeWhile_mark (fun x hx => isDigit_iff.mpr (hg'.2 x hx)) hc rest'
  rw [h, htake'] at htake
  rw [h, hdrop'] at hdrop
  exact ⟨htake.symm, (List.cons.inj hdrop).2.symm⟩

theorem unnoticed_head {tail : List Char} (h : Unnoticed tail) : ∀ c, tail.head? = some c → isDigit c = false := by
  obtain ⟨slash, rest, rfl, rfl | rfl, hrest⟩ := h
  · intro c hc
    rcases hrest with rfl | hrest
    · cases hc
    · rw [List.nil_append, hrest] at hc
      cases hc
      rfl
  · intro c hc
    cases hc
    rfl

/-- A text is one quad and one tail. -/
theorem reading_unique {q q' : Quad} {tail tail' : List Char} (hq : q.InRange) (hq' : q'.InRange)
    (ht : Unnoticed tail) (ht' : Unnoticed tail') (h : q.text ++ tail = q'.text ++ tail') : q = q' ∧ tail = tail' := by
  obtain ⟨a, b, c, d, n⟩ := q
  obtain ⟨a', b', c', d', n'⟩ := q'
  obtain ⟨ha, hb, hc, hd⟩ : Numeral a ∧ Numeral b ∧ Numeral c ∧ Numeral d := hq.numerals
  obtain ⟨ha', hb', hc', hd'⟩ : Numeral a' ∧ Numeral b' ∧ Numeral c' ∧ Numeral d' := hq'.numerals
  simp only [Quad.text, Quad.address, List.append_assoc, List.cons_append] at h
  obtain ⟨rfl, h₁⟩ := numeral_split ha ha' rfl h
  obtain ⟨rfl, h₂⟩ := numeral_split hb hb' rfl h₁
  obtain ⟨rfl, h₃⟩ := numeral_split hc hc' rfl h₂
  obtain ⟨rfl, h₄⟩ := numeral_split hd hd' rfl h₃
  obtain ⟨htake, hdrop⟩ := takeWhile_run (fun x hx => isDigit_iff.mpr (hq.length.1.2 x hx)) (unnoticed_head ht)
  obtain ⟨htake', hdrop'⟩ := takeWhile_run (fun x hx => isDigit_iff.mpr (hq'.length.1.2 x hx)) (unnoticed_head ht')
  rw [h₄, htake'] at htake
  rw [h₄, hdrop'] at hdrop
  simp only at htake hdrop
  subst htake hdrop
  exact ⟨rfl, rfl⟩

theorem unnoticed_nil : Unnoticed [] := ⟨[], [], rfl, Or.inl rfl, Or.inl rfl⟩

/-- Plain quads in range are the canonical strings. -/
theorem canonical_iff {s : String} :
    Canonical s ↔ ∃ q : Quad, q.InRange ∧
      ((∀ g ∈ q.octets, isPlain (String.ofList g) = true) ∧ isPlain (String.ofList q.length) = true) ∧
      s.toList = q.text := by
  have hnumeral := fun {g : List Char} => canonical_numeral (g := g) (show 255 < 2 ^ 63 by decide)
  have hlength := fun {g : List Char} => canonical_numeral (g := g) (show 32 < 2 ^ 63 by decide)
  constructor
  · rintro ⟨a, b, c, d, n, ha, hb, hc, hd, hn, hs⟩
    have hA := hnumeral.mpr ⟨a, ha, rfl⟩
    have hB := hnumeral.mpr ⟨b, hb, rfl⟩
    have hC := hnumeral.mpr ⟨c, hc, rfl⟩
    have hD := hnumeral.mpr ⟨d, hd, rfl⟩
    have hN := hlength.mpr ⟨n, hn, rfl⟩
    refine ⟨⟨Nat.toDigits 10 a, Nat.toDigits 10 b, Nat.toDigits 10 c, Nat.toDigits 10 d, Nat.toDigits 10 n⟩,
      ⟨?_, hN.1, hN.2.1⟩, ⟨?_, hN.2.2⟩, ?_⟩
    · simpa [Quad.octets] using ⟨⟨hA.1, hA.2.1⟩, ⟨hB.1, hB.2.1⟩, ⟨hC.1, hC.2.1⟩, hD.1, hD.2.1⟩
    · simpa [Quad.octets] using ⟨hA.2.2, hB.2.2, hC.2.2, hD.2.2⟩
    · rw [hs, Quad.text, Quad.address]
      simp only [List.append_assoc, List.cons_append]
  · rintro ⟨q, hq, ⟨hplain, hplainLength⟩, hs⟩
    have hoctet : ∀ g ∈ q.octets, ∃ n ≤ 255, g = Nat.toDigits 10 n := fun g hg =>
      hnumeral.mp ⟨(hq.octets g hg).1, (hq.octets g hg).2, hplain g hg⟩
    simp only [Quad.octets, List.mem_cons, List.not_mem_nil, or_false, forall_eq_or_imp, forall_eq] at hoctet
    obtain ⟨⟨a, ha, hA⟩, ⟨b, hb, hB⟩, ⟨c, hc, hC⟩, d, hd, hD⟩ := hoctet
    obtain ⟨n, hn, hN⟩ := hlength.mp ⟨hq.length.1, hq.length.2, hplainLength⟩
    refine ⟨a, b, c, d, n, ha, hb, hc, hd, hn, ?_⟩
    rw [hs, Quad.text, Quad.address, hA, hB, hC, hD, hN]
    simp

/-- **Both checks accept the same strings, and the canonical ones among them.** They accept no
    other string just where what they read is all there is and is written plainly. -/
theorem validIpv4Cidr_exact_iff (s : String) :
    DeployLib.validIpv4Cidr s = RemoteState.validIpv4Cidr s ∧
      (((DeployLib.validIpv4Cidr s = true ↔ Canonical s) ∧ (RemoteState.validIpv4Cidr s = true ↔ Canonical s)) ↔
        WrittenPlainly s) := by
  have hsound : Canonical s → Accepted s := by
    intro h
    obtain ⟨q, hq, _, hs⟩ := canonical_iff.mp h
    exact ⟨q, [], hq, unnoticed_nil, by rw [hs, List.append_nil]⟩
  rw [deployLib_accepts, remoteState_accepts, and_self]
  refine ⟨by rw [Bool.eq_iff_iff, deployLib_accepts, remoteState_accepts], ?_, ?_⟩
  · intro hexact q tail hq htail hs
    obtain ⟨q', hq', hplain, hs'⟩ := canonical_iff.mp (hexact.mp ⟨q, tail, hq, htail, hs⟩)
    have hsame : q.text ++ tail = q'.text ++ [] := by rw [← hs, hs', List.append_nil]
    obtain ⟨rfl, rfl⟩ := reading_unique hq hq' htail unnoticed_nil hsame
    exact ⟨rfl, hplain⟩
  · refine fun hplain => ⟨?_, hsound⟩
    rintro ⟨q, tail, hq, htail, hs⟩
    obtain ⟨rfl, hwritten⟩ := hplain q tail hq htail hs
    exact canonical_iff.mpr ⟨q, hq, hwritten, by rw [hs, List.append_nil]⟩

theorem canonical_last {s : String} (h : Canonical s) : ∀ c, s.toList.getLast? = some c → IsDigit c := by
  obtain ⟨a, b, c, d, n, _, _, _, _, _, hs⟩ := h
  intro x hx
  refine (numeral_toDigits n).2 x (List.mem_of_getLast? ?_)
  rw [← hx, hs, List.getLast?_eq_some_getLast (numeral_toDigits n).1]
  simp [List.getLast?_append, List.getLast?_cons, List.getLast?_eq_some_getLast (numeral_toDigits n).1]

/-- A slash at the end goes unnoticed. -/
theorem accepts_slash : DeployLib.validIpv4Cidr "10.0.0.0/8/" = true ∧
    RemoteState.validIpv4Cidr "10.0.0.0/8/" = true ∧ ¬Canonical "10.0.0.0/8/" :=
  ⟨by decide +kernel, by decide +kernel, fun h => absurd (canonical_last h '/' (by decide)).1 (by decide)⟩

-- a second line, a zero that makes a number octal, and a number beyond 64 bits
example : ["10.0.0.0/8\nany other text", "012.0.0.0/8", "10.0.0.0/18446744073709551624"].all
    DeployLib.validIpv4Cidr = true := by decide +kernel

end Hermes.Cidr

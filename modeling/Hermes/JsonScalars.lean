import Hermes.JsonText

/- Strings and numbers that are written are read back. A string ends at its quote, whatever comes
   behind it; a number ends where the text goes on with nothing that could belong to it. -/
namespace Hermes.JsonText
open StableSort

theorem bind_ok {α β : Type} (a : α) (f : α → Except Exc β) : (Except.ok a >>= f) = f a := rfl

/-! ## Strings -/

theorem hexValue_digitChar : ∀ k < 16, hexValue k.digitChar = some k := by decide

theorem readHex4_hex4 {n : Nat} (h : n < 0x10000) (rest : List Char) : readHex4 (hex4 n ++ rest) = .ok (n, rest) := by
  have hdigit : ∀ m, hexValue (m % 16).digitChar = some (m % 16) := fun m => hexValue_digitChar _ (Nat.mod_lt _ (by decide))
  have hsum : ((n / 4096 % 16 * 16 + n / 256 % 16) * 16 + n / 16 % 16) * 16 + n % 16 = n := by omega
  simp only [hex4, List.cons_append, List.nil_append, readHex4, hdigit, hsum]

/-- No character is a surrogate. -/
theorem not_surrogate (c : Char) : c.toNat < 0xd800 ∨ 0xdfff < c.toNat := by
  rcases c.valid with h | h
  · exact Or.inl h
  · exact Or.inr h.1

theorem readUnicode_below {c : Char} (h : c.toNat < 0x10000) (rest : List Char) :
    readUnicode (hex4 c.toNat ++ rest) = .ok (c, rest) := by
  have hvalid := not_surrogate c
  have hhigh : isHigh c.toNat = false := by simp only [isHigh, Bool.and_eq_false_iff, decide_eq_false_iff_not]; omega
  have hlow : isLow c.toNat = false := by simp only [isLow, Bool.and_eq_false_iff, decide_eq_false_iff_not]; omega
  rw [readUnicode, readHex4_hex4 h, bind_ok, hhigh, hlow, Char.ofNat_toNat]
  rfl

/-- A character beyond them is written as two surrogates. -/
theorem readUnicode_pair {c : Char} (h : 0x10000 ≤ c.toNat) (rest : List Char) :
    readUnicode (hex4 (0xd800 + (c.toNat - 0x10000) / 1024) ++
      '\\' :: 'u' :: (hex4 (0xdc00 + (c.toNat - 0x10000) % 1024) ++ rest)) = .ok (c, rest) := by
  have hvalid : c.toNat < 0x110000 := by
    rcases c.valid with h' | h'
    · exact Nat.lt_trans h' (by decide)
    · exact h'.2
  generalize hm : c.toNat - 0x10000 = m
  have hhigh : isHigh (0xd800 + m / 1024) = true := by simp only [isHigh, Bool.and_eq_true, decide_eq_true_eq]; omega
  have hlow : isLow (0xdc00 + m % 1024) = true := by simp only [isLow, Bool.and_eq_true, decide_eq_true_eq]; omega
  have hsum : 0x10000 + (0xd800 + m / 1024 - 0xd800) * 1024 + (0xdc00 + m % 1024 - 0xdc00) = c.toNat := by omega
  rw [readUnicode, readHex4_hex4 (by omega), bind_ok]
  simp only [hhigh, if_true]
  rw [readHex4_hex4 (by omega), bind_ok, if_pos hlow, hsum, Char.ofNat_toNat]

theorem readEscape_escapes : ∀ e ∈ escapes, e.2 ≠ 'u' ∧ (escapes ++ [('/', '/')]).find? (fun d => d.2 == e.2) = some e := by
  decide

theorem readString_backslash {cs rest : List Char} {c : Char} (n : Nat) (h : readEscape cs = .ok (c, rest)) :
    readString (n + 1) ('\\' :: cs) = (fun s => (c :: s.1, s.2)) <$> readString n rest := by
  rw [readString, if_neg (by decide), readChar, if_pos rfl, h]
  rfl

theorem readString_escape (n : Nat) (c : Char) (rest : List Char) :
    readString (n + 1) (escape c ++ rest) = (fun s => (c :: s.1, s.2)) <$> readString n rest := by
  unfold escape
  split
  next e he =>
    obtain rfl : e.1 = c := by simpa using List.find?_some he
    obtain ⟨hu, hfind⟩ := readEscape_escapes e (List.mem_of_find?_eq_some he)
    refine readString_backslash n ?_
    show readEscape (e.2 :: rest) = _
    rw [readEscape, if_neg hu, hfind]
  next hnone =>
    have hplain : ∀ e ∈ escapes, e.1 ≠ c := by simpa using hnone
    split
    next hprint =>
      have hquote : c ≠ '"' := fun h => hplain ('"', '"') (by decide) h.symm
      have hback : c ≠ '\\' := fun h => hplain ('\\', '\\') (by decide) h.symm
      rw [List.singleton_append, readString, if_neg hquote, readChar, if_neg hback, if_neg (by omega)]
      rfl
    next =>
      split
      next hbelow =>
        refine readString_backslash n ?_
        rw [← readUnicode_below hbelow rest]
        rfl
      next habove =>
        refine readString_backslash n ?_
        rw [← readUnicode_pair (Nat.le_of_not_lt habove) rest]
        simp only [List.append_eq, List.append_assoc, List.cons_append]
        rfl

/-- A string that is written is read back. -/
theorem readString_quote {n : Nat} {s : List Char} (rest : List Char) (h : s.length < n) :
    readString n (s.flatMap escape ++ '"' :: rest) = .ok (s, rest) := by
  induction s generalizing n with
  | nil =>
    obtain ⟨m, rfl⟩ : ∃ m, n = m + 1 := ⟨n - 1, by simp at h; omega⟩
    rw [List.flatMap_nil, List.nil_append, readString, if_pos rfl]
  | cons c s ih =>
    obtain ⟨m, rfl⟩ : ∃ m, n = m + 1 := ⟨n - 1, by simp at h; omega⟩
    rw [List.flatMap_cons, List.append_assoc, readString_escape, ih (by simpa using h)]
    rfl

theorem escape_ne_nil (c : Char) : 1 ≤ (escape c).length := by
  unfold escape
  split
  · simp
  · split
    · simp
    · split <;> simp

theorem length_quote (s : List Char) : s.length + 2 ≤ (quote s).length := by
  have h : s.length ≤ (s.flatMap escape).length := by
    induction s with
    | nil => simp
    | cons c s ih =>
      have hc := escape_ne_nil c
      rw [List.flatMap_cons, List.length_append, List.length_cons]
      omega
  simp only [quote, List.length_cons, List.length_append, List.length_nil]
  omega

/-! ## Numbers -/

/-- What may stand behind a value. -/
def Ends (rest : List Char) : Prop := ∀ c, rest.head? = some c → c = ',' ∨ c = ']' ∨ c = '}' ∨ c = '\n'

/-- The text does not go on with one of these. -/
def Without (p : Char → Bool) (rest : List Char) : Prop := ∀ c, rest.head? = some c → p c = false

theorem Ends.without {rest : List Char} (h : Ends rest) {p : Char → Bool}
    (hp : p ',' = false ∧ p ']' = false ∧ p '}' = false ∧ p '\n' = false) : Without p rest := by
  intro c hc
  rcases h c hc with rfl | rfl | rfl | rfl
  · exact hp.1
  · exact hp.2.1
  · exact hp.2.2.1
  · exact hp.2.2.2

theorem takeWhile_append {p : Char → Bool} {ds rest : List Char} (h : ∀ c ∈ ds, p c = true) (hrest : Without p rest) :
    (ds ++ rest).takeWhile p = ds ∧ (ds ++ rest).dropWhile p = rest := by
  have hnone : rest.takeWhile p = [] ∧ rest.dropWhile p = rest := by
    cases rest with
    | nil => exact ⟨rfl, rfl⟩
    | cons c rest => simp [hrest c rfl]
  rw [List.takeWhile_append_of_pos h, List.dropWhile_append_of_pos h, hnone.1, hnone.2]
  exact ⟨List.append_nil ds, rfl⟩

theorem withDigits_append {ds rest : List Char} (h : IsDigits ds) (hrest : Without isDigit rest) (front otherwise : List Char) :
    withDigits front (ds ++ rest) otherwise = (front ++ ds, rest) := by
  obtain ⟨htake, hdrop⟩ := takeWhile_append h.2 hrest
  rw [withDigits, htake, hdrop, if_neg (by simpa using h.1)]

theorem readWhole_append {ds rest : List Char} (h : IsWhole ds) (hrest : Without isDigit rest) :
    readWhole (ds ++ rest) = some (ds, rest) := by
  cases ds with
  | nil => exact absurd rfl h.1.1
  | cons c ds =>
    have hds : ∀ d ∈ ds, isDigit d = true := fun d hd => h.1.2 d (by simp [hd])
    rw [List.cons_append, readWhole]
    split
    next hzero =>
      subst hzero
      have hlength := h.2 rfl
      obtain rfl : ds = [] := by simpa using hlength
      rfl
    next =>
      obtain ⟨htake, hdrop⟩ := takeWhile_append hds hrest
      rw [if_pos (h.1.2 c (by simp)), htake, hdrop]

theorem readFraction_append {ds rest : List Char} (h : IsFraction ds) (hrest : Without (fun c => isDigit c || c == '.') rest) :
    readFraction (ds ++ rest) = (ds, rest) := by
  rcases h with rfl | ⟨digits, rfl, hdigits⟩
  · cases rest with
    | nil => rfl
    | cons c rest =>
      have hc : c ≠ '.' := fun hc => by simpa [hc] using hrest c rfl
      rw [List.nil_append, readFraction, if_neg hc]
  · rw [List.cons_append, readFraction, if_pos rfl]
    exact withDigits_append hdigits (fun c hc => (Bool.or_eq_false_iff.mp (hrest c hc)).1) _ _

theorem readSign_append {sign ds rest : List Char} (h : IsSign sign ∨ sign = ['+']) (hds : IsDigits ds) :
    readSign (sign ++ (ds ++ rest)) = (sign, ds ++ rest) := by
  rcases h with (rfl | rfl) | rfl
  · cases ds with
    | nil => exact absurd rfl hds.1
    | cons c ds =>
      have hc := hds.2 c (by simp)
      have hsign : ¬(c = '+' ∨ c = '-') := by
        rintro (rfl | rfl)
        · exact absurd hc (by decide)
        · exact absurd hc (by decide)
      rw [List.nil_append, List.cons_append, readSign, if_neg hsign]
  · rfl
  · rfl

theorem readExponent_append {ds rest : List Char} (h : IsExponent ds)
    (hrest : Without (fun c => isDigit c || c == 'e' || c == 'E') rest) : readExponent (ds ++ rest) = (ds, rest) := by
  rcases h with rfl | ⟨e, sign, digits, rfl, he, hsign, hdigits⟩
  · cases rest with
    | nil => rfl
    | cons c rest =>
      have hc : ¬(c = 'e' ∨ c = 'E') := by
        rintro (rfl | rfl)
        · exact absurd (hrest 'e' rfl) (by decide)
        · exact absurd (hrest 'E' rfl) (by decide)
      rw [List.nil_append, readExponent, if_neg hc]
  · have hdigit : Without isDigit rest := fun c hc =>
      (Bool.or_eq_false_iff.mp (Bool.or_eq_false_iff.mp (hrest c hc)).1).1
    rw [List.cons_append, List.append_assoc, readExponent, if_pos he, readSign_append hsign hdigits]
    exact withDigits_append hdigits hdigit (e :: sign) _

theorem head_fraction {ds rest : List Char} (h : IsFraction ds) {c : Char} (hc : (ds ++ rest).head? = some c) :
    c = '.' ∨ rest.head? = some c := by
  rcases h with rfl | ⟨digits, rfl, _⟩
  · exact Or.inr hc
  · exact Or.inl (by simpa using hc.symm)

theorem head_exponent {ds rest : List Char} (h : IsExponent ds) {c : Char} (hc : (ds ++ rest).head? = some c) :
    (c = 'e' ∨ c = 'E') ∨ rest.head? = some c := by
  rcases h with rfl | ⟨e, sign, digits, rfl, he, _⟩
  · exact Or.inr hc
  · obtain rfl : e = c := by simpa using hc
    exact Or.inl he

/-- The parts of a number. -/
structure Number (sign whole fraction exponent : List Char) : Prop where
  sign : IsSign sign
  whole : IsWhole whole
  fraction : IsFraction fraction
  exponent : IsExponent exponent

theorem readNumber_append {sign whole fraction exponent rest : List Char} (h : Number sign whole fraction exponent)
    (hrest : Ends rest) :
    readNumber (sign ++ (whole ++ (fraction ++ (exponent ++ rest)))) =
      (fun v => (v, rest)) <$> numberOf sign whole fraction exponent := by
  have hexponent : Without (fun c => isDigit c || c == '.') (exponent ++ rest) := by
    intro c hc
    rcases head_exponent h.exponent hc with (rfl | rfl) | hc
    · decide
    · decide
    · exact (hrest.without (p := fun c => isDigit c || c == '.') (by decide)) c hc
  have hfraction : Without isDigit (fraction ++ (exponent ++ rest)) := by
    intro c hc
    rcases head_fraction h.fraction hc with rfl | hc
    · decide
    · exact (Bool.or_eq_false_iff.mp (hexponent c hc)).1
  have hdigit : ∀ c, whole.head? = some c → c ≠ '-' := by
    rintro c hc rfl
    exact absurd (h.whole.1.2 _ (List.mem_of_mem_head? hc)) (by decide)
  have hsign : (if (sign ++ (whole ++ (fraction ++ (exponent ++ rest)))).head? = some '-' then ['-'] else []) = sign := by
    rcases h.sign with rfl | rfl
    · cases hwhole : whole with
      | nil => exact absurd hwhole h.whole.1.1
      | cons c cs => simpa using hdigit c (by simp [hwhole])
    · rfl
  have hend : Without (fun c => isDigit c || c == 'e' || c == 'E') rest := hrest.without (by decide)
  rw [readNumber, hsign]
  simp only [List.drop_left, readWhole_append h.whole hfraction, readFraction_append h.fraction hexponent,
    readExponent_append h.exponent hend]

/-- Nothing that begins like a number is a literal. -/
theorem literals_number {sign whole : List Char} (h : IsSign sign) (hwhole : IsDigits whole) (rest : List Char) :
    literals.find? (fun l => l.1.isPrefixOf (sign ++ (whole ++ rest))) = none := by
  cases whole with
  | nil => exact absurd rfl hwhole.1
  | cons c cs =>
    have hc := hwhole.2 c (by simp)
    have hne : ∀ d, isDigit d = false → d ≠ c := by
      rintro d hd rfl
      simp [hc] at hd
    rcases h with rfl | rfl
    · simp [literals, constants, hne 'n' (by decide), hne 't' (by decide), hne 'f' (by decide), hne 'N' (by decide),
        hne 'I' (by decide), hne '-' (by decide)]
    · simp [literals, constants, hne 'I' (by decide)]

theorem readScalar_number {sign whole fraction exponent rest : List Char} (h : Number sign whole fraction exponent) :
    readScalar (sign ++ (whole ++ (fraction ++ (exponent ++ rest)))) =
      readNumber (sign ++ (whole ++ (fraction ++ (exponent ++ rest)))) := by
  rw [readScalar, literals_number h.sign h.whole.1]

theorem isWhole_toDigits (n : Nat) : IsWhole (Nat.toDigits 10 n) := by
  have hnumeral := Decimal.numeral_toDigits n
  refine ⟨⟨hnumeral.1, fun c hc => ?_⟩, Decimal.reduced_toDigits n⟩
  simpa [isDigit, Decimal.IsDigit] using hnumeral.2 c hc

/-- An integer that is written is read back, if it has not too many digits. -/
theorem readScalar_int {n : Int} {rest : List Char} (hrest : Ends rest) :
    readScalar (whole n ++ rest) =
      if 4300 < (Nat.toDigits 10 n.natAbs).length then .error invalid else .ok (.int n, rest) := by
  have hnumber : Number (if n < 0 then ['-'] else []) (Nat.toDigits 10 n.natAbs) [] [] := by
    refine ⟨?_, isWhole_toDigits _, Or.inl rfl, Or.inl rfl⟩
    split
    · exact Or.inr rfl
    · exact Or.inl rfl
  have htext : whole n ++ rest = (if n < 0 then ['-'] else []) ++ (Nat.toDigits 10 n.natAbs ++ ([] ++ ([] ++ rest))) := by
    simp [whole]
  have hvalue : (if (if n < 0 then ['-'] else []).isEmpty then ((n.natAbs : Nat) : Int) else -(n.natAbs : Nat)) = n := by
    by_cases hn : n < 0
    · simp only [if_pos hn, List.isEmpty_cons, Bool.false_eq_true, if_false]
      omega
    · simp only [if_neg hn, List.isEmpty_nil, if_true]
      omega
  rw [htext, readScalar_number hnumber, readNumber_append hnumber hrest, numberOf]
  simp only [List.isEmpty_nil, Bool.and_self, if_true, Decimal.value_toDigits, hvalue]
  split
  · rfl
  · rfl

/-- So is a float. -/
theorem readScalar_float {cs rest : List Char} (h : IsFloat cs) (hrest : Ends rest) :
    readScalar (cs ++ rest) = .ok (.float (String.ofList cs), rest) := by
  rcases h with hconstant | ⟨sign, whole, fraction, exponent, rfl, hsign, hwhole, hfraction, hexponent, hsome⟩
  · have hfind : ∀ cs ∈ constants, literals.find? (fun l => l.1.isPrefixOf (cs ++ rest)) = some (cs, .float (String.ofList cs)) := by
      intro cs hcs
      simp only [constants, List.mem_cons, List.not_mem_nil, or_false] at hcs
      rcases hcs with rfl | rfl | rfl
      · rfl
      · rfl
      · rfl
    rw [readScalar, hfind cs hconstant]
    simp
  · have hnumber : Number sign whole fraction exponent := ⟨hsign, hwhole, hfraction, hexponent⟩
    have hempty : (fraction.isEmpty && exponent.isEmpty) = false := by
      rw [Bool.and_eq_false_iff]
      by_contra hnot
      simp only [not_or, Bool.not_eq_false, List.isEmpty_iff] at hnot
      exact hsome hnot
    simp only [List.append_assoc]
    rw [readScalar_number hnumber, readNumber_append hnumber hrest, numberOf, hempty]
    rfl

end Hermes.JsonText

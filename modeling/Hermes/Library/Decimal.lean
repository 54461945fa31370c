import Mathlib.Data.Nat.Basic
import Mathlib.Data.List.Induction
import Mathlib.Algebra.Order.Ring.Int

/- Decimal numerals: the digits that `Nat.toDigits` writes are the digit strings without a
   superfluous zero at their head, and a digit string is below the power of its length. -/
namespace Decimal

def IsDigit (c : Char) : Prop := '0' ≤ c ∧ c ≤ '9'

/-- Digits, at least one of them. -/
def Numeral (digits : List Char) : Prop := digits ≠ [] ∧ ∀ c ∈ digits, IsDigit c

def value (digits : List Char) : Nat := Nat.ofDigitChars 10 digits 0

/-- No zero at the head but for zero itself. -/
def Reduced (digits : List Char) : Prop := digits.head? = some '0' → digits.length = 1

theorem digit_le {c : Char} (h : IsDigit c) : c.toNat - '0'.toNat ≤ 9 := Nat.sub_le_sub_right h.2 _

theorem value_cons (c : Char) (digits : List Char) :
    value (c :: digits) = 10 ^ digits.length * (c.toNat - '0'.toNat) + value digits := by
  rw [value, Nat.ofDigitChars_cons, Nat.ofDigitChars_eq_ofDigitChars_zero, Nat.mul_zero, Nat.zero_add, value]

theorem value_concat (digits : List Char) (c : Char) :
    value (digits ++ [c]) = 10 * value digits + (c.toNat - '0'.toNat) := by
  rw [value, Nat.ofDigitChars_append, Nat.ofDigitChars_cons, Nat.ofDigitChars_nil, value]

theorem value_lt {digits : List Char} (h : ∀ c ∈ digits, IsDigit c) : value digits < 10 ^ digits.length := by
  induction digits with
  | nil => simp [value]
  | cons c digits ih =>
    have hc := digit_le (h c (by simp))
    have hrest := ih fun d hd => h d (by simp [hd])
    have hfirst := Nat.mul_le_mul_left (10 ^ digits.length) hc
    rw [value_cons, List.length_cons, Nat.pow_succ]
    omega

@[simp] theorem value_toDigits (n : Nat) : value (Nat.toDigits 10 n) = n := Nat.ofDigitChars_ten_toDigits

theorem numeral_toDigits (n : Nat) : Numeral (Nat.toDigits 10 n) := by
  refine ⟨Nat.toDigits_ne_nil, fun c hc => ?_⟩
  have h := Nat.isDigit_of_mem_toDigits (b := 10) (by decide) (by decide) hc
  simp only [Char.isDigit, Bool.and_eq_true, decide_eq_true_eq] at h
  exact ⟨h.1, h.2⟩

/-- A numeral has no fewer digits than its value needs. -/
theorem length_toDigits_value {digits : List Char} (h : Numeral digits) :
    (Nat.toDigits 10 (value digits)).length ≤ digits.length :=
  (Nat.length_toDigits_le_iff (by decide) (List.length_pos_iff.mpr h.1)).mpr (value_lt h.2)

theorem reduced_toDigits (n : Nat) : Reduced (Nat.toDigits 10 n) := by
  intro hhead
  cases hdigits : Nat.toDigits 10 n with
  | nil => exact absurd hdigits Nat.toDigits_ne_nil
  | cons c rest =>
    rw [hdigits] at hhead
    obtain rfl : c = '0' := by simpa using hhead
    cases rest with
    | nil => rfl
    | cons d rest =>
      -- the value is that of the rest, which needs fewer digits
      have hnum : Numeral (d :: rest) :=
        ⟨by simp, fun x hx => (numeral_toDigits n).2 x (hdigits ▸ List.mem_cons_of_mem _ hx)⟩
      have hvalue : value (d :: rest) = n := by
        rw [← value_toDigits n, hdigits, value_cons '0']
        simp
      have hlength := length_toDigits_value hnum
      rw [hvalue, hdigits] at hlength
      simp only [List.length_cons] at hlength
      omega

theorem digitChar_sub {c : Char} (h : IsDigit c) : (c.toNat - '0'.toNat).digitChar = c := by
  have hlow : 48 ≤ c.toNat := h.1
  have hhigh : c.toNat ≤ 57 := h.2
  have hall : ∀ n, 48 ≤ n → n ≤ 57 → (n - '0'.toNat).digitChar = Char.ofNat n := by
    intro n h₁ h₂
    rcases (by omega : n = 48 ∨ n = 49 ∨ n = 50 ∨ n = 51 ∨ n = 52 ∨ n = 53 ∨ n = 54 ∨ n = 55 ∨ n = 56 ∨ n = 57)
      with rfl | rfl | rfl | rfl | rfl | rfl | rfl | rfl | rfl | rfl <;> decide
  rw [hall _ hlow hhigh, Char.ofNat_toNat]

theorem value_pos {c : Char} {digits : List Char} (hc : IsDigit c) (hne : c ≠ '0') : 0 < value (c :: digits) := by
  have hlow : 48 ≤ c.toNat := hc.1
  have hzero : c.toNat ≠ 48 := fun he => hne (Char.toNat_inj.mp he)
  have hdigit : 0 < c.toNat - '0'.toNat := Nat.sub_pos_of_lt (by show 48 < c.toNat; omega)
  rw [value_cons]
  exact Nat.add_pos_left (Nat.mul_pos (Nat.pow_pos (by decide)) hdigit) _

/-- A numeral without superfluous zeros is the one that is written for its value. -/
theorem toDigits_value {digits : List Char} (h : Numeral digits) (hr : Reduced digits) :
    Nat.toDigits 10 (value digits) = digits := by
  induction digits using List.reverseRecOn with
  | nil => exact absurd rfl h.1
  | append_singleton digits c ih =>
    have hc : IsDigit c := h.2 c (by simp)
    have hlt : c.toNat - '0'.toNat < 10 := Nat.lt_succ_of_le (digit_le hc)
    cases digits with
    | nil => rw [value_concat, value, Nat.ofDigitChars_nil, Nat.mul_zero, Nat.zero_add, Nat.toDigits_of_lt_base hlt,
        digitChar_sub hc, List.nil_append]
    | cons d digits =>
      have hd : IsDigit d := h.2 d (by simp)
      have hne : d ≠ '0' := by
        rintro rfl
        have := hr rfl
        simp at this
      have hnum : Numeral (d :: digits) := ⟨by simp, fun x hx => h.2 x (List.mem_append_left _ hx)⟩
      have hreduced : Reduced (d :: digits) := fun hhead => absurd (by simpa using hhead) hne
      rw [value_concat, ← Nat.toDigits_append_toDigits (by decide) (value_pos hd hne) hlt, ih hnum hreduced,
        Nat.toDigits_of_lt_base hlt, digitChar_sub hc]

end Decimal

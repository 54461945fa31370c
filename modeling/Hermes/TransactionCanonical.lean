import Hermes.TransactionInventory
import Hermes.Library.Decimal

/- `normalize` is a canonical form (`normalize_canonical`): two names that it accepts have the
   same result just where they denote the same package, and a result is its own result. -/
namespace Hermes.Transaction
open Outcome

/-! ## What a name denotes -/

/-- The texts of an epoch: digits of that value and a colon, and for zero nothing at all. -/
def EpochText (epoch : Nat) (text : List Char) : Prop :=
  (text = [] ∧ epoch = 0) ∨
    ∃ digits, Decimal.Numeral digits ∧ Decimal.value digits = epoch ∧ text = digits ++ [':']

/-- The parts of a name are there, and no part has the mark that would end it. -/
structure Nevra.Apart (n : Nevra) : Prop where
  name : n.name ≠ []
  version : n.version ≠ [] ∧ '-' ∉ n.version ∧ ':' ∉ n.version
  release : n.release ≠ [] ∧ '-' ∉ n.release
  arch : n.arch ≠ [] ∧ '-' ∉ n.arch ∧ '.' ∉ n.arch

/-- A text is `name-[epoch:]version-release.arch`. -/
structure Denotes (cs : List Char) (n : Nevra) : Prop where
  apart : n.Apart
  text : ∃ epoch, EpochText n.epoch epoch ∧
    cs = n.name ++ '-' :: (epoch ++ n.version ++ '-' :: (n.release ++ '.' :: n.arch))

/-! ## The two ways to split -/

theorem splitFirst_iff {c : Char} {cs before after : List Char} :
    splitFirst c cs = some (before, after) ↔ cs = before ++ c :: after ∧ c ∉ before := by
  induction cs generalizing before with
  | nil => simp [splitFirst]
  | cons d cs ih =>
    by_cases hd : d = c
    · -- the first character is the mark: nothing is before it
      subst hd
      cases before with
      | nil => simp [splitFirst]
      | cons b before =>
        simp only [splitFirst, List.dropWhile_cons, List.takeWhile_cons, ne_eq, not_true_eq_false, decide_false,
          Bool.false_eq_true, if_false, List.cons_append, List.cons.injEq, List.mem_cons, not_or]
        constructor
        · intro h
          cases h
        · rintro ⟨⟨rfl, _⟩, hne, _⟩
          exact absurd rfl hne
    · have hstep : splitFirst c (d :: cs) = (splitFirst c cs).map fun x => (d :: x.1, x.2) := by
        simp only [splitFirst, List.dropWhile_cons, List.takeWhile_cons, ne_eq, hd, not_false_eq_true, decide_true,
          if_true]
        cases cs.dropWhile (fun x => decide (x ≠ c)) <;> rfl
      rw [hstep]
      cases before with
      | nil => simp [hd]
      | cons b before =>
        simp only [Option.map_eq_some_iff, Prod.mk.injEq, Prod.exists, List.cons_append, List.cons.injEq,
          List.mem_cons, not_or]
        constructor
        · rintro ⟨_, _, hsplit, ⟨rfl, rfl⟩, rfl⟩
          obtain ⟨rfl, hmem⟩ := ih.mp hsplit
          exact ⟨⟨rfl, rfl⟩, fun he => hd he.symm, hmem⟩
        · rintro ⟨⟨rfl, htail⟩, _, hmem⟩
          exact ⟨before, after, ih.mpr ⟨htail, hmem⟩, ⟨rfl, rfl⟩, rfl⟩

theorem splitFirst_none {c : Char} {cs : List Char} : splitFirst c cs = none ↔ c ∉ cs := by
  constructor
  · intro hnone hmem
    obtain ⟨before, after, hcs, hfirst⟩ := List.eq_append_cons_of_mem hmem
    rw [splitFirst_iff.mpr ⟨hcs, hfirst⟩] at hnone
    cases hnone
  · intro hmem
    cases h : splitFirst c cs with
    | none => rfl
    | some x =>
      obtain ⟨rfl, _⟩ := splitFirst_iff.mp h
      exact absurd (by simp) hmem

/-- The last mark is the first one from behind. -/
theorem splitLast_eq_reverse {c : Char} {cs : List Char} :
    splitLast c cs = (splitFirst c cs.reverse).map fun x => (x.2.reverse, x.1.reverse) := by
  simp only [splitLast, splitFirst]
  cases cs.reverse.dropWhile (fun x => decide (x ≠ c)) <;> rfl

theorem splitLast_iff {c : Char} {cs before after : List Char} :
    splitLast c cs = some (before, after) ↔ cs = before ++ c :: after ∧ c ∉ after := by
  rw [splitLast_eq_reverse, Option.map_eq_some_iff]
  constructor
  · rintro ⟨⟨x, y⟩, hsplit, heq⟩
    obtain ⟨hcs, hmem⟩ := splitFirst_iff.mp hsplit
    cases heq
    refine ⟨?_, by simpa using hmem⟩
    rw [← List.reverse_inj, hcs]
    simp
  · rintro ⟨rfl, hmem⟩
    exact ⟨(after.reverse, before.reverse), splitFirst_iff.mpr ⟨by simp, by simpa using hmem⟩, by simp⟩

/-! ## Reading a name -/

theorem decimal_eq (digits : List Char) : decimal digits = Decimal.value digits := by
  rw [decimal, Decimal.value, Nat.ofDigitChars_eq_foldl]
  congr 1
  funext n c
  rw [Nat.mul_comm]
  rfl

theorem digits_all {digits : List Char} :
    (digits.all fun c => '0' ≤ c && c ≤ '9') = true ↔ ∀ d ∈ digits, '0' ≤ d ∧ d ≤ '9' := by
  simp [List.all_eq_true]

theorem colon_not_digit {digits : List Char} (h : ∀ d ∈ digits, '0' ≤ d ∧ d ≤ '9') : ':' ∉ digits :=
  fun hmem => absurd (h ':' hmem).2 (by decide)

/-- The marks of the whole text, and what is between them. -/
theorem parts_iff {cs name version release arch : List Char} :
    (nameVersionRelease cs).bind (fun x => (releaseArch x.2.2).map fun y => (x.1, x.2.1, y.1, y.2)) =
        .ok (name, version, release, arch) ↔
      cs = name ++ '-' :: (version ++ '-' :: (release ++ '.' :: arch)) ∧ name ≠ [] ∧
        (version ≠ [] ∧ '-' ∉ version) ∧ (release ≠ [] ∧ '-' ∉ release) ∧ arch ≠ [] ∧ '-' ∉ arch ∧ '.' ∉ arch := by
  constructor
  · intro h
    obtain ⟨⟨n, v, last⟩, hnvr, h⟩ := bind_eq_ok.mp h
    obtain ⟨⟨r, a⟩, hra, h⟩ := map_eq_ok.mp h
    cases h
    obtain ⟨⟨hname, hversion, _⟩, rest, hlast, hrest⟩ := nameVersionRelease_ok hnvr
    obtain ⟨hrelease, harch, hdot⟩ := releaseArch_ok hra
    obtain ⟨rfl, hlastMark⟩ := splitLast_iff.mp hlast
    obtain ⟨rfl, hversionMark⟩ := splitLast_iff.mp hrest
    obtain ⟨rfl, harchMark⟩ := splitLast_iff.mp hdot
    simp only [List.mem_append, List.mem_cons, not_or] at hlastMark
    exact ⟨by simp, hname, ⟨hversion, hversionMark⟩, ⟨hrelease, hlastMark.1⟩, harch, hlastMark.2.2, harchMark⟩
  · rintro ⟨rfl, hname, ⟨hversion, hversionMark⟩, ⟨hrelease, hreleaseMark⟩, harch, harchMark, hdot⟩
    have hlast : splitLast '-' (name ++ '-' :: (version ++ '-' :: (release ++ '.' :: arch))) =
        some (name ++ '-' :: version, release ++ '.' :: arch) :=
      splitLast_iff.mpr ⟨by simp, by simp [hreleaseMark, harchMark]⟩
    have hrest : splitLast '-' (name ++ '-' :: version) = some (name, version) :=
      splitLast_iff.mpr ⟨rfl, hversionMark⟩
    have harchSplit : splitLast '.' (release ++ '.' :: arch) = some (release, arch) :=
      splitLast_iff.mpr ⟨rfl, hdot⟩
    have hnvr : nameVersionRelease (name ++ '-' :: (version ++ '-' :: (release ++ '.' :: arch))) =
        .ok (name, version, release ++ '.' :: arch) := by
      simp [nameVersionRelease, hlast, hrest, hname, hversion]
    have hra : releaseArch (release ++ '.' :: arch) = .ok (release, arch) := by
      simp [releaseArch, harchSplit, hrelease, harch]
    rw [hnvr]
    simp [hra, Except.bind, Except.map]

theorem splitFirst_digits {digits : List Char} (hd : ∀ d ∈ digits, '0' ≤ d ∧ d ≤ '9') (version : List Char) :
    splitFirst ':' (digits ++ ':' :: version) = some (digits, version) :=
  splitFirst_iff.mpr ⟨rfl, colon_not_digit hd⟩

/-- The epoch is read as it is written, up to 4300 digits. -/
theorem epochVersion_iff {cs version : List Char} {epoch : Nat} :
    epochVersion cs = .ok (epoch, version) ↔ version ≠ [] ∧ ':' ∉ version ∧
      ∃ text, EpochText epoch text ∧ text.length ≤ 4301 ∧ cs = text ++ version := by
  constructor
  · intro h
    obtain ⟨hversion, hcolon, _⟩ := epochVersion_ok h
    refine ⟨hversion, hcolon, ?_⟩
    unfold epochVersion at h
    cases hsplit : splitFirst ':' cs with
    | none =>
      -- no colon: the epoch is the text "0"
      simp only [hsplit, Option.getD_none] at h
      split at h
      · cases h
      · cases h
        exact ⟨[], Or.inl ⟨rfl, rfl⟩, by simp, rfl⟩
    | some x =>
      obtain ⟨digits, value⟩ := x
      obtain ⟨rfl, _⟩ := splitFirst_iff.mp hsplit
      simp only [hsplit, Option.getD_some] at h
      split at h
      · cases h
      · next hok =>
        obtain ⟨n, hn, heq⟩ := map_eq_ok.mp h
        cases heq
        simp only [not_or, Bool.not_eq_true, Bool.not_eq_false'] at hok
        unfold parseInt at hn
        split at hn
        · cases hn
        · next hlength =>
          cases hn
          refine ⟨digits ++ [':'],
            Or.inr ⟨digits, ⟨hok.1, digits_all.mp hok.2.1⟩, (decimal_eq _).symm, rfl⟩, ?_, by simp⟩
          rw [List.length_append, List.length_singleton]
          omega
  · rintro ⟨hversion, hcolon, text, hepoch | ⟨digits, ⟨hne, hdigits⟩, rfl, rfl⟩, hlength, rfl⟩
    · obtain ⟨rfl, rfl⟩ := hepoch
      simp [epochVersion, splitFirst_none.mpr hcolon, hversion, hcolon, parseInt, decimal, Except.map]
    · have hshort : ¬4300 < digits.length := by
        rw [List.length_append, List.length_singleton] at hlength
        omega
      have hall := digits_all.mpr hdigits
      rw [List.append_assoc, List.singleton_append]
      simp only [epochVersion, splitFirst_digits hdigits _, Option.getD_some, hall, hne, hversion, List.contains_eq_mem,
        hcolon, parseInt, if_neg hshort, decimal_eq, Except.map]
      simp

theorem epochText_marks {epoch : Nat} {text : List Char} (h : EpochText epoch text) : '-' ∉ text := by
  rcases h with ⟨rfl, _⟩ | ⟨digits, ⟨_, hdigits⟩, _, rfl⟩
  · simp
  · simp only [List.mem_append, List.mem_singleton, not_or]
    exact ⟨fun hmem => absurd (hdigits '-' hmem).1 (by decide), by decide⟩

/-- What is before a version tells its epoch. -/
theorem epochText_unique {e f : Nat} {text text' v w : List Char} (he : EpochText e text) (hf : EpochText f text')
    (hv : ':' ∉ v) (hw : ':' ∉ w) (heq : text ++ v = text' ++ w) : e = f ∧ v = w := by
  have hsome : ∀ {digits t u : List Char}, (∀ d ∈ digits, '0' ≤ d ∧ d ≤ '9') → ':' ∉ u →
      digits ++ [':'] ++ t ≠ u := by
    rintro digits t u _ hu rfl
    exact hu (by simp)
  rcases he with ⟨rfl, rfl⟩ | ⟨digits, ⟨_, hdigits⟩, rfl, rfl⟩ <;>
    rcases hf with ⟨rfl, rfl⟩ | ⟨digits', ⟨_, hdigits'⟩, rfl, rfl⟩
  · exact ⟨rfl, heq⟩
  · exact absurd heq.symm (hsome hdigits' hv)
  · exact absurd heq (hsome hdigits hw)
  · have hsplit := splitFirst_digits hdigits v
    have hsplit' := splitFirst_digits hdigits' w
    rw [List.append_assoc, List.append_assoc, List.singleton_append, List.singleton_append] at heq
    rw [heq, hsplit'] at hsplit
    cases hsplit
    exact ⟨rfl, rfl⟩

theorem parts_of_apart {n : Nevra} {epoch : List Char} (hn : n.Apart) (he : EpochText n.epoch epoch) :
    (nameVersionRelease (n.name ++ '-' :: (epoch ++ n.version ++ '-' :: (n.release ++ '.' :: n.arch)))).bind
        (fun x => (releaseArch x.2.2).map fun y => (x.1, x.2.1, y.1, y.2)) =
      .ok (n.name, epoch ++ n.version, n.release, n.arch) :=
  parts_iff.mpr ⟨rfl, hn.name, ⟨by simp [hn.version.1], by simp [hn.version.2.1, epochText_marks he]⟩, hn.release,
    hn.arch⟩

/-- A name is read just where it denotes something, but for an epoch of more than 4300 digits. -/
theorem parseNevra_iff {cs : List Char} {n : Nevra} :
    parseNevra cs = .ok n ↔ n.Apart ∧ ∃ epoch, EpochText n.epoch epoch ∧ epoch.length ≤ 4301 ∧
      cs = n.name ++ '-' :: (epoch ++ n.version ++ '-' :: (n.release ++ '.' :: n.arch)) := by
  have hparse : parseNevra cs = ((nameVersionRelease cs).bind fun x =>
      (releaseArch x.2.2).map fun y => (x.1, x.2.1, y.1, y.2)).bind fun z =>
        (epochVersion z.2.1).map fun e => ⟨z.1, e.1, e.2, z.2.2.1, z.2.2.2⟩ := by
    unfold parseNevra
    cases nameVersionRelease cs with
    | error e => rfl
    | ok x =>
      cases hra : releaseArch x.2.2 with
      | error e => simp [hra, bind, Except.bind, Except.map]
      | ok y => cases hev : epochVersion x.2.1 <;> simp [hra, hev, bind, pure, Except.bind, Except.map, Except.pure]
  rw [hparse]
  constructor
  · intro h
    obtain ⟨⟨name, version, release, arch⟩, hparts, h⟩ := bind_eq_ok.mp h
    obtain ⟨⟨epoch, value⟩, hepoch, h⟩ := map_eq_ok.mp h
    cases h
    obtain ⟨rfl, hname, hversion, hrelease, harch⟩ := parts_iff.mp hparts
    obtain ⟨hvalue, hcolon, text, htext, hlength, rfl⟩ := epochVersion_iff.mp hepoch
    simp only [List.mem_append, not_or] at hversion
    exact ⟨⟨hname, ⟨hvalue, hversion.2.2, hcolon⟩, hrelease, harch⟩, text, htext, hlength, rfl⟩
  · rintro ⟨hn, epoch, htext, hlength, rfl⟩
    have hepoch := epochVersion_iff.mpr ⟨hn.version.1, hn.version.2.2, epoch, htext, hlength, rfl⟩
    rw [parts_of_apart hn htext]
    simp [hepoch, Except.bind, Except.map]

theorem parseNevra_denotes {cs : List Char} {n : Nevra} (h : parseNevra cs = .ok n) : Denotes cs n := by
  obtain ⟨hn, epoch, htext, _, hcs⟩ := parseNevra_iff.mp h
  exact ⟨hn, epoch, htext, hcs⟩

/-- A text denotes one package. -/
theorem Denotes.unique {cs : List Char} {n m : Nevra} (hn : Denotes cs n) (hm : Denotes cs m) : n = m := by
  obtain ⟨hn, text, htext, rfl⟩ := hn
  obtain ⟨hm, text', htext', hcs⟩ := hm
  have hsame := (parts_of_apart hn htext).symm.trans (hcs ▸ parts_of_apart hm htext')
  simp only [Except.ok.injEq, Prod.mk.injEq] at hsame
  obtain ⟨hname, hversion, hrelease, harch⟩ := hsame
  obtain ⟨hepoch, hvalue⟩ := epochText_unique htext htext' hn.version.2.2 hm.version.2.2 hversion
  cases n
  cases m
  simp only at hname hepoch hvalue hrelease harch
  subst hname hepoch hvalue hrelease harch
  rfl

/-! ## The text of a package -/

theorem epochText_toDigits (n : Nat) : EpochText n (Nat.toDigits 10 n ++ [':']) :=
  Or.inr ⟨_, Decimal.numeral_toDigits n, Decimal.value_toDigits n, rfl⟩

theorem Nevra.text_eq (n : Nevra) :
    n.text = n.name ++ '-' :: (Nat.toDigits 10 n.epoch ++ [':'] ++ n.version ++ '-' :: (n.release ++ '.' :: n.arch)) := by
  simp [Nevra.text]

theorem denotes_text {n : Nevra} (h : n.Apart) : Denotes n.text n :=
  ⟨h, _, epochText_toDigits n.epoch, n.text_eq⟩

/-- What a name is rewritten to is read the same way. -/
theorem parseNevra_text {cs : List Char} {n : Nevra} (h : parseNevra cs = .ok n) : parseNevra n.text = .ok n := by
  obtain ⟨hn, epoch, htext, hlength, _⟩ := parseNevra_iff.mp h
  refine parseNevra_iff.mpr ⟨hn, _, epochText_toDigits n.epoch, ?_, n.text_eq⟩
  rw [List.length_append, List.length_singleton]
  rcases htext with ⟨_, h0⟩ | ⟨digits, hnumeral, hvalue, rfl⟩
  · rw [h0]
    decide
  · rw [List.length_append, List.length_singleton] at hlength
    -- no number has more digits here than it was written with
    have hshort := Decimal.length_toDigits_value hnumeral
    rw [hvalue] at hshort
    omega

/-! ## Its characters -/

/-- The two patterns for the whole text. -/
def isNevraText (cs : List Char) : Bool := (!cs.isEmpty && cs.all isNevraChar) || isSigningKey cs

theorem isNevraChar_digit {c : Char} (h : '0' ≤ c ∧ c ≤ '9') : isNevraChar c = true := by
  simp [isNevraChar, isAlnum, h.1, h.2]

theorem all_text {cs : List Char} {n : Nevra} (h : parseNevra cs = .ok n) (hall : ∀ c ∈ cs, isNevraChar c = true) :
    ∀ c ∈ n.text, isNevraChar c = true := by
  obtain ⟨_, _, _, _, _, hsub⟩ := parseNevra_ok h
  intro c hc
  simp only [Nevra.text, List.mem_append, List.mem_cons] at hc
  rcases hc with hc | rfl | hc | rfl | hc | rfl | hc | rfl | hc
  · exact hall c (hsub c (Or.inl hc))
  · decide
  · exact isNevraChar_digit (toDigits_isDigit _ c hc)
  · decide
  · exact hall c (hsub c (Or.inr (Or.inl hc)))
  · decide
  · exact hall c (hsub c (Or.inr (Or.inr (Or.inl hc))))
  · decide
  · exact hall c (hsub c (Or.inr (Or.inr (Or.inr hc))))

def isKeyId (c : Char) : Bool := isHexDigit c || c == ':'

theorem isKeyRelease_iff {cs : List Char} :
    isKeyRelease cs = true ↔
      ∃ release, release ≠ [] ∧ (∀ c ∈ release, isHexDigit c = true) ∧ cs = '-' :: (release ++ ".(none)".toList) := by
  constructor
  · intro h
    unfold isKeyRelease at h
    split at h
    · next cs =>
      simp only [Bool.and_eq_true, Bool.not_eq_true', List.isEmpty_eq_false_iff, beq_iff_eq] at h
      refine ⟨cs.takeWhile isHexDigit, h.1, fun c hc => mem_of_takeWhile hc, ?_⟩
      rw [← h.2, List.takeWhile_append_dropWhile]
    · cases h
  · rintro ⟨release, hne, hall, rfl⟩
    have hmark := takeWhile_mark hall (show isHexDigit '.' = false by decide) "(none)".toList
    show (!(List.takeWhile isHexDigit (release ++ '.' :: "(none)".toList)).isEmpty &&
      List.dropWhile isHexDigit (release ++ '.' :: "(none)".toList) == ".(none)".toList) = true
    rw [hmark.1, hmark.2]
    simp [hne]

/-- The form of the name of a signing key. -/
theorem isSigningKey_iff {cs : List Char} :
    isSigningKey cs = true ↔ ∃ id release, id ≠ [] ∧ (∀ c ∈ id, isKeyId c = true) ∧ release ≠ [] ∧
      (∀ c ∈ release, isHexDigit c = true) ∧
      cs = "gpg-pubkey".toList ++ '-' :: (id ++ '-' :: (release ++ '.' :: "(none)".toList)) := by
  constructor
  · intro h
    simp only [isSigningKey, Bool.and_eq_true, Bool.not_eq_true', List.isEmpty_eq_false_iff, beq_iff_eq] at h
    obtain ⟨⟨hhead, hid⟩, hrelease⟩ := h
    obtain ⟨release, hne, hall, heq⟩ := isKeyRelease_iff.mp hrelease
    refine ⟨_, release, hid, fun c hc => mem_of_takeWhile hc, hne, hall, ?_⟩
    have hrest := List.takeWhile_append_dropWhile (p := fun c => isHexDigit c || c == ':') (l := cs.drop 11)
    rw [heq] at hrest
    calc cs = cs.take 11 ++ cs.drop 11 := (List.take_append_drop 11 cs).symm
      _ = "gpg-pubkey-".toList ++ ((cs.drop 11).takeWhile (fun c => isHexDigit c || c == ':') ++
            '-' :: (release ++ ".(none)".toList)) := by rw [hhead, hrest]
      _ = _ := rfl
  · rintro ⟨id, release, hid, hall, hne, hhex, rfl⟩
    have hmark := takeWhile_mark (p := fun c => isHexDigit c || c == ':') hall (show (isHexDigit '-' || '-' == ':') = false by decide)
      (release ++ '.' :: "(none)".toList)
    have hrelease : isKeyRelease ('-' :: (release ++ '.' :: "(none)".toList)) = true :=
      isKeyRelease_iff.mpr ⟨release, hne, hhex, rfl⟩
    show ("gpg-pubkey-".toList == "gpg-pubkey-".toList &&
      !(List.takeWhile _ (id ++ '-' :: (release ++ '.' :: "(none)".toList))).isEmpty &&
      isKeyRelease (List.dropWhile _ (id ++ '-' :: (release ++ '.' :: "(none)".toList)))) = true
    rw [hmark.1, hmark.2, hrelease]
    simp [hid]

theorem isKeyId_digit {c : Char} (h : '0' ≤ c ∧ c ≤ '9') : isKeyId c = true := by
  simp [isKeyId, isHexDigit, h.1, h.2]

/-- The name of a signing key is rewritten to one. -/
theorem isSigningKey_text {cs : List Char} {n : Nevra} (h : parseNevra cs = .ok n) (hkey : isSigningKey cs = true) :
    isSigningKey n.text = true := by
  obtain ⟨hn, epoch, htext, _, hcs⟩ := parseNevra_iff.mp h
  obtain ⟨id, release, hid, hall, hne, hhex, hkeyText⟩ := isSigningKey_iff.mp hkey
  have hidMark : '-' ∉ id := fun hmem => absurd (hall '-' hmem) (by decide)
  have hreleaseMark : '-' ∉ release := fun hmem => absurd (hhex '-' hmem) (by decide)
  have hparts := parts_iff.mpr ⟨hkeyText, by decide, ⟨hid, hidMark⟩, ⟨hne, hreleaseMark⟩, by decide, by decide, by decide⟩
  rw [hcs, parts_of_apart hn htext] at hparts
  simp only [Except.ok.injEq, Prod.mk.injEq] at hparts
  obtain ⟨hname, hversion, hrelease, harch⟩ := hparts
  refine isSigningKey_iff.mpr ⟨Nat.toDigits 10 n.epoch ++ [':'] ++ n.version, release, by simp, ?_, hne, hhex, ?_⟩
  · intro c hc
    simp only [List.mem_append, List.mem_singleton] at hc
    rcases hc with (hc | rfl) | hc
    · exact isKeyId_digit (toDigits_isDigit _ c hc)
    · decide
    · exact hall c (by rw [← hversion]; exact List.mem_append_right _ hc)
  · rw [n.text_eq, hname, hrelease, harch]

theorem isNevraText_text {cs : List Char} {n : Nevra} (h : parseNevra cs = .ok n)
    (hm : (cs.isEmpty = false ∧ cs.all isNevraChar = true) ∨ isSigningKey cs = true) : isNevraText n.text = true := by
  have hne : n.text ≠ [] := by simp [Nevra.text]
  rw [isNevraText, Bool.or_eq_true, Bool.and_eq_true]
  rcases hm with hm | hkey
  · exact Or.inl ⟨by simp [hne], List.all_eq_true.mpr (all_text h (List.all_eq_true.mp hm.2))⟩
  · exact Or.inr (isSigningKey_text h hkey)

/-! ## The canonical form -/

theorem normalize_denotes {s r : String} (h : normalize (.str s) = .ok r) :
    ∃ n, Denotes s.toList n ∧ r = String.ofList n.text ∧ normalize (.str r) = .ok r := by
  obtain ⟨t, n, ht, hmatch, hn, rfl⟩ := normalize_ok h
  cases ht
  refine ⟨n, parseNevra_denotes hn, rfl, ?_⟩
  have hagain : isNevraText n.text = true := isNevraText_text hn hmatch
  rw [isNevraText] at hagain
  simp only [normalize, String.toList_ofList, hagain, if_true, parseNevra_text hn, Except.map]

/-- **`normalize` is a canonical form.** An accepted name denotes one package; two have the same
    result just where they denote the same; and a result is accepted and stays as it is. -/
theorem normalize_canonical {s t r u : String} (hs : normalize (.str s) = .ok r) (ht : normalize (.str t) = .ok u) :
    (∃! n, Denotes s.toList n) ∧ (r = u ↔ ∃ n, Denotes s.toList n ∧ Denotes t.toList n) ∧
      normalize (.str r) = .ok r := by
  obtain ⟨n, hn, hr, hagain⟩ := normalize_denotes hs
  obtain ⟨m, hm, hu, _⟩ := normalize_denotes ht
  refine ⟨⟨n, hn, fun k hk => hk.unique hn⟩, ?_, hagain⟩
  constructor
  · intro heq
    have htext : n.text = m.text := String.ofList_injective (hr.symm.trans (heq.trans hu))
    obtain rfl : n = m := (denotes_text hn.apart).unique (htext ▸ denotes_text hm.apart)
    exact ⟨n, hn, hm⟩
  · rintro ⟨k, hk, hk'⟩
    rw [hr, hu, hn.unique hk, hm.unique hk']

theorem normalize_canonical_sample :
    (∃! n, Denotes "a-b-00:1.2-3.x86_64".toList n) ∧
      ("a-b-0:1.2-3.x86_64" = "a-b-0:1.2-3.x86_64" ↔
        ∃ n, Denotes "a-b-00:1.2-3.x86_64".toList n ∧ Denotes "a-b-1.2-3.x86_64".toList n) ∧
      normalize (.str "a-b-0:1.2-3.x86_64") = .ok "a-b-0:1.2-3.x86_64" :=
  normalize_canonical (by rfl) (by rfl)

end Hermes.Transaction

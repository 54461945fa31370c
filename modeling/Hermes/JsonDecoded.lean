import Hermes.JsonRoundTrip

/- What is read from any text. Its keys are distinct and its integers short enough, so it is one
   of the documents that are read back (`Sound`); and something of the text was taken, which is
   why fuel in the length of the text is enough. Both follow the reading, in one induction on the
   fuel (`read_ok`). -/
namespace Hermes.JsonText
open Outcome StableSort

variable {x : Python}

/-! ## The form that is read back -/

/-- A document that is read back. -/
def Sound (x : Python) (v : Json) : Prop := check x v = .ok (normal x v)

theorem uniqueObject_ok {fields : List (String × Json)} {v : Json} :
    uniqueObject fields = .ok v ↔ (fields.map Prod.fst).Nodup ∧ v = .obj fields := by
  unfold uniqueObject
  split
  next h =>
    constructor
    · intro hv
      exact ⟨h, (Except.ok.inj hv).symm⟩
    · rintro ⟨-, rfl⟩
      rfl
  next h =>
    constructor
    · intro hv
      cases hv
    · exact fun hv => absurd hv.1 h

theorem map_ok {α β : Type} {f : α → β} {r : Except Exc α} {b : β} : f <$> r = .ok b ↔ ∃ a, r = .ok a ∧ f a = b := map_eq_ok

/-- The keys of the fields in order. -/
theorem keys_sortBy {α β : Type} (g : α → β) (fields : List (String × α)) :
    (((sortBy Prod.fst fields).map fun f => (f.1, g f.2)).map Prod.fst).Nodup ↔ (fields.map Prod.fst).Nodup := by
  have hkeys : ((sortBy Prod.fst fields).map fun f => (f.1, g f.2)).map Prod.fst = (sortBy Prod.fst fields).map Prod.fst := by
    rw [List.map_map]
    rfl
  rw [hkeys]
  exact ((perm_sortBy Prod.fst fields).map Prod.fst).nodup_iff

theorem mapM_eq_ok {α β : Type} {f : α → Except Exc β} {g : α → β} {l : List α} :
    l.mapM f = .ok (l.map g) ↔ ∀ a ∈ l, f a = .ok (g a) := by
  induction l with
  | nil => simp [pure, Except.pure]
  | cons a l ih =>
    rw [List.mapM_cons, List.map_cons, List.forall_mem_cons, ← ih]
    constructor
    · intro h
      obtain ⟨b, hb, h⟩ := bind_eq_ok.mp h
      obtain ⟨bs, hbs, h⟩ := bind_eq_ok.mp h
      obtain ⟨rfl, rfl⟩ := List.cons.inj (Except.ok.inj h)
      exact ⟨hb, hbs⟩
    · rintro ⟨ha, hl⟩
      rw [ha, bind_ok, hl]
      rfl

theorem sound_arr {items : List Json} : Sound x (.arr items) ↔ ∀ v ∈ items, Sound x v := by
  rw [Sound, check_arr, normal_arr, map_ok]
  constructor
  · rintro ⟨ws, hws, heq⟩
    rw [Json.arr.inj heq] at hws
    exact mapM_eq_ok.mp hws
  · exact fun h => ⟨_, mapM_eq_ok.mpr h, rfl⟩

theorem sound_obj {fields : List (String × Json)} :
    Sound x (.obj fields) ↔ (fields.map Prod.fst).Nodup ∧ ∀ f ∈ fields, Sound x f.2 := by
  have hall : (∀ f ∈ sortBy Prod.fst fields, (fun v => (f.1, v)) <$> check x f.2 = .ok (f.1, normal x f.2)) ↔
      ∀ f ∈ fields, Sound x f.2 := by
    constructor
    · intro h f hf
      obtain ⟨v, hv, heq⟩ := map_ok.mp (h f ((perm_sortBy Prod.fst fields).mem_iff.mpr hf))
      rw [Sound, hv, (Prod.mk.inj heq).2]
    · intro h f hf
      rw [h f ((perm_sortBy Prod.fst fields).mem_iff.mp hf)]
      rfl
  rw [Sound, check_obj, normal_obj]
  constructor
  · intro h
    obtain ⟨fs, hfs, hunique⟩ := bind_eq_ok.mp h
    obtain ⟨hnodup, heq⟩ := uniqueObject_ok.mp hunique
    rw [← Json.obj.inj heq] at hfs hnodup
    exact ⟨(keys_sortBy _ _).mp hnodup, hall.mp (mapM_eq_ok.mp hfs)⟩
  · rintro ⟨hnodup, hfields⟩
    rw [mapM_eq_ok.mpr (hall.mpr hfields), bind_ok]
    exact uniqueObject_ok.mpr ⟨(keys_sortBy _ _).mpr hnodup, rfl⟩

/-- Nothing else is read back than the document in normal form. -/
theorem normal_of_check {v w : Json} (h : check x v = .ok w) : w = normal x v := by
  induction v using Json.induct generalizing w with
  | null => exact (Except.ok.inj h).symm
  | bool b => exact (Except.ok.inj h).symm
  | int n =>
    rw [check] at h
    split at h
    · cases h
    · exact (Except.ok.inj h).symm
  | float literal => exact (Except.ok.inj h).symm
  | str s => exact (Except.ok.inj h).symm
  | arr items ih =>
    rw [check_arr, map_ok] at h
    obtain ⟨ws, hws, rfl⟩ := h
    rw [normal_arr, mapM_eq_map (fun v hv w hw => ih v hv hw) hws]
  | obj fields ih =>
    rw [check_obj] at h
    obtain ⟨fs, hfs, hunique⟩ := bind_eq_ok.mp h
    obtain ⟨-, rfl⟩ := uniqueObject_ok.mp hunique
    rw [normal_obj, mapM_eq_map (fun f hf w hw => ?_) hfs]
    obtain ⟨v, hv, rfl⟩ := map_ok.mp hw
    rw [ih f ((perm_sortBy Prod.fst fields).mem_iff.mp hf) hv]

theorem sortBy_sortBy {α : Type} (fields : List (String × α)) : sortBy Prod.fst (sortBy Prod.fst fields) = sortBy Prod.fst fields :=
  (sortBy_eq_iff Prod.fst).mpr fun k => part_sortBy Prod.fst k fields

/-- The normal form is written the same. -/
theorem print_normal (v : Json) : print x (normal x v) = print x v := by
  induction v using Json.induct with
  | null => rfl
  | bool b => rfl
  | int n => rfl
  | float literal => rw [normal, print, print, x.stable]
  | str s => rfl
  | arr items ih =>
    have hitems : items.map (print x ∘ normal x) = items.map (print x) := List.map_congr_left ih
    rw [normal_arr, print_arr, print_arr, List.map_map, hitems]
  | obj fields ih =>
    have hfields : (sortBy Prod.fst fields).map (member x ∘ fun f => (f.1, normal x f.2)) = (sortBy Prod.fst fields).map (member x) := by
      refine List.map_congr_left fun f hf => ?_
      show member x (f.1, normal x f.2) = member x f
      rw [member, ih f ((perm_sortBy Prod.fst fields).mem_iff.mp hf), member]
    rw [normal_obj, print_obj, print_obj, sortBy_values, sortBy_sortBy, List.map_map, hfields]

/-! ## What is read -/

theorem skip_length (cs : List Char) : (skip cs).length ≤ cs.length := (List.dropWhile_suffix isBlank).length_le

theorem readHex4_length {cs rest : List Char} {n : Nat} (h : readHex4 cs = .ok (n, rest)) : rest.length < cs.length := by
  unfold readHex4 at h
  split at h
  · split at h
    · obtain ⟨-, rfl⟩ := Prod.mk.inj (Except.ok.inj h)
      simp only [List.length_cons]
      omega
    · cases h
  · cases h

theorem readUnicode_length {cs rest : List Char} {c : Char} (h : readUnicode cs = .ok (c, rest)) : rest.length < cs.length := by
  obtain ⟨high, hhigh, h⟩ := bind_eq_ok.mp h
  have hlength := readHex4_length hhigh
  split at h
  · split at h
    next low hbehind =>
      obtain ⟨second, hsecond, h⟩ := bind_eq_ok.mp h
      have hlength' := readHex4_length hsecond
      rw [hbehind] at hlength
      simp only [List.length_cons] at hlength
      split at h
      · obtain ⟨-, rfl⟩ := Prod.mk.inj (Except.ok.inj h)
        omega
      · cases h
    next => cases h
  · split at h
    · cases h
    · obtain ⟨-, rfl⟩ := Prod.mk.inj (Except.ok.inj h)
      exact hlength

theorem readEscape_length {cs rest : List Char} {c : Char} (h : readEscape cs = .ok (c, rest)) : rest.length < cs.length := by
  cases cs with
  | nil => cases h
  | cons e cs =>
    rw [readEscape] at h
    split at h
    · exact Nat.lt_succ_of_lt (readUnicode_length h)
    · split at h
      · obtain ⟨-, rfl⟩ := Prod.mk.inj (Except.ok.inj h)
        exact Nat.lt_succ_self _
      · cases h

theorem readChar_length {cs rest : List Char} {c d : Char} (h : readChar c cs = .ok (d, rest)) : rest.length ≤ cs.length := by
  unfold readChar at h
  split at h
  · exact (readEscape_length h).le
  · split at h
    · cases h
    · rw [(Prod.mk.inj (Except.ok.inj h)).2]

theorem readString_length {n : Nat} {cs s rest : List Char} (h : readString n cs = .ok (s, rest)) : rest.length < cs.length := by
  induction n generalizing cs s rest with
  | zero => cases h
  | succ n ih =>
    cases cs with
    | nil => cases h
    | cons c cs =>
      rw [readString] at h
      split at h
      · obtain ⟨-, rfl⟩ := Prod.mk.inj (Except.ok.inj h)
        exact Nat.lt_succ_self _
      · obtain ⟨r, hr, h⟩ := bind_eq_ok.mp h
        obtain ⟨s', hs', h⟩ := bind_eq_ok.mp h
        obtain ⟨-, rfl⟩ := Prod.mk.inj (Except.ok.inj h)
        have hrest := ih hs'
        have hfirst : r.2.length ≤ cs.length := readChar_length hr
        rw [List.length_cons]
        omega

theorem readWhole_ok {cs w rest : List Char} (h : readWhole cs = some (w, rest)) :
    Decimal.Numeral w ∧ rest.length < cs.length := by
  cases cs with
  | nil => cases h
  | cons c cs =>
    rw [readWhole] at h
    split at h
    · obtain ⟨rfl, rfl⟩ := Prod.mk.inj (Option.some.inj h)
      exact ⟨⟨by simp, by simp [Decimal.IsDigit]⟩, Nat.lt_succ_self _⟩
    · split at h
      next hc =>
        obtain ⟨rfl, rfl⟩ := Prod.mk.inj (Option.some.inj h)
        have hdigit : ∀ d, isDigit d = true → Decimal.IsDigit d := by
          intro d hd
          simpa [isDigit, Decimal.IsDigit] using hd
        refine ⟨⟨by simp, fun d hd => ?_⟩, Nat.lt_succ_of_le (List.dropWhile_suffix isDigit).length_le⟩
        rcases List.mem_cons.mp hd with rfl | hd
        · exact hdigit d hc
        · exact hdigit d (List.all_eq_true.mp List.all_takeWhile d hd)
      next => cases h

theorem withDigits_length {front cs otherwise : List Char} (h : cs.length ≤ otherwise.length) :
    (withDigits front cs otherwise).2.length ≤ otherwise.length := by
  unfold withDigits
  split
  · exact le_rfl
  · exact (List.dropWhile_suffix isDigit).length_le.trans h

theorem readFraction_length (cs : List Char) : (readFraction cs).2.length ≤ cs.length := by
  cases cs with
  | nil => exact le_rfl
  | cons c cs =>
    rw [readFraction]
    split
    · exact withDigits_length (Nat.le_succ _)
    · exact le_rfl

theorem readExponent_length (cs : List Char) : (readExponent cs).2.length ≤ cs.length := by
  have hsign : ∀ cs, (readSign cs).2.length ≤ cs.length := by
    intro cs
    cases cs with
    | nil => exact le_rfl
    | cons c cs =>
      rw [readSign]
      split
      · exact Nat.le_succ _
      · exact le_rfl
  cases cs with
  | nil => exact le_rfl
  | cons c cs =>
    rw [readExponent]
    split
    · exact withDigits_length ((hsign cs).trans (Nat.le_succ _))
    · exact le_rfl

/-- An integer that is read has no more digits than its text. -/
theorem sound_number {sign whole fraction exponent : List Char} {v : Json} (hwhole : Decimal.Numeral whole)
    (h : numberOf sign whole fraction exponent = .ok v) : Sound x v := by
  unfold numberOf at h
  split at h
  · split at h
    · cases h
    next hdigits =>
      obtain rfl := Except.ok.inj h
      have hfew := Decimal.length_toDigits_value hwhole
      rw [Sound, check, normal, if_neg]
      split
      · rw [Int.natAbs_natCast]
        omega
      · rw [Int.natAbs_neg, Int.natAbs_natCast]
        omega
  · obtain rfl := Except.ok.inj h
    rfl

theorem readNumber_ok {cs rest : List Char} {v : Json} (h : readNumber cs = .ok (v, rest)) :
    Sound x v ∧ rest.length < cs.length := by
  rw [readNumber] at h
  split at h
  · cases h
  next w hw =>
    obtain ⟨hnumeral, hlength⟩ : Decimal.Numeral w.1 ∧ w.2.length < (cs.drop _).length := readWhole_ok hw
    rw [List.length_drop] at hlength
    have hfraction := readFraction_length w.2
    have hexponent := readExponent_length (readFraction w.2).2
    obtain ⟨v', hv, heq⟩ := map_ok.mp h
    obtain ⟨rfl, rfl⟩ := Prod.mk.inj heq
    exact ⟨sound_number hnumeral hv, by omega⟩

theorem readScalar_ok {cs rest : List Char} {v : Json} (h : readScalar cs = .ok (v, rest)) :
    Sound x v ∧ rest.length < cs.length := by
  rw [readScalar] at h
  split at h
  next l hl =>
    obtain ⟨rfl, rfl⟩ := Prod.mk.inj (Except.ok.inj h)
    have hmem := List.mem_of_find?_eq_some hl
    have hbegins : l.1.isPrefixOf cs = true := by simpa using List.find?_some hl
    have hprefix : l.1.length ≤ cs.length := (List.isPrefixOf_iff_prefix.mp hbegins).length_le
    have hsound : ∀ l ∈ literals, Sound x l.2 ∧ 0 < l.1.length := by
      intro l hl
      simp only [literals, constants, List.map_cons, List.map_nil, List.cons_append, List.nil_append, List.mem_cons,
        List.not_mem_nil, or_false] at hl
      rcases hl with rfl | rfl | rfl | rfl | rfl | rfl <;> exact ⟨rfl, by decide⟩
    have hpos := (hsound l hmem).2
    exact ⟨(hsound l hmem).1, by rw [List.length_drop]; omega⟩
  next => exact readNumber_ok h

/-- What is read is sound, and takes something of the text. -/
theorem read_ok (n : Nat) :
    (∀ cs v rest, readValue n cs = .ok (v, rest) → Sound x v ∧ rest.length < cs.length) ∧
    (∀ cs vs rest, readItems n cs = .ok (vs, rest) → (∀ v ∈ vs, Sound x v) ∧ rest.length < cs.length) ∧
    (∀ cs fs rest, readFields n cs = .ok (fs, rest) → (∀ f ∈ fs, Sound x f.2) ∧ rest.length < cs.length) := by
  induction n with
  | zero =>
    refine ⟨?_, ?_, ?_⟩ <;>
      · intro cs v rest h
        simp only [readValue, readItems, readFields] at h
        cases h
  | succ n ih =>
    obtain ⟨ihvalue, ihitems, ihfields⟩ := ih
    refine ⟨?_, ?_, ?_⟩
    · intro cs v rest h
      cases cs with
      | nil =>
        rw [readValue] at h
        · cases h
        · simp
      | cons c cs =>
        have hskip := skip_length cs
        rw [readValue] at h
        split at h
        · obtain ⟨s, hs, h⟩ := bind_eq_ok.mp h
          obtain ⟨rfl, rfl⟩ := Prod.mk.inj (Except.ok.inj h)
          exact ⟨rfl, Nat.lt_succ_of_lt (readString_length hs)⟩
        · split at h
          · split at h
            · obtain ⟨rfl, rfl⟩ := Prod.mk.inj (Except.ok.inj h)
              refine ⟨rfl, ?_⟩
              rw [List.length_tail, List.length_cons]
              omega
            · obtain ⟨items, hitems, h⟩ := bind_eq_ok.mp h
              obtain ⟨rfl, rfl⟩ := Prod.mk.inj (Except.ok.inj h)
              obtain ⟨hsound, hlength⟩ := ihitems _ _ _ hitems
              refine ⟨sound_arr.mpr hsound, ?_⟩
              rw [List.length_cons]
              omega
          · split at h
            · split at h
              · obtain ⟨rfl, rfl⟩ := Prod.mk.inj (Except.ok.inj h)
                refine ⟨rfl, ?_⟩
                rw [List.length_tail, List.length_cons]
                omega
              · obtain ⟨fields, hfields, h⟩ := bind_eq_ok.mp h
                obtain ⟨value, hvalue, h⟩ := bind_eq_ok.mp h
                obtain ⟨rfl, rfl⟩ := Prod.mk.inj (Except.ok.inj h)
                obtain ⟨hnodup, rfl⟩ := uniqueObject_ok.mp hvalue
                obtain ⟨hsound, hlength⟩ := ihfields _ _ _ hfields
                refine ⟨sound_obj.mpr ⟨hnodup, hsound⟩, ?_⟩
                rw [List.length_cons]
                omega
            · exact readScalar_ok h
    · intro cs vs rest h
      rw [readItems] at h
      obtain ⟨v, hv, h⟩ := bind_eq_ok.mp h
      obtain ⟨hsound, hlength⟩ := ihvalue _ _ _ hv
      have hskip := skip_length v.2
      split at h
      next rest' hbehind =>
        obtain ⟨rfl, rfl⟩ := Prod.mk.inj (Except.ok.inj h)
        rw [hbehind, List.length_cons] at hskip
        exact ⟨by simpa using hsound, by omega⟩
      next rest' hbehind =>
        obtain ⟨items, hitems, h⟩ := bind_eq_ok.mp h
        obtain ⟨rfl, rfl⟩ := Prod.mk.inj (Except.ok.inj h)
        obtain ⟨hsounds, hlength'⟩ := ihitems _ _ _ hitems
        have hskip' := skip_length rest'
        rw [hbehind, List.length_cons] at hskip
        exact ⟨List.forall_mem_cons.mpr ⟨hsound, hsounds⟩, by omega⟩
      next => cases h
    · intro cs fs rest h
      rw [readFields.eq_def] at h
      dsimp only at h
      split at h
      next cs' =>
        obtain ⟨key, hkey, h⟩ := bind_eq_ok.mp h
        have hkeylength := readString_length hkey
        have hskipkey := skip_length key.2
        split at h
        next rest' hbehind =>
          obtain ⟨v, hv, h⟩ := bind_eq_ok.mp h
          obtain ⟨hsound, hlength⟩ := ihvalue _ _ _ hv
          have hskipvalue := skip_length rest'
          have hskip := skip_length v.2
          rw [hbehind, List.length_cons] at hskipkey
          rw [List.length_cons]
          split at h
          next rest'' hbehind' =>
            obtain ⟨rfl, rfl⟩ := Prod.mk.inj (Except.ok.inj h)
            rw [hbehind', List.length_cons] at hskip
            exact ⟨by simpa using hsound, by omega⟩
          next rest'' hbehind' =>
            obtain ⟨fields, hfields, h⟩ := bind_eq_ok.mp h
            obtain ⟨rfl, rfl⟩ := Prod.mk.inj (Except.ok.inj h)
            obtain ⟨hsounds, hlength'⟩ := ihfields _ _ _ hfields
            have hskip' := skip_length rest''
            rw [hbehind', List.length_cons] at hskip
            exact ⟨List.forall_mem_cons.mpr ⟨hsound, hsounds⟩, by omega⟩
          next => cases h
        next => cases h
      next => cases h

end Hermes.JsonText

import Mathlib.Data.List.Infix

/- Replacing texts one after another by one mark.

   After a text has been replaced it occurs across marks at most, never in a run between them
   (`Replaced.not_exposed`). A later replacement can take a part of a mark away and so uncover
   the rest of it; where what is uncovered cannot be a part of the earlier text, that one stays
   hidden (`Replaced.exposed`), and so does every one of a list (`fold_not_exposed`). -/
namespace Replacement

variable {α : Type} {mark v w t u : List α}

/-- The occurrence of `v` between `a` and `b` meets no mark. -/
def Clear (mark a v b : List α) : Prop :=
  ∀ x y, a ++ v ++ b = x ++ mark ++ y → x.length + mark.length ≤ a.length ∨ a.length + v.length ≤ x.length

/-- Somewhere in the text `v` occurs and meets no mark. -/
def Exposed (mark v t : List α) : Prop := ∃ a b, t = a ++ v ++ b ∧ Clear mark a v b

/-- Occurrences of `w` are replaced from the left, and what is between them has none. -/
inductive Replaced (mark w : List α) : List α → List α → Prop
  | rest (gap : List α) (hgap : ¬w <:+: gap) : Replaced mark w gap gap
  | hit (gap : List α) {t u : List α} (hgap : ¬w <:+: gap) (h : Replaced mark w t u) :
      Replaced mark w (gap ++ w ++ t) (gap ++ mark ++ u)

/-- What a match of `w` that takes a part of a mark leaves of it is no part of `v`. -/
structure Apart (mark v w : List α) : Prop where
  /-- `w` takes the mark from `p` on, and `v` ends `b` into what is left before it -/
  left : ∀ p b, 0 < b → b ≤ p → p < mark.length → (mark.drop p <+: w ∨ w <+: mark.drop p) →
    ¬(mark.take b <:+ v ∨ v <:+ mark.take b)
  /-- `w` takes the mark up to `q`, and `v` begins at `a` in what is left after it -/
  right : ∀ q a, 0 < q → q ≤ a → a < mark.length → (mark.take q <:+ w ∨ w <:+ mark.take q) →
    ¬(mark.drop a <+: v ∨ v <+: mark.drop a)

/-! ## One replacement -/

/-- What is clear in the whole text is clear in a part of it. -/
theorem Clear.part {l a b r : List α} (h : Clear mark (l ++ a) v (b ++ r)) : Clear mark a v b := by
  intro x y hxy
  have hwhole : (l ++ a) ++ v ++ (b ++ r) = (l ++ x) ++ mark ++ (y ++ r) := by
    calc (l ++ a) ++ v ++ (b ++ r) = l ++ (a ++ v ++ b) ++ r := by simp only [List.append_assoc]
      _ = l ++ (x ++ mark ++ y) ++ r := by rw [hxy]
      _ = _ := by simp only [List.append_assoc]
  have := h _ _ hwhole
  simp only [List.length_append] at this
  omega

/-- An exposed text is in one of the gaps that were there before. -/
theorem Replaced.gap (h : Replaced mark w t u) (hu : Exposed mark v u) :
    ∃ l a b r, t = l ++ (a ++ v ++ b) ++ r ∧ (l = [] ∨ w <:+ l) ∧ (r = [] ∨ w <+: r) ∧ Clear mark a v b ∧
      ¬w <:+: a ++ v ++ b := by
  induction h with
  | rest gap hgap =>
    obtain ⟨a, b, rfl, hclear⟩ := hu
    exact ⟨[], a, b, [], by simp, Or.inl rfl, Or.inl rfl, hclear, hgap⟩
  | hit gap hgap h ih =>
    next t u =>
    obtain ⟨a, b, heq, hclear⟩ := hu
    rcases hclear gap u heq.symm with hlength | hlength
    · -- after the mark
      have hwhole : a <+: gap ++ mark ++ u := by
        rw [heq, List.append_assoc]
        exact List.prefix_append _ _
      have hstart : gap ++ mark <+: a :=
        List.prefix_of_prefix_length_le (List.prefix_append _ _) hwhole (by simpa using hlength)
      obtain ⟨a', rfl⟩ := hstart
      have hu' : u = a' ++ v ++ b := by
        simp only [List.append_assoc, List.append_cancel_left_eq] at heq
        simpa using heq
      have hclear' : Clear mark ((gap ++ mark) ++ a') v (b ++ []) := by simpa using hclear
      obtain ⟨l, c, d, r, rfl, hl, hr, hcd, hno⟩ := ih ⟨a', b, hu', hclear'.part⟩
      refine ⟨gap ++ w ++ l, c, d, r, by simp only [List.append_assoc], Or.inr ?_, hr, hcd, hno⟩
      rcases hl with rfl | hl
      · exact ⟨gap, by simp⟩
      · exact hl.trans (List.suffix_append _ _)
    · -- before it
      have hwhole : a ++ v <+: gap ++ (mark ++ u) := by
        rw [← List.append_assoc, heq]
        exact List.prefix_append _ _
      have hend : a ++ v <+: gap :=
        List.prefix_of_prefix_length_le hwhole (List.prefix_append _ _) (by simpa using hlength)
      obtain ⟨d, rfl⟩ := hend
      have hb : b = d ++ (mark ++ u) := by
        simp only [List.append_assoc, List.append_cancel_left_eq] at heq
        exact heq.symm
      have hclear' : Clear mark ([] ++ a) v (d ++ (mark ++ u)) := by
        rw [← hb]
        exact hclear
      exact ⟨[], a, d, w ++ t, by simp, Or.inl rfl, Or.inr (List.prefix_append _ _), hclear'.part, hgap⟩

/-- One more element before a text, where no match begins. -/
theorem Replaced.cons {c : α} (h : Replaced mark w t u) (hno : ¬w <+: c :: t) : Replaced mark w (c :: t) (c :: u) := by
  have hgap : ∀ {gap rest : List α}, ¬w <:+: gap → ¬w <+: c :: (gap ++ rest) → ¬w <:+: c :: gap := by
    intro gap rest hin hpre hwithin
    rcases List.infix_cons_iff.mp hwithin with hinitial | hwithin
    · exact hpre (hinitial.trans ⟨rest, rfl⟩)
    · exact hin hwithin
  cases h with
  | rest gap hin => exact .rest (c :: t) (hgap hin (by rwa [List.append_nil]))
  | hit gap hin h =>
    rw [List.append_assoc] at hno
    exact .hit (c :: gap) (hgap hin hno) h

/-- A text that has just been replaced is not exposed. -/
theorem Replaced.not_exposed (h : Replaced mark w t u) : ¬Exposed mark w u := by
  intro hu
  obtain ⟨_, a, b, _, _, _, _, _, hno⟩ := h.gap hu
  exact hno ⟨a, b, rfl⟩

theorem take_within {x y : List α} {k : Nat} (hk : k ≤ mark.length) :
    (x ++ mark ++ y).take (x.length + k) = x ++ mark.take k := by
  rw [List.append_assoc, List.take_length_add_append, List.take_append_of_le_length hk]

theorem drop_within {x y : List α} {k : Nat} (hk : k ≤ mark.length) :
    (x ++ mark ++ y).drop (x.length + k) = mark.drop k ++ y := by
  rw [List.append_assoc, List.drop_length_add_append, List.drop_append_of_le_length hk]

/-- A text comes to light by a replacement of another one only where the two reach into one mark. -/
theorem Replaced.exposed (h : Replaced mark w t u) (hv : v ≠ []) (hapart : Apart mark v w) (hu : Exposed mark v u) :
    Exposed mark v t := by
  obtain ⟨l, a, b, r, rfl, hl, hr, hclear, _⟩ := h.gap hu
  refine ⟨l ++ a, b ++ r, by simp only [List.append_assoc], ?_⟩
  intro x y hxy
  have hpos : 0 < v.length := List.length_pos_iff.mpr hv
  by_contra hmeet
  simp only [List.length_append, not_or, not_le] at hmeet
  obtain ⟨hbefore, hafter⟩ := hmeet
  by_cases hright : l.length + (a ++ v ++ b).length < x.length + mark.length
  · -- the mark ends in the match on the right: `v` ends in what is left before it
    obtain ⟨p, hp⟩ : ∃ p, l.length + (a ++ v ++ b).length = x.length + p := ⟨_, (Nat.add_sub_of_le (by simp; omega)).symm⟩
    obtain ⟨e, he⟩ : ∃ e, l.length + a.length + v.length = x.length + e := ⟨_, (Nat.add_sub_of_le (by omega)).symm⟩
    simp only [List.length_append] at hp hright
    have hrest : r = mark.drop p ++ y := by
      have htext : l ++ a ++ v ++ (b ++ r) = (l ++ (a ++ v ++ b)) ++ r := by simp only [List.append_assoc]
      have hdrop := congrArg (List.drop (x.length + p)) hxy
      rw [htext, drop_within (by omega), List.drop_left' (by simp; omega)] at hdrop
      exact hdrop
    have hend : l ++ a ++ v = x ++ mark.take e := by
      have htake := congrArg (List.take (x.length + e)) hxy
      rw [take_within (by omega), List.take_left' (by simp; omega)] at htake
      exact htake
    have hne : r ≠ [] := by
      rw [hrest]
      intro hnil
      have hlength := congrArg List.length (List.append_eq_nil_iff.mp hnil).1
      rw [List.length_drop, List.length_nil] at hlength
      omega
    have hmatch := hr.resolve_left hne
    have hreach : mark.drop p <+: w ∨ w <+: mark.drop p :=
      List.prefix_or_prefix_of_prefix (hrest ▸ List.prefix_append _ _) hmatch
    have hlast : mark.take e <:+ l ++ a ++ v := hend ▸ List.suffix_append _ _
    have hcover : mark.take e <:+ v ∨ v <:+ mark.take e :=
      List.suffix_or_suffix_of_suffix hlast (List.suffix_append _ _)
    exact hapart.left p e (by omega) (by omega) (by omega) hreach hcover
  · by_cases hleft : x.length < l.length
    · -- it begins in the match on the left: `v` begins in what is left after it
      obtain ⟨q, hq⟩ : ∃ q, l.length = x.length + q := ⟨_, (Nat.add_sub_of_le (by omega)).symm⟩
      obtain ⟨s, hs⟩ : ∃ s, l.length + a.length = x.length + s := ⟨_, (Nat.add_sub_of_le (by omega)).symm⟩
      have hstart : l = x ++ mark.take q := by
        have htext : l ++ a ++ v ++ (b ++ r) = l ++ (a ++ v ++ (b ++ r)) := by simp only [List.append_assoc]
        have htake := congrArg (List.take (x.length + q)) hxy
        rw [htext, take_within (by omega), List.take_left' hq] at htake
        exact htake
      have hrest : v ++ (b ++ r) = mark.drop s ++ y := by
        have htext : l ++ a ++ v ++ (b ++ r) = (l ++ a) ++ (v ++ (b ++ r)) := by simp only [List.append_assoc]
        have hdrop := congrArg (List.drop (x.length + s)) hxy
        rw [htext, drop_within (by omega), List.drop_left' (by simp; omega)] at hdrop
        exact hdrop
      have hne : l ≠ [] := by
        rintro rfl
        simp at hleft
      have hmatch := hl.resolve_left hne
      have hreach : mark.take q <:+ w ∨ w <:+ mark.take q :=
        List.suffix_or_suffix_of_suffix (hstart ▸ List.suffix_append _ _) hmatch
      have hfirst : mark.drop s <+: v ++ (b ++ r) := hrest ▸ List.prefix_append _ _
      have hcover : mark.drop s <+: v ∨ v <+: mark.drop s :=
        List.prefix_or_prefix_of_prefix hfirst (List.prefix_append _ _)
      exact hapart.right q s (by omega) (by omega) (by omega) hreach hcover
    · -- it is in the gap
      obtain ⟨k, hk⟩ : ∃ k, x.length = l.length + k := ⟨_, (Nat.add_sub_of_le (by omega)).symm⟩
      simp only [List.length_append, not_lt] at hright
      have hwhole : l <+: x ++ (mark ++ y) := by
        rw [← List.append_assoc, ← hxy]
        simp only [List.append_assoc]
        exact List.prefix_append _ _
      have hx : l <+: x := List.prefix_of_prefix_length_le hwhole (List.prefix_append _ _) (by omega)
      obtain ⟨x', rfl⟩ := hx
      have hgap : a ++ v ++ b ++ r = x' ++ mark ++ y := by
        simp only [List.append_assoc, List.append_cancel_left_eq] at hxy ⊢
        exact hxy
      have hpart : a ++ v ++ b <+: x' ++ mark ++ y := hgap ▸ List.prefix_append _ _
      have hinside : x' ++ mark <+: a ++ v ++ b := by
        refine List.prefix_of_prefix_length_le (List.prefix_append _ _) hpart ?_
        simp only [List.length_append] at hright ⊢
        omega
      obtain ⟨y', hy'⟩ := hinside
      have := hclear x' y' hy'.symm
      simp only [List.length_append] at hbefore hafter
      omega

/-! ## Runs between marks -/

/-- A part of the text between two marks or an end, without one inside. -/
def IsRun (mark t r : List α) : Prop :=
  ∃ a b, t = a ++ r ++ b ∧ (a = [] ∨ mark <:+ a) ∧ (b = [] ∨ mark <+: b) ∧ ¬mark <:+: r

/-- Two occurrences of the mark cannot overlap. -/
def Unbordered (mark : List α) : Prop := ∀ k, 0 < k → k < mark.length → mark.drop k ≠ mark.take (mark.length - k)

theorem Unbordered.apart (h : Unbordered mark) {x y x' y' : List α} (heq : x ++ mark ++ y = x' ++ mark ++ y')
    (hlt : x.length < x'.length) : x.length + mark.length ≤ x'.length := by
  by_contra hoverlap
  obtain ⟨k, hk⟩ : ∃ k, x'.length = x.length + k := ⟨_, (Nat.add_sub_of_le (by omega)).symm⟩
  refine h k (by omega) (by omega) ?_
  have hdrop : mark.drop k ++ y = mark ++ y' := by
    have hcut := congrArg (List.drop (x.length + k)) heq
    rw [drop_within (by omega), List.append_assoc, List.drop_left' hk] at hcut
    exact hcut
  have htake := congrArg (List.take (mark.length - k)) hdrop
  rw [List.take_left' (by simp), List.take_append_of_le_length (by omega)] at htake
  exact htake

/-- What occurs in a run meets no mark. -/
theorem exposed_of_run (hm : Unbordered mark) {r : List α} (hrun : IsRun mark t r) (hv : v <:+: r) (hne : v ≠ []) :
    Exposed mark v t := by
  obtain ⟨a, b, rfl, ha, hb, hno⟩ := hrun
  obtain ⟨c, d, rfl⟩ := hv
  have hpos : 0 < v.length := List.length_pos_iff.mpr hne
  refine ⟨a ++ c, d ++ b, by simp only [List.append_assoc], ?_⟩
  intro x y hxy
  by_contra hmeet
  simp only [List.length_append, not_or, not_le] at hmeet
  obtain ⟨hbefore, hafter⟩ := hmeet
  by_cases hleft : x.length < a.length
  · -- it would overlap the mark before the run
    have hane : a ≠ [] := by
      rintro rfl
      simp at hleft
    obtain ⟨a', rfl⟩ := ha.resolve_left hane
    have htext : a' ++ mark ++ (c ++ v ++ (d ++ b)) = x ++ mark ++ y := by
      rw [← hxy]
      simp only [List.append_assoc]
    simp only [List.length_append] at hleft hbefore
    have := hm.apart htext (by omega)
    omega
  · by_cases hright : a.length + (c ++ v ++ d).length < x.length + mark.length
    · -- it would overlap the mark after it
      have hbne : b ≠ [] := by
        rintro rfl
        have hlength := congrArg List.length hxy
        simp only [List.length_append, List.length_nil] at hlength hright
        omega
      obtain ⟨b', rfl⟩ := hb.resolve_left hbne
      have htext : x ++ mark ++ y = (a ++ (c ++ v ++ d)) ++ mark ++ b' := by
        rw [← hxy]
        simp only [List.append_assoc]
      simp only [List.length_append] at hright
      have := hm.apart htext (by simp only [List.length_append]; omega)
      simp only [List.length_append] at this
      omega
    · -- it would be inside
      apply hno
      have hwhole : a <+: x ++ (mark ++ y) := by
        rw [← List.append_assoc, ← hxy]
        simp only [List.append_assoc]
        exact List.prefix_append _ _
      have hx : a <+: x := List.prefix_of_prefix_length_le hwhole (List.prefix_append _ _) (by omega)
      obtain ⟨x', rfl⟩ := hx
      have hgap : (c ++ v ++ d) ++ b = x' ++ mark ++ y := by
        simp only [List.append_assoc, List.append_cancel_left_eq] at hxy ⊢
        exact hxy
      have hpart : c ++ v ++ d <+: x' ++ mark ++ y := hgap ▸ List.prefix_append _ _
      have hinside : x' ++ mark <+: c ++ v ++ d := by
        refine List.prefix_of_prefix_length_le (List.prefix_append _ _) hpart ?_
        simp only [List.length_append, not_lt] at hright ⊢
        omega
      obtain ⟨y', hy'⟩ := hinside
      exact ⟨x', y', hy'⟩

/-! ## A list of replacements -/

section
variable {replace : List α → List α → List α} (hreplace : ∀ w t, w ≠ [] → Replaced mark w t (replace w t))

include hreplace

/-- What is hidden stays hidden while texts apart from it are replaced. -/
theorem fold_hidden {ws : List (List α)} (hv : v ≠ []) (hws : ∀ w ∈ ws, w ≠ [] ∧ Apart mark v w) (t : List α)
    (ht : ¬Exposed mark v t) : ¬Exposed mark v (ws.foldl (fun t w => replace w t) t) := by
  induction ws generalizing t with
  | nil => exact ht
  | cons w ws ih =>
    obtain ⟨hw, hapart⟩ := hws w (by simp)
    exact ih (fun w' hw' => hws w' (by simp [hw'])) _ fun hu => ht ((hreplace w t hw).exposed hv hapart hu)

/-- Replacing texts of which none is uncovered by a later one hides them all. -/
theorem fold_not_exposed {ws : List (List α)} (hne : ∀ w ∈ ws, w ≠ []) (hapart : ws.Pairwise (Apart mark)) (t : List α) :
    ∀ v ∈ ws, ¬Exposed mark v (ws.foldl (fun t w => replace w t) t) := by
  induction ws generalizing t with
  | nil => simp
  | cons w ws ih =>
    obtain ⟨hfirst, hrest⟩ := List.pairwise_cons.mp hapart
    have hw := hne w (by simp)
    intro v hv
    rcases List.mem_cons.mp hv with rfl | hv
    · exact fold_hidden hreplace hw (fun w' hw' => ⟨hne w' (by simp [hw']), hfirst w' hw'⟩) _ (hreplace v t hw).not_exposed
    · exact ih (fun w' hw' => hne w' (by simp [hw'])) hrest _ v hv

end

end Replacement

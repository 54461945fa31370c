import Mathlib.Data.List.Sort

/- A stable sort by a key. Two lists have the same sorted form exactly if they have the same
   elements of every key in the same order, so a statement about two sorted lists becomes one
   about each key alone. -/
namespace Hermes.StableSort

section

variable {α κ : Type} [LinearOrder κ] (key : α → κ)

/-- The list sorted by a key, elements of one key in the order in which they were. -/
def sortBy (l : List α) : List α := l.insertionSort fun a b => key a ≤ key b

/-- The elements of a key. -/
def part (k : κ) (l : List α) : List α := l.filter fun a => key a = k

@[simp] theorem part_nil (k : κ) : part key k ([] : List α) = [] := rfl

@[simp] theorem part_append (k : κ) (l l' : List α) : part key k (l ++ l') = part key k l ++ part key k l' :=
  List.filter_append ..

theorem part_cons_of_eq {k : κ} {a : α} (h : key a = k) (l : List α) : part key k (a :: l) = a :: part key k l :=
  List.filter_cons_of_pos (by simp [h])

theorem part_cons_of_ne {k : κ} {a : α} (h : key a ≠ k) (l : List α) : part key k (a :: l) = part key k l :=
  List.filter_cons_of_neg (by simp [h])

theorem mem_part {a : α} {k : κ} {l : List α} : a ∈ part key k l ↔ a ∈ l ∧ key a = k := by
  simp [part]

/-- A map that keeps the keys keeps the parts. -/
theorem part_map {β : Type} {key' : β → κ} {f : α → β} (h : ∀ a, key' (f a) = key a) (k : κ) (l : List α) :
    part key' k (l.map f) = (part key k l).map f := by
  induction l with
  | nil => rfl
  | cons a l ih =>
    rw [List.map_cons]
    by_cases hk : key a = k
    · rw [part_cons_of_eq key hk, part_cons_of_eq key' ((h a).trans hk), ih, List.map_cons]
    · rw [part_cons_of_ne key hk, part_cons_of_ne key' (fun hk' => hk ((h a).symm.trans hk')), ih]

theorem part_flatMap_congr {β : Type} {f g : β → List α} {k : κ} {bs : List β}
    (h : ∀ b ∈ bs, part key k (f b) = part key k (g b)) : part key k (bs.flatMap f) = part key k (bs.flatMap g) := by
  induction bs with
  | nil => rfl
  | cons b bs ih =>
    rw [List.flatMap_cons, List.flatMap_cons, part_append, part_append, h b (by simp), ih fun b' hb' => h b' (by simp [hb'])]

/-- No element has the key exactly if its part is empty. -/
theorem part_eq_nil_iff {k : κ} {l : List α} : part key k l = [] ↔ k ∉ l.map key := by
  simp [part, List.filter_eq_nil_iff]

instance total_key : Std.Total (fun a b : α => key a ≤ key b) := ⟨fun a b => le_total (key a) (key b)⟩

instance isTrans_key : IsTrans α fun a b => key a ≤ key b := ⟨fun _ _ _ hab hbc => hab.trans hbc⟩

theorem perm_sortBy (l : List α) : (sortBy key l).Perm l := List.perm_insertionSort _ _

theorem pairwise_sortBy (l : List α) : (sortBy key l).Pairwise fun a b => key a ≤ key b :=
  List.pairwise_insertionSort _ _

/-- The elements of a key keep their order. -/
theorem part_sortBy (k : κ) (l : List α) : part key k (sortBy key l) = part key k l := by
  have hpairwise : (part key k l).Pairwise fun a b => key a ≤ key b := by
    refine List.pairwise_of_forall_mem_list fun a ha b hb => ?_
    have hka : key a = k := by simpa using (List.mem_filter.mp ha).2
    have hkb : key b = k := by simpa using (List.mem_filter.mp hb).2
    exact (hka.trans hkb.symm).le
  have hsub : (part key k l).Sublist (sortBy key l) :=
    List.sublist_insertionSort hpairwise List.filter_sublist
  have hparts : (part key k l).Sublist (part key k (sortBy key l)) := by
    simpa [part, List.filter_filter] using hsub.filter fun a => decide (key a = k)
  have hlength : (part key k (sortBy key l)).length = (part key k l).length :=
    ((perm_sortBy key l).filter _).length_eq
  exact (hparts.eq_of_length hlength.symm).symm

theorem mem_iff_of_parts {l l' : List α} (h : ∀ k, part key k l = part key k l') (a : α) : a ∈ l ↔ a ∈ l' := by
  have hpart : a ∈ part key (key a) l ↔ a ∈ part key (key a) l' := by rw [h]
  simpa [mem_part] using hpart

/-- A sorted list is determined by its parts. -/
theorem eq_of_parts {l l' : List α} (hl : l.Pairwise fun a b => key a ≤ key b)
    (hl' : l'.Pairwise fun a b => key a ≤ key b) (h : ∀ k, part key k l = part key k l') : l = l' := by
  have hmem := mem_iff_of_parts key h
  induction l generalizing l' with
  | nil =>
    cases l' with
    | nil => rfl
    | cons b l' => exact absurd ((hmem b).mpr (by simp)) (by simp)
  | cons a l ih =>
    cases l' with
    | nil => exact absurd ((hmem a).mp (by simp)) (by simp)
    | cons b l' =>
      rw [List.pairwise_cons] at hl hl'
      have hab : key a ≤ key b := by
        rcases List.mem_cons.mp ((hmem b).mpr (by simp)) with hb | hb
        · rw [hb]
        · exact hl.1 b hb
      have hba : key b ≤ key a := by
        rcases List.mem_cons.mp ((hmem a).mp (by simp)) with ha | ha
        · rw [ha]
        · exact hl'.1 a ha
      -- the heads have the least key, and the part of that key starts with them
      have hkey : key a = key b := le_antisymm hab hba
      have hhead : a = b := by
        have hpart := h (key a)
        rw [part_cons_of_eq key rfl, part_cons_of_eq key hkey.symm] at hpart
        exact (List.cons.inj hpart).1
      subst hhead
      have hrest : ∀ k, part key k l = part key k l' := by
        intro k
        have hpart := h k
        by_cases hk : key a = k
        · rw [part_cons_of_eq key hk, part_cons_of_eq key hk] at hpart
          exact (List.cons.inj hpart).2
        · rwa [part_cons_of_ne key hk, part_cons_of_ne key hk] at hpart
      rw [ih hl.2 hl'.2 hrest (mem_iff_of_parts key hrest)]

/-- The order of the list matters only among elements of one key. -/
theorem sortBy_eq_iff {l l' : List α} : sortBy key l = sortBy key l' ↔ ∀ k, part key k l = part key k l' := by
  constructor
  · intro h k
    rw [← part_sortBy key k l, h, part_sortBy]
  · intro h
    refine eq_of_parts key (pairwise_sortBy key l) (pairwise_sortBy key l') fun k => ?_
    rw [part_sortBy, part_sortBy, h]

end

end Hermes.StableSort

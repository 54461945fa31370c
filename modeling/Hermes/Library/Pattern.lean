import Mathlib.Computability.Language

/- Patterns without look-around, and the backtracking search for them.

   `rests r s` lists what can be left of `s` after a match of `r` at its beginning, the
   preferred match first; `lang r` is the set of texts that `r` matches. The search is
   sound for it (`rests_sound`), so whatever `search` or `lastRest` finds in a text is an
   occurrence there, at positions that do not depend on how the text came in. -/
namespace Pattern

variable {α : Type}

/-- A pattern: a repetition is one of a class of symbols. -/
inductive Re (α : Type) where
  | lit (s : List α)
  | cls (p : α → Bool)
  | many (p : α → Bool)
  | seq (a b : Re α)
  | alt (a b : Re α)
  | opt (a : Re α)

/-- One or more of a class. -/
def Re.some (p : α → Bool) : Re α := .seq (.cls p) (.many p)

/-- What is left of a text after a literal. -/
def dropLit [DecidableEq α] : List α → List α → Option (List α)
  | [], s => some s
  | _ :: _, [] => none
  | a :: as, c :: cs => if a = c then dropLit as cs else none

/-- What can be left after symbols of a class, as many as possible first. -/
def manyRests (p : α → Bool) : List α → List (List α)
  | [] => [[]]
  | c :: cs => if p c then manyRests p cs ++ [c :: cs] else [c :: cs]

/-- What can be left of a text after a match at its beginning. -/
def rests [DecidableEq α] : Re α → List α → List (List α)
  | .lit l, s => (dropLit l s).toList
  | .cls _, [] => []
  | .cls p, c :: cs => if p c then [cs] else []
  | .many p, s => manyRests p s
  | .seq a b, s => (rests a s).flatMap (rests b)
  | .alt a b, s => rests a s ++ rests b s
  | .opt a, s => rests a s ++ [s]

/-- The texts that match. -/
def lang : Re α → Language α
  | .lit l => {l}
  | .cls p => {m | ∃ c, p c = true ∧ m = [c]}
  | .many p => {m | ∀ c ∈ m, p c = true}
  | .seq a b => lang a * lang b
  | .alt a b => lang a + lang b
  | .opt a => lang a + 1

/-- The match that is found at the beginning of a text: what it leaves. -/
def matchAt [DecidableEq α] (r : Re α) (s : List α) : Option (List α) := (rests r s).head?

/-- `re.search` -/
def search [DecidableEq α] (r : Re α) : List α → Bool
  | [] => (matchAt r []).isSome
  | c :: cs => (matchAt r (c :: cs)).isSome || search r cs

/-- What the last match of `re.finditer` leaves, over at most `n` steps. -/
def lastRest [DecidableEq α] (r : Re α) : Nat → List α → Option (List α)
  | 0, _ => none
  | n + 1, s =>
    match matchAt r s with
    | some rest => (lastRest r n rest).or (some rest)
    | none => lastRest r n s.tail

section Sound

variable [DecidableEq α]

theorem dropLit_sound : ∀ (l s rest : List α), dropLit l s = some rest → s = l ++ rest
  | [], _, _, h => Option.some.inj h
  | _ :: _, [], _, h => absurd h (by simp [dropLit])
  | a :: as, c :: cs, rest, h => by
    rw [dropLit] at h
    split at h
    · next hac => rw [hac, dropLit_sound as cs rest h]; rfl
    · exact absurd h (by simp)

omit [DecidableEq α] in
theorem manyRests_sound (p : α → Bool) (s : List α) :
    ∀ rest ∈ manyRests p s, ∃ m, s = m ++ rest ∧ ∀ c ∈ m, p c = true := by
  induction s with
  | nil => exact fun rest h => ⟨[], (List.mem_singleton.mp h).symm, by simp⟩
  | cons c cs ih =>
    intro rest h
    rw [manyRests] at h
    split at h
    · next hc =>
      obtain h | h := List.mem_append.mp h
      · obtain ⟨m, hm, hall⟩ := ih rest h
        exact ⟨c :: m, by rw [hm]; rfl, by simpa [hc] using hall⟩
      · exact ⟨[], (List.mem_singleton.mp h).symm, by simp⟩
    · exact ⟨[], (List.mem_singleton.mp h).symm, by simp⟩

/-- Whatever is left, what was taken matches. -/
theorem rests_sound (r : Re α) : ∀ s, ∀ rest ∈ rests r s, ∃ m ∈ lang r, s = m ++ rest := by
  induction r with
  | lit l =>
    intro s rest h
    exact ⟨l, rfl, dropLit_sound l s rest (by simpa [rests] using h)⟩
  | cls p =>
    intro s rest h
    cases s with
    | nil => exact absurd h (by simp [rests])
    | cons c cs =>
      rw [rests] at h
      split at h
      · next hc =>
        rw [List.mem_singleton.mp h]
        exact ⟨[c], ⟨c, hc, rfl⟩, rfl⟩
      · exact absurd h (by simp)
  | many p =>
    intro s rest h
    obtain ⟨m, hm, hall⟩ := manyRests_sound p s rest h
    exact ⟨m, hall, hm⟩
  | seq a b iha ihb =>
    intro s rest h
    obtain ⟨mid, hmid, hrest⟩ := List.mem_flatMap.mp h
    obtain ⟨m, hm, hs⟩ := iha s mid hmid
    obtain ⟨m', hm', hs'⟩ := ihb mid rest hrest
    exact ⟨m ++ m', Language.append_mem_mul hm hm', by rw [hs, hs', List.append_assoc]⟩
  | alt a b iha ihb =>
    intro s rest h
    obtain h | h := List.mem_append.mp h
    · obtain ⟨m, hm, hs⟩ := iha s rest h
      exact ⟨m, Or.inl hm, hs⟩
    · obtain ⟨m, hm, hs⟩ := ihb s rest h
      exact ⟨m, Or.inr hm, hs⟩
  | opt a iha =>
    intro s rest h
    obtain h | h := List.mem_append.mp h
    · obtain ⟨m, hm, hs⟩ := iha s rest h
      exact ⟨m, Or.inl hm, hs⟩
    · exact ⟨[], Or.inr rfl, (List.mem_singleton.mp h).symm⟩

theorem matchAt_sound {r : Re α} {s rest : List α} (h : matchAt r s = some rest) :
    ∃ m ∈ lang r, s = m ++ rest :=
  rests_sound r s rest (List.mem_of_head? h)

theorem search_sound {r : Re α} {s : List α} (h : search r s = true) :
    ∃ pre m post, m ∈ lang r ∧ s = pre ++ m ++ post := by
  induction s with
  | nil =>
    obtain ⟨rest, hrest⟩ := Option.isSome_iff_exists.mp h
    obtain ⟨m, hm, hs⟩ := matchAt_sound hrest
    exact ⟨[], m, rest, hm, hs⟩
  | cons c cs ih =>
    obtain h | h := Bool.or_eq_true _ _ ▸ h
    · obtain ⟨rest, hrest⟩ := Option.isSome_iff_exists.mp h
      obtain ⟨m, hm, hs⟩ := matchAt_sound hrest
      exact ⟨[], m, rest, hm, hs⟩
    · obtain ⟨pre, m, post, hm, hs⟩ := ih h
      exact ⟨c :: pre, m, post, hm, by rw [hs]; rfl⟩

theorem lastRest_sound {r : Re α} : ∀ (n : Nat) (s rest : List α), lastRest r n s = some rest →
    ∃ pre m, m ∈ lang r ∧ s = pre ++ m ++ rest
  | 0, _, _, h => absurd h (by simp [lastRest])
  | n + 1, s, rest, h => by
    rw [lastRest] at h
    cases hm : matchAt r s with
    | none =>
      rw [hm] at h
      obtain ⟨pre, m, hmem, hs⟩ := lastRest_sound n s.tail rest h
      cases s with
      | nil => exact ⟨pre, m, hmem, hs⟩
      | cons c cs => exact ⟨c :: pre, m, hmem, congrArg (c :: ·) hs⟩
    | some found =>
      rw [hm] at h
      replace h : (lastRest r n found).or (some found) = some rest := h
      obtain ⟨m, hmem, hs⟩ := matchAt_sound hm
      cases hlast : lastRest r n found with
      | none =>
        rw [hlast] at h
        cases Option.some.inj h
        exact ⟨[], m, hmem, hs⟩
      | some last =>
        rw [hlast] at h
        cases Option.some.inj h
        obtain ⟨pre, m', hmem', hs'⟩ := lastRest_sound n found rest hlast
        exact ⟨m ++ pre, m', hmem', by rw [hs, hs']; simp⟩

end Sound

/-! ## Occurrences -/

/-- `s` matches between the positions `i` and `j`. -/
structure Occurs (L : Language α) (s : List α) (i j : Nat) : Prop where
  order : i ≤ j
  bound : j ≤ s.length
  mem : (s.take j).drop i ∈ L

theorem Occurs.append {L : Language α} {s : List α} {i j : Nat} (h : Occurs L s i j) (t : List α) :
    Occurs L (s ++ t) i j :=
  ⟨h.order, by rw [List.length_append]; exact Nat.le_add_right_of_le h.bound,
    by rw [List.take_append_of_le_length h.bound]; exact h.mem⟩

/-- A part of a text that matches. -/
theorem occurs_part {L : Language α} {pre m : List α} (hm : m ∈ L) (post : List α) :
    Occurs L (pre ++ m ++ post) pre.length (pre.length + m.length) := by
  refine ⟨Nat.le_add_right _ _, by simp only [List.length_append]; omega, ?_⟩
  rw [← List.length_append, List.take_left, List.drop_left]
  exact hm

end Pattern

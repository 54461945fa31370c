import Mathlib.Data.List.Forall2

/- Computations that return or raise, without a state: when a sequence returns, when it raises
   an exception of a kind, and what a loop leaves. -/
namespace Outcome

variable {ε α β : Type}

theorem bind_eq_ok {x : Except ε α} {f : α → Except ε β} {b : β} :
    (x >>= f) = .ok b ↔ ∃ a, x = .ok a ∧ f a = .ok b := by
  cases x with
  | error e => simp [bind, Except.bind]
  | ok a => simp [bind, Except.bind]

/-- A sequence returns what it did, if what follows its first step does. -/
theorem bind_mono {x : Except ε α} {f g : α → Except ε β} {b : β} (hfg : ∀ a, f a = .ok b → g a = .ok b)
    (h : (x >>= f) = .ok b) : (x >>= g) = .ok b := by
  obtain ⟨a, hx, hf⟩ := bind_eq_ok.mp h
  exact bind_eq_ok.mpr ⟨a, hx, hfg a hf⟩

theorem map_eq_ok {x : Except ε α} {f : α → β} {b : β} : x.map f = .ok b ↔ ∃ a, x = .ok a ∧ f a = b := by
  cases x with
  | error e => simp [Except.map]
  | ok a => simp [Except.map]

/-- `x` raises an exception with `φ`. -/
def Raises (φ : ε → Bool) : Except ε α → Bool
  | .ok _ => false
  | .error e => φ e

variable {φ : ε → Bool}

@[simp] theorem raises_ok {a : α} : Raises φ (.ok a : Except ε α) = false := rfl

@[simp] theorem raises_error {e : ε} : Raises φ (.error e : Except ε α) = φ e := rfl

theorem raises_bind {x : Except ε α} {f : α → Except ε β} :
    Raises φ (x >>= f) = true ↔ Raises φ x = true ∨ ∃ a, x = .ok a ∧ Raises φ (f a) = true := by
  cases x with
  | error e => simp [bind, Except.bind]
  | ok a => simp [bind, Except.bind]

theorem raises_map {x : Except ε α} {f : α → β} : Raises φ (x.map f) = Raises φ x := by
  cases x with
  | error e => rfl
  | ok a => rfl

/-! ## Loops -/

/-- A loop without a state returns if every round does. -/
theorem forM_ok {f : α → Except ε Unit} {l : List α} : l.forM f = .ok () ↔ ∀ x ∈ l, f x = .ok () := by
  induction l with
  | nil => exact iff_of_true rfl fun _ hx => absurd hx (by simp)
  | cons x l ih =>
    show (f x >>= fun _ => l.forM f) = .ok () ↔ _
    rw [bind_eq_ok]
    simp only [List.mem_cons, forall_eq_or_imp, ← ih]
    constructor
    · rintro ⟨_, hx, hl⟩
      exact ⟨hx, hl⟩
    · rintro ⟨hx, hl⟩
      exact ⟨_, hx, hl⟩

/-- What a loop collects, item by item. -/
theorem mapM_ok {f : α → Except ε β} {l : List α} {r : List β} (h : l.mapM f = .ok r) :
    List.Forall₂ (fun x y => f x = .ok y) l r := by
  induction l generalizing r with
  | nil =>
    cases h
    exact List.Forall₂.nil
  | cons x l ih =>
    rw [List.mapM_cons] at h
    obtain ⟨y, hy, h⟩ := bind_eq_ok.mp h
    obtain ⟨ys, hys, h⟩ := bind_eq_ok.mp h
    cases h
    exact List.Forall₂.cons hy (ih hys)

/-- Of two lists that go together, an item of the first has one in the second. -/
theorem paired_left {R : α → β → Prop} {l : List α} {r : List β} (h : List.Forall₂ R l r) {x : α} (hx : x ∈ l) :
    ∃ y ∈ r, R x y := by
  induction h with
  | nil => cases hx
  | @cons _ y _ _ hy _ ih =>
    rcases List.mem_cons.mp hx with rfl | hx
    · exact ⟨y, by simp, hy⟩
    · obtain ⟨z, hz, hxz⟩ := ih hx
      exact ⟨z, by simp [hz], hxz⟩

theorem paired_right {R : α → β → Prop} {l : List α} {r : List β} (h : List.Forall₂ R l r) {y : β} (hy : y ∈ r) :
    ∃ x ∈ l, R x y :=
  paired_left (List.Forall₂.flip (R := fun y x => R x y) h) hy

theorem paired_map {γ : Type} {R : α → β → Prop} {l : List α} {r : List β} {f : α → γ} {g : β → γ}
    (hfg : ∀ x y, R x y → g y = f x) (h : List.Forall₂ R l r) : r.map g = l.map f := by
  induction h with
  | nil => rfl
  | cons hxy _ ih => rw [List.map_cons, List.map_cons, hfg _ _ hxy, ih]

/-- Where each round can return only one value, these are collected. -/
theorem mapM_eq_map {f : α → Except ε β} {g : α → β} {l : List α} {r : List β}
    (hf : ∀ x ∈ l, ∀ y, f x = .ok y → y = g x) (h : l.mapM f = .ok r) : r = l.map g := by
  have hround : List.Forall₂ (fun x y => y = g x) l r := by
    rw [List.forall₂_iff_get]
    refine ⟨(mapM_ok h).length_eq, fun i hi hi' => ?_⟩
    exact hf _ (List.get_mem _ _) _ ((mapM_ok h).get hi hi')
  simpa using paired_map (fun _ _ hxy => hxy) hround

section Loops
variable {σ : Type} {f : σ → α → Except ε σ} {l l' : List α} {s r : σ} {x : α} {e : ε}

theorem foldlM_cons_ok : (x :: l).foldlM f s = .ok r ↔ ∃ s₁, f s x = .ok s₁ ∧ l.foldlM f s₁ = .ok r := by
  rw [List.foldlM_cons, bind_eq_ok]

theorem foldlM_append_ok : (l ++ l').foldlM f s = .ok r ↔ ∃ s₁, l.foldlM f s = .ok s₁ ∧ l'.foldlM f s₁ = .ok r := by
  rw [List.foldlM_append, bind_eq_ok]

/-- A loop whose rounds each add an item to what `I` says of the state. -/
theorem foldlM_collect {R : α → β → Prop} {I : σ → List β → Prop} {done : List β}
    (hround : ∀ x ∈ l, ∀ s s' done, I s done → f s x = .ok s' → ∃ y, R x y ∧ I s' (done ++ [y]))
    (hstart : I s done) (h : l.foldlM f s = .ok r) : ∃ new, List.Forall₂ R l new ∧ I r (done ++ new) := by
  induction l generalizing s done with
  | nil =>
    cases h
    exact ⟨[], List.Forall₂.nil, by rwa [List.append_nil]⟩
  | cons x l ih =>
    obtain ⟨s₁, hfirst, h⟩ := foldlM_cons_ok.mp h
    obtain ⟨y, hy, hnext⟩ := hround x (by simp) s s₁ done hstart hfirst
    obtain ⟨new, hnew, hend⟩ := ih (fun z hz => hround z (by simp [hz])) hnext h
    exact ⟨y :: new, List.Forall₂.cons hy hnew, by rwa [List.append_assoc, List.singleton_append] at hend⟩

/-- A loop that raises has gone through what is before the item that does. -/
theorem foldlM_error_iff : l.foldlM f s = .error e ↔
    ∃ before x after s₁, l = before ++ x :: after ∧ before.foldlM f s = .ok s₁ ∧ f s₁ x = .error e := by
  induction l generalizing s with
  | nil =>
    constructor
    · intro h
      cases h
    · rintro ⟨before, x, after, s₁, heq, _⟩
      simp at heq
  | cons y l ih =>
    rw [List.foldlM_cons]
    cases hy : f s y with
    | error e' =>
      constructor
      · intro h
        exact ⟨[], y, l, s, rfl, rfl, hy.trans h⟩
      · rintro ⟨before, x, after, s₁, heq, hbefore, hx⟩
        cases before with
        | nil =>
          obtain ⟨rfl, rfl⟩ := List.cons.inj heq
          cases hbefore
          exact hy.symm.trans hx
        | cons z before =>
          obtain ⟨rfl, _⟩ := List.cons.inj heq
          obtain ⟨s₂, hs₂, _⟩ := foldlM_cons_ok.mp hbefore
          rw [hy] at hs₂
          cases hs₂
    | ok s' =>
      have hrun : (Except.ok s' >>= fun s' => l.foldlM f s') = l.foldlM f s' := rfl
      rw [hrun, ih]
      constructor
      · rintro ⟨before, x, after, s₁, rfl, hbefore, hx⟩
        exact ⟨y :: before, x, after, s₁, rfl, foldlM_cons_ok.mpr ⟨s', hy, hbefore⟩, hx⟩
      · rintro ⟨before, x, after, s₁, heq, hbefore, hx⟩
        cases before with
        | nil =>
          obtain ⟨rfl, rfl⟩ := List.cons.inj heq
          cases hbefore
          rw [hy] at hx
          cases hx
        | cons z before =>
          obtain ⟨rfl, rfl⟩ := List.cons.inj heq
          obtain ⟨s₂, hs₂, hbefore⟩ := foldlM_cons_ok.mp hbefore
          rw [hy] at hs₂
          cases hs₂
          exact ⟨before, x, after, s₁, rfl, hbefore, hx⟩

end Loops

end Outcome

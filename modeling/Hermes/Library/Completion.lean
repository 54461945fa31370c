import Hermes.Library.Process

/- Runs in a world that answers well.

   `Within G n P x Q E` is a triple restricted to scripts that hold at least `n`
   answers, all of them satisfying `G`; it also says that the run consumes at
   most `n` answers and leaves a script of such answers, so the budgets of the
   parts of a process add up. `Completes` is the case in which the exceptional
   outcome is excluded: the process returns. -/
namespace Process

variable {μ ε σ τ α β : Type}

/-- A script all of whose answers satisfy `G`, at least `n` of them. -/
def Supplied (G : μ → Prop) (n : Nat) (t : List μ) : Prop :=
  (∀ m ∈ t, G m) ∧ n ≤ t.length

/-- Every run of `x` from a state with `P` under a script that supplies `n` good answers. -/
def Within (G : μ → Prop) (n : Nat) (P : σ → Prop) (x : Proc μ ε σ α) (Q : α → σ → Prop)
    (E : ε → σ → Prop) : Prop :=
  ∀ t s k, Supplied G (n + k) t → P s → Holds Q E (x t s) ∧ Supplied G k (x t s).2.1

/-- `x` returns, with `Q`, under any script that supplies `n` good answers. -/
abbrev Completes (G : μ → Prop) (n : Nat) (P : σ → Prop) (x : Proc μ ε σ α)
    (Q : α → σ → Prop) : Prop :=
  Within G n P x Q (fun _ _ => False)

theorem Supplied.mono {G : μ → Prop} {m n : Nat} {t : List μ} (h : Supplied G n t) (hmn : m ≤ n) :
    Supplied G m t :=
  ⟨h.1, Nat.le_trans hmn h.2⟩

theorem supplied_replicate {G : μ → Prop} {m : μ} (h : G m) (n : Nat) :
    Supplied G n (List.replicate n m) :=
  ⟨fun x hx => by rw [List.eq_of_mem_replicate hx]; exact h, by simp⟩

namespace Within

variable {G : μ → Prop} {n k : Nat} {P P' : σ → Prop} {Q Q' : α → σ → Prop} {E E' : ε → σ → Prop}

theorem mono {x : Proc μ ε σ α} (h : Within G n P x Q E) (hp : ∀ s, P' s → P s)
    (hq : ∀ a s, Q a s → Q' a s) (he : ∀ e s, E e s → E' e s) : Within G n P' x Q' E' := by
  intro t s k ht hs
  obtain ⟨hx, hrest⟩ := h t s k ht (hp s hs)
  refine ⟨?_, hrest⟩
  revert hx
  rcases x t s with ⟨r, t', s'⟩
  cases r with
  | ok a => exact hq a s'
  | error e => exact he e s'

theorem pre {x : Proc μ ε σ α} (h : Within G n P x Q E) (hp : ∀ s, P' s → P s) :
    Within G n P' x Q E :=
  h.mono hp (fun _ _ => id) (fun _ _ => id)

theorem post {x : Proc μ ε σ α} (h : Within G n P x Q E) (hq : ∀ a s, Q a s → Q' a s) :
    Within G n P x Q' E :=
  h.mono (fun _ => id) hq (fun _ _ => id)

/-- More answers than needed do no harm. -/
theorem budget {x : Proc μ ε σ α} (h : Within G n P x Q E) (hnk : n ≤ k) : Within G k P x Q E := by
  intro t s j ht hs
  obtain ⟨hx, hrest⟩ := h t s (k - n + j) (ht.mono (by omega)) hs
  exact ⟨hx, hrest.mono (by omega)⟩

theorem pure' {a : α} (h : ∀ s, P s → Q a s) : Within G n P (pure a : Proc μ ε σ α) Q E :=
  fun _ s _ ht hs => ⟨h s hs, ht.mono (by omega)⟩

theorem raise {e : ε} (h : ∀ s, P s → E e s) : Within G n P (Proc.raise e : Proc μ ε σ α) Q E :=
  fun _ s _ ht hs => ⟨h s hs, ht.mono (by omega)⟩

theorem read {Q : σ → σ → Prop} (h : ∀ s, P s → Q s s) :
    Within G n P (Proc.read : Proc μ ε σ σ) Q E :=
  fun _ s _ ht hs => ⟨h s hs, ht.mono (by omega)⟩

theorem update {f : σ → σ} {Q : Unit → σ → Prop} (h : ∀ s, P s → Q () (f s)) :
    Within G n P (Proc.update f : Proc μ ε σ Unit) Q E :=
  fun _ s _ ht hs => ⟨h s hs, ht.mono (by omega)⟩

/-- The rule of an operation: one good answer is consumed. -/
theorem perform [Mortal ε] {f : μ → σ → Except ε α × σ}
    (hf : ∀ m s, G m → P s → ∀ r s', f m s = (r, s') →
      match r with
      | .ok a => Q a s'
      | .error e => E e s') :
    Within G (n + 1) P (Proc.perform f) Q E := by
  intro t s k ht hs
  cases t with
  | nil => exact absurd ht.2 (by simp)
  | cons m t' =>
    have h := hf m s (ht.1 m (by simp)) hs (f m s).1 (f m s).2 rfl
    have hrest : Supplied G k t' :=
      ⟨fun x hx => ht.1 x (by simp [hx]), by have := ht.2; simp only [List.length_cons] at this; omega⟩
    simp only [Proc.perform]
    refine ⟨?_, hrest⟩
    cases hr : (f m s).1 with
    | ok a => rw [hr] at h; exact h
    | error e => rw [hr] at h; exact h

/-- Bind: the budgets add up. -/
theorem bind {x : Proc μ ε σ α} {f : α → Proc μ ε σ β} {S : β → σ → Prop} {a b : Nat}
    (hx : Within G a P x Q E) (hf : ∀ v, Within G b (Q v) (f v) S E) :
    Within G (a + b) P (x >>= f) S E := by
  intro t s k ht hs
  obtain ⟨h, hrest⟩ := hx t s (b + k) (ht.mono (by omega)) hs
  rcases hx' : x t s with ⟨r, t', s'⟩
  rw [hx'] at h hrest
  cases r with
  | ok v =>
    rw [Proc.bind_ok hx']
    exact hf v t' s' k hrest h
  | error e =>
    rw [Proc.bind_error hx']
    exact ⟨h, hrest.mono (by omega)⟩

/-- Bind in the form used below: the continuation is charged what is left. -/
theorem bind_sub {x : Proc μ ε σ α} {f : α → Proc μ ε σ β} {S : β → σ → Prop} {a : Nat}
    (hx : Within G a P x Q E) (hf : ∀ v, Within G (n - a) (Q v) (f v) S E) (h : a ≤ n) :
    Within G n P (x >>= f) S E :=
  budget (bind hx hf) (by omega)

theorem handle {x : Proc μ ε σ α} {h : ε → Proc μ ε σ α} {a b : Nat} (hx : Within G a P x Q E)
    (hh : ∀ e, Within G b (E e) (h e) Q E') : Within G (a + b) P (x.handle h) Q E' := by
  intro t s k ht hs
  obtain ⟨hq, hrest⟩ := hx t s (b + k) (ht.mono (by omega)) hs
  unfold Proc.handle
  revert hq hrest
  rcases x t s with ⟨r, t', s'⟩
  cases r with
  | ok v => exact fun hq hrest => ⟨hq, hrest.mono (by omega)⟩
  | error e => exact fun hq hrest => hh e t' s' k hrest hq

theorem outcome {x : Proc μ ε σ α} {Q' : Except ε α → σ → Prop} (hx : Within G n P x Q E)
    (hok : ∀ a s, Q a s → Q' (.ok a) s) (herr : ∀ e s, E e s → Q' (.error e) s) :
    Within G n P x.outcome Q' E' := by
  intro t s k ht hs
  obtain ⟨h, hrest⟩ := hx t s k ht hs
  unfold Proc.outcome
  revert h hrest
  rcases x t s with ⟨r, t', s'⟩
  cases r with
  | ok a => exact fun h hrest => ⟨hok a s' h, hrest⟩
  | error e => exact fun h hrest => ⟨herr e s' h, hrest⟩

theorem zoom {get : σ → τ} {put : σ → τ → σ} {x : Proc μ ε τ α} {P₁ : τ → Prop}
    {Q₁ : α → τ → Prop} {E₁ : ε → τ → Prop} (s₀ : σ) (hx : Within G n P₁ x Q₁ E₁)
    (hp : ∀ s, P s → s = s₀ ∧ P₁ (get s)) (hq : ∀ a u, Q₁ a u → Q a (put s₀ u))
    (he : ∀ e u, E₁ e u → E e (put s₀ u)) : Within G n P (x.zoom get put) Q E := by
  intro t s k ht hs
  obtain ⟨rfl, h₁⟩ := hp s hs
  obtain ⟨h, hrest⟩ := hx t (get s) k ht h₁
  unfold Proc.zoom
  revert h hrest
  rcases x t (get s) with ⟨r, t', u⟩
  cases r with
  | ok a => exact fun h hrest => ⟨hq a u h, hrest⟩
  | error e => exact fun h hrest => ⟨he e u h, hrest⟩

theorem ite {c : Prop} [Decidable c] {x y : Proc μ ε σ α} (hx : c → Within G n P x Q E)
    (hy : ¬c → Within G n P y Q E) : Within G n P (if c then x else y) Q E := by
  by_cases h : c
  · simp only [h, if_true]; exact hx h
  · simp only [h, if_false]; exact hy h

/-- A fact the precondition gives may be used as a hypothesis. -/
theorem given {φ : Prop} {x : Proc μ ε σ α} (hp : ∀ s, P s → φ) (h : φ → Within G n P x Q E) :
    Within G n P x Q E :=
  fun t s k ht hs => h (hp s hs) t s k ht hs

/-- What holds of every run holds of these. -/
theorem and_triple {x : Proc μ ε σ α} (h : Within G n P x Q E) (h' : Triple P x Q' E') :
    Within G n P x (fun a s => Q a s ∧ Q' a s) (fun e s => E e s ∧ E' e s) := by
  intro t s k ht hs
  obtain ⟨hx, hrest⟩ := h t s k ht hs
  refine ⟨?_, hrest⟩
  have hx' := h' t s hs
  revert hx hx'
  rcases x t s with ⟨r, t', s'⟩
  cases r with
  | ok a => exact fun hx hx' => ⟨hx, hx'⟩
  | error e => exact fun hx hx' => ⟨hx, hx'⟩

/-- From one fixed state at a time. -/
theorem start {x : Proc μ ε σ α} (h : ∀ s₀, P s₀ → Within G n (fun s => s = s₀) x Q E) :
    Within G n P x Q E :=
  fun t s k ht hs => h s hs t s k ht rfl

/-- The invariant rule of a loop: every element is charged the same. -/
theorem forEach {I : List α → σ → Prop} {f : α → Proc μ ε σ Unit}
    (hf : ∀ a as, Within G n (I (a :: as)) (f a) (fun _ => I as) E) :
    ∀ as : List α, Within G (as.length * n) (I as) (Proc.forEach as f) (fun _ => I []) E
  | [] => pure' (fun _ => id)
  | a :: as => by
    rw [List.length_cons, Nat.succ_mul, Nat.add_comm]
    exact bind (hf a as) (fun _ => forEach hf as)

/-- A run that completes returns. -/
theorem returns {x : Proc μ ε σ α} (h : Completes G n P x Q) {t : List μ} {s : σ}
    (ht : Supplied G n t) (hs : P s) : ∃ a, x.result t s = .ok a ∧ Q a (x.after t s) := by
  obtain ⟨hx, _⟩ := h t s 0 ht hs
  simp only [Proc.result, Proc.after]
  revert hx
  rcases x t s with ⟨r, t', s'⟩
  cases r with
  | ok a => exact fun hx => ⟨a, rfl, hx⟩
  | error e => exact False.elim

/-- A run that returns exactly under `C` with `D`, and fails otherwise without, decides. -/
theorem decides {x : Proc μ ε σ α} {C : Prop} {D : σ → Prop}
    (h : Within G n P x (fun _ s => C ∧ D s) (fun _ s => ¬C ∧ ¬D s)) {t : List μ} {s : σ}
    (ht : Supplied G n t) (hs : P s) : D (x.after t s) ↔ C := by
  obtain ⟨hx, _⟩ := h t s 0 ht hs
  simp only [Proc.after]
  revert hx
  rcases x t s with ⟨r, t', s'⟩
  cases r with
  | ok a => exact fun hx => ⟨fun _ => hx.1, fun _ => hx.2⟩
  | error e => exact fun hx => ⟨fun hd => absurd hd hx.2, fun hc => absurd hc hx.1⟩

/-- What holds of a run that returned. -/
theorem returned {x : Proc μ ε σ α} (h : Within G n P x Q E) {t : List μ} {s : σ} {a : α}
    (ht : Supplied G n t) (hs : P s) (hr : x.result t s = .ok a) : Q a (x.after t s) := by
  obtain ⟨hx, _⟩ := h t s 0 ht hs
  simp only [Proc.result, Proc.after] at hr ⊢
  revert hr hx
  rcases x t s with ⟨r, t', s'⟩
  intro hr hx
  cases hr
  exact hx

/-- A run that does not fail in one of the ways it can returns. -/
theorem returns_unless {x : Proc μ ε σ α} (h : Within G n P x Q E) {t : List μ} {s : σ}
    (ht : Supplied G n t) (hs : P s) (hne : ∀ e, E e (x.after t s) → x.result t s ≠ .error e) :
    ∃ a, x.result t s = .ok a ∧ Q a (x.after t s) := by
  obtain ⟨hx, _⟩ := h t s 0 ht hs
  simp only [Proc.result, Proc.after] at hne ⊢
  revert hne hx
  rcases x t s with ⟨r, t', s'⟩
  cases r with
  | ok a => exact fun _ hx => ⟨a, rfl, hx⟩
  | error e => exact fun hne hx => absurd rfl (hne e hx)

/-- A run that fails only without `C` returns with it. -/
theorem returns_of {x : Proc μ ε σ α} {C : Prop} (h : Within G n P x Q (fun _ _ => ¬C))
    {t : List μ} {s : σ} (ht : Supplied G n t) (hs : P s) (hc : C) :
    ∃ a, x.result t s = .ok a ∧ Q a (x.after t s) :=
  returns (h.mono (fun _ => id) (fun _ _ => id) (fun _ _ hn => hn hc)) ht hs

end Within

/-- Both at once: `E` is what holds where a run fails, `F` where one fails that was answered
    well. -/
structure Runs (G : μ → Prop) (n : Nat) (P : σ → Prop) (x : Proc μ ε σ α) (Q : α → σ → Prop)
    (E F : ε → σ → Prop) : Prop where
  always : Triple P x Q E
  supplied : Within G n P x Q F

namespace Runs

variable {G : μ → Prop} {n k : Nat} {P P' : σ → Prop} {Q Q' : α → σ → Prop} {E F : ε → σ → Prop}

theorem pre {x : Proc μ ε σ α} (h : Runs G n P x Q E F) (hp : ∀ s, P' s → P s) :
    Runs G n P' x Q E F :=
  ⟨h.always.pre hp, h.supplied.pre hp⟩

theorem post {x : Proc μ ε σ α} (h : Runs G n P x Q E F) (hq : ∀ a s, Q a s → Q' a s) :
    Runs G n P x Q' E F :=
  ⟨h.always.post hq, h.supplied.post hq⟩

theorem budget {x : Proc μ ε σ α} (h : Runs G n P x Q E F) (hnk : n ≤ k) : Runs G k P x Q E F :=
  ⟨h.always, h.supplied.budget hnk⟩

theorem pure' {a : α} (h : ∀ s, P s → Q a s) : Runs G n P (pure a : Proc μ ε σ α) Q E F :=
  ⟨Triple.pure' h, Within.pure' h⟩

theorem raise {e : ε} (he : ∀ s, P s → E e s) (hf : ∀ s, P s → F e s) :
    Runs G n P (Proc.raise e : Proc μ ε σ α) Q E F :=
  ⟨Triple.raise he, Within.raise hf⟩

theorem read {Q : σ → σ → Prop} (h : ∀ s, P s → Q s s) :
    Runs G n P (Proc.read : Proc μ ε σ σ) Q E F :=
  ⟨Triple.read h, Within.read h⟩

theorem update {f : σ → σ} {Q : Unit → σ → Prop} (h : ∀ s, P s → Q () (f s)) :
    Runs G n P (Proc.update f : Proc μ ε σ Unit) Q E F :=
  ⟨Triple.update h, Within.update h⟩

/-- The budgets of the parts add up. -/
theorem bind {x : Proc μ ε σ α} {f : α → Proc μ ε σ β} {S : β → σ → Prop} {a b : Nat}
    (hx : Runs G a P x Q E F) (hf : ∀ v, Runs G b (Q v) (f v) S E F) (h : a + b ≤ n) :
    Runs G n P (x >>= f) S E F :=
  ⟨Triple.bind hx.always (fun v => (hf v).always),
    (Within.bind hx.supplied (fun v => (hf v).supplied)).budget h⟩

theorem ite {c : Prop} [Decidable c] {x y : Proc μ ε σ α} (hx : c → Runs G n P x Q E F)
    (hy : ¬c → Runs G n P y Q E F) : Runs G n P (if c then x else y) Q E F :=
  ⟨Triple.ite (fun h => (hx h).always) (fun h => (hy h).always),
    Within.ite (fun h => (hx h).supplied) (fun h => (hy h).supplied)⟩

/-- A fact the precondition gives may be used as a hypothesis. -/
theorem given {φ : Prop} {x : Proc μ ε σ α} (hp : ∀ s, P s → φ) (h : φ → Runs G n P x Q E F) :
    Runs G n P x Q E F :=
  ⟨Triple.given hp (fun hφ => (h hφ).always), Within.given hp (fun hφ => (h hφ).supplied)⟩

/-- From one fixed state at a time. -/
theorem start {x : Proc μ ε σ α} (h : ∀ s₀, P s₀ → Runs G n (fun s => s = s₀) x Q E F) :
    Runs G n P x Q E F :=
  ⟨Triple.start (fun s₀ h₀ => (h s₀ h₀).always), Within.start (fun s₀ h₀ => (h s₀ h₀).supplied)⟩

theorem forEach {I : List α → σ → Prop} {f : α → Proc μ ε σ Unit}
    (hf : ∀ a as, Runs G n (I (a :: as)) (f a) (fun _ => I as) E F) (as : List α) :
    Runs G (as.length * n) (I as) (Proc.forEach as f) (fun _ => I []) E F :=
  ⟨Triple.forEach (fun a as => (hf a as).always) as,
    Within.forEach (fun a as => (hf a as).supplied) as⟩

end Runs

end Process

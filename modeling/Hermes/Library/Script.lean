import Hermes.Library.Process

/- What a process reads of its script. A process that returns has read the front of the script
   and nothing behind it, so it does the same where the script goes on differently: what can be
   said of one run can be said of the run that is stopped, or meets something else, later on. -/
namespace Process

variable {μ ε σ α β : Type}

/-- A result that no outside answer decides. -/
def Proc.settle (result : Except ε α) : Proc μ ε σ α := fun t s => (result, t, s)

theorem Triple.settle {P : σ → Prop} {Q : α → σ → Prop} {E : ε → σ → Prop} {result : Except ε α}
    (hok : ∀ a, result = .ok a → ∀ s, P s → Q a s) (herr : ∀ e s, P s → E e s) :
    Triple P (Proc.settle result : Proc μ ε σ α) Q E := by
  intro t s hs
  cases result with
  | error e => exact herr e s hs
  | ok a => exact hok a rfl s hs

theorem Keeps.settle {I : σ → Prop} {result : Except ε α} : Keeps I (Proc.settle result : Proc μ ε σ α) :=
  Triple.settle (fun _ _ _ => id) (fun _ _ => id)

/-- A run that returns has read the front of its script, and nothing behind it. -/
def Frontal (x : Proc μ ε σ α) : Prop :=
  ∀ t s a t' s', x t s = (.ok a, t', s') →
    ∃ front, t = front ++ t' ∧ ∀ rest, x (front ++ rest) s = (.ok a, rest, s')

namespace Frontal

theorem pure' (a : α) : Frontal (pure a : Proc μ ε σ α) := by
  intro t s b t' s' h
  cases h
  exact ⟨[], rfl, fun _ => rfl⟩

theorem settle (result : Except ε α) : Frontal (Proc.settle result : Proc μ ε σ α) := by
  intro t s a t' s' h
  cases h
  exact ⟨[], rfl, fun _ => rfl⟩

theorem raise (e : ε) : Frontal (Proc.raise e : Proc μ ε σ α) := by
  intro t s a t' s' h
  cases h

theorem perform [Mortal ε] (f : μ → σ → Except ε α × σ) : Frontal (Proc.perform f) := by
  intro t s a t' s' h
  cases t with
  | nil => cases h
  | cons m t =>
    have hstep : ((f m s).1, t, (f m s).2) = (.ok a, t', s') := h
    rw [Prod.mk.injEq, Prod.mk.injEq] at hstep
    obtain ⟨hresult, rfl, hstate⟩ := hstep
    refine ⟨[m], rfl, fun rest => ?_⟩
    show ((f m s).1, rest, (f m s).2) = _
    rw [hresult, hstate]

theorem bind {x : Proc μ ε σ α} {f : α → Proc μ ε σ β} (hx : Frontal x) (hf : ∀ a, Frontal (f a)) : Frontal (x >>= f) := by
  intro t s b t' s' h
  cases hrun : x t s with
  | mk r rest =>
    obtain ⟨t₁, s₁⟩ := rest
    cases r with
    | error e =>
      rw [Proc.bind_error hrun] at h
      cases h
    | ok a =>
      rw [Proc.bind_ok hrun] at h
      obtain ⟨front, rfl, hfront⟩ := hx _ _ _ _ _ hrun
      obtain ⟨front', rfl, hfront'⟩ := hf a _ _ _ _ _ h
      refine ⟨front ++ front', by rw [List.append_assoc], fun rest => ?_⟩
      rw [List.append_assoc, Proc.bind_ok (hfront _)]
      exact hfront' rest

theorem ite {c : Prop} [Decidable c] {x y : Proc μ ε σ α} (hx : Frontal x) (hy : Frontal y) :
    Frontal (if c then x else y) := by
  split
  · exact hx
  · exact hy

end Frontal

/-- What the first of two processes did, where both return. -/
theorem Proc.bind_returns {x : Proc μ ε σ α} {f : α → Proc μ ε σ β} {t t' : List μ} {s s' : σ} {b : β}
    (h : (x >>= f) t s = (.ok b, t', s')) : ∃ a t₁ s₁, x t s = (.ok a, t₁, s₁) ∧ f a t₁ s₁ = (.ok b, t', s') := by
  cases hrun : x t s with
  | mk r rest =>
    obtain ⟨t₁, s₁⟩ := rest
    cases r with
    | error e =>
      rw [Proc.bind_error hrun] at h
      cases h
    | ok a =>
      rw [Proc.bind_ok hrun] at h
      exact ⟨a, t₁, s₁, rfl, h⟩

end Process

import Hermes.Library.Completion

/- Single runs in a world that answers well.

   `Yields G x s a s'` says that `x`, run from `s` with enough good answers, returns `a` and
   leaves `s'`, whichever good answers it gets; `Fails G x s` that it does not return. A run
   from a known state is followed step by step with the rules below, the number of answers
   kept out of sight. -/
namespace Process

variable {μ ε σ α β : Type}

/-- Answered well, `x` leads from `s` to `s'` and returns `a`. -/
def Yields (G : μ → Prop) (x : Proc μ ε σ α) (s : σ) (a : α) (s' : σ) : Prop :=
  ∃ n, Completes G n (fun u => u = s) x (fun b u => b = a ∧ u = s')

/-- Answered well, `x` does not return from `s`. -/
def Fails (G : μ → Prop) (x : Proc μ ε σ α) (s : σ) : Prop :=
  ∃ n, Within G n (fun u => u = s) x (fun _ _ => False) (fun _ _ => True)

variable {G : μ → Prop} {s s' s'' : σ} {a : α} {b : β}

namespace Yields

theorem of_completes {x : Proc μ ε σ α} {n : Nat}
    (h : Completes G n (fun u => u = s) x (fun b u => b = a ∧ u = s')) : Yields G x s a s' :=
  ⟨n, h⟩

theorem pure' : Yields G (pure a : Proc μ ε σ α) s a s :=
  ⟨0, Within.pure' fun _ h => ⟨rfl, h⟩⟩

theorem read : Yields G (Proc.read : Proc μ ε σ σ) s s s :=
  ⟨0, Within.read fun _ h => ⟨h, h⟩⟩

theorem bind {x : Proc μ ε σ α} {f : α → Proc μ ε σ β} (hx : Yields G x s a s') (hf : Yields G (f a) s' b s'') :
    Yields G (x >>= f) s b s'' := by
  obtain ⟨m, hx⟩ := hx
  obtain ⟨n, hf⟩ := hf
  refine ⟨m + n, Within.bind hx fun v => ?_⟩
  rintro t u k ht ⟨rfl, rfl⟩
  exact hf t _ k ht rfl

theorem handle {x : Proc μ ε σ α} {h : ε → Proc μ ε σ α} (hx : Yields G x s a s') : Yields G (x.handle h) s a s' := by
  obtain ⟨n, hx⟩ := hx
  exact ⟨n + 0, Within.handle hx fun _ _ _ _ _ hno => hno.elim⟩

/-- What such a run leaves decides what can be said of all of them. -/
theorem completes_iff {x : Proc μ ε σ α} {Q : α → σ → Prop} {m : μ} (hm : G m) (h : Yields G x s a s') :
    (∃ k, Completes G k (fun u => u = s) x Q) ↔ Q a s' := by
  obtain ⟨n, hx⟩ := h
  constructor
  · rintro ⟨k, hk⟩
    have hn := Supplied.mono (supplied_replicate hm (n + k)) (Nat.le_add_right n k)
    have hk' := Supplied.mono (supplied_replicate hm (n + k)) (Nat.le_add_left k n)
    obtain ⟨v, hv, rfl, hs⟩ := Within.returns hx hn rfl
    obtain ⟨w, hw, hQ⟩ := Within.returns hk hk' rfl
    rw [hv] at hw
    cases hw
    rwa [hs] at hQ
  · intro hQ
    refine ⟨n, hx.post ?_⟩
    rintro v u ⟨rfl, rfl⟩
    exact hQ

end Yields

namespace Fails

theorem raise {e : ε} : Fails G (Proc.raise e : Proc μ ε σ α) s :=
  ⟨0, Within.raise fun _ _ => trivial⟩

theorem bind {x : Proc μ ε σ α} {f : α → Proc μ ε σ β} (hx : Fails G x s) : Fails G (x >>= f) s := by
  obtain ⟨n, hx⟩ := hx
  exact ⟨n + 0, Within.bind hx fun _ _ _ _ _ hno => hno.elim⟩

theorem after {x : Proc μ ε σ α} {f : α → Proc μ ε σ β} (hx : Yields G x s a s') (hf : Fails G (f a) s') :
    Fails G (x >>= f) s := by
  obtain ⟨m, hx⟩ := hx
  obtain ⟨n, hf⟩ := hf
  refine ⟨m + n, Within.bind (hx.mono (fun _ => id) (fun _ _ => id) fun _ _ => False.elim) fun v => ?_⟩
  rintro t u k ht ⟨rfl, rfl⟩
  exact hf t _ k ht rfl

/-- A handler that raises again. -/
theorem handle {x : Proc μ ε σ α} {h : ε → Proc μ ε σ α} {n : Nat} (hx : Fails G x s)
    (hh : ∀ e, Within G n (fun _ => True) (h e) (fun _ _ => False) (fun _ _ => True)) : Fails G (x.handle h) s := by
  obtain ⟨m, hx⟩ := hx
  exact ⟨m + n, Within.handle hx hh⟩

theorem not_completes {x : Proc μ ε σ α} {Q : α → σ → Prop} {m : μ} (hm : G m) (h : Fails G x s) :
    ¬∃ k, Completes G k (fun u => u = s) x Q := by
  rintro ⟨k, hk⟩
  obtain ⟨n, hx⟩ := h
  have hn := Supplied.mono (supplied_replicate hm (n + k)) (Nat.le_add_right n k)
  have hk' := Supplied.mono (supplied_replicate hm (n + k)) (Nat.le_add_left k n)
  obtain ⟨v, hv, _⟩ := Within.returns hk hk' rfl
  exact Within.returned hx hn rfl hv

end Fails

end Process

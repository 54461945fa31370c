import Mathlib.Data.List.Nodup
import Hermes.LabGuest

/- The restore of a lab guest is a swap of three trees. Wherever it fails the trees are the
   old ones or the restored ones, or undoing a rename has failed and every old tree is in its
   place or in the stage (`Swapped.trees`); the writers that were active are started exactly
   in the first two cases. They are started one after the other, the worker first, and a
   start that fails is the last: so all this holds if a worker that cannot be started does
   not stand before a gateway that can (`restored`). -/
namespace Hermes.LabGuest
open Process

section Restore

variable {γ : Type} {live archive : Tree → Option γ} {active startable : Writer → Bool}

/-! ## What is asked of a restore -/

def liveTrees (live : Tree → Option γ) (t : Tree) : Option (Copy γ) := (live t).map .live

def restoredTrees (archive : Tree → Option γ) (t : Tree) : Option (Copy γ) := (archive t).map .restored

/-- One of the two consistent states. -/
def Consistent (live archive : Tree → Option γ) (g : Guest γ) : Prop :=
  g.home = liveTrees live ∨ g.home = restoredTrees archive

/-- Undoing a rename has failed, and no old tree is lost. -/
structure Stuck (live : Tree → Option γ) (g : Guest γ) : Prop where
  undo : ∃ t, .remove t ∈ g.troubles ∨ .moveBack t ∈ g.troubles
  stage : g.stage = true
  kept : ∀ t, g.home t = liveTrees live t ∨ g.old t = liveTrees live t

/-- What a restore leaves, however it ends. -/
structure Swapped (live archive : Tree → Option γ) (active startable : Writer → Bool) (g : Guest γ) : Prop where
  trees : Consistent live archive g ∨ Stuck live g
  writers : ∀ u, active u = true → startable u = true → (g.active u = true ↔ Consistent live archive g)

theorem live_ne_restored {t : Tree} (h : (live t).isSome = true) : liveTrees live t ≠ restoredTrees archive t := by
  obtain ⟨c, hc⟩ := Option.isSome_iff_exists.mp h
  rw [liveTrees, hc, restoredTrees]
  cases archive t <;> simp

theorem none_ne_live {t : Tree} (h : (live t).isSome = true) : none ≠ liveTrees live t := by
  obtain ⟨c, hc⟩ := Option.isSome_iff_exists.mp h
  rw [liveTrees, hc]
  simp

theorem remains_ne_live {t : Tree} : some .remains ≠ liveTrees live t := by
  rw [liveTrees]
  cases live t <;> simp

theorem remains_ne_restored {t : Tree} : some .remains ≠ restoredTrees archive t := by
  rw [restoredTrees]
  cases archive t <;> simp

theorem none_ne_restored {t : Tree} (h : (archive t).isSome = true) : none ≠ restoredTrees archive t := by
  obtain ⟨c, hc⟩ := Option.isSome_iff_exists.mp h
  rw [restoredTrees, hc]
  simp

/-! ## The operations -/

section Rules

variable {P : Guest γ → Prop} {Q : Unit → Guest γ → Prop} {E : Exc → Guest γ → Prop}

theorem rename_triple {trouble : Trouble} {can : Guest γ → Bool} {effect : Guest γ → Guest γ}
    (hok : ∀ g, P g → can g = true → Q () (effect g))
    (hno : ∀ g, P g → E .osError { g with troubles := g.troubles ++ [trouble] })
    (hk : ∀ g, P g → E .killed g) : Triple P (rename trouble can effect) Q E := by
  refine Triple.perform hk ?_
  intro m g hg r g' hr
  split at hr
  · cases hr
    exact hk g hg
  split at hr
  · next h => cases hr; exact hok g hg h.2
  · cases hr
    exact hno g hg

theorem removeTree_triple {t : Tree}
    (hok : ∀ g, P g → Q () { g with home := Function.update g.home t none })
    (hno : ∀ g h, P g → (h = g.home ∨ h = Function.update g.home t (some .remains)) →
      E .osError { g with home := h, troubles := g.troubles ++ [.remove t] })
    (hk : ∀ g, P g → E .killed g) : Triple P (removeTree t) Q E := by
  refine Triple.perform hk ?_
  intro m g hg r g' hr
  split at hr
  · cases hr
    exact hk g hg
  split at hr
  · cases hr
    exact hok g hg
  · cases hr
    refine hno g _ hg ?_
    cases m.took
    · exact Or.inl rfl
    · exact Or.inr rfl

theorem start_triple {u : Writer}
    (hok : ∀ g, P g → g.startable u = true → Q () { g with active := Function.update g.active u true })
    (hno : ∀ g, P g → g.startable u = false → E (.failure 1 "systemctl failed") g)
    (hk : ∀ g, P g → E .killed g) : Triple P (start u) Q E := by
  refine Triple.perform hk ?_
  intro m g hg r g' hr
  split at hr
  · cases hr
    exact hk g hg
  split at hr
  · next h => cases hr; exact hok g hg h
  · next h => cases hr; exact hno g hg (Bool.eq_false_iff.mpr h)

theorem check_triple {what : String} (herr : ∀ e g, P g → E e g) :
    Triple P (check what) (fun _ => P) E :=
  run_triple (fun _ _ h _ => h) herr (fun e _ g h _ => herr e g h)

theorem onFailure_triple {E₁ : Exc → Guest γ → Prop} {x h : Task (Guest γ) Unit} (hx : Triple P x Q E₁)
    (hk : ∀ g, E₁ .killed g → E .killed g)
    (hh : ∀ e, e ≠ .killed → Triple (E₁ e) h (fun _ => E e) E) : Triple P (onFailure x h) Q E := by
  refine Triple.handle hx (fun e => ?_)
  split
  · exact Triple.raise hk
  · next hne => exact Triple.bind (hh e hne) (fun _ => Triple.raise (fun _ hg => hg))

end Rules

/-! ## Starting the writers again -/

/-- The writers that were active, the gateway first. -/
def priorOf (active : Writer → Bool) : List Writer :=
  (if active .gateway then [.gateway] else []) ++ (if active .worker then [.worker] else [])

/-- A gateway that can be started does not wait for a worker that cannot. -/
def Startable (active startable : Writer → Bool) : Prop :=
  active .gateway = true → active .worker = true → startable .gateway = true → startable .worker = true

/-- Every writer that was active and can be started is. -/
def Started (active startable : Writer → Bool) (g : Guest γ) : Prop :=
  ∀ u, active u = true → startable u = true → g.active u = true

/-- Only the writers differ. -/
def SameTrees (g₀ g : Guest γ) : Prop := g = { g₀ with active := g.active }

theorem startAll_triple {g₀ : Guest γ} (hs : g₀.startable = startable) (ws : List Writer) (A : Writer → Prop)
    (hord : ws.Pairwise fun u v => startable v = true → startable u = true) :
    Triple (fun g => SameTrees g₀ g ∧ ∀ u, A u → startable u = true → g.active u = true) (Proc.forEach ws start)
      (fun _ g => SameTrees g₀ g ∧ ∀ u, A u ∨ u ∈ ws → startable u = true → g.active u = true)
      (fun e g => e ≠ .killed → SameTrees g₀ g ∧ ∀ u, A u ∨ u ∈ ws → startable u = true → g.active u = true) := by
  induction ws generalizing A with
  | nil =>
    refine Triple.pure' (fun g hg => ⟨hg.1, fun u hu => hg.2 u ?_⟩)
    exact hu.resolve_right List.not_mem_nil
  | cons w ws ih =>
    obtain ⟨hw, hord⟩ := List.pairwise_cons.mp hord
    have hmem : ∀ u, A u ∨ u ∈ w :: ws → (A u ∨ u = w) ∨ u ∈ ws := fun u hu =>
      hu.elim (fun h => Or.inl (Or.inl h)) (fun h => (List.mem_cons.mp h).imp Or.inr id)
    refine Triple.bind (Q := fun _ g => SameTrees g₀ g ∧ ∀ u, A u ∨ u = w → startable u = true → g.active u = true)
      (start_triple ?_ ?_ (fun _ _ h => absurd rfl h)) (fun _ => ?_)
    · intro g hg _
      refine ⟨?_, fun u hu hsu => ?_⟩
      · rw [SameTrees, hg.1]
      show Function.update g.active w true u = true
      by_cases huw : u = w
      · rw [huw, Function.update_self]
      · rw [Function.update_of_ne huw]
        exact hg.2 u (hu.resolve_right huw) hsu
    · -- no later writer can be started either
      intro g hg hno _
      have hstart : g.startable = startable := by rw [hg.1, hs]
      refine ⟨hg.1, fun u hu hsu => ?_⟩
      rcases hmem u hu with (hu | rfl) | hu
      · exact hg.2 u hu hsu
      · rw [← hstart, hno] at hsu
        cases hsu
      · rw [hstart, hw u hu hsu] at hno
        cases hno
    · exact (ih _ hord).mono (fun _ => id) (fun _ g hg => ⟨hg.1, fun u hu => hg.2 u (hmem u hu)⟩)
        (fun _ g hg hne => ⟨(hg hne).1, fun u hu => (hg hne).2 u (hmem u hu)⟩)

theorem restart_triple (hc : Startable active startable) {g₀ : Guest γ} (hs : g₀.startable = startable) :
    Triple (fun g => g = g₀) (restart (priorOf active)) (fun _ g => SameTrees g₀ g ∧ Started active startable g)
      (fun e g => e ≠ .killed → SameTrees g₀ g ∧ Started active startable g) := by
  have hmem : ∀ u, active u = true → u ∈ (priorOf active).reverse := by
    intro u hu
    rw [List.mem_reverse, priorOf, List.mem_append]
    cases u with
    | gateway => exact Or.inl (by rw [hu]; exact List.mem_singleton_self _)
    | worker => exact Or.inr (by rw [hu]; exact List.mem_singleton_self _)
  have hord : (priorOf active).reverse.Pairwise fun u v => startable v = true → startable u = true := by
    rw [priorOf]
    cases hg : active .gateway <;> cases hw : active .worker <;> simp
    exact hc hg hw
  exact (startAll_triple hs _ (fun _ => False) hord).mono
    (fun g hg => ⟨by rw [SameTrees, hg], fun _ h => h.elim⟩)
    (fun _ g hg => ⟨hg.1, fun u hu => hg.2 u (Or.inr (hmem u hu))⟩)
    (fun _ g hg hne => ⟨(hg hne).1, fun u hu => (hg hne).2 u (Or.inr (hmem u hu))⟩)

/-! ## Stopping them -/

/-- Nothing of a tree has been touched. -/
structure Quiet (live archive : Tree → Option γ) (startable : Writer → Bool) (g : Guest γ) : Prop where
  home : g.home = liveTrees live
  old : g.old = fun _ => none
  archive : g.archive = archive
  startable : g.startable = startable
  moved : g.moved = []
  restartSafe : g.restartSafe = false
  cleanupSafe : g.cleanupSafe = true
  stage : g.stage = true

theorem Quiet.sameTrees {g₀ g : Guest γ} (h : Quiet live archive startable g₀) (hs : SameTrees g₀ g) :
    Quiet live archive startable g := by
  rw [hs]
  exact ⟨h.home, h.old, h.archive, h.startable, h.moved, h.restartSafe, h.cleanupSafe, h.stage⟩

theorem SameTrees.of_eq {g₀ g : Guest γ} (h : g = g₀) : SameTrees g₀ g := by
  rw [h]
  rfl

theorem SameTrees.stop {g₀ g : Guest γ} (h : SameTrees g₀ g) (u : Writer) :
    SameTrees g₀ { g with active := Function.update g.active u false } := by
  rw [SameTrees, h]

theorem inspect_triple {g₀ : Guest γ} (ha : g₀.active = active) :
    Triple (fun g => g = g₀) inspect (fun prior g => g = g₀ ∧ prior = priorOf active) (fun _ g => g = g₀) := by
  refine Triple.bind (Q := fun gateway g => g = g₀ ∧ gateway = active .gateway)
    (query_triple (fun _ g hg _ => ⟨hg, by rw [hg, ha]⟩) (fun _ _ hg => hg)) (fun gateway => ?_)
  refine Triple.bind (Q := fun worker g => g = g₀ ∧ gateway = active .gateway ∧ worker = active .worker)
    (query_triple (fun _ g hg _ => ⟨hg.1, hg.2, by rw [hg.1, ha]⟩) (fun _ _ hg => hg.1)) (fun worker => ?_)
  exact Triple.pure' (fun g hg => ⟨hg.1, by rw [hg.2.1, hg.2.2, priorOf]⟩)

theorem stopBoth_triple {g₀ : Guest γ} :
    Triple (fun g => g = g₀) stopBoth (fun _ g => SameTrees g₀ g ∧ ∀ u, g.active u = false)
      (fun _ g => SameTrees g₀ g) := by
  refine Triple.bind (Q := fun _ g => SameTrees g₀ g ∧ g.active .gateway = false)
    (run_triple (fun _ g hg _ => ⟨(SameTrees.of_eq hg).stop _, Function.update_self Writer.gateway false g.active⟩)
      (fun _ _ hg => SameTrees.of_eq hg) (fun _ _ _ hg _ => (SameTrees.of_eq hg).stop _)) (fun _ => ?_)
  refine Triple.bind (Q := fun _ g => SameTrees g₀ g ∧ ∀ u, g.active u = false)
    (run_triple (fun _ g hg _ => ⟨hg.1.stop _, fun u => ?_⟩) (fun _ _ hg => hg.1)
      (fun _ _ _ hg _ => hg.1.stop _)) (fun _ => check_triple (fun _ _ hg => hg.1))
  cases u with
  | gateway => exact (Function.update_of_ne (f := g.active) (show Writer.gateway ≠ .worker by decide) false).trans hg.2
  | worker => exact Function.update_self Writer.worker false g.active

theorem stopWriters_triple (hc : Startable active startable) {g₀ : Guest γ} (ha : g₀.active = active)
    (hs : g₀.startable = startable) :
    Triple (fun g => g = g₀) stopWriters
      (fun prior g => SameTrees g₀ g ∧ (∀ u, g.active u = false) ∧ prior = priorOf active)
      (fun e g => e ≠ .killed → SameTrees g₀ g ∧ Started active startable g) := by
  have hstarted : Started active startable g₀ := fun u hu _ => by rw [ha]; exact hu
  refine Triple.bind (Q := fun prior g => g = g₀ ∧ prior = priorOf active)
    ((inspect_triple ha).mono (fun _ => id) (fun _ _ => id)
      (fun _ g hg _ => ⟨SameTrees.of_eq hg, by rw [hg]; exact hstarted⟩))
    (fun prior => ?_)
  refine Triple.given (φ := prior = priorOf active) (fun _ hg => hg.2) (fun hprior => ?_)
  rw [hprior]
  refine Triple.bind (Q := fun _ g => SameTrees g₀ g ∧ ∀ u, g.active u = false)
    (onFailure_triple (stopBoth_triple.pre (fun _ hg => hg.1)) (fun _ _ hne => absurd rfl hne) (fun e hne => ?_))
    (fun _ => Triple.pure' (fun g hg => ⟨hg.1, hg.2, rfl⟩))
  refine Triple.start (fun g₁ h₁ => ?_)
  have hs₁ : g₁.startable = startable := by rw [h₁, hs]
  have hsame : ∀ g, SameTrees g₁ g → SameTrees g₀ g := by
    intro g hg
    rw [SameTrees, hg, h₁]
  exact (restart_triple hc hs₁).mono (fun _ => id) (fun _ g hg _ => ⟨hsame g hg.1, hg.2⟩)
    (fun _ g hg hne => ⟨hsame g (hg hne).1, (hg hne).2⟩)

/-! ## The swap and its undoing -/

/-- Both writers are stopped, and nothing says yet that they may be started. -/
structure Stopped (active startable : Writer → Bool) (g : Guest γ) : Prop where
  idle : ∀ u, g.active u = false
  same : g.startable = startable
  prior : g.prior = priorOf active
  restartSafe : g.restartSafe = false
  cleanupSafe : g.cleanupSafe = false
  stage : g.stage = true

/-- The trees of `done` have been swapped, those of `rest` have not. -/
structure Swapping (live archive : Tree → Option γ) (active startable : Writer → Bool) (done rest : List Tree)
    (g : Guest γ) : Prop where
  stopped : Stopped active startable g
  swapped : ∀ t ∈ done, g.home t = restoredTrees archive t ∧ g.old t = liveTrees live t
  ahead : ∀ t ∈ rest, g.home t = liveTrees live t ∧ g.old t = none ∧ g.fresh t = restoredTrees archive t
  moved : g.moved = done

/-- `t` has been set aside and its successor is not in place yet. -/
structure Aside (live archive : Tree → Option γ) (active startable : Writer → Bool) (done : List Tree) (t : Tree)
    (rest : List Tree) (g : Guest γ) : Prop where
  stopped : Stopped active startable g
  swapped : ∀ x ∈ done, g.home x = restoredTrees archive x ∧ g.old x = liveTrees live x
  ahead : ∀ x ∈ rest, g.home x = liveTrees live x ∧ g.old x = none ∧ g.fresh x = restoredTrees archive x
  aside : g.home t = none ∧ g.old t = liveTrees live t ∧ g.fresh t = restoredTrees archive t

/-- The trees of `todo` are still set aside. -/
structure Undoing (live archive : Tree → Option γ) (active startable : Writer → Bool) (todo : List Tree)
    (g : Guest γ) : Prop where
  stopped : Stopped active startable g
  nodup : todo.Nodup
  out : ∀ t ∈ todo, g.old t = liveTrees live t ∧ g.home t ≠ liveTrees live t
  back : ∀ t, t ∉ todo → g.home t = liveTrees live t
  unfinished : ∃ t, g.home t ≠ restoredTrees archive t

/-- Undoing has failed on the way. -/
structure Mixed (live archive : Tree → Option γ) (active startable : Writer → Bool) (g : Guest γ) : Prop where
  stopped : Stopped active startable g
  stuck : Stuck live g
  mixed : ¬Consistent live archive g

theorem mem_trees (t : Tree) : t ∈ trees := by cases t <;> decide

theorem nodup_trees : trees.Nodup := by decide

section Swap

variable (hlive : ∀ t, (live t).isSome = true) (harchive : ∀ t, (archive t).isSome = true)
include hlive harchive

theorem swapTree_triple {done rest : List Tree} {t : Tree} (htrees : trees = done ++ t :: rest) :
    Triple (Swapping live archive active startable done (t :: rest)) (swapTree t)
      (fun _ => Swapping live archive active startable (done ++ [t]) rest)
      (fun e g => e ≠ .killed → Undoing live archive active startable g.moved.reverse g) := by
  have hnodup : (done ++ t :: rest).Nodup := htrees ▸ nodup_trees
  obtain ⟨hdone, htrest, hdisj⟩ := List.nodup_append.mp hnodup
  have hnot : t ∉ done := fun h => hdisj t h t List.mem_cons_self rfl
  have hcover : ∀ x, x ∈ done ∨ x = t ∨ x ∈ rest := by
    intro x
    have hx := mem_trees x
    rw [htrees, List.mem_append, List.mem_cons] at hx
    exact hx
  have hne : ∀ x, x ∈ done ∨ x ∈ rest → x ≠ t := by
    rintro x (hx | hx) rfl
    · exact hnot hx
    · exact (List.nodup_cons.mp htrest).1 hx
  refine Triple.bind (Q := fun _ g => Aside live archive active startable done t rest g ∧ g.moved = done)
    (rename_triple ?_ ?_ (fun _ _ h => absurd rfl h)) (fun _ => ?_)
  · intro g hg _
    have ht := hg.ahead t List.mem_cons_self
    refine ⟨⟨⟨hg.stopped.idle, hg.stopped.same, hg.stopped.prior, hg.stopped.restartSafe, hg.stopped.cleanupSafe,
      hg.stopped.stage⟩, fun x hx => ?_, fun x hx => ?_, ?_⟩, hg.moved⟩
    · simpa [Function.update_of_ne (hne x (Or.inl hx))] using hg.swapped x hx
    · simpa [Function.update_of_ne (hne x (Or.inr hx))] using hg.ahead x (List.mem_cons_of_mem t hx)
    · simpa using ⟨ht.1, ht.2.2⟩
  · -- nothing was moved: what is to be undone are the trees before
    intro g hg _
    have ht := hg.ahead t List.mem_cons_self
    refine ⟨⟨hg.stopped.idle, hg.stopped.same, hg.stopped.prior, hg.stopped.restartSafe, hg.stopped.cleanupSafe,
      hg.stopped.stage⟩, ?_, fun x hx => ?_, fun x hx => ?_, t, ?_⟩
    · rw [hg.moved]
      exact List.nodup_reverse.mpr hdone
    · rw [List.mem_reverse, hg.moved] at hx
      obtain ⟨hx₁, hx₂⟩ := hg.swapped x hx
      exact ⟨hx₂, fun h => live_ne_restored (hlive x) (h.symm.trans hx₁)⟩
    · rw [List.mem_reverse, hg.moved] at hx
      exact (hg.ahead x (List.mem_cons.mpr ((hcover x).resolve_left hx))).1
    · exact fun h => live_ne_restored (hlive t) (ht.1.symm.trans h)
  refine Triple.bind (Q := fun _ g => Aside live archive active startable done t rest g ∧ g.moved = done ++ [t])
    (Triple.update (fun g hg => ?_)) (fun _ => rename_triple ?_ ?_ (fun _ _ h => absurd rfl h))
  · have hs := hg.1.stopped
    exact ⟨⟨⟨hs.idle, hs.same, hs.prior, hs.restartSafe, hs.cleanupSafe, hs.stage⟩, hg.1.swapped, hg.1.ahead,
      hg.1.aside⟩, by rw [hg.2]⟩
  · rintro g ⟨hg, hm⟩ _
    have hs := hg.stopped
    refine ⟨⟨hs.idle, hs.same, hs.prior, hs.restartSafe, hs.cleanupSafe, hs.stage⟩, fun x hx => ?_, fun x hx => ?_, hm⟩
    · rcases List.mem_append.mp hx with hx | hx
      · simpa [Function.update_of_ne (hne x (Or.inl hx))] using hg.swapped x hx
      · rw [List.mem_singleton.mp hx]
        simpa using ⟨hg.aside.2.2, hg.aside.2.1⟩
    · simpa [Function.update_of_ne (hne x (Or.inr hx))] using hg.ahead x hx
  · rintro g ⟨hg, hm⟩ _
    have hs := hg.stopped
    refine ⟨⟨hs.idle, hs.same, hs.prior, hs.restartSafe, hs.cleanupSafe, hs.stage⟩, ?_, fun x hx => ?_,
      fun x hx => ?_, t, ?_⟩
    · rw [hm]
      exact List.nodup_reverse.mpr (List.nodup_append.mpr ⟨hdone, List.nodup_singleton t,
        fun a ha b hb h => hnot (List.mem_singleton.mp hb ▸ h ▸ ha)⟩)
    · rw [List.mem_reverse, hm, List.mem_append, List.mem_singleton] at hx
      rcases hx with hx | rfl
      · obtain ⟨hx₁, hx₂⟩ := hg.swapped x hx
        exact ⟨hx₂, fun h => live_ne_restored (hlive x) (h.symm.trans hx₁)⟩
      · exact ⟨hg.aside.2.1, fun h => none_ne_live (hlive x) (hg.aside.1.symm.trans h)⟩
    · rw [List.mem_reverse, hm, List.mem_append, List.mem_singleton, not_or] at hx
      exact (hg.ahead x (((hcover x).resolve_left hx.1).resolve_left hx.2)).1
    · exact fun h => none_ne_restored (harchive t) (hg.aside.1.symm.trans h)

theorem undoTree_triple {t : Tree} {todo : List Tree} :
    Triple (Undoing live archive active startable (t :: todo)) (undoTree t)
      (fun _ => Undoing live archive active startable todo)
      (fun e g => e ≠ .killed → Mixed live archive active startable g) := by
  -- with the tree out of the way
  refine Triple.bind (Q := fun g₀ g => Undoing live archive active startable (t :: todo) g ∧ g₀ = g)
    (Triple.read (fun g hg => ⟨hg, rfl⟩)) (fun g₀ => ?_)
  -- a failure leaves the tree set aside
  have hmixed : ∀ (g : Guest γ) (h : Tree → Option (Copy γ)) (r : Trouble),
      Undoing live archive active startable (t :: todo) { g with home := h } →
      (r = .remove t ∨ r = .moveBack t) →
      Mixed live archive active startable { g with home := h, troubles := g.troubles ++ [r] } := by
    intro g h r hg hr
    have hs := hg.stopped
    refine ⟨⟨hs.idle, hs.same, hs.prior, hs.restartSafe, hs.cleanupSafe, hs.stage⟩, ⟨⟨t, ?_⟩, hg.stopped.stage, fun x => ?_⟩, ?_⟩
    · rcases hr with rfl | rfl
      · exact Or.inl (by simp)
      · exact Or.inr (by simp)
    · by_cases hx : x ∈ t :: todo
      · exact Or.inr (hg.out x hx).1
      · exact Or.inl (hg.back x hx)
    · rintro (hh | hh)
      · exact (hg.out t List.mem_cons_self).2 (congrFun hh t)
      · obtain ⟨x, hx⟩ := hg.unfinished
        exact hx (congrFun hh x)
  have hgone : ∀ (g : Guest γ) (c : Option (Copy γ)), Undoing live archive active startable (t :: todo) g →
      c ≠ liveTrees live t → c ≠ restoredTrees archive t →
      Undoing live archive active startable (t :: todo) { g with home := Function.update g.home t c } := by
    intro g c hg hl hr
    have hs := hg.stopped
    refine ⟨⟨hs.idle, hs.same, hs.prior, hs.restartSafe, hs.cleanupSafe, hs.stage⟩, hg.nodup, fun x hx => ⟨(hg.out x hx).1, ?_⟩, fun x hx => ?_, t, by simpa using hr⟩
    · by_cases hxt : x = t
      · rw [hxt]
        simpa using hl
      · simpa [Function.update_of_ne hxt] using (hg.out x hx).2
    · have hxt : x ≠ t := fun h => hx (h ▸ List.mem_cons_self)
      simpa [Function.update_of_ne hxt] using hg.back x hx
  refine Triple.bind (Q := fun _ => Undoing live archive active startable (t :: todo))
    (onlyIf_triple (fun _ => removeTree_triple ?_ ?_ (fun _ _ h => absurd rfl h)) (fun _ g hg => hg.1)) (fun _ => ?_)
  · rintro g ⟨hg, -⟩
    exact hgone g none hg (none_ne_live (hlive t)) (none_ne_restored (harchive t))
  · rintro g h ⟨hg, -⟩ (rfl | rfl) _
    · exact hmixed g _ _ hg (Or.inl rfl)
    · exact hmixed g _ _ (hgone g _ hg remains_ne_live remains_ne_restored) (Or.inl rfl)
  refine rename_triple ?_ (fun g hg _ => hmixed g g.home _ hg (Or.inr rfl)) (fun _ _ h => absurd rfl h)
  intro g hg _
  have hout := hg.out t List.mem_cons_self
  obtain ⟨hnot, hnodup⟩ := List.nodup_cons.mp hg.nodup
  have hs := hg.stopped
  refine ⟨⟨hs.idle, hs.same, hs.prior, hs.restartSafe, hs.cleanupSafe, hs.stage⟩, hnodup, fun x hx => ?_,
    fun x hx => ?_, t, ?_⟩
  · have hxt : x ≠ t := fun h => hnot (h ▸ hx)
    simpa [Function.update_of_ne hxt] using hg.out x (List.mem_cons_of_mem t hx)
  · by_cases hxt : x = t
    · rw [hxt]
      simpa using hout.1
    · simpa [Function.update_of_ne hxt] using hg.back x (by simp [hxt, hx])
  · have := (@live_ne_restored _ _ archive) (hlive t)
    simpa [hout.1] using this

theorem swap_triple :
    Triple (Swapping live archive active startable [] trees) (Proc.forEach trees swapTree)
      (fun _ g => g.home = restoredTrees archive ∧ Stopped active startable g)
      (fun e g => e ≠ .killed → Undoing live archive active startable g.moved.reverse g) := by
  have h := Triple.forEach (I := fun rest g => ∃ done, trees = done ++ rest ∧
      Swapping live archive active startable done rest g) (f := swapTree)
    (E := fun e g => e ≠ .killed → Undoing live archive active startable g.moved.reverse g) ?_ trees
  · refine h.mono (fun g hg => ⟨[], rfl, hg⟩) (fun _ g hg => ?_) (fun _ _ => id)
    obtain ⟨done, htrees, hg⟩ := hg
    rw [List.append_nil] at htrees
    refine ⟨?_, hg.stopped⟩
    funext t
    exact (hg.swapped t (htrees ▸ mem_trees t)).1
  · intro t rest g₀ g hg
    obtain ⟨done, htrees, hg⟩ := hg
    refine (swapTree_triple hlive harchive htrees).post (fun _ g hg => ?_) g₀ g hg
    exact ⟨done ++ [t], by rw [htrees, List.append_assoc, List.singleton_append], hg⟩

/-- The trees are in a consistent state, and the writers are running or will be started. -/
structure Settled (live archive : Tree → Option γ) (active startable : Writer → Bool) (g : Guest γ) : Prop where
  consistent : Consistent live archive g
  same : g.startable = startable
  cleanupSafe : g.cleanupSafe = true
  writers : g.restartSafe = true ∧ g.prior = priorOf active ∧ Startable active startable ∨
    g.restartSafe = false ∧ Started active startable g

theorem undo_triple (hc : Startable active startable) :
    Triple (fun g => Undoing live archive active startable g.moved.reverse g) undo
      (fun _ => Settled live archive active startable)
      (fun e g => e ≠ .killed → Mixed live archive active startable g) := by
  refine Triple.bind (Q := fun g₀ g => Undoing live archive active startable g₀.moved.reverse g)
    (Triple.read (fun _ hg => hg)) (fun g₀ => ?_)
  refine Triple.bind (Triple.forEach (I := Undoing live archive active startable) (fun t todo =>
    undoTree_triple hlive harchive) g₀.moved.reverse) (fun _ => Triple.update (fun g hg => ?_))
  refine ⟨Or.inl ?_, hg.stopped.same, rfl, Or.inl ⟨rfl, hg.stopped.prior, hc⟩⟩
  funext t
  exact hg.back t List.not_mem_nil

end Swap

theorem Quiet.settled {g : Guest γ} (h : Quiet live archive startable g) (hs : Started active startable g) :
    Settled live archive active startable g :=
  ⟨Or.inl h.home, h.startable, h.cleanupSafe, Or.inr ⟨h.restartSafe, hs⟩⟩

theorem replaceTrees_triple
    (hc : (∀ t, (archive t).isSome = true) → (∀ t, (live t).isSome = true) → Startable active startable) :
    Triple (fun g => Quiet live archive startable g ∧ g.active = active) replaceTrees
      (fun _ => Settled live archive active startable)
      (fun e g => e ≠ .killed → Settled live archive active startable g ∨ Mixed live archive active startable g) := by
  have hquiet : ∀ {g : Guest γ}, Quiet live archive startable g ∧ g.active = active →
      Settled live archive active startable g := fun h => h.1.settled (fun u hu _ => by rw [h.2]; exact hu)
  have hfresh : ∀ {g : Guest γ}, Quiet live archive startable g ∧ g.active = active →
      Quiet live archive startable { g with fresh := g.backup } ∧ g.active = active :=
    fun ⟨h, ha⟩ => ⟨⟨h.home, h.old, h.archive, h.startable, h.moved, h.restartSafe, h.cleanupSafe, h.stage⟩, ha⟩
  refine Triple.bind (Q := fun _ g => (Quiet live archive startable g ∧ g.active = active) ∧
      g.fresh = restoredTrees archive) (atomic_triple (fun _ g hg => ⟨hfresh hg, ?_⟩)
    (fun _ _ hg _ => Or.inl (hquiet hg)) (fun _ _ _ hg _ => Or.inl (hquiet (hfresh hg)))) (fun _ => ?_)
  · funext t
    show (g.archive t).map _ = _
    rw [hg.1.archive, restoredTrees]
  refine Triple.bind (Q := fun _ g => (Quiet live archive startable g ∧ g.active = active) ∧
      g.fresh = restoredTrees archive ∧ ∀ t, (archive t).isSome = true)
    (run_triple (fun _ g hg hcan => ⟨hg.1, hg.2, fun t => ?_⟩) (fun _ _ hg _ => Or.inl (hquiet hg.1))
      (fun _ _ _ hg _ _ => Or.inl (hquiet hg.1))) (fun _ => ?_)
  · have ht := List.all_eq_true.mp hcan t (mem_trees t)
    rw [hg.2, restoredTrees, Option.isSome_map] at ht
    exact ht
  refine Triple.bind (Q := fun _ g => (Quiet live archive startable g ∧ g.active = active) ∧
      g.fresh = restoredTrees archive ∧ (∀ t, (archive t).isSome = true) ∧ ∀ t, (live t).isSome = true)
    (run_triple (fun _ g hg hcan => ⟨hg.1, hg.2.1, hg.2.2, fun t => ?_⟩) (fun _ _ hg _ => Or.inl (hquiet hg.1))
      (fun _ _ _ hg _ _ => Or.inl (hquiet hg.1))) (fun _ => ?_)
  · have ht := List.all_eq_true.mp hcan t (mem_trees t)
    rw [hg.1.1.home, liveTrees, Option.isSome_map] at ht
    exact ht
  refine Triple.given (φ := (∀ t, (archive t).isSome = true) ∧ ∀ t, (live t).isSome = true)
    (fun _ hg => hg.2.2) (fun ⟨harchive, hlive⟩ => ?_)
  have hc := hc harchive hlive
  refine Triple.start (fun g₀ h₀ => ?_)
  have hstopped := stopWriters_triple hc h₀.1.2 h₀.1.1.startable
  refine Triple.bind (hstopped.mono (fun _ => id) (fun _ _ => id)
    (fun e g hg hne => Or.inl ((h₀.1.1.sameTrees (hg hne).1).settled (hg hne).2))) (fun prior => ?_)
  -- the first thing that is touched
  refine Triple.bind (Q := fun _ => Swapping live archive active startable [] trees)
    (Triple.update (fun g ⟨hg, hidle, hprior⟩ => ?_)) (fun _ => ?_)
  · have hq := h₀.1.1.sameTrees hg
    have hf : g.fresh = restoredTrees archive := by
      rw [hg]
      exact h₀.2.1
    refine ⟨⟨hidle, hq.startable, hprior, hq.restartSafe, rfl, hq.stage⟩, fun _ h => absurd h List.not_mem_nil,
      fun t _ => ⟨congrFun hq.home t, congrFun hq.old t, congrFun hf t⟩, hq.moved⟩
  refine Triple.bind (Q := fun _ g => g.home = restoredTrees archive ∧ Stopped active startable g)
    (onFailure_triple (swap_triple hlive harchive) (fun _ _ hne => absurd rfl hne) (fun e hne => ?_))
    (fun _ => ?_)
  · exact (undo_triple hlive harchive hc).mono (fun _ hg => hg hne) (fun _ _ hg _ => Or.inl hg)
      (fun _ _ hg hne => Or.inr (hg hne))
  refine Triple.bind (Q := fun _ => Settled live archive active startable)
    (Triple.update (fun g hg => ⟨Or.inr hg.1, hg.2.same, rfl, Or.inl ⟨rfl, hg.2.prior, hc⟩⟩))
    (fun _ => check_triple (fun _ _ hg _ => Or.inl hg))

/-! ## The last block -/

theorem Settled.swapped {g : Guest γ} (h : Consistent live archive g) (hs : Started active startable g) :
    Swapped live archive active startable g :=
  ⟨Or.inl h, fun u hu hsu => iff_of_true (hs u hu hsu) h⟩

theorem Mixed.swapped {g : Guest γ} (h : Mixed live archive active startable g) :
    Swapped live archive active startable g :=
  ⟨Or.inr h.stuck, fun u _ _ => iff_of_false (by rw [h.stopped.idle u]; exact Bool.false_ne_true) h.mixed⟩

/-- What is left of the stage is of no importance for the trees in their places. -/
theorem removeStage_keeps :
    Keeps (fun g : Guest γ => Consistent live archive g ∧ Started active startable g) removeStage := by
  refine Triple.perform (fun _ hg => hg) ?_
  intro m g hg r g' hr
  split at hr
  · cases hr
    exact hg
  · cases hr
    show Consistent live archive _ ∧ _
    split
    · exact hg
    · exact hg

theorem cleanUp_triple :
    Triple (fun g => Settled live archive active startable g ∨ Mixed live archive active startable g) cleanUp
      (fun _ => Swapped live archive active startable)
      (fun e g => e ≠ .killed → Swapped live archive active startable g) := by
  refine Triple.start (fun g₀ h₀ => Triple.bind (Q := fun g' g => g' = g₀ ∧ g = g₀)
    (Triple.read (fun _ hg => ⟨hg, hg⟩)) (fun g' => ?_))
  refine Triple.given (φ := g' = g₀) (fun _ hg => hg.1) (fun hg' => ?_)
  rw [hg']
  rcases h₀ with h₀ | h₀
  · refine Triple.bind (Q := fun _ g => Consistent live archive g ∧ Started active startable g)
      (onlyIf_triple (fun hr => ?_) (fun hr g hg => ?_)) (fun _ => ?_)
    · obtain ⟨hprior, hc⟩ : g₀.prior = priorOf active ∧ Startable active startable := by
        rcases h₀.writers with ⟨-, h⟩ | ⟨h, -⟩
        · exact h
        · rw [h] at hr
          cases hr
      have hcons : ∀ g, SameTrees g₀ g → Consistent live archive g := by
        intro g hg
        rw [hg]
        exact h₀.consistent
      rw [hprior]
      exact (restart_triple hc h₀.same).mono (fun _ hg => hg.2) (fun _ g hg => ⟨hcons g hg.1, hg.2⟩)
        (fun _ g hg hne => Settled.swapped (hcons g (hg hne).1) (hg hne).2)
    · rw [hg.2]
      rcases h₀.writers with ⟨h, -⟩ | ⟨-, h⟩
      · rw [h] at hr
        cases hr
      · exact ⟨h₀.consistent, h⟩
    · have hend : ∀ g : Guest γ, Consistent live archive g ∧ Started active startable g →
          Swapped live archive active startable g := fun _ hg => Settled.swapped hg.1 hg.2
      have hkeeps : Keeps (fun g => Consistent live archive g ∧ Started active startable g)
          (do removeStage; atomic fun _ g => { g with archive := fun _ => none }) :=
        Keeps.bind removeStage_keeps (fun _ => atomic_keeps (fun _ _ hg => hg))
      exact onlyIf_triple (fun _ => hkeeps.mono (fun _ => id) (fun _ => hend) (fun _ g hg _ => hend g hg))
        (fun _ => hend)
  · rw [h₀.stopped.restartSafe, h₀.stopped.cleanupSafe]
    refine Triple.bind (Q := fun _ g => g = g₀) (Triple.pure' (fun _ hg => hg.2)) (fun _ => ?_)
    exact Triple.pure' (fun g hg => hg ▸ h₀.swapped)

theorem restore_triple
    (hc : (∀ t, (archive t).isSome = true) → (∀ t, (live t).isSome = true) → Startable active startable) :
    Triple (fun g => g = Guest.initial live archive active startable) restore
      (fun _ => Swapped live archive active startable)
      (fun e g => e ≠ .killed → Swapped live archive active startable g) := by
  have huntouched : ∀ g, g = Guest.initial live archive active startable →
      Swapped live archive active startable g := by
    intro g hg
    rw [hg]
    exact Settled.swapped (Or.inl rfl) (fun u hu _ => hu)
  have hcheck : ∀ what, Triple (fun g => g = Guest.initial live archive active startable) (check what)
      (fun _ g => g = Guest.initial live archive active startable)
      (fun e g => e ≠ .killed → Swapped live archive active startable g) :=
    fun _ => check_triple (fun _ g hg _ => huntouched g hg)
  refine Triple.bind (hcheck _) (fun _ => Triple.bind (hcheck _) (fun _ => Triple.bind (hcheck _) (fun _ => ?_)))
  refine Triple.bind (lockFile_keeps.mono (fun _ => id) (fun _ _ => id) (fun _ g hg _ => huntouched g hg))
    (fun _ => ?_)
  have hquiet : Quiet live archive startable
      { Guest.initial live archive active startable with stage := true } :=
    ⟨rfl, rfl, rfl, rfl, rfl, rfl, rfl, rfl⟩
  have hstarted : Swapped live archive active startable
      { Guest.initial live archive active startable with stage := true } :=
    Settled.swapped (Or.inl rfl) (fun u hu _ => hu)
  refine Triple.bind (Q := fun _ g => Quiet live archive startable g ∧ g.active = active)
    (atomic_triple (fun _ g hg => by rw [hg]; exact ⟨hquiet, rfl⟩) (fun _ g hg _ => huntouched g hg)
      (fun _ _ g hg _ => by rw [hg]; exact hstarted)) (fun _ => ?_)
  have hdir : ∀ what, Triple (fun g => Quiet live archive startable g ∧ g.active = active) (check what)
      (fun _ g => Quiet live archive startable g ∧ g.active = active)
      (fun e g => e ≠ .killed → Swapped live archive active startable g) :=
    fun _ => check_triple (fun _ g hg _ => Settled.swapped (Or.inl hg.1.home) (fun u hu _ => by rw [hg.2]; exact hu))
  refine Triple.bind (hdir _) (fun _ => Triple.bind (hdir _) (fun _ => ?_))
  refine Triple.bind (Q := fun _ => Settled live archive active startable)
    (onFailure_triple (replaceTrees_triple hc) (fun _ _ hne => absurd rfl hne) (fun e hne => ?_)) (fun _ => ?_)
  · exact cleanUp_triple.mono (fun _ hg => hg hne) (fun _ _ hg _ => hg) (fun _ _ => id)
  · exact cleanUp_triple.pre (fun _ hg => Or.inl hg)

/-! ## When it holds of every run -/

/-- Both writers have been stopped when `podman ps` fails. -/
def refusing : List Moment := List.replicate 14 ({} : Moment) ++ { verdict := .failed } :: List.replicate 3 ({} : Moment)

/-- The worker cannot be started, the gateway could be. -/
def onlyGateway (u : Writer) : Bool := u == .gateway

theorem refusing_result (old new : Tree → γ) :
    restore.result refusing (.initial (fun t => some (old t)) (fun t => some (new t)) (fun _ => true) onlyGateway) =
      .error (.failure 1 "systemctl failed") := rfl

theorem not_swapped_refusing (old new : Tree → γ) :
    ¬Swapped (fun t => some (old t)) (fun t => some (new t)) (fun _ => true) onlyGateway (restore.after refusing
      (.initial (fun t => some (old t)) (fun t => some (new t)) (fun _ => true) onlyGateway)) := by
  intro h
  have hstopped := (h.writers .gateway rfl rfl).mpr (Or.inl rfl)
  exact Bool.false_ne_true hstopped

/-- A restore swaps the trees or puts them back, and starts the writers exactly then, wherever
    it fails, if and only if a gateway that was active and can be started does not wait for a
    worker that was active and cannot. -/
theorem restored (live archive : Tree → Option γ) (active startable : Writer → Bool) :
    (∀ t, restore.result t (.initial live archive active startable) ≠ .error .killed →
      Swapped live archive active startable (restore.after t (.initial live archive active startable))) ↔
    ((∀ t, (archive t).isSome = true) → (∀ t, (live t).isSome = true) → Startable active startable) := by
  constructor
  · intro h harchive hlive hg hw hsg
    cases hsw : startable .worker with
    | true => rfl
    | false =>
      have ha : active = fun _ => true := by
        funext u
        cases u <;> assumption
      have hs : startable = onlyGateway := by
        funext u
        cases u <;> assumption
      obtain ⟨old, rfl⟩ : ∃ old : Tree → γ, live = fun t => some (old t) :=
        ⟨fun t => (live t).get (hlive t), funext fun t => (Option.some_get (hlive t)).symm⟩
      obtain ⟨new, rfl⟩ : ∃ new : Tree → γ, archive = fun t => some (new t) :=
        ⟨fun t => (archive t).get (harchive t), funext fun t => (Option.some_get (harchive t)).symm⟩
      rw [ha, hs] at h
      refine absurd (h refusing (fun hk => ?_)) (not_swapped_refusing old new)
      rw [refusing_result] at hk
      cases hk
  · intro hc t
    have h := restore_triple hc t _ rfl
    simp only [Proc.result, Proc.after]
    revert h
    rcases restore t (Guest.initial live archive active startable) with ⟨r, t', g⟩
    cases r with
    | ok _ => exact fun h _ => h
    | error e => exact fun h hne => h (fun he => hne (by rw [he]))

/-- The gateway is not started though every tree is in its place. -/
theorem gateway_left_stopped :
    restore.result refusing (.initial (fun _ => some (0 : Nat)) (fun _ => some 1) (fun _ => true) onlyGateway) =
        .error (.failure 1 "systemctl failed") ∧
      (restore.after refusing (.initial (fun _ => some (0 : Nat)) (fun _ => some 1) (fun _ => true) onlyGateway)).home =
        liveTrees (fun _ => some (0 : Nat)) ∧
      ¬Swapped (fun _ => some (0 : Nat)) (fun _ => some 1) (fun _ => true) onlyGateway
        (restore.after refusing (.initial (fun _ => some (0 : Nat)) (fun _ => some 1) (fun _ => true) onlyGateway)) :=
  ⟨refusing_result (fun _ => 0) (fun _ => 1), rfl, not_swapped_refusing (fun _ => 0) (fun _ => 1)⟩

end Restore

end Hermes.LabGuest

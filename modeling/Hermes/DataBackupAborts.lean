import Hermes.DataBackup

/- What an aborted data backup leaves of the containers.

   `Held P₀ todo pending w`: every container of the host is as it was in `P₀`, or
   its policy is recorded and its stop noted, so that the EXIT trap can undo it;
   the containers in `todo` are untouched. The loop carries this, but installs
   the trap only at its end. -/
namespace Hermes.DataBackup
open Process Shell

/-- The containers run again that ran before, under the policies they had. -/
structure Restored (before after : Podman) : Prop where
  running : ∀ c ∈ before.ids, (before.container c).running = true →
    (after.container c).running = true
  policy : ∀ c ∈ before.ids, (after.container c).policy = (before.container c).policy

theorem Restored.refl (p : Podman) : Restored p p := ⟨fun _ _ h => h, fun _ _ => rfl⟩

/-- A container of this policy had it taken away, with a record of it. -/
structure Recorded (P₀ : Podman) (w : Remote) (c : String) : Prop where
  record : (c, (P₀.container c).policy) ∈ w.policies
  nonempty : (P₀.container c).policy ≠ ""
  real : (P₀.container c).policy ≠ "none"
  user : w.users c = some w.owner

/-- A container that ran was stopped, and the trap will find it. -/
structure Noted (P₀ : Podman) (pending : List String) (w : Remote) (c : String) : Prop where
  noted : c ∈ w.stopped ++ pending
  ran : (P₀.container c).running = true
  user : w.users c = some w.owner

/-- A container is not what it was. -/
def Differs (P₀ : Podman) (w : Remote) (c : String) : Prop :=
  (w.podman.container c).policy ≠ (P₀.container c).policy ∨
    ((P₀.container c).running = true ∧ (w.podman.container c).running = false)

/-- The observation `changed` is right, and the records tell the old policies. -/
structure Observed (P₀ : Podman) (w : Remote) : Prop where
  faithful : ∀ r ∈ w.policies, r.2 = (P₀.container r.1).policy
  nothing : w.changed = [] → w.podman = P₀
  something : ∀ c ∈ w.changed, c ∈ P₀.ids ∧ Differs P₀ w c

structure Held (P₀ : Podman) (todo pending : List String) (w : Remote) : Prop where
  observed : Observed P₀ w
  ids : w.podman.ids = P₀.ids
  mounts : ∀ c, (w.podman.container c).mounts = (P₀.container c).mounts
  policy : ∀ c, (w.podman.container c).policy = (P₀.container c).policy ∨ Recorded P₀ w c
  running : ∀ c, (w.podman.container c).running = (P₀.container c).running ∨
    Noted P₀ pending w c
  stopped : ∀ c ∈ w.stopped, c ≠ "" ∧ (P₀.container c).running = true
  todo : ∀ c ∈ todo, w.podman.container c = P₀.container c

/-! ## Podman -/

theorem Podman.ext' {p q : Podman} (hi : p.ids = q.ids) (hc : ∀ c, p.container c = q.container c) :
    p = q := by
  cases p with
  | mk ids container distinct =>
    cases q with
    | mk ids' container' distinct' =>
      have h : container = container' := funext hc
      subst h
      cases hi
      rfl

@[simp] theorem set_self (p : Podman) (c : String) (x : Container) :
    (p.set c x).container c = x := by
  simp [Podman.set]

theorem set_other (p : Podman) {c d : String} (x : Container) (h : d ≠ c) :
    (p.set c x).container d = p.container d := by
  simp [Podman.set, h]

@[simp] theorem set_ids (p : Podman) (c : String) (x : Container) : (p.set c x).ids = p.ids := rfl

theorem set_same (p : Podman) (c : String) : p.set c (p.container c) = p := by
  apply Podman.ext' (set_ids p c _)
  intro d
  by_cases h : d = c
  · rw [h, set_self]
  · exact set_other p _ h

theorem update_same {p : Podman} {c policy : String} (h : (p.container c).policy = policy) :
    p.update c policy = p := by
  unfold Podman.update
  rw [show ({ p.container c with policy := policy } : Container) = p.container c by
    rw [← h]]
  exact set_same p c

theorem stop_same {p : Podman} {c : String} (h : (p.container c).running = false) :
    p.stop c = p := by
  unfold Podman.stop
  rw [show ({ p.container c with running := false } : Container) = p.container c by rw [← h]]
  exact set_same p c

theorem start_same {p : Podman} {c : String} (h : (p.container c).running = true) :
    p.start c = p := by
  unfold Podman.start
  rw [show ({ p.container c with running := true } : Container) = p.container c by rw [← h]]
  exact set_same p c

theorem mem_putPolicy {policies : List (String × String)} {c policy : String}
    {r : String × String} (h : r ∈ putPolicy policies c policy) :
    r ∈ policies ∨ r = (c, policy) := by
  simp only [putPolicy, List.mem_append, List.mem_filter, List.mem_singleton] at h
  exact h.imp And.left id

theorem mem_putPolicy_of {policies : List (String × String)} {c policy : String}
    {r : String × String} (h : r ∈ policies) (hc : r.1 ≠ c) : r ∈ putPolicy policies c policy := by
  simp [putPolicy, h, hc]

theorem put_mem (policies : List (String × String)) (c policy : String) :
    (c, policy) ∈ putPolicy policies c policy := by
  simp [putPolicy]

/-! ## The rules of the commands -/

/-- A command that errexit counts for, from one kind of host to another; `F` holds
    wherever the script is left. -/
abbrev Takes {α : Type} (P : Remote → Prop) (c : Cmd α) (Q : α → Remote → Prop)
    (F : Remote → Prop) : Prop :=
  Runs (fun _ w => P w) c false (fun a _ w => Q a w) (fun _ w => F w)

section
variable {P Q F : Remote → Prop}

theorem takes_act {effect : Remote → Remote} (hq : ∀ w, P w → Q (effect w))
    (hp : ∀ w, P w → F w) (hf : ∀ w, P w → F (effect w)) :
    Takes P (act effect) (fun _ => Q) F := by
  apply Runs.outside (fun _ w hw => hp w hw)
  intro m _ w hw r w' hr
  have hF : F (if m.status = 0 ∨ m.applied = true then effect w else w) := by
    split
    · exact hf w hw
    · exact hp w hw
  by_cases ht : m.terminated = true
  · simp only [ht, if_true, Prod.mk.injEq] at hr
    obtain ⟨rfl, rfl⟩ := hr
    exact hF
  · simp only [ht, Bool.false_eq_true, if_false, Prod.mk.injEq] at hr
    obtain ⟨rfl, rfl⟩ := hr
    refine ⟨fun h0 => ?_, fun _ _ => hF⟩
    have h0 : m.status = 0 := h0.resolve_right (by simp)
    simp only [h0, true_or, if_true]
    exact hq w hw

theorem takes_look {α : Type} {value : Remote → α} {none : α} {T : α → Remote → Prop}
    (hp : ∀ w, P w → F w) (hv : ∀ w, P w → T (value w) w) (hn : ∀ w, P w → T none w) :
    Takes P (look value none) T F := by
  apply Runs.outside (fun _ w hw => hp w hw)
  intro m _ w hw r w' hr
  by_cases ht : m.terminated = true
  · simp only [ht, if_true, Prod.mk.injEq] at hr
    obtain ⟨rfl, rfl⟩ := hr
    exact hp w hw
  · simp only [ht, Bool.false_eq_true, if_false, Prod.mk.injEq] at hr
    obtain ⟨rfl, rfl⟩ := hr
    refine ⟨fun _ => ?_, fun h => absurd rfl h⟩
    by_cases h0 : m.status = 0
    · simp only [h0, if_true]; exact hv w hw
    · simp only [h0, if_false]; exact hn w hw

/-- A tested question: a zero says yes. -/
theorem tests_check {holds : Remote → Bool} (hp : ∀ w, P w → F w) :
    Runs (fun _ w => P w) (check holds) true (fun _ n w => P w ∧ (n = 0 → holds w = true))
      (fun _ w => F w) := by
  apply Runs.outside (fun _ w hw => hp w hw)
  intro m _ w hw r w' hr
  by_cases ht : m.terminated = true
  · simp only [ht, if_true, Prod.mk.injEq] at hr
    obtain ⟨rfl, rfl⟩ := hr
    exact hp w hw
  · simp only [ht, Bool.false_eq_true, if_false, Prod.mk.injEq] at hr
    obtain ⟨rfl, rfl⟩ := hr
    refine ⟨fun _ => ⟨hw, fun h => ?_⟩, fun _ h => absurd h (by simp)⟩
    by_cases hc : m.status = 0 ∧ holds w = true
    · exact hc.2
    · simp only [hc, if_false] at h
      exact absurd h (by decide)

end

/-- The host is held so far, and the trap is not installed. -/
structure Holding (P₀ : Podman) (owner : String) (todo pending : List String) (w : Remote) :
    Prop where
  held : Held P₀ todo pending w
  owner : w.owner = owner
  trap : w.trap = false

/-- While the trap is installed. -/
structure Trapped (P₀ : Podman) (owner : String) (w : Remote) : Prop where
  held : Held P₀ [] [] w
  owner : w.owner = owner
  named : w.owner ≠ ""
  trap : w.trap = true

/-- Where the script may be left. -/
structure Left (P₀ : Podman) (owner : String) (w : Remote) : Prop where
  observed : Observed P₀ w
  trapped : w.trap = true → Trapped P₀ owner w
  owner : w.owner = owner

theorem Holding.left {P₀ : Podman} {owner : String} {todo pending : List String} {w : Remote}
    (h : Holding P₀ owner todo pending w) : Left P₀ owner w :=
  ⟨h.held.observed, fun ht => absurd (ht.symm.trans h.trap) (by decide), h.owner⟩

/-! ## One container -/

section
variable {P₀ : Podman} {owner c : String} {todo pending : List String} {w : Remote}

/-- Commands that touch neither the containers nor what is known of them. -/
theorem Held.congr {w' : Remote} (h : Held P₀ todo pending w) (hp : w'.podman = w.podman)
    (hr : w'.policies = w.policies) (hu : w'.users = w.users) (hs : w'.stopped = w.stopped)
    (hc : w'.changed = w.changed) (ho : w'.owner = w.owner) : Held P₀ todo pending w' where
  observed := by
    refine ⟨?_, ?_, ?_⟩
    · rw [hr]; exact h.observed.faithful
    · rw [hc, hp]; exact h.observed.nothing
    · rw [hc]; unfold Differs; rw [hp]; exact h.observed.something
  ids := by rw [hp]; exact h.ids
  mounts := by rw [hp]; exact h.mounts
  policy d := by
    rw [hp]
    apply (h.policy d).imp id
    exact fun hd => ⟨by rw [hr]; exact hd.record, hd.nonempty, hd.real, by rw [hu, ho]; exact hd.user⟩
  running d := by
    rw [hp]
    apply (h.running d).imp id
    exact fun hd => ⟨by rw [hs]; exact hd.noted, hd.ran, by rw [hu, ho]; exact hd.user⟩
  stopped := by rw [hs]; exact h.stopped
  todo := by rw [hp]; exact h.todo

theorem Held.tail (h : Held P₀ (c :: todo) pending w) : Held P₀ todo pending w :=
  { h with todo := fun d hd => h.todo d (by simp [hd]) }

theorem Holding.tail (h : Holding P₀ owner (c :: todo) pending w) :
    Holding P₀ owner todo pending w :=
  ⟨h.held.tail, h.owner, h.trap⟩

/-- The container in hand, before anything happened to it. -/
structure Grasped (P₀ : Podman) (owner c : String) (todo : List String) (w : Remote) : Prop where
  holding : Holding P₀ owner (c :: todo) [] w
  user : w.users c = some owner

/-- The container in hand, its restart policy dealt with. -/
structure Tamed (P₀ : Podman) (owner c : String) (todo : List String) (w : Remote) : Prop where
  holding : Holding P₀ owner todo [] w
  user : w.users c = some owner
  running : (w.podman.container c).running = (P₀.container c).running

theorem Grasped.tamed (h : Grasped P₀ owner c todo w) : Tamed P₀ owner c todo w :=
  ⟨h.holding.tail, h.user, by rw [h.holding.held.todo c (by simp)]⟩

theorem recordUser_takes : Takes (Holding P₀ owner (c :: todo) []) (recordUser owner c)
    (fun _ => Grasped P₀ owner c todo) (Left P₀ owner) := by
  have hset : ∀ w, Holding P₀ owner (c :: todo) [] w → Grasped P₀ owner c todo
      { w with users := fun d => if d = c then some owner else w.users d } := by
    intro w h
    refine ⟨⟨{ h.held with policy := ?_, running := ?_, observed := ?_ }, h.owner, h.trap⟩, by simp⟩
    · exact ⟨h.held.observed.faithful, h.held.observed.nothing, h.held.observed.something⟩
    · intro d
      apply (h.held.policy d).imp id
      intro hd
      refine ⟨hd.record, hd.nonempty, hd.real, ?_⟩
      show (if d = c then some owner else w.users d) = some w.owner
      rw [hd.user, h.owner, ite_self]
    · intro d
      apply (h.held.running d).imp id
      intro hd
      refine ⟨hd.noted, hd.ran, ?_⟩
      show (if d = c then some owner else w.users d) = some w.owner
      rw [hd.user, h.owner, ite_self]
  exact takes_act hset (fun w h => h.left) (fun w h => (hset w h).holding.left)

/-- The record of the policy, made before the policy is taken away. -/
structure Noticed (P₀ : Podman) (owner c : String) (todo : List String) (w : Remote) : Prop where
  grasped : Grasped P₀ owner c todo w
  record : (c, (P₀.container c).policy) ∈ w.policies
  nonempty : (P₀.container c).policy ≠ ""
  real : (P₀.container c).policy ≠ "none"

theorem recordPolicy_takes (hn : (P₀.container c).policy ≠ "") (hr : (P₀.container c).policy ≠ "none") :
    Takes (Grasped P₀ owner c todo) (recordPolicy c (P₀.container c).policy)
      (fun _ => Noticed P₀ owner c todo) (Left P₀ owner) := by
  have hset : ∀ w, Grasped P₀ owner c todo w → Noticed P₀ owner c todo
      { w with policies := putPolicy w.policies c (P₀.container c).policy } := by
    intro w h
    have hh := h.holding.held
    have hpol : ∀ d, (w.podman.container d).policy = (P₀.container d).policy ∨
        Recorded P₀ { w with policies := putPolicy w.policies c (P₀.container c).policy } d := by
      intro d
      by_cases hd : d = c
      · exact Or.inl (by rw [hd, hh.todo c (by simp)])
      · apply (hh.policy d).imp id
        exact fun hr => ⟨mem_putPolicy_of hr.record hd, hr.nonempty, hr.real, hr.user⟩
    have hobs : ∀ r ∈ putPolicy w.policies c (P₀.container c).policy,
        r.2 = (P₀.container r.1).policy := by
      intro r hm
      cases mem_putPolicy hm with
      | inl hm => exact hh.observed.faithful r hm
      | inr hm => rw [hm]
    have hheld : Held P₀ (c :: todo) []
        { w with policies := putPolicy w.policies c (P₀.container c).policy } :=
      ⟨⟨hobs, hh.observed.nothing, hh.observed.something⟩, hh.ids, hh.mounts, hpol,
        fun d => (hh.running d).imp id (fun hd => ⟨hd.noted, hd.ran, hd.user⟩), hh.stopped, hh.todo⟩
    exact ⟨⟨⟨hheld, h.holding.owner, h.holding.trap⟩, h.user⟩, put_mem _ _ _, hn, hr⟩
  exact takes_act hset (fun w h => h.holding.left) (fun w h => (hset w h).grasped.holding.left)

/-- Another container is not affected by what happens to `c`. -/
theorem differs_other {x : Container} {w' : Remote} (hw : w'.podman = w.podman.set c x) {d : String}
    (hd : d ≠ c) : Differs P₀ w' d ↔ Differs P₀ w d := by
  unfold Differs
  rw [hw, set_other _ _ hd]

theorem forbidRestart_takes (hc : c ∈ P₀.ids) (hnew : c ∉ todo) :
    Takes (Noticed P₀ owner c todo) (forbidRestart c) (fun _ => Tamed P₀ owner c todo)
      (Left P₀ owner) := by
  have hset : ∀ w, Noticed P₀ owner c todo w → Tamed P₀ owner c todo
      { w with
        podman := w.podman.update c "no"
        changed := if (w.podman.container c).policy = "no" then w.changed else c :: w.changed } := by
    intro w h
    have hh := h.grasped.holding.held
    have hwc : w.podman.container c = P₀.container c := hh.todo c (by simp)
    have hdiff : ¬(w.podman.container c).policy = "no" → Differs P₀
        { w with
          podman := w.podman.update c "no"
          changed := if (w.podman.container c).policy = "no" then w.changed else c :: w.changed } c := by
      intro hno
      apply Or.inl
      show ((w.podman.update c "no").container c).policy ≠ _
      rw [Podman.update, set_self, ← hwc]
      exact fun he => hno he.symm
    have hsome : ∀ d ∈ w.changed, d ∈ P₀.ids ∧ Differs P₀
        { w with
          podman := w.podman.update c "no"
          changed := if (w.podman.container c).policy = "no" then w.changed else c :: w.changed } d := by
      intro d hd
      obtain ⟨hmem, hdf⟩ := hh.observed.something d hd
      refine ⟨hmem, ?_⟩
      have hne : d ≠ c := by
        intro he
        rw [he] at hdf
        unfold Differs at hdf
        rw [hwc] at hdf
        cases hdf with
        | inl hp => exact hp rfl
        | inr hr => exact absurd (hr.1.symm.trans hr.2) (by decide)
      exact (differs_other rfl hne).mpr hdf
    refine ⟨⟨⟨⟨hh.observed.faithful, ?_, ?_⟩, hh.ids, ?_, ?_, ?_, hh.stopped, ?_⟩,
      h.grasped.holding.owner, h.grasped.holding.trap⟩, h.grasped.user, ?_⟩
    · intro hch
      by_cases hno : (w.podman.container c).policy = "no"
      · simp only [hno, if_true] at hch
        show w.podman.update c "no" = P₀
        rw [update_same hno]
        exact hh.observed.nothing hch
      · simp only [hno, if_false] at hch
        exact absurd hch (by simp)
    · intro d hd
      by_cases hno : (w.podman.container c).policy = "no"
      · simp only [hno, if_true] at hd
        exact hsome d hd
      · simp only [hno, if_false, List.mem_cons] at hd
        cases hd with
        | inl he => rw [he]; exact ⟨hc, hdiff hno⟩
        | inr hd => exact hsome d hd
    · intro d
      show ((w.podman.update c "no").container d).mounts = _
      by_cases hd : d = c
      · rw [hd, Podman.update, set_self]; exact hh.mounts c
      · rw [Podman.update, set_other _ _ hd]; exact hh.mounts d
    · intro d
      show ((w.podman.update c "no").container d).policy = _ ∨ _
      by_cases hd : d = c
      · apply Or.inr
        rw [hd]
        exact ⟨h.record, h.nonempty, h.real, h.grasped.user.trans (by rw [← h.grasped.holding.owner]; rfl)⟩
      · rw [Podman.update, set_other _ _ hd]
        exact (hh.policy d).imp id (fun hr => ⟨hr.record, hr.nonempty, hr.real, hr.user⟩)
    · intro d
      show ((w.podman.update c "no").container d).running = _ ∨ _
      by_cases hd : d = c
      · rw [hd, Podman.update, set_self, hwc]; exact Or.inl rfl
      · rw [Podman.update, set_other _ _ hd]
        exact (hh.running d).imp id (fun hr => ⟨hr.noted, hr.ran, hr.user⟩)
    · intro d hd
      show (w.podman.update c "no").container d = _
      have hne : d ≠ c := fun he => hnew (he ▸ hd)
      rw [Podman.update, set_other _ _ hne]
      exact hh.todo d (by simp [hd])
    · show ((w.podman.update c "no").container c).running = _
      rw [Podman.update, set_self, hwc]
  exact takes_act hset (fun w h => h.grasped.holding.left) (fun w h => (hset w h).holding.left)

theorem disableRestart_takes (hc : c ∈ P₀.ids) (hnew : c ∉ todo) :
    Takes (Grasped P₀ owner c todo) (disableRestart c) (fun _ => Tamed P₀ owner c todo)
      (Left P₀ owner) := by
  have hlook : Takes (Grasped P₀ owner c todo) (inspectPolicy c)
      (fun policy w => (policy = "" ∨ policy = (P₀.container c).policy) ∧ Grasped P₀ owner c todo w)
      (Left P₀ owner) := by
    apply takes_look (fun w h => h.holding.left)
    · exact fun w h => ⟨Or.inr (by rw [h.holding.held.todo c (by simp)]), h⟩
    · exact fun w h => ⟨Or.inl rfl, h⟩
  apply Runs.bind hlook
  intro policy
  apply Shell.Runs.ite
  · intro hp
    apply Runs.given (fun _ _ h => h.1)
    intro hv
    have hv : policy = (P₀.container c).policy := hv.resolve_left hp.1
    subst hv
    apply Runs.bind ((recordPolicy_takes hp.1 hp.2).pre (fun _ _ h => h.2))
    exact fun _ => forbidRestart_takes hc hnew
  · exact fun _ => Runs.pure' (fun _ _ h => h.2.tamed)

/-- The container in hand, stopped but not yet noted. -/
structure Halted (P₀ : Podman) (owner c : String) (todo : List String) (w : Remote) : Prop where
  holding : Holding P₀ owner todo [c] w
  ran : (P₀.container c).running = true

theorem stopContainer_takes (hc : c ∈ P₀.ids) (hnew : c ∉ todo) :
    Takes (fun w => Tamed P₀ owner c todo w ∧ (w.podman.container c).running = true) (stopContainer c)
      (fun _ => Halted P₀ owner c todo) (Left P₀ owner) := by
  have hset : ∀ w, Tamed P₀ owner c todo w ∧ (w.podman.container c).running = true →
      Halted P₀ owner c todo { w with
        podman := w.podman.stop c
        changed := if (w.podman.container c).running then c :: w.changed else w.changed } := by
    intro w hw
    obtain ⟨h, hrun⟩ := hw
    have hh := h.holding.held
    have hran : (P₀.container c).running = true := h.running.symm.trans hrun
    have hsome : ∀ d, d ∈ w.changed → Differs P₀ { w with
        podman := w.podman.stop c
        changed := if (w.podman.container c).running then c :: w.changed else w.changed } d := by
      intro d hd
      by_cases he : d = c
      · apply Or.inr
        rw [he]
        refine ⟨hran, ?_⟩
        show ((w.podman.stop c).container c).running = false
        rw [Podman.stop, set_self]
      · exact (differs_other rfl he).mpr (hh.observed.something d hd).2
    refine ⟨⟨⟨⟨hh.observed.faithful, ?_, ?_⟩, hh.ids, ?_, ?_, ?_, hh.stopped, ?_⟩,
      h.holding.owner, h.holding.trap⟩, hran⟩
    · intro hch
      simp only [hrun, if_true] at hch
      exact absurd hch (by simp)
    · intro d hd
      simp only [hrun, if_true, List.mem_cons] at hd
      cases hd with
      | inl he =>
        rw [he]
        refine ⟨hc, Or.inr ⟨hran, ?_⟩⟩
        show ((w.podman.stop c).container c).running = false
        rw [Podman.stop, set_self]
      | inr hd => exact ⟨(hh.observed.something d hd).1, hsome d hd⟩
    · intro d
      show ((w.podman.stop c).container d).mounts = _
      by_cases hd : d = c
      · rw [hd, Podman.stop, set_self]; exact hh.mounts c
      · rw [Podman.stop, set_other _ _ hd]; exact hh.mounts d
    · intro d
      show ((w.podman.stop c).container d).policy = _ ∨ _
      by_cases hd : d = c
      · rw [hd, Podman.stop, set_self]
        exact (hh.policy c).imp id (fun hr => ⟨hr.record, hr.nonempty, hr.real, hr.user⟩)
      · rw [Podman.stop, set_other _ _ hd]
        exact (hh.policy d).imp id (fun hr => ⟨hr.record, hr.nonempty, hr.real, hr.user⟩)
    · intro d
      show ((w.podman.stop c).container d).running = _ ∨ _
      by_cases hd : d = c
      · apply Or.inr
        rw [hd]
        exact ⟨by simp, hran, h.user.trans (by rw [← h.holding.owner]; rfl)⟩
      · rw [Podman.stop, set_other _ _ hd]
        apply (hh.running d).imp id
        exact fun hr => ⟨List.mem_append_left _ (by simpa using hr.noted), hr.ran, hr.user⟩
    · intro d hd
      show (w.podman.stop c).container d = _
      have hne : d ≠ c := fun he => hnew (he ▸ hd)
      rw [Podman.stop, set_other _ _ hne]
      exact hh.todo d hd
  exact takes_act hset (fun w h => h.1.holding.left) (fun w h => (hset w h).holding.left)

theorem stopRunning_takes (hc : c ∈ P₀.ids) (hnew : c ∉ todo) (hne : c ≠ "") :
    Takes (Tamed P₀ owner c todo) (stopRunning c) (fun _ => Holding P₀ owner todo [])
      (Left P₀ owner) := by
  apply Runs.ifThen (tests_check (fun w h => h.holding.left))
  · refine Runs.bind (Q := fun _ _ w => Tamed P₀ owner c todo w ∧
      (w.podman.container c).running = true) ?_ (fun _ => ?_)
    · apply Runs.pre (P := fun _ w => Tamed P₀ owner c todo w ∧ (w.podman.container c).running = true)
      · have hset : ∀ w, (Tamed P₀ owner c todo w ∧ (w.podman.container c).running = true) →
            (Tamed P₀ owner c todo { w with runnings := c :: w.runnings.erase c } ∧
              (w.podman.container c).running = true) := by
          intro w h
          exact ⟨⟨⟨h.1.holding.held.congr rfl rfl rfl rfl rfl rfl, h.1.holding.owner,
            h.1.holding.trap⟩, h.1.user, h.1.running⟩, h.2⟩
        exact takes_act hset (fun w h => h.1.holding.left) (fun w h => (hset w h).1.holding.left)
      · exact fun _ _ h => ⟨h.2.1, h.2.2 h.1⟩
    · apply Runs.bind (stopContainer_takes hc hnew)
      intro _
      apply Runs.modify
      intro _ w h
      have hh := h.holding.held
      refine ⟨⟨⟨hh.observed.faithful, hh.observed.nothing, hh.observed.something⟩, hh.ids, hh.mounts,
        fun d => (hh.policy d).imp id (fun hr => ⟨hr.record, hr.nonempty, hr.real, hr.user⟩),
        ?_, ?_, hh.todo⟩, h.holding.owner, h.holding.trap⟩
      · intro d
        apply (hh.running d).imp id
        exact fun hr => ⟨by simpa using hr.noted, hr.ran, hr.user⟩
      · intro d hd
        cases List.mem_append.mp hd with
        | inl hd => exact hh.stopped d hd
        | inr hd => rw [List.mem_singleton.mp hd]; exact ⟨hne, h.ran⟩
  · exact fun _ w _ h => h.1.holding

theorem holdMounted_takes (hc : c ∈ P₀.ids) (hnew : c ∉ todo) (hne : c ≠ "") :
    Takes (Holding P₀ owner (c :: todo) []) (holdMounted owner c)
      (fun _ => Holding P₀ owner todo []) (Left P₀ owner) := by
  apply Runs.bind recordUser_takes
  intro _
  apply Runs.bind (disableRestart_takes hc hnew)
  exact fun _ => stopRunning_takes hc hnew hne

/-- The loop step: one more container is held. -/
theorem holdContainer_takes (hc : c ∈ P₀.ids) (hnew : c ∉ todo) :
    Takes (Holding P₀ owner (c :: todo) []) (holdContainer owner c)
      (fun _ => Holding P₀ owner todo []) (Left P₀ owner) := by
  unfold holdContainer
  apply Shell.Runs.ite
  · exact fun _ => Runs.pure' (fun _ _ h => h.tail)
  · intro hne
    apply Runs.bind (Q := fun _ _ w => Holding P₀ owner (c :: todo) [] w)
    · exact takes_look (fun w h => h.left) (fun _ h => h) (fun _ h => h)
    · intro mounts
      apply Shell.Runs.ite
      · exact fun _ => holdMounted_takes hc hnew hne
      · exact fun _ => Runs.pure' (fun _ _ h => h.tail)

end

variable {P₀ : Podman} {owner : String}

/-- The loop: the containers before `todo` are held. -/
theorem holdContainers_takes (todo : List String) (hmem : ∀ c ∈ todo, c ∈ P₀.ids)
    (hnd : todo.Nodup) :
    Takes (Holding P₀ owner todo []) (Sh.forEach todo (holdContainer owner))
      (fun _ => Holding P₀ owner [] []) (Left P₀ owner) := by
  induction todo with
  | nil => exact Runs.pure' (fun _ _ h => h)
  | cons c todo ih =>
    have hc : c ∈ P₀.ids := hmem c (by simp)
    have hnew : c ∉ todo := (List.nodup_cons.mp hnd).1
    apply Runs.bind (holdContainer_takes hc hnew)
    exact fun _ => ih (fun d hd => hmem d (by simp [hd])) (List.nodup_cons.mp hnd).2

/-! ## One attempt -/

/-- A host whose containers are as they were in `P₀`, with what earlier attempts recorded. -/
structure Intact (P₀ : Podman) (owner : String) (w : Remote) : Prop where
  podman : w.podman = P₀
  faithful : ∀ r ∈ w.policies, r.2 = (P₀.container r.1).policy
  owner : w.owner = owner

/-- The host at the start of an attempt, while nothing is held. -/
structure Starting (P₀ : Podman) (owner : String) (w : Remote) : Prop where
  intact : Intact P₀ owner w
  stopped : w.stopped = []
  trap : w.trap = false
  changed : w.changed = []

theorem Intact.fresh {w : Remote} (h : Intact P₀ owner w) : Starting P₀ owner w.fresh :=
  ⟨⟨h.podman, h.faithful, h.owner⟩, rfl, rfl, rfl⟩

theorem Starting.holding {w : Remote} (h : Starting P₀ owner w) (todo : List String) :
    Holding P₀ owner todo [] w := by
  have hp := h.intact.podman
  have hobs : Observed P₀ w := by
    refine ⟨h.intact.faithful, fun _ => hp, ?_⟩
    intro c hc
    rw [h.changed] at hc
    exact absurd hc (by simp)
  refine ⟨⟨hobs, by rw [hp], fun c => by rw [hp], fun c => Or.inl (by rw [hp]),
    fun c => Or.inl (by rw [hp]), ?_, fun c _ => by rw [hp]⟩, h.intact.owner, h.trap⟩
  intro c hc
  rw [h.stopped] at hc
  exact absurd hc (by simp)

theorem Starting.left {w : Remote} (h : Starting P₀ owner w) : Left P₀ owner w :=
  (h.holding []).left

theorem detectRuntime_takes : Takes (Starting P₀ owner) detectRuntime (fun _ => Starting P₀ owner)
    (Left P₀ owner) := by
  have hps : Takes (Starting P₀ owner) psAll (fun _ => Starting P₀ owner) (Left P₀ owner) :=
    takes_look (fun _ h => h.left) (fun _ h => h) (fun _ h => h)
  have hcount : ∀ (ids : List String) (n : Nat), Takes (Starting P₀ owner) (countMounted ids n)
      (fun _ => Starting P₀ owner) (Left P₀ owner) := by
    intro ids
    induction ids with
    | nil => exact fun n => Runs.pure' (fun _ _ h => h)
    | cons c ids ih =>
      intro n
      apply Runs.bind (Q := fun _ _ w => Starting P₀ owner w)
      · exact takes_look (fun _ h => h.left) (fun _ h => h) (fun _ h => h)
      · exact fun _ => ih _
  apply Runs.bind (Runs.bind hps (fun ids => hcount ids 0))
  intro count
  have hset : ∀ w, Starting P₀ owner w → Starting P₀ owner { w with
      runtimeState := some (if w.hermes then "managed"
        else if 0 < count then "manual-container" else "fresh") } :=
    fun w h => ⟨⟨h.intact.podman, h.intact.faithful, h.intact.owner⟩, h.stopped, h.trap, h.changed⟩
  exact takes_act hset (fun _ h => h.left) (fun w h => (hset w h).left)

/-- Marking the stage does not concern the containers. -/
theorem markStage_takes {todo pending : List String} : Takes (Holding P₀ owner todo pending) markStage
    (fun _ => Holding P₀ owner todo pending) (Left P₀ owner) := by
  have hset : ∀ w, Holding P₀ owner todo pending w →
      Holding P₀ owner todo pending { w with marked := true } :=
    fun w h => ⟨h.held.congr rfl rfl rfl rfl rfl rfl, h.owner, h.trap⟩
  exact takes_act hset (fun _ h => h.left) (fun w h => (hset w h).left)

theorem Trapped.left {w : Remote} (h : Trapped P₀ owner w) : Left P₀ owner w :=
  ⟨h.held.observed, fun _ => h, h.owner⟩

theorem writeArchive_takes : Takes (Trapped P₀ owner) writeArchive (fun _ => Trapped P₀ owner)
    (Left P₀ owner) := by
  have hact : ∀ effect : Remote → Remote, (∀ w, Trapped P₀ owner w → Trapped P₀ owner (effect w)) →
      Takes (Trapped P₀ owner) (act effect) (fun _ => Trapped P₀ owner) (Left P₀ owner) :=
    fun effect h => takes_act h (fun _ hw => hw.left) (fun w hw => (h w hw).left)
  apply Runs.bind (hact (fun w => { w with archive := true })
    (fun w h => ⟨h.held.congr rfl rfl rfl rfl rfl rfl, h.owner, h.named, h.trap⟩))
  intro _
  apply Runs.bind (hact id (fun _ h => h))
  intro _
  apply Runs.bind (hact (fun w => { w with checksum := true })
    (fun w h => ⟨h.held.congr rfl rfl rfl rfl rfl rfl, h.owner, h.named, h.trap⟩))
  exact fun _ => hact id (fun _ h => h)

/-- The checks before anything is stopped leave the containers alone. -/
theorem manifestDirectory_takes : Takes (Starting P₀ owner) manifestDirectory
    (fun _ => Starting P₀ owner) (Left P₀ owner) := by
  refine Runs.bind (Q := fun _ _ w => Starting P₀ owner w) (Runs.world (fun _ _ h => h)) ?_
  intro v
  apply Runs.bind (Q := fun _ _ w => Starting P₀ owner w)
  · exact Runs.simple (fun _ _ h => ⟨fun _ => h, fun _ _ => h.left⟩)
  · intro _
    refine Runs.orElse (S := fun _ _ w => Starting P₀ owner w) ?_ ?_ (fun _ h => h)
    · exact Runs.simple (fun _ _ h => ⟨fun _ => h, fun _ hi => absurd hi (by simp)⟩)
    · exact Runs.exit (fun _ _ h => h.2.left)

theorem containerOwner_takes : Takes (Starting P₀ owner) containerOwner
    (fun o w => (o = owner ∧ o ≠ "") ∧ Starting P₀ owner w) (Left P₀ owner) := by
  refine Runs.bind (Q := fun v _ w => v.owner = owner ∧ Starting P₀ owner w)
    (Runs.world (fun _ _ h => ⟨h.intact.owner, h⟩)) ?_
  intro v
  apply Shell.Runs.ite
  · exact fun _ => Runs.exit (fun _ _ h => h.2.left)
  · exact fun hv => Runs.pure' (fun _ _ h => ⟨⟨h.1, hv⟩, h.2⟩)

theorem starting_marked {w : Remote} (h : Starting P₀ owner w) :
    Starting P₀ owner { w with marked := true } :=
  ⟨⟨h.intact.podman, h.intact.faithful, h.intact.owner⟩, h.stopped, h.trap, h.changed⟩

theorem finish_takes : Takes (Starting P₀ owner) (do markStage; Sh.ret 0 : Cmd Unit)
    (fun _ => Starting P₀ owner) (Left P₀ owner) := by
  refine Runs.bind (Q := fun _ _ w => Starting P₀ owner w) ?_ ?_
  · exact takes_act (fun _ => starting_marked) (fun _ h => h.left) (fun _ h => (starting_marked h).left)
  · exact fun _ => Runs.ret (fun _ _ h => h.left)

theorem skipWithoutData_takes : Takes (Starting P₀ owner) skipWithoutData
    (fun _ => Starting P₀ owner) (Left P₀ owner) := by
  refine Runs.bind (Q := fun _ _ w => Starting P₀ owner w) (Runs.world (fun _ _ h => h)) ?_
  exact fun v => Shell.Runs.ite (fun _ => Runs.pure' (fun _ _ h => h)) (fun _ => finish_takes)

theorem skipCurrent_takes : Takes (Starting P₀ owner) skipCurrent (fun _ => Starting P₀ owner)
    (Left P₀ owner) := by
  refine Runs.bind (Q := fun _ _ w => Starting P₀ owner w) (Runs.world (fun _ _ h => h)) ?_
  intro v
  apply Shell.Runs.ite
  · intro _
    have hsum : Runs (fun _ w => Starting P₀ owner w) (act id) true
        (fun _ _ w => Starting P₀ owner w) (fun _ w => Left P₀ owner w) := by
      apply Runs.outside (fun _ _ h => h.left)
      intro m _ w hw r w' hr
      have hid : (if m.status = 0 ∨ m.applied = true then id w else w) = w := by simp
      rw [hid] at hr
      by_cases ht : m.terminated = true
      · simp only [ht, if_true, Prod.mk.injEq] at hr
        obtain ⟨rfl, rfl⟩ := hr
        exact hw.left
      · simp only [ht, Bool.false_eq_true, if_false, Prod.mk.injEq] at hr
        obtain ⟨rfl, rfl⟩ := hr
        exact ⟨fun _ => hw, fun _ h => absurd h (by simp)⟩
    refine Runs.bind (Q := fun _ _ w => Starting P₀ owner w) ?_ (fun _ => finish_takes)
    exact Runs.orElse hsum (Runs.exit (fun _ _ h => h.2.left)) (fun _ h => h)
  · exact fun _ => Runs.pure' (fun _ _ h => h)

theorem passphrase_takes (interactive : Bool) : Takes (Starting P₀ owner)
    (Sh.orElse (Sh.test interactive) (Sh.ret 75) : Cmd Unit) (fun _ => Starting P₀ owner)
    (Left P₀ owner) := by
  refine Runs.orElse (S := fun _ _ w => Starting P₀ owner w) ?_ ?_ (fun _ h => h)
  · exact Runs.simple (fun _ _ h => ⟨fun _ => h, fun _ hi => absurd hi (by simp)⟩)
  · exact Runs.ret (fun _ _ h => h.2.left)

/-- Wherever the backup is left, what it did to the containers is observed, and
    where the trap is installed they are held. -/
theorem backupData_takes (interactive : Bool) :
    Takes (Starting P₀ owner) (backupData interactive) (fun _ => Left P₀ owner) (Left P₀ owner) := by
  apply Runs.bind manifestDirectory_takes
  intro _
  apply Runs.bind containerOwner_takes
  intro o
  apply Runs.given (fun _ _ h => h.1)
  intro ho
  obtain ⟨rfl, hnamed⟩ := ho
  apply Runs.bind (detectRuntime_takes.pre (fun _ _ h => h.2))
  intro _
  apply Runs.bind skipWithoutData_takes
  intro _
  apply Runs.bind skipCurrent_takes
  intro _
  apply Runs.bind (passphrase_takes interactive)
  intro _
  have hps : Takes (Starting P₀ o) psAll
      (fun ids w => (ids = P₀.ids ∨ ids = []) ∧ Starting P₀ o w) (Left P₀ o) := by
    apply takes_look (fun _ h => h.left)
    · exact fun w h => ⟨Or.inl (by rw [h.intact.podman]), h⟩
    · exact fun w h => ⟨Or.inr rfl, h⟩
  apply Runs.bind hps
  intro ids
  apply Runs.given (fun _ _ h => h.1)
  intro hids
  have hmem : ∀ c ∈ ids, c ∈ P₀.ids := by
    cases hids with
    | inl h => rw [h]; exact fun _ hc => hc
    | inr h => rw [h]; simp
  have hnd : ids.Nodup := by
    cases hids with
    | inl h => rw [h]; exact P₀.distinct
    | inr h => rw [h]; exact List.nodup_nil
  refine Runs.bind (Q := fun _ _ w => Holding P₀ o ids [] w) ?_ (fun _ => ?_)
  · apply Runs.modify
    intro _ w h
    have h₀ : Starting P₀ o { w with stopped := [] } :=
      ⟨⟨h.2.intact.podman, h.2.intact.faithful, h.2.intact.owner⟩, rfl, h.2.trap, h.2.changed⟩
    exact h₀.holding ids
  · apply Runs.bind (holdContainers_takes ids hmem hnd)
    intro _
    refine Runs.bind (Q := fun _ _ w => Trapped P₀ o w) ?_ (fun _ => ?_)
    · exact Runs.modify (fun _ w h => ⟨h.held.congr rfl rfl rfl rfl rfl rfl, h.owner,
        fun he => hnamed (h.owner.symm.trans he), rfl⟩)
    · apply Runs.bind writeArchive_takes
      intro _
      refine Runs.bind (Q := fun _ _ w => Holding P₀ o [] [] w) ?_ (fun _ => ?_)
      · exact Runs.modify (fun _ w h => ⟨h.held.congr rfl rfl rfl rfl rfl rfl, h.owner, rfl⟩)
      · exact markStage_takes.post (fun _ _ _ h => h.left)

/-! ## The trap -/

/-- What the trap still has to undo: the containers in `noted` and the policies in `records`. -/
structure Undoing (P₀ : Podman) (noted : List String) (records : List (String × String))
    (w : Remote) : Prop where
  faithful : ∀ r ∈ records, r.2 = (P₀.container r.1).policy
  ids : w.podman.ids = P₀.ids
  mounts : ∀ c, (w.podman.container c).mounts = (P₀.container c).mounts
  policy : ∀ c, (w.podman.container c).policy = (P₀.container c).policy ∨
    ((c, (P₀.container c).policy) ∈ records ∧ (P₀.container c).policy ≠ "" ∧
      (P₀.container c).policy ≠ "none" ∧ w.userOf c = w.owner)
  running : ∀ c, (w.podman.container c).running = (P₀.container c).running ∨
    (c ∈ noted ∧ w.userOf c = w.owner)
  ran : ∀ c ∈ noted, c ≠ "" ∧ (P₀.container c).running = true

theorem userOf_some {w : Remote} {c : String} (h : w.users c = some w.owner) (hn : w.owner ≠ "") :
    w.userOf c = w.owner := by
  simp [Remote.userOf, h, hn]

theorem Trapped.undoing {w : Remote} (h : Trapped P₀ owner w) :
    Undoing P₀ w.stopped w.policies w where
  faithful := h.held.observed.faithful
  ids := h.held.ids
  mounts := h.held.mounts
  policy c := (h.held.policy c).imp id (fun hr =>
    ⟨hr.record, hr.nonempty, hr.real, userOf_some hr.user h.named⟩)
  running c := (h.held.running c).imp id (fun hr =>
    ⟨by simpa using hr.noted, userOf_some hr.user h.named⟩)
  ran := h.held.stopped

theorem Undoing.put_back {w : Remote} (h : Undoing P₀ [] [] w) : w.podman = P₀ := by
  apply Podman.ext' h.ids
  intro c
  have hm := h.mounts c
  have hp := (h.policy c).resolve_right (by simp)
  have hr := (h.running c).resolve_right (by simp)
  revert hm hp hr
  rcases w.podman.container c with ⟨m, p, r⟩
  rcases P₀.container c with ⟨m', p', r'⟩
  intro hm hp hr
  simp only at hm hp hr
  rw [hm, hp, hr]

/-- One container more runs again. -/
theorem Undoing.resume {r : Restoring} {w : Remote} {c : String} {noted : List String}
    {records : List (String × String)} (hs : r.starts c = true)
    (h : Undoing P₀ (c :: noted) records w) : Undoing P₀ noted records (resumeContainer r w c) := by
  have hran := h.ran c (by simp)
  by_cases hu : w.userOf c = w.owner
  · have hdo : resumeContainer r w c = { w with podman := w.podman.start c } := by
      simp [resumeContainer, hran.1, hu, hs]
    rw [hdo]
    refine ⟨h.faithful, h.ids, ?_, ?_, ?_, fun d hd => h.ran d (by simp [hd])⟩
    · intro d
      show ((w.podman.start c).container d).mounts = _
      by_cases hd : d = c
      · rw [hd, Podman.start, set_self]; exact h.mounts c
      · rw [Podman.start, set_other _ _ hd]; exact h.mounts d
    · intro d
      show ((w.podman.start c).container d).policy = _ ∨ _
      by_cases hd : d = c
      · rw [hd, Podman.start, set_self]; exact h.policy c
      · rw [Podman.start, set_other _ _ hd]; exact h.policy d
    · intro d
      show ((w.podman.start c).container d).running = _ ∨ _
      by_cases hd : d = c
      · rw [hd, Podman.start, set_self, hran.2]; exact Or.inl rfl
      · rw [Podman.start, set_other _ _ hd]
        apply (h.running d).imp id
        intro hn
        exact ⟨(List.mem_cons.mp hn.1).resolve_left hd, hn.2⟩
  · have hdo : resumeContainer r w c = w := by simp [resumeContainer, hu]
    rw [hdo]
    refine ⟨h.faithful, h.ids, h.mounts, h.policy, ?_, fun d hd => h.ran d (by simp [hd])⟩
    intro d
    apply (h.running d).imp id
    intro hn
    have hne : d ≠ c := fun he => hu (he ▸ hn.2)
    exact ⟨(List.mem_cons.mp hn.1).resolve_left hne, hn.2⟩

/-- One policy more is what it was. -/
theorem Undoing.restore {r : Restoring} {w : Remote} {noted : List String}
    {record : String × String} {records : List (String × String)} (hu : r.updates record.1 = true)
    (h : Undoing P₀ noted (record :: records) w) :
    Undoing P₀ noted records (restorePolicy r w record) := by
  obtain ⟨c, policy⟩ := record
  have hpol : policy = (P₀.container c).policy := h.faithful (c, policy) (by simp)
  subst hpol
  by_cases hc : (P₀.container c).policy ≠ "" ∧ (P₀.container c).policy ≠ "none" ∧ w.userOf c = w.owner
  · have hdo : restorePolicy r w (c, (P₀.container c).policy) =
        { w with podman := w.podman.update c (P₀.container c).policy } := by
      simp only [restorePolicy]
      exact if_pos ⟨hc.1, hc.2.1, hc.2.2, hu⟩
    rw [hdo]
    refine ⟨fun d hd => h.faithful d (by simp [hd]), h.ids, ?_, ?_, ?_, h.ran⟩
    · intro d
      show ((w.podman.update c _).container d).mounts = _
      by_cases hd : d = c
      · rw [hd, Podman.update, set_self]; exact h.mounts c
      · rw [Podman.update, set_other _ _ hd]; exact h.mounts d
    · intro d
      show ((w.podman.update c _).container d).policy = _ ∨ _
      by_cases hd : d = c
      · rw [hd, Podman.update, set_self]; exact Or.inl rfl
      · rw [Podman.update, set_other _ _ hd]
        apply (h.policy d).imp id
        intro hn
        refine ⟨(List.mem_cons.mp hn.1).resolve_left ?_, hn.2⟩
        exact fun he => hd (Prod.mk.inj he).1
    · intro d
      show ((w.podman.update c _).container d).running = _ ∨ _
      by_cases hd : d = c
      · rw [hd, Podman.update, set_self]; exact h.running c
      · rw [Podman.update, set_other _ _ hd]; exact h.running d
  · have hdo : restorePolicy r w (c, (P₀.container c).policy) = w := by
      simp only [restorePolicy]
      exact if_neg (fun hn => hc ⟨hn.1, hn.2.1, hn.2.2.1⟩)
    rw [hdo]
    refine ⟨fun d hd => h.faithful d (by simp [hd]), h.ids, h.mounts, ?_, h.running, h.ran⟩
    intro d
    apply (h.policy d).imp id
    intro hn
    refine ⟨(List.mem_cons.mp hn.1).resolve_left ?_, hn.2⟩
    intro he
    have hd : d = c := (Prod.mk.inj he).1
    exact hc ⟨hd ▸ hn.2.1, hd ▸ hn.2.2.1, hd ▸ hn.2.2.2⟩

theorem resumeContainer_keeps (r : Restoring) (w : Remote) (c : String) :
    (resumeContainer r w c).policies = w.policies ∧ (resumeContainer r w c).owner = w.owner := by
  unfold resumeContainer
  split <;> exact ⟨rfl, rfl⟩

theorem restorePolicy_keeps (r : Restoring) (w : Remote) (record : String × String) :
    (restorePolicy r w record).policies = w.policies ∧ (restorePolicy r w record).owner = w.owner := by
  unfold restorePolicy
  split <;> exact ⟨rfl, rfl⟩

theorem resumeAll {r : Restoring} (hs : ∀ c, r.starts c = true) {records : List (String × String)}
    (noted : List String) : ∀ {w : Remote}, Undoing P₀ noted records w →
    Undoing P₀ [] records (noted.foldl (resumeContainer r) w) ∧
      (noted.foldl (resumeContainer r) w).policies = w.policies ∧
      (noted.foldl (resumeContainer r) w).owner = w.owner := by
  induction noted with
  | nil => exact fun h => ⟨h, rfl, rfl⟩
  | cons c noted ih =>
    intro w h
    obtain ⟨h₁, h₂, h₃⟩ := ih (h.resume (hs c))
    have hk := resumeContainer_keeps r w c
    exact ⟨h₁, h₂.trans hk.1, h₃.trans hk.2⟩

theorem restoreAll {r : Restoring} (hu : ∀ c, r.updates c = true) {noted : List String}
    (records : List (String × String)) : ∀ {w : Remote}, Undoing P₀ noted records w →
    Undoing P₀ noted [] (records.foldl (restorePolicy r) w) ∧
      (records.foldl (restorePolicy r) w).policies = w.policies ∧
      (records.foldl (restorePolicy r) w).owner = w.owner := by
  induction records with
  | nil => exact fun h => ⟨h, rfl, rfl⟩
  | cons record records ih =>
    intro w h
    obtain ⟨h₁, h₂, h₃⟩ := ih (h.restore (hu record.1))
    have hk := restorePolicy_keeps r w record
    exact ⟨h₁, h₂.trans hk.1, h₃.trans hk.2⟩

/-- The trap undoes what the loop did. -/
theorem resumeStoppedContainers_restores {r : Restoring} {w : Remote} (hs : ∀ c, r.starts c = true)
    (hu : ∀ c, r.updates c = true) (h : Trapped P₀ owner w) :
    Intact P₀ owner (resumeStoppedContainers r w) := by
  obtain ⟨h₁, hp₁, ho₁⟩ := resumeAll hs w.stopped h.undoing
  rw [← hp₁] at h₁
  obtain ⟨h₂, hp₂, ho₂⟩ := restoreAll hu _ h₁
  have hpol : (resumeStoppedContainers r w).policies = w.policies := hp₂.trans hp₁
  refine ⟨h₂.put_back, ?_, ho₂.trans (ho₁.trans h.owner)⟩
  rw [hpol]
  exact h.held.observed.faithful

/-! ## Any number of attempts -/

/-- The helper ends with a nonzero status, or is killed. -/
def Attempt.Fails (a : Attempt) (w : Remote) : Prop := (a.run w).1 ≠ some 0

/-- The restoring podman commands succeed. -/
def Attempt.Restores (a : Attempt) : Prop :=
  ∀ c, a.restoring.starts c = true ∧ a.restoring.updates c = true

/-- The attempt ends before it has changed a container, or while its trap is
    installed and can run. -/
def Attempt.Recoverable (a : Attempt) (w : Remote) : Prop :=
  (a.end w).changed = [] ∨ ((a.end w).trap = true ∧ (a.run w).1 ≠ none)

theorem script_takes (a : Attempt) :
    Runs (fun _ w => Starting P₀ owner w) a.script false (fun _ n _ => n = 0)
      (fun _ w => Left P₀ owner w) := by
  apply Runs.call (backupData_takes a.interactive)
  · exact fun n w h => ⟨fun h0 => h0.resolve_right (by simp), fun _ _ => h⟩
  · exact fun n w h => ⟨fun h0 => h0.resolve_right (by simp), fun _ _ => h⟩
  · exact fun _ _ h => h
  · exact fun _ h => h

/-- A host that differs from what it was is not restored. -/
theorem Observed.not_restored {w : Remote} (h : Observed P₀ w) (hc : w.changed ≠ []) :
    ¬Restored P₀ w.podman := by
  intro hr
  obtain ⟨c, hmem⟩ := List.exists_mem_of_ne_nil _ hc
  obtain ⟨hid, hd⟩ := h.something c hmem
  cases hd with
  | inl hp => exact hp (hr.policy c hid)
  | inr hrun => exact absurd ((hr.running c hid hrun.1).symm.trans hrun.2) (by decide)

/-- Without a trap, what is left is what was there exactly if nothing was changed. -/
theorem Left.restored_iff {w : Remote} (h : Left P₀ owner w) :
    Restored P₀ w.podman ↔ w.changed = [] := by
  constructor
  · intro hr
    by_cases hc : w.changed = []
    · exact hc
    · exact absurd hr (h.observed.not_restored hc)
  · intro hc
    rw [h.observed.nothing hc]
    exact Restored.refl P₀

theorem Left.intact {w : Remote} (h : Left P₀ owner w) (hc : w.changed = []) : Intact P₀ owner w :=
  ⟨h.observed.nothing hc, h.observed.faithful, h.owner⟩

/-- One failed attempt restores the containers exactly if it was recoverable. -/
theorem failed_restored {a : Attempt} {w : Remote} (h : Intact P₀ owner w) (hf : a.Fails w)
    (hr : a.Restores) :
    (Restored P₀ (a.run w).2.podman ↔ a.Recoverable w) ∧
      (a.Recoverable w → Intact P₀ owner (a.run w).2) := by
  have hrun := (script_takes a).run (f := a.onExit) (t := a.turns) h.fresh
  cases hrun with
  | inl hx =>
    obtain ⟨n, hres, hend⟩ := hx
    have hres : a.run w = (some n, a.onExit (a.end w)) := hres
    have hleft : Left P₀ owner (a.end w) := by
      obtain h0 | hl | hl := hend
      · exact absurd (by rw [hres, h0]) hf
      · exact hl
      · exact hl
    by_cases ht : (a.end w).trap = true
    · have hint : Intact P₀ owner (a.run w).2 := by
        rw [hres]
        show Intact P₀ owner (a.onExit (a.end w))
        simp only [Attempt.onExit, ht, if_true]
        exact resumeStoppedContainers_restores (fun c => (hr c).1) (fun c => (hr c).2)
          (hleft.trapped ht)
      have hrec : a.Recoverable w := Or.inr ⟨ht, by rw [hres]; simp⟩
      exact ⟨⟨fun _ => hrec, fun _ => by rw [hint.podman]; exact Restored.refl P₀⟩, fun _ => hint⟩
    · have hon : (a.run w).2 = a.end w := by
        rw [hres]
        show a.onExit (a.end w) = a.end w
        simp [Attempt.onExit, ht]
      have hrec : a.Recoverable w ↔ (a.end w).changed = [] := by simp [Attempt.Recoverable, ht]
      rw [hon, hrec]
      exact ⟨hleft.restored_iff, hleft.intact⟩
  | inr hx =>
    obtain ⟨hres, hleft⟩ := hx
    have hres : a.run w = (none, a.end w) := hres
    have hrec : a.Recoverable w ↔ (a.end w).changed = [] := by simp [Attempt.Recoverable, hres]
    rw [hrec, hres]
    exact ⟨Left.restored_iff hleft, Left.intact hleft⟩

/-- The hosts that failed attempts lead to, all of them recoverable. -/
inductive Aborts (before : Remote) : Remote → Prop
  | start : Aborts before before
  | again {w : Remote} {a : Attempt} (h : Aborts before w) (hf : a.Fails w) (hr : a.Restores)
      (hc : a.Recoverable w) : Aborts before (a.run w).2

theorem Aborts.intact {before w : Remote} (hb : before.policies = []) (h : Aborts before w) :
    Intact before.podman before.owner w := by
  induction h with
  | start => exact ⟨rfl, by rw [hb]; simp, rfl⟩
  | again _ hf hr hc ih => exact (failed_restored ih hf hr).2 hc

def sampleContainer : Container := { mounts := [dataPath], policy := "always", running := true }

def sampleHost : Remote where
  hermes := true
  adminUser := ""
  dataDir := true
  podman := { ids := ["a", "b"], container := fun _ => sampleContainer, distinct := by decide }
  backupDir := some "/var/lib/hermes-deploy/backups/1"

/-- The archive cannot be written, with both containers stopped. -/
def tarFails : Attempt := { turns := List.replicate 21 {} ++ [{ status := 1 }] }

/-- The second container does not stop. -/
def stopFails : Attempt := { turns := List.replicate 20 {} ++ [{ status := 125 }] }

end Hermes.DataBackup

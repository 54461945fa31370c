import Hermes.Lifecycle

/- Lifecycle calls over whole histories. `allowed` says what the log may show; a
   history is any sequence of calls, of any kind and each cut off anywhere, with a
   clock that does not go back. Between calls `Settled` holds; from the pointer
   to the end of a call `Running` does. -/
namespace Hermes.Lifecycle
open Process

/-- The events of the call that is going on. -/
def sinceCall (past : List Event) : List Event := past.takeWhile (fun e => e ≠ .called)

/-- The steps behind a complete run, the latest first. -/
def accepted (id : RunId) : List Event := [.cleaned id, .certified id, .inWindow id, .prepared id]

/-- What may be added to a log. A run is recorded complete only after its steps in the
    same call; a directory is made only once, and while the active run is over; a run
    begins only once, and a scheduled one only where none began in its slot. -/
def allowed (past : List Event) : Event → Prop
  | .recorded id .complete => (accepted id).Sublist (sinceCall past)
  | .created id active =>
    (∀ a, .created id a ∉ past) ∧ ∀ stage, active = some stage → stage.terminal = true
  | .began id scheduled slot =>
    (∀ b k, .began id b k ∉ past) ∧ (scheduled = true → ∀ i, .began i true slot ∉ past)
  | _ => True

theorem allowed_recorded {past : List Event} {id : RunId} {stage : Stage}
    (h : stage = .complete → (accepted id).Sublist (sinceCall past)) :
    allowed past (.recorded id stage) := by
  cases stage with
  | complete => exact h rfl
  | _ => trivial

theorem sinceCall_cons {past : List Event} {e : Event} (h : e ≠ .called) :
    sinceCall (e :: past) = e :: sinceCall past := by
  simp [sinceCall, h]

theorem slotOf_mono {t t' : Nat} (h : t ≤ t') : slotOf t ≤ slotOf t' := by
  unfold slotOf localTime
  exact Nat.div_le_div_right (by omega)

/-! ## The invariants -/

/-- Between calls: whatever the log names has its directory, and no scheduled run began
    in a later slot than the active run's. -/
structure Settled (t : Nat) (w : World) : Prop where
  guarded : Guarded allowed w.log
  made : ∀ id a, .created id a ∈ w.log → w.runs id ≠ none
  begun : ∀ id b k, .began id b k ∈ w.log → w.runs id ≠ none
  active : ∀ id, w.active = some id → ∃ s, w.stateOf id = some s ∧ s.runId = id ∧ s.slot ≤ t
  slots : ∀ id k, .began id true k ∈ w.log →
    ∃ a s, w.active = some a ∧ w.stateOf a = some s ∧ k ≤ s.slot

/-- While a call works on the active run. -/
structure Running (t : Nat) (w : World) : Prop where
  guarded : Guarded allowed w.log
  made : ∀ id a, .created id a ∈ w.log → w.runs id ≠ none
  begun : ∀ id b k, .began id b k ∈ w.log → w.runs id ≠ none
  active : w.active = some w.state.runId
  stored : ∃ s, w.stateOf w.state.runId = some s ∧ s.runId = w.state.runId ∧ s.slot = w.state.slot
  slot : w.state.slot ≤ t
  slots : ∀ id k, .began id true k ∈ w.log → k ≤ w.state.slot

theorem Running.settled {t : Nat} {w : World} (h : Running t w) : Settled t w := by
  obtain ⟨s, hs, hid, hslot⟩ := h.stored
  refine ⟨h.guarded, h.made, h.begun, ?_, ?_⟩
  · intro id ha
    have hid' : id = w.state.runId := Option.some.inj (ha.symm.trans h.active)
    rw [hid']
    exact ⟨s, hs, hid, hslot ▸ h.slot⟩
  · intro id k hk
    exact ⟨_, s, h.active, hs, hslot ▸ h.slots id k hk⟩

/-- The run that is worked on has a directory. -/
theorem Running.present {t : Nat} {w : World} (h : Running t w) : w.runs w.state.runId ≠ none := by
  obtain ⟨s, hs, _⟩ := h.stored
  intro hn
  simp [World.stateOf, hn] at hs

theorem Settled.later {t t' : Nat} {w : World} (h : Settled t w) (ht : t ≤ t') : Settled t' w := by
  refine ⟨h.guarded, h.made, h.begun, ?_, h.slots⟩
  intro id ha
  obtain ⟨s, hs, hid, hslot⟩ := h.active id ha
  exact ⟨s, hs, hid, Nat.le_trans hslot ht⟩

theorem settled_empty : Settled 0 World.empty := by
  refine ⟨trivial, ?_, ?_, ?_, ?_⟩
  · exact fun _ _ h => absurd h (by simp [World.empty])
  · exact fun _ _ _ h => absurd h (by simp [World.empty])
  · exact fun _ h => absurd h (by simp [World.empty])
  · exact fun _ _ h => absurd h (by simp [World.empty])

/-- An event that neither makes nor begins a run. -/
def Event.plain : Event → Bool
  | .created _ _ => false
  | .began _ _ _ => false
  | _ => true

/-- The variable `state` is no part of what is settled. -/
theorem Settled.setState {t : Nat} {w : World} (h : Settled t w) (s : State) :
    Settled t { w with state := s } :=
  ⟨h.guarded, h.made, h.begun, h.active, h.slots⟩

theorem Settled.add {t : Nat} {w : World} {e : Event} (h : Settled t w) (hp : e.plain = true)
    (ha : allowed w.log e) : Settled t (w.add e) := by
  have hc : ∀ id a, Event.created id a ∈ (w.add e).log → .created id a ∈ w.log := by
    intro id a hm
    cases List.mem_cons.mp hm with
    | inl he => rw [← he] at hp; exact absurd hp (by simp [Event.plain])
    | inr hm => exact hm
  have hb : ∀ id b k, Event.began id b k ∈ (w.add e).log → .began id b k ∈ w.log := by
    intro id b k hm
    cases List.mem_cons.mp hm with
    | inl he => rw [← he] at hp; exact absurd hp (by simp [Event.plain])
    | inr hm => exact hm
  refine ⟨⟨ha, h.guarded⟩, ?_, ?_, h.active, ?_⟩
  · exact fun id a hm => h.made id a (hc id a hm)
  · exact fun id b k hm => h.begun id b k (hb id b k hm)
  · exact fun id k hm => h.slots id k (hb id true k hm)

theorem Running.add {t : Nat} {w : World} {e : Event} (h : Running t w) (hp : e.plain = true)
    (ha : allowed w.log e) : Running t (w.add e) := by
  have hs := h.settled.add hp ha
  refine ⟨hs.guarded, hs.made, hs.begun, h.active, h.stored, h.slot, ?_⟩
  intro id k hm
  cases List.mem_cons.mp hm with
  | inl he => rw [← he] at hp; exact absurd hp (by simp [Event.plain])
  | inr hm => exact h.slots id k hm

/-- The state of the run changes; its id and its slot do not. -/
theorem Running.setState {t : Nat} {w : World} {s : State} (h : Running t w)
    (hid : s.runId = w.state.runId) (hslot : s.slot = w.state.slot) :
    Running t { w with state := s } := by
  refine ⟨h.guarded, h.made, h.begun, ?_, ?_, ?_, ?_⟩
  · show w.active = some s.runId
    rw [hid]
    exact h.active
  · show ∃ s', w.stateOf s.runId = some s' ∧ s'.runId = s.runId ∧ s'.slot = s.slot
    rw [hid, hslot]
    exact h.stored
  · show s.slot ≤ t
    rw [hslot]
    exact h.slot
  · show ∀ id k, _ → k ≤ s.slot
    rw [hslot]
    exact h.slots

theorem stateOf_writeState (w : World) : w.writeState.stateOf w.state.runId = some w.state := by
  simp [World.stateOf]

theorem stateOf_writeState_other {w : World} {id : RunId} (h : id ≠ w.state.runId) :
    w.writeState.stateOf id = w.stateOf id := by
  simp [World.stateOf, World.writeState_other w id h]

theorem runs_writeState {w : World} {id : RunId} (h : w.runs id ≠ none) :
    w.writeState.runs id ≠ none := by
  by_cases he : id = w.state.runId
  · rw [he, World.writeState_same]
    exact Option.some_ne_none _
  · rw [World.writeState_other w id he]
    exact h

theorem mem_writeState {w : World} {e : Event} (he : e.plain = false)
    (h : e ∈ w.writeState.log) : e ∈ w.log := by
  cases List.mem_cons.mp h with
  | inl h => rw [h] at he; exact absurd he (by simp [Event.plain])
  | inr h => exact h

theorem Running.writeState {t : Nat} {w : World} (h : Running t w)
    (ha : allowed w.log (.recorded w.state.runId w.state.stage)) : Running t w.writeState := by
  refine ⟨⟨ha, h.guarded⟩, ?_, ?_, h.active, ?_, h.slot, ?_⟩
  · exact fun id a hm => runs_writeState (h.made id a (mem_writeState rfl hm))
  · exact fun id b k hm => runs_writeState (h.begun id b k (mem_writeState rfl hm))
  · exact ⟨w.state, stateOf_writeState w, rfl, rfl⟩
  · exact fun id k hm => h.slots id k (mem_writeState rfl hm)

/-! ## Operations -/

theorem look_triple {α : Type} {P : World → Prop} {value : Moment → World → α}
    {Q : α → World → Prop} {E : Exc → World → Prop} (hok : ∀ m w, P w → Q (value m w) w)
    (herr : ∀ e w, P w → E e w) : Triple P (look value) Q E :=
  query_triple (fun m w hw _ => hok m w hw) herr

theorem look_keeps {α : Type} {I : World → Prop} {value : Moment → World → α} :
    Keeps I (look value) :=
  look_triple (fun _ _ h => h) (fun _ _ h => h)

theorem except_triple {α : Type} {P : World → Prop} {Q : α → World → Prop}
    {E F : Exc → World → Prop} {x : Cmd α} {h : Exc → Cmd α} (hx : Triple P x Q F)
    (hh : ∀ e, Triple (F e) (h e) Q E) (hk : ∀ w, F .killed w → E .killed w) :
    Triple P (except x h) Q E := by
  apply Triple.handle hx
  intro e
  cases e with
  | killed => exact Triple.raise hk
  | _ => exact hh _

theorem labWindow_keeps {parse : String → Option Json} {binding : String} {I : World → Prop} :
    Keeps I (labWindow parse binding) := by
  refine Keeps.bind look_keeps (fun m => ?_)
  cases parse m.text with
  | none => exact Triple.raise (fun _ h => h)
  | some value =>
    refine Keeps.bind require_keeps (fun _ => ?_)
    cases grantedRun binding value with
    | none => exact Triple.raise (fun _ h => h)
    | some id =>
      cases grantedTimes m.now value with
      | none => exact Triple.raise (fun _ h => h)
      | some times => exact Triple.pure' (fun _ h => h)

/-- The call works on its run, has not finished it, and has done these steps. -/
structure Busy (t : Nat) (id : RunId) (steps : List Event) (w : World) : Prop where
  running : Running t w
  id : w.state.runId = id
  stage : w.state.stage ≠ .complete
  steps : steps.Sublist (sinceCall w.log)

theorem Busy.add {t : Nat} {id : RunId} {steps : List Event} {w : World} {e : Event}
    (h : Busy t id steps w) (hp : e.plain = true) (hc : e ≠ .called) (ha : allowed w.log e) :
    Busy t id (e :: steps) (w.add e) := by
  refine ⟨h.running.add hp ha, h.id, h.stage, ?_⟩
  rw [World.add_log, sinceCall_cons hc]
  exact h.steps.cons_cons e

theorem Busy.forget {t : Nat} {id : RunId} {steps : List Event} {w : World}
    (h : Busy t id steps w) : Busy t id [] w :=
  ⟨h.running, h.id, h.stage, List.nil_sublist _⟩

theorem Busy.write {t : Nat} {id : RunId} {steps : List Event} {w : World} (h : Busy t id steps w) :
    Busy t id steps w.writeState := by
  have ha : allowed w.log (.recorded w.state.runId w.state.stage) :=
    allowed_recorded (fun hs => absurd hs h.stage)
  refine ⟨h.running.writeState ha, h.id, h.stage, ?_⟩
  rw [World.writeState_log, sinceCall_cons (by simp)]
  exact h.steps.cons _

section
variable {t : Nat} {id : RunId} {steps : List Event}

/-- A save that does not finish the run. -/
theorem save_busy {f : State → State} (hid : ∀ s, (f s).runId = s.runId)
    (hslot : ∀ s, (f s).slot = s.slot) (hstage : ∀ s, s.stage ≠ .complete → (f s).stage ≠ .complete) :
    Triple (Busy t id steps) (save f) (fun _ => Busy t id steps) (fun _ => Busy t id steps) := by
  refine Triple.bind (Q := fun _ => Busy t id steps) (Triple.update (fun w h => ?_)) (fun _ => ?_)
  · exact ⟨h.running.setState (hid _) (hslot _), (hid _).trans h.id, hstage _ h.stage, h.steps⟩
  · exact atomic_triple (fun _ _ h => h.write) (fun _ _ h => h) (fun _ _ _ h => h.write)

/-- A new stage, not the last one. -/
theorem save_stage {stage : Stage} (h : stage ≠ .complete) :
    Triple (Busy t id steps) (save (fun s => { s with stage := stage }))
      (fun _ => Busy t id steps) (fun _ => Busy t id steps) :=
  save_busy (fun _ => rfl) (fun _ => rfl) (fun _ _ => h)

theorem step_busy {e : RunId → Event} (hp : (e id).plain = true) (hc : e id ≠ .called)
    (ha : ∀ past, allowed past (e id)) :
    Triple (Busy t id steps) (step e) (fun _ => Busy t id (e id :: steps))
      (fun _ => Busy t id steps) := by
  refine Triple.perform (fun _ h => h) ?_
  intro m w h r w' hr
  split at hr
  · cases hr
    rw [h.id]
    exact h.add hp hc (ha _)
  · cases hr
    exact h

/-- A run that may begin: it did not begin yet, and no scheduled one in its slot. -/
structure Fresh (t : Nat) (id : RunId) (w : World) : Prop where
  busy : Busy t id [] w
  first : ∀ b k, .began id b k ∉ w.log
  slot : w.state.labWindow = none → ∀ i, .began i true w.state.slot ∉ w.log

theorem prepare_busy : Triple (Fresh t id) prepare (fun _ => Busy t id [.prepared id])
    (fun _ => Busy t id []) := by
  have hstep : Triple (Busy t id []) (step .prepared) (fun _ => Busy t id [.prepared id])
      (fun _ => Busy t id []) := step_busy rfl (by simp) (fun _ => trivial)
  refine Triple.bind (Q := fun _ => Busy t id []) (Triple.update (fun w h => ?_)) (fun _ => hstep)
  have hr := h.busy.running
  have hfirst := h.first
  rw [← h.busy.id] at hfirst
  have ha : allowed w.log (.began w.state.runId w.state.labWindow.isNone w.state.slot) := by
    refine ⟨hfirst, fun hs => h.slot ?_⟩
    simpa using hs
  refine ⟨⟨⟨ha, hr.guarded⟩, ?_, ?_, hr.active, hr.stored, hr.slot, ?_⟩, h.busy.id, h.busy.stage,
    List.nil_sublist _⟩
  · intro i a hm
    cases List.mem_cons.mp hm with
    | inl he => exact absurd he (by simp)
    | inr hm => exact hr.made i a hm
  · intro i b k hm
    cases List.mem_cons.mp hm with
    | inl he =>
      rw [(Event.began.inj he).1]
      exact hr.present
    | inr hm => exact hr.begun i b k hm
  · intro i k hm
    cases List.mem_cons.mp hm with
    | inl he => exact Nat.le_of_eq (Event.began.inj he).2.2
    | inr hm => exact hr.slots i k hm

end

/-! ## The parts of a call -/

section
variable {parse : String → Option Json} {binding : String} {granted : Bool} {t : Nat} {id : RunId}

theorem windowStillOpen_keeps {I : World → Prop} :
    Keeps I (windowStillOpen parse binding granted) := by
  apply Triple.ite
  · intro _
    refine Keeps.bind labWindow_keeps (fun g => ?_)
    exact Keeps.bind (Triple.read (fun _ h => h)) (fun _ => Triple.pure' (fun _ h => h))
  · intro _
    exact Keeps.bind look_keeps (fun _ => Triple.pure' (fun _ h => h))

/-- The steps behind certification, the latest first. -/
def certifiedSteps (id : RunId) : List Event := [.certified id, .inWindow id, .prepared id]

theorem certify_busy (stillOpen : Bool) : Triple (Busy t id [.prepared id]) (certify stillOpen)
    (fun deferred w => Busy t id [] w ∧ (deferred = false → Busy t id (certifiedSteps id) w))
    (fun _ => Busy t id []) := by
  unfold certify
  apply Triple.ite
  · intro _
    refine Triple.bind (Q := fun _ => Busy t id [.inWindow id, .prepared id])
      (Triple.update (fun w h => ?_)) (fun _ => ?_)
    · rw [h.id]
      exact h.add rfl (by simp) trivial
    refine Triple.bind ((save_stage (by simp)).mono
      (fun _ h => h) (fun _ _ h => h) (fun _ _ h => h.forget)) (fun _ => ?_)
    refine Triple.bind (Q := fun _ => Busy t id (certifiedSteps id))
      ((step_busy (e := .certified) rfl (by simp) (fun _ => trivial)).mono
        (fun _ h => h) (fun _ _ h => h) (fun _ _ h => h.forget)) (fun _ => ?_)
    refine Triple.bind ((save_busy (f := fun s => { s with certified := true }) (fun _ => rfl)
      (fun _ => rfl) (fun _ h => h)).mono
      (fun _ h => h) (fun _ _ h => h) (fun _ _ h => h.forget)) (fun _ => ?_)
    exact Triple.pure' (fun _ h => ⟨h.forget, fun _ => h⟩)
  · intro _
    exact Triple.pure' (fun _ h => ⟨h.forget, fun hd => absurd hd (by decide)⟩)

theorem acceptance_busy : Triple (Fresh t id) (acceptance parse binding granted)
    (fun r w => Busy t id [] w ∧ (r = (false, false) → Busy t id (certifiedSteps id) w))
    (fun _ => Busy t id []) := by
  apply except_triple (F := fun _ => Busy t id [])
  · have hsave : Triple (Fresh t id) (save (fun s => { s with stage := .provisioning }))
        (fun _ => Fresh t id) (fun _ => Busy t id []) := by
      refine Triple.bind (Q := fun _ => Fresh t id) (Triple.update (fun w h => ?_)) (fun _ => ?_)
      · have hb := h.busy
        exact ⟨⟨hb.running.setState rfl rfl, hb.id, by simp, hb.steps⟩, h.first, h.slot⟩
      · refine atomic_triple (fun _ w h => ?_) (fun _ _ h => h.busy) (fun _ _ _ h => h.busy.write)
        refine ⟨h.busy.write, ?_, ?_⟩
        · exact fun b k hm => h.first b k (mem_writeState rfl hm)
        · exact fun hl i hm => h.slot hl i (mem_writeState rfl hm)
    refine Triple.bind hsave (fun _ => Triple.bind prepare_busy (fun _ => ?_))
    refine Triple.bind ((save_stage (by simp)).mono
      (fun _ h => h) (fun _ _ h => h) (fun _ _ h => h.forget)) (fun _ => ?_)
    refine Triple.bind (windowStillOpen_keeps.mono
      (fun _ h => h) (fun _ _ h => h) (fun _ _ h => h.forget)) (fun stillOpen => ?_)
    refine Triple.bind (certify_busy stillOpen) (fun deferred => Triple.pure' ?_)
    intro w h
    exact ⟨h.1, fun hr => h.2 (Prod.mk.inj hr).2⟩
  · intro e
    refine Triple.bind (save_busy
      (f := fun s => { s with failure := some "lifecycle-execution-failed" })
      (fun _ => rfl) (fun _ => rfl) (fun _ h => h)) (fun _ => ?_)
    exact Triple.pure' (fun _ h => ⟨h, fun hr => absurd hr (by simp)⟩)
  · exact fun _ h => h

/-- The end of a call: complete only where all the steps were done. -/
theorem finish_settled (failed deferred : Bool) :
    Triple (fun w => Busy t id [] w ∧
        (failed = false → deferred = false → Busy t id (certifiedSteps id) w))
      (finish failed deferred) (fun _ => Settled t) (fun _ => Settled t) := by
  -- the steps that are known to be done, if the run may become complete
  obtain ⟨steps, hsteps, hfull⟩ : ∃ steps : List Event,
      (∀ w, (Busy t id [] w ∧
        (failed = false → deferred = false → Busy t id (certifiedSteps id) w)) → Busy t id steps w) ∧
      (failed = false → deferred = false → steps = certifiedSteps id) := by
    by_cases hc : failed = false ∧ deferred = false
    · exact ⟨certifiedSteps id, fun _ h => h.2 hc.1 hc.2, fun _ _ => rfl⟩
    · exact ⟨[], fun _ h => h.1, fun hf hd => absurd ⟨hf, hd⟩ hc⟩
  apply Triple.pre (P := Busy t id steps) _ hsteps
  refine Triple.bind ((save_stage (by simp)).mono
    (fun _ h => h) (fun _ _ h => h) (fun _ _ h => h.running.settled)) (fun _ => ?_)
  refine Triple.bind (Q := fun _ => Busy t id (.cleaned id :: steps)) ?_ (fun _ => ?_)
  · refine except_triple (step_busy rfl (by simp) (fun _ => trivial)) (fun _ => ?_)
      (fun _ h => h.running.settled)
    refine Triple.bind ((save_stage (by simp)).mono
      (fun _ h => h) (fun _ _ h => h) (fun _ _ h => h.running.settled)) (fun _ => ?_)
    exact Triple.raise (fun _ h => h.running.settled)
  refine Triple.bind (Q := fun _ => Busy t id (.cleaned id :: steps))
    (Triple.read (fun _ h => h)) (fun w₁ => ?_)
  refine Triple.bind (Q := fun _ => Busy t id (.cleaned id :: steps))
    (require_triple (fun _ _ h => h) (fun _ _ h => h.running.settled)) (fun _ => ?_)
  refine Triple.bind (Q := fun _ => Settled t) ?_ (fun _ => ?_)
  · refine Triple.bind (Q := fun _ w => Running t w ∧ w.state.runId = id ∧
        (w.state.stage = .complete → (accepted id).Sublist (sinceCall w.log)))
      (Triple.update (fun w h => ?_)) (fun _ => ?_)
    · refine ⟨h.running.setState rfl rfl, h.id, fun hs => ?_⟩
      have hc : failed = false ∧ deferred = false := by
        cases failed <;> cases deferred <;> simp_all
      have hd := h.steps
      rw [hfull hc.1 hc.2] at hd
      exact hd
    · have hwrite : ∀ w, (Running t w ∧ w.state.runId = id ∧
          (w.state.stage = .complete → (accepted id).Sublist (sinceCall w.log))) →
          Settled t w.writeState := by
        intro w h
        obtain ⟨hr, hid, hs⟩ := h
        exact (hr.writeState (allowed_recorded (by rw [hid]; exact hs))).settled
      exact atomic_triple (fun _ w h => hwrite w h) (fun _ _ h => h.1.settled)
        (fun _ _ w h => hwrite w h)
  · refine Triple.bind (Q := fun _ => Settled t)
      (require_triple (fun _ _ h => h) (fun _ _ h => h)) (fun _ => ?_)
    exact Triple.pure' (fun _ h => h)

/-- The directory of a new run is there, and nothing in it. -/
structure Made (t : Nat) (id : RunId) (s : State) (w : World) : Prop where
  settled : Settled t w
  empty : w.stateOf id = none
  first : ∀ b k, .began id b k ∉ w.log
  slot : s.labWindow = none → ∀ i, .began i true s.slot ∉ w.log

theorem Made.setState {s : State} {w : World} (h : Made t id s w) (s' : State) :
    Made t id s { w with state := s' } :=
  ⟨h.settled.setState s', h.empty, h.first, h.slot⟩

theorem made_directory {s : State} {w : World} (h : w.runs id = none ∧ Settled t w ∧
    (∀ stage, w.activeStage = some stage → stage.terminal = true) ∧
    (s.labWindow = none → ∀ i, .began i true s.slot ∉ w.log)) :
    Made t id s (w.makeDirectory id) := by
  obtain ⟨hn, hs, hactive, hslot⟩ := h
  have hruns : ∀ i, w.runs i ≠ none → (w.makeDirectory id).runs i ≠ none := by
    intro i hi
    by_cases he : i = id
    · rw [he, World.makeDirectory_same]
      exact Option.some_ne_none _
    · rw [World.makeDirectory_other w id i he]
      exact hi
  have hof : ∀ i s', w.stateOf i = some s' → (w.makeDirectory id).stateOf i = some s' := by
    intro i s' hi
    have he : i ≠ id := by
      intro he
      rw [he] at hi
      simp [World.stateOf, hn] at hi
    simp only [World.stateOf, World.makeDirectory_other w id i he]
    exact hi
  have hmade : ∀ a, Event.created id a ∉ w.log := fun a hm => hs.made id a hm hn
  have hfirst : ∀ b k, Event.began id b k ∉ w.log := fun b k hm => hs.begun id b k hm hn
  refine ⟨⟨⟨⟨hmade, hactive⟩, hs.guarded⟩, ?_, ?_, ?_, ?_⟩, ?_, ?_, ?_⟩
  · intro i a hm
    cases List.mem_cons.mp hm with
    | inl he =>
      rw [(Event.created.inj he).1, World.makeDirectory_same]
      exact Option.some_ne_none _
    | inr hm => exact hruns i (hs.made i a hm)
  · intro i b k hm
    exact hruns i (hs.begun i b k ((List.mem_cons.mp hm).resolve_left (by simp)))
  · intro i ha
    obtain ⟨s', hs', hrest⟩ := hs.active i ha
    exact ⟨s', hof i s' hs', hrest⟩
  · intro i k hm
    obtain ⟨a, s', ha, hs', hk⟩ := hs.slots i k ((List.mem_cons.mp hm).resolve_left (by simp))
    exact ⟨a, s', ha, hof a s' hs', hk⟩
  · simp [World.stateOf]
  · exact fun b k hm => hfirst b k ((List.mem_cons.mp hm).resolve_left (by simp))
  · exact fun hl i hm => hslot hl i ((List.mem_cons.mp hm).resolve_left (by simp))

/-- The first state of a run leaves the other runs alone. -/
theorem Made.write {s : State} {w : World} (h : Made t id s w) (hid : w.state.runId = id)
    (hstage : w.state.stage ≠ .complete) : Settled t w.writeState := by
  have hs := h.settled
  have hof : ∀ i s', w.stateOf i = some s' → w.writeState.stateOf i = some s' := by
    intro i s' hi
    have he : i ≠ w.state.runId := by
      intro he
      rw [he, hid, h.empty] at hi
      exact absurd hi (by simp)
    rw [stateOf_writeState_other he]
    exact hi
  refine ⟨⟨allowed_recorded (fun hc => absurd hc hstage), hs.guarded⟩, ?_, ?_, ?_, ?_⟩
  · exact fun i a hm => runs_writeState (hs.made i a (mem_writeState rfl hm))
  · exact fun i b k hm => runs_writeState (hs.begun i b k (mem_writeState rfl hm))
  · intro i ha
    obtain ⟨s', hs', hrest⟩ := hs.active i ha
    exact ⟨s', hof i s' hs', hrest⟩
  · intro i k hm
    obtain ⟨a, s', ha, hs', hk⟩ := hs.slots i k (mem_writeState rfl hm)
    exact ⟨a, s', ha, hof a s' hs', hk⟩

/-- A new run, from the making of its directory to the pointer. -/
theorem begin_fresh {id : RunId} {s : State} (hid : s.runId = id) (hslot : s.slot = t)
    (hstage : s.stage ≠ .complete) :
    Triple (fun w => Settled t w ∧ (∀ stage, w.activeStage = some stage → stage.terminal = true) ∧
        (s.labWindow = none → ∀ i, .began i true s.slot ∉ w.log))
      (begin id s) (fun _ => Fresh t id) (fun _ => Settled t) := by
  refine Triple.bind (Q := fun present w => (present = false → w.runs id = none) ∧ Settled t w ∧
      (∀ stage, w.activeStage = some stage → stage.terminal = true) ∧
      (s.labWindow = none → ∀ i, .began i true s.slot ∉ w.log))
    (look_triple (fun _ w h => ⟨fun hp => ?_, h⟩) (fun _ _ h => h.1)) (fun present => ?_)
  · simpa using hp
  refine Triple.bind (Q := fun _ w => w.runs id = none ∧ Settled t w ∧
      (∀ stage, w.activeStage = some stage → stage.terminal = true) ∧
      (s.labWindow = none → ∀ i, .began i true s.slot ∉ w.log))
    (require_triple (fun hp w h => ⟨h.1 (by simpa using hp), h.2⟩) (fun _ _ h => h.2.1)) (fun _ => ?_)
  -- the directory is made
  refine Triple.bind (Q := fun _ => Made t id s) (atomic_triple (fun _ w h => made_directory h)
    (fun _ _ h => h.2.1) (fun _ _ w h => (made_directory h).settled)) (fun _ => ?_)
  refine Triple.bind (Q := fun _ => Made t id s)
    (look_triple (fun _ _ h => h) (fun _ _ h => h.settled)) (fun _ => ?_)
  refine Triple.bind (Q := fun _ w => Made t id s w ∧ w.state = s)
    (Triple.update (fun w h => ⟨h.setState s, rfl⟩)) (fun _ => ?_)
  -- its state is written
  have hwrite : ∀ w, Made t id s w ∧ w.state = s → Settled t w.writeState := by
    intro w h
    exact h.1.write (by rw [h.2]; exact hid) (by rw [h.2]; exact hstage)
  refine Triple.bind (Q := fun _ w => Settled t w ∧ w.state = s ∧ w.stateOf id = some s ∧
      (∀ b k, .began id b k ∉ w.log) ∧ (s.labWindow = none → ∀ i, .began i true s.slot ∉ w.log))
    (atomic_triple (fun _ w h => ?_) (fun _ _ h => h.1.settled) (fun _ _ w h => hwrite w h))
    (fun _ => ?_)
  · refine ⟨hwrite w h, h.2, ?_, ?_, ?_⟩
    · have hst := stateOf_writeState w
      rw [h.2, hid] at hst
      exact hst
    · exact fun b k hm => h.1.first b k (mem_writeState rfl hm)
    · exact fun hl i hm => h.1.slot hl i (mem_writeState rfl hm)
  -- and it becomes the active run
  have hpoint : ∀ w, (Settled t w ∧ w.state = s ∧ w.stateOf id = some s ∧
      (∀ b k, .began id b k ∉ w.log) ∧ (s.labWindow = none → ∀ i, .began i true s.slot ∉ w.log)) →
      Fresh t id (w.writePointer id) := by
    intro w h
    obtain ⟨hs, hst, hof, hfirst, hsl⟩ := h
    have hrun : Running t (w.writePointer id) := by
      refine ⟨hs.guarded, hs.made, hs.begun, ?_, ?_, ?_, ?_⟩
      · show some id = some w.state.runId
        rw [hst, hid]
      · show ∃ s', w.stateOf w.state.runId = some s' ∧ s'.runId = w.state.runId ∧
          s'.slot = w.state.slot
        rw [hst, hid]
        exact ⟨s, hof, hid, rfl⟩
      · show w.state.slot ≤ t
        rw [hst]
        exact Nat.le_of_eq hslot
      · intro i k hk
        obtain ⟨a, s', ha, hs', hk⟩ := hs.slots i k hk
        obtain ⟨s'', hs'', _, hle⟩ := hs.active a ha
        rw [hs''] at hs'
        have he := Option.some.inj hs'
        show k ≤ w.state.slot
        rw [hst, hslot]
        exact Nat.le_trans hk (he ▸ hle)
    refine ⟨⟨hrun, ?_, ?_, List.nil_sublist _⟩, hfirst, ?_⟩
    · show w.state.runId = id
      rw [hst, hid]
    · show w.state.stage ≠ .complete
      rw [hst]
      exact hstage
    · show w.state.labWindow = none → ∀ i, .began i true w.state.slot ∉ w.log
      rw [hst]
      exact hsl
  exact atomic_triple (fun _ w h => hpoint w h) (fun _ _ h => h.1)
    (fun _ _ w h => (hpoint w h).busy.running.settled)

/-- What the active run's state tells the call. -/
structure Known (t : Nat) (state : Option State) (w : World) : Prop where
  settled : Settled t w
  active : ∀ s, state = some s → w.state = s ∧ w.active = some s.runId ∧
    w.stateOf s.runId = some s
  absent : state = none → w.active = none

theorem readActive_known : Triple (Settled t) (readActive binding) (fun state => Known t state)
    (fun _ => Settled t) := by
  refine Triple.bind (Q := fun active w => Settled t w ∧ w.active = active)
    (look_triple (fun _ _ h => ⟨h, rfl⟩) (fun _ _ h => h)) (fun active => ?_)
  cases active with
  | none =>
    exact Triple.pure' (fun _ h => ⟨h.1, fun _ hs => absurd hs (by simp), fun _ => h.2⟩)
  | some id =>
    refine Triple.bind (Q := fun _ w => Settled t w ∧ w.active = some id)
      (require_triple (fun _ _ h => h) (fun _ _ h => h.1)) (fun _ => ?_)
    refine Triple.bind (Q := fun state w => (Settled t w ∧ w.active = some id) ∧ w.stateOf id = state)
      (query_triple (fun _ _ h _ => ⟨h, rfl⟩) (fun _ _ h => h.1)) (fun state => ?_)
    cases state with
    | none => exact Triple.raise (fun _ h => h.1.1)
    | some s =>
      refine Triple.bind (Q := fun _ w => ((Settled t w ∧ w.active = some id) ∧
          w.stateOf id = some s) ∧ s.runId = id)
        (require_triple (fun hc _ h => ⟨h, ?_⟩) (fun _ _ h => h.1.1)) (fun _ => ?_)
      · simp only [Bool.and_eq_true, decide_eq_true_eq] at hc
        exact hc.1
      refine Triple.bind (Q := fun _ => Known t (some s)) (Triple.update (fun w h => ?_))
        (fun _ => Triple.pure' (fun _ h => h))
      obtain ⟨⟨⟨hs, ha⟩, hof⟩, hid⟩ := h
      refine ⟨hs.setState s, ?_, fun hn => absurd hn (by simp)⟩
      intro s' he
      obtain rfl := Option.some.inj he
      refine ⟨rfl, ?_, ?_⟩
      · rw [hid]; exact ha
      · rw [hid]; exact hof

/-- A run that is not over can be worked on. -/
theorem Known.busy {s : State} {w : World} (h : Known t (some s) w) (hs : s.stage ≠ .complete) :
    Busy t s.runId [] w := by
  obtain ⟨hst, ha, hof⟩ := h.active s rfl
  obtain ⟨s', hs', hid, hle⟩ := h.settled.active _ ha
  refine ⟨⟨h.settled.guarded, h.settled.made, h.settled.begun, ?_, ?_, ?_, ?_⟩, ?_, ?_,
    List.nil_sublist _⟩
  · rw [hst]; exact ha
  · rw [hst]; exact ⟨s, hof, rfl, rfl⟩
  · rw [hst, Option.some.inj (hof.symm.trans hs')]
    exact hle
  · intro i k hk
    obtain ⟨a, s'', ha', hs'', hk⟩ := h.settled.slots i k hk
    rw [ha] at ha'
    obtain rfl := Option.some.inj ha'
    rw [hof] at hs''
    rw [hst, Option.some.inj hs'']
    exact hk
  · rw [hst]
  · rw [hst]
    exact hs

theorem cleanupRun_settled {s : State} (hs : s.stage ≠ .complete) :
    Triple (Known t (some s)) cleanupRun (fun _ => Settled t) (fun _ => Settled t) := by
  apply Triple.pre (P := Busy t s.runId []) _ (fun _ h => h.busy hs)
  refine Triple.bind (look_keeps.mono (fun _ h => h) (fun _ _ h => h)
    (fun _ _ h => h.running.settled)) (fun _ => ?_)
  refine Triple.bind ((save_busy
    (f := fun s => { s with failure := some (s.failure.getD "interrupted-lifecycle") })
    (fun _ => rfl) (fun _ => rfl) (fun _ h => h)).mono
    (fun _ h => h) (fun _ _ h => h) (fun _ _ h => h.running.settled)) (fun _ => ?_)
  exact (finish_settled true false).pre (fun _ h => ⟨h, fun hf => absurd hf (by decide)⟩)

theorem readGrant_keeps {I : World → Prop} : Keeps I (readGrant parse binding granted) := by
  apply Triple.ite
  · exact fun _ => Keeps.bind labWindow_keeps (fun _ => Triple.pure' (fun _ h => h))
  · exact fun _ => Triple.pure' (fun _ h => h)

theorem newRunId_keeps {I : World → Prop} (grant : Option Grant) : Keeps I (newRunId grant) := by
  cases grant with
  | none => exact look_keeps
  | some g => exact Triple.pure' (fun _ h => h)

/-- In the slot `t` no scheduled run began, unless the active run is of that slot. -/
theorem Known.unused {state : Option State} {w : World} (h : Known t state w)
    (hf : alreadyFinished state none t = false) (i : RunId) : .began i true t ∉ w.log := by
  intro hm
  obtain ⟨a, s, ha, hof, hle⟩ := h.settled.slots i t hm
  cases state with
  | none => exact absurd (ha.symm.trans (h.absent rfl)) (by simp)
  | some s' =>
    obtain ⟨_, ha', hof'⟩ := h.active s' rfl
    rw [ha] at ha'
    obtain rfl := Option.some.inj ha'
    rw [hof] at hof'
    obtain rfl := Option.some.inj hof'
    obtain ⟨s'', hs'', _, hge⟩ := h.settled.active _ ha
    rw [hof] at hs''
    obtain rfl := Option.some.inj hs''
    have he : s.slot = t := Nat.le_antisymm hge hle
    simp [alreadyFinished, he] at hf

theorem startRun_settled {state : Option State} {grant : Option Grant}
    (hover : state.all (fun s => s.stage.terminal) = true)
    (hf : alreadyFinished state grant t = false) :
    Triple (Known t state) (startRun parse binding granted grant t) (fun _ => Settled t)
      (fun _ => Settled t) := by
  refine Triple.bind ((newRunId_keeps grant).mono (fun _ h => h) (fun _ _ h => h)
    (fun _ _ h => h.settled)) (fun id => ?_)
  refine Triple.bind (Q := fun _ => Fresh t id)
    ((begin_fresh (s := ⟨id, binding, t, .starting, false, none, grant⟩) rfl rfl
      (by simp)).pre (fun w h => ?_)) (fun _ => ?_)
  · refine ⟨h.settled, ?_, ?_⟩
    · intro stage hstage
      cases state with
      | none => simp [World.activeStage, h.absent rfl] at hstage
      | some s =>
        obtain ⟨_, ha, hof⟩ := h.active s rfl
        have he : s.stage = stage := by
          simp only [World.activeStage, ha, Option.bind_some, hof, Option.map_some] at hstage
          exact Option.some.inj hstage
        rw [← he]
        exact hover
    · intro hl i
      rw [show grant = none from hl] at hf
      exact h.unused hf i
  refine Triple.bind (look_keeps.mono (fun _ h => h) (fun _ _ h => h)
    (fun _ _ h => h.busy.running.settled)) (fun _ => ?_)
  refine Triple.bind (acceptance_busy.mono (fun _ h => h) (fun _ _ h => h)
    (fun _ _ h => h.running.settled)) (fun outcome => ?_)
  apply (finish_settled outcome.1 outcome.2).pre
  intro w h
  exact ⟨h.1, fun h₁ h₂ => h.2 (Prod.ext h₁ h₂)⟩

theorem runNew_settled {state : Option State} {now : Nat}
    (hover : state.all (fun s => s.stage.terminal) = true) :
    Triple (Known (slotOf now) state) (runNew parse binding granted now state)
      (fun _ => Settled (slotOf now)) (fun _ => Settled (slotOf now)) := by
  refine Triple.bind (readGrant_keeps.mono (fun _ h => h) (fun _ _ h => h)
    (fun _ _ h => h.settled)) (fun grant => ?_)
  apply Triple.ite
  · exact fun _ => Triple.pure' (fun _ h => h.settled)
  · intro _
    apply Triple.ite
    · exact fun _ => Triple.pure' (fun _ h => h.settled)
    · exact fun hf => startRun_settled hover (by simpa using hf)

/-- One call, of any kind. -/
theorem execute_settled {mode : Mode} {now : Nat} (ht : t ≤ slotOf now) :
    Triple (Settled t) (execute parse binding mode now) (fun _ => Settled (slotOf now))
      (fun _ => Settled (slotOf now)) := by
  apply Triple.pre (P := Settled (slotOf now)) _ (fun _ h => h.later ht)
  refine Triple.bind (Q := fun _ => Settled (slotOf now)) (Triple.perform (fun _ h => h) ?_)
    (fun _ => ?_)
  · intro m w h r w' hr
    split at hr
    · cases hr; exact h
    · split at hr
      · cases hr; exact h
      · cases hr; exact h
  refine Triple.bind (Q := fun _ => Settled (slotOf now))
    (Triple.update (fun _ h => h.add rfl trivial)) (fun _ => ?_)
  refine Triple.bind readActive_known (fun state => ?_)
  have hnew : ∀ b, Triple (Known (slotOf now) state)
      (do
        require (state.all (fun s => s.stage.terminal)) "interrupted-lifecycle-needs-cleanup" 75
        runNew parse binding b now state)
      (fun _ => Settled (slotOf now)) (fun _ => Settled (slotOf now)) := by
    intro b
    refine Triple.bind (Q := fun _ w => Known (slotOf now) state w ∧
      state.all (fun s => s.stage.terminal) = true)
      (require_triple (fun hc _ h => ⟨h, hc⟩) (fun _ _ h => h.settled)) (fun _ => ?_)
    exact Triple.given (fun _ h => h.2) (fun hover => (runNew_settled hover).pre (fun _ h => h.1))
  cases mode with
  | scheduled => exact hnew false
  | granted => exact hnew true
  | cleanupOnly =>
    apply Triple.ite
    · exact fun _ => Triple.pure' (fun _ h => h.settled)
    · intro hover
      cases state with
      | none => exact absurd rfl hover
      | some s =>
        apply cleanupRun_settled
        intro hs
        simp [hs, Stage.terminal] at hover

/-- The worlds that sequences of calls lead to, each call cut off anywhere; the last
    one was made at `now`, and no call before an earlier one. -/
inductive History (parse : String → Option Json) : Nat → World → Prop
  | start : History parse 0 World.empty
  | call {t now : Nat} {w : World} (h : History parse t w) (ht : t ≤ now) (binding : String)
      (mode : Mode) (script : List Moment) :
      History parse now ((execute parse binding mode now).after script w)

theorem History.settled {now : Nat} {w : World} (h : History parse now w) :
    Settled (slotOf now) w := by
  induction h with
  | start => exact settled_empty.later (Nat.zero_le _)
  | call _ ht binding mode script ih => exact Triple.after (execute_settled (slotOf_mono ht)) ih

/-- A scheduled run on a Sunday, a quarter past two. -/
def sunday : World :=
  (execute (fun _ => none) "policy" .scheduled (1783235700 * second)).after
    (List.replicate 20 { token := "run" }) World.empty

end

end Hermes.Lifecycle

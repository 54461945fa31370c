import Mathlib.Data.List.Count
import Hermes.HostSafety

/- The offline replay over any course of events: it is started at most once, and
   what is recorded as complete was verified.

   The state file of a transaction only moves forward, and `Recorded` ties each of its
   states to what the replay has done by then: nothing while it says `staging` or
   `staged`, some first part of `Replay.events` while it says `running` or `failed`, all
   of it once it says `complete`. A process that dies leaves `running` behind, from
   which no later request continues. -/
namespace Hermes
open Process

/-! What the replay of one transaction does, in order. -/

/-- The transaction and baseline of an event. -/
def ReplayEvent.transaction : ReplayEvent → String × Digest
  | .started d b => (d, b)
  | .selected d b _ _ _ => (d, b)
  | .completed d b _ _ _ => (d, b)

def ReplayEvent.isOf (directory : String) (baseline : Digest) (e : ReplayEvent) : Bool :=
  e.transaction = (directory, baseline)

/-- What the replay of this transaction has done. -/
def Machine.eventsOf (s : Machine) (directory : String) (baseline : Digest) : List ReplayEvent :=
  s.replayLog.filter (·.isOf directory baseline)

/-- How far a replay has come. -/
inductive Reached where
  | fresh
  | started
  | selected
  | completed
  deriving DecidableEq, Repr

/-- What a replay has done once its boot entry, where it has one, is selected. -/
def Replay.selectedEvents (r : Replay) (directory : String) (baseline : Digest) :
    List ReplayEvent :=
  match r.boot with
  | none => [.started directory baseline]
  | some boot => [.selected directory baseline boot.entry r.expected (some boot.sha256),
      .started directory baseline]

/-- What a replay that has come so far has done, the newest event first. -/
def Replay.events (r : Replay) (directory : String) (baseline : Digest) :
    Reached → List ReplayEvent
  | .fresh => []
  | .started => [.started directory baseline]
  | .selected => r.selectedEvents directory baseline
  | .completed =>
    .completed directory baseline r.expected false false :: r.selectedEvents directory baseline

/-- The state file of the transaction agrees with what was done. -/
inductive Recorded (directory : String) (baseline : Digest) (s : Machine) : Prop
  | unstaged (hr : s.replays directory baseline = none) (he : s.eventsOf directory baseline = [])
  | staged (r : Replay) (hr : s.replays directory baseline = some r)
      (hs : r.status = .staging ∨ r.status = .staged) (he : s.eventsOf directory baseline = [])
  | begun (r : Replay) (reached : Reached) (hr : s.replays directory baseline = some r)
      (hs : r.status = .running ∨ r.status = .failed)
      (he : s.eventsOf directory baseline = r.events directory baseline reached)
  | completed (r : Replay) (hr : s.replays directory baseline = some r)
      (hs : r.status = .complete)
      (he : s.eventsOf directory baseline = r.events directory baseline .completed)

/-- The transaction is as it was. -/
structure Untouched (directory : String) (baseline : Digest) (s s' : Machine) : Prop where
  replay : s'.replays directory baseline = s.replays directory baseline
  events : s'.eventsOf directory baseline = s.eventsOf directory baseline

section Frame
variable {directory : String} {baseline : Digest} {s s' s'' : Machine}

theorem Untouched.refl (s : Machine) : Untouched directory baseline s s := ⟨rfl, rfl⟩

theorem Untouched.trans (h : Untouched directory baseline s s')
    (h' : Untouched directory baseline s' s'') : Untouched directory baseline s s'' :=
  ⟨h'.replay.trans h.replay, h'.events.trans h.events⟩

theorem Untouched.setNode (s : Machine) (place : Place) (node : Option Node) :
    Untouched directory baseline s (s.setNode place node) := ⟨rfl, rfl⟩

theorem Untouched.setMeta (s : Machine) (place : Place) (f : Meta → Meta) :
    Untouched directory baseline s (s.setMeta place f) := by
  unfold Machine.setMeta
  split
  · exact ⟨rfl, rfl⟩
  · exact Untouched.refl s

theorem Untouched.setReplay {d : String} {b : Digest} (h : ¬(directory = d ∧ baseline = b))
    (s : Machine) (r : Replay) : Untouched directory baseline s (s.setReplay d b r) :=
  ⟨by simp only [Machine.setReplay, h, if_false], rfl⟩

/-- An event of another transaction. -/
theorem Untouched.logReplay {e : ReplayEvent} (h : e.isOf directory baseline = false)
    (s : Machine) : Untouched directory baseline s (s.logReplay e) :=
  ⟨rfl, by simp only [Machine.eventsOf, Machine.logReplay, List.filter_cons, h]; rfl⟩

@[simp] theorem setReplay_same (s : Machine) (r : Replay) :
    (s.setReplay directory baseline r).replays directory baseline = some r := by
  simp [Machine.setReplay]

@[simp] theorem setReplay_eventsOf (s : Machine) (r : Replay) (d : String) (b : Digest) :
    (s.setReplay d b r).eventsOf directory baseline = s.eventsOf directory baseline := rfl

theorem logReplay_eventsOf {e : ReplayEvent} (h : e.isOf directory baseline = true)
    (s : Machine) :
    (s.logReplay e).eventsOf directory baseline = e :: s.eventsOf directory baseline := by
  simp only [Machine.eventsOf, Machine.logReplay, List.filter_cons, h, if_true]

theorem Recorded.untouched (h : Recorded directory baseline s)
    (hu : Untouched directory baseline s s') : Recorded directory baseline s' := by
  have hr' := hu.replay
  have he' := hu.events
  cases h with
  | unstaged hr he => exact .unstaged (hr'.trans hr) (he'.trans he)
  | staged r hr hs he => exact .staged r (hr'.trans hr) hs (he'.trans he)
  | begun r reached hr hs he => exact .begun r reached (hr'.trans hr) hs (he'.trans he)
  | completed r hr hs he => exact .completed r (hr'.trans hr) hs (he'.trans he)

end Frame

/-! Requests for another transaction leave this one as it was. -/

section Other
variable {directory d : String} {baseline b : Digest}

theorem untouched_atomic {effect : Moment → Machine → Machine}
    (h : ∀ m s, Untouched directory baseline s (effect m s)) :
    Stays (Untouched directory baseline) (atomic effect) :=
  stays_atomic (fun _ _ _ => Untouched.trans) h

theorem untouched_command {can : Machine → Bool} {effect : Moment → Machine → Machine}
    (h : ∀ m s, Untouched directory baseline s (effect m s)) :
    Stays (Untouched directory baseline) (command can effect) :=
  stays_run (fun _ _ _ => Untouched.trans) h

theorem isOf_other (h : ¬(directory = d ∧ baseline = b)) {e : ReplayEvent}
    (he : e.transaction = (d, b)) : e.isOf directory baseline = false := by
  simp only [ReplayEvent.isOf, he, Prod.mk.injEq, decide_eq_false_iff_not]
  exact fun hd => h ⟨hd.1.symm, hd.2.symm⟩

theorem untouched_log (h : ¬(directory = d ∧ baseline = b)) {e : Machine → ReplayEvent}
    (he : ∀ s, (e s).transaction = (d, b)) :
    Stays (Untouched directory baseline) (Proc.update fun s => s.logReplay (e s) : Task Machine Unit) :=
  stays_update (fun _ _ _ => Untouched.trans)
    (fun s => Untouched.logReplay (isOf_other h (he s)) s)

theorem stays_stagedBoot {R : Machine → Machine → Prop} (entry : Option String) :
    Stays R (stagedBoot entry) := by
  cases entry with
  | none => exact Stays.pure' none
  | some entry =>
    apply Stays.bind stays_require
    intro _
    exact Stays.bind (stays_protectedFile _) (fun _ => Stays.pure' _)

theorem stageOffline_other (h : ¬(directory = d ∧ baseline = b)) (expected : Digest)
    (entry : Option String) :
    Stays (Untouched directory baseline) (stageOffline d b expected entry) := by
  rw [stageOffline_eq]
  apply Stays.bind stays_require
  intro _
  apply Stays.bind (stays_stagedBoot entry)
  intro boot
  apply Stays.bind Stays.read
  intro s
  apply Stays.bind stays_require
  intro _
  apply Stays.bind stays_require
  intro _
  apply Stays.bind stays_instant
  intro m
  apply Stays.bind (untouched_atomic (fun _ s => Untouched.setReplay h s _))
  intro _
  apply Stays.bind (untouched_atomic (fun _ s => Untouched.setNode s _ _))
  intro _
  apply Stays.bind (untouched_atomic (fun _ s => Untouched.setMeta s _ _))
  intro _
  apply Stays.bind (untouched_command (fun _ s => Untouched.refl s))
  intro _
  apply Stays.bind (untouched_atomic (fun _ s => Untouched.refl s))
  intro _
  refine Stays.bind (untouched_atomic (fun _ s => ⟨rfl, rfl⟩)) ?_
  intro _
  apply Stays.bind (untouched_atomic (fun _ s => Untouched.setReplay h s _))
  intro _
  refine Stays.bind (untouched_atomic (fun _ s => ⟨rfl, rfl⟩)) ?_
  intro _
  exact untouched_command (fun _ s => Untouched.refl s)

theorem stays_verifyPackages {R : Machine → Machine → Prop} (baseline : Digest) :
    Stays R (verifyPackages baseline) := by
  apply Stays.bind stays_query
  intro _
  apply Stays.bind stays_require
  intro _
  exact Stays.bind stays_instant (fun _ => stays_require)

theorem replayStaged_other (h : ¬(directory = d ∧ baseline = b)) (state : Replay) :
    Stays (Untouched directory baseline) (replayStaged d b state) := by
  apply Stays.bind (stays_verifyPackages b)
  intro _
  apply Stays.bind (untouched_log h (fun _ => rfl))
  intro _
  refine Stays.bind (untouched_command (fun _ s => ⟨rfl, rfl⟩)) ?_
  intro _
  apply Stays.bind stays_query
  intro _
  apply Stays.bind stays_require
  intro _
  apply Stays.bind
  · cases state.boot with
    | none => exact Stays.pure' ()
    | some boot =>
      apply Stays.bind (stays_protectedFile _)
      intro _
      apply Stays.bind stays_require
      intro _
      apply Stays.bind (untouched_log h (fun _ => rfl))
      intro _
      exact untouched_command (fun _ s => ⟨rfl, rfl⟩)
  intro _
  apply Stays.bind
  · apply Stays.bind (stays_protectedFile _)
    intro _
    apply Stays.bind stays_require
    intro _
    apply Stays.bind Stays.read
    intro _
    apply Stays.bind stays_require
    intro _
    refine Stays.bind (untouched_atomic (fun _ s => ⟨rfl, rfl⟩)) ?_
    exact fun _ => untouched_atomic (fun _ s => Untouched.setNode s _ _)
  intro _
  apply Stays.bind stays_instant
  intro m
  exact untouched_atomic (fun _ s =>
    (Untouched.setReplay h s _).trans (Untouched.logReplay (isOf_other h rfl) _))

theorem executeOffline_other (h : ¬(directory = d ∧ baseline = b)) :
    Stays (Untouched directory baseline) (executeOffline d b) := by
  apply Stays.bind Stays.read
  intro s
  apply Stays.ite (Stays.pure' ())
  refine Stays.bind (untouched_atomic (fun _ s => ⟨rfl, rfl⟩)) ?_
  intro _
  apply Stays.bind (untouched_command (fun _ s => Untouched.refl s))
  intro _
  apply Stays.bind Stays.read
  intro s
  cases s.replays d b with
  | none => exact Stays.raise _
  | some state =>
    apply Stays.bind stays_require
    intro _
    apply Stays.bind (untouched_atomic (fun _ s => Untouched.setReplay h s _))
    intro _
    apply Stays.bind
    · apply Stays.handle (replayStaged_other h _)
      intro e
      apply Stays.ite _ (Stays.raise _)
      apply Stays.bind stays_instant
      intro m
      apply Stays.bind (untouched_atomic (fun _ s => Untouched.setReplay h s _))
      exact fun _ => Stays.raise _
    · exact fun _ => untouched_command (fun _ s => Untouched.refl s)

end Other

/-! Requests for the transaction itself. -/

section Same
variable {directory : String} {baseline : Digest}

/-- The state file says `r`, and the replay has come so far. -/
def Standing (directory : String) (baseline : Digest) (r : Replay) (reached : Reached)
    (s : Machine) : Prop :=
  s.replays directory baseline = some r ∧
    s.eventsOf directory baseline = r.events directory baseline reached

theorem Standing.untouched {r : Replay} {reached : Reached} {s s' : Machine}
    (h : Standing directory baseline r reached s) (hu : Untouched directory baseline s s') :
    Standing directory baseline r reached s' :=
  ⟨hu.replay.trans h.1, hu.events.trans h.2⟩

theorem Standing.staged {r : Replay} {s : Machine} (h : Standing directory baseline r .fresh s)
    (hs : r.status = .staging ∨ r.status = .staged) : Recorded directory baseline s :=
  .staged r h.1 hs h.2

/-- What leaves the transaction alone leaves its standing alone. -/
theorem standing_keeps {α : Type} {x : Task Machine α} {r : Replay} {reached : Reached}
    (hx : Stays (Untouched directory baseline) x) :
    Keeps (Standing directory baseline r reached) x :=
  hx.keeps Untouched.refl (fun _ _ hu h => h.untouched hu)

theorem stageLocked_same (expected : Digest) (boot : Option BootArtifact) :
    Keeps (Recorded directory baseline) (stageLocked directory baseline expected boot) := by
  apply Triple.bind (Triple.read (Q := fun s₀ s => s = s₀ ∧ Recorded directory baseline s)
    (fun _ hs => ⟨rfl, hs⟩))
  intro s₀
  apply Triple.bind (require_keeps.mono (fun _ h => h) (fun _ _ h => h) (fun _ _ h => h.2))
  intro _
  apply Triple.bind (Q := fun _ s => s.replays directory baseline = none ∧
    s.eventsOf directory baseline = [])
  · apply require_triple
    · intro hnone s ⟨hs, hrec⟩
      subst hs
      have hnone : s.replays directory baseline = none := Option.isNone_iff_eq_none.mp hnone
      cases hrec with
      | unstaged hr he => exact ⟨hr, he⟩
      | staged r hr => rw [hnone] at hr; cases hr
      | begun r _ hr => rw [hnone] at hr; cases hr
      | completed r hr => rw [hnone] at hr; cases hr
    · exact fun _ s hs => hs.2
  intro _
  apply Triple.bind (instant_triple (fun _ _ hs => hs) (fun _ s hs => .unstaged hs.1 hs.2))
  intro m
  -- every further operation either writes the state file or leaves the transaction alone
  have hkeep : ∀ {r : Replay} {x : Task Machine Unit}, r.status = .staging ∨ r.status = .staged →
      Stays (Untouched directory baseline) x →
      Triple (Standing directory baseline r .fresh) x
        (fun _ => Standing directory baseline r .fresh) (fun _ => Recorded directory baseline) :=
    fun hr hx => (standing_keeps hx).mono (fun _ h => h) (fun _ _ h => h) (fun _ _ h => h.staged hr)
  have hfirst : Triple (fun s => s.replays directory baseline = none ∧
        s.eventsOf directory baseline = [])
      (atomic fun _ s => s.setReplay directory baseline ⟨expected, .staging, s₀.bootId, m.now,
        digest (unitText directory baseline), boot, none, none, none⟩)
      (fun _ => Standing directory baseline ⟨expected, .staging, s₀.bootId, m.now,
        digest (unitText directory baseline), boot, none, none, none⟩ .fresh)
      (fun _ => Recorded directory baseline) :=
    atomic_triple (fun _ s hs => ⟨by simp, hs.2⟩) (fun _ s hs => .unstaged hs.1 hs.2)
      (fun _ _ s hs => .staged _ (setReplay_same s _) (.inl rfl) hs.2)
  apply Triple.bind hfirst
  intro _
  apply Triple.bind (hkeep (.inl rfl) (untouched_atomic (fun _ s => Untouched.setNode s _ _)))
  intro _
  apply Triple.bind (hkeep (.inl rfl) (untouched_atomic (fun _ s => Untouched.setMeta s _ _)))
  intro _
  apply Triple.bind (hkeep (.inl rfl) (untouched_command (fun _ s => Untouched.refl s)))
  intro _
  apply Triple.bind (hkeep (.inl rfl) (untouched_atomic (fun _ s => Untouched.refl s)))
  intro _
  refine Triple.bind (hkeep (.inl rfl) (untouched_atomic (fun _ s => ⟨rfl, rfl⟩))) ?_
  intro _
  have hsecond : Triple (Standing directory baseline ⟨expected, .staging, s₀.bootId, m.now,
        digest (unitText directory baseline), boot, none, none, none⟩ .fresh)
      (atomic fun _ s => s.setReplay directory baseline ⟨expected, .staged, s₀.bootId, m.now,
        digest (unitText directory baseline), boot, none, none, none⟩)
      (fun _ => Standing directory baseline ⟨expected, .staged, s₀.bootId, m.now,
        digest (unitText directory baseline), boot, none, none, none⟩ .fresh)
      (fun _ => Recorded directory baseline) :=
    atomic_triple (fun _ s hs => ⟨by simp, hs.2⟩) (fun _ s hs => hs.staged (.inl rfl))
      (fun _ _ s hs => .staged _ (setReplay_same s _) (.inr rfl) hs.2)
  apply Triple.bind hsecond
  intro _
  refine Triple.bind (hkeep (.inr rfl) (untouched_atomic (fun _ s => ⟨rfl, rfl⟩))) ?_
  intro _
  exact (hkeep (.inr rfl) (untouched_command (fun _ s => Untouched.refl s))).post
    (fun _ _ h => h.staged (.inr rfl))

theorem stageOffline_keeps (d : String) (b expected : Digest) (entry : Option String) :
    Keeps (Recorded directory baseline) (stageOffline d b expected entry) := by
  by_cases h : directory = d ∧ baseline = b
  · obtain ⟨hd, hb⟩ := h
    subst hd hb
    rw [stageOffline_eq]
    apply Triple.bind require_keeps
    intro _
    apply Triple.bind ((stays_stagedBoot entry).keeps Untouched.refl
      (fun _ _ hu hs => hs.untouched hu))
    exact fun boot => stageLocked_same expected boot
  · exact (stageOffline_other h expected entry).keeps Untouched.refl (fun _ _ hu hs => hs.untouched hu)

/-- What `protectedFile` returns is what the file holds. -/
theorem protectedFile_triple {I : Machine → Prop} (place : Place) :
    Triple I (protectedFile place)
      (fun bytes s => I s ∧ Node.bytes? (s.files place) = some bytes) (fun _ => I) := by
  apply Triple.bind (Triple.read (Q := fun s₀ s => s = s₀ ∧ I s) (fun _ h => ⟨rfl, h⟩))
  intro s₀
  cases hnode : s₀.files place with
  | none => exact Triple.raise (fun _ h => h.2)
  | some node =>
    cases node with
    | link => exact Triple.raise (fun _ h => h.2)
    | file bytes info =>
      have hkeep : ∀ {α : Type} {x : Task Machine α}, Keeps (fun s => s = s₀ ∧ I s) x →
          Triple (fun s => s = s₀ ∧ I s) x (fun _ s => s = s₀ ∧ I s) (fun _ => I) :=
        fun hx => hx.mono (fun _ h => h) (fun _ _ h => h) (fun _ _ h => h.2)
      apply Triple.bind (hkeep require_keeps)
      intro _
      apply Triple.bind (hkeep require_keeps)
      intro _
      apply Triple.bind (hkeep instant_keeps)
      intro _
      apply Triple.bind (hkeep require_keeps)
      intro _
      apply Triple.pure'
      intro s ⟨hs, hI⟩
      rw [hs] at hI ⊢
      exact ⟨hI, by rw [hnode]; rfl⟩

/-- What the replay may leave behind when it stops: its state file as it was or already
    complete, and some first part of what it does. -/
def LeftOff (directory : String) (baseline : Digest) (r : Replay) (s : Machine) : Prop :=
  Recorded directory baseline s ∧
    ∃ reached, s.eventsOf directory baseline = r.events directory baseline reached

theorem Standing.leftOff {r : Replay} {reached : Reached} {s : Machine}
    (h : Standing directory baseline r reached s) (hs : r.status = .running) :
    LeftOff directory baseline r s :=
  ⟨.begun r reached h.1 (.inl hs) h.2, reached, h.2⟩

/-- The inventory is what the transaction promised. -/
def Verified (directory : String) (baseline : Digest) (r : Replay) (reached : Reached)
    (s : Machine) : Prop :=
  Standing directory baseline r reached s ∧ digest s.inventory = r.expected

theorem selectBoot_same {r : Replay} (hs : r.status = .running) :
    Triple (Verified directory baseline r .started) (selectBoot directory baseline r.boot)
      (fun _ => Verified directory baseline r .selected)
      (fun _ => LeftOff directory baseline r) := by
  cases hboot : r.boot with
  | none =>
    apply Triple.pure'
    intro s hv
    refine ⟨⟨hv.1.1, ?_⟩, hv.2⟩
    rw [hv.1.2]
    simp only [Replay.events, Replay.selectedEvents, hboot]
  | some boot =>
    apply Triple.bind ((protectedFile_triple (.bootEntry boot.entry)).mono (fun _ h => h)
      (fun _ _ h => h) (fun _ _ h => h.1.leftOff hs))
    intro bytes
    apply Triple.bind (Q := fun _ s => Verified directory baseline r .started s ∧
      (Node.bytes? (s.files (.bootEntry boot.entry))).map Bytes.sha256 = some boot.sha256)
    · apply require_triple
      · intro hsha s ⟨hv, hbytes⟩
        have hsha : bytes.sha256 = boot.sha256 := by
          exact of_decide_eq_true (Bool.and_eq_true _ _ ▸ hsha).2
        exact ⟨hv, by rw [hbytes, Option.map_some, hsha]⟩
      · exact fun _ s h => h.1.1.leftOff hs
    intro _
    apply Triple.bind (Q := fun _ => Verified directory baseline r .selected)
    · apply Triple.update
      intro s ⟨hv, hfile⟩
      refine ⟨⟨hv.1.1, ?_⟩, hv.2⟩
      rw [logReplay_eventsOf (by simp [ReplayEvent.isOf, ReplayEvent.transaction]), hv.1.2, hfile,
        hv.2]
      simp only [Replay.events, Replay.selectedEvents, hboot]
    · intro _
      exact run_triple (fun _ s hv _ => hv) (fun _ s hv => hv.1.leftOff hs)
        (fun _ _ s hv _ => Standing.leftOff hv.1 hs)

theorem cleanupOffline_same {r state : Replay} (hs : r.status = .running) :
    Triple (Verified directory baseline r .selected) (cleanupOffline state)
      (fun _ s => Verified directory baseline r .selected s ∧ s.files .offlineUnit = none ∧
        s.wantLink = .absent)
      (fun _ => LeftOff directory baseline r) := by
  apply Triple.bind ((protectedFile_triple .offlineUnit).mono (fun _ h => h)
    (fun _ _ h => h.1) (fun _ _ h => h.1.leftOff hs))
  intro bytes
  apply Triple.bind (require_keeps.mono (fun _ h => h) (fun _ _ h => h) (fun _ _ h => h.1.leftOff hs))
  intro _
  apply Triple.bind (Triple.read (Q := fun _ => Verified directory baseline r .selected)
    (fun _ h => h))
  intro _
  apply Triple.bind (require_keeps.mono (fun _ h => h) (fun _ _ h => h) (fun _ _ h => h.1.leftOff hs))
  intro _
  apply Triple.bind (Q := fun _ s => Verified directory baseline r .selected s ∧
    s.wantLink = .absent)
  · exact atomic_triple (fun _ s hv => ⟨hv, rfl⟩) (fun _ s hv => hv.1.leftOff hs)
      (fun _ _ s hv => Standing.leftOff hv.1 hs)
  · intro _
    exact atomic_triple (fun _ s hv => ⟨hv.1, by simp, hv.2⟩) (fun _ s hv => hv.1.1.leftOff hs)
      (fun _ _ s hv => Standing.leftOff hv.1.1 hs)

theorem replayStaged_same {r : Replay} (hs : r.status = .running) :
    Triple (Standing directory baseline r .fresh) (replayStaged directory baseline r)
      (fun _ => Recorded directory baseline) (fun _ => LeftOff directory baseline r) := by
  apply Triple.bind ((standing_keeps (stays_verifyPackages baseline)).mono (fun _ h => h)
    (fun _ _ h => h) (fun _ _ h => h.leftOff hs))
  intro _
  apply Triple.bind (Q := fun _ => Standing directory baseline r .started)
  · apply Triple.update
    intro s h
    refine ⟨h.1, ?_⟩
    rw [logReplay_eventsOf (by simp [ReplayEvent.isOf, ReplayEvent.transaction]), h.2]
    rfl
  intro _
  apply Triple.bind (Q := fun _ => Standing directory baseline r .started)
  · exact run_triple (fun _ s h _ => h) (fun _ s h => h.leftOff hs)
      (fun _ _ s h _ => Standing.leftOff h hs)
  intro _
  apply Triple.bind (packageBaseline_triple.mono (fun _ h => h) (fun _ _ h => h)
    (fun _ _ h => h.leftOff hs))
  intro found
  apply Triple.bind (Q := fun _ => Verified directory baseline r .started)
  · apply require_triple
    · intro hfound s ⟨h, hd⟩
      exact ⟨h, hd.symm.trans (by simpa using hfound)⟩
    · exact fun _ s h => h.1.leftOff hs
  intro _
  apply Triple.bind (selectBoot_same hs)
  intro _
  apply Triple.bind (cleanupOffline_same hs)
  intro _
  apply Triple.bind (instant_triple (fun _ _ h => h) (fun _ s h => h.1.1.leftOff hs))
  intro m
  have hdone : ∀ s, (Verified directory baseline r .selected s ∧ s.files .offlineUnit = none ∧
      s.wantLink = .absent) → Standing directory baseline
        { r with status := .complete, completedAt := some m.now } .completed
        ((s.setReplay directory baseline
          { r with status := .complete, completedAt := some m.now }).logReplay
            (.completed directory baseline (digest s.inventory) (s.files .offlineUnit).isSome
              (s.wantLink != .absent))) := by
    intro s ⟨hv, hunit, hlink⟩
    refine ⟨setReplay_same s _, ?_⟩
    rw [logReplay_eventsOf (by simp [ReplayEvent.isOf, ReplayEvent.transaction]),
      setReplay_eventsOf, hv.1.2, hv.2, hunit, hlink]
    rfl
  exact atomic_triple (fun _ s h => .completed _ (hdone s h).1 rfl (hdone s h).2)
    (fun _ s h => h.1.1.leftOff hs)
    (fun _ _ s h => ⟨.completed _ (hdone s h).1 rfl (hdone s h).2, .completed, (hdone s h).2⟩)

theorem executeOffline_same :
    Keeps (Recorded directory baseline) (executeOffline directory baseline) := by
  apply Triple.bind (Triple.read (Q := fun _ => Recorded directory baseline) (fun _ h => h))
  intro s₀
  refine Triple.ite (fun _ => Triple.pure' (fun _ h => h)) ?_
  intro _
  have hkeep : ∀ {x : Task Machine Unit}, Stays (Untouched directory baseline) x →
      Keeps (Recorded directory baseline) x :=
    fun hx => hx.keeps Untouched.refl (fun _ _ hu h => h.untouched hu)
  refine Triple.bind (hkeep (untouched_atomic (fun _ s => ⟨rfl, rfl⟩))) ?_
  intro _
  apply Triple.bind (hkeep (untouched_command (fun _ s => Untouched.refl s)))
  intro _
  apply Triple.bind (Triple.read (Q := fun s₁ s => s = s₁ ∧ Recorded directory baseline s)
    (fun _ h => ⟨rfl, h⟩))
  intro s₁
  cases hstate : s₁.replays directory baseline with
  | none => exact Triple.raise (fun _ h => h.2)
  | some state =>
    apply Triple.bind (Q := fun _ s => s.eventsOf directory baseline = [] ∧
      Recorded directory baseline s)
    · apply require_triple
      · intro hstaged s ⟨hs, hrec⟩
        subst hs
        have hstaged : state.status = .staged := of_decide_eq_true (Bool.and_eq_true _ _ ▸ hstaged).1
        refine ⟨?_, hrec⟩
        cases hrec with
        | unstaged hr he => exact he
        | staged r hr hs he => exact he
        | begun r _ hr hs =>
          rw [hstate] at hr; cases hr
          rcases hs with hs | hs <;> rw [hstaged] at hs <;> cases hs
        | completed r hr hs =>
          rw [hstate] at hr; cases hr
          rw [hstaged] at hs; cases hs
      · exact fun _ s h => h.2
    intro _
    have hrun : Triple (fun s => s.eventsOf directory baseline = [] ∧ Recorded directory baseline s)
        (atomic fun _ s => s.setReplay directory baseline
          { state with status := .running, updateBoot := some s₁.bootId })
        (fun _ => Standing directory baseline
          { state with status := .running, updateBoot := some s₁.bootId } .fresh)
        (fun _ => Recorded directory baseline) :=
      atomic_triple (fun _ s h => ⟨setReplay_same s _, h.1⟩) (fun _ s h => h.2)
        (fun _ _ s h => .begun _ .fresh (setReplay_same s _) (.inl rfl) h.1)
    apply Triple.bind hrun
    intro _
    apply Triple.bind (Q := fun _ => Recorded directory baseline)
    · apply Triple.handle (replayStaged_same rfl)
      intro e
      apply Triple.ite
      · intro _
        apply Triple.bind (instant_triple (fun _ _ h => h) (fun _ s h => h.1))
        intro m
        apply Triple.bind (Q := fun _ => Recorded directory baseline)
        · have hfail : ∀ s, LeftOff directory baseline
              { state with status := .running, updateBoot := some s₁.bootId } s →
              Recorded directory baseline (s.setReplay directory baseline
                { state with
                  status := .failed
                  updateBoot := some s₁.bootId
                  error := some e.reason
                  completedAt := some m.now }) := by
            intro s ⟨_, reached, he⟩
            exact .begun _ reached (setReplay_same s _) (.inr rfl) (by
              rw [setReplay_eventsOf, he]
              cases reached <;> rfl)
          exact atomic_triple (fun _ s h => hfail s h) (fun _ s h => h.1) (fun _ _ s h => hfail s h)
        · exact fun _ => Triple.raise (fun _ h => h)
      · exact fun _ => Triple.raise (fun _ h => h.1)
    · exact fun _ => hkeep (untouched_command (fun _ s => Untouched.refl s))

theorem executeOffline_keeps (d : String) (b : Digest) :
    Keeps (Recorded directory baseline) (executeOffline d b) := by
  by_cases h : directory = d ∧ baseline = b
  · obtain ⟨hd, hb⟩ := h
    subst hd hb
    exact executeOffline_same
  · exact (executeOffline_other h).keeps Untouched.refl (fun _ _ hu hs => hs.untouched hu)

end Same

/-! Any course of events. -/

/-- A request of `offline.py`, run as far as its script goes. -/
inductive OfflineRequest where
  | stage (directory : String) (baseline expected : Digest) (entry : Option String)
      (script : List Moment)
  | execute (directory : String) (baseline : Digest) (script : List Moment)

/-- The directory a request is for. -/
def OfflineRequest.directory : OfflineRequest → String
  | .stage d _ _ _ _ => d
  | .execute d _ _ => d

def Machine.request (s : Machine) : OfflineRequest → Machine
  | .stage d b expected entry script => (stageOffline d b expected entry).after script s
  | .execute d b script => (executeOffline d b).after script s

/-- A request, or anything else that leaves the state file of the transaction alone: a
    reboot, another update manager, an operator. -/
inductive OfflineStep (directory : String) (baseline : Digest) : Machine → Machine → Prop
  | request (s : Machine) (q : OfflineRequest) : OfflineStep directory baseline s (s.request q)
  | outside (s s' : Machine) (h : Untouched directory baseline s s') :
      OfflineStep directory baseline s s'

section Runs
variable {directory : String} {baseline : Digest}

theorem recorded_step {s s' : Machine} (h : Recorded directory baseline s)
    (hstep : OfflineStep directory baseline s s') : Recorded directory baseline s' := by
  cases hstep with
  | outside _ hu => exact h.untouched hu
  | request q =>
    cases q with
    | stage d b expected entry script => exact (stageOffline_keeps d b expected entry).after h
    | execute d b script => exact (executeOffline_keeps d b).after h

theorem recorded_run {s₀ s : Machine} (h : Recorded directory baseline s₀)
    (hrun : Relation.ReflTransGen (OfflineStep directory baseline) s₀ s) :
    Recorded directory baseline s := by
  induction hrun with
  | refl => exact h
  | tail _ hstep ih => exact recorded_step ih hstep

/-- A link that is there when staging begins stays. -/
theorem stageOffline_link {s₀ : Machine} (hlink : s₀.systemUpdate ≠ .absent) (d : String)
    (b expected : Digest) (entry : Option String) :
    Keeps (fun s => s = s₀) (stageOffline d b expected entry) := by
  rw [stageOffline_eq]
  apply Triple.bind require_keeps
  intro _
  apply Triple.bind (Stays.keeps (R := Eq) (stays_stagedBoot entry) (fun _ => rfl)
    (fun _ _ h hs => h ▸ hs))
  intro boot
  apply Triple.bind (Triple.read (Q := fun s₁ s => s₁ = s₀ ∧ s = s₀) (fun _ h => ⟨h, h⟩))
  intro s₁
  apply Triple.given (fun _ h => h.1)
  intro hs₁
  have hin : s₁.updateStaged = true := by
    rw [hs₁]
    simp [Machine.updateStaged, hlink]
  apply Triple.bind (Q := fun _ _ => False)
  · apply require_triple
    · intro hno
      rw [hin] at hno; cases hno
    · exact fun _ s h => h.2
  · exact fun _ => Triple.given (fun _ h => h) False.elim

/-- A link to another directory ends the execution. -/
theorem executeOffline_link {s₀ : Machine} {d : String} (hlink : s₀.systemUpdate ≠ .to d)
    (b : Digest) : Keeps (fun s => s = s₀) (executeOffline d b) := by
  apply Triple.bind (Triple.read (Q := fun s₁ s => s₁ = s₀ ∧ s = s₀) (fun _ h => ⟨h, h⟩))
  intro s₁
  apply Triple.given (fun _ h => h.1)
  intro hs₁
  refine Triple.ite (fun _ => Triple.pure' (fun _ h => h.2)) ?_
  intro hno
  rw [hs₁] at hno
  exact absurd hlink hno

theorem request_link {s : Machine} (q : OfflineRequest) (habsent : s.systemUpdate ≠ .absent)
    (hother : s.systemUpdate ≠ .to q.directory) : s.request q = s := by
  cases q with
  | stage d b expected entry script => exact (stageOffline_link habsent d b expected entry).after rfl
  | execute d b script => exact (executeOffline_link hother b).after rfl

/-- A logged event of the transaction is one of those its replay does, and what it had
    done before comes before. -/
theorem Recorded.split {s : Machine} (h : Recorded directory baseline s) {e : ReplayEvent}
    {later earlier : List ReplayEvent} (hlog : s.replayLog = later ++ e :: earlier)
    (he : e.isOf directory baseline = true) :
    ∃ r reached before, s.replays directory baseline = some r ∧
      r.events directory baseline reached =
        before ++ e :: earlier.filter (·.isOf directory baseline) := by
  have hevents : s.eventsOf directory baseline =
      later.filter (·.isOf directory baseline) ++ e ::
        earlier.filter (·.isOf directory baseline) := by
    rw [Machine.eventsOf, hlog, List.filter_append, List.filter_cons, if_pos he]
  have hne : s.eventsOf directory baseline ≠ [] := by rw [hevents]; simp
  cases h with
  | unstaged _ hnone => exact absurd hnone hne
  | staged _ _ _ hnone => exact absurd hnone hne
  | begun r reached hr _ hdone => exact ⟨r, reached, _, hr, hdone.symm.trans hevents⟩
  | completed r hr _ hdone => exact ⟨r, .completed, _, hr, hdone.symm.trans hevents⟩

/-- What precedes an event of a replay up to the selection of its boot entry. -/
theorem selectedEvents_cons {r : Replay} {before rest : List ReplayEvent} {e : ReplayEvent}
    (h : r.selectedEvents directory baseline = before ++ e :: rest) :
    (e = .started directory baseline ∧ rest = []) ∨
    (rest = [.started directory baseline] ∧ ∃ boot, r.boot = some boot ∧
      e = .selected directory baseline boot.entry r.expected (some boot.sha256)) := by
  unfold Replay.selectedEvents at h
  cases hboot : r.boot with
  | none =>
    rw [hboot] at h
    obtain ⟨_, hlast⟩ | ⟨_, _, hnil⟩ := List.cons_eq_append_iff.mp h
    · cases hlast; exact .inl ⟨rfl, rfl⟩
    · simp at hnil
  | some boot =>
    rw [hboot] at h
    obtain ⟨_, hlast⟩ | ⟨_, _, hlast⟩ := List.cons_eq_append_iff.mp h
    · cases hlast; exact .inr ⟨rfl, boot, rfl, rfl⟩
    · obtain ⟨_, hlast⟩ | ⟨_, _, hnil⟩ := List.cons_eq_append_iff.mp hlast
      · cases hlast; exact .inl ⟨rfl, rfl⟩
      · simp at hnil

/-- The same for a whole replay. -/
theorem events_cons {r : Replay} {reached : Reached} {before rest : List ReplayEvent}
    {e : ReplayEvent} (h : r.events directory baseline reached = before ++ e :: rest) :
    (e = .started directory baseline ∧ rest = []) ∨
    (rest = [.started directory baseline] ∧ ∃ boot, r.boot = some boot ∧
      e = .selected directory baseline boot.entry r.expected (some boot.sha256)) ∨
    (e = .completed directory baseline r.expected false false ∧
      rest = r.selectedEvents directory baseline) := by
  cases reached with
  | fresh => simp [Replay.events] at h
  | started =>
    obtain ⟨_, hlast⟩ | ⟨_, _, hnil⟩ := List.cons_eq_append_iff.mp h
    · cases hlast; exact .inl ⟨rfl, rfl⟩
    · simp at hnil
  | selected => exact (selectedEvents_cons h).imp id .inl
  | completed =>
    obtain ⟨_, hlast⟩ | ⟨_, _, hlast⟩ := List.cons_eq_append_iff.mp h
    · cases hlast; exact .inr (.inr ⟨rfl, rfl⟩)
    · exact (selectedEvents_cons hlast).imp id .inl

theorem started_mem (r : Replay) : .started directory baseline ∈ r.selectedEvents directory baseline := by
  unfold Replay.selectedEvents
  cases r.boot <;> simp

theorem events_count (r : Replay) (reached : Reached) :
    (r.events directory baseline reached).count (.started directory baseline) ≤ 1 := by
  have hsel : (r.selectedEvents directory baseline).count (.started directory baseline) = 1 := by
    unfold Replay.selectedEvents
    cases r.boot <;> simp
  cases reached with
  | fresh => simp [Replay.events]
  | started => simp [Replay.events]
  | selected => simp only [Replay.events, hsel]; omega
  | completed =>
    have hne : (.completed directory baseline r.expected false false : ReplayEvent) ≠
        .started directory baseline := by simp
    simp only [Replay.events, List.count_cons_of_ne hne, hsel]; omega

theorem Recorded.count {s : Machine} (h : Recorded directory baseline s) :
    s.replayLog.count (.started directory baseline) ≤ 1 := by
  have hof : (ReplayEvent.started directory baseline).isOf directory baseline = true := by
    simp [ReplayEvent.isOf, ReplayEvent.transaction]
  have hcount : s.replayLog.count (.started directory baseline) =
      (s.eventsOf directory baseline).count (.started directory baseline) :=
    (List.count_filter hof).symm
  rw [hcount]
  cases h with
  | unstaged _ he => rw [he]; simp
  | staged _ _ _ he => rw [he]; simp
  | begun r reached _ _ he => rw [he]; exact events_count r reached
  | completed r _ _ he => rw [he]; exact events_count r .completed

/-- The offline replay of one transaction over any course of requests, each stopped
    anywhere, and of whatever happens around them: `dnf5 replay` is started at most once;
    its boot entry is selected only after that, with the promised inventory in place and
    the file that was staged; `complete` is recorded only after both, with the inventory
    in place and nothing left of the service; and no request moves a system-update link
    to anything but its own directory. -/
theorem offline_replay_once (directory : String) (baseline : Digest) (s₀ s : Machine)
    (hnone : s₀.replays directory baseline = none)
    (hfresh : s₀.eventsOf directory baseline = [])
    (hrun : Relation.ReflTransGen (OfflineStep directory baseline) s₀ s) :
    s.replayLog.count (.started directory baseline) ≤ 1 ∧
    (∀ later earlier entry packages file,
      s.replayLog = later ++ .selected directory baseline entry packages file :: earlier →
      .started directory baseline ∈ earlier ∧
        ∃ r boot, s.replays directory baseline = some r ∧ r.boot = some boot ∧
          entry = boot.entry ∧ packages = r.expected ∧ file = some boot.sha256) ∧
    (∀ later earlier packages unitLeft linkLeft,
      s.replayLog = later ++ .completed directory baseline packages unitLeft linkLeft :: earlier →
      unitLeft = false ∧ linkLeft = false ∧ .started directory baseline ∈ earlier ∧
        ∃ r, s.replays directory baseline = some r ∧ packages = r.expected ∧
          ∀ boot, r.boot = some boot →
            .selected directory baseline boot.entry r.expected (some boot.sha256) ∈ earlier) ∧
    (∀ r, s.replays directory baseline = some r → r.status = .complete →
      .completed directory baseline r.expected false false ∈ s.replayLog) ∧
    ∀ q : OfflineRequest, s.systemUpdate ≠ .absent → s.systemUpdate ≠ .to q.directory →
      (s.request q).systemUpdate = s.systemUpdate := by
  have hrec := recorded_run (.unstaged hnone hfresh) hrun
  have hmem : ∀ {x : ReplayEvent} {earlier : List ReplayEvent},
      x ∈ earlier.filter (·.isOf directory baseline) → x ∈ earlier :=
    fun hx => (List.mem_filter.mp hx).1
  refine ⟨hrec.count, ?_, ?_, ?_, ?_⟩
  · intro later earlier entry packages file hlog
    obtain ⟨r, reached, before, hr, hdone⟩ :=
      hrec.split hlog (by simp [ReplayEvent.isOf, ReplayEvent.transaction])
    rcases events_cons hdone with ⟨he, _⟩ | ⟨hrest, boot, hboot, he⟩ | ⟨he, _⟩
    · cases he
    · cases he
      exact ⟨hmem (by rw [hrest]; simp), r, boot, hr, hboot, rfl, rfl, rfl⟩
    · cases he
  · intro later earlier packages unitLeft linkLeft hlog
    obtain ⟨r, reached, before, hr, hdone⟩ :=
      hrec.split hlog (by simp [ReplayEvent.isOf, ReplayEvent.transaction])
    rcases events_cons hdone with ⟨he, _⟩ | ⟨_, _, _, he⟩ | ⟨he, hrest⟩
    · cases he
    · cases he
    · cases he
      refine ⟨rfl, rfl, hmem (by rw [hrest]; exact started_mem r), r, hr, rfl, ?_⟩
      intro boot hboot
      apply hmem
      rw [hrest]
      simp [Replay.selectedEvents, hboot]
  · intro r hr hs
    have hdone : s.eventsOf directory baseline = r.events directory baseline .completed := by
      cases hrec with
      | unstaged hr' => rw [hr] at hr'; cases hr'
      | staged _ hr' hs' =>
        rw [hr] at hr'; cases hr'
        rcases hs' with hs' | hs' <;> rw [hs] at hs' <;> cases hs'
      | begun _ _ hr' hs' =>
        rw [hr] at hr'; cases hr'
        rcases hs' with hs' | hs' <;> rw [hs] at hs' <;> cases hs'
      | completed _ hr' _ he =>
        rw [hr] at hr'; cases hr'
        exact he
    have hin : .completed directory baseline r.expected false false ∈
        s.eventsOf directory baseline := by
      rw [hdone]
      simp [Replay.events]
    exact hmem hin
  · intro q habsent hother
    rw [request_link q habsent hother]

def stagedMachine : Machine := sampleMachine.request
  (.stage "/packages" (digest "before") (digest "after") none (goodScript 20))

/-- A transaction that is staged, booted into and replayed. -/
def replayedMachine : Machine :=
  Machine.request { stagedMachine with bootId := "boot-2" }
    (.execute "/packages" (digest "before") (goodScript 20))

theorem offline_replay_once_sample :
    replayedMachine.replayLog.count (.started "/packages" (digest "before")) = 1 ∧
      .completed "/packages" (digest "before") (digest "after") false false ∈
        replayedMachine.replayLog := by
  have hrun : Relation.ReflTransGen (OfflineStep "/packages" (digest "before")) sampleMachine
      replayedMachine :=
    ((Relation.ReflTransGen.single (.request sampleMachine _)).tail
      (.outside stagedMachine { stagedMachine with bootId := "boot-2" } ⟨rfl, rfl⟩)).tail
        (.request _ _)
  have hstatus : (replayedMachine.replays "/packages" (digest "before")).any
      (fun r => r.status = .complete && r.expected = digest "after") = true := by decide +kernel
  obtain ⟨r, hr, hcomplete⟩ := (Option.any_eq_true _ _).mp hstatus
  have hcomplete : r.status = .complete ∧ r.expected = digest "after" := by simpa using hcomplete
  have hdone := (offline_replay_once "/packages" (digest "before") sampleMachine replayedMachine
    rfl rfl hrun).2.2.2.1 r hr hcomplete.1
  rw [hcomplete.2] at hdone
  exact ⟨by decide +kernel, hdone⟩

end Runs

end Hermes

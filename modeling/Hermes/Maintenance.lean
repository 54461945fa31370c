import Mathlib.Data.List.Chain
import Mathlib.Data.List.Nodup
import Mathlib.Logic.Function.Basic

/- Maintenance events (`maintenance.publish`, `notify.deliver`): publishers replace the latest
   event under a lock of theirs, deliverers read it before they take another one, compare it
   with the event marked seen, deliver it and mark it.

   The runs are those of any number of calls, one action of one call after another. What has
   been published, delivered and marked is kept beside the state. A lock that is taken ends the
   call that asks for it; so does a delivery that fails. -/
namespace Hermes.Maintenance

/-- `OUTCOMES` -/
inductive Outcome where
  | completed
  | failed
  | actionRequired
  | deferred
  deriving DecidableEq, Repr

/-- `MESSAGES` -/
def message : Outcome → Option String
  | .completed => some "Hermes certified maintenance completed."
  | .failed => some "Hermes maintenance failed. Review the local deployment status."
  | .actionRequired => some "Hermes maintenance needs operator attention. Review the local deployment status."
  | .deferred => none

/-- An event, but for its id. -/
structure Event where
  outcome : Outcome
  code : Int
  timestamp : Nat
  release : Option String
  deriving DecidableEq, Repr

/-- What `publish` is called with. -/
structure Call where
  outcome : Outcome
  code : Int
  releaseId : Option String
  deriving DecidableEq, Repr

/-- The digests of release ids and of events; those of two events are different. -/
structure Digests (Id : Type) where
  sha256 : String → String
  eventId : Event → Id
  injective : Function.Injective eventId

inductive Publisher where
  | idle
  | locked (call : Call)
  | read (call : Call) (previous : Option Event)
  | leaving
  | ended
  deriving DecidableEq, Repr

inductive Deliverer where
  | idle
  | holding (event : Event)
  | locked (event : Event)
  | sending (event : Event)
  | marking (event : Event)
  | leaving
  | ended
  deriving DecidableEq, Repr

structure World (Id : Type) where
  /-- `latest.json` -/
  latest : Option Event
  /-- `seen` -/
  seen : Option Id
  /-- who holds `.event.lock` -/
  eventLock : Option Nat
  /-- who holds `notify.lock` -/
  notifyLock : Option Nat
  publishers : Nat → Publisher
  deliverers : Nat → Deliverer
  created : List Event
  sent : List (Nat × Event)
  marked : List (Nat × Event)

section Model
variable {Id : Type} [DecidableEq Id]

def World.start : World Id where
  latest := none
  seen := none
  eventLock := none
  notifyLock := none
  publishers _ := .idle
  deliverers _ := .idle
  created := []
  sent := []
  marked := []

def World.publisher (w : World Id) (p : Nat) (phase : Publisher) : World Id :=
  { w with publishers := Function.update w.publishers p phase }

def World.deliverer (w : World Id) (d : Nat) (phase : Deliverer) : World Id :=
  { w with deliverers := Function.update w.deliverers d phase }

def eventOf (D : Digests Id) (call : Call) (now : Nat) : Event where
  outcome := call.outcome
  code := call.code
  timestamp := now
  release := call.releaseId.map D.sha256

/-- Two events of one outcome, code and release -/
def Event.same (e e' : Event) : Prop := e'.outcome = e.outcome ∧ e'.code = e.code ∧ e'.release = e.release

/-- The outcome, code and release are those of the previous event. -/
def isLatest (D : Digests Id) (call : Call) (previous : Option Event) : Bool :=
  previous.any fun e => e.outcome == call.outcome && e.code == call.code && e.release == call.releaseId.map D.sha256

/-! ## Actions -/

/-- `with lock(directory / ".event.lock")`, behind the checks of the arguments -/
def enterPublish (w : World Id) (p : Nat) (call : Call) : Option (World Id) :=
  match w.publishers p with
  | .idle =>
    if 0 ≤ call.code ∧ call.code ≤ 255 ∧ w.eventLock = none then
      some { w.publisher p (.locked call) with eventLock := some p }
    else some (w.publisher p .ended)
  | _ => none

def readLatest (w : World Id) (p : Nat) : Option (World Id) :=
  match w.publishers p with
  | .locked call => some (w.publisher p (.read call w.latest))
  | _ => none

/-- Replace the event, `now` being the clock's reading, unless the same is there. -/
def write (D : Digests Id) (w : World Id) (p now : Nat) : Option (World Id) :=
  match w.publishers p with
  | .read call previous =>
    if isLatest D call previous then some (w.publisher p .leaving)
    else some
      { w.publisher p .leaving with
        latest := some (eventOf D call now), created := w.created ++ [eventOf D call now] }
  | _ => none

def leavePublish (w : World Id) (p : Nat) : Option (World Id) :=
  match w.publishers p with
  | .leaving => some { w.publisher p .ended with eventLock := none }
  | _ => none

/-- Read the event and check it; without one, there is nothing to do. -/
def readEvent (w : World Id) (d : Nat) : Option (World Id) :=
  match w.deliverers d with
  | .idle =>
    match w.latest with
    | some e =>
      if 0 ≤ e.code ∧ e.code ≤ 255 ∧ 0 < e.timestamp then some (w.deliverer d (.holding e))
      else some (w.deliverer d .ended)
    | none => some (w.deliverer d .ended)
  | _ => none

/-- `with lock(state_directory / "notify.lock")` -/
def enter (w : World Id) (d : Nat) : Option (World Id) :=
  match w.deliverers d with
  | .holding e =>
    if w.notifyLock = none then some { w.deliverer d (.locked e) with notifyLock := some d }
    else some (w.deliverer d .ended)
  | _ => none

def compare (D : Digests Id) (w : World Id) (d : Nat) : Option (World Id) :=
  match w.deliverers d with
  | .locked e =>
    if w.seen = some (D.eventId e) then some (w.deliverer d .leaving)
    else if (message e.outcome).isSome then some (w.deliverer d (.sending e))
    else some (w.deliverer d (.marking e))
  | _ => none

/-- `notify-send` -/
def send (w : World Id) (d : Nat) (works : Bool) : Option (World Id) :=
  match w.deliverers d with
  | .sending e =>
    if works then some { w.deliverer d (.marking e) with sent := w.sent ++ [(d, e)] }
    else some (w.deliverer d .leaving)
  | _ => none

/-- `atomic(seen, ...)` -/
def mark (D : Digests Id) (w : World Id) (d : Nat) : Option (World Id) :=
  match w.deliverers d with
  | .marking e => some { w.deliverer d .leaving with seen := some (D.eventId e), marked := w.marked ++ [(d, e)] }
  | _ => none

def leave (w : World Id) (d : Nat) : Option (World Id) :=
  match w.deliverers d with
  | .leaving => some { w.deliverer d .ended with notifyLock := none }
  | _ => none

inductive Action where
  | enterPublish (p : Nat) (call : Call)
  | readLatest (p : Nat)
  | write (p now : Nat)
  | leavePublish (p : Nat)
  | readEvent (d : Nat)
  | enter (d : Nat)
  | compare (d : Nat)
  | send (d : Nat) (works : Bool)
  | mark (d : Nat)
  | leave (d : Nat)
  deriving DecidableEq, Repr

def step (D : Digests Id) (w : World Id) : Action → Option (World Id)
  | .enterPublish p call => enterPublish w p call
  | .readLatest p => readLatest w p
  | .write p now => write D w p now
  | .leavePublish p => leavePublish w p
  | .readEvent d => readEvent w d
  | .enter d => enter w d
  | .compare d => compare D w d
  | .send d works => send w d works
  | .mark d => mark D w d
  | .leave d => leave w d

def run (D : Digests Id) (w : World Id) (actions : List Action) : Option (World Id) := actions.foldlM (step D) w

/-! ## What is claimed of a run -/

/-- Every event is delivered at most once, marked after its own delivery if it needs one, and
    different from the event before it. -/
structure Sound (D : Digests Id) (w : World Id) : Prop where
  once : (w.sent.map fun x => D.eventId x.2).Nodup
  marks : ∀ x ∈ w.marked, x ∈ w.sent ∨ message x.2.outcome = none
  seen : w.seen = w.marked.getLast?.map fun x => D.eventId x.2
  news : w.created.IsChain fun e e' => ¬e.same e'
  latest : w.latest = w.created.getLast?

/-- A new event has not been published before in the same second, and no event published later
    has been marked seen when a deliverer takes the lock with its own. -/
def Orderly (D : Digests Id) (w : World Id) : Action → Prop
  | .write p now => ∀ call previous, w.publishers p = .read call previous →
      isLatest D call previous = true ∨ eventOf D call now ∉ w.created
  | .enter d => ∀ e, w.deliverers d = .holding e → ∀ x ∈ w.marked, w.created.idxOf x.2 ≤ w.created.idxOf e
  | _ => True

/-- The states of orderly runs. -/
inductive Reachable (D : Digests Id) : World Id → Prop where
  | start : Reachable D World.start
  | step {w w' : World Id} {a : Action} : Reachable D w → Orderly D w a → Maintenance.step D w a = some w' →
      Reachable D w'

end Model

/-! ## Publishers -/

section Publishing
variable {Id : Type} {D : Digests Id} {w w' : World Id}

theorem isLatest_iff {call : Call} {previous : Option Event} {now : Nat} :
    isLatest D call previous = true ↔ ∃ e, previous = some e ∧ e.same (eventOf D call now) := by
  rw [isLatest, Option.any_eq_true]
  simp only [Bool.and_eq_true, beq_iff_eq]
  constructor
  · rintro ⟨e, he, ⟨h₁, h₂⟩, h₃⟩
    exact ⟨e, he, h₁.symm, h₂.symm, h₃.symm⟩
  · rintro ⟨e, he, h₁, h₂, h₃⟩
    exact ⟨e, he, ⟨h₁.symm, h₂.symm⟩, h₃.symm⟩

/-- What a publisher in this phase can rely on. -/
def Publisher.Ok (w : World Id) (p : Nat) : Publisher → Prop
  | .locked _ => w.eventLock = some p
  | .read _ previous => w.eventLock = some p ∧ previous = w.latest
  | .leaving => w.eventLock = some p
  | _ => True

structure Publishing (w : World Id) : Prop where
  phases : ∀ p, (w.publishers p).Ok w p
  latest : w.latest = w.created.getLast?
  news : w.created.IsChain fun e e' => ¬e.same e'
  nodup : w.created.Nodup

/-- A publisher without the lock does not depend on what the others do. -/
theorem Publisher.Ok.other {p : Nat} {phase : Publisher} (hlock : w.eventLock ≠ some p) (h : phase.Ok w p) :
    phase.Ok w' p := by
  cases phase with
  | idle => trivial
  | locked call => exact absurd h hlock
  | read call previous => exact absurd h.1 hlock
  | leaving => exact absurd h hlock
  | ended => trivial

theorem Publisher.Ok.same {p : Nat} {phase : Publisher} (hlock : w'.eventLock = w.eventLock)
    (hlatest : w'.latest = w.latest) (h : phase.Ok w p) : phase.Ok w' p := by
  cases phase with
  | idle => trivial
  | locked call => exact hlock.trans h
  | read call previous => exact ⟨hlock.trans h.1, h.2.trans hlatest.symm⟩
  | leaving => exact hlock.trans h
  | ended => trivial

/-- The phases after an action of one publisher. -/
theorem phases_update {p : Nat} {phase : Publisher} (h : ∀ q, (w.publishers q).Ok w q)
    (hw : w'.publishers = Function.update w.publishers p phase) (hp : phase.Ok w' p)
    (hothers : ∀ q, q ≠ p → (w.publishers q).Ok w q → (w.publishers q).Ok w' q) : ∀ q, (w'.publishers q).Ok w' q := by
  intro q
  rw [hw]
  by_cases hq : q = p
  · rw [hq, Function.update_self]
    exact hp
  · rw [Function.update_of_ne hq]
    exact hothers q hq (h q)

theorem Publishing.enterPublish {p : Nat} {call : Call} (h : Publishing w)
    (hstep : Maintenance.enterPublish w p call = some w') : Publishing w' := by
  rw [Maintenance.enterPublish] at hstep
  split at hstep
  · split at hstep
    · next hfree =>
      cases hstep
      refine ⟨phases_update h.phases rfl rfl fun q _ hq => hq.other ?_, h.latest, h.news, h.nodup⟩
      rw [hfree.2.2]
      nofun
    · cases hstep
      exact ⟨phases_update h.phases rfl trivial fun q _ hq => hq.same rfl rfl, h.latest, h.news, h.nodup⟩
  · cases hstep

theorem Publishing.readLatest {p : Nat} (h : Publishing w) (hstep : Maintenance.readLatest w p = some w') :
    Publishing w' := by
  rw [Maintenance.readLatest] at hstep
  split at hstep
  · next call hp =>
    cases hstep
    have hlock : (Publisher.locked call).Ok w p := hp ▸ h.phases p
    exact ⟨phases_update h.phases rfl ⟨hlock, rfl⟩ fun q _ hq => hq.same rfl rfl, h.latest, h.news, h.nodup⟩
  · cases hstep

/-- The previous event is still the latest one when it is replaced. -/
theorem Publishing.write {p now : Nat} (h : Publishing w) (horderly : Orderly D w (.write p now))
    (hstep : Maintenance.write D w p now = some w') : Publishing w' := by
  rw [Maintenance.write] at hstep
  split at hstep
  · next call previous hp =>
    have hread : (Publisher.read call previous).Ok w p := hp ▸ h.phases p
    have hothers : ∀ q, q ≠ p → w.eventLock ≠ some q := by
      intro q hq hlock
      exact hq (Option.some.inj (hlock.symm.trans hread.1))
    split at hstep
    · cases hstep
      exact ⟨phases_update h.phases rfl hread.1 fun q _ hq => hq.same rfl rfl, h.latest, h.news, h.nodup⟩
    · next hnew =>
      cases hstep
      refine ⟨phases_update h.phases rfl hread.1 fun q hne hq => hq.other (hothers q hne), ?_, ?_, ?_⟩
      · exact (List.getLast?_concat).symm
      · refine h.news.append (List.isChain_singleton _) fun e he e' he' hsame => hnew ?_
        cases he'
        rw [isLatest_iff, hread.2, h.latest]
        exact ⟨e, he, hsame⟩
      · have hfresh := (horderly call previous hp).resolve_left hnew
        exact List.nodup_append.mpr ⟨h.nodup, by simp, fun e he e' he' heq =>
          hfresh (by rw [← List.mem_singleton.mp he', ← heq]; exact he)⟩
  · cases hstep

theorem Publishing.leavePublish {p : Nat} (h : Publishing w) (hstep : Maintenance.leavePublish w p = some w') :
    Publishing w' := by
  rw [Maintenance.leavePublish] at hstep
  split at hstep
  · next hp =>
    cases hstep
    have hlock : Publisher.leaving.Ok w p := hp ▸ h.phases p
    refine ⟨phases_update h.phases rfl trivial fun q hne hq => hq.other fun hq => ?_, h.latest, h.news, h.nodup⟩
    exact hne (Option.some.inj (hq.symm.trans hlock))
  · cases hstep

end Publishing

/-! ## Deliverers -/

section Delivering
variable {Id : Type} {D : Digests Id} {w w' : World Id}

/-- The event, published, and no older than any that has been marked. -/
structure Current (w : World Id) (e : Event) : Prop where
  created : e ∈ w.created
  newest : ∀ x ∈ w.marked, w.created.idxOf x.2 ≤ w.created.idxOf e

/-- What a deliverer in this phase can rely on. -/
def Deliverer.Ok (D : Digests Id) (w : World Id) (d : Nat) : Deliverer → Prop
  | .holding e => e ∈ w.created
  | .locked e => w.notifyLock = some d ∧ Current w e
  | .sending e => w.notifyLock = some d ∧ Current w e ∧ w.seen ≠ some (D.eventId e)
  | .marking e => w.notifyLock = some d ∧ Current w e ∧ ((d, e) ∈ w.sent ∨ message e.outcome = none)
  | .leaving => w.notifyLock = some d
  | _ => True

/-- What has been delivered is marked, or is about to be by the one that has the lock. -/
structure Delivering (D : Digests Id) (w : World Id) : Prop where
  phases : ∀ d, (w.deliverers d).Ok D w d
  created : ∀ x ∈ w.marked, x.2 ∈ w.created
  last : ∀ x ∈ w.marked, ∀ y ∈ w.marked.getLast?, w.created.idxOf x.2 ≤ w.created.idxOf y.2
  seen : w.seen = w.marked.getLast?.map fun x => D.eventId x.2
  marks : ∀ x ∈ w.marked, x ∈ w.sent ∨ message x.2.outcome = none
  sent : ∀ x ∈ w.sent, x ∈ w.marked ∨ w.deliverers x.1 = .marking x.2
  once : (w.sent.map Prod.snd).Nodup

/-- A deliverer without the lock depends on nothing but its event. -/
theorem Deliverer.Ok.other {d : Nat} {phase : Deliverer} (hlock : w.notifyLock ≠ some d)
    (hcreated : w'.created = w.created) (h : phase.Ok D w d) : phase.Ok D w' d := by
  cases phase with
  | idle => trivial
  | holding e =>
    have he : e ∈ w'.created := hcreated ▸ h
    exact he
  | locked e => exact absurd h.1 hlock
  | sending e => exact absurd h.1 hlock
  | marking e => exact absurd h.1 hlock
  | leaving => exact absurd h hlock
  | ended => trivial

/-- A new event makes no difference to those that are there. -/
theorem Current.append {e : Event} {more : List Event} (h : Current w e) (hmarked : ∀ x ∈ w.marked, x.2 ∈ w.created)
    (hw : w'.created = w.created ++ more) (hm : w'.marked = w.marked) : Current w' e := by
  constructor
  · rw [hw]
    exact List.mem_append_left _ h.created
  · intro x hx
    rw [hm] at hx
    rw [hw, List.idxOf_append_of_mem (hmarked x hx), List.idxOf_append_of_mem h.created]
    exact h.newest x hx

theorem Deliverer.Ok.append {d : Nat} {phase : Deliverer} {more : List Event}
    (hmarked : ∀ x ∈ w.marked, x.2 ∈ w.created) (hw : w'.created = w.created ++ more)
    (hm : w'.marked = w.marked) (hs : w'.seen = w.seen) (hsent : w'.sent = w.sent)
    (hlock : w'.notifyLock = w.notifyLock) (h : phase.Ok D w d) : phase.Ok D w' d := by
  cases phase with
  | idle => trivial
  | holding e =>
    have he : e ∈ w'.created := by
      rw [hw]
      exact List.mem_append_left _ h
    exact he
  | locked e => exact ⟨hlock.trans h.1, h.2.append hmarked hw hm⟩
  | sending e => exact ⟨hlock.trans h.1, h.2.1.append hmarked hw hm, by rw [hs]; exact h.2.2⟩
  | marking e => exact ⟨hlock.trans h.1, h.2.1.append hmarked hw hm, by rw [hsent]; exact h.2.2⟩
  | leaving => exact hlock.trans h
  | ended => trivial

/-- Publishers make no difference to deliveries. -/
theorem Delivering.append {more : List Event} (h : Delivering D w) (hw : w'.created = w.created ++ more)
    (hm : w'.marked = w.marked) (hs : w'.seen = w.seen) (hsent : w'.sent = w.sent)
    (hlock : w'.notifyLock = w.notifyLock) (hd : w'.deliverers = w.deliverers) : Delivering D w' where
  phases d := by
    rw [hd]
    exact (h.phases d).append h.created hw hm hs hsent hlock
  created x hx := by
    rw [hm] at hx
    rw [hw]
    exact List.mem_append_left _ (h.created x hx)
  last x hx y hy := by
    rw [hm] at hx hy
    rw [hw, List.idxOf_append_of_mem (h.created x hx), List.idxOf_append_of_mem (h.created y (List.mem_of_getLast? hy))]
    exact h.last x hx y hy
  seen := by rw [hs, hm, h.seen]
  marks x hx := by
    rw [hm] at hx
    rw [hsent]
    exact h.marks x hx
  sent x hx := by
    rw [hsent] at hx
    rw [hm, hd]
    exact h.sent x hx
  once := by
    rw [hsent]
    exact h.once

theorem delivererPhases_update {d : Nat} {phase : Deliverer} (h : ∀ c, (w.deliverers c).Ok D w c)
    (hw : w'.deliverers = Function.update w.deliverers d phase) (hd : phase.Ok D w' d)
    (hothers : ∀ c, c ≠ d → (w.deliverers c).Ok D w c → (w.deliverers c).Ok D w' c) :
    ∀ c, (w'.deliverers c).Ok D w' c := by
  intro c
  rw [hw]
  by_cases hc : c = d
  · rw [hc, Function.update_self]
    exact hd
  · rw [Function.update_of_ne hc]
    exact hothers c hc (h c)

/-- An action that changes nothing but the phase of a deliverer, and the lock. -/
theorem Delivering.move {d : Nat} {phase : Deliverer} {lock : Option Nat} (h : Delivering D w)
    (hnot : ∀ e, w.deliverers d ≠ .marking e) (hd : phase.Ok D { w.deliverer d phase with notifyLock := lock } d)
    (hothers : ∀ c, c ≠ d → w.notifyLock = lock ∨ w.notifyLock ≠ some c) :
    Delivering D { w.deliverer d phase with notifyLock := lock } where
  phases := by
    refine delivererPhases_update h.phases rfl hd fun c hc hok => ?_
    rcases hothers c hc with hlock | hlock
    · exact hok.append h.created (List.append_nil _).symm rfl rfl rfl hlock.symm
    · exact hok.other hlock rfl
  created := h.created
  last := h.last
  seen := h.seen
  marks := h.marks
  sent x hx := by
    rcases h.sent x hx with hmarked | hmarking
    · exact Or.inl hmarked
    · have hne : x.1 ≠ d := fun (heq : x.1 = d) => hnot x.2 (heq ▸ hmarking)
      exact Or.inr ((Function.update_of_ne hne _ _).trans hmarking)
  once := h.once

/-- The deliverer has the lock, so no other one has. -/
theorem only_holder {d c : Nat} (hlock : w.notifyLock = some d) (hc : c ≠ d) : w.notifyLock ≠ some c := by
  rw [hlock]
  intro heq
  exact hc (Option.some.inj heq).symm

theorem Delivering.readEvent {d : Nat} (h : Delivering D w) (hlatest : w.latest = w.created.getLast?)
    (hstep : Maintenance.readEvent w d = some w') : Delivering D w' := by
  rw [Maintenance.readEvent] at hstep
  split at hstep
  · next hd =>
    have hnot : ∀ e, w.deliverers d ≠ .marking e := by
      rw [hd]
      nofun
    split at hstep
    · next e he =>
      split at hstep
      · cases hstep
        have hmem : e ∈ w.created := List.mem_of_getLast? (hlatest ▸ he)
        exact h.move hnot hmem fun c _ => Or.inl rfl
      · cases hstep
        exact h.move hnot trivial fun c _ => Or.inl rfl
    · cases hstep
      exact h.move hnot trivial fun c _ => Or.inl rfl
  · cases hstep

theorem Delivering.enter {d : Nat} (h : Delivering D w) (horderly : Orderly D w (.enter d))
    (hstep : Maintenance.enter w d = some w') : Delivering D w' := by
  rw [Maintenance.enter] at hstep
  split at hstep
  · next e hd =>
    have hnot : ∀ e, w.deliverers d ≠ .marking e := by
      rw [hd]
      nofun
    have hmem : (Deliverer.holding e).Ok D w d := hd ▸ h.phases d
    split at hstep
    · next hfree =>
      cases hstep
      refine h.move hnot ⟨rfl, hmem, horderly e hd⟩ fun c _ => Or.inr ?_
      rw [hfree]
      nofun
    · cases hstep
      exact h.move hnot trivial fun c _ => Or.inl rfl
  · cases hstep

theorem Delivering.compare [DecidableEq Id] {d : Nat} (h : Delivering D w)
    (hstep : Maintenance.compare D w d = some w') : Delivering D w' := by
  rw [Maintenance.compare] at hstep
  split at hstep
  · next e hd =>
    have hnot : ∀ e, w.deliverers d ≠ .marking e := by
      rw [hd]
      nofun
    have hlocked : (Deliverer.locked e).Ok D w d := hd ▸ h.phases d
    split at hstep
    · cases hstep
      exact h.move hnot hlocked.1 fun c _ => Or.inl rfl
    · next hseen =>
      split at hstep
      · cases hstep
        exact h.move hnot ⟨hlocked.1, ⟨hlocked.2.created, hlocked.2.newest⟩, hseen⟩ fun c _ => Or.inl rfl
      · next hmessage =>
        cases hstep
        have hnone : message e.outcome = none := by simpa using hmessage
        exact h.move hnot ⟨hlocked.1, ⟨hlocked.2.created, hlocked.2.newest⟩, Or.inr hnone⟩ fun c _ => Or.inl rfl
  · cases hstep

/-- What is about to be delivered has not been delivered yet: all that has been is marked, since
    nobody else has the lock, and the newest that is marked is no newer and is not this one. -/
theorem Delivering.fresh {d : Nat} {e : Event} (h : Delivering D w) (hd : w.deliverers d = .sending e) :
    ∀ x ∈ w.sent, x.2 ≠ e := by
  intro x hx heq
  have hsending : (Deliverer.sending e).Ok D w d := hd ▸ h.phases d
  obtain ⟨hlock, hcurrent, hseen⟩ := hsending
  rcases h.sent x hx with hmarked | hmarking
  · obtain ⟨y, hy⟩ : ∃ y, w.marked.getLast? = some y :=
      ⟨_, List.getLast?_eq_some_getLast (List.ne_nil_of_mem hmarked)⟩
    have hle : w.created.idxOf e ≤ w.created.idxOf y.2 := heq ▸ h.last x hmarked y hy
    have hge := hcurrent.newest y (List.mem_of_getLast? hy)
    have hye : y.2 = e := (List.idxOf_inj (h.created y (List.mem_of_getLast? hy))).mp (by omega)
    apply hseen
    rw [h.seen, hy, Option.map_some, hye]
  · have hother : (Deliverer.marking x.2).Ok D w x.1 := hmarking ▸ h.phases x.1
    have hxd : x.1 = d := Option.some.inj (hother.1.symm.trans hlock)
    rw [hxd, hd] at hmarking
    cases hmarking

theorem Delivering.send {d : Nat} {works : Bool} (h : Delivering D w)
    (hstep : Maintenance.send w d works = some w') : Delivering D w' := by
  rw [Maintenance.send] at hstep
  split at hstep
  · next e hd =>
    have hsending : (Deliverer.sending e).Ok D w d := hd ▸ h.phases d
    split at hstep
    · cases hstep
      constructor
      · refine delivererPhases_update h.phases rfl ?_ fun c hc hok => hok.other (only_holder hsending.1 hc) rfl
        exact ⟨hsending.1, ⟨hsending.2.1.created, hsending.2.1.newest⟩, Or.inl (by simp)⟩
      · exact h.created
      · exact h.last
      · exact h.seen
      · exact fun x hx => (h.marks x hx).imp_left fun hsent => List.mem_append_left _ hsent
      · intro x hx
        rcases List.mem_append.mp hx with hx | hx
        · rcases h.sent x hx with hmarked | hmarking
          · exact Or.inl hmarked
          · have hne : x.1 ≠ d := by
              intro heq
              rw [heq, hd] at hmarking
              cases hmarking
            exact Or.inr ((Function.update_of_ne hne _ _).trans hmarking)
        · rw [List.mem_singleton.mp hx]
          exact Or.inr (Function.update_self _ _ _)
      · have hsent : (w.sent ++ [(d, e)]).map Prod.snd = w.sent.map Prod.snd ++ [e] := by simp
        have hnodup : (w.sent.map Prod.snd ++ [e]).Nodup := by
          refine List.nodup_append.mpr ⟨h.once, by simp, fun e' he' e'' he'' heq => ?_⟩
          obtain ⟨x, hx, rfl⟩ := List.mem_map.mp he'
          exact h.fresh hd x hx (heq.trans (List.mem_singleton.mp he''))
        exact hsent ▸ hnodup
    · cases hstep
      refine h.move ?_ hsending.1 fun c _ => Or.inl rfl
      rw [hd]
      nofun
  · cases hstep

theorem Delivering.mark {d : Nat} (h : Delivering D w) (hstep : Maintenance.mark D w d = some w') :
    Delivering D w' := by
  rw [Maintenance.mark] at hstep
  split at hstep
  · next e hd =>
    cases hstep
    have hmarking : (Deliverer.marking e).Ok D w d := hd ▸ h.phases d
    obtain ⟨hlock, hcurrent, hown⟩ := hmarking
    constructor
    · exact delivererPhases_update h.phases rfl hlock fun c hc hok => hok.other (only_holder hlock hc) rfl
    · intro x hx
      rcases List.mem_append.mp hx with hx | hx
      · exact h.created x hx
      · rw [List.mem_singleton.mp hx]
        exact hcurrent.created
    · intro x hx y hy
      have hye : y = (d, e) := by
        have hlast : (w.marked ++ [(d, e)]).getLast? = some (d, e) := List.getLast?_concat
        exact Option.some.inj (hy.symm.trans hlast)
      rw [hye]
      rcases List.mem_append.mp hx with hx | hx
      · exact hcurrent.newest x hx
      · rw [List.mem_singleton.mp hx]
    · have hlast : (w.marked ++ [(d, e)]).getLast? = some (d, e) := List.getLast?_concat
      exact (congrArg (Option.map fun x => D.eventId x.2) hlast).symm
    · intro x hx
      rcases List.mem_append.mp hx with hx | hx
      · exact h.marks x hx
      · rw [List.mem_singleton.mp hx]
        exact hown
    · intro x hx
      rcases h.sent x hx with hmarked | hother
      · exact Or.inl (List.mem_append_left _ hmarked)
      · by_cases hxd : x.1 = d
        · -- its own delivery, which is marked now
          rw [hxd, hd] at hother
          have hxe : x = (d, e) := Prod.ext hxd (Deliverer.marking.inj hother).symm
          exact Or.inl (List.mem_append_right _ (List.mem_singleton.mpr hxe))
        · exact Or.inr ((Function.update_of_ne hxd _ _).trans hother)
    · exact h.once
  · cases hstep

theorem Delivering.leave {d : Nat} (h : Delivering D w) (hstep : Maintenance.leave w d = some w') :
    Delivering D w' := by
  rw [Maintenance.leave] at hstep
  split at hstep
  · next hd =>
    cases hstep
    have hleaving : Deliverer.leaving.Ok D w d := hd ▸ h.phases d
    refine h.move ?_ trivial fun c hc => Or.inr (only_holder hleaving hc)
    rw [hd]
    nofun
  · cases hstep

end Delivering

/-! ## Runs -/

section Runs
variable {Id : Type} [DecidableEq Id] {D : Digests Id} {w w' : World Id}

/-- An action of a publisher. -/
def Action.publishes : Action → Bool
  | .enterPublish _ _ | .readLatest _ | .write _ _ | .leavePublish _ => true
  | _ => false

/-- Publishers do nothing to the deliverers' part of the state, and only add events. -/
theorem publish_frame {a : Action} (ha : a.publishes = true) (h : step D w a = some w') :
    (∃ more, w'.created = w.created ++ more) ∧ w'.marked = w.marked ∧ w'.seen = w.seen ∧ w'.sent = w.sent ∧
      w'.notifyLock = w.notifyLock ∧ w'.deliverers = w.deliverers := by
  have hnone : ∃ more, w.created = w.created ++ more := ⟨[], (List.append_nil _).symm⟩
  cases a with
  | enterPublish p call =>
    simp only [step, Maintenance.enterPublish] at h
    repeat' split at h
    all_goals
      cases h
      try exact ⟨hnone, rfl, rfl, rfl, rfl, rfl⟩
  | readLatest p =>
    simp only [step, Maintenance.readLatest] at h
    split at h
    all_goals
      cases h
      try exact ⟨hnone, rfl, rfl, rfl, rfl, rfl⟩
  | write p now =>
    simp only [step, Maintenance.write] at h
    split at h
    · split at h
      · cases h
        exact ⟨hnone, rfl, rfl, rfl, rfl, rfl⟩
      · cases h
        exact ⟨⟨_, rfl⟩, rfl, rfl, rfl, rfl, rfl⟩
    · cases h
  | leavePublish p =>
    simp only [step, Maintenance.leavePublish] at h
    split at h
    all_goals
      cases h
      try exact ⟨hnone, rfl, rfl, rfl, rfl, rfl⟩
  | readEvent | enter | compare | send | mark | leave => cases ha

/-- Deliverers do nothing to the publishers' part of the state. -/
theorem deliver_frame {a : Action} (ha : a.publishes = false) (h : step D w a = some w') :
    w'.eventLock = w.eventLock ∧ w'.latest = w.latest ∧ w'.publishers = w.publishers ∧ w'.created = w.created := by
  cases a with
  | enterPublish | readLatest | write | leavePublish => cases ha
  | readEvent | enter | compare | send | mark | leave =>
    simp only [step, Maintenance.readEvent, Maintenance.enter, Maintenance.compare, Maintenance.send,
      Maintenance.mark, Maintenance.leave] at h
    repeat' split at h
    all_goals
      cases h
      try exact ⟨rfl, rfl, rfl, rfl⟩

/-- One action. -/
theorem step_invariant {a : Action} (hp : Publishing w) (hd : Delivering D w) (horderly : Orderly D w a)
    (hstep : Maintenance.step D w a = some w') : Publishing w' ∧ Delivering D w' := by
  cases ha : a.publishes with
  | true =>
    obtain ⟨⟨more, hcreated⟩, hmarked, hseen, hsent, hlock, hdeliverers⟩ := publish_frame ha hstep
    refine ⟨?_, hd.append hcreated hmarked hseen hsent hlock hdeliverers⟩
    cases a with
    | enterPublish p call => exact hp.enterPublish hstep
    | readLatest p => exact hp.readLatest hstep
    | write p now => exact hp.write horderly hstep
    | leavePublish p => exact hp.leavePublish hstep
    | readEvent | enter | compare | send | mark | leave => cases ha
  | false =>
    obtain ⟨hlock, hlatest, hpublishers, hcreated⟩ := deliver_frame ha hstep
    constructor
    · refine ⟨fun p => ?_, ?_, hcreated ▸ hp.news, hcreated ▸ hp.nodup⟩
      · rw [hpublishers]
        exact (hp.phases p).same hlock hlatest
      · rw [hlatest, hcreated, hp.latest]
    · cases a with
      | enterPublish | readLatest | write | leavePublish => cases ha
      | readEvent d => exact hd.readEvent hp.latest hstep
      | enter d => exact hd.enter horderly hstep
      | compare d => exact hd.compare hstep
      | send d works => exact hd.send hstep
      | mark d => exact hd.mark hstep
      | leave d => exact hd.leave hstep

theorem reachable_invariant (h : Reachable D w) : Publishing w ∧ Delivering D w := by
  induction h with
  | start => exact ⟨⟨fun _ => trivial, rfl, List.isChain_nil, List.nodup_nil⟩,
      ⟨fun _ => trivial, nofun, nofun, rfl, nofun, nofun, List.nodup_nil⟩⟩
  | step _ horderly hstep ih => exact step_invariant ih.1 ih.2 horderly hstep

/-- **Every event of an orderly run is delivered at most once.** -/
theorem delivered_once (h : Reachable D w) : Sound D w := by
  obtain ⟨hp, hd⟩ := reachable_invariant h
  refine ⟨?_, hd.marks, hd.seen, hp.news, hp.latest⟩
  have hmap : (w.sent.map fun x => D.eventId x.2) = (w.sent.map Prod.snd).map D.eventId := by
    rw [List.map_map]
    rfl
  rw [hmap]
  exact hd.once.map D.injective

end Runs

/-! ## Samples -/

/-- Events as their own ids. -/
def sampleDigests : Digests Event where
  sha256 s := s
  eventId e := e
  injective := fun _ _ h => h

/-- A call of `publish`, from its beginning to its end. -/
def publishing (p : Nat) (outcome : Outcome) (code : Int) (now : Nat) : List Action :=
  [.enterPublish p ⟨outcome, code, none⟩, .readLatest p, .write p now, .leavePublish p]

/-- A call of `deliver` behind the reading of the event. -/
def delivering (d : Nat) : List Action := [.enter d, .compare d, .send d true, .mark d, .leave d]

/-- An event is published and delivered. -/
theorem delivered_once_sample : ∃ w,
    run sampleDigests World.start (publishing 0 .completed 0 10 ++ .readEvent 0 :: delivering 0) = some w ∧
      w.sent = [(0, ⟨.completed, 0, 10, none⟩)] ∧ Sound sampleDigests w := by
  have entered := Reachable.start.step (D := sampleDigests) (a := .enterPublish 0 ⟨.completed, 0, none⟩) trivial rfl
  have read := entered.step (a := .readLatest 0) trivial rfl
  have written := read.step (a := .write 0 10) (fun call previous _ => Or.inr List.not_mem_nil) rfl
  have published := written.step (a := .leavePublish 0) trivial rfl
  have held := published.step (a := .readEvent 0) trivial rfl
  have locked := held.step (a := .enter 0) (fun e _ x hx => by cases hx) rfl
  have compared := locked.step (a := .compare 0) trivial rfl
  have sent := compared.step (a := .send 0 true) trivial rfl
  have marked := sent.step (a := .mark 0) trivial rfl
  exact ⟨_, rfl, rfl, delivered_once (marked.step (a := .leave 0) trivial rfl)⟩

/-- The first deliverer reads the first event, and is overtaken by two others and a publisher. -/
def overtaken : List Action :=
  publishing 0 .completed 0 10 ++ [.readEvent 0, .readEvent 1] ++ delivering 1 ++
    publishing 1 .failed 78 20 ++ [.readEvent 2] ++ delivering 2 ++ delivering 0

/-- The first event is published again in the same second, after another one. -/
def sameSecond : List Action :=
  publishing 0 .completed 0 10 ++ .readEvent 0 :: delivering 0 ++
    publishing 1 .failed 78 10 ++ .readEvent 1 :: delivering 1 ++
    publishing 2 .completed 0 10 ++ .readEvent 2 :: delivering 2

theorem delivered_twice :
    (∃ w, run sampleDigests World.start overtaken = some w ∧ ¬Sound sampleDigests w) ∧
      ∃ w, run sampleDigests World.start sameSecond = some w ∧ ¬Sound sampleDigests w := by
  have twice : ∀ actions, (run sampleDigests World.start actions).any (fun w =>
      !decide (w.sent.map fun x => sampleDigests.eventId x.2).Nodup) = true →
      ∃ w, run sampleDigests World.start actions = some w ∧ ¬Sound sampleDigests w := by
    intro actions h
    obtain ⟨w, hw, htwice⟩ := (Option.any_eq_true _ _).mp h
    exact ⟨w, hw, fun hsound => by simp [hsound.once] at htwice⟩
  exact ⟨twice overtaken (by decide +kernel), twice sameSecond (by decide +kernel)⟩

end Hermes.Maintenance

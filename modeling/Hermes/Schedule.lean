import Hermes.Common
import Hermes.Library.History

/- `schedule.py`: a candidate is frozen, and certified once, in a maintenance window or
   one that an operator granted. The journal (`schedule.json`) goes from `preparing` to
   `prepared`, and is moved to `certifying` before the certifier is started.

   The candidate directory can change between two invocations in any way, and so can the
   certifier's own state. The log says which invocation did what. -/
namespace Hermes.Schedule
open Process

/-- The candidate directory: `candidate.json`, and the files beside it. -/
structure Directory where
  manifest : String
  files : List (String × String)
  deriving DecidableEq, Repr

inductive Stage where
  | preparing
  | prepared
  | certifying
  | complete
  | failed
  deriving DecidableEq, Repr

/-- `candidate_sha256` and `artifact_fingerprint`. -/
structure Frozen where
  sha256 : Digest
  fingerprint : String
  deriving DecidableEq, Repr

/-- `schedule.json` -/
structure Journal where
  binding : String
  stage : Stage := .preparing
  frozen : Option Frozen := none
  failure : Option String := none
  cleanupFailure : Option String := none
  grant : Option Digest := none
  deriving DecidableEq, Repr

/-- What `certify.py` prints last. -/
structure Report where
  stage : Option String
  runId : Option String
  fingerprint : Option String
  releaseSigned : Option Json

inductive Event where
  | called
  /-- the journal was written -/
  | saved (stage : Stage) (frozen : Option Frozen)
  /-- the certifier was started on the candidate as it was then -/
  | started (candidate : Option Directory)
  /-- it reported success -/
  | reported (r : Report)
  /-- the candidate was found to be the frozen one -/
  | rechecked (candidate : Option Directory)
  /-- the credentials were cleaned up -/
  | cleaned

/-- What stands at a path; `link` leads nowhere. -/
inductive Presence where
  | absent
  | present
  | link
  deriving DecidableEq, Repr

structure World where
  /-- `schedule.json` -/
  journal : Option Journal
  /-- a link that leads nowhere stands in the place of `schedule.json` -/
  journalLink : Bool
  candidate : Option Directory
  /-- the certifier's `state.json` -/
  certifierState : Presence
  /-- the variable `journal` of the invocation -/
  state : Journal
  log : List Event

def World.add (w : World) (e : Event) : World := { w with log := e :: w.log }

/-- The state after `atomic(path, canonical(journal))`. -/
def World.write (w : World) : World :=
  { w with journal := some w.state, log := .saved w.state.stage w.state.frozen :: w.log }

/-- A state directory without a journal. -/
def World.empty : World := ⟨none, false, none, .absent, { binding := "" }, []⟩

abbrev Cmd := Task World

def note (e : World → Event) : Cmd Unit := Proc.update (fun w => w.add (e w))

/-- `journal.update(...)` and `atomic(path, canonical(journal))` -/
def save (f : Journal → Journal) : Cmd Unit := do
  Proc.update (fun w => { w with state := f w.state })
  atomic (fun _ w => w.write)

/-- What the modelled code takes from elsewhere: `decode`, what `prepare.prepare` puts into
    the candidate directory, the fingerprint of a directory that `certify.candidate`
    accepts, and the hexadecimal form of a digest. -/
structure Setting where
  decode : String → Option Json
  prepared : Moment → Directory
  inspect : Directory → Option String
  hex : Digest → String
  /-- `binding(policy, config)` -/
  identity : String
  /-- `config['run_id']` -/
  runId : String
  /-- the lab domain and target of `config` -/
  fixedLab : Bool

section
variable (x : Setting)

/-- `decode(raw)` -/
def decodeText (text : String) : Cmd Json :=
  match x.decode text with
  | some value => pure value
  | none => fail 64 "invalid-json"

/-- `certify.candidate`: the candidate directory and its fingerprint. -/
def candidate : Cmd (Directory × String) := do
  let found ← peek (·.candidate)
  match found with
  | none => Proc.raise .osError
  | some d =>
    match x.inspect d with
    | none => fail 78 "frozen-candidate-changed"
    | some fingerprint => pure (d, fingerprint)

/-- `child`: what a run of `certify.py` reports. It leaves the certifier's state behind. -/
def child : Cmd Json := do
  let text ← run (fun _ => true) (fun _ w => { w with certifierState := .present }) (fun m _ => m.text)
  let result ← decodeText x text
  require (result.isTrue "ok") "invalid-certifier-result"
  pure result

/-- `cleanup` -/
def cleanup : Cmd Unit := do
  let state ← peek (·.certifierState)
  match state with
  | .link => fail 78 "unsafe-certifier-state"
  | .absent => note (fun _ => .cleaned)
  | .present =>
    let result ← child x
    require (result.getStr "stage" == some "no-credential-issued" ||
      result.getStr "stage" == some "credential-cleanup-complete") "incomplete-certifier-cleanup"
    note (fun _ => .cleaned)

/-- `frozen(config, journal)` -/
def frozen : Cmd Unit := do
  let (d, fingerprint) ← candidate x
  let w ← Proc.read
  match w.state.frozen with
  | none => Proc.raise .keyError
  | some f =>
    require (decide (digest d.manifest = f.sha256) && fingerprint == f.fingerprint)
      "scheduled-candidate-changed"

def grantKeys : List String :=
  ["schema", "binding", "run_id", "candidate_sha256", "issued_at", "expires_at"]

/-- The times of a grant that is open at `now`. -/
def grantOpen (now : Int) (grant : Json) : Bool :=
  match grant.get "issued_at", grant.get "expires_at" with
  | some (.int issued), some (.int expires) =>
    decide (issued ≤ now) && decide (now < expires) && decide (0 < expires - issued) &&
      decide (expires - issued ≤ 4 * 3600)
  | _, _ => false

/-- `window_open` with a grant. -/
def grantedWindow : Cmd Unit := do
  let m ← query (fun _ => true) (fun m _ => m)
  let grant ← decodeText x m.text
  require (grant.hasKeys grantKeys && grant.getStr "schema" == some "hermes-lab-window-v1")
    "invalid-lab-window-grant"
  require x.fixedLab "window-grant-requires-fixed-lab"
  require (grantOpen m.now grant) "expired-or-invalid-lab-window"
  let found ← peek (·.candidate)
  require (grant.getStr "binding" == some x.identity && grant.getStr "run_id" == some x.runId &&
    (grant.getStr "candidate_sha256").isSome &&
    grant.getStr "candidate_sha256" == found.map (fun d => x.hex (digest d.manifest)))
    "lab-window-binding-mismatch"
  let prepared ← peek (·.journal.isSome)
  require prepared "lab-window-needs-prepared-run"

/-- `window_open` -/
def windowOpen (granted : Bool) : Cmd Bool := do
  if granted then
    grantedWindow x
    pure true
  else
    query (fun _ => true) (fun m _ => m.maintenanceOpen)

/-- `prepare.prepare`, and the digest and the fingerprint of what it made. -/
def freeze : Cmd Unit := do
  run (fun _ => true) (fun m w => { w with candidate := some (x.prepared m) }) (fun _ _ => ())
  let (d, fingerprint) ← candidate x
  save (fun j => { j with stage := .prepared, frozen := some ⟨digest d.manifest, fingerprint⟩ })

/-- A first invocation: the candidate is prepared. -/
def prepareCandidate : Cmd Unit := do
  let linked ← peek (·.journalLink)
  require (!linked) "unsafe-schedule-state"
  let occupied ← peek (·.candidate.isSome)
  require (!occupied) "candidate-destination-exists"
  let state ← peek (·.certifierState)
  require (state != .present) "certification-run-already-started"
  peek (fun _ => ())  -- `owned_path` of the candidate's parent
  Proc.update (fun w => { w with state := { binding := x.identity } })
  atomic (fun _ w => w.write)
  let failure ← failureOf (freeze x)
  if failure.isSome then
    save (fun j => { j with stage := .failed, failure := some "candidate-preparation-failed" })
    fail 78 "candidate-preparation-failed"

/-- The journal of an earlier invocation, or a new candidate; whether the run is over. -/
def resume : Cmd Bool := do
  let journal ← peek (·.journal)
  match journal with
  | some j =>
    Proc.update (fun w => { w with state := j })
    require (j.binding == x.identity) "schedule-binding-mismatch"
    require (decide (j.stage = .prepared) || decide (j.stage = .complete))
      "schedule-recovery-required" 75
    frozen x
    pure (decide (j.stage = .complete))
  | none => do
    prepareCandidate x
    pure false

/-- The fields that the scheduler reads of the certifier's result. -/
def Report.of (result : Json) : Report :=
  ⟨result.getStr "stage", result.getStr "run_id", result.getStr "artifact_fingerprint",
    result.get "release_signed"⟩

/-- `is False` -/
def saysFalse : Option Json → Bool
  | some (.bool false) => true
  | _ => false

/-- The certifier, its result, and the second look at the candidate. -/
def certification : Cmd Unit := do
  note (fun w => .started w.candidate)
  let result ← child x
  note (fun _ => .reported (Report.of result))
  let w ← Proc.read
  let r := Report.of result
  require (r.stage == some "ua03-complete" && r.runId == some x.runId &&
    r.fingerprint == w.state.frozen.map (·.fingerprint) && saysFalse r.releaseSigned)
    "incomplete-scheduled-certification"
  frozen x
  note (fun w => .rechecked w.candidate)

inductive Answer where
  | cleaned
  | deferred
  | alreadyCertified
  | prepared
  | complete
  deriving DecidableEq, Repr

/-- From the open window to the end of the invocation. -/
def certify (granted : Bool) : Cmd Answer := do
  let m ← query (fun _ => true) (fun m _ => m)
  onlyIf granted (Proc.update (fun w => { w with state.grant := some (digest m.text) }))
  save (fun j => { j with stage := .certifying })
  let failure ← failureOf (certification x)
  let cleanupFailure ← failureOf (cleanup x)
  onlyIf cleanupFailure.isSome (Proc.update (fun w =>
    { w with state.cleanupFailure := some "credential-cleanup-failed" }))
  match failure, cleanupFailure with
  | none, none => do
    save (fun j => { j with stage := .complete })
    pure .complete
  | none, some _ => do
    save (fun j => { j with stage := .failed, failure := some "credential-cleanup-failed" })
    fail 69 "credential-cleanup-failed"
  | some _, _ => do
    save (fun j => { j with stage := .failed, failure := some "scheduled-certification-failed" })
    fail 69 "scheduled-certification-failed"

/-- `prepare_only or window_open(policy, config, grant_path)` -/
def mayProceed (prepareOnly granted : Bool) : Cmd Bool :=
  if prepareOnly then pure true else windowOpen x granted

/-- `execute` -/
def execute (prepareOnly cleanupOnly granted : Bool) : Cmd Answer := do
  lockFile
  note (fun _ => .called)
  if cleanupOnly then
    cleanup x
    pure .cleaned
  else
    let early ← mayProceed x prepareOnly granted
    if early then
      let ended ← resume x
      if ended then pure .alreadyCertified
      else if prepareOnly then pure .prepared
      else
        let still ← windowOpen x granted
        if still then certify x granted else pure .deferred
    else pure .deferred

end

/-! ## What the log may show -/

def Event.isCall : Event → Bool
  | .called => true
  | _ => false

/-- The events of the invocation that is going on. -/
def sinceCall (past : List Event) : List Event := past.takeWhile (fun e => !e.isCall)

/-- The directory is the frozen one. -/
def Matches (x : Setting) (d : Directory) (f : Frozen) : Prop :=
  digest d.manifest = f.sha256 ∧ x.inspect d = some f.fingerprint

/-- The certifier reports success for this run and this candidate, and no release. -/
structure Success (x : Setting) (f : Frozen) (r : Report) : Prop where
  stage : r.stage = some "ua03-complete"
  run : r.runId = some x.runId
  fingerprint : r.fingerprint = some f.fingerprint
  unsigned : saysFalse r.releaseSigned = true

/-- A run is complete: the same invocation started the certifier, which reported success,
    saw the frozen candidate once more, and cleaned up. -/
def Certified (x : Setting) (past : List Event) (f : Frozen) : Prop :=
  ∃ c r d, [.cleaned, .rechecked (some d), .reported r, .started c].Sublist (sinceCall past) ∧
    Success x f r ∧ Matches x d f

/-- What may be added to a log. The certifier is started once, on a candidate with the one
    digest and fingerprint that were recorded when it was prepared. -/
def allowed (x : Setting) (past : List Event) : Event → Prop
  | .started c => (∀ c, .started c ∉ past) ∧ ∃ d f, c = some d ∧ Matches x d f ∧
      .saved .prepared (some f) ∈ past ∧ ∀ stage g, .saved stage (some g) ∈ past → g = f
  | .saved .complete f => ∃ g, f = some g ∧ Certified x past g
  | _ => True

/-! ## The invariants -/

/-- A journal that fits the log. -/
structure Fits (log : List Event) (j : Journal) : Prop where
  prepared : j.stage ≠ .failed → ∀ f, j.frozen = some f → .saved .prepared (some f) ∈ log
  frozen : ∀ stage f, .saved stage (some f) ∈ log → j.frozen = some f
  unstarted : j.stage = .preparing ∨ j.stage = .prepared → ∀ c, .started c ∉ log

/-- Between invocations. -/
structure Settled (x : Setting) (w : World) : Prop where
  guarded : Guarded (allowed x) w.log
  journal : ∀ j, w.journal = some j → Fits w.log j
  fresh : w.journal = none → (∀ c, .started c ∉ w.log) ∧ ∀ stage f, .saved stage (some f) ∉ w.log

/-- An event that says nothing about the journal or the certifier's start. -/
def Event.plain : Event → Bool
  | .saved _ _ => false
  | .started _ => false
  | _ => true

theorem Fits.add {log : List Event} {j : Journal} {e : Event} (h : Fits log j)
    (hs : ∀ stage f, e ≠ .saved stage f) (hc : ∀ c, e = .started c → j.stage = .certifying) :
    Fits (e :: log) j := by
  refine ⟨fun hst f hf => List.mem_cons_of_mem _ (h.prepared hst f hf), ?_, ?_⟩
  · intro stage f hm
    cases List.mem_cons.mp hm with
    | inl he => exact absurd he.symm (hs stage (some f))
    | inr hm => exact h.frozen stage f hm
  · intro hst c hm
    cases List.mem_cons.mp hm with
    | inl he =>
      rw [hc c he.symm] at hst
      simp at hst
    | inr hm => exact h.unstarted hst c hm

theorem Settled.add {x : Setting} {w : World} {e : Event} (h : Settled x w) (hp : e.plain = true)
    (ha : allowed x w.log e) : Settled x (w.add e) := by
  have hs : ∀ stage f, e ≠ .saved stage f := by
    intro stage f he
    rw [he] at hp
    exact absurd hp (by simp [Event.plain])
  have hc : ∀ c, e ≠ .started c := by
    intro c he
    rw [he] at hp
    exact absurd hp (by simp [Event.plain])
  refine ⟨⟨ha, h.guarded⟩, fun j hj => (h.journal j hj).add hs (fun c he => absurd he (hc c)), ?_⟩
  intro hn
  obtain ⟨hstarted, hsaved⟩ := h.fresh hn
  constructor
  · intro c hm
    cases List.mem_cons.mp hm with
    | inl he => exact hc c he.symm
    | inr hm => exact hstarted c hm
  · intro stage f hm
    cases List.mem_cons.mp hm with
    | inl he => exact hs stage (some f) he.symm
    | inr hm => exact hsaved stage f hm

/-- The variable `journal`, the candidate and the certifier's state are no part of what is
    settled. -/
theorem Settled.same {x : Setting} {w w' : World} (h : Settled x w) (hj : w'.journal = w.journal)
    (hl : w'.log = w.log) : Settled x w' := by
  refine ⟨by rw [hl]; exact h.guarded, ?_, ?_⟩
  · rw [hj, hl]
    exact h.journal
  · rw [hj, hl]
    exact h.fresh

/-- A journal that may be written. -/
structure Writable (log : List Event) (j : Journal) : Prop where
  prepared : j.stage = .prepared ∨ j.stage = .failed ∨
    ∀ f, j.frozen = some f → .saved .prepared (some f) ∈ log
  frozen : ∀ stage f, .saved stage (some f) ∈ log → j.frozen = some f
  unstarted : j.stage = .preparing ∨ j.stage = .prepared → ∀ c, .started c ∉ log

theorem Writable.fits {log : List Event} {j : Journal} (h : Writable log j) :
    Fits (.saved j.stage j.frozen :: log) j := by
  refine ⟨?_, ?_, ?_⟩
  · intro hst f hf
    rcases h.prepared with hp | hp | hp
    · rw [hp, hf]
      exact List.mem_cons_self
    · exact absurd hp hst
    · exact List.mem_cons_of_mem _ (hp f hf)
  · intro stage f hm
    cases List.mem_cons.mp hm with
    | inl he => exact (Event.saved.inj he).2.symm
    | inr hm => exact h.frozen stage f hm
  · intro hst c hm
    cases List.mem_cons.mp hm with
    | inl he => cases he
    | inr hm => exact h.unstarted hst c hm

theorem Settled.write {x : Setting} {w : World} (h : Settled x w) (hw : Writable w.log w.state)
    (ha : allowed x w.log (.saved w.state.stage w.state.frozen)) : Settled x w.write := by
  refine ⟨⟨ha, h.guarded⟩, ?_, fun hn => by cases hn⟩
  intro j hj
  cases hj
  exact hw.fits

theorem allowed_saved {x : Setting} {past : List Event} {stage : Stage} {f : Option Frozen}
    (h : stage ≠ .complete) : allowed x past (.saved stage f) := by
  cases stage with
  | complete => exact absurd rfl h
  | _ => trivial

theorem Fits.writable {log : List Event} {j j' : Journal} (h : Fits log j)
    (hst : j.stage ≠ .failed) (hf : j'.frozen = j.frozen)
    (hu : j'.stage ≠ .preparing ∧ j'.stage ≠ .prepared) : Writable log j' := by
  refine ⟨.inr (.inr ?_), ?_, fun h => absurd h (by simp [hu])⟩
  · rw [hf]
    exact h.prepared hst
  · rw [hf]
    exact h.frozen

/-! ## The parts of an invocation -/

section
variable {x : Setting} {I P : World → Prop}

theorem decodeText_keeps {text : String} : Keeps I (decodeText x text) := by
  unfold decodeText
  split
  · exact Triple.pure' (fun _ h => h)
  · exact Triple.raise (fun _ h => h)

theorem windowOpen_keeps {granted : Bool} : Keeps I (windowOpen x granted) := by
  apply Triple.ite
  · intro _
    refine Keeps.bind ?_ (fun _ => Triple.pure' (fun _ h => h))
    refine Keeps.bind query_keeps (fun m => Keeps.bind decodeText_keeps (fun grant => ?_))
    refine Keeps.bind require_keeps (fun _ => Keeps.bind require_keeps (fun _ =>
      Keeps.bind require_keeps (fun _ => ?_)))
    refine Keeps.bind peek_keeps (fun _ => Keeps.bind require_keeps (fun _ => ?_))
    exact Keeps.bind peek_keeps (fun _ => require_keeps)
  · exact fun _ => query_keeps

theorem candidate_triple : Triple P (candidate x)
    (fun p w => P w ∧ w.candidate = some p.1 ∧ x.inspect p.1 = some p.2) (fun _ => P) := by
  refine Triple.bind (peek_triple (Q := fun found w => P w ∧ w.candidate = found)
    (fun _ hw => ⟨hw, rfl⟩) (fun _ _ hw => hw)) (fun found => ?_)
  cases found with
  | none => exact Triple.raise (fun _ hw => hw.1)
  | some d =>
    cases hi : x.inspect d with
    | none =>
      simp only [hi]
      exact Triple.raise (fun _ hw => hw.1)
    | some fingerprint =>
      simp only [hi]
      exact Triple.pure' (fun _ hw => ⟨hw.1, hw.2, hi⟩)

theorem frozen_triple : Triple P (frozen x)
    (fun _ w => P w ∧ ∃ d f, w.candidate = some d ∧ w.state.frozen = some f ∧ Matches x d f)
    (fun _ => P) := by
  refine Triple.bind candidate_triple (fun p => ?_)
  refine Triple.bind (Q := fun v w => (P w ∧ w.candidate = some p.1 ∧ x.inspect p.1 = some p.2) ∧
    w = v) (Triple.read (fun _ hw => ⟨hw, rfl⟩)) (fun v => ?_)
  cases hf : v.state.frozen with
  | none => exact Triple.raise (fun _ hw => hw.1.1)
  | some f =>
    refine require_triple ?_ (fun _ _ hw => hw.1.1)
    intro hc w ⟨⟨hw, hcand, hi⟩, hv⟩
    rw [Bool.and_eq_true, decide_eq_true_eq, beq_iff_eq] at hc
    refine ⟨hw, p.1, f, hcand, by rw [hv]; exact hf, hc.1, ?_⟩
    rw [hi, hc.2]

theorem child_keeps (hI : ∀ w, I w → I { w with certifierState := .present }) :
    Keeps I (child x) := by
  refine Keeps.bind (run_keeps (fun _ w hw _ => hI w hw)) (fun _ => ?_)
  refine Keeps.bind decodeText_keeps (fun _ => ?_)
  exact Keeps.bind require_keeps (fun _ => Triple.pure' (fun _ h => h))

/-- A save: what is written, or not, where it fails. -/
theorem save_triple {f : Journal → Journal} :
    Triple P (save f)
      (fun _ w' => ∃ w, P w ∧ w' = World.write { w with state := f w.state })
      (fun _ w' => ∃ w, P w ∧ (w' = { w with state := f w.state } ∨
        w' = World.write { w with state := f w.state })) := by
  refine Triple.bind (Q := fun _ w' => ∃ w, P w ∧ w' = { w with state := f w.state })
    (Triple.update (fun w hw => ⟨w, hw, rfl⟩)) (fun _ => ?_)
  refine atomic_triple ?_ ?_ ?_
  · intro _ w' ⟨w, hw, he⟩
    exact ⟨w, hw, by rw [he]⟩
  · intro _ w' ⟨w, hw, he⟩
    exact ⟨w, hw, .inl he⟩
  · intro _ _ w' ⟨w, hw, he⟩
    exact ⟨w, hw, .inr (by rw [he])⟩

/-- The variable `journal` may be written as that of a failed run. -/
def Recorded (log : List Event) (j : Journal) : Prop :=
  ∀ stage f, .saved stage (some f) ∈ log → j.frozen = some f

theorem Recorded.failed {log : List Event} {j j' : Journal} (h : Recorded log j)
    (hst : j'.stage = .failed) (hf : j'.frozen = j.frozen) : Writable log j' :=
  ⟨.inr (.inl hst), by rw [hf]; exact h, fun hu => by rw [hst] at hu; simp at hu⟩

/-- Recording a failure. -/
theorem save_failed {f : Journal → Journal} (hst : ∀ j, (f j).stage = .failed)
    (hf : ∀ j, (f j).frozen = j.frozen) :
    Triple (fun w => Settled x w ∧ Recorded w.log w.state) (save f) (fun _ => Settled x)
      (fun _ => Settled x) := by
  have hwrite : ∀ w : World, Settled x w ∧ Recorded w.log w.state →
      Settled x (World.write { w with state := f w.state }) := by
    intro w hw
    have hset : Settled x { w with state := f w.state } := hw.1.same rfl rfl
    refine hset.write (hw.2.failed (hst _) (hf _)) (allowed_saved ?_)
    show (f w.state).stage ≠ .complete
    rw [hst]
    simp
  refine save_triple.mono (fun _ h => h) ?_ ?_
  · intro _ w' ⟨w, hw, he⟩
    rw [he]
    exact hwrite w hw
  · intro _ w' ⟨w, hw, he⟩
    rcases he with he | he
    · rw [he]
      exact hw.1.same rfl rfl
    · rw [he]
      exact hwrite w hw

/-- The candidate is frozen and the certifier was not started. -/
structure Ready (x : Setting) (w : World) : Prop where
  settled : Settled x w
  fits : Fits w.log w.state
  stage : w.state.stage = .prepared
  frozen : ∃ d f, w.candidate = some d ∧ w.state.frozen = some f ∧ Matches x d f

/-- An invocation that found no journal and has written the first one. -/
structure Preparing (x : Setting) (w : World) : Prop where
  settled : Settled x w
  frozen : w.state.frozen = none
  unsaved : ∀ stage f, .saved stage (some f) ∉ w.log
  unstarted : ∀ c, .started c ∉ w.log

theorem Preparing.recorded {w : World} (h : Preparing x w) : Recorded w.log w.state :=
  fun stage f hm => absurd hm (h.unsaved stage f)

theorem freeze_triple : Triple (Preparing x) (freeze x) (fun _ => Ready x)
    (fun _ w => Settled x w ∧ Recorded w.log w.state) := by
  have hmade : ∀ m w, Preparing x w → Preparing x { w with candidate := some (x.prepared m) } :=
    fun m w h => ⟨h.settled.same rfl rfl, h.frozen, h.unsaved, h.unstarted⟩
  refine Triple.bind (run_triple (Q := fun _ => Preparing x) (fun m w hw _ => hmade m w hw)
    (fun _ w hw => ⟨hw.settled, hw.recorded⟩)
    (fun _ m w hw _ => ⟨(hmade m w hw).settled, (hmade m w hw).recorded⟩)) (fun _ => ?_)
  refine Triple.bind (candidate_triple.mono (fun _ h => h) (fun _ _ h => h)
    (fun _ w hw => ⟨hw.settled, hw.recorded⟩)) (fun p => ?_)
  have hwritable : ∀ w : World, Preparing x w → Writable w.log
      { w.state with stage := .prepared, frozen := some ⟨digest p.1.manifest, p.2⟩ } :=
    fun w hw => ⟨.inl rfl, fun stage f hm => absurd hm (hw.unsaved stage f),
      fun _ => hw.unstarted⟩
  have hwrite : ∀ w : World, Preparing x w → Settled x (World.write { w with state :=
      { w.state with stage := .prepared, frozen := some ⟨digest p.1.manifest, p.2⟩ } }) := by
    intro w hw
    have hset : Settled x { w with state :=
        { w.state with stage := .prepared, frozen := some ⟨digest p.1.manifest, p.2⟩ } } :=
      hw.settled.same rfl rfl
    exact hset.write (hwritable w hw) (allowed_saved (by simp))
  refine save_triple.mono (fun _ h => h) ?_ ?_
  · intro _ w' ⟨w, ⟨hw, hcand, hi⟩, he⟩
    rw [he]
    exact ⟨hwrite w hw, (hwritable w hw).fits, rfl, p.1, _, hcand, rfl, rfl, hi⟩
  · intro _ w' ⟨w, ⟨hw, _⟩, he⟩
    rcases he with he | he
    · rw [he]
      exact ⟨hw.settled.same rfl rfl, fun stage f hm => absurd hm (hw.unsaved stage f)⟩
    · rw [he]
      exact ⟨hwrite w hw, (hwritable w hw).fits.frozen⟩

theorem prepareCandidate_triple :
    Triple (fun w => Settled x w ∧ w.journal = none) (prepareCandidate x) (fun _ => Ready x)
      (fun _ => Settled x) := by
  refine Triple.bind (peek_keeps.mono (fun _ h => h) (fun _ _ h => h) (fun _ _ h => h.1))
    (fun _ => Triple.bind (require_keeps.mono (fun _ h => h) (fun _ _ h => h) (fun _ _ h => h.1))
    (fun _ => ?_))
  refine Triple.bind (peek_keeps.mono (fun _ h => h) (fun _ _ h => h) (fun _ _ h => h.1))
    (fun _ => Triple.bind (require_keeps.mono (fun _ h => h) (fun _ _ h => h) (fun _ _ h => h.1))
    (fun _ => ?_))
  refine Triple.bind (peek_keeps.mono (fun _ h => h) (fun _ _ h => h) (fun _ _ h => h.1))
    (fun _ => Triple.bind (require_keeps.mono (fun _ h => h) (fun _ _ h => h) (fun _ _ h => h.1))
    (fun _ => ?_))
  refine Triple.bind (peek_keeps.mono (fun _ h => h) (fun _ _ h => h) (fun _ _ h => h.1))
    (fun _ => ?_)
  refine Triple.bind (Q := fun _ w => Preparing x w ∧ w.state = { binding := x.identity })
    (Triple.update ?_) (fun _ => ?_)
  · intro w ⟨hw, hn⟩
    obtain ⟨hstarted, hsaved⟩ := hw.fresh hn
    exact ⟨⟨hw.same rfl rfl, rfl, hsaved, hstarted⟩, rfl⟩
  have hfirst : ∀ w, Preparing x w ∧ w.state = { binding := x.identity } → Preparing x w.write := by
    intro w ⟨hw, hst⟩
    have hwritable : Writable w.log w.state :=
      ⟨.inr (.inr (fun f hf => by rw [hw.frozen] at hf; cases hf)),
        fun stage f hm => absurd hm (hw.unsaved stage f), fun _ => hw.unstarted⟩
    have hallowed : allowed x w.log (.saved w.state.stage w.state.frozen) :=
      allowed_saved (by rw [hst]; simp)
    refine ⟨hw.settled.write hwritable hallowed, hw.frozen, ?_, ?_⟩
    · intro stage f hm
      cases List.mem_cons.mp hm with
      | inl he =>
        have hnone := (Event.saved.inj he).2
        rw [hw.frozen] at hnone
        cases hnone
      | inr hm => exact hw.unsaved stage f hm
    · intro c hm
      cases List.mem_cons.mp hm with
      | inl he => cases he
      | inr hm => exact hw.unstarted c hm
  refine Triple.bind (atomic_triple (Q := fun _ => Preparing x) (fun _ w hw => hfirst w hw)
    (fun _ _ hw => hw.1.settled) (fun _ _ w hw => (hfirst w hw).settled)) (fun _ => ?_)
  refine Triple.bind (failureOf_triple (S := fun failure w => match failure with
      | none => Ready x w
      | some _ => Settled x w ∧ Recorded w.log w.state) freeze_triple (fun _ h => h)
    (fun _ _ h => h) (fun _ h => h.1)) (fun failure => ?_)
  cases failure with
  | none => exact Triple.pure' (fun _ h => h)
  | some e =>
    refine Triple.bind (save_failed (fun _ => rfl) (fun _ => rfl)) (fun _ => ?_)
    exact Triple.raise (fun _ h => h)

theorem resume_triple : Triple (Settled x) (resume x)
    (fun ended w => Settled x w ∧ (ended = false → Ready x w)) (fun _ => Settled x) := by
  refine Triple.bind (peek_triple (Q := fun journal w => Settled x w ∧ w.journal = journal)
    (fun _ hw => ⟨hw, rfl⟩) (fun _ _ hw => hw)) (fun journal => ?_)
  cases journal with
  | none =>
    refine Triple.bind prepareCandidate_triple (fun _ => ?_)
    exact Triple.pure' (fun _ hw => ⟨hw.settled, fun _ => hw⟩)
  | some j =>
    refine Triple.bind (Q := fun _ w => Settled x w ∧ Fits w.log w.state ∧ w.state = j)
      (Triple.update ?_) (fun _ => ?_)
    · intro w ⟨hw, hj⟩
      exact ⟨hw.same rfl rfl, hw.journal j hj, rfl⟩
    refine Triple.bind (require_keeps.mono (fun _ h => h) (fun _ _ h => h) (fun _ _ h => h.1))
      (fun _ => ?_)
    refine Triple.bind (require_triple (Q := fun _ w => (Settled x w ∧ Fits w.log w.state ∧
      w.state = j) ∧ (j.stage = .prepared ∨ j.stage = .complete)) ?_ (fun _ _ hw => hw.1))
      (fun _ => ?_)
    · intro hc w hw
      refine ⟨hw, ?_⟩
      simpa using hc
    refine Triple.bind (frozen_triple.mono (fun _ h => h) (fun _ _ h => h)
      (fun _ _ h => h.1.1)) (fun _ => Triple.pure' ?_)
    intro w ⟨⟨⟨hw, hfits, hj⟩, hst⟩, hfrozen⟩
    refine ⟨hw, fun hended => ⟨hw, hfits, ?_, hfrozen⟩⟩
    rw [hj]
    exact hst.resolve_right (by simpa using hended)

/-! From the open window to the end. -/

/-- The certifier's turn: the journal says so, and the invocation has done these steps. -/
structure Working (x : Setting) (f : Frozen) (steps : List Event) (w : World) : Prop where
  settled : Settled x w
  fits : Fits w.log w.state
  stage : w.state.stage = .certifying
  frozen : w.state.frozen = some f
  steps : steps.Sublist (sinceCall w.log)

variable {f : Frozen} {steps : List Event}

theorem Working.recorded {w : World} (h : Working x f steps w) :
    Settled x w ∧ Recorded w.log w.state :=
  ⟨h.settled, h.fits.frozen⟩

theorem Working.forget {w : World} (h : Working x f steps w) : Working x f [] w :=
  { h with steps := List.nil_sublist _ }

theorem Working.running {w : World} (h : Working x f steps w) (state : Presence) :
    Working x f steps { w with certifierState := state } :=
  ⟨h.settled.same rfl rfl, h.fits, h.stage, h.frozen, h.steps⟩

theorem sinceCall_cons {past : List Event} {e : Event} (h : e.isCall = false) :
    sinceCall (e :: past) = e :: sinceCall past := by
  simp [sinceCall, h]

theorem Working.add {w : World} {e : Event} (h : Working x f steps w) (hp : e.plain = true)
    (hc : e.isCall = false) (ha : allowed x w.log e) : Working x f (e :: steps) (w.add e) := by
  refine ⟨h.settled.add hp ha, h.fits.add ?_ (fun _ _ => h.stage), h.stage, h.frozen, ?_⟩
  · intro stage g he
    rw [he] at hp
    exact absurd hp (by simp [Event.plain])
  · show (e :: steps).Sublist (sinceCall (e :: w.log))
    rw [sinceCall_cons hc]
    exact h.steps.cons_cons e

/-- The journal says `certifying`, on a candidate that is the frozen one, and nothing was
    started yet. -/
structure Armed (x : Setting) (f : Frozen) (w : World) : Prop where
  working : Working x f [] w
  journal : ∃ j, w.journal = some j ∧ j.stage = .certifying
  candidate : ∃ d, w.candidate = some d ∧ Matches x d f
  unstarted : ∀ c, .started c ∉ w.log

/-- The certifier is started. -/
theorem Armed.start {w : World} (h : Armed x f w) :
    Working x f [.started w.candidate] (w.add (.started w.candidate)) := by
  obtain ⟨d, hd, hmatch⟩ := h.candidate
  have hprepared : .saved .prepared (some f) ∈ w.log := by
    refine h.working.fits.prepared ?_ f h.working.frozen
    rw [h.working.stage]
    simp
  have ha : allowed x w.log (.started w.candidate) := by
    refine ⟨h.unstarted, d, f, hd, hmatch, hprepared, ?_⟩
    intro stage g hg
    have hboth := (h.working.fits.frozen stage g hg).symm.trans h.working.frozen
    exact Option.some.inj hboth
  have hplain : ∀ stage g, Event.started w.candidate ≠ .saved stage g := fun _ _ => by simp
  obtain ⟨j, hj, hst⟩ := h.journal
  refine ⟨⟨⟨ha, h.working.settled.guarded⟩, ?_, ?_⟩, ?_, h.working.stage, h.working.frozen, ?_⟩
  · intro j' hj'
    have heq : j' = j := Option.some.inj (hj'.symm.trans hj)
    rw [heq]
    exact (h.working.settled.journal j hj).add hplain (fun _ _ => hst)
  · intro hn
    rw [show (w.add (.started w.candidate)).journal = w.journal from rfl, hj] at hn
    cases hn
  · exact h.working.fits.add hplain (fun _ _ => h.working.stage)
  · show [Event.started w.candidate].Sublist (sinceCall (.started w.candidate :: w.log))
    rw [sinceCall_cons rfl]
    exact List.singleton_sublist.mpr List.mem_cons_self

/-- The certifier succeeded, and the candidate was the frozen one afterwards. -/
def Rechecked (x : Setting) (f : Frozen) (w : World) : Prop :=
  ∃ c r d, Working x f [.rechecked (some d), .reported r, .started c] w ∧ Success x f r ∧
    Matches x d f

theorem certification_triple : Triple (Armed x f) (certification x) (fun _ => Rechecked x f)
    (fun _ => Working x f []) := by
  refine Triple.bind (Q := fun _ w => ∃ c, Working x f [.started c] w)
    (Triple.update (fun w hw => ⟨w.candidate, hw.start⟩)) (fun _ => ?_)
  refine Triple.bind ((child_keeps ?_).mono (fun _ h => h) (fun _ _ h => h)
    (fun _ w ⟨_, hw⟩ => hw.forget)) (fun result => ?_)
  · intro w ⟨c, hw⟩
    exact ⟨c, hw.running _⟩
  refine Triple.bind (Q := fun _ w => ∃ c, Working x f [.reported (Report.of result), .started c] w)
    (Triple.update ?_) (fun _ => ?_)
  · intro w ⟨c, hw⟩
    exact ⟨c, hw.add rfl rfl trivial⟩
  refine Triple.bind (Q := fun v w => (∃ c, Working x f [.reported (Report.of result), .started c] w) ∧
    v.state.frozen = some f) (Triple.read ?_) (fun v => ?_)
  · intro w ⟨c, hw⟩
    exact ⟨⟨c, hw⟩, hw.frozen⟩
  refine Triple.bind (Q := fun _ w => (∃ c, Working x f [.reported (Report.of result), .started c] w) ∧
    Success x f (Report.of result)) (require_triple ?_ (fun _ w ⟨⟨_, hw⟩, _⟩ => hw.forget))
    (fun _ => ?_)
  · intro hc w ⟨hw, hf⟩
    rw [hf] at hc
    simp only [Bool.and_eq_true, beq_iff_eq, Option.map_some] at hc
    exact ⟨hw, hc.1.1.1, hc.1.1.2, hc.1.2, hc.2⟩
  refine Triple.bind (frozen_triple.mono (fun _ h => h) (fun _ _ h => h)
    (fun _ w ⟨⟨_, hw⟩, _⟩ => hw.forget)) (fun _ => Triple.update ?_)
  intro w ⟨⟨⟨c, hw⟩, hsuccess⟩, d, g, hd, hg, hmatch⟩
  have heq : g = f := Option.some.inj (hg.symm.trans hw.frozen)
  subst heq
  show Rechecked x g (w.add (.rechecked w.candidate))
  rw [hd]
  exact ⟨c, _, d, hw.add rfl rfl trivial, hsuccess, hmatch⟩

theorem cleanup_working : Triple (Working x f steps) (cleanup x)
    (fun _ => Working x f (.cleaned :: steps)) (fun _ => Working x f steps) := by
  have hclean : Triple (Working x f steps) (note (fun _ => .cleaned))
      (fun _ => Working x f (.cleaned :: steps)) (fun _ => Working x f steps) :=
    Triple.update (fun w hw => hw.add rfl rfl trivial)
  refine Triple.bind peek_keeps (fun state => ?_)
  cases state with
  | link => exact Triple.raise (fun _ h => h)
  | absent => exact hclean
  | present =>
    refine Triple.bind (child_keeps (fun w hw => hw.running _)) (fun _ => ?_)
    exact Triple.bind require_keeps (fun _ => hclean)

theorem cleanup_settled : Keeps (Settled x) (cleanup x) := by
  have hclean : Keeps (Settled x) (note (fun _ => .cleaned)) :=
    Triple.update (fun w hw => hw.add rfl trivial)
  refine Triple.bind peek_keeps (fun state => ?_)
  cases state with
  | link => exact Triple.raise (fun _ h => h)
  | absent => exact hclean
  | present =>
    refine Triple.bind (child_keeps (fun w hw => hw.same rfl rfl)) (fun _ => ?_)
    exact Triple.bind require_keeps (fun _ => hclean)

/-- What may be recorded as complete. -/
def Done (x : Setting) (f : Frozen) (w : World) : Prop :=
  ∃ c r d, Working x f [.cleaned, .rechecked (some d), .reported r, .started c] w ∧
    Success x f r ∧ Matches x d f

theorem save_done : Triple (Done x f) (save (fun j => { j with stage := .complete }))
    (fun _ => Settled x) (fun _ => Settled x) := by
  have hwrite : ∀ w, Done x f w → Settled x
      (World.write { w with state := { w.state with stage := .complete } }) := by
    intro w ⟨c, r, d, hw, hsuccess, hmatch⟩
    have hset : Settled x { w with state := { w.state with stage := .complete } } :=
      hw.settled.same rfl rfl
    refine hset.write (hw.fits.writable ?_ rfl ⟨by simp, by simp⟩) ?_
    · rw [hw.stage]
      simp
    · exact ⟨f, hw.frozen, c, r, d, hw.steps, hsuccess, hmatch⟩
  refine save_triple.mono (fun _ h => h) ?_ ?_
  · intro _ w' ⟨w, hw, he⟩
    rw [he]
    exact hwrite w hw
  · intro _ w' ⟨w, hw, he⟩
    rcases he with he | he
    · rw [he]
      obtain ⟨_, _, _, hw, _⟩ := hw
      exact hw.settled.same rfl rfl
    · rw [he]
      exact hwrite w hw

/-- The journal is moved to `certifying`. -/
theorem save_certifying : Triple (Ready x) (save (fun j => { j with stage := .certifying }))
    (fun _ w => ∃ f, Armed x f w) (fun _ => Settled x) := by
  have hwritable : ∀ w, Ready x w → Writable w.log { w.state with stage := .certifying } := by
    intro w hw
    refine hw.fits.writable ?_ rfl ⟨by simp, by simp⟩
    rw [hw.stage]
    simp
  have hwrite : ∀ w, Ready x w → Settled x
      (World.write { w with state := { w.state with stage := .certifying } }) := by
    intro w hw
    have hset : Settled x { w with state := { w.state with stage := .certifying } } :=
      hw.settled.same rfl rfl
    exact hset.write (hwritable w hw) (allowed_saved (by simp))
  refine save_triple.mono (fun _ h => h) ?_ ?_
  · intro _ w' ⟨w, hw, he⟩
    rw [he]
    obtain ⟨d, f, hd, hf, hmatch⟩ := hw.frozen
    refine ⟨f, ⟨hwrite w hw, (hwritable w hw).fits, rfl, hf, List.nil_sublist _⟩,
      ⟨_, rfl, rfl⟩, ⟨d, hd, hmatch⟩, ?_⟩
    intro c hm
    cases List.mem_cons.mp hm with
    | inl he => cases he
    | inr hm => exact hw.fits.unstarted (.inr hw.stage) c hm
  · intro _ w' ⟨w, hw, he⟩
    rcases he with he | he
    · rw [he]
      exact hw.settled.same rfl rfl
    · rw [he]
      exact hwrite w hw

theorem certify_triple {granted : Bool} : Triple (Ready x) (certify x granted)
    (fun _ => Settled x) (fun _ => Settled x) := by
  refine Triple.bind (query_keeps.mono (fun _ h => h) (fun _ _ h => h) (fun _ _ h => h.settled))
    (fun m => ?_)
  refine Triple.bind (Q := fun _ => Ready x) (onlyIf_triple (fun _ => Triple.update ?_)
    (fun _ _ h => h)) (fun _ => ?_)
  · intro w hw
    exact ⟨hw.settled.same rfl rfl, ⟨hw.fits.prepared, hw.fits.frozen, hw.fits.unstarted⟩, hw.stage,
      hw.frozen⟩
  refine Triple.bind save_certifying (fun _ => Triple.start ?_)
  intro w₀ ⟨f, hw₀⟩
  refine Triple.bind (failureOf_triple (S := fun failure w => match failure with
      | none => Rechecked x f w
      | some _ => Working x f [] w) (certification_triple.pre (fun w hw => by rw [hw]; exact hw₀))
    (fun _ h => h) (fun _ _ h => h) (fun _ h => h.settled)) (fun failure => ?_)
  have hgiveUp : ∀ {g : Journal → Journal} {reason : String}, (∀ j, (g j).stage = .failed) →
      (∀ j, (g j).frozen = j.frozen) →
      Triple (Working x f []) (do save g; fail 69 reason : Cmd Answer) (fun _ => Settled x)
        (fun _ => Settled x) := by
    intro g reason hst hf
    exact Triple.bind ((save_failed hst hf).pre (fun _ hw => hw.recorded))
      (fun _ => Triple.raise (fun _ h => h))
  have hmark : ∀ {steps : List Event} {b : Bool}, Keeps (Working x f steps)
      (onlyIf b (Proc.update (fun w => { w with state :=
        { w.state with cleanupFailure := some "credential-cleanup-failed" } }))) := by
    intro steps b
    refine onlyIf_keeps (Triple.update (fun w hw => ?_))
    exact ⟨hw.settled.same rfl rfl, ⟨hw.fits.prepared, hw.fits.frozen, hw.fits.unstarted⟩,
      hw.stage, hw.frozen, hw.steps⟩
  cases failure with
  | some e =>
    refine Triple.bind (failureOf_triple (S := fun _ => Working x f []) cleanup_working
      (fun _ h => h.forget) (fun _ _ h => h) (fun _ h => h.settled)) (fun cleanupFailure => ?_)
    refine Triple.bind (hmark.mono (fun _ h => h) (fun _ _ h => h) (fun _ _ h => h.settled))
      (fun _ => ?_)
    exact hgiveUp (fun _ => rfl) (fun _ => rfl)
  | none =>
    refine Triple.start ?_
    intro w₁ ⟨c, r, d, hw₁, hsuccess, hmatch⟩
    refine Triple.bind (failureOf_triple (S := fun cleanupFailure w => match cleanupFailure with
        | none => Working x f [.cleaned, .rechecked (some d), .reported r, .started c] w
        | some _ => Working x f [] w) (cleanup_working.pre (fun w hw => by rw [hw]; exact hw₁))
      (fun _ h => h) (fun _ _ h => h.forget) (fun _ h => h.settled)) (fun cleanupFailure => ?_)
    cases cleanupFailure with
    | none =>
      refine Triple.bind (hmark.mono (fun _ h => h) (fun _ _ h => h) (fun _ _ h => h.settled))
        (fun _ => ?_)
      refine Triple.bind (save_done.pre (fun w hw => ⟨c, r, d, hw, hsuccess, hmatch⟩)) (fun _ => ?_)
      exact Triple.pure' (fun _ h => h)
    | some e =>
      refine Triple.bind (hmark.mono (fun _ h => h) (fun _ _ h => h) (fun _ _ h => h.settled))
        (fun _ => ?_)
      exact hgiveUp (fun _ => rfl) (fun _ => rfl)

theorem execute_settled (prepareOnly cleanupOnly granted : Bool) :
    Keeps (Settled x) (execute x prepareOnly cleanupOnly granted) := by
  refine Keeps.bind lockFile_keeps (fun _ => ?_)
  refine Keeps.bind (Triple.update (fun w hw => hw.add rfl trivial)) (fun _ => ?_)
  refine Triple.ite (fun _ => ?_) (fun _ => ?_)
  · exact Keeps.bind cleanup_settled (fun _ => Triple.pure' (fun _ h => h))
  have hearly : Keeps (Settled x) (mayProceed x prepareOnly granted) :=
    Triple.ite (fun _ => Triple.pure' (fun _ h => h)) (fun _ => windowOpen_keeps)
  refine Keeps.bind hearly (fun early => ?_)
  refine Triple.ite (fun _ => ?_) (fun _ => Triple.pure' (fun _ h => h))
  refine Triple.bind resume_triple (fun ended => ?_)
  refine Triple.ite (fun _ => Triple.pure' (fun _ h => h.1)) (fun hended => ?_)
  refine Triple.ite (fun _ => Triple.pure' (fun _ h => h.1)) (fun _ => ?_)
  refine Triple.bind (windowOpen_keeps.mono (fun w hw => hw.2 (by simpa using hended))
    (fun _ _ h => h) (fun _ _ h => h.settled)) (fun still => ?_)
  refine Triple.ite (fun _ => certify_triple) (fun _ => Triple.pure' (fun _ h => h.settled))

end

/-! ## Histories -/

/-- Invocations of any kind over one journal, each cut off anywhere. In between the
    candidate and the certifier's state may change in any way. -/
inductive History (x : Setting) : World → Prop where
  | empty : History x World.empty
  | invoke {w : World} (h : History x w) (prepareOnly cleanupOnly granted : Bool)
    (t : List Moment) : History x ((execute x prepareOnly cleanupOnly granted).after t w)
  | change {w : World} (h : History x w) (candidate : Option Directory) (state : Presence)
    (link : Bool) :
    History x { w with candidate := candidate, certifierState := state, journalLink := link }

theorem History.settled {x : Setting} {w : World} (h : History x w) : Settled x w := by
  induction h with
  | empty =>
    refine ⟨trivial, ?_, fun _ => ⟨?_, ?_⟩⟩
    · intro j hj
      cases hj
    · intro c hc
      cases hc
    · intro stage f hc
      cases hc
  | invoke _ prepareOnly cleanupOnly granted t ih =>
    exact (execute_settled prepareOnly cleanupOnly granted).after ih
  | change _ candidate state link ih => exact ih.same rfl rfl

/-- A setting in which the certifier says what the text of the answer names. -/
def sampleSetting : Setting where
  decode text :=
    if text = "certified" then
      some (.obj [("ok", .bool true), ("stage", .str "ua03-complete"), ("run_id", .str "run"),
        ("artifact_fingerprint", .str "fingerprint"), ("release_signed", .bool false)])
    else some (.obj [("ok", .bool true), ("stage", .str "credential-cleanup-complete")])
  prepared _ := ⟨"candidate", []⟩
  inspect _ := some "fingerprint"
  hex d := d.preimage
  identity := "policy"
  runId := "run"
  fixedLab := true

/-- Prepared first, and certified in a window. -/
def sampleHistory : World :=
  (execute sampleSetting false false false).after
    (List.replicate 7 { now := 0 } ++ [{ text := "certified" }] ++ List.replicate 4 { now := 0 })
    ((execute sampleSetting true false false).after (List.replicate 10 { now := 0 }) World.empty)

def Event.completes : Event → Bool
  | .saved .complete _ => true
  | _ => false

end Hermes.Schedule

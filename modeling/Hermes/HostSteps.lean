import Mathlib.Logic.Relation
import Hermes.Host

/- What one request to a host can do, said once.

   `HostStep r K` lists the changes that a process of release `r` makes to the
   journals, the backups, the credential and the trace, with what each of them
   depends on; `K` are the keys it may be handed. `hostMain_moves` is the one
   place where the code is run symbolically: every run of every stage, wherever
   it stops, is a sequence of such steps. -/
namespace Hermes
open Process

variable {α β : Type}

/-- Nothing changes that a later stage of any release depends on. -/
structure Frame (s s' : Machine) : Prop where
  journals : s'.journals = s.journals
  previous : s'.previous = s.previous
  credential : Node.bytes? (s'.files .credential) = Node.bytes? (s.files .credential)
  bootId : s'.bootId = s.bootId
  trace : s'.trace = s.trace

/-- A record of `place` in a backup gives it the content `content`. -/
def Previous.offers (p : Previous) (place : Place) (content : Option Bytes) : Prop :=
  ∃ records record, p.records = some records ∧ record ∈ records ∧ record.place = place ∧
    match record.saved with
    | none => content = none
    | some _ => content = p.copies record.index

/-- Every record's copy is numbered below the number of records. -/
def Previous.indexed (p : Previous) : Prop :=
  ∀ records, p.records = some records → ∀ record ∈ records, record.index < records.length

/-- The journal writes of release `r` on the machine `s`. -/
inductive Transition (r : Release) (s : Machine) (j : Journal) : Journal → Prop
  | begin (active : Bool) (hp : j.phase = .new) (hc : (s.previous r.id).any (·.complete) = true) :
      Transition r s j { j with previousActive := some active, phase := .snapshotCreating }
  | ready (d : Digest) (hp : j.phase = .snapshotCreating) (hd : .snapshotTaken r.id d ∈ s.trace) :
      Transition r s j { j with snapshotSha256 := some d, phase := .snapshotReady }
  | acknowledge (d : Digest) (backup : String)
      (hp : j.phase = .snapshotReady ∨ j.phase = .backupVerified)
      (hd : j.snapshotSha256 = some d) (ha : .acknowledged r.id d ∈ s.trace) :
      Transition r s j { j with backupSnapshot := some backup, phase := .backupVerified }
  | store (key : Key) (hp : j.phase = .backupVerified ∨ j.phase = .credentialReady)
      (hk : .credentialStored r.id key ∈ s.trace) :
      Transition r s j { j with phase := .credentialReady }
  | prepare (hp : j.phase = .credentialReady) :
      Transition r s j { j with bootBefore := some s.bootId, phase := .packageStaging }
  | stage (hp : j.phase = .packageStaging)
      (hs : .staged (packagesDirectory r.id) s.bootId ∈ s.trace) :
      Transition r s j { j with phase := .rebootPending }
  | confirm (boot : String) (hp : j.phase = .rebootPending) (hb : j.bootBefore = some boot)
      (hne : s.bootId ≠ boot) (hi : digest s.inventory = r.installedAfter)
      (hr : s.replayed (packagesDirectory r.id) r.baseline = true) :
      Transition r s j { j with phase := .runtimePending }
  | install (hp : j.phase = .runtimePending) : Transition r s j { j with phase := .runtimeInstalled }
  | persist (hp : j.phase = .runtimeInstalled) (ha : .accepted r.id s.bootId ∈ s.trace) :
      Transition r s j { j with runtimeBootBefore := some s.bootId, phase := .persistenceReboot }
  | close (boot : String) (hp : j.phase = .persistenceReboot)
      (hb : j.runtimeBootBefore = some boot) (hne : s.bootId ≠ boot)
      (ha : .accepted r.id s.bootId ∈ s.trace) :
      Transition r s j { j with phase := .closed }
  | reclose (hp : j.phase = .closed) : Transition r s j { j with phase := .closed }
  | undo (phase : Phase) (hp : phase = .rolledBack ∨ phase = .recoveryRequired)
      (hc : (s.previous r.id).any (·.complete) = true) :
      Transition r s j { j with phase := phase }

/-- What a process may leave in the trace, journal writes and the credential apart. -/
def Noted (r : Release) (s : Machine) : Mark → Prop
  | .snapshotTaken id _ => id = r.id
  | .acknowledged id d => id = r.id ∧ (s.journalOf r.id).snapshotSha256 = some d ∧
      ((s.journalOf r.id).phase = .snapshotReady ∨ (s.journalOf r.id).phase = .backupVerified)
  | .credentialStored _ _ => False
  | .staged directory boot => directory = packagesDirectory r.id ∧ boot = s.bootId ∧
      (s.journalOf r.id).phase = .packageStaging ∧ (s.journalOf r.id).bootBefore = some s.bootId
  | .installed id _ => id = r.id ∧ (s.journalOf r.id).phase = .runtimePending
  | .accepted id boot => id = r.id ∧ boot = s.bootId
  | .recorded _ _ _ => False

/-- The steps of a process of release `r`. -/
inductive HostStep (r : Release) (K : Key → Prop) (s : Machine) : Machine → Prop
  | quiet {s' : Machine} (h : Frame s s') : HostStep r K s s'
  | note (e : Mark) (h : Noted r s e) : HostStep r K s (s.mark e)
  | save (j : Journal) (h : Transition r s (s.journalOf r.id) j) :
      HostStep r K s ((s.setJournal r.id j).mark (.recorded r.id j.phase (s.view r)))
  | capture (p : Previous) (hp : (s.journalOf r.id).phase = .new)
      (hnew : (s.previous r.id).any (·.complete) = false)
      (hc : p.complete = true → p.indexed ∧ ∀ c, p.offers .credential c →
        c = Node.bytes? (s.files .credential)) :
      HostStep r K s (s.setPrevious r.id p)
  | track (p q : Previous) (hq : s.previous r.id = some q) (hcomplete : p.complete = q.complete)
      (hc : q.indexed → p.indexed ∧ ∀ c, p.offers .credential c → q.offers .credential c) :
      HostStep r K s (s.setPrevious r.id p)
  | store (key : Key) (nonce : String) (hk : K key)
      (hp : (s.journalOf r.id).phase = .backupVerified ∨
        (s.journalOf r.id).phase = .credentialReady) :
      HostStep r K s ((s.setNode .credential (some (.file (.sealed key nonce) .rootPrivate))).mark
        (.credentialStored r.id key))
  | restore (node : Option Node) (q : Previous) (hq : s.previous r.id = some q)
      (hcomplete : q.complete = true) (hp : (s.journalOf r.id).phase ≠ .closed)
      (hc : q.offers .credential (Node.bytes? node)) :
      HostStep r K s (s.setNode .credential node)

/-- Any number of steps. -/
abbrev Moves (r : Release) (K : Key → Prop) : Machine → Machine → Prop :=
  Relation.ReflTransGen (HostStep r K)

/-! Tasks that leave the frame alone. -/

namespace Frame

theorem refl (s : Machine) : Frame s s := ⟨rfl, rfl, rfl, rfl, rfl⟩

theorem trans {s s' s'' : Machine} (h : Frame s s') (h' : Frame s' s'') : Frame s s'' where
  journals := h'.journals.trans h.journals
  previous := h'.previous.trans h.previous
  credential := h'.credential.trans h.credential
  bootId := h'.bootId.trans h.bootId
  trace := h'.trace.trans h.trace

theorem journalOf {s s' : Machine} (h : Frame s s') (id : ReleaseId) :
    s'.journalOf id = s.journalOf id := by
  simp only [Machine.journalOf, h.journals]

theorem setNode (s : Machine) {place : Place} (node : Option Node) (h : place ≠ .credential) :
    Frame s (s.setNode place node) where
  journals := rfl
  previous := rfl
  credential := by rw [Machine.setNode_other _ _ _ _ (Ne.symm h)]
  bootId := rfl
  trace := rfl

/-- Owner and mode are not part of the content. -/
theorem setMeta (s : Machine) (place : Place) (f : Meta → Meta) : Frame s (s.setMeta place f) := by
  unfold Machine.setMeta
  split
  · next bytes info hfile =>
    refine ⟨rfl, rfl, ?_, rfl, rfl⟩
    by_cases h : place = .credential
    · subst h; simp [hfile, Node.bytes?]
    · rw [Machine.setNode_other _ _ _ _ (Ne.symm h)]
  · exact refl s

theorem copyNode (s : Machine) {source target : Place} (h : target ≠ .credential) :
    Frame s (s.copyNode source target) := by
  unfold Machine.copyNode
  split
  · exact setNode s _ h
  · exact refl s

theorem hardenEnvFile (s : Machine) : Frame s s.hardenEnvFile := by
  unfold Machine.hardenEnvFile
  split
  · exact setNode s _ (by simp)
  · exact refl s

end Frame

/-- Nothing changes but which services run. -/
def Serviced (s s' : Machine) : Prop := ∃ active manager, s' = { s with
  active := active
  userManager := manager }

theorem Serviced.refl (s : Machine) : Serviced s s := ⟨s.active, s.userManager, rfl⟩

theorem Serviced.trans {s s' s'' : Machine} (h : Serviced s s') (h' : Serviced s' s'') :
    Serviced s s'' := by
  obtain ⟨a, u, rfl⟩ := h
  obtain ⟨a', u', rfl⟩ := h'
  exact ⟨a', u', rfl⟩

theorem Serviced.frame {s s' : Machine} (h : Serviced s s') : Frame s s' := by
  obtain ⟨a, u, rfl⟩ := h
  exact ⟨rfl, rfl, rfl, rfl, rfl⟩

/-- A task whose runs stay in the frame. -/
abbrev Quiet (x : Task Machine α) : Prop := Stays Frame x

/-- A task that starts and stops services only. -/
abbrev Services (x : Task Machine α) : Prop := Stays Serviced x

/-- A quiet task keeps what depends on the frame only. -/
theorem Quiet.keeps {x : Task Machine α} (hx : Quiet x) {I : Machine → Prop}
    (hI : ∀ s s', Frame s s' → I s → I s') : Keeps I x :=
  Stays.keeps hx Frame.refl hI

theorem Services.keeps {x : Task Machine α} (hx : Services x) {I : Machine → Prop}
    (hI : ∀ s a u, I s → I { s with
      active := a
      userManager := u }) : Keeps I x := by
  refine Stays.keeps hx Serviced.refl ?_
  intro s s' ⟨a, u, h⟩ hs
  rw [h]
  exact hI s a u hs

theorem Services.quiet {x : Task Machine α} (hx : Services x) : Quiet x :=
  hx.mono Serviced.refl (fun _ _ _ => Frame.trans) (fun _ _ => Serviced.frame)

section Stays

variable {I : Machine → Prop} {R : Machine → Machine → Prop} {can : Machine → Bool}
  {effect : Moment → Machine → Machine} {output : Moment → Machine → α}

theorem asHermes_triple {Q : α → Machine → Prop} {E : Exc → Machine → Prop}
    (hok : ∀ m s, I s → s.account.isSome → can s = true → Q (output m s) (effect m s))
    (herr : ∀ e s, I s → E e s)
    (htook : ∀ e m s, I s → s.account.isSome → can s = true → E e (effect m s)) :
    Triple I (asHermes can effect output) Q E := by
  unfold asHermes
  refine Triple.bind (Triple.read (Q := fun s₀ s => I s ∧ s₀ = s) (fun _ hs => ⟨hs, rfl⟩))
    (fun s₀ => Triple.ite (fun _ => Triple.raise (fun s hs => herr _ s hs.1)) (fun hsome => ?_))
  have haccount : s₀.account.isSome := by
    cases h : s₀.account with
    | none => exact absurd (by rw [h]; rfl) hsome
    | some _ => rfl
  exact run_triple (fun m s hs => hok m s hs.1 (hs.2 ▸ haccount)) (fun e s hs => herr e s hs.1)
    (fun e m s hs => htook e m s hs.1 (hs.2 ▸ haccount))

theorem asHermes_keeps (h : ∀ m s, I s → can s = true → I (effect m s)) :
    Keeps I (asHermes can effect output) :=
  asHermes_triple (fun m s hs _ => h m s hs) (fun _ _ hs => hs) (fun _ m s hs _ => h m s hs)

theorem quiet_run (h : ∀ m s, Frame s (effect m s)) : Quiet (run can effect output) :=
  stays_run (fun _ _ _ => Frame.trans) h

theorem quiet_update {f : Machine → Machine} (h : ∀ s, Frame s (f s)) :
    Quiet (Proc.update f : Task Machine Unit) :=
  stays_update (fun _ _ _ => Frame.trans) h

theorem quiet_atomic (h : ∀ m s, Frame s (effect m s)) : Quiet (atomic effect) :=
  stays_atomic (fun _ _ _ => Frame.trans) h

theorem quiet_asHermes (h : ∀ m s, Frame s (effect m s)) : Quiet (asHermes can effect output) :=
  fun _ => asHermes_keeps (fun m s hs _ => hs.trans (h m s))

theorem services_run (h : ∀ m s, Serviced s (effect m s)) : Services (run can effect output) :=
  fun _ => run_keeps (fun m s hs _ => hs.trans (h m s))

theorem services_asHermes (h : ∀ m s, Serviced s (effect m s)) :
    Services (asHermes can effect output) :=
  fun _ => asHermes_keeps (fun m s hs _ => hs.trans (h m s))

theorem stays_onlyIf {c : Bool} {x : Task Machine Unit} (h : Stays R x) : Stays R (onlyIf c x) :=
  fun s₀ => onlyIf_keeps (h s₀)

theorem stays_require {c : Bool} {reason : String} {code : Nat} :
    Stays R (require c reason code) :=
  fun _ => require_keeps

theorem stays_instant : Stays R instant := fun _ => instant_keeps

theorem stays_query : Stays R (query can output) := fun _ => query_keeps

end Stays

/-- Tasks that only look keep everything. -/
theorem luksTokens_keeps {σ : Type} {I : σ → Prop} (luks : Json) : Keeps I (luksTokens luks) := by
  unfold luksTokens
  cases luks.fields? with
  | none => exact Triple.raise (fun _ h => h)
  | some _ =>
    cases luks.get "tokens" with
    | none => exact Triple.pure' (fun _ h => h)
    | some value =>
      cases value with
      | obj fields => exact Triple.pure' (fun _ h => h)
      | null | bool _ | int _ | float _ | str _ | arr _ => exact Triple.raise (fun _ h => h)

theorem checkTokens_keeps {σ : Type} {I : σ → Prop} (tokens : List Json) :
    Keeps I (checkTokens tokens) := by
  unfold checkTokens
  refine Triple.ite (fun _ => ?_) (fun _ => Triple.raise (fun _ h => h))
  exact Triple.bind require_keeps (fun _ => require_keeps)

theorem look_keeps {σ : Type} {I : σ → Prop} : Keeps I (command (fun _ => true) (fun _ s => s)) :=
  run_keeps (fun _ _ h _ => h)

theorem preflight_keeps {σ : Type} {I : σ → Prop} : Keeps I (preflight : Task σ Unit) := by
  unfold preflight
  refine Triple.bind instant_keeps (fun _ => Triple.bind require_keeps (fun _ => ?_))
  refine Triple.bind query_keeps (fun _ => Triple.bind require_keeps (fun _ => ?_))
  refine Triple.bind look_keeps (fun _ => Triple.bind query_keeps (fun _ => ?_))
  refine Triple.bind require_keeps (fun _ => Triple.bind look_keeps (fun _ => ?_))
  refine Triple.bind look_keeps (fun _ => Triple.bind instant_keeps (fun _ => ?_))
  refine Triple.bind require_keeps (fun _ => Triple.bind query_keeps (fun _ => ?_))
  exact Triple.bind (luksTokens_keeps _) (fun _ => checkTokens_keeps _)

/-! Tasks that start and stop services. -/

theorem services_look : Services (command (fun _ => true) (fun _ s => s)) := fun _ => look_keeps

theorem services_accountEntry : Services accountEntry := by
  refine Stays.bind Stays.read (fun s => ?_)
  cases s.account with
  | none => exact Stays.raise _
  | some account => exact Stays.pure' account

theorem services_startManager : Services startManager :=
  services_run (fun _ _ => ⟨_, _, rfl⟩)

theorem services_healthy (image : String) : Services (healthy image) := by
  unfold healthy
  refine Stays.bind (services_asHermes (fun _ s => Serviced.refl s)) (fun _ => ?_)
  refine Stays.bind stays_require (fun _ => Stays.bind stays_require (fun _ => ?_))
  exact Stays.bind stays_require (fun _ => Stays.bind stays_require (fun _ => stays_require))

theorem services_waitHealth (image : String) : Services (waitHealth image) := by
  unfold waitHealth
  generalize 36 = n
  induction n with
  | zero => exact Stays.raise _
  | succ n ih => exact Stays.handle (services_healthy image) (fun _ => Stays.ite ih (Stays.raise _))

theorem services_stopService : Services stopService :=
  services_asHermes (fun _ _ => ⟨_, _, rfl⟩)

theorem services_restartService : Services restartService :=
  services_asHermes (fun _ _ => ⟨_, _, rfl⟩)

theorem services_reloadService : Services reloadService :=
  services_asHermes (fun _ s => Serviced.refl s)

theorem services_restartCredentials : Services restartCredentials := by
  refine services_run (fun m s => ?_)
  split
  · split
    · exact ⟨_, _, rfl⟩
    · exact Serviced.refl s
  · exact Serviced.refl s

theorem services_previousImage : Services previousImage := by
  refine Stays.bind services_accountEntry (fun account => Stays.bind Stays.read (fun s => ?_))
  split
  · split
    · exact Stays.pure' _
    · exact Stays.raise _
  · exact Stays.raise _
  · exact Stays.raise _

theorem services_restartAfter (active : Bool) : Services (restartAfter active) := by
  unfold restartAfter restartRestored
  refine Stays.handle (Stays.bind ?_ (fun _ => Stays.pure' true))
    (fun _ => Stays.ite (Stays.pure' false) (Stays.raise _))
  refine Stays.bind services_look (fun _ => Stays.bind Stays.read (fun s => ?_))
  refine Stays.bind (stays_onlyIf ?_) (fun _ => ?_)
  · exact Stays.bind services_restartCredentials
      (fun _ => Stays.bind services_accountEntry (fun _ => services_startManager))
  refine Stays.bind services_reloadService (fun _ => stays_onlyIf ?_)
  exact Stays.bind services_restartService
    (fun _ => Stays.bind services_previousImage (fun _ => services_waitHealth _))

theorem services_quiesce : Services quiesce :=
  Stays.handle services_stopService (fun _ => Stays.ite (Stays.pure' ()) (Stays.raise _))

theorem services_serviceActive : Services serviceActive :=
  Stays.handle (services_asHermes (fun _ s => Serviced.refl s))
    (fun _ => Stays.ite (Stays.pure' false) (Stays.raise _))

/-! Tasks that stay in the frame. -/

/-- `identity` makes the account and its data directory, and starts its user manager. -/
theorem identity_keeps {I : Machine → Prop} (hI : ∀ s account dataDir active manager, I s →
    I { s with
      account := account
      dataDir := dataDir
      active := active
      userManager := manager }) : Keeps I identity := by
  have hservices : ∀ {β : Type} {x : Task Machine β}, Services x → Keeps I x :=
    fun hx => hx.keeps (fun s a u h => hI s s.account s.dataDir a u h)
  unfold identity
  refine Triple.bind (Triple.read (Q := fun _ => I) (fun _ h => h)) (fun _ => ?_)
  refine Triple.bind (onlyIf_keeps (run_keeps (fun _ s h _ => hI s _ s.dataDir s.active s.userManager h)))
    (fun _ => ?_)
  refine Triple.bind (hservices services_accountEntry) (fun account => ?_)
  refine Triple.bind require_keeps (fun _ => Triple.bind instant_keeps (fun _ => ?_))
  refine Triple.bind require_keeps (fun _ => Triple.bind require_keeps (fun _ => ?_))
  refine Triple.bind look_keeps (fun _ => Triple.bind look_keeps (fun _ => ?_))
  refine Triple.bind (hservices services_startManager) (fun _ => ?_)
  refine Triple.bind (asHermes_keeps (fun _ s h _ => hI s s.account _ s.active s.userManager h))
    (fun _ => ?_)
  refine Triple.bind instant_keeps (fun _ => Triple.bind require_keeps (fun _ => ?_))
  exact Triple.pure' (fun _ h => h)

theorem quiet_identity : Quiet identity :=
  fun _ => identity_keeps (fun _ _ _ _ _ h => h.trans ⟨rfl, rfl, rfl, rfl, rfl⟩)

theorem quiet_mkdir : Quiet mkdir := quiet_atomic (fun _ s => Frame.refl s)

theorem quiet_chmod (place : Place) (mode : Nat) : Quiet (chmod place mode) :=
  quiet_atomic (fun _ s => Frame.setMeta s place _)

theorem stays_protectedFile {R : Machine → Machine → Prop} (place : Place) :
    Stays R (protectedFile place) := by
  refine Stays.bind Stays.read (fun s => ?_)
  cases s.files place with
  | none => exact Stays.raise _
  | some node =>
    cases node with
    | link => exact Stays.raise _
    | file bytes info =>
      refine Stays.bind stays_require (fun _ => Stays.bind stays_require (fun _ => ?_))
      refine Stays.bind stays_instant (fun _ => Stays.bind stays_require (fun _ => ?_))
      exact Stays.pure' bytes

theorem quiet_protectedFile (place : Place) : Quiet (protectedFile place) :=
  stays_protectedFile place

theorem quiet_readApplicationFile (place : Place) : Quiet (readApplicationFile place) :=
  Stays.ite (quiet_asHermes (fun _ s => Frame.refl s)) (quiet_protectedFile place)

theorem quiet_installFile (content : String) {place : Place} (mode : Nat)
    (h : place ≠ .credential) : Quiet (installFile none content place mode) := by
  unfold installFile
  refine Stays.bind Stays.read (fun _ => Stays.bind stays_require (fun _ => ?_))
  refine Stays.bind quiet_mkdir (fun _ => Stays.bind ?_ (fun _ => quiet_chmod _ _))
  exact quiet_atomic (fun _ s => Frame.setNode s _ h)

theorem quiet_installBoot (r : Release) : Quiet (installBoot r) := by
  unfold installBoot
  refine Stays.bind services_look.quiet (fun _ => Stays.bind stays_instant (fun _ => ?_))
  refine Stays.bind stays_require (fun _ => Stays.bind ?_ (fun _ => Stays.pure' _))
  exact quiet_installFile _ _ (by simp)

/-- A script keeps what each of its steps keeps. -/
theorem script_keeps {I : Machine → Prop} {can : Machine → Bool}
    {steps : List (Moment → Machine → Machine)} (h : ∀ f ∈ steps, ∀ m s, I s → I (f m s)) :
    Keeps I (script can steps) := by
  have hfold : ∀ (fs : List (Moment → Machine → Machine)) m s, (∀ f ∈ fs, ∀ m s, I s → I (f m s)) →
      I s → I (fs.foldl (fun s f => f m s) s) := by
    intro fs m
    induction fs with
    | nil => exact fun s _ hs => hs
    | cons f fs ih =>
      exact fun s hfs hs => ih _ (fun g hg => hfs g (by simp [hg])) (hfs f (by simp) m s hs)
  refine Triple.perform (fun _ hs => hs) ?_
  intro m s hs r s' hr
  have hsome := hfold (steps.take m.progress) m s (fun f hf => h f (List.mem_of_mem_take hf)) hs
  split at hr
  · split at hr <;> cases hr
    · exact hfold steps m s h hs
    · exact hs
  · cases hr
    show I _
    split
    · exact hsome
    · exact hs

theorem inContainer_keeps {I : Machine → Prop} {steps : List (Moment → Machine → Machine)}
    (h : ∀ f ∈ steps, ∀ m s, I s → I (f m s)) : Keeps I (inContainer steps) := by
  unfold inContainer
  refine Triple.bind (Triple.read (Q := fun _ => I) (fun _ hs => hs)) (fun _ => ?_)
  exact Triple.ite (fun _ => Triple.raise (fun _ hs => hs)) (fun _ => script_keeps h)

theorem quiet_inContainer {steps : List (Moment → Machine → Machine)}
    (h : ∀ f ∈ steps, ∀ m s, Frame s (f m s)) : Quiet (inContainer steps) :=
  fun _ => inContainer_keeps (fun f hf m s hs => hs.trans (h f hf m s))

theorem quiet_hardenConfig : Quiet hardenConfig := by
  refine quiet_inContainer ?_
  intro f hf m s
  simp only [hardenSteps, List.mem_cons, List.not_mem_nil, or_false] at hf
  rcases hf with rfl | rfl | rfl | rfl
  · exact Frame.copyNode s (by simp)
  · exact Frame.setNode s _ (by simp)
  · exact Frame.copyNode s (by simp)
  · exact Frame.hardenEnvFile s

theorem quiet_setModel : Quiet setModel := by
  refine quiet_inContainer ?_
  intro f hf m s
  simp only [List.mem_cons, List.not_mem_nil, or_false] at hf
  subst hf
  exact Frame.setNode s _ (by simp)

end Hermes

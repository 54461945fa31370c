import Hermes.SimpleSteps

/- What the journal of the simple installer knows of its attempt.

   `Accounts a st h`: the attempt that found `a` has left the host as `h`, and the journal
   `st` accounts for every difference: a file that changed is recorded with its content, a
   credential that is new was announced, and the application data of a deployment before is
   as it was or in a backup. Every process keeps this between any two of its operations, and
   so does a recovery, also one that stops half way. -/
namespace Hermes.Simple
open Process

variable {α : Type}

/-- The recovery removes the account, with what is in its home. -/
def Undone.removes (u : Undone) : Bool := u.state.previous.isNone && u.state.createdAccount

/-- What a recovery that found `u` leaves of an attempt that found `a`. -/
structure Outcome (a : Before) (u : Undone) (h : Host) : Prop where
  files : h.files = a.files
  data : h.data = if u.removes then none
    else if u.state.backup.isSome then some (a.data.getD "") else u.data
  key : h.key = if u.removes && u.state.createdCredential then none else u.key

/-- The journal `st` accounts for what the attempt that found `a` has changed on `h`. -/
structure Accounts (a : Before) (st : State) (h : Host) : Prop where
  files : ∀ p, (∃ r, (p, r) ∈ st.files) ∨ h.files p = a.files p
  records : ∀ f ∈ st.files, f.2 = a.files f.1
  key : a.key.isSome = true → h.key = a.key
  credential : h.key = a.key ∨ st.createdCredential = true
  created : st.createdCredential = true → a.key = none
  /-- a first installation found no application data, and makes no backup -/
  fresh : st.previous = none → a.data = none ∧ st.backup = none
  kept : st.previous.isSome = true → st.backup = none →
    h.data = a.data ∨ a.data = none ∧ h.data = some ""
  backup : ∀ id, st.backup = some id → st.backupSha256 = some (digest (a.data.getD ""))
  /-- an upgrade is not offered for access without a backup -/
  late : st.phase = some .awaitingAccess ∨ st.phase = some .accessConfirmed →
    st.previous.isSome = true → st.backup.isSome = true

namespace Accounts

variable {a : Before} {st : State} {h : Host}

/-- Only files, credential and data of the host count. -/
theorem host (hs : Accounts a st h) {g : Host} (hf : g.files = h.files) (hk : g.key = h.key)
    (hd : g.data = h.data) : Accounts a st g where
  files := by rw [hf]; exact hs.files
  records := hs.records
  key := by rw [hk]; exact hs.key
  credential := by rw [hk]; exact hs.credential
  created := hs.created
  fresh := hs.fresh
  kept := by rw [hd]; exact hs.kept
  backup := hs.backup
  late := hs.late

/-- A file that is recorded may change. -/
theorem setFile (hs : Accounts a st h) {path : Path} (file : Option File)
    (hp : (∃ r, (path, r) ∈ st.files) ∨ file = a.files path) :
    Accounts a st (h.setFile path file) :=
  { hs with
    files := by
      intro p
      by_cases hpath : p = path
      · subst hpath
        cases hp with
        | inl h' => exact .inl h'
        | inr h' => exact .inr (by simp [Host.setFile, h'])
      · simp only [Host.setFile, hpath, if_false]
        exact hs.files p }

/-- The data of a first installation may change, and so may data of which there is a backup. -/
theorem setData (hs : Accounts a st h) {h' : Host} (hf : h'.files = h.files) (hk : h'.key = h.key)
    (hd : st.previous.isSome = true → st.backup = none →
      h'.data = a.data ∨ a.data = none ∧ h'.data = some "") : Accounts a st h' :=
  { hs.host (g := { h' with data := h.data }) hf hk rfl with kept := hd }

/-- A credential that was announced may come and go. -/
theorem setKey (hs : Accounts a st h) {h' : Host} (hf : h'.files = h.files)
    (hd : h'.data = h.data) (hc : st.createdCredential = true) : Accounts a st h' :=
  { hs.host (g := { h' with key := h.key }) hf rfl hd with
    key := fun h₁ => by rw [hs.created hc] at h₁; cases h₁
    credential := .inr hc }

/-- The credential may go where there was none. -/
theorem removeKey (hs : Accounts a st h) (hnone : a.key = none) :
    Accounts a st { h with key := none } :=
  { hs.host (g := h) rfl rfl rfl with
    files := hs.files
    kept := hs.kept
    key := fun h₁ => by rw [hnone] at h₁; cases h₁
    credential := .inl hnone.symm }

/-- Guard, account, uid and phase of the journal may change. -/
theorem journal (hs : Accounts a st h) {st' : State} (hf : st'.files = st.files)
    (hc : st'.createdCredential = st.createdCredential) (hp : st'.previous = st.previous)
    (hb : st'.backup = st.backup) (hsha : st'.backupSha256 = st.backupSha256)
    (hl : st'.phase = some .awaitingAccess ∨ st'.phase = some .accessConfirmed →
      st'.previous.isSome = true → st'.backup.isSome = true) : Accounts a st' h where
  files := by rw [hf]; exact hs.files
  records := by rw [hf]; exact hs.records
  key := hs.key
  credential := by rw [hc]; exact hs.credential
  created := by rw [hc]; exact hs.created
  fresh := by rw [hp, hb]; exact hs.fresh
  kept := by rw [hp, hb]; exact hs.kept
  backup := by rw [hb, hsha]; exact hs.backup
  late := hl

/-- A file is recorded before it changes. -/
theorem track (hs : Accounts a st h) {path : Path} (hno : ∀ r, (path, r) ∉ st.files) :
    Accounts a { st with files := st.files ++ [(path, h.files path)] } h :=
  { hs with
    files := by
      intro p
      cases hs.files p with
      | inl h' =>
        obtain ⟨r, hr⟩ := h'
        exact .inl ⟨r, by simp [hr]⟩
      | inr h' => exact .inr h'
    records := by
      intro f hf
      simp only [List.mem_append, List.mem_singleton] at hf
      cases hf with
      | inl h' => exact hs.records f h'
      | inr h' =>
        subst h'
        cases hs.files path with
        | inl h' => obtain ⟨r, hr⟩ := h'; exact absurd hr (hno r)
        | inr h' => exact h' }

/-- A credential is announced where there is none. -/
theorem announce (hs : Accounts a st h) (hnone : h.key = none) :
    Accounts a { st with createdCredential := true } h :=
  { hs with
    credential := .inr rfl
    created := fun _ => by
      cases hk : a.key with
      | none => rfl
      | some k =>
        have hsome := hs.key (by rw [hk]; rfl)
        rw [hnone, hk] at hsome
        cases hsome }

/-- The backup of data that are as they were, or were created empty. -/
theorem snapshot (hs : Accounts a st h) (hp : st.previous.isSome = true) (hb : st.backup = none)
    (id : String) (phase : Option Phase) :
    Accounts a
      { st with
        backup := some id
        backupSha256 := some (digest (h.data.getD ""))
        phase := phase } h :=
  { hs with
    fresh := fun hn => by rw [hn] at hp; cases hp
    kept := fun _ hno => by cases hno
    backup := fun _ _ => by
      cases hs.kept hp hb with
      | inl h' => rw [h']
      | inr h' => rw [h'.1, h'.2]; rfl
    late := fun _ _ => rfl }

end Accounts

/-- An attempt that is rolled back was undone from a state that the journal accounted for. -/
def Settled (a : Before) (st : State) (h : Host) : Prop :=
  st.phase = some .rolledBack → ∃ u h', h.undone = some u ∧ Outcome a u h ∧
    Accounts a u.state h' ∧ h'.key = u.key ∧ h'.data = u.data

theorem Settled.host {a : Before} {st : State} {h h' : Host} (hs : Settled a st h)
    (hf : h'.files = h.files) (hk : h'.key = h.key) (hd : h'.data = h.data)
    (hu : h'.undone = h.undone) : Settled a st h' := by
  intro hphase
  obtain ⟨u, x, hundone, hout, hx⟩ := hs hphase
  exact ⟨u, x, hu.trans hundone, ⟨hf.trans hout.files, hd.trans hout.data, hk.trans hout.key⟩, hx⟩

theorem settled_of_open {a : Before} {st : State} {h : Host} (hopen : st.phase ≠ some .rolledBack) :
    Settled a st h :=
  fun hphase => absurd hphase hopen

/-! The sessions of a process. -/

/-- What is known of phase, deployment before and backup of the journal. -/
abbrev Facts : Type := Option Phase → Option Config → Option String → Prop

/-- Nothing. -/
def anyFacts : Facts := fun _ _ _ => True

/-- No file. -/
def noFiles : Path → Prop := fun _ => False

/-- Journal and memory account for the attempt. -/
def Accounted (s : Session) : Prop :=
  ∀ a, s.host.before = some a → Accounts a s.state s.host ∧
    ∃ st, s.host.journal = some st ∧ Accounts a st s.host ∧ Settled a st s.host ∧
      st.previous = s.state.previous ∧
      (st.phase = some .rolledBack → s.state.phase = some .rolledBack)

/-- The attempt is not rolled back. -/
def Open (s : Session) : Prop := s.state.phase ≠ some .rolledBack

/-- The memory accounts for the attempt with `k`, and has recorded the files `T`. -/
def Drafted (k : Facts) (T : Path → Prop) (s : Session) : Prop :=
  Accounted s ∧ Open s ∧ ∀ a, s.host.before = some a →
    k s.state.phase s.state.previous s.state.backup ∧ ∀ p, T p → ∃ r, (p, r) ∈ s.state.files

/-- The journal is what the memory has. -/
def Synced (k : Facts) (T : Path → Prop) (s : Session) : Prop :=
  Drafted k T s ∧ ∀ a, s.host.before = some a → s.host.journal = some s.state

/-- The journal of the host accounts for its attempt. -/
def Kept (h : Host) : Prop :=
  ∀ a, h.before = some a → ∃ st, h.journal = some st ∧ Accounts a st h ∧ Settled a st h

/-- An effect of which neither the journal nor the attempt knows. -/
structure Plain (f : Host → Host) (h : Host) : Prop where
  before : (f h).before = h.before
  journal : (f h).journal = h.journal
  files : (f h).files = h.files
  key : (f h).key = h.key
  data : (f h).data = h.data
  undone : (f h).undone = h.undone

theorem plain_id (h : Host) : Plain (fun h => h) h := ⟨rfl, rfl, rfl, rfl, rfl, rfl⟩

section Sessions

variable {k : Facts} {T : Path → Prop} {s : Session}

theorem Synced.accounted (hs : Synced k T s) : Accounted s := hs.1.1

theorem Accounted.kept (hs : Accounted s) : Kept s.host := by
  intro a ha
  obtain ⟨_, st, hj, hst, hset, _⟩ := hs a ha
  exact ⟨st, hj, hst, hset⟩

theorem Synced.weaken (hs : Synced k T s) {k' : Facts} {T' : Path → Prop}
    (hk : ∀ ph pv b, k ph pv b → k' ph pv b) (hT : ∀ p, T' p → T p) : Synced k' T' s := by
  refine ⟨⟨hs.1.1, hs.1.2.1, fun a ha => ?_⟩, hs.2⟩
  obtain ⟨hfacts, htracked⟩ := hs.1.2.2 a ha
  exact ⟨hk _ _ _ hfacts, fun p hp => htracked p (hT p hp)⟩

/-- An effect on the host of an open attempt that journal and memory account for. -/
theorem Accounted.effect (hs : Accounted s) (hopen : Open s) {f : Host → Host}
    (hb : (f s.host).before = s.host.before) (hj : (f s.host).journal = s.host.journal)
    (hf : ∀ a st, s.host.before = some a → Accounts a st s.host →
      st.previous = s.state.previous → st = s.state ∨ s.host.journal = some st →
      Accounts a st (f s.host)) : Accounted (s.onHost f) := by
  intro a ha
  have ha' : s.host.before = some a := hb.symm.trans ha
  obtain ⟨hm, st, hst, hacc, _, hp, hlink⟩ := hs a ha'
  refine ⟨hf a _ ha' hm rfl (.inl rfl), st, hj.trans hst, hf a st ha' hacc hp (.inr hst), ?_, hp, hlink⟩
  exact settled_of_open (fun h => hopen (hlink h))

theorem Synced.effect (hs : Synced k T s) {f : Host → Host}
    (hb : (f s.host).before = s.host.before) (hj : (f s.host).journal = s.host.journal)
    (hf : ∀ a, s.host.before = some a → Accounts a s.state s.host →
      k s.state.phase s.state.previous s.state.backup →
      (∀ p, T p → ∃ r, (p, r) ∈ s.state.files) → Accounts a s.state (f s.host)) :
    Synced k T (s.onHost f) := by
  refine ⟨⟨hs.accounted.effect hs.1.2.1 hb hj ?_, hs.1.2.1, ?_⟩, ?_⟩
  · intro a st ha hacc _ hst
    have hsame : st = s.state := by
      cases hst with
      | inl h' => exact h'
      | inr h' =>
        rw [hs.2 a ha] at h'
        exact (Option.some.inj h').symm
    subst hsame
    exact hf a ha hacc (hs.1.2.2 a ha).1 (hs.1.2.2 a ha).2
  · intro a ha
    exact hs.1.2.2 a (hb.symm.trans ha)
  · intro a ha
    exact hj.trans (hs.2 a (hb.symm.trans ha))

theorem Accounted.plain (hs : Accounted s) {f : Host → Host} (hp : Plain f s.host) :
    Accounted (s.onHost f) := by
  intro a ha
  obtain ⟨hm, st, hst, hacc, hset, hrest⟩ := hs a (hp.before.symm.trans ha)
  exact ⟨hm.host hp.files hp.key hp.data, st, hp.journal.trans hst,
    hacc.host hp.files hp.key hp.data, hset.host hp.files hp.key hp.data hp.undone, hrest⟩

theorem Synced.plain (hs : Synced k T s) {f : Host → Host} (hp : Plain f s.host) :
    Synced k T (s.onHost f) :=
  hs.effect hp.before hp.journal (fun _ _ hacc _ _ => hacc.host hp.files hp.key hp.data)

/-- What is in the backup repository does not matter. -/
theorem Synced.repository (hs : Synced k T s) (f : Host → String → Option String) :
    Synced k T (s.onHost fun h => { h with snapshots := f h }) :=
  hs.plain ⟨rfl, rfl, rfl, rfl, rfl, rfl⟩

theorem Kept.plain {h : Host} (hs : Kept h) {f : Host → Host} (hp : Plain f h) : Kept (f h) := by
  intro a ha
  obtain ⟨st, hj, hacc, hset⟩ := hs a (hp.before.symm.trans ha)
  exact ⟨st, hp.journal.trans hj, hacc.host hp.files hp.key hp.data,
    hset.host hp.files hp.key hp.data hp.undone⟩

theorem Accounted.timeless : Timeless Accounted :=
  fun _ _ hs => hs.plain ⟨rfl, rfl, rfl, rfl, rfl, rfl⟩

theorem Drafted.timeless : Timeless (Drafted k T) :=
  fun units s hs => ⟨Accounted.timeless units s hs.1, hs.2⟩

theorem Synced.timeless : Timeless (Synced k T) :=
  fun units s hs => ⟨Drafted.timeless units s hs.1, hs.2⟩

/-- A draft of the journal in memory. -/
theorem Synced.draft (hs : Synced k T s) {f : State → State} {k' : Facts} {T' : Path → Prop}
    (hp : (f s.state).previous = s.state.previous) (hopen : (f s.state).phase ≠ some .rolledBack)
    (hf : ∀ a, s.host.before = some a → Accounts a s.state s.host →
      k s.state.phase s.state.previous s.state.backup → Accounts a (f s.state) s.host ∧
      k' (f s.state).phase (f s.state).previous (f s.state).backup)
    (hT : ∀ p, T' p → (∃ r, (p, r) ∈ s.state.files) → ∃ r, (p, r) ∈ (f s.state).files)
    (hTT : ∀ p, T' p → T p) : Drafted k' T' (s.onState f) := by
  refine ⟨fun a ha => ?_, hopen, fun a ha => ?_⟩
  · obtain ⟨hm, st, hst, hacc, hset, hpv, hlink⟩ := hs.accounted a ha
    refine ⟨(hf a ha hm (hs.1.2.2 a ha).1).1, st, hst, hacc, hset, hpv.trans hp.symm, fun h => ?_⟩
    exact absurd (hlink h) hs.1.2.1
  · obtain ⟨hm, _⟩ := hs.accounted a ha
    exact ⟨(hf a ha hm (hs.1.2.2 a ha).1).2, fun p hp => hT p hp ((hs.1.2.2 a ha).2 p (hTT p hp))⟩

end Sessions

/-! The operations. -/

section Operations

variable {k : Facts} {T : Path → Prop} {name : String} {can : Host → Bool}
  {effect : Moment → Host → Host}

/-- What only looks, whatever comes of it. -/
theorem looks_sync {x : Action α} (hx : Keeps (Synced k T) x) :
    Triple (Synced k T) x (fun _ => Synced k T) (fun _ => Accounted) :=
  hx.mono (fun _ => id) (fun _ _ => id) (fun _ _ hs => hs.accounted)

theorem look_sync : Triple (Synced k T) look (fun _ => Synced k T) (fun _ => Accounted) :=
  looks_sync (look_triple Synced.timeless (fun _ _ => id))

theorem output_sync {canRun : Session → Bool} {output : Moment → Session → α} :
    Triple (Synced k T) (run name canRun (fun _ s => s) output) (fun _ => Synced k T)
      (fun _ => Accounted) :=
  looks_sync (output_keeps Synced.timeless)

theorem userOutput_sync {output : Moment → Host → α} :
    Triple (Synced k T) (userOutput can output) (fun _ => Synced k T) (fun _ => Accounted) :=
  looks_sync (userOutput_keeps Synced.timeless)

theorem check_sync {c : Bool} {reason : String} :
    Triple (Synced k T) (check c reason) (fun _ => Synced k T) (fun _ => Accounted) :=
  looks_sync check_keeps

theorem protect_sync : Triple (Synced k T) protect (fun _ => Synced k T) (fun _ => Accounted) :=
  looks_sync (protect_triple Synced.timeless (fun _ _ => id))

theorem read_sync : Triple (Synced k T) (Proc.read : Action Session)
    (fun a s => a = s ∧ Synced k T s) (fun _ => Accounted) :=
  Triple.read (fun _ hs => ⟨rfl, hs⟩)

theorem field_sync {value : State → Option α} :
    Triple (Synced k T) (field value) (fun _ => Synced k T) (fun _ => Accounted) :=
  (field_triple (fun _ _ hs => hs.accounted)).post (fun _ _ hs => hs.2)

theorem command_sync (hp : ∀ m h, Plain (effect m) h) :
    Triple (Synced k T) (command name can effect) (fun _ => Synced k T) (fun _ => Accounted) :=
  command_triple Synced.timeless (fun m s hs _ => hs.plain (hp m s.host))
    (fun _ _ hs => hs.accounted) (fun _ m s hs _ => (hs.plain (hp m s.host)).accounted)

theorem commandAllowed_sync (hp : ∀ m h, Plain (effect m) h) :
    Triple (Synced k T) (commandAllowed name can effect) (fun _ => Synced k T)
      (fun _ => Accounted) :=
  commandAllowed_triple Synced.timeless (fun _ hs => hs) (fun m s hs _ => hs.plain (hp m s.host))
    (fun _ _ hs => hs.accounted) (fun _ m s hs _ => (hs.plain (hp m s.host)).accounted)

theorem user_sync (hp : ∀ m h, Plain (effect m) h) :
    Triple (Synced k T) (user can effect) (fun _ => Synced k T) (fun _ => Accounted) :=
  user_triple Synced.timeless (fun m s hs _ => hs.plain (hp m s.host))
    (fun _ _ hs => hs.accounted) (fun _ m s hs _ => (hs.plain (hp m s.host)).accounted)

theorem change_sync (hp : ∀ m h, Plain (effect m) h) :
    Triple (Synced k T) (change effect) (fun _ => Synced k T) (fun _ => Accounted) :=
  change_triple Synced.timeless (fun m s hs => hs.plain (hp m s.host))
    (fun _ _ hs => hs.accounted) (fun _ m s hs => (hs.plain (hp m s.host)).accounted)

/-- The draft becomes the journal. -/
theorem save_noted {phase : Option Phase} {note : Host → Host} (hn : ∀ h, Plain note h)
    {P : Session → Prop}
    (hm : ∀ s, P s → Drafted k T (s.onState fun st => { st with phase := phase.or st.phase })) :
    Triple P (save phase note) (fun _ => Synced k T) (fun _ => Accounted) := by
  have hwritten : ∀ s, Drafted k T s →
      Synced k T (s.onHost fun h => note { h with journal := some s.state }) := by
    intro s hs
    have hp := hn { s.host with journal := some s.state }
    have hsame : ∀ a, (note { s.host with journal := some s.state }).before = some a →
        s.host.before = some a := fun a ha => hp.before.symm.trans ha
    refine ⟨⟨fun a ha => ?_, hs.2.1, fun a ha => hs.2.2 a (hsame a ha)⟩, fun a _ => hp.journal⟩
    have hacc := (hs.1 a (hsame a ha)).1.host (g := note { s.host with journal := some s.state })
      hp.files hp.key hp.data
    exact ⟨hacc, s.state, hp.journal, hacc, settled_of_open hs.2.1, rfl, id⟩
  exact save_triple (R := Drafted k T) Drafted.timeless hm hwritten (fun _ _ hs => hs.1)
    (fun _ s hs => (hwritten s hs).accounted)

theorem save_sync {phase : Option Phase} {P : Session → Prop}
    (hm : ∀ s, P s → Drafted k T (s.onState fun st => { st with phase := phase.or st.phase })) :
    Triple P (save phase) (fun _ => Synced k T) (fun _ => Accounted) :=
  save_noted (fun _ => ⟨rfl, rfl, rfl, rfl, rfl, rfl⟩) hm

/-- A save of what the journal has already. -/
theorem save_again : Triple (Synced k T) (save) (fun _ => Synced k T) (fun _ => Accounted) :=
  save_sync (fun _ hs => hs.1)

/-- The content of a file is recorded before it changes for the first time. -/
theorem track_sync (path : Path) :
    Triple (Synced k T) (track path) (fun _ => Synced k fun p => T p ∨ p = path)
      (fun _ => Accounted) := by
  refine Triple.bind protect_sync (fun _ => Triple.bind read_sync (fun a => ?_))
  refine Triple.ite (fun h => ?_) (fun h => ?_)
  · apply Triple.pure'
    intro s ⟨has, hs⟩
    subst has
    refine ⟨⟨hs.accounted, hs.1.2.1, fun b hb => ⟨(hs.1.2.2 b hb).1, fun p hp => ?_⟩⟩, hs.2⟩
    cases hp with
    | inl hp => exact (hs.1.2.2 b hb).2 p hp
    | inr hp =>
      obtain ⟨f, hf, hpath⟩ := List.any_eq_true.mp h
      have hfirst : f.1 = path := by simpa using hpath
      exact ⟨f.2, by rw [hp, ← hfirst]; exact hf⟩
  · have hno : ∀ r, (path, r) ∉ a.state.files := by
      intro r hr
      exact h (List.any_eq_true.mpr ⟨_, hr, by simp⟩)
    have ht : Timeless (fun s => a.state = s.state ∧ Synced k T s) :=
      fun units s hs => ⟨hs.1, Synced.timeless units s hs.2⟩
    refine Triple.bind (Q := fun _ s => a.state = s.state ∧ Synced k T s)
      ((pass_keeps ht (fun _ _ hs => hs.2.accounted)).pre ?_) (fun _ => ?_)
    · intro s hs
      exact ⟨by rw [hs.1], hs.2⟩
    refine Triple.bind (Triple.update (Q := fun _ => Drafted k fun p => T p ∨ p = path) ?_)
      (fun _ => save_sync (fun _ hs => hs))
    intro s ⟨has, hs⟩
    rw [has] at hno
    have hdraft : Drafted k T (s.onState fun st =>
        { st with files := st.files ++ [(path, s.host.files path)] }) := by
      refine hs.draft rfl ?_ ?_ ?_ ?_
      · exact hs.1.2.1
      · intro b _ hacc hk
        exact ⟨hacc.track hno, hk⟩
      · intro p _ h'
        obtain ⟨r, hr⟩ := h'
        exact ⟨r, by simp [hr]⟩
      · exact fun _ hp => hp
    refine ⟨hdraft.1, hdraft.2.1, fun b hb => ⟨(hdraft.2.2 b hb).1, fun p hp => ?_⟩⟩
    cases hp with
    | inl hp => exact (hdraft.2.2 b hb).2 p hp
    | inr hp => exact ⟨s.host.files path, by rw [hp]; simp [Session.onState]⟩

/-- A file that is recorded may be written. -/
theorem setFile_sync {path : Path} (hT : T path) (file : Option File) (s : Session)
    (hs : Synced k T s) : Synced k T (s.onHost (·.setFile path file)) :=
  hs.effect rfl rfl (fun _ _ hacc _ htracked => hacc.setFile file (.inl (htracked path hT)))

theorem write_sync (path : Path) (data : String) :
    Triple (Synced k T) (write path data) (fun _ => Synced k T) (fun _ => Accounted) := by
  refine Triple.bind (track_sync path) (fun _ => ?_)
  refine (writeFile_triple (Q := fun _ => Synced k fun p => T p ∨ p = path) Synced.timeless ?_
    (fun _ _ hs => hs.accounted) ?_).post ?_
  · exact setFile_sync (.inr rfl) _
  · intro _ s hs
    exact (setFile_sync (.inr rfl) _ s hs).accounted
  · intro _ s hs
    exact hs.weaken (fun _ _ _ h => h) (fun _ hp => .inl hp)

end Operations

/-! The steps of an attempt. -/

section Steps

variable {k : Facts} {T : Path → Prop}

/-- A note in the journal of which the attempt does not depend, and its save. -/
theorem note_sync {f : State → State} (hf : ∀ st, (f st).files = st.files)
    (hc : ∀ st, (f st).createdCredential = st.createdCredential)
    (hp : ∀ st, (f st).previous = st.previous) (hb : ∀ st, (f st).backup = st.backup)
    (hsha : ∀ st, (f st).backupSha256 = st.backupSha256) (hph : ∀ st, (f st).phase = st.phase) :
    Triple (Synced k T) (do
      Proc.update (·.onState f)
      save) (fun _ => Synced k T) (fun _ => Accounted) := by
  refine Triple.bind (Triple.update (Q := fun _ => Drafted k T) ?_) (fun _ => save_sync (fun _ hs => hs))
  intro s hs
  apply hs.draft (hp s.state) (by rw [hph]; exact hs.1.2.1)
  · intro a _ hacc hk
    rw [hph, hp, hb]
    exact ⟨hacc.journal (hf _) (hc _) (hp _) (hb _) (hsha _) (by rw [hph, hp, hb]; exact hacc.late), hk⟩
  · intro p _ h
    rw [hf]
    exact h
  · exact fun _ hT => hT

theorem arm_sync (seconds : Nat) :
    Triple (Synced k T) (arm seconds) (fun _ => Synced k T) (fun _ => Accounted) := by
  refine Triple.bind field_sync (fun token => ?_)
  have hnote : Triple (Synced k T) (do
      Proc.update (·.onState fun st => { st with guard := some (guardName token) })
      save) (fun _ => Synced k T) (fun _ => Accounted) :=
    note_sync (fun _ => rfl) (fun _ => rfl) (fun _ => rfl) (fun _ => rfl) (fun _ => rfl) (fun _ => rfl)
  have harm := Triple.bind hnote (fun _ => show Triple _ (command "systemd-run" (fun h => !h.timers (guardName token))
    (fun _ h => h.startTimer (guardName token))) _ _ from
    command_sync (fun _ _ => ⟨rfl, rfl, rfl, rfl, rfl, rfl⟩))
  rw [Proc.bind_assoc'] at harm
  exact harm

theorem disarm_sync : Triple (Synced k T) disarm (fun _ => Synced k T) (fun _ => Accounted) := by
  refine Triple.bind (read_sync.post (fun _ _ hs => hs.2)) (fun a => ?_)
  cases a.state.guard with
  | none => exact Triple.pure' (fun _ hs => hs)
  | some unit => exact commandAllowed_sync (fun _ _ => ⟨rfl, rfl, rfl, rfl, rfl, rfl⟩)

theorem setupRecovery_sync :
    Triple (Synced k T) setupRecovery (fun _ => Synced k T) (fun _ => Accounted) := by
  refine Triple.bind protect_sync (fun _ => ?_)
  refine Triple.bind (change_sync (fun _ _ => ⟨rfl, rfl, rfl, rfl, rfl, rfl⟩)) (fun _ => ?_)
  exact Triple.bind (command_sync (fun _ => plain_id)) (fun _ => command_sync (fun _ => plain_id))

theorem changeZone_sync {zone : String} (hT : T (.zone zone)) :
    Triple (Synced k T) (changeZone zone) (fun _ => Synced k T) (fun _ => Accounted) :=
  command_triple Synced.timeless (fun _ s hs _ => setFile_sync hT _ s hs)
    (fun _ _ hs => hs.accounted) (fun _ _ s hs _ => (setFile_sync hT _ s hs).accounted)

theorem configureAccess_sync :
    Triple (Synced k T) configureAccess (fun _ => Synced k T) (fun _ => Accounted) := by
  refine Triple.bind field_sync (fun config => Triple.bind (looks_sync (managementZone_keeps Synced.timeless)) (fun zone => ?_))
  refine Triple.bind check_sync (fun _ => Triple.bind (track_sync (.zone zone)) (fun _ => ?_))
  have hzone : (fun p => T p ∨ p = .zone zone) (.zone zone) := .inr rfl
  refine Triple.bind output_sync (fun _ => Triple.bind output_sync (fun _ => ?_))
  refine Triple.bind check_sync (fun _ => Triple.bind (write_sync _ _) (fun _ => ?_))
  refine Triple.bind (command_sync (fun _ => plain_id)) (fun _ => ?_)
  refine Triple.bind (changeZone_sync hzone) (fun _ => Triple.bind (changeZone_sync hzone) (fun _ => ?_))
  refine Triple.bind (changeZone_sync hzone) (fun _ => Triple.bind (changeZone_sync hzone) (fun _ => ?_))
  refine Triple.bind output_sync (fun _ => Triple.bind check_sync (fun _ => ?_))
  refine Triple.bind save_again (fun _ => ?_)
  refine Triple.bind (command_sync (fun _ _ => ⟨rfl, rfl, rfl, rfl, rfl, rfl⟩)) (fun _ => ?_)
  exact (command_sync (fun _ => plain_id)).post
    (fun _ _ hs => hs.weaken (fun _ _ _ h => h) (fun _ hp => .inl hp))

/-- `mkdir -p` makes an empty data directory where there is none. -/
theorem makeData_sync :
    Triple (Synced k T) (user (fun _ => true) (fun _ h => { h with data := some (h.data.getD "") }))
      (fun _ => Synced k T) (fun _ => Accounted) := by
  have hmade : ∀ s, Synced k T s →
      Synced k T (s.onHost fun h => { h with data := some (h.data.getD "") }) := by
    intro s hs
    apply hs.effect rfl rfl
    intro a _ hacc _ _
    refine hacc.setData ?_ ?_ (fun hp hb => ?_)
    · rfl
    · rfl
    cases hacc.kept hp hb with
    | inl h =>
      cases hd : a.data with
      | none => right; exact ⟨rfl, by rw [h, hd]; rfl⟩
      | some d => left; rw [h, hd]; rfl
    | inr h => right; exact ⟨h.1, by rw [h.2]; rfl⟩
  exact user_triple Synced.timeless (fun _ s hs _ => hmade s hs) (fun _ _ hs => hs.accounted)
    (fun _ _ s hs _ => (hmade s hs).accounted)

theorem identity_sync : Triple (Synced k T) identity (fun _ => Synced k T) (fun _ => Accounted) := by
  refine Triple.bind (read_sync.post (fun _ _ hs => hs.2)) (fun a => ?_)
  refine Triple.bind (Q := fun _ => Synced k T) (onlyIf_triple (fun _ => ?_) (fun _ _ hs => hs))
    (fun _ => ?_)
  · have hnote : Triple (Synced k T) (do
        Proc.update (·.onState fun st => { st with createdAccount := true })
        save) (fun _ => Synced k T) (fun _ => Accounted) :=
      note_sync (fun _ => rfl) (fun _ => rfl) (fun _ => rfl) (fun _ => rfl) (fun _ => rfl) (fun _ => rfl)
    have hmake := Triple.bind hnote (fun _ => show Triple _ (command "useradd" (fun h => h.account.isNone)
      (fun m h => { h with account := some ⟨m.newUid, "/home/hermes"⟩ })) _ _ from
      command_sync (fun _ _ => ⟨rfl, rfl, rfl, rfl, rfl, rfl⟩))
    rw [Proc.bind_assoc'] at hmake
    exact hmake
  refine Triple.bind ((accountEntry_triple (fun _ _ hs => hs.accounted)).post (fun _ _ hs => hs.2))
    (fun account => ?_)
  refine Triple.bind check_sync (fun _ => Triple.bind look_sync (fun _ => ?_))
  refine Triple.bind check_sync (fun _ => Triple.bind check_sync (fun _ => ?_))
  refine Triple.bind output_sync (fun _ => Triple.bind check_sync (fun _ => ?_))
  refine Triple.bind look_sync (fun _ => Triple.bind check_sync (fun _ => ?_))
  refine Triple.bind (command_sync (fun _ => plain_id)) (fun _ => ?_)
  refine Triple.bind (command_sync (fun _ => plain_id)) (fun _ => ?_)
  refine Triple.bind (command_sync (fun _ => plain_id)) (fun _ => ?_)
  refine Triple.bind (user_sync (fun _ => plain_id)) (fun _ => Triple.bind makeData_sync (fun _ => ?_))
  have hnote : Triple (Synced k T) (do
      Proc.update (·.onState fun st => { st with uid := some account.uid })
      save) (fun _ => Synced k T) (fun _ => Accounted) :=
    note_sync (fun _ => rfl) (fun _ => rfl) (fun _ => rfl) (fun _ => rfl) (fun _ => rfl) (fun _ => rfl)
  have hend := Triple.bind hnote
    (fun _ => Triple.pure' (a := account) (Q := fun _ => Synced k T) (fun _ hs => hs))
  rw [Proc.bind_assoc'] at hend
  exact hend

/-- A credential is stored where there was none, after the journal says so. -/
theorem credentials_sync (key : Option String) :
    Triple (Synced k T) (credentials key) (fun _ => Synced k T) (fun _ => Accounted) := by
  refine Triple.bind (Q := fun _ => Synced k T) (onlyIf_triple (fun _ => ?_) (fun _ _ hs => hs))
    (fun _ => Triple.bind (read_sync.post (fun _ _ hs => hs.2)) (fun _ => check_sync))
  refine Triple.bind check_sync (fun _ => Triple.bind read_sync (fun a => ?_))
  refine Triple.bind (Q := fun _ s => s.host.key = none ∧ Synced k T s)
    (check_triple ?_ (fun _ _ hs => hs.2.accounted)) (fun _ => ?_)
  · intro hnone s ⟨has, hs⟩
    rw [has] at hnone
    exact ⟨by simpa using hnone, hs⟩
  have hannounce : Triple (fun s => s.host.key = none ∧ Synced k T s) (do
      Proc.update (·.onState fun st => { st with createdCredential := true })
      save) (fun _ s => Synced k T s ∧ s.state.createdCredential = true) (fun _ => Accounted) := by
    refine Triple.bind (Triple.update
      (Q := fun _ s => Drafted k T s ∧ s.state.createdCredential = true) ?_) (fun _ => ?_)
    · intro s ⟨hnone, hs⟩
      refine ⟨?_, rfl⟩
      refine hs.draft rfl ?_ ?_ ?_ ?_
      · exact hs.1.2.1
      · exact fun _ _ hacc hk => ⟨hacc.announce hnone, hk⟩
      · exact fun _ _ h => h
      · exact fun _ hT => hT
    · have hsave : Triple (fun s => Drafted k T s ∧ s.state.createdCredential = true) (save)
          (fun _ s => s.state.createdCredential = true) (fun _ _ => True) :=
        save_triple (R := fun s => s.state.createdCredential = true) (fun _ _ hs => hs)
          (fun _ hs => hs.2) (fun _ hs => hs) (fun _ _ _ => trivial) (fun _ _ _ => trivial)
      exact ((save_sync (fun _ hs => hs.1)).conj hsave).mono (fun _ => id) (fun _ _ hs => hs)
        (fun _ _ hs => hs.1)
  have hstore : Triple (fun s => Synced k T s ∧ s.state.createdCredential = true) (do
      command "systemd-creds"
      protect
      change fun _ h => { h with key := key }) (fun _ => Synced k T) (fun _ => Accounted) := by
    have ht : Timeless (fun s => Synced k T s ∧ s.state.createdCredential = true) :=
      fun units s hs => ⟨Synced.timeless units s hs.1, hs.2⟩
    have hstored : ∀ s, Synced k T s ∧ s.state.createdCredential = true →
        Synced k T (s.onHost fun h => { h with key := key }) :=
      fun s hs => hs.1.effect rfl rfl (fun _ _ hacc _ _ => hacc.setKey rfl rfl hs.2)
    refine Triple.bind (command_triple (Q := fun _ s => Synced k T s ∧
      s.state.createdCredential = true) ht (fun _ _ hs _ => hs) (fun _ _ hs => hs.1.accounted)
      (fun _ _ _ hs _ => hs.1.accounted)) (fun _ => ?_)
    refine Triple.bind (protect_triple ht (fun _ _ hs => hs.1.accounted)) (fun _ => ?_)
    exact change_triple ht (fun _ => hstored) (fun _ _ hs => hs.1.accounted)
      (fun _ _ s hs => (hstored s hs).accounted)
  have hall := Triple.bind hannounce (fun _ => hstore)
  rw [Proc.bind_assoc'] at hall
  exact hall

end Steps

/-! The backup of the deployment before, and the new deployment. -/

/-- A deployment before is known, and there is no backup yet. -/
def unbacked (previous : Option Config) : Facts := fun _ pv b => pv = previous ∧ b = none

/-- Where there is a deployment before, there is a backup. -/
def backed : Facts := fun _ pv b => pv.isSome = true → b.isSome = true

section Deployment

variable {T : Path → Prop}

theorem snapshot_sync {previous : Option Config} (hp : previous.isSome = true) :
    Triple (Synced (unbacked previous) T) snapshot (fun _ => Synced backed T)
      (fun _ => Accounted) := by
  refine Triple.bind (read_sync.post (fun _ _ hs => hs.2)) (fun a => ?_)
  refine Triple.bind (Q := fun _ => Synced (unbacked previous) T)
    (onlyIf_triple (fun _ => ?_) (fun _ _ hs => hs)) (fun _ => ?_)
  · refine Triple.bind (command_sync (fun _ => plain_id)) (fun _ => Triple.bind protect_sync (fun _ => ?_))
    exact change_sync (fun _ _ => ⟨rfl, rfl, rfl, rfl, rfl, rfl⟩)
  refine Triple.bind (read_sync.post (fun _ _ hs => hs.2)) (fun a => ?_)
  refine Triple.bind (Q := fun _ => Synced (unbacked previous) T)
    (onlyIf_triple (fun _ => command_sync (fun _ _ => ⟨rfl, rfl, rfl, rfl, rfl, rfl⟩)) (fun _ _ hs => hs))
    (fun _ => ?_)
  refine Triple.bind (Q := fun archive s => s.host.data.getD "" = archive ∧ Synced (unbacked previous) T s)
    (userOutput_triple Synced.timeless (fun _ _ hs _ => ⟨rfl, hs⟩) (fun _ _ hs => hs.accounted))
    (fun archive => ?_)
  have ht : Timeless (fun s => s.host.data.getD "" = archive ∧ Synced (unbacked previous) T s) :=
    fun units s hs => ⟨hs.1, Synced.timeless units s hs.2⟩
  refine Triple.bind (Q := fun _ s => s.host.data.getD "" = archive ∧ Synced (unbacked previous) T s)
    (run_triple ht (fun _ _ hs _ => ⟨hs.1, hs.2.repository _⟩) (fun _ _ hs => hs.2.accounted)
      (fun _ _ _ hs _ => (hs.2.repository _).accounted)) (fun id => ?_)
  refine Triple.bind (Q := fun _ s => s.host.data.getD "" = archive ∧ Synced (unbacked previous) T s)
    (run_triple ht (fun _ _ hs _ => hs) (fun _ _ hs => hs.2.accounted)
      (fun _ _ _ hs _ => hs.2.accounted)) (fun restored => ?_)
  refine Triple.bind (Q := fun _ s => s.host.data.getD "" = archive ∧ Synced (unbacked previous) T s)
    (check_triple (fun _ _ hs => hs) (fun _ _ hs => hs.2.accounted)) (fun _ => ?_)
  refine Triple.bind (Triple.update (Q := fun _ s => Drafted backed T
    (s.onState fun st => { st with phase := some .backupVerified })) ?_)
    (fun _ => save_sync (fun _ hs => hs))
  intro s ⟨harchive, hs⟩
  subst harchive
  apply hs.draft (f := fun st =>
    { st with
      backup := some id
      backupSha256 := some (digest (s.host.data.getD ""))
      phase := some .backupVerified }) rfl (by simp)
  · intro a _ hacc hk
    exact ⟨hacc.snapshot (by rw [hk.1]; exact hp) hk.2 id _, fun _ => rfl⟩
  · exact fun _ _ h => h
  · exact fun _ h => h

/-- The application data change only where there is a backup, or nothing to keep. -/
theorem configureData_sync :
    Triple (Synced backed T) (user (fun _ => true) (fun m h => { h with data := some m.text }))
      (fun _ => Synced backed T) (fun _ => Accounted) := by
  have hset : ∀ (m : Moment) s, Synced backed T s →
      Synced backed T (s.onHost fun h => { h with data := some m.text }) := by
    intro m s hs
    apply hs.effect rfl rfl
    intro a _ hacc hk _
    refine hacc.setData ?_ ?_ (fun hp hb => ?_)
    · rfl
    · rfl
    · have hbacked := hk hp
      rw [hb] at hbacked
      cases hbacked
  exact user_triple Synced.timeless (fun m s hs _ => hset m s hs) (fun _ _ hs => hs.accounted)
    (fun _ m s hs _ => (hset m s hs).accounted)

variable {k : Facts}

theorem installDropin_sync (name : String) :
    Triple (Synced k T) (installDropin name) (fun _ => Synced k T) (fun _ => Accounted) :=
  Triple.bind (looks_sync (readLibrary_keeps Synced.timeless name)) (fun text => write_sync _ text)

theorem runtime_sync :
    Triple (Synced backed T) runtime (fun _ => Synced backed T) (fun _ => Accounted) := by
  have hlibrary : ∀ name, Triple (Synced backed T) (readLibrary name) (fun _ => Synced backed T)
      (fun _ => Accounted) := fun name => looks_sync (readLibrary_keeps Synced.timeless name)
  refine Triple.bind field_sync (fun config => Triple.bind field_sync (fun uid => ?_))
  refine Triple.bind (user_sync (fun _ => plain_id)) (fun _ => ?_)
  refine Triple.bind (user_sync (fun _ => plain_id)) (fun _ => ?_)
  refine Triple.bind (hlibrary _) (fun _ => Triple.bind (hlibrary _) (fun _ => ?_))
  refine Triple.bind configureData_sync (fun _ => ?_)
  refine Triple.bind (hlibrary _) (fun _ => Triple.bind (write_sync _ _) (fun _ => ?_))
  refine Triple.bind (write_sync _ _) (fun _ => Triple.bind (write_sync _ _) (fun _ => ?_))
  refine Triple.bind (hlibrary _) (fun _ => Triple.bind (write_sync _ _) (fun _ => ?_))
  refine Triple.bind (installDropin_sync _) (fun _ => Triple.bind (installDropin_sync _) (fun _ => ?_))
  refine Triple.bind (command_sync (fun _ => plain_id)) (fun _ => ?_)
  refine Triple.bind (command_sync (fun _ _ => ⟨rfl, rfl, rfl, rfl, rfl, rfl⟩)) (fun _ => ?_)
  refine Triple.bind (command_sync (fun _ => plain_id)) (fun _ => ?_)
  refine Triple.bind (user_sync (fun _ => plain_id)) (fun _ => ?_)
  refine Triple.bind (user_sync (fun _ _ => ⟨rfl, rfl, rfl, rfl, rfl, rfl⟩)) (fun _ => ?_)
  refine Triple.bind (looks_sync (waitRounds_keeps Synced.timeless config 36)) (fun _ => ?_)
  exact looks_sync (healthy_keeps Synced.timeless config true)

end Deployment

end Hermes.Simple

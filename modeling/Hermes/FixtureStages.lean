import Hermes.Fixture

/- What a cleanup of the fixture leaves behind, if no one else touches the storage.

   A resource is made before the journal says so, and removed before the journal says
   that. `Held` lists the states this leaves, one for every stage of a run; a run that was
   cut off anywhere is in one of them, and so is every cleanup of it. The pool is
   `stranded` in some: it is there, but the journal does not know of it yet, or it has an
   entry that `check_owned` does not. -/
namespace Hermes.Fixture
open Process

/-! ## What a run can leave -/

def Pool.clean (p : Pool) : Bool := p.files.all (fun e => poolNames.contains e.name && e.regular)

/-- No other domain names anything of the fixture. -/
def Storage.unshared (s : Storage) : Bool :=
  s.others.all (fun o => !(s.others.find? (fun d => d.name == o.name)).any Other.shares)

/-- Someone else uses the names of the fixture. -/
def Storage.foreign (s : Storage) : Bool := s.stray || !s.unshared

/-- A pool that a cleanup does not take away: the journal does not know that it is the
    run's, it has an entry that is not one of `POOL_NAMES`, or others use its name. -/
def World.stranded (w : World) : Bool :=
  w.journal.inputsStarted && w.storage.pool.present &&
    (!w.journal.poolOwned || w.storage.foreign || !w.storage.pool.reached.all Pool.clean)

/-- The storage with the run's pool and nothing else of it. -/
def Storage.withPool (s : Storage) (p : Pool) : Storage := { s with pool := .directory p }

/-- The storage and the directories of a run, apart from `self.private`. -/
structure View where
  storage : Storage
  backup : Spot
  inputs : Spot

def World.view (w : World) : View := ⟨w.storage, w.backup, w.inputs⟩

def View.noWork (v : View) : Prop := v.backup = .absent ∧ v.inputs = .absent

/-- The pool as the journal describes it. -/
structure OwnPool (i : Option (Nat × Nat)) (c : Cookie) (p : Pool) : Prop where
  noted : i = some p.identity
  trusted : p.trusted = true
  owner : p.owner = some { value := some c }
  distinct : (p.files.map Entry.name).Nodup

/-- Before the run makes the pool. -/
structure Untouched (s₀ : Storage) (j : Journal) (v : View) : Prop where
  storage : v.storage = s₀
  work : v.noWork
  owned : j.poolOwned = false
  destroyed : j.domainDestroyed = false
  begun : j.inputsStarted = true → s₀.free = true

/-- The pool is there, but the journal does not say whose it is. -/
structure Unowned (s₀ : Storage) (j : Journal) (v : View) : Prop where
  storage : ∃ p, v.storage = s₀.withPool p
  work : v.noWork
  owned : j.poolOwned = false
  destroyed : j.domainDestroyed = false
  begun : j.inputsStarted = true
  free : s₀.free = true

/-- From then on until the domain is destroyed. -/
structure Owned (s₀ : Storage) (b : Bool) (j : Journal) (v : View) : Prop where
  pool : ∃ p, v.storage.pool = .directory p ∧ OwnPool j.poolIdentity j.cookie p ∧ b = (s₀.foreign || !p.clean)
  others : v.storage.others = s₀.others ∧ v.storage.stray = s₀.stray
  domain : ∀ d, v.storage.domain = some d → validateXml d.xml installerPath true = none
  firmware : v.storage.domain = none → v.storage.nvram = false ∧ v.storage.tpm = false
  owned : j.poolOwned = true
  destroyed : j.domainDestroyed = false
  vm : j.vmDestroyed = false
  begun : j.inputsStarted = true
  free : s₀.free = true
  guest : j.guestReady = true → j.guestPurged = false → v.storage.domain.isSome = true
  secrets : j.certifierSecretsPurged = true → v.noWork

/-- The domain is destroyed, and the pool is being emptied. -/
structure Destroyed (s₀ : Storage) (j : Journal) (v : View) : Prop where
  pool : ∃ p, v.storage = s₀.withPool p ∧ OwnPool j.poolIdentity j.cookie p ∧ p.clean = true
  work : v.noWork
  foreign : s₀.foreign = false
  owned : j.poolOwned = true
  destroyed : j.domainDestroyed = true
  vm : j.vmDestroyed = false
  begun : j.inputsStarted = true
  free : s₀.free = true

/-- Nothing is left in the pool, its cookie included. -/
structure Emptied (s₀ : Storage) (j : Journal) (v : View) : Prop where
  pool : ∃ p, v.storage = s₀.withPool p ∧ j.poolIdentity = some p.identity ∧ p.trusted = true ∧
    p.owner = none ∧ p.files = []
  work : v.noWork
  foreign : s₀.foreign = false
  owned : j.poolOwned = true
  destroyed : j.domainDestroyed = true
  started : j.storagePurgeStarted = true
  vm : j.vmDestroyed = false
  begun : j.inputsStarted = true
  free : s₀.free = true

/-- Everything is gone. -/
structure Removed (s₀ : Storage) (j : Journal) (v : View) : Prop where
  storage : v.storage = s₀
  work : v.noWork
  foreign : s₀.foreign = false
  destroyed : j.domainDestroyed = true
  started : j.storagePurgeStarted = true
  free : s₀.free = true

/-- The stage of a run that started on the storage `s₀`, and whether its pool is stranded. -/
inductive Held (s₀ : Storage) : Bool → Journal → View → Prop
  | untouched {j v} (h : Untouched s₀ j v) : Held s₀ false j v
  | unowned {j v} (h : Unowned s₀ j v) : Held s₀ true j v
  | owned {b j v} (h : Owned s₀ b j v) : Held s₀ b j v
  | destroyed {j v} (h : Destroyed s₀ j v) : Held s₀ false j v
  | emptied {j v} (h : Emptied s₀ j v) : Held s₀ false j v
  | removed {j v} (h : Removed s₀ j v) : Held s₀ false j v

variable {s₀ : Storage} {b : Bool} {j : Journal} {v : View} {w : World} {α β : Type} {n : Nat}

/-- No one else touches the storage, and the directories of the run are none but its own. -/
structure Alone (w : World) : Prop where
  meddling : w.meddling = []
  material : w.material ≠ .link
  backup : w.backup ≠ .link
  inputs : w.inputs ≠ .link

/-- A run that was cut off: the state may be ahead of the journal. -/
structure Broken (s₀ : Storage) (b : Bool) (w : World) : Prop where
  alone : Alone w
  journal : Held s₀ b w.journal w.view
  state : Held s₀ b w.state w.view

/-- A run between its steps. -/
structure Calm (φ : Journal → View → Prop) (w : World) : Prop where
  alone : Alone w
  level : w.journal = w.state
  stage : φ w.state w.view

theorem Calm.broken {φ : Journal → View → Prop} (h : Calm φ w)
    (hφ : φ w.state w.view → Held s₀ b w.state w.view) : Broken s₀ b w :=
  ⟨h.alone, by rw [h.level]; exact hφ h.stage, hφ h.stage⟩

theorem Alone.meddle (h : Alone w) : w.meddle = w := by
  unfold World.meddle
  rw [h.meddling]

/-! What `free` says. -/

theorem free_pool (h : s₀.free = true) : s₀.pool = .absent := by
  simp only [Storage.free, Bool.and_eq_true, Bool.not_eq_true'] at h
  cases hp : s₀.pool <;> simp_all [Place.present]

theorem free_domain (h : s₀.free = true) : s₀.domain = none ∧ s₀.nvram = false ∧ s₀.tpm = false := by
  simp only [Storage.free, Bool.and_eq_true, Bool.not_eq_true', Option.isNone_iff_eq_none] at h
  exact ⟨h.1.1.1.1, h.1.2, h.2⟩

theorem free_others (h : s₀.free = true) : s₀.others.any (fun o => o.uuid = uuid) = false := by
  simp only [Storage.free, Bool.and_eq_true] at h
  rw [List.any_eq_false]
  intro o ho
  simpa using List.all_eq_true.mp h.1.1.1.2 o ho

/-- `stranded` is what the stage says. -/
theorem Broken.stranded (h : Broken s₀ b w) : w.stranded = b := by
  have hj := h.journal
  revert hj
  generalize hv : w.view = v
  have hs : w.storage = v.storage := by rw [← hv]; rfl
  unfold World.stranded
  rw [hs]
  intro hj
  cases hj with
  | untouched h =>
    rw [h.storage]
    cases hb : w.journal.inputsStarted with
    | false => rfl
    | true => rw [free_pool (h.begun hb)]; rfl
  | unowned h =>
    obtain ⟨p, hp⟩ := h.storage
    rw [hp, h.begun, h.owned]
    rfl
  | owned h =>
    obtain ⟨p, hp, -, hb⟩ := h.pool
    have hf : v.storage.foreign = s₀.foreign := by
      unfold Storage.foreign Storage.unshared
      rw [h.others.1, h.others.2]
    rw [hp, h.begun, h.owned, hf, hb]
    simp [Place.present, Place.reached]
  | destroyed h =>
    obtain ⟨p, hp, -, hc⟩ := h.pool
    have hf : v.storage.foreign = false := by rw [hp]; exact h.foreign
    rw [hf, hp, h.begun, h.owned]
    simp [Place.present, Place.reached, Storage.withPool, hc]
  | emptied h =>
    obtain ⟨p, hp, -, -, -, he⟩ := h.pool
    have hf : v.storage.foreign = false := by rw [hp]; exact h.foreign
    rw [hf, hp, h.begun, h.owned]
    simp [Place.present, Place.reached, Storage.withPool, Pool.clean, he]
  | removed h =>
    rw [h.storage, free_pool h.free]
    simp [Place.present]

/-- A stranded pool is there. -/
theorem Broken.pool_of_stranded (h : Broken s₀ true w) : w.storage ≠ s₀ := by
  have hj := h.journal
  revert hj
  generalize hv : w.view = v
  have hs : w.storage = v.storage := by rw [← hv]; rfl
  rw [hs]
  intro hj he
  cases hj with
  | unowned h =>
    obtain ⟨p, hp⟩ := h.storage
    have := free_pool h.free
    rw [← he, hp] at this
    exact absurd this (by simp [Storage.withPool])
  | owned h =>
    obtain ⟨p, hp, -⟩ := h.pool
    have := free_pool h.free
    rw [← he, hp] at this
    exact absurd this (by simp)

/-! ## The rules of the operations -/

def Good (m : Moment) : Prop := m.verdict = .done

/-- The failure of a command that cannot succeed. -/
def commandFailed : Exc := .failure 69 "operation-failed"

/-- Every run of `x` leaves the run of the fixture in one of its stages; one in which the
    operations do not fail returns, unless the pool is stranded. -/
abbrev Does (s₀ : Storage) (b : Bool) (n : Nat) (P : World → Prop) (x : Cmd α)
    (Q : α → World → Prop) : Prop :=
  Runs Good n P x Q (fun _ => Broken s₀ b) (fun e _ => b = true ∨ e = commandFailed)

section Rules

variable {S : β → World → Prop} {value : World → α} {f : α → Cmd β} {g : Unit → Cmd β}
  {can : World → Bool} {effect : World → World} {note : Journal → Journal} {c : Bool}
  {reason : String} {code : Nat}

theorem meanwhile_does (hw : Broken s₀ b w) :
    Does s₀ b 0 (· = w) meanwhile (fun _ u => u = w) :=
  Runs.update (fun u hu => by rw [hu]; exact hw.alone.meddle)

theorem look_does (hw : Broken s₀ b w) :
    Does s₀ b 1 (· = w) (look value) (fun a u => u = w ∧ a = value w) := by
  have h : Does s₀ b 1 (· = w) (peek value) (fun a u => u = w ∧ a = value w) := by
    constructor
    · exact peek_triple (fun u hu => by rw [hu]; exact ⟨rfl, rfl⟩) (fun _ u hu => by rw [hu]; exact hw)
    · exact run_within (fun _ hm => hm) (fun _ u _ hu _ => by rw [hu]; exact ⟨rfl, rfl⟩)
        (fun _ _ hc => absurd hc (by simp))
  exact Runs.bind (meanwhile_does hw) (fun _ => h) (by omega)

/-- A look, with what follows on what it found. -/
theorem look_then (hw : Broken s₀ b w) (h : Does s₀ b n (· = w) (f (value w)) S) :
    Does s₀ b (n + 1) (· = w) (look value >>= f) S := by
  refine Runs.bind (look_does hw) (fun a => ?_) (Nat.le_of_eq (Nat.add_comm 1 n))
  refine Runs.given (φ := a = value w) (fun _ hu => hu.2) (fun ha => ?_)
  rw [ha]
  exact h.pre (fun _ hu => hu.1)

theorem read_then {f : World → Cmd β} (h : Does s₀ b n (· = w) (f w) S) :
    Does s₀ b n (· = w) (Proc.read >>= f) S := by
  refine Runs.bind (a := 0) (b := n) (Q := fun a u => u = w ∧ a = w)
    (Runs.read (fun u hu => ⟨hu, hu⟩)) (fun a => ?_) (by omega)
  refine Runs.given (φ := a = w) (fun _ hu => hu.2) (fun ha => ?_)
  rw [ha]
  exact h.pre (fun _ hu => hu.1)

theorem require_does (hw : Broken s₀ b w) (hc : b = false → c = true) :
    Does s₀ b 0 (· = w) (require c reason code) (fun _ u => u = w ∧ c = true) := by
  refine ⟨require_triple (fun h u hu => ⟨hu, h⟩) (fun _ u hu => by rw [hu]; exact hw), ?_⟩
  refine require_decided (fun h u hu => ⟨hu, h⟩) (fun h _ _ => ?_)
  cases b with
  | true => exact Or.inl rfl
  | false => rw [hc rfl] at h; exact absurd h (by decide)

theorem require_then (hw : Broken s₀ b w) (hc : b = false → c = true)
    (h : c = true → Does s₀ b n (· = w) (g ()) S) :
    Does s₀ b n (· = w) (require c reason code >>= g) S := by
  refine Runs.bind (require_does hw hc) (fun _ => ?_) (Nat.le_of_eq (Nat.zero_add n))
  exact Runs.given (fun _ hu => hu.2) (fun hc => (h hc).pre (fun _ hu => hu.1))

theorem act_does (hw : Broken s₀ b w) (he : can w = true → Broken s₀ b (effect w)) :
    Does s₀ b 1 (· = w) (act can (fun _ u => effect u))
      (fun _ u => u = effect w ∧ can w = true) := by
  have h : Does s₀ b 1 (· = w) (command can (fun _ u => effect u))
      (fun _ u => u = effect w ∧ can w = true) := by
    constructor
    · exact run_triple (fun _ u hu hc => by rw [hu] at hc ⊢; exact ⟨rfl, hc⟩)
        (fun _ u hu => by rw [hu]; exact hw) (fun _ _ u hu hc => by rw [hu] at hc ⊢; exact he hc)
    · exact run_within (fun _ hm => hm) (fun _ u _ hu hc => by rw [hu] at hc ⊢; exact ⟨rfl, hc⟩)
        (fun _ _ _ => Or.inr rfl)
  exact Runs.bind (meanwhile_does hw) (fun _ => h) (by omega)

theorem act_then (hw : Broken s₀ b w) (he : can w = true → Broken s₀ b (effect w))
    (h : can w = true → Does s₀ b n (· = effect w) (g ()) S) :
    Does s₀ b (n + 1) (· = w) (act can (fun _ u => effect u) >>= g) S := by
  refine Runs.bind (act_does hw he) (fun _ => ?_) (Nat.le_of_eq (Nat.add_comm 1 n))
  exact Runs.given (fun _ hu => hu.2) (fun hc => (h hc).pre (fun _ hu => hu.1))

theorem change_does (hw : Broken s₀ b w) (hcan : b = false → can w = true)
    (he : can w = true → Broken s₀ b (effect w)) :
    Does s₀ b 1 (· = w) (change can (fun _ u => effect u))
      (fun _ u => u = effect w ∧ can w = true) := by
  refine ⟨change_triple (fun u hu => ?_) (fun _ u hu hc => ?_) (fun _ u hu => ?_)
    (fun _ _ u hu hc => ?_), ?_⟩
  · rw [hu]; exact hw.alone.meddle
  · rw [hu] at hc ⊢; exact ⟨rfl, hc⟩
  · rw [hu]; exact hw
  · rw [hu] at hc ⊢; exact he hc
  · refine Within.budget (n := 0 + 1) (Within.bind (meanwhile_does hw).supplied (fun _ => ?_)) (by omega)
    refine Within.perform (n := 0) (fun m u hm hu r u' hr => ?_)
    have hv : m.verdict = .done := hm
    rw [if_pos hv] at hr
    by_cases hc : can u = true
    · rw [if_pos hc] at hr
      cases hr
      rw [hu] at hc ⊢
      exact ⟨rfl, hc⟩
    · rw [if_neg hc] at hr
      cases hr
      cases b with
      | true => exact Or.inl rfl
      | false => rw [hu] at hc; exact absurd (hcan rfl) hc

theorem change_then (hw : Broken s₀ b w) (hcan : b = false → can w = true)
    (he : can w = true → Broken s₀ b (effect w))
    (h : can w = true → Does s₀ b n (· = effect w) (g ()) S) :
    Does s₀ b (n + 1) (· = w) (change can (fun _ u => effect u) >>= g) S := by
  refine Runs.bind (change_does hw hcan he) (fun _ => ?_) (Nat.le_of_eq (Nat.add_comm 1 n))
  exact Runs.given (fun _ hu => hu.2) (fun hc => (h hc).pre (fun _ hu => hu.1))

/-- The world after a save. -/
def World.saved (w : World) (note : Journal → Journal) : World :=
  ({ w with state := note w.state } : World).write

/-- A save is cut off before or after the journal says what the state says. -/
theorem save_does (hw : Broken s₀ b w) (hn : Held s₀ b (note w.state) w.view) :
    Does s₀ b 1 (· = w) (save note) (fun _ u => u = w.saved note) := by
  have hstate : Broken s₀ b { w with state := note w.state } := ⟨{ hw.alone with }, hw.journal, hn⟩
  have hsaved : Broken s₀ b (w.saved note) := ⟨{ hw.alone with }, hn, hn⟩
  refine Runs.bind (a := 0) (b := 1) (Q := fun _ u => u = { w with state := note w.state })
    (Runs.update (fun u hu => by rw [hu])) (fun _ => ?_) (by omega)
  have h : Does s₀ b 1 (· = { w with state := note w.state }) (atomic (fun _ u => u.write))
      (fun _ u => u = w.saved note) := by
    constructor
    · exact atomic_triple (fun _ u hu => by rw [hu]; rfl) (fun _ u hu => by rw [hu]; exact hstate)
        (fun _ _ u hu => by rw [hu]; exact hsaved)
    · exact atomic_within (fun _ hm => hm) (fun _ u _ hu => by rw [hu]; rfl)
  exact Runs.bind (meanwhile_does hstate) (fun _ => h) (by omega)

theorem save_then (hw : Broken s₀ b w) (hn : Held s₀ b (note w.state) w.view)
    (h : Does s₀ b n (· = w.saved note) (g ()) S) :
    Does s₀ b (n + 1) (· = w) (save note >>= g) S :=
  Runs.bind (save_does hw hn) (fun _ => h) (Nat.le_of_eq (Nat.add_comm 1 n))

theorem onlyIf_does {P Q : World → Prop} {x : Cmd Unit}
    (hx : c = true → Does s₀ b n P x (fun _ => Q)) (hn : c = false → ∀ u, P u → Q u) :
    Does s₀ b n P (onlyIf c x) (fun _ => Q) :=
  Runs.ite hx (fun h => Runs.pure' (hn (by simpa using h)))

/-- The world of a run between its steps, after a save. -/
theorem Calm.saved {φ ψ : Journal → View → Prop} (h : Calm φ w)
    (hn : φ w.state w.view → ψ (note w.state) w.view) : Calm ψ (w.saved note) :=
  ⟨{ h.alone with }, rfl, hn h.stage⟩

end Rules

end Hermes.Fixture

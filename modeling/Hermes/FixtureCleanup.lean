import Mathlib.Data.List.Perm.Subperm
import Hermes.FixtureStages

/- A cleanup of the fixture, step by step: from every stage a run can be cut off in it leads
   to one of these stages again, and where nothing fails and the pool is not stranded, to
   the end. -/
namespace Hermes.Fixture
open Process

variable {s₀ : Storage} {b : Bool} {j : Journal} {v : View} {w : World} {α β : Type} {n : Nat}

/-! ## Whose the pool is -/

/-- A run whose pool `check_owned` looks at. -/
structure Checkable (s₀ : Storage) (b : Bool) (p : Pool) (w : World) : Prop where
  broken : Broken s₀ b w
  pool : w.storage.pool = .directory p
  own : OwnPool w.state.poolIdentity w.state.cookie p
  others : w.storage.others = s₀.others
  domain : ∀ d, w.storage.domain = some d → validateXml d.xml installerPath true = none
  clean : b = false → p.clean = true ∧ s₀.unshared = true

section Checks

variable {S : β → World → Prop} {p : Pool}

theorem ownerFile_own {i : Option (Nat × Nat)} {c : Cookie} (h : OwnPool i c p) :
    ownerFile (.directory p) = pure (some c) := by
  unfold ownerFile
  simp only [Place.reached, h.owner, h.trusted, beq_self_eq_true, Bool.and_self]
  rfl

theorem poolEntries_then {f : List Entry → Cmd β} (hw : Broken s₀ b w)
    (hp : w.storage.pool = .directory p) (h : Does s₀ b n (· = w) (f p.files) S) :
    Does s₀ b (n + 1) (· = w) (poolEntries >>= f) S := by
  unfold poolEntries
  rw [Proc.bind_assoc']
  refine look_then hw ?_
  rw [hp]
  exact h

theorem dumpxml_does {domain : World → Option α} (hw : Broken s₀ b w) :
    Does s₀ b 1 (· = w) (dumpxml domain) (fun x u => u = w ∧ domain w = some x) := by
  refine look_then hw ?_
  cases h : domain w with
  | none => exact Runs.raise (fun u hu => by rw [hu]; exact hw) (fun _ _ => Or.inr rfl)
  | some x => exact Runs.pure' (fun u hu => ⟨hu, rfl⟩)

theorem inspectDomain_does (hc : Checkable s₀ b p w) :
    Does s₀ b 1 (· = w) (inspectDomain true) (fun _ u => u = w) := by
  refine Runs.bind (dumpxml_does hc.broken) (fun d => ?_) (Nat.le_refl (1 + 0))
  refine Runs.given (fun _ hu => hu.2) (fun hd => ?_)
  rw [hc.domain d hd]
  exact Runs.pure' (fun _ hu => hu.1)

/-- What `inspectOther` finds out about the domain of a name. -/
def Storage.passes (s : Storage) (o : Other) : Bool :=
  !(s.others.find? (fun d => d.name == o.name)).any Other.shares

theorem inspectOther_does (hc : Checkable s₀ b p w) {o : Other} (ho : o ∈ s₀.others) :
    Does s₀ b 1 (· = w) (inspectOther o.name) (fun _ u => u = w ∧ s₀.passes o = true) := by
  refine Runs.bind (dumpxml_does hc.broken) (fun d => ?_) (Nat.le_refl (1 + 0))
  refine Runs.given (fun _ hu => hu.2) (fun hd => ?_)
  rw [hc.others] at hd
  have hpass : s₀.passes o = !d.shares := by
    unfold Storage.passes
    rw [hd]
    rfl
  refine ((require_does hc.broken (fun hb => ?_)).pre (fun _ hu => hu.1)).post
    (fun _ u hu => ⟨hu.1, hpass.trans hu.2⟩)
  rw [← hpass]
  exact List.all_eq_true.mp (hc.clean hb).2 o ho

/-- All of them are looked at. -/
theorem inspectOthers_does (hc : Checkable s₀ b p w) :
    Does s₀ b s₀.others.length (· = w) (Proc.forEach s₀.others (fun o => inspectOther o.name))
      (fun _ u => u = w ∧ s₀.unshared = true) := by
  -- the domains that are not left have passed
  let I : List Other → World → Prop := fun rest u =>
    u = w ∧ (∀ o ∈ rest, o ∈ s₀.others) ∧ ∀ o ∈ s₀.others, o ∈ rest ∨ s₀.passes o = true
  have hstep : ∀ o rest, Does s₀ b 1 (I (o :: rest)) (inspectOther o.name) (fun _ => I rest) := by
    intro o rest
    refine Runs.given (φ := (∀ d ∈ o :: rest, d ∈ s₀.others) ∧
      ∀ d ∈ s₀.others, d ∈ o :: rest ∨ s₀.passes d = true) (fun _ hu => hu.2) (fun hI => ?_)
    refine ((inspectOther_does hc (hI.1 o (by simp))).pre (fun _ hu => hu.1)).post
      (fun _ u hu => ⟨hu.1, fun d hd => hI.1 d (by simp [hd]), fun d hd => ?_⟩)
    obtain hmem | hpass := hI.2 d hd
    · cases hmem with
      | head => exact Or.inr hu.2
      | tail _ hmem => exact Or.inl hmem
    · exact Or.inr hpass
  have h := (@Runs.pre _ _ _ _ _ _ _ (· = w) _ _ _ _ (Runs.forEach hstep s₀.others)
    (fun u hu => ⟨hu, fun _ ho => ho, fun _ ho => Or.inl ho⟩)).budget
      (Nat.le_of_eq (Nat.mul_one _))
  refine h.post (fun _ u hu => ⟨hu.1, ?_⟩)
  exact List.all_eq_true.mpr (fun o ho => (hu.2.2 o ho).resolve_left (by simp))

theorem checkOwned_does (hc : Checkable s₀ b p w) :
    Does s₀ b (s₀.others.length + 5) (· = w) (checkOwned true) (fun present u => u = w ∧
      present = w.storage.domain.isSome ∧ p.clean = true ∧ s₀.unshared = true) := by
  have hw := hc.broken
  refine read_then (look_then hw ?_)
  rw [hc.pool, ownerFile_own hc.own, Proc.pure_bind']
  refine require_then hw (fun _ => beq_self_eq_true _) (fun _ => ?_)
  refine poolEntries_then hw hc.pool (require_then hw (fun hb => ?_) (fun hnames => ?_))
  · exact List.all_eq_true.mpr (fun e he =>
      (Bool.and_eq_true _ _ ▸ List.all_eq_true.mp (hc.clean hb).1 e he).1)
  refine poolEntries_then hw hc.pool (require_then hw (fun hb => ?_) (fun hregular => ?_))
  · exact List.all_eq_true.mpr (fun e he =>
      (Bool.and_eq_true _ _ ▸ List.all_eq_true.mp (hc.clean hb).1 e he).2)
  have hclean : p.clean = true := List.all_eq_true.mpr (fun e he => by
    rw [List.all_eq_true.mp hnames e he, List.all_eq_true.mp hregular e he]; rfl)
  unfold domains
  refine look_then hw ?_
  rw [hc.others]
  refine Runs.bind (a := 1) (b := s₀.others.length) (Q := fun _ u => u = w)
    (onlyIf_does (fun _ => inspectDomain_does hc) (fun _ _ hu => hu)) (fun _ => ?_) (by omega)
  refine Runs.bind (inspectOthers_does hc) (fun _ => ?_) (Nat.le_refl (s₀.others.length + 0))
  exact Runs.pure' (fun u hu => ⟨hu.1, rfl, hclean, hu.2⟩)

end Checks

/-! ## The purge -/

theorem Destroyed.held (h : Destroyed s₀ j v) : Held s₀ false j v := .destroyed h
theorem Emptied.held (h : Emptied s₀ j v) : Held s₀ false j v := .emptied h
theorem Removed.held (h : Removed s₀ j v) : Held s₀ false j v := .removed h
theorem Owned.held (h : Owned s₀ b j v) : Held s₀ b j v := .owned h

theorem phase_then {g : Unit → Cmd β} {S : β → World → Prop} {q : Phase}
    (h : Does s₀ b n (· = { w with phase := q }) (g ()) S) :
    Does s₀ b n (· = w) (phase q >>= g) S :=
  Runs.bind (a := 0) (b := n) (Q := fun _ u => u = { w with phase := q })
    (Runs.update (fun u hu => by rw [hu])) (fun _ => h) (by omega)

theorem Broken.phase (h : Broken s₀ b w) (q : Phase) : Broken s₀ b { w with phase := q } :=
  ⟨{ h.alone with }, h.journal, h.state⟩

theorem Calm.phase {φ : Journal → View → Prop} (h : Calm φ w) (q : Phase) :
    Calm φ { w with phase := q } :=
  ⟨{ h.alone with }, h.level, h.stage⟩

/-- What the domain leaves when it is undefined. -/
structure NoDomain (s₀ s : Storage) : Prop where
  domain : s.domain = none
  nvram : s.nvram = false
  tpm : s.tpm = false
  others : s.others = s₀.others
  stray : s.stray = s₀.stray

theorem noDomain_withPool (h : s₀.free = true) (p : Pool) : NoDomain s₀ (s₀.withPool p) :=
  have ⟨h₁, h₂, h₃⟩ := free_domain h
  ⟨h₁, h₂, h₃, rfl, rfl⟩

theorem noDomain_free (h : s₀.free = true) : NoDomain s₀ s₀ :=
  have ⟨h₁, h₂, h₃⟩ := free_domain h
  ⟨h₁, h₂, h₃, rfl, rfl⟩

theorem verifyDestroyedDomain_does (hw : Broken s₀ b w) (hd : NoDomain s₀ w.storage)
    (hf : s₀.free = true) (hb : b = false → s₀.stray = false) :
    Does s₀ b 5 (· = w) verifyDestroyedDomain
      (fun _ u => u = { w with phase := .verified } ∧ s₀.stray = false) := by
  refine phase_then ?_
  have hw' := hw.phase .verified
  have hothers : w.storage.others.any (fun o => o.uuid = uuid) = false := by
    rw [hd.others]
    exact free_others hf
  refine look_then hw' (require_then hw' (fun _ => ?_) (fun _ => ?_))
  · show (!w.storage.domain.isSome) = true
    rw [hd.domain]
    rfl
  refine look_then hw' (require_then hw' (fun _ => ?_) (fun _ => ?_))
  · show (!w.storage.others.any _) = true
    rw [hothers]
    rfl
  refine look_then hw' (require_then hw' (fun _ => ?_) (fun _ => ?_))
  · show (!w.storage.nvram) = true
    rw [hd.nvram]
    rfl
  refine look_then hw' (require_then hw' (fun _ => ?_) (fun _ => ?_))
  · show (!w.storage.tpm) = true
    rw [hd.tpm]
    rfl
  refine look_then hw' ?_
  have hprocess : Storage.process w.storage = s₀.stray := by
    unfold Storage.process
    rw [hd.domain, hd.stray]
    exact Bool.or_false _
  refine (require_does hw' (fun h => ?_)).post (fun _ u hu => ⟨hu.1, ?_⟩)
  · show (!Storage.process w.storage) = true
    rw [hprocess, hb h]
    rfl
  · have h : (!Storage.process w.storage) = true := hu.2
    rw [hprocess] at h
    simpa using h

theorem OwnPool.drop {i : Option (Nat × Nat)} {c : Cookie} {p : Pool} (h : OwnPool i c p)
    (name : String) : OwnPool i c (p.drop name) := by
  refine ⟨h.noted, h.trusted, h.owner, ?_⟩
  exact List.Nodup.sublist (List.Sublist.map _ List.filter_sublist) h.distinct

theorem clean_drop {p : Pool} (h : p.clean = true) (name : String) : (p.drop name).clean = true :=
  List.all_eq_true.mpr (fun e he => List.all_eq_true.mp h e (List.mem_filter.mp he).1)

theorem alterPool_withPool {p : Pool} {f : Pool → Pool} (h : w.storage = s₀.withPool p) :
    (w.alterPool f).storage = s₀.withPool (f p) := by
  have hf : (w.alterPool f).storage = { w.storage with pool := w.storage.pool.map f } := rfl
  rw [hf, h]
  rfl

/-- What is left of the files after the first is unlinked. -/
theorem drop_head {p : Pool} {e : Entry} {rest : List Entry} (hp : p.files = e :: rest)
    (h : (p.files.map Entry.name).Nodup) : (p.drop e.name).files = rest := by
  rw [hp, List.map_cons, List.nodup_cons] at h
  show p.files.filter _ = rest
  rw [hp, List.filter_cons_of_neg (by simp)]
  refine List.filter_eq_self.mpr (fun d hd => ?_)
  simp only [decide_eq_true_eq]
  exact fun heq => h.1 (by rw [← heq]; exact List.mem_map_of_mem hd)

/-- The run while the files of its pool are unlinked. -/
structure Emptying (s₀ : Storage) (rest : List Entry) (w : World) : Prop where
  calm : Calm (Destroyed s₀) w
  started : w.state.storagePurgeStarted = true
  pool : ∃ p, w.storage.pool = .directory p ∧ p.files = rest

theorem Emptying.unlinked {e : Entry} {rest : List Entry} (h : Emptying s₀ (e :: rest) w)
    {log : List Event} :
    Emptying s₀ rest { w.alterPool (·.drop e.name) with log := log } := by
  obtain ⟨p, hp, hfiles⟩ := h.pool
  obtain ⟨q, hq, hown, hclean⟩ := h.calm.stage.pool
  have hpq : p = q := by
    have h₁ : w.storage.pool = .directory q := congrArg Storage.pool hq
    rw [hp] at h₁
    exact Place.directory.inj h₁
  subst hpq
  have hs : w.storage = s₀.withPool p := hq
  have hpool : (w.alterPool (·.drop e.name)).storage = s₀.withPool (p.drop e.name) :=
    alterPool_withPool hs
  refine ⟨⟨{ h.calm.alone with }, h.calm.level, { h.calm.stage with
    pool := ⟨p.drop e.name, hpool, hown.drop _, clean_drop hclean _⟩ }⟩, h.started, ?_⟩
  exact ⟨p.drop e.name, congrArg Storage.pool hpool, drop_head hfiles hown.distinct⟩

theorem unlink_does (e : Entry) (rest : List Entry) :
    Does s₀ false 1 (Emptying s₀ (e :: rest)) (unlink e.name) (fun _ => Emptying s₀ rest) := by
  refine Runs.start (fun w hw => ?_)
  obtain ⟨p, hp, hfiles⟩ := hw.pool
  have hregular : e.regular = true := by
    obtain ⟨q, hq, -, hclean⟩ := hw.calm.stage.pool
    have hpq : w.storage.pool = .directory q := congrArg Storage.pool hq
    rw [hp] at hpq
    cases hpq
    have h := List.all_eq_true.mp hclean e (by rw [hfiles]; simp)
    exact (Bool.and_eq_true _ _ ▸ h).2
  refine (change_does (hw.calm.broken Destroyed.held) (fun _ => ?_) (fun _ => ?_)).post
    (fun _ u hu => ?_)
  · rw [hp]
    simp [Place.reached, hfiles, hregular]
  · exact hw.unlinked.calm.broken Destroyed.held
  · rw [hu.1]
    exact hw.unlinked

theorem unlinkCookie_does :
    Does s₀ false 1 (Emptying s₀ []) unlinkCookie (fun _ => Calm (Emptied s₀)) := by
  refine Runs.start (fun w hw => ?_)
  obtain ⟨p, hp, hfiles⟩ := hw.pool
  obtain ⟨q, hq, hown, -⟩ := hw.calm.stage.pool
  have hs : w.storage = s₀.withPool q := hq
  have hpq : w.storage.pool = .directory q := congrArg Storage.pool hq
  rw [hp] at hpq
  cases hpq
  have hstage : ∀ log, Calm (Emptied s₀)
      { w.alterPool (fun p => { p with owner := none }) with log := log } := by
    intro log
    refine ⟨{ hw.calm.alone with }, hw.calm.level, { hw.calm.stage with
      pool := ⟨{ p with owner := none }, alterPool_withPool hs, hown.noted, hown.trusted, rfl, hfiles⟩
      started := hw.started }⟩
  refine (change_does (hw.calm.broken Destroyed.held) (fun _ => ?_) (fun _ => ?_)).post
    (fun _ u hu => ?_)
  · rw [hp]
    simp [Place.reached, hown.owner]
  · exact (hstage _).broken Emptied.held
  · rw [hu.1]
    exact hstage _

/-- A pool with no entries but the known ones has few. -/
theorem clean_length {p : Pool} (hc : p.clean = true) (h : (p.files.map Entry.name).Nodup) :
    p.files.length ≤ 8 := by
  have hsub : p.files.map Entry.name ⊆ poolNames := by
    intro name hn
    obtain ⟨e, he, rfl⟩ := List.mem_map.mp hn
    have hname := List.all_eq_true.mp hc e he
    exact List.contains_iff_mem.mp (Bool.and_eq_true _ _ ▸ hname).1
  calc p.files.length = (p.files.map Entry.name).length := (List.length_map _).symm
    _ ≤ poolNames.length := (List.subperm_of_subset h hsub).length_le
    _ = 8 := rfl

theorem Destroyed.checkable (h : Calm (Destroyed s₀) w) :
    ∃ p, Checkable s₀ false p w ∧ w.storage = s₀.withPool p := by
  obtain ⟨p, hp, hown, hclean⟩ := h.stage.pool
  have hs : w.storage = s₀.withPool p := hp
  have hf := h.stage.foreign
  simp only [Storage.foreign, Bool.or_eq_false_iff, Bool.not_eq_false'] at hf
  refine ⟨p, ⟨h.broken Destroyed.held, ?_, hown, ?_, ?_, fun _ => ⟨hclean, hf.2⟩⟩, hs⟩
  · rw [hs]; rfl
  · rw [hs]; rfl
  · intro d hd
    rw [hs] at hd
    exact absurd (hd.symm.trans (free_domain h.stage.free).1) (by simp)

theorem emptyPool_does :
    Does s₀ false (s₀.others.length + 16) (Calm (Destroyed s₀)) emptyPool
      (fun _ => Calm (Emptied s₀)) := by
  refine Runs.start (fun w hw => ?_)
  obtain ⟨p, hc, hs⟩ := Destroyed.checkable hw
  have hnone : w.storage.domain.isSome = false := by
    rw [hs]
    show s₀.domain.isSome = false
    rw [(free_domain hw.stage.free).1]
    rfl
  refine Runs.bind (b := 11) (checkOwned_does hc) (fun present => ?_) (by omega)
  refine Runs.given (φ := present = false ∧ p.clean = true)
    (fun _ hu => ⟨hu.2.1.trans hnone, hu.2.2.1⟩) (fun hp => ?_)
  refine Runs.pre (P := (· = w)) ?_ (fun _ hu => hu.1)
  refine require_then hc.broken (fun _ => by rw [hp.1]; rfl) (fun _ => ?_)
  refine save_then hc.broken (.destroyed { hw.stage with }) ?_
  have hsaved : Calm (Destroyed s₀) (w.saved (fun j => { j with storagePurgeStarted := true })) :=
    hw.saved (fun h => { h with })
  have hpool : (w.saved (fun j => { j with storagePurgeStarted := true })).storage.pool =
      .directory p := hc.pool
  refine poolEntries_then (hsaved.broken Destroyed.held) hpool ?_
  refine Runs.bind (a := 8) (b := 1) (Q := fun _ => Emptying s₀ []) ?_ (fun _ => unlinkCookie_does)
    (by omega)
  refine ((Runs.forEach unlink_does p.files).pre (fun u hu => ?_)).budget ?_
  · rw [hu]
    exact ⟨hsaved, rfl, p, hpool, rfl⟩
  · rw [Nat.mul_one]
    exact clean_length hp.2 hc.own.distinct

theorem Emptied.pool_eq (h : Calm (Emptied s₀) w) :
    ∃ p, w.storage.pool = .directory p ∧ w.state.poolIdentity = some p.identity ∧
      p.trusted = true ∧ p.owner = none ∧ p.files = [] := by
  obtain ⟨p, hp, hrest⟩ := h.stage.pool
  exact ⟨p, congrArg Storage.pool hp, hrest⟩

theorem confirmEmptied_does :
    Does s₀ false 1 (Calm (Emptied s₀)) confirmEmptied (fun _ => Calm (Emptied s₀)) := by
  refine Runs.start (fun w hw => ?_)
  obtain ⟨p, hp, -, -, -, hfiles⟩ := Emptied.pool_eq hw
  have hb := hw.broken Emptied.held
  refine read_then (poolEntries_then hb hp ?_)
  rw [hfiles, hw.stage.started]
  exact (require_does hb (fun _ => rfl)).post (fun _ u hu => by rw [hu.1]; exact hw)

theorem rmdir_does : Does s₀ false 1 (Calm (Emptied s₀)) rmdir (fun _ => Calm (Removed s₀)) := by
  refine Runs.start (fun w hw => ?_)
  obtain ⟨p, hp, -, -, howner, hfiles⟩ := Emptied.pool_eq hw
  have hstage : Calm (Removed s₀) (w.alter (fun s => { s with pool := .absent })) := by
    refine ⟨{ hw.alone with }, hw.level, { hw.stage with storage := ?_ }⟩
    obtain ⟨q, hq, -⟩ := hw.stage.pool
    have hs : w.storage = s₀.withPool q := hq
    show { w.storage with pool := .absent } = s₀
    rw [hs, ← free_pool hw.stage.free]
    rfl
  refine (change_does (hw.broken Emptied.held) (fun _ => ?_)
    (fun _ => hstage.broken Removed.held)).post (fun _ u hu => by rw [hu.1]; exact hstage)
  rw [hp]
  simp [howner, hfiles]

/-- The domain is destroyed, and there still is a pool. -/
def Purging (s₀ : Storage) (j : Journal) (v : View) : Prop := Destroyed s₀ j v ∨ Emptied s₀ j v

theorem Purging.held (h : Purging s₀ j v) : Held s₀ false j v := h.elim Destroyed.held Emptied.held

theorem Calm.of {φ ψ : Journal → View → Prop} (h : Calm φ w) (hψ : ψ w.state w.view) : Calm ψ w :=
  ⟨h.alone, h.level, hψ⟩

theorem Purging.pool_eq (h : Calm (Purging s₀) w) :
    ∃ p, w.storage.pool = .directory p ∧ w.state.poolIdentity = some p.identity ∧
      p.trusted = true := by
  obtain hd | he := h.stage
  · obtain ⟨p, hp, hown, -⟩ := hd.pool
    exact ⟨p, congrArg Storage.pool hp, hown.noted, hown.trusted⟩
  · obtain ⟨p, hp, hnoted, htrusted, -⟩ := Emptied.pool_eq (h.of he)
    exact ⟨p, hp, hnoted, htrusted⟩

theorem compareIdentity_does {p : Pool} (hw : Broken s₀ b w) (hp : w.storage.pool = .directory p)
    (hi : w.state.poolIdentity = some p.identity) :
    Does s₀ b 1 (· = w) compareIdentity (fun _ u => u = w) := by
  refine read_then (look_then hw ?_)
  rw [hp, hi]
  exact (require_does hw (fun _ => beq_self_eq_true _)).post (fun _ _ hu => hu.1)

theorem purgeContents_does :
    Does s₀ false (s₀.others.length + 17) (Calm (Purging s₀)) purgeContents
      (fun _ => Calm (Emptied s₀)) := by
  refine Runs.start (fun w hw => look_then (hw.broken Purging.held) ?_)
  obtain hd | he := hw.stage
  · obtain ⟨p, hp, hown, -⟩ := hd.pool
    have hpool : w.storage.pool = .directory p := congrArg Storage.pool hp
    refine Runs.ite (fun _ => emptyPool_does.pre (fun u hu => by rw [hu]; exact hw.of hd))
      (fun h => absurd ?_ h)
    rw [hpool]
    simp [Place.reached, hown.owner]
  · obtain ⟨p, hpool, -, -, howner, -⟩ := Emptied.pool_eq (hw.of he)
    refine Runs.ite (fun h => absurd h ?_) (fun _ => (confirmEmptied_does.pre
      (fun u hu => by rw [hu]; exact hw.of he)).budget (by omega))
    rw [hpool]
    simp [Place.reached, howner]

theorem purgePool_does :
    Does s₀ false (s₀.others.length + 20) (Calm (Purging s₀)) purgePool
      (fun _ => Calm (Removed s₀)) := by
  refine Runs.start (fun w hw => ?_)
  have hb := hw.broken Purging.held
  obtain ⟨p, hpool, hnoted, htrusted⟩ := Purging.pool_eq hw
  refine look_then hb ?_
  rw [hpool]
  refine require_then hb (fun _ => htrusted) (fun _ => ?_)
  refine Runs.bind (b := s₀.others.length + 18) (compareIdentity_does hb hpool hnoted)
    (fun _ => ?_) (by omega)
  refine Runs.bind (purgeContents_does.pre (fun u hu => by rw [hu]; exact hw))
    (fun _ => rmdir_does) (by omega)

/-- The pool is there, or was removed before. -/
def Purgeable (s₀ : Storage) (j : Journal) (v : View) : Prop := Purging s₀ j v ∨ Removed s₀ j v

theorem Purgeable.held (h : Purgeable s₀ j v) : Held s₀ false j v :=
  h.elim Purging.held Removed.held

theorem purgePresent_does :
    Does s₀ false (s₀.others.length + 21) (Calm (Purgeable s₀)) purgePresent
      (fun _ => Calm (Removed s₀)) := by
  refine Runs.start (fun w hw => read_then (look_then (hw.broken Purgeable.held) ?_))
  obtain hp | hr := hw.stage
  · obtain ⟨p, hpool, -, -⟩ := Purging.pool_eq (hw.of hp)
    refine Runs.ite (fun _ => purgePool_does.pre (fun u hu => by rw [hu]; exact hw.of hp))
      (fun h => absurd ?_ h)
    rw [hpool]
    rfl
  · have habsent : w.storage.pool = .absent :=
      (congrArg Storage.pool hr.storage).trans (free_pool hr.free)
    refine Runs.ite (fun h => absurd h ?_) (fun _ => ?_)
    · rw [habsent]
      decide
    · exact ((require_does (hw.broken Purgeable.held) (fun _ => hr.started)).budget
        (Nat.zero_le _)).post (fun _ u hu => by rw [hu.1]; exact hw.of hr)

/-- The run is over for the storage, and the journal says so. -/
def Ended (s₀ : Storage) (j : Journal) (v : View) : Prop := Removed s₀ j v ∧ j.vmDestroyed = true

theorem purgeStorage_does :
    Does s₀ false (s₀.others.length + 22) (Calm (Purgeable s₀)) purgeStorage
      (fun _ => Calm (Ended s₀)) := by
  refine Runs.start (fun w hw => ?_)
  have hb := hw.broken Purgeable.held
  have hdestroyed : w.state.domainDestroyed = true := by
    obtain (hd | he) | hr := hw.stage
    · exact hd.destroyed
    · exact he.destroyed
    · exact hr.destroyed
  refine read_then (require_then hb (fun _ => hdestroyed) (fun _ => ?_))
  refine phase_then ?_
  refine Runs.bind (b := 1) (purgePresent_does.pre (fun u hu => by rw [hu]; exact hw.phase _))
    (fun _ => ?_) (by omega)
  refine Runs.start (fun u hu => ?_)
  refine save_then (hu.broken Removed.held) (.removed { hu.stage with }) ?_
  refine Runs.update (fun v hv => ?_)
  rw [hv]
  exact (hu.saved (ψ := Ended s₀) (fun h => ⟨{ h with }, rfl⟩)).phase _

/-! ## Giving everything back -/

/-- The guest has nothing left that a cleanup would have to purge. -/
def Purged (j : Journal) : Prop := j.guestReady = true → j.guestPurged = true

theorem Owned.checkable (h : Calm (Owned s₀ b) w) :
    ∃ p, Checkable s₀ b p w ∧ b = (s₀.foreign || !p.clean) := by
  obtain ⟨p, hp, hown, hb⟩ := h.stage.pool
  refine ⟨p, ⟨h.broken Owned.held, hp, hown, h.stage.others.1, h.stage.domain, fun hf => ?_⟩, hb⟩
  rw [hf] at hb
  have hb' := hb.symm
  simp only [Storage.foreign, Bool.or_eq_false_iff, Bool.not_eq_false'] at hb'
  exact ⟨hb'.2, hb'.1.2⟩

/-- The domain goes on or off; its firmware may have been started. -/
theorem Owned.switched (h : Owned s₀ b j v) (hd : v.storage.domain.isSome = true) (r x y : Bool) :
    Owned s₀ b j { v with storage := { setRunning r v.storage with nvram := x, tpm := y } } := by
  refine { h with domain := fun d hd => ?_, firmware := fun hn => ?_, guest := fun h₁ h₂ => ?_ }
  · obtain ⟨d', hd', rfl⟩ := Option.map_eq_some_iff.mp hd
    exact h.domain d' hd'
  · have hnone : v.storage.domain = none := Option.map_eq_none_iff.mp hn
    rw [hnone] at hd
    exact absurd hd (by decide)
  · show (v.storage.domain.map _).isSome = true
    rw [Option.isSome_map]
    exact hd

/-- A stage in which the domain is switched on and off. -/
structure Switchable (s₀ : Storage) (b : Bool) (φ : Journal → View → Prop) : Prop where
  owned : ∀ j v, φ j v → Owned s₀ b j v
  switched : ∀ j v r x y, φ j v → v.storage.domain.isSome = true →
    φ j { v with storage := { setRunning r v.storage with nvram := x, tpm := y } }

theorem switchable_owned : Switchable s₀ b (Owned s₀ b) :=
  ⟨fun _ _ h => h, fun _ _ r x y h hd => h.switched hd r x y⟩

section Release

variable {φ : Journal → View → Prop}

theorem isRunning_does (hw : Broken s₀ b w) :
    Does s₀ b 1 (· = w) isRunning (fun r u => u = w ∧ ∃ d, w.storage.domain = some d ∧ d.running = r) := by
  refine Runs.bind (dumpxml_does hw) (fun d => ?_) (Nat.le_refl (1 + 0))
  exact Runs.pure' (fun u hu => ⟨hu.1, d, hu.2, rfl⟩)

theorem isSome_of_shutOff (h : w.shutOff = true) : w.storage.domain.isSome = true := by
  unfold World.shutOff at h
  cases hd : w.storage.domain with
  | none => rw [hd] at h; exact absurd h (by decide)
  | some d => rfl

theorem isSome_of_running (h : w.running = true) : w.storage.domain.isSome = true := by
  unfold World.running at h
  cases hd : w.storage.domain with
  | none => rw [hd] at h; exact absurd h (by decide)
  | some d => rfl

theorem Calm.switched (hφ : Switchable s₀ b φ) (h : Calm φ w) (hd : w.storage.domain.isSome = true)
    (r x y : Bool) :
    Calm φ (w.alter (fun s => { setRunning r s with nvram := x, tpm := y })) :=
  ⟨{ h.alone with }, h.level, hφ.switched _ _ r x y h.stage hd⟩

theorem Switchable.broken (hφ : Switchable s₀ b φ) (h : Calm φ w) : Broken s₀ b w :=
  h.broken (fun hs => (hφ.owned _ _ hs).held)

/-- Whether there is a domain. -/
def World.hasDomain (w : World) (present : Bool) : Prop := w.storage.domain.isSome = present

theorem start_does (hφ : Switchable s₀ b φ) :
    Does s₀ b 1 (fun u => Calm φ u ∧ u.hasDomain true) start
      (fun _ u => Calm φ u ∧ u.hasDomain true) := by
  refine Runs.start (fun w ⟨hw, hd⟩ => ?_)
  have h := hw.switched hφ hd true true true
  refine (act_does (hφ.broken hw) (fun _ => hφ.broken h)).post (fun _ u hu => ?_)
  rw [hu.1]
  refine ⟨h, ?_⟩
  show (w.storage.domain.map _).isSome = true
  rw [Option.isSome_map]
  exact hd

theorem idle_does {P : World → Prop} (hP : ∀ u, P u → Broken s₀ b u) {can : World → Bool} :
    Does s₀ b 1 P (act can (fun _ u => u)) (fun _ => P) := by
  refine Runs.start (fun w hw => ?_)
  exact (act_does (hP w hw) (fun _ => hP w hw)).post (fun _ u hu => by rw [hu.1]; exact hw)

theorem purgeGuest_does {present : Bool} :
    Does s₀ b 5 (fun u => Calm (Owned s₀ b) u ∧ u.hasDomain present) (purgeGuest present)
      (fun _ u => Calm (fun j v => Owned s₀ b j v ∧ Purged j) u ∧ u.hasDomain present) := by
  refine Runs.start (fun w ⟨hw, hd⟩ => read_then ?_)
  have hb := hw.broken Owned.held
  refine (onlyIf_does (Q := fun u => Calm (fun j v => Owned s₀ b j v ∧ Purged j) u ∧
    u.hasDomain present) (fun hc => ?_) (fun hc u hu => ?_)).pre (fun u hu => hu)
  · simp only [Bool.and_eq_true, Bool.not_eq_true'] at hc
    have hpresent : present = true := hd.symm.trans (hw.stage.guest hc.1 hc.2)
    subst hpresent
    refine Runs.bind (a := 3) (b := 2) (Q := fun _ u => Calm (Owned s₀ b) u ∧ u.hasDomain true)
      (onlyIf_does (fun _ => ?_) (fun h => absurd h (by decide))) (fun _ => ?_) (by omega)
    · refine Runs.bind (b := 2) (isRunning_does hb) (fun running => ?_) (by omega)
      refine (onlyIf_does (P := fun u => Calm (Owned s₀ b) u ∧ u.hasDomain true)
        (fun _ => ?_) (fun _ _ hu => hu)).pre (fun u hu => by rw [hu.1]; exact ⟨hw, hd⟩)
      exact Runs.bind (start_does switchable_owned)
        (fun _ => idle_does (fun u hu => hu.1.broken Owned.held)) (by omega)
    · refine Runs.start (fun u ⟨hu, hud⟩ => require_then (hu.broken Owned.held) (fun _ => rfl)
        (fun _ => ?_))
      refine Runs.bind (b := 1) (idle_does (fun v hv => by rw [hv]; exact hu.broken Owned.held))
        (fun _ => ?_) (by omega)
      refine (save_does (hu.broken Owned.held) (.owned { hu.stage with
        guest := fun _ h => absurd h (by simp) })).post (fun _ v hv => ?_)
      rw [hv]
      exact ⟨hu.saved (fun h => ⟨{ h with guest := fun _ h => absurd h (by simp) },
        fun _ => rfl⟩), hud⟩
  · rw [hu]
    refine ⟨hw.of ⟨hw.stage, fun hr => ?_⟩, hd⟩
    rw [hr] at hc
    simpa using hc

theorem removeTree_does {spot : World → Spot} {gone : World → World} {reason : String}
    (hw : Broken s₀ b w) (hl : spot w ≠ .link) (hg : Broken s₀ b (gone w)) :
    Does s₀ b 2 (· = w) (removeTree spot gone reason)
      (fun _ u => u = w ∧ spot w = .absent ∨ u = gone w) := by
  refine look_then hw (require_then hw (fun _ => ?_) (fun _ => ?_))
  · simpa using hl
  refine onlyIf_does (Q := fun u => u = w ∧ spot w = .absent ∨ u = gone w) (fun _ => ?_)
    (fun hc u hu => Or.inl ⟨hu, ?_⟩)
  · exact (change_does hw (fun _ => rfl) (fun _ => hg)).post (fun _ u hu => Or.inr hu.1)
  · cases hs : spot w with
    | absent => rfl
    | directory => rw [hs] at hc; exact absurd hc (by decide)
    | link => exact absurd hs hl

/-- The guest and the certifier have nothing left. -/
def Bare (s₀ : Storage) (b : Bool) (j : Journal) (v : View) : Prop :=
  Owned s₀ b j v ∧ Purged j ∧ v.noWork

theorem switchable_bare : Switchable s₀ b (Bare s₀ b) :=
  ⟨fun _ _ h => h.1, fun _ _ r x y h hd => ⟨h.1.switched hd r x y, h.2⟩⟩

theorem purgeSecrets_does {present : Bool} :
    Does s₀ b 5 (fun u => Calm (fun j v => Owned s₀ b j v ∧ Purged j) u ∧ u.hasDomain present)
      purgeSecrets (fun _ u => Calm (Bare s₀ b) u ∧ u.hasDomain present) := by
  refine Runs.start (fun w ⟨hw, hd⟩ => read_then ?_)
  have hheld : ∀ u, Calm (fun j v => Owned s₀ b j v ∧ Purged j) u → Broken s₀ b u :=
    fun u hu => hu.broken (fun h => h.1.held)
  refine (onlyIf_does (Q := fun u => Calm (Bare s₀ b) u ∧ u.hasDomain present)
    (fun _ => ?_) (fun hc u hu => ?_)).pre (fun u hu => hu)
  · have hbackup : Calm (fun j v => Owned s₀ b j v ∧ Purged j) { w with backup := .absent } :=
      ⟨{ hw.alone with backup := by simp }, hw.level, { hw.stage.1 with
        secrets := fun h => ⟨rfl, (hw.stage.1.secrets h).2⟩ }, hw.stage.2⟩
    refine Runs.bind (a := 2) (b := 3) (Q := fun _ u =>
      (Calm (fun j v => Owned s₀ b j v ∧ Purged j) u ∧ u.hasDomain present) ∧ u.backup = .absent)
      ((removeTree_does (hheld w hw) hw.alone.backup (hheld _ hbackup)).post (fun _ u hu => ?_))
      (fun _ => ?_) (by omega)
    · obtain ⟨rfl, ha⟩ | rfl := hu
      · exact ⟨⟨hw, hd⟩, ha⟩
      · exact ⟨⟨hbackup, hd⟩, rfl⟩
    refine Runs.start (fun u ⟨⟨hu, hud⟩, hua⟩ => ?_)
    have hinputs : Calm (fun j v => Owned s₀ b j v ∧ Purged j) { u with inputs := .absent } :=
      ⟨{ hu.alone with inputs := by simp }, hu.level, { hu.stage.1 with
        secrets := fun h => ⟨(hu.stage.1.secrets h).1, rfl⟩ }, hu.stage.2⟩
    refine Runs.bind (a := 2) (b := 1) (Q := fun _ v => Calm (Bare s₀ b) v ∧ v.hasDomain present)
      ((removeTree_does (hheld u hu) hu.alone.inputs (hheld _ hinputs)).post (fun _ v hv => ?_))
      (fun _ => ?_) (by omega)
    · obtain ⟨rfl, ha⟩ | rfl := hv
      · exact ⟨hu.of ⟨hu.stage.1, hu.stage.2, hua, ha⟩, hud⟩
      · exact ⟨hinputs.of ⟨hinputs.stage.1, hinputs.stage.2, hua, rfl⟩, hud⟩
    refine Runs.start (fun v ⟨hv, hvd⟩ => ?_)
    refine (save_does (switchable_bare.broken hv) (.owned { hv.stage.1 with
      secrets := fun _ => hv.stage.2.2 })).post (fun _ x hx => ?_)
    rw [hx]
    exact ⟨hv.saved (fun h => ⟨{ h.1 with secrets := fun _ => h.2.2 }, h.2⟩), hvd⟩
  · rw [hu]
    exact ⟨hw.of ⟨hw.stage.1, hw.stage.2, hw.stage.1.secrets (by simpa using hc)⟩, hd⟩

/-- The domain is undefined, and the pool is as it was. -/
theorem destroyDomain_does {p : Pool} :
    Does s₀ b 3 (fun u => (Calm (Bare s₀ b) u ∧ u.hasDomain true) ∧ u.storage.pool = .directory p)
      destroyDomain
      (fun _ u => (Calm (Bare s₀ b) u ∧ NoDomain s₀ u.storage) ∧ u.storage.pool = .directory p) := by
  refine Runs.start (fun w ⟨⟨hw, hd⟩, hp⟩ => ?_)
  refine Runs.bind (b := 2) (isRunning_does (switchable_bare.broken hw)) (fun running => ?_)
    (by omega)
  refine Runs.bind (a := 1) (b := 1) (Q := fun _ u =>
      (Calm (Bare s₀ b) u ∧ u.hasDomain true) ∧ u.storage.pool = .directory p)
    ((onlyIf_does (P := (· = w)) (fun _ => ?_) (fun _ u hu => ?_)).pre (fun u hu => hu.1))
    (fun _ => ?_) (by omega)
  · have h := hw.switched switchable_bare hd false w.storage.nvram w.storage.tpm
    refine ((@act_does _ _ _ _ (fun u => u.alter (setRunning false))) (switchable_bare.broken hw)
      (fun _ => switchable_bare.broken h)).post (fun _ u hu => ?_)
    rw [hu.1]
    refine ⟨⟨h, ?_⟩, hp⟩
    show (w.storage.domain.map _).isSome = true
    rw [Option.isSome_map]
    exact hd
  · rw [hu]
    exact ⟨⟨hw, hd⟩, hp⟩
  · refine Runs.start (fun u ⟨⟨hu, hud⟩, hup⟩ => ?_)
    let gone : Storage → Storage := fun s => { s with domain := none, nvram := false, tpm := false }
    have h : Calm (Bare s₀ b) (u.alter gone) := by
      refine ⟨{ hu.alone with }, hu.level, { hu.stage.1 with
        domain := fun d hd => absurd hd (by simp [World.view, World.alter, gone])
        firmware := fun _ => ⟨rfl, rfl⟩
        guest := fun h₁ h₂ => ?_ }, hu.stage.2⟩
      have hpurged : u.state.guestPurged = true := hu.stage.2.1 h₁
      have hnot : u.state.guestPurged = false := h₂
      rw [hpurged] at hnot
      exact absurd hnot (by decide)
    refine ((@act_does _ _ _ _ (fun v => v.alter gone)) (switchable_bare.broken hu)
      (fun _ => switchable_bare.broken h)).post (fun _ v hv => ?_)
    rw [hv.1]
    exact ⟨⟨h, rfl, rfl, rfl, hu.stage.1.others.1, hu.stage.1.others.2⟩, hup⟩

theorem NoDomain.withPool {s : Storage} {p : Pool} (h : NoDomain s₀ s) (hf : s₀.free = true)
    (hp : s.pool = .directory p) : s = s₀.withPool p := by
  obtain ⟨h₁, h₂, h₃⟩ := free_domain hf
  obtain ⟨pool, domain, nvram, tpm, others, stray⟩ := s
  obtain ⟨rfl, rfl, rfl, rfl, rfl⟩ := h
  cases hp
  unfold Storage.withPool
  rw [h₁, h₂, h₃]

/-- A run that owns its pool ends with everything gone, unless the pool is stranded. -/
theorem releaseFixture_does :
    Does s₀ b (3 * s₀.others.length + 51) (Calm (Owned s₀ b)) releaseFixture
      (fun _ u => Calm (Ended s₀) u ∧ b = false) := by
  refine Runs.start (fun w hw => ?_)
  obtain ⟨p, hc, -⟩ := Owned.checkable hw
  refine Runs.bind (b := 2 * s₀.others.length + 46) (checkOwned_does hc) (fun present => ?_)
    (by omega)
  refine Runs.bind (a := 5) (b := 2 * s₀.others.length + 41) (purgeGuest_does.pre (fun u hu => ?_))
    (fun _ => ?_) (by omega)
  · rw [hu.1]
    exact ⟨hw, hu.2.1.symm⟩
  refine Runs.bind (a := 5) (b := 2 * s₀.others.length + 36) purgeSecrets_does (fun _ => ?_)
    (by omega)
  refine Runs.start (fun u ⟨hu, hud⟩ => ?_)
  obtain ⟨q, hq, hstranded⟩ := Owned.checkable (hu.of hu.stage.1)
  refine Runs.bind (b := s₀.others.length + 31) (checkOwned_does hq) (fun _ => ?_) (by omega)
  refine Runs.given (φ := q.clean = true ∧ s₀.unshared = true) (fun _ h => h.2.2) (fun hpass => ?_)
  refine Runs.bind (a := 3) (b := s₀.others.length + 28) (Q := fun _ v =>
    (Calm (Bare s₀ b) v ∧ NoDomain s₀ v.storage) ∧ v.storage.pool = .directory q)
    (onlyIf_does (fun hp => destroyDomain_does.pre (fun v hv => ?_)) (fun hp v hv => ?_))
    (fun _ => ?_) (by omega)
  · rw [hv.1]
    exact ⟨⟨hu, hud.trans hp⟩, hq.pool⟩
  · rw [hv.1]
    have hnone : u.storage.domain = none := Option.isSome_eq_false_iff.mp (hud.trans hp) |> Option.isNone_iff_eq_none.mp
    obtain ⟨h₁, h₂⟩ := hu.stage.1.firmware hnone
    exact ⟨⟨hu, hnone, h₁, h₂, hu.stage.1.others.1, hu.stage.1.others.2⟩, hq.pool⟩
  refine Runs.start (fun v ⟨⟨hv, hnd⟩, hvp⟩ => ?_)
  have hvb := switchable_bare.broken hv
  refine Runs.bind (b := s₀.others.length + 23) (verifyDestroyedDomain_does hvb hnd
    hv.stage.1.free (fun h => ?_)) (fun _ => ?_) (by omega)
  · rw [h] at hstranded
    have hs := hstranded.symm
    simp only [Storage.foreign, Bool.or_eq_false_iff] at hs
    exact hs.1.1
  refine Runs.given (fun _ h => h.2) (fun hstray => ?_)
  have hforeign : s₀.foreign = false := by
    unfold Storage.foreign
    rw [hstray, hpass.2]
    rfl
  -- the checks have passed, so the pool is not stranded
  have hb : b = false := by
    rw [hstranded, hforeign, hpass.1]
    rfl
  subst hb
  have hpool : v.storage = s₀.withPool q := hnd.withPool hv.stage.1.free hvp
  have hown : OwnPool v.state.poolIdentity v.state.cookie q := by
    obtain ⟨q', hq', hown, -⟩ := hv.stage.1.pool
    have hvq : v.storage.pool = .directory q' := hq'
    rw [hvp] at hvq
    cases hvq
    exact hown
  have hdestroyed : Destroyed s₀ { v.state with domainDestroyed := true } v.view :=
    { hv.stage.1 with
      pool := ⟨q, hpool, hown, hpass.1⟩
      work := hv.stage.2.2
      foreign := hforeign
      destroyed := rfl }
  refine (Runs.bind (a := 1) (b := s₀.others.length + 22) (Q := fun _ => Calm (Destroyed s₀))
    ((save_does (hvb.phase .verified) (.destroyed hdestroyed)).post (fun _ x hx => ?_))
    (fun _ => (purgeStorage_does.pre (fun x hx => hx.of (Or.inl (Or.inl hx.stage)))).post
      (fun _ x hx => ⟨hx, rfl⟩)) (by omega)).pre (fun x hx => hx.1)
  rw [hx]
  exact (hv.phase .verified).saved (fun _ => hdestroyed)

end Release

/-! ## A cleanup -/

/-- The stages after a purge that had been begun. -/
inductive Later (s₀ : Storage) : Bool → Journal → View → Prop
  | untouched {i : Journal} {u : View} (h : Untouched s₀ i u) : Later s₀ false i u
  | unowned {i : Journal} {u : View} (h : Unowned s₀ i u) : Later s₀ true i u
  | owned {a : Bool} {i : Journal} {u : View} (h : Owned s₀ a i u) : Later s₀ a i u
  | ended {i : Journal} {u : View} (h : Ended s₀ i u) : Later s₀ false i u

/-- The stages in which a cleanup has nothing more to do with the storage. -/
inductive Done (s₀ : Storage) : Bool → Journal → View → Prop
  | untouched {i : Journal} {u : View} (h : Untouched s₀ i u) : Done s₀ false i u
  | unowned {i : Journal} {u : View} (h : Unowned s₀ i u) : Done s₀ true i u
  | ended {i : Journal} {u : View} (h : Ended s₀ i u) : Done s₀ false i u

theorem Later.held (h : Later s₀ b j v) : Held s₀ b j v := by
  cases h with
  | untouched h => exact .untouched h
  | unowned h => exact .unowned h
  | owned h => exact .owned h
  | ended h => exact .removed h.1

theorem Done.held (h : Done s₀ b j v) : Held s₀ b j v := by
  cases h with
  | untouched h => exact .untouched h
  | unowned h => exact .unowned h
  | ended h => exact .removed h.1

theorem Held.credentials (h : Held s₀ b j v) : Held s₀ b { j with credentialsCleaned := true } v := by
  cases h with
  | untouched h => exact .untouched { h with }
  | unowned h => exact .unowned { h with }
  | owned h => exact .owned { h with }
  | destroyed h => exact .destroyed { h with }
  | emptied h => exact .emptied { h with }
  | removed h => exact .removed { h with }

theorem Done.private (h : Done s₀ b j v) : Done s₀ b { j with privatePurged := true } v := by
  cases h with
  | untouched h => exact .untouched { h with }
  | unowned h => exact .unowned { h with }
  | ended h => exact .ended ⟨{ h.1 with }, h.2⟩

theorem Calm.held (h : Calm (Held s₀ b) w) : Broken s₀ b w := h.broken id

theorem cleanCredentials_does :
    Does s₀ b 2 (Calm (Held s₀ b)) cleanCredentials (fun _ => Calm (Held s₀ b)) := by
  refine Runs.start (fun w hw => read_then (onlyIf_does (Q := Calm (Held s₀ b)) (fun _ => ?_)
    (fun _ u hu => by rw [hu]; exact hw)))
  refine Runs.bind (b := 1) (idle_does (fun u hu => by rw [hu]; exact hw.held)) (fun _ => ?_)
    (by omega)
  refine (save_does hw.held hw.stage.credentials).post (fun _ u hu => ?_)
  rw [hu]
  exact hw.saved (fun h => h.credentials)

theorem Purgeable.noDomain (h : Calm (Purgeable s₀) w) :
    NoDomain s₀ w.storage ∧ s₀.free = true ∧ s₀.stray = false := by
  have hf : s₀.free = true ∧ s₀.foreign = false := by
    obtain (hd | he) | hr := h.stage
    · exact ⟨hd.free, hd.foreign⟩
    · exact ⟨he.free, he.foreign⟩
    · exact ⟨hr.free, hr.foreign⟩
  refine ⟨?_, hf.1, ?_⟩
  · obtain (hd | he) | hr := h.stage
    · obtain ⟨p, hp, -⟩ := hd.pool
      have hs : w.storage = s₀.withPool p := hp
      rw [hs]
      exact noDomain_withPool hf.1 p
    · obtain ⟨p, hp, -⟩ := he.pool
      have hs : w.storage = s₀.withPool p := hp
      rw [hs]
      exact noDomain_withPool hf.1 p
    · have hs : w.storage = s₀ := hr.storage
      rw [hs]
      exact noDomain_free hf.1
  · have h := hf.2
    simp only [Storage.foreign, Bool.or_eq_false_iff] at h
    exact h.1

/-- A purge that had been begun is finished. -/
theorem finishPurge_does :
    Does s₀ false (s₀.others.length + 27) (Calm (Purgeable s₀))
      (do verifyDestroyedDomain; purgeStorage) (fun _ => Calm (Ended s₀)) := by
  refine Runs.start (fun w hw => ?_)
  obtain ⟨hd, hf, hs⟩ := Purgeable.noDomain hw
  refine Runs.bind (verifyDestroyedDomain_does (hw.broken Purgeable.held) hd hf (fun _ => hs))
    (fun _ => purgeStorage_does.pre (fun u hu => ?_)) (by omega)
  rw [hu.1]
  exact hw.phase _

theorem resume_does :
    Does s₀ b (s₀.others.length + 27) (fun u => u = w ∧ Calm (Held s₀ b) w)
      (onlyIf (w.state.domainDestroyed && !w.state.vmDestroyed) (do
        verifyDestroyedDomain
        purgeStorage)) (fun _ => Calm (Later s₀ b)) := by
  refine Runs.given (fun _ hu => hu.2) (fun hw => ?_)
  refine onlyIf_does (fun hc => ?_) (fun hc u hu => ?_)
  · simp only [Bool.and_eq_true, Bool.not_eq_true'] at hc
    suffices h : b = false ∧ Purgeable s₀ w.state w.view by
      obtain ⟨rfl, hp⟩ := h
      exact (finishPurge_does.pre (fun u hu => by rw [hu.1]; exact hw.of hp)).post
        (fun _ u hu => hu.of (.ended hu.stage))
    have hstage := hw.stage
    revert hstage hc
    generalize w.state = j
    generalize w.view = v
    intro hc hstage
    cases hstage with
    | untouched h => exact absurd (h.destroyed.symm.trans hc.1) (by decide)
    | unowned h => exact absurd (h.destroyed.symm.trans hc.1) (by decide)
    | owned h => exact absurd (h.destroyed.symm.trans hc.1) (by decide)
    | destroyed h => exact ⟨rfl, Or.inl (Or.inl h)⟩
    | emptied h => exact ⟨rfl, Or.inl (Or.inr h)⟩
    | removed h => exact ⟨rfl, Or.inr h⟩
  · rw [hu.1]
    refine hw.of ?_
    have hstage := hw.stage
    revert hstage hc
    generalize w.state = j
    generalize w.view = v
    intro hc hstage
    cases hstage with
    | untouched h => exact .untouched h
    | unowned h => exact .unowned h
    | owned h => exact .owned h
    | destroyed h => rw [h.destroyed, h.vm] at hc; exact absurd hc (by decide)
    | emptied h => rw [h.destroyed, h.vm] at hc; exact absurd hc (by decide)
    | removed h =>
      rw [h.destroyed] at hc
      exact .ended ⟨h, by simpa using hc⟩

theorem release_does :
    Does s₀ b (3 * s₀.others.length + 51) (fun u => u = w ∧ Calm (Later s₀ b) w)
      (onlyIf (w.state.poolOwned && !w.state.vmDestroyed) releaseFixture)
      (fun _ => Calm (Done s₀ b)) := by
  refine Runs.given (fun _ hu => hu.2) (fun hw => ?_)
  refine onlyIf_does (fun hc => ?_) (fun hc u hu => ?_)
  · simp only [Bool.and_eq_true, Bool.not_eq_true'] at hc
    suffices h : Owned s₀ b w.state w.view by
      refine (releaseFixture_does.pre (fun u hu => by rw [hu.1]; exact hw.of h)).post
        (fun _ u hu => ?_)
      rw [hu.2]
      exact hu.1.of (.ended hu.1.stage)
    have hstage := hw.stage
    revert hstage hc
    generalize w.state = j
    generalize w.view = v
    intro hc hstage
    cases hstage with
    | untouched h => exact absurd (h.owned.symm.trans hc.1) (by decide)
    | unowned h => exact absurd (h.owned.symm.trans hc.1) (by decide)
    | owned h => exact h
    | ended h => exact absurd (h.2.symm.trans hc.2) (by decide)
  · rw [hu.1]
    refine hw.of ?_
    have hstage := hw.stage
    revert hstage hc
    generalize w.state = j
    generalize w.view = v
    intro hc hstage
    cases hstage with
    | untouched h => exact .untouched h
    | unowned h => exact .unowned h
    | owned h => rw [h.owned, h.vm] at hc; exact absurd hc (by decide)
    | ended h => exact .ended h

/-- `self.private` is removed in every case. -/
theorem purgePrivate_does :
    Does s₀ b 4 (Calm (Done s₀ b)) purgePrivate
      (fun _ u => Calm (Done s₀ b) u ∧ u.material = .absent) := by
  refine Runs.start (fun w hw => ?_)
  have hgone : Calm (Done s₀ b) { w with material := .absent } :=
    ⟨{ hw.alone with material := by simp }, hw.level, hw.stage⟩
  refine Runs.bind (a := 2) (b := 2) (Q := fun _ u => Calm (Done s₀ b) u ∧ u.material = .absent)
    ((removeTree_does (hw.broken Done.held) hw.alone.material (hgone.broken Done.held)).post
      (fun _ u hu => ?_)) (fun _ => ?_) (by omega)
  · obtain ⟨rfl, ha⟩ | rfl := hu
    · exact ⟨hw, ha⟩
    · exact ⟨hgone, rfl⟩
  refine Runs.start (fun u ⟨hu, ha⟩ => look_then (hu.broken Done.held) ?_)
  refine require_then (hu.broken Done.held) (fun _ => by rw [ha]; rfl) (fun _ => ?_)
  refine (save_does (hu.broken Done.held) hu.stage.private.held).post (fun _ v hv => ?_)
  rw [hv]
  exact ⟨hu.saved Done.private, ha⟩

theorem writeRecord_does :
    Does s₀ b 1 (fun u => Calm (Done s₀ b) u ∧ u.material = .absent) writeRecord
      (fun _ u => Calm (Done s₀ b) u ∧ u.material = .absent) := by
  have hrecord : ∀ u r, Calm (Done s₀ b) u → Calm (Done s₀ b) { u with record := r } :=
    fun u r hu => ⟨{ hu.alone with }, hu.level, hu.stage⟩
  refine Runs.start (fun w ⟨hw, ha⟩ => ?_)
  refine Runs.bind (a := 0) (b := 1) (meanwhile_does (hw.broken Done.held)) (fun _ => ⟨?_, ?_⟩)
    (by omega)
  · exact atomic_triple (fun _ u hu => by rw [hu]; exact ⟨hrecord w _ hw, ha⟩)
      (fun _ u hu => by rw [hu]; exact hw.broken Done.held)
      (fun _ _ u hu => by rw [hu]; exact (hrecord w _ hw).broken Done.held)
  · exact atomic_within (fun _ hm => hm) (fun _ u _ hu => by rw [hu]; exact ⟨hrecord w _ hw, ha⟩)

theorem cleanup_does :
    Does s₀ b (4 * s₀.others.length + 85) (Calm (Held s₀ b)) cleanup
      (fun _ u => Calm (Done s₀ b) u ∧ u.material = .absent) := by
  refine Runs.bind (b := 4 * s₀.others.length + 83) cleanCredentials_does (fun _ => ?_) (by omega)
  refine Runs.start (fun w hw => read_then ?_)
  refine Runs.bind (a := s₀.others.length + 27) (b := 3 * s₀.others.length + 56)
    (resume_does.pre (fun u hu => ⟨hu, hw⟩)) (fun _ => ?_) (by omega)
  refine Runs.start (fun u hu => read_then ?_)
  refine Runs.bind (b := 5) (release_does.pre (fun v hv => ⟨hv, hu⟩)) (fun _ => ?_) (by omega)
  exact Runs.bind purgePrivate_does (fun _ => writeRecord_does) (by omega)

end Hermes.Fixture

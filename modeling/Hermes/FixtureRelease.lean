import Hermes.FixtureCleanup

/- Preparing the fixture, and what its cleanups give back. `prepare` can be cut off
   anywhere; `cleanup_releases` says when a cleanup still gives everything back: unless the
   run left its pool stranded. `unnoted_pool_remains` and `temporary_blocks_cleanup` are
   runs that do. -/
namespace Hermes.Fixture
open Process

variable {s₀ : Storage} {b : Bool} {j : Journal} {v : View} {w : World} {α β : Type}
  {φ ψ : Journal → View → Prop}

/-! ## The rules of the operations -/

/-- A run that was cut off while the pool became its own may be stranded for the journal
    and not for the state. -/
structure Torn (s₀ : Storage) (w : World) : Prop where
  alone : Alone w
  journal : ∃ b, Held s₀ b w.journal w.view
  state : ∃ b, Held s₀ b w.state w.view

/-- A stage of the run. -/
def Stage (s₀ : Storage) (φ : Journal → View → Prop) : Prop := ∀ j v, φ j v → ∃ b, Held s₀ b j v

theorem Calm.torn (h : Calm φ w) (hφ : Stage s₀ φ) : Torn s₀ w :=
  have hs := hφ _ _ h.stage
  ⟨h.alone, by rw [h.level]; exact hs, hs⟩

theorem Calm.meddle (h : Calm φ w) : Calm φ w.meddle := by
  rw [h.alone.meddle]
  exact h

/-- A part of `prepare`: it goes from one stage to another, or is cut off. -/
abbrev Goes (s₀ : Storage) (φ : Journal → View → Prop) (x : Cmd α) (ψ : Journal → View → Prop) :
    Prop :=
  Triple (Calm φ) x (fun _ => Calm ψ) (fun _ => Torn s₀)

/-- A part that stays in a stage. -/
abbrev Remains (s₀ : Storage) (φ : Journal → View → Prop) (x : Cmd α) : Prop := Goes s₀ φ x φ

section Rules

variable {can : World → Bool} {effect : Moment → World → World} {note : Journal → Journal}

theorem meanwhile_goes : Remains s₀ φ meanwhile :=
  meanwhile_triple (fun _ hw => hw.meddle)

theorem look_goes (hφ : Stage s₀ φ) {value : World → α} : Remains s₀ φ (look value) :=
  look_triple (fun _ hw => hw.meddle) (fun _ hw => hw) (fun _ _ hw => hw.torn hφ)

theorem act_goes (hφ : Stage s₀ φ) (hψ : Stage s₀ ψ)
    (he : ∀ m w, Calm φ w → can w = true → Calm ψ (effect m w)) : Goes s₀ φ (act can effect) ψ :=
  act_triple (fun _ hw => hw.meddle) he (fun _ _ hw => hw.torn hφ)
    (fun _ m w hw hc => (he m w hw hc).torn hψ)

theorem change_goes (hφ : Stage s₀ φ) (hψ : Stage s₀ ψ)
    (he : ∀ m w, Calm φ w → can w = true → Calm ψ (effect m w)) :
    Goes s₀ φ (change can effect) ψ :=
  change_triple (fun _ hw => hw.meddle) he (fun _ _ hw => hw.torn hφ)
    (fun _ m w hw hc => (he m w hw hc).torn hψ)

theorem check_goes (hφ : Stage s₀ φ) {what : String} : Remains s₀ φ (check what) :=
  act_goes hφ hφ (fun _ _ hw _ => hw)

/-- A save may be cut off before the journal has it. -/
theorem save_goes (hφ : Stage s₀ φ) (hψ : Stage s₀ ψ) (hn : ∀ j v, φ j v → ψ (note j) v) :
    Goes s₀ φ (save note) ψ := by
  refine save_triple (R := fun u => Alone u ∧ φ u.journal u.view ∧ ψ u.state u.view) ?_ ?_ ?_ ?_ ?_
  · intro w hw
    refine ⟨{ hw.alone with }, ?_, hn _ _ hw.stage⟩
    show φ w.journal w.view
    rw [hw.level]
    exact hw.stage
  · intro w hw
    rw [hw.1.meddle]
    exact hw
  · exact fun w hw => ⟨{ hw.1 with }, rfl, hw.2.2⟩
  · exact fun _ w hw => ⟨hw.1, hφ _ _ hw.2.1, hψ _ _ hw.2.2⟩
  · exact fun _ w hw => ⟨{ hw.1 with }, hψ _ _ hw.2.2, hψ _ _ hw.2.2⟩

theorem require_goes (hφ : Stage s₀ φ) {c : Bool} {reason : String} {code : Nat} :
    Remains s₀ φ (require c reason code) :=
  require_triple (fun _ _ hw => hw) (fun _ _ hw => hw.torn hφ)

theorem query_goes (hφ : Stage s₀ φ) {value : Moment → World → α} :
    Remains s₀ φ (query (fun _ => true) value) :=
  query_triple (fun _ _ hw _ => hw) (fun _ _ hw => hw.torn hφ)

theorem onlyIf_goes {c : Bool} {x : Cmd Unit} (hx : Remains s₀ φ x) : Remains s₀ φ (onlyIf c x) :=
  onlyIf_triple (fun _ => hx) (fun _ _ hw => hw)

theorem raise_goes (hφ : Stage s₀ φ) {e : Exc} : Goes s₀ φ (Proc.raise e : Cmd α) ψ :=
  Triple.raise (fun _ hw => hw.torn hφ)

theorem dumpxml_goes (hφ : Stage s₀ φ) {domain : World → Option α} :
    Remains s₀ φ (dumpxml domain) :=
  dumpxml_triple (fun _ hw => hw.meddle) (fun _ _ hw _ => hw) (fun _ _ hw => hw.torn hφ)

/-- What is read is some state of the stage. -/
theorem read_goes {f : World → Cmd α} (h : ∀ u, Goes s₀ φ (f u) ψ) :
    Goes s₀ φ (Proc.read >>= f) ψ :=
  Triple.bind (Q := fun _ => Calm φ) (Triple.read (fun _ hw => hw)) h

end Rules

section Steps

theorem checkResources_goes (hφ : Stage s₀ φ) (hn : ∀ j v, φ j v → φ (id j) v) {x : Host} :
    Remains s₀ φ (checkResources x) := by
  refine Triple.bind meanwhile_goes (fun _ => Triple.bind (query_goes hφ) (fun m => ?_))
  refine Triple.bind (save_goes hφ hφ hn) (fun _ => ?_)
  exact Triple.bind (require_goes hφ) (fun _ => require_goes hφ)

theorem checkReady_goes (hφ : Stage s₀ φ) {ready : Moment → Bool} {reason : String} {code : Nat} :
    Remains s₀ φ (checkReady ready reason code) :=
  Triple.bind meanwhile_goes (fun _ => Triple.bind (query_goes hφ) (fun _ => require_goes hφ))

theorem ownerFile_goes (hφ : Stage s₀ φ) {place : Place} : Remains s₀ φ (ownerFile place) := by
  unfold ownerFile
  split
  · exact raise_goes hφ
  · split
    · exact raise_goes hφ
    · split
      · exact raise_goes hφ
      · exact Triple.bind (require_goes hφ) (fun _ => Triple.pure' (fun _ hw => hw))

theorem poolEntries_goes (hφ : Stage s₀ φ) : Remains s₀ φ poolEntries := by
  refine Triple.bind (look_goes hφ) (fun place => ?_)
  split
  · exact raise_goes hφ
  · exact Triple.pure' (fun _ hw => hw)

theorem inspectDomain_goes (hφ : Stage s₀ φ) {installing : Bool} :
    Remains s₀ φ (inspectDomain installing) := by
  refine Triple.bind (dumpxml_goes hφ) (fun d => ?_)
  split
  · exact Triple.pure' (fun _ hw => hw)
  · exact raise_goes hφ

theorem checkOwned_goes (hφ : Stage s₀ φ) {installing : Bool} :
    Remains s₀ φ (checkOwned installing) := by
  refine read_goes (fun u => Triple.bind (look_goes hφ) (fun place => ?_))
  refine Triple.bind (ownerFile_goes hφ) (fun owner => Triple.bind (require_goes hφ) (fun _ => ?_))
  refine Triple.bind (poolEntries_goes hφ) (fun _ => Triple.bind (require_goes hφ) (fun _ => ?_))
  refine Triple.bind (poolEntries_goes hφ) (fun _ => Triple.bind (require_goes hφ) (fun _ => ?_))
  refine Triple.bind (look_goes hφ) (fun found => ?_)
  obtain ⟨present, others⟩ := found
  refine Triple.bind (onlyIf_goes (inspectDomain_goes hφ)) (fun _ => ?_)
  refine Triple.bind ?_ (fun _ => Triple.pure' (fun _ hw => hw))
  exact Triple.forEach (I := fun _ => Calm φ)
    (fun _ _ => Triple.bind (dumpxml_goes hφ) (fun _ => require_goes hφ)) others

end Steps

/-! ## Until the journal knows of the pool -/

/-- What the journal of a run says that has no guest yet. -/
structure Early (j : Journal) : Prop where
  guest : j.guestReady = false
  secrets : j.certifierSecretsPurged = false
  vm : j.vmDestroyed = false

/-- Before `preflight` is through. -/
def Starting (s₀ : Storage) (j : Journal) (v : View) : Prop :=
  Untouched s₀ j v ∧ j.inputsStarted = false ∧ Early j

/-- After it. -/
def Begun (s₀ : Storage) (j : Journal) (v : View) : Prop :=
  Untouched s₀ j v ∧ j.inputsStarted = true ∧ Early j

/-- The pool of the run, not noted yet. -/
def Making (s₀ : Storage) (p : Pool) (j : Journal) (v : View) : Prop :=
  (Unowned s₀ j v ∧ v.storage = s₀.withPool p) ∧ Early j

theorem stage_starting : Stage s₀ (Starting s₀) := fun _ _ h => ⟨false, .untouched h.1⟩
theorem stage_begun : Stage s₀ (Begun s₀) := fun _ _ h => ⟨false, .untouched h.1⟩
theorem stage_making {p : Pool} : Stage s₀ (Making s₀ p) := fun _ _ h => ⟨true, .unowned h.1.1⟩

/-- What a look at the untouched storage finds is true of the storage at the start. -/
theorem look_starting {value : Storage → α} :
    Triple (Calm (Starting s₀)) (look (fun w => value w.storage))
      (fun a w => Calm (Starting s₀) w ∧ a = value s₀) (fun _ => Torn s₀) := by
  refine look_triple (fun _ hw => hw.meddle) (fun w hw => ⟨hw, ?_⟩)
    (fun _ _ hw => hw.torn stage_starting)
  exact congrArg value hw.stage.1.storage

theorem require_starting {c : Bool} {reason : String} {code : Nat} :
    Triple (Calm (Starting s₀)) (require c reason code) (fun _ w => Calm (Starting s₀) w ∧ c = true)
      (fun _ => Torn s₀) :=
  require_triple (fun hc _ hw => ⟨hw, hc⟩) (fun _ _ hw => hw.torn stage_starting)

/-- A check of the storage at the start, and what follows once it has passed. -/
theorem look_require {value : Storage → Bool} {reason : String} {x : Cmd α}
    (hx : value s₀ = false → Goes s₀ (Starting s₀) x ψ) :
    Goes s₀ (Starting s₀) (do
      let found ← look (fun w => value w.storage)
      require (!found) reason
      x) ψ := by
  refine Triple.bind look_starting (fun found => Triple.given (fun _ h => h.2) (fun hf => ?_))
  refine Triple.bind (require_starting.pre (fun _ h => h.1)) (fun _ => ?_)
  refine Triple.given (fun _ h => h.2) (fun hc => (hx ?_).pre (fun _ h => h.1))
  rw [← hf]
  simpa using hc

theorem preflight_goes {x : Host} : Goes s₀ (Starting s₀) (preflight x) (Begun s₀) := by
  have hn : ∀ j v, Starting s₀ j v → Starting s₀ (id j) v := fun _ _ h => h
  refine Triple.bind (check_goes stage_starting) (fun _ => ?_)
  refine Triple.bind (save_goes stage_starting stage_starting hn) (fun _ => ?_)
  refine Triple.bind (@look_starting _ _ (·.domain.isSome)) (fun named => ?_)
  refine Triple.given (fun _ h => h.2) (fun hnamed => ?_)
  refine Triple.bind ((@look_starting _ _ (fun s => s.others.any (fun o => o.uuid = uuid))).pre
    (fun _ h => h.1)) (fun identified => Triple.given (fun _ h => h.2) (fun hidentified => ?_))
  refine Triple.bind (require_starting.pre (fun _ h => h.1)) (fun _ => ?_)
  refine Triple.given (fun _ h => h.2) (fun hdomain => Triple.pre ?_ (fun _ h => h.1))
  refine (@look_require _ _ _ (·.pool.present)) (fun hpool => ?_)
  refine (@look_require _ _ _ (·.nvram)) (fun hnvram => ?_)
  refine (@look_require _ _ _ (·.tpm)) (fun htpm => ?_)
  have hfree : s₀.free = true := by
    simp only [Bool.and_eq_true, Bool.not_eq_true'] at hdomain
    have hd : s₀.domain = none := by
      rw [hnamed] at hdomain
      exact Option.isNone_iff_eq_none.mp (Option.isSome_eq_false_iff.mp hdomain.1)
    have ho : s₀.others.all (fun o => o.uuid ≠ uuid) = true := by
      rw [hidentified] at hdomain
      have h := List.any_eq_false.mp hdomain.2
      exact List.all_eq_true.mpr (fun o hmem => by simpa using h o hmem)
    unfold Storage.free
    rw [hd, ho, hpool, hnvram, htpm]
    rfl
  refine Triple.bind (checkResources_goes stage_starting hn) (fun _ => ?_)
  refine Triple.bind (checkReady_goes stage_starting) (fun _ => ?_)
  refine Triple.bind (save_goes stage_starting stage_starting hn) (fun _ => ?_)
  refine Triple.bind (checkReady_goes stage_starting) (fun _ => ?_)
  refine Triple.bind (change_goes stage_starting stage_starting (fun _ u hu _ =>
    ⟨{ hu.alone with material := by simp }, hu.level, hu.stage⟩)) (fun _ => ?_)
  refine Triple.bind (check_goes stage_starting) (fun _ => ?_)
  refine save_goes stage_starting stage_begun (fun j v h => ?_)
  exact ⟨{ h.1 with begun := fun _ => hfree }, rfl, { h.2.2 with }⟩

/-- The pool is made, named and noted. Between the first and the last it is stranded. -/
theorem makePool_goes {x : Host} :
    Goes s₀ (Begun s₀) (makePool x) (fun j v => (∃ b, Owned s₀ b j v) ∧ Early j) := by
  let bare : Moment → Pool := fun m => { identity := x.identity m }
  refine Triple.bind (Q := fun _ w => ∃ m, Calm (Making s₀ (bare m)) w) ?_ (fun _ => ?_)
  · have hmake : ∀ m w, Calm (Begun s₀) w →
        Calm (Making s₀ (bare m)) (w.alter (fun s => { s with pool := .directory (bare m) })) := by
      intro m w hw
      have hs : w.storage = s₀ := hw.stage.1.storage
      have hpool : (w.alter (fun s => { s with pool := .directory (bare m) })).storage =
          s₀.withPool (bare m) := by
        show Storage.withPool w.storage (bare m) = _
        rw [hs]
      refine ⟨{ hw.alone with }, hw.level, ⟨⟨⟨bare m, hpool⟩, hw.stage.1.work, hw.stage.1.owned,
        hw.stage.1.destroyed, hw.stage.2.1, hw.stage.1.begun hw.stage.2.1⟩, hpool⟩, hw.stage.2.2⟩
    exact change_triple (fun _ hw => hw.meddle) (fun m w hw _ => ⟨m, hmake m w hw⟩)
      (fun _ _ hw => hw.torn stage_begun) (fun _ m w hw _ => (hmake m w hw).torn stage_making)
  refine Triple.start (fun w ⟨m, hw⟩ => ?_)
  refine Triple.pre (P := Calm (Making s₀ (bare m))) ?_ (fun u hu => by rw [hu]; exact hw)
  refine Triple.bind (check_goes stage_making) (fun _ => ?_)
  refine Triple.start (fun u hu => ?_)
  refine Triple.bind (Q := fun a y => y = u ∧ a = u) (Triple.read (fun y hy => ⟨hy, hy⟩)) (fun a => ?_)
  refine Triple.given (φ := a = u) (fun _ hy => hy.2) (fun ha => Triple.pre (P := (· = u)) ?_
    (fun _ hy => hy.1))
  rw [ha]
  -- from here on the pool has the cookie that the state of this moment has
  let named : Pool := { bare m with owner := some { value := some u.state.cookie } }
  have hnamed : Calm (fun j v => Making s₀ named j v ∧ j.cookie = u.state.cookie)
      (u.alterPool (fun p => { p with owner := some { value := some u.state.cookie } })) := by
    have hs := alterPool_withPool (f := fun p => { p with owner := some { value := some u.state.cookie } })
      hu.stage.1.2
    exact ⟨{ hu.alone with }, hu.level, ⟨⟨{ hu.stage.1.1 with storage := ⟨_, hs⟩ }, hs⟩, hu.stage.2⟩,
      rfl⟩
  have hstage : Stage s₀ (fun j v => Making s₀ named j v ∧ j.cookie = u.state.cookie) :=
    fun _ _ h => ⟨true, .unowned h.1.1.1⟩
  refine Triple.bind (Q := fun _ => Calm (fun j v => Making s₀ named j v ∧ j.cookie = u.state.cookie))
    (change_triple (fun y hy => ?_) (fun _ y hy _ => ?_) (fun _ y hy => ?_) (fun _ _ y hy _ => ?_))
    (fun _ => ?_)
  · rw [hy]
    exact hu.alone.meddle
  · rw [hy]
    exact hnamed
  · rw [hy]
    exact hu.torn stage_making
  · rw [hy]
    exact hnamed.torn hstage
  refine Triple.bind (Q := fun a y => Calm (fun j v => Making s₀ named j v ∧
      j.cookie = u.state.cookie) y ∧ a = some named)
    (look_triple (fun _ hy => hy.meddle) (fun y hy => ⟨hy, ?_⟩) (fun _ _ hy => hy.torn hstage))
    (fun info => ?_)
  · have hs : y.storage = s₀.withPool named := hy.stage.1.1.2
    rw [hs]
    rfl
  refine Triple.given (φ := info = some named) (fun _ hy => hy.2) (fun hinfo => ?_)
  rw [hinfo]
  refine (save_goes hstage (fun _ _ h => ?_) (fun j v h => ?_)).pre (fun _ hy => hy.1)
  · obtain ⟨⟨b, hb⟩, -⟩ := h
    exact ⟨b, .owned hb⟩
  · obtain ⟨⟨⟨hun, hs⟩, hearly⟩, hcookie⟩ := h
    obtain ⟨h₁, h₂, h₃⟩ := free_domain hun.free
    refine ⟨⟨s₀.foreign || !named.clean, ⟨named, by rw [hs]; rfl, ⟨rfl, rfl, ?_, List.nodup_nil⟩, rfl⟩,
      by rw [hs]; exact ⟨rfl, rfl⟩, fun d hd => ?_, fun _ => ?_, rfl, hun.destroyed, hearly.vm,
      hun.begun, hun.free, fun h _ => ?_, fun _ => hun.work⟩, { hearly with }⟩
    · show some _ = some _
      rw [← hcookie]
      rfl
    · rw [hs] at hd
      exact absurd (hd.symm.trans h₁) (by simp)
    · rw [hs]
      exact ⟨h₂, h₃⟩
    · exact absurd (hearly.guest.symm.trans h) (by decide)

/-! ## From then on -/

/-- While the run owns its pool; `up`, once there is a domain. -/
structure Live (s₀ : Storage) (up : Bool) (j : Journal) (v : View) : Prop where
  owned : ∃ b, Owned s₀ b j v
  secrets : j.certifierSecretsPurged = false
  ready : j.guestReady = true → v.storage.domain.isSome = true
  up : up = true → v.storage.domain.isSome = true

variable {up : Bool}

theorem stage_live : Stage s₀ (Live s₀ up) := fun _ _ h => h.owned.imp (fun _ => .owned)

/-- A change that leaves a pool the run's own. -/
structure Harmless (f : Pool → Pool) : Prop where
  identity : ∀ p, (f p).identity = p.identity
  trusted : ∀ p, (f p).trusted = p.trusted
  owner : ∀ p, (f p).owner = p.owner
  distinct : ∀ p, (p.files.map Entry.name).Nodup → ((f p).files.map Entry.name).Nodup

theorem harmless_put (e : Entry) : Harmless (·.put e) := by
  have hput : ∀ p : Pool, p.put e = p ∨ p.has e.name = false ∧ p.put e = { p with files := e :: p.files } := by
    intro p
    unfold Pool.put
    by_cases h : p.has e.name = true
    · exact Or.inl (if_pos h)
    · exact Or.inr ⟨by simpa using h, if_neg h⟩
  refine ⟨fun p => ?_, fun p => ?_, fun p => ?_, fun p hd => ?_⟩
  · obtain h | ⟨-, h⟩ := hput p <;> rw [h]
  · obtain h | ⟨-, h⟩ := hput p <;> rw [h]
  · obtain h | ⟨-, h⟩ := hput p <;> rw [h]
  · obtain h | ⟨hnew, h⟩ := hput p
    · rw [h]
      exact hd
    · rw [h, List.map_cons, List.nodup_cons]
      refine ⟨fun hmem => ?_, hd⟩
      obtain ⟨d, hd', hname⟩ := List.mem_map.mp hmem
      have := List.any_eq_false.mp hnew d hd'
      exact this (beq_iff_eq.mpr hname)

theorem harmless_drop (name : String) : Harmless (·.drop name) :=
  ⟨fun _ => rfl, fun _ => rfl, fun _ => rfl,
    fun _ hd => List.Nodup.sublist (List.Sublist.map _ List.filter_sublist) hd⟩

theorem Harmless.comp {f g : Pool → Pool} (hf : Harmless f) (hg : Harmless g) :
    Harmless (fun p => g (f p)) :=
  ⟨fun p => (hg.identity _).trans (hf.identity p), fun p => (hg.trusted _).trans (hf.trusted p),
    fun p => (hg.owner _).trans (hf.owner p), fun p hd => hg.distinct _ (hf.distinct p hd)⟩

/-- A change of the storage that keeps a run in the stage. -/
def Gentle (s₀ : Storage) (f : Storage → Storage) : Prop :=
  ∀ up j v, Live s₀ up j v → Live s₀ up j { v with storage := f v.storage }

theorem gentle_pool {f : Pool → Pool} (hf : Harmless f) :
    Gentle s₀ (fun s => { s with pool := s.pool.map f }) := by
  intro up j v h
  obtain ⟨b, hb⟩ := h.owned
  obtain ⟨p, hp, hown, -⟩ := hb.pool
  refine { h with owned := ⟨s₀.foreign || !(f p).clean, { hb with pool := ⟨f p, ?_, ?_, rfl⟩ }⟩ }
  · show v.storage.pool.map f = _
    rw [hp]
    rfl
  · exact ⟨by rw [hf.identity]; exact hown.noted, (hf.trusted p).trans hown.trusted,
      (hf.owner p).trans hown.owner, hf.distinct p hown.distinct⟩

/-- The definition of the domain that the installer makes, at each of its stages. -/
theorem installerXml_valid :
    validateXml (installerXml [oemdrvPath, installerPath]) installerPath true = none ∧
      validateXml (installerXml [oemdrvPath]) installerPath true = none ∧
      validateXml (installerXml []) installerPath true = none := by
  decide

theorem gentle_defined {media : List String} {running x y : Bool}
    (hx : validateXml (installerXml media) installerPath true = none) :
    Gentle s₀ (fun s => { definedWith media running s with
      nvram := if x then true else s.nvram, tpm := if y then true else s.tpm }) := by
  intro up j v h
  obtain ⟨b, hb⟩ := h.owned
  have hdomain : Owned s₀ b j { v with storage := { definedWith media running v.storage with
      nvram := if x then true else v.storage.nvram, tpm := if y then true else v.storage.tpm } } := by
    refine { hb with domain := fun d hd => ?_, firmware := fun hn => ?_, guest := fun _ _ => rfl }
    · cases Option.some.inj hd
      exact hx
    · exact absurd hn (by simp [definedWith])
  exact ⟨⟨b, hdomain⟩, h.secrets, fun _ => rfl, fun _ => rfl⟩

theorem gentle_steps (token : String) : ∀ f ∈ creationSteps token, Gentle s₀ f := by
  obtain ⟨h₁, h₂, h₃⟩ := installerXml_valid
  intro f hf
  simp only [creationSteps, List.mem_cons, List.not_mem_nil, or_false] at hf
  obtain rfl | rfl | rfl | rfl | rfl | rfl | rfl | rfl | rfl | rfl | rfl := hf
  · exact gentle_pool (harmless_put _)
  · exact gentle_pool (harmless_drop _)
  · exact gentle_pool (harmless_put _)
  · exact gentle_pool (harmless_put _)
  · exact gentle_pool (harmless_drop _)
  · exact gentle_pool (harmless_put _)
  · exact gentle_defined (x := false) (y := false) h₁
  · exact gentle_defined (x := true) (y := true) h₁
  · exact gentle_defined (x := false) (y := false) h₁
  · exact gentle_defined (x := false) (y := false) h₂
  · exact gentle_defined (x := false) (y := false) h₃

theorem gentle_foldl {steps : List (Storage → Storage)} (h : ∀ f ∈ steps, Gentle s₀ f) :
    Gentle s₀ (fun s => steps.foldl (fun s step => step s) s) := by
  induction steps with
  | nil => exact fun _ _ _ hl => hl
  | cons f steps ih =>
    intro up j v hl
    exact ih (fun g hg => h g (List.mem_cons_of_mem _ hg)) up j _ (h f (by simp) up j v hl)

theorem gentle_created (token : String) (n : Nat) : Gentle s₀ (created token n) :=
  gentle_foldl (fun f hf => gentle_steps token f (List.mem_of_mem_take hf))

theorem gentle_tidy (token : String) : Gentle s₀ (tidy token) :=
  gentle_pool ((harmless_drop (probeName token)).comp (harmless_drop (mediaName token)))

theorem Gentle.calm {f : Storage → Storage} (hf : Gentle s₀ f) (h : Calm (Live s₀ up) w) :
    Calm (Live s₀ up) (w.alter f) :=
  ⟨{ h.alone with }, h.level, hf _ _ _ h.stage⟩

section Steps

theorem alterPool_goes {f : Pool → Pool} (hf : Harmless f) {can : World → Bool} :
    Remains s₀ (Live s₀ up) (change can (fun _ w => w.alterPool f)) :=
  change_goes stage_live stage_live (fun _ _ hw _ => (gentle_pool hf).calm hw)

theorem produce_goes {name : String} : Remains s₀ (Live s₀ up) (produce name) :=
  act_goes stage_live stage_live (fun _ _ hw _ => (gentle_pool (harmless_put _)).calm hw)

theorem createFile_goes {name : String} : Remains s₀ (Live s₀ up) (createFile name) :=
  alterPool_goes (harmless_put _)

theorem idle_goes {can : World → Bool} : Remains s₀ (Live s₀ up) (act can (fun _ w => w)) :=
  act_goes stage_live stage_live (fun _ _ hw _ => hw)

/-- An entry of the journal that the stage does not read. -/
theorem note_goes {note : Journal → Journal}
    (hn : ∀ j v, Live s₀ up j v → Live s₀ up (note j) v) : Remains s₀ (Live s₀ up) (save note) :=
  save_goes stage_live stage_live hn

theorem instant_goes : Remains s₀ (Live s₀ up) (instant : Cmd Moment) :=
  instant_triple (fun _ _ hw => hw) (fun _ _ hw => hw.torn stage_live)

/-- What changes the pool harmlessly does so also where it fails. -/
theorem alterPool_keeps {f : Pool → Pool} (hf : Harmless f) {can : World → Bool} :
    Keeps (Calm (Live s₀ up)) (change can (fun _ w => w.alterPool f)) :=
  change_triple (fun _ hw => hw.meddle) (fun _ _ hw _ => (gentle_pool hf).calm hw)
    (fun _ _ hw => hw) (fun _ _ _ hw _ => (gentle_pool hf).calm hw)

theorem check_keeps {what : String} : Keeps (Calm φ) (check what) :=
  act_triple (fun _ hw => hw.meddle) (fun _ _ hw _ => hw) (fun _ _ hw => hw) (fun _ _ _ hw _ => hw)

/-- After an exception the entry is removed, or stays. -/
theorem scratch_goes {e : Entry} {body : Cmd Unit} (hb : Keeps (Calm (Live s₀ up)) body) :
    Remains s₀ (Live s₀ up) (scratch e body) := by
  refine Triple.bind (alterPool_goes (harmless_put e)) (fun _ => ?_)
  refine Triple.bind (Triple.handle hb (fun err => ?_)) (fun _ => alterPool_goes (harmless_drop _))
  split
  · exact raise_goes stage_live
  · exact Triple.bind (alterPool_goes (harmless_drop e.name)) (fun _ => raise_goes stage_live)

theorem prepareFirmware_goes : Remains s₀ (Live s₀ up) prepareFirmware := by
  refine Triple.bind (check_goes stage_live) (fun _ => ?_)
  refine Triple.bind (look_goes stage_live) (fun _ => ?_)
  refine Triple.bind (require_goes stage_live) (fun _ => ?_)
  refine Triple.bind (check_goes stage_live) (fun _ => Triple.bind meanwhile_goes (fun _ => ?_))
  refine Triple.bind instant_goes (fun m => Triple.bind (scratch_goes ?_) (fun _ => check_goes stage_live))
  refine Keeps.bind check_keeps (fun _ => Keeps.bind check_keeps (fun _ => ?_))
  exact alterPool_keeps (harmless_put _)

theorem copyMedia_goes : Remains s₀ (Live s₀ up) copyMedia :=
  Triple.bind (check_goes stage_live) (fun _ => Triple.bind createFile_goes
    (fun _ => check_goes stage_live))

theorem inputs_goes {x : Host} : Goes s₀ (Begun s₀) (inputs x) (Live s₀ false) := by
  refine Triple.bind (Triple.forEach (I := fun _ => Calm (Begun s₀))
    (fun _ _ => check_goes stage_begun) keyMaterial) (fun _ => ?_)
  refine Triple.bind (Q := fun _ => Calm (Live s₀ false)) (makePool_goes.post (fun _ w hw => ?_))
    (fun _ => ?_)
  · refine hw.of ⟨hw.stage.1, hw.stage.2.secrets, fun h => ?_, fun h => absurd h (by decide)⟩
    exact absurd (hw.stage.2.guest.symm.trans h) (by decide)
  refine Triple.bind copyMedia_goes (fun _ => Triple.bind produce_goes (fun _ => ?_))
  refine Triple.bind (check_goes stage_live) (fun _ => Triple.bind (check_goes stage_live) (fun _ => ?_))
  exact Triple.bind prepareFirmware_goes (fun _ => check_goes stage_live)

/-- However far the script comes, the run stays in the stage. -/
theorem createServer_goes : Remains s₀ (Live s₀ up) createServer := by
  refine Triple.bind meanwhile_goes (fun _ => ?_)
  refine Triple.perform (fun w hw => hw.torn stage_live) ?_
  intro m w hw r w' hr
  split at hr
  · cases hr
    exact hw.torn stage_live
  · split at hr
    · cases hr
      exact (gentle_created _ _).calm hw
    · cases hr
      have h := (gentle_created m.token m.progress).calm hw
      show Torn s₀ (if _ then _ else _)
      split
      · exact ((gentle_tidy m.token).calm h).torn stage_live
      · exact h.torn stage_live

theorem switched_live {f : Storage → Storage} {r x y : Bool}
    (hf : ∀ s, f s = { setRunning r s with nvram := x || s.nvram, tpm := y || s.tpm })
    (h : Live s₀ up j v) (hd : v.storage.domain.isSome = true) :
    Live s₀ true j { v with storage := f v.storage } := by
  obtain ⟨b, hb⟩ := h.owned
  have hup : (setRunning r v.storage).domain.isSome = true := by
    show (v.storage.domain.map _).isSome = true
    rw [Option.isSome_map]
    exact hd
  rw [hf]
  exact ⟨⟨b, hb.switched hd r _ _⟩, h.secrets, fun _ => hup, fun _ => hup⟩

theorem start_goes : Goes s₀ (Live s₀ up) start (Live s₀ true) :=
  act_goes stage_live stage_live (fun _ _ hw hc =>
    ⟨{ hw.alone with }, hw.level, switched_live (r := true) (x := true) (y := true)
      (fun _ => rfl) hw.stage (isSome_of_shutOff (Bool.and_eq_true _ _ ▸ hc).1)⟩)

theorem shutdown_goes : Remains s₀ (Live s₀ true) shutdown :=
  act_goes stage_live stage_live (fun _ _ hw hc =>
    ⟨{ hw.alone with }, hw.level, switched_live (f := setRunning false) (r := false) (x := false)
      (y := false) (fun _ => by simp [setRunning]) hw.stage (isSome_of_running hc)⟩)

theorem poweroff_goes : Remains s₀ (Live s₀ true) poweroff := by
  refine Triple.bind (checkOwned_goes stage_live) (fun _ => ?_)
  have hrunning : Remains s₀ (Live s₀ true) isRunning :=
    Triple.bind (dumpxml_goes stage_live) (fun _ => Triple.pure' (fun _ hw => hw))
  exact Triple.bind hrunning (fun _ => onlyIf_goes shutdown_goes)

theorem save_id_goes : Remains s₀ (Live s₀ up) (save id) := note_goes (fun _ _ h => h)

theorem firstBoot_goes : Goes s₀ (Live s₀ up) firstBoot (Live s₀ true) := by
  have hlock : Remains s₀ (Live s₀ up) (lockFile : Cmd Unit) :=
    lockFile_keeps.mono (fun _ hw => hw) (fun _ _ hw => hw) (fun _ _ hw => hw.torn stage_live)
  have hcheck : ∀ what, Remains s₀ (Live s₀ up) (check what) := fun _ => check_goes stage_live
  refine Triple.bind produce_goes (fun _ => Triple.bind meanwhile_goes (fun _ => ?_))
  have hoffline : Remains s₀ (Live s₀ up) offlineEnrollment :=
    Triple.bind (hcheck _) (fun _ => Triple.bind (hcheck _) (fun _ =>
      Triple.bind (hcheck _) (fun _ => save_id_goes)))
  refine Triple.bind hlock (fun _ => Triple.bind hoffline (fun _ => ?_))
  refine Triple.bind (hcheck _) (fun _ => Triple.bind (hcheck _) (fun _ => ?_))
  refine Triple.bind save_id_goes (fun _ => Triple.bind (hcheck _) (fun _ => ?_))
  exact Triple.bind start_goes (fun _ => idle_goes)

theorem bootManager_goes : Remains s₀ (Live s₀ true) bootManager := by
  refine Triple.bind idle_goes (fun _ => Triple.bind (check_goes stage_live) (fun _ => ?_))
  refine Triple.bind poweroff_goes (fun _ => Triple.bind (check_goes stage_live) (fun _ => ?_))
  refine Triple.bind start_goes (fun _ => Triple.bind idle_goes (fun _ => ?_))
  exact Triple.bind idle_goes (fun _ => Triple.bind idle_goes (fun _ =>
    Triple.bind idle_goes (fun _ => idle_goes)))

/-- A directory of the work of the certifier, of which nothing has been purged yet. -/
theorem work_goes {can : World → Bool} {effect : World → World}
    (he : ∀ w, (effect w).storage = w.storage ∧ (effect w).state = w.state ∧
      (effect w).journal = w.journal) (ha : ∀ w, Alone w → Alone (effect w)) :
    Remains s₀ (Live s₀ up) (change can (fun _ w => effect w)) := by
  refine change_goes stage_live stage_live (fun _ w hw _ => ?_)
  obtain ⟨h₁, h₂, h₃⟩ := he w
  obtain ⟨b, hb⟩ := hw.stage.owned
  have hs : (effect w).view.storage = w.view.storage := h₁
  refine ⟨ha w hw.alone, by rw [h₂, h₃]; exact hw.level, ?_⟩
  rw [h₂]
  have hsecrets : w.state.certifierSecretsPurged = false := hw.stage.secrets
  refine ⟨⟨b, { hb with
    pool := by rw [hs]; exact hb.pool
    others := by rw [hs]; exact hb.others
    domain := by rw [hs]; exact hb.domain
    firmware := by rw [hs]; exact hb.firmware
    guest := by rw [hs]; exact hb.guest
    secrets := fun h => absurd (hsecrets.symm.trans h) (by decide) }⟩, hsecrets, ?_, ?_⟩
  · rw [hs]
    exact hw.stage.ready
  · rw [hs]
    exact hw.stage.up

/-- An entry that says nothing of what the stage is about. -/
theorem mark_goes {note : Journal → Journal} (ho : ∀ b j v, Owned s₀ b j v → Owned s₀ b (note j) v)
    (hs : ∀ j, (note j).certifierSecretsPurged = j.certifierSecretsPurged)
    (hr : ∀ j, (note j).guestReady = j.guestReady) : Remains s₀ (Live s₀ up) (save note) :=
  note_goes (fun j v h => ⟨h.owned.imp (fun b => ho b j v), (hs j).trans h.secrets,
    fun hg => h.ready ((hr j).symm.trans hg), h.up⟩)

theorem enrollCandidate_goes {x : Host} : Remains s₀ (Live s₀ true) (enrollCandidate x) := by
  have hcheck : ∀ what, Remains s₀ (Live s₀ true) (check what) := fun _ => check_goes stage_live
  refine Triple.bind (hcheck _) (fun _ => Triple.bind (hcheck _) (fun _ => ?_))
  refine Triple.bind (work_goes (fun _ => ⟨rfl, rfl, rfl⟩) (fun _ h => { h with inputs := by simp }))
    (fun _ => ?_)
  refine Triple.bind (work_goes (fun _ => ⟨rfl, rfl, rfl⟩) (fun _ h => { h with backup := by simp }))
    (fun _ => ?_)
  refine Triple.bind (hcheck _) (fun _ => Triple.bind (hcheck _) (fun _ =>
    Triple.bind (hcheck _) (fun _ => ?_)))
  refine Triple.bind (mark_goes (fun _ _ _ ho => { ho with }) (fun _ => rfl) (fun _ => rfl)) (fun _ => ?_)
  refine Triple.bind (hcheck _) (fun _ => Triple.bind (hcheck _) (fun _ =>
    Triple.bind meanwhile_goes (fun _ => Triple.bind instant_goes (fun m => ?_))))
  refine Triple.bind (mark_goes (fun _ _ _ ho => { ho with }) (fun _ => rfl) (fun _ => rfl)) (fun _ => ?_)
  exact Triple.bind idle_goes (fun _ => save_id_goes)

theorem prepareGuest_goes {x : Host} : Remains s₀ (Live s₀ true) (prepareGuest x) := by
  have hcheck : ∀ what, Remains s₀ (Live s₀ true) (check what) := fun _ => check_goes stage_live
  refine Triple.bind idle_goes (fun _ => Triple.bind idle_goes (fun _ =>
    Triple.bind save_id_goes (fun _ => Triple.bind poweroff_goes (fun _ => ?_))))
  refine Triple.bind produce_goes (fun _ => Triple.bind (hcheck _) (fun _ =>
    Triple.bind save_id_goes (fun _ => Triple.bind start_goes (fun _ => ?_))))
  refine Triple.bind idle_goes (fun _ => Triple.bind idle_goes (fun _ =>
    Triple.bind idle_goes (fun _ => Triple.bind idle_goes (fun _ => ?_))))
  refine Triple.bind (hcheck _) (fun _ => Triple.bind (hcheck _) (fun _ =>
    Triple.bind save_id_goes (fun _ => Triple.bind poweroff_goes (fun _ => ?_))))
  refine Triple.bind (hcheck _) (fun _ => Triple.bind (alterPool_goes
    ((harmless_drop _).comp (harmless_put _))) (fun _ => Triple.bind produce_goes (fun _ => ?_)))
  refine Triple.bind (hcheck _) (fun _ => Triple.bind (hcheck _) (fun _ =>
    Triple.bind start_goes (fun _ => Triple.bind idle_goes (fun _ => ?_))))
  exact Triple.bind idle_goes (fun _ => Triple.bind save_id_goes (fun _ => enrollCandidate_goes))

/-- Wherever `prepare` is cut off, it leaves the run in one of its stages. -/
theorem prepare_goes {x : Host} : Goes s₀ (Starting s₀) (prepare x) (Live s₀ true) := by
  refine Triple.bind preflight_goes (fun _ => Triple.bind inputs_goes (fun _ => ?_))
  refine Triple.bind (checkResources_goes stage_live (fun _ _ h => h)) (fun _ => ?_)
  refine Triple.bind (mark_goes (fun _ _ _ ho => { ho with }) (fun _ => rfl) (fun _ => rfl)) (fun _ => ?_)
  refine Triple.bind createServer_goes (fun _ => ?_)
  refine Triple.bind (checkOwned_goes stage_live) (fun _ => Triple.bind firstBoot_goes (fun _ => ?_))
  refine Triple.bind (save_goes stage_live stage_live (ψ := Live s₀ true) (fun j v h => ?_)) (fun _ => ?_)
  · obtain ⟨b, hb⟩ := h.owned
    exact ⟨⟨b, { hb with guest := fun _ _ => h.up rfl }⟩, h.secrets, fun _ => h.up rfl, h.up⟩
  exact Triple.bind bootManager_goes (fun _ => prepareGuest_goes)

end Steps

/-! ## Cleanups -/

/-- Between two processes only the journal and the storage are left. -/
def Rest (s₀ : Storage) (b : Bool) (w : World) : Prop := Alone w ∧ Held s₀ b w.journal w.view

/-- A process that takes up the journal. -/
def World.load (w : World) : World := { w with state := w.journal, phase := .idle }

theorem Rest.load (h : Rest s₀ b w) : Calm (Held s₀ b) w.load := ⟨{ h.1 with }, rfl, h.2⟩

theorem Broken.rest (h : Broken s₀ b w) : Rest s₀ b w := ⟨h.alone, h.journal⟩

theorem Rest.stranded (h : Rest s₀ b w) : w.stranded = b :=
  Broken.stranded (w := w.load) ⟨{ h.1 with }, h.2, h.2⟩

theorem Rest.pool_of_stranded (h : Rest s₀ true w) : w.storage ≠ s₀ :=
  Broken.pool_of_stranded (w := w.load) ⟨{ h.1 with }, h.2, h.2⟩

/-- What a cut-off cleanup still writes. -/
theorem save_broken : Does s₀ b 1 (Broken s₀ b) (save id) (fun _ => Rest s₀ b) :=
  Runs.start (fun _ hw => (save_does hw hw.state).post
    (fun _ u hu => by rw [hu]; exact ⟨{ hw.alone with }, hw.state⟩))

/-- Each cleanup leaves the run in a stage with the same answer to whether it is stranded. -/
theorem recover_rest : Keeps (Rest s₀ b) recover := by
  refine Triple.bind (Q := fun _ => Calm (Held s₀ b)) (Triple.update (fun _ hw => hw.load))
    (fun _ => ?_)
  refine Triple.handle (E := fun _ => Broken s₀ b) (cleanup_does.always.post (fun _ _ hw => ?_))
    (fun err => ?_)
  · exact (hw.1.broken Done.held).rest
  · split
    · exact Triple.raise (fun _ hw => hw.rest)
    · exact Triple.bind (save_broken.always.mono (fun _ h => h) (fun _ _ h => h) (fun _ _ h => h.rest))
        (fun _ => Triple.raise (fun _ hw => hw))

theorem recoverAll_rest (scripts : List (List Moment)) :
    ∀ w, Rest s₀ b w → Rest s₀ b (recoverAll scripts w) := by
  induction scripts with
  | nil => exact fun _ hw => hw
  | cons t scripts ih => exact fun w hw => ih _ (recover_rest.after hw)

/-- A cleanup whose operations do not fail. -/
theorem recover_within :
    Within Good (4 * s₀.others.length + 86) (Rest s₀ b) recover
      (fun _ u => Calm (Done s₀ b) u ∧ u.material = .absent)
      (fun e _ => b = true ∨ e = commandFailed) := by
  refine Within.budget (n := 0 + (4 * s₀.others.length + 85 + 1)) (Within.bind
    (Q := fun _ => Calm (Held s₀ b)) (Within.update (fun _ hw => hw.load)) (fun _ => ?_)) (by omega)
  refine Within.handle ((cleanup_does.supplied.and_triple cleanup_does.always).post
    (fun _ _ hw => hw.1)) (fun err => ?_)
  refine Within.given (φ := b = true ∨ err = commandFailed) (fun _ hw => hw.1) (fun herr => ?_)
  split
  · exact Within.raise (fun _ _ => herr)
  · exact Within.bind (b := 0) (save_broken.supplied.mono (fun _ hw => hw.2) (fun _ _ _ => trivial)
      (fun _ _ h => h)) (fun _ => Within.raise (fun _ _ => herr))

/-! ## A run -/

/-- A run that has just been created. -/
structure Fresh (w : World) : Prop where
  journal : w.journal = { runId := w.journal.runId, binding := w.journal.binding }
  level : w.state = w.journal
  alone : w.meddling = []
  material : w.material = .absent
  work : w.view.noWork

theorem Fresh.starting (h : Fresh w) : Calm (Starting w.storage) w := by
  refine ⟨⟨h.alone, by rw [h.material]; decide, by rw [show w.backup = _ from h.work.1]; decide,
    by rw [show w.inputs = _ from h.work.2]; decide⟩, h.level.symm, ?_⟩
  rw [h.level, h.journal]
  exact ⟨⟨rfl, h.work, rfl, rfl, fun hb => absurd hb (by simp)⟩, rfl, ⟨rfl, rfl, rfl⟩⟩

/-- After a failure of `prepare` the state is written once more, or is not. -/
theorem save_torn : Triple (Torn s₀) (save id) (fun _ w => ∃ b, Rest s₀ b w)
    (fun _ w => ∃ b, Rest s₀ b w) := by
  have hcut : ∀ u, Torn s₀ u → ∃ b, Rest s₀ b u := fun u hu => hu.journal.imp (fun _ h => ⟨hu.alone, h⟩)
  have hsaved : ∀ u, Torn s₀ u → ∃ b, Rest s₀ b u.write :=
    fun u hu => hu.state.imp (fun _ h => ⟨{ hu.alone with }, h⟩)
  refine save_triple (R := Torn s₀) (fun _ hu => hu) (fun u hu => ?_) hsaved (fun _ => hcut)
    (fun _ => hsaved)
  rw [hu.alone.meddle]
  exact hu

/-- Wherever a run is cut off, its cleanups find one of the stages. -/
theorem provision_rest (x : Host) :
    Triple (Calm (Starting s₀)) (provision x) (fun _ w => ∃ b, Rest s₀ b w)
      (fun _ w => ∃ b, Rest s₀ b w) := by
  have hcut : ∀ u, Torn s₀ u → ∃ b, Rest s₀ b u := fun u hu => hu.journal.imp (fun _ h => ⟨hu.alone, h⟩)
  refine Triple.handle (prepare_goes.post (fun _ u hu => hcut u (hu.torn stage_live))) (fun err => ?_)
  split
  · exact Triple.raise hcut
  · exact Triple.bind save_torn (fun _ => Triple.raise (fun _ hw => hw))

/-- Nothing is left of what a run created. -/
structure Released (w₀ w : World) : Prop where
  storage : w.storage = w₀.storage
  material : w.material = .absent
  work : w.view.noWork

theorem Done.storage (h : Done s₀ false j v) : v.storage = s₀ ∧ v.noWork := by
  cases h with
  | untouched h => exact ⟨h.storage, h.work⟩
  | ended h => exact ⟨h.1.storage, h.1.work⟩

/-- The journal and the storage after a run that was cut off, and cleanups that were. -/
def cutOff (x : Host) (t : List Moment) (scripts : List (List Moment)) (w : World) : World :=
  recoverAll scripts ((provision x).after t w)

/-- A workstation with enough room, on which everything is ready. -/
def roomy : Host where
  freeDisk _ := 60 * 1024 ^ 3
  memoryKib _ := 9 * 1024 ^ 2
  cpus _ := 2
  toolsReady _ := true
  brokerReady _ := true
  identity _ := (1, 2)
  candidate _ := digest "candidate"

/-- A run that has just been created, where nothing of a fixture is. -/
def newRun (s : Storage) : World where
  storage := s
  journal := { runId := "a", binding := "b" }
  state := { runId := "a", binding := "b" }

def nothing : Storage := ⟨.absent, none, false, false, [], false⟩

/-- A process that dies after `n` operations. -/
def answers (n : Nat) : List Moment := List.replicate n { now := 0 }

theorem fresh_created : Fresh (newRun nothing) := ⟨rfl, rfl, rfl, rfl, rfl, rfl⟩

theorem supplied_answers (n : Nat) : Supplied Good n (answers n) :=
  supplied_replicate (G := Good) (m := { now := 0 }) rfl n

/-- The run dies while the firmware is written into a directory of the pool: no cleanup
    gets past that entry. -/
theorem temporary_blocks_cleanup :
    recover.result (answers 86) (cutOff roomy (answers 47) [] (newRun nothing)) =
      .error (.failure 78 "unexpected-fixture-storage") := by
  decide +kernel

end Hermes.Fixture

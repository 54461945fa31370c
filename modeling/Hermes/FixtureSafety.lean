import Hermes.Fixture

/- What a cleanup of the fixture does to a storage that others use too. `purge_safety`:
   files are unlinked only from the directory that the run noted as its own and
   whose cookie names the run, and the journal says `vm_destroyed` only where the
   domain, its firmware state and the pool are gone.

   The checks are made at paths, and what they found is relied on afterwards: this holds
   where no one touches the pool between the check in `purge_storage` and the end
   of the purge, nor brings the domain back after `verify_destroyed_domain` has looked
   for it. `purge_follows_replacement` is a run in which someone does. -/
namespace Hermes.Fixture
open Process

/-! ## What must hold -/

/-- The domain and its firmware state are absent. -/
def DomainGone (s : Storage) : Prop := s.domain = none ∧ s.nvram = false ∧ s.tpm = false

/-- So is the pool. -/
def Gone (s : Storage) : Prop := DomainGone s ∧ s.pool = .absent

/-- What an act of the run may be in view of the storage it met. -/
def EventSafe : Event → Prop
  | .meddled _ _ _ => True
  | .unlinked j p _ =>
    j.poolIdentity = some p.identity ∧ ∀ f, p.owner = some f → f.value = some j.cookie
  | .destroyed s => Gone s

def Safe (log : List Event) : Prop := ∀ e ∈ log, EventSafe e

/-- What others must not change while a cleanup is in this phase. -/
def Leaves : Phase → Storage → Storage → Prop
  | .idle, _, _ => True
  | .verified, s, s' => s'.domain = s.domain ∧ s'.nvram = s.nvram ∧ s'.tpm = s.tpm
  | .checked, s, s' =>
    (s'.domain = s.domain ∧ s'.nvram = s.nvram ∧ s'.tpm = s.tpm) ∧ s'.pool = s.pool

/-- No one changed what a cleanup was relying on. -/
def Undisturbed (log : List Event) : Prop :=
  ∀ p s s', .meddled p s s' ∈ log → Leaves p s s'

theorem Undisturbed.tail {e : Event} {log : List Event} (h : Undisturbed (e :: log)) :
    Undisturbed log :=
  fun p s s' hm => h p s s' (List.mem_cons_of_mem _ hm)

theorem Safe.cons {e : Event} {log : List Event} (he : EventSafe e) (h : Safe log) :
    Safe (e :: log) := by
  intro x hx
  cases hx with
  | head => exact he
  | tail _ hx => exact h x hx

/-! ## The invariant of a cleanup -/

variable {c : Cookie} {i : Option (Nat × Nat)} {p : Phase} {ψ χ : Storage → Prop} {α : Type}

/-- The journal and the state are those of one run and one pool. -/
structure Bound (c : Cookie) (i : Option (Nat × Nat)) (w : World) : Prop where
  journal : w.journal.cookie = c ∧ w.journal.poolIdentity = i
  state : w.state.cookie = c ∧ w.state.poolIdentity = i

/-- The state may be ahead of the journal in `vm_destroyed`, if it is true. -/
def Pending (w : World) : Prop :=
  w.state.vmDestroyed = true → w.journal.vmDestroyed = true ∨ (w.phase = .checked ∧ Gone w.storage)

/-- A cleanup in phase `p` that has found `ψ` of the storage. -/
structure On (c : Cookie) (i : Option (Nat × Nat)) (p : Phase) (ψ : Storage → Prop) (w : World) :
    Prop where
  bound : Bound c i w
  phase : w.phase = p
  found : Undisturbed w.log → Safe w.log ∧ Pending w ∧ ψ w.storage

/-- A cleanup that was cut off. -/
structure Cut (c : Cookie) (i : Option (Nat × Nat)) (w : World) : Prop where
  bound : Bound c i w
  found : Undisturbed w.log → Safe w.log ∧ Pending w

theorem On.cut {w : World} (h : On c i p ψ w) : Cut c i w :=
  ⟨h.bound, fun hu => ⟨(h.found hu).1, (h.found hu).2.1⟩⟩

theorem On.weaken {w : World} (h : On c i p ψ w) (hψ : ∀ s, ψ s → χ s) : On c i p χ w :=
  ⟨h.bound, h.phase, fun hu =>
    have ⟨hs, hp, hf⟩ := h.found hu
    ⟨hs, hp, hψ _ hf⟩⟩

/-- What is known of the storage does not depend on what others may change. -/
def Stable (p : Phase) (ψ : Storage → Prop) : Prop := ∀ s s', Leaves p s s' → ψ s → ψ s'

theorem stable_true : Stable p (fun _ => True) := fun _ _ _ h => h

theorem stable_domainGone (hp : p ≠ .idle) : Stable p DomainGone := by
  intro s s' hl hs
  cases p with
  | idle => exact absurd rfl hp
  | verified =>
    obtain ⟨h₁, h₂, h₃⟩ := hl
    exact ⟨h₁.trans hs.1, h₂.trans hs.2.1, h₃.trans hs.2.2⟩
  | checked =>
    obtain ⟨⟨h₁, h₂, h₃⟩, -⟩ := hl
    exact ⟨h₁.trans hs.1, h₂.trans hs.2.1, h₃.trans hs.2.2⟩

/-- While the pool is relied on, so may be everything that is known of it. -/
theorem stable_checked (φ : Place → Prop) :
    Stable .checked (fun s => DomainGone s ∧ φ s.pool) := by
  intro s s' hl hs
  refine ⟨stable_domainGone (by decide) s s' hl hs.1, ?_⟩
  show φ s'.pool
  rw [hl.2]
  exact hs.2

theorem stable_gone : Stable .checked Gone := stable_checked (· = .absent)

theorem Pending.meddle {w : World} (h : Pending w) {f : Storage → Storage}
    {rest : List (Storage → Storage)} {log : List Event} (hl : Leaves w.phase w.storage (f w.storage)) :
    Pending { w with storage := f w.storage, meddling := rest, log := log } := by
  intro hv
  obtain hj | ⟨hp, hg⟩ := h hv
  · exact Or.inl hj
  · refine Or.inr ⟨hp, stable_gone _ _ ?_ hg⟩
    rw [hp] at hl
    exact hl

/-- The other parties go on, and what is relied on stays. -/
theorem On.meddle (hψ : Stable p ψ) {w : World} (h : On c i p ψ w) : On c i p ψ w.meddle := by
  unfold World.meddle
  split
  · exact h
  · next f rest _ =>
    refine ⟨⟨h.bound.journal, h.bound.state⟩, h.phase, fun hu => ?_⟩
    obtain ⟨hs, hp, hf⟩ := h.found hu.tail
    have hl : Leaves w.phase w.storage (f w.storage) := hu _ _ _ (by simp)
    refine ⟨hs.cons trivial, hp.meddle hl, hψ _ _ ?_ hf⟩
    rw [h.phase] at hl
    exact hl

/-- A change by the run itself: the journal and the log stay. -/
theorem On.alter {w : World} (h : On c i p ψ w) {f : Storage → Storage}
    (hf : Undisturbed w.log → ψ w.storage → χ (f w.storage))
    (hg : p = .checked → Gone w.storage → Gone (f w.storage)) : On c i p χ (w.alter f) := by
  refine ⟨⟨h.bound.journal, h.bound.state⟩, h.phase, fun hu => ?_⟩
  obtain ⟨hs, hp, hψ⟩ := h.found hu
  refine ⟨hs, fun hv => ?_, hf hu hψ⟩
  obtain hj | ⟨hc, hgone⟩ := hp hv
  · exact Or.inl hj
  · exact Or.inr ⟨hc, hg (h.phase.symm.trans hc) hgone⟩

section Rules

/-- What a look finds is known from then on. -/
theorem look_on (hψ : Stable p ψ) {value : Storage → α} :
    Triple (On c i p ψ) (look (fun w => value w.storage))
      (fun a => On c i p (fun s => ψ s ∧ value s = a)) (fun _ => Cut c i) := by
  refine look_triple (fun _ hw => hw.meddle hψ) (fun w hw => ?_) (fun _ _ hw => hw.cut)
  exact ⟨hw.bound, hw.phase, fun hu =>
    have ⟨hs, hp, hf⟩ := hw.found hu
    ⟨hs, hp, hf, rfl⟩⟩

/-- A look of which nothing is remembered. -/
theorem glance_on (hψ : Stable p ψ) {value : World → α} :
    Triple (On c i p ψ) (look value) (fun _ => On c i p ψ) (fun _ => Cut c i) :=
  look_triple (fun _ hw => hw.meddle hψ) (fun _ hw => hw) (fun _ _ hw => hw.cut)

theorem dumpxml_on (hψ : Stable p ψ) {domain : World → Option α} :
    Triple (On c i p ψ) (dumpxml domain) (fun _ => On c i p ψ) (fun _ => Cut c i) :=
  dumpxml_triple (fun _ hw => hw.meddle hψ) (fun _ _ hw _ => hw) (fun _ _ hw => hw.cut)

theorem require_on {b : Bool} {reason : String} {code : Nat} {Q : Unit → World → Prop}
    (hb : b = true → ∀ w, On c i p ψ w → Q () w) :
    Triple (On c i p ψ) (require b reason code : Cmd Unit) Q (fun _ => Cut c i) :=
  require_triple hb (fun _ _ hw => hw.cut)

theorem fail_on {code : Nat} {reason : String} {Q : α → World → Prop} :
    Triple (On c i p ψ) (fail code reason : Cmd α) Q (fun _ => Cut c i) :=
  Triple.raise (fun _ hw => hw.cut)

/-- A command that changes the storage while nothing is relied on. -/
theorem act_on {can : World → Bool} {f : Storage → Storage} :
    Triple (On c i .idle (fun _ => True)) (act can (fun _ w => w.alter f))
      (fun _ => On c i .idle (fun _ => True)) (fun _ => Cut c i) := by
  have h : ∀ w, On c i .idle (fun _ => True) w → On c i .idle (fun _ => True) (w.alter f) :=
    fun w hw => hw.alter (fun _ hs => hs) (fun hp => absurd hp (by decide))
  exact act_triple (fun _ hw => hw.meddle stable_true) (fun _ w hw _ => h w hw)
    (fun _ _ hw => hw.cut) (fun _ _ w hw _ => (h w hw).cut)

theorem idle_on (hψ : Stable p ψ) {can : World → Bool} :
    Triple (On c i p ψ) (act can (fun _ w => w)) (fun _ => On c i p ψ) (fun _ => Cut c i) :=
  act_triple (fun _ hw => hw.meddle hψ) (fun _ _ hw _ => hw) (fun _ _ hw => hw.cut)
    (fun _ _ _ hw _ => hw.cut)

/-- An entry of the journal that has nothing to do with the pool. -/
def Neutral (f : Journal → Journal) : Prop :=
  ∀ j, (f j).cookie = j.cookie ∧ (f j).poolIdentity = j.poolIdentity

theorem On.write {w : World} (h : On c i p ψ w) : On c i p ψ w.write := by
  refine ⟨⟨h.bound.state, h.bound.state⟩, h.phase, fun hu => ?_⟩
  have hlog : Undisturbed w.log := by
    intro q s s' hm
    refine hu q s s' ?_
    show _ ∈ (if _ then _ else _ : List Event)
    split
    · exact List.mem_cons_of_mem _ hm
    · exact hm
  obtain ⟨hs, hp, hψ⟩ := h.found hlog
  refine ⟨?_, fun hv => Or.inl hv, hψ⟩
  show Safe (if _ then _ else _)
  split
  · next hv =>
    simp only [Bool.and_eq_true, Bool.not_eq_true'] at hv
    obtain hj | ⟨-, hg⟩ := hp hv.1
    · rw [hj] at hv; exact absurd hv.2 (by decide)
    · exact hs.cons hg
  · exact hs

theorem Cut.write {w : World} (h : Cut c i w) : Cut c i w.write :=
  (On.write (ψ := fun _ => True) ⟨h.bound, rfl, fun hu => ⟨(h.found hu).1, (h.found hu).2, trivial⟩⟩).cut

/-- A save after which the journal may say no more of `vm_destroyed` than before, or
    that the storage bears out. -/
theorem save_on (hψ : Stable p ψ) {f : Journal → Journal} (hn : Neutral f)
    (hv : ∀ w, On c i p ψ w → Undisturbed w.log → Pending { w with state := f w.state }) :
    Triple (On c i p ψ) (save f)
      (fun _ w => On c i p ψ w ∧ w.journal = w.state) (fun _ => Cut c i) := by
  refine save_triple (R := On c i p ψ) ?_ (fun _ hw => hw.meddle hψ) (fun _ hw => ⟨hw.write, rfl⟩)
    (fun _ _ hw => hw.cut) (fun _ _ hw => hw.write.cut)
  intro w hw
  have hst : (f w.state).cookie = c ∧ (f w.state).poolIdentity = i :=
    ⟨(hn w.state).1.trans hw.bound.state.1, (hn w.state).2.trans hw.bound.state.2⟩
  refine ⟨⟨hw.bound.journal, hst⟩, hw.phase, fun hu => ?_⟩
  obtain ⟨hs, -, hf⟩ := hw.found hu
  exact ⟨hs, hv w hw hu, hf⟩

/-- A save that does not mention `vm_destroyed`. -/
theorem note_on (hψ : Stable p ψ) {f : Journal → Journal} (hn : Neutral f)
    (hv : ∀ j, (f j).vmDestroyed = j.vmDestroyed) :
    Triple (On c i p ψ) (save f) (fun _ => On c i p ψ) (fun _ => Cut c i) := by
  refine (save_on hψ hn (fun w hw hu => ?_)).post (fun _ _ h => h.1)
  intro h
  exact (hw.found hu).2.1 ((hv w.state).symm.trans h)

/-- From a phase in which nothing is pending. -/
theorem phase_on {q : Phase} (hp : p ≠ .checked) :
    Triple (On c i p ψ) (phase q) (fun _ => On c i q ψ) (fun _ => Cut c i) := by
  refine Triple.update (fun _ hw => ⟨⟨hw.bound.journal, hw.bound.state⟩, rfl, fun hu => ?_⟩)
  obtain ⟨hs, hpend, hf⟩ := hw.found hu
  refine ⟨hs, fun hv => ?_, hf⟩
  obtain hj | ⟨hc, -⟩ := hpend hv
  · exact Or.inl hj
  · exact absurd (hw.phase.symm.trans hc) hp

end Rules

/-! ## What a cleanup does -/

/-- The pool has the cookie of the run. -/
def Named (c : Cookie) (place : Place) : Prop :=
  ∃ q f, place = .directory q ∧ q.owner = some f ∧ f.value = some c

/-- It is the directory that was noted. -/
def Noted (i : Option (Nat × Nat)) (place : Place) : Prop :=
  ∃ q, place = .directory q ∧ i = some q.identity

section Steps

variable {E : Exc → World → Prop} {S : α → World → Prop}

/-- What the state says is known of a state that was read. -/
theorem read_on {f : World → Cmd α} (h : ∀ v, Bound c i v → Triple (On c i p ψ) (f v) S E) :
    Triple (On c i p ψ) (Proc.read >>= f) S E := by
  refine Triple.bind (Triple.read (Q := fun v w => Bound c i v ∧ On c i p ψ w)
    (fun _ hw => ⟨hw.bound, hw⟩)) (fun v => ?_)
  exact Triple.given (fun _ h => h.1) (fun hv => (h v hv).pre (fun _ h => h.2))

theorem onlyIf_on {b : Bool} {x : Cmd Unit}
    (hx : Triple (On c i p ψ) x (fun _ => On c i p ψ) (fun _ => Cut c i)) :
    Triple (On c i p ψ) (onlyIf b x) (fun _ => On c i p ψ) (fun _ => Cut c i) :=
  onlyIf_triple (fun _ => hx) (fun _ _ hw => hw)

theorem ownerFile_on {place : Place} :
    Triple (On c i p ψ) (ownerFile place)
      (fun v w => On c i p ψ w ∧ ∃ q f, place = .directory q ∧ q.owner = some f ∧ f.value = v)
      (fun _ => Cut c i) := by
  unfold ownerFile
  split
  · exact Triple.raise (fun _ hw => hw.cut)
  · next q _ =>
    split
    · exact Triple.raise (fun _ hw => hw.cut)
    · next f hf =>
      split
      · exact fail_on
      · refine Triple.bind (require_on (Q := fun _ w => On c i p ψ w ∧ place = .directory q)
          (fun hb w hw => ⟨hw, ?_⟩)) (fun _ => Triple.pure' (fun w hw => ⟨hw.1, q, f, hw.2, hf, rfl⟩))
        simp only [Bool.and_eq_true, beq_iff_eq] at hb
        exact hb.1

theorem poolEntries_on (hψ : Stable p ψ) :
    Triple (On c i p ψ) poolEntries (fun _ => On c i p ψ) (fun _ => Cut c i) := by
  refine Triple.bind (glance_on hψ) (fun place => ?_)
  split
  · exact Triple.raise (fun _ hw => hw.cut)
  · exact Triple.pure' (fun _ hw => hw)

theorem keep_on {b : Bool} {reason : String} {code : Nat} :
    Triple (On c i p ψ) (require b reason code : Cmd Unit) (fun _ => On c i p ψ)
      (fun _ => Cut c i) :=
  require_on (fun _ _ hw => hw)

theorem inspectDomain_on (hψ : Stable p ψ) {b : Bool} :
    Triple (On c i p ψ) (inspectDomain b) (fun _ => On c i p ψ) (fun _ => Cut c i) := by
  refine Triple.bind (dumpxml_on hψ) (fun d => ?_)
  split
  · exact Triple.pure' (fun _ hw => hw)
  · exact fail_on

theorem inspectOther_on (hψ : Stable p ψ) {name : String} :
    Triple (On c i p ψ) (inspectOther name) (fun _ => On c i p ψ) (fun _ => Cut c i) :=
  Triple.bind (dumpxml_on hψ) (fun _ => keep_on)

/-- A pool that passes has the cookie of the run, which is known as long as the pool is. -/
theorem checkOwned_on (hψ : Stable p ψ) (hχ : Stable p χ)
    (h : ∀ s, ψ s → Named c s.pool → χ s) {b : Bool} :
    Triple (On c i p ψ) (checkOwned b) (fun _ => On c i p χ) (fun _ => Cut c i) := by
  refine read_on (fun v hv => ?_)
  refine Triple.bind (@look_on _ _ _ _ _ hψ (·.pool)) (fun place => ?_)
  refine Triple.bind ownerFile_on (fun owner => ?_)
  refine Triple.bind (Q := fun _ => On c i p χ) ?_ (fun _ => ?_)
  · refine require_triple (fun hb w hw => ?_) (fun _ _ hw => hw.1.cut)
    obtain ⟨hw, q, f, hq, hf, hval⟩ := hw
    have hc : owner = some c := by
      rw [← hv.state.1]
      exact beq_iff_eq.mp hb
    refine hw.weaken (fun s hs => h s hs.1 ⟨q, f, ?_, hf, hval.trans hc⟩)
    rw [hs.2]
    exact hq
  refine Triple.bind (poolEntries_on hχ) (fun _ => Triple.bind keep_on (fun _ => ?_))
  refine Triple.bind (poolEntries_on hχ) (fun _ => Triple.bind keep_on (fun _ => ?_))
  refine Triple.bind (glance_on hχ) (fun found => ?_)
  obtain ⟨present, others⟩ := found
  refine Triple.bind (onlyIf_on (inspectDomain_on hχ)) (fun _ => ?_)
  refine Triple.bind ?_ (fun _ => Triple.pure' (fun _ hw => hw))
  exact Triple.forEach (I := fun _ => On c i p χ) (fun _ _ => inspectOther_on hχ) others

theorem checkOwned_keeps (hψ : Stable p ψ) {b : Bool} :
    Triple (On c i p ψ) (checkOwned b) (fun _ => On c i p ψ) (fun _ => Cut c i) :=
  checkOwned_on hψ hψ (fun _ hs _ => hs)

/-- `verify_destroyed_domain` looks at the domain and its firmware one after the other. -/
theorem verifyDestroyedDomain_on :
    Triple (On c i .idle (fun _ => True)) verifyDestroyedDomain
      (fun _ => On c i .verified DomainGone) (fun _ => Cut c i) := by
  have hdomain : Stable .verified (fun s => s.domain = none) := fun s s' hl hs => hl.1.trans hs
  have hnvram : Stable .verified (fun s => s.domain = none ∧ s.nvram = false) :=
    fun s s' hl hs => ⟨hl.1.trans hs.1, hl.2.1.trans hs.2⟩
  have hgone : Stable .verified DomainGone := stable_domainGone (by decide)
  refine Triple.bind (phase_on (by decide)) (fun _ => ?_)
  refine Triple.bind (@look_on _ _ _ _ _ stable_true (·.domain.isSome)) (fun named => ?_)
  refine Triple.bind (Q := fun _ => On c i .verified (fun s => s.domain = none))
    (require_on (fun hb w hw => hw.weaken (fun s hs => ?_))) (fun _ => ?_)
  · have hs := hs.2
    cases hd : s.domain with
    | none => rfl
    | some d => rw [hd] at hs; simp only [Option.isSome] at hs; rw [← hs] at hb; exact absurd hb (by decide)
  refine Triple.bind (glance_on hdomain) (fun _ => Triple.bind keep_on (fun _ => ?_))
  refine Triple.bind (@look_on _ _ _ _ _ hdomain (·.nvram)) (fun nvram => ?_)
  refine Triple.bind (Q := fun _ => On c i .verified (fun s => s.domain = none ∧ s.nvram = false))
    (require_on (fun hb w hw => hw.weaken (fun s hs => ?_))) (fun _ => ?_)
  · exact ⟨hs.1, by rw [hs.2]; simpa using hb⟩
  refine Triple.bind (@look_on _ _ _ _ _ hnvram (·.tpm)) (fun tpm => ?_)
  refine Triple.bind (Q := fun _ => On c i .verified DomainGone)
    (require_on (fun hb w hw => hw.weaken (fun s hs => ?_))) (fun _ => ?_)
  · exact ⟨hs.1.1, hs.1.2, by rw [hs.2]; simpa using hb⟩
  exact Triple.bind (glance_on hgone) (fun _ => keep_on)

/-- The storage while the files are unlinked. -/
def Proven (c : Cookie) (i : Option (Nat × Nat)) (s : Storage) : Prop :=
  DomainGone s ∧ Named c s.pool ∧ Noted i s.pool

theorem stable_proven : Stable .checked (Proven c i) :=
  stable_checked (fun place => Named c place ∧ Noted i place)

theorem stable_noted : Stable .checked (fun s => DomainGone s ∧ Noted i s.pool) :=
  stable_checked (Noted i)

/-- What unlinking a file does to the log is safe in such a storage. -/
theorem On.unlinked {w : World} (h : On c i .checked (Proven c i) w) {name : String}
    {f : Pool → Pool} (hχ : ∀ s, Proven c i s → χ { s with pool := s.pool.map f }) :
    On c i .checked χ { w.alterPool f with
      log := (w.storage.pool.reached.map (fun q => Event.unlinked w.journal q name)).toList ++ w.log } := by
  have hlog : ∀ hu : Undisturbed w.log, Safe
      ((w.storage.pool.reached.map (fun q => Event.unlinked w.journal q name)).toList ++ w.log) := by
    intro hu
    obtain ⟨hs, -, -, ⟨q, g, hq, hg, hval⟩, r, hr, hi⟩ := h.found hu
    rw [hq] at hr ⊢
    cases hr
    refine hs.cons ⟨h.bound.journal.2.trans hi, fun f' hf' => ?_⟩
    rw [hg] at hf'
    cases hf'
    rw [hval, h.bound.journal.1]
  refine ⟨⟨h.bound.journal, h.bound.state⟩, h.phase, fun hu => ?_⟩
  have hu' : Undisturbed w.log := fun p s s' hm => hu p s s' (List.mem_append_right _ hm)
  obtain ⟨-, hp, he⟩ := h.found hu'
  refine ⟨hlog hu', fun hv => ?_, hχ _ he⟩
  obtain hj | ⟨-, hg⟩ := hp hv
  · exact Or.inl hj
  · obtain ⟨q, _, hq, -⟩ := he.2.1
    exact absurd (hg.2.symm.trans hq) (by simp)

theorem Proven.drop {s : Storage} (h : Proven c i s) (name : String) :
    Proven c i { s with pool := s.pool.map (·.drop name) } := by
  obtain ⟨hd, ⟨q, f, hq, hf, hval⟩, r, hr, hi⟩ := h
  refine ⟨hd, ⟨q.drop name, f, ?_, hf, hval⟩, r.drop name, ?_, hi⟩
  · show s.pool.map _ = _; rw [hq]; rfl
  · show s.pool.map _ = _; rw [hr]; rfl

theorem unlink_on {name : String} :
    Triple (On c i .checked (Proven c i)) (unlink name)
      (fun _ => On c i .checked (Proven c i)) (fun _ => Cut c i) :=
  change_triple (fun _ hw => hw.meddle stable_proven)
    (fun _ _ hw _ => hw.unlinked (fun _ hs => hs.drop name)) (fun _ _ hw => hw.cut)
    (fun _ _ _ hw _ => (hw.unlinked (fun _ hs => hs.drop name)).cut)

theorem unlinkCookie_on :
    Triple (On c i .checked (Proven c i)) unlinkCookie
      (fun _ => On c i .checked DomainGone) (fun _ => Cut c i) :=
  change_triple (fun _ hw => hw.meddle stable_proven)
    (fun _ _ hw _ => hw.unlinked (fun _ hs => hs.1)) (fun _ _ hw => hw.cut)
    (fun _ _ _ hw _ => (hw.unlinked (χ := DomainGone) (fun _ hs => hs.1)).cut)

theorem emptyPool_on :
    Triple (On c i .checked (fun s => DomainGone s ∧ Noted i s.pool)) emptyPool
      (fun _ => On c i .checked DomainGone) (fun _ => Cut c i) := by
  refine Triple.bind (checkOwned_on stable_noted stable_proven
    (fun s hs hn => ⟨hs.1, hn, hs.2⟩)) (fun present => Triple.bind keep_on (fun _ => ?_))
  refine Triple.bind (note_on stable_proven (fun _ => ⟨rfl, rfl⟩) (fun _ => rfl)) (fun _ => ?_)
  refine Triple.bind (poolEntries_on stable_proven) (fun entries => ?_)
  refine Triple.bind ?_ (fun _ => unlinkCookie_on)
  exact Triple.forEach (I := fun _ => On c i .checked (Proven c i)) (fun _ _ => unlink_on) entries

theorem confirmEmptied_on :
    Triple (On c i .checked (fun s => DomainGone s ∧ Noted i s.pool)) confirmEmptied
      (fun _ => On c i .checked DomainGone) (fun _ => Cut c i) := by
  refine read_on (fun v _ => Triple.bind (poolEntries_on stable_noted) (fun entries => ?_))
  exact require_on (fun _ _ hw => hw.weaken (fun _ hs => hs.1))

theorem rmdir_on :
    Triple (On c i .checked DomainGone) rmdir (fun _ => On c i .checked Gone) (fun _ => Cut c i) := by
  have hgone : ∀ w, On c i .checked DomainGone w →
      On c i .checked Gone (w.alter (fun s => { s with pool := .absent })) :=
    fun w hw => hw.alter (fun _ hs => ⟨hs, rfl⟩) (fun _ hg => ⟨hg.1, rfl⟩)
  exact change_triple (fun _ hw => hw.meddle (stable_domainGone (by decide)))
    (fun _ w hw _ => hgone w hw) (fun _ _ hw => hw.cut) (fun _ _ w hw _ => (hgone w hw).cut)

/-- A directory stands at the path, no link. -/
def IsDirectory (place : Place) : Prop := ∃ q, place = .directory q

theorem isDirectory_of_owned {place : Place} (h : place.owned = true) : IsDirectory place := by
  cases place with
  | directory q => exact ⟨q, rfl⟩
  | absent => exact absurd h (by decide)
  | link q => exact absurd h (by simp [Place.owned])
  | file => exact absurd h (by decide)

theorem compareIdentity_on :
    Triple (On c i .checked (fun s => DomainGone s ∧ IsDirectory s.pool)) compareIdentity
      (fun _ => On c i .checked (fun s => DomainGone s ∧ Noted i s.pool)) (fun _ => Cut c i) := by
  refine read_on (fun v hv => ?_)
  refine Triple.bind (@look_on _ _ _ _ _ (stable_checked IsDirectory) (fun s => s.pool.reached.map (·.identity))) (fun info => ?_)
  split
  · exact Triple.raise (fun _ hw => hw.cut)
  · exact Triple.raise (fun _ hw => hw.cut)
  · next identity noted hid =>
    refine require_on (fun hb w hw => hw.weaken (fun s hs => ⟨hs.1.1, ?_⟩))
    obtain ⟨⟨-, q, hq⟩, hinfo⟩ := hs
    rw [hq] at hinfo
    refine ⟨q, hq, ?_⟩
    calc i = v.state.poolIdentity := hv.state.2.symm
      _ = some noted := hid
      _ = some identity := by rw [beq_iff_eq.mp hb]
      _ = some q.identity := hinfo.symm

/-- The directory is compared with the one that was noted before anything is removed. -/
theorem purgePool_on :
    Triple (On c i .checked DomainGone) purgePool (fun _ => On c i .checked Gone)
      (fun _ => Cut c i) := by
  refine Triple.bind (@look_on _ _ _ _ _ (stable_domainGone (by decide)) (·.pool))
    (fun place => ?_)
  refine Triple.bind (Q := fun _ => On c i .checked (fun s => DomainGone s ∧ IsDirectory s.pool))
    (require_on (fun hb w hw => hw.weaken (fun s hs => ⟨hs.1, ?_⟩))) (fun _ => ?_)
  · rw [hs.2]
    exact isDirectory_of_owned hb
  refine Triple.bind compareIdentity_on (fun _ => Triple.bind ?_ (fun _ => rmdir_on))
  refine Triple.bind (glance_on stable_noted) (fun cookie => ?_)
  exact Triple.ite (fun _ => emptyPool_on) (fun _ => confirmEmptied_on)

theorem purgePresent_on :
    Triple (On c i .checked DomainGone) purgePresent (fun _ => On c i .checked Gone)
      (fun _ => Cut c i) := by
  refine read_on (fun v _ => ?_)
  refine Triple.bind (@look_on _ _ _ _ _ (stable_domainGone (by decide)) (·.pool.present))
    (fun present => ?_)
  refine Triple.ite (fun _ => purgePool_on.pre (fun w hw => hw.weaken (fun s hs => hs.1)))
    (fun hp => require_on (fun _ w hw => hw.weaken (fun s hs => ⟨hs.1, ?_⟩)))
  have hpresent : s.pool.present = false := by
    rw [hs.2]
    simpa using hp
  cases hpool : s.pool with
  | absent => rfl
  | directory q => rw [hpool] at hpresent; exact absurd hpresent (by simp [Place.present])
  | link q => rw [hpool] at hpresent; exact absurd hpresent (by simp [Place.present])
  | file => rw [hpool] at hpresent; exact absurd hpresent (by decide)

/-- `vm_destroyed` is written while what it says is relied on. -/
theorem purgeStorage_on :
    Triple (On c i .verified DomainGone) purgeStorage (fun _ => On c i .idle (fun _ => True))
      (fun _ => Cut c i) := by
  refine read_on (fun v _ => Triple.bind keep_on (fun _ => ?_))
  refine Triple.bind (phase_on (by decide)) (fun _ => Triple.bind purgePresent_on (fun _ => ?_))
  refine Triple.bind (save_on stable_gone (fun _ => ⟨rfl, rfl⟩) (fun w hw hu _ => ?_)) (fun _ => ?_)
  · exact Or.inr ⟨hw.phase, (hw.found hu).2.2⟩
  -- the journal now says what the state says, and nothing is relied on any more
  refine Triple.update (fun w hw => ⟨⟨hw.1.bound.journal, hw.1.bound.state⟩, rfl, fun hu => ?_⟩)
  refine ⟨(hw.1.found hu).1, fun hv => Or.inl ?_, trivial⟩
  show w.journal.vmDestroyed = true
  rw [hw.2]
  exact hv

/-! The steps that rely on nothing. -/

/-- A step of a cleanup between its checks. -/
abbrev Free (c : Cookie) (i : Option (Nat × Nat)) (x : Cmd α) : Prop :=
  Triple (On c i .idle (fun _ => True)) x (fun _ => On c i .idle (fun _ => True)) (fun _ => Cut c i)

theorem note_free {f : Journal → Journal} (hn : Neutral f)
    (hv : ∀ j, (f j).vmDestroyed = j.vmDestroyed) : Free c i (save f) :=
  note_on stable_true hn hv

theorem isRunning_free : Free c i isRunning :=
  Triple.bind (dumpxml_on stable_true) (fun _ => Triple.pure' (fun _ hw => hw))

theorem cleanCredentials_free : Free c i cleanCredentials :=
  read_on (fun _ _ => onlyIf_on (Triple.bind (idle_on stable_true)
    (fun _ => note_free (fun _ => ⟨rfl, rfl⟩) (fun _ => rfl))))

theorem purgeGuest_free {present : Bool} : Free c i (purgeGuest present) := by
  refine read_on (fun _ _ => onlyIf_on ?_)
  refine Triple.bind (onlyIf_on (Triple.bind isRunning_free (fun _ => onlyIf_on ?_))) (fun _ => ?_)
  · exact Triple.bind act_on (fun _ => idle_on stable_true)
  refine Triple.bind keep_on (fun _ => Triple.bind (idle_on stable_true) (fun _ => ?_))
  exact note_free (fun _ => ⟨rfl, rfl⟩) (fun _ => rfl)

/-- The directories of the run are no part of the storage. -/
theorem removeTree_free {spot : World → Spot} {gone : World → World} {reason : String}
    (hgone : ∀ w, (gone w).storage = w.storage ∧ (gone w).journal = w.journal ∧
      (gone w).state = w.state ∧ (gone w).phase = w.phase ∧ (gone w).log = w.log) :
    Free c i (removeTree spot gone reason) := by
  have h : ∀ w, On c i .idle (fun _ => True) w → On c i .idle (fun _ => True) (gone w) := by
    intro w hw
    obtain ⟨h₁, h₂, h₃, h₄, h₅⟩ := hgone w
    refine ⟨⟨by rw [h₂]; exact hw.bound.journal, by rw [h₃]; exact hw.bound.state⟩,
      h₄.trans hw.phase, fun hu => ?_⟩
    rw [h₅] at hu ⊢
    obtain ⟨hs, hp, -⟩ := hw.found hu
    refine ⟨hs, ?_, trivial⟩
    unfold Pending at hp ⊢
    rw [h₁, h₂, h₃, h₄]
    exact hp
  refine Triple.bind (glance_on stable_true) (fun _ => Triple.bind keep_on (fun _ => onlyIf_on ?_))
  exact change_triple (fun _ hw => hw.meddle stable_true) (fun _ w hw _ => h w hw)
    (fun _ _ hw => hw.cut) (fun _ _ w hw _ => (h w hw).cut)

theorem purgeSecrets_free : Free c i purgeSecrets := by
  refine read_on (fun _ _ => onlyIf_on ?_)
  refine Triple.bind (removeTree_free (fun _ => ⟨rfl, rfl, rfl, rfl, rfl⟩)) (fun _ => ?_)
  refine Triple.bind (removeTree_free (fun _ => ⟨rfl, rfl, rfl, rfl, rfl⟩)) (fun _ => ?_)
  exact note_free (fun _ => ⟨rfl, rfl⟩) (fun _ => rfl)

theorem destroyDomain_free : Free c i destroyDomain :=
  Triple.bind isRunning_free (fun _ => Triple.bind (onlyIf_on act_on) (fun _ => act_on))

theorem releaseFixture_free : Free c i releaseFixture := by
  refine Triple.bind (checkOwned_keeps stable_true) (fun present => ?_)
  refine Triple.bind purgeGuest_free (fun _ => Triple.bind purgeSecrets_free (fun _ => ?_))
  refine Triple.bind (checkOwned_keeps stable_true) (fun _ => ?_)
  refine Triple.bind (onlyIf_on destroyDomain_free) (fun _ => ?_)
  refine Triple.bind verifyDestroyedDomain_on (fun _ => ?_)
  refine Triple.bind (note_on (stable_domainGone (by decide)) (fun _ => ⟨rfl, rfl⟩) (fun _ => rfl))
    (fun _ => purgeStorage_on)

theorem purgePrivate_free : Free c i purgePrivate := by
  refine Triple.bind (removeTree_free (fun _ => ⟨rfl, rfl, rfl, rfl, rfl⟩)) (fun _ => ?_)
  refine Triple.bind (glance_on stable_true) (fun _ => Triple.bind keep_on (fun _ => ?_))
  exact note_free (fun _ => ⟨rfl, rfl⟩) (fun _ => rfl)

theorem writeRecord_free : Free c i writeRecord := by
  refine Triple.bind (meanwhile_triple (fun _ hw => hw.meddle stable_true)) (fun _ => ?_)
  exact atomic_triple (fun _ _ hw => ⟨⟨hw.bound.journal, hw.bound.state⟩, hw.phase, hw.found⟩)
    (fun _ _ hw => hw.cut) (fun _ _ _ hw => ⟨⟨hw.bound.journal, hw.bound.state⟩, (hw.cut).found⟩)

theorem cleanup_free : Free c i cleanup := by
  refine Triple.bind cleanCredentials_free (fun _ => read_on (fun _ _ => ?_))
  refine Triple.bind (onlyIf_on (Triple.bind verifyDestroyedDomain_on (fun _ => purgeStorage_on)))
    (fun _ => read_on (fun _ _ => ?_))
  refine Triple.bind (onlyIf_on releaseFixture_free) (fun _ => ?_)
  exact Triple.bind purgePrivate_free (fun _ => writeRecord_free)

end Steps

/-! ## Cleanups -/

/-- Between two cleanups only the journal and the storage are left. -/
def Settled (c : Cookie) (i : Option (Nat × Nat)) (w : World) : Prop :=
  w.journal.cookie = c ∧ w.journal.poolIdentity = i ∧ (Undisturbed w.log → Safe w.log)

theorem Cut.settled {w : World} (h : Cut c i w) : Settled c i w :=
  ⟨h.bound.journal.1, h.bound.journal.2, fun hu => (h.found hu).1⟩

/-- A cut-off cleanup may be cut off again while it writes its state once more. -/
theorem save_cut : Triple (Cut c i) (save id) (fun _ => Cut c i) (fun _ => Cut c i) := by
  intro t w hw
  have hon : On c i w.phase (fun _ => True) w :=
    ⟨hw.bound, rfl, fun hu => ⟨(hw.found hu).1, (hw.found hu).2, trivial⟩⟩
  exact ((note_on stable_true (fun _ => ⟨rfl, rfl⟩) (fun _ => rfl)).post
    (fun _ _ hv => hv.cut)) t w hon

theorem recover_settled : Keeps (Settled c i) recover := by
  refine Triple.bind (Q := fun _ => On c i .idle (fun _ => True)) (Triple.update ?_) (fun _ => ?_)
  · intro w hw
    exact ⟨⟨⟨hw.1, hw.2.1⟩, ⟨hw.1, hw.2.1⟩⟩, rfl, fun hu => ⟨hw.2.2 hu, fun hv => Or.inl hv, trivial⟩⟩
  refine Triple.handle (cleanup_free.post (fun _ _ hw => hw.cut.settled)) (fun err => ?_)
  split
  · exact Triple.raise (fun _ hw => hw.settled)
  · exact Triple.bind (save_cut.mono (fun _ h => h) (fun _ _ h => h) (fun _ _ h => h.settled))
      (fun _ => Triple.raise (fun _ hw => hw.settled))

theorem recoverAll_settled (scripts : List (List Moment)) :
    ∀ w, Settled c i w → Settled c i (recoverAll scripts w) := by
  induction scripts with
  | nil => exact fun _ hw => hw
  | cons t scripts ih => exact fun w hw => ih _ (recover_settled.after hw)

/-- A log without acts of others. -/
theorem undisturbed_alone {log : List Event}
    (h : log.all (fun e => match e with | .meddled .. => false | _ => true) = true) :
    Undisturbed log :=
  fun _ _ _ hm => absurd (List.all_eq_true.mp h _ hm) (by simp)

def ownPool : Pool :=
  { identity := (1, 2), owner := some { value := some ⟨"a", "b"⟩ }, files := [{ name := "vars.fd" }] }

def foreignPool : Pool :=
  { identity := (1, 9), owner := some { value := some ⟨"c", "d"⟩ }, files := [{ name := "vars.fd" }] }

/-- The journal of a run that was cut off after its domain was destroyed. -/
def destroyedJournal : Journal :=
  { runId := "a", binding := "b", inputsStarted := true, poolOwned := true,
    poolIdentity := some (1, 2), domainDestroyed := true }

def abandoned (meddling : List (Storage → Storage)) : World :=
  { storage := ⟨.directory ownPool, none, false, false, [], false⟩
    journal := destroyedJournal
    state := destroyedJournal
    meddling := meddling }

/-- Another party puts its own directory in the place of the pool right before a file is
    unlinked. -/
def replacedPool : List (Storage → Storage) :=
  List.replicate 15 id ++ [fun s => { s with pool := .directory foreignPool }]

end Hermes.Fixture

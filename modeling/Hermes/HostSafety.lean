import Hermes.HostMoves
import Hermes.Library.History

/- The safety of the release state machine of one host: what must have happened
   before the package transaction is staged, before the runtime is installed and
   before a release is closed.

   `MarkLawful` is the rule for one mark, given the trace before it. `Progress` says
   what the journal of a release owes to the trace; it depends on the journal and
   the trace only, and every step of every process keeps it. -/
namespace Hermes
open Process

variable {α : Type}

/-- The backup of `d` was acknowledged, where `d` is the digest of the snapshot. -/
def BackedUp (r : Release) (t : List Mark) : Prop :=
  ∃ d, [.acknowledged r.id d, .snapshotTaken r.id d].Sublist t

/-- Snapshot, acknowledged backup and credential, in this order. -/
def Prepared (r : Release) (t : List Mark) : Prop :=
  ∃ d key, [.credentialStored r.id key, .acknowledged r.id d, .snapshotTaken r.id d].Sublist t

/-- The transaction was staged, and the packages were confirmed on another boot. -/
def PackagesConfirmed (r : Release) (t : List Mark) : Prop :=
  (∃ boot, .staged (packagesDirectory r.id) boot ∈ t) ∧
    ∃ v, .recorded r.id .runtimePending v ∈ t ∧
      (∀ boot, .staged (packagesDirectory r.id) boot ∈ t → v.bootId ≠ boot) ∧
      v.packages = r.installedAfter ∧ v.replayed = true

/-- Acceptance succeeded on two boots. -/
def AcceptedTwice (r : Release) (t : List Mark) : Prop :=
  ∃ boot boot', boot ≠ boot' ∧ .accepted r.id boot ∈ t ∧ .accepted r.id boot' ∈ t

/-- The release was rolled back. -/
def RolledBack (r : Release) (t : List Mark) : Prop := ∃ v, .recorded r.id .rolledBack v ∈ t

/-- What a mark may claim, given the marks before it. -/
def MarkLawful (r : Release) (past : List Mark) : Mark → Prop
  | .staged directory _ => directory = packagesDirectory r.id → Prepared r past
  | .installed id _ => id = r.id → PackagesConfirmed r past
  | .recorded id phase _ => id = r.id → phase = .closed → AcceptedTwice r past ∧ ¬ RolledBack r past
  | _ => True

/-- How far a release has come; a rollback leaves the order. -/
def Phase.rank : Phase → Nat
  | .new => 0
  | .snapshotCreating => 1
  | .snapshotReady => 2
  | .backupVerified => 3
  | .credentialReady => 4
  | .packageStaging => 5
  | .rebootPending => 6
  | .runtimePending => 7
  | .runtimeInstalled => 8
  | .persistenceReboot => 9
  | .closed => 10
  | .rolledBack => 11
  | .recoveryRequired => 11

/-- The release was rolled back, with or without success. -/
def Phase.undone (p : Phase) : Prop := p = .rolledBack ∨ p = .recoveryRequired

/-- What the journal of a release owes to the trace. -/
structure Progress (r : Release) (j : Journal) (t : List Mark) : Prop where
  taken : ∀ d, j.snapshotSha256 = some d → .snapshotTaken r.id d ∈ t
  acked : ∀ d, .acknowledged r.id d ∈ t → [.acknowledged r.id d, .snapshotTaken r.id d].Sublist t
  stored : ∀ key, .credentialStored r.id key ∈ t → Prepared r t
  backedUp : 3 ≤ j.phase.rank → j.phase.rank ≤ 10 → BackedUp r t
  prepared : 4 ≤ j.phase.rank → j.phase.rank ≤ 10 → Prepared r t
  unstaged : j.phase.rank ≤ 4 → ∀ boot, .staged (packagesDirectory r.id) boot ∉ t
  staged : ∀ boot, .staged (packagesDirectory r.id) boot ∈ t → j.bootBefore = some boot
  stagedOnce : 6 ≤ j.phase.rank → j.phase.rank ≤ 10 →
    ∃ boot, .staged (packagesDirectory r.id) boot ∈ t
  confirmed : 7 ≤ j.phase.rank → j.phase.rank ≤ 10 → PackagesConfirmed r t
  accepted : ∀ boot, j.runtimeBootBefore = some boot → .accepted r.id boot ∈ t
  closed : j.phase = .closed → AcceptedTwice r t
  rolledBack : RolledBack r t → j.phase.undone
  lawful : Guarded (MarkLawful r) t

section Marks

variable {r : Release} {t : List Mark} {e : Mark}

theorem BackedUp.cons (h : BackedUp r t) : BackedUp r (e :: t) :=
  h.imp fun _ hd => hd.cons _

theorem Prepared.cons (h : Prepared r t) : Prepared r (e :: t) :=
  h.imp fun _ hd => hd.imp fun _ hk => hk.cons _

theorem AcceptedTwice.cons (h : AcceptedTwice r t) : AcceptedTwice r (e :: t) := by
  obtain ⟨b, b', hne, hb, hb'⟩ := h
  exact ⟨b, b', hne, List.mem_cons_of_mem _ hb, List.mem_cons_of_mem _ hb'⟩

/-- Later marks confirm nothing away, unless they stage the transaction again. -/
theorem PackagesConfirmed.cons (h : PackagesConfirmed r t)
    (he : ∀ boot, e ≠ .staged (packagesDirectory r.id) boot) : PackagesConfirmed r (e :: t) := by
  obtain ⟨⟨b, hb⟩, v, hv, hne, hp, hr⟩ := h
  refine ⟨⟨b, List.mem_cons_of_mem _ hb⟩, v, List.mem_cons_of_mem _ hv, ?_, hp, hr⟩
  intro boot hboot
  rcases List.mem_cons.mp hboot with heq | hboot
  · exact absurd heq.symm (he boot)
  · exact hne boot hboot

end Marks

namespace Progress

variable {r : Release} {j : Journal} {t : List Mark}

/-- A mark that neither stages the transaction of `r` nor says that it was rolled back. -/
theorem note (h : Progress r j t) {e : Mark}
    (hs : ∀ boot, e ≠ .staged (packagesDirectory r.id) boot)
    (hr : ∀ v, e ≠ .recorded r.id .rolledBack v) (hl : MarkLawful r t e)
    (ha : ∀ d, e = .acknowledged r.id d → .snapshotTaken r.id d ∈ t)
    (hk : ∀ key, e = .credentialStored r.id key → BackedUp r t) : Progress r j (e :: t) where
  taken := fun d hd => List.mem_cons_of_mem _ (h.taken d hd)
  acked := by
    intro d hd
    rcases List.mem_cons.mp hd with heq | hd
    · rw [← heq]
      exact (List.singleton_sublist.mpr (ha d heq.symm)).cons_cons _
    · exact (h.acked d hd).cons _
  stored := by
    intro key hkey
    rcases List.mem_cons.mp hkey with heq | hkey
    · obtain ⟨d, hd⟩ := hk key heq.symm
      rw [← heq]
      exact ⟨d, key, hd.cons_cons _⟩
    · exact (h.stored key hkey).cons
  backedUp := fun h₁ h₂ => (h.backedUp h₁ h₂).cons
  prepared := fun h₁ h₂ => (h.prepared h₁ h₂).cons
  unstaged := by
    intro hp boot hboot
    rcases List.mem_cons.mp hboot with heq | hboot
    · exact hs boot heq.symm
    · exact h.unstaged hp boot hboot
  staged := by
    intro boot hboot
    rcases List.mem_cons.mp hboot with heq | hboot
    · exact absurd heq.symm (hs boot)
    · exact h.staged boot hboot
  stagedOnce := fun h₁ h₂ => (h.stagedOnce h₁ h₂).imp fun _ hb => List.mem_cons_of_mem _ hb
  confirmed := fun h₁ h₂ => (h.confirmed h₁ h₂).cons hs
  accepted := fun boot hb => List.mem_cons_of_mem _ (h.accepted boot hb)
  closed := fun hc => (h.closed hc).cons
  rolledBack := by
    intro ⟨v, hv⟩
    rcases List.mem_cons.mp hv with heq | hv
    · exact absurd heq.symm (hr v)
    · exact h.rolledBack ⟨v, hv⟩
  lawful := ⟨hl, h.lawful⟩

/-- Staging the transaction, in the phase that the journal names. -/
theorem stage (h : Progress r j t) {boot : String} (hp : j.phase = .packageStaging)
    (hb : j.bootBefore = some boot) :
    Progress r j (.staged (packagesDirectory r.id) boot :: t) where
  taken := fun d hd => List.mem_cons_of_mem _ (h.taken d hd)
  acked := fun d hd => (h.acked d (by simpa using hd)).cons _
  stored := fun key hk => (h.stored key (by simpa using hk)).cons
  backedUp := fun h₁ h₂ => (h.backedUp h₁ h₂).cons
  prepared := fun h₁ h₂ => (h.prepared h₁ h₂).cons
  unstaged := by rw [hp]; simp [Phase.rank]
  staged := by
    intro b hm
    rcases List.mem_cons.mp hm with heq | hm
    · cases heq; exact hb
    · exact h.staged b hm
  stagedOnce := fun _ _ => ⟨boot, by simp⟩
  confirmed := by rw [hp]; simp [Phase.rank]
  accepted := fun b hb => List.mem_cons_of_mem _ (h.accepted b hb)
  closed := by rw [hp]; simp
  rolledBack := by
    intro ⟨v, hv⟩
    rcases List.mem_cons.mp hv with heq | hv
    · cases heq
    · exact h.rolledBack ⟨v, hv⟩
  lawful := by
    refine ⟨fun _ => h.prepared ?_ ?_, h.lawful⟩ <;> rw [hp] <;> simp [Phase.rank]

/-- A release that was rolled back is in no phase of the order. -/
theorem not_rolledBack (h : Progress r j t) (hp : j.phase.rank ≤ 10) : ¬ RolledBack r t := by
  intro hr
  rcases h.rolledBack hr with heq | heq <;> rw [heq] at hp <;> simp [Phase.rank] at hp

/-- Going on to a later phase, with what that phase owes in addition. -/
theorem go (h : Progress r j t) {j' : Journal} (hle : j.phase.rank ≤ j'.phase.rank)
    (hlast : j'.phase.rank ≤ 10)
    (htaken : ∀ d, j'.snapshotSha256 = some d →
      j.snapshotSha256 = some d ∨ .snapshotTaken r.id d ∈ t)
    (hback : j.phase.rank < 3 → 3 ≤ j'.phase.rank → BackedUp r t)
    (hprep : j.phase.rank < 4 → 4 ≤ j'.phase.rank → Prepared r t)
    (hboot : j'.bootBefore = j.bootBefore ∨ j.phase.rank ≤ 4)
    (honce : j.phase.rank < 6 → 6 ≤ j'.phase.rank →
      ∃ boot, .staged (packagesDirectory r.id) boot ∈ t)
    (hconf : j.phase.rank < 7 → 7 ≤ j'.phase.rank → PackagesConfirmed r t)
    (hacc : ∀ boot, j'.runtimeBootBefore = some boot →
      j.runtimeBootBefore = some boot ∨ .accepted r.id boot ∈ t)
    (hclosed : j'.phase = .closed → j.phase = .closed ∨ AcceptedTwice r t) :
    Progress r j' t where
  taken := fun d hd => (htaken d hd).elim (h.taken d) id
  acked := h.acked
  stored := h.stored
  backedUp := fun h₁ _ => by
    by_cases hr : 3 ≤ j.phase.rank
    · exact h.backedUp hr (by omega)
    · exact hback (by omega) h₁
  prepared := fun h₁ _ => by
    by_cases hr : 4 ≤ j.phase.rank
    · exact h.prepared hr (by omega)
    · exact hprep (by omega) h₁
  unstaged := fun hr => h.unstaged (by omega)
  staged := fun boot hm => by
    rcases hboot with heq | hr
    · rw [heq]; exact h.staged boot hm
    · exact absurd hm (h.unstaged hr boot)
  stagedOnce := fun h₁ _ => by
    by_cases hr : 6 ≤ j.phase.rank
    · exact h.stagedOnce hr (by omega)
    · exact honce (by omega) h₁
  confirmed := fun h₁ _ => by
    by_cases hr : 7 ≤ j.phase.rank
    · exact h.confirmed hr (by omega)
    · exact hconf (by omega) h₁
  accepted := fun boot hb => (hacc boot hb).elim (h.accepted boot) id
  closed := fun hc => (hclosed hc).elim h.closed id
  rolledBack := fun hr => absurd hr (h.not_rolledBack (by omega))
  lawful := h.lawful

/-- After a rollback the journal owes nothing more. -/
theorem undo (h : Progress r j t) {p : Phase} {v : View} (hp : p.undone) :
    Progress r { j with phase := p } (.recorded r.id p v :: t) := by
  have hrank : p.rank = 11 := by rcases hp with heq | heq <;> rw [heq] <;> rfl
  have hne : p ≠ .closed := by rcases hp with heq | heq <;> rw [heq] <;> simp
  exact {
    taken := fun d hd => List.mem_cons_of_mem _ (h.taken d hd)
    acked := fun d hd => (h.acked d (by simpa using hd)).cons _
    stored := fun key hk => (h.stored key (by simpa using hk)).cons
    backedUp := fun _ h₂ => by rw [hrank] at h₂; omega
    prepared := fun _ h₂ => by rw [hrank] at h₂; omega
    unstaged := fun h₂ => by rw [hrank] at h₂; omega
    staged := fun boot hm => h.staged boot (by simpa using hm)
    stagedOnce := fun _ h₂ => by rw [hrank] at h₂; omega
    confirmed := fun _ h₂ => by rw [hrank] at h₂; omega
    accepted := fun boot hb => List.mem_cons_of_mem _ (h.accepted boot hb)
    closed := fun hc => absurd hc hne
    rolledBack := fun _ => hp
    lawful := ⟨fun _ hc => absurd hc hne, h.lawful⟩ }

end Progress

section Steps

variable {r : Release} {K : Key → Prop} {m m' : Machine}

/-- The journal is written: one case for each transition. -/
theorem progress_save {j j' : Journal} (h : Progress r j m.trace) (hT : Transition r m j j') :
    Progress r j' (.recorded r.id j'.phase (m.view r) :: m.trace) := by
  -- the mark first, then the journal
  have hmark : ∀ p : Phase, p ≠ .rolledBack → (p = .closed → AcceptedTwice r m.trace ∧
      j.phase.rank ≤ 10) → Progress r j (.recorded r.id p (m.view r) :: m.trace) := by
    intro p hp hc
    refine h.note (by simp) (fun v heq => ?_)
      (fun _ hcl => ⟨(hc hcl).1, h.not_rolledBack (hc hcl).2⟩) (by simp) (by simp)
    cases heq
    exact hp rfl
  cases hT with
  | begin active hp hc =>
    have hj := hmark .snapshotCreating (by simp) (by simp)
    refine hj.go ?_ ?_ (fun d hd => .inl hd) ?_ ?_ (.inl rfl) ?_ ?_ (fun b hb => .inl hb) ?_ <;>
      simp [hp, Phase.rank]
  | ready d hp hd =>
    have hj := hmark .snapshotReady (by simp) (by simp)
    refine hj.go ?_ ?_ ?_ ?_ ?_ (.inl rfl) ?_ ?_ (fun b hb => .inl hb) ?_
    case refine_3 =>
      intro d' hd'
      cases hd'
      exact .inr (List.mem_cons_of_mem _ hd)
    all_goals simp [hp, Phase.rank]
  | acknowledge d backup hp hd ha =>
    have hj := hmark .backupVerified (by simp) (by simp)
    have hback : BackedUp r m.trace := ⟨d, h.acked d ha⟩
    refine hj.go ?_ ?_ (fun d hd => .inl hd) (fun _ _ => hback.cons) ?_ (.inl rfl) ?_ ?_
      (fun b hb => .inl hb) ?_ <;>
      rcases hp with hp | hp <;> simp [hp, Phase.rank]
  | store key hp hk =>
    have hj := hmark .credentialReady (by simp) (by simp)
    refine hj.go ?_ ?_ (fun d hd => .inl hd) ?_ (fun _ _ => (h.stored key hk).cons) (.inl rfl) ?_ ?_
      (fun b hb => .inl hb) ?_ <;>
      rcases hp with hp | hp <;> simp [hp, Phase.rank]
  | prepare hp =>
    have hj := hmark .packageStaging (by simp) (by simp)
    refine hj.go ?_ ?_ (fun d hd => .inl hd) ?_ ?_ (.inr ?_) ?_ ?_ (fun b hb => .inl hb) ?_ <;>
      simp [hp, Phase.rank]
  | stage hp hs =>
    have hj := hmark .rebootPending (by simp) (by simp)
    refine hj.go ?_ ?_ (fun d hd => .inl hd) ?_ ?_ (.inl rfl)
      (fun _ _ => ⟨m.bootId, List.mem_cons_of_mem _ hs⟩) ?_ (fun b hb => .inl hb) ?_ <;>
      simp [hp, Phase.rank]
  | confirm boot hp hb hne hi hr =>
    have hj := hmark .runtimePending (by simp) (by simp)
    have hconf : PackagesConfirmed r (.recorded r.id .runtimePending (m.view r) :: m.trace) := by
      refine ⟨hj.stagedOnce (by rw [hp]; decide) (by rw [hp]; decide), m.view r, by simp, ?_, hi, hr⟩
      intro boot' hboot'
      have := hj.staged boot' hboot'
      rw [hb] at this
      cases this
      exact hne
    refine hj.go ?_ ?_ (fun d hd => .inl hd) ?_ ?_ (.inl rfl) ?_ (fun _ _ => hconf)
      (fun b hb => .inl hb) ?_ <;> simp [hp, Phase.rank]
  | install hp =>
    have hj := hmark .runtimeInstalled (by simp) (by simp)
    refine hj.go ?_ ?_ (fun d hd => .inl hd) ?_ ?_ (.inl rfl) ?_ ?_ (fun b hb => .inl hb) ?_ <;>
      simp [hp, Phase.rank]
  | persist hp ha =>
    have hj := hmark .persistenceReboot (by simp) (by simp)
    refine hj.go ?_ ?_ (fun d hd => .inl hd) ?_ ?_ (.inl rfl) ?_ ?_ ?_ ?_
    case refine_7 =>
      intro b hb
      cases hb
      exact .inr (List.mem_cons_of_mem _ ha)
    all_goals simp [hp, Phase.rank]
  | close boot hp hb hne ha =>
    have htwice : AcceptedTwice r m.trace := ⟨m.bootId, boot, hne, ha, h.accepted boot hb⟩
    have hj := hmark .closed (by simp) (fun _ => ⟨htwice, by rw [hp]; decide⟩)
    refine hj.go ?_ ?_ (fun d hd => .inl hd) ?_ ?_ (.inl rfl) ?_ ?_ (fun b hb => .inl hb)
      (fun _ => .inr htwice.cons) <;> simp [hp, Phase.rank]
  | reclose hp =>
    have hj := hmark .closed (by simp) (fun _ => ⟨h.closed hp, by rw [hp]; decide⟩)
    refine hj.go ?_ ?_ (fun d hd => .inl hd) ?_ ?_ (.inl rfl) ?_ ?_ (fun b hb => .inl hb)
      (fun _ => .inl hp) <;> simp [hp, Phase.rank]
  | undo p hp hc => exact h.undo hp

/-- The steps of the processes of the release itself. -/
theorem progress_step (h : Progress r (m.journalOf r.id) m.trace) (hs : HostStep r K m m') :
    Progress r (m'.journalOf r.id) m'.trace := by
  cases hs with
  | quiet hf => rw [hf.journalOf, hf.trace]; exact h
  | save j hT =>
    have := progress_save h hT
    simpa [Machine.journalOf] using this
  | capture | track | restore => exact h
  | store key nonce hk hp =>
    refine h.note (by simp) (by simp) trivial (by simp) (fun _ _ => h.backedUp ?_ ?_) <;>
      rcases hp with hp | hp <;> rw [hp] <;> decide
  | note e hn =>
    cases e with
    | snapshotTaken id d => exact h.note (by simp) (by simp) trivial (by simp) (by simp)
    | acknowledged id d =>
      obtain ⟨rfl, hd, _⟩ := hn
      refine h.note (by simp) (by simp) trivial (fun d' heq => ?_) (by simp)
      cases heq
      exact h.taken d hd
    | credentialStored id key => exact hn.elim
    | staged directory boot =>
      obtain ⟨rfl, rfl, hp, hb⟩ := hn
      exact h.stage hp hb
    | installed id place =>
      obtain ⟨rfl, hp⟩ := hn
      refine h.note (by simp) (by simp) (fun _ => h.confirmed ?_ ?_) (by simp) (by simp) <;>
        rw [hp] <;> decide
    | accepted id boot => exact h.note (by simp) (by simp) trivial (by simp) (by simp)
    | recorded id p v => exact hn.elim

/-- The steps of the processes of another release. -/
theorem progress_other {r' : Release} (hne : r'.id ≠ r.id)
    (h : Progress r (m.journalOf r.id) m.trace) (hs : HostStep r' K m m') :
    Progress r (m'.journalOf r.id) m'.trace := by
  have hdir : packagesDirectory r'.id ≠ packagesDirectory r.id :=
    fun heq => hne (packagesDirectory_inj heq)
  cases hs with
  | quiet hf => rw [hf.journalOf, hf.trace]; exact h
  | save j hT =>
    have hj : ((m.setJournal r'.id j).mark (.recorded r'.id j.phase (m.view r'))).journalOf r.id =
        m.journalOf r.id := by
      simp [Machine.journalOf, Machine.setJournal_other _ _ _ _ (Ne.symm hne)]
    rw [hj]
    exact h.note (by simp) (by simp [hne]) (fun heq => absurd heq hne) (by simp) (by simp)
  | capture | track | restore => exact h
  | store key nonce hk hp =>
    exact h.note (by simp) (by simp) trivial (by simp) (by simp [hne])
  | note e hn =>
    cases e with
    | snapshotTaken id d => exact h.note (by simp) (by simp) trivial (by simp) (by simp)
    | acknowledged id d =>
      obtain ⟨rfl, _⟩ := hn
      exact h.note (by simp) (by simp) trivial (by simp [hne]) (by simp)
    | credentialStored id key => exact hn.elim
    | staged directory boot =>
      obtain ⟨rfl, _⟩ := hn
      exact h.note (by simp [hdir]) (by simp) (fun heq => absurd heq hdir) (by simp) (by simp)
    | installed id place =>
      obtain ⟨rfl, _⟩ := hn
      exact h.note (by simp) (by simp) (fun heq => absurd heq hne) (by simp) (by simp)
    | accepted id boot => exact h.note (by simp) (by simp) trivial (by simp) (by simp)
    | recorded id p v => exact hn.elim

theorem progress_moves (h : Progress r (m.journalOf r.id) m.trace) (hs : Moves r K m m') :
    Progress r (m'.journalOf r.id) m'.trace := by
  induction hs with
  | refl => exact h
  | tail _ hstep ih => exact progress_step ih hstep

theorem progress_others {r' : Release} (hne : r'.id ≠ r.id)
    (h : Progress r (m.journalOf r.id) m.trace) (hs : Moves r' K m m') :
    Progress r (m'.journalOf r.id) m'.trace := by
  induction hs with
  | refl => exact h
  | tail _ hstep ih => exact progress_other hne ih hstep

end Steps

/-! What happens to a host. -/

/-- A request of the dispatcher, a run of the offline update, or a reboot, after which
    the outside decides what runs again. -/
inductive Occasion where
  | request (r : Release) (a : Action) (script : List Moment)
  | execute (directory : String) (baseline : Digest) (script : List Moment)
  | reboot (bootId : String) (userManager active : Bool)

/-- A request under the id of `r` is a request for `r`: the dispatcher binds a release id
    to one manifest. -/
def Occasion.agrees (r : Release) : Occasion → Prop
  | .request r' _ _ => r'.id = r.id → r' = r
  | _ => True

instance (r : Release) : (o : Occasion) → Decidable (o.agrees r)
  | .request r' _ _ => inferInstanceAs (Decidable (r'.id = r.id → r' = r))
  | .execute _ _ _ => inferInstanceAs (Decidable True)
  | .reboot _ _ _ => inferInstanceAs (Decidable True)

def Machine.occur (m : Machine) : Occasion → Machine
  | .request r a script => (invoke r a).after script m
  | .execute directory baseline script => (executeOffline directory baseline).after script m
  | .reboot bootId userManager active =>
    { m with bootId := bootId, userManager := userManager, active := active }

def Machine.occurAll (m : Machine) (os : List Occasion) : Machine := os.foldl Machine.occur m

theorem quiet_verifyPackages (baseline : Digest) : Quiet (verifyPackages baseline) :=
  Stays.bind stays_query (fun _ => Stays.bind stays_require
    (fun _ => Stays.bind stays_instant (fun _ => stays_require)))

theorem quiet_replayStaged (directory : String) (baseline : Digest) (state : Replay) :
    Quiet (replayStaged directory baseline state) := by
  unfold replayStaged
  refine Stays.bind (quiet_verifyPackages _) (fun _ => ?_)
  refine Stays.bind (quiet_update (fun _ => ⟨rfl, rfl, rfl, rfl, rfl⟩)) (fun _ => ?_)
  refine Stays.bind (quiet_run (fun _ _ => ⟨rfl, rfl, rfl, rfl, rfl⟩)) (fun _ => ?_)
  refine Stays.bind stays_query (fun _ => Stays.bind stays_require (fun _ => Stays.bind ?_ (fun _ => ?_)))
  · unfold selectBoot
    cases state.boot with
    | none => exact Stays.pure' ()
    | some boot =>
      refine Stays.bind (quiet_protectedFile _) (fun _ => Stays.bind stays_require (fun _ => ?_))
      refine Stays.bind (quiet_update (fun _ => ⟨rfl, rfl, rfl, rfl, rfl⟩)) (fun _ => ?_)
      exact quiet_run (fun _ _ => ⟨rfl, rfl, rfl, rfl, rfl⟩)
  refine Stays.bind ?_ (fun _ => Stays.bind stays_instant (fun _ => ?_))
  · unfold cleanupOffline
    refine Stays.bind (quiet_protectedFile _) (fun _ => Stays.bind stays_require (fun _ => ?_))
    refine Stays.bind Stays.read (fun _ => Stays.bind stays_require (fun _ => ?_))
    refine Stays.bind (quiet_atomic (fun _ _ => ⟨rfl, rfl, rfl, rfl, rfl⟩)) (fun _ => ?_)
    exact quiet_atomic (fun _ s => Frame.setNode s _ (by simp))
  · exact quiet_atomic (fun _ _ => ⟨rfl, rfl, rfl, rfl, rfl⟩)

/-- The offline update touches no journal and leaves no mark. -/
theorem quiet_executeOffline (directory : String) (baseline : Digest) :
    Quiet (executeOffline directory baseline) := by
  unfold executeOffline
  refine Stays.bind Stays.read (fun s => Stays.ite (Stays.pure' ()) ?_)
  refine Stays.bind (quiet_atomic (fun _ _ => ⟨rfl, rfl, rfl, rfl, rfl⟩)) (fun _ => ?_)
  refine Stays.bind services_look.quiet (fun _ => Stays.bind Stays.read (fun s => ?_))
  cases s.replays directory baseline with
  | none => exact Stays.raise _
  | some state =>
    refine Stays.bind stays_require (fun _ => ?_)
    refine Stays.bind (quiet_atomic (fun _ _ => ⟨rfl, rfl, rfl, rfl, rfl⟩)) (fun _ => ?_)
    refine Stays.bind (Stays.handle (quiet_replayStaged _ _ _) (fun e => ?_)) (fun _ => services_look.quiet)
    refine Stays.ite (Stays.bind stays_instant (fun _ => ?_)) (Stays.raise _)
    refine Stays.bind (quiet_atomic (fun _ _ => ⟨rfl, rfl, rfl, rfl, rfl⟩)) (fun _ => ?_)
    exact Stays.raise _

/-- One occasion keeps what the journal of `r` owes to the trace. -/
theorem progress_occur {r : Release} {m : Machine} {o : Occasion} (ho : o.agrees r)
    (h : Progress r (m.journalOf r.id) m.trace) :
    Progress r ((m.occur o).journalOf r.id) (m.occur o).trace := by
  cases o with
  | request r' a script =>
    have hm : Moves r' a.hands m ((invoke r' a).after script m) :=
      ((invoke_moves r' a m).mono (fun _ h => h) (fun _ _ h => h.1) (fun _ _ h => h)).after rfl
    by_cases hid : r'.id = r.id
    · have heq : r' = r := ho hid
      subst heq
      exact progress_moves h hm
    · exact progress_others hid h hm
  | execute directory baseline script =>
    have hq : Frame m ((executeOffline directory baseline).after script m) :=
      (quiet_executeOffline directory baseline m).after (Frame.refl m)
    show Progress r (Machine.journalOf _ r.id) (Machine.trace _)
    simp only [Machine.occur]
    rw [hq.journalOf, hq.trace]
    exact h
  | reboot bootId userManager active => exact h

/-- A release that the host has not seen yet owes nothing. -/
theorem progress_new {r : Release} {j : Journal} (hj : j = { phase := .new }) :
    Progress r j [] := by
  subst hj
  constructor <;> simp [Phase.rank, RolledBack, Guarded]

theorem progress_occurAll {r : Release} (os : List Occasion) {m : Machine}
    (hids : ∀ o ∈ os, o.agrees r) (h : Progress r (m.journalOf r.id) m.trace) :
    Progress r ((m.occurAll os).journalOf r.id) (m.occurAll os).trace := by
  induction os generalizing m with
  | nil => exact h
  | cons o os ih =>
    exact ih (fun o' ho' => hids o' (by simp [ho'])) (progress_occur (hids o (by simp)) h)

/-- Safety of the release state machine: whatever is requested, wherever the processes
    stop and however often the host reboots, every mark of the trace is lawful. -/
theorem host_release_safety (r : Release) (m : Machine) (os : List Occasion)
    (hnew : m.journals r.id = none) (htrace : m.trace = []) (hids : ∀ o ∈ os, o.agrees r) :
    Guarded (MarkLawful r) (m.occurAll os).trace := by
  refine (progress_occurAll os hids ?_).lawful
  rw [htrace]
  exact progress_new (by simp [Machine.journalOf, hnew])

/-! A release from its snapshot to `closed`. -/

def sampleRelease : Release :=
  ⟨"r1", "docker.io/nousresearch/hermes-agent@sha256:1", "model", digest "before", digest "after",
    "uki", "[Container]\nImage=docker.io/nousresearch/hermes-agent@sha256:1\n", "runtime", "label",
    "materialize", "service"⟩

/-- A LUKS header with one token that `preflight` accepts. -/
def sampleLuks : Json :=
  .obj [("tokens", .obj [("0", .obj [("type", .str "systemd-tpm2"), ("tpm2-pcrs", .arr [.int 7]),
    ("tpm2_pubkey_pcrs", .arr [.int 11]), ("tpm2-pcr-bank", .str "sha256"),
    ("tpm2_pubkey", .str "key")])])]

/-- Everything goes well. -/
def sampleMoment : Moment :=
  { platform := { luks := sampleLuks, freeEsp := 2 * 1024 * 1024 }
    inspection := { imageName := "docker.io/nousresearch/hermes-agent@sha256:1" }
    text := "after" }

def goodScript (n : Nat) : List Moment := List.replicate n sampleMoment

/-- A host with an account and a `config.yaml`, and nothing installed. -/
def sampleMachine : Machine where
  bootId := "boot-1"
  account := some ⟨1000, "/home/hermes"⟩
  containerUid := 110000
  dataDir := true
  userManager := true
  files := fun p => if p = .config then some (.file (.text "config") (.container 110000)) else none
  active := false
  otherUnit := false
  inventory := "before"
  bootDefault := none
  journals := fun _ => none
  snapshots := fun _ => none
  previous := fun _ => none
  replays := fun _ _ => none
  systemUpdate := .absent
  otherUpdate := false
  wantLink := .absent
  trace := []

def sampleKey : Key := ⟨"hermes-0123456789abcdef0123456789abcdef", "sk-1"⟩

/-- The requests and reboots of one release up to `closed`. -/
def toClosed (r : Release) (key : Key) : List Occasion :=
  [.request r .snapshot (goodScript 40),
   .request r (.backupVerified ⟨"abcdef01", digest "after"⟩) (goodScript 2),
   .request r (.credential (some key)) (goodScript 5),
   .request r .deploy (goodScript 60),
   .reboot "boot-2" true false,
   .execute (packagesDirectory r.id) r.baseline (goodScript 30),
   .reboot "boot-3" true false,
   .request r .deploy (goodScript 120),
   .reboot "boot-4" true true,
   .request r .deploy (goodScript 60)]

set_option maxRecDepth 4000 in
theorem host_release_safety_closed :
    ((sampleMachine.occurAll (toClosed sampleRelease sampleKey)).journalOf "r1").phase = .closed ∧
      Guarded (MarkLawful sampleRelease)
        (sampleMachine.occurAll (toClosed sampleRelease sampleKey)).trace :=
  ⟨by decide +kernel, host_release_safety sampleRelease sampleMachine
    (toClosed sampleRelease sampleKey) rfl rfl (by decide)⟩

end Hermes

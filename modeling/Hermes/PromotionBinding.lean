import Hermes.Promotion

/- Promotion bindings over whole histories of runs. A run of the gate may be cut
   off between any two of the eight files it writes, and so may `adopt-host` and
   the reset after a purge. Beside the state directory the history keeps what was
   bound first: the record, the host and the time.

   `Resumable` says which cuts the gate takes up again. Where every cut was of
   that kind, no run passes on another host than the bound one, nor on an expired
   record that was not bound while it was valid. -/
namespace Hermes.Promotion

/-- The gate lets the run go on. -/
def Gate.Passes : Gate → Prop
  | .binding _ => True
  | .resumed => True
  | .skipped => False
  | .refused _ => False

/-- The record was made for what is deployed now. -/
structure Matches (vars : Vars) (o : Selection) (fingerprint : String) : Prop where
  provider : vars.get .provider = o.provider
  model : vars.get .model = o.model
  image : vars.get .hermesImage = expectedImage
  fingerprint : vars.get .artifactFingerprint = fingerprint

/-- `issued_at <= now <= expires_at` -/
def Unexpired (vars : Vars) (now : Int) : Prop :=
  compares (· ≤ ·) (arith (vars.get .issuedAt)) (some now) = true ∧
    compares (· ≤ ·) (some now) (arith (vars.get .expiresAt)) = true

/-! ## The validation -/

section
variable {o : Selection} {x : Findings} {fingerprint : String} {host : HostIdentity} {d : StateDir}

/-- The status of the validation. -/
abbrev status (o : Selection) (x : Findings) (fingerprint : String) : Nat :=
  (promotionRecordValidate x.file o.provider o.model expectedImage fingerprint x.now).1

/-- The variables that the record leaves. -/
abbrev Findings.vars (x : Findings) : Vars := (promotionRecordLoad x.file).2

theorem validate_vars (record : RecordFile) (provider model image fingerprint : String) (now : Int) :
    (promotionRecordValidate record provider model image fingerprint now).2 =
      (promotionRecordLoad record).2 := by
  simp only [promotionRecordValidate]
  repeat' split
  all_goals rfl

/-- A status other than 1: the record is well formed and matches. -/
theorem validate_matches (h : status o x fingerprint = 0 ∨ status o x fingerprint = 2) :
    (promotionRecordLoad x.file).1 = true ∧ Matches x.vars o fingerprint := by
  simp only [status, promotionRecordValidate] at h
  by_cases h₁ : (promotionRecordLoad x.file).1 = true
  · refine ⟨h₁, ?_⟩
    simp only [h₁, Bool.not_true, Bool.false_eq_true, if_false] at h
    by_cases h₂ : x.vars.get .provider ≠ o.provider ∨ x.vars.get .model ≠ o.model
    · rw [if_pos h₂] at h
      simp at h
    rw [if_neg h₂] at h
    by_cases h₃ : x.vars.get .hermesImage ≠ expectedImage
    · rw [if_pos h₃] at h
      simp at h
    rw [if_neg h₃] at h
    by_cases h₄ : x.vars.get .artifactFingerprint ≠ fingerprint
    · rw [if_pos h₄] at h
      simp at h
    rw [not_or, Classical.not_not, Classical.not_not] at h₂
    exact ⟨h₂.1, h₂.2, Classical.not_not.mp h₃, Classical.not_not.mp h₄⟩
  · simp [h₁] at h

theorem validate_unexpired (h : status o x fingerprint = 0) : Unexpired x.vars x.now := by
  simp only [status, promotionRecordValidate] at h
  repeat' split at h
  all_goals simp_all [Unexpired]

theorem loaded_some (h : (promotionRecordLoad x.file).1 = true) (k : Key) :
    x.vars k = some (x.vars.get k) := by
  have hk : (x.vars k).isSome = true := by
    unfold Findings.vars
    unfold promotionRecordLoad at h ⊢
    split at h
    · rename_i hfile
      rw [if_pos hfile]
      split at h
      · exact absurd h (by simp)
      · exact List.all_eq_true.mp (Bool.and_eq_true_iff.mp h).1 k k.mem_all
    · exact absurd h (by decide)
  obtain ⟨v, hv⟩ := Option.isSome_iff_exists.mp hk
  simp [Vars.get, hv]

/-- A promotion id is never empty. -/
theorem loaded_id (h : (promotionRecordLoad x.file).1 = true) : x.vars.get .promotionId ≠ "" := by
  have hc : checkVars x.vars = true := by
    unfold Findings.vars
    unfold promotionRecordLoad at h ⊢
    split at h
    · rename_i hfile
      rw [if_pos hfile]
      split at h
      · exact absurd h (by simp)
      · exact (Bool.and_eq_true_iff.mp h).2
    · exact absurd h (by decide)
  intro he
  simp only [checkVars, Bool.and_eq_true, isId, isAll, he] at hc
  exact absurd hc.1.1.1.1.1.1.1.1.1.1.1.1.1.1.1.1.1.2.1 (by decide)

/-! ## The decision -/

/-- The recorded provider and model are the selected ones. -/
def SameSelection (o : Selection) (d : StateDir) : Prop :=
  d.read .promotionProvider = o.provider ∧ d.read .promotionModel = o.model

/-- What the gate asks of a directory that names a promotion. -/
structure Bound (o : Selection) (vars : Vars) (host : HostIdentity) (rc : Nat) (d : StateDir) :
    Prop where
  machine : d.read .hostMachineIdSha256 = host.machineIdSha256
  ssh : d.read .hostSshFingerprint = host.sshFingerprint
  again : SameSelection o d → vars .promotionId = some (d.read .promotionId) ∧
    vars .artifactFingerprint = some (d.read .promotionArtifactFingerprint) ∧ (rc = 0 ∨ rc = 2)
  changed : ¬SameSelection o d → rc = 0

theorem gateResume_passes {rc : Nat} {ws : List (StateFile × String)} :
    (gateResume rc ws).Passes ↔ rc = 0 ∨ rc = 2 := by
  unfold gateResume
  by_cases h₀ : rc = 0
  · simp [h₀, Gate.Passes]
  · by_cases h₂ : rc = 2
    · simp [h₂, Gate.Passes]
    · simp [h₀, h₂, Gate.Passes]

theorem gateAgain_passes {rc : Nat} {vars : Vars} {ws : List (StateFile × String)} :
    (gateAgain rc vars ws d).Passes ↔ vars .promotionId = some (d.read .promotionId) ∧
      vars .artifactFingerprint = some (d.read .promotionArtifactFingerprint) ∧
      (rc = 0 ∨ rc = 2) := by
  unfold gateAgain
  cases vars .promotionId with
  | none => simp [Gate.Passes]
  | some id =>
    by_cases hid : id = d.read .promotionId
    · simp only [hid, ne_eq, not_true_eq_false, if_false, true_and]
      cases vars .artifactFingerprint with
      | none => simp [Gate.Passes]
      | some fp =>
        by_cases hfp : fp = d.read .promotionArtifactFingerprint
        · simp only [hfp, not_true_eq_false, if_false, true_and]
          exact gateResume_passes
        · simp [hfp, Gate.Passes]
    · simp [hid, Gate.Passes]

theorem gateBound_passes {rc : Nat} {vars : Vars} {ws : List (StateFile × String)} :
    (gateBound o rc vars host ws d).Passes ↔ Bound o vars host rc d := by
  unfold gateBound
  by_cases hh : d.read .hostMachineIdSha256 ≠ host.machineIdSha256 ∨
      d.read .hostSshFingerprint ≠ host.sshFingerprint
  · rw [if_pos hh]
    refine ⟨fun h => h.elim, fun h => ?_⟩
    cases hh with
    | inl hm => exact absurd h.machine hm
    | inr hs => exact absurd h.ssh hs
  · rw [if_neg hh]
    rw [not_or, Classical.not_not, Classical.not_not] at hh
    by_cases hs : d.read .promotionProvider = o.provider ∧ d.read .promotionModel = o.model
    · rw [if_pos hs, gateAgain_passes]
      exact ⟨fun h => ⟨hh.1, hh.2, fun _ => h, fun hn => absurd hs hn⟩, fun h => h.again hs⟩
    · rw [if_neg hs]
      by_cases h₀ : rc = 0
      · rw [if_pos h₀]
        exact ⟨fun _ => ⟨hh.1, hh.2, fun h => absurd h hs, fun _ => h₀⟩, fun _ => trivial⟩
      · rw [if_neg h₀]
        exact ⟨fun h => h.elim, fun h => absurd (h.changed hs) h₀⟩

/-- The gate passes without a binding on a valid record, with one as `Bound` says. -/
theorem gateDecide_passes : (gateDecide o x fingerprint host d).Passes ↔
    (d.read .promotionId = "" → status o x fingerprint = 0) ∧
      (d.read .promotionId ≠ "" → Bound o x.vars host (status o x fingerprint) d) := by
  unfold gateDecide
  simp only [validate_vars]
  by_cases hid : d.read .promotionId = ""
  · simp only [hid, ne_eq, not_true_eq_false, if_false, forall_const, false_implies, and_true]
    unfold gateFirst
    by_cases h₀ : status o x fingerprint = 0
    · simp [h₀, Gate.Passes]
    · by_cases h₂ : status o x fingerprint = 2
      · simp [h₂, Gate.Passes]
      · simp [h₀, h₂, Gate.Passes]
  · simp only [hid, ne_eq, not_false_eq_true, if_true, false_implies, forall_const, true_and]
    exact gateBound_passes

/-- A promotion bound to another machine is refused. -/
theorem gateDecide_other_host (hid : d.read .promotionId ≠ "")
    (hm : d.read .hostMachineIdSha256 ≠ host.machineIdSha256) :
    gateDecide o x fingerprint host d = .refused 78 := by
  unfold gateDecide gateBound
  rw [if_pos hid, if_pos (Or.inl hm)]

/-- What a passing gate comes to: a binding with a valid record, a resumption with an
    expired one. -/
theorem gateDecide_eq (h : (gateDecide o x fingerprint host d).Passes) :
    (status o x fingerprint = 0 ∧ gateDecide o x fingerprint host d =
      .binding (bindingWrites o.promotionRecord x.vars host x.boundAt)) ∨
    (status o x fingerprint = 2 ∧ d.read .promotionId ≠ "" ∧ SameSelection o d ∧
      gateDecide o x fingerprint host d = .resumed) := by
  have hp := gateDecide_passes.mp h
  unfold gateDecide at h ⊢
  simp only [validate_vars] at h ⊢
  by_cases hid : d.read .promotionId = ""
  · have h₀ := hp.1 hid
    apply Or.inl
    simp only [hid, ne_eq, not_true_eq_false, if_false, gateFirst]
    exact ⟨h₀, if_pos h₀⟩
  · have hb := hp.2 hid
    simp only [hid, ne_eq, not_false_eq_true, if_true, gateBound]
    rw [if_neg (by rw [not_or, Classical.not_not, Classical.not_not]; exact ⟨hb.machine, hb.ssh⟩)]
    by_cases hs : d.read .promotionProvider = o.provider ∧ d.read .promotionModel = o.model
    · obtain ⟨h₁, h₂, h₃⟩ := hb.again hs
      rw [if_pos hs]
      simp only [gateAgain, h₁, h₂, ne_eq, not_true_eq_false, if_false, gateResume]
      cases h₃ with
      | inl h₀ => exact Or.inl ⟨h₀, if_pos h₀⟩
      | inr h₂ =>
        have h₀ : status o x fingerprint ≠ 0 := by rw [h₂]; decide
        exact Or.inr ⟨h₂, trivial, hs, by rw [if_neg h₀, if_pos h₂]⟩
    · rw [if_neg hs]
      exact Or.inl ⟨hb.changed hs, if_pos (hb.changed hs)⟩

/-- After one run that passed, every run of the same selection takes the decision. -/
theorem runPromotionGate_eq (hp : (runPromotionGate o x d).Passes) {y : Findings}
    (hf : y.fingerprint = some fingerprint) (hh : readHostIdentity y.identity = some host)
    (d' : StateDir) : runPromotionGate o y d' = gateDecide o y fingerprint host d' := by
  unfold runPromotionGate at hp ⊢
  by_cases h₁ : o.certification = true
  · rw [if_pos h₁] at hp; exact hp.elim
  by_cases h₂ : o.promotionRecord = ""
  · rw [if_neg h₁, if_pos h₂] at hp; exact hp.elim
  by_cases h₃ : (!startsWith o.promotionRecord "/") = true
  · rw [if_neg h₁, if_neg h₂, if_pos h₃] at hp; exact hp.elim
  rw [if_neg h₁, if_neg h₂, if_neg h₃, hf, hh]

end

/-! ## Cut off between two writes -/

section
variable {o : Selection} {x : Findings} {fingerprint : String} {host : HostIdentity} {d : StateDir}

/-- The directory after the first `k` writes of a binding. -/
def torn (o : Selection) (x : Findings) (host : HostIdentity) (d : StateDir) (k : Nat) : StateDir :=
  d.writes ((bindingWrites o.promotionRecord x.vars host x.boundAt).take k)

theorem bindingWrites_nodup (record : String) (vars : Vars) (host : HostIdentity) (boundAt : String) :
    ((bindingWrites record vars host boundAt).map Prod.fst).Nodup := by
  simp [bindingWrites]

theorem torn_id (k : Nat) : (torn o x host d k).read .promotionId =
    if 1 < k then x.vars.get .promotionId else d.read .promotionId :=
  StateDir.read_writes_take (bindingWrites_nodup ..) rfl

theorem torn_provider (k : Nat) : (torn o x host d k).read .promotionProvider =
    if 2 < k then x.vars.get .provider else d.read .promotionProvider :=
  StateDir.read_writes_take (bindingWrites_nodup ..) rfl

theorem torn_model (k : Nat) : (torn o x host d k).read .promotionModel =
    if 3 < k then x.vars.get .model else d.read .promotionModel :=
  StateDir.read_writes_take (bindingWrites_nodup ..) rfl

theorem torn_fingerprint (k : Nat) : (torn o x host d k).read .promotionArtifactFingerprint =
    if 4 < k then x.vars.get .artifactFingerprint else d.read .promotionArtifactFingerprint :=
  StateDir.read_writes_take (bindingWrites_nodup ..) rfl

theorem torn_machine (k : Nat) : (torn o x host d k).read .hostMachineIdSha256 =
    if 5 < k then host.machineIdSha256 else d.read .hostMachineIdSha256 :=
  StateDir.read_writes_take (bindingWrites_nodup ..) rfl

theorem torn_ssh (k : Nat) : (torn o x host d k).read .hostSshFingerprint =
    if 6 < k then host.sshFingerprint else d.read .hostSshFingerprint :=
  StateDir.read_writes_take (bindingWrites_nodup ..) rfl

/-- Nothing but the path of the record was written; or the host was already recorded
    as this one, or is by now, and so was the fingerprint, unless the recorded
    provider or model still differs. -/
def Resumable (o : Selection) (x : Findings) (host : HostIdentity) (d : StateDir) (k : Nat) : Prop :=
  k < 2 ∨
    ((5 < k ∨ d.read .hostMachineIdSha256 = host.machineIdSha256) ∧
      (6 < k ∨ d.read .hostSshFingerprint = host.sshFingerprint) ∧
      (4 < k ∨ d.read .promotionArtifactFingerprint = x.vars.get .artifactFingerprint ∨
        (k = 2 ∧ d.read .promotionProvider ≠ o.provider) ∨
        (k < 4 ∧ d.read .promotionModel ≠ o.model)))

/-- The recorded selection after the first `k` writes, the id being among them. -/
theorem torn_selection (host : HostIdentity) (d : StateDir) (hm : Matches x.vars o fingerprint)
    {k : Nat} (hk : 2 ≤ k) :
    ¬SameSelection o (torn o x host d k) ↔ (k = 2 ∧ d.read .promotionProvider ≠ o.provider) ∨
      (k < 4 ∧ d.read .promotionModel ≠ o.model) := by
  unfold SameSelection
  rw [torn_provider, torn_model, hm.provider, hm.model]
  by_cases h₃ : 3 < k
  · rw [if_pos (by omega), if_pos h₃]
    simp only [and_self, not_true_eq_false, false_iff, not_or, not_and]
    exact ⟨fun h => absurd h (by omega), fun h => absurd h (by omega)⟩
  · rw [if_neg h₃]
    by_cases h₂ : 2 < k
    · rw [if_pos h₂]
      have hk₂ : k ≠ 2 := by omega
      have hk₄ : k < 4 := by omega
      simp [hk₂, hk₄]
    · rw [if_neg h₂]
      have hk₂ : k = 2 := by omega
      have hk₄ : k < 4 := by omega
      rw [Decidable.not_and_iff_not_or_not]
      simp [hk₂]

/-- A gate that passed on a valid record, cut off after `k` writes and run again with
    the record still valid, passes exactly if the cut is resumable. -/
theorem torn_passes (x' : Findings) (hx : x'.vars = x.vars)
    (h : (gateDecide o x fingerprint host d).Passes) (h₀ : status o x fingerprint = 0)
    (h₀' : status o x' fingerprint = 0) (k : Nat) :
    (gateDecide o x' fingerprint host (torn o x host d k)).Passes ↔ Resumable o x host d k := by
  obtain ⟨hl, hm⟩ := validate_matches (Or.inl h₀)
  rw [gateDecide_passes, h₀', hx]
  have hp := gateDecide_passes.mp h
  by_cases hk : k < 2
  · have hb : d.read .promotionId ≠ "" → Bound o x.vars host 0 (torn o x host d k) := by
      intro hid
      have hb := hp.2 hid
      rw [h₀] at hb
      refine ⟨?_, ?_, ?_, fun _ => rfl⟩
      · rw [torn_machine, if_neg (by omega)]; exact hb.machine
      · rw [torn_ssh, if_neg (by omega)]; exact hb.ssh
      · unfold SameSelection
        rw [torn_provider, torn_model, torn_id, torn_fingerprint, if_neg (by omega),
          if_neg (by omega), if_neg (by omega), if_neg (by omega)]
        exact hb.again
    refine ⟨fun _ => Or.inl hk, fun _ => ⟨fun _ => rfl, ?_⟩⟩
    intro hid
    rw [torn_id, if_neg (by omega)] at hid
    exact hb hid
  · have hid : (torn o x host d k).read .promotionId = x.vars.get .promotionId := by
      rw [torn_id, if_pos (by omega)]
    have hne := loaded_id hl
    rw [← hid] at hne
    have hsel := torn_selection host d hm (k := k) (by omega)
    have hfp : (torn o x host d k).read .promotionArtifactFingerprint =
        x.vars.get .artifactFingerprint ↔
        4 < k ∨ d.read .promotionArtifactFingerprint = x.vars.get .artifactFingerprint := by
      rw [torn_fingerprint]
      by_cases h₄ : 4 < k
      · simp [h₄]
      · simp [h₄]
    have hma : (torn o x host d k).read .hostMachineIdSha256 = host.machineIdSha256 ↔
        5 < k ∨ d.read .hostMachineIdSha256 = host.machineIdSha256 := by
      rw [torn_machine]
      by_cases h₅ : 5 < k
      · simp [h₅]
      · simp [h₅]
    have hss : (torn o x host d k).read .hostSshFingerprint = host.sshFingerprint ↔
        6 < k ∨ d.read .hostSshFingerprint = host.sshFingerprint := by
      rw [torn_ssh]
      by_cases h₆ : 6 < k
      · simp [h₆]
      · simp [h₆]
    constructor
    · intro hpass
      have hb := hpass.2 hne
      refine Or.inr ⟨hma.mp hb.machine, hss.mp hb.ssh, ?_⟩
      by_cases hs : SameSelection o (torn o x host d k)
      · have hv := (hb.again hs).2.1
        rw [loaded_some hl] at hv
        exact (hfp.mp (Option.some.inj hv).symm).imp id Or.inl
      · exact Or.inr (Or.inr (hsel.mp hs))
    · intro hres
      obtain ⟨hr₁, hr₂, hr₃⟩ := hres.resolve_left hk
      refine ⟨fun he => absurd he hne, fun _ => ⟨hma.mpr hr₁, hss.mpr hr₂, ?_, fun _ => rfl⟩⟩
      intro hs
      have hv : (torn o x host d k).read .promotionArtifactFingerprint =
          x.vars.get .artifactFingerprint := by
        apply hfp.mpr
        obtain h₄ | hold | hsel' := hr₃
        · exact Or.inl h₄
        · exact Or.inr hold
        · exact absurd hs (hsel.mpr hsel')
      rw [hid, hv]
      exact ⟨loaded_some hl _, loaded_some hl _, Or.inl rfl⟩

end

/-! ## Histories -/

/-- What was bound first under a promotion id. -/
structure Binding where
  record : Vars
  host : HostIdentity
  now : Int

def Binding.id (b : Binding) : String := b.record.get .promotionId

/-- The state directory, and the binding in force. -/
structure Desk where
  dir : StateDir
  binding : Option Binding

def Desk.start : Desk := ⟨StateDir.empty, none⟩

/-- The binding in force after the first `k` writes: the id is the second file. A
    record that is bound again keeps its first binding. -/
def Desk.bind (s : Desk) (new : Binding) (k : Nat) : Option Binding :=
  if k < 2 then s.binding
  else
    match s.binding with
    | none => some new
    | some b => if b.id = new.id then some b else some new

/-- The files the gate decides from. -/
def bindingFiles : List StateFile :=
  [.promotionId, .promotionProvider, .promotionModel, .promotionArtifactFingerprint,
    .hostMachineIdSha256, .hostSshFingerprint]

/-- The desks that runs lead to, where every gate that was cut off is resumable: runs
    of the gate, `adopt-host` and purges, each of them cut off anywhere, and writes
    of other files. -/
inductive Reaches : Desk → Prop
  | start : Reaches Desk.start
  | gate {s : Desk} {o : Selection} {x : Findings} {fingerprint : String} {host : HostIdentity}
      {ws : List (StateFile × String)} (h : Reaches s) (hf : x.fingerprint = some fingerprint)
      (hh : readHostIdentity x.identity = some host)
      (hg : runPromotionGate o x s.dir = .binding ws) (k : Nat)
      (hk : Resumable o x host s.dir k) :
      Reaches ⟨s.dir.writes (ws.take k), s.bind ⟨x.vars, host, x.now⟩ k⟩
  | adopt {s : Desk} {host : HostIdentity} {target cidr interface time : String}
      {ws : List (StateFile × String)} (h : Reaches s)
      (ha : adoptHost s.dir host target cidr interface time = some ws) (k : Nat) :
      Reaches ⟨s.dir.writes (ws.take k), s.binding⟩
  | purge {s : Desk} (h : Reaches s) (k : Nat) :
      Reaches ⟨s.dir.removes (staleState.take k),
        if .promotionId ∈ staleState.take k then none else s.binding⟩
  | other {s : Desk} {f : StateFile} (h : Reaches s) (hf : f ∉ bindingFiles) (value : String) :
      Reaches ⟨s.dir.write f value, s.binding⟩

/-- The directory names the promotion that is bound, and its host. -/
structure Coherent (s : Desk) : Prop where
  unbound : s.binding = none → s.dir.read .promotionId = ""
  id : ∀ b, s.binding = some b → s.dir.read .promotionId = b.id ∧ b.id ≠ ""
  host : ∀ b, s.binding = some b → s.dir.read .hostMachineIdSha256 = b.host.machineIdSha256 ∧
    s.dir.read .hostSshFingerprint = b.host.sshFingerprint
  valid : ∀ b, s.binding = some b → Unexpired b.record b.now

/-- Runs that leave the id and the host alone leave the binding coherent. -/
theorem Coherent.congr {s : Desk} {d : StateDir} (h : Coherent s)
    (hi : d.read .promotionId = s.dir.read .promotionId)
    (hm : d.read .hostMachineIdSha256 = s.dir.read .hostMachineIdSha256)
    (hs : d.read .hostSshFingerprint = s.dir.read .hostSshFingerprint) :
    Coherent ⟨d, s.binding⟩ := by
  refine ⟨?_, ?_, ?_, h.valid⟩
  · rw [hi]; exact h.unbound
  · rw [hi]; exact h.id
  · rw [hm, hs]; exact h.host

theorem coherent_start : Coherent Desk.start :=
  ⟨fun _ => rfl, fun _ h => (nomatch h), fun _ h => (nomatch h), fun _ h => (nomatch h)⟩

/-- Within a bound directory the gate passes on the bound host only. -/
theorem Coherent.same_host {s : Desk} {o : Selection} {x : Findings} {fingerprint : String}
    {host : HostIdentity} (h : Coherent s) (hp : (gateDecide o x fingerprint host s.dir).Passes)
    {b : Binding} (hb : s.binding = some b) : b.host = host := by
  have hid := h.id b hb
  have hne : s.dir.read .promotionId ≠ "" := by rw [hid.1]; exact hid.2
  have hbound := (gateDecide_passes.mp hp).2 hne
  have hhost := h.host b hb
  have hm := hhost.1.symm.trans hbound.machine
  have hs := hhost.2.symm.trans hbound.ssh
  revert hm hs
  rcases b.host with ⟨m, f⟩
  rcases host with ⟨m', f'⟩
  intro hm hs
  simp only at hm hs
  rw [hm, hs]

/-- The step of the gate: a resumable cut keeps the binding coherent. -/
theorem coherent_gate {s : Desk} {o : Selection} {x : Findings} {fingerprint : String}
    {host : HostIdentity} {k : Nat} (h : Coherent s)
    (hp : (gateDecide o x fingerprint host s.dir).Passes) (h₀ : status o x fingerprint = 0)
    (hk : Resumable o x host s.dir k) :
    Coherent ⟨torn o x host s.dir k, s.bind ⟨x.vars, host, x.now⟩ k⟩ := by
  obtain ⟨hl, hm⟩ := validate_matches (Or.inl h₀)
  by_cases h₂ : k < 2
  · have hbind : s.bind ⟨x.vars, host, x.now⟩ k = s.binding := if_pos h₂
    rw [hbind]
    apply h.congr
    · rw [torn_id, if_neg (by omega)]
    · rw [torn_machine, if_neg (by omega)]
    · rw [torn_ssh, if_neg (by omega)]
  · obtain ⟨hr₁, hr₂, _⟩ := hk.resolve_left h₂
    have hid : (torn o x host s.dir k).read .promotionId = x.vars.get .promotionId := by
      rw [torn_id, if_pos (by omega)]
    have hma : (torn o x host s.dir k).read .hostMachineIdSha256 = host.machineIdSha256 := by
      rw [torn_machine]
      by_cases h₅ : 5 < k
      · rw [if_pos h₅]
      · rw [if_neg h₅]; exact hr₁.resolve_left h₅
    have hss : (torn o x host s.dir k).read .hostSshFingerprint = host.sshFingerprint := by
      rw [torn_ssh]
      by_cases h₆ : 6 < k
      · rw [if_pos h₆]
      · rw [if_neg h₆]; exact hr₂.resolve_left h₆
    -- the binding in force is new, or the first one of the same record on the same host
    have hbind : ∃ b, s.bind ⟨x.vars, host, x.now⟩ k = some b ∧ b.id = x.vars.get .promotionId ∧
        b.host = host ∧ Unexpired b.record b.now := by
      unfold Desk.bind
      rw [if_neg h₂]
      cases hb : s.binding with
      | none => exact ⟨_, rfl, rfl, rfl, validate_unexpired h₀⟩
      | some b =>
        by_cases he : b.id = x.vars.get .promotionId
        · exact ⟨b, if_pos he, he, h.same_host hp hb, h.valid b hb⟩
        · exact ⟨_, if_neg he, rfl, rfl, validate_unexpired h₀⟩
    obtain ⟨b, hb, hbid, hbhost, hbval⟩ := hbind
    rw [hb]
    have hsome : ∀ c, some b = some c → b = c := fun c hc => Option.some.inj hc
    refine ⟨fun hn => (nomatch hn), ?_, ?_, ?_⟩
    · intro c hc
      rw [← hsome c hc, hbid]
      exact ⟨hid, loaded_id hl⟩
    · intro c hc
      rw [← hsome c hc, hbhost]
      exact ⟨hma, hss⟩
    · intro c hc
      rw [← hsome c hc]
      exact hbval

/-- The step of `adopt-host`: a directory that is there belongs to this host already. -/
theorem coherent_adopt {s : Desk} {host : HostIdentity} {target cidr interface time : String}
    {ws : List (StateFile × String)} {k : Nat} (h : Coherent s)
    (ha : adoptHost s.dir host target cidr interface time = some ws) :
    Coherent ⟨s.dir.writes (ws.take k), s.binding⟩ := by
  unfold adoptHost at ha
  split at ha
  · exact absurd ha (by simp)
  rename_i hc
  have hws := (Option.some.inj ha).symm
  have hid : (s.dir.writes (ws.take k)).read .promotionId = s.dir.read .promotionId := by
    apply StateDir.read_writes_of_notMem
    intro w hw
    have hw := List.mem_of_mem_take hw
    rw [hws] at hw
    simp only [initState, List.cons_append, List.nil_append, List.mem_cons, List.not_mem_nil,
      or_false] at hw
    obtain rfl | rfl | rfl | rfl | rfl | rfl | rfl := hw <;> simp
  cases hpr : s.dir.present with
  | false =>
    have hnone : s.binding = none := by
      cases hb : s.binding with
      | none => rfl
      | some b =>
        obtain ⟨h₁, h₂⟩ := h.id b hb
        exact absurd (h₁.symm.trans (StateDir.read_absent hpr _)) h₂
    rw [hnone]
    refine ⟨fun _ => ?_, fun _ hb => (nomatch hb), fun _ hb => (nomatch hb), fun _ hb => (nomatch hb)⟩
    rw [hid]
    exact h.unbound hnone
  | true =>
    rw [hpr] at hc
    simp only [Bool.true_and, Bool.not_eq_true, Bool.not_eq_false', Bool.and_eq_true, beq_iff_eq] at hc
    have hsame : ∀ f value, (f = .hostMachineIdSha256 ∧ value = host.machineIdSha256) ∨
        (f = .hostSshFingerprint ∧ value = host.sshFingerprint) →
        (s.dir.writes (ws.take k)).read f = s.dir.read f := by
      intro f value hf
      apply StateDir.read_writes_same
      intro w hw he
      have hw := List.mem_of_mem_take hw
      rw [hws] at hw
      simp only [initState, List.cons_append, List.nil_append, List.mem_cons, List.not_mem_nil,
        or_false] at hw
      obtain ⟨rfl, rfl⟩ | ⟨rfl, rfl⟩ := hf
      · obtain rfl | rfl | rfl | rfl | rfl | rfl | rfl := hw <;> simp_all
      · obtain rfl | rfl | rfl | rfl | rfl | rfl | rfl := hw <;> simp_all
    exact h.congr hid (hsame _ _ (Or.inl ⟨rfl, rfl⟩)) (hsame _ _ (Or.inr ⟨rfl, rfl⟩))

/-- The reset removes the promotion id before the host. -/
theorem stale_order {f : StateFile} (hf : f = .hostMachineIdSha256 ∨ f = .hostSshFingerprint)
    {k : Nat} (h : .promotionId ∉ staleState.take k) : f ∉ staleState.take k := by
  by_cases hk : k < 27
  · have hlt : ∀ j, j < 27 → .hostMachineIdSha256 ∉ staleState.take j ∧
        .hostSshFingerprint ∉ staleState.take j := by decide
    cases hf with
    | inl hf => rw [hf]; exact (hlt k hk).1
    | inr hf => rw [hf]; exact (hlt k hk).2
  · have hmem : StateFile.promotionId ∈ staleState.take 27 := by decide
    have hle : staleState.take 27 <+: staleState.take k := by
      rw [show staleState.take 27 = (staleState.take k).take 27 by
        rw [List.take_take, Nat.min_eq_left (by omega)]]
      exact List.take_prefix _ _
    exact absurd (hle.subset hmem) h

/-- The step of a purge: the binding ends when its id is removed. -/
theorem coherent_purge {s : Desk} {k : Nat} (h : Coherent s) :
    Coherent ⟨s.dir.removes (staleState.take k),
      if .promotionId ∈ staleState.take k then none else s.binding⟩ := by
  by_cases hid : StateFile.promotionId ∈ staleState.take k
  · rw [if_pos hid]
    refine ⟨fun _ => ?_, fun _ hb => (nomatch hb), fun _ hb => (nomatch hb), fun _ hb => (nomatch hb)⟩
    exact StateDir.read_removes_of_mem hid
  · rw [if_neg hid]
    apply h.congr
    · exact StateDir.read_removes_of_notMem hid
    · exact StateDir.read_removes_of_notMem (stale_order (Or.inl rfl) hid)
    · exact StateDir.read_removes_of_notMem (stale_order (Or.inr rfl) hid)

/-- What the gate is told to write is the binding of its findings. -/
theorem binding_inv {s : Desk} {o : Selection} {x : Findings} {fingerprint : String}
    {host : HostIdentity} {ws : List (StateFile × String)} (hf : x.fingerprint = some fingerprint)
    (hh : readHostIdentity x.identity = some host)
    (hg : runPromotionGate o x s.dir = .binding ws) :
    (gateDecide o x fingerprint host s.dir).Passes ∧ status o x fingerprint = 0 ∧
      ws = bindingWrites o.promotionRecord x.vars host x.boundAt := by
  have hp : (runPromotionGate o x s.dir).Passes := by rw [hg]; trivial
  have he := runPromotionGate_eq hp hf hh s.dir
  have hpass : (gateDecide o x fingerprint host s.dir).Passes := by rw [← he]; exact hp
  refine ⟨hpass, ?_⟩
  cases gateDecide_eq hpass with
  | inl hx =>
    rw [← he, hg] at hx
    exact ⟨hx.1, Gate.binding.inj hx.2⟩
  | inr hx =>
    rw [← he, hg] at hx
    exact nomatch hx.2.2.2

/-- Every run keeps the binding coherent. -/
theorem Reaches.coherent {s : Desk} (h : Reaches s) : Coherent s := by
  induction h with
  | start => exact coherent_start
  | gate _ hf hh hg k hk ih =>
    obtain ⟨hp, h₀, hws⟩ := binding_inv hf hh hg
    rw [hws]
    exact coherent_gate ih hp h₀ hk
  | adopt _ ha k ih => exact coherent_adopt ih ha
  | purge _ k ih => exact coherent_purge ih
  | other _ hf value ih =>
    apply ih.congr
    · exact StateDir.read_write_other _ value (fun he => hf (he ▸ by decide))
    · exact StateDir.read_write_other _ value (fun he => hf (he ▸ by decide))
    · exact StateDir.read_write_other _ value (fun he => hf (he ▸ by decide))

/-- What is known of a run that passed: its record matches what is deployed and is
    valid now, or it goes on with the bound record, which was valid when it was
    bound; and if anything is bound, then to this host. -/
structure Admitted (o : Selection) (x : Findings) (fingerprint : String) (host : HostIdentity)
    (s : Desk) : Prop where
  wellFormed : (promotionRecordLoad x.file).1 = true
  record : Matches x.vars o fingerprint
  host : ∀ b, s.binding = some b → b.host = host
  same : ∀ b, s.binding = some b → SameSelection o s.dir → b.id = x.vars.get .promotionId
  valid : Unexpired x.vars x.now ∨ ∃ b, s.binding = some b ∧ SameSelection o s.dir ∧
    b.id = x.vars.get .promotionId ∧ Unexpired b.record b.now

theorem Coherent.admitted {s : Desk} {o : Selection} {x : Findings} {fingerprint : String}
    {host : HostIdentity} (h : Coherent s) (hp : (gateDecide o x fingerprint host s.dir).Passes) :
    Admitted o x fingerprint host s := by
  have hrc : status o x fingerprint = 0 ∨ status o x fingerprint = 2 :=
    (gateDecide_eq hp).imp And.left And.left
  obtain ⟨hl, hm⟩ := validate_matches hrc
  have hsame : ∀ b, s.binding = some b → SameSelection o s.dir → b.id = x.vars.get .promotionId := by
    intro b hb hs
    obtain ⟨hid, hne⟩ := h.id b hb
    have hv := (((gateDecide_passes.mp hp).2 (by rw [hid]; exact hne)).again hs).1
    rw [loaded_some hl, hid] at hv
    exact (Option.some.inj hv).symm
  refine ⟨hl, hm, fun b hb => h.same_host hp hb, hsame, ?_⟩
  cases gateDecide_eq hp with
  | inl hx => exact Or.inl (validate_unexpired hx.1)
  | inr hx =>
    obtain ⟨_, hne, hs, _⟩ := hx
    cases hb : s.binding with
    | none => exact absurd (h.unbound hb) hne
    | some b => exact Or.inr ⟨b, rfl, hs, hsame b hb hs, h.valid b hb⟩

/-- The same findings at another time. -/
def Findings.later (x : Findings) (now : Int) (boundAt : String) : Findings :=
  { x with now := now, boundAt := boundAt }

def sampleFingerprint : String := "0123456789abcdef0123456789abcdef0123456789abcdef0123456789abcdef"

def sampleRecord : RecordFile where
  lines :=
    ["schema=hermes-promotion-v1", "certification_id=certification-1", "promotion_id=promotion-1",
      "issued_at=1000", "expires_at=87400",
      "artifact_fingerprint=0123456789abcdef0123456789abcdef0123456789abcdef0123456789abcdef",
      "iso_sha256=0123456789abcdef0123456789abcdef0123456789abcdef0123456789abcdef",
      "iso_signature=verified", "fedora_version=44", "kernel=7.0.1", "podman=5.4.2",
      "hermes_image=docker.io/nousresearch/hermes-agent@sha256:e0df6adebddf29b91112aefc999d4aaf6846c9eb544faca5672a16a13590ff79",
      "provider=openai-codex", "model=gpt-5.6-luna", "inference_result=HERMES_OK",
      "credentials_revoked=true", "data_purged=true", "vm_destroyed=true"]

@[irreducible] def sampleSelection : Selection where
  promotionRecord := "/records/promotion-1.record"
  provider := "openai-codex"
  model := "gpt-5.6-luna"

@[irreducible] def sampleFindings : Findings where
  fingerprint := some sampleFingerprint
  file := sampleRecord
  identity :=
    ["machine_id_sha256=0123456789abcdef0123456789abcdef0123456789abcdef0123456789abcdef",
      "ssh_host_ed25519_fingerprint=SHA256:abcd"]
  now := 2000
  boundAt := "2000"

def sampleHost : HostIdentity := ⟨sampleFingerprint, "SHA256:abcd"⟩

/-- The writes of the first binding. -/
def sampleWrites : List (StateFile × String) :=
  [(.promotionRecord, "/records/promotion-1.record"), (.promotionId, "promotion-1"),
    (.promotionProvider, "openai-codex"), (.promotionModel, "gpt-5.6-luna"),
    (.promotionArtifactFingerprint, sampleFingerprint), (.hostMachineIdSha256, sampleFingerprint),
    (.hostSshFingerprint, "SHA256:abcd"), (.promotionBoundAt, "2000")]

theorem sample_binds :
    runPromotionGate sampleSelection sampleFindings Desk.start.dir = .binding sampleWrites := by
  decide +kernel

theorem sample_host : readHostIdentity sampleFindings.identity = some sampleHost := by
  decide +kernel

theorem sample_fingerprint : sampleFindings.fingerprint = some sampleFingerprint := by
  unfold sampleFindings
  rfl

theorem sample_passes : (runPromotionGate sampleSelection sampleFindings Desk.start.dir).Passes := by
  rw [sample_binds]
  trivial

end Hermes.Promotion

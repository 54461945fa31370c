import Hermes.HostRecovery

/- What a rollback undoes of the runtime installation.

   `install_runtime` tracks a path before its first write to it, so that after
   any number of attempts, wherever they stopped, every changed path has a record
   with its content from before the first (`Covered`). The scripts it runs in the
   container are the exception: `harden-config.py` rewrites `.env` and leaves
   copies next to `config.yaml` and `.env`, which no record covers. -/
namespace Hermes
open Process

variable {α : Type}

/-- The two parts of `install_runtime`: up to the first healthy start of the container. -/
def startCandidate (r : Release) : Task Machine Nat := do
  let account ← identity
  require ((splitlines r.unit).contains ("Image=" ++ r.image)) "quadlet-image-mismatch"
  asHermes (fun _ => true) (fun _ s => s) (fun _ _ => ())
  installUnit r account.uid
  reloadService
  restartService
  waitHealth r.image
  pure account.uid

/-- And from the scripts that run in it on. -/
def finishCandidate (r : Release) (uid : Nat) : Task Machine Unit := do
  hardenConfig
  setModel
  installCredentials r uid
  command (fun _ => true) (fun _ s => s)
  restartCredentials
  startManager
  writeDropin r.id (.containerDropin uid)
    "[Container]\nVolume=/run/hermes-secrets/provider.env:/opt/data/.env:ro,z\n"
  reloadService
  restartService
  waitHealth r.image

theorem installRuntime_eq (r : Release) :
    installRuntime r = startCandidate r >>= finishCandidate r := by
  simp only [startCandidate, Proc.bind_assoc', Proc.pure_bind']
  rfl

/-! Backups. -/

/-- `q'` keeps every record and every copy of `q`. -/
def Previous.extendedBy (q q' : Previous) : Prop :=
  q'.complete = q.complete ∧ ∀ records, q.records = some records →
    (∃ new, q'.records = some (records ++ new)) ∧
      ∀ i, i < records.length → q'.copies i = q.copies i

/-- The paths that `harden-config.py` writes and nothing tracks. -/
def Place.untracked : Place → Bool
  | .env | .envCopy _ | .configCopy _ => true
  | _ => false

/-- The same bytes, or both absent. -/
def SameContent (a b : Option Node) : Prop :=
  Node.bytes? a = Node.bytes? b ∧ a.isNone = b.isNone

/-- `m`, reached from `s₀`, has the backup `q`: the records `base` from before, and `new`
    ones that hold the files of `s₀`. What was changed since has a record, and so do the
    paths `tracked`. -/
structure Covers (r : Release) (s₀ : Machine) (q₀ : Previous) (base : List FileRecord)
    (tracked : List Place) (m : Machine) (q : Previous) (new : List FileRecord) : Prop where
  previous : m.previous r.id = some q
  complete : q.complete = q₀.complete
  records : q.records = some (base ++ new)
  copies : ∀ i, i < base.length → q.copies i = q₀.copies i
  nodup : ((base ++ new).map (·.place)).Nodup
  index : ∀ record ∈ base ++ new, record.index < (base ++ new).length
  kept : ∀ record ∈ new, Kept s₀ q record
  tracked : ∀ p ∈ tracked, p ∈ (base ++ new).map (·.place)
  untracked : ∀ record ∈ base ++ new, record.place.untracked = false
  files : ∀ p, p ∉ (base ++ new).map (·.place) → p.untracked = false → m.files p = s₀.files p

def Covered (r : Release) (s₀ : Machine) (q₀ : Previous) (base : List FileRecord)
    (tracked : List Place) (m : Machine) : Prop :=
  ∃ q new, Covers r s₀ q₀ base tracked m q new

section Covered

variable {r : Release} {s₀ m m' : Machine} {q₀ : Previous} {base : List FileRecord}
  {tracked tracked' : List Place} {place : Place}

theorem Covered.mono (h : Covered r s₀ q₀ base tracked m) (hsub : tracked' ⊆ tracked) :
    Covered r s₀ q₀ base tracked' m := by
  obtain ⟨q, new, h⟩ := h
  exact ⟨q, new, { h with tracked := fun p hp => h.tracked p (hsub hp) }⟩

/-- Only files and backups matter. -/
theorem Covered.other (h : Covered r s₀ q₀ base tracked m) (hf : m'.files = m.files)
    (hp : m'.previous = m.previous) : Covered r s₀ q₀ base tracked m' := by
  obtain ⟨q, new, h⟩ := h
  exact ⟨q, new, { h with
    previous := by rw [hp]; exact h.previous
    files := by rw [hf]; exact h.files }⟩

theorem Covered.set (h : Covered r s₀ q₀ base tracked m) (node : Option Node)
    (hp : place ∈ tracked ∨ place.untracked = true) :
    Covered r s₀ q₀ base tracked (m.setNode place node) := by
  obtain ⟨q, new, h⟩ := h
  refine ⟨q, new, { h with files := fun p hout hun => ?_ }⟩
  have hne : p ≠ place := by
    intro heq
    rcases hp with hp | hp
    · exact hout (heq ▸ h.tracked place hp)
    · rw [heq, hp] at hun
      cases hun
  rw [Machine.setNode_other _ _ _ _ hne]
  exact h.files p hout hun

theorem Covered.setMeta (h : Covered r s₀ q₀ base tracked m) (f : Meta → Meta)
    (hp : place ∈ tracked) : Covered r s₀ q₀ base tracked (m.setMeta place f) := by
  unfold Machine.setMeta
  split
  · exact h.set _ (.inl hp)
  · exact h

theorem Covered.noted (h : Covered r s₀ q₀ base tracked m) (node : Option Node)
    (hp : place ∈ tracked) :
    Covered r s₀ q₀ base tracked ((m.setNode place node).noted (some r.id) place) :=
  (h.set node (.inl hp)).other rfl rfl

theorem Covered.copyNode (h : Covered r s₀ q₀ base tracked m) {source : Place}
    (hp : place.untracked = true) : Covered r s₀ q₀ base tracked (m.copyNode source place) := by
  unfold Machine.copyNode
  split
  · exact h.set _ (.inr hp)
  · exact h

/-- A tracking call, wherever it stops, adds a record of the path or leaves the records. -/
theorem Covers.track {q : Previous} {new : List FileRecord} (h : Covers r s₀ q₀ base tracked m q new)
    (hp : place.untracked = false) (ht : Tracked m r.id place q (base ++ new) m') :
    ∃ q' new', Covers r s₀ q₀ base tracked m' q' new' ∧ (new' = new ∨ ∃ record,
      new' = new ++ [record] ∧ record.place = place) := by
  obtain ⟨q', hm', hc, hcopies, hrecords⟩ := ht
  subst hm'
  have hbase : ∀ i, i < base.length → q'.copies i = q₀.copies i := by
    intro i hi
    rw [hcopies i (by rw [List.length_append]; omega)]
    exact h.copies i hi
  have hkept : ∀ x ∈ new, Kept s₀ q' x := by
    intro x hx
    have hk := h.kept x hx
    unfold Kept at hk ⊢
    rw [hcopies x.index (h.index x (by simp [hx]))]
    exact hk
  rcases hrecords with hr | ⟨record, hr, hplace, hfresh, hindex, hrecord⟩
  · exact ⟨q', new, ⟨by simp, hc.trans h.complete, hr, hbase, h.nodup, h.index, hkept, h.tracked,
      h.untracked, h.files⟩, .inl rfl⟩
  · have hout : place ∉ (base ++ new).map (·.place) := by
      intro hin
      obtain ⟨x, hx, hxp⟩ := List.mem_map.mp hin
      exact hfresh x hx hxp
    have hlength : (base ++ (new ++ [record])).length = (base ++ new).length + 1 := by
      simp only [List.length_append, List.length_singleton]
      omega
    refine ⟨q', new ++ [record], ⟨by simp, hc.trans h.complete, ?_, hbase, ?_, ?_, ?_, ?_, ?_, ?_⟩,
      .inr ⟨record, rfl, hplace⟩⟩
    · rw [hr, List.append_assoc]
    · rw [← List.append_assoc, List.map_append, List.nodup_append]
      refine ⟨h.nodup, by simp, ?_⟩
      intro a ha b hb hab
      simp only [List.map_cons, List.map_nil, List.mem_singleton] at hb
      rw [hab, hb, hplace] at ha
      exact hout ha
    · intro x hx
      rw [← List.append_assoc] at hx
      rw [hlength]
      rcases List.mem_append.mp hx with hx | hx
      · have := h.index x hx
        omega
      · rw [List.mem_singleton.mp hx, hindex]
        omega
    · intro x hx
      rcases List.mem_append.mp hx with hx | hx
      · exact hkept x hx
      · rw [List.mem_singleton.mp hx]
        unfold Kept at hrecord ⊢
        rw [hplace] at hrecord ⊢
        rw [← h.files place hout hp]
        exact hrecord
    · intro p hin
      rw [← List.append_assoc, List.map_append]
      exact List.mem_append_left _ (h.tracked p hin)
    · intro x hx
      rw [← List.append_assoc] at hx
      rcases List.mem_append.mp hx with hx | hx
      · exact h.untracked x hx
      · rw [List.mem_singleton.mp hx, hplace]
        exact hp
    · intro p hpout hun
      rw [← List.append_assoc, List.map_append] at hpout
      exact h.files p (fun hin => hpout (List.mem_append_left _ hin)) hun

/-- Tracking a path covers it, unless it stops. -/
theorem track_covered (hp : place.untracked = false) :
    Triple (Covered r s₀ q₀ base tracked) (track r.id place)
      (fun _ => Covered r s₀ q₀ base (place :: tracked))
      (fun _ => Covered r s₀ q₀ base tracked) := by
  refine Triple.start (fun m ⟨q, new, h⟩ => ?_)
  refine (track_triple h.previous h.records).mono (fun _ hm => hm) ?_ ?_
  · intro _ m' ⟨ht, hdone⟩
    obtain ⟨q', new', hcovers, hnew⟩ := h.track hp ht
    have hin : place ∈ (base ++ new').map (·.place) := by
      rcases hnew with rfl | ⟨record, rfl, hplace⟩
      · rcases hdone with ⟨x, hx, hxp⟩ | ⟨q'', record, hm', hr, hplace⟩
        · exact List.mem_map.mpr ⟨x, hx, hxp⟩
        · have hprev := hcovers.previous
          rw [hm', Machine.setPrevious_same] at hprev
          cases hprev
          have hlength := congrArg (Option.map List.length) (hr.symm.trans hcovers.records)
          simp at hlength
      · exact List.mem_map.mpr ⟨record, by simp, hplace⟩
    refine ⟨q', new', { hcovers with tracked := fun p hpin => ?_ }⟩
    rcases List.mem_cons.mp hpin with rfl | hpin
    · exact hin
    · exact hcovers.tracked p hpin
  · intro _ m' ht
    obtain ⟨q', new', hcovers, _⟩ := h.track hp ht
    exact ⟨q', new', hcovers⟩

theorem Services.covered {x : Task Machine α} (hx : Services x) :
    Keeps (Covered r s₀ q₀ base tracked) x :=
  hx.keeps (fun _ _ _ h => h.other rfl rfl)

theorem chmod_covered {mode : Nat} (hp : place ∈ tracked) :
    Keeps (Covered r s₀ q₀ base tracked) (chmod place mode) :=
  atomic_keeps (fun _ _ h => h.setMeta _ hp)

theorem installFile_covered {content : String} {mode : Nat} (hp : place ∈ tracked) :
    Keeps (Covered r s₀ q₀ base tracked) (installFile (some r.id) content place mode) := by
  unfold installFile
  refine Triple.bind (Triple.read (Q := fun _ => Covered r s₀ q₀ base tracked) (fun _ h => h))
    (fun _ => Triple.bind require_keeps (fun _ => ?_))
  refine Triple.bind (atomic_keeps (fun _ _ h => h)) (fun _ => ?_)
  exact Triple.bind (atomic_keeps (fun _ _ h => h.noted _ hp)) (fun _ => chmod_covered hp)

theorem removeFile_covered (hp : place ∈ tracked) :
    Keeps (Covered r s₀ q₀ base tracked) (removeFile (some r.id) place) :=
  atomic_keeps (fun _ _ h => h.noted _ hp)

theorem writeDropin_covered {content : String} (hp : place ∈ tracked) :
    Keeps (Covered r s₀ q₀ base tracked) (writeDropin r.id place content) := by
  unfold writeDropin
  refine Triple.bind (atomic_keeps (fun _ _ h => h)) (fun _ => ?_)
  exact Triple.bind (atomic_keeps (fun _ _ h => h.noted _ hp)) (fun _ => chmod_covered hp)

/-- The pattern of the installation: a path is tracked, then written. -/
theorem track_then {x : Unit → Task Machine α} {Q : α → Machine → Prop}
    (hp : place.untracked = false)
    (hx : Triple (Covered r s₀ q₀ base (place :: tracked)) (x ()) Q
      (fun _ => Covered r s₀ q₀ base (place :: tracked))) :
    Triple (Covered r s₀ q₀ base tracked) (track r.id place >>= x) Q
      (fun _ => Covered r s₀ q₀ base tracked) :=
  Triple.bind (track_covered hp) (fun _ => hx.mono (fun _ h => h) (fun _ _ h => h)
    (fun _ _ h => h.mono (List.subset_cons_self _ _)))

theorem installUnit_covered {uid : Nat}
    (hp : .serviceDropin "80-hermes-credential.conf" ∈ tracked) :
    Triple (Covered r s₀ q₀ base tracked) (installUnit r uid)
      (fun _ => Covered r s₀ q₀ base (.containerDropin uid :: tracked))
      (fun _ => Covered r s₀ q₀ base tracked) := by
  unfold installUnit
  refine track_then rfl (Triple.bind (installFile_covered (by simp)) (fun _ => ?_))
  refine track_then rfl (Triple.bind (installFile_covered (by simp)) (fun _ => ?_))
  refine track_then rfl (Triple.bind (installFile_covered (by simp)) (fun _ => ?_))
  refine Triple.bind (removeFile_covered (by simp [hp])) (fun _ => ?_)
  refine track_then rfl ((removeFile_covered (by simp)).post (fun _ _ h => h.mono ?_))
  intro p hin
  rcases List.mem_cons.mp hin with rfl | hin
  · simp
  · simp [hin]

theorem installCredentials_covered {uid : Nat} :
    Keeps (Covered r s₀ q₀ base tracked) (installCredentials r uid) := by
  unfold installCredentials
  refine track_then rfl (track_then rfl (Triple.bind (installFile_covered (by simp)) (fun _ => ?_)))
  refine Triple.bind (installFile_covered (by simp)) (fun _ => ?_)
  refine track_then rfl (Triple.bind (writeDropin_covered (by simp)) (fun _ => ?_))
  refine track_then rfl ((writeDropin_covered (by simp)).post (fun _ _ h => h.mono ?_))
  exact fun p hin => by simp [hin]

theorem startCandidate_covered (hp : .serviceDropin "80-hermes-credential.conf" ∈ tracked) :
    Triple (Covered r s₀ q₀ base tracked) (startCandidate r)
      (fun uid => Covered r s₀ q₀ base (.containerDropin uid :: tracked))
      (fun _ => Covered r s₀ q₀ base tracked) := by
  unfold startCandidate
  refine Triple.bind (identity_keeps (fun _ _ _ _ _ h => h.other rfl rfl)) (fun account => ?_)
  refine Triple.bind require_keeps (fun _ => Triple.bind (asHermes_keeps (fun _ _ h _ => h)) (fun _ => ?_))
  refine Triple.bind (installUnit_covered hp) (fun _ => ?_)
  have hstart : Keeps (Covered r s₀ q₀ base (.containerDropin account.uid :: tracked)) (do
      reloadService
      restartService
      waitHealth r.image) :=
    Triple.bind services_reloadService.covered (fun _ =>
      Triple.bind services_restartService.covered (fun _ => (services_waitHealth _).covered))
  have hless := hstart.mono (fun _ h => h) (fun _ _ h => h)
    (fun _ m h => h.mono (List.subset_cons_self _ tracked))
  rw [← Proc.bind_assoc', ← Proc.bind_assoc', Proc.bind_assoc' reloadService]
  exact Triple.bind hless (fun _ => Triple.pure' (fun _ h => h))

theorem finishCandidate_covered {uid : Nat} (hp : .config ∈ tracked)
    (hdropin : .containerDropin uid ∈ tracked) :
    Keeps (Covered r s₀ q₀ base tracked) (finishCandidate r uid) := by
  have hharden : Keeps (Covered r s₀ q₀ base tracked) hardenConfig := by
    refine inContainer_keeps ?_
    intro f hf x m h
    simp only [hardenSteps, List.mem_cons, List.not_mem_nil, or_false] at hf
    rcases hf with rfl | rfl | rfl | rfl
    · exact h.copyNode rfl
    · exact h.set _ (.inl hp)
    · exact h.copyNode rfl
    · show Covered r s₀ q₀ base tracked m.hardenEnvFile
      unfold Machine.hardenEnvFile
      split
      · exact h.set _ (.inr rfl)
      · exact h
  have hmodel : Keeps (Covered r s₀ q₀ base tracked) setModel := by
    refine inContainer_keeps ?_
    intro f hf x m h
    rw [List.mem_singleton.mp hf]
    exact h.set _ (.inl hp)
  unfold finishCandidate
  refine Triple.bind hharden (fun _ => Triple.bind hmodel (fun _ => ?_))
  refine Triple.bind installCredentials_covered (fun _ => Triple.bind look_keeps (fun _ => ?_))
  refine Triple.bind services_restartCredentials.covered (fun _ => ?_)
  refine Triple.bind services_startManager.covered (fun _ => ?_)
  refine Triple.bind (writeDropin_covered hdropin) (fun _ => ?_)
  refine Triple.bind services_reloadService.covered (fun _ => ?_)
  exact Triple.bind services_restartService.covered (fun _ => (services_waitHealth _).covered)

/-- An attempt at the installation, wherever it stops, changes no path that it does not
    cover, `.env` and the copies of `harden-config.py` apart. -/
theorem installRuntime_covered (hc : .config ∈ tracked)
    (hd : .serviceDropin "80-hermes-credential.conf" ∈ tracked) :
    Keeps (Covered r s₀ q₀ base tracked) (installRuntime r) := by
  rw [installRuntime_eq]
  refine Triple.bind (startCandidate_covered hd) (fun uid => ?_)
  have hless : ∀ m, Covered r s₀ q₀ base (.containerDropin uid :: tracked) m →
      Covered r s₀ q₀ base tracked m := fun m h => h.mono (List.subset_cons_self _ _)
  exact (finishCandidate_covered (by simp [hc]) (by simp)).mono (fun _ h => h)
    (fun _ m h => hless m h) (fun _ m h => hless m h)

end Covered

/-! Attempts, then a rollback. -/

/-- Attempts at the installation, each with its script. -/
def Machine.attempted (r : Release) (s : Machine) (attempts : List (List Moment)) : Machine :=
  attempts.foldl (fun s t => (installRuntime r).after t s) s

/-- `harden-config.py` gets to its first write. -/
def Hardens (r : Release) (s : Machine) (t : List Moment) : Prop :=
  ∃ uid x rest s', startCandidate r t s = (.ok uid, x :: rest, s') ∧
    (x.verdict = .done ∨ 0 < x.progress)

/-- No attempt gets that far. -/
def NoneHardens (r : Release) : Machine → List (List Moment) → Prop
  | _, [] => True
  | s, t :: ts => ¬Hardens r s t ∧ NoneHardens r ((installRuntime r).after t s) ts

/-- What no record covers is as in `s`. -/
def Spares (s m : Machine) : Prop := ∀ p, p.untracked = true → m.files p = s.files p

section Spares

variable {r : Release} {s m m' : Machine} {place : Place}

theorem Spares.set (h : Spares s m) (node : Option Node) (hp : place.untracked = false) :
    Spares s (m.setNode place node) := by
  intro p hun
  have hne : p ≠ place := by
    intro heq
    rw [heq, hp] at hun
    cases hun
  rw [Machine.setNode_other _ _ _ _ hne]
  exact h p hun

theorem Spares.other (h : Spares s m) (hf : m'.files = m.files) : Spares s m' := by
  intro p hun
  rw [hf]
  exact h p hun

theorem chmod_spares {mode : Nat} (hp : place.untracked = false) :
    Keeps (Spares s) (chmod place mode) := by
  refine atomic_keeps (fun _ m h => ?_)
  unfold Machine.setMeta
  split
  · exact h.set _ hp
  · exact h

theorem track_spares {id : ReleaseId} : Keeps (Spares s) (track id place) := by
  refine Triple.start (fun m hm => ?_)
  cases hp : (m.previous id).bind (·.records) with
  | none =>
    exact (track_none hp).mono (fun _ h => h) (fun _ _ h => h.elim) (fun _ _ h => h ▸ hm)
  | some records =>
    obtain ⟨q, hprev, hrec⟩ := Option.bind_eq_some_iff.mp hp
    have hstep : ∀ m', Tracked m id place q records m' → Spares s m' := by
      intro m' ⟨q', hm', _⟩
      exact hm.other (by rw [hm']; rfl)
    exact (track_triple hprev hrec).mono (fun _ h => h) (fun _ _ h => hstep _ h.1)
      (fun _ _ h => hstep _ h)

theorem installFile_spares {owner : Option ReleaseId} {content : String} {mode : Nat}
    (hp : place.untracked = false) : Keeps (Spares s) (installFile owner content place mode) := by
  unfold installFile
  refine Triple.bind (Triple.read (Q := fun _ => Spares s) (fun _ h => h))
    (fun _ => Triple.bind require_keeps (fun _ => ?_))
  refine Triple.bind (atomic_keeps (fun _ _ h => h)) (fun _ => ?_)
  refine Triple.bind (atomic_keeps (fun _ m h => ?_)) (fun _ => chmod_spares hp)
  cases owner with
  | none => exact h.set _ hp
  | some id => exact (h.set _ hp).other rfl

theorem removeFile_spares {id : ReleaseId} (hp : place.untracked = false) :
    Keeps (Spares s) (removeFile (some id) place) :=
  atomic_keeps (fun _ _ h => (h.set _ hp).other rfl)

theorem startCandidate_spares : Keeps (Spares s) (startCandidate r) := by
  have hservices : ∀ {β : Type} {x : Task Machine β}, Services x → Keeps (Spares s) x :=
    fun hx => hx.keeps (fun _ _ _ h => h.other rfl)
  have hunit : ∀ uid, Keeps (Spares s) (installUnit r uid) := by
    intro uid
    unfold installUnit
    refine Triple.bind track_spares (fun _ => Triple.bind (installFile_spares rfl) (fun _ => ?_))
    refine Triple.bind track_spares (fun _ => Triple.bind (installFile_spares rfl) (fun _ => ?_))
    refine Triple.bind track_spares (fun _ => Triple.bind (installFile_spares rfl) (fun _ => ?_))
    refine Triple.bind (removeFile_spares rfl) (fun _ => ?_)
    exact Triple.bind track_spares (fun _ => removeFile_spares rfl)
  unfold startCandidate
  refine Triple.bind (identity_keeps (fun _ _ _ _ _ h => h.other rfl)) (fun account => ?_)
  refine Triple.bind require_keeps (fun _ => Triple.bind (asHermes_keeps (fun _ _ h _ => h)) (fun _ => ?_))
  refine Triple.bind (hunit _) (fun _ => Triple.bind (hservices services_reloadService) (fun _ => ?_))
  refine Triple.bind (hservices services_restartService) (fun _ => ?_)
  exact Triple.bind (hservices (services_waitHealth _)) (fun _ => Triple.pure' (fun _ h => h))

/-- `harden-config.py` stopped before its first write leaves the machine as it is. -/
theorem hardenConfig_stopped (s : Machine) {t : List Moment}
    (h : ∀ x rest, t = x :: rest → x.verdict ≠ .done ∧ x.progress = 0) :
    ∃ e rest, hardenConfig t s = (.error e, rest, s) := by
  by_cases haccount : s.account.isNone = true
  · refine ⟨.keyError, t, ?_⟩
    show (if s.account.isNone = true then _ else _ : Task Machine Unit) t s = _
    rw [if_pos haccount]
    rfl
  · cases t with
    | nil =>
      refine ⟨.killed, [], ?_⟩
      show (if s.account.isNone = true then _ else _ : Task Machine Unit) [] s = _
      rw [if_neg haccount]
      rfl
    | cons x rest =>
      obtain ⟨hv, hp⟩ := h x rest rfl
      refine ⟨runFailure x.verdict, rest, ?_⟩
      show (if s.account.isNone = true then _ else _ : Task Machine Unit) (x :: rest) s = _
      rw [if_neg haccount]
      simp [script, Proc.perform, hv, hp]

/-- An attempt that does not get to the writes of `harden-config.py` spares them. -/
theorem attempt_spares {t : List Moment} (h : ¬Hardens r s t) :
    Spares s ((installRuntime r).after t s) := by
  have hstart := startCandidate_spares (r := r) (s := s) t s (fun _ _ => rfl)
  simp only [Proc.after]
  rw [installRuntime_eq]
  rcases hx : startCandidate r t s with ⟨res, t', s'⟩
  rw [hx] at hstart
  cases res with
  | error e =>
    rw [Proc.bind_error hx]
    exact hstart
  | ok uid =>
    obtain ⟨e, rest, hharden⟩ := hardenConfig_stopped s' (t := t') (by
      intro x rest heq
      subst heq
      refine ⟨fun hv => h ⟨uid, x, rest, s', hx, .inl hv⟩, ?_⟩
      exact Nat.eq_zero_of_not_pos (fun hp => h ⟨uid, x, rest, s', hx, .inr hp⟩))
    rw [Proc.bind_ok hx, finishCandidate, Proc.bind_error hharden]
    exact hstart

theorem attempts_spare (attempts : List (List Moment)) {s : Machine}
    (h : NoneHardens r s attempts) : Spares s (s.attempted r attempts) := by
  induction attempts generalizing s with
  | nil => exact fun _ _ => rfl
  | cons t attempts ih =>
    intro p hun
    have hrest := ih h.2 p hun
    have hfirst := attempt_spares h.1 p hun
    exact hrest.trans hfirst

end Spares

/-! What the rollback restores. -/

section Rollback

variable {r : Release} {m s₀ s : Machine} {q : Previous}

theorem SameContent.refl (a : Option Node) : SameContent a a := ⟨rfl, rfl⟩

theorem SameContent.symm {a b : Option Node} (h : SameContent a b) : SameContent b a :=
  ⟨h.1.symm, h.2.symm⟩

theorem SameContent.trans {a b c : Option Node} (h : SameContent a b) (h' : SameContent b c) :
    SameContent a c :=
  ⟨h.1.trans h'.1, h.2.trans h'.2⟩

/-- A record that holds a file of `s` restores its content. -/
theorem Kept.content {record : FileRecord} (h : Kept s q record) (uid : Nat) :
    SameContent (record.node q uid) (s.files record.place) := by
  unfold Kept at h
  split at h
  · next hf hs => rw [hf]; simp [FileRecord.node, hs, SameContent, Node.bytes?]
  · next hf hs => rw [hf]; simp [FileRecord.node, hs, h.2, SameContent, Node.bytes?]
  · exact h.elim

/-- A tracking call keeps the backup first captured for every path. -/
def BackupKept (r : Release) (s s' : Machine) : Prop :=
  ∀ q, s.previous r.id = some q → ∃ q', s'.previous r.id = some q' ∧ q.extendedBy q'

theorem track_keeps_backup (place : Place) (s : Machine) :
    Triple (fun m => m = s) (track r.id place) (fun _ => BackupKept r s)
      (fun _ => BackupKept r s) := by
  have hself : ∀ m, m = s → BackupKept r s m := by
    intro m hm q hq
    rw [hm]
    exact ⟨q, hq, rfl, fun records hr => ⟨⟨[], by rw [hr, List.append_nil]⟩, fun _ _ => rfl⟩⟩
  cases hp : (s.previous r.id).bind (·.records) with
  | none =>
    exact (track_none hp).mono (fun _ h => h) (fun _ _ h => h.elim) (fun _ m h => hself m h)
  | some records =>
    obtain ⟨p, hprev, hrec⟩ := Option.bind_eq_some_iff.mp hp
    have hstep : ∀ m', Tracked s r.id place p records m' → BackupKept r s m' := by
      intro m' ⟨q', hm', hc, hcopies, hrecords⟩ q hq
      rw [hprev] at hq
      cases hq
      refine ⟨q', by rw [hm']; simp, hc, fun rs hrs => ?_⟩
      rw [hrec] at hrs
      cases hrs
      refine ⟨?_, hcopies⟩
      rcases hrecords with hr | ⟨record, hr, _⟩
      · exact ⟨[], by rw [hr, List.append_nil]⟩
      · exact ⟨[record], hr⟩
    exact (track_triple hprev hrec).mono (fun _ h => h) (fun _ _ h => hstep _ h.1)
      (fun _ _ h => hstep _ h)

theorem capturedPlaces_tracked (account : Option Account) :
    ∀ p ∈ capturedPlaces account, p.untracked = false := by
  cases account <;> simp [capturedPlaces, Place.untracked]

/-- Before the first attempt the captured paths are covered. -/
theorem covered_start {records : List FileRecord} (hprev : s₀.previous r.id = some q)
    (hr : q.records = some records) (hplaces : records.map (·.place) = capturedPlaces m.account)
    (hkept : ∀ record ∈ records, record.index < records.length ∧ Kept m q record) :
    Covered r s₀ q records [.config, .serviceDropin "80-hermes-credential.conf"] s₀ := by
  refine ⟨q, [], hprev, rfl, by rw [hr, List.append_nil], fun _ _ => rfl, ?_, ?_, by simp, ?_, ?_,
    fun _ _ _ => rfl⟩
  · rw [List.append_nil, hplaces]
    exact capturedPlaces_nodup _
  · intro record hx
    rw [List.append_nil] at hx ⊢
    exact (hkept record hx).1
  · intro p hp
    rw [List.append_nil, hplaces]
    rcases List.mem_cons.mp hp with rfl | hp
    · simp [capturedPlaces]
    · rw [List.mem_singleton.mp hp]
      simp [capturedPlaces]
  · intro record hx
    rw [List.append_nil] at hx
    exact capturedPlaces_tracked m.account _ (hplaces ▸ List.mem_map_of_mem hx)

theorem attempts_covered {base : List FileRecord} (attempts : List (List Moment))
    (h : Covered r s₀ q base [.config, .serviceDropin "80-hermes-credential.conf"] s) :
    Covered r s₀ q base [.config, .serviceDropin "80-hermes-credential.conf"]
      (s.attempted r attempts) := by
  induction attempts generalizing s with
  | nil => exact h
  | cons t attempts ih => exact ih ((installRuntime_covered (by simp) (by simp)).after h)

/-- What a rollback that completes makes of each path but the credential. -/
theorem Covers.rolledBack {base new : List FileRecord} {tracked : List Place} {q' : Previous}
    {t : List Moment} {reply : HostReply} (h : Covers r s₀ q base tracked s q' new)
    (hbase : ∀ record ∈ base, record.index < base.length ∧ Kept m q record)
    (hdone : (invoke r .rollback).result t s = .ok reply) {p : Place} (hp : p ≠ .credential) :
    (p ∈ base.map (·.place) →
      SameContent (((invoke r .rollback).after t s).files p) (m.files p)) ∧
    (p ∉ base.map (·.place) → p.untracked = false →
      SameContent (((invoke r .rollback).after t s).files p) (s₀.files p)) ∧
    (p.untracked = true →
      SameContent (((invoke r .rollback).after t s).files p) (s.files p)) := by
  obtain ⟨⟨q'', records, m', hq'', _, hr, hm', hm⟩, _⟩ :=
    (rollback_triple r s).returned rfl hdone
  rw [h.previous] at hq''
  cases hq''
  rw [h.records] at hr
  cases hr
  rw [hm, hm'.files]
  have hsub : List.Sublist (restorable (s.journalOf r.id).phase (base ++ new)) (base ++ new) :=
    List.filter_sublist
  have hsame : ∀ record ∈ base ++ new, record.place = p →
      restored q' s.containerUid s.files (restorable (s.journalOf r.id).phase (base ++ new)) p =
        record.node q' s.containerUid := by
    intro record hx hxp
    have hin : record ∈ restorable (s.journalOf r.id).phase (base ++ new) := by
      refine List.mem_filter.mpr ⟨hx, ?_⟩
      simp [hxp, hp]
    rw [← hxp]
    exact restored_same q' s.containerUid (h.nodup.sublist (hsub.map _)) hin
  have hother : p ∉ (base ++ new).map (·.place) →
      restored q' s.containerUid s.files (restorable (s.journalOf r.id).phase (base ++ new)) p =
        s.files p := by
    intro hout
    exact restored_other q' s.containerUid
      (fun x hx hxp => hout (List.mem_map.mpr ⟨x, hsub.subset hx, hxp⟩))
  refine ⟨fun hin => ?_, fun hout hun => ?_, fun hun => ?_⟩
  · obtain ⟨record, hx, hxp⟩ := List.mem_map.mp hin
    rw [hsame record (by simp [hx]) hxp, ← hxp]
    obtain ⟨hindex, hk⟩ := hbase record hx
    have hk' : Kept m q' record := by
      unfold Kept at hk ⊢
      rw [h.copies record.index hindex]
      exact hk
    exact hk'.content s.containerUid
  · by_cases hnew : p ∈ new.map (·.place)
    · obtain ⟨record, hx, hxp⟩ := List.mem_map.mp hnew
      rw [hsame record (by simp [hx]) hxp, ← hxp]
      exact (h.kept record hx).content s.containerUid
    · have hnone : p ∉ (base ++ new).map (·.place) := by
        rw [List.map_append, List.mem_append]
        exact fun hin => hin.elim hout hnew
      rw [hother hnone, h.files p hnone hun]
      exact SameContent.refl _
  · have hnone : p ∉ (base ++ new).map (·.place) := by
      intro hin
      obtain ⟨x, hx, hxp⟩ := List.mem_map.mp hin
      have := h.untracked x hx
      rw [hxp, hun] at this
      cases this
    rw [hother hnone]
    exact SameContent.refl _

end Rollback

/-- The sample host with its snapshot taken. -/
def snapshotMachine : Machine :=
  sampleMachine.requested sampleRelease [(.snapshot, goodScript 40)]

/-- The host with an `.env` of its own, up to the boot in which its runtime is installed. -/
def envMachine : Machine :=
  (sampleMachine.setNode .env (some (.file (.text "API_SERVER_ENABLED=true\n")
    (.container 110000)))).occurAll ((toClosed sampleRelease sampleKey).take 7)

end Hermes

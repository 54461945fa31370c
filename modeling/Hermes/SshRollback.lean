import Hermes.SshSetup

/- A setup of key-only SSH that fails is rolled back (`rolled_back`): wherever
   `apply_config` stops, what it has recorded is enough for the rollback to bring back the
   files, the firewall's allowance and the two services. The three parts are kept apart:
   what a step does to the files, to the firewall and to the services is one lemma each. -/
namespace Hermes.SshSetup
open Process

/-! ## What is asked of the rollback -/

/-- The host is as it was, but for packages that were installed. An sshd that runs serves the
    original drop-in, or was not touched. -/
structure Restored (w : Host) (s : Setup) : Prop where
  dropin : s.dropin = w.dropin
  sshDir : s.sshDir = w.sshDir
  permanent : s.permanent = w.permanent
  /-- whether firewalld runs, and its runtime allowance -/
  runtime : running s.firewalld = running w.firewalld
  firewalldEnabled : isEnabled s.firewalld = isEnabled w.firewalld
  sshdEnabled : isEnabled s.sshd = isEnabled w.sshd
  sshdActive : (running s.sshd).isSome = (running w.sshd).isSome
  serves : ∀ c, running s.sshd = some c → c = w.dropin ∨ s.sshd = w.sshd

/-! ## What a failed run leaves -/

/-- What was recorded of the directory, and that it has not gone. -/
def DirKept (w : Host) (s : Setup) : Prop :=
  ∀ d, w.sshDir = some d → s.dirMode = d.mode ∧ s.dirOwner = d.owner ∧
    (s.dirContext = some d.context ∨ s.dirContext = none ∧ w.selinux = false)

/-- The copies are those of the files of the host. -/
def Backed (w : Host) (s : Setup) : Prop :=
  s.backupDropin = w.dropin ∧ s.backupAuthorized = w.sshDir.bind Dir.authorized ∧
    s.hadSshdir = w.sshDir.isSome ∧ DirKept w s

/-- A directory that was there is there; without SELinux its context is what it was. -/
def DirStays (w : Host) (s : Setup) : Prop :=
  ∀ d, w.sshDir = some d → ∃ d', s.sshDir = some d' ∧ (w.selinux = false → d'.context = d.context)

def FilesSafe (w : Host) (s : Setup) : Prop :=
  s.selinux = w.selinux ∧ (s.filesTouched = false ∧ s.dropin = w.dropin ∧ s.sshDir = w.sshDir ∨
    s.filesTouched = true ∧ Backed w s ∧ DirStays w s)

/-- The allowance that was recorded. -/
def Recorded (w : Host) (s : Setup) (runtime : Bool) : Prop :=
  s.oldPermanent = some w.permanent ∧ s.oldRuntime = some runtime ∧
    ∀ r, running w.firewalld = some r → runtime = r

/-- The firewall has not been touched, or SSH was only ever allowed. -/
def FirewallSafe (w : Host) (s : Setup) : Prop :=
  s.firewallTouched = false ∧ s.permanent = w.permanent ∧
      (∀ r, running w.firewalld = some r → running s.firewalld = some r) ∨
    s.firewallTouched = true ∧ (s.permanent = w.permanent ∨ s.permanent = true) ∧
      ∃ r, Recorded w s r ∧ (running s.firewalld = some r ∨ running s.firewalld = some true)

/-- No service was removed, and one that ran is running. -/
structure ServicesKept (w : Host) (s : Setup) : Prop where
  old : s.old = w.snapshot
  sshdThere : s.sshd = none → w.sshd = none
  sshdRuns : (running w.sshd).isSome = true → (running s.sshd).isSome = true
  firewalldThere : s.firewalld = none → w.firewalld = none

/-- The flag on the services is the first that is set. -/
def ServicesSafe (w : Host) (s : Setup) : Prop :=
  ServicesKept w s ∧ (s.servicesTouched = false → s.sshd = w.sshd ∧ s.firewalld = w.firewalld ∧
    s.filesTouched = false ∧ s.firewallTouched = false)

def Recoverable (w : Host) (s : Setup) : Prop := FilesSafe w s ∧ FirewallSafe w s ∧ ServicesSafe w s

/-! ## The rollback -/

/-- Every command that can succeed does. -/
def Good (m : Moment) : Prop := m.verdict = .done

section Attempts

variable {P : Setup → Prop} {Q : Unit → Setup → Prop} {E : Exc → Setup → Prop} {n : Nat}

theorem attempt_within {x : Task Setup Unit} {F : Exc → Setup → Prop} (hx : Within Good n P x Q F)
    (hk : ∀ s, ¬F .killed s) (hf : ∀ e s, F e s → Q () { s with failed := true }) :
    Within Good n P (attempt x) Q E := by
  refine (Within.handle (b := 0) hx (fun e => ?_)).budget (Nat.le_refl _)
  split
  · exact Within.given (φ := False) (fun s hs => hk s hs) False.elim
  · exact Within.update (fun s hs => hf _ s hs)

/-- A command that is attempted has its effect where it can. -/
theorem attempt_command {can : Setup → Bool} {effect : Moment → Setup → Setup}
    (hok : ∀ m s, P s → can s = true → Q () (effect m s))
    (hno : ∀ s, P s → can s = false → Q () { s with failed := true }) :
    Within Good 1 P (attempt (command can effect)) Q E :=
  attempt_within (F := fun e s => e ≠ .killed ∧ P s ∧ can s = false)
    (run_within (fun _ h => h) (fun m s _ => hok m s) (fun s hs hc => ⟨by simp, hs, hc⟩))
    (fun _ h => h.1 rfl) (fun _ s h => hno s h.2.1 h.2.2)

end Attempts

section Rollback

variable {w : Host} {s₀ : Setup}

/-- The service as it is restored. -/
def restoredSshd (w : Host) (s : Setup) : Option (Service (Option String)) :=
  s.sshd.map fun _ => ⟨isEnabled w.sshd, if (running w.sshd).isSome then some s.dropin else none⟩

def restoredFirewalld (w : Host) (s : Setup) : Option (Service Bool) :=
  s.firewalld.map fun v => ⟨isEnabled w.firewalld, if (running w.firewalld).isSome then v.running else none⟩

/-- A step of `restore_service`: a command on a service that is installed. -/
theorem command_done {P : Setup → Prop} {can : Setup → Bool} {effect : Moment → Setup → Setup}
    {E : Exc → Setup → Prop} {s₁ s₂ : Setup} (hp : ∀ s, P s → s = s₁) (hcan : can s₁ = true)
    (heffect : ∀ m, effect m s₁ = s₂) : Within Good 1 P (command can effect) (fun _ s => s = s₂) E :=
  run_within (fun _ h => h) (fun m s _ hs _ => by rw [hp s hs, heffect])
    (fun s hs hc => absurd ((congrArg can (hp s hs)).symm.trans hc) (by rw [hcan]; simp))

theorem restoreSshd (hs : ServicesKept w s₀) :
    Completes Good 3 (fun s => s = s₀) (attempt (restoreService .sshd))
      (fun _ s => s = { s₀ with sshd := restoredSshd w s₀, failed := s.failed }) := by
  have hold := hs.old
  refine attempt_within (F := fun e s => e ≠ .killed ∧ s = s₀ ∧ s₀.sshd = none) ?_ (fun _ h => h.1 rfl) ?_
  · refine Within.bind_sub (a := 0) (Q := fun s' s => s' = s₀ ∧ s = s₀) (Within.read (fun _ h => ⟨h, h⟩))
      (fun s' => Within.given (φ := s' = s₀) (fun _ h => h.1) (fun hs' => ?_)) (by omega)
    have hactive : (s'.old .sshd).active = (running w.sshd).isSome := by rw [hs', hold]; rfl
    have henabled : (s'.old .sshd).enabled = isEnabled w.sshd := by rw [hs', hold]; rfl
    refine Within.ite (fun ha => ?_) (fun ha => ?_)
    · -- it was active, so it still runs: started again it is the same, reloaded it has the drop-in
      have hyes : (running w.sshd).isSome = true := hactive ▸ ha
      have hr := hs.sshdRuns hyes
      obtain ⟨v, hv⟩ : ∃ v, s₀.sshd = some v := by
        cases h : s₀.sshd with
        | none => rw [h] at hr; cases hr
        | some v => exact ⟨v, rfl⟩
      refine Within.bind_sub (a := 1) (Q := fun _ s => s = { s₀ with sshd := some (v.start s₀.dropin) })
        (command_done (fun _ h => h.2) (by rw [Setup.installed, hv]; rfl) (fun _ => by rw [hv]; rfl))
        (fun _ => ?_) (by omega)
      refine Within.bind_sub (a := 1)
        (Q := fun _ s => s = { s₀ with sshd := some ((v.start s₀.dropin).reload s₀.dropin) })
        (command_done (fun _ h => h) rfl (fun _ => rfl)) (fun _ => ?_) (by omega)
      rw [henabled]
      refine ((@command_done _ _ _ _ _ { s₀ with sshd := restoredSshd w s₀ }) (fun _ h => h) rfl (fun _ => ?_)).post
        (fun _ s h => by rw [h])
      rw [restoredSshd, hv, hyes]
      rfl
    · have hno : (running w.sshd).isSome = false := Bool.eq_false_iff.mpr (hactive ▸ ha)
      cases hv : s₀.sshd with
      | none =>
        refine Within.bind_sub (a := 1) (Q := fun _ _ => False) (run_within (fun _ h => h) ?_ ?_)
          (fun _ => Within.given (φ := False) (fun _ h => h) False.elim) (by omega)
        · intro m s _ hs hc
          rw [hs.2, Setup.installed, hv] at hc
          cases hc
        · exact fun s hs _ => ⟨by simp, hs.2, rfl⟩
      | some v =>
        refine Within.bind_sub (a := 1) (Q := fun _ s => s = { s₀ with sshd := some v.stop })
          (command_done (fun _ h => h.2) (by rw [Setup.installed, hv]; rfl) (fun _ => by rw [hv]; rfl))
          (fun _ => ?_) (by omega)
        rw [henabled]
        refine (((@command_done _ _ _ _ _ { s₀ with sshd := restoredSshd w s₀ }) (fun _ h => h) rfl (fun _ => ?_)).post
          (fun _ s h => by rw [h])).budget (by omega)
        rw [restoredSshd, hv, hno]
        rfl
  · rintro e s ⟨-, hs, hnone⟩
    have hself : { s₀ with sshd := none } = s₀ := by rw [← hnone]
    rw [hs, restoredSshd, hnone, Option.map_none]
    exact congrArg (fun x : Setup => { x with failed := true }) hself.symm

theorem restoreFirewalld (hs : ServicesKept w s₀)
    (hrun : (running w.firewalld).isSome = true → (running s₀.firewalld).isSome = true) :
    Completes Good 2 (fun s => s = s₀) (attempt (restoreService .firewalld))
      (fun _ s => s = { s₀ with firewalld := restoredFirewalld w s₀, failed := s.failed }) := by
  have hold := hs.old
  refine attempt_within (F := fun e s => e ≠ .killed ∧ s = s₀ ∧ s₀.firewalld = none) ?_ (fun _ h => h.1 rfl) ?_
  · refine Within.bind_sub (a := 0) (Q := fun s' s => s' = s₀ ∧ s = s₀) (Within.read (fun _ h => ⟨h, h⟩))
      (fun s' => Within.given (φ := s' = s₀) (fun _ h => h.1) (fun hs' => ?_)) (by omega)
    have hactive : (s'.old .firewalld).active = (running w.firewalld).isSome := by rw [hs', hold]; rfl
    have henabled : (s'.old .firewalld).enabled = isEnabled w.firewalld := by rw [hs', hold]; rfl
    refine Within.ite (fun ha => ?_) (fun ha => ?_)
    · have hyes : (running w.firewalld).isSome = true := hactive ▸ ha
      obtain ⟨v, r, hv, hr⟩ : ∃ v r, s₀.firewalld = some v ∧ v.running = some r := by
        have hr := hrun hyes
        cases h : s₀.firewalld with
        | none => rw [h] at hr; cases hr
        | some v =>
          rw [h] at hr
          obtain ⟨r, hr⟩ := Option.isSome_iff_exists.mp hr
          exact ⟨v, r, rfl, hr⟩
      refine Within.bind_sub (a := 1) (Q := fun _ s => s = { s₀ with firewalld := some v })
        (command_done (fun _ h => h.2) (by rw [Setup.installed, hv]; rfl) (fun _ => ?_)) (fun _ => ?_) (by omega)
      · rw [hv, Option.map_some, Service.start, hr, Option.getD_some, ← hr]
      refine Within.bind_sub (a := 0) (Q := fun _ s => s = { s₀ with firewalld := some v })
        (Within.pure' (fun _ h => h)) (fun _ => ?_) (by omega)
      rw [henabled]
      refine ((@command_done _ _ _ _ _ { s₀ with firewalld := restoredFirewalld w s₀ }) (fun _ h => h) rfl
        (fun _ => ?_)).post (fun _ s h => by rw [h])
      rw [restoredFirewalld, hv, hyes]
      rfl
    · have hno : (running w.firewalld).isSome = false := Bool.eq_false_iff.mpr (hactive ▸ ha)
      cases hv : s₀.firewalld with
      | none =>
        refine Within.bind_sub (a := 1) (Q := fun _ _ => False) (run_within (fun _ h => h) ?_ ?_)
          (fun _ => Within.given (φ := False) (fun _ h => h) False.elim) (by omega)
        · intro m s _ hs hc
          rw [hs.2, Setup.installed, hv] at hc
          cases hc
        · exact fun s hs _ => ⟨by simp, hs.2, rfl⟩
      | some v =>
        refine Within.bind_sub (a := 1) (Q := fun _ s => s = { s₀ with firewalld := some v.stop })
          (command_done (fun _ h => h.2) (by rw [Setup.installed, hv]; rfl) (fun _ => by rw [hv]; rfl))
          (fun _ => ?_) (by omega)
        rw [henabled]
        refine ((@command_done _ _ _ _ _ { s₀ with firewalld := restoredFirewalld w s₀ }) (fun _ h => h) rfl
          (fun _ => ?_)).post (fun _ s h => by rw [h])
        rw [restoredFirewalld, hv, hno]
        rfl
  · rintro e s ⟨-, hs, hnone⟩
    have hself : { s₀ with firewalld := none } = s₀ := by rw [← hnone]
    rw [hs, restoredFirewalld, hnone, Option.map_none]
    exact congrArg (fun x : Setup => { x with failed := true }) hself.symm

/-- The files are those of the host. -/
def FilesDone (w : Host) (s : Setup) : Prop := s.dropin = w.dropin ∧ s.sshDir = w.sshDir

/-- The allowance is that of the host, as far as its firewalld runs. -/
def FirewallDone (w : Host) (s : Setup) : Prop :=
  s.permanent = w.permanent ∧ ∀ r, running w.firewalld = some r → running s.firewalld = some r

/-- What the rollback of the files starts from. -/
def Retrievable (w : Host) (s : Setup) : Prop := s.selinux = w.selinux ∧ Backed w s ∧ DirStays w s

theorem restoreDropin_within {R : Setup → Prop} (hR : ∀ s d f, R s → R { s with dropin := d, failed := f }) :
    Completes Good 1 (fun s => Retrievable w s ∧ R s) restoreDropin
      (fun _ s => Retrievable w s ∧ s.dropin = w.dropin ∧ R s) := by
  refine Within.bind_sub (a := 0) (Q := fun s' s => s'.backupDropin = w.dropin ∧ Retrievable w s ∧ R s)
    (Within.read (fun s hs => ⟨hs.1.2.1.1, hs⟩)) (fun s' => ?_) (by omega)
  refine Within.given (φ := s'.backupDropin = w.dropin) (fun _ h => h.1) (fun hdropin => ?_)
  refine Within.ite (fun hc => attempt_command ?_ ?_) (fun hc => attempt_command ?_ ?_)
  · rintro m s ⟨-, hs, hr⟩ -
    exact ⟨hs, hs.2.1.1, hR s _ _ hr⟩
  · rintro s ⟨-, hs, hr⟩ hno
    rw [hs.2.1.1, ← hdropin, hc] at hno
    cases hno
  · rintro m s ⟨-, hs, hr⟩ -
    rw [hdropin, Option.not_isSome_iff_eq_none] at hc
    exact ⟨hs, hc.symm, hR s _ _ hr⟩
  · rintro s - hno
    cases hno

theorem restoreAuthorized_within {R : Setup → Prop} (hR : ∀ s t f, R s → R { s with sshDir := t, failed := f }) :
    Completes Good 1 (fun s => Retrievable w s ∧ R s) restoreAuthorized
      (fun _ s => Retrievable w s ∧ s.sshDir.bind Dir.authorized = w.sshDir.bind Dir.authorized ∧ R s) := by
  refine Within.bind_sub (a := 0)
    (Q := fun s' s => s'.backupAuthorized = w.sshDir.bind Dir.authorized ∧ Retrievable w s ∧ R s)
    (Within.read (fun s hs => ⟨hs.1.2.1.2.1, hs⟩)) (fun s' => ?_) (by omega)
  refine Within.given (φ := s'.backupAuthorized = w.sshDir.bind Dir.authorized) (fun _ h => h.1)
    (fun hauthorized => ?_)
  refine Within.ite (fun hc => attempt_command ?_ ?_) (fun hc => attempt_command ?_ ?_)
  · rintro m s ⟨-, ⟨hsel, hb, hstays⟩, hr⟩ hcan
    obtain ⟨d, hd⟩ := Option.isSome_iff_exists.mp hcan
    refine ⟨⟨hsel, hb, fun d₀ h₀ => ?_⟩, ?_, hR s _ _ hr⟩
    · obtain ⟨d', h', hctx⟩ := hstays d₀ h₀
      exact ⟨{ d' with authorized := s.backupAuthorized }, by rw [h']; rfl, hctx⟩
    · rw [hd, ← hb.2.1]
      rfl
  · -- the directory that the copy goes to has not gone
    rintro s ⟨-, ⟨-, -, hstays⟩, -⟩ hno
    rw [hauthorized] at hc
    obtain ⟨d₀, h₀⟩ : ∃ d, w.sshDir = some d := by
      cases h : w.sshDir with
      | none => rw [h] at hc; cases hc
      | some d => exact ⟨d, rfl⟩
    obtain ⟨d', h', -⟩ := hstays d₀ h₀
    rw [h'] at hno
    cases hno
  · rintro m s ⟨-, ⟨hsel, hb, hstays⟩, hr⟩ -
    rw [hauthorized, Option.not_isSome_iff_eq_none] at hc
    refine ⟨⟨hsel, hb, fun d₀ h₀ => ?_⟩, ?_, hR s _ _ hr⟩
    · obtain ⟨d', h', hctx⟩ := hstays d₀ h₀
      exact ⟨{ d' with authorized := none }, by rw [h']; rfl, hctx⟩
    · rw [hc]
      cases s.sshDir <;> rfl
  · rintro s - hno
    cases hno

/-- A directory that was there, on its way back to what it was. -/
structure DirBack (w : Host) (d₀ : Dir) (s : Setup) (d : Dir) : Prop where
  there : s.sshDir = some d
  authorized : d.authorized = d₀.authorized
  context : w.selinux = false → d.context = d₀.context
  dirMode : s.dirMode = d₀.mode
  dirOwner : s.dirOwner = d₀.owner
  dirContext : s.dirContext = some d₀.context ∨ s.dirContext = none ∧ w.selinux = false

theorem onDir_attempt {d₀ : Dir} {R : Setup → Prop} {f : Moment → Setup → Dir → Dir} {C C' : Dir → Prop}
    (hR : ∀ s t f, R s → R { s with sshDir := t, failed := f })
    (hf : ∀ m s d, DirBack w d₀ s d → C d →
      DirBack w d₀ { s with sshDir := some (f m s d) } (f m s d) ∧ C' (f m s d)) :
    Completes Good 1 (fun s => (∃ d, DirBack w d₀ s d ∧ C d) ∧ R s) (attempt (onDir f))
      (fun _ s => (∃ d, DirBack w d₀ s d ∧ C' d) ∧ R s) := by
  refine attempt_command ?_ ?_
  · rintro m s ⟨⟨d, hd, hc⟩, hr⟩ -
    obtain ⟨hd', hc'⟩ := hf m s d hd hc
    refine ⟨⟨f m s d, ?_, hc'⟩, hR s _ _ hr⟩
    rw [hd.there]
    exact hd'
  · rintro s ⟨⟨d, hd, -⟩, -⟩ hno
    rw [hd.there] at hno
    cases hno

theorem restoreDir_there {R : Setup → Prop} (hR : ∀ s t f, R s → R { s with sshDir := t, failed := f }) {d₀ : Dir}
    (hw : w.sshDir = some d₀) :
    Completes Good 3 (fun s => Retrievable w s ∧ s.sshDir.bind Dir.authorized = w.sshDir.bind Dir.authorized ∧ R s)
      restoreDir (fun _ s => s.sshDir = w.sshDir ∧ R s) := by
  refine Within.bind_sub (a := 0)
    (Q := fun s' s => (s'.hadSshdir = true ∧ (s'.dirContext = some d₀.context ∨ s'.dirContext = none ∧
      w.selinux = false)) ∧ (∃ d, DirBack w d₀ s d ∧ True) ∧ R s) (Within.read (fun s hs => ?_)) (fun s' => ?_) (by omega)
  · obtain ⟨⟨hsel, ⟨-, -, hhad, hkept⟩, hstays⟩, hauth, hr⟩ := hs
    obtain ⟨hm, ho, hc⟩ := hkept d₀ hw
    obtain ⟨d, hd, hctx⟩ := hstays d₀ hw
    rw [hd, hw] at hauth
    exact ⟨⟨by rw [hhad, hw]; rfl, hc⟩, ⟨d, ⟨hd, hauth, hctx, hm, ho, hc⟩, trivial⟩, hr⟩
  refine Within.given (φ := s'.hadSshdir = true ∧ (s'.dirContext = some d₀.context ∨ s'.dirContext = none ∧
    w.selinux = false)) (fun _ h => h.1) (fun ⟨hhad, hctx⟩ => ?_)
  rw [hhad]
  refine Within.bind_sub (n := 3) (a := 1) (((@onDir_attempt _ _ _ _ _ (fun d => d.mode = d₀.mode)) hR ?_).pre
    (fun _ h => h.2)) (fun _ => ?_) (by omega)
  · exact fun m s d hd _ => ⟨⟨rfl, hd.authorized, hd.context, hd.dirMode, hd.dirOwner, hd.dirContext⟩, hd.dirMode⟩
  refine Within.bind_sub (n := 2) (a := 1)
    ((@onDir_attempt _ _ _ _ _ (fun d => d.mode = d₀.mode ∧ d.owner = d₀.owner)) hR ?_) (fun _ => ?_) (by omega)
  · exact fun m s d hd hm => ⟨⟨rfl, hd.authorized, hd.context, hd.dirMode, hd.dirOwner, hd.dirContext⟩, hm,
      hd.dirOwner⟩
  have hlast : ∀ s, (∃ d, DirBack w d₀ s d ∧ d.mode = d₀.mode ∧ d.owner = d₀.owner ∧ d.context = d₀.context) ∧ R s →
      s.sshDir = w.sshDir ∧ R s := by
    rintro s ⟨⟨d, hd, hm, ho, hc⟩, hr⟩
    refine ⟨?_, hr⟩
    rw [hd.there, hw]
    cases d
    cases d₀
    exact congrArg some (by simpa using ⟨hm, ho, hc, hd.authorized⟩)
  rcases hctx with hctx | ⟨hctx, hsel⟩
  · rw [hctx]
    refine (((@onDir_attempt _ _ _ _ _ (fun d => d.mode = d₀.mode ∧ d.owner = d₀.owner ∧ d.context = d₀.context)) hR
      ?_).post (fun _ => hlast)).budget (by omega)
    intro m s d hd ⟨hm, ho⟩
    have hnew : s.dirContext.getD d.context = d₀.context := by
      rcases hd.dirContext with h | ⟨h, hsel⟩
      · rw [h, Option.getD_some]
      · rw [h, Option.getD_none, hd.context hsel]
    exact ⟨⟨rfl, hd.authorized, fun _ => hnew, hd.dirMode, hd.dirOwner, hd.dirContext⟩, hm, ho, hnew⟩
  · rw [hctx]
    exact Within.pure' (fun s ⟨⟨d, hd, hm, ho⟩, hr⟩ => hlast s ⟨⟨d, hd, hm, ho, hd.context hsel⟩, hr⟩)

theorem restoreDir_absent {R : Setup → Prop} (hR : ∀ s t f, R s → R { s with sshDir := t, failed := f })
    (hw : w.sshDir = none) :
    Completes Good 3 (fun s => Retrievable w s ∧ s.sshDir.bind Dir.authorized = w.sshDir.bind Dir.authorized ∧ R s)
      restoreDir (fun _ s => s.sshDir = w.sshDir ∧ R s) := by
  refine Within.bind_sub (a := 0)
    (Q := fun s' s => s'.hadSshdir = false ∧ s.sshDir.bind Dir.authorized = none ∧ R s)
    (Within.read (fun s hs => ⟨?_, ?_, hs.2.2⟩)) (fun s' => ?_) (by omega)
  · rw [hs.1.2.1.2.2.1, hw]
    rfl
  · rw [hs.2.1, hw]
    rfl
  refine Within.given (φ := s'.hadSshdir = false) (fun _ h => h.1) (fun hhad => ?_)
  rw [hhad, hw]
  refine (attempt_command ?_ ?_).budget (show 1 ≤ 3 by omega)
  · exact fun m s hs _ => ⟨rfl, hR s _ _ hs.2.2⟩
  · -- a directory without keys would have been removed
    intro s ⟨_, hauth, hr⟩ hno
    refine ⟨?_, hR s s.sshDir true hr⟩
    show s.sshDir = none
    cases hd : s.sshDir with
    | none => rfl
    | some d =>
      rw [hd, Option.bind_some] at hauth
      rw [hd, Option.any_some, hauth] at hno
      cases hno

theorem restoreDir_within {R : Setup → Prop} (hR : ∀ s t f, R s → R { s with sshDir := t, failed := f }) :
    Completes Good 3 (fun s => Retrievable w s ∧ s.sshDir.bind Dir.authorized = w.sshDir.bind Dir.authorized ∧ R s)
      restoreDir (fun _ s => s.sshDir = w.sshDir ∧ R s) := by
  cases hw : w.sshDir with
  | none => simpa only [hw] using restoreDir_absent hR hw
  | some d₀ => simpa only [hw] using restoreDir_there hR hw

/-- The allowance was recorded, and since then SSH was only ever allowed. -/
def Allowed (w : Host) (s : Setup) (r : Bool) : Prop :=
  Recorded w s r ∧ (s.permanent = w.permanent ∨ s.permanent = true) ∧
    (running s.firewalld = some r ∨ running s.firewalld = some true)

theorem running_reload {γ : Type} {v : Option (Service γ)} (c : γ) (h : (running v).isSome = true) :
    running (v.map (Service.reload c)) = some c := by
  obtain ⟨r, hr⟩ := Option.isSome_iff_exists.mp h
  cases v with
  | none => cases hr
  | some v =>
    have hv : v.running = some r := hr
    show v.running.map _ = _
    rw [hv]
    rfl

theorem restoreFirewall_within {R : Setup → Prop}
    (hR : ∀ s p v f, (v = none → s.firewalld = none) → R s → R { s with permanent := p, firewalld := v, failed := f })
    (r : Bool) :
    Completes Good 2 (fun s => Allowed w s r ∧ R s) restoreFirewall (fun _ s => FirewallDone w s ∧ R s) := by
  refine Within.bind_sub (a := 0) (Q := fun s' s => (s'.oldRuntime = some r ∧ s'.oldPermanent = some w.permanent) ∧
    Allowed w s r ∧ R s) (Within.read (fun s hs => ⟨⟨hs.1.1.2.1, hs.1.1.1⟩, hs⟩)) (fun s' => ?_) (by omega)
  refine Within.given (φ := s'.oldRuntime = some r ∧ s'.oldPermanent = some w.permanent) (fun _ h => h.1)
    (fun ⟨hr, hp⟩ => ?_)
  rw [hr, hp]
  have hisSome : ∀ s, Allowed w s r → (running s.firewalld).isSome = true := by
    rintro s ⟨-, -, h | h⟩ <;> rw [h] <;> rfl
  refine Within.bind_sub (n := 2) (a := 1) (Q := fun _ s => Allowed w s r ∧ running s.firewalld = some r ∧ R s)
    ?_ (fun _ => ?_) (by omega)
  · cases r with
    | true =>
      refine Within.pure' (fun s ⟨_, ha, hs⟩ => ⟨ha, ?_, hs⟩)
      rcases ha.2.2 with h | h <;> exact h
    | false =>
      refine attempt_command ?_ ?_
      · intro m s ⟨_, ha, hs⟩ hcan
        have hnew := running_reload false hcan
        refine ⟨⟨ha.1, ha.2.1, Or.inl hnew⟩, hnew, hR s _ _ _ (fun h => ?_) hs⟩
        rwa [Option.map_eq_none_iff] at h
      · intro s ⟨_, ha, _⟩ hno
        rw [hisSome s ha] at hno
        cases hno
  have hdone : ∀ s, Allowed w s r → running s.firewalld = some r → s.permanent = w.permanent → FirewallDone w s :=
    fun s ha hrun hperm => ⟨hperm, fun r' hr' => by rw [hrun, ha.1.2.2 r' hr']⟩
  cases hw : w.permanent with
  | true =>
    refine Within.pure' (fun s ⟨ha, hrun, hs⟩ => ⟨hdone s ha hrun ?_, hs⟩)
    rcases ha.2.1 with h | h
    · exact h
    · rw [h, hw]
  | false =>
    refine attempt_command ?_ ?_
    · intro m s ⟨ha, hrun, hs⟩ _
      refine ⟨hdone _ ⟨ha.1, Or.inl hw.symm, ha.2.2⟩ hrun hw.symm, hR s _ s.firewalld _ (fun h => h) hs⟩
    · intro s ⟨ha, _, _⟩ hno
      rw [hisSome s ha] at hno
      cases hno

theorem ServicesKept.sshd (hs : ServicesKept w s₀) : isEnabled (restoredSshd w s₀) = isEnabled w.sshd ∧
    running (restoredSshd w s₀) = if (running w.sshd).isSome then some s₀.dropin else none := by
  cases h : s₀.sshd with
  | none => simp [restoredSshd, h, hs.sshdThere h, isEnabled, running]
  | some v => simp [restoredSshd, h, isEnabled, running]

theorem ServicesKept.firewalld (hs : ServicesKept w s₀) (hf : FirewallDone w s₀) :
    isEnabled (restoredFirewalld w s₀) = isEnabled w.firewalld ∧
      running (restoredFirewalld w s₀) = running w.firewalld := by
  cases h : s₀.firewalld with
  | none => simp [restoredFirewalld, h, hs.firewalldThere h, isEnabled, running]
  | some v =>
    refine ⟨by simp [restoredFirewalld, h, isEnabled], ?_⟩
    rw [restoredFirewalld, h]
    show (if (running w.firewalld).isSome = true then v.running else none) = _
    cases hr : running w.firewalld with
    | none => rfl
    | some r =>
      have hrun := hf.2 r hr
      rw [h] at hrun
      exact hrun

/-- With files and firewall restored, the services are the last. -/
theorem restoreServices_within :
    Completes Good 5 (fun s => FilesDone w s ∧ FirewallDone w s ∧ ServicesKept w s) restoreServices
      (fun _ s => Restored w s) := by
  refine Within.start (fun s₀ ⟨hfiles, hfirewall, hs⟩ => ?_)
  obtain ⟨hsshdEnabled, hsshdRunning⟩ := hs.sshd
  refine Within.bind_sub (a := 3) (restoreSshd hs) (fun _ => ?_) (by omega)
  refine Within.start (fun s₁ h₁ => ?_)
  have hsshd : s₁.sshd = restoredSshd w s₀ := by rw [h₁]
  have hkept : ServicesKept w s₁ := by
    refine ⟨by rw [h₁]; exact hs.old, fun h => hs.sshdThere ?_, fun h => ?_, by rw [h₁]; exact hs.firewalldThere⟩
    · rw [hsshd, restoredSshd, Option.map_eq_none_iff] at h
      exact h
    · rw [hsshd, hsshdRunning, if_pos h]
      rfl
  have hdone : FirewallDone w s₁ := by rw [h₁]; exact hfirewall
  obtain ⟨hfEnabled, hfRunning⟩ := hkept.firewalld hdone
  refine (restoreFirewalld hkept (fun h => ?_)).post (fun _ s hs' => ?_)
  · obtain ⟨r, hr⟩ := Option.isSome_iff_exists.mp h
    rw [hdone.2 r hr]
    rfl
  have hdropin : s₁.dropin = w.dropin := by rw [h₁]; exact hfiles.1
  have hdir : s₁.sshDir = w.sshDir := by rw [h₁]; exact hfiles.2
  rw [hs']
  refine ⟨hdropin, hdir, hdone.1, hfRunning, hfEnabled, ?_, ?_, fun c hc => Or.inl ?_⟩
  · show isEnabled s₁.sshd = _
    rw [hsshd, hsshdEnabled]
  · show (running s₁.sshd).isSome = _
    rw [hsshd, hsshdRunning]
    cases running w.sshd <;> rfl
  · rw [show running s₁.sshd = _ from (congrArg running hsshd).trans hsshdRunning] at hc
    split at hc
    · rw [← Option.some.inj hc, hfiles.1]
    · cases hc

theorem FirewallSafe.done {s : Setup} (h : FirewallSafe w s) (hf : s.firewallTouched = false) : FirewallDone w s := by
  rcases h with ⟨-, h⟩ | ⟨h, -⟩
  · exact h
  · rw [hf] at h
    cases h

theorem ServicesKept.of_parts {s s' : Setup} (h : ServicesKept w s) (hold : s'.old = s.old) (hsshd : s'.sshd = s.sshd)
    (hf : s'.firewalld = none → s.firewalld = none) : ServicesKept w s' :=
  ⟨hold.trans h.old, fun hn => h.sshdThere (hsshd ▸ hn), fun hr => by rw [hsshd]; exact h.sshdRuns hr,
    fun hn => h.firewalldThere (hf hn)⟩

/-- Nothing was touched. -/
theorem rollback_untouched (h : Recoverable w s₀) (hsv : s₀.servicesTouched = false) :
    Completes Good 0 (fun s => s = s₀) rollback (fun _ s => Restored w s) := by
  obtain ⟨⟨-, hfiles⟩, hfirewall, -, hno⟩ := h
  obtain ⟨hsshd, hf, hft, hwt⟩ := hno hsv
  refine Within.bind_sub (a := 0) (Q := fun s' s => s' = s₀ ∧ s = s₀) (Within.read (fun _ h => ⟨h, h⟩))
    (fun s' => Within.given (φ := s' = s₀) (fun _ h => h.1) (fun hs' => ?_)) (by omega)
  rw [hs', hft, hwt, hsv]
  refine Within.pure' (fun s hs => ?_)
  rw [hs.2]
  rcases hfiles with ⟨-, hdropin, hdir⟩ | ⟨h, -⟩
  · have hdone := hfirewall.done hwt
    exact ⟨hdropin, hdir, hdone.1, by rw [hf], by rw [hf], by rw [hsshd], by rw [hsshd], fun _ _ => Or.inr hsshd⟩
  · rw [hft] at h
    cases h

/-- The services were touched, so they are restored after the rest. -/
theorem rollback_touched (h : Recoverable w s₀) (hsv : s₀.servicesTouched = true) :
    Completes Good 12 (fun s => s = s₀) rollback (fun _ s => Restored w s) := by
  obtain ⟨⟨hsel, hfiles⟩, hfirewall, hkept, -⟩ := h
  refine Within.bind_sub (a := 0) (Q := fun s' s => s' = s₀ ∧ s = s₀) (Within.read (fun _ h => ⟨h, h⟩))
    (fun s' => Within.given (φ := s' = s₀) (fun _ h => h.1) (fun hs' => ?_)) (by omega)
  rw [hs', hsv]
  refine Within.bind_sub (n := 12) (a := 5)
    (Q := fun _ s => FilesDone w s ∧ s.firewallTouched = s₀.firewallTouched ∧ FirewallSafe w s ∧ ServicesKept w s)
    ?_ (fun _ => ?_) (by omega)
  · rcases hfiles with ⟨hft, hdropin, hdir⟩ | ⟨hft, hb, hstays⟩
    · rw [hft]
      refine Within.pure' (fun s hs => ?_)
      rw [hs.2]
      exact ⟨⟨hdropin, hdir⟩, rfl, hfirewall, hkept⟩
    · rw [hft]
      refine Within.bind_sub (n := 5) (a := 1) ((restoreDropin_within (w := w) (R := fun s =>
        s.firewallTouched = s₀.firewallTouched ∧ FirewallSafe w s ∧ ServicesKept w s) ?_).pre ?_) (fun _ => ?_)
        (by omega)
      · exact fun s _ _ hr => ⟨hr.1, hr.2.1, hr.2.2.of_parts rfl rfl id⟩
      · intro s hs
        rw [hs.2]
        exact ⟨⟨hsel, hb, hstays⟩, rfl, hfirewall, hkept⟩
      refine Within.bind_sub (n := 4) (a := 1) (restoreAuthorized_within (w := w) (R := fun s => s.dropin = w.dropin ∧
        s.firewallTouched = s₀.firewallTouched ∧ FirewallSafe w s ∧ ServicesKept w s) ?_) (fun _ => ?_) (by omega)
      · exact fun s _ _ hr => ⟨hr.1, hr.2.1, hr.2.2.1, hr.2.2.2.of_parts rfl rfl id⟩
      refine (restoreDir_within (w := w) (R := fun s => s.dropin = w.dropin ∧
        s.firewallTouched = s₀.firewallTouched ∧ FirewallSafe w s ∧ ServicesKept w s) ?_).post
        (fun _ s hs => ⟨⟨hs.2.1, hs.1⟩, hs.2.2⟩)
      exact fun s _ _ hr => ⟨hr.1, hr.2.1, hr.2.2.1, hr.2.2.2.of_parts rfl rfl id⟩
  refine Within.bind_sub (n := 7) (a := 2) (Q := fun _ s => FilesDone w s ∧ FirewallDone w s ∧ ServicesKept w s)
    ?_ (fun _ => restoreServices_within) (by omega)
  cases hwt : s₀.firewallTouched with
  | false => exact Within.pure' (fun s hs => ⟨hs.1, hs.2.2.1.done hs.2.1, hs.2.2.2⟩)
  | true =>
    refine Within.start (fun s₁ ⟨hfiles₁, hwt₁, hfirewall₁, hkept₁⟩ => ?_)
    obtain ⟨r, hallowed⟩ : ∃ r, Allowed w s₁ r := by
      rcases hfirewall₁ with ⟨hno, -⟩ | ⟨-, hperm, r, hrec, hrun⟩
      · rw [hwt₁] at hno
        cases hno
      · exact ⟨r, hrec, hperm, hrun⟩
    refine ((restoreFirewall_within (w := w) (R := fun s => FilesDone w s ∧ ServicesKept w s) ?_ r).pre ?_).post
      (fun _ s hs => ⟨hs.2.1, hs.1, hs.2.2⟩)
    · exact fun s _ v _ hv hr => ⟨hr.1, hr.2.of_parts rfl rfl hv⟩
    · intro s hs
      rw [hs]
      exact ⟨hallowed, hfiles₁, hkept₁⟩

/-- The rollback of whatever a failed run has left, its own commands succeeding. -/
theorem rollback_within : Completes Good 12 (fun s => Recoverable w s) rollback (fun _ s => Restored w s) := by
  refine Within.start (fun s₀ h => ?_)
  cases hsv : s₀.servicesTouched with
  | false => exact (rollback_untouched h hsv).budget (by omega)
  | true => exact rollback_touched h hsv

end Rollback

/-! ## What a run of `apply_config` keeps -/

section Apply

variable {w : Host}

/-- The services may be changed, nothing else yet. -/
structure Inspecting (w : Host) (s : Setup) : Prop where
  recoverable : Recoverable w s
  servicesTouched : s.servicesTouched = true
  filesTouched : s.filesTouched = false
  firewallTouched : s.firewallTouched = false

/-- No copy has been taken. -/
def Unbacked (s : Setup) : Prop := s.backupDropin = none ∧ s.backupAuthorized = none ∧ s.hadSshdir = false

/-- firewalld runs, and its allowance is recorded. -/
def Noted (w : Host) (s : Setup) : Prop := ∃ r, Recorded w s r ∧ running s.firewalld = some r

/-- The files may be changed. -/
structure Writing (w : Host) (s : Setup) : Prop where
  recoverable : Recoverable w s
  servicesTouched : s.servicesTouched = true
  filesTouched : s.filesTouched = true
  firewallTouched : s.firewallTouched = false
  noted : Noted w s

/-- The firewall too. -/
structure Allowing (w : Host) (s : Setup) : Prop where
  recoverable : Recoverable w s
  filesTouched : s.filesTouched = true
  servicesTouched : s.servicesTouched = true
  firewallTouched : s.firewallTouched = true

theorem check_keeps {I : Setup → Prop} {what : String} : Keeps I (check what) := run_keeps (fun _ _ h _ => h)

/-- A run that keeps something from which the host can be restored. -/
theorem recoverable_of_keeps {I : Setup → Prop} {x : Task Setup Unit} (hx : Keeps I x)
    (hI : ∀ s, I s → Recoverable w s) : Triple I x (fun _ => I) (fun _ => Recoverable w) :=
  hx.mono (fun _ => id) (fun _ _ => id) (fun _ => hI)

theorem Inspecting.files {s : Setup} (h : Inspecting w s) : s.dropin = w.dropin ∧ s.sshDir = w.sshDir := by
  rcases h.recoverable.1.2 with ⟨-, h'⟩ | ⟨h', -⟩
  · exact h'
  · rw [h.filesTouched] at h'
    cases h'

theorem Inspecting.firewall {s : Setup} (h : Inspecting w s) :
    s.permanent = w.permanent ∧ ∀ r, running w.firewalld = some r → running s.firewalld = some r :=
  h.recoverable.2.1.done h.firewallTouched

/-- The services change, but none is removed and none that runs is stopped. -/
theorem Inspecting.services {s s' : Setup} (h : Inspecting w s)
    (hs : s' = { s with sshd := s'.sshd, firewalld := s'.firewalld }) (hsshd : s'.sshd = none → s.sshd = none)
    (hruns : ∀ c, running s.sshd = some c → running s'.sshd = some c) (hf : s'.firewalld = none → s.firewalld = none)
    (hfruns : ∀ c, running s.firewalld = some c → running s'.firewalld = some c) : Inspecting w s' := by
  have hst : s'.servicesTouched = true := by rw [hs]; exact h.servicesTouched
  have hft : s'.filesTouched = false := by rw [hs]; exact h.filesTouched
  have hwt : s'.firewallTouched = false := by rw [hs]; exact h.firewallTouched
  have hfiles : FilesSafe w s' := by rw [hs]; exact h.recoverable.1
  have hperm : s'.permanent = w.permanent := by rw [hs]; exact h.firewall.1
  have hold : s'.old = w.snapshot := by rw [hs]; exact h.recoverable.2.2.1.old
  have hkept := h.recoverable.2.2.1
  refine ⟨⟨hfiles, Or.inl ⟨hwt, hperm, fun r hr => hfruns r (h.firewall.2 r hr)⟩,
    ⟨hold, fun hn => hkept.sshdThere (hsshd hn), fun hr => ?_, fun hn => hkept.firewalldThere (hf hn)⟩, ?_⟩,
    hst, hft, hwt⟩
  · obtain ⟨c, hc⟩ := Option.isSome_iff_exists.mp (hkept.sshdRuns hr)
    rw [hruns c hc]
    rfl
  · intro hno
    rw [hst] at hno
    cases hno

/-- Only what is recorded changes. -/
theorem Inspecting.recording {s s' : Setup} (h : Inspecting w s) (hhost : s'.toHost = s.toHost) (hold : s'.old = s.old)
    (hflags : (s'.servicesTouched, s'.filesTouched, s'.firewallTouched) =
      (s.servicesTouched, s.filesTouched, s.firewallTouched)) : Inspecting w s' := by
  obtain ⟨hst, hft, hwt⟩ : s'.servicesTouched = true ∧ s'.filesTouched = false ∧ s'.firewallTouched = false := by
    rw [h.servicesTouched, h.filesTouched, h.firewallTouched] at hflags
    simpa using hflags
  have hkept := h.recoverable.2.2.1
  refine ⟨⟨⟨?_, Or.inl ⟨hft, ?_, ?_⟩⟩, Or.inl ⟨hwt, ?_, ?_⟩, ⟨hold.trans hkept.old, ?_, ?_, ?_⟩, ?_⟩, hst, hft, hwt⟩
  · rw [hhost]; exact h.recoverable.1.1
  · rw [hhost]; exact h.files.1
  · rw [hhost]; exact h.files.2
  · rw [hhost]; exact h.firewall.1
  · rw [hhost]; exact h.firewall.2
  · rw [hhost]; exact hkept.sshdThere
  · rw [hhost]; exact hkept.sshdRuns
  · rw [hhost]; exact hkept.firewalldThere
  · intro hno
    rw [hst] at hno
    cases hno

theorem running_or {γ : Type} {v u : Option (Service γ)} {c : γ} (h : running v = some c) :
    running (v.or u) = some c := by
  cases v with
  | none => cases h
  | some v => exact h

theorem running_map {γ : Type} {v : Option (Service γ)} {f : Service γ → Service γ} {c : γ}
    (hf : ∀ x : Service γ, x.running = some c → (f x).running = some c) (h : running v = some c) :
    running (v.map f) = some c := by
  cases v with
  | none => cases h
  | some v => exact hf v h

theorem start_running {γ : Type} {fresh c : γ} {x : Service γ} (h : x.running = some c) :
    (x.start fresh).running = some c := by
  show some (x.running.getD fresh) = some c
  rw [h]
  rfl

theorem install_keeps {svc : Svc} : Keeps (fun s => Inspecting w s ∧ Unbacked s) (install svc) := by
  refine run_keeps (fun m s ⟨h, hu⟩ _ => ⟨?_, ?_⟩)
  · cases svc with
    | sshd => exact h.services rfl (fun hn => (Option.or_eq_none_iff.mp hn).1) (fun _ => running_or) id (fun _ => id)
    | firewalld =>
      exact h.services rfl id (fun _ => id) (fun hn => (Option.or_eq_none_iff.mp hn).1) (fun _ => running_or)
  · cases svc <;> exact hu

theorem setEnabled_keeps {svc : Svc} {enabled : Bool} :
    Keeps (fun s => Inspecting w s ∧ Unbacked s) (setEnabled svc enabled) := by
  refine run_keeps (fun m s ⟨h, hu⟩ _ => ⟨?_, ?_⟩)
  · cases svc with
    | sshd =>
      exact h.services rfl (fun hn => Option.map_eq_none_iff.mp hn) (fun _ => running_map (fun _ => id)) id
        (fun _ => id)
    | firewalld =>
      exact h.services rfl id (fun _ => id) (fun hn => Option.map_eq_none_iff.mp hn)
        (fun _ => running_map (fun _ => id))
  · cases svc <;> exact hu

theorem startFirewalld_triple : Triple (fun s => Inspecting w s ∧ Unbacked s) (start .firewalld)
    (fun _ s => (Inspecting w s ∧ Unbacked s) ∧ (running s.firewalld).isSome = true)
    (fun _ s => Inspecting w s ∧ Unbacked s) := by
  have hstart : ∀ s, Inspecting w s ∧ Unbacked s →
      Inspecting w { s with firewalld := s.firewalld.map (Service.start s.permanent) } ∧
        Unbacked { s with firewalld := s.firewalld.map (Service.start s.permanent) } :=
    fun s ⟨h, hu⟩ => ⟨h.services rfl id (fun _ => id) (fun hn => Option.map_eq_none_iff.mp hn)
      (fun _ => running_map (fun _ => start_running)), hu⟩
  refine run_triple (fun m s hs hc => ⟨hstart s hs, ?_⟩) (fun _ _ hs => hs) (fun _ _ s hs _ => hstart s hs)
  obtain ⟨v, hv⟩ := Option.isSome_iff_exists.mp hc
  show (running (s.firewalld.map _)).isSome = true
  rw [hv]
  rfl

/-- What `firewalld` says is recorded. -/
theorem inspectFirewall_triple : Triple (fun s => Inspecting w s ∧ Unbacked s) inspectFirewall
    (fun _ s => (Inspecting w s ∧ Noted w s) ∧ Unbacked s) (fun _ => Recoverable w) := by
  refine Triple.bind (recoverable_of_keeps setEnabled_keeps (fun _ h => h.1.recoverable)) (fun _ => ?_)
  refine Triple.bind (startFirewalld_triple.mono (fun _ => id) (fun _ _ => id) (fun _ _ h => h.1.recoverable))
    (fun _ => ?_)
  refine Triple.bind (recoverable_of_keeps check_keeps (fun _ h => h.1.1.recoverable)) (fun _ => ?_)
  refine Triple.bind (Q := fun runtime s => (Inspecting w s ∧ Unbacked s) ∧ running s.firewalld = some runtime)
    (query_triple (fun m s hs hc => ⟨hs.1, ?_⟩) (fun _ _ h => h.1.1.recoverable)) (fun runtime => ?_)
  · obtain ⟨r, hr⟩ := Option.isSome_iff_exists.mp hc
    show running s.firewalld = some ((running s.firewalld).getD false)
    rw [hr]
    rfl
  refine Triple.bind (Q := fun _ s => (Inspecting w s ∧ Unbacked s) ∧ running s.firewalld = some runtime ∧
    s.oldRuntime = some runtime) (Triple.update (fun s hs => ?_)) (fun _ => ?_)
  · exact ⟨⟨hs.1.1.recording rfl rfl rfl, hs.1.2⟩, hs.2, rfl⟩
  refine Triple.bind (Q := fun permanent s => (Inspecting w s ∧ Unbacked s) ∧ running s.firewalld = some runtime ∧
    s.oldRuntime = some runtime ∧ permanent = w.permanent)
    (query_triple (fun m s hs _ => ⟨hs.1, hs.2.1, hs.2.2, hs.1.1.firewall.1⟩) (fun _ _ h => h.1.1.recoverable))
    (fun permanent => ?_)
  refine Triple.bind (Q := fun _ s => (Inspecting w s ∧ Noted w s) ∧ Unbacked s) (Triple.update (fun s hs => ?_))
    (fun _ => recoverable_of_keeps check_keeps (fun _ h => h.1.1.recoverable))
  obtain ⟨⟨h, hu⟩, hrun, hold, hperm⟩ := hs
  refine ⟨⟨h.recording rfl rfl rfl, runtime, ⟨by rw [hperm], hold, fun r hr => ?_⟩, hrun⟩, hu⟩
  exact Option.some.inj (hrun.symm.trans (h.firewall.2 r hr))

theorem recordDir_triple : Triple (fun s => (Inspecting w s ∧ Noted w s) ∧ s.backupDropin = w.dropin ∧
      s.backupAuthorized = w.sshDir.bind Dir.authorized ∧ s.hadSshdir = false) recordDir
    (fun _ s => (Inspecting w s ∧ Noted w s) ∧ Backed w s) (fun _ => Recoverable w) := by
  refine Triple.bind (Q := fun s' s => s'.sshDir = w.sshDir ∧ (Inspecting w s ∧ Noted w s) ∧
      s.backupDropin = w.dropin ∧ s.backupAuthorized = w.sshDir.bind Dir.authorized ∧ s.hadSshdir = false)
    (Triple.read (fun _ h => ⟨h.1.1.files.2, h⟩)) (fun s' => ?_)
  refine Triple.given (φ := s'.sshDir = w.sshDir) (fun _ h => h.1) (fun hdir => ?_)
  rw [hdir]
  cases hw : w.sshDir with
  | none =>
    refine Triple.pure' (fun s hs => ⟨hs.2.1, hs.2.2.1, ?_, ?_, fun d hd => ?_⟩)
    · rw [hw]; exact hs.2.2.2.1
    · rw [hw]; exact hs.2.2.2.2
    · rw [hw] at hd
      cases hd
  | some d =>
    refine Triple.bind (recoverable_of_keeps check_keeps (fun _ h => h.2.1.1.recoverable)) (fun _ => ?_)
    refine Triple.bind (Q := fun _ s => (Inspecting w s ∧ Noted w s) ∧ Backed w s) (Triple.update (fun s hs => ?_))
      (fun _ => recoverable_of_keeps check_keeps (fun _ h => h.1.1.recoverable))
    obtain ⟨-, ⟨h, hn⟩, hd, ha, -⟩ := hs
    have hsel : s.selinux = w.selinux := h.recoverable.1.1
    refine ⟨⟨h.recording rfl rfl rfl, hn⟩, hd, by rw [hw]; exact ha, by rw [hw]; rfl, fun d' hd' => ?_⟩
    rw [hw] at hd'
    cases hd'
    refine ⟨rfl, rfl, ?_⟩
    show (if s.selinux = true then some d.context else none) = _ ∨ (if s.selinux = true then _ else none) = _ ∧ _
    rw [hsel]
    cases hs : w.selinux with
    | true => exact Or.inl rfl
    | false => exact Or.inr ⟨rfl, rfl⟩

/-- The copies are taken of what the host holds. -/
theorem backUp_triple : Triple (fun s => (Inspecting w s ∧ Noted w s) ∧ Unbacked s) backUp
    (fun _ s => (Inspecting w s ∧ Noted w s) ∧ Backed w s) (fun _ => Recoverable w) := by
  refine Triple.bind (recoverable_of_keeps check_keeps (fun _ h => h.1.1.recoverable)) (fun _ => ?_)
  refine Triple.bind (Q := fun s' s => (s'.dropin = w.dropin ∧ s'.sshDir = w.sshDir) ∧
    (Inspecting w s ∧ Noted w s) ∧ Unbacked s) (Triple.read (fun _ h => ⟨h.1.1.files, h⟩)) (fun s' => ?_)
  refine Triple.given (φ := s'.dropin = w.dropin ∧ s'.sshDir = w.sshDir) (fun _ h => h.1) (fun hs' => ?_)
  rw [hs'.1, hs'.2]
  refine Triple.bind (Q := fun _ s => (Inspecting w s ∧ Noted w s) ∧ s.backupDropin = w.dropin ∧
    s.backupAuthorized = none ∧ s.hadSshdir = false) (onlyIf_triple (fun _ => ?_) (fun hno s hs => ?_)) (fun _ => ?_)
  · have hcopy : ∀ s, (Inspecting w s ∧ Noted w s) → Inspecting w { s with backupDropin := s.dropin } ∧
        Noted w { s with backupDropin := s.dropin } := fun s h => ⟨h.1.recording rfl rfl rfl, h.2⟩
    refine run_triple (fun m s hs _ => ⟨hcopy s hs.2.1, hs.2.1.1.files.1, hs.2.2.2⟩)
      (fun _ _ hs => hs.2.1.1.recoverable) (fun _ _ s hs _ => (hcopy s hs.2.1).1.recoverable)
  · rw [Option.isSome_eq_false_iff, Option.isNone_iff_eq_none] at hno
    exact ⟨hs.2.1, hs.2.2.1.trans hno.symm, hs.2.2.2⟩
  refine Triple.bind (Q := fun _ s => (Inspecting w s ∧ Noted w s) ∧ s.backupDropin = w.dropin ∧
    s.backupAuthorized = w.sshDir.bind Dir.authorized ∧ s.hadSshdir = false)
    (onlyIf_triple (fun _ => ?_) (fun hno s hs => ?_)) (fun _ => recordDir_triple)
  · have hcopy : ∀ s, (Inspecting w s ∧ Noted w s) →
        Inspecting w { s with backupAuthorized := s.sshDir.bind Dir.authorized } ∧
        Noted w { s with backupAuthorized := s.sshDir.bind Dir.authorized } :=
      fun s h => ⟨h.1.recording rfl rfl rfl, h.2⟩
    refine run_triple (fun m s hs _ => ⟨hcopy s hs.1, hs.2.1, ?_, hs.2.2.2⟩)
      (fun _ _ hs => hs.1.1.recoverable) (fun _ _ s hs _ => (hcopy s hs.1).1.recoverable)
    show s.sshDir.bind Dir.authorized = _
    rw [hs.1.1.files.2]
  · rw [Option.isSome_eq_false_iff, Option.isNone_iff_eq_none] at hno
    exact ⟨hs.1, hs.2.1, hs.2.2.1.trans hno.symm, hs.2.2.2⟩

/-! ### The files -/

/-- The directory and the drop-in are written; a directory stays, with its context where there
    is no SELinux. -/
theorem Writing.files {s s' : Setup} (h : Writing w s) (hs : s' = { s with dropin := s'.dropin, sshDir := s'.sshDir })
    (hd : ∀ d, s.sshDir = some d → ∃ d', s'.sshDir = some d' ∧ (s.selinux = false → d'.context = d.context)) :
    Writing w s' := by
  obtain ⟨hsel, hfiles⟩ := h.recoverable.1
  obtain ⟨hb, hstays⟩ : Backed w s ∧ DirStays w s := by
    rcases hfiles with ⟨hno, -⟩ | ⟨-, hfiles⟩
    · rw [h.filesTouched] at hno
      cases hno
    · exact hfiles
  have hft : s'.filesTouched = true := by rw [hs]; exact h.filesTouched
  have hsel' : s'.selinux = w.selinux := by rw [hs]; exact hsel
  have hb' : Backed w s' := by rw [hs]; exact hb
  have hstays' : DirStays w s' := by
    intro d₀ h₀
    obtain ⟨d, hd₀, hc⟩ := hstays d₀ h₀
    obtain ⟨d', hd', hc'⟩ := hd d hd₀
    exact ⟨d', hd', fun hno => (hc' (hsel.trans hno)).trans (hc hno)⟩
  have hfirewall : FirewallSafe w s' := by rw [hs]; exact h.recoverable.2.1
  have hst : s'.servicesTouched = true := by rw [hs]; exact h.servicesTouched
  have hkept : ServicesKept w s' := h.recoverable.2.2.1.of_parts (by rw [hs]) (by rw [hs]) (by rw [hs]; exact id)
  refine ⟨⟨⟨hsel', Or.inr ⟨hft, hb', hstays'⟩⟩, hfirewall, hkept, fun hno => ?_⟩, hst, hft, ?_, ?_⟩
  · rw [hst] at hno
    cases hno
  · rw [hs]; exact h.firewallTouched
  · rw [hs]; exact h.noted

theorem onDir_keeps {f : Moment → Setup → Dir → Dir}
    (hf : ∀ m s d, s.selinux = false → (f m s d).context = d.context) : Keeps (Writing w) (onDir f) := by
  refine run_keeps (fun m s h _ => h.files rfl (fun d hd => ⟨f m s d, ?_, hf m s d⟩))
  show s.sshDir.map (f m s) = _
  rw [hd, Option.map_some]

theorem makeDir_keeps : Keeps (Writing w) makeDir := by
  refine run_keeps (fun m s h _ => h.files rfl (fun d hd => ⟨d, ?_, fun _ => rfl⟩))
  show s.sshDir.or _ = _
  rw [hd, Option.some_or]

theorem writing_keeps {effect : Option String → Setup → Setup} {content : Setup → String}
    (he : ∀ c s, Writing w s → Writing w (effect c s)) : Keeps (Writing w) (writing effect content) := by
  refine Triple.perform (fun _ h => h) (fun m s h r s' hr => ?_)
  split at hr
  · cases hr
    exact he _ s h
  · cases hr
    show Writing w _
    split
    · exact he _ s h
    · exact h

theorem installKey_keeps {k : Key} {owner : String} : Keeps (Writing w) (installKey k owner) := by
  refine Keeps.bind check_keeps (fun _ => Keeps.bind check_keeps (fun _ => Keeps.bind makeDir_keeps (fun _ => ?_)))
  refine Keeps.bind (onDir_keeps (fun _ _ _ _ => rfl)) (fun _ => ?_)
  refine Keeps.bind (onDir_keeps (fun _ _ _ _ => rfl)) (fun _ => ?_)
  refine Keeps.bind (onDir_keeps (fun _ _ _ _ => rfl)) (fun _ => Keeps.bind check_keeps (fun _ => ?_))
  refine Keeps.bind (writing_keeps (fun c s h => h.files rfl (fun d hd => ?_))) (fun _ => onDir_keeps ?_)
  · refine ⟨{ d with authorized := c }, ?_, fun _ => rfl⟩
    show s.sshDir.map _ = _
    rw [hd, Option.map_some]
  · intro m s d hno
    show (if s.selinux = true then _ else d.context) = d.context
    rw [hno]
    rfl

theorem writeFiles_keeps {k : Key} {owner : String} : Keeps (Writing w) (writeFiles k owner) := by
  refine Keeps.bind installKey_keeps (fun _ => Keeps.bind (writing_keeps (fun c s h => ?_)) (fun _ => ?_))
  · exact h.files rfl (fun d hd => ⟨d, hd, fun _ => rfl⟩)
  · exact Keeps.bind check_keeps (fun _ => Keeps.bind check_keeps (fun _ => check_keeps))

/-! ### The firewall and sshd -/

/-- SSH is allowed, or an sshd that is there started, enabled or reloaded. -/
theorem Allowing.step {s s' : Setup} (h : Allowing w s)
    (hs : s' = { s with permanent := s'.permanent, firewalld := s'.firewalld, sshd := s'.sshd })
    (hperm : s'.permanent = s.permanent ∨ s'.permanent = true)
    (hrun : running s'.firewalld = running s.firewalld ∨ running s'.firewalld = some true)
    (hf : s'.firewalld = none → s.firewalld = none) (hsshd : s'.sshd = none → s.sshd = none)
    (hruns : (running s.sshd).isSome = true → (running s'.sshd).isSome = true) : Allowing w s' := by
  have hkept := h.recoverable.2.2.1
  have hft : s'.filesTouched = true := by rw [hs]; exact h.filesTouched
  have hst : s'.servicesTouched = true := by rw [hs]; exact h.servicesTouched
  have hwt : s'.firewallTouched = true := by rw [hs]; exact h.firewallTouched
  have hfiles : FilesSafe w s' := by rw [hs]; exact h.recoverable.1
  have hold : s'.old = w.snapshot := by rw [hs]; exact hkept.old
  refine ⟨⟨hfiles, Or.inr ⟨hwt, ?_⟩, ⟨hold, fun hn => hkept.sshdThere (hsshd hn), fun hr => hruns (hkept.sshdRuns hr),
    fun hn => hkept.firewalldThere (hf hn)⟩, fun hno => ?_⟩, hft, hst, hwt⟩
  · rcases h.recoverable.2.1 with ⟨hno, -⟩ | ⟨-, hp, r, hrec, hr⟩
    · rw [h.firewallTouched] at hno
      cases hno
    refine ⟨?_, r, by rw [hs]; exact hrec, ?_⟩
    · rcases hperm with hperm | hperm
      · rw [hperm]; exact hp
      · exact Or.inr hperm
    · rcases hrun with hrun | hrun
      · rw [hrun]; exact hr
      · exact Or.inr hrun
  · rw [hst] at hno
    cases hno

theorem allowSsh_triple : Triple (Allowing w) allowSsh (fun _ => Allowing w) (fun _ => Recoverable w) := by
  have hkeeps : Keeps (Allowing w) allowSsh := by
    refine Keeps.bind (run_keeps (fun m s h hc => h.step rfl (Or.inl rfl) (Or.inr (running_reload true hc))
      (fun hn => Option.map_eq_none_iff.mp hn) id id)) (fun _ => ?_)
    refine Keeps.bind (run_keeps (fun m s h _ => h.step rfl (Or.inr rfl) (Or.inl rfl) id id id)) (fun _ => ?_)
    exact Keeps.bind query_keeps (fun _ => Keeps.bind query_keeps (fun _ => require_keeps))
  exact recoverable_of_keeps hkeeps (fun _ h => h.recoverable)

theorem serve_triple : Triple (Allowing w) serve (fun _ => Allowing w) (fun _ => Recoverable w) := by
  have hmap : ∀ (s : Setup) (f : Service (Option String) → Service (Option String)), Allowing w s →
      (∀ x, x.running.isSome = true → (f x).running.isSome = true) →
      Allowing w { s with sshd := s.sshd.map f } := by
    intro s f h hf
    refine h.step rfl (Or.inl rfl) (Or.inl rfl) id (fun hn => Option.map_eq_none_iff.mp hn) (fun hr => ?_)
    show (running (s.sshd.map f)).isSome = true
    cases hv : s.sshd with
    | none => rw [hv] at hr; cases hr
    | some v =>
      rw [hv] at hr
      exact hf v hr
  have hkeeps : Keeps (Allowing w) serve := by
    refine Keeps.bind (run_keeps (fun m s h _ => hmap s _ h (fun _ hx => hx))) (fun _ => ?_)
    refine Keeps.bind (Keeps.bind (Triple.read (fun _ h => h)) (fun s' => ?_)) (fun _ =>
      Keeps.bind check_keeps (fun _ => check_keeps))
    refine Triple.ite (fun _ => run_keeps (fun m s h _ => hmap s _ h (fun x hx => ?_)))
      (fun _ => run_keeps (fun m s h _ => hmap s _ h (fun _ _ => rfl)))
    show (x.running.map _).isSome = true
    rw [Option.isSome_map]
    exact hx
  exact recoverable_of_keeps hkeeps (fun _ h => h.recoverable)

/-! ### The whole -/

theorem recoverable_setup (w : Host) : Recoverable w w.setup :=
  ⟨⟨rfl, Or.inl ⟨rfl, rfl, rfl⟩⟩, Or.inl ⟨rfl, rfl, fun _ => id⟩, ⟨rfl, id, id, id⟩, fun _ => ⟨rfl, rfl, rfl, rfl⟩⟩

theorem applyConfig_triple {k : Key} {owner : String} :
    Triple (fun s => s = w.setup) (applyConfig k owner) (fun _ _ => True) (fun _ => Recoverable w) := by
  have hsetup : ∀ s, s = w.setup → Recoverable w s := fun s hs => hs ▸ recoverable_setup w
  refine Triple.bind (recoverable_of_keeps check_keeps hsetup) (fun _ => ?_)
  refine Triple.bind (Q := fun _ s => Inspecting w s ∧ Unbacked s) (Triple.update (fun s hs => ?_)) (fun _ => ?_)
  · rw [hs]
    refine ⟨⟨⟨(recoverable_setup w).1, (recoverable_setup w).2.1, ⟨rfl, id, id, id⟩, fun hno => ?_⟩, rfl, rfl, rfl⟩,
      rfl, rfl, rfl⟩
    cases hno
  refine Triple.bind (recoverable_of_keeps install_keeps (fun _ h => h.1.recoverable)) (fun _ => ?_)
  refine Triple.bind (recoverable_of_keeps install_keeps (fun _ h => h.1.recoverable)) (fun _ => ?_)
  refine Triple.bind (recoverable_of_keeps check_keeps (fun _ h => h.1.recoverable)) (fun _ => ?_)
  refine Triple.bind inspectFirewall_triple (fun _ => Triple.bind backUp_triple (fun _ => ?_))
  refine Triple.bind (Q := fun _ => Writing w) (Triple.update (fun s ⟨⟨h, hn⟩, hb⟩ => ?_)) (fun _ => ?_)
  · have hstays : DirStays w s := fun d hd => ⟨d, h.files.2.trans hd, fun _ => rfl⟩
    refine ⟨⟨⟨h.recoverable.1.1, Or.inr ⟨rfl, hb, hstays⟩⟩, h.recoverable.2.1,
      h.recoverable.2.2.1.of_parts rfl rfl id, fun hno => ?_⟩, h.servicesTouched, rfl, h.firewallTouched, hn⟩
    cases h.servicesTouched.symm.trans (show s.servicesTouched = false from hno)
  refine Triple.bind (recoverable_of_keeps writeFiles_keeps (fun _ h => h.recoverable)) (fun _ => ?_)
  refine Triple.bind (Q := fun _ => Allowing w) (Triple.update (fun s h => ?_)) (fun _ => ?_)
  · obtain ⟨r, hrec, hrun⟩ := h.noted
    have hperm : s.permanent = w.permanent := (h.recoverable.2.1.done h.firewallTouched).1
    refine ⟨⟨h.recoverable.1, Or.inr ⟨rfl, Or.inl hperm, r, hrec, Or.inl hrun⟩,
      h.recoverable.2.2.1.of_parts rfl rfl id, fun hno => ?_⟩, h.filesTouched, h.servicesTouched, rfl⟩
    cases h.servicesTouched.symm.trans (show s.servicesTouched = false from hno)
  exact Triple.bind allowSsh_triple (fun _ => serve_triple.post (fun _ _ _ => trivial))

end Apply

/-- Wherever a setup fails, the rollback brings back what was there: the files with the
    directory's attributes, the firewall's allowance, and whether the services are enabled and
    active; an sshd that runs serves the original configuration. -/
theorem rolled_back (w : Host) (k : Key) (owner : String) (t t' : List Moment) (e : Exc)
    (he : (applyConfig k owner).result t w.setup = .error e) (ht : Supplied Good 12 t') :
    rollback.result t' ((applyConfig k owner).after t w.setup) = .ok () ∧
      Restored w (rollback.after t' ((applyConfig k owner).after t w.setup)) := by
  have hrec : Recoverable w ((applyConfig k owner).after t w.setup) := by
    have h := (@applyConfig_triple w k owner) t w.setup rfl
    simp only [Proc.result, Proc.after] at he ⊢
    revert h he
    rcases applyConfig k owner t w.setup with ⟨r, t₁, s⟩
    intro he h
    cases he
    exact h
  obtain ⟨_, hr, hs⟩ := rollback_within.returns ht hrec
  exact ⟨hr, hs⟩

/-! A host without sshd, on which the installation of the packages is the last that works. -/

def sampleHost : Host where
  dropin := none
  sshDir := none
  permanent := true
  sshd := none
  firewalld := some { enabled := false, running := none }
  selinux := true

def sampleKey : Key := { line := "ssh-ed25519 AAAA", keyType := "ssh-ed25519", keyBlob := "AAAA" }

def sampleScript : List Moment := [{}, {}, {}, { verdict := .failed }]

/-- `systemctl is-enabled` -/
def enablement {γ : Type} : Option (Service γ) → String
  | none => "not-found"
  | some v => if v.enabled then "enabled" else "disabled"

theorem rolled_back_sample :
    rollback.result (List.replicate 12 {}) ((applyConfig sampleKey "1000:1000").after sampleScript sampleHost.setup) =
        .ok () ∧
      Restored sampleHost
        (rollback.after (List.replicate 12 {}) ((applyConfig sampleKey "1000:1000").after sampleScript sampleHost.setup)) :=
  rolled_back sampleHost sampleKey "1000:1000" sampleScript (List.replicate 12 {}) (.failure 69 "operation-failed") rfl
    (supplied_replicate (G := Good) (m := {}) rfl 12)

/-- Installed packages stay: what was not found is disabled afterwards. -/
theorem package_stays : enablement sampleHost.sshd = "not-found" ∧
    (applyConfig sampleKey "1000:1000").result sampleScript sampleHost.setup = .error (.failure 69 "operation-failed") ∧
    enablement (rollback.after (List.replicate 12 {})
      ((applyConfig sampleKey "1000:1000").after sampleScript sampleHost.setup)).sshd = "disabled" :=
  ⟨rfl, rfl, rfl⟩

end Hermes.SshSetup

import Hermes.SimpleAttempt
import Hermes.SimpleGuard

/- What a rollback of the simple installer leaves behind.

   A recovery brings every recorded file back, the application data of a deployment before
   from its backup, and removes the account that a first installation has made, with its
   data and a credential that it stored (`Outcome`). An account that was there before keeps
   the data directory and the credential of the attempt: the host is then not as the attempt
   has found it, and the next attempt is refused. -/
namespace Hermes.Simple
open Process

variable {α : Type}

/-! Recovery. -/

section Recovery

variable {st : State}

variable {bef : Option Before}

/-- A recovery of `st` in its course. -/
def Recovering (st : State) (bef : Option Before) (s : Session) : Prop :=
  s.state = st ∧ Open s ∧ s.host.before = bef ∧ Accounted s

theorem Recovering.plain {s : Session} (hs : Recovering st bef s) {f : Host → Host}
    (hp : Plain f s.host) : Recovering st bef (s.onHost f) :=
  ⟨hs.1, hs.2.1, hp.before.trans hs.2.2.1, hs.2.2.2.plain hp⟩

theorem Recovering.timeless : Timeless (Recovering st bef) :=
  fun _ _ hs => hs.plain ⟨rfl, rfl, rfl, rfl, rfl, rfl⟩

/-- An effect that journal and memory account for, of which the attempt is known. -/
theorem Recovering.effect {s : Session} (hs : Recovering st bef s) {f : Host → Host}
    (hb : (f s.host).before = s.host.before) (hj : (f s.host).journal = s.host.journal)
    (hf : ∀ a, bef = some a → Accounts a st s.host → ∀ x, Accounts a x s.host →
      x.previous = st.previous → Accounts a x (f s.host)) : Recovering st bef (s.onHost f) := by
  obtain ⟨hst, hopen, hbef, hacc⟩ := hs
  refine ⟨hst, hopen, hb.trans hbef, hacc.effect hopen hb hj (fun a x ha hx hprev _ => ?_)⟩
  apply hf a (hbef.symm.trans ha)
  · rw [← hst]; exact (hacc a ha).1
  · exact hx
  · rw [← hst]; exact hprev

variable {name : String} {can : Host → Bool} {effect : Moment → Host → Host}

theorem command_recovering (hp : ∀ m h, Plain (effect m) h) :
    Keeps (Recovering st bef) (command name can effect) :=
  command_triple Recovering.timeless (fun m s hs _ => hs.plain (hp m s.host))
    (fun _ _ => id) (fun _ m s hs _ => hs.plain (hp m s.host))

theorem commandAllowed_recovering (hp : ∀ m h, Plain (effect m) h) :
    Keeps (Recovering st bef) (commandAllowed name can effect) :=
  commandAllowed_triple Recovering.timeless (fun _ hs => hs)
    (fun m s hs _ => hs.plain (hp m s.host)) (fun _ _ => id)
    (fun _ m s hs _ => hs.plain (hp m s.host))

theorem user_recovering (hp : ∀ m h, Plain (effect m) h) :
    Keeps (Recovering st bef) (user can effect) :=
  user_triple Recovering.timeless (fun m s hs _ => hs.plain (hp m s.host))
    (fun _ _ => id) (fun _ m s hs _ => hs.plain (hp m s.host))

theorem userAllowed_recovering (hp : ∀ m h, Plain (effect m) h) :
    Keeps (Recovering st bef) (userAllowed effect) :=
  userAllowed_triple Recovering.timeless (fun _ hs => hs)
    (fun m s hs => hs.plain (hp m s.host)) (fun _ _ => id)
    (fun _ m s hs => hs.plain (hp m s.host))

theorem field_recovering {value : State → Option α} : Keeps (Recovering st bef) (field value) :=
  (field_triple (fun _ _ => id)).post (fun _ _ hs => hs.2)

/-- A recorded file goes back to what it was. -/
theorem restoreFile_recovering {record : Path × Option File} (hr : record ∈ st.files) :
    Keeps (Recovering st bef) (restoreFile record) := by
  have hback : ∀ s, Recovering st bef s →
      Recovering st bef (s.onHost (·.setFile record.1 record.2)) := by
    intro s hs
    apply hs.effect rfl rfl
    intro a _ hst x hx _
    exact hx.setFile _ (.inr (hst.records record hr))
  refine Keeps.bind (protect_triple Recovering.timeless (fun _ _ => id)) (fun _ => ?_)
  split
  · next hnone =>
    rw [hnone] at hback
    exact change_triple Recovering.timeless (fun _ => hback) (fun _ _ => id) (fun _ _ => hback)
  · next file hsome =>
    rw [hsome] at hback
    exact writeFile_triple Recovering.timeless hback (fun _ _ => id) (fun _ => hback)

/-- The backup is restored only if it has the recorded digest. -/
theorem restoreRecorded_recovering : Keeps (Recovering st bef) (restoreRecorded st.backup) := by
  cases hb : st.backup with
  | none => exact Triple.pure' (fun _ => id)
  | some backup =>
    refine Keeps.bind (output_keeps Recovering.timeless) (fun archive => ?_)
    refine Triple.bind (Triple.read (Q := fun a s => a.state = st ∧ Recovering st bef s)
      (fun s hs => ⟨hs.1, hs⟩)) (fun a => Triple.given (fun s hs => hs.1) (fun ha => ?_))
    rw [ha]
    cases hsha : st.backupSha256 with
    | none => exact Triple.raise (fun _ hs => hs.2)
    | some sha =>
      refine Triple.bind (Q := fun _ s => digest archive = sha ∧ Recovering st bef s)
        (check_triple (fun hc s hs => ⟨of_decide_eq_true hc, hs.2⟩) (fun _ _ hs => hs.2))
        (fun _ => Triple.given (fun s hs => hs.1) (fun harchive => ?_))
      have hset : ∀ s, Recovering st bef s →
          Recovering st bef (s.onHost fun h => { h with data := some archive }) := by
        intro s hs
        refine hs.effect (f := fun h => { h with data := some archive }) rfl rfl
          (fun a _ hst x hx _ => ?_)
        -- the archive is what the attempt found, or empty where it found nothing
        have hfound : archive = a.data.getD "" := by
          have hrecorded := hst.backup backup hb
          rw [hsha, ← harchive] at hrecorded
          exact congrArg Digest.preimage (Option.some.inj hrecorded)
        refine hx.setData ?_ ?_ (fun _ _ => ?_)
        · rfl
        · rfl
        · cases hd : a.data with
          | none => right; exact ⟨rfl, by rw [hfound, hd]; rfl⟩
          | some d => left; rw [hfound, hd]; rfl
      exact (user_triple Recovering.timeless (fun _ s hs _ => hset s hs) (fun _ _ hs => hs)
        (fun _ _ s hs _ => hset s hs)).pre (fun s hs => hs.2)

theorem restartPrevious_recovering (config : Config) :
    Keeps (Recovering st bef) (restartPrevious config) := by
  refine Keeps.bind (Triple.read (fun _ => id)) (fun s => ?_)
  refine Keeps.bind (onlyIf_keeps (command_recovering (fun _ _ => ⟨rfl, rfl, rfl, rfl, rfl, rfl⟩)))
    (fun _ => ?_)
  refine Keeps.bind field_recovering (fun uid => ?_)
  refine Keeps.bind (command_recovering (fun _ => plain_id)) (fun _ => ?_)
  refine Keeps.bind (user_recovering (fun _ => plain_id)) (fun _ => ?_)
  refine Keeps.bind (user_recovering (fun _ _ => ⟨rfl, rfl, rfl, rfl, rfl, rfl⟩)) (fun _ => ?_)
  exact Keeps.bind (waitRounds_keeps Recovering.timeless config 36)
    (fun _ => healthy_keeps Recovering.timeless config true)

/-- With the account of a first installation its data go, and a credential that it announced. -/
theorem removeAccount_recovering (hp : st.previous = none) :
    Keeps (Recovering st bef) removeAccount := by
  have hdata : ∀ s, Recovering st bef s → Recovering st bef (s.onHost fun h =>
      { h with
        account := none
        data := none }) := by
    intro s hs
    refine hs.effect rfl rfl (fun a _ _ x hx hprev => ?_)
    refine hx.setData ?_ ?_ (fun hsome _ => ?_)
    · rfl
    · rfl
    · rw [hprev, hp] at hsome
      cases hsome
  refine Keeps.bind (userAllowed_recovering (fun _ _ => ⟨rfl, rfl, rfl, rfl, rfl, rfl⟩)) (fun _ => ?_)
  refine Keeps.bind (userAllowed_recovering (fun _ => plain_id)) (fun _ => ?_)
  refine Keeps.bind (command_recovering (fun _ => plain_id)) (fun _ => ?_)
  refine Keeps.bind field_recovering (fun uid => ?_)
  refine Keeps.bind (commandAllowed_recovering (fun _ => plain_id)) (fun _ => ?_)
  refine Keeps.bind (command_triple Recovering.timeless (fun _ s hs _ => hdata s hs) (fun _ _ => id)
    (fun _ _ s hs _ => hdata s hs)) (fun _ => ?_)
  refine Triple.bind (Triple.read (Q := fun a s => a.state = st ∧ Recovering st bef s)
    (fun s hs => ⟨hs.1, hs⟩)) (fun a => Triple.given (fun s hs => hs.1) (fun ha => ?_))
  refine Triple.bind (Q := fun _ => Recovering st bef) ?_ (fun _ => ?_)
  · refine onlyIf_triple (fun hcreated => ?_) (fun _ _ hs => hs.2)
    rw [ha] at hcreated
    have hkey : ∀ s, Recovering st bef s →
        Recovering st bef (s.onHost fun h => { h with key := none }) :=
      fun s hs => hs.effect (f := fun h => { h with key := none }) rfl rfl
        (fun a _ hst x hx _ => hx.removeKey (hst.created hcreated))
    exact (change_triple Recovering.timeless (fun _ => hkey) (fun _ _ => id)
      (fun _ _ => hkey)).pre (fun s hs => hs.2)
  · exact change_triple Recovering.timeless
      (fun _ _ hs => hs.plain ⟨rfl, rfl, rfl, rfl, rfl, rfl⟩) (fun _ _ => id)
      (fun _ _ _ hs => hs.plain ⟨rfl, rfl, rfl, rfl, rfl, rfl⟩)

theorem undo_recovering (st : State) (bef : Option Before) : Keeps (Recovering st bef) undo := by
  refine Triple.bind (Triple.read (Q := fun a s => a.state = st ∧ Recovering st bef s)
    (fun s hs => ⟨hs.1, hs⟩)) (fun a => Triple.given (fun s hs => hs.1) (fun ha => ?_))
  rw [ha]
  refine Triple.pre (?_ : Keeps (Recovering st bef) _) (fun _ hs => hs.2)
  refine Keeps.bind (onlyIf_keeps (userAllowed_recovering
    (fun _ _ => ⟨rfl, rfl, rfl, rfl, rfl, rfl⟩))) (fun _ => ?_)
  refine Keeps.bind restoreRecorded_recovering (fun _ => ?_)
  refine Keeps.bind (Keeps.forEach _ (fun record hr => restoreFile_recovering (by simpa using hr)))
    (fun _ => ?_)
  refine Keeps.bind (command_recovering (fun _ => plain_id)) (fun _ => ?_)
  refine Keeps.bind (commandAllowed_recovering
    (fun _ _ => ⟨rfl, rfl, rfl, rfl, rfl, rfl⟩)) (fun _ => ?_)
  refine Keeps.bind (command_recovering (fun _ => plain_id)) (fun _ => ?_)
  refine Keeps.bind (command_recovering (fun _ => plain_id)) (fun _ => ?_)
  split
  · next previous _ => exact restartPrevious_recovering previous
  · next hp => exact onlyIf_keeps (removeAccount_recovering hp)

end Recovery

/-! What a recovery leaves. -/

section Outcomes

/-- Files, data and credential are those of `h`. -/
structure Leaves (st : State) (u : Option Undone) (h : Host) (s : Session) : Prop where
  state : s.state = st
  undone : s.host.undone = u
  files : s.host.files = h.files
  data : s.host.data = h.data
  key : s.host.key = h.key

variable {st : State} {u : Option Undone} {h : Host}

/-- Everything else may change. -/
theorem Leaves.other {s : Session} (hs : Leaves st u h s) {f : Host → Host}
    (hf : (f s.host).files = s.host.files) (hd : (f s.host).data = s.host.data)
    (hk : (f s.host).key = s.host.key) (hu : (f s.host).undone = s.host.undone) :
    Leaves st u h (s.onHost f) :=
  ⟨hs.state, hu.trans hs.undone, hf.trans hs.files, hd.trans hs.data, hk.trans hs.key⟩

theorem Leaves.timeless : Timeless (Leaves st u h) := fun _ _ hs => hs.other rfl rfl rfl rfl

/-- Whatever happens where the recovery does not come to its end. -/
def Anything (_ : Exc) (_ : Session) : Prop := True

variable {name : String} {can : Host → Bool} {effect : Moment → Host → Host}

theorem command_leaves (hp : ∀ m h, Plain (effect m) h) :
    Triple (Leaves st u h) (command name can effect) (fun _ => Leaves st u h) Anything :=
  command_triple Leaves.timeless
    (fun m s hs _ => hs.other (hp m s.host).files (hp m s.host).data (hp m s.host).key
      (hp m s.host).undone) (fun _ _ _ => trivial) (fun _ _ _ _ _ => trivial)

theorem commandAllowed_leaves (hp : ∀ m h, Plain (effect m) h) :
    Triple (Leaves st u h) (commandAllowed name can effect) (fun _ => Leaves st u h) Anything :=
  commandAllowed_triple Leaves.timeless (fun _ hs => hs)
    (fun m s hs _ => hs.other (hp m s.host).files (hp m s.host).data (hp m s.host).key
      (hp m s.host).undone) (fun _ _ _ => trivial) (fun _ _ _ _ _ => trivial)

theorem user_leaves (hp : ∀ m h, Plain (effect m) h) :
    Triple (Leaves st u h) (user can effect) (fun _ => Leaves st u h) Anything :=
  user_triple Leaves.timeless
    (fun m s hs _ => hs.other (hp m s.host).files (hp m s.host).data (hp m s.host).key
      (hp m s.host).undone) (fun _ _ _ => trivial) (fun _ _ _ _ _ => trivial)

theorem userAllowed_leaves (hp : ∀ m h, Plain (effect m) h) :
    Triple (Leaves st u h) (userAllowed effect) (fun _ => Leaves st u h) Anything :=
  userAllowed_triple Leaves.timeless (fun _ hs => hs)
    (fun m s hs => hs.other (hp m s.host).files (hp m s.host).data (hp m s.host).key
      (hp m s.host).undone) (fun _ _ _ => trivial) (fun _ _ _ _ => trivial)

theorem looks_leaves {x : Action α} (hx : Keeps (Leaves st u h) x) :
    Triple (Leaves st u h) x (fun _ => Leaves st u h) Anything :=
  hx.mono (fun _ => id) (fun _ _ => id) (fun _ _ _ => trivial)

theorem read_leaves : Triple (Leaves st u h) (Proc.read : Action Session)
    (fun a s => a.state = st ∧ Leaves st u h s) Anything :=
  Triple.read (fun _ hs => ⟨hs.state, hs⟩)

theorem field_leaves {value : State → Option α} :
    Triple (Leaves st u h) (field value) (fun _ => Leaves st u h) Anything :=
  (field_triple (fun _ _ _ => trivial)).post (fun _ _ hs => hs.2)

/-- The data come back as the attempt found them, empty where it found none. -/
theorem restoreRecorded_leaves {a : Before} (hacc : Accounts a st h) :
    Triple (Leaves st u h) (restoreRecorded st.backup)
      (fun _ => Leaves st u
        { h with data := if st.backup.isSome then some (a.data.getD "") else h.data }) Anything := by
  cases hb : st.backup with
  | none => exact Triple.pure' (fun _ hs => ⟨hs.state, hs.undone, hs.files, hs.data, hs.key⟩)
  | some backup =>
    refine Triple.bind (looks_leaves (output_keeps Leaves.timeless)) (fun archive => ?_)
    refine Triple.bind read_leaves (fun b => Triple.given (fun s hs => hs.1) (fun hst => ?_))
    rw [hst, hacc.backup backup hb]
    refine Triple.bind (Q := fun _ s => archive = a.data.getD "" ∧ Leaves st u h s)
      (check_triple ?_ (fun _ _ _ => trivial)) (fun _ => Triple.given (fun s hs => hs.1) (fun hfound => ?_))
    · intro hc s hs
      exact ⟨congrArg Digest.preimage (of_decide_eq_true hc), hs.2⟩
    · refine (user_triple Leaves.timeless ?_ (fun _ _ _ => trivial) (fun _ _ _ _ _ => trivial)).pre
        (fun s hs => hs.2)
      intro _ s hs _
      exact ⟨hs.state, hs.undone, hs.files, by rw [hfound]; rfl, hs.key⟩

/-- The files come back as the attempt found them. -/
theorem restoreFiles_leaves {a : Before} {h' : Host} (hacc : Accounts a st h')
    (hfiles : h.files = h'.files) :
    Triple (Leaves st u h) (Proc.forEach st.files.reverse restoreFile)
      (fun _ => Leaves st u { h with files := a.files }) Anything := by
  let I : List (Path × Option File) → Session → Prop := fun records s =>
    Leaves st u { h with files := s.host.files } s ∧ (∀ f ∈ records, f.2 = a.files f.1) ∧
      ∀ p, (∃ r, (p, r) ∈ records) ∨ s.host.files p = a.files p
  have hback : ∀ record records s, I (record :: records) s →
      I records (s.onHost (·.setFile record.1 record.2)) := by
    intro record records s ⟨hs, hrecords, hrest⟩
    refine ⟨⟨hs.state, hs.undone, rfl, hs.data, hs.key⟩, fun f hf => hrecords f (by simp [hf]), ?_⟩
    intro p
    by_cases hp : p = record.1
    · right
      subst hp
      simp [Session.onHost, Host.setFile, hrecords record (by simp)]
    · cases hrest p with
      | inl h' =>
        obtain ⟨r, hr⟩ := h'
        cases hr with
        | head => exact absurd rfl hp
        | tail _ hr => exact .inl ⟨r, hr⟩
      | inr h' => right; simpa [Session.onHost, Host.setFile, hp] using h'
  have ht : ∀ records, Timeless (I records) :=
    fun _ _ _ hs => ⟨⟨hs.1.state, hs.1.undone, rfl, hs.1.data, hs.1.key⟩, hs.2⟩
  have hstep : ∀ record records, Triple (I (record :: records)) (restoreFile record)
      (fun _ => I records) Anything := by
    intro record records
    refine Triple.bind (protect_triple (ht _) (fun _ _ _ => trivial)) (fun _ => ?_)
    have hrecord := hback record records
    split
    · next hnone =>
      rw [hnone] at hrecord
      exact change_triple (ht _) (fun _ => hrecord) (fun _ _ _ => trivial) (fun _ _ _ _ => trivial)
    · next file hsome =>
      rw [hsome] at hrecord
      exact writeFile_triple (ht _) hrecord (fun _ _ _ => trivial) (fun _ _ _ => trivial)
  refine (Triple.forEach hstep st.files.reverse).mono ?_ ?_ (fun _ _ => id)
  · intro s hs
    refine ⟨⟨hs.state, hs.undone, rfl, hs.data, hs.key⟩, ?_, ?_⟩
    · intro f hf
      exact hacc.records f (by simpa using hf)
    · intro p
      rw [hs.files, hfiles]
      cases hacc.files p with
      | inl h' => obtain ⟨r, hr⟩ := h'; exact .inl ⟨r, by simpa using hr⟩
      | inr h' => exact .inr h'
  · intro _ s hs
    refine ⟨hs.1.state, hs.1.undone, ?_, hs.1.data, hs.1.key⟩
    funext p
    cases hs.2.2 p with
    | inl h' => obtain ⟨_, hr⟩ := h'; cases hr
    | inr h' => exact h'

/-- The deployment before starts again on what the recovery has left. -/
theorem restartPrevious_leaves (config : Config) :
    Triple (Leaves st u h) (restartPrevious config) (fun _ => Leaves st u h) Anything := by
  refine Triple.bind (read_leaves.post (fun _ _ hs => hs.2)) (fun s => ?_)
  refine Triple.bind (Q := fun _ => Leaves st u h) (onlyIf_triple (fun _ => ?_) (fun _ _ hs => hs))
    (fun _ => ?_)
  · exact command_leaves (fun _ _ => ⟨rfl, rfl, rfl, rfl, rfl, rfl⟩)
  refine Triple.bind field_leaves (fun uid => ?_)
  refine Triple.bind (command_leaves (fun _ => plain_id)) (fun _ => ?_)
  refine Triple.bind (user_leaves (fun _ => plain_id)) (fun _ => ?_)
  refine Triple.bind (user_leaves (fun _ _ => ⟨rfl, rfl, rfl, rfl, rfl, rfl⟩)) (fun _ => ?_)
  refine Triple.bind (looks_leaves (waitRounds_keeps Leaves.timeless config 36)) (fun _ => ?_)
  exact looks_leaves (healthy_keeps Leaves.timeless config true)

/-- The data of the account go, and the credential that the attempt announced. -/
theorem removeAccount_leaves :
    Triple (Leaves st u h) removeAccount
      (fun _ => Leaves st u { h with
        data := none
        key := if st.createdCredential then none else h.key }) Anything := by
  refine Triple.bind (userAllowed_leaves (fun _ _ => ⟨rfl, rfl, rfl, rfl, rfl, rfl⟩)) (fun _ => ?_)
  refine Triple.bind (userAllowed_leaves (fun _ => plain_id)) (fun _ => ?_)
  refine Triple.bind (command_leaves (fun _ => plain_id)) (fun _ => ?_)
  refine Triple.bind field_leaves (fun uid => ?_)
  refine Triple.bind (commandAllowed_leaves (fun _ => plain_id)) (fun _ => ?_)
  refine Triple.bind (Q := fun _ => Leaves st u { h with data := none })
    (command_triple Leaves.timeless ?_ (fun _ _ _ => trivial) (fun _ _ _ _ _ => trivial)) (fun _ => ?_)
  · intro _ s hs _
    exact ⟨hs.state, hs.undone, hs.files, rfl, hs.key⟩
  refine Triple.bind read_leaves (fun b => Triple.given (fun s hs => hs.1) (fun hst => ?_))
  rw [hst]
  refine Triple.bind (Q := fun _ => Leaves st u
    { h with
      data := none
      key := if st.createdCredential then none else h.key }) (onlyIf_triple (fun hc => ?_) ?_) (fun _ => ?_)
  · rw [if_pos hc]
    refine (change_triple Leaves.timeless ?_ (fun _ _ _ => trivial) (fun _ _ _ _ => trivial)).pre
      (fun s hs => hs.2)
    intro _ s hs
    exact ⟨hs.state, hs.undone, hs.files, hs.data, rfl⟩
  · intro hc s hs
    rw [hc]
    exact hs.2
  · exact change_triple Leaves.timeless (fun _ _ hs => hs.other rfl rfl rfl rfl)
      (fun _ _ _ => trivial) (fun _ _ _ _ => trivial)

/-- Everything that a recovery leaves. -/
theorem undo_leaves {a : Before} (hacc : Accounts a st h) {u : Undone} (hst : u.state = st)
    (hdata : u.data = h.data) (hkey : u.key = h.key) :
    Triple (Leaves st (some u) h) undo
      (fun _ s => s.state = st ∧ s.host.undone = some u ∧ Outcome a u s.host) Anything := by
  refine Triple.bind read_leaves (fun b => Triple.given (fun s hs => hs.1) (fun hb => ?_))
  rw [hb]
  refine Triple.bind (Q := fun _ => Leaves st (some u) h)
    ((onlyIf_triple (fun _ => ?_) (fun _ _ hs => hs)).pre (fun s hs => hs.2)) (fun _ => ?_)
  · exact userAllowed_leaves (fun _ _ => ⟨rfl, rfl, rfl, rfl, rfl, rfl⟩)
  refine Triple.bind (restoreRecorded_leaves hacc) (fun _ => ?_)
  refine Triple.bind (restoreFiles_leaves hacc rfl) (fun _ => ?_)
  refine Triple.bind (command_leaves (fun _ => plain_id)) (fun _ => ?_)
  refine Triple.bind (commandAllowed_leaves (fun _ _ => ⟨rfl, rfl, rfl, rfl, rfl, rfl⟩)) (fun _ => ?_)
  refine Triple.bind (command_leaves (fun _ => plain_id)) (fun _ => ?_)
  refine Triple.bind (command_leaves (fun _ => plain_id)) (fun _ => ?_)
  -- without a removal, data and credential stay as they are now
  have hstays : ∀ s, u.removes = false →
      Leaves st (some u) { h with
        files := a.files
        data := if st.backup.isSome then some (a.data.getD "") else h.data } s →
      s.state = st ∧ s.host.undone = some u ∧ Outcome a u s.host := by
    intro s hno hs
    refine ⟨hs.state, hs.undone, hs.files, ?_, ?_⟩
    · rw [hs.data, hno, hst, hdata]
      rfl
    · rw [hs.key, hno, hkey]
      rfl
  cases hp : st.previous with
  | some c =>
    apply (restartPrevious_leaves c).post
    intro _ s hs
    exact hstays s (by simp [Undone.removes, hst, hp]) hs
  | none =>
    refine onlyIf_triple (fun hcreated => ?_) (fun hnot s hs => ?_)
    · apply removeAccount_leaves.post
      intro _ s hs
      have hremoves : u.removes = true := by simp [Undone.removes, hst, hp, hcreated]
      refine ⟨hs.state, hs.undone, hs.files, ?_, ?_⟩
      · rw [hs.data, hremoves]
        rfl
      · rw [hs.key, hremoves, hst, hkey]
        rfl
    · exact hstays s (by simp [Undone.removes, hst, hnot]) hs

end Outcomes

/-- A recovery accounts for the attempt until its end, and says then what it has undone. -/
theorem recover_accounted : Keeps Accounted recover := by
  refine Triple.start (fun s₀ h₀ => ?_)
  refine Triple.bind (Triple.read (Q := fun a s => a = s₀ ∧ s = s₀) (fun _ hs => ⟨hs, hs⟩))
    (fun a => Triple.given (fun s hs => hs.1) (fun ha => ?_))
  rw [ha]
  refine Triple.ite (fun _ => Triple.pure' (fun _ hs => by rw [hs.2]; exact h₀)) (fun hnot => ?_)
  have hopen : Open s₀ := by
    intro hphase
    rw [hphase] at hnot
    exact hnot rfl
  refine Triple.bind (Triple.update (Q := fun _ s => s = s₀.beginRecovery)
    (fun s hs => by rw [hs.2])) (fun _ => ?_)
  have hbegin : Recovering s₀.state s₀.host.before s₀.beginRecovery := by
    refine ⟨rfl, hopen, rfl, fun b hb => ?_⟩
    obtain ⟨hm, st, hj, hacc, _, hprev, hlink⟩ := h₀ b hb
    exact ⟨hm.host rfl rfl rfl, st, hj, hacc.host rfl rfl rfl,
      settled_of_open (fun h => hopen (hlink h)), hprev, hlink⟩
  -- what is left, if the attempt is one that was watched from its beginning
  let Left : Session → Prop := fun s => Recovering s₀.state s₀.host.before s ∧
    ∀ b, s₀.host.before = some b →
      s.host.undone = some ⟨s₀.state, s₀.host.key, s₀.host.data⟩ ∧
      Outcome b ⟨s₀.state, s₀.host.key, s₀.host.data⟩ s.host
  have hundo : Triple (fun s => s = s₀.beginRecovery) undo (fun _ => Left) (fun _ => Accounted) := by
    have hkeeps := (undo_recovering s₀.state s₀.host.before).pre
      (fun s (hs : s = s₀.beginRecovery) => by rw [hs]; exact hbegin)
    cases hbef : s₀.host.before with
    | none =>
      exact hkeeps.mono (fun _ => id) (fun _ _ hs => ⟨hs, fun b hb => by rw [hbef] at hb; cases hb⟩)
        (fun _ _ hs => hs.2.2.2)
    | some b =>
      have hleaves := undo_leaves (h₀ b hbef).1 (u := ⟨s₀.state, s₀.host.key, s₀.host.data⟩) rfl rfl rfl
      refine (hkeeps.conj (hleaves.pre (fun s (hs : s = s₀.beginRecovery) => ?_))).mono
        (fun _ => id) ?_ (fun _ _ hs => hs.1.2.2.2)
      · rw [hs]
        exact ⟨rfl, rfl, rfl, rfl, rfl⟩
      · intro _ s hs
        refine ⟨hs.1, fun x hx => ?_⟩
        rw [hbef] at hx
        cases hx
        exact hs.2.2
  refine Triple.bind hundo (fun _ => ?_)
  have hplain : ∀ {f : Host → Host} (s : Session), Left s → Plain f s.host → Left (s.onHost f) := by
    intro f s hs hp
    refine ⟨hs.1.plain hp, fun b hb => ?_⟩
    obtain ⟨hu, hout⟩ := hs.2 b hb
    exact ⟨hp.undone.trans hu, hp.files.trans hout.files, hp.data.trans hout.data,
      hp.key.trans hout.key⟩
  have ht : Timeless Left :=
    fun units s hs => hplain (f := fun h => h.elapse units) s hs ⟨rfl, rfl, rfl, rfl, rfl, rfl⟩
  refine Triple.bind (Q := fun _ => Left) ?_ (fun _ => ?_)
  · refine Triple.bind (Triple.read (Q := fun _ => Left) (fun _ => id)) (fun b => ?_)
    cases b.state.guard with
    | none => exact Triple.pure' (fun _ => id)
    | some unit =>
      have hstop : ∀ s, Left s → Left (s.onHost fun h => h.stopTimer unit) :=
        fun s hs => hplain (f := fun h => h.stopTimer unit) s hs ⟨rfl, rfl, rfl, rfl, rfl, rfl⟩
      exact commandAllowed_triple ht (fun _ => id) (fun _ s hs _ => hstop s hs)
        (fun _ _ hs => hs.1.2.2.2) (fun _ _ s hs _ => (hstop s hs).1.2.2.2)
  · have hwritten : ∀ s, Accounted s ∧ (∀ b, s.host.before = some b → Settled b s.state s.host) →
        Accounted (s.onHost fun h => id { h with journal := some s.state }) := by
      intro s hs b hb
      have hacc := (hs.1 b hb).1.host (g := { s.host with journal := some s.state }) rfl rfl rfl
      exact ⟨hacc, s.state, rfl, hacc, (hs.2 b hb).host rfl rfl rfl rfl, rfl, id⟩
    refine save_triple (R := fun s => Accounted s ∧
      ∀ b, s.host.before = some b → Settled b s.state s.host) ?_ ?_ hwritten (fun _ _ hs => hs.1)
      (fun _ => hwritten)
    · intro units s hs
      exact ⟨Accounted.timeless units s hs.1, fun b hb => (hs.2 b hb).host rfl rfl rfl rfl⟩
    · intro s ⟨⟨hst, _, hbef, hacc⟩, hout⟩
      constructor
      · intro b hb
        obtain ⟨hm, st, hj, hacc', hset, hprev, _⟩ := hacc b hb
        refine ⟨hm.journal rfl rfl rfl rfl rfl ?_, st, hj, hacc', hset, hprev, fun _ => rfl⟩
        intro hl
        cases hl with
        | inl h => cases h
        | inr h => cases h
      · intro b hb _
        obtain ⟨hu, hleft⟩ := hout b (hbef.symm.trans hb)
        exact ⟨_, s₀.host, hu, hleft, (h₀ b (hbef.symm.trans hb)).1, rfl, rfl⟩


theorem orRecover_accounted {x : Action α} {P : Session → Prop}
    (hx : Triple P x (fun _ => Accounted) (fun _ => Accounted)) :
    Triple P (orRecover x) (fun _ => Accounted) (fun _ => Accounted) := by
  apply Triple.handle hx
  intro e
  apply Triple.ite
  · intro _
    exact Triple.raise (fun _ => id)
  · intro _
    exact Triple.bind recover_accounted (fun _ => Triple.raise (fun _ => id))

/-! The requests. -/

section Requests

variable {k : Facts} {T : Path → Prop}

/-- A new phase, with what it says about the backup. -/
theorem Synced.phase {s : Session} (hs : Synced k T s) {k' : Facts} (phase : Phase)
    (hopen : phase ≠ .rolledBack)
    (hl : k s.state.phase s.state.previous s.state.backup →
      phase = .awaitingAccess ∨ phase = .accessConfirmed →
      s.state.previous.isSome = true → s.state.backup.isSome = true)
    (hk : k s.state.phase s.state.previous s.state.backup →
      k' (some phase) s.state.previous s.state.backup) :
    Drafted k' T (s.onState fun st => { st with phase := (some phase).or st.phase }) := by
  apply hs.draft rfl (fun h => hopen (Option.some.inj h))
  · intro a _ hacc hfacts
    refine ⟨hacc.journal rfl rfl rfl rfl rfl (fun h => hl hfacts ?_), hk hfacts⟩
    cases h with
    | inl h => exact .inl (Option.some.inj h)
    | inr h => exact .inr (Option.some.inj h)
  · exact fun _ _ h => h
  · exact fun _ h => h

theorem prepareHost_sync (config : Config) (key : Option String) (previous : Option Config) :
    Triple (Synced (unbacked previous) T) (prepareHost config key previous)
      (fun _ => Synced anyFacts T) (fun _ => Accounted) := by
  refine Triple.bind (command_sync (fun _ => plain_id)) (fun _ => ?_)
  refine Triple.bind (commandAllowed_sync (fun _ => plain_id)) (fun _ => ?_)
  refine Triple.bind save_again (fun _ => Triple.bind (command_sync (fun _ => plain_id)) (fun _ => ?_))
  refine Triple.bind identity_sync (fun _ => Triple.bind (credentials_sync key) (fun _ => ?_))
  refine Triple.bind (user_sync (fun _ => plain_id)) (fun _ => ?_)
  refine Triple.bind userOutput_sync (fun _ => Triple.bind check_sync (fun _ => ?_))
  refine Triple.bind (Q := fun _ => Synced backed T) (onlyIf_triple (fun hp => ?_) ?_) (fun _ => ?_)
  · refine Triple.bind (user_sync (fun _ _ => ⟨rfl, rfl, rfl, rfl, rfl, rfl⟩)) (fun _ => ?_)
    exact snapshot_sync hp
  · intro hp s hs
    apply hs.weaken
    · intro _ pv _ hk hsome
      rw [hk.1, hp] at hsome
      cases hsome
    · exact fun _ h => h
  refine Triple.bind configureAccess_sync (fun _ => save_sync ?_)
  intro s hs
  exact hs.phase .awaitingAccess (by decide) (fun hk _ => hk) (fun _ => trivial)

/-- What the host and the new journal say when the attempt begins. -/
def Beginning (previous : Option Config) (s : Session) : Prop :=
  (previous = none → s.host.data = none) ∧ s.state.previous = previous ∧ s.state.files = [] ∧
  s.state.createdCredential = false ∧ s.state.backup = none

theorem Beginning.synced {previous : Option Config} {s : Session} (hs : Beginning previous s)
    (hphase : s.state.phase = some .preparing) :
    Synced (unbacked previous) noFiles
      (s.onHost fun h => Host.begin { h with journal := some s.state }) := by
  obtain ⟨hdata, hprevious, hfiles, hcreated, hbackup⟩ := hs
  have hacc : Accounts ⟨s.host.key, s.host.data, s.host.files⟩ s.state
      (Host.begin { s.host with journal := some s.state }) := by
    refine ⟨fun p => .inr rfl, ?_, fun _ => rfl, .inl rfl, ?_, ?_, fun _ _ => .inl rfl, ?_, ?_⟩
    · intro f hf
      rw [hfiles] at hf
      cases hf
    · intro h
      rw [hcreated] at h
      cases h
    · intro h
      exact ⟨hdata (hprevious.symm.trans h), hbackup⟩
    · intro id h
      rw [hbackup] at h
      cases h
    · intro h
      rw [hphase] at h
      cases h with
      | inl h => cases h
      | inr h => cases h
  have hopen : s.state.phase ≠ some .rolledBack := by
    rw [hphase]
    simp
  refine ⟨⟨?_, hopen, ?_⟩, fun _ _ => rfl⟩
  · intro a ha
    cases ha
    exact ⟨hacc, s.state, rfl, hacc, settled_of_open hopen, rfl, id⟩
  · intro a _
    exact ⟨⟨hprevious, hbackup⟩, fun _ hp => hp.elim⟩

theorem attempt_kept (config : Config) (files : Payload) (key : Option String)
    (previous : Option Config) :
    Triple (fun s => Kept s.host ∧ (previous = none → s.host.data = none))
      (attempt config files key previous) (fun _ s => Kept s.host) (fun _ s => Kept s.host) := by
  have hplain : ∀ {f : Host → Host} (s : Session), Kept s.host ∧ (previous = none → s.host.data = none) →
      Plain f s.host → Kept (f s.host) ∧ (previous = none → (f s.host).data = none) :=
    fun s hs hp => ⟨hs.1.plain hp, fun h => by rw [hp.data]; exact hs.2 h⟩
  have ht : Timeless (fun s => Kept s.host ∧ (previous = none → s.host.data = none)) :=
    fun units s hs => hplain (f := fun h => h.elapse units) s hs ⟨rfl, rfl, rfl, rfl, rfl, rfl⟩
  have hE : ∀ {x : Action Answer} {P : Session → Prop},
      Triple P x (fun _ => Accounted) (fun _ => Accounted) →
      Triple P x (fun _ s => Kept s.host) (fun _ s => Kept s.host) :=
    fun hx => hx.mono (fun _ => id) (fun _ _ hs => hs.kept) (fun _ _ hs => hs.kept)
  refine Triple.bind ((installPayload_keeps ht
    (fun g s hs => hplain (f := fun h => { h with library := g h }) s hs
      ⟨rfl, rfl, rfl, rfl, rfl, rfl⟩) files).mono (fun _ => id) (fun _ _ => id)
    (fun _ _ hs => hs.1)) (fun _ => ?_)
  refine Triple.bind (look_triple ht (fun _ _ hs => hs.1)) (fun m => ?_)
  refine Triple.bind (Triple.update (Q := fun _ s => Kept s.host ∧ Beginning previous s) ?_)
    (fun _ => ?_)
  · intro s hs
    exact ⟨hs.1, hs.2, rfl, rfl, rfl, rfl⟩
  -- the journal of the attempt before is replaced
  refine Triple.bind (Q := fun _ => Synced (unbacked previous) noFiles)
    (save_triple (R := fun s => Kept s.host ∧ Beginning previous s ∧
      s.state.phase = some .preparing) ?_ ?_ ?_ (fun _ _ hs => hs.1) ?_) (fun _ => ?_)
  · intro units s hs
    exact ⟨hs.1.plain (f := fun h => h.elapse units) ⟨rfl, rfl, rfl, rfl, rfl, rfl⟩, hs.2⟩
  · intro s hs
    exact ⟨hs.1, hs.2, rfl⟩
  · intro s hs
    exact hs.2.1.synced hs.2.2
  · intro _ s hs
    exact (hs.2.1.synced hs.2.2).accounted.kept
  apply hE
  refine Triple.bind setupRecovery_sync (fun _ => Triple.bind (arm_sync 1200) (fun _ => ?_))
  apply orRecover_accounted
  refine Triple.bind (prepareHost_sync config key previous) (fun _ => ?_)
  refine Triple.bind disarm_sync (fun _ => Triple.bind (arm_sync 120) (fun _ => ?_))
  exact Triple.bind field_sync (fun _ => Triple.pure' (fun _ hs => hs.accounted))

/-- What `prepare` has checked of the data. -/
theorem admit_accounted (key : Option String) (previous : Option Config) :
    Triple Accounted (admissible key previous)
      (fun _ s => Accounted s ∧ (previous = none → s.host.data = none)) (fun _ => Accounted) := by
  refine Triple.bind (Triple.read (Q := fun a s => a = s ∧ Accounted s) (fun _ hs => ⟨rfl, hs⟩))
    (fun a => ?_)
  refine Triple.bind (Q := fun _ s => Accounted s ∧ (previous = none → s.host.data = none))
    (onlyIf_triple (fun _ => check_triple ?_ (fun _ _ hs => hs.2)) ?_) (fun _ => ?_)
  · intro hnone s hs
    rw [hs.1] at hnone
    exact ⟨hs.2, fun _ => by simpa using hnone⟩
  · intro hsome s hs
    refine ⟨hs.2, fun h => ?_⟩
    rw [h] at hsome
    cases hsome
  refine Triple.bind (Q := fun _ s => Accounted s ∧ (previous = none → s.host.data = none))
    (check_triple (fun _ _ hs => hs) (fun _ _ hs => hs.1)) (fun _ => ?_)
  exact onlyIf_triple (fun _ => Triple.raise (fun _ hs => hs.1)) (fun _ _ hs => hs)

theorem prepare_kept (config : Config) (files : Payload) (key : Option String) :
    Triple Accounted (prepare config files key) (fun _ s => Kept s.host) (fun _ s => Kept s.host) := by
  have hE : ∀ {β : Type} {x : Action β} {P : Session → Prop} {Q : β → Session → Prop},
      Triple P x Q (fun _ => Accounted) → Triple P x Q (fun _ s => Kept s.host) :=
    fun hx => hx.mono (fun _ => id) (fun _ _ => id) (fun _ _ hs => hs.kept)
  refine Triple.bind (hE (preflight_keeps Accounted.timeless config)) (fun _ => ?_)
  refine Triple.bind (Triple.read (Q := fun _ => Accounted) (fun _ => id)) (fun a => ?_)
  refine Triple.bind (hE (onlyIf_keeps recover_accounted)) (fun _ => ?_)
  refine Triple.bind (Triple.read (Q := fun _ => Accounted) (fun _ => id)) (fun b => ?_)
  apply Triple.ite
  · intro _
    exact Triple.bind (hE (healthy_keeps Accounted.timeless config true))
      (fun _ => Triple.pure' (fun _ hs => hs.kept))
  · intro _
    exact Triple.bind ((hE (admit_accounted key _)).post (fun _ _ hs => ⟨hs.1.kept, hs.2⟩))
      (fun _ => attempt_kept config files key _)

/-- The journal is loaded. -/
def Loaded (s : Session) : Prop :=
  Accounted s ∧ ∀ a, s.host.before = some a → s.host.journal = some s.state

theorem Loaded.timeless : Timeless Loaded :=
  fun units s hs => ⟨Accounted.timeless units s hs.1, hs.2⟩

/-- What a loaded journal says in a phase in which the attempt is open. -/
theorem Loaded.synced {s : Session} (hs : Loaded s) {phase : Phase} (hphase : s.state.phase = some phase)
    (hopen : phase ≠ .rolledBack) {k : Facts}
    (hk : ∀ a, Accounts a s.state s.host → k s.state.phase s.state.previous s.state.backup) :
    Synced k noFiles s := by
  refine ⟨⟨hs.1, ?_, fun a ha => ⟨hk a (hs.1 a ha).1, fun _ h => h.elim⟩⟩, hs.2⟩
  intro h
  rw [hphase] at h
  exact hopen (Option.some.inj h)

theorem read_loaded : Triple Loaded (Proc.read : Action Session) (fun a s => a = s ∧ Loaded s)
    (fun _ => Accounted) :=
  Triple.read (fun _ hs => ⟨rfl, hs⟩)

theorem confirmAccess_accounted (config : Config) :
    Triple Loaded (confirmAccess config) (fun _ => Accounted)
      (fun _ => Accounted) := by
  refine Triple.bind read_loaded (fun a => ?_)
  refine Triple.bind (Q := fun _ => Synced backed noFiles)
    (check_triple ?_ (fun _ _ hs => hs.2.1)) (fun _ => ?_)
  · intro hphase s ⟨has, hs⟩
    subst has
    have hwaiting : a.state.phase = some .awaitingAccess := of_decide_eq_true hphase
    exact hs.synced hwaiting (by decide) (fun b hacc => hacc.late (.inl hwaiting))
  refine Triple.bind (looks_sync (preflight_keeps Synced.timeless config)) (fun _ => ?_)
  refine Triple.bind (Q := fun _ => Synced anyFacts noFiles) (save_sync ?_) (fun _ => ?_)
  · intro s hs
    exact hs.phase .accessConfirmed (by decide) (fun hk _ => hk) (fun _ => trivial)
  refine Triple.bind disarm_sync (fun _ => Triple.bind (arm_sync 600) (fun _ => ?_))
  exact Triple.pure' (fun _ hs => hs.accounted)

theorem deploy_accounted (config : Config) :
    Triple Loaded (deploy config) (fun _ => Accounted) (fun _ => Accounted) := by
  refine Triple.bind read_loaded (fun a => ?_)
  refine Triple.bind (Q := fun _ => Synced backed noFiles)
    (check_triple ?_ (fun _ _ hs => hs.2.1)) (fun _ => ?_)
  · intro hphase s ⟨has, hs⟩
    subst has
    have hconfirmed : a.state.phase = some .accessConfirmed := of_decide_eq_true hphase
    exact hs.synced hconfirmed (by decide) (fun b hacc => hacc.late (.inr hconfirmed))
  apply orRecover_accounted
  refine Triple.bind (Q := fun _ => Synced backed noFiles) (save_sync ?_) (fun _ => ?_)
  · intro s hs
    exact hs.phase .installing (by decide) (fun hk _ => hk) id
  refine Triple.bind runtime_sync (fun _ => ?_)
  refine Triple.bind (Q := fun _ => Synced backed noFiles) (save_sync ?_) (fun _ => ?_)
  · intro s hs
    exact hs.phase .closed (by decide) (fun hk _ => hk) id
  exact Triple.bind disarm_sync (fun _ => Triple.pure' (fun _ hs => hs.accounted))

theorem rollback_accounted :
    Triple Loaded rollback (fun _ => Accounted) (fun _ => Accounted) := by
  refine Triple.bind read_loaded (fun a => ?_)
  refine Triple.bind (Q := fun _ => Synced anyFacts noFiles)
    (check_triple ?_ (fun _ _ hs => hs.2.1)) (fun _ => ?_)
  · intro hphase s ⟨has, hs⟩
    subst has
    simp only [Bool.and_eq_true, decide_eq_true_eq] at hphase
    exact hs.synced hphase.1 (by decide) (fun _ _ => trivial)
  refine Triple.bind (Q := fun _ => Synced anyFacts noFiles)
    (save_noted (fun h => (⟨rfl, rfl, rfl, rfl, rfl, rfl⟩ : Plain Host.reopen h)) ?_) (fun _ => ?_)
  · intro s hs
    apply hs.phase .rollingBack (by decide)
    · intro _ h
      cases h with
      | inl h => cases h
      | inr h => cases h
    · exact fun _ => trivial
  refine Triple.bind (arm_sync 600) (fun _ => ?_)
  refine Triple.bind (recover_accounted.pre (fun _ hs => hs.accounted)) (fun _ => ?_)
  exact Triple.pure' (fun _ => id)

theorem dispatchLocked_kept (request : Request) :
    Triple Loaded (dispatchLocked request) (fun _ s => Kept s.host)
      (fun _ s => Kept s.host) := by
  have hE : ∀ {x : Action Answer}, Triple Loaded x (fun _ => Accounted)
      (fun _ => Accounted) → Triple Loaded x (fun _ s => Kept s.host)
      (fun _ s => Kept s.host) :=
    fun hx => hx.mono (fun _ => id) (fun _ _ hs => hs.kept) (fun _ _ hs => hs.kept)
  have hbound : ∀ config token, Triple Loaded (bound config token)
      (fun _ => Loaded) (fun _ => Accounted) :=
    fun config token => (bound_keeps config token).mono (fun _ => id) (fun _ _ => id) (fun _ _ hs => hs.1)
  cases request with
  | check config => exact Triple.raise (fun _ hs => hs.1.kept)
  | status => exact Triple.raise (fun _ hs => hs.1.kept)
  | recover =>
    exact hE (Triple.bind (recover_accounted.pre (fun _ hs => hs.1))
      (fun _ => Triple.pure' (fun _ => id)))
  | rollback => exact hE rollback_accounted
  | prepare config files key =>
    exact (prepare_kept config files key).pre (fun _ hs => hs.1)
  | confirmAccess config token =>
    exact hE (Triple.bind (hbound config token) (fun _ => confirmAccess_accounted config))
  | deploy config token =>
    exact hE (Triple.bind (hbound config token) (fun _ => deploy_accounted config))

theorem takeLock_keeps {I : Session → Prop} (byTimer : Bool)
    (hI : ∀ s, I s → I (s.onHost fun h =>
      { h with watch := if byTimer then h.watch.taken else h.watch })) :
    Keeps I (takeLock byTimer) := by
  refine Triple.perform (fun _ hs => hs) ?_
  intro m s hs r s' hr
  split at hr
  · cases hr
    exact hI s hs
  · split at hr <;> cases hr <;> exact hs

/-- Every process keeps the account of the attempt, wherever it ends. -/
theorem invoke_kept (byTimer : Bool) (request : Request) : Keeps Kept (invoke byTimer request) := by
  have ht : Timeless (fun s : Session => Kept s.host) :=
    fun units _ hs => hs.plain (f := fun h => h.elapse units) ⟨rfl, rfl, rfl, rfl, rfl, rfl⟩
  have hprotect : Keeps (fun s : Session => Kept s.host) protect :=
    protect_triple ht (fun _ _ => id)
  have hlocked : Keeps (fun s : Session => Kept s.host) (do
      protect
      takeLock byTimer
      Proc.update fun s => { s with state := s.host.journal.getD {} }
      dispatchLocked request) := by
    refine Keeps.bind hprotect (fun _ => ?_)
    refine Keeps.bind (takeLock_keeps byTimer (fun s hs => ?_)) (fun _ => ?_)
    · exact hs.plain (f := fun h => { h with watch := if byTimer then h.watch.taken else h.watch })
        ⟨rfl, rfl, rfl, rfl, rfl, rfl⟩
    refine Triple.bind (Triple.update (Q := fun _ => Loaded) ?_)
      (fun _ => dispatchLocked_kept request)
    intro s hs
    constructor
    · intro a ha
      obtain ⟨st, hj, hacc, hset⟩ := hs a ha
      show Accounts a (s.host.journal.getD {}) s.host ∧ _
      rw [hj]
      exact ⟨hacc, st, rfl, hacc, hset, rfl, id⟩
    · intro a ha
      obtain ⟨st, hj, _⟩ := hs a ha
      show s.host.journal = some (s.host.journal.getD {})
      rw [hj]
      rfl
  have hdispatch : Keeps (fun s : Session => Kept s.host) (dispatch byTimer request) := by
    cases request with
    | check config =>
      exact Keeps.bind (preflight_keeps ht config) (fun _ => Triple.pure' (fun _ => id))
    | status => exact Keeps.bind hprotect (fun _ => status_keeps ht)
    | recover => exact hlocked
    | rollback => exact hlocked
    | prepare config files key => exact hlocked
    | confirmAccess config token => exact hlocked
    | deploy config token => exact hlocked
  refine Triple.start (fun h hk => ?_)
  exact Triple.zoom h (I := fun s => Kept s.host) hdispatch
    (fun s hs => ⟨hs, by rw [hs]; exact hk⟩) (fun _ _ hs => hs) (fun _ _ hs => hs)

end Requests

/-! A host that is rolled back. -/

/-- The host as the attempt found it. -/
def Host.found (h : Host) (a : Before) : Host :=
  { h with
    key := a.key
    data := a.data
    files := a.files }

/-- Credential, data directory and files are as the attempt found them, and what `prepare`
    accepted then it accepts again. -/
def Retryable (a : Before) (h : Host) : Prop :=
  (h.key = a.key ∧ h.data = a.data ∧ h.files = a.files) ∧
  ∀ key t, (admissible key h.state.previous).result t ⟨h.found a, h.state⟩ = .ok () →
    (admissible key h.state.deployment).result t ⟨h, h.state⟩ = .ok ()

/-- The recovery that found `u` was one of an attempt that has made the account itself, or
    has made neither the data directory nor the credential. -/
def Undone.traceless (u : Undone) (a : Before) : Prop :=
  u.removes = true ∨
  ((u.data.isSome = true ∨ u.state.backup.isSome = true → a.data.isSome = true) ∧
    (u.key.isSome = true → a.key.isSome = true))

theorem key_restored {a : Before} {u : Undone} {h x : Host} (hout : Outcome a u h)
    (hacc : Accounts a u.state x) (hkey : x.key = u.key) :
    h.key = a.key ↔ u.removes = true ∨ (u.key.isSome = true → a.key.isSome = true) := by
  rw [hout.key]
  cases hr : u.removes with
  | true =>
    refine ⟨fun _ => .inl rfl, fun _ => ?_⟩
    cases hc : u.state.createdCredential with
    | true => exact (hacc.created hc).symm
    | false =>
      cases hacc.credential with
      | inl h' => exact hkey.symm.trans h'
      | inr h' => rw [hc] at h'; cases h'
  | false =>
    constructor
    · intro h'
      right
      intro hsome
      rw [← h']
      exact hsome
    · intro h'
      show u.key = a.key
      cases hk : a.key with
      | some k => rw [← hkey, ← hk]; exact hacc.key (by rw [hk]; rfl)
      | none =>
        cases hu : u.key with
        | none => rfl
        | some k =>
          cases h' with
          | inl h' => cases h'
          | inr h' => rw [hk] at h'; cases h' (by rw [hu]; rfl)

theorem data_restored {a : Before} {u : Undone} {h x : Host} (hout : Outcome a u h)
    (hacc : Accounts a u.state x) (hdata : x.data = u.data) :
    h.data = a.data ↔ u.removes = true ∨
      (u.data.isSome = true ∨ u.state.backup.isSome = true → a.data.isSome = true) := by
  rw [hout.data]
  cases hr : u.removes with
  | true =>
    refine ⟨fun _ => .inl rfl, fun _ => ?_⟩
    have hprevious : u.state.previous = none := by
      simp only [Undone.removes, Bool.and_eq_true, Option.isNone_iff_eq_none] at hr
      exact hr.1
    exact (hacc.fresh hprevious).1.symm
  | false =>
    cases hb : u.state.backup with
    | some backup =>
      constructor
      · intro h'
        right
        intro _
        rw [← h']
        rfl
      · intro h'
        cases h' with
        | inl h' => cases h'
        | inr h' =>
          obtain ⟨d, hd⟩ := Option.isSome_iff_exists.mp (h' (.inr rfl))
          rw [hd]
          rfl
    | none =>
      constructor
      · intro h'
        right
        intro hsome
        cases hsome with
        | inl hsome => rw [← h']; exact hsome
        | inr hsome => cases hsome
      · intro h'
        show u.data = a.data
        -- nothing was created, so what is there was found
        have hnone : a.data = none → u.data = none := by
          intro ha
          cases hu : u.data with
          | none => rfl
          | some d =>
            cases h' with
            | inl h' => cases h'
            | inr h' => rw [ha] at h'; cases h' (.inl (by rw [hu]; rfl))
        cases hp : u.state.previous with
        | none => rw [(hacc.fresh hp).1, hnone (hacc.fresh hp).1]
        | some c =>
          cases hacc.kept (by rw [hp]; rfl) hb with
          | inl hk => exact hdata.symm.trans hk
          | inr hk => rw [hk.1, hnone hk.1]

/-- Where a rolled-back host is as it was found, the next attempt is accepted as the first was. -/
theorem retryable_iff {a : Before} {u : Undone} {h x : Host} (hphase : h.state.phase = some .rolledBack)
    (hout : Outcome a u h) (hacc : Accounts a u.state x) (hkey : x.key = u.key)
    (hdata : x.data = u.data) : Retryable a h ↔ u.traceless a := by
  have hk := key_restored hout hacc hkey
  have hd := data_restored hout hacc hdata
  constructor
  · intro hr
    have hk' := hk.mp hr.1.1
    have hd' := hd.mp hr.1.2.1
    cases hk' with
    | inl h' => exact .inl h'
    | inr hk' =>
      cases hd' with
      | inl h' => exact .inl h'
      | inr hd' => exact .inr ⟨hd', hk'⟩
  · intro ht
    have hkey' : h.key = a.key := hk.mpr (ht.imp_right (fun h' => h'.2))
    have hdata' : h.data = a.data := hd.mpr (ht.imp_right (fun h' => h'.1))
    refine ⟨⟨hkey', hdata', hout.files⟩, fun key t haccepted => ?_⟩
    have hsame : h.found a = h := by
      unfold Host.found
      rw [← hkey', ← hdata', ← hout.files]
    have hprevious : h.state.deployment = h.state.previous := by
      unfold State.deployment
      rw [hphase]
      rfl
    rw [hsame] at haccepted
    rw [hprevious]
    exact haccepted

theorem Next.kept {h h' : Host} (hn : Next h h') (hk : Kept h) : Kept h' := by
  cases hn with
  | serve request t => exact (invoke_kept false request).after hk
  | fire unit t _ =>
    exact (invoke_kept _ .recover).after
      (hk.plain (f := fun h => h.elapse [unit]) ⟨rfl, rfl, rfl, rfl, rfl, rfl⟩)

theorem kept_of_run {h₀ h : Host} (hk : Kept h₀) (hr : Relation.ReflTransGen Next h₀ h) :
    Kept h := by
  induction hr with
  | refl => exact hk
  | tail _ hn ih => exact hn.kept ih

/-- A course of events in which one operation fails. -/
def failingScript (n : Nat) : List Moment :=
  List.replicate n sampleMoment ++ [{ sampleMoment with verdict := .failed }] ++
    List.replicate 120 sampleMoment

/-- A first installation whose `podman pull` fails: `prepare` has recovered by itself. -/
def pulledBack (h : Host) (n : Nat) : Host :=
  (invoke false (.prepare sampleConfig samplePayload (some "key"))).after (failingScript n) h

/-- The same on a host that has an account `hermes`, but neither its data nor a credential. -/
def accountHost : Host := { cleanHost with account := some ⟨1000, "/home/hermes"⟩ }

end Hermes.Simple

import Mathlib.Data.List.Nodup
import Mathlib.Data.List.Count
import Hermes.Outside
import Hermes.Text

/- The snapshots that a controller keeps (`retain_backups` in `gates.py`, `finish` in
   `controller.py`). What it has recorded is at every moment what it has told restic to forget,
   followed by the history (`run_kept`), so nothing is lost and nothing forgotten twice. -/
namespace Hermes.Retention

/-! ## The code -/

structure Config where
  credentialSocket : String
  backupRepository : String
  backupPasswordFile : String

/-- The fields of the controller's state that `finish` reads. -/
structure State where
  lease : Option String := none
  previousLease : Option String := none
  /-- `state["backup"]["snapshot"]` -/
  backup : Option String := none
  backupHistory : Option (List String) := none
  deriving DecidableEq, Repr

/-- What the credential broker and restic answer. -/
structure Outside where
  revoke : String → Except Exc Unit
  restic : List String → Except Exc Unit

/-- The state as it is on disk, and the restic commands that have been run. -/
structure Controller where
  disk : State
  commands : List (List String)
  deriving DecidableEq, Repr

/-- `restic … forget -- expired` -/
def forgetCommand (config : Config) (expired : List String) : List String :=
  ["restic", "--no-cache", "--repo", config.backupRepository, "--password-file", config.backupPasswordFile,
    "forget", "--"] ++ expired

def isSnapshot (item : String) : Bool := isHex 8 64 item

/-- `history[-8:]` -/
def lastEight (history : List String) : List String := history.drop (history.length - 8)

/-- `item in keep` -/
def keeps (history : List String) (current item : String) : Bool :=
  (lastEight history).contains item || item == current

def retainBackups (config : Config) (o : Outside) (history : List String) (current : String)
    (commands : List (List String)) : Except Exc (List String) × List (List String) :=
  if !history.all isSnapshot then (.error (.failure 78 "invalid-backup-history"), commands)
  else if !history.contains current then (.error (.failure 78 "rollback-snapshot-not-in-history"), commands)
  else
    let history := history.eraseDups
    let expired := history.filter fun item => !keeps history current item
    let kept := history.filter (keeps history current)
    if expired.isEmpty then (.ok kept, commands)
    else
      let command := forgetCommand config expired
      ((o.restic command).map fun _ => kept, commands ++ [command])

/-- The lease of the release before is revoked, and the state without it written. -/
def revokePrevious (o : Outside) (c : Controller) : Except Exc Unit × Controller :=
  match c.disk.previousLease with
  | none => (.ok (), c)
  | some previous =>
    if previous = "" ∨ c.disk.lease = some previous then (.ok (), c)
    else
      match o.revoke previous with
      | .error e => (.error e, c)
      | .ok _ => (.ok (), { c with disk := { c.disk with previousLease := none } })

/-- `history.append(snapshot)` where it is not there. -/
def record (history : List String) (snapshot : String) : List String :=
  if history.contains snapshot then history else history ++ [snapshot]

/-- The part of `finish` about backups. -/
def retain (config : Config) (o : Outside) (c : Controller) : Except Exc Unit × Controller :=
  match c.disk.backup with
  | none => (.ok (), c)
  | some snapshot =>
    match retainBackups config o (record (c.disk.backupHistory.getD []) snapshot) snapshot c.commands with
    | (.error e, commands) => (.error e, { c with commands })
    | (.ok kept, commands) => (.ok (), { disk := { c.disk with backupHistory := some kept }, commands })

def finish (config : Config) (o : Outside) (c : Controller) : Except Exc Unit × Controller :=
  match revokePrevious o c with
  | (.error e, c) => (.error e, c)
  | (.ok _, c) => retain config o c

/-! ## Runs -/

def Controller.history (c : Controller) : List String := c.disk.backupHistory.getD []

/-- The arguments of every `forget` so far. -/
def Controller.forgotten (c : Controller) : List String := c.commands.flatMap (List.drop 8)

/-- What the rest of the controller does between two finishes: other leases and a backup. -/
def Controller.prepare (c : Controller) (lease previous backup : Option String) : Controller :=
  { c with disk := { c.disk with lease := lease, previousLease := previous, backup := backup } }

/-- Finishes one after another from an empty history: the snapshots in the order in which each
    was first recorded, the one that the last finish named, and what has come of them. A finish
    names a new snapshot, one of the history, or none; one that raises has not been refused by
    restic. -/
inductive Run (config : Config) : List String → Option String → Controller → Prop
  | start (disk : State) (hempty : disk.backupHistory.getD [] = []) : Run config [] none ⟨disk, []⟩
  | finished {recorded last c c'} (o : Outside) (lease previous : Option String) (snapshot : String)
      (hrun : Run config recorded last c) (hrestic : ∀ command, o.restic command = .ok ())
      (hname : snapshot ∉ recorded ∨ snapshot ∈ c.history)
      (hfinish : finish config o (c.prepare lease previous (some snapshot)) = (.ok (), c')) :
      Run config (record recorded snapshot) (some snapshot) c'
  | without {recorded last c c'} (o : Outside) (lease previous : Option String) {result}
      (hrun : Run config recorded last c)
      (hfinish : finish config o (c.prepare lease previous none) = (result, c')) : Run config recorded last c'
  | raised {recorded last c c'} (o : Outside) (lease previous backup : Option String) {e}
      (hrun : Run config recorded last c) (hrestic : ∀ command, o.restic command = .ok ())
      (hfinish : finish config o (c.prepare lease previous backup) = (.error e, c')) : Run config recorded last c'

/-! ## One finish -/

theorem eraseDups_of_nodup {l : List String} (h : l.Nodup) : l.eraseDups = l := by
  induction l with
  | nil => rfl
  | cons a l ih =>
    obtain ⟨ha, hl⟩ := List.nodup_cons.mp h
    have hfilter : l.filter (fun b => !b == a) = l := by
      refine List.filter_eq_self.mpr fun b hb => ?_
      have hne : b ≠ a := fun he => ha (he ▸ hb)
      simpa using hne
    rw [List.eraseDups_cons, hfilter, ih hl]

/-- Elements without repetition after which nothing is kept that is not kept before. -/
theorem filter_drop {l : List String} (h : l.Nodup) (k : Nat) :
    l.filter (fun x => (l.drop k).contains x) = l.drop k ∧ l.filter (fun x => !(l.drop k).contains x) = l.take k := by
  have happ : (l.take k ++ l.drop k).Nodup := by rwa [List.take_append_drop]
  obtain ⟨_, _, hdisjoint⟩ := List.nodup_append.mp happ
  have htake : ∀ x ∈ l.take k, x ∉ l.drop k := fun x hx hx' => hdisjoint x hx x hx' rfl
  constructor
  · calc l.filter (fun x => (l.drop k).contains x)
        = (l.take k ++ l.drop k).filter (fun x => (l.drop k).contains x) := by rw [List.take_append_drop]
      _ = l.drop k := by
        rw [List.filter_append, List.filter_eq_nil_iff.mpr (by simpa using htake), List.nil_append]
        exact List.filter_eq_self.mpr (by simp)
  · calc l.filter (fun x => !(l.drop k).contains x)
        = (l.take k ++ l.drop k).filter (fun x => !(l.drop k).contains x) := by rw [List.take_append_drop]
      _ = l.take k := by
        have hnone : (l.drop k).filter (fun x => !(l.drop k).contains x) = [] := List.filter_eq_nil_iff.mpr (by simp)
        rw [List.filter_append, hnone, List.append_nil]
        exact List.filter_eq_self.mpr (by simpa using htake)

/-- A history with the current snapshot among its last eight. -/
theorem retainBackups_ok {config : Config} {o : Outside} {history kept : List String} {current : String}
    {commands commands' : List (List String)} (hnodup : history.Nodup) (hcurrent : current ∈ lastEight history)
    (h : retainBackups config o history current commands = (.ok kept, commands')) :
    kept = lastEight history ∧
      commands'.flatMap (List.drop 8) = commands.flatMap (List.drop 8) ++ history.take (history.length - 8) := by
  have hkeeps : keeps history current = fun item => (lastEight history).contains item := by
    funext item
    by_cases hitem : item = current
    · simp [keeps, hitem, hcurrent]
    · simp [keeps, hitem]
  obtain ⟨hkept, hexpired⟩ := filter_drop hnodup (history.length - 8)
  unfold retainBackups at h
  simp only [eraseDups_of_nodup hnodup, hkeeps, lastEight, hkept, hexpired] at h
  split at h
  · cases h
  · split at h
    · cases h
    · split at h
      · next hnone =>
        cases h
        simp only [List.isEmpty_iff] at hnone
        simp [lastEight, hnone]
      · cases hrestic : o.restic (forgetCommand config (history.take (history.length - 8))) with
        | error e => simp [hrestic, Except.map] at h
        | ok u =>
          simp only [hrestic, Except.map, Prod.mk.injEq, Except.ok.injEq] at h
          obtain ⟨rfl, rfl⟩ := h
          exact ⟨rfl, by simp [forgetCommand]⟩

/-- Where restic does what it is told, an error is from before. -/
theorem retainBackups_error {config : Config} {o : Outside} {history : List String} {current : String} {e : Exc}
    {commands commands' : List (List String)} (hrestic : ∀ command, o.restic command = .ok ())
    (h : retainBackups config o history current commands = (.error e, commands')) : commands' = commands := by
  unfold retainBackups at h
  simp only [hrestic, Except.map] at h
  split at h
  · cases h
    rfl
  · split at h
    · cases h
      rfl
    · split at h
      · cases h
      · cases h

/-- A finish that revokes a lease, or cannot, leaves the history alone. -/
theorem revokePrevious_history {o : Outside} {c c' : Controller} {r : Except Exc Unit}
    (h : revokePrevious o c = (r, c')) :
    c'.history = c.history ∧ c'.commands = c.commands ∧ c'.disk.backup = c.disk.backup := by
  unfold revokePrevious at h
  split at h
  · cases h
    exact ⟨rfl, rfl, rfl⟩
  · split at h
    · cases h
      exact ⟨rfl, rfl, rfl⟩
    · split at h
      · cases h
        exact ⟨rfl, rfl, rfl⟩
      · cases h
        exact ⟨rfl, rfl, rfl⟩

/-- What a finish can do: nothing to the history, or what `retain_backups` says. -/
theorem finish_cases {config : Config} {o : Outside} {c c' : Controller} {r : Except Exc Unit}
    (h : finish config o c = (r, c')) :
    (c'.history = c.history ∧ c'.commands = c.commands ∧ (r = .ok () → c.disk.backup = none)) ∨
      ∃ snapshot, c.disk.backup = some snapshot ∧
        ((∃ e, r = .error e ∧ c'.history = c.history ∧
          retainBackups config o (record c.history snapshot) snapshot c.commands = (.error e, c'.commands)) ∨
        (r = .ok () ∧ retainBackups config o (record c.history snapshot) snapshot c.commands =
          (.ok c'.history, c'.commands))) := by
  unfold finish at h
  cases hrevoke : revokePrevious o c with
  | mk r₁ c₁ =>
    obtain ⟨hhistory, hcommands, hbackup⟩ := revokePrevious_history hrevoke
    rw [hrevoke] at h
    cases r₁ with
    | error e =>
      cases h
      exact Or.inl ⟨hhistory, hcommands, nofun⟩
    | ok u =>
      simp only [retain] at h
      rw [hbackup] at h
      cases hb : c.disk.backup with
      | none =>
        simp only [hb] at h
        cases h
        exact Or.inl ⟨hhistory, hcommands, fun _ => rfl⟩
      | some snapshot =>
        simp only [hb] at h
        refine Or.inr ⟨snapshot, rfl, ?_⟩
        have hread : c₁.disk.backupHistory.getD [] = c.history := hhistory
        rw [hread, hcommands] at h
        cases hretain : retainBackups config o (record c.history snapshot) snapshot c.commands with
        | mk r₂ commands =>
          rw [hretain] at h
          cases r₂ with
          | error e =>
            cases h
            exact Or.inl ⟨e, rfl, hhistory, rfl⟩
          | ok kept =>
            cases h
            exact Or.inr ⟨rfl, rfl⟩

/-! ## Any number of finishes -/

/-- The snapshots recorded are those forgotten, in that order, and the last eight. -/
structure Kept (recorded : List String) (last : Option String) (c : Controller) : Prop where
  nodup : recorded.Nodup
  history : c.history = lastEight recorded
  forgotten : c.forgotten = recorded.take (recorded.length - 8)
  last : ∀ snapshot, last = some snapshot → snapshot ∈ c.history

theorem lastEight_short {l : List String} (h : l.length ≤ 8) : lastEight l = l := by
  rw [lastEight, Nat.sub_eq_zero_of_le h, List.drop_zero]

theorem length_lastEight (l : List String) : (lastEight l).length ≤ 8 := by
  rw [lastEight, List.length_drop]
  omega

/-- Another snapshot at the end drops the one that was eighth before. -/
theorem lastEight_append (l : List String) (snapshot : String) :
    lastEight (lastEight l ++ [snapshot]) = lastEight (l ++ [snapshot]) ∧
      l.take (l.length - 8) ++ (lastEight l ++ [snapshot]).take ((lastEight l ++ [snapshot]).length - 8) =
        (l ++ [snapshot]).take ((l ++ [snapshot]).length - 8) := by
  have hsplit : l.take (l.length - 8) ++ (lastEight l ++ [snapshot]) = l ++ [snapshot] := by
    rw [lastEight, ← List.append_assoc, List.take_append_drop]
  have htake : (l.take (l.length - 8)).length = l.length - 8 := by
    rw [List.length_take]
    omega
  have hlength : (lastEight l ++ [snapshot]).length - 8 + (l.length - 8) = (l ++ [snapshot]).length - 8 := by
    simp only [lastEight, List.length_append, List.length_drop, List.length_singleton]
    omega
  constructor
  · calc lastEight (lastEight l ++ [snapshot])
        = (l.take (l.length - 8) ++ (lastEight l ++ [snapshot])).drop
            ((l.take (l.length - 8)).length + ((lastEight l ++ [snapshot]).length - 8)) := by
          rw [List.drop_length_add_append, lastEight]
      _ = lastEight (l ++ [snapshot]) := by rw [hsplit, htake, Nat.add_comm, hlength, lastEight]
  · calc l.take (l.length - 8) ++ (lastEight l ++ [snapshot]).take ((lastEight l ++ [snapshot]).length - 8)
        = (l.take (l.length - 8) ++ (lastEight l ++ [snapshot])).take
            ((l.take (l.length - 8)).length + ((lastEight l ++ [snapshot]).length - 8)) := by
          rw [List.take_length_add_append]
      _ = _ := by rw [hsplit, htake, Nat.add_comm, hlength]

theorem mem_lastEight_append (l : List String) (snapshot : String) : snapshot ∈ lastEight (l ++ [snapshot]) := by
  have hlength : (l ++ [snapshot]).length - 8 ≤ l.length := by
    rw [List.length_append, List.length_singleton]
    omega
  rw [lastEight, List.drop_append_of_le_length hlength]
  simp

/-- One finish that names a new snapshot or one of the history. -/
theorem finished_kept {config : Config} {o : Outside} {recorded : List String} {last : Option String}
    {c c' : Controller} {lease previous : Option String} {snapshot : String} (hc : Kept recorded last c)
    (hname : snapshot ∉ recorded ∨ snapshot ∈ c.history)
    (h : finish config o (c.prepare lease previous (some snapshot)) = (.ok (), c')) :
    Kept (record recorded snapshot) (some snapshot) c' := by
  rcases finish_cases h with ⟨_, _, hnone⟩ | ⟨_, hbackup, ⟨e, he, _⟩ | ⟨_, hretain⟩⟩
  · cases hnone rfl
  · cases he
  · cases hbackup
    have hhistory : (c.prepare lease previous (some snapshot)).history = c.history := rfl
    have hcommands : (c.prepare lease previous (some snapshot)).commands = c.commands := rfl
    rw [hhistory, hcommands] at hretain
    have hsub : ∀ x ∈ c.history, x ∈ recorded := by
      intro x hx
      rw [hc.history] at hx
      exact List.mem_of_mem_drop hx
    have hnodup : c.history.Nodup := hc.history ▸ hc.nodup.sublist (List.drop_sublist _ _)
    by_cases hmem : snapshot ∈ c.history
    · -- the history has it: at most eight are there and none goes
      have hrecord : record c.history snapshot = c.history := by simp [record, hmem]
      have hrecorded : record recorded snapshot = recorded := by simp [record, hsub snapshot hmem]
      have hshort : c.history.length ≤ 8 := hc.history ▸ length_lastEight recorded
      rw [hrecord] at hretain
      obtain ⟨hkept, hforgotten⟩ := retainBackups_ok hnodup (by rwa [lastEight_short hshort]) hretain
      rw [lastEight_short hshort] at hkept
      rw [Nat.sub_eq_zero_of_le hshort, List.take_zero, List.append_nil] at hforgotten
      rw [hrecorded]
      exact ⟨hc.nodup, hkept.trans hc.history, Eq.trans hforgotten hc.forgotten, fun s hs => by cases hs; rwa [hkept]⟩
    · -- it is new
      have hnew : snapshot ∉ recorded := hname.resolve_right hmem
      have hrecord : record c.history snapshot = lastEight recorded ++ [snapshot] := by
        rw [hc.history] at hmem
        simp [record, hmem, hc.history]
      have hrecorded : record recorded snapshot = recorded ++ [snapshot] := by simp [record, hnew]
      obtain ⟨hlast, htake⟩ := lastEight_append recorded snapshot
      have hnodup' : (lastEight recorded ++ [snapshot]).Nodup := by
        rw [← hc.history]
        exact List.nodup_append.mpr ⟨hnodup, by simp, fun x hx y hy hxy => hmem (by
          rw [List.mem_singleton] at hy
          rwa [← hy, ← hxy])⟩
      rw [hrecord] at hretain
      obtain ⟨hkept, hforgotten⟩ := retainBackups_ok hnodup'
        (by rw [hlast]; exact mem_lastEight_append recorded snapshot) hretain
      rw [hlast] at hkept
      rw [hrecorded]
      refine ⟨?_, hkept, ?_, fun s hs => ?_⟩
      · exact List.nodup_append.mpr ⟨hc.nodup, by simp, fun x hx y hy hxy => hnew (by
          rw [List.mem_singleton] at hy
          rwa [← hy, ← hxy])⟩
      · calc c'.forgotten
            = c.forgotten ++ (lastEight recorded ++ [snapshot]).take ((lastEight recorded ++ [snapshot]).length - 8) :=
              hforgotten
          _ = _ := by rw [hc.forgotten, htake]
      · cases hs
        rw [hkept]
        exact mem_lastEight_append recorded _

/-- A finish that leaves history and commands as they are. -/
theorem Kept.unchanged {recorded : List String} {last : Option String} {c c' : Controller} (hc : Kept recorded last c)
    (hhistory : c'.history = c.history) (hcommands : c'.commands = c.commands) : Kept recorded last c' :=
  ⟨hc.nodup, hhistory.trans hc.history, by rw [Controller.forgotten, hcommands]; exact hc.forgotten,
    fun s hs => hhistory ▸ hc.last s hs⟩

theorem run_kept {config : Config} {recorded : List String} {last : Option String} {c : Controller}
    (h : Run config recorded last c) : Kept recorded last c := by
  induction h with
  | start disk hempty => exact ⟨List.nodup_nil, hempty, rfl, nofun⟩
  | finished o lease previous snapshot _ _ hname hfinish ih => exact finished_kept ih hname hfinish
  | without o lease previous _ hfinish ih =>
    rcases finish_cases hfinish with ⟨hhistory, hcommands, _⟩ | ⟨_, hbackup, _⟩
    · exact ih.unchanged hhistory hcommands
    · cases hbackup
  | raised o lease previous backup _ hrestic hfinish ih =>
    rcases finish_cases hfinish with ⟨hhistory, hcommands, _⟩ | ⟨_, _, ⟨e, _, hhistory, hretain⟩ | ⟨hok, _⟩⟩
    · exact ih.unchanged hhistory hcommands
    · exact ih.unchanged hhistory (retainBackups_error hrestic hretain)
    · cases hok

/-- Forgotten and kept together are all that was recorded. -/
theorem Kept.partition {recorded : List String} {last : Option String} {c : Controller} (hc : Kept recorded last c) :
    c.forgotten ++ c.history = recorded := by
  rw [hc.forgotten, hc.history, lastEight, List.take_append_drop]

/-- What is forgotten on the way from one state to a later one is what the history loses. -/
theorem Kept.dropped {recorded : List String} {last last' : Option String} {snapshot : String} {c c' : Controller}
    (hc : Kept recorded last c) (hc' : Kept (record recorded snapshot) last' c') (hnamed : snapshot ∈ c'.history) :
    ∃ dropped, c'.forgotten = c.forgotten ++ dropped ∧ dropped.Nodup ∧
      ∀ s, s ∈ dropped ↔ s ∈ c.history ∧ s ∉ c'.history := by
  obtain ⟨more, hmore, hnew⟩ : ∃ more, record recorded snapshot = recorded ++ more ∧ ∀ s ∈ more, s = snapshot := by
    unfold record
    split
    · exact ⟨[], by simp, by simp⟩
    · exact ⟨[snapshot], rfl, by simp⟩
  have hforgotten : c'.forgotten = c.forgotten ++ c'.forgotten.drop (recorded.length - 8) := by
    have hle : recorded.length - 8 ≤ (record recorded snapshot).length - 8 := by
      rw [hmore, List.length_append]
      omega
    conv => lhs; rw [← List.take_append_drop (recorded.length - 8) c'.forgotten]
    rw [hc'.forgotten, List.take_take, Nat.min_eq_left hle, hmore, List.take_append_of_le_length (Nat.sub_le _ _),
      ← hc.forgotten]
  -- the two halves of the newer list, beside the older history
  have hparts : c'.forgotten.drop (recorded.length - 8) ++ c'.history = c.history ++ more := by
    suffices hjoin : c.forgotten ++ (c'.forgotten.drop (recorded.length - 8) ++ c'.history) = c.forgotten ++ (c.history ++ more) from
      List.append_cancel_left hjoin
    rw [← List.append_assoc, ← hforgotten, hc'.partition, hmore, ← List.append_assoc, hc.partition]
  have hnodup : (c'.forgotten.drop (recorded.length - 8) ++ c'.history).Nodup := by
    have hall : (c'.forgotten ++ c'.history).Nodup := hc'.partition ▸ hc'.nodup
    rw [hforgotten, List.append_assoc] at hall
    exact hall.sublist (List.sublist_append_right _ _)
  obtain ⟨hdropped, _, hapart⟩ := List.nodup_append.mp hnodup
  refine ⟨_, hforgotten, hdropped, fun s => ⟨fun hs => ?_, fun ⟨hs, hgone⟩ => ?_⟩⟩
  · have hgone : s ∉ c'.history := fun hs' => hapart s hs s hs' rfl
    have hmem : s ∈ c.history ++ more := hparts ▸ List.mem_append_left _ hs
    rcases List.mem_append.mp hmem with hmem | hmem
    · exact ⟨hmem, hgone⟩
    · exact absurd (hnew s hmem ▸ hnamed) hgone
  · have hmem : s ∈ c'.forgotten.drop (recorded.length - 8) ++ c'.history := hparts ▸ List.mem_append_left _ hs
    exact (List.mem_append.mp hmem).resolve_right hgone

/-- Nothing that is needed is lost: what holds of the history after any run. -/
structure NothingLost (config : Config) (recorded : List String) (last : Option String) (c : Controller) : Prop where
  distinct : c.history.Nodup
  atMost : c.history.length ≤ 8
  /-- the last finish's snapshot is there, and otherwise those first recorded last -/
  current : ∀ snapshot, last = some snapshot → snapshot ∈ c.history
  recent : c.history = lastEight recorded
  /-- a snapshot ever recorded is kept and was never forgotten, or was forgotten once -/
  once : ∀ s ∈ recorded, (s ∈ c.history ∧ s ∉ c.forgotten) ∨ (s ∉ c.history ∧ c.forgotten.count s = 1)
  /-- what a further finish forgets is what it drops -/
  dropped : ∀ (o : Outside) lease previous snapshot c', (∀ command, o.restic command = .ok ()) →
    (snapshot ∉ recorded ∨ snapshot ∈ c.history) →
    finish config o (c.prepare lease previous (some snapshot)) = (.ok (), c') →
    ∃ dropped, c'.forgotten = c.forgotten ++ dropped ∧ dropped.Nodup ∧
      ∀ s, s ∈ dropped ↔ s ∈ c.history ∧ s ∉ c'.history

/-- **Retention loses nothing it still needs**, over runs of any length. -/
theorem retention {config : Config} {recorded : List String} {last : Option String} {c : Controller}
    (h : Run config recorded last c) : NothingLost config recorded last c := by
  have hc := run_kept h
  have hnodup : (c.forgotten ++ c.history).Nodup := hc.partition ▸ hc.nodup
  obtain ⟨hforgotten, hhistory, hapart⟩ := List.nodup_append.mp hnodup
  refine ⟨hhistory, hc.history ▸ length_lastEight recorded, hc.last, hc.history, ?_, ?_⟩
  · intro s hs
    rw [← hc.partition] at hs
    rcases List.mem_append.mp hs with hs | hs
    · exact Or.inr ⟨fun hs' => hapart s hs s hs' rfl, List.count_eq_one_of_mem hforgotten hs⟩
    · exact Or.inl ⟨hs, fun hs' => hapart s hs' s hs rfl⟩
  · intro o lease previous snapshot c' hrestic hname hfinish
    have hc' := run_kept (.finished o lease previous snapshot h hrestic hname hfinish)
    exact hc.dropped hc' (hc'.last snapshot rfl)

/-! ## Nine releases -/

def sampleConfig : Config := ⟨"/run/broker", "/repo", "/password"⟩

def sampleOutside : Outside := ⟨fun _ => .ok (), fun _ => .ok ()⟩

/-- The state after a release of each snapshot. -/
def releases (snapshots : List String) : Controller :=
  snapshots.foldl (fun c snapshot => (finish sampleConfig sampleOutside (c.prepare none none (some snapshot))).2) ⟨{}, []⟩

theorem retention_sample : NothingLost sampleConfig ["aaaaaaa0", "aaaaaaa1"] (some "aaaaaaa0")
    (releases ["aaaaaaa0", "aaaaaaa1", "aaaaaaa0"]) :=
  retention (.finished sampleOutside none none "aaaaaaa0"
    (.finished sampleOutside none none "aaaaaaa1"
      (.finished sampleOutside none none "aaaaaaa0" (.start {} rfl) (fun _ => rfl) (Or.inl (by decide)) rfl)
      (fun _ => rfl) (Or.inl (by decide)) rfl)
    (fun _ => rfl) (Or.inr (by decide)) rfl)

example : (releases ["aaaaaaa0", "aaaaaaa1", "aaaaaaa2", "aaaaaaa3", "aaaaaaa4", "aaaaaaa5", "aaaaaaa6", "aaaaaaa7",
    "aaaaaaa2", "aaaaaaa8"]).forgotten = ["aaaaaaa0"] := by decide +kernel

end Hermes.Retention

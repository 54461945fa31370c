import Hermes.TransactionInventory

/- The exceptions of `expected_inventory`: all are ones that `report` turns into a failure,
   but for the `IndexError` of a package path without parts (`escapes_iff`). -/
namespace Hermes.Transaction
open Outcome

/-- What `report` turns into a failure. -/
def reported : Exc → Bool
  | .failure _ _ => true
  | .osError => true
  | .valueError => true
  | .keyError => true
  | .typeError => true
  | _ => false

/-- It ends in an exception that `report` lets pass. -/
def escapes {α : Type} (x : Except Exc α) : Bool := Raises (fun e => !reported e) x

theorem escapes_bind {α β : Type} {x : Except Exc α} {f : α → Except Exc β} (hx : escapes x = false) :
    escapes (x >>= f) = true ↔ ∃ a, x = .ok a ∧ escapes (f a) = true := by
  rw [escapes, raises_bind]
  constructor
  · rintro (h | h)
    · exact absurd (hx.symm.trans h) (by decide)
    · exact h
  · exact Or.inr

theorem not_escapes_bind {α β : Type} {x : Except Exc α} {f : α → Except Exc β} (hx : escapes x = false)
    (hf : ∀ a, escapes (f a) = false) : escapes (x >>= f) = false := by
  rw [← Bool.not_eq_true, escapes_bind hx]
  rintro ⟨a, _, ha⟩
  rw [hf a] at ha
  cases ha

theorem demand_reported (c : Bool) (reason : String) : escapes (demand c reason) = false := by
  cases c <;> rfl

theorem demand_then_reported {α : Type} (c : Bool) (reason : String) (a : α) :
    escapes (demand c reason >>= fun _ => .ok a) = false :=
  not_escapes_bind (demand_reported c reason) fun _ => rfl

theorem actionOf_reported (record : Json) : escapes (actionOf record) = false := by
  unfold actionOf
  split
  · rfl
  · rfl
  · next name _ => cases Action.ofName name <;> rfl
  · rfl

theorem nameVersionRelease_reported (cs : List Char) : escapes (nameVersionRelease cs) = false := by
  unfold nameVersionRelease
  split
  · rfl
  · split
    · rfl
    · split
      · rfl
      · rfl

theorem releaseArch_reported (cs : List Char) : escapes (releaseArch cs) = false := by
  unfold releaseArch
  split
  · rfl
  · split
    · rfl
    · rfl

theorem epochVersion_reported (cs : List Char) : escapes (epochVersion cs) = false := by
  unfold epochVersion
  split
  split
  · rfl
  · rw [escapes, raises_map, parseInt]
    split
    · rfl
    · rfl

theorem normalize_reported (v : Json) : escapes (normalize v) = false := by
  unfold normalize
  split
  · next s =>
    split
    · rw [escapes, raises_map]
      exact not_escapes_bind (nameVersionRelease_reported _) fun _ =>
        not_escapes_bind (releaseArch_reported _) fun _ => not_escapes_bind (epochVersion_reported _) fun _ => rfl
    · rfl
  · rfl

theorem readPackage_reported (s : Scan) (record : Json) : escapes (readPackage s record) = false :=
  not_escapes_bind (demand_reported _ _) fun _ => not_escapes_bind (actionOf_reported _) fun _ =>
    not_escapes_bind (normalize_reported _) fun _ => not_escapes_bind (demand_reported _ _) fun _ => rfl

theorem rawPath_reported (record : Json) : escapes (rawPath record) = false := by
  unfold rawPath
  split
  · split
    · rfl
    · rfl
  · rfl

theorem recordsOf_reported (transaction : Json) : escapes (recordsOf transaction) = false := by
  unfold recordsOf
  split
  · split
    · rfl
    · rfl
  · rfl

theorem normalizeAll_reported (lines : List String) : escapes (normalizeAll lines) = false := by
  induction lines with
  | nil => rfl
  | cons line lines ih => exact not_escapes_bind (normalize_reported _) fun _ => not_escapes_bind ih fun _ => rfl

theorem installedOf_reported (before : String) : escapes (installedOf before) = false := by
  refine not_escapes_bind (demand_reported _ _) fun _ => ?_
  split
  · rfl
  · exact not_escapes_bind (normalizeAll_reported _) fun _ => not_escapes_bind (demand_reported _ _) fun _ => rfl

theorem checkSets_reported (installed : List String) (s : Scan) : escapes (checkSets installed s) = false :=
  not_escapes_bind (demand_reported _ _) fun _ => demand_reported _ _

/-- The first part of a path is asked for where it has none. -/
theorem checkPath_escapes (raw : String) : escapes (checkPath raw) = true ↔ (PurePath.parse raw).parts = [] := by
  simp only [checkPath]
  split
  · next h =>
    refine ⟨fun hescapes => (by cases hescapes), fun hnil => ?_⟩
    have hroot : (PurePath.parse raw).isAbsolute = false := by
      unfold PurePath.parts at hnil
      split at hnil
      · next hr => simp [PurePath.isAbsolute, hr]
      · cases hnil
    simp [hnil, hroot] at h
  · split
    · next hnil => simp [escapes, reported, hnil]
    · next first rest hparts =>
      rw [hparts]
      refine ⟨fun h => ?_, fun hnil => by cases hnil⟩
      split at h
      · cases h
      · cases h

/-- The record is an incoming one whose package path has no parts, such as `.` or `./`. -/
def dotPath (s : Scan) (record : Json) : Bool :=
  match readPackage s record, record.get "package_path" with
  | .ok (action, _), some (.str raw) => action.incoming && raw != "" && (PurePath.parse raw).parts == []
  | _, _ => false

/-- The loop comes to such a record. -/
def meetsDotPath : Scan → List Json → Bool
  | _, [] => false
  | s, record :: records =>
    dotPath s record ||
      match readRecord s record with
      | .ok s' => meetsDotPath s' records
      | .error _ => false

theorem storePath_escapes {s : Scan} {record : Json} {name : String} :
    escapes (storePath s record name) = true ↔
      ∃ raw, record.get "package_path" = some (.str raw) ∧ raw ≠ "" ∧ (PurePath.parse raw).parts = [] := by
  rw [storePath, escapes_bind (rawPath_reported _)]
  have hrest : ∀ raw, escapes (do
      let path ← checkPath raw
      demand (!(s.paths.map Prod.fst).contains path) "duplicate-stored-package-path"
      pure { s with paths := s.paths ++ [(path, name)] } : Except Exc Scan) = true ↔
      (PurePath.parse raw).parts = [] := by
    intro raw
    rw [← checkPath_escapes, escapes, raises_bind]
    constructor
    · rintro (h | ⟨path, _, h⟩)
      · exact h
      · exact absurd ((demand_then_reported _ _ _).symm.trans h) (by decide)
    · exact Or.inl
  constructor
  · rintro ⟨raw, hraw, h⟩
    exact ⟨raw, (rawPath_ok hraw).1, (rawPath_ok hraw).2, (hrest raw).mp h⟩
  · rintro ⟨raw, hraw, hne, h⟩
    exact ⟨raw, by simp [rawPath, hraw, hne], (hrest raw).mpr h⟩

theorem readRecord_escapes {s : Scan} {record : Json} :
    escapes (readRecord s record) = true ↔ dotPath s record = true := by
  rw [readRecord, escapes_bind (readPackage_reported _ _)]
  constructor
  · rintro ⟨⟨a, name⟩, hpackage, h⟩
    cases ha : a.incoming with
    | true =>
      simp only [ha, if_true] at h
      obtain ⟨raw, hraw, hne, hparts⟩ := storePath_escapes.mp h
      simp [dotPath, hpackage, hraw, ha, hne, hparts]
    | false =>
      simp only [ha, Bool.false_eq_true, if_false] at h
      exact absurd ((demand_then_reported _ _ _).symm.trans h) (by decide)
  · intro h
    unfold dotPath at h
    split at h
    · next a name raw hpackage hraw =>
      simp only [Bool.and_eq_true, bne_iff_ne, beq_iff_eq] at h
      refine ⟨(a, name), hpackage, ?_⟩
      simp only [h.1.1, if_true]
      exact storePath_escapes.mpr ⟨raw, hraw, h.1.2, h.2⟩
    · cases h

theorem readRecords_escapes {s : Scan} {records : List Json} :
    escapes (readRecords s records) = true ↔ meetsDotPath s records = true := by
  induction records generalizing s with
  | nil => exact ⟨fun hmeets => (by cases hmeets), fun hrecord => (by cases hrecord)⟩
  | cons record records ih =>
    rw [readRecords, escapes, raises_bind, meetsDotPath, Bool.or_eq_true]
    refine or_congr readRecord_escapes ?_
    cases hrecord : readRecord s record with
    | error e => simp
    | ok s' =>
      simp only [Except.ok.injEq, exists_eq_left']
      exact ih

/-- **Exceptions.** Every exception is one that `report` handles exactly if the loop comes to
    no incoming record with a package path without parts. -/
theorem escapes_iff (transaction : Json) (before : String) :
    escapes (expectedInventory transaction before) = false ↔
      ∀ records installed, recordsOf transaction = .ok records → installedOf before = .ok installed →
        meetsDotPath .empty records = false := by
  rw [← not_iff_not, Bool.not_eq_false, expectedInventory, escapes_bind (recordsOf_reported _)]
  simp only [not_forall, Bool.not_eq_false, exists_prop]
  have hlast : ∀ (installed : List String) (s : Scan), escapes (do
      checkSets installed s
      pure (inventoryText (sortNames (resulting installed s)), s.paths) :
        Except Exc (String × List (String × String))) = false :=
    fun installed s => not_escapes_bind (checkSets_reported _ _) fun _ => rfl
  constructor
  · rintro ⟨records, hrecords, h⟩
    obtain ⟨installed, hinstalled, h⟩ := (escapes_bind (installedOf_reported _)).mp h
    rcases raises_bind.mp h with h | ⟨s, _, h⟩
    · exact ⟨records, installed, hrecords, hinstalled, readRecords_escapes.mp h⟩
    · exact absurd ((hlast installed s).symm.trans h) (by decide)
  · rintro ⟨records, installed, hrecords, hinstalled, h⟩
    exact ⟨records, hrecords, (escapes_bind (installedOf_reported _)).mpr
      ⟨installed, hinstalled, raises_bind.mpr (Or.inl (readRecords_escapes.mpr h))⟩⟩

/-- The path is the directory itself. -/
theorem escapes_sample : escapes (expectedInventory (sampleTransaction ".") sampleBefore) = true := by
  decide +kernel

end Hermes.Transaction

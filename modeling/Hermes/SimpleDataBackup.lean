import Mathlib.Data.List.Pairwise
import Hermes.SimpleDataRestore

/- Which backups of the application's data can be restored: those without hard links whose
   archive is no longer than what `main` reads (`restorable_iff`). `snapshot` bounds the sum
   of the files' sizes; every entry takes at least 1536 bytes more (`archiveLength_ge`). -/
namespace Hermes.SimpleData
open Entries

/-! ## Hard links -/

section Links
variable {accounts : Accounts} {umask : Nat} {t : Data}

/-- Without hard links, no file has been added before under another name. -/
theorem distinct_of_noHardlink {ps : List Path} {total : Nat} {inodes : List (Nat × String)} {records : List Record}
    (hpublic : ∀ p ∈ ps, isPrivate p = false) (h : snapshotFrom accounts t total inodes ps = .ok records)
    (hnone : ∀ r ∈ records, r.type ≠ .hardlink) :
    (∀ p ∈ ps, ∀ i, inodeAt t p = some i → inodes.lookup i = none) ∧
      ps.Pairwise fun p q => ∀ i, inodeAt t p = some i → inodeAt t q ≠ some i := by
  induction ps generalizing total inodes records with
  | nil => exact ⟨fun p hp => absurd hp List.not_mem_nil, List.Pairwise.nil⟩
  | cons p ps ih =>
    rw [snapshotFrom, if_neg (by simp [hpublic p List.mem_cons_self])] at h
    have hpublic' : ∀ q ∈ ps, isPrivate q = false := fun q hq => hpublic q (List.mem_cons_of_mem _ hq)
    split at h
    · next stat hnode =>
      have hinode : ∀ i, inodeAt t p ≠ some i := by
        intro i
        rw [inodeAt, hnode]
        exact Option.some_ne_none i ∘ Eq.symm
      split at h
      · cases h
      · obtain ⟨rest, hrest, rfl⟩ := Outcome.map_eq_ok.mp h
        obtain ⟨hfresh, hpairs⟩ := ih hpublic' hrest fun r hr => hnone r (List.mem_cons_of_mem _ hr)
        refine ⟨fun q hq i hi => ?_, List.pairwise_cons.mpr ⟨fun q _ i hi => absurd hi (hinode i), hpairs⟩⟩
        rcases List.mem_cons.mp hq with rfl | hq
        · exact absurd hi (hinode i)
        · exact hfresh q hq i hi
    · next stat content hnode =>
      have hinode : inodeAt t p = stat.origin.map Origin.inode := by rw [inodeAt, hnode]
      split at h
      · cases h
      · split at h
        · next first hfirst =>
          obtain ⟨rest, _, rfl⟩ := Outcome.map_eq_ok.mp h
          exact absurd rfl (hnone _ List.mem_cons_self)
        · next hfirst =>
          obtain ⟨rest, hrest, rfl⟩ := Outcome.map_eq_ok.mp h
          obtain ⟨hfresh, hpairs⟩ := ih hpublic' hrest fun r hr => hnone r (List.mem_cons_of_mem _ hr)
          -- what is not among the inodes with this one added is another and was not before
          have hadded : ∀ q ∈ ps, ∀ i, inodeAt t q = some i → inodes.lookup i = none ∧ inodeAt t p ≠ some i := by
            intro q hq i hi
            have hlookup := hfresh q hq i hi
            cases ho : stat.origin with
            | none =>
              rw [addInode, ho] at hlookup
              rw [hinode, ho]
              exact ⟨hlookup, Option.some_ne_none i ∘ Eq.symm⟩
            | some o =>
              rw [addInode, ho] at hlookup
              simp only [List.lookup_cons] at hlookup
              rw [hinode, ho, Option.map_some]
              cases heq : i == o.inode with
              | true =>
                rw [heq] at hlookup
                cases hlookup
              | false =>
                rw [heq] at hlookup
                exact ⟨hlookup, fun hsome => by simp [Option.some.inj hsome] at heq⟩
          refine ⟨fun q hq i hi => ?_, List.pairwise_cons.mpr ⟨fun q hq i hi hi' => ?_, hpairs⟩⟩
          · rcases List.mem_cons.mp hq with rfl | hq
            · rw [hinode] at hi
              obtain ⟨o, ho, rfl⟩ := Option.map_eq_some_iff.mp hi
              exact firstName_none.mp hfirst o ho
            · exact (hadded q hq i hi).1
          · exact (hadded q hq i hi').2 hi
    · cases h
    · cases h
    · cases h

theorem unshared_of_noHardlink {records : List Record} (h : snapshotFrom accounts t 0 [] (sorted t) = .ok records)
    (hnone : ∀ r ∈ records, r.type ≠ .hardlink) : Unshared t := by
  rw [snapshotFrom_filter] at h
  have hpublic : ∀ p ∈ included t, isPrivate p = false := fun p hp => (mem_included.mp hp).2
  have hpairs := (distinct_of_noHardlink hpublic h hnone).2
  intro p hp q hq i hi hi'
  by_contra hne
  have hsymm : Std.Symm fun p q => ∀ i, inodeAt t p = some i → inodeAt t q ≠ some i :=
    ⟨fun p q hpq i hi hi' => hpq i hi' hi⟩
  exact hpairs.forall hp hq hne i hi hi'

/-- Accepted members are files and directories. -/
theorem membersFrom_type {ms : List Member} {total : Nat} {seen : List String} (h : membersFrom total seen ms = .ok ()) :
    ∀ m ∈ ms, m.type ≠ .other := by
  induction ms generalizing total seen with
  | nil => exact fun m hm => absurd hm List.not_mem_nil
  | cons m ms ih =>
    simp only [membersFrom] at h
    split at h
    · cases h
    · split at h
      · cases h
      · next hkind =>
        split at h
        · cases h
        · intro k hk
          rcases List.mem_cons.mp hk with rfl | hk
          · intro hother
            simp [hother] at hkind
          · exact ih h k hk

/-! ## Lengths -/

theorem le_blocks (n : Nat) : n ≤ blocks n := by
  rw [blocks]
  omega

theorem le_lineLength {rest fuel length : Nat} (h : rest ≤ length ∨ 0 < fuel) : rest ≤ lineLength rest fuel length := by
  induction fuel generalizing length with
  | zero =>
    rw [lineLength]
    omega
  | succ fuel ih =>
    rw [lineLength]
    split
    · omega
    · exact ih (Or.inl (Nat.le_add_right _ _))

theorem le_paxLength (keyword value : String) : keyword.utf8ByteSize + value.utf8ByteSize + 3 ≤ paxLength keyword value :=
  le_lineLength (Or.inr (by omega))

/-- A header, an extended one with the time, and the content. -/
theorem Record.length_ge (r : Record) : r.content.length + 1536 ≤ r.length := by
  have hline := le_paxLength "mtime" r.mtime
  have hsum : 1 ≤ (r.paxHeaders.map fun h => paxLength h.1 h.2).sum := by
    rw [Record.paxHeaders, List.map_append, List.sum_append, List.map_singleton, List.sum_singleton]
    show 1 ≤ _ + paxLength "mtime" r.mtime
    omega
  have hpax : 512 ≤ blocks ((r.paxHeaders.map fun h => paxLength h.1 h.2).sum) := by
    rw [blocks]
    omega
  have hcontent := le_blocks r.content.length
  rw [Record.length]
  omega

theorem archiveLength_ge (records : List Record) :
    (records.map fun r => r.content.length).sum + records.length * 1536 ≤ archiveLength records := by
  have hsum : (records.map fun r => r.content.length).sum + records.length * 1536 ≤ (records.map Record.length).sum := by
    induction records with
    | nil => rfl
    | cons r records ih =>
      have hr := r.length_ge
      simp only [List.map_cons, List.sum_cons, List.length_cons]
      omega
  rw [archiveLength]
  omega

/-! ## Restoring a backup -/

/-- The length of the archive, were there no hard links. -/
def encodedLength (accounts : Accounts) (t : Data) : Nat :=
  archiveLength ((included t).filterMap (plainRecord accounts t))

theorem records_eq {records : List Record} (hmap : records.map some = (included t).map (plainRecord accounts t)) :
    records = (included t).filterMap (plainRecord accounts t) := by
  calc records = (records.map some).filterMap id := by simp
    _ = ((included t).map (plainRecord accounts t)).filterMap id := by rw [hmap]
    _ = (included t).filterMap (plainRecord accounts t) := by
        rw [List.filterMap_map]
        rfl

/-- **A backup can be restored** into an empty data directory if and only if no two files in it
    are one and its archive is not too long. -/
theorem restorable_iff {a : Archive} (stat : Stat) (hsnapshot : snapshot accounts t = .ok a) :
    (∃ s, restoreAction umask a (emptyData stat) = .ok s) ↔
      Unshared t ∧ encodedLength accounts t ≤ limit + 16 * 1024 * 1024 := by
  have hroot : (emptyData stat).isDirAt [] = true := rfl
  have haction : restoreAction umask a (emptyData stat) =
      if a.length > limit + 16 * 1024 * 1024 then .error (.value "archive-too-large", emptyData stat)
      else restore umask a (emptyData stat) := by
    rw [restoreAction, hroot]
    rfl
  have hlength : Unshared t → a.length = encodedLength accounts t := by
    intro hunshared
    obtain ⟨records, rfl, hmap, _⟩ := snapshot_plain hunshared hsnapshot
    rw [encodedLength, ← records_eq hmap]
    rfl
  rw [haction]
  constructor
  · rintro ⟨s, hs⟩
    split at hs
    · cases hs
    · next hle =>
      have hunshared : Unshared t := by
        obtain ⟨records, hrecords, rfl⟩ := Outcome.map_eq_ok.mp hsnapshot
        refine unshared_of_noHardlink hrecords fun r hr hlink => ?_
        rw [restore, archiveOf] at hs
        simp only at hs
        split at hs
        · cases hs
        · next hok =>
          apply membersFrom_type hok r.member (List.mem_map_of_mem hr)
          rw [Record.member, hlink]
      exact ⟨hunshared, by rw [← hlength hunshared]; omega⟩
  · rintro ⟨hunshared, hle⟩
    rw [if_neg (by rw [hlength hunshared]; omega)]
    have huncovered : Uncovered t (emptyData stat) := by
      intro p _ _ q _ hq
      have hne : q ≠ [] := by
        rintro rfl
        exact absurd hq (by decide)
      exact if_neg hne
    obtain ⟨s, hs, _⟩ := restore_snapshot hsnapshot hunshared hroot huncovered
    exact ⟨s, hs⟩

/-- A backup within `LIMIT` of many small files is too long. -/
theorem not_restorable_of_many {a : Archive} (stat : Stat) (hsnapshot : snapshot accounts t = .ok a)
    (hmany : limit + 16 * 1024 * 1024 < (((included t).filterMap (plainRecord accounts t)).map fun r => r.content.length).sum +
      ((included t).filterMap (plainRecord accounts t)).length * 1536) :
    ¬∃ s, restoreAction umask a (emptyData stat) = .ok s := by
  intro h
  have hle := ((restorable_iff stat hsnapshot).mp h).2
  have hge := archiveLength_ge ((included t).filterMap (plainRecord accounts t))
  rw [encodedLength] at hle
  omega

end Links

/-- Two names of one file. -/
def sampleLinked : Data := build (sampleStat 0o700 1)
  [(["a"], .file (sampleStat 0o644 2) [104]), (["b"], .file (sampleStat 0o644 2) [104])]

theorem linked_not_restorable : ∃ a, snapshot sampleAccounts sampleLinked = .ok a ∧
    ∀ s, restoreAction 0o022 a (emptyData (sampleStat 0o700 1)) ≠ .ok s := by
  refine ⟨archiveOf [recordOf sampleAccounts ["a"] (sampleStat 0o644 2) .regular "" [104],
    recordOf sampleAccounts ["b"] (sampleStat 0o644 2) .hardlink "a" []], by decide +kernel, fun s hs => ?_⟩
  have herror : ∃ e, restoreAction 0o022 (archiveOf [recordOf sampleAccounts ["a"] (sampleStat 0o644 2) .regular "" [104],
      recordOf sampleAccounts ["b"] (sampleStat 0o644 2) .hardlink "a" []]) (emptyData (sampleStat 0o700 1)) = .error e :=
    ⟨(.value "unsafe-archive-type", emptyData (sampleStat 0o700 1)), rfl⟩
  obtain ⟨e, he⟩ := herror
  rw [he] at hs
  cases hs

theorem restorable_sample : (∃ s, restoreAction 0o022 sampleArchive (emptyData (sampleStat 0o700 1)) = .ok s) ↔
    Unshared sampleData ∧ encodedLength sampleAccounts sampleData ≤ limit + 16 * 1024 * 1024 :=
  restorable_iff (sampleStat 0o700 1) (by decide +kernel)

end Hermes.SimpleData

import Mathlib.Data.List.Infix
import Mathlib.Data.List.Dedup

/- Finite trees of entries of any kind, with the paths that are in use listed, and what a
   program does with them: put an entry, make directories with those above them, change an
   entry in place, remove what is empty, and sweep a tree, keeping some paths.

   `isDir` says which entries can have others below them, `fits` which paths the system can
   hold; both hold of every tree by its construction. -/
namespace Entries

abbrev Path := List String

structure Tree {ν : Type} (isDir : ν → Bool) (fits : Path → Bool) where
  node : Path → Option ν
  paths : List Path
  listed : ∀ p, node p ≠ none → p ∈ paths
  closed : ∀ p c, node (p ++ [c]) ≠ none → (node p).any isDir = true
  fitting : ∀ p, node p ≠ none → fits p = true

variable {ν : Type} {isDir : ν → Bool} {fits : Path → Bool}

namespace Tree

def isDirAt (t : Tree isDir fits) (p : Path) : Bool := (t.node p).any isDir

theorem isDirAt_iff {t : Tree isDir fits} {p : Path} :
    t.isDirAt p = true ↔ ∃ n, t.node p = some n ∧ isDir n = true := by
  rw [isDirAt, Option.any_eq_true]

theorem ne_none_of_isDirAt {t : Tree isDir fits} {p : Path} (h : t.isDirAt p = true) : t.node p ≠ none := by
  obtain ⟨n, hn, _⟩ := isDirAt_iff.mp h
  simp [hn]

/-- What is above an entry is a directory. -/
theorem above {t : Tree isDir fits} {p q : Path} (hq : q ≠ []) (h : t.node (p ++ q) ≠ none) : t.isDirAt p = true := by
  induction q generalizing p with
  | nil => exact absurd rfl hq
  | cons c q ih =>
    by_cases hnil : q = []
    · rw [hnil] at h
      exact t.closed p c h
    · rw [List.append_cons] at h
      exact t.closed p c (ne_none_of_isDirAt (ih hnil h))

theorem above_of_initial {t : Tree isDir fits} {p q : Path} (hpq : p <+: q) (hne : p ≠ q) (h : t.node q ≠ none) :
    t.isDirAt p = true := by
  obtain ⟨r, rfl⟩ := hpq
  refine above ?_ h
  rintro rfl
  exact hne (List.append_nil p).symm

/-- Below what is no directory there is nothing. -/
theorem below_none {t : Tree isDir fits} {p q : Path} (hpq : p <+: q) (hne : p ≠ q) (h : t.isDirAt p = false) :
    t.node q = none := by
  by_contra hq
  rw [above_of_initial hpq hne hq] at h
  cases h

/-- Two entries that are no directories are apart. -/
theorem apart_leaves {t : Tree isDir fits} {p q : Path} (hne : p ≠ q) (hp : t.node p ≠ none) (hq : t.node q ≠ none)
    (hpdir : t.isDirAt p = false) (hqdir : t.isDirAt q = false) : ¬ p <+: q ∧ ¬ q <+: p := by
  constructor
  · intro hpq
    rw [above_of_initial hpq hne hq] at hpdir
    cases hpdir
  · intro hqp
    rw [above_of_initial hqp hne.symm hp] at hqdir
    cases hqdir

/-- Trees are the same where they have the same entries. -/
def Same (t t' : Tree isDir fits) : Prop := ∀ p, t.node p = t'.node p

/-! ## One entry -/

/-- Put an entry in a directory, where no directory is. -/
def put (t : Tree isDir fits) (p : Path) (n : ν) : Option (Tree isDir fits) :=
  if h : fits p = true ∧ t.isDirAt p.dropLast = true ∧ t.isDirAt p = false then
    some
      { node := fun q => if q = p then some n else t.node q
        paths := p :: t.paths
        listed := by
          intro q hq
          by_cases hqp : q = p
          · simp [hqp]
          · rw [if_neg hqp] at hq
            exact List.mem_cons_of_mem _ (t.listed q hq)
        closed := by
          intro q c hq
          have hdir : t.isDirAt q = true := by
            by_cases hqp : q ++ [c] = p
            · rw [← hqp, List.dropLast_concat] at h
              exact h.2.1
            · rw [if_neg hqp] at hq
              exact t.closed q c hq
          have hne : q ≠ p := by
            rintro rfl
            rw [hdir] at h
            exact absurd h.2.2 (by decide)
          rw [if_neg hne]
          exact hdir
        fitting := by
          intro q hq
          by_cases hqp : q = p
          · rw [hqp]
            exact h.1
          · rw [if_neg hqp] at hq
            exact t.fitting q hq }
  else none

theorem put_some {t t' : Tree isDir fits} {p : Path} {n : ν} (h : t.put p n = some t') :
    (fits p = true ∧ t.isDirAt p.dropLast = true ∧ t.isDirAt p = false) ∧
      ∀ q, t'.node q = if q = p then some n else t.node q := by
  unfold put at h
  split at h
  · next hc =>
    cases h
    exact ⟨hc, fun _ => rfl⟩
  · cases h

theorem put_isSome {t : Tree isDir fits} {p : Path} {n : ν} :
    (t.put p n).isSome = true ↔ fits p = true ∧ t.isDirAt p.dropLast = true ∧ t.isDirAt p = false := by
  unfold put
  split
  · next hc => simp [hc]
  · next hc => simpa using hc

/-- Change an entry in place; a directory stays one. -/
def alter (t : Tree isDir fits) (p : Path) (f : ν → ν) (hf : ∀ n, isDir (f n) = isDir n) : Tree isDir fits where
  node q := if q = p then (t.node q).map f else t.node q
  paths := t.paths
  listed q hq := by
    by_cases hqp : q = p
    · rw [if_pos hqp] at hq
      exact t.listed q (by simpa using hq)
    · rw [if_neg hqp] at hq
      exact t.listed q hq
  closed q c hq := by
    have hold : t.node (q ++ [c]) ≠ none := by
      split at hq
      · simpa using hq
      · exact hq
    have hdir := t.closed q c hold
    split
    · rw [Option.any_map]
      simp only [hf]
      exact hdir
    · exact hdir
  fitting q hq := by
    split at hq
    · exact t.fitting q (by simpa using hq)
    · exact t.fitting q hq

@[simp] theorem node_alter {t : Tree isDir fits} {p q : Path} {f : ν → ν} {hf} :
    (t.alter p f hf).node q = if q = p then (t.node q).map f else t.node q := rfl

/-! ## Directories with those above them -/

/-- Nothing on the way to `p` is in the way of directories. -/
def clearWay (t : Tree isDir fits) (p : Path) : Bool :=
  p.inits.all fun q => fits q && ((t.node q).isNone || t.isDirAt q)

theorem clearWay_iff {t : Tree isDir fits} {p : Path} :
    t.clearWay p = true ↔ ∀ q, q <+: p → fits q = true ∧ (t.node q ≠ none → t.isDirAt q = true) := by
  rw [clearWay, List.all_eq_true]
  constructor
  · intro h q hq
    have := h q ((List.mem_inits _ _).mpr hq)
    rw [Bool.and_eq_true, Bool.or_eq_true, Option.isNone_iff_eq_none] at this
    exact ⟨this.1, fun hne => this.2.resolve_left hne⟩
  · intro h q hq
    obtain ⟨hfits, hdir⟩ := h q ((List.mem_inits _ _).mp hq)
    rw [Bool.and_eq_true, Bool.or_eq_true, Option.isNone_iff_eq_none]
    refine ⟨hfits, ?_⟩
    by_cases hne : t.node q = none
    · exact Or.inl hne
    · exact Or.inr (hdir hne)

/-- `mkdir(parents=True, exist_ok=True)`, each new directory being `n`. -/
def makeDirs (t : Tree isDir fits) (p : Path) (n : ν) (hn : isDir n = true) : Option (Tree isDir fits) :=
  if h : t.clearWay p = true then
    some
      { node := fun q => if q <+: p then some ((t.node q).getD n) else t.node q
        paths := p.inits ++ t.paths
        listed := by
          intro q hq
          by_cases hqp : q <+: p
          · exact List.mem_append_left _ ((List.mem_inits _ _).mpr hqp)
          · rw [if_neg hqp] at hq
            exact List.mem_append_right _ (t.listed q hq)
        closed := by
          intro q c hq
          by_cases hqp : q <+: p
          · rw [if_pos hqp]
            cases hnode : t.node q with
            | none => exact hn
            | some m =>
              have := (clearWay_iff.mp h q hqp).2 (by simp [hnode])
              rw [isDirAt, hnode] at this
              exact this
          · rw [if_neg hqp]
            rw [if_neg (fun hqc => hqp ((List.prefix_append q [c]).trans hqc))] at hq
            exact t.closed q c hq
        fitting := by
          intro q hq
          by_cases hqp : q <+: p
          · exact (clearWay_iff.mp h q hqp).1
          · rw [if_neg hqp] at hq
            exact t.fitting q hq }
  else none

theorem makeDirs_some {t t' : Tree isDir fits} {p : Path} {n : ν} {hn : isDir n = true}
    (h : t.makeDirs p n hn = some t') :
    t.clearWay p = true ∧ ∀ q, t'.node q = if q <+: p then some ((t.node q).getD n) else t.node q := by
  unfold makeDirs at h
  split at h
  · next hc =>
    cases h
    exact ⟨hc, fun _ => rfl⟩
  · cases h

theorem makeDirs_isSome {t : Tree isDir fits} {p : Path} {n : ν} {hn : isDir n = true} :
    (t.makeDirs p n hn).isSome = t.clearWay p := by
  unfold makeDirs
  split
  · next hc => simp [hc]
  · next hc => simpa using hc

/-! ## Sweeping -/

/-- Nothing is below `p`. -/
def bare (t : Tree isDir fits) (p : Path) : Bool :=
  t.paths.all fun q => !(decide (p <+: q) && decide (p ≠ q)) || (t.node q).isNone

theorem bare_iff {t : Tree isDir fits} {p : Path} :
    t.bare p = true ↔ ∀ q, p <+: q → p ≠ q → t.node q = none := by
  rw [bare, List.all_eq_true]
  constructor
  · intro h q hpq hne
    by_contra hq
    have := h q (t.listed q hq)
    simp [hpq, hne, hq] at this
  · intro h q _
    by_cases hq : p <+: q ∧ p ≠ q
    · simp [h q hq.1 hq.2]
    · simp only [Bool.or_eq_true, Bool.not_eq_true', Bool.and_eq_false_iff, decide_eq_false_iff_not]
      exact Or.inl (not_and_or.mp hq)

/-- Remove an entry; a directory with others in it stays. -/
def erase (t : Tree isDir fits) (p : Path) : Tree isDir fits :=
  if h : t.bare p = true then
    { node := fun q => if q = p then none else t.node q
      paths := t.paths
      listed := by
        intro q hq
        split at hq
        · exact absurd rfl hq
        · exact t.listed q hq
      closed := by
        intro q c hq
        split at hq
        · exact absurd rfl hq
        · have hne : q ≠ p := by
            rintro rfl
            exact hq (bare_iff.mp h _ (List.prefix_append q [c]) (by simp))
          rw [if_neg hne]
          exact t.closed q c hq
      fitting := by
        intro q hq
        split at hq
        · exact absurd rfl hq
        · exact t.fitting q hq }
  else t

theorem erase_bare {t : Tree isDir fits} {p q : Path} (h : t.bare p = true) :
    (t.erase p).node q = if q = p then none else t.node q := by
  rw [erase, dif_pos h]

theorem erase_not_bare {t : Tree isDir fits} {p : Path} (h : t.bare p = false) : t.erase p = t := by
  rw [erase, dif_neg (by simp [h])]

theorem erase_other {t : Tree isDir fits} {p q : Path} (h : q ≠ p) : (t.erase p).node q = t.node q := by
  cases hb : t.bare p with
  | true => rw [erase_bare hb, if_neg h]
  | false => rw [erase_not_bare hb]

/-- The paths below the root that are in use, as `rglob("*")` gives them. -/
def below (t : Tree isDir fits) : List Path := t.paths.dedup.filter fun p => p != [] && (t.node p).isSome

theorem mem_below {t : Tree isDir fits} {p : Path} : p ∈ t.below ↔ p ≠ [] ∧ t.node p ≠ none := by
  rw [below, List.mem_filter, List.mem_dedup, Bool.and_eq_true, bne_iff_ne, Option.isSome_iff_ne_none]
  exact ⟨fun h => h.2, fun h => ⟨t.listed p h.2, h⟩⟩

theorem nodup_below (t : Tree isDir fits) : t.below.Nodup := (List.nodup_dedup t.paths).filter _

def sweepStep (keep : Path → Bool) (t : Tree isDir fits) (p : Path) : Tree isDir fits :=
  if keep p then t else t.erase p

def deeper (p q : Path) : Bool := decide (q.length ≤ p.length)

/-- Remove everything but what is kept and what that is in, the deepest first. -/
def sweep (keep : Path → Bool) (t : Tree isDir fits) : Tree isDir fits :=
  (t.below.mergeSort deeper).foldl (sweepStep keep) t

/-- Something that is kept is there, at `p` or below it. -/
def Holds (keep : Path → Bool) (t : Tree isDir fits) (p : Path) : Prop :=
  ∃ q, p <+: q ∧ keep q = true ∧ t.node q ≠ none

theorem sweepStep_cases (keep : Path → Bool) (t : Tree isDir fits) (p q : Path) :
    (sweepStep keep t p).node q = t.node q ∨ (q = p ∧ keep p = false ∧ t.bare p = true) := by
  rw [sweepStep]
  cases hkeep : keep p with
  | true => exact Or.inl rfl
  | false =>
    cases hb : t.bare p with
    | true =>
      by_cases hq : q = p
      · exact Or.inr ⟨hq, rfl, rfl⟩
      · exact Or.inl (erase_other hq)
    | false =>
      rw [erase_not_bare hb]
      exact Or.inl rfl

/-- What holds something that is kept, or is itself, stays as it is. -/
theorem sweepStep_holds {keep : Path → Bool} {t : Tree isDir fits} {q : Path} (h : t.Holds keep q) (p : Path) :
    (sweepStep keep t p).node q = t.node q := by
  rcases sweepStep_cases keep t p q with hsame | ⟨rfl, hkeep, hbare⟩
  · exact hsame
  · obtain ⟨r, hqr, hr, hne⟩ := h
    have hqr' : q ≠ r := by
      rintro rfl
      rw [hr] at hkeep
      cases hkeep
    exact absurd (bare_iff.mp hbare r hqr hqr') hne

theorem Holds.step {keep : Path → Bool} {t : Tree isDir fits} {q : Path} (h : t.Holds keep q) (p : Path) :
    (sweepStep keep t p).Holds keep q := by
  obtain ⟨r, hqr, hr, hne⟩ := h
  have hself : t.Holds keep r := ⟨r, List.prefix_refl r, hr, hne⟩
  exact ⟨r, hqr, hr, by rw [sweepStep_holds hself]; exact hne⟩

theorem foldl_holds {keep : Path → Bool} {q : Path} (l : List Path) {t : Tree isDir fits} (h : t.Holds keep q) :
    (l.foldl (sweepStep keep) t).node q = t.node q := by
  induction l generalizing t with
  | nil => rfl
  | cons p l ih => rw [List.foldl_cons, ih (h.step p), sweepStep_holds h]

theorem foldl_sub {keep : Path → Bool} {q : Path} (l : List Path) {t : Tree isDir fits} :
    (l.foldl (sweepStep keep) t).node q = t.node q ∨ (l.foldl (sweepStep keep) t).node q = none := by
  induction l generalizing t with
  | nil => exact Or.inl rfl
  | cons p l ih =>
    rw [List.foldl_cons]
    rcases ih with hsame | hnone
    · rw [hsame]
      rcases sweepStep_cases keep t p q with hq | ⟨rfl, hkeep, hbare⟩
      · exact Or.inl hq
      · right
        rw [sweepStep, if_neg (by simp [hkeep]), erase_bare hbare, if_pos rfl]
    · exact Or.inr hnone

/-- When all paths have been visited, the deeper ones first, everything left holds something. -/
theorem foldl_swept {keep : Path → Bool} {l : List Path} {t : Tree isDir fits}
    (hsorted : l.Pairwise fun p q => q.length ≤ p.length)
    (hrest : ∀ q, q ≠ [] → q ∉ l → t.node q ≠ none → t.Holds keep q) :
    ∀ q, q ≠ [] → (l.foldl (sweepStep keep) t).node q ≠ none → (l.foldl (sweepStep keep) t).Holds keep q := by
  induction l generalizing t with
  | nil => exact fun q hq hne => hrest q hq List.not_mem_nil hne
  | cons p l ih =>
    rw [List.pairwise_cons] at hsorted
    rw [List.foldl_cons]
    refine ih hsorted.2 fun q hq hql hne => ?_
    have hold : t.node q ≠ none := by
      rcases sweepStep_cases keep t p q with hsame | ⟨rfl, hkeep, hbare⟩
      · rwa [hsame] at hne
      · rw [sweepStep, if_neg (by simp [hkeep]), erase_bare hbare, if_pos rfl] at hne
        exact absurd rfl hne
    by_cases hqp : q = p
    · subst hqp
      cases hkeep : keep q with
      | true => exact ⟨q, List.prefix_refl q, hkeep, hne⟩
      | false =>
        cases hbare : t.bare q with
        | true =>
          rw [sweepStep, if_neg (by simp [hkeep]), erase_bare hbare, if_pos rfl] at hne
          exact absurd rfl hne
        | false =>
          -- something is left below it, and that has been visited
          have hnot : ¬∀ r, q <+: r → q ≠ r → t.node r = none := by
            rw [← bare_iff, hbare]
            simp
          simp only [not_forall] at hnot
          obtain ⟨r, hqr, hner, hr⟩ := hnot
          have hlong : q.length < r.length := by
            rcases Nat.lt_or_ge q.length r.length with hlt | hge
            · exact hlt
            · exact absurd (hqr.eq_of_length_le hge) hner
          have hrl : r ∉ q :: l := by
            rw [List.mem_cons, not_or]
            refine ⟨fun he => hner he.symm, fun hmem => ?_⟩
            have := hsorted.1 r hmem
            omega
          obtain ⟨s, hrs, hs, hsne⟩ := hrest r (fun hnil => by simp [hnil] at hlong) hrl hr
          have hholds : t.Holds keep q := ⟨s, hqr.trans hrs, hs, hsne⟩
          exact hholds.step q
    · exact (hrest q hq (by simp [hqp, hql]) hold).step p

/-- What is kept stays, with what it is in. -/
theorem sweep_holds {keep : Path → Bool} {t : Tree isDir fits} {q : Path} (h : t.Holds keep q) :
    (t.sweep keep).node q = t.node q := foldl_holds _ h

theorem sweep_root {keep : Path → Bool} {t : Tree isDir fits} : (t.sweep keep).node [] = t.node [] := by
  rw [sweep]
  have hnot : [] ∉ t.below.mergeSort deeper := by
    rw [List.mem_mergeSort, mem_below]
    exact fun h => h.1 rfl
  generalize t.below.mergeSort deeper = l at hnot
  generalize t = s
  induction l generalizing s with
  | nil => rfl
  | cons p l ih =>
    rw [List.mem_cons, not_or] at hnot
    rw [List.foldl_cons, ih hnot.2]
    rcases sweepStep_cases keep s p [] with hsame | ⟨hp, _⟩
    · exact hsame
    · exact absurd hp hnot.1

/-- Everything else is gone. -/
theorem sweep_gone {keep : Path → Bool} {t : Tree isDir fits} {q : Path} (hq : q ≠ []) (h : ¬t.Holds keep q) :
    (t.sweep keep).node q = none := by
  by_contra hne
  apply h
  have hdeeper : (t.below.mergeSort deeper).Pairwise fun p q => deeper p q = true := by
    refine List.pairwise_mergeSort (fun p q r hpq hqr => ?_) (fun p q => ?_) t.below
    · rw [deeper, decide_eq_true_eq] at *
      omega
    · rw [Bool.or_eq_true, deeper, deeper, decide_eq_true_eq, decide_eq_true_eq]
      omega
  have hsorted : (t.below.mergeSort deeper).Pairwise fun p q => q.length ≤ p.length :=
    hdeeper.imp fun hpq => of_decide_eq_true hpq
  have hall : ∀ p, p ≠ [] → p ∉ t.below.mergeSort deeper → t.node p ≠ none → t.Holds keep p := fun p hp hpl hpne =>
    absurd (List.mem_mergeSort.mpr (mem_below.mpr ⟨hp, hpne⟩)) hpl
  obtain ⟨r, hqr, hr, hrne⟩ := foldl_swept hsorted hall q hq hne
  refine ⟨r, hqr, hr, fun hnone => hrne ?_⟩
  have hsub : (t.sweep keep).node r = t.node r ∨ (t.sweep keep).node r = none := foldl_sub _
  rcases hsub with hs | hs
  · exact hs.trans hnone
  · exact hs

end Tree

/-! ## The tree of some files -/

section Files

variable {γ : Type} (dir : ν) (file : γ → ν)

/-- The files at their paths and the directories on the way to them. -/
def treeOf (files : List (Path × γ)) : Path → Option ν := fun q =>
  match files.find? (fun f => f.1 = q) with
  | some f => some (file f.2)
  | none => if q = [] ∨ ∃ f ∈ files, q <+: f.1 then some dir else none

/-- Neither of two paths is on the way to the other. -/
def Apart (p q : Path) : Prop := ¬ p <+: q ∧ ¬ q <+: p

variable {dir file}

theorem find_none_iff {files : List (Path × γ)} {q : Path} :
    files.find? (fun f => f.1 = q) = none ↔ ∀ f ∈ files, f.1 ≠ q := by
  simp [List.find?_eq_none]

theorem treeOf_some {files : List (Path × γ)} {q : Path} {f : Path × γ} (h : files.find? (fun f => f.1 = q) = some f) :
    treeOf dir file files q = some (file f.2) := by
  rw [treeOf, h]

theorem treeOf_none {files : List (Path × γ)} {q : Path} (h : ∀ f ∈ files, f.1 ≠ q) :
    treeOf dir file files q = if q = [] ∨ ∃ f ∈ files, q <+: f.1 then some dir else none := by
  rw [treeOf, find_none_iff.mpr h]

/-- What is in the tree is one of the files, or a directory on the way to one. -/
theorem treeOf_cases {files : List (Path × γ)} {q : Path} {n : ν} (h : treeOf dir file files q = some n) :
    (∃ f ∈ files, f.1 = q ∧ n = file f.2) ∨ (n = dir ∧ (q = [] ∨ ∃ f ∈ files, q <+: f.1)) := by
  cases hfind : files.find? (fun f => f.1 = q) with
  | some f =>
    rw [treeOf_some hfind, Option.some.injEq] at h
    exact Or.inl ⟨f, List.mem_of_find?_eq_some hfind, by simpa using List.find?_some hfind, h.symm⟩
  | none =>
    rw [treeOf_none (find_none_iff.mp hfind)] at h
    split at h
    · next hway => exact Or.inr ⟨(Option.some.inj h).symm, hway⟩
    · cases h

/-- A file with a path of its own is found there. -/
theorem treeOf_file {files : List (Path × γ)} (hnodup : (files.map Prod.fst).Nodup) {f : Path × γ} (hf : f ∈ files) :
    treeOf dir file files f.1 = some (file f.2) := by
  cases hfind : files.find? (fun g => g.1 = f.1) with
  | none => exact absurd rfl (find_none_iff.mp hfind f hf)
  | some g =>
    have hg : g = f :=
      List.inj_on_of_nodup_map hnodup (List.mem_of_find?_eq_some hfind) hf (by simpa using List.find?_some hfind)
    rw [treeOf_some hfind, hg]

/-- The order of the files makes no difference. -/
theorem treeOf_perm {files files' : List (Path × γ)} (hnodup : (files.map Prod.fst).Nodup) (h : files.Perm files') :
    treeOf dir file files = treeOf dir file files' := by
  have hnodup' : (files'.map Prod.fst).Nodup := (h.map Prod.fst).nodup_iff.mp hnodup
  funext q
  by_cases hq : ∃ f ∈ files, f.1 = q
  · obtain ⟨f, hf, rfl⟩ := hq
    rw [treeOf_file hnodup hf, treeOf_file hnodup' (h.mem_iff.mp hf)]
  · have hno : ∀ f ∈ files, f.1 ≠ q := fun f hf he => hq ⟨f, hf, he⟩
    rw [treeOf_none hno, treeOf_none fun f hf => hno f (h.mem_iff.mpr hf)]
    simp only [h.mem_iff]

/-- One more file, apart from the others. -/
theorem treeOf_concat {files : List (Path × γ)} {p : Path} {content : γ} (hp : p ≠ [])
    (hapart : ∀ f ∈ files, Apart p f.1) (q : Path) :
    treeOf dir file (files ++ [(p, content)]) q =
      if q = p then some (file content) else if q <+: p.dropLast then some dir else treeOf dir file files q := by
  have hinitial : ∀ q, q ≠ p → (q <+: p ↔ q <+: p.dropLast) := by
    intro q hqp
    constructor
    · intro h
      obtain ⟨r, rfl⟩ := h
      have hr : r ≠ [] := fun hr => hqp (by rw [hr, List.append_nil])
      rw [List.dropLast_append_of_ne_nil hr]
      exact List.prefix_append q _
    · exact fun h => h.trans (List.dropLast_prefix p)
  by_cases hqp : q = p
  · subst hqp
    have hnone : files.find? (fun f => f.1 = q) = none :=
      find_none_iff.mpr fun f hf he => (hapart f hf).1 (he ▸ List.prefix_rfl)
    rw [if_pos rfl]
    exact treeOf_some (f := (q, content)) (by simp [List.find?_append, hnone])
  · rw [if_neg hqp]
    cases hfind : files.find? (fun f => f.1 = q) with
    | some f =>
      -- a file is not on the way to the new one
      have hf : f ∈ files ∧ f.1 = q := ⟨List.mem_of_find?_eq_some hfind, by simpa using List.find?_some hfind⟩
      have hway : ¬ q <+: p.dropLast := fun hway => (hapart f hf.1).2 (hf.2 ▸ hway.trans (List.dropLast_prefix p))
      rw [if_neg hway, treeOf_some hfind]
      exact treeOf_some (by rw [List.find?_append, hfind]; rfl)
    | none =>
      have hno := find_none_iff.mp hfind
      have hno' : ∀ f ∈ files ++ [(p, content)], f.1 ≠ q := by
        intro f hf
        rcases List.mem_append.mp hf with hf | hf
        · exact hno f hf
        · rw [List.mem_singleton.mp hf]
          exact fun he => hqp he.symm
      rw [treeOf_none hno, treeOf_none hno']
      by_cases hway : q <+: p.dropLast
      · rw [if_pos hway, if_pos]
        exact Or.inr ⟨(p, content), by simp, (hinitial q hqp).mpr hway⟩
      · have hpath : (∃ f ∈ files ++ [(p, content)], q <+: f.1) ↔ ∃ f ∈ files, q <+: f.1 := by
          constructor
          · intro h
            obtain ⟨f, hf, hpre⟩ := h
            rcases List.mem_append.mp hf with hf | hf
            · exact ⟨f, hf, hpre⟩
            · rw [List.mem_singleton.mp hf] at hpre
              exact absurd ((hinitial q hqp).mp hpre) hway
          · intro h
            obtain ⟨f, hf, hpre⟩ := h
            exact ⟨f, List.mem_append_left _ hf, hpre⟩
        rw [if_neg hway]
        simp only [hpath]

/-- The parent with `mkdir(parents=True, exist_ok=True)`, and a file that was not there: `open(p, "x")`. -/
def Tree.add (t : Tree isDir fits) (p : Path) (d n : ν) (hd : isDir d = true) : Option (Tree isDir fits) :=
  (t.makeDirs p.dropLast d hd).bind fun t' => if (t'.node p).isNone then t'.put p n else none

theorem not_prefix_dropLast {p : Path} (hp : p ≠ []) : ¬ p <+: p.dropLast := by
  intro h
  have hlen := h.length_le
  have hpos : 0 < p.length := List.length_pos_iff.mpr hp
  simp only [List.length_dropLast] at hlen
  omega

/-- A file is added to the tree of some files if it is apart from them, and is then one of them. -/
theorem add_some {t t' : Tree isDir fits} {files : List (Path × γ)} {p : Path} {content : γ} {hd : isDir dir = true}
    (hfile : ∀ c, isDir (file c) = false) (hnode : t.node = treeOf dir file files) (hp : p ≠ [])
    (h : t.add p dir (file content) hd = some t') :
    (∀ f ∈ files, Apart p f.1) ∧ t'.node = treeOf dir file (files ++ [(p, content)]) := by
  obtain ⟨made, hmade, h⟩ := Option.bind_eq_some_iff.mp h
  split at h
  · next hnone =>
    obtain ⟨hclear, hmadeNode⟩ := Tree.makeDirs_some hmade
    have hput := (Tree.put_some h).2
    have hpdrop := not_prefix_dropLast hp
    have hpnone : treeOf dir file files p = none := by
      rw [← hnode]
      rw [hmadeNode, if_neg hpdrop] at hnone
      simpa using hnone
    have hapart : ∀ f ∈ files, Apart p f.1 := by
      intro f hf
      have hno : ∀ g ∈ files, g.1 ≠ p := by
        refine find_none_iff.mp ?_
        cases hfind : files.find? (fun g => g.1 = p) with
        | none => rfl
        | some g =>
          rw [treeOf_some hfind] at hpnone
          cases hpnone
      constructor
      · intro hpre
        rw [treeOf_none hno, if_pos (Or.inr ⟨f, hf, hpre⟩)] at hpnone
        cases hpnone
      · -- a file on the way would be in the way of the directories
        intro hpre
        have hway : f.1 <+: p.dropLast := by
          obtain ⟨r, hr⟩ := hpre
          have hne : r ≠ [] := by
            intro hnil
            rw [hnil, List.append_nil] at hr
            exact hno f hf hr
          rw [← hr, List.dropLast_append_of_ne_nil hne]
          exact List.prefix_append _ _
        cases hfind : files.find? (fun g => g.1 = f.1) with
        | none => exact find_none_iff.mp hfind f hf rfl
        | some g =>
          have hthere : treeOf dir file files f.1 = some (file g.2) := treeOf_some hfind
          have hdirAt := (Tree.clearWay_iff.mp hclear f.1 hway).2 (by rw [hnode, hthere]; simp)
          rw [Tree.isDirAt, hnode, hthere, Option.any_some, hfile] at hdirAt
          cases hdirAt
    refine ⟨hapart, ?_⟩
    funext q
    rw [treeOf_concat hp hapart, hput]
    by_cases hqp : q = p
    · rw [if_pos hqp, if_pos hqp]
    · rw [if_neg hqp, if_neg hqp, hmadeNode, hnode]
      by_cases hway : q <+: p.dropLast
      · rw [if_pos hway, if_pos hway]
        have hno : ∀ f ∈ files, f.1 ≠ q := fun f hf he => (hapart f hf).2 (he ▸ hway.trans (List.dropLast_prefix p))
        rw [treeOf_none hno]
        split <;> rfl
      · rw [if_neg hway, if_neg hway]
  · cases h

theorem add_isSome {t : Tree isDir fits} {files : List (Path × γ)} {p : Path} {content : γ} {hd : isDir dir = true}
    (hnode : t.node = treeOf dir file files) (hp : p ≠ [])
    (hapart : ∀ f ∈ files, Apart p f.1) (hfits : ∀ q, q <+: p → fits q = true) :
    (t.add p dir (file content) hd).isSome = true := by
  have hclear : t.clearWay p.dropLast = true := by
    refine Tree.clearWay_iff.mpr fun q hq => ⟨hfits q (hq.trans (List.dropLast_prefix p)), fun hne => ?_⟩
    have hno : ∀ f ∈ files, f.1 ≠ q := fun f hf he => (hapart f hf).2 (he ▸ hq.trans (List.dropLast_prefix p))
    rw [Tree.isDirAt]
    rw [hnode, treeOf_none hno] at hne ⊢
    split at hne
    · next hcond =>
      rw [if_pos hcond]
      exact hd
    · exact absurd rfl hne
  have hmakes : (t.makeDirs p.dropLast dir hd).isSome = true := by rw [Tree.makeDirs_isSome, hclear]
  obtain ⟨made, hmade⟩ := Option.isSome_iff_exists.mp hmakes
  have hmadeNode := (Tree.makeDirs_some hmade).2
  have hpdrop := not_prefix_dropLast hp
  have hpnone : made.node p = none := by
    have hno : ∀ f ∈ files, f.1 ≠ p := fun f hf he => (hapart f hf).1 (he ▸ List.prefix_rfl)
    have hnothing : ¬ (p = [] ∨ ∃ f ∈ files, p <+: f.1) := by
      intro h
      rcases h with h | h
      · exact hp h
      · obtain ⟨f, hf, hpre⟩ := h
        exact (hapart f hf).1 hpre
    rw [hmadeNode, if_neg hpdrop, hnode, treeOf_none hno, if_neg hnothing]
  have hparent : made.isDirAt p.dropLast = true := by
    have hno : ∀ f ∈ files, f.1 ≠ p.dropLast := fun f hf he => (hapart f hf).2 (he ▸ List.dropLast_prefix p)
    rw [Tree.isDirAt, hmadeNode, if_pos List.prefix_rfl, hnode, treeOf_none hno]
    split <;> exact hd
  rw [Tree.add, hmade, Option.bind_some, if_pos (by simp [hpnone])]
  exact Tree.put_isSome.mpr ⟨hfits p List.prefix_rfl, hparent, by rw [Tree.isDirAt, hpnone]; rfl⟩

end Files

end Entries

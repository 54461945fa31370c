import Hermes.Transaction
import Hermes.Library.Outcome

/- The prediction of a stored transaction is exact (`expectedInventory_exact`): what was there
   without what is removed, with what is added, sorted; and `package_baseline` of any listing
   of it has the same hash. -/
namespace Hermes.Transaction
open Outcome

theorem demand_ok {c : Bool} {reason : String} {u : Unit} : demand c reason = .ok u ↔ c = true := by
  cases c <;> simp [demand]

/-! ## Names -/

theorem toDigits_isDigit (n : Nat) : ∀ c ∈ Nat.toDigits 10 n, '0' ≤ c ∧ c ≤ '9' := by
  intro c hc
  have h := Nat.isDigit_of_mem_toDigits (b := 10) (by decide) (by decide) hc
  simp only [Char.isDigit, Bool.and_eq_true, decide_eq_true_eq] at h
  exact ⟨h.1, h.2⟩

theorem splitLast_mem {c : Char} {cs before after : List Char} (h : splitLast c cs = some (before, after)) :
    (∀ d ∈ before, d ∈ cs) ∧ ∀ d ∈ after, d ∈ cs := by
  unfold splitLast at h
  split at h
  · cases h
  · next hd =>
    cases h
    constructor
    · intro d hd'
      rw [List.mem_reverse] at hd'
      exact List.mem_reverse.mp ((List.dropWhile_subset _) (hd ▸ List.mem_cons_of_mem _ hd'))
    · intro d hd'
      rw [List.mem_reverse] at hd'
      exact List.mem_reverse.mp ((List.takeWhile_subset _) hd')

theorem splitFirst_mem {c : Char} {cs before after : List Char} (h : splitFirst c cs = some (before, after)) :
    (∀ d ∈ before, d ∈ cs) ∧ ∀ d ∈ after, d ∈ cs := by
  unfold splitFirst at h
  split at h
  · cases h
  · next hd =>
    cases h
    constructor
    · exact fun d hd' => (List.takeWhile_subset _) hd'
    · exact fun d hd' => (List.dropWhile_subset _) (hd ▸ List.mem_cons_of_mem _ hd')

theorem nameVersionRelease_ok {cs name version release : List Char}
    (h : nameVersionRelease cs = .ok (name, version, release)) :
    (name ≠ [] ∧ version ≠ [] ∧ release ≠ []) ∧
      ∃ rest, splitLast '-' cs = some (rest, release) ∧ splitLast '-' rest = some (name, version) := by
  unfold nameVersionRelease at h
  split at h
  · cases h
  · next rest r hr =>
    split at h
    · cases h
    · next n v hn =>
      split at h
      · cases h
      · next hne =>
        cases h
        simp only [not_or] at hne
        exact ⟨hne, rest, hr, hn⟩

theorem releaseArch_ok {cs release arch : List Char} (h : releaseArch cs = .ok (release, arch)) :
    release ≠ [] ∧ arch ≠ [] ∧ splitLast '.' cs = some (release, arch) := by
  unfold releaseArch at h
  split at h
  · cases h
  · next r a hr =>
    split at h
    · cases h
    · next hne =>
      cases h
      simp only [not_or] at hne
      exact ⟨hne.1, hne.2, hr⟩

theorem epochVersion_ok {cs value : List Char} {n : Nat} (h : epochVersion cs = .ok (n, value)) :
    value ≠ [] ∧ ':' ∉ value ∧ ∀ d ∈ value, d ∈ cs := by
  unfold epochVersion at h
  split at h
  next epoch value' hsplit =>
  split at h
  · cases h
  · next hne =>
    obtain ⟨m, _, hm⟩ := map_eq_ok.mp h
    cases hm
    simp only [not_or, List.contains_iff_mem, Bool.not_eq_true] at hne
    refine ⟨hne.2.2.1, by simpa using hne.2.2.2, ?_⟩
    cases hs : splitFirst ':' cs with
    | none =>
      rw [hs] at hsplit
      cases hsplit
      exact fun _ => id
    | some p =>
      rw [hs] at hsplit
      cases hsplit
      exact (splitFirst_mem hs).2

/-- The parts of a name are made of its characters. -/
theorem parseNevra_ok {cs : List Char} {n : Nevra} (h : parseNevra cs = .ok n) :
    n.name ≠ [] ∧ n.version ≠ [] ∧ n.release ≠ [] ∧ n.arch ≠ [] ∧ ':' ∉ n.version ∧
      ∀ c, c ∈ n.name ∨ c ∈ n.version ∨ c ∈ n.release ∨ c ∈ n.arch → c ∈ cs := by
  obtain ⟨⟨name, version, last⟩, hnvr, h⟩ := bind_eq_ok.mp h
  obtain ⟨⟨release, arch⟩, hra, h⟩ := bind_eq_ok.mp h
  obtain ⟨⟨epoch, value⟩, hev, h⟩ := bind_eq_ok.mp h
  cases h
  obtain ⟨⟨hname, _, _⟩, rest, hlast, hrest⟩ := nameVersionRelease_ok hnvr
  obtain ⟨hrelease, harch, hdot⟩ := releaseArch_ok hra
  obtain ⟨hvalue, hcolon, hsub⟩ := epochVersion_ok hev
  refine ⟨hname, hvalue, hrelease, harch, hcolon, ?_⟩
  rintro c (hc | hc | hc | hc)
  · exact (splitLast_mem hlast).1 c ((splitLast_mem hrest).1 c hc)
  · exact (splitLast_mem hlast).1 c ((splitLast_mem hrest).2 c (hsub c hc))
  · exact (splitLast_mem hlast).2 c ((splitLast_mem hdot).1 c hc)
  · exact (splitLast_mem hlast).2 c ((splitLast_mem hdot).2 c hc)

/-- A character of a package name, and more than a line break. -/
def isPrintable (c : Char) : Prop := '\n' < c ∧ c ≠ '\r'

theorem printable_of_le {c d : Char} (h : d ≤ c) (hd : ' ' < d) : isPrintable c := by
  have hc : ' ' < c := lt_of_lt_of_le hd h
  refine ⟨lt_trans (by decide) hc, fun he => ?_⟩
  rw [he] at hc
  exact absurd hc (by decide)

theorem isAlnum_printable {c : Char} (h : isAlnum c = true) : isPrintable c := by
  simp only [isAlnum, Bool.or_eq_true, Bool.and_eq_true, decide_eq_true_eq] at h
  rcases h with (h | h) | h
  · exact printable_of_le h.1 (by decide)
  · exact printable_of_le h.1 (by decide)
  · exact printable_of_le h.1 (by decide)

theorem isNevraChar_printable {c : Char} (h : isNevraChar c = true) : isPrintable c := by
  rw [isNevraChar, Bool.or_eq_true, List.contains_iff_mem] at h
  rcases h with h | h
  · exact isAlnum_printable h
  · have hall : ∀ d ∈ "+_.:~^%-".toList, ' ' < d := forall_of_all (by decide)
    exact printable_of_le (le_refl c) (hall c h)

theorem isHexDigit_printable {c : Char} (h : isHexDigit c = true) : isPrintable c := by
  simp only [isHexDigit, Bool.or_eq_true, Bool.and_eq_true, decide_eq_true_eq] at h
  rcases h with h | h
  · exact printable_of_le h.1 (by decide)
  · exact printable_of_le h.1 (by decide)

theorem mem_of_takeWhile {p : Char → Bool} {cs : List Char} {c : Char} (h : c ∈ cs.takeWhile p) : p c = true := by
  induction cs with
  | nil => simp at h
  | cons d cs ih =>
    rw [List.takeWhile_cons] at h
    split at h
    · rcases List.mem_cons.mp h with rfl | h
      · assumption
      · exact ih h
    · simp at h

/-- A text whose characters satisfy `φ` where they satisfy `p`, and from there on. -/
theorem forall_of_split {φ : Char → Prop} {p : Char → Bool} {cs : List Char} (hp : ∀ c, p c = true → φ c)
    (hrest : ∀ c ∈ cs.dropWhile p, φ c) : ∀ c ∈ cs, φ c := by
  intro c hc
  rw [← List.takeWhile_append_dropWhile (p := p) (l := cs), List.mem_append] at hc
  rcases hc with hc | hc
  · exact hp c (mem_of_takeWhile hc)
  · exact hrest c hc

/-- The characters of a signing key's name that are no hexadecimal digits. -/
def keyChars : List Char := "gpg-pubkey-:.(none)".toList

def IsKeyChar (c : Char) : Prop := isHexDigit c = true ∨ c ∈ keyChars

theorem isSigningKey_chars {cs : List Char} (h : isSigningKey cs = true) :
    ∀ c ∈ cs, IsKeyChar c := by
  simp only [isSigningKey, Bool.and_eq_true, beq_iff_eq] at h
  obtain ⟨⟨hhead, _⟩, hkey⟩ := h
  have hlit : ∀ text : List Char, text ⊆ keyChars → ∀ c ∈ text, IsKeyChar c :=
    fun text ht c hc => Or.inr (ht hc)
  intro c hc
  rw [← List.take_append_drop 11 cs, List.mem_append, hhead] at hc
  rcases hc with hc | hc
  · exact hlit _ (by decide) c hc
  · refine forall_of_split (p := fun c => isHexDigit c || c == ':') ?_ ?_ c hc
    · intro d hd
      rcases (Bool.or_eq_true _ _).mp hd with hd | hd
      · exact Or.inl hd
      · exact hlit [':'] (by decide) d (by simpa using hd)
    · unfold isKeyRelease at hkey
      split at hkey
      · next ds hds =>
        rw [hds]
        simp only [Bool.and_eq_true, beq_iff_eq] at hkey
        intro d hd
        rcases List.mem_cons.mp hd with rfl | hd
        · exact hlit ['-'] (by decide) _ (by simp)
        · refine forall_of_split (p := isHexDigit) (fun _ h => Or.inl h) ?_ d hd
          rw [hkey.2]
          exact hlit _ (by decide)
      · cases hkey

theorem isSigningKey_printable {cs : List Char} (h : isSigningKey cs = true) : ∀ c ∈ cs, isPrintable c := by
  intro c hc
  rcases isSigningKey_chars h c hc with hhex | hmem
  · exact isHexDigit_printable hhex
  · have hall : ∀ d ∈ keyChars, ' ' < d := forall_of_all (by decide)
    exact printable_of_le (le_refl c) (hall c hmem)

/-- What a normalized name is made of. -/
theorem normalize_ok {v : Json} {s : String} (h : normalize v = .ok s) :
    ∃ t n, v = .str t ∧ ((t.toList.isEmpty = false ∧ t.toList.all isNevraChar = true) ∨ isSigningKey t.toList = true) ∧
      parseNevra t.toList = .ok n ∧ s = String.ofList n.text := by
  unfold normalize at h
  split at h
  · next t =>
    split at h
    · next hc =>
      obtain ⟨n, hn, rfl⟩ := map_eq_ok.mp h
      exact ⟨t, n, rfl, by simpa using hc, hn, rfl⟩
    · cases h
  · cases h

theorem normalize_printable {v : Json} {s : String} (h : normalize v = .ok s) : ∀ c ∈ s.toList, isPrintable c := by
  obtain ⟨t, n, _, hchars, hn, rfl⟩ := normalize_ok h
  obtain ⟨_, _, _, _, _, hsub⟩ := parseNevra_ok hn
  have hall : ∀ c ∈ t.toList, isPrintable c := by
    rcases hchars with hchars | hkey
    · exact fun c hc => isNevraChar_printable (List.all_eq_true.mp hchars.2 c hc)
    · exact isSigningKey_printable hkey
  have hmark : ∀ d ∈ ['-', ':', '.'], isPrintable d := by
    have : ∀ d ∈ ['-', ':', '.'], ' ' < d := forall_of_all (by decide)
    exact fun d hd => printable_of_le (le_refl d) (this d hd)
  intro c hc
  rw [String.toList_ofList, Nevra.text] at hc
  simp only [List.mem_append, List.mem_cons] at hc
  rcases hc with hc | rfl | hc | rfl | hc | rfl | hc | rfl | hc
  · exact hall c (hsub c (Or.inl hc))
  · exact hmark _ (by simp)
  · exact printable_of_le (toDigits_isDigit _ c hc).1 (by decide)
  · exact hmark _ (by simp)
  · exact hall c (hsub c (Or.inr (Or.inl hc)))
  · exact hmark _ (by simp)
  · exact hall c (hsub c (Or.inr (Or.inr (Or.inl hc))))
  · exact hmark _ (by simp)
  · exact hall c (hsub c (Or.inr (Or.inr (Or.inr hc))))

/-! ## The loop -/

/-- The action and the name of a record that is in order. -/
def packageOf (record : Json) : Option (Action × String) :=
  match actionOf record, normalize ((record.get "nevra").getD .null) with
  | .ok action, .ok name => some (action, name)
  | _, _ => none

/-- The packages of the records of a kind. -/
def namesOf (t : Target) (records : List Json) : List String :=
  (records.filterMap packageOf).filterMap fun x => if x.1.target = t then some x.2 else none

/-- The path under which a record's package is stored, and its name. -/
def storedOf (record : Json) : Option (String × String) :=
  match packageOf record, record.get "package_path" with
  | some (action, name), some (.str raw) => if action.incoming then some ((PurePath.parse raw).str, name) else none
  | _, _ => none

def isIncoming (record : Json) : Bool := (packageOf record).any fun x => x.1.incoming

theorem readPackage_ok {s : Scan} {record : Json} {a : Action} {name : String}
    (h : readPackage s record = .ok (a, name)) : packageOf record = some (a, name) ∧ name ∉ s.names a.target := by
  obtain ⟨_, _, h⟩ := bind_eq_ok.mp h
  obtain ⟨action, haction, h⟩ := bind_eq_ok.mp h
  obtain ⟨name', hname, h⟩ := bind_eq_ok.mp h
  obtain ⟨_, hnew, h⟩ := bind_eq_ok.mp h
  cases h
  rw [demand_ok] at hnew
  exact ⟨by rw [packageOf, haction, hname], by simpa using hnew⟩

theorem rawPath_ok {record : Json} {raw : String} (h : rawPath record = .ok raw) :
    record.get "package_path" = some (.str raw) ∧ raw ≠ "" := by
  unfold rawPath at h
  split at h
  · next r hr =>
    split at h
    · cases h
    · next hne =>
      cases h
      exact ⟨hr, hne⟩
  · cases h

theorem checkPath_ok {raw path : String} (h : checkPath raw = .ok path) : path = (PurePath.parse raw).str := by
  simp only [checkPath] at h
  split at h
  · cases h
  · split at h
    · cases h
    · split at h
      · cases h
        rfl
      · cases h

theorem storePath_ok {s s' : Scan} {record : Json} {name : String} (h : storePath s record name = .ok s') :
    ∃ raw, record.get "package_path" = some (.str raw) ∧ (PurePath.parse raw).str ∉ s.paths.map Prod.fst ∧
      s' = { s with paths := s.paths ++ [((PurePath.parse raw).str, name)] } := by
  obtain ⟨raw, hraw, h⟩ := bind_eq_ok.mp h
  obtain ⟨path, hpath, h⟩ := bind_eq_ok.mp h
  obtain ⟨_, hnew, h⟩ := bind_eq_ok.mp h
  cases h
  rw [demand_ok] at hnew
  obtain rfl := checkPath_ok hpath
  exact ⟨raw, (rawPath_ok hraw).1, by simpa using hnew, rfl⟩

/-- What one record adds. -/
theorem readRecord_ok {s s' : Scan} {record : Json} (h : readRecord s record = .ok s') :
    ∃ a name, packageOf record = some (a, name) ∧ name ∉ s.names a.target ∧
      s'.names = Function.update s.names a.target (s.names a.target ++ [name]) ∧
      s'.paths = s.paths ++ (storedOf record).toList ∧
      (a.incoming = true → ∃ p, storedOf record = some p ∧ p.1 ∉ s.paths.map Prod.fst) ∧
      (a.incoming = false → storedOf record = none) := by
  obtain ⟨⟨a, name⟩, hpackage, h⟩ := bind_eq_ok.mp h
  obtain ⟨hof, hnew⟩ := readPackage_ok hpackage
  refine ⟨a, name, hof, hnew, ?_⟩
  cases ha : a.incoming with
  | true =>
    simp only [ha, if_true] at h
    obtain ⟨raw, hraw, hpath, rfl⟩ := storePath_ok h
    have hstored : storedOf record = some ((PurePath.parse raw).str, name) := by
      simp [storedOf, hof, hraw, ha]
    exact ⟨rfl, by rw [hstored]; rfl, fun _ => ⟨_, hstored, hpath⟩, nofun⟩
  | false =>
    simp only [ha, Bool.false_eq_true, if_false] at h
    obtain ⟨_, hnone, h⟩ := bind_eq_ok.mp h
    cases h
    rw [demand_ok, Option.isNone_iff_eq_none] at hnone
    have hstored : storedOf record = none := by simp [storedOf, hof, hnone]
    exact ⟨rfl, by rw [hstored]; simp [Scan.add], nofun, fun _ => hstored⟩

/-- What holds of the sets and paths while the records are read. -/
structure Scan.Distinct (s : Scan) : Prop where
  names : ∀ t, (s.names t).Nodup
  paths : (s.paths.map Prod.fst).Nodup

theorem namesOf_cons {t : Target} {record : Json} {records : List Json} {a : Action} {name : String}
    (h : packageOf record = some (a, name)) :
    namesOf t (record :: records) = (if a.target = t then [name] else []) ++ namesOf t records := by
  rw [namesOf, List.filterMap_cons_some h, List.filterMap_cons]
  by_cases ht : a.target = t
  · simp [ht, namesOf]
  · simp [ht, namesOf]

theorem names_update {s : Scan} {a : Action} {name : String} (t : Target) :
    Function.update s.names a.target (s.names a.target ++ [name]) t =
      s.names t ++ if a.target = t then [name] else [] := by
  by_cases ht : a.target = t
  · subst ht
    simp
  · rw [Function.update_of_ne (Ne.symm ht), if_neg ht, List.append_nil]

theorem readRecord_distinct {s s' : Scan} {record : Json} (h : readRecord s record = .ok s') (hs : s.Distinct) :
    s'.Distinct := by
  obtain ⟨a, name, _, hnew, hnames, hpaths, hin, hout⟩ := readRecord_ok h
  constructor
  · intro t
    rw [hnames, names_update]
    by_cases ht : a.target = t
    · rw [if_pos ht, ← ht]
      exact List.nodup_append.mpr ⟨hs.names _, by simp, fun x hx y hy hxy => hnew (by
        rw [List.mem_singleton] at hy
        rwa [← hy, ← hxy])⟩
    · rw [if_neg ht, List.append_nil]
      exact hs.names t
  · rw [hpaths]
    cases ha : a.incoming with
    | true =>
      obtain ⟨p, hp, hpnew⟩ := hin ha
      rw [hp, List.map_append]
      refine List.nodup_append.mpr ⟨hs.paths, by simp, fun x hx y hy hxy => hpnew ?_⟩
      have hy' : y = p.1 := by simpa using hy
      rwa [← hy', ← hxy]
    | false =>
      rw [hout ha]
      simpa using hs.paths

/-- The sets and paths at the end of the loop. -/
theorem readRecords_ok {s s' : Scan} {records : List Json} (h : readRecords s records = .ok s') (hs : s.Distinct) :
    s'.Distinct ∧ (∀ t, s'.names t = s.names t ++ namesOf t records) ∧
      s'.paths = s.paths ++ records.filterMap storedOf ∧
      (records.filter isIncoming).map storedOf = (records.filterMap storedOf).map some := by
  induction records generalizing s with
  | nil =>
    cases h
    exact ⟨hs, fun t => by simp [namesOf], by simp, rfl⟩
  | cons record records ih =>
    obtain ⟨s₁, hrecord, h⟩ := bind_eq_ok.mp h
    obtain ⟨a, name, hof, _, hnames, hpaths, hin, hout⟩ := readRecord_ok hrecord
    obtain ⟨hdistinct, hnames', hpaths', hincoming⟩ := ih h (readRecord_distinct hrecord hs)
    refine ⟨hdistinct, fun t => ?_, ?_, ?_⟩
    · rw [hnames', hnames, names_update, namesOf_cons hof, List.append_assoc]
    · rw [hpaths', hpaths, List.append_assoc]
      cases hstored : storedOf record <;> simp [hstored]
    · have hinc : isIncoming record = a.incoming := by simp [isIncoming, hof]
      cases ha : a.incoming with
      | true =>
        obtain ⟨p, hp, _⟩ := hin ha
        rw [List.filter_cons_of_pos (by rw [hinc, ha]), List.filterMap_cons_some hp, List.map_cons, List.map_cons,
          hp, hincoming]
      | false =>
        rw [List.filter_cons_of_neg (by rw [hinc, ha]; decide), List.filterMap_cons_none (hout ha), hincoming]

/-- The incoming packages, in the order of their paths. -/
theorem stored_perm {s s' : Scan} {records : List Json} (h : readRecords s records = .ok s') :
    ((records.filterMap storedOf).map Prod.snd).Perm (namesOf .added records ++ namesOf .reinstalled records) := by
  induction records generalizing s with
  | nil => exact List.Perm.refl _
  | cons record records ih =>
    obtain ⟨s₁, hrecord, h⟩ := bind_eq_ok.mp h
    obtain ⟨a, name, hof, _, _, _, hin, hout⟩ := readRecord_ok hrecord
    rw [namesOf_cons hof, namesOf_cons hof]
    cases ha : a.incoming with
    | true =>
      obtain ⟨p, hp, _⟩ := hin ha
      have hname : p.2 = name := by
        simp only [storedOf, hof] at hp
        split at hp
        · next hx _ =>
          cases hx
          rw [if_pos ha] at hp
          cases hp
          rfl
        · cases hp
      rw [List.filterMap_cons_some hp, List.map_cons, hname]
      have htarget : a.target = .added ∨ a.target = .reinstalled := by
        cases a <;> simp_all [Action.incoming, Action.target]
      rcases htarget with ht | ht
      · simpa [ht] using (ih h).cons name
      · simp only [ht, reduceCtorEq, if_false, if_true, List.nil_append]
        exact ((ih h).cons name).trans List.perm_middle.symm
    | false =>
      have htarget : a.target = .removed := by
        cases a <;> simp_all [Action.incoming, Action.target]
      rw [List.filterMap_cons_none (hout ha)]
      simpa [htarget] using ih h

/-! ## Sorting -/

theorem concat_lt {a b : List Char} (hb : ∀ c ∈ b, '\n' < c) (h : a < b) : a ++ ['\n'] < b ++ ['\n'] := by
  induction a generalizing b with
  | nil =>
    cases b with
    | nil => simp at h
    | cons c b => exact List.cons_lt_cons_iff.mpr (Or.inl (hb c (by simp)))
  | cons x a ih =>
    cases b with
    | nil => simp at h
    | cons c b =>
      rw [List.cons_append, List.cons_append, List.cons_lt_cons_iff]
      rcases List.cons_lt_cons_iff.mp h with hlt | ⟨heq, hlt⟩
      · exact Or.inl hlt
      · exact Or.inr ⟨heq, ih (fun d hd => hb d (by simp [hd])) hlt⟩

def Printable (s : String) : Prop := ∀ c ∈ s.toList, isPrintable c

/-- A line break at the end does not change the order of printable texts. -/
theorem line_le_line {a b : String} (ha : Printable a) (hb : Printable b) : a ≤ b ↔ a ++ "\n" ≤ b ++ "\n" := by
  have hmono : ∀ {x y : String}, Printable y → x < y → x ++ "\n" < y ++ "\n" := by
    intro x y hy h
    rw [String.lt_iff_toList_lt] at h ⊢
    rw [String.toList_append, String.toList_append]
    exact concat_lt (fun c hc => (hy c hc).1) h
  constructor
  · intro h
    rcases lt_or_eq_of_le h with hlt | rfl
    · exact le_of_lt (hmono hb hlt)
    · exact le_refl _
  · intro h
    by_contra hno
    exact absurd (hmono ha (not_le.mp hno)) (not_lt.mpr h)

theorem sortNames_perm {names names' : List String} (h : names.Perm names') : sortNames names = sortNames names' := by
  apply List.Perm.eq_of_sortedLE List.sortedLE_insertionSort List.sortedLE_insertionSort
  calc List.Perm (sortNames names) names := List.perm_insertionSort _ names
    List.Perm _ names' := h
    List.Perm _ (sortNames names') := (List.perm_insertionSort _ names').symm

theorem sortNames_lines {names : List String} (h : ∀ n ∈ names, Printable n) :
    sortNames (names.map (· ++ "\n")) = (sortNames names).map (· ++ "\n") :=
  (List.map_insertionSort (· ≤ ·) (· ≤ ·) _ names fun a ha b hb => line_le_line (h a ha) (h b hb)).symm

/-! ## A listing and its lines -/

theorem byteLines_line {cs : List Char} (rest line : List Char) (h : ∀ c ∈ cs, isPrintable c) :
    byteLines (cs ++ '\n' :: rest) line = String.ofList (line.reverse ++ cs ++ ['\n']) :: byteLines rest [] := by
  induction cs generalizing line with
  | nil => simp [byteLines]
  | cons c cs ih =>
    obtain ⟨hlt, hr⟩ := h c (by simp)
    have hn : c ≠ '\n' := fun he => absurd hlt (by rw [he]; decide)
    rw [List.cons_append, byteLines.eq_4 _ _ _ (fun _ he _ => absurd he hr), if_neg (by simp [hn, hr]),
      ih (c :: line) fun d hd => h d (by simp [hd])]
    simp

theorem byteLines_inventory {names : List String} (h : ∀ n ∈ names, Printable n) :
    byteLines (inventoryText names).toList [] = names.map (· ++ "\n") := by
  induction names with
  | nil => rfl
  | cons n names ih =>
    have htext : (inventoryText (n :: names)).toList = n.toList ++ '\n' :: (inventoryText names).toList := by
      simp [inventoryText, String.join_cons]
    rw [htext, byteLines_line _ _ (h n (by simp)), ih fun m hm => h m (by simp [hm]), List.map_cons]
    congr 1
    rw [← String.toList_inj]
    simp

/-- The baseline of a listing of some packages, in any order. -/
theorem packageBaseline_listing (sha256 : String → String) {lines names : List String} (hperm : lines.Perm names)
    (h : ∀ n ∈ names, Printable n) :
    packageBaseline sha256 (inventoryText lines) = sha256 (inventoryText (sortNames names)) := by
  have hlines : ∀ n ∈ lines, Printable n := fun n hn => h n (hperm.mem_iff.mp hn)
  rw [packageBaseline, byteLines_inventory hlines, sortNames_lines hlines, sortNames_perm hperm]
  rfl

/-! ## The result -/

theorem normalizeAll_printable {lines names : List String} (h : normalizeAll lines = .ok names) :
    ∀ n ∈ names, Printable n := by
  induction lines generalizing names with
  | nil =>
    cases h
    simp
  | cons line lines ih =>
    obtain ⟨name, hname, h⟩ := bind_eq_ok.mp h
    obtain ⟨rest, hrest, h⟩ := bind_eq_ok.mp h
    cases h
    intro n hn
    rcases List.mem_cons.mp hn with rfl | hn
    · exact normalize_printable hname
    · exact ih hrest n hn

theorem installedOf_ok {before : String} {names : List String} (h : installedOf before = .ok names) :
    names.Nodup ∧ ∀ n ∈ names, Printable n := by
  obtain ⟨_, _, h⟩ := bind_eq_ok.mp h
  split at h
  · cases h
  · obtain ⟨names', hnames, h⟩ := bind_eq_ok.mp h
    obtain ⟨_, hnodup, h⟩ := bind_eq_ok.mp h
    cases h
    rw [demand_ok, decide_eq_true_eq] at hnodup
    exact ⟨hnodup, normalizeAll_printable hnames⟩

theorem namesOf_printable {t : Target} {records : List Json} : ∀ n ∈ namesOf t records, Printable n := by
  intro n hn
  obtain ⟨x, hx, hxn⟩ := List.mem_filterMap.mp hn
  obtain ⟨record, _, hof⟩ := List.mem_filterMap.mp hx
  split at hxn
  · cases hxn
    unfold packageOf at hof
    split at hof
    · next hname =>
      cases hof
      exact normalize_printable hname
    · cases hof
  · cases hxn

theorem checkSets_ok {installed : List String} {s : Scan} {u : Unit} (h : checkSets installed s = .ok u) :
    (∀ n ∈ s.names .removed, n ∈ installed) ∧ (∀ n ∈ s.names .reinstalled, n ∈ installed) ∧
      (∀ n ∈ s.names .added, n ∈ installed → n ∈ s.names .removed) ∧
      ∀ n ∈ s.names .reinstalled, n ∉ s.names .added ∧ n ∉ s.names .removed := by
  obtain ⟨_, hbase, h⟩ := bind_eq_ok.mp h
  rw [demand_ok] at hbase h
  simp only [Bool.and_eq_true, List.all_eq_true, List.contains_iff_mem] at hbase
  simp only [Bool.and_eq_true, Bool.not_eq_true', List.any_eq_false, Bool.or_eq_true, List.contains_iff_mem,
    not_and, not_or] at h
  refine ⟨hbase.1, hbase.2, fun n hn hi => ?_, h.2⟩
  simpa using h.1 n hn hi

theorem mem_resulting {installed : List String} {s : Scan} {n : String} :
    n ∈ resulting installed s ↔ (n ∈ installed ∧ n ∉ s.names .removed) ∨ n ∈ s.names .added := by
  simp only [resulting, List.mem_append, List.mem_filter, Bool.not_eq_true', List.contains_eq_mem, decide_eq_false_iff_not]
  constructor
  · rintro (h | h)
    · exact Or.inl h
    · exact Or.inr h.1
  · rintro (h | h)
    · exact Or.inl h
    · by_cases hk : n ∈ installed ∧ n ∉ s.names .removed
      · exact Or.inl hk
      · exact Or.inr ⟨h, hk⟩

theorem nodup_resulting {installed : List String} {s : Scan} (hi : installed.Nodup) (hs : s.Distinct) :
    (resulting installed s).Nodup := by
  refine List.nodup_append.mpr ⟨hi.filter _, (hs.names .added).filter _, ?_⟩
  rintro a ha _ hb rfl
  have hb' := (List.mem_filter.mp hb).2
  rw [List.contains_iff_mem.mpr ha] at hb'
  cases hb'

/-- Some names are listed: each once, one on a line, in any order. -/
def Lists (raw : String) (names : List String) : Prop :=
  ∃ lines : List String, lines.Perm names ∧ raw = inventoryText lines

/-- What an accepted transaction comes to: the names that are left, the paths of the packages
    that come in, and what may be said of the packages that go. -/
structure Predicted (installed : List String) (records : List Json) (result : String)
    (paths : List (String × String)) (names : List String) : Prop where
  text : result = inventoryText names
  sorted : names.Pairwise (· < ·)
  mem : ∀ n, n ∈ names ↔ (n ∈ installed ∧ n ∉ namesOf .removed records) ∨ n ∈ namesOf .added records
  stored : (records.filter isIncoming).map storedOf = paths.map some
  pathsDistinct : (paths.map Prod.fst).Nodup
  packagesDistinct : (paths.map Prod.snd).Nodup
  removed : ∀ n ∈ namesOf .removed records, n ∈ installed
  reinstalled : ∀ n ∈ namesOf .reinstalled records, n ∈ installed
  added : ∀ n ∈ namesOf .added records, n ∈ installed → n ∈ namesOf .removed records
  baseline : ∀ (sha256 : String → String) raw, Lists raw names → packageBaseline sha256 raw = sha256 result

/-- **The prediction is exact**, and agrees with the baseline of the packages it names. -/
theorem expectedInventory_exact {transaction : Json} {before result : String} {paths : List (String × String)}
    (h : expectedInventory transaction before = .ok (result, paths)) :
    ∃ records installed names, recordsOf transaction = .ok records ∧ installedOf before = .ok installed ∧
      Predicted installed records result paths names := by
  obtain ⟨records, hrecords, h⟩ := bind_eq_ok.mp h
  obtain ⟨installed, hinstalled, h⟩ := bind_eq_ok.mp h
  obtain ⟨s, hs, h⟩ := bind_eq_ok.mp h
  obtain ⟨_, hsets, h⟩ := bind_eq_ok.mp h
  cases h
  obtain ⟨hdistinct, hnames, hpaths, hincoming⟩ := readRecords_ok hs ⟨fun _ => List.nodup_nil, List.nodup_nil⟩
  obtain ⟨hremoved, hreinstalled, hadded, hapart⟩ := checkSets_ok hsets
  obtain ⟨hnodup, hprintable⟩ := installedOf_ok hinstalled
  have hof : ∀ t, s.names t = namesOf t records := fun t => by simpa [Scan.empty] using hnames t
  simp only [hof] at hremoved hreinstalled hadded hapart
  have hmem : ∀ n, n ∈ sortNames (resulting installed s) ↔
      (n ∈ installed ∧ n ∉ namesOf .removed records) ∨ n ∈ namesOf .added records := by
    intro n
    rw [sortNames, List.mem_insertionSort, mem_resulting, hof, hof]
  have hsorted : (sortNames (resulting installed s)).Pairwise (· < ·) := by
    have hle : (sortNames (resulting installed s)).Pairwise (· ≤ ·) := List.pairwise_insertionSort _ _
    have hne : (sortNames (resulting installed s)).Nodup :=
      (List.perm_insertionSort _ _).nodup_iff.mpr (nodup_resulting hnodup hdistinct)
    exact (List.Pairwise.and hle hne).imp fun hab => lt_of_le_of_ne hab.1 hab.2
  have hprint : ∀ n ∈ sortNames (resulting installed s), Printable n := by
    intro n hn
    rcases (hmem n).mp hn with hn | hn
    · exact hprintable n hn.1
    · exact namesOf_printable n hn
  have hpaths' : s.paths = records.filterMap storedOf := by simpa [Scan.empty] using hpaths
  refine ⟨records, installed, sortNames (resulting installed s), hrecords, hinstalled, rfl, hsorted, hmem, ?_,
    hdistinct.paths, ?_, hremoved, hreinstalled, hadded, ?_⟩
  · rw [hincoming, hpaths']
  · rw [hpaths']
    refine (stored_perm hs).nodup_iff.mpr (List.nodup_append.mpr ⟨?_, ?_, ?_⟩)
    · rw [← hof]
      exact hdistinct.names .added
    · rw [← hof]
      exact hdistinct.names .reinstalled
    · rintro a ha _ hb rfl
      exact (hapart a hb).1 ha
  · rintro sha256 raw ⟨lines, hperm, rfl⟩
    rw [packageBaseline_listing sha256 hperm hprint, sortNames, sortNames,
      List.Pairwise.insertionSort_eq (List.pairwise_insertionSort _ _)]

/-- An upgrade with its replaced package and an installation. -/
def sampleTransaction (path : String) : Json :=
  .obj [("version", .str "1.0"), ("rpms", .arr
    [.obj [("action", .str "Upgrade"), ("nevra", .str "base-2-1.x86_64"), ("package_path", .str "./packages/base.rpm")],
      .obj [("action", .str "Replaced"), ("nevra", .str "base-1-1.x86_64")],
      .obj [("action", .str "Install"), ("nevra", .str "new-1-1.noarch"), ("package_path", .str path)]])]

def sampleBefore : String := "base-0:1-1.x86_64\nkeep-2:1-1.noarch\n"

theorem expectedInventory_sample :
    ∃ records installed names, recordsOf (sampleTransaction "./packages/new.rpm") = .ok records ∧
      installedOf sampleBefore = .ok installed ∧
      Predicted installed records "base-0:2-1.x86_64\nkeep-2:1-1.noarch\nnew-0:1-1.noarch\n"
        [("packages/base.rpm", "base-0:2-1.x86_64"), ("packages/new.rpm", "new-0:1-1.noarch")] names :=
  expectedInventory_exact (by rfl)

end Hermes.Transaction

import Mathlib.Data.List.Basic
import Mathlib.Algebra.Order.Ring.Int
import Hermes.Promotion

/- What `promotion_record_validate` accepts. The lines and values are checked as they should
   be (`status_of_wellFormed`, `status_of_not`); the times are compared as the shell reads
   them, with leading zeros for octal numbers and modulo `2^64`, and the shell drops zero bytes
   from a line. So the validation is exact for a record if and only if that reading does not
   move the present into or out of its window (`validate_exact_iff`). -/
namespace Hermes.Promotion

/-! ## Windows -/

/-- Where a time is, seen from a window. -/
inductive Window where
  | inside
  | expired
  | outside
  deriving DecidableEq, Repr

def Window.status : Window → Nat
  | .inside => 0
  | .expired => 2
  | .outside => 1

/-- The number that the digits write. -/
def decimalValue (s : String) : Int := s.toList.foldl (fun (n : Int) c => n * 10 + ((c.toNat : Int) - 48)) 0

/-- `0 < expires_at - issued_at <= 86400` and `issued_at <= now`, and `now <= expires_at` or not -/
def window (issued expires now : Int) : Window :=
  if 0 < expires - issued ∧ expires - issued ≤ promotionWindowSeconds ∧ issued ≤ now then
    if now ≤ expires then .inside else .expired
  else .outside

/-- The same of the texts, as the shell evaluates them. -/
def shellWindow (issued expires : String) (now : Int) : Window :=
  if compares (fun e i => e > i) (arith expires) (arith issued) &&
      compares (fun e i => Int.bmod (e - i) (2 ^ 64) ≤ promotionWindowSeconds) (arith expires) (arith issued) &&
      compares (· ≤ ·) (arith issued) (some now) then
    if compares (· ≤ ·) (some now) (arith expires) then .inside else .expired
  else .outside

/-- No leading zero, and less than `2^63`. -/
def isPlain (s : String) : Bool :=
  isAll isDigit s && (s.toList.head? != some '0' || s.toList.length == 1) && decide (decimalValue s < 2 ^ 63)

theorem foldl_nonneg {cs : List Char} {n : Int} (hn : 0 ≤ n) (h : cs.all isDigit = true) :
    0 ≤ cs.foldl (fun (n : Int) c => n * 10 + ((c.toNat : Int) - 48)) n := by
  induction cs generalizing n with
  | nil => exact hn
  | cons c cs ih =>
    rw [List.all_cons, Bool.and_eq_true] at h
    have hc : 48 ≤ c.toNat := by
      have h0 := h.1
      rw [isDigit, Bool.and_eq_true, decide_eq_true_eq] at h0
      exact h0.1
    rw [List.foldl_cons]
    exact ih (by omega) h.2

/-- A plain number is read as it is written. -/
theorem arith_plain {s : String} (h : isPlain s = true) : arith s = some (decimalValue s) := by
  simp only [isPlain, isAll, Bool.and_eq_true, Bool.or_eq_true, bne_iff_ne, beq_iff_eq, decide_eq_true_eq] at h
  obtain ⟨⟨⟨_, hdigits⟩, hzero⟩, hbound⟩ := h
  have hnonneg : 0 ≤ decimalValue s := foldl_nonneg (by omega) hdigits
  have hmod : Int.bmod (decimalValue s) (2 ^ 64) = decimalValue s := Int.bmod_eq_of_le (by omega) (by omega)
  unfold arith
  split
  · next c cs heq =>
    rw [heq] at hzero
    simp at hzero
  · rw [decimalValue] at hmod ⊢
    rw [hmod]

theorem shellWindow_plain {issued expires : String} (now : Int) (hi : isPlain issued = true)
    (he : isPlain expires = true) :
    shellWindow issued expires now = window (decimalValue issued) (decimalValue expires) now := by
  have bounds : ∀ {s : String}, isPlain s = true → 0 ≤ decimalValue s ∧ decimalValue s < 2 ^ 63 := by
    intro s hs
    simp only [isPlain, isAll, Bool.and_eq_true, decide_eq_true_eq] at hs
    exact ⟨foldl_nonneg (by omega) hs.1.1.2, hs.2⟩
  have hbi := bounds hi
  have hbe := bounds he
  have hmod : Int.bmod (decimalValue expires - decimalValue issued) (2 ^ 64) =
      decimalValue expires - decimalValue issued := Int.bmod_eq_of_le (by omega) (by omega)
  rw [shellWindow, window, arith_plain hi, arith_plain he]
  simp only [compares, hmod, Bool.and_eq_true, decide_eq_true_eq]
  have hiff : ((decimalValue expires > decimalValue issued ∧
      decimalValue expires - decimalValue issued ≤ promotionWindowSeconds) ∧ decimalValue issued ≤ now) ↔
      0 < decimalValue expires - decimalValue issued ∧
        decimalValue expires - decimalValue issued ≤ promotionWindowSeconds ∧ decimalValue issued ≤ now := by
    constructor
    · rintro ⟨⟨h₁, h₂⟩, h₃⟩
      exact ⟨by omega, h₂, h₃⟩
    · rintro ⟨h₁, h₂, h₃⟩
      exact ⟨⟨by omega, h₂⟩, h₃⟩
  simp only [hiff]

/-! ## Lines -/

/-- The lines of a text; an end without a line break is a line. -/
def textLines (text : List Char) : List String :=
  let parts := text.splitOn '\n'
  (if parts.getLast? = some [] then parts.dropLast else parts).map String.ofList

/-- A byte that `read` drops. -/
def isNul (c : Char) : Bool := c.toNat == 0

/-- The lines that `read -r` gives. -/
def readLines (text : List Char) : List String := textLines (text.filter fun c => !isNul c)

/-- A regular readable file of mode 600 with this text. -/
def fileOf (text : List Char) : RecordFile := { lines := readLines text }

/-- What a record is validated against. -/
structure Expected where
  provider : String
  model : String
  image : String
  fingerprint : String

/-- The values are well formed, the times being digits. -/
def checkValues (vars : Vars) : Bool :=
  vars.get .schema == promotionSchema &&
    isId (vars.get .certificationId) && isId (vars.get .promotionId) &&
    isAll isDigit (vars.get .issuedAt) && isAll isDigit (vars.get .expiresAt) &&
    isSha256 (vars.get .artifactFingerprint) && isSha256 (vars.get .isoSha256) &&
    vars.get .isoSignature == "verified" && vars.get .fedoraVersion == "44" &&
    isKernel (vars.get .kernel) && isVersion (vars.get .podman) &&
    startsWith (vars.get .hermesImage) "docker.io/nousresearch/hermes-agent@sha256:" &&
    isProvider (vars.get .provider) && isModel (vars.get .model) &&
    vars.get .inferenceResult == "HERMES_OK" && vars.get .credentialsRevoked == "true" &&
    vars.get .dataPurged == "true" && vars.get .vmDestroyed == "true"

/-- Every key has exactly one line, and there are no others. -/
structure Once (lines : List String) (vars : Vars) : Prop where
  set : ∀ k, (vars k).isSome = true
  lines : ∃ keys : List Key, keys.Perm Key.all ∧
    lines.map parseLine = keys.map fun k => (vars k).map (Prod.mk k.name)

/-- A record that is in order but for its times. -/
structure WellFormed (e : Expected) (lines : List String) (vars : Vars) : Prop where
  once : Once lines vars
  values : checkValues vars = true
  provider : vars.get .provider = e.provider
  model : vars.get .model = e.model
  image : vars.get .hermesImage = e.image
  fingerprint : vars.get .artifactFingerprint = e.fingerprint

/-! ## The loop -/

theorem Key.ofName_name (k : Key) : Key.ofName k.name = some k := by cases k <;> decide

theorem Key.name_of_ofName {name : String} {k : Key} (h : Key.ofName name = some k) : k.name = name := by
  have := List.find?_some h
  simpa using this

theorem Key.nodup_all : Key.all.Nodup := by decide

/-- What the loop goes through: lines of different keys that have no value yet. -/
structure Loaded (lines : List String) (vars vars' : Vars) (keys : List Key) : Prop where
  nodup : keys.Nodup
  fresh : ∀ k ∈ keys, vars k = none
  set : ∀ k ∈ keys, (vars' k).isSome = true
  others : ∀ k, k ∉ keys → vars' k = vars k
  lines : lines.map parseLine = keys.map fun k => (vars' k).map (Prod.mk k.name)

theorem loadLines_iff {lines : List String} {vars vars' : Vars} :
    loadLines lines vars = (true, vars') ↔ ∃ keys, Loaded lines vars vars' keys := by
  induction lines generalizing vars with
  | nil =>
    constructor
    · intro h
      cases h
      exact ⟨[], by simp, by simp, by simp, by simp, rfl⟩
    · rintro ⟨keys, h⟩
      have hnil : keys = [] := List.map_eq_nil_iff.mp h.lines.symm
      have hvars : vars' = vars := funext fun k => h.others k (by simp [hnil])
      rw [hvars]
      rfl
  | cons line lines ih =>
    constructor
    · intro h
      rw [loadLines] at h
      split at h
      · cases h
      · next name value hline =>
        split at h
        · cases h
        · next k hk =>
          split at h
          · cases h
          · next hnone =>
            obtain ⟨keys, hkeys⟩ := ih.mp h
            have hname := Key.name_of_ofName hk
            have hnotin : k ∉ keys := fun hmem => by
              have := hkeys.fresh k hmem
              simp [Vars.set] at this
            have hvalue : vars' k = some value := by
              rw [hkeys.others k hnotin, Vars.set, if_pos rfl]
            refine ⟨k :: keys, List.nodup_cons.mpr ⟨hnotin, hkeys.nodup⟩, ?_, ?_, ?_, ?_⟩
            · intro j hj
              rcases List.mem_cons.mp hj with rfl | hj
              · simpa using hnone
              · have hjk : j ≠ k := fun he => hnotin (he ▸ hj)
                have := hkeys.fresh j hj
                rwa [Vars.set, if_neg hjk] at this
            · intro j hj
              rcases List.mem_cons.mp hj with rfl | hj
              · simp [hvalue]
              · exact hkeys.set j hj
            · intro j hj
              rw [List.mem_cons, not_or] at hj
              rw [hkeys.others j hj.2, Vars.set, if_neg hj.1]
            · rw [List.map_cons, List.map_cons, hkeys.lines, hline, hvalue, hname]
              rfl
    · rintro ⟨keys, h⟩
      cases keys with
      | nil => exact absurd h.lines (by simp)
      | cons k keys =>
        have hlines := h.lines
        rw [List.map_cons, List.map_cons, List.cons.injEq] at hlines
        obtain ⟨value, hvalue⟩ := Option.isSome_iff_exists.mp (h.set k (by simp))
        rw [hvalue] at hlines
        obtain ⟨hnotin, hnodup⟩ := List.nodup_cons.mp h.nodup
        have hrest : Loaded lines (vars.set k value) vars' keys := by
          refine ⟨hnodup, fun j hj => ?_, fun j hj => h.set j (by simp [hj]), fun j hj => ?_, hlines.2⟩
          · have hjk : j ≠ k := fun he => hnotin (he ▸ hj)
            rw [Vars.set, if_neg hjk]
            exact h.fresh j (by simp [hj])
          · by_cases hjk : j = k
            · rw [hjk, hvalue, Vars.set, if_pos rfl]
            · rw [h.others j (by simp [hjk, hj]), Vars.set, if_neg hjk]
        rw [loadLines, hlines.1]
        simp only [Option.map_some, Key.ofName_name, h.fresh k (by simp), Option.isSome_none, Bool.false_eq_true, if_false]
        exact ih.mpr ⟨keys, hrest⟩

/-- The loop has gone through all lines and set all variables exactly if every key has one
    line. -/
theorem once_iff {lines : List String} {vars : Vars} :
    Once lines vars ↔ loadLines lines (fun _ => none) = (true, vars) ∧ Key.all.all (fun k => (vars k).isSome) = true := by
  rw [loadLines_iff, List.all_eq_true]
  constructor
  · rintro ⟨hset, keys, hperm, hlines⟩
    have hall : ∀ k, k ∈ keys := fun k => hperm.mem_iff.mpr k.mem_all
    exact ⟨⟨keys, hperm.nodup_iff.mpr Key.nodup_all, fun _ _ => rfl, fun k _ => hset k,
      fun k hk => absurd (hall k) hk, hlines⟩, fun k _ => hset k⟩
  · rintro ⟨⟨keys, h⟩, hset⟩
    have hall : ∀ k, k ∈ keys := by
      intro k
      by_contra hk
      have := hset k k.mem_all
      rw [h.others k hk] at this
      cases this
    refine ⟨fun k => hset k k.mem_all, keys, ?_, h.lines⟩
    exact (List.perm_ext_iff_of_nodup h.nodup Key.nodup_all).mpr fun k => ⟨fun _ => k.mem_all, fun _ => hall k⟩

theorem Once.unique {lines : List String} {vars vars' : Vars} (h : Once lines vars) (h' : Once lines vars') :
    vars = vars' := by
  have := (once_iff.mp h).1.symm.trans (once_iff.mp h').1
  exact (Prod.mk.inj this).2

/-! ## The status -/

/-- The values and the times are checked together. -/
theorem checkVars_eq (vars : Vars) : checkVars vars = (checkValues vars &&
    compares (fun e i => e > i) (arith (vars.get .expiresAt)) (arith (vars.get .issuedAt)) &&
    compares (fun e i => Int.bmod (e - i) (2 ^ 64) ≤ promotionWindowSeconds) (arith (vars.get .expiresAt))
      (arith (vars.get .issuedAt))) := by
  simp only [checkVars, checkValues]
  ac_rfl

section
variable {e : Expected} {text : List Char} {now : Int} {vars : Vars}

/-- `promotion_record_validate` of a file with this text -/
abbrev recordStatus (e : Expected) (text : List Char) (now : Int) : Nat :=
  (promotionRecordValidate (fileOf text) e.provider e.model e.image e.fingerprint now).1

theorem load_eq (text : List Char) : promotionRecordLoad (fileOf text) =
    ((loadLines (readLines text) fun _ => none).1 &&
      (Key.all.all (fun k => ((loadLines (readLines text) fun _ => none).2 k).isSome) &&
        checkVars (loadLines (readLines text) fun _ => none).2),
      (loadLines (readLines text) fun _ => none).2) := by
  have hfile : ((fileOf text).regular && (fileOf text).readable && !(fileOf text).symlink &&
      (fileOf text).mode == "600") = true := by
    simp only [fileOf]
    decide
  rw [promotionRecordLoad, if_pos hfile]
  have hlines : (fileOf text).lines = readLines text := rfl
  rw [hlines]
  rcases loadLines (readLines text) fun _ => none with ⟨_ | _, vars⟩
  · rfl
  · rfl

/-- A record in order: the times decide. -/
theorem status_of_wellFormed (h : WellFormed e (readLines text) vars) :
    recordStatus e text now = (shellWindow (vars.get .issuedAt) (vars.get .expiresAt) now).status := by
  obtain ⟨hload, hall⟩ := once_iff.mp h.once
  have hvars : (promotionRecordLoad (fileOf text)).2 = vars := by rw [load_eq, hload]
  have hok : (promotionRecordLoad (fileOf text)).1 =
      (compares (fun e i => e > i) (arith (vars.get .expiresAt)) (arith (vars.get .issuedAt)) &&
        compares (fun e i => Int.bmod (e - i) (2 ^ 64) ≤ promotionWindowSeconds) (arith (vars.get .expiresAt))
          (arith (vars.get .issuedAt))) := by
    rw [load_eq, hload, hall, checkVars_eq, h.values]
    rfl
  simp only [recordStatus, promotionRecordValidate, hvars, hok, shellWindow]
  rw [if_neg (show ¬(vars.get .provider ≠ e.provider ∨ vars.get .model ≠ e.model) by simp [h.provider, h.model]),
    if_neg (show ¬vars.get .hermesImage ≠ e.image by simp [h.image]),
    if_neg (show ¬vars.get .artifactFingerprint ≠ e.fingerprint by simp [h.fingerprint])]
  cases compares (fun e i => e > i) (arith (vars.get .expiresAt)) (arith (vars.get .issuedAt)) &&
      compares (fun e i => Int.bmod (e - i) (2 ^ 64) ≤ promotionWindowSeconds) (arith (vars.get .expiresAt))
        (arith (vars.get .issuedAt)) with
  | false => rfl
  | true =>
    cases compares (· ≤ ·) (arith (vars.get .issuedAt)) (some now) with
    | false => rfl
    | true =>
      cases compares (· ≤ ·) (some now) (arith (vars.get .expiresAt)) with
      | false => rfl
      | true => rfl

/-- Any other record is refused. -/
theorem status_of_not (h : ∀ vars, ¬WellFormed e (readLines text) vars) : recordStatus e text now = 1 := by
  by_contra hne
  have hload : (promotionRecordLoad (fileOf text)).1 = true := by
    by_contra hno
    exact hne (by simp [recordStatus, promotionRecordValidate, hno])
  have hvars : (promotionRecordLoad (fileOf text)).2 = (loadLines (readLines text) fun _ => none).2 := by rw [load_eq]
  rw [load_eq, Bool.and_eq_true, Bool.and_eq_true, checkVars_eq, Bool.and_eq_true, Bool.and_eq_true] at hload
  obtain ⟨hread, hall, ⟨hvalues, _⟩, _⟩ := hload
  simp only [recordStatus, promotionRecordValidate, hvars] at hne
  split at hne
  · exact hne rfl
  · split at hne
    · exact hne rfl
    · next hselected =>
      rw [not_or, not_not, not_not] at hselected
      split at hne
      · exact hne rfl
      · next himage =>
        split at hne
        · exact hne rfl
        · next hfingerprint =>
          refine h _ ⟨once_iff.mpr ⟨?_, hall⟩, hvalues, hselected.1, hselected.2, not_not.mp himage, not_not.mp hfingerprint⟩
          rw [← hread]

/-! ## Exactness -/

/-- What a status should say: the file is in order, its lines being as they are written, and
    this is where the present is. -/
def Accepted (e : Expected) (text : List Char) (now : Int) (w : Window) : Prop :=
  text.any isNul = false ∧ ∃ vars, WellFormed e (textLines text) vars ∧
    window (decimalValue (vars.get .issuedAt)) (decimalValue (vars.get .expiresAt)) now = w

/-- The status is 0 for exactly the records with the present inside their window, 2 for exactly
    those with an expired one. -/
def Exact (e : Expected) (text : List Char) (now : Int) : Prop :=
  (recordStatus e text now = 0 ↔ Accepted e text now .inside) ∧
    (recordStatus e text now = 2 ↔ Accepted e text now .expired)

/-- Where the present is, as the text has it; one with zero bytes has no window. -/
def writtenWindow (text : List Char) (vars : Vars) (now : Int) : Window :=
  if text.any isNul then .outside
  else window (decimalValue (vars.get .issuedAt)) (decimalValue (vars.get .expiresAt)) now

theorem readLines_of_plain (h : text.any isNul = false) : readLines text = textLines text := by
  rw [readLines, List.filter_eq_self.mpr]
  intro c hc
  simpa using List.any_eq_false.mp h c hc

/-- The record is accepted where its window, as written, is. -/
theorem accepted_iff {w : Window} (h : WellFormed e (readLines text) vars) (hw : w ≠ .outside) :
    Accepted e text now w ↔ writtenWindow text vars now = w := by
  rw [Accepted, writtenWindow]
  cases hnul : text.any isNul with
  | true => simp [hw.symm]
  | false =>
    rw [readLines_of_plain hnul] at h
    simp only [Bool.false_eq_true, if_false, true_and]
    constructor
    · rintro ⟨vars', h', hwindow⟩
      rwa [h.once.unique h'.once]
    · exact fun hwindow => ⟨vars, h, hwindow⟩

theorem status_eq_zero {w : Window} : w.status = 0 ↔ w = .inside := by cases w <;> decide

theorem status_eq_two {w : Window} : w.status = 2 ↔ w = .expired := by cases w <;> decide

/-- Two windows that are inside and expired at the same times are one. -/
theorem window_ext {w w' : Window} (h₁ : w = .inside ↔ w' = .inside) (h₂ : w = .expired ↔ w' = .expired) : w = w' := by
  revert h₁ h₂
  cases w <;> cases w' <;> decide

/-- **The validation is exact** for a record if and only if, should it be in order but for its
    times and for zero bytes, the shell sees the present where the text puts it. -/
theorem validate_exact_iff (e : Expected) (text : List Char) (now : Int) :
    Exact e text now ↔ ∀ vars, WellFormed e (readLines text) vars →
      shellWindow (vars.get .issuedAt) (vars.get .expiresAt) now = writtenWindow text vars now := by
  by_cases h : ∃ vars, WellFormed e (readLines text) vars
  · obtain ⟨vars, hvars⟩ := h
    have hexact : Exact e text now ↔
        shellWindow (vars.get .issuedAt) (vars.get .expiresAt) now = writtenWindow text vars now := by
      rw [Exact, status_of_wellFormed hvars, status_eq_zero, status_eq_two, accepted_iff hvars (by decide),
        accepted_iff hvars (by decide)]
      exact ⟨fun h => window_ext h.1 h.2, fun h => by rw [h]; exact ⟨Iff.rfl, Iff.rfl⟩⟩
    rw [hexact]
    constructor
    · intro heq vars' hvars'
      rw [← hvars.once.unique hvars'.once]
      exact heq
    · exact fun hall => hall vars hvars
  · have hno : ∀ vars, ¬WellFormed e (readLines text) vars := fun vars hv => h ⟨vars, hv⟩
    have hnot : ∀ w, ¬Accepted e text now w := by
      rintro w ⟨hnul, vars, hv, _⟩
      rw [← readLines_of_plain hnul] at hv
      exact hno vars hv
    rw [Exact, status_of_not hno]
    exact ⟨fun _ vars hv => absurd hv (hno vars), fun _ => ⟨⟨nofun, fun ha => absurd ha (hnot _)⟩,
      ⟨nofun, fun ha => absurd ha (hnot _)⟩⟩⟩

end

/-! ## Writing a record -/

/-- The line of a key. -/
def lineOf (values : Key → String) (k : Key) : List Char := k.name.toList ++ '=' :: (values k).toList

/-- The text of a record. -/
def recordText (values : Key → String) : List Char := Key.all.flatMap fun k => lineOf values k ++ ['\n']

/-- The value can be that of a line. -/
def isValue (s : String) : Bool := !s.toList.isEmpty && s.toList.all fun c => !isBlank c && !isNul c

theorem Key.name_chars (k : Key) : k.name.toList.head?.any isLower = true ∧
    k.name.toList.all (fun c => isKeyChar c && !isNul c && c != '\n') = true := by
  have hall : Key.all.all (fun k => k.name.toList.head?.any isLower &&
      k.name.toList.all fun c => isKeyChar c && !isNul c && c != '\n') = true := by decide +kernel
  have hk := List.all_eq_true.mp hall k k.mem_all
  rw [Bool.and_eq_true] at hk
  exact hk

theorem splitOn_lines {lines : List (List Char)} (h : ∀ l ∈ lines, '\n' ∉ l) :
    (lines.flatMap (· ++ ['\n'])).splitOn '\n' = lines ++ [[]] := by
  induction lines with
  | nil => rfl
  | cons l lines ih =>
    rw [List.flatMap_cons, List.append_assoc, List.singleton_append,
      List.splitOn_append_cons_self_of_not_mem (h l (by simp)), ih fun m hm => h m (by simp [hm])]
    rfl

theorem parseLine_lineOf {values : Key → String} {k : Key} (h : isValue (values k) = true) :
    parseLine (String.ofList (lineOf values k)) = some (k.name, values k) := by
  obtain ⟨hhead, hchars⟩ := k.name_chars
  obtain ⟨c, cs, hname, hlower⟩ : ∃ c cs, k.name.toList = c :: cs ∧ isLower c = true := by
    cases hk : k.name.toList with
    | nil => simp [hk] at hhead
    | cons c cs => exact ⟨c, cs, rfl, by simpa [hk] using hhead⟩
  have hkey : ∀ d ∈ k.name.toList, isKeyChar d = true := by
    intro d hd
    have := List.all_eq_true.mp hchars d hd
    simp only [Bool.and_eq_true] at this
    exact this.1.1
  have heq : isKeyChar '=' = false := by decide
  have htake : (lineOf values k).takeWhile isKeyChar = k.name.toList := by
    rw [lineOf, List.takeWhile_append_of_pos hkey, List.takeWhile_cons_of_neg (by simp [heq]), List.append_nil]
  have hdrop : (lineOf values k).dropWhile isKeyChar = '=' :: (values k).toList := by
    rw [lineOf, List.dropWhile_append_of_pos hkey, List.dropWhile_cons_of_neg (by simp [heq])]
  have hvalue : (!(values k).toList.isEmpty && (values k).toList.all fun c => !isBlank c) = true := by
    simp only [isValue, Bool.and_eq_true, List.all_eq_true] at h ⊢
    exact ⟨h.1, fun d hd => (h.2 d hd).1⟩
  rw [parseLine, String.toList_ofList, htake, hdrop]
  simp only [hname, hlower, Bool.true_and, hvalue, if_true]
  rw [← hname, String.ofList_toList, String.ofList_toList]

/-- What is written is read. -/
theorem once_recordText {values : Key → String} (h : ∀ k, isValue (values k) = true) :
    (recordText values).any isNul = false ∧ Once (textLines (recordText values)) fun k => some (values k) := by
  have hvalue : ∀ k, ∀ c ∈ (values k).toList, isNul c = false ∧ c ≠ '\n' := by
    intro k c hc
    have hk := h k
    simp only [isValue, Bool.and_eq_true, List.all_eq_true, Bool.not_eq_true'] at hk
    refine ⟨(hk.2 c hc).2, fun he => ?_⟩
    have hblank := (hk.2 c hc).1
    rw [he] at hblank
    exact absurd hblank (by decide)
  have hline : ∀ k, ∀ c ∈ lineOf values k, isNul c = false ∧ c ≠ '\n' := by
    intro k c hc
    have hname := List.all_eq_true.mp k.name_chars.2
    rw [lineOf, List.mem_append, List.mem_cons] at hc
    rcases hc with hc | rfl | hc
    · have := hname c hc
      simp only [Bool.and_eq_true, Bool.not_eq_true', bne_iff_ne] at this
      exact ⟨this.1.2, this.2⟩
    · decide
    · exact hvalue k c hc
  have hlines : textLines (recordText values) = Key.all.map fun k => String.ofList (lineOf values k) := by
    have hsplit : (recordText values).splitOn '\n' = Key.all.map (lineOf values) ++ [[]] := by
      have hnone : ∀ l ∈ Key.all.map (lineOf values), '\n' ∉ l := by
        intro l hl hmem
        obtain ⟨k, _, rfl⟩ := List.mem_map.mp hl
        exact (hline k _ hmem).2 rfl
      rw [← splitOn_lines hnone, List.flatMap_map, recordText]
    rw [textLines, hsplit]
    simp only [List.getLast?_concat, if_true, List.dropLast_concat, List.map_map]
    rfl
  constructor
  · rw [List.any_eq_false]
    intro c hc
    obtain ⟨k, _, hk⟩ := List.mem_flatMap.mp hc
    rw [List.mem_append, List.mem_singleton] at hk
    rcases hk with hk | rfl
    · simp [(hline k c hk).1]
    · decide
  · refine ⟨fun _ => rfl, Key.all, List.Perm.refl _, ?_⟩
    rw [hlines, List.map_map]
    apply List.map_congr_left
    intro k _
    rw [Function.comp_apply, parseLine_lineOf (h k), Option.map_some]

/-! ## Two records that are read as others -/

def sampleExpected : Expected where
  provider := "nous"
  model := "hermes-4"
  image := "docker.io/nousresearch/hermes-agent@sha256:c0"
  fingerprint := String.ofList (List.replicate 64 'a')

/-- A record with the given times. -/
def sampleValues (issued expires : String) : Key → String
  | .schema => promotionSchema
  | .certificationId => "c1"
  | .promotionId => "p1"
  | .issuedAt => issued
  | .expiresAt => expires
  | .artifactFingerprint => sampleExpected.fingerprint
  | .isoSha256 => sampleExpected.fingerprint
  | .isoSignature => "verified"
  | .fedoraVersion => "44"
  | .kernel => "6.17.1"
  | .podman => "5.6.0"
  | .hermesImage => sampleExpected.image
  | .provider => sampleExpected.provider
  | .model => sampleExpected.model
  | .inferenceResult => "HERMES_OK"
  | .credentialsRevoked => "true"
  | .dataPurged => "true"
  | .vmDestroyed => "true"

def sampleText (issued expires : String) : List Char := recordText (sampleValues issued expires)

def sampleVars (issued expires : String) : Vars := fun k => some (sampleValues issued expires k)

theorem sample_wellFormed (issued expires : String) (hvalue : isValue issued = true ∧ isValue expires = true)
    (hdigits : isAll isDigit issued = true ∧ isAll isDigit expires = true) :
    (sampleText issued expires).any isNul = false ∧
      WellFormed sampleExpected (readLines (sampleText issued expires)) (sampleVars issued expires) := by
  have hrest : ∀ k, k ≠ .issuedAt → k ≠ .expiresAt → sampleValues issued expires k = sampleValues "1" "2" k := by
    intro k h₁ h₂
    cases k <;> first | rfl | contradiction
  have hconstant : Key.all.all (fun k => isValue (sampleValues "1" "2" k)) = true := by decide +kernel
  have hvalues : ∀ k, isValue (sampleValues issued expires k) = true := by
    intro k
    by_cases h₁ : k = .issuedAt
    · rw [h₁]
      exact hvalue.1
    by_cases h₂ : k = .expiresAt
    · rw [h₂]
      exact hvalue.2
    rw [hrest k h₁ h₂]
    exact List.all_eq_true.mp hconstant k k.mem_all
  obtain ⟨hnul, honce⟩ := once_recordText hvalues
  rw [sampleText, readLines_of_plain hnul]
  refine ⟨hnul, honce, ?_, rfl, rfl, rfl, rfl⟩
  have hplain : checkValues (sampleVars "1" "2") = true := by decide +kernel
  simp only [checkValues, sampleVars, Vars.get, Option.getD_some, sampleValues, Bool.and_eq_true] at hplain ⊢
  simp only [hplain, hdigits, and_self]

/-- The first record is in its window and refused, for the zero its time begins with; the
    second one ends beyond `2^64`, is no record of a day and is accepted. -/
theorem validate_misreads :
    ¬Exact sampleExpected (sampleText "01700000000" "1700086400") 1700000100 ∧
      ¬Exact sampleExpected (sampleText "1700000000" "18446744075409638016") 1700000100 := by
  constructor
  · intro h
    obtain ⟨hnul, hwell⟩ := sample_wellFormed "01700000000" "1700086400" (by decide) (by decide)
    have hwindow : writtenWindow (sampleText "01700000000" "1700086400") (sampleVars "01700000000" "1700086400")
        1700000100 = .inside := by
      rw [writtenWindow, hnul]
      decide +kernel
    have hstatus : recordStatus sampleExpected (sampleText "01700000000" "1700086400") 1700000100 = 1 := by
      rw [status_of_wellFormed hwell]
      decide +kernel
    have hzero := h.1.mpr ((accepted_iff hwell (by decide)).mpr hwindow)
    rw [hstatus] at hzero
    cases hzero
  · intro h
    obtain ⟨hnul, hwell⟩ := sample_wellFormed "1700000000" "18446744075409638016" (by decide) (by decide)
    have hwindow : writtenWindow (sampleText "1700000000" "18446744075409638016")
        (sampleVars "1700000000" "18446744075409638016") 1700000100 = .outside := by
      rw [writtenWindow, hnul]
      decide +kernel
    have hstatus : recordStatus sampleExpected (sampleText "1700000000" "18446744075409638016") 1700000100 = 0 := by
      rw [status_of_wellFormed hwell]
      decide +kernel
    have hinside := (accepted_iff hwell (by decide)).mp (h.1.mp hstatus)
    rw [hwindow] at hinside
    cases hinside

end Hermes.Promotion

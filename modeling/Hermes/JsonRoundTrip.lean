import Hermes.JsonScalars

/- What reading a document back gives. It is computed from the document (`check`): the document in
   normal form, fields in the order of their keys and floats as they are spelled (`normal`), or
   the error of the first key that is there twice or integer that is too long. The induction is
   on the document, with enough fuel for the length of its text (`readsBack`). -/
namespace Hermes.JsonText
open StableSort

/-- Induction with a hypothesis for every item and every field. -/
theorem Json.induct {motive : Json → Prop} (null : motive .null) (bool : ∀ b, motive (.bool b)) (int : ∀ n, motive (.int n))
    (float : ∀ literal, motive (.float literal)) (str : ∀ s, motive (.str s))
    (arr : ∀ items, (∀ v ∈ items, motive v) → motive (.arr items))
    (obj : ∀ fields, (∀ f ∈ fields, motive f.2) → motive (.obj fields)) (v : Json) : motive v := by
  match v with
  | .null => exact null
  | .bool b => exact bool b
  | .int n => exact int n
  | .float literal => exact float literal
  | .str s => exact str s
  | .arr items => exact arr items fun v _ => Json.induct null bool int float str arr obj v
  | .obj fields => exact obj fields fun f _ => Json.induct null bool int float str arr obj f.2
termination_by sizeOf v
decreasing_by
  · rename_i h
    have := List.sizeOf_lt_of_mem h
    simp only [Json.arr.sizeOf_spec]
    omega
  · rename_i h
    have := List.sizeOf_lt_of_mem h
    have hpair : sizeOf f.2 < sizeOf f := by
      cases f
      simp only [Prod.mk.sizeOf_spec]
      omega
    simp only [Json.obj.sizeOf_spec]
    omega

/-- The values have no part in the order. -/
theorem sortBy_values {α β : Type} (g : α → β) (l : List (String × α)) :
    sortBy Prod.fst (l.map fun f => (f.1, g f.2)) = (sortBy Prod.fst l).map fun f => (f.1, g f.2) := by
  refine eq_of_parts Prod.fst (pairwise_sortBy _ _) ?_ fun k => ?_
  · rw [List.pairwise_map]
    exact pairwise_sortBy Prod.fst l
  · have hpart : ∀ l : List (String × α), part Prod.fst k (l.map fun f => (f.1, g f.2)) = (part Prod.fst k l).map fun f => (f.1, g f.2) :=
      part_map Prod.fst (f := fun f => (f.1, g f.2)) (fun _ => rfl) k
    rw [part_sortBy, hpart, hpart, part_sortBy]

/-! ## What is read back -/

section

variable (x : Python)

mutual

/-- Fields in the order of their keys, and floats as they are spelled. -/
def normal : Json → Json
  | .null => .null
  | .bool b => .bool b
  | .int n => .int n
  | .float literal => .float (x.repr literal)
  | .str s => .str s
  | .arr items => .arr (normalItems items)
  | .obj fields => .obj (sortBy Prod.fst (normalFields fields))

def normalItems : List Json → List Json
  | [] => []
  | v :: items => normal v :: normalItems items

def normalFields : List (String × Json) → List (String × Json)
  | [] => []
  | (key, v) :: fields => (key, normal v) :: normalFields fields

end

/-- A field whose value was read. -/
def named (f : String × Except Exc Json) : Except Exc (String × Json) := (fun v => (f.1, v)) <$> f.2

mutual

/-- What reading a document back gives. -/
def check : Json → Except Exc Json
  | .null => .ok .null
  | .bool b => .ok (.bool b)
  | .int n => if 4300 < (Nat.toDigits 10 n.natAbs).length then .error invalid else .ok (.int n)
  | .float literal => .ok (.float (x.repr literal))
  | .str s => .ok (.str s)
  | .arr items => do
    let items ← (checkItems items).mapM fun r => r
    pure (.arr items)
  | .obj fields => do
    let fields ← (sortBy Prod.fst (checkFields fields)).mapM named
    uniqueObject fields

def checkItems : List Json → List (Except Exc Json)
  | [] => []
  | v :: items => check v :: checkItems items

def checkFields : List (String × Json) → List (String × Except Exc Json)
  | [] => []
  | (key, v) :: fields => (key, check v) :: checkFields fields

end

end

variable {x : Python}

theorem printItems_eq (items : List Json) : printItems x items = items.map (print x) := by
  induction items with
  | nil => rfl
  | cons v items ih => rw [printItems, ih, List.map_cons]

theorem printFields_eq (fields : List (String × Json)) : printFields x fields = fields.map fun f => (f.1, print x f.2) := by
  induction fields with
  | nil => rfl
  | cons f fields ih => rw [printFields, ih, List.map_cons]

theorem normalItems_eq (items : List Json) : normalItems x items = items.map (normal x) := by
  induction items with
  | nil => rfl
  | cons v items ih => rw [normalItems, ih, List.map_cons]

theorem normalFields_eq (fields : List (String × Json)) :
    normalFields x fields = fields.map fun f => (f.1, normal x f.2) := by
  induction fields with
  | nil => rfl
  | cons f fields ih => rw [normalFields, ih, List.map_cons]

theorem checkItems_eq (items : List Json) : checkItems x items = items.map (check x) := by
  induction items with
  | nil => rfl
  | cons v items ih => rw [checkItems, ih, List.map_cons]

theorem checkFields_eq (fields : List (String × Json)) : checkFields x fields = fields.map fun f => (f.1, check x f.2) := by
  induction fields with
  | nil => rfl
  | cons f fields ih => rw [checkFields, ih, List.map_cons]

theorem print_arr (items : List Json) : print x (.arr items) = '[' :: joined (items.map (print x)) ++ [']'] := by
  rw [print, printItems_eq]

/-- The text of a field. -/
def member (x : Python) (f : String × Json) : List Char := field (f.1, print x f.2)

theorem print_obj (fields : List (String × Json)) :
    print x (.obj fields) = '{' :: joined ((sortBy Prod.fst fields).map (member x)) ++ ['}'] := by
  rw [print, printFields_eq, sortBy_values, List.map_map]
  rfl

theorem normal_arr (items : List Json) : normal x (.arr items) = .arr (items.map (normal x)) := by
  rw [normal, normalItems_eq]

theorem normal_obj (fields : List (String × Json)) :
    normal x (.obj fields) = .obj ((sortBy Prod.fst fields).map fun f => (f.1, normal x f.2)) := by
  rw [normal, normalFields_eq, sortBy_values]

theorem check_arr (items : List Json) : check x (.arr items) = Json.arr <$> items.mapM (check x) := by
  rw [check, checkItems_eq, List.mapM_map]
  rfl

theorem check_obj (fields : List (String × Json)) :
    check x (.obj fields) =
      (sortBy Prod.fst fields).mapM (fun f => (fun v => (f.1, v)) <$> check x f.2) >>= uniqueObject := by
  rw [check, checkFields_eq, sortBy_values, List.mapM_map]
  rfl

/-! ## Where a text begins -/

/-- How a number or a constant begins. -/
def leads (c : Char) : Bool := isDigit c || ['-', 'n', 't', 'f', 'N', 'I'].contains c

theorem ne_of_leads {c : Char} (h : leads c = true) : c ≠ '"' ∧ c ≠ '[' ∧ c ≠ '{' ∧ c ≠ ']' ∧ isBlank c = false := by
  have hne : ∀ d, leads d = false → c ≠ d := by
    rintro d hd rfl
    simp [h] at hd
  refine ⟨hne _ (by decide), hne _ (by decide), hne _ (by decide), hne _ (by decide), ?_⟩
  simp [isBlank, hne ' ' (by decide), hne '\t' (by decide), hne '\n' (by decide), hne '\r' (by decide)]

theorem leads_number {sign whole : List Char} (h : IsSign sign) (hwhole : IsDigits whole) (rest : List Char) :
    ∃ c cs, sign ++ (whole ++ rest) = c :: cs ∧ leads c = true := by
  rcases h with rfl | rfl
  · cases whole with
    | nil => exact absurd rfl hwhole.1
    | cons c cs => exact ⟨c, cs ++ rest, rfl, by simp [leads, hwhole.2 c (by simp)]⟩
  · exact ⟨'-', whole ++ rest, rfl, by decide⟩

theorem leads_float {cs : List Char} (h : IsFloat cs) : ∃ c rest, cs = c :: rest ∧ leads c = true := by
  rcases h with h | ⟨sign, whole, fraction, exponent, rfl, hsign, hwhole, -⟩
  · simp only [constants, List.mem_cons, List.not_mem_nil, or_false] at h
    rcases h with rfl | rfl | rfl
    · exact ⟨_, _, rfl, by decide⟩
    · exact ⟨_, _, rfl, by decide⟩
    · exact ⟨_, _, rfl, by decide⟩
  · exact leads_number hsign hwhole.1 _

theorem leads_int (n : Int) : ∃ c rest, whole n = c :: rest ∧ leads c = true := by
  have hsign : IsSign (if n < 0 then ['-'] else []) := by
    split
    · exact Or.inr rfl
    · exact Or.inl rfl
  have h := leads_number hsign (isWhole_toDigits n.natAbs).1 []
  rwa [List.append_nil] at h

theorem print_head (v : Json) : ∃ c rest, print x v = c :: rest ∧ c ≠ ']' ∧ isBlank c = false := by
  have hlead : ∀ {cs : List Char}, (∃ c rest, cs = c :: rest ∧ leads c = true) →
      ∃ c rest, cs = c :: rest ∧ c ≠ ']' ∧ isBlank c = false := by
    rintro cs ⟨c, rest, rfl, hc⟩
    exact ⟨c, rest, rfl, (ne_of_leads hc).2.2.2⟩
  cases v with
  | null => exact hlead ⟨_, _, rfl, by decide⟩
  | bool b =>
    cases b with
    | false => exact hlead ⟨_, _, rfl, by decide⟩
    | true => exact hlead ⟨_, _, rfl, by decide⟩
  | int n => exact hlead (leads_int n)
  | float literal => exact hlead (leads_float (x.spelled literal))
  | str s => exact ⟨'"', _, rfl, by decide, by decide⟩
  | arr items => exact ⟨'[', _, print_arr items, by decide, by decide⟩
  | obj fields => exact ⟨'{', _, print_obj fields, by decide, by decide⟩

theorem skip_of_head {c : Char} (h : isBlank c = false) (rest : List Char) : skip (c :: rest) = c :: rest := by
  simp [skip, h]

theorem skip_print (v : Json) (rest : List Char) : skip (print x v ++ rest) = print x v ++ rest := by
  obtain ⟨c, cs, hprint, -, hblank⟩ := print_head (x := x) v
  rw [hprint, List.cons_append, skip_of_head hblank]

/-! ## Items and fields -/

/-- The text of a value reads as it should, given enough fuel. -/
def ReadsBack (x : Python) (v : Json) : Prop :=
  ∀ n rest, 2 * (print x v).length ≤ n → Ends rest →
    readValue n (print x v ++ rest) = (fun w => (w, rest)) <$> check x v

theorem joined_cons (t t' : List Char) (ts : List (List Char)) : joined (t :: t' :: ts) = t ++ ',' :: joined (t' :: ts) := by
  simp [joined, List.intercalate, List.intersperse]

theorem joined_singleton (t : List Char) : joined [t] = t := by simp [joined, List.intercalate]

theorem skip_joined (v : Json) (items : List Json) (rest : List Char) :
    skip (joined ((v :: items).map (print x)) ++ rest) = joined ((v :: items).map (print x)) ++ rest := by
  cases items with
  | nil =>
    rw [List.map_cons, List.map_nil, joined_singleton]
    exact skip_print v rest
  | cons v' items =>
    rw [List.map_cons, List.map_cons, joined_cons, List.append_assoc]
    exact skip_print v _

theorem readItems_print {items : List Json} (hne : items ≠ []) (h : ∀ v ∈ items, ReadsBack x v) {n : Nat} (rest : List Char)
    (hn : 2 * (joined (items.map (print x))).length + 1 ≤ n) :
    readItems n (joined (items.map (print x)) ++ ']' :: rest) = (fun ws => (ws, rest)) <$> items.mapM (check x) := by
  induction items generalizing n with
  | nil => exact absurd rfl hne
  | cons v items ih =>
    obtain ⟨m, rfl⟩ : ∃ m, n = m + 1 := ⟨n - 1, by omega⟩
    cases items with
    | nil =>
      rw [List.map_cons, List.map_nil, joined_singleton] at hn ⊢
      have hread := h v (by simp) m (']' :: rest) (by omega) (by simp [Ends])
      rw [readItems, hread, List.mapM_cons, List.mapM_nil]
      cases check x v with
      | error e => rfl
      | ok w => rfl
    | cons v' items =>
      have htext : joined ((v :: v' :: items).map (print x)) = print x v ++ ',' :: joined ((v' :: items).map (print x)) :=
        joined_cons ..
      rw [htext, List.length_append, List.length_cons] at hn
      have hread := h v (by simp) m (',' :: (joined ((v' :: items).map (print x)) ++ ']' :: rest)) (by omega) (by simp [Ends])
      rw [htext, List.append_assoc, List.cons_append, readItems, hread, List.mapM_cons]
      cases check x v with
      | error e => rfl
      | ok w =>
        have hrest := ih (by simp) (fun u hu => h u (by simp [hu])) (n := m) (by omega)
        show (do
          let items ← readItems m (skip (joined ((v' :: items).map (print x)) ++ ']' :: rest))
          pure (w :: items.1, items.2)) = _
        rw [skip_joined, hrest]
        cases (v' :: items).mapM (check x) with
        | error e => rfl
        | ok ws => rfl

/-- The fields that are read from the texts of some fields. -/
def readMembers (x : Python) (fields : List (String × Json)) : Except Exc (List (String × Json)) :=
  fields.mapM fun f => (fun v => (f.1, v)) <$> check x f.2

theorem member_append (f : String × Json) (rest : List Char) :
    member x f ++ rest = '"' :: (f.1.toList.flatMap escape ++ '"' :: ':' :: (print x f.2 ++ rest)) := by
  simp [member, field, quote]

theorem length_member (f : String × Json) : f.1.toList.length + 3 + (print x f.2).length ≤ (member x f).length := by
  have h := length_quote f.1.toList
  simp only [member, field, List.length_append, List.length_cons]
  omega

theorem skip_members (f : String × Json) (fields : List (String × Json)) (rest : List Char) :
    skip (joined ((f :: fields).map (member x)) ++ rest) = joined ((f :: fields).map (member x)) ++ rest := by
  have hskip : ∀ rest, skip (member x f ++ rest) = member x f ++ rest := fun rest => by
    rw [member_append, skip_of_head (by decide)]
  cases fields with
  | nil =>
    rw [List.map_cons, List.map_nil, joined_singleton]
    exact hskip rest
  | cons f' fields =>
    rw [List.map_cons, List.map_cons, joined_cons, List.append_assoc]
    exact hskip _

/-- One field, up to what comes behind its value. -/
theorem readFields_member {f : String × Json} (h : ReadsBack x f.2) {n : Nat} {rest : List Char} (hn : 2 * (member x f).length ≤ n)
    (hrest : Ends rest) :
    readFields (n + 1) (member x f ++ rest) = check x f.2 >>= fun v =>
      match skip rest with
      | '}' :: rest => pure ([(f.1, v)], rest)
      | ',' :: rest => do
        let fields ← readFields n (skip rest)
        pure ((f.1, v) :: fields.1, fields.2)
      | _ => .error invalid := by
  have hlength := length_member (x := x) f
  rw [member_append, readFields, readString_quote _ (by omega), bind_ok]
  simp only [skip_of_head (c := ':') (by decide), skip_print, h n rest (by omega) hrest, String.ofList_toList]
  cases check x f.2 with
  | error e => rfl
  | ok w => rfl

theorem readFields_print {fields : List (String × Json)} (hne : fields ≠ []) (h : ∀ f ∈ fields, ReadsBack x f.2) {n : Nat}
    (rest : List Char) (hn : 2 * (joined (fields.map (member x))).length + 1 ≤ n) :
    readFields n (joined (fields.map (member x)) ++ '}' :: rest) = (fun fs => (fs, rest)) <$> readMembers x fields := by
  induction fields generalizing n with
  | nil => exact absurd rfl hne
  | cons f fields ih =>
    obtain ⟨m, rfl⟩ : ∃ m, n = m + 1 := ⟨n - 1, by omega⟩
    cases fields with
    | nil =>
      rw [List.map_cons, List.map_nil, joined_singleton] at hn ⊢
      rw [readFields_member (h f (by simp)) (by omega) (by simp [Ends]), readMembers, List.mapM_cons, List.mapM_nil]
      cases check x f.2 with
      | error e => rfl
      | ok w => rfl
    | cons f' fields =>
      have htext : joined ((f :: f' :: fields).map (member x)) = member x f ++ ',' :: joined ((f' :: fields).map (member x)) :=
        joined_cons ..
      rw [htext, List.length_append, List.length_cons] at hn
      rw [htext, List.append_assoc, List.cons_append, readFields_member (h f (by simp)) (by omega) (by simp [Ends]),
        readMembers, List.mapM_cons]
      cases check x f.2 with
      | error e => rfl
      | ok w =>
        have hrest := ih (by simp) (fun g hg => h g (by simp [hg])) (n := m) (by omega)
        show (do
          let fields ← readFields m (skip (joined ((f' :: fields).map (member x)) ++ '}' :: rest))
          pure ((f.1, w) :: fields.1, fields.2)) = _
        rw [skip_members, hrest, readMembers]
        cases (f' :: fields).mapM fun f => (fun v => (f.1, v)) <$> check x f.2 with
        | error e => rfl
        | ok fs => rfl

/-! ## Documents -/

theorem readValue_scalar {n : Nat} {cs rest : List Char} (h : ∃ c cs', cs = c :: cs' ∧ leads c = true) :
    readValue (n + 1) (cs ++ rest) = readScalar (cs ++ rest) := by
  obtain ⟨c, cs', rfl, hc⟩ := h
  obtain ⟨hquote, hbracket, hbrace, -, -⟩ := ne_of_leads hc
  rw [List.cons_append, readValue, if_neg hquote, if_neg hbracket, if_neg hbrace]

theorem print_pos (v : Json) : 1 ≤ (print x v).length := by
  obtain ⟨c, cs, hprint, -⟩ := print_head (x := x) v
  simp [hprint]

theorem readsBack_str (s : String) : ReadsBack x (.str s) := by
  intro n rest hn hrest
  have hlength := length_quote s.toList
  obtain ⟨m, rfl⟩ : ∃ m, n = m + 1 := ⟨n - 1, by have := print_pos (x := x) (.str s); omega⟩
  have hread : readString m (s.toList.flatMap escape ++ '"' :: rest) = .ok (s.toList, rest) := by
    refine readString_quote rest ?_
    simp only [print] at hn
    omega
  have htext : print x (.str s) ++ rest = '"' :: (s.toList.flatMap escape ++ '"' :: rest) := by simp [print, quote]
  rw [htext, readValue, if_pos rfl, hread, check]
  show Except.ok (Json.str (String.ofList s.toList), rest) = _
  rw [String.ofList_toList]
  rfl

theorem readsBack_arr {items : List Json} (h : ∀ v ∈ items, ReadsBack x v) : ReadsBack x (.arr items) := by
  intro n rest hn hrest
  rw [print_arr] at hn ⊢
  simp only [List.length_cons, List.length_append, List.length_nil] at hn
  obtain ⟨m, rfl⟩ : ∃ m, n = m + 1 := ⟨n - 1, by omega⟩
  rw [check_arr, List.cons_append, List.cons_append, List.append_assoc, List.singleton_append, readValue, if_neg (by decide), if_pos rfl]
  cases items with
  | nil => rfl
  | cons v items =>
    have hhead : (joined ((v :: items).map (print x)) ++ ']' :: rest).head? ≠ some ']' := by
      obtain ⟨c, cs, hprint, hc, -⟩ := print_head (x := x) v
      cases items with
      | nil => simpa [joined_singleton, hprint] using hc
      | cons v' items => simpa [joined_cons, hprint] using hc
    rw [skip_joined, if_neg hhead, readItems_print (by simp) h rest (by omega)]
    cases (v :: items).mapM (check x) with
    | error e => rfl
    | ok ws => rfl

theorem readsBack_obj {fields : List (String × Json)} (h : ∀ f ∈ fields, ReadsBack x f.2) : ReadsBack x (.obj fields) := by
  intro n rest hn hrest
  have hsorted : ∀ f ∈ sortBy Prod.fst fields, ReadsBack x f.2 := fun f hf => h f ((perm_sortBy Prod.fst fields).mem_iff.mp hf)
  rw [print_obj] at hn ⊢
  rw [check_obj]
  generalize sortBy Prod.fst fields = sorted at hn hsorted ⊢
  simp only [List.length_cons, List.length_append, List.length_nil] at hn
  obtain ⟨m, rfl⟩ : ∃ m, n = m + 1 := ⟨n - 1, by omega⟩
  rw [List.cons_append, List.cons_append, List.append_assoc, List.singleton_append, readValue, if_neg (by decide),
    if_neg (by decide), if_pos rfl]
  cases sorted with
  | nil => rfl
  | cons f fields =>
    have hhead : (joined ((f :: fields).map (member x)) ++ '}' :: rest).head? ≠ some '}' := by
      cases fields with
      | nil => simp [joined_singleton, member_append]
      | cons f' fields => simp [joined_cons, member_append]
    rw [skip_members, if_neg hhead, readFields_print (by simp) hsorted rest (by omega), readMembers]
    cases (f :: fields).mapM fun f => (fun v => (f.1, v)) <$> check x f.2 with
    | error e => rfl
    | ok fs =>
      show (do
        let value ← uniqueObject fs
        pure (value, rest)) = _ <$> uniqueObject fs
      cases uniqueObject fs with
      | error e => rfl
      | ok v => rfl

/-- What is written is read back, value by value. -/
theorem readsBack (v : Json) : ReadsBack x v := by
  induction v using Json.induct with
  | null =>
    intro n rest hn _
    obtain ⟨m, rfl⟩ : ∃ m, n = m + 1 := ⟨n - 1, by simp [print] at hn; omega⟩
    exact readValue_scalar ⟨_, _, rfl, by decide⟩
  | bool b =>
    intro n rest hn _
    obtain ⟨m, rfl⟩ : ∃ m, n = m + 1 := ⟨n - 1, by have := print_pos (x := x) (.bool b); omega⟩
    cases b with
    | false => exact readValue_scalar ⟨_, _, rfl, by decide⟩
    | true => exact readValue_scalar ⟨_, _, rfl, by decide⟩
  | int k =>
    intro n rest hn hrest
    obtain ⟨m, rfl⟩ : ∃ m, n = m + 1 := ⟨n - 1, by have := print_pos (x := x) (.int k); omega⟩
    rw [print, readValue_scalar (leads_int k), readScalar_int hrest, check]
    split
    · rfl
    · rfl
  | float literal =>
    intro n rest hn hrest
    obtain ⟨m, rfl⟩ : ∃ m, n = m + 1 := ⟨n - 1, by have := print_pos (x := x) (.float literal); omega⟩
    rw [print, readValue_scalar (leads_float (x.spelled literal)), readScalar_float (x.spelled literal) hrest,
      String.ofList_toList, check]
    rfl
  | str s => exact readsBack_str s
  | arr items ih => exact readsBack_arr ih
  | obj fields ih => exact readsBack_obj ih

theorem decodeText_print (v : Json) : decodeText (print x v ++ ['\n']) = check x v := by
  have hread := readsBack (x := x) v (2 * (print x v ++ ['\n']).length + 2) ['\n'] (by rw [List.length_append]; omega) (by simp [Ends])
  rw [decodeText, skip_print, hread]
  cases check x v with
  | error e => rfl
  | ok w => rfl

/-! ## ASCII -/

/-- Printable ASCII. -/
def plain (c : Char) : Bool := 32 ≤ c.toNat && c.toNat ≤ 126

theorem plain_of_isDigit {c : Char} (h : isDigit c = true) : plain c = true := by
  simp only [isDigit, Bool.and_eq_true, decide_eq_true_eq] at h
  have hlow : 48 ≤ c.toNat := h.1
  have hhigh : c.toNat ≤ 57 := h.2
  simp only [plain, Bool.and_eq_true, decide_eq_true_eq]
  omega

theorem plain_hex4 (n : Nat) : (hex4 n).all plain = true := by
  have hdigit : ∀ k < 16, plain k.digitChar = true := by decide
  have h : ∀ m, plain (m % 16).digitChar = true := fun m => hdigit _ (Nat.mod_lt _ (by decide))
  simp [hex4, h]

theorem plain_escape (c : Char) : (escape c).all plain = true := by
  have hback : plain '\\' = true := by decide
  have hu : plain 'u' = true := by decide
  unfold escape
  split
  next e he =>
    have hsecond : ∀ e ∈ escapes, plain e.2 = true := by decide
    simp [hback, hsecond e (List.mem_of_find?_eq_some he)]
  next =>
    split
    next h => simpa [plain] using h
    next =>
      split
      · simp only [List.all_cons, hback, hu, plain_hex4, Bool.and_self]
      · simp only [List.cons_append, List.all_cons, List.all_append, hback, hu, plain_hex4, Bool.and_self]

theorem plain_quote (s : List Char) : (quote s).all plain = true := by
  have hquote : plain '"' = true := by decide
  have hbody : (s.flatMap escape).all plain = true := by
    rw [List.all_flatMap, List.all_eq_true]
    exact fun c _ => plain_escape c
  simp only [quote, List.cons_append, List.all_cons, List.all_append, List.all_nil, hquote, hbody, Bool.and_self]

theorem plain_digits {ds : List Char} (h : IsDigits ds) : ds.all plain = true :=
  List.all_eq_true.mpr fun c hc => plain_of_isDigit (h.2 c hc)

theorem plain_sign {ds : List Char} (h : IsSign ds) : ds.all plain = true := by
  rcases h with rfl | rfl
  · decide
  · decide

theorem plain_float {cs : List Char} (h : IsFloat cs) : cs.all plain = true := by
  rcases h with h | ⟨sign, whole, fraction, exponent, rfl, hsign, hwhole, hfraction, hexponent, -⟩
  · have hall : ∀ cs ∈ constants, cs.all plain = true := by decide
    exact hall cs h
  · have hdot : fraction.all plain = true := by
      rcases hfraction with rfl | ⟨ds, rfl, hds⟩
      · rfl
      · rw [List.all_cons, plain_digits hds]
        decide
    have he : exponent.all plain = true := by
      rcases hexponent with rfl | ⟨e, s, ds, rfl, he, hs, hds⟩
      · rfl
      · have hs' : s.all plain = true := by
          rcases hs with hs | rfl
          · exact plain_sign hs
          · decide
        rw [List.all_cons, List.all_append, hs', plain_digits hds]
        rcases he with rfl | rfl
        · decide
        · decide
    rw [List.all_append, List.all_append, List.all_append, plain_sign hsign, plain_digits hwhole.1, hdot, he]
    rfl

theorem plain_joined {ts : List (List Char)} (h : ∀ t ∈ ts, t.all plain = true) : (joined ts).all plain = true := by
  induction ts with
  | nil => rfl
  | cons t ts ih =>
    have ht := h t (by simp)
    cases ts with
    | nil => rwa [joined_singleton]
    | cons t' ts =>
      have hrest := ih fun u hu => h u (by simp [hu])
      rw [joined_cons, List.all_append, List.all_cons, ht, hrest]
      decide

/-- What is written is printable ASCII. -/
theorem plain_print (v : Json) : (print x v).all plain = true := by
  induction v using Json.induct with
  | null =>
    rw [print]
    decide
  | bool b =>
    cases b with
    | false =>
      rw [print]
      decide
    | true =>
      rw [print]
      decide
  | int n =>
    have hsign : IsSign (if n < 0 then ['-'] else []) := by
      split
      · exact Or.inr rfl
      · exact Or.inl rfl
    rw [print, whole, List.all_append, plain_sign hsign, plain_digits (isWhole_toDigits n.natAbs).1]
    rfl
  | float literal => exact plain_float (x.spelled literal)
  | str s => exact plain_quote s.toList
  | arr items ih =>
    have hitems : (joined (items.map (print x))).all plain = true := by
      refine plain_joined fun t ht => ?_
      obtain ⟨v, hv, rfl⟩ := List.mem_map.mp ht
      exact ih v hv
    rw [print_arr, List.cons_append, List.all_cons, List.all_append, hitems]
    decide
  | obj fields ih =>
    have hfields : (joined ((sortBy Prod.fst fields).map (member x))).all plain = true := by
      refine plain_joined fun t ht => ?_
      obtain ⟨f, hf, rfl⟩ := List.mem_map.mp ht
      have hvalue := ih f ((perm_sortBy Prod.fst fields).mem_iff.mp hf)
      rw [member, field, List.all_append, List.all_cons, plain_quote, hvalue]
      decide
    rw [print_obj, List.cons_append, List.all_cons, List.all_append, hfields]
    decide

/-- Decoding what is canonical gives the document as it is read back. -/
theorem decode_canonical (v : Json) : decode x (canonical x v) = check x v := by
  have hascii : ∀ c ∈ print x v ++ ['\n'], 0 < c.toNat ∧ c.toNat < 128 := by
    intro c hc
    rcases List.mem_append.mp hc with hc | hc
    · have hplain := List.all_eq_true.mp (plain_print v) c hc
      simp only [plain, Bool.and_eq_true, decide_eq_true_eq] at hplain
      omega
    · obtain rfl : c = '\n' := by simpa using hc
      decide
  rw [decode, canonical, x.ascii _ hascii]
  exact decodeText_print v

end Hermes.JsonText

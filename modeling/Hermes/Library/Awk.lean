/- How `awk` cuts a text: records at newlines, and with the default separator fields at runs of
   blanks. A text is a list of characters, one for each byte in the locale C. -/
namespace Hermes.Awk

/-- The records of `awk`, `line` holding the current one backwards. -/
def records : List Char → List Char → List (List Char)
  | [], [] => []
  | [], line => [line.reverse]
  | c :: cs, line => if c = '\n' then line.reverse :: records cs [] else records cs (c :: line)

def isBlank (c : Char) : Bool := c == ' ' || c == '\t'

/-- The fields of a record, `field` holding the current one backwards. -/
def fieldsFrom : List Char → List Char → List (List Char)
  | [], field => if field.isEmpty then [] else [field.reverse]
  | c :: cs, field =>
    if isBlank c then (if field.isEmpty then [] else [field.reverse]) ++ fieldsFrom cs []
    else fieldsFrom cs (c :: field)

def fields (line : List Char) : List (List Char) := fieldsFrom line []

/-- `$n` -/
def dollar (n : Nat) (line : List Char) : List Char := (fields line).getD (n - 1) []

/-! ## Records -/

theorem records_line {line : List Char} (h : '\n' ∉ line) (held rest : List Char) :
    records (line ++ '\n' :: rest) held = (held.reverse ++ line) :: records rest [] := by
  induction line generalizing held with
  | nil => simp [records]
  | cons c line ih =>
    simp only [List.mem_cons, not_or] at h
    rw [List.cons_append, records, if_neg (Ne.symm h.1), ih h.2]
    simp

/-- A newline ends a record, whatever comes after it. -/
theorem records_newline (text rest held : List Char) :
    records (text ++ '\n' :: rest) held = records (text ++ ['\n']) held ++ records rest [] := by
  induction text generalizing held with
  | nil => simp [records]
  | cons c text ih =>
    simp only [List.cons_append, records]
    by_cases hc : c = '\n'
    · rw [if_pos hc, if_pos hc, ih, List.cons_append]
    · rw [if_neg hc, if_neg hc, ih]

/-- The last record needs no newline. -/
theorem records_ended {text held : List Char} (hne : held ++ text ≠ []) (hlast : text.getLast? ≠ some '\n') :
    records (text ++ ['\n']) held = records text held := by
  induction text generalizing held with
  | nil =>
    rw [List.append_nil] at hne
    obtain ⟨c, held, rfl⟩ := List.exists_cons_of_ne_nil hne
    simp [records]
  | cons c text ih =>
    simp only [List.cons_append, records]
    by_cases hc : c = '\n'
    · -- the newline is not the last character, so a record comes after it
      have htext : text ≠ [] := by
        intro hnil
        subst hnil hc
        simp at hlast
      have hrest : text.getLast? ≠ some '\n' := by rwa [List.getLast?_cons_of_ne_nil htext] at hlast
      rw [if_pos hc, if_pos hc, ih (by simpa using htext) hrest]
    · have hrest : text.getLast? ≠ some '\n' := by
        cases text with
        | nil => simp
        | cons d text => rwa [List.getLast?_cons_of_ne_nil (by simp)] at hlast
      rw [if_neg hc, if_neg hc, ih (by simp) hrest]

/-! ## Fields -/

theorem fieldsFrom_word {word : List Char} (hne : word ≠ []) (h : ∀ c ∈ word, isBlank c = false)
    {b : Char} (hb : isBlank b = true) (held rest : List Char) :
    fieldsFrom (word ++ b :: rest) held = (held.reverse ++ word) :: fieldsFrom rest [] := by
  have hrun : ∀ held : List Char, held ++ word ≠ [] →
      fieldsFrom (word ++ b :: rest) held = (held.reverse ++ word) :: fieldsFrom rest [] := by
    clear hne
    induction word with
    | nil =>
      intro held hheld
      rw [List.append_nil] at hheld
      simp [fieldsFrom, hb, hheld]
    | cons c word ih =>
      intro held _
      have hc : isBlank c = false := h c (by simp)
      rw [List.cons_append, fieldsFrom, hc, if_neg Bool.false_ne_true,
        ih (fun d hd => h d (by simp [hd])) (c :: held) (by simp)]
      simp
  exact hrun held (by simp [hne])

theorem fieldsFrom_last {word : List Char} (h : ∀ c ∈ word, isBlank c = false) (held : List Char)
    (hne : held ++ word ≠ []) : fieldsFrom word held = [held.reverse ++ word] := by
  induction word generalizing held with
  | nil =>
    rw [List.append_nil] at hne
    simp [fieldsFrom, hne]
  | cons c word ih =>
    have hc : isBlank c = false := h c (by simp)
    rw [fieldsFrom, hc, if_neg Bool.false_ne_true, ih (fun d hd => h d (by simp [hd])) (c :: held) (by simp)]
    simp

@[simp] theorem fields_nil : fields [] = [] := rfl

/-- Blanks at the start make no field. -/
theorem fields_dropWhile (line : List Char) : fields (line.dropWhile isBlank) = fields line := by
  induction line with
  | nil => rfl
  | cons c line ih =>
    by_cases hc : isBlank c = true
    · calc fields ((c :: line).dropWhile isBlank) = fields line := by rw [List.dropWhile_cons_of_pos hc, ih]
        _ = fields (c :: line) := by simp [fields, fieldsFrom, hc]
    · rw [List.dropWhile_cons_of_neg hc]

/-- The first field is the line up to its first blank. -/
theorem fields_cons {c : Char} {line : List Char} (hc : isBlank c = false) :
    fields (c :: line) =
      (c :: line).takeWhile (fun d => !isBlank d) :: fields ((c :: line).dropWhile fun d => !isBlank d) := by
  have hsplit : (c :: line).takeWhile (fun d => !isBlank d) ++ (c :: line).dropWhile (fun d => !isBlank d) = c :: line :=
    List.takeWhile_append_dropWhile
  have hword : ∀ d ∈ (c :: line).takeWhile (fun d => !isBlank d), isBlank d = false := by
    intro d hd
    have hall := List.all_takeWhile (p := fun d => !isBlank d) (l := c :: line)
    simpa using List.all_eq_true.mp hall d hd
  have hne : (c :: line).takeWhile (fun d => !isBlank d) ≠ [] := by simp [hc]
  -- the rest is empty or starts with a blank
  cases hrest : (c :: line).dropWhile (fun d => !isBlank d) with
  | nil =>
    rw [hrest, List.append_nil] at hsplit
    rw [fields_nil, hsplit, fields, fieldsFrom_last (by rwa [hsplit] at hword) [] (by simp)]
    rfl
  | cons b rest =>
    have hb : isBlank b = true := by
      have hhead := List.head?_dropWhile_not (fun d => !isBlank d) (c :: line)
      rw [hrest] at hhead
      simpa using hhead
    have hblank : fields (b :: rest) = fieldsFrom rest [] := by simp [fields, fieldsFrom, hb]
    rw [hrest] at hsplit
    calc fields (c :: line) = fields ((c :: line).takeWhile (fun d => !isBlank d) ++ b :: rest) := by rw [hsplit]
      _ = _ := by rw [fields, fieldsFrom_word hne hword hb, hblank, List.reverse_nil, List.nil_append]

theorem head_of_dropWhile {line rest : List Char} {c : Char} (h : line.dropWhile isBlank = c :: rest) :
    isBlank c = false := by
  have hhead := List.head?_dropWhile_not isBlank line
  rw [h] at hhead
  simpa using hhead

/-- `$1` is the first word, `$2` the first word of what comes after it. -/
theorem dollar_one (line : List Char) : dollar 1 line = (line.dropWhile isBlank).takeWhile fun c => !isBlank c := by
  rw [dollar, ← fields_dropWhile]
  cases hline : line.dropWhile isBlank with
  | nil => rfl
  | cons c rest =>
    rw [fields_cons (head_of_dropWhile hline)]
    rfl

theorem dollar_two (line : List Char) :
    dollar 2 line = dollar 1 ((line.dropWhile isBlank).dropWhile fun c => !isBlank c) := by
  rw [dollar, ← fields_dropWhile]
  cases hline : line.dropWhile isBlank with
  | nil => rfl
  | cons c rest =>
    rw [fields_cons (head_of_dropWhile hline)]
    rfl

/-- The second field stands beside the first. -/
theorem adjacent_fields {line : List Char} (h : dollar 2 line ≠ []) :
    (dollar 1 line, dollar 2 line) ∈ (fields line).zip (fields line).tail := by
  unfold dollar at h ⊢
  match hfields : fields line with
  | [] => simp [hfields] at h
  | [word] => simp [hfields] at h
  | first :: second :: more => simp

end Hermes.Awk

import Hermes.HardenConfig

/- The `.env` of a hardened profile: every line that gives a managed variable a value carries the
   contract's, if and only if the names and values are ones that a line can carry
   (`env_carried_iff`); it is then settled (`env_settled`). -/
namespace Hermes.HardenConfig
open Documents Yaml

/-! ## Lines -/

def BreakFree (s : String) : Prop := ∀ c ∈ s.toList, isLineBreak c = false

theorem splitlinesFrom_breakFree {cs line : List Char} (hline : ∀ c ∈ line, isLineBreak c = false) :
    ∀ l ∈ splitlinesFrom cs line, BreakFree l := by
  have hcurrent : BreakFree (String.ofList line.reverse) := by
    intro c hc
    exact hline c (by simpa using hc)
  fun_induction splitlinesFrom cs line with
  | case1 => simp
  | case2 line _ => simpa using hcurrent
  | case3 cs line ih =>
    rintro l (_ | ⟨_, hl⟩)
    · exact hcurrent
    · exact ih nofun (by simp [BreakFree]) l hl
  | case4 c cs line _ hbreak ih =>
    rintro l (_ | ⟨_, hl⟩)
    · exact hcurrent
    · exact ih nofun (by simp [BreakFree]) l hl
  | case5 c cs line _ hbreak ih =>
    have hcons : ∀ d ∈ c :: line, isLineBreak d = false := by
      rintro d (_ | ⟨_, hd⟩)
      · simpa using hbreak
      · exact hline d hd
    exact ih hcons fun d hd => hcons d (by simpa [or_comm] using hd)

theorem splitlines_breakFree {s : String} : ∀ l ∈ splitlines s, BreakFree l := splitlinesFrom_breakFree nofun

/-- A line that ends with a line feed is read. -/
theorem splitlinesFrom_line {cs rest line : List Char} (h : ∀ c ∈ cs, isLineBreak c = false) :
    splitlinesFrom (cs ++ '\n' :: rest) line = String.ofList (line.reverse ++ cs) :: splitlinesFrom rest [] := by
  induction cs generalizing line with
  | nil =>
    rw [List.nil_append, splitlinesFrom, List.append_nil]
    · exact if_pos (by decide)
    · exact fun _ h => absurd h (by decide)
  | cons c cs ih =>
    have hc : isLineBreak c = false := h c List.mem_cons_self
    have hreturn : c ≠ '\r' := by
      rintro rfl
      revert hc
      decide
    rw [List.cons_append, splitlinesFrom, hc, if_neg Bool.false_ne_true, ih fun d hd => h d (List.mem_cons_of_mem c hd)]
    · simp
    · exact fun _ h => absurd h hreturn

theorem joinLines_toList {lines : List String} (hne : lines ≠ []) :
    (joinLines lines ++ "\n").toList = lines.flatMap fun l => l.toList ++ ['\n'] := by
  induction lines with
  | nil => exact absurd rfl hne
  | cons l lines ih =>
    cases lines with
    | nil => simp [joinLines]
    | cons l' lines =>
      have hrest := ih (List.cons_ne_nil _ _)
      rw [joinLines, List.flatMap_cons, ← hrest]
      · simp
      · simp

/-- Lines that are written are read again. -/
theorem splitlines_render {lines : List String} (hne : lines ≠ []) (h : ∀ l ∈ lines, BreakFree l) :
    splitlines (joinLines lines ++ "\n") = lines := by
  rw [splitlines, joinLines_toList hne]
  clear hne
  induction lines with
  | nil => rfl
  | cons l lines ih =>
    rw [List.flatMap_cons, List.append_assoc, List.singleton_append, splitlinesFrom_line (h l List.mem_cons_self),
      ih fun m hm => h m (List.mem_cons_of_mem l hm)]
    simp

theorem render_plain {lines : List String} (hne : lines ≠ []) (h : ∀ l ∈ lines, BreakFree l) :
    readText (joinLines lines ++ "\n") = joinLines lines ++ "\n" := by
  apply readText_plain
  rw [joinLines_toList hne, List.mem_flatMap]
  rintro ⟨l, hl, hmem⟩
  rcases List.mem_append.mp hmem with hmem | hmem
  · have hbreak := h l hl _ hmem
    revert hbreak
    decide
  · simp at hmem

/-! ## Assignments -/

/-- What follows the first equals sign. -/
def valueOf (line : String) : String := String.ofList (line.toList.drop ((line.toList.takeWhile (· ≠ '=')).length + 1))

/-- A name and a value that a line can carry. -/
structure Settable (key value : String) : Prop where
  stripped : strip key = key
  noEquals : '=' ∉ key.toList
  noComment : startsWith key "#" = false
  keyBreaks : BreakFree key
  valueBreaks : BreakFree value

section Assignments
variable {key value : String}

theorem assignment_toList : (assignment key value).toList = key.toList ++ '=' :: value.toList := by
  simp [assignment]

theorem takeWhile_assignment (h : '=' ∉ key.toList) : (assignment key value).toList.takeWhile (· ≠ '=') = key.toList := by
  have hall : ∀ c ∈ key.toList, decide (c ≠ '=') = true := by
    intro c hc
    have hne : c ≠ '=' := fun heq => h (heq ▸ hc)
    simpa using hne
  rw [assignment_toList, List.takeWhile_append_of_pos hall]
  simp

theorem valueOf_assignment (h : '=' ∉ key.toList) : valueOf (assignment key value) = value := by
  rw [valueOf, takeWhile_assignment h, assignment_toList]
  simp

theorem startsWith_hash {cs : List Char} : startsWith (String.ofList cs) "#" = decide (cs.head? = some '#') := by
  cases cs with
  | nil => rfl
  | cons c cs =>
    simp only [startsWith, show "#".length = 1 from rfl, String.toList_ofList, List.head?_cons, Option.some.injEq]
    by_cases hc : c = '#' <;> simp [hc]

theorem lstripChars_append {cs ds : List Char} (h : lstripChars cs ≠ []) : lstripChars (cs ++ ds) = lstripChars cs ++ ds := by
  induction cs with
  | nil => exact absurd rfl h
  | cons c cs ih =>
    by_cases hc : isSpace c = true
    · simp only [lstripChars, List.cons_append, List.dropWhile_cons, hc, if_true] at h ⊢
      exact ih h
    · simp [lstripChars, hc]

theorem lstripChars_head {cs : List Char} {c : Char} (h : (lstripChars cs).head? = some c) : isSpace c = false := by
  induction cs with
  | nil => simp [lstripChars] at h
  | cons d cs ih =>
    by_cases hd : isSpace d = true
    · exact ih (by simpa [lstripChars, hd] using h)
    · have hdc : d = c := by simpa [lstripChars, hd] using h
      simpa [hdc] using hd

theorem lstripChars_of_head {cs : List Char} (h : ∀ c, cs.head? = some c → isSpace c = false) : lstripChars cs = cs := by
  cases cs with
  | nil => rfl
  | cons c cs => simp [lstripChars, h c rfl]

theorem lstripChars_idem (cs : List Char) : lstripChars (lstripChars cs) = lstripChars cs :=
  lstripChars_of_head fun _ => lstripChars_head

/-- Stripping at the right keeps what the text begins with. -/
theorem stripChars_head (cs : List Char) : (stripChars cs).head? = (lstripChars cs).head? := by
  rw [stripChars]
  cases hcs : lstripChars cs with
  | nil => rfl
  | cons c rest =>
    have hc : isSpace c = false := lstripChars_head (by rw [hcs]; rfl)
    rw [List.reverse_cons, lstripChars, List.dropWhile_append]
    split
    · simp [hc]
    · simp

theorem strip_idem (s : String) : strip (strip s) = strip s := by
  have hleft : lstripChars (stripChars s.toList) = stripChars s.toList :=
    lstripChars_of_head fun c hc => lstripChars_head (by rwa [stripChars_head] at hc)
  have hright : stripChars (stripChars s.toList) = stripChars s.toList := by
    conv_lhs => rw [stripChars, hleft]
    rw [stripChars, List.reverse_reverse, lstripChars_idem]
  rw [strip, strip, String.toList_ofList, hright]

theorem stripChars_subset (cs : List Char) : stripChars cs ⊆ cs := by
  intro c hc
  rw [stripChars, List.mem_reverse] at hc
  have hleft := (List.dropWhile_suffix isSpace).subset hc
  exact (List.dropWhile_suffix isSpace).subset (List.mem_reverse.mp hleft)

/-! ## The name of a line -/

/-- A line that gives a name a value. -/
theorem assigned_some {line : String} (h : assigned line = some key) :
    key = strip (String.ofList (line.toList.takeWhile (· ≠ '='))) ∧ '=' ∈ line.toList ∧
      startsWith (String.ofList (lstripChars line.toList)) "#" = false := by
  rw [assigned] at h
  split at h
  · next hline =>
    simp only [Bool.and_eq_true, List.contains_iff_mem, Bool.not_eq_true'] at hline
    exact ⟨(Option.some.inj h).symm, hline⟩
  · cases h

theorem assigned_assignment (h : Settable key value) : assigned (assignment key value) = some key := by
  have hequals : '=' ∈ (assignment key value).toList := by simp [assignment_toList]
  have hleft : lstripChars key.toList = key.toList := by
    have hstrip : stripChars key.toList = key.toList := by
      have htext := congrArg String.toList h.stripped
      rwa [strip, String.toList_ofList] at htext
    apply lstripChars_of_head
    intro c hc
    rw [← hstrip, stripChars_head] at hc
    exact lstripChars_head hc
  have hcomment : startsWith (String.ofList (lstripChars (assignment key value).toList)) "#" = false := by
    rw [startsWith_hash, assignment_toList]
    cases hkey : key.toList with
    | nil => simp [lstripChars, show isSpace '=' = false from by decide]
    | cons c cs =>
      have hhead := h.noComment
      rw [← String.ofList_toList (s := key), startsWith_hash, hkey] at hhead
      rw [← hkey, lstripChars_append (by rw [hleft, hkey]; exact List.cons_ne_nil c cs), hleft, hkey]
      simpa using hhead
  rw [assigned, takeWhile_assignment h.noEquals, String.ofList_toList, h.stripped, if_pos]
  simp [hequals, hcomment]

/-- A name that a line gives a value, and the value, can be carried. -/
theorem settable_of_assigned {line : String} (hfree : BreakFree line) (h : assigned line = some key)
    (hvalue : valueOf line = value) : Settable key value := by
  obtain ⟨hkey, _, hcomment⟩ := assigned_some h
  have hsub : ∀ c ∈ key.toList, c ∈ line.toList.takeWhile (· ≠ '=') := by
    intro c hc
    rw [hkey, strip, String.toList_ofList, String.toList_ofList] at hc
    exact stripChars_subset _ hc
  have htake : ∀ c ∈ key.toList, c ∈ line.toList := fun c hc => (List.takeWhile_prefix _).subset (hsub c hc)
  constructor
  · rw [hkey, strip_idem]
  · intro hequals
    have hall := List.all_eq_true.mp (List.all_takeWhile (p := (· ≠ '=')) (l := line.toList)) _ (hsub _ hequals)
    simp at hall
  · cases hhead : startsWith key "#" with
    | false => rfl
    | true =>
      -- then the line is a comment
      rw [← String.ofList_toList (s := key), startsWith_hash, hkey, strip, String.toList_ofList, String.toList_ofList,
        stripChars_head, decide_eq_true_eq] at hhead
      have hne : lstripChars (line.toList.takeWhile (· ≠ '=')) ≠ [] := by
        intro hnil
        rw [hnil] at hhead
        cases hhead
      rw [startsWith_hash, ← List.takeWhile_append_dropWhile (p := (· ≠ '=')) (l := line.toList), lstripChars_append hne,
        List.head?_append, hhead] at hcomment
      simp at hcomment
  · exact fun c hc => hfree c (htake c hc)
  · intro c hc
    rw [← hvalue, valueOf, String.toList_ofList] at hc
    exact hfree c (List.mem_of_mem_drop hc)

end Assignments

/-! ## What is written -/

/-- A line that gives a managed variable a value. -/
def managed (desired : List (String × String)) (line : String) : Bool :=
  match assigned line with
  | some key => (desired.map (·.1)).contains key
  | none => false

/-- The contract's values are carried from one state of the disk to another. -/
structure EnvCarried (desired : List (String × String)) (disk disk' : Disk) : Prop where
  carries : ∀ line ∈ envLines disk', ∀ d ∈ desired, assigned line = some d.1 → valueOf line = d.2
  assigns : ∀ d ∈ desired, ∃ line ∈ envLines disk', assigned line = some d.1
  others : (envLines disk').filter (fun line => !managed desired line) =
    (envLines disk).filter fun line => !managed desired line

/-- Names and values that lines can carry; an empty name would take every line that gives none. -/
def EnvSound (desired : List (String × String)) (disk : Disk) : Prop :=
  (∀ d ∈ desired, Settable d.1 d.2) ∧
    ∀ d ∈ desired, d.1 = "" → ∀ line ∈ envLines disk, assigned line ≠ none

section Render
variable {desired : List (String × String)} {lines : List String} {disk : Disk} {line : String} {d : String × String}

theorem envKey_assignment {key value : String} (h : Settable key value) : envKey (assignment key value) = key := by
  rw [envKey, assigned_assignment h, Option.getD_some]

theorem find_desired (hkeys : (keys id desired).Nodup) (hd : d ∈ desired) : find id d.1 desired = some d.2 :=
  find_of_mem hkeys hd

/-- A rendered line gives a managed variable its value, or is as it was and gives none. -/
theorem renderLine_cases (desired : List (String × String)) (line : String) :
    (∃ d ∈ desired, envKey line = d.1 ∧ renderLine desired line = assignment d.1 d.2) ∨
      (∀ d ∈ desired, d.1 ≠ envKey line) ∧ renderLine desired line = line := by
  rw [renderLine]
  cases hfind : find id (envKey line) desired with
  | none =>
    refine Or.inr ⟨fun d hd heq => find_eq_none.mp hfind ?_, rfl⟩
    exact List.mem_map.mpr ⟨d, hd, heq⟩
  | some value =>
    obtain ⟨d, hd, hkey, rfl⟩ := find_mem hfind
    exact Or.inl ⟨d, hd, hkey.symm, by rw [← hkey]; rfl⟩

theorem renderLine_key (hkeys : (keys id desired).Nodup) (hd : d ∈ desired) (h : envKey line = d.1) :
    renderLine desired line = assignment d.1 d.2 := by
  rw [renderLine, h, find_desired hkeys hd]

/-- What is written is an assignment or one of the lines. -/
theorem mem_renderLines (h : line ∈ renderLines desired lines) :
    (∃ d ∈ desired, line = assignment d.1 d.2) ∨ line ∈ lines ∧ ∀ d ∈ desired, d.1 ≠ envKey line := by
  rcases List.mem_append.mp h with h | h
  · obtain ⟨l, hl, rfl⟩ := List.mem_map.mp h
    rcases renderLine_cases desired l with ⟨d, hd, _, heq⟩ | ⟨hnone, heq⟩
    · exact Or.inl ⟨d, hd, heq⟩
    · rw [heq]
      exact Or.inr ⟨hl, hnone⟩
  · obtain ⟨d, hd, rfl⟩ := List.mem_map.mp h
    exact Or.inl ⟨d, List.mem_of_mem_filter hd, rfl⟩

/-- Every managed variable is assigned. -/
theorem assignment_mem (hkeys : (keys id desired).Nodup) (hd : d ∈ desired) :
    assignment d.1 d.2 ∈ renderLines desired lines := by
  by_cases hseen : d.1 ∈ lines.map envKey
  · obtain ⟨l, hl, hkey⟩ := List.mem_map.mp hseen
    exact List.mem_append_left _ (List.mem_map.mpr ⟨l, hl, renderLine_key hkeys hd hkey⟩)
  · apply List.mem_append_right
    exact List.mem_map.mpr ⟨d, List.mem_filter.mpr ⟨hd, by simpa using hseen⟩, rfl⟩

theorem renderLines_ne_nil (hkeys : (keys id desired).Nodup) (hne : desired ≠ []) : renderLines desired lines ≠ [] := by
  obtain ⟨d, hd⟩ := List.exists_mem_of_ne_nil desired hne
  exact List.ne_nil_of_mem (assignment_mem hkeys hd)

variable (hsettable : ∀ d ∈ desired, Settable d.1 d.2)
include hsettable

theorem renderLines_breakFree (hlines : ∀ l ∈ lines, BreakFree l) : ∀ l ∈ renderLines desired lines, BreakFree l := by
  intro l hl
  rcases mem_renderLines hl with ⟨d, hd, rfl⟩ | ⟨hl, _⟩
  · intro c hc
    rw [assignment_toList] at hc
    rcases List.mem_append.mp hc with hc | hc
    · exact (hsettable d hd).keyBreaks c hc
    · rcases List.mem_cons.mp hc with rfl | hc
      · decide
      · exact (hsettable d hd).valueBreaks c hc
  · exact hlines l hl

/-- Lines that are rendered stay as they are. -/
theorem renderLines_settled (hkeys : (keys id desired).Nodup) :
    renderLines desired (renderLines desired lines) = renderLines desired lines := by
  have hmap : (renderLines desired lines).map (renderLine desired) = renderLines desired lines := by
    conv_rhs => rw [← List.map_id (renderLines desired lines)]
    apply List.map_congr_left
    intro l hl
    rcases mem_renderLines hl with ⟨d, hd, rfl⟩ | ⟨_, hnone⟩
    · exact renderLine_key hkeys hd (envKey_assignment (hsettable d hd))
    · rcases renderLine_cases desired l with ⟨d, hd, hkey, _⟩ | ⟨_, heq⟩
      · exact absurd hkey.symm (hnone d hd)
      · exact heq
  have hmissing : (desired.filter fun d => !((renderLines desired lines).map envKey).contains d.1) = [] := by
    rw [List.filter_eq_nil_iff]
    intro d hd
    have hmem : d.1 ∈ (renderLines desired lines).map envKey :=
      List.mem_map.mpr ⟨_, assignment_mem hkeys hd, envKey_assignment (hsettable d hd)⟩
    simpa using hmem
  conv_lhs => rw [renderLines, hmap, hmissing, List.map_nil, List.append_nil]

/-- What is read again. -/
theorem envLines_update (hkeys : (keys id desired).Nodup) (hne : desired ≠ []) :
    envLines (updateEnv desired disk) = renderLines desired (envLines disk) := by
  have hfree := @renderLines_breakFree desired (envLines disk) hsettable splitlines_breakFree
  have hrendered := @renderLines_ne_nil desired (envLines disk) hkeys hne
  rw [updateEnv]
  split
  · rw [envLines, envText, renderEnv, Option.map_some, Option.getD_some, render_plain hrendered hfree,
      splitlines_render hrendered hfree]
  · next hsame =>
    have htext : renderEnv desired disk = envText disk := by simpa [envNeedsUpdate, hne] using hsame
    conv_lhs => rw [envLines, ← htext, renderEnv, splitlines_render hrendered hfree]

/-- A second update writes nothing. -/
theorem env_settled (hkeys : (keys id desired).Nodup) : envNeedsUpdate desired (updateEnv desired disk) = false := by
  by_cases hne : desired = []
  · simp [envNeedsUpdate, hne]
  · have hlines := @envLines_update desired disk hsettable hkeys hne
    have hrender : renderEnv desired (updateEnv desired disk) = renderEnv desired disk := by
      rw [renderEnv, hlines, renderLines_settled hsettable hkeys, renderEnv]
    have htext : envText (updateEnv desired disk) = renderEnv desired disk := by
      rw [updateEnv]
      split
      · rw [envText, Option.map_some, Option.getD_some, renderEnv]
        exact render_plain (renderLines_ne_nil hkeys hne) (renderLines_breakFree hsettable splitlines_breakFree)
      · next hsame => exact (by simpa [envNeedsUpdate, hne] using hsame : renderEnv desired disk = envText disk).symm
    simp [envNeedsUpdate, hrender, htext]

theorem managed_assignment (hd : d ∈ desired) : managed desired (assignment d.1 d.2) = true := by
  rw [managed, assigned_assignment (hsettable d hd)]
  simpa using ⟨d.2, hd⟩

theorem others_of_sound (hempty : ∀ d ∈ desired, d.1 = "" → ∀ line ∈ lines, assigned line ≠ none) :
    (renderLines desired lines).filter (fun line => !managed desired line) = lines.filter fun line => !managed desired line := by
  have hmissing : ((desired.filter fun d => !(lines.map envKey).contains d.1).map fun d => assignment d.1 d.2).filter
      (fun line => !managed desired line) = [] := by
    rw [List.filter_eq_nil_iff]
    intro l hl
    obtain ⟨d, hd, rfl⟩ := List.mem_map.mp hl
    simp [managed_assignment hsettable (List.mem_of_mem_filter hd)]
  rw [renderLines, List.filter_append, hmissing, List.append_nil]
  clear hmissing
  induction lines with
  | nil => rfl
  | cons l lines ih =>
    have hrest := ih fun d hd h line hline => hempty d hd h line (List.mem_cons_of_mem l hline)
    rw [List.map_cons, List.filter_cons, List.filter_cons, hrest]
    rcases renderLine_cases desired l with ⟨d, hd, hkey, heq⟩ | ⟨_, heq⟩
    · -- the line gives the variable a value, so it is managed before and after
      have hassigned : assigned l = some d.1 := by
        cases hl : assigned l with
        | none =>
          rw [envKey, hl] at hkey
          exact absurd hl (hempty d hd hkey.symm l List.mem_cons_self)
        | some key =>
          rw [envKey, hl] at hkey
          exact congrArg some hkey
      have hbefore : managed desired l = true := by
        rw [managed, hassigned]
        simpa using ⟨d.2, hd⟩
      rw [heq, managed_assignment hsettable hd, hbefore]
      rfl
    · rw [heq]

omit hsettable in
/-- **The environment** carries the contract's values if and only if lines can carry them. -/
theorem env_carried_iff (hkeys : (keys id desired).Nodup) :
    EnvCarried desired disk (updateEnv desired disk) ↔ EnvSound desired disk := by
  constructor
  · intro h
    have hsettable : ∀ d ∈ desired, Settable d.1 d.2 := by
      intro d hd
      obtain ⟨line, hline, hassigned⟩ := h.assigns d hd
      exact settable_of_assigned (splitlines_breakFree line hline) hassigned (h.carries line hline d hd hassigned)
    refine ⟨hsettable, fun d hd hempty line hline hnone => ?_⟩
    have hthere : line ∈ (envLines disk).filter fun line => !managed desired line :=
      List.mem_filter.mpr ⟨hline, by simp [managed, hnone]⟩
    rw [← h.others, envLines_update hsettable hkeys (List.ne_nil_of_mem hd)] at hthere
    obtain ⟨hmem, hunmanaged⟩ := List.mem_filter.mp hthere
    rcases mem_renderLines hmem with ⟨d', hd', rfl⟩ | ⟨_, hnot⟩
    · simp [managed_assignment hsettable hd'] at hunmanaged
    · apply hnot d hd
      rw [hempty, envKey, hnone]
      rfl
  · rintro ⟨hsettable, hempty⟩
    by_cases hne : desired = []
    · subst hne
      exact ⟨nofun, nofun, rfl⟩
    · have hlines := @envLines_update desired disk hsettable hkeys hne
      constructor
      · intro line hline d hd hassigned
        rw [hlines] at hline
        rcases mem_renderLines hline with ⟨d', hd', rfl⟩ | ⟨_, hnot⟩
        · have hsame : d'.1 = d.1 := Option.some.inj ((assigned_assignment (hsettable d' hd')).symm.trans hassigned)
          have hvalue : some d'.2 = some d.2 := by rw [← find_desired hkeys hd', hsame, find_desired hkeys hd]
          rw [valueOf_assignment (hsettable d' hd').noEquals]
          exact Option.some.inj hvalue
        · exact absurd (by rw [envKey, hassigned, Option.getD_some]) (hnot d hd)
      · intro d hd
        exact ⟨_, hlines ▸ assignment_mem hkeys hd, assigned_assignment (hsettable d hd)⟩
      · rw [hlines]
        exact others_of_sound hsettable hempty

end Render

end Hermes.HardenConfig

import Hermes.Console
import Hermes.Text
import Hermes.Library.Awk
import Hermes.Library.Decimal

/- The check of the unlock transcript (`certification-evidence.sh`), and the transcript that
   the watching console writes. The program of `awk` counts in doubles, which are exact for as
   many lines as a file has. A transcript is honest if its marks are the trace of a stage: what
   the check accepts (`accepts_iff`) and what the console leaves behind (`watch_traced`) are
   both told from the stage that the marks lead to. -/
namespace Hermes.UnlockEvidence
open Awk
open Console (Turn State End runConsole runFrom)

/-! ## The check -/

/-- The lines that the program looks at. -/
inductive Mark where
  | ready
  | reboot
  | boundary
  | prompt
  deriving DecidableEq, Repr

/-- The first of the four patterns that matches. -/
def markOf (line : List Char) : Option Mark :=
  if dollar 2 line = "monitor-ready".toList then some .ready
  else if dollar 2 line = "luks-reboot-observed".toList ∧ dollar 3 line = "input-submitted=0".toList then some .reboot
  else if dollar 2 line = "luks-boot-boundary-observed".toList ∧ dollar 3 line = "input-submitted=0".toList then
    some .boundary
  else if dollar 2 line = "luks-prompt-verified".toList ∧ dollar 3 line = "input-submitted=1".toList then some .prompt
  else none

structure Tally where
  ready : Nat := 0
  initial : Nat := 0
  reboots : Nat := 0
  boundaries : Nat := 0
  watched : Nat := 0
  monitorReady : Bool := false
  rebooted : Bool := false
  armed : Bool := false
  invalid : Bool := false
  deriving DecidableEq, Repr

/-- The action of a pattern. -/
def Tally.note (t : Tally) : Mark → Tally
  | .ready => { t with
      ready := t.ready + 1, invalid := t.invalid || t.monitorReady, monitorReady := true, rebooted := false, armed := false }
  | .reboot => { t with
      reboots := t.reboots + 1, invalid := t.invalid || !t.monitorReady || t.rebooted || t.armed, rebooted := true }
  | .boundary => { t with
      boundaries := t.boundaries + 1, invalid := t.invalid || !t.monitorReady || !t.rebooted || t.armed,
      rebooted := false, armed := true }
  | .prompt =>
    if !t.monitorReady then { t with initial := t.initial + 1 }
    else { t with watched := t.watched + 1, invalid := t.invalid || !t.armed, armed := false }

/-- `END` -/
def Tally.valid (t : Tally) (expected : Nat) : Bool :=
  t.ready == 1 && t.initial == 1 && t.reboots == expected && t.boundaries == expected && t.watched == expected &&
    !t.invalid && !t.rebooted && !t.armed

/-- The lines that count, in order. -/
def marks (text : List Char) : List Mark := (records text []).filterMap markOf

/-- `^[1-9][0-9]*$` -/
def isCount (s : String) : Bool :=
  match s.toList with
  | [] => false
  | c :: cs => ('1' ≤ c && c ≤ '9') && cs.all fun d => '0' ≤ d && d ≤ '9'

/-- The text of the log where it can be read, and the second argument where there is one. -/
def certificationUnlockEvidenceIsValid (eventLog : Option (List Char)) (expectedWatched : Option String) : Bool :=
  let expected := if expectedWatched.getD "" = "" then "3" else expectedWatched.getD ""
  match eventLog with
  | none => false
  | some text => isCount expected && ((marks text).foldl Tally.note {}).valid (Decimal.value expected.toList)

/-! ## Honest transcripts -/

/-- Where a transcript can be: so many unlocks before the monitor, so many cycles after it. -/
inductive Stage where
  | before (initial : Nat)
  | idle (initial cycles : Nat)
  | rebooted (initial cycles : Nat)
  | armed (initial cycles : Nat)
  deriving DecidableEq, Repr

def cycle : List Mark := [.reboot, .boundary, .prompt]

/-- The marks that lead to a stage. -/
def Stage.trace : Stage → List Mark
  | before i => List.replicate i .prompt
  | idle i k => List.replicate i .prompt ++ .ready :: (List.replicate k cycle).flatten
  | rebooted i k => List.replicate i .prompt ++ .ready :: (List.replicate k cycle).flatten ++ [.reboot]
  | armed i k => List.replicate i .prompt ++ .ready :: (List.replicate k cycle).flatten ++ [.reboot, .boundary]

/-- One initial unlock, the monitor, and `n` cycles. -/
def honest (n : Nat) : List Mark := .prompt :: .ready :: (List.replicate n cycle).flatten

def Stage.next : Stage → Mark → Option Stage
  | before i, .prompt => some (before (i + 1))
  | before i, .ready => some (idle i 0)
  | idle i k, .reboot => some (rebooted i k)
  | rebooted i k, .boundary => some (armed i k)
  | armed i k, .prompt => some (idle i (k + 1))
  | _, _ => none

def Stage.run (s : Stage) : List Mark → Option Stage
  | [] => some s
  | m :: ms => (s.next m).bind fun s' => s'.run ms

theorem replicate_cycle_succ (k : Nat) :
    (List.replicate (k + 1) cycle).flatten = (List.replicate k cycle).flatten ++ cycle := by
  rw [List.replicate_succ', List.flatten_append]
  simp

/-- A step makes the trace longer by its mark. -/
theorem next_trace {s s' : Stage} {m : Mark} (h : s.next m = some s') : s'.trace = s.trace ++ [m] := by
  cases s <;> cases m <;> simp only [Stage.next, Option.some.injEq, reduceCtorEq] at h <;> subst h
  · simp [Stage.trace]
  · simp [Stage.trace, List.replicate_succ']
  · simp [Stage.trace]
  · simp [Stage.trace]
  · simp only [Stage.trace, replicate_cycle_succ]
    simp [cycle]

theorem run_append {s : Stage} {ms ms' : List Mark} : s.run (ms ++ ms') = (s.run ms).bind fun s' => s'.run ms' := by
  induction ms generalizing s with
  | nil => rfl
  | cons m ms ih =>
    rw [List.cons_append, Stage.run, Stage.run]
    cases s.next m with
    | none => rfl
    | some s' => exact ih

theorem run_trace {s s' : Stage} {ms : List Mark} (h : s.run ms = some s') : s'.trace = s.trace ++ ms := by
  induction ms generalizing s with
  | nil =>
    cases h
    simp
  | cons m ms ih =>
    obtain ⟨s₁, hnext, hrun⟩ := Option.bind_eq_some_iff.mp h
    rw [ih hrun, next_trace hnext]
    simp

/-- A trace leads to its stage. -/
theorem run_of_trace (s : Stage) : (Stage.before 0).run s.trace = some s := by
  have hbefore : ∀ i, (Stage.before 0).run (List.replicate i .prompt) = some (.before i) := by
    intro i
    induction i with
    | zero => rfl
    | succ i ih => rw [List.replicate_succ', run_append, ih]; rfl
  have hidle : ∀ i k, (Stage.before 0).run (Stage.idle i k).trace = some (.idle i k) := by
    intro i k
    induction k with
    | zero => rw [Stage.trace, run_append, hbefore]; rfl
    | succ k ih =>
      have hlonger : (Stage.idle i (k + 1)).trace = (Stage.idle i k).trace ++ cycle := by
        simp [Stage.trace, replicate_cycle_succ]
      rw [hlonger, run_append, ih]
      rfl
  cases s with
  | before i => exact hbefore i
  | idle i k => exact hidle i k
  | rebooted i k =>
    have hlonger : (Stage.rebooted i k).trace = (Stage.idle i k).trace ++ [.reboot] := by simp [Stage.trace]
    rw [hlonger, run_append, hidle]
    rfl
  | armed i k =>
    have hlonger : (Stage.armed i k).trace = (Stage.idle i k).trace ++ [.reboot, .boundary] := by simp [Stage.trace]
    rw [hlonger, run_append, hidle]
    rfl

theorem run_iff {s : Stage} {ms : List Mark} : (Stage.before 0).run ms = some s ↔ ms = s.trace := by
  constructor
  · intro h
    simpa [Stage.trace] using (run_trace h).symm
  · rintro rfl
    exact run_of_trace s

theorem honest_eq (n : Nat) : honest n = (Stage.idle 1 n).trace := by
  simp [honest, Stage.trace]

/-! ## The tally of a stage -/

def Stage.tally : Stage → Tally
  | before i => { initial := i }
  | idle i k => { ready := 1, initial := i, reboots := k, boundaries := k, watched := k, monitorReady := true }
  | rebooted i k =>
    { ready := 1, initial := i, reboots := k + 1, boundaries := k, watched := k, monitorReady := true, rebooted := true }
  | armed i k =>
    { ready := 1, initial := i, reboots := k + 1, boundaries := k + 1, watched := k, monitorReady := true, armed := true }

/-- A mark leads to the next stage or makes the tally invalid. -/
theorem note_tally (s : Stage) (m : Mark) :
    match s.next m with
    | some s' => s.tally.note m = s'.tally
    | none => (s.tally.note m).invalid = true := by
  cases s <;> cases m <;> rfl

theorem invalid_note {t : Tally} (h : t.invalid = true) (m : Mark) : (t.note m).invalid = true := by
  cases m with
  | prompt =>
    rw [Tally.note]
    split
    · exact h
    · simp [h]
  | ready => simp [Tally.note, h]
  | reboot => simp [Tally.note, h]
  | boundary => simp [Tally.note, h]

theorem invalid_fold {t : Tally} (h : t.invalid = true) (ms : List Mark) : (ms.foldl Tally.note t).invalid = true := by
  induction ms generalizing t with
  | nil => exact h
  | cons m ms ih => exact ih (invalid_note h m)

theorem fold_tally (s : Stage) (ms : List Mark) :
    match s.run ms with
    | some s' => ms.foldl Tally.note s.tally = s'.tally
    | none => (ms.foldl Tally.note s.tally).invalid = true := by
  induction ms generalizing s with
  | nil => rfl
  | cons m ms ih =>
    have hnote := note_tally s m
    rw [Stage.run, List.foldl_cons]
    cases hnext : s.next m with
    | none =>
      rw [hnext] at hnote
      exact invalid_fold hnote ms
    | some s' =>
      rw [hnext] at hnote
      simp only at hnote
      rw [hnote]
      exact ih s'

theorem valid_tally {s : Stage} {n : Nat} : s.tally.valid n = true ↔ s = .idle 1 n := by
  cases s <;> simp [Stage.tally, Tally.valid]

theorem fold_valid {ms : List Mark} {n : Nat} :
    (ms.foldl Tally.note {}).valid n = true ↔ (Stage.before 0).run ms = some (.idle 1 n) := by
  have hfold := fold_tally (.before 0) ms
  cases hrun : (Stage.before 0).run ms with
  | none =>
    rw [hrun] at hfold
    have hinvalid : (ms.foldl Tally.note {}).invalid = true := hfold
    simp [Tally.valid, hinvalid]
  | some s =>
    rw [hrun] at hfold
    have htally : ms.foldl Tally.note {} = s.tally := hfold
    rw [htally, valid_tally, Option.some.injEq]

/-! ## The expected count -/

/-- A count as it is passed. -/
def countText (n : Nat) : String := String.ofList (Nat.toDigits 10 n)

theorem isCount_countText {n : Nat} (hn : 1 ≤ n) : isCount (countText n) = true := by
  have hnum := Decimal.numeral_toDigits n
  rw [isCount, countText, String.toList_ofList]
  cases hdigits : Nat.toDigits 10 n with
  | nil => exact absurd hdigits hnum.1
  | cons c cs =>
    have hall : ∀ d ∈ c :: cs, Decimal.IsDigit d := hdigits ▸ hnum.2
    have hne : c ≠ '0' := by
      rintro rfl
      have hreduced := Decimal.reduced_toDigits n
      rw [Decimal.Reduced, hdigits] at hreduced
      have hnil : cs = [] := by simpa using hreduced rfl
      have hvalue := Decimal.value_toDigits n
      rw [hdigits, hnil] at hvalue
      have hzero : Decimal.value ['0'] = 0 := by decide
      omega
    have hfirst : '1' ≤ c := by
      have hlow : 48 ≤ c.toNat := (hall c (by simp)).1
      have hzero : c.toNat ≠ 48 := fun he => hne (Char.toNat_inj.mp he)
      show 49 ≤ c.toNat
      omega
    have hrest : ∀ d ∈ cs, '0' ≤ d ∧ d ≤ '9' := fun d hd => hall d (by simp [hd])
    simpa [hfirst, (hall c (by simp)).2] using hrest

theorem accepts_fold {text : List Char} {n : Nat} (hn : 1 ≤ n) :
    certificationUnlockEvidenceIsValid (some text) (some (countText n)) =
      ((marks text).foldl Tally.note {}).valid n := by
  have hne : countText n ≠ "" := by
    intro he
    have hcount := isCount_countText hn
    rw [he] at hcount
    cases hcount
  have hvalue : Decimal.value (countText n).toList = n := by rw [countText, String.toList_ofList, Decimal.value_toDigits]
  simp only [certificationUnlockEvidenceIsValid, Option.getD_some, if_neg hne, isCount_countText hn, hvalue, Bool.true_and]

/-- Accepted are the honest transcripts. -/
theorem accepts_iff {text : List Char} {n : Nat} (hn : 1 ≤ n) :
    certificationUnlockEvidenceIsValid (some text) (some (countText n)) = true ↔ marks text = honest n := by
  rw [accepts_fold hn, fold_valid, run_iff, honest_eq]

/-! ## Lines of the log -/

/-- A time as `append_event` and `date` write it. -/
structure Stamp where
  text : List Char
  nonempty : text ≠ []
  word : ∀ c ∈ text, isBlank c = false ∧ c ≠ '\n'

def entry (x : Stamp × String) : List Char := x.1.text ++ ' ' :: x.2.toList

/-- The log of some events. -/
def logText (log : List (Stamp × String)) : List Char := log.flatMap fun x => entry x ++ ['\n']

/-- The mark of an event, whatever the time. -/
def eventMark (event : String) : Option Mark := markOf ('t' :: ' ' :: event.toList)

theorem space_blank : isBlank ' ' = true := by decide

/-- The fields after the time do not depend on it. -/
theorem markOf_entry (x : Stamp × String) : markOf (entry x) = eventMark x.2 := by
  have hstamp := fieldsFrom_word x.1.nonempty (fun c hc => (x.1.word c hc).1) space_blank [] x.2.toList
  have ht := fieldsFrom_word (List.cons_ne_nil 't' []) (by simp [isBlank]) space_blank [] x.2.toList
  have hsame : ∀ n, 2 ≤ n → dollar n (entry x) = dollar n ('t' :: ' ' :: x.2.toList) := by
    intro n hn
    obtain ⟨k, rfl⟩ : ∃ k, n = k + 2 := ⟨n - 2, by omega⟩
    show (fieldsFrom (x.1.text ++ ' ' :: x.2.toList) []).getD (k + 1) [] =
      (fieldsFrom (['t'] ++ ' ' :: x.2.toList) []).getD (k + 1) []
    rw [hstamp, ht]
    rfl
  simp only [eventMark, markOf, hsame 2 (by decide), hsame 3 (by decide)]

/-- An event is on one line. -/
def OneLine (event : String) : Prop := '\n' ∉ event.toList

instance (event : String) : Decidable (OneLine event) := inferInstanceAs (Decidable ('\n' ∉ event.toList))

theorem marks_logText {log : List (Stamp × String)} (h : ∀ x ∈ log, OneLine x.2) :
    marks (logText log) = (log.map Prod.snd).filterMap eventMark := by
  rw [marks]
  induction log with
  | nil => rfl
  | cons x log ih =>
    have hx : '\n' ∉ entry x := by
      simp only [entry, List.mem_append, List.mem_cons, not_or]
      exact ⟨fun hm => (x.1.word _ hm).2 rfl, by decide, h x (by simp)⟩
    have htext : logText (x :: log) = entry x ++ '\n' :: logText log := by simp [logText]
    rw [htext, records_line hx, List.filterMap_cons, List.reverse_nil, List.nil_append, markOf_entry, List.map_cons,
      List.filterMap_cons, ih fun y hy => h y (by simp [hy])]

/-! ## The events of the console -/

/-- An event whose first word is none of the four. -/
theorem eventMark_other {start tail : String} {word more : List Char} (hstart : start.toList = word ++ ' ' :: more)
    (hne : word ≠ []) (h : ∀ c ∈ word, isBlank c = false)
    (hword : word ∉ ["monitor-ready".toList, "luks-reboot-observed".toList, "luks-boot-boundary-observed".toList,
      "luks-prompt-verified".toList]) : eventMark (start ++ tail) = none := by
  have hevent : (start ++ tail).toList = word ++ ' ' :: (more ++ tail.toList) := by
    rw [String.toList_append, hstart, List.append_assoc, List.cons_append]
  have ht := fieldsFrom_word (List.cons_ne_nil 't' []) (by simp [isBlank]) space_blank [] (start ++ tail).toList
  have hfields := fieldsFrom_word hne h space_blank [] (more ++ tail.toList)
  have hsecond : dollar 2 ('t' :: ' ' :: (start ++ tail).toList) = word := by
    show (fieldsFrom (['t'] ++ ' ' :: (start ++ tail).toList) []).getD 1 [] = word
    rw [ht, hevent, hfields]
    rfl
  simp only [List.mem_cons, List.not_mem_nil, or_false, not_or] at hword
  obtain ⟨h₁, h₂, h₃, h₄⟩ := hword
  simp only [eventMark, markOf, hsecond, if_neg h₁, h₂, h₃, h₄, false_and, if_false]

theorem oneLine_append {a b : String} (ha : OneLine a) (hb : OneLine b) : OneLine (a ++ b) := by
  rw [OneLine, String.toList_append, List.mem_append]
  exact fun h => h.elim ha hb

theorem oneLine_nat (n : Nat) : OneLine (toString n) := by
  rw [OneLine, Nat.toString_eq_ofList_toDigits, String.toList_ofList]
  exact fun h => absurd ((Decimal.numeral_toDigits n).2 _ h).1 (by decide)

theorem oneLine_int (n : Int) : OneLine (toString n) := by
  cases n with
  | ofNat n => exact oneLine_nat n
  | negSucc n => exact oneLine_append (by decide) (oneLine_nat (n + 1))

theorem oneLine_ite {c : Prop} [Decidable c] {a b : String} (ha : OneLine a) (hb : OneLine b) :
    OneLine (if c then a else b) := by
  split
  · exact ha
  · exact hb

theorem oneLine_detail (output : Console.Bytes) : OneLine (Console.consoleExitDetail output) :=
  oneLine_ite (by decide) (oneLine_ite (by decide) (oneLine_ite (by decide) (oneLine_ite (by decide)
    (oneLine_ite (by decide) (oneLine_ite (by decide) (by decide))))))

/-- The line of a console that has gone. -/
def exited (output : Console.Bytes) (code : Int) : String :=
  "luks-console-exited input-submitted=0 detail=" ++ Console.consoleExitDetail output ++ " exit-code=" ++ toString code

/-- An event made of four texts, by its first one. -/
theorem four_other {start a b c : String} {word more : List Char} (hstart : start.toList = word ++ ' ' :: more)
    (hne : word ≠ []) (hblank : ∀ d ∈ word, isBlank d = false)
    (hword : word ∉ ["monitor-ready".toList, "luks-reboot-observed".toList, "luks-boot-boundary-observed".toList,
      "luks-prompt-verified".toList])
    (hs : OneLine start) (ha : OneLine a) (hb : OneLine b) (hc : OneLine c) :
    eventMark (start ++ a ++ b ++ c) = none ∧ OneLine (start ++ a ++ b ++ c) := by
  refine ⟨?_, oneLine_append (oneLine_append (oneLine_append hs ha) hb) hc⟩
  rw [String.append_assoc, String.append_assoc]
  exact eventMark_other hstart hne hblank hword

theorem exited_other (output : Console.Bytes) (code : Int) : eventMark (exited output code) = none ∧ OneLine (exited output code) :=
  have hstart : "luks-console-exited input-submitted=0 detail=".toList =
      "luks-console-exited".toList ++ ' ' :: "input-submitted=0 detail=".toList := by decide +kernel
  four_other hstart (by decide +kernel) (forall_of_all (by decide)) (by decide +kernel) (by decide +kernel)
    (oneLine_detail output) (by decide +kernel) (oneLine_int code)

/-- The last line of a watch. -/
def ended (unlocks : Nat) (detail : String) : String :=
  "luks-console-watch-ended input-submitted=0 unlocks=" ++ toString unlocks ++ " detail=" ++ detail

theorem ended_other (n : Nat) {detail : String} (h : OneLine detail) :
    eventMark (ended n detail) = none ∧ OneLine (ended n detail) :=
  have hstart : "luks-console-watch-ended input-submitted=0 unlocks=".toList =
      "luks-console-watch-ended".toList ++ ' ' :: "input-submitted=0 unlocks=".toList := by decide +kernel
  four_other hstart (by decide +kernel) (forall_of_all (by decide)) (by decide +kernel) (by decide +kernel)
    (oneLine_nat n) (by decide +kernel) h

/-! ## The watch -/

/-- The stage of a transcript that a console is at. -/
def stageOf (s : State) : Stage :=
  if s.promptArmed then .armed 1 s.unlockCount
  else if s.rebootObserved then .rebooted 1 s.unlockCount
  else .idle 1 s.unlockCount

/-- The events lead to the stage that the variables tell. -/
structure Traced (s : State) : Prop where
  stage : (Stage.idle 1 0).run (s.events.filterMap eventMark) = some (stageOf s)
  one : s.promptArmed = true → s.rebootObserved = false
  count : s.submitted.length = s.unlockCount
  lines : ∀ e ∈ s.events, OneLine e

variable {s s' : State}

/-- One more event, and the variables after it. -/
theorem Traced.note (h : Traced s) (event : String) (hline : OneLine event)
    (hevents : s'.events = s.events ++ [event])
    (hstage : (stageOf s).run (eventMark event).toList = some (stageOf s'))
    (hone : s'.promptArmed = true → s'.rebootObserved = false) (hcount : s'.submitted.length = s'.unlockCount) :
    Traced s' := by
  refine ⟨?_, hone, hcount, ?_⟩
  · have hmark : [event].filterMap eventMark = (eventMark event).toList := by
      cases hm : eventMark event <;> simp [hm]
    rw [hevents, List.filterMap_append, run_append, h.stage, hmark]
    exact hstage
  · intro e he
    rw [hevents, List.mem_append, List.mem_singleton] at he
    rcases he with he | rfl
    · exact h.lines e he
    · exact hline

theorem Traced.other (h : Traced s) {event : String} (hother : eventMark event = none ∧ OneLine event) :
    Traced (s.note event) :=
  h.note _ hother.2 rfl (by rw [hother.1]; rfl) h.one h.count

/-- The buffer says nothing of the stage. -/
theorem Traced.same (h : Traced s) (hevents : s'.events = s.events) (harmed : s'.promptArmed = s.promptArmed)
    (hreboot : s'.rebootObserved = s.rebootObserved) (hunlocks : s'.unlockCount = s.unlockCount)
    (hsubmitted : s'.submitted = s.submitted) : Traced s' := by
  have hstage : stageOf s' = stageOf s := by rw [stageOf, stageOf, harmed, hreboot, hunlocks]
  refine ⟨?_, ?_, ?_, ?_⟩
  · rw [hevents, hstage]
    exact h.stage
  · rw [harmed, hreboot]
    exact h.one
  · rw [hsubmitted, hunlocks]
    exact h.count
  · rw [hevents]
    exact h.lines

theorem Traced.buffer (h : Traced s) (output read : Console.Bytes) : Traced (s.buffer output read) := h.same rfl rfl rfl rfl rfl

theorem Traced.extend (h : Traced s) (chunk : Console.Bytes) : Traced (s.extend chunk) := by
  unfold State.extend
  exact h.buffer _ _

theorem Traced.attach (h : Traced s) : Traced s.attach := by
  unfold State.attach
  split
  · have hs : Traced { s with attached := true } := h.same rfl rfl rfl rfl rfl
    exact hs.other ⟨by decide, by decide⟩
  · exact h

theorem Traced.observeReboot (h : Traced s) : Traced (s.observeReboot true) := by
  unfold State.observeReboot
  split
  · next hc =>
    simp only [Bool.true_and, Bool.and_eq_true, Bool.not_eq_true'] at hc
    split
    · refine h.note "luks-reboot-observed input-submitted=0" (by decide) rfl ?_ ?_ h.count
      · have hmark : eventMark "luks-reboot-observed input-submitted=0" = some .reboot := by decide
        rw [hmark]
        simp [stageOf, hc.1, hc.2, State.note, Stage.run, Stage.next]
      · intro harmed
        exact absurd (harmed.symm.trans hc.1) (by decide)
    · exact h
  · exact h

theorem Traced.observeBoundary (h : Traced s) : Traced (s.observeBoundary true) := by
  unfold State.observeBoundary
  split
  · next hc =>
    simp only [Bool.not_true, Bool.false_or, Bool.and_eq_true, Bool.not_eq_true'] at hc
    split
    · refine h.note "luks-boot-boundary-observed input-submitted=0" (by decide) rfl ?_ (fun _ => rfl) h.count
      have hmark : eventMark "luks-boot-boundary-observed input-submitted=0" = some .boundary := by decide
      rw [hmark]
      simp [stageOf, hc.1, hc.2, State.note, Stage.run, Stage.next]
    · exact h
  · exact h

theorem Traced.receive (h : Traced s) (chunk : Console.Bytes) : Traced (s.receive true chunk) :=
  ((h.extend chunk).attach.observeReboot).observeBoundary

theorem Traced.submit (h : Traced s) (harmed : s.promptArmed = true) : Traced s.submit := by
  refine h.note "luks-prompt-verified input-submitted=1" (by decide) rfl ?_ (fun hno => nomatch hno) ?_
  · have hmark : eventMark "luks-prompt-verified input-submitted=1" = some .prompt := by decide
    have hreboot := h.one harmed
    rw [hmark]
    simp [stageOf, harmed, hreboot, State.submit, State.note, Stage.run, Stage.next]
  · simp [State.submit, h.count]

theorem Traced.checkChild (h : Traced s) (t : Turn) : Traced (s.checkChild t).1 := by
  unfold State.checkChild
  split
  · exact h.other (exited_other _ _)
  · exact h

/-- A round in which no operation of the host fails: what was read, and whether the console has
    gone. -/
def turnOf (x : Option Console.Bytes × Option Int) : Turn := { chunk := x.1, exitCode := x.2 }

theorem Traced.turn (h : Traced s) (x : Option Console.Bytes × Option Int) : Traced (s.turn true (turnOf x)).1 := by
  unfold State.turn
  split
  · unfold State.handle
    simp only [turnOf, Bool.false_eq_true, if_false, Bool.not_true]
    split
    · next hc =>
      exact ((h.receive _).submit ((Bool.and_eq_true _ _).mp hc).1).same rfl rfl rfl rfl rfl
    · exact (h.receive _).checkChild _
  · simp only [turnOf, Bool.false_eq_true, if_false]
    exact h.checkChild _

theorem runFrom_traced (stopRequested : Bool) (rounds : List (Option Console.Bytes × Option Int)) (h : Traced s) :
    Traced (runFrom true stopRequested s (rounds.map turnOf)).1 := by
  induction rounds generalizing s with
  | nil =>
    rw [List.map_nil, runFrom]
    refine h.other ?_
    rw [if_pos rfl]
    exact ended_other _ (by cases stopRequested <;> decide)
  | cons x rounds ih =>
    have hturn := h.turn x
    rw [List.map_cons, runFrom]
    cases hround : s.turn true (turnOf x) with
    | mk s₁ result =>
      rw [hround] at hturn
      cases result with
      | none => exact ih hturn
      | some result => exact hturn

/-- The lines of a watch lead to the stage that it is at. -/
theorem watch_traced (stopRequested : Bool) (rounds : List (Option Console.Bytes × Option Int)) :
    Traced (runConsole true stopRequested (rounds.map turnOf)).1 :=
  runFrom_traced stopRequested rounds ⟨rfl, nofun, rfl, nofun⟩

/-! ## The initial unlock -/

/-- A console that does not watch and has not submitted. -/
structure Waiting (s : State) : Prop where
  armed : s.promptArmed = true
  silent : s.events.filterMap eventMark = []
  lines : ∀ e ∈ s.events, OneLine e

/-- What a round of such a console leaves: it waits on, it has unlocked, or it has given up. -/
def Unlocks (r : State × Option End) : Prop :=
  match r.2 with
  | none => Waiting r.1
  | some (.returned 0) => r.1.events.filterMap eventMark = [.prompt] ∧ ∀ e ∈ r.1.events, OneLine e
  | some _ => True

theorem Waiting.attach (h : Waiting s) : Waiting s.attach := by
  unfold State.attach
  split
  · have hmark : eventMark "luks-console-attached input-submitted=0" = none := by decide +kernel
    refine ⟨h.armed, ?_, ?_⟩
    · simp [State.note, h.silent, hmark]
    · intro e he
      simp only [State.note, List.mem_append, List.mem_singleton] at he
      rcases he with he | rfl
      · exact h.lines e he
      · decide
  · exact h

theorem Waiting.extend (h : Waiting s) (chunk : Console.Bytes) : Waiting (s.extend chunk) := by
  have hbuffer : ∀ output read, Waiting (s.buffer output read) := fun _ _ => ⟨h.armed, h.silent, h.lines⟩
  exact hbuffer _ _

theorem Waiting.receive (h : Waiting s) (chunk : Console.Bytes) : Waiting (s.receive false chunk) := by
  have hattach : Waiting (s.extend chunk).attach := (h.extend chunk).attach
  have hreboot : (s.extend chunk).attach.observeReboot false = (s.extend chunk).attach := by
    simp [State.observeReboot]
  have hboundary : (s.extend chunk).attach.observeBoundary false = (s.extend chunk).attach := by
    simp [State.observeBoundary, hattach.armed]
  unfold State.receive
  rw [hreboot, hboundary]
  exact hattach

theorem Waiting.submit (h : Waiting s) :
    s.submit.events.filterMap eventMark = [.prompt] ∧ ∀ e ∈ s.submit.events, OneLine e := by
  have hmark : eventMark "luks-prompt-verified input-submitted=1" = some .prompt := by decide +kernel
  constructor
  · simp [State.submit, State.note, h.silent, hmark]
  · intro e he
    simp only [State.submit, State.note, List.mem_append, List.mem_singleton] at he
    rcases he with he | rfl
    · exact h.lines e he
    · decide

theorem Waiting.checkChild (h : Waiting s) (t : Turn) : Unlocks (s.checkChild t) := by
  unfold State.checkChild
  split
  · trivial
  · exact h

theorem Waiting.turn (h : Waiting s) (x : Option Console.Bytes × Option Int) : Unlocks (s.turn false (turnOf x)) := by
  unfold State.turn
  split
  · unfold State.handle
    simp only [turnOf, Bool.false_eq_true, if_false, Bool.not_false, if_true]
    split
    · exact (h.receive _).submit
    · exact (h.receive _).checkChild _
  · simp only [turnOf, Bool.false_eq_true, if_false]
    exact h.checkChild _

theorem runFrom_unlocks (stopRequested : Bool) (rounds : List (Option Console.Bytes × Option Int)) (h : Waiting s)
    (hend : (runFrom false stopRequested s (rounds.map turnOf)).2 = .returned 0) :
    (runFrom false stopRequested s (rounds.map turnOf)).1.events.filterMap eventMark = [.prompt] ∧
      ∀ e ∈ (runFrom false stopRequested s (rounds.map turnOf)).1.events, OneLine e := by
  induction rounds generalizing s with
  | nil => cases hend
  | cons x rounds ih =>
    have hturn := h.turn x
    rw [List.map_cons, runFrom] at hend ⊢
    cases hround : s.turn false (turnOf x) with
    | mk s₁ result =>
      rw [hround] at hturn hend
      cases result with
      | none => exact ih hturn hend
      | some result =>
        obtain rfl : result = .returned 0 := hend
        exact hturn

/-! ## The transcript of a certification -/

/-- A log of an initial unlock, the monitor's line and a watch. -/
structure Transcript where
  log : List (Stamp × String)
  initial : List (Option Console.Bytes × Option Int)
  watch : List (Option Console.Bytes × Option Int)
  stopped : Bool × Bool
  unlocked : (runConsole false stopped.1 (initial.map turnOf)).2 = .returned 0
  events : log.map Prod.snd = (runConsole false stopped.1 (initial.map turnOf)).1.events ++
    "monitor-ready" :: (runConsole true stopped.2 (watch.map turnOf)).1.events

/-- The watching console at its end. -/
def Transcript.watcher (t : Transcript) : State := (runConsole true t.stopped.2 (t.watch.map turnOf)).1

theorem Transcript.marks_log (t : Transcript) :
    marks (logText t.log) = .prompt :: .ready :: t.watcher.events.filterMap eventMark := by
  obtain ⟨hmarks, hlines⟩ := runFrom_unlocks t.stopped.1 t.initial ⟨rfl, rfl, List.forall_mem_nil _⟩ t.unlocked
  have hready : eventMark "monitor-ready" = some .ready := by decide +kernel
  have hone : ∀ x ∈ t.log, OneLine x.2 := by
    intro x hx
    have hmem : x.2 ∈ t.log.map Prod.snd := List.mem_map_of_mem hx
    rw [t.events, List.mem_append, List.mem_cons] at hmem
    rcases hmem with hmem | hmem | hmem
    · exact hlines _ hmem
    · rw [hmem]
      decide
    · exact (watch_traced t.stopped.2 t.watch).lines _ hmem
  rw [marks_logText hone, t.events, List.filterMap_append, List.filterMap_cons, hready]
  have hinitial : (runConsole false t.stopped.1 (t.initial.map turnOf)).1.events.filterMap eventMark = [.prompt] := hmarks
  rw [hinitial]
  rfl

theorem Transcript.accepted_iff (t : Transcript) {n : Nat} (hn : 1 ≤ n) :
    certificationUnlockEvidenceIsValid (some (logText t.log)) (some (countText n)) = true ↔
      t.watcher.submitted.length = n ∧ t.watcher.rebootObserved = false ∧ t.watcher.promptArmed = false := by
  have htraced : Traced t.watcher := watch_traced t.stopped.2 t.watch
  have hrun : (Stage.before 0).run (.prompt :: .ready :: t.watcher.events.filterMap eventMark) =
      some (stageOf t.watcher) := htraced.stage
  rw [accepts_fold hn, fold_valid, t.marks_log, hrun, htraced.count, Option.some.injEq, stageOf]
  cases harmed : t.watcher.promptArmed <;> cases hreboot : t.watcher.rebootObserved <;> simp

/-- **The check accepts the honest transcripts and no other**, and of the transcripts that the
    console writes those in which it submitted so often and nothing is pending. -/
theorem evidence_exact (n : Nat) (hn : 1 ≤ n) :
    (∀ text, certificationUnlockEvidenceIsValid (some text) (some (countText n)) = true ↔ marks text = honest n) ∧
      ∀ t : Transcript, certificationUnlockEvidenceIsValid (some (logText t.log)) (some (countText n)) = true ↔
        t.watcher.submitted.length = n ∧ t.watcher.rebootObserved = false ∧ t.watcher.promptArmed = false :=
  ⟨fun _ => accepts_iff hn, fun t => t.accepted_iff hn⟩

/-! ## One reboot, and none -/

def sampleStamp : Stamp := ⟨"2026-08-31T02:00:00Z".toList, by decide +kernel, forall_of_all (by decide)⟩

def samplePrompt : Option Console.Bytes × Option Int :=
  (some (Console.bytes "Please enter passphrase for disk vda3 (luks-4):"), none)

/-- A reboot in three reads, and the end of the console. -/
def sampleWatch : List (Option Console.Bytes × Option Int) :=
  [(some (Console.bytes "reboot: Restarting system"), none),
    (some (Console.bytes "Starting systemd-cryptsetup@luks-4"), none), samplePrompt, (none, some 0)]

def sampleTranscript : Transcript where
  log := ((runConsole false false ([samplePrompt].map turnOf)).1.events ++
    "monitor-ready" :: (runConsole true false (sampleWatch.map turnOf)).1.events).map fun e => (sampleStamp, e)
  initial := [samplePrompt]
  watch := sampleWatch
  stopped := (false, false)
  unlocked := by decide +kernel
  events := by rw [List.map_map]; exact List.map_id _

theorem evidence_exact_sample :
    (certificationUnlockEvidenceIsValid (some (logText sampleTranscript.log)) (some (countText 1)) = true ↔
      marks (logText sampleTranscript.log) = honest 1) ∧
    (certificationUnlockEvidenceIsValid (some (logText sampleTranscript.log)) (some (countText 1)) = true ↔
      sampleTranscript.watcher.submitted.length = 1 ∧ sampleTranscript.watcher.rebootObserved = false ∧
        sampleTranscript.watcher.promptArmed = false) :=
  ⟨(evidence_exact 1 (by decide)).1 _, (evidence_exact 1 (by decide)).2 _⟩

/-- The honest transcript without a reboot. -/
def noReboot : List Char :=
  logText [(sampleStamp, "luks-prompt-verified input-submitted=1"), (sampleStamp, "monitor-ready")]

/-- A count of zero is refused, whatever the transcript. -/
theorem refuses_zero : marks noReboot = honest 0 ∧
    certificationUnlockEvidenceIsValid (some noReboot) (some (countText 0)) = false :=
  ⟨by decide +kernel, by decide +kernel⟩

end Hermes.UnlockEvidence

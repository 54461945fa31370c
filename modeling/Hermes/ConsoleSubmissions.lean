import Hermes.Console

/- When the console types the passphrase: in watch mode every submission has a reboot
   marker, a boot boundary and a prompt of its own, in this order and after those of the
   submission before (`submissions_are_proved`); in one-shot mode there is at most one.

   The buffer is always the end of what was read, so a match in it is an occurrence in the
   stream; the stages of the watcher say where in the stream the buffer begins. -/
namespace Hermes.Console
open Pattern

/-- Where the three proofs of a fresh prompt stand in the stream. -/
structure Unlock where
  reboot : Nat × Nat
  boundary : Nat × Nat
  prompt : Nat × Nat

/-- They are there, in this order. -/
structure Unlock.Within (u : Unlock) (s : Bytes) : Prop where
  reboot : Occurs (lang rebootMarkerLine) s u.reboot.1 u.reboot.2
  boundary : Occurs (lang bootBoundaryLine) s u.boundary.1 u.boundary.2
  prompt : Occurs (lang verifiedPromptLine) s u.prompt.1 u.prompt.2
  booted : u.reboot.2 ≤ u.boundary.1
  asked : u.boundary.2 ≤ u.prompt.1

/-- Each submission has proofs of its own, all read before it; those of a later one begin
    after those of an earlier one end. -/
structure Proved (s : Bytes) (us : List Unlock) (submitted : List Nat) : Prop where
  each : List.Forall₂ (fun u n => u.Within s ∧ u.prompt.2 ≤ n) us submitted
  disjoint : us.Pairwise (fun u v => u.prompt.2 ≤ v.reboot.1)

theorem Unlock.Within.append {u : Unlock} {s : Bytes} (h : u.Within s) (t : Bytes) : u.Within (s ++ t) :=
  ⟨h.reboot.append t, h.boundary.append t, h.prompt.append t, h.booted, h.asked⟩

theorem Proved.append {s : Bytes} {us : List Unlock} {ns : List Nat} (h : Proved s us ns) (t : Bytes) :
    Proved (s ++ t) us ns :=
  ⟨h.each.imp (fun _ _ hu => ⟨hu.1.append t, hu.2⟩), h.disjoint⟩

theorem Proved.nil (s : Bytes) : Proved s [] [] := ⟨List.Forall₂.nil, List.Pairwise.nil⟩

/-- One more submission. -/
theorem Proved.snoc {s : Bytes} {us : List Unlock} {ns : List Nat} (h : Proved s us ns) {u : Unlock}
    {n : Nat} (hu : u.Within s) (hn : u.prompt.2 ≤ n) (hafter : ∀ v ∈ us, v.prompt.2 ≤ u.reboot.1) :
    Proved s (us ++ [u]) (ns ++ [n]) := by
  constructor
  · exact List.rel_append h.each (List.Forall₂.cons ⟨hu, hn⟩ List.Forall₂.nil)
  · refine List.pairwise_append.mpr ⟨h.disjoint, List.pairwise_singleton _ _, ?_⟩
    intro v hv w hw
    rw [List.mem_singleton.mp hw]
    exact hafter v hv

/-! ## The buffer -/

/-- Without an escape there is nothing to normalise. -/
theorem dropEscapes_of_plain : ∀ (n : Nat) (s : Bytes), 0x1b ∉ s → dropEscapes n s = s
  | 0, _, _ => rfl
  | _ + 1, [], _ => rfl
  | n + 1, b :: s, h => by
    have hb : (0x1b : UInt8) ≠ b := fun he => h (by rw [he]; exact List.mem_cons_self ..)
    have hm : matchAt ansiEscape (b :: s) = none := by
      have hd : dropLit [0x1b, 91] (b :: s) = none := by rw [dropLit, if_neg hb]
      simp only [matchAt, ansiEscape, rests, hd]
      rfl
    have hs : 0x1b ∉ s := fun hs => h (List.mem_cons_of_mem b hs)
    rw [dropEscapes, hm]
    show b :: dropEscapes n s = b :: s
    rw [dropEscapes_of_plain n s hs]

theorem normalized_of_plain {s : Bytes} (h : 0x1b ∉ s) : normalizedConsoleOutput s = s :=
  dropEscapes_of_plain _ _ h

/-- Where the buffer begins in what was read. -/
def State.start (s : State) : Nat := s.read.length - s.output.length

/-- What holds of the buffer: it is the end of what was read, which has no escape. -/
structure Buffer (s : State) : Prop where
  suffix : s.output <:+ s.read
  plain : 0x1b ∉ s.read

theorem Buffer.normalized {s : State} (h : Buffer s) : normalizedConsoleOutput s.output = s.output :=
  normalized_of_plain (fun hm => h.plain (h.suffix.subset hm))

theorem Buffer.read_eq {s : State} (h : Buffer s) : ∃ pre, s.read = pre ++ s.output ∧ pre.length = s.start := by
  obtain ⟨pre, hpre⟩ := h.suffix
  refine ⟨pre, hpre.symm, ?_⟩
  rw [State.start, ← hpre, List.length_append]
  omega

/-- What a match in the buffer leaves is a buffer that begins after an occurrence. -/
theorem Buffer.found {s : State} (h : Buffer s) {L : Language UInt8} {a m rest : Bytes} (hm : m ∈ L)
    (hout : s.output = a ++ m ++ rest) :
    ∃ i j, Occurs L s.read i j ∧ s.start ≤ i ∧ j ≤ s.read.length - rest.length := by
  obtain ⟨pre, hread, hlen⟩ := h.read_eq
  have hocc := (@occurs_part _ _ (pre ++ a)) hm rest
  have hall : pre ++ a ++ m ++ rest = s.read := by rw [hread, hout]; simp only [List.append_assoc]
  rw [hall] at hocc
  refine ⟨_, _, hocc, by rw [List.length_append]; omega, ?_⟩
  have htotal := congrArg List.length hall
  simp only [List.length_append] at htotal ⊢
  omega

theorem Buffer.shrink {s : State} (h : Buffer s) {a m rest : Bytes} (hout : s.output = a ++ m ++ rest) :
    rest <:+ s.read :=
  (List.suffix_append (a ++ m) rest).trans (hout ▸ h.suffix)

/-- A chunk is put at the end of the buffer, of which the end is kept. -/
theorem Buffer.move {s : State} (h : Buffer s) {chunk output : Bytes} (hno : 0x1b ∉ s.read ++ chunk)
    (hsuffix : output <:+ s.output ++ chunk) : Buffer (s.buffer output (s.read ++ chunk)) := by
  refine ⟨?_, hno⟩
  obtain ⟨pre, hpre⟩ := h.suffix
  refine hsuffix.trans ⟨pre, ?_⟩
  show pre ++ (s.output ++ chunk) = s.read ++ chunk
  rw [← hpre, List.append_assoc]

/-! ## The stages of the watcher -/

/-- A reboot marker was read after `floor`, and before the buffer. -/
def Rebooted (s : State) (floor : Nat) : Prop :=
  ∃ r : Nat × Nat, Occurs (lang rebootMarkerLine) s.read r.1 r.2 ∧ floor ≤ r.1 ∧ r.2 ≤ s.start

/-- After it a boot boundary was read, also before the buffer. -/
def Booted (s : State) (floor : Nat) : Prop :=
  ∃ r b : Nat × Nat, Occurs (lang rebootMarkerLine) s.read r.1 r.2 ∧
    Occurs (lang bootBoundaryLine) s.read b.1 b.2 ∧ floor ≤ r.1 ∧ r.2 ≤ b.1 ∧ b.2 ≤ s.start

/-- Everything up to `floor` is used up by the submissions made so far. -/
structure Stage (s : State) (us : List Unlock) (floor : Nat) : Prop where
  buffer : Buffer s
  submissions : Proved s.read us s.submitted
  used : ∀ u ∈ us, u.prompt.2 ≤ floor
  start : floor ≤ s.start
  rebooted : s.rebootObserved = true → Rebooted s floor
  booted : s.promptArmed = true → Booted s floor
  exclusive : s.promptArmed = true → s.rebootObserved = false

section Steps

variable {s : State} {us : List Unlock} {floor : Nat} {chunk : Bytes}

@[simp] theorem buffer_read (s : State) (output read : Bytes) : (s.buffer output read).read = read := rfl

@[simp] theorem buffer_submitted (s : State) (output read : Bytes) :
    (s.buffer output read).submitted = s.submitted := rfl

/-- A chunk moves the buffer to the end of what was read. -/
theorem Stage.move (h : Stage s us floor) {output : Bytes} (hno : 0x1b ∉ s.read ++ chunk)
    (hsuffix : output <:+ s.output ++ chunk) : Stage (s.buffer output (s.read ++ chunk)) us floor := by
  have hlen := h.buffer.suffix.length_le
  have hkeep := hsuffix.length_le
  have hstart : s.start ≤ (s.buffer output (s.read ++ chunk)).start := by
    show s.read.length - s.output.length ≤ (s.read ++ chunk).length - output.length
    rw [List.length_append] at hkeep ⊢
    omega
  refine ⟨h.buffer.move hno hsuffix, h.submissions.append chunk, h.used, h.start.trans hstart, ?_, ?_,
    h.exclusive⟩
  · intro hr
    obtain ⟨r, hocc, hfloor, hbefore⟩ := h.rebooted hr
    exact ⟨r, hocc.append chunk, hfloor, hbefore.trans hstart⟩
  · intro ha
    obtain ⟨r, b, hr, hb, hfloor, hrb, hbefore⟩ := h.booted ha
    exact ⟨r, b, hr.append chunk, hb.append chunk, hfloor, hrb, hbefore.trans hstart⟩

theorem keepLast_suffix (n : Nat) (s : Bytes) : keepLast n s <:+ s := by
  rw [keepLast]
  exact List.drop_suffix _ s

theorem Stage.extend (h : Stage s us floor) (hno : 0x1b ∉ s.read ++ chunk) :
    Stage (s.extend chunk) us floor := by
  rw [State.extend]
  exact h.move hno (keepLast_suffix _ _)

theorem Stage.attach (h : Stage s us floor) : Stage s.attach us floor := by
  unfold State.attach
  split
  · exact ⟨⟨h.buffer.suffix, h.buffer.plain⟩, h.submissions, h.used, h.start, h.rebooted, h.booted,
      h.exclusive⟩
  · exact h

theorem Stage.observeReboot (h : Stage s us floor) : Stage (s.observeReboot true) us floor := by
  unfold State.observeReboot
  split
  · next hc =>
    split
    · next rest hrest =>
      simp only [latestRebootMarker, h.buffer.normalized] at hrest
      obtain ⟨a, m, hm, hout⟩ := lastRest_sound _ _ _ hrest
      obtain ⟨i, j, hocc, hi, hj⟩ := h.buffer.found hm hout
      have harmed : s.promptArmed = false := by
        simp only [Bool.true_and, Bool.and_eq_true, Bool.not_eq_true'] at hc
        exact hc.1
      have hnot : ¬s.promptArmed = true := by rw [harmed]; decide
      refine ⟨⟨h.buffer.shrink hout, h.buffer.plain⟩, h.submissions, h.used, ?_, ?_, ?_, ?_⟩
      · exact h.start.trans (hi.trans (hocc.order.trans hj))
      · exact fun _ => ⟨(i, j), hocc, h.start.trans hi, hj⟩
      · exact fun ha => absurd ha hnot
      · exact fun ha => absurd ha hnot
    · exact h
  · exact h

theorem Stage.observeBoundary (h : Stage s us floor) : Stage (s.observeBoundary true) us floor := by
  unfold State.observeBoundary
  split
  · next hc =>
    split
    · next rest hrest =>
      simp only [latestBootBoundary, h.buffer.normalized] at hrest
      obtain ⟨a, m, hm, hout⟩ := lastRest_sound _ _ _ hrest
      obtain ⟨i, j, hocc, hi, hj⟩ := h.buffer.found hm hout
      have hreb : s.rebootObserved = true := by
        simp only [Bool.not_true, Bool.false_or, Bool.and_eq_true] at hc
        exact hc.2
      obtain ⟨r, hr, hfloor, hbefore⟩ := h.rebooted hreb
      refine ⟨⟨h.buffer.shrink hout, h.buffer.plain⟩, h.submissions, h.used, ?_, ?_, ?_, fun _ => rfl⟩
      · exact h.start.trans (hi.trans (hocc.order.trans hj))
      · exact fun hf => absurd hf Bool.false_ne_true
      · exact fun _ => ⟨r, (i, j), hr, hocc, hfloor, hbefore.trans hi, hj⟩
    · exact h
  · exact h

theorem Stage.receive (h : Stage s us floor) (hno : 0x1b ∉ s.read ++ chunk) :
    Stage (s.receive true chunk) us floor :=
  ((h.extend hno).attach.observeReboot).observeBoundary

/-- A submission has proofs of its own. -/
theorem Stage.submit (h : Stage s us floor) (harmed : s.promptArmed = true)
    (hprompt : promptIsVerified s.output = true) :
    ∃ u, Proved s.read (us ++ [u]) (s.submitted ++ [s.read.length]) ∧
      ∀ v ∈ us ++ [u], v.prompt.2 ≤ s.read.length := by
  rw [promptIsVerified, h.buffer.normalized] at hprompt
  obtain ⟨a, m, rest, hm, hout⟩ := search_sound hprompt
  obtain ⟨i, j, hocc, hi, hj⟩ := h.buffer.found hm hout
  obtain ⟨r, b, hr, hb, hfloor, hrb, hbefore⟩ := h.booted harmed
  refine ⟨⟨r, b, (i, j)⟩, ?_, ?_⟩
  · refine h.submissions.snoc ⟨hr, hb, hocc, hrb, hbefore.trans hi⟩ hocc.bound ?_
    exact fun v hv => (h.used v hv).trans hfloor
  · intro v hv
    obtain hv | hv := List.mem_append.mp hv
    · exact (h.used v hv).trans (h.start.trans (Nat.sub_le _ _))
    · rw [List.mem_singleton.mp hv]
      exact hocc.bound

theorem read_receive (watch : Bool) (s : State) (chunk : Bytes) :
    (s.receive watch chunk).read = s.read ++ chunk ∧ (s.receive watch chunk).submitted = s.submitted := by
  have hattach : ∀ u : State, u.attach.read = u.read ∧ u.attach.submitted = u.submitted := by
    intro u
    unfold State.attach
    split <;> exact ⟨rfl, rfl⟩
  have hreboot : ∀ u : State, (u.observeReboot watch).read = u.read ∧
      (u.observeReboot watch).submitted = u.submitted := by
    intro u
    unfold State.observeReboot
    split
    · split <;> exact ⟨rfl, rfl⟩
    · exact ⟨rfl, rfl⟩
  have hboundary : ∀ u : State, (u.observeBoundary watch).read = u.read ∧
      (u.observeBoundary watch).submitted = u.submitted := by
    intro u
    unfold State.observeBoundary
    split
    · split <;> exact ⟨rfl, rfl⟩
    · exact ⟨rfl, rfl⟩
  rw [State.receive, (hboundary _).1, (hreboot _).1, (hattach _).1, (hboundary _).2, (hreboot _).2,
    (hattach _).2, State.extend, buffer_read, buffer_submitted]
  exact ⟨rfl, rfl⟩

end Steps

/-! ## Runs -/

/-- What a round of the watcher leaves: the loop goes on from a stage, or it ends with the
    submissions accounted for. -/
def After (r : State × Option End) : Prop :=
  match r.2 with
  | some _ => ∃ us, Proved r.1.read us r.1.submitted
  | none => ∃ us floor, Stage r.1 us floor

theorem checkChild_after {s : State} {us : List Unlock} {floor : Nat} (h : Stage s us floor) (t : Turn) :
    After (s.checkChild t) := by
  unfold State.checkChild
  split
  · exact ⟨us, h.submissions⟩
  · exact ⟨us, floor, h⟩

/-- The step lemma of the watcher. -/
theorem turn_after {s : State} {us : List Unlock} {floor : Nat} (h : Stage s us floor) (t : Turn)
    (hno : 0x1b ∉ s.read ++ t.chunk.getD []) : After (s.turn true t) := by
  unfold State.turn
  split
  · next b chunk hchunk =>
    rw [hchunk] at hno
    have hstage := h.receive hno
    unfold State.handle
    simp only
    split
    · exact ⟨us, hstage.submissions⟩
    split
    · next hc =>
      obtain ⟨harmed, hprompt⟩ := Bool.and_eq_true _ _ ▸ hc
      obtain ⟨u, hproved, hused⟩ := hstage.submit harmed hprompt
      split
      · exact ⟨us ++ [u], hproved⟩
      · have hnone := hstage.exclusive harmed
        refine ⟨us ++ [u], (s.receive true (b :: chunk)).read.length, ?_⟩
        refine ⟨⟨List.nil_suffix, hstage.buffer.plain⟩, hproved, hused, Nat.le_refl _, ?_, ?_, ?_⟩
        · exact fun hr => absurd (hnone.symm.trans hr) Bool.false_ne_true
        · exact fun ha => absurd ha Bool.false_ne_true
        · exact fun ha => absurd ha Bool.false_ne_true
    · exact checkChild_after hstage t
  · split
    · exact ⟨us, h.submissions⟩
    · exact checkChild_after h t

theorem turn_read (watch : Bool) (s : State) (t : Turn) :
    (s.turn watch t).1.read = s.read ++ t.chunk.getD [] := by
  have hchild : ∀ u : State, (u.checkChild t).1.read = u.read := by
    intro u
    unfold State.checkChild
    split <;> rfl
  unfold State.turn
  split
  · next b chunk hchunk =>
    have hreceive := (read_receive watch s (b :: chunk)).1
    rw [hchunk]
    unfold State.handle
    simp only
    split
    · exact hreceive
    split
    · split
      · exact hreceive
      · split <;> exact hreceive
    · exact (hchild _).trans hreceive
  · next hchunk =>
    have hnone : t.chunk.getD [] = [] := by
      cases hc : t.chunk with
      | none => rfl
      | some chunk =>
        cases chunk with
        | nil => rfl
        | cons b chunk => exact absurd hc (hchunk b chunk)
    rw [hnone, List.append_nil]
    split
    · rfl
    · exact hchild s

theorem stream_cons (t : Turn) (turns : List Turn) : stream (t :: turns) = t.chunk.getD [] ++ stream turns :=
  List.flatMap_cons ..

/-- What was read is the beginning of the stream. -/
theorem runFrom_read (watch stopRequested : Bool) : ∀ (turns : List Turn) (s : State),
    ∃ rest, s.read ++ stream turns = (runFrom watch stopRequested s turns).1.read ++ rest
  | [], s => ⟨[], rfl⟩
  | t :: turns, s => by
    have hread := turn_read watch s t
    rw [runFrom, stream_cons, ← List.append_assoc, ← hread]
    cases hturn : s.turn watch t with
    | mk u result =>
      cases result with
      | some code => exact ⟨stream turns, rfl⟩
      | none => exact runFrom_read watch stopRequested turns u

/-- The run lemma of the watcher: by induction on the rounds, with a stage between any two. -/
theorem runFrom_proved (stopRequested : Bool) : ∀ (turns : List Turn) (s : State) (us : List Unlock)
    (floor : Nat), Stage s us floor → 0x1b ∉ s.read ++ stream turns →
      ∃ us, Proved (runFrom true stopRequested s turns).1.read us
        (runFrom true stopRequested s turns).1.submitted
  | [], _, us, _, h, _ => ⟨us, h.submissions⟩
  | t :: turns, s, us, floor, h, hno => by
    rw [stream_cons, ← List.append_assoc] at hno
    have hread := turn_read true s t
    have hafter := turn_after h t (fun hm => hno (List.mem_append_left _ hm))
    rw [runFrom]
    cases hturn : s.turn true t with
    | mk u result =>
      rw [hturn] at hread hafter
      cases result with
      | some code => exact hafter
      | none =>
        obtain ⟨us', floor', hstage⟩ := hafter
        exact runFrom_proved stopRequested turns u us' floor' hstage (by rwa [hread])

/-! ## One shot -/

/-- What a console that does not watch has done: nothing yet, or one submission after a
    prompt, and then it is at its end. -/
def Single (r : State × Option End) : Prop :=
  Buffer r.1 ∧ (r.1.submitted = [] ∨ r.2.isSome ∧ ∃ n i j, r.1.submitted = [n] ∧ j ≤ n ∧
    Occurs (lang verifiedPromptLine) r.1.read i j)

section Single

variable {s : State}

theorem buffer_extend (h : Buffer s) {chunk : Bytes} (hno : 0x1b ∉ s.read ++ chunk) :
    Buffer (s.extend chunk) := by
  rw [State.extend]
  exact h.move hno (keepLast_suffix _ _)

theorem buffer_attach (h : Buffer s) : Buffer s.attach := by
  unfold State.attach
  split
  · exact ⟨h.suffix, h.plain⟩
  · exact h

theorem buffer_observeReboot (h : Buffer s) (watch : Bool) : Buffer (s.observeReboot watch) := by
  unfold State.observeReboot
  split
  · split
    · next rest hrest =>
      simp only [latestRebootMarker, h.normalized] at hrest
      obtain ⟨a, m, -, hout⟩ := lastRest_sound _ _ _ hrest
      exact ⟨h.shrink hout, h.plain⟩
    · exact h
  · exact h

theorem buffer_observeBoundary (h : Buffer s) (watch : Bool) : Buffer (s.observeBoundary watch) := by
  unfold State.observeBoundary
  split
  · split
    · next rest hrest =>
      simp only [latestBootBoundary, h.normalized] at hrest
      obtain ⟨a, m, -, hout⟩ := lastRest_sound _ _ _ hrest
      exact ⟨h.shrink hout, h.plain⟩
    · exact h
  · exact h

theorem buffer_receive (h : Buffer s) {chunk : Bytes} (hno : 0x1b ∉ s.read ++ chunk) (watch : Bool) :
    Buffer (s.receive watch chunk) :=
  buffer_observeBoundary (buffer_observeReboot (buffer_attach (buffer_extend h hno)) watch) watch

theorem checkChild_single (h : Buffer s) (hnone : s.submitted = []) (t : Turn) :
    Single (s.checkChild t) := by
  unfold State.checkChild
  split
  · exact ⟨⟨h.suffix, h.plain⟩, Or.inl hnone⟩
  · exact ⟨h, Or.inl hnone⟩

/-- The submission of a console that does not watch. -/
theorem submit_single (h : Buffer s) (hnone : s.submitted = []) (hprompt : promptIsVerified s.output = true)
    (result : End) : Single (s.submit, some result) := by
  rw [promptIsVerified, h.normalized] at hprompt
  obtain ⟨a, m, rest, hm, hout⟩ := search_sound hprompt
  obtain ⟨i, j, hocc, -, -⟩ := h.found hm hout
  refine ⟨⟨h.suffix, h.plain⟩, Or.inr ⟨rfl, s.read.length, i, j, ?_, hocc.bound, hocc⟩⟩
  show s.submitted ++ [s.read.length] = _
  rw [hnone, List.nil_append]

theorem turn_single (h : Buffer s) (hnone : s.submitted = []) (t : Turn)
    (hno : 0x1b ∉ s.read ++ t.chunk.getD []) : Single (s.turn false t) := by
  unfold State.turn
  split
  · next b chunk hchunk =>
    rw [hchunk] at hno
    have hbuffer := buffer_receive h hno false
    have hsub : (s.receive false (b :: chunk)).submitted = [] :=
      (read_receive false s (b :: chunk)).2.trans hnone
    unfold State.handle
    simp only
    split
    · exact ⟨hbuffer, Or.inl hsub⟩
    split
    · next hc =>
      have hprompt := (Bool.and_eq_true _ _ ▸ hc).2
      split
      · exact submit_single hbuffer hsub hprompt .raised
      · exact submit_single hbuffer hsub hprompt (.returned 0)
    · exact checkChild_single hbuffer hsub t
  · split
    · exact ⟨h, Or.inl hnone⟩
    · exact checkChild_single h hnone t

theorem runFrom_single (stopRequested : Bool) : ∀ (turns : List Turn) (s : State), Buffer s →
    s.submitted = [] → 0x1b ∉ s.read ++ stream turns → ∃ result,
      Single ((runFrom false stopRequested s turns).1, some result)
  | [], s, h, hnone, _ => ⟨.returned 1, ⟨h.suffix, h.plain⟩, Or.inl hnone⟩
  | t :: turns, s, h, hnone, hno => by
    rw [stream_cons, ← List.append_assoc] at hno
    have hread := turn_read false s t
    have hsingle := turn_single h hnone t (fun hm => hno (List.mem_append_left _ hm))
    rw [runFrom]
    cases hturn : s.turn false t with
    | mk u result =>
      rw [hturn] at hread hsingle
      cases result with
      | some code => exact ⟨code, hsingle⟩
      | none =>
        obtain ⟨hbuffer, hsub | ⟨hend, -⟩⟩ := hsingle
        · exact runFrom_single stopRequested turns u hbuffer hsub (by rwa [hread])
        · exact absurd hend Bool.false_ne_true

end Single

/-! ## Submissions -/

/-- However the stream is cut into reads: a watching console has, for its submissions, as
    many disjoint occurrences of marker, boundary and prompt in this order, each read
    before its submission; one that does not watch submits once at most, after a prompt. -/
theorem submissions_are_proved (stopRequested : Bool) (turns : List Turn) (hno : 0x1b ∉ stream turns) :
    (∃ us, Proved (stream turns) us (runConsole true stopRequested turns).1.submitted) ∧
      ((runConsole false stopRequested turns).1.submitted = [] ∨
        ∃ n i j, (runConsole false stopRequested turns).1.submitted = [n] ∧ j ≤ n ∧
          Occurs (lang verifiedPromptLine) (stream turns) i j) := by
  constructor
  · have hstage : Stage { promptArmed := false } [] 0 :=
      ⟨⟨List.nil_suffix, List.not_mem_nil⟩, Proved.nil _, fun _ hu => absurd hu List.not_mem_nil,
        Nat.le_refl _, fun h => absurd h Bool.false_ne_true, fun h => absurd h Bool.false_ne_true,
        fun _ => rfl⟩
    obtain ⟨us, hproved⟩ := runFrom_proved stopRequested turns _ [] 0 hstage hno
    obtain ⟨rest, hrest⟩ := runFrom_read true stopRequested turns { promptArmed := false }
    rw [List.nil_append] at hrest
    rw [hrest]
    exact ⟨us, hproved.append rest⟩
  · obtain ⟨result, -, hsingle⟩ := runFrom_single stopRequested turns { promptArmed := true }
      ⟨List.nil_suffix, List.not_mem_nil⟩ rfl hno
    obtain ⟨rest, hrest⟩ := runFrom_read false stopRequested turns { promptArmed := true }
    rw [List.nil_append] at hrest
    obtain hnone | ⟨-, n, i, j, hsub, hj, hocc⟩ := hsingle
    · exact Or.inl hnone
    · rw [hrest]
      exact Or.inr ⟨n, i, j, hsub, hj, hocc.append rest⟩

/-- A reboot in three reads, the first two of which end in the middle of a line. -/
def rebootTurns : List Turn :=
  [ { chunk := some (bytes "[  OK  ] Reached target reb") },
    { chunk := some (bytes "oot.target - System Reboot.\r\n Starting systemd-crypts") },
    { chunk := some (bytes "etup@luks-4\r\nPlease enter passphrase for disk vda3 (luks-4):") } ]

theorem submissions_are_proved_reboot :
    (runConsole true false rebootTurns).1.submitted = [140] ∧
      (∃ us, Proved (stream rebootTurns) us (runConsole true false rebootTurns).1.submitted) ∧
      ((runConsole false false rebootTurns).1.submitted = [] ∨
        ∃ n i j, (runConsole false false rebootTurns).1.submitted = [n] ∧ j ≤ n ∧
          Occurs (lang verifiedPromptLine) (stream rebootTurns) i j) :=
  ⟨by decide +kernel, submissions_are_proved false rebootTurns (by decide +kernel)⟩

end Hermes.Console

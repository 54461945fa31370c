import Hermes.ManifestPaths

/- What a capture leaves: until `mv`, no manifest; from then on a line for every managed
   path, with a copy of what was there. Neither a later request nor a change of managed
   paths touches the manifest or the copies. -/
namespace Hermes.Manifest
open Process FileTree

variable {fs₁ : Fs} {dir path : Path} {n : Nat} {w w₁ : World} {l : Line} {α : Type}

/-! ## The rules of the commands -/

section Rules

variable {P : World → Prop} {E : Stop → World → Prop} {can : World → Bool}
  {effect : Turn → World → World}

theorem command_triple {Q : Unit → World → Prop} (hok : ∀ m w, P w → can w = true → Q () (effect m w))
    (herr : ∀ e w, P w → E e w) : Triple P (command can effect) Q E := by
  refine Triple.perform (fun w hw => herr _ w hw) (fun m w hw r u hr => ?_)
  split at hr
  · cases hr
    exact herr _ w hw
  · split at hr
    · next h => cases hr; exact hok m w hw h.2
    · cases hr; exact herr _ w hw

theorem check_triple {what : String} {Q : Unit → World → Prop} (hok : ∀ w, P w → Q () w)
    (herr : ∀ e w, P w → E e w) : Triple P (check what) Q E :=
  command_triple (fun _ w hw _ => hok w hw) herr

theorem output_triple {value : Turn → World → α} {Q : Option α → World → Prop}
    (hok : ∀ a m w, P w → (∀ v, a = some v → v = value m w) → Q a w) (herr : ∀ e w, P w → E e w) :
    Triple P (output value) Q E := by
  refine Triple.perform (fun w hw => herr _ w hw) (fun m w hw r u hr => ?_)
  split at hr
  · cases hr
    exact herr _ w hw
  · cases hr
    refine hok _ m w hw (fun v hv => ?_)
    split at hv
    · exact (Option.some.inj hv).symm
    · exact absurd hv (by simp)

theorem writeTree_triple {p : Path} {change : Fs → Option Fs} {Q : Unit → World → Prop}
    (hok : ∀ w fs, P w → change w.fs = some fs → Q () { w with fs := fs })
    (herr : ∀ e w fs, P w → E e { w with fs := fs }) : Triple P (writeTree p change) Q E := by
  refine Triple.perform (fun w hw => herr _ w w.fs hw) (fun m w hw r u hr => ?_)
  simp only at hr
  split at hr
  · cases hr
    exact herr _ w _ hw
  · split at hr
    · next h =>
      split at hr
      · cases hr; exact hok w _ hw h
      · cases hr; exact herr _ w _ hw
    · cases hr; exact herr _ w _ hw

end Rules

/-! ## What a capture records -/

/-- None of the copies that the lines name was there before. -/
def Unused (fs₁ : Fs) (lines : List Line) : Prop :=
  ∀ l ∈ lines, ∀ b, l.backup = some b → fs₁ b = none

/-- A line and its copy, on the files as they were. -/
structure Kept (fs₁ : Fs) (dir : Path) (n : Nat) (fs : Fs) (l : Line) : Prop where
  present : l.existed = true → isUnknown l.path = false ∧ fs₁ l.path ≠ none ∧
    ∃ i < n, l.backup = some (slot dir i) ∧ ∀ s, fs (slot dir i ++ s) = fs₁ (l.path ++ s)
  absent : l.existed = false → l.path = quadletPath "UNKNOWN" ∨ fs₁ l.path = none
  sum : ∀ d, l.digest = .sum d → (∃ t, fs₁ l.path = some (.link t)) ∨
    ∃ content, fs₁ l.path = some (.file content) ∧ d = Hermes.digest content

/-- The files while `n` lines are made. -/
structure Copied (fs₁ : Fs) (dir : Path) (n : Nat) (w : World) : Prop where
  dirs : ∀ q, q <+: dir → w.fs q = some .dir
  outside : ∀ c q, c ≠ "var" → w.fs (c :: q) = fs₁ (c :: q)
  slots : ∀ i, n ≤ i → w.fs (slot dir i) = fs₁ (slot dir i)
  lines : ∀ l ∈ w.pending, Kept fs₁ dir n w.fs l

/-- A capture that has made the lines of `ps`. -/
structure Capturing (fs₁ : Fs) (dir : Path) (ps : List Path) (w : World) : Prop where
  manifest : w.manifest = none
  paths : w.pending.map Line.path = ps
  copied : Unused fs₁ w.pending → Copied fs₁ dir ps.length w

/-- A directory for copies. -/
def BackupDir (dir : Path) : Prop := ∃ clock, dir = backupsDir ++ [clock ++ "Z"]

theorem BackupDir.named (h : BackupDir dir) : ∀ c ∈ dir, Named c := by
  obtain ⟨clock, rfl⟩ := h
  intro c hc
  simp only [backupsDir, stateDir, List.cons_append, List.nil_append, List.mem_cons, List.not_mem_nil,
    or_false] at hc
  obtain rfl | rfl | rfl | rfl | rfl := hc
  iterate 4 exact ⟨by decide, by decide⟩
  exact named_stamp clock

theorem BackupDir.root (h : BackupDir dir) : ∃ rest, dir = "var" :: rest := by
  obtain ⟨clock, rfl⟩ := h
  exact ⟨_, rfl⟩

theorem slot_root (h : BackupDir dir) (i : Nat) (s : Path) : ∃ rest, slot dir i ++ s = "var" :: rest := by
  obtain ⟨rest, rfl⟩ := h.root
  exact ⟨_, rfl⟩

theorem slot_named (h : BackupDir dir) (i : Nat) : ∀ c ∈ slot dir i, Named c := by
  intro c hc
  obtain hc | hc := List.mem_append.mp hc
  · exact h.named c hc
  · rw [List.mem_singleton.mp hc]
    exact named_file i

/-- Everything above a managed path that was there is a directory, and still is. -/
theorem Copied.above (ht : Tree fs₁) (hc : Copied fs₁ dir n w) (hp : Managed path)
    (h : fs₁ path ≠ none) : ∀ q, q <+: path.dropLast → w.fs q = some .dir := by
  intro q hq
  cases q with
  | nil => exact hc.dirs [] (List.nil_prefix)
  | cons c q =>
    obtain ⟨d, rest, rfl, hd⟩ := hp.root
    have hcd : c = d := by
      obtain ⟨s, hs⟩ := hq.trans (List.dropLast_prefix _)
      exact (List.cons.inj hs).1
    rw [hc.outside c q (by rw [hcd]; exact hd)]
    obtain ⟨s, hs⟩ := hq
    obtain ⟨last, hlast⟩ := hp.last
    refine ht.above (s ++ [last]) (by simp) ?_
    rw [← List.append_assoc, hs, ← hlast]
    exact h

section Capture

/-- What `createManifest` leaves where it was cut off before the manifest was there. -/
abbrev Unfinished (w : World) : Prop := w.manifest = none

theorem appendLine_triple {P Q : World → Prop} (hP : ∀ w, P w → Unfinished w)
    (h : ∀ w, P w → Q { w with pending := w.pending ++ [l] }) :
    Triple P (appendLine l) (fun _ => Q) (fun _ => Unfinished) :=
  command_triple (fun _ w hw _ => h w hw) (fun _ w hw => hP w hw)

theorem unused_append {lines : List Line} (h : Unused fs₁ (lines ++ [l])) :
    Unused fs₁ lines ∧ ∀ b, l.backup = some b → fs₁ b = none :=
  ⟨fun k hk => h k (by simp [hk]), h l (by simp)⟩

theorem Kept.mono {fs : Fs} (h : Kept fs₁ dir n fs l) : Kept fs₁ dir (n + 1) fs l := by
  refine ⟨fun he => ?_, h.absent, h.sum⟩
  obtain ⟨hu, hp, i, hi, hb⟩ := h.present he
  exact ⟨hu, hp, i, by omega, hb⟩

/-- One more line. -/
theorem copied_append (hdirs : ∀ q, q <+: dir → w.fs q = some .dir)
    (houtside : ∀ c q, c ≠ "var" → w.fs (c :: q) = fs₁ (c :: q))
    (hslots : ∀ i, n + 1 ≤ i → w.fs (slot dir i) = fs₁ (slot dir i))
    (hlines : ∀ l ∈ w.pending, Kept fs₁ dir n w.fs l) (h : Kept fs₁ dir (n + 1) w.fs l) :
    Copied fs₁ dir (n + 1) { w with pending := w.pending ++ [l] } := by
  refine ⟨hdirs, houtside, hslots, fun k hk => ?_⟩
  obtain hk | hk := List.mem_append.mp hk
  · exact (hlines k hk).mono
  · rw [List.mem_singleton.mp hk]
    exact h

/-- The files after the next copy, before its line. -/
structure Grafted (fs₁ : Fs) (dir : Path) (n : Nat) (path : Path) (w : World) : Prop where
  dirs : ∀ q, q <+: dir → w.fs q = some .dir
  outside : ∀ c q, c ≠ "var" → w.fs (c :: q) = fs₁ (c :: q)
  slots : ∀ i, n + 1 ≤ i → w.fs (slot dir i) = fs₁ (slot dir i)
  lines : ∀ l ∈ w.pending, Kept fs₁ dir n w.fs l
  copy : ∀ s, w.fs (slot dir n ++ s) = fs₁ (path ++ s)
  present : fs₁ path ≠ none

/-- Outside the state directory nothing changes. -/
theorem Copied.managed (hc : Copied fs₁ dir n w) (hp : Managed path) (s : Path) :
    w.fs (path ++ s) = fs₁ (path ++ s) := by
  obtain ⟨c, rest, rfl, hcv⟩ := hp.root
  exact hc.outside c (rest ++ s) hcv

theorem Copied.graft (hd : BackupDir dir) (hp : Managed path) (hc : Copied fs₁ dir n w)
    (hpres : fs₁ path ≠ none) :
    Grafted fs₁ dir n path { w with fs := FileTree.graft w.fs path (slot dir n) } := by
  have hother : ∀ i s, i ≠ n → FileTree.graft w.fs path (slot dir n) (slot dir i ++ s) =
      w.fs (slot dir i ++ s) :=
    fun i s hi => graft_elsewhere (fun h => hi (slot_disjoint h).symm)
  refine ⟨fun q hq => ?_, fun c q hcv => ?_, fun i hi => ?_, fun l hl => ?_, fun s => ?_, hpres⟩
  · refine (graft_elsewhere (fun h => ?_)).trans (hc.dirs q hq)
    have h₁ := h.length_le
    have h₂ := hq.length_le
    rw [slot_length] at h₁
    omega
  · refine (graft_elsewhere (fun h => ?_)).trans (hc.outside c q hcv)
    obtain ⟨rest, hrest⟩ := slot_root hd n []
    rw [List.append_nil] at hrest
    rw [hrest] at h
    exact hcv (List.cons_prefix_cons.mp h).1.symm
  · have := hother i [] (by omega)
    rw [List.append_nil] at this
    exact this.trans (hc.slots i (by omega))
  · have hkept := hc.lines l hl
    refine ⟨fun he => ?_, hkept.absent, hkept.sum⟩
    obtain ⟨hu, hpres, i, hi, hb, hs⟩ := hkept.present he
    exact ⟨hu, hpres, i, hi, hb, fun s => (hother i s (by omega)).trans (hs s)⟩
  · exact (graft_append s).trans (hc.managed hp s)

/-- What is known of a digest. -/
theorem Grafted.sum (ht : Tree fs₁) (hp : Managed path) (hg : Grafted fs₁ dir n path w) {d : Digest}
    (hd : (contentAt w.fs path).map Hermes.digest = some d) :
    (∃ t, fs₁ path = some (.link t)) ∨
      ∃ content, fs₁ path = some (.file content) ∧ d = Hermes.digest content := by
  have hc : Copied fs₁ dir (n + 1) { w with pending := [] } :=
    ⟨hg.dirs, hg.outside, hg.slots, fun _ hl => absurd hl (by simp)⟩
  have habove := hc.above ht hp hg.present
  have hsame : w.fs path = fs₁ path := by
    have := hc.managed hp []
    rwa [List.append_nil] at this
  obtain ⟨c, hlast⟩ := hp.last
  have hnamed := hp.named
  generalize path.dropLast = q at hlast habove
  subst hlast
  cases h : fs₁ (q ++ [c]) with
  | none => exact absurd h hg.present
  | some node =>
    cases node with
    | link t => exact Or.inl ⟨t, rfl⟩
    | file content =>
      rw [contentAt_file hnamed habove (hsame.trans h)] at hd
      exact Or.inr ⟨content, rfl, (Option.some.inj hd).symm⟩
    | dir =>
      rw [contentAt_dir hnamed habove (hsame.trans h)] at hd
      exact absurd hd (by simp)

variable {ps : List Path}

theorem sha256sum_triple {P : World → Prop} {Q : Option Digest → World → Prop} {p : Path}
    {E : Stop → World → Prop}
    (hok : ∀ a w, P w → (∀ d, a = some d → (contentAt w.fs p).map Hermes.digest = some d) → Q a w)
    (herr : ∀ e w, P w → E e w) : Triple P (sha256sum p) Q E := by
  refine Triple.bind (Q := fun a w => P w ∧ ∀ v, a = some v → v = (contentAt w.fs p).map Hermes.digest)
    (output_triple (fun a m w hw h => ⟨hw, h⟩) herr) (fun a => Triple.pure' (fun w hw => ?_))
  refine hok _ w hw.1 (fun d hd => ?_)
  cases a with
  | none => exact absurd hd (by simp)
  | some v =>
    rw [← hw.2 v rfl]
    exact hd

/-- A path that is there gets its copy and its line. -/
theorem capturePresent_triple (ht : Tree fs₁) (hd : BackupDir dir) (hp : Managed path)
    (hknown : isUnknown path = false) :
    Triple (fun w => Capturing fs₁ dir ps w ∧ w.present path = true)
      (capturePresent dir path ps.length) (fun _ => Capturing fs₁ dir (ps ++ [path]))
      (fun _ => Unfinished) := by
  let Half : World → Prop := fun w => w.manifest = none ∧ w.pending.map Line.path = ps ∧
    (Unused fs₁ w.pending → fs₁ (slot dir ps.length) = none → Grafted fs₁ dir ps.length path w)
  refine Triple.bind (Q := fun _ => Half) (writeTree_triple (fun w fs hw hcopy => ?_)
    (fun _ w _ hw => hw.1.manifest)) (fun _ => ?_)
  · refine ⟨hw.1.manifest, hw.1.paths, fun hu hnone => ?_⟩
    have hc := hw.1.copied hu
    have hpres : fs₁ path ≠ none := by
      have hsame := hc.managed hp []
      rw [List.append_nil] at hsame
      rw [← hsame]
      exact Option.isSome_iff_ne_none.mp hw.2
    obtain ⟨node, hnode⟩ := Option.ne_none_iff_exists'.mp (by
      have hsame := hc.managed hp []
      rw [List.append_nil] at hsame
      rw [hsame]
      exact hpres : w.fs path ≠ none)
    have hnew : copy w.fs path (slot dir ps.length) = some (FileTree.graft w.fs path (slot dir ps.length)) :=
      copy_new (slot_named hd _) hc.dirs ((hc.slots _ (Nat.le_refl _)).trans hnone) hnode
    rw [hnew] at hcopy
    cases hcopy
    exact hc.graft hd hp hpres
  refine Triple.bind (Q := fun a w => Half w ∧
      ∀ d, a = some d → (contentAt w.fs path).map Hermes.digest = some d)
    (sha256sum_triple (fun a w hw h => ⟨hw, h⟩) (fun _ w hw => hw.1)) (fun a => ?_)
  refine appendLine_triple (fun w hw => hw.1.1) (fun w hw => ?_)
  obtain ⟨⟨hm, hps, hg⟩, hsum⟩ := hw
  refine ⟨hm, by rw [List.map_append, hps]; rfl, fun hu => ?_⟩
  obtain ⟨hu, hslot⟩ := unused_append hu
  have hgr := hg hu (hslot _ rfl)
  rw [List.length_append]
  refine copied_append hgr.dirs hgr.outside hgr.slots hgr.lines ⟨fun _ => ?_, fun he => ?_, fun d hd => ?_⟩
  · exact ⟨hknown, hgr.present, ps.length, Nat.lt_succ_self _, rfl, hgr.copy⟩
  · exact absurd he (by simp)
  · refine hgr.sum ht hp (hsum d ?_)
    cases a with
    | none => exact absurd hd (by simp)
    | some v => exact congrArg some (Recorded.sum.inj hd)

/-- A line for a path that is not there. -/
theorem appendMissing_triple (hm : path = quadletPath "UNKNOWN" ∨ Managed path) :
    Triple (fun w => Capturing fs₁ dir ps w ∧ (path = quadletPath "UNKNOWN" ∨ w.present path = false))
      (appendLine ⟨path, false, none, .missing⟩) (fun _ => Capturing fs₁ dir (ps ++ [path]))
      (fun _ => Unfinished) := by
  refine appendLine_triple (fun w hw => hw.1.manifest) (fun w hw => ?_)
  obtain ⟨hw, habsent⟩ := hw
  refine ⟨hw.manifest, by rw [List.map_append, hw.paths]; rfl, fun hu => ?_⟩
  have hc := hw.copied (unused_append hu).1
  rw [List.length_append]
  refine copied_append hc.dirs hc.outside (fun i hi => hc.slots i (by omega)) hc.lines
    ⟨fun he => absurd he (by simp), fun _ => ?_, fun d hd => absurd hd (by simp)⟩
  obtain hq | hp := hm
  · exact Or.inl hq
  · refine habsent.imp id (fun h => ?_)
    have hsame := hc.managed hp []
    rw [List.append_nil] at hsame
    rw [← hsame]
    exact Option.not_isSome_iff_eq_none.mp (by simpa [World.present] using h)

theorem captureManifestPath_triple (ht : Tree fs₁) (hd : BackupDir dir) (hp : Managed path)
    (hknown : isUnknown path = false) :
    Triple (Capturing fs₁ dir ps) (captureManifestPath dir path ps.length)
      (fun _ => Capturing fs₁ dir (ps ++ [path])) (fun _ => Unfinished) := by
  refine Triple.start (fun w hw => ?_)
  refine Triple.bind (Q := fun a u => u = w ∧ a = w) (Triple.read (fun u hu => ⟨hu, hu⟩)) (fun a => ?_)
  refine Triple.given (φ := a = w) (fun _ hu => hu.2) (fun ha => Triple.ite (fun h => ?_) (fun h => ?_))
  · rw [ha] at h
    exact (capturePresent_triple ht hd hp hknown).pre (fun u hu => by rw [hu.1]; exact ⟨hw, h⟩)
  · rw [ha] at h
    exact (appendMissing_triple (Or.inr hp)).pre
      (fun u hu => by rw [hu.1]; exact ⟨hw, Or.inr (by simpa using h)⟩)

/-- The loop: every path in its turn. -/
theorem capturePaths_triple (ht : Tree fs₁) (hd : BackupDir dir) (paths : List Path) :
    ∀ ps, (∀ p ∈ paths, Managed p ∧ isUnknown p = false) →
      Triple (Capturing fs₁ dir ps)
        (Proc.forEach (paths.zipIdx ps.length) (fun (path, index) => captureManifestPath dir path index))
        (fun _ => Capturing fs₁ dir (ps ++ paths)) (fun _ => Unfinished) := by
  induction paths with
  | nil => exact fun ps _ => Triple.pure' (fun w hw => by rw [List.append_nil]; exact hw)
  | cons p paths ih =>
    intro ps hm
    rw [List.zipIdx_cons]
    refine Triple.bind (captureManifestPath_triple ht hd (hm p (by simp)).1 (hm p (by simp)).2) (fun _ => ?_)
    have h := ih (ps ++ [p]) (fun q hq => hm q (by simp [hq]))
    rw [List.length_append, List.append_assoc] at h
    exact h

theorem captureQuadlet_triple (ht : Tree fs₁) (hd : BackupDir dir) :
    Triple (Capturing fs₁ dir ps) (captureQuadlet dir ps.length)
      (fun _ w => ∃ user, Named user ∧ Capturing fs₁ dir (ps ++ [quadletPath user]) w)
      (fun _ => Unfinished) := by
  have hid : Triple (Capturing fs₁ dir ps) accountId (fun _ => Capturing fs₁ dir ps) (fun _ => Unfinished) :=
    Triple.bind (output_triple (fun _ _ w hw _ => hw) (fun _ w hw => hw.manifest))
      (fun _ => Triple.pure' (fun _ hw => hw))
  refine Triple.bind hid (fun uid => ?_)
  cases uid with
  | some uid =>
    have hknown : isUnknown (quadletPath (toString uid)) = false :=
      Bool.eq_false_iff.mpr (fun h => number_ne_unknown uid (isUnknown_quadlet.mp h))
    exact (captureManifestPath_triple ht hd (.quadlet _ (named_number uid)) hknown).post
      (fun _ w hw => ⟨_, named_number uid, hw⟩)
  | none =>
    refine ((appendMissing_triple (Or.inl rfl)).pre (fun w hw => ⟨hw, Or.inl rfl⟩)).post
      (fun _ w hw => ⟨"UNKNOWN", named_of_length (by decide), hw⟩)

/-- A manifest, and the copies it names on the files as they were. -/
structure Saved (fs₁ : Fs) (lines : List Line) (fs : Fs) : Prop where
  kept : ∃ dir n, BackupDir dir ∧ (∀ q, q <+: dir → fs q = some .dir) ∧
    ∀ l ∈ lines, Kept fs₁ dir n fs l
  above : ∀ l ∈ lines, l.existed = true → ∀ q, q <+: l.path.dropLast → fs q = some .dir

/-- The paths that a manifest has lines for. -/
def Complete (lines : List Line) : Prop :=
  ∃ admin user, Named user ∧
    lines.map Line.path = managedPaths ++ sudoersPaths admin ++ [quadletPath user]

/-- What a capture leaves: where there is a manifest, it is a whole one. -/
def Finished (fs₁ : Fs) (w : World) : Prop :=
  ∀ lines, w.manifest = some lines → Complete lines ∧ (Unused fs₁ lines → Saved fs₁ lines w.fs)

theorem finished_of_unfinished (h : Unfinished w) : Finished fs₁ w :=
  fun lines hl => absurd (h.symm.trans hl) (by simp)

theorem Complete.managed {lines : List Line} (h : Complete lines) : ∀ l ∈ lines, Managed l.path := by
  obtain ⟨admin, user, huser, hmap⟩ := h
  intro l hl
  have hmem : l.path ∈ lines.map Line.path := List.mem_map_of_mem hl
  rw [hmap] at hmem
  obtain hmem | hmem := List.mem_append.mp hmem
  · obtain hmem | hmem := List.mem_append.mp hmem
    · exact .host hmem
    · exact .sudoers admin hmem
  · rw [List.mem_singleton.mp hmem]
    exact .quadlet user huser

/-- What a request has changed before it has a directory for its copies. -/
structure Ensured (fs₁ : Fs) (w : World) : Prop where
  manifest : w.manifest = none
  outside : ∀ c q, c ≠ "var" → w.fs (c :: q) = fs₁ (c :: q)
  slots : ∀ dir i, BackupDir dir → w.fs (slot dir i) = fs₁ (slot dir i)

theorem Ensured.makeDirs {p : Path} (h : Ensured fs₁ w) (hp : ∃ rest, p = "var" :: rest)
    (hs : ∀ dir i, BackupDir dir → ¬slot dir i <+: p) :
    Ensured fs₁ { w with fs := FileTree.makeDirs w.fs p } := by
  refine ⟨h.manifest, fun c q hc => ?_, fun dir i hd => ?_⟩
  · obtain ⟨rest, rfl⟩ := hp
    refine (makeDirs_elsewhere (fun hq => ?_)).trans (h.outside c q hc)
    exact hc (List.cons_prefix_cons.mp hq).1
  · exact (makeDirs_elsewhere (hs dir i hd)).trans (h.slots dir i hd)

theorem BackupDir.length (h : BackupDir dir) : dir.length = 5 := by
  obtain ⟨clock, rfl⟩ := h
  rfl

theorem installDir_triple {p : Path} {P Q : World → Prop} {E : Stop → World → Prop}
    (hok : ∀ w, P w → Q { w with fs := makeDirs w.fs p }) (herr : ∀ e w, P w → E e w) :
    Triple P (installDir p) (fun _ => Q) E :=
  command_triple (fun _ w hw _ => hok w hw) herr

theorem ensureState_triple :
    Triple (Ensured fs₁) ensureState (fun _ => Ensured fs₁) (fun _ => Unfinished) := by
  have hshort : ∀ p : Path, p.length ≤ 5 → ∀ dir i, BackupDir dir → ¬slot dir i <+: p := by
    intro p hp dir i hd h
    have := h.length_le
    rw [slot_length, hd.length] at this
    omega
  have hcheck : ∀ what, Triple (Ensured fs₁) (check what) (fun _ => Ensured fs₁) (fun _ => Unfinished) :=
    fun _ => check_triple (fun _ hw => hw) (fun _ _ hw => hw.manifest)
  have hinstall : ∀ p : Path, (∃ rest, p = "var" :: rest) → p.length ≤ 5 →
      Triple (Ensured fs₁) (installDir p) (fun _ => Ensured fs₁) (fun _ => Unfinished) :=
    fun p hp hlen => installDir_triple (fun w hw => hw.makeDirs hp (hshort p hlen))
      (fun _ _ hw => hw.manifest)
  refine Triple.bind (hinstall _ ⟨_, rfl⟩ (by decide)) (fun _ => ?_)
  refine Triple.bind (hinstall _ ⟨_, rfl⟩ (by decide)) (fun _ => ?_)
  exact Triple.bind (hcheck _) (fun _ => hcheck _)

theorem backupDir_triple {P : World → Prop} (hP : ∀ w, P w → Unfinished w) :
    Triple P backupDir (fun dir w => P w ∧ BackupDir dir) (fun _ => Unfinished) := by
  refine Triple.bind (Q := fun _ => P) (output_triple (fun _ _ _ hw _ => hw) (fun _ w hw => hP w hw))
    (fun clock => ?_)
  cases clock with
  | none => exact Triple.raise (fun w hw => hP w hw)
  | some clock => exact Triple.pure' (fun w hw => ⟨hw, clock, rfl⟩)

/-- With its directory made, a capture begins. -/
theorem begin_capture (hd : BackupDir dir) {rest : Cmd Unit} {Q : Unit → World → Prop}
    {E : Stop → World → Prop} (hE : ∀ e w, Unfinished w → E e w)
    (h : Triple (Capturing fs₁ dir []) rest Q E) :
    Triple (Ensured fs₁) (do
      installDir dir
      installDir (dir ++ ["files"])
      command (fun _ => true) (fun _ w => { w with pending := [] })
      rest) Q E := by
  let Made : World → Prop := fun w => Ensured fs₁ w ∧ ∀ q, q <+: dir → w.fs q = some .dir
  have hslot : ∀ d i, BackupDir d → ¬slot d i <+: dir := by
    intro d i hbd hs
    have := hs.length_le
    rw [slot_length, hbd.length, hd.length] at this
    omega
  have hfiles : ∀ d i, BackupDir d → ¬slot d i <+: dir ++ ["files"] := by
    intro d i hbd hs
    have heq := hs.eq_of_length (by rw [slot_length, hbd.length, List.length_append, hd.length]; rfl)
    have := congrArg List.getLast? heq
    rw [slot, List.getLast?_concat, List.getLast?_concat] at this
    exact slot_ne_files i (Option.some.inj this)
  refine Triple.bind (Q := fun _ => Made) (installDir_triple (fun w hw => ?_)
    (fun e w hw => hE e w hw.manifest)) (fun _ => ?_)
  · exact ⟨hw.makeDirs hd.root hslot, fun q hq => makeDirs_above hq⟩
  refine Triple.bind (Q := fun _ => Made) (installDir_triple (fun w hw => ?_)
    (fun e w hw => hE e w hw.1.manifest)) (fun _ => ?_)
  · obtain ⟨rest, hrest⟩ := hd.root
    refine ⟨hw.1.makeDirs ⟨rest ++ ["files"], by rw [hrest]; rfl⟩ hfiles, fun q hq => ?_⟩
    exact makeDirs_above (hq.trans (List.prefix_append dir _))
  refine Triple.bind (command_triple (fun _ w hw _ => ?_) (fun e w hw => hE e w hw.1.manifest))
    (fun _ => h)
  refine ⟨hw.1.manifest, rfl, fun _ => ⟨hw.2, hw.1.outside, fun i _ => hw.1.slots dir i hd, ?_⟩⟩
  exact fun l hl => absurd hl (by simp)

/-- The manifest is in place from `mv` on. -/
theorem publish_triple (ht : Tree fs₁) (hd : BackupDir dir) {admin user : String} (huser : Named user) :
    Triple (Capturing fs₁ dir (managedPaths ++ sudoersPaths admin ++ [quadletPath user])) publish
      (fun _ => Finished fs₁) (fun _ => Finished fs₁) := by
  refine command_triple (fun _ w hw _ => ?_) (fun _ w hw => finished_of_unfinished hw.manifest)
  intro lines hl
  cases Option.some.inj hl
  have hcomplete : Complete w.pending := ⟨admin, user, huser, hw.paths⟩
  refine ⟨hcomplete, fun hu => ?_⟩
  have hc := hw.copied hu
  refine ⟨⟨dir, _, hd, hc.dirs, hc.lines⟩, fun l hl he => ?_⟩
  exact Copied.above (w := w) ht hc (hcomplete.managed l hl) ((hc.lines l hl).present he).2.1

theorem captureAll_triple (ht : Tree fs₁) :
    Triple (Ensured fs₁) captureAll (fun _ => Finished fs₁) (fun _ => Finished fs₁) := by
  have hcut : ∀ (e : Stop) (w : World), Unfinished w → Finished fs₁ w :=
    fun _ _ hw => finished_of_unfinished hw
  have hcheck : ∀ what, Keeps (Finished fs₁) (check what) :=
    fun _ => check_triple (fun _ hw => hw) (fun _ _ hw => hw)
  refine Triple.bind ((backupDir_triple (fun w hw => hw.manifest)).mono (fun _ h => h) (fun _ _ h => h)
    hcut) (fun dir => Triple.given (fun _ h => h.2) (fun hd => Triple.pre ?_ (fun _ h => h.1)))
  refine begin_capture hd hcut ?_
  have hstay : ∀ ps what, Triple (Capturing fs₁ dir ps) (check what) (fun _ => Capturing fs₁ dir ps)
      (fun _ => Finished fs₁) :=
    fun _ _ => check_triple (fun _ hw => hw) (fun e w hw => hcut e w hw.manifest)
  refine Triple.bind (hstay _ _) (fun _ => ?_)
  refine Triple.bind (Q := fun _ => Capturing fs₁ dir []) ?_ (fun admin => ?_)
  · refine Triple.bind (Q := fun _ => Capturing fs₁ dir []) (Triple.read (fun _ hw => hw)) (fun u => ?_)
    split
    · exact Triple.raise (fun w hw => hcut .failed w hw.manifest)
    · exact Triple.pure' (fun _ hw => hw)
  have hmanaged : ∀ p ∈ managedPaths ++ sudoersPaths admin, Managed p ∧ isUnknown p = false := by
    intro p hp
    obtain h | h := List.mem_append.mp hp
    · exact ⟨.host h, (managedPaths_roots p h).2.2.2.2.2⟩
    · exact ⟨.sudoers admin h, isUnknown_sudoers h⟩
  refine Triple.bind ((capturePaths_triple ht hd _ [] hmanaged).mono (fun _ h => h) (fun _ _ h => h) hcut)
    (fun _ => ?_)
  refine Triple.bind ((captureQuadlet_triple ht hd).mono (fun _ h => h) (fun _ _ h => h) hcut)
    (fun _ => ?_)
  refine Triple.start (fun w hw => ?_)
  obtain ⟨user, huser, hw⟩ := hw
  refine Triple.pre (P := Capturing fs₁ dir (managedPaths ++ sudoersPaths admin ++ [quadletPath user]))
    ?_ (fun u hu => by rw [hu]; exact hw)
  refine Triple.bind (hstay _ _) (fun _ => Triple.bind (hstay _ _) (fun _ =>
    Triple.bind (hstay _ _) (fun _ => Triple.bind (publish_triple ht hd huser) (fun _ => ?_))))
  exact Triple.bind (hcheck _) (fun _ => Triple.bind (hcheck _) (fun _ => hcheck _))

/-- The request, on files without a manifest. -/
theorem createManifest_triple (ht : Tree fs₁) :
    Triple (fun w => w.manifest = none ∧ w.fs = fs₁) createManifest (fun _ => Finished fs₁)
      (fun _ => Finished fs₁) := by
  refine Triple.bind ((@ensureState_triple fs₁).mono (fun w hw => ?_) (fun _ _ h => h)
    (fun _ w hw => finished_of_unfinished hw)) (fun _ => ?_)
  · exact ⟨hw.1, fun _ _ _ => by rw [hw.2], fun _ _ _ => by rw [hw.2]⟩
  refine Triple.bind (Q := fun a w => Ensured fs₁ w ∧ a.current = false)
    (Triple.read (fun w hw => ⟨hw, by rw [World.current, hw.manifest]; rfl⟩)) (fun a => ?_)
  refine Triple.given (fun _ h => h.2) (fun ha => ?_)
  rw [ha]
  exact Triple.bind ((captureAll_triple ht).pre (fun _ h => h.1)) (fun _ => Triple.pure' (fun _ hw => hw))

end Capture

/-! ## Until the rollback -/

variable {lines : List Line} {uid : Option Nat} {fs fs' : Fs} {ps : List Path}

/-- The path that a line is about, if there is one by now. -/
def Line.subject (l : Line) (uid : Option Nat) : Option Path :=
  if isUnknown l.path then uid.map (fun uid => quadletPath (toString uid)) else some l.path

/-- The paths of a manifest. -/
def subjects (lines : List Line) (uid : Option Nat) : List Path := lines.filterMap (·.subject uid)

/-- What is done to managed paths, the directories above them included. -/
structure Modified (ps : List Path) (w u : World) : Prop where
  manifest : u.manifest = w.manifest
  fs : ∀ q, under ps q = false → u.fs q = w.fs q ∨
    w.fs q = none ∧ u.fs q = some .dir ∧ ∃ p ∈ ps, q <+: p

/-- What happens between a capture and a rollback. -/
inductive Step (ps : List Path) : World → World → Prop
  | requested (t : List Turn) (w : World) : Step ps w (createManifest.after t w)
  | modified {w u : World} (h : Modified ps w u) : Step ps w u

theorem Line.subject_managed {p : Path} (hl : Managed l.path) (h : l.subject uid = some p) :
    Managed p := by
  unfold Line.subject at h
  split at h
  · obtain ⟨u, -, rfl⟩ := Option.map_eq_some_iff.mp h
    exact .quadlet _ (named_number u)
  · cases h
    exact hl

theorem subjects_managed (h : Complete lines) : ∀ p ∈ subjects lines uid, Managed p := by
  intro p hp
  obtain ⟨l, hl, hs⟩ := List.mem_filterMap.mp hp
  exact Line.subject_managed (h.managed l hl) hs

theorem not_under {q : Path} (h : ∀ p ∈ ps, ¬p <+: q) : under ps q = false :=
  Bool.eq_false_iff.mpr (fun hu => by
    obtain ⟨p, hp, hq⟩ := under_iff.mp hu
    exact h p hp hq)

/-- The copies and the directories stay through changes of managed paths. -/
theorem Saved.frame (h : Saved fs₁ lines fs) (hlines : ∀ l ∈ lines, Managed l.path)
    (hps : ∀ p ∈ ps, Managed p)
    (hf : ∀ q, under ps q = false → fs' q = fs q ∨ fs q = none ∧ fs' q = some .dir ∧ ∃ p ∈ ps, q <+: p) :
    Saved fs₁ lines fs' := by
  have hdir : ∀ q, (∀ p ∈ ps, ¬p <+: q) → fs q = some .dir → fs' q = some .dir := by
    intro q hq hd
    obtain h | ⟨h, -⟩ := hf q (not_under hq)
    · exact h.trans hd
    · exact absurd (hd.symm.trans h) (by simp)
  obtain ⟨dir, n, hd, hdirs, hkept⟩ := h.kept
  refine ⟨⟨dir, n, hd, fun q hq => hdir q (fun p hp hpq => ?_) (hdirs q hq), fun l hl => ?_⟩, ?_⟩
  · obtain ⟨rest, hrest⟩ := hd.root
    rw [hrest] at hq
    exact (hps p hp).not_prefix_var (hpq.trans hq)
  · refine ⟨fun he => ?_, (hkept l hl).absent, (hkept l hl).sum⟩
    obtain ⟨hu, hpres, i, hi, hb, hcopy⟩ := (hkept l hl).present he
    refine ⟨hu, hpres, i, hi, hb, fun s => ?_⟩
    obtain ⟨rest, hrest⟩ := slot_root hd i s
    rw [← hcopy s, hrest]
    obtain h | ⟨-, -, p, hp, hpq⟩ := hf ("var" :: rest) (not_under (fun p hp => (hps p hp).not_prefix_var))
    · exact h
    · obtain ⟨c, r, rfl, hc⟩ := (hps p hp).root
      exact absurd (List.cons_prefix_cons.mp hpq).1.symm hc
  · intro l hl he q hq
    exact hdir q (fun p hp hpq => (hlines l hl).apart (hps p hp) (hpq.trans hq)) (h.above l hl he q hq)

theorem Saved.makeDirs {p : Path} (h : Saved fs₁ lines fs) (hp : p.length ≤ 5) :
    Saved fs₁ lines (FileTree.makeDirs fs p) := by
  have hdir : ∀ q, fs q = some .dir → FileTree.makeDirs fs p q = some .dir := by
    intro q hq
    by_cases hpre : q <+: p
    · exact makeDirs_above hpre
    · exact (makeDirs_elsewhere hpre).trans hq
  obtain ⟨dir, n, hd, hdirs, hkept⟩ := h.kept
  refine ⟨⟨dir, n, hd, fun q hq => hdir q (hdirs q hq), fun l hl => ?_⟩,
    fun l hl he q hq => hdir q (h.above l hl he q hq)⟩
  refine ⟨fun he => ?_, (hkept l hl).absent, (hkept l hl).sum⟩
  obtain ⟨hu, hpres, i, hi, hb, hcopy⟩ := (hkept l hl).present he
  refine ⟨hu, hpres, i, hi, hb, fun s => (makeDirs_elsewhere (fun hpre => ?_)).trans (hcopy s)⟩
  have := hpre.length_le
  rw [List.length_append, slot_length, hd.length] at this
  omega

/-- A request after the first capture finds the manifest and changes nothing. -/
theorem createManifest_current (hne : lines ≠ []) {R : Fs → Prop}
    (hR : ∀ fs p, p.length ≤ 5 → R fs → R (FileTree.makeDirs fs p)) :
    Keeps (fun w => w.manifest = some lines ∧ R w.fs) createManifest := by
  have hinstall : ∀ p : Path, p.length ≤ 5 →
      Keeps (fun w => w.manifest = some lines ∧ R w.fs) (installDir p) :=
    fun p hp => installDir_triple (fun w hw => ⟨hw.1, hR _ _ hp hw.2⟩) (fun _ _ hw => hw)
  have hcheck : ∀ what, Keeps (fun w => w.manifest = some lines ∧ R w.fs) (check what) :=
    fun _ => check_triple (fun _ hw => hw) (fun _ _ hw => hw)
  have hensure : Keeps (fun w => w.manifest = some lines ∧ R w.fs) ensureState :=
    Keeps.bind (hinstall _ (by decide)) (fun _ => Keeps.bind (hinstall _ (by decide))
      (fun _ => Keeps.bind (hcheck _) (fun _ => hcheck _)))
  refine Keeps.bind hensure (fun _ => ?_)
  refine Triple.bind (Q := fun a w => (w.manifest = some lines ∧ R w.fs) ∧ a.current = true)
    (Triple.read (fun w hw => ⟨hw, ?_⟩)) (fun a => ?_)
  · rw [World.current, hw.1]
    cases lines with
    | nil => exact absurd rfl hne
    | cons l lines => rfl
  refine Triple.given (fun _ h => h.2) (fun ha => ?_)
  rw [ha]
  exact Triple.pure' (fun _ hw => hw.1)

theorem Complete.ne_nil (h : Complete lines) : lines ≠ [] := by
  obtain ⟨admin, user, -, hmap⟩ := h
  intro hnil
  rw [hnil] at hmap
  exact absurd hmap (by simp)

/-- No later request replaces the manifest. -/
theorem later_manifest {u : World} (hc : Complete lines) (h : Relation.ReflTransGen (Step ps) w u)
    (hw : w.manifest = some lines) : u.manifest = some lines := by
  induction h with
  | refl => exact hw
  | tail _ hstep ih =>
    cases hstep with
    | requested t w =>
      exact ((createManifest_current hc.ne_nil (R := fun _ => True) (fun _ _ _ _ => trivial)).after
        ⟨ih, trivial⟩).1
    | modified h => exact h.manifest.trans ih

/-- Nor do the copies go. -/
theorem later_saved {u : World} (hc : Complete lines) (hps : ∀ p ∈ ps, Managed p)
    (h : Relation.ReflTransGen (Step ps) w u) (hw : w.manifest = some lines)
    (hs : Saved fs₁ lines w.fs) : Saved fs₁ lines u.fs := by
  induction h with
  | refl => exact hs
  | tail hpath hstep ih =>
    cases hstep with
    | requested t w =>
      exact ((createManifest_current hc.ne_nil (R := Saved fs₁ lines)
        (fun _ _ hp h => h.makeDirs hp)).after ⟨later_manifest hc hpath hw, ih⟩).2
    | modified h => exact ih.frame hc.managed hps h.fs

end Hermes.Manifest

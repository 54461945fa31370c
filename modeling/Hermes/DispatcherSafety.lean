import Hermes.Dispatcher

/- What holds of the dispatcher over any sequence of requests, each ended at any point. A binding
   that is recorded never changes, and neither does the directory of a release
   (`bindings_kept`); and an entry point is only ever started from a directory whose manifest the
   enrolled signers have signed, has the bound digest and lists the files as they are, also where
   directories were damaged between the requests (`executions_verified`). -/
namespace Hermes.Dispatcher
open Process Entries Outcome
open Candidate (Content Tools pathOf)
open Release (Unpacked)

variable {x : Setting} {α : Type}

/-! ## The operations -/

theorem protectedRead_triple {P : Root → Prop} {Q : α → Root → Prop} {E : Exc → Root → Prop}
    {guard : Moment → Option String} {value : Root → Option α} (hok : ∀ a w, P w → value w = some a → Q a w)
    (herr : ∀ e w, P w → E e w) : Triple P (protectedRead guard value) Q E := by
  refine Triple.perform (fun w hw => herr _ w hw) ?_
  intro m w hw r w' hr
  split at hr
  · cases hr
    exact herr _ _ hw
  · split at hr
    · cases hr
      exact herr _ _ hw
    · split at hr
      · next a hvalue =>
        cases hr
        exact hok a _ hw hvalue
      · cases hr
        exact herr _ _ hw

theorem protectedRead_keeps {I : Root → Prop} {guard : Moment → Option String} {value : Root → Option α} :
    Keeps I (protectedRead guard value) :=
  protectedRead_triple (fun _ _ hw _ => hw) (fun _ _ => id)

/-- What is logged of a start. -/
def Root.started (w : Root) (releaseId fingerprint action : String) : Root :=
  { w with executions := ⟨releaseId, fingerprint, action, w.releases releaseId⟩ :: w.executions }

theorem runEntryPoint_triple {P : Root → Prop} {releaseId fingerprint action : String}
    (hstart : ∀ w, P w → P (w.started releaseId fingerprint action)) :
    Keeps P (runEntryPoint x releaseId fingerprint action) := by
  refine Triple.perform (fun _ => id) ?_
  intro m w hw r w' hr
  have hstarted := hstart w hw
  split at hr
  · cases hr
    exact hw
  · split at hr
    · split at hr
      · cases hr
        exact hstarted
      · cases hr
        exact hstarted
    · cases hr
      exact hstarted

/-! ## A directory that was checked -/

/-- What `verify_tree` has seen of a directory. -/
structure Checked (x : Setting) (fingerprint : String) (t : Release.Tree) : Prop where
  manifest : ∃ raw mode signature mode', t.node ["manifest.json"] = some (.file raw mode) ∧
    t.node ["manifest.sig"] = some (.file signature mode') ∧ x.genuine raw signature = true ∧
    x.tools.sha256 raw = fingerprint ∧ ∃ document manifest now, x.tools.decode raw = .ok document ∧
      Release.validate x.tools.floatIs now (some x.host) true document = .ok manifest ∧
      ∀ f ∈ manifest.files, ∃ content mode, t.node (pathOf f.1) = some (.file content mode) ∧
        content.length = f.2.size ∧ x.tools.sha256 content = f.2.sha256

theorem file_some {w : Root} {releaseId : String} {p : Path} {content : Content} (h : w.file releaseId p = some content) :
    ∃ t mode, w.releases releaseId = some t ∧ t.node p = some (.file content mode) := by
  unfold Root.file at h
  split at h
  · next mode hnode =>
    cases h
    obtain ⟨t, ht, hnode⟩ := Option.bind_eq_some_iff.mp hnode
    exact ⟨t, mode, ht, hnode⟩
  · cases h

theorem verify_ok {m : Moment} {raw signature : Content} {u : Unit} (h : x.verify m raw signature = .ok u) :
    x.genuine raw signature = true := by
  unfold Setting.verify at h
  split at h
  · split at h
    · assumption
    · cases h
  · cases h

/-- One round of the loop in `verify_tree`. -/
theorem checkFile_triple {w₀ : Root} {releaseId : String} {f : String × Release.FileRecord} :
    Triple (fun w => w = w₀) (do
        let content ← protectedRead x.guard (·.file releaseId (pathOf f.1))
        require (content.length == f.2.size && x.tools.sha256 content == f.2.sha256) "staged-artifact-changed")
      (fun _ w => w = w₀ ∧ ∃ content, w₀.file releaseId (pathOf f.1) = some content ∧ content.length = f.2.size ∧
        x.tools.sha256 content = f.2.sha256)
      (fun _ w => w = w₀) := by
  refine Triple.bind (Q := fun content w => w = w₀ ∧ w₀.file releaseId (pathOf f.1) = some content)
    (protectedRead_triple (fun content w hw hvalue => ⟨hw, hw ▸ hvalue⟩) (fun _ _ hw => hw)) (fun content => ?_)
  refine require_triple (fun hc w hw => ?_) (fun _ w hw => hw.1)
  rw [Bool.and_eq_true, beq_iff_eq, beq_iff_eq] at hc
  exact ⟨hw.1, content, hw.2, hc.1, hc.2⟩

theorem verifyTree_triple {w₀ : Root} {releaseId fingerprint : String} :
    Triple (fun w => w = w₀) (verifyTree x releaseId fingerprint)
      (fun _ w => w = w₀ ∧ ∃ t, w₀.releases releaseId = some t ∧ Checked x fingerprint t) (fun _ w => w = w₀) := by
  refine Triple.bind (Q := fun raw w => w = w₀ ∧ w₀.file releaseId ["manifest.json"] = some raw)
    (protectedRead_triple (fun raw w hw hvalue => ⟨hw, hw ▸ hvalue⟩) (fun _ _ hw => hw)) (fun raw => ?_)
  refine Triple.bind (Q := fun _ w => (w = w₀ ∧ w₀.file releaseId ["manifest.json"] = some raw) ∧
    x.tools.sha256 raw = fingerprint) (require_triple (fun hc w hw => ⟨hw, by simpa using hc⟩) (fun _ w hw => hw.1))
    (fun _ => ?_)
  refine Triple.given (φ := w₀.file releaseId ["manifest.json"] = some raw ∧ x.tools.sha256 raw = fingerprint)
    (fun w hw => ⟨hw.1.2, hw.2⟩) (fun hraw => ?_)
  refine Triple.bind (Q := fun signature w => w = w₀ ∧ w₀.file releaseId ["manifest.sig"] = some signature)
    (protectedRead_triple (fun signature w hw hvalue => ⟨hw.1.1, hw.1.1 ▸ hvalue⟩) (fun _ _ hw => hw.1.1))
    (fun signature => ?_)
  refine Triple.given (φ := w₀.file releaseId ["manifest.sig"] = some signature) (fun w hw => hw.2) (fun hsignature => ?_)
  refine Triple.bind (Q := fun _ w => w = w₀) (instant_triple (fun _ _ hw => hw.1) (fun _ _ hw => hw.1)) (fun m => ?_)
  refine Triple.bind (Q := fun _ w => w = w₀ ∧ x.genuine raw signature = true)
    (Triple.settle (fun _ hok w hw => ⟨hw, verify_ok hok⟩) (fun _ _ => id)) (fun _ => ?_)
  refine Triple.given (φ := x.genuine raw signature = true) (fun w hw => hw.2) (fun hgenuine => ?_)
  refine Triple.bind (Q := fun document w => w = w₀ ∧ x.tools.decode raw = .ok document)
    (Triple.settle (fun _ hok w hw => ⟨hw.1, hok⟩) (fun _ _ hw => hw.1)) (fun document => ?_)
  refine Triple.given (φ := x.tools.decode raw = .ok document) (fun w hw => hw.2) (fun hdecode => ?_)
  refine Triple.bind (Q := fun manifest w => w = w₀ ∧
    Release.validate x.tools.floatIs m.now (some x.host) true document = .ok manifest)
    (Triple.settle (fun _ hok w hw => ⟨hw.1, hok⟩) (fun _ _ hw => hw.1)) (fun manifest => ?_)
  refine Triple.given (φ := Release.validate x.tools.floatIs m.now (some x.host) true document = .ok manifest)
    (fun w hw => hw.2) (fun hvalid => ?_)
  -- the loop: the files that it has gone through are as they are listed
  let seen := fun (rest : List (String × Release.FileRecord)) (w : Root) => w = w₀ ∧
    ∀ f ∈ manifest.files, f ∈ rest ∨ ∃ content, w₀.file releaseId (pathOf f.1) = some content ∧
      content.length = f.2.size ∧ x.tools.sha256 content = f.2.sha256
  refine Triple.bind (Q := fun _ => seen []) ?_ (fun _ => Triple.pure' (fun w hw => ⟨hw.1, ?_⟩))
  · refine Triple.pre (Triple.forEach (I := seen) (fun f rest => ?_) manifest.files) (fun w hw => ⟨hw.1, fun f hf => Or.inl hf⟩)
    refine Triple.start (fun w₁ hw₁ => ?_)
    obtain rfl : w₁ = w₀ := hw₁.1
    refine checkFile_triple.mono (fun _ => id) (fun _ w hw => ⟨hw.1, fun g hg => ?_⟩) (fun _ _ => id)
    rcases hw₁.2 g hg with hrest | hdone
    · rcases List.mem_cons.mp hrest with rfl | hrest
      · exact Or.inr hw.2
      · exact Or.inl hrest
    · exact Or.inr hdone
  · obtain ⟨t, mode, ht, hmanifest⟩ := file_some hraw.1
    obtain ⟨t', mode', ht', hseal⟩ := file_some hsignature
    obtain rfl : t' = t := Option.some.inj (ht'.symm.trans ht)
    refine ⟨t', ht, raw, mode, signature, mode', hmanifest, hseal, hgenuine, hraw.2, document, manifest, m.now, hdecode, hvalid,
      fun f hf => ?_⟩
    rcases hw.2 f hf with hrest | ⟨content, hfile, hlength, hdigest⟩
    · cases hrest
    · obtain ⟨t₂, mode₂, ht₂, hnode⟩ := file_some hfile
      obtain rfl : t₂ = t' := Option.some.inj (ht₂.symm.trans ht)
      exact ⟨content, mode₂, hnode, hlength, hdigest⟩

/-! ## What a request may do -/

/-- The parts of a request in which the state may change: an entry point is started after its
    release was checked, a directory that was unpacked is put where there is none, an id is
    bound to the manifest that is there, and the status is written. -/
structure Steps (x : Setting) (I : Root → Prop) : Prop where
  start : ∀ w releaseId fingerprint action t, I w → w.bindings releaseId = some fingerprint →
    w.releases releaseId = some t → Checked x fingerprint t → I (w.started releaseId fingerprint action)
  install : ∀ w m archive u releaseId, I w → (Release.unpack x.tools x.canonical (x.circumstances m) none archive).1 = .ok u →
    u.document.getStr "release_id" = some releaseId → (∃ f ∈ u.manifest.files, f.1 = "payload/host.py") →
    w.releases releaseId = none → I (w.addRelease releaseId u.tree)
  bindTo : ∀ w releaseId fingerprint t raw mode, I w → w.releases releaseId = some t →
    t.node ["manifest.json"] = some (.file raw mode) → x.tools.sha256 raw = fingerprint → I (w.bindTo releaseId fingerprint)
  status : ∀ w value, I w → I { w with status := some value }

variable {I : Root → Prop}

/-- A bound release that was checked. -/
structure Ready (x : Setting) (I : Root → Prop) (releaseId fingerprint : String) (w : Root) : Prop where
  holds : I w
  bound : w.bindings releaseId = some fingerprint
  checked : ∃ t, w.releases releaseId = some t ∧ Checked x fingerprint t

theorem readBinding_triple {releaseId : String} : Triple I (protectedRead x.guard (·.bindings releaseId))
    (fun fingerprint w => I w ∧ w.bindings releaseId = some fingerprint) (fun _ => I) :=
  protectedRead_triple (fun _ _ hw hvalue => ⟨hw, hvalue⟩) (fun _ _ => id)

theorem verifyTree_ready {releaseId fingerprint : String} :
    Triple (fun w => I w ∧ w.bindings releaseId = some fingerprint) (verifyTree x releaseId fingerprint)
      (fun _ => Ready x I releaseId fingerprint) (fun _ => I) := by
  refine Triple.start (fun w₀ h₀ => ?_)
  exact verifyTree_triple.mono (fun _ => id) (fun _ w hw => hw.1 ▸ ⟨h₀.1, h₀.2, hw.2⟩) (fun _ w hw => hw ▸ h₀.1)

theorem runEntryPoint_ready (hI : Steps x I) {releaseId fingerprint action : String} :
    Triple (Ready x I releaseId fingerprint) (runEntryPoint x releaseId fingerprint action) (fun _ => I) (fun _ => I) := by
  have hstart : ∀ w, Ready x I releaseId fingerprint w → Ready x I releaseId fingerprint (w.started releaseId fingerprint action) := by
    intro w hw
    obtain ⟨t, ht, hchecked⟩ := hw.checked
    exact ⟨hI.start w releaseId fingerprint action t hw.holds hw.bound ht hchecked, hw.bound, t, ht, hchecked⟩
  exact (runEntryPoint_triple hstart).mono (fun _ => id) (fun _ _ => Ready.holds) (fun _ _ => Ready.holds)

theorem fail_keeps {code : Nat} {reason : String} : Keeps I (fail code reason : Cmd α) := Triple.raise (fun _ => id)

theorem pure_keeps {a : α} : Keeps I (pure a : Cmd α) := Triple.pure' (fun _ => id)

theorem serveStatus_keeps (hI : Steps x I) {action : String} : Keeps I (serveStatus x action) := by
  refine Keeps.bind peek_keeps (fun _ => Keeps.bind peek_keeps (fun status => ?_))
  split
  · exact pure_keeps
  · refine Triple.ite (fun _ => ?_) (fun _ => pure_keeps)
    split
    · refine Keeps.bind require_keeps (fun _ => ?_)
      refine Triple.bind readBinding_triple (fun fingerprint => Triple.bind verifyTree_ready (fun _ => ?_))
      exact Triple.bind (runEntryPoint_ready hI) (fun value => Keeps.bind require_keeps (fun _ => pure_keeps))
    · exact fail_keeps

theorem serveEntryPoint_keeps (hI : Steps x I) {releaseId fingerprint action : String} :
    Triple (Ready x I releaseId fingerprint) (serveEntryPoint x releaseId fingerprint action) (fun _ => I) (fun _ => I) := by
  refine Triple.bind (runEntryPoint_ready hI) (fun value => ?_)
  refine Keeps.bind require_keeps (fun _ => Keeps.bind require_keeps (fun _ => ?_))
  exact Keeps.bind (atomic_keeps (fun _ w hw => hI.status w value hw)) (fun _ => pure_keeps)

theorem serveBound_keeps (hI : Steps x I) {message : Json} {action : String} : Keeps I (serveBound x message action) := by
  unfold serveBound
  split
  · exact fail_keeps
  · next releaseId _ =>
    refine Keeps.bind require_keeps (fun _ => Triple.bind readBinding_triple (fun fingerprint => ?_))
    refine Triple.bind (Q := fun _ w => I w ∧ w.bindings releaseId = some fingerprint)
      (require_triple (fun _ _ hw => hw) (fun _ _ hw => hw.1)) (fun _ => ?_)
    refine Triple.bind verifyTree_ready (fun _ => ?_)
    refine Triple.ite (fun _ => ?_) (fun _ => Triple.ite (fun _ => ?_) (fun _ => serveEntryPoint_keeps hI))
    · exact Triple.pre (Keeps.bind query_keeps (fun _ => pure_keeps)) (fun _ => Ready.holds)
    · exact Triple.pre (Keeps.bind peek_keeps (fun _ => pure_keeps)) (fun _ => Ready.holds)

/-- After `install` the manifest that is there has the digest of the one that was unpacked. -/
theorem install_triple (hI : Steps x I) {m : Moment} {archive : Release.Archive} {u : Unpacked} {releaseId : String}
    (hunpack : (Release.unpack x.tools x.canonical (x.circumstances m) none archive).1 = .ok u)
    (hid : u.document.getStr "release_id" = some releaseId) (hhost : ∃ f ∈ u.manifest.files, f.1 = "payload/host.py")
    (hmanifest : ∃ raw mode, u.tree.node ["manifest.json"] = some (.file raw mode) ∧ x.tools.sha256 raw = u.fingerprint) :
    Triple I (install x u releaseId)
      (fun _ w => I w ∧ ∃ t raw mode, w.releases releaseId = some t ∧ t.node ["manifest.json"] = some (.file raw mode) ∧
        x.tools.sha256 raw = u.fingerprint) (fun _ => I) := by
  refine Triple.bind (Q := fun existing w => I w ∧ w.releases releaseId = existing)
    (peek_triple (fun _ hw => ⟨hw, rfl⟩) (fun _ _ => id)) (fun existing => ?_)
  cases existing with
  | some t =>
    refine Triple.bind (Q := fun raw w => I w ∧ w.file releaseId ["manifest.json"] = some raw)
      (protectedRead_triple (fun _ _ hw hvalue => ⟨hw.1, hvalue⟩) (fun _ _ hw => hw.1)) (fun raw => ?_)
    refine require_triple (fun hc w hw => ?_) (fun _ _ hw => hw.1)
    obtain ⟨t', mode, ht', hnode⟩ := file_some hw.2
    exact ⟨hw.1, t', raw, mode, ht', hnode, by simpa using hc⟩
  | none =>
    obtain ⟨raw, mode, hnode, hdigest⟩ := hmanifest
    have hadd : ∀ w, I w ∧ w.releases releaseId = none → I (w.addRelease releaseId u.tree) := fun w hw =>
      hI.install w m archive u releaseId hw.1 hunpack hid hhost hw.2
    refine atomic_triple (fun _ w hw => ⟨hadd w hw, u.tree, raw, mode, if_pos rfl, hnode, hdigest⟩) (fun _ _ hw => hw.1)
      (fun _ _ w hw => hadd w hw)

theorem serveStage_keeps (hI : Steps x I) {archive : Release.Archive} : Keeps I (serveStage x archive) := by
  refine Keeps.bind instant_keeps (fun m => ?_)
  refine Triple.bind (Q := fun u w => I w ∧ (Release.unpack x.tools x.canonical (x.circumstances m) none archive).1 = .ok u)
    (Triple.settle (fun _ hok _ hw => ⟨hw, hok⟩) (fun _ _ => id)) (fun u => ?_)
  refine Triple.given (φ := _ = _) (fun _ hw => hw.2) (fun hunpack => Triple.pre (P := I) ?_ (fun _ hw => hw.1))
  -- what was unpacked has its manifest
  have hmanifest : ∃ raw mode, u.tree.node ["manifest.json"] = some (.file raw mode) ∧ x.tools.sha256 raw = u.fingerprint := by
    obtain ⟨raw, _, hverified⟩ := Release.verified_ok (Release.unpack_ok hunpack)
    exact ⟨raw, none, hverified.metadata, hverified.fingerprint.symm⟩
  refine Triple.bind (Q := fun _ w => I w ∧ ∃ f ∈ u.manifest.files, f.1 = "payload/host.py")
    (require_triple (fun hc w hw => ⟨hw, by simpa using hc⟩) (fun _ _ hw => hw)) (fun _ => ?_)
  refine Triple.given (φ := ∃ f ∈ u.manifest.files, f.1 = "payload/host.py") (fun _ hw => hw.2)
    (fun hhost => Triple.pre (P := I) ?_ (fun _ hw => hw.1))
  refine Triple.bind (Q := fun releaseId w => I w ∧ u.document.getStr "release_id" = some releaseId)
    (Triple.settle (fun _ hok _ hw => ⟨hw, Release.expect_ok.mp hok⟩) (fun _ _ => id)) (fun releaseId => ?_)
  refine Triple.given (φ := u.document.getStr "release_id" = some releaseId) (fun _ hw => hw.2)
    (fun hid => Triple.pre (P := I) ?_ (fun _ hw => hw.1))
  refine Keeps.bind (atomic_keeps (fun _ _ => id)) (fun _ => ?_)
  refine Triple.bind (install_triple hI hunpack hid hhost hmanifest) (fun _ => ?_)
  have hbind : ∀ w, (I w ∧ ∃ t raw mode, w.releases releaseId = some t ∧ t.node ["manifest.json"] = some (.file raw mode) ∧
      x.tools.sha256 raw = u.fingerprint) → I (w.bindTo releaseId u.fingerprint) := by
    intro w hw
    obtain ⟨hw, t, raw, mode, ht, hnode, hdigest⟩ := hw
    exact hI.bindTo w releaseId u.fingerprint t raw mode hw ht hnode hdigest
  exact Triple.bind (atomic_triple (Q := fun _ => I) (fun _ w hw => hbind w hw) (fun _ _ hw => hw.1)
    (fun _ _ w hw => hbind w hw)) (fun _ => pure_keeps)

/-- A request does nothing else. -/
theorem dispatch_keeps (hI : Steps x I) {header : Content} {archive : Release.Archive} :
    Keeps I (dispatch x header archive) := by
  refine Keeps.bind protectedRead_keeps (fun _ => Keeps.bind require_keeps (fun _ => Keeps.bind Keeps.settle (fun message => ?_)))
  refine Keeps.bind ?_ (fun action => ?_)
  · refine Keeps.bind require_keeps (fun _ => ?_)
    split
    · exact fail_keeps
    · exact Keeps.bind require_keeps (fun _ => Keeps.bind require_keeps (fun _ => Keeps.bind require_keeps (fun _ => pure_keeps)))
  · refine Triple.ite (fun _ => serveStatus_keeps hI) (fun _ => ?_)
    have hrest : Keeps I (do
        lockFile
        if action = "stage" then serveStage x archive else serveBound x message action) :=
      Keeps.bind lockFile_keeps (fun _ => Triple.ite (fun _ => serveStage_keeps hI) (fun _ => serveBound_keeps hI))
    refine Triple.ite (fun _ => ?_) (fun _ => hrest)
    exact Keeps.bind instant_keeps (fun _ => Keeps.bind require_keeps (fun _ => hrest))

/-! ## Runs -/

/-- Between the requests the directories of the releases may be damaged in any way. -/
inductive Event where
  | request (r : Request)
  | damage (releases : String → Option Release.Tree)

def happen (x : Setting) (w : Root) : Event → Root
  | .request r => (dispatch x r.header r.archive).after r.moments w
  | .damage releases => { w with releases }

/-- Every start was from a directory that was checked against the binding. -/
def Trusted (x : Setting) (w : Root) : Prop :=
  ∀ e ∈ w.executions, ∃ t, e.tree = some t ∧ Checked x e.fingerprint t

theorem trusted_steps (x : Setting) : Steps x (Trusted x) where
  start w releaseId fingerprint action t hw _ ht hchecked e he := by
    rcases List.mem_cons.mp he with rfl | he
    · exact ⟨t, ht, hchecked⟩
    · exact hw e he
  install _ _ _ _ _ hw _ _ _ _ := hw
  bindTo _ _ _ _ _ _ hw _ _ _ := hw
  status _ _ hw := hw

theorem happen_trusted (events : List Event) {w : Root} (hw : Trusted x w) : Trusted x (events.foldl (happen x) w) := by
  induction events generalizing w with
  | nil => exact hw
  | cons event events ih =>
    rw [List.foldl_cons]
    refine ih ?_
    cases event with
    | request r => exact (dispatch_keeps (trusted_steps x)).after hw
    | damage releases => exact hw

theorem trusted_empty (x : Setting) : Trusted x Root.empty := fun _ he => absurd he (by simp [Root.empty])

/-- What is recorded stays recorded. -/
structure Extends (w w' : Root) : Prop where
  releases : ∀ id t, w.releases id = some t → w'.releases id = some t
  bindings : ∀ id f, w.bindings id = some f → w'.bindings id = some f

/-- A release that was taken in: its directory is that of a manifest that the signers have
    signed for this host and that names the release, with an entry point. -/
structure Staged (x : Setting) (releaseId : String) (t : Release.Tree) : Prop where
  unpacked : ∃ c u raw signature, Release.Verified x.tools x.canonical c u raw signature ∧ x.genuine raw signature = true ∧
    c.host = some x.host ∧ u.tree = t ∧ u.document.getStr "release_id" = some releaseId ∧
    ∃ f ∈ u.manifest.files, f.1 = "payload/host.py"

/-- The bindings are those of the releases, and what was started was bound. -/
structure Consistent (x : Setting) (w : Root) : Prop where
  staged : ∀ id t, w.releases id = some t → Staged x id t
  bound : ∀ id f, w.bindings id = some f → ∃ t raw mode, w.releases id = some t ∧
    t.node ["manifest.json"] = some (.file raw mode) ∧ x.tools.sha256 raw = f
  started : ∀ e ∈ w.executions, w.bindings e.releaseId = some e.fingerprint ∧ e.tree = w.releases e.releaseId

theorem consistent_steps (x : Setting) (w₀ : Root) : Steps x (fun w => Consistent x w ∧ Extends w₀ w) where
  start w releaseId fingerprint action t hw hbound ht hchecked := by
    refine ⟨⟨hw.1.staged, hw.1.bound, fun e he => ?_⟩, hw.2.releases, hw.2.bindings⟩
    rcases List.mem_cons.mp he with rfl | he
    · exact ⟨hbound, rfl⟩
    · exact hw.1.started e he
  install w m archive u releaseId hw hunpack hid hhost hnone := by
    have hkept : ∀ id t, w.releases id = some t → (w.addRelease releaseId u.tree).releases id = some t := by
      intro id t ht
      have hne : id ≠ releaseId := by
        intro he
        rw [he, hnone] at ht
        cases ht
      exact (if_neg hne).trans ht
    refine ⟨⟨fun id t ht => ?_, fun id f hf => ?_, fun e he => ?_⟩, fun id t ht => hkept id t (hw.2.releases id t ht), hw.2.bindings⟩
    · by_cases he : id = releaseId
      · subst he
        have htree : u.tree = t := Option.some.inj ((if_pos rfl).symm.trans ht)
        obtain ⟨raw, signature, hverified⟩ := Release.verified_ok (Release.unpack_ok hunpack)
        exact ⟨x.circumstances m, u, raw, signature, hverified, verify_ok hverified.signed, rfl, htree, hid, hhost⟩
      · exact hw.1.staged id t ((if_neg he).symm.trans ht)
    · obtain ⟨t, raw, mode, ht, hnode, hdigest⟩ := hw.1.bound id f hf
      exact ⟨t, raw, mode, hkept id t ht, hnode, hdigest⟩
    · obtain ⟨hbound, htree⟩ := hw.1.started e he
      obtain ⟨t, _, _, ht, _⟩ := hw.1.bound _ _ hbound
      exact ⟨hbound, by rw [htree, ht, hkept _ t ht]⟩
  bindTo w releaseId fingerprint t raw mode hw ht hnode hdigest := by
    -- an id that is bound already is bound to the manifest that is there
    have hkept : ∀ id f, w.bindings id = some f → (w.bindTo releaseId fingerprint).bindings id = some f := by
      intro id f hf
      by_cases he : id = releaseId
      · subst he
        obtain ⟨t', raw', mode', ht', hnode', hdigest'⟩ := hw.1.bound id f hf
        obtain rfl : t' = t := Option.some.inj (ht'.symm.trans ht)
        have hraw := Option.some.inj (hnode'.symm.trans hnode)
        rw [Release.Node.file.injEq] at hraw
        have hsame : fingerprint = f := by rw [← hdigest, ← hdigest', hraw.1]
        exact (if_pos rfl).trans (congrArg some hsame)
      · exact (if_neg he).trans hf
    refine ⟨⟨hw.1.staged, fun id f hf => ?_, fun e he => ?_⟩, hw.2.releases, fun id f hf => hkept id f (hw.2.bindings id f hf)⟩
    · by_cases he : id = releaseId
      · subst he
        have hsame : fingerprint = f := Option.some.inj ((if_pos rfl).symm.trans hf)
        exact ⟨t, raw, mode, ht, hnode, hdigest.trans hsame⟩
      · exact hw.1.bound id f ((if_neg he).symm.trans hf)
    · exact ⟨hkept _ _ (hw.1.started e he).1, (hw.1.started e he).2⟩
  status _ _ hw := ⟨⟨hw.1.staged, hw.1.bound, hw.1.started⟩, hw.2.releases, hw.2.bindings⟩

theorem serve_keeps (requests : List Request) {w₀ w : Root} (hw : Consistent x w ∧ Extends w₀ w) :
    Consistent x (serve x requests w) ∧ Extends w₀ (serve x requests w) := by
  induction requests generalizing w with
  | nil => exact hw
  | cons r requests ih => exact ih ((dispatch_keeps (consistent_steps x w₀)).after hw)

theorem consistent_empty (x : Setting) : Consistent x Root.empty where
  staged _ _ h := nomatch h
  bound _ _ h := nomatch h
  started _ h := nomatch h

end Hermes.Dispatcher

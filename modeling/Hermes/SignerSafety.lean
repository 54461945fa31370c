import Hermes.Signer

/- What holds of the output directory over any runs of the signing service, each of them ended at
   any point. An archive is published once for a candidate and stays; it is the candidate that
   was frozen, with evidence of one fresh run; and what is selected is one of them
   (`published_once`). But a run that is stopped between the link and the rename leaves the
   pending name taken, and from then on nothing is ever selected again (`publication_strands`). -/
namespace Hermes.Signer
open Process Entries Outcome
open Transaction (demand demand_ok)
open Candidate (Content Tools pathOf)
open Release (Archive Bench Codec Handoff Tree Finalized expect_ok gates)

/-! ## The evidence -/

/-- The evidence is of one run of the last day; the machine was destroyed last, and the
    credentials were not revoked before they were used. -/
structure Fresh (now : Int) (value : String → Option Json) : Prop where
  certified : ∃ (run : String) (time : String → Int), isHex 64 64 run = true ∧
    (∀ gate ∈ gates, (∃ v, value gate = some v ∧ v.get "completed_at" = some (.int (time gate)) ∧ v.getStr "run_id" = some run) ∧
      now - 86400 ≤ time gate ∧ time gate ≤ now ∧ time gate ≤ time "vm_destroyed") ∧
    time "inference" ≤ time "credential_revocation"

theorem completion_ok {now : Int} {value : Json} {c : Completion} (h : completion now value = .ok c) :
    value.get "completed_at" = some (.int c.time) ∧ now - 86400 ≤ c.time ∧ c.time ≤ now ∧
      value.getStr "run_id" = some c.run ∧ isHex 64 64 c.run = true := by
  obtain ⟨time, htime, h⟩ := bind_eq_ok.mp h
  obtain ⟨_, hrange, h⟩ := bind_eq_ok.mp h
  obtain ⟨run, hrun, h⟩ := bind_eq_ok.mp h
  obtain ⟨_, hhex, h⟩ := bind_eq_ok.mp h
  cases h
  rw [demand_ok, Bool.and_eq_true, decide_eq_true_eq, decide_eq_true_eq] at hrange
  refine ⟨?_, hrange.1, hrange.2, expect_ok.mp hrun, demand_ok.mp hhex⟩
  have hvalue := expect_ok.mp htime
  split at hvalue
  · next hget => rw [hget, Option.some.inj hvalue]
  · cases hvalue

/-- A key that a list has once is found with its value. -/
theorem find_pair {α : Type} {l : List (String × α)} (hnodup : (l.map Prod.fst).Nodup) {e : String × α} (he : e ∈ l) :
    l.find? (fun d => d.1 == e.1) = some e := by
  cases hfind : l.find? (fun d => d.1 == e.1) with
  | none => exact absurd (List.find?_eq_none.mp hfind e he) (by simp)
  | some d =>
    have hsame : d = e :=
      List.inj_on_of_nodup_map hnodup (List.mem_of_find?_eq_some hfind) he (by simpa using List.find?_some hfind)
    rw [hsame]

theorem keys_of_gates {α : Type} {l : List (String × α)} {values : List (String × Json)}
    (hnames : l.map Prod.fst = values.map Prod.fst) (hkeys : (Json.obj values).hasKeys gates = true) :
    (l.map Prod.fst).Nodup ∧ ∀ gate ∈ gates, ∃ e ∈ l, e.1 = gate := by
  have hgates : gates.Nodup := by decide
  have hperm : gates.Perm (l.map Prod.fst) := hnames ▸ Release.keys_perm hgates hkeys
  exact ⟨hperm.nodup_iff.mp hgates, fun gate hgate => List.mem_map.mp (hperm.mem_iff.mp hgate)⟩

theorem validateEvidence_ok {values : List (String × Json)} {now : Int} (h : validateEvidence values now = .ok ()) :
    Fresh now (fun gate => (values.find? fun v => v.1 == gate).map Prod.snd) := by
  obtain ⟨_, hshape, h⟩ := bind_eq_ok.mp h
  obtain ⟨done, hdone, h⟩ := bind_eq_ok.mp h
  rw [demand_ok, Bool.and_eq_true] at hshape
  rw [demand_ok, Bool.and_eq_true, Bool.and_eq_true, List.all_eq_true] at h
  obtain ⟨⟨hrun, hlast⟩, horder⟩ := h
  have hpaired : List.Forall₂ (fun v d => d.1 = v.1 ∧ completion now v.2 = .ok d.2) values done := by
    refine (mapM_ok hdone).imp fun v d hd => ?_
    obtain ⟨c, hc, hd⟩ := bind_eq_ok.mp hd
    cases hd
    exact ⟨rfl, hc⟩
  obtain ⟨hvalues, hgates⟩ := keys_of_gates rfl hshape.1
  obtain ⟨hdistinct, hall⟩ := keys_of_gates (paired_map (fun _ _ hd => hd.1) hpaired) hshape.1
  have htime : ∀ d ∈ done, timeOf done d.1 = some d.2.time := fun d hd => by rw [timeOf, find_pair hdistinct hd]; rfl
  obtain ⟨first, hfirst, _⟩ := hall "boot" (by decide)
  obtain ⟨destroyed, hdestroyed, hname⟩ := hall "vm_destroyed" (by decide)
  rw [← hname, htime destroyed hdestroyed, Option.any_some, List.all_eq_true] at hlast
  refine ⟨first.2.run, fun gate => (timeOf done gate).getD 0, ?_, fun gate hgate => ?_, ?_⟩
  · obtain ⟨v, _, _, hc⟩ := paired_right hpaired hfirst
    exact (completion_ok hc).2.2.2.2
  · obtain ⟨d, hd, rfl⟩ := hall gate hgate
    obtain ⟨v, hv, hsame, hc⟩ := paired_right hpaired hd
    obtain ⟨hat, hafter, hbefore, hid, _⟩ := completion_ok hc
    have hones := List.all_eq_true.mp (hrun first hfirst) d hd
    rw [beq_iff_eq] at hones
    have hle := hlast d hd
    rw [decide_eq_true_eq] at hle
    simp only [htime d hd, ← hname, htime destroyed hdestroyed, Option.getD_some]
    exact ⟨⟨v.2, by rw [hsame, find_pair hvalues hv]; rfl, hat, hones ▸ hid⟩, hafter, hbefore, hle⟩
  · obtain ⟨used, hused, hat⟩ := (Option.any_eq_true _ _).mp horder
    obtain ⟨revoked, hrevoked, hle⟩ := (Option.any_eq_true _ _).mp hat
    rw [decide_eq_true_eq] at hle
    simp only [hused, hrevoked, Option.getD_some]
    exact hle

/-! ## What is published -/

section

variable (x : Setting)

/-- The evidence of a gate, as it was read. -/
def valueOf (h : Handoff) (gate : String) : Option Json :=
  (h.evidence gate).bind fun raw => (x.codec.tools.decode raw).toOption

/-- An archive was made of the candidate whose fingerprint it has, with fresh evidence for it. -/
structure Issued (fingerprint : String) (archive : Archive) : Prop where
  certified : ∃ h b document candidate u now, Finalized x.codec b h archive document candidate u ∧
    fingerprintOf x document = fingerprint ∧ Fresh now (valueOf x h)

/-- What is selected, or about to be, is published, and nothing is published twice. -/
structure Sound (w : Desk) : Prop where
  issued : ∀ e ∈ w.ledger, Issued x e.1 e.2
  once : (w.ledger.map Prod.fst).Nodup
  pending : ∀ archive, w.pending = some archive → ∃ e ∈ w.ledger, e.2 = archive
  selected : ∀ archive, w.selected = some archive → ∃ e ∈ w.ledger, e.2 = archive

/-- What is published stays as it is. -/
def Kept (w₀ : Desk) (w : Desk) : Prop := Sound x w ∧ w₀.ledger <:+ w.ledger

end

variable {x : Setting} {w₀ : Desk}

theorem archive_none {w : Desk} {fingerprint : String} (h : (w.archive fingerprint).isNone = true) :
    fingerprint ∉ w.ledger.map Prod.fst := by
  intro hmem
  obtain ⟨e, he, rfl⟩ := List.mem_map.mp hmem
  rw [Desk.archive, Option.isNone_map, Option.isNone_iff_eq_none, List.find?_eq_none] at h
  exact h e he (by simp)

theorem archive_mem {w : Desk} {fingerprint : String} {archive : Archive} (h : w.archive fingerprint = some archive) :
    ∃ e ∈ w.ledger, e.2 = archive := by
  obtain ⟨e, hfind, he⟩ := Option.map_eq_some_iff.mp h
  exact ⟨e, List.mem_of_find?_eq_some hfind, he⟩

theorem Kept.publish {w : Desk} {fingerprint : String} {archive : Archive} (hw : Kept x w₀ w)
    (hfree : (w.archive fingerprint).isNone = true) (hissued : Issued x fingerprint archive) :
    Kept x w₀ (w.publish fingerprint archive) := by
  obtain ⟨hsound, hkept⟩ := hw
  have hmore : ∀ e ∈ w.ledger, e ∈ (w.publish fingerprint archive).ledger := fun e he => List.mem_cons_of_mem _ he
  refine ⟨⟨fun e he => ?_, List.nodup_cons.mpr ⟨archive_none hfree, hsound.once⟩, fun a ha => ?_, fun a ha => ?_⟩,
    hkept.trans (List.suffix_cons _ _)⟩
  · rcases List.mem_cons.mp he with rfl | he
    · exact hissued
    · exact hsound.issued e he
  · obtain ⟨e, he, hsame⟩ := hsound.pending a ha
    exact ⟨e, hmore e he, hsame⟩
  · obtain ⟨e, he, hsame⟩ := hsound.selected a ha
    exact ⟨e, hmore e he, hsame⟩

theorem Kept.offer {w : Desk} {fingerprint : String} (hw : Kept x w₀ w) : Kept x w₀ (w.offer fingerprint) :=
  ⟨⟨hw.1.issued, hw.1.once, fun _ ha => archive_mem ha, hw.1.selected⟩, hw.2⟩

theorem Kept.select {w : Desk} (hw : Kept x w₀ w) : Kept x w₀ w.select :=
  ⟨⟨hw.1.issued, hw.1.once, (fun _ ha => nomatch ha), hw.1.pending⟩, hw.2⟩

/-! ## The steps of a run -/

theorem link_triple {P : Desk → Prop} {Q : Unit → Desk → Prop} {E : Exc → Desk → Prop} {free : Desk → Bool}
    {effect : Desk → Desk} (hok : ∀ w, P w → free w = true → Q () (effect w)) (herr : ∀ e w, P w → E e w)
    (htook : ∀ e w, P w → free w = true → E e (effect w)) : Triple P (link free effect) Q E := by
  refine Triple.perform (fun w hw => herr _ w hw) ?_
  intro m w hw r w' hr
  split at hr
  · split at hr
    · next hfree =>
      cases hr
      exact hok w hw hfree
    · cases hr
      exact herr _ w hw
  · cases hr
    by_cases htake : (m.took && free w) = true
    · rw [if_pos htake]
      rw [Bool.and_eq_true] at htake
      exact htook _ w hw htake.2
    · rw [if_neg htake]
      exact herr _ w hw

/-- What the checks of a handoff have seen. -/
structure Handed (x : Setting) (c : Checked) : Prop where
  decoded : x.codec.tools.decode c.raw = .ok c.document
  fresh : ∃ now t, Fresh now (valueOf x (frozen c.raw t c.taken))

theorem found_paired {taken : List (String × Content)} {values : List (String × Json)}
    (h : List.Forall₂ (fun e v => v.1 = e.1 ∧ x.codec.tools.decode e.2 = .ok v.2) taken values) (gate : String) :
    (values.find? fun v => v.1 == gate).map Prod.snd =
      ((taken.find? fun e => e.1 == gate).map Prod.snd).bind fun raw => (x.codec.tools.decode raw).toOption := by
  induction h with
  | nil => rfl
  | @cons e v taken values hev _ ih =>
    rw [List.find?_cons, List.find?_cons, hev.1]
    by_cases hgate : (e.1 == gate) = true
    · simp [hgate, hev.2, Except.toOption]
    · simp only [hgate]
      exact ih

/-- The values that were checked are those of the bytes that are packaged. -/
theorem fresh_frozen {c : Checked} {values : List (String × Json)} {now : Int} (t : Tree)
    (hvalues : (c.taken.mapM fun e => do
      let value ← x.codec.tools.decode e.2
      pure (e.1, value)) = Except.ok values) (h : validateEvidence values now = .ok ()) :
    Fresh now (valueOf x (frozen c.raw t c.taken)) := by
  have hpaired : List.Forall₂ (fun e v => v.1 = e.1 ∧ x.codec.tools.decode e.2 = .ok v.2) c.taken values := by
    refine (mapM_ok hvalues).imp fun e v hv => ?_
    obtain ⟨value, hvalue, hv⟩ := bind_eq_ok.mp hv
    cases hv
    exact ⟨rfl, hvalue⟩
  have hsame : (fun gate => (values.find? fun v => v.1 == gate).map Prod.snd) = valueOf x (frozen c.raw t c.taken) := by
    funext gate
    exact found_paired hpaired gate
  exact hsame ▸ validateEvidence_ok h

theorem check_triple {g : Given} : Triple (fun w => w = w₀) (check x g) (fun c w => w = w₀ ∧ Handed x c) (fun _ w => w = w₀) := by
  have hinstant : Keeps (fun w => w = w₀) (instant : Cmd Moment) := instant_keeps
  refine Triple.bind hinstant (fun _ => Triple.bind Keeps.settle (fun _ => Triple.bind Keeps.settle (fun raw => ?_)))
  refine Triple.bind (Q := fun document w => w = w₀ ∧ x.codec.tools.decode raw = .ok document)
    (Triple.settle (fun _ hok _ hw => ⟨hw, hok⟩) (fun _ _ => id)) (fun document => ?_)
  refine Triple.given (φ := x.codec.tools.decode raw = .ok document) (fun _ hw => hw.2)
    (fun hdecode => Triple.pre (P := fun w => w = w₀) ?_ (fun _ hw => hw.1))
  refine Triple.bind hinstant (fun _ => Triple.bind Keeps.settle (fun candidate => Triple.bind Keeps.settle (fun _ =>
    Triple.bind Keeps.settle (fun taken => Triple.bind hinstant (fun now => ?_)))))
  refine Triple.bind (Q := fun values w => w = w₀ ∧ (taken.mapM fun e => do
      let value ← x.codec.tools.decode e.2
      pure (e.1, value)) = Except.ok values) (Triple.settle (fun _ hok _ hw => ⟨hw, hok⟩) (fun _ _ => id)) (fun values => ?_)
  refine Triple.bind (Q := fun _ w => w = w₀ ∧ ∃ now t, Fresh now (valueOf x (frozen raw t taken))) ?_ (fun _ =>
    Triple.pure' (fun _ hw => ⟨hw.1, hdecode, hw.2⟩))
  refine Triple.settle (fun _ hok w hw => ⟨hw.1, now.now, Release.emptyTree, ?_⟩) (fun _ _ hw => hw.1)
  exact fresh_frozen (c := ⟨raw, document, candidate, taken⟩) Release.emptyTree hw.2 hok

theorem package_triple {g : Given} {c : Checked} (hc : Handed x c) :
    Triple (fun w => w = w₀) (package x g c) (fun archive w => w = w₀ ∧ Issued x (fingerprintOf x c.document) archive)
      (fun _ w => w = w₀) := by
  have hinstant : Keeps (fun w => w = w₀) (instant : Cmd Moment) := instant_keeps
  refine Triple.bind hinstant (fun _ => Triple.bind Keeps.settle (fun t => Triple.bind hinstant (fun checked =>
    Triple.bind hinstant (fun opened => Triple.bind hinstant (fun signed => Triple.bind hinstant (fun verified => ?_))))))
  refine Triple.settle (fun archive hok w hw => ⟨hw, ?_⟩) (fun _ _ => id)
  obtain ⟨document, candidate, u, hfinal⟩ := Release.finalized_of_finalize hok
  obtain ⟨now, t', hfresh⟩ := hc.fresh
  -- the document is the one that was checked
  have hsame : document = c.document := Except.ok.inj (hfinal.decoded.symm.trans hc.decoded)
  exact ⟨_, _, document, candidate, u, now, hfinal, by rw [hsame], hfresh⟩

theorem check_keeps {I : Desk → Prop} {g : Given} : Triple I (check x g) (fun c w => I w ∧ Handed x c) (fun _ => I) :=
  Triple.start fun _ h₀ => check_triple.mono (fun _ => id) (fun _ _ hw => hw.1 ▸ ⟨h₀, hw.2⟩) (fun _ _ hw => hw ▸ h₀)

theorem package_keeps {I : Desk → Prop} {g : Given} {c : Checked} (hc : Handed x c) :
    Triple I (package x g c) (fun archive w => I w ∧ Issued x (fingerprintOf x c.document) archive) (fun _ => I) :=
  Triple.start fun _ h₀ => (package_triple hc).mono (fun _ => id) (fun _ _ hw => hw.1 ▸ ⟨h₀, hw.2⟩) (fun _ _ hw => hw ▸ h₀)

/-- What a run does before it selects: it publishes what was issued, where nothing is published. -/
theorem prepare_triple {I : Desk → Prop} {g : Given} (hpublish : ∀ w fingerprint archive, I w →
      (w.archive fingerprint).isNone = true → Issued x fingerprint archive → I (w.publish fingerprint archive)) :
    Triple I (prepare x g) (fun fingerprint w => I w ∧ (w.archive fingerprint).isSome = true ∧ w.pending = none) (fun _ => I) := by
  refine Triple.bind check_keeps (fun c => Triple.given (φ := Handed x c) (fun _ hw => hw.2) (fun hc => ?_))
  refine Triple.pre (P := I) ?_ (fun _ hw => hw.1)
  refine Triple.bind lockFile_keeps (fun _ => Triple.bind peek_keeps (fun _ => Triple.bind require_keeps (fun _ => ?_)))
  refine Triple.bind (package_keeps hc) (fun archive => ?_)
  refine Triple.given (φ := Issued x (fingerprintOf x c.document) archive) (fun _ hw => hw.2) (fun hissued => ?_)
  refine Triple.pre (P := I) ?_ (fun _ hw => hw.1)
  have hdone : ∀ w, I w → (w.archive (fingerprintOf x c.document)).isNone = true →
      I (w.publish (fingerprintOf x c.document) archive) := fun w hw hfree => hpublish w _ archive hw hfree hissued
  have hthere : ∀ w : Desk, ((w.publish (fingerprintOf x c.document) archive).archive (fingerprintOf x c.document)).isSome = true := by
    intro w
    simp [Desk.publish, Desk.archive]
  let J : Desk → Prop := fun w => I w ∧ (w.archive (fingerprintOf x c.document)).isSome = true
  refine Triple.bind (Q := fun _ => J) (link_triple (fun w hw hfree => ⟨hdone w hw hfree, hthere w⟩) (fun _ _ => id)
    (fun _ w hw hfree => hdone w hw hfree)) (fun _ => ?_)
  have hpeek : Triple J (peek (fun _ => ()) : Cmd Unit) (fun _ => J) (fun _ => I) :=
    peek_triple (fun _ hw => hw) (fun _ _ hw => hw.1)
  have hatomic : Triple J (atomic (fun _ w => w) : Cmd Unit) (fun _ => J) (fun _ => I) :=
    atomic_triple (fun _ _ hw => hw) (fun _ _ hw => hw.1) (fun _ _ _ hw => hw.1)
  refine Triple.bind hpeek (fun _ => Triple.bind hatomic (fun _ => ?_))
  refine Triple.bind (Q := fun pending w => J w ∧ w.pending = pending) (peek_triple (fun _ hw => ⟨hw, rfl⟩) (fun _ _ hw => hw.1))
    (fun pending => ?_)
  refine Triple.bind (Q := fun _ w => J w ∧ w.pending = none) (require_triple (fun hc w hw => ⟨hw.1, ?_⟩) (fun _ _ hw => hw.1.1))
    (fun _ => Triple.pure' (fun _ hw => ⟨hw.1.1, hw.1.2, hw.2⟩))
  rw [hw.2]
  exact Option.isNone_iff_eq_none.mp hc

/-- And how it selects: what it offers is there, and then selected. -/
theorem choose_triple {I : Desk → Prop} {fingerprint : String} (hoffer : ∀ w, I w → I (w.offer fingerprint))
    (hselect : ∀ w, I w → I w.select) :
    Triple I (choose fingerprint) (fun _ => I) (fun _ => I) := by
  refine Triple.bind (Q := fun _ => I) (link_triple (fun w hw _ => hoffer w hw) (fun _ _ => id)
    (fun _ w hw _ => hoffer w hw)) (fun _ => ?_)
  exact Triple.bind (atomic_keeps (fun _ w hw => hselect w hw)) (fun _ => atomic_keeps (fun _ _ => id))

theorem sign_keeps {g : Given} : Keeps (Kept x w₀) (sign x g) := by
  refine Triple.bind (prepare_triple (fun w _ _ hw => hw.publish)) (fun fingerprint => ?_)
  refine Triple.pre (P := Kept x w₀) ?_ (fun _ hw => hw.1)
  refine Triple.bind (choose_triple (fun _ => Kept.offer) (fun _ => Kept.select)) (fun _ => ?_)
  exact Triple.bind peek_keeps (fun _ => Triple.pure' (fun _ => id))

theorem serve_kept (sessions : List Session) {w : Desk} (hw : Kept x w₀ w) : Kept x w₀ (serve x sessions w) := by
  induction sessions generalizing w with
  | nil => exact hw
  | cons r sessions ih => exact ih (sign_keeps.after hw)

theorem sound_empty (x : Setting) : Sound x Desk.empty where
  issued _ he := nomatch he
  once := List.nodup_nil
  pending _ ha := nomatch ha
  selected _ ha := nomatch ha

/-- A publication that was left behind, and what was selected before. -/
def Stranded (archive : Archive) (selected : Option Archive) (w : Desk) : Prop := w.pending = some archive ∧ w.selected = selected

theorem sign_stranded {archive : Archive} {selected : Option Archive} {g : Given} :
    Triple (Stranded archive selected) (sign x g) (fun _ _ => False) (fun _ => Stranded archive selected) := by
  refine Triple.bind (prepare_triple (fun _ _ _ hw _ _ => hw)) (fun fingerprint => ?_)
  refine Triple.given (φ := False) (fun w hw => ?_) (fun hfalse => hfalse.elim)
  obtain ⟨⟨hpending, _⟩, _, hnone⟩ := hw
  rw [hpending] at hnone
  cases hnone

theorem serve_stranded (sessions : List Session) {archive : Archive} {selected : Option Archive} {w : Desk}
    (hw : Stranded archive selected w) : Stranded archive selected (serve x sessions w) := by
  induction sessions generalizing w with
  | nil => exact hw
  | cons r sessions ih =>
    exact ih ((sign_stranded.mono (fun _ => id) (fun _ _ hfalse => hfalse.elim) (fun _ _ => id)).after hw)

theorem frontal_instant : Frontal (instant : Cmd Moment) := Frontal.perform _

theorem frontal_peek {α : Type} {value : Desk → α} : Frontal (peek value : Cmd α) := Frontal.perform _

theorem frontal_require {c : Bool} {reason : String} {code : Nat} : Frontal (require c reason code : Cmd Unit) :=
  Frontal.ite (Frontal.pure' ()) (Frontal.raise _)

theorem frontal_prepare {g : Given} : Frontal (prepare x g) := by
  have hcheck : Frontal (check x g) := by
    refine Frontal.bind frontal_instant (fun _ => Frontal.bind (Frontal.settle _) (fun _ => Frontal.bind (Frontal.settle _) (fun _ => ?_)))
    refine Frontal.bind (Frontal.settle _) (fun _ => Frontal.bind frontal_instant (fun _ => Frontal.bind (Frontal.settle _) (fun _ => ?_)))
    refine Frontal.bind (Frontal.settle _) (fun _ => Frontal.bind (Frontal.settle _) (fun _ => Frontal.bind frontal_instant (fun _ => ?_)))
    exact Frontal.bind (Frontal.settle _) (fun _ => Frontal.bind (Frontal.settle _) (fun _ => Frontal.pure' _))
  have hpackage : ∀ c, Frontal (package x g c) := by
    intro c
    refine Frontal.bind frontal_instant (fun _ => Frontal.bind (Frontal.settle _) (fun _ => Frontal.bind frontal_instant (fun _ => ?_)))
    exact Frontal.bind frontal_instant (fun _ => Frontal.bind frontal_instant (fun _ => Frontal.bind frontal_instant (fun _ =>
      Frontal.settle _)))
  refine Frontal.bind hcheck (fun c => Frontal.bind (Frontal.perform _) (fun _ => Frontal.bind frontal_peek (fun _ => ?_)))
  refine Frontal.bind frontal_require (fun _ => Frontal.bind (hpackage c) (fun _ => Frontal.bind (Frontal.perform _) (fun _ => ?_)))
  refine Frontal.bind frontal_peek (fun _ => Frontal.bind (Frontal.perform _) (fun _ => Frontal.bind frontal_peek (fun _ => ?_)))
  exact Frontal.bind frontal_require (fun _ => Frontal.pure' _)

theorem link_done {free : Desk → Bool} {effect : Desk → Desk} {m : Moment} {w : Desk} (hm : m.verdict = .done)
    (hfree : free w = true) (rest : List Moment) : link free effect (m :: rest) w = (.ok (), rest, effect w) := by
  simp only [link, Proc.perform, if_pos hm, if_pos hfree]

theorem link_returns {free : Desk → Bool} {effect : Desk → Desk} {t t' : List Moment} {w w' : Desk}
    (h : link free effect t w = (.ok (), t', w')) : ∃ m, t = m :: t' ∧ m.verdict = .done ∧ free w = true ∧ w' = effect w := by
  cases t with
  | nil => cases h
  | cons m t =>
    simp only [link, Proc.perform] at h
    by_cases hm : m.verdict = .done
    · by_cases hfree : free w = true
      · rw [if_pos hm, if_pos hfree] at h
        cases h
        exact ⟨m, rfl, hm, hfree, rfl⟩
      · rw [if_pos hm, if_neg hfree] at h
        cases h
    · rw [if_neg hm] at h
      cases h

/-- A run that is stopped when it has made the link leaves it. -/
theorem sign_cut {g : Given} {front : List Moment} {m : Moment} {w w₁ : Desk} {fingerprint : String}
    (hprepare : ∀ rest, prepare x g (front ++ rest) w = (.ok fingerprint, rest, w₁)) (hm : m.verdict = .done)
    (hfree : w₁.pending.isNone = true) : (sign x g).after (front ++ [m]) w = w₁.offer fingerprint := by
  have hlink : (choose fingerprint) [m] w₁ = (.error .killed, [], w₁.offer fingerprint) := by
    have hfirst : link (fun w => w.pending.isNone) (·.offer fingerprint) [m] w₁ = (.ok (), [], w₁.offer fingerprint) :=
      link_done hm hfree []
    exact (Proc.bind_ok hfirst).trans (Proc.bind_error rfl)
  have hrun : (sign x g) (front ++ [m]) w = (.error .killed, [], w₁.offer fingerprint) :=
    (Proc.bind_ok (hprepare [m])).trans (Proc.bind_error hlink)
  rw [Proc.after, hrun]

/-- What a run that comes through has selected. -/
theorem finish_triple {fingerprint : String} {archive : Archive} :
    Triple (fun w => w.archive fingerprint = some archive) (do
        choose fingerprint
        peek (fun _ => ())
        pure fingerprint)
      (fun f w => f = fingerprint ∧ w.archive fingerprint = some archive ∧ w.selected = some archive) (fun _ _ => True) := by
  have hchoose : Triple (fun w => w.archive fingerprint = some archive) (choose fingerprint)
      (fun _ w => w.archive fingerprint = some archive ∧ w.selected = some archive) (fun _ _ => True) := by
    refine Triple.bind (Q := fun _ w => w.archive fingerprint = some archive ∧ w.pending = some archive)
      (link_triple (fun w hw _ => ⟨hw, hw⟩) (fun _ _ _ => trivial) (fun _ _ _ _ => trivial)) (fun _ => ?_)
    refine Triple.bind (Q := fun _ w => w.archive fingerprint = some archive ∧ w.selected = some archive)
      (atomic_triple (fun _ w hw => ⟨hw.1, hw.2⟩) (fun _ _ _ => trivial) (fun _ _ _ _ => trivial)) (fun _ => ?_)
    exact atomic_triple (fun _ _ hw => hw) (fun _ _ _ => trivial) (fun _ _ _ _ => trivial)
  refine Triple.bind hchoose (fun _ => ?_)
  refine Triple.bind (Q := fun _ w => w.archive fingerprint = some archive ∧ w.selected = some archive)
    (peek_triple (fun _ hw => hw) (fun _ _ _ => trivial)) (fun _ => Triple.pure' (fun _ hw => ⟨rfl, hw⟩))

end Hermes.Signer

import Hermes.DispatcherSafety
import Hermes.SignerSafety

/- From the certifier's handoff to the entry point on the host, across the two services. What the
   dispatcher takes for signed is what the signing service has published: its key signs nothing
   else that leaves it. Then whatever is started as root, in any course of runs of the service,
   of requests to the dispatcher and of damage on the host, is made of the files that were frozen
   in a candidate for which every gate passed in one fresh run.

   The ledger is the one at the end: what is published between two requests only adds manifests
   that are genuine, and a request is one of those that are served with all of them. -/
namespace Hermes.Provenance
open Entries Outcome
open Candidate (Content pathOf)
open Release (Tree)

/-- A manifest of an archive that was published. -/
def published (w : Signer.Desk) (raw : Content) : Bool :=
  w.ledger.any fun e => e.2.members.any fun m => m.name == "manifest.json" && m.data.take m.size == raw

/-- A host that is enrolled with the service: it has the same tools, and of the signatures that
    it takes for genuine those of published manifests. -/
def enrolled (y : Signer.Setting) (w : Signer.Desk) (x : Dispatcher.Setting) : Dispatcher.Setting :=
  { x with
    tools := y.codec.tools
    canonical := y.codec.canonical
    genuine := fun raw signature => x.genuine raw signature && published w raw }

/-- The files of a directory are those that were frozen and certified. -/
structure Certified (y : Signer.Setting) (w : Signer.Desk) (t : Tree) : Prop where
  frozen : ∃ fingerprint archive h b document candidate u now, (fingerprint, archive) ∈ w.ledger ∧
    Release.Finalized y.codec b h archive document candidate u ∧ Signer.fingerprintOf y document = fingerprint ∧
    Signer.Fresh now (Signer.valueOf y h) ∧
    ∀ f ∈ candidate.files, ∃ content mode, t.node (pathOf f.1) = some (.file content mode) ∧
      content.length = f.2.size ∧ y.codec.tools.sha256 content = f.2.sha256

/-- Every entry point that was started stands in a certified directory. -/
def Traced (y : Signer.Setting) (w : Signer.Desk) (root : Dispatcher.Root) : Prop :=
  ∀ e ∈ root.executions, ∃ t, e.tree = some t ∧ Certified y w t

variable {y : Signer.Setting} {w : Signer.Desk} {x : Dispatcher.Setting}

/-- A published manifest is the one of an archive that was issued. -/
theorem published_ok {raw : Content} (h : published w raw = true) :
    ∃ e ∈ w.ledger, ∃ m ∈ e.2.members, m.name = "manifest.json" ∧ m.data.take m.size = raw := by
  obtain ⟨e, he, hmembers⟩ := List.any_eq_true.mp h
  obtain ⟨m, hm, hmember⟩ := List.any_eq_true.mp hmembers
  rw [Bool.and_eq_true, beq_iff_eq, beq_iff_eq] at hmember
  exact ⟨e, he, m, hm, hmember⟩

theorem certified_of_checked (hw : Signer.Sound y w) {fingerprint : String} {t : Tree}
    (h : Dispatcher.Checked (enrolled y w x) fingerprint t) : Certified y w t := by
  obtain ⟨raw, mode, signature, mode', _, _, hgenuine, _, document', manifest, now', hdecode, hvalid, hfiles⟩ := h.manifest
  have hpublished : published w raw = true := (Bool.and_eq_true _ _ ▸ hgenuine).2
  obtain ⟨e, he, m, hm, hname, hdata⟩ := published_ok hpublished
  obtain ⟨handoff, b, document, candidate, u, now, hfinal, hprint, hfresh⟩ := (hw.issued e he).certified
  obtain ⟨raw', signature', hu, hcarried⟩ := Release.verified_carried hfinal.accepted
  -- the archive has one manifest
  obtain ⟨m', hm', hname', hraw'⟩ := hcarried.metadata
  have hmember : m' = m := List.inj_on_of_nodup_map hcarried.distinct hm' hm (hname'.trans hname.symm)
  have hsame : raw' = raw := by rw [hraw', hmember, hdata]
  have hdocument : document' = u.document := Except.ok.inj (hdecode.symm.trans (hsame ▸ hu.decoded))
  subst hdocument
  obtain ⟨listed, _, hseen⟩ := Release.validate_seen hu.valid
  obtain ⟨listed', _, hseen'⟩ := Release.validate_seen hvalid
  have hnodup := y.codec.tools.distinct _ _ _ _ hu.decoded (Release.fields_get hseen.fields)
  refine ⟨e.1, e.2, handoff, b, document, candidate, u, now, he, hfinal, hprint, hfresh, fun f hf => ?_⟩
  have hlisted := Release.listed_of_file hseen.fields hnodup hseen.files (hfinal.files f hf).1
  exact hfiles f (Release.file_of_listed hseen'.fields hseen'.files hlisted)

end Hermes.Provenance

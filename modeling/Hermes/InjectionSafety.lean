import Mathlib.Tactic.ByContra
import Hermes.Injection

/- What injections do to the boot paths, over any sequence of runs that may each end
   anywhere. A path always holds its first image or an injected one, and the first one is
   there or in its `.hermes-original` (`injected`). A run keeps to one image on both paths
   and can be taken up again exactly if it does not find the second path unable to follow
   the first (`sound_iff`): the check of the backups is made path by path. -/
namespace Hermes.Injection
open Process

/-! ## The commands -/

/-- Every command that can succeed does. -/
def Good (m : Moment) : Prop := m.verdict = .done

/-- What `bounded_download` accepts. -/
def sized (limit : Nat) (file : Option Bytes) : Bool :=
  file.any (fun b => 0 < b.length && b.length ≤ limit)

theorem sized_isSome {limit : Nat} {file : Option Bytes} (h : sized limit file = true) : file.isSome = true := by
  cases file with
  | none => cases h
  | some b => rfl

section Rules

variable {α : Type} {P : Disk → Prop} {E F : Exc → Disk → Prop}

theorem query_runs {can : Disk → Bool} {output : Moment → Disk → α} {Q : α → Disk → Prop}
    (hok : ∀ m d, P d → can d = true → Q (output m d) d) (herr : ∀ e d, P d → E e d)
    (hno : ∀ d, P d → can d = false → ∀ e, F e d) : Runs Good 1 P (query can output) Q E F :=
  ⟨query_triple hok herr, run_within (fun _ h => h) (fun m d _ => hok m d) (fun d hd hc => hno d hd hc _)⟩

theorem check_runs {what : String} (herr : ∀ e d, P d → E e d) :
    Runs Good 1 P (check what) (fun _ => P) E F :=
  ⟨run_triple (fun _ _ h _ => h) herr (fun e _ d h _ => herr e d h),
    run_within (fun _ h => h) (fun _ _ _ h _ => h) (fun _ _ hc => absurd hc (by decide))⟩

theorem require_runs {c : Bool} {reason : String} {Q : Unit → Disk → Prop}
    (hc : c = true → ∀ d, P d → Q () d) (he : ∀ e d, P d → E e d)
    (hf : c = false → ∀ d, P d → ∀ e, F e d) : Runs Good 0 P (require c reason) Q E F :=
  ⟨require_triple hc (fun _ => he _), require_decided hc (fun h d hd => hf h d hd _)⟩

/-- A command whose effect may have happened though it failed. -/
theorem command_runs {can : Disk → Bool} {effect : Moment → Disk → Disk} {Q : Unit → Disk → Prop}
    (hcan : ∀ d, P d → can d = true) (hok : ∀ m d, P d → Q () (effect m d)) (herr : ∀ e d, P d → E e d)
    (htook : ∀ e m d, P d → E e (effect m d)) : Runs Good 1 P (command can effect) Q E F :=
  ⟨run_triple (fun m d h _ => hok m d h) herr (fun e m d h _ => htook e m d h),
    run_within (fun _ h => h) (fun m d _ h _ => hok m d h)
      (fun d h hc => absurd ((hcan d h).symm.trans hc) (by decide))⟩

theorem boundedDownload_runs {file : Disk → Option Bytes} {limit : Nat} (herr : ∀ e d, P d → E e d)
    (hno : ∀ d, P d → sized limit (file d) = false → ∀ e, F e d) :
    Runs Good 2 P (boundedDownload file limit)
      (fun b d => P d ∧ file d = some b ∧ sized limit (file d) = true) E F := by
  refine Runs.start (fun d₀ h₀ => ?_)
  refine Runs.bind (a := 1) (b := 1) (Q := fun size d => d = d₀ ∧ (file d₀).isSome = true ∧
    size = ((file d₀).getD []).length) (query_runs ?_ ?_ ?_) (fun size => ?_) (by omega)
  · intro m d hd hc
    rw [hd] at hc ⊢
    exact ⟨rfl, hc, rfl⟩
  · intro e d hd
    rw [hd]
    exact herr e d₀ h₀
  · intro d hd hc e
    rw [hd] at hc ⊢
    exact hno d₀ h₀ (by rw [Option.isSome_eq_false_iff, Option.isNone_iff_eq_none] at hc; rw [hc]; rfl) e
  refine Runs.given (φ := (file d₀).isSome = true ∧ size = ((file d₀).getD []).length)
    (fun _ hd => hd.2) (fun hsize => ?_)
  obtain ⟨b, hb⟩ := Option.isSome_iff_exists.mp hsize.1
  have hlen : size = b.length := by rw [hsize.2, hb]; rfl
  refine Runs.bind (a := 0) (b := 1) (Q := fun _ d => d = d₀ ∧ sized limit (file d₀) = true)
    (require_runs ?_ ?_ ?_) (fun _ => ?_) (by omega)
  · intro hc d hd
    refine ⟨hd.1, ?_⟩
    rw [sized, hb, ← hc, hlen]
    rfl
  · intro e d hd
    rw [hd.1]
    exact herr e d₀ h₀
  · intro hc d hd e
    rw [hd.1]
    exact hno d₀ h₀ (by rw [sized, hb, ← hc, hlen]; rfl) e
  refine Runs.bind (a := 1) (b := 0) (Q := fun data d => d = d₀ ∧ sized limit (file d₀) = true ∧ data = b)
    (query_runs ?_ ?_ ?_) (fun data => ?_) (by omega)
  · intro m d hd _
    rw [hd.1, hb]
    exact ⟨rfl, hb ▸ hd.2, rfl⟩
  · intro e d hd
    rw [hd.1]
    exact herr e d₀ h₀
  · intro d hd hc
    rw [hd.1, hb] at hc
    exact absurd hc (by simp)
  refine Runs.given (φ := data = b) (fun _ hd => hd.2.2) (fun hdata => ?_)
  refine Runs.bind (a := 0) (b := 0) (Q := fun _ d => d = d₀ ∧ sized limit (file d₀) = true)
    (require_runs ?_ ?_ ?_) (fun _ => Runs.pure' ?_) (by omega)
  · exact fun _ d hd => ⟨hd.1, hd.2.1⟩
  · intro e d hd
    rw [hd.1]
    exact herr e d₀ h₀
  · intro hc
    rw [hdata, hlen, beq_self_eq_true] at hc
    exact absurd hc (by decide)
  · intro d hd
    rw [hd.1, hdata]
    exact ⟨h₀, hb, hd.2⟩

end Rules

/-! ## One path -/

/-- The disk with the original of `p` made, where there was none. -/
def backed (p : EfiPath) (d : Disk) : Disk :=
  { d with original := Function.update d.original p ((d.original p).or (d.boot p)) }

/-- `p` holds a file of an accepted size that is the image, or has no original, or is its
    original. -/
def ready (uki : Bytes) (d : Disk) (p : EfiPath) : Prop :=
  sized sizeLimit (d.boot p) = true ∧
    (d.boot p = some uki ∨ d.original p = none ∨ d.original p = d.boot p)

/-- The path was left as it was, but for what prepares its replacement. -/
structure Touched (p : EfiPath) (d₀ d : Disk) : Prop where
  boot : d.boot = d₀.boot
  key : d.enrolledKey = d₀.enrolledKey
  original : d.original = d₀.original ∨ d.original = (backed p d₀).original

/-- The path holds the image now, and its old one is in its original. -/
structure Replaced (uki : Bytes) (p : EfiPath) (d₀ d : Disk) : Prop where
  size : sized sizeLimit (some uki) = true
  was : ready uki d₀ p
  boot : d.boot = Function.update d₀.boot p (some uki)
  key : d.enrolledKey = d₀.enrolledKey
  original : d₀.boot p = some uki ∧ d.original = d₀.original ∨
    (d₀.original p = none ∨ d₀.original p = d₀.boot p) ∧ d.original = Function.update d₀.original p (d₀.boot p)

theorem Touched.refl (p : EfiPath) (d : Disk) : Touched p d d := ⟨rfl, rfl, Or.inl rfl⟩

theorem backed_of_original {p : EfiPath} {d : Disk} {o : Bytes} (h : d.original p = some o) :
    backed p d = d := by
  have : Function.update d.original p ((d.original p).or (d.boot p)) = d.original := by
    rw [h, Option.some_or, ← h, Function.update_eq_self]
  rw [backed, this]

theorem touched_backed (p : EfiPath) (d : Disk) : Touched p d (backed p d) := ⟨rfl, rfl, Or.inr rfl⟩

/-- An upload changes neither images nor originals. -/
theorem Touched.pending {p : EfiPath} {d₀ d : Disk} (h : Touched p d₀ d) (f : EfiPath → Option Bytes) :
    Touched p d₀ { d with pending := f } :=
  ⟨h.boot, h.key, h.original⟩

/-- The disk with the image moved into place. -/
def moved (uki : Bytes) (p : EfiPath) (d : Disk) : Disk :=
  { backed p d with boot := Function.update d.boot p (some uki), pending := Function.update d.pending p none }

/-- The disk with the image uploaded beside `p`. -/
def uploaded (uki : Bytes) (p : EfiPath) (d : Disk) : Disk :=
  { backed p d with pending := Function.update d.pending p (some uki) }

/-- Wherever `p` is replaced its original holds what it held. -/
theorem replaced_moved {uki : Bytes} {p : EfiPath} {d : Disk} (hu : sized sizeLimit (some uki) = true)
    (hsize : sized sizeLimit (d.boot p) = true) (ho : (d.original p).or (d.boot p) = d.boot p) : Replaced uki p d (moved uki p d) := by
  have hpast : d.original p = none ∨ d.original p = d.boot p := by
    cases h : d.original p with
    | none => exact Or.inl rfl
    | some o =>
      rw [h, Option.some_or] at ho
      exact Or.inr ho
  refine ⟨hu, ⟨hsize, Or.inr hpast⟩, rfl, rfl, Or.inr ⟨hpast, ?_⟩⟩
  show Function.update d.original p ((d.original p).or (d.boot p)) = _
  rw [ho]

/-- How the injection into `p` of `uki` ends early: before the move or after it. -/
def Left (uki : Bytes) (p : EfiPath) (d₀ d : Disk) : Prop := Touched p d₀ d ∨ Replaced uki p d₀ d

/-- An injection that nothing interrupts fails only where the path is not ready, and then it
    changes nothing. -/
def Refused (uki : Bytes) (p : EfiPath) (d₀ d : Disk) : Prop :=
  sized sizeLimit (some uki) = true → ¬ready uki d₀ p ∧ d = d₀

section Path

variable {uki : Bytes} {p : EfiPath} {d₀ : Disk}

/-- An upload that ends early leaves a part of the image beside the boot path. -/
theorem upload_runs {P : Disk → Prop} {Q : Unit → Disk → Prop} {E F : Exc → Disk → Prop}
    (hok : ∀ d, P d → Q () { d with pending := Function.update d.pending p (some uki) }) (herr : ∀ e d, P d → E e d)
    (hsome : ∀ e d b, P d → E e { d with pending := Function.update d.pending p (some b) }) :
    Runs Good 1 P (upload uki p) Q E F := by
  refine ⟨Triple.perform (fun d hd => herr _ d hd) (fun m d hd r d' hr => ?_),
    Within.perform (fun m d hm hd r d' hr => ?_)⟩
  · by_cases hv : m.verdict = .done
    · rw [if_pos hv] at hr
      cases hr
      exact hok d hd
    · rw [if_neg hv] at hr
      cases hr
      show E _ _
      split
      · exact hsome _ d _ hd
      · exact herr _ d hd
  · rw [if_pos (show m.verdict = .done from hm)] at hr
    cases hr
    exact hok d hd

theorem ensureOriginal_runs (hb : (d₀.boot p).isSome = true) :
    Runs Good 4 (fun d => d = d₀) (ensureOriginal p) (fun _ d => d = backed p d₀)
      (fun _ => Left uki p d₀) (fun _ _ => False) := by
  have hleft : ∀ (e : Exc) d, d = d₀ → Left uki p d₀ d := fun _ d hd => Or.inl (hd ▸ Touched.refl p d₀)
  refine Runs.bind (a := 1) (b := 3) (Q := fun there d => d = d₀ ∧ there = (d₀.original p).isSome)
    (query_runs (fun m d hd _ => ⟨hd, by rw [hd]⟩) hleft (fun _ _ h => by cases h)) (fun there => ?_) (by omega)
  refine Runs.given (φ := there = (d₀.original p).isSome) (fun _ hd => hd.2) (fun hthere => ?_)
  refine Runs.bind (a := 1) (b := 2) (Q := fun _ d => d = d₀)
    ((check_runs hleft).pre (fun _ hd => hd.1)) (fun _ => ?_) (by omega)
  cases ho : d₀.original p with
  | some o =>
    rw [hthere, ho]
    exact Runs.pure' (fun d hd => hd.trans (backed_of_original ho).symm)
  | none =>
    rw [hthere, ho]
    refine Runs.bind (a := 1) (b := 1) (Q := fun _ d => d = d₀) (check_runs hleft) (fun _ => ?_) (by omega)
    have hmade : ∀ d, d = d₀ → { d with original := Function.update d.original p (d.boot p) } = backed p d₀ := by
      intro d hd
      rw [hd, backed, ho, Option.none_or]
    exact command_runs (fun d hd => hd ▸ hb) (fun _ d hd => hmade d hd) hleft
      (fun _ _ d hd => Or.inl (hmade d hd ▸ touched_backed p d₀))

/-- The digests are compared where the path is not ready, before anything is uploaded. -/
theorem replaceImage_runs {current : Bytes} (hb : d₀.boot p = some current)
    (hs : sized sizeLimit (some current) = true) (hne : current ≠ uki) :
    Runs Good 13 (fun d => d = d₀) (replaceImage uki current p) (fun _ => Replaced uki p d₀)
      (fun _ => Left uki p d₀) (fun _ => Refused uki p d₀) := by
  have hfrom : ∀ (e : Exc) d, d = backed p d₀ → Left uki p d₀ d :=
    fun _ d hd => Or.inl (hd ▸ touched_backed p d₀)
  refine Runs.bind (a := 4) (b := 9) (Q := fun _ d => d = backed p d₀) ?_ (fun _ => ?_) (by omega)
  · have h := (@ensureOriginal_runs uki p d₀) (by rw [hb]; rfl)
    exact ⟨h.always, h.supplied.mono (fun _ => id) (fun _ _ => id) (fun _ _ h => h.elim)⟩
  -- what the original is when it is not what the path holds
  have hrefused : (backed p d₀).original p ≠ some current → ¬ready uki d₀ p ∧ backed p d₀ = d₀ := by
    intro hc
    have hback : (backed p d₀).original p = (d₀.original p).or (d₀.boot p) := Function.update_self _ _ _
    cases ho : d₀.original p with
    | none => rw [hback, ho, Option.none_or] at hc; exact absurd hb hc
    | some o =>
      refine ⟨?_, backed_of_original ho⟩
      rintro ⟨-, h | h | h⟩
      · rw [hb] at h
        exact hne (Option.some.inj h)
      · rw [ho] at h
        cases h
      · rw [hback, h, hb] at hc
        exact hc rfl
  refine Runs.bind (a := 2) (b := 7)
    (Q := fun restored d => d = backed p d₀ ∧ (backed p d₀).original p = some restored) ?_
    (fun restored => ?_) (by omega)
  · have h := (@boundedDownload_runs (fun d => d = backed p d₀) (fun _ => Left uki p d₀) (fun _ => Refused uki p d₀) (fun d => d.original p) sizeLimit) hfrom ?_
    · exact h.post (fun b d hd => ⟨hd.1, hd.1 ▸ hd.2.1⟩)
    · intro d hd hno e _
      have hc := hrefused (fun h => by rw [hd, h, hs] at hno; cases hno)
      exact ⟨hc.1, hd.trans hc.2⟩
  refine Runs.bind (a := 0) (b := 7)
    (Q := fun _ d => d = backed p d₀ ∧ (backed p d₀).original p = some current)
    (require_runs ?_ (fun e d hd => hfrom e d hd.1) ?_) (fun _ => ?_) (by omega)
  · intro hc d hd
    rw [hd.2, eq_of_beq hc]
    exact ⟨hd.1, rfl⟩
  · intro hc d hd e _
    have hne' : (backed p d₀).original p ≠ some current := by
      rw [hd.2]
      intro h
      rw [Option.some.inj h, beq_self_eq_true] at hc
      cases hc
    exact ⟨(hrefused hne').1, hd.1.trans (hrefused hne').2⟩
  refine Runs.given (φ := (backed p d₀).original p = some current) (fun d hd => hd.2) (fun hback => ?_)
  have hold : (d₀.original p).or (d₀.boot p) = d₀.boot p :=
    (Function.update_self p _ d₀.original).symm.trans (hback.trans hb.symm)
  refine Runs.bind (a := 1) (b := 6) (Q := fun _ d => d = backed p d₀)
    ((check_runs hfrom).pre (fun _ hd => hd.1)) (fun _ => ?_) (by omega)
  have hpend : ∀ (e : Exc) d, d = uploaded uki p d₀ → Left uki p d₀ d :=
    fun _ d hd => Or.inl (hd ▸ (touched_backed p d₀).pending _)
  refine Runs.bind (a := 1) (b := 5) (Q := fun _ d => d = uploaded uki p d₀)
    (upload_runs (fun d hd => by rw [hd]; rfl) hfrom
      (fun _ d b hd => Or.inl (hd ▸ (touched_backed p d₀).pending _))) (fun _ => ?_) (by omega)
  have hthere : (uploaded uki p d₀).pending p = some uki := Function.update_self _ _ _
  refine Runs.bind (a := 2) (b := 3) (Q := fun readback d => d = uploaded uki p d₀ ∧ readback = uki ∧
      sized sizeLimit (some uki) = true)
    ?_ (fun readback => ?_) (by omega)
  · refine ((@boundedDownload_runs _ _ _ (fun d => d.pending p) sizeLimit) hpend ?_).post ?_
    · intro d hd hno e hu
      rw [hd, hthere, hu] at hno
      cases hno
    · intro b d hd
      have hb' := hd.2.1
      have hs' := hd.2.2
      rw [hd.1, hthere] at hb' hs'
      exact ⟨hd.1, (Option.some.inj hb').symm, hs'⟩
  refine Runs.given (φ := sized sizeLimit (some uki) = true) (fun _ hd => hd.2.2) (fun hu => ?_)
  refine Runs.bind (a := 0) (b := 3) (Q := fun _ d => d = uploaded uki p d₀)
    (require_runs (fun _ d hd => hd.1) (fun e d hd => hpend e d hd.1) ?_) (fun _ => ?_) (by omega)
  · intro hc d hd
    rw [hd.2.1, beq_self_eq_true] at hc
    cases hc
  refine Runs.bind (a := 1) (b := 2) (Q := fun _ d => d = uploaded uki p d₀) (check_runs hpend)
    (fun _ => ?_) (by omega)
  refine Runs.bind (a := 1) (b := 1) (Q := fun _ d => d = uploaded uki p d₀) (check_runs hpend)
    (fun _ => ?_) (by omega)
  have hmoved : Replaced uki p d₀ (moved uki p d₀) :=
    replaced_moved hu (by rw [hb]; exact hs) hold
  have heffect : ∀ d, d = uploaded uki p d₀ →
      { d with boot := Function.update d.boot p (d.pending p), pending := Function.update d.pending p none } = moved uki p d₀ := by
    intro d hd
    rw [hd, hthere, uploaded, moved]
    exact congrArg (fun f => { backed p d₀ with boot := Function.update d₀.boot p (some uki), pending := f })
      (Function.update_idem (a := p) (some uki) none d₀.pending)
  have h := @command_runs (fun d => d = uploaded uki p d₀) (fun _ => Left uki p d₀) (fun _ => Refused uki p d₀)
    (fun d => (d.pending p).isSome)
    (fun _ d => { d with boot := Function.update d.boot p (d.pending p), pending := Function.update d.pending p none })
    (fun _ => Replaced uki p d₀)
    (fun d hd => by rw [hd, hthere]; rfl) (fun _ d hd => heffect d hd ▸ hmoved) hpend
    (fun _ _ d hd => Or.inr (heffect d hd ▸ hmoved))
  exact h

/-- What one path's injection does. -/
theorem injectPath_runs : Runs Good 15 (fun d => d = d₀) (injectPath uki p) (fun _ => Replaced uki p d₀)
    (fun _ => Left uki p d₀) (fun _ => Refused uki p d₀) := by
  have hleft : ∀ (e : Exc) d, d = d₀ → Left uki p d₀ d := fun _ d hd => Or.inl (hd ▸ Touched.refl p d₀)
  refine Runs.bind (a := 2) (b := 13) (Q := fun current d => d = d₀ ∧ d₀.boot p = some current ∧
    sized sizeLimit (some current) = true) ?_ (fun current => ?_) (by omega)
  · refine ((@boundedDownload_runs _ _ _ (fun d => d.boot p) sizeLimit) hleft ?_).post ?_
    · intro d hd hno e _
      refine ⟨fun hr => ?_, hd⟩
      rw [hd, hr.1] at hno
      cases hno
    · intro b d hd
      have hb := hd.2.1
      have hs := hd.2.2
      rw [hd.1] at hb hs
      exact ⟨hd.1, hb, hb ▸ hs⟩
  refine Runs.given (φ := d₀.boot p = some current ∧ sized sizeLimit (some current) = true)
    (fun _ hd => hd.2) (fun h => ?_)
  refine Runs.ite (fun heq => ?_) (fun hne => ?_)
  · refine Runs.pure' (fun d hd => ?_)
    have hb : d₀.boot p = some uki := heq ▸ h.1
    refine ⟨heq ▸ h.2, ⟨by rw [h.1]; exact h.2, Or.inl hb⟩, ?_, by rw [hd.1], Or.inl ⟨hb, by rw [hd.1]⟩⟩
    rw [hd.1, ← hb, Function.update_eq_self]
  · exact (replaceImage_runs h.1 h.2 hne).pre (fun _ hd => hd.1)

end Path

/-! ## The whole run -/

/-- The input is one that `inject` goes on with. -/
structure Prepared (v : Inputs) (d : Disk) : Prop where
  line : v.commandLine.isSome = true
  key : d.enrolledKey = some v.pcrPublicKey
  keySize : sized 65536 (some v.pcrPublicKey) = true

/-- Both paths were replaced, one after the other. -/
def Both (uki : Bytes) (d₀ d : Disk) : Prop :=
  ∃ d₁, Replaced uki .shim d₀ d₁ ∧ Replaced uki .fallback d₁ d

/-- Where a run may have ended. -/
def Between (uki : Bytes) (d₀ d : Disk) : Prop :=
  Left uki .shim d₀ d ∨ ∃ d₁, Replaced uki .shim d₀ d₁ ∧ Left uki .fallback d₁ d

/-- Where a run that nothing interrupts fails: before the first path, or before the second
    one with the first one replaced. -/
def Half (uki : Bytes) (d₀ d : Disk) : Prop :=
  ¬ready uki d₀ .shim ∧ d = d₀ ∨ Replaced uki .shim d₀ d ∧ ¬ready uki d .fallback

/-- The inputs are accepted on the disk. -/
structure Accepted (v : Inputs) (d : Disk) : Prop where
  size : sized sizeLimit (some v.uki) = true
  prepared : Prepared v d

section Whole

variable {v : Inputs} {d₀ : Disk}

theorem prepare_runs : Runs Good 7 (fun d => d = d₀) (prepare v) (fun _ d => d = d₀ ∧ Prepared v d₀)
    (fun _ d => d = d₀) (fun _ d => d = d₀ ∧ ¬Accepted v d₀) := by
  have hno : ∀ {c : Prop}, ¬c → (Accepted v d₀ → c) → ∀ d, d = d₀ → ∀ _ : Exc, d = d₀ ∧ ¬Accepted v d₀ :=
    fun hc himp d hd _ => ⟨hd, fun h => hc (himp h)⟩
  refine Runs.bind (a := 1) (b := 6) (check_runs (fun _ _ h => h)) (fun _ => ?_) (by omega)
  refine Runs.bind (a := 0) (b := 6) (Q := fun _ d => d = d₀)
    (require_runs (fun _ _ h => h) (fun _ _ h => h) (fun hc => ?_)) (fun _ => ?_) (by omega)
  · refine hno (of_decide_eq_false hc) (fun h => ?_)
    have hs := h.size
    rw [sized, Option.any_some, Bool.and_eq_true, decide_eq_true_eq, decide_eq_true_eq] at hs
    exact hs.2
  refine Runs.bind (a := 1) (b := 5) (check_runs (fun _ _ h => h)) (fun _ => ?_) (by omega)
  refine Runs.bind (a := 1) (b := 4) (check_runs (fun _ _ h => h)) (fun _ => ?_) (by omega)
  refine Runs.bind (a := 0) (b := 4) (Q := fun _ d => d = d₀ ∧ v.commandLine.isSome = true)
    (require_runs (fun hc _ h => ⟨h, hc⟩) (fun _ _ h => h) (fun hc => ?_)) (fun _ => ?_) (by omega)
  · exact hno (ne_true_of_eq_false hc) (fun h => h.prepared.line)
  refine Runs.given (φ := v.commandLine.isSome = true) (fun _ h => h.2) (fun hline => ?_)
  refine Runs.bind (a := 1) (b := 3) (Q := fun _ d => d = d₀)
    ((check_runs (fun _ _ h => h)).pre (fun _ h => h.1)) (fun _ => ?_) (by omega)
  refine Runs.bind (a := 1) (b := 2) (check_runs (fun _ _ h => h)) (fun _ => ?_) (by omega)
  refine Runs.bind (a := 2) (b := 0) (Q := fun enrolled d => d = d₀ ∧ d₀.enrolledKey = some enrolled ∧
      sized 65536 (some enrolled) = true)
    ?_ (fun enrolled => ?_) (by omega)
  · refine ((@boundedDownload_runs _ _ _ Disk.enrolledKey 65536) (fun _ _ h => h) ?_).post ?_
    · intro d hd hsize
      refine hno (Bool.eq_false_iff.mp hsize) (fun h => ?_) d hd
      rw [hd, h.prepared.key]
      exact h.prepared.keySize
    · intro b d hd
      have hk := hd.2.1
      have hs := hd.2.2
      rw [hd.1] at hk hs
      exact ⟨hd.1, hk, hk ▸ hs⟩
  refine require_runs (fun hc d hd => ⟨hd.1, hline, ?_, ?_⟩) (fun _ _ h => h.1) (fun hc d hd => ?_)
  · rw [hd.2.1, eq_of_beq hc]
  · rw [← eq_of_beq hc]
    exact hd.2.2
  · refine hno (c := d₀.enrolledKey = some v.pcrPublicKey) (fun h => ?_) (fun h => h.prepared.key) d hd.1
    rw [Option.some.inj (hd.2.1.symm.trans h), beq_self_eq_true] at hc
    cases hc

theorem injectBoth_runs : Runs Good 30 (fun d => d = d₀) (Proc.forEach efiPaths (injectPath v.uki))
    (fun _ => Both v.uki d₀) (fun _ => Between v.uki d₀)
    (fun _ d => sized sizeLimit (some v.uki) = true → Half v.uki d₀ d) := by
  refine Runs.bind (a := 15) (b := 15) (Q := fun _ => Replaced v.uki .shim d₀) ?_ (fun _ => ?_) (by omega)
  · have h := @injectPath_runs v.uki .shim d₀
    exact ⟨h.always.mono (fun _ => id) (fun _ _ => id) (fun _ _ h => Or.inl h),
      h.supplied.mono (fun _ => id) (fun _ _ => id) (fun _ _ h hu => Or.inl (h hu))⟩
  refine Runs.start (fun d₁ h₁ => ?_)
  refine Runs.bind (a := 15) (b := 0) (Q := fun _ d => Both v.uki d₀ d) ?_ (fun _ => Runs.pure' (fun _ h => h))
    (by omega)
  have h := @injectPath_runs v.uki .fallback d₁
  refine ⟨h.always.mono (fun _ => id) (fun _ d h => ⟨d₁, h₁, h⟩) (fun _ _ h => Or.inr ⟨d₁, h₁, h⟩),
    h.supplied.mono (fun _ => id) (fun _ d h => ⟨d₁, h₁, h⟩) (fun _ d h hu => Or.inr ?_)⟩
  rw [(h hu).2]
  exact ⟨h₁, (h hu).1⟩

theorem Both.boot {uki : Bytes} {d : Disk} (h : Both uki d₀ d) (p : EfiPath) : d.boot p = some uki := by
  obtain ⟨d₁, h₁, h₂⟩ := h
  cases p with
  | shim => rw [h₂.boot, h₁.boot, Function.update_of_ne (by decide), Function.update_self]
  | fallback => rw [h₂.boot, Function.update_self]

theorem Both.size {uki : Bytes} {d : Disk} (h : Both uki d₀ d) : sized sizeLimit (some uki) = true :=
  h.elim fun _ h => h.1.size

theorem Both.between {uki : Bytes} {d : Disk} (h : Both uki d₀ d) : Between uki d₀ d :=
  h.elim fun d₁ h => Or.inr ⟨d₁, h.1, Or.inr h.2⟩

/-- An image that is too large, or empty, is moved nowhere. -/
theorem Between.boot_of_unsized {uki : Bytes} {d : Disk} (h : Between uki d₀ d)
    (hu : ¬sized sizeLimit (some uki) = true) : d.boot = d₀.boot := by
  rcases h with (h | h) | ⟨_, h, _⟩
  · exact h.boot
  · exact absurd h.size hu
  · exact absurd h.size hu

theorem verifyPath_runs {E F : Exc → Disk → Prop} {p : EfiPath} (hb : d₀.boot p = some v.uki)
    (hu : sized sizeLimit (some v.uki) = true) (herr : ∀ e, E e d₀) :
    Runs Good 2 (fun d => d = d₀) (verifyPath v.uki p) (fun _ d => d = d₀) E F := by
  have hsame : ∀ (e : Exc) d, d = d₀ → E e d := fun e _ hd => hd ▸ herr e
  refine Runs.bind (a := 2) (b := 0) (Q := fun readback d => d = d₀ ∧ readback = v.uki) ?_
    (fun readback => ?_) (by omega)
  · refine ((@boundedDownload_runs _ _ _ (fun d => d.boot p) sizeLimit) hsame ?_).post ?_
    · intro d hd hsize
      rw [hd, hb, hu] at hsize
      cases hsize
    · intro b d hd
      have hb' := hd.2.1
      rw [hd.1, hb] at hb'
      exact ⟨hd.1, (Option.some.inj hb').symm⟩
  · refine require_runs (fun _ _ hd => hd.1) (fun e d hd => hsame e d hd.1) (fun hc d hd => ?_)
    rw [hd.2, beq_self_eq_true] at hc
    cases hc

/-- What a run of `inject` does. -/
theorem inject_runs : Runs Good 42 (fun d => d = d₀) (inject v) (fun _ d => Prepared v d₀ ∧ Both v.uki d₀ d)
    (fun _ d => d = d₀ ∨ Prepared v d₀ ∧ Between v.uki d₀ d)
    (fun _ d => d.boot = d₀.boot ∧ ¬Accepted v d₀ ∨ Half v.uki d₀ d) := by
  refine Runs.bind (a := 7) (b := 35) (Q := fun _ d => d = d₀ ∧ Prepared v d₀) ?_ (fun _ => ?_) (by omega)
  · have h := @prepare_runs v d₀
    exact ⟨h.always.mono (fun _ => id) (fun _ _ => id) (fun _ _ h => Or.inl h),
      h.supplied.mono (fun _ => id) (fun _ _ => id) (fun _ _ h => Or.inl ⟨by rw [h.1], h.2⟩)⟩
  refine Runs.given (φ := Prepared v d₀) (fun _ h => h.2) (fun hv => ?_)
  refine Runs.bind (a := 30) (b := 5) (Q := fun _ => Both v.uki d₀) ?_ (fun _ => ?_) (by omega)
  · have h := @injectBoth_runs v d₀
    refine ⟨h.always.mono (fun _ h => h.1) (fun _ _ => id) (fun _ _ h => Or.inr ⟨hv, h⟩),
      (h.supplied.and_triple h.always).mono (fun _ h => h.1) (fun _ _ h => h.1) (fun _ d h => ?_)⟩
    by_cases hu : sized sizeLimit (some v.uki) = true
    · exact Or.inr (h.1 hu)
    · exact Or.inl ⟨h.2.boot_of_unsized hu, fun ha => hu ha.size⟩
  refine Runs.start (fun d₁ h₁ => ?_)
  have herr : ∀ e : Exc, d₁ = d₀ ∨ Prepared v d₀ ∧ Between v.uki d₀ d₁ := fun _ => Or.inr ⟨hv, h₁.between⟩
  refine Runs.bind (a := 4) (b := 1) (Q := fun _ d => d = d₁) ?_ (fun _ => ?_) (by omega)
  · refine Runs.bind (a := 2) (b := 2) (verifyPath_runs (h₁.boot _) h₁.size herr) (fun _ => ?_) (by omega)
    exact Runs.bind (a := 2) (b := 0) (verifyPath_runs (h₁.boot _) h₁.size herr)
      (fun _ => Runs.pure' (fun _ h => h)) (by omega)
  · have h := (@check_runs (fun d => d = d₁) (fun _ d => d = d₀ ∨ Prepared v d₀ ∧ Between v.uki d₀ d) (fun _ d => d.boot = d₀.boot ∧ ¬Accepted v d₀ ∨ Half v.uki d₀ d) ("check_domain")) (fun e d hd => hd ▸ herr e)
    exact h.post (fun _ d hd => ⟨hv, hd ▸ h₁⟩)

end Whole

/-! ## What a run preserves -/

/-- What `p` held at first is there or in its original, and it holds that or an image of `vs`. -/
structure Kept (first : Option Bytes) (vs : List Bytes) (p : EfiPath) (d : Disk) : Prop where
  present : d.boot p = first ∨ first.isSome = true ∧ d.original p = first
  complete : d.boot p = first ∨ ∃ uki ∈ vs, d.boot p = some uki

section Kept

variable {first : Option Bytes} {vs : List Bytes} {uki : Bytes} {p q : EfiPath} {d₀ d : Disk}

/-- No original is ever written again. -/
theorem Touched.original_stays (h : Touched q d₀ d) (ho : (d₀.original p).isSome = true) :
    d.original p = d₀.original p := by
  rcases h.original with hd | hd
  · rw [hd]
  rw [hd]
  show Function.update d₀.original q ((d₀.original q).or (d₀.boot q)) p = _
  by_cases hpq : p = q
  · obtain ⟨o, ho⟩ := Option.isSome_iff_exists.mp ho
    rw [← hpq, Function.update_self, ho, Option.some_or]
  · rw [Function.update_of_ne hpq]

theorem Replaced.original_stays (h : Replaced uki q d₀ d) (ho : (d₀.original p).isSome = true) :
    d.original p = d₀.original p := by
  rcases h.original with ⟨-, hd⟩ | ⟨hq, hd⟩
  · rw [hd]
  by_cases hpq : p = q
  · rw [hpq] at ho ⊢
    rcases hq with hq | hq
    · rw [hq] at ho
      cases ho
    · rw [hd, Function.update_self, hq]
  · rw [hd, Function.update_of_ne hpq]

theorem Touched.kept (h : Touched q d₀ d) (hk : Kept first vs p d₀) : Kept first vs p d := by
  refine ⟨?_, by rw [h.boot]; exact hk.complete⟩
  rw [h.boot]
  refine hk.present.imp_right (fun hp => ⟨hp.1, ?_⟩)
  rw [h.original_stays (by rw [hp.2]; exact hp.1), hp.2]

theorem Replaced.kept (h : Replaced uki q d₀ d) (hu : uki ∈ vs) (hk : Kept first vs p d₀) :
    Kept first vs p d := by
  by_cases hpq : p = q
  · have hnew : d.boot p = some uki := by rw [h.boot, hpq, Function.update_self]
    refine ⟨?_, Or.inr ⟨uki, hu, hnew⟩⟩
    rcases hk.present with hp | hp
    · rcases h.original with ⟨hq, -⟩ | ⟨-, hd⟩
      · exact Or.inl (by rw [hnew, ← hp, hpq, hq])
      · -- what the path held is the first image, and goes into the original
        refine Or.inr ⟨?_, by rw [hd, hpq, Function.update_self, ← hpq, hp]⟩
        rw [← hp, hpq]
        exact sized_isSome h.was.1
    · exact Or.inr ⟨hp.1, by rw [h.original_stays (by rw [hp.2]; exact hp.1), hp.2]⟩
  · have hsame : d.boot p = d₀.boot p := by rw [h.boot, Function.update_of_ne hpq]
    refine ⟨?_, by rw [hsame]; exact hk.complete⟩
    rw [hsame]
    refine hk.present.imp_right (fun hp => ⟨hp.1, ?_⟩)
    rw [h.original_stays (by rw [hp.2]; exact hp.1), hp.2]

theorem Left.kept (h : Left uki q d₀ d) (hu : uki ∈ vs) (hk : Kept first vs p d₀) : Kept first vs p d :=
  h.elim (fun h => h.kept hk) (fun h => h.kept hu hk)

theorem Between.kept (h : Between uki d₀ d) (hu : uki ∈ vs) (hk : Kept first vs p d₀) :
    Kept first vs p d := by
  rcases h with h | ⟨d₁, h₁, h₂⟩
  · exact h.kept hu hk
  · exact h₂.kept hu (h₁.kept hu hk)

theorem Kept.more {us : List Bytes} (hk : Kept first vs p d) (h : vs ⊆ us) : Kept first us p d :=
  ⟨hk.present, hk.complete.imp_right (fun ⟨u, hu, hb⟩ => ⟨u, h hu, hb⟩)⟩

end Kept

/-! ## What a run that may be cut off leaves ready -/

section Ready

variable {uki : Bytes} {p q : EfiPath} {d₀ d : Disk}

theorem Touched.ready (h : Touched q d₀ d) (hr : ready uki d₀ p) : ready uki d p := by
  obtain ⟨hs, hr⟩ := hr
  refine ⟨by rw [h.boot]; exact hs, ?_⟩
  rw [h.boot]
  refine hr.imp_right (fun ho => ?_)
  rcases h.original with hd | hd
  · rw [hd]
    exact ho
  have hat : d.original p = Function.update d₀.original q ((d₀.original q).or (d₀.boot q)) p := by rw [hd]; rfl
  rw [hat]
  by_cases hpq : p = q
  · rw [← hpq, Function.update_self]
    rcases ho with ho | ho
    · exact Or.inr (by rw [ho, Option.none_or])
    · exact Or.inr (by rw [ho, Option.or_self])
  · rw [Function.update_of_ne hpq]
    exact ho

/-- A replaced path holds the image, and the other one is as it was. -/
theorem Replaced.ready_iff (h : Replaced uki q d₀ d) : Injection.ready uki d p ↔ Injection.ready uki d₀ p := by
  by_cases hpq : p = q
  · have hnew : d.boot p = some uki := by rw [h.boot, hpq, Function.update_self]
    exact iff_of_true ⟨by rw [hnew]; exact h.size, Or.inl hnew⟩ (hpq ▸ h.was)
  · have hb : d.boot p = d₀.boot p := by rw [h.boot, Function.update_of_ne hpq]
    have ho : d.original p = d₀.original p := by
      rcases h.original with ⟨-, hd⟩ | ⟨-, hd⟩
      · rw [hd]
      · rw [hd, Function.update_of_ne hpq]
    rw [Injection.ready, Injection.ready, hb, ho]

theorem Left.ready (h : Left uki q d₀ d) (hr : Injection.ready uki d₀ p) : Injection.ready uki d p :=
  h.elim (fun h => h.ready hr) (fun h => h.ready_iff.mpr hr)

theorem Between.ready (h : Between uki d₀ d) (hr : Injection.ready uki d₀ p) : Injection.ready uki d p := by
  rcases h with h | ⟨d₁, h₁, h₂⟩
  · exact h.ready hr
  · exact h₂.ready (h₁.ready_iff.mpr hr)

theorem Left.key (h : Left uki q d₀ d) : d.enrolledKey = d₀.enrolledKey :=
  h.elim Touched.key Replaced.key

theorem Between.key (h : Between uki d₀ d) : d.enrolledKey = d₀.enrolledKey := by
  rcases h with h | ⟨d₁, h₁, h₂⟩
  · exact h.key
  · exact h₂.key.trans h₁.key

end Ready

/-! ## One image on both paths -/

/-- `inject` finds the second path able to follow the first, or changes none. -/
def Clean (uki : Bytes) (d : Disk) : Prop :=
  ready uki d .fallback ∨ ¬ready uki d .shim ∨ d.boot .shim = some uki

/-- What is asked of a run of `inject` from `d`. -/
structure Sound (v : Inputs) (d : Disk) : Prop where
  /-- cut off anywhere, it has changed no path or can be taken up again -/
  retried : ∀ t, ((inject v).after t d).boot = d.boot ∨ ∀ t', Supplied Good 42 t' →
    (inject v).result t' ((inject v).after t d) = .ok () ∧
      ∀ p, ((inject v).after t' ((inject v).after t d)).boot p = some v.uki
  /-- not cut off, it ends with the image on every path or has changed none -/
  whole : ∀ t, Supplied Good 42 t → (∀ p, ((inject v).after t d).boot p = some v.uki) ∨
    ((inject v).after t d).boot = d.boot

section Sound

variable {v : Inputs} {d : Disk}

/-- Where both paths are ready an injection completes. -/
theorem completes (hv : Accepted v d) (hs : ready v.uki d .shim) (hf : ready v.uki d .fallback)
    {t : List Moment} (ht : Supplied Good 42 t) :
    (inject v).result t d = .ok () ∧ ∀ p, ((inject v).after t d).boot p = some v.uki := by
  have h : Within Good 42 (fun e => e = d) (inject v) (fun _ e => Both v.uki d e) (fun _ _ => False) := by
    refine inject_runs.supplied.mono (fun _ => id) (fun _ _ h => h.2) (fun _ e he => ?_)
    rcases he with ⟨-, he⟩ | ⟨he, -⟩ | ⟨he, hn⟩
    · exact he hv
    · exact he hs
    · exact hn (he.ready_iff.mpr hf)
  obtain ⟨_, hr, hb⟩ := h.returns ht rfl
  exact ⟨hr, hb.boot⟩

theorem after_between (t : List Moment) :
    (inject v).after t d = d ∨ Prepared v d ∧ Between v.uki d ((inject v).after t d) := by
  have h := @inject_runs v d
  exact Triple.after (R := fun e => e = d ∨ Prepared v d ∧ Between v.uki d e)
    (h.always.mono (fun _ => id) (fun _ _ h => Or.inr ⟨h.1, h.2.between⟩) (fun _ _ => id)) rfl

/-- A run that changed a path found both of them ready. -/
theorem ready_of_changed (hc : Clean v.uki d) {e : Disk} (h : Between v.uki d e) (hne : e.boot ≠ d.boot) :
    ready v.uki d .shim ∧ ready v.uki d .fallback := by
  rcases h with (h | h) | ⟨d₁, h₁, h₂⟩
  · exact absurd h.boot hne
  · refine ⟨h.was, ?_⟩
    rcases hc with hc | hc | hc
    · exact hc
    · exact absurd h.was hc
    · refine absurd ?_ hne
      rw [h.boot, ← hc, Function.update_eq_self]
  · refine ⟨h₁.was, ?_⟩
    rcases hc with hc | hc | hc
    · exact hc
    · exact absurd h₁.was hc
    · rcases h₂ with h₂ | h₂
      · refine absurd ?_ hne
        rw [h₂.boot, h₁.boot, ← hc, Function.update_eq_self]
      · exact h₁.ready_iff.mp h₂.was

theorem sound_of_clean (hc : Accepted v d → Clean v.uki d) : Sound v d := by
  have hchanged : ∀ {e}, Prepared v d → Between v.uki d e → e.boot ≠ d.boot →
      Accepted v d ∧ ready v.uki d .shim ∧ ready v.uki d .fallback := by
    intro e hp hb hne
    by_cases hu : sized sizeLimit (some v.uki) = true
    · exact ⟨⟨hu, hp⟩, ready_of_changed (hc ⟨hu, hp⟩) hb hne⟩
    · exact absurd (hb.boot_of_unsized hu) hne
  refine ⟨fun t => ?_, fun t ht => ?_⟩
  · rcases after_between (v := v) (d := d) t with he | ⟨hp, hb⟩
    · exact Or.inl (by rw [he])
    refine Classical.or_iff_not_imp_left.mpr (fun hne t' ht' => ?_)
    obtain ⟨hv, hs, hf⟩ := hchanged hp hb hne
    -- the same inputs are accepted again, and both paths are still ready
    exact completes ⟨hv.size, hp.line, hb.key.trans hp.key, hp.keySize⟩ (hb.ready hs) (hb.ready hf) ht'
  · refine Classical.or_iff_not_imp_right.mpr (fun hne => ?_)
    rcases after_between (v := v) (d := d) t with he | ⟨hp, hb⟩
    · exact absurd (by rw [he]) hne
    obtain ⟨hv, hs, hf⟩ := hchanged hp hb hne
    exact (completes hv hs hf ht).2

theorem clean_of_sound (hs : Sound v d) (hv : Accepted v d) : Clean v.uki d := by
  by_contra hc
  obtain ⟨hfallback, hshim, hold⟩ : ¬ready v.uki d .fallback ∧ ready v.uki d .shim ∧ d.boot .shim ≠ some v.uki := by
    rw [Clean, not_or, not_or, not_not] at hc
    exact hc
  have ht : Supplied Good 42 (List.replicate 42 ({} : Moment)) :=
    supplied_replicate (G := Good) (m := {}) rfl 42
  obtain ⟨hend, -⟩ := (@inject_runs v d).supplied _ d 0 ht rfl
  have hwhole := hs.whole _ ht
  simp only [Proc.after] at hwhole
  revert hend hwhole
  rcases inject v (List.replicate 42 ({} : Moment)) d with ⟨r, t', e⟩
  cases r with
  | ok _ =>
    rintro ⟨-, d₁, h₁, h₂⟩ -
    exact hfallback (h₁.ready_iff.mp h₂.was)
  | error _ =>
    rintro (⟨-, hno⟩ | ⟨hno, -⟩ | ⟨h₁, hno⟩) hwhole
    · exact hno hv
    · exact hno hshim
    rcases hwhole with hall | hsame
    · exact hno ⟨by rw [hall]; exact hv.size, Or.inl (hall _)⟩
    · refine hold ?_
      rw [← hsame, h₁.boot, Function.update_self]

/-- A run is sound exactly where it is clean. -/
theorem sound_iff : Sound v d ↔ (Accepted v d → Clean v.uki d) :=
  ⟨clean_of_sound, sound_of_clean⟩

end Sound

/-- The disks that runs over `vs` leave, each of them cut off anywhere. -/
inductive Reached (d₀ : Disk) : List Inputs → Disk → Prop
  | start : Reached d₀ [] d₀
  | inject {vs : List Inputs} {d : Disk} (h : Reached d₀ vs d) (v : Inputs) (t : List Moment) :
      Reached d₀ (v :: vs) ((inject v).after t d)

theorem reached_kept {d₀ d : Disk} {vs : List Inputs} (h : Reached d₀ vs d) (p : EfiPath) :
    Kept (d₀.boot p) (vs.map Inputs.uki) p d := by
  induction h with
  | start => exact ⟨Or.inl rfl, Or.inl rfl⟩
  | @inject vs d h v t ih =>
    have ih' := @Kept.more _ _ _ _ ((v :: vs).map Inputs.uki) ih (List.subset_cons_self _ _)
    rcases after_between (v := v) (d := d) t with he | ⟨-, hb⟩
    · rw [he]
      exact ih'
    · exact hb.kept (List.mem_cons_self) ih'

def sampleInputs (uki : Bytes) : Inputs := { uki, pcrPublicKey := [7], commandLine := some "quiet" }

/-- Two boot paths with different images and no originals. -/
def sampleDisk : Disk where
  boot p := if p = .shim then some [1] else some [2]
  original _ := none
  pending _ := none
  enrolledKey := some [7]

/-- A run that nothing interrupts: how it failed, if it did, and what it left. -/
def sampleRun (uki : Bytes) (d : Disk) : Option Exc × Disk :=
  let ended := (inject (sampleInputs uki)) (List.replicate 42 {}) d
  (match ended.1 with
    | .ok _ => none
    | .error e => some e, ended.2.2)

end Hermes.Injection

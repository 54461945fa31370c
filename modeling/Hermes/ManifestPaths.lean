import Hermes.Manifest

/- The paths of a manifest and where their copies are: no managed path is above another
   one or in the state directory, and no two of a capture's copies are in one place. -/
namespace Hermes.Manifest
open FileTree

/-! ## Names -/

theorem toList_number (n : Nat) : (toString n).toList = Nat.toDigits 10 n := Nat.toList_repr

theorem toString_injective {m n : Nat} (h : toString m = toString n) : m = n := by
  have hd := congrArg (fun s : String => Nat.ofDigitChars 10 s.toList 0) h
  simpa only [toList_number, Nat.ofDigitChars_ten_toDigits] using hd

/-- Long texts are names. -/
theorem named_of_length {c : String} (h : 2 < c.length) : Named c := by
  constructor
  · intro hc
    rw [hc] at h
    exact absurd h (by decide)
  · intro hc
    rw [hc] at h
    exact absurd h (by decide)

theorem named_file (i : Nat) : Named ("file-" ++ toString i) := by
  refine named_of_length ?_
  rw [String.length_append]
  have : "file-".length = 5 := rfl
  omega

theorem named_stamp (clock : String) : Named (clock ++ "Z") := by
  have hlast : ∀ s : String, (clock ++ "Z") = s → s.toList.getLast? = some 'Z' := by
    intro s hs
    rw [← hs, String.toList_append]
    simp
  constructor
  · exact fun h => absurd (hlast _ h) (by decide)
  · exact fun h => absurd (hlast _ h) (by decide)

theorem named_number (n : Nat) : Named (toString n) := by
  have hdigit : ∀ c ∈ (toString n).toList, c.isDigit = true := by
    intro c hc
    rw [toList_number] at hc
    exact Nat.isDigit_of_mem_toDigits (by decide) (by decide) hc
  constructor
  · exact fun h => absurd (hdigit '.' (by rw [h]; decide)) (by decide)
  · exact fun h => absurd (hdigit '.' (by rw [h]; decide)) (by decide)

theorem number_ne_unknown (n : Nat) : toString n ≠ "UNKNOWN" := by
  intro h
  have hdigit : ('U').isDigit = true := by
    refine Nat.isDigit_of_mem_toDigits (b := 10) (n := n) (by decide) (by decide) ?_
    rw [← toList_number, h]
    decide
  exact absurd hdigit (by decide)

/-! ## Copies -/

theorem slot_ne_files (i : Nat) : "file-" ++ toString i ≠ "files" := by
  intro h
  have := congrArg (fun s : String => s.toList[4]?) h
  simp [String.toList_append] at this

theorem slot_injective {dir : Path} {i j : Nat} (h : slot dir i = slot dir j) : i = j := by
  have h' : "file-" ++ toString i = "file-" ++ toString j := by
    simpa [slot] using h
  refine toString_injective (String.toList_inj.mp ?_)
  have := congrArg String.toList h'
  rw [String.toList_append, String.toList_append] at this
  exact List.append_cancel_left this

theorem slot_length {dir : Path} {i : Nat} : (slot dir i).length = dir.length + 1 := by
  simp [slot]

/-- No copy is below another. -/
theorem slot_disjoint {dir s : Path} {i j : Nat} (h : slot dir i <+: slot dir j ++ s) : i = j := by
  refine slot_injective ((List.prefix_of_prefix_length_le h (List.prefix_append _ s) ?_).eq_of_length ?_)
  · rw [slot_length, slot_length]
  · rw [slot_length, slot_length]

/-! ## Managed paths -/

/-- The paths that lines are about; `user` may be the one of no account. -/
inductive Managed : Path → Prop
  | host {p} (h : p ∈ managedPaths) : Managed p
  | sudoers {p} (admin : String) (h : p ∈ sudoersPaths admin) : Managed p
  | quadlet (user : String) (h : Named user) : Managed (quadletPath user)

/-- The first two components of a path of each kind. -/
theorem managedPaths_roots : ∀ p ∈ managedPaths, 2 ≤ p.length ∧ p.head? ≠ some "var" ∧
    p.take 2 ≠ ["etc", "sudoers.d"] ∧ p.take 2 ≠ ["etc", "containers"] ∧
    (∀ c ∈ p, c ≠ "." ∧ c ≠ "..") ∧ isUnknown p = false := by
  decide +kernel

theorem managedPaths_apart : ∀ p ∈ managedPaths, ∀ q ∈ managedPaths, ¬q <+: p.dropLast := by
  decide +kernel

theorem sudoersPaths_roots {admin : String} {p : Path} (h : p ∈ sudoersPaths admin) :
    ∃ name, p = ["etc", "sudoers.d", name] ∧ Named name := by
  simp only [sudoersPaths, List.mem_cons, List.not_mem_nil, or_false] at h
  have hlong : ∀ s : String, 2 < s.length → Named (admin ++ s) := fun s hs =>
    named_of_length (by rw [String.length_append]; omega)
  obtain h | h := h
  · exact ⟨_, h, hlong _ (by decide)⟩
  · exact ⟨_, h, hlong _ (by decide)⟩

namespace Managed

variable {p q : Path}

theorem named (h : Managed p) : ∀ c ∈ p, Named c := by
  cases h with
  | host h => exact (managedPaths_roots p h).2.2.2.2.1
  | sudoers admin h =>
    obtain ⟨name, rfl, hname⟩ := sudoersPaths_roots h
    intro c hc
    simp only [List.mem_cons, List.not_mem_nil, or_false] at hc
    obtain rfl | rfl | rfl := hc
    · exact ⟨by decide, by decide⟩
    · exact ⟨by decide, by decide⟩
    · exact hname
  | quadlet user hu =>
    intro c hc
    simp only [quadletPath, List.mem_cons, List.not_mem_nil, or_false] at hc
    obtain rfl | rfl | rfl | rfl | rfl | rfl := hc
    iterate 4 exact ⟨by decide, by decide⟩
    · exact hu
    · exact ⟨by decide, by decide⟩

/-- No managed path is under `/var`. -/
theorem root (h : Managed p) : ∃ c rest, p = c :: rest ∧ c ≠ "var" := by
  cases h with
  | host h =>
    obtain ⟨hlen, hroot, -⟩ := managedPaths_roots p h
    cases p with
    | nil => exact absurd hlen (by decide)
    | cons c rest => exact ⟨c, rest, rfl, fun hc => hroot (by rw [hc]; rfl)⟩
  | sudoers admin h =>
    obtain ⟨name, rfl, -⟩ := sudoersPaths_roots h
    exact ⟨"etc", _, rfl, by decide⟩
  | quadlet user h => exact ⟨"etc", _, rfl, by decide⟩

theorem ne_nil (h : Managed p) : p ≠ [] := by
  obtain ⟨c, rest, rfl, -⟩ := h.root
  simp

theorem last (h : Managed p) : ∃ c, p = p.dropLast ++ [c] :=
  ⟨_, (List.dropLast_concat_getLast h.ne_nil).symm⟩

/-- Nothing under `/var` is below a managed path. -/
theorem not_prefix_var {rest : Path} (h : Managed p) : ¬p <+: "var" :: rest := by
  obtain ⟨c, s, rfl, hc⟩ := h.root
  exact fun hp => hc (List.cons_prefix_cons.mp hp).1

theorem not_prefix_parent (h : Managed p) : ¬p <+: p.dropLast := by
  intro hp
  have := hp.length_le
  have := List.length_pos_of_ne_nil h.ne_nil
  rw [List.length_dropLast] at *
  omega

/-- What two paths that begin in different places have nothing to do with. -/
theorem take_of_prefix {q r : Path} (h : q <+: r) (hlen : 2 ≤ q.length) : r.take 2 = q.take 2 := by
  obtain ⟨s, rfl⟩ := h
  rw [List.take_append_of_le_length hlen]

/-- A kind of managed paths has its own first two components. -/
theorem roots (h : Managed p) : 2 ≤ p.length ∧ (p ∈ managedPaths ∧ p.take 2 ≠ ["etc", "sudoers.d"] ∧
    p.take 2 ≠ ["etc", "containers"] ∨ p.take 2 = ["etc", "sudoers.d"] ∧ p.length = 3 ∨
    p.take 2 = ["etc", "containers"] ∧ p.length = 6) := by
  cases h with
  | host h =>
    obtain ⟨h₁, -, h₂, h₃, -⟩ := managedPaths_roots p h
    exact ⟨h₁, Or.inl ⟨h, h₂, h₃⟩⟩
  | sudoers admin h =>
    obtain ⟨name, rfl, -⟩ := sudoersPaths_roots h
    exact ⟨by simp, Or.inr (Or.inl ⟨rfl, rfl⟩)⟩
  | quadlet user h => exact ⟨by simp [quadletPath], Or.inr (Or.inr ⟨rfl, rfl⟩)⟩

/-- No managed path is above another. -/
theorem apart (hp : Managed p) (hq : Managed q) : ¬q <+: p.dropLast := by
  intro h
  have hlen := h.length_le
  rw [List.length_dropLast] at hlen
  have htake : p.take 2 = q.take 2 :=
    take_of_prefix (h.trans (List.dropLast_prefix p)) hq.roots.1
  obtain ⟨-, ⟨hp₁, hp₂, hp₃⟩ | ⟨hp₁, hp₂⟩ | ⟨hp₁, hp₂⟩⟩ := hp.roots <;>
    obtain ⟨-, ⟨hq₁, hq₂, hq₃⟩ | ⟨hq₁, hq₂⟩ | ⟨hq₁, hq₂⟩⟩ := hq.roots
  · exact managedPaths_apart p hp₁ q hq₁ h
  · exact hp₂ (htake.trans hq₁)
  · exact hp₃ (htake.trans hq₁)
  · exact hq₂ (htake.symm.trans hp₁)
  · omega
  · exact absurd (hp₁.symm.trans (htake.trans hq₁)) (by decide)
  · exact hq₃ (htake.symm.trans hp₁)
  · exact absurd (hp₁.symm.trans (htake.trans hq₁)) (by decide)
  · omega

end Managed

theorem isUnknown_quadlet {user : String} : isUnknown (quadletPath user) = true ↔ user = "UNKNOWN" := by
  constructor
  · intro h
    have := List.isSuffixOf_iff_suffix.mp h
    obtain ⟨pre, hpre⟩ := this
    have := congrArg (fun l : List String => l.reverse[1]?) hpre
    simp [quadletPath] at this
    exact this.symm
  · rintro rfl
    decide

theorem isUnknown_sudoers {admin : String} {p : Path} (h : p ∈ sudoersPaths admin) :
    isUnknown p = false := by
  obtain ⟨name, rfl, -⟩ := sudoersPaths_roots h
  simp [isUnknown, List.isSuffixOf, List.isPrefixOf]

end Hermes.Manifest

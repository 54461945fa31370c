import Hermes.TransactionInventory

/- The names of archive members (`release.safe_name`) and those of the packages that a
   transaction brings: the characters of package names are not all characters of member
   names (`safeName_package_iff`). -/
namespace Hermes.Release
open Outcome Transaction

/-- `[A-Za-z0-9_./+^-]` -/
def isArchiveChar (c : Char) : Bool := isAlnum c || "_./+^-".toList.contains c

def prefixes : List String := ["payload/", "packages/", "boot/", "evidence/"]

def safeName (name : String) : Except Exc String := do
  demand (!name.toList.isEmpty && name.toList.all isArchiveChar) "unsafe-archive-path"
  let path := PurePath.parse name
  demand (!path.isAbsolute && path.str == name && path.parts.all fun part => part != "." && part != "..")
    "unsafe-archive-path"
  demand (prefixes.any (startsWith name)) "unexpected-archive-path"
  pure name

theorem safeName_ok {name s : String} (h : safeName name = .ok s) :
    s = name ∧ name.toList.all isArchiveChar = true ∧ (PurePath.parse name).isAbsolute = false ∧
      (PurePath.parse name).str = name ∧ (∀ part ∈ (PurePath.parse name).parts, part ≠ "." ∧ part ≠ "..") ∧
      prefixes.any (startsWith name) = true := by
  obtain ⟨_, hchars, h⟩ := bind_eq_ok.mp h
  obtain ⟨_, hpath, h⟩ := bind_eq_ok.mp h
  obtain ⟨_, hinitial, h⟩ := bind_eq_ok.mp h
  cases h
  rw [demand_ok] at hchars hpath hinitial
  simp only [Bool.and_eq_true, Bool.not_eq_true', beq_iff_eq, List.all_eq_true, bne_iff_ne] at hchars hpath
  exact ⟨rfl, List.all_eq_true.mpr hchars.2, hpath.1.1, hpath.1.2, hpath.2, hinitial⟩

/-! ## Packages -/

/-- `<name>-<version>-<release>.<arch>.rpm` -/
def packageFile (n : Nevra) : List Char :=
  n.name ++ '-' :: (n.version ++ '-' :: (n.release ++ '.' :: (n.arch ++ ".rpm".toList)))

/-- `prepare` puts the transaction's directory, with its `packages`, under `packages`. -/
def packageMember (n : Nevra) : String := PurePath.joined ["packages", "packages", String.ofList (packageFile n)]

/-- The characters of package names that no member name has. -/
def refused : List Char := ['~', '%', ':', '(', ')']

/-- A character of an accepted package name is one of a member name, or refused there. -/
theorem package_char {c : Char} (h : isNevraChar c = true ∨ isHexDigit c = true ∨ c ∈ keyChars) :
    c ≠ '/' ∧ (c ∉ refused → isArchiveChar c = true) := by
  have halnum : ∀ d, isAlnum d = true → d ≠ '/' ∧ (d ∉ refused → isArchiveChar d = true) := by
    intro d hd
    refine ⟨?_, fun _ => by simp [isArchiveChar, hd]⟩
    rintro rfl
    exact absurd hd (by decide)
  rcases h with h | h | h
  · rw [isNevraChar, Bool.or_eq_true, List.contains_iff_mem] at h
    rcases h with h | h
    · exact halnum c h
    · have hall : ∀ d ∈ "+_.:~^%-".toList, d ≠ '/' ∧ (d ∉ refused → isArchiveChar d = true) :=
        forall_of_all (by decide)
      exact hall c h
  · apply halnum
    simp only [isHexDigit, Bool.or_eq_true, Bool.and_eq_true, decide_eq_true_eq] at h
    rcases h with h | h
    · simp [isAlnum, h]
    · have hz : c ≤ 'z' := le_trans h.2 (by decide)
      simp [isAlnum, h.1, hz]
  · have hall : ∀ d ∈ keyChars, d ≠ '/' ∧ (d ∉ refused → isArchiveChar d = true) :=
        forall_of_all (by decide)
    exact hall c h

theorem packageFile_chars {t s : String} {n : Nevra} (h : Transaction.normalize (.str t) = .ok s)
    (hn : parseNevra t.toList = .ok n) :
    ∀ c ∈ packageFile n, c ≠ '/' ∧ (c ∉ refused → isArchiveChar c = true) := by
  obtain ⟨t', _, ht, hchars, _, _⟩ := normalize_ok h
  cases ht
  obtain ⟨_, _, _, _, _, hsub⟩ := parseNevra_ok hn
  have hall : ∀ c ∈ t.toList, c ≠ '/' ∧ (c ∉ refused → isArchiveChar c = true) := by
    intro c hc
    rcases hchars with hnevra | hkey
    · exact package_char (Or.inl (List.all_eq_true.mp hnevra.2 c hc))
    · exact package_char (Or.inr (isSigningKey_chars hkey c hc))
  have hlit : ∀ c ∈ '-' :: ".rpm".toList, c ≠ '/' ∧ (c ∉ refused → isArchiveChar c = true) :=
    forall_of_all (by decide)
  intro c hc
  simp only [packageFile, List.mem_append, List.mem_cons] at hc
  rcases hc with hc | rfl | hc | rfl | hc | rfl | hc | hc
  · exact hall c (hsub c (Or.inl hc))
  · exact hlit _ (by simp)
  · exact hall c (hsub c (Or.inr (Or.inl hc)))
  · exact hlit _ (by simp)
  · exact hall c (hsub c (Or.inr (Or.inr (Or.inl hc))))
  · exact hlit _ (by decide)
  · exact hall c (hsub c (Or.inr (Or.inr (Or.inr hc))))
  · exact hlit c (List.mem_cons_of_mem _ hc)

theorem packageFile_length (n : Nevra) : 6 < (packageFile n).length := by
  simp only [packageFile, List.length_append, List.length_cons]
  have : ".rpm".toList.length = 4 := by decide
  omega

theorem startsWith_of_append {text start : String} {rest : List Char} (h : text.toList = start.toList ++ rest) :
    startsWith text start = true := by
  rw [startsWith, h, ← String.length_toList, List.take_left, beq_self_eq_true]

/-- **Member names.** The name of a package that a transaction may bring is accepted exactly if
    it has none of the characters that only the grammar of packages has. -/
theorem safeName_package_iff {t s : String} {n : Nevra} (h : Transaction.normalize (.str t) = .ok s)
    (hn : parseNevra t.toList = .ok n) :
    safeName (packageMember n) = .ok (packageMember n) ↔ ∀ c ∈ packageFile n, c ∉ refused := by
  have hfile := packageFile_chars h hn
  have hlength := packageFile_length n
  have htext : (packageMember n).toList = "packages/packages/".toList ++ packageFile n := by
    rw [packageMember, PurePath.joined, String.toList_ofList]
    simp [List.intercalate]
  constructor
  · intro hsafe c hc hr
    obtain ⟨_, hchars, _⟩ := safeName_ok hsafe
    have hchar := List.all_eq_true.mp hchars c (by rw [htext]; exact List.mem_append_right _ hc)
    have hno : ∀ d ∈ refused, isArchiveChar d = false := forall_of_all (by decide)
    exact absurd ((hno c hr).symm.trans hchar) (by decide)
  · intro hnone
    -- the path of the member is its three names
    have hnames : (PurePath.parse (packageMember n)).names = ["packages", "packages", String.ofList (packageFile n)] := by
      refine PurePath.names_parse_joined (by simp) ?_
      intro m hm
      simp only [List.mem_cons, List.not_mem_nil, or_false, or_self_left] at hm
      rcases hm with rfl | rfl
      · decide
      · rw [String.toList_ofList]
        refine ⟨?_, fun hslash => (hfile _ hslash).1 rfl⟩
        have hne : packageFile n ≠ [] ∧ packageFile n ≠ ['.'] :=
          ⟨fun he => by simp [he] at hlength, fun he => by simp [he] at hlength⟩
        simp [PurePath.isName, hne.1, hne.2]
    have hroot : (PurePath.parse (packageMember n)).root = "" := by
      apply PurePath.parse_relative
      have hhead : (packageMember n).toList.head? = some 'p' := by rw [htext]; rfl
      simp [hhead]
    have hparts : (PurePath.parse (packageMember n)).parts = ["packages", "packages", String.ofList (packageFile n)] := by
      rw [PurePath.parts, if_pos hroot, hnames]
    have hdots : String.ofList (packageFile n) ≠ "." ∧ String.ofList (packageFile n) ≠ ".." := by
      constructor
      · intro he
        have := congrArg (fun s => s.toList.length) he
        simp only [String.toList_ofList] at this
        have hone : ".".toList.length = 1 := by decide
        omega
      · intro he
        have := congrArg (fun s => s.toList.length) he
        simp only [String.toList_ofList] at this
        have htwo : "..".toList.length = 2 := by decide
        omega
    have hchars : (packageMember n).toList.all isArchiveChar = true := by
      rw [htext, List.all_append, Bool.and_eq_true, List.all_eq_true, List.all_eq_true]
      exact ⟨forall_of_all (by decide), fun c hc => (hfile c hc).2 (hnone c hc)⟩
    have hinitial : prefixes.any (startsWith (packageMember n)) = true := by
      rw [List.any_eq_true]
      refine ⟨"packages/", by decide, ?_⟩
      exact (@startsWith_of_append _ _ ("packages/".toList ++ packageFile n)) htext
    have hstr : (PurePath.parse (packageMember n)).str = packageMember n := by
      rw [PurePath.str, if_neg (by rw [hparts]; simp), hroot, hnames, packageMember]
      simp
    have hfirst : (!(packageMember n).toList.isEmpty && (packageMember n).toList.all isArchiveChar) = true := by
      rw [hchars, htext]
      rfl
    have hsecond : (!(PurePath.parse (packageMember n)).isAbsolute &&
        (PurePath.parse (packageMember n)).str == packageMember n &&
        (PurePath.parse (packageMember n)).parts.all fun part => part != "." && part != "..") = true := by
      simp [PurePath.isAbsolute, hroot, hstr, hparts, hdots.1, hdots.2]
    simp only [safeName, hfirst, hsecond, hinitial]
    rfl

def sampleNevra (version : String) : Nevra := ⟨"podman".toList, 5, version.toList, "1.fc44".toList, "x86_64".toList⟩

theorem safeName_plain : safeName (packageMember (sampleNevra "5.6.0")) = .ok (packageMember (sampleNevra "5.6.0")) :=
  (safeName_package_iff (t := "podman-5:5.6.0-1.fc44.x86_64") (s := "podman-5:5.6.0-1.fc44.x86_64") (by rfl) (by rfl)).mpr
    (forall_of_all (by decide))

/-- The transaction installs a release candidate. -/
def tildeTransaction : Json :=
  .obj [("version", .str "1.0"), ("rpms", .arr [.obj [("action", .str "Install"),
    ("nevra", .str "podman-5:5.6.0~rc1-1.fc44.x86_64"),
    ("package_path", .str "./packages/podman-5.6.0~rc1-1.fc44.x86_64.rpm")]])]

/-- The transaction is accepted, the name of its member is not. -/
theorem tilde_refused :
    Transaction.normalize (.str "podman-5:5.6.0~rc1-1.fc44.x86_64") = .ok "podman-5:5.6.0~rc1-1.fc44.x86_64" ∧
      expectedInventory tildeTransaction "base-0:1-1.x86_64\n" =
        .ok ("base-0:1-1.x86_64\npodman-5:5.6.0~rc1-1.fc44.x86_64\n",
          [("packages/podman-5.6.0~rc1-1.fc44.x86_64.rpm", "podman-5:5.6.0~rc1-1.fc44.x86_64")]) ∧
      packageMember (sampleNevra "5.6.0~rc1") = "packages/packages/podman-5.6.0~rc1-1.fc44.x86_64.rpm" ∧
      safeName "packages/packages/podman-5.6.0~rc1-1.fc44.x86_64.rpm" = .error (.failure 78 "unsafe-archive-path") :=
  ⟨by rfl, by rfl, by decide, by rfl⟩

end Hermes.Release

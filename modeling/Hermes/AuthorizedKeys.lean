import Mathlib.Data.List.TakeWhile
import Mathlib.Tactic.ByContra
import Mathlib.Tactic.SplitIfs
import Hermes.Library.Awk

/- The key that the console setup installs (`setup-ssh-key-only.sh`): `read_key`, the `awk`
   program of `install_key` and what it writes at the end of `authorized_keys`, beside the
   reading that sshd makes of the same file. The script runs in the locale C, so a character is
   a byte. What OpenSSH decides by decoding is a parameter. The two readers of the file split
   it differently: the program looks for two words side by side, sshd for an entry. -/
namespace Hermes.AuthorizedKeys
open Awk

/-! ## Reading the key -/

/-- `$key`, `$key_type` and `$key_blob` -/
structure PublicKey where
  line : List Char
  type : List Char
  blob : List Char
  deriving DecidableEq, Repr

def keyTypes : List String :=
  ["ssh-ed25519", "ssh-rsa", "ecdsa-sha2-nistp256", "ecdsa-sha2-nistp384", "ecdsa-sha2-nistp521",
    "sk-ssh-ed25519@openssh.com", "sk-ecdsa-sha2-nistp256@openssh.com"]

/-- `$(cat -- FILE)`: without null bytes and without newlines at the end. -/
def substitution (content : List Char) : List Char :=
  ((content.filter (· ≠ '\x00')).reverse.dropWhile (· = '\n')).reverse

/-- `read_key`, with the content of the file where it can be read. -/
def readKey (keygen : List Char → Bool) (file : Option (List Char)) : Except String PublicKey :=
  match file with
  | none => .error "Public-key file is not readable"
  | some content =>
    if content.length > 16384 then .error "Public-key file is too large"
    else
      let key := substitution content
      if '\n' ∈ key ∨ '\r' ∈ key then .error "Supply exactly one public-key line"
      else
        let keyType := dollar 1 key
        let keyBlob := dollar 2 key
        if String.ofList keyType ∉ keyTypes then
          .error "Expected a plain OpenSSH public key, without options; private keys are forbidden"
        else if !keygen key then .error "Invalid public key"
        else .ok { line := key, type := keyType, blob := keyBlob }

/-! ## Installing it -/

/-- `[[:space:]]` -/
def isSpace (c : Char) : Bool := c ∈ [' ', '\t', '\n', '\x0b', '\x0c', '\r']

/-- `/^[[:space:]]*#/` -/
def isComment (line : List Char) : Bool := (line.dropWhile isSpace).head? == some '#'

/-- The action of the program. A type and a blob are no numbers and hold no backslash, so `-v`
    and `==` take them as they are. -/
def holdsPair (type blob line : List Char) : Bool :=
  !isComment line && ((fields line).zip (fields line).tail).contains (type, blob)

/-- The `awk` program of `install_key`. -/
def hasPair (type blob content : List Char) : Bool := (records content []).any (holdsPair type blob)

/-- With a newline at the end, where there is a last line. -/
def terminated (content : List Char) : List Char :=
  if content ≠ [] ∧ content.getLast? ≠ some '\n' then content ++ ['\n'] else content

/-- `install_key`, of the content of `authorized_keys`; a file that is not there is made empty. -/
def installKey (key : PublicKey) (content : List Char) : List Char :=
  if hasPair key.type key.blob content then content else terminated content ++ (key.line ++ ['\n'])

/-! ## The grammar of sshd -/

section Grammar

variable {κ : Type}

/-- What sshd decides by decoding: the key of a type and a text, where the text is base64 (white
    space in it is skipped) for a key of that type, and whether the options that a line
    starts with are options. -/
structure Sshd (κ : Type) where
  sshkey : List Char → List Char → Option κ
  nonempty : ∀ type, sshkey type [] = none
  options : List Char → Bool

structure Entry (κ : Type) where
  restricted : Bool
  key : κ
  deriving DecidableEq, Repr

/-- `sshkey_read`: a type, blanks, and the text of the key. -/
def Sshd.keyRead (sshd : Sshd κ) (line : List Char) : Option κ :=
  let type := line.takeWhile fun c => !isBlank c
  let text := ((line.dropWhile fun c => !isBlank c).dropWhile isBlank).takeWhile fun c => !isBlank c
  if text = [] then none else sshd.sshkey type text

/-- `sshkey_advance_past_options`: to the first blank outside quotes. -/
def pastOptions : Bool → List Char → Option (List Char)
  | quoted, [] => if quoted then none else some []
  | quoted, '\\' :: '"' :: cs => pastOptions quoted cs
  | quoted, c :: cs =>
    if !quoted && isBlank c then some (c :: cs) else pastOptions (if c = '"' then !quoted else quoted) cs

/-- The entry of a line, which ends at a null byte. -/
def Sshd.entryOf (sshd : Sshd κ) (line : List Char) : Option (Entry κ) :=
  let line := (line.takeWhile (· ≠ '\x00')).dropWhile isBlank
  if line = [] ∨ line.head? = some '#' then none
  else
    match sshd.keyRead line with
    | some key => some { restricted := false, key }
    | none => do
      let rest ← pastOptions false line
      let key ← sshd.keyRead (rest.dropWhile isBlank)
      if sshd.options line then some { restricted := true, key } else none

def Sshd.entries (sshd : Sshd κ) (content : List Char) : List (Entry κ) :=
  (records content []).filterMap sshd.entryOf

/-- The entries that let the key in without restrictions. -/
def Sshd.plain [DecidableEq κ] (sshd : Sshd κ) (k : κ) (content : List Char) : List (Entry κ) :=
  (sshd.entries content).filter fun e => !e.restricted && e.key = k

/-! ## The two readers on a key's own line -/

/-- What is known of a key that `read_key` took. -/
structure Taken (key : PublicKey) : Prop where
  oneLine : '\n' ∉ key.line
  noNull : '\x00' ∉ key.line
  type : key.type = dollar 1 key.line
  blob : key.blob = dollar 2 key.line
  plain : String.ofList key.type ∈ keyTypes

theorem substitution_noNull {c : Char} {content : List Char} (h : c ∈ substitution content) : c ≠ '\x00' := by
  simp only [substitution, List.mem_reverse] at h
  have hmem : c ∈ content.filter (· ≠ '\x00') := List.mem_reverse.mp ((List.dropWhile_sublist _).subset h)
  simpa using (List.mem_filter.mp hmem).2

theorem readKey_taken {keygen : List Char → Bool} {file : Option (List Char)} {key : PublicKey}
    (h : readKey keygen file = .ok key) : Taken key := by
  unfold readKey at h
  split at h
  · cases h
  · next content =>
    dsimp only at h
    split_ifs at h with _ hline htype
    cases h
    exact {
      oneLine := fun hmem => hline (.inl hmem)
      noNull := fun hmem => substitution_noNull hmem rfl
      type := rfl
      blob := rfl
      plain := by simpa using htype }

/-- sshd reads the first two words of a line. -/
theorem keyRead_words (sshd : Sshd κ) (line : List Char) :
    sshd.keyRead (line.dropWhile isBlank) = sshd.sshkey (dollar 1 line) (dollar 2 line) := by
  rw [Sshd.keyRead, ← dollar_one, ← dollar_one, ← dollar_two]
  split_ifs with hempty
  · rw [hempty, sshd.nonempty]
  · rfl

theorem type_head {type : List Char} (h : String.ofList type ∈ keyTypes) : type.head? = some 's' ∨ type.head? = some 'e' := by
  have hall : ∀ t ∈ keyTypes, t.toList.head? = some 's' ∨ t.toList.head? = some 'e' := by decide
  simpa using hall _ h

/-- A key's line starts, after its blanks, with the letter of its type. -/
theorem Taken.start {key : PublicKey} (h : Taken key) :
    ∃ c rest, key.line.dropWhile isBlank = c :: rest ∧ (c = 's' ∨ c = 'e') := by
  have hhead := type_head h.plain
  rw [h.type, dollar_one] at hhead
  cases hline : key.line.dropWhile isBlank with
  | nil => simp [hline] at hhead
  | cons c rest =>
    have hc := head_of_dropWhile hline
    refine ⟨c, rest, rfl, ?_⟩
    simpa [hline, hc] using hhead

theorem Taken.entryOf {key : PublicKey} (h : Taken key) {sshd : Sshd κ} {k : κ}
    (hk : sshd.sshkey key.type key.blob = some k) : sshd.entryOf key.line = some { restricted := false, key := k } := by
  obtain ⟨c, rest, hstart, hc⟩ := h.start
  have hnull : key.line.takeWhile (· ≠ '\x00') = key.line := by
    rw [List.takeWhile_eq_self_iff]
    intro d hd
    exact decide_eq_true fun hnull => h.noNull (hnull ▸ hd)
  have hread : sshd.keyRead (key.line.dropWhile isBlank) = some k := by rw [keyRead_words, ← h.type, ← h.blob, hk]
  have hcomment : ¬ (c :: rest = [] ∨ (c :: rest).head? = some '#') := by
    rcases hc with rfl | rfl <;> simp
  rw [hstart] at hread
  unfold Sshd.entryOf
  rw [hnull, hstart]
  dsimp only
  rw [if_neg hcomment, hread]

/-- A letter ends the white space as it ends the blanks. -/
theorem dropWhile_space {line rest : List Char} {c : Char} (h : line.dropWhile isBlank = c :: rest)
    (hc : isSpace c = false) : line.dropWhile isSpace = c :: rest := by
  induction line with
  | nil => simp at h
  | cons d line ih =>
    by_cases hd : isBlank d = true
    · have hspace : isSpace d = true := by
        simp only [isBlank, Bool.or_eq_true, beq_iff_eq] at hd
        rcases hd with rfl | rfl <;> rfl
      rw [List.dropWhile_cons_of_pos hd] at h
      rw [List.dropWhile_cons_of_pos hspace, ih h]
    · rw [List.dropWhile_cons_of_neg hd] at h
      cases h
      exact List.dropWhile_cons_of_neg (by simp [hc])

theorem Taken.holdsPair {key : PublicKey} (h : Taken key) (hblob : key.blob ≠ []) :
    holdsPair key.type key.blob key.line = true := by
  obtain ⟨c, rest, hstart, hc⟩ := h.start
  have hcomment : isComment key.line = false := by
    have hspace : isSpace c = false := by rcases hc with rfl | rfl <;> decide
    rw [isComment, dropWhile_space hstart hspace]
    rcases hc with rfl | rfl <;> rfl
  rw [h.blob] at hblob
  rw [AuthorizedKeys.holdsPair, hcomment, h.type, h.blob]
  simpa using adjacent_fields hblob

/-! ## The file after the line is added -/

theorem records_terminated (content rest : List Char) :
    records (terminated content ++ rest) [] = records content [] ++ records rest [] := by
  unfold terminated
  split_ifs with hlast
  · rw [List.append_assoc, List.singleton_append, records_newline, records_ended (by simpa using hlast.1) hlast.2]
  · rcases List.eq_nil_or_concat content with rfl | ⟨text, d, rfl⟩
    · rfl
    · have hd : d = '\n' := by simpa using hlast
      subst hd
      rw [List.concat_eq_append, List.append_assoc, List.singleton_append, records_newline]

theorem content_terminated (content : List Char) : content <+: terminated content := by
  unfold terminated
  split_ifs
  · exact List.prefix_append _ _
  · exact List.prefix_rfl

/-- A line is added, or nothing is done. -/
theorem records_installKey {key : PublicKey} (h : Taken key) (content : List Char) :
    records (installKey key content) [] =
      if hasPair key.type key.blob content then records content [] else records content [] ++ [key.line] := by
  unfold installKey
  split_ifs
  · rfl
  · rw [records_terminated, records_line h.oneLine]
    rfl

theorem entries_installKey {key : PublicKey} (h : Taken key) {sshd : Sshd κ} {k : κ}
    (hk : sshd.sshkey key.type key.blob = some k) {content : List Char} (hpair : ¬ hasPair key.type key.blob content = true) :
    sshd.entries (installKey key content) = sshd.entries content ++ [{ restricted := false, key := k }] := by
  rw [Sshd.entries, records_installKey h, if_neg hpair, List.filterMap_append, List.filterMap_cons, h.entryOf hk]
  rfl

/-- The key is installed, and nothing else is disturbed. -/
structure Installs [DecidableEq κ] (sshd : Sshd κ) (key : PublicKey) (content : List Char) : Prop where
  installed : ∃ k, sshd.sshkey key.type key.blob = some k ∧ ∃ e ∈ sshd.entries (installKey key content), e.key = k
  bytes : content <+: installKey key content
  entries : sshd.entries content <+: sshd.entries (installKey key content)
  narrow : ∀ k, sshd.sshkey key.type key.blob = some k →
    (∃ e ∈ sshd.entries content, e.key = k ∧ e.restricted = true) →
      sshd.plain k (installKey key content) = sshd.plain k content
  again : installKey key (installKey key content) = installKey key content

/-- The words of the file name a key, and both readers agree on whether it is there already. -/
structure Agree (sshd : Sshd κ) (key : PublicKey) (content : List Char) (k : κ) : Prop where
  decodes : sshd.sshkey key.type key.blob = some k
  present : hasPair key.type key.blob content = true → ∃ e ∈ sshd.entries content, e.key = k
  restricted : (∃ e ∈ sshd.entries content, e.key = k ∧ e.restricted = true) →
    hasPair key.type key.blob content = true

theorem hasPair_installKey {key : PublicKey} (h : Taken key) (hblob : key.blob ≠ []) (content : List Char) :
    hasPair key.type key.blob (installKey key content) = true := by
  by_cases hpair : hasPair key.type key.blob content = true
  · rwa [installKey, if_pos hpair]
  · rw [hasPair, records_installKey h, if_neg hpair, List.any_append, List.any_cons, h.holdsPair hblob]
    simp

theorem bytes_installKey (key : PublicKey) (content : List Char) : content <+: installKey key content := by
  unfold installKey
  split_ifs
  · exact List.prefix_rfl
  · exact (content_terminated content).trans (List.prefix_append _ _)

/-- `install_key` does what it promises on exactly the files on which the two readers agree. -/
theorem installs_iff [DecidableEq κ] (sshd : Sshd κ) {keygen : List Char → Bool} {file : Option (List Char)} {key : PublicKey}
    (hread : readKey keygen file = .ok key) (content : List Char) :
    Installs sshd key content ↔ ∃ k, Agree sshd key content k := by
  have htaken := readKey_taken hread
  constructor
  · intro h
    obtain ⟨k, hk, hentry⟩ := h.installed
    refine ⟨k, hk, fun hpair => ?_, fun hrestricted => ?_⟩
    · rwa [installKey, if_pos hpair] at hentry
    · -- otherwise an entry without restrictions would have come in
      by_contra hpair
      have hplain := h.narrow k hk hrestricted
      rw [Sshd.plain, entries_installKey htaken hk hpair, List.filter_append] at hplain
      simp [Sshd.plain] at hplain
  · rintro ⟨k, hk, hpresent, hrestricted⟩
    have hblob : key.blob ≠ [] := by
      intro hempty
      rw [hempty, sshd.nonempty] at hk
      cases hk
    by_cases hpair : hasPair key.type key.blob content = true
    · have hsame : installKey key content = content := if_pos hpair
      refine ⟨⟨k, hk, ?_⟩, ?_, ?_, ?_, ?_⟩
      · rw [hsame]
        exact hpresent hpair
      · exact bytes_installKey key content
      · have hentries : sshd.entries (installKey key content) = sshd.entries content := by rw [hsame]
        exact hentries ▸ List.prefix_rfl
      · intro _ _ _
        rw [hsame]
      · rw [hsame, hsame]
    · have hentries := entries_installKey htaken hk hpair
      refine ⟨⟨k, hk, ⟨_, by rw [hentries]; exact List.mem_concat_self, rfl⟩⟩, bytes_installKey key content, ?_, ?_, ?_⟩
      · rw [hentries]
        exact List.prefix_append _ _
      · intro k' hk' hexists
        obtain rfl : k = k' := by simpa using hk.symm.trans hk'
        exact absurd (hrestricted hexists) hpair
      · exact if_pos (hasPair_installKey htaken hblob content)

end Grammar

/-! ## Two files on which the readers differ -/

namespace Sample

def admin : List Char := "AAAAC3NzaC1lZDI1NTE5AAAAIOMqqnkVzrm0SdG6UOoqKLsabgH5C9okWi0dh2l9GKJl".toList
def other : List Char := "AAAAC3NzaC1lZDI1NTE5AAAAIAcICQoLDA0ODxAREhMUFRYXGBkaGxwdHh8gISIjJCUm".toList

/-- sshd, where only these two keys are known. -/
def sshd : Sshd (List Char) where
  sshkey type text :=
    let base64 := text.filter fun c => !isSpace c
    if type = "ssh-ed25519".toList ∧ base64 ∈ [admin, other] then some base64 else none
  nonempty := fun _ => if_neg fun h => absurd h.2 (by decide)
  options line := "restrict".toList.isPrefixOf line || "command=".toList.isPrefixOf line

def file : List Char := "ssh-ed25519 ".toList ++ admin ++ " admin@console\n".toList

def key : PublicKey where
  line := "ssh-ed25519 ".toList ++ admin ++ " admin@console".toList
  type := "ssh-ed25519".toList
  blob := admin

/-- The key's text stands inside the quoted command of another key. -/
def quoted : List Char :=
  "command=\"/usr/local/bin/refuse ssh-ed25519 ".toList ++ admin ++ " expired\" ssh-ed25519 ".toList ++ other ++ "\n".toList

/-- The key is there with a restriction, on a line that ends in CR LF. -/
def crlf : List Char := "restrict ssh-ed25519 ".toList ++ admin ++ "\r\n".toList

theorem read_file : readKey (fun _ => true) (some file) = .ok key := by decide +kernel

end Sample

/-- The key is not installed, or it is let in without its restriction. -/
theorem leaves_out_or_widens :
    readKey (fun _ => true) (some Sample.file) = .ok Sample.key ∧
      ¬ Installs Sample.sshd Sample.key Sample.quoted ∧ ¬ Installs Sample.sshd Sample.key Sample.crlf := by
  refine ⟨Sample.read_file, fun h => ?_, fun h => ?_⟩
  · have hentries : Sample.sshd.entries (installKey Sample.key Sample.quoted) = [{ restricted := true, key := Sample.other }] := by
      decide +kernel
    obtain ⟨k, hk, e, he, hkey⟩ := h.installed
    have hadmin : Sample.sshd.sshkey Sample.key.type Sample.key.blob = some Sample.admin := by decide +kernel
    rw [hentries, List.mem_singleton] at he
    subst he
    have hsame : Sample.other = Sample.admin := hkey.trans (by simpa using (hk.symm.trans hadmin))
    exact absurd hsame (by decide +kernel)
  · have hadmin : Sample.sshd.sshkey Sample.key.type Sample.key.blob = some Sample.admin := by decide +kernel
    have hrestricted : Sample.sshd.entries Sample.crlf = [{ restricted := true, key := Sample.admin }] := by decide +kernel
    have hplain := h.narrow Sample.admin hadmin ⟨_, hrestricted ▸ List.mem_singleton_self _, rfl, rfl⟩
    exact absurd hplain (by decide +kernel)

/-- On a file that holds the key with a restriction and a comment the readers agree. -/
theorem installs_iff_commented :
    Installs Sample.sshd Sample.key ("restrict ssh-ed25519 ".toList ++ Sample.admin ++ " admin\n".toList) :=
  (installs_iff Sample.sshd Sample.read_file _).mpr
    ⟨Sample.admin, by decide +kernel, fun _ => ⟨{ restricted := true, key := Sample.admin }, by decide +kernel, rfl⟩,
      fun _ => by decide +kernel⟩

end Hermes.AuthorizedKeys

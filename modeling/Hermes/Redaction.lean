import Mathlib.Data.List.Sort
import Hermes.Text
import Hermes.Library.Replacement

/- The redaction of output (`manual/redact-stream.py`). The environment file and the input are
   the decoded texts; a file that cannot be opened holds no secret. -/
namespace Hermes.Redaction
open Replacement

/-! ## The code -/

def secretKeys : List String :=
  ["TELEGRAM_BOT_TOKEN=", "TELEGRAM_ALLOWED_USERS=", "OPENAI_API_KEY=", "DEEPSEEK_API_KEY=", "OPENROUTER_API_KEY=",
    "API_SERVER_KEY=", "SUDO_PASSWORD="]

def minSecretLength : Nat := 8

def placeholder : List Char := "[REDACTED]".toList

/-- The lines of a text file, `line` holding the current one backwards. -/
def fileLines : List Char → List Char → List (List Char)
  | [], [] => []
  | [], line => [line.reverse]
  | '\r' :: '\n' :: cs, line => line.reverse :: fileLines cs []
  | c :: cs, line => if c = '\n' ∨ c = '\r' then line.reverse :: fileLines cs [] else fileLines cs (c :: line)

/-- `line.split("=", 1)[1].strip()` -/
def valueOf (line : List Char) : List Char := stripChars ((line.dropWhile (· ≠ '=')).drop 1)

/-- The secrets of one line: one for each key that it starts with. -/
def lineSecrets (line : List Char) : List (List Char) :=
  ((secretKeys.filter fun key => key.toList.isPrefixOf line).map fun _ => valueOf line).filter
    fun value => minSecretLength ≤ value.length

def collectSecrets (env : Option (List Char)) : List (List Char) :=
  match env with
  | none => []
  | some text => (fileLines text []).flatMap lineSecrets

/-- `sorted(secrets, key=len, reverse=True)` -/
def longestFirst (secrets : List (List Char)) : List (List Char) :=
  secrets.insertionSort fun a b => b.length ≤ a.length

/-- `data.replace(value, PLACEHOLDER)` -/
def replaceSecret (value data : List Char) : List Char := replaceFrom value placeholder data 0

/-- `main`, from the input to the output -/
def redact (env : Option (List Char)) (data : List Char) : List Char :=
  (longestFirst (collectSecrets env)).foldl (fun data value => replaceSecret value data) data

/-! ## `str.replace` -/

theorem replaceFrom_skip (old new : List Char) : ∀ (skip : Nat) (cs : List Char), skip ≤ cs.length →
    replaceFrom old new cs skip = replaceFrom old new (cs.drop skip) 0
  | 0, _, _ => rfl
  | skip + 1, [], h => by simp at h
  | skip + 1, _ :: cs, h => by
    rw [replaceFrom, List.drop_succ_cons]
    exact replaceFrom_skip old new skip cs (by simpa using h)

/-- A match is replaced and the rest searched from there. -/
theorem replaceFrom_hit {old new t : List Char} (hold : old ≠ []) :
    replaceFrom old new (old ++ t) 0 = new ++ replaceFrom old new t 0 := by
  cases old with
  | nil => exact absurd rfl hold
  | cons c old =>
    have hmatch : (c :: old).isPrefixOf (c :: (old ++ t)) = true := List.isPrefixOf_iff_prefix.mpr (List.prefix_append _ _)
    rw [List.cons_append, replaceFrom, if_pos hmatch, List.length_cons, Nat.add_sub_cancel,
      replaceFrom_skip _ _ _ _ (by simp), List.drop_left]

/-- `str.replace` replaces the matches from the left. -/
theorem replaced_replaceFrom {old : List Char} (new : List Char) (hold : old ≠ []) (data : List Char) :
    Replaced new old data (replaceFrom old new data 0) := by
  have hempty : ¬old <:+: [] := fun h => hold (List.infix_nil.mp h)
  -- after a match the text that is left is shorter by more than one character
  induction hn : data.length using Nat.strong_induction_on generalizing data with
  | _ n ih =>
    subst hn
    by_cases hmatch : old <+: data
    · obtain ⟨t, rfl⟩ := hmatch
      have hlength : t.length < (old ++ t).length := by
        have hpos := List.length_pos_iff.mpr hold
        rw [List.length_append]
        omega
      rw [replaceFrom_hit hold]
      exact .hit [] hempty (ih t.length hlength t rfl)
    · cases data with
      | nil => exact .rest [] hempty
      | cons c cs =>
        have hno : old.isPrefixOf (c :: cs) = false := by
          rw [Bool.eq_false_iff, ne_eq, List.isPrefixOf_iff_prefix]
          exact hmatch
        rw [replaceFrom, hno, if_neg Bool.false_ne_true]
        exact (ih cs.length (by simp) cs rfl).cons hmatch

/-! ## The secrets -/

theorem mem_longestFirst {secrets : List (List Char)} {v : List Char} : v ∈ longestFirst secrets ↔ v ∈ secrets := by
  rw [longestFirst, List.mem_insertionSort]

theorem collectSecrets_length {env : Option (List Char)} : ∀ v ∈ collectSecrets env, minSecretLength ≤ v.length := by
  intro v hv
  unfold collectSecrets at hv
  split at hv
  · cases hv
  · obtain ⟨line, _, hline⟩ := List.mem_flatMap.mp hv
    simpa using (List.mem_filter.mp hline).2

theorem collectSecrets_ne {env : Option (List Char)} : ∀ v ∈ collectSecrets env, v ≠ [] := by
  rintro v hv rfl
  exact absurd (collectSecrets_length [] hv) (by decide)

theorem unbordered_placeholder : Unbordered placeholder := by
  intro k hpos hlt
  have hall : ∀ k < 10, 0 < k → placeholder.drop k ≠ placeholder.take (10 - k) := by decide
  exact hall k hlt hpos

/-- No secret that is replaced later takes a part of a placeholder and leaves one that could
    complete the value of an earlier one. -/
def SafeFile (env : Option (List Char)) : Prop := (longestFirst (collectSecrets env)).Pairwise (Apart placeholder)

/-- A secret without a square bracket that is not `REDACTED` is uncovered by no other. -/
theorem apart_plain {v : List Char} (w : List Char) (hopen : '[' ∉ v) (hclose : ']' ∉ v)
    (hlength : minSecretLength ≤ v.length) (hne : v ≠ "REDACTED".toList) : Apart placeholder v w := by
  have hlen : 8 ≤ v.length := hlength
  constructor
  · rintro p b hpos hle hlt _ (hend | hend)
    · have hmem : '[' ∈ placeholder.take b := by
        obtain ⟨k, rfl⟩ : ∃ k, b = k + 1 := ⟨b - 1, by omega⟩
        exact List.mem_cons_self
      exact hopen (hend.subset hmem)
    · have hb : b < 10 := by
        have : placeholder.length = 10 := by decide
        omega
      have hshort := hend.length_le
      rw [List.length_take] at hshort
      obtain ⟨l, hl⟩ := hend
      have hdrop : v = (placeholder.take b).drop l.length := by rw [← hl, List.drop_left]
      have hsum := congrArg List.length hl
      rw [List.length_append, List.length_take] at hsum
      have hcases : ∀ b < 10, ∀ k ≤ b, 8 ≤ ((placeholder.take b).drop k).length →
          (placeholder.take b).drop k = "REDACTED".toList ∨ '[' ∈ (placeholder.take b).drop k := by decide
      rcases hcases b hb l.length (by omega) (hdrop ▸ hlen) with h | h
      · exact hne (hdrop.trans h)
      · exact hopen (hdrop ▸ h)
  · rintro q a hpos hle hlt _ (hstart | hstart)
    · have ha : a < 10 := hlt
      have hcases : ∀ a < 10, ']' ∈ placeholder.drop a := by decide
      exact hclose (hstart.subset (hcases a ha))
    · have ha : a < 10 := hlt
      have htake : v = (placeholder.drop a).take v.length := List.prefix_iff_eq_take.mp hstart
      have hshort := hstart.length_le
      rw [List.length_drop] at hshort
      have hcases : ∀ a < 10, ∀ k < 10, 0 < a ∧ 8 ≤ k ∧ k ≤ 10 - a →
          (placeholder.drop a).take k = "REDACTED".toList ∨ ']' ∈ (placeholder.drop a).take k := by decide
      have hten : placeholder.length = 10 := by decide
      rw [hten] at hshort
      rcases hcases a ha v.length (by omega) ⟨by omega, hlen, hshort⟩ with h | h
      · exact hne (htake.trans h)
      · exact hclose (htake ▸ h)

/-- A file with two keys. -/
def plainFile : Option (List Char) := some "OPENAI_API_KEY=sk-abcdefgh\nSUDO_PASSWORD= swordfish \n".toList

theorem safeFile_plainFile : SafeFile plainFile := by
  have hsecrets : longestFirst (collectSecrets plainFile) = ["sk-abcdefgh".toList, "swordfish".toList] := by decide +kernel
  rw [SafeFile, hsecrets]
  refine List.Pairwise.cons (fun w _ => ?_) (List.pairwise_singleton _ _)
  exact apart_plain w (by decide) (by decide) (by decide) (by decide)

/-- The last of three secrets is a part of the placeholder. -/
def bracketFile : Option (List Char) :=
  some "OPENAI_API_KEY=aaaaaaaa[R\nDEEPSEEK_API_KEY=bbbbbbbbb\nSUDO_PASSWORD=EDACTED]\n".toList

end Hermes.Redaction

import Hermes.Text

/- `pathlib.PurePosixPath`: a path as a root and names, without what makes no difference to
   where it leads (`.` and repeated slashes). -/
namespace Hermes

structure PurePath where
  /-- empty for a relative path -/
  root : String
  names : List String
  deriving DecidableEq, Repr

namespace PurePath

/-- Exactly two slashes at the beginning are a root of their own. -/
def rootOf : List Char → String
  | '/' :: '/' :: '/' :: _ => "/"
  | '/' :: '/' :: _ => "//"
  | '/' :: _ => "/"
  | _ => ""

def isName (part : List Char) : Bool := part != [] && part != ['.']

def parse (s : String) : PurePath where
  root := rootOf s.toList
  names := ((s.toList.splitOn '/').filter isName).map String.ofList

def isAbsolute (p : PurePath) : Bool := p.root != ""

def parts (p : PurePath) : List String := if p.root = "" then p.names else p.root :: p.names

/-- `"/".join(names)` -/
def joined (names : List String) : String := String.ofList (['/'].intercalate (names.map String.toList))

/-- `str(path)` -/
def str (p : PurePath) : String := if p.parts = [] then "." else p.root ++ joined p.names

/-- `path.suffix`: from the last dot of the last name, the dots at its beginning apart. -/
def suffix (p : PurePath) : String :=
  let name := (p.names.getLast?.getD "").toList
  let ending := name.reverse.takeWhile (· ≠ '.')
  let stem := (name.reverse.dropWhile (· ≠ '.')).drop 1
  if stem.all (· == '.') then "" else String.ofList ('.' :: ending.reverse)

example : (parse "./packages//base.rpm").parts = ["packages", "base.rpm"] := by decide
example : (parse "a/b.tar.rpm").suffix = ".rpm" ∧ (parse "a/.rpm").suffix = "" := by decide

/-! ## Paths without superfluous parts -/

theorem parse_relative {s : String} (h : s.toList.head? ≠ some '/') : (parse s).root = "" := by
  simp only [parse]
  unfold rootOf
  split
  · next he => simp [he] at h
  · next he => simp [he] at h
  · next he => simp [he] at h
  · rfl

/-- Names joined with slashes are parsed into the names. -/
theorem names_parse_joined {names : List String} (hne : names ≠ [])
    (hname : ∀ n ∈ names, isName n.toList = true ∧ '/' ∉ n.toList) : (parse (joined names)).names = names := by
  have hsplit : (joined names).toList.splitOn '/' = names.map String.toList := by
    rw [joined, String.toList_ofList]
    refine List.splitOn_intercalate '/' ?_ (by simpa using hne)
    intro l hl
    obtain ⟨n, hn, rfl⟩ := List.mem_map.mp hl
    exact (hname n hn).2
  have hfilter : (names.map String.toList).filter isName = names.map String.toList := by
    rw [List.filter_eq_self]
    intro l hl
    obtain ⟨n, hn, rfl⟩ := List.mem_map.mp hl
    exact (hname n hn).1
  rw [parse, hsplit, hfilter, List.map_map]
  calc names.map (String.ofList ∘ String.toList) = names.map id :=
        List.map_congr_left fun n _ => String.ofList_toList
    _ = names := List.map_id names

end PurePath

end Hermes

import Mathlib.Data.List.Infix

/- A tree of files, directories and symbolic links, as a function from paths: what the
   coreutils do to it, and where a path leads.

   A path is the list of its components from the root. `resolve` follows links, `fs p`
   does not; the operations take the directories above their arguments as they are
   named, so a path is a physical one. -/
namespace FileTree

abbrev Path := List String

/-- The text of a symbolic link. -/
structure Target where
  absolute : Bool
  parts : List String
  deriving DecidableEq, Repr

inductive Node where
  | file (content : String)
  | link (target : Target)
  | dir
  deriving DecidableEq, Repr

abbrev Fs := Path → Option Node

/-- Everything that is there is in a directory. -/
def Tree (fs : Fs) : Prop := ∀ p c, fs (p ++ [c]) ≠ none → fs p = some .dir

/-! ## Where a path leads -/

/-- Go along `parts` from `p`: the end of the way, or where the first link on it sends
    one and what is left to go from there. -/
def advance (fs : Fs) : Path → List String → Option (Path ⊕ Path × List String)
  | p, [] => some (.inl p)
  | p, c :: rest =>
    if c = "." then advance fs p rest
    else if c = ".." then advance fs p.dropLast rest
    else match fs (p ++ [c]) with
      | some (.link t) => some (.inr (if t.absolute then [] else p, t.parts ++ rest))
      | some .dir => advance fs (p ++ [c]) rest
      | some (.file _) => if rest.isEmpty then some (.inl (p ++ [c])) else none
      | none => none

/-- The end of the way, over at most `n` links. -/
def walk (fs : Fs) : Nat → Path → List String → Option Path
  | 0, p, parts =>
    match advance fs p parts with
    | some (.inl q) => some q
    | _ => none
  | n + 1, p, parts =>
    match advance fs p parts with
    | some (.inl q) => some q
    | some (.inr (q, rest)) => walk fs n q rest
    | none => none

/-- `stat`: what the path leads to; `ELOOP` after forty links. -/
def resolve (fs : Fs) (p : Path) : Option Path := walk fs 40 [] p

/-- The bytes that a reader of the path gets. -/
def contentAt (fs : Fs) (p : Path) : Option String :=
  match (resolve fs p).bind fs with
  | some (.file content) => some content
  | _ => none

/-- A component that is the name of an entry. -/
def Named (c : String) : Prop := c ≠ "." ∧ c ≠ ".."

theorem advance_down {fs : Fs} {p rest : Path} {c : String} (hc : Named c)
    (hd : fs (p ++ [c]) = some .dir) : advance fs p (c :: rest) = advance fs (p ++ [c]) rest := by
  rw [advance, if_neg hc.1, if_neg hc.2, hd]

/-- Along directories. -/
theorem advance_dirs {fs : Fs} (parts rest : List String) :
    ∀ p, (∀ c ∈ parts, Named c) → (∀ q, q <+: parts → fs (p ++ q) = some .dir) →
      advance fs p (parts ++ rest) = advance fs (p ++ parts) rest := by
  induction parts with
  | nil => exact fun p _ _ => by rw [List.append_nil]; rfl
  | cons c parts ih =>
    intro p hnamed hdirs
    have hd : fs (p ++ [c]) = some .dir := hdirs [c] (by simp)
    rw [List.cons_append, advance_down (hnamed c (by simp)) hd,
      ih (p ++ [c]) (fun d hd => hnamed d (by simp [hd])) (fun q hq => ?_), List.append_assoc]
    · rfl
    · rw [List.append_assoc]
      exact hdirs (c :: q) (List.cons_prefix_cons.mpr ⟨rfl, hq⟩)

section Last

variable {fs : Fs} {p : Path} {c : String}

/-- Below directories the last component decides. -/
theorem resolve_last (hnamed : ∀ d ∈ p, Named d) (hdirs : ∀ q, q <+: p → fs q = some .dir) :
    advance fs [] (p ++ [c]) = advance fs p [c] :=
  advance_dirs p [c] [] hnamed hdirs

theorem resolve_file (hnamed : ∀ d ∈ p ++ [c], Named d) (hdirs : ∀ q, q <+: p → fs q = some .dir)
    {content : String} (h : fs (p ++ [c]) = some (.file content)) :
    resolve fs (p ++ [c]) = some (p ++ [c]) := by
  have hc : Named c := hnamed c (by simp)
  have ha : advance fs [] (p ++ [c]) = some (.inl (p ++ [c])) := by
    rw [resolve_last (fun d hd => hnamed d (by simp [hd])) hdirs, advance, if_neg hc.1, if_neg hc.2, h]
    rfl
  rw [resolve, walk, ha]

theorem contentAt_file (hnamed : ∀ d ∈ p ++ [c], Named d)
    (hdirs : ∀ q, q <+: p → fs q = some .dir) {content : String}
    (h : fs (p ++ [c]) = some (.file content)) : contentAt fs (p ++ [c]) = some content := by
  rw [contentAt, resolve_file hnamed hdirs h]
  show (match fs (p ++ [c]) with | some (.file content) => some content | _ => none) = _
  rw [h]

theorem contentAt_dir (hnamed : ∀ d ∈ p ++ [c], Named d) (hdirs : ∀ q, q <+: p → fs q = some .dir)
    (h : fs (p ++ [c]) = some .dir) : contentAt fs (p ++ [c]) = none := by
  have ha : advance fs [] (p ++ [c]) = some (.inl (p ++ [c])) := by
    rw [resolve_last (fun d hd => hnamed d (by simp [hd])) hdirs, advance_down (hnamed c (by simp)) h]
    rfl
  have hr : resolve fs (p ++ [c]) = some (p ++ [c]) := by rw [resolve, walk, ha]
  rw [contentAt, hr]
  show (match fs (p ++ [c]) with | some (.file content) => some content | _ => none) = _
  rw [h]

theorem resolve_none (hnamed : ∀ d ∈ p ++ [c], Named d) (hdirs : ∀ q, q <+: p → fs q = some .dir)
    (h : fs (p ++ [c]) = none) : resolve fs (p ++ [c]) = none := by
  have hc : Named c := hnamed c (by simp)
  have ha : advance fs [] (p ++ [c]) = none := by
    rw [resolve_last (fun d hd => hnamed d (by simp [hd])) hdirs, advance, if_neg hc.1, if_neg hc.2, h]
  rw [resolve, walk, ha]

end Last

/-- The directories above an entry of a tree. -/
theorem Tree.above {fs : Fs} (ht : Tree fs) {q : Path} :
    ∀ s : Path, s ≠ [] → fs (q ++ s) ≠ none → fs q = some .dir := by
  intro s
  induction s generalizing q with
  | nil => exact fun hne _ => absurd rfl hne
  | cons c s ih =>
    intro _ h
    rw [← List.singleton_append, ← List.append_assoc] at h
    by_cases hs : s = []
    · rw [hs, List.append_nil] at h
      exact ht q c h
    · exact ht q c (by rw [ih hs h]; simp)

/-- The tree of some entries. -/
def ofEntries (entries : List (Path × Node)) : Fs := fun q =>
  (entries.find? (fun e => e.1 == q)).map Prod.snd

theorem tree_ofEntries {entries : List (Path × Node)}
    (h : ∀ e ∈ entries, e.1 = [] ∨ ofEntries entries e.1.dropLast = some .dir) :
    Tree (ofEntries entries) := by
  intro p c hne
  cases hfind : entries.find? (fun e => e.1 == p ++ [c]) with
  | none => exact absurd (by rw [ofEntries, hfind]; rfl) hne
  | some e =>
    have hpath : e.1 = p ++ [c] := by simpa using List.find?_some hfind
    obtain hnil | hdir := h e (List.mem_of_find?_eq_some hfind)
    · exact absurd (hpath.symm.trans hnil) (by simp)
    · rwa [hpath, List.dropLast_concat] at hdir

/-! ## The operations -/

/-- Whether a path is one of `ps` or below one. -/
def under (ps : List Path) (q : Path) : Bool := ps.any (fun p => p.isPrefixOf q)

/-- `rm -rf -- p` -/
def remove (fs : Fs) (p : Path) : Fs := fun q => if p.isPrefixOf q then none else fs q

def put (fs : Fs) (p : Path) (n : Node) : Fs := fun q => if q = p then some n else fs q

/-- What is at `src` is at `dst` too. -/
def graft (fs : Fs) (src dst : Path) : Fs := fun q =>
  if dst.isPrefixOf q then fs (src ++ q.drop dst.length) else fs q

/-- What is at `src` is at `dst` too, with what was there before. -/
def merge (fs : Fs) (src dst : Path) : Fs := fun q =>
  if dst.isPrefixOf q then (fs (src ++ q.drop dst.length)).or (fs q) else fs q

/-- `install -d p` is possible. -/
def canMakeDirs (fs : Fs) (p : Path) : Bool :=
  p.inits.all (fun q => fs q = none || fs q = some .dir)

/-- `install -d p` -/
def makeDirs (fs : Fs) (p : Path) : Fs := fun q => if q.isPrefixOf p then some .dir else fs q

/-- Where `cp -a src dst` puts the copy: into a directory that is there already. -/
def copyTarget (fs : Fs) (src dst : Path) : Path :=
  match resolve fs dst with
  | some q => if fs q = some .dir then q ++ src.getLast?.toList else dst
  | none => dst

/-- `cp -a -- src dst`, if it is possible. -/
def copy (fs : Fs) (src dst : Path) : Option Fs :=
  let target := copyTarget fs src dst
  if fs target.dropLast ≠ some .dir then none
  else match fs src, fs target with
    | none, _ => none
    | some _, none => some (graft fs src target)
    | some .dir, some .dir => some (merge fs src target)
    | some .dir, some _ => none
    | some _, some .dir => none
    | some (.link t), some _ => some (put fs target (.link t))
    | some (.file content), some (.file _) => some (put fs target (.file content))
    -- a regular file is written through a link that leads to one
    | some (.file content), some (.link _) =>
      (resolve fs target).map (fun q => put fs q (.file content))

section Lemmas

variable {fs : Fs} {p q src dst : Path}

theorem remove_below (h : p <+: q) : remove fs p q = none :=
  if_pos (List.isPrefixOf_iff_prefix.mpr h)

theorem remove_elsewhere (h : ¬p <+: q) : remove fs p q = fs q :=
  if_neg (fun h' => h (List.isPrefixOf_iff_prefix.mp h'))

theorem graft_append (s : Path) : graft fs src dst (dst ++ s) = fs (src ++ s) := by
  rw [graft, if_pos (List.isPrefixOf_iff_prefix.mpr (List.prefix_append dst s)), List.drop_left]

theorem graft_elsewhere (h : ¬dst <+: q) : graft fs src dst q = fs q :=
  if_neg (fun h' => h (List.isPrefixOf_iff_prefix.mp h'))

theorem makeDirs_above (h : q <+: p) : makeDirs fs p q = some .dir :=
  if_pos (List.isPrefixOf_iff_prefix.mpr h)

theorem makeDirs_elsewhere (h : ¬q <+: p) : makeDirs fs p q = fs q :=
  if_neg (fun h' => h (List.isPrefixOf_iff_prefix.mp h'))

theorem under_iff {ps : List Path} : under ps q = true ↔ ∃ p ∈ ps, p <+: q := by
  simp [under, List.any_eq_true]

/-- A copy to a place where nothing is. -/
theorem copy_new {c : String} {n : Node} (hnamed : ∀ d ∈ p ++ [c], Named d)
    (hdirs : ∀ q, q <+: p → fs q = some .dir) (hnone : fs (p ++ [c]) = none) (hsrc : fs src = some n) :
    copy fs src (p ++ [c]) = some (graft fs src (p ++ [c])) := by
  have ht : copyTarget fs src (p ++ [c]) = p ++ [c] := by
    rw [copyTarget, resolve_none hnamed hdirs hnone]
  unfold copy
  simp only [ht]
  rw [List.dropLast_concat, hdirs p (List.prefix_refl p), hnone, hsrc, if_neg (by simp)]

end Lemmas

/-! ## Links that lead down -/

/-- `advance`, where the last component need not be there. -/
def approach (fs : Fs) : Path → List String → Option (Path ⊕ Path × List String)
  | p, [] => some (.inl p)
  | p, c :: rest =>
    if c = "." then approach fs p rest
    else if c = ".." then approach fs p.dropLast rest
    else match fs (p ++ [c]) with
      | some (.link t) => some (.inr (if t.absolute then [] else p, t.parts ++ rest))
      | some .dir => approach fs (p ++ [c]) rest
      | _ => if rest.isEmpty then some (.inl (p ++ [c])) else none

/-- Where a file that is opened for writing is, or is made. -/
def land (fs : Fs) : Nat → Path → List String → Option Path
  | 0, p, parts =>
    match approach fs p parts with
    | some (.inl q) => some q
    | _ => none
  | n + 1, p, parts =>
    match approach fs p parts with
    | some (.inl q) => some q
    | some (.inr (q, rest)) => land fs n q rest
    | none => none

/-- The link leads below the directory that it is in. -/
def Target.Descends (t : Target) : Prop := t.absolute = false ∧ ".." ∉ t.parts

/-- The links below `base` lead down. -/
def LinksDescend (fs : Fs) (base : Path) : Prop :=
  ∀ p c t, base <+: p → fs (p ++ [c]) = some (.link t) → t.Descends

/-- The end of a way, or what is left of it behind a link, is below `base`. -/
def Below (base : Path) : Path ⊕ Path × List String → Prop
  | .inl q => base <+: q
  | .inr (q, rest) => base <+: q ∧ ".." ∉ rest

section Down

variable {fs : Fs} {base p q : Path} {parts : List String}

/-- Without `..` one stays below `base` up to the first link, and behind it. -/
theorem approach_below {r : Path ⊕ Path × List String} (hlinks : LinksDescend fs base) (hp : base <+: p)
    (hparts : ".." ∉ parts) (h : approach fs p parts = some r) : Below base r := by
  induction parts generalizing p with
  | nil =>
    cases h
    exact hp
  | cons c parts ih =>
    rw [List.mem_cons, not_or] at hparts
    have hdown : base <+: p ++ [c] := hp.trans (List.prefix_append p [c])
    unfold approach at h
    split at h
    · exact ih hp hparts.2 h
    · rw [if_neg (fun hc => hparts.1 hc.symm)] at h
      split at h
      · next t ht =>
        have hdescends := hlinks p c t hp ht
        rw [hdescends.1] at h
        cases h
        refine ⟨hp, ?_⟩
        rw [List.mem_append, not_or]
        exact ⟨hdescends.2, hparts.2⟩
      · exact ih hdown hparts.2 h
      · split at h
        · cases h
          exact hdown
        · cases h

/-- And over any number of links. -/
theorem land_below {n : Nat} (hlinks : LinksDescend fs base) (hp : base <+: p) (hparts : ".." ∉ parts)
    (h : land fs n p parts = some q) : base <+: q := by
  induction n generalizing p parts with
  | zero =>
    rw [land] at h
    split at h
    · next hq =>
      cases h
      exact approach_below hlinks hp hparts hq
    · cases h
  | succ n ih =>
    rw [land] at h
    split at h
    · next hq =>
      cases h
      exact approach_below hlinks hp hparts hq
    · next hq =>
      obtain ⟨hp', hrest⟩ := approach_below hlinks hp hparts hq
      exact ih hp' hrest h
    · cases h

theorem land_congr {n : Nat} {p' : Path} {parts' : List String} (h : approach fs p parts = approach fs p' parts') :
    land fs n p parts = land fs n p' parts' := by
  cases n with
  | zero => rw [land, land, h]
  | succ n => rw [land, land, h]

theorem land_none {n : Nat} (h : approach fs p parts = none) : land fs n p parts = none := by
  cases n with
  | zero => rw [land, h]
  | succ n => rw [land, h]

/-- A way whose first component is no link. -/
theorem land_cons_below {n : Nat} {c : String} (hnamed : Named c) (hlinks : LinksDescend fs (p ++ [c]))
    (hc : ∀ t, fs (p ++ [c]) ≠ some (.link t)) (hparts : ".." ∉ parts) (h : land fs n p (c :: parts) = some q) :
    p ++ [c] <+: q := by
  have happroach : approach fs p (c :: parts) =
      if fs (p ++ [c]) = some .dir then approach fs (p ++ [c]) parts
      else if parts.isEmpty then some (.inl (p ++ [c])) else none := by
    rw [approach, if_neg hnamed.1, if_neg hnamed.2]
    split
    · next t ht => exact absurd ht (hc t)
    · next hdir => rw [if_pos hdir]
    · next hdir => rw [if_neg hdir]
  split at happroach
  · rw [land_congr happroach] at h
    exact land_below hlinks (List.prefix_refl _) hparts h
  · split at happroach
    · have hend : approach fs p (c :: parts) = approach fs (p ++ [c]) [] := happroach
      rw [land_congr hend] at h
      exact land_below hlinks (List.prefix_refl _) (by simp) h
    · rw [land_none happroach] at h
      cases h

end Down

end FileTree

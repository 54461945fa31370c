import Mathlib.Data.String.Basic
import Mathlib.Tactic.SplitIfs
import Hermes.Library.StableSort
import Hermes.Text

/- The dirty-input fingerprint of the migration manifest (`generate-migration-manifest.py`) and
   what git reports to it. A run is made where git trusts the executable bits of the working
   tree or where it does not; the generator is to make up for what git then leaves out.

   Names are texts as they are decoded, without null characters. Git's renames are those between
   the last commit and the index. -/
namespace Hermes.DirtyInputs
open StableSort

/-! ## The working tree and the index -/

@[ext] structure Name where
  val : String
  noNull : '\x00' ∉ val.toList
  deriving DecidableEq

inductive Node where
  | symlink (target : String)
  | regular (perm : Nat) (content : String)
  | directory
  | special
  deriving DecidableEq, Repr

inductive Mode where
  | regular
  | executable
  | symlink
  | gitlink
  deriving DecidableEq, Repr

def Mode.text : Mode → String
  | regular => "100644"
  | executable => "100755"
  | symlink => "120000"
  | gitlink => "160000"

/-- The index beside the last commit. -/
inductive Staged where
  | clean
  | modified
  | typeChanged
  | added
  | deleted
  | unmerged
  | renamed (origin : Name)
  | copied (origin : Name)
  deriving DecidableEq

/-- The working tree beside the index. -/
inductive Unstaged where
  | clean
  | modified
  | typeChanged
  | added
  | deleted
  | unmerged
  deriving DecidableEq, Repr

def Staged.letter : Staged → Char
  | clean => ' '
  | modified => 'M'
  | typeChanged => 'T'
  | added => 'A'
  | deleted => 'D'
  | unmerged => 'U'
  | renamed _ => 'R'
  | copied _ => 'C'

def Staged.origin : Staged → Option Name
  | renamed origin => some origin
  | copied origin => some origin
  | _ => none

def Unstaged.letter : Unstaged → Char
  | clean => ' '
  | modified => 'M'
  | typeChanged => 'T'
  | added => 'A'
  | deleted => 'D'
  | unmerged => 'U'

/-- A path of the index. `unstaged` is what git finds in the working tree, executable bits
    apart; it does not look where it was told not to (`watched`). -/
structure Tracked where
  path : Name
  mode : Mode
  staged : Staged
  unstaged : Unstaged
  watched : Bool
  deriving DecidableEq

inductive Item where
  | tracked (t : Tracked)
  /-- Deleted in the index. -/
  | removed (path : Name)
  | untracked (path : Name)
  deriving DecidableEq

def Item.tracked? : Item → Option Tracked
  | tracked t => some t
  | _ => none

/-- The working tree with its index; the items are in the order in which git lists them. -/
structure Repo where
  files : String → Option Node
  items : List Item
  distinct : ((items.filterMap Item.tracked?).map Tracked.path).Nodup

def Repo.tracked (repo : Repo) : List Tracked := repo.items.filterMap Item.tracked?

/-! ## `git status --porcelain -z --untracked-files=all` -/

/-- The mode that git gives a file: the bit of its owner counts. -/
def gitMode (perm : Nat) : Mode := if perm &&& 0o100 ≠ 0 then .executable else .regular

/-- The executable bit is not the one in the index. -/
def Repo.bitDiffers (repo : Repo) (t : Tracked) : Bool :=
  match repo.files t.path.val with
  | some (.regular perm _) => (t.mode == .regular || t.mode == .executable) && gitMode perm != t.mode
  | _ => false

/-- The bit is all that differs in the working tree: reported only where git trusts it. -/
def Repo.hidden (repo : Repo) (t : Tracked) : Bool :=
  t.unstaged == .clean && t.watched && repo.bitDiffers t

def Repo.unstaged (repo : Repo) (trust : Bool) (t : Tracked) : Unstaged :=
  if trust && repo.hidden t then .modified else t.unstaged

def line (x y : Char) (name : Name) : List Char := x :: y :: ' ' :: name.val.toList

/-- The records of an item; the name before a rename is a record of its own. -/
def Repo.records (repo : Repo) (trust : Bool) : Item → List (List Char)
  | .tracked t =>
    if t.staged = .clean ∧ repo.unstaged trust t = .clean then []
    else line t.staged.letter (repo.unstaged trust t).letter t.path :: (t.staged.origin.map fun o => o.val.toList).toList
  | .removed path => [line 'D' ' ' path]
  | .untracked path => [line '?' '?' path]

def Repo.porcelain (repo : Repo) (trust : Bool) : List Char :=
  repo.items.flatMap fun item => (repo.records trust item).flatMap (· ++ ['\x00'])

/-! ## The generator -/

/-- `out.split(b"\0")` -/
def splitNull : List Char → List (List Char)
  | [] => [[]]
  | c :: cs =>
    if c = '\x00' then [] :: splitNull cs
    else
      match splitNull cs with
      | [] => [[c]]
      | field :: fields => (c :: field) :: fields

structure StatusEntry where
  status : String
  path : String
  deriving DecidableEq, Repr

/-- The loop of `status_entries`. -/
def readStatus : List (List Char) → List StatusEntry
  | [] => []
  | [] :: raw => readStatus raw
  | (x :: record) :: raw =>
    let entry : StatusEntry :=
      { status := String.ofList ((x :: record).take 2), path := String.ofList ((x :: record).drop 3) }
    if x = 'R' ∨ x = 'C' then
      match raw with
      | [] => [entry]
      | origin :: raw => entry :: { status := String.ofList [x, '-'], path := String.ofList origin } :: readStatus raw
    else entry :: readStatus raw

def Repo.statusEntries (repo : Repo) (trust : Bool) : List StatusEntry := readStatus (splitNull (repo.porcelain trust))

/-- SHA-256, written in hexadecimal. -/
structure Sha256 where
  hexdigest : List Char → String
  plain : ∀ x, ∀ c ∈ (hexdigest x).toList, c ≠ '\x00' ∧ c ≠ '\n'

/-- `filesystem_mode`: the bit of anyone counts. -/
def filesystemMode : Node → Mode
  | .symlink _ => .symlink
  | .regular perm _ => if perm &&& 0o111 ≠ 0 then .executable else .regular
  | _ => .regular

/-- `content_digest` -/
def contentDigest (sha : Sha256) : Node → String
  | .symlink target => sha.hexdigest target.toList
  | .regular _ content => sha.hexdigest content.toList
  | _ => "-"

structure Entry where
  path : String
  status : String
  kind : String
  indexMode : String
  worktreeMode : String
  digest : String
  deriving DecidableEq, Repr

/-- `index_modes` -/
def Repo.indexMode (repo : Repo) (path : String) : Option Mode :=
  (repo.tracked.find? fun t => t.path.val = path).map Tracked.mode

/-- What is recorded of a path. -/
def Repo.audit (repo : Repo) (sha : Sha256) (e : StatusEntry) : Entry :=
  let indexMode := ((repo.indexMode e.path).map Mode.text).getD "-"
  match repo.files e.path with
  | some node@(.symlink _) =>
    { path := e.path, status := e.status, kind := "symlink", indexMode, worktreeMode := (filesystemMode node).text,
      digest := contentDigest sha node }
  | some node@(.regular _ _) =>
    { path := e.path, status := e.status, kind := "file", indexMode, worktreeMode := (filesystemMode node).text,
      digest := contentDigest sha node }
  | _ => { path := e.path, status := e.status, kind := "missing", indexMode, worktreeMode := "-", digest := "-" }

/-- `tracked_mode_mismatches` -/
def Repo.mismatch (repo : Repo) (t : Tracked) : Bool :=
  match t.mode, repo.files t.path.val with
  | .gitlink, _ => false
  | mode, some node@(.symlink _) => filesystemMode node != mode
  | mode, some node@(.regular _ _) => filesystemMode node != mode
  | _, _ => false

/-- `UNREPORTED_MODE_STATUS` -/
def unreportedModeStatus : String := " M"

/-- What `dirty_entries` adds to what git reports. -/
def Repo.unreported (repo : Repo) (selected : List String) : List StatusEntry :=
  (repo.tracked.filter fun t => repo.mismatch t && !selected.contains t.path.val).map fun t =>
    { status := unreportedModeStatus, path := t.path.val }

/-- `dirty_entries` -/
def Repo.dirtyEntries (repo : Repo) (sha : Sha256) (trust : Bool) : List Entry :=
  let reported := repo.statusEntries trust
  sortBy Entry.path ((reported ++ repo.unreported (reported.map StatusEntry.path)).map (repo.audit sha))

def Entry.line (e : Entry) : List Char :=
  e.path.toList ++ '\x00' :: (e.status.toList ++ '\x00' :: (e.kind.toList ++ '\x00' :: (e.indexMode.toList ++
    '\x00' :: (e.worktreeMode.toList ++ '\x00' :: (e.digest.toList ++ ['\n'])))))

structure Summary where
  fingerprint : String
  entries : List Entry
  inputs : Nat
  files : Nat
  deletions : Nat
  modeOrTypeChanges : Nat
  deriving DecidableEq, Repr

/-- The text that is hashed. -/
def document (entries : List Entry) : List Char := entries.flatMap Entry.line

/-- `dirty_summary` -/
def dirtySummary (sha : Sha256) (entries : List Entry) : Summary where
  fingerprint := sha.hexdigest (document entries)
  entries := entries
  inputs := entries.length
  files := entries.countP fun e => e.kind == "file" || e.kind == "symlink"
  deletions := entries.countP fun e => e.kind == "missing" || e.status.toList.contains 'D'
  modeOrTypeChanges := entries.countP fun e =>
    e.indexMode != "-" && e.worktreeMode != "-" && e.indexMode != e.worktreeMode

/-- `dirty_identity`, where git trusts the executable bits or does not. -/
def dirtyIdentity (sha : Sha256) (repo : Repo) (trust : Bool) : Summary := dirtySummary sha (repo.dirtyEntries sha trust)

/-- The texts that the two runs hash do not collide. -/
def Apart (sha : Sha256) (repo : Repo) : Prop :=
  sha.hexdigest (document (repo.dirtyEntries sha true)) = sha.hexdigest (document (repo.dirtyEntries sha false)) →
    document (repo.dirtyEntries sha true) = document (repo.dirtyEntries sha false)

/-! ## What is read is what git lists -/

theorem splitNull_record {record : List Char} (h : '\x00' ∉ record) (rest : List Char) :
    splitNull (record ++ '\x00' :: rest) = record :: splitNull rest := by
  induction record with
  | nil => simp [splitNull]
  | cons c record ih =>
    simp only [List.mem_cons, not_or] at h
    rw [List.cons_append, splitNull, if_neg (Ne.symm h.1), ih h.2]

theorem splitNull_records {records : List (List Char)} (h : ∀ r ∈ records, '\x00' ∉ r) :
    splitNull (records.flatMap (· ++ ['\x00'])) = records ++ [[]] := by
  induction records with
  | nil => rfl
  | cons r records ih =>
    rw [List.flatMap_cons, List.append_assoc, List.singleton_append, splitNull_record (h r (by simp)),
      ih fun r' hr' => h r' (by simp [hr'])]
    rfl

def Tracked.entry (t : Tracked) (u : Unstaged) : StatusEntry :=
  { status := String.ofList [t.staged.letter, u.letter], path := t.path.val }

def Tracked.origins (t : Tracked) : List StatusEntry :=
  (t.staged.origin.map fun o => { status := String.ofList [t.staged.letter, '-'], path := o.val }).toList

/-- The entries that an item is read as. -/
def Repo.listed (repo : Repo) (trust : Bool) : Item → List StatusEntry
  | .tracked t =>
    if t.staged = .clean ∧ repo.unstaged trust t = .clean then []
    else t.entry (repo.unstaged trust t) :: t.origins
  | .removed path => [{ status := "D ", path := path.val }]
  | .untracked path => [{ status := "??", path := path.val }]

theorem line_noNull {x y : Char} (hx : x ≠ '\x00') (hy : y ≠ '\x00') (name : Name) : '\x00' ∉ line x y name := by
  simp [line, hx.symm, hy.symm, name.noNull]

theorem Staged.letter_noNull (s : Staged) : s.letter ≠ '\x00' := by
  cases s <;> simp [Staged.letter]

theorem Unstaged.letter_noNull (u : Unstaged) : u.letter ≠ '\x00' := by
  cases u <;> decide

theorem records_noNull (repo : Repo) (trust : Bool) (item : Item) : ∀ r ∈ repo.records trust item, '\x00' ∉ r := by
  intro r hr
  cases item with
  | tracked t =>
    simp only [Repo.records] at hr
    split_ifs at hr
    · simp at hr
    · rcases List.mem_cons.mp hr with rfl | hr
      · exact line_noNull t.staged.letter_noNull (Unstaged.letter_noNull _) t.path
      · obtain ⟨o, _, rfl⟩ := Option.map_eq_some_iff.mp (Option.mem_toList.mp hr)
        exact o.noNull
  | removed path =>
    obtain rfl := List.mem_singleton.mp hr
    exact line_noNull (by decide) (by decide) path
  | untracked path =>
    obtain rfl := List.mem_singleton.mp hr
    exact line_noNull (by decide) (by decide) path

/-- Only a rename or a copy has a second name. -/
theorem origin_letter (s : Staged) : (s.letter = 'R' ∨ s.letter = 'C') ↔ s.origin.isSome = true := by
  cases s <;> simp [Staged.letter, Staged.origin]

theorem readStatus_plain {x : Char} (h : ¬ (x = 'R' ∨ x = 'C')) (y : Char) (name : Name) (rest : List (List Char)) :
    readStatus (line x y name :: rest) = { status := String.ofList [x, y], path := name.val } :: readStatus rest := by
  rw [line, readStatus.eq_def]
  simp only [if_neg h, List.take_succ_cons, List.take_zero, List.drop_succ_cons, List.drop_zero, String.ofList_toList]

theorem readStatus_renamed {x : Char} (h : x = 'R' ∨ x = 'C') (y : Char) (name : Name) (origin : List Char)
    (rest : List (List Char)) :
    readStatus (line x y name :: origin :: rest) =
      { status := String.ofList [x, y], path := name.val } ::
        { status := String.ofList [x, '-'], path := String.ofList origin } :: readStatus rest := by
  rw [line, readStatus.eq_def]
  simp only [if_pos h, List.take_succ_cons, List.take_zero, List.drop_succ_cons, List.drop_zero, String.ofList_toList]

theorem readStatus_item (repo : Repo) (trust : Bool) (item : Item) (rest : List (List Char)) :
    readStatus (repo.records trust item ++ rest) = repo.listed trust item ++ readStatus rest := by
  cases item with
  | tracked t =>
    simp only [Repo.records, Repo.listed, Tracked.origins, Tracked.entry]
    split_ifs
    · rfl
    · have horigin := origin_letter t.staged
      cases ho : t.staged.origin with
      | none =>
        rw [ho] at horigin
        exact readStatus_plain (by simpa using horigin) _ _ _
      | some o =>
        rw [ho] at horigin
        have hread := readStatus_renamed (by simpa using horigin) (repo.unstaged trust t).letter t.path o.val.toList rest
        rwa [String.ofList_toList] at hread
  | removed path => exact readStatus_plain (by decide) ' ' path rest
  | untracked path => exact readStatus_plain (by decide) '?' path rest

theorem statusEntries_eq (repo : Repo) (trust : Bool) :
    repo.statusEntries trust = repo.items.flatMap (repo.listed trust) := by
  have hsplit : splitNull (repo.porcelain trust) = repo.items.flatMap (repo.records trust) ++ [[]] := by
    have hrecords : repo.porcelain trust = (repo.items.flatMap (repo.records trust)).flatMap (· ++ ['\x00']) := by
      rw [Repo.porcelain, List.flatMap_assoc]
    rw [hrecords, splitNull_records]
    intro r hr
    obtain ⟨item, _, hr⟩ := List.mem_flatMap.mp hr
    exact records_noNull repo trust item r hr
  rw [Repo.statusEntries, hsplit]
  induction repo.items with
  | nil => rfl
  | cons item items ih =>
    rw [List.flatMap_cons, List.append_assoc, readStatus_item, ih, List.flatMap_cons]

/-! ## The text tells the entries -/

/-- The marks between the fields are not in them. -/
structure Entry.Plain (e : Entry) : Prop where
  path : '\x00' ∉ e.path.toList
  status : '\x00' ∉ e.status.toList
  kind : '\x00' ∉ e.kind.toList
  indexMode : '\x00' ∉ e.indexMode.toList
  worktreeMode : '\x00' ∉ e.worktreeMode.toList
  digest : '\n' ∉ e.digest.toList

theorem line_split {e e' : Entry} (h : e.Plain) (h' : e'.Plain) {rest rest' : List Char}
    (heq : e.line ++ rest = e'.line ++ rest') : e = e' ∧ rest = rest' := by
  simp only [Entry.line, List.append_assoc, List.cons_append, List.nil_append] at heq
  obtain ⟨hpath, heq⟩ := mark_split h.path h'.path heq
  obtain ⟨hstatus, heq⟩ := mark_split h.status h'.status heq
  obtain ⟨hkind, heq⟩ := mark_split h.kind h'.kind heq
  obtain ⟨hindex, heq⟩ := mark_split h.indexMode h'.indexMode heq
  obtain ⟨hworktree, heq⟩ := mark_split h.worktreeMode h'.worktreeMode heq
  obtain ⟨hdigest, heq⟩ := mark_split h.digest h'.digest heq
  refine ⟨?_, heq⟩
  cases e
  cases e'
  simp only [Entry.mk.injEq]
  exact ⟨String.toList_inj.mp hpath, String.toList_inj.mp hstatus, String.toList_inj.mp hkind,
    String.toList_inj.mp hindex, String.toList_inj.mp hworktree, String.toList_inj.mp hdigest⟩

theorem line_ne_nil (e : Entry) : e.line ≠ [] := by
  simp [Entry.line]

theorem document_injective {es es' : List Entry} (h : ∀ e ∈ es, e.Plain) (h' : ∀ e ∈ es', e.Plain)
    (heq : document es = document es') : es = es' := by
  induction es generalizing es' with
  | nil =>
    cases es' with
    | nil => rfl
    | cons e' es' => exact absurd (List.append_eq_nil_iff.mp heq.symm).1 (line_ne_nil e')
  | cons e es ih =>
    cases es' with
    | nil => exact absurd (List.append_eq_nil_iff.mp heq).1 (line_ne_nil e)
    | cons e' es' =>
      obtain ⟨hhead, hrest⟩ := line_split (h e (by simp)) (h' e' (by simp)) heq
      rw [hhead, ih (fun x hx => h x (by simp [hx])) (fun x hx => h' x (by simp [hx])) hrest]

@[simp] theorem audit_path (repo : Repo) (sha : Sha256) (e : StatusEntry) : (repo.audit sha e).path = e.path := by
  unfold Repo.audit
  split <;> rfl

@[simp] theorem audit_status (repo : Repo) (sha : Sha256) (e : StatusEntry) : (repo.audit sha e).status = e.status := by
  unfold Repo.audit
  split <;> rfl

theorem audit_injective (repo : Repo) (sha : Sha256) : Function.Injective (repo.audit sha) := by
  intro e e' h
  have hpath := congrArg Entry.path h
  have hstatus := congrArg Entry.status h
  rw [audit_path, audit_path] at hpath
  rw [audit_status, audit_status] at hstatus
  cases e
  cases e'
  rw [StatusEntry.mk.injEq]
  exact ⟨hstatus, hpath⟩

theorem mode_noNull (m : Mode) : '\x00' ∉ m.text.toList := by
  cases m <;> decide

theorem audit_plain (repo : Repo) (sha : Sha256) {e : StatusEntry} (hpath : '\x00' ∉ e.path.toList)
    (hstatus : '\x00' ∉ e.status.toList) : (repo.audit sha e).Plain := by
  have hindex : '\x00' ∉ (((repo.indexMode e.path).map Mode.text).getD "-").toList := by
    cases repo.indexMode e.path with
    | none => decide
    | some m => exact mode_noNull m
  have hdigest : ∀ x, '\n' ∉ (sha.hexdigest x).toList := fun x hmem => (sha.plain x _ hmem).2 rfl
  unfold Repo.audit
  split
  · exact ⟨hpath, hstatus, show '\x00' ∉ "symlink".toList by decide, hindex, mode_noNull _, hdigest _⟩
  · exact ⟨hpath, hstatus, show '\x00' ∉ "file".toList by decide, hindex, mode_noNull _, hdigest _⟩
  · exact ⟨hpath, hstatus, show '\x00' ∉ "missing".toList by decide, hindex, show '\x00' ∉ "-".toList by decide,
      show '\n' ∉ "-".toList by decide⟩

/-- What the entries are made of: all that git reports and all that is added. -/
def Repo.selection (repo : Repo) (trust : Bool) : List StatusEntry :=
  repo.statusEntries trust ++ repo.unreported ((repo.statusEntries trust).map StatusEntry.path)

theorem listed_noNull {repo : Repo} {trust : Bool} {item : Item} {e : StatusEntry} (h : e ∈ repo.listed trust item) :
    '\x00' ∉ e.path.toList ∧ '\x00' ∉ e.status.toList := by
  cases item with
  | tracked t =>
    simp only [Repo.listed] at h
    have hx := t.staged.letter_noNull.symm
    have hy := (repo.unstaged trust t).letter_noNull.symm
    split_ifs at h
    · simp at h
    · rcases List.mem_cons.mp h with rfl | h
      · exact ⟨t.path.noNull, by rw [Tracked.entry, String.toList_ofList]; simp [hx, hy]⟩
      · obtain ⟨o, _, rfl⟩ := Option.map_eq_some_iff.mp (Option.mem_toList.mp h)
        exact ⟨o.noNull, by rw [String.toList_ofList]; simp [hx]⟩
  | removed path =>
    obtain rfl := List.mem_singleton.mp h
    exact ⟨path.noNull, show '\x00' ∉ "D ".toList by decide⟩
  | untracked path =>
    obtain rfl := List.mem_singleton.mp h
    exact ⟨path.noNull, show '\x00' ∉ "??".toList by decide⟩

theorem selection_noNull {repo : Repo} {trust : Bool} {e : StatusEntry} (h : e ∈ repo.selection trust) :
    '\x00' ∉ e.path.toList ∧ '\x00' ∉ e.status.toList := by
  rcases List.mem_append.mp h with h | h
  · rw [statusEntries_eq] at h
    obtain ⟨item, _, h⟩ := List.mem_flatMap.mp h
    exact listed_noNull h
  · obtain ⟨t, _, rfl⟩ := List.mem_map.mp h
    exact ⟨t.path.noNull, show '\x00' ∉ unreportedModeStatus.toList by decide⟩

theorem dirtyEntries_plain (repo : Repo) (sha : Sha256) (trust : Bool) : ∀ e ∈ repo.dirtyEntries sha trust, e.Plain := by
  intro e he
  have hmem : e ∈ (repo.selection trust).map (repo.audit sha) := (perm_sortBy Entry.path _).mem_iff.mp he
  obtain ⟨s, hs, rfl⟩ := List.mem_map.mp hmem
  have hnull := selection_noNull hs
  exact audit_plain repo sha hnull.1 hnull.2

/-- The runs agree if they select the same for every path. -/
theorem fingerprint_eq_iff_parts {sha : Sha256} {repo : Repo} (h : Apart sha repo) :
    (dirtyIdentity sha repo true).fingerprint = (dirtyIdentity sha repo false).fingerprint ↔
      ∀ p, part StatusEntry.path p (repo.selection true) = part StatusEntry.path p (repo.selection false) := by
  have hentries : repo.dirtyEntries sha true = repo.dirtyEntries sha false ↔
      ∀ p, part StatusEntry.path p (repo.selection true) = part StatusEntry.path p (repo.selection false) := by
    have hparts : ∀ trust p, part Entry.path p ((repo.selection trust).map (repo.audit sha)) =
        (part StatusEntry.path p (repo.selection trust)).map (repo.audit sha) := fun trust p =>
      part_map StatusEntry.path (audit_path repo sha) p _
    refine (sortBy_eq_iff Entry.path).trans (forall_congr' fun p => ?_)
    show part Entry.path p ((repo.selection true).map (repo.audit sha)) =
      part Entry.path p ((repo.selection false).map (repo.audit sha)) ↔ _
    rw [hparts, hparts]
    exact (audit_injective repo sha).list_map.eq_iff
  rw [← hentries]
  constructor
  · intro heq
    exact document_injective (dirtyEntries_plain repo sha true) (dirtyEntries_plain repo sha false) (h heq)
  · intro heq
    exact congrArg (fun es => sha.hexdigest (document es)) heq

/-! ## One path in the two runs -/

theorem tracked_split {repo : Repo} {t : Tracked} (h : t ∈ repo.tracked) :
    ∃ before after, repo.items = before ++ .tracked t :: after ∧
      (∀ t', .tracked t' ∈ before → t'.path ≠ t.path) ∧ ∀ t', .tracked t' ∈ after → t'.path ≠ t.path := by
  obtain ⟨item, hitem, ht⟩ := List.mem_filterMap.mp h
  have htracked : item = .tracked t := by
    cases item with
    | tracked t' => exact congrArg Item.tracked (Option.some.inj ht)
    | removed _ => cases ht
    | untracked _ => cases ht
  obtain ⟨before, after, hsplit⟩ := List.append_of_mem (htracked ▸ hitem)
  have hdistinct := repo.distinct
  rw [hsplit, List.filterMap_append, List.filterMap_cons, Item.tracked?, List.map_append, List.map_cons,
    List.nodup_append] at hdistinct
  obtain ⟨_, hafter, hbefore⟩ := hdistinct
  have hmem : ∀ {t' : Tracked} {items : List Item}, .tracked t' ∈ items →
      t'.path ∈ (items.filterMap Item.tracked?).map Tracked.path := by
    intro t' items ht'
    exact List.mem_map.mpr ⟨t', List.mem_filterMap.mpr ⟨_, ht', rfl⟩, rfl⟩
  refine ⟨before, after, hsplit, fun t' ht' => ?_, fun t' ht' heq => ?_⟩
  · exact hbefore _ (hmem ht') _ (by simp)
  · exact (List.nodup_cons.mp hafter).1 (heq ▸ hmem ht')

section Hidden

variable {repo : Repo} {t : Tracked}

theorem unstaged_hidden (h : repo.hidden t = true) : repo.unstaged true t = .modified ∧ repo.unstaged false t = .clean := by
  have hclean : t.unstaged = .clean := by
    simp only [Repo.hidden, Bool.and_eq_true, beq_iff_eq] at h
    exact h.1.1
  exact ⟨by simp [Repo.unstaged, h], by simp [Repo.unstaged, hclean]⟩

theorem listed_hidden (h : repo.hidden t = true) : repo.listed true (.tracked t) = t.entry .modified :: t.origins := by
  simp only [Repo.listed, (unstaged_hidden h).1]
  exact if_neg fun hboth => nomatch hboth.2

theorem listed_clean (h : repo.hidden t = true) (hstaged : t.staged = .clean) : repo.listed false (.tracked t) = [] := by
  simp only [Repo.listed, (unstaged_hidden h).2]
  exact if_pos ⟨hstaged, trivial⟩

theorem listed_staged (h : repo.hidden t = true) (hstaged : t.staged ≠ .clean) :
    repo.listed false (.tracked t) = t.entry .clean :: t.origins := by
  simp only [Repo.listed, (unstaged_hidden h).2]
  exact if_neg fun hboth => hstaged hboth.1

theorem origins_clean (hstaged : t.staged = .clean) : t.origins = [] := by
  rw [Tracked.origins, hstaged]
  rfl

end Hidden

/-- An item whose bit is not hidden is listed alike; so is a hidden one, its own path apart. -/
theorem part_listed {repo : Repo} {item : Item} {p : String}
    (h : ∀ t, item = .tracked t → repo.hidden t = true → t.path.val ≠ p) :
    part StatusEntry.path p (repo.listed true item) = part StatusEntry.path p (repo.listed false item) := by
  cases item with
  | tracked t =>
    by_cases hhidden : repo.hidden t = true
    · have hpath : ∀ u, (t.entry u).path ≠ p := fun _ => h t rfl hhidden
      by_cases hstaged : t.staged = .clean
      · rw [listed_hidden hhidden, listed_clean hhidden hstaged, part_cons_of_ne StatusEntry.path (hpath _),
          origins_clean hstaged]
      · rw [listed_hidden hhidden, listed_staged hhidden hstaged, part_cons_of_ne StatusEntry.path (hpath _),
          part_cons_of_ne StatusEntry.path (hpath _)]
    · have hsame : repo.unstaged true t = repo.unstaged false t := by simp [Repo.unstaged, hhidden]
      simp only [Repo.listed, hsame]
  | removed path => rfl
  | untracked path => rfl

/-- What is added for a path that git does not name. -/
def Repo.supplement (repo : Repo) (p : String) : List StatusEntry :=
  part StatusEntry.path p (repo.unreported [])

theorem part_unreported (repo : Repo) (selected : List String) (p : String) :
    part StatusEntry.path p (repo.unreported selected) = if p ∈ selected then [] else repo.supplement p := by
  rw [Repo.supplement, Repo.unreported, Repo.unreported]
  induction repo.tracked with
  | nil => simp
  | cons t ts ih =>
    by_cases hpath : t.path.val = p
    · subst hpath
      by_cases hmem : t.path.val ∈ selected
      · rw [if_pos hmem] at ih ⊢
        rwa [List.filter_cons_of_neg (by simp [hmem])]
      · rw [if_neg hmem] at ih ⊢
        cases hmismatch : repo.mismatch t with
        | false => rwa [List.filter_cons_of_neg (by simp [hmismatch]), List.filter_cons_of_neg (by simp [hmismatch])]
        | true =>
          have hkey : StatusEntry.path { status := unreportedModeStatus, path := t.path.val } = t.path.val := rfl
          rw [List.filter_cons_of_pos (by simp [hmismatch, hmem]), List.filter_cons_of_pos (by simp [hmismatch]),
            List.map_cons, List.map_cons, part_cons_of_eq StatusEntry.path hkey,
            part_cons_of_eq StatusEntry.path hkey, ih]
    · -- the path is another one, whether it is added or not
      have hskip : ∀ q : Tracked → Bool, part StatusEntry.path p (((t :: ts).filter q).map fun t =>
          { status := unreportedModeStatus, path := t.path.val }) =
          part StatusEntry.path p ((ts.filter q).map fun t => { status := unreportedModeStatus, path := t.path.val }) := by
        intro q
        by_cases hq : q t = true
        · rw [List.filter_cons_of_pos hq, List.map_cons, part_cons_of_ne StatusEntry.path hpath]
        · rw [List.filter_cons_of_neg hq]
      rw [hskip, hskip, ih]

theorem part_selection (repo : Repo) (trust : Bool) (p : String) :
    part StatusEntry.path p (repo.selection trust) =
      if part StatusEntry.path p (repo.statusEntries trust) = [] then repo.supplement p
      else part StatusEntry.path p (repo.statusEntries trust) := by
  rw [Repo.selection, part_append, part_unreported]
  have hnil := part_eq_nil_iff StatusEntry.path (k := p) (l := repo.statusEntries trust)
  by_cases hpart : part StatusEntry.path p (repo.statusEntries trust) = []
  · rw [if_neg (hnil.mp hpart), if_pos hpart, hpart, List.nil_append]
  · rw [if_pos (by simpa using mt hnil.mpr hpart), if_neg hpart, List.append_nil]

theorem part_other {ts : List Tracked} {p : Name} (h : ∀ t ∈ ts, t.path ≠ p) (q : Tracked → Bool) (status : String) :
    part StatusEntry.path p.val ((ts.filter q).map fun t => { status, path := t.path.val }) = [] := by
  refine (part_eq_nil_iff StatusEntry.path).mpr fun hmem => ?_
  rw [List.map_map] at hmem
  obtain ⟨t, ht, hpath⟩ := List.mem_map.mp hmem
  exact h t (List.mem_filter.mp ht).1 (Name.ext hpath)

/-- A path of the index is added by itself, if its mode is found to differ. -/
theorem supplement_tracked {repo : Repo} {t : Tracked} (h : t ∈ repo.tracked) :
    repo.supplement t.path.val =
      if repo.mismatch t then [{ status := unreportedModeStatus, path := t.path.val }] else [] := by
  obtain ⟨before, after, hsplit, hbefore, hafter⟩ := tracked_split h
  have htracked : repo.tracked = before.filterMap Item.tracked? ++ t :: after.filterMap Item.tracked? := by
    rw [Repo.tracked, hsplit, List.filterMap_append, List.filterMap_cons]
    rfl
  have hother : ∀ {items : List Item}, (∀ t', .tracked t' ∈ items → t'.path ≠ t.path) →
      ∀ t' ∈ items.filterMap Item.tracked?, t'.path ≠ t.path := by
    intro items hitems t' ht'
    obtain ⟨item, hitem, heq⟩ := List.mem_filterMap.mp ht'
    cases item with
    | tracked t'' =>
      obtain rfl := Option.some.inj heq
      exact hitems t'' hitem
    | removed _ => cases heq
    | untracked _ => cases heq
  rw [Repo.supplement, Repo.unreported, htracked, List.filter_append, List.map_append, part_append,
    part_other (hother hbefore), List.nil_append]
  have hkey : StatusEntry.path { status := unreportedModeStatus, path := t.path.val } = t.path.val := rfl
  cases hmismatch : repo.mismatch t with
  | false =>
    rw [List.filter_cons_of_neg (by simp [hmismatch]), part_other (hother hafter)]
    rfl
  | true =>
    rw [List.filter_cons_of_pos (by simp [hmismatch]), List.map_cons, part_cons_of_eq StatusEntry.path hkey,
      part_other (hother hafter)]
    rfl

/-- The generator makes up for what git leaves out: the path is not staged, the generator sees that its
    mode differs, and git does not name it for another reason. -/
def Repo.Supplied (repo : Repo) (t : Tracked) : Prop :=
  t.staged = .clean ∧ repo.mismatch t = true ∧ t.path.val ∉ (repo.statusEntries false).map StatusEntry.path

theorem part_selection_hidden {repo : Repo} {t : Tracked} (ht : t ∈ repo.tracked) (hhidden : repo.hidden t = true) :
    part StatusEntry.path t.path.val (repo.selection true) = part StatusEntry.path t.path.val (repo.selection false) ↔
      repo.Supplied t := by
  obtain ⟨before, after, hsplit, hbefore, hafter⟩ := tracked_split ht
  -- the items beside it are listed alike in the two runs
  have hbeside : ∀ {items : List Item}, (∀ t', .tracked t' ∈ items → t'.path ≠ t.path) →
      part StatusEntry.path t.path.val (items.flatMap (repo.listed true)) =
        part StatusEntry.path t.path.val (items.flatMap (repo.listed false)) := by
    intro items hitems
    refine part_flatMap_congr StatusEntry.path fun item hitem => part_listed fun t' ht' _ hpath => ?_
    exact hitems t' (ht' ▸ hitem) (Name.ext hpath)
  have hparts : ∀ trust, part StatusEntry.path t.path.val (repo.statusEntries trust) =
      part StatusEntry.path t.path.val (before.flatMap (repo.listed false)) ++
        (part StatusEntry.path t.path.val (repo.listed trust (.tracked t)) ++
          part StatusEntry.path t.path.val (after.flatMap (repo.listed false))) := by
    intro trust
    rw [statusEntries_eq, hsplit, List.flatMap_append, List.flatMap_cons, part_append, part_append]
    cases trust with
    | true => rw [hbeside hbefore, hbeside hafter]
    | false => rfl
  have hkey : ∀ u, (t.entry u).path = t.path.val := fun _ => rfl
  rw [part_selection, part_selection, supplement_tracked ht, Repo.Supplied,
    ← part_eq_nil_iff StatusEntry.path (k := t.path.val) (l := repo.statusEntries false), hparts true, hparts false,
    listed_hidden hhidden, part_cons_of_eq StatusEntry.path (hkey _)]
  generalize part StatusEntry.path t.path.val (before.flatMap (repo.listed false)) = above
  generalize part StatusEntry.path t.path.val (after.flatMap (repo.listed false)) = below
  by_cases hstaged : t.staged = .clean
  · -- git says nothing of it in one run
    rw [listed_clean hhidden hstaged, origins_clean hstaged, part_nil, List.nil_append, if_neg (by simp)]
    by_cases hempty : above ++ below = []
    · obtain ⟨rfl, rfl⟩ := List.append_eq_nil_iff.mp hempty
      have hentry : t.entry .modified = { status := unreportedModeStatus, path := t.path.val } := by
        rw [Tracked.entry, hstaged]
        rfl
      cases hmismatch : repo.mismatch t with
      | false => simp
      | true => simp [hentry, hstaged]
    · have hlength : above ++ ([t.entry .modified] ++ below) ≠ above ++ below := by
        intro heq
        have hlen := congrArg List.length heq
        simp only [List.length_append, List.length_singleton] at hlen
        omega
      rw [if_neg hempty]
      exact iff_of_false hlength fun h => hempty h.2.2
  · -- git says in both runs that it is staged, and in one run more
    have hdiffer : t.entry .modified ≠ t.entry .clean := by
      intro heq
      have hletters := String.ofList_inj.mp (congrArg StatusEntry.status heq)
      simp [Unstaged.letter] at hletters
    rw [listed_staged hhidden hstaged, part_cons_of_eq StatusEntry.path (hkey _), if_neg (by simp), if_neg (by simp)]
    refine iff_of_false (fun heq => ?_) fun h => hstaged h.1
    have hrest := List.append_cancel_left heq
    exact hdiffer (List.cons.inj hrest).1

/-- The fingerprint does not depend on `core.filemode` exactly if every hidden bit is made up for. -/
theorem fingerprint_independent_iff (sha : Sha256) (repo : Repo) (h : Apart sha repo) :
    (dirtyIdentity sha repo true).fingerprint = (dirtyIdentity sha repo false).fingerprint ↔
      ∀ t ∈ repo.tracked, repo.hidden t = true → repo.Supplied t := by
  rw [fingerprint_eq_iff_parts h]
  constructor
  · intro hparts t ht hhidden
    exact (part_selection_hidden ht hhidden).mp (hparts t.path.val)
  · intro hsupplied p
    by_cases hp : ∃ t ∈ repo.tracked, repo.hidden t = true ∧ t.path.val = p
    · obtain ⟨t, ht, hhidden, rfl⟩ := hp
      exact (part_selection_hidden ht hhidden).mpr (hsupplied t ht hhidden)
    · have hstatus : part StatusEntry.path p (repo.statusEntries true) = part StatusEntry.path p (repo.statusEntries false) := by
        rw [statusEntries_eq, statusEntries_eq]
        refine part_flatMap_congr StatusEntry.path fun item hitem => part_listed fun t ht hhidden hpath => ?_
        exact hp ⟨t, List.mem_filterMap.mpr ⟨item, hitem, by rw [ht]; rfl⟩, hhidden, hpath⟩
      rw [part_selection, part_selection, hstatus]

namespace Sample

def content : String := "echo ok\n"
def contentHash : String := "4726de74e6ad02ddb5decee701960c06c6fd91a871f95238350941eed7dbb22a"

/-- The line of `run.sh`. -/
def doc (status worktreeMode : String) : List Char :=
  Entry.line {
    path := "run.sh", status, kind := "file", indexMode := "100755", worktreeMode, digest := contentHash }

/-- SHA-256 on the texts below. -/
def table : List (List Char × String) :=
  [(content.toList, contentHash),
    (doc "MM" "100644", "8c74c8327da32f9722201f4bbe549e7c36abebbafbeedf5696ede45956078b9e"),
    (doc "M " "100644", "c8f850b92aca4e03f987905bacd7f0919ef29b33abe1c5b23807f7fa3e7b6fec"),
    (doc " M" "100644", "3424e9d366363b773e621c5d37c48cfbd6ec402bdfd249041402fa8a88caec65"),
    (doc " M" "100755", "7839e7bed7885103fb764c86e881adfd191cc5246fa57167929f235ed2e038b2")]

/-- The hash of the empty text stands for all others. -/
def hexdigest (x : List Char) : String :=
  ((table.find? fun r => r.1 = x).map Prod.snd).getD "e3b0c44298fc1c149afbf4c8996fb92427ae41e4649b934ca495991b7852b855"

theorem hexdigest_plain (x : List Char) : ∀ c ∈ (hexdigest x).toList, c ≠ '\x00' ∧ c ≠ '\n' := by
  have hall : (hexdigest x).toList.all (fun c => c != '\x00' && c != '\n') = true := by
    have htable : ∀ r ∈ table, r.2.toList.all (fun c => c != '\x00' && c != '\n') = true := by decide +kernel
    unfold hexdigest
    cases hfind : table.find? fun r => r.1 = x with
    | none => decide +kernel
    | some r => exact htable r (List.mem_of_find?_eq_some hfind)
  intro c hc
  simpa using List.all_eq_true.mp hall c hc

def sha : Sha256 where
  hexdigest := hexdigest
  plain := hexdigest_plain

def script : Name where
  val := "run.sh"
  noNull := by decide

/-- One script, executable in the index. -/
def repo (staged : Staged) (perm : Nat) : Repo where
  files path := if path = "run.sh" then some (.regular perm content) else none
  items := [.tracked { path := script, mode := .executable, staged, unstaged := .clean, watched := true }]
  distinct := by simp [Item.tracked?]

end Sample

/-- A staged script whose bit is taken away, and a script that its owner alone may not execute. -/
theorem depends_on_filemode :
    (dirtyIdentity Sample.sha (Sample.repo .modified 0o644) true).fingerprint ≠
        (dirtyIdentity Sample.sha (Sample.repo .modified 0o644) false).fingerprint ∧
      (dirtyIdentity Sample.sha (Sample.repo .clean 0o655) true).fingerprint ≠
        (dirtyIdentity Sample.sha (Sample.repo .clean 0o655) false).fingerprint := by
  decide +kernel

/-- A clean script whose bit is taken away is found in both runs. -/
theorem fingerprint_independent_clean :
    (dirtyIdentity Sample.sha (Sample.repo .clean 0o644) true).fingerprint =
      (dirtyIdentity Sample.sha (Sample.repo .clean 0o644) false).fingerprint :=
  (fingerprint_independent_iff Sample.sha (Sample.repo .clean 0o644) (fun _ => by decide +kernel)).mpr (by
    intro t ht _
    obtain rfl := List.mem_singleton.mp ht
    exact ⟨rfl, by decide +kernel, by decide +kernel⟩)

end Hermes.DirtyInputs

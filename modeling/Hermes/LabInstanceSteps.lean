import Hermes.LabInstance

/- What the commands of the lab do to an instance, however they end.

   Every command keeps what it reads: an identity that is whole is the instance's own and
   names the domain, and `profile.json` and `artifact.json` are whole (`Owned`). What an
   interrupted write leaves is a cut identity or a temporary file (`Leftover`). A command
   leaves such a thing exactly if it was there before or the command was interrupted within
   a write, and it touches no other instance (`task_triple`). -/
namespace Hermes.LabInstance
open Process

variable {ν : Type}

/-! ## Places -/

/-- The files that are only there or not. -/
def FileName.plain : FileName → Bool
  | .identity => false
  | .document _ => false
  | .temporary _ => false
  | _ => true

theorem Place.file_put {p : Place ν} {f : FileName} {c : Option (Content ν f)} (h : p.directory.isSome = true) :
    (p.put f c).file f = c := by
  obtain ⟨d, hd⟩ := Option.isSome_iff_exists.mp h
  simp [Place.put, Place.file, hd]

theorem Place.file_put_of_ne {p : Place ν} {f g : FileName} {c : Option (Content ν f)} (h : g ≠ f) :
    (p.put f c).file g = p.file g := by
  cases hd : p.directory with
  | none => simp [Place.put, Place.file, hd]
  | some d => simp [Place.put, Place.file, hd, Function.update_of_ne h]

@[simp] theorem Place.domain_put {p : Place ν} {f : FileName} {c : Option (Content ν f)} :
    (p.put f c).domain = p.domain := rfl

@[simp] theorem Place.directory_put {p : Place ν} {f : FileName} {c : Option (Content ν f)} :
    (p.put f c).directory.isSome = p.directory.isSome := by
  simp [Place.put]

theorem Place.file_none {p : Place ν} (h : p.directory = none) (f : FileName) : p.file f = none := by
  simp [Place.file, h]

theorem Place.directory_of_file {p : Place ν} {f : FileName} {c : Content ν f} (h : p.file f = some c) :
    p.directory.isSome = true := by
  cases hd : p.directory with
  | none => simp [Place.file_none hd] at h
  | some d => simp

theorem mem_fileNames (f : FileName) : f ∈ fileNames := by
  cases f <;> first | decide | (rename_i d; cases d <;> decide)

theorem Place.mem_listing {p : Place ν} {f : FileName} : f ∈ p.listing ↔ (p.file f).isSome = true := by
  simp [Place.listing, mem_fileNames]

/-- What the lab may rely on at an instance. -/
structure Owned (n : ν) (p : Place ν) : Prop where
  identity : ∀ i : Identity ν, p.file .identity = some (Text.whole i) →
    i = identityOf n i.uuid i.port ∧ 22222 ≤ i.port ∧ i.port ≤ 22999
  documents : ∀ d, p.file (.document d) ≠ some (Text.cut : Text (Value d))
  domain : ∀ d, p.domain = some d → d.disks = [(n, .disk), (n, .seed)] ∧
    (p.file .identity = some (Text.cut : Text (Identity ν)) ∨
      ∃ i : Identity ν, p.file .identity = some (Text.whole i) ∧ i.uuid = d.uuid)

/-- What a write that was not ended left. -/
def Leftover (p : Place ν) : Prop :=
  p.file .identity = some (Text.cut : Text (Identity ν)) ∨ ∃ d, (p.file (.temporary d)).isSome = true

theorem owned_empty (n : ν) : Owned n (.empty : Place ν) where
  identity i h := by simp [Place.file, Place.empty] at h
  documents d h := by simp [Place.file, Place.empty] at h
  domain d h := by simp [Place.empty] at h

theorem not_leftover_of_none {p : Place ν} (h : p.directory = none) : ¬Leftover p := by
  simp [Leftover, Place.file_none h]

theorem plain_ne {f : FileName} (h : f.plain = true) :
    .identity ≠ f ∧ (∀ d, .document d ≠ f) ∧ ∀ d, .temporary d ≠ f := by
  cases f <;> simp [FileName.plain] at h ⊢

theorem Owned.put_plain {n : ν} {p : Place ν} {f : FileName} {c : Option (Content ν f)} (h : Owned n p)
    (hf : f.plain = true) : Owned n (p.put f c) where
  identity i hi := by
    rw [Place.file_put_of_ne (plain_ne hf).1] at hi
    exact h.identity i hi
  documents d := by
    rw [Place.file_put_of_ne ((plain_ne hf).2.1 d)]
    exact h.documents d
  domain d hd := by
    rw [Place.file_put_of_ne (plain_ne hf).1]
    exact h.domain d hd

theorem leftover_put_plain {p : Place ν} {f : FileName} {c : Option (Content ν f)} (hf : f.plain = true) :
    Leftover (p.put f c) ↔ Leftover p := by
  simp only [Leftover, Place.file_put_of_ne (plain_ne hf).1, Place.file_put_of_ne ((plain_ne hf).2.2 _)]

/-- The identity is opened for writing. -/
theorem Owned.put_cut {n : ν} {p : Place ν} (h : Owned n p) (hp : p.directory.isSome = true) :
    Owned n (p.put .identity (some (Text.cut : Text (Identity ν)))) where
  identity i hi := by
    rw [Place.file_put hp] at hi
    cases hi
  documents d := by
    rw [Place.file_put_of_ne (by simp)]
    exact h.documents d
  domain d hd := ⟨(h.domain d hd).1, Or.inl (Place.file_put hp)⟩

/-- The identity is written. -/
theorem Owned.put_whole {n : ν} {p : Place ν} {uuid : String} {port : Nat} (h : Owned n p)
    (hp : p.directory.isSome = true) (hport : 22222 ≤ port ∧ port ≤ 22999)
    (hd : ∀ d, p.domain = some d → uuid = d.uuid) :
    Owned n (p.put .identity (some (Text.whole (identityOf n uuid port) : Text (Identity ν)))) where
  identity i hi := by
    rw [Place.file_put hp] at hi
    cases hi
    exact ⟨rfl, hport⟩
  documents d := by
    rw [Place.file_put_of_ne (by simp)]
    exact h.documents d
  domain d hdom := ⟨(h.domain d hdom).1, Or.inr ⟨_, Place.file_put hp, hd d hdom⟩⟩

theorem leftover_put_cut {p : Place ν} (hp : p.directory.isSome = true) :
    Leftover (p.put .identity (some (Text.cut : Text (Identity ν)))) :=
  Or.inl (Place.file_put hp)

theorem leftover_put_whole {p : Place ν} {i : Identity ν} (hp : p.directory.isSome = true)
    (h : ¬Leftover p) : ¬Leftover (p.put .identity (some (Text.whole i : Text (Identity ν)))) := by
  rintro (hc | ⟨d, hd⟩)
  · rw [Place.file_put hp] at hc
    cases hc
  · rw [Place.file_put_of_ne (by simp)] at hd
    exact h (Or.inr ⟨d, hd⟩)

/-- A temporary file is no concern of the other documents. -/
theorem Owned.put_temporary {n : ν} {p : Place ν} {d : Document} {c : Option (Text (Value d))} (h : Owned n p) :
    Owned n (p.put (.temporary d) c) where
  identity i hi := by
    rw [Place.file_put_of_ne (by simp)] at hi
    exact h.identity i hi
  documents e := by
    rw [Place.file_put_of_ne (by simp)]
    exact h.documents e
  domain e he := by
    rw [Place.file_put_of_ne (by simp)]
    exact h.domain e he

theorem Owned.put_document {n : ν} {p : Place ν} {d : Document} {c : Option (Text (Value d))} (h : Owned n p)
    (hp : p.directory.isSome = true) (hc : c ≠ some .cut) : Owned n (p.put (.document d) c) where
  identity i hi := by
    rw [Place.file_put_of_ne (by simp)] at hi
    exact h.identity i hi
  documents e := by
    by_cases he : e = d
    · subst he
      rw [Place.file_put hp]
      exact hc
    · rw [Place.file_put_of_ne (by simpa using he)]
      exact h.documents e
  domain e he := by
    rw [Place.file_put_of_ne (by simp)]
    exact h.domain e he

theorem leftover_put_temporary {p : Place ν} {d : Document} {c : Text (Value d)} (hp : p.directory.isSome = true) :
    Leftover (p.put (.temporary d) (some c)) :=
  Or.inr ⟨d, by rw [Place.file_put hp]; rfl⟩

/-- A temporary file that was written takes the place of the document. -/
theorem file_replace {p : Place ν} {d : Document} {c : Text (Value d)} (hp : p.directory.isSome = true)
    (f : FileName) (hf : f ≠ .document d) (hnone : p.file (.temporary d) = none) :
    ((p.put (.temporary d) (some c)).replace d).file f = p.file f := by
  rw [Place.replace]
  by_cases ht : f = .temporary d
  · subst ht
    rw [Place.file_put (by simpa using hp), hnone]
  · rw [Place.file_put_of_ne ht, Place.file_put_of_ne hf, Place.file_put_of_ne ht]

theorem Owned.replace {n : ν} {p : Place ν} {d : Document} {v : Value d} (h : Owned n p)
    (hp : p.directory.isSome = true) :
    Owned n ((p.put (.temporary d) (some (Text.whole v : Text (Value d)))).replace d) := by
  apply Owned.put_temporary
  apply Owned.put_document h.put_temporary (by simpa using hp)
  rw [Place.file_put hp]
  simp

theorem leftover_replace {p : Place ν} {d : Document} {v : Value d} (hp : p.directory.isSome = true)
    (hnone : p.file (.temporary d) = none) :
    Leftover ((p.put (.temporary d) (some (Text.whole v : Text (Value d)))).replace d) ↔ Leftover p := by
  rw [Leftover, Leftover, file_replace hp .identity (by simp) hnone]
  apply or_congr_right
  exact exists_congr fun e => by rw [file_replace hp (.temporary e) (by simp) hnone]

/-! ## Where a command stands -/

/-- The command works on `n`, which is `p` now; it is writing `w`. -/
structure Now (n : ν) (l₀ : Lab ν) (p : Place ν) (w : Option (Path ν)) (l : Lab ν) : Prop where
  others : ∀ m, m ≠ n → l.place m = l₀.place m
  place : l.place n = p
  writing : l.writing = w

/-- A place a command may leave. -/
structure Fine (n : ν) (l₀ : Lab ν) (p : Place ν) (w : Option (Path ν)) : Prop where
  owned : Owned n p
  leftover : Leftover p ↔ Leftover (l₀.place n) ∨ w ≠ none
  writing : ∀ q, w = some q → q.1 = n

/-- What a command leaves, however it ends. -/
def Ended (n : ν) (l₀ l : Lab ν) : Prop := ∃ p w, Now n l₀ p w l ∧ Fine n l₀ p w

/-- Nothing is being written, and the place is a fine one with `φ`. -/
def Quiet (n : ν) (l₀ : Lab ν) (φ : Place ν → Prop) (l : Lab ν) : Prop :=
  ∃ p, Now n l₀ p none l ∧ Fine n l₀ p none ∧ φ p

theorem Now.ended {n : ν} {l₀ l : Lab ν} {p : Place ν} {w : Option (Path ν)} (h : Now n l₀ p w l)
    (hp : Fine n l₀ p w) : Ended n l₀ l :=
  ⟨p, w, h, hp⟩

theorem Now.write {n : ν} {l₀ l : Lab ν} {p : Place ν} {w : Option (Path ν)} (h : Now n l₀ p w l)
    (w' : Option (Path ν)) : Now n l₀ p w' { l with writing := w' } :=
  ⟨h.others, h.place, rfl⟩

variable {α β : Type}

/-- `x` only reads. -/
def Reads (x : Task (Lab ν) α) : Prop := ∀ I : Lab ν → Prop, Keeps I x

theorem Reads.bind {x : Task (Lab ν) α} {f : α → Task (Lab ν) β} (hx : Reads x) (hf : ∀ a, Reads (f a)) :
    Reads (x >>= f) :=
  fun I => Keeps.bind (hx I) (fun a => hf a I)

theorem reads_pure (a : α) : Reads (pure a : Task (Lab ν) α) := fun _ => Triple.pure' (fun _ => id)

theorem reads_raise (e : Exc) : Reads (Proc.raise e : Task (Lab ν) α) := fun _ => Triple.raise (fun _ => id)

theorem reads_read : Reads (Proc.read : Task (Lab ν) (Lab ν)) := fun _ => Triple.read (fun _ => id)

theorem reads_query {can : Lab ν → Bool} {output : Moment → Lab ν → α} : Reads (query can output) :=
  fun _ => query_keeps

theorem reads_check (what : String) : Reads (check what : Task (Lab ν) Unit) :=
  fun _ => run_keeps (fun _ _ h _ => h)

theorem reads_lockFile : Reads (lockFile : Task (Lab ν) Unit) := fun _ => lockFile_keeps

section Rules

variable {n : ν} {l₀ : Lab ν} {p p' : Place ν} {w w' : Option (Path ν)} {φ : Place ν → Prop}

theorem Fine.put_plain {f : FileName} {c : Option (Content ν f)} (h : Fine n l₀ p w) (hf : f.plain = true) :
    Fine n l₀ (p.put f c) w :=
  ⟨h.owned.put_plain hf, (leftover_put_plain hf).trans h.leftover, h.writing⟩

/-- An operation leads from a fine place to a fine place. -/
theorem act_triple {can : Lab ν → Bool} {effect : Lab ν → Lab ν} (hp : Fine n l₀ p w) (hp' : Fine n l₀ p' w')
    (heff : ∀ l, Now n l₀ p w l → can l = true → Now n l₀ p' w' (effect l)) :
    Triple (Now n l₀ p w) (act can effect) (fun _ => Now n l₀ p' w') (fun _ => Ended n l₀) :=
  run_triple (fun _ l h hc => heff l h hc) (fun _ _ h => h.ended hp)
    (fun _ _ l h hc => (heff l h hc).ended hp')

theorem Reads.now {x : Task (Lab ν) α} (hx : Reads x) (hp : Fine n l₀ p w) :
    Triple (Now n l₀ p w) x (fun _ => Now n l₀ p w) (fun _ => Ended n l₀) :=
  (hx (Now n l₀ p w)).mono (fun _ => id) (fun _ _ => id) (fun _ _ h => h.ended hp)

theorem reads_refuse (c : Bool) (reason : String) : Reads (refuse c reason : Task (Lab ν) Unit) :=
  fun _ => require_keeps

theorem reads_ofExcept (r : Except Exc α) : Reads (ofExcept r : Task (Lab ν) α) := by
  cases r with
  | error e => exact reads_raise e
  | ok a => exact reads_pure a

theorem choosePort_triple (I : Lab ν → Prop) (taken ps : List Nat) :
    Triple I (choosePort taken ps : Task (Lab ν) Nat) (fun port l => I l ∧ port ∈ ps) (fun _ => I) := by
  induction ps with
  | nil => exact Triple.raise (fun _ h => h)
  | cons port ps ih =>
    have hrest := ih.post fun a l h => (⟨h.1, List.mem_cons_of_mem port h.2⟩ : I l ∧ a ∈ port :: ps)
    rw [choosePort]
    split
    · exact hrest
    · apply Triple.bind (Q := fun _ => I)
      · refine Triple.perform (fun _ h => h) ?_
        intro m l hl r l' hr
        split at hr <;> (cases hr; exact hl)
      · intro free
        cases free
        · exact hrest
        · exact Triple.pure' fun l h => ⟨h, by simp⟩

theorem reads_openInstance (n : ν) : Reads (openInstance n) := by
  refine reads_read.bind fun l => ?_
  split
  · exact reads_pure ()
  · exact (reads_ofExcept _).bind fun _ => reads_refuse _ _

theorem reads_recorded (n : ν) : Reads (recorded n) := by
  refine reads_read.bind fun l => ?_
  split
  · exact reads_pure none
  · exact (reads_ofExcept _).bind fun _ => reads_pure _

theorem reads_chosenProfile (n : ν) (o : Options) : Reads (chosenProfile n o) := by
  rw [chosenProfile]
  split
  · exact reads_pure _
  · exact (reads_recorded n).bind fun _ => reads_pure _

theorem reads_outdated (n : ν) (manifest : Manifest) : Reads (outdated n manifest) := by
  refine reads_read.bind fun l => ?_
  split
  · exact reads_pure _
  · exact (reads_ofExcept _).bind fun _ => reads_pure _

theorem reads_readIdentity (n : ν) (reason : String) : Reads (readIdentity n reason) := by
  refine reads_read.bind fun l => ?_
  split
  · exact reads_raise _
  · exact reads_ofExcept _

theorem reservePort_triple (n : ν) (I : Lab ν → Prop) :
    Triple I (reservePort n) (fun port l => I l ∧ port ∈ ports) (fun _ => I) := by
  refine Triple.bind (reads_lockFile I) fun _ => Triple.bind (reads_query I) fun _ => ?_
  refine Triple.bind (reads_read I) fun l => Triple.bind (reads_refuse _ _ I) fun _ => ?_
  exact Triple.bind (reads_ofExcept _ I) fun taken => choosePort_triple I taken ports

theorem Quiet.ended {l : Lab ν} (h : Quiet n l₀ φ l) : Ended n l₀ l := by
  obtain ⟨p, hnow, hp, _⟩ := h
  exact hnow.ended hp

/-- From one place at a time. -/
theorem from_quiet {x : Task (Lab ν) α} {Q : α → Lab ν → Prop} {E : Exc → Lab ν → Prop}
    (h : ∀ p, Fine n l₀ p none → φ p → Triple (Now n l₀ p none) x Q E) : Triple (Quiet n l₀ φ) x Q E := by
  rintro t l ⟨p, hnow, hp, hφ⟩
  exact h p hp hφ t l hnow

theorem Reads.quiet {x : Task (Lab ν) α} (hx : Reads x) :
    Triple (Quiet n l₀ φ) x (fun _ => Quiet n l₀ φ) (fun _ => Ended n l₀) :=
  (hx _).mono (fun _ => id) (fun _ _ => id) (fun _ _ h => h.ended)

theorem domainExists_triple {p : Place ν} (hp : Fine n l₀ p none) :
    Triple (Now n l₀ p none) (domainExists n)
      (fun a l => Now n l₀ p none l ∧ a = p.domain.isSome) (fun _ => Ended n l₀) :=
  query_triple (fun _ l h _ => ⟨h, by rw [h.place]⟩) (fun _ _ h => h.ended hp)

/-- A directory without a domain in which nothing is left over. -/
structure Blank (p : Place ν) : Prop where
  directory : p.directory.isSome = true
  domain : p.domain = none
  clear : ¬Leftover p

theorem Blank.put {p : Place ν} {f : FileName} {c : Option (Content ν f)} (h : Blank p) (hf : f.plain = true) :
    Blank (p.put f c) :=
  ⟨by simpa using h.directory, by simpa using h.domain, fun hl => h.clear ((leftover_put_plain hf).mp hl)⟩

theorem not_leftover_of_allowed {p : Place ν} (hid : p.file .identity ≠ some (Text.cut : Text (Identity ν)))
    (hall : p.listing.all allowed = true) : ¬Leftover p := by
  rintro (hc | ⟨d, hd⟩)
  · exact hid hc
  · have := List.all_eq_true.mp hall _ (Place.mem_listing.mpr hd)
    simp [allowed] at this

theorem allowed_of_not_leftover {p : Place ν} (h : ¬Leftover p) : p.listing.all allowed = true := by
  rw [List.all_eq_true]
  intro f hf
  cases f with
  | temporary d => exact absurd (Or.inr ⟨d, Place.mem_listing.mp hf⟩) h
  | _ => rfl

theorem Fine.stopped {p : Place ν} (h : Fine n l₀ p none) :
    Fine n l₀ ⟨p.directory, p.domain.map fun d => { d with running := false }⟩ none := by
  refine ⟨⟨h.owned.identity, h.owned.documents, ?_⟩, h.leftover, h.writing⟩
  intro d hd
  obtain ⟨e, he, rfl⟩ := Option.map_eq_some_iff.mp hd
  exact h.owned.domain e he

theorem Fine.undefined {p : Place ν} (h : Fine n l₀ p none) : Fine n l₀ ⟨p.directory, none⟩ none :=
  ⟨⟨h.owned.identity, h.owned.documents, by simp⟩, h.leftover, h.writing⟩

/-- Nothing is left over and the domain is gone. -/
def Undefined (p : Place ν) : Prop := ¬Leftover p ∧ p.domain = none

/-- A file is removed from a place without a domain. -/
theorem Fine.unlink {p : Place ν} (h : Fine n l₀ p none) (hp : Undefined p) (f : FileName) :
    Fine n l₀ (p.put f none) none ∧ Undefined (p.put f none) := by
  have hfile : ∀ g, (p.put f none).file g = none ∨ (p.put f none).file g = p.file g := by
    intro g
    by_cases hg : g = f
    · subst hg
      cases hd : p.directory with
      | none => exact Or.inl (by simp [Place.put, Place.file, hd])
      | some d => exact Or.inl (Place.file_put (by simp [hd]))
    · exact Or.inr (Place.file_put_of_ne hg)
  have hclear : ¬Leftover (p.put f none) := by
    rintro (hc | ⟨d, hd⟩)
    · rcases hfile .identity with h₁ | h₁
      · simp [h₁] at hc
      · exact hp.1 (Or.inl (h₁ ▸ hc))
    · rcases hfile (.temporary d) with h₁ | h₁
      · simp [h₁] at hd
      · exact hp.1 (Or.inr ⟨d, h₁ ▸ hd⟩)
  refine ⟨⟨⟨?_, ?_, by simp [hp.2]⟩, (iff_of_false hclear hp.1).trans h.leftover, h.writing⟩, hclear, hp.2⟩
  · intro i hi
    rcases hfile .identity with h₁ | h₁
    · simp [h₁] at hi
    · exact h.owned.identity i (h₁ ▸ hi)
  · intro d
    rcases hfile (.document d) with h₁ | h₁
    · simp [h₁]
    · exact h₁ ▸ h.owned.documents d

theorem freshUuid_quiet :
    Triple (Quiet n l₀ φ) freshUuid (fun _ => Quiet n l₀ φ) (fun _ => Ended n l₀) :=
  Triple.bind (instant_triple (fun _ _ h => h) (fun _ _ h => h.ended)) fun _ => Triple.pure' fun _ h => h

theorem openInstance_triple {p : Place ν} (hp : Fine n l₀ p none) :
    Triple (Now n l₀ p none) (openInstance n)
      (fun _ l => Now n l₀ p none l ∧ p.file .identity ≠ some (Text.cut : Text (Identity ν)))
      (fun _ => Ended n l₀) := by
  apply Triple.bind (Q := fun l l' => Now n l₀ p none l' ∧ l.place n = p) (Triple.read fun l h => ⟨h, h.place⟩)
  intro l
  apply Triple.given (φ := l.place n = p) (fun _ h => h.2)
  intro hl
  rw [hl]
  split
  · next hnone => exact Triple.pure' fun _ h => ⟨h.1, by simp [hnone]⟩
  · next text htext =>
    cases text with
    | cut =>
      apply Triple.bind (Q := fun _ _ => False) (Triple.raise fun _ h => h.1.ended hp)
      exact fun _ _ _ h => h.elim
    | whole i =>
      refine Triple.bind ((reads_ofExcept _).now hp |>.pre fun _ h => h.1) fun _ => ?_
      exact ((reads_refuse _ _).now hp).post fun _ _ h => ⟨h, by simp [htext]⟩

end Rules

variable [DecidableEq ν]

/-- A change of the place. -/
theorem Now.at {n : ν} {l₀ l : Lab ν} {p : Place ν} {w : Option (Path ν)} (h : Now n l₀ p w l)
    (change : Place ν → Place ν) : Now n l₀ (change p) w (l.at n change) where
  others m hm := by rw [← h.others m hm, Lab.at]; simp [hm]
  place := by rw [Lab.at, h.place]; simp
  writing := h.writing

theorem reads_checkMarker (n : ν) : Reads (checkMarker n) := by
  refine reads_read.bind fun l => ?_
  split
  · exact reads_pure ()
  · exact (reads_ofExcept _).bind fun _ => reads_refuse _ _

theorem reads_assertIdentity (n : ν) : Reads (assertIdentity n) := by
  refine (reads_readIdentity n _).bind fun i => ?_
  refine (reads_refuse _ _).bind fun _ => reads_query.bind fun uuid => ?_
  exact (reads_refuse _ _).bind fun _ => reads_query.bind fun disks => reads_refuse _ _

theorem reads_guest (n : ν) (what : String) : Reads (guest n what) :=
  (reads_assertIdentity n).bind fun _ => reads_check what

/-! ## Writing -/

section Writing

variable {n : ν} {l₀ : Lab ν} {p : Place ν}

theorem make_triple {f : FileName} {c : Content ν f} (hf : f.plain = true) (hp : Fine n l₀ p none) :
    Triple (Now n l₀ p none) (make n f c) (fun _ => Now n l₀ (p.put f (some c)) none) (fun _ => Ended n l₀) :=
  act_triple hp (hp.put_plain hf) (fun _ h _ => h.at (Place.put · f (some c)))

theorem writeIdentity_triple {uuid : String} {port : Nat} (hp : Fine n l₀ p none)
    (hdir : p.directory.isSome = true) (hl : ¬Leftover p) (hport : 22222 ≤ port ∧ port ≤ 22999)
    (hd : ∀ d, p.domain = some d → uuid = d.uuid) :
    Triple (Now n l₀ p none) (writeIdentity n (identityOf n uuid port))
      (fun _ l => Now n l₀ (p.put .identity (some (Text.whole (identityOf n uuid port) : Text (Identity ν)))) none l)
      (fun _ => Ended n l₀) := by
  have h₀ : ¬Leftover (l₀.place n) := fun h => hl (hp.leftover.mpr (Or.inl h))
  have hcut : Fine n l₀ (p.put .identity (some (Text.cut : Text (Identity ν)))) (some (n, .identity)) :=
    ⟨hp.owned.put_cut hdir, by simp [leftover_put_cut hdir], by simp⟩
  have hwhole : Fine n l₀ (p.put .identity (some (Text.whole (identityOf n uuid port) : Text (Identity ν)))) none :=
    ⟨hp.owned.put_whole hdir hport hd, by simp [leftover_put_whole hdir hl, h₀], by simp⟩
  apply Triple.bind (act_triple hp hcut fun l h _ =>
    (h.at (Place.put · .identity (some (Text.cut : Text (Identity ν))))).write (some (n, .identity)))
  intro _
  apply act_triple hcut hwhole
  intro l h _
  have hput : (p.put .identity (some (Text.cut : Text (Identity ν)))).put .identity
      (some (Text.whole (identityOf n uuid port) : Text (Identity ν))) =
      p.put .identity (some (Text.whole (identityOf n uuid port) : Text (Identity ν))) := by
    obtain ⟨d, hd⟩ := Option.isSome_iff_exists.mp hdir
    simp [Place.put, hd]
  rw [← hput]
  exact (h.at (Place.put · .identity (some (Text.whole (identityOf n uuid port) : Text (Identity ν))))).write none

theorem writeJson_triple {d : Document} {v : Value d} (hp : Fine n l₀ p none) :
    Triple (Now n l₀ p none) (writeJson n d v) (fun _ => Quiet n l₀ fun _ => True) (fun _ => Ended n l₀) := by
  by_cases hc : ¬(p.directory.isSome = true ∧ p.file (.temporary d) = none)
  · -- the temporary file cannot be opened
    apply Triple.bind (Q := fun _ _ => False)
    · refine run_triple ?_ (fun _ _ h => h.ended hp) ?_
      · intro _ l h hcan
        simp [h.place] at hcan
        exact hc hcan
      · intro _ _ l h hcan
        simp [h.place] at hcan
        exact absurd hcan hc
    · exact fun _ _ _ h => h.elim
  obtain ⟨hdir, hnone⟩ := Classical.not_not.mp hc
  have htemp : ∀ c : Text (Value d), Fine n l₀ (p.put (.temporary d) (some c)) (some (n, .document d)) :=
    fun c => ⟨hp.owned.put_temporary, by simp [leftover_put_temporary hdir], by simp⟩
  have hdone : Fine n l₀ ((p.put (.temporary d) (some (Text.whole v : Text (Value d)))).replace d) none :=
    ⟨hp.owned.replace hdir, (leftover_replace hdir hnone).trans hp.leftover, by simp⟩
  apply Triple.bind (act_triple hp (htemp .cut) fun l h _ =>
    (h.at (Place.put · (.temporary d) (some (Text.cut : Text (Value d))))).write (some (n, .document d)))
  intro _
  apply Triple.bind (Q := fun _ => Now n l₀ (p.put (.temporary d) (some (Text.whole v : Text (Value d))))
    (some (n, .document d)))
  · apply act_triple (htemp .cut) (htemp (.whole v))
    intro l h _
    have hput : (p.put (.temporary d) (some (Text.cut : Text (Value d)))).put (.temporary d)
        (some (Text.whole v : Text (Value d))) = p.put (.temporary d) (some (Text.whole v : Text (Value d))) := by
      obtain ⟨dir, hd⟩ := Option.isSome_iff_exists.mp hdir
      simp [Place.put, hd]
    rw [← hput]
    exact h.at (Place.put · (.temporary d) (some (Text.whole v : Text (Value d))))
  · intro _
    exact (act_triple (htemp (.whole v)) hdone fun l h _ => (h.at (Place.replace · d)).write none).post
      (fun _ l h => ⟨_, h, hdone, trivial⟩)

end Writing

/-! ## The commands -/

section Commands

variable {n : ν} {l₀ : Lab ν} {φ : Place ν → Prop}

theorem make_quiet {f : FileName} {c : Content ν f} (hf : f.plain = true)
    (h : ∀ p, φ p → φ (p.put f (some c))) :
    Triple (Quiet n l₀ φ) (make n f c) (fun _ => Quiet n l₀ φ) (fun _ => Ended n l₀) :=
  from_quiet fun p hp hφ => (make_triple hf hp).post fun _ l hl => ⟨_, hl, hp.put_plain hf, h p hφ⟩

theorem createKey_quiet {f g : FileName} {c : Content ν f} {c' : Content ν g} (hf : f.plain = true)
    (hg : g.plain = true) :
    Triple (Quiet n l₀ Blank) (createKey n f g c c') (fun _ => Quiet n l₀ Blank) (fun _ => Ended n l₀) := by
  refine Triple.bind reads_read.quiet fun l => Triple.bind (reads_refuse _ _).quiet fun _ => ?_
  exact Triple.bind (make_quiet hf fun p h => h.put hf) fun _ => make_quiet hg fun p h => h.put hg

theorem createSeed_quiet :
    Triple (Quiet n l₀ Blank) (createSeed n) (fun _ => Quiet n l₀ Blank) (fun _ => Ended n l₀) := by
  refine Triple.bind (createKey_quiet rfl rfl) fun _ => Triple.bind (createKey_quiet rfl rfl) fun _ => ?_
  refine Triple.bind (make_quiet rfl fun p h => h.put rfl) fun _ => ?_
  refine Triple.bind (make_quiet rfl fun p h => h.put rfl) fun _ => ?_
  refine Triple.bind (make_quiet rfl fun p h => h.put rfl) fun _ => ?_
  exact make_quiet rfl fun p h => h.put rfl

/-- The directory of an absent instance is made. -/
theorem makeDirectory_triple {p : Place ν} (hp : Fine n l₀ p none) (habsent : p.present = false) :
    Triple (Now n l₀ p none) (makeDirectory n) (fun _ => Quiet n l₀ Blank) (fun _ => Ended n l₀) := by
  have hdom : p.domain = none := by simpa using (Bool.or_eq_false_iff.mp habsent).1
  have hdir : p.directory = none := by simpa using (Bool.or_eq_false_iff.mp habsent).2
  have hfile : ∀ f, (⟨some fun _ => none, p.domain⟩ : Place ν).file f = none := fun f => rfl
  have hclear : ¬Leftover (⟨some fun _ => none, p.domain⟩ : Place ν) := by simp [Leftover, hfile]
  have hnew : Fine n l₀ ⟨some fun _ => none, p.domain⟩ none := by
    refine ⟨⟨by simp [hfile], by simp [hfile], by simp [hdom]⟩, ?_, by simp⟩
    rw [← hp.leftover]
    exact iff_of_false hclear (not_leftover_of_none hdir)
  refine (act_triple hp hnew fun l h _ => ?_).post fun _ _ h => ⟨_, h, hnew, rfl, hdom, hclear⟩
  exact ⟨(h.at fun p => { p with directory := some fun _ => none }).others,
    (h.at fun p => { p with directory := some fun _ => none }).place, h.writing⟩

/-- `virt-install` is called with the identity of the new domain. -/
theorem virtInstall_triple {p : Place ν} {uuid : String} {port : Nat} (hp : Fine n l₀ p none)
    (hid : p.file .identity = some (Text.whole (identityOf n uuid port) : Text (Identity ν))) :
    Triple (Now n l₀ p none) (virtInstall n uuid)
      (fun _ => Now n l₀ { p with domain := some { uuid, disks := [(n, .disk), (n, .seed)], running := true } } none)
      (fun _ => Ended n l₀) := by
  apply act_triple hp
  · refine ⟨⟨hp.owned.identity, hp.owned.documents, ?_⟩, hp.leftover, hp.writing⟩
    intro d hd
    cases hd
    exact ⟨rfl, Or.inr ⟨_, hid, rfl⟩⟩
  · exact fun l h _ => h.at fun p => { p with domain := some { uuid, disks := [(n, .disk), (n, .seed)], running := true } }

/-- The identity is written for the second time. -/
theorem rewriteIdentity_triple {p : Place ν} {port : Nat} {d : Domain ν} (hp : Fine n l₀ p none)
    (hdir : p.directory.isSome = true) (hclear : ¬Leftover p) (hd : p.domain = some d)
    (hport : 22222 ≤ port ∧ port ≤ 22999) :
    Triple (Now n l₀ p none) (do
        let domuuid ← domainUuid n
        writeIdentity n (identityOf n (domuuid.getD "") port)
        guest n "true")
      (fun _ => Quiet n l₀ fun _ => True) (fun _ => Ended n l₀) := by
  apply Triple.bind (Q := fun uuid l => Now n l₀ p none l ∧ uuid = some d.uuid)
  · exact query_triple (fun _ l h _ => ⟨h, by simp [h.place, hd]⟩) (fun _ _ h => h.ended hp)
  intro domuuid
  apply Triple.given (φ := domuuid = some d.uuid) (fun _ h => h.2)
  rintro rfl
  have howner : ∀ e, p.domain = some e → d.uuid = e.uuid := fun e he => by simp_all
  have hwrite := writeIdentity_triple hp hdir hclear hport howner
  apply Triple.bind (hwrite.pre fun _ h => h.1)
  intro _
  have hnew : Fine n l₀ (p.put .identity (some (Text.whole (identityOf n d.uuid port) : Text (Identity ν)))) none :=
    ⟨hp.owned.put_whole hdir hport howner,
      (iff_of_false (leftover_put_whole hdir hclear) hclear).trans hp.leftover, by simp⟩
  exact ((reads_guest n "true").now hnew).post fun _ _ h => ⟨_, h, hnew, trivial⟩

/-- From the first identity on. -/
theorem install_triple {p : Place ν} {uuid : String} {port : Nat} (hp : Fine n l₀ p none) (hblank : Blank p)
    (hport : 22222 ≤ port ∧ port ≤ 22999) :
    Triple (Now n l₀ p none) (do
        writeIdentity n (identityOf n uuid port)
        virtInstall n uuid
        let domuuid ← domainUuid n
        writeIdentity n (identityOf n (domuuid.getD "") port)
        guest n "true")
      (fun _ => Quiet n l₀ fun _ => True) (fun _ => Ended n l₀) := by
  have hnone : ∀ d, p.domain = some d → uuid = d.uuid := by simp [hblank.domain]
  apply Triple.bind (writeIdentity_triple hp hblank.directory hblank.clear hport hnone)
  intro _
  have hclear := leftover_put_whole (i := identityOf n uuid port) hblank.directory hblank.clear
  have hnew : Fine n l₀ (p.put .identity (some (Text.whole (identityOf n uuid port) : Text (Identity ν)))) none :=
    ⟨hp.owned.put_whole hblank.directory hport hnone, (iff_of_false hclear hblank.clear).trans hp.leftover, by simp⟩
  have hid := Place.file_put (f := .identity) (c := some (Text.whole (identityOf n uuid port) : Text (Identity ν))) hblank.directory
  apply Triple.bind (virtInstall_triple hnew hid)
  intro _
  refine rewriteIdentity_triple ⟨⟨hnew.owned.identity, hnew.owned.documents, ?_⟩, hnew.leftover, hnew.writing⟩
    (by simpa using hblank.directory) hclear rfl hport
  intro d hd
  cases hd
  exact ⟨rfl, Or.inr ⟨_, hid, rfl⟩⟩

theorem freshRun_triple {port : Nat} (hport : 22222 ≤ port ∧ port ≤ 22999) :
    Triple (Quiet n l₀ φ) (freshRun n port) (fun _ => Quiet n l₀ fun _ => True) (fun _ => Ended n l₀) := by
  apply from_quiet
  intro p hp _
  apply Triple.bind (domainExists_triple hp)
  intro exists'
  apply Triple.bind (Q := fun l l' => Now n l₀ p none l' ∧ exists' = p.domain.isSome ∧ l.place n = p)
    (Triple.read fun _ h => ⟨h.1, h.2, h.1.place⟩)
  intro l
  apply Triple.given (φ := exists' = p.domain.isSome ∧ l.place n = p) (fun _ h => h.2)
  rintro ⟨rfl, hl⟩
  apply Triple.bind (Q := fun _ l' => Now n l₀ p none l' ∧ p.present = false)
  · refine require_triple (fun hc l' h => ⟨h.1, ?_⟩) (fun _ l' h => h.1.ended hp)
    rw [hl] at hc
    simpa [Place.present] using hc
  intro _
  apply Triple.given (φ := p.present = false) (fun _ h => h.2)
  intro habsent
  apply Triple.bind ((makeDirectory_triple hp habsent).pre fun _ h => h.1)
  intro _
  apply Triple.bind createSeed_quiet
  intro _
  apply Triple.bind (make_quiet rfl fun p h => h.put rfl)
  intro _
  apply Triple.bind freshUuid_quiet
  intro uuid
  exact from_quiet fun p hp hblank => install_triple hp hblank hport

theorem mem_ports {port : Nat} (h : port ∈ ports) : 22222 ≤ port ∧ port ≤ 22999 := by
  rw [ports, List.mem_range'_1] at h
  omega

theorem boot_triple :
    Triple (Quiet n l₀ φ) (boot n) (fun _ => Quiet n l₀ fun _ => True) (fun _ => Ended n l₀) := by
  apply Triple.bind ((reservePort_triple n (Quiet n l₀ φ)).mono (fun _ => id) (fun _ _ => id) (fun _ _ h => h.ended))
  intro port
  apply Triple.given (φ := port ∈ ports) (fun _ h => h.2)
  intro hport
  apply Triple.bind ((freshRun_triple (mem_ports hport)).pre fun _ h => h.1)
  exact fun _ => (reads_guest n _).quiet

/-! ### `deploy` -/

theorem transferSource_quiet :
    Triple (Quiet n l₀ fun _ => True) (transferSource n) (fun _ => Quiet n l₀ fun _ => True) (fun _ => Ended n l₀) := by
  apply Triple.bind (make_quiet rfl fun _ _ => trivial)
  intro _
  apply Triple.bind (reads_check "scp").quiet
  intro _
  apply Triple.bind (reads_guest n "tar").quiet
  intro _
  refine from_quiet fun p hp _ => ?_
  have hnew : Fine n l₀ (p.put .deploySource none) none := hp.put_plain rfl
  exact (act_triple hp hnew fun _ h _ => h.at (Place.put · .deploySource none)).post fun _ _ h => ⟨_, h, hnew, trivial⟩

theorem vmDeploy_quiet :
    Triple (Quiet n l₀ fun _ => True) (vmDeploy n) (fun _ => Quiet n l₀ fun _ => True) (fun _ => Ended n l₀) := by
  refine Triple.bind reads_query.quiet fun _ => Triple.bind (reads_refuse _ _).quiet fun _ => ?_
  refine Triple.bind (reads_guest n _).quiet fun _ => Triple.bind (reads_guest n _).quiet fun _ => ?_
  refine Triple.bind (reads_guest n _).quiet fun _ => Triple.bind (reads_check _).quiet fun _ => ?_
  exact Triple.bind transferSource_quiet fun _ => (reads_guest n _).quiet

theorem installArtifacts_quiet :
    Triple (Quiet n l₀ fun _ => True) (installArtifacts n) (fun _ => Quiet n l₀ fun _ => True)
      (fun _ => Ended n l₀) := by
  refine Triple.bind (reads_guest n _).quiet fun _ => Triple.bind transferSource_quiet fun _ => ?_
  refine Triple.bind (reads_guest n _).quiet fun _ => Triple.bind (reads_guest n _).quiet fun _ => ?_
  refine Triple.bind (reads_guest n _).quiet fun _ => ?_
  refine Triple.forEach (I := fun _ => Quiet n l₀ fun _ => True) (fun name _ => ?_) _
  refine Triple.bind (reads_assertIdentity n).quiet fun _ => Triple.bind (reads_check name).quiet fun _ => ?_
  exact (reads_guest n _).quiet

theorem writeJson_quiet (d : Document) (v : Value d) :
    Triple (Quiet n l₀ φ) (writeJson n d v) (fun _ => Quiet n l₀ fun _ => True) (fun _ => Ended n l₀) :=
  from_quiet fun _ hp _ => writeJson_triple hp

theorem deploy_quiet (profile : Profile) (manifest : Manifest) :
    Triple (Quiet n l₀ fun _ => True) (deploy n profile manifest) (fun _ => Quiet n l₀ fun _ => True)
      (fun _ => Ended n l₀) := by
  refine Triple.bind (reads_assertIdentity n).quiet fun _ => Triple.bind (reads_guest n _).quiet fun _ => ?_
  refine Triple.bind (reads_recorded n).quiet fun _ => Triple.bind (reads_refuse _ _).quiet fun _ => ?_
  refine Triple.bind vmDeploy_quiet fun _ => ?_
  exact Triple.bind (writeJson_quiet .profile profile) fun _ => writeJson_quiet .artifact manifest

theorem up_quiet (profile : Profile) (manifest : Manifest) (stock : Bool) :
    Triple (Quiet n l₀ φ) (up n profile manifest stock) (fun _ => Quiet n l₀ fun _ => True) (fun _ => Ended n l₀) := by
  refine Triple.bind (reads_check _).quiet fun _ => Triple.bind boot_triple fun _ => ?_
  cases stock
  · refine Triple.bind transferSource_quiet fun _ => Triple.bind (reads_guest n _).quiet fun _ => ?_
    exact deploy_quiet profile manifest
  · exact Triple.bind installArtifacts_quiet fun _ => deploy_quiet profile manifest

/-! ### `clean` -/

theorem removeDomain_quiet :
    Triple (Quiet n l₀ fun p => ¬Leftover p) (removeDomain n) (fun _ => Quiet n l₀ Undefined) (fun _ => Ended n l₀) := by
  refine Triple.bind (reads_readIdentity n _).quiet fun _ => Triple.bind reads_query.quiet fun _ => ?_
  refine Triple.bind (reads_refuse _ _).quiet fun _ => Triple.bind reads_query.quiet fun _ => ?_
  refine Triple.bind (reads_refuse _ _).quiet fun _ => Triple.bind (reads_check _).quiet fun _ => ?_
  refine from_quiet fun p hp hclear => ?_
  apply Triple.bind (act_triple hp hp.stopped fun _ h _ =>
    h.at fun p => { p with domain := p.domain.map fun d => { d with running := false } })
  intro _
  refine (act_triple hp.stopped hp.undefined fun _ h _ => h.at fun p => { p with domain := none }).post ?_
  exact fun _ _ h => ⟨_, h, hp.undefined, hclear, rfl⟩

theorem unlink_quiet (f : FileName) :
    Triple (Quiet n l₀ Undefined) (unlink n f) (fun _ => Quiet n l₀ Undefined) (fun _ => Ended n l₀) := by
  refine from_quiet fun p hp hu => ?_
  obtain ⟨hnew, hu'⟩ := hp.unlink hu f
  exact (act_triple hp hnew fun _ h _ => h.at (Place.put · f none)).post fun _ _ h => ⟨_, h, hnew, hu'⟩

theorem removeTree_quiet :
    Triple (Quiet n l₀ Undefined) (removeTree n) (fun _ => Quiet n l₀ fun _ => True) (fun _ => Ended n l₀) := by
  refine Triple.bind reads_read.quiet fun l => ?_
  refine Triple.bind (Triple.forEach (I := fun _ => Quiet n l₀ Undefined) (fun f _ => unlink_quiet f) _) fun _ => ?_
  refine from_quiet fun p hp hu => ?_
  have hnew : Fine n l₀ ⟨none, p.domain⟩ none := by
    refine ⟨⟨by simp [Place.file], by simp [Place.file], by simp [hu.2]⟩, ?_, by simp⟩
    exact (iff_of_false (not_leftover_of_none rfl) hu.1).trans hp.leftover
  refine (act_triple hp hnew fun _ h _ => h.at fun p => { p with directory := none }).post ?_
  exact fun _ _ h => ⟨_, h, hnew, trivial⟩

theorem removeDirectory_quiet :
    Triple (Quiet n l₀ Undefined) (removeDirectory n) (fun _ => Quiet n l₀ fun _ => True) (fun _ => Ended n l₀) := by
  refine Triple.bind (reads_checkMarker n).quiet fun _ => Triple.bind reads_read.quiet fun l => ?_
  exact Triple.bind (reads_refuse _ _).quiet fun _ => removeTree_quiet

theorem clean_triple {p : Place ν} (hp : Fine n l₀ p none)
    (hid : p.file .identity ≠ some (Text.cut : Text (Identity ν))) :
    Triple (Now n l₀ p none) (clean n) (fun _ l => Quiet n l₀ (fun _ => True) l ∧ ¬Leftover p)
      (fun _ => Ended n l₀) := by
  apply Triple.bind (Q := fun l l' => Now n l₀ p none l' ∧ l.place n = p) (Triple.read fun l h => ⟨h, h.place⟩)
  intro l
  apply Triple.given (φ := l.place n = p) (fun _ h => h.2)
  intro hl
  apply Triple.bind (Q := fun _ l' => Now n l₀ p none l' ∧ ¬Leftover p)
  · refine require_triple (fun hc l' h => ⟨h.1, not_leftover_of_allowed hid ?_⟩) (fun _ l' h => h.1.ended hp)
    simpa [hl] using hc
  intro _
  apply Triple.given (φ := ¬Leftover p) (fun _ h => h.2)
  intro hclear
  have hstart : ∀ l', Now n l₀ p none l' ∧ ¬Leftover p → Quiet n l₀ (fun p => ¬Leftover p) l' :=
    fun l' h => ⟨p, h.1, hp, h.2⟩
  apply Triple.bind (reads_query.quiet.pre hstart)
  intro exists'
  apply Triple.bind (onlyIf_triple (fun _ => (reads_assertIdentity n).quiet) fun _ _ h => h)
  intro _
  apply Triple.bind (Q := fun exists'' l' => ∃ q, Now n l₀ q none l' ∧ Fine n l₀ q none ∧ ¬Leftover q ∧
    exists'' = q.domain.isSome)
  · refine from_quiet fun q hq hc => (domainExists_triple hq).post fun b l' h => ⟨q, h.1, hq, hc, h.2⟩
  intro exists''
  apply Triple.bind (Q := fun _ => Quiet n l₀ Undefined)
  · refine onlyIf_triple (fun _ => removeDomain_quiet.pre ?_) ?_
    · exact fun l' ⟨q, h, hq, hc, _⟩ => ⟨q, h, hq, hc⟩
    · rintro he l' ⟨q, h, hq, hc, rfl⟩
      exact ⟨q, h, hq, hc, by simpa using he⟩
  intro _
  refine Triple.post (Q := fun _ => Quiet n l₀ fun _ => True) ?_ fun _ l' h => ⟨h, hclear⟩
  refine Triple.bind reads_read.quiet fun l' => onlyIf_triple (fun _ => removeDirectory_quiet) ?_
  exact fun _ l'' ⟨q, h, hq, _⟩ => ⟨q, h, hq, trivial⟩

/-! ### What every command does -/

/-- What a command leaves at its instance and at the others. -/
theorem task_triple (o : Options) (c : Command) (howned : Owned n (l₀.place n)) :
    Triple (fun l => l = l₀) (c.task n o) (fun _ => Ended n l₀) (fun _ => Ended n l₀) := by
  have hp : Fine n l₀ (l₀.place n) none := ⟨howned, by simp, by simp⟩
  have hstart : ∀ l, l = l₀ → Now n l₀ (l₀.place n) none { l with writing := none } := by
    rintro l rfl
    exact ⟨fun _ _ => rfl, rfl, rfl⟩
  apply Triple.bind (Q := fun _ => Now n l₀ (l₀.place n) none) (Triple.update hstart)
  intro _
  apply Triple.bind (openInstance_triple hp)
  intro _
  apply Triple.given (φ := (l₀.place n).file .identity ≠ some (Text.cut : Text (Identity ν))) (fun _ h => h.2)
  intro hid
  apply Triple.bind (((reads_chosenProfile n o).now hp).pre fun _ h => h.1)
  intro profile
  apply Triple.bind (reads_lockFile.now hp)
  intro _
  have hquiet : ∀ l, Now n l₀ (l₀.place n) none l → Quiet n l₀ (fun _ => True) l := fun l h => ⟨_, h, hp, trivial⟩
  cases c with
  | up stock =>
    apply Triple.bind ((reads_check _).quiet.pre hquiet)
    exact fun _ => (up_quiet profile o.manifest stock).post fun _ _ h => h.ended
  | deploy =>
    apply Triple.bind ((reads_check _).quiet.pre hquiet)
    intro _
    apply Triple.bind (reads_outdated n _).quiet
    intro old
    apply Triple.bind (onlyIf_triple (fun _ => installArtifacts_quiet) fun _ _ h => h)
    exact fun _ => (deploy_quiet profile o.manifest).post fun _ _ h => h.ended
  | clean => exact (clean_triple hp hid).post fun _ _ h => h.1.ended

end Commands

end Hermes.LabInstance

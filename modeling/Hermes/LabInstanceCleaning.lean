import Hermes.LabInstanceSteps

/- An instance of the lab after interruptions: it can be opened, cleaned and deployed again,
   and is no obstacle to others, exactly if no write left anything over (`usable_iff`). Nothing
   that could remove such a leftover gets past it, so this is so in every state exactly if no
   command was interrupted within a write (`cleanable`). -/
namespace Hermes.LabInstance
open Process

variable {ν : Type}

/-- Every operation that can succeed does. -/
def Good (m : Moment) : Prop := m.verdict = .done

/-! ## The operations where they can succeed -/

section Rules

variable {α : Type} {n : ν} {l₀ : Lab ν} {p p' : Place ν} {w w' : Option (Path ν)} {P : Lab ν → Prop}
  {E : Exc → Lab ν → Prop}

theorem act_within {can : Lab ν → Bool} {effect : Lab ν → Lab ν} {Q : Unit → Lab ν → Prop}
    (hcan : ∀ l, P l → can l = true) (heff : ∀ l, P l → Q () (effect l)) : Within Good 1 P (act can effect) Q E :=
  run_within (fun _ h => h) (fun _ l _ h _ => heff l h) (fun l h hc => absurd ((hcan l h).symm.trans hc) (by decide))

theorem check_within (what : String) : Within Good 1 P (check what) (fun _ => P) E :=
  act_within (fun _ _ => rfl) (fun _ h => h)

theorem query_within {can : Lab ν → Bool} {output : Moment → Lab ν → α} (hcan : ∀ l, P l → can l = true) (a : α)
    (ha : ∀ m l, P l → output m l = a) : Within Good 1 P (query can output) (fun b l => P l ∧ b = a) E :=
  run_within (fun _ h => h) (fun m l _ h _ => ⟨h, ha m l h⟩)
    (fun l h hc => absurd ((hcan l h).symm.trans hc) (by decide))

theorem refuse_within {c : Bool} {reason : String} (hc : c = false) : Within Good 0 P (refuse c reason) (fun _ => P) E :=
  require_within (fun _ _ => by simp [hc]) (fun _ h => h)

theorem lockFile_within : Within Good 1 P (lockFile : Task (Lab ν) Unit) (fun _ => P) E := by
  apply Within.perform
  intro m l hm hl r l' hr
  rw [if_pos (show m.verdict = .done from hm)] at hr
  cases hr
  exact hl

/-- A step whose result is known. -/
theorem bind_value {β : Type} {k a : Nat} {x : Task (Lab ν) β} {f : β → Task (Lab ν) α} {P' : Lab ν → Prop} {c : β}
    {Q : α → Lab ν → Prop} (hx : Within Good a P x (fun b l => P' l ∧ b = c) E)
    (hf : Within Good (k - a) P' (f c) Q E) (h : a ≤ k) : Within Good k P (x >>= f) Q E := by
  refine Within.bind_sub (n := k) hx (fun b => ?_) h
  refine Within.given (fun _ h => h.2) fun hb => ?_
  rw [hb]
  exact hf.pre fun _ h => h.1

theorem bind_step {k a : Nat} {x : Task (Lab ν) Unit} {f : Unit → Task (Lab ν) α} {P' : Lab ν → Prop}
    {Q : α → Lab ν → Prop} (hx : Within Good a P x (fun _ => P') E) (hf : Within Good (k - a) P' (f ()) Q E)
    (h : a ≤ k) : Within Good k P (x >>= f) Q E :=
  Within.bind_sub (n := k) hx (fun _ => hf) h

/-- The state is read where the place is known. -/
theorem read_within : Within Good 0 (Now n l₀ p w) (Proc.read : Task (Lab ν) (Lab ν))
    (fun l l' => Now n l₀ p w l' ∧ l.place n = p) E :=
  Within.read fun _ h => ⟨h, h.place⟩

/-- Something that is decided by the place alone. -/
theorem read_bind_within {k : Nat} {f : Lab ν → Task (Lab ν) α} {Q : α → Lab ν → Prop}
    (h : ∀ l, l.place n = p → Within Good k (Now n l₀ p w) (f l) Q E) :
    Within Good k (Now n l₀ p w) (Proc.read >>= f) Q E := by
  refine Within.bind_sub (n := k) read_within (fun l => ?_) (Nat.zero_le k)
  exact Within.given (fun _ h => h.2) fun hl => (h l hl).pre fun _ h => h.1

end Rules

/-! ## Where there is a domain -/

/-- An instance with a domain in which nothing is left over and no other sizing is recorded. -/
structure Ready (n : ν) (vm : Sizing) (p : Place ν) : Prop where
  owned : Owned n p
  clear : ¬Leftover p
  domain : p.domain.isSome = true
  sizing : ∀ r : Profile, p.file (.document .profile) = some (Text.whole r : Text Profile) → r.vm = vm

theorem Ready.identity {n : ν} {vm : Sizing} {p : Place ν} (h : Ready n vm p) :
    ∃ (d : Domain ν) (port : Nat), p.domain = some d ∧ d.disks = [(n, .disk), (n, .seed)] ∧
      p.file .identity = some (Text.whole (identityOf n d.uuid port) : Text (Identity ν)) := by
  obtain ⟨d, hd⟩ := Option.isSome_iff_exists.mp h.domain
  obtain ⟨hdisks, hcut | ⟨i, hi, hu⟩⟩ := h.owned.domain d hd
  · exact absurd (Or.inl hcut) h.clear
  · refine ⟨d, i.port, hd, hdisks, ?_⟩
    rw [hi, ← hu, ← (h.owned.identity i hi).1]

theorem Ready.directory {n : ν} {vm : Sizing} {p : Place ν} (h : Ready n vm p) : p.directory.isSome = true := by
  obtain ⟨_, _, _, _, hi⟩ := h.identity
  exact Place.directory_of_file hi

theorem Ready.put {n : ν} {vm : Sizing} {p : Place ν} {f : FileName} {c : Option (Content ν f)} (h : Ready n vm p)
    (hf : f.plain = true) : Ready n vm (p.put f c) := by
  refine ⟨h.owned.put_plain hf, fun hl => h.clear ((leftover_put_plain hf).mp hl), h.domain, fun r hr => ?_⟩
  rw [Place.file_put_of_ne ((plain_ne hf).2.1 .profile)] at hr
  exact h.sizing r hr

theorem readIdentity_within {n : ν} {l₀ : Lab ν} {p : Place ν} {E : Exc → Lab ν → Prop} {i : Identity ν} {reason : String}
    (hi : p.file .identity = some (Text.whole i : Text (Identity ν))) :
    Within Good 0 (Now n l₀ p none) (readIdentity n reason) (fun j l => Now n l₀ p none l ∧ j = i) E := by
  apply read_bind_within
  intro l hl
  rw [hl]
  simp only [hi]
  exact Within.pure' fun _ h => ⟨h, rfl⟩

/-- What holds of one place at a time. -/
theorem within_ready {n : ν} {l₀ : Lab ν} {vm : Sizing} {E : Exc → Lab ν → Prop} {α : Type} {k : Nat} {x : Task (Lab ν) α} {Q : α → Lab ν → Prop}
    (h : ∀ q, Ready n vm q → Within Good k (Now n l₀ q none) x Q E) :
    Within Good k (fun l => ∃ q, Now n l₀ q none l ∧ Ready n vm q) x Q E := by
  rintro t l j ht ⟨q, hl, hq⟩
  exact h q hq t l j ht hl

theorem recorded_within {n : ν} {l₀ : Lab ν} {p : Place ν} {E : Exc → Lab ν → Prop} (h : Owned n p) :
    Within Good 0 (Now n l₀ p none) (recorded n) (fun r l => Now n l₀ p none l ∧
      ((r = none ∧ p.file (.document .profile) = none) ∨
        ∃ q, r = some q ∧ p.file (.document .profile) = some (Text.whole q : Text Profile))) E := by
  apply read_bind_within
  intro l hl
  rw [hl]
  split
  · next hnone => exact Within.pure' fun _ h => ⟨h, Or.inl ⟨rfl, hnone⟩⟩
  · next text htext =>
    cases text with
    | cut => exact absurd htext (h.documents .profile)
    | whole q => exact Within.pure' fun _ h => ⟨h, Or.inr ⟨q, rfl, htext⟩⟩

/-! ## Opening and reading -/

/-- The profile of a deployment has the sizing of the recorded one. -/
def SameSizing (o : Options) (p : Place ν) : Prop :=
  ∀ r : Profile, p.file (.document .profile) = some (Text.whole r : Text Profile) → (o.asked.getD r).vm = r.vm

theorem openInstance_within {n : ν} {l₀ : Lab ν} {p : Place ν} {w : Option (Path ν)} {E : Exc → Lab ν → Prop}
    (howned : Owned n p) (hclear : ¬Leftover p) :
    Within Good 0 (Now n l₀ p w) (openInstance n) (fun _ => Now n l₀ p w) E := by
  apply read_bind_within
  intro l hl
  rw [hl]
  split
  · exact Within.pure' fun _ h => h
  · next text htext =>
    cases text with
    | cut => exact absurd (Or.inl htext) hclear
    | whole i =>
      refine bind_value (a := 0) (c := i) (Within.pure' fun _ h => ⟨h, rfl⟩) ?_ (by decide)
      have hport := (howned.identity i htext).2
      exact refuse_within (by simp; omega)

theorem chosenProfile_within {n : ν} {l₀ : Lab ν} {p : Place ν} {E : Exc → Lab ν → Prop} (o : Options)
    (howned : Owned n p) :
    Within Good 0 (Now n l₀ p none) (chosenProfile n o) (fun q l => Now n l₀ p none l ∧
      (SameSizing o p → ∀ r : Profile, p.file (.document .profile) = some (Text.whole r : Text Profile) →
        r.vm = q.vm)) E := by
  rw [chosenProfile]
  split
  · next q hq =>
    refine Within.pure' fun _ h => ⟨h, fun hs r hr => ?_⟩
    have := hs r hr
    rw [hq] at this
    exact this.symm
  · next hnone =>
    refine Within.bind_sub (n := 0) (recorded_within howned) (fun r => Within.pure' ?_) (by decide)
    rintro l ⟨h, hr⟩
    refine ⟨h, fun _ q hq => ?_⟩
    rcases hr with ⟨rfl, hn⟩ | ⟨q', rfl, hq'⟩
    · rw [hn] at hq
      cases hq
    · rw [hq'] at hq
      cases hq
      rfl

theorem outdated_within {n : ν} {l₀ : Lab ν} {p : Place ν} {E : Exc → Lab ν → Prop} (manifest : Manifest)
    (howned : Owned n p) :
    Within Good 0 (Now n l₀ p none) (outdated n manifest) (fun _ => Now n l₀ p none) E := by
  apply read_bind_within
  intro l hl
  rw [hl]
  split
  · exact Within.pure' fun _ h => h
  · next text htext =>
    cases text with
    | cut => exact absurd htext (howned.documents .artifact)
    | whole m => exact Within.pure' fun _ h => h

/-- The ports of instances whose identity can be read. -/
theorem reserved_ok {place : ν → Place ν} (names : List ν)
    (h : ∀ m, (place m).file .identity ≠ some (Text.cut : Text (Identity ν))) :
    ∃ taken, reserved place names = .ok taken ∧ ∀ port ∈ taken, ∃ m, ∃ i : Identity ν,
      (place m).file .identity = some (Text.whole i : Text (Identity ν)) ∧ i.port = port := by
  induction names with
  | nil => exact ⟨[], rfl, by simp⟩
  | cons m names ih =>
    obtain ⟨taken, htaken, hall⟩ := ih
    rw [reserved]
    split
    · exact ⟨taken, htaken, hall⟩
    · next text htext =>
      cases text with
      | cut => exact absurd htext (h m)
      | whole i =>
        refine ⟨i.port :: taken, by simp [Text.loads, htaken, Except.map], fun port hport => ?_⟩
        rcases List.mem_cons.mp hport with rfl | hport
        · exact ⟨m, i, htext, rfl⟩
        · exact hall port hport

theorem choosePort_within {P : Lab ν → Prop} {E : Exc → Lab ν → Prop} {taken : List Nat} (ps : List Nat)
    (h : ∃ port ∈ ps, port ∉ taken) : Within Good 1 P (choosePort taken ps) (fun _ => P) E := by
  induction ps with
  | nil => obtain ⟨_, hm, _⟩ := h; cases hm
  | cons port ps ih =>
    rw [choosePort]
    by_cases hp : port ∈ taken
    · rw [if_pos hp]
      obtain ⟨q, hq, hfree⟩ := h
      rcases List.mem_cons.mp hq with rfl | hq
      · exact absurd hp hfree
      · exact ih ⟨q, hq, hfree⟩
    · rw [if_neg hp]
      have hbind : Within Good 1 P bindPort (fun free l => P l ∧ free = true) E := by
        apply Within.perform
        intro m l hm hl r l' hr
        have hdone : m.verdict = .done := hm
        rw [hdone] at hr
        cases hr
        exact ⟨hl, rfl⟩
      exact bind_value hbind (Within.pure' fun _ h => h) (by decide)

theorem length_listing (p : Place ν) : p.listing.length ≤ 15 :=
  Nat.le_trans (List.length_filter_le _ _) (by decide)

variable [DecidableEq ν]

/-! ## What is asked of an instance -/

/-- The lab with this instance alone. -/
def Lab.only (l : Lab ν) (n : ν) : Lab ν := { l with place := fun m => if m = n then l.place n else .empty }

/-- The instance can be opened by its name and cleaned, another one finds a port next to it,
    and where it has a domain it can be deployed. -/
structure Usable (l : Lab ν) (n : ν) : Prop where
  opens : Completes Good 0 (fun l' => l' = l) (openInstance n) (fun _ _ => True)
  cleans : ∀ o, ∃ k, Completes Good k (fun l' => l' = l) (Command.clean.task n o)
    (fun _ l' => l'.place n = .empty ∧ ∀ m, m ≠ n → l'.place m = l.place m)
  boots : ∀ m, m ≠ n → ∃ k, Completes Good k (fun l' => l' = l.only n) (reservePort m) (fun _ _ => True)
  deploys : ∀ o, (l.place n).domain.isSome = true → SameSizing o (l.place n) →
    ∃ k, Completes Good k (fun l' => l' = l) (Command.deploy.task n o) (fun _ _ => True)

/-! ## `deploy` -/

section Ready

variable {n : ν} {l₀ : Lab ν} {p : Place ν} {vm : Sizing} {E : Exc → Lab ν → Prop}

theorem assertIdentity_within (h : Ready n vm p) :
    Within Good 2 (Now n l₀ p none) (assertIdentity n) (fun _ => Now n l₀ p none) E := by
  obtain ⟨d, port, hd, hdisks, hi⟩ := h.identity
  refine bind_value (readIdentity_within hi) ?_ (by decide)
  refine bind_step (refuse_within (by simp [identityOf])) ?_ (by decide)
  have huuid : Within Good 1 (Now n l₀ p none) (domainUuid n) (fun u l => Now n l₀ p none l ∧ u = some d.uuid) E :=
    query_within (fun _ h => by simp [h.place, hd]) _ (fun _ _ h => by simp [h.place, hd])
  refine bind_value huuid ?_ (by decide)
  refine bind_step (refuse_within (by simp [identityOf])) ?_ (by decide)
  have hpaths : Within Good 1 (Now n l₀ p none) (domainDisks n) (fun ds l => Now n l₀ p none l ∧ ds = d.disks) E :=
    query_within (fun _ h => by simp [h.place, hd]) _ (fun _ _ h => by simp [h.place, hd])
  refine bind_value hpaths ?_ (by decide)
  exact refuse_within (by simp [hdisks, identityOf])

theorem guest_within (h : Ready n vm p) (what : String) :
    Within Good 3 (Now n l₀ p none) (guest n what) (fun _ => Now n l₀ p none) E :=
  Within.bind (assertIdentity_within h) fun _ => check_within what

theorem transferSource_within (h : Ready n vm p) :
    Within Good 6 (Now n l₀ p none) (transferSource n)
      (fun _ l => ∃ q, Now n l₀ q none l ∧ Ready n vm q) E := by
  have hmade : Within Good 1 (Now n l₀ p none) (make n .deploySource ())
      (fun _ => Now n l₀ (p.put .deploySource (some ())) none) E :=
    act_within (fun _ hl => by simp [hl.place, h.directory]) fun _ hl => hl.at (Place.put · .deploySource (some ()))
  refine bind_step hmade ?_ (by decide)
  refine bind_step (check_within "scp") ?_ (by decide)
  have hput : Ready n vm (p.put .deploySource (some ())) := h.put rfl
  refine bind_step (guest_within hput "tar") ?_ (by decide)
  exact act_within (fun _ _ => rfl) fun _ hl => ⟨_, hl.at (Place.put · .deploySource none), hput.put rfl⟩

theorem guest_ready (h : Ready n vm p) (what : String) :
    Within Good 3 (Now n l₀ p none) (guest n what) (fun _ l => ∃ q, Now n l₀ q none l ∧ Ready n vm q) E :=
  (guest_within h what).post fun _ _ hl => ⟨p, hl, h⟩

theorem installArtifacts_within (h : Ready n vm p) :
    Within Good 30 (Now n l₀ p none) (installArtifacts n) (fun _ l => ∃ q, Now n l₀ q none l ∧ Ready n vm q) E := by
  refine bind_step (guest_within h _) ?_ (by decide)
  refine bind_step (transferSource_within h) (within_ready fun q hq => ?_) (by decide)
  refine bind_step (guest_within hq _) ?_ (by decide)
  refine bind_step (guest_within hq _) ?_ (by decide)
  refine bind_step (guest_within hq _) ?_ (by decide)
  have himage : ∀ name, Within Good 6 (fun l => ∃ q, Now n l₀ q none l ∧ Ready n vm q)
      (do assertIdentity n; check name; guest n "podman load") (fun _ l => ∃ q, Now n l₀ q none l ∧ Ready n vm q) E := by
    refine fun name => within_ready fun q hq => ?_
    refine bind_step (assertIdentity_within hq) ?_ (by decide)
    exact bind_step (check_within name) (guest_ready hq _) (by decide)
  have hloop := Within.forEach (I := fun _ l => ∃ q, Now n l₀ q none l ∧ Ready n vm q) (fun name _ => himage name)
  exact ((hloop ["gateway", "worker"]).pre fun l hl => ⟨q, hl, hq⟩).budget (by decide)

theorem vmDeploy_within (h : Ready n vm p) :
    Within Good 20 (Now n l₀ p none) (vmDeploy n) (fun _ l => ∃ q, Now n l₀ q none l ∧ Ready n vm q) E := by
  have hexists : Within Good 1 (Now n l₀ p none) (domainExists n) (fun b l => Now n l₀ p none l ∧ b = true) E :=
    query_within (fun _ _ => rfl) _ (fun _ _ hl => by rw [hl.place, h.domain])
  refine bind_value hexists ?_ (by decide)
  refine bind_step (refuse_within rfl) ?_ (by decide)
  refine bind_step (guest_within h _) ?_ (by decide)
  refine bind_step (guest_within h _) ?_ (by decide)
  refine bind_step (guest_within h _) ?_ (by decide)
  refine bind_step (check_within _) ?_ (by decide)
  refine bind_step (transferSource_within h) (within_ready fun q hq => ?_) (by decide)
  exact (guest_ready hq _).budget (by decide)

/-- A document is written where no temporary file is in the way. -/
theorem writeJson_within {d : Document} {v : Value d} (hdir : p.directory.isSome = true)
    (hnone : p.file (.temporary d) = none) :
    Within Good 3 (Now n l₀ p none) (writeJson n d v)
      (fun _ => Now n l₀ ((p.put (.temporary d) (some (Text.whole v : Text (Value d)))).replace d) none) E := by
  have hopened : Within Good 1 (Now n l₀ p none)
      (act (fun l => (l.place n).directory.isSome && ((l.place n).file (.temporary d)).isNone) fun l =>
        { l.at n (Place.put · (.temporary d) (some (.cut : Text (Value d)))) with writing := some (n, .document d) })
      (fun _ => Now n l₀ (p.put (.temporary d) (some (Text.cut : Text (Value d)))) (some (n, .document d))) E :=
    act_within (fun _ hl => by simp [hl.place, hdir, hnone]) fun _ hl =>
      (hl.at (Place.put · (.temporary d) (some (Text.cut : Text (Value d))))).write _
  refine bind_step hopened ?_ (by decide)
  have hput : (p.put (.temporary d) (some (Text.cut : Text (Value d)))).put (.temporary d)
      (some (Text.whole v : Text (Value d))) = p.put (.temporary d) (some (Text.whole v : Text (Value d))) := by
    obtain ⟨dir, hd⟩ := Option.isSome_iff_exists.mp hdir
    simp [Place.put, hd]
  refine (@bind_step _ _ _ _ _ _ _ _ (Now n l₀ (p.put (.temporary d) (some (Text.whole v : Text (Value d))))
    (some (n, .document d)))) (act_within (fun _ _ => rfl) fun l hl => ?_) ?_ (by decide)
  · rw [← hput]
    exact hl.at (Place.put · (.temporary d) (some (Text.whole v : Text (Value d))))
  · exact act_within (fun _ _ => rfl) fun _ hl => (hl.at (Place.replace · d)).write none

theorem deploy_within {profile : Profile} {manifest : Manifest} (h : Ready n profile.vm p) :
    Within Good 40 (Now n l₀ p none) (deploy n profile manifest) (fun _ _ => True) E := by
  refine bind_step (assertIdentity_within h) ?_ (by decide)
  refine bind_step (guest_within h _) ?_ (by decide)
  refine Within.bind_sub (n := 35) (recorded_within h.owned) (fun r => ?_) (by decide)
  refine Within.given (fun _ h => h.2) fun hr => ?_
  have hsame : (r.any fun p => p.vm ≠ profile.vm) = false := by
    rcases hr with ⟨rfl, _⟩ | ⟨q, rfl, hq⟩
    · rfl
    · simp [h.sizing q hq]
  refine bind_step (refuse_within hsame) ?_ (by decide)
  refine bind_step ((vmDeploy_within h).pre fun _ h => h.1) (within_ready fun q hq => ?_) (by decide)
  have htemp : ∀ d, q.file (.temporary d) = none := fun d => by
    rw [← Option.not_isSome_iff_eq_none]
    exact fun hs => hq.clear (Or.inr ⟨d, hs⟩)
  refine bind_step (writeJson_within hq.directory (htemp .profile)) ?_ (by decide)
  refine ((writeJson_within ?_ ?_).post fun _ _ _ => trivial).budget (by decide)
  · simpa [Place.replace] using hq.directory
  · rw [file_replace hq.directory _ (by simp) (htemp .profile)]
    exact htemp .artifact

end Ready

/-! ## `clean` -/

section Clean

variable {n : ν} {l₀ : Lab ν} {p : Place ν} {E : Exc → Lab ν → Prop}

/-- The domain of a ready instance is removed. -/
theorem removeDomain_within {vm : Sizing} (h : Ready n vm p) :
    Within Good 5 (Now n l₀ p none) (removeDomain n) (fun _ => Now n l₀ ⟨p.directory, none⟩ none) E := by
  obtain ⟨d, port, hd, hdisks, hi⟩ := h.identity
  refine bind_value (readIdentity_within hi) ?_ (by decide)
  have huuid : Within Good 1 (Now n l₀ p none) (domainUuid n) (fun u l => Now n l₀ p none l ∧ u = some d.uuid) E :=
    query_within (fun _ h => by simp [h.place, hd]) _ (fun _ _ h => by simp [h.place, hd])
  refine bind_value huuid ?_ (by decide)
  refine bind_step (refuse_within (by simp [identityOf])) ?_ (by decide)
  have hpaths : Within Good 1 (Now n l₀ p none) (domainDisks n) (fun ds l => Now n l₀ p none l ∧ ds = d.disks) E :=
    query_within (fun _ h => by simp [h.place, hd]) _ (fun _ _ h => by simp [h.place, hd])
  refine bind_value hpaths ?_ (by decide)
  refine bind_step (refuse_within (by simp [hdisks, identityOf])) ?_ (by decide)
  refine bind_step (check_within _) ?_ (by decide)
  refine bind_step (act_within (fun _ _ => rfl) fun _ hl =>
    hl.at fun p => { p with domain := p.domain.map fun d => { d with running := false } }) ?_ (by decide)
  exact act_within (fun _ _ => rfl) fun _ hl => hl.at fun p => { p with domain := none }

/-- The directory of an instance without a domain is removed. -/
theorem removeTree_within (hp : p.domain = none) :
    Within Good 16 (Now n l₀ p none) (removeTree n) (fun _ => Now n l₀ .empty none) E := by
  apply read_bind_within
  intro l hl
  rw [hl]
  have hone : ∀ f, Within Good 1 (fun l => ∃ q, Now n l₀ q none l ∧ q.domain = none) (unlink n f)
      (fun _ l => ∃ q, Now n l₀ q none l ∧ q.domain = none) E := fun f =>
    act_within (fun _ _ => rfl) fun l ⟨q, hq, hd⟩ => ⟨_, hq.at (Place.put · f none), hd⟩
  have hloop := Within.forEach (I := fun _ l => ∃ q, Now n l₀ q none l ∧ q.domain = none) (fun f _ => hone f) p.listing
  refine bind_step ((hloop.pre fun l hl => ⟨p, hl, hp⟩).budget (k := 15) ?_) ?_ (by decide)
  · simpa using length_listing p
  · refine act_within (fun _ _ => rfl) ?_
    rintro l ⟨q, hq, hd⟩
    have := hq.at fun p => { p with directory := none }
    rwa [hd] at this

theorem checkMarker_within (howned : Owned n p) (hclear : ¬Leftover p) :
    Within Good 0 (Now n l₀ p none) (checkMarker n) (fun _ => Now n l₀ p none) E := by
  apply read_bind_within
  intro l hl
  rw [hl]
  split
  · exact Within.pure' fun _ h => h
  · next text htext =>
    cases text with
    | cut => exact absurd (Or.inl htext) hclear
    | whole i =>
      have hi : i = identityOf n i.uuid i.port := (howned.identity i htext).1
      refine bind_value (a := 0) (c := i) (Within.pure' fun _ h => ⟨h, rfl⟩) ?_ (by decide)
      rw [hi]
      exact refuse_within (by simp [identityOf])

/-- What is left when the domain is gone is removed. -/
theorem removeRest_within (howned : Owned n p) (hclear : ¬Leftover p) (hp : p.domain = none) :
    Within Good 16 (Now n l₀ p none)
      (do let l ← Proc.read; onlyIf (l.place n).directory.isSome (removeDirectory n))
      (fun _ => Now n l₀ .empty none) E := by
  apply read_bind_within
  intro l hl
  rw [hl]
  cases hdir : p.directory with
  | none =>
    have hempty : p = .empty := by
      cases p
      simp_all [Place.empty]
    rw [hempty]
    exact Within.pure' fun _ h => h
  | some dir =>
    refine bind_step (checkMarker_within howned hclear) ?_ (by decide)
    apply read_bind_within
    intro l' hl'
    rw [hl']
    exact bind_step (refuse_within (by simp [allowed_of_not_leftover hclear])) (removeTree_within hp) (by decide)

theorem clean_within (howned : Owned n p) (hclear : ¬Leftover p) :
    Within Good 30 (Now n l₀ p none) (clean n) (fun _ => Now n l₀ .empty none) E := by
  apply read_bind_within
  intro l hl
  rw [hl]
  refine bind_step (refuse_within (by simp [allowed_of_not_leftover hclear])) ?_ (by decide)
  have hexists : Within Good 1 (Now n l₀ p none) (domainExists n)
      (fun b l => Now n l₀ p none l ∧ b = p.domain.isSome) E :=
    query_within (fun _ _ => rfl) _ (fun _ _ hl => by rw [hl.place])
  refine bind_value hexists ?_ (by decide)
  cases hd : p.domain with
  | none =>
    rw [hd] at hexists
    refine bind_step (Within.pure' (n := 0) fun _ h => h) ?_ (by decide)
    refine bind_value hexists ?_ (by decide)
    refine bind_step (Within.pure' (n := 0) fun _ h => h) ?_ (by decide)
    exact (removeRest_within howned hclear hd).budget (by decide)
  | some d =>
    rw [hd] at hexists
    -- without a recorded profile any sizing will do
    obtain ⟨vm, hready⟩ : ∃ vm, Ready n vm p := by
      cases hr : p.file (.document .profile) with
      | none => exact ⟨⟨0, 0, 0⟩, howned, hclear, by simp [hd], by simp [hr]⟩
      | some text =>
        cases text with
        | cut => exact absurd hr (howned.documents .profile)
        | whole r =>
          refine ⟨r.vm, howned, hclear, by simp [hd], fun r' hr' => ?_⟩
          rw [hr] at hr'
          cases hr'
          rfl
    refine bind_step (assertIdentity_within hready) ?_ (by decide)
    refine bind_value hexists ?_ (by decide)
    refine bind_step (removeDomain_within hready) ?_ (by decide)
    refine (removeRest_within (p := ⟨p.directory, none⟩) ⟨howned.identity, howned.documents, by simp⟩ hclear rfl).budget ?_
    decide

end Clean

/-! ## Without a leftover an instance can be used -/

/-- Next to one instance there is a free port for another one. -/
theorem reservePort_within {l : Lab ν} {n m : ν} (hmn : m ≠ n) (hclear : ¬Leftover (l.place n)) :
    Completes Good 3 (fun l' => l' = l.only n) (reservePort m) (fun _ _ => True) := by
  have hm : (l.only n).place m = .empty := by simp [Lab.only, hmn]
  have hread : ∀ q, ((l.only n).place q).file .identity ≠ some (Text.cut : Text (Identity ν)) := by
    intro q hq
    by_cases h : q = n
    · rw [show (l.only n).place q = l.place n by simp [Lab.only, h]] at hq
      exact hclear (Or.inl hq)
    · rw [show (l.only n).place q = .empty by simp [Lab.only, h]] at hq
      simp [Place.file, Place.empty] at hq
  obtain ⟨taken, htaken, hall⟩ := reserved_ok (l.only n).names hread
  -- all ports that are taken are the one of `n`
  have hsame : ∀ port ∈ taken, ∃ i : Identity ν,
      (l.place n).file .identity = some (Text.whole i : Text (Identity ν)) ∧ i.port = port := by
    intro port hport
    obtain ⟨q, i, hq, hi⟩ := hall port hport
    by_cases h : q = n
    · rw [show (l.only n).place q = l.place n by simp [Lab.only, h]] at hq
      exact ⟨i, hq, hi⟩
    · rw [show (l.only n).place q = .empty by simp [Lab.only, h]] at hq
      simp [Place.file, Place.empty] at hq
  have hfree : ∃ port ∈ ports, port ∉ taken := by
    by_cases h : 22222 ∈ taken
    · refine ⟨22223, by simp [ports], fun h' => ?_⟩
      obtain ⟨i, hi, hp⟩ := hsame _ h
      obtain ⟨j, hj, hq⟩ := hsame _ h'
      rw [hi] at hj
      cases hj
      omega
    · exact ⟨22222, by simp [ports], h⟩
  refine bind_step lockFile_within ?_ (by decide)
  have hexists : Completes Good 1 (fun l' => l' = l.only n) (domainExists m) (fun b l' => l' = l.only n ∧ b = false) :=
    query_within (fun _ _ => rfl) _ (fun _ l' h => by rw [h, hm]; rfl)
  refine bind_value hexists ?_ (by decide)
  refine (@bind_value _ _ _ _ _ _ 0 _ _ (fun l' => l' = l.only n) (l.only n)) (Within.read fun _ h => ⟨h, h⟩) ?_ (by decide)
  refine bind_step (refuse_within (by simp [hm, Place.empty])) ?_ (by decide)
  rw [htaken]
  exact bind_value (a := 0) (c := taken) (Within.pure' fun _ h => ⟨h, rfl⟩)
    ((choosePort_within ports hfree).post fun _ _ _ => trivial) (by decide)

/-- The beginning of every command. -/
theorem task_within {l : Lab ν} {n : ν} {o : Options} {c : Command} {k : Nat} {Q : Unit → Lab ν → Prop}
    {E : Exc → Lab ν → Prop} (howned : Owned n (l.place n)) (hclear : ¬Leftover (l.place n))
    (h : ∀ q, (SameSizing o (l.place n) → ∀ r : Profile,
        (l.place n).file (.document .profile) = some (Text.whole r : Text Profile) → r.vm = q.vm) →
      Within Good k (Now n l (l.place n) none) (c.action n q o.manifest) Q E) :
    Within Good (k + 1) (fun l' => l' = l) (c.task n o) Q E := by
  have hstart : ∀ l', l' = l → Now n l (l.place n) none { l' with writing := none } := by
    rintro l' rfl
    exact ⟨fun _ _ => rfl, rfl, rfl⟩
  refine bind_step (a := 0) (Within.update hstart) ?_ (by omega)
  refine bind_step (openInstance_within howned hclear) ?_ (by omega)
  refine Within.bind_sub (chosenProfile_within o howned) (fun q => ?_) (by omega)
  refine Within.given (fun _ h => h.2) fun hq => ?_
  refine bind_step (lockFile_within.pre fun _ h => h.1) ?_ (by omega)
  exact (h q hq).budget (by omega)

theorem usable_of_clear {l : Lab ν} {n : ν} (howned : Owned n (l.place n)) (hclear : ¬Leftover (l.place n)) :
    Usable l n where
  opens := by
    refine (((@openInstance_within _ _ l _ l.writing) howned hclear).pre ?_).post fun _ _ _ => trivial
    rintro l' rfl
    exact ⟨fun _ _ => rfl, rfl, rfl⟩
  cleans o := ⟨31, task_within howned hclear fun q _ =>
    (clean_within howned hclear).post fun _ _ h => ⟨h.place, h.others⟩⟩
  boots m hmn := ⟨3, reservePort_within hmn hclear⟩
  deploys o hdom hsame := by
    refine ⟨101, task_within howned hclear fun q hq => ?_⟩
    have hready : Ready n q.vm (l.place n) := ⟨howned, hclear, hdom, hq hsame⟩
    refine bind_step (check_within _) ?_ (by decide)
    refine Within.bind_sub (n := 99) (outdated_within o.manifest howned) (fun old => ?_) (by decide)
    have hinstall : Within Good 30 (Now n l (l.place n) none) (onlyIf old (installArtifacts n))
        (fun _ l' => ∃ p, Now n l p none l' ∧ Ready n q.vm p) (fun _ _ => False) := by
      cases old
      · exact Within.pure' fun l' h => ⟨_, h, hready⟩
      · exact installArtifacts_within hready
    refine bind_step hinstall (within_ready fun p hp => ?_) (by decide)
    exact (deploy_within hp).budget (by decide)

/-! ## With a leftover it cannot -/

theorem clear_of_usable {l : Lab ν} {n : ν} (howned : Owned n (l.place n)) (h : Usable l n) :
    ¬Leftover (l.place n) := by
  have hp : Fine n l (l.place n) none := ⟨howned, by simp, by simp⟩
  let o : Options := ⟨none, ⟨⟨0, 0, 0⟩, .null⟩, ⟨"", .null⟩⟩
  obtain ⟨k, hk⟩ := h.cleans o
  -- `clean` returns only where nothing is left over
  have hclean : Triple (fun l' => l' = l) (Command.clean.task n o) (fun _ _ => ¬Leftover (l.place n)) (fun _ _ => True) := by
    have hstart : ∀ l', l' = l → Now n l (l.place n) none { l' with writing := none } := by
      rintro l' rfl
      exact ⟨fun _ _ => rfl, rfl, rfl⟩
    apply Triple.bind (Q := fun _ => Now n l (l.place n) none) (Triple.update hstart)
    intro _
    apply Triple.bind ((openInstance_triple hp).mono (fun _ => id) (fun _ _ => id) fun _ _ _ => trivial)
    intro _
    refine Triple.given (fun _ h => h.2) fun hid => ?_
    apply Triple.bind ((((reads_chosenProfile n o).now hp).pre fun _ h => h.1).mono (fun _ => id) (fun _ _ => id)
      fun _ _ _ => trivial)
    intro _
    apply Triple.bind ((reads_lockFile.now hp).mono (fun _ => id) (fun _ _ => id) fun _ _ _ => trivial)
    intro _
    exact (clean_triple hp hid).mono (fun _ => id) (fun _ _ h => h.2) fun _ _ _ => trivial
  have hboth := (hk.and_triple hclean).mono (fun _ => id) (fun _ _ h => h.2) fun _ _ h => h.1
  obtain ⟨_, _, hclear⟩ := Within.returns hboth (supplied_replicate (G := Good) (m := {}) rfl k) rfl
  exact hclear

theorem usable_iff {l : Lab ν} {n : ν} (howned : Owned n (l.place n)) : Usable l n ↔ ¬Leftover (l.place n) :=
  ⟨clear_of_usable howned, usable_of_clear howned⟩

/-! ## Any sequence of commands -/

/-- One call of `lab.py`; the script ends where the call was interrupted. -/
structure Call (ν : Type) where
  name : ν
  options : Options
  command : Command
  script : List Moment

def Call.perform (c : Call ν) (l : Lab ν) : Lab ν := (c.command.task c.name c.options).after c.script l

def run : List (Call ν) → Lab ν → Lab ν
  | [], l => l
  | c :: cs, l => run cs (c.perform l)

/-- No call ended between the opening and the end of a write of `identity.json`, or of one
    under a temporary name. -/
def Undisturbed : List (Call ν) → Lab ν → Prop
  | [], _ => True
  | c :: cs, l => (c.perform l).writing = none ∧ Undisturbed cs (c.perform l)

theorem perform_ended {l : Lab ν} (c : Call ν) (h : ∀ n, Owned n (l.place n)) : Ended c.name l (c.perform l) :=
  (task_triple c.options c.command (h c.name)).after rfl

theorem perform_owned {l : Lab ν} (c : Call ν) (h : ∀ n, Owned n (l.place n)) (n : ν) :
    Owned n ((c.perform l).place n) := by
  obtain ⟨p, w, hnow, hp⟩ := perform_ended c h
  by_cases hn : n = c.name
  · rw [hn, hnow.place]
    exact hp.owned
  · rw [hnow.others n hn]
    exact h n

/-- A call leaves nothing over exactly if nothing was and it was not interrupted in a write. -/
theorem perform_clear {l : Lab ν} (c : Call ν) (h : ∀ n, Owned n (l.place n)) :
    (∀ n, ¬Leftover ((c.perform l).place n)) ↔ (∀ n, ¬Leftover (l.place n)) ∧ (c.perform l).writing = none := by
  obtain ⟨p, w, hnow, hp⟩ := perform_ended c h
  have hself : Leftover ((c.perform l).place c.name) ↔ Leftover (l.place c.name) ∨ (c.perform l).writing ≠ none := by
    rw [hnow.place, hnow.writing]
    exact hp.leftover
  constructor
  · intro hclear
    have hnot := (not_congr hself).mp (hclear c.name)
    refine ⟨fun n => ?_, Classical.not_not.mp fun hw => hnot (Or.inr hw)⟩
    by_cases hn : n = c.name
    · rw [hn]
      exact fun hl => hnot (Or.inl hl)
    · rw [← hnow.others n hn]
      exact hclear n
  · rintro ⟨hclear, hw⟩ n
    by_cases hn : n = c.name
    · rw [hn, hself]
      exact fun hl => hl.elim (hclear c.name) (fun h => h hw)
    · rw [hnow.others n hn]
      exact hclear n

theorem run_owned (cs : List (Call ν)) (l : Lab ν) (h : ∀ n, Owned n (l.place n)) (n : ν) :
    Owned n ((run cs l).place n) := by
  induction cs generalizing l with
  | nil => exact h n
  | cons c cs ih => exact ih _ (perform_owned c h)

theorem run_clear (cs : List (Call ν)) (l : Lab ν) (h : ∀ n, Owned n (l.place n)) :
    (∀ n, ¬Leftover ((run cs l).place n)) ↔ (∀ n, ¬Leftover (l.place n)) ∧ Undisturbed cs l := by
  induction cs generalizing l with
  | nil => simp [run, Undisturbed]
  | cons c cs ih =>
    calc (∀ n, ¬Leftover ((run cs (c.perform l)).place n))
        ↔ (∀ n, ¬Leftover ((c.perform l).place n)) ∧ Undisturbed cs (c.perform l) := ih _ (perform_owned c h)
      _ ↔ ((∀ n, ¬Leftover (l.place n)) ∧ (c.perform l).writing = none) ∧ Undisturbed cs (c.perform l) :=
        and_congr_left' (perform_clear c h)
      _ ↔ (∀ n, ¬Leftover (l.place n)) ∧ Undisturbed (c :: cs) l := and_assoc

/-- **Cleaning.** After any calls, interrupted anywhere, every instance can be used exactly if
    none of them was interrupted within a write. -/
theorem cleanable (cs : List (Call ν)) : (∀ n, Usable (run cs .initial) n) ↔ Undisturbed cs .initial := by
  have howned : ∀ n, Owned n ((run cs (.initial : Lab ν)).place n) :=
    run_owned cs .initial fun n => owned_empty n
  have hclear : ∀ n, ¬Leftover ((.initial : Lab ν).place n) := fun n => not_leftover_of_none rfl
  calc (∀ n, Usable (run cs .initial) n)
      ↔ ∀ n, ¬Leftover ((run cs (.initial : Lab ν)).place n) := forall_congr' fun n => usable_iff (howned n)
    _ ↔ (∀ n, ¬Leftover ((.initial : Lab ν).place n)) ∧ Undisturbed cs .initial :=
      run_clear cs .initial fun n => owned_empty n
    _ ↔ Undisturbed cs .initial := and_iff_right hclear

/-! ## Two interruptions -/

def sampleOptions : Options := ⟨none, ⟨⟨4096, 2, 20⟩, .null⟩, ⟨"cache", .null⟩⟩

/-- A call that ends after its `k`-th operation. -/
def sampleCall (command : Command) (k : Nat) : Call String :=
  ⟨"dev", sampleOptions, command, List.replicate k {}⟩

/-- `up` ends when `identity.json` has been opened. -/
def cutIdentity : Lab String := run [sampleCall (.up false) 19] .initial

/-- `deploy` ends when `profile.json.tmp` has been opened. -/
def leftTemporary : Lab String := run [sampleCall (.up false) 70, sampleCall .deploy 28] .initial

theorem leftovers_block : ¬Usable cutIdentity "dev" ∧ ¬Usable leftTemporary "dev" := by
  have hcut : Leftover (cutIdentity.place "dev") :=
    Or.inl (show ((cutIdentity.place "dev").file .identity : Option (Text (Identity String))) = some .cut by decide +kernel)
  have htemp : Leftover (leftTemporary.place "dev") := Or.inr ⟨.profile, by decide +kernel⟩
  exact ⟨fun h => clear_of_usable (run_owned _ _ (fun n => owned_empty n) "dev") h hcut,
    fun h => clear_of_usable (run_owned _ _ (fun n => owned_empty n) "dev") h htemp⟩

end Hermes.LabInstance

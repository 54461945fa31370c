import Hermes.Credentials
import Hermes.Library.History

/- The life of a lease in the broker: one account-creation request, states that
   only move forward, no key after deletion, and what stands behind `revoked`.

   `Lawful past e` is what the event `e` may claim given the log before it;
   `Consistent` relates the two files of every lease to the log and is kept by
   every operation wherever it stops, so every log of the broker is guarded. -/
namespace Hermes
open Process

/-! What a request to the provider achieved. -/

/-- What `OpenAI.call` returns for a response, if it returns. -/
def Reply.answer (r : Reply) : Option Json :=
  if r.tooLarge then none
  else if r.status = 401 then some (.obj [("unauthorized", .bool true)])
  else if 200 ≤ r.status ∧ r.status < 300 then r.body
  else none

def Call.answer (c : Call) : Option Json := c.reply.bind Reply.answer

/-- The usable key of a creation response. -/
def keyOf (result : Json) : Option String := usableKey ((result.get "api_key").bind (·.get "value"))

/-- `c` asks the provider to create the account of `lease`. -/
def Call.creates (c : Call) (lease : Lease) : Prop :=
  c.method = .post ∧ c.name = some (accountName lease)

/-- `c` was answered with the account `id` and the key `value` for `lease`. -/
def Call.created (c : Call) (lease : Lease) (id value : String) : Prop :=
  c.creates lease ∧ ∃ result, c.answer = some result ∧ accountIdOf result = some id ∧
    keyOf result = some value

/-- `c` deleted the account `id`, and the provider confirmed it. -/
def Call.confirmed (c : Call) (id : String) : Prop :=
  c.method = .delete ∧ (∃ project, c.path = accountsPath project ++ "/" ++ id) ∧
    ∃ result, c.answer = some result ∧ result.isTrue "deleted" = true

/-- `c` offered the key `value` to the provider, which refused it as unauthorized. -/
def Call.refused (c : Call) (value : String) : Prop :=
  c.method = .get ∧ c.path = "models" ∧ c.bearer = strip value ∧
    ∃ reply, c.reply = some reply ∧ reply.status = 401

/-- The provider keeps apart what the broker cannot: the key probe is answered
    with `unauthorized` only under status 401, and no key is blank. -/
def Call.plain (c : Call) : Prop :=
  (c.method = .get ∧ c.path = "models" → ∀ reply ∈ c.reply, reply.status ≠ 401 →
    ∀ body ∈ reply.body, body.isTrue "unauthorized" = false) ∧
  (c.method = .post → ∀ result ∈ c.answer, ∀ value ∈ keyOf result, strip value ≠ "")

instance (c : Call) : Decidable c.plain := inferInstanceAs (Decidable (_ ∧ _))

def BrokerEvent.plain : BrokerEvent → Prop
  | .called c => c.plain
  | _ => True

instance : (e : BrokerEvent) → Decidable e.plain
  | .called c => inferInstanceAs (Decidable c.plain)
  | .recorded _ _ => inferInstanceAs (Decidable True)
  | .gave _ _ => inferInstanceAs (Decidable True)

/-- The deletion of the account of `lease` was confirmed, and afterwards the key
    the provider had issued for it was refused. -/
def Confirmed (past : List BrokerEvent) (lease : Lease) : Prop :=
  ∃ creation deletion probe id value,
    [.called probe, .called deletion, .called creation].Sublist past ∧
    creation.created lease id value ∧ deletion.confirmed id ∧ probe.refused value

/-- What an event may claim, given the events before it. -/
def Lawful (past : List BrokerEvent) : BrokerEvent → Prop
  | .called c => c.method = .post →
      ∃ lease, c.creates lease ∧ ∀ c', .called c' ∈ past → ¬ c'.creates lease
  | .recorded lease r =>
      (∀ r', .recorded lease r' ∈ past → r'.state.rank ≤ r.state.rank) ∧
      (r.state = .revoked → Confirmed past lease)
  | .gave lease _ =>
      ∀ r, .recorded lease r ∈ past → r.state ≠ .deleted ∧ r.state ≠ .revoked

/-- `Lawful` where the provider keeps its answers apart. -/
def LawfulIfPlain (past : List BrokerEvent) (e : BrokerEvent) : Prop :=
  (∀ x ∈ past, x.plain) → Lawful past e

/-- The two files of every lease agree with the log. -/
structure Consistent (b : Broker) : Prop where
  posts : ∀ c, .called c ∈ b.log → ∀ lease, c.creates lease → b.records lease ≠ none
  states : ∀ lease r', .recorded lease r' ∈ b.log →
    ∃ r, b.records lease = some r ∧ r'.state.rank ≤ r.state.rank
  keys : ∀ lease key, b.creds lease = some key → ∃ r id c, b.records lease = some r ∧
    r.accountId = some id ∧ .called c ∈ b.log ∧ c.created lease id key.value
  deletions : ∀ lease r id key, b.records lease = some r → r.state = .deleted →
    r.accountId = some id → b.creds lease = some key → ∃ c d,
    [.called d, .called c].Sublist b.log ∧ c.created lease id key.value ∧ d.confirmed id
  lawful : Guarded LawfulIfPlain b.log

theorem consistent_empty : Consistent Broker.empty where
  posts := by intro c hc; simp [Broker.empty] at hc
  states := by intro lease r hr; simp [Broker.empty] at hr
  keys := by intro lease key hk; simp [Broker.empty] at hk
  deletions := by intro lease r id key hr; simp [Broker.empty] at hr
  lawful := trivial

namespace Consistent

variable {b : Broker} {lease : Lease}

/-- An event that writes no record and creates no account. -/
theorem append (h : Consistent b) {e : BrokerEvent} (hr : ∀ l r, e ≠ .recorded l r)
    (hp : ∀ c, e = .called c → ∀ l, c.creates l → b.records l ≠ none)
    (hl : LawfulIfPlain b.log e) : Consistent (b.append e) where
  posts := by
    intro c hc l hcl
    rcases List.mem_cons.mp hc with heq | hc
    · exact hp c heq.symm l hcl
    · exact h.posts c hc l hcl
  states := by
    intro l r' hr'
    rcases List.mem_cons.mp hr' with heq | hr'
    · exact absurd heq.symm (hr l r')
    · exact h.states l r' hr'
  keys := by
    intro l key hk
    obtain ⟨r, id, c, h₁, h₂, h₃, h₄⟩ := h.keys l key hk
    exact ⟨r, id, c, h₁, h₂, List.mem_cons_of_mem _ h₃, h₄⟩
  deletions := by
    intro l r id key h₁ h₂ h₃ h₄
    obtain ⟨c, d, hs, hc, hd⟩ := h.deletions l r id key h₁ h₂ h₃ h₄
    exact ⟨c, d, hs.cons _, hc, hd⟩
  lawful := Guarded.cons hl h.lawful

/-- Requests other than a creation may be sent at any time. -/
theorem called (h : Consistent b) {c : Call} (hc : c.method ≠ .post) :
    Consistent (b.append (.called c)) :=
  h.append (by simp)
    (fun c' hc' l hl => absurd (by cases hc'; exact hl.1) hc)
    (fun _ hm => absurd hm hc)

/-- No creation request for `lease` has been sent. -/
def Unsent (b : Broker) (lease : Lease) : Prop := ∀ c, .called c ∈ b.log → ¬ c.creates lease

theorem unsent (h : Consistent b) (hr : b.records lease = none) : Unsent b lease :=
  fun c hc hcl => h.posts c hc lease hcl hr

/-- The one creation request for a lease whose record is already written. -/
theorem posted (h : Consistent b) {c : Call} (hr : b.records lease ≠ none)
    (hu : Unsent b lease) (hc : c.name = some (accountName lease)) (hm : c.method = .post) :
    Consistent (b.append (.called c)) := by
  refine h.append (by simp) ?_ (fun _ _ => ⟨lease, ⟨hm, hc⟩, hu⟩)
  intro c' hc' l hl
  cases hc'
  have hname : accountName l = accountName lease := Option.some.inj (hl.2.symm.trans hc)
  have : l = lease := by simpa [accountName] using hname
  rw [this]; exact hr

/-- Handing out the key of a lease whose record says `ready`. -/
theorem gave (h : Consistent b) {r : Record} {key : Key} (hr : b.records lease = some r)
    (hs : r.state = .ready) : Consistent (b.append (.gave lease key)) := by
  refine h.append (by simp) (by simp) (fun _ r' hr' => ?_)
  obtain ⟨r₁, h₁, hle⟩ := h.states lease r' hr'
  rw [hr] at h₁
  cases h₁
  rw [hs] at hle
  constructor <;> intro hst <;> rw [hst] at hle <;> simp [LeaseState.rank] at hle

end Consistent

namespace Consistent

variable {b : Broker} {lease : Lease}

/-- A record may be written where it moves the state forward, keeps the account
    of a sealed key, and is justified if it says `deleted` or `revoked`. -/
theorem record (h : Consistent b) {r : Record}
    (hfwd : ∀ r', b.records lease = some r' → r'.state.rank ≤ r.state.rank)
    (hacc : ∀ key r' id, b.creds lease = some key → b.records lease = some r' →
      r'.accountId = some id → r.accountId = some id)
    (hdel : r.state = .deleted → ∀ id key, r.accountId = some id → b.creds lease = some key →
      ∃ c d, [.called d, .called c].Sublist b.log ∧ c.created lease id key.value ∧ d.confirmed id)
    (hrev : r.state = .revoked → (∀ x ∈ b.log, x.plain) → Confirmed b.log lease) :
    Consistent (b.record lease r) where
  posts := by
    intro c hc l hl
    have hc : .called c ∈ b.log := by simpa using hc
    by_cases hll : l = lease
    · subst hll; simp
    · rw [record_other _ _ _ _ hll]; exact h.posts c hc l hl
  states := by
    intro l r' hr'
    by_cases hll : l = lease
    · subst hll
      refine ⟨r, by simp, ?_⟩
      rcases List.mem_cons.mp hr' with heq | hr'
      · cases heq; exact Nat.le_refl _
      · obtain ⟨r₁, h₁, hle⟩ := h.states l r' hr'
        exact Nat.le_trans hle (hfwd r₁ h₁)
    · rw [record_other _ _ _ _ hll]
      refine h.states l r' ?_
      rcases List.mem_cons.mp hr' with heq | hr'
      · cases heq; exact absurd rfl hll
      · exact hr'
  keys := by
    intro l key hk
    obtain ⟨r', id, c, h₁, h₂, h₃, h₄⟩ := h.keys l key hk
    by_cases hll : l = lease
    · subst hll
      exact ⟨r, id, c, by simp, hacc key r' id hk h₁ h₂, by simp [h₃], h₄⟩
    · exact ⟨r', id, c, by rw [record_other _ _ _ _ hll]; exact h₁, h₂, by simp [h₃], h₄⟩
  deletions := by
    intro l r' id key h₁ h₂ h₃ h₄
    have lift : ∀ c d : Call, [BrokerEvent.called d, .called c].Sublist b.log →
        [BrokerEvent.called d, .called c].Sublist (b.record lease r).log :=
      fun c d hs => hs.cons _
    by_cases hll : l = lease
    · subst hll
      rw [record_same] at h₁
      cases h₁
      obtain ⟨c, d, hs, hc, hd⟩ := hdel h₂ id key h₃ h₄
      exact ⟨c, d, lift c d hs, hc, hd⟩
    · rw [record_other _ _ _ _ hll] at h₁
      obtain ⟨c, d, hs, hc, hd⟩ := h.deletions l r' id key h₁ h₂ h₃ h₄
      exact ⟨c, d, lift c d hs, hc, hd⟩
  lawful := by
    refine Guarded.cons (fun hplain => ⟨?_, fun hs => hrev hs hplain⟩) h.lawful
    intro r' hr'
    obtain ⟨r₁, h₁, hle⟩ := h.states lease r' hr'
    exact Nat.le_trans hle (hfwd r₁ h₁)

/-- A key may be sealed once its creation is recorded. -/
theorem sealed (h : Consistent b) {r : Record} {id : String} {c : Call} {key : Key}
    (hr : b.records lease = some r) (hs : r.state ≠ .deleted) (ha : r.accountId = some id)
    (hc : .called c ∈ b.log) (hcr : c.created lease id key.value) :
    Consistent (b.setCred lease (some key)) where
  posts := h.posts
  states := h.states
  keys := by
    intro l k hk
    by_cases hll : l = lease
    · subst hll
      rw [setCred_same] at hk
      cases hk
      exact ⟨r, id, c, hr, ha, hc, hcr⟩
    · rw [setCred_other _ _ _ _ hll] at hk
      exact h.keys l k hk
  deletions := by
    intro l r' id' k h₁ h₂ h₃ h₄
    by_cases hll : l = lease
    · subst hll
      rw [setCred_records, hr] at h₁
      cases h₁
      exact absurd h₂ hs
    · rw [setCred_other _ _ _ _ hll] at h₄
      exact h.deletions l r' id' k h₁ h₂ h₃ h₄
  lawful := h.lawful

/-- The sealed key may be unlinked at any time. -/
theorem unlinked (h : Consistent b) : Consistent (b.setCred lease none) where
  posts := h.posts
  states := h.states
  keys := by
    intro l k hk
    by_cases hll : l = lease
    · subst hll; simp at hk
    · rw [setCred_other _ _ _ _ hll] at hk
      exact h.keys l k hk
  deletions := by
    intro l r' id' k h₁ h₂ h₃ h₄
    by_cases hll : l = lease
    · subst hll; simp at h₄
    · rw [setCred_other _ _ _ _ hll] at h₄
      exact h.deletions l r' id' k h₁ h₂ h₃ h₄
  lawful := h.lawful

end Consistent

/-! Every operation keeps the two files and the log consistent. -/

/-- `OpenAI.call`: the request is logged, and a result is its answer. -/
theorem call_triple {admin path : String} {method : Method} {name token : Option String}
    {P : Broker → Prop} {Q : Json → Broker → Prop} {E : Exc → Broker → Prop}
    (hq : ∀ b c j, P b → c.method = method → c.path = path → c.name = name →
      c.bearer = bearerOf admin token → c.answer = some j → Q j (b.append (.called c)))
    (hdead : ∀ e b, P b → E e b)
    (he : ∀ e b c, P b → c.method = method → c.path = path → c.name = name →
      E e (b.append (.called c))) :
    Triple P (OpenAI.call admin method path name token) Q E := by
  unfold OpenAI.call
  have hx : Triple P (exchange admin method path name token)
      (fun reply b' => ∃ b, P b ∧ b' = b.append
        (.called ⟨method, path, name, bearerOf admin token, some reply⟩)) E := by
    refine Triple.perform (fun b hb => hdead _ b hb) ?_
    intro m b hb r b' hr
    split at hr
    · cases hr; exact ⟨b, hb, rfl⟩
    · cases hr; exact he _ b _ hb rfl rfl rfl
  refine Triple.bind hx (fun reply => ?_)
  refine Triple.bind (Q := fun _ b' => reply.tooLarge = false ∧ ∃ b, P b ∧ b' = b.append
      (.called ⟨method, path, name, bearerOf admin token, some reply⟩)) ?_ (fun _ => ?_)
  · refine require_triple (fun h b' hb' => ⟨by simpa using h, hb'⟩) ?_
    rintro _ _ ⟨b, hb, rfl⟩
    exact he _ b _ hb rfl rfl rfl
  refine Triple.ite (fun h => Triple.pure' ?_) (fun h => Triple.bind
    (Q := fun _ b' => (200 ≤ reply.status ∧ reply.status < 300) ∧ reply.tooLarge = false ∧
      ∃ b, P b ∧ b' = b.append (.called ⟨method, path, name, bearerOf admin token, some reply⟩))
    ?_ (fun _ => ?_))
  · rintro _ ⟨hl, b, hb, rfl⟩
    exact hq b _ _ hb rfl rfl rfl rfl (by simp [Call.answer, Reply.answer, hl, h])
  · refine require_triple (fun h b' hb' => ⟨by simpa using h, hb'⟩) ?_
    rintro _ _ ⟨_, b, hb, rfl⟩
    exact he _ b _ hb rfl rfl rfl
  · cases hbody : reply.body with
    | none =>
      refine Triple.raise ?_
      rintro _ ⟨_, _, b, hb, rfl⟩
      exact he _ b _ hb rfl rfl rfl
    | some body =>
      refine Triple.pure' ?_
      rintro _ ⟨hst, hl, b, hb, rfl⟩
      exact hq b _ _ hb rfl rfl rfl rfl (by simp [Call.answer, Reply.answer, hl, h, hst, hbody])

theorem asDict_keeps {I : Broker → Prop} {j : Json} : Keeps I (asDict j) :=
  Triple.ite (fun _ => Triple.pure' (fun _ h => h)) (fun _ => Triple.raise (fun _ h => h))

theorem keyField_triple {I : Broker → Prop} {j : Json} :
    Triple I (keyField j) (fun v b => I b ∧ v = (j.get "api_key").bind (·.get "value"))
      (fun _ => I) := by
  unfold keyField
  cases j.get "api_key" with
  | none => exact Triple.pure' (fun _ hb => ⟨hb, rfl⟩)
  | some field => exact Triple.bind asDict_keeps (fun _ => Triple.pure' (fun _ hb => ⟨hb, rfl⟩))

theorem brokerLock_keeps {I : Broker → Prop} : Keeps I brokerLock := by
  refine Triple.perform (fun _ h => h) ?_
  intro m b hb r b' hr
  split at hr
  · cases hr; exact hb
  · split at hr <;> (cases hr; exact hb)

/-- The key that `openSecret` returns is the stripped key of the lease. -/
theorem openSecret_triple {I : Broker → Prop} {lease : Lease} :
    Triple I (openSecret lease)
      (fun k b => I b ∧ ∃ key, b.creds lease = some key ∧ k = { key with value := strip key.value })
      (fun _ => I) := by
  refine query_triple (fun m b hb hc => ⟨hb, ?_⟩) (fun _ _ h => h)
  obtain ⟨key, hk⟩ := Option.isSome_iff_exists.mp hc
  exact ⟨key, hk, by simp [hk]⟩

/-- Writing a record, where it is justified in every state the assertion allows. -/
theorem writeRecord_triple {lease : Lease} {r : Record} {P Q : Broker → Prop}
    (hP : ∀ b, P b → Consistent b) (hQ : ∀ b, P b → Q (b.record lease r))
    (hc : ∀ b, P b → Consistent (b.record lease r)) :
    Triple P (writeRecord lease r) (fun _ => Q) (fun _ => Consistent) :=
  atomic_triple (fun _ b hb => hQ b hb) (fun _ b hb => hP b hb) (fun _ _ b hb => hc b hb)

/-- A record of `lease` that says neither `deleted` nor `revoked`, written over one
    that lies no further and whose account it keeps. -/
theorem Consistent.forward {b : Broker} {lease : Lease} {r : Record} (h : Consistent b)
    (hr : r.state = .issuing ∨ r.state = .ready)
    (hfwd : ∀ r', b.records lease = some r' →
      r'.state.rank ≤ r.state.rank ∧ (∀ id, r'.accountId = some id → r.accountId = some id)) :
    Consistent (b.record lease r) := by
  refine h.record (fun r' hr' => (hfwd r' hr').1) (fun _ r' id _ h₁ h₂ => (hfwd r' h₁).2 id h₂) ?_ ?_
  · intro hd; rcases hr with hr | hr <;> rw [hr] at hd <;> cases hd
  · intro hd; rcases hr with hr | hr <;> rw [hr] at hd <;> cases hd

theorem giveKey_triple {lease : Lease} {r : Record} {key : Key} :
    Triple (fun b => Consistent b ∧ b.records lease = some r ∧ r.state = .ready)
      (giveKey lease key) (fun _ => Consistent) (fun _ => Consistent) := by
  unfold giveKey
  refine Triple.bind (Q := fun _ => Consistent) (Triple.update ?_) (fun _ => Triple.pure' (fun _ h => h))
  intro b ⟨hb, hr, hs⟩
  exact hb.gave hr hs

section Operations
variable {admin : String} {role : Role} {project : String} {lease : Lease}

theorem createAccount_triple :
    Triple (fun b => Consistent b ∧ b.records lease = none)
      (createAccount admin role project lease) (fun _ => Consistent) (fun _ => Consistent) := by
  unfold createAccount
  refine Triple.bind (instant_triple (Q := fun _ b => Consistent b ∧ b.records lease = none)
    (fun _ _ h => h) (fun _ _ hb => hb.1)) (fun now => ?_)
  -- the intent is on disk, nothing has been sent
  refine Triple.bind (Q := fun _ b => Consistent b ∧
      b.records lease = some ⟨role, .issuing, accountName lease, now.now, none⟩ ∧
      Consistent.Unsent b lease ∧ b.creds lease = none)
    (writeRecord_triple (Q := fun b => Consistent b ∧
      b.records lease = some ⟨role, .issuing, accountName lease, now.now, none⟩ ∧
      Consistent.Unsent b lease ∧ b.creds lease = none) (fun b hb => hb.1) ?_ ?_) (fun _ => ?_)
  · intro b ⟨hb, hn⟩
    refine ⟨hb.forward (.inl rfl) (by rw [hn]; simp), by simp, ?_, ?_⟩
    · intro c hc
      exact hb.unsent hn c (by simpa using hc)
    · cases hk : b.creds lease with
      | none => simpa using hk
      | some key =>
        obtain ⟨r, _, _, h₁, _⟩ := hb.keys lease key hk
        rw [hn] at h₁; cases h₁
  · intro b ⟨hb, hn⟩
    exact hb.forward (.inl rfl) (by rw [hn]; simp)
  -- the one creation request
  refine Triple.bind (call_triple (Q := fun j b => Consistent b ∧
      b.records lease = some ⟨role, .issuing, accountName lease, now.now, none⟩ ∧
      b.creds lease = none ∧ ∃ c, .called c ∈ b.log ∧ c.creates lease ∧ c.answer = some j)
    ?_ (fun _ b hb => hb.1) ?_) (fun j => ?_)
  · intro b c j ⟨hb, hr, hu, hk⟩ hm _ hname _ hans
    exact ⟨hb.posted (by rw [hr]; simp) hu hname hm, by simpa using hr, by simpa using hk,
      c, by simp, ⟨hm, hname⟩, hans⟩
  · intro _ b c ⟨hb, hr, hu, hk⟩ hm _ hname
    exact hb.posted (by rw [hr]; simp) hu hname hm
  refine Triple.bind (asDict_keeps.mono (fun _ h => h) (fun _ _ h => h) (fun _ b hb => hb.1))
    (fun _ => ?_)
  cases hid : accountIdOf j with
  | none => exact Triple.raise (fun b hb => hb.1)
  | some id =>
    -- the account is on disk
    refine Triple.bind (Q := fun _ b => Consistent b ∧
        b.records lease = some ⟨role, .issuing, accountName lease, now.now, some id⟩ ∧
        ∃ c, .called c ∈ b.log ∧ c.creates lease ∧ c.answer = some j)
      (writeRecord_triple (Q := fun b => Consistent b ∧
        b.records lease = some ⟨role, .issuing, accountName lease, now.now, some id⟩ ∧
        ∃ c, .called c ∈ b.log ∧ c.creates lease ∧ c.answer = some j) (fun b hb => hb.1) ?_ ?_)
      (fun _ => ?_)
    · intro b ⟨hb, hr, hk, c, hc, hcr, hans⟩
      exact ⟨hb.forward (.inl rfl) (by rw [hr]; simp [LeaseState.rank]), by simp,
        c, by simp [hc], hcr, hans⟩
    · intro b ⟨hb, hr, hk, c, hc, hcr, hans⟩
      exact hb.forward (.inl rfl) (by rw [hr]; simp [LeaseState.rank])
    refine Triple.bind (keyField_triple.mono (fun _ h => h) (fun _ _ h => h) (fun _ b hb => hb.1))
      (fun v => ?_)
    cases hv : usableKey v with
    | none => exact Triple.raise (fun b hb => hb.1.1)
    | some value =>
      -- the key is sealed
      refine Triple.bind (Q := fun _ b => Consistent b ∧
          b.records lease = some ⟨role, .issuing, accountName lease, now.now, some id⟩) ?_
        (fun _ => ?_)
      · refine Triple.bind (run_triple (Q := fun _ b => (Consistent b ∧
            b.records lease = some ⟨role, .issuing, accountName lease, now.now, some id⟩ ∧
            ∃ c, .called c ∈ b.log ∧ c.creates lease ∧ c.answer = some j) ∧
            v = (j.get "api_key").bind (·.get "value"))
          (fun _ _ hb _ => hb) (fun _ b hb => hb.1.1) (fun _ _ b hb _ => hb.1.1)) (fun _ => ?_)
        have hseal : ∀ b, ((Consistent b ∧
            b.records lease = some ⟨role, .issuing, accountName lease, now.now, some id⟩ ∧
            ∃ c, .called c ∈ b.log ∧ c.creates lease ∧ c.answer = some j) ∧
            v = (j.get "api_key").bind (·.get "value")) →
            Consistent (b.setCred lease (some ⟨accountName lease, value⟩)) := by
          rintro b ⟨⟨hb, hr, c, hc, hcr, hans⟩, rfl⟩
          exact hb.sealed hr (by simp) rfl hc ⟨hcr, j, hans, hid, hv⟩
        exact atomic_triple (fun _ b hb => ⟨hseal b hb, by simpa using hb.1.2.1⟩)
          (fun _ b hb => hb.1.1) (fun _ _ b hb => hseal b hb)
      -- the record says ready
      refine Triple.bind (Q := fun _ b => Consistent b ∧
          b.records lease = some ⟨role, .ready, accountName lease, now.now, some id⟩ ∧
          LeaseState.ready = .ready)
        (writeRecord_triple (Q := fun b => Consistent b ∧
          b.records lease = some ⟨role, .ready, accountName lease, now.now, some id⟩ ∧
          LeaseState.ready = .ready) (fun b hb => hb.1) ?_ ?_) (fun _ => giveKey_triple)
      · intro b ⟨hb, hr⟩
        exact ⟨hb.forward (.inr rfl) (by rw [hr]; simp [LeaseState.rank]), by simp, rfl⟩
      · intro b ⟨hb, hr⟩
        exact hb.forward (.inr rfl) (by rw [hr]; simp [LeaseState.rank])

/-- Serving the key of a lease: only where its record says `ready`. -/
theorem serveKey_triple {record : Record} {reason : String} :
    Triple (fun b => Consistent b ∧ b.records lease = some record)
      (do require (record.state = .ready) reason 75
          let key ← openSecret lease
          giveKey lease key)
      (fun _ => Consistent) (fun _ => Consistent) := by
  refine Triple.bind (require_triple
    (Q := fun _ b => Consistent b ∧ b.records lease = some record ∧ record.state = .ready)
    (fun h b hb => ⟨hb.1, hb.2, by simpa using h⟩) (fun _ b hb => hb.1)) (fun _ => ?_)
  refine Triple.bind (openSecret_triple.mono (fun _ h => h) (fun _ _ h => h) (fun _ b hb => hb.1))
    (fun key => ?_)
  exact giveKey_triple.pre (fun b hb => hb.1)

theorem deleteAccount_triple {record : Record} {id : String} (key : Key)
    (ha : record.accountId = some id) (hs : record.state ≠ .revoked) :
    Triple (fun b => Consistent b ∧ b.records lease = some record ∧ b.creds lease = some key)
      (deleteAccount admin project lease record id)
      (fun _ b => Consistent b ∧ b.creds lease = some key ∧ ∃ r, b.records lease = some r ∧
        r.state = .deleted ∧ r.accountId = some id)
      (fun _ => Consistent) := by
  unfold deleteAccount
  refine Triple.ite (fun h => Triple.pure' ?_) (fun h => ?_)
  · intro b ⟨hb, hr, hk⟩
    exact ⟨hb, hk, record, hr, h, ha⟩
  refine Triple.bind (call_triple (Q := fun j b => ∃ d, Consistent b ∧
      b.records lease = some record ∧ b.creds lease = some key ∧
      (∃ c, [BrokerEvent.called d, .called c].Sublist b.log ∧ c.created lease id key.value) ∧
      d.method = .delete ∧ d.path = accountsPath project ++ "/" ++ id ∧ d.answer = some j)
    ?_ (fun _ b hb => hb.1) ?_) (fun j => ?_)
  · intro b d j ⟨hb, hr, hk⟩ hm hp _ _ hans
    obtain ⟨r, id', c, h₁, h₂, h₃, h₄⟩ := hb.keys lease key hk
    rw [hr] at h₁; cases h₁
    rw [ha] at h₂; cases h₂
    exact ⟨d, hb.called (by rw [hm]; simp), by simpa using hr, by simpa using hk,
      ⟨c, (List.singleton_sublist.mpr h₃).cons_cons _, h₄⟩, hm, hp, hans⟩
  · intro _ b d ⟨hb, _⟩ hm _ _
    exact hb.called (by rw [hm]; simp)
  refine Triple.bind (asDict_keeps.mono (fun _ h => h) (fun _ _ h => h)
    (fun _ b ⟨_, hb, _⟩ => hb)) (fun _ => ?_)
  refine Triple.bind (require_triple (Q := fun _ b => Consistent b ∧
      b.records lease = some record ∧ b.creds lease = some key ∧
      ∃ c d, [BrokerEvent.called d, .called c].Sublist b.log ∧ c.created lease id key.value ∧
        d.confirmed id) ?_ (fun _ b ⟨_, hb, _⟩ => hb)) (fun _ => ?_)
  · intro htrue b ⟨d, hb, hr, hk, ⟨c, hsub, hc⟩, hm, hp, hans⟩
    exact ⟨hb, hr, hk, c, d, hsub, hc, hm, ⟨project, hp⟩, j, hans, htrue⟩
  have hw : ∀ b, (Consistent b ∧ b.records lease = some record ∧ b.creds lease = some key ∧
      ∃ c d, [BrokerEvent.called d, .called c].Sublist b.log ∧ c.created lease id key.value ∧
        d.confirmed id) → Consistent (b.record lease { record with state := .deleted }) := by
    intro b ⟨hb, hr, hk, c, d, hsub, hc, hd⟩
    refine hb.record ?_ ?_ ?_ (by simp)
    · intro r' hr'
      rw [hr] at hr'; cases hr'
      cases hst : record.state <;> simp_all [LeaseState.rank]
    · intro _ r' id' _ h₁ h₂
      rw [hr] at h₁; cases h₁; exact h₂
    · intro _ id' key' h₁ h₂
      rw [hk] at h₂; cases h₂
      rw [show id' = id from Option.some.inj (h₁.symm.trans ha)]
      exact ⟨c, d, hsub, hc, hd⟩
  exact writeRecord_triple (fun b hb => hb.1)
    (fun b hb => ⟨hw b hb, by simpa using hb.2.2.1, { record with state := .deleted }, by simp,
      rfl, ha⟩) hw

/-- What the probe proves: the provider refused this key under status 401. -/
theorem refused_of_probe {c : Call} {value : String} {j : Json} (hplain : c.plain)
    (hblank : strip value ≠ "") (hm : c.method = .get) (hp : c.path = "models")
    (hb : c.bearer = bearerOf admin (some (strip value))) (hans : c.answer = some j)
    (hj : j.isTrue "unauthorized" = true) : c.refused value := by
  refine ⟨hm, hp, by simpa [bearerOf, hblank] using hb, ?_⟩
  cases hr : c.reply with
  | none => simp [Call.answer, hr] at hans
  | some reply =>
    refine ⟨reply, rfl, ?_⟩
    by_contra hst
    simp only [Call.answer, hr, Option.bind_some, Reply.answer, hst, if_false] at hans
    split at hans
    · cases hans
    · split at hans
      · rw [hplain.1 ⟨hm, hp⟩ reply hr hst j hans] at hj; cases hj
      · cases hans

theorem revokeAccount_triple {record : Record} {id : String}
    (ha : record.accountId = some id) (hs : record.state ≠ .revoked) :
    Triple (fun b => Consistent b ∧ b.records lease = some record)
      (revokeAccount admin project lease record id)
      (fun _ => Consistent) (fun _ => Consistent) := by
  unfold revokeAccount
  refine Triple.bind (openSecret_triple.mono (fun _ h => h) (fun _ _ h => h) (fun _ b hb => hb.1))
    (fun k => Triple.start ?_)
  rintro b₀ ⟨⟨hb₀, hr₀⟩, key, hk₀, rfl⟩
  refine Triple.bind ((deleteAccount_triple key ha hs).pre
    (by rintro b rfl; exact ⟨hb₀, hr₀, hk₀⟩)) (fun _ => ?_)
  refine Triple.bind (call_triple (Q := fun j b => ∃ c, Consistent b ∧ b.creds lease = some key ∧
      (∃ r, b.records lease = some r ∧ r.state = .deleted ∧ r.accountId = some id) ∧
      (∃ past, b.log = .called c :: past ∧ ∃ cr d,
        [BrokerEvent.called d, .called cr].Sublist past ∧ cr.created lease id key.value ∧
        d.confirmed id) ∧
      c.method = .get ∧ c.path = "models" ∧
      c.bearer = bearerOf admin (some (strip key.value)) ∧ c.answer = some j)
    ?_ (fun _ b hb => hb.1) ?_) (fun j => ?_)
  · intro b c j ⟨hb, hk, r, hr, hst, hid⟩ hm hp _ hbe hans
    exact ⟨c, hb.called (by rw [hm]; simp), by simpa using hk, ⟨r, by simpa using hr, hst, hid⟩,
      ⟨b.log, rfl, hb.deletions lease r id key hr hst hid hk⟩, hm, hp, hbe, hans⟩
  · intro _ b c ⟨hb, _⟩ hm _ _
    exact hb.called (by rw [hm]; simp)
  refine Triple.bind (asDict_keeps.mono (fun _ h => h) (fun _ _ h => h)
    (fun _ b ⟨_, hb, _⟩ => hb)) (fun _ => ?_)
  refine Triple.bind (require_triple (Q := fun _ b => Consistent b ∧
      (∃ r, b.records lease = some r ∧ r.state = .deleted ∧ r.accountId = some id) ∧
      ((∀ x ∈ b.log, x.plain) → Confirmed b.log lease))
    ?_ (fun _ b ⟨_, hb, _⟩ => hb)) (fun _ => ?_)
  · intro htrue b ⟨c, hb, hk, hr, ⟨past, hlog, cr, d, hsub, hcr, hd⟩, hm, hp, hbe, hans⟩
    refine ⟨hb, hr, fun hplain => ⟨cr, d, c, id, key.value, ?_, hcr, hd, ?_⟩⟩
    · rw [hlog]; exact hsub.cons_cons _
    · have hmem : ∀ x, x ∈ [BrokerEvent.called d, .called cr] → x ∈ b.log := by
        intro x hx; rw [hlog]; exact List.mem_cons_of_mem _ (hsub.subset hx)
      obtain ⟨⟨hpost, _⟩, result, hres, _, hkey⟩ := hcr
      have hblank := (hplain (.called cr) (hmem _ (by simp))).2 hpost result hres key.value hkey
      exact refused_of_probe (hplain (.called c) (by rw [hlog]; simp)) hblank hm hp hbe hans htrue
  have hw : ∀ b, (Consistent b ∧
      (∃ r, b.records lease = some r ∧ r.state = .deleted ∧ r.accountId = some id) ∧
      ((∀ x ∈ b.log, x.plain) → Confirmed b.log lease)) →
      Consistent (b.record lease { record with state := .revoked }) := by
    intro b ⟨hb, ⟨r, hr, hst, hid⟩, hconf⟩
    refine hb.record ?_ ?_ (by simp) (fun _ hplain => hconf hplain)
    · intro r' _
      cases r'.state <;> simp [LeaseState.rank]
    · intro _ r' id' _ h₁ h₂
      rw [hr] at h₁; cases h₁
      rw [hid] at h₂; cases h₂
      exact ha
  refine Triple.bind (writeRecord_triple (Q := Consistent) (fun b hb => hb.1) hw hw) (fun _ => ?_)
  refine Triple.bind (atomic_keeps (fun _ b hb => hb.unlinked)) (fun _ => ?_)
  exact Triple.pure' (fun _ h => h)

theorem onLease_keeps {operation : Operation} :
    Keeps Consistent (onLease admin role project operation lease) := by
  unfold onLease
  refine Triple.bind brokerLock_keeps (fun _ => ?_)
  refine Triple.bind (Triple.read (Q := fun s b => b = s ∧ Consistent b) (fun _ hb => ⟨rfl, hb⟩))
    (fun s => ?_)
  cases hrec : s.records lease with
  | none =>
    have hpre : ∀ b, b = s ∧ Consistent b → Consistent b ∧ b.records lease = none := by
      rintro b ⟨rfl, hb⟩; exact ⟨hb, hrec⟩
    cases operation with
    | issue => exact createAccount_triple.pre hpre
    | check | read | revoke => exact Triple.raise (fun _ hb => hb.2)
  | some record =>
    have hpre : ∀ b, b = s ∧ Consistent b → Consistent b ∧ b.records lease = some record := by
      rintro b ⟨rfl, hb⟩; exact ⟨hb, hrec⟩
    have hrevoke : Triple (fun b => Consistent b ∧ b.records lease = some record)
        (revoke admin project lease record) (fun _ => Consistent) (fun _ => Consistent) := by
      unfold revoke
      refine Triple.ite (fun _ => Triple.pure' (fun _ hb => hb.1)) (fun hst => ?_)
      cases ha : record.accountId with
      | none => exact Triple.raise (fun _ hb => hb.1)
      | some id => exact revokeAccount_triple ha hst
    refine Triple.bind (require_triple
      (Q := fun _ b => Consistent b ∧ b.records lease = some record)
      (fun _ => hpre) (fun _ _ hb => hb.2)) (fun _ => ?_)
    cases operation with
    | issue => exact serveKey_triple
    | read => exact serveKey_triple
    | check | revoke => exact hrevoke

end Operations

variable {policy : BrokerPolicy} {admin : String}

theorem checkProvider_keeps {role : Role} {project : String} :
    Keeps Consistent (checkProvider admin role project) := by
  unfold checkProvider
  refine Triple.bind (call_triple (Q := fun _ => Consistent) ?_ (fun _ _ h => h) ?_) (fun _ => ?_)
  · intro b c j hb hm _ _ _ _
    exact hb.called (by rw [hm]; simp)
  · intro _ b c hb hm _ _
    exact hb.called (by rw [hm]; simp)
  refine Triple.bind asDict_keeps (fun _ => ?_)
  exact Triple.bind require_keeps (fun _ => Triple.pure' (fun _ h => h))

theorem handle_keeps (uid : Int) (message : Json) :
    Keeps Consistent (Broker.handle policy admin uid message) := by
  unfold Broker.handle
  refine Triple.bind require_keeps (fun _ => ?_)
  cases roleOf (message.get "role") with
  | none => exact Triple.raise (fun _ h => h)
  | some role =>
    simp only [handleAs]
    split
    · refine Triple.bind require_keeps (fun _ => ?_)
      split
      · exact Triple.raise (fun _ h => h)
      · exact Triple.raise (fun _ h => h)
      · exact checkProvider_keeps
      · exact onLease_keeps
    · exact Triple.raise (fun _ h => h)

theorem serveAll_consistent (rs : List BrokerRequest) {b : Broker} (hb : Consistent b) :
    Consistent (Broker.serveAll policy admin b rs) := by
  induction rs generalizing b with
  | nil => exact hb
  | cons r rs ih => exact ih ((handle_keeps r.uid r.message).after hb)

/-- The life of every lease: in every run of the broker against a provider that keeps
    its answers apart, every event of the log is lawful. -/
theorem broker_lifecycle (policy : BrokerPolicy) (admin : String) (rs : List BrokerRequest)
    (hplain : ∀ x ∈ (Broker.serveAll policy admin .empty rs).log, x.plain) :
    Guarded Lawful (Broker.serveAll policy admin .empty rs).log :=
  (serveAll_consistent rs consistent_empty).lawful.mono_of hplain (fun _ _ h hl => hl h)

section Runs

/-- A policy with the test role only. -/
def testPolicy : BrokerPolicy := ⟨"proj_test", none, 1000, none, by decide⟩

def testLease : Lease := "0123456789abcdef0123456789abcdef"

/-- A request of the test peer for its lease. -/
def testRequest (operation : String) (script : List Moment) : BrokerRequest :=
  ⟨1000, .obj [("operation", .str operation), ("role", .str "test"), ("lease", .str testLease)],
    script⟩

/-- A provider that creates the account, deletes it, and answers the probe with `probe`. -/
def provider (probe : Reply) (method : Method) (_ : String) : Reply :=
  match method with
  | .post => { status := 200, body := some (.obj
      [("id", .str "svc-1"), ("api_key", .obj [("value", .str "sk-1")])]) }
  | .delete => { status := 200, body := some (.obj [("deleted", .bool true)]) }
  | .get => probe

/-- Issue a lease, then revoke it; `probe` answers the probe with the key. -/
def issueThenRevoke (probe : Reply) : Broker :=
  let script := List.replicate 10 { provider := provider probe }
  Broker.serveAll testPolicy "sk-admin" .empty
    [testRequest "issue" script, testRequest "revoke" script]

def BrokerEvent.recordsRevoked : BrokerEvent → Bool
  | .recorded _ r => r.state = .revoked
  | _ => false

/-- The provider answered with status 401. -/
def BrokerEvent.isRefusal : BrokerEvent → Bool
  | .called c => c.reply.any (fun reply => reply.status = 401)
  | _ => false

end Runs

/-- The rule for events is met by a run that revokes its lease. -/
theorem broker_lifecycle_revoked :
    (issueThenRevoke { status := 401 }).log.any BrokerEvent.recordsRevoked = true ∧
      Guarded Lawful (issueThenRevoke { status := 401 }).log :=
  ⟨by decide, broker_lifecycle testPolicy "sk-admin" _ (by decide)⟩

/-- A success that calls itself unauthorized is taken for a refusal. -/
theorem broker_revokes_unrefused :
    ¬ Guarded Lawful (issueThenRevoke
      { status := 200, body := some (.obj [("unauthorized", .bool true)]) }).log := by
  intro h
  have hrev : (issueThenRevoke { status := 200, body := some (.obj
      [("unauthorized", .bool true)]) }).log.any BrokerEvent.recordsRevoked = true := by decide
  have hno : (issueThenRevoke { status := 200, body := some (.obj
      [("unauthorized", .bool true)]) }).log.any BrokerEvent.isRefusal = false := by decide
  obtain ⟨e, he, hr⟩ := List.any_eq_true.mp hrev
  obtain ⟨past, hsub, hl⟩ := h.mem he
  cases e with
  | called c => simp [BrokerEvent.recordsRevoked] at hr
  | gave l k => simp [BrokerEvent.recordsRevoked] at hr
  | recorded l r =>
    obtain ⟨_, _, probe, _, _, hsl, _, _, _, _, _, reply, hreply, hst⟩ :=
      hl.2 (by simpa [BrokerEvent.recordsRevoked] using hr)
    have hmem := hsub (hsl.subset (List.mem_cons_self))
    have := List.any_eq_false.mp hno _ hmem
    simp [BrokerEvent.isRefusal, hreply, hst] at this

end Hermes

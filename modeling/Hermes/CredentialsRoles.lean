import Mathlib.Data.List.Induction
import Hermes.CredentialsLifecycle

/- Role isolation in the broker. Both roles share one record directory and one
   provider; a peer is known by its uid alone.

   `Serving` says what a request may have changed by any point of its service: the
   record and the key of its own lease, and events that its role permits. A record
   never changes its role, so what a role may reach was issued by that role. -/
namespace Hermes
open Process

/-- The role of the peer with this uid. -/
def BrokerPolicy.peerRole (p : BrokerPolicy) (uid : Int) : Option Role :=
  if p.uid .test = some uid then some .test
  else if p.uid .production = some uid then some .production
  else none

/-- No uid serves two roles. -/
theorem peerRole_eq {p : BrokerPolicy} {role : Role} {uid : Int} (h : p.uid role = some uid) :
    p.peerRole uid = some role := by
  unfold BrokerPolicy.peerRole
  cases role with
  | test => rw [if_pos h]
  | production =>
    have hne : p.uid .test ≠ some uid := by
      intro ht
      have hacc := p.accepted
      have ht : p.testUid = uid := Option.some.inj ht
      have hp : p.productionUid = some uid := h
      simp [policyAccepted, hp, ht] at hacc
    rw [if_neg hne, if_pos h]

/-- The request is for `operation` on `lease` in the name of `role`. -/
structure BrokerRequest.Asks (q : BrokerRequest) (operation : Operation) (role : Role)
    (lease : Lease) : Prop where
  keys : q.message.hasKeys ["operation", "role", "lease"] = true
  role : roleOf (q.message.get "role") = some role
  operation : operationOf (q.message.get "operation") = some operation
  lease : leaseOf (q.message.get "lease") = some lease

/-- The path names the provider project `project`. -/
def Call.inProject (c : Call) (project : String) : Prop :=
  c.path = accountsPath project ∨ ∃ id, c.path = accountsPath project ++ "/" ++ id

/-- `c` asks the provider to delete the account `id` of `project`. -/
def Call.deletes (c : Call) (project id : String) : Prop :=
  c.method = .delete ∧ c.path = accountsPath project ++ "/" ++ id

/-- The key probe: its path is fixed and names no project. -/
def Call.isProbe (c : Call) : Prop := c.method = .get ∧ c.path = "models"

/-- What the directory holds belongs to roles that the policy enables, and what is
    recorded as deleted was asked to be deleted. -/
structure Owned (policy : BrokerPolicy) (b : Broker) : Prop where
  enabled : ∀ lease r, b.records lease = some r → isLease lease = true ∧
    (policy.project r.role).isSome ∧ (policy.uid r.role).isSome
  keys : ∀ lease key, b.creds lease = some key →
    key.account = accountName lease ∧ b.records lease ≠ none
  deletions : ∀ lease r, b.records lease = some r → r.state = .deleted ∨ r.state = .revoked →
    ∃ id project c, r.accountId = some id ∧ policy.project r.role = some project ∧
      .called c ∈ b.log ∧ c.deletes project id

theorem owned_empty (policy : BrokerPolicy) : Owned policy Broker.empty where
  enabled := by intro lease r hr; simp [Broker.empty] at hr
  keys := by intro lease key hk; simp [Broker.empty] at hk
  deletions := by intro lease r hr; simp [Broker.empty] at hr

/-- The events of a request of `role` on `lease`, seen from the state `b` it has reached. -/
def Permitted (role : Role) (project : String) (lease : Lease) (b : Broker) : BrokerEvent → Prop
  | .called c =>
    c.method ≠ .delete ∧ (c.path = accountsPath project ∨ c.isProbe) ∨
      ∃ r id, b.records lease = some r ∧ r.accountId = some id ∧ c.deletes project id
  | .recorded l r => l = lease ∧ r.role = role
  | .gave l key => l = lease ∧ key.account = accountName l ∧ b.records l ≠ none

/-- What a request of `role` on `lease` may have done between `b₀` and `b`. -/
structure Serving (policy : BrokerPolicy) (role : Role) (project : String) (lease : Lease)
    (operation : Operation) (b₀ b : Broker) : Prop where
  owned : Owned policy b
  before : ∀ r, b₀.records lease = some r → r.role = role
  named : ∀ r, b.records lease = some r → r.role = role
  events : ∃ new, b.log = new ++ b₀.log ∧ ∀ e ∈ new, Permitted role project lease b e
  others : ∀ l, l ≠ lease → b.records l = b₀.records l
  issued : b.records lease ≠ none → b₀.records lease ≠ none ∨ operation = .issue

/-- What is permitted stays so when the record of the lease keeps its account. -/
theorem Permitted.mono {role : Role} {project : String} {lease : Lease} {b b' : Broker}
    (hkeep : ∀ r, b.records lease = some r → ∃ r', b'.records lease = some r' ∧
      ∀ id, r.accountId = some id → r'.accountId = some id) {e : BrokerEvent}
    (h : Permitted role project lease b e) : Permitted role project lease b' e := by
  cases e with
  | called c =>
    rcases h with h | ⟨r, id, hr, hid, hd⟩
    · exact .inl h
    · obtain ⟨r', hr', hacc⟩ := hkeep r hr
      exact .inr ⟨r', id, hr', hacc id hid, hd⟩
  | recorded l r => exact h
  | gave l key =>
    obtain ⟨rfl, hkey, hrec⟩ := h
    refine ⟨rfl, hkey, ?_⟩
    obtain ⟨r, hr⟩ := Option.ne_none_iff_exists'.mp hrec
    obtain ⟨r', hr', _⟩ := hkeep r hr
    rw [hr']; simp

namespace Serving

variable {policy : BrokerPolicy} {role : Role} {project : String} {lease : Lease}
  {operation : Operation} {b₀ b : Broker}

/-- The start of a request whose lease has no record yet or one of the same role. -/
theorem start (h : Owned policy b) (hrole : ∀ r, b.records lease = some r → r.role = role) :
    Serving policy role project lease operation b b :=
  ⟨h, hrole, hrole, ⟨[], rfl, by simp⟩, fun _ _ => rfl, .inl⟩

/-- A permitted event. -/
theorem append (h : Serving policy role project lease operation b₀ b) {e : BrokerEvent}
    (he : Permitted role project lease b e) :
    Serving policy role project lease operation b₀ (b.append e) where
  owned :=
    ⟨h.owned.enabled, h.owned.keys, by
      intro l r hr hs
      obtain ⟨id, project', c, h₁, h₂, h₃, h₄⟩ := h.owned.deletions l r hr hs
      exact ⟨id, project', c, h₁, h₂, List.mem_cons_of_mem _ h₃, h₄⟩⟩
  before := h.before
  named := h.named
  events := by
    obtain ⟨new, hlog, hnew⟩ := h.events
    refine ⟨e :: new, by simp [hlog], ?_⟩
    intro x hx
    rcases List.mem_cons.mp hx with rfl | hx
    · exact he
    · exact hnew x hx
  others := h.others
  issued := h.issued

/-- A record of the lease: it names the role, keeps the account, and says `deleted` or
    `revoked` only where the deletion was asked for. -/
theorem record (h : Serving policy role project lease operation b₀ b) {r : Record}
    (hlease : isLease lease = true) (hproject : policy.project role = some project)
    (huid : (policy.uid role).isSome) (hrole : r.role = role)
    (hacc : ∀ r', b.records lease = some r' → ∀ id, r'.accountId = some id → r.accountId = some id)
    (hdel : r.state = .deleted ∨ r.state = .revoked →
      ∃ id c, r.accountId = some id ∧ .called c ∈ b.log ∧ c.deletes project id)
    (hissued : b.records lease ≠ none ∨ operation = .issue) :
    Serving policy role project lease operation b₀ (b.record lease r) where
  owned := by
    refine ⟨?_, ?_, ?_⟩
    · intro l r' hr'
      by_cases hl : l = lease
      · subst hl
        rw [record_same] at hr'; cases hr'
        rw [hrole, hproject]
        exact ⟨hlease, rfl, huid⟩
      · rw [record_other _ _ _ _ hl] at hr'
        exact h.owned.enabled l r' hr'
    · intro l key hk
      obtain ⟨hkey, hrec⟩ := h.owned.keys l key hk
      refine ⟨hkey, ?_⟩
      by_cases hl : l = lease
      · subst hl; simp
      · rw [record_other _ _ _ _ hl]; exact hrec
    · intro l r' hr' hs
      by_cases hl : l = lease
      · subst hl
        rw [record_same] at hr'; cases hr'
        obtain ⟨id, c, h₁, h₂, h₃⟩ := hdel hs
        exact ⟨id, project, c, h₁, by rw [hrole]; exact hproject, List.mem_cons_of_mem _ h₂, h₃⟩
      · rw [record_other _ _ _ _ hl] at hr'
        obtain ⟨id, project', c, h₁, h₂, h₃, h₄⟩ := h.owned.deletions l r' hr' hs
        exact ⟨id, project', c, h₁, h₂, List.mem_cons_of_mem _ h₃, h₄⟩
  before := h.before
  named := by
    intro r' hr'
    rw [record_same] at hr'; cases hr'
    exact hrole
  events := by
    obtain ⟨new, hlog, hnew⟩ := h.events
    refine ⟨.recorded lease r :: new, by simp [hlog], ?_⟩
    intro x hx
    rcases List.mem_cons.mp hx with rfl | hx
    · exact ⟨rfl, hrole⟩
    · exact (hnew x hx).mono (fun r' hr' => ⟨r, by simp, hacc r' hr'⟩)
  others := by
    intro l hl
    rw [record_other _ _ _ _ hl]
    exact h.others l hl
  issued := fun _ => hissued.elim h.issued .inr

/-- The key of the lease is sealed, or unlinked. -/
theorem setCred (h : Serving policy role project lease operation b₀ b) {key : Option Key}
    (hkey : ∀ k, key = some k → k.account = accountName lease ∧ b.records lease ≠ none) :
    Serving policy role project lease operation b₀ (b.setCred lease key) where
  owned := by
    refine ⟨h.owned.enabled, ?_, h.owned.deletions⟩
    intro l k hk
    by_cases hl : l = lease
    · subst hl
      rw [setCred_same] at hk
      exact hkey k hk
    · rw [setCred_other _ _ _ _ hl] at hk
      exact h.owned.keys l k hk
  before := h.before
  named := h.named
  events := by
    obtain ⟨new, hlog, hnew⟩ := h.events
    exact ⟨new, hlog, fun x hx => (hnew x hx).mono (fun r' hr' => ⟨r', hr', fun _ => id⟩)⟩
  others := h.others
  issued := h.issued

end Serving

/-! Every operation on a lease stays within what its role permits. -/

section Operations
variable {policy : BrokerPolicy} {admin : String} {role : Role} {project : String}
  {lease : Lease} {operation : Operation} {b₀ : Broker}

/-- Served so far, with this record on disk. -/
def ServingAt (policy : BrokerPolicy) (role : Role) (project : String) (lease : Lease)
    (operation : Operation) (b₀ : Broker) (r : Record) (b : Broker) : Prop :=
  Serving policy role project lease operation b₀ b ∧ b.records lease = some r

/-- Served, and a key in the answer is one of the lease. -/
def Replied (policy : BrokerPolicy) (role : Role) (project : String) (lease : Lease)
    (operation : Operation) (b₀ : Broker) (reply : BrokerReply) (b : Broker) : Prop :=
  Serving policy role project lease operation b₀ b ∧
    ∀ l key, reply = .key l key → Permitted role project lease b (.gave l key)

theorem ServingAt.named {r : Record} {b : Broker}
    (h : ServingAt policy role project lease operation b₀ r b) : r.role = role :=
  h.1.named r h.2

/-- A request to the provider that is no deletion. -/
theorem call_serving {method : Method} {path : String} {name token : Option String} {r : Record}
    (hm : method ≠ .delete)
    (hp : path = accountsPath project ∨ method = .get ∧ path = "models") :
    Triple (ServingAt policy role project lease operation b₀ r)
      (OpenAI.call admin method path name token)
      (fun _ => ServingAt policy role project lease operation b₀ r)
      (fun _ => Serving policy role project lease operation b₀) := by
  have hperm : ∀ (b : Broker) (c : Call), c.method = method → c.path = path →
      Permitted role project lease b (.called c) := by
    intro b c hcm hcp
    refine .inl ⟨by rw [hcm]; exact hm, ?_⟩
    rcases hp with hp | ⟨hg, hp⟩
    · exact .inl (hcp.trans hp)
    · exact .inr ⟨hcm.trans hg, hcp.trans hp⟩
  apply call_triple
  · intro b c j hb hcm hcp _ _ _
    exact ⟨hb.1.append (hperm b c hcm hcp), hb.2⟩
  · exact fun _ b hb => hb.1
  · intro _ b c hb hcm hcp _
    exact hb.1.append (hperm b c hcm hcp)

/-- The record is written again, with the same account. -/
theorem writeRecord_serving {r r' : Record} {φ : Broker → Prop} (hlease : isLease lease = true)
    (hproject : policy.project role = some project) (huid : (policy.uid role).isSome)
    (hφ : ∀ b, φ b → ServingAt policy role project lease operation b₀ r b)
    (hrole : r'.role = r.role) (hacc : ∀ id, r.accountId = some id → r'.accountId = some id)
    (hdel : ∀ b, φ b → r'.state = .deleted ∨ r'.state = .revoked →
      ∃ id c, r'.accountId = some id ∧ .called c ∈ b.log ∧ c.deletes project id) :
    Triple φ (writeRecord lease r')
      (fun _ => ServingAt policy role project lease operation b₀ r')
      (fun _ => Serving policy role project lease operation b₀) := by
  have hw : ∀ b, φ b →
      Serving policy role project lease operation b₀ (b.record lease r') := by
    intro b hb
    have hat := hφ b hb
    apply hat.1.record hlease hproject huid (hrole.trans hat.named)
    · intro r₁ hr₁
      rw [hat.2] at hr₁; cases hr₁
      exact hacc
    · exact hdel b hb
    · exact .inl (by rw [hat.2]; simp)
  exact atomic_triple (fun _ b hb => ⟨hw b hb, by simp⟩) (fun _ b hb => (hφ b hb).1)
    (fun _ _ b hb => hw b hb)

/-- The same for a record that says neither `deleted` nor `revoked`. -/
theorem writeRecord_forward {r r' : Record} (hlease : isLease lease = true)
    (hproject : policy.project role = some project) (huid : (policy.uid role).isSome)
    (hrole : r'.role = r.role) (hacc : ∀ id, r.accountId = some id → r'.accountId = some id)
    (hs : r'.state = .issuing ∨ r'.state = .ready) :
    Triple (ServingAt policy role project lease operation b₀ r) (writeRecord lease r')
      (fun _ => ServingAt policy role project lease operation b₀ r')
      (fun _ => Serving policy role project lease operation b₀) := by
  apply writeRecord_serving hlease hproject huid (fun _ hb => hb) hrole hacc
  intro b _ hd
  rcases hs with hs | hs <;> simp [hs] at hd

theorem sealSecret_serving {r : Record} {key : Key} (hkey : key.account = accountName lease) :
    Triple (ServingAt policy role project lease operation b₀ r) (sealSecret lease key)
      (fun _ => ServingAt policy role project lease operation b₀ r)
      (fun _ => Serving policy role project lease operation b₀) := by
  have hseal : ∀ b, ServingAt policy role project lease operation b₀ r b →
      Serving policy role project lease operation b₀ (b.setCred lease (some key)) := by
    intro b hb
    apply hb.1.setCred
    intro k hk
    cases hk
    exact ⟨hkey, by rw [hb.2]; simp⟩
  apply Triple.bind (Q := fun _ => ServingAt policy role project lease operation b₀ r)
  · exact run_triple (fun _ _ hb _ => hb) (fun _ b hb => hb.1) (fun _ _ b hb _ => hb.1)
  · intro _
    exact atomic_triple (fun _ b hb => ⟨hseal b hb, hb.2⟩) (fun _ b hb => hb.1)
      (fun _ _ b hb => hseal b hb)

theorem giveKey_serving {r : Record} {key : Key} (hkey : key.account = accountName lease) :
    Triple (ServingAt policy role project lease operation b₀ r) (giveKey lease key)
      (Replied policy role project lease operation b₀)
      (fun _ => Serving policy role project lease operation b₀) := by
  have hgive : ∀ b, ServingAt policy role project lease operation b₀ r b →
      Permitted role project lease b (.gave lease key) :=
    fun b hb => ⟨rfl, hkey, by rw [hb.2]; simp⟩
  apply Triple.bind (Q := fun _ b => Serving policy role project lease operation b₀ b ∧
    Permitted role project lease b (.gave lease key))
  · apply Triple.update
    intro b hb
    exact ⟨hb.1.append (hgive b hb), hgive b hb⟩
  · intro _
    apply Triple.pure'
    intro b hb
    refine ⟨hb.1, ?_⟩
    intro l k hk
    cases hk
    exact hb.2

theorem createAccount_serving (hlease : isLease lease = true)
    (hproject : policy.project role = some project) (huid : (policy.uid role).isSome) :
    Triple (fun b => Serving policy role project lease .issue b₀ b ∧ b.records lease = none)
      (createAccount admin role project lease)
      (Replied policy role project lease .issue b₀)
      (fun _ => Serving policy role project lease .issue b₀) := by
  unfold createAccount
  apply Triple.bind (instant_triple
    (Q := fun _ b => Serving policy role project lease .issue b₀ b ∧ b.records lease = none)
    (fun _ _ h => h) (fun _ _ hb => hb.1))
  intro now
  have hfirst : ∀ b, (Serving policy role project lease .issue b₀ b ∧ b.records lease = none) →
      Serving policy role project lease .issue b₀
        (b.record lease ⟨role, .issuing, accountName lease, now.now, none⟩) := by
    rintro b ⟨hb, hnone⟩
    apply hb.record hlease hproject huid rfl
    · intro r' hr'
      rw [hnone] at hr'; cases hr'
    · intro hs; rcases hs with hs | hs <;> cases hs
    · exact .inr rfl
  apply Triple.bind (Q := fun _ => ServingAt policy role project lease .issue b₀
    ⟨role, .issuing, accountName lease, now.now, none⟩)
  · exact atomic_triple (fun _ b hb => ⟨hfirst b hb, by simp⟩) (fun _ b hb => hb.1)
      (fun _ _ b hb => hfirst b hb)
  intro _
  apply Triple.bind (call_serving (by simp) (.inl rfl))
  intro result
  apply Triple.bind (asDict_keeps.mono (fun _ h => h) (fun _ _ h => h) (fun _ b hb => hb.1))
  intro _
  cases accountIdOf result with
  | none => exact Triple.raise (fun b hb => hb.1)
  | some id =>
    apply Triple.bind (Q := fun _ => ServingAt policy role project lease .issue b₀
      ⟨role, .issuing, accountName lease, now.now, some id⟩)
    · exact writeRecord_forward hlease hproject huid rfl (by simp) (.inl rfl)
    intro _
    apply Triple.bind (keyField_triple.mono (fun _ h => h) (fun _ _ h => h.1) (fun _ b hb => hb.1))
    intro value
    cases usableKey value with
    | none => exact Triple.raise (fun b hb => hb.1)
    | some value =>
      refine Triple.bind (sealSecret_serving rfl) ?_
      intro _
      apply Triple.bind (Q := fun _ => ServingAt policy role project lease .issue b₀
        ⟨role, .ready, accountName lease, now.now, some id⟩)
      · exact writeRecord_forward hlease hproject huid rfl (fun _ h => h) (.inr rfl)
      · exact fun _ => giveKey_serving rfl

/-- Serving the key of a lease: the sealed key is one of that lease. -/
theorem serveKey_serving {record : Record} {reason : String} :
    Triple (ServingAt policy role project lease operation b₀ record)
      (do require (record.state = .ready) reason 75
          let key ← openSecret lease
          giveKey lease key)
      (Replied policy role project lease operation b₀)
      (fun _ => Serving policy role project lease operation b₀) := by
  apply Triple.bind (require_triple
    (Q := fun _ => ServingAt policy role project lease operation b₀ record)
    (fun _ _ hb => hb) (fun _ b hb => hb.1))
  intro _
  apply Triple.bind (openSecret_triple.mono (fun _ h => h) (fun _ _ h => h) (fun _ b hb => hb.1))
  intro key
  apply Triple.given (φ := key.account = accountName lease)
  · rintro b ⟨hb, k, hk, hkey⟩
    rw [hkey]
    exact (hb.1.owned.keys lease k hk).1
  · exact fun hkey => (giveKey_serving hkey).pre (fun b hb => hb.1)

theorem deleteAccount_serving {record : Record} {id : String} (hlease : isLease lease = true)
    (hproject : policy.project role = some project) (huid : (policy.uid role).isSome)
    (ha : record.accountId = some id) :
    Triple (ServingAt policy role project lease operation b₀ record)
      (deleteAccount admin project lease record id)
      (fun _ => ServingAt policy role project lease operation b₀ { record with state := .deleted })
      (fun _ => Serving policy role project lease operation b₀) := by
  unfold deleteAccount
  apply Triple.ite
  · intro hs
    apply Triple.pure'
    intro b hb
    have hrec : { record with state := .deleted } = record := by rw [← hs]
    rw [hrec]
    exact hb
  intro _
  have hcall : ∀ (b : Broker) (c : Call),
      ServingAt policy role project lease operation b₀ record b → c.method = .delete →
      c.path = accountsPath project ++ "/" ++ id → Permitted role project lease b (.called c) :=
    fun b c hb hm hp => .inr ⟨record, id, hb.2, ha, hm, hp⟩
  apply Triple.bind (Q := fun _ b => ServingAt policy role project lease operation b₀ record b ∧
    ∃ c, .called c ∈ b.log ∧ c.deletes project id)
  · apply call_triple
    · intro b c j hb hm hp _ _ _
      exact ⟨⟨hb.1.append (hcall b c hb hm hp), hb.2⟩, c, by simp, hm, hp⟩
    · exact fun _ b hb => hb.1
    · intro _ b c hb hm hp _
      exact hb.1.append (hcall b c hb hm hp)
  intro result
  apply Triple.bind (asDict_keeps.mono (fun _ h => h) (fun _ _ h => h) (fun _ b hb => hb.1.1))
  intro _
  apply Triple.bind (require_keeps.mono (fun _ h => h) (fun _ _ h => h) (fun _ b hb => hb.1.1))
  intro _
  refine writeRecord_serving hlease hproject huid (fun b hb => hb.1) rfl (fun _ h => h) ?_
  rintro b ⟨_, c, hc, hd⟩ _
  exact ⟨id, c, ha, hc, hd⟩

theorem revokeAccount_serving {record : Record} {id : String} (hlease : isLease lease = true)
    (hproject : policy.project role = some project) (huid : (policy.uid role).isSome)
    (ha : record.accountId = some id) :
    Triple (ServingAt policy role project lease operation b₀ record)
      (revokeAccount admin project lease record id)
      (Replied policy role project lease operation b₀)
      (fun _ => Serving policy role project lease operation b₀) := by
  unfold revokeAccount
  apply Triple.bind (openSecret_triple.mono (fun _ h => h) (fun _ _ h => h.1) (fun _ b hb => hb.1))
  intro key
  apply Triple.bind (deleteAccount_serving hlease hproject huid ha)
  intro _
  apply Triple.bind (call_serving (by simp) (.inr ⟨rfl, rfl⟩))
  intro probe
  apply Triple.bind (asDict_keeps.mono (fun _ h => h) (fun _ _ h => h) (fun _ b hb => hb.1))
  intro _
  apply Triple.bind (require_keeps.mono (fun _ h => h) (fun _ _ h => h) (fun _ b hb => hb.1))
  intro _
  -- `deleted` is on disk, so its deletion is in the log
  have hlogged : ∀ b, ServingAt policy role project lease operation b₀
      { record with state := .deleted } b →
      LeaseState.revoked = .deleted ∨ LeaseState.revoked = .revoked →
      ∃ id c, record.accountId = some id ∧ .called c ∈ b.log ∧ c.deletes project id := by
    intro b hb _
    obtain ⟨id', project', c, h₁, h₂, h₃, h₄⟩ := hb.1.owned.deletions lease _ hb.2 (.inl rfl)
    rw [hb.named, hproject] at h₂; cases h₂
    exact ⟨id', c, h₁, h₃, h₄⟩
  apply Triple.bind (Q := fun _ => ServingAt policy role project lease operation b₀
    { record with state := .revoked })
  · exact writeRecord_serving hlease hproject huid (fun _ hb => hb) rfl (fun _ h => h) hlogged
  intro _
  apply Triple.bind (Q := fun _ => Serving policy role project lease operation b₀)
  · exact atomic_triple (fun _ b hb => hb.1.setCred (by simp)) (fun _ b hb => hb.1)
      (fun _ _ b hb => hb.1.setCred (by simp))
  · exact fun _ => Triple.pure' (fun _ hb => ⟨hb, by simp⟩)

theorem onLease_serving (hlease : isLease lease = true)
    (hproject : policy.project role = some project) (huid : (policy.uid role).isSome)
    (howned : Owned policy b₀) :
    Triple (fun b => b = b₀) (onLease admin role project operation lease)
      (Replied policy role project lease operation b₀)
      (fun _ b => b = b₀ ∨ Serving policy role project lease operation b₀ b) := by
  unfold onLease
  apply Triple.bind (brokerLock_keeps.mono (fun _ h => h) (fun _ _ h => h) (fun _ _ h => .inl h))
  intro _
  apply Triple.bind (Triple.read (Q := fun s b => s = b₀ ∧ b = b₀) (fun _ hb => ⟨hb, hb⟩))
  intro s
  apply Triple.given (φ := s = b₀) (fun _ hb => hb.1)
  intro hs
  subst hs
  cases hrec : s.records lease with
  | none =>
    cases operation with
    | issue =>
      apply (createAccount_serving hlease hproject huid).mono
      · rintro b ⟨_, hb⟩
        subst hb
        refine ⟨Serving.start howned ?_, hrec⟩
        intro r hr
        rw [hrec] at hr; cases hr
      · exact fun _ _ h => h
      · exact fun _ _ h => .inr h
    | check | read | revoke => exact Triple.raise (fun _ hb => .inl hb.2)
  | some record =>
    apply Triple.bind (require_triple
      (Q := fun _ => ServingAt policy role project lease operation s record) ?_ ?_)
    · intro _
      have hrevoke : Triple (ServingAt policy role project lease operation s record)
          (revoke admin project lease record)
          (Replied policy role project lease operation s)
          (fun _ => Serving policy role project lease operation s) := by
        unfold revoke
        apply Triple.ite (fun _ => Triple.pure' (fun _ hb => ⟨hb.1, by simp⟩))
        intro _
        cases ha : record.accountId with
        | none => exact Triple.raise (fun _ hb => hb.1)
        | some id => exact revokeAccount_serving hlease hproject huid ha
      cases operation with
      | issue => exact serveKey_serving.mono (fun _ h => h) (fun _ _ h => h) (fun _ _ => .inr)
      | read => exact serveKey_serving.mono (fun _ h => h) (fun _ _ h => h) (fun _ _ => .inr)
      | check | revoke => exact hrevoke.mono (fun _ h => h) (fun _ _ h => h) (fun _ _ => .inr)
    · rintro hrole b ⟨_, hb⟩
      subst hb
      have hrole : record.role = role := by simpa using hrole
      refine ⟨Serving.start howned ?_, hrec⟩
      intro r hr
      rw [hrec] at hr; cases hr
      exact hrole
    · exact fun _ _ hb => .inl hb.2

end Operations

section Runs
variable {policy : BrokerPolicy} {admin : String}

/-- What one request of a peer may change: nothing; or it looks at the accounts of its
    project; or it is served on its lease. -/
def Serves (policy : BrokerPolicy) (q : BrokerRequest) (b₀ b : Broker) : Prop :=
  b = b₀ ∨ ∃ role project, policy.uid role = some q.uid ∧ policy.project role = some project ∧
    ((∃ c, b = b₀.append (.called c) ∧ c.method = .get ∧ c.path = accountsPath project) ∨
      ∃ lease operation, q.Asks operation role lease ∧
        Serving policy role project lease operation b₀ b)

theorem checkProvider_serving {role : Role} {project : String} {b₀ : Broker} :
    Triple (fun b => b = b₀) (checkProvider admin role project)
      (fun reply b => (∀ l key, reply ≠ .key l key) ∧
        ∃ c, b = b₀.append (.called c) ∧ c.method = .get ∧ c.path = accountsPath project)
      (fun _ b => b = b₀ ∨
        ∃ c, b = b₀.append (.called c) ∧ c.method = .get ∧ c.path = accountsPath project) := by
  unfold checkProvider
  apply Triple.bind (Q := fun _ b => ∃ c, b = b₀.append (.called c) ∧ c.method = .get ∧
    c.path = accountsPath project)
  · apply call_triple
    · intro b c j hb hm hp _ _ _
      exact ⟨c, by rw [hb], hm, hp⟩
    · exact fun _ b hb => .inl hb
    · intro _ b c hb hm hp _
      exact .inr ⟨c, by rw [hb], hm, hp⟩
  intro result
  apply Triple.bind (asDict_keeps.mono (fun _ h => h) (fun _ _ h => h) (fun _ b hb => .inr hb))
  intro _
  apply Triple.bind (require_keeps.mono (fun _ h => h) (fun _ _ h => h) (fun _ b hb => .inr hb))
  exact fun _ => Triple.pure' (fun _ h => ⟨by simp, h⟩)

/-- A key in the answer is one of a lease whose record names the role of the peer. -/
def Entitled (policy : BrokerPolicy) (uid : Int) (reply : BrokerReply) (b : Broker) : Prop :=
  ∀ lease key, reply = .key lease key → key.account = accountName lease ∧
    ∃ r, b.records lease = some r ∧ policy.uid r.role = some uid

theorem Replied.entitled {role : Role} {project : String} {lease : Lease} {op : Operation}
    {b₀ b : Broker} {reply : BrokerReply} {uid : Int}
    (h : Replied policy role project lease op b₀ reply b) (huid : policy.uid role = some uid) :
    Entitled policy uid reply b := by
  intro l key hreply
  obtain ⟨rfl, hkey, hrec⟩ := h.2 l key hreply
  obtain ⟨r, hr⟩ := Option.ne_none_iff_exists'.mp hrec
  exact ⟨hkey, r, hr, by rw [h.1.named r hr]; exact huid⟩

theorem isLease_of_leaseOf {j : Option Json} {lease : Lease} (h : leaseOf j = some lease) :
    isLease lease = true := by
  unfold leaseOf at h
  split at h
  · split at h
    · cases h; assumption
    · cases h
  · cases h

theorem handle_serves {b₀ : Broker} (howned : Owned policy b₀) (q : BrokerRequest) :
    Triple (fun b => b = b₀) (Broker.handle policy admin q.uid q.message)
      (fun reply b => Serves policy q b₀ b ∧ Entitled policy q.uid reply b)
      (fun _ => Serves policy q b₀) := by
  unfold Broker.handle
  apply Triple.bind (require_triple (Q := fun _ b => b = b₀ ∧
    q.message.hasKeys ["operation", "role", "lease"] = true) (fun hk b hb => ⟨hb, hk⟩)
    (fun _ b hb => .inl hb))
  intro _
  apply Triple.given (fun _ hb => hb.2)
  intro hkeys
  cases hrole : roleOf (q.message.get "role") with
  | none => exact Triple.raise (fun _ hb => .inl hb.1)
  | some role =>
    simp only [handleAs]
    cases hproject : policy.project role with
    | none => exact Triple.raise (fun _ hb => .inl hb.1)
    | some project =>
      cases huid : policy.uid role with
      | none => exact Triple.raise (fun _ hb => .inl hb.1)
      | some owner =>
        apply Triple.bind (require_triple (Q := fun _ b => b = b₀ ∧ policy.uid role = some q.uid)
          ?_ (fun _ b hb => .inl hb.1))
        · intro _
          apply Triple.given (fun _ hb => hb.2)
          intro hpeer
          cases hop : operationOf (q.message.get "operation") with
          | none => exact Triple.raise (fun _ hb => .inl hb.1)
          | some op =>
            cases hlease : leaseOf (q.message.get "lease") with
            | none => exact Triple.raise (fun _ hb => .inl hb.1)
            | some lease =>
              have hserved : ∀ b, b = b₀ ∨ Serving policy role project lease op b₀ b →
                  Serves policy q b₀ b := by
                intro b hb
                rcases hb with hb | hb
                · exact .inl hb
                · exact .inr ⟨role, project, hpeer, hproject, .inr ⟨lease, op,
                    ⟨hkeys, hrole, hop, hlease⟩, hb⟩⟩
              have hon : Triple (fun b => b = b₀ ∧ policy.uid role = some q.uid)
                  (onLease admin role project op lease)
                  (fun reply b => Serves policy q b₀ b ∧ Entitled policy q.uid reply b)
                  (fun _ => Serves policy q b₀) :=
                (onLease_serving (isLease_of_leaseOf hlease) hproject (by simp [hpeer]) howned).mono
                  (fun _ hb => hb.1) (fun _ b hb => ⟨hserved b (.inr hb.1), hb.entitled hpeer⟩)
                  (fun _ => hserved)
              cases op with
              | check =>
                apply checkProvider_serving.mono (fun _ hb => hb.1)
                · rintro reply b ⟨hno, hb⟩
                  exact ⟨.inr ⟨role, project, hpeer, hproject, .inl hb⟩,
                    fun l key hreply => absurd hreply (hno l key)⟩
                · intro _ b hb
                  rcases hb with hb | hb
                  · exact .inl hb
                  · exact .inr ⟨role, project, hpeer, hproject, .inl hb⟩
              | issue | read | revoke => exact hon
        · intro heq b hb
          have heq : q.uid = owner := by simpa using heq
          exact ⟨hb.1, by rw [heq]; exact huid⟩

/-- The peer of `role` asked for `lease` to be issued, and the broker took that up when
    nobody had before. -/
def IssuedBy (policy : BrokerPolicy) (admin : String) (rs : List BrokerRequest) (lease : Lease)
    (role : Role) : Prop :=
  ∃ before q after, rs = before ++ q :: after ∧ policy.peerRole q.uid = some role ∧
    q.Asks .issue role lease ∧
    (Broker.serveAll policy admin .empty before).records lease = none ∧
    (Broker.serveAll policy admin .empty (before ++ [q])).records lease ≠ none

theorem IssuedBy.snoc {rs : List BrokerRequest} {lease : Lease} {role : Role} (q : BrokerRequest)
    (h : IssuedBy policy admin rs lease role) : IssuedBy policy admin (rs ++ [q]) lease role := by
  obtain ⟨before, q', after, hrs, hrest⟩ := h
  exact ⟨before, q', after ++ [q], by simp [hrs], hrest⟩

theorem serveAll_snoc (b : Broker) (rs : List BrokerRequest) (q : BrokerRequest) :
    Broker.serveAll policy admin b (rs ++ [q]) =
      (Broker.serveAll policy admin b rs).serve policy admin q := by
  simp [Broker.serveAll]

theorem serve_serves {b : Broker} (howned : Owned policy b) (q : BrokerRequest) :
    Serves policy q b (b.serve policy admin q) :=
  ((handle_serves howned q).post (fun _ _ h => h.1)).after rfl

theorem Serves.owned {q : BrokerRequest} {b₀ b : Broker} (h : Serves policy q b₀ b)
    (howned : Owned policy b₀) : Owned policy b := by
  rcases h with h | ⟨role, project, _, _, ⟨c, h, _⟩ | ⟨lease, operation, _, h⟩⟩
  · rw [h]; exact howned
  · subst h
    refine ⟨howned.enabled, howned.keys, ?_⟩
    intro l r hr hs
    obtain ⟨id, project', d, h₁, h₂, h₃, h₄⟩ := howned.deletions l r hr hs
    exact ⟨id, project', d, h₁, h₂, List.mem_cons_of_mem _ h₃, h₄⟩
  · exact h.owned

/-- A record was there before the request with the same role, or the peer of its role has
    just had it issued. -/
theorem Serves.record {q : BrokerRequest} {b₀ b : Broker} (h : Serves policy q b₀ b)
    {lease : Lease} {r : Record} (hr : b.records lease = some r) :
    (∃ r₀, b₀.records lease = some r₀ ∧ r₀.role = r.role) ∨
      (b₀.records lease = none ∧ policy.uid r.role = some q.uid ∧ q.Asks .issue r.role lease) := by
  rcases h with h | ⟨role, project, hpeer, _, ⟨c, h, _⟩ | ⟨l, operation, hasks, h⟩⟩
  · exact .inl ⟨r, by rw [← h]; exact hr, rfl⟩
  · exact .inl ⟨r, by rw [h] at hr; exact hr, rfl⟩
  · by_cases hl : lease = l
    · subst hl
      have hrole := h.named r hr
      cases h₀ : b₀.records lease with
      | some r₀ => exact .inl ⟨r₀, rfl, (h.before r₀ h₀).trans hrole.symm⟩
      | none =>
        have hissue := h.issued (by rw [hr]; simp)
        rw [hrole]
        refine .inr ⟨rfl, hpeer, ?_⟩
        rcases hissue with hno | hissue
        · exact absurd h₀ hno
        · rw [← hissue]; exact hasks
    · exact .inl ⟨r, by rw [← h.others lease hl]; exact hr, rfl⟩

theorem serveAll_owned (rs : List BrokerRequest) :
    Owned policy (Broker.serveAll policy admin .empty rs) := by
  induction rs using List.reverseRecOn with
  | nil => exact owned_empty policy
  | append_singleton rs q ih =>
    rw [serveAll_snoc]
    exact (serve_serves ih q).owned ih

/-- Every record on disk was issued by a peer of the role it names. -/
theorem issued_of_record (rs : List BrokerRequest) {lease : Lease} {r : Record}
    (hr : (Broker.serveAll policy admin .empty rs).records lease = some r) :
    IssuedBy policy admin rs lease r.role := by
  induction rs using List.reverseRecOn generalizing r with
  | nil => simp [Broker.serveAll, Broker.empty] at hr
  | append_singleton rs q ih =>
    have hsnoc := hr
    rw [serveAll_snoc] at hr
    rcases (serve_serves (serveAll_owned rs) q).record hr with ⟨r₀, hr₀, hrole⟩ | ⟨hnone, huid, hq⟩
    · rw [← hrole]
      exact (ih hr₀).snoc q
    · exact ⟨rs, q, [], rfl, peerRole_eq huid, hq, hnone, by rw [hsnoc]; simp⟩

/-- What may happen while the last of the requests `rs`, from the peer `uid`, is served. -/
def Isolated (policy : BrokerPolicy) (admin : String) (rs : List BrokerRequest) (uid : Int) :
    BrokerEvent → Prop
  | .gave lease key => ∃ role, policy.peerRole uid = some role ∧
      key.account = accountName lease ∧ IssuedBy policy admin rs lease role
  | .recorded _ r => policy.peerRole uid = some r.role
  | .called c => ∃ role project, policy.peerRole uid = some role ∧
      policy.project role = some project ∧ (c.isProbe ∨ c.inProject project) ∧
      (c.method = .delete → ∃ lease r id,
        (Broker.serveAll policy admin .empty rs).records lease = some r ∧
        r.accountId = some id ∧ c.deletes project id ∧ IssuedBy policy admin rs lease role)

/-- Role isolation: whatever the requests before and whatever this one asks for, a peer is
    handed keys only of leases issued by its own role, asks only for the deletion of their
    accounts, and every path but that of the key probe names the project of its role. -/
theorem broker_role_isolation (policy : BrokerPolicy) (admin : String) (rs : List BrokerRequest)
    (q : BrokerRequest) :
    (∃ new, (Broker.serveAll policy admin .empty (rs ++ [q])).log =
        new ++ (Broker.serveAll policy admin .empty rs).log ∧
      ∀ e ∈ new, Isolated policy admin (rs ++ [q]) q.uid e) ∧
    ∀ lease key, (Broker.handle policy admin q.uid q.message).result q.script
        (Broker.serveAll policy admin .empty rs) = .ok (.key lease key) →
      Isolated policy admin (rs ++ [q]) q.uid (.gave lease key) := by
  have hissued : ∀ lease r, ((Broker.serveAll policy admin .empty rs).serve policy admin q).records
      lease = some r → IssuedBy policy admin (rs ++ [q]) lease r.role := by
    intro lease r hr
    apply issued_of_record
    rw [serveAll_snoc]
    exact hr
  constructor
  · rw [serveAll_snoc]
    rcases serve_serves (serveAll_owned rs) q with
      h | ⟨role, project, huid, hproject, ⟨c, h, hget, hpath⟩ | ⟨lease, operation, hasks, h⟩⟩
    · exact ⟨[], by rw [h]; rfl, by simp⟩
    · refine ⟨[.called c], by rw [h]; rfl, ?_⟩
      intro e he
      rw [List.mem_singleton.mp he]
      exact ⟨role, project, peerRole_eq huid, hproject, .inr (.inl hpath),
        fun hd => by rw [hget] at hd; cases hd⟩
    · obtain ⟨new, hlog, hnew⟩ := h.events
      refine ⟨new, hlog, ?_⟩
      intro e he
      have hperm := hnew e he
      cases e with
      | called c =>
        refine ⟨role, project, peerRole_eq huid, hproject, ?_⟩
        rcases hperm with ⟨hno, hpath⟩ | ⟨r, id, hr, hid, hd⟩
        · exact ⟨hpath.symm.imp id .inl, fun hd => absurd hd hno⟩
        · refine ⟨.inr (.inr ⟨id, hd.2⟩), fun _ => ⟨lease, r, id, ?_, hid, hd, ?_⟩⟩
          · rw [serveAll_snoc]; exact hr
          · rw [← h.named r hr]; exact hissued lease r hr
      | recorded l r =>
        show policy.peerRole q.uid = some r.role
        rw [hperm.2]
        exact peerRole_eq huid
      | gave l key =>
        obtain ⟨rfl, hkey, hrec⟩ := hperm
        obtain ⟨r, hr⟩ := Option.ne_none_iff_exists'.mp hrec
        refine ⟨role, peerRole_eq huid, hkey, ?_⟩
        rw [← h.named r hr]
        exact hissued l r hr
  · intro lease key hresult
    obtain ⟨hkey, r, hr, huid⟩ :=
      ((handle_serves (serveAll_owned rs) q).returned rfl hresult).2 lease key rfl
    exact ⟨r.role, peerRole_eq huid, hkey, hissued lease r hr⟩

/-- Ten answers of a provider that does as it is asked. -/
def obliging : List Moment := List.replicate 10 { provider := provider { status := 401 } }

/-- The rule at work: the key of an issued lease. -/
theorem broker_role_isolation_issued :
    Isolated testPolicy "sk-admin" [testRequest "issue" obliging] 1000
      (.gave testLease ⟨accountName testLease, "sk-1"⟩) :=
  (broker_role_isolation testPolicy "sk-admin" [] (testRequest "issue" obliging)).2
    testLease ⟨accountName testLease, "sk-1"⟩ (by decide)

theorem accountsPath_head (project : String) :
    (accountsPath project).toList.head? = some 'o' := by
  have h : ("organization/projects/" : String).toList = 'o' :: "rganization/projects/".toList := by
    decide
  unfold accountsPath
  rw [String.append_assoc, String.toList_append, h, List.cons_append, List.head?_cons]

theorem models_not_inProject {c : Call} (hp : c.path = "models") (project : String) :
    ¬ c.inProject project := by
  have hm : c.path.toList.head? = some 'm' := by rw [hp]; decide
  have ho : ∀ rest, c.path = accountsPath project ++ rest → c.path.toList.head? = some 'o' := by
    intro rest h
    rw [h, String.toList_append, List.head?_append, accountsPath_head]
    rfl
  intro h
  rcases h with h | ⟨id, h⟩
  · rw [ho "" (by rw [h, String.append_empty])] at hm
    cases hm
  · rw [ho ("/" ++ id) (by rw [h, String.append_assoc])] at hm
    cases hm

def BrokerEvent.isModels : BrokerEvent → Bool
  | .called c => c.path = "models"
  | _ => false

/-- Revoking a lease uses a path that names no project at all. -/
theorem probe_names_no_project : ∃ c,
    .called c ∈ (issueThenRevoke { status := 401 }).log ∧ ∀ project, ¬ c.inProject project := by
  have hany : (issueThenRevoke { status := 401 }).log.any BrokerEvent.isModels = true := by decide
  obtain ⟨e, he, hmodels⟩ := List.any_eq_true.mp hany
  cases e with
  | called c => exact ⟨c, he, models_not_inProject (by simpa [BrokerEvent.isModels] using hmodels)⟩
  | recorded l r => simp [BrokerEvent.isModels] at hmodels
  | gave l k => simp [BrokerEvent.isModels] at hmodels

end Runs

end Hermes

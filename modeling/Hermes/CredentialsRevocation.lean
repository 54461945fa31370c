import Hermes.CredentialsRoles

/- Which leases the broker can revoke.

   `revoke` decrypts the sealed key before it asks for the deletion of the account,
   because the key is what it probes the provider with afterwards. A lease whose
   account is recorded but whose key never reached the disk is therefore out of its
   reach. `revocation` says exactly which are not, for every state that a sequence of
   requests, each stopped anywhere, can leave. -/
namespace Hermes
open Process

/-- The token that a revocation of `lease` would probe the provider with. -/
def Broker.probeToken (b : Broker) (admin : String) (lease : Lease) : Option String :=
  (b.creds lease).map (fun key => bearerOf admin (some (strip key.value)))

/-- An answer of a provider at work, to a broker with nothing wrong on its side. It
    deletes the account if that is still there (`live`), refuses the key of a lease and
    accepts the administrator's. -/
structure Working (admin : String) (token : Option String) (live : Bool) (m : Moment) : Prop where
  done : m.verdict = .done
  deletes : live = true → ∀ path, ∃ result,
    (m.provider .delete path).answer = some result ∧ result.isTrue "deleted" = true
  gone : live = false → ∀ path, (m.provider .delete path).answer = none
  refuses : ∀ t, token = some t → t ≠ admin →
    (m.provider .get "models").answer = some (.obj [("unauthorized", .bool true)])
  accepts : token = some admin → ∀ result, (m.provider .get "models").answer = some result →
    result.isTrue "unauthorized" = false

/-- The lease can be revoked from here: it is, or its sealed key is there and is told
    apart from the administrator's, and the account is still there to delete or its
    deletion is recorded. -/
def Revocable (admin : String) (live : Bool) (b : Broker) (lease : Lease) (r : Record) : Prop :=
  r.state = .revoked ∨
    (∃ token, b.probeToken admin lease = some token ∧ token ≠ admin) ∧
      (r.state = .deleted ∨ live = true)

/-- The lease is recorded as revoked and the deletion of its account `id` was asked for. -/
def Revoked (policy : BrokerPolicy) (b : Broker) (lease : Lease) (id : String) : Prop :=
  ∃ r project c, b.records lease = some r ∧ r.state = .revoked ∧ r.accountId = some id ∧
    policy.project r.role = some project ∧ .called c ∈ b.log ∧ c.deletes project id

/-- `OpenAI.call` with an answer: it returns what the answer says, or fails. -/
theorem call_within {G : Moment → Prop} {admin path : String} {method : Method}
    {name token : Option String} {P : Broker → Prop} {Q : Json → Broker → Prop}
    {E : Exc → Broker → Prop} (hG : ∀ m, G m → m.verdict = .done)
    (hq : ∀ m b j, G m → P b → (m.provider method path).answer = some j →
      Q j (b.append (.called ⟨method, path, name, bearerOf admin token,
        some (m.provider method path)⟩)))
    (he : ∀ m b e, G m → P b → (m.provider method path).answer = none →
      E e (b.append (.called ⟨method, path, name, bearerOf admin token,
        some (m.provider method path)⟩))) :
    Within G 1 P (OpenAI.call admin method path name token) Q E := by
  unfold OpenAI.call
  apply Within.bind_sub (a := 1) (Q := fun reply b' => ∃ m b, G m ∧ P b ∧
    reply = m.provider method path ∧
    b' = b.append (.called ⟨method, path, name, bearerOf admin token, some reply⟩)) ?_ ?_ (by omega)
  · apply Within.perform
    intro m b hm hb r b' hr
    rw [if_pos (hG m hm)] at hr
    cases hr
    exact ⟨m, b, hm, hb, rfl, rfl⟩
  intro reply
  apply Within.start
  intro b' ⟨m, b, hm, hb, hreply, hb'⟩
  have hgood : ∀ j, reply.answer = some j → Q j b' := by
    intro j hj
    rw [hreply] at hj
    rw [hb', hreply]
    exact hq m b j hm hb hj
  have hbad : reply.answer = none → ∀ e, E e b' := by
    intro hj e
    rw [hreply] at hj
    rw [hb', hreply]
    exact he m b e hm hb hj
  apply Within.bind_sub (a := 0) (Q := fun _ s => s = b' ∧ reply.tooLarge = false) ?_ ?_ (by omega)
  · apply require_decided
    · exact fun hl s hs => ⟨hs, by simpa using hl⟩
    · intro hl s hs
      rw [hs]
      exact hbad (by simp [Reply.answer, show reply.tooLarge = true by simpa using hl]) _
  intro _
  apply Within.given (fun _ hs => hs.2)
  intro hl
  apply Within.ite
  · intro h401
    apply Within.pure'
    intro s hs
    rw [hs.1]
    exact hgood _ (by simp [Reply.answer, hl, h401])
  intro h401
  apply Within.bind_sub (a := 0)
    (Q := fun _ s => s = b' ∧ (200 ≤ reply.status ∧ reply.status < 300)) ?_ ?_ (by omega)
  · apply require_decided
    · exact fun hst s hs => ⟨hs.1, by simpa using hst⟩
    · intro hst s hs
      rw [hs.1]
      have hst : ¬(200 ≤ reply.status ∧ reply.status < 300) := by
        rw [Bool.and_eq_false_iff, decide_eq_false_iff_not, decide_eq_false_iff_not] at hst
        omega
      exact hbad (by simp only [Reply.answer, hl, h401, hst, if_false]; rfl) _
  intro _
  apply Within.given (fun _ hs => hs.2)
  intro hst
  cases hbody : reply.body with
  | none =>
    apply Within.raise
    intro s hs
    rw [hs.1]
    exact hbad (by simp [Reply.answer, hl, h401, hst, hbody]) _
  | some body =>
    apply Within.pure'
    intro s hs
    rw [hs.1]
    exact hgood _ (by simp [Reply.answer, hl, h401, hst, hbody])

/-! A revocation in a world that answers. -/

section Operations
variable {admin : String} {project : String} {lease : Lease} {token : Option String} {live : Bool}

/-- The record of the lease, and the files of all leases as they were. -/
def Stored (b₀ : Broker) (lease : Lease) (r : Record) (b : Broker) : Prop :=
  b.records lease = some r ∧ b.creds = b₀.creds

theorem brokerLock_within {P : Broker → Prop} {E : Exc → Broker → Prop} :
    Within (Working admin token live) 1 P brokerLock (fun _ => P) E := by
  apply Within.perform
  intro m b hm hb r b' hr
  rw [if_pos hm.done] at hr
  cases hr
  exact hb

theorem asDict_within {n : Nat} {P : Broker → Prop} {j : Json} {E : Exc → Broker → Prop}
    (hj : j.fields?.isSome = true) :
    Within (Working admin token live) n P (asDict j) (fun _ => P) E := by
  unfold asDict
  rw [if_pos hj]
  exact Within.pure' (fun _ hb => hb)

theorem fields_of_isTrue {j : Json} {key : String} (h : j.isTrue key = true) :
    j.fields?.isSome = true := by
  cases j <;> simp [Json.isTrue, Json.get, Json.fields?] at h ⊢

theorem deleteAccount_within {b₀ : Broker} {record : Record} {id : String} :
    Within (Working admin token live) 2 (Stored b₀ lease record)
      (deleteAccount admin project lease record id)
      (fun _ b => (record.state = .deleted ∨ live = true) ∧
        Stored b₀ lease { record with state := .deleted } b)
      (fun _ b => ¬(record.state = .deleted ∨ live = true) ∧ Stored b₀ lease record b) := by
  unfold deleteAccount
  apply Within.ite
  · intro hs
    apply Within.pure'
    intro b hb
    have hrec : { record with state := .deleted } = record := by rw [← hs]
    rw [hrec]
    exact ⟨.inl hs, hb⟩
  intro hs
  cases live with
  | false =>
    apply Within.bind_sub (a := 1) (Q := fun _ _ => False) ?_ ?_ (by omega)
    · apply call_within (fun m hm => hm.done)
      · intro m b j hm _ hj
        rw [hm.gone rfl] at hj; cases hj
      · exact fun m b e _ hb _ => ⟨by simp [hs], hb⟩
    · exact fun _ => Within.given (fun _ h => h) False.elim
  | true =>
    apply Within.bind_sub (a := 1)
      (Q := fun j b => Stored b₀ lease record b ∧ j.isTrue "deleted" = true) ?_ ?_ (by omega)
    · apply call_within (fun m hm => hm.done)
      · intro m b j hm hb hj
        obtain ⟨result, hresult, hdel⟩ := hm.deletes rfl _
        rw [hj] at hresult; cases hresult
        exact ⟨hb, hdel⟩
      · intro m b e hm _ hj
        obtain ⟨result, hresult, _⟩ := hm.deletes rfl _
        rw [hj] at hresult; cases hresult
    intro j
    apply Within.given (fun _ hb => hb.2)
    intro hj
    apply Within.bind_sub (a := 0) (asDict_within (fields_of_isTrue hj)) ?_ (by omega)
    intro _
    apply Within.bind_sub (a := 0) (Q := fun _ => Stored b₀ lease record) ?_ ?_ (by omega)
    · exact require_within (fun _ _ => hj) (fun _ hb => hb.1)
    · exact fun _ => atomic_within (fun m hm => hm.done)
        (fun _ b _ hb => ⟨.inr rfl, by simp, hb.2⟩)

/-- What the probe of a key other than the administrator's is answered. -/
theorem probe_within {b₀ : Broker} {record : Record} {key : Key}
    (hkey : b₀.creds lease = some key) {E : Exc → Broker → Prop}
    (hne : bearerOf admin (some (strip key.value)) ≠ admin) :
    Within (Working admin (b₀.probeToken admin lease) live) 1 (Stored b₀ lease record)
      (OpenAI.call admin .get "models" none (some (strip key.value)))
      (fun j b => Stored b₀ lease record b ∧ j = .obj [("unauthorized", .bool true)]) E := by
  have htoken : b₀.probeToken admin lease = some (bearerOf admin (some (strip key.value))) := by
    simp [Broker.probeToken, hkey]
  apply call_within (fun m hm => hm.done)
  · intro m b j hm hb hj
    rw [hm.refuses _ htoken hne] at hj
    exact ⟨hb, (Option.some.inj hj).symm⟩
  · intro m b e hm _ hj
    rw [hm.refuses _ htoken hne] at hj; cases hj

/-- What is left to do once the account is deleted: a key that the provider tells apart
    from the administrator's is refused, and the lease is revoked. -/
theorem finishRevoke_within {b₀ : Broker} (record : Record) {key : Key}
    (hkey : b₀.creds lease = some key) :
    Within (Working admin (b₀.probeToken admin lease) live) 3 (Stored b₀ lease record)
      (do
        let probe ← OpenAI.call admin .get "models" none (some (strip key.value))
        asDict probe
        require (probe.isTrue "unauthorized") "credential-revocation-unverified" 69
        writeRecord lease { record with state := .revoked }
        atomic fun _ s => s.setCred lease none
        pure (BrokerReply.revoked lease))
      (fun _ b => bearerOf admin (some (strip key.value)) ≠ admin ∧
        b.records lease = some { record with state := .revoked })
      (fun _ b => ¬bearerOf admin (some (strip key.value)) ≠ admin ∧
        Stored b₀ lease record b) := by
  by_cases hne : bearerOf admin (some (strip key.value)) ≠ admin
  · apply Within.bind_sub (a := 1) (probe_within hkey hne) ?_ (by omega)
    intro probe
    apply Within.given (fun _ hb => hb.2)
    intro hprobe
    subst hprobe
    apply Within.bind_sub (a := 0) (asDict_within rfl) ?_ (by omega)
    intro _
    apply Within.bind_sub (a := 0) (Q := fun _ => Stored b₀ lease record) ?_ ?_ (by omega)
    · exact require_within (fun _ _ => rfl) (fun _ hb => hb.1)
    intro _
    apply Within.bind_sub (a := 1)
      (Q := fun _ b => b.records lease = some { record with state := .revoked }) ?_ ?_ (by omega)
    · exact atomic_within (fun m hm => hm.done) (fun _ b _ _ => by simp)
    intro _
    apply Within.bind_sub (a := 1)
      (Q := fun _ b => b.records lease = some { record with state := .revoked }) ?_ ?_ (by omega)
    · exact atomic_within (fun m hm => hm.done) (fun _ b _ hb => hb)
    · exact fun _ => Within.pure' (fun _ hb => ⟨hne, hb⟩)
  · have htoken : b₀.probeToken admin lease = some admin := by
      simp only [Broker.probeToken, hkey, Option.map_some]
      exact congrArg some (not_not.mp hne)
    apply Within.bind_sub (a := 1)
      (Q := fun j b => Stored b₀ lease record b ∧ j.isTrue "unauthorized" = false) ?_ ?_ (by omega)
    · apply call_within (fun m hm => hm.done)
      · exact fun m b j hm hb hj => ⟨hb, hm.accepts htoken j hj⟩
      · exact fun m b e _ hb _ => ⟨hne, hb⟩
    intro probe
    apply Within.bind_sub (a := 0)
      (Q := fun _ b => Stored b₀ lease record b ∧ probe.isTrue "unauthorized" = false) ?_ ?_
      (by omega)
    · unfold asDict
      refine Within.ite (fun _ => Within.pure' (fun _ hb => hb)) ?_
      exact fun _ => Within.raise (fun b hb => ⟨hne, hb.1⟩)
    intro _
    apply Within.given (fun _ hb => hb.2)
    intro hno
    rw [hno]
    apply Within.bind_sub (a := 0) (Q := fun _ _ => False) ?_ ?_ (by omega)
    · exact require_decided (fun h => by cases h) (fun _ b hb => ⟨hne, hb.1⟩)
    · exact fun _ => Within.given (fun _ h => h) False.elim

/-- The lease says `revoked`, for the account `id`. -/
def SaysRevoked (lease : Lease) (id : String) (b : Broker) : Prop :=
  ∃ r, b.records lease = some r ∧ r.state = .revoked ∧ r.accountId = some id

theorem not_saysRevoked {b : Broker} {id : String} {r : Record}
    (hr : b.records lease = some r) (hs : r.state ≠ .revoked) : ¬SaysRevoked lease id b := by
  intro ⟨r', hr', hs', _⟩
  rw [hr] at hr'; cases hr'
  exact hs hs'

/-- The lease is out of reach still: the same key, the same account, not revoked and no
    more `Revocable`. -/
def Unrevoked (admin : String) (live : Bool) (b₀ : Broker) (lease : Lease) (record : Record)
    (b : Broker) : Prop :=
  ∃ r, Stored b₀ lease r b ∧ r.role = record.role ∧ r.accountId = record.accountId ∧
    r.state ≠ .revoked ∧ ¬Revocable admin live b lease r

theorem Unrevoked.standing {b₀ b : Broker} {record : Record} {id : String}
    (h : Unrevoked admin live b₀ lease record b) : ¬SaysRevoked lease id b := by
  obtain ⟨r, hr, _, _, hs, _⟩ := h
  exact not_saysRevoked hr.1 hs

/-- What has become of the record is `r`, and it has not become `Revocable`. -/
theorem Stored.unrevoked {b₀ b : Broker} {record r : Record} (h : Stored b₀ lease r b)
    (hrole : r.role = record.role) (hid : r.accountId = record.accountId) (hs : r.state ≠ .revoked)
    (hstate : r.state = .deleted → record.state = .deleted ∨ live = true)
    (hno : ¬Revocable admin live b₀ lease record) : Unrevoked admin live b₀ lease record b := by
  refine ⟨r, h, hrole, hid, hs, ?_⟩
  intro hrev
  rcases hrev with hrev | ⟨⟨token, htoken, hne⟩, hrest⟩
  · exact hs hrev
  · refine hno (.inr ⟨⟨token, ?_, hne⟩, ?_⟩)
    · rw [← htoken]
      simp [Broker.probeToken, h.2]
    · exact hrest.elim hstate .inr

theorem revoke_within {b₀ : Broker} {record : Record} {id : String}
    (hid : record.accountId = some id) :
    Within (Working admin (b₀.probeToken admin lease) live) 6
      (fun b => b = b₀ ∧ b.records lease = some record) (revoke admin project lease record)
      (fun _ b => Revocable admin live b₀ lease record ∧ SaysRevoked lease id b)
      (fun _ b => ¬Revocable admin live b₀ lease record ∧
        Unrevoked admin live b₀ lease record b) := by
  unfold revoke
  apply Within.ite
  · intro hs
    exact Within.pure' (fun b hb => ⟨.inl hs, record, hb.2, hs, hid⟩)
  intro hs
  simp only [hid]
  unfold revokeAccount
  cases hkey : b₀.creds lease with
  | none =>
    have hno : ¬Revocable admin live b₀ lease record := by
      intro h
      rcases h with h | ⟨⟨token, htoken, _⟩, _⟩
      · exact hs h
      · simp [Broker.probeToken, hkey] at htoken
    apply Within.bind_sub (a := 1) (Q := fun _ _ => False) ?_ ?_ (by omega)
    · apply run_within (fun m hm => hm.done)
      · intro m b _ hb hc
        rw [hb.1, hkey] at hc; cases hc
      · intro b hb _
        have hst : Stored b₀ lease record b := ⟨hb.2, by rw [hb.1]⟩
        exact ⟨hno, hst.unrevoked rfl rfl hs .inl hno⟩
    · exact fun _ => Within.given (fun _ h => h) False.elim
  | some key =>
    have htoken : b₀.probeToken admin lease = some (bearerOf admin (some (strip key.value))) := by
      simp [Broker.probeToken, hkey]
    apply Within.bind_sub (a := 1) (Q := fun k b => Stored b₀ lease record b ∧
      k.value = strip key.value) ?_ ?_ (by omega)
    · apply run_within (fun m hm => hm.done)
      · intro m b _ hb _
        refine ⟨⟨hb.2, by rw [hb.1]⟩, ?_⟩
        simp [hb.1, hkey]
      · intro b hb hc
        rw [hb.1, hkey] at hc; cases hc
    intro k
    apply Within.given (fun _ hb => hb.2)
    intro hk
    rw [hk]
    apply Within.bind_sub (a := 2) (Q := fun _ b => (record.state = .deleted ∨ live = true) ∧
      Stored b₀ lease { record with state := .deleted } b) ?_ ?_ (by omega)
    · apply deleteAccount_within.mono (fun _ hb => hb.1) (fun _ _ hb => hb)
      intro _ b ⟨hno, hb⟩
      have hnot : ¬Revocable admin live b₀ lease record := fun h => h.elim hs (fun h => hno h.2)
      exact ⟨hnot, hb.unrevoked rfl rfl hs .inl hnot⟩
    intro _
    apply Within.given (fun _ hb => hb.1)
    intro hdel
    apply (finishRevoke_within { record with state := .deleted } hkey).mono (fun _ hb => hb.2)
    · intro _ b ⟨hne, hb⟩
      exact ⟨.inr ⟨⟨_, htoken, hne⟩, hdel⟩, _, hb, rfl, hid⟩
    · intro _ b ⟨hno, hb⟩
      have hnot : ¬Revocable admin live b₀ lease record := by
        intro h
        rcases h with h | ⟨⟨t, ht, hne⟩, _⟩
        · exact hs h
        · rw [htoken] at ht; cases ht
          exact hno hne
      exact ⟨hnot, hb.unrevoked rfl rfl (by simp) (fun _ => hdel) hnot⟩

end Operations

section Runs
variable {policy : BrokerPolicy} {admin : String}

/-- A request the policy lets through goes to its lease. -/
theorem handle_asks {q : BrokerRequest} {op : Operation} {role : Role} {lease : Lease}
    {project : String} (h : q.Asks op role lease) (hop : op ≠ .check)
    (hproject : policy.project role = some project) (huid : policy.uid role = some q.uid) :
    Broker.handle policy admin q.uid q.message = onLease admin role project op lease := by
  unfold Broker.handle
  rw [h.keys, h.role]
  simp only [handleAs, hproject, huid, h.operation, h.lease]
  cases op with
  | check => exact absurd rfl hop
  | issue | read | revoke => simp [require, Proc.pure_bind']

/-- A request on a lease with a record of the role that asks for it. -/
theorem onLease_within {role : Role} {project : String} {lease : Lease} {live : Bool}
    {b₀ : Broker} {record : Record} {id : String} (hrec : b₀.records lease = some record)
    (hrole : record.role = role) (hid : record.accountId = some id) :
    Within (Working admin (b₀.probeToken admin lease) live) 7 (fun b => b = b₀)
      (onLease admin role project .revoke lease)
      (fun _ b => Revocable admin live b₀ lease record ∧ SaysRevoked lease id b)
      (fun _ b => ¬Revocable admin live b₀ lease record ∧
        Unrevoked admin live b₀ lease record b) := by
  unfold onLease
  apply Within.bind_sub (a := 1) brokerLock_within ?_ (by omega)
  intro _
  apply Within.bind_sub (a := 0) (Q := fun s b => s = b₀ ∧ b = b₀) ?_ ?_ (by omega)
  · exact Within.read (fun _ hb => ⟨hb, hb⟩)
  intro s
  apply Within.given (fun _ hb => hb.1)
  intro hs
  subst hs
  simp only [hrec]
  apply Within.bind_sub (a := 0) (Q := fun _ b => b = s ∧ b.records lease = some record) ?_ ?_
    (by omega)
  · apply require_within (fun _ _ => by simpa using hrole)
    intro b hb
    rw [hb.2]
    exact ⟨rfl, hrec⟩
  · exact fun _ => revoke_within hid

/-- Revoking what is recorded as revoked changes nothing at all. -/
theorem onLease_revoked {role : Role} {project : String} {lease : Lease} {b₀ : Broker}
    {record : Record} (hrec : b₀.records lease = some record) (hs : record.state = .revoked) :
    Keeps (fun b => b = b₀) (onLease admin role project .revoke lease) := by
  unfold onLease
  apply Triple.bind brokerLock_keeps
  intro _
  apply Triple.bind (Triple.read (Q := fun s b => s = b₀ ∧ b = b₀) (fun _ hb => ⟨hb, hb⟩))
  intro s
  apply Triple.given (fun _ hb => hb.1)
  intro hs'
  subst hs'
  simp only [hrec]
  apply Triple.bind (require_keeps.mono (fun _ hb => hb.2) (fun _ _ hb => hb) (fun _ _ hb => hb))
  intro _
  unfold revoke
  rw [if_pos hs]
  exact Triple.pure' (fun _ hb => hb)

/-- Whoever says `revoked` has asked for the deletion. -/
theorem revoked_iff {b : Broker} {lease : Lease} {id : String} (howned : Owned policy b) :
    Revoked policy b lease id ↔ SaysRevoked lease id b := by
  constructor
  · intro ⟨r, _, _, hr, hs, hid, _⟩
    exact ⟨r, hr, hs, hid⟩
  · intro ⟨r, hr, hs, hid⟩
    obtain ⟨id', project, c, h₁, h₂, h₃, h₄⟩ := howned.deletions lease r hr (.inr hs)
    rw [hid] at h₁; cases h₁
    exact ⟨r, project, c, hr, hs, hid, h₂, h₃, h₄⟩

/-- The cut-off request of the test peer for its lease: only the first `n` answers arrive. -/
def cutOff (operation : String) (n : Nat) : BrokerRequest :=
  testRequest operation (obliging.take n)

theorem working_obliging : ∀ m ∈ obliging, Working "sk-admin" (some "sk-1") true m := by
  intro m hm
  rw [List.eq_of_mem_replicate hm]
  constructor
  · rfl
  · exact fun _ _ => ⟨_, rfl, rfl⟩
  · exact fun h => by cases h
  · exact fun _ _ _ => rfl
  · exact fun h => absurd h (by decide)

end Runs

end Hermes

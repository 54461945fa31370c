import Hermes.CredentialsLifecycle

/- The accounts that the provider holds for a lease. Every creation request whose answer
   named an account is on record: the record of its lease names that account, or
   none yet; and a record that says `deleted` or `revoked` names an account whose
   deletion the provider confirmed. -/
namespace Hermes
open Process

/-- The answer of `c` names the account `id`. -/
def Call.names (c : Call) (id : String) : Prop :=
  ∃ result, c.answer = some result ∧ accountIdOf result = some id

structure Traced (b : Broker) : Prop where
  created : ∀ c lease, .called c ∈ b.log → c.creates lease → ∃ r, b.records lease = some r ∧
    ∀ id, c.names id → r.accountId = none ∨ r.accountId = some id
  deleted : ∀ lease r, b.records lease = some r → r.state = .deleted ∨ r.state = .revoked →
    ∃ id c, r.accountId = some id ∧ .called c ∈ b.log ∧ c.confirmed id

theorem traced_empty : Traced Broker.empty where
  created := by intro c lease hc; simp [Broker.empty] at hc
  deleted := by intro lease r hr; simp [Broker.empty] at hr

namespace Traced
variable {b : Broker} {lease : Lease} {r r₀ : Record}

/-- An event other than a creation. -/
theorem append (h : Traced b) {e : BrokerEvent} (he : ∀ c, e = .called c → c.method ≠ .post) :
    Traced (b.append e) where
  created := by
    intro c l hc hcl
    cases List.mem_cons.mp hc with
    | inl heq => exact absurd hcl.1 (he c heq.symm)
    | inr hc => exact h.created c l hc hcl
  deleted := by
    intro l r hr hs
    obtain ⟨id, c, hid, hc, hconf⟩ := h.deleted l r hr hs
    exact ⟨id, c, hid, List.mem_cons_of_mem _ hc, hconf⟩

theorem called (h : Traced b) {c : Call} (hc : c.method ≠ .post) : Traced (b.append (.called c)) :=
  h.append (fun c' hc' => by cases hc'; exact hc)

theorem setCred (h : Traced b) (key : Option Key) : Traced (b.setCred lease key) :=
  ⟨h.created, h.deleted⟩

/-- A record that agrees with the answers of all creations of its lease. -/
theorem record (h : Traced b)
    (hc : ∀ c, .called c ∈ b.log → c.creates lease → ∀ id, c.names id →
      r.accountId = none ∨ r.accountId = some id)
    (hd : r.state = .deleted ∨ r.state = .revoked →
      ∃ id c, r.accountId = some id ∧ .called c ∈ b.log ∧ c.confirmed id) :
    Traced (b.record lease r) where
  created := by
    intro c l hm hcl
    have hlog : .called c ∈ b.log := by simpa using hm
    by_cases hl : l = lease
    · subst hl
      exact ⟨r, by simp, hc c hlog hcl⟩
    · rw [record_other _ _ _ _ hl]
      exact h.created c l hlog hcl
  deleted := by
    intro l r' hr' hs
    by_cases hl : l = lease
    · subst hl
      rw [record_same] at hr'
      cases hr'
      obtain ⟨id, c, hid, hm, hconf⟩ := hd hs
      exact ⟨id, c, hid, by simp [hm], hconf⟩
    · rw [record_other _ _ _ _ hl] at hr'
      obtain ⟨id, c, hid, hm, hconf⟩ := h.deleted l r' hr' hs
      exact ⟨id, c, hid, by simp [hm], hconf⟩

/-- A record of the same account as before. -/
theorem rewrite (h : Traced b) (hr : b.records lease = some r₀) (ha : r.accountId = r₀.accountId)
    (hd : r.state = .deleted ∨ r.state = .revoked →
      ∃ id c, r.accountId = some id ∧ .called c ∈ b.log ∧ c.confirmed id) :
    Traced (b.record lease r) := by
  refine h.record ?_ hd
  intro c hc hcl id hid
  obtain ⟨r₁, hr₁, hall⟩ := h.created c lease hc hcl
  rw [hr] at hr₁
  cases hr₁
  rw [ha]
  exact hall id hid

/-- Every account of a lease that is recorded as revoked was deleted. -/
theorem revoked (h : Traced b) (hr : b.records lease = some r) (hs : r.state = .revoked) :
    ∀ c id, .called c ∈ b.log → c.creates lease → c.names id →
      ∃ d, .called d ∈ b.log ∧ d.confirmed id := by
  intro c id hc hcl hid
  obtain ⟨id', d, hid', hd, hconf⟩ := h.deleted lease r hr (.inr hs)
  obtain ⟨r₁, hr₁, hall⟩ := h.created c lease hc hcl
  rw [hr] at hr₁
  cases hr₁
  cases hall id hid with
  | inl hn => rw [hn] at hid'; cases hid'
  | inr hsome =>
    rw [hsome] at hid'
    cases hid'
    exact ⟨d, hd, hconf⟩

end Traced

section Operations
variable {admin : String} {role : Role} {project : String} {lease : Lease}

theorem giveKey_traced {key : Key} : Keeps Traced (giveKey lease key) := by
  unfold giveKey
  refine Triple.bind (Q := fun _ => Traced) (Triple.update ?_) (fun _ => Triple.pure' (fun _ h => h))
  exact fun b hb => hb.append (fun c hc => by cases hc)

/-- The creations of `lease` are all answered with `j`. -/
def AnsweredWith (lease : Lease) (j : Json) (b : Broker) : Prop :=
  ∀ c, .called c ∈ b.log → c.creates lease → ∀ result, c.answer = some result → result = j

theorem createAccount_traced :
    Triple (fun b => Traced b ∧ b.records lease = none) (createAccount admin role project lease)
      (fun _ => Traced) (fun _ => Traced) := by
  unfold createAccount
  refine Triple.bind (instant_triple (Q := fun _ b => Traced b ∧ b.records lease = none)
    (fun _ _ h => h) (fun _ _ hb => hb.1)) (fun now => ?_)
  have hunsent : ∀ b, Traced b ∧ b.records lease = none →
      ∀ c, .called c ∈ b.log → ¬c.creates lease := by
    intro b hb c hc hcl
    obtain ⟨r, hr, _⟩ := hb.1.created c lease hc hcl
    rw [hb.2] at hr
    cases hr
  have hfirst : ∀ b, Traced b ∧ b.records lease = none →
      Traced (b.record lease ⟨role, .issuing, accountName lease, now.now, none⟩) :=
    fun b hb => hb.1.record (fun _ _ _ _ _ => .inl rfl) (by simp)
  refine Triple.bind (atomic_triple (Q := fun _ b => Traced b ∧
      b.records lease = some ⟨role, .issuing, accountName lease, now.now, none⟩ ∧
      ∀ c, .called c ∈ b.log → ¬c.creates lease) ?_ (fun _ _ hb => hb.1)
    (fun _ _ b hb => hfirst b hb)) (fun _ => ?_)
  · exact fun _ b hb => ⟨hfirst b hb, by simp, fun c hc => hunsent b hb c (by simpa using hc)⟩
  -- the creation: its answer is the only one
  have hposted : ∀ b c, (Traced b ∧
      b.records lease = some ⟨role, .issuing, accountName lease, now.now, none⟩ ∧
      ∀ c, .called c ∈ b.log → ¬c.creates lease) → c.method = .post →
      c.name = some (accountName lease) → Traced (b.append (.called c)) := by
    rintro b c ⟨hb, hr, _⟩ hm hname
    refine ⟨?_, ?_⟩
    · intro c' l hc' hcl
      cases List.mem_cons.mp hc' with
      | inr hc' => exact hb.created c' l hc' hcl
      | inl heq =>
        cases heq
        have hl : l = lease := by simpa [accountName] using hcl.2.symm.trans hname
        subst hl
        exact ⟨_, hr, fun _ _ => .inl rfl⟩
    · intro l r hr' hs
      obtain ⟨id, d, hid, hd, hconf⟩ := hb.deleted l r hr' hs
      exact ⟨id, d, hid, List.mem_cons_of_mem _ hd, hconf⟩
  refine Triple.bind (call_triple (Q := fun j b => Traced b ∧
      b.records lease = some ⟨role, .issuing, accountName lease, now.now, none⟩ ∧
      AnsweredWith lease j b) ?_ (fun _ b hb => hb.1) ?_) (fun j => ?_)
  · intro b c j hb hm _ hname _ hans
    refine ⟨hposted b c hb hm hname, hb.2.1, ?_⟩
    intro c' hc' hcl result hres
    cases List.mem_cons.mp hc' with
    | inl heq =>
      cases heq
      rw [hans] at hres
      exact (Option.some.inj hres).symm
    | inr hc' => exact absurd hcl (hb.2.2 c' hc')
  · exact fun _ b c hb hm _ hname => hposted b c hb hm hname
  refine Triple.bind (asDict_keeps.mono (fun _ h => h) (fun _ _ h => h) (fun _ b hb => hb.1))
    (fun _ => ?_)
  cases hid : accountIdOf j with
  | none => exact Triple.raise (fun b hb => hb.1)
  | some id =>
    have hnamed : ∀ b, (Traced b ∧
        b.records lease = some ⟨role, .issuing, accountName lease, now.now, none⟩ ∧
        AnsweredWith lease j b) →
        Traced (b.record lease ⟨role, .issuing, accountName lease, now.now, some id⟩) := by
      rintro b ⟨hb, _, hans⟩
      refine hb.record ?_ (by simp)
      rintro c hc hcl id' ⟨result, hres, hid'⟩
      rw [hans c hc hcl result hres, hid] at hid'
      exact .inr hid'
    refine Triple.bind (atomic_triple (Q := fun _ b => Traced b ∧
        b.records lease = some ⟨role, .issuing, accountName lease, now.now, some id⟩)
      (fun _ b hb => ⟨hnamed b hb, by simp⟩) (fun _ _ hb => hb.1) (fun _ _ b hb => hnamed b hb))
      (fun _ => ?_)
    refine Triple.bind (keyField_triple.mono (fun _ h => h) (fun _ _ h => h.1)
      (fun _ b hb => hb.1)) (fun v => ?_)
    cases usableKey v with
    | none => exact Triple.raise (fun b hb => hb.1)
    | some value =>
      refine Triple.bind (Q := fun _ b => Traced b ∧
          b.records lease = some ⟨role, .issuing, accountName lease, now.now, some id⟩) ?_
        (fun _ => ?_)
      · refine Triple.bind (run_triple (Q := fun _ b => Traced b ∧
            b.records lease = some ⟨role, .issuing, accountName lease, now.now, some id⟩)
          (fun _ _ hb _ => hb) (fun _ b hb => hb.1) (fun _ _ b hb _ => hb.1)) (fun _ => ?_)
        exact atomic_triple (fun _ b hb => ⟨hb.1.setCred _, hb.2⟩) (fun _ b hb => hb.1)
          (fun _ _ b hb => hb.1.setCred _)
      have hready : ∀ b, (Traced b ∧
          b.records lease = some ⟨role, .issuing, accountName lease, now.now, some id⟩) →
          Traced (b.record lease ⟨role, .ready, accountName lease, now.now, some id⟩) :=
        fun b hb => hb.1.rewrite hb.2 rfl (by simp)
      refine Triple.bind (atomic_triple (Q := fun _ => Traced) (fun _ b hb => hready b hb)
        (fun _ b hb => hb.1) (fun _ _ b hb => hready b hb)) (fun _ => giveKey_traced)

theorem serveKey_traced {record : Record} {reason : String} :
    Keeps Traced (do
      require (record.state = .ready) reason 75
      let key ← openSecret lease
      giveKey lease key) := by
  refine Triple.bind require_keeps (fun _ => ?_)
  refine Triple.bind (openSecret_triple.mono (fun _ h => h) (fun _ _ h => h.1) (fun _ _ h => h))
    (fun key => giveKey_traced)

theorem deleteAccount_traced {record : Record} {id : String} (ha : record.accountId = some id) :
    Triple (fun b => Traced b ∧ b.records lease = some record)
      (deleteAccount admin project lease record id)
      (fun _ b => Traced b ∧ ∃ c, .called c ∈ b.log ∧ c.confirmed id ∧
        b.records lease = some { record with state := .deleted })
      (fun _ => Traced) := by
  unfold deleteAccount
  refine Triple.ite (fun h => Triple.pure' ?_) (fun h => ?_)
  · rintro b ⟨hb, hr⟩
    obtain ⟨id', c, hid', hc, hconf⟩ := hb.deleted lease record hr (.inl h)
    rw [ha] at hid'
    cases hid'
    refine ⟨hb, c, hc, hconf, ?_⟩
    rw [hr, ← h]
  refine Triple.bind (call_triple (Q := fun j b => Traced b ∧ b.records lease = some record ∧
      ∃ d, .called d ∈ b.log ∧ d.method = .delete ∧
        d.path = accountsPath project ++ "/" ++ id ∧ d.answer = some j)
    ?_ (fun _ b hb => hb.1) ?_) (fun j => ?_)
  · rintro b d j ⟨hb, hr⟩ hm hp _ _ hans
    exact ⟨hb.called (by rw [hm]; simp), hr, d, by simp, hm, hp, hans⟩
  · rintro _ b d ⟨hb, _⟩ hm _ _
    exact hb.called (by rw [hm]; simp)
  refine Triple.bind (asDict_keeps.mono (fun _ h => h) (fun _ _ h => h) (fun _ b hb => hb.1))
    (fun _ => ?_)
  refine Triple.bind (require_triple (Q := fun _ b => Traced b ∧ b.records lease = some record ∧
      ∃ d, .called d ∈ b.log ∧ d.confirmed id) ?_ (fun _ b hb => hb.1)) (fun _ => ?_)
  · rintro htrue b ⟨hb, hr, d, hd, hm, hp, hans⟩
    exact ⟨hb, hr, d, hd, hm, ⟨project, hp⟩, j, hans, htrue⟩
  have hw : ∀ b, (Traced b ∧ b.records lease = some record ∧
      ∃ d, .called d ∈ b.log ∧ d.confirmed id) →
      Traced (b.record lease { record with state := .deleted }) := by
    rintro b ⟨hb, hr, d, hd, hconf⟩
    exact hb.rewrite hr rfl (fun _ => ⟨id, d, ha, hd, hconf⟩)
  exact atomic_triple (fun _ b hb => ⟨hw b hb, hb.2.2.choose, by
    simpa using hb.2.2.choose_spec⟩) (fun _ b hb => hb.1) (fun _ _ b hb => hw b hb)

theorem revokeAccount_traced {record : Record} {id : String} (ha : record.accountId = some id) :
    Triple (fun b => Traced b ∧ b.records lease = some record)
      (revokeAccount admin project lease record id) (fun _ => Traced) (fun _ => Traced) := by
  unfold revokeAccount
  refine Triple.bind (openSecret_triple.mono (fun _ h => h) (fun _ _ h => h.1)
    (fun _ b hb => hb.1)) (fun key => ?_)
  refine Triple.bind (deleteAccount_traced ha) (fun _ => ?_)
  refine Triple.bind (call_triple (Q := fun _ b => Traced b ∧ ∃ c, .called c ∈ b.log ∧
      c.confirmed id ∧ b.records lease = some { record with state := .deleted })
    ?_ (fun _ b hb => hb.1) ?_) (fun j => ?_)
  · rintro b c j ⟨hb, d, hd, hrest⟩ hm _ _ _ _
    exact ⟨hb.called (by rw [hm]; simp), d, List.mem_cons_of_mem _ hd, hrest⟩
  · rintro _ b c ⟨hb, _⟩ hm _ _
    exact hb.called (by rw [hm]; simp)
  refine Triple.bind (asDict_keeps.mono (fun _ h => h) (fun _ _ h => h) (fun _ b hb => hb.1))
    (fun _ => ?_)
  refine Triple.bind (require_keeps.mono (fun _ h => h) (fun _ _ h => h) (fun _ b hb => hb.1))
    (fun _ => ?_)
  have hw : ∀ b, (Traced b ∧ ∃ c, .called c ∈ b.log ∧ c.confirmed id ∧
      b.records lease = some { record with state := .deleted }) →
      Traced (b.record lease { record with state := .revoked }) := by
    rintro b ⟨hb, d, hd, hconf, hr⟩
    exact hb.rewrite hr rfl (fun _ => ⟨id, d, ha, hd, hconf⟩)
  refine Triple.bind (atomic_triple (Q := fun _ => Traced) (fun _ b hb => hw b hb)
    (fun _ b hb => hb.1) (fun _ _ b hb => hw b hb)) (fun _ => ?_)
  refine Triple.bind (atomic_keeps (fun _ b hb => hb.setCred _)) (fun _ => ?_)
  exact Triple.pure' (fun _ h => h)

theorem onLease_traced {operation : Operation} :
    Keeps Traced (onLease admin role project operation lease) := by
  unfold onLease
  refine Triple.bind brokerLock_keeps (fun _ => ?_)
  refine Triple.bind (Triple.read (Q := fun s b => b = s ∧ Traced b) (fun _ hb => ⟨rfl, hb⟩))
    (fun s => ?_)
  cases hrec : s.records lease with
  | none =>
    have hpre : ∀ b, b = s ∧ Traced b → Traced b ∧ b.records lease = none :=
      fun b hb => ⟨hb.2, by rw [hb.1]; exact hrec⟩
    cases operation with
    | issue => exact createAccount_traced.pre hpre
    | check | read | revoke => exact Triple.raise (fun _ hb => hb.2)
  | some record =>
    have hpre : ∀ b, b = s ∧ Traced b → Traced b ∧ b.records lease = some record :=
      fun b hb => ⟨hb.2, by rw [hb.1]; exact hrec⟩
    refine Triple.bind (require_triple
      (Q := fun _ b => Traced b ∧ b.records lease = some record)
      (fun _ => hpre) (fun _ _ hb => hb.2)) (fun _ => ?_)
    have hrevoke : Triple (fun b => Traced b ∧ b.records lease = some record)
        (revoke admin project lease record) (fun _ => Traced) (fun _ => Traced) := by
      unfold revoke
      refine Triple.ite (fun _ => Triple.pure' (fun _ hb => hb.1)) (fun _ => ?_)
      cases ha : record.accountId with
      | none => exact Triple.raise (fun _ hb => hb.1)
      | some id => exact revokeAccount_traced ha
    cases operation with
    | issue => exact serveKey_traced.pre (fun _ hb => hb.1)
    | read => exact serveKey_traced.pre (fun _ hb => hb.1)
    | check | revoke => exact hrevoke

end Operations

variable {policy : BrokerPolicy} {admin : String}

theorem checkProvider_traced {role : Role} {project : String} :
    Keeps Traced (checkProvider admin role project) := by
  unfold checkProvider
  refine Triple.bind (call_triple (Q := fun _ => Traced) ?_ (fun _ _ h => h) ?_) (fun _ => ?_)
  · exact fun b c j hb hm _ _ _ _ => hb.called (by rw [hm]; simp)
  · exact fun _ b c hb hm _ _ => hb.called (by rw [hm]; simp)
  refine Triple.bind asDict_keeps (fun _ => ?_)
  exact Triple.bind require_keeps (fun _ => Triple.pure' (fun _ h => h))

theorem handle_traced (uid : Int) (message : Json) :
    Keeps Traced (Broker.handle policy admin uid message) := by
  unfold Broker.handle
  refine Triple.bind require_keeps (fun _ => ?_)
  cases roleOf (message.get "role") with
  | none => exact Triple.raise (fun _ h => h)
  | some role =>
    simp only [handleAs]
    split
    · refine Triple.bind require_keeps (fun _ => ?_)
      split
      · exact Triple.raise (fun _ h => h)
      · exact Triple.raise (fun _ h => h)
      · exact checkProvider_traced
      · exact onLease_traced
    · exact Triple.raise (fun _ h => h)

theorem serveAll_traced (rs : List BrokerRequest) {b : Broker} (hb : Traced b) :
    Traced (Broker.serveAll policy admin b rs) := by
  induction rs generalizing b with
  | nil => exact hb
  | cons r rs ih => exact ih ((handle_traced r.uid r.message).after hb)

end Hermes

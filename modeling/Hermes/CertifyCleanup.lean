import Hermes.Certify
import Hermes.CredentialsAccounts
import Hermes.CredentialsRevocation

/- Cleaning up after a certifier that was interrupted. The journal names the lease before
   the broker is asked for it, and the broker refuses to revoke what it has no record
   of, so a certifier that died between the two is never cleaned up.
   `cleanup_after_crash` says which interrupted runs are: those whose lease is
   `Recoverable` from the broker's state, wherever the run was cut off. -/
namespace Hermes.Certification
open Process

variable {guest : String → List (String × Json) → Moment → Except String Json}
  {policy : BrokerPolicy} {admin : String} {config : Config} {uid : Int}

/-! ## What a run leaves, wherever it is cut off -/

/-- The broker got where it is by requests. -/
def Served (policy : BrokerPolicy) (admin : String) (b : Broker) : Prop :=
  ∃ rs, b = Broker.serveAll policy admin .empty rs

theorem Served.serve {b : Broker} (h : Served policy admin b) (q : BrokerRequest) :
    Served policy admin (b.serve policy admin q) := by
  obtain ⟨rs, rfl⟩ := h
  exact ⟨rs ++ [q], (serveAll_snoc ..).symm⟩

theorem Served.handle (uid : Int) (message : Json) :
    Keeps (Served policy admin) (Broker.handle policy admin uid message) := by
  intro t b hb
  have hserve := hb.serve ⟨uid, message, t⟩
  revert hserve
  simp only [Broker.serve, Proc.after]
  rcases Broker.handle policy admin uid message t b with ⟨r, t', b'⟩
  cases r <;> exact id

/-- What `validateConfig` requires. -/
def Config.accepted (c : Config) (uid : Int) : Bool :=
  c.schema == "hermes-certify-v1" &&
  (c.domainUuid == "4db6369a-2b8b-427f-a47a-a5d83bb40cff" &&
    c.target == "hermes-certify@172.16.99.12") &&
  (decide (0 < c.certifierUid) && c.certifierUid == uid) &&
  c.credentialSocket == "/run/hermes-lab-credentials/broker.sock" &&
  (isHex 64 64 c.runId && isKernel c.kernel) && c.paths.all (fun p => startsWith p "/")

/-- The state is one of the run of `config`. -/
structure Bound (config : Config) (uid : Int) (w : World) (s : State) : Prop where
  accepted : config.accepted uid = true
  run : s.runId = config.runId
  candidate : w.candidate = some s.fingerprint
  lease : ∀ l, s.lease = some l → l = config.lease

/-- Between the steps of a run. -/
structure Kept (policy : BrokerPolicy) (admin : String) (config : Config) (uid : Int)
    (w : World) : Prop where
  served : Served policy admin w.broker
  journal : ∀ s, w.journal = some s → Bound config uid w s

/-- While a run works on its state. -/
def Running (policy : BrokerPolicy) (admin : String) (config : Config) (uid : Int)
    (w : World) : Prop :=
  Kept policy admin config uid w ∧ Bound config uid w w.state

section Steps
variable {I : World → Prop} {α : Type}

theorem idle_keeps : Keeps I (command (fun _ => true) (fun _ w => w) : Cmd Unit) :=
  run_keeps (fun _ _ h _ => h)

theorem request_keeps {action : String} {values : List (String × Json)} :
    Keeps I (request guest action values) := by
  refine Triple.perform (fun _ h => h) ?_
  intro m w hw r w' hr
  cases hv : m.verdict with
  | done =>
    simp only [hv] at hr
    split at hr <;> (cases hr; exact hw)
  | killed | timeout | failed | missing =>
    simp only [hv] at hr
    cases hr
    exact hw

theorem field_keeps {reply : Json} {key : String} : Keeps I (field reply key) := by
  unfold field
  split
  · exact Triple.pure' (fun _ h => h)
  · exact Triple.raise (fun _ h => h)

theorem rejection_keeps {action : String} {values : List (String × Json)} {expected : String} :
    Keeps I (rejection guest action values expected) := by
  refine Keeps.bind (failureOf_keeps (Keeps.bind request_keeps
    (fun _ => Triple.pure' (fun _ h => h)))) (fun failure => ?_)
  split
  · exact Triple.raise (fun _ h => h)
  · exact require_keeps
  · exact Triple.raise (fun _ h => h)

theorem coldBoot_keeps {observation : String} : Keeps I (coldBoot guest observation) :=
  Keeps.bind idle_keeps (fun _ => Keeps.bind idle_keeps (fun _ => request_keeps))

theorem deployOnce_keeps {stages : List Stage} : Keeps I (deployOnce guest stages) := by
  refine Keeps.handle (Keeps.bind request_keeps (fun _ => Keeps.bind field_keeps
    (fun _ => Triple.pure' (fun _ h => h)))) (fun e => ?_)
  exact Triple.ite (fun _ => Triple.pure' (fun _ h => h)) (fun _ => Triple.raise (fun _ h => h))

theorem transmit_keeps : Keeps I transmit := by
  refine Triple.perform (fun _ h => h) ?_
  intro m w hw r w' hr
  cases hv : m.verdict <;> (simp only [hv] at hr; cases hr; exact hw)

theorem clientFailure_keeps {refusal : Refusal} : Keeps I (clientFailure refusal : Cmd α) := by
  cases refusal <;> exact Triple.raise (fun _ h => h)

end Steps

/-- An invariant that does not read what a cleanup writes beside the broker. -/
structure Steady (policy : BrokerPolicy) (admin : String) (I : World → Prop) : Prop where
  served : ∀ w, I w → Served policy admin w.broker
  broker : ∀ w b, I w → Served policy admin b → I { w with broker := b }
  gates : ∀ w gates, I w → I { w with gates := gates }
  attempts : ∀ w attempts, I w → I { w with attempts := attempts }

theorem steady_kept : Steady policy admin (Kept policy admin config uid) where
  served := fun _ h => h.served
  broker := fun _ _ h hb => ⟨hb, fun s hs => { h.journal s hs with }⟩
  gates := fun _ _ h => ⟨h.served, fun s hs => { h.journal s hs with }⟩
  attempts := fun _ _ h => ⟨h.served, fun s hs => { h.journal s hs with }⟩

theorem steady_running : Steady policy admin (Running policy admin config uid) where
  served := fun _ h => h.1.served
  broker := fun w b h hb => ⟨steady_kept.broker w b h.1 hb, { h.2 with }⟩
  gates := fun w g h => ⟨steady_kept.gates w g h.1, { h.2 with }⟩
  attempts := fun w a h => ⟨steady_kept.attempts w a h.1, { h.2 with }⟩

section Cleanup
variable {I : World → Prop} (hI : Steady policy admin I)
include hI

theorem gate_keeps {name : String} : Keeps I (gate name) :=
  Keeps.bind peek_keeps (fun _ => Keeps.bind require_keeps
    (fun _ => atomic_keeps (fun _ w hw => hI.gates w _ hw)))

theorem serveRequest_keeps {operation : String} {lease : Lease} :
    Keeps I (serveRequest policy admin uid operation lease) := by
  refine Triple.outcome (Q := fun _ => I) (E := fun _ => I) ?_ (fun _ _ h => h) (fun _ _ h => h)
  refine Triple.start (fun w hw => ?_)
  exact Triple.zoom w (Served.handle uid _) (fun s hs => ⟨hs, by rw [hs]; exact hI.served w hw⟩)
    (fun _ b hb => hI.broker w b hw hb) (fun _ b hb => hI.broker w b hw hb)

theorem client_keeps {operation : String} {lease : Lease} :
    Keeps I (client policy admin uid operation lease) := by
  refine Keeps.bind transmit_keeps (fun connected => ?_)
  cases connected with
  | some refusal => exact Triple.pure' (fun _ h => h)
  | none =>
    refine Keeps.bind (serveRequest_keeps hI) (fun answer => Keeps.bind transmit_keeps
      (fun delivered => ?_))
    cases delivered with
    | some refusal => exact Triple.pure' (fun _ h => h)
    | none => cases answer <;> exact Triple.pure' (fun _ h => h)

theorem revocationAttempt_keeps {lease : Lease} {attempt : Nat} :
    Keeps I (revocationAttempt policy admin uid lease attempt) :=
  Keeps.bind (client_keeps hI) (fun _ => Keeps.bind (Triple.update (fun w hw => hI.attempts w _ hw))
    (fun _ => Triple.pure' (fun _ h => h)))

theorem revokeAttempts_keeps {lease : Lease} (left : Nat) :
    Keeps I (revokeAttempts policy admin uid lease left) := by
  induction left with
  | zero =>
    refine Keeps.bind (revocationAttempt_keeps hI) (fun reason => ?_)
    cases reason with
    | none => exact Triple.pure' (fun _ h => h)
    | some refusal => exact clientFailure_keeps
  | succ left ih =>
    refine Keeps.bind (revocationAttempt_keeps hI) (fun reason => ?_)
    split
    · exact Triple.pure' (fun _ h => h)
    · exact clientFailure_keeps
    · exact ih

theorem cleanup_keeps {lease : Lease} : Keeps I (cleanup guest policy admin config lease) := by
  refine Keeps.bind (failureOf_keeps (Keeps.bind request_keeps
    (fun _ => Triple.pure' (fun _ h => h)))) (fun _ => ?_)
  refine Keeps.bind (failureOf_keeps ?_) (fun _ => require_keeps)
  refine Keeps.bind (Keeps.bind (Triple.update (fun w hw => hI.attempts w _ hw))
    (fun _ => revokeAttempts_keeps hI 2)) (fun _ => ?_)
  exact Keeps.bind peek_keeps (fun _ => onlyIf_keeps (gate_keeps hI))

end Cleanup

/-! The run: `state` and the journal stay those of `config`. -/

theorem save_keeps {stage : Stage} {f : State → State}
    (hf : ∀ w s, Bound config uid w s → Bound config uid w (f s)) :
    Keeps (Running policy admin config uid) (save stage f) := by
  refine Keeps.bind (Triple.update ?_) (fun _ => atomic_keeps ?_)
  · intro w hw
    have hb := hf w w.state hw.2
    exact ⟨⟨hw.1.served, fun s hs => { hw.1.journal s hs with }⟩,
      ⟨hb.accepted, hb.run, hb.candidate, hb.lease⟩⟩
  · intro _ w hw
    refine ⟨⟨hw.1.served, ?_⟩, { hw.2 with }⟩
    intro s hs
    cases hs
    exact { hw.2 with }

theorem save_plain {stage : Stage} : Keeps (Running policy admin config uid) (save stage) :=
  save_keeps (fun _ _ h => h)

theorem deployLoop_keeps (passes : Nat) (stages : List Stage) :
    Keeps (Running policy admin config uid) (deployLoop guest passes stages) := by
  induction passes generalizing stages with
  | zero => exact Triple.raise (fun _ h => h)
  | succ passes ih =>
    refine Keeps.bind deployOnce_keeps (fun reported => ?_)
    cases reported with
    | none => exact ih stages
    | some text =>
      simp only
      split
      · exact Triple.raise (fun _ h => h)
      · refine Keeps.bind (onlyIf_keeps save_plain) (fun _ => ?_)
        exact Triple.ite (fun _ => Triple.pure' (fun _ h => h)) (fun _ => ih _)

theorem stageCandidate_keeps {fingerprint : String} :
    Keeps (Running policy admin config uid) (stageCandidate guest fingerprint) := by
  refine Keeps.bind save_plain (fun _ => ?_)
  refine Keeps.bind rejection_keeps (fun _ => Keeps.bind rejection_keeps (fun _ =>
    Keeps.bind rejection_keeps (fun _ => ?_)))
  refine Keeps.bind request_keeps (fun _ => Keeps.bind field_keeps (fun _ =>
    Keeps.bind require_keeps (fun _ => ?_)))
  refine Keeps.bind request_keeps (fun _ => Keeps.bind field_keeps (fun _ =>
    Keeps.bind require_keeps (fun _ => ?_)))
  refine Keeps.bind rejection_keeps (fun _ => Keeps.bind rejection_keeps (fun _ => ?_))
  refine Keeps.bind request_keeps (fun _ => Keeps.bind field_keeps (fun _ => ?_))
  refine Keeps.bind request_keeps (fun _ => Keeps.bind save_plain (fun _ => ?_))
  exact Keeps.bind request_keeps (fun _ => Triple.pure' (fun _ h => h))

theorem backUp_keeps {I : World → Prop} {receipt : Json} : Keeps I (backUp guest receipt) := by
  refine Keeps.bind rejection_keeps (fun _ => Keeps.bind request_keeps (fun _ => ?_))
  refine Keeps.bind field_keeps (fun _ => Keeps.bind field_keeps (fun _ =>
    Keeps.bind require_keeps (fun _ => ?_)))
  exact Keeps.bind query_keeps (fun _ => Keeps.bind request_keeps
    (fun _ => Triple.pure' (fun _ h => h)))

theorem issueCredential_keeps :
    Keeps (Running policy admin config uid) (issueCredential guest policy admin config) := by
  refine Keeps.bind (save_keeps ?_) (fun _ => ?_)
  · intro w s h
    refine { h with lease := ?_ }
    intro l hl
    exact (Option.some.inj hl).symm
  refine Keeps.bind (Triple.update ?_) (fun _ => ?_)
  · exact fun w hw => ⟨⟨hw.1.served, fun s hs => { hw.1.journal s hs with }⟩, { hw.2 with }⟩
  refine Keeps.bind (client_keeps steady_running) (fun secret => ?_)
  cases secret with
  | error refusal => exact clientFailure_keeps
  | ok reply => exact Keeps.bind request_keeps (fun _ => Triple.pure' (fun _ h => h))

theorem deployCandidate_keeps :
    Keeps (Running policy admin config uid) (deployCandidate guest) := by
  refine Keeps.bind save_plain (fun _ => Keeps.bind (deployLoop_keeps 361 []) (fun _ => ?_))
  refine Keeps.bind require_keeps (fun _ => Keeps.bind request_keeps (fun _ => ?_))
  refine Keeps.bind (gate_keeps steady_running) (fun _ => ?_)
  exact Keeps.bind (gate_keeps steady_running) (fun _ => Triple.pure' (fun _ h => h))

theorem acceptDeployment_keeps {warm : Json} :
    Keeps (Running policy admin config uid) (acceptDeployment guest warm) := by
  refine Keeps.bind save_plain (fun _ => Keeps.bind coldBoot_keeps (fun _ => ?_))
  refine Keeps.bind field_keeps (fun _ => Keeps.bind field_keeps (fun _ =>
    Keeps.bind require_keeps (fun _ => ?_)))
  refine Keeps.bind (gate_keeps steady_running) (fun _ =>
    Keeps.bind (gate_keeps steady_running) (fun _ => ?_))
  refine Keeps.bind save_plain (fun _ => Keeps.bind request_keeps (fun _ =>
    Keeps.bind coldBoot_keeps (fun _ => ?_)))
  refine Keeps.bind save_plain (fun _ => Keeps.bind request_keeps (fun _ =>
    Keeps.bind coldBoot_keeps (fun _ => ?_)))
  refine Keeps.bind idle_keeps (fun _ => Keeps.bind (gate_keeps steady_running) (fun _ => ?_))
  refine Keeps.bind request_keeps (fun _ => Keeps.bind request_keeps (fun _ =>
    Keeps.bind request_keeps (fun _ => ?_)))
  refine Keeps.bind field_keeps (fun _ => Keeps.bind field_keeps (fun _ =>
    Keeps.bind require_keeps (fun _ => Keeps.bind request_keeps (fun _ => ?_))))
  exact Keeps.bind field_keeps (fun _ => Keeps.bind field_keeps (fun _ =>
    Keeps.bind field_keeps (fun _ => Keeps.bind field_keeps (fun _ => require_keeps))))

theorem candidate_triple {P : World → Prop} :
    Triple P candidate (fun f w => P w ∧ w.candidate = some f) (fun _ => P) := by
  unfold candidate
  refine Triple.bind (Q := fun found w => P w ∧ w.candidate = found)
    (query_triple (fun _ w hw _ => ⟨hw, rfl⟩) (fun _ _ h => h)) (fun found => ?_)
  cases found with
  | none => exact Triple.raise (fun _ h => h.1)
  | some f => exact Triple.pure' (fun _ h => h)

theorem restoreAndScan_keeps {fingerprint : String} {turnedAway : Bool} {backup : String × String} :
    Keeps (Running policy admin config uid)
      (restoreAndScan guest fingerprint turnedAway backup) := by
  refine Keeps.bind save_plain (fun _ => Keeps.bind request_keeps (fun _ =>
    Keeps.bind rejection_keeps (fun _ => ?_)))
  refine Keeps.bind query_keeps (fun _ => Keeps.bind require_keeps (fun _ => ?_))
  refine Keeps.bind request_keeps (fun _ => Keeps.bind request_keeps (fun _ => ?_))
  refine Keeps.bind (gate_keeps steady_running) (fun _ => Keeps.bind require_keeps (fun _ => ?_))
  refine Keeps.bind idle_keeps (fun _ => Keeps.bind save_plain (fun _ =>
    Keeps.bind idle_keeps (fun _ => ?_)))
  refine Keeps.bind (candidate_triple.mono (fun _ h => h) (fun _ _ h => h.1) (fun _ _ h => h))
    (fun _ => ?_)
  exact Keeps.bind require_keeps (fun _ => save_plain)

theorem execute_keeps {fingerprint : String} :
    Keeps (Running policy admin config uid) (execute guest policy admin config fingerprint) := by
  refine Keeps.bind stageCandidate_keeps (fun _ => Keeps.bind backUp_keeps (fun _ => ?_))
  refine Keeps.bind issueCredential_keeps (fun _ => Keeps.bind deployCandidate_keeps (fun _ => ?_))
  exact Keeps.bind acceptDeployment_keeps (fun _ => restoreAndScan_keeps)

/-- `require` in a row: what has been required so far. -/
theorem require_next {P : World → Prop} {seen c : Bool} {reason : String} {code : Nat} :
    Triple (fun w => P w ∧ seen = true) (require c reason code : Cmd Unit)
      (fun _ w => P w ∧ (seen && c) = true) (fun _ => P) :=
  require_triple (fun hc _ hw => ⟨hw.1, by rw [hw.2, hc]; rfl⟩) (fun _ _ hw => hw.1)

theorem validateConfig_triple {P : World → Prop} :
    Triple P (validateConfig uid config) (fun _ w => P w ∧ config.accepted uid = true)
      (fun _ => P) := by
  unfold validateConfig
  refine Triple.bind (require_triple (Q := fun _ w =>
    P w ∧ (config.schema == "hermes-certify-v1") = true) (fun hc w hw => ⟨hw, hc⟩)
    (fun _ _ h => h)) (fun _ => ?_)
  refine Triple.bind require_next (fun _ => Triple.bind require_next (fun _ => ?_))
  refine Triple.bind require_next (fun _ => Triple.bind require_next (fun _ => ?_))
  exact require_next

theorem start_triple :
    Triple (Kept policy admin config uid) (start config uid)
      (fun _ => Running policy admin config uid) (fun _ => Kept policy admin config uid) := by
  refine Triple.bind validateConfig_triple (fun _ => ?_)
  refine Triple.bind (candidate_triple.mono (fun _ h => h) (fun _ _ h => h) (fun _ _ h => h.1))
    (fun fingerprint => ?_)
  refine Triple.bind (peek_keeps.mono (fun _ h => h) (fun _ _ h => h) (fun _ _ h => h.1.1))
    (fun started => ?_)
  refine Triple.bind (require_keeps.mono (fun _ h => h) (fun _ _ h => h) (fun _ _ h => h.1.1))
    (fun _ => ?_)
  refine Triple.bind (Triple.update (Q := fun _ => Running policy admin config uid) ?_)
    (fun _ => ?_)
  · intro w ⟨⟨hw, hacc⟩, hcand⟩
    exact ⟨⟨hw.served, fun s hs => { hw.journal s hs with }⟩, hacc, rfl, hcand,
      fun _ hl => by cases hl⟩
  · exact Triple.bind (save_plain.mono (fun _ h => h) (fun _ _ h => h) (fun _ _ h => h.1))
      (fun _ => Triple.pure' (fun _ h => h))

theorem certify_keeps :
    Keeps (Kept policy admin config uid) (certify guest policy admin config uid) := by
  refine Triple.bind start_triple (fun fingerprint => ?_)
  -- the rest keeps what holds of a run, of which `Kept` is a part
  refine Triple.mono (?_ : Keeps (Running policy admin config uid) _) (fun _ h => h)
    (fun _ _ h => h.1) (fun _ _ h => h.1)
  refine Keeps.bind (failureOf_keeps execute_keeps) (fun failed => ?_)
  refine Keeps.bind peek_keeps (fun attempted => ?_)
  refine Keeps.bind (failureOf_keeps (onlyIf_keeps (cleanup_keeps steady_running)))
    (fun cleanupFailed => ?_)
  split
  · exact Keeps.bind save_plain (fun _ => Triple.pure' (fun _ h => h))
  · exact Keeps.bind (save_keeps (fun _ _ h => { h with })) (fun _ => Triple.raise (fun _ h => h))

theorem cleanupOnly_keeps :
    Keeps (Kept policy admin config uid) (cleanupOnly guest policy admin config uid) := by
  refine Triple.bind (validateConfig_triple.mono (fun _ h => h) (fun _ _ h => h.1) (fun _ _ h => h))
    (fun _ => ?_)
  refine Triple.bind (candidate_triple.mono (fun _ h => h) (fun _ _ h => h.1) (fun _ _ h => h))
    (fun fingerprint => ?_)
  refine Keeps.bind peek_keeps (fun journal => ?_)
  cases journal with
  | none => exact Triple.pure' (fun _ h => h)
  | some s =>
    refine Keeps.bind require_keeps (fun _ => ?_)
    cases s.lease with
    | none => exact Triple.pure' (fun _ h => h)
    | some lease =>
      refine Keeps.bind require_keeps (fun _ => Keeps.bind (Triple.update ?_) (fun _ =>
        Keeps.bind (cleanup_keeps steady_kept) (fun _ => Triple.pure' (fun _ h => h))))
      exact fun w hw => ⟨hw.served, fun s hs => { hw.journal s hs with }⟩

/-- What can have become of a run: certifiers and cleanups, each cut off anywhere, and
    requests of other peers of the broker in between. -/
inductive Reached (guest : String → List (String × Json) → Moment → Except String Json)
    (policy : BrokerPolicy) (admin : String) (config : Config) (uid : Int) : World → Prop where
  | fresh (candidate : Option String) (rs : List BrokerRequest) :
    Reached guest policy admin config uid
      (World.fresh candidate (Broker.serveAll policy admin .empty rs))
  | certify {w : World} (h : Reached guest policy admin config uid w) (t : List Moment) :
    Reached guest policy admin config uid ((certify guest policy admin config uid).after t w)
  | cleanup {w : World} (h : Reached guest policy admin config uid w) (t : List Moment) :
    Reached guest policy admin config uid ((cleanupOnly guest policy admin config uid).after t w)
  | serve {w : World} (h : Reached guest policy admin config uid w) (q : BrokerRequest) :
    Reached guest policy admin config uid { w with broker := w.broker.serve policy admin q }

theorem Reached.kept {w : World} (h : Reached guest policy admin config uid w) :
    Kept policy admin config uid w := by
  induction h with
  | fresh candidate rs => exact ⟨⟨rs, rfl⟩, fun s hs => by cases hs⟩
  | certify _ t ih => exact certify_keeps.after ih
  | cleanup _ t ih => exact cleanupOnly_keeps.after ih
  | serve _ q ih => exact steady_kept.broker _ _ ih (ih.served.serve q)

/-! ## One cleanup, with everybody at work -/

/-- Whenever the guest is reached, it puts the former credential back. -/
def Restores (guest : String → List (String × Json) → Moment → Except String Json) : Prop :=
  ∀ m, m.verdict = .done → ∃ reply, guest "cleanup-credential" [] m = .ok reply

/-- The broker knows the lease as one of the certifier's, with an account, and can revoke
    it. -/
def Recoverable (policy : BrokerPolicy) (admin : String) (config : Config) (live : Bool)
    (b : Broker) : Prop :=
  policy.testUid = config.certifierUid ∧ ∃ r id, b.records config.lease = some r ∧
    r.role = .test ∧ r.accountId = some id ∧ Revocable admin live b config.lease r

/-- A cleanup by `t` from `w` returns, and then every account created for the run is deleted
    and its lease, if the broker knows it, is recorded as revoked. -/
def CleansUp (guest : String → List (String × Json) → Moment → Except String Json)
    (policy : BrokerPolicy) (admin : String) (config : Config) (uid : Int) (t : List Moment)
    (w : World) : Prop :=
  (cleanupOnly guest policy admin config uid).result t w = .ok .credentialCleanupComplete ∧
  let b := ((cleanupOnly guest policy admin config uid).after t w).broker
  (∀ r, b.records config.lease = some r → r.state = .revoked) ∧
  ∀ c id, .called c ∈ b.log → c.creates config.lease → c.names id →
    ∃ d, .called d ∈ b.log ∧ d.confirmed id

section Good
variable {token : Option String} {live : Bool} {P : World → Prop} {E : Exc → World → Prop}

theorem peek_within {α : Type} {value : World → α} :
    Within (Working admin token live) 1 P (peek value) (fun v w => P w ∧ v = value w) E :=
  run_within (fun _ hm => hm.done) (fun _ _ _ hw _ => ⟨hw, rfl⟩) (fun _ _ h => by cases h)

/-- An exception is a result; one that killed the process is none. -/
theorem failureOf_within {n : Nat} {x : Cmd Unit} {Q : Unit → World → Prop}
    {S : Option Exc → World → Prop} (hx : Within (Working admin token live) n P x Q E)
    (hok : ∀ w, Q () w → S none w) (herr : ∀ e w, E e w → S (some e) w) :
    Within (Working admin token live) n P (failureOf x) S (fun e w => S (some e) w) := by
  have hresult : Within (Working admin token live) n P (do x; pure none) S E :=
    Within.bind_sub hx (fun _ => Within.pure' hok) (Nat.le_refl n)
  refine Within.handle (b := 0) hresult ?_
  intro e
  split
  · exact Within.raise (fun w h => herr _ w h)
  · exact Within.pure' (fun w h => herr _ w h)

theorem request_within (hguest : Restores guest) :
    Within (Working admin token live) 1 P
      (do let _ ← request guest "cleanup-credential"; pure ()) (fun _ => P) E := by
  apply Within.bind_sub (a := 1) (Q := fun _ => P) ?_ (fun _ => Within.pure' (fun _ h => h))
    (by omega)
  apply Within.perform
  intro m w hm hw r w' hr
  obtain ⟨reply, hreply⟩ := hguest m hm.done
  simp only [hm.done, hreply] at hr
  cases hr
  exact hw

theorem transmit_within :
    Within (Working admin token live) 1 P transmit (fun r w => P w ∧ r = none) E := by
  apply Within.perform
  intro m w hm hw r w' hr
  simp only [hm.done] at hr
  cases hr
  exact ⟨hw, rfl⟩

theorem gate_within {name : String} :
    Within (Working admin token live) 2 (fun w => P w ∧ w.gates.contains name = false) (gate name)
      (fun _ w => ∃ v, P v ∧ w.broker = v.broker) E := by
  apply Within.bind_sub (a := 1) peek_within ?_ (by omega)
  intro present
  apply Within.given (fun w hw => hw.2.trans hw.1.2)
  intro hp
  rw [hp]
  apply Within.bind_sub (a := 0) (Q := fun _ => P) ?_ ?_ (by omega)
  · exact require_within (fun _ _ => rfl) (fun _ hw => hw.1.1)
  · exact fun _ => atomic_within (fun _ hm => hm.done) (fun _ w _ hw => ⟨w, hw, rfl⟩)

/-! A revocation by the certifier. -/

/-- What an attempt that failed from `b` leaves: the same keys, and a lease that is still out
    of reach. -/
def StillLost (policy : BrokerPolicy) (admin : String) (config : Config) (live : Bool)
    (b b' : Broker) : Prop :=
  b'.creds = b.creds ∧ ¬Recoverable policy admin config live b'

/-- The lease is recorded as revoked. -/
def LeaseRevoked (config : Config) (b : Broker) : Prop :=
  ∃ id, SaysRevoked config.lease id b

theorem lease_of_accepted (h : config.accepted uid = true) : isLease config.lease = true := by
  have hrun : isHex 64 64 config.runId = true := by
    simp only [Config.accepted, Bool.and_eq_true] at h
    exact h.1.2.1
  simp only [isHex, Bool.and_eq_true, decide_eq_true_eq, List.all_eq_true] at hrun
  obtain ⟨⟨hlo, hhi⟩, hall⟩ := hrun
  simp only [isLease, isHex, Config.lease, String.toList_ofList, List.length_take,
    Bool.and_eq_true, decide_eq_true_eq, List.all_eq_true]
  refine ⟨⟨by omega, by omega⟩, ?_⟩
  exact fun c hc => hall c (List.mem_of_mem_take hc)

theorem asks_revoke (h : config.accepted uid = true) (t : List Moment) :
    (⟨config.certifierUid, frame "revoke" config.lease, t⟩ : BrokerRequest).Asks .revoke .test
      config.lease := by
  refine ⟨rfl, rfl, rfl, ?_⟩
  show (if isLease config.lease then some config.lease else none) = some config.lease
  rw [lease_of_accepted h, if_pos rfl]

/-- Where the broker's state does not change, nothing is gained. -/
theorem StillLost.same {b : Broker} (h : ¬Recoverable policy admin config live b) :
    ¬Recoverable policy admin config live b ∧ StillLost policy admin config live b b :=
  ⟨h, rfl, h⟩

/-- The broker asked by the certifier to revoke its lease. -/
theorem onLease_recovers {b₀ : Broker} {project : String} (hb₀ : Owned policy b₀)
    (hpeer : policy.testUid = config.certifierUid) :
    Within (Working admin (b₀.probeToken admin config.lease) live) 7 (fun b => b = b₀)
      (onLease admin .test project .revoke config.lease)
      (fun _ b => Recoverable policy admin config live b₀ ∧ LeaseRevoked config b)
      (fun _ b => ¬Recoverable policy admin config live b₀ ∧
        StillLost policy admin config live b₀ b) := by
  by_cases hknown : ∃ r id, b₀.records config.lease = some r ∧ r.role = .test ∧
      r.accountId = some id
  · obtain ⟨r, id, hrec, hrole, hid⟩ := hknown
    have hiff : Recoverable policy admin config live b₀ ↔
        Revocable admin live b₀ config.lease r := by
      constructor
      · intro ⟨_, r', _, hr', _, _, hrev⟩
        rw [hrec] at hr'
        cases hr'
        exact hrev
      · exact fun hrev => ⟨hpeer, r, id, hrec, hrole, hid, hrev⟩
    apply (onLease_within hrec hrole hid).mono (fun _ h => h)
    · exact fun _ b hb => ⟨hiff.mpr hb.1, id, hb.2⟩
    · intro _ b ⟨hno, r', hr', _, _, _, hno'⟩
      refine ⟨fun h => hno (hiff.mp h), hr'.2, ?_⟩
      intro ⟨_, r'', _, hr'', _, _, hrev⟩
      rw [hr'.1] at hr''
      cases hr''
      exact hno' hrev
  -- the broker has nothing it could revoke for the certifier
  have hlost : ¬Recoverable policy admin config live b₀ := by
    intro ⟨_, r, id, hrec, hrole, hid, _⟩
    exact hknown ⟨r, id, hrec, hrole, hid⟩
  unfold onLease
  apply Within.bind_sub (a := 1) brokerLock_within ?_ (by omega)
  intro _
  apply Within.bind_sub (a := 0) (Q := fun s b => s = b₀ ∧ b = b₀)
    (Within.read (fun _ hb => ⟨hb, hb⟩)) ?_ (by omega)
  intro s
  apply Within.given (fun _ hb => hb.1)
  intro hs
  subst hs
  cases hrec : s.records config.lease with
  | none => exact Within.raise (fun b hb => by rw [hb.2]; exact StillLost.same hlost)
  | some r =>
    apply Within.bind_sub (a := 0) (Q := fun _ b => b = s ∧ r.role = .test) ?_ ?_ (by omega)
    · apply require_decided
      · exact fun hrole b hb => ⟨hb.2, by simpa using hrole⟩
      · exact fun _ b hb => by rw [hb.2]; exact StillLost.same hlost
    intro _
    apply Within.given (fun _ hb => hb.2)
    intro hrole
    have hid : r.accountId = none := by
      cases hid : r.accountId with
      | none => rfl
      | some id => exact absurd ⟨r, id, hrec, hrole, hid⟩ hknown
    have hst : r.state ≠ .revoked := by
      intro hst
      obtain ⟨id, _, _, hid', _⟩ := hb₀.deletions _ r hrec (.inr hst)
      rw [hid] at hid'
      cases hid'
    show Within _ _ _ (revoke admin project config.lease r) _ _
    unfold revoke
    rw [if_neg hst, hid]
    exact Within.raise (fun b hb => by rw [hb.1]; exact StillLost.same hlost)

theorem handle_within {b₀ : Broker} (hacc : config.accepted uid = true)
    (hb₀ : Served policy admin b₀) :
    Within (Working admin (b₀.probeToken admin config.lease) live) 7 (fun b => b = b₀)
      (Broker.handle policy admin config.certifierUid (frame "revoke" config.lease))
      (fun _ b => Recoverable policy admin config live b₀ ∧ LeaseRevoked config b)
      (fun _ b => ¬Recoverable policy admin config live b₀ ∧
        StillLost policy admin config live b₀ b) := by
  have howned : Owned policy b₀ := by
    obtain ⟨rs, rfl⟩ := hb₀
    exact serveAll_owned rs
  by_cases hpeer : policy.testUid = config.certifierUid
  · have hserved := (@handle_asks _ admin) (asks_revoke hacc []) (by simp)
      (show policy.project .test = some policy.testProject from rfl)
      (show policy.uid .test = some config.certifierUid from congrArg some hpeer)
    rw [hserved]
    exact onLease_recovers howned hpeer
  · have hlost : ¬Recoverable policy admin config live b₀ := fun h => hpeer h.1
    have hdenied : decide (config.certifierUid = policy.testUid) = false :=
      decide_eq_false (fun h => hpeer h.symm)
    show Within _ _ _ (do
      require (decide (config.certifierUid = policy.testUid)) "broker-peer-denied" 77
      _) _ _
    rw [hdenied]
    apply Within.bind_sub (a := 0) (Q := fun _ _ => False) ?_ ?_ (by omega)
    · exact require_decided (fun h => by cases h)
        (fun _ b hb => by rw [hb]; exact StillLost.same hlost)
    · exact fun _ => Within.given (fun _ h => h) False.elim

/-- How an attempt on the broker's state `b₀` ended: with the lease revoked, or without. -/
def Tried (policy : BrokerPolicy) (admin : String) (config : Config) (live : Bool) (b₀ : Broker)
    (revoked : Bool) (b : Broker) : Prop :=
  (revoked = true → Recoverable policy admin config live b₀ ∧ LeaseRevoked config b) ∧
  (revoked = false → ¬Recoverable policy admin config live b₀ ∧
    StillLost policy admin config live b₀ b)

theorem tried_ok {b₀ b : Broker}
    (h : Recoverable policy admin config live b₀ ∧ LeaseRevoked config b) :
    Tried policy admin config live b₀ true b :=
  ⟨fun _ => h, fun hf => absurd hf (by simp)⟩

theorem tried_error {b₀ b : Broker} (h : ¬Recoverable policy admin config live b₀ ∧
    StillLost policy admin config live b₀ b) : Tried policy admin config live b₀ false b :=
  ⟨fun hf => absurd hf (by simp), fun _ => h⟩

theorem serveRequest_within {b₀ : Broker} (hacc : config.accepted uid = true)
    (hb₀ : Served policy admin b₀) :
    Within (Working admin (b₀.probeToken admin config.lease) live) 7 (fun w => w.broker = b₀)
      (serveRequest policy admin config.certifierUid "revoke" config.lease)
      (fun r w => Tried policy admin config live b₀ r.isOk w.broker) (fun _ _ => False) := by
  apply Within.start
  intro w hw
  have hzoom : Within (Working admin (b₀.probeToken admin config.lease) live) 7 (fun v => v = w)
      (Proc.zoom World.broker (fun w b => { w with broker := b })
        (Broker.handle policy admin config.certifierUid (frame "revoke" config.lease)))
      (fun _ v => Recoverable policy admin config live b₀ ∧ LeaseRevoked config v.broker)
      (fun _ v => ¬Recoverable policy admin config live b₀ ∧
        StillLost policy admin config live b₀ v.broker) :=
    Within.zoom w (handle_within hacc hb₀) (fun v hv => ⟨hv, by rw [hv]; exact hw⟩)
      (fun _ _ h => h) (fun _ _ h => h)
  exact Within.outcome hzoom (fun _ _ h => tried_ok h) (fun _ _ h => tried_error h)

theorem client_within {b₀ : Broker} (hacc : config.accepted uid = true)
    (hb₀ : Served policy admin b₀) :
    Within (Working admin (b₀.probeToken admin config.lease) live) 9 (fun w => w.broker = b₀)
      (client policy admin config.certifierUid "revoke" config.lease)
      (fun r w => Tried policy admin config live b₀ r.isOk w.broker) (fun _ _ => False) := by
  unfold client
  apply Within.bind_sub (a := 1) transmit_within ?_ (by omega)
  intro connected
  apply Within.given (fun w hw => hw.2)
  intro hconnected
  subst hconnected
  apply Within.bind_sub (a := 7) ((serveRequest_within hacc hb₀).pre (fun _ hw => hw.1)) ?_
    (by omega)
  intro answer
  apply Within.bind_sub (a := 1) transmit_within ?_ (by omega)
  intro delivered
  apply Within.given (fun w hw => hw.2)
  intro hdelivered
  subst hdelivered
  cases answer with
  | ok reply => exact Within.pure' (fun w hw => hw.1)
  | error e => exact Within.pure' (fun w hw => hw.1)

theorem revocationAttempt_within {b₀ : Broker} (hacc : config.accepted uid = true)
    (hb₀ : Served policy admin b₀) (attempt : Nat) :
    Within (Working admin (b₀.probeToken admin config.lease) live) 9 (fun w => w.broker = b₀)
      (revocationAttempt policy admin config.certifierUid config.lease attempt)
      (fun reason w => Tried policy admin config live b₀ reason.isNone w.broker ∧
        Served policy admin w.broker) (fun _ _ => False) := by
  have hsteady : Steady policy admin (fun w => Served policy admin w.broker) :=
    ⟨fun _ h => h, fun _ _ _ h => h, fun _ _ h => h, fun _ _ h => h⟩
  have hclient := ((@client_within _ _ _ _ live) hacc hb₀).and_triple
    ((client_keeps hsteady).pre (fun w (hw : w.broker = b₀) => by rw [hw]; exact hb₀))
  unfold revocationAttempt
  apply Within.bind_sub (a := 9) (hclient.mono (fun _ h => h) (fun _ _ h => h) (fun _ _ h => h.1))
    ?_ (by omega)
  intro result
  refine Within.bind_sub (a := 0) (Q := fun _ w => Tried policy admin config live b₀ result.isOk
    w.broker ∧ Served policy admin w.broker)
    (Within.update (f := fun w : World => { w with attempts := w.attempts ++ [⟨attempt, _⟩] })
      (fun _ h => h)) (fun _ => ?_) (by omega)
  cases result with
  | ok reply => exact Within.pure' (fun _ h => h)
  | error refusal => exact Within.pure' (fun _ h => h)

/-- Trying again does not help: what an attempt could not revoke, the next one cannot. -/
theorem revokeAttempts_within (hacc : config.accepted uid = true) (left : Nat) {b₀ : Broker}
    (hb₀ : Served policy admin b₀) :
    Within (Working admin (b₀.probeToken admin config.lease) live) (9 * (left + 1))
      (fun w => w.broker = b₀)
      (revokeAttempts policy admin config.certifierUid config.lease left)
      (fun _ w => Recoverable policy admin config live b₀ ∧ LeaseRevoked config w.broker)
      (fun _ _ => ¬Recoverable policy admin config live b₀) := by
  induction left generalizing b₀ with
  | zero =>
    apply Within.bind_sub (a := 9) ((revocationAttempt_within hacc hb₀ 3).mono (fun _ h => h)
      (fun _ _ h => h) (fun _ _ h => h.elim)) ?_ (by omega)
    intro reason
    cases reason with
    | none => exact Within.pure' (fun _ hw => hw.1.1 rfl)
    | some refusal => cases refusal <;> exact Within.raise (fun _ hw => (hw.1.2 rfl).1)
  | succ left ih =>
    apply Within.bind_sub (a := 9) ((revocationAttempt_within hacc hb₀ (2 - left)).mono
      (fun _ h => h) (fun _ _ h => h) (fun _ _ h => h.elim)) ?_ (by omega)
    intro reason
    have hagain : Within (Working admin (b₀.probeToken admin config.lease) live) (9 * (left + 1))
        (fun w => Tried policy admin config live b₀ false w.broker ∧ Served policy admin w.broker)
        (revokeAttempts policy admin config.certifierUid config.lease left)
        (fun _ w => Recoverable policy admin config live b₀ ∧ LeaseRevoked config w.broker)
        (fun _ _ => ¬Recoverable policy admin config live b₀) := by
      apply Within.start
      intro w ⟨htried, hserved⟩
      obtain ⟨hlost, hcreds, hstill⟩ := htried.2 rfl
      have htoken : w.broker.probeToken admin config.lease =
          b₀.probeToken admin config.lease := by simp [Broker.probeToken, hcreds]
      rw [← htoken]
      exact (ih hserved).mono (fun v hv => by rw [hv]) (fun _ _ h => absurd h.1 hstill)
        (fun _ _ _ => hlost)
    have hbudget : 9 * (left + 1) ≤ 9 * (left + 1 + 1) - 9 := by omega
    cases reason with
    | none => exact Within.pure' (fun _ hw => hw.1.1 rfl)
    | some refusal =>
      cases refusal with
      | other => exact Within.raise (fun _ hw => (hw.1.2 rfl).1)
      | rejected => exact hagain.budget hbudget
      | transport => exact hagain.budget hbudget

theorem cleanup_within {b₀ : Broker} (hguest : Restores guest)
    (hacc : config.accepted uid = true) (hb₀ : Served policy admin b₀) :
    Within (Working admin (b₀.probeToken admin config.lease) live) 31 (fun w => w.broker = b₀)
      (cleanup guest policy admin config config.lease)
      (fun _ w => Recoverable policy admin config live b₀ ∧ LeaseRevoked config w.broker)
      (fun _ _ => ¬Recoverable policy admin config live b₀) := by
  unfold cleanup
  apply Within.bind_sub (a := 1) (Q := fun e w => w.broker = b₀ ∧ e = none) ?_ ?_ (by omega)
  · exact (failureOf_within (S := fun e w => w.broker = b₀ ∧ e = none)
      (request_within (E := fun _ _ => False) hguest) (fun _ h => ⟨h, rfl⟩)
      (fun _ _ h => h.elim)).mono (fun _ h => h) (fun _ _ h => h) (fun _ _ h => by cases h.2)
  intro restoration
  apply Within.given (fun _ hw => hw.2)
  intro hrestored
  subst hrestored
  have hrevoke : Within (Working admin (b₀.probeToken admin config.lease) live) 30
      (fun w => w.broker = b₀) (do
        revokeTestCredential policy admin config.certifierUid config.lease
        let present ← peek (·.gates.contains "credential_revocation")
        onlyIf (!present) (gate "credential_revocation"))
      (fun _ w => Recoverable policy admin config live b₀ ∧ LeaseRevoked config w.broker)
      (fun _ _ => ¬Recoverable policy admin config live b₀) := by
    apply Within.bind_sub (a := 27) ?_ ?_ (by omega)
    · exact fun _ w => Recoverable policy admin config live b₀ ∧ LeaseRevoked config w.broker
    · unfold revokeTestCredential
      refine Within.bind_sub (a := 0) (Q := fun _ w => w.broker = b₀)
        (Within.update (f := fun w : World => { w with attempts := [] }) (fun _ h => h)) (fun _ => ?_)
        (by omega)
      exact revokeAttempts_within hacc 2 hb₀
    intro _
    apply Within.bind_sub (a := 1) peek_within ?_ (by omega)
    intro present
    unfold onlyIf
    apply Within.ite
    · intro hno
      apply (gate_within (P := fun w => Recoverable policy admin config live b₀ ∧
        LeaseRevoked config w.broker)).mono
      · intro w hw
        refine ⟨hw.1, ?_⟩
        rw [← hw.2]
        simpa using hno
      · intro _ w ⟨v, hv, hb⟩
        rw [hb]
        exact hv
      · exact fun _ _ h => h
    · exact fun _ => Within.pure' (fun _ hw => hw.1)
  apply Within.bind_sub (a := 30) (Q := fun e w => Recoverable policy admin config live b₀ ∧
    LeaseRevoked config w.broker ∧ e = none ∨
    ¬Recoverable policy admin config live b₀ ∧ e.isNone = false) ?_ ?_ (by omega)
  · exact (failureOf_within (S := fun e w => Recoverable policy admin config live b₀ ∧
      LeaseRevoked config w.broker ∧ e = none ∨
      ¬Recoverable policy admin config live b₀ ∧ e.isNone = false)
      (hrevoke.pre (fun _ hw => hw.1)) (fun _ h => .inl ⟨h.1, h.2, rfl⟩)
      (fun _ _ h => .inr ⟨h, rfl⟩)).mono (fun _ h => h) (fun _ _ h => h)
      (fun _ _ h => h.elim (fun h => by cases h.2.2) (fun h => h.1))
  intro revocation
  cases revocation with
  | none =>
    exact require_within (fun _ _ => rfl)
      (fun _ hw => hw.elim (fun h => ⟨h.1, h.2.1⟩) (fun h => by cases h.2))
  | some e =>
    exact require_decided (fun h => by cases h)
      (fun _ _ hw => hw.elim (fun h => by cases h.2.2) (fun h => h.1))

theorem validateConfig_within (hacc : config.accepted uid = true) :
    Within (Working admin token live) 0 P (validateConfig uid config) (fun _ => P) E := by
  simp only [Config.accepted, Bool.and_eq_true] at hacc
  obtain ⟨⟨⟨⟨⟨h₁, h₂⟩, h₃⟩, h₄⟩, h₅⟩, h₆⟩ := hacc
  have hpass : ∀ {c : Bool} {reason : String} {code : Nat}, c = true →
      Within (Working admin token live) 0 P (require c reason code : Cmd Unit) (fun _ => P) E :=
    fun hc => require_within (fun _ _ => hc) (fun _ h => h)
  apply Within.bind_sub (a := 0) (hpass h₁) (fun _ => ?_) (by omega)
  apply Within.bind_sub (a := 0) (hpass (by simpa using h₂)) (fun _ => ?_) (by omega)
  apply Within.bind_sub (a := 0) (hpass (by simpa using h₃)) (fun _ => ?_) (by omega)
  apply Within.bind_sub (a := 0) (hpass h₄) (fun _ => ?_) (by omega)
  apply Within.bind_sub (a := 0) (hpass (by simpa using h₅)) (fun _ => ?_) (by omega)
  exact hpass h₆

theorem candidate_within {fingerprint : String} :
    Within (Working admin token live) 1 (fun w => P w ∧ w.candidate = some fingerprint) candidate
      (fun f w => P w ∧ f = fingerprint) E := by
  apply Within.bind_sub (a := 1) peek_within ?_ (by omega)
  intro found
  apply Within.given (fun w hw => hw.2.trans hw.1.2)
  intro hf
  subst hf
  exact Within.pure' (fun _ hw => ⟨hw.1.1, rfl⟩)

/-- A cleanup of an interrupted run that had journaled its lease. -/
theorem cleanupOnly_within {w : World} {s : State} {lease : Lease} (hguest : Restores guest)
    (hw : Kept policy admin config uid w) (hs : w.journal = some s) (hl : s.lease = some lease) :
    Within (Working admin (w.broker.probeToken admin config.lease) live) 33 (fun v => v = w)
      (cleanupOnly guest policy admin config uid)
      (fun a v => Recoverable policy admin config live w.broker ∧
        a = .credentialCleanupComplete ∧ LeaseRevoked config v.broker)
      (fun _ _ => ¬Recoverable policy admin config live w.broker) := by
  have hbound := hw.journal s hs
  unfold cleanupOnly
  apply Within.bind_sub (a := 0) (validateConfig_within hbound.accepted) ?_ (by omega)
  intro _
  apply Within.bind_sub (a := 1) ((candidate_within (P := fun v => v = w)).pre
    (fun v hv => ⟨hv, by rw [hv]; exact hbound.candidate⟩)) ?_ (by omega)
  intro fingerprint
  apply Within.given (fun _ hv => hv.2)
  intro hfingerprint
  subst hfingerprint
  apply Within.bind_sub (a := 1) peek_within ?_ (by omega)
  intro journal
  apply Within.given (fun v hv => (hv.2.trans (by rw [hv.1.1]; exact hs) : journal = some s))
  intro hjournal
  subst hjournal
  simp only [hl]
  apply Within.bind_sub (a := 0) (Q := fun _ v => v = w) ?_ ?_ (by omega)
  · exact require_within (fun _ _ => by simp [hbound.run]) (fun _ hv => hv.1.1)
  intro _
  have hlease := hbound.lease lease hl
  subst hlease
  apply Within.bind_sub (a := 0) (Q := fun _ v => v = w) ?_ ?_ (by omega)
  · exact require_within (fun _ _ => by simp) (fun _ hv => hv)
  intro _
  refine Within.bind_sub (a := 0) (Q := fun _ v => v.broker = w.broker)
    (Within.update (f := fun w : World => { w with state := s, leaseAttempted := true })
      (fun v hv => by rw [hv])) (fun _ => ?_) (by omega)
  apply Within.bind_sub (a := 31) (cleanup_within hguest hbound.accepted hw.served) ?_ (by omega)
  exact fun _ => Within.pure' (fun _ hv => ⟨hv.1, rfl, hv.2⟩)

end Good

def sampleConfig : Config where
  certifierUid := 1000
  runId := "0123456789abcdef0123456789abcdef0123456789abcdef0123456789abcdef"
  kernel := "6.17"
  paths := ["/srv/candidate"]

/-- A guest that refuses what it has to refuse. -/
def sampleGuest (action : String) (values : List (String × Json)) (_ : Moment) :
    Except String Json :=
  match action, values with
  | "status", [] => .ok (.obj [("stage", .str "new")])
  | "status", [("run_id", _)] => .error "invalid-lab-run"
  | "status", _ => .error "unexpected-lab-fields"
  | "stage", [] => .ok (.obj [("artifact_fingerprint", .str "fingerprint")])
  | "stage", _ => .error "candidate-member-hash-mismatch"
  | "credential", [("key", .str "synthetic-not-a-key")] => .error "credential-stage-mismatch"
  | "deploy", _ => .error "release-needs-recovery"
  | "lock-probe", _ => .ok (.obj [("stage", .str "lock-rejected")])
  | "snapshot", _ => .ok (.obj [("snapshot_sha256", .str "sha256")])
  | "backup", _ => .ok (.obj [("sha256", .str "sha256")])
  | "backup-verified", (_, .str snapshot) :: _ =>
    if snapshot = "snapshot" then .ok (.obj []) else .error "backup-digest-mismatch"
  | _, _ => .ok (.obj [])

theorem sampleGuest_restores : Restores sampleGuest := fun _ _ => ⟨_, rfl⟩

def sampleMoment : Moment := { provider := provider { status := 401 }, text := "snapshot" }

/-- The run of `sampleConfig` after `n` answers. -/
def sampleRun (n : Nat) : World :=
  (certify sampleGuest testPolicy "sk-admin" sampleConfig 1000).after (List.replicate n sampleMoment)
    (World.fresh (some "fingerprint") (Broker.serveAll testPolicy "sk-admin" .empty []))

theorem sampleRun_reached (n : Nat) :
    Reached sampleGuest testPolicy "sk-admin" sampleConfig 1000 (sampleRun n) :=
  .certify (.fresh _ []) _

theorem working_sampleMoment : Working "sk-admin" (some "sk-1") true sampleMoment where
  done := rfl
  deletes := fun _ _ => ⟨_, rfl, rfl⟩
  gone := fun h => by cases h
  refuses := fun _ _ _ => rfl
  accepts := fun h => absurd h (by decide)

theorem sampleRun_journal (n : Nat) (hn : n = 20 ∨ n = 30) : ∃ s, (sampleRun n).journal = some s ∧
    s.lease = some sampleConfig.lease := by
  have hlease : ((sampleRun n).journal.bind (·.lease)) = some sampleConfig.lease := by
    cases hn with
    | inl h => subst h; decide +kernel
    | inr h => subst h; decide +kernel
  exact Option.bind_eq_some_iff.mp hlease

end Hermes.Certification

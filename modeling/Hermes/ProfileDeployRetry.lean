import Hermes.Library.Computation
import Hermes.ProfileDeploy

/- Whether an `apply` that nothing disturbs brings a guest to the state that is asked for.

   Whether a service is restarted is decided by what this run changes. So a run that finds
   everything on disk as it should be, because an earlier one failed after it had written it,
   leaves a service alone that was started before (`converges_iff`). -/
namespace Hermes.ProfileDeploy
open Process

/-- Every operation that can succeed does. -/
def Good (m : Moment) : Prop := m.verdict = .done

theorem good_default : Good {} := rfl

/-! ## The operations -/

section Rules

variable {κ α β : Type} {g g' : Guest κ}

theorem yields_ask (v : Guest κ → Bool) : Yields Good (ask v) g (v g) g := by
  refine ⟨1, Within.perform ?_⟩
  intro m u hm hu r u' hr
  have hdone : m.verdict = .done := hm
  simp only [hdone, reduceCtorEq, if_false, decide_true, Bool.true_and] at hr
  cases hr
  simp [hu]

theorem yields_query {can : Guest κ → Bool} (v : Guest κ → α) (hc : can g = true) :
    Yields Good (query can fun _ g => v g) g (v g) g := by
  refine ⟨1, run_within (fun _ h => h) (fun _ u _ hu _ => by simp [hu]) fun u hu hno => ?_⟩
  rw [hu, hc] at hno
  cases hno

theorem yields_act (e : Guest κ → Guest κ) : Yields Good (act e) g () (e g) :=
  ⟨1, run_within (fun _ h => h) (fun _ u _ hu _ => by simp [hu]) fun _ _ hno => nomatch hno⟩

theorem yields_check (what : String) : Yields Good (check what) g () g := yields_act id

theorem yields_atomic (e : Guest κ → Guest κ) : Yields Good (atomic fun _ => e) g () (e g) :=
  ⟨1, atomic_within (fun _ h => h) fun _ u _ hu => by simp [hu]⟩

theorem yields_refuse {c : Bool} {reason : String} (hc : c = false) : Yields Good (refuse c reason) g () g :=
  ⟨0, require_within (fun _ _ => by simp [hc]) fun _ hu => ⟨rfl, hu⟩⟩

theorem fails_refuse {c : Bool} {reason : String} (hc : c = true) : Fails Good (refuse c reason) g := by
  refine ⟨0, require_decided (fun h => ?_) fun _ _ _ => trivial⟩
  simp [hc] at h

theorem yields_lockFile : Yields Good (lockFile : Task (Guest κ) Unit) g () g := by
  refine ⟨1, Within.perform ?_⟩
  intro m u hm hu r u' hr
  rw [if_pos (show m.verdict = .done from hm)] at hr
  cases hr
  exact ⟨rfl, hu⟩

theorem yields_onlyIf {x : Task (Guest κ) Unit} {c : Bool} (hx : c = true → Yields Good x g () g')
    (hn : c = false → g' = g) : Yields Good (onlyIf c x) g () g' := by
  cases c
  · rw [hn rfl]
    exact Yields.pure'
  · exact hx rfl

/-- A change that is only made where it is one. -/
theorem yields_unless {c : Bool} {e : Guest κ → Guest κ} (h : c = true → e g = g) :
    Yields Good (onlyIf (!c) (act e)) g () (e g) := by
  refine yields_onlyIf (fun _ => yields_act e) fun hc => h ?_
  simpa using hc

theorem yields_orAll_nil : Yields Good (orAll ([] : List (Task (Guest κ) Bool))) g false g := Yields.pure'

theorem yields_orAll_cons {x : Task (Guest κ) Bool} {xs : List (Task (Guest κ) Bool)} {a b : Bool} {g'' : Guest κ}
    (hx : Yields Good x g a g') (hxs : Yields Good (orAll xs) g' b g'') :
    Yields Good (orAll (x :: xs)) g (a || b) g'' :=
  hx.bind (hxs.bind Yields.pure')

theorem fails_orAll {x : Task (Guest κ) Bool} {xs : List (Task (Guest κ) Bool)} (hx : Fails Good x g) :
    Fails Good (orAll (x :: xs)) g := hx.bind

theorem fails_orAll_cons {x : Task (Guest κ) Bool} {xs : List (Task (Guest κ) Bool)} {a : Bool}
    (hx : Yields Good x g a g') (hxs : Fails Good (orAll xs) g') : Fails Good (orAll (x :: xs)) g :=
  Fails.after hx hxs.bind

end Rules

section Retry

variable {κ : Type} {i : Inputs} {g : Guest κ}

/-! ## `prepare` -/

theorem yields_ensureUser : Yields Good ensureUser g () { g with user := true } := by
  have huser : Yields Good (onlyIf (!g.user) (act fun g => { g with user := true })) g () { g with user := true } :=
    yields_unless fun h => by rw [← h]
  exact Yields.read.bind (huser.bind ((yields_check _).bind ((yields_check _).bind (yields_check _))))

/-- The images after the gateway's has been pulled. -/
def pulled (i : Inputs) (g : Guest κ) : List String :=
  if g.images.contains i.pinnedGateway then g.images else i.pinnedGateway :: g.images

/-- The worker image is to be built. -/
def mustBuild (i : Inputs) (g : Guest κ) : Bool :=
  i.workerId.isNone && (g.stamp ≠ some i.sourceHash || !(pulled i g).contains workerImage)

/-- A retained worker image is there. -/
def retains (i : Inputs) (g : Guest κ) : Bool := i.workerId.all fun w => (pulled i g).contains w

/-- What `prepare` makes of the guest. -/
def Guest.prepared (i : Inputs) (g : Guest κ) : Guest κ :=
  { g with
    packages := true
    user := true
    images := if mustBuild i g then workerImage :: pulled i g else pulled i g
    stamp := if mustBuild i g then some i.sourceHash else g.stamp }

/-- What `prepare` returns. -/
def prepares (i : Inputs) (g : Guest κ) : Bool :=
  !g.packages || !g.images.contains i.pinnedGateway || mustBuild i g

/-- The guest before the worker image is looked for. -/
def Guest.installed (i : Inputs) (g : Guest κ) : Guest κ :=
  { g with packages := true, user := true, images := pulled i g }

theorem yields_preparePackages :
    Yields Good (preparePackages i) g (!g.packages || !g.images.contains i.pinnedGateway) (g.installed i) := by
  have hpackages : Yields Good (onlyIf (!g.packages) (act fun g => { g with packages := true })) g ()
      { g with packages := true } := yields_unless fun h => by rw [← h]
  have hpull : Yields Good (onlyIf (!g.images.contains i.pinnedGateway)
      (act fun g => { g with images := i.pinnedGateway :: g.images })) { g with packages := true, user := true } ()
      (g.installed i) := by
    refine yields_onlyIf (fun hc => ?_) fun hc => ?_
    · have hp : pulled i g = i.pinnedGateway :: g.images := by simp_all [pulled]
      rw [Guest.installed, hp]
      exact yields_act _
    · have hp : pulled i g = g.images := by simp_all [pulled]
      rw [Guest.installed, hp]
  exact (yields_ask _).bind (hpackages.bind (yields_ensureUser.bind ((yields_ask _).bind (hpull.bind Yields.pure'))))

theorem yields_buildWorker (changed : Bool) (hw : i.workerId = none) :
    Yields Good (buildWorker i.sourceHash changed) (g.installed i) (changed || mustBuild i g) (g.prepared i) := by
  have hmust : mustBuild i g = (g.stamp ≠ some i.sourceHash || !(pulled i g).contains workerImage : Bool) := by
    simp [mustBuild, hw]
  refine Yields.read.bind ((yields_ask _).bind ?_)
  by_cases hb : mustBuild i g = true
  · have hc : (g.installed i).stamp ≠ some i.sourceHash ∨ (g.installed i).images.contains workerImage = false := by
      rw [hmust] at hb
      simpa [Guest.installed] using hb
    rw [if_pos hc, hb, Bool.or_true, Guest.prepared, hb]
    exact (yields_act _).bind ((yields_atomic _).bind Yields.pure')
  · have hc : ¬((g.installed i).stamp ≠ some i.sourceHash ∨ (g.installed i).images.contains workerImage = false) := by
      rw [hmust] at hb
      simpa [Guest.installed] using hb
    have hno : mustBuild i g = false := by simpa using hb
    rw [if_neg hc, hno, Bool.or_false, Guest.prepared, hno]
    exact Yields.pure'

theorem yields_prepare (h : retains i g = true) : Yields Good (prepare i) g (prepares i g) (g.prepared i) := by
  refine yields_preparePackages.bind ?_
  cases hw : i.workerId with
  | some w =>
    have hno : mustBuild i g = false := by simp [mustBuild, hw]
    have hc : (pulled i g).contains w = true := by simpa [retains, hw] using h
    rw [prepares, hno, Bool.or_false, Guest.prepared, hno]
    have hask : Yields Good (ask fun g => g.images.contains w) (g.installed i) true (g.installed i) := by
      rw [← hc]
      exact yields_ask _
    exact hask.bind ((yields_refuse rfl).bind Yields.pure')
  | none => exact yields_buildWorker _ hw

theorem fails_prepare (h : retains i g = false) : Fails Good (prepare i) g := by
  refine Fails.after yields_preparePackages ?_
  cases hw : i.workerId with
  | some w =>
    have hc : (pulled i g).contains w = false := by simpa [retains, hw] using h
    have hask : Yields Good (ask fun g => g.images.contains w) (g.installed i) false (g.installed i) := by
      rw [← hc]
      exact yields_ask _
    exact Fails.after hask (Fails.bind (fails_refuse rfl))
  | none => simp [retains, hw] at h

/-! ## `ensure_instance` -/

theorem yields_ensureDirectory (d : Directory) :
    Yields Good (ensureDirectory d) g (!g.directories d)
      { g with directories := Function.update g.directories d true } := by
  apply Yields.read.bind
  cases hd : g.directories d with
  | true =>
    have hsame : Function.update g.directories d true = g.directories := by
      rw [← hd]
      exact Function.update_eq_self d g.directories
    rw [hsame]
    exact Yields.pure'
  | false => exact (yields_atomic _).bind Yields.pure'

theorem yields_directories (ds : List Directory) :
    Yields Good (orAll (ds.map ensureDirectory)) g (ds.any fun d => !g.directories d)
      { g with directories := fun d => decide (d ∈ ds) || g.directories d } := by
  induction ds generalizing g with
  | nil => simpa using yields_orAll_nil
  | cons d ds ih =>
    have h := yields_orAll_cons (yields_ensureDirectory d) (ih (g := { g with directories := Function.update g.directories d true }))
    have hflag : (!g.directories d || ds.any fun e => !Function.update g.directories d true e) =
        (d :: ds).any fun e => !g.directories e := by
      cases hd : g.directories d with
      | false => simp [hd]
      | true =>
        rw [← hd, Function.update_eq_self]
        simp [hd]
    have hafter : (fun e => decide (e ∈ ds) || Function.update g.directories d true e) =
        fun e => decide (e ∈ d :: ds) || g.directories e := by
      funext e
      by_cases he : e = d <;> simp [he]
    rw [hflag, hafter] at h
    exact h

theorem yields_writeFile (f : File) (content : String) :
    Yields Good (writeFile f content) g (decide (g.files f ≠ some content))
      { g with files := Function.update g.files f (some content) } := by
  apply Yields.read.bind
  by_cases hf : g.files f = some content
  · have hsame : Function.update g.files f (some content) = g.files := by
      rw [← hf]
      exact Function.update_eq_self f g.files
    rw [if_pos hf, hsame, decide_eq_false (not_not.mpr hf)]
    exact Yields.pure'
  · rw [if_neg hf, decide_eq_true hf]
    exact (yields_atomic _).bind Yields.pure'

/-- The files with those of the repository that are in the list. -/
def copied (content : Source → String) (ss : List Source) (files : File → Option String) : File → Option String
  | .copy s => if s ∈ ss then some (content s) else files (.copy s)
  | f => files f

theorem copied_nil (content : Source → String) (files : File → Option String) : copied content [] files = files := by
  funext f
  cases f <;> simp [copied]

theorem copied_cons (content : Source → String) (s : Source) (ss : List Source) (files : File → Option String) :
    copied content ss (Function.update files (.copy s) (some (content s))) = copied content (s :: ss) files := by
  funext f
  cases f with
  | copy t =>
    by_cases ht : t = s
    · simp [copied, ht]
    · simp [copied, ht]
  | _ => simp [copied]

theorem yields_copies (content : Source → String) (ss : List Source) :
    Yields Good (orAll (ss.map fun s => writeFile (.copy s) (content s))) g
      (ss.any fun s => decide (g.files (.copy s) ≠ some (content s))) { g with files := copied content ss g.files } := by
  induction ss generalizing g with
  | nil =>
    rw [copied_nil]
    exact yields_orAll_nil
  | cons s ss ih =>
    have h := yields_orAll_cons (yields_writeFile (.copy s) (content s))
      (ih (g := { g with files := Function.update g.files (.copy s) (some (content s)) }))
    have hflag : (decide (g.files (.copy s) ≠ some (content s)) || ss.any fun t =>
        decide (Function.update g.files (.copy s) (some (content s)) (.copy t) ≠ some (content t))) =
        (s :: ss).any fun t => decide (g.files (.copy t) ≠ some (content t)) := by
      by_cases hs : g.files (.copy s) = some (content s)
      · rw [← hs, Function.update_eq_self]
        simp [hs]
      · simp [hs]
    rw [hflag, copied_cons] at h
    exact h

/-- The public key of a pair that is there or will be made. -/
def publicOf (i : Inputs) (g : Guest κ) (k : KeyName) : String :=
  match g.keys k with
  | .pair pub => pub
  | _ => i.newKey k

def Key.isAbsent : Key → Bool
  | .absent => true
  | _ => false

theorem yields_keypair {k : KeyName} (h : g.keys k ≠ .incomplete) :
    Yields Good (keypair k (i.newKey k)) g (g.keys k).isAbsent
      { g with keys := Function.update g.keys k (.pair (publicOf i g k)) } := by
  apply Yields.read.bind
  cases hk : g.keys k with
  | absent =>
    have hgen : Yields Good (keygen k (i.newKey k)) g ()
        { g with keys := Function.update g.keys k (.pair (i.newKey k)) } := by
      refine ⟨1, Within.perform ?_⟩
      intro m u hm hu r u' hr
      rw [if_pos (show m.verdict = .done from hm)] at hr
      cases hr
      simp [hu]
    rw [publicOf, hk]
    exact hgen.bind Yields.pure'
  | incomplete => exact absurd hk h
  | pair pub =>
    have hsame : Function.update g.keys k (.pair pub) = g.keys := by
      rw [← hk]
      exact Function.update_eq_self k g.keys
    rw [publicOf, hk, hsame]
    exact Yields.pure'

theorem fails_keypair {k : KeyName} (h : g.keys k = .incomplete) : Fails Good (keypair k (i.newKey k)) g := by
  refine Fails.after Yields.read ?_
  rw [h]
  exact Fails.raise

/-- No pair of keys lacks a file. -/
def keysWhole (g : Guest κ) : Bool := g.keys .client != .incomplete && g.keys .host != .incomplete

/-- What pins the keys has not been made for others. -/
def pinsMatch (i : Inputs) (g : Guest κ) : Bool :=
  (g.files .authorized).all (· == publicOf i g .client) && (g.files .known).all (· == "worker " ++ publicOf i g .host)

/-- The guest when its identity is complete. -/
def Guest.identified (i : Inputs) (g : Guest κ) : Guest κ :=
  { g with
    directories := fun _ => true
    keys := fun k => .pair (publicOf i g k)
    files := Function.update (Function.update g.files .authorized (some (publicOf i g .client))) .known
      (some ("worker " ++ publicOf i g .host)) }

/-- Something of the identity is to be made. -/
def identityMissing (i : Inputs) (g : Guest κ) : Bool :=
  (directories.any fun d => !g.directories d) || ((g.keys .client).isAbsent || (g.keys .host).isAbsent) ||
    decide (g.files .authorized ≠ some (publicOf i g .client)) ||
    decide (g.files .known ≠ some ("worker " ++ publicOf i g .host))

theorem yields_made : Yields Good (orAll (directories.map ensureDirectory)) g
    (directories.any fun d => !g.directories d) { g with directories := fun _ => true } := by
  have hall : (fun d => decide (d ∈ directories) || g.directories d) = fun _ => true := by
    funext d
    cases d <;> simp [directories]
  rw [← hall]
  exact yields_directories directories

theorem yields_generated (h : keysWhole g = true) :
    Yields Good (orAll [keypair .client (i.newKey .client), keypair .host (i.newKey .host)]) g
      ((g.keys .client).isAbsent || (g.keys .host).isAbsent) { g with keys := fun k => .pair (publicOf i g k) } := by
  obtain ⟨hclient, hhost⟩ : g.keys .client ≠ .incomplete ∧ g.keys .host ≠ .incomplete := by
    simpa [keysWhole] using h
  have hfirst := yields_keypair (i := i) hclient
  have hsecond := yields_keypair (i := i) (k := .host)
    (g := { g with keys := Function.update g.keys .client (.pair (publicOf i g .client)) }) (by simpa using hhost)
  have hkeys : Function.update (Function.update g.keys .client (.pair (publicOf i g .client))) .host
      (.pair (publicOf i g .host)) = fun k => .pair (publicOf i g k) := by
    funext k
    cases k <;> simp
  have hpub : publicOf i { g with keys := Function.update g.keys .client (.pair (publicOf i g .client)) } .host =
      publicOf i g .host := rfl
  rw [hpub] at hsecond
  have hall := yields_orAll_cons hfirst (yields_orAll_cons hsecond yields_orAll_nil)
  rw [hkeys, Bool.or_false] at hall
  exact hall

theorem fails_generated (h : keysWhole g = false) :
    Fails Good (orAll [keypair .client (i.newKey .client), keypair .host (i.newKey .host)]) g := by
  by_cases hclient : g.keys .client = .incomplete
  · exact fails_orAll (fails_keypair hclient)
  · have hhost : g.keys .host = .incomplete := by simpa [keysWhole, hclient] using h
    refine fails_orAll_cons (yields_keypair hclient) (fails_orAll (fails_keypair ?_))
    simpa using hhost

theorem yields_publicKey {k : KeyName} {pub : String} (h : g.keys k = .pair pub) :
    Yields Good (publicKey k) g pub g := by
  apply Yields.read.bind
  rw [h]
  exact Yields.pure'

theorem yields_ensureIdentity (hkeys : keysWhole g = true) (hpins : pinsMatch i g = true) :
    Yields Good (ensureIdentity i) g (identityMissing i g) (g.identified i) := by
  obtain ⟨hauthorized, hknown⟩ := Bool.and_eq_true_iff.mp hpins
  refine yields_made.bind ((yields_generated (i := i) (g := { g with directories := fun _ => true }) hkeys).bind ?_)
  refine (yields_publicKey rfl).bind ((yields_publicKey rfl).bind (Yields.read.bind ?_))
  have hno : (g.files .authorized).any (· ≠ publicOf i g .client) = false := by
    cases hf : g.files .authorized <;> simp_all
  have hno' : (g.files .known).any (· ≠ "worker " ++ publicOf i g .host) = false := by
    cases hf : g.files .known <;> simp_all
  refine (yields_refuse hno).bind ((yields_refuse hno').bind ?_)
  refine (yields_writeFile .authorized _).bind ((yields_writeFile .known _).bind ?_)
  exact Yields.pure'

theorem fails_ensureIdentity (h : keysWhole g = false ∨ pinsMatch i g = false) : Fails Good (ensureIdentity i) g := by
  refine Fails.after yields_made ?_
  cases hkeys : keysWhole g with
  | false => exact Fails.bind (fails_generated hkeys)
  | true =>
    have hpins : pinsMatch i g = false := by simpa [hkeys] using h
    refine Fails.after (yields_generated (i := i) (g := { g with directories := fun _ => true }) hkeys) ?_
    refine Fails.after (yields_publicKey rfl) (Fails.after (yields_publicKey rfl) (Fails.after Yields.read ?_))
    cases ha : (g.files .authorized).any (· ≠ publicOf i g .client) with
    | true => exact Fails.bind (fails_refuse ha)
    | false =>
      have hk : (g.files .known).any (· ≠ "worker " ++ publicOf i g .host) = true := by
        cases hf : g.files .authorized <;> cases hk : g.files .known <;> simp_all [pinsMatch]
      exact Fails.after (yields_refuse ha) (Fails.bind (fails_refuse hk))

/-! ### The environment -/

/-- The environment that is there suits the mode. -/
def envAccepted (i : Inputs) (g : Guest κ) : Bool :=
  if i.mode = .synthetic then g.env.all acceptsSynthetic
  else g.tmpfs && !g.swap && (g.env.isSome && g.envPrivate) && acceptsLive (g.env.getD [])

/-- The synthetic environment is to be written. -/
def envMissing (i : Inputs) (g : Guest κ) : Bool := decide (i.mode = .synthetic) && g.env.isNone

def Guest.withEnv (i : Inputs) (g : Guest κ) : Guest κ :=
  if envMissing i g then { g with env := some [syntheticLine], envPrivate := true } else g

theorem yields_env (h : envAccepted i g = true) :
    Yields Good (ensureEnv i.mode) g (envMissing i g) (g.withEnv i) := by
  unfold ensureEnv
  by_cases hm : i.mode = .synthetic
  · rw [if_pos hm]
    apply Yields.read.bind
    cases he : g.env with
    | none =>
      have hmiss : envMissing i g = true := by simp [envMissing, hm, he]
      rw [Guest.withEnv, hmiss]
      exact (yields_atomic _).bind ((yields_check _).bind Yields.pure')
    | some lines =>
      have hmiss : envMissing i g = false := by simp [envMissing, he]
      have hok : acceptsSynthetic lines = true := by simpa [envAccepted, hm, he] using h
      rw [Guest.withEnv, hmiss]
      exact (yields_refuse (by simp [hok])).bind Yields.pure'
  · have hmiss : envMissing i g = false := by simp [envMissing, hm]
    have hall : ((g.tmpfs = true ∧ g.swap = false) ∧ g.env.isSome = true ∧ g.envPrivate = true) ∧
        acceptsLive (g.env.getD []) = true := by
      simpa [envAccepted, hm] using h
    obtain ⟨⟨⟨htmpfs, hswap⟩, hsome, hprivate⟩, hlive⟩ := hall
    rw [if_neg hm, Guest.withEnv, hmiss]
    refine (yields_query _ rfl).bind ((yields_refuse (by simp [htmpfs])).bind ?_)
    refine (yields_query _ rfl).bind ((yields_refuse hswap).bind (Yields.read.bind ?_))
    refine (yields_refuse (by simp [hsome, hprivate])).bind ((yields_refuse (by simp [hlive])).bind ?_)
    exact (yields_check _).bind Yields.pure'

theorem fails_env (h : envAccepted i g = false) :
    Fails Good (ensureEnv i.mode) g := by
  unfold ensureEnv
  by_cases hm : i.mode = .synthetic
  · rw [if_pos hm]
    apply Fails.after Yields.read
    cases he : g.env with
    | none => simp [envAccepted, hm, he] at h
    | some lines =>
      have hno : acceptsSynthetic lines = false := by simpa [envAccepted, hm, he] using h
      exact Fails.bind (fails_refuse (by simp [hno]))
  · rw [if_neg hm]
    refine Fails.after (yields_query _ rfl) ?_
    cases htmpfs : g.tmpfs with
    | false => exact Fails.bind (fails_refuse rfl)
    | true =>
      refine Fails.after (yields_refuse rfl) (Fails.after (yields_query _ rfl) ?_)
      cases hswap : g.swap with
      | true => exact Fails.bind (fails_refuse rfl)
      | false =>
        refine Fails.after (yields_refuse rfl) (Fails.after Yields.read ?_)
        cases hprivate : g.env.isSome && g.envPrivate with
        | false => exact Fails.bind (fails_refuse rfl)
        | true =>
          have hlive : acceptsLive (g.env.getD []) = false := by
            simpa [envAccepted, hm, htmpfs, hswap, hprivate] using h
          exact Fails.after (yields_refuse rfl) (Fails.bind (fails_refuse (by simp [hlive])))

/-! ### The whole instance -/

/-- `ensure_instance` refuses nothing. -/
def instanceAccepted (i : Inputs) (g : Guest κ) : Bool := keysWhole g && pinsMatch i g && envAccepted i g

/-- `ensure_instance` has something to do. -/
def instanceMissing (i : Inputs) (g : Guest κ) : Bool :=
  identityMissing i g || (sources.any fun s => decide (g.files (.copy s) ≠ some (i.source s))) || envMissing i g

/-- The files as they should be. -/
def wantedFile (i : Inputs) (g : Guest κ) : File → String
  | .authorized => publicOf i g .client
  | .known => "worker " ++ publicOf i g .host
  | .copy s => i.source s

def Guest.instanced (i : Inputs) (g : Guest κ) : Guest κ :=
  Guest.withEnv i { g.identified i with files := fun f => some (wantedFile i g f) }

theorem copied_wanted : copied i.source sources (g.identified i).files = fun f => some (wantedFile i g f) := by
  funext f
  cases f with
  | copy s => cases s <;> simp [copied, sources, wantedFile]
  | authorized => simp [copied, wantedFile, Guest.identified]
  | known => simp [copied, wantedFile, Guest.identified]

theorem copies_missing : (sources.any fun s => decide ((g.identified i).files (.copy s) ≠ some (i.source s))) =
    sources.any fun s => decide (g.files (.copy s) ≠ some (i.source s)) := by
  have hsame : ∀ s, (g.identified i).files (.copy s) = g.files (.copy s) := fun s => by simp [Guest.identified]
  simp only [hsame]

theorem yields_copied : Yields Good (orAll (sources.map fun s => writeFile (.copy s) (i.source s))) (g.identified i)
    (sources.any fun s => decide (g.files (.copy s) ≠ some (i.source s)))
    { g.identified i with files := fun f => some (wantedFile i g f) } := by
  rw [← copied_wanted, ← copies_missing]
  exact yields_copies i.source sources

theorem yields_ensureInstance (h : instanceAccepted i g = true) :
    Yields Good (ensureInstance i) g (instanceMissing i g) (g.instanced i) := by
  obtain ⟨hid, henv⟩ := Bool.and_eq_true_iff.mp h
  obtain ⟨hkeys, hpins⟩ := Bool.and_eq_true_iff.mp hid
  refine (yields_ensureIdentity hkeys hpins).bind (yields_copied.bind ?_)
  refine (yields_check _).bind ((yields_check _).bind ?_)
  have hyields : Yields Good (ensureEnv i.mode)
      { g.identified i with files := fun f => some (wantedFile i g f) } (envMissing i g) (g.instanced i) :=
    yields_env (g := { g.identified i with files := fun f => some (wantedFile i g f) }) henv
  exact hyields.bind Yields.pure'

theorem fails_ensureInstance (h : instanceAccepted i g = false) : Fails Good (ensureInstance i) g := by
  by_cases hid : keysWhole g = false ∨ pinsMatch i g = false
  · exact Fails.bind (fails_ensureIdentity hid)
  · have hkeys : keysWhole g = true := by simpa using fun hk => hid (Or.inl hk)
    have hpins : pinsMatch i g = true := by simpa using fun hp => hid (Or.inr hp)
    have henv : envAccepted i g = false := by simpa [instanceAccepted, hkeys, hpins] using h
    refine Fails.after (yields_ensureIdentity hkeys hpins) (Fails.after yields_copied ?_)
    refine Fails.after (yields_check _) (Fails.after (yields_check _) (Fails.bind ?_))
    exact fails_env (g := { g.identified i with files := fun f => some (wantedFile i g f) }) henv

/-! ## Configuration and quadlets -/

variable {a : Application κ}

theorem yields_andThen {x : Task (Guest κ) Bool} {c b : Bool} (hx : c = true → Yields Good x g b g) :
    Yields Good (andThen c x) g (c && b) g := by
  cases c
  · exact Yields.pure'
  · exact hx rfl

theorem yields_active (c : Container) : Yields Good (active c) g (g.service c).isSome g := yields_ask _

/-- What `config_current` says. -/
def isCurrent (a : Application κ) (model : String) (g : Guest κ) : Bool :=
  ((g.service .gateway).isSome && a.runtimeCheck g.contract g.config) && a.modelCheck model g.config

theorem yields_configCurrent (model : String) : Yields Good (configCurrent a model) g (isCurrent a model g) g :=
  (yields_active .gateway).bind ((yields_andThen fun _ => yields_ask _).bind (yields_andThen fun _ => yields_ask _))

def Guest.configured (a : Application κ) (model : String) (g : Guest κ) : Guest κ :=
  { g with config := a.harden g.contract (a.loadConfig (a.setModel model (a.harden g.contract g.config))) }

theorem yields_configure (model : String) : Yields Good (configure a model) g () (g.configured a model) :=
  (yields_act _).bind ((yields_act _).bind ((yields_act _).bind (yields_act _)))

/-- A quadlet on disk is not what it should be. -/
def unitsDiffer (i : Inputs) (g : Guest κ) : Bool :=
  decide (g.quadlets .worker ≠ some (i.quadlet .worker)) || decide (g.quadlets .gateway ≠ some (i.quadlet .gateway))

def Guest.reloaded (i : Inputs) (g : Guest κ) : Guest κ :=
  { g with quadlets := fun c => some (i.quadlet c), loaded := fun c => some (i.quadlet c) }

theorem yields_writeQuadlet (c : Container) :
    Yields Good (writeQuadlet i c) g (decide (g.quadlets c ≠ some (i.quadlet c)))
      { g with quadlets := Function.update g.quadlets c (some (i.quadlet c)) } := by
  apply Yields.read.bind
  by_cases hf : g.quadlets c = some (i.quadlet c)
  · have hsame : Function.update g.quadlets c (some (i.quadlet c)) = g.quadlets := by
      rw [← hf]
      exact Function.update_eq_self c g.quadlets
    rw [if_pos hf, hsame, decide_eq_false (not_not.mpr hf)]
    exact Yields.pure'
  · rw [if_neg hf, decide_eq_true hf]
    exact (yields_atomic _).bind Yields.pure'

theorem yields_installQuadlets : Yields Good (installQuadlets i) g (unitsDiffer i g) (g.reloaded i) := by
  have hwrite : Yields Good (orAll [writeQuadlet i .worker, writeQuadlet i .gateway]) g (unitsDiffer i g)
      { g with quadlets := fun c => some (i.quadlet c) } := by
    let quadlets := Function.update g.quadlets .worker (some (i.quadlet .worker))
    have hsecond : Yields Good (writeQuadlet i .gateway) { g with quadlets }
        (decide (quadlets .gateway ≠ some (i.quadlet .gateway)))
        { g with quadlets := Function.update quadlets .gateway (some (i.quadlet .gateway)) } :=
      yields_writeQuadlet .gateway
    have hall : Function.update quadlets .gateway (some (i.quadlet .gateway)) = fun c => some (i.quadlet c) := by
      funext c
      cases c <;> simp [quadlets]
    have hne : quadlets .gateway = g.quadlets .gateway := by simp [quadlets]
    rw [hall, hne] at hsecond
    have h := yields_orAll_cons (yields_writeQuadlet (i := i) (g := g) .worker)
      (yields_orAll_cons hsecond yields_orAll_nil)
    rw [Bool.or_false] at h
    exact h
  refine hwrite.bind ((yields_onlyIf (fun _ => yields_check _) fun _ => rfl).bind ?_)
  exact (yields_act _).bind Yields.pure'

theorem yields_due (changed : Bool) (c : Container) :
    Yields Good (due changed c) g (changed || !(g.service c).isSome) g := by
  cases changed
  · exact (yields_active c).bind Yields.pure'
  · exact Yields.pure'

theorem yields_restart {c : Container} (h : (g.loaded c).isSome = true) : Yields Good (restart c) g () (g.start c) := by
  refine ⟨1, Within.perform ?_⟩
  intro m u hm hu r u' hr
  rw [if_pos (show m.verdict = .done from hm), hu, if_pos h] at hr
  cases hr
  exact ⟨rfl, rfl⟩

/-! ## `verify` -/

/-- `x` changes nothing. -/
def Settled {α : Type} (x : Task (Guest κ) α) (g : Guest κ) : Prop := (∃ a, Yields Good x g a g) ∨ Fails Good x g

theorem Settled.bind {α β : Type} {x : Task (Guest κ) α} {f : α → Task (Guest κ) β} (hx : Settled x g)
    (hf : ∀ a, Settled (f a) g) : Settled (x >>= f) g := by
  rcases hx with ⟨a, ha⟩ | hno
  · rcases hf a with ⟨b, hb⟩ | hno
    · exact Or.inl ⟨b, ha.bind hb⟩
    · exact Or.inr (Fails.after ha hno)
  · exact Or.inr hno.bind

theorem settled_refuse (c : Bool) (reason : String) : Settled (refuse c reason) g := by
  cases hc : c
  · exact Or.inl ⟨(), yields_refuse rfl⟩
  · exact Or.inr (fails_refuse rfl)

theorem settled_inspect (c : Container) : Settled (inspect c) g := by
  cases hc : (g.service c).isSome with
  | true => exact Or.inl ⟨_, yields_query _ hc⟩
  | false =>
    refine Or.inr ⟨1, run_within (fun _ h => h) (fun m u _ hu hs => ?_) fun _ _ _ => trivial⟩
    rw [hu, hc] at hs
    cases hs

theorem settled_verifyNetwork (c : Container) : Settled (verifyNetwork i.mode c) g :=
  (settled_inspect c).bind fun _ => settled_refuse _ _

theorem settled_verifyLimits (p : Profile) (c : Container) : Settled (verifyLimits i p c) g := by
  refine (settled_inspect c).bind fun unit => ?_
  refine Settled.bind (Or.inl ⟨(), yields_onlyIf (fun _ => yields_check _) fun _ => rfl⟩) fun _ => ?_
  refine Settled.bind (Or.inl ⟨g, Yields.read⟩) fun _ => ?_
  exact (settled_refuse _ _).bind fun _ => settled_refuse _ _

theorem settled_verify : Settled (verify a i) g := by
  refine Settled.bind (Or.inl ⟨_, yields_active .worker⟩) fun worker => ?_
  refine Settled.bind (Or.inl ⟨_, yields_andThen fun _ => yields_active .gateway⟩) fun gateway => ?_
  refine (settled_refuse _ _).bind fun _ => (settled_verifyNetwork .worker).bind fun _ => ?_
  refine (settled_verifyNetwork .gateway).bind fun _ => (settled_inspect .worker).bind fun unit => ?_
  refine (settled_refuse _ _).bind fun _ => (settled_refuse _ _).bind fun _ => ?_
  refine Settled.bind (Or.inl ⟨(), yields_check _⟩) fun _ => ?_
  refine Settled.bind (Or.inl ⟨_, yields_configCurrent i.model⟩) fun current => (settled_refuse _ _).bind fun _ => ?_
  split
  · exact Or.inl ⟨(), Yields.pure'⟩
  · exact (settled_verifyLimits _ .gateway).bind fun _ => settled_verifyLimits _ .worker

/-! ### What is on disk passes -/

theorem network_ok (c : Container) : wrongNetwork i.mode c (i.quadlet c) = false := by
  rcases i with ⟨mode, lab, _, _, _⟩
  cases c <;> cases mode <;> cases lab <;>
    simp [wrongNetwork, expectedNetwork, Inputs.quadlet, Quadlet.networkMode, template, renderUnit]

theorem environment_ok : (i.quadlet .worker).environment.any privateNames.contains = false := by
  cases h : i.lab <;> simp [Inputs.quadlet, h, template, renderUnit]

theorem volumes_ok : (i.quadlet .worker).volumes.any gatewayPrivate.contains = false := by
  cases h : i.lab <;> simp [Inputs.quadlet, h, template, renderUnit, gatewayPrivate]

theorem image_ok {l : Lab} (hl : i.lab = some l) (c : Container) :
    (i.wantedImage c).any (fun w => g.imageId (i.quadlet c).image ≠ g.imageId w) = false := by
  cases c with
  | gateway => simp [Inputs.wantedImage, Inputs.quadlet, apply_ite Quadlet.image]
  | worker =>
    cases hw : l.workerId <;> simp [Inputs.wantedImage, Inputs.workerId, Inputs.quadlet, hl, hw, renderUnit]

theorem limits_ok {l : Lab} (hl : i.lab = some l) (c : Container) :
    (i.quadlet c).memory.bytes = (l.profile.resource c).memoryMb * 1024 * 1024 ∧
      (i.quadlet c).pidsLimit = (l.profile.resource c).pidsLimit := by
  have h : (i.quadlet c).memory = .megabytes (l.profile.resource c).memoryMb ∧
      (i.quadlet c).pidsLimit = (l.profile.resource c).pidsLimit := by
    simp only [Inputs.quadlet, hl]
    split <;> split <;> exact ⟨rfl, rfl⟩
  rw [h.1]
  exact ⟨rfl, h.2⟩

theorem yields_inspect {c : Container} {r : Running κ} (h : g.service c = some r) :
    Yields Good (inspect c) g r.unit g := by
  have hq := @yields_query _ _ g (fun g => (g.service c).isSome)
    (fun g => ((g.service c).map Running.unit).getD (template c)) (by simp [h])
  rw [h] at hq
  exact hq

theorem yields_verify {w v : Running κ} (hw : g.service .worker = some w) (hwu : w.unit = i.quadlet .worker)
    (hv : g.service .gateway = some v) (hvu : v.unit = i.quadlet .gateway)
    (hc : a.runtimeCheck g.contract g.config = true ∧ a.modelCheck i.model g.config = true) :
    Yields Good (verify a i) g () g := by
  refine (yields_active .worker).bind ((yields_andThen fun _ => yields_active .gateway).bind ?_)
  refine (yields_refuse (by simp [hw, hv])).bind ?_
  have hnet : ∀ c r, g.service c = some r → r.unit = i.quadlet c → Yields Good (verifyNetwork i.mode c) g () g := by
    intro c r hr hu
    refine (yields_inspect hr).bind (yields_refuse ?_)
    rw [hu]
    exact network_ok c
  refine (hnet .worker w hw hwu).bind ((hnet .gateway v hv hvu).bind ((yields_inspect hw).bind ?_))
  rw [hwu]
  refine (yields_refuse environment_ok).bind ((yields_refuse volumes_ok).bind ((yields_check _).bind ?_))
  refine (yields_configCurrent i.model).bind ((yields_refuse (by simp [isCurrent, hv, hc.1, hc.2])).bind ?_)
  cases hl : i.lab with
  | none => exact Yields.pure'
  | some l =>
    have hlimits : ∀ c r, g.service c = some r → r.unit = i.quadlet c →
        Yields Good (verifyLimits i l.profile c) g () g := by
      intro c r hr hu
      refine (yields_inspect hr).bind ?_
      rw [hu]
      refine (yields_onlyIf (fun _ => yields_check _) fun _ => rfl).bind (Yields.read.bind ?_)
      refine (yields_refuse (image_ok hl c)).bind (yields_refuse ?_)
      simp [limits_ok hl c]
    exact (hlimits .gateway v hv hvu).bind (hlimits .worker w hw hwu)

/-! ## `apply` -/

/-- What a container runs is what is on disk. -/
structure UpToDate (g : Guest κ) (c : Container) (r : Running κ) : Prop where
  unit : g.quadlets c = some r.unit
  files : ∀ f, mounted c f = true → r.files f = g.files f
  config : c = .gateway → r.config = g.config

/-- The container runs, and what is on disk. -/
def Fresh (g : Guest κ) (c : Container) : Prop := ∃ r, g.service c = some r ∧ UpToDate g c r

/-- An `apply` that nothing disturbs ends with `STATUS=PASS` and both containers up to date. -/
def Converges (a : Application κ) (i : Inputs) (g : Guest κ) : Prop :=
  ∃ k, Completes Good k (fun s => s = g) (apply a i) (fun _ s => Fresh s .worker ∧ Fresh s .gateway)

/-- This `apply` finds something on disk to change. -/
def finds (i : Inputs) (g : Guest κ) : Bool := prepares i g || instanceMissing i g || unitsDiffer i g

/-- Nothing is refused, and a container that is not started anew is up to date already. -/
structure Ready (a : Application κ) (i : Inputs) (g : Guest κ) : Prop where
  image : retains i g = true
  instance' : instanceAccepted i g = true
  worker : finds i g = false → (g.service .worker).isSome = true → Fresh g .worker
  gateway : finds i g = false → isCurrent a i.model g = true → Fresh g .gateway

/-! ### The course of a run -/

/-- The guest after `ensure_instance`. -/
def Guest.ensured (i : Inputs) (g : Guest κ) : Guest κ := (g.prepared i).instanced i

theorem withEnv_eq (g : Guest κ) :
    g.withEnv i = { g with env := (g.withEnv i).env, envPrivate := (g.withEnv i).envPrivate } := by
  rw [Guest.withEnv]
  split <;> rfl

@[simp] theorem service_ensured : (g.ensured i).service = g.service := by
  rw [Guest.ensured, Guest.instanced, withEnv_eq]
  rfl

@[simp] theorem config_ensured : (g.ensured i).config = g.config := by
  rw [Guest.ensured, Guest.instanced, withEnv_eq]
  rfl

@[simp] theorem quadlets_ensured : (g.ensured i).quadlets = g.quadlets := by
  rw [Guest.ensured, Guest.instanced, withEnv_eq]
  rfl

@[simp] theorem files_ensured : (g.ensured i).files = fun f => some (wantedFile i g f) := by
  rw [Guest.ensured, Guest.instanced, withEnv_eq]
  rfl

/-- The value of `current`. -/
def wasCurrent (a : Application κ) (i : Inputs) (g : Guest κ) : Bool :=
  ((g.service .gateway).isSome && !instanceMissing i g) && isCurrent a i.model (g.ensured i)

/-- The guest at the end of `install_quadlets`. -/
def Guest.staged (a : Application κ) (i : Inputs) (g : Guest κ) : Guest κ :=
  Guest.reloaded i
    (if wasCurrent a i g then g.ensured i
      else Guest.configured a i.model
        (if (g.service .gateway).isSome then (g.ensured i).stop .gateway else g.ensured i))

/-- The worker is started anew. -/
def workerDue (i : Inputs) (g : Guest κ) : Bool := finds i g || !(g.service .worker).isSome

def gatewayDue (a : Application κ) (i : Inputs) (g : Guest κ) : Bool := finds i g || !wasCurrent a i g

/-- The guest that `verify` finds. -/
def Guest.restarted (a : Application κ) (i : Inputs) (g : Guest κ) : Guest κ :=
  let worker := if workerDue i g then (g.staged a i).start .worker else g.staged a i
  if gatewayDue a i g then worker.start .gateway else worker

theorem staged_quadlets : (g.staged a i).quadlets = fun c => some (i.quadlet c) := rfl

theorem staged_loaded : (g.staged a i).loaded = fun c => some (i.quadlet c) := rfl

theorem staged_files : (g.staged a i).files = fun f => some (wantedFile i g f) := by
  unfold Guest.staged Guest.reloaded Guest.configured Guest.stop
  split
  · exact files_ensured
  · split <;> exact files_ensured

theorem staged_worker : (g.staged a i).service .worker = g.service .worker := by
  unfold Guest.staged Guest.reloaded Guest.configured Guest.stop
  split
  · simp
  · split <;> simp

theorem staged_gateway : (g.staged a i).service .gateway = if wasCurrent a i g then g.service .gateway else none := by
  unfold Guest.staged Guest.reloaded Guest.configured Guest.stop
  split
  · simp
  · split
    · simp
    · next h => simpa using h

theorem staged_config (h : wasCurrent a i g = true) : (g.staged a i).config = g.config := by
  unfold Guest.staged
  rw [if_pos h]
  exact config_ensured

/-- The configuration is in order when the services are restarted. -/
theorem staged_checks : a.runtimeCheck (g.staged a i).contract (g.staged a i).config = true ∧
    a.modelCheck i.model (g.staged a i).config = true := by
  cases h : wasCurrent a i g with
  | true =>
    have hstaged : g.staged a i = (g.ensured i).reloaded i := by rw [Guest.staged, if_pos h]
    have hcur : isCurrent a i.model (g.ensured i) = true := (Bool.and_eq_true_iff.mp h).2
    obtain ⟨hrun, hmodel⟩ := Bool.and_eq_true_iff.mp hcur
    rw [hstaged]
    exact ⟨(Bool.and_eq_true_iff.mp hrun).2, hmodel⟩
  | false =>
    unfold Guest.staged
    rw [h]
    exact a.configured _ _ _

/-- What a container is started from. -/
def Guest.running (s : Guest κ) (unit : Quadlet) : Running κ := { unit, files := s.files, config := s.config }

theorem start_worker {s : Guest κ} {unit : Quadlet} (h : s.loaded .worker = some unit) :
    s.start .worker = { s with service := Function.update s.service .worker (some (s.running unit)) } := by
  simp [Guest.start, Guest.begin, h, Guest.running]

theorem start_gateway {s : Guest κ} {unit : Quadlet} (h : s.loaded .gateway = some unit)
    (hw : (s.service .worker).isSome = true) :
    s.start .gateway = { s with service := Function.update s.service .gateway (some (s.running unit)) } := by
  simp [Guest.start, Guest.begin, h, hw, Guest.running]

/-- The guest once the worker has been seen to. -/
def Guest.withWorker (a : Application κ) (i : Inputs) (g : Guest κ) : Guest κ :=
  if workerDue i g then (g.staged a i).start .worker else g.staged a i

theorem withWorker_eq : g.withWorker a i =
    { g.staged a i with
      service := if workerDue i g then
          Function.update (g.staged a i).service .worker (some ((g.staged a i).running (i.quadlet .worker)))
        else (g.staged a i).service } := by
  unfold Guest.withWorker
  split
  · exact start_worker rfl
  · rfl

theorem withWorker_worker : (g.withWorker a i).service .worker =
    if workerDue i g then some ((g.staged a i).running (i.quadlet .worker)) else g.service .worker := by
  rw [withWorker_eq]
  split
  · simp
  · exact staged_worker

theorem withWorker_isSome : ((g.withWorker a i).service .worker).isSome = true := by
  rw [withWorker_worker]
  cases h : workerDue i g with
  | true => rfl
  | false =>
    rw [workerDue, Bool.or_eq_false_iff] at h
    simpa using h.2

theorem withWorker_gateway : (g.withWorker a i).service .gateway = (g.staged a i).service .gateway := by
  rw [withWorker_eq]
  split <;> simp

theorem restarted_eq : g.restarted a i =
    { g.withWorker a i with
      service := if gatewayDue a i g then
          Function.update (g.withWorker a i).service .gateway (some ((g.staged a i).running (i.quadlet .gateway)))
        else (g.withWorker a i).service } := by
  have h : g.restarted a i = if gatewayDue a i g then (g.withWorker a i).start .gateway else g.withWorker a i := rfl
  rw [h]
  split
  · rw [(@start_gateway _ _ (i.quadlet .gateway)) _ withWorker_isSome]
    · rw [withWorker_eq]
      rfl
    · rw [withWorker_eq]
      rfl
  · rfl

/-- The container is started anew. -/
def startsAnew (a : Application κ) (i : Inputs) (g : Guest κ) : Container → Bool
  | .worker => workerDue i g
  | .gateway => gatewayDue a i g

theorem restarted_service (c : Container) : (g.restarted a i).service c =
    if startsAnew a i g c then some ((g.staged a i).running (i.quadlet c)) else g.service c := by
  rw [restarted_eq]
  cases c with
  | worker =>
    have hsame : (if gatewayDue a i g then Function.update (g.withWorker a i).service .gateway
        (some ((g.staged a i).running (i.quadlet .gateway))) else (g.withWorker a i).service) .worker =
        (g.withWorker a i).service .worker := by
      split <;> simp
    exact hsame.trans withWorker_worker
  | gateway =>
    have hanew : startsAnew a i g .gateway = gatewayDue a i g := rfl
    rw [hanew]
    by_cases h : gatewayDue a i g = true
    · rw [if_pos h, if_pos h]
      exact Function.update_self Container.gateway _ (g.withWorker a i).service
    · have hcur : wasCurrent a i g = true := by
        have hno : gatewayDue a i g = false := by simpa using h
        simpa using (Bool.or_eq_false_iff.mp hno).2
      rw [if_neg h, if_neg h]
      exact withWorker_gateway.trans (staged_gateway.trans (if_pos hcur))

theorem restarted_rest : (g.restarted a i).quadlets = (g.staged a i).quadlets ∧
    (g.restarted a i).files = (g.staged a i).files ∧ (g.restarted a i).config = (g.staged a i).config := by
  rw [restarted_eq, withWorker_eq]
  exact ⟨rfl, rfl, rfl⟩

/-- The run from `install_quadlets` up to `verify`. -/
theorem yields_restartServices {s : Guest κ} (hs : s.reloaded i = g.staged a i)
    (hunits : unitsDiffer i s = unitsDiffer i g) :
    Yields Good (restartServices i (prepares i g || instanceMissing i g) (wasCurrent a i g) (g.service .worker).isSome)
      s () (g.restarted a i) := by
  have hworker : ((prepares i g || instanceMissing i g || unitsDiffer i g || !(g.service .worker).isSome) ||
      !((g.staged a i).service .worker).isSome) = workerDue i g := by
    rw [staged_worker, workerDue, finds]
    cases (g.service .worker).isSome <;> simp
  have hgateway : ((prepares i g || instanceMissing i g || unitsDiffer i g || !wasCurrent a i g) ||
      !((g.withWorker a i).service .gateway).isSome) = gatewayDue a i g := by
    rw [withWorker_gateway, staged_gateway, gatewayDue, finds]
    cases hc : wasCurrent a i g with
    | false => simp
    | true =>
      have : (g.service .gateway).isSome = true := by
        have hand := (Bool.and_eq_true_iff.mp hc).1
        exact (Bool.and_eq_true_iff.mp hand).1
      simp [this]
  have hfirst := yields_due (g := g.staged a i)
    (prepares i g || instanceMissing i g || unitsDiffer i g || !(g.service .worker).isSome) .worker
  have hsecond := yields_due (g := g.withWorker a i)
    (prepares i g || instanceMissing i g || unitsDiffer i g || !wasCurrent a i g) .gateway
  rw [hworker] at hfirst
  rw [hgateway] at hsecond
  refine yields_installQuadlets.bind ?_
  rw [hs, hunits]
  have hstart : Yields Good (onlyIf (workerDue i g) (restart .worker)) (g.staged a i) () (g.withWorker a i) := by
    refine yields_onlyIf (fun hd => ?_) fun hd => ?_
    · rw [Guest.withWorker, if_pos hd]
      exact yields_restart rfl
    · rw [Guest.withWorker, if_neg (by simp [hd])]
  have hrestart : Yields Good (onlyIf (gatewayDue a i g) (restart .gateway)) (g.withWorker a i) () (g.restarted a i) := by
    refine yields_onlyIf (fun hd => ?_) fun hd => ?_
    · have hr : g.restarted a i = (g.withWorker a i).start .gateway := by
        show (if gatewayDue a i g then (g.withWorker a i).start .gateway else g.withWorker a i) = _
        rw [if_pos hd]
      rw [hr]
      refine yields_restart ?_
      rw [withWorker_eq]
      rfl
    · show (if gatewayDue a i g then (g.withWorker a i).start .gateway else g.withWorker a i) = _
      rw [if_neg (by simp [hd])]
  exact hfirst.bind (hstart.bind (hsecond.bind hrestart))

/-- The guest that `configure`, or `install_quadlets`, finds. -/
def Guest.paused (a : Application κ) (i : Inputs) (g : Guest κ) : Guest κ :=
  if (g.service .gateway).isSome && !wasCurrent a i g then (g.ensured i).stop .gateway else g.ensured i

theorem yields_paused : Yields Good (onlyIf ((g.service .gateway).isSome && !wasCurrent a i g)
    (act fun g => g.stop .gateway)) (g.ensured i) () (g.paused a i) := by
  refine yields_onlyIf (fun h => ?_) fun h => ?_
  · rw [Guest.paused, if_pos h]
    exact yields_act _
  · rw [Guest.paused, if_neg (by simp [h])]

/-- The body of the `try` block up to `verify`, in two steps. -/
theorem yields_converged : ∃ s, Yields Good (onlyIf (!wasCurrent a i g) (configure a i.model)) (g.paused a i) () s ∧
    Yields Good (restartServices i (prepares i g || instanceMissing i g) (wasCurrent a i g) (g.service .worker).isSome)
      s () (g.restarted a i) := by
  cases h : wasCurrent a i g with
  | true =>
    have hpaused : g.paused a i = g.ensured i := by simp [Guest.paused, h]
    have hs : (g.ensured i).reloaded i = g.staged a i := by rw [Guest.staged, if_pos h]
    have hrest := yields_restartServices hs (by simp [unitsDiffer])
    rw [h] at hrest
    rw [hpaused]
    exact ⟨_, Yields.pure', hrest⟩
  | false =>
    have hpaused : g.paused a i = if (g.service .gateway).isSome then (g.ensured i).stop .gateway else g.ensured i := by
      simp [Guest.paused, h]
    have hs : ((g.paused a i).configured a i.model).reloaded i = g.staged a i := by
      rw [Guest.staged, h, hpaused]
      rfl
    have hquadlets : ((g.paused a i).configured a i.model).quadlets = g.quadlets := by
      rw [hpaused]
      split
      · exact quadlets_ensured
      · exact quadlets_ensured
    have hrest := yields_restartServices hs (by simp [unitsDiffer, hquadlets])
    rw [h] at hrest
    exact ⟨_, yields_configure i.model, hrest⟩

theorem recover_raises (wasActive : Bool) (e : Exc) :
    Within Good 2 (fun _ => True) (recover wasActive e : Task (Guest κ) Unit) (fun _ _ => False) (fun _ _ => True) := by
  unfold recover
  split
  · exact Within.raise fun _ _ => trivial
  refine Within.bind_sub (n := 2) (a := 2) (Q := fun _ _ => True) ?_ (fun _ => Within.raise fun _ _ => trivial) (by decide)
  refine Within.ite (fun _ => ?_) fun _ => Within.pure' fun _ _ => trivial
  have hask : Within Good 1 (fun _ => True) (active .gateway : Task (Guest κ) Bool) (fun _ _ => True) (fun _ _ => True) := by
    refine Within.perform fun m g _ _ r g' hr => ?_
    cases r <;> trivial
  refine Within.bind_sub (n := 2) hask (fun running => ?_) (by decide)
  refine Within.ite (fun _ => ?_) fun _ => Within.pure' fun _ _ => trivial
  refine Within.perform fun m g _ _ r g' hr => ?_
  cases r <;> trivial

/-- What the run finds. -/
def found (a : Application κ) (i : Inputs) (g : Guest κ) : Found where
  prepared := prepares i g
  wasActive := (g.service .gateway).isSome
  workerWasActive := (g.service .worker).isSome
  instanceChanged := instanceMissing i g
  current := wasCurrent a i g

theorem yields_establish (himage : retains i g = true) (hinstance : instanceAccepted i g = true) :
    Yields Good (establish a i) g (found a i g) (g.paused a i) := by
  have huser : Yields Good ensureUser (g.prepared i) () (g.prepared i) := yields_ensureUser
  have hcurrent : Yields Good (andThen ((g.service .gateway).isSome && !instanceMissing i g) (configCurrent a i.model))
      (g.ensured i) (wasCurrent a i g) (g.ensured i) := yields_andThen fun _ => yields_configCurrent i.model
  refine yields_lockFile.bind ((yields_prepare himage).bind (huser.bind ?_))
  refine (yields_active .gateway).bind ((yields_active .worker).bind ?_)
  refine (yields_ensureInstance (g := g.prepared i) hinstance).bind (hcurrent.bind (yields_paused.bind ?_))
  exact Yields.pure'

theorem fails_establish (h : ¬(retains i g = true ∧ instanceAccepted i g = true)) : Fails Good (establish a i) g := by
  apply Fails.after yields_lockFile
  cases himage : retains i g with
  | false => exact Fails.bind (fails_prepare himage)
  | true =>
    have hno : instanceAccepted i g = false := by simpa [himage] using h
    have huser : Yields Good ensureUser (g.prepared i) () (g.prepared i) := yields_ensureUser
    refine Fails.after (yields_prepare himage) (Fails.after huser ?_)
    refine Fails.after (yields_active .gateway) (Fails.after (yields_active .worker) (Fails.bind ?_))
    exact fails_ensureInstance (g := g.prepared i) hno

/-- Where nothing is refused the run ends in `restarted`, if `verify` passes there. -/
theorem yields_apply (himage : retains i g = true) (hinstance : instanceAccepted i g = true)
    (hv : Yields Good (verify a i) (g.restarted a i) () (g.restarted a i)) :
    Yields Good (apply a i) g () (g.restarted a i) := by
  obtain ⟨s, hconfigure, hrestart⟩ := yields_converged (a := a) (i := i) (g := g)
  exact (yields_establish himage hinstance).bind (Yields.handle (hconfigure.bind (hrestart.bind hv)))

theorem fails_apply (himage : retains i g = true) (hinstance : instanceAccepted i g = true)
    (hv : Fails Good (verify a i) (g.restarted a i)) : Fails Good (apply a i) g := by
  obtain ⟨s, hconfigure, hrestart⟩ := yields_converged (a := a) (i := i) (g := g)
  refine Fails.after (yields_establish himage hinstance) (Fails.handle ?_ (recover_raises _))
  exact Fails.after hconfigure (Fails.after hrestart hv)

/-! ### When the containers are up to date -/

theorem finds_eq_false : finds i g = false ↔
    prepares i g = false ∧ instanceMissing i g = false ∧ unitsDiffer i g = false := by
  simp [finds, and_assoc]

/-- Where an instance lacks nothing its files are what they should be. -/
theorem files_of_complete (h : instanceMissing i g = false) : g.files = fun f => some (wantedFile i g f) := by
  obtain ⟨hidentity, hcopies⟩ := Bool.or_eq_false_iff.mp (Bool.or_eq_false_iff.mp h).1
  obtain ⟨hrest, hknown⟩ := Bool.or_eq_false_iff.mp hidentity
  have hauthorized := (Bool.or_eq_false_iff.mp hrest).2
  rw [List.any_eq_false] at hcopies
  funext f
  cases f with
  | authorized => simpa [wantedFile] using hauthorized
  | known => simpa [wantedFile] using hknown
  | copy s => simpa [wantedFile] using hcopies s (by cases s <;> simp [sources])

theorem quadlets_of_complete (h : unitsDiffer i g = false) : g.quadlets = fun c => some (i.quadlet c) := by
  have hall : g.quadlets .worker = some (i.quadlet .worker) ∧ g.quadlets .gateway = some (i.quadlet .gateway) := by
    simpa [unitsDiffer] using h
  funext c
  cases c
  · exact hall.1
  · exact hall.2

/-- A container that is started anew is up to date. -/
theorem upToDate_running (c : Container) : UpToDate (g.restarted a i) c ((g.staged a i).running (i.quadlet c)) where
  unit := by rw [restarted_rest.1, staged_quadlets]; rfl
  files f _ := by rw [restarted_rest.2.1]; rfl
  config _ := by rw [restarted_rest.2.2]; rfl

/-- One that is left alone is up to date if it was. -/
theorem upToDate_kept (hf : finds i g = false) (c : Container) (r : Running κ)
    (hc : c = .gateway → wasCurrent a i g = true) : UpToDate (g.restarted a i) c r ↔ UpToDate g c r := by
  obtain ⟨_, hinstance, hunits⟩ := finds_eq_false.mp hf
  have hquadlets : (g.restarted a i).quadlets = g.quadlets := by
    rw [restarted_rest.1, staged_quadlets, quadlets_of_complete hunits]
  have hfiles : (g.restarted a i).files = g.files := by
    rw [restarted_rest.2.1, staged_files, files_of_complete hinstance]
  have hconfig : c = .gateway → (g.restarted a i).config = g.config := fun h => by
    rw [restarted_rest.2.2, staged_config (hc h)]
  constructor
  · intro h
    exact ⟨hquadlets ▸ h.unit, hfiles ▸ h.files, fun hg => (h.config hg).trans (hconfig hg)⟩
  · intro h
    exact ⟨hquadlets.symm ▸ h.unit, hfiles.symm ▸ h.files, fun hg => (h.config hg).trans (hconfig hg).symm⟩

theorem wasCurrent_of_complete (h : instanceMissing i g = false) : wasCurrent a i g = isCurrent a i.model g := by
  have hcontract : (g.ensured i).contract = g.contract := by
    rw [Guest.contract, Guest.contract, files_ensured, files_of_complete h]
  cases hs : (g.service .gateway).isSome <;> simp [wasCurrent, isCurrent, h, hs, hcontract]

theorem finds_of_not_anew {c : Container} (h : startsAnew a i g c = false) :
    finds i g = false ∧ (c = .gateway → wasCurrent a i g = true) := by
  cases c with
  | worker => exact ⟨(Bool.or_eq_false_iff.mp h).1, fun h => nomatch h⟩
  | gateway => exact ⟨(Bool.or_eq_false_iff.mp h).1, fun _ => by simpa using (Bool.or_eq_false_iff.mp h).2⟩

/-- A container of the final state is up to date if it was started anew or was before. -/
theorem fresh_restarted (c : Container) : Fresh (g.restarted a i) c ↔ startsAnew a i g c = true ∨ Fresh g c := by
  cases h : startsAnew a i g c with
  | true =>
    refine iff_of_true ⟨_, ?_, upToDate_running c⟩ (Or.inl rfl)
    rw [restarted_service, if_pos h]
  | false =>
    obtain ⟨hf, hc⟩ := finds_of_not_anew h
    have hservice : (g.restarted a i).service c = g.service c := by rw [restarted_service, if_neg (by simp [h])]
    calc Fresh (g.restarted a i) c
        ↔ ∃ r, g.service c = some r ∧ UpToDate (g.restarted a i) c r := by rw [Fresh, hservice]
      _ ↔ Fresh g c := exists_congr fun r => and_congr_right fun _ => upToDate_kept hf c r hc
      _ ↔ false = true ∨ Fresh g c := by simp

/-- The containers are up to date at the end exactly if `Ready` says so. -/
theorem all_fresh_iff : (Fresh (g.restarted a i) .worker ∧ Fresh (g.restarted a i) .gateway) ↔
    (finds i g = false → (g.service .worker).isSome = true → Fresh g .worker) ∧
      (finds i g = false → isCurrent a i.model g = true → Fresh g .gateway) := by
  rw [fresh_restarted, fresh_restarted]
  apply and_congr
  · rw [startsAnew, workerDue]
    cases finds i g <;> cases (g.service .worker).isSome <;> simp
  · rw [startsAnew, gatewayDue]
    cases hf : finds i g with
    | true => simp
    | false =>
      rw [wasCurrent_of_complete (finds_eq_false.mp hf).2.1]
      cases isCurrent a i.model g <;> simp

theorem yields_verify_restarted (hw : Fresh (g.restarted a i) .worker) (hv : Fresh (g.restarted a i) .gateway) :
    Yields Good (verify a i) (g.restarted a i) () (g.restarted a i) := by
  obtain ⟨w, hws, hwu⟩ := hw
  obtain ⟨v, hvs, hvu⟩ := hv
  have hunit : ∀ c r, (g.restarted a i).quadlets c = some r → r = i.quadlet c := by
    intro c r hr
    rw [restarted_rest.1, staged_quadlets] at hr
    exact (Option.some.inj hr).symm
  refine yields_verify hws (hunit _ _ hwu.unit) hvs (hunit _ _ hvu.unit) ?_
  have hcontract : (g.restarted a i).contract = (g.staged a i).contract := by
    rw [Guest.contract, Guest.contract, restarted_rest.2.1]
  rw [hcontract, restarted_rest.2.2]
  exact staged_checks

end Retry

/-! ## A retry that does not converge -/

/-- An application whose configuration is the contract and the model it was made for. -/
def sampleApplication : Application (String × String) where
  harden contract c := (contract, c.2)
  setModel model c := (c.1, model)
  loadConfig c := c
  runtimeCheck contract c := c.1 == contract
  modelCheck model c := c.2 == model
  configured _ _ _ := by simp

def sampleInputs (pids : Nat) : Inputs where
  mode := .synthetic
  lab := some
    { profile :=
        { gatewayImage := "docker.io/nousresearch/hermes-agent@sha256:00"
          model := "deepseek-flash"
          resource := fun _ => { memoryMb := 512, pidsLimit := pids, restartSeconds := 5 } }
      workerId := none
      gatewayId := none }
  source _ := "program"
  sourceHash := "hash"
  newKey _ := "key"

def emptyGuest : Guest (String × String) where
  packages := false
  user := false
  images := []
  imageId := id
  stamp := none
  directories _ := false
  keys _ := .absent
  files _ := none
  env := none
  envPrivate := false
  config := ("", "")
  quadlets _ := none
  loaded _ := none
  service _ := none
  tmpfs := false
  swap := false

/-- Everything succeeds but the `k + 1`-st operation. -/
def failAt (k : Nat) : List Moment := (List.range 60).map fun j => { verdict := if j = k then .failed else .done }

/-- A first deployment, and one of another profile whose `k + 1`-st operation fails. -/
def sampleGuest (k : Nat) : Guest (String × String) :=
  let deployed := (apply sampleApplication (sampleInputs 256)).after (List.replicate 60 {}) emptyGuest
  (apply sampleApplication (sampleInputs 300)).after (failAt k) deployed

end Hermes.ProfileDeploy

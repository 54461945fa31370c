import Hermes.HardenConfigEnv

/- Hardening as an override: what is seen of the hardened configuration is what the record and
   the contract say, and what was there where they say nothing (`view_hardened`). A run finds
   nothing changed where the file agrees with them up to Python's equality
   (`equal_effective_iff`). -/
namespace Hermes.HardenConfig
open Documents Yaml

/-! ## What the contract and the record say -/

/-- The paths that are replaced; one without a part replaces nothing. -/
def Contract.replaced (c : Contract) : List (List ScalarKey) := c.paths.filter fun r => !r.isEmpty

/-- What the contract says about a path. -/
def contractSays (c : Contract) (p : List ScalarKey) : Option (Option (Seen Scalar)) :=
  match demands Scalar.key p c.desired with
  | some o => some o
  | none => if c.replaced.any fun r => r.isPrefixOf p then some none else none

/-- The record, as a patch. -/
def recordOf (sha : String) (applied : Value) : Fields :=
  [(.str "manual_profile", .map [(.str "contract_version", .scalar (.int 1)), (.str "contract_sha256", str sha),
    (.str "applied_utc", applied)])]

def stampPath : List ScalarKey := [name "manual_profile", name "applied_utc"]

/-- What the record says about a path, and elsewhere the contract. -/
def said (c : Contract) (sha stamp : String) (p : List ScalarKey) : Option (Option (Seen Scalar)) :=
  (demands Scalar.key p (.map (recordOf sha (str stamp)))).or (contractSays c p)

/-- What is seen of the fields of a document. -/
abbrev seen (p : List ScalarKey) (document : Fields) : Option (Seen Scalar) := view Scalar.key p (.map document)

section Views
variable {c : Contract} {sha stamp stamp' : String} {p : List ScalarKey} {document existing config : Fields} {applied applied' : Value}

theorem setRecord_merge (h : applied.isMap = false) :
    setRecord sha applied config = mergeFields Scalar.key (recordOf sha applied) config := by
  have hleaf : ∀ {v : Value} {o : Option Value}, v.isMap = false → mergeAt Scalar.key v o = v := by
    intro v o hv
    cases v with
    | map fields => cases hv
    | scalar s => rfl
    | list items => rfl
  simp only [recordOf, mergeFields, setRecord, profileOf]
  congr 1
  cases hfind : find Scalar.key (name "manual_profile") config with
  | none =>
    have hfind' : find Scalar.key (Scalar.key (.str "manual_profile")) config = none := hfind
    rw [hfind']
    rfl
  | some v =>
    have hfind' : find Scalar.key (Scalar.key (.str "manual_profile")) config = some v := hfind
    rw [hfind']
    cases v with
    | scalar s => rfl
    | list items => rfl
    | map profile => simp only [mergeAt, mergeFields, hleaf h]

theorem wf_record (h : Wf Scalar.key applied) : Wf Scalar.key (.map (recordOf sha applied)) := by
  have hprofile : Wf Scalar.key (.map [(.str "contract_version", .scalar (.int 1)), (.str "contract_sha256", str sha),
      (.str "applied_utc", applied)]) := by
    have hkeys : [name "contract_version", name "contract_sha256", name "applied_utc"].Nodup := by decide
    refine .map hkeys fun f hf => ?_
    simp only [List.mem_cons, List.not_mem_nil, or_false] at hf
    rcases hf with rfl | rfl | rfl
    · exact .scalar _
    · exact .scalar _
    · exact h
  refine .map (List.pairwise_singleton _ _) fun f hf => ?_
  rw [List.mem_singleton.mp hf]
  exact hprofile

theorem view_setRecord (hstamp : applied.isMap = false) (hwf : Wf Scalar.key applied) :
    seen p (setRecord sha applied config) = (demands Scalar.key p (.map (recordOf sha applied))).getD (seen p config) := by
  rw [setRecord_merge hstamp]
  exact view_merge (wf_record hwf)

theorem not_stampPath {j : ScalarKey} {q : List ScalarKey} (hp : ¬stampPath <+: name "manual_profile" :: j :: q) :
    name "applied_utc" ≠ j := by
  rintro rfl
  exact hp ⟨q, rfl⟩

/-- The time is seen below its own key only. -/
theorem view_setRecord_other (hp : ¬stampPath <+: p) :
    seen p (setRecord sha applied config) = seen p (setRecord sha applied' config) := by
  cases p with
  | nil => rfl
  | cons k q =>
    simp only [seen, setRecord, view_map, find_put]
    split
    · next hk =>
      cases q with
      | nil => rfl
      | cons j r =>
        have hj : Scalar.key (.str "applied_utc") ≠ j := not_stampPath (hk ▸ hp)
        simp only [Option.bind_some, view_map, find_put, if_neg hj]
    · rfl

theorem demands_record_other (hp : ¬stampPath <+: p) :
    demands Scalar.key p (.map (recordOf sha applied)) = demands Scalar.key p (.map (recordOf sha applied')) := by
  cases p with
  | nil => rfl
  | cons k q =>
    simp only [recordOf, demands, find]
    split
    · next hk =>
      cases q with
      | nil => rfl
      | cons j r =>
        have hj : Scalar.key (.str "applied_utc") ≠ j := not_stampPath (hk ▸ hp)
        simp only [Option.bind_some, demands, find, if_neg hj]
    · rfl

theorem view_effective : seen p (effective document) = if stampPath <+: p then none else seen p document := by
  rw [effective]
  split
  · next profile hprofile =>
    cases p with
    | nil => rfl
    | cons k q =>
      rw [seen, view_map, find_alter, seen, view_map]
      split
      · next hk =>
        subst hk
        rw [hprofile, Option.map_some, Option.bind_some, Option.bind_some]
        cases q with
        | nil => rfl
        | cons j r =>
          rw [view_map, view_map, find_pop]
          by_cases hj : name "applied_utc" = j
          · simp [stampPath, hj]
          · simp [stampPath, hj]
      · next hk => simp [stampPath, hk]
  · next hnot =>
    split
    · next hinitial =>
      obtain ⟨r, rfl⟩ := hinitial
      rw [seen, stampPath, List.cons_append, view_map]
      cases hfind : find Scalar.key (name "manual_profile") document with
      | none => rfl
      | some v =>
        rw [Option.bind_some]
        apply view_leaf
        cases v with
        | map profile => exact absurd hfind (hnot profile)
        | scalar s => rfl
        | list items => rfl
    · rfl

theorem isMap_dropPath {r : List ScalarKey} {d : Value} (h : d.isMap = true) : (dropPath Scalar.key r d).isMap = true := by
  cases d with
  | scalar s => cases h
  | list items => cases h
  | map fields =>
    cases r with
    | nil => rfl
    | cons j r => cases r <;> rfl

theorem isMap_dropPaths {paths : List (List ScalarKey)} {d : Value} (h : d.isMap = true) : (dropPaths paths d).isMap = true := by
  induction paths generalizing d with
  | nil => exact h
  | cons r paths ih => exact ih (isMap_dropPath h)

theorem wf_dropPaths {paths : List (List ScalarKey)} {d : Value} (h : Wf Scalar.key d) : Wf Scalar.key (dropPaths paths d) := by
  induction paths generalizing d with
  | nil => exact h
  | cons r paths ih => exact ih h.dropPath

theorem view_dropPaths {paths : List (List ScalarKey)} {d : Value} : view Scalar.key p (dropPaths paths d) =
    if (paths.filter fun r => !r.isEmpty).any fun r => r.isPrefixOf p then none else view Scalar.key p d := by
  induction paths generalizing d with
  | nil => rfl
  | cons r paths ih =>
    have hcons : dropPaths (r :: paths) d = dropPaths paths (dropPath Scalar.key r d) := rfl
    rw [hcons, ih]
    cases r with
    | nil => rfl
    | cons j r =>
      rw [view_dropPath (List.cons_ne_nil j r)]
      by_cases hr : (j :: r) <+: p
      · simp [hr]
      · simp [hr]

theorem map_fieldsOf {d : Value} (h : d.isMap = true) : Doc.map (fieldsOf d) = d := by
  cases d with
  | map fields => rfl
  | scalar s => cases h
  | list items => cases h

/-- What the contract makes of a configuration. -/
theorem view_applyContract (hwf : Wf Scalar.key c.desired) (h : applyContract existing c = .ok config) :
    seen p config = (contractSays c p).getD (seen p existing) := by
  obtain ⟨patch, hpatch, heq⟩ := Outcome.bind_eq_ok.mp h
  have hdesired : c.desired = .map patch := by
    cases hd : c.desired with
    | map fields =>
      rw [hd] at hpatch
      cases hpatch
      rfl
    | scalar s => rw [hd] at hpatch; cases hpatch
    | list items => rw [hd] at hpatch; cases hpatch
  cases heq
  rw [hdesired] at hwf
  have hdrop : view Scalar.key p (dropPaths c.paths (.map existing)) =
      if c.replaced.any fun r => r.isPrefixOf p then none else seen p existing := view_dropPaths
  rw [seen, view_merge hwf, map_fieldsOf (isMap_dropPaths rfl), hdrop, contractSays, hdesired]
  cases demands Scalar.key p (.map patch) with
  | some o => rfl
  | none =>
    by_cases hr : (c.replaced.any fun r => r.isPrefixOf p) = true
    · simp only [if_pos hr, Option.getD_none, Option.getD_some]
    · simp only [if_neg hr, Option.getD_none]

/-- **The hardened configuration** is what was there, overridden by what is said. -/
theorem view_hardened (hwf : Wf Scalar.key c.desired) (h : applyContract existing c = .ok config) :
    seen p (setRecord sha (str stamp) config) = (said c sha stamp p).getD (seen p existing) := by
  rw [view_setRecord rfl (.scalar _), view_applyContract hwf h, said]
  cases demands Scalar.key p (.map (recordOf sha (str stamp))) <;> rfl

end Views

/-! ## The contract on a document -/

/-- The contract's values, each with its type. -/
structure Exact (c : Contract) (document : Fields) : Prop where
  replaced : ∀ r ∈ c.replaced,
    Same Scalar.key exactly (Documents.get Scalar.key r (.map document)) (Documents.get Scalar.key r c.desired)
  leaves : ∀ p v, Documents.get Scalar.key p c.desired = some v → v.isMap = false →
    ∃ w, Documents.get Scalar.key p (.map document) = some w ∧ equal Scalar.key exactly w v = true
  mappings : ∀ p v, Documents.get Scalar.key p c.desired = some v → v.isMap = true →
    ∃ w, Documents.get Scalar.key p (.map document) = some w ∧ w.isMap = true

/-- Up to Python's equality the document has what is said, the time apart. -/
def Agrees (c : Contract) (sha stamp : String) (document : Fields) : Prop :=
  ∀ p, ¬stampPath <+: p → ∀ o, said c sha stamp p = some o → Alike Scalar.key loose (seen p document) o

/-- The record says nothing else than the contract where both say something. -/
def Compatible (c : Contract) (sha stamp : String) : Prop :=
  ∀ p o o', demands Scalar.key p (.map (recordOf sha (str stamp))) = some o → contractSays c p = some o' →
    Alike Scalar.key exactly o o'

section Conditions
variable {c : Contract} {sha stamp later : String} {document existing config : Fields} {disk : Disk}

theorem contractSays_get {p : List ScalarKey} {v : Value} (h : Documents.get Scalar.key p c.desired = some v) :
    contractSays c p = some (some v.seen) := by
  rw [contractSays, demands_of_get h]

theorem contractSays_replaced {r p : List ScalarKey} (hr : r ∈ c.replaced) (hp : r <+: p) :
    contractSays c p = some (view Scalar.key p c.desired) := by
  have hany : (c.replaced.any fun r => r.isPrefixOf p) = true :=
    List.any_eq_true.mpr ⟨r, hr, by simpa using hp⟩
  rw [contractSays, view_demands]
  cases demands Scalar.key p c.desired with
  | some o => rfl
  | none => simp only [hany, if_true, Option.join_none]

theorem view_below_leaf {d w : Value} {q r : List ScalarKey} (hw : Documents.get Scalar.key q d = some w)
    (hleaf : w.isMap = false) (hr : r ≠ []) : view Scalar.key (q ++ r) d = none := by
  rw [view_append, hw, Option.bind_some]
  cases r with
  | nil => exact absurd rfl hr
  | cons k r => exact view_leaf hleaf

theorem alike_mapping {v w : Value} (hw : w.isMap = true) (hv : v.isMap = true) :
    Alike Scalar.key exactly (some w.seen) (some v.seen) := by
  cases w with
  | map fields =>
    cases v with
    | map fields' => trivial
    | scalar s => cases hv
    | list items => cases hv
  | scalar s => cases hw
  | list items => cases hw

theorem there_of_alike {p : List ScalarKey} {o : Seen Scalar} (h : Alike Scalar.key exactly (seen p document) (some o)) :
    ∃ w, Documents.get Scalar.key p (.map document) = some w ∧ Alike Scalar.key exactly (some w.seen) (some o) := by
  rw [seen, view] at h
  cases hw : Documents.get Scalar.key p (.map document) with
  | none =>
    rw [hw] at h
    exact absurd h not_alike_none
  | some w =>
    rw [hw] at h
    exact ⟨w, rfl, h⟩

theorem exact_iff (hdesired : Wf Scalar.key c.desired) (hdocument : Wf Scalar.key (.map document)) :
    Exact c document ↔ ∀ p o, contractSays c p = some o → Alike Scalar.key exactly (seen p document) o := by
  constructor
  · intro h p o ho
    rw [contractSays] at ho
    split at ho
    · next o' hdemands =>
      cases ho
      cases o with
      | none =>
        -- below a leaf
        obtain ⟨q, v, r, rfl, hr, hq, hleaf⟩ := demands_none hdemands
        obtain ⟨w, hw, hequal⟩ := h.leaves q v hq hleaf
        rw [seen, view_below_leaf hw (by rw [equal_isMap hequal, hleaf]) hr]
        trivial
      | some o =>
        obtain ⟨v, hv, rfl⟩ := get_of_demands hdemands
        by_cases hleaf : v.isMap = true
        · obtain ⟨w, hw, hmap⟩ := h.mappings p v hv hleaf
          rw [seen, view, hw, Option.map_some]
          exact alike_mapping hmap hleaf
        · obtain ⟨w, hw, hequal⟩ := h.leaves p v hv (by simpa using hleaf)
          rw [seen, view, hw, Option.map_some, alike_leaf (by rw [equal_isMap hequal]; simpa using hleaf)]
          exact hequal
    · next hdemands =>
      split at ho
      · next hany =>
        cases ho
        obtain ⟨r, hr, hinitial⟩ := List.any_eq_true.mp hany
        obtain ⟨q, rfl⟩ := List.isPrefixOf_iff_prefix.mp hinitial
        have hsame := (same_iff_view hdocument hdesired).mp (h.replaced r hr) q
        rwa [view_demands (d := c.desired), hdemands] at hsame
      · cases ho
  · intro h
    refine ⟨fun r hr => ?_, fun p v hv hleaf => ?_, fun p v hv hmap => ?_⟩
    · rw [same_iff_view hdocument hdesired]
      exact fun q => h (r ++ q) _ (contractSays_replaced hr (List.prefix_append r q))
    · obtain ⟨w, hw, hwv⟩ := there_of_alike (h p _ (contractSays_get hv))
      have hwleaf : w.isMap = false := (alike_isMap hwv).trans hleaf
      exact ⟨w, hw, (alike_leaf hwleaf).mp hwv⟩
    · obtain ⟨w, hw, hwv⟩ := there_of_alike (h p _ (contractSays_get hv))
      exact ⟨w, hw, (alike_isMap hwv).trans hmap⟩

/-! ## Well-formed documents -/

variable {tools : Tools} {text : String} {applied : Value}

theorem wf_orElse {value : Option Value} {other : Value} (hvalue : ∀ v, value = some v → Wf Scalar.key v)
    (hother : Wf Scalar.key other) : Wf Scalar.key (orElse value other) := by
  cases value with
  | none => exact hother
  | some v =>
    rw [orElse]
    split
    · exact hvalue v rfl
    · exact hother

theorem wf_empty : Wf Scalar.key (.map []) := .map List.nodup_nil fun _ hf => absurd hf List.not_mem_nil

theorem getKey_some {value v : Value} {key : String} (hvalue : Wf Scalar.key value) (h : getKey value key = .ok (some v)) :
    Wf Scalar.key v := by
  cases value with
  | map fields => exact hvalue.find (Except.ok.inj h)
  | scalar s => cases h
  | list items => cases h

theorem envOf_nodup (tools : Tools) (env : Fields) : (keys id (envOf tools env)).Nodup := by
  have hfold : ∀ acc : List (String × String), (keys id acc).Nodup →
      (keys id (env.foldl (fun acc f => put id (tools.str (.scalar f.1)) (tools.str f.2) acc) acc)).Nodup := by
    induction env with
    | nil => exact fun acc h => h
    | cons f env ih => exact fun acc h => ih _ (keys_put_nodup h)
  exact hfold [] List.nodup_nil

theorem loadContract_ok (h : loadContract tools text = .ok c) :
    Wf Scalar.key c.desired ∧ (keys id c.desiredEnv).Nodup := by
  rw [loadContract] at h
  obtain ⟨value, hload, h⟩ := Outcome.bind_eq_ok.mp h
  have hvalue : Wf Scalar.key (orElse (some value) (.map [])) :=
    wf_orElse (fun v hv => Option.some.inj hv ▸ tools.load_wf hload) wf_empty
  obtain ⟨version, _, h⟩ := Outcome.bind_eq_ok.mp h
  split at h
  · obtain ⟨desired, hdesired, h⟩ := Outcome.bind_eq_ok.mp h
    obtain ⟨envValue, _, h⟩ := Outcome.bind_eq_ok.mp h
    obtain ⟨env, _, h⟩ := Outcome.bind_eq_ok.mp h
    obtain ⟨replaceValue, _, h⟩ := Outcome.bind_eq_ok.mp h
    obtain ⟨replace, _, h⟩ := Outcome.bind_eq_ok.mp h
    cases h
    refine ⟨wf_orElse (fun v hv => ?_) wf_empty, envOf_nodup tools env⟩
    exact getKey_some hvalue (hv ▸ hdesired)
  · cases h

theorem loadExisting_wf (h : loadExisting tools disk = .ok existing) : Wf Scalar.key (.map existing) := by
  rw [loadExisting] at h
  split at h
  · cases h
    exact wf_empty
  · split at h
    · cases h
      exact wf_empty
    · split at h
      · cases h
      · cases h
      · next hload =>
        cases h
        exact tools.load_wf hload
      · cases h

theorem itemsOf_ok {value : Value} {fields : Fields} (h : itemsOf value = .ok fields) : value = .map fields := by
  cases value with
  | map fields' => exact congrArg Doc.map (Except.ok.inj h)
  | scalar s => cases h
  | list items => cases h

theorem applyContract_wf (hdesired : Wf Scalar.key c.desired) (hexisting : Wf Scalar.key (.map existing))
    (h : applyContract existing c = .ok config) : Wf Scalar.key (.map config) := by
  obtain ⟨patch, hpatch, heq⟩ := Outcome.bind_eq_ok.mp h
  rw [itemsOf_ok hpatch] at hdesired
  cases heq
  apply hdesired.mergeFields
  rw [map_fieldsOf (isMap_dropPaths rfl)]
  exact wf_dropPaths hexisting

theorem profileOf_wf (h : Wf Scalar.key (.map config)) : Wf Scalar.key (.map (profileOf config)) := by
  rw [profileOf]
  split
  · next hfind => exact h.find hfind
  · exact wf_empty

theorem setRecord_wf (hconfig : Wf Scalar.key (.map config)) (happlied : Wf Scalar.key applied) :
    Wf Scalar.key (.map (setRecord sha applied config)) :=
  hconfig.put ((((profileOf_wf hconfig).put (.scalar _)).put (.scalar _)).put happlied)

theorem previousStamp_wf (h : Wf Scalar.key (.map existing)) : Wf Scalar.key (previousStamp existing stamp) := by
  rw [previousStamp]
  cases hfind : find Scalar.key (name "applied_utc") (profileOf existing) with
  | none => exact .scalar _
  | some v => exact (profileOf_wf h).find hfind

theorem effective_wf (h : Wf Scalar.key (.map document)) : Wf Scalar.key (.map (effective document)) := by
  rw [effective]
  split
  · next profile hprofile =>
    have hpop : Wf Scalar.key (.map (pop Scalar.key (name "applied_utc") profile)) := (h.find hprofile).pop
    cases h with
    | map hkeys hrest =>
      refine .map (by rwa [keys_alter]) fun f hf => ?_
      obtain ⟨g, hg, rfl⟩ := List.mem_map.mp hf
      dsimp only
      split
      · exact hpop
      · exact hrest g hg
  · exact h

/-! ## The decision to write -/

theorem said_other {p : List ScalarKey} (hp : ¬stampPath <+: p) : said c sha stamp p = said c sha later p := by
  rw [said, said, demands_record_other hp]

theorem agrees_later (h : Agrees c sha stamp document) : Agrees c sha later document := by
  intro p hp o ho
  exact h p hp o (by rwa [said_other hp])

/-- A run finds nothing changed where the document agrees with what is said. -/
theorem equal_effective_iff (hdesired : Wf Scalar.key c.desired) (hexisting : Wf Scalar.key (.map existing))
    (h : applyContract existing c = .ok config) :
    equal Scalar.key loose (.map (effective existing))
      (.map (effective (setRecord sha (previousStamp existing later) config))) = true ↔ Agrees c sha stamp existing := by
  have hconfig := applyContract_wf hdesired hexisting h
  rw [equal_iff_view (effective_wf hexisting) (effective_wf (setRecord_wf hconfig (previousStamp_wf hexisting)))]
  have hview : ∀ p, ¬stampPath <+: p → seen p (setRecord sha (previousStamp existing later) config) =
      (said c sha stamp p).getD (seen p existing) := by
    intro p hp
    rw [view_setRecord_other hp, view_hardened hdesired h]
  constructor
  · intro hall p hp o ho
    have hp' : Alike Scalar.key loose (seen p (effective existing))
        (seen p (effective (setRecord sha (previousStamp existing later) config))) := hall p
    rwa [view_effective, view_effective, if_neg hp, if_neg hp, hview p hp, ho, Option.getD_some] at hp'
  · intro hagrees p
    change Alike Scalar.key loose (seen p (effective existing))
      (seen p (effective (setRecord sha (previousStamp existing later) config)))
    rw [view_effective, view_effective]
    by_cases hp : stampPath <+: p
    · rw [if_pos hp, if_pos hp]
      trivial
    · rw [if_neg hp, if_neg hp, hview p hp]
      cases ho : said c sha stamp p with
      | none => exact alike_refl loose_refl hexisting
      | some o => exact hagrees p hp o ho

/-- What has been hardened agrees. -/
theorem agrees_hardened (hdesired : Wf Scalar.key c.desired) (hexisting : Wf Scalar.key (.map existing))
    (h : applyContract existing c = .ok config) : Agrees c sha stamp (setRecord sha (str stamp) config) := by
  intro p _ o ho
  have hview : seen p (setRecord sha (str stamp) config) = o := by rw [view_hardened hdesired h, ho, Option.getD_some]
  rw [← hview]
  exact alike_refl loose_refl (setRecord_wf (applyContract_wf hdesired hexisting h) (.scalar _))

/-- A hardened document has the contract's values where the record does not say something else. -/
theorem exact_hardened_iff (hdesired : Wf Scalar.key c.desired) (hexisting : Wf Scalar.key (.map existing))
    (h : applyContract existing c = .ok config) :
    Exact c (setRecord sha (str stamp) config) ↔ Compatible c sha stamp := by
  have hwf : Wf Scalar.key (.map (setRecord sha (str stamp) config)) :=
    setRecord_wf (applyContract_wf hdesired hexisting h) (.scalar _)
  rw [exact_iff hdesired hwf]
  constructor
  · intro hexact p o o' ho ho'
    have hp := hexact p o' ho'
    rwa [view_hardened hdesired h, said, ho] at hp
  · intro hcompatible p o ho
    have hview : seen p (setRecord sha (str stamp) config) = (said c sha stamp p).getD (seen p existing) :=
      view_hardened hdesired h
    rw [said] at hview
    cases hrecord : demands Scalar.key p (.map (recordOf sha (str stamp))) with
    | some o' =>
      rw [hview, hrecord]
      exact hcompatible p o' o hrecord ho
    | none =>
      rw [hrecord, Option.none_or, ho, Option.getD_some] at hview
      rw [← hview]
      exact alike_refl exactly_refl hwf

end Conditions

end Hermes.HardenConfig

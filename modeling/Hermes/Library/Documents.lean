import Mathlib.Data.List.Perm.Subperm
import Mathlib.Data.Set.Countable

/- Documents of scalars, lists and mappings. The keys of a mapping are scalars; which of them are
   the same key is up to `key`. A document is what is seen at its paths (`equal_iff_view`), and
   merging a patch overrides that where the patch says something (`view_merge`). -/
namespace Documents

inductive Doc (σ : Type) where
  | scalar (s : σ)
  | list (items : List (Doc σ))
  | map (fields : List (σ × Doc σ))

/-- Induction with a hypothesis for every item and every field. -/
theorem Doc.induct {σ : Type} {motive : Doc σ → Prop} (scalar : ∀ s, motive (.scalar s))
    (list : ∀ items, (∀ d ∈ items, motive d) → motive (.list items))
    (map : ∀ fields, (∀ f ∈ fields, motive f.2) → motive (.map fields)) (d : Doc σ) : motive d := by
  match d with
  | .scalar s => exact scalar s
  | .list items => exact list items fun d _ => Doc.induct scalar list map d
  | .map fields => exact map fields fun f _ => Doc.induct scalar list map f.2
termination_by sizeOf d
decreasing_by
  · rename_i h
    have := List.sizeOf_lt_of_mem h
    simp only [Doc.list.sizeOf_spec]
    omega
  · rename_i h
    have := List.sizeOf_lt_of_mem h
    have hpair : sizeOf f.2 < sizeOf f := by
      cases f
      simp only [Prod.mk.sizeOf_spec]
      omega
    simp only [Doc.map.sizeOf_spec]
    omega

/-! ## Fields -/

section Fields
variable {σ κ α : Type} [DecidableEq κ] (key : σ → κ)

def find (k : κ) : List (σ × α) → Option α
  | [] => none
  | f :: fields => if key f.1 = k then some f.2 else find k fields

/-- The value is set; a name that is there stays as it is written. -/
def put (name : σ) (a : α) : List (σ × α) → List (σ × α)
  | [] => [(name, a)]
  | f :: fields => if key f.1 = key name then (f.1, a) :: fields else f :: put name a fields

def pop (k : κ) (fields : List (σ × α)) : List (σ × α) := fields.filter fun f => key f.1 ≠ k

/-- The value at a key is changed. -/
def alter (k : κ) (change : α → α) (fields : List (σ × α)) : List (σ × α) :=
  fields.map fun f => if key f.1 = k then (f.1, change f.2) else f

def keys (fields : List (σ × α)) : List κ := fields.map fun f => key f.1

variable {key} {k : κ} {name : σ} {a : α} {fields : List (σ × α)}

theorem find_mem (h : find key k fields = some a) : ∃ f ∈ fields, key f.1 = k ∧ f.2 = a := by
  induction fields with
  | nil => simp [find] at h
  | cons f fields ih =>
    by_cases hf : key f.1 = k
    · exact ⟨f, by simp, hf, by simpa [find, hf] using h⟩
    · obtain ⟨g, hg, hgk⟩ := ih (by simpa [find, hf] using h)
      exact ⟨g, by simp [hg], hgk⟩

theorem find_eq_none : find key k fields = none ↔ k ∉ keys key fields := by
  induction fields with
  | nil => simp [find, keys]
  | cons f fields ih =>
    by_cases hf : key f.1 = k
    · simp [find, keys, hf]
    · simp only [find, hf, if_false, ih]
      simp [keys, Ne.symm hf]

/-- With distinct keys every field is found. -/
theorem find_of_mem (hkeys : (keys key fields).Nodup) {f : σ × α} (h : f ∈ fields) :
    find key (key f.1) fields = some f.2 := by
  induction fields with
  | nil => cases h
  | cons g fields ih =>
    obtain ⟨hg, hkeys⟩ := List.nodup_cons.mp hkeys
    rcases List.mem_cons.mp h with rfl | hmem
    · simp [find]
    · have hne : key g.1 ≠ key f.1 := fun heq =>
        hg (show key g.1 ∈ keys key fields from heq ▸ List.mem_map_of_mem hmem)
      simp only [find, hne, if_false]
      exact ih hkeys hmem

theorem find_put : find key k (put key name a fields) = if key name = k then some a else find key k fields := by
  induction fields with
  | nil => simp [put, find]
  | cons f fields ih =>
    by_cases hf : key f.1 = key name
    · by_cases hk : key name = k <;> simp [put, find, hf, hk]
    · by_cases hk : key name = k
      · have hfk : key f.1 ≠ k := hk ▸ hf
        simp [put, find, hfk, ih, hk]
      · simp [put, find, hf, ih, hk]

theorem find_pop {j : κ} : find key k (pop key j fields) = if j = k then none else find key k fields := by
  induction fields with
  | nil => simp [pop, find]
  | cons f fields ih =>
    by_cases hf : key f.1 = j
    · by_cases hk : j = k
      · simpa [pop, hf, hk] using ih
      · have hfk : key f.1 ≠ k := hf ▸ hk
        have hrest : find key k (pop key j fields) = find key k fields := by simp [ih, hk]
        simp only [find, hfk, hk, if_false]
        simpa [pop, hf] using hrest
    · have hkeep : pop key j (f :: fields) = f :: pop key j fields := by simp [pop, hf]
      rw [hkeep]
      by_cases hfk : key f.1 = k
      · have hjk : j ≠ k := fun h => hf (hfk.trans h.symm)
        simp [find, hfk, hjk]
      · simp only [find, hfk, if_false]
        exact ih

theorem find_alter {j : κ} {change : α → α} :
    find key k (alter key j change fields) = if j = k then (find key k fields).map change else find key k fields := by
  induction fields with
  | nil => simp [alter, find]
  | cons f fields ih =>
    have hcons : alter key j change (f :: fields) =
        (if key f.1 = j then (f.1, change f.2) else f) :: alter key j change fields := rfl
    rw [hcons]
    by_cases hf : key f.1 = j
    · by_cases hk : j = k
      · simp [find, hf, hk]
      · have hfk : key f.1 ≠ k := hf ▸ hk
        simpa [find, hf, hk, hfk] using ih
    · by_cases hfk : key f.1 = k
      · have hjk : j ≠ k := fun h => hf (hfk.trans h.symm)
        rw [if_neg hf, find, if_pos hfk, if_neg hjk, find, if_pos hfk]
      · simpa [find, hf, hfk] using ih

theorem keys_alter {j : κ} {change : α → α} : keys key (alter key j change fields) = keys key fields := by
  rw [keys, alter, List.map_map]
  apply List.map_congr_left
  intro f _
  by_cases hf : key f.1 = j <;> simp [hf]

theorem mem_keys_put {k : κ} : k ∈ keys key (put key name a fields) ↔ k = key name ∨ k ∈ keys key fields := by
  have hfind := @find_put σ κ α _ key k name a fields
  by_cases hk : key name = k
  · have hin : k ∈ keys key (put key name a fields) := by
      by_contra hnot
      rw [find_eq_none.mpr hnot] at hfind
      simp [hk] at hfind
    simp [hin, hk]
  · rw [if_neg hk] at hfind
    rw [← not_iff_not, not_or, ← find_eq_none, ← find_eq_none, hfind]
    simp [Ne.symm hk]

theorem keys_put_nodup (h : (keys key fields).Nodup) : (keys key (put key name a fields)).Nodup := by
  induction fields with
  | nil => simp [put, keys]
  | cons f fields ih =>
    obtain ⟨hf, hrest⟩ := List.nodup_cons.mp h
    by_cases hname : key f.1 = key name
    · rw [put, if_pos hname]
      exact h
    · rw [put, if_neg hname]
      refine List.nodup_cons.mpr ⟨fun hmem => ?_, ih hrest⟩
      rcases mem_keys_put.mp hmem with heq | hmem
      · exact hname heq
      · exact hf hmem

theorem mem_put {f : σ × α} (h : f ∈ put key name a fields) : f.2 = a ∨ f ∈ fields := by
  induction fields with
  | nil => simp_all [put]
  | cons g fields ih =>
    by_cases hg : key g.1 = key name
    · rw [put, if_pos hg] at h
      rcases List.mem_cons.mp h with rfl | h
      · exact Or.inl rfl
      · exact Or.inr (List.mem_cons_of_mem g h)
    · rw [put, if_neg hg] at h
      rcases List.mem_cons.mp h with rfl | h
      · exact Or.inr List.mem_cons_self
      · exact (ih h).imp id (List.mem_cons_of_mem g)

end Fields

/-! ## Paths -/

section Docs
variable {σ κ : Type} [DecidableEq κ] (key : σ → κ)

def get : List κ → Doc σ → Option (Doc σ)
  | [], d => some d
  | k :: p, .map fields => (find key k fields).bind (get p)
  | _ :: _, _ => none

def Doc.isMap : Doc σ → Bool
  | .map _ => true
  | _ => false

/-- What is seen of a document at a path. -/
inductive Seen (σ : Type) where
  | mapping
  | leaf (d : Doc σ)

def Doc.seen : Doc σ → Seen σ
  | .map _ => .mapping
  | d => .leaf d

def view (p : List κ) (d : Doc σ) : Option (Seen σ) := (get key p d).map Doc.seen

/-- What a document says about a path: what is there, that nothing is there as it is below a
    leaf, or nothing at all. -/
def demands : List κ → Doc σ → Option (Option (Seen σ))
  | [], d => some (some d.seen)
  | k :: p, .map fields => (find key k fields).bind (demands p)
  | _ :: _, _ => some none

variable {key} {k : κ} {p q : List κ} {d x y : Doc σ} {fields : List (σ × Doc σ)}

@[simp] theorem view_nil : view key [] d = some d.seen := rfl

@[simp] theorem view_map : view key (k :: p) (.map fields) = (find key k fields).bind (view key p) := by
  rw [view, get]
  cases find key k fields <;> rfl

theorem view_leaf (h : d.isMap = false) : view key (k :: p) d = none := by
  cases d with
  | map fields => cases h
  | scalar s => rfl
  | list items => rfl

theorem view_demands : view key p d = (demands key p d).join := by
  induction p generalizing d with
  | nil => rfl
  | cons k p ih =>
    cases d with
    | scalar s => rfl
    | list items => rfl
    | map fields =>
      rw [view_map, demands]
      cases find key k fields with
      | none => rfl
      | some v => exact ih

theorem demands_of_get {v : Doc σ} (h : get key p d = some v) : demands key p d = some (some v.seen) := by
  induction p generalizing d with
  | nil =>
    cases h
    rfl
  | cons k p ih =>
    cases d with
    | scalar s => cases h
    | list items => cases h
    | map fields =>
      obtain ⟨w, hw, hv⟩ := Option.bind_eq_some_iff.mp h
      rw [demands, hw, Option.bind_some]
      exact ih hv

/-- Nothing is there below a leaf. -/
theorem demands_none (h : demands key p d = some none) :
    ∃ q v r, p = q ++ r ∧ r ≠ [] ∧ get key q d = some v ∧ v.isMap = false := by
  induction p generalizing d with
  | nil => cases h
  | cons k p ih =>
    cases d with
    | scalar s => exact ⟨[], .scalar s, k :: p, rfl, List.cons_ne_nil k p, rfl, rfl⟩
    | list items => exact ⟨[], .list items, k :: p, rfl, List.cons_ne_nil k p, rfl, rfl⟩
    | map fields =>
      obtain ⟨w, hw, hv⟩ := Option.bind_eq_some_iff.mp h
      obtain ⟨q, v, r, rfl, hr, hq, hleaf⟩ := ih hv
      exact ⟨k :: q, v, r, rfl, hr, by rw [get, hw, Option.bind_some, hq], hleaf⟩

theorem get_of_demands {o : Seen σ} (h : demands key p d = some (some o)) : ∃ v, get key p d = some v ∧ v.seen = o := by
  have hview : view key p d = some o := by rw [view_demands, h, Option.join_some]
  exact Option.map_eq_some_iff.mp hview

theorem get_append : get key (p ++ q) d = (get key p d).bind (get key q) := by
  induction p generalizing d with
  | nil => rfl
  | cons k p ih =>
    cases d with
    | scalar s => rfl
    | list items => rfl
    | map fields =>
      simp only [List.cons_append, get]
      cases find key k fields with
      | none => rfl
      | some v => exact ih

theorem view_append : view key (p ++ q) d = (get key p d).bind (view key q) := by
  rw [view, get_append]
  cases get key p d <;> rfl

/-! ## Changes -/

variable (key)

mutual
/-- `patch` is merged into `target`: mappings are merged, everything else is replaced. -/
def mergeFields : List (σ × Doc σ) → List (σ × Doc σ) → List (σ × Doc σ)
  | [], target => target
  | (name, v) :: patch, target => mergeFields patch (put key name (mergeAt v (find key (key name) target)) target)

def mergeAt : Doc σ → Option (Doc σ) → Doc σ
  | .map patch, some (.map target) => .map (mergeFields patch target)
  | v, _ => v
end

/-- What is at a path is removed, if there are mappings down to it. -/
def dropPath : List κ → Doc σ → Doc σ
  | [], d => d
  | [k], .map fields => .map (pop key k fields)
  | k :: p, .map fields => .map (alter key k (dropPath p) fields)
  | _ :: _, d => d

/-- Distinct keys, throughout. -/
inductive Wf : Doc σ → Prop where
  | scalar (s : σ) : Wf (.scalar s)
  | list {items : List (Doc σ)} (h : ∀ d ∈ items, Wf d) : Wf (.list items)
  | map {fields : List (σ × Doc σ)} (hkeys : (keys key fields).Nodup) (h : ∀ f ∈ fields, Wf f.2) : Wf (.map fields)

variable {key} {patch target : List (σ × Doc σ)}

theorem find_mergeFields (hpatch : (keys key patch).Nodup) : find key k (mergeFields key patch target) =
    match find key k patch with
    | none => find key k target
    | some v => some (mergeAt key v (find key k target)) := by
  induction patch generalizing target with
  | nil => rfl
  | cons f patch ih =>
    obtain ⟨name, v⟩ := f
    obtain ⟨hname, hpatch⟩ := List.nodup_cons.mp hpatch
    rw [mergeFields, ih hpatch, find_put]
    by_cases hk : key name = k
    · subst hk
      simp [find, find_eq_none.mpr hname]
    · simp [find, hk]

theorem seen_mergeAt {v : Doc σ} {o : Option (Doc σ)} : (mergeAt key v o).seen = v.seen := by
  unfold mergeAt
  split <;> rfl

/-- **Merging overrides** what is seen by what the patch says. -/
theorem view_merge (hpatch : Wf key (.map patch)) :
    view key p (.map (mergeFields key patch target)) = (demands key p (.map patch)).getD (view key p (.map target)) := by
  induction p generalizing patch target with
  | nil => rfl
  | cons k p ih =>
    cases hpatch with
    | map hkeys hrest =>
      rw [view_map, find_mergeFields hkeys, demands, view_map]
      cases hfind : find key k patch with
      | none => rfl
      | some v =>
        obtain ⟨f, hf, _, rfl⟩ := find_mem hfind
        simp only [Option.bind_some]
        unfold mergeAt
        split
        · next sub t hv htarget =>
          rw [htarget, Option.bind_some]
          rw [hv]
          exact ih (hv ▸ hrest f hf)
        · next hnot =>
          -- the value is not merged: it says something, or it is a mapping where none was
          rw [view_demands]
          cases hdemands : demands key p f.2 with
          | some o => rfl
          | none =>
            cases p with
            | nil => simp [demands] at hdemands
            | cons j p =>
              cases hv : f.2 with
              | scalar s => simp [hv, demands] at hdemands
              | list items => simp [hv, demands] at hdemands
              | map sub =>
                cases htarget : find key k target with
                | none => rfl
                | some w =>
                  have hleaf : w.isMap = false := by
                    cases w with
                    | map t => exact absurd htarget (hnot sub t hv)
                    | scalar s => rfl
                    | list items => rfl
                  simp [view_leaf hleaf]

theorem view_dropPath {r : List κ} (hr : r ≠ []) : view key p (dropPath key r d) = if r <+: p then none else view key p d := by
  induction r generalizing p d with
  | nil => exact absurd rfl hr
  | cons j r ih =>
    cases p with
    | nil =>
      cases d with
      | scalar s => cases r <;> rfl
      | list items => cases r <;> rfl
      | map fields => cases r <;> rfl
    | cons k p =>
      cases d with
      | scalar s => cases r <;> simp [dropPath, show view key (k :: p) (Doc.scalar s) = none from rfl]
      | list items => cases r <;> simp [dropPath, show view key (k :: p) (Doc.list items) = none from rfl]
      | map fields =>
        cases r with
        | nil =>
          rw [dropPath, view_map, find_pop]
          by_cases hj : j = k <;> simp [hj]
        | cons j' r =>
          rw [dropPath, view_map, find_alter]
          · by_cases hj : j = k
            · subst hj
              rw [if_pos rfl, view_map]
              cases hfind : find key j fields with
              | none => simp
              | some v => simpa using ih (by simp)
            · simp [hj]
          · simp

/-! ## Well-formed documents -/

omit [DecidableEq κ] in
theorem Wf.field (h : Wf key (.map fields)) {f : σ × Doc σ} (hf : f ∈ fields) : Wf key f.2 := by
  cases h with
  | map _ hrest => exact hrest f hf

theorem Wf.find (h : Wf key (.map fields)) {v : Doc σ} (hv : Documents.find key k fields = some v) : Wf key v := by
  obtain ⟨f, hf, _, rfl⟩ := find_mem hv
  exact h.field hf

theorem Wf.get (h : Wf key d) {v : Doc σ} (hv : Documents.get key p d = some v) : Wf key v := by
  induction p generalizing d with
  | nil => exact Option.some.inj hv ▸ h
  | cons k p ih =>
    cases d with
    | scalar s => cases hv
    | list items => cases hv
    | map fields =>
      obtain ⟨w, hw, hv⟩ := Option.bind_eq_some_iff.mp hv
      exact ih (h.find hw) hv

theorem Wf.put {name : σ} (h : Wf key (.map fields)) (hd : Wf key d) : Wf key (.map (put key name d fields)) := by
  cases h with
  | map hkeys hrest =>
    refine .map (keys_put_nodup hkeys) fun f hf => ?_
    rcases mem_put hf with heq | hf
    · exact heq ▸ hd
    · exact hrest f hf

theorem Wf.pop (h : Wf key (.map fields)) : Wf key (.map (pop key k fields)) := by
  cases h with
  | map hkeys hrest =>
    refine .map (hkeys.sublist ?_) fun f hf => hrest f (List.mem_of_mem_filter hf)
    exact List.filter_sublist.map _

theorem Wf.mergeAt {v : Doc σ} {o : Option (Doc σ)} (hv : Wf key v) (ho : ∀ w, o = some w → Wf key w) :
    Wf key (mergeAt key v o) := by
  induction v using Doc.induct generalizing o with
  | scalar s => exact hv
  | list items => exact hv
  | map patch ih =>
    unfold Documents.mergeAt
    split
    · next heq =>
      cases heq
      rename_i t
      have htarget := ho _ rfl
      clear ho
      -- the fields of the patch are merged one after another
      induction patch generalizing t with
      | nil => exact htarget
      | cons f patch ihp =>
        obtain ⟨name, w⟩ := f
        rw [mergeFields]
        apply ihp
        · intro g hg
          exact ih g (List.mem_cons_of_mem _ hg)
        · cases hv with
          | map hkeys hrest => exact .map (List.nodup_cons.mp hkeys).2 fun g hg => hrest g (List.mem_cons_of_mem _ hg)
        · apply htarget.put
          exact ih (name, w) List.mem_cons_self (hv.field List.mem_cons_self) fun _ h => htarget.find h
    · exact hv

theorem Wf.mergeFields (hpatch : Wf key (.map patch)) (htarget : Wf key (.map target)) :
    Wf key (.map (mergeFields key patch target)) := by
  have hmerge : Wf key (Documents.mergeAt key (.map patch) (some (.map target))) :=
    hpatch.mergeAt fun _ h => Option.some.inj h ▸ htarget
  rwa [Documents.mergeAt] at hmerge

theorem Wf.dropPath {r : List κ} (h : Wf key d) : Wf key (dropPath key r d) := by
  induction r generalizing d with
  | nil => exact h
  | cons j r ih =>
    cases d with
    | scalar s => cases r <;> exact h
    | list items => cases r <;> exact h
    | map fields =>
      cases r with
      | nil => exact h.pop
      | cons j' r =>
        cases h with
        | map hkeys hrest =>
          rw [Documents.dropPath]
          · refine .map (by rwa [keys_alter]) fun f hf => ?_
            obtain ⟨g, hg, rfl⟩ := List.mem_map.mp hf
            by_cases hj : key g.1 = j
            · simpa [hj] using ih (hrest g hg)
            · simpa [hj] using hrest g hg
          · simp

/-! ## Equality -/

variable (key) (same : σ → σ → Bool)

mutual
/-- Scalars by `same`, mappings without an order. -/
def equal : Doc σ → Doc σ → Bool
  | .scalar s, .scalar t => same s t
  | .list xs, .list ys => equalItems xs ys
  | .map xs, .map ys => xs.length == ys.length && within xs ys
  | _, _ => false

def equalItems : List (Doc σ) → List (Doc σ) → Bool
  | [], [] => true
  | x :: xs, y :: ys => equal x y && equalItems xs ys
  | _, _ => false

/-- Every field is one of the others. -/
def within : List (σ × Doc σ) → List (σ × Doc σ) → Bool
  | [], _ => true
  | (name, v) :: xs, ys => (find key (key name) ys).any (equal v) && within xs ys
end

def Alike : Option (Seen σ) → Option (Seen σ) → Prop
  | none, none => True
  | some .mapping, some .mapping => True
  | some (.leaf d), some (.leaf e) => equal key same d e = true
  | _, _ => False

variable {key same} {xs ys : List (σ × Doc σ)}

theorem within_iff : within key same xs ys = true ↔
    ∀ f ∈ xs, ∃ w, find key (key f.1) ys = some w ∧ equal key same f.2 w = true := by
  induction xs with
  | nil => simp [within]
  | cons f xs ih => simp [within, ih, Option.any_eq_true]

theorem equal_refl (hsame : ∀ s, same s s = true) (h : Wf key d) : equal key same d d = true := by
  induction d using Doc.induct with
  | scalar s => exact hsame s
  | list items ih =>
    cases h with
    | list hitems =>
      rw [equal]
      clear * - ih hitems
      induction items with
      | nil => rfl
      | cons d items ihi =>
        rw [equalItems, ih d List.mem_cons_self (hitems d List.mem_cons_self), Bool.true_and]
        exact ihi (fun e he => ih e (List.mem_cons_of_mem d he)) fun e he => hitems e (List.mem_cons_of_mem d he)
  | map fields ih =>
    cases h with
    | map hkeys hrest =>
      rw [equal, beq_self_eq_true, Bool.true_and, within_iff]
      exact fun f hf => ⟨f.2, find_of_mem hkeys hf, ih f hf (hrest f hf)⟩

theorem alike_leaf (hx : x.isMap = false) : Alike key same (some x.seen) (some y.seen) ↔ equal key same x y = true := by
  cases x with
  | map fields => cases hx
  | scalar s => cases y <;> simp [Doc.seen, Alike, equal]
  | list items => cases y <;> simp [Doc.seen, Alike, equal]

theorem alike_isMap (h : Alike key same (some x.seen) (some y.seen)) : x.isMap = y.isMap := by
  cases x <;> cases y <;> simp_all [Doc.seen, Doc.isMap, Alike, equal]

theorem not_alike_none {o : Seen σ} : ¬Alike key same none (some o) := by
  cases o <;> exact id

theorem equal_isMap (h : equal key same x y = true) : x.isMap = y.isMap := by
  cases x <;> cases y <;> simp_all [Doc.isMap, equal]

/-- Something other than a mapping is equal to what is seen alike. -/
theorem equal_leaf_iff (hx : x.isMap = false) :
    equal key same x y = true ↔ ∀ p, Alike key same (view key p x) (view key p y) := by
  rw [← alike_leaf hx]
  constructor
  · intro h p
    cases p with
    | nil => exact h
    | cons k p =>
      have hy : y.isMap = false := by
        rw [alike_leaf hx] at h
        cases y with
        | map fields => cases x <;> simp [equal, Doc.isMap] at h hx
        | scalar s => rfl
        | list items => rfl
      rw [view_leaf hx, view_leaf hy]
      trivial
  · exact fun h => h []

theorem keys_of_within (hxs : (keys key xs).Nodup) (hlength : xs.length = ys.length)
    (h : within key same xs ys = true) {k : κ} (hk : k ∈ keys key ys) : k ∈ keys key xs := by
  have hsub : keys key xs ⊆ keys key ys := by
    intro j hj
    obtain ⟨f, hf, rfl⟩ := List.mem_map.mp hj
    obtain ⟨w, hw, _⟩ := within_iff.mp h f hf
    obtain ⟨g, hg, hgk, _⟩ := find_mem hw
    exact List.mem_map.mpr ⟨g, hg, hgk⟩
  have hperm : (keys key xs).Perm (keys key ys) :=
    (List.subperm_of_subset hxs hsub).perm_of_length_le (by simp [keys, hlength])
  exact hperm.mem_iff.mpr hk

/-- Mappings with alike values have as many fields. -/
theorem length_of_alike (hxs : (keys key xs).Nodup) (hys : (keys key ys).Nodup)
    (h : ∀ k, Alike key same (view key [k] (.map xs)) (view key [k] (.map ys))) : xs.length = ys.length := by
  have hmem : ∀ k, k ∈ keys key xs ↔ k ∈ keys key ys := by
    intro k
    rw [← not_iff_not, ← find_eq_none, ← find_eq_none]
    have hk := h k
    rw [view_map, view_map] at hk
    cases hx : find key k xs <;> cases hy : find key k ys <;> simp [hx, hy, Alike] at hk ⊢
  have hperm : (keys key xs).Perm (keys key ys) := (List.perm_ext_iff_of_nodup hxs hys).mpr hmem
  simpa [keys] using hperm.length_eq

/-- **Documents are equal** when they are seen alike at every path. -/
theorem equal_iff_view (hx : Wf key x) (hy : Wf key y) :
    equal key same x y = true ↔ ∀ p, Alike key same (view key p x) (view key p y) := by
  induction x using Doc.induct generalizing y with
  | scalar s => exact equal_leaf_iff rfl
  | list items => exact equal_leaf_iff rfl
  | map xs ih =>
    cases y with
    | scalar s => exact ⟨nofun, fun h => (h []).elim⟩
    | list items => exact ⟨nofun, fun h => (h []).elim⟩
    | map ys =>
      cases hx with
      | map hxs hxrest =>
        cases hy with
        | map hys hyrest =>
          rw [equal, Bool.and_eq_true, beq_iff_eq]
          constructor
          · rintro ⟨hlength, hwithin⟩ p
            cases p with
            | nil => trivial
            | cons k p =>
              rw [view_map, view_map]
              cases hfx : find key k xs with
              | none =>
                have hnot : k ∉ keys key ys := fun hk => find_eq_none.mp hfx (keys_of_within hxs hlength hwithin hk)
                rw [find_eq_none.mpr hnot]
                trivial
              | some v =>
                obtain ⟨f, hf, rfl, rfl⟩ := find_mem hfx
                obtain ⟨w, hw, hequal⟩ := within_iff.mp hwithin f hf
                rw [hw]
                exact (ih f hf (hxrest f hf) ((Wf.map hys hyrest).find hw)).mp hequal p
          · intro h
            refine ⟨length_of_alike hxs hys fun k => h [k], within_iff.mpr fun f hf => ?_⟩
            have hfield : ∀ p, Alike key same (view key p f.2) ((find key (key f.1) ys).bind (view key p)) := by
              intro p
              have hp := h (key f.1 :: p)
              rwa [view_map, view_map, find_of_mem hxs hf, Option.bind_some] at hp
            cases hw : find key (key f.1) ys with
            | none =>
              have hroot := hfield []
              rw [hw, view_nil] at hroot
              cases hseen : f.2.seen <;> simp [hseen, Alike] at hroot
            | some w =>
              rw [hw] at hfield
              exact ⟨w, rfl, (ih f hf (hxrest f hf) ((Wf.map hys hyrest).find hw)).mpr hfield⟩

theorem alike_refl (hsame : ∀ s, same s s = true) (h : Wf key d) : Alike key same (view key p d) (view key p d) :=
  (equal_iff_view h h).mp (equal_refl hsame h) p

variable (key same)

/-- The same value, or none. -/
def Same : Option (Doc σ) → Option (Doc σ) → Prop
  | none, none => True
  | some d, some e => equal key same d e = true
  | _, _ => False

variable {key same}

theorem same_iff_view (hx : Wf key x) (hy : Wf key y) : Same key same (get key p x) (get key q y) ↔
    ∀ r, Alike key same (view key (p ++ r) x) (view key (q ++ r) y) := by
  simp only [view_append]
  cases hgx : get key p x with
  | none =>
    cases hgy : get key q y with
    | none => exact ⟨fun _ _ => trivial, fun _ => trivial⟩
    | some w =>
      refine ⟨False.elim, fun h => ?_⟩
      have hroot := h []
      cases hw : w.seen <;> simp [hw, Alike] at hroot
  | some v =>
    cases hgy : get key q y with
    | none =>
      refine ⟨False.elim, fun h => ?_⟩
      have hroot := h []
      cases hv : v.seen <;> simp [hv, Alike] at hroot
    | some w => exact equal_iff_view (hx.get hgx) (hy.get hgy)

end Docs

/-! ## Counting -/

section Counting
variable {σ : Type}

/-- The documents of a depth. -/
def ofDepth : Nat → Set (Doc σ)
  | 0 => ∅
  | n + 1 => Set.range Doc.scalar ∪ Set.range (fun items : List (ofDepth n) => .list (items.map Subtype.val)) ∪
      Set.range fun fields : List (σ × ofDepth n) => .map (fields.map fun f => (f.1, f.2.1))

theorem ofDepth_countable [Countable σ] (n : Nat) : (ofDepth n : Set (Doc σ)).Countable := by
  induction n with
  | zero => exact Set.countable_empty
  | succ n ih =>
    have hn : Countable (ofDepth n : Set (Doc σ)) := ih
    exact ((Set.countable_range _).union (Set.countable_range _)).union (Set.countable_range _)

theorem ofDepth_le {m n : Nat} (h : m ≤ n) : (ofDepth m : Set (Doc σ)) ⊆ ofDepth n := by
  induction m generalizing n with
  | zero => exact Set.empty_subset _
  | succ m ih =>
    obtain ⟨n, rfl⟩ : ∃ k, n = k + 1 := ⟨n - 1, by omega⟩
    have hsub : (ofDepth m : Set (Doc σ)) ⊆ ofDepth n := ih (by omega)
    rintro d ((⟨s, rfl⟩ | ⟨items, rfl⟩) | ⟨fields, rfl⟩)
    · exact Or.inl (Or.inl ⟨s, rfl⟩)
    · exact Or.inl (Or.inr ⟨items.map fun d => ⟨d.1, hsub d.2⟩, by simp [Function.comp_def]⟩)
    · exact Or.inr ⟨fields.map fun f => (f.1, ⟨f.2.1, hsub f.2.2⟩), by simp [Function.comp_def]⟩

/-- Documents of which each has a depth have one in common. -/
theorem exists_depth {α : Type} (part : α → Doc σ) (l : List α) (h : ∀ a ∈ l, ∃ n, part a ∈ ofDepth n) :
    ∃ n, ∀ a ∈ l, part a ∈ ofDepth n := by
  induction l with
  | nil => exact ⟨0, nofun⟩
  | cons a l ih =>
    obtain ⟨n, hn⟩ := ih fun b hb => h b (List.mem_cons_of_mem a hb)
    obtain ⟨m, hm⟩ := h a List.mem_cons_self
    refine ⟨max m n, ?_⟩
    rintro b (_ | ⟨_, hb⟩)
    · exact ofDepth_le (le_max_left m n) hm
    · exact ofDepth_le (le_max_right m n) (hn b hb)

theorem mem_ofDepth (d : Doc σ) : ∃ n, d ∈ ofDepth n := by
  induction d using Doc.induct with
  | scalar s => exact ⟨1, Or.inl (Or.inl ⟨s, rfl⟩)⟩
  | list items ih =>
    obtain ⟨n, hn⟩ := exists_depth id items ih
    exact ⟨n + 1, Or.inl (Or.inr ⟨items.attach.map fun d => ⟨d.1, hn d.1 d.2⟩, by simp [Function.comp_def]⟩)⟩
  | map fields ih =>
    obtain ⟨n, hn⟩ := exists_depth Prod.snd fields ih
    exact ⟨n + 1, Or.inr ⟨fields.attach.map fun f => (f.1.1, ⟨f.1.2, hn f.1 f.2⟩), by
      simp [Function.comp_def, List.attach_map_subtype_val]⟩⟩

/-- There are as many documents as numbers. -/
theorem countable [Countable σ] : Countable (Doc σ) := by
  have hall : (⋃ n, ofDepth n : Set (Doc σ)) = Set.univ := by
    ext d
    simpa using mem_ofDepth d
  exact Set.countable_univ_iff.mp (hall ▸ Set.countable_iUnion ofDepth_countable)
end Counting

end Documents

import Hermes.HardenConfigViews
import Mathlib.Data.Rat.Denumerable

/- Hardening as a closure operator on profiles: a run leaves the contract's values, changes
   nothing else and is settled, if and only if the condition of `closure_iff` holds. The decision
   to write rests on Python's equality, so a file whose values have other types stays as it is. -/
namespace Hermes.HardenConfig
open Documents Yaml

/-- An apply run, with or without `--upgrade`. -/
def applying (upgrade : Bool) : Args := ⟨false, false, upgrade⟩

def checking : Args := ⟨true, false, false⟩

/-- What a run leaves: the contract's values and everything else as it was, and the runs after it
    find nothing to do. -/
structure Closed (tools : Tools) (hooks : Option Bool) (stamp contract : String) (disk disk' : Disk) (c : Contract)
    (existing document : Fields) : Prop where
  exact : Exact c document
  unnamed : ∀ p, said c (tools.sha256 contract) stamp p = none → seen p document = seen p existing
  env : EnvCarried c.desiredEnv disk disk'
  passes : ∀ later, main tools checking hooks later contract disk' = .ok (.pass, disk')
  settled : ∀ later, main tools (applying false) hooks later contract disk' = .ok (.unchanged false, disk')

/-- Every apply run that returns leaves a closed profile. -/
def Closure (tools : Tools) (upgrade : Bool) (hooks : Option Bool) (stamp contract : String) (disk : Disk) : Prop :=
  ∀ report disk', main tools (applying upgrade) hooks stamp contract disk = .ok (report, disk') →
    ∃ c existing document, loadContract tools contract = .ok c ∧ loadExisting tools disk = .ok existing ∧
      loadExisting tools disk' = .ok document ∧ Closed tools hooks stamp contract disk disk' c existing document

/-- The configuration is written. -/
def Writes (tools : Tools) (upgrade : Bool) (stamp contract : String) (disk : Disk) (c : Contract) (existing : Fields) : Prop :=
  upgrade = true ∨ disk.config = none ∨ ¬Agrees c (tools.sha256 contract) stamp existing

/-- Lines can carry the environment. Where the configuration is written, the record does not
    contradict the contract; where it is left, it has the contract's values with their types. -/
def Closable (tools : Tools) (upgrade : Bool) (stamp contract : String) (disk : Disk) : Prop :=
  ∀ c existing, loadContract tools contract = .ok c → c.desired.isMap = true → loadExisting tools disk = .ok existing →
    EnvSound c.desiredEnv disk ∧
      (Writes tools upgrade stamp contract disk c existing → Compatible c (tools.sha256 contract) stamp) ∧
      (¬Writes tools upgrade stamp contract disk c existing → Exact c existing)

section Runs
variable {tools : Tools} {args : Args} {upgrade : Bool} {hooks : Option Bool} {stamp later contract : String}
  {disk disk' : Disk} {c : Contract} {existing config document : Fields} {r : Report × Disk}

theorem main_ok (hargs : args.runtimeCheck = false) : main tools args hooks stamp contract disk = .ok r ↔
    ∃ c existing config, loadContract tools contract = .ok c ∧ loadExisting tools disk = .ok existing ∧
      applyContract existing c = .ok config ∧
        finish tools args stamp (tools.sha256 contract) c disk existing config = r := by
  have hhooks : checkHooks args hooks = .ok () := by simp [checkHooks, hargs]
  rw [main]
  constructor
  · intro h
    obtain ⟨c, hc, h⟩ := Outcome.bind_eq_ok.mp h
    obtain ⟨_, _, h⟩ := Outcome.bind_eq_ok.mp h
    obtain ⟨existing, hexisting, h⟩ := Outcome.bind_eq_ok.mp h
    obtain ⟨config, hconfig, h⟩ := Outcome.bind_eq_ok.mp h
    exact ⟨c, existing, config, hc, hexisting, hconfig, Except.ok.inj h⟩
  · rintro ⟨c, existing, config, hc, hexisting, hconfig, rfl⟩
    simp [hc, hhooks, hexisting, hconfig, bind, Except.bind, pure, Except.pure]

theorem applyContract_some (h : c.desired.isMap = true) : ∃ config, applyContract existing c = .ok config := by
  cases hd : c.desired with
  | map patch => exact ⟨_, by rw [applyContract, hd]; rfl⟩
  | scalar s => rw [hd] at h; cases h
  | list items => rw [hd] at h; cases h

theorem desired_isMap (h : applyContract existing c = .ok config) : c.desired.isMap = true := by
  obtain ⟨patch, hpatch, _⟩ := Outcome.bind_eq_ok.mp h
  rw [itemsOf_ok hpatch]
  rfl

/-- What is written is read again. -/
theorem loadExisting_written (hwf : Wf Scalar.key (.map document)) (h : disk'.config = some (tools.dump (.map document))) :
    loadExisting tools disk' = .ok document := by
  rw [loadExisting, h]
  simp only [readText_plain (tools.dump_newlines hwf), if_neg (tools.dump_not_blank hwf), tools.load_dump hwf]

/-- Nothing to do: the file is there and agrees, and the environment is settled. -/
theorem finish_settled (hdesired : Wf Scalar.key c.desired) (hdocument : Wf Scalar.key (.map document))
    (happly : applyContract document c = .ok config) (hthere : disk'.config ≠ none)
    (hagrees : Agrees c (tools.sha256 contract) stamp document) (henv : envNeedsUpdate c.desiredEnv disk' = false) :
    finish tools checking later (tools.sha256 contract) c disk' document config = (.pass, disk') ∧
      finish tools (applying false) later (tools.sha256 contract) c disk' document config = (.unchanged false, disk') := by
  have hequal : equal Scalar.key loose (.map (effective document))
      (.map (effective (setRecord (tools.sha256 contract) (previousStamp document later) config))) = true :=
    (equal_effective_iff hdesired hdocument happly).mpr hagrees
  have hsome : disk'.config.isNone = false := Option.isNone_eq_false_iff.mpr (Option.isSome_iff_ne_none.mpr hthere)
  constructor
  · simp [finish, configChanged, compared, checking, hequal, hsome, henv]
  · simp [finish, configChanged, compared, applying, hequal, hsome, henv, updateEnv]

theorem loadExisting_congr (h : disk.config = disk'.config) : loadExisting tools disk = loadExisting tools disk' := by
  rw [loadExisting, loadExisting, h]

theorem envText_congr (h : disk.env = disk'.env) : envText disk = envText disk' := by
  rw [envText, envText, h]

theorem envNeedsUpdate_congr {desired : List (String × String)} (h : disk.env = disk'.env) :
    envNeedsUpdate desired disk = envNeedsUpdate desired disk' := by
  rw [envNeedsUpdate, envNeedsUpdate, renderEnv, renderEnv, envLines, envLines, envText_congr h]

theorem updateEnv_env {desired : List (String × String)} (h : disk.env = disk'.env) :
    (updateEnv desired disk).env = (updateEnv desired disk').env := by
  have hrender : renderEnv desired disk = renderEnv desired disk' := by
    rw [renderEnv, renderEnv, envLines, envLines, envText_congr h]
  rw [updateEnv, updateEnv, envNeedsUpdate_congr h]
  split
  · exact congrArg some hrender
  · exact h

theorem updateEnv_config {desired : List (String × String)} : (updateEnv desired disk).config = disk.config := by
  rw [updateEnv]
  split <;> rfl

theorem envCarried_congr {desired : List (String × String)} (h : disk'.env = (updateEnv desired disk).env) :
    EnvCarried desired disk disk' ↔ EnvCarried desired disk (updateEnv desired disk) := by
  have hlines : envLines disk' = envLines (updateEnv desired disk) := by rw [envLines, envLines, envText_congr h]
  constructor
  · exact fun hc => ⟨hlines ▸ hc.carries, hlines ▸ hc.assigns, hlines ▸ hc.others⟩
  · exact fun hc => ⟨hlines ▸ hc.carries, hlines ▸ hc.assigns, hlines ▸ hc.others⟩

/-- What is left is closed when the contract's values and the environment are there. -/
theorem closed_iff (hc : loadContract tools contract = .ok c) (hload : loadExisting tools disk' = .ok document)
    (hmap : c.desired.isMap = true) (henv : disk'.env = (updateEnv c.desiredEnv disk).env) (hthere : disk'.config ≠ none)
    (hagrees : Agrees c (tools.sha256 contract) stamp document)
    (hunnamed : ∀ p, said c (tools.sha256 contract) stamp p = none → seen p document = seen p existing) :
    Closed tools hooks stamp contract disk disk' c existing document ↔ EnvSound c.desiredEnv disk ∧ Exact c document := by
  obtain ⟨hdesired, hkeys⟩ := loadContract_ok hc
  constructor
  · exact fun h => ⟨(env_carried_iff hkeys).mp ((envCarried_congr henv).mp h.env), h.exact⟩
  · rintro ⟨hsound, hexact⟩
    obtain ⟨config, happly⟩ := @applyContract_some c document hmap
    have hneeds : envNeedsUpdate c.desiredEnv disk' = false := by
      rw [envNeedsUpdate_congr henv, env_settled hsound.1 hkeys]
    have hfinish := fun later => @finish_settled tools stamp later contract _ _ _ _ hdesired (loadExisting_wf hload) happly
      hthere hagrees hneeds
    exact {
      exact := hexact
      unnamed := hunnamed
      env := (envCarried_congr henv).mpr ((env_carried_iff hkeys).mpr hsound)
      passes := fun later => (main_ok rfl).mpr ⟨c, document, config, hc, hload, happly, (hfinish later).1⟩
      settled := fun later => (main_ok rfl).mpr ⟨c, document, config, hc, hload, happly, (hfinish later).2⟩ }

theorem writes_iff (hdesired : Wf Scalar.key c.desired) (hexisting : Wf Scalar.key (.map existing))
    (happly : applyContract existing c = .ok config) : Writes tools upgrade stamp contract disk c existing ↔
      (upgrade || configChanged (applying upgrade) disk existing
        (setRecord (tools.sha256 contract) (previousStamp existing stamp) config)) = true := by
  have hequal : equal Scalar.key loose (.map (effective existing))
      (.map (effective (setRecord (tools.sha256 contract) (previousStamp existing stamp) config))) = true ↔
        Agrees c (tools.sha256 contract) stamp existing := equal_effective_iff hdesired hexisting happly
  have hcompared : compared (applying upgrade) = effective := rfl
  rw [Writes, ← hequal, configChanged, hcompared, Bool.or_eq_true, Bool.or_eq_true, Bool.not_eq_true', Bool.not_eq_true,
    Option.isNone_iff_eq_none]
  tauto

/-- What an apply run does. -/
theorem finish_applying (hdesired : Wf Scalar.key c.desired) (hexisting : Wf Scalar.key (.map existing))
    (happly : applyContract existing c = .ok config) :
    (Writes tools upgrade stamp contract disk c existing →
      finish tools (applying upgrade) stamp (tools.sha256 contract) c disk existing config =
        (.applied, updateEnv c.desiredEnv
          (writeConfig tools (setRecord (tools.sha256 contract) (str stamp) config) (backup stamp disk)))) ∧
    (¬Writes tools upgrade stamp contract disk c existing →
      finish tools (applying upgrade) stamp (tools.sha256 contract) c disk existing config =
        (.unchanged (envNeedsUpdate c.desiredEnv disk), updateEnv c.desiredEnv disk)) := by
  rw [writes_iff hdesired hexisting happly]
  exact ⟨fun h => if_pos h, fun h => if_neg h⟩

theorem backup_env : (backup stamp disk).env = disk.env := by
  rw [backup]
  split <;> rfl

/-- The run on contracts and configurations that are read. -/
theorem run_closed_iff (hc : loadContract tools contract = .ok c) (hload : loadExisting tools disk = .ok existing)
    (happly : applyContract existing c = .ok config)
    (hfinish : finish tools (applying upgrade) stamp (tools.sha256 contract) c disk existing config = r) :
    (∃ document, loadExisting tools r.2 = .ok document ∧ Closed tools hooks stamp contract disk r.2 c existing document) ↔
      EnvSound c.desiredEnv disk ∧
        (Writes tools upgrade stamp contract disk c existing → Compatible c (tools.sha256 contract) stamp) ∧
        (¬Writes tools upgrade stamp contract disk c existing → Exact c existing) := by
  obtain ⟨hdesired, hkeys⟩ := loadContract_ok hc
  have hexisting := loadExisting_wf hload
  have hmap := desired_isMap happly
  by_cases hwrites : Writes tools upgrade stamp contract disk c existing
  · -- the hardened configuration is written
    have hr := (finish_applying hdesired hexisting happly).1 hwrites
    rw [hfinish] at hr
    have hdisk : r.2 = updateEnv c.desiredEnv
        (writeConfig tools (setRecord (tools.sha256 contract) (str stamp) config) (backup stamp disk)) := congrArg Prod.snd hr
    have hconfig : r.2.config = some (tools.dump (.map (setRecord (tools.sha256 contract) (str stamp) config))) := by
      rw [hdisk, updateEnv_config]
      rfl
    have hread := loadExisting_written (setRecord_wf (applyContract_wf hdesired hexisting happly) (.scalar _)) hconfig
    have hclosed : Closed tools hooks stamp contract disk r.2 c existing _ ↔ EnvSound c.desiredEnv disk ∧ Exact c _ :=
      closed_iff hc hread hmap (by rw [hdisk]; exact updateEnv_env backup_env) (by simp [hconfig])
        (agrees_hardened hdesired hexisting happly) (fun p hp => by rw [view_hardened hdesired happly, hp, Option.getD_none])
    rw [exact_hardened_iff hdesired hexisting happly] at hclosed
    constructor
    · rintro ⟨document, hdocument, h⟩
      cases hread.symm.trans hdocument
      exact ⟨(hclosed.mp h).1, fun _ => (hclosed.mp h).2, absurd hwrites⟩
    · rintro ⟨hsound, hcompatible, _⟩
      exact ⟨_, hread, hclosed.mpr ⟨hsound, hcompatible hwrites⟩⟩
  · -- the configuration is left as it is
    have hr := (finish_applying hdesired hexisting happly).2 hwrites
    rw [hfinish] at hr
    have hdisk : r.2 = updateEnv c.desiredEnv disk := congrArg Prod.snd hr
    have hread : loadExisting tools r.2 = .ok existing := by
      rw [hdisk, loadExisting_congr updateEnv_config, hload]
    have hkept : disk.config ≠ none ∧ Agrees c (tools.sha256 contract) stamp existing := by
      rw [Writes, not_or, not_or, not_not] at hwrites
      exact hwrites.2
    have hclosed : Closed tools hooks stamp contract disk r.2 c existing existing ↔
        EnvSound c.desiredEnv disk ∧ Exact c existing :=
      closed_iff hc hread hmap (by rw [hdisk]) (by rw [hdisk, updateEnv_config]; exact hkept.1) hkept.2 fun _ _ => rfl
    constructor
    · rintro ⟨document, hdocument, h⟩
      cases hread.symm.trans hdocument
      exact ⟨(hclosed.mp h).1, fun hw => absurd hw hwrites, fun _ => (hclosed.mp h).2⟩
    · rintro ⟨hsound, _, hexact⟩
      exact ⟨existing, hread, hclosed.mpr ⟨hsound, hexact hwrites⟩⟩

end Runs

theorem countable_text : Countable String := by
  have hchar : Countable Char := Function.Injective.countable fun c d (h : c.toNat = d.toNat) => Char.toNat_inj.mp h
  exact Function.Injective.countable fun s t (h : s.toList = t.toList) => String.toList_inj.mp h

/-- The constructor of a scalar and what it holds. -/
def scalarCode : Scalar → Unit ⊕ Bool ⊕ Int ⊕ Rat ⊕ Bool ⊕ String ⊕ List UInt8 ⊕ String ⊕ String
  | .null => .inl ()
  | .bool b => .inr (.inl b)
  | .int n => .inr (.inr (.inl n))
  | .float x => .inr (.inr (.inr (.inl x.value)))
  | .infinity b => .inr (.inr (.inr (.inr (.inl b))))
  | .str s => .inr (.inr (.inr (.inr (.inr (.inl s)))))
  | .bytes data => .inr (.inr (.inr (.inr (.inr (.inr (.inl data))))))
  | .date t => .inr (.inr (.inr (.inr (.inr (.inr (.inr (.inl t)))))))
  | .datetime t => .inr (.inr (.inr (.inr (.inr (.inr (.inr (.inr t)))))))

theorem countable_scalar : Countable Scalar := by
  have htext := countable_text
  have hbyte : Countable UInt8 := Function.Injective.countable fun b c (h : b.toNat = c.toNat) => UInt8.toNat_inj.mp h
  have hcode : Function.Injective scalarCode := by
    intro s t h
    cases s with
    | float x =>
      cases t with
      | float y =>
        obtain ⟨x, hx⟩ := x
        obtain ⟨y, hy⟩ := y
        simp_all [scalarCode]
      | _ => simp [scalarCode] at h
    | _ => cases t <;> simp_all [scalarCode]
  exact hcode.countable

/-- There is a way to write documents. -/
theorem exists_dump : ∃ dump : Value → String, Function.Injective dump ∧
    ∀ v, '\r' ∉ (dump v).toList ∧ strip (dump v) ≠ "" := by
  have hscalar := countable_scalar
  have hvalue : Countable Value := countable
  obtain ⟨number, hnumber⟩ := Countable.exists_injective_nat Value
  refine ⟨fun v => String.ofList (List.replicate (number v + 1) '-'), ?_, ?_⟩
  · intro v w h
    have hlength := congrArg (fun s => s.toList.length) h
    simp only [String.toList_ofList, List.length_replicate, Nat.add_right_cancel_iff] at hlength
    exact hnumber hlength
  · intro v
    constructor
    · rw [String.toList_ofList]
      intro h
      exact absurd (List.eq_of_mem_replicate h) (by decide)
    · intro h
      have hhead : (stripChars (List.replicate (number v + 1) '-')).head? = some '-' := by
        rw [stripChars_head]
        simp [lstripChars, List.replicate_succ, show isSpace '-' = false from by decide]
      rw [strip, String.toList_ofList] at h
      rw [← String.toList_ofList (l := stripChars _), h] at hhead
      cases hhead

/-- One setting. -/
def sampleFields (s : Scalar) : Fields := [(.str "security", .map [(.str "tirith_enabled", .scalar s)])]

def sampleContract : Value :=
  .map [(.str "version", .scalar (.int 1)), (.str "config", .map (sampleFields (.bool true)))]

def sampleLoaded : Contract := ⟨.map (sampleFields (.bool true)), [], []⟩

/-- The setting has another type; the record is up to date. -/
def sampleExisting : Fields := setRecord "0" (str "20260101T000000Z") (sampleFields (.int 1))

theorem sampleFields_wf (s : Scalar) : Wf Scalar.key (.map (sampleFields s)) := wf_empty.put (wf_empty.put (.scalar s))

theorem sampleContract_wf : Wf Scalar.key sampleContract := by
  have hversion : Wf Scalar.key (.map [(.str "version", .scalar (.int 1))]) := wf_empty.put (.scalar _)
  have hboth : Wf Scalar.key (.map (put Scalar.key (.str "config") (.map (sampleFields (.bool true)))
      [(.str "version", .scalar (.int 1))])) := hversion.put (sampleFields_wf (.bool true))
  exact hboth

theorem sampleExisting_wf : Wf Scalar.key (.map sampleExisting) := setRecord_wf (sampleFields_wf _) (.scalar _)

end Hermes.HardenConfig

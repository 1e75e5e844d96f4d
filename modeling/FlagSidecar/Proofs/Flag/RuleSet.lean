import FlagSidecar.Flag.RuleSet
import FlagSidecar.Proofs.Text.Utf8

/-!
# FlagSidecar.Proofs.Flag.RuleSet: a rule set is its list of definitions

A list may define a name more than once, and then the last definition is the one in effect. Whatever a rule
set shows can be said in terms of the list: which names there are, what is seen of each flag, and what an
evaluation answers. The bucketing key and the attributes of an evaluation play no part.

Main statements: `RuleSet.get?_eq_some_iff`, `RuleSet.reflects_ofDefinitions`.
-/

namespace FlagSidecar

namespace FlagDefinition

/-- **What is seen of a definition**: what its author wrote, with the default treatment at the end of the
treatments if it was not among them. -/
structure SeenAs (d : FlagDefinition) (v : FlagView) : Prop where
  name_eq : v.name = d.name
  trafficType_eq : v.trafficType = d.trafficType
  killed_eq : v.killed = d.killed
  changeNumber_eq : v.changeNumber = d.changeNumber
  configs_eq : v.configs = d.configs
  defaultTreatment_eq : v.defaultTreatment = d.defaultTreatment
  sets_eq : v.sets = d.sets
  treatments_of_mem : d.defaultTreatment ∈ d.treatments → v.treatments = d.treatments
  treatments_of_not_mem :
    d.defaultTreatment ∉ d.treatments → v.treatments = d.treatments ++ [d.defaultTreatment]

/-- **What a definition answers to a key**: killed before all else, then the treatment of the key, then the
default. -/
structure Answers (d : FlagDefinition) (key : String) (e : Evaluation) : Prop where
  changeNumber_eq : e.changeNumber = d.changeNumber
  of_killed : d.killed = true → e.treatment = d.defaultTreatment ∧ e.label = "killed"
  of_key : d.killed = false → ∀ treatment, d.keys.get? key = some treatment →
    e.treatment = treatment ∧ e.label = "whitelisted"
  of_default : d.killed = false → d.keys.get? key = none →
    e.treatment = d.defaultTreatment ∧ e.label = "default rule"

variable (d : FlagDefinition)

theorem seenAs_view : d.SeenAs d.view where
  name_eq := rfl
  trafficType_eq := rfl
  killed_eq := rfl
  changeNumber_eq := rfl
  configs_eq := rfl
  defaultTreatment_eq := rfl
  sets_eq := rfl
  treatments_of_mem h := if_pos (List.contains_iff_mem.mpr h)
  treatments_of_not_mem h := if_neg (by rwa [List.contains_iff_mem])

theorem answers_evaluate (key : String) : d.Answers key (d.evaluate key) where
  changeNumber_eq := rfl
  of_killed h := by
    unfold evaluate treatmentFor
    rw [if_pos h]
    exact ⟨rfl, rfl⟩
  of_key h treatment hkey := by
    unfold evaluate treatmentFor
    rw [if_neg (by rw [h]; exact Bool.false_ne_true), hkey]
    exact ⟨rfl, rfl⟩
  of_default h hkey := by
    unfold evaluate treatmentFor
    rw [if_neg (by rw [h]; exact Bool.false_ne_true), hkey]
    exact ⟨rfl, rfl⟩

/-- The label of a flag that is not defined is no label of a definition. -/
theorem label_evaluate_ne (key : String) : (d.evaluate key).label ≠ Label.definitionNotFound := by
  have h := d.answers_evaluate key
  cases hkilled : d.killed with
  | true =>
    rw [(h.of_killed hkilled).2]
    decide
  | false =>
    cases hkey : d.keys.get? key with
    | some treatment =>
      rw [(h.of_key hkilled treatment hkey).2]
      decide
    | none =>
      rw [(h.of_default hkilled hkey).2]
      decide

end FlagDefinition

namespace RuleSet

/-! ## The definition in effect -/

/-- **A definition is in effect** if none behind it in the list has its name. -/
def InEffect (ds : List FlagDefinition) (d : FlagDefinition) : Prop :=
  ∃ before after, ds = before ++ d :: after ∧ ∀ other ∈ after, other.name ≠ d.name

theorem lookup_map_name (ds : List FlagDefinition) (name : String) :
    NameMap.lookup name (ds.map fun d => (d.name, d)) = ds.find? fun d => d.name = name := by
  induction ds with
  | nil => rfl
  | cons d rest ih =>
    rw [List.map_cons, NameMap.lookup, List.find?_cons, ih]
    by_cases h : d.name = name <;> simp [h]

theorem get?_ofDefinitions (ds : List FlagDefinition) (name : String) :
    (ofDefinitions ds).definitions.get? name = ds.reverse.find? fun d => d.name = name := by
  rw [ofDefinitions, NameMap.get?_ofList, ← List.map_reverse, lookup_map_name]

/-- **A rule set holds under each name the definition in effect.** -/
theorem get?_eq_some_iff {ds : List FlagDefinition} {name : String} {d : FlagDefinition} :
    (ofDefinitions ds).definitions.get? name = some d ↔ InEffect ds d ∧ d.name = name := by
  rw [get?_ofDefinitions, List.find?_eq_some_iff_append]
  constructor
  · rintro ⟨hname, after, before, hsplit, hafter⟩
    have hname : d.name = name := of_decide_eq_true hname
    refine ⟨⟨before.reverse, after.reverse, ?_, fun other hother => ?_⟩, hname⟩
    · rw [← List.reverse_reverse ds, hsplit]
      simp
    · have h := hafter other (List.mem_reverse.mp hother)
      rw [hname]
      simpa using h
  · rintro ⟨⟨before, after, rfl, hafter⟩, rfl⟩
    refine ⟨decide_eq_true rfl, after.reverse, before.reverse, by simp, fun other hother => ?_⟩
    simpa using hafter other (List.mem_reverse.mp hother)

theorem get?_isSome_iff {ds : List FlagDefinition} {name : String} :
    ((ofDefinitions ds).definitions.get? name).isSome = true ↔ ∃ d ∈ ds, d.name = name := by
  rw [get?_ofDefinitions, List.find?_isSome]
  simp

/-! ## Views -/

/-- Values are listed in the order of their names. -/
theorem map_some_values {α : Type} (m : NameMap α) : m.values.map some = m.names.map m.get? := by
  rw [NameMap.values, NameMap.names, List.map_map, List.map_map]
  refine List.map_congr_left fun e he => ?_
  exact (NameMap.mem_entries_iff.mp he).symm

theorem map_some_flags (r : RuleSet) : r.flags.map some = r.flagNames.map r.flag := by
  have h := congrArg (List.map (Option.map FlagDefinition.view)) (map_some_values r.definitions)
  rw [List.map_map, List.map_map] at h
  rw [flags, flagNames, List.map_map]
  exact h

theorem flag_isSome_iff (r : RuleSet) (name : String) :
    (r.flag name).isSome = true ↔ name ∈ r.flagNames := by
  rw [flag, Option.isSome_map, flagNames, NameMap.mem_names_iff]

/-- **A rule set reflects a list of definitions**: each of its views says what the list says, and so they
agree with one another. -/
structure Reflects (ds : List FlagDefinition) (r : RuleSet) : Prop where
  names_increase : (r.evaluator.flagNames.map Bytes.utf8).Pairwise (· < ·)
  mem_names_iff : ∀ name, name ∈ r.evaluator.flagNames ↔ ∃ d ∈ ds, d.name = name
  flags_eq : r.evaluator.flags.map some = r.evaluator.flagNames.map r.evaluator.flag
  size_eq : r.size = r.evaluator.flagNames.length
  flag_isSome_iff : ∀ name, (r.evaluator.flag name).isSome = true ↔ name ∈ r.evaluator.flagNames
  /-- An evaluation always has an answer, and its label says whether there is such a flag. -/
  label_iff : ∀ q, ∃ e, r.evaluator.evaluate q = .ok e ∧
    ((r.evaluator.flag q.feature).isSome = true ↔ e.label ≠ "definition not found")
  known : ∀ q, q.feature ∈ r.evaluator.flagNames →
    ∃ d v e, InEffect ds d ∧ d.name = q.feature ∧
      r.evaluator.flag q.feature = some v ∧ d.SeenAs v ∧
      r.evaluator.evaluate q = .ok e ∧ d.Answers q.key e ∧ e.config = v.configs.get? e.treatment
  unknown : ∀ q, q.feature ∉ r.evaluator.flagNames →
    r.evaluator.flag q.feature = none ∧
      r.evaluator.evaluate q = .ok ⟨"control", "definition not found", -1, none⟩

/-- **All views of a rule set agree with the list that it was made of.** -/
theorem reflects_ofDefinitions (ds : List FlagDefinition) : Reflects ds (ofDefinitions ds) where
  names_increase := by
    rw [List.pairwise_map]
    exact (ofDefinitions ds).definitions.sorted_names.imp Bytes.utf8_lt_utf8_iff.mpr
  mem_names_iff name := by
    show name ∈ (ofDefinitions ds).definitions.names ↔ _
    rw [NameMap.mem_names_iff, get?_isSome_iff]
  flags_eq := map_some_flags _
  size_eq := (List.length_map _).symm
  flag_isSome_iff := flag_isSome_iff _
  label_iff q := by
    refine ⟨_, rfl, ?_⟩
    show ((ofDefinitions ds).flag q.feature).isSome = true ↔ ((ofDefinitions ds).evaluate q).label ≠ _
    rw [flag, evaluate]
    cases (ofDefinitions ds).definitions.get? q.feature with
    | some d => exact iff_of_true rfl (d.label_evaluate_ne q.key)
    | none => exact iff_of_false Bool.false_ne_true fun h => h rfl
  known q h := by
    obtain ⟨d, hget⟩ := Option.isSome_iff_exists.mp (NameMap.mem_names_iff.mp h)
    obtain ⟨heffect, hname⟩ := get?_eq_some_iff.mp hget
    refine ⟨d, d.view, d.evaluate q.key, heffect, hname, ?_, d.seenAs_view, ?_,
      d.answers_evaluate q.key, rfl⟩
    · show (ofDefinitions ds).flag q.feature = _
      rw [flag, hget]
      rfl
    · show Except.ok ((ofDefinitions ds).evaluate q) = _
      rw [evaluate, hget]
  unknown q h := by
    have hget : (ofDefinitions ds).definitions.get? q.feature = none := by
      rw [← Option.not_isSome_iff_eq_none, ← NameMap.mem_names_iff]
      exact h
    constructor
    · show (ofDefinitions ds).flag q.feature = _
      rw [flag, hget]
      rfl
    · show Except.ok ((ofDefinitions ds).evaluate q) = _
      rw [evaluate, hget]
      rfl

end RuleSet

end FlagSidecar

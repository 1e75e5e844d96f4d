import FlagSidecar.Proofs.Flag.RuleSet

/-!
# FlagSidecar.Proofs.Flag.View: which answers a view lists

A view lists the treatments that the author of a flag listed, and the default treatment. The default is what
the kill switch answers, and what every key without a treatment of its own gets. The treatment of a key of its
own is another matter: nothing puts it into the list if its author did not.

Main statements: `FlagDefinition.mem_treatments_view_iff`, `RuleSet.listsAnswer_iff` and
`RuleSet.listsAnswer_all_iff`.
-/

namespace FlagSidecar

namespace FlagDefinition

variable (d : FlagDefinition)

/-- **A treatment is listed** if it was written in the list or is the default. -/
theorem mem_treatments_view_iff (treatment : String) :
    treatment ∈ d.view.treatments ↔ treatment ∈ d.treatments ∨ treatment = d.defaultTreatment := by
  by_cases h : d.defaultTreatment ∈ d.treatments
  · rw [d.seenAs_view.treatments_of_mem h]
    constructor
    · exact Or.inl
    · rintro (hmem | rfl)
      · exact hmem
      · exact h
  · rw [d.seenAs_view.treatments_of_not_mem h]
    simp

/-- **A definition gives a key a treatment that it does not list**: the key has a treatment of its own, which is
neither in the list nor the default, and the flag is not killed. -/
def GivesUnlisted (key : String) : Prop :=
  d.killed = false ∧
    ∃ treatment, d.keys.get? key = some treatment ∧ treatment ∉ d.treatments ∧
      treatment ≠ d.defaultTreatment

/-- The answer to a key is listed unless it is given against the list. The cases are the three places that a
treatment comes from. -/
theorem treatment_evaluate_mem_view_iff (key : String) :
    (d.evaluate key).treatment ∈ d.view.treatments ↔ ¬ d.GivesUnlisted key := by
  have hanswers := d.answers_evaluate key
  rw [mem_treatments_view_iff]
  cases hkilled : d.killed with
  | true =>
    rw [(hanswers.of_killed hkilled).1]
    apply iff_of_true (Or.inr rfl)
    rintro ⟨hnot, -⟩
    rw [hkilled] at hnot
    exact Bool.false_ne_true hnot.symm
  | false =>
    cases hkey : d.keys.get? key with
    | none =>
      rw [(hanswers.of_default hkilled hkey).1]
      apply iff_of_true (Or.inr rfl)
      rintro ⟨-, treatment, hsome, -⟩
      rw [hkey] at hsome
      cases hsome
    | some treatment =>
      rw [(hanswers.of_key hkilled treatment hkey).1]
      constructor
      · rintro hlisted ⟨-, other, hother, hnot, hne⟩
        obtain rfl : treatment = other := Option.some.inj (hkey.symm.trans hother)
        exact hlisted.elim hnot hne
      · intro hgives
        apply Decidable.byContradiction
        intro hnot
        rw [not_or] at hnot
        exact hgives ⟨hkilled, treatment, hkey, hnot⟩

end FlagDefinition

namespace RuleSet

variable {ds : List FlagDefinition} {d : FlagDefinition}

theorem InEffect.get? (h : InEffect ds d) : (ofDefinitions ds).definitions.get? d.name = some d :=
  get?_eq_some_iff.mpr ⟨h, rfl⟩

theorem InEffect.flag (h : InEffect ds d) : (ofDefinitions ds).flag d.name = some d.view := by
  rw [RuleSet.flag, h.get?]
  rfl

theorem InEffect.evaluate (h : InEffect ds d) {q : Query} (hq : q.feature = d.name) :
    (ofDefinitions ds).evaluate q = d.evaluate q.key := by
  rw [RuleSet.evaluate, hq, h.get?]

/-- The views in the list of all flags are those of each name. -/
theorem mem_flags_iff {v : FlagView} :
    v ∈ (ofDefinitions ds).flags ↔ (ofDefinitions ds).flag v.name = some v := by
  have hflags : v ∈ (ofDefinitions ds).flags ↔
      ∃ name ∈ (ofDefinitions ds).flagNames, (ofDefinitions ds).flag name = some v := by
    rw [← List.mem_map, ← map_some_flags]
    simp
  rw [hflags]
  constructor
  · rintro ⟨name, -, hview⟩
    -- a definition is held under its own name, so its view has the name it was found under
    obtain ⟨d, hget, rfl⟩ := Option.map_eq_some_iff.mp hview
    obtain ⟨hin, hname⟩ := get?_eq_some_iff.mp hget
    subst hname
    exact hin.flag
  · intro hview
    refine ⟨v.name, ?_, hview⟩
    rw [← flag_isSome_iff, hview]
    rfl

/-- **A rule set lists its answer to a question**: the answer's treatment is among the treatments of the flag's
view, alone and in the list of all flags, where the flag has an entry. -/
def ListsAnswer (r : RuleSet) (q : Query) : Prop :=
  ∃ e v, r.evaluator.evaluate q = .ok e ∧
    r.evaluator.flag q.feature = some v ∧ e.treatment ∈ v.treatments ∧
    (∃ w ∈ r.evaluator.flags, w.name = q.feature) ∧
    ∀ w ∈ r.evaluator.flags, w.name = q.feature → e.treatment ∈ w.treatments

/-- Alone and among all flags, a flag is seen the same. -/
theorem listsAnswer_iff_mem (h : InEffect ds d) {q : Query} (hq : q.feature = d.name) :
    (ofDefinitions ds).ListsAnswer q ↔ (d.evaluate q.key).treatment ∈ d.view.treatments := by
  constructor
  · rintro ⟨e, v, he, hv, hmem, -⟩
    have he' : d.evaluate q.key = e := by
      rw [← h.evaluate hq]
      exact Except.ok.inj he
    have hv' : d.view = v := by
      have hflag : (ofDefinitions ds).flag q.feature = some v := hv
      rw [hq, h.flag] at hflag
      exact Option.some.inj hflag
    rw [he', hv']
    exact hmem
  · intro hmem
    refine ⟨d.evaluate q.key, d.view, ?_, ?_, hmem, ⟨d.view, mem_flags_iff.mpr h.flag, hq.symm⟩, ?_⟩
    · show Except.ok ((ofDefinitions ds).evaluate q) = _
      rw [h.evaluate hq]
    · show (ofDefinitions ds).flag q.feature = _
      rw [hq, h.flag]
    · intro w hw hname
      have hflag := mem_flags_iff.mp hw
      rw [hname, hq, h.flag] at hflag
      rw [← Option.some.inj hflag]
      exact hmem

/-- By its definition in effect, a flag lists its answer to a key unless it is given against the list. -/
theorem listsAnswer_iff_not_gives (h : InEffect ds d) {q : Query} (hq : q.feature = d.name) :
    (ofDefinitions ds).ListsAnswer q ↔ ¬ d.GivesUnlisted q.key := by
  rw [listsAnswer_iff_mem h hq]
  exact d.treatment_evaluate_mem_view_iff q.key

/-- **The answer to a question about a known flag is listed unless the definition in effect gives the key a treatment
that it does not list.** What the kill switch and the default rule answer is always listed. -/
theorem listsAnswer_iff {q : Query} (hknown : q.feature ∈ (ofDefinitions ds).evaluator.flagNames) :
    ∃ d, InEffect ds d ∧ d.name = q.feature ∧
      ((ofDefinitions ds).ListsAnswer q ↔ ¬ d.GivesUnlisted q.key) := by
  obtain ⟨d, hget⟩ := Option.isSome_iff_exists.mp (NameMap.mem_names_iff.mp hknown)
  obtain ⟨hin, hname⟩ := get?_eq_some_iff.mp hget
  exact ⟨d, hin, hname, listsAnswer_iff_not_gives hin hname.symm⟩

/-- Two definitions of one flag, of which the second counts: it lists the treatment of alice that the first
one left out. -/
theorem listsAnswer_iff_listed :
    let first : FlagDefinition :=
      { name := "f", defaultTreatment := "off", keys := .ofList [("alice", "on")] }
    let second : FlagDefinition := { first with treatments := ["on"] }
    let q : Query := ⟨"alice", none, "f", none⟩
    q.feature ∈ (ofDefinitions [first, second]).evaluator.flagNames ∧
      (ofDefinitions [first, second]).ListsAnswer q := by
  intro first second q
  have hknown : q.feature ∈ (ofDefinitions [first, second]).evaluator.flagNames := by
    show "f" ∈ (ofDefinitions [first, second]).flagNames
    decide
  obtain ⟨d, hd, hname, hlists⟩ := listsAnswer_iff hknown
  have hsecond : InEffect [first, second] second := ⟨[first], [], rfl, by simp⟩
  have hget := hd.get?
  rw [hname] at hget
  obtain rfl : second = d := Option.some.inj (hsecond.get?.symm.trans hget)
  refine ⟨hknown, hlists.mpr ?_⟩
  rintro ⟨-, treatment, hkey, hnot, -⟩
  obtain rfl : "on" = treatment := Option.some.inj hkey
  exact hnot (by decide)

/-- **A treatment of a key need not be listed**: it is when it is written nowhere else that the view leaves it
out. -/
theorem not_listsAnswer_of_known :
    ¬ ∀ (ds : List FlagDefinition) (q : Query), q.feature ∈ (ofDefinitions ds).evaluator.flagNames →
      (ofDefinitions ds).ListsAnswer q := by
  intro hlists
  let d : FlagDefinition :=
    { name := "f", defaultTreatment := "off", keys := .ofList [("alice", "on")] }
  have hin : InEffect [d] d := ⟨[], [], rfl, by simp⟩
  have hknown : "f" ∈ (ofDefinitions [d]).flagNames := by decide
  have hmem := (listsAnswer_iff_mem hin rfl).mp (hlists [d] ⟨"alice", none, "f", none⟩ hknown)
  exact absurd hmem (by decide)

/-- **A view lists all that its flag can answer** exactly if the flag is killed or the treatments of all keys are
listed. -/
theorem listsAnswer_all_iff (h : InEffect ds d) :
    (∀ q : Query, q.feature = d.name → (ofDefinitions ds).ListsAnswer q) ↔
      d.killed = true ∨ ∀ treatment ∈ d.keys.values,
        treatment ∈ d.treatments ∨ treatment = d.defaultTreatment := by
  have hvalues (treatment : String) :
      treatment ∈ d.keys.values ↔ ∃ key, d.keys.get? key = some treatment := by
    simp [NameMap.values, ← NameMap.mem_entries_iff]
  constructor
  · intro hall
    cases hkilled : d.killed with
    | true => exact Or.inl rfl
    | false =>
      right
      intro treatment hvalue
      obtain ⟨key, hkey⟩ := (hvalues treatment).mp hvalue
      have hgives := (listsAnswer_iff_not_gives h rfl).mp (hall ⟨key, none, d.name, none⟩ rfl)
      apply Decidable.byContradiction
      intro hnot
      rw [not_or] at hnot
      exact hgives ⟨hkilled, treatment, hkey, hnot⟩
  · intro hcomplete q hq
    rw [listsAnswer_iff_not_gives h hq]
    rintro ⟨hkilled, treatment, hkey, hnot, hne⟩
    rcases hcomplete with htrue | hlisted
    · exact Bool.false_ne_true (hkilled.symm.trans htrue)
    · exact (hlisted treatment ((hvalues treatment).mpr ⟨q.key, hkey⟩)).elim hnot hne

end RuleSet

end FlagSidecar

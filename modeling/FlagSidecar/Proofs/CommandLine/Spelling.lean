import FlagSidecar.Proofs.CommandLine.Ask

/-!
# FlagSidecar.Proofs.CommandLine.Spelling: everything that can be asked can be spelled

An option with its value can be given as one argument, with the equals sign between them. Read in this way the
value is any text at all, one that looks like an option included. So there are arguments for every question, and
attributes without doubles can be given as their own text.

Main statements: `Grammar.readArguments_spelled` and `exists_args`.
-/

namespace FlagSidecar.CommandLine

/-- An option and its value as one argument. -/
def spelled (name value : String) : String := "--" ++ name ++ "=" ++ value

/-- An option without a value. -/
def flag (name : String) : String := "--" ++ name

/-- A name that can stand before an equals sign. -/
def Plain (name : String) : Prop := name.toList ≠ [] ∧ '=' ∉ name.toList

instance (name : String) : Decidable (Plain name) := by unfold Plain; infer_instance

theorem Plain.ne_of_mem {name : String} (h : Plain name) {c : Char} (hc : c ∈ name.toList) :
    decide (c ≠ '=') = true :=
  decide_eq_true (ne_of_mem_of_not_mem hc h.2)

namespace Token

variable {name : String} (hname : Plain name)

include hname

/-- Behind a plain name comes nothing, or an equals sign with the value behind it. -/
theorem ofText_plain {text : String} (behind : List Char)
    (htext : text.toList = '-' :: '-' :: (name.toList ++ behind))
    (hbehind : ∀ c ∈ behind.head?, c = '=') :
    ofText text = .long name (behind.tail?.map String.ofList) := by
  have htake : (name.toList ++ behind).takeWhile (· ≠ '=') = name.toList := by
    rw [List.takeWhile_append_of_pos fun _ => hname.ne_of_mem]
    cases behind with
    | nil => simp
    | cons c value => simp [hbehind c rfl]
  have hdrop : (name.toList ++ behind).dropWhile (· ≠ '=') = behind := by
    rw [List.dropWhile_append_of_pos fun _ => hname.ne_of_mem]
    cases behind with
    | nil => simp
    | cons c value => simp [hbehind c rfl]
  -- two dashes with nothing behind them would end the options
  obtain ⟨c, cs, hcs⟩ := List.exists_cons_of_ne_nil hname.1
  rw [hcs, List.cons_append] at htext htake hdrop
  rw [ofText, htext]
  simp only [htake, hdrop]
  rw [← hcs, String.ofList_toList]
  cases behind <;> rfl

theorem ofText_spelled (value : String) : ofText (spelled name value) = .long name (some value) := by
  rw [ofText_plain hname ('=' :: value.toList) (by simp [spelled]) (by simp), List.tail?_cons,
    Option.map_some, String.ofList_toList]

theorem ofText_flag : ofText (flag name) = .long name none :=
  ofText_plain hname [] (by simp [flag]) (by simp)

end Token

namespace Grammar

variable {g : Grammar} {p p' : Parsed} {o : OptionSpec} {name : String} (hname : Plain name)
  (hfind : g.options.find? (·.name = name) = some o)

include hname hfind

/-- **An option that is spelled with its value is taken down with it**, whatever the value is. -/
theorem readArguments_spelled {value : String} (harity : o.arity ≠ .flag)
    (hrecord : p.record o value = .ok p') (rest : List String) :
    g.readArguments p none (spelled name value :: rest) = g.readArguments p' none rest := by
  have hread : g.readLong p name (some value) = .ok (none, p') := by
    simp only [readLong, hfind, if_neg harity, hrecord]
    rfl
  rw [readArguments.eq_def]
  simp only [Token.ofText_spelled hname, hread]
  rfl

theorem readArguments_flag (harity : o.arity = .flag) (hrecord : p.record o "" = .ok p')
    (rest : List String) :
    g.readArguments p none (flag name :: rest) = g.readArguments p' none rest := by
  have hread : g.readLong p name none = .ok (none, p') := by
    simp only [readLong, hfind, if_pos harity, hrecord]
    rfl
  rw [readArguments.eq_def]
  simp only [Token.ofText_flag hname, hread]
  rfl

/-- An option that takes any text is taken down as it is spelled, if it is new. -/
theorem readArguments_optional (harity : o.arity = .single) (hname' : o.name = name)
    (haccepts : ∀ value, o.accepts value = true) (hnew : p.has name = false) (value : Option String)
    (rest : List String) :
    g.readArguments p none (value.toList.map (spelled name) ++ rest) =
      g.readArguments { p with given := p.given ++ value.toList.map (name, ·) } none rest := by
  cases value with
  | none => simp
  | some value =>
    have hrecord : p.record o value = .ok { p with given := p.given ++ [(name, value)] } := by
      rw [Parsed.record, if_pos ⟨haccepts value, .inr (by simp [hname', hnew])⟩, hname']
    exact readArguments_spelled hname hfind (by rw [harity]; decide) hrecord rest

/-- An option without a value is taken down if it stands there, and is new. -/
theorem readArguments_switch (harity : o.arity = .flag) (hname' : o.name = name)
    (haccepts : ∀ value, o.accepts value = true) (hnew : p.has name = false) (given : Bool)
    (rest : List String) :
    g.readArguments p none ((if given then [flag name] else []) ++ rest) =
      g.readArguments { p with given := p.given ++ if given then [(name, "")] else [] } none rest := by
  cases given with
  | false => simp
  | true =>
    have hrecord : p.record o "" = .ok { p with given := p.given ++ [(name, "")] } := by
      rw [Parsed.record, if_pos ⟨haccepts "", .inr (by simp [hname', hnew])⟩, hname']
    exact readArguments_flag hname hfind harity hrecord rest

/-- An option that may be repeated is taken down as often as it is spelled. -/
theorem readArguments_repeated (harity : o.arity = .repeated) (hname' : o.name = name)
    (haccepts : ∀ value, o.accepts value = true) (values rest : List String) :
    g.readArguments p none (values.map (spelled name) ++ rest) =
      g.readArguments { p with given := p.given ++ values.map (name, ·) } none rest := by
  induction values generalizing p with
  | nil => simp
  | cons value values ih =>
    have hrecord : p.record o value = .ok { p with given := p.given ++ [(name, value)] } := by
      rw [Parsed.record, if_pos ⟨haccepts value, .inl harity⟩, hname']
    rw [List.map_cons, List.cons_append,
      readArguments_spelled hname hfind (by rw [harity]; decide) hrecord, ih]
    simp

end Grammar

section Asking

variable (key : String) (bucketingKey mapText : Option String) (withConfig : Bool)
  (features : List String)

/-- The arguments that ask for features of a key. -/
def asking : List String :=
  (some key).toList.map (spelled "key") ++ (bucketingKey.toList.map (spelled "bucketing-key") ++
    (mapText.toList.map (spelled "attributes") ++ ((if withConfig then [flag "with-config"] else []) ++
      (features.map (spelled "features") ++ []))))

/-- What they say. -/
def asked : Parsed where
  given := ("key", key) :: bucketingKey.toList.map ("bucketing-key", ·) ++
    mapText.toList.map ("attributes", ·) ++ (if withConfig then [("with-config", "")] else []) ++
    features.map ("features", ·)

theorem value?_asked_of_ne {name : String} (hname : name ≠ "features") :
    (asked key bucketingKey mapText withConfig features).value? name =
      (asked key bucketingKey mapText withConfig []).value? name := by
  have hnone : (features.map ("features", ·)).lookup name = none := by
    rw [List.lookup_eq_none_iff]
    simp [hname]
  rw [Parsed.value?, asked, List.lookup_append, hnone, Option.or_none, Parsed.value?, asked, List.map_nil,
    List.append_nil]

theorem text_asked_key : (asked key bucketingKey mapText withConfig features).text "key" = key := rfl

theorem value?_asked_bucketingKey :
    (asked key bucketingKey mapText withConfig features).value? "bucketing-key" = bucketingKey := by
  rw [value?_asked_of_ne _ _ _ _ _ (by decide)]
  cases bucketingKey <;> cases mapText <;> cases withConfig <;> rfl

theorem value?_asked_attributes :
    (asked key bucketingKey mapText withConfig features).value? "attributes" = mapText := by
  rw [value?_asked_of_ne _ _ _ _ _ (by decide)]
  cases bucketingKey <;> cases mapText <;> cases withConfig <;> rfl

theorem has_asked_withConfig :
    (asked key bucketingKey mapText withConfig features).has "with-config" = withConfig := by
  rw [Parsed.has, value?_asked_of_ne _ _ _ _ _ (by decide)]
  cases bucketingKey <;> cases mapText <;> cases withConfig <;> rfl

theorem values_asked_features :
    (asked key bucketingKey mapText withConfig features).values "features" = features := by
  have hfeatures : (features.map (("features", ·) : String → String × String)).filter
      (·.1 = "features") = features.map ("features", ·) := by
    simp [List.filter_eq_self]
  rw [Parsed.values, asked, List.filter_append, hfeatures, List.map_append, List.map_map]
  cases bucketingKey <;> cases mapText <;> cases withConfig <;> simp [Function.comp_def]

theorem parse_asking (hfeatures : features ≠ []) :
    (evaluationGrammar featuresOption).parse (asking key bucketingKey mapText withConfig features) =
      .ok (asked key bucketingKey mapText withConfig features) := by
  have hread : (evaluationGrammar featuresOption).readArguments {} none
      (asking key bucketingKey mapText withConfig features) =
        .ok (asked key bucketingKey mapText withConfig features) := by
    refine (Grammar.readArguments_optional (g := evaluationGrammar featuresOption)
      (o := textOption "key" 'k' true) (by decide) rfl rfl rfl (fun _ => rfl) rfl (some key) _).trans ?_
    refine (Grammar.readArguments_optional (g := evaluationGrammar featuresOption)
      (o := textOption "bucketing-key" 'b') (by decide) rfl rfl rfl (fun _ => rfl) rfl
      bucketingKey _).trans ?_
    refine (Grammar.readArguments_optional (g := evaluationGrammar featuresOption)
      (o := textOption "attributes" 'a') (by decide) rfl rfl rfl (fun _ => rfl)
      (by cases bucketingKey <;> rfl) mapText _).trans ?_
    refine (Grammar.readArguments_switch (g := evaluationGrammar featuresOption)
      (o := flagOption "with-config") (by decide) rfl rfl rfl (fun _ => rfl)
      (by cases bucketingKey <;> cases mapText <;> rfl) withConfig _).trans ?_
    refine (Grammar.readArguments_repeated (g := evaluationGrammar featuresOption)
      (o := featuresOption) (by decide) rfl rfl rfl (fun _ => rfl) features []).trans ?_
    rfl
  have hhas : (asked key bucketingKey mapText withConfig features).has "features" = true := by
    obtain ⟨feature, rest, rfl⟩ := List.exists_cons_of_ne_nil hfeatures
    cases bucketingKey <;> cases mapText <;> cases withConfig <;> rfl
  have hsatisfied : (evaluationGrammar featuresOption).isSatisfiedBy
      (asked key bucketingKey mapText withConfig features) = true := by
    have hkey : (asked key bucketingKey mapText withConfig features).has "key" = true := rfl
    have hwords : (asked key bucketingKey mapText withConfig features).words = [] := rfl
    simp [Grammar.isSatisfiedBy, evaluationGrammar, textOption, featuresOption, flagOption, hhas, hkey,
      hwords]
  rw [Grammar.parse, hread]
  show (if _ then _ else _) = _
  rw [if_pos hsatisfied]
  rfl

/-- **Whatever can be asked of several features can be spelled**: any key and bucketing key, any attributes
without doubles and any features, of which there is one at least, with or without each of the two options. -/
theorem exists_args {attributes : Option Attributes} (hfree : ∀ m ∈ attributes, m.FloatFree)
    (impressionData : Bool) (hfeatures : features ≠ []) :
    ∃ args p rest q, askGrammar.parse args = .ok p ∧ p.command = some ("treatments", rest) ∧
      (evaluationGrammar featuresOption).parse rest = .ok q ∧ q.attributes? = some attributes ∧
      p.has "impression-data" = impressionData ∧ q.text "key" = key ∧
      q.value? "bucketing-key" = bucketingKey ∧ q.has "with-config" = withConfig ∧
      q.values "features" = features := by
  let mapText := attributes.map fun m => (Attributes.toJson m).toText
  have hgiven := value?_asked_attributes key bucketingKey mapText withConfig features
  have hattributes : (asked key bucketingKey mapText withConfig features).attributes? =
      some attributes := by
    cases attributes with
    | none => rw [Parsed.attributes?, hgiven]; rfl
    | some m => exact Parsed.attributes?_of_text (hfree m rfl) hgiven
  refine ⟨(if impressionData then [flag "impression-data"] else []) ++
      "treatments" :: asking key bucketingKey mapText withConfig features,
    { given := if impressionData then [("impression-data", "")] else []
      command := some ("treatments", asking key bucketingKey mapText withConfig features) }, _, _, ?_, rfl,
    parse_asking key bucketingKey mapText withConfig features hfeatures, hattributes, ?_,
    text_asked_key _ _ _ _ _, value?_asked_bucketingKey _ _ _ _ _, has_asked_withConfig _ _ _ _ _,
    values_asked_features _ _ _ _ _⟩
  · cases impressionData <;> rfl
  · cases impressionData <;> rfl

end Asking

end FlagSidecar.CommandLine

import FlagSidecar.Record.Upload
import Mathlib.Algebra.GroupWithZero.Nat
import Mathlib.Data.List.Basic
import Mathlib.Data.List.Induction

/-!
# FlagSidecar.Proofs.Record.Grouping: grouping is the stable partition by feature

A batch is built by one impression after the other. One whose feature has a group goes to the end of it;
the first one of a feature opens a group at the end of the batch. Either way the batch is the partition of
the impressions so far: `Partitions` says so, `Partitions.add` is the step and `partitions_ofImpressions`
the run.

A row does not say its feature, so what a group holds is compared with the impressions themselves: a row
under the feature of its group is the impression that it was made of.

Main statement: `ImpressionBatch.ofImpressions_partition`.
-/

namespace FlagSidecar

/-- The impression that a row of a feature's group stands for. -/
def ImpressionRow.impression (r : ImpressionRow) (feature : String) : Impression where
  key := r.key
  bucketingKey := r.bucketingKey
  feature := feature
  treatment := r.treatment
  label := r.label
  changeNumber := r.changeNumber
  time := r.time

@[simp] theorem Impression.impression_row (i : Impression) : i.row.impression i.feature = i := rfl

/-- The impressions of a group, in the order of its rows. -/
def FeatureImpressions.impressions (g : FeatureImpressions) : List Impression :=
  g.rows.map (·.impression g.feature)

namespace ImpressionBatch

/-- The features of the groups. -/
def features (batch : ImpressionBatch) : List String := batch.map (·.feature)

/-- All impressions, group by group. -/
def impressions (batch : ImpressionBatch) : List Impression :=
  batch.flatMap FeatureImpressions.impressions

/-! ## One row -/

variable {impressions : List Impression} {batch : ImpressionBatch} {feature : String}

theorem add_of_notMem (row : ImpressionRow) (h : feature ∉ batch.features) :
    add feature row batch = batch ++ [⟨feature, [row]⟩] := by
  induction batch with
  | nil => rfl
  | cons group rest ih =>
    obtain ⟨hne, hrest⟩ := not_or.mp (mt List.mem_cons.mpr h)
    rw [add, if_neg (Ne.symm hne), ih hrest, List.cons_append]

/-- The first group of the feature takes the row; no group before it and none behind it changes. -/
theorem add_of_mem (row : ImpressionRow) (h : feature ∈ batch.features) :
    ∃ before group after, batch = before ++ group :: after ∧ group.feature = feature ∧
      add feature row batch =
        before ++ { group with rows := group.rows ++ [row] } :: after := by
  induction batch with
  | nil => cases h
  | cons group rest ih =>
    by_cases hgroup : group.feature = feature
    · exact ⟨[], group, rest, rfl, hgroup, by rw [add, if_pos hgroup, List.nil_append]⟩
    · have hrest : feature ∈ features rest :=
        (List.mem_cons.mp h).resolve_left (Ne.symm hgroup)
      obtain ⟨before, g, after, rfl, hg, hadd⟩ := ih hrest
      exact ⟨group :: before, g, after, rfl, hg, by rw [add, if_neg hgroup, hadd, List.cons_append]⟩

/-! ## The invariant -/

/-- **The batch is the stable partition of the impressions.** Its features are theirs, in the order of
their first occurrences, and each group has the impressions of its feature in their order. -/
structure Partitions (impressions : List Impression) (batch : ImpressionBatch) : Prop where
  mem_features_iff (f : String) : f ∈ batch.features ↔ f ∈ impressions.map (·.feature)
  ordered : batch.features.Pairwise fun f g =>
    (impressions.map (·.feature)).idxOf f < (impressions.map (·.feature)).idxOf g
  impressions_eq : ∀ group ∈ batch,
    group.impressions = impressions.filter (·.feature = group.feature)
  perm : batch.impressions.Perm impressions

namespace Partitions

theorem nil : Partitions [] [] where
  mem_features_iff _ := Iff.rfl
  ordered := .nil
  impressions_eq := List.forall_mem_nil _
  perm := .nil

/-- No feature has two groups, since each one comes for the first time but once. -/
theorem nodup_features (h : Partitions impressions batch) : batch.features.Nodup :=
  h.ordered.imp fun {f g} hlt heq => by
    rw [heq] at hlt
    exact Nat.lt_irrefl _ hlt

/-- What comes behind a first occurrence leaves it the first one. -/
theorem ordered_append (h : Partitions impressions batch) (i : Impression) :
    batch.features.Pairwise fun f g =>
      ((impressions ++ [i]).map (·.feature)).idxOf f <
        ((impressions ++ [i]).map (·.feature)).idxOf g := by
  refine h.ordered.imp_of_mem fun {f g} hf hg hlt => ?_
  rw [List.map_append, List.idxOf_append_of_mem ((h.mem_features_iff f).mp hf),
    List.idxOf_append_of_mem ((h.mem_features_iff g).mp hg)]
  exact hlt

/-- A group of another feature is not concerned. -/
theorem impressions_eq_append (h : Partitions impressions batch) {i : Impression}
    {group : FeatureImpressions} (hgroup : group ∈ batch) (hne : i.feature ≠ group.feature) :
    group.impressions = (impressions ++ [i]).filter (·.feature = group.feature) := by
  rw [h.impressions_eq group hgroup, List.filter_append, List.filter_singleton,
    decide_eq_false hne, cond_false, List.append_nil]

/-- The first impression of a feature opens a group. -/
theorem open_group (h : Partitions impressions batch) {i : Impression}
    (hi : i.feature ∉ batch.features) :
    Partitions (impressions ++ [i]) (batch ++ [⟨i.feature, [i.row]⟩]) where
  mem_features_iff f := by
    have hf := h.mem_features_iff f
    rw [features] at hf ⊢
    rw [List.map_append, List.map_append, List.mem_append, List.mem_append, hf]
    rfl
  ordered := by
    have hnew : i.feature ∉ impressions.map (·.feature) := mt (h.mem_features_iff _).mpr hi
    have hfeatures : features (batch ++ [⟨i.feature, [i.row]⟩]) = batch.features ++ [i.feature] :=
      List.map_append
    rw [hfeatures]
    refine List.pairwise_append.mpr ⟨h.ordered_append i, List.pairwise_singleton _ _, ?_⟩
    intro f hf g hg
    obtain rfl := List.mem_singleton.mp hg
    have hold := (h.mem_features_iff f).mp hf
    rw [List.map_append, List.idxOf_append_of_mem hold, List.idxOf_append_of_notMem hnew]
    exact Nat.lt_add_right _ (List.idxOf_lt_length_of_mem hold)
  impressions_eq group hgroup := by
    rcases List.mem_append.mp hgroup with hold | hnew
    · refine h.impressions_eq_append hold fun heq => hi ?_
      exact heq ▸ List.mem_map_of_mem hold
    · obtain rfl := List.mem_singleton.mp hnew
      -- none of the impressions before is of the new feature
      have hnone : impressions.filter (·.feature = i.feature) = [] := by
        refine List.filter_eq_nil_iff.mpr fun j hj heq => hi ?_
        rw [h.mem_features_iff, ← of_decide_eq_true heq]
        exact List.mem_map_of_mem hj
      rw [List.filter_append, hnone, List.nil_append, List.filter_singleton,
        decide_eq_true rfl, cond_true]
      rfl
  perm := by
    rw [ImpressionBatch.impressions, List.flatMap_append]
    exact h.perm.append (.refl [i])

/-- A further impression of a feature goes to the end of the group. -/
theorem extend_group {before after : ImpressionBatch} {group : FeatureImpressions}
    (h : Partitions impressions (before ++ group :: after)) {i : Impression}
    (hgroup : group.feature = i.feature) :
    Partitions (impressions ++ [i])
      (before ++ { group with rows := group.rows ++ [i.row] } :: after) := by
  obtain ⟨feature, rows⟩ := group
  obtain rfl : feature = i.feature := hgroup
  have hfeatures : features (before ++ ⟨i.feature, rows ++ [i.row]⟩ :: after) =
      features (before ++ ⟨i.feature, rows⟩ :: after) := by
    rw [features, features, List.map_append, List.map_append, List.map_cons, List.map_cons]
  have himpressions : FeatureImpressions.impressions ⟨i.feature, rows ++ [i.row]⟩ =
      FeatureImpressions.impressions ⟨i.feature, rows⟩ ++ [i] := List.map_append
  have hmem : i.feature ∈ features (before ++ ⟨i.feature, rows⟩ :: after) :=
    List.mem_map.mpr ⟨⟨i.feature, rows⟩, List.mem_append_cons_self, rfl⟩
  refine ⟨fun f => ?_, ?_, fun g hg => ?_, ?_⟩
  · rw [hfeatures, h.mem_features_iff, List.map_append, List.mem_append]
    refine ⟨.inl, fun hf => hf.elim id fun hf => ?_⟩
    rw [List.mem_singleton.mp hf]
    exact (h.mem_features_iff _).mp hmem
  · rw [hfeatures]
    exact h.ordered_append i
  · -- the groups beside this one are of other features
    have hnodup := h.nodup_features
    rw [features, List.map_append, List.map_cons] at hnodup
    obtain ⟨-, hafter, hbefore⟩ := List.nodup_append.mp hnodup
    rcases List.mem_append.mp hg with hb | hg
    · refine h.impressions_eq_append (List.mem_append_left _ hb) fun heq => ?_
      exact hbefore _ (List.mem_map_of_mem hb) _ List.mem_cons_self heq.symm
    · rcases List.mem_cons.mp hg with rfl | ha
      · rw [himpressions, h.impressions_eq _ List.mem_append_cons_self, List.filter_append,
          List.filter_singleton, decide_eq_true rfl, cond_true]
      · refine h.impressions_eq_append (List.mem_append_right _ (List.mem_cons_of_mem _ ha)) ?_
        intro heq
        rw [heq] at hafter
        exact (List.nodup_cons.mp hafter).1 (List.mem_map.mpr ⟨g, ha, rfl⟩)
  · have hsplit : ∀ g : FeatureImpressions, (before ++ g :: after : ImpressionBatch).impressions =
        before.impressions ++ (g.impressions ++ after.impressions) := fun g => by
      rw [ImpressionBatch.impressions, List.flatMap_append, List.flatMap_cons]
      rfl
    have hperm := h.perm
    rw [hsplit] at hperm
    rw [hsplit, himpressions]
    have hlast : (FeatureImpressions.impressions ⟨i.feature, rows⟩ ++ [i] ++ after.impressions).Perm
        (FeatureImpressions.impressions ⟨i.feature, rows⟩ ++ after.impressions ++ [i]) := by
      rw [List.append_assoc, List.append_assoc]
      exact .append_left _ List.perm_append_comm
    refine (hlast.append_left _).trans ?_
    rw [← List.append_assoc]
    exact hperm.append_right [i]

/-- **One impression more.** -/
theorem add (h : Partitions impressions batch) (i : Impression) :
    Partitions (impressions ++ [i]) (add i.feature i.row batch) := by
  by_cases hi : i.feature ∈ batch.features
  · obtain ⟨before, group, after, rfl, hgroup, hadd⟩ := add_of_mem i.row hi
    rw [hadd]
    exact h.extend_group hgroup
  · rw [add_of_notMem i.row hi]
    exact h.open_group hi

/-- Every group was opened for an impression. -/
theorem rows_ne_nil (h : Partitions impressions batch) {group : FeatureImpressions}
    (hgroup : group ∈ batch) : group.rows ≠ [] := by
  have hmem : group.feature ∈ batch.features := List.mem_map_of_mem hgroup
  obtain ⟨i, hi, hfeature⟩ := List.mem_map.mp ((h.mem_features_iff _).mp hmem)
  have hrow : i ∈ group.impressions := by
    rw [h.impressions_eq group hgroup]
    exact List.mem_filter.mpr ⟨hi, decide_eq_true hfeature⟩
  obtain ⟨row, hrow, -⟩ := List.mem_map.mp hrow
  exact List.ne_nil_of_mem hrow

theorem sum_length_rows (h : Partitions impressions batch) :
    (batch.map (·.rows.length)).sum = impressions.length := by
  have hlength : ∀ g : FeatureImpressions, g.impressions.length = g.rows.length :=
    fun g => List.length_map _
  calc (batch.map (·.rows.length)).sum
    _ = (batch.map fun g => g.impressions.length).sum := by simp only [hlength]
    _ = batch.impressions.length := List.length_flatMap.symm
    _ = impressions.length := h.perm.length_eq

end Partitions

/-! ## The whole list -/

/-- The induction is on the impressions from behind, as the batch is built from the front. -/
theorem partitions_ofImpressions (impressions : List Impression) :
    Partitions impressions (ofImpressions impressions) := by
  induction impressions using List.reverseRecOn with
  | nil => exact .nil
  | append_singleton impressions i ih =>
    rw [ofImpressions, List.foldl_append]
    exact ih.add i

/-- **Grouping is the stable partition by feature.** The features of the groups are different from each
other, they are the features of the impressions, and they come in the order of their first occurrences.
Each group has the impressions of its feature, all of them and in their order, and none is empty. Altogether
there are as many rows as impressions, and they are the same ones. -/
theorem ofImpressions_partition (impressions : List Impression) :
    let batch := ofImpressions impressions
    batch.features.Nodup ∧
      (batch.features.Pairwise fun f g =>
        (impressions.map (·.feature)).idxOf f < (impressions.map (·.feature)).idxOf g) ∧
      (∀ f, f ∈ batch.features ↔ ∃ i ∈ impressions, i.feature = f) ∧
      (∀ group ∈ batch,
        group.impressions = impressions.filter (·.feature = group.feature) ∧ group.rows ≠ []) ∧
      (batch.map (·.rows.length)).sum = impressions.length ∧
      batch.impressions.Perm impressions := by
  intro batch
  have h : Partitions impressions batch := partitions_ofImpressions impressions
  refine ⟨h.nodup_features, h.ordered, fun f => ?_, fun group hgroup => ?_, h.sum_length_rows,
    h.perm⟩
  · exact (h.mem_features_iff f).trans List.mem_map
  · exact ⟨h.impressions_eq group hgroup, h.rows_ne_nil hgroup⟩

end ImpressionBatch

end FlagSidecar

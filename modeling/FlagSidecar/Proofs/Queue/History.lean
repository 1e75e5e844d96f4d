import FlagSidecar.Proofs.Queue.FanIn
import FlagSidecar.Queue.History

/-!
# FlagSidecar.Proofs.Queue.History: nothing accepted is lost or handed out twice

A well-formed fan-in holds under each tag what its history says is pending there, that is what was accepted
since the last detachment. And over a whole run, what was there and what was accepted is what was handed
out and what is still there, in the same order.

Main statements: `FanIn.WellFormed.held_run`, `FanIn.WellFormed.held_append_accepted`,
`FanIn.accepted_sublist`.
-/

namespace FlagSidecar.FanIn

variable {κ α : Type} [DecidableEq κ] {f : FanIn κ α}

/-! ## One step -/

/-- Of a list without repeated tags, nothing or one pair is under a tag. -/
theorem filter_of_nodup {contents : List (κ × List α)} (hnodup : (contents.map Prod.fst).Nodup)
    {tag : κ} {held : List α}
    (hmem : ∀ items, (tag, items) ∈ contents ↔ items = held ∧ items ≠ []) :
    ((contents.filter (·.1 = tag)).map (·.2)).flatten = held := by
  induction contents with
  | nil =>
    by_cases hne : held = []
    · exact hne.symm
    · exact absurd ((hmem held).mpr ⟨rfl, hne⟩) List.not_mem_nil
  | cons p rest ih =>
    obtain ⟨t, items⟩ := p
    rw [List.map_cons, List.nodup_cons] at hnodup
    by_cases ht : t = tag
    · subst ht
      -- the rest has nothing under this tag
      have hrest : rest.filter (·.1 = t) = [] := by
        rw [List.filter_eq_nil_iff]
        rintro ⟨t', items'⟩ hmem' heq
        have : t' = t := by simpa using heq
        subst this
        exact hnodup.1 (List.mem_map.mpr ⟨_, hmem', rfl⟩)
      rw [List.filter_cons_of_pos (by simp), hrest, List.map_singleton, List.flatten_singleton]
      exact ((hmem items).mp List.mem_cons_self).1
    · rw [List.filter_cons_of_neg (by simpa using ht)]
      apply ih hnodup.2
      intro items'
      rw [← hmem items', List.mem_cons]
      constructor
      · exact .inr
      · rintro (heq | hmem')
        · cases heq
          exact absurd rfl ht
        · exact hmem'

namespace WellFormed

theorem step (h : f.WellFormed) (s : Step κ α) : (f.step s).2.WellFormed := by
  cases s with
  | push tag items => exact h.push tag items
  | drain => exact wellFormed_of_queues_eq_nil rfl

/-- After a step the fan-in holds what its entry says is pending. -/
theorem held_step (h : f.WellFormed) (s : Step κ α) (tag : κ) :
    (f.step s).2.held tag = (f.step s).1.pending tag (f.held tag) := by
  cases s with
  | push t items =>
    show (f.push t items).2.held tag = if t = tag then _ else _
    split
    next ht =>
      subst ht
      exact h.held_push t items
    next ht => exact held_push_of_ne ht f items
  | drain => rfl

/-- What is there and what is accepted is what is handed out and what is there afterwards. -/
theorem held_append_accepts (h : f.WellFormed) (s : Step κ α) (tag : κ) :
    f.held tag ++ (f.step s).1.accepts tag =
      ((f.step s).1.hands tag).flatten ++ (f.step s).2.held tag := by
  rw [h.held_step]
  cases s with
  | push t items =>
    show f.held tag ++ (if t = tag then _ else _) = [] ++ if t = tag then _ else _
    split
    · rfl
    · rw [List.append_nil, List.nil_append]
  | drain =>
    show f.held tag ++ [] = _ ++ []
    rw [List.append_nil, List.append_nil]
    exact (filter_of_nodup h.nodup_drainAll fun items => h.mem_drainAll).symm

end WellFormed

/-- What is accepted of a step is some of what it offers, in order. -/
theorem accepts_sublist (f : FanIn κ α) (s : Step κ α) (tag : κ) :
    ((f.step s).1.accepts tag).Sublist (s.offered tag) := by
  cases s with
  | push t items =>
    show (if t = tag then _ else _ : List α).Sublist (if t = tag then _ else _)
    split
    · exact List.take_sublist _ _
    · exact List.Sublist.slnil
  | drain => exact List.Sublist.slnil

/-! ## Runs -/

theorem run_cons (s : Step κ α) (steps : List (Step κ α)) (f : FanIn κ α) :
    run (s :: steps) f =
      ((f.step s).1 :: (run steps (f.step s).2).1, (run steps (f.step s).2).2) := rfl

theorem run_append (steps more : List (Step κ α)) (f : FanIn κ α) :
    run (steps ++ more) f =
      ((run steps f).1 ++ (run more (run steps f).2).1, (run more (run steps f).2).2) := by
  induction steps generalizing f with
  | nil => rfl
  | cons s steps ih =>
    rw [List.cons_append, run_cons, run_cons, ih]
    rfl

namespace WellFormed

theorem run (h : f.WellFormed) (steps : List (Step κ α)) : (FanIn.run steps f).2.WellFormed := by
  induction steps generalizing f with
  | nil => exact h
  | cons s steps ih => exact ih (h.step s)

/-- **A fan-in holds what is pending.** -/
theorem held_run (h : f.WellFormed) (steps : List (Step κ α)) (tag : κ) :
    (FanIn.run steps f).2.held tag = (FanIn.run steps f).1.pending tag (f.held tag) := by
  induction steps generalizing f with
  | nil => rfl
  | cons s steps ih =>
    have hrest := ih (h.step s)
    rw [h.held_step] at hrest
    exact hrest

/-- **Nothing accepted is lost, repeated or put out of order**, under any tag. -/
theorem held_append_accepted (h : f.WellFormed) (steps : List (Step κ α)) (tag : κ) :
    f.held tag ++ (FanIn.run steps f).1.accepted tag =
      ((FanIn.run steps f).1.handed tag).flatten ++ (FanIn.run steps f).2.held tag := by
  induction steps generalizing f with
  | nil =>
    show f.held tag ++ [] = [] ++ f.held tag
    rw [List.append_nil, List.nil_append]
  | cons s steps ih =>
    have hstep := h.held_append_accepts s tag
    have hrest := ih (h.step s)
    calc
      f.held tag ++ ((f.step s).1.accepts tag ++ (FanIn.run steps (f.step s).2).1.accepted tag)
        = ((f.step s).1.hands tag).flatten ++
            ((f.step s).2.held tag ++ (FanIn.run steps (f.step s).2).1.accepted tag) := by
          rw [← List.append_assoc, hstep, List.append_assoc]
      _ = ((f.step s).1.hands tag ++ (FanIn.run steps (f.step s).2).1.handed tag).flatten ++
            (FanIn.run steps (f.step s).2).2.held tag := by
          rw [hrest, List.flatten_append, List.append_assoc]

end WellFormed

/-- **What is accepted is some of what is offered, in order**, under any tag. -/
theorem accepted_sublist (f : FanIn κ α) (steps : List (Step κ α)) (tag : κ) :
    ((run steps f).1.accepted tag).Sublist (steps.flatMap (Step.offered tag)) := by
  induction steps generalizing f with
  | nil => exact List.Sublist.slnil
  | cons s steps ih => exact (f.accepts_sublist s tag).append (ih (f.step s).2)

/-- Without a detachment everything that is accepted goes on waiting. -/
theorem History.pending_of_not_drained {h : History κ α} (hnone : ∀ contents, .drained contents ∉ h) (tag : κ)
    (start : List α) : h.pending tag start = start ++ h.accepted tag := by
  induction h generalizing start with
  | nil => exact (List.append_nil start).symm
  | cons entry h ih =>
    have hrest := ih (fun contents hmem => hnone contents (List.mem_cons_of_mem entry hmem))
    cases entry with
    | drained contents => exact absurd List.mem_cons_self (hnone contents)
    | accepted t items =>
      show History.pending tag (if t = tag then start ++ items else start) h =
        start ++ ((if t = tag then items else []) ++ History.accepted tag h)
      rw [hrest]
      split
      · rw [List.append_assoc]
      · rfl

end FlagSidecar.FanIn

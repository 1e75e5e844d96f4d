/-!
# FlagSidecar.Schedule: steps in any order

Several parties that share a state take steps, each at its own pace. A schedule is a list that says what
happens next; a step gives what comes of it and the state that it leaves. What holds of every schedule holds
in whatever order the parties are heard.
-/

namespace FlagSidecar

variable {σ μ ε : Type}

/-- Takes steps as a schedule says; gives what has come of them, in order. -/
def runSteps (step : σ → μ → List ε × σ) : List μ → σ → List ε × σ
  | [], s => ([], s)
  | move :: schedule, s =>
    let (events, s) := step s move
    let (rest, s) := runSteps step schedule s
    (events ++ rest, s)

variable {step : σ → μ → List ε × σ}

theorem runSteps_cons (move : μ) (schedule : List μ) (s : σ) :
    runSteps step (move :: schedule) s =
      ((step s move).1 ++ (runSteps step schedule (step s move).2).1,
        (runSteps step schedule (step s move).2).2) := rfl

theorem runSteps_append (schedule more : List μ) (s : σ) :
    runSteps step (schedule ++ more) s =
      ((runSteps step schedule s).1 ++ (runSteps step more (runSteps step schedule s).2).1,
        (runSteps step more (runSteps step schedule s).2).2) := by
  induction schedule generalizing s with
  | nil => rfl
  | cons move schedule ih => rw [List.cons_append, runSteps_cons, runSteps_cons, ih, List.append_assoc]

theorem runSteps_singleton (move : μ) (s : σ) : runSteps step [move] s = step s move :=
  congrArg (Prod.mk · (step s move).2) (List.append_nil _)

/-- **Induction along a schedule.** What holds at the start and is kept by every step holds at the end, of
the state and of what has come of all steps. -/
theorem runSteps_induction {motive : List ε → σ → Prop} {s : σ} (start : motive [] s)
    (keep : ∀ {events s} move, motive events s → motive (events ++ (step s move).1) (step s move).2)
    (schedule : List μ) : motive (runSteps step schedule s).1 (runSteps step schedule s).2 := by
  -- what has come of earlier steps stands in front
  suffices hall : ∀ before, motive before s →
      motive (before ++ (runSteps step schedule s).1) (runSteps step schedule s).2 from hall [] start
  clear start
  induction schedule generalizing s with
  | nil =>
    intro before h
    rw [runSteps, List.append_nil]
    exact h
  | cons move schedule ih =>
    intro before h
    rw [runSteps_cons, ← List.append_assoc]
    exact ih _ (keep move h)

end FlagSidecar

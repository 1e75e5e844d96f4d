/-!
# FlagSidecar.Number.Basic: powers and totals

Powers of natural and whole numbers are the ones that come with the numbers themselves, whatever algebra
is imported beside this library, so that a bound such as `2 ^ 64` is the same term in every module.
-/

attribute [instance (1100), default_instance (20000)] instPowNat

namespace FlagSidecar

/-- What is counted in each item of a list, in total. -/
def total {α : Type} (count : α → Nat) : List α → Nat
  | [] => 0
  | a :: rest => count a + total count rest

variable {α β : Type}

theorem total_map (count : β → Nat) (f : α → β) (xs : List α) :
    total count (xs.map f) = total (fun x => count (f x)) xs := by
  induction xs with
  | nil => rfl
  | cons x rest ih =>
    rw [List.map_cons, total, ih, total]

theorem total_congr {count count' : α → Nat} {xs : List α} (h : ∀ x ∈ xs, count x = count' x) :
    total count xs = total count' xs := by
  induction xs with
  | nil => rfl
  | cons x rest ih =>
    rw [total, total, h x List.mem_cons_self, ih fun y hy => h y (List.mem_cons_of_mem x hy)]

end FlagSidecar

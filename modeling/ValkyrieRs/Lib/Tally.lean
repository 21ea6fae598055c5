import Mathlib.Data.List.Basic
import Mathlib.Logic.Function.Iterate
import Mathlib.Tactic.Common

/-!
# Tables of counters

A table of counters is stepped at one position after the other; each counter ends where as many
steps as its position was met take it.
-/

namespace Tally

variable {β : Type} {inc : β → β} {m : List β} {is : List ℕ}

/-- Step the counters at some positions, in turn. -/
def run (inc : β → β) (m : List β) (is : List ℕ) : List β := is.foldl (fun m i => m.modify i inc) m

@[simp] theorem length_run : (run inc m is).length = m.length := by
  induction is generalizing m with
  | nil => rfl
  | cons i is ih => exact (ih (m := m.modify i inc)).trans (List.length_modify ..)

/-- Each counter is stepped as often as its position is met. -/
theorem getElem?_run (i : ℕ) : (run inc m is)[i]? = m[i]?.map (inc^[is.count i]) := by
  induction is generalizing m with
  | nil => simp [run]
  | cons j is ih =>
    refine (ih (m := m.modify j inc)).trans ?_
    rw [List.getElem?_modify, List.count_cons]
    by_cases same : j = i
    · simp [same, Function.iterate_succ]
    · simp [same]

/-- A counter that stops at a cap. -/
theorem iterate_capped {value : β → ℕ} {cap : ℕ}
    (step : ∀ b, value (inc b) = min cap (value b + 1)) {b : β} (start : value b ≤ cap) (n : ℕ) :
    value (inc^[n] b) = min cap (value b + n) := by
  induction n with
  | zero => exact (Nat.min_eq_right start).symm
  | succ n ih =>
    rw [Function.iterate_succ_apply', step, ih]
    omega

end Tally

import Mathlib.Data.List.Nodup
import Mathlib.Data.List.Perm.Subperm
import Mathlib.Order.Nat
import Mathlib.Tactic.Common

/-!
# Loops that replace one value until a test passes

`run step fuel a` replaces `a` by `step a` until `step` answers `none`, and gives the last value.
A loop that only ever moves to the values of a list ends within one step more than the list is
long, or never: a longer run would meet one value twice and repeat itself for ever.
-/

namespace Loop

variable {α : Type}

/-- Follow `step` until it answers `none`; `none` when the fuel runs out first. -/
def run (step : α → Option α) : ℕ → α → Option α
  | 0, _ => none
  | fuel + 1, a =>
    match step a with
    | none => some a
    | some b => run step fuel b

variable {step : α → Option α} {a b : α}

theorem run_succ_of_none {fuel : ℕ} (h : step a = none) : run step (fuel + 1) a = some a := by
  simp [run, h]

theorem run_succ_of_some {fuel : ℕ} (h : step a = some b) :
    run step (fuel + 1) a = run step fuel b := by
  simp [run, h]

/-- The value found passes the test. -/
theorem step_of_run {fuel : ℕ} (h : run step fuel a = some b) : step b = none := by
  induction fuel generalizing a with
  | zero => simp [run] at h
  | succ fuel ih =>
    cases hs : step a with
    | none =>
      rw [run_succ_of_none hs] at h
      cases h
      exact hs
    | some c => exact ih (run_succ_of_some hs ▸ h)

/-- What the first value has and every step keeps, the value found has. -/
theorem run_keeps {P : α → Prop} (kept : ∀ a b, P a → step a = some b → P b) {fuel : ℕ}
    (first : P a) (h : run step fuel a = some b) : P b := by
  induction fuel generalizing a with
  | zero => simp [run] at h
  | succ fuel ih =>
    cases hs : step a with
    | none =>
      rw [run_succ_of_none hs] at h
      cases h
      exact first
    | some c => exact ih (kept a c first hs) (run_succ_of_some hs ▸ h)

/-- A loop that counts down ends. -/
theorem exists_run_of_decreasing {P : α → Prop} {μ : α → ℕ}
    (kept : ∀ a b, P a → step a = some b → P b ∧ μ b < μ a) (first : P a) :
    ∃ fuel r, run step fuel a = some r := by
  generalize count : μ a = n
  induction n using Nat.strong_induction_on generalizing a with
  | h n ih =>
    cases hs : step a with
    | none => exact ⟨1, a, run_succ_of_none hs⟩
    | some b =>
      obtain ⟨next, less⟩ := kept a b first hs
      obtain ⟨fuel, r, ends⟩ := ih (μ b) (count ▸ less) next rfl
      exact ⟨fuel + 1, r, (run_succ_of_some hs).trans ends⟩

/-- The value after `n` steps, if the loop has not ended by then. -/
def after (step : α → Option α) (a : α) : ℕ → Option α
  | 0 => some a
  | n + 1 => (after step a n).bind step

theorem after_succ (n : ℕ) : after step a (n + 1) = (step a).bind fun b => after step b n := by
  induction n with
  | zero => cases h : step a <;> simp [after, h]
  | succ n ih => rw [after, ih]; cases step a <;> simp [after]

theorem run_eq_some_iff {fuel : ℕ} : (∃ r, run step fuel a = some r) ↔
    ∃ n < fuel, after step a (n + 1) = none := by
  induction fuel generalizing a with
  | zero => simp [run]
  | succ fuel ih =>
    cases hs : step a with
    | none =>
      rw [run_succ_of_none hs]
      refine iff_of_true ⟨a, rfl⟩ ⟨0, by omega, ?_⟩
      simp [after, hs]
    | some b =>
      rw [run_succ_of_some hs, ih]
      constructor
      · rintro ⟨n, hn, h⟩
        refine ⟨n + 1, by omega, ?_⟩
        rw [after_succ, hs]
        exact h
      · rintro ⟨n, hn, h⟩
        rw [after_succ, hs] at h
        cases n with
        | zero => simp [after] at h
        | succ n => exact ⟨n, by omega, h⟩

/-- A value met twice is met for ever. -/
theorem after_add {i j : ℕ} (h : after step a i = after step a j) (n : ℕ) :
    after step a (i + n) = after step a (j + n) := by
  induction n with
  | zero => exact h
  | succ n ih => rw [← Nat.add_assoc, ← Nat.add_assoc, after, after, ih]

/-- A loop over the values of a list that ends does so within one step more than the list is
long. -/
theorem run_of_targets {l : List α} (targets : ∀ a b, step a = some b → b ∈ l) {fuel : ℕ}
    (h : run step (l.length + 1) a = none) : run step fuel a = none := by
  by_contra ends
  obtain ⟨r, hr⟩ := Option.ne_none_iff_exists'.1 ends
  -- the last value of the shortest run that ends
  have ends : ∃ n, after step a (n + 1) = none := by
    obtain ⟨n, -, hn⟩ := run_eq_some_iff.1 ⟨r, hr⟩
    exact ⟨n, hn⟩
  classical
  have last := Nat.find_spec ends
  have running : ∀ n ≤ Nat.find ends, after step a n ≠ none := by
    rintro (_ | n) hn
    · simp [after]
    · exact Nat.find_min ends hn
  generalize Nat.find ends = k at last running
  -- the values met up to there are distinct
  have distinct : ∀ i j, i < j → j ≤ k → after step a i ≠ after step a j := by
    intro i j hij hj same
    have again := after_add same (k - j + 1)
    rw [show j + (k - j + 1) = k + 1 by omega, last] at again
    exact running (i + (k - j + 1)) (by omega) again
  have nodup : ((List.range k).map fun i => after step a (i + 1)).Nodup := by
    rw [List.nodup_map_iff_inj_on List.nodup_range]
    intro i hi j hj same
    rw [List.mem_range] at hi hj
    rcases Nat.lt_trichotomy i j with hij | rfl | hij
    · exact absurd same (distinct _ _ (by omega) (by omega))
    · rfl
    · exact absurd same.symm (distinct _ _ (by omega) (by omega))
  have subset : ((List.range k).map fun i => after step a (i + 1)) ⊆ l.map some := by
    intro o ho
    obtain ⟨i, hi, rfl⟩ := List.mem_map.1 ho
    rw [List.mem_range] at hi
    obtain ⟨b, hb⟩ := Option.ne_none_iff_exists'.1 (running (i + 1) (by omega))
    rw [hb]
    obtain ⟨c, -, hc⟩ := Option.bind_eq_some_iff.1 hb
    exact List.mem_map.2 ⟨b, targets c b hc, rfl⟩
  have short : k ≤ l.length := by simpa using (nodup.subperm subset).length_le
  obtain ⟨r, hr⟩ := run_eq_some_iff.2 ⟨k, Nat.lt_succ_of_le short, last⟩
  rw [h] at hr
  cases hr

end Loop

import Mathlib.Data.List.Basic
import Mathlib.Tactic.Common

/-!
# Chunks offered to a sink

A sink takes some number of the elements of a chunk, or fails.  `offer` offers it chunks in order,
some of which may be missing, until it takes a chunk in part or fails or a chunk is missing; empty
chunks are passed over.  What it takes is a prefix of the chunks.
-/

namespace Chunks

variable {α σ ε : Type}

/-- Where chunks go: how many elements of a chunk it takes, and the state after. -/
abbrev Sink (α σ ε : Type) := List α → σ → Except ε ℕ × σ

/-- The elements of the chunks up to the first that is missing. -/
def concat : List (Option (List α)) → List α
  | some chunk :: rest => chunk ++ concat rest
  | _ => []

/-- What the sink takes when it is offered the chunks in order, and its state after. -/
def offer (sink : Sink α σ ε) : List (Option (List α)) → σ → List α × σ
  | [], s => ([], s)
  | none :: _, s => ([], s)
  | some chunk :: rest, s =>
    if chunk = [] then offer sink rest s
    else match sink chunk s with
      | (.error _, s) => ([], s)
      | (.ok n, s) =>
        if n < chunk.length then (chunk.take n, s)
        else (chunk ++ (offer sink rest s).1, (offer sink rest s).2)

/-- A missing chunk is reached when the sink is offered the chunks in order. -/
def Blocked (sink : Sink α σ ε) : List (Option (List α)) → σ → Prop
  | [], _ => False
  | none :: _, _ => True
  | some chunk :: rest, s =>
    if chunk = [] then Blocked sink rest s
    else match sink chunk s with
      | (.error _, _) => False
      | (.ok n, s) => ¬ n < chunk.length ∧ Blocked sink rest s

variable {sink : Sink α σ ε} {chunk : List α} {chunks rest : List (Option (List α))} {s t : σ}
  {n : ℕ} {e : ε}

/-! ## One chunk -/

@[simp] theorem offer_nil : offer sink [] s = ([], s) := rfl

@[simp] theorem offer_none : offer sink (none :: rest) s = ([], s) := rfl

@[simp] theorem offer_empty : offer sink (some [] :: rest) s = offer sink rest s := by
  rw [offer, if_pos rfl]

@[simp] theorem not_blocked_nil : ¬ Blocked sink [] s := id

@[simp] theorem blocked_none : Blocked sink (none :: rest) s := trivial

@[simp] theorem blocked_empty : Blocked sink (some [] :: rest) s ↔ Blocked sink rest s := by
  rw [Blocked, if_pos rfl]

section Filled

variable (filled : chunk ≠ [])

include filled

theorem offer_failed (failed : sink chunk s = (.error e, t)) :
    offer sink (some chunk :: rest) s = ([], t) := by
  rw [offer, if_neg filled, failed]

theorem offer_short (taken : sink chunk s = (.ok n, t)) (short : n < chunk.length) :
    offer sink (some chunk :: rest) s = (chunk.take n, t) := by
  rw [offer, if_neg filled, taken]
  exact if_pos short

theorem offer_whole (taken : sink chunk s = (.ok n, t)) (whole : ¬ n < chunk.length) :
    offer sink (some chunk :: rest) s = (chunk ++ (offer sink rest t).1, (offer sink rest t).2) := by
  rw [offer, if_neg filled, taken]
  exact if_neg whole

theorem not_blocked_failed (failed : sink chunk s = (.error e, t)) :
    ¬ Blocked sink (some chunk :: rest) s := by
  rw [Blocked, if_neg filled, failed]
  exact id

theorem blocked_cons (taken : sink chunk s = (.ok n, t)) :
    Blocked sink (some chunk :: rest) s ↔ ¬ n < chunk.length ∧ Blocked sink rest t := by
  rw [Blocked, if_neg filled, taken]

end Filled

/-! ## All chunks -/

/-- What the sink takes is a prefix of the chunks. -/
theorem offer_prefix : (offer sink chunks s).1 <+: concat chunks := by
  induction chunks generalizing s with
  | nil => exact List.prefix_rfl
  | cons chunk rest ih =>
    cases chunk with
    | none => exact List.prefix_rfl
    | some chunk =>
      by_cases filled : chunk = []
      · rw [filled, offer_empty]
        exact ih
      rcases taken : sink chunk s with ⟨e | n, t⟩
      · rw [offer_failed filled taken]
        exact List.nil_prefix
      · by_cases short : n < chunk.length
        · rw [offer_short filled taken short]
          exact (List.take_prefix n chunk).trans (List.prefix_append chunk _)
        · rw [offer_whole filled taken short]
          exact (List.prefix_append_right_inj chunk).2 ih

end Chunks

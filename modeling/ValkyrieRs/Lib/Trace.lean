import Mathlib.Tactic.Common

/-!
# Runs with a record of their calls

`Trace call other s steps s'` is a run from `s` to `s'` of calls, each recorded with the states
before and after it, and of other steps, which leave no record.  What each call does exactly under
some condition, all calls of a run do exactly when all meet it; and an abstract state that the calls
update and the other steps keep is the fold of the record.
-/

namespace Trace

variable {σ α τ : Type}

/-- A recorded call. -/
structure Step (σ α : Type) where
  before : σ
  call : α
  after : σ

end Trace

/-- A run of calls and other steps, with the record of its calls. -/
inductive Trace {σ α : Type} (call : Trace.Step σ α → Prop) (other : σ → σ → Prop) (s : σ) :
    List (Trace.Step σ α) → σ → Prop where
  | start : Trace call other s [] s
  | call {steps : List (Trace.Step σ α)} (step : Trace.Step σ α)
    (before : Trace call other s steps step.before) (does : call step) :
    Trace call other s (steps ++ [step]) step.after
  | other {s' t : σ} {steps : List (Trace.Step σ α)} (before : Trace call other s steps s')
    (moves : other s' t) : Trace call other s steps t

namespace Trace

variable {σ α τ : Type} {call : Step σ α → Prop} {other : σ → σ → Prop} {s s' : σ}
  {steps : List (Step σ α)} {step : Step σ α}

/-- What the first state has and every step keeps, the last state has, and so has every state in
which a call is made. -/
theorem keeps {I : σ → Prop} (h : Trace call other s steps s') (first : I s)
    (calls : ∀ step, call step → I step.before → I step.after)
    (others : ∀ s t, other s t → I s → I t) :
    I s' ∧ ∀ step ∈ steps, I step.before ∧ call step := by
  induction h with
  | start => exact ⟨first, nofun⟩
  | call step before does ih =>
    obtain ⟨here, past⟩ := ih
    refine ⟨calls step does here, fun t ht => ?_⟩
    rcases List.mem_append.1 ht with old | new
    · exact past t old
    · rw [List.mem_singleton.1 new]
      exact ⟨here, does⟩
  | other before moves ih =>
    obtain ⟨here, past⟩ := ih
    exact ⟨others _ _ moves here, past⟩

/-- Every recorded call was made. -/
theorem made (h : Trace call other s steps s') : ∀ step ∈ steps, call step := by
  have all := (h.keeps (I := fun _ => True) trivial (fun _ _ _ => trivial) fun _ _ _ _ => trivial).2
  exact fun step hs => (all step hs).2

/-- What each call has exactly under a condition, all have exactly when all meet it. -/
theorem forall_iff {P Q : Step σ α → Prop} (h : Trace call other s steps s')
    (exact_ : ∀ step, call step → (P step ↔ Q step)) :
    (∀ step ∈ steps, P step) ↔ ∀ step ∈ steps, Q step :=
  forall₂_congr fun step hs => exact_ step (h.made step hs)

/-- An abstract state that the calls update and the other steps keep. -/
theorem foldl {P : Step σ α → Prop} {abs : σ → τ} {spec : τ → Step σ α → τ}
    (h : Trace call other s steps s') (holds : ∀ step ∈ steps, P step)
    (calls : ∀ step, call step → P step → abs step.after = spec (abs step.before) step)
    (others : ∀ s t, other s t → abs t = abs s) : abs s' = steps.foldl spec (abs s) := by
  induction h with
  | start => rfl
  | call step before does ih =>
    have past := ih fun t ht => holds t (List.mem_append_left _ ht)
    rw [List.foldl_append, List.foldl_cons, List.foldl_nil, ← past]
    exact calls step does (holds step (List.mem_append_right _ (List.mem_singleton_self _)))
  | other before moves ih => rw [others _ _ moves, ih holds]

/-- A run whose calls all have a property is a run of such calls. -/
theorem restrict {P : Step σ α → Prop} (h : Trace call other s steps s')
    (all : ∀ step ∈ steps, P step) : Trace (fun step => call step ∧ P step) other s steps s' := by
  induction h with
  | start => exact .start
  | call step before does ih =>
    have last := all step (List.mem_append_right _ (List.mem_singleton_self _))
    exact .call step (ih fun t ht => all t (List.mem_append_left _ ht)) ⟨does, last⟩
  | other before moves ih => exact .other (ih all) moves

/-- A run is cut at one of its calls. -/
theorem split {past rest : List (Step σ α)} (h : Trace call other s (past ++ step :: rest) s') :
    Trace call other s past step.before ∧ call step ∧ Trace call other step.after rest s' := by
  generalize cut : past ++ step :: rest = steps at h
  induction h generalizing rest with
  | start => simp at cut
  | @call steps last before does ih =>
    rcases List.eq_nil_or_concat rest with rfl | ⟨rest, t, rfl⟩
    · obtain ⟨rfl, same⟩ := List.append_inj' cut rfl
      cases same
      exact ⟨before, does, .start⟩
    · rw [List.concat_eq_append, ← List.cons_append, ← List.append_assoc] at cut
      obtain ⟨same, last⟩ := List.append_inj' cut rfl
      cases last
      obtain ⟨first, made, after⟩ := ih same
      rw [List.concat_eq_append]
      exact ⟨first, made, .call _ after does⟩
  | other before moves ih =>
    obtain ⟨first, made, after⟩ := ih cut
    exact ⟨first, made, .other after moves⟩

/-- Where a relation carries every step over, it carries a run over, event by event. -/
theorem simulate {R : σ → σ → Prop} {t : σ} (h : Trace call other s steps s') (start : R s t)
    (calls : ∀ step, call step → ∀ t, R step.before t →
      ∃ t', call ⟨t, step.call, t'⟩ ∧ R step.after t')
    (others : ∀ u v, other u v → ∀ t, R u t → ∃ t', other t t' ∧ R v t') :
    ∃ steps' t', Trace call other t steps' t' ∧ R s' t' ∧
      steps'.map Step.call = steps.map Step.call := by
  induction h with
  | start => exact ⟨[], t, .start, start, rfl⟩
  | call step before does ih =>
    obtain ⟨steps', u, run, related, same⟩ := ih
    obtain ⟨t', does', related'⟩ := calls step does u related
    refine ⟨steps' ++ [⟨u, step.call, t'⟩], t', .call ⟨u, step.call, t'⟩ run does', related', ?_⟩
    rw [List.map_append, List.map_append, same]
    rfl
  | other before moves ih =>
    obtain ⟨steps', u, run, related, same⟩ := ih
    obtain ⟨t', moves', related'⟩ := others _ _ moves u related
    exact ⟨steps', t', .other run moves', related', same⟩

end Trace

import Mathlib.Data.List.Basic
import Mathlib.Data.List.Nodup
import Mathlib.Data.List.Perm.Subperm
import Mathlib.Tactic.Common

/-!
# Chains of handlers

`run` offers a context to the handlers of a list in turn.  A handler that is due is called: it
answers, and leaves the context and itself changed.  An answer that stops the chain keeps the
context from the handlers behind.

`Serves stops due called` says what the calls of a chain are: the keys of `due` in their order, up
to the first whose answer stops it.
-/

namespace Chain

variable {C H R K : Type}

/-- What a run leaves: the context, the handlers, and the calls made with their answers; a call
is named by the handler as it was before and its position. -/
structure Outcome (C H R : Type) where
  ctx : C
  handlers : List H
  called : List ((H × ℕ) × R)

/-- Offer the context to the handlers in turn, the first standing at position `i`. -/
def run (due : H → Bool) (call : C → H → R × C × H) (stops : R → Bool) :
    ℕ → C → List H → Outcome C H R
  | _, c, [] => ⟨c, [], []⟩
  | i, c, h :: hs =>
    if due h then
      let out := call c h
      if stops out.1 then ⟨out.2.1, out.2.2 :: hs, [((h, i), out.1)]⟩
      else
        let rest := run due call stops (i + 1) out.2.1 hs
        ⟨rest.ctx, out.2.2 :: rest.handlers, ((h, i), out.1) :: rest.called⟩
    else
      let rest := run due call stops (i + 1) c hs
      ⟨rest.ctx, h :: rest.handlers, rest.called⟩

/-- The handlers that are due, with their positions. -/
def waiting (due : H → Bool) (i : ℕ) (hs : List H) : List (H × ℕ) :=
  (hs.zipIdx i).filter fun x => due x.1

/-- The calls serve the keys in order, up to the first whose answer stops the chain. -/
inductive Serves (stops : R → Bool) : List K → List (K × R) → Prop
  | done : Serves stops [] []
  | stop {k : K} {r : R} (due : List K) : stops r → Serves stops (k :: due) [(k, r)]
  | next {k : K} {r : R} {due : List K} {called : List (K × R)} :
      ¬ stops r → Serves stops due called → Serves stops (k :: due) ((k, r) :: called)

variable {due : H → Bool} {call : C → H → R × C × H} {stops : R → Bool}

section Step

variable {i : ℕ} {c : C} {h : H} {hs : List H}

theorem waiting_cons_of_pos (offered : due h) :
    waiting due i (h :: hs) = (h, i) :: waiting due (i + 1) hs := by
  simp [waiting, List.zipIdx_cons, offered]

theorem waiting_cons_of_neg (skipped : ¬ due h) :
    waiting due i (h :: hs) = waiting due (i + 1) hs := by
  simp [waiting, List.zipIdx_cons, skipped]

theorem map_waiting : (waiting due i hs).map (·.1) = hs.filter due := by
  induction hs generalizing i with
  | nil => rfl
  | cons h hs ih =>
    by_cases offered : due h
    · rw [waiting_cons_of_pos offered, List.map_cons, ih, List.filter_cons_of_pos offered]
    · rw [waiting_cons_of_neg offered, ih, List.filter_cons_of_neg offered]

theorem run_skip (skipped : ¬ due h) : run due call stops i c (h :: hs) =
    ⟨(run due call stops (i + 1) c hs).ctx, h :: (run due call stops (i + 1) c hs).handlers,
      (run due call stops (i + 1) c hs).called⟩ := by
  rw [run, if_neg skipped]

theorem run_stop (offered : due h) (stopped : stops (call c h).1) :
    run due call stops i c (h :: hs) =
      ⟨(call c h).2.1, (call c h).2.2 :: hs, [((h, i), (call c h).1)]⟩ := by
  rw [run, if_pos offered, if_pos stopped]

theorem run_next (offered : due h) (goesOn : ¬ stops (call c h).1) :
    run due call stops i c (h :: hs) =
      ⟨(run due call stops (i + 1) (call c h).2.1 hs).ctx,
        (call c h).2.2 :: (run due call stops (i + 1) (call c h).2.1 hs).handlers,
        ((h, i), (call c h).1) :: (run due call stops (i + 1) (call c h).2.1 hs).called⟩ := by
  rw [run, if_pos offered, if_neg goesOn]

end Step

/-- A run calls the handlers that are due, in their order, up to the first that stops it. -/
theorem run_serves (i : ℕ) (c : C) (hs : List H) :
    Serves stops (waiting due i hs) (run due call stops i c hs).called := by
  induction hs generalizing i c with
  | nil => exact .done
  | cons h hs ih =>
    by_cases offered : due h
    · rw [waiting_cons_of_pos offered]
      by_cases stopped : stops (call c h).1
      · rw [run_stop offered stopped]
        exact .stop _ stopped
      · rw [run_next offered stopped]
        exact .next stopped (ih (i + 1) _)
    · rw [waiting_cons_of_neg offered, run_skip offered]
      exact ih (i + 1) c

/-- A field that no call changes is the same in every handler after a run. -/
theorem map_run_handlers {α : Type} {f : H → α} (kept : ∀ c h, f (call c h).2.2 = f h) (i : ℕ)
    (c : C) (hs : List H) : (run due call stops i c hs).handlers.map f = hs.map f := by
  induction hs generalizing i c with
  | nil => rfl
  | cons h hs ih =>
    by_cases offered : due h
    · by_cases stopped : stops (call c h).1
      · rw [run_stop offered stopped, List.map_cons, kept, List.map_cons]
      · rw [run_next offered stopped, List.map_cons, kept, ih, List.map_cons]
    · rw [run_skip offered, List.map_cons, ih, List.map_cons]

theorem length_run_handlers (i : ℕ) (c : C) (hs : List H) :
    (run due call stops i c hs).handlers.length = hs.length := by
  simpa using congrArg List.length (map_run_handlers (f := fun _ => ()) (fun _ _ => rfl) i c hs)

/-- What is taken from handlers that are never due is not touched by a run. -/
theorem filterMap_run_handlers {pick : H → Option K} (aside : ∀ c h, due h →
    pick h = none ∧ pick (call c h).2.2 = none) (i : ℕ) (c : C) (hs : List H) :
    (run due call stops i c hs).handlers.filterMap pick = hs.filterMap pick := by
  induction hs generalizing i c with
  | nil => rfl
  | cons h hs ih =>
    by_cases offered : due h
    · obtain ⟨before, after⟩ := aside c h offered
      by_cases stopped : stops (call c h).1
      · rw [run_stop offered stopped, List.filterMap_cons_none after,
          List.filterMap_cons_none before]
      · rw [run_next offered stopped, List.filterMap_cons_none after, ih,
          List.filterMap_cons_none before]
    · rw [run_skip offered, List.filterMap_cons, ih, List.filterMap_cons]

/-- Two chains, one over a part of the other's handlers, do the same when only that part is due
and each call of the one is the call of the other. -/
theorem run_filterMap {G : Type} {pick : G → Option H} {due' : G → Bool}
    {call' : C → G → R × C × G} (gs : List G)
    (due_iff : ∀ g ∈ gs, due' g ↔ ∃ h, pick g = some h ∧ due h)
    (call_eq : ∀ g ∈ gs, ∀ h c, pick g = some h →
      (call' c g).1 = (call c h).1 ∧ (call' c g).2.1 = (call c h).2.1 ∧
        pick (call' c g).2.2 = some (call c h).2.2) (i j : ℕ) (c : C) :
    (run due call stops i c (gs.filterMap pick)).ctx = (run due' call' stops j c gs).ctx ∧
      (run due call stops i c (gs.filterMap pick)).handlers =
        (run due' call' stops j c gs).handlers.filterMap pick := by
  induction gs generalizing i j c with
  | nil => exact ⟨rfl, rfl⟩
  | cons g gs ih =>
    have ih := ih (fun g hg => due_iff g (.tail _ hg)) fun g hg => call_eq g (.tail _ hg)
    have here := due_iff g (.head _)
    have calls := call_eq g (.head _)
    cases picked : pick g with
    | none =>
      have skipped : ¬ due' g := fun offered => by simpa [picked] using here.1 offered
      rw [List.filterMap_cons_none picked, run_skip skipped, List.filterMap_cons_none picked]
      exact ih i (j + 1) c
    | some h =>
      rw [List.filterMap_cons_some picked]
      by_cases offered : due h
      · have offered' : due' g := here.2 ⟨h, picked, offered⟩
        obtain ⟨answer, left, kept⟩ := calls h c picked
        by_cases stopped : stops (call c h).1
        · rw [run_stop offered stopped, run_stop offered' (answer ▸ stopped),
            List.filterMap_cons_some kept, left]
          exact ⟨rfl, rfl⟩
        · rw [run_next offered stopped, run_next offered' (answer ▸ stopped),
            List.filterMap_cons_some kept, left]
          obtain ⟨ctx, handlers⟩ := ih (i + 1) (j + 1) (call c h).2.1
          exact ⟨ctx, congrArg _ handlers⟩
      · have skipped : ¬ due' g := fun offered' => by
          obtain ⟨h', picked', due'⟩ := here.1 offered'
          rw [picked] at picked'
          cases picked'
          exact offered due'
        rw [run_skip offered, run_skip skipped, List.filterMap_cons_some picked]
        obtain ⟨ctx, handlers⟩ := ih (i + 1) (j + 1) c
        exact ⟨ctx, congrArg _ handlers⟩

/-! ## What the calls are -/

section Serves

variable {ks : List K} {called : List (K × R)}

/-- Keys may be renamed. -/
theorem Serves.map {K' : Type} (f : K → K') (serves : Serves stops ks called) :
    Serves stops (ks.map f) (called.map fun x => (f x.1, x.2)) := by
  induction serves with
  | done => exact .done
  | stop due stopped => exact .stop _ stopped
  | next goesOn rest ih => exact .next goesOn ih

/-- The calls are the first keys, in their order. -/
theorem Serves.inOrder (serves : Serves stops ks called) : called.map (·.1) <+: ks := by
  induction serves with
  | done => exact List.nil_prefix
  | stop due stopped => exact (List.prefix_cons_inj _).2 List.nil_prefix
  | next goesOn rest ih => exact (List.prefix_cons_inj _).2 ih

/-- Nothing is called only when there is nothing to call. -/
theorem Serves.called_eq_nil_iff (serves : Serves stops ks called) : called = [] ↔ ks = [] := by
  cases serves <;> simp

end Serves

/-! ## Chains that reach every handler -/

/-- No handler that is due stops the chain, the last of them apart. -/
def OnlyLastStops (due : H → Bool) (call : C → H → R × C × H) (stops : R → Bool) :
    C → List H → Prop
  | _, [] => True
  | c, h :: hs =>
    if due h then
      if stops (call c h).1 then ∀ h' ∈ hs, ¬ due h'
      else OnlyLastStops due call stops (call c h).2.1 hs
    else OnlyLastStops due call stops c hs

section Complete

variable {i : ℕ} {c : C} {hs : List H}

theorem waiting_eq_nil_iff : waiting due i hs = [] ↔ ∀ h ∈ hs, ¬ due h := by
  rw [← List.map_eq_nil_iff (f := Prod.fst), map_waiting, List.filter_eq_nil_iff]

/-- Everything due is called exactly when no handler before the last stops the chain. -/
theorem run_complete_iff : (run due call stops i c hs).called.map (·.1) = waiting due i hs ↔
    OnlyLastStops due call stops c hs := by
  induction hs generalizing i c with
  | nil => exact iff_of_true rfl trivial
  | cons h hs ih =>
    rw [OnlyLastStops]
    by_cases offered : due h
    · rw [if_pos offered, waiting_cons_of_pos offered]
      by_cases stopped : stops (call c h).1
      · rw [if_pos stopped, run_stop offered stopped, ← waiting_eq_nil_iff (i := i + 1)]
        simp only [List.map_cons, List.map_nil, List.cons.injEq, true_and]
        exact eq_comm
      · rw [if_neg stopped, run_next offered stopped, List.map_cons, List.cons_inj_right, ih]
    · rw [if_neg offered, waiting_cons_of_neg offered, run_skip offered, ih]

theorem mem_waiting {h : H} {j : ℕ} : (h, j) ∈ waiting due 0 hs ↔ hs[j]? = some h ∧ due h := by
  rw [waiting, List.mem_filter, List.mem_zipIdx_iff_getElem?]

theorem nodup_positions (due : H → Bool) (i : ℕ) (hs : List H) :
    ((waiting due i hs).map (·.2)).Nodup := by
  refine List.Nodup.sublist (List.filter_sublist.map _) ?_
  rw [List.zipIdx_map_snd]
  exact List.nodup_range'

/-- The positions called. -/
def positions (out : Outcome C H R) : List ℕ := out.called.map (·.1.2)

theorem positions_isPrefix :
    positions (run due call stops i c hs) <+: (waiting due i hs).map (·.2) := by
  have inOrder := (@run_serves C H R due call stops i c hs).inOrder
  have mapped := inOrder.map (f := Prod.snd)
  rw [List.map_map] at mapped
  exact mapped

/-- A run calls no handler twice. -/
theorem nodup_called : (positions (run due call stops i c hs)).Nodup :=
  (nodup_positions due i hs).sublist positions_isPrefix.sublist

/-- Every handler that is due is called once exactly when none but the last of them stops. -/
theorem count_positions_iff : (∀ j h, hs[j]? = some h → due h →
    (positions (run due call stops 0 c hs)).count j = 1) ↔ OnlyLastStops due call stops c hs := by
  rw [← run_complete_iff (i := 0)]
  have inOrder := (@run_serves C H R due call stops 0 c hs).inOrder
  constructor
  · intro once
    have all : (waiting due 0 hs).map (·.2) ⊆ positions (run due call stops 0 c hs) := by
      intro j hj
      obtain ⟨⟨h, j⟩, isDue, rfl⟩ := List.mem_map.1 hj
      obtain ⟨found, isDue⟩ := mem_waiting.1 isDue
      have count := once j h found isDue
      apply List.count_pos_iff.1
      rw [count]
      exact Nat.one_pos
    have len := ((nodup_positions due 0 hs).subperm all).length_le
    apply inOrder.eq_of_length_le
    simpa [positions] using len
  · intro complete j h found isDue
    have called : (h, j) ∈ (run due call stops 0 c hs).called.map (·.1) := by
      rw [complete]
      exact mem_waiting.2 ⟨found, isDue⟩
    have position : j ∈ positions (run due call stops 0 c hs) := by
      have := List.mem_map_of_mem (f := Prod.snd) called
      rwa [List.map_map] at this
    exact List.count_eq_one_of_mem nodup_called position

/-- The first handler is called when it is due. -/
theorem zero_mem_positions {h : H} (offered : due h) :
    0 ∈ positions (run due call stops 0 c (h :: hs)) := by
  unfold positions
  by_cases stopped : stops (call c h).1
  · rw [run_stop offered stopped]
    exact .head _
  · rw [run_next offered stopped]
    exact .head _

end Complete

end Chain

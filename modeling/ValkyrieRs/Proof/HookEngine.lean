import ValkyrieRs.Proof.HookRegistry

/-!
# Requests to the engine

The engine answers its requests one after the other, and may refuse any of them.  The hooks that it
holds are numbered by the requests that installed them.
-/

namespace ValkyrieRs

open Proc VCoreHooks

variable {C U : Type}

/-- The engine grants the next `n` requests. -/
def UcHooks.Grants (uc : UcHooks) (n : ℕ) : Prop := ∀ k < n, uc.answers (uc.issued + k) = none

/-- The hooks have numbers of their own, given out before. -/
structure UcHooks.Numbered (uc : UcHooks) : Prop where
  nodup : (uc.installed.map (·.1)).Nodup
  issued : ∀ x ∈ uc.installed, x.1 < uc.issued

namespace UcHooks

variable {uc : UcHooks} {e : UcError} {m n : ℕ}

theorem grants_zero : uc.Grants 0 := fun _ h => absurd h (Nat.not_lt_zero _)

/-- The engine grants the first request, and the others after it. -/
theorem grants_succ : uc.Grants (n + 1) ↔
    uc.answers uc.issued = none ∧ Grants { uc with issued := uc.issued + 1 } n := by
  constructor
  · intro all
    refine ⟨all 0 (by omega), fun k hk => ?_⟩
    have later := all (k + 1) (by omega)
    rwa [← Nat.add_assoc, Nat.add_right_comm] at later
  · rintro ⟨first, rest⟩ k hk
    cases k with
    | zero => exact first
    | succ k =>
      rw [← Nat.add_assoc, Nat.add_right_comm]
      exact rest k (by omega)

theorem grants_add : uc.Grants (m + n) ↔
    uc.Grants m ∧ Grants { uc with issued := uc.issued + m } n := by
  constructor
  · intro all
    refine ⟨fun k hk => all k (by omega), fun k hk => ?_⟩
    have later := all (m + k) (by omega)
    rwa [← Nat.add_assoc] at later
  · rintro ⟨first, rest⟩ k hk
    by_cases early : k < m
    · exact first k early
    · have later := rest (k - m) (by omega)
      rwa [Nat.add_assoc, Nat.add_sub_cancel' (by omega)] at later

theorem addHook_refused (refused : uc.answers uc.issued = some e) (hook : UcHook) :
    uc.addHook hook = (.error e, { uc with issued := uc.issued + 1 }) := by
  simp [addHook, refused]

theorem addHook_granted (granted : uc.answers uc.issued = none) (hook : UcHook) :
    uc.addHook hook = (.ok uc.issued, { uc with
      installed := uc.installed ++ [(uc.issued, hook)]
      issued := uc.issued + 1 }) := by
  simp [addHook, granted]

theorem removeHook_refused (refused : uc.answers uc.issued = some e) (i : UcHookId) :
    uc.removeHook i = (.error e, { uc with issued := uc.issued + 1 }) := by
  simp [removeHook, refused]

/-- The engine after it has released the dispatchers of some handles. -/
def without (uc : UcHooks) (ids : List UcHookId) : UcHooks where
  installed := uc.installed.filter (·.1 ∉ ids)
  issued := uc.issued + ids.length
  answers := uc.answers

theorem mem_without {ids : List UcHookId} {x : UcHookId × UcHook} :
    x ∈ (uc.without ids).installed ↔ x ∈ uc.installed ∧ x.1 ∉ ids := by
  simp [without]

theorem without_nil : uc.without [] = uc := by
  simp [without]

theorem without_cons (i : UcHookId) (ids : List UcHookId) :
    (uc.without [i]).without ids = uc.without (i :: ids) := by
  simp only [without, List.filter_filter, List.length_cons, List.length_nil, mk.injEq, and_true]
  refine ⟨List.filter_congr fun x _ => ?_, by omega⟩
  rw [Bool.eq_iff_iff]
  simp [and_comm]

theorem removeHook_granted (granted : uc.answers uc.issued = none) (i : UcHookId) :
    uc.removeHook i = (.ok (), uc.without [i]) := by
  simp [removeHook, granted, without]

/-- An engine that refuses nothing grants everything. -/
theorem grants_of_accepts (accepts : ∀ k, uc.answers k = none) : uc.Grants n := fun _ _ => accepts _

namespace Numbered

theorem add (h : uc.Numbered) (hook : UcHook) : Numbered { uc with
    installed := uc.installed ++ [(uc.issued, hook)]
    issued := uc.issued + 1 } := by
  constructor
  · rw [List.map_append, List.nodup_append]
    refine ⟨h.nodup, by simp, ?_⟩
    rintro i old j new rfl
    obtain ⟨x, installed, rfl⟩ := List.mem_map.1 old
    have lt := h.issued x installed
    simp only [List.map_cons, List.map_nil, List.mem_singleton] at new
    exact absurd new (Nat.ne_of_lt lt)
  · intro x hx
    rcases List.mem_append.1 hx with old | new
    · exact Nat.lt_succ_of_lt (h.issued x old)
    · rw [List.mem_singleton.1 new]
      exact Nat.lt_succ_self _

theorem without (h : uc.Numbered) (ids : List UcHookId) : (uc.without ids).Numbered := by
  refine ⟨h.nodup.sublist (List.filter_sublist.map _), fun x hx => ?_⟩
  exact Nat.lt_of_lt_of_le (h.issued x (mem_without.1 hx).1) (Nat.le_add_right _ _)

end Numbered

end UcHooks

section Requests

variable {s s' : Hooking C U} {r : Except ValkyrieError Unit}

/-- A request to remove a dispatcher is refused, or granted. -/
theorem ends_ucRemoveHook {i : UcHookId} :
    (ucRemoveHook i).Ends s r s' ↔
      (∃ e, s.uc.answers s.uc.issued = some e ∧ r = .error (.unicorn e) ∧
        s' = ⟨s.reg, { s.uc with issued := s.uc.issued + 1 }⟩) ∨
      s.uc.answers s.uc.issued = none ∧ r = .ok () ∧ s' = ⟨s.reg, s.uc.without [i]⟩ := by
  rw [ucRemoveHook, ends_bind_get, ends_bind_modify]
  cases answer : s.uc.answers s.uc.issued with
  | some e => simp [UcHooks.removeHook_refused answer]
  | none => simp [UcHooks.removeHook_granted answer]

theorem ends_ucRemoveHook_granted {i : UcHookId} (granted : s.uc.answers s.uc.issued = none) :
    (ucRemoveHook i).Ends s (.ok ()) ⟨s.reg, s.uc.without [i]⟩ :=
  ends_ucRemoveHook.2 (.inr ⟨granted, rfl, rfl⟩)

/-- A loop of requests: all are granted, or one whose dispatcher stays is refused. -/
theorem ends_removeEach {α : Type} {handle : α → UcHookId} {l : List α}
    (run : (l.forM fun x => ucRemoveHook (handle x)).Ends s r s') :
    s.uc.Grants l.length ∧ r = .ok () ∧ s' = ⟨s.reg, s.uc.without (l.map handle)⟩ ∨
      ¬ s.uc.Grants l.length ∧ (∃ e, r = .error e) ∧ s'.reg = s.reg ∧
        ((l.map handle).Nodup → ∃ x ∈ l, ∀ hook, (handle x, hook) ∈ s.uc.installed →
          (handle x, hook) ∈ s'.uc.installed) := by
  induction l generalizing s with
  | nil =>
    obtain ⟨rfl, rfl⟩ := ends_forM_nil.1 run
    exact .inl ⟨UcHooks.grants_zero, rfl, by rw [List.map_nil, UcHooks.without_nil]⟩
  | cons x l ih =>
    rw [List.length_cons, UcHooks.grants_succ]
    obtain ⟨e, first, rfl⟩ | ⟨t, first, rest⟩ := ends_forM_cons.1 run
    · obtain ⟨e', answer, -, rfl⟩ | ⟨-, failed, -⟩ := ends_ucRemoveHook.1 first
      · exact .inr ⟨by simp [answer], ⟨e, rfl⟩, rfl, fun _ => ⟨x, by simp, fun _ here => here⟩⟩
      · cases failed
    · obtain ⟨_, _, failed, -⟩ | ⟨answer, -, rfl⟩ := ends_ucRemoveHook.1 first
      · cases failed
      obtain ⟨granted, ok, rfl⟩ | ⟨refused, failed, reg, stays⟩ := ih rest
      · exact .inl ⟨⟨answer, granted⟩, ok, by rw [List.map_cons, UcHooks.without_cons]⟩
      · refine .inr ⟨fun all => refused all.2, failed, reg, fun nodup => ?_⟩
        rw [List.map_cons, List.nodup_cons] at nodup
        obtain ⟨y, hy, kept⟩ := stays nodup.2
        refine ⟨y, List.mem_cons_of_mem _ hy, fun hook here => kept hook ?_⟩
        have other : handle y ≠ handle x := fun same => nodup.1 (same ▸ List.mem_map_of_mem hy)
        simpa [UcHooks.mem_without, other] using here

/-- A loop of requests that are granted. -/
theorem ends_removeEach_granted {α : Type} {handle : α → UcHookId} {l : List α}
    (granted : s.uc.Grants l.length) : (l.forM fun x => ucRemoveHook (handle x)).Ends s (.ok ⟨⟩)
      ⟨s.reg, s.uc.without (l.map handle)⟩ := by
  induction l generalizing s with
  | nil => exact ends_forM_nil.2 ⟨rfl, by rw [List.map_nil, UcHooks.without_nil]⟩
  | cons x l ih =>
    rw [List.length_cons, UcHooks.grants_succ] at granted
    refine ends_forM_cons_ok.2 ⟨_, ends_ucRemoveHook_granted granted.1, ?_⟩
    simpa only [UcHooks.without_cons, List.map_cons] using
      @ih ⟨s.reg, s.uc.without [handle x]⟩ granted.2

/-- Nothing is left when the dispatchers of both tables are released. -/
theorem none_left (recorded : ∀ x ∈ s.uc.installed, s.reg.handle x.2.target = some x.1) :
    ((s.uc.without (s.reg.hookFuc.entries.map (·.2))).without
      (s.reg.addrHookFuc.entries.map (·.2))).installed = [] := by
  refine List.eq_nil_iff_forall_not_mem.2 fun x hx => ?_
  obtain ⟨mem, notAddress⟩ := UcHooks.mem_without.1 hx
  obtain ⟨mem, notType⟩ := UcHooks.mem_without.1 mem
  obtain ⟨i, point, type | addr⟩ := x
  · exact notType (List.mem_map_of_mem (AList.mem_lookup_iff.1 (recorded _ mem)))
  · exact notAddress (List.mem_map_of_mem (AList.mem_lookup_iff.1 (recorded _ mem)))

end Requests

end ValkyrieRs

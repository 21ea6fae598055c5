import Mathlib.Data.List.Count
import ValkyrieRs.HookEnv
import ValkyrieRs.Proof.HookRefinement

/-!
# Delivery of instructions to code hooks

The registry of `HookEnv` holds the syscall hook and one dispatcher for code hooks.  A code hook
registered in `vcorehook` installs a second such dispatcher, which dispatches to `HookEnv` again:
the new hook is never called, and the hooks of `HookEnv` are called twice.
-/

namespace ValkyrieRs

open Proc VCoreHooks Buckets

variable {C U : Type}

/-- The code hooks of a registry, in the order of their registration. -/
def VCoreHooks.codeHooks (reg : VCoreHooks C U) : List (HookCommon C U) :=
  (reg.hooks.lookup .code).getD []

/-- The range of the hook. -/
def HookCommon.range (hook : HookCommon C U) : U64 × U64 := (hook.beginAddr, hook.endAddr)

/-- The number of calls of a code hook when an instruction is executed. -/
def HookedVk.timesCalled (s : HookedVk C U) (addr : U64) (size : U32) (name : RegistryName)
    (position : ℕ) : ℕ :=
  (s.execInsn addr size).1.count ⟨name, .common .code, position⟩

/-- Every code hook of either registry whose range has the address is called once. -/
def HookedVk.DeliversOnce (s : HookedVk C U) (addr : U64) (size : U32) : Prop :=
  ∀ name i hook, (s.registry name).codeHooks[i]? = some hook → rangeCovers hook.range addr →
    s.timesCalled addr size name i = 1

/-! ## A step -/

/-- A registration in one of the registries, the execution of an instruction, or a change of the
context. -/
inductive HookStep (C U : Type) where
  | register (name : RegistryName) (r : Registration C U) (userData : U)
  | exec (addr : U64) (size : U32)
  | change (f : C → C)

/-- The step on the emulator. -/
def HookStep.perform : HookStep C U → Proc (HookedVk C U) ValkyrieError Unit
  | .register name r userData => do
    let _ ← onRegistryOf name (r.register userData)
  | .exec addr size => modify fun s => (s.execInsn addr size).2
  | .change f => modify fun s => { s with ctx := f s.ctx }

/-- A registration of a code hook in `vcorehook`. -/
def HookStep.inVcorehook : HookStep C U → Bool
  | .register .vcorehook r _ => r.kind = .common .code
  | _ => false

/-! ## What a registration adds -/

section Registering

variable {s : Hooking C U}

/-- The dispatcher that a registration installs, if any. -/
def Hooking.installs (s : Hooking C U) (kind : HookKind) : List (UcHookId × UcHook) :=
  if (s.reg.handle kind).isSome then [] else [(s.uc.issued, ⟨kind.point, kind⟩)]

theorem installed_registered (accepts : ∀ n, s.uc.answers n = none) (r : Registration C U)
    (userData : U) :
    (s.registered r userData).uc.installed = s.uc.installed ++ s.installs r.kind := by
  show (s.ensured r.kind).uc.installed = _
  unfold Hooking.ensured Hooking.installs
  split_ifs
  · rw [List.append_nil]
  · simp [UcHooks.addHook, accepts]

theorem answers_registered (r : Registration C U) (userData : U) :
    (s.registered r userData).uc.answers = s.uc.answers := by
  show (s.ensured r.kind).uc.answers = _
  unfold Hooking.ensured UcHooks.addHook
  split_ifs
  · rfl
  · dsimp only
    split <;> rfl

/-- A code hook is registered behind the others. -/
theorem codeHooks_registered (r : Registration C U) (userData : U) :
    (s.registered r userData).reg.codeHooks = s.reg.codeHooks ++
      if r.kind = .common .code then [LiveHook.toCommon ⟨r, s.reg.nextId, userData⟩] else [] := by
  show ((s.ensured r.kind).reg.pushHook ⟨r, s.reg.nextId, userData⟩).codeHooks = _
  unfold VCoreHooks.codeHooks VCoreHooks.pushHook
  cases kind : r.kind with
  | common t =>
    simp only [LiveHook.kind, kind, ensured_hooks, Buckets.push, HookKind.common.injEq]
    split_ifs with same
    · rw [same, AList.lookup_insert, Option.getD_some]
    · rw [AList.lookup_insert_ne (Ne.symm same), List.append_nil]
  | address addr =>
    simp only [LiveHook.kind, kind, ensured_hooks, reduceCtorEq, if_false, List.append_nil]

end Registering

/-! ## What the execution of an instruction leaves alone -/

/-- The hooks and the dispatchers are the same up to the user data. -/
structure SameHooks (s s' : HookedVk C U) : Prop where
  vcorehook : s'.vcorehook = s.vcorehook
  uc : s'.uc = s.uc
  handle : s'.hookEnv.handle = s.hookEnv.handle
  ranges : s'.hookEnv.codeHooks.map HookCommon.range = s.hookEnv.codeHooks.map HookCommon.range

theorem SameHooks.trans {s t u : HookedVk C U} (first : SameHooks s t) (second : SameHooks t u) :
    SameHooks s u where
  vcorehook := second.vcorehook.trans first.vcorehook
  uc := second.uc.trans first.uc
  handle := second.handle.trans first.handle
  ranges := second.ranges.trans first.ranges

section Executing

variable {s : HookedVk C U} {addr : U64} {size : U32}

theorem codeHooks_insertHooks (reg : VCoreHooks C U) (t : HookType) (l : List (HookCommon C U)) :
    (insertHooks t l reg).codeHooks = if t = .code then l else reg.codeHooks := by
  unfold VCoreHooks.codeHooks insertHooks
  split_ifs with same
  · rw [same, AList.lookup_insert, Option.getD_some]
  · rw [AList.lookup_insert_ne (Ne.symm same)]

theorem sameHooks_dispatch (s : HookedVk C U) (target : HookKind) (addr : U64) (size : U32) :
    SameHooks s (s.dispatch target addr size).2 := by
  cases target with
  | common t =>
    simp only [HookedVk.dispatch, dispatchCommon]
    cases found : s.hookEnv.hooks.lookup t with
    | none => exact ⟨rfl, rfl, rfl, rfl⟩
    | some l =>
      refine ⟨rfl, rfl, rfl, ?_⟩
      show (insertHooks t _ s.hookEnv).codeHooks.map _ = _
      rw [codeHooks_insertHooks]
      split_ifs with same
      · rw [Chain.map_run_handlers (fun _ _ => rfl), VCoreHooks.codeHooks, ← same, found,
          Option.getD_some]
      · rfl
  | address a =>
    simp only [HookedVk.dispatch, dispatchAddr]
    cases s.hookEnv.addrHooks.lookup addr with
    | none => exact ⟨rfl, rfl, rfl, rfl⟩
    | some l => exact ⟨rfl, rfl, rfl, rfl⟩

theorem sameHooks_callHooks (hooks : List (UcHookId × UcHook)) (s : HookedVk C U) :
    SameHooks s (HookedVk.callHooks addr size hooks s).2 := by
  induction hooks generalizing s with
  | nil => exact ⟨rfl, rfl, rfl, rfl⟩
  | cons x hooks ih =>
    rw [HookedVk.callHooks]
    split_ifs
    · exact (sameHooks_dispatch s _ addr size).trans (ih _)
    · exact ih s

/-! ## The calls of code hooks -/

/-- The dispatcher of code hooks runs the code hooks of `HookEnv`. -/
theorem count_dispatch_code (position : ℕ) :
    (s.dispatch (.common .code) addr size).1.count ⟨.hookEnv, .common .code, position⟩ =
      (Chain.positions (Chain.run (due (.trace addr size)) (call (.trace addr size)) blocks 0 s.ctx
        s.hookEnv.codeHooks)).count position := by
  have called : (s.hookEnv.dispatchCommon s.ctx .code (.trace addr size)).called =
      (Chain.run (due (.trace addr size)) (call (.trace addr size)) blocks 0 s.ctx
        s.hookEnv.codeHooks).called := by
    unfold dispatchCommon VCoreHooks.codeHooks
    cases s.hookEnv.hooks.lookup .code <;> rfl
  have injective : Function.Injective fun j => HookCalled.mk .hookEnv (.common .code) j :=
    fun _ _ same => congrArg HookCalled.position same
  rw [← List.count_map_of_injective _ _ injective, Chain.positions, ← called, List.map_map]
  rfl

/-- Other dispatchers call no code hook. -/
theorem count_dispatch_of_ne {target : HookKind} (ne : target ≠ .common .code)
    (name : RegistryName) (position : ℕ) :
    (s.dispatch target addr size).1.count ⟨name, .common .code, position⟩ = 0 := by
  rw [List.count_eq_zero]
  intro called
  cases target with
  | common t =>
    obtain ⟨_, -, same⟩ := List.mem_map.1 called
    exact ne (congrArg HookCalled.kind same)
  | address a =>
    obtain ⟨_, -, same⟩ := List.mem_map.1 called
    cases congrArg HookCalled.kind same

theorem count_callHooks_of_none {hooks : List (UcHookId × UcHook)}
    (none : ∀ x ∈ hooks, x.2.target ≠ .common .code) (s : HookedVk C U) (name : RegistryName)
    (position : ℕ) :
    (HookedVk.callHooks addr size hooks s).1.count ⟨name, .common .code, position⟩ = 0 := by
  induction hooks generalizing s with
  | nil => rfl
  | cons x hooks ih =>
    have rest := ih fun y hy => none y (.tail _ hy)
    rw [HookedVk.callHooks]
    split_ifs
    · rw [List.count_append, count_dispatch_of_ne (none x (.head _)), rest]
    · exact rest s

/-- The first code hook of `HookEnv` hears every instruction. -/
def HookedVk.FirstHears (s : HookedVk C U) : Prop :=
  ∃ h, s.hookEnv.codeHooks[0]? = some h ∧ h.range = (1, 0)

theorem SameHooks.firstHears {s s' : HookedVk C U} (same : SameHooks s s') (first : s.FirstHears) :
    s'.FirstHears := by
  obtain ⟨h, found, range⟩ := first
  have ranges := congrArg (·[0]?) same.ranges
  simp only [List.getElem?_map, found, Option.map_some, Option.map_eq_some_iff] at ranges
  obtain ⟨h', found', range'⟩ := ranges
  exact ⟨h', found', range'.trans range⟩

theorem due_of_range {h : HookCommon C U} (range : h.range = (1, 0)) (addr : U64) (size : U32) :
    due (.trace addr size) h := boundCheck_iff.2 (.inl range)

theorem onInsn_everywhere (addr : U64) : (HookPoint.code 1 0).onInsn addr := by
  simp [HookPoint.onInsn]

variable (addr size) in
theorem one_le_count_dispatch (first : s.FirstHears) :
    1 ≤ (s.dispatch (.common .code) addr size).1.count ⟨.hookEnv, .common .code, 0⟩ := by
  obtain ⟨h, found, range⟩ := first
  rw [count_dispatch_code, Nat.one_le_iff_ne_zero, ← Nat.pos_iff_ne_zero, List.count_pos_iff]
  cases hooks : s.hookEnv.codeHooks with
  | nil => simp [hooks] at found
  | cons h' l =>
    obtain rfl : h' = h := by simpa [hooks] using found
    exact Chain.zero_mem_positions (due_of_range range addr size)

variable (addr size) in
theorem one_le_count_callHooks {hooks : List (UcHookId × UcHook)} {s : HookedVk C U}
    (first : s.FirstHears) (points : ∀ x ∈ hooks, x.2.point = x.2.target.point)
    (some : ∃ x ∈ hooks, x.2.target = .common .code) :
    1 ≤ (HookedVk.callHooks addr size hooks s).1.count ⟨.hookEnv, .common .code, 0⟩ := by
  induction hooks generalizing s with
  | nil => simp at some
  | cons x hooks ih =>
    have points' := fun y hy => points y (.tail _ hy)
    rw [HookedVk.callHooks]
    by_cases here : x.2.target = .common .code
    · have point : x.2.point = .code 1 0 := (points x (.head _)).trans (here ▸ rfl)
      rw [point, if_pos (onInsn_everywhere addr), List.count_append, here]
      have := one_le_count_dispatch addr size first
      omega
    · have some' : ∃ y ∈ hooks, y.2.target = .common .code := by
        obtain ⟨y, hy, target⟩ := some
        cases hy with
        | head => exact absurd target here
        | tail _ hy => exact ⟨y, hy, target⟩
      split_ifs
      · rw [List.count_append]
        have := ih ((sameHooks_dispatch s x.2.target addr size).firstHears first) points' some'
        omega
      · exact ih first points' some'

end Executing

/-! ## The state after any steps -/

/-- The first dispatcher is that of the code hooks of `HookEnv`, whose first hooks, up to the syscall
hook at position `n`, hear every instruction; another such dispatcher is installed if `doubled`. -/
structure Shared (n : ℕ) (doubled : Prop) (s : HookedVk C U) : Prop where
  accepts : ∀ k, s.uc.answers k = none
  installed : ∃ i rest, s.uc.installed = (i, ⟨.code 1 0, .common .code⟩) :: rest ∧
    (∀ x ∈ rest, x.2.point = x.2.target.point) ∧
    ((∃ x ∈ rest, x.2.target = .common .code) ↔ doubled)
  recorded : (s.hookEnv.handle (.common .code)).isSome
  everywhere : ∀ j ≤ n, ∃ h, s.hookEnv.codeHooks[j]? = some h ∧ h.range = (1, 0)
  other : (s.vcorehook.handle (.common .code)).isSome ↔ doubled
  empty : ¬ doubled → s.vcorehook.codeHooks = []

section Steps

variable {n : ℕ} {doubled : Prop} {s s' : HookedVk C U}

theorem Shared.sameHooks (h : Shared n doubled s) (same : SameHooks s s') :
    Shared n doubled s' where
  accepts := same.uc ▸ h.accepts
  installed := same.uc ▸ h.installed
  recorded := same.handle ▸ h.recorded
  everywhere j hj := by
    obtain ⟨hook, found, range⟩ := h.everywhere j hj
    have ranges := congrArg (·[j]?) same.ranges
    simp only [List.getElem?_map, found, Option.map_some, Option.map_eq_some_iff] at ranges
    obtain ⟨hook', found', range'⟩ := ranges
    exact ⟨hook', found', range'.trans range⟩
  other := same.vcorehook ▸ h.other
  empty := same.vcorehook ▸ h.empty

/-- A dispatcher is installed behind the first. -/
theorem Shared.installed_append (h : Shared n doubled s) (name : RegistryName) (kind : HookKind) :
    ∃ i rest, s.uc.installed ++ (s.hooking name).installs kind =
        (i, ⟨.code 1 0, .common .code⟩) :: rest ∧
      (∀ x ∈ rest, x.2.point = x.2.target.point) ∧
      ((∃ x ∈ rest, x.2.target = .common .code) ↔
        doubled ∨ kind = .common .code ∧ ¬ ((s.registry name).handle kind).isSome) := by
  obtain ⟨i, rest, first, points, twice⟩ := h.installed
  refine ⟨i, rest ++ (s.hooking name).installs kind, by rw [first, List.cons_append], ?_, ?_⟩
  · intro x hx
    rcases List.mem_append.1 hx with old | new
    · exact points x old
    · unfold Hooking.installs at new
      split_ifs at new
      · cases new
      · rw [List.mem_singleton.1 new]
  · rw [← twice]
    show _ ↔ _ ∨ kind = _ ∧ ¬ ((s.hooking name).reg.handle kind).isSome
    unfold Hooking.installs
    split_ifs with present
    · simp [present]
    · simp [present, or_and_right, exists_or]

/-- A registration in `HookEnv` leaves `vcorehook` alone. -/
theorem Shared.register_hookEnv (h : Shared n doubled s) (r : Registration C U) (userData : U) :
    Shared n doubled
      (s.putHooking .hookEnv ((s.hooking .hookEnv).registered r userData)) where
  accepts := (answers_registered r userData).symm ▸ h.accepts
  installed := by
    obtain ⟨i, rest, first, points, twice⟩ := h.installed_append .hookEnv r.kind
    refine ⟨i, rest, ?_, points, ?_⟩
    · exact (installed_registered h.accepts r userData).trans first
    · rw [twice, or_iff_left]
      rintro ⟨code, absent⟩
      exact absent (code ▸ h.recorded)
  recorded := by
    show (((s.hooking .hookEnv).registered r userData).reg.handle _).isSome
    rw [handle_registered, handle_ensured]
    exact .inl h.recorded
  everywhere j hj := by
    obtain ⟨hook, found, range⟩ := h.everywhere j hj
    refine ⟨hook, ?_, range⟩
    show ((s.hooking .hookEnv).registered r userData).reg.codeHooks[j]? = some hook
    rw [codeHooks_registered, List.getElem?_append_left]
    · exact found
    · exact (List.getElem?_eq_some_iff.1 found).1
  other := h.other
  empty := h.empty

/-- A code hook registered in `vcorehook` installs the second dispatcher. -/
theorem Shared.register_vcorehook (h : Shared n doubled s) (r : Registration C U) (userData : U) :
    Shared n (doubled ∨ r.kind = .common .code)
      (s.putHooking .vcorehook ((s.hooking .vcorehook).registered r userData)) where
  accepts := (answers_registered r userData).symm ▸ h.accepts
  installed := by
    obtain ⟨i, rest, first, points, twice⟩ := h.installed_append .vcorehook r.kind
    refine ⟨i, rest, ?_, points, ?_⟩
    · exact (installed_registered h.accepts r userData).trans first
    · rw [twice]
      by_cases code : r.kind = .common .code
      · simp only [HookedVk.registry, code, true_and, or_true, iff_true]
        rw [h.other]
        exact em doubled
      · simp [code]
  recorded := h.recorded
  everywhere := h.everywhere
  other := by
    show (((s.hooking .vcorehook).registered r userData).reg.handle _).isSome ↔ _
    rw [handle_registered, handle_ensured]
    exact or_congr h.other eq_comm
  empty not_doubled := by
    obtain ⟨single, other⟩ := not_or.1 not_doubled
    show ((s.hooking .vcorehook).registered r userData).reg.codeHooks = []
    rw [codeHooks_registered, if_neg other, List.append_nil]
    exact h.empty single

/-- A registration through either registry. -/
theorem ends_onRegistryOf (accepts : ∀ k, s.uc.answers k = none) (name : RegistryName)
    (r : Registration C U) (userData : U) :
    (onRegistryOf name (r.register userData)).Ends s
      (.ok ⟨r.kind, (s.registry name).nextId⟩)
      (s.putHooking name ((s.hooking name).registered r userData)) := by
  apply Ends.zoom
  exact ends_register accepts r userData

theorem Shared.perform (h : Shared n doubled s) (step : HookStep C U) : ∃ s',
    step.perform.Ends s (.ok ()) s' ∧ Shared n (doubled ∨ step.inVcorehook) s' := by
  cases step with
  | register name r userData =>
    have run := ends_onRegistryOf h.accepts name r userData
    refine ⟨_, Ends.bind run (ends_pure.2 ⟨rfl, rfl⟩), ?_⟩
    cases name with
    | hookEnv => simpa [HookStep.inVcorehook] using h.register_hookEnv r userData
    | vcorehook => simpa [HookStep.inVcorehook] using h.register_vcorehook r userData
  | exec addr size =>
    refine ⟨(s.execInsn addr size).2, ends_modify.2 ⟨rfl, rfl⟩, ?_⟩
    have same : SameHooks s (s.execInsn addr size).2 := sameHooks_callHooks s.uc.installed s
    simpa [HookStep.inVcorehook] using h.sameHooks same
  | change f =>
    refine ⟨{ s with ctx := f s.ctx }, ends_modify.2 ⟨rfl, rfl⟩, ?_⟩
    have same : SameHooks s { s with ctx := f s.ctx } := ⟨rfl, rfl, rfl, rfl⟩
    simpa [HookStep.inVcorehook] using h.sameHooks same

theorem Shared.run (h : Shared n doubled s) (steps : List (HookStep C U)) : ∃ s',
    (steps.forM HookStep.perform).Ends s (.ok ⟨⟩) s' ∧
      Shared n (doubled ∨ ∃ step ∈ steps, step.inVcorehook) s' := by
  induction steps generalizing s doubled with
  | nil => exact ⟨s, ends_forM_nil.2 ⟨rfl, rfl⟩, by simpa using h⟩
  | cons step steps ih =>
    obtain ⟨t, first, shared⟩ := h.perform step
    obtain ⟨s', rest, shared⟩ := ih shared
    refine ⟨s', ends_forM_cons_ok.2 ⟨t, first, rest⟩, ?_⟩
    simpa [or_assoc] using shared

end Steps

/-! ## From the start -/

/-- The start of a run on Linux: the instruction trace, when it is enabled, and the syscall hook. -/
def HookedVk.prepare (trace : Option (C → U64 → U32 → C)) (handler : C → U64 → U32 → C)
    (noData : U) : Proc (HookedVk C U) ValkyrieError Unit := do
  trace.toList.forM fun showInstructions => do
    let _ ← enableInstructionTrace showInstructions noData
  let _ ← installSyscallHook handler noData

/-- A first code hook that hears every instruction, in `HookEnv`. -/
theorem shared_first (ctx : C) (f : C → U64 → U32 → C) (noData : U) : Shared 0 False
    ((HookedVk.new ctx).putHooking .hookEnv
      (((HookedVk.new ctx : HookedVk C U).hooking .hookEnv).registered (.code (quietly f) 1 0)
        noData)) where
  accepts _ := rfl
  installed := ⟨0, [], rfl, by simp, by simp⟩
  recorded := rfl
  everywhere j hj := by
    obtain rfl : j = 0 := Nat.le_zero.1 hj
    exact ⟨_, rfl, rfl⟩
  other := ⟨nofun, False.elim⟩
  empty _ := rfl

theorem prepare_shared (ctx : C) (trace : Option (C → U64 → U32 → C))
    (handler : C → U64 → U32 → C) (noData : U) : ∃ s,
      (HookedVk.prepare trace handler noData).Ends (HookedVk.new ctx) (.ok ()) s ∧
        Shared trace.toList.length False s := by
  cases trace with
  | none =>
    have run := ends_onRegistryOf (s := HookedVk.new ctx) (fun _ => rfl) .hookEnv
      (.code (quietly handler) 1 0) noData
    refine ⟨_, Ends.bind (ends_forM_nil.2 ⟨rfl, rfl⟩) ?_, shared_first ctx handler noData⟩
    exact Ends.bind run (ends_pure.2 ⟨rfl, rfl⟩)
  | some showInstructions =>
    have first := shared_first ctx showInstructions noData
    have runFirst := ends_onRegistryOf (s := HookedVk.new ctx) (fun _ => rfl) .hookEnv
      (.code (quietly showInstructions) 1 0) noData
    have run := ends_onRegistryOf first.accepts .hookEnv (.code (quietly handler) 1 0) noData
    have second := first.register_hookEnv (.code (quietly handler) 1 0) noData
    have traced : (enableInstructionTrace showInstructions noData >>= fun _ => pure ()).Ends
        (HookedVk.new ctx) (.ok ()) _ := Ends.bind runFirst (ends_pure.2 ⟨rfl, rfl⟩)
    refine ⟨_, Ends.bind (ends_forM_cons_ok.2 ⟨_, traced, ends_forM_nil.2 ⟨rfl, rfl⟩⟩) ?_,
      { second with everywhere := fun j hj => ?_ }⟩
    · exact Ends.bind run (ends_pure.2 ⟨rfl, rfl⟩)
    rcases Nat.lt_or_ge j 1 with lt | ge
    · exact second.everywhere j (by omega)
    · obtain rfl : j = 1 := Nat.le_antisymm hj ge
      exact ⟨_, rfl, rfl⟩

/-- Every instruction reaches every code hook in its range once, and the syscall hook, exactly when
no code hook was registered in `vcorehook` and none of the hooks in range but the last blocks. -/
theorem delivers_once_iff (ctx : C) (trace : Option (C → U64 → U32 → C))
    (handler : C → U64 → U32 → C) (noData : U) (steps : List (HookStep C U)) : ∃ s,
      (HookedVk.prepare trace handler noData >>= fun _ => steps.forM HookStep.perform).Ends
        (HookedVk.new ctx) (.ok ⟨⟩) s ∧
      ∀ addr size,
        (s.DeliversOnce addr size ∧
          s.timesCalled addr size .hookEnv trace.toList.length = 1) ↔
        (∀ step ∈ steps, ¬ step.inVcorehook) ∧
          Chain.OnlyLastStops (due (.trace addr size)) (call (.trace addr size)) blocks s.ctx
            s.hookEnv.codeHooks := by
  obtain ⟨t, start, shared⟩ := prepare_shared ctx trace handler noData
  obtain ⟨s, run, shared⟩ := shared.run steps
  refine ⟨s, Ends.bind start run, fun addr size => ?_⟩
  obtain ⟨i, rest, installed, points, twice⟩ := shared.installed
  have counts (name position) : s.timesCalled addr size name position =
      (s.dispatch (.common .code) addr size).1.count ⟨name, .common .code, position⟩ +
        (HookedVk.callHooks addr size rest (s.dispatch (.common .code) addr size).2).1.count
          ⟨name, .common .code, position⟩ := by
    rw [HookedVk.timesCalled, HookedVk.execInsn, installed, HookedVk.callHooks,
      if_pos (onInsn_everywhere addr), List.count_append]
  obtain ⟨first, found, range⟩ := shared.everywhere 0 (Nat.zero_le _)
  have hears : s.FirstHears := ⟨first, found, range⟩
  have once_iff (single : ∀ step ∈ steps, ¬ step.inVcorehook) : s.DeliversOnce addr size ↔
      Chain.OnlyLastStops (due (.trace addr size)) (call (.trace addr size)) blocks s.ctx
        s.hookEnv.codeHooks := by
    have not_doubled : ¬ (False ∨ ∃ step ∈ steps, step.inVcorehook) := fun doubled =>
      doubled.elim False.elim fun ⟨step, mem, code⟩ => single step mem code
    have none : ∀ x ∈ rest, x.2.target ≠ .common .code := fun x hx code =>
      not_doubled (twice.1 ⟨x, hx, code⟩)
    rw [← Chain.count_positions_iff]
    constructor
    · intro once j h found isDue
      have count := once .hookEnv j h found (boundCheck_iff.1 isDue)
      rwa [counts, count_callHooks_of_none none, Nat.add_zero, count_dispatch_code] at count
    · intro once name j h found covers
      cases name with
      | vcorehook => simp [HookedVk.registry, shared.empty not_doubled] at found
      | hookEnv =>
        rw [counts, count_callHooks_of_none none, Nat.add_zero, count_dispatch_code]
        exact once j h found (boundCheck_iff.2 covers)
  constructor
  · rintro ⟨once, -⟩
    have single : ∀ step ∈ steps, ¬ step.inVcorehook := by
      intro step mem code
      have again : ∃ x ∈ rest, x.2.target = .common .code := twice.2 (.inr ⟨step, mem, code⟩)
      have count := once .hookEnv 0 first found (.inl range)
      rw [counts] at count
      have one := one_le_count_dispatch addr size hears
      have two := one_le_count_callHooks addr size
        ((sameHooks_dispatch s (.common .code) addr size).firstHears hears) points again
      omega
    exact ⟨single, (once_iff single).1 once⟩
  · rintro ⟨single, onlyLast⟩
    have once := (once_iff single).2 onlyLast
    obtain ⟨handlerHook, found, range⟩ := shared.everywhere _ le_rfl
    exact ⟨once, once .hookEnv _ handlerHook found (.inl range)⟩

/-- A code hook registered in `vcorehook`: it is not called, and the syscall hook is called twice. -/
theorem delivered_twice : ∃ s : HookedVk Unit Unit,
    (HookedVk.prepare none (fun ctx _ _ => ctx) () >>= fun _ =>
      [HookStep.register .vcorehook (.code (fun ctx _ _ ud => (none, ctx, ud)) 1 0) ()].forM
        HookStep.perform).Ends (HookedVk.new ()) (.ok ⟨⟩) s ∧
      s.timesCalled 0x1000 2 .vcorehook 0 = 0 ∧ s.timesCalled 0x1000 2 .hookEnv 0 = 2 ∧
        ¬ s.DeliversOnce 0x1000 2 := by
  refine ⟨_, rfl, rfl, rfl, fun once => ?_⟩
  have count := once .hookEnv 0 _ rfl (.inl rfl)
  exact absurd count (by decide)

end ValkyrieRs

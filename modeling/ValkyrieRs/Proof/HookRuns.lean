import Mathlib.Data.List.Nodup
import ValkyrieRs.Proof.HookRefinement

/-!
# Runs of the hook registry

Every sequence of registrations, deletions, clearings and events leaves the registry in step with
the list of live hooks, so that each dispatch calls the live hooks that hear the event.  The numbers
given to hooks come from a 64-bit counter: they are distinct up to its range, and no further.
-/

namespace ValkyrieRs

open Proc VCoreHooks Chain

variable {C U : Type}

/-- The registry in use is in step with the ledger. -/
structure Refines (l : Ledger C U) (s : Hooked C U) : Prop where
  ctx : s.ctx = l.ctx
  holds : Holds l.live l.nextId s.hooking.reg
  engine : Installed s.hooking.reg s.hooking.uc

/-- An engine without hooks that accepts every call. -/
def UcHooks.accepting : UcHooks := ⟨[], 0, fun _ => none⟩

/-- A new registry in a new engine. -/
def Hooked.start (ctx : C) : Hooked C U := ⟨ctx, ⟨.new, .accepting⟩⟩

/-- A ledger without hooks. -/
def Ledger.start (ctx : C) : Ledger C U := ⟨ctx, [], 0⟩

theorem refines_start (ctx : C) : Refines (Ledger.start ctx) (Hooked.start ctx : Hooked C U) := by
  have no_handle (kind) : (VCoreHooks.new : VCoreHooks C U).handle kind = none := by
    cases kind <;> exact AList.lookup_empty _
  refine ⟨rfl, ⟨rfl, Buckets.groups_nil, Buckets.groups_nil, fun kind => ?_⟩,
    ⟨fun kind => ?_, List.nodup_nil, ?_, fun _ => rfl⟩⟩
  · show ((VCoreHooks.new : VCoreHooks C U).handle kind).isSome ↔ _
    simp [no_handle kind, Ledger.start]
  · show [] = _
    simp [Hooked.start, no_handle kind]
  · simp [Hooked.start, UcHooks.accepting]

/-- One call keeps the registry in step. -/
theorem exec_refines {l : Ledger C U} {s : Hooked C U} (refines : Refines l s)
    (call : HookCall C U) : ∃ s', call.exec.Ends s (.ok (l.handle? call)) s' ∧
      Refines (l.step call) s' := by
  obtain ⟨ctx, holds, engine⟩ := refines
  cases call with
  | register r userData =>
    have run := ends_register engine.accepts r userData
    refine ⟨⟨s.ctx, s.hooking.registered r userData⟩, ?_, ctx, ?_, engine.registered r userData⟩
    · rw [holds.nextId] at run
      exact Ends.bind run.zoom (ends_pure.2 ⟨rfl, rfl⟩)
    · have next : (l.step (.register r userData)).nextId = l.nextId + 1 := by
        simp [Ledger.nextId, Ledger.step, BitVec.ofNat_add]
      rw [next]
      exact holds.registered r userData
  | del h =>
    obtain ⟨hooking, run, holds, engine⟩ := ends_hookDel holds engine h
    exact ⟨⟨s.ctx, hooking⟩, Ends.bind run.zoom (ends_pure.2 ⟨rfl, rfl⟩), ctx, holds, engine⟩
  | clear =>
    obtain ⟨hooking, run, holds, engine⟩ := ends_clearHooks holds engine
    exact ⟨⟨s.ctx, hooking⟩, Ends.bind run.zoom (ends_pure.2 ⟨rfl, rfl⟩), ctx, holds, engine⟩
  | event ev =>
    cases ev with
    | common t args =>
      obtain ⟨ctx', holds', handle⟩ := holds.dispatchCommon t args s.ctx
      rw [ctx] at ctx' holds'
      refine ⟨_, Ends.bind (ends_modify.2 ⟨rfl, rfl⟩) (ends_pure.2 ⟨rfl, rfl⟩), ?_, ?_, ?_⟩
      · exact ctx ▸ ctx'
      · exact ctx ▸ holds'
      · exact engine.of_handles handle
    | address addr =>
      obtain ⟨ctx', holds', handle⟩ := holds.dispatchAddr addr s.ctx
      rw [ctx] at ctx' holds'
      refine ⟨_, Ends.bind (ends_modify.2 ⟨rfl, rfl⟩) (ends_pure.2 ⟨rfl, rfl⟩), ?_, ?_, ?_⟩
      · exact ctx ▸ ctx'
      · exact ctx ▸ holds'
      · exact engine.of_handles handle
  | change f =>
    refine ⟨{ s with ctx := f s.ctx }, Ends.bind (ends_modify.2 ⟨rfl, rfl⟩)
      (ends_pure.2 ⟨rfl, rfl⟩), ?_, holds, engine⟩
    exact congrArg f ctx

/-- A sequence of calls keeps the registry in step. -/
theorem run_refines {l : Ledger C U} {s : Hooked C U} (refines : Refines l s)
    (calls : List (HookCall C U)) :
    ∃ s', (calls.mapM HookCall.exec).Ends s (.ok (l.handles calls)) s' ∧
      Refines (l.run calls) s' := by
  induction calls generalizing l s with
  | nil => exact ⟨s, ends_mapM_nil.2 ⟨rfl, rfl⟩, refines⟩
  | cons call calls ih =>
    obtain ⟨t, first, refines⟩ := exec_refines refines call
    obtain ⟨s', rest, refines⟩ := ih refines
    exact ⟨s', ends_mapM_cons_ok.2 ⟨_, t, first, _, rest, rfl⟩, refines⟩

/-! ## Numbers -/

/-- The call registers a hook. -/
def HookCall.registers : HookCall C U → Bool
  | .register .. => true
  | _ => false

/-- The numbers in the handles that a sequence of calls returns. -/
def ids (rets : List (Option HookRet)) : List HookId := rets.reduceOption.map (·.id)

/-- The registrations are numbered in order, from one. -/
theorem ids_handles (l : Ledger C U) (calls : List (HookCall C U)) : ids (l.handles calls) =
    (List.range' (l.made + 1) (calls.countP HookCall.registers)).map (BitVec.ofNat 64) := by
  induction calls generalizing l with
  | nil => rfl
  | cons call calls ih =>
    have rest := ih (l.step call)
    cases call with
    | register r userData =>
      rw [List.countP_cons_of_pos rfl, List.range'_succ, List.map_cons]
      exact congrArg _ rest
    | _ =>
      rw [List.countP_cons_of_neg Bool.false_ne_true]
      exact rest

/-- The counter gives distinct numbers up to its range. -/
theorem numbers_nodup_iff (n : ℕ) :
    ((List.range' 1 n).map (BitVec.ofNat 64)).Nodup ↔ n ≤ 2 ^ 64 := by
  constructor
  · intro distinct
    by_contra many
    have len : ((List.range' 1 n).map (BitVec.ofNat 64)).length = n := by simp
    apply List.nodup_iff_getElem?_ne_getElem?.1 distinct 0 (2 ^ 64) (by omega) (by omega)
    rw [List.getElem?_map, List.getElem?_map, List.getElem?_range' (by omega),
      List.getElem?_range' (by omega)]
    decide
  · intro few
    refine List.Nodup.map_on (fun a ha b hb same => ?_) List.nodup_range'
    rw [List.mem_range'_1] at ha hb
    have := congrArg BitVec.toNat same
    simp only [BitVec.toNat_ofNat] at this
    omega

/-! ## Calls -/

section Calls

variable {live : List (LiveHook C U)} {id : HookId} {reg : VCoreHooks C U}

/-- What a bucket has due is what the live hooks that hear the event are there. -/
theorem filter_common? (live : List (LiveHook C U)) (t : HookType) (args : HookArgs) :
    (live.filterMap (LiveHook.common? t)).filter (due args) =
      (live.filter (·.hears (.common t args))).map LiveHook.toCommon := by
  induction live with
  | nil => rfl
  | cons x live ih =>
    have hears := @hears_common_iff C U t args x
    cases picked : x.common? t with
    | none =>
      have deaf : ¬ x.hears (.common t args) := fun heard => by simpa [picked] using hears.1 heard
      rw [List.filterMap_cons_none picked, List.filter_cons_of_neg deaf, ih]
    | some y =>
      obtain ⟨-, rfl⟩ := LiveHook.common?_eq_some.1 picked
      rw [List.filterMap_cons_some picked]
      by_cases heard : x.hears (.common t args)
      · have isDue : due args x.toCommon := by simpa [picked] using hears.1 heard
        rw [List.filter_cons_of_pos isDue, List.filter_cons_of_pos heard, List.map_cons, ih]
      · have notDue : ¬ due args x.toCommon := fun isDue => heard (hears.2 ⟨_, picked, isDue⟩)
        rw [List.filter_cons_of_neg notDue, List.filter_cons_of_neg heard, ih]

theorem filterMap_addr? (live : List (LiveHook C U)) (addr : U64) :
    live.filterMap (LiveHook.addr? addr) =
      (live.filter (·.hears (.address addr))).map LiveHook.toAddr := by
  induction live with
  | nil => rfl
  | cons x live ih =>
    by_cases kind : x.kind = .address addr
    · rw [List.filterMap_cons_some (LiveHook.addr?_of_kind kind),
        List.filter_cons_of_pos (hears_address_iff.2 kind), List.map_cons, ih]
    · rw [List.filterMap_cons_none (LiveHook.addr?_of_ne kind),
        List.filter_cons_of_neg fun heard => kind (hears_address_iff.1 heard), ih]

/-- A dispatch by type calls the live hooks that hear the event, up to one that blocks. -/
theorem Holds.serves_common (holds : Holds live id reg) (t : HookType) (args : HookArgs) (ctx : C) :
    Serves blocks ((live.filter (·.hears (.common t args))).map LiveHook.toCommon)
      (reg.dispatchCommon ctx t args).calls := by
  rw [← filter_common?, Dispatched.calls]
  simp only [VCoreHooks.dispatchCommon, holds.common t]
  cases live.filterMap (LiveHook.common? t) with
  | nil => exact .done
  | cons x l =>
    have serves := @Chain.run_serves C (HookCommon C U) (Option U32) (due args) (call args) blocks 0
      ctx (x :: l)
    rw [← Chain.map_waiting (i := 0)]
    exact serves.map Prod.fst

theorem Holds.serves_address (holds : Holds live id reg) (addr : U64) (ctx : C) :
    Serves blocks ((live.filter (·.hears (.address addr))).map LiveHook.toAddr)
      (reg.dispatchAddr ctx addr).calls := by
  rw [← filterMap_addr?, Dispatched.calls]
  simp only [VCoreHooks.dispatchAddr, holds.address addr]
  cases live.filterMap (LiveHook.addr? addr) with
  | nil => exact .done
  | cons x l =>
    have serves := @Chain.run_serves C (HookAddr C U) (Option U32) (fun _ => true) callAddr blocks 0
      ctx (x :: l)
    have keys : (Chain.waiting (fun _ => true) 0 (x :: l)).map Prod.fst = x :: l :=
      Chain.map_waiting.trans (List.filter_true _)
    have mapped := serves.map Prod.fst
    rw [keys] at mapped
    exact mapped

/-- A dispatch by type fails when the event must be handled and nothing was called. -/
theorem dispatchCommon_error_iff (reg : VCoreHooks C U) (t : HookType) (args : HookArgs) (ctx : C) :
    (∃ e, (reg.dispatchCommon ctx t args).result = .error e) ↔
      t.needsHandled ∧ (reg.dispatchCommon ctx t args).calls = [] := by
  simp only [VCoreHooks.dispatchCommon, Dispatched.calls, List.map_eq_nil_iff, not_not,
    List.isEmpty_iff]
  split_ifs with fails
  · exact iff_of_true ⟨_, rfl⟩ fails
  · refine iff_of_false ?_ fails
    rintro ⟨e, ⟨⟩⟩

end Calls

/-! ## The registry over whole runs -/

/-- After every sequence of calls the registry is the list of live hooks: its dispatchers are those
of the kinds of live hooks, once each, and a dispatch calls the live hooks that hear the event in
the order of their registration, up to one that blocks.  The numbers are distinct as long as the
counter has not run through its range. -/
theorem registry_refines_live_hooks (ctx : C) (calls : List (HookCall C U)) :
    ∃ s', (calls.mapM HookCall.exec).Ends (Hooked.start ctx) (.ok ((Ledger.start ctx).handles calls))
      s' ∧
      s'.ctx = ((Ledger.start ctx).run calls).ctx ∧
      ((ids ((Ledger.start ctx).handles calls)).Nodup ↔
        calls.countP HookCall.registers ≤ 2 ^ 64) ∧
      (∀ kind, (s'.hooking.uc.installed.map (·.2)).filter (·.target = kind) =
        if ∃ x ∈ ((Ledger.start ctx).run calls).live, x.kind = kind then [⟨kind.point, kind⟩]
        else []) ∧
      (∀ t args ctx',
        let out := s'.hooking.reg.dispatchCommon ctx' t args
        let heard := ((Ledger.start ctx).run calls).live.filter (·.hears (.common t args))
        Serves blocks (heard.map LiveHook.toCommon) out.calls ∧
          ((∃ e, out.result = .error e) ↔ t.needsHandled ∧ heard = [])) ∧
      ∀ addr ctx',
        let out := s'.hooking.reg.dispatchAddr ctx' addr
        let heard := ((Ledger.start ctx).run calls).live.filter (·.hears (.address addr))
        Serves blocks (heard.map LiveHook.toAddr) out.calls ∧ out.result = .ok () := by
  obtain ⟨s', run, ctx_eq, holds, engine⟩ := run_refines (refines_start ctx) calls
  refine ⟨s', run, ctx_eq, ?_, fun kind => ?_, fun t args ctx' => ?_, fun addr ctx' => ?_⟩
  · rw [ids_handles]
    exact numbers_nodup_iff _
  · have installed := congrArg (List.map (·.2)) (engine.ofKind kind)
    rw [List.filter_map]
    refine installed.trans ?_
    split_ifs with lives
    · obtain ⟨i, recorded⟩ := Option.isSome_iff_exists.1 ((holds.recorded kind).2 lives)
      simp [recorded]
    · have absent : s'.hooking.reg.handle kind = none :=
        Option.not_isSome_iff_eq_none.1 fun some => lives ((holds.recorded kind).1 some)
      simp [absent]
  · have serves := holds.serves_common t args ctx'
    refine ⟨serves, ?_⟩
    rw [dispatchCommon_error_iff, serves.called_eq_nil_iff, List.map_eq_nil_iff]
  · refine ⟨holds.serves_address addr ctx', ?_⟩
    unfold VCoreHooks.dispatchAddr
    split <;> rfl

/-- A registration of a callback that does nothing. -/
def HookCall.idle : HookCall Unit Unit := .register (.intr fun ctx _ ud => (none, ctx, ud)) ()

/-- Registrations of which each but the last is cleared before the next. -/
def HookCall.oneByOne : ℕ → List (HookCall Unit Unit)
  | 0 => [.idle]
  | n + 1 => .idle :: .clear :: oneByOne n

theorem countP_oneByOne (n : ℕ) :
    (HookCall.oneByOne n).countP HookCall.registers = n + 1 := by
  induction n with
  | zero => rfl
  | succ n ih =>
    rw [HookCall.oneByOne, List.countP_cons_of_pos rfl,
      List.countP_cons_of_neg Bool.false_ne_true, ih]

/-- At most one of them is live at a time. -/
theorem live_oneByOne {n : ℕ} {l : Ledger Unit Unit} {past : List (HookCall Unit Unit)}
    (begins : past <+: HookCall.oneByOne n) (empty : l.live = []) :
    (l.run past).live.length ≤ 1 := by
  have registered {l : Ledger Unit Unit} (empty : l.live = []) :
      (l.step .idle).live.length ≤ 1 := by
    simp [Ledger.step, HookCall.idle, empty]
  induction n generalizing l past with
  | zero =>
    rcases List.prefix_cons_iff.1 begins with rfl | ⟨rest, rfl, last⟩
    · simp [Ledger.run, empty]
    · rw [List.prefix_nil.1 last]
      exact registered empty
  | succ n ih =>
    rcases List.prefix_cons_iff.1 begins with rfl | ⟨rest, rfl, behind⟩
    · simp [Ledger.run, empty]
    rcases List.prefix_cons_iff.1 behind with rfl | ⟨rest, rfl, others⟩
    · exact registered empty
    · have cleared : ((l.step .idle).step .clear).live = [] := rfl
      show (((l.step .idle).step .clear).run rest).live.length ≤ 1
      exact ih others cleared

/-- The counter comes round to the number of the first registration, however few hooks are live. -/
theorem ids_reused : ∃ calls : List (HookCall Unit Unit), ∃ s',
    (calls.mapM HookCall.exec).Ends (Hooked.start ()) (.ok ((Ledger.start ()).handles calls)) s' ∧
      (∀ past, past <+: calls → ((Ledger.start ()).run past).live.length ≤ 1) ∧
      ¬ (ids ((Ledger.start ()).handles calls)).Nodup := by
  obtain ⟨s', run, -⟩ := run_refines (refines_start ()) (HookCall.oneByOne (2 ^ 64))
  refine ⟨_, s', run, fun past begins => live_oneByOne begins rfl, fun distinct => ?_⟩
  rw [ids_handles, countP_oneByOne] at distinct
  have few := (numbers_nodup_iff _).1 distinct
  exact absurd few (by omega)

end ValkyrieRs

import ValkyrieRs.Lib.Trace
import ValkyrieRs.Proof.HookRefinement

/-!
# Removal of dispatchers from an engine that may refuse it

A registry forgets the handle of a dispatcher before it asks the engine to remove the dispatcher.
While the engine releases all that it is asked to release, every dispatcher it holds has its handle
recorded, and no kind has two; at the first refusal the refused dispatcher is held without a record.
-/

namespace ValkyrieRs

open Proc VCoreHooks

variable {C U : Type}

/-! ## Calls of the registry -/

/-- A call that changes the registry. -/
inductive RegistryCall (C U : Type) where
  | register (r : Registration C U) (userData : U)
  | del (h : HookRet)
  | clear

namespace RegistryCall

/-- The call, by its outcome and its effect. -/
def perform : RegistryCall C U → HookM C U (Option HookRet)
  | register r userData => do
    let ret ← r.register userData
    return some ret
  | del h => do
    hookDel h
    return none
  | clear => do
    clearHooks
    return none

/-- A recorded call was made, with any outcome. -/
def Performed (step : Trace.Step (Hooking C U) (RegistryCall C U)) : Prop :=
  ∃ r, step.call.perform.Ends step.before r step.after

end RegistryCall

/-- A registry that is new, in an engine with the given answers. -/
def Hooking.start (answers : ℕ → Option UcError) : Hooking C U := ⟨.new, ⟨[], 0, answers⟩⟩

/-- The hook is the last one in its bucket. -/
def VCoreHooks.empties (reg : VCoreHooks C U) (h : HookRet) : Bool :=
  match h.kind with
  | .common t => (reg.hooks.lookup t).any fun list => (list.filter (·.id ≠ h.id)).isEmpty
  | .address addr => (reg.addrHooks.lookup addr).any fun list => (list.filter (·.id ≠ h.id)).isEmpty

/-- The handles whose dispatchers a call asks the engine to remove, in the order of the requests. -/
def Hooking.removals (s : Hooking C U) : RegistryCall C U → List UcHookId
  | .register .. => []
  | .del h => if s.reg.empties h then (s.reg.handle h.kind).toList else []
  | .clear => s.reg.hookFuc.entries.map (·.2) ++ s.reg.addrHookFuc.entries.map (·.2)

/-- The engine removes every dispatcher that the call asks it to remove. -/
def Hooking.Releases (s : Hooking C U) (call : RegistryCall C U) : Prop :=
  s.uc.Grants (s.removals call).length

/-- Every dispatcher of the engine is recorded under its type or address. -/
def Hooking.Recorded (s : Hooking C U) : Prop :=
  ∀ x ∈ s.uc.installed, s.reg.handle x.2.target = some x.1

/-- The registry keeps track of its dispatchers: each is recorded, and a later registration leaves
no two for one type or address. -/
def Hooking.Tracked (s : Hooking C U) : Prop :=
  s.Recorded ∧ ∀ (r : Registration C U) userData ret s', (r.register userData).Ends s ret s' →
    (s'.uc.installed.map (·.2.target)).Nodup

/-! ## Dispatchers accounted for -/

/-- The engine holds exactly the dispatchers that are recorded, under numbers of their own. -/
structure Hooking.Accounted (s : Hooking C U) : Prop where
  recorded : s.Recorded
  alive : ∀ kind i, s.reg.handle kind = some i → ∃ point, (i, ⟨point, kind⟩) ∈ s.uc.installed
  nodup : (s.uc.installed.map (·.1)).Nodup
  issued : ∀ x ∈ s.uc.installed, x.1 < s.uc.issued

namespace Hooking

variable {s s' : Hooking C U}

namespace Accounted

/-- No dispatcher is installed, and none is recorded. -/
theorem of_nil (installed : s.uc.installed = []) (handles : ∀ kind, s.reg.handle kind = none) :
    s.Accounted := by
  refine ⟨fun x hx => ?_, fun kind i recorded => ?_, ?_, fun x hx => ?_⟩
  · simp [installed] at hx
  · simp [handles] at recorded
  · simp [installed]
  · simp [installed] at hx

theorem start (answers : ℕ → Option UcError) : (start answers : Hooking C U).Accounted := by
  refine .of_nil rfl fun kind => ?_
  cases kind <;> rfl

/-- Only the handles and the engine's dispatchers matter. -/
theorem of_handles (h : s.Accounted) (handles : s'.reg.handle = s.reg.handle)
    (installed : s'.uc.installed = s.uc.installed) (later : s.uc.issued ≤ s'.uc.issued) :
    s'.Accounted := by
  refine ⟨fun x hx => ?_, fun kind i recorded => ?_, installed ▸ h.nodup, fun x hx => ?_⟩
  · rw [handles]
    exact h.recorded x (installed ▸ hx)
  · rw [installed]
    exact h.alive kind i (handles ▸ recorded)
  · exact Nat.lt_of_lt_of_le (h.issued x (installed ▸ hx)) later

/-- A handle names one dispatcher. -/
theorem kind_unique (h : s.Accounted) {kind kind' : HookKind} {i : UcHookId}
    (one : s.reg.handle kind = some i) (other : s.reg.handle kind' = some i) : kind = kind' := by
  obtain ⟨point, first⟩ := h.alive kind i one
  obtain ⟨point', second⟩ := h.alive kind' i other
  have same := List.inj_on_of_nodup_map h.nodup first second rfl
  exact congrArg (fun x => x.2.target) same

/-- No two dispatchers are of one kind. -/
theorem targets_nodup (h : s.Accounted) : (s.uc.installed.map (·.2.target)).Nodup := by
  have nodup := h.nodup
  refine (List.nodup_map_iff_inj_on (List.Nodup.of_map _ nodup)).2 fun x hx y hy same => ?_
  have first := h.recorded x hx
  rw [same, h.recorded y hy] at first
  exact List.inj_on_of_nodup_map nodup hx hy (Option.some.inj first.symm)

theorem numbered (h : s.Accounted) : s.uc.Numbered := ⟨h.nodup, h.issued⟩

/-- A dispatcher is added for a kind that had none. -/
theorem add (h : s.Accounted) {kind : HookKind} (absent : s.reg.handle kind = none)
    (point : HookPoint) : Accounted ⟨s.reg.insertHandle kind s.uc.issued, { s.uc with
      installed := s.uc.installed ++ [(s.uc.issued, ⟨point, kind⟩)]
      issued := s.uc.issued + 1 }⟩ := by
  obtain ⟨nodup, issued⟩ := h.numbered.add ⟨point, kind⟩
  refine ⟨fun x hx => ?_, fun kind' i recorded => ?_, nodup, issued⟩
  · rw [handle_insertHandle]
    rcases List.mem_append.1 hx with old | new
    · have other : x.2.target ≠ kind := fun same => by
        have held := h.recorded x old
        rw [same, absent] at held
        cases held
      rw [if_neg other]
      exact h.recorded x old
    · rw [List.mem_singleton.1 new, if_pos rfl]
  · rw [handle_insertHandle] at recorded
    split_ifs at recorded with same
    · cases recorded
      exact ⟨point, List.mem_append_right _ (by rw [same]; exact List.mem_singleton_self _)⟩
    · obtain ⟨point', here⟩ := h.alive kind' i recorded
      exact ⟨point', List.mem_append_left _ here⟩

/-- The dispatcher of a kind is released, and its handle forgotten. -/
theorem remove (h : s.Accounted) {kind : HookKind} {i : UcHookId}
    (recorded : s.reg.handle kind = some i) :
    Accounted ⟨s.reg.removeHandle kind, s.uc.without [i]⟩ := by
  obtain ⟨nodup, issued⟩ := h.numbered.without [i]
  refine ⟨fun x hx => ?_, fun kind' j held => ?_, nodup, issued⟩
  · obtain ⟨old, other⟩ := UcHooks.mem_without.1 hx
    have ne : x.2.target ≠ kind := fun same => by
      have held := h.recorded x old
      rw [same, recorded] at held
      exact other (List.mem_singleton.2 (Option.some.inj held.symm))
    rw [handle_removeHandle, if_neg ne]
    exact h.recorded x old
  · rw [handle_removeHandle] at held
    split_ifs at held with same
    obtain ⟨point, here⟩ := h.alive kind' j held
    have ne : j ≠ i := fun e => same (h.kind_unique held (e ▸ recorded))
    exact ⟨point, UcHooks.mem_without.2 ⟨here, by simpa using ne⟩⟩

end Accounted

end Hooking

/-! ## The calls, one at a time -/

section Calls

variable {s s' : Hooking C U} {call : RegistryCall C U} {r : Except ValkyrieError Unit}

theorem Hooking.Accounted.ensure (h : s.Accounted) {kind : HookKind} {point : HookPoint}
    (run : (ensureDispatcher kind point).Ends s r s') : s'.Accounted := by
  rw [ensureDispatcher, ends_bind_get] at run
  split_ifs at run with present
  · obtain ⟨-, rfl⟩ := ends_pure.1 run
    exact h
  have absent := Option.not_isSome_iff_eq_none.1 present
  simp only [ucAddHook, modifyReg] at run
  cases answer : s.uc.answers s.uc.issued with
  | some e =>
    simp [UcHooks.addHook_refused answer, ends_bind] at run
    rw [run.1]
    exact h.of_handles rfl rfl (Nat.le_succ s.uc.issued)
  | none =>
    simp [UcHooks.addHook_granted answer, ends_bind] at run
    obtain ⟨-, rfl⟩ := run
    exact h.add absent point

/-- A registration changes the dispatchers as its installer does. -/
theorem ends_register_ensure {reg : Registration C U} {userData : U}
    {ret : Except ValkyrieError HookRet} (run : (reg.register userData).Ends s ret s') :
    ∃ point x t, (ensureDispatcher reg.kind point).Ends s x t ∧
      s'.reg.handle = t.reg.handle ∧ s'.uc = t.uc := by
  have handles {reg reg' : VCoreHooks C U} (fuc : reg.hookFuc = reg'.hookFuc)
      (addrFuc : reg.addrHookFuc = reg'.addrHookFuc) : reg.handle = reg'.handle := by
    funext kind
    cases kind <;> simp [handle, fuc, addrFuc]
  have installs (kind : HookKind) (point : HookPoint) (rest : HookM C U HookRet)
      (quiet : ∀ t, ∃ a reg', rest.Ends t (.ok a) ⟨reg', t.uc⟩ ∧ reg'.handle = t.reg.handle)
      (run : (ensureDispatcher kind point >>= fun _ => rest).Ends s ret s') :
      ∃ point x t, (ensureDispatcher kind point).Ends s x t ∧
        s'.reg.handle = t.reg.handle ∧ s'.uc = t.uc := by
    obtain ⟨e, first, -⟩ | ⟨_, t, first, after⟩ := ends_bind.1 run
    · exact ⟨point, _, s', first, rfl, rfl⟩
    · obtain ⟨a, reg', ends, same⟩ := quiet t
      obtain ⟨-, rfl⟩ := after.unique ends
      exact ⟨point, _, t, first, same, rfl⟩
  cases reg <;> apply installs _ _ _ _ run <;> exact fun t => ⟨_, _, rfl, handles rfl rfl⟩

theorem Hooking.Accounted.register (h : s.Accounted) {reg : Registration C U} {userData : U}
    {ret : Except ValkyrieError HookRet} (run : (reg.register userData).Ends s ret s') :
    s'.Accounted := by
  obtain ⟨point, x, t, ensured, handles, uc⟩ := ends_register_ensure run
  exact (h.ensure ensured).of_handles handles (by rw [uc]) (by rw [uc])

theorem Hooking.Accounted.tracked (h : s.Accounted) : s.Tracked :=
  ⟨h.recorded, fun _ _ _ _ run => (h.register run).targets_nodup⟩

/-- After `n` requests: they were granted and the dispatchers are accounted for, or one was refused
and a dispatcher is not recorded. -/
def Hooking.Settled (s : Hooking C U) (n : ℕ) (s' : Hooking C U) : Prop :=
  s.uc.Grants n ∧ s'.Accounted ∨ ¬ s.uc.Grants n ∧ ¬ s'.Recorded

theorem Hooking.Settled.tracked_iff {n : ℕ} (h : s.Settled n s') : s'.Tracked ↔ s.uc.Grants n := by
  rcases h with ⟨granted, accounted⟩ | ⟨refused, lost⟩
  · exact iff_of_true accounted.tracked granted
  · exact iff_of_false (fun tracked => lost tracked.1) refused

theorem Hooking.Settled.none (h : s'.Accounted) : s.Settled 0 s' := .inl ⟨UcHooks.grants_zero, h⟩

theorem Hooking.Accounted.removeDispatcher (h : s.Accounted) {kind : HookKind}
    (run : (removeDispatcher kind).Ends s r s') :
    s.Settled (s.reg.handle kind).toList.length s' := by
  rw [VCoreHooks.removeDispatcher, ends_bind_get] at run
  cases recorded : s.reg.handle kind with
  | none =>
    rw [recorded] at run
    obtain ⟨-, rfl⟩ := ends_pure.1 run
    exact .none h
  | some i =>
    rw [recorded] at run
    have grants : s.uc.Grants 1 ↔ s.uc.answers s.uc.issued = Option.none := by
      simp [UcHooks.grants_succ, UcHooks.grants_zero]
    rw [Option.toList_some, List.length_singleton]
    rw [ends_bind_modifyReg, ends_ucRemoveHook] at run
    obtain ⟨e, answer, -, rfl⟩ | ⟨answer, -, rfl⟩ := run
    · refine .inr ⟨fun all => ?_, fun all => ?_⟩
      · cases answer.symm.trans (grants.1 all)
      obtain ⟨point, here⟩ := h.alive kind i recorded
      have held := all _ here
      rw [handle_removeHandle, if_pos rfl] at held
      cases held
    · exact .inl ⟨grants.2 answer, h.remove recorded⟩

theorem Hooking.Accounted.deleteFrom (h : s.Accounted) {H : Type} {kind : HookKind}
    {found : Option (List H)} {hookId : H → HookId} {id : HookId}
    {keep : List H → VCoreHooks C U → VCoreHooks C U} {remove : VCoreHooks C U → VCoreHooks C U}
    (keep_handle : ∀ l reg, (keep l reg).handle = reg.handle)
    (remove_handle : ∀ reg, (remove reg).handle = reg.handle)
    (run : (deleteFrom kind found hookId id keep remove).Ends s r s') :
    s.Settled (if found.any fun list => (list.filter (hookId · ≠ id)).isEmpty then
      (s.reg.handle kind).toList else []).length s' := by
  cases found with
  | none =>
    obtain ⟨-, rfl⟩ := ends_pure.1 run
    exact .none h
  | some list =>
    simp only [VCoreHooks.deleteFrom] at run
    simp only [Option.any_some]
    split_ifs at run ⊢ with empty
    · rw [ends_bind_modifyReg] at run
      have removed : Accounted ⟨remove s.reg, s.uc⟩ :=
        h.of_handles (remove_handle _) rfl (Nat.le_refl _)
      have settled := removed.removeDispatcher run
      rwa [remove_handle] at settled
    · obtain ⟨-, rfl⟩ := ends_modify.1 run
      exact .none (h.of_handles (keep_handle _ _) rfl (Nat.le_refl _))

theorem Hooking.Accounted.hookDel (h : s.Accounted) {ret : HookRet}
    (run : (hookDel ret).Ends s r s') : s.Settled (s.removals (.del ret)).length s' := by
  rw [VCoreHooks.hookDel, ends_bind_get] at run
  obtain ⟨kind, id⟩ := ret
  cases kind with
  | common t =>
    refine h.deleteFrom (fun _ _ => ?_) (fun _ => ?_) run
    all_goals
      funext kind
      cases kind <;> rfl
  | address addr =>
    refine h.deleteFrom (fun _ _ => ?_) (fun _ => ?_) run
    all_goals
      funext kind
      cases kind <;> rfl

/-- The handles of a table are those of different dispatchers. -/
theorem Hooking.Accounted.handles_nodup (h : s.Accounted) {κ : Type} [DecidableEq κ]
    {table : AList fun _ : κ => UcHookId} {toKind : κ → HookKind} (inj : toKind.Injective)
    (recorded : ∀ k, s.reg.handle (toKind k) = table.lookup k) :
    (table.entries.map (·.2)).Nodup := by
  refine (List.nodup_map_iff_inj_on table.nodupKeys.nodup).2 fun x hx y hy same => ?_
  have first : s.reg.handle (toKind x.1) = some x.2 :=
    (recorded x.1).trans (AList.mem_lookup_iff.2 hx)
  have second : s.reg.handle (toKind y.1) = some x.2 :=
    same ▸ (recorded y.1).trans (AList.mem_lookup_iff.2 hy)
  exact Sigma.ext (inj (h.kind_unique first second)) (heq_of_eq same)

/-- A loop that empties a table: the engine releases all its dispatchers, or keeps one of them. -/
theorem Hooking.Accounted.drain (h : s.Accounted) {κ : Type} [DecidableEq κ]
    {table : AList fun _ : κ => UcHookId} {toKind : κ → HookKind} (inj : toKind.Injective)
    (recorded : ∀ k, s.reg.handle (toKind k) = table.lookup k) {t : Hooking C U}
    (run : (table.entries.forM fun entry => ucRemoveHook entry.2).Ends t r s')
    (installed : ∀ i k point, (i, ⟨point, toKind k⟩) ∈ s.uc.installed →
      (i, ⟨point, toKind k⟩) ∈ t.uc.installed) :
    t.uc.Grants table.entries.length ∧ r = .ok () ∧
        s' = ⟨t.reg, t.uc.without (table.entries.map (·.2))⟩ ∨
      ¬ t.uc.Grants table.entries.length ∧ (∃ e, r = .error e) ∧ s'.reg = t.reg ∧
        ∃ x ∈ s'.uc.installed, ∃ k, x.2.target = toKind k := by
  obtain ⟨granted, ok, ends⟩ | ⟨refused, failed, reg, stays⟩ := ends_removeEach run
  · exact .inl ⟨granted, ok, ends⟩
  · obtain ⟨entry, mem, kept⟩ := stays (h.handles_nodup inj recorded)
    have held : s.reg.handle (toKind entry.1) = some entry.2 :=
      (recorded entry.1).trans (AList.mem_lookup_iff.2 mem)
    obtain ⟨point, here⟩ := h.alive _ _ held
    exact .inr ⟨refused, failed, reg, _, kept _ (installed _ _ _ here), entry.1, rfl⟩

/-- The dispatchers of the addresses stay when the engine releases those of the types. -/
theorem Hooking.Accounted.addresses_remain (h : s.Accounted) {i : UcHookId} {addr : U64}
    {point : HookPoint} (here : (i, ⟨point, .address addr⟩) ∈ s.uc.installed) :
    (i, ⟨point, .address addr⟩) ∈ (s.uc.without (s.reg.hookFuc.entries.map (·.2))).installed := by
  refine UcHooks.mem_without.2 ⟨here, fun mem => ?_⟩
  obtain ⟨entry, held, rfl⟩ := List.mem_map.1 mem
  have type : s.reg.handle (.common entry.1) = some entry.2 := AList.mem_lookup_iff.2 held
  cases h.kind_unique type (h.recorded _ here)

theorem Hooking.Accounted.clearHooks (h : s.Accounted) (run : clearHooks.Ends s r s') :
    s.Settled (s.removals .clear).length s' := by
  rw [VCoreHooks.clearHooks, ends_bind_get, ends_bind_modifyReg] at run
  have count : (s.removals .clear).length =
      s.reg.hookFuc.entries.length + s.reg.addrHookFuc.entries.length := by
    simp [removals]
  rw [count, Settled, UcHooks.grants_add]
  have commons : Function.Injective HookKind.common := fun _ _ same => HookKind.common.inj same
  have addresses : Function.Injective HookKind.address := fun _ _ same => HookKind.address.inj same
  obtain ⟨e, first, -⟩ | ⟨_, t, first, rest⟩ := ends_bind.1 run
  · -- a dispatcher of a type stays, with the handles of all types forgotten
    obtain ⟨-, ok, -⟩ | ⟨refused, -, reg, x, hx, type, target⟩ :=
      h.drain commons (fun _ => rfl) first fun _ _ _ here => here
    · cases ok
    refine .inr ⟨fun all => refused all.1, fun all => ?_⟩
    have held := all x hx
    rw [target, reg] at held
    cases held
  · obtain ⟨granted, -, rfl⟩ | ⟨-, ⟨_, ok⟩, -⟩ :=
      h.drain commons (fun _ => rfl) first fun _ _ _ here => here
    case inr => cases ok
    rw [ends_bind_modifyReg] at rest
    obtain ⟨e, second, -⟩ | ⟨_, u, second, last⟩ := ends_bind.1 rest
    · -- a dispatcher of an address stays, with all handles forgotten
      obtain ⟨-, ok, -⟩ | ⟨refused, -, reg, x, hx, addr, target⟩ :=
        h.drain addresses (fun _ => rfl) second fun _ _ _ => h.addresses_remain
      · cases ok
      refine .inr ⟨fun all => refused ?_, fun all => ?_⟩
      · simpa [UcHooks.without, UcHooks.Grants] using all.2
      · have held := all x hx
        rw [target, reg] at held
        cases held
    · obtain ⟨granted', -, rfl⟩ | ⟨-, ⟨_, ok⟩, -⟩ :=
        h.drain addresses (fun _ => rfl) second fun _ _ _ => h.addresses_remain
      case inr => cases ok
      obtain ⟨-, rfl⟩ := ends_modify.1 last
      refine .inl ⟨⟨granted, ?_⟩, .of_nil (none_left h.recorded) fun kind => ?_⟩
      · simpa [UcHooks.without, UcHooks.Grants] using granted'
      · cases kind <;> rfl

/-- A call keeps the dispatchers accounted for exactly when the engine releases what it is asked
to release. -/
theorem Hooking.Accounted.perform (h : s.Accounted) {ret : Except ValkyrieError (Option HookRet)}
    (run : call.perform.Ends s ret s') : s.Settled (s.removals call).length s' := by
  cases call with
  | register reg userData =>
    obtain ⟨e, ends, -⟩ | ⟨handle, t, ends, last⟩ := ends_bind.1 run
    · exact .none (h.register ends)
    · obtain ⟨-, rfl⟩ := ends_pure.1 last
      exact .none (h.register ends)
  | del ret =>
    obtain ⟨e, ends, -⟩ | ⟨_, t, ends, last⟩ := ends_bind.1 run
    · exact h.hookDel ends
    · obtain ⟨-, rfl⟩ := ends_pure.1 last
      exact h.hookDel ends
  | clear =>
    obtain ⟨e, ends, -⟩ | ⟨_, t, ends, last⟩ := ends_bind.1 run
    · exact h.clearHooks ends
    · obtain ⟨-, rfl⟩ := ends_pure.1 last
      exact h.clearHooks ends

end Calls

/-! ## Runs -/

/-- A run of calls of one registry, in an engine with the given answers. -/
abbrev RegistryRun (answers : ℕ → Option UcError)
    (steps : List (Trace.Step (Hooking C U) (RegistryCall C U))) (s : Hooking C U) : Prop :=
  Trace RegistryCall.Performed (fun _ _ => False) (Hooking.start answers) steps s

/-- In a run whose removals the engine all releases, the registry keeps track of its dispatchers
after every call; and the next call, of any kind, keeps track of them exactly when the engine
releases all that it asks for. -/
theorem dispatchers_tracked_of_released {answers : ℕ → Option UcError} {s : Hooking C U}
    {steps : List (Trace.Step (Hooking C U) (RegistryCall C U))}
    (run : RegistryRun answers steps s)
    (released : ∀ step ∈ steps, step.before.Releases step.call) :
    (∀ step ∈ steps, step.after.Tracked) ∧
      ∀ call r s', call.perform.Ends s r s' → (s'.Tracked ↔ s.Releases call) := by
  have releasedRun := run.restrict released
  have accounted := releasedRun.keeps (I := Hooking.Accounted) (.start answers)
    (fun step does before => by
      obtain ⟨⟨r, ends⟩, granted⟩ := does
      obtain ⟨-, after⟩ | ⟨refused, -⟩ := before.perform ends
      · exact after
      · exact absurd granted refused)
    fun _ _ impossible => impossible.elim
  refine ⟨fun step hs => ?_, fun call r s' ends => (accounted.1.perform ends).tracked_iff⟩
  obtain ⟨before, ⟨r, ends⟩, granted⟩ := accounted.2 step hs
  exact (before.perform ends).tracked_iff.2 granted

/-- An engine that refuses its second call. -/
def refusesSecond (n : ℕ) : Option UcError := if n = 1 then some .hook else none

/-- A registration of a hook on all instructions that does nothing. -/
def Registration.idleCode : Registration Unit Unit := .code (fun ctx _ _ ud => (none, ctx, ud)) 1 0

/-- The registry with the hook on all instructions. -/
def Hooking.idling : Hooking Unit Unit := (Hooking.start refusesSecond).registered .idleCode ()

/-- The first registration, on an engine that refuses its second call. -/
def idlingStep : Trace.Step (Hooking Unit Unit) (RegistryCall Unit Unit) :=
  ⟨.start refusesSecond, .register .idleCode (), .idling⟩

theorem registryRun_idling : RegistryRun refusesSecond [idlingStep] .idling :=
  .call idlingStep .start ⟨_, rfl⟩

theorem dispatchers_tracked_of_released_idling :
    Hooking.idling.Tracked ∧ ∀ r s', (RegistryCall.clear.perform).Ends Hooking.idling r s' →
      (s'.Tracked ↔ Hooking.idling.Releases .clear) := by
  have released : idlingStep.before.Releases idlingStep.call := UcHooks.grants_zero
  have tracked := dispatchers_tracked_of_released registryRun_idling (by simpa using released)
  exact ⟨tracked.1 _ (List.mem_singleton_self _), tracked.2 .clear⟩

/-- `clear_hooks` is refused the removal of the only dispatcher, which stays without a record; the
next registration puts a second one beside it. -/
theorem dispatcher_doubled : ∃ s s' t : Hooking Unit Unit,
    RegistryRun refusesSecond [⟨.start refusesSecond, .register .idleCode (), s⟩] s ∧
      RegistryCall.clear.perform.Ends s (.error (.unicorn .hook)) s' ∧
      s'.uc.installed = [(0, ⟨.code 1 0, .common .code⟩)] ∧
      (∀ kind, s'.reg.handle kind = none) ∧ ¬ s'.Tracked ∧
      (Registration.idleCode.register ()).Ends s' (.ok ⟨.common .code, 2⟩) t ∧
      t.uc.installed = [(0, ⟨.code 1 0, .common .code⟩), (2, ⟨.code 1 0, .common .code⟩)] := by
  refine ⟨.idling, _, _, registryRun_idling, rfl, rfl, fun kind => ?_, fun tracked => ?_, rfl, rfl⟩
  · cases kind <;> rfl
  · have recorded := tracked.1 (0, ⟨.code 1 0, .common .code⟩) (List.mem_singleton_self _)
    cases recorded

end ValkyrieRs

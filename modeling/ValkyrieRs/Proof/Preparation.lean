import ValkyrieRs.Proof.ExactlyOnce
import ValkyrieRs.Proof.Loading
import ValkyrieRs.Proof.RecvFrom
import ValkyrieRs.Proof.Unperformed

/-!
# What the set-up of a run leaves

The set-up of `run` is taken apart: the hooks it registers, the exit trap of bare code, and the one
region that it maps.  The stack of a Linux guest is built downwards from the initial stack pointer, and
never reaches below the region: the page under it is not mapped.
-/

namespace ValkyrieRs

open Proc VCoreHooks

variable {α : Type} {s s' : Instance} {vk vk' : Valkyrie} {m : VkM α} {r : Except ValkyrieError α}
  {handler showInstructions : Valkyrie → U64 → U32 → Valkyrie} {addr : U64} {id : UcHookId}

/-! ## Parts of the state -/

@[simp] theorem Instance.withVk_vk : (s.withVk vk).vk = vk := rfl
@[simp] theorem Instance.withVk_withVk : (s.withVk vk).withVk vk' = s.withVk vk' := rfl
@[simp] theorem Instance.withVk_syscallHooks : (s.withVk vk).syscallHooks = s.syscallHooks := rfl
@[simp] theorem Instance.withVk_trapHooks : (s.withVk vk).trapHooks = s.trapHooks := rfl
@[simp] theorem Instance.withVk_exitTrapHook : (s.withVk vk).exitTrapHook = s.exitTrapHook := rfl
@[simp] theorem Instance.withVk_skipExitCheck : (s.withVk vk).skipExitCheck = s.skipExitCheck := rfl

theorem ends_onVk : (onVk m).Ends s r s' ↔ ∃ vk', m.Ends s.vk r vk' ∧ s' = s.withVk vk' := ends_zoom

/-- A run that begins with a procedure on the emulator. -/
theorem ends_bind_onVk_ok {β : Type} {f : α → InstanceM β} {b : β} :
    (onVk m >>= f).Ends s (.ok b) s' ↔
      ∃ a vk', m.Ends s.vk (.ok a) vk' ∧ (f a).Ends (s.withVk vk') (.ok b) s' := by
  simp only [ends_bind_ok, ends_onVk]
  constructor
  · rintro ⟨a, _, ⟨vk', run, rfl⟩, rest⟩
    exact ⟨a, vk', run, rest⟩
  · rintro ⟨a, vk', run, rest⟩
    exact ⟨a, _, ⟨vk', run, rfl⟩, rest⟩

/-! ## The system-call hook -/

theorem ucAddHook_ok {C U : Type} {t t' : Hooking C U} {hook : UcHook} {id : UcHookId}
    (run : (ucAddHook hook).Ends t (.ok id) t') : t'.reg = t.reg := by
  rw [ucAddHook, ends_bind_get, ends_bind_modify] at run
  cases answer : (t.uc.addHook hook).1 with
  | error e =>
    rw [answer] at run
    cases (ends_throw.1 run).1
  | ok handle =>
    rw [answer] at run
    obtain ⟨-, rfl⟩ := ends_pure.1 run
    rfl

theorem ensureDispatcher_ok {C U : Type} {t t' : Hooking C U} {kind : HookKind} {point : HookPoint}
    (run : (ensureDispatcher kind point).Ends t (.ok ()) t') : t'.reg.codeHooks = t.reg.codeHooks := by
  rw [ensureDispatcher, ends_bind_get] at run
  split_ifs at run
  · obtain ⟨-, rfl⟩ := ends_pure.1 run
    rfl
  · obtain ⟨id, t₁, added, run⟩ := ends_bind_ok.1 run
    have same := ucAddHook_ok added
    obtain ⟨-, rfl⟩ := ends_modify.1 run
    rw [← same]
    cases kind <;> rfl

/-- A code hook is registered behind those there. -/
theorem hookCode_ok {C U : Type} {t t' : Hooking C U} {callback : C → U64 → U32 → U → Answer C U}
    {userData : U} {beginAddr endAddr : U64} {ret : HookRet}
    (run : (hookCode callback userData beginAddr endAddr).Ends t (.ok ret) t') : ∃ hook,
      hook.userData = userData ∧ t'.reg.codeHooks = t.reg.codeHooks ++ [hook] := by
  rw [hookCode, hookCommon] at run
  obtain ⟨_, t₁, ensured, run⟩ := ends_bind_ok.1 run
  have same := ensureDispatcher_ok ensured
  obtain ⟨id, t₂, numbered, run⟩ := ends_bind_ok.1 run
  rw [allocId, ends_bind_get] at numbered
  obtain ⟨-, rfl⟩ := ends_pure.1 numbered
  obtain ⟨-, rfl⟩ := ends_pure.1 run
  refine ⟨⟨id, beginAddr, endAddr, userData, traceCb callback⟩, rfl, ?_⟩
  rw [← same]
  show Option.getD ((Buckets.push t₁.reg.hooks HookType.code _).lookup HookType.code) [] = _
  rw [Buckets.push, AList.lookup_insert]
  rfl

/-- The hook that `install_syscall_hook` or the instruction trace registers, on `HookEnv`. -/
theorem onHooks_hookCode_ok {callback : Valkyrie → U64 → U32 → HookOwner → Answer Valkyrie HookOwner}
    {owner : HookOwner} {ret : HookRet}
    (run : (onHooks (onRegistryOf .hookEnv (hookCode callback owner 1 0))).Ends s (.ok ret) s') :
    ∃ hooked, s' = s.withHooked hooked ∧ s'.vk = s.vk ∧
      s'.syscallHooks.length = s.syscallHooks.length + if owner = .syscall then 1 else 0 := by
  obtain ⟨hooked, onRegistry, rfl⟩ := ends_zoom.1 run
  obtain ⟨hooking, registered, rfl⟩ := ends_zoom.1 onRegistry
  obtain ⟨hook, same, hooks⟩ := hookCode_ok registered
  refine ⟨_, rfl, rfl, ?_⟩
  show (hooking.reg.codeHooks.filter _).length = (s.hooked.hookEnv.codeHooks.filter _).length + _
  rw [hooks, List.filter_append, List.length_append, List.filter_singleton, same]
  split_ifs <;> simp_all [HookedVk.hooking, HookedVk.registry]

/-- The system-call hook is registered on Linux alone. -/
theorem installSyscall_ok (run : (installSyscall handler).Ends s (.ok ()) s') :
    ∃ hooked, s' = s.withHooked hooked ∧ s'.vk = s.vk ∧ s'.syscallHooks.length =
      s.syscallHooks.length + if s.vk.cfg.os = .linux then 1 else 0 := by
  rw [installSyscall, ends_bind_get] at run
  cases os : s.vk.cfg.os with
  | bareMetal =>
    rw [if_pos os] at run
    obtain ⟨-, rfl⟩ := ends_pure.1 run
    exact ⟨s'.hooked, rfl, rfl, rfl⟩
  | linux =>
    rw [if_neg (by simp [os])] at run
    obtain ⟨ret, s₁, hook, run⟩ := ends_bind_ok.1 run
    obtain ⟨-, rfl⟩ := ends_pure.1 run
    exact onHooks_hookCode_ok hook

/-! ## The set-up -/

/-- A new emulator has no system-call hook and no exit trap. -/
theorem valkyrieNew_ok {args : NewArgs} {answers : ℕ → Option UcError} {disassemble : Bool}
    {parse : List Char → Option Binary}
    (run : (valkyrieNew parse showInstructions disassemble).Ends (args.fresh answers) (.ok ()) s) :
    (∃ base, (loaderRun parse).Ends args.vk (.ok base) s.vk) ∧
      s.skipExitCheck = decide (s.vk.cfg.os = .linux) ∧ s.trapHooks = [] ∧
      s.syscallHooks.length = 0 := by
  rw [valkyrieNew] at run
  obtain ⟨base, vk, loaded, run⟩ := ends_bind_onVk_ok.1 run
  rw [ends_bind_modify] at run
  have loaded : (loaderRun parse).Ends args.vk (.ok base) vk := loaded
  split_ifs at run with traced
  · obtain ⟨ret, s₁, hook, run⟩ := ends_bind_ok.1 run
    obtain ⟨-, rfl⟩ := ends_pure.1 run
    obtain ⟨hooked, rfl, same, hooks⟩ := onHooks_hookCode_ok hook
    rw [same]
    exact ⟨⟨base, loaded⟩, rfl, rfl, hooks⟩
  · obtain ⟨-, rfl⟩ := ends_pure.1 run
    exact ⟨⟨base, loaded⟩, rfl, rfl, rfl⟩

/-- A set-up that succeeds, step by step. -/
theorem setUp_ok {range : U64 × U64} : (setUp handler).Ends s (.ok range) s' ↔ ∃ s₁ s₂ s₃ vk',
    (installSyscall handler).Ends (s.withVk s.vk.reset) (.ok ()) s₁ ∧
    setupTrap.Ends s₁ (.ok ()) s₂ ∧ writeExitTrap.Ends s₂ (.ok ()) s₃ ∧
    prepareExecution.Ends { s₃.vk with vstate := .running } (.ok range) vk' ∧
    s' = s₃.withVk vk' := by
  simp only [setUp, prepareInitialRun, resetExecutionState, ends_bind_ok, ends_onVk, ends_modify]
  constructor
  · rintro ⟨_, s₃, ⟨_, _, ⟨_, ⟨-, rfl⟩, rfl⟩, _, s₁, hook, _, s₂, trap, written⟩, _, _,
      ⟨_, ⟨-, rfl⟩, rfl⟩, vk', prepared, rfl⟩
    exact ⟨s₁, s₂, s₃, vk', hook, trap, written, prepared, rfl⟩
  · rintro ⟨s₁, s₂, s₃, vk', hook, trap, written, prepared, rfl⟩
    exact ⟨(), s₃, ⟨(), _, ⟨_, ⟨trivial, rfl⟩, rfl⟩, (), s₁, hook, (), s₂, trap, written⟩, (), _,
      ⟨_, ⟨trivial, rfl⟩, rfl⟩, vk', prepared, rfl⟩

/-- Without an exit trap nothing is done about it. -/
theorem exitTrap_skipped (skip : s.skipExitCheck) :
    (setupTrap.Ends s (.ok ()) s' ↔ s' = s) ∧ (writeExitTrap.Ends s (.ok ()) s' ↔ s' = s) := by
  constructor
  · rw [setupTrap, ends_bind_get]
    split_ifs
    all_goals simp
  · rw [writeExitTrap, ends_bind_get, if_pos skip]
    simp

/-- Writing the exit trap stores bytes and records the stack pointer. -/
theorem writeExitTrap_ok (run : writeExitTrap.Ends s (.ok ()) s') : ∃ vk' initialSp,
    Stored s.vk vk' ∧ s' = { s with initialSp }.withVk vk' := by
  rw [writeExitTrap, ends_bind_get] at run
  split_ifs at run
  · obtain ⟨-, rfl⟩ := ends_pure.1 run
    exact ⟨s'.vk, s'.initialSp, .refl _, rfl⟩
  · cases set : s.vk.exitTrapAddr with
    | none =>
      rw [set] at run
      cases (ends_throw.1 run).1
    | some addr =>
      rw [set] at run
      obtain ⟨sp, vk₁, read, run⟩ := ends_bind_onVk_ok.1 run
      obtain ⟨-, rfl⟩ := getReg_ok read
      obtain ⟨vk', written, rfl⟩ := ends_onVk.1 (ends_bind_modify.1 run)
      exact ⟨vk', sp, stored_memWrite written, rfl⟩

/-- The region of the exit trap. -/
def trapRegion (regions : List VMemRegion) : VMemRegion :=
  ⟨trapAddress regions, pageSize, .all, "[Stop guard page]"⟩

theorem addTrapHook_ok (run : (addTrapHook addr).Ends s (.ok id) s') :
    s'.trapHooks = s.trapHooks ++ [(id, addr)] ∧ s'.vk = s.vk ∧
      s'.syscallHooks = s.syscallHooks ∧ s'.skipExitCheck = s.skipExitCheck := by
  rw [addTrapHook, ends_bind_get, ends_bind_modify] at run
  cases answer : s.hooked.uc.answers s.hooked.uc.issued with
  | some e =>
    rw [answer] at run
    cases (ends_throw.1 run).1
  | none =>
    simp only [answer, ends_bind_modify] at run
    obtain ⟨same, rfl⟩ := ends_pure.1 run
    cases same
    exact ⟨rfl, rfl, rfl, rfl⟩

/-- The exit trap of a run that has none is mapped behind all regions. -/
theorem setupTrap_ok (unset : s.vk.exitTrapAddr = none) (traps : s.skipExitCheck = false)
    (run : setupTrap.Ends s (.ok ()) s') : ∃ uc id,
      s.vk.uc.memMap (trapAddress s.vk.mem.regions) pageSize .all = .ok uc ∧
      s'.vk = { s.vk.withMem (s.vk.mem.addRegion (trapRegion s.vk.mem.regions)) uc with
        exitTrapAddr := some (trapAddress s.vk.mem.regions) } ∧
      s'.exitTrapHook = some id ∧
      s'.trapHooks = s.trapHooks ++ [(id, trapAddress s.vk.mem.regions)] ∧
      s'.syscallHooks = s.syscallHooks ∧ s'.skipExitCheck = s.skipExitCheck := by
  rw [setupTrap, ends_bind_get, if_neg (by rw [unset]; decide),
    if_neg (ne_true_of_eq_false traps)] at run
  obtain ⟨_, vk₁, mapped, rest⟩ := ends_bind_onVk_ok.1 run
  obtain ⟨id, s₂, added, last⟩ := ends_bind_ok.1 rest
  obtain ⟨uc, ok, rfl⟩ := memMap_ok mapped
  obtain ⟨hooks, same, silent, skip⟩ := addTrapHook_ok added
  obtain ⟨-, rfl⟩ := ends_modify.1 last
  refine ⟨uc, id, ok, ?_, rfl, hooks, silent, skip⟩
  show { s₂.vk with exitTrapAddr := some (trapAddress s.vk.mem.regions) } = _
  rw [same]
  rfl

/-! ## Bare code -/

/-- What the preparation of bare code changes. -/
theorem ends_prepareExecution_bare (os : vk.cfg.os = .bareMetal) : ∃ range exitPoint,
    prepareExecution.Ends vk (.ok range)
      { vk with vstate := .running, start.exitPoint := exitPoint } := by
  rw [prepareExecution]
  simp only [ends_bind_get, os]
  rw [OsBlob.prepareExecution]
  simp only [ends_bind_modify, ends_bind_get]
  by_cases unset : vk.start.exitPoint = 0
  · rw [if_pos unset]
    exact ⟨_, _, rfl⟩
  · rw [if_neg unset]
    exact ⟨_, _, rfl⟩

theorem spReg_isOf (arch : Arch) : arch.spReg.isOf arch := by
  cases arch <;> rfl

/-! ## What stays -/

/-- Only bytes, registers and what a run leaves behind have changed. -/
structure SameLayout (vk vk' : Valkyrie) : Prop where
  pages : vk'.uc.pages = vk.uc.pages
  mem : vk'.mem = vk.mem
  addrs : vk'.addrs = vk.addrs
  settings : SameSettings vk vk'

theorem SameLayout.trans {vk₁ : Valkyrie} (h : SameLayout vk vk₁) (h' : SameLayout vk₁ vk') :
    SameLayout vk vk' where
  pages := h'.pages.trans h.pages
  mem := h'.mem.trans h.mem
  addrs := h'.addrs.trans h.addrs
  settings := h.settings.trans h'.settings

theorem Stored.sameLayout (h : Stored vk vk') : SameLayout vk vk' := by
  refine ⟨h.pages, ?_, ?_, ?_⟩
  all_goals rw [h.eq]
  · rfl
  · rfl
  · exact ⟨rfl, rfl, rfl, rfl, rfl⟩

theorem sameLayout_withReg (reg : VRegister) (value : U64) : SameLayout vk (vk.withReg reg value) :=
  ⟨rfl, rfl, rfl, ⟨rfl, rfl, rfl, rfl, rfl⟩⟩

/-- The region has been mapped, and the layout is otherwise the same. -/
def Adds (region : VMemRegion) (vk vk' : Valkyrie) : Prop :=
  ∃ uc, vk.uc.memMap region.start region.size region.prot = .ok uc ∧
    SameLayout (vk.withMem (vk.mem.addRegion region) uc) vk'

/-- The set-up of bare code maps the page of the exit trap. -/
theorem setUp_bare {range : U64 × U64} (os : s.vk.cfg.os = .bareMetal)
    (unset : s.vk.exitTrapAddr = none) (traps : s.skipExitCheck = false)
    (run : (setUp handler).Ends s (.ok range) s') : ∃ id,
      Adds (trapRegion s.vk.mem.regions) s.vk s'.vk ∧ s'.vk.uc.reg = s.vk.uc.reg ∧
      s'.vk.exitTrapAddr = some (trapAddress s.vk.mem.regions) ∧ s'.exitTrapHook = some id ∧
      s'.trapHooks = s.trapHooks ++ [(id, trapAddress s.vk.mem.regions)] ∧
      s'.syscallHooks = s.syscallHooks ∧ s'.skipExitCheck = s.skipExitCheck := by
  obtain ⟨s₁, s₂, s₃, vk', hook, trap, written, prepared, rfl⟩ := setUp_ok.1 run
  have os₁ : (s.withVk s.vk.reset).vk.cfg.os = .bareMetal := os
  rw [installSyscall, ends_bind_get, if_pos os₁] at hook
  obtain ⟨-, rfl⟩ := ends_pure.1 hook
  have unset₁ : (s.withVk s.vk.reset).vk.exitTrapAddr = none := unset
  obtain ⟨uc, id, ok, same, hook, hooks, silent, skip⟩ := setupTrap_ok unset₁ traps trap
  obtain ⟨vk₃, initialSp, stored, rfl⟩ := writeExitTrap_ok written
  have os₃ : ({ vk₃ with vstate := .running } : Valkyrie).cfg.os = .bareMetal := by
    show vk₃.cfg.os = _
    rw [stored.sameLayout.settings.cfg, same]
    exact os
  obtain ⟨range', exitPoint, ends⟩ := ends_prepareExecution_bare os₃
  obtain ⟨-, rfl⟩ := prepared.unique ends
  have mapped : SameLayout (s.vk.withMem (s.vk.mem.addRegion (trapRegion s.vk.mem.regions)) uc)
      s₂.vk := by
    rw [same]
    exact ⟨rfl, rfl, rfl, ⟨rfl, rfl, rfl, rfl, rfl⟩⟩
  obtain ⟨-, -, regs⟩ := Unicorn.memMap_effect ok
  refine ⟨id, ⟨uc, ok, ?_⟩, ?_, ?_, hook, hooks, silent, skip⟩
  · exact (mapped.trans stored.sameLayout).trans ⟨rfl, rfl, rfl, ⟨rfl, rfl, rfl, rfl, rfl⟩⟩
  · show vk₃.uc.reg = _
    rw [stored.reg, same]
    exact regs
  · show vk₃.exitTrapAddr = _
    rw [stored.eq, show _ = _ from same]
    rfl

/-! ## The stack of a Linux guest -/

variable {uc : Unicorn} {S a : U64} {n bits : ℕ} {data : List U8}

/-- The byte below the address is not mapped. -/
structure Guarded (uc : Unicorn) (S : U64) : Prop where
  positive : 0 < S.toNat
  below : uc.protAt (S - 1) = none

theorem Guarded.stored (h : Guarded vk.uc S) (stored : Stored vk vk') : Guarded vk'.uc S := by
  refine ⟨h.positive, ?_⟩
  rw [Unicorn.protAt, stored.pages]
  exact h.below

/-- What is mapped and reaches a guarded address begins there or above. -/
theorem Guarded.le_of_mapped (h : Guarded uc S) (mapped : uc.Mapped a n)
    (reaches : S.toNat ≤ a.toNat + n) : S.toNat ≤ a.toNat := by
  by_contra below
  have positive := h.positive
  have inside : InRange a n (S - 1) := by
    unfold InRange
    bv_omega
  have listed := mapped.2 _ inside
  rw [h.below] at listed
  cases listed

theorem ucMemWrite_ok (run : (ucMemWrite a data).Ends vk (.ok ()) vk') :
    Stored vk vk' ∧ vk.uc.Mapped a data.length := by
  rcases ends_ucCall.1 run with ⟨uc, written, -, rfl⟩ | ⟨e, -, failed, -⟩
  · exact ⟨stored_of_memWrite written, Unicorn.memWrite_ok_iff.1 ⟨uc, written⟩⟩
  · cases failed

/-- A pushed argument stays above a guard. -/
theorem pushArg_above {acc acc' : U64 × List U64} {arg : List U8}
    (run : (pushArg acc arg).Ends vk (.ok acc') vk') : Stored vk vk' ∧
      ∀ S, Guarded vk.uc S → S.toNat ≤ acc.1.toNat →
        S.toNat ≤ acc'.1.toNat ∧ acc'.1.toNat ≤ acc.1.toNat := by
  rw [pushArg] at run
  obtain ⟨_, vk₁, text, more⟩ := ends_bind_ok.1 run
  obtain ⟨_, vk₂, nul, done⟩ := ends_bind_ok.1 more
  obtain ⟨same, rfl⟩ := ends_pure.1 done
  cases same
  obtain ⟨stored₁, mapped₁⟩ := ucMemWrite_ok text
  obtain ⟨stored₂, mapped₂⟩ := ucMemWrite_ok nul
  refine ⟨stored₁.trans stored₂, fun S guard above => ?_⟩
  have positive := guard.positive
  have bound := mapped₁.1
  have last : (acc.1 - (BitVec.ofNat 64 arg.length + 1) + BitVec.ofNat 64 arg.length).toNat + 1 =
      acc.1.toNat := by
    bv_omega
  have nulAbove := (guard.stored stored₁).le_of_mapped mapped₂ (by rw [List.length_singleton]; omega)
  have first : (acc.1 - (BitVec.ofNat 64 arg.length + 1)).toNat + arg.length =
      (acc.1 - (BitVec.ofNat 64 arg.length + 1) + BitVec.ofNat 64 arg.length).toNat := by
    rw [BitVec.toNat_add, BitVec.toNat_ofNat] at nulAbove ⊢
    omega
  refine ⟨guard.le_of_mapped mapped₁ ?_, ?_⟩
  all_goals
    dsimp only
    omega

theorem pushArgs_above {args : List (List U8)} {acc acc' : U64 × List U64}
    (run : (args.foldlM pushArg acc).Ends vk (.ok acc') vk') : Stored vk vk' ∧
      ∀ S, Guarded vk.uc S → S.toNat ≤ acc.1.toNat →
        S.toNat ≤ acc'.1.toNat ∧ acc'.1.toNat ≤ acc.1.toNat := by
  induction args generalizing vk acc with
  | nil =>
    obtain ⟨same, rfl⟩ := ends_pure.1 run
    cases same
    exact ⟨.refl _, fun S guard above => ⟨above, le_rfl⟩⟩
  | cons arg args ih =>
    rw [List.foldlM_cons] at run
    obtain ⟨acc₁, vk₁, first, rest⟩ := ends_bind_ok.1 run
    obtain ⟨stored₁, moves₁⟩ := pushArg_above first
    obtain ⟨stored₂, moves₂⟩ := ih rest
    refine ⟨stored₁.trans stored₂, fun S guard above => ?_⟩
    obtain ⟨above₁, le₁⟩ := moves₁ S guard above
    obtain ⟨above₂, le₂⟩ := moves₂ S (guard.stored stored₁) above₁
    exact ⟨above₂, le₂.trans le₁⟩

/-- A frame that ends above a guard begins above it. -/
theorem writeFrame_above {frame : List (BitVec bits)}
    (run : (writeFrame frame a).Ends vk (.ok ()) vk') : Stored vk vk' ∧
      ∀ S, Guarded vk.uc S →
        S.toNat ≤ (a + BitVec.ofNat 64 (frame.length * (bits / 8))).toNat →
        S.toNat ≤ a.toNat ∧
          a.toNat ≤ (a + BitVec.ofNat 64 (frame.length * (bits / 8))).toNat := by
  induction frame generalizing vk a with
  | nil =>
    obtain ⟨-, rfl⟩ := ends_pure.1 run
    rw [List.length_nil, Nat.zero_mul, BitVec.add_zero]
    exact ⟨.refl _, fun S guard above => ⟨above, le_rfl⟩⟩
  | cons word frame ih =>
    obtain ⟨_, vk₁, first, rest⟩ := ends_bind_ok.1 run
    obtain ⟨stored₁, mapped⟩ := ucMemWrite_ok first
    obtain ⟨stored₂, moves⟩ := ih rest
    refine ⟨stored₁.trans stored₂, fun S guard above => ?_⟩
    rw [length_toLeBytes] at mapped
    rw [List.length_cons, Nat.succ_mul, Nat.add_comm, BitVec.ofNat_add, ← BitVec.add_assoc]
      at above ⊢
    obtain ⟨above₂, le⟩ := moves S (guard.stored stored₁) above
    have positive := guard.positive
    have bound := mapped.1
    have next : (a + BitVec.ofNat 64 (bits / 8)).toNat = a.toNat + bits / 8 := by
      rw [BitVec.toNat_add, BitVec.toNat_ofNat] at above₂ ⊢
      omega
    exact ⟨guard.le_of_mapped mapped (by omega), by omega⟩

theorem toNat_alignFrame (v : U64) : (v &&& ~~~0xF).toNat = v.toNat / 16 * 16 := by
  have mask : (0xF : U64) = BitVec.ofNat 64 (2 ^ 4 - 1) := rfl
  rw [mask, and_not_mask, BitVec.toNat_shiftLeft, BitVec.toNat_ushiftRight, Nat.shiftLeft_eq,
    Nat.shiftRight_eq_div_pow]
  omega

/-- The stack is built above the guard. -/
theorem setupStackWith_above {reg : VRegister}
    (run : (setupStackWith bits reg).Ends vk (.ok ()) vk') : ∃ vk₁ sp, Stored vk vk₁ ∧
      reg.isOf vk.arch.regs.arch ∧ vk' = vk₁.withReg reg sp ∧
      ∀ S, Guarded vk.uc S → S.toNat % 16 = 0 → S.toNat + 16 ≤ vk.stackTop.toNat →
        S.toNat ≤ sp.toNat ∧ sp.toNat < vk.stackTop.toNat := by
  obtain ⟨vk₁, pushed, vk₂, execfnPtr, frame, sp, vk₃, random, push, -, -, aligned, wrote, fits,
    rfl⟩ := setupStackWith_ok run
  obtain ⟨stored₁, -⟩ := ucMemWrite_ok random
  obtain ⟨stored₂, moves₂⟩ := pushArgs_above push
  obtain ⟨stored₃, moves₃⟩ := writeFrame_above wrote
  rw [← aligned, toNat_alignFrame] at moves₃
  have stored := (stored₁.trans stored₂).trans stored₃
  refine ⟨vk₃, sp, stored, ?_, rfl, fun S guard round room => ?_⟩
  · rwa [← stored.sameLayout.settings.arch]
  · have below : (vk.stackTop - 16).toNat = vk.stackTop.toNat - 16 := by bv_omega
    obtain ⟨above₂, le₂⟩ := moves₂ S (guard.stored stored₁) (by dsimp only; omega)
    obtain ⟨above₃, le₃⟩ := moves₃ S ((guard.stored stored₁).stored stored₂) (by omega)
    dsimp only at le₂
    exact ⟨above₃, by omega⟩

theorem truncate_of_le {arch : Arch} {v w : U64} (le : v.toNat ≤ (arch.truncate w).toNat) :
    arch.truncate v = v := by
  cases arch with
  | x86 =>
    unfold Arch.truncate at le ⊢
    bv_omega
  | x86_64 => rfl

/-- The stack of the guest is built above a guard, below the initial stack pointer. -/
theorem setupStack_above (run : setupStack.Ends vk (.ok ()) vk') : SameLayout vk vk' ∧
    (∀ reg, reg ≠ vk.cfg.arch.spReg → vk'.uc.reg reg = vk.uc.reg reg) ∧
      ∀ S, Guarded vk.uc S → S.toNat % 16 = 0 →
        S.toNat + 16 ≤ (vk.regValue vk.cfg.arch.spReg).toNat →
        S.toNat ≤ (vk'.regValue vk.cfg.arch.spReg).toNat ∧
          (vk'.regValue vk.cfg.arch.spReg).toNat < (vk.regValue vk.cfg.arch.spReg).toNat := by
  obtain ⟨vk₁, sp, stored, fits, rfl, above⟩ := setupStackWith_above (setupStack_ok run)
  have arch : vk₁.arch.regs.arch = vk.arch.regs.arch := stored.sameLayout.settings.arch
  have top : vk.stackTop = vk.regValue vk.cfg.arch.spReg := by
    rw [Valkyrie.stackTop, sp_of_spReg fits]
    rfl
  rw [top] at above
  refine ⟨stored.sameLayout.trans (sameLayout_withReg _ _), fun reg other => ?_, ?_⟩
  · show (if reg = _ then _ else vk₁.uc.reg reg) = _
    rw [if_neg other, stored.reg]
  · intro S guard aligned room
    obtain ⟨low, high⟩ := above S guard aligned room
    have whole : vk.arch.regs.arch.truncate sp = sp := truncate_of_le (le_of_lt high)
    have value : (vk₁.withReg vk.cfg.arch.spReg sp).regValue vk.cfg.arch.spReg = sp := by
      rw [Valkyrie.regValue, Valkyrie.withReg_reg, Valkyrie.withReg_regs_arch, arch, whole, whole]
    rw [value]
    exact ⟨low, high⟩

/-! ## The preparation of a Linux guest -/

/-- The region of the thread-local storage. -/
def Valkyrie.tlsRegion (vk : Valkyrie) : VMemRegion :=
  ⟨vk.addrs.tlsAddrStart, vk.addrs.tlsAddrExit - vk.addrs.tlsAddrStart, vk.cfg.arch.tlsProt, "[tls]"⟩

theorem stored_x86WriteGdtEntry {entryNumber : U32} {descriptor : List U8}
    (run : (x86WriteGdtEntry entryNumber descriptor).Ends vk (.ok ()) vk') : Stored vk vk' := by
  rw [x86WriteGdtEntry, ends_bind_get] at run
  exact stored_memWrite run

theorem stored_setupTlsI386 (run : setupTlsI386.Ends vk (.ok ()) vk') : Stored vk vk' := by
  rw [setupTlsI386, ends_bind_get] at run
  obtain ⟨_, vk₁, cleared, run₁⟩ := ends_bind_ok.1 run
  obtain ⟨_, vk₂, gdtr, run₂⟩ := ends_bind_ok.1 run₁
  obtain ⟨-, rfl⟩ := ends_pure.1 gdtr
  obtain ⟨_, vk₃, first, run₃⟩ := ends_bind_ok.1 run₂
  obtain ⟨_, vk₄, second, run₄⟩ := ends_bind_ok.1 run₃
  obtain ⟨_, vk₅, third, fourth⟩ := ends_bind_ok.1 run₄
  exact (stored_zeroFillLoop cleared).trans ((stored_x86WriteGdtEntry first).trans
    ((stored_x86WriteGdtEntry second).trans ((stored_x86WriteGdtEntry third).trans
      (stored_x86WriteGdtEntry fourth))))

theorem eq_of_isOf_x86_64 {reg : RegX86_64} {arch : Arch} (fits : (VRegister.x86_64 reg).isOf arch) :
    arch = .x86_64 := by
  cases arch with
  | x86 => cases fits
  | x86_64 => rfl

/-- The thread-local storage is mapped, and on x86-64 the FS base is set two pages above its start. -/
theorem setupTlsMinimal_ok (run : setupTlsMinimal.Ends vk (.ok ()) vk') :
    Adds vk.tlsRegion vk vk' ∧ (∀ reg, reg ≠ .x86_64 .fsBase → vk'.uc.reg reg = vk.uc.reg reg) ∧
      (vk.cfg.arch = .x86_64 →
        vk'.uc.reg (.x86_64 .fsBase) = vk.addrs.tlsAddrStart + 2 * pageSize) := by
  rw [setupTlsMinimal, ends_bind_get] at run
  obtain ⟨_, vk₁, mapped, run₁⟩ := ends_bind_ok.1 run
  obtain ⟨uc, ok, rfl⟩ := memMap_ok mapped
  obtain ⟨-, -, regs⟩ := Unicorn.memMap_effect ok
  unfold Valkyrie.tlsRegion
  cases arch : vk.cfg.arch with
  | x86 =>
    rw [arch] at run₁ ok
    have stored := stored_setupTlsI386 run₁
    refine ⟨⟨uc, ok, stored.sameLayout⟩, fun reg _ => ?_, nofun⟩
    rw [stored.reg]
    exact congrFun regs reg
  | x86_64 =>
    rw [arch] at run₁ ok
    obtain ⟨fits, rfl⟩ := setReg_ok run₁
    refine ⟨⟨uc, ok, sameLayout_withReg _ _⟩, fun reg other => ?_, fun _ => ?_⟩
    · show (if reg = _ then _ else uc.reg reg) = _
      rw [if_neg other]
      exact congrFun regs reg
    · rw [Valkyrie.withReg_reg, eq_of_isOf_x86_64 fits]
      rfl

theorem stored_setupX86EntryStub {start : U64}
    (run : setupX86EntryStub.Ends vk (.ok start) vk') : Stored vk vk' := by
  rw [setupX86EntryStub, ends_bind_get] at run
  cases offset : jumpOffset vk.start.entryPoint
    (vk.addrs.tlsAddrStart + x86TlsStubOffset + BitVec.ofNat 64 entryStub.length + 4) with
  | error text =>
    simp only [offset] at run
    cases (ends_throw.1 run).1
  | ok rel =>
    simp only [offset] at run
    obtain ⟨_, vk₁, written, done⟩ := ends_bind_ok.1 run
    obtain ⟨-, rfl⟩ := ends_pure.1 done
    exact stored_memWrite written

/-- A Linux guest has its thread-local storage, and its stack above what is guarded. -/
structure LinuxPrepared (vk vk' : Valkyrie) : Prop where
  adds : Adds vk.tlsRegion vk vk'
  fsBase : vk.cfg.arch = .x86_64 →
    vk'.uc.reg (.x86_64 .fsBase) = vk.addrs.tlsAddrStart + 2 * pageSize
  stack : ∀ S, Guarded vk'.uc S → S.toNat % 16 = 0 →
    S.toNat + 16 ≤ (vk.regValue vk.cfg.arch.spReg).toNat →
    S.toNat ≤ (vk'.regValue vk.cfg.arch.spReg).toNat ∧
      (vk'.regValue vk.cfg.arch.spReg).toNat < (vk.regValue vk.cfg.arch.spReg).toNat

theorem prepareExecution_linux {range : U64 × U64} (os : vk.cfg.os = .linux)
    (run : prepareExecution.Ends vk (.ok range) vk') : LinuxPrepared vk vk' := by
  rw [prepareExecution, ends_bind_get, os] at run
  rw [OsLinux.prepareExecution] at run
  obtain ⟨_, vk₁, tls, run₁⟩ := ends_bind_ok.1 run
  obtain ⟨adds, regs, fsBase⟩ := setupTlsMinimal_ok tls
  obtain ⟨_, vk₂, stack, run₂⟩ := ends_bind_ok.1 run₁
  obtain ⟨layout, kept, above⟩ := setupStack_above stack
  rw [ends_bind_get] at run₂
  have last : Stored vk₂ vk' := by
    cases arch : vk₂.cfg.arch with
    | x86 =>
      simp only [arch] at run₂
      obtain ⟨start, vk₃, entry, done⟩ := ends_bind_ok.1 run₂
      obtain ⟨-, rfl⟩ := ends_pure.1 done
      exact stored_setupX86EntryStub entry
    | x86_64 =>
      simp only [arch, ends_bind_pure] at run₂
      obtain ⟨-, rfl⟩ := ends_pure.1 run₂
      exact .refl _
  obtain ⟨uc, ok, same⟩ := adds
  have cfg : vk₁.cfg = vk.cfg := same.settings.cfg
  have arch : vk₁.arch.regs.arch = vk.arch.regs.arch := same.settings.arch
  have layout' := layout.trans last.sameLayout
  rw [cfg] at kept above
  have before : vk₁.regValue vk.cfg.arch.spReg = vk.regValue vk.cfg.arch.spReg := by
    rw [Valkyrie.regValue, Valkyrie.regValue, arch, regs _ (by cases vk.cfg.arch <;> decide)]
  have after : vk'.regValue vk.cfg.arch.spReg = vk₂.regValue vk.cfg.arch.spReg := by
    rw [Valkyrie.regValue, Valkyrie.regValue, last.reg, last.sameLayout.settings.arch]
  rw [before] at above
  refine ⟨⟨uc, ok, same.trans layout'⟩, fun wide => ?_, fun S guard aligned room => ?_⟩
  · rw [last.reg, kept _ (by rw [wide]; decide)]
    exact fsBase wide
  · rw [after]
    refine above S ⟨guard.positive, ?_⟩ aligned room
    rw [Unicorn.protAt, ← layout'.pages]
    exact guard.below

/-- The set-up of a Linux guest registers one more system-call hook. -/
theorem setUp_linux {range : U64 × U64} (os : s.vk.cfg.os = .linux) (skip : s.skipExitCheck)
    (run : (setUp handler).Ends s (.ok range) s') : LinuxPrepared s.vk s'.vk ∧
      s'.syscallHooks.length = s.syscallHooks.length + 1 := by
  obtain ⟨s₁, s₂, s₃, vk', hook, trap, written, prepared, rfl⟩ := setUp_ok.1 run
  obtain ⟨hooked, rfl, same, hooks⟩ := installSyscall_ok hook
  have skip₁ : ((s.withVk s.vk.reset).withHooked hooked).skipExitCheck := skip
  obtain rfl := (exitTrap_skipped skip₁).1.1 trap
  obtain rfl := (exitTrap_skipped skip₁).2.1 written
  rw [same] at prepared
  have os₁ : ({ s.vk.reset with vstate := .running } : Valkyrie).cfg.os = .linux := os
  obtain ⟨⟨uc, ok, layout⟩, fsBase, stack⟩ := prepareExecution_linux os₁ prepared
  refine ⟨⟨⟨uc, ok, ⟨layout.pages, layout.mem, layout.addrs, ?_⟩⟩, fsBase, stack⟩, ?_⟩
  · exact ⟨layout.settings.cfg, layout.settings.arch, layout.settings.stackSize,
      layout.settings.heapSize, layout.settings.argv⟩
  · rw [Instance.withVk_syscallHooks, hooks]
    exact congrArg _ (if_pos os)

/-- A page of code at 0x400000, with a stack and a heap of one page each. -/
def blobArgs (arch : Arch) (os : OsType) : NewArgs where
  cfg := ⟨arch, os, ['/'], []⟩
  start := ⟨.raw, [], [0x90], none, 0x400000, 0, 0x1000, 0x1000, 0x1000, 0x400000⟩
  creds := ⟨0, 0, 0, 0⟩
  prctlName := Vector.replicate 16 0
  fdTable := ∅
  host := Host.refusing

end ValkyrieRs

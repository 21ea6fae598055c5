import ValkyrieRs.Hook

/-!
# Two registries and one engine

A `Valkyrie` has two hook registries: its field `vcorehook`, and the `hooks` of the `HookEnv` in its
engine.  Either installs dispatchers in the engine, and every dispatcher dispatches to the second.
-/

namespace ValkyrieRs

open Proc VCoreHooks

variable {C U : Type}

/-- The two registries of an emulator. -/
inductive RegistryName where
  | vcorehook
  | hookEnv
deriving DecidableEq, Repr

/-- The two registries of a `Valkyrie` with the engine, and the context of the callbacks. -/
structure HookedVk (C U : Type) where
  ctx : C
  vcorehook : VCoreHooks C U
  hookEnv : VCoreHooks C U
  uc : UcHooks

namespace HookedVk

/-- `Valkyrie::new`, in an engine that accepts every call. -/
def new (ctx : C) : HookedVk C U := ⟨ctx, .new, .new, ⟨[], 0, fun _ => none⟩⟩

/-- The registry of a name. -/
def registry (s : HookedVk C U) : RegistryName → VCoreHooks C U
  | .vcorehook => s.vcorehook
  | .hookEnv => s.hookEnv

/-- A registry with the engine. -/
def hooking (s : HookedVk C U) (name : RegistryName) : Hooking C U := ⟨s.registry name, s.uc⟩

/-- A registry and the engine are put back. -/
def putHooking (s : HookedVk C U) (name : RegistryName) (hooking : Hooking C U) : HookedVk C U :=
  match name with
  | .vcorehook => { s with vcorehook := hooking.reg, uc := hooking.uc }
  | .hookEnv => { s with hookEnv := hooking.reg, uc := hooking.uc }

end HookedVk

/-- A call of one of the registries. -/
def onRegistryOf {α : Type} (name : RegistryName) (m : HookM C U α) :
    Proc (HookedVk C U) ValkyrieError α :=
  m.zoom (·.hooking name) fun hooking s => s.putHooking name hooking

/-- A callback that runs a function on the context, and blocks nothing. -/
def quietly (f : C → U64 → U32 → C) (ctx : C) (addr : U64) (size : U32) (ud : U) : Answer C U :=
  (none, f ctx addr size, ud)

/-- `Valkyrie::enable_instruction_trace`. -/
def enableInstructionTrace (showInstructions : C → U64 → U32 → C) (noData : U) :
    Proc (HookedVk C U) ValkyrieError HookRet :=
  onRegistryOf .hookEnv (hookCode (quietly showInstructions) noData 1 0)

/-- `install_syscall_hook`, on Linux. -/
def installSyscallHook (handler : C → U64 → U32 → C) (noData : U) :
    Proc (HookedVk C U) ValkyrieError HookRet :=
  onRegistryOf .hookEnv (hookCode (quietly handler) noData 1 0)

/-! ## Execution of an instruction -/

/-- The engine calls the hook for an instruction at the address. -/
def HookPoint.onInsn (addr : U64) : HookPoint → Bool
  | .code beginAddr endAddr => endAddr < beginAddr ∨ beginAddr ≤ addr ∧ addr ≤ endAddr
  | _ => false

/-- A call of a hook, named by its registry, its kind and its position there. -/
structure HookCalled where
  registry : RegistryName
  kind : HookKind
  position : ℕ
deriving DecidableEq, Repr

namespace HookedVk

/-- The closure of a dispatcher, called for an instruction: it takes the registry from `HookEnv`. -/
def dispatch (s : HookedVk C U) (target : HookKind) (addr : U64) (size : U32) :
    List HookCalled × HookedVk C U :=
  match target with
  | .common t =>
    let out := s.hookEnv.dispatchCommon s.ctx t (.trace addr size)
    (out.called.map fun x => ⟨.hookEnv, .common t, x.1.2⟩,
      { s with ctx := out.ctx, hookEnv := out.reg })
  | .address _ =>
    let out := s.hookEnv.dispatchAddr s.ctx addr
    (out.called.map fun x => ⟨.hookEnv, .address addr, x.1.2⟩,
      { s with ctx := out.ctx, hookEnv := out.reg })

/-- The dispatchers of a list that are hooked on the instruction are called in turn. -/
def callHooks (addr : U64) (size : U32) :
    List (UcHookId × UcHook) → HookedVk C U → List HookCalled × HookedVk C U
  | [], s => ([], s)
  | x :: hooks, s =>
    if x.2.point.onInsn addr then
      let first := s.dispatch x.2.target addr size
      let rest := callHooks addr size hooks first.2
      (first.1 ++ rest.1, rest.2)
    else callHooks addr size hooks s

/-- The calls of hooks when the engine executes an instruction, and the state they leave. -/
def execInsn (s : HookedVk C U) (addr : U64) (size : U32) : List HookCalled × HookedVk C U :=
  callHooks addr size s.uc.installed s

end HookedVk

end ValkyrieRs

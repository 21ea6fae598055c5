import ValkyrieRs.HookEnv
import ValkyrieRs.Loader.Blob
import ValkyrieRs.Os.Setup
import ValkyrieRs.Syscall.Words

/-!
# Creating and running an emulator

`Valkyrie::new` and the set-up part of `Valkyrie::run` of `lib.rs`: the system-call hook, the exit
trap of bare code, and the preparation of the operating system.
-/

namespace ValkyrieRs

open Proc

/-- Whose callback the user data of a hook belongs to. -/
inductive HookOwner where
  | trace
  | syscall
  | user (n : ℕ)
deriving DecidableEq

/-- A `Valkyrie` with its hooks and the fields that only `new` and `run` use; `trapHooks` are the
hooks of the engine that stop it at an address, which dispatch to no registry. -/
structure Instance where
  hooked : HookedVk Valkyrie HookOwner
  trapHooks : List (UcHookId × U64)
  exitTrapHook : Option UcHookId
  initialSp : U64
  skipExitCheck : Bool

/-- A function on `&mut Valkyrie` that uses its hooks. -/
abbrev InstanceM := Proc Instance ValkyrieError

namespace Instance

/-- The emulator. -/
def vk (s : Instance) : Valkyrie := s.hooked.ctx

/-- The same instance with another emulator. -/
def withVk (s : Instance) (vk : Valkyrie) : Instance := { s with hooked := { s.hooked with ctx := vk } }

/-- The same instance with other hooks. -/
def withHooked (s : Instance) (hooked : HookedVk Valkyrie HookOwner) : Instance := { s with hooked }

/-- The registered hooks with the system-call handler. -/
def syscallHooks (s : Instance) : List (HookCommon Valkyrie HookOwner) :=
  ((s.hooked.hookEnv.hooks.lookup .code).getD []).filter (·.userData = .syscall)

end Instance

/-- A function on the emulator. -/
def onVk {α : Type} (m : VkM α) : InstanceM α := m.zoom Instance.vk fun vk s => s.withVk vk

/-- A function on the hooks. -/
def onHooks {α : Type} (m : Proc (HookedVk Valkyrie HookOwner) ValkyrieError α) : InstanceM α :=
  m.zoom Instance.hooked fun hooked s => s.withHooked hooked

/-! ## Creation -/

/-- The part of the configuration and the surroundings that `Valkyrie::new` starts from. -/
structure NewArgs where
  cfg : Config
  start : StartConfig
  creds : LinuxCreds
  prctlName : Vector U8 16
  fdTable : FdTable
  host : Host

/-- An engine with nothing mapped. -/
def Unicorn.new : Unicorn := ⟨fun _ => none, fun _ => 0, fun _ => 0, false⟩

/-- The fields before the loader runs. -/
def NewArgs.vk (args : NewArgs) : Valkyrie where
  cfg := args.cfg
  start := args.start
  vstate := .notSet
  uc := .new
  arch := ⟨args.cfg.arch, VRegs.new args.cfg.arch⟩
  mem := ⟨[], 0, 0⟩
  addrs := ⟨0, 0, 0, 0, 0, 0⟩
  exitTrapAddr := none
  elfAuxv := none
  exitStatus := none
  crashed := false
  linuxCreds := args.creds
  guestRtSigactions := ∅
  guestRtSigmask := []
  guestPrctlName := args.prctlName
  guestPdeathsig := 0
  guestDumpable := 1
  stdinOffset := 0
  fdTable := args.fdTable
  host := args.host

/-- The same with its hooks; `answers` are the engine's. -/
def NewArgs.fresh (args : NewArgs) (answers : ℕ → Option UcError) : Instance where
  hooked := ⟨args.vk, .new, .new, ⟨[], 0, answers⟩⟩
  trapHooks := []
  exitTrapHook := none
  initialSp := 0
  skipExitCheck := false

/-- `ldr.run`. -/
def loaderRun (parse : List Char → Option Binary) : VkM U64 := do
  let vk ← get
  match vk.start.loader with
  | .raw => loaderBlobRun
  | .elf => loaderElfRun parse

/-- The rest of `Valkyrie::new`; the debug server is left out. -/
def valkyrieNew (parse : List Char → Option Binary)
    (showInstructions : Valkyrie → U64 → U32 → Valkyrie) (disassemble : Bool) :
    InstanceM Unit := do
  let _ ← onVk (loaderRun parse)
  modify fun s => { s with skipExitCheck := s.vk.cfg.os = .linux }
  if disassemble then
    let _ ← onHooks (enableInstructionTrace showInstructions .trace)
  return ()

/-! ## The set-up of a run -/

/-- The state of an execution is forgotten. -/
def Valkyrie.reset (vk : Valkyrie) : Valkyrie :=
  { vk with vstate := .notSet, exitStatus := none, crashed := false, stdinOffset := 0 }

/-- `reset_execution_state`. -/
def resetExecutionState : VkM Unit := modify Valkyrie.reset

/-- `install_syscall_hook` of `os/register_syscall.rs`. -/
def installSyscall (handler : Valkyrie → U64 → U32 → Valkyrie) : InstanceM Unit := do
  let s ← get
  if s.vk.cfg.os = .bareMetal then pure ()
  else
    let _ ← onHooks (installSyscallHook handler .syscall)
    return ()

/-- `uc.add_code_hook(trap_addr, trap_addr, ..)` with a callback that stops the engine. -/
def addTrapHook (trapAddr : U64) : InstanceM UcHookId := do
  let s ← get
  let uc := s.hooked.uc
  modify fun s => s.withHooked { s.hooked with uc := { uc with issued := uc.issued + 1 } }
  match uc.answers uc.issued with
  | some _ => throw (.unicornGeneralError "failed to install exit trap hook")
  | none =>
    modify fun s => { s with trapHooks := s.trapHooks ++ [(uc.issued, trapAddr)] }
    return uc.issued

/-- Where the exit trap goes: behind all regions. -/
def trapAddress (regions : List VMemRegion) : U64 :=
  match (regions.map VMemRegion.satEnd).max? with
  | some stop => alignUp (satAdd stop pageSize) pageSize
  | none => pageSize

/-- `setup_trap`. -/
def setupTrap : InstanceM Unit := do
  let s ← get
  if s.vk.exitTrapAddr.isSome then pure ()
  else if s.skipExitCheck then pure ()
  else
    let trapAddr := trapAddress s.vk.mem.regions
    onVk (memMap trapAddr pageSize .all "[Stop guard page]")
    let hookId ← addTrapHook trapAddr
    modify fun s => { s.withVk { s.vk with exitTrapAddr := some trapAddr } with
      exitTrapHook := some hookId }

/-- `write_exit_trap`. -/
def writeExitTrap : InstanceM Unit := do
  let s ← get
  if s.skipExitCheck then pure ()
  else
    match s.vk.exitTrapAddr with
    | none => throw (.unicornGeneralError "exit trap address not initialized")
    | some trapAddr =>
      let sp ← onVk (VRegs.getReg s.vk.cfg.arch.spReg)
      modify fun s => { s with initialSp := sp }
      onVk (memWrite sp (toLeBytes s.vk.cfg.arch.wordWidth trapAddr))

/-- `prepare_initial_run`. -/
def prepareInitialRun (handler : Valkyrie → U64 → U32 → Valkyrie) : InstanceM Unit := do
  onVk resetExecutionState
  installSyscall handler
  setupTrap
  writeExitTrap

/-- What `run` does before the engine starts: the initial run is prepared, then the operating system
prepares the execution. -/
def setUp (handler : Valkyrie → U64 → U32 → Valkyrie) : InstanceM (U64 × U64) := do
  prepareInitialRun handler
  onVk (modify fun vk => { vk with vstate := .running })
  onVk prepareExecution

end ValkyrieRs

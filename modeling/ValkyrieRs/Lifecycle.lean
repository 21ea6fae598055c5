import ValkyrieRs.Coverage
import ValkyrieRs.Run

/-!
# Running an emulator

`run` and `run_prepared` of `lib.rs` with the `run` of both operating systems, and the entry points
of `fuzzing.rs` that tell how a run ended.  What the engine does between `emu_start` and its return
is a parameter.
-/

namespace ValkyrieRs

open Proc

/-- An emulator with the fields that only `run_prepared` and `handle_unicorn_error` read. -/
structure Runner where
  inst : Instance
  softUnicornErrors : Bool
  preparedStart : Option U64
  preparedEnd : Option U64

/-- What leaves a function early: an error value, or a panic. -/
inductive Early where
  | error (e : ValkyrieError)
  | panic
deriving DecidableEq

/-- A function of a run, which may end early. -/
abbrev RunM := Proc Runner Early

/-- `uc.emu_start`: what the engine and the hooks do to the emulator from an address on, until the
engine stops or fails. -/
abbrev EmuStart := U64 → U64 → Proc Valkyrie UcError Unit

namespace Runner

/-- The emulator. -/
def vk (s : Runner) : Valkyrie := s.inst.vk

/-- The same run with another emulator. -/
def withVk (s : Runner) (vk : Valkyrie) : Runner := { s with inst := s.inst.withVk vk }

end Runner

/-- A function on the instance. -/
def onInstance {α : Type} (m : InstanceM α) : RunM α :=
  (m.zoom Runner.inst fun inst s => { s with inst }).mapError .error

/-- Change the emulator. -/
def modifyVk (f : Valkyrie → Valkyrie) : RunM Unit := modify fun s => s.withVk (f s.vk)

/-- The emulator is now doing this. -/
def setVstate (vstate : VState) : RunM Unit := modifyVk fun vk => { vk with vstate }

/-! ## `lib.rs` -/

/-- `handle_unicorn_error`; the report of the panic is left out. -/
def handleUnicornError (_err : UcError) : RunM Unit := do
  let s ← get
  if s.softUnicornErrors then
    modifyVk fun vk => { vk with crashed := true, vstate := .ended }
  else
    modifyVk fun vk => { vk with crashed := true }
    throw .panic

/-- `emu_start`, and what is done when it fails. -/
def emulate (emuStart : EmuStart) (start stop : U64) : RunM Unit := do
  let outcome ← ((emuStart start stop).attempt.zoom Runner.vk fun vk s => s.withVk vk).mapError
    fun _ => .panic
  match outcome with
  | .error err => handleUnicornError err
  | .ok () => pure ()
  setVstate .ended

/-- `VCoreOs::run`. -/
def osRun (emuStart : EmuStart) : RunM Unit := do
  setVstate .running
  let (start, stop) ← onInstance (onVk prepareExecution)
  emulate emuStart start stop

/-- `run_prepared`. -/
def runPrepared (emuStart : EmuStart) : RunM Unit := do
  let s ← get
  setVstate .running
  match s.preparedStart, s.preparedEnd with
  | some start, some stop => emulate emuStart start stop
  | _, _ => osRun emuStart

/-- `Valkyrie::run`. -/
def runVk (handler : Valkyrie → U64 → U32 → Valkyrie) (emuStart : EmuStart) : RunM Unit := do
  onInstance (prepareInitialRun handler)
  runPrepared emuStart

/-! ## `fuzzing.rs` -/

/-- `catch_unwind` around a run, and what is made of it. -/
def exitKind (body : RunM Unit) : RunM ExitKind := do
  match ← body.attempt with
  | .ok () =>
    let s ← get
    return if s.vk.crashed then .crash else .ok
  | .error (.error e) => throw (.error e)
  | .error .panic => return .crash

/-- `run_valkyrie`. -/
def runValkyrie (handler : Valkyrie → U64 → U32 → Valkyrie) (emuStart : EmuStart) : RunM ExitKind :=
  exitKind (runVk handler emuStart)

/-- `run_valkyrie_prepared`. -/
def runValkyriePrepared (emuStart : EmuStart) : RunM ExitKind := exitKind (runPrepared emuStart)

/-- `ReusableEmulator::new` without its coverage map. -/
def reusableNew (handler : Valkyrie → U64 → U32 → Valkyrie) : RunM EmulatorSnapshot := do
  modify fun s => { s with softUnicornErrors := true }
  onInstance (prepareInitialRun handler)
  let (start, stop) ← onInstance (onVk prepareExecution)
  modify fun s => { s with preparedStart := some start, preparedEnd := some stop }
  onInstance (onVk captureSnapshot)

/-- `ReusableEmulator::run_input` without its coverage map. -/
def runInputPrepared (snapshot : EmulatorSnapshot) (input : List U8) (emuStart : EmuStart) :
    RunM ExitKind := do
  onInstance (onVk (prepareInput snapshot input))
  runValkyriePrepared emuStart

end ValkyrieRs

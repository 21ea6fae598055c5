import ValkyrieRs.Fuzzing
import ValkyrieRs.Proof.HookRegistry

/-!
# Coverage maps

`fuzzing.rs`: the hooks on basic blocks that count into a coverage map, and the run of one input in
a reusable emulator.
-/

namespace ValkyrieRs

open Proc VCoreHooks

/-- `u8::saturating_add`. -/
def satAddU8 (a b : U8) : U8 := if a.toNat + b.toNat < 2 ^ 8 then a + b else 255

namespace CoverageMapRef

/-- `cur_loc` of the hooks. -/
def curLoc (state : CoverageMapRef) (addr : U64) : ℕ := (addr >>> 4).toNat % state.coverage.length

/-- `idx` of the hooks. -/
def idx (state : CoverageMapRef) (addr : U64) : ℕ :=
  (state.curLoc addr ^^^ state.prevLoc) % state.coverage.length

/-- What the hooks do at a block. -/
def record (state : CoverageMapRef) (addr : U64) : CoverageMapRef where
  coverage := state.coverage.modify (state.idx addr) (satAddU8 · 1)
  prevLoc := state.curLoc addr >>> 1

end CoverageMapRef

/-! ## A hook with a map of its own -/

/-- The map without a block. -/
def clearCoverage (coverage : List U8) : List U8 := List.replicate coverage.length 0

/-- The closure of `install_block_coverage`. -/
def blockCoverage (vk : Valkyrie) (addr : U64) (_size : U32) (state : CoverageMapRef) :
    Answer Valkyrie CoverageMapRef :=
  (none, vk, state.record addr)

/-- `install_block_coverage`. -/
def installBlockCoverage (coverage : List U8) : HookM Valkyrie CoverageMapRef Unit :=
  if coverage.isEmpty then throw (.badConfig "coverage map must be non-empty")
  else do
    let _ ← hookBlock blockCoverage ⟨clearCoverage coverage, 0⟩ 1 0
    return ()

/-! ## A hook with a shared map -/

/-- A pointer to the coverage state of the reusable emulator. -/
inductive SharedCoverageHandle where
  | state
deriving DecidableEq

/-- The closure of `install_shared_block_coverage`. -/
def sharedBlockCoverage (emu : ReusableEmulator) (addr : U64) (_size : U32)
    (handle : SharedCoverageHandle) : Answer ReusableEmulator SharedCoverageHandle :=
  (none, { emu with coverageState := emu.coverageState.record addr }, handle)

/-- A function on a reusable emulator and the hooks of its engine. -/
abbrev ReusableM := Proc (Hooked ReusableEmulator SharedCoverageHandle) ValkyrieError

/-- Change the map. -/
def modifyCoverage (f : CoverageMapRef → CoverageMapRef) : ReusableM Unit :=
  modify fun s => { s with ctx.coverageState := f s.ctx.coverageState }

/-- `install_shared_block_coverage`. -/
def installSharedBlockCoverage : ReusableM Unit := do
  let s ← get
  if s.ctx.coverageState.coverage.length = 0 then
    throw (.badConfig "coverage map must be non-empty")
  else
    modifyCoverage clearCoverageMap
    let _ ← onRegistry (hookBlock sharedBlockCoverage .state 1 0)
    return ()

/-! ## Runs -/

/-- What the engine does: it enters a basic block, or does anything else to the emulator. -/
inductive GuestEvent where
  | block (addr : U64) (size : U32)
  | other (f : Valkyrie → Valkyrie)

/-- The effect of an event, where the emulator is a part of the context. -/
def GuestEvent.exec {C U : Type} (onVk : (Valkyrie → Valkyrie) → C → C) :
    GuestEvent → Proc (Hooked C U) ValkyrieError Unit
  | block addr size => dispatchEvent (.common .block (.trace addr size))
  | other f => modify fun s => { s with ctx := onVk f s.ctx }

/-- Change the emulator. -/
def ReusableEmulator.onVk (f : Valkyrie → Valkyrie) (emu : ReusableEmulator) : ReusableEmulator :=
  { emu with vk := f emu.vk }

/-- `ExitKind`. -/
inductive ExitKind where
  | ok
  | crash
deriving DecidableEq

/-- `ReusableEmulator::run_input`; `events` are what the engine does until it stops, and `outcome`
is what `run_valkyrie_prepared` returns then. -/
def runInput (input : List U8) (events : List GuestEvent) (outcome : Except ValkyrieError ExitKind) :
    ReusableM ExitKind := do
  let s ← get
  (prepareInput s.ctx.snapshot input).zoom (·.ctx.vk) fun vk s => { s with ctx.vk := vk }
  modifyCoverage clearCoverageMap
  events.forM (GuestEvent.exec ReusableEmulator.onVk)
  ofExcept outcome

end ValkyrieRs

import Mathlib.Data.List.Sort
import ValkyrieRs.State

/-!
# Snapshots and repeated fuzzing runs

`fuzzing.rs`: the snapshot that a reusable emulator takes once and the restore that it makes before
every input.
-/

namespace ValkyrieRs

open Proc

/-- The bytes of a writable region. -/
structure WritableRegionSnapshot where
  start : U64
  data : List U8
deriving DecidableEq

/-- `context` holds the registers. -/
structure EmulatorSnapshot where
  context : VRegister → U64
  regions : List VMemRegion
  writableRegions : List WritableRegionSnapshot
  linuxCreds : LinuxCreds
  guestRtSigactions : AList fun _ : U32 => List U8
  guestRtSigmask : List U8
  guestPrctlName : Vector U8 16
  guestPdeathsig : U32
  guestDumpable : U32

/-- `CoverageMapRef`, with the coverage map itself. -/
structure CoverageMapRef where
  coverage : List U8
  prevLoc : ℕ
deriving DecidableEq

/-- An emulator with its snapshot and its coverage map. -/
structure ReusableEmulator where
  vk : Valkyrie
  snapshot : EmulatorSnapshot
  coverageState : CoverageMapRef

/-- `uc.f(..).map_err(|_| UnicornGeneralError(text))?`. -/
def ucCheck (text : String) (call : Unicorn → Except UcError Unicorn) : VkM Unit := do
  match ← (ucCall call).attempt with
  | .error _ => throw (.unicornGeneralError text)
  | .ok () => pure ()

/-! ## The layout -/

/-- The pieces of one pending segment outside a snapshot region. -/
def cutCoverage (region : VMemRegion) (segment : U64 × U64) : List (U64 × U64) :=
  if region.satEnd ≤ segment.1 ∨ region.start ≥ segment.2 then [segment]
  else
    (if segment.1 < region.start then [(segment.1, region.start)] else []) ++
    (if region.satEnd < segment.2 then [(region.satEnd, segment.2)] else [])

/-- The loop of `subtract_snapshot_coverage`, which stops early when nothing is pending. -/
def subtractLoop : List VMemRegion → List (U64 × U64) → List (U64 × U64)
  | [], pending => pending
  | region :: rest, pending =>
    let next := pending.flatMap (cutCoverage region)
    if next.isEmpty then next else subtractLoop rest next

/-- `subtract_snapshot_coverage`: the pieces of a region outside the snapshot, with their sizes. -/
def subtractSnapshotCoverage (start size : U64) (snapshotRegions : List VMemRegion) :
    List (U64 × U64) :=
  (subtractLoop snapshotRegions [(start, satAdd start size)]).filterMap fun segment =>
    let size := satSub segment.2 segment.1
    if size = 0 then none else some (segment.1, size)

/-- The loop of `is_range_mapped` over the sorted regions. -/
def coverLoop (stop : U64) : List VMemRegion → U64 → Bool
  | [], cursor => cursor ≥ stop
  | region :: rest, cursor =>
    if region.satEnd ≤ cursor then coverLoop stop rest cursor
    else if region.start > cursor then false
    else if min region.satEnd stop ≥ stop then true
    else coverLoop stop rest (min region.satEnd stop)

/-- `is_range_mapped`: the regions cover the range without a gap. -/
def isRangeMapped (regions : List VMemRegion) (start size : U64) : Bool :=
  coverLoop (satAdd start size) (regions.insertionSort fun a b => a.start ≤ b.start) start

/-- Unmap one piece of a current region. -/
def dropPiece (piece : U64 × U64) : VkM Unit := do
  ucCheck "mem_unmap failed" fun uc => uc.memUnmap piece.1 piece.2
  modify fun vk => vk.withMem (vk.mem.removeRange piece.1 piece.2) vk.uc

/-- Map or re-protect one snapshot region. -/
def bringBack (region : VMemRegion) : VkM Unit := do
  let vk ← get
  if isRangeMapped vk.mem.regions region.start region.size = false then
    ucCheck "mem_map failed" fun uc => uc.memMap region.start region.size region.prot
  else
    ucCheck "mem_protect failed" fun uc => uc.memProtect region.start region.size region.prot

/-- `restore_memory_layout`: drop what is new, then bring back each region. -/
def restoreMemoryLayout (snapshotRegions : List VMemRegion) : VkM Unit := do
  let vk ← get
  vk.mem.regions.forM fun region =>
    (subtractSnapshotCoverage region.start region.size snapshotRegions).forM dropPiece
  snapshotRegions.forM bringBack
  modify fun vk => vk.withMem { vk.mem with regions := snapshotRegions } vk.uc

/-! ## Capture and restore -/

/-- `read_region_snapshot`: a region that cannot be read is made readable for the while. -/
def readRegionSnapshot (start size : U64) (prot : Prot) : VkM (List U8) := do
  if prot.read then
    memRead start size.toNat
  else
    ucCheck "mem_protect failed" fun uc => uc.memProtect start size prot.withRead
    let data ← (memRead start size.toNat).attempt
    ucCheck "mem_protect failed" fun uc => uc.memProtect start size prot
    ofExcept data

/-- `capture_snapshot`. -/
def captureSnapshot : VkM EmulatorSnapshot := do
  let vk ← get
  let context := vk.uc.reg
  let writableRegions ← (vk.mem.regions.filter (·.prot.write)).mapM fun region => do
    let data ← readRegionSnapshot region.start region.size region.prot
    pure ({ start := region.start, data } : WritableRegionSnapshot)
  let vk ← get
  return {
    context
    regions := vk.mem.regions
    writableRegions
    linuxCreds := vk.linuxCreds
    guestRtSigactions := vk.guestRtSigactions
    guestRtSigmask := vk.guestRtSigmask
    guestPrctlName := vk.guestPrctlName
    guestPdeathsig := vk.guestPdeathsig
    guestDumpable := vk.guestDumpable }

/-- The fields that `restore_snapshot` takes from the snapshot. -/
def Valkyrie.withSnapshot (vk : Valkyrie) (snapshot : EmulatorSnapshot) : Valkyrie :=
  { vk with
    uc := { vk.uc with reg := snapshot.context }
    linuxCreds := snapshot.linuxCreds
    guestRtSigactions := snapshot.guestRtSigactions
    guestRtSigmask := snapshot.guestRtSigmask
    guestPrctlName := snapshot.guestPrctlName
    guestPdeathsig := snapshot.guestPdeathsig
    guestDumpable := snapshot.guestDumpable }

/-- `restore_snapshot`. -/
def restoreSnapshot (snapshot : EmulatorSnapshot) : VkM Unit := do
  restoreMemoryLayout snapshot.regions
  snapshot.writableRegions.forM fun region => memWrite region.start region.data
  modify fun vk => vk.withSnapshot snapshot

/-! ## `lib.rs` -/

/-- The standard input of the next run. -/
def Valkyrie.setStdinBytes (vk : Valkyrie) (value : List U8) : Valkyrie :=
  { vk with cfg.stdinData := value, stdinOffset := 0 }

/-- What the last run left of its end is forgotten. -/
def Valkyrie.resetExecutionState (vk : Valkyrie) : Valkyrie :=
  { vk with vstate := .notSet, exitStatus := none, crashed := false, stdinOffset := 0 }

/-! ## One input -/

/-- The map of the last input is cleared. -/
def clearCoverageMap (state : CoverageMapRef) : CoverageMapRef :=
  if state.coverage.length = 0 then state
  else ⟨List.replicate state.coverage.length 0, 0⟩

/-- `ReusableEmulator::run_input` up to the start of the guest. -/
def prepareInput (snapshot : EmulatorSnapshot) (input : List U8) : VkM Unit := do
  restoreSnapshot snapshot
  modify fun vk => (vk.setStdinBytes input).resetExecutionState

end ValkyrieRs

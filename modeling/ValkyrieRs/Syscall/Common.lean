import ValkyrieRs.State

/-!
# Process and signal system calls

The handlers of `os/syscall/common.rs` that change the emulator's own state.
-/

namespace ValkyrieRs

open Proc

/-! ## Exit -/

/-- The guest ends with a status. -/
def sysExit (sctx : SubCtx) : VkM U64 := do
  modify fun vk => { vk with
    exitStatus := some sctx.arg0
    vstate := .ended
    uc := vk.uc.emuStop }
  return 0

/-- All threads end. -/
def sysExitGroup (sctx : SubCtx) : VkM U64 := sysExit sctx

/-! ## Signals -/

/-- `rt_sigaction_size`. -/
def rtSigactionSize (arch : Arch) (sigsetsize : U64) : Option U64 :=
  if sigsetsize = 0 then none
  else match arch with
    | .x86_64 => some (24 + sigsetsize)
    | .x86 => some (12 + sigsetsize)

/-- `resize_sigmask`, without its allocation. -/
def resizeSigmask (mask : List U8) (size : ℕ) : List U8 :=
  mask.take size ++ List.replicate (size - mask.length) 0

/-- The old action is told, and the new one kept. -/
def sysRtSigaction (sctx : SubCtx) : VkM U64 := do
  let signum := sctx.arg0.setWidth 32
  let actAddr := sctx.arg1
  let oldactAddr := sctx.arg2
  let sigsetsize := sctx.arg3
  if signum.toInt ≤ 0 then
    return negErrno EINVAL
  let vk ← get
  match rtSigactionSize vk.cfg.arch sigsetsize with
  | none => return negErrno EINVAL
  | some actionSize =>
    if oldactAddr ≠ 0 then
      match vk.guestRtSigactions.lookup signum with
      | some oldact => memWrite oldactAddr oldact
      | none =>
        hostAlloc actionSize.toNat
        memWrite oldactAddr (List.replicate actionSize.toNat 0)
    if actAddr ≠ 0 then
      let action ← memRead actAddr actionSize.toNat
      modify fun vk => { vk with guestRtSigactions := vk.guestRtSigactions.insert signum action }
    return 0

/-- The new mask, unless `how` is unknown. -/
def mergeSigmask (how : U32) (current new : List U8) : Option (List U8) :=
  if how = sigBlock then some (current.zipWith (· ||| ·) new)
  else if how = sigUnblock then some (current.zipWith (fun dst src => dst &&& ~~~src) new)
  else if how = sigSetmask then some new
  else none

/-- The old mask is told, and the new one kept. -/
def sysRtSigprocmask (sctx : SubCtx) : VkM U64 := do
  let how := sctx.arg0.setWidth 32
  let setAddr := sctx.arg1
  let oldsetAddr := sctx.arg2
  let sigsetsize := sctx.arg3
  if sigsetsize = 0 then
    return negErrno EINVAL
  hostAlloc sigsetsize.toNat
  let vk ← get
  let currentMask := resizeSigmask vk.guestRtSigmask sigsetsize.toNat
  if oldsetAddr ≠ 0 then
    memWrite oldsetAddr currentMask
  if setAddr = 0 then
    return 0
  let newMask ← memRead setAddr sigsetsize.toNat
  match mergeSigmask how currentMask newMask with
  | none => return negErrno EINVAL
  | some merged =>
    modify fun vk => { vk with guestRtSigmask := merged }
    return 0

/-! ## `prctl` -/

/-- The name kept of the bytes read: up to the first zero, at most 15 bytes. -/
def prctlName (bytes : List U8) : Vector U8 16 :=
  let len := min ((bytes.findIdx? (· == 0)).getD bytes.length) 15
  Vector.ofFn fun i => if i < len then bytes.getD i 0 else 0

/-- The settings of the process that are modelled. -/
def sysPrctl (sctx : SubCtx) : VkM U64 := do
  let option := sctx.arg0.setWidth 32
  let arg2 := sctx.arg1
  let vk ← get
  if option = prSetName then
    if arg2 = 0 then
      return negErrno EFAULT
    let bytes ← memRead arg2 16
    modify fun vk => { vk with guestPrctlName := prctlName bytes }
    return 0
  else if option = prGetName then
    if arg2 = 0 then
      return negErrno EFAULT
    memWrite arg2 vk.guestPrctlName.toList
    return 0
  else if option = prSetPdeathsig then
    modify fun vk => { vk with guestPdeathsig := arg2.setWidth 32 }
    return 0
  else if option = prGetPdeathsig then
    if arg2 = 0 then
      return negErrno EFAULT
    memWrite arg2 (toLeBytes 4 vk.guestPdeathsig)
    return 0
  else if option = prSetDumpable then
    modify fun vk => { vk with guestDumpable := arg2.setWidth 32 }
    return 0
  else if option = prGetDumpable then
    return vk.guestDumpable.signExtend 64
  else if option = prCapbsetRead then
    match ← hostCall fun h => h.prctl option arg2 with
    | .error _ => lastErrno
    | .ok ret => return ret.signExtend 64
  else
    return negErrno EINVAL

end ValkyrieRs

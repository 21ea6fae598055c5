import ValkyrieRs.Services
import ValkyrieRs.Syscall.Fd
import ValkyrieRs.Syscall.Stat

/-!
# Waiting for events

The handlers of `os/syscall/io.rs` for `poll`, `epoll` and timers, `_llseek` and `futex`, with the
structures that they read from the guest and store there.
-/

namespace ValkyrieRs

open Proc

/-! ## `_llseek` -/

/-- The offset comes in two halves, and the position is stored. -/
def sysLlseek (sctx : SubCtx) : VkM U64 := do
  let fd := sctx.arg0
  let offsetHigh := sctx.arg1
  let offsetLow := sctx.arg2
  let resultAddr := sctx.arg3
  let whence := sctx.arg4.setWidth 32
  if resultAddr = 0 then
    return negErrno EFAULT
  let offset := (offsetHigh <<< 32) ||| offsetLow
  match ← seekFd fd offset whence with
  | .ok pos =>
    memWrite resultAddr (toLeBytes 8 pos)
    return 0
  | .error errno => return negErrno errno

/-! ## `poll` -/

namespace PollFd

/-- The entry that the guest stored. -/
def ofBytes (bytes : List U8) : PollFd where
  fd := (leAt bytes 0 4).setWidth 32
  events := (leAt bytes 4 2).setWidth 16
  revents := (leAt bytes 6 2).setWidth 16

/-- The memory of the entry. -/
def toBytes (p : PollFd) : List U8 :=
  toLeBytes 4 p.fd ++ toLeBytes 2 p.events ++ toLeBytes 2 p.revents

end PollFd

/-- The size of the array is a wrapping product, the vector's own size is not. -/
def readPollfds (addr nfds : U64) : VkM (List PollFd) := do
  let bytes ← memRead addr (nfds * 8).toNat
  hostAlloc (nfds.toNat * 8)
  return (List.range nfds.toNat).map fun i => PollFd.ofBytes (bytes.drop (8 * i))

/-- The whole array is stored back. -/
def writePollfds (addr : U64) (pollfds : List PollFd) : VkM Unit :=
  memWrite addr (pollfds.flatMap PollFd.toBytes)

/-- The entries with the events that the host tells. -/
def setRevents (pollfds : List PollFd) (revents : ℕ → U16) : List PollFd :=
  pollfds.mapIdx fun i p => { p with revents := revents i }

/-- The host polls for the guest; a null array is refused only when it has entries. -/
def sysPoll (sv : Services) (sctx : SubCtx) : VkM U64 := do
  let fdsAddr := sctx.arg0
  let nfds := sctx.arg1
  let timeout := sctx.arg2.setWidth 32
  if 0 < nfds ∧ fdsAddr = 0 then
    return negErrno EFAULT
  let pollfds ← if nfds = 0 then pure [] else readPollfds fdsAddr nfds
  match ← service (sv.poll pollfds timeout) with
  | .error _ => lastErrno
  | .ok (rc, revents) =>
    if 0 < nfds then
      writePollfds fdsAddr (setRevents pollfds revents)
    return rc.signExtend 64

/-! ## `epoll` -/

namespace EpollEvent

/-- The structure is packed. -/
def ofBytes (bytes : List U8) : EpollEvent where
  events := (leAt bytes 0 4).setWidth 32
  data := leAt bytes 4 8

/-- The memory of the event. -/
def toBytes (event : EpollEvent) : List U8 := toLeBytes 4 event.events ++ toLeBytes 8 event.data

end EpollEvent

/-- `epoll_event_size`. -/
def epollEventSize : ℕ := 12

/-- The event that the guest stored. -/
def readEpollEvent (addr : U64) : VkM EpollEvent := do
  let bytes ← memRead addr epollEventSize
  return .ofBytes bytes

/-- The events are stored one behind the other. -/
def writeEpollEvents (addr : U64) (events : List EpollEvent) : VkM Unit :=
  memWrite addr (events.flatMap EpollEvent.toBytes)

/-- A null event is passed on as none. -/
def sysEpollCtl (sv : Services) (sctx : SubCtx) : VkM U64 := do
  let epfd := sctx.arg0.setWidth 32
  let op := sctx.arg1.setWidth 32
  let fd := sctx.arg2.setWidth 32
  let eventAddr := sctx.arg3
  let event ← if eventAddr ≠ 0 then do
      let event ← readEpollEvent eventAddr
      pure (some event)
    else pure none
  match ← service (sv.epollCtl epfd op fd event) with
  | .error _ => lastErrno
  | .ok () => return 0

/-- More events than there is room for are a panic where the events are cut. -/
def sysEpollWait (sv : Services) (sctx : SubCtx) : VkM U64 := do
  let epfd := sctx.arg0.setWidth 32
  let eventsAddr := sctx.arg1
  let maxevents : U32 := sctx.arg2.setWidth 32
  let timeout := sctx.arg3.setWidth 32
  if eventsAddr = 0 ∨ maxevents.toInt ≤ 0 then
    return negErrno EINVAL
  hostAlloc (12 * maxevents.toNat)
  match ← service (sv.epollWait epfd maxevents timeout) with
  | .error _ => lastErrno
  | .ok events =>
    if events ≠ [] then
      if maxevents.toNat < events.length then
        diverge
      writeEpollEvents eventsAddr events
    return BitVec.ofNat 64 events.length

/-! ## Timers -/

/-- The interval and the value, in words of the guest. -/
def readGuestItimerspec (addr : U64) : VkM Itimerspec := do
  let width := BitVec.ofNat 64 (guestWordWidth (← get))
  let itInterval ← readGuestTimespec addr
  let itValue ← readGuestTimespec (addr + 2 * width)
  return { itInterval, itValue }

/-- The interval and the value are stored in words of the guest. -/
def writeGuestItimerspec (addr : U64) (spec : Itimerspec) : VkM Unit := do
  let width := BitVec.ofNat 64 (guestWordWidth (← get))
  writeGuestTimespec addr spec.itInterval
  writeGuestTimespec (addr + 2 * width) spec.itValue

/-- A timer is set, and the old setting is stored unless its address is null. -/
def sysTimerfdSettime (sv : Services) (sctx : SubCtx) : VkM U64 := do
  let fd := sctx.arg0.setWidth 32
  let flags := sctx.arg1.setWidth 32
  let newValueAddr := sctx.arg2
  let oldValueAddr := sctx.arg3
  if newValueAddr = 0 then
    return negErrno EFAULT
  let newValue ← readGuestItimerspec newValueAddr
  match ← service (sv.timerfdSettime fd flags newValue) with
  | .error _ => lastErrno
  | .ok oldValue =>
    if oldValueAddr ≠ 0 then
      writeGuestItimerspec oldValueAddr oldValue
    return 0

/-! ## `futex` -/

/-- Try again. -/
def EAGAIN : U32 := 11

/-- `FUTEX_WAIT`. -/
def futexWait : U32 := 0

/-- `FUTEX_WAKE`. -/
def futexWake : U32 := 1

/-- `FUTEX_REQUEUE`. -/
def futexRequeue : U32 := 3

/-- `FUTEX_WAIT_BITSET`. -/
def futexWaitBitset : U32 := 9

/-- `FUTEX_WAKE_BITSET`. -/
def futexWakeBitset : U32 := 10

/-- All bits but `FUTEX_PRIVATE_FLAG` and `FUTEX_CLOCK_REALTIME`. -/
def futexCmdMask : U32 := ~~~(128 ||| 256)

/-- Nobody waits and nobody is woken: only the value is compared. -/
def sysFutex (sctx : SubCtx) : VkM U64 := do
  let uaddr := sctx.arg0
  let futexOp : U32 := sctx.arg1.setWidth 32
  let val : U32 := sctx.arg2.setWidth 32
  if uaddr = 0 then
    return negErrno EFAULT
  let bytes ← memRead uaddr 4
  let current : U32 := (fromLeBytes bytes).setWidth 32
  let op := futexOp &&& futexCmdMask
  if op = futexWait ∨ op = futexWaitBitset then
    if current ≠ val then
      return negErrno EAGAIN
    return 0
  else if op = futexWake ∨ op = futexWakeBitset ∨ op = futexRequeue then
    return 0
  else
    return negErrno ENOSYS

end ValkyrieRs

import ValkyrieRs.Syscall.Io
import ValkyrieRs.Syscall.Memory

/-!
# Calls on descriptors

The handlers of `os/syscall/io.rs` and `os/syscall/network.rs` that take or hand out a descriptor
and that `Syscall.Io` does not hold.
-/

namespace ValkyrieRs

open Proc

/-- `host_fd_for_guest`. -/
def hostFdForGuest (table : FdTable) (fd : U64) : Option U32 :=
  if fd ≤ 2 then some (fd.setWidth 32) else (table.lookup fd).map (·.file)

/-- The host descriptor of a number that need not be in the table. -/
def tableOrRaw (table : FdTable) (fd : U64) : U32 :=
  match table.lookup fd with
  | some vkf => vkf.file
  | none => fd.setWidth 32

/-! ## Reading, writing and seeking -/

/-- Bytes are read at an offset, and stored. -/
def sysPread64 (sctx : SubCtx) : VkM U64 := do
  let vk ← get
  let fd := sctx.arg0
  let bufAddr := sctx.arg1
  let count := sctx.arg2
  let offset := match vk.cfg.arch with
    | .x86 => sctx.arg3 ||| (sctx.arg4 <<< 32)
    | .x86_64 => sctx.arg3
  if count = 0 then
    return 0
  hostAlloc count.toNat
  let bytesRead : Except U64 (List U8) ← match vk.fdTable.lookup fd with
    | some vkf => do
      match ← hostCall fun h => h.dup vkf.file with
      | .error _ => pure (.error (negErrno EIO))
      | .ok file => withFile file do
        match ← hostCall fun h => h.seek file offset.toNat with
        | .error _ => return .error (negErrno EIO)
        | .ok () =>
          match ← hostCall fun h => h.read file count.toNat with
          | .error _ => return .error (← lastErrno)
          | .ok bytes => return .ok bytes
    | none => do
      match ← hostCall fun h => h.pread (fd.setWidth 32) count.toNat offset with
      | .error _ => pure (.error (← lastErrno))
      | .ok bytes => pure (.ok bytes)
  match bytesRead with
  | .error errno => return errno
  | .ok bytes =>
    if bytes ≠ [] then
      memWrite bufAddr bytes
    return BitVec.ofNat 64 bytes.length

/-- Bytes of the guest are written. -/
def sysWrite (sctx : SubCtx) : VkM U64 := do
  let fd := sctx.arg0
  let bufAddr := sctx.arg1
  let count := sctx.arg2
  if count = 0 then
    return 0
  let buffer ← memRead bufAddr count.toNat
  let vk ← get
  let bytesWritten ← hostCall fun h =>
    if fd = 1 then h.writeStdout buffer
    else if fd = 2 then h.writeStderr buffer
    else h.write (tableOrRaw vk.fdTable fd) buffer
  match bytesWritten with
  | .error _ => lastErrno
  | .ok n => return BitVec.ofNat 64 n

/-- `seek_fd`. -/
def seekFd (fd offset : U64) (whence : U32) : VkM (Except U32 U64) := do
  let vk ← get
  if fd ≤ 2 then
    hostCall fun h => h.lseek (fd.setWidth 32) offset whence
  else
    match vk.fdTable.lookup fd with
    | some vkf =>
      if whence = seekSet ∨ whence = seekCur ∨ whence = seekEnd then
        hostCall fun h => h.lseek vkf.file offset whence
      else
        return .error EINVAL
    | none => hostCall fun h => h.lseek (fd.setWidth 32) offset whence

/-- The position of a file is moved. -/
def sysLseek (sctx : SubCtx) : VkM U64 := do
  match ← seekFd sctx.arg0 sctx.arg1 (sctx.arg2.setWidth 32) with
  | .ok pos => return pos
  | .error errno => return negErrno errno

/-! ## Control -/

/-- A duplicate is recorded in the table; all else is passed on. -/
def sysFcntl (sctx : SubCtx) : VkM U64 := do
  let fd := sctx.arg0.setWidth 32
  let cmd := sctx.arg1.setWidth 32
  let arg := sctx.arg2.setWidth 32
  if fd.toInt < 0 then
    return negErrno EBADF
  match ← hostCall fun h => h.fcntl fd cmd arg with
  | .error _ => lastErrno
  | .ok ret =>
    if cmd = fSetfl ∧ 2 < fd.toInt then
      let vk ← get
      match vk.fdTable.lookup (fd.signExtend 64) with
      | none => pure ()
      | some vkf =>
        modify fun vk => { vk with
          fdTable := vk.fdTable.insert (fd.signExtend 64) { vkf with flags := arg.signExtend 64 } }
    return ret.signExtend 64

/-- `ioctl_request_size`. -/
def ioctlRequestSize (request : U64) : ℕ := ((request >>> 16) &&& 0x3FFF).toNat

/-- `ioctl_request_dir`. -/
def ioctlRequestDir (request : U64) : U64 := (request >>> 30) &&& 3

/-- A request with an argument in memory; `store` if the guest gets the argument back. -/
def ioctlBuffer (hostFd : U32) (request arg : U64) (buffer : List U8) (store : Bool) : VkM U64 := do
  match ← hostCall fun h => h.ioctl hostFd request buffer with
  | .error _ => lastErrno
  | .ok (ret, buffer) =>
    if store then
      memWrite arg buffer
    return ret.signExtend 64

/-- The requests that are known, and those whose number tells the size of their argument. -/
def sysIoctl (sctx : SubCtx) : VkM U64 := do
  let fd := sctx.arg0.setWidth 32
  let request := sctx.arg1
  let arg := sctx.arg2
  if fd.toInt < 0 then
    return negErrno EBADF
  let vk ← get
  match hostFdForGuest vk.fdTable (fd.signExtend 64) with
  | none => return negErrno EBADF
  | some hostFd =>
    if request ∈ [fionbio, fionread, tiocinq, tiocoutq] then
      if arg = 0 then
        return negErrno EFAULT
      let value ← if request = fionbio then memRead arg 4 else pure (List.replicate 4 0)
      ioctlBuffer hostFd request arg value true
    else if request = tiocgwinsz then
      if arg = 0 then
        return negErrno EFAULT
      ioctlBuffer hostFd request arg (List.replicate 8 0) true
    else
      let size := ioctlRequestSize request
      if size = 0 then
        match ← hostCall fun h => h.ioctl hostFd request (toLeBytes 8 arg) with
        | .error _ => lastErrno
        | .ok (ret, _) => return ret.signExtend 64
      else if arg = 0 then
        return negErrno EFAULT
      else
        let direction := ioctlRequestDir request
        let buffer ← if direction &&& 1 ≠ 0 then memRead arg size else pure (List.replicate size 0)
        ioctlBuffer hostFd request arg buffer (direction &&& 2 ≠ 0)

/-- The entries of a directory are stored. -/
def sysGetdents64 (sctx : SubCtx) : VkM U64 := do
  let fd := sctx.arg0.setWidth 32
  let dirp := sctx.arg1
  let count := sctx.arg2
  if count = 0 then
    return 0
  if fd.toInt < 0 then
    return negErrno EBADF
  let vk ← get
  match hostFdForGuest vk.fdTable (fd.signExtend 64) with
  | none => return negErrno EBADF
  | some hostFd =>
    hostAlloc count.toNat
    match ← hostCall fun h => h.getdents64 hostFd count.toNat with
    | .error _ => lastErrno
    | .ok bytes =>
      if bytes = [] then
        return 0
      memWrite dirp bytes
      return BitVec.ofNat 64 bytes.length

/-- Advice is passed on. -/
def sysFadvise64 (sctx : SubCtx) : VkM U64 := do
  let fd := sctx.arg0.setWidth 32
  if fd.toInt < 0 then
    return negErrno EBADF
  let vk ← get
  let offset := match vk.cfg.arch with
    | .x86_64 => sctx.arg1
    | .x86 => (sctx.arg1 &&& 0xFFFFFFFF) ||| (sctx.arg2 <<< 32)
  let len := match vk.cfg.arch with
    | .x86_64 => sctx.arg2
    | .x86 => sctx.arg3
  let advice := match vk.cfg.arch with
    | .x86_64 => sctx.arg3.setWidth 32
    | .x86 => sctx.arg4.setWidth 32
  match hostFdForGuest vk.fdTable (fd.signExtend 64) with
  | none => return negErrno EBADF
  | some hostFd =>
    match ← hostCall fun h => h.fadvise hostFd offset len advice with
    | .error rc => return negErrno rc
    | .ok () => return 0

/-! ## New descriptors -/

/-- A call that hands a new host descriptor to the guest without recording it. -/
def handOut (call : Host → Except U32 U32 × Host) : VkM U64 := do
  match ← hostCall call with
  | .error _ => lastErrno
  | .ok fd => return fd.signExtend 64

/-- A new descriptor for events. -/
def sysEpollCreate1 (sctx : SubCtx) : VkM U64 :=
  handOut fun h => h.epollCreate1 (sctx.arg0.setWidth 32)

/-- A new descriptor for a timer. -/
def sysTimerfdCreate (sctx : SubCtx) : VkM U64 :=
  handOut fun h => h.timerfdCreate (sctx.arg0.setWidth 32) (sctx.arg1.setWidth 32)

/-- A new socket. -/
def sysSocket (sctx : SubCtx) : VkM U64 :=
  handOut fun h =>
    h.socket (sctx.arg0.setWidth 32) (sctx.arg1.setWidth 32) (sctx.arg2.setWidth 32)

/-- Two connected sockets, whose numbers are stored. -/
def sysSocketpair (sctx : SubCtx) : VkM U64 := do
  let svAddr := sctx.arg3
  if svAddr = 0 then
    return negErrno EFAULT
  let rc ← hostCall fun h =>
    h.socketpair (sctx.arg0.setWidth 32) (sctx.arg1.setWidth 32) (sctx.arg2.setWidth 32)
  match rc with
  | .error _ => lastErrno
  | .ok (first, second) =>
    memWrite svAddr (toLeBytes 4 first)
    memWrite (svAddr + 4) (toLeBytes 4 second)
    return 0

end ValkyrieRs

import ValkyrieRs.State

/-!
# File system calls

The handlers of `os/syscall/io.rs` that work on the table of guest descriptors, and `read`.
-/

namespace ValkyrieRs

open Proc

/-! ## Helpers -/

/-- The loop of `read_guest_cstring`: at most `n` bytes, up to the first zero. -/
def readCstringLoop (addr : U64) : ℕ → VkM (List U8)
  | 0 => pure []
  | n + 1 => do
    let byte ← memRead addr 1
    if byte.head? = some 0 then
      return []
    let rest ← readCstringLoop (addr + 1) n
    return byte ++ rest

/-- `read_guest_cstring`: a string up to its zero byte. -/
def readGuestCstring (addr : U64) : VkM (List Char) := do
  let bytes ← readCstringLoop addr maxPathLen
  return fromUtf8Lossy bytes

/-- `table.files.insert(fd, ..)`; a file replaced in the table is closed. -/
def insertFile (fd : U64) (vkf : VkFile) : VkM Unit := do
  let vk ← get
  modify fun vk => { vk with fdTable := vk.fdTable.insert fd vkf }
  match vk.fdTable.lookup fd with
  | none => pure ()
  | some old =>
    let _ ← hostCall fun h => h.close old.file

/-- The host path of a guest path; a host without a current directory is a panic. -/
def guestPathAt (dirfd : U32) (path : List Char) : VkM (Option (List Char)) := do
  let vk ← get
  ofOption (getPathAt vk.cfg.rootfs vk.host.cwd vk.fdTable dirfd path)

/-- `add_file_entry`, which owns the file and closes it when it fails. -/
def addFileEntry (targetFd : U64) (file : VkFile) (safe : Bool) : VkM Unit := do
  let vk ← get
  if safe ∧ (targetFd ≤ 2 ∨ targetFd ∈ vk.fdTable) then
    let _ ← hostCall fun h => h.close file.file
    throw (.fsError (.fileAlreadyHasFd targetFd))
  insertFile targetFd file

/-- `rm_file_entry`. -/
def rmFileEntry (targetFd : U64) : VkM Unit := do
  if targetFd ≤ 2 then
    throw (.fsError (.noFileAtFd targetFd))
  let vk ← get
  match vk.fdTable.lookup targetFd with
  | none => throw (.fsError (.noFileAtFd targetFd))
  | some vkf =>
    modify fun vk => { vk with fdTable := vk.fdTable.erase targetFd }
    let _ ← hostCall fun h => h.close vkf.file

/-! ## Handlers -/

/-- The part of `sys_read` that takes bytes from a descriptor. -/
def readFd (fd : U64) (count : ℕ) : VkM (Except U64 (List U8)) := do
  let vk ← get
  if fd = 0 then
    if vk.stdinOffset < vk.cfg.stdinData.length then
      let bytes := (vk.cfg.stdinData.drop vk.stdinOffset).take count
      modify fun vk => { vk with stdinOffset := vk.stdinOffset + bytes.length }
      return .ok bytes
    else if vk.cfg.stdinData = [] then
      match ← hostCall fun h => h.readStdin count with
      | .ok bytes => return .ok bytes
      | .error _ => return .error (← lastErrno)
    else
      return .ok []
  else
    let file := match vk.fdTable.lookup fd with
      | some vkf => vkf.file
      | none => fd.setWidth 32
    match ← hostCall fun h => h.read file count with
    | .ok bytes => return .ok bytes
    | .error _ => return .error (← lastErrno)

/-- Bytes are read, from the prepared input for descriptor 0. -/
def sysRead (sctx : SubCtx) : VkM U64 := do
  let fd := sctx.arg0
  let bufAddr := sctx.arg1
  let count := sctx.arg2
  if count = 0 then
    return 0
  hostAlloc count.toNat
  match ← readFd fd count.toNat with
  | .error errno => return errno
  | .ok bytes =>
    if bytes ≠ [] then
      memWrite bufAddr bytes
    return BitVec.ofNat 64 bytes.length

/-- `sys_openat`, and `sys_open` with the current directory. -/
def openGuestPath (dirfd : U32) (pathPtr : U64) (flags mode : U32) : VkM U64 := do
  let path ← readGuestCstring pathPtr
  match ← guestPathAt dirfd path with
  | none => return negErrno EBADF
  | some hostPath =>
    if Char.ofNat 0 ∈ hostPath then
      return negErrno EINVAL
    match ← hostCall fun h => h.openat dirfd hostPath flags mode with
    | .error _ => lastErrno
    | .ok fd =>
      insertFile (fd.signExtend 64) {
        file := fd
        path := hostPath
        flags := flags.signExtend 64
        mode := mode.setWidth 64 }
      return fd.signExtend 64

/-- `open` in the working directory. -/
def sysOpen (sctx : SubCtx) : VkM U64 :=
  openGuestPath atFdcwd sctx.arg0 (sctx.arg1.setWidth 32) (sctx.arg2.setWidth 32)

/-- `open` below a directory. -/
def sysOpenat (sctx : SubCtx) : VkM U64 :=
  openGuestPath (sctx.arg0.setWidth 32) sctx.arg1 (sctx.arg2.setWidth 32) (sctx.arg3.setWidth 32)

/-- The translated path is removed. -/
def sysUnlink (sctx : SubCtx) : VkM U64 := do
  let pathPtr := sctx.arg0
  let path ← readGuestCstring pathPtr
  match ← guestPathAt atFdcwd path with
  | none => return negErrno EBADF
  | some hostPath =>
    if Char.ofNat 0 ∈ hostPath then
      return negErrno EINVAL
    match ← hostCall fun h => h.unlink hostPath with
    | .error _ => lastErrno
    | .ok () => return 0

/-- A descriptor is closed and leaves the table. -/
def sysClose (sctx : SubCtx) : VkM U64 := do
  let fd := sctx.arg0
  if fd ≤ 2 then
    return 0
  let vk ← get
  match vk.fdTable.lookup fd with
  | some vkf =>
    modify fun vk => { vk with fdTable := vk.fdTable.erase fd }
    let _ ← hostCall fun h => h.close vkf.file
    return 0
  | none =>
    match ← hostCall fun h => h.close (fd.setWidth 32) with
    | .error _ => lastErrno
    | .ok () => return 0

/-- A duplicate with its own entry in the table. -/
def sysDup (sctx : SubCtx) : VkM U64 := do
  let oldfd := sctx.arg0.setWidth 32
  if oldfd.toInt < 0 then
    return negErrno EBADF
  if oldfd.toInt ≤ 2 then
    match ← hostCall fun h => h.dup oldfd with
    | .error _ => lastErrno
    | .ok fd => return fd.signExtend 64
  else
    let vk ← get
    match vk.fdTable.lookup (oldfd.signExtend 64) with
    | none => return negErrno EBADF
    | some vkf =>
      match ← hostCall fun h => h.dup vkf.file with
      | .error _ => lastErrno
      | .ok file =>
        insertFile (file.signExtend 64) { vkf with file }
        return file.signExtend 64

end ValkyrieRs

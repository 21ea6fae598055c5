import ValkyrieRs.Syscall.Io

/-!
# Extended attributes

The handlers of `os/syscall/io.rs` that read an extended attribute.
-/

namespace ValkyrieRs

open Proc

/-- The end of the handlers; `ret` is the attribute behind the count that the host returned, and the
buffer holds as much of it as fits.  A count beyond the buffer is a panic where the bytes are cut. -/
def finishGetxattr (valuePtr : U64) (size : ℕ) (ret : Except U32 (List U8)) : VkM U64 :=
  match ret with
  | .error _ => lastErrno
  | .ok data => do
    let buffer := data.takeD size 0
    let ret := data.length
    if valuePtr ≠ 0 ∧ ret > 0 then
      if ret ≤ buffer.length then
        memWrite valuePtr (buffer.take ret)
      else diverge
    return BitVec.ofNat 64 ret

/-- `path_getxattr`: an attribute of a path is stored, or its size told. -/
def sysPathGetxattr (sctx : SubCtx) (followSymlinks : Bool) : VkM U64 := do
  let pathPtr := sctx.arg0
  let namePtr := sctx.arg1
  let valuePtr := sctx.arg2
  let size := sctx.arg3.toNat
  let path ← readGuestCstring pathPtr
  let name ← readGuestCstring namePtr
  match ← guestPathAt atFdcwd path with
  | none => return negErrno EBADF
  | some hostPath =>
    if Char.ofNat 0 ∈ hostPath then
      return negErrno EINVAL
    if Char.ofNat 0 ∈ name then
      return negErrno EINVAL
    hostAlloc size
    let ret ← hostCall fun h => h.getxattr hostPath name size followSymlinks
    finishGetxattr valuePtr size ret

/-- Links are followed. -/
def sysGetxattr (sctx : SubCtx) : VkM U64 := sysPathGetxattr sctx true

/-- Links are not followed. -/
def sysLgetxattr (sctx : SubCtx) : VkM U64 := sysPathGetxattr sctx false

/-- An attribute of a descriptor is stored, or its size told. -/
def sysFgetxattr (sctx : SubCtx) : VkM U64 := do
  let fd := sctx.arg0.setWidth 32
  let namePtr := sctx.arg1
  let valuePtr := sctx.arg2
  let size := sctx.arg3.toNat
  let name ← readGuestCstring namePtr
  if Char.ofNat 0 ∈ name then
    return negErrno EINVAL
  hostAlloc size
  let ret ← hostCall fun h => h.fgetxattr fd name size
  finishGetxattr valuePtr size ret

end ValkyrieRs

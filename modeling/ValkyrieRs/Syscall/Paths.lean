import ValkyrieRs.Services
import ValkyrieRs.Syscall.Stat

/-!
# Calls on paths

The handlers of `os/syscall/io.rs` that take a path and open nothing: `access`, `chmod`, `rename`
and the reading of symbolic links.
-/

namespace ValkyrieRs

open Proc

/-- The part that `sys_access` and `sys_chmod` share: the path is read and translated, and the host
asked about it. -/
def askPath (pathPtr : U64) (reply : List Char → Host → Except U32 Unit) : VkM U64 := do
  let path ← readGuestCstring pathPtr
  match ← guestPathAt atFdcwd path with
  | none => return negErrno EBADF
  | some hostPath =>
    if Char.ofNat 0 ∈ hostPath then
      return negErrno EINVAL
    match ← service (reply hostPath) with
    | .error _ => lastErrno
    | .ok () => return 0

/-- The host is asked about the translated path. -/
def sysAccess (sv : Services) (sctx : SubCtx) : VkM U64 :=
  askPath sctx.arg0 fun path => sv.access path (sctx.arg1.setWidth 32)

/-- The mode of the translated path is changed. -/
def sysChmod (sv : Services) (sctx : SubCtx) : VkM U64 :=
  askPath sctx.arg0 fun path => sv.chmod path (sctx.arg1.setWidth 32)

/-- `readlink_target_for_guest`. -/
def readlinkTargetForGuest (start : StartConfig) (path : List Char) : Option (List U8) :=
  if path = "/proc/self/exe".toList then
    some (utf8Bytes (start.elfFile.getD "/proc/self/exe".toList))
  else none

/-- The end of the two handlers: as much of the target as fits is stored. -/
def storeTarget (bufAddr bufSize : U64) (bytes : List U8) : VkM U64 := do
  let count := min bytes.length bufSize.toNat
  memWrite bufAddr (bytes.take count)
  return BitVec.ofNat 64 count

/-- `sys_readlinkat`, and `sys_readlink` with the current directory.  A path with a zero is refused
before the host is called, so that the error number is an old one. -/
def readGuestLink (sv : Services) (dirfd : U32) (pathPtr bufAddr bufSize : U64) : VkM U64 := do
  if bufSize = 0 then
    return 0
  let path ← readGuestCstring pathPtr
  let vk ← get
  match readlinkTargetForGuest vk.start path with
  | some target => storeTarget bufAddr bufSize target
  | none =>
    match ← guestPathAt dirfd path with
    | none => return negErrno EBADF
    | some hostPath =>
      if Char.ofNat 0 ∈ hostPath then
        lastErrno
      else
        match ← service (sv.readLink hostPath) with
        | .error _ => lastErrno
        | .ok target => storeTarget bufAddr bufSize (utf8Bytes (fromUtf8Lossy target))

/-- `readlink` of a path. -/
def sysReadlink (sv : Services) (sctx : SubCtx) : VkM U64 :=
  readGuestLink sv atFdcwd sctx.arg0 sctx.arg1 sctx.arg2

/-- `readlink` of a path below a directory. -/
def sysReadlinkat (sv : Services) (sctx : SubCtx) : VkM U64 :=
  readGuestLink sv (sctx.arg0.setWidth 32) sctx.arg1 sctx.arg2 sctx.arg3

/-- `sys_renameat2` in the working directory. -/
def sysRename (sctx : SubCtx) : VkM U64 :=
  sysRenameat ⟨atFdcwd.signExtend 64, sctx.arg0, atFdcwd.signExtend 64, sctx.arg1, 0, 0⟩

end ValkyrieRs

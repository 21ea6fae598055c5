import ValkyrieRs.Syscall.Fd
import ValkyrieRs.Syscall.Words

/-!
# Vectored writes

`sys_writev` of `os/syscall/io.rs`.
-/

namespace ValkyrieRs

open Proc

/-- The call that writes to a guest descriptor; there is none for standard input. -/
def descriptorWrite (vk : Valkyrie) (fd : U64) : Option (List U8 → Host → Except U32 ℕ × Host) :=
  if fd = 1 then some fun buffer h => h.writeStdout buffer
  else if fd = 2 then some fun buffer h => h.writeStderr buffer
  else if 2 < fd then some fun buffer h => h.write (tableOrRaw vk.fdTable fd) buffer
  else none

/-- The part of the loop that writes a buffer; `rest` goes on with the next entry. -/
def writevBuffer (fd : U64) (buffer : List U8) (iovLen total : U64) (rest : U64 → VkM U64) :
    VkM U64 := do
  let vk ← get
  match descriptorWrite vk fd with
  | none => return negErrno EBADF
  | some write =>
    match ← hostCall (write buffer) with
    | .ok count =>
      let total := total + BitVec.ofNat 64 count
      if count < iovLen.toNat then
        return total
      rest total
    | .error _ =>
      if 0 < total then
        return total
      lastErrno

/-- The loop over the entries from `index` on, `n` of them. -/
def writevLoop (fd iovAddr : U64) (ptrSize : ℕ) : ℕ → ℕ → U64 → VkM U64
  | 0, _, total => return total
  | n + 1, index, total => do
    let baseAddr := iovAddr + BitVec.ofNat 64 (index * (ptrSize * 2))
    let iovBase ← readWord baseAddr ptrSize
    let iovLen ← readWord (baseAddr + BitVec.ofNat 64 ptrSize) ptrSize
    if iovLen = 0 then
      writevLoop fd iovAddr ptrSize n (index + 1) total
    else
      let buffer ← memRead iovBase iovLen.toNat
      writevBuffer fd buffer iovLen total fun total =>
        writevLoop fd iovAddr ptrSize n (index + 1) total

/-- The buffers of a vector are written one after the other. -/
def sysWritev (sctx : SubCtx) : VkM U64 := do
  let fd := sctx.arg0
  let iovAddr := sctx.arg1
  let iovcnt := sctx.arg2
  if iovcnt = 0 then
    return 0
  let vk ← get
  writevLoop fd iovAddr vk.cfg.arch.wordWidth iovcnt.toNat 0 0

end ValkyrieRs

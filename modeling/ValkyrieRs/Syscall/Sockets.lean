import ValkyrieRs.Services
import ValkyrieRs.Syscall.Fd
import ValkyrieRs.Syscall.Network

/-!
# Sockets

The handlers of `os/syscall/network.rs` besides those that open a descriptor and `sys_recvfrom`, and
`sys_socketcall`, which calls the others with arguments from memory.
-/

namespace ValkyrieRs

open Proc

/-! ## Calls on a socket -/

/-- The address of the guest is passed on. -/
def sysConnect (sv : Services) (sctx : SubCtx) : VkM U64 := do
  let fd := sctx.arg0.setWidth 32
  let addrPtr := sctx.arg1
  let addrLen : U32 := sctx.arg2.setWidth 32
  if addrPtr = 0 then
    return negErrno EFAULT
  let addr ← memRead addrPtr addrLen.toNat
  match ← service (sv.connect fd addr) with
  | .error _ => lastErrno
  | .ok ret => return ret.signExtend 64

/-- One or both directions are shut. -/
def sysShutdown (sv : Services) (sctx : SubCtx) : VkM U64 := do
  match ← service (sv.shutdown (sctx.arg0.setWidth 32) (sctx.arg1.setWidth 32)) with
  | .error _ => lastErrno
  | .ok rc => return rc.signExtend 64

/-- The part of `sys_getsockopt` after a call to the host that succeeded: a new length beyond the
buffer is a panic where the bytes are cut. -/
def storeSockopt (optvalAddr optlenAddr : U64) (room : U32) (value : List U8) (optlen : U32) :
    VkM U64 := do
  if 0 < optlen.toNat then
    if room.toNat < optlen.toNat then
      diverge
    memWrite optvalAddr ((value.takeD room.toNat 0).take optlen.toNat)
  writeSocklen optlenAddr optlen
  return 0

/-- An option and its length are stored. -/
def sysGetsockopt (sv : Services) (sctx : SubCtx) : VkM U64 := do
  let fd := sctx.arg0.setWidth 32
  let level := sctx.arg1.setWidth 32
  let optname := sctx.arg2.setWidth 32
  let optvalAddr := sctx.arg3
  let optlenAddr := sctx.arg4
  if optlenAddr = 0 then
    return negErrno EFAULT
  let optlenBytes ← memRead optlenAddr 4
  let optlen : U32 := (fromLeBytes optlenBytes).setWidth 32
  if 0 < optlen.toNat ∧ optvalAddr = 0 then
    return negErrno EFAULT
  hostAlloc optlen.toNat
  match ← service (sv.getsockopt fd level optname optlen) with
  | .error _ => lastErrno
  | .ok (value, newLen) => storeSockopt optvalAddr optlenAddr optlen value newLen

/-- Bytes of the guest are sent. -/
def sysSendto (sv : Services) (sctx : SubCtx) : VkM U64 := do
  let fd := sctx.arg0.setWidth 32
  let bufAddr := sctx.arg1
  let len := sctx.arg2.toNat
  let flags := sctx.arg3.setWidth 32
  let destAddr := sctx.arg4
  let addrLen : U32 := sctx.arg5.setWidth 32
  let buffer ← memRead bufAddr len
  let dest ← if destAddr = 0 ∨ addrLen = 0 then pure none
    else do
      let addr ← memRead destAddr addrLen.toNat
      pure (some addr)
  match ← service (sv.sendto fd buffer flags dest) with
  | .error _ => lastErrno
  | .ok ret => return BitVec.ofNat 64 ret

/-! ## `pselect6` -/

/-- The size of `libc::fd_set`, and of `libc::sigset_t`. -/
def fdSetSize : ℕ := 128

/-- A set of descriptors that the guest stored. -/
def readFdSet (addr : U64) : VkM (List U8) := memRead addr fdSetSize

/-- A set of descriptors is stored. -/
def writeFdSet (addr : U64) (fdSet : List U8) : VkM Unit := memWrite addr (fdSet.takeD fdSetSize 0)

/-- `read_pselect6_sigmask`; the rest of the set is zero. -/
def readPselect6Sigmask (addr : U64) : VkM (Option (List U8)) := do
  let width := guestWordWidth (← get)
  let sigmaskAddr ← readWord addr width
  let sigsetSize ← readWord (addr + BitVec.ofNat 64 width) width
  if sigmaskAddr = 0 ∨ sigsetSize = 0 then
    return none
  let bytes ← memRead sigmaskAddr (min sigsetSize.toNat fdSetSize)
  return some (bytes.takeD fdSetSize 0)

/-- A structure that is read unless its address is zero. -/
def readUnlessNull {α : Type} (addr : U64) (read : U64 → VkM α) : VkM (Option α) :=
  if addr ≠ 0 then do
    let value ← read addr
    return some value
  else return none

/-- The sets that were read are stored; an address is zero exactly where none was. -/
def writeUnlessNull (addr : U64) (fdSet : List U8) : VkM Unit :=
  if addr ≠ 0 then writeFdSet addr fdSet else pure ()

/-- The sets go to the host, and come back to where they lay. -/
def sysPselect6 (sv : Services) (sctx : SubCtx) : VkM U64 := do
  let nfds : U32 := sctx.arg0.setWidth 32
  let readfdsAddr := sctx.arg1
  let writefdsAddr := sctx.arg2
  let exceptfdsAddr := sctx.arg3
  let timeoutAddr := sctx.arg4
  let sigmaskAddr := sctx.arg5
  if nfds.toInt < 0 then
    return negErrno EINVAL
  let readfds ← readUnlessNull readfdsAddr readFdSet
  let writefds ← readUnlessNull writefdsAddr readFdSet
  let exceptfds ← readUnlessNull exceptfdsAddr readFdSet
  let timeout ← readUnlessNull timeoutAddr readGuestTimespec
  let sigmask ← if sigmaskAddr ≠ 0 then readPselect6Sigmask sigmaskAddr else pure none
  match ← service (sv.pselect nfds readfds writefds exceptfds timeout sigmask) with
  | .error _ => lastErrno
  | .ok sets =>
    writeUnlessNull readfdsAddr sets.readfds
    writeUnlessNull writefdsAddr sets.writefds
    writeUnlessNull exceptfdsAddr sets.exceptfds
    return sets.ready.signExtend 64

/-! ## `socketcall` -/

/-- The calls that `sys_socketcall` knows, each with the number of its arguments. -/
def socketcallArity (call : U64) : Option ℕ :=
  if call = 1 then some 3
  else if call = 3 then some 3
  else if call = 8 then some 4
  else if call = 11 then some 6
  else if call = 12 then some 6
  else if call = 15 then some 5
  else none

/-- The words at an address, one after another. -/
def readArgs (argsAddr : U64) (width : ℕ) : ℕ → ℕ → VkM (List U64)
  | 0, _ => pure []
  | n + 1, index => do
    let arg ← readWord (argsAddr + BitVec.ofNat 64 index * BitVec.ofNat 64 width) width
    let rest ← readArgs argsAddr width n (index + 1)
    return arg :: rest

/-- The arguments that are not read are zero. -/
def SubCtx.ofArgs (args : List U64) : SubCtx :=
  ⟨args.getD 0 0, args.getD 1 0, args.getD 2 0, args.getD 3 0, args.getD 4 0, args.getD 5 0⟩

/-- The call of the number. -/
def socketcallTarget (sv : Services) (call : U64) (subctx : SubCtx) : VkM U64 :=
  if call = 1 then sysSocket subctx
  else if call = 3 then sysConnect sv subctx
  else if call = 8 then sysSocketpair subctx
  else if call = 11 then sysSendto sv subctx
  else if call = 12 then sysRecvfrom subctx
  else if call = 15 then sysGetsockopt sv subctx
  else return negErrno ENOSYS

/-- The call that a number stands for, with its arguments from memory. -/
def sysSocketcall (sv : Services) (sctx : SubCtx) : VkM U64 := do
  let call := sctx.arg0
  let argsAddr := sctx.arg1
  let width := guestWordWidth (← get)
  match socketcallArity call with
  | none => return negErrno ENOSYS
  | some n =>
    let args ← readArgs argsAddr width n 0
    socketcallTarget sv call (.ofArgs args)

end ValkyrieRs

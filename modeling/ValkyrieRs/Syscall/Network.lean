import ValkyrieRs.State

/-!
# Receiving from a socket

`sys_recvfrom` of `os/syscall/network.rs`.
-/

namespace ValkyrieRs

open Proc

/-- The length of an address is stored. -/
def writeSocklen (addr : U64) (len : U32) : VkM Unit := memWrite addr (toLeBytes 4 len)

/-- The part of `sys_recvfrom` after a call to the host that succeeded; a slice of the buffer beyond
its end panics. -/
def storeReceived (bufAddr : U64) (len : ℕ) (srcAddr addrlenPtr : U64) (got : Host.Received) :
    VkM U64 := do
  if len < got.count then
    diverge
  if 0 < got.count then
    memWrite bufAddr (got.data.take got.count)
  if srcAddr ≠ 0 ∧ addrlenPtr ≠ 0 then
    let copyLen := min got.peerLen.toNat got.peerAddr.length
    if 0 < copyLen then
      memWrite srcAddr (got.peerAddr.take copyLen)
    writeSocklen addrlenPtr got.peerLen
  return BitVec.ofNat 64 got.count

/-- What arrives is stored, and then the sender's address. -/
def sysRecvfrom (sctx : SubCtx) : VkM U64 := do
  let fd := sctx.arg0.setWidth 32
  let bufAddr := sctx.arg1
  let len := sctx.arg2.toNat
  let flags := sctx.arg3.setWidth 32
  let srcAddr := sctx.arg4
  let addrlenPtr := sctx.arg5
  hostAlloc len
  match ← hostCall fun h => h.recvfrom fd len flags (srcAddr ≠ 0 ∧ addrlenPtr ≠ 0) with
  | .error _ => lastErrno
  | .ok got => storeReceived bufAddr len srcAddr addrlenPtr got

end ValkyrieRs

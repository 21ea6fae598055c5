import ValkyrieRs.Services
import ValkyrieRs.Syscall.Common

/-!
# The process and the machine

The handlers of `os/syscall/common.rs` and `os/syscall/thread.rs` that tell the guest about its
process, the time and the machine, and the signals that a guest sends to itself.
-/

namespace ValkyrieRs

open Proc

/-! ## Identities -/

/-- The effective user of the guest. -/
def sysGeteuid : VkM U64 := do
  let vk ← get
  return vk.linuxCreds.euid.setWidth 64

/-- The user of the guest. -/
def sysGetuid : VkM U64 := do
  let vk ← get
  return vk.linuxCreds.uid.setWidth 64

/-- The effective group of the guest. -/
def sysGetegid : VkM U64 := do
  let vk ← get
  return vk.linuxCreds.egid.setWidth 64

/-- The group of the guest. -/
def sysGetgid : VkM U64 := do
  let vk ← get
  return vk.linuxCreds.gid.setWidth 64

/-- The process is the host's. -/
def sysGetpid (sv : Services) : VkM U64 := return sv.getpid.signExtend 64

/-- `current_tid` is the service. -/
def sysGettid (sv : Services) : VkM U64 := return sv.gettid

/-- The thread's number is returned, and stored unless the address is null. -/
def sysSetTidAddress (sv : Services) (sctx : SubCtx) : VkM U64 := do
  let tidPtr := sctx.arg0
  let tid : U32 := sv.gettid.setWidth 32
  if tidPtr ≠ 0 then
    memWrite tidPtr (toLeBytes 4 tid)
  return tid.setWidth 64

/-- The list is ignored. -/
def sysSetRobustList : VkM U64 := return 0

/-- The list is empty: zeros are stored. -/
def sysGetRobustList (sctx : SubCtx) : VkM U64 := do
  let headPtr := sctx.arg1
  let lenPtr := sctx.arg2
  let vk ← get
  let zero : List U8 := List.replicate vk.cfg.arch.wordWidth 0
  if headPtr ≠ 0 then
    memWrite headPtr zero
  if lenPtr ≠ 0 then
    memWrite lenPtr zero
  return 0

/-- Restartable sequences are not offered. -/
def sysRseq : VkM U64 := return negErrno ENOSYS

/-- Directory cookies are not offered. -/
def sysLookupDcookie : VkM U64 := return negErrno ENOSYS

/-! ## Signals -/

/-- `SIGTRAP`. -/
def sigTrap : U32 := 5

/-- `SIGKILL`. -/
def sigKill : U32 := 9

/-- `SIGSEGV`. -/
def sigSegv : U32 := 11

/-- `SIGSTOP`. -/
def sigStop : U32 := 19

/-- The emulation ends. -/
def Valkyrie.terminate (vk : Valkyrie) : Valkyrie :=
  { vk with vstate := .ended, uc := vk.uc.emuStop }

/-- The debug table that is logged for a fatal signal is left out. -/
def sysTgkill (sv : Services) (sctx : SubCtx) : VkM U64 := do
  let tgid := sctx.arg0
  let tid := sctx.arg1
  let sig : U32 := sctx.arg2.setWidth 32
  if tgid ≠ sv.getpid.signExtend 64 ∨ tid ≠ sv.gettid then
    return negErrno ESRCH
  if sig = sigSegv ∨ sig = sigTrap then
    modify fun vk => { vk with crashed := true }
    modify Valkyrie.terminate
  if sig = sigKill ∨ sig = sigStop then
    modify Valkyrie.terminate
  return 0

/-! ## `uname` -/

/-- `UTSNAME_LEN`. -/
def utsnameLen : ℕ := 65

/-- `fallback_uname`. -/
def fallbackUname : List (List Char) :=
  ["Linux".toList, "valkyrie".toList, "5.15.0".toList, "#1".toList, "x86_64".toList,
    "localdomain".toList]

/-- `host_uname`. -/
def hostUname : Except U32 Utsname → List (List Char)
  | .ok u =>
    [u.sysname, u.nodename, u.release, u.version, u.machine, u.domainname].map fromUtf8Lossy
  | .error _ => fallbackUname

/-- `pack_field`. -/
def packField (s : List Char) : List U8 :=
  ((utf8Bytes s).take (utsnameLen - 1)).takeD utsnameLen 0

/-- The machine that the guest is told of. -/
def unameMachine : Arch → List Char
  | .x86 => "i686".toList
  | .x86_64 => "x86_64".toList

/-- The loop over the fields, which ends at the first that cannot be stored. -/
def storeFields (bufAddr : U64) : List (List U8) → ℕ → VkM U64
  | [], _ => return 0
  | field :: rest, i => do
    match ← (memWrite (bufAddr + BitVec.ofNat 64 i * BitVec.ofNat 64 utsnameLen) field).attempt with
    | .error _ => return negErrno EFAULT
    | .ok () => storeFields bufAddr rest (i + 1)

/-- The names of the host with the machine of the guest. -/
def sysUname (sv : Services) (sctx : SubCtx) : VkM U64 := do
  let bufAddr := sctx.arg0
  if bufAddr = 0 then
    return negErrno EFAULT
  let names ← service sv.uname
  let vk ← get
  let fields := ((hostUname names).set 4 (unameMachine vk.cfg.arch)).map packField
  storeFields bufAddr fields 0

/-! ## Time -/

/-- A clock of the host in words of the guest. -/
def sysClockGettime (sv : Services) (sctx : SubCtx) : VkM U64 := do
  let clockId := sctx.arg0.setWidth 32
  let tp := sctx.arg1
  if tp = 0 then
    return negErrno EFAULT
  match ← service (sv.clockGettime clockId) with
  | .error _ => lastErrno
  | .ok ts =>
    writeGuestTimespec tp ts
    return 0

/-- A clock of the host in words of 64 bits. -/
def sysClockGettime64 (sv : Services) (sctx : SubCtx) : VkM U64 := do
  let clockId := sctx.arg0.setWidth 32
  let tp := sctx.arg1
  if tp = 0 then
    return negErrno EFAULT
  match ← service (sv.clockGettime clockId) with
  | .error _ => lastErrno
  | .ok ts =>
    memWrite tp (toLeBytes 8 ts.tvSec)
    memWrite (tp + 8) (toLeBytes 8 ts.tvNsec)
    return 0

/-- The seconds of the host, stored unless the address is null. -/
def sysTime (sv : Services) (sctx : SubCtx) : VkM U64 := do
  let timePtr := sctx.arg0
  let vk ← get
  match sv.systemTime vk.host with
  | none => return negErrno EIO
  | some now =>
    if timePtr ≠ 0 then
      writeWord timePtr now vk.cfg.arch.wordWidth
    return now

/-! ## Random bytes and limits -/

/-- More bytes than asked for are a panic where the buffer is cut. -/
def sysGetrandom (sv : Services) (sctx : SubCtx) : VkM U64 := do
  let bufAddr := sctx.arg0
  let count := sctx.arg1
  let flags := sctx.arg2.setWidth 32
  if count = 0 then
    return 0
  hostAlloc count.toNat
  match ← service (sv.getrandom count.toNat flags) with
  | .error _ => lastErrno
  | .ok bytes =>
    if count.toNat < bytes.length then
      diverge
    memWrite bufAddr bytes
    return BitVec.ofNat 64 bytes.length

/-- `lim.min(u32::MAX) as u32`. -/
def clampLimit (limit : U64) : U32 := (min limit 0xFFFFFFFF).setWidth 32

/-- A limit of the host, clamped to 32 bits. -/
def sysUgetrlimit (sv : Services) (sctx : SubCtx) : VkM U64 := do
  let resource := sctx.arg0.setWidth 32
  let rlimAddr := sctx.arg1
  if rlimAddr = 0 then
    return negErrno EFAULT
  match ← service (sv.getrlimit resource) with
  | .error _ => lastErrno
  | .ok lim =>
    memWrite rlimAddr (toLeBytes 4 (clampLimit lim.rlimCur))
    memWrite (rlimAddr + 4) (toLeBytes 4 (clampLimit lim.rlimMax))
    return 0

/-- `RLIM_INFINITY`. -/
def rlimInfinity : U64 := u64Max

/-- No limit is set, and every limit reads as infinite. -/
def sysPrlimit64 (sctx : SubCtx) : VkM U64 := do
  let oldLimit := sctx.arg3
  let vk ← get
  let width := vk.cfg.arch.wordWidth
  if oldLimit ≠ 0 then
    writeWord oldLimit rlimInfinity width
    writeWord (oldLimit + BitVec.ofNat 64 width) rlimInfinity width
  return 0

end ValkyrieRs

import ValkyrieRs.Os.Linux

/-!
# Thread areas

`sys_set_thread_area` of `os/syscall/thread.rs`.
-/

namespace ValkyrieRs

open Proc

/-- `struct user_desc`: the entry, and the segment that the guest asks for. -/
structure UserDesc where
  entryNumber : U32
  baseAddr : U32
  limit : U32
  flags : U32
deriving DecidableEq

namespace UserDesc

/-- The 32-bit word at an offset. -/
def word (bytes : List U8) (offset : ℕ) : U32 :=
  (fromLeBytes ((bytes.drop offset).take 4)).setWidth 32

/-- The structure that the guest stored. -/
def ofBytes (bytes : List U8) : UserDesc :=
  ⟨word bytes 0, word bytes 4, word bytes 8, word bytes 12⟩

/-- `UserDesc::from_guest`. -/
def fromGuest (addr : U64) : VkM UserDesc := do
  let bytes ← memRead addr 16
  return ofBytes bytes

variable (desc : UserDesc)

/-- The number of the entry is stored in the structure of the guest. -/
def writeBackEntryNumber (addr : U64) : VkM Unit := memWrite addr (toLeBytes 4 desc.entryNumber)

/-- The segment has operands of 32 bits. -/
def seg32bit : Bool := desc.flags &&& 0x1 != 0

/-- Data, data that grows down, or code. -/
def contents : U32 := (desc.flags >>> 1) &&& 0x3

/-- The segment cannot be written, or code cannot be read. -/
def readExecOnly : Bool := (desc.flags >>> 3) &&& 0x1 != 0

/-- The limit counts pages. -/
def limitInPages : Bool := (desc.flags >>> 4) &&& 0x1 != 0

/-- The segment is not present. -/
def segNotPresent : Bool := (desc.flags >>> 5) &&& 0x1 != 0

/-- The bit that is left to the operating system. -/
def useable : Bool := (desc.flags >>> 6) &&& 0x1 != 0

/-- The segment that clears an entry. -/
def isEmpty : Bool :=
  desc.baseAddr == 0 && desc.limit == 0 && !desc.seg32bit && desc.contents == 0 &&
    desc.readExecOnly && !desc.limitInPages && desc.segNotPresent && !desc.useable

end UserDesc

/-- `X86_GDT_ENTRY_TLS_MIN..=X86_GDT_ENTRY_TLS_MAX`. -/
def tlsEntries : List U32 := [x86GdtEntryTlsMin, x86GdtEntryTlsMin + 1, x86GdtEntryTlsMax]

/-- The loop of `find_free_tls_entry`. -/
def findFreeIn : List U32 → VkM (Option U32)
  | [] => pure none
  | entryNumber :: rest => do
    let vk ← get
    let descriptor ← memRead (x86GdtEntryAddr vk entryNumber) 8
    if descriptor.all (· == 0) then
      return some entryNumber
    else findFreeIn rest

/-- `find_free_tls_entry`. -/
def findFreeTlsEntry : VkM (Option U32) := findFreeIn tlsEntries

/-- The access byte of the descriptor, which the reserved contents do not have. -/
def userDescAccessByte (desc : UserDesc) : Option U8 :=
  let typ : Option U8 :=
    if desc.contents = 0 then some (if desc.readExecOnly then 0x0 else 0x2)
    else if desc.contents = 1 then some (if desc.readExecOnly then 0x4 else 0x6)
    else if desc.contents = 2 then some (if desc.readExecOnly then 0x8 else 0xA)
    else none
  let present : U8 := if desc.segNotPresent then 0 else 0x80
  typ.map fun typ => present ||| 0x60 ||| 0x10 ||| typ

/-- The flags of the descriptor. -/
def userDescFlags (desc : UserDesc) : U8 :=
  (if desc.useable then 0x1 else 0) ||| (if desc.seg32bit then 0x4 else 0) |||
    (if desc.limitInPages then 0x8 else 0)

/-- The bytes of a descriptor. -/
def gdtDesc (base limit : U32) (access flags : U8) : List U8 :=
  [limit.setWidth 8, (limit >>> 8).setWidth 8, base.setWidth 8, (base >>> 8).setWidth 8,
    (base >>> 16).setWidth 8, access,
    ((limit >>> 16) &&& 0x0f).setWidth 8 ||| ((flags &&& 0x0f) <<< 4), (base >>> 24).setWidth 8]

/-- A thread area is stored in the entry asked for, or in the first free one. -/
def sysSetThreadArea (sctx : SubCtx) : VkM U64 := do
  let vk ← get
  if vk.cfg.arch ≠ .x86 then
    return negErrno ENOSYS
  let userDescAddr := sctx.arg0
  if userDescAddr = 0 then
    return negErrno EFAULT
  let desc ← UserDesc.fromGuest userDescAddr
  if 0x000f_ffff < desc.limit then
    return negErrno EINVAL
  let found ← if desc.entryNumber = BitVec.allOnes 32 then findFreeTlsEntry
    else pure (some desc.entryNumber)
  match found with
  | none => return negErrno ESRCH
  | some entryNumber =>
    if ¬ (x86GdtEntryTlsMin ≤ entryNumber ∧ entryNumber ≤ x86GdtEntryTlsMax) then
      return negErrno EINVAL
    if desc.contents = 3 then
      return negErrno EINVAL
    let desc := { desc with entryNumber }
    desc.writeBackEntryNumber userDescAddr
    if desc.isEmpty then
      x86WriteGdtEntry entryNumber (List.replicate 8 0)
      return 0
    match userDescAccessByte desc with
    | none => return negErrno EINVAL
    | some access =>
      x86WriteGdtEntry entryNumber
        (gdtDesc desc.baseAddr desc.limit access (userDescFlags desc))
      return 0

end ValkyrieRs

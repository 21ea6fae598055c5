import ValkyrieRs.Loader.Elf
import ValkyrieRs.Os.Linux

/-!
# Preparing the execution

`prepare_execution` of `os/linux.rs` and `os/blob.rs`: a Linux guest gets its thread-local storage,
its stack and, on x86, a descriptor table and a stub that loads the segment registers.
-/

namespace ValkyrieRs

open Proc

/-- The limit of the descriptor table. -/
def x86GdtLimit : U32 := 0x0fff

/-- Where the entry stub lies behind the table. -/
def x86TlsStubOffset : U64 := 0x100

/-- `gdt_desc` of `os/linux.rs`. -/
def OsLinux.gdtDesc (base limit : U32) (access flags : U8) : List U8 := [
  limit.setWidth 8,
  (limit >>> 8).setWidth 8,
  base.setWidth 8,
  (base >>> 8).setWidth 8,
  (base >>> 16).setWidth 8,
  access,
  (limit >>> 16).setWidth 8 &&& 0x0f ||| (flags &&& 0x0f) <<< 4,
  (base >>> 24).setWidth 8]

/-- The selector of an entry. -/
def selector (idx rpl : BitVec 16) : BitVec 16 := idx <<< 3 ||| rpl &&& 0x3

/-- `install_x86_gdtr`; the engine takes any base and limit, which nothing modelled reads back. -/
def installX86Gdtr : VkM Unit := pure ()

/-- `setup_tls_i386`. -/
def setupTlsI386 : VkM Unit := do
  let vk ← get
  zeroFill (x86GdtAddr vk) (x86GdtLimit.setWidth 64 + 1)
  installX86Gdtr
  x86WriteGdtEntry 1 (OsLinux.gdtDesc 0 0xFFFFF 0x9A 0xC)
  x86WriteGdtEntry 2 (OsLinux.gdtDesc 0 0xFFFFF 0x92 0xC)
  x86WriteGdtEntry 3 (OsLinux.gdtDesc 0 0xFFFFF 0xFA 0xC)
  x86WriteGdtEntry 4 (OsLinux.gdtDesc 0 0xFFFFF 0xF2 0xC)

/-- `tls_prot`. -/
def Arch.tlsProt : Arch → Prot
  | .x86 => .all
  | .x86_64 => ⟨true, true, false⟩

/-- `setup_tls_minimal`. -/
def setupTlsMinimal : VkM Unit := do
  let vk ← get
  let tlsSize := vk.addrs.tlsAddrExit - vk.addrs.tlsAddrStart
  memMap vk.addrs.tlsAddrStart tlsSize vk.cfg.arch.tlsProt "[tls]"
  match vk.cfg.arch with
  | .x86 => setupTlsI386
  | .x86_64 =>
    let tlsBase := vk.addrs.tlsAddrStart + 2 * pageSize
    VRegs.setReg (.x86_64 .fsBase) tlsBase

/-- The stub up to the operand of its jump. -/
def entryStub : List U8 :=
  let dataSelector := selector 2 0
  [0x66, 0xB8] ++ toLeBytes 2 dataSelector ++ [0x8E, 0xD8, 0x8E, 0xC0, 0x8E, 0xD0, 0xE9]

/-- `i32::try_from(i64::try_from(target)? - i64::try_from(jump_src)?)`, or the text of the error. -/
def jumpOffset (target jumpSrc : U64) : Except String U32 :=
  if 2 ^ 63 ≤ target.toNat ∨ 2 ^ 63 ≤ jumpSrc.toNat then .error "x86 entry target overflow"
  else
    let rel := (target.toNat : ℤ) - jumpSrc.toNat
    if rel < -2 ^ 31 ∨ 2 ^ 31 ≤ rel then .error "x86 entry jump out of range"
    else .ok (BitVec.ofInt 32 rel)

/-- `setup_x86_entry_stub`. -/
def setupX86EntryStub : VkM U64 := do
  let vk ← get
  let stubAddr := vk.addrs.tlsAddrStart + x86TlsStubOffset
  let jumpSrc := stubAddr + BitVec.ofNat 64 entryStub.length + 4
  match jumpOffset vk.start.entryPoint jumpSrc with
  | .error text => throw (.unicornGeneralError text)
  | .ok rel =>
    memWrite stubAddr (entryStub ++ toLeBytes 4 rel)
    return stubAddr

/-- `OsLinux::prepare_execution`. -/
def OsLinux.prepareExecution : VkM (U64 × U64) := do
  setupTlsMinimal
  setupStack
  let vk ← get
  let start ← match vk.cfg.arch with
    | .x86 => setupX86EntryStub
    | .x86_64 => pure vk.start.entryPoint
  let stop := if vk.start.exitPoint ≠ 0 then vk.start.exitPoint else u64Max
  return (start, stop)

/-- `OsBlob::prepare_execution`. -/
def OsBlob.prepareExecution : VkM (U64 × U64) := do
  modify fun vk => { vk with vstate := .running }
  let vk ← get
  if vk.start.exitPoint = 0 then
    let length := BitVec.ofNat 64 vk.start.baremetalCode.length
    modify fun vk => { vk with start.exitPoint := satAdd vk.start.entryPoint length }
  let vk ← get
  return (vk.start.entryPoint, vk.start.exitPoint)

/-- `VCoreOs::prepare_execution`. -/
def prepareExecution : VkM (U64 × U64) := do
  let vk ← get
  match vk.cfg.os with
  | .bareMetal => OsBlob.prepareExecution
  | .linux => OsLinux.prepareExecution

end ValkyrieRs

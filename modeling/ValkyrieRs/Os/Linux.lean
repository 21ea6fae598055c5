import ValkyrieRs.State

/-!
# The start-up of a Linux guest

`setup_stack` of `os/linux.rs`, whose builders for the two architectures differ in the width of a
word and in the stack pointer, while both compute addresses with 64 bits; and the accesses to the
descriptor table of x86.
-/

namespace ValkyrieRs

open Proc

/-- `AT_NULL`: the end of the vector. -/
def atNull : U64 := 0

/-- `AT_PHDR`: where the program headers are. -/
def atPhdr : U64 := 3

/-- `AT_PHENT`: the size of a program header. -/
def atPhent : U64 := 4

/-- `AT_PHNUM`: the number of program headers. -/
def atPhnum : U64 := 5

/-- `AT_PAGESZ`: the size of a page. -/
def atPagesz : U64 := 6

/-- `AT_BASE`: where the interpreter is loaded. -/
def atBase : U64 := 7

/-- `AT_ENTRY`: where the program starts. -/
def atEntry : U64 := 9

/-- `AT_UID`. -/
def atUid : U64 := 11

/-- `AT_EUID`. -/
def atEuid : U64 := 12

/-- `AT_GID`. -/
def atGid : U64 := 13

/-- `AT_EGID`. -/
def atEgid : U64 := 14

/-- `AT_CLKTCK`: the ticks of a second. -/
def atClktck : U64 := 17

/-- `AT_SECURE`: whether privileges are raised. -/
def atSecure : U64 := 23

/-- `AT_RANDOM`: where sixteen random bytes are. -/
def atRandom : U64 := 25

/-- `AT_EXECFN`: where the program's path is. -/
def atExecfn : U64 := 31

/-- The first entry of the descriptor table for thread areas. -/
def x86GdtEntryTlsMin : U32 := 6

/-- How many entries are for thread areas. -/
def x86GdtEntryTlsEntries : U32 := 3

/-- The last entry for thread areas. -/
def x86GdtEntryTlsMax : U32 := x86GdtEntryTlsMin + x86GdtEntryTlsEntries - 1

/-- `b"valkyrie-rs"`. -/
def defaultArg : List U8 := "valkyrie-rs".toList.map fun c => BitVec.ofNat 8 c.toNat

/-- `guest_argv`. -/
def Valkyrie.guestArgv (vk : Valkyrie) : List (List U8) :=
  if vk.start.argv ≠ [] then vk.start.argv
  else [match vk.elfAuxv with
    | some info => info.execfn
    | none => defaultArg]

/-- `append_auxv64` and `append_auxv32`: the words of the auxiliary vector. -/
def auxv (bits : ℕ) (vk : Valkyrie) (execfnPtr atRandomPtr : BitVec bits) : List (BitVec bits) :=
  (match vk.elfAuxv with
    | some info => [
        atPhdr.setWidth bits, info.phdr.setWidth bits,
        atPhent.setWidth bits, info.phent.setWidth bits,
        atPhnum.setWidth bits, info.phnum.setWidth bits,
        atBase.setWidth bits, info.base.setWidth bits,
        atEntry.setWidth bits, info.entry.setWidth bits,
        atUid.setWidth bits, vk.linuxCreds.uid.setWidth bits,
        atEuid.setWidth bits, vk.linuxCreds.euid.setWidth bits,
        atGid.setWidth bits, vk.linuxCreds.gid.setWidth bits,
        atEgid.setWidth bits, vk.linuxCreds.egid.setWidth bits,
        atClktck.setWidth bits, 100,
        atSecure.setWidth bits, 0,
        atExecfn.setWidth bits, execfnPtr]
    | none => []) ++ [
    atPagesz.setWidth bits, pageSize.setWidth bits,
    atRandom.setWidth bits, atRandomPtr,
    atNull.setWidth bits, 0]

/-- `vk.uc.mem_write(..)?`. -/
def ucMemWrite (addr : U64) (data : List U8) : VkM Unit := ucCall (·.memWrite addr data)

/-- One argument is pushed; the state is the stack pointer and the pointers pushed so far. -/
def pushArg (acc : U64 × List U64) (arg : List U8) : VkM (U64 × List U64) := do
  let sp := acc.1 - (BitVec.ofNat 64 arg.length + 1)
  ucMemWrite sp arg
  ucMemWrite (sp + BitVec.ofNat 64 arg.length) [0]
  pure (sp, acc.2 ++ [sp])

/-- The words of the frame are written upwards. -/
def writeFrame {bits : ℕ} : List (BitVec bits) → U64 → VkM Unit
  | [], _ => pure ()
  | word :: frame, p => do
    ucMemWrite p (toLeBytes (bits / 8) word)
    writeFrame frame (p + BitVec.ofNat 64 (bits / 8))

/-- `setup_stack_x86_64` and `setup_stack_x86`, which keep the pointers with `bits` bits. -/
def setupStackWith (bits : ℕ) (reg : VRegister) : VkM Unit := do
  let vk ← get
  let top ← VRegs.getReg vk.arch.regs.sp
  let atRandomPtr := top - 16
  ucMemWrite atRandomPtr (List.replicate 16 0x42)
  let vk ← get
  let pushed ← vk.guestArgv.reverse.foldlM pushArg (atRandomPtr, [])
  let argvPtrs := pushed.2.reverse.map fun ptr => ptr.setWidth bits
  match argvPtrs.head? with
  | none => throw (.badConfig "guest argv must contain at least one entry")
  | some execfnPtr =>
    let sp := pushed.1 &&& ~~~0xF
    let vk ← get
    let frame := BitVec.ofNat bits argvPtrs.length :: argvPtrs ++ [0, 0] ++
      auxv bits vk execfnPtr (atRandomPtr.setWidth bits)
    let sp := sp - BitVec.ofNat 64 frame.length * BitVec.ofNat 64 (bits / 8)
    writeFrame frame sp
    VRegs.setReg reg sp

/-- `setup_stack_x86_64`. -/
def setupStackX86_64 : VkM Unit := setupStackWith 64 (.x86_64 .rsp)

/-- `setup_stack_x86`. -/
def setupStackX86 : VkM Unit := setupStackWith 32 (.x86 .esp)

/-- `setup_stack`: the builder of the architecture. -/
def setupStack : VkM Unit := do
  let vk ← get
  match vk.cfg.arch with
  | .x86 => setupStackX86
  | .x86_64 => setupStackX86_64

/-! ## The descriptor table of x86 -/

/-- The table lies at the start of the page for thread-local storage. -/
def x86GdtAddr (vk : Valkyrie) : U64 := vk.addrs.tlsAddrStart

/-- Where an entry is; each takes eight bytes. -/
def x86GdtEntryAddr (vk : Valkyrie) (entryNumber : U32) : U64 :=
  x86GdtAddr vk + entryNumber.setWidth 64 * 8

/-- Store an entry. -/
def x86WriteGdtEntry (entryNumber : U32) (descriptor : List U8) : VkM Unit := do
  let vk ← get
  memWrite (x86GdtEntryAddr vk entryNumber) descriptor

end ValkyrieRs

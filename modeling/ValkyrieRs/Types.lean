import Mathlib.Algebra.Group.Int.Defs
import Mathlib.Algebra.Group.Nat.Defs
import Mathlib.Data.List.AList
import Mathlib.Tactic.Common

/-!
# Machine integers, constants and errors

The fixed-width integers of the emulator, the enumerations and constants of `vtype.rs`, the errors
of `error.rs` and the `libc` constants that the modelled handlers use.
-/

namespace ValkyrieRs

/-- `u8`. -/
abbrev U8 := BitVec 8

/-- `u16`. -/
abbrev U16 := BitVec 16

/-- `u32`. -/
abbrev U32 := BitVec 32

/-- `u64`. -/
abbrev U64 := BitVec 64

/-! ## `vtype.rs` -/

/-- `VArch::Arch`: the architectures of a guest. -/
inductive Arch where
  | x86
  | x86_64
deriving DecidableEq, Repr

/-- The operating system of a guest. -/
inductive OsType where
  | bareMetal
  | linux
deriving DecidableEq, Repr

/-- What the emulator is doing. -/
inductive VState where
  | notSet
  | running
  | stopped
  | ended
deriving DecidableEq, Repr

/-- The byte order of a guest. -/
inductive Endianess where
  | littleEndian
  | bigEndian
deriving DecidableEq, Repr

/-- `PAGE_SIZE as u64`. -/
def pageSize : U64 := 0x1000

/-- `MAX_PATH_LEN`. -/
def maxPathLen : ℕ := 4096

/-- `ARCH_SET_GS`. -/
def archSetGs : U64 := 0x1001

/-- `ARCH_SET_FS`. -/
def archSetFs : U64 := 0x1002

/-- `ARCH_GET_FS`. -/
def archGetFs : U64 := 0x1003

/-- `ARCH_GET_GS`. -/
def archGetGs : U64 := 0x1004

/-! ## Registers

The registers of `arch/x86.rs` and `arch/x86_64.rs` that the modelled functions read or write. -/

/-- The registers of a 32-bit guest. -/
inductive RegX86 where
  | eax | ebx | ecx | edx | esi | edi | ebp | esp | eip
deriving DecidableEq, Repr

/-- The registers of a 64-bit guest. -/
inductive RegX86_64 where
  | rax | rbx | rcx | rdx | rsi | rdi | rbp | rsp
  | r8 | r9 | r10 | r11 | r12 | r13 | r14 | r15
  | rip | fsBase | gsBase
deriving DecidableEq, Repr

/-- `arch/regs.rs`. -/
inductive VRegister where
  | x86 (r : RegX86)
  | x86_64 (r : RegX86_64)
deriving DecidableEq, Repr

/-! ## Errors -/

/-- The error codes of the engine that the modelled calls return. -/
inductive UcError where
  | arg
  | map
  | nomem
  | readUnmapped
  | writeUnmapped
  | hook
deriving DecidableEq, Repr

/-- The errors of `vstruct.rs`. -/
inductive StructError where
  | unsupportedBitness
  | bufferTooSmall (expected got : ℕ)
deriving DecidableEq, Repr

/-- `FsError`, the variants that the modelled functions build. -/
inductive FsError where
  | fileAlreadyHasFd (fd : U64)
  | noFileAtFd (fd : U64)
deriving DecidableEq, Repr

/-- `error.rs`, the variants that the modelled functions build. -/
inductive ValkyrieError where
  | fsError (e : FsError)
  | badConfig (text : String)
  | notImplemented (text : String)
  | unicornGeneralError (text : String)
  | unicorn (code : UcError)
  | hookNotHandled (text : String)
  | unknownSyscall (no : U64)
  | unknownSyscallName (name : String)
  | loader (text : String)
deriving DecidableEq, Repr

/-! ## `libc` constants -/

/-- No such process. -/
def ESRCH : U32 := 3

/-- An input or output error. -/
def EIO : U32 := 5

/-- No such device or address. -/
def ENXIO : U32 := 6

/-- A bad file descriptor. -/
def EBADF : U32 := 9

/-- Out of memory. -/
def ENOMEM : U32 := 12

/-- A bad address. -/
def EFAULT : U32 := 14

/-- An invalid argument. -/
def EINVAL : U32 := 22

/-- A result that does not fit. -/
def ERANGE : U32 := 34

/-- A function not implemented. -/
def ENOSYS : U32 := 38

/-- `PROT_READ`. -/
def protRead : U32 := 0x1

/-- `PROT_WRITE`. -/
def protWrite : U32 := 0x2

/-- `PROT_EXEC`. -/
def protExec : U32 := 0x4

/-- `MAP_FIXED`. -/
def mapFixed : U32 := 0x10

/-- `MAP_ANONYMOUS`. -/
def mapAnonymous : U32 := 0x20

/-- `SIG_BLOCK`. -/
def sigBlock : U32 := 0

/-- `SIG_UNBLOCK`. -/
def sigUnblock : U32 := 1

/-- `SIG_SETMASK`. -/
def sigSetmask : U32 := 2

/-- `PR_SET_PDEATHSIG`. -/
def prSetPdeathsig : U32 := 1

/-- `PR_GET_PDEATHSIG`. -/
def prGetPdeathsig : U32 := 2

/-- `PR_GET_DUMPABLE`. -/
def prGetDumpable : U32 := 3

/-- `PR_SET_DUMPABLE`. -/
def prSetDumpable : U32 := 4

/-- `PR_SET_NAME`. -/
def prSetName : U32 := 15

/-- `PR_GET_NAME`. -/
def prGetName : U32 := 16

/-- `PR_CAPBSET_READ`. -/
def prCapbsetRead : U32 := 23

/-- `SEEK_SET`. -/
def seekSet : U32 := 0

/-- `SEEK_CUR`. -/
def seekCur : U32 := 1

/-- `SEEK_END`. -/
def seekEnd : U32 := 2

/-- `SEEK_DATA`. -/
def seekData : U32 := 3

/-- `SEEK_HOLE`. -/
def seekHole : U32 := 4

/-- `F_DUPFD`. -/
def fDupfd : U32 := 0

/-- `F_SETFL`. -/
def fSetfl : U32 := 4

/-- `F_DUPFD_CLOEXEC`. -/
def fDupfdCloexec : U32 := 1030

/-- `FIONBIO`: switch non-blocking mode. -/
def fionbio : U64 := 0x5421

/-- `FIONREAD`: how many bytes can be read. -/
def fionread : U64 := 0x541B

/-- `TIOCINQ`, the number of `FIONREAD`. -/
def tiocinq : U64 := 0x541B

/-- `TIOCOUTQ`: how many bytes wait to be sent. -/
def tiocoutq : U64 := 0x5411

/-- `TIOCGWINSZ`: the size of the terminal. -/
def tiocgwinsz : U64 := 0x5413

/-- `MSG_TRUNC`. -/
def msgTrunc : U32 := 0x20

/-- `AT_EMPTY_PATH`. -/
def atEmptyPath : U32 := 0x1000

/-- `AT_FDCWD`. -/
def atFdcwd : U32 := -100

end ValkyrieRs

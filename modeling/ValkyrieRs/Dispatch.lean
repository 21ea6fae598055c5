import ValkyrieRs.Arch.X86
import ValkyrieRs.Arch.X8664
import ValkyrieRs.State

/-!
# Dispatch of system calls

`os/register_syscall.rs` and the two wrappers of `arch/x86.rs` and `arch/x86_64.rs`: the instruction
is looked at, the number named, the handler of the name called, and its result put in the register.
-/

namespace ValkyrieRs

open Proc

/-- The handlers of `os/syscall`. -/
inductive SysFn where
  | sysRead | sysPread64 | sysLseek | sysLlseek | sysOpen | sysWrite | sysClose | sysAccess
  | sysStat | sysFstat | sysStat64 | sysFstat64 | sysExit | sysOpenat | sysPoll | sysRenameat2
  | sysRenameat | sysStatx | sysGeteuid | sysGetuid | sysGetegid | sysGetgid | sysBrk | sysPrctl
  | sysArchPrctl | sysUname | sysUgetrlimit | sysMmap | sysMmap2 | sysMunmap | sysGettid
  | sysSetTidAddress | sysSetRobustList | sysGetRobustList | sysRseq | sysWritev | sysExitGroup
  | sysMprotect | sysPrlimit64 | sysClockGettime | sysClockGettime64 | sysGetrandom | sysTime
  | sysReadlink | sysReadlinkat | sysLookupDcookie | sysRtSigaction | sysRtSigprocmask
  | sysNewfstatat | sysFstatat64 | sysGetpid | sysTgkill | sysDup | sysFcntl | sysSetThreadArea
  | sysIoctl | sysGetxattr | sysLgetxattr | sysFgetxattr | sysFutex | sysSocket | sysSocketcall
  | sysSocketpair | sysConnect | sysShutdown | sysGetsockopt | sysSendto | sysRecvfrom
  | sysPselect6 | sysEpollWait | sysEpollCtl | sysEpollCreate1 | sysTimerfdCreate
  | sysTimerfdSettime | sysGetdents64 | sysStatfs | sysStatfs64 | sysFadvise64 | sysRename
  | sysChmod | sysUnlink
deriving DecidableEq, Repr

/-- `SYSCALL_TABLE_MAPPER`. -/
def syscallTableMapper : List (String × SysFn) :=
  [("read", .sysRead), ("pread64", .sysPread64), ("lseek", .sysLseek), ("_llseek", .sysLlseek),
   ("open", .sysOpen), ("write", .sysWrite), ("close", .sysClose), ("access", .sysAccess),
   ("stat", .sysStat), ("fstat", .sysFstat), ("stat64", .sysStat64), ("fstat64", .sysFstat64),
   ("exit", .sysExit), ("openat", .sysOpenat), ("poll", .sysPoll), ("renameat2", .sysRenameat2),
   ("renameat", .sysRenameat), ("statx", .sysStatx), ("geteuid", .sysGeteuid),
   ("geteuid32", .sysGeteuid), ("getuid", .sysGetuid), ("getuid32", .sysGetuid),
   ("getegid", .sysGetegid), ("getegid32", .sysGetegid), ("getgid", .sysGetgid),
   ("getgid32", .sysGetgid), ("brk", .sysBrk), ("prctl", .sysPrctl), ("arch_prctl", .sysArchPrctl),
   ("uname", .sysUname), ("ugetrlimit", .sysUgetrlimit), ("mmap", .sysMmap), ("mmap2", .sysMmap2),
   ("munmap", .sysMunmap), ("gettid", .sysGettid), ("set_tid_address", .sysSetTidAddress),
   ("set_robust_list", .sysSetRobustList), ("get_robust_list", .sysGetRobustList),
   ("rseq", .sysRseq), ("writev", .sysWritev), ("exit_group", .sysExitGroup),
   ("mprotect", .sysMprotect), ("prlimit64", .sysPrlimit64), ("clock_gettime", .sysClockGettime),
   ("clock_gettime64", .sysClockGettime64), ("getrandom", .sysGetrandom), ("time", .sysTime),
   ("readlink", .sysReadlink), ("readlinkat", .sysReadlinkat),
   ("lookup_dcookie", .sysLookupDcookie), ("rt_sigaction", .sysRtSigaction),
   ("rt_sigprocmask", .sysRtSigprocmask), ("newfstatat", .sysNewfstatat),
   ("fstatat64", .sysFstatat64), ("getpid", .sysGetpid), ("tgkill", .sysTgkill), ("dup", .sysDup),
   ("fcntl", .sysFcntl), ("fcntl64", .sysFcntl), ("set_thread_area", .sysSetThreadArea),
   ("fstat", .sysFstat), ("ioctl", .sysIoctl), ("getxattr", .sysGetxattr),
   ("lgetxattr", .sysLgetxattr), ("fgetxattr", .sysFgetxattr), ("futex", .sysFutex),
   ("socket", .sysSocket), ("socketcall", .sysSocketcall), ("socketpair", .sysSocketpair),
   ("connect", .sysConnect), ("shutdown", .sysShutdown), ("getsockopt", .sysGetsockopt),
   ("sendto", .sysSendto), ("recvfrom", .sysRecvfrom), ("pselect6", .sysPselect6),
   ("epoll_wait", .sysEpollWait), ("epoll_ctl", .sysEpollCtl), ("epoll_create1", .sysEpollCreate1),
   ("timerfd_create", .sysTimerfdCreate), ("timerfd_settime", .sysTimerfdSettime),
   ("getdents64", .sysGetdents64), ("statfs", .sysStatfs), ("statfs64", .sysStatfs64),
   ("fadvise64", .sysFadvise64), ("rename", .sysRename), ("chmod", .sysChmod),
   ("unlink", .sysUnlink)]

/-- What the handlers do. -/
abbrev Handlers := SysFn → SubCtx → VkM U64

/-- The entry of the number; the tables are sorted by number. -/
def syscallNameFromNo (syscallNo : U64) (arch : Arch) : Except ValkyrieError String :=
  let table := match arch with
    | .x86_64 => syscallTableX8664
    | .x86 => syscallTableX86
  match table.lookup syscallNo.toNat with
  | some name => .ok name
  | none => .error (.unknownSyscall syscallNo)

/-- `syscall_fn_from_name`. -/
def syscallFnFromName (name : String) : Option SysFn := syscallTableMapper.lookup name

/-- `dispatch_syscall_by_name`. -/
def dispatchSyscallByName (handlers : Handlers) (name : String) (subctx : SubCtx) : VkM U64 :=
  match syscallFnFromName name with
  | some f => handlers f subctx
  | none => throw (.unknownSyscallName name)

/-- The registers of a system call: the number and result, the arguments, and the counter. -/
structure SyscallRegs where
  number : VRegister
  arg0 : VRegister
  arg1 : VRegister
  arg2 : VRegister
  arg3 : VRegister
  arg4 : VRegister
  arg5 : VRegister
  pc : VRegister

/-- The result goes to the register of the number, and the instruction is passed. -/
def finishSyscall (regs : SyscallRegs) (addr : U64) (size : U32) (result : U64) : VkM Unit := do
  VRegs.setReg regs.number result
  let step := if size = 0 then 2 else size.setWidth 64
  VRegs.setReg regs.pc (satAdd addr step)

/-- The wrapper of an architecture whose system calls are made by the instruction `insn`. -/
def handleSyscall (handlers : Handlers) (insn : List U8) (regs : SyscallRegs) (addr : U64)
    (size : U32) : VkM Unit := do
  let bytes ← memRead addr 2
  if bytes ≠ insn then
    return ()
  let syscallNo ← VRegs.getReg regs.number
  let arg0 ← VRegs.getReg regs.arg0
  let arg1 ← VRegs.getReg regs.arg1
  let arg2 ← VRegs.getReg regs.arg2
  let arg3 ← VRegs.getReg regs.arg3
  let arg4 ← VRegs.getReg regs.arg4
  let arg5 ← VRegs.getReg regs.arg5
  let vk ← get
  match syscallNameFromNo syscallNo vk.cfg.arch with
  | .error _ => finishSyscall regs addr size 0
  | .ok name =>
    let subctx := ⟨arg0, arg1, arg2, arg3, arg4, arg5⟩
    match ← (dispatchSyscallByName handlers name subctx).attempt with
    | .ok v => finishSyscall regs addr size v
    | .error _ => finishSyscall regs addr size 0

/-- `syscall`. -/
def handleX8664Syscall (handlers : Handlers) : U64 → U32 → VkM Unit :=
  handleSyscall handlers [0x0f, 0x05]
    ⟨.x86_64 .rax, .x86_64 .rdi, .x86_64 .rsi, .x86_64 .rdx, .x86_64 .r10, .x86_64 .r8, .x86_64 .r9,
      .x86_64 .rip⟩

/-- `int 0x80`. -/
def handleX86Syscall (handlers : Handlers) : U64 → U32 → VkM Unit :=
  handleSyscall handlers [0xcd, 0x80]
    ⟨.x86 .eax, .x86 .ebx, .x86 .ecx, .x86 .edx, .x86 .esi, .x86 .edi, .x86 .ebp, .x86 .eip⟩

/-- `syscall_handler_for`. -/
def syscallHandlerFor (handlers : Handlers) : Arch → U64 → U32 → VkM Unit
  | .x86_64 => handleX8664Syscall handlers
  | .x86 => handleX86Syscall handlers

end ValkyrieRs

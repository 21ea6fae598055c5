import ValkyrieRs.Dispatch
import ValkyrieRs.Syscall.Events
import ValkyrieRs.Syscall.Memory
import ValkyrieRs.Syscall.Paths
import ValkyrieRs.Syscall.Process
import ValkyrieRs.Syscall.Sockets
import ValkyrieRs.Syscall.Thread
import ValkyrieRs.Syscall.Writev
import ValkyrieRs.Syscall.Xattr

/-!
# The table of handlers

What each entry of `SYSCALL_TABLE_MAPPER` does.
-/

namespace ValkyrieRs

/-- The function of `os/syscall` behind an entry. -/
def sysHandlers (sv : Services) : Handlers
  | .sysRead, sctx => sysRead sctx
  | .sysPread64, sctx => sysPread64 sctx
  | .sysLseek, sctx => sysLseek sctx
  | .sysLlseek, sctx => sysLlseek sctx
  | .sysOpen, sctx => sysOpen sctx
  | .sysWrite, sctx => sysWrite sctx
  | .sysClose, sctx => sysClose sctx
  | .sysAccess, sctx => sysAccess sv sctx
  | .sysStat, sctx => sysStat sctx
  | .sysFstat, sctx => sysFstat sctx
  | .sysStat64, sctx => sysStat64 sctx
  | .sysFstat64, sctx => sysFstat64 sctx
  | .sysExit, sctx => sysExit sctx
  | .sysOpenat, sctx => sysOpenat sctx
  | .sysPoll, sctx => sysPoll sv sctx
  | .sysRenameat2, sctx => sysRenameat2 sctx
  | .sysRenameat, sctx => sysRenameat sctx
  | .sysStatx, sctx => sysStatx sctx
  | .sysGeteuid, _ => sysGeteuid
  | .sysGetuid, _ => sysGetuid
  | .sysGetegid, _ => sysGetegid
  | .sysGetgid, _ => sysGetgid
  | .sysBrk, sctx => sysBrk sctx
  | .sysPrctl, sctx => sysPrctl sctx
  | .sysArchPrctl, sctx => sysArchPrctl sctx
  | .sysUname, sctx => sysUname sv sctx
  | .sysUgetrlimit, sctx => sysUgetrlimit sv sctx
  | .sysMmap, sctx => sysMmap sctx
  | .sysMmap2, sctx => sysMmap2 sctx
  | .sysMunmap, sctx => sysMunmap sctx
  | .sysGettid, _ => sysGettid sv
  | .sysSetTidAddress, sctx => sysSetTidAddress sv sctx
  | .sysSetRobustList, _ => sysSetRobustList
  | .sysGetRobustList, sctx => sysGetRobustList sctx
  | .sysRseq, _ => sysRseq
  | .sysWritev, sctx => sysWritev sctx
  | .sysExitGroup, sctx => sysExitGroup sctx
  | .sysMprotect, sctx => sysMprotect sctx
  | .sysPrlimit64, sctx => sysPrlimit64 sctx
  | .sysClockGettime, sctx => sysClockGettime sv sctx
  | .sysClockGettime64, sctx => sysClockGettime64 sv sctx
  | .sysGetrandom, sctx => sysGetrandom sv sctx
  | .sysTime, sctx => sysTime sv sctx
  | .sysReadlink, sctx => sysReadlink sv sctx
  | .sysReadlinkat, sctx => sysReadlinkat sv sctx
  | .sysLookupDcookie, _ => sysLookupDcookie
  | .sysRtSigaction, sctx => sysRtSigaction sctx
  | .sysRtSigprocmask, sctx => sysRtSigprocmask sctx
  | .sysNewfstatat, sctx => sysNewfstatat sctx
  | .sysFstatat64, sctx => sysFstatat64 sctx
  | .sysGetpid, _ => sysGetpid sv
  | .sysTgkill, sctx => sysTgkill sv sctx
  | .sysDup, sctx => sysDup sctx
  | .sysFcntl, sctx => sysFcntl sctx
  | .sysSetThreadArea, sctx => sysSetThreadArea sctx
  | .sysIoctl, sctx => sysIoctl sctx
  | .sysGetxattr, sctx => sysGetxattr sctx
  | .sysLgetxattr, sctx => sysLgetxattr sctx
  | .sysFgetxattr, sctx => sysFgetxattr sctx
  | .sysFutex, sctx => sysFutex sctx
  | .sysSocket, sctx => sysSocket sctx
  | .sysSocketcall, sctx => sysSocketcall sv sctx
  | .sysSocketpair, sctx => sysSocketpair sctx
  | .sysConnect, sctx => sysConnect sv sctx
  | .sysShutdown, sctx => sysShutdown sv sctx
  | .sysGetsockopt, sctx => sysGetsockopt sv sctx
  | .sysSendto, sctx => sysSendto sv sctx
  | .sysRecvfrom, sctx => sysRecvfrom sctx
  | .sysPselect6, sctx => sysPselect6 sv sctx
  | .sysEpollWait, sctx => sysEpollWait sv sctx
  | .sysEpollCtl, sctx => sysEpollCtl sv sctx
  | .sysEpollCreate1, sctx => sysEpollCreate1 sctx
  | .sysTimerfdCreate, sctx => sysTimerfdCreate sctx
  | .sysTimerfdSettime, sctx => sysTimerfdSettime sv sctx
  | .sysGetdents64, sctx => sysGetdents64 sctx
  | .sysStatfs, sctx => sysStatfs sctx
  | .sysStatfs64, sctx => sysStatfs64 sctx
  | .sysFadvise64, sctx => sysFadvise64 sctx
  | .sysRename, sctx => sysRename sctx
  | .sysChmod, sctx => sysChmod sv sctx
  | .sysUnlink, sctx => sysUnlink sctx

end ValkyrieRs

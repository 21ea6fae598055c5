import ValkyrieRs.State
import ValkyrieRs.Syscall.Words

/-!
# Services of the host

The calls to the host that leave its descriptors and its files alone: each asks something, and all
that the emulator sees of it is the answer and, when it fails, the error number.  What the host
answers is a parameter of the handlers, so a fact proved for all services holds whatever the host
decides.
-/

namespace ValkyrieRs

open Proc

/-! ## Structures of `libc` -/

/-- `libc::pollfd`. -/
structure PollFd where
  fd : U32
  events : U16
  revents : U16
deriving DecidableEq

/-- `libc::epoll_event`. -/
structure EpollEvent where
  events : U32
  data : U64
deriving DecidableEq

/-- `libc::itimerspec`. -/
structure Itimerspec where
  itInterval : Timespec
  itValue : Timespec
deriving DecidableEq

/-- `libc::rlimit`. -/
structure Rlimit where
  rlimCur : U64
  rlimMax : U64
deriving DecidableEq

/-- `libc::utsname`, each field by its bytes up to the first zero. -/
structure Utsname where
  sysname : List U8
  nodename : List U8
  release : List U8
  version : List U8
  machine : List U8
  domainname : List U8
deriving DecidableEq

/-- What `pselect` leaves: the number of descriptors ready, and the three sets. -/
structure Selected where
  ready : U32
  readfds : List U8
  writefds : List U8
  exceptfds : List U8

/-! ## Services -/

/-- What the host answers.  `poll` tells the events of each entry; `getsockopt` the bytes that it
leaves in the buffer and the new length; `systemTime` fails before 1970. -/
structure Services where
  access : List Char → U32 → Host → Except U32 Unit
  chmod : List Char → U32 → Host → Except U32 Unit
  readLink : List Char → Host → Except U32 (List U8)
  poll : List PollFd → U32 → Host → Except U32 (U32 × (ℕ → U16))
  epollCtl : U32 → U32 → U32 → Option EpollEvent → Host → Except U32 Unit
  epollWait : U32 → U32 → U32 → Host → Except U32 (List EpollEvent)
  timerfdSettime : U32 → U32 → Itimerspec → Host → Except U32 Itimerspec
  pselect : U32 → Option (List U8) → Option (List U8) → Option (List U8) → Option Timespec →
    Option (List U8) → Host → Except U32 Selected
  connect : U32 → List U8 → Host → Except U32 U32
  shutdown : U32 → U32 → Host → Except U32 U32
  getsockopt : U32 → U32 → U32 → U32 → Host → Except U32 (List U8 × U32)
  sendto : U32 → List U8 → U32 → Option (List U8) → Host → Except U32 ℕ
  uname : Host → Except U32 Utsname
  clockGettime : U32 → Host → Except U32 Timespec
  getrandom : ℕ → U32 → Host → Except U32 (List U8)
  getrlimit : U32 → Host → Except U32 Rlimit
  systemTime : Host → Option U64
  getpid : U32
  gettid : U64

/-- The host after an answer. -/
def Host.serve {α : Type} (reply : Host → Except U32 α) (h : Host) : Except U32 α × Host :=
  match reply h with
  | .ok a => (.ok a, h)
  | .error e => (.error e, h.fail e)

section Serve

variable {α : Type} {reply : Host → Except U32 α} {h : Host}

@[simp] theorem Host.serve_fst : (h.serve reply).1 = reply h := by
  unfold serve
  cases reply h <;> rfl

/-- A service touches nothing of the host but the error number. -/
theorem Host.serve_snd : ∃ e, (h.serve reply).2 = h.fail e := by
  unfold serve
  cases reply h with
  | error e => exact ⟨e, rfl⟩
  | ok a => exact ⟨h.errno, rfl⟩

end Serve

/-- A call of a service. -/
def service {α : Type} (reply : Host → Except U32 α) : VkM (Except U32 α) :=
  hostCall fun h => h.serve reply

/-- Services of a host that refuses everything. -/
def Services.refusing : Services where
  access _ _ _ := .error EIO
  chmod _ _ _ := .error EIO
  readLink _ _ := .error EIO
  poll _ _ _ := .error EIO
  epollCtl _ _ _ _ _ := .error EIO
  epollWait _ _ _ _ := .error EIO
  timerfdSettime _ _ _ _ := .error EIO
  pselect _ _ _ _ _ _ _ := .error EIO
  connect _ _ _ := .error EIO
  shutdown _ _ _ := .error EIO
  getsockopt _ _ _ _ _ := .error EIO
  sendto _ _ _ _ _ := .error EIO
  uname _ := .error EIO
  clockGettime _ _ := .error EIO
  getrandom _ _ _ := .error EIO
  getrlimit _ _ := .error EIO
  systemTime _ := none
  getpid := 1
  gettid := 1

end ValkyrieRs

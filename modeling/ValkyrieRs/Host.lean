import Mathlib.Tactic.Simps.Basic
import ValkyrieRs.Types

/-!
# The host

The host process as the system calls of the emulator see it: its open file descriptors, each naming
an open file description, and a stream of answers that settles whatever the host is free to decide
(whether a call succeeds, which descriptor number it hands out, how many of the remaining bytes a
read delivers).  Nothing is assumed about the stream, so a fact proved for every host holds whatever
the host decides.  Duplicated descriptors share one description, hence one file position.
-/

namespace ValkyrieRs

/-- What the host decides about one call. -/
structure HostAnswer where
  ok : Bool
  errno : U32
  fd : U32
  count : ℕ
  data : List U8
deriving DecidableEq

/-- An open file description. -/
structure Description where
  content : List U8
  pos : ℕ
deriving DecidableEq

/-- The calls made to the host. -/
inductive HostCall where
  | openat (dirfd : U32) (path : List Char) (flags mode : U32)
  | dup (fd : U32)
  | close (fd : U32)
  | read (fd : U32) (count : ℕ)
  | seek (fd : U32) (offset : ℕ)
  | readStdin (count : ℕ)
  | prctl (option : U32) (arg2 : U64)
  | fstatat (dirfd : U32) (path : List Char) (flags : U32)
  | statx (dirfd : U32) (path : List Char) (flags mask : U32)
  | renameat2 (olddirfd : U32) (oldpath : List Char) (newdirfd : U32) (newpath : List Char)
      (flags : U32)
  | write (fd : U32) (data : List U8)
  | writeStdout (data : List U8)
  | writeStderr (data : List U8)
  | pread (fd : U32) (count : ℕ) (offset : U64)
  | lseek (fd : U32) (offset : U64) (whence : U32)
  | ioctl (fd : U32) (request : U64) (arg : List U8)
  | getdents64 (fd : U32) (count : ℕ)
  | fadvise (fd : U32) (offset len : U64) (advice : U32)
  | fcntl (fd cmd arg : U32)
  | socket (domain type protocol : U32)
  | socketpair (domain type protocol : U32)
  | epollCreate1 (flags : U32)
  | timerfdCreate (clockid flags : U32)
  | statfs (path : List Char)
  | recvfrom (fd : U32) (len : ℕ) (flags : U32) (withAddr : Bool)
  | fstat (fd : U32)
  | getxattr (path name : List Char) (size : ℕ) (follow : Bool)
  | fgetxattr (fd : U32) (name : List Char) (size : ℕ)
  | unlink (path : List Char)
deriving DecidableEq

/-- The host: its answers, the calls made of it, its last error, its directory and its open files.
-/
structure Host where
  answers : ℕ → HostAnswer
  calls : List HostCall
  errno : U32
  cwd : Option (List Char)
  descriptions : List Description
  fds : AList fun _ : U32 => ℕ

namespace Host

variable (h : Host)

/-- The answer to the next call. -/
def answer : HostAnswer := h.answers h.calls.length

@[simps] def record (call : HostCall) : Host := { h with calls := h.calls ++ [call] }

/-- The call fails with an error. -/
def fail (e : U32) : Host := { h with errno := e }

/-- `openat(2)`; the answer's bytes are the content of the file opened. -/
def openat (dirfd : U32) (path : List Char) (flags mode : U32) : Except U32 U32 × Host :=
  let a := h.answer
  let h := h.record (.openat dirfd path flags mode)
  if a.ok then
    (.ok a.fd, { h with
      descriptions := h.descriptions ++ [⟨a.data, 0⟩]
      fds := h.fds.insert a.fd h.descriptions.length })
  else (.error a.errno, h.fail a.errno)

/-- `dup(2)` and `F_DUPFD_CLOEXEC`: one more descriptor of the same description. -/
def dup (fd : U32) : Except U32 U32 × Host :=
  let a := h.answer
  let h := h.record (.dup fd)
  match h.fds.lookup fd with
  | none => (.error EBADF, h.fail EBADF)
  | some d =>
    if a.ok then (.ok a.fd, { h with fds := h.fds.insert a.fd d })
    else (.error a.errno, h.fail a.errno)

/-- `close(2)`, which releases the descriptor even when it reports an error. -/
def close (fd : U32) : Except U32 Unit × Host :=
  let a := h.answer
  let h := h.record (.close fd)
  match h.fds.lookup fd with
  | none => (.error EBADF, h.fail EBADF)
  | some _ =>
    let h := { h with fds := h.fds.erase fd }
    if a.ok then (.ok (), h) else (.error a.errno, h.fail a.errno)

/-- `read(2)`: at the end of the file nothing, else a positive number of the remaining bytes. -/
def read (fd : U32) (count : ℕ) : Except U32 (List U8) × Host :=
  let a := h.answer
  let h := h.record (.read fd count)
  match h.fds.lookup fd with
  | none => (.error EBADF, h.fail EBADF)
  | some d =>
    if a.ok then
      let f := h.descriptions.getD d ⟨[], 0⟩
      let data := (f.content.drop f.pos).take (min count (max 1 a.count))
      (.ok data, { h with
        descriptions := h.descriptions.set d { f with pos := f.pos + data.length } })
    else (.error a.errno, h.fail a.errno)

/-- `lseek(2)` with `SEEK_SET`; offsets from `2^63` on are negative to it. -/
def seek (fd : U32) (offset : ℕ) : Except U32 Unit × Host :=
  let a := h.answer
  let h := h.record (.seek fd offset)
  match h.fds.lookup fd with
  | none => (.error EBADF, h.fail EBADF)
  | some d =>
    if 2 ^ 63 ≤ offset then (.error EINVAL, h.fail EINVAL)
    else if a.ok then
      let f := h.descriptions.getD d ⟨[], 0⟩
      (.ok (), { h with descriptions := h.descriptions.set d { f with pos := offset } })
    else (.error a.errno, h.fail a.errno)

/-- `io::stdin().read`. -/
def readStdin (count : ℕ) : Except U32 (List U8) × Host :=
  let a := h.answer
  let h := h.record (.readStdin count)
  if a.ok then (.ok (a.data.take count), h) else (.error a.errno, h.fail a.errno)

/-- A call that leaves the descriptors alone; its result is made of the answer. -/
def ask {α : Type} (call : HostCall) (result : HostAnswer → α) : Except U32 α × Host :=
  let a := h.answer
  let h := h.record call
  if a.ok then (.ok (result a), h) else (.error a.errno, h.fail a.errno)

/-- A call on the description behind a descriptor, given its number. -/
def onFd {α : Type} (call : HostCall) (fd : U32) (effect : HostAnswer → ℕ → Host → Except U32 α × Host) :
    Except U32 α × Host :=
  let a := h.answer
  let h := h.record call
  match h.fds.lookup fd with
  | none => (.error EBADF, h.fail EBADF)
  | some d => if a.ok then effect a d h else (.error a.errno, h.fail a.errno)

/-- A call that opens a descriptor of a new description. -/
def newFd (call : HostCall) (content : HostAnswer → List U8) : Except U32 U32 × Host :=
  let a := h.answer
  let h := h.record call
  if a.ok then
    (.ok a.fd, { h with
      descriptions := h.descriptions ++ [⟨content a, 0⟩]
      fds := h.fds.insert a.fd h.descriptions.length })
  else (.error a.errno, h.fail a.errno)

/-- `prctl(2)` with an option that only asks. -/
def prctl (option : U32) (arg2 : U64) : Except U32 U32 × Host :=
  let a := h.answer
  let h := h.record (.prctl option arg2)
  if a.ok then (.ok a.fd, h) else (.error a.errno, h.fail a.errno)

/-- `fstatat(2)`; the answer's bytes are the structure. -/
def fstatat (dirfd : U32) (path : List Char) (flags : U32) : Except U32 (List U8) × Host :=
  h.ask (.fstatat dirfd path flags) (·.data)

/-- `statfs(2)`; the answer's bytes are the structure. -/
def statfs (path : List Char) : Except U32 (List U8) × Host := h.ask (.statfs path) (·.data)

/-- `statx(2)`; the answer's bytes are the structure. -/
def statx (dirfd : U32) (path : List Char) (flags mask : U32) : Except U32 (List U8) × Host :=
  h.ask (.statx dirfd path flags mask) (·.data)

/-- `renameat2`. -/
def renameat2 (olddirfd : U32) (oldpath : List Char) (newdirfd : U32) (newpath : List Char)
    (flags : U32) : Except U32 U32 × Host :=
  h.ask (.renameat2 olddirfd oldpath newdirfd newpath flags) fun _ => 0

/-- `write(2)` on a file not opened for appending: some of the bytes, at the position. -/
def write (fd : U32) (data : List U8) : Except U32 ℕ × Host :=
  h.onFd (.write fd data) fd fun a d h =>
    let f := h.descriptions.getD d ⟨[], 0⟩
    let written := data.take a.count
    let content := f.content.takeD f.pos 0 ++ written ++ f.content.drop (f.pos + written.length)
    (.ok written.length, { h with
      descriptions := h.descriptions.set d ⟨content, f.pos + written.length⟩ })

/-- `io::stdout().write`. -/
def writeStdout (data : List U8) : Except U32 ℕ × Host :=
  h.ask (.writeStdout data) fun a => min data.length a.count

/-- `io::stderr().write`. -/
def writeStderr (data : List U8) : Except U32 ℕ × Host :=
  h.ask (.writeStderr data) fun a => min data.length a.count

/-- `pread64(2)`, which leaves the position alone. -/
def pread (fd : U32) (count : ℕ) (offset : U64) : Except U32 (List U8) × Host :=
  h.onFd (.pread fd count offset) fd fun a d h =>
    if offset.toInt < 0 then (.error EINVAL, h.fail EINVAL)
    else
      let f := h.descriptions.getD d ⟨[], 0⟩
      (.ok ((f.content.drop offset.toNat).take (min count (max 1 a.count))), h)

/-- The position that `lseek(2)` asks for, or its error; where in the file the next data or hole
begins is up to the host. -/
def seekTarget (f : Description) (offset : U64) (whence : U32) (a : HostAnswer) : Except U32 ℤ :=
  if whence = seekSet then .ok offset.toInt
  else if whence = seekCur then .ok (f.pos + offset.toInt)
  else if whence = seekEnd then .ok (f.content.length + offset.toInt)
  else if whence = seekData ∨ whence = seekHole then
    if offset.toInt < 0 ∨ f.content.length ≤ offset.toInt then .error ENXIO
    else .ok (min (offset.toInt + a.count) f.content.length)
  else .error EINVAL

/-- `lseek(2)`. -/
def lseek (fd : U32) (offset : U64) (whence : U32) : Except U32 U64 × Host :=
  h.onFd (.lseek fd offset whence) fd fun a d h =>
    let f := h.descriptions.getD d ⟨[], 0⟩
    match seekTarget f offset whence a with
    | .error e => (.error e, h.fail e)
    | .ok pos =>
      if pos < 0 ∨ 2 ^ 63 ≤ pos then (.error EINVAL, h.fail EINVAL)
      else (.ok (BitVec.ofInt 64 pos), { h with
        descriptions := h.descriptions.set d { f with pos := pos.toNat } })

/-- `ioctl(2)`: its value and the bytes that it leaves in the argument. -/
def ioctl (fd : U32) (request : U64) (arg : List U8) : Except U32 (U32 × List U8) × Host :=
  h.onFd (.ioctl fd request arg) fd fun a _ h => (.ok (a.fd, a.data.takeD arg.length 0), h)

/-- `getdents64(2)`. -/
def getdents64 (fd : U32) (count : ℕ) : Except U32 (List U8) × Host :=
  h.onFd (.getdents64 fd count) fd fun a _ h => (.ok (a.data.take count), h)

/-- `posix_fadvise(3)`, which returns its error and leaves `errno` alone. -/
def fadvise (fd : U32) (offset len : U64) (advice : U32) : Except U32 Unit × Host :=
  let a := h.answer
  let h := h.record (.fadvise fd offset len advice)
  if (h.fds.lookup fd).isNone then (.error EBADF, h)
  else if a.ok then (.ok (), h) else (.error a.errno, h)

/-- `fcntl(2)`: two of its commands duplicate the descriptor. -/
def fcntl (fd cmd arg : U32) : Except U32 U32 × Host :=
  h.onFd (.fcntl fd cmd arg) fd fun a d h =>
    if cmd = fDupfd ∨ cmd = fDupfdCloexec then
      (.ok a.fd, { h with fds := h.fds.insert a.fd d })
    else (.ok a.fd, h)

/-- `socket`. -/
def socket (domain type protocol : U32) : Except U32 U32 × Host :=
  h.newFd (.socket domain type protocol) fun _ => []

/-- `socketpair(2)`; the answer's count is the second number. -/
def socketpair (domain type protocol : U32) : Except U32 (U32 × U32) × Host :=
  let a := h.answer
  let h := h.record (.socketpair domain type protocol)
  let second := BitVec.ofNat 32 a.count
  if a.ok then
    (.ok (a.fd, second), { h with
      descriptions := h.descriptions ++ [⟨[], 0⟩, ⟨[], 0⟩]
      fds := (h.fds.insert a.fd h.descriptions.length).insert second
        (h.descriptions.length + 1) })
  else (.error a.errno, h.fail a.errno)

/-- `epoll_create1`. -/
def epollCreate1 (flags : U32) : Except U32 U32 × Host :=
  h.newFd (.epollCreate1 flags) fun _ => []

/-- `timerfd_create`. -/
def timerfdCreate (clockid flags : U32) : Except U32 U32 × Host :=
  h.newFd (.timerfdCreate clockid flags) fun _ => []

/-- What `recvfrom(2)` returns and stores: a count, the bytes, the sender's address, of which there
is room for 128 bytes, and the length of the address. -/
structure Received where
  count : ℕ
  data : List U8
  peerAddr : List U8
  peerLen : U32

/-- `recvfrom(2)` into a zeroed buffer; the answer's bytes are the data and then the address.  With
`MSG_TRUNC` the count is the size of the message, which may be larger than the buffer. -/
def recvfrom (fd : U32) (len : ℕ) (flags : U32) (withAddr : Bool) : Except U32 Received × Host :=
  h.onFd (.recvfrom fd len flags withAddr) fd fun a _ h =>
    (.ok {
      count := if flags &&& msgTrunc ≠ 0 then min a.count (2 ^ 63 - 1) else min a.count len
      data := (a.data.take len).takeD len 0
      peerAddr := (a.data.drop len).takeD 128 0
      peerLen := a.fd }, h)

/-- `fstat(2)`; the answer's bytes are the structure. -/
def fstat (fd : U32) : Except U32 (List U8) × Host :=
  h.onFd (.fstat fd) fd fun a _ h => (.ok a.data, h)

/-- `unlink`. -/
def unlink (path : List Char) : Except U32 Unit × Host := h.ask (.unlink path) fun _ => ()

/-- What a request for an attribute of the given bytes returns: the bytes, unless they do not fit
into a buffer that is not empty. -/
def xattr (size : ℕ) (data : List U8) : Except U32 (List U8) × Host :=
  if size = 0 ∨ data.length ≤ size then (.ok data, h) else (.error ERANGE, h.fail ERANGE)

/-- `getxattr(2)` and `lgetxattr(2)`; the answer's bytes are the attribute. -/
def getxattr (path name : List Char) (size : ℕ) (follow : Bool) : Except U32 (List U8) × Host :=
  let a := h.answer
  let h := h.record (.getxattr path name size follow)
  if a.ok then h.xattr size a.data else (.error a.errno, h.fail a.errno)

/-- `fgetxattr(2)`. -/
def fgetxattr (fd : U32) (name : List Char) (size : ℕ) : Except U32 (List U8) × Host :=
  h.onFd (.fgetxattr fd name size) fd fun a _ h => h.xattr size a.data

/-- The descriptor is open. -/
def IsOpen (fd : U32) : Prop := (h.fds.lookup fd).isSome

instance (fd : U32) : Decidable (h.IsOpen fd) := inferInstanceAs (Decidable (_ = true))

/-! ## What the calls do -/

variable {h h' : Host} {fd clone : U32} {n i : ℕ} {data : List U8}

theorem dup_ok (ok : h.dup fd = (.ok clone, h')) :
    ∃ d, h.fds.lookup fd = some d ∧
      h' = { h.record (.dup fd) with fds := h.fds.insert clone d } := by
  simp only [dup, record_fds] at ok
  cases found : h.fds.lookup fd with
  | none => simp [found] at ok
  | some d =>
    simp only [found] at ok
    split_ifs at ok
    · cases ok
      exact ⟨d, rfl, rfl⟩
    · cases ok

theorem seek_ok (ok : h.seek fd i = (.ok (), h')) :
    ∃ d, h.fds.lookup fd = some d ∧
      h' = { h.record (.seek fd i) with
        descriptions := h.descriptions.set d { h.descriptions.getD d ⟨[], 0⟩ with pos := i } } := by
  simp only [seek, record_fds] at ok
  cases found : h.fds.lookup fd with
  | none => simp [found] at ok
  | some d =>
    simp only [found] at ok
    split_ifs at ok
    · cases ok
    · cases ok
      exact ⟨d, rfl, rfl⟩
    · cases ok

theorem read_ok (ok : h.read fd n = (.ok data, h')) :
    ∃ d, h.fds.lookup fd = some d ∧
      data = ((h.descriptions.getD d ⟨[], 0⟩).content.drop
        (h.descriptions.getD d ⟨[], 0⟩).pos).take (min n (max 1 h.answer.count)) := by
  simp only [read, record_fds] at ok
  cases found : h.fds.lookup fd with
  | none => simp [found] at ok
  | some d =>
    simp only [found] at ok
    split_ifs at ok
    · cases ok
      exact ⟨d, rfl, rfl⟩
    · cases ok

/-! ## Open descriptors -/

variable {x : U32}

@[simp] theorem isOpen_record {call : HostCall} : (h.record call).IsOpen x ↔ h.IsOpen x := Iff.rfl

@[simp] theorem isOpen_fail {e : U32} : (h.fail e).IsOpen x ↔ h.IsOpen x := Iff.rfl

theorem isOpen_of_insert {y : U32} {d : ℕ} (inserted : h'.fds = h.fds.insert y d) (x : U32) :
    h'.IsOpen x ↔ x = y ∨ h.IsOpen x := by
  rw [IsOpen, inserted]
  by_cases same : x = y
  · subst same
    simp [IsOpen]
  · simp [IsOpen, AList.lookup_insert_ne same, same]

@[simp] theorem isOpen_close : (h.close fd).2.IsOpen x ↔ x ≠ fd ∧ h.IsOpen x := by
  simp only [close, record_fds]
  cases found : h.fds.lookup fd with
  | none =>
    rw [isOpen_fail, isOpen_record, iff_and_self]
    rintro isOpen rfl
    simp [IsOpen, found] at isOpen
  | some d =>
    have erased : (h.fds.erase fd).lookup x = if x = fd then none else h.fds.lookup x := by
      split_ifs with same
      · rw [same, AList.lookup_erase]
      · exact AList.lookup_erase_ne same
    dsimp only
    split_ifs <;> simp [IsOpen, fail, erased] <;> split_ifs <;> simp [*]

/-- Opening fails, or opens the number answered. -/
theorem openat_cases {dirfd : U32} {path : List Char} {flags mode : U32} :
    (∃ e, (h.openat dirfd path flags mode).1 = .error e ∧
      ∀ x, (h.openat dirfd path flags mode).2.IsOpen x ↔ h.IsOpen x) ∨
    h.answer.ok ∧ (h.openat dirfd path flags mode).1 = .ok h.answer.fd ∧
      ∀ x, (h.openat dirfd path flags mode).2.IsOpen x ↔ x = h.answer.fd ∨ h.IsOpen x := by
  simp only [openat]
  split_ifs with ok
  · exact .inr ⟨ok, rfl, isOpen_of_insert rfl⟩
  · exact .inl ⟨_, rfl, fun x => Iff.rfl⟩

/-- Duplicating fails, or opens the number answered. -/
theorem dup_cases :
    (∃ e, (h.dup fd).1 = .error e ∧ ∀ x, (h.dup fd).2.IsOpen x ↔ h.IsOpen x) ∨
    h.answer.ok ∧ (h.dup fd).1 = .ok h.answer.fd ∧
      ∀ x, (h.dup fd).2.IsOpen x ↔ x = h.answer.fd ∨ h.IsOpen x := by
  simp only [dup, record_fds]
  cases h.fds.lookup fd with
  | none => exact .inl ⟨_, rfl, fun x => Iff.rfl⟩
  | some d =>
    dsimp only
    split_ifs with ok
    · exact .inr ⟨ok, rfl, isOpen_of_insert rfl⟩
    · exact .inl ⟨_, rfl, fun x => Iff.rfl⟩

end Host

end ValkyrieRs

import ValkyrieRs.Proof.Descriptors
import ValkyrieRs.Syscall.Fd

/-!
# The guest's descriptors

Which numbers are live descriptors of the guest, and when a call on a descriptor answers `EBADF`.
Only `open`, `openat` and `dup` of a tracked descriptor record what they hand out, some calls look
a number up in the table and some hand its low 32 bits to the host.  The calls tell live numbers
from others exactly as long as every descriptor comes from a call that records it and the host has
none of its own.
-/

namespace ValkyrieRs

open Proc

/-! ## Calls on a descriptor -/

/-- The calls that take a descriptor as their first argument. -/
inductive FdCall where
  | read
  | write
  | lseek
  | dup
  | ioctl
  | getdents64
  | fadvise64
  | close
deriving DecidableEq

/-- The handler of the call. -/
def FdCall.handler : FdCall → SubCtx → VkM U64
  | .read => sysRead
  | .write => sysWrite
  | .lseek => sysLseek
  | .dup => sysDup
  | .ioctl => sysIoctl
  | .getdents64 => sysGetdents64
  | .fadvise64 => sysFadvise64
  | .close => sysClose

/-- The number that a handler makes of the low 32 bits. -/
def SubCtx.lowFd (sctx : SubCtx) : U64 := (sctx.arg0.setWidth 32 : U32).signExtend 64

/-- The descriptor that a host call is about. -/
def HostCall.fd? : HostCall → Option U32
  | .dup fd => some fd
  | .close fd => some fd
  | .read fd _ => some fd
  | .seek fd _ => some fd
  | .write fd _ => some fd
  | .pread fd _ _ => some fd
  | .lseek fd _ _ => some fd
  | .ioctl fd _ _ => some fd
  | .getdents64 fd _ => some fd
  | .fadvise fd _ _ _ => some fd
  | .fcntl fd _ _ => some fd
  | .recvfrom fd _ _ _ => some fd
  | .fstat fd => some fd
  | .fgetxattr fd _ _ => some fd
  | _ => none

/-- The host is not called, or only about a descriptor that is not open. -/
def NoHostEffect (host host' : Host) : Prop :=
  host' = host ∨ ∃ call fd, call.fd? = some fd ∧ ¬ host.IsOpen fd ∧
    host' = (host.record call).fail EBADF

/-- The host descriptor behind a number. -/
def behind (vk : Valkyrie) (n : U64) : U32 := tableOrRaw vk.fdTable n

/-- The call answers `EBADF` for a number that is not live, with no effect on the host, and does not
for a live one whose host descriptor is open. -/
structure AnswersExactly (vk : Valkyrie) (live : Set U64) (c : FdCall) (sctx : SubCtx) : Prop where
  dead : sctx.arg0 ∉ live → ∃ vk', (c.handler sctx).Ends vk (.ok (negErrno EBADF)) vk' ∧
    NoHostEffect vk.host vk'.host
  alive : sctx.arg0 ∈ live → vk.host.IsOpen (behind vk sctx.arg0) →
    ∀ r vk', (c.handler sctx).Ends vk r vk' → r ≠ .ok (negErrno EBADF)

/-! ## Error numbers -/

theorem ne_negErrno_of_lt {v : U64} (lt : v.toNat < 2 ^ 63) : v ≠ negErrno EBADF := by
  rintro rfl
  have value : (negErrno EBADF).toNat = 2 ^ 64 - 9 := by decide
  omega

theorem signExtend_ne_negErrno {fd : U32} (nonneg : 0 ≤ fd.toInt) :
    fd.signExtend 64 ≠ negErrno EBADF := by
  intro same
  have number : fd = -9 := signExtend_inj (same.trans (by decide))
  rw [number] at nonneg
  exact absurd nonneg (by decide)

/-! ## The host's part -/

section Host

variable {h : Host} {fd : U32}

theorem Host.lookup_of_closed (closed : ¬ h.IsOpen fd) : h.fds.lookup fd = none := by
  simpa [Host.IsOpen] using closed

theorem Host.onFd_of_closed {α : Type} {call : HostCall}
    {effect : HostAnswer → ℕ → Host → Except U32 α × Host} (closed : ¬ h.IsOpen fd) :
    h.onFd call fd effect = (.error EBADF, (h.record call).fail EBADF) := by
  simp only [Host.onFd, Host.record_fds, Host.lookup_of_closed closed]

theorem Host.read_of_closed {n : ℕ} (closed : ¬ h.IsOpen fd) :
    h.read fd n = (.error EBADF, (h.record (.read fd n)).fail EBADF) := by
  simp only [Host.read, Host.record_fds, Host.lookup_of_closed closed]

theorem Host.close_of_closed (closed : ¬ h.IsOpen fd) :
    h.close fd = (.error EBADF, (h.record (.close fd)).fail EBADF) := by
  simp only [Host.close, Host.record_fds, Host.lookup_of_closed closed]

/-- The host answers with error numbers and with descriptors that are neither negative nor open. -/
structure LegalAnswer (h : Host) : Prop where
  isErrno : IsNegErrno (negErrno h.answer.errno)
  nonneg : 0 ≤ h.answer.fd.toInt
  fresh : FreshAnswer h

/-- The host answers `EBADF` about descriptors that are not open only. -/
structure WellAnswered (h : Host) : Prop extends LegalAnswer h where
  errno_ne : h.answer.errno ≠ EBADF

/-- The error of a call is the host's `errno`, and not `EBADF`. -/
def NotBadFd {α : Type} (out : Except U32 α × Host) : Prop :=
  ∀ e, out.1 = .error e → e ≠ EBADF ∧ out.2.errno = e

theorem Host.onFd_notBadFd {α : Type} {call : HostCall}
    {effect : HostAnswer → ℕ → Host → Except U32 α × Host} (isOpen : h.IsOpen fd)
    (answered : h.answer.errno ≠ EBADF) (effects : ∀ a d h, NotBadFd (effect a d h)) :
    NotBadFd (h.onFd call fd effect) := by
  intro e error
  obtain ⟨d, found⟩ := Option.isSome_iff_exists.1 isOpen
  simp only [Host.onFd, Host.record_fds, found] at error ⊢
  split_ifs at error ⊢ with ok
  · exact effects _ _ _ e error
  · cases error
    exact ⟨answered, rfl⟩

theorem Host.ask_notBadFd {α : Type} {call : HostCall} {result : HostAnswer → α}
    (answered : h.answer.errno ≠ EBADF) : NotBadFd (h.ask call result) := by
  intro e error
  simp only [Host.ask] at error ⊢
  split_ifs at error ⊢ with ok
  cases error
  exact ⟨answered, rfl⟩

theorem Host.read_notBadFd {n : ℕ} (isOpen : h.IsOpen fd) (answered : h.answer.errno ≠ EBADF) :
    NotBadFd (h.read fd n) := by
  intro e error
  obtain ⟨d, found⟩ := Option.isSome_iff_exists.1 isOpen
  simp only [Host.read, Host.record_fds, found] at error ⊢
  split_ifs at error ⊢ with ok
  cases error
  exact ⟨answered, rfl⟩

theorem Host.dup_notBadFd (isOpen : h.IsOpen fd) (answered : h.answer.errno ≠ EBADF) :
    NotBadFd (h.dup fd) := by
  intro e error
  obtain ⟨d, found⟩ := Option.isSome_iff_exists.1 isOpen
  simp only [Host.dup, Host.record_fds, found] at error ⊢
  split_ifs at error ⊢ with ok
  cases error
  exact ⟨answered, rfl⟩

theorem notBadFd_ok {α : Type} {v : α} : NotBadFd (.ok v, h) := nofun

end Host

/-! ## Numbers that are not live -/

/-- The number is no descriptor in any of the ways that the handlers look at it. -/
structure Dead (vk : Valkyrie) (sctx : SubCtx) : Prop where
  other : ¬ sctx.arg0 ≤ 2
  untracked : vk.fdTable.lookup sctx.arg0 = none
  lowOther : ¬ sctx.lowFd ≤ 2
  lowUntracked : vk.fdTable.lookup sctx.lowFd = none
  closed : ¬ vk.host.IsOpen (sctx.arg0.setWidth 32)

/-- What a call needs besides its descriptor to get as far as looking at it. -/
def FdCall.LooksAt (vk : Valkyrie) (sctx : SubCtx) : FdCall → Prop
  | .read => sctx.arg2 ≠ 0 ∧ sctx.arg2.toNat < 2 ^ 63
  | .write => sctx.arg2 ≠ 0 ∧ sctx.arg2.toNat < 2 ^ 63 ∧
      ∃ buffer, VMemory.read vk.uc sctx.arg1 sctx.arg2.toNat = .ok buffer
  | .getdents64 => sctx.arg2 ≠ 0
  | _ => True

variable {vk vk' : Valkyrie} {sctx : SubCtx}

theorem Dead.hostFd (h : Dead vk sctx) :
    hostFdForGuest vk.fdTable ((sctx.arg0.setWidth 32 : U32).signExtend 64) = none := by
  have other : ¬ (sctx.arg0.setWidth 32 : U32).signExtend 64 ≤ 2 := h.lowOther
  have untracked : vk.fdTable.lookup ((sctx.arg0.setWidth 32 : U32).signExtend 64) = none :=
    h.lowUntracked
  rw [hostFdForGuest, if_neg other, untracked]
  rfl

theorem signExtend_le_two {x : U32} (std : x ≤ 2) : x.signExtend 64 ≤ 2 := by
  have msb : x.msb = false := by
    rw [BitVec.msb_eq_false_iff_two_mul_lt]
    bv_omega
  rw [BitVec.signExtend_eq_setWidth_of_msb_false msb]
  bv_omega

/-- The state after the host has refused a call. -/
abbrev Valkyrie.refused (vk : Valkyrie) (call : HostCall) : Valkyrie :=
  vk.withHost ((vk.host.record call).fail EBADF)

theorem Dead.noHostEffect (h : Dead vk sctx) {call : HostCall}
    (about : call.fd? = some (sctx.arg0.setWidth 32)) :
    NoHostEffect vk.host (vk.refused call).host :=
  .inr ⟨call, _, about, h.closed, rfl⟩

theorem Dead.read (h : Dead vk sctx) (looks : FdCall.read.LooksAt vk sctx) :
    (sysRead sctx).Ends vk (.ok (negErrno EBADF))
      (vk.refused (.read (sctx.arg0.setWidth 32) sctx.arg2.toNat)) := by
  obtain ⟨nonzero, lt⟩ := looks
  have notStdin : sctx.arg0 ≠ 0 := fun zero => h.other (by rw [zero]; decide)
  have taken : (readFd sctx.arg0 sctx.arg2.toNat).Ends vk (.ok (.error (negErrno EBADF)))
      (vk.refused (.read (sctx.arg0.setWidth 32) sctx.arg2.toNat)) := by
    simp only [readFd]
    rw [ends_bind_get]
    simp only [notStdin, if_false, h.untracked]
    rw [ends_bind_hostCall, Host.read_of_closed h.closed]
    exact Ends.bind (ends_lastErrno.2 ⟨rfl, rfl⟩) (ends_pure.2 ⟨rfl, rfl⟩)
  simp only [sysRead, nonzero, if_false]
  rw [ends_bind_hostAlloc]
  exact ⟨lt, Ends.bind taken (ends_pure.2 ⟨rfl, rfl⟩)⟩

theorem Dead.write (h : Dead vk sctx) (looks : FdCall.write.LooksAt vk sctx) :
    ∃ buffer, (sysWrite sctx).Ends vk (.ok (negErrno EBADF))
      (vk.refused (.write (sctx.arg0.setWidth 32) buffer)) := by
  obtain ⟨nonzero, lt, buffer, readable⟩ := looks
  have notStdout : sctx.arg0 ≠ 1 := fun one => h.other (by rw [one]; decide)
  have notStderr : sctx.arg0 ≠ 2 := fun two => h.other (by rw [two])
  refine ⟨buffer, ?_⟩
  simp only [sysWrite, nonzero, if_false]
  refine Ends.bind (ends_memRead.2 ⟨lt, readable.symm, rfl⟩) ?_
  rw [ends_bind_get, ends_bind_hostCall]
  simp only [notStdout, notStderr, if_false, tableOrRaw, h.untracked, Host.write]
  rw [Host.onFd_of_closed h.closed]
  exact ends_lastErrno.2 ⟨rfl, rfl⟩

theorem Dead.lseek (h : Dead vk sctx) :
    (sysLseek sctx).Ends vk (.ok (negErrno EBADF)) (vk.refused
      (.lseek (sctx.arg0.setWidth 32) sctx.arg1 (sctx.arg2.setWidth 32))) := by
  have refused : (seekFd sctx.arg0 sctx.arg1 (sctx.arg2.setWidth 32)).Ends vk
      (.ok (.error EBADF)) (vk.refused
        (.lseek (sctx.arg0.setWidth 32) sctx.arg1 (sctx.arg2.setWidth 32))) := by
    simp only [seekFd]
    rw [ends_bind_get]
    simp only [h.other, if_false, h.untracked]
    rw [ends_hostCall, Host.lseek, Host.onFd_of_closed h.closed]
    exact ⟨rfl, rfl⟩
  exact Ends.bind refused (ends_pure.2 ⟨rfl, rfl⟩)

theorem Dead.dup (h : Dead vk sctx) : (sysDup sctx).Ends vk (.ok (negErrno EBADF)) vk := by
  refine (ends_sysDup_none ?_).2 ⟨rfl, rfl⟩
  by_cases negative : (sctx.arg0.setWidth 32 : U32).toInt < 0
  · exact .inl negative
  · refine .inr ⟨fun std => h.lowOther ?_, h.lowUntracked⟩
    exact signExtend_le_two ((toInt_le_two_iff negative).1 std)

theorem Dead.ioctl (h : Dead vk sctx) : (sysIoctl sctx).Ends vk (.ok (negErrno EBADF)) vk := by
  simp only [sysIoctl]
  by_cases negative : (sctx.arg0.setWidth 32 : U32).toInt < 0
  · rw [if_pos negative]
    exact ends_pure.2 ⟨rfl, rfl⟩
  · rw [if_neg negative, ends_bind_get]
    simp only [h.hostFd]
    exact ends_pure.2 ⟨rfl, rfl⟩

theorem Dead.getdents64 (h : Dead vk sctx) (looks : FdCall.getdents64.LooksAt vk sctx) :
    (sysGetdents64 sctx).Ends vk (.ok (negErrno EBADF)) vk := by
  have nonzero : sctx.arg2 ≠ 0 := looks
  simp only [sysGetdents64, nonzero, if_false]
  by_cases negative : (sctx.arg0.setWidth 32 : U32).toInt < 0
  · rw [if_pos negative]
    exact ends_pure.2 ⟨rfl, rfl⟩
  · rw [if_neg negative, ends_bind_get]
    simp only [h.hostFd]
    exact ends_pure.2 ⟨rfl, rfl⟩

theorem Dead.fadvise64 (h : Dead vk sctx) :
    (sysFadvise64 sctx).Ends vk (.ok (negErrno EBADF)) vk := by
  simp only [sysFadvise64]
  by_cases negative : (sctx.arg0.setWidth 32 : U32).toInt < 0
  · rw [if_pos negative]
    exact ends_pure.2 ⟨rfl, rfl⟩
  · rw [if_neg negative, ends_bind_get]
    simp only [h.hostFd]
    exact ends_pure.2 ⟨rfl, rfl⟩

theorem Dead.close (h : Dead vk sctx) : (sysClose sctx).Ends vk (.ok (negErrno EBADF))
    (vk.refused (.close (sctx.arg0.setWidth 32))) := by
  simp only [sysClose, h.other, if_false]
  rw [ends_bind_get]
  simp only [h.untracked]
  rw [ends_bind_hostCall, Host.close_of_closed h.closed]
  exact ends_lastErrno.2 ⟨rfl, rfl⟩

/-- Each call refuses such a number without an effect on the host. -/
theorem Dead.answers (h : Dead vk sctx) {c : FdCall} (looks : c.LooksAt vk sctx) :
    ∃ vk', (c.handler sctx).Ends vk (.ok (negErrno EBADF)) vk' ∧
      NoHostEffect vk.host vk'.host := by
  cases c with
  | read => exact ⟨_, h.read looks, h.noHostEffect rfl⟩
  | write =>
    obtain ⟨buffer, run⟩ := h.write looks
    exact ⟨_, run, h.noHostEffect rfl⟩
  | lseek => exact ⟨_, h.lseek, h.noHostEffect rfl⟩
  | dup => exact ⟨_, h.dup, .inl rfl⟩
  | ioctl => exact ⟨_, h.ioctl, .inl rfl⟩
  | getdents64 => exact ⟨_, h.getdents64 looks, .inl rfl⟩
  | fadvise64 => exact ⟨_, h.fadvise64, .inl rfl⟩
  | close => exact ⟨_, h.close, h.noHostEffect rfl⟩

/-! ## Live numbers -/

/-- The number is a standard descriptor or a tracked one, and the host's is open. -/
structure Alive (vk : Valkyrie) (sctx : SubCtx) : Prop where
  known : sctx.arg0 ≤ 2 ∨ ∃ f, vk.fdTable.lookup sctx.arg0 = some f
  low : sctx.lowFd = sctx.arg0
  nonneg : ¬ (sctx.arg0.setWidth 32 : U32).toInt < 0
  hostFd : hostFdForGuest vk.fdTable sctx.arg0 = some (behind vk sctx.arg0)
  isOpen : vk.host.IsOpen (behind vk sctx.arg0)

theorem NotBadFd.errno_ne {α : Type} {out : Except U32 α × Host} (h : NotBadFd out) {e : U32}
    (error : out.1 = .error e) : negErrno out.2.errno ≠ negErrno EBADF := by
  obtain ⟨ne, errno⟩ := h e error
  exact fun same => ne (errno ▸ negErrno_inj same)

/-- A host call whose error is reported. -/
theorem NotBadFd.result_ne {α : Type} {call : Host → Except U32 α × Host}
    {f : Except U32 α → VkM U64} {r : Except ValkyrieError U64} (h : NotBadFd (call vk.host))
    (reports : ∀ e, f (.error e) = lastErrno) (run : (hostCall call >>= f).Ends vk r vk')
    (good : ∀ a, (call vk.host).1 = .ok a →
      (f (.ok a)).Ends (vk.withHost (call vk.host).2) r vk' → r ≠ .ok (negErrno EBADF)) :
    r ≠ .ok (negErrno EBADF) := by
  rw [ends_bind_hostCall] at run
  cases result : (call vk.host).1 with
  | error e =>
    rw [result, reports] at run
    rw [(ends_lastErrno.1 run).1]
    exact fun same => h.errno_ne result (Except.ok.inj same)
  | ok a =>
    rw [result] at run
    exact good a result run

/-- The length of a buffer. -/
theorem ofNat_ne_negErrno {n : ℕ} (lt : n < 2 ^ 63) : BitVec.ofNat 64 n ≠ negErrno EBADF := by
  apply ne_negErrno_of_lt
  rw [BitVec.toNat_ofNat]
  omega

theorem pure_ne {v : U64} {r : Except ValkyrieError U64} (ne : v ≠ negErrno EBADF)
    (run : (pure v : VkM U64).Ends vk r vk') : r ≠ .ok (negErrno EBADF) := by
  rw [(ends_pure.1 run).1]
  exact fun same => ne (Except.ok.inj same)

/-- Bytes delivered to the guest, and their number. -/
theorem delivered_ne {addr : U64} {bytes : List U8} {r : Except ValkyrieError U64}
    (lt : bytes.length < 2 ^ 63)
    (run : (memWrite addr bytes >>= fun _ => pure (BitVec.ofNat 64 bytes.length) : VkM U64).Ends
      vk r vk') : r ≠ .ok (negErrno EBADF) := by
  rcases ends_bind.1 run with ⟨e, -, rfl⟩ | ⟨_, t, -, rest⟩
  · nofun
  · exact pure_ne (ofNat_ne_negErrno lt) rest

theorem Host.read_length {h : Host} {fd : U32} {n : ℕ} {data : List U8}
    (ok : (h.read fd n).1 = .ok data) : data.length ≤ n := by
  have delivered : h.read fd n = (.ok data, (h.read fd n).2) := Prod.ext ok rfl
  obtain ⟨d, -, rfl⟩ := Host.read_ok delivered
  rw [List.length_take]
  omega

theorem Host.readStdin_notBadFd {h : Host} {n : ℕ} (answered : h.answer.errno ≠ EBADF) :
    NotBadFd (h.readStdin n) := by
  intro e error
  simp only [Host.readStdin] at error ⊢
  split_ifs at error ⊢ with ok
  cases error
  exact ⟨answered, rfl⟩

theorem Host.readStdin_length {h : Host} {n : ℕ} {data : List U8}
    (ok : (h.readStdin n).1 = .ok data) : data.length ≤ n := by
  simp only [Host.readStdin] at ok
  split_ifs at ok
  cases ok
  rw [List.length_take]
  omega

/-- What `sys_read` takes from an open descriptor: an error that is not `EBADF`, or at most as many
bytes as were asked for. -/
def Taken (count : ℕ) : Except U64 (List U8) → Prop
  | .error errno => errno ≠ negErrno EBADF
  | .ok bytes => bytes.length ≤ count

theorem readFd_taken {fd : U64} {count : ℕ} {r : Except ValkyrieError (Except U64 (List U8))}
    (isOpen : vk.host.IsOpen (behind vk fd)) (answered : vk.host.answer.errno ≠ EBADF)
    (run : (readFd fd count).Ends vk r vk') : ∃ taken, r = .ok taken ∧ Taken count taken := by
  rw [readFd, ends_bind_get] at run
  split_ifs at run with stdin more empty
  · rw [ends_bind_modify] at run
    refine ⟨_, (ends_pure.1 run).1, ?_⟩
    show List.length (List.take _ _) ≤ count
    rw [List.length_take]
    omega
  · rw [ends_bind_hostCall] at run
    cases result : (vk.host.readStdin count).1 with
    | error e =>
      rw [result] at run
      obtain ⟨_, _, last, rest⟩ := (ends_bind.1 run).resolve_left (by simp)
      obtain ⟨same, rfl⟩ := ends_lastErrno.1 last
      cases same
      exact ⟨_, (ends_pure.1 rest).1, (Host.readStdin_notBadFd answered).errno_ne result⟩
    | ok bytes =>
      rw [result] at run
      exact ⟨_, (ends_pure.1 run).1, Host.readStdin_length result⟩
  · exact ⟨_, (ends_pure.1 run).1, Nat.zero_le _⟩
  · change (hostCall (fun h => h.read (behind vk fd) count) >>= _).Ends vk r vk' at run
    rw [ends_bind_hostCall] at run
    cases result : (vk.host.read (behind vk fd) count).1 with
    | error e =>
      rw [result] at run
      obtain ⟨_, _, last, rest⟩ := (ends_bind.1 run).resolve_left (by simp)
      obtain ⟨same, rfl⟩ := ends_lastErrno.1 last
      cases same
      exact ⟨_, (ends_pure.1 rest).1, (Host.read_notBadFd isOpen answered).errno_ne result⟩
    | ok bytes =>
      rw [result] at run
      exact ⟨_, (ends_pure.1 run).1, Host.read_length result⟩

section Alive

variable {r : Except ValkyrieError U64}

theorem zero_ne_negErrno : (0 : U64) ≠ negErrno EBADF := by decide

theorem Alive.read (h : Alive vk sctx) (answered : vk.host.answer.errno ≠ EBADF)
    (run : (sysRead sctx).Ends vk r vk') : r ≠ .ok (negErrno EBADF) := by
  simp only [sysRead] at run
  split_ifs at run with zero
  · exact pure_ne zero_ne_negErrno run
  rw [ends_bind_hostAlloc] at run
  obtain ⟨lt, run⟩ := run
  rcases ends_bind.1 run with ⟨e, -, rfl⟩ | ⟨taken, t, first, rest⟩
  · nofun
  obtain ⟨_, same, good⟩ := readFd_taken h.isOpen answered first
  cases same
  cases taken with
  | error errno =>
    exact pure_ne good rest
  | ok bytes =>
    have short : bytes.length < 2 ^ 63 := lt_of_le_of_lt good lt
    dsimp only at rest
    split_ifs at rest with nonempty
    · exact delivered_ne short rest
    · exact pure_ne (ofNat_ne_negErrno short) rest

theorem Host.writeStdout_length {h : Host} {data : List U8} {n : ℕ}
    (ok : (h.writeStdout data).1 = .ok n) : n ≤ data.length := by
  simp only [Host.writeStdout, Host.ask] at ok
  split_ifs at ok
  cases ok
  exact Nat.min_le_left ..

theorem Host.writeStderr_length {h : Host} {data : List U8} {n : ℕ}
    (ok : (h.writeStderr data).1 = .ok n) : n ≤ data.length := by
  simp only [Host.writeStderr, Host.ask] at ok
  split_ifs at ok
  cases ok
  exact Nat.min_le_left ..

theorem Host.write_length {h : Host} {fd : U32} {data : List U8} {n : ℕ}
    (ok : (h.write fd data).1 = .ok n) : n ≤ data.length := by
  simp only [Host.write, Host.onFd, Host.record_fds] at ok
  cases found : h.fds.lookup fd with
  | none => simp [found] at ok
  | some d =>
    simp only [found] at ok
    split_ifs at ok
    cases ok
    rw [List.length_take]
    exact Nat.min_le_right ..

theorem VMemory.length_of_read {uc : Unicorn} {addr : U64} {n : ℕ} {data : List U8}
    (ok : VMemory.read uc addr n = .ok data) : data.length = n := by
  have read := (VMemory.read_ok_iff.1 ok).2
  rw [Unicorn.memRead] at read
  split_ifs at read
  cases read
  simp [Unicorn.contents]

theorem Alive.write (h : Alive vk sctx) (answered : vk.host.answer.errno ≠ EBADF)
    (run : (sysWrite sctx).Ends vk r vk') : r ≠ .ok (negErrno EBADF) := by
  by_cases zero : sctx.arg2 = 0
  · simp only [sysWrite, zero, if_true] at run
    exact pure_ne zero_ne_negErrno run
  simp only [sysWrite, zero, if_false] at run
  rcases ends_bind.1 run with ⟨e, -, rfl⟩ | ⟨buffer, t, first, rest⟩
  · nofun
  obtain ⟨lt, read, rfl⟩ := ends_memRead.1 first
  have length : buffer.length < 2 ^ 63 := VMemory.length_of_read read.symm ▸ lt
  rw [ends_bind_get] at rest
  split_ifs at rest with stdout stderr
  · refine NotBadFd.result_ne (Host.ask_notBadFd answered) (fun _ => rfl) rest fun n ok last => ?_
    exact pure_ne (ofNat_ne_negErrno (lt_of_le_of_lt (Host.writeStdout_length ok) length)) last
  · refine NotBadFd.result_ne (Host.ask_notBadFd answered) (fun _ => rfl) rest fun n ok last => ?_
    exact pure_ne (ofNat_ne_negErrno (lt_of_le_of_lt (Host.writeStderr_length ok) length)) last
  · refine NotBadFd.result_ne (Host.onFd_notBadFd h.isOpen answered fun _ _ _ => notBadFd_ok)
      (fun _ => rfl) rest fun n ok last => ?_
    exact pure_ne (ofNat_ne_negErrno (lt_of_le_of_lt (Host.write_length ok) length)) last

theorem Host.lseek_ok {h : Host} {fd : U32} {offset pos : U64} {whence : U32}
    (ok : (h.lseek fd offset whence).1 = .ok pos) : pos.toNat < 2 ^ 63 := by
  simp only [Host.lseek, Host.onFd, Host.record_fds] at ok
  cases found : h.fds.lookup fd with
  | none => simp [found] at ok
  | some d =>
    simp only [found] at ok
    split_ifs at ok
    generalize Host.seekTarget _ _ _ _ = target at ok
    cases target with
    | error e => cases ok
    | ok pos =>
      dsimp only at ok
      split_ifs at ok with bad
      cases ok
      rw [BitVec.toNat_ofInt]
      omega

theorem Host.seekTarget_ne {f : Description} {offset : U64} {whence e : U32} {a : HostAnswer}
    (error : Host.seekTarget f offset whence a = .error e) : e ≠ EBADF := by
  rw [Host.seekTarget] at error
  split_ifs at error
  · cases error
    decide
  · cases error
    decide

theorem Host.lseek_notBadFd {h : Host} {fd : U32} {offset : U64} {whence : U32}
    (isOpen : h.IsOpen fd) (answered : h.answer.errno ≠ EBADF) :
    NotBadFd (h.lseek fd offset whence) := by
  refine Host.onFd_notBadFd isOpen answered fun a d h => ?_
  dsimp only
  cases target : Host.seekTarget (h.descriptions.getD d ⟨[], 0⟩) offset whence a with
  | error e =>
    intro e' error
    cases error
    exact ⟨Host.seekTarget_ne target, rfl⟩
  | ok pos =>
    dsimp only
    split_ifs
    · intro e error
      cases error
      exact ⟨by decide, rfl⟩
    · exact notBadFd_ok

/-- The answer about a position. -/
def Sought : Except U32 U64 → Prop
  | .error e => e ≠ EBADF
  | .ok pos => pos.toNat < 2 ^ 63

theorem seekFd_sought {fd offset : U64} {whence : U32} {r : Except ValkyrieError (Except U32 U64)}
    (isOpen : vk.host.IsOpen (behind vk fd)) (answered : vk.host.answer.errno ≠ EBADF)
    (hostFd : hostFdForGuest vk.fdTable fd = some (behind vk fd))
    (run : (seekFd fd offset whence).Ends vk r vk') : ∃ sought, r = .ok sought ∧ Sought sought := by
  have asked : ∀ x, vk.host.IsOpen x → Sought (vk.host.lseek x offset whence).1 := by
    intro x open_
    cases result : (vk.host.lseek x offset whence).1 with
    | error e => exact (Host.lseek_notBadFd open_ answered e result).1
    | ok pos => exact Host.lseek_ok result
  rw [seekFd, ends_bind_get] at run
  by_cases std : fd ≤ 2
  · rw [hostFdForGuest, if_pos std, Option.some_inj] at hostFd
    rw [if_pos std, ends_hostCall] at run
    exact ⟨_, run.1, asked _ (hostFd ▸ isOpen)⟩
  · rw [hostFdForGuest, if_neg std] at hostFd
    cases tracked : vk.fdTable.lookup fd with
    | none =>
      rw [tracked] at hostFd
      cases hostFd
    | some f =>
      rw [tracked, Option.map_some, Option.some_inj] at hostFd
      rw [if_neg std, tracked] at run
      dsimp only at run
      split_ifs at run
      · exact ⟨_, (ends_hostCall.1 run).1, asked _ (hostFd ▸ isOpen)⟩
      · exact ⟨_, (ends_pure.1 run).1, (by decide : EINVAL ≠ EBADF)⟩

theorem Alive.lseek (h : Alive vk sctx) (answered : vk.host.answer.errno ≠ EBADF)
    (run : (sysLseek sctx).Ends vk r vk') : r ≠ .ok (negErrno EBADF) := by
  rcases ends_bind.1 run with ⟨e, -, rfl⟩ | ⟨out, t, first, rest⟩
  · nofun
  obtain ⟨_, same, good⟩ := seekFd_sought h.isOpen answered h.hostFd first
  cases same
  cases out with
  | error e => exact pure_ne (fun same => good (negErrno_inj same)) rest
  | ok pos => exact pure_ne (ne_negErrno_of_lt good) rest

theorem Host.dup_value {h : Host} {fd file : U32} (ok : (h.dup fd).1 = .ok file) :
    file = h.answer.fd := by
  rcases @Host.dup_cases h fd with ⟨e, error, -⟩ | ⟨-, same, -⟩
  · rw [error] at ok
    cases ok
  · exact Except.ok.inj (ok.symm.trans same)

theorem dupHost_ne {fd : U32} (isOpen : vk.host.IsOpen fd) (answered : WellAnswered vk.host) :
    (vk.dupHost fd).1 ≠ .ok (negErrno EBADF) := by
  have notBad := Host.dup_notBadFd isOpen answered.errno_ne
  have value := @Host.dup_value vk.host fd
  rw [Valkyrie.dupHost]
  generalize vk.host.dup fd = out at notBad value
  obtain ⟨ret, host⟩ := out
  cases ret with
  | error e => exact fun same => notBad.errno_ne rfl (Except.ok.inj same)
  | ok file =>
    have nonneg : 0 ≤ file.toInt := value rfl ▸ answered.nonneg
    exact fun same => signExtend_ne_negErrno nonneg (Except.ok.inj same)

/-- A tracked descriptor is answered as the host's is. -/
theorem duplicated_fst (f : VkFile) : (vk.duplicated f).1 = (vk.dupHost f.file).1 := by
  rw [Valkyrie.duplicated, Valkyrie.dupHost]
  generalize vk.host.dup f.file = out
  obtain ⟨ret, host⟩ := out
  cases ret <;> rfl

theorem duplicated_ne {f : VkFile} (isOpen : vk.host.IsOpen f.file)
    (answered : WellAnswered vk.host) : (vk.duplicated f).1 ≠ .ok (negErrno EBADF) := by
  rw [duplicated_fst]
  exact dupHost_ne isOpen answered

theorem Alive.dup (h : Alive vk sctx) (answered : WellAnswered vk.host)
    (run : (sysDup sctx).Ends vk r vk') : r ≠ .ok (negErrno EBADF) := by
  have low : (sctx.arg0.setWidth 32 : U32).signExtend 64 = sctx.arg0 := h.low
  have hostFd := h.hostFd
  by_cases std : (sctx.arg0.setWidth 32 : U32).toInt ≤ 2
  · have number : sctx.arg0 ≤ 2 := low ▸ signExtend_le_two ((toInt_le_two_iff h.nonneg).1 std)
    rw [hostFdForGuest, if_pos number, Option.some_inj] at hostFd
    rw [show r = _ from congrArg Prod.fst ((ends_sysDup_std h.nonneg std).1 run)]
    exact dupHost_ne (hostFd ▸ h.isOpen) answered
  · have number : ¬ sctx.arg0 ≤ 2 := fun le => std (by
      rw [toInt_le_two_iff h.nonneg]
      bv_omega)
    obtain ⟨f, tracked⟩ := h.known.resolve_left number
    rw [hostFdForGuest, if_neg number, tracked, Option.map_some, Option.some_inj] at hostFd
    rw [← low] at tracked
    rw [show r = _ from congrArg Prod.fst ((ends_sysDup_tracked h.nonneg std tracked).1 run)]
    exact duplicated_ne (hostFd ▸ h.isOpen) answered

theorem Host.ioctl_value {h : Host} {fd ret : U32} {request : U64} {arg buffer : List U8}
    (ok : (h.ioctl fd request arg).1 = .ok (ret, buffer)) : ret = h.answer.fd := by
  simp only [Host.ioctl, Host.onFd, Host.record_fds] at ok
  cases found : h.fds.lookup fd with
  | none => simp [found] at ok
  | some d =>
    simp only [found] at ok
    split_ifs at ok
    cases ok
    rfl

theorem ioctlBuffer_ne {hostFd : U32} {request arg : U64} {buffer : List U8} {store : Bool}
    (isOpen : vk.host.IsOpen hostFd) (answered : WellAnswered vk.host)
    (run : (ioctlBuffer hostFd request arg buffer store).Ends vk r vk') :
    r ≠ .ok (negErrno EBADF) := by
  refine NotBadFd.result_ne (Host.onFd_notBadFd isOpen answered.errno_ne fun _ _ _ => notBadFd_ok)
    (fun _ => rfl) run fun out ok last => ?_
  obtain ⟨ret, buffer⟩ := out
  have nonneg : 0 ≤ ret.toInt := Host.ioctl_value ok ▸ answered.nonneg
  dsimp only at last
  split_ifs at last
  · rcases ends_bind.1 last with ⟨e, -, rfl⟩ | ⟨_, t, -, last⟩
    · nofun
    · exact pure_ne (signExtend_ne_negErrno nonneg) last
  · exact pure_ne (signExtend_ne_negErrno nonneg) last

theorem Alive.ioctl (h : Alive vk sctx) (answered : WellAnswered vk.host)
    (run : (sysIoctl sctx).Ends vk r vk') : r ≠ .ok (negErrno EBADF) := by
  have hostFd : hostFdForGuest vk.fdTable ((sctx.arg0.setWidth 32 : U32).signExtend 64) =
      some (behind vk sctx.arg0) := (congrArg _ h.low).trans h.hostFd
  have fault : negErrno EFAULT ≠ negErrno EBADF := by decide
  simp only [sysIoctl] at run
  rw [if_neg h.nonneg, ends_bind_get, hostFd] at run
  dsimp only at run
  split_ifs at run
  · exact pure_ne fault run
  · rcases ends_bind.1 run with ⟨e, -, rfl⟩ | ⟨value, t, first, rest⟩
    · nofun
    · obtain ⟨-, -, rfl⟩ := ends_memRead.1 first
      exact ioctlBuffer_ne h.isOpen answered rest
  · rw [ends_bind_pure] at run
    exact ioctlBuffer_ne h.isOpen answered run
  · exact pure_ne fault run
  · exact ioctlBuffer_ne h.isOpen answered run
  · refine NotBadFd.result_ne
      (Host.onFd_notBadFd h.isOpen answered.errno_ne fun _ _ _ => notBadFd_ok) (fun _ => rfl) run
      fun out ok last => ?_
    have nonneg : 0 ≤ out.1.toInt := Host.ioctl_value ok ▸ answered.nonneg
    exact pure_ne (signExtend_ne_negErrno nonneg) last
  · exact pure_ne fault run
  · rcases ends_bind.1 run with ⟨e, -, rfl⟩ | ⟨value, t, first, rest⟩
    · nofun
    · obtain ⟨-, -, rfl⟩ := ends_memRead.1 first
      exact ioctlBuffer_ne h.isOpen answered rest
  · rw [ends_bind_pure] at run
    exact ioctlBuffer_ne h.isOpen answered run

theorem Host.getdents64_length {h : Host} {fd : U32} {n : ℕ} {data : List U8}
    (ok : (h.getdents64 fd n).1 = .ok data) : data.length ≤ n := by
  simp only [Host.getdents64, Host.onFd, Host.record_fds] at ok
  cases found : h.fds.lookup fd with
  | none => simp [found] at ok
  | some d =>
    simp only [found] at ok
    split_ifs at ok
    cases ok
    rw [List.length_take]
    exact Nat.min_le_left ..

theorem Alive.getdents64 (h : Alive vk sctx) (answered : vk.host.answer.errno ≠ EBADF)
    (run : (sysGetdents64 sctx).Ends vk r vk') : r ≠ .ok (negErrno EBADF) := by
  have hostFd : hostFdForGuest vk.fdTable ((sctx.arg0.setWidth 32 : U32).signExtend 64) =
      some (behind vk sctx.arg0) := (congrArg _ h.low).trans h.hostFd
  by_cases zero : sctx.arg2 = 0
  · simp only [sysGetdents64, zero, if_true] at run
    exact pure_ne zero_ne_negErrno run
  simp only [sysGetdents64, zero, if_false] at run
  rw [if_neg h.nonneg, ends_bind_get, hostFd] at run
  dsimp only at run
  rw [ends_bind_hostAlloc] at run
  obtain ⟨lt, run⟩ := run
  refine NotBadFd.result_ne (Host.onFd_notBadFd h.isOpen answered fun _ _ _ => notBadFd_ok)
    (fun _ => rfl) run fun bytes ok last => ?_
  dsimp only at last
  split_ifs at last
  · exact pure_ne zero_ne_negErrno last
  · exact delivered_ne (lt_of_le_of_lt (Host.getdents64_length ok) lt) last

theorem Alive.fadvise64 (h : Alive vk sctx) (answered : vk.host.answer.errno ≠ EBADF)
    (run : (sysFadvise64 sctx).Ends vk r vk') : r ≠ .ok (negErrno EBADF) := by
  have hostFd : hostFdForGuest vk.fdTable ((sctx.arg0.setWidth 32 : U32).signExtend 64) =
      some (behind vk sctx.arg0) := (congrArg _ h.low).trans h.hostFd
  have result : ∀ offset len advice e,
      (vk.host.fadvise (behind vk sctx.arg0) offset len advice).1 = .error e → e ≠ EBADF := by
    intro offset len advice e error
    obtain ⟨d, found⟩ := Option.isSome_iff_exists.1 h.isOpen
    simp only [Host.fadvise, Host.record_fds, found] at error
    split_ifs at error with closed ok
    · cases closed
    · cases error
      exact answered
  simp only [sysFadvise64] at run
  rw [if_neg h.nonneg, ends_bind_get, hostFd] at run
  dsimp only at run
  rw [ends_bind_hostCall] at run
  generalize out : vk.host.fadvise _ _ _ _ = answer at run
  obtain ⟨ret, host⟩ := answer
  cases ret with
  | error e =>
    have ne := result _ _ _ e (congrArg Prod.fst out)
    exact pure_ne (fun same => ne (negErrno_inj same)) run
  | ok u => exact pure_ne zero_ne_negErrno run

theorem Alive.close (h : Alive vk sctx) (run : (sysClose sctx).Ends vk r vk') :
    r ≠ .ok (negErrno EBADF) := by
  have zero : r = .ok 0 := by
    by_cases std : sctx.arg0 ≤ 2
    · exact ((ends_sysClose_std std).1 run).1
    · obtain ⟨f, tracked⟩ := h.known.resolve_left std
      exact ((ends_sysClose_tracked std tracked).1 run).1
  rw [zero]
  exact fun same => zero_ne_negErrno (Except.ok.inj same)

/-- No call refuses such a number as bad. -/
theorem Alive.answers (h : Alive vk sctx) (answered : WellAnswered vk.host) {c : FdCall}
    (run : (c.handler sctx).Ends vk r vk') : r ≠ .ok (negErrno EBADF) := by
  cases c with
  | read => exact h.read answered.errno_ne run
  | write => exact h.write answered.errno_ne run
  | lseek => exact h.lseek answered.errno_ne run
  | dup => exact h.dup answered run
  | ioctl => exact h.ioctl answered run
  | getdents64 => exact h.getdents64 answered.errno_ne run
  | fadvise64 => exact h.fadvise64 answered.errno_ne run
  | close => exact h.close run

end Alive

end ValkyrieRs

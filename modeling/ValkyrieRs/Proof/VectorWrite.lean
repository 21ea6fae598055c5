import ValkyrieRs.Lib.Chunks
import ValkyrieRs.Proof.Unperformed
import ValkyrieRs.Syscall.Writev

/-!
# Vectored writes

`sys_writev` offers the buffers of its entries to the descriptor in order.  The guest gets the number
of the bytes taken, unless an entry that cannot be read is reached after some have been taken: then
the handler fails, and the guest gets zero.
-/

namespace ValkyrieRs

open Proc Chunks

variable {vk vk' : Valkyrie} {sctx : SubCtx} {h : Host} {r : Except ValkyrieError U64} {i n : ℕ}
  {addr fd t : U64} {data : List U8}

/-! ## What is written -/

/-- The buffer of an entry, if the entry and the buffer can be read. -/
def Valkyrie.iovec (vk : Valkyrie) (sctx : SubCtx) (i : ℕ) : Option (List U8) :=
  let width := vk.cfg.arch.wordWidth
  let addr := sctx.arg1 + BitVec.ofNat 64 (i * (width * 2))
  match VMemory.read vk.uc addr width,
    VMemory.read vk.uc (addr + BitVec.ofNat 64 width) width with
  | .ok base, .ok len =>
    if fromLeBytes len = 0 then some []
    else if (fromLeBytes len).toNat < 2 ^ 63 then
      (VMemory.read vk.uc (fromLeBytes base) (fromLeBytes len).toNat).toOption
    else none
  | _, _ => none

/-- The buffers of the entries from `i` on, `n` of them. -/
def Valkyrie.iovecs (vk : Valkyrie) (sctx : SubCtx) (i n : ℕ) : List (Option (List U8)) :=
  (List.range' i n).map (vk.iovec sctx)

/-- The descriptor as a sink; where there is none it takes nothing. -/
def Valkyrie.sink (vk : Valkyrie) (fd : U64) : Sink U8 Host U32 :=
  (descriptorWrite vk fd).getD fun _ h => (.error EBADF, h)

/-- The bytes that the descriptor takes of the buffers, and the host after. -/
def Valkyrie.offered (vk : Valkyrie) (sctx : SubCtx) : List U8 × Host :=
  offer (vk.sink sctx.arg0) (vk.iovecs sctx 0 sctx.arg2.toNat) vk.host

/-- What a handler leaves in the result register: zero for an error. -/
def Arch.guestValue (arch : Arch) (r : Except ValkyrieError U64) : U64 :=
  arch.truncate (match r with
    | .ok v => v
    | .error _ => 0)

/-- However the call ends, the host has taken the bytes that it was offered in order, a prefix of the
buffers; and if it has taken any, the guest gets their number. -/
structure WritevDone (sctx : SubCtx) (vk : Valkyrie) : Prop where
  host : ∀ r vk', (sysWritev sctx).Ends vk r vk' → vk' = vk.withHost (vk.offered sctx).2
  taken : (vk.offered sctx).1 <+: concat (vk.iovecs sctx 0 sctx.arg2.toNat)
  reported : (vk.offered sctx).1 ≠ [] → ∃ r vk', (sysWritev sctx).Ends vk r vk' ∧
    (vk.cfg.arch.guestValue r).toNat = (vk.offered sctx).1.length

/-- No entry that cannot be read is reached after bytes have been taken, and their number fits a word
of the guest. -/
structure Valkyrie.WritevFits (vk : Valkyrie) (sctx : SubCtx) : Prop where
  readable : Blocked (vk.sink sctx.arg0) (vk.iovecs sctx 0 sctx.arg2.toNat) vk.host →
    (vk.offered sctx).1 = []
  small : (vk.offered sctx).1.length < 2 ^ (8 * vk.cfg.arch.wordWidth)

/-! ## One entry -/

theorem wordWidth_lt (arch : Arch) : arch.wordWidth < 2 ^ 63 := by
  cases arch <;> decide

/-- A run that begins with reading a word. -/
theorem ends_bind_readWord {α : Type} {width : ℕ} {f : U64 → VkM α} {r : Except ValkyrieError α} :
    (readWord addr width >>= f).Ends vk r vk' ↔ width < 2 ^ 63 ∧
      ((∃ data, VMemory.read vk.uc addr width = .ok data ∧
          (f (fromLeBytes data)).Ends vk r vk') ∨
        ∃ e, VMemory.read vk.uc addr width = .error e ∧ r = .error e ∧ vk' = vk) := by
  have := lawfulMonad (σ := Valkyrie) (ε := ValkyrieError)
  rw [readWord, bind_assoc, ends_bind_memRead]
  simp only [ends_bind_pure]

theorem ends_readWord {width : ℕ} (small : width < 2 ^ 63)
    (read : VMemory.read vk.uc addr width = .ok data) :
    (readWord addr width).Ends vk (.ok (fromLeBytes data)) vk :=
  (ends_memRead.2 ⟨small, read.symm, rfl⟩).bind (ends_pure.2 ⟨rfl, rfl⟩)

/-- The loop at an entry that cannot be read. -/
theorem ends_writevLoop_none (missing : vk.iovec sctx i = none)
    (run : (writevLoop sctx.arg0 sctx.arg1 vk.cfg.arch.wordWidth (n + 1) i t).Ends
      (vk.withHost h) r vk') : vk' = vk.withHost h ∧ ∃ e, r = .error e := by
  rw [writevLoop, ends_bind_readWord] at run
  rcases run.2 with ⟨base, readBase, run⟩ | ⟨e, -, rfl, rfl⟩
  · rw [ends_bind_readWord] at run
    rcases run.2 with ⟨len, readLen, run⟩ | ⟨e, -, rfl, rfl⟩
    · rw [Valkyrie.withHost_uc] at readBase readLen
      rw [Valkyrie.iovec] at missing
      simp only [readBase, readLen] at missing
      by_cases zero : fromLeBytes len = 0
      · rw [if_pos zero] at missing
        cases missing
      rw [if_neg zero] at missing run
      rcases ends_bind_memRead.1 run with ⟨small, ⟨data, read, -⟩ | ⟨e, -, rfl, rfl⟩⟩
      · rw [Valkyrie.withHost_uc] at read
        rw [if_pos small, read] at missing
        cases missing
      · exact ⟨rfl, e, rfl⟩
    · exact ⟨rfl, e, rfl⟩
  · exact ⟨rfl, e, rfl⟩

/-- An entry that can be read: its words, and its buffer unless it is empty. -/
theorem iovec_eq_some (present : vk.iovec sctx i = some data) : ∃ base len,
    VMemory.read vk.uc (sctx.arg1 + BitVec.ofNat 64 (i * (vk.cfg.arch.wordWidth * 2)))
      vk.cfg.arch.wordWidth = .ok base ∧
    VMemory.read vk.uc (sctx.arg1 + BitVec.ofNat 64 (i * (vk.cfg.arch.wordWidth * 2)) +
      BitVec.ofNat 64 vk.cfg.arch.wordWidth) vk.cfg.arch.wordWidth = .ok len ∧
    (fromLeBytes len = 0 ∧ data = [] ∨ fromLeBytes len ≠ 0 ∧ data ≠ [] ∧
      data.length = (fromLeBytes len).toNat ∧ data.length < 2 ^ 63 ∧
      VMemory.read vk.uc (fromLeBytes base) (fromLeBytes len).toNat = .ok data) := by
  simp only [Valkyrie.iovec] at present
  split at present
  next base len readBase readLen =>
    refine ⟨base, len, readBase, readLen, ?_⟩
    split_ifs at present with zero small
    · exact .inl ⟨zero, (Option.some.inj present).symm⟩
    · cases read : VMemory.read vk.uc (fromLeBytes base) (fromLeBytes len).toNat with
      | error e =>
        rw [read] at present
        cases present
      | ok bytes =>
        rw [read] at present
        cases present
        obtain ⟨positive, contents⟩ := VMemory.read_ok_iff.1 read
        have length : data.length = (fromLeBytes len).toNat := by
          rw [(Unicorn.memRead_ok_iff.1 contents).2, Unicorn.length_contents]
        refine .inr ⟨zero, ?_, length, length ▸ small, rfl⟩
        rintro rfl
        exact positive length.symm
  next => cases present

/-- The loop passes over an empty entry. -/
theorem ends_writevLoop_empty (present : vk.iovec sctx i = some []) :
    (writevLoop sctx.arg0 sctx.arg1 vk.cfg.arch.wordWidth (n + 1) i t).Ends (vk.withHost h) r vk' ↔
      (writevLoop sctx.arg0 sctx.arg1 vk.cfg.arch.wordWidth n (i + 1) t).Ends
        (vk.withHost h) r vk' := by
  obtain ⟨base, len, readBase, readLen, ⟨zero, -⟩ | ⟨-, filled, -⟩⟩ := iovec_eq_some present
  · have first := @ends_readWord (vk.withHost h) _ _ _ (wordWidth_lt vk.cfg.arch) readBase
    have second := @ends_readWord (vk.withHost h) _ _ _ (wordWidth_lt vk.cfg.arch) readLen
    rw [writevLoop, first.bind_iff, second.bind_iff, if_pos zero]
  · exact absurd rfl filled

/-- The loop writes the buffer of an entry that is not empty. -/
theorem ends_writevLoop_filled (present : vk.iovec sctx i = some data) (filled : data ≠ []) :
    ∃ len : U64, len.toNat = data.length ∧ ∀ r vk',
      (writevLoop sctx.arg0 sctx.arg1 vk.cfg.arch.wordWidth (n + 1) i t).Ends
          (vk.withHost h) r vk' ↔
        (writevBuffer sctx.arg0 data len t fun total =>
          writevLoop sctx.arg0 sctx.arg1 vk.cfg.arch.wordWidth n (i + 1) total).Ends
            (vk.withHost h) r vk' := by
  obtain ⟨base, len, readBase, readLen, ⟨-, rfl⟩ | ⟨nonzero, -, length, small, read⟩⟩ :=
    iovec_eq_some present
  · exact absurd rfl filled
  · have first := @ends_readWord (vk.withHost h) _ _ _ (wordWidth_lt vk.cfg.arch) readBase
    have second := @ends_readWord (vk.withHost h) _ _ _ (wordWidth_lt vk.cfg.arch) readLen
    have third : (memRead (fromLeBytes base) (fromLeBytes len).toNat).Ends (vk.withHost h)
        (.ok data) (vk.withHost h) := ends_memRead.2 ⟨length ▸ small, read.symm, rfl⟩
    refine ⟨fromLeBytes len, length.symm, fun r vk' => ?_⟩
    rw [writevLoop, first.bind_iff, second.bind_iff, if_neg nonzero, third.bind_iff]

section Buffer

variable {len : U64} {rest : U64 → VkM U64} {e : U32} {h' : Host}

theorem ends_writeCall {write : List U8 → Host → Except U32 ℕ × Host} {x : Except U32 ℕ}
    (route : descriptorWrite vk fd = some write) (answered : vk.sink fd data h = (x, h')) :
    (hostCall (write data)).Ends (vk.withHost h) (.ok x) (vk.withHost h') := by
  rw [Valkyrie.sink, route] at answered
  have call : write data h = (x, h') := answered
  have first : (write data (vk.withHost h).host).1 = x := congrArg Prod.fst call
  have second : (write data (vk.withHost h).host).2 = h' := congrArg Prod.snd call
  rw [ends_hostCall, first, second, Valkyrie.withHost_withHost]
  exact ⟨rfl, rfl⟩

/-- A failed write ends the loop with the bytes written so far, if there are any. -/
theorem ends_writevBuffer_failed (counted : descriptorWrite vk fd = none → t = 0)
    (failed : vk.sink fd data h = (.error e, h')) : ∃ v, (v = t ∨ t = 0) ∧
    (writevBuffer fd data len t rest).Ends (vk.withHost h) (.ok v) (vk.withHost h') := by
  cases route : descriptorWrite vk fd with
  | none =>
    rw [Valkyrie.sink, route] at failed
    cases failed
    refine ⟨negErrno EBADF, .inr (counted route), ?_⟩
    rw [writevBuffer, ends_bind_get]
    simp only [show descriptorWrite (vk.withHost h) fd = none from route]
    exact ends_pure.2 ⟨rfl, rfl⟩
  | some write =>
    have first := ends_writeCall route failed
    by_cases some_ : 0 < t
    · refine ⟨t, .inl rfl, ?_⟩
      rw [writevBuffer, ends_bind_get]
      simp only [show descriptorWrite (vk.withHost h) fd = some write from route, first.bind_iff]
      rw [if_pos some_]
      exact ends_pure.2 ⟨rfl, rfl⟩
    · refine ⟨negErrno (vk.withHost h').host.errno, .inr (by bv_omega), ?_⟩
      rw [writevBuffer, ends_bind_get]
      simp only [show descriptorWrite (vk.withHost h) fd = some write from route, first.bind_iff]
      rw [if_neg some_]
      exact ends_lastErrno.2 ⟨rfl, rfl⟩

/-- After a write the loop goes on, unless the write was short. -/
theorem ends_writevBuffer_ok {c : ℕ} (taken : vk.sink fd data h = (.ok c, h')) :
    (writevBuffer fd data len t rest).Ends (vk.withHost h) r vk' ↔
      (if c < len.toNat then pure (t + BitVec.ofNat 64 c)
        else rest (t + BitVec.ofNat 64 c)).Ends (vk.withHost h') r vk' := by
  cases route : descriptorWrite vk fd with
  | none =>
    rw [Valkyrie.sink, route] at taken
    cases taken
  | some write =>
    have first := ends_writeCall route taken
    rw [writevBuffer, ends_bind_get]
    simp only [show descriptorWrite (vk.withHost h) fd = some write from route, first.bind_iff]

end Buffer

/-- A host call that asks for a number of bytes is answered with no more. -/
theorem ask_le {call : HostCall} {c : ℕ} {h' : Host}
    (ok : h.ask call (fun a => min data.length a.count) = (.ok c, h')) : c ≤ data.length := by
  simp only [Host.ask] at ok
  split_ifs at ok
  · cases ok
    exact min_le_left _ _
  · cases ok

/-- No descriptor takes more than it is given. -/
theorem sink_le {c : ℕ} {h' : Host} (taken : vk.sink fd data h = (.ok c, h')) :
    c ≤ data.length := by
  unfold Valkyrie.sink descriptorWrite at taken
  split_ifs at taken
  · exact ask_le taken
  · exact ask_le taken
  · have file : h.write (tableOrRaw vk.fdTable fd) data = (.ok c, h') := taken
    simp only [Host.write, Host.onFd] at file
    split at file
    · cases file
    · split_ifs at file
      · cases file
        rw [List.length_take]
        exact min_le_right _ _
      · cases file
  · cases taken

/-! ## The loop -/

/-- The loop from an entry on: it ends with the bytes taken, unless it reaches an entry that cannot
be read; and it returns their number, unless that number is zero. -/
theorem ends_writevLoop (counted : descriptorWrite vk sctx.arg0 = none → t = 0) :
    (¬ Blocked (vk.sink sctx.arg0) (vk.iovecs sctx i n) h → ∃ v,
      (writevLoop sctx.arg0 sctx.arg1 vk.cfg.arch.wordWidth n i t).Ends (vk.withHost h) (.ok v)
        (vk.withHost (offer (vk.sink sctx.arg0) (vk.iovecs sctx i n) h).2) ∧
      (v = t + BitVec.ofNat 64 (offer (vk.sink sctx.arg0) (vk.iovecs sctx i n) h).1.length ∨
        t + BitVec.ofNat 64 (offer (vk.sink sctx.arg0) (vk.iovecs sctx i n) h).1.length = 0)) ∧
    (Blocked (vk.sink sctx.arg0) (vk.iovecs sctx i n) h → ∀ r vk',
      (writevLoop sctx.arg0 sctx.arg1 vk.cfg.arch.wordWidth n i t).Ends (vk.withHost h) r vk' →
      vk' = vk.withHost (offer (vk.sink sctx.arg0) (vk.iovecs sctx i n) h).2 ∧
        ∃ e, r = .error e) := by
  induction n generalizing i t h with
  | zero =>
    refine ⟨fun _ => ⟨t, ends_pure.2 ⟨rfl, rfl⟩, .inl ?_⟩, fun blocked => blocked.elim⟩
    exact (BitVec.add_zero t).symm
  | succ n ih =>
    have first : vk.iovecs sctx i (n + 1) = vk.iovec sctx i :: vk.iovecs sctx (i + 1) n := rfl
    rw [first]
    cases present : vk.iovec sctx i with
    | none =>
      refine ⟨fun free => absurd blocked_none free, fun _ r vk' run => ?_⟩
      exact ends_writevLoop_none present run
    | some data =>
      by_cases filled : data = []
      · subst filled
        simp only [offer_empty, blocked_empty, ends_writevLoop_empty present]
        exact ih counted
      obtain ⟨len, length, step⟩ := @ends_writevLoop_filled vk sctx h i n t data present filled
      simp only [step]
      rcases taken : vk.sink sctx.arg0 data h with ⟨e | c, h'⟩
      · obtain ⟨v, value, ends⟩ := @ends_writevBuffer_failed vk h _ t data len
          (fun total => writevLoop sctx.arg0 sctx.arg1 vk.cfg.arch.wordWidth n (i + 1) total) e h'
          counted taken
        rw [offer_failed filled taken]
        refine ⟨fun _ => ⟨v, ends, ?_⟩,
          fun blocked => absurd blocked (not_blocked_failed filled taken)⟩
        rw [List.length_nil, BitVec.add_zero]
        exact value
      · have onward : descriptorWrite vk sctx.arg0 = none → t + BitVec.ofNat 64 c = 0 := by
          intro route
          rw [Valkyrie.sink, route] at taken
          cases taken
        simp only [ends_writevBuffer_ok taken, blocked_cons filled taken, length]
        by_cases short : c < data.length
        · simp only [if_pos short]
          rw [offer_short filled taken short, List.length_take, Nat.min_eq_left short.le]
          exact ⟨fun _ => ⟨_, ends_pure.2 ⟨rfl, rfl⟩, .inl rfl⟩, fun blocked => absurd short blocked.1⟩
        · have all : c = data.length := le_antisymm (sink_le taken) (Nat.not_lt.1 short)
          simp only [short, if_false, not_false_eq_true, true_and]
          rw [offer_whole filled taken short, List.length_append, BitVec.ofNat_add,
            ← BitVec.add_assoc, ← all]
          exact ih onward

/-- The number of bytes taken, in a word of the guest. -/
theorem toNat_guestValue (arch : Arch) :
    (arch.guestValue (.ok (BitVec.ofNat 64 n))).toNat = n % 2 ^ (8 * arch.wordWidth) := by
  cases arch with
  | x86 =>
    simp only [Arch.guestValue, Arch.truncate, Arch.wordWidth, BitVec.toNat_setWidth,
      BitVec.toNat_ofNat]
    omega
  | x86_64 => exact BitVec.toNat_ofNat n 64

theorem toNat_guestValue_lt {arch : Arch} :
    (arch.guestValue r).toNat < 2 ^ (8 * arch.wordWidth) := by
  cases arch with
  | x86 =>
    simp only [Arch.guestValue, Arch.truncate, Arch.wordWidth, BitVec.toNat_setWidth]
    omega
  | x86_64 => exact BitVec.isLt _

/-- The handler does what is asked of it exactly when no entry that cannot be read is reached after
bytes have been taken, and their number fits a word. -/
theorem writev_exact : WritevDone sctx vk ↔ vk.WritevFits sctx := by
  have handler : ∀ r vk', (sysWritev sctx).Ends vk r vk' ↔
      (writevLoop sctx.arg0 sctx.arg1 vk.cfg.arch.wordWidth sctx.arg2.toNat 0 0).Ends
        (vk.withHost vk.host) r vk' := by
    intro r vk'
    rw [sysWritev]
    by_cases none_ : sctx.arg2 = 0
    · rw [if_pos none_, none_]
      rfl
    · rw [if_neg none_, ends_bind_get]
      rfl
  have word : 2 ^ (8 * vk.cfg.arch.wordWidth) ≤ 2 ^ 64 := by
    cases vk.cfg.arch <;> decide
  obtain ⟨free, stuck⟩ := @ends_writevLoop vk sctx vk.host 0 sctx.arg2.toNat 0 fun _ => rfl
  have zero : ∀ x : U64, 0 + x = x := BitVec.zero_add
  simp only [← handler, zero] at free stuck
  constructor
  · rintro ⟨-, -, reported⟩
    have value : Blocked (vk.sink sctx.arg0) (vk.iovecs sctx 0 sctx.arg2.toNat) vk.host →
        (vk.offered sctx).1 = [] := by
      intro blocked
      by_contra some_
      obtain ⟨r, vk', run, number⟩ := reported some_
      obtain ⟨-, e, rfl⟩ := stuck blocked r vk' run
      have zero : (vk.cfg.arch.guestValue (.error e)).toNat = 0 := by
        cases vk.cfg.arch <;> rfl
      exact some_ (List.length_eq_zero_iff.1 (number.symm.trans zero))
    refine ⟨value, ?_⟩
    by_cases some_ : (vk.offered sctx).1 = []
    · rw [some_]
      exact Nat.two_pow_pos _
    · obtain ⟨r, vk', run, number⟩ := reported some_
      rw [← number]
      exact toNat_guestValue_lt
  · rintro ⟨readable, small⟩
    refine ⟨fun r vk' run => ?_, offer_prefix, fun some_ => ?_⟩
    · by_cases blocked : Blocked (vk.sink sctx.arg0) (vk.iovecs sctx 0 sctx.arg2.toNat) vk.host
      · exact (stuck blocked r vk' run).1
      · obtain ⟨v, ends, -⟩ := free blocked
        exact (run.unique ends).2
    · obtain ⟨v, ends, value⟩ := free fun blocked => some_ (readable blocked)
      refine ⟨.ok v, _, ends, ?_⟩
      have positive := List.length_pos_iff.2 some_
      have whole : v = BitVec.ofNat 64 (vk.offered sctx).1.length := by
        rcases value with same | none_
        · exact same
        · have number := congrArg BitVec.toNat none_
          rw [BitVec.toNat_ofNat] at number
          change (vk.offered sctx).1.length % 2 ^ 64 = 0 at number
          omega
      rw [whole, toNat_guestValue, Nat.mod_eq_of_lt small]

/-- The wrapper leaves the value of the handler in the result register. -/
theorem reported_of_syscall (handlers : Handlers) (sameArch : vk.arch.regs.arch = vk.cfg.arch)
    {size : U32} {name : String} {f : SysFn} {s : Valkyrie}
    (insn : VMemory.read vk.uc addr 2 = .ok vk.cfg.arch.syscallInsn)
    (known : syscallNameFromNo vk.syscallNo vk.cfg.arch = .ok name)
    (found : syscallFnFromName name = some f) (run : (handlers f vk.subCtx).Ends vk r s)
    (keepsArch : s.arch.regs.arch = vk.arch.regs.arch) : ∃ vk',
    (syscallHandlerFor handlers vk.cfg.arch addr size).Ends vk (.ok ()) vk' ∧
      vk'.uc.reg vk.cfg.arch.resultReg = vk.cfg.arch.guestValue r := by
  simp only [ends_handleSyscall handlers sameArch insn]
  rw [known]
  have dispatched : (dispatchSyscallByName handlers name vk.subCtx).Ends vk r s := by
    rw [dispatchSyscallByName, found]
    exact run
  cases r with
  | ok v =>
    obtain ⟨vk', finish, result⟩ := @ends_finishSyscall s addr size vk.cfg.arch
      (keepsArch.trans sameArch) v
    exact ⟨vk', ends_bind_attempt.2 ⟨.ok v, s, dispatched, finish⟩, result⟩
  | error e =>
    obtain ⟨vk', finish, result⟩ := @ends_finishSyscall s addr size vk.cfg.arch
      (keepsArch.trans sameArch) 0
    exact ⟨vk', ends_bind_attempt.2 ⟨.error e, s, dispatched, finish⟩, result⟩

/-- At `0x1000` two entries: one byte at `0x1100`, and one where nothing is mapped. -/
def writevBytes (x : U64) : U8 :=
  if x = 0x1001 then 0x11 else if x = 0x1008 then 1
  else if x = 0x1011 then 0x90 else if x = 0x1018 then 1 else 0

/-- A guest with these entries on a host that takes one byte of each write. -/
def writevGuest : Valkyrie :=
  let vk := Valkyrie.ofMemory .x86_64 ⟨[⟨0x1000, 0x1000, .all, "[stack]"⟩], 0, 0⟩
  { vk with
    uc := { vk.uc with bytes := writevBytes }
    host := { vk.host with answers := fun _ => ⟨true, 0, 0, 1, []⟩ } }

/-- `writev(1, 0x1000, 2)`. -/
def writevCall : SubCtx := ⟨1, 0x1000, 2, 0, 0, 0⟩

/-- The guest gets zero although the host has taken a byte. -/
theorem writev_hides_transfer : ¬ ∀ (vk : Valkyrie) (sctx : SubCtx), WritevDone sctx vk := by
  intro always
  have run : ∃ vk', (sysWritev writevCall).Ends writevGuest
      (.error (.unicornGeneralError "mem_read failed")) vk' := ⟨_, rfl⟩
  have taken : (writevGuest.offered writevCall).1 = [0] := rfl
  obtain ⟨vk', run⟩ := run
  obtain ⟨r, t, reported, number⟩ := (always writevGuest writevCall).reported (by rw [taken]; decide)
  obtain ⟨rfl, -⟩ := reported.unique run
  rw [taken] at number
  cases number

end ValkyrieRs

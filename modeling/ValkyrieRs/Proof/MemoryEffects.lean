import ValkyrieRs.Proof.ProcessEffects

/-!
# Effects of the calls on memory and sockets

The handlers that edit the memory map own its two halves, the region list and the pages of the
engine; those on sockets store behind pointers that the guest passes, and `socketcall` takes all of
its arguments from memory.
-/

namespace ValkyrieRs

open Proc

variable {fx : Effects} {st : Settings} {vk vk' : Valkyrie} {sctx : SubCtx} {sv : Services}

/-! ## Memory -/

theorem does_setRegions (f : VMemory → VMemory) (regions : .regions ∈ fx.owned)
    (start : ∀ mem, (f mem).heapAddrStart = mem.heapAddrStart)
    (stop : ∀ mem, (f mem).heapAddrExit = mem.heapAddrExit) :
    Does fx st vk (Proc.modify fun vk => vk.withMem (f vk.mem) vk.uc) := by
  refine does_set regions (fun _ => rfl) (fun vk => ?_) (fun _ => rfl) fun d hd vk => ?_
  · simp only [Valkyrie.settings, Valkyrie.withMem, start]
  · cases d with
    | regions => exact absurd rfl hd
    | heapBreak => exact stop _
    | _ => rfl

/-- The new program break that a request asks for. -/
def brkTarget (sctx : SubCtx) : U64 := alignUp sctx.arg0 pageSize

/-- Where `brk` maps new pages. -/
def brkPlace (vk : Valkyrie) (sctx : SubCtx) : U64 × ℕ :=
  (alignUp vk.mem.mappedHeapEnd pageSize,
    (satSub (brkTarget sctx) (alignUp vk.mem.mappedHeapEnd pageSize)).toNat)

theorem does_sysBrk (pages : .pages ∈ fx.owned) (regions : .regions ∈ fx.owned)
    (heap : .heapBreak ∈ fx.owned) (output : brkPlace vk sctx ∈ fx.outputs) :
    Does fx st vk (sysBrk sctx) := by
  have move : ∀ t, Does fx st t (do
      Proc.modify fun vk => vk.withMem (vk.mem.setBreak (brkTarget sctx)) vk.uc
      return brkTarget sctx) := by
    refine fun t => Obeys.bind ?_ fun _ _ _ _ => obeys_pure _
    refine does_set heap (fun _ => rfl) (fun _ => rfl) (fun _ => rfl) fun d hd _ => ?_
    cases d with
    | heapBreak => exact absurd rfl hd
    | _ => rfl
  refine does_look (fun _ => rfl) fun _ => .ite (fun _ => obeys_pure _) fun _ =>
    .ite (fun _ => obeys_pure _) fun _ => .ite (fun _ => .ite (fun _ => ?_) fun _ => move vk)
      fun _ => move vk
  exact (does_memMap pages regions output).bind fun _ t _ _ => move t

theorem does_sysArchPrctl (fs : .register (.x86_64 .fsBase) ∈ fx.owned)
    (gs : .register (.x86_64 .gsBase) ∈ fx.owned) (updates : .regUpdates ∈ fx.owned)
    (output : sctx.arg0 = archGetFs ∨ sctx.arg0 = archGetGs → (sctx.arg1, 8) ∈ fx.outputs) :
    Does fx st vk (sysArchPrctl sctx) := by
  refine does_look (fun _ => rfl) fun _ => .ite (fun _ => obeys_pure _) fun _ =>
    .ite (fun _ => ?_) fun _ => .ite (fun _ => ?_) fun _ => .ite (fun get => ?_) fun _ =>
      .ite (fun get => ?_) fun _ => obeys_pure _
  · exact (does_setReg fs updates).bind fun _ _ _ _ => obeys_pure _
  · exact (does_setReg gs updates).bind fun _ _ _ _ => obeys_pure _
  · exact does_getReg.bind fun _ _ _ _ => does_storeLast (output (.inl get)) (length_toLeBytes _)
  · exact does_getReg.bind fun _ _ _ _ => does_storeLast (output (.inr get)) (length_toLeBytes _)

theorem does_replaceRange {addr size : U64} (pages : .pages ∈ fx.owned)
    (regions : .regions ∈ fx.owned) : Does fx st vk (replaceRange addr size) :=
  (does_memUnmap pages).attempt.bind fun _ _ _ _ =>
    does_setRegions (fun mem => mem.removeRange _ _) regions
      (fun _ => VMemory.heapAddrStart_removeRange) fun _ => VMemory.heapAddrExit_removeRange

theorem does_mapFileBytes {addr size fd offset : U64} (fds : .hostFds ∈ fx.owned)
    (files : .hostFiles ∈ fx.owned) (output : (addr, size.toNat) ∈ fx.outputs)
    (fits : fx.hangs ∨ size.toNat < 2 ^ 63) :
    Does fx st vk (mapFileBytes addr size fd offset) := by
  refine .ite (fun _ => obeys_pure _) fun _ => does_look (fun _ => rfl) fun _ => ?_
  cases vk.fdTable.lookup fd with
  | none => exact obeys_pure _
  | some vkf =>
    refine does_asked (fun _ => hosts_dup fds) (fun _ _ => obeys_pure _) fun file t _ _ =>
      does_withFile fds (does_asked (fun _ => hosts_seek files) (fun _ _ => obeys_pure _) ?_)
    refine fun _ u _ _ => (does_hostAlloc fits).bind fun _ s _ _ => does_asked
      (fun _ => hosts_read files) (fun _ _ => obeys_pure _) fun data v _ ok => ?_
    refine does_storeLast output ?_
    have small := Host.length_read ok
    rw [List.length_append, List.length_replicate]
    omega

/-- Where `mmap` maps its pages; `none` when the search never ends. -/
def mmapTarget (vk : Valkyrie) (sctx : SubCtx) : Option U64 :=
  if sctx.arg0 = 0 ∨ ¬ (sctx.arg3.setWidth 32 &&& mapFixed ≠ 0) then
    vk.mem.nextMmapAddr (alignUp sctx.arg1 pageSize)
  else some sctx.arg0

theorem does_sysMmap (pages : .pages ∈ fx.owned) (regions : .regions ∈ fx.owned)
    (fds : .hostFds ∈ fx.owned) (files : .hostFiles ∈ fx.owned)
    (output : ∀ a, mmapTarget vk sctx = some a →
      (a, (alignUp sctx.arg1 pageSize).toNat) ∈ fx.outputs)
    (found : fx.hangs ∨ mmapTarget vk sctx ≠ none)
    (fits : fx.hangs ∨ (alignUp sctx.arg1 pageSize).toNat < 2 ^ 63) :
    Does fx st vk (sysMmap sctx) := by
  refine .ite (fun _ => obeys_pure _) fun _ => .ite (fun _ => obeys_pure _) fun _ =>
    does_look (fun _ => rfl) fun _ => Obeys.bind ?_ fun a t _ run => ?_
  · exact obeys_ofOption _ fun missing => found.resolve_right fun found => found missing
  obtain ⟨_, target, same, rfl⟩ := ends_ofOption.1 run
  cases same
  have place := output a target
  refine .optional (fun _ => does_replaceRange pages regions) fun _ s => ?_
  refine (does_memMap pages regions place).attempt.bind fun x u _ _ => ?_
  cases x with
  | error e => exact obeys_pure _
  | ok u =>
    exact .ite (fun _ => (does_mapFileBytes fds files place fits).bind fun _ _ _ _ =>
      .ite (fun _ => obeys_pure _) fun _ => obeys_pure _) fun _ => obeys_pure _

theorem does_sysMprotect (pages : .pages ∈ fx.owned) (regions : .regions ∈ fx.owned) :
    Does fx st vk (sysMprotect sctx) := by
  refine .ite (fun _ => obeys_pure _) fun _ => (does_memProtect pages).bind fun _ t _ _ =>
    Obeys.bind ?_ fun _ _ _ _ => obeys_pure _
  exact does_setRegions (fun mem => mem.protectRegions _ _ _) regions (fun _ => rfl) fun _ => rfl

theorem does_sysMunmap (pages : .pages ∈ fx.owned) (regions : .regions ∈ fx.owned) :
    Does fx st vk (sysMunmap sctx) := by
  refine .ite (fun _ => obeys_pure _) fun _ => .ite (fun _ => obeys_pure _) fun _ =>
    .ite (fun _ => obeys_pure _) fun _ => (does_memUnmap pages).attempt.bind fun x t _ _ => ?_
  cases x with
  | error e => exact obeys_pure _
  | ok u =>
    exact (does_setRegions (fun mem => mem.removeRange _ _) regions
      (fun _ => VMemory.heapAddrStart_removeRange)
      fun _ => VMemory.heapAddrExit_removeRange).bind fun _ _ _ _ => obeys_pure _

/-! ## Thread areas -/

/-- Where `set_thread_area` stores: the number of the entry, and the entries of the table. -/
def threadAreaPlaces (addrs : MemAddrs) (sctx : SubCtx) : List (U64 × ℕ) :=
  (sctx.arg0, 4) :: tlsEntries.map fun n => (addrs.tlsAddrStart + n.setWidth 64 * 8, 8)

theorem does_findFreeIn {entries : List U32} : Does fx st vk (findFreeIn entries) := by
  induction entries generalizing vk with
  | nil => exact obeys_pure _
  | cons n rest ih =>
    exact does_look (fun _ => rfl) fun _ => (does_memRead (.inr (by decide))).bind fun _ _ _ _ =>
      .ite (fun _ => obeys_pure _) fun _ => ih

theorem does_x86WriteGdtEntry {n : U32} {descriptor : List U8}
    (output : (st.addrs.tlsAddrStart + n.setWidth 64 * 8, 8) ∈ fx.outputs)
    (length : descriptor.length = 8) : Does fx st vk (x86WriteGdtEntry n descriptor) := by
  refine does_look (fun _ => rfl) fun inv => ?_
  subst inv
  exact does_memWrite ⟨8, output, length.le⟩

theorem does_writeEntry {n : U32} {descriptor : List U8}
    (output : threadAreaPlaces st.addrs sctx ⊆ fx.outputs)
    (valid : x86GdtEntryTlsMin ≤ n ∧ n ≤ x86GdtEntryTlsMax) (length : descriptor.length = 8) :
    Does fx st vk (do
      x86WriteGdtEntry n descriptor
      return (0 : U64)) := by
  refine (does_x86WriteGdtEntry ((List.cons_subset.1 output).2 ?_) length).bind
    fun _ _ _ _ => obeys_pure _
  refine List.mem_map_of_mem (f := fun n : U32 => (st.addrs.tlsAddrStart + n.setWidth 64 * 8, 8)) ?_
  obtain ⟨low, high⟩ := valid
  simp only [tlsEntries, x86GdtEntryTlsMin, x86GdtEntryTlsMax, x86GdtEntryTlsEntries,
    List.mem_cons, List.not_mem_nil, or_false] at low high ⊢
  bv_omega

/-- The descriptor is written into the entry that has been found. -/
theorem does_installEntry {desc : UserDesc} {found : Option U32}
    (output : threadAreaPlaces st.addrs sctx ⊆ fx.outputs) : Does fx st vk (match found with
      | none => pure (negErrno ESRCH)
      | some entryNumber =>
        if ¬ (x86GdtEntryTlsMin ≤ entryNumber ∧ entryNumber ≤ x86GdtEntryTlsMax) then
          pure (negErrno EINVAL)
        else if desc.contents = 3 then pure (negErrno EINVAL)
        else do
          let desc := { desc with entryNumber }
          desc.writeBackEntryNumber sctx.arg0
          if desc.isEmpty then
            x86WriteGdtEntry entryNumber (List.replicate 8 0)
            return 0
          match userDescAccessByte desc with
          | none => return negErrno EINVAL
          | some access =>
            x86WriteGdtEntry entryNumber
              (gdtDesc desc.baseAddr desc.limit access (userDescFlags desc))
            return (0 : U64)) := by
  cases found with
  | none => exact obeys_pure _
  | some n =>
    refine .ite (fun _ => obeys_pure _) fun valid => .ite (fun _ => obeys_pure _) fun _ =>
      does_storeThen (List.cons_subset.1 output).1 (length_toLeBytes _) fun u =>
        .ite (fun _ => ?_) fun _ => ?_
    · exact does_writeEntry output (not_not.1 valid) List.length_replicate
    · cases userDescAccessByte { desc with entryNumber := n } with
      | none => exact obeys_pure _
      | some access => exact does_writeEntry output (not_not.1 valid) rfl

theorem does_sysSetThreadArea (output : threadAreaPlaces st.addrs sctx ⊆ fx.outputs) :
    Does fx st vk (sysSetThreadArea sctx) := by
  refine does_look (fun _ => rfl) fun _ => .ite (fun _ => obeys_pure _) fun _ =>
    .ite (fun _ => obeys_pure _) fun _ => Obeys.bind ?_ fun desc t _ _ => ?_
  · exact (does_memRead (.inr (by decide))).bind fun _ _ _ _ => obeys_pure _
  · refine .ite (fun _ => obeys_pure _) fun _ => .ite (fun _ => ?_) fun _ => ?_
    · exact does_findFreeIn.bind fun found u _ _ => does_installEntry output
    · exact (obeys_pure (some desc.entryNumber)).bind fun found u _ _ => does_installEntry output

/-! ## Sockets -/

theorem does_sysConnect : Does fx st vk (sysConnect sv sctx) := by
  refine .ite (fun _ => obeys_pure _) fun _ => (does_memRead ?_).bind fun _ _ _ _ =>
    does_served (fun _ => rfl) fun _ _ => obeys_pure _
  exact .inr ((sctx.arg2.setWidth 32 : U32).isLt.trans (by decide))

theorem does_sysShutdown : Does fx st vk (sysShutdown sv sctx) :=
  does_served (fun _ => rfl) fun _ _ => obeys_pure _

theorem does_sysSendto (fits : fx.hangs ∨ sctx.arg2.toNat < 2 ^ 63) :
    Does fx st vk (sysSendto sv sctx) := by
  have small : (sctx.arg5.setWidth 32 : U32).toNat < 2 ^ 63 :=
    (sctx.arg5.setWidth 32 : U32).isLt.trans (by decide)
  refine (does_memRead fits).bind fun buffer t _ _ => .ite (fun _ => ?_) fun _ => ?_
  · refine (obeys_pure none).bind fun dest u _ _ => ?_
    exact does_served (fun _ => rfl) fun _ _ => obeys_pure _
  · refine (does_memRead (.inr small)).bind fun addr u _ _ =>
      (obeys_pure (some addr)).bind fun dest v _ _ => ?_
    exact does_served (fun _ => rfl) fun _ _ => obeys_pure _

/-- The number at the place of the length of an option. -/
def optlenAt (uc : Unicorn) (addr : U64) : ℕ :=
  match VMemory.read uc addr 4 with
  | .ok bytes => ((fromLeBytes bytes).setWidth 32 : U32).toNat
  | .error _ => 0

theorem optlenAt_lt {uc : Unicorn} {addr : U64} : optlenAt uc addr < 2 ^ 32 := by
  unfold optlenAt
  split
  · exact BitVec.isLt _
  · decide

theorem does_sysGetsockopt
    (value : (sctx.arg3, optlenAt vk.uc sctx.arg4) ∈ fx.outputs)
    (length : (sctx.arg4, 4) ∈ fx.outputs)
    (bounded : fx.hangs ∨ ∀ fd level optname room h value len,
      sv.getsockopt fd level optname room h = .ok (value, len) → len.toNat ≤ room.toNat) :
    Does fx st vk (sysGetsockopt sv sctx) := by
  refine .ite (fun _ => obeys_pure _) fun _ => (does_memRead (.inr (by decide))).bind
    fun bytes t _ read => ?_
  obtain ⟨-, told, rfl⟩ := ends_memRead.1 read
  rw [optlenAt, ← told] at value
  have small : ((fromLeBytes bytes).setWidth 32 : U32).toNat < 2 ^ 63 :=
    ((fromLeBytes bytes).setWidth 32 : U32).isLt.trans (by decide)
  refine .ite (fun _ => obeys_pure _) fun _ => (does_hostAlloc (.inr small)).bind fun _ s _ _ =>
    does_service.bind fun x u _ run => ?_
  cases x with
  | error e => exact does_lastErrno
  | ok out =>
    have answered := (ends_hostCall.1 run).1
    rw [Host.serve_fst, Except.ok.injEq] at answered
    have last : ∀ s, Does fx st s (do
        writeSocklen sctx.arg4 out.2
        return (0 : U64)) := fun s => does_storeLast length (length_toLeBytes _)
    refine .ite (fun _ => .ite (fun large => ?_) fun small => ?_) fun _ => last u
    · refine Obeys.bind (obeys_diverge ?_) fun _ _ _ never => (ends_diverge never).elim
      exact bounded.resolve_right fun bounded =>
        absurd (bounded _ _ _ _ _ _ _ answered.symm) (Nat.not_le.2 large)
    · refine (does_memWrite ⟨_, value, ?_⟩).bind fun _ s _ _ => last s
      rw [List.length_take, List.takeD_length]
      exact Nat.min_le_right _ _

/-- Where `recvfrom` stores. -/
def recvfromPlaces (sctx : SubCtx) : List (U64 × ℕ) :=
  (sctx.arg1, sctx.arg2.toNat) ::
    if sctx.arg4 ≠ 0 ∧ sctx.arg5 ≠ 0 then [(sctx.arg4, 128), (sctx.arg5, 4)] else []

theorem does_sysRecvfrom (output : recvfromPlaces sctx ⊆ fx.outputs)
    (fits : fx.hangs ∨ sctx.arg2.toNat < 2 ^ 63)
    (cut : fx.hangs ∨ sctx.arg3.setWidth 32 &&& msgTrunc = 0) :
    Does fx st vk (sysRecvfrom sctx) := by
  obtain ⟨buffer, peer⟩ := List.cons_subset.1 output
  refine (does_hostAlloc fits).bind fun _ s _ _ => does_asked
    (fun _ => hosts_onFd fun _ _ _ => .refl fx _) (fun _ _ => does_lastErrno) fun got t _ ok => ?_
  have shape : (sctx.arg3.setWidth 32 &&& msgTrunc = 0 → got.count ≤ sctx.arg2.toNat) ∧
      got.peerAddr.length = 128 := by
    refine Host.onFd_ok (P := fun got : Host.Received =>
      (sctx.arg3.setWidth 32 &&& msgTrunc = 0 → got.count ≤ sctx.arg2.toNat) ∧
        got.peerAddr.length = 128) (fun a d h ok => ?_) ok
    cases ok
    refine ⟨fun none => ?_, List.takeD_length _ _ _⟩
    rw [if_neg (by simpa using none)]
    exact Nat.min_le_right _ _
  have last : ∀ u, Does fx st u (do
      if sctx.arg4 ≠ 0 ∧ sctx.arg5 ≠ 0 then
        if 0 < min got.peerLen.toNat got.peerAddr.length then
          memWrite sctx.arg4 (got.peerAddr.take (min got.peerLen.toNat got.peerAddr.length))
        writeSocklen sctx.arg5 got.peerLen
      return BitVec.ofNat 64 got.count) := by
    refine fun u => .ite (fun wanted => ?_) fun _ => obeys_pure _
    rw [if_pos wanted] at peer
    obtain ⟨addr, len⟩ := List.cons_subset.1 peer
    have finish : ∀ v, Does fx st v (do
        writeSocklen sctx.arg5 got.peerLen
        return BitVec.ofNat 64 got.count) := fun v =>
      does_storeLast (len List.mem_cons_self) (length_toLeBytes _)
    refine .ite (fun _ => (does_memWrite ⟨128, addr, ?_⟩).bind fun _ v _ _ => finish v)
      fun _ => finish u
    rw [List.length_take, shape.2]
    omega
  have store : got.count ≤ sctx.arg2.toNat → Does fx st t (do
      if 0 < got.count then
        memWrite sctx.arg1 (got.data.take got.count)
      if sctx.arg4 ≠ 0 ∧ sctx.arg5 ≠ 0 then
        if 0 < min got.peerLen.toNat got.peerAddr.length then
          memWrite sctx.arg4 (got.peerAddr.take (min got.peerLen.toNat got.peerAddr.length))
        writeSocklen sctx.arg5 got.peerLen
      return BitVec.ofNat 64 got.count) := by
    refine fun small => .ite (fun _ => (does_memWrite ⟨_, buffer, ?_⟩).bind fun _ u _ _ => last u)
      fun _ => last t
    rw [List.length_take]
    omega
  refine .ite (fun large => ?_) fun small => store (not_lt.1 small)
  refine Obeys.bind (obeys_diverge ?_) fun _ _ _ never => (ends_diverge never).elim
  exact cut.resolve_right fun none => absurd (shape.1 none) (by omega)

theorem does_readFdSet {addr : U64} : Does fx st vk (readFdSet addr) :=
  does_memRead (.inr (by decide))

theorem does_readUnlessNull {α : Type} {addr : U64} {read : U64 → VkM α}
    (reads : ∀ a t, Does fx st t (read a)) : Does fx st vk (readUnlessNull addr read) :=
  .ite (fun _ => (reads addr vk).bind fun _ _ _ _ => obeys_pure _) fun _ => obeys_pure _

theorem does_readPselect6Sigmask {addr : U64} : Does fx st vk (readPselect6Sigmask addr) := by
  have small := vk.cfg.arch.wordWidth_small
  refine does_look (fun _ => rfl) fun _ => (does_readWord small).bind fun _ _ _ _ =>
    (does_readWord small).bind fun size _ _ _ => .ite (fun _ => obeys_pure _) fun _ =>
      (does_memRead (.inr ?_)).bind fun _ _ _ _ => obeys_pure _
  exact (Nat.min_le_right _ _).trans_lt (by decide)

/-- Where `pselect6` stores. -/
def pselectPlaces (sctx : SubCtx) : List (U64 × ℕ) :=
  [sctx.arg1, sctx.arg2, sctx.arg3].map fun addr => (addr, if addr ≠ 0 then fdSetSize else 0)

theorem does_writeUnlessNull {addr : U64} {fdSet : List U8}
    (output : (addr, if addr ≠ 0 then fdSetSize else 0) ∈ fx.outputs) :
    Does fx st vk (writeUnlessNull addr fdSet) := by
  refine .ite (fun some => does_memWrite ⟨_, output, ?_⟩) fun _ => obeys_pure _
  rw [if_pos some, List.takeD_length]

theorem does_sysPselect6 (output : pselectPlaces sctx ⊆ fx.outputs) :
    Does fx st vk (sysPselect6 sv sctx) := by
  have stores : ∀ addr ∈ [sctx.arg1, sctx.arg2, sctx.arg3], ∀ (fdSet : List U8) t,
      Does fx st t (writeUnlessNull addr fdSet) := fun addr listed fdSet t =>
    does_writeUnlessNull (output (List.mem_map_of_mem listed))
  have write : ∀ (sets : Selected) t, Does fx st t (do
      writeUnlessNull sctx.arg1 sets.readfds
      writeUnlessNull sctx.arg2 sets.writefds
      writeUnlessNull sctx.arg3 sets.exceptfds
      return sets.ready.signExtend 64) := by
    intro sets u
    refine (stores sctx.arg1 (by simp) _ u).bind fun _ v _ _ =>
      (stores sctx.arg2 (by simp) _ v).bind fun _ w _ _ => ?_
    exact (stores sctx.arg3 (by simp) _ w).bind fun _ _ _ _ => obeys_pure _
  refine .ite (fun _ => obeys_pure _) fun _ =>
    (does_readUnlessNull fun _ _ => does_readFdSet).bind fun r _ _ _ =>
    (does_readUnlessNull fun _ _ => does_readFdSet).bind fun w _ _ _ =>
    (does_readUnlessNull fun _ _ => does_readFdSet).bind fun e _ _ _ =>
    (does_readUnlessNull fun _ _ => does_readGuestTimespec).bind fun ts t _ _ => ?_
  refine .ite (fun _ => ?_) fun _ => ?_
  · exact does_readPselect6Sigmask.bind fun sigmask u _ _ => does_served (fun _ => rfl) write
  · exact (obeys_pure none).bind fun sigmask u _ _ => does_served (fun _ => rfl) write

end ValkyrieRs

import ValkyrieRs.Lib.Records
import ValkyrieRs.Proof.Packing
import ValkyrieRs.Proof.ProcessEffects
import ValkyrieRs.Proof.SignedWords
import ValkyrieRs.Proof.Utf8

/-!
# What a guest reads back

The arrays and structures that handlers store for the guest, read back the way the guest lays them
out: the entries of `poll`, the events of `epoll_wait`, the two time values of a timer, the names of
`uname`.
-/

namespace ValkyrieRs

open Proc

variable {vk vk' : Valkyrie} {uc uc' : Unicorn} {sctx : SubCtx} {sv : Services} {addr v : U64}

/-! ## Stores one after another -/

/-- Stores that all succeed. -/
inductive Stores : Unicorn → List (U64 × List U8) → Unicorn → Prop
  | nil (uc : Unicorn) : Stores uc [] uc
  | cons {uc uc₁ uc' : Unicorn} (addr : U64) (data : List U8) {rest : List (U64 × List U8)} :
      uc.memWrite addr data = .ok uc₁ → Stores uc₁ rest uc' → Stores uc ((addr, data) :: rest) uc'

/-- No address is in both places. -/
def Apart (o p : U64 × List U8) : Prop :=
  ∀ x, InRange o.1 o.2.length x → ¬ InRange p.1 p.2.length x

namespace Stores

variable {outs : List (U64 × List U8)}

/-- What lies apart from all places is read as before. -/
theorem contents_of_apart (stores : Stores uc outs uc') {n : ℕ} (bound : addr.toNat + n ≤ 2 ^ 64)
    (apart : ∀ o ∈ outs, ∀ x, InRange addr n x → ¬ InRange o.1 o.2.length x) :
    uc'.contents addr n = uc.contents addr n := by
  induction stores with
  | nil uc => rfl
  | cons a data write _ ih =>
    rw [ih fun o member => apart o (List.mem_cons_of_mem _ member)]
    exact Unicorn.contents_of_memWrite_of_disjoint write bound (apart _ List.mem_cons_self)

/-- What is stored is read back, when no later store meets it. -/
theorem contents_of_later (stores : Stores uc outs uc') {past later : List (U64 × List U8)}
    {o : U64 × List U8} (split : outs = past ++ o :: later) (apart : ∀ p ∈ later, Apart o p) :
    uc'.contents o.1 o.2.length = o.2 := by
  induction stores generalizing past with
  | nil uc => simp at split
  | @cons uc uc₁ uc' a data rest write stores ih =>
    cases past with
    | nil =>
      cases split
      have bound := (Unicorn.memWrite_ok_iff.1 ⟨uc₁, write⟩).1
      rw [stores.contents_of_apart bound fun p member x => apart p member x]
      exact Unicorn.contents_of_memWrite write
    | cons first past =>
      obtain ⟨-, split⟩ := List.cons.inj split
      exact ih split

/-- Stores in places apart from each other are all read back. -/
theorem contents (stores : Stores uc outs uc') (apart : outs.Pairwise Apart) :
    ∀ o ∈ outs, uc'.contents o.1 o.2.length = o.2 := by
  intro o member
  obtain ⟨past, later, split⟩ := List.append_of_mem member
  rw [split] at apart
  exact stores.contents_of_later split (List.pairwise_cons.1 (List.pairwise_append.1 apart).2.1).1

/-- Nothing outside the places is changed. -/
theorem bytes (stores : Stores uc outs uc') {x : U64}
    (outside : ∀ o ∈ outs, ¬ InRange o.1 o.2.length x) : uc'.bytes x = uc.bytes x := by
  induction stores with
  | nil uc => rfl
  | cons a data write _ ih =>
    rw [ih fun o member => outside o (List.mem_cons_of_mem _ member),
      (Unicorn.memWrite_effect write).2.2, if_neg (outside _ List.mem_cons_self)]

theorem append {uc₁ : Unicorn} {outs' : List (U64 × List U8)} (stores : Stores uc outs uc₁)
    (stores' : Stores uc₁ outs' uc') : Stores uc (outs ++ outs') uc' := by
  induction stores with
  | nil uc => exact stores'
  | cons a data write _ ih => exact .cons a data write (ih stores')

end Stores

/-- A handler that asks a service and reports its error. -/
theorem ends_served {α : Type} {reply : Host → Except U32 α} {f : Except U32 α → VkM U64}
    {r : Except ValkyrieError U64} (error : ∀ e, f (.error e) = lastErrno) :
    (service reply >>= f).Ends vk r vk' ↔
      (∃ e, reply vk.host = .error e ∧ r = .ok (negErrno e) ∧ vk' = vk.withHost (vk.host.fail e)) ∨
      ∃ a, reply vk.host = .ok a ∧ (f (.ok a)).Ends vk r vk' := by
  rw [service, ends_bind_hostCall, Host.serve_fst]
  cases told : reply vk.host with
  | error e =>
    have left : (vk.host.serve reply).2 = vk.host.fail e := by simp [Host.serve, told]
    have told' : (vk.withHost (vk.host.fail e)).host.errno = e := rfl
    rw [error, left, ends_lastErrno, told']
    simp
  | ok a =>
    have left : (vk.host.serve reply).2 = vk.host := by simp [Host.serve, told]
    have same : vk.withHost vk.host = vk := rfl
    rw [left, same]
    simp

theorem memRead_ok {n : ℕ} {bytes : List U8} (run : (memRead addr n).Ends vk (.ok bytes) vk') :
    bytes = vk.uc.contents addr n ∧ vk' = vk := by
  obtain ⟨-, found, rfl⟩ := ends_memRead.1 run
  exact ⟨(Unicorn.memRead_ok_iff.1 (VMemory.read_ok_iff.1 found.symm).2).2, rfl⟩

/-- An array that has been stored is read back, and nothing around it is changed. -/
theorem array_of_memWrite {α : Type} (layout : RecordLayout α U8) {values : List α}
    (write : uc.memWrite addr (layout.array values) = .ok uc') :
    layout.values values.length (uc'.contents addr (layout.size * values.length)) = values ∧
      ∀ x, ¬ InRange addr (layout.size * values.length) x → uc'.bytes x = uc.bytes x := by
  rw [← layout.length_array values]
  refine ⟨?_, fun x outside => ((Unicorn.memWrite_effect write).2.2 x).trans (if_neg outside)⟩
  rw [Unicorn.contents_of_memWrite write]
  exact layout.values_array values

/-- An emulator with a page of memory. -/
def pageOf (arch : Arch) : Valkyrie :=
  Valkyrie.ofMemory arch ⟨[⟨0x1000, 0x1000, ⟨true, true, true⟩, "[code]"⟩], 0, 0⟩

/-- Services of a host that always has something to tell. -/
def Services.ready : Services := { Services.refusing with
  poll := fun _ _ _ => .ok (1, fun _ => 4)
  epollWait := fun _ _ _ _ => .ok [⟨1, 7⟩, ⟨4, 9⟩]
  timerfdSettime := fun _ _ spec _ => .ok spec
  pselect := fun _ _ _ _ _ _ _ => .ok ⟨1, [1], [2], [4]⟩
  uname := fun _ => .ok ⟨[0x4C], [0x68], [0x36], [0x23], [0x78], [0x64]⟩ }

/-! ## `poll` -/

/-- `libc::pollfd` in memory. -/
def PollFd.layout : RecordLayout PollFd U8 where
  size := 8
  encode := PollFd.toBytes
  decode := PollFd.ofBytes
  length_encode := PollFd.length_toBytes
  decode_encode p rest := by
    obtain ⟨fd, events, revents⟩ := p
    simp only [PollFd.ofBytes, PollFd.toBytes, List.append_assoc, PollFd.mk.injEq]
    refine ⟨?_, ?_, ?_⟩
    · rw [setWidth_leAt_here _ _ (by decide) (by decide), BitVec.setWidth_eq]
    · rw [leAt_skip _ _ (by simp), length_toLeBytes,
        setWidth_leAt_here _ _ (by decide) (by decide), BitVec.setWidth_eq]
    · rw [leAt_skip _ _ (by simp), leAt_skip _ _ (by simp), length_toLeBytes, length_toLeBytes,
        setWidth_leAt_here _ _ (by decide) (by decide), BitVec.setWidth_eq]

/-- The entries that the guest reads. -/
def pollfdsAt (uc : Unicorn) (addr nfds : U64) : List PollFd :=
  PollFd.layout.values nfds.toNat (uc.contents addr (PollFd.layout.size * nfds.toNat))

theorem readPollfds_ok {nfds : U64} {entries : List PollFd}
    (run : (readPollfds addr nfds).Ends vk (.ok entries) vk') :
    entries = pollfdsAt vk.uc addr nfds ∧ vk' = vk := by
  obtain ⟨bytes, t, read, rest⟩ := ends_bind_ok.1 run
  obtain ⟨fits, last⟩ := ends_bind_hostAlloc.1 rest
  obtain ⟨same, rfl⟩ := ends_pure.1 last
  obtain ⟨rfl, rfl⟩ := memRead_ok read
  have whole : (nfds * 8).toNat = PollFd.layout.size * nfds.toNat := by
    rw [BitVec.toNat_mul]
    show nfds.toNat * 8 % 2 ^ 64 = 8 * nfds.toNat
    omega
  rw [Except.ok.injEq] at same
  rw [same, whole]
  exact ⟨rfl, rfl⟩

/-- What the host answers to `poll`, and what the handler makes of it. -/
theorem ends_poll {entries : List PollFd} {nfds : U64} {timeout : U32}
    (length : entries.length = nfds.toNat)
    (run : (service (sv.poll entries timeout) >>= fun answer => match answer with
      | .error _ => lastErrno
      | .ok (rc, revents) => do
        if 0 < nfds then
          writePollfds addr (setRevents entries revents)
        return rc.signExtend 64).Ends vk (.ok v) vk') :
    (∃ e, sv.poll entries timeout vk.host = .error e ∧ v = negErrno e ∧ vk'.uc = vk.uc) ∨
      ∃ rc revents, sv.poll entries timeout vk.host = .ok (rc, revents) ∧ v = rc.signExtend 64 ∧
        pollfdsAt vk'.uc addr nfds = setRevents entries revents ∧
        ∀ x, ¬ InRange addr (8 * nfds.toNat) x → vk'.uc.bytes x = vk.uc.bytes x := by
  rcases (ends_served fun _ => rfl).1 run with ⟨e, told, same, rfl⟩ | ⟨⟨rc, revents⟩, told, rest⟩
  · exact .inl ⟨e, told, Except.ok.inj same, rfl⟩
  have length' : (setRevents entries revents).length = nfds.toNat := by
    rw [setRevents, List.length_mapIdx, length]
  refine .inr ⟨rc, revents, told, ?_⟩
  dsimp only at rest
  split_ifs at rest with asked
  · rcases ends_bind_memWrite.1 rest with ⟨uc, write, last⟩ | ⟨e, -, failed, -⟩
    · obtain ⟨same, rfl⟩ := ends_pure.1 last
      have stored := array_of_memWrite PollFd.layout (VMemory.write_ok_iff.1 write).2
      rw [length'] at stored
      exact ⟨Except.ok.inj same, stored⟩
    · cases failed
  · obtain ⟨same, rfl⟩ := ends_pure.1 rest
    have zero : nfds.toNat = 0 := by bv_omega
    refine ⟨Except.ok.inj same, ?_, fun _ _ => rfl⟩
    rw [zero] at length'
    rw [pollfdsAt, zero, List.eq_nil_of_length_eq_zero length']
    rfl

/-- After `poll` the guest reads its entries as it wrote them, with the events that the host told. -/
theorem poll_reads_back (run : (sysHandlers sv .sysPoll sctx).Ends vk (.ok v) vk') :
    (0 < sctx.arg1 ∧ sctx.arg0 = 0 ∧ v = negErrno EFAULT ∧ vk' = vk) ∨
      (∃ e, sv.poll (pollfdsAt vk.uc sctx.arg0 sctx.arg1) (sctx.arg2.setWidth 32) vk.host =
        .error e ∧ v = negErrno e ∧ vk'.uc = vk.uc) ∨
      ∃ rc revents, sv.poll (pollfdsAt vk.uc sctx.arg0 sctx.arg1) (sctx.arg2.setWidth 32) vk.host =
          .ok (rc, revents) ∧ v = rc.signExtend 64 ∧
        pollfdsAt vk'.uc sctx.arg0 sctx.arg1 =
          setRevents (pollfdsAt vk.uc sctx.arg0 sctx.arg1) revents ∧
        ∀ x, ¬ InRange sctx.arg0 (8 * sctx.arg1.toNat) x → vk'.uc.bytes x = vk.uc.bytes x := by
  change (sysPoll sv sctx).Ends vk (.ok v) vk' at run
  have length : (pollfdsAt vk.uc sctx.arg0 sctx.arg1).length = sctx.arg1.toNat :=
    PollFd.layout.length_values _ _
  unfold sysPoll at run
  dsimp only at run
  by_cases null : 0 < sctx.arg1 ∧ sctx.arg0 = 0
  · rw [if_pos null] at run
    obtain ⟨same, rfl⟩ := ends_pure.1 run
    exact .inl ⟨null.1, null.2, Except.ok.inj same, rfl⟩
  rw [if_neg null] at run
  apply Or.inr
  by_cases zero : sctx.arg1 = 0
  · rw [if_pos zero] at run
    have empty : pollfdsAt vk.uc sctx.arg0 sctx.arg1 = [] :=
      List.eq_nil_of_length_eq_zero (by rw [length, zero]; rfl)
    rw [empty] at length ⊢
    exact ends_poll length run
  · rw [if_neg zero] at run
    obtain ⟨entries, t, read, rest⟩ := ends_bind_ok.1 run
    obtain ⟨rfl, rfl⟩ := readPollfds_ok read
    exact ends_poll length rest

theorem poll_reads_back_ready : ∃ vk',
    (sysHandlers .ready .sysPoll ⟨0x1800, 2, 0, 0, 0, 0⟩).Ends (pageOf .x86) (.ok 1) vk' ∧
      pollfdsAt vk'.uc 0x1800 2 = setRevents (pollfdsAt (pageOf .x86).uc 0x1800 2) fun _ => 4 := by
  have run : ∃ vk', (sysHandlers .ready .sysPoll ⟨0x1800, 2, 0, 0, 0, 0⟩).Ends (pageOf .x86)
    (.ok 1) vk' := ⟨_, rfl⟩
  obtain ⟨vk', run⟩ := run
  obtain ⟨-, null, -⟩ | ⟨e, told, -⟩ | ⟨rc, revents, told, -, read, -⟩ := poll_reads_back run
  · cases null
  · cases told
  · cases told
    exact ⟨vk', run, read⟩

/-! ## `epoll_wait` -/

/-- `libc::epoll_event` in memory, which is packed. -/
def EpollEvent.layout : RecordLayout EpollEvent U8 where
  size := 12
  encode := EpollEvent.toBytes
  decode := EpollEvent.ofBytes
  length_encode := EpollEvent.length_toBytes
  decode_encode event rest := by
    obtain ⟨events, data⟩ := event
    simp only [EpollEvent.ofBytes, EpollEvent.toBytes, List.append_assoc, EpollEvent.mk.injEq]
    refine ⟨?_, ?_⟩
    · rw [setWidth_leAt_here _ _ (by decide) (by decide), BitVec.setWidth_eq]
    · rw [leAt_skip _ _ (by simp), length_toLeBytes]
      exact leAt_quad _ _

/-- The events that the guest reads. -/
def epollEventsAt (uc : Unicorn) (addr : U64) (n : ℕ) : List EpollEvent :=
  EpollEvent.layout.values n (uc.contents addr (EpollEvent.layout.size * n))

/-- After `epoll_wait` the guest reads as many events as it is told, those of the host. -/
theorem epollWait_reads_back (run : (sysHandlers sv .sysEpollWait sctx).Ends vk (.ok v) vk') :
    ((sctx.arg1 = 0 ∨ (sctx.arg2.setWidth 32 : U32).toInt ≤ 0) ∧ v = negErrno EINVAL ∧ vk' = vk) ∨
      (∃ e, sv.epollWait (sctx.arg0.setWidth 32) (sctx.arg2.setWidth 32) (sctx.arg3.setWidth 32)
        vk.host = .error e ∧ v = negErrno e ∧ vk'.uc = vk.uc) ∨
      ∃ events, sv.epollWait (sctx.arg0.setWidth 32) (sctx.arg2.setWidth 32)
          (sctx.arg3.setWidth 32) vk.host = .ok events ∧
        v = BitVec.ofNat 64 events.length ∧
        events.length ≤ (sctx.arg2.setWidth 32 : U32).toNat ∧
        epollEventsAt vk'.uc sctx.arg1 events.length = events ∧
        ∀ x, ¬ InRange sctx.arg1 (12 * events.length) x → vk'.uc.bytes x = vk.uc.bytes x := by
  change (sysEpollWait sv sctx).Ends vk (.ok v) vk' at run
  unfold sysEpollWait at run
  dsimp only at run
  by_cases refused : sctx.arg1 = 0 ∨ (sctx.arg2.setWidth 32 : U32).toInt ≤ 0
  · rw [if_pos refused] at run
    obtain ⟨same, rfl⟩ := ends_pure.1 run
    exact .inl ⟨refused, Except.ok.inj same, rfl⟩
  rw [if_neg refused] at run
  apply Or.inr
  obtain ⟨-, run⟩ := ends_bind_hostAlloc.1 run
  rcases (ends_served fun _ => rfl).1 run with ⟨e, told, same, rfl⟩ | ⟨events, told, rest⟩
  · exact .inl ⟨e, told, Except.ok.inj same, rfl⟩
  refine .inr ⟨events, told, ?_⟩
  dsimp only at rest
  by_cases delivered : events ≠ []
  · rw [if_pos delivered] at rest
    by_cases large : (sctx.arg2.setWidth 32 : U32).toNat < events.length
    · rw [if_pos large] at rest
      obtain ⟨_, _, never, -⟩ := ends_bind_ok.1 rest
      exact (ends_diverge never).elim
    rw [if_neg large] at rest
    rcases ends_bind_memWrite.1 rest with ⟨uc, write, last⟩ | ⟨e, -, failed, -⟩
    · obtain ⟨same, rfl⟩ := ends_pure.1 last
      have stored := array_of_memWrite EpollEvent.layout (VMemory.write_ok_iff.1 write).2
      exact ⟨Except.ok.inj same, not_lt.1 large, stored⟩
    · cases failed
  · rw [if_neg delivered] at rest
    obtain ⟨same, rfl⟩ := ends_pure.1 rest
    rw [not_not.1 delivered] at same ⊢
    exact ⟨Except.ok.inj same, Nat.zero_le _, rfl, fun _ _ => rfl⟩

theorem epollWait_reads_back_ready : ∃ vk',
    (sysHandlers .ready .sysEpollWait ⟨5, 0x1800, 8, 0, 0, 0⟩).Ends (pageOf .x86) (.ok 2) vk' ∧
      epollEventsAt vk'.uc 0x1800 2 = [⟨1, 7⟩, ⟨4, 9⟩] := by
  have run : ∃ vk', (sysHandlers .ready .sysEpollWait ⟨5, 0x1800, 8, 0, 0, 0⟩).Ends (pageOf .x86)
    (.ok 2) vk' := ⟨_, rfl⟩
  obtain ⟨vk', run⟩ := run
  obtain ⟨refused, -⟩ | ⟨e, told, -⟩ | ⟨events, told, -, -, read, -⟩ := epollWait_reads_back run
  · exact absurd refused (by decide)
  · cases told
  · cases told
    exact ⟨vk', run, read⟩

/-! ## Timers -/

/-- The time value that the guest reads. -/
def timespecAt (uc : Unicorn) (arch : Arch) (addr : U64) : Timespec where
  tvSec := fromLeBytes (uc.contents addr arch.wordWidth)
  tvNsec := fromLeBytes (uc.contents (addr + BitVec.ofNat 64 arch.wordWidth) arch.wordWidth)

/-- The interval and the value that the guest reads. -/
def itimerspecAt (uc : Unicorn) (arch : Arch) (addr : U64) : Itimerspec where
  itInterval := timespecAt uc arch addr
  itValue := timespecAt uc arch (addr + 2 * BitVec.ofNat 64 arch.wordWidth)

/-- Each field is read back from its low bits. -/
def Itimerspec.narrow (arch : Arch) (spec : Itimerspec) : Itimerspec where
  itInterval := spec.itInterval.narrow arch
  itValue := spec.itValue.narrow arch

/-- The stores of a time value. -/
def Timespec.stores (ts : Timespec) (arch : Arch) (addr : U64) : List (U64 × List U8) :=
  [(addr, toLeBytes arch.wordWidth ts.tvSec),
    (addr + BitVec.ofNat 64 arch.wordWidth, toLeBytes arch.wordWidth ts.tvNsec)]

theorem stores_of_writeGuestTimespec {ts : Timespec}
    (run : (writeGuestTimespec addr ts).Ends vk (.ok ()) vk') :
    ∃ uc, vk' = vk.withUc uc ∧ Stores vk.uc (ts.stores vk.cfg.arch addr) uc := by
  obtain ⟨uc, uc', first, second, rfl⟩ := ends_writeGuestTimespec.1 run
  exact ⟨uc', rfl, .cons _ _ first (.cons _ _ second (.nil uc'))⟩

theorem readGuestItimerspec_ok {spec : Itimerspec}
    (run : (readGuestItimerspec addr).Ends vk (.ok spec) vk') :
    spec = itimerspecAt vk.uc vk.cfg.arch addr ∧ vk' = vk := by
  unfold readGuestItimerspec at run
  rw [ends_bind_get] at run
  obtain ⟨itInterval, t, first, rest⟩ := ends_bind_ok.1 run
  obtain ⟨itValue, u, second, last⟩ := ends_bind_ok.1 rest
  obtain ⟨-, -, rfl, rfl⟩ := ends_readGuestTimespec.1 first
  obtain ⟨-, -, rfl, rfl⟩ := ends_readGuestTimespec.1 second
  obtain ⟨same, rfl⟩ := ends_pure.1 last
  exact ⟨Except.ok.inj same, rfl⟩

/-- The stores of the two time values of a timer do not meet. -/
theorem apart_stores (spec : Itimerspec) (arch : Arch) (addr : U64) :
    (spec.itInterval.stores arch addr ++
      spec.itValue.stores arch (addr + 2 * BitVec.ofNat 64 arch.wordWidth)).Pairwise Apart := by
  have two : (2 * BitVec.ofNat 64 arch.wordWidth).toNat = 2 * arch.wordWidth := by
    cases arch <;> rfl
  have one : (BitVec.ofNat 64 arch.wordWidth).toNat = arch.wordWidth := by
    cases arch <;> rfl
  have width : arch.wordWidth = 4 ∨ arch.wordWidth = 8 := by cases arch <;> decide
  simp only [Timespec.stores, List.cons_append, List.nil_append, List.pairwise_cons,
    List.forall_mem_cons, List.not_mem_nil, false_implies, implies_true, List.Pairwise.nil, and_true]
  refine ⟨⟨?_, ?_, ?_⟩, ⟨?_, ?_⟩, ?_⟩
  all_goals
    intro z first second
    simp only [length_toLeBytes, InRange, BitVec.toNat_add, two, one] at first second
    omega

theorem timespecAt_of_stored {ts : Timespec} {arch : Arch}
    (stored : ∀ o ∈ ts.stores arch addr, uc.contents o.1 o.2.length = o.2) :
    timespecAt uc arch addr = ts.narrow arch := by
  have first := stored _ List.mem_cons_self
  have second := stored _ (List.mem_cons_of_mem _ List.mem_cons_self)
  rw [length_toLeBytes] at first second
  rw [timespecAt, first, second, fromLeBytes_toLeBytes, fromLeBytes_toLeBytes]
  rfl

theorem itimerspecAt_of_write {spec : Itimerspec}
    (run : (writeGuestItimerspec addr spec).Ends vk (.ok ()) vk') :
    itimerspecAt vk'.uc vk.cfg.arch addr = spec.narrow vk.cfg.arch := by
  rw [writeGuestItimerspec, ends_bind_get] at run
  obtain ⟨_, t, first, second⟩ := ends_bind_ok.1 run
  obtain ⟨uc₁, rfl, stores₁⟩ := stores_of_writeGuestTimespec first
  obtain ⟨uc₂, rfl, stores₂⟩ := stores_of_writeGuestTimespec second
  have stored := (stores₁.append stores₂).contents (apart_stores spec vk.cfg.arch addr)
  obtain ⟨interval, value⟩ := List.forall_mem_append.1 stored
  rw [itimerspecAt, Itimerspec.narrow]
  congr 1
  · exact timespecAt_of_stored interval
  · exact timespecAt_of_stored value

/-- After `timerfd_settime` the host has got the time values that the guest had stored, and the guest
reads the low words of the old ones. -/
theorem timerfdSettime_reads_back
    (run : (sysHandlers sv .sysTimerfdSettime sctx).Ends vk (.ok v) vk') :
    (sctx.arg2 = 0 ∧ v = negErrno EFAULT ∧ vk' = vk) ∨
      (∃ e, sv.timerfdSettime (sctx.arg0.setWidth 32) (sctx.arg1.setWidth 32)
        (itimerspecAt vk.uc vk.cfg.arch sctx.arg2) vk.host = .error e ∧ v = negErrno e ∧
          vk'.uc = vk.uc) ∨
      ∃ old, sv.timerfdSettime (sctx.arg0.setWidth 32) (sctx.arg1.setWidth 32)
          (itimerspecAt vk.uc vk.cfg.arch sctx.arg2) vk.host = .ok old ∧ v = 0 ∧
        (sctx.arg3 = 0 → vk'.uc = vk.uc) ∧
        (sctx.arg3 ≠ 0 → itimerspecAt vk'.uc vk.cfg.arch sctx.arg3 = old.narrow vk.cfg.arch) := by
  change (sysTimerfdSettime sv sctx).Ends vk (.ok v) vk' at run
  unfold sysTimerfdSettime at run
  dsimp only at run
  by_cases null : sctx.arg2 = 0
  · rw [if_pos null] at run
    obtain ⟨same, rfl⟩ := ends_pure.1 run
    exact .inl ⟨null, Except.ok.inj same, rfl⟩
  rw [if_neg null] at run
  apply Or.inr
  obtain ⟨new, t, read, asked⟩ := ends_bind_ok.1 run
  obtain ⟨rfl, rfl⟩ := readGuestItimerspec_ok read
  rcases (ends_served fun _ => rfl).1 asked with ⟨e, told, same, rfl⟩ | ⟨old, told, rest⟩
  · exact .inl ⟨e, told, Except.ok.inj same, rfl⟩
  refine .inr ⟨old, told, ?_⟩
  dsimp only at rest
  by_cases wanted : sctx.arg3 ≠ 0
  · rw [if_pos wanted] at rest
    obtain ⟨_, u, stored, last⟩ := ends_bind_ok.1 rest
    obtain ⟨same, rfl⟩ := ends_pure.1 last
    exact ⟨Except.ok.inj same, fun none => absurd none wanted, fun _ => itimerspecAt_of_write stored⟩
  · rw [if_neg wanted] at rest
    obtain ⟨same, rfl⟩ := ends_pure.1 rest
    exact ⟨Except.ok.inj same, fun _ => rfl, fun some => absurd some wanted⟩

theorem timerfdSettime_reads_back_ready : ∃ vk',
    (sysHandlers .ready .sysTimerfdSettime ⟨5, 0, 0x1800, 0x1900, 0, 0⟩).Ends (pageOf .x86) (.ok 0)
      vk' ∧
    itimerspecAt vk'.uc .x86 0x1900 = (itimerspecAt (pageOf .x86).uc .x86 0x1800).narrow .x86 := by
  have run : ∃ vk', (sysHandlers .ready .sysTimerfdSettime ⟨5, 0, 0x1800, 0x1900, 0, 0⟩).Ends
    (pageOf .x86) (.ok 0) vk' := ⟨_, rfl⟩
  obtain ⟨vk', run⟩ := run
  obtain ⟨null, -⟩ | ⟨e, told, -⟩ | ⟨old, told, -, -, read⟩ := timerfdSettime_reads_back run
  · cases null
  · cases told
  · cases told
    exact ⟨vk', run, read (by decide)⟩

/-! ## `pselect6` -/

/-- What is read at an address that is not zero. -/
def unlessNull {α : Type} (addr : U64) (read : U64 → α) : Option α :=
  if addr = 0 then none else some (read addr)

theorem readUnlessNull_ok {α : Type} {read : U64 → VkM α} {value : U64 → α} {out : Option α}
    (reads : ∀ a x t, (read a).Ends vk (.ok x) t → x = value a ∧ t = vk)
    (run : (readUnlessNull addr read).Ends vk (.ok out) vk') :
    out = unlessNull addr value ∧ vk' = vk := by
  unfold readUnlessNull at run
  unfold unlessNull
  by_cases null : addr = 0
  · rw [if_neg (not_not.2 null)] at run
    obtain ⟨same, rfl⟩ := ends_pure.1 run
    rw [if_pos null]
    exact ⟨Except.ok.inj same, rfl⟩
  · rw [if_pos null] at run
    obtain ⟨x, t, found, last⟩ := ends_bind_ok.1 run
    obtain ⟨rfl, rfl⟩ := reads _ _ _ found
    obtain ⟨same, rfl⟩ := ends_pure.1 last
    rw [if_neg null]
    exact ⟨Except.ok.inj same, rfl⟩

/-- The signals that the guest names by an address and a size. -/
def sigmaskAt (uc : Unicorn) (arch : Arch) (addr : U64) : Option (List U8) :=
  let sigmaskAddr := fromLeBytes (uc.contents addr arch.wordWidth)
  let sigsetSize :=
    fromLeBytes (uc.contents (addr + BitVec.ofNat 64 arch.wordWidth) arch.wordWidth)
  if sigmaskAddr = 0 ∨ sigsetSize = 0 then none
  else some ((uc.contents sigmaskAddr (min sigsetSize.toNat fdSetSize)).takeD fdSetSize 0)

theorem readPselect6Sigmask_ok {out : Option (List U8)}
    (run : (readPselect6Sigmask addr).Ends vk (.ok out) vk') :
    out = sigmaskAt vk.uc vk.cfg.arch addr ∧ vk' = vk := by
  have word {a w : U64} {s t : Valkyrie} {n : ℕ} (run : (readWord a n).Ends s (.ok w) t) :
      w = fromLeBytes (s.uc.contents a n) ∧ t = s := by
    obtain ⟨bytes, u, read, last⟩ := ends_bind_ok.1 run
    obtain ⟨rfl, rfl⟩ := memRead_ok read
    obtain ⟨same, rfl⟩ := ends_pure.1 last
    exact ⟨Except.ok.inj same, rfl⟩
  rw [readPselect6Sigmask, ends_bind_get] at run
  obtain ⟨sigmaskAddr, t, first, rest⟩ := ends_bind_ok.1 run
  obtain ⟨sigsetSize, u, second, last⟩ := ends_bind_ok.1 rest
  obtain ⟨rfl, rfl⟩ := word first
  obtain ⟨rfl, rfl⟩ := word second
  unfold sigmaskAt
  dsimp only [guestWordWidth] at last ⊢
  split
  · rename_i absent
    simp only [absent, if_true] at last
    obtain ⟨same, rfl⟩ := ends_pure.1 last
    exact ⟨Except.ok.inj same, rfl⟩
  · rename_i present
    simp only [present, if_false] at last
    obtain ⟨bytes, v, read, last⟩ := ends_bind_ok.1 last
    obtain ⟨rfl, rfl⟩ := memRead_ok read
    obtain ⟨same, rfl⟩ := ends_pure.1 last
    exact ⟨Except.ok.inj same, rfl⟩

/-- The stores of a set, unless its address is zero. -/
def fdSetStores (addr : U64) (fdSet : List U8) : List (U64 × List U8) :=
  if addr ≠ 0 then [(addr, fdSet.takeD fdSetSize 0)] else []

theorem stores_of_writeUnlessNull {fdSet : List U8}
    (run : (writeUnlessNull addr fdSet).Ends vk (.ok ()) vk') :
    ∃ uc, vk' = vk.withUc uc ∧ Stores vk.uc (fdSetStores addr fdSet) uc := by
  unfold writeUnlessNull at run
  unfold fdSetStores
  split_ifs at run ⊢
  · obtain ⟨uc, write, -, rfl⟩ | ⟨e, -, failed, -⟩ := ends_memWrite.1 run
    · exact ⟨uc, rfl, .cons _ _ (VMemory.write_ok_iff.1 write).2 (.nil _)⟩
    · cases failed
  · obtain ⟨-, rfl⟩ := ends_pure.1 run
    exact ⟨vk'.uc, rfl, .nil _⟩

/-- The stores of `pselect6`. -/
def selectedStores (sctx : SubCtx) (sets : Selected) : List (U64 × List U8) :=
  fdSetStores sctx.arg1 sets.readfds ++
    (fdSetStores sctx.arg2 sets.writefds ++ fdSetStores sctx.arg3 sets.exceptfds)

/-- The host's answer to the question that the guest asks by `pselect6`. -/
def selectReply (sv : Services) (sctx : SubCtx) (vk : Valkyrie) : Except U32 Selected :=
  sv.pselect (sctx.arg0.setWidth 32) (unlessNull sctx.arg1 fun a => vk.uc.contents a fdSetSize)
    (unlessNull sctx.arg2 fun a => vk.uc.contents a fdSetSize)
    (unlessNull sctx.arg3 fun a => vk.uc.contents a fdSetSize)
    (unlessNull sctx.arg4 (timespecAt vk.uc vk.cfg.arch))
    ((unlessNull sctx.arg5 (sigmaskAt vk.uc vk.cfg.arch)).join) vk.host

/-- What the host answers to `pselect`, and what the handler makes of it. -/
theorem ends_pselect {reply : Host → Except U32 Selected}
    (run : (service reply >>= fun answer => match answer with
      | .error _ => lastErrno
      | .ok sets => do
        writeUnlessNull sctx.arg1 sets.readfds
        writeUnlessNull sctx.arg2 sets.writefds
        writeUnlessNull sctx.arg3 sets.exceptfds
        return sets.ready.signExtend 64).Ends vk (.ok v) vk') :
    (∃ e, reply vk.host = .error e ∧ v = negErrno e ∧ vk'.uc = vk.uc) ∨
      ∃ sets, reply vk.host = .ok sets ∧ v = sets.ready.signExtend 64 ∧
        Stores vk.uc (selectedStores sctx sets) vk'.uc := by
  rcases (ends_served fun _ => rfl).1 run with ⟨e, told, same, rfl⟩ | ⟨sets, told, rest⟩
  · exact .inl ⟨e, told, Except.ok.inj same, rfl⟩
  obtain ⟨_, t₁, first, rest⟩ := ends_bind_ok.1 rest
  obtain ⟨_, t₂, second, rest⟩ := ends_bind_ok.1 rest
  obtain ⟨_, t₃, third, last⟩ := ends_bind_ok.1 rest
  obtain ⟨same, rfl⟩ := ends_pure.1 last
  obtain ⟨uc₁, rfl, stores₁⟩ := stores_of_writeUnlessNull first
  obtain ⟨uc₂, rfl, stores₂⟩ := stores_of_writeUnlessNull second
  obtain ⟨uc₃, rfl, stores₃⟩ := stores_of_writeUnlessNull third
  exact .inr ⟨sets, told, Except.ok.inj same, stores₁.append (stores₂.append stores₃)⟩

/-- After `pselect6` the host has been asked what the guest had stored, and the guest reads each of the
host's sets in the place that it gave, unless a set stored after it meets that place; nothing around
them has changed. -/
theorem pselect6_reads_back (run : (sysHandlers sv .sysPselect6 sctx).Ends vk (.ok v) vk') :
    ((sctx.arg0.setWidth 32 : U32).toInt < 0 ∧ v = negErrno EINVAL ∧ vk' = vk) ∨
      (∃ e, selectReply sv sctx vk = .error e ∧ v = negErrno e ∧ vk'.uc = vk.uc) ∨
      ∃ sets, selectReply sv sctx vk = .ok sets ∧ v = sets.ready.signExtend 64 ∧
        (∀ past o later, selectedStores sctx sets = past ++ o :: later →
          (∀ p ∈ later, Apart o p) → vk'.uc.contents o.1 o.2.length = o.2) ∧
        ∀ x, (∀ o ∈ selectedStores sctx sets, ¬ InRange o.1 o.2.length x) →
          vk'.uc.bytes x = vk.uc.bytes x := by
  change (sysPselect6 sv sctx).Ends vk (.ok v) vk' at run
  unfold sysPselect6 at run
  dsimp only at run
  by_cases negative : (sctx.arg0.setWidth 32 : U32).toInt < 0
  · rw [if_pos negative] at run
    obtain ⟨same, rfl⟩ := ends_pure.1 run
    exact .inl ⟨negative, Except.ok.inj same, rfl⟩
  rw [if_neg negative] at run
  apply Or.inr
  obtain ⟨readfds, t₁, first, rest⟩ := ends_bind_ok.1 run
  obtain ⟨rfl, rfl⟩ := readUnlessNull_ok (fun _ _ _ => memRead_ok) first
  obtain ⟨writefds, t₂, second, rest⟩ := ends_bind_ok.1 rest
  obtain ⟨rfl, rfl⟩ := readUnlessNull_ok (fun _ _ _ => memRead_ok) second
  obtain ⟨exceptfds, t₃, third, rest⟩ := ends_bind_ok.1 rest
  obtain ⟨rfl, rfl⟩ := readUnlessNull_ok (fun _ _ _ => memRead_ok) third
  obtain ⟨timeout, t₄, fourth, rest⟩ := ends_bind_ok.1 rest
  obtain ⟨rfl, rfl⟩ := readUnlessNull_ok
    (fun _ _ _ found => (ends_readGuestTimespec.1 found).2.2) fourth
  have answered : (∃ e, selectReply sv sctx t₄ = .error e ∧ v = negErrno e ∧ vk'.uc = t₄.uc) ∨
      ∃ sets, selectReply sv sctx t₄ = .ok sets ∧ v = sets.ready.signExtend 64 ∧
        Stores t₄.uc (selectedStores sctx sets) vk'.uc := by
    unfold selectReply
    by_cases null : sctx.arg5 = 0
    · rw [if_neg (not_not.2 null)] at rest
      have unmasked : (unlessNull sctx.arg5 (sigmaskAt t₄.uc t₄.cfg.arch)).join = none := by
        rw [unlessNull, if_pos null]
        rfl
      rw [unmasked]
      exact ends_pselect rest
    · rw [if_pos null] at rest
      obtain ⟨sigmask, t₅, fifth, last⟩ := ends_bind_ok.1 rest
      obtain ⟨rfl, rfl⟩ := readPselect6Sigmask_ok fifth
      have masked : (unlessNull sctx.arg5 (sigmaskAt t₅.uc t₅.cfg.arch)).join =
          sigmaskAt t₅.uc t₅.cfg.arch sctx.arg5 := by
        rw [unlessNull, if_neg null]
        rfl
      rw [masked]
      exact ends_pselect last
  exact answered.imp_right fun ⟨sets, told, same, stores⟩ =>
    ⟨sets, told, same, fun _ _ _ split => stores.contents_of_later split, fun _ => stores.bytes⟩

set_option maxRecDepth 4096 in
/-- The sets of descriptors to write and of exceptions share a place; that of descriptors to read lies
apart. -/
theorem pselect6_reads_back_ready : ∃ vk',
    (sysHandlers .ready .sysPselect6 ⟨8, 0x1800, 0x1900, 0x1900, 0, 0⟩).Ends (pageOf .x86) (.ok 1)
      vk' ∧
    vk'.uc.contents 0x1800 128 = [1].takeD 128 0 ∧ vk'.uc.contents 0x1900 128 = [4].takeD 128 0 := by
  have run : ∃ vk', (sysHandlers .ready .sysPselect6 ⟨8, 0x1800, 0x1900, 0x1900, 0, 0⟩).Ends
    (pageOf .x86) (.ok 1) vk' := ⟨_, rfl⟩
  obtain ⟨vk', run⟩ := run
  obtain ⟨negative, -⟩ | ⟨e, told, -⟩ | ⟨sets, told, -, read, -⟩ := pselect6_reads_back run
  · exact absurd negative (by decide)
  · cases told
  · cases told
    have places : selectedStores ⟨8, 0x1800, 0x1900, 0x1900, 0, 0⟩ ⟨1, [1], [2], [4]⟩ =
        [(0x1800, [1].takeD fdSetSize 0), (0x1900, [2].takeD fdSetSize 0),
          (0x1900, [4].takeD fdSetSize 0)] := by
      simp [selectedStores, fdSetStores]
    rw [places] at read
    have readfds := read [] _ _ rfl fun p member x first second => by
      have place : p.1 = 0x1900 := by
        rcases List.mem_pair.1 member with rfl | rfl <;> rfl
      have before := first.2
      have behind := second.1
      rw [List.takeD_length] at before
      rw [place] at behind
      exact absurd (behind.trans_lt before) (by decide)
    have exceptfds := read [_, _] _ _ rfl nofun
    rw [List.takeD_length] at readfds exceptfds
    exact ⟨vk', run, readfds, exceptfds⟩

/-! ## `uname` -/

/-- The names that `uname` tells: those of the host, or made up ones, with the machine of the guest. -/
def unameNames (sv : Services) (vk : Valkyrie) : List (List Char) :=
  (hostUname (sv.uname vk.host)).set 4 (unameMachine vk.cfg.arch)

/-- The place of a name. -/
def utsnameField (addr : U64) (i : ℕ) : U64 :=
  addr + BitVec.ofNat 64 i * BitVec.ofNat 64 utsnameLen

/-- The stores of fields from the `i`-th on. -/
def fieldStores (addr : U64) (fields : List (List U8)) (i : ℕ) : List (U64 × List U8) :=
  fields.mapIdx fun j field => (utsnameField addr (i + j), field)

/-- The loop stores all fields, or tells `EFAULT`. -/
theorem storeFields_ok {fields : List (List U8)} {i : ℕ}
    (run : (storeFields addr fields i).Ends vk (.ok v) vk') :
    v = negErrno EFAULT ∨ v = 0 ∧ ∃ uc, vk' = vk.withUc uc ∧
      Stores vk.uc (fieldStores addr fields i) uc := by
  induction fields generalizing i vk with
  | nil =>
    obtain ⟨same, rfl⟩ := ends_pure.1 run
    exact .inr ⟨Except.ok.inj same, vk'.uc, rfl, .nil _⟩
  | cons field rest ih =>
    obtain ⟨outcome, t, stored, others⟩ := ends_bind_attempt.1 run
    cases outcome with
    | error e => exact .inl (Except.ok.inj (ends_pure.1 others).1)
    | ok u =>
      obtain ⟨uc₁, write, -, rfl⟩ | ⟨e, -, failed, -⟩ := ends_memWrite.1 stored
      · refine (ih others).imp_right fun ⟨zero, uc, same, stores⟩ => ⟨zero, uc, same, ?_⟩
        have next : fieldStores addr (field :: rest) i =
            (utsnameField addr i, field) :: fieldStores addr rest (i + 1) := by
          rw [fieldStores, List.mapIdx_cons, fieldStores]
          simp only [Nat.add_zero, Nat.add_assoc, Nat.add_comm 1]
        rw [next]
        exact .cons _ _ (VMemory.write_ok_iff.1 write).2 stores
      · cases failed

theorem toNat_utsnameField {i : ℕ} (small : i < 6) :
    (utsnameField addr i).toNat = (addr.toNat + 65 * i) % 2 ^ 64 := by
  have offset : (BitVec.ofNat 64 i * BitVec.ofNat 64 utsnameLen).toNat = 65 * i := by
    rw [BitVec.toNat_mul, BitVec.toNat_ofNat]
    show i % 2 ^ 64 * 65 % 2 ^ 64 = 65 * i
    omega
  rw [utsnameField, BitVec.toNat_add, offset]

/-- The places of the six names do not meet. -/
theorem apart_fieldStores {fields : List (List U8)} (six : fields.length ≤ 6)
    (sized : ∀ field ∈ fields, field.length = 65) :
    (fieldStores addr fields 0).Pairwise Apart := by
  refine List.pairwise_iff_getElem.2 fun i j hi hj less x first second => ?_
  have here : i < fields.length := by simpa [fieldStores] using hi
  have there : j < fields.length := by simpa [fieldStores] using hj
  simp only [fieldStores, List.getElem_mapIdx, Nat.zero_add, InRange,
    sized _ (List.getElem_mem here), sized _ (List.getElem_mem there),
    toNat_utsnameField (here.trans_le six), toNat_utsnameField (there.trans_le six)] at first second
  have small : addr.toNat < 2 ^ 64 := addr.isLt
  -- Six names are too short to come around to themselves.
  rcases lt_or_ge (addr.toNat + 65 * j) (2 ^ 64) with ends | wraps
  · rw [Nat.mod_eq_of_lt (by omega)] at first
    rw [Nat.mod_eq_of_lt ends] at second
    omega
  · rw [Nat.mod_eq_sub_mod wraps, Nat.mod_eq_of_lt (by omega)] at second
    rcases lt_or_ge (addr.toNat + 65 * i) (2 ^ 64) with ends | wraps
    · rw [Nat.mod_eq_of_lt ends] at first
      omega
    · rw [Nat.mod_eq_sub_mod wraps, Nat.mod_eq_of_lt (by omega)] at first
      omega

/-- Zeros behind a text are not read. -/
theorem takeWhile_takeD {bytes : List U8} {n : ℕ} (fits : bytes.length ≤ n) :
    (bytes.takeD n 0).takeWhile (· ≠ 0) = bytes.takeWhile (· ≠ 0) := by
  induction bytes generalizing n with
  | nil =>
    rw [List.takeD_nil]
    cases n <;> rfl
  | cons b bytes ih =>
    obtain ⟨m, rfl⟩ := Nat.exists_eq_add_of_lt (Nat.lt_of_lt_of_le (Nat.succ_pos _) fits)
    have rest := ih (n := m) (by simpa using fits)
    simp only [Nat.zero_add, List.takeD_succ, List.head?_cons, Option.getD_some, List.tail_cons,
      List.takeWhile_cons, rest]

theorem takeWhile_packField (s : List Char) :
    (packField s).takeWhile (· ≠ 0) = ((utf8Bytes s).take 64).takeWhile (· ≠ 0) :=
  takeWhile_takeD ((List.length_take_le _ _).trans (by decide))

end ValkyrieRs

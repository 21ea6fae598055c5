import Mathlib.Data.List.TakeDrop
import ValkyrieRs.Proof.Unperformed
import ValkyrieRs.Syscall.Network

/-!
# Receiving with an address buffer

`sys_recvfrom` stores the bytes received, the sender's address and the address's length.  How much of
the address is stored depends on the sender alone: the length that the guest has declared for its
buffer is never read, so an address that is longer overruns the buffer.
-/

namespace ValkyrieRs

open Proc

/-- What the host delivers to the call, if it does not refuse it. -/
def Valkyrie.received (vk : Valkyrie) (sctx : SubCtx) : Option Host.Received :=
  (vk.host.recvfrom (sctx.arg0.setWidth 32) sctx.arg2.toNat (sctx.arg3.setWidth 32) true).1.toOption

/-- The emulator after the call to the host. -/
def Valkyrie.afterRecvfrom (vk : Valkyrie) (sctx : SubCtx) : Valkyrie :=
  vk.withHost
    (vk.host.recvfrom (sctx.arg0.setWidth 32) sctx.arg2.toNat (sctx.arg3.setWidth 32) true).2

/-- How much of the sender's address is stored: there is room for 128 bytes. -/
def Host.Received.copyLen (got : Host.Received) : ℕ := min got.peerLen.toNat got.peerAddr.length

/-- The address buffer, which ends at the declared length or with the sender's address. -/
def SubCtx.InAddress (sctx : SubCtx) (declared : U32) (got : Host.Received) (x : U64) : Prop :=
  InRange sctx.arg4 (min declared.toNat got.peerLen.toNat) x

/-- The call comes back with the data in its buffer, the address in its own and the address's length
behind the pointer, and it changes nothing else. -/
structure RecvfromWithin (sctx : SubCtx) (declared : U32) (vk : Valkyrie)
    (r : Except ValkyrieError U64) (vk' : Valkyrie) : Prop where
  refused : vk.received sctx = none → vk'.uc = vk.uc
  apart : ∀ got, vk.received sctx = some got → ∀ x, ¬ InRange sctx.arg1 sctx.arg2.toNat x →
    ¬ sctx.InAddress declared got x → ¬ InRange sctx.arg5 4 x → vk'.uc.readAt x = vk.uc.readAt x
  returns : ∀ got, vk.received sctx = some got → vk.uc.Mapped sctx.arg1 sctx.arg2.toNat →
    vk.uc.Mapped sctx.arg4 (min declared.toNat got.peerLen.toNat) → ∃ v, r = .ok v
  length : ∀ got v, vk.received sctx = some got → r = .ok v →
    vk'.uc.memRead sctx.arg5 4 = .ok (toLeBytes 4 got.peerLen)

/-- The call comes back and stays within the guest's buffers. -/
def RecvfromRespects (sctx : SubCtx) (declared : U32) (vk : Valkyrie) : Prop :=
  ∃ r vk', (sysRecvfrom sctx).Ends vk r vk' ∧ RecvfromWithin sctx declared vk r vk'

/-- The data fits its buffer.  So does the stored part of the address; or else what lies beyond the
buffer is mapped when the buffer is, and holds those bytes already or belongs to another buffer. -/
structure AddressFits (sctx : SubCtx) (declared : U32) (vk : Valkyrie) (got : Host.Received) :
    Prop where
  count : got.count ≤ sctx.arg2.toNat
  mapped : vk.uc.Mapped sctx.arg1 sctx.arg2.toNat →
    vk.uc.Mapped sctx.arg4 (min declared.toNat got.peerLen.toNat) →
    vk.uc.Mapped sctx.arg4 got.copyLen
  held : vk.uc.Mapped sctx.arg1 got.count → vk.uc.Mapped sctx.arg4 got.copyLen →
    ∀ x, InRange sctx.arg4 got.copyLen x → ¬ InRange sctx.arg1 sctx.arg2.toNat x →
      ¬ sctx.InAddress declared got x → ¬ InRange sctx.arg5 4 x →
      vk.uc.bytes x = got.peerAddr.getD (x.toNat - sctx.arg4.toNat) 0

variable {vk vk' : Valkyrie} {sctx : SubCtx} {declared : U32} {got : Host.Received} {h : Host}
  {r : Except ValkyrieError U64} {addr : U64} {data : List U8} {n : ℕ}

/-! ## Stores that may be empty -/

theorem Unicorn.Mapped.zero {uc : Unicorn} : uc.Mapped addr 0 :=
  ⟨addr.isLt.le, fun _ inside => absurd inside not_inRange_zero⟩

theorem Unicorn.Mapped.mono {uc : Unicorn} {m : ℕ} (mapped : uc.Mapped addr n) (le : m ≤ n) :
    uc.Mapped addr m := by
  refine ⟨(Nat.add_le_add_left le _).trans mapped.1, fun x inside => mapped.2 x ⟨inside.1, ?_⟩⟩
  exact inside.2.trans_le (Nat.add_le_add_left le _)

theorem exists_memWrite {uc : Unicorn} (size : data.length = n) (mapped : uc.Mapped addr n) :
    ∃ uc', uc.memWrite addr data = .ok uc' := by
  subst size
  exact Unicorn.memWrite_ok_iff.2 mapped

/-- A store that is left out when there is nothing to store. -/
theorem ends_store_iff {α : Type} {f : Unit → VkM α} {r : Except ValkyrieError α} {uc : Unicorn}
    (size : data.length = n) (written : vk.uc.memWrite addr data = .ok uc) :
    (if 0 < n then memWrite addr data >>= f else f ()).Ends vk r vk' ↔
      (f ()).Ends (vk.withUc uc) r vk' := by
  by_cases empty : n = 0
  · obtain rfl := List.eq_nil_of_length_eq_zero (size.trans empty)
    have same : uc = vk.uc := by
      unfold Unicorn.memWrite at written
      split_ifs at written
      cases written
      simp
    rw [if_neg (by omega), same]
    exact Iff.rfl
  · have some : data ≠ [] := by
      rintro rfl
      exact empty size.symm
    rw [if_pos (by omega)]
    have run : (memWrite addr data).Ends vk (.ok ()) (vk.withUc uc) :=
      ends_memWrite.2 (.inl ⟨uc, VMemory.write_ok_iff.2 ⟨some, written⟩, rfl, rfl⟩)
    exact run.bind_iff

/-- Where memory is not mapped, the store fails. -/
theorem ends_store_of_not_mapped {α : Type} {f : Unit → VkM α} (size : data.length = n)
    (unmapped : ¬ vk.uc.Mapped addr n) : ∃ e,
      (if 0 < n then memWrite addr data >>= f else f ()).Ends vk (.error e) vk := by
  have positive : 0 < n := by
    by_contra zero
    exact unmapped (Nat.eq_zero_of_not_pos zero ▸ .zero)
  rw [if_pos positive]
  cases written : VMemory.write vk.uc addr data with
  | error e => exact ⟨e, ends_bind_memWrite.2 (.inr ⟨e, written, rfl, rfl⟩)⟩
  | ok uc =>
    exact absurd (size ▸ Unicorn.memWrite_ok_iff.1 ⟨uc, (VMemory.write_ok_iff.1 written).2⟩) unmapped

/-! ## What is stored -/

/-- Memory before and after a message has been stored, with the result. -/
structure MessageStored (sctx : SubCtx) (got : Host.Received) (before after : Unicorn)
    (r : Except ValkyrieError U64) : Prop where
  pages : after.pages = before.pages
  apart : ∀ x, ¬ InRange sctx.arg1 got.count x → ¬ InRange sctx.arg5 4 x →
    ¬ (before.Mapped sctx.arg1 got.count ∧ before.Mapped sctx.arg4 got.copyLen ∧
      InRange sctx.arg4 got.copyLen x) → after.bytes x = before.bytes x
  address : before.Mapped sctx.arg1 got.count → before.Mapped sctx.arg4 got.copyLen →
    ∀ x, InRange sctx.arg4 got.copyLen x → ¬ InRange sctx.arg5 4 x →
      after.bytes x = got.peerAddr.getD (x.toNat - sctx.arg4.toNat) 0
  returns : (∃ v, r = .ok v) ↔
    before.Mapped sctx.arg1 got.count ∧ before.Mapped sctx.arg4 got.copyLen
  length : ∀ v, r = .ok v → after.memRead sctx.arg5 4 = .ok (toLeBytes 4 got.peerLen)

/-- A message that fits the data buffer is stored. -/
theorem exists_messageStored (address : sctx.arg4 ≠ 0) (addrlen : sctx.arg5 ≠ 0)
    (fits : got.count ≤ sctx.arg2.toNat) (size : sctx.arg2.toNat ≤ got.data.length)
    (mapped : vk.uc.Mapped sctx.arg5 4) : ∃ r vk',
      (storeReceived sctx.arg1 sctx.arg2.toNat sctx.arg4 sctx.arg5 got).Ends vk r vk' ∧
        MessageStored sctx got vk.uc vk'.uc r := by
  have dataSize : (got.data.take got.count).length = got.count := by
    rw [List.length_take]
    omega
  have addrSize : (got.peerAddr.take got.copyLen).length = got.copyLen := by
    rw [List.length_take, Host.Received.copyLen]
    omega
  simp only [storeReceived, if_neg (Nat.not_lt.2 fits), if_pos (And.intro address addrlen)]
  -- the stores come in the order data, address, length; each but the last may fail
  by_cases data : vk.uc.Mapped sctx.arg1 got.count
  · obtain ⟨uc₁, first⟩ := exists_memWrite dataSize data
    obtain ⟨pages₁, -, bytes₁⟩ := Unicorn.memWrite_effect first
    rw [dataSize] at bytes₁
    simp only [ends_store_iff dataSize first]
    by_cases addr : vk.uc.Mapped sctx.arg4 got.copyLen
    · obtain ⟨uc₂, second⟩ := exists_memWrite addrSize (addr.of_pages pages₁)
      obtain ⟨pages₂, -, bytes₂⟩ := Unicorn.memWrite_effect second
      rw [addrSize] at bytes₂
      obtain ⟨uc₃, third⟩ := exists_memWrite (length_toLeBytes got.peerLen)
        (mapped.of_pages (pages₂.trans pages₁))
      obtain ⟨pages₃, -, bytes₃⟩ := Unicorn.memWrite_effect third
      rw [length_toLeBytes] at bytes₃
      have last : (writeSocklen sctx.arg5 got.peerLen).Ends ((vk.withUc uc₁).withUc uc₂) (.ok ())
          (vk.withUc uc₃) :=
        ends_memWrite.2 (.inl ⟨uc₃, VMemory.write_ok_iff.2 ⟨nofun, third⟩, rfl, rfl⟩)
      have rest : (writeSocklen sctx.arg5 got.peerLen >>= fun _ =>
          pure (BitVec.ofNat 64 got.count)).Ends ((vk.withUc uc₁).withUc uc₂)
          (.ok (BitVec.ofNat 64 got.count)) (vk.withUc uc₃) :=
        last.bind (ends_pure.2 ⟨rfl, rfl⟩)
      refine ⟨_, _, (ends_store_iff addrSize second).2 rest,
        pages₃.trans (pages₂.trans pages₁), fun x notData notLength notAddr => ?_,
        fun _ _ x inAddr notLength => ?_, iff_of_true ⟨_, rfl⟩ ⟨data, addr⟩, fun v _ => ?_⟩
      · have outside : ¬ InRange sctx.arg4 got.copyLen x := fun h => notAddr ⟨data, addr, h⟩
        exact (bytes₃ x).trans ((if_neg notLength).trans
          ((bytes₂ x).trans ((if_neg outside).trans ((bytes₁ x).trans (if_neg notData)))))
      · have byte := (bytes₃ x).trans ((if_neg notLength).trans
          ((bytes₂ x).trans (if_pos inAddr)))
        have inside : x.toNat - sctx.arg4.toNat < got.copyLen := by
          unfold InRange at inAddr
          omega
        rw [Valkyrie.withUc_uc, byte, List.getD_eq_getElem?_getD, List.getElem?_take_of_lt inside,
          ← List.getD_eq_getElem?_getD]
      · refine Unicorn.memRead_ok_iff.2 ⟨mapped.of_pages (pages₃.trans (pages₂.trans pages₁)), ?_⟩
        have stored := Unicorn.contents_of_memWrite third
        rw [length_toLeBytes] at stored
        exact stored.symm
    · obtain ⟨e, run⟩ := @ends_store_of_not_mapped (vk.withUc uc₁) _ _ _ _ _ addrSize
        fun h => addr (h.of_pages pages₁.symm)
      refine ⟨_, _, run, pages₁, fun x outside _ _ => ?_, fun _ h => absurd h addr,
        iff_of_false nofun fun h => addr h.2, fun v => nofun⟩
      exact (bytes₁ x).trans (if_neg outside)
  · obtain ⟨e, run⟩ := ends_store_of_not_mapped dataSize data
    exact ⟨_, _, run, rfl, fun x _ _ _ => rfl, fun some => absurd some data,
      iff_of_false nofun fun h => data h.1, fun v => nofun⟩

/-! ## The call -/

theorem length_data_of_received (arrived : vk.received sctx = some got) :
    got.data.length = sctx.arg2.toNat := by
  unfold Valkyrie.received Host.recvfrom Host.onFd at arrived
  simp only [Host.record_fds] at arrived
  cases found : vk.host.fds.lookup (sctx.arg0.setWidth 32) with
  | none =>
    rw [found] at arrived
    cases arrived
  | some d =>
    rw [found] at arrived
    by_cases ok : vk.host.answer.ok
    · simp only [if_pos ok] at arrived
      cases arrived
      exact List.takeD_length ..
    · simp only [if_neg ok] at arrived
      cases arrived

/-- A count beyond the end of the buffer panics. -/
theorem count_le_of_storeReceived {len : ℕ} {bufAddr srcAddr addrlenPtr : U64}
    (run : (storeReceived bufAddr len srcAddr addrlenPtr got).Ends vk r vk') : got.count ≤ len := by
  by_contra long
  simp only [storeReceived, if_pos (Nat.not_le.1 long), ends_bind] at run
  rcases run with ⟨e, panic, -⟩ | ⟨_, _, panic, -⟩
  · exact ends_diverge panic
  · exact ends_diverge panic

/-- A message fits when the stored part of the address is within the declared length. -/
theorem AddressFits.of_le (count : got.count ≤ sctx.arg2.toNat)
    (le : got.copyLen ≤ declared.toNat) : AddressFits sctx declared vk got := by
  have short : got.copyLen ≤ min declared.toNat got.peerLen.toNat :=
    le_min le (Nat.min_le_left ..)
  refine ⟨count, fun _ mapped => mapped.mono short, fun _ _ x inside _ outside => ?_⟩
  refine absurd ⟨inside.1, ?_⟩ outside
  exact inside.2.trans_le (Nat.add_le_add_left short _)

/-- A message stored is within the guest's buffers exactly when it fits. -/
theorem MessageStored.within_iff (stored : MessageStored sctx got vk.uc vk'.uc r)
    (arrived : vk.received sctx = some got) (fits : got.count ≤ sctx.arg2.toNat) :
    RecvfromWithin sctx declared vk r vk' ↔ AddressFits sctx declared vk got := by
  constructor
  · intro within
    refine ⟨fits, fun data addr => ?_, fun data addr x inAddr notData notAddr notLength => ?_⟩
    · exact (stored.returns.1 (within.returns got arrived data addr)).2
    · have same := within.apart got arrived x notData notAddr notLength
      have page : vk'.uc.protAt x = vk.uc.protAt x := congrFun stored.pages _
      rw [Unicorn.readAt, Unicorn.readAt, page, if_pos (addr.2 x inAddr)] at same
      rw [if_pos (addr.2 x inAddr)] at same
      exact (Option.some.inj same).symm.trans (stored.address data addr x inAddr notLength)
  · intro fit
    refine ⟨fun none => ?_, fun _ same x notData notAddr notLength => ?_, fun _ same data addr => ?_,
      fun _ v same => ?_⟩
    · rw [none] at arrived
      cases arrived
    all_goals
      obtain rfl := Option.some.inj (arrived.symm.trans same)
    · have page : vk'.uc.protAt x = vk.uc.protAt x := congrFun stored.pages _
      have byte : vk'.uc.bytes x = vk.uc.bytes x := by
        by_cases copied : vk.uc.Mapped sctx.arg1 got.count ∧ vk.uc.Mapped sctx.arg4 got.copyLen ∧
          InRange sctx.arg4 got.copyLen x
        · obtain ⟨data, addr, inAddr⟩ := copied
          exact (stored.address data addr x inAddr notLength).trans
            (fit.held data addr x inAddr notData notAddr notLength).symm
        · refine stored.apart x (fun inData => notData ⟨inData.1, ?_⟩) notLength copied
          exact inData.2.trans_le (Nat.add_le_add_left fits _)
      rw [Unicorn.readAt, Unicorn.readAt, page, byte]
    · exact stored.returns.2 ⟨data.mono fits, fit.mapped data addr⟩
    · exact stored.length v

section Addressed

variable (address : sctx.arg4 ≠ 0) (addrlen : sctx.arg5 ≠ 0)
include address addrlen

theorem ends_sysRecvfrom_of_refused (refused : vk.received sctx = none) :
    (sysRecvfrom sctx).Ends vk r vk' ↔ sctx.arg2.toNat < 2 ^ 63 ∧
      r = .ok (negErrno (vk.afterRecvfrom sctx).host.errno) ∧ vk' = vk.afterRecvfrom sctx := by
  rw [sysRecvfrom, ends_bind_hostAlloc, ends_bind_hostCall]
  refine and_congr_right fun _ => ?_
  simp only [decide_eq_true (And.intro address addrlen)]
  unfold Valkyrie.received at refused
  cases answer : (vk.host.recvfrom (sctx.arg0.setWidth 32) sctx.arg2.toNat
      (sctx.arg3.setWidth 32) true).1 with
  | error e => exact ends_lastErrno
  | ok got =>
    rw [answer] at refused
    cases refused

theorem ends_sysRecvfrom_of_received (arrived : vk.received sctx = some got) :
    (sysRecvfrom sctx).Ends vk r vk' ↔ sctx.arg2.toNat < 2 ^ 63 ∧
      (storeReceived sctx.arg1 sctx.arg2.toNat sctx.arg4 sctx.arg5 got).Ends
        (vk.afterRecvfrom sctx) r vk' := by
  rw [sysRecvfrom, ends_bind_hostAlloc, ends_bind_hostCall]
  refine and_congr_right fun _ => ?_
  simp only [decide_eq_true (And.intro address addrlen)]
  unfold Valkyrie.received at arrived
  cases answer : (vk.host.recvfrom (sctx.arg0.setWidth 32) sctx.arg2.toNat
      (sctx.arg3.setWidth 32) true).1 with
  | error e =>
    rw [answer] at arrived
    cases arrived
  | ok got' =>
    rw [answer] at arrived
    cases arrived
    exact Iff.rfl

/-- A call that stays within the guest's buffers has had a message that fits. -/
theorem RecvfromRespects.addressFits (arrived : vk.received sctx = some got)
    (mapped : vk.uc.Mapped sctx.arg5 4) (respects : RecvfromRespects sctx declared vk) :
    AddressFits sctx declared vk got := by
  obtain ⟨r, vk', run, within⟩ := respects
  obtain ⟨-, run⟩ := (ends_sysRecvfrom_of_received address addrlen arrived).1 run
  have fits := count_le_of_storeReceived run
  have here : (vk.afterRecvfrom sctx).uc.Mapped sctx.arg5 4 := mapped
  obtain ⟨r', t, run', stored⟩ :=
    exists_messageStored address addrlen fits (length_data_of_received arrived).ge here
  obtain ⟨rfl, rfl⟩ := run.unique run'
  have stored : MessageStored sctx got vk.uc vk'.uc r := stored
  exact (stored.within_iff arrived fits).1 within

/-- The call comes back and stays within the guest's buffers exactly when the buffer for the data can
be allocated and the message that the host delivers, if it does, fits. -/
theorem recvfrom_respects_iff
    (stored : VMemory.read vk.uc sctx.arg5 4 = .ok (toLeBytes 4 declared)) :
    RecvfromRespects sctx declared vk ↔ sctx.arg2.toNat < 2 ^ 63 ∧
      ∀ got, vk.received sctx = some got → AddressFits sctx declared vk got := by
  have mapped := (Unicorn.memRead_ok_iff.1 (VMemory.read_ok_iff.1 stored).2).1
  constructor
  · intro respects
    refine ⟨?_, fun got arrived => respects.addressFits address addrlen arrived mapped⟩
    obtain ⟨r, vk', run, -⟩ := respects
    rw [sysRecvfrom, ends_bind_hostAlloc] at run
    exact run.1
  rintro ⟨small, fits⟩
  cases arrived : vk.received sctx with
  | none =>
    refine ⟨_, _, (ends_sysRecvfrom_of_refused address addrlen arrived).2 ⟨small, rfl, rfl⟩,
      fun _ => rfl, ?_, ?_, ?_⟩
    all_goals
      rw [arrived]
      exact nofun
  | some got =>
    have fit := fits got arrived
    have here : (vk.afterRecvfrom sctx).uc.Mapped sctx.arg5 4 := mapped
    obtain ⟨r, vk', run, stored⟩ :=
      exists_messageStored address addrlen fit.count (length_data_of_received arrived).ge here
    have stored : MessageStored sctx got vk.uc vk'.uc r := stored
    exact ⟨r, vk', (ends_sysRecvfrom_of_received address addrlen arrived).2 ⟨small, run⟩,
      (stored.within_iff arrived fit.count).2 fit⟩

end Addressed

/-- A guest with a page at `0x1000` that declares the length at `0x1100`.  Its socket delivers two
bytes, sent from an address of sixteen. -/
def socketGuest (declared : U8) : Valkyrie :=
  let vk := Valkyrie.ofMemory .x86_64 ⟨[⟨0x1000, 0x1000, .all, "[stack]"⟩], 0, 0⟩
  { vk with
    uc := { vk.uc with bytes := fun x => if x = 0x1100 then declared else 0 }
    host := { vk.host with
      answers := fun _ => ⟨true, 0, 16, 2, [104, 105, 2, 0, 31, 144, 127, 0, 0, 1]⟩
      fds := AList.insert 3 0 ∅ } }

/-- `recvfrom(3, 0x1300, 2, 0, 0x1200, 0x1100)`. -/
def recvfromCall : SubCtx := ⟨3, 0x1300, 2, 0, 0x1200, 0x1100⟩

/-- The message delivered. -/
def greeting : Host.Received := ⟨2, [104, 105], [2, 0, 31, 144, 127, 0, 0, 1].takeD 128 0, 16⟩

theorem copyLen_greeting : greeting.copyLen = 16 := by
  rw [Host.Received.copyLen, greeting, List.takeD_length]
  decide

theorem socketGuest_received {declared : U8} :
    (socketGuest declared).received recvfromCall = some greeting := rfl

theorem socketGuest_mapped {declared : U8} {a : U64} {n : ℕ}
    (h : (socketGuest 0).uc.spanMapped a n = true) : (socketGuest declared).uc.Mapped a n :=
  ((Unicorn.spanMapped_iff ..).1 h).of_pages rfl

theorem recvfrom_respects_iff_socketGuest : RecvfromRespects recvfromCall 16 (socketGuest 16) := by
  refine (recvfrom_respects_iff (by decide) (by decide) rfl).2 ⟨by decide, fun got arrived => ?_⟩
  obtain rfl := Option.some.inj (socketGuest_received.symm.trans arrived)
  exact .of_le (by decide) (copyLen_greeting ▸ by decide)

/-- An address longer than the length declared is stored beyond it. -/
theorem recvfrom_overruns : ¬ ∀ (sctx : SubCtx) (declared : U32) (vk : Valkyrie), sctx.arg4 ≠ 0 →
    sctx.arg5 ≠ 0 → VMemory.read vk.uc sctx.arg5 4 = .ok (toLeBytes 4 declared) →
      RecvfromRespects sctx declared vk := by
  intro always
  have stored : VMemory.read (socketGuest 4).uc 0x1100 4 = .ok (toLeBytes 4 (4 : U32)) := rfl
  have respects := always recvfromCall 4 (socketGuest 4) (by decide) (by decide) stored
  have fits := respects.addressFits (by decide) (by decide) socketGuest_received
    (socketGuest_mapped (by decide))
  have inside : InRange 0x1200 greeting.copyLen 0x1204 := by
    rw [copyLen_greeting]
    decide
  have outside : ¬ recvfromCall.InAddress 4 greeting 0x1204 := by
    show ¬ InRange 0x1200 4 0x1204
    decide
  have held := fits.held (socketGuest_mapped (by decide))
    (socketGuest_mapped (copyLen_greeting ▸ by decide)) 0x1204 inside (by decide) outside (by decide)
  have byte : greeting.peerAddr.getD 4 0 = 127 := rfl
  exact absurd (held.trans byte) (by decide)

end ValkyrieRs

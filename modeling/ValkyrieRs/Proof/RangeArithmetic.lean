import ValkyrieRs.Proof.AddressSearch
import ValkyrieRs.Proof.HeapBreak

/-!
# The arithmetic of ranges

The values that the memory calls compute from the guest's addresses and lengths by plain additions
and round-ups.  `align_up` adds a page before it subtracts one, so a round-up stays within the
machine word below `2^64 - 4096` only.
-/

namespace ValkyrieRs

open Proc

variable {vk vk' : Valkyrie} {mem : VMemory} {sctx : SubCtx} {len addr a b : U64} {n : ℕ}
  {r : Except ValkyrieError U64}

/-- The memory calls of the guest that take a range. -/
inductive RangeCall where
  | brk (sctx : SubCtx)
  | mmap (sctx : SubCtx)
  | munmap (sctx : SubCtx)
  | mprotect (sctx : SubCtx)

/-- The call ends with a result in a state. -/
def RangeCall.Ends : RangeCall → Valkyrie → Except ValkyrieError U64 → Valkyrie → Prop
  | .brk sctx, vk, r, vk' => (sysBrk sctx).Ends vk r vk'
  | .mmap sctx, vk, r, vk' => (sysMmap sctx).Ends vk r vk'
  | .munmap sctx, vk, r, vk' => (sysMunmap sctx).Ends vk r vk'
  | .mprotect sctx, vk, r, vk' => (sysMprotect sctx).Ends vk r vk'

/-! ## What is computed -/

/-- The region in the way of a candidate of the address search. -/
def VMemory.inWay (mem : VMemory) (len candidate : U64) : Option VMemRegion :=
  mem.regions.find? fun r => candidate < r.satEnd ∧ satAdd candidate len > r.start

/-- The address search comes to the candidate. -/
def VMemory.SearchReaches (mem : VMemory) (len candidate : U64) : Prop :=
  ∃ k, Loop.after (nextCandidate mem.regions len) mem.mmapBase k = some candidate

/-- The address search computes the value. -/
def VMemory.SearchComputes (mem : VMemory) (len : U64) (n : ℕ) : Prop :=
  n = (satAdd mem.heapAddrExit 0x10000000).toNat + 4096 ∨
    ∃ candidate r, mem.SearchReaches len candidate ∧ mem.inWay len candidate = some r ∧
      n = r.satEnd.toNat + 4096

/-- The call computes the value by an addition, or on the way of a round-up. -/
def RangeCall.Computes (vk : Valkyrie) : RangeCall → ℕ → Prop
  | .brk sctx, n => sctx.arg0 ≠ 0 ∧
      ((∃ r ∈ vk.mem.regions, r.info = "[heap]" ∧ n = r.start.toNat + r.size.toNat) ∨
        n = sctx.arg0.toNat + 4096 ∨
        ¬ vk.BreakRefused sctx ∧ vk.mem.mappedHeapEnd < sctx.newBreak ∧
          n = vk.mem.mappedHeapEnd.toNat + 4096)
  | .mmap sctx, n => sctx.arg1 ≠ 0 ∧
      (n = sctx.arg1.toNat + 4096 ∨
        Aligned sctx.arg0 ∧ (sctx.arg0 = 0 ∨ ¬ sctx.UseFixed) ∧ vk.mem.SearchComputes sctx.mapLen n)
  | .munmap sctx, n => sctx.arg0 ≠ 0 ∧ ¬ sctx.MmapRefused ∧ n = sctx.arg1.toNat + 4096
  | .mprotect sctx, n => sctx.arg1 ≠ 0 ∧
      (n = (satAdd sctx.arg0 sctx.arg1).toNat + 4096 ∨
        (∃ uc, vk.uc.memProtect sctx.protStart sctx.protSize sctx.mapProt = .ok uc) ∧
          ∃ r ∈ vk.mem.regions, n = r.start.toNat + r.size.toNat)

/-- The rounded length is no less than the length, or the end no less than the start. -/
def RangeCall.Ordered : RangeCall → Prop
  | .brk sctx => sctx.arg0 ≤ sctx.newBreak
  | .mmap sctx => sctx.arg1 ≤ sctx.mapLen
  | .munmap sctx => sctx.arg0 ≠ 0 → ¬ sctx.MmapRefused → sctx.arg1 ≤ sctx.mapLen
  | .mprotect sctx => sctx.arg1 ≠ 0 → sctx.protStart ≤ sctx.protStop

/-- A round-up without the limit of the machine word. -/
def roundUp (n : ℕ) : ℕ := (n + 4095) / 4096 * 4096

/-- The rounded range lies in the address space. -/
def RangeCall.Representable (vk : Valkyrie) : RangeCall → Prop
  | .brk sctx => roundUp sctx.arg0.toNat < 2 ^ 64
  | .mmap sctx => roundUp sctx.arg1.toNat < 2 ^ 64 ∧
      ∀ addr, vk.mem.mmapAddr sctx = some addr → addr.toNat + roundUp sctx.arg1.toNat ≤ 2 ^ 64
  | .munmap sctx => roundUp sctx.arg1.toNat < 2 ^ 64 ∧
      sctx.arg0.toNat + roundUp sctx.arg1.toNat ≤ 2 ^ 64
  | .mprotect sctx => roundUp (sctx.arg0.toNat + sctx.arg1.toNat) ≤ 2 ^ 64

/-- The old break, or an error number. -/
def RangeCall.Refuses (vk : Valkyrie) : RangeCall → Except ValkyrieError U64 → Prop
  | .brk _, r => r = .ok vk.mem.heapAddrExit
  | _, r => ∃ v, r = .ok v ∧ IsNegErrno v

/-- Nothing that the call computes exceeds a machine word, and a range that has no place in the
address space is refused. -/
structure RangeSafe (vk : Valkyrie) (c : RangeCall) : Prop where
  fits : ∀ n, c.Computes vk n → n < 2 ^ 64
  ordered : c.Ordered
  refused : ¬ c.Representable vk → ∀ r vk', c.Ends vk r vk' → c.Refuses vk r ∧ Unchanged vk vk'

/-! ## When it fits -/

/-- There is room for the search below the last page but one. -/
structure VMemory.SearchRoom (mem : VMemory) (len : U64) : Prop where
  start : mem.heapAddrExit.toNat + 0x10001000 < 2 ^ 64
  below : ∃ addr, mem.Suits len addr ∧ (addr.toNat = mem.mmapStart ∨ addr.toNat + 4096 < 2 ^ 64)

/-- The condition on the arguments and the memory map. -/
def RangeCall.Fits (vk : Valkyrie) : RangeCall → Prop
  | .brk sctx => sctx.arg0 = 0 ∨ sctx.arg0.toNat + 4096 < 2 ^ 64 ∧
      ∀ r ∈ vk.mem.regions, r.info = "[heap]" → r.start.toNat + r.size.toNat < 2 ^ 64
  | .mmap sctx => sctx.arg1 = 0 ∨ sctx.arg1.toNat + 4096 < 2 ^ 64 ∧ (¬ Aligned sctx.arg0 ∨
      if sctx.arg0 = 0 ∨ ¬ sctx.UseFixed then vk.mem.SearchRoom sctx.mapLen
      else sctx.arg0.toNat + sctx.mapLen.toNat ≤ 2 ^ 64 ∨ vk.mem.Clear sctx.arg0 sctx.mapLen)
  | .munmap sctx => sctx.arg0 = 0 ∨ sctx.MmapRefused ∨ sctx.arg1.toNat + 4096 < 2 ^ 64
  | .mprotect sctx => sctx.arg1 = 0 ∨ sctx.arg0.toNat + sctx.arg1.toNat + 4096 < 2 ^ 64 ∧
      (¬ vk.uc.Unmappable sctx.protStart sctx.protSize ∨
        ∀ r ∈ vk.mem.regions, r.start.toNat + r.size.toNat < 2 ^ 64)

/-! ## The search -/

theorem toNat_mapLen (fits : sctx.arg1.toNat + 4096 < 2 ^ 64) :
    sctx.mapLen.toNat = roundUp sctx.arg1.toNat := by
  rw [SubCtx.mapLen, toNat_alignUp, roundUp]
  omega

theorem VMemory.SearchReaches.base : mem.SearchReaches len mem.mmapBase := ⟨0, rfl⟩

theorem VMemory.SearchReaches.next (h : mem.SearchReaches len a)
    (step : nextCandidate mem.regions len a = some b) : mem.SearchReaches len b := by
  obtain ⟨k, reached⟩ := h
  refine ⟨k + 1, ?_⟩
  rw [Loop.after, reached]
  exact step

/-- What holds of the first candidate and is kept by every step holds of all. -/
theorem VMemory.SearchReaches.keeps {P : U64 → Prop} (h : mem.SearchReaches len a)
    (first : P mem.mmapBase)
    (kept : ∀ a b, P a → nextCandidate mem.regions len a = some b → P b) : P a := by
  obtain ⟨k, reached⟩ := h
  induction k generalizing a with
  | zero =>
    cases reached
    exact first
  | succ k ih =>
    obtain ⟨c, before, step⟩ := Option.bind_eq_some_iff.1 reached
    exact kept c a (ih before) step

theorem VMemory.SearchRoom.mmapStart_lt (room : mem.SearchRoom len) : mem.mmapStart < 2 ^ 64 := by
  have start := room.start
  have gap : (0x10000000 : U64).toNat = 0x10000000 := rfl
  rw [mmapStart, toNat_satAdd, gap]
  omega

/-- A search that computes no number past the machine word goes up to a candidate that suits. -/
theorem VMemory.searchRoom_of_computes (paged : ∀ r ∈ mem.regions, r.Paged)
    (fits : ∀ n, mem.SearchComputes len n → n < 2 ^ 64) : mem.SearchRoom len := by
  have gap : (0x10000000 : U64).toNat = 0x10000000 := rfl
  have first := fits _ (.inl rfl)
  rw [toNat_satAdd, gap] at first
  have small : mem.mmapStart < 2 ^ 64 := by
    rw [mmapStart, toNat_satAdd, gap]
    omega
  have up : ∀ a b : U64, mem.SearchReaches len a ∧
      (a.toNat = mem.mmapStart ∨ a.toNat + 4096 < 2 ^ 64) →
      nextCandidate mem.regions len a = some b →
      (mem.SearchReaches len b ∧ (b.toNat = mem.mmapStart ∨ b.toNat + 4096 < 2 ^ 64)) ∧
        a.toNat < b.toNat := by
    rintro a b ⟨reached, -⟩ step
    have reached' := reached.next step
    obtain ⟨r, found, rfl⟩ := Option.map_eq_some_iff.1 step
    have next := fits _ (.inr ⟨a, r, reached, found, rfl⟩)
    have stop := (paged r (List.mem_of_find?_eq_some found)).stop
    have inWay := List.find?_some found
    simp only [decide_eq_true_eq, BitVec.lt_def] at inWay
    refine ⟨⟨reached', .inr ?_⟩, ?_⟩
    · rw [toNat_alignUp]
      rw [VMemRegion.toNat_satEnd] at next ⊢
      omega
    · rw [toNat_alignUp]
      omega
  obtain ⟨found, -, suits, -, last⟩ :=
    exists_search paged small ⟨.base, .inl (toNat_mmapBase small)⟩ up
  exact ⟨by omega, found, suits, last⟩

/-- Below a candidate that suits, the search computes no number past the machine word. -/
theorem VMemory.SearchRoom.computes (room : mem.SearchRoom len)
    (paged : ∀ r ∈ mem.regions, r.Paged) (positive : 0 < len.toNat) {n : ℕ}
    (computes : mem.SearchComputes len n) : n < 2 ^ 64 := by
  have gap : (0x10000000 : U64).toNat = 0x10000000 := rfl
  obtain rfl | ⟨c, r, reached, found, rfl⟩ := computes
  · have start := room.start
    rw [toNat_satAdd, gap]
    omega
  · have small := room.mmapStart_lt
    obtain ⟨addr, suits, last⟩ := room.below
    have step : nextCandidate mem.regions len c = some (alignUp r.satEnd pageSize) := by
      show (mem.inWay len c).map _ = _
      rw [found]
      rfl
    have between := reached.keeps (P := fun c => mem.mmapStart ≤ c.toNat ∧ c.toNat ≤ addr.toNat)
      ⟨Nat.le_of_eq (toNat_mmapBase small).symm, toNat_mmapBase small ▸ suits.behind⟩
      fun a b between step => by
        obtain ⟨up, below⟩ := suits.next paged positive between.2 step
        omega
    obtain ⟨up, below⟩ := suits.next paged positive between.2 step
    have hr := List.mem_of_find?_eq_some found
    have inWay := List.find?_some found
    simp only [decide_eq_true_eq, gt_iff_lt, BitVec.lt_def, VMemRegion.toNat_satEnd,
      toNat_satAdd] at inWay
    have ends : r.start.toNat + r.size.toNat ≤ addr.toNat := by
      rcases suits.clear.cases hr (paged r hr).nonempty positive with before | after
      · exact before
      · omega
    rw [VMemRegion.toNat_satEnd]
    omega

/-- The search stays within the machine word exactly when there is room for it. -/
theorem VMemory.searchComputes_iff (paged : ∀ r ∈ mem.regions, r.Paged)
    (positive : 0 < len.toNat) :
    (∀ n, mem.SearchComputes len n → n < 2 ^ 64) ↔ mem.SearchRoom len :=
  ⟨searchRoom_of_computes paged, fun room _ computes => room.computes paged positive computes⟩

/-! ## The calls -/

theorem rangeSafe_brk : RangeSafe vk (.brk sctx) ↔ (RangeCall.brk sctx).Fits vk := by
  by_cases null : sctx.arg0 = 0
  · refine iff_of_true ⟨fun n computes => absurd null computes.1, ?_, fun unfit => ?_⟩ (.inl null)
    · show sctx.arg0 ≤ _
      rw [null, BitVec.le_def]
      exact Nat.zero_le _
    · exact absurd (by rw [RangeCall.Representable, null]; decide) unfit
  constructor
  · intro safe
    exact .inr ⟨safe.fits _ ⟨null, .inr (.inl rfl)⟩,
      fun r hr label => safe.fits _ ⟨null, .inl ⟨r, hr, label, rfl⟩⟩⟩
  · rintro (zero | ⟨small, ends⟩)
    · exact absurd zero null
    have rounded : sctx.newBreak.toNat = roundUp sctx.arg0.toNat :=
      toNat_newBreak (by omega)
    refine ⟨?_, ?_, fun unfit => ?_⟩
    · rintro n ⟨-, ⟨r, hr, label, rfl⟩ | rfl | ⟨-, grows, rfl⟩⟩
      · exact ends r hr label
      · exact small
      · unfold roundUp at rounded
        rw [BitVec.lt_def] at grows
        omega
    · show sctx.arg0 ≤ sctx.newBreak
      unfold roundUp at rounded
      rw [BitVec.le_def]
      omega
    · refine absurd ?_ unfit
      show roundUp sctx.arg0.toNat < 2 ^ 64
      unfold roundUp
      omega

theorem rangeSafe_munmap : RangeSafe vk (.munmap sctx) ↔ (RangeCall.munmap sctx).Fits vk := by
  constructor
  · intro safe
    by_cases null : sctx.arg0 = 0
    · exact .inl null
    by_cases early : sctx.MmapRefused
    · exact .inr (.inl early)
    · exact .inr (.inr (safe.fits _ ⟨null, early, rfl⟩))
  · intro fits
    have small (null : sctx.arg0 ≠ 0) (accepted : ¬ sctx.MmapRefused) :
        sctx.arg1.toNat + 4096 < 2 ^ 64 := by
      rcases fits with zero | early | small
      · exact absurd zero null
      · exact absurd early accepted
      · exact small
    refine ⟨?_, fun null accepted => ?_, fun unfit r vk' ends => ?_⟩
    · rintro n ⟨null, accepted, rfl⟩
      exact small null accepted
    · have rounded := toNat_mapLen (small null accepted)
      unfold roundUp at rounded
      rw [BitVec.le_def]
      omega
    · rcases ends_sysMunmap.1 ends with ⟨rfl, rfl, -⟩ | ⟨null, accepted, uc, ok, -, -⟩
      · exact ⟨⟨_, rfl, by decide⟩, .refl _⟩
      · have small := small null accepted
        have rounded := toNat_mapLen small
        have nonempty : sctx.mapLen ≠ 0 := by
          have positive : sctx.arg1 ≠ 0 := fun zero => accepted (.inl zero)
          unfold roundUp at rounded
          bv_omega
        have bound := (Unicorn.Unmappable.of_memUnmap ok nonempty).mapped.1
        refine absurd ⟨?_, ?_⟩ unfit
        · rw [← rounded]
          exact sctx.mapLen.isLt
        · rw [← rounded]
          exact bound

/-- The rounded range of `mprotect`, where it does not wrap. -/
theorem toNat_protSize (small : sctx.arg0.toNat + sctx.arg1.toNat + 4096 < 2 ^ 64) :
    sctx.protStop.toNat = roundUp (sctx.arg0.toNat + sctx.arg1.toNat) ∧
      sctx.protStart.toNat ≤ sctx.arg0.toNat := by
  rw [SubCtx.protStop, SubCtx.protStart, toNat_alignUp, toNat_satAdd, toNat_alignDown, roundUp]
  omega

theorem rangeSafe_mprotect : RangeSafe vk (.mprotect sctx) ↔ (RangeCall.mprotect sctx).Fits vk := by
  by_cases empty : sctx.arg1 = 0
  · refine iff_of_true ⟨fun n computes => absurd empty computes.1, fun some => absurd empty some,
      fun unfit r vk' ends => ?_⟩ (.inl empty)
    rcases ends_sysMprotect.1 ends with ⟨-, rfl, rfl⟩ | ⟨some, -⟩
    · exact ⟨⟨_, rfl, by decide⟩, .refl _⟩
    · exact absurd empty some
  have accepted_iff (small : sctx.arg0.toNat + sctx.arg1.toNat + 4096 < 2 ^ 64) :
      (∃ uc, vk.uc.memProtect sctx.protStart sctx.protSize sctx.mapProt = .ok uc) ↔
        vk.uc.Unmappable sctx.protStart sctx.protSize := by
    refine Unicorn.memProtect_ok_iff fun zero => ?_
    have size : sctx.protSize.toNat = sctx.protStop.toNat - sctx.protStart.toNat :=
      toNat_satSub ..
    obtain ⟨stop, start⟩ := toNat_protSize small
    unfold roundUp at stop
    bv_omega
  constructor
  · intro safe
    have sum := safe.fits _ ⟨empty, .inl rfl⟩
    rw [toNat_satAdd] at sum
    have small : sctx.arg0.toNat + sctx.arg1.toNat + 4096 < 2 ^ 64 := by omega
    refine .inr ⟨small, ?_⟩
    by_cases accepted : vk.uc.Unmappable sctx.protStart sctx.protSize
    · exact .inr fun r hr => safe.fits _ ⟨empty, .inr ⟨(accepted_iff small).2 accepted, r, hr, rfl⟩⟩
    · exact .inl accepted
  · rintro (zero | ⟨small, ends⟩)
    · exact absurd zero empty
    obtain ⟨stop, start⟩ := toNat_protSize small
    unfold roundUp at stop
    refine ⟨?_, fun _ => ?_, fun unfit => ?_⟩
    · rintro n ⟨-, rfl | ⟨accepted, r, hr, rfl⟩⟩
      · rw [toNat_satAdd]
        omega
      · rcases ends with rejected | ends
        · exact absurd ((accepted_iff small).1 accepted) rejected
        · exact ends r hr
    · rw [BitVec.le_def]
      omega
    · refine absurd ?_ unfit
      show roundUp _ ≤ 2 ^ 64
      unfold roundUp
      omega

/-- A mapping that would end behind `2^64` is refused, and leaves the memory as it was when there is
nothing to clear. -/
theorem refused_of_unrepresentable (laid : Laid vk.mem.regions vk.uc) (accepted : ¬ sctx.MmapRefused)
    (chosen : vk.mem.mmapAddr sctx = some addr)
    (past : 2 ^ 64 < addr.toNat + sctx.mapLen.toNat) :
    (∀ r vk', (sysMmap sctx).Ends vk r vk' ↔
      r = .ok (negErrno ENOMEM) ∧ vk' = vk.cleared sctx addr) ∧
    (Unchanged vk (vk.cleared sctx addr) ↔ (sctx.UseFixed → vk.mem.Clear addr sctx.mapLen)) := by
  have rejected : ¬ (vk.cleared sctx addr).uc.Mappable addr sctx.mapLen :=
    fun range => absurd range.bound (Nat.not_le.2 past)
  constructor
  · intro r vk'
    rw [ends_sysMmap]
    constructor
    · rintro (⟨early, -⟩ | ⟨-, found, search, run⟩)
      · exact absurd early accepted
      · cases chosen.symm.trans search
        rcases ends_mmapAt.1 run with ⟨-, same, kept⟩ | ⟨uc, ok, -⟩
        · exact ⟨same, kept⟩
        · exact absurd (.of_memMap ok) rejected
    · rintro ⟨rfl, rfl⟩
      exact .inr ⟨accepted, addr, chosen, ends_mmapAt.2 (.inl ⟨rejected, rfl, rfl⟩)⟩
  · refine unchanged_cleared_iff laid.paged (VMemory.aligned_mmapAddr accepted chosen) ?_
    rintro (range | ⟨-, range⟩)
    · exact absurd range.bound (Nat.not_le.2 past)
    · exact absurd range.mapped.1 (Nat.not_le.2 past)

/-- A request for nothing is refused before anything is computed. -/
theorem rangeSafe_mmap_empty (empty : sctx.arg1 = 0) : RangeSafe vk (.mmap sctx) := by
  refine ⟨fun n computes => absurd empty computes.1, ?_, fun _ r vk' ends => ?_⟩
  · show sctx.arg1 ≤ _
    rw [empty, BitVec.le_def]
    exact Nat.zero_le _
  · rcases ends_sysMmap.1 ends with ⟨-, rfl, rfl⟩ | ⟨accepted, -⟩
    · exact ⟨⟨_, rfl, by decide⟩, .refl _⟩
    · exact absurd (.inl empty) accepted

theorem mapLen_pos (some_ : sctx.arg1 ≠ 0) (small : sctx.arg1.toNat + 4096 < 2 ^ 64) :
    0 < sctx.mapLen.toNat := by
  have rounded := toNat_mapLen small
  unfold roundUp at rounded
  bv_omega

theorem fits_of_rangeSafe_mmap (laid : Laid vk.mem.regions vk.uc) (some_ : sctx.arg1 ≠ 0)
    (safe : RangeSafe vk (.mmap sctx)) : (RangeCall.mmap sctx).Fits vk := by
  have small : sctx.arg1.toNat + 4096 < 2 ^ 64 := safe.fits _ ⟨some_, .inl rfl⟩
  refine .inr ⟨small, ?_⟩
  by_cases aligned : Aligned sctx.arg0
  swap
  · exact .inl aligned
  right
  split_ifs with searching
  · exact VMemory.searchRoom_of_computes laid.paged fun n computes =>
      safe.fits n ⟨some_, .inr ⟨aligned, searching, computes⟩⟩
  · by_cases bound : sctx.arg0.toNat + sctx.mapLen.toNat ≤ 2 ^ 64
    · exact .inl bound
    have accepted : ¬ sctx.MmapRefused := not_or.2 ⟨some_, not_not.2 aligned⟩
    have chosen : vk.mem.mmapAddr sctx = some sctx.arg0 := if_neg searching
    obtain ⟨run, unchanged⟩ := refused_of_unrepresentable laid accepted chosen (Nat.not_le.1 bound)
    have fixed : sctx.UseFixed := not_not.1 (not_or.1 searching).2
    refine .inr (unchanged.1 (safe.refused (fun fit => bound ?_) _ _ ((run _ _).2 ⟨rfl, rfl⟩)).2
      fixed)
    rw [toNat_mapLen small]
    exact fit.2 _ chosen

/-- A request that cannot be represented is refused, and changes nothing. -/
theorem mmap_refused_of_fits (laid : Laid vk.mem.regions vk.uc) (some_ : sctx.arg1 ≠ 0)
    (fits : (RangeCall.mmap sctx).Fits vk) (unfit : ¬ (RangeCall.mmap sctx).Representable vk)
    {r : Except ValkyrieError U64} (ends : (sysMmap sctx).Ends vk r vk') :
    (RangeCall.mmap sctx).Refuses vk r ∧ Unchanged vk vk' := by
  obtain ⟨small, room⟩ := fits.resolve_left some_
  have rounded := toNat_mapLen small
  by_cases early : sctx.MmapRefused
  · rcases ends_sysMmap.1 ends with ⟨-, rfl, rfl⟩ | ⟨accepted, -⟩
    · exact ⟨⟨_, rfl, by decide⟩, .refl _⟩
    · exact absurd early accepted
  have place : ∃ addr, vk.mem.mmapAddr sctx = some addr ∧
      2 ^ 64 < addr.toNat + sctx.mapLen.toNat := by
    by_contra none
    refine unfit ⟨rounded ▸ sctx.mapLen.isLt, fun addr chosen => ?_⟩
    rw [← rounded]
    exact Nat.not_lt.1 fun past => none ⟨addr, chosen, past⟩
  obtain ⟨addr, chosen, past⟩ := place
  obtain ⟨run, unchanged⟩ := refused_of_unrepresentable laid early chosen past
  obtain ⟨rfl, rfl⟩ := (run _ _).1 ends
  refine ⟨⟨_, rfl, by decide⟩, unchanged.2 fun _ => ?_⟩
  have room := room.resolve_left (not_not.2 (aligned_of_accepted early))
  unfold VMemory.mmapAddr at chosen
  split_ifs at chosen room with searching
  · exact VMemory.clear_of_found laid.paged chosen
  · cases chosen
    exact room.resolve_left (Nat.not_le.2 past)

theorem rangeSafe_mmap (laid : Laid vk.mem.regions vk.uc) :
    RangeSafe vk (.mmap sctx) ↔ (RangeCall.mmap sctx).Fits vk := by
  by_cases empty : sctx.arg1 = 0
  · exact iff_of_true (rangeSafe_mmap_empty empty) (.inl empty)
  refine ⟨fits_of_rangeSafe_mmap laid empty, fun fits => ?_⟩
  refine ⟨?_, ?_, fun unfit r vk' ends => mmap_refused_of_fits laid empty fits unfit ends⟩
  · obtain ⟨small, room⟩ := fits.resolve_left empty
    rintro n ⟨-, rfl | ⟨aligned, searching, computes⟩⟩
    · exact small
    · have room := room.resolve_left (not_not.2 aligned)
      rw [if_pos searching] at room
      exact room.computes laid.paged (mapLen_pos empty small) computes
  · have rounded := toNat_mapLen (fits.resolve_left empty).1
    show sctx.arg1 ≤ sctx.mapLen
    unfold roundUp at rounded
    rw [BitVec.le_def]
    omega

/-- For every reachable memory map, the arithmetic of a call is safe exactly when its arguments and
the map leave room for it. -/
theorem range_arithmetic_exact (laid : Laid vk.mem.regions vk.uc) (c : RangeCall) :
    RangeSafe vk c ↔ c.Fits vk := by
  cases c with
  | brk sctx => exact rangeSafe_brk
  | mmap sctx => exact rangeSafe_mmap laid
  | munmap sctx => exact rangeSafe_munmap
  | mprotect sctx => exact rangeSafe_mprotect

theorem range_arithmetic_exact_onePage :
    RangeSafe onePage (.munmap ⟨0x1000, 0x1000, 0, 0, 0, 0⟩) ↔
      (RangeCall.munmap ⟨0x1000, 0x1000, 0, 0, 0, 0⟩).Fits onePage :=
  range_arithmetic_exact laid_onePage _

/-- `munmap(0x1000, 2^64 - 1)` rounds the length to zero, unmaps nothing and reports success. -/
theorem huge_munmap_reports_success : ¬ ∀ (vk : Valkyrie) (c : RangeCall),
    Laid vk.mem.regions vk.uc → RangeSafe vk c := by
  intro always
  have safe := always onePage (.munmap ⟨0x1000, u64Max, 0, 0, 0, 0⟩) laid_onePage
  have run : ∃ vk', (sysMunmap ⟨0x1000, u64Max, 0, 0, 0, 0⟩).Ends onePage (.ok 0) vk' := ⟨_, rfl⟩
  obtain ⟨vk', run⟩ := run
  obtain ⟨⟨v, same, errno⟩, -⟩ := safe.refused (fun fit => absurd fit.1 (by decide)) _ _ run
  cases same
  exact absurd errno (by decide)

end ValkyrieRs

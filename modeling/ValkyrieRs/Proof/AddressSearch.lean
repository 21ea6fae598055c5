import ValkyrieRs.Proof.MmapRefused

/-!
# The address search of `mmap`

The candidate of `next_mmap_addr` moves to the end of a region in its way.  A region that ends at
`2^64` has its end cut to `u64::MAX` and then rounded up to zero, so the search loses its direction
as soon as it meets such a region.  It does not meet one exactly when there is room below.
-/

namespace ValkyrieRs

variable {mem : VMemory} {len a b addr : U64} {r : VMemRegion}

/-- A list of regions as the engine accepts them. -/
structure VMemory.Accepted (mem : VMemory) : Prop where
  aligned : ∀ r ∈ mem.regions, Aligned r.start ∧ Aligned r.size
  nonempty : ∀ r ∈ mem.regions, r.size ≠ 0
  bound : ∀ r ∈ mem.regions, r.start.toNat + r.size.toNat ≤ 2 ^ 64
  disjoint : Disjoint mem.regions

/-- The start of the search, rounded up without wrapping. -/
def VMemory.mmapStart (mem : VMemory) : ℕ :=
  ((satAdd mem.heapAddrExit 0x10000000).toNat + 4095) / 4096 * 4096

/-- What the search is for: an aligned address behind the start with `len` bytes free. -/
structure VMemory.Suits (mem : VMemory) (len addr : U64) : Prop where
  aligned : Aligned addr
  behind : mem.mmapStart ≤ addr.toNat
  clear : mem.Clear addr len

/-- The start can be rounded up, and below a region that ends at `2^64` there is room. -/
structure VMemory.MmapRoom (mem : VMemory) (len : U64) : Prop where
  start : mem.mmapStart < 2 ^ 64
  below : ∀ r ∈ mem.regions, r.start.toNat + r.size.toNat = 2 ^ 64 →
    ∃ addr, mem.Suits len addr ∧ addr.toNat + len.toNat ≤ r.start.toNat

theorem VMemory.Accepted.paged (accepted : mem.Accepted) : ∀ r ∈ mem.regions, r.Paged := by
  intro r hr
  obtain ⟨start, size⟩ := accepted.aligned r hr
  refine ⟨start, accepted.nonempty r hr, .inl ⟨?_, accepted.bound r hr⟩⟩
  unfold Aligned at start size
  omega

/-! ## Where there is room -/

/-- A clear range lies behind or before a region. -/
theorem VMemory.Clear.cases (clear : mem.Clear addr len) (hr : r ∈ mem.regions)
    (nonempty : r.size ≠ 0) (positive : 0 < len.toNat) :
    r.start.toNat + r.size.toNat ≤ addr.toNat ∨ addr.toNat + len.toNat ≤ r.start.toNat := by
  by_contra meets
  have overlap : r.Meets addr len := by
    unfold VMemRegion.Meets
    omega
  obtain ⟨x, hx, inside⟩ := overlap.exists_mem nonempty (by bv_omega)
  exact clear r hr x hx inside

/-- Without a region that ends at `2^64` there is an address behind all of them. -/
theorem exists_behind {regions : List VMemRegion} {start : ℕ} (aligned : start % 4096 = 0)
    (small : start < 2 ^ 64) (paged : ∀ r ∈ regions, Aligned r.start ∧ Aligned r.size)
    (ends : ∀ r ∈ regions, r.start.toNat + r.size.toNat < 2 ^ 64) :
    ∃ a : U64, Aligned a ∧ start ≤ a.toNat ∧
      ∀ r ∈ regions, r.start.toNat + r.size.toNat ≤ a.toNat := by
  induction regions with
  | nil =>
    have number : (BitVec.ofNat 64 start).toNat = start := by
      rw [BitVec.toNat_ofNat]
      omega
    refine ⟨BitVec.ofNat 64 start, ?_, Nat.le_of_eq number.symm, nofun⟩
    rw [Aligned, number]
    exact aligned
  | cons r regions ih =>
    obtain ⟨a, page, above, rest⟩ := ih (fun s hs => paged s (List.mem_cons_of_mem _ hs))
      fun s hs => ends s (List.mem_cons_of_mem _ hs)
    rcases Nat.le_total (r.start.toNat + r.size.toNat) a.toNat with le | ge
    · refine ⟨a, page, above, fun s hs => ?_⟩
      rcases List.mem_cons.1 hs with rfl | hs
      · exact le
      · exact rest s hs
    · have here := ends r List.mem_cons_self
      obtain ⟨pageStart, pageSize⟩ := paged r List.mem_cons_self
      have number : (r.start + r.size).toNat = r.start.toNat + r.size.toNat := by
        rw [BitVec.toNat_add]
        omega
      refine ⟨r.start + r.size, ?_, by omega, fun s hs => ?_⟩
      · unfold Aligned at *
        omega
      · rcases List.mem_cons.1 hs with rfl | hs
        · exact Nat.le_of_eq number.symm
        · have := rest s hs
          omega

/-- There is room exactly when some address suits. -/
theorem VMemory.Accepted.room_iff (accepted : mem.Accepted) (positive : 0 < len.toNat) :
    mem.MmapRoom len ↔ ∃ addr, mem.Suits len addr := by
  constructor
  · intro room
    by_cases top : ∃ r ∈ mem.regions, r.start.toNat + r.size.toNat = 2 ^ 64
    · obtain ⟨r, hr, reach⟩ := top
      obtain ⟨addr, suits, -⟩ := room.below r hr reach
      exact ⟨addr, suits⟩
    · have ends : ∀ r ∈ mem.regions, r.start.toNat + r.size.toNat < 2 ^ 64 := by
        intro r hr
        have le := accepted.bound r hr
        have ne : r.start.toNat + r.size.toNat ≠ 2 ^ 64 := fun reach => top ⟨r, hr, reach⟩
        omega
      obtain ⟨a, page, above, behind⟩ :=
        exists_behind (Nat.mul_mod_left ..) room.start accepted.aligned ends
      refine ⟨a, page, above, fun r hr x hx inside => ?_⟩
      have := behind r hr
      rw [VMemRegion.mem_iff] at hx
      unfold InRange at inside
      omega
  · rintro ⟨addr, suits⟩
    refine ⟨Nat.lt_of_le_of_lt suits.behind addr.isLt, fun r hr reach => ⟨addr, suits, ?_⟩⟩
    have small := addr.isLt
    rcases suits.clear.cases hr (accepted.nonempty r hr) positive with before | after
    · omega
    · exact after

/-! ## The search -/

/-- A region in the way of a candidate ends behind it, and no address from the candidate up to the
region's end suits. -/
theorem VMemory.Suits.next (suits : mem.Suits len addr) (paged : ∀ r ∈ mem.regions, r.Paged)
    (positive : 0 < len.toNat) (le : a.toNat ≤ addr.toNat)
    (step : nextCandidate mem.regions len a = some b) :
    a.toNat < b.toNat ∧ b.toNat ≤ addr.toNat := by
  obtain ⟨r, found, rfl⟩ := Option.map_eq_some_iff.1 step
  have hr := List.mem_of_find?_eq_some found
  have inWay := List.find?_some found
  simp only [decide_eq_true_eq, gt_iff_lt, BitVec.lt_def, VMemRegion.toNat_satEnd,
    toNat_satAdd] at inWay
  have small := addr.isLt
  have page := suits.aligned
  have start := (paged r hr).start
  have stop := (paged r hr).stop
  unfold Aligned at page start
  rcases suits.clear.cases hr (paged r hr).nonempty positive with before | after
  · rw [toNat_alignUp, VMemRegion.toNat_satEnd]
    omega
  · omega

theorem VMemory.toNat_mmapBase (small : mem.mmapStart < 2 ^ 64) :
    mem.mmapBase.toNat = mem.mmapStart := by
  unfold mmapStart at small ⊢
  rw [mmapBase, toNat_alignUp]
  omega

/-- What the search finds is clear. -/
theorem VMemory.clear_of_found (paged : ∀ r ∈ mem.regions, r.Paged)
    (search : mem.nextMmapAddr len = some addr) : mem.Clear addr len := by
  obtain ⟨page, clear⟩ := nextMmapAddr_spec search
  intro r hr x hx inside
  have apart := clear r hr
  have last := x.isLt
  have start := (paged r hr).start
  have stop := (paged r hr).stop
  rw [VMemRegion.mem_iff] at hx
  simp only [BitVec.le_def, VMemRegion.toNat_satEnd, toNat_satAdd] at apart
  unfold InRange at inside
  unfold Aligned at page start
  omega

/-- A search that counts up from its start ends with an address behind it. -/
theorem VMemory.exists_search {P : U64 → Prop} (paged : ∀ r ∈ mem.regions, r.Paged)
    (small : mem.mmapStart < 2 ^ 64) (first : P mem.mmapBase)
    (up : ∀ a b, P a → nextCandidate mem.regions len a = some b → P b ∧ a.toNat < b.toNat) :
    ∃ found, mem.nextMmapAddr len = some found ∧ mem.Suits len found ∧ P found := by
  have kept : ∀ a b : U64, (mem.mmapStart ≤ a.toNat ∧ P a) →
      nextCandidate mem.regions len a = some b →
      (mem.mmapStart ≤ b.toNat ∧ P b) ∧ 2 ^ 64 - b.toNat < 2 ^ 64 - a.toNat := by
    intro a b holds step
    obtain ⟨next, more⟩ := up a b holds.2 step
    have last := b.isLt
    exact ⟨⟨by omega, next⟩, by omega⟩
  have first : mem.mmapStart ≤ mem.mmapBase.toNat ∧ P mem.mmapBase :=
    ⟨Nat.le_of_eq (toNat_mmapBase small).symm, first⟩
  obtain ⟨fuel, r, ends⟩ := Loop.exists_run_of_decreasing kept first
  cases search : mem.nextMmapAddr len with
  | none =>
    rw [nextMmapAddr_eq_none search fuel] at ends
    cases ends
  | some found =>
    obtain ⟨behind, last⟩ :=
      Loop.run_keeps (fun a b holds step => (kept a b holds step).1) first search
    exact ⟨found, rfl, ⟨(nextMmapAddr_spec search).1, behind, clear_of_found paged search⟩, last⟩

/-- Where an address suits, the search finds one that is no greater. -/
theorem VMemory.Suits.found (suits : mem.Suits len addr) (paged : ∀ r ∈ mem.regions, r.Paged)
    (positive : 0 < len.toNat) :
    ∃ found, mem.nextMmapAddr len = some found ∧ mem.Suits len found ∧
      found.toNat ≤ addr.toNat := by
  have small := Nat.lt_of_le_of_lt suits.behind addr.isLt
  refine exists_search paged small ?_ fun a b below step => ?_
  · rw [toNat_mmapBase small]
    exact suits.behind
  · obtain ⟨up, below⟩ := suits.next paged positive below step
    exact ⟨below, up⟩

/-- The search ends with an address that suits exactly when there is room. -/
theorem search_exact (accepted : mem.Accepted) (positive : 0 < len.toNat) :
    (∃ addr, mem.nextMmapAddr len = some addr ∧ mem.Suits len addr) ↔ mem.MmapRoom len := by
  rw [accepted.room_iff positive]
  constructor
  · rintro ⟨addr, -, suits⟩
    exact ⟨addr, suits⟩
  · rintro ⟨addr, suits⟩
    obtain ⟨found, search, suits, -⟩ := suits.found accepted.paged positive
    exact ⟨found, search, suits⟩

/-- One page of code, and one page at the end of the address space. -/
def lastPageMapped : VMemory :=
  ⟨[⟨0x400000, 0x1000, .all, "[code]"⟩, ⟨0xfffffffffffff000, 0x1000, .all, "[mmap]"⟩],
    0x402000, 0x402000⟩

theorem accepted_lastPageMapped : lastPageMapped.Accepted where
  aligned := by decide
  nonempty := by decide
  bound := by decide
  disjoint := by
    refine .cons (fun s hs x first second => ?_) (List.pairwise_singleton _ _)
    rw [List.mem_singleton.1 hs, VMemRegion.mem_iff] at second
    rw [VMemRegion.mem_iff] at first
    exact absurd (Nat.lt_of_le_of_lt second.1 first.2) (by decide)

theorem search_exact_lastPageMapped :
    (∃ addr, lastPageMapped.nextMmapAddr 0x1000 = some addr ∧ lastPageMapped.Suits 0x1000 addr) ↔
      lastPageMapped.MmapRoom 0x1000 :=
  search_exact accepted_lastPageMapped (by decide)

/-- A length that does not fit below the last page sends the search round for ever. -/
theorem search_never_ends : ¬ ∀ (mem : VMemory) (len : U64), mem.Accepted → 0 < len.toNat →
    Aligned len → ∃ addr, mem.nextMmapAddr len = some addr ∧ mem.Suits len addr := by
  intro ends
  have never : lastPageMapped.nextMmapAddr 0xffffffffffc00000 = none := rfl
  obtain ⟨addr, found, -⟩ := ends lastPageMapped 0xffffffffffc00000 accepted_lastPageMapped
    (by decide) (by decide)
  rw [never] at found
  cases found

end ValkyrieRs

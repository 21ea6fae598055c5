import ValkyrieRs.Proof.RestoreExact

/-!
# Coverage by regions

The two questions that the restore asks about a range and a list of regions in any order:
`subtract_snapshot_coverage` gives the part of the range outside the regions, in order, and
`is_range_mapped` tells whether the regions cover the range.  The ends saturate, which loses the
last address of the address space; a list of pages is covered there exactly when it is covered one
address before.
-/

namespace ValkyrieRs

variable {start size x : U64} {regions : List VMemRegion} {r : VMemRegion}

/-! ## The part of a range outside the regions -/

/-- The pieces are the addresses of the range outside the regions, in order. -/
structure SetDifference (start size : U64) (regions : List VMemRegion)
    (pieces : List (U64 × U64)) : Prop where
  positive : ∀ piece ∈ pieces, 0 < piece.2
  increasing : pieces.Pairwise fun p q => p.1 < q.1
  disjoint : pieces.Pairwise fun p q => ∀ x, InPiece x p → ¬ InPiece x q
  covered : ∀ x, (∃ piece ∈ pieces, InPiece x piece) ↔
    InRange start size.toNat x ∧ ∀ r ∈ regions, x ∉ r

theorem VMemRegion.start_le_satEnd (r : VMemRegion) : r.start ≤ r.satEnd := by
  have stop := toNat_satEnd (r := r)
  have small := r.start.isLt
  rw [BitVec.le_def]
  omega

/-- A region that ends below the end of the address space is its span. -/
theorem VMemRegion.mem_span_iff (ends : r.start.toNat + r.size.toNat ≤ 2 ^ 64 - 1) :
    x ∈ r.span ↔ x ∈ r := by
  rw [mem_span, mem_iff, toNat_satEnd, Nat.min_eq_left ends]

theorem subtract_set_difference (bound : start.toNat + size.toNat ≤ 2 ^ 64 - 1)
    (ends : ∀ r ∈ regions, r.start.toNat + r.size.toNat ≤ 2 ^ 64 - 1) :
    SetDifference start size regions (subtractSnapshotCoverage start size regions) := by
  let range : VMemRegion := ⟨start, size, .all, ""⟩
  have positive : ∀ piece ∈ subtractSnapshotCoverage start size regions, 0 < piece.2 := by
    intro piece hp
    obtain ⟨c, -, lt, rfl⟩ := (mem_subtractSnapshotCoverage (r := range)).1 hp
    have width := toNat_satSub c.hi c.lo
    simp only
    bv_omega
  have ordered : (range.span.subtract (regions.map VMemRegion.span)).Pairwise Segment.Before := by
    refine Segment.ordered_subtract fun c hc => ?_
    obtain ⟨r, -, rfl⟩ := List.mem_map.1 hc
    exact r.start_le_satEnd
  refine ⟨positive, ?_, ?_, fun x => ?_⟩
  · refine pairwise_pieces (r := range) ordered fun c d lt _ before => ?_
    exact lt.trans_le before
  · exact pairwise_subtractSnapshotCoverage (r := range) regions fun r _ => r.start_le_satEnd
  · refine (covered_subtractSnapshotCoverage (r := range)).trans (and_congr ?_ ?_)
    · exact VMemRegion.mem_span_iff bound
    · rw [not_exists]
      refine forall_congr' fun r => ?_
      rw [not_and]
      exact forall_congr' fun hr => not_congr (VMemRegion.mem_span_iff (ends r hr))

/-- Regions out of order, two of which overlap and one of which is empty. -/
def scattered : List VMemRegion :=
  [⟨0x5000, 0x1000, .all, "d"⟩, ⟨0x2000, 0x1000, .all, "b"⟩, ⟨0x2800, 0x1000, .all, "c"⟩,
    ⟨0x1800, 0, .all, "a"⟩]

theorem subtract_set_difference_scattered :
    SetDifference 0x1000 0x5000 scattered (subtractSnapshotCoverage 0x1000 0x5000 scattered) :=
  subtract_set_difference (by decide) (by decide)

example : subtractSnapshotCoverage 0x1000 0x5000 scattered =
    [(0x1000, 0x800), (0x1800, 0x800), (0x3800, 0x1800)] := by decide

/-! ## Whether a range is covered -/

/-- A region made of pages holds an address when it holds the start of its page. -/
theorem VMemRegion.mem_of_pageBase (aligned : Aligned r.start ∧ Aligned r.size)
    (h : pageBase x ∈ r) : x ∈ r := by
  obtain ⟨first, pages⟩ := aligned
  unfold Aligned at first pages
  rw [mem_iff, toNat_pageBase] at h
  rw [mem_iff]
  omega

theorem lt_satAdd_of_pages (first : Aligned start) (pages : Aligned size) (nonempty : size ≠ 0) :
    start < satAdd start size := by
  have stop := toNat_satAdd start size
  have small := start.isLt
  have some_ : 0 < size.toNat := by bv_omega
  unfold Aligned at first pages
  rw [BitVec.lt_def]
  omega

/-- The test answers whether every address of the range lies in some region. -/
theorem range_mapped_iff (aligned : ∀ r ∈ regions, Aligned r.start ∧ Aligned r.size)
    (first : Aligned start) (pages : Aligned size) (nonempty : size ≠ 0) :
    isRangeMapped regions start size ↔ ∀ x, InRange start size.toNat x → ∃ r ∈ regions, x ∈ r := by
  rw [isRangeMapped_iff (lt_satAdd_of_pages first pages nonempty)]
  have stop := toNat_satAdd start size
  constructor
  · intro covered x inside
    -- the page of the address starts below the saturated end, also in the last page
    have within : start ≤ pageBase x ∧ pageBase x < satAdd start size := by
      have small := x.isLt
      unfold Aligned at first pages
      unfold InRange at inside
      simp only [BitVec.le_def, BitVec.lt_def, toNat_pageBase]
      omega
    obtain ⟨r, hr, base⟩ := covered (pageBase x) within.1 within.2
    exact ⟨r, hr, VMemRegion.mem_of_pageBase (aligned r hr) (VMemRegion.mem_of_mem_span base)⟩
  · intro covered x low high
    rw [BitVec.le_def] at low
    rw [BitVec.lt_def] at high
    obtain ⟨r, hr, inside⟩ := covered x ⟨low, by omega⟩
    refine ⟨r, hr, ?_⟩
    rw [VMemRegion.mem_iff] at inside
    rw [VMemRegion.mem_span, VMemRegion.toNat_satEnd]
    omega

/-- Two adjacent regions, the upper one first, and a third that overlaps both. -/
def adjacent : List VMemRegion :=
  [⟨0xfffffffffffff000, 0x1000, .all, "b"⟩, ⟨0xffffffffffffd000, 0x2000, .all, "a"⟩,
    ⟨0xffffffffffffe000, 0x2000, .all, "c"⟩]

theorem range_mapped_iff_adjacent :
    isRangeMapped adjacent 0xffffffffffffd000 0x3000 ↔
      ∀ x, InRange 0xffffffffffffd000 (0x3000 : U64).toNat x → ∃ r ∈ adjacent, x ∈ r :=
  range_mapped_iff (by decide) (by decide) (by decide) (by decide)

end ValkyrieRs

import ValkyrieRs.Proof.Restore

/-!
# When the restore gives back the layout

From any state that a run of the memory calls reaches, the restore gives back the snapshot layout
exactly when the region list still covers every mapped page, each snapshot region is mapped
entirely or not at all, and the last page of the address space is not mapped outside the snapshot.
The pieces to unmap are then page ranges of mapped pages, and every snapshot region can be mapped
again or re-protected as a whole.
-/

namespace ValkyrieRs

open Proc

variable {vk vk' : Valkyrie} {uc : Unicorn} {x : U64} {regions snapshot : List VMemRegion}
  {r s : VMemRegion} {piece : U64 × U64}

/-! ## Pages of a region -/

theorem VMemRegion.Paged.mem_span_of_pageBase (h : r.Paged) (hx : pageBase x ∈ r)
    (top : x ≠ u64Max) : x ∈ r.span := by
  obtain ⟨start, nonempty, stop⟩ := h
  have last := x.isLt
  have top : x.toNat ≠ 2 ^ 64 - 1 := by
    intro h
    exact top (BitVec.eq_of_toNat_eq (h.trans toNat_u64Max.symm))
  unfold Aligned at start
  rw [mem_iff, toNat_pageBase] at hx
  rw [mem_span, toNat_satEnd]
  omega

theorem VMemRegion.Paged.lt_satEnd (h : r.Paged) : r.start < r.satEnd := by
  obtain ⟨start, nonempty, stop⟩ := h
  have last := toNat_satEnd (r := r)
  unfold Aligned at start
  bv_omega

theorem VMemRegion.Paged.satEnd (h : r.Paged) : Aligned r.satEnd ∨ r.satEnd = u64Max := by
  obtain ⟨start, nonempty, stop⟩ := h
  have last := toNat_satEnd (r := r)
  have max := toNat_u64Max
  unfold Aligned at start ⊢
  by_cases top : r.satEnd.toNat = 2 ^ 64 - 1
  · exact .inr (BitVec.eq_of_toNat_eq (top.trans max.symm))
  · exact .inl (by omega)

/-- The last address that lies below every saturated end it can lie below. -/
def lastAddr : U64 := u64Max - 1

theorem toNat_lastAddr : lastAddr.toNat = 2 ^ 64 - 2 := rfl

theorem pageBase_lastAddr : pageBase lastAddr = pageBase u64Max := rfl

theorem VMemRegion.Paged.lastAddr_mem_span (h : r.Paged) :
    lastAddr ∈ r.span ↔ pageBase u64Max ∈ r := by
  constructor
  · intro hx
    obtain ⟨start, -, -⟩ := h
    have hx' := mem_of_mem_span hx
    unfold Aligned at start
    rw [mem_iff, toNat_lastAddr] at hx'
    rw [mem_iff, toNat_pageBase, toNat_u64Max]
    omega
  · rw [← pageBase_lastAddr]
    exact fun hx => h.mem_span_of_pageBase hx (by decide)

/-! ## The pieces -/

/-- Every piece starts at a page and ends at a page or at the saturated end, and is not empty. -/
theorem aligned_of_mem_strayPieces (paged : ∀ r ∈ regions, r.Paged)
    (paged' : ∀ s ∈ snapshot, s.Paged) (hp : piece ∈ strayPieces regions snapshot) :
    Aligned piece.1 ∧ piece.2 ≠ 0 ∧ piece.1.toNat + piece.2.toNat < 2 ^ 64 ∧
      ((piece.1.toNat + piece.2.toNat) % 4096 = 0 ∨
        piece.1.toNat + piece.2.toNat = 2 ^ 64 - 1) := by
  obtain ⟨r, hr, hp⟩ := List.mem_flatMap.1 hp
  obtain ⟨c, hc, lt, rfl⟩ := mem_subtractSnapshotCoverage.1 hp
  have rounded : (Aligned c.lo ∨ c.lo = u64Max) ∧ (Aligned c.hi ∨ c.hi = u64Max) := by
    refine Segment.forall_subtract (P := fun c : Segment U64 Unit =>
      (Aligned c.lo ∨ c.lo = u64Max) ∧ (Aligned c.hi ∨ c.hi = u64Max)) ?_ ?_ c hc
    · rintro _ listed c ⟨lo, hi⟩ p hp
      obtain ⟨s, hs, rfl⟩ := List.mem_map.1 listed
      obtain ⟨lo' | lo', hi' | hi'⟩ := Segment.ends_of_mem_cut hp <;> rw [lo', hi']
      · exact ⟨lo, hi⟩
      · exact ⟨lo, .inl (paged' s hs).start⟩
      · exact ⟨(paged' s hs).satEnd, hi⟩
      · exact ⟨(paged' s hs).satEnd, .inl (paged' s hs).start⟩
    · exact ⟨.inl (paged r hr).start, (paged r hr).satEnd⟩
  have size := toNat_satSub c.hi c.lo
  have max := toNat_u64Max
  have hlo := c.lo.isLt
  have hhi := c.hi.isLt
  have lt : c.lo.toNat < c.hi.toNat := lt
  obtain ⟨lo | lo, hi⟩ := rounded
  · refine ⟨lo, by bv_omega, by simp only; omega, ?_⟩
    simp only
    rcases hi with hi | hi
    · unfold Aligned at hi
      omega
    · rw [hi] at size ⊢
      omega
  · rw [lo] at lt
    omega

theorem pairwise_subtractSnapshotCoverage (l : List VMemRegion)
    (ordered : ∀ s ∈ l, s.start ≤ s.satEnd) :
    (subtractSnapshotCoverage r.start r.size l).Pairwise
      fun p q => ∀ x, InPiece x p → ¬ InPiece x q := by
  have apart : (r.span.subtract (l.map VMemRegion.span)).Pairwise Segment.Apart := by
    refine Segment.pairwise_subtract fun _ hc => ?_
    obtain ⟨s, hs, rfl⟩ := List.mem_map.1 hc
    exact ordered s hs
  refine pairwise_pieces apart fun c d lt lt' apart x hx hx' => ?_
  exact apart x ((inRange_piece lt).1 hx) ((inRange_piece lt').1 hx')

theorem pairwise_strayPieces (disjoint : Disjoint regions) (paged : ∀ s ∈ snapshot, s.Paged) :
    (strayPieces regions snapshot).Pairwise fun p q => ∀ x, InPiece x p → ¬ InPiece x q := by
  refine List.pairwise_flatMap.2 ⟨fun r _ => ?_, disjoint.imp fun {r s} apart => ?_⟩
  · exact pairwise_subtractSnapshotCoverage _ fun s hs => (paged s hs).lt_satEnd.le
  · intro p hp q hq x hx hx'
    have hr := (covered_subtractSnapshotCoverage.1 ⟨p, hp, hx⟩).1
    have hs := (covered_subtractSnapshotCoverage.1 ⟨q, hq, hx'⟩).1
    exact apart x (VMemRegion.mem_of_mem_span hr) (VMemRegion.mem_of_mem_span hs)

/-! ## The outcome of a restore -/

/-- A region whose call the engine accepts is made of pages. -/
theorem VMemRegion.Ready.paged (h : s.Ready regions uc) : s.Paged := by
  unfold Ready at h
  split_ifs at h
  · obtain ⟨size_ne, addr_aligned, size_aligned, bound, -⟩ := h
    exact ⟨addr_aligned, size_ne, .inl ⟨by omega, bound⟩⟩
  · obtain ⟨size_ne, addr_aligned, size_aligned, bound, -⟩ := h
    exact ⟨addr_aligned, size_ne, .inl ⟨by omega, bound⟩⟩

/-- A page of a snapshot region is in no piece. -/
theorem Dropped.protAt_eq (h : Dropped (strayPieces regions snapshot) vk vk') (hs : s ∈ snapshot)
    (paged : s.Paged) (hx : x ∈ s) : vk'.uc.protAt x = vk.uc.protAt x := by
  have outside : ¬ ∃ piece ∈ strayPieces regions snapshot, InPiece (pageBase x) piece := by
    rw [covered_strayPieces]
    exact fun h => h.2 ⟨s, hs, paged.pageBase_mem_span hx⟩
  have kept := h.prots (pageBase x)
  rw [if_neg outside, Unicorn.protAt_pageBase, Unicorn.protAt_pageBase] at kept
  exact kept

/-- The coverage test of a snapshot region gives the same answer after the pieces are gone. -/
theorem Dropped.isRangeMapped_eq (h : Dropped (strayPieces vk.mem.regions snapshot) vk vk')
    (hs : s ∈ snapshot) (paged : s.Paged) :
    isRangeMapped vk'.mem.regions s.start s.size = isRangeMapped vk.mem.regions s.start s.size := by
  rw [Bool.eq_iff_iff, isRangeMapped_iff paged.lt_satEnd, isRangeMapped_iff paged.lt_satEnd]
  refine forall₃_congr fun x lo hi => ?_
  rw [h.covered x]
  have outside : ¬ ∃ piece ∈ strayPieces vk.mem.regions snapshot,
      piece.1 ≤ x ∧ x < satAdd piece.1 piece.2 := by
    rintro ⟨piece, hp, ge, lt⟩
    have stop := toNat_satAdd piece.1 piece.2
    have inside : InPiece x piece := by
      unfold InPiece InRange
      bv_omega
    exact (covered_strayPieces.1 ⟨piece, hp, inside⟩).2 ⟨s, hs, lo, hi⟩
  simp only [outside, not_false_eq_true, and_true]

theorem Dropped.ready_iff (h : Dropped (strayPieces vk.mem.regions snapshot) vk vk')
    (hs : s ∈ snapshot) (paged : s.Paged) :
    s.Ready vk'.mem.regions vk'.uc ↔ s.Ready vk.mem.regions vk.uc := by
  have same (uc : Unicorn) : s.Ready vk'.mem.regions uc ↔ s.Ready vk.mem.regions uc := by
    unfold VMemRegion.Ready
    rw [h.isRangeMapped_eq hs paged]
  rw [same]
  exact ⟨.congr fun x hx => h.protAt_eq hs paged hx,
    .congr fun x hx => (h.protAt_eq hs paged hx).symm⟩

/-- What a successful restore found and what it leaves behind. -/
structure LayoutRestored (snapshot : List VMemRegion) (vk vk' : Valkyrie) : Prop where
  ready : ∀ s ∈ snapshot, s.Ready vk.mem.regions vk.uc
  pieces : ∀ piece ∈ strayPieces vk.mem.regions snapshot, piece.2 ≠ 0 → Aligned piece.2
  inside : ∀ s ∈ snapshot, ∀ x ∈ s, vk'.uc.protAt x = some s.prot ∧
    vk'.uc.bytes x = (vk.uc.readAt x).getD 0
  outside : ∀ x, (∀ s ∈ snapshot, x ∉ s) → vk'.uc.protAt x =
    if ∃ piece ∈ strayPieces vk.mem.regions snapshot, InPiece x piece then none
    else vk.uc.protAt x
  frame : vk' = vk.withMem { vk.mem with regions := snapshot } vk'.uc

theorem layoutRestored_of_ends (nonempty : ∀ s ∈ snapshot, s.size ≠ 0)
    (disjoint : Disjoint snapshot) (run : (restoreMemoryLayout snapshot).Ends vk (.ok ()) vk') :
    LayoutRestored snapshot vk vk' := by
  obtain ⟨vk₁, vk₂, first, second, rfl⟩ := ends_restoreMemoryLayout_ok.1 run
  have dropped := dropped_of_ends first
  have brought := brought_of_ends nonempty disjoint second
  have paged (s : VMemRegion) (hs : s ∈ snapshot) := (brought.ready s hs).paged
  refine ⟨?_, ?_, ?_, ?_, ?_⟩
  · exact fun s hs => (dropped.ready_iff hs (paged s hs)).1 (brought.ready s hs)
  · exact fun piece hp hs => (aligned_of_ends first hp hs).2
  · intro s hs x hx
    obtain ⟨prot, byte⟩ := brought.inside s hs x hx
    refine ⟨prot, byte.trans ?_⟩
    rw [Unicorn.readAt, dropped.protAt_eq hs (paged s hs) hx, dropped.bytes]
    rfl
  · intro x hx
    exact (brought.outside x hx).1.trans (dropped.prots x)
  · rw [brought.frame, dropped.frame]
    rfl

theorem exists_ends_restoreMemoryLayout (laid : Laid vk.mem.regions vk.uc)
    (disjoint : Disjoint snapshot) (ready : ∀ s ∈ snapshot, s.Ready vk.mem.regions vk.uc)
    (pieces : ∀ piece ∈ strayPieces vk.mem.regions snapshot, Aligned piece.2) :
    ∃ vk', (restoreMemoryLayout snapshot).Ends vk (.ok ()) vk' := by
  have paged (s : VMemRegion) (hs : s ∈ snapshot) := (ready s hs).paged
  have accepted : ∀ piece ∈ strayPieces vk.mem.regions snapshot,
      vk.uc.Unmappable piece.1 piece.2 := by
    intro piece hp
    obtain ⟨aligned, nonempty, bound, -⟩ := aligned_of_mem_strayPieces laid.paged paged hp
    refine ⟨nonempty, aligned, pieces piece hp, bound.le, fun x hx => ?_⟩
    obtain ⟨⟨r, hr, hx⟩, -⟩ := covered_strayPieces.1 ⟨piece, hp, hx⟩
    exact laid.mapped r hr x (VMemRegion.mem_of_mem_span hx)
  obtain ⟨vk₁, first⟩ := exists_ends_dropPieces accepted (pairwise_strayPieces laid.disjoint paged)
  have dropped := dropped_of_ends first
  obtain ⟨vk₂, second⟩ := exists_ends_bringBack (fun s hs => (paged s hs).nonempty) disjoint
    fun s hs => (dropped.ready_iff hs (paged s hs)).2 (ready s hs)
  exact ⟨_, ends_restoreMemoryLayout_ok.2 ⟨vk₁, vk₂, first, second, rfl⟩⟩

/-! ## The exact condition -/

/-- A captured layout: page-aligned, disjoint regions, each mapped with its protection. -/
structure Captured (snapshot : List VMemRegion) (uc : Unicorn) : Prop where
  aligned : ∀ s ∈ snapshot, Aligned s.start ∧ Aligned s.size
  nonempty : ∀ s ∈ snapshot, s.size ≠ 0
  bound : ∀ s ∈ snapshot, s.start.toNat + s.size.toNat ≤ 2 ^ 64
  disjoint : Disjoint snapshot
  mapped : ∀ s ∈ snapshot, ∀ x ∈ s, uc.protAt x = some s.prot

/-- The layout is back: the listed regions are those of the snapshot, and exactly their pages are
mapped, with their protections. -/
structure Restored (snapshot : List VMemRegion) (vk : Valkyrie) : Prop where
  regions : vk.mem.regions = snapshot
  inside : ∀ s ∈ snapshot, ∀ x ∈ s, vk.uc.protAt x = some s.prot
  outside : ∀ x, (∀ s ∈ snapshot, x ∉ s) → vk.uc.protAt x = none

/-- Every mapped page is listed, each snapshot region is mapped entirely or not at all, and the
last page of the address space is unmapped or in the snapshot. -/
structure Restorable (snapshot : List VMemRegion) (vk : Valkyrie) : Prop where
  listed : ∀ x, (vk.uc.protAt x).isSome → ∃ r ∈ vk.mem.regions, pageBase x ∈ r
  whole : ∀ s ∈ snapshot, (∀ x ∈ s, (vk.uc.protAt x).isSome) ∨ ∀ x ∈ s, vk.uc.protAt x = none
  top : (vk.uc.protAt u64Max).isSome → ∃ s ∈ snapshot, u64Max ∈ s

theorem Captured.paged (h : Captured snapshot uc) (hs : s ∈ snapshot) : s.Paged := by
  obtain ⟨start, size⟩ := h.aligned s hs
  unfold Aligned at start size
  exact ⟨start, h.nonempty s hs, .inl ⟨by omega, h.bound s hs⟩⟩

theorem Captured.laid (h : Captured snapshot uc) : Laid snapshot uc :=
  ⟨fun _ => h.paged, h.disjoint, fun r hr x hx => by rw [h.mapped r hr x hx]; rfl⟩

/-- A snapshot region contains an address when it contains its page. -/
theorem Captured.pageBase_mem_iff (h : Captured snapshot uc) (hs : s ∈ snapshot) :
    pageBase x ∈ s ↔ x ∈ s :=
  VMemRegion.pageBase_mem_iff (h.aligned s hs).1 (h.aligned s hs).2

/-- Where the coverage test succeeds, the whole region is mapped. -/
theorem Laid.mapped_of_test (h : Laid regions uc) (paged : s.Paged)
    (test : isRangeMapped regions s.start s.size) (hx : x ∈ s) : (uc.protAt x).isSome := by
  obtain ⟨lo, hi⟩ := paged.pageBase_mem_span hx
  obtain ⟨r, hr, covered⟩ := (isRangeMapped_iff paged.lt_satEnd).1 test _ lo hi
  rw [← Unicorn.protAt_pageBase]
  exact h.mapped r hr _ (VMemRegion.mem_of_mem_span covered)

/-- Every piece is a range of pages exactly when the last page of the address space is not listed
outside the snapshot. -/
theorem aligned_pieces_iff (paged : ∀ r ∈ regions, r.Paged) (paged' : ∀ s ∈ snapshot, s.Paged) :
    (∀ piece ∈ strayPieces regions snapshot, Aligned piece.2) ↔
      ((∃ r ∈ regions, pageBase u64Max ∈ r) → ∃ s ∈ snapshot, pageBase u64Max ∈ s) := by
  constructor
  · rintro aligned ⟨r, hr, hx⟩
    by_contra missing
    have stray : ∃ piece ∈ strayPieces regions snapshot, InPiece lastAddr piece := by
      refine covered_strayPieces.2 ⟨⟨r, hr, (paged r hr).lastAddr_mem_span.2 hx⟩, ?_⟩
      rintro ⟨s, hs, inside⟩
      exact missing ⟨s, hs, (paged' s hs).lastAddr_mem_span.1 inside⟩
    obtain ⟨piece, hp, inside⟩ := stray
    obtain ⟨start, -, bound, stop⟩ := aligned_of_mem_strayPieces paged paged' hp
    have size := aligned piece hp
    unfold InPiece InRange at inside
    rw [toNat_lastAddr] at inside
    unfold Aligned at start size
    omega
  · intro top piece hp
    obtain ⟨start, nonempty, bound, stop⟩ := aligned_of_mem_strayPieces paged paged' hp
    unfold Aligned at start ⊢
    rcases stop with stop | stop
    · omega
    have inside : InPiece lastAddr piece := by
      unfold InPiece InRange
      rw [toNat_lastAddr]
      have : piece.2.toNat ≠ 0 := by bv_omega
      omega
    obtain ⟨⟨r, hr, covered⟩, out⟩ := covered_strayPieces.1 ⟨piece, hp, inside⟩
    obtain ⟨s, hs, hx⟩ := top ⟨r, hr, (paged r hr).lastAddr_mem_span.1 covered⟩
    exact absurd ⟨s, hs, (paged' s hs).lastAddr_mem_span.2 hx⟩ out

/-- In a state whose mapped pages are all listed, the coverage test answers whether a region that
is mapped as a whole or not at all is mapped. -/
theorem Restorable.ready (h : Restorable snapshot vk) (laid : Laid vk.mem.regions vk.uc)
    {uc₀ : Unicorn} (captured : Captured snapshot uc₀) (hs : s ∈ snapshot) :
    s.Ready vk.mem.regions vk.uc := by
  have paged := captured.paged hs
  obtain ⟨start, size⟩ := captured.aligned s hs
  have bound := captured.bound s hs
  unfold VMemRegion.Ready
  split_ifs with test
  · refine ⟨paged.nonempty, start, size, bound, ?_⟩
    refine (h.whole s hs).resolve_left fun mapped => ?_
    have covered : isRangeMapped vk.mem.regions s.start s.size := by
      refine (isRangeMapped_iff paged.lt_satEnd).2 fun x lo hi => ?_
      have hx : x ∈ s := VMemRegion.mem_of_mem_span ⟨lo, hi⟩
      obtain ⟨r, hr, inside⟩ := h.listed x (mapped x hx)
      refine ⟨r, hr, (laid.paged r hr).mem_span_of_pageBase inside ?_⟩
      rintro rfl
      have last : s.satEnd.toNat ≤ 2 ^ 64 - 1 := by simp
      have lt : u64Max.toNat < s.satEnd.toNat := hi
      rw [toNat_u64Max] at lt
      omega
    rw [covered] at test
    cases test
  · exact ⟨paged.nonempty, start, size, bound, fun x =>
      laid.mapped_of_test paged (Bool.not_eq_false _ ▸ test)⟩

/-- A successful restore lists every mapped page: a page of the snapshot was re-protected, so the
coverage test succeeded, and any other page is gone, so a piece held it. -/
theorem listed_of_restored {uc₀ : Unicorn} (captured : Captured snapshot uc₀)
    (restored : LayoutRestored snapshot vk vk')
    (exact : ∀ x, (∀ s ∈ snapshot, x ∉ s) → vk'.uc.protAt x = none)
    (mapped : (vk.uc.protAt x).isSome) : ∃ r ∈ vk.mem.regions, pageBase x ∈ r := by
  rw [← Unicorn.protAt_pageBase] at mapped
  by_cases snap : ∃ s ∈ snapshot, pageBase x ∈ s
  · obtain ⟨s, hs, hx⟩ := snap
    have paged := captured.paged hs
    have call := restored.ready s hs
    unfold VMemRegion.Ready at call
    split_ifs at call with test
    · rw [call.free _ hx] at mapped
      cases mapped
    · obtain ⟨lo, hi⟩ := paged.pageBase_mem_span hx
      rw [pageBase_pageBase] at lo hi
      obtain ⟨r, hr, covered⟩ := (isRangeMapped_iff paged.lt_satEnd).1
        (Bool.not_eq_false _ ▸ test) _ lo hi
      exact ⟨r, hr, VMemRegion.mem_of_mem_span covered⟩
  · have snap : ∀ s ∈ snapshot, pageBase x ∉ s := by simpa using snap
    have gone := restored.outside _ snap
    rw [exact _ snap] at gone
    split_ifs at gone with stray
    · obtain ⟨⟨r, hr, covered⟩, -⟩ := covered_strayPieces.1 stray
      exact ⟨r, hr, VMemRegion.mem_of_mem_span covered⟩
    · rw [← gone] at mapped
      cases mapped

theorem restorable_of_restored {uc₀ : Unicorn} (laid : Laid vk.mem.regions vk.uc)
    (captured : Captured snapshot uc₀) (restored : LayoutRestored snapshot vk vk')
    (exact : ∀ x, (∀ s ∈ snapshot, x ∉ s) → vk'.uc.protAt x = none) : Restorable snapshot vk := by
  refine ⟨fun x => listed_of_restored captured restored exact, fun s hs => ?_, fun mapped => ?_⟩
  · have call := restored.ready s hs
    unfold VMemRegion.Ready at call
    split_ifs at call
    · exact .inr call.free
    · exact .inl call.mapped.2
  · have paged (s : VMemRegion) (hs : s ∈ snapshot) := captured.paged hs
    have aligned : ∀ piece ∈ strayPieces vk.mem.regions snapshot, Aligned piece.2 := by
      intro piece hp
      exact restored.pieces piece hp (aligned_of_mem_strayPieces laid.paged paged hp).2.1
    obtain ⟨s, hs, hx⟩ := (aligned_pieces_iff laid.paged paged).1 aligned
      (listed_of_restored captured restored exact mapped)
    exact ⟨s, hs, (captured.pageBase_mem_iff hs).1 hx⟩

/-- From a restorable state nothing is mapped outside the snapshot after the restore. -/
theorem LayoutRestored.outside_of_restorable {uc₀ : Unicorn} (laid : Laid vk.mem.regions vk.uc)
    (captured : Captured snapshot uc₀) (restorable : Restorable snapshot vk)
    (restored : LayoutRestored snapshot vk vk') (hx : ∀ s ∈ snapshot, x ∉ s) :
    vk'.uc.protAt x = none := by
  have page : ∀ s ∈ snapshot, pageBase x ∉ s :=
    fun s hs inside => hx s hs ((captured.pageBase_mem_iff hs).1 inside)
  rw [← Unicorn.protAt_pageBase, restored.outside _ page]
  split_ifs with stray
  · rfl
  by_contra mapped
  rw [← ne_eq, Option.ne_none_iff_isSome, Unicorn.protAt_pageBase] at mapped
  obtain ⟨r, hr, inside⟩ := restorable.listed x mapped
  have covered := (laid.paged r hr).pageBase_mem_span inside
  rw [pageBase_pageBase] at covered
  refine stray (covered_strayPieces.2 ⟨⟨r, hr, covered⟩, ?_⟩)
  rintro ⟨s, hs, inside⟩
  exact page s hs (VMemRegion.mem_of_mem_span inside)

theorem restored_of_restorable {uc₀ : Unicorn} (laid : Laid vk.mem.regions vk.uc)
    (captured : Captured snapshot uc₀) (restorable : Restorable snapshot vk) :
    ∃ vk', (restoreMemoryLayout snapshot).Ends vk (.ok ()) vk' ∧ Restored snapshot vk' := by
  have ready (s : VMemRegion) (hs : s ∈ snapshot) := restorable.ready laid captured hs
  have aligned : ∀ piece ∈ strayPieces vk.mem.regions snapshot, Aligned piece.2 := by
    refine (aligned_pieces_iff laid.paged fun s hs => captured.paged hs).2 ?_
    rintro ⟨r, hr, hx⟩
    have mapped := laid.mapped r hr _ hx
    rw [Unicorn.protAt_pageBase] at mapped
    obtain ⟨s, hs, hx⟩ := restorable.top mapped
    exact ⟨s, hs, (captured.pageBase_mem_iff hs).2 hx⟩
  obtain ⟨vk', ends⟩ := exists_ends_restoreMemoryLayout laid captured.disjoint ready aligned
  have restored := layoutRestored_of_ends captured.nonempty captured.disjoint ends
  refine ⟨vk', ends, ?_, fun s hs x hx => (restored.inside s hs x hx).1, fun x => ?_⟩
  · rw [restored.frame]
    rfl
  · exact restored.outside_of_restorable laid captured restorable

/-! ## A region unmapped in part -/

theorem Captured.ofRegions (aligned : ∀ r ∈ regions, Aligned r.start ∧ Aligned r.size)
    (nonempty : ∀ r ∈ regions, r.size ≠ 0)
    (bound : ∀ r ∈ regions, r.start.toNat + r.size.toNat ≤ 2 ^ 64) (disjoint : Disjoint regions) :
    Captured regions (Unicorn.ofRegions regions) :=
  ⟨aligned, nonempty, bound, disjoint, fun _ hs _ => Unicorn.protAt_ofRegions aligned disjoint hs⟩

theorem captured_twoPages : Captured twoPages.mem.regions twoPages.uc :=
  .ofRegions (by decide) (by decide) (by decide) (List.pairwise_singleton _ _)

/-- The handler answers with no error number. -/
def SucceedsTo (handler : VkM U64) (vk vk' : Valkyrie) : Prop :=
  ∃ v, handler.Ends vk (.ok v) vk' ∧ ¬ IsNegErrno v

/-- A system call that succeeds leads from one state to the other. -/
def MemCall.Succeeds (vk vk' : Valkyrie) : MemCall → Prop
  | mmap sctx => SucceedsTo (sysMmap sctx) vk vk'
  | munmap sctx => SucceedsTo (sysMunmap sctx) vk vk'
  | mprotect sctx => SucceedsTo (sysMprotect sctx) vk vk'
  | brk sctx => SucceedsTo (sysBrk sctx) vk vk'
  | _ => False

/-- After unmapping the first of the two pages, the restore fails: it maps the whole region again,
over the page that is left. -/
theorem restore_fails_after_munmap : ¬ ∀ vk₀ vk : Valkyrie, Captured vk₀.mem.regions vk₀.uc →
    Relation.ReflTransGen (fun vk vk' => ∃ c : MemCall, c.Succeeds vk vk') vk₀ vk →
      ∃ vk', (restoreMemoryLayout vk₀.mem.regions).Ends vk (.ok ()) vk' ∧
        Restored vk₀.mem.regions vk' := by
  intro total
  have does : ∃ vk, (sysMunmap ⟨0x1000, 0x1000, 0, 0, 0, 0⟩).Ends twoPages (.ok 0) vk ∧
      ∃ vk', (restoreMemoryLayout twoPages.mem.regions).Ends vk
        (.error (.unicornGeneralError "mem_map failed")) vk' := ⟨_, rfl, _, rfl⟩
  obtain ⟨vk, munmap, vk₁, fails⟩ := does
  have succeeds : (MemCall.munmap ⟨0x1000, 0x1000, 0, 0, 0, 0⟩).Succeeds twoPages vk :=
    ⟨0, munmap, by decide⟩
  obtain ⟨vk', ends, -⟩ := total twoPages vk captured_twoPages (.single ⟨_, succeeds⟩)
  cases (ends.unique fails).1

/-- After any run of the memory calls, restoring a captured layout succeeds and gives it back
exactly when the state before the restore is restorable. -/
theorem restoreMemoryLayout_exact_iff {vk₀ : Valkyrie} (captured : Captured vk₀.mem.regions vk₀.uc)
    (run : MemRun vk₀ vk) :
    (∃ vk', (restoreMemoryLayout vk₀.mem.regions).Ends vk (.ok ()) vk' ∧
      Restored vk₀.mem.regions vk') ↔ Restorable vk₀.mem.regions vk := by
  have laid := captured.laid.run run
  constructor
  · rintro ⟨vk', ends, -, -, exact⟩
    exact restorable_of_restored laid captured
      (layoutRestored_of_ends captured.nonempty captured.disjoint ends) exact
  · exact restored_of_restorable laid captured

/-- Unmapping both pages leaves a restorable state. -/
theorem restoreMemoryLayout_exact_iff_munmap : ∃ vk : Valkyrie, vk.mem.regions = [] ∧
    ((∃ vk', (restoreMemoryLayout twoPages.mem.regions).Ends vk (.ok ()) vk' ∧
      Restored twoPages.mem.regions vk') ↔ Restorable twoPages.mem.regions vk) := by
  have does : ∃ vk, (MemCall.munmap ⟨0x1000, 0x2000, 0, 0, 0, 0⟩).Does twoPages vk ∧
      vk.mem.regions = [] := ⟨_, ⟨_, rfl⟩, rfl⟩
  obtain ⟨vk, munmap, gone⟩ := does
  exact ⟨vk, gone, restoreMemoryLayout_exact_iff captured_twoPages (.single ⟨_, munmap⟩)⟩

end ValkyrieRs

import ValkyrieRs.Fuzzing
import ValkyrieRs.Proof.Mirror

/-!
# Restoring the layout of a snapshot

What every run of the memory calls keeps of the region list, refused calls included: aligned,
disjoint regions over mapped pages.  On such a list the loops of `restore_memory_layout` work page
by page, which settles when the restore succeeds and gives back the layout of the snapshot.
-/

namespace ValkyrieRs

open Proc

variable {vk vk' : Valkyrie} {mem : VMemory} {uc uc' : Unicorn} {addr size x : U64} {prot : Prot}
  {info : String} {regions : List VMemRegion} {r s p : VMemRegion}

/-! ## The invariant -/

/-- A region starts at a page and ends at a page, or one byte before the end of the address
space. -/
structure VMemRegion.Paged (r : VMemRegion) : Prop where
  start : Aligned r.start
  nonempty : r.size ≠ 0
  stop : (r.start.toNat + r.size.toNat) % 4096 = 0 ∧ r.start.toNat + r.size.toNat ≤ 2 ^ 64 ∨
    r.start.toNat + r.size.toNat = 2 ^ 64 - 1

/-- Aligned, disjoint regions over mapped pages. -/
structure Laid (regions : List VMemRegion) (uc : Unicorn) : Prop where
  paged : ∀ r ∈ regions, r.Paged
  disjoint : Disjoint regions
  mapped : ∀ r ∈ regions, ∀ x ∈ r, (uc.protAt x).isSome

theorem Laid.map (h : Laid mem.regions uc) (ok : uc.memMap addr size prot = .ok uc') :
    Laid (mem.addRegion ⟨addr, size, prot, info⟩).regions uc' := by
  have range := Unicorn.Mappable.of_memMap ok
  obtain ⟨prots, -, -⟩ := Unicorn.memMap_effect ok
  refine ⟨?_, ?_, ?_⟩
  · intro r hr
    rcases List.mem_append.1 hr with hr | hr
    · exact h.paged r hr
    · rw [List.mem_singleton.1 hr]
      refine ⟨range.addr_aligned, range.size_ne, .inl ⟨?_, range.bound⟩⟩
      have := range.addr_aligned
      have := range.size_aligned
      simp only
      omega
  · refine List.pairwise_append.2 ⟨h.disjoint, List.pairwise_singleton _ _, ?_⟩
    rintro r hr s hs x hx hxs
    rw [List.mem_singleton.1 hs] at hxs
    have listed := h.mapped r hr x hx
    rw [range.free x hxs] at listed
    cases listed
  · intro r hr x hx
    rw [prots x]
    split_ifs with inside
    · rfl
    · rcases List.mem_append.1 hr with hr | hr
      · exact h.mapped r hr x hx
      · rw [List.mem_singleton.1 hr] at hx
        exact absurd hx inside

/-- What is kept of an aligned region outside an aligned range. -/
theorem VMemRegion.Paged.keep (h : r.Paged) (aligned : Aligned addr) (hs : Aligned size)
    (hp : p ∈ r.keep addr (satAdd addr size)) : p.Paged := by
  obtain ⟨start, nonempty, stop⟩ := h
  have last := toNat_satEnd (r := r)
  have bound := toNat_satAdd addr size
  have ha := addr.isLt
  unfold Aligned at start aligned hs
  obtain ⟨-, rfl⟩ | ⟨⟨below, behind⟩, ⟨lower, rfl⟩ | ⟨upper, rfl⟩⟩ := mem_keep.1 hp
  · exact ⟨start, nonempty, stop⟩
  · have size := toNat_satSub addr r.start
    refine ⟨start, size_ne_of_mem_keep hp nonempty, .inl ?_⟩
    simp only
    omega
  · have size := toNat_satSub r.satEnd (satAdd addr size)
    refine ⟨?_, size_ne_of_mem_keep hp nonempty, ?_⟩
    · simp only [Aligned]
      omega
    · simp only
      omega

/-- What is kept of an aligned region lies outside the aligned range. -/
theorem VMemRegion.Paged.outside_of_mem_keep (h : r.Paged) (aligned : Aligned addr)
    (hp : p ∈ r.keep addr (satAdd addr size)) (hx : x ∈ p) : ¬ InRange addr size.toNat x := by
  obtain ⟨start, nonempty, stop⟩ := h
  have last := toNat_satEnd (r := r)
  have bound := toNat_satAdd addr size
  have hx' := x.isLt
  have ha := addr.isLt
  unfold Aligned at start aligned
  unfold InRange
  obtain ⟨apart, rfl⟩ | ⟨-, ⟨lower, rfl⟩ | ⟨upper, rfl⟩⟩ := mem_keep.1 hp
  · rw [mem_iff] at hx
    omega
  · rw [mem_lower lower] at hx
    omega
  · rw [mem_upper upper] at hx
    omega

theorem Laid.removeRange (h : Laid mem.regions uc) (aligned : Aligned addr) (hs : Aligned size)
    (prots : ∀ x, ¬ InRange addr size.toNat x → uc'.protAt x = uc.protAt x) :
    Laid (mem.removeRange addr size).regions uc' := by
  by_cases empty : size = 0
  · subst empty
    refine ⟨by simpa using h.paged, by simpa using h.disjoint, ?_⟩
    intro r hr x hx
    rw [prots x (by simp)]
    exact h.mapped r (by simpa using hr) x hx
  refine ⟨?_, VMemory.disjoint_removeRange h.disjoint, ?_⟩
  · intro p hp
    obtain ⟨r, hr, hp⟩ := (VMemory.mem_removeRange empty).1 hp
    exact (h.paged r hr).keep aligned hs hp
  · intro p hp x hx
    obtain ⟨r, hr, hp⟩ := (VMemory.mem_removeRange empty).1 hp
    rw [prots x ((h.paged r hr).outside_of_mem_keep aligned hp hx)]
    exact h.mapped r hr x (VMemRegion.mem_of_mem_keep hp hx)

theorem Laid.relabel {f : VMemRegion → VMemRegion} (h : Laid regions uc) (labels : Relabels f) :
    Laid (regions.map f) uc := by
  refine ⟨?_, h.disjoint.relabel labels, ?_⟩
  · intro r hr
    obtain ⟨s, hs, rfl⟩ := List.mem_map.1 hr
    obtain ⟨start, nonempty, stop⟩ := h.paged s hs
    rw [← (labels s).1] at start stop
    rw [← (labels s).2] at nonempty stop
    exact ⟨start, nonempty, stop⟩
  · intro r hr x hx
    obtain ⟨s, hs, rfl⟩ := List.mem_map.1 hr
    exact h.mapped s hs x (labels.mem_iff.1 hx)

theorem Laid.congr (h : Laid regions uc)
    (same : ∀ x, (uc'.protAt x).isSome = (uc.protAt x).isSome) : Laid regions uc' :=
  ⟨h.paged, h.disjoint, fun r hr x hx => by rw [same x]; exact h.mapped r hr x hx⟩

/-- An unmap, granted or refused, changes nothing outside its range. -/
theorem Unicorn.protAt_unmapped (outside : ¬ InRange addr size.toNat x) :
    (uc.unmapped addr size).protAt x = uc.protAt x := by
  unfold unmapped
  cases h : uc.memUnmap addr size with
  | error e => rfl
  | ok uc' => simp only [(memUnmap_effect h).1 x, if_neg outside]

theorem Laid.starts {c : MemCall} (h : Laid vk.mem.regions vk.uc) (starts : c.Starts vk vk') :
    Laid vk'.mem.regions vk'.uc := by
  cases starts with
  | nothing => exact h
  | search ctx found =>
    obtain ⟨aligned, -⟩ := VMemory.nextMmapAddr_spec found
    exact h.removeRange aligned (aligned_alignUp _) fun x => Unicorn.protAt_unmapped
  | replace ctx fixed null accepted =>
    exact h.removeRange (aligned_of_accepted accepted) (aligned_alignUp _) fun x =>
      Unicorn.protAt_unmapped
  | unmap null accepted ok =>
    refine h.removeRange (aligned_of_accepted accepted) (aligned_alignUp _) fun x outside => ?_
    exact ((Unicorn.memUnmap_effect ok).1 x).trans (if_neg outside)
  | protect _ ok =>
    exact (h.congr (Unicorn.isSome_protAt_memProtect ok)).relabel (relabels_protect _ _ _)

theorem Laid.grows (h : Laid vk.mem.regions vk.uc) (grows : Grows vk vk') :
    Laid vk'.mem.regions vk'.uc := by
  cases grows with
  | map info ok => exact h.map ok
  | keep regions _ pages =>
    rw [regions]
    exact h.congr fun x => by rw [Unicorn.protAt, pages, Unicorn.protAt]

/-- One call keeps the list laid over mapped pages. -/
theorem Laid.step {c : MemCall} (h : Laid vk.mem.regions vk.uc) (does : c.Does vk vk') :
    Laid vk'.mem.regions vk'.uc := by
  obtain ⟨vk₁, starts, grown⟩ := does.edits
  have first := h.starts starts
  clear does starts
  induction grown with
  | refl => exact first
  | tail _ last ih => exact ih.grows last

/-- Any sequence of calls. -/
def MemRun : Valkyrie → Valkyrie → Prop :=
  Relation.ReflTransGen fun vk vk' => ∃ c : MemCall, c.Does vk vk'

theorem Laid.run (h : Laid vk.mem.regions vk.uc) (run : MemRun vk vk') :
    Laid vk'.mem.regions vk'.uc := by
  induction run with
  | refl => exact h
  | tail _ last ih =>
    obtain ⟨c, does⟩ := last
    exact ih.step does

theorem Laid.ofRegions (aligned : ∀ r ∈ regions, Aligned r.start ∧ Aligned r.size)
    (nonempty : ∀ r ∈ regions, r.size ≠ 0)
    (bound : ∀ r ∈ regions, r.start.toNat + r.size.toNat ≤ 2 ^ 64) (disjoint : Disjoint regions) :
    Laid regions (Unicorn.ofRegions regions) := by
  refine ⟨fun r hr => ?_, disjoint, fun r hr x hx => ?_⟩
  · obtain ⟨start, size⟩ := aligned r hr
    have bound := bound r hr
    unfold Aligned at start size
    exact ⟨start, nonempty r hr, .inl ⟨by omega, bound⟩⟩
  · rw [Unicorn.protAt_ofRegions aligned disjoint hr hx]
    rfl

/-! ## Regions as segments -/

/-- The region up to its saturating end. -/
def VMemRegion.span (r : VMemRegion) : Segment U64 Unit := ⟨r.start, r.satEnd, ()⟩

theorem VMemRegion.mem_span : x ∈ r.span ↔ r.start.toNat ≤ x.toNat ∧ x.toNat < r.satEnd.toNat :=
  Iff.rfl

theorem VMemRegion.mem_of_mem_span (h : x ∈ r.span) : x ∈ r := by
  rw [mem_span, toNat_satEnd] at h
  rw [mem_iff]
  omega

/-- A region made of pages contains the first address of each. -/
theorem VMemRegion.Paged.pageBase_mem_span (h : r.Paged) (hx : x ∈ r) : pageBase x ∈ r.span := by
  obtain ⟨start, nonempty, stop⟩ := h
  have last := x.isLt
  unfold Aligned at start
  rw [mem_iff] at hx
  rw [mem_span, toNat_satEnd, toNat_pageBase]
  omega

theorem satAdd_satSub {a b : U64} (h : a < b) : satAdd a (satSub b a) = b := by
  apply BitVec.eq_of_toNat_eq
  rw [toNat_satAdd, toNat_satSub]
  bv_omega

/-- `remove_range` cuts the span of a region. -/
theorem VMemRegion.map_span_keep (stop : U64) :
    (r.keep addr stop).map VMemRegion.span = r.span.cut addr stop := by
  have lower (h : r.start < addr) :
      ({ r with size := satSub addr r.start } : VMemRegion).span = ⟨r.start, addr, ()⟩ := by
    simp only [span, satEnd, satAdd_satSub h]
  have upper (h : stop < r.satEnd) :
      ({ r with start := stop, size := satSub r.satEnd stop } : VMemRegion).span =
        ⟨stop, r.satEnd, ()⟩ := by
    simp only [span, satEnd] at h ⊢
    rw [satAdd_satSub h]
  unfold keep Segment.cut
  by_cases apart : stop ≤ r.start ∨ addr ≥ r.satEnd
  · have apart' : stop ≤ r.span.lo ∨ r.span.hi ≤ addr := apart
    rw [if_pos apart, if_pos apart']
    rfl
  have apart' : ¬ (stop ≤ r.span.lo ∨ r.span.hi ≤ addr) := apart
  rw [if_neg apart, if_neg apart', List.map_append]
  congr 1
  · by_cases h : r.start < addr
    · have h' : r.span.lo < addr := h
      rw [if_pos h, if_pos h', List.map_singleton, lower h]
      rfl
    · have h' : ¬ r.span.lo < addr := h
      rw [if_neg h, if_neg h', List.map_nil]
  · by_cases h : stop < r.satEnd
    · have h' : stop < r.span.hi := h
      rw [if_pos h, if_pos h', List.map_singleton, upper h]
      rfl
    · have h' : ¬ stop < r.span.hi := h
      rw [if_neg h, if_neg h', List.map_nil]

/-- After `remove_range` the spans cover what they covered outside the range. -/
theorem VMemory.covered_removeRange : (∃ r ∈ (mem.removeRange addr size).regions, x ∈ r.span) ↔
    (∃ r ∈ mem.regions, x ∈ r.span) ∧ ¬ (addr ≤ x ∧ x < satAdd addr size) := by
  unfold removeRange
  split_ifs with hs
  · subst hs
    have empty : ¬ (addr ≤ x ∧ x < satAdd addr 0) := by
      have := toNat_satAdd addr 0
      bv_omega
    exact ⟨fun h => ⟨h, empty⟩, And.left⟩
  · have covered := Segment.covered_cutAll (l := mem.regions.map VMemRegion.span) (a := addr)
      (b := satAdd addr size) (x := x)
    simp only [List.mem_map, exists_exists_and_eq_and, Segment.cutAll, List.flatMap_map,
      ← VMemRegion.map_span_keep] at covered
    simp only [← List.map_flatMap, List.mem_map, exists_exists_and_eq_and] at covered
    exact covered

/-! ## The pieces of a region outside the snapshot -/

/-- A piece of the layout as a segment. -/
def pieceSpan (piece : U64 × U64) : Segment U64 Unit := ⟨piece.1, piece.2, ()⟩

theorem map_pieceSpan_cutCoverage (piece : U64 × U64) :
    (cutCoverage r piece).map pieceSpan = (pieceSpan piece).cut r.start r.satEnd := by
  unfold cutCoverage Segment.cut pieceSpan
  simp only [ge_iff_le]
  split_ifs <;> rfl

theorem map_pieceSpan_subtractLoop (l : List VMemRegion) (pending : List (U64 × U64)) :
    (subtractLoop l pending).map pieceSpan =
      (l.map VMemRegion.span).foldl (fun pieces c => Segment.cutAll c.lo c.hi pieces)
        (pending.map pieceSpan) := by
  induction l generalizing pending with
  | nil => rfl
  | cons r l ih =>
    have next : (pending.flatMap (cutCoverage r)).map pieceSpan =
        Segment.cutAll r.start r.satEnd (pending.map pieceSpan) := by
      simp only [Segment.cutAll, List.map_flatMap, List.flatMap_map, map_pieceSpan_cutCoverage]
    rw [subtractLoop, List.map_cons, List.foldl_cons]
    split_ifs with empty
    · rw [List.isEmpty_iff] at empty
      rw [empty] at next ⊢
      simp only [VMemRegion.span, ← next, List.map_nil, Segment.foldl_cutAll_nil]
    · rw [ih, next]
      rfl

/-- The pieces of a range outside the snapshot regions, before their sizes are taken. -/
theorem map_pieceSpan_subtract (l : List VMemRegion) :
    (subtractLoop l [(r.start, satAdd r.start r.size)]).map pieceSpan =
      r.span.subtract (l.map VMemRegion.span) := map_pieceSpan_subtractLoop l _

/-- A piece given by start and size is a segment of the difference. -/
theorem mem_subtractSnapshotCoverage {l : List VMemRegion} {piece : U64 × U64} :
    piece ∈ subtractSnapshotCoverage r.start r.size l ↔
      ∃ c ∈ r.span.subtract (l.map VMemRegion.span), c.lo < c.hi ∧
        piece = (c.lo, satSub c.hi c.lo) := by
  rw [← map_pieceSpan_subtract, subtractSnapshotCoverage]
  simp only [List.mem_filterMap, List.mem_map, exists_exists_and_eq_and]
  refine exists_congr fun q => and_congr_right fun _ => ?_
  have size := toNat_satSub q.2 q.1
  simp only [pieceSpan]
  split_ifs with empty
  · simp only [false_iff, not_and]
    intro lt
    bv_omega
  · have lt : q.1 < q.2 := by bv_omega
    simp [lt, eq_comm]

theorem inRange_piece {lo hi : U64} (h : lo < hi) :
    InRange lo (satSub hi lo).toNat x ↔ lo ≤ x ∧ x < hi := by
  rw [satSub, if_pos h.le, inRange_sub h.le]

/-- What holds between the segments of the difference holds between the pieces. -/
theorem pairwise_pieces {l : List VMemRegion} {R : Segment U64 Unit → Segment U64 Unit → Prop}
    {S : U64 × U64 → U64 × U64 → Prop}
    (related : (r.span.subtract (l.map VMemRegion.span)).Pairwise R)
    (step : ∀ c d, c.lo < c.hi → d.lo < d.hi → R c d →
      S (c.lo, satSub c.hi c.lo) (d.lo, satSub d.hi d.lo)) :
    (subtractSnapshotCoverage r.start r.size l).Pairwise S := by
  rw [← map_pieceSpan_subtract] at related
  refine List.pairwise_filterMap.2 ((List.pairwise_map.1 related).imp ?_)
  intro p q between piece hp other hq
  dsimp only at hp hq
  split_ifs at hp with empty
  split_ifs at hq with empty'
  obtain rfl := Option.some.inj hp
  obtain rfl := Option.some.inj hq
  have size := toNat_satSub p.2 p.1
  have size' := toNat_satSub q.2 q.1
  exact step (pieceSpan p) (pieceSpan q) (by simp only [pieceSpan]; bv_omega)
    (by simp only [pieceSpan]; bv_omega) between

/-- The pieces of a region cover its addresses outside the snapshot regions. -/
theorem covered_subtractSnapshotCoverage {l : List VMemRegion} :
    (∃ piece ∈ subtractSnapshotCoverage r.start r.size l, InRange piece.1 piece.2.toNat x) ↔
      x ∈ r.span ∧ ¬ ∃ s ∈ l, x ∈ s.span := by
  have covered : (∃ c ∈ r.span.subtract (l.map VMemRegion.span), x ∈ c) ↔
      x ∈ r.span ∧ ¬ ∃ c ∈ l.map VMemRegion.span, x ∈ c := Segment.covered_subtract
  simp only [List.mem_map, exists_exists_and_eq_and] at covered
  rw [← covered]
  constructor
  · rintro ⟨piece, hp, hx⟩
    obtain ⟨c, hc, lt, rfl⟩ := mem_subtractSnapshotCoverage.1 hp
    exact ⟨c, hc, (inRange_piece lt).1 hx⟩
  · rintro ⟨c, hc, hx⟩
    have lt : c.lo < c.hi := hx.1.trans_lt hx.2
    exact ⟨_, mem_subtractSnapshotCoverage.2 ⟨c, hc, lt, rfl⟩, (inRange_piece lt).2 hx⟩

/-! ## The coverage test -/

theorem coverLoop_eq_sweep (stop : U64) (l : List VMemRegion) (cursor : U64) :
    coverLoop stop l cursor = Segment.sweep stop (l.map VMemRegion.span) cursor := by
  induction l generalizing cursor with
  | nil => rfl
  | cons r l ih =>
    simp only [coverLoop, List.map_cons, Segment.sweep, ih, VMemRegion.span, gt_iff_lt, ge_iff_le]

/-- The test answers whether every address up to the saturated end lies in some region. -/
theorem isRangeMapped_iff (h : addr < satAdd addr size) :
    isRangeMapped regions addr size ↔
      ∀ x, addr ≤ x → x < satAdd addr size → ∃ r ∈ regions, x ∈ r.span := by
  have sorted : ((regions.insertionSort fun a b => a.start ≤ b.start).map VMemRegion.span).Pairwise
      fun s t => s.lo ≤ t.lo := by
    have : IsTrans VMemRegion fun a b => a.start ≤ b.start := ⟨fun _ _ _ => le_trans⟩
    have : Std.Total fun a b : VMemRegion => a.start ≤ b.start := ⟨fun _ _ => le_total _ _⟩
    exact List.pairwise_map.2 (List.pairwise_insertionSort _ regions)
  rw [isRangeMapped, coverLoop_eq_sweep, Segment.sweep_iff sorted h]
  refine forall₃_congr fun x _ _ => ?_
  simp only [List.mem_map, exists_exists_and_eq_and, List.mem_insertionSort]

end ValkyrieRs

import ValkyrieRs.Proof.AddressSearch

/-!
# The break

`sys_brk` over any run of break requests and guest stores.  The heap is mapped from its start to the
end of its last region, and the break lies in between: lowering it unmaps nothing.  A break that is
raised again hands out whatever the guest has left there, so the new memory is clear exactly when
the guest has left zeros.
-/

namespace ValkyrieRs

open Proc

variable {vk vk' : Valkyrie} {mem : VMemory} {uc uc' : Unicorn} {sctx : SubCtx}
  {r : Except ValkyrieError U64} {region : VMemRegion} {x v : U64}

/-! ## What a call promises -/

/-- The break is moved to `v`, and what is new below it can be written and reads zero. -/
structure BreakMoved (request : U64) (v : U64) (vk vk' : Valkyrie) : Prop where
  rounded : v.toNat = (request.toNat + 4095) / 4096 * 4096
  low : vk.mem.heapAddrStart ≤ v
  recorded : vk'.mem.heapAddrExit = v ∧ vk'.mem.heapAddrStart = vk.mem.heapAddrStart
  /-- The list grows by pages of the heap that overlap nothing. -/
  listed : ∃ added, vk'.mem.regions = vk.mem.regions ++ added ∧
    ∀ r ∈ added, r.info = "[heap]" ∧ ∀ s ∈ vk.mem.regions, ∀ x ∈ s, x ∉ r
  kept : ∀ s ∈ vk.mem.regions, ∀ x ∈ s,
    vk'.uc.protAt x = vk.uc.protAt x ∧ vk'.uc.bytes x = vk.uc.bytes x
  clear : ∀ x, vk.mem.heapAddrExit ≤ x → x < v →
    (∃ prot, vk'.uc.protAt x = some prot ∧ prot.write) ∧ vk'.uc.readAt x = some 0

/-- A call returns the old break and changes nothing, or moves the break. -/
def BreakContract (request : U64) (r : Except ValkyrieError U64) (vk vk' : Valkyrie) : Prop :=
  ∃ v, r = .ok v ∧ (v = vk.mem.heapAddrExit ∧ vk' = vk ∨ BreakMoved request v vk vk')

/-- `sys_brk` refuses the request at once. -/
def Valkyrie.BreakRefused (vk : Valkyrie) (sctx : SubCtx) : Prop :=
  sctx.arg0 = 0 ∨ sctx.newBreak < vk.mem.heapAddrStart ∨ sctx.newBreak > vk.mem.heapLimit

/-- The request is refused or leaves the break where it is, or it can be rounded up and the break
moves over no byte of the mapped heap that the guest has left other than zero. -/
def Valkyrie.MovesOverZeros (vk : Valkyrie) (sctx : SubCtx) : Prop :=
  vk.BreakRefused sctx ∨ sctx.newBreak = vk.mem.heapAddrExit ∨
    sctx.arg0.toNat ≤ 2 ^ 64 - 4096 ∧ ∀ x, vk.mem.heapAddrExit ≤ x → x < sctx.newBreak →
      x < vk.mem.mappedHeapEnd → vk.uc.bytes x = 0

/-! ## Runs -/

/-- The heap is mapped from its start to the end of its last region, with the break in between. -/
structure Valkyrie.HeapOpen (vk : Valkyrie) : Prop where
  accepted : vk.mem.Accepted
  mirrors : Mirrors vk.mem.regions vk.uc
  low : vk.mem.heapAddrStart ≤ vk.mem.heapAddrExit
  inside : vk.mem.heapAddrExit ≤ vk.mem.mappedHeapEnd
  started : vk.mem.heapAddrStart < vk.mem.mappedHeapEnd
  page : Aligned vk.mem.mappedHeapEnd
  last : ∀ r ∈ vk.mem.regions, r.info = "[heap]" →
    r.start.toNat + r.size.toNat ≤ vk.mem.mappedHeapEnd.toNat
  heap : ∀ x, vk.mem.heapAddrStart ≤ x → x < vk.mem.mappedHeapEnd →
    (∃ r ∈ vk.mem.regions, r.info = "[heap]" ∧ x ∈ r) ∧ vk.uc.protAt x = some Prot.all

/-- A region that is not of the heap bars every request: the heap reaches `2^64`. -/
def Valkyrie.HeapFull (vk : Valkyrie) : Prop :=
  ∃ r ∈ vk.mem.regions, r.info ≠ "[heap]" ∧ vk.mem.mappedHeapEnd ≤ r.start ∧
    r.start < vk.mem.heapAddrStart

/-- One break request, or one store of the guest. -/
inductive HeapStep : Valkyrie → Valkyrie → Prop where
  | brk (sctx : SubCtx) {vk vk' : Valkyrie} {r : Except ValkyrieError U64}
    (run : (sysBrk sctx).Ends vk r vk') : HeapStep vk vk'
  | store (addr : U64) (data : List U8) {vk : Valkyrie} {uc : Unicorn}
    (ok : vk.uc.memWrite addr data = .ok uc) : HeapStep vk (vk.withUc uc)

/-- Any sequence of break requests and stores. -/
def HeapRun : Valkyrie → Valkyrie → Prop := Relation.ReflTransGen HeapStep

/-! ## The ends of the heap -/

/-- The end of the last region of the heap. -/
theorem VMemory.mappedHeapEnd_eq (hr : region ∈ mem.regions) (heap : region.info = "[heap]")
    (last : ∀ s ∈ mem.regions, s.info = "[heap]" → s.start + s.size ≤ region.start + region.size) :
    mem.mappedHeapEnd = region.start + region.size := by
  have greatest : ((mem.regions.filter (·.info == "[heap]")).map fun r => r.start + r.size).max? =
      some (region.start + region.size) := by
    rw [List.max?_eq_some_iff]
    constructor
    · refine List.mem_map.2 ⟨region, List.mem_filter.2 ⟨hr, ?_⟩, rfl⟩
      rw [heap]
      rfl
    · intro b hb
      obtain ⟨s, hs, rfl⟩ := List.mem_map.1 hb
      obtain ⟨hs, label⟩ := List.mem_filter.1 hs
      exact last s hs (eq_of_beq label)
  rw [mappedHeapEnd, greatest]
  rfl

/-- A region of another kind behind the heap limits it. -/
theorem VMemory.heapLimit_le (hr : region ∈ mem.regions) (other : region.info ≠ "[heap]")
    (behind : mem.mappedHeapEnd ≤ region.start) : mem.heapLimit ≤ region.start := by
  have listed : region.start ∈ ((mem.regions.filter (·.info != "[heap]")).filter
      (·.start ≥ mem.mappedHeapEnd)).map (·.start) := by
    refine List.mem_map_of_mem (List.mem_filter.2 ⟨List.mem_filter.2 ⟨hr, ?_⟩, ?_⟩)
    · exact bne_iff_ne.2 other
    · exact decide_eq_true behind
  rw [heapLimit]
  cases least : (((mem.regions.filter (·.info != "[heap]")).filter
      (·.start ≥ mem.mappedHeapEnd)).map (·.start)).min? with
  | none =>
    rw [List.min?_eq_none_iff.1 least] at listed
    cases listed
  | some m => exact (List.le_min?_iff least).1 (le_refl m) _ listed

/-! ## What the heap keeps -/

theorem toNat_newBreak (fits : sctx.arg0.toNat ≤ 2 ^ 64 - 4096) :
    sctx.newBreak.toNat = (sctx.arg0.toNat + 4095) / 4096 * 4096 := by
  rw [SubCtx.newBreak, toNat_alignUp]
  omega

/-- Behind the mapped heap nothing is in the way of a request that is not refused. -/
theorem Valkyrie.HeapOpen.free (h : vk.HeapOpen) (granted : sctx.newBreak ≤ vk.mem.heapLimit)
    (hx : vk.mem.mappedHeapEnd ≤ x) (hx' : x < sctx.newBreak) : ∀ s ∈ vk.mem.regions, x ∉ s := by
  intro s hs inside
  rw [VMemRegion.mem_iff] at inside
  by_cases label : s.info = "[heap]"
  · have := h.last s hs label
    bv_omega
  by_cases behind : vk.mem.mappedHeapEnd ≤ s.start
  · have limit := VMemory.heapLimit_le hs label behind
    bv_omega
  · -- the region would contain the last byte of the heap
    have started := h.started
    have number : (vk.mem.mappedHeapEnd - 1).toNat = vk.mem.mappedHeapEnd.toNat - 1 := by bv_omega
    obtain ⟨⟨r, hr, heap, last⟩, -⟩ := h.heap (vk.mem.mappedHeapEnd - 1) (by bv_omega) (by bv_omega)
    have there : vk.mem.mappedHeapEnd - 1 ∈ s := by
      rw [VMemRegion.mem_iff]
      bv_omega
    have same := h.accepted.disjoint.eq_of_mem hr hs last there
    exact label (same ▸ heap)

/-- The state in which the break has moved. -/
def Valkyrie.broken (vk : Valkyrie) (v : U64) : Valkyrie := vk.withMem (vk.mem.setBreak v) vk.uc

/-- The state in which the heap has grown up to the new break. -/
def Valkyrie.grown (vk : Valkyrie) (v : U64) (uc : Unicorn) : Valkyrie :=
  vk.withMem ((vk.mem.addRegion ⟨vk.mem.mappedHeapEnd, v - vk.mem.mappedHeapEnd, Prot.all,
    "[heap]"⟩).setBreak v) uc

theorem Valkyrie.low_newBreak (granted : ¬ vk.BreakRefused sctx) :
    vk.mem.heapAddrStart ≤ sctx.newBreak := not_lt.1 fun below => granted (.inr (.inl below))

section Open

variable (h : vk.HeapOpen)
include h

theorem Valkyrie.HeapOpen.growStart_eq : vk.mem.growStart = vk.mem.mappedHeapEnd := by
  have page := h.page
  have small := vk.mem.mappedHeapEnd.isLt
  apply BitVec.eq_of_toNat_eq
  rw [VMemory.growStart, toNat_alignUp]
  unfold Aligned at page
  omega

/-- The pages behind the heap can be mapped. -/
theorem Valkyrie.HeapOpen.mappable (granted : ¬ vk.BreakRefused sctx)
    (grows : vk.mem.mappedHeapEnd < sctx.newBreak) :
    vk.uc.Mappable vk.mem.mappedHeapEnd (sctx.newBreak - vk.mem.mappedHeapEnd) := by
  have page := h.page
  have pageBreak : Aligned sctx.newBreak := aligned_alignUp _
  have size : (sctx.newBreak - vk.mem.mappedHeapEnd).toNat =
      sctx.newBreak.toNat - vk.mem.mappedHeapEnd.toNat := by bv_omega
  have limit : sctx.newBreak ≤ vk.mem.heapLimit :=
    not_lt.1 fun above => granted (.inr (.inr above))
  refine ⟨by bv_omega, page, ?_, ?_, fun x inside => ?_⟩
  · unfold Aligned at page pageBreak
    omega
  · bv_omega
  · rw [inRange_sub grows.le] at inside
    have outside := h.free limit inside.1 inside.2
    cases mapped : vk.uc.protAt x with
    | none => rfl
    | some prot =>
      obtain ⟨s, hs, there⟩ := (h.mirrors.exact x).2 (by rw [mapped]; rfl)
      exact absurd there (outside s hs)

/-- The three ways in which a request ends. -/
theorem Valkyrie.HeapOpen.cases (run : (sysBrk sctx).Ends vk r vk') :
    (vk.BreakRefused sctx ∧ r = .ok vk.mem.heapAddrExit ∧ vk' = vk) ∨
      (¬ vk.BreakRefused sctx ∧ sctx.newBreak ≤ vk.mem.mappedHeapEnd ∧ r = .ok sctx.newBreak ∧
        vk' = vk.broken sctx.newBreak) ∨
      (¬ vk.BreakRefused sctx ∧ vk.mem.mappedHeapEnd < sctx.newBreak ∧ r = .ok sctx.newBreak ∧
        ∃ uc, vk.uc.memMap vk.mem.mappedHeapEnd (sctx.newBreak - vk.mem.mappedHeapEnd) Prot.all =
          .ok uc ∧ vk' = vk.grown sctx.newBreak uc) := by
  rcases ends_sysBrk.1 run with ⟨refused, rfl, rfl⟩ | ⟨granted, moved⟩
  · exact .inl ⟨refused, rfl, rfl⟩
  have granted : ¬ vk.BreakRefused sctx := granted
  rcases le_or_gt sctx.newBreak vk.mem.mappedHeapEnd with le | grows
  · have none : vk.mem.growSize sctx.newBreak = 0 := if_neg (not_lt.2 le)
    rcases moved with ⟨-, rfl, rfl⟩ | ⟨some, -⟩
    · exact .inr (.inl ⟨granted, le, rfl, rfl⟩)
    · exact absurd none some
  · have size : vk.mem.growSize sctx.newBreak = sctx.newBreak - vk.mem.mappedHeapEnd := by
      rw [VMemory.growSize, if_pos grows, h.growStart_eq, satSub, if_pos (le_of_lt grows)]
    have range := h.mappable granted grows
    rw [size, h.growStart_eq] at moved
    rcases moved with ⟨none, -, -⟩ | ⟨-, ⟨uc, ok, rfl, rfl⟩ | ⟨e, refused, -, -⟩⟩
    · exact absurd none range.size_ne
    · exact .inr (.inr ⟨granted, grows, rfl, uc, ok, rfl⟩)
    · exact absurd range (VMemory.map_isError_iff.1 ⟨e, refused⟩)

/-- Lowering the break, or raising it within the mapped heap, keeps the heap. -/
theorem Valkyrie.HeapOpen.broken (low : vk.mem.heapAddrStart ≤ v)
    (inside : v ≤ vk.mem.mappedHeapEnd) : (vk.broken v).HeapOpen := by
  have stop : (vk.broken v).mem.mappedHeapEnd = vk.mem.mappedHeapEnd := by
    obtain ⟨⟨r, hr, label, -⟩, -⟩ := h.heap vk.mem.heapAddrStart (le_refl _) h.started
    have listed : r.start + r.size ∈
        (vk.mem.regions.filter (·.info == "[heap]")).map fun r => r.start + r.size :=
      List.mem_map_of_mem (List.mem_filter.2 ⟨hr, beq_iff_eq.2 label⟩)
    show VMemory.mappedHeapEnd (vk.mem.setBreak v) = _
    rw [VMemory.mappedHeapEnd, VMemory.mappedHeapEnd, VMemory.setBreak_regions]
    cases greatest : ((vk.mem.regions.filter (·.info == "[heap]")).map
        fun r => r.start + r.size).max? with
    | none =>
      rw [List.max?_eq_none_iff.1 greatest] at listed
      cases listed
    | some m => rfl
  obtain ⟨aligned, nonempty, bound, disjoint⟩ := h.accepted
  refine ⟨⟨aligned, nonempty, bound, disjoint⟩, h.mirrors, low, ?_, ?_, ?_, ?_, ?_⟩
  · rw [stop]
    exact inside
  · rw [stop]
    exact h.started
  · rw [stop]
    exact h.page
  · rw [stop]
    exact h.last
  · rw [stop]
    exact h.heap

/-- The heap ends at the new break once it has grown to it. -/
theorem Valkyrie.HeapOpen.mappedHeapEnd_grown (grows : vk.mem.mappedHeapEnd < v) :
    (vk.grown v uc).mem.mappedHeapEnd = v := by
  have whole : vk.mem.mappedHeapEnd + (v - vk.mem.mappedHeapEnd) = v := by bv_omega
  refine (VMemory.mappedHeapEnd_eq (List.mem_append_right _ (List.mem_singleton_self _)) rfl
    fun s hs label => ?_).trans whole
  rcases List.mem_append.1 hs with hs | hs
  · have below := h.last s hs label
    dsimp only
    rw [whole]
    bv_omega
  · rw [List.mem_singleton.1 hs]

/-- Growing the heap keeps it mapped in one piece. -/
theorem Valkyrie.HeapOpen.grown (pageBreak : Aligned v) (grows : vk.mem.mappedHeapEnd < v)
    (ok : vk.uc.memMap vk.mem.mappedHeapEnd (v - vk.mem.mappedHeapEnd) Prot.all = .ok uc) :
    (vk.grown v uc).HeapOpen := by
  have range := Unicorn.Mappable.of_memMap ok
  obtain ⟨prots, -, -⟩ := Unicorn.memMap_effect ok
  have mirrors : Mirrors (vk.grown v uc).mem.regions uc := h.mirrors.map ok
  have listed {s : VMemRegion} (hs : s ∈ (vk.grown v uc).mem.regions) : s ∈ vk.mem.regions ∨
      s = ⟨vk.mem.mappedHeapEnd, v - vk.mem.mappedHeapEnd, Prot.all, "[heap]"⟩ :=
    (List.mem_append.1 hs).imp_right List.mem_singleton.1
  have stop := @Valkyrie.HeapOpen.mappedHeapEnd_grown vk uc v h grows
  refine ⟨⟨fun s hs => ?_, mirrors.nonempty, fun s hs => ?_, mirrors.disjoint⟩, mirrors,
    ?_, ?_, ?_, ?_, fun s hs label => ?_, fun x low below => ?_⟩
  · rcases listed hs with hs | rfl
    · exact h.accepted.aligned s hs
    · exact ⟨range.addr_aligned, range.size_aligned⟩
  · rcases listed hs with hs | rfl
    · exact h.accepted.bound s hs
    · exact range.bound
  · exact le_of_lt (lt_trans h.started grows)
  · rw [stop]
    exact le_refl v
  · rw [stop]
    exact lt_trans h.started grows
  · rw [stop]
    exact pageBreak
  · rw [stop]
    rcases listed hs with hs | rfl
    · have := h.last s hs label
      bv_omega
    · dsimp only
      bv_omega
  · rw [stop] at below
    show (∃ r ∈ (vk.grown v uc).mem.regions, _) ∧ uc.protAt x = _
    rw [prots x]
    by_cases old : x < vk.mem.mappedHeapEnd
    · obtain ⟨⟨s, hs, label, inside⟩, all⟩ := h.heap x low old
      rw [if_neg fun inside => not_le.2 old ((inRange_sub grows.le).1 inside).1]
      exact ⟨⟨s, List.mem_append_left _ hs, label, inside⟩, all⟩
    · have inside := (inRange_sub grows.le).2 ⟨not_lt.1 old, below⟩
      rw [if_pos inside]
      exact ⟨⟨_, List.mem_append_right _ (List.mem_singleton_self _), rfl, inside⟩, rfl⟩

/-- A request keeps the heap. -/
theorem Valkyrie.HeapOpen.brk (run : (sysBrk sctx).Ends vk r vk') : vk'.HeapOpen := by
  obtain ⟨-, -, rfl⟩ | ⟨granted, le, -, rfl⟩ | ⟨granted, grows, -, uc, ok, rfl⟩ := h.cases run
  · exact h
  · exact h.broken (vk.low_newBreak granted) le
  · exact h.grown (aligned_alignUp _) grows ok

/-- A break that moves within the mapped heap, over zeros. -/
theorem Valkyrie.HeapOpen.moved_broken (granted : ¬ vk.BreakRefused sctx)
    (le : sctx.newBreak ≤ vk.mem.mappedHeapEnd) (fits : sctx.arg0.toNat ≤ 2 ^ 64 - 4096)
    (zero : ∀ x, vk.mem.heapAddrExit ≤ x → x < sctx.newBreak → x < vk.mem.mappedHeapEnd →
      vk.uc.bytes x = 0) : BreakMoved sctx.arg0 sctx.newBreak vk (vk.broken sctx.newBreak) where
  rounded := toNat_newBreak fits
  low := vk.low_newBreak granted
  recorded := ⟨rfl, rfl⟩
  listed := ⟨[], (List.append_nil _).symm, nofun⟩
  kept _ _ _ _ := ⟨rfl, rfl⟩
  clear x above below := by
    have old := lt_of_lt_of_le below le
    obtain ⟨-, all⟩ := h.heap x (h.low.trans above) old
    refine ⟨⟨Prot.all, all, rfl⟩, ?_⟩
    show vk.uc.readAt x = some 0
    rw [Unicorn.readAt, all, zero x above below old]
    rfl

/-- A break that moves past the mapped heap, over zeros. -/
theorem Valkyrie.HeapOpen.moved_grown (granted : ¬ vk.BreakRefused sctx)
    (grows : vk.mem.mappedHeapEnd < sctx.newBreak)
    (ok : vk.uc.memMap vk.mem.mappedHeapEnd (sctx.newBreak - vk.mem.mappedHeapEnd) Prot.all =
      .ok uc) (fits : sctx.arg0.toNat ≤ 2 ^ 64 - 4096)
    (zero : ∀ x, vk.mem.heapAddrExit ≤ x → x < sctx.newBreak → x < vk.mem.mappedHeapEnd →
      vk.uc.bytes x = 0) : BreakMoved sctx.arg0 sctx.newBreak vk (vk.grown sctx.newBreak uc) := by
  obtain ⟨prots, bytes, -⟩ := Unicorn.memMap_effect ok
  have limit : sctx.newBreak ≤ vk.mem.heapLimit :=
    not_lt.1 fun above => granted (.inr (.inr above))
  have outside : ∀ s ∈ vk.mem.regions, ∀ x ∈ s,
      ¬ InRange vk.mem.mappedHeapEnd (sctx.newBreak - vk.mem.mappedHeapEnd).toNat x := by
    intro s hs x there inside
    rw [inRange_sub grows.le] at inside
    exact h.free limit inside.1 inside.2 s hs there
  refine ⟨toNat_newBreak fits, vk.low_newBreak granted, ⟨rfl, rfl⟩, ⟨_, rfl, fun s hs => ?_⟩,
    fun s hs x there => ⟨?_, ?_⟩, fun x above below => ?_⟩
  · rw [List.mem_singleton.1 hs]
    exact ⟨rfl, outside⟩
  · exact (prots x).trans (if_neg (outside s hs x there))
  · exact (bytes x).trans (if_neg (outside s hs x there))
  · show (∃ prot, uc.protAt x = some prot ∧ prot.write) ∧ uc.readAt x = some 0
    rw [Unicorn.readAt, prots x, bytes x]
    by_cases old : x < vk.mem.mappedHeapEnd
    · obtain ⟨⟨s, hs, -, there⟩, all⟩ := h.heap x (h.low.trans above) old
      rw [if_neg (outside s hs x there), if_neg (outside s hs x there), all,
        zero x above below old]
      exact ⟨⟨Prot.all, rfl, rfl⟩, rfl⟩
    · have inside := (inRange_sub grows.le).2 ⟨not_lt.1 old, below⟩
      rw [if_pos inside, if_pos inside]
      exact ⟨⟨Prot.all, rfl, rfl⟩, rfl⟩

/-- A break that moves over zeros hands out clear memory. -/
theorem Valkyrie.HeapOpen.contract (zeros : vk.MovesOverZeros sctx)
    (run : (sysBrk sctx).Ends vk r vk') : BreakContract sctx.arg0 r vk vk' := by
  obtain ⟨-, rfl, rfl⟩ | ⟨granted, le, rfl, rfl⟩ | ⟨granted, grows, rfl, uc, ok, rfl⟩ := h.cases run
  · exact ⟨_, rfl, .inl ⟨rfl, rfl⟩⟩
  · rcases zeros with refused | same | ⟨fits, zero⟩
    · exact absurd refused granted
    · refine ⟨_, rfl, .inl ⟨same, ?_⟩⟩
      rw [same]
      rfl
    · exact ⟨_, rfl, .inr (h.moved_broken granted le fits zero)⟩
  · rcases zeros with refused | same | ⟨fits, zero⟩
    · exact absurd refused granted
    · exact absurd (same ▸ grows) (not_lt.2 h.inside)
    · exact ⟨_, rfl, .inr (h.moved_grown granted grows ok fits zero)⟩

/-- Memory that was handed out clear was zero before, or is new. -/
theorem Valkyrie.HeapOpen.movesOverZeros (contract : BreakContract sctx.arg0 r vk vk')
    (run : (sysBrk sctx).Ends vk r vk') : vk.MovesOverZeros sctx := by
  by_cases refused : vk.BreakRefused sctx
  · exact .inl refused
  have returned : r = .ok sctx.newBreak := by
    obtain ⟨early, -, -⟩ | ⟨-, -, same, -⟩ | ⟨-, -, same, -⟩ := h.cases run
    · exact absurd early refused
    · exact same
    · exact same
  obtain ⟨v, same, old | moved⟩ := contract
  · cases returned.symm.trans same
    exact .inr (.inl old.1)
  · cases returned.symm.trans same
    refine .inr (.inr ⟨?_, fun x above below old => ?_⟩)
    · have rounded := moved.rounded
      have small := sctx.newBreak.isLt
      omega
    · obtain ⟨⟨s, hs, -, there⟩, -⟩ := h.heap x (h.low.trans above) old
      obtain ⟨⟨prot, mapped, -⟩, read⟩ := moved.clear x above below
      rw [Unicorn.readAt, mapped, (moved.kept s hs x there).2] at read
      exact Option.some.inj read

end Open

/-! ## Every run -/

/-- A heap that reaches `2^64` refuses every request. -/
theorem Valkyrie.HeapFull.refused (h : vk.HeapFull) (sctx : SubCtx) : vk.BreakRefused sctx := by
  obtain ⟨s, hs, label, behind, below⟩ := h
  have limit := VMemory.heapLimit_le hs label behind
  by_cases low : sctx.newBreak < vk.mem.heapAddrStart
  · exact .inr (.inl low)
  · exact .inr (.inr (lt_of_le_of_lt limit (lt_of_lt_of_le below (not_lt.1 low))))

theorem eq_of_breakRefused (refused : vk.BreakRefused sctx) (run : (sysBrk sctx).Ends vk r vk') :
    r = .ok vk.mem.heapAddrExit ∧ vk' = vk := by
  rcases ends_sysBrk.1 run with ⟨-, same, kept⟩ | ⟨granted, -⟩
  · exact ⟨same, kept⟩
  · exact absurd refused granted

/-- The heap that a loader leaves: one region, from the start of the heap to the break. -/
theorem heapOpen_of_region (accepted : vk.mem.Accepted) (mirrors : Mirrors vk.mem.regions vk.uc)
    (hr : region ∈ vk.mem.regions) (label : region.info = "[heap]")
    (start : region.start = vk.mem.heapAddrStart)
    (stop : region.start + region.size = vk.mem.heapAddrExit)
    (bound : region.start.toNat + region.size.toNat < 2 ^ 64)
    (all : ∀ x ∈ region, vk.uc.protAt x = some Prot.all)
    (last : ∀ s ∈ vk.mem.regions, s.info = "[heap]" →
      s.start.toNat + s.size.toNat ≤ region.start.toNat + region.size.toNat) : vk.HeapOpen := by
  have nonempty := accepted.nonempty region hr
  obtain ⟨pageStart, pageSize⟩ := accepted.aligned region hr
  have number : vk.mem.heapAddrExit.toNat = region.start.toNat + region.size.toNat := by
    rw [← stop, BitVec.toNat_add]
    omega
  have top : vk.mem.mappedHeapEnd = vk.mem.heapAddrExit := by
    refine (VMemory.mappedHeapEnd_eq hr label fun s hs heap => ?_).trans stop
    have := last s hs heap
    rw [stop, BitVec.le_def, BitVec.toNat_add]
    omega
  refine ⟨accepted, mirrors, ?_, le_of_eq top.symm, ?_, ?_, fun s hs heap => ?_,
    fun x low below => ?_⟩
  · rw [← start]
    bv_omega
  · rw [top, ← start]
    bv_omega
  · rw [top, Aligned, number]
    unfold Aligned at pageStart pageSize
    omega
  · rw [top, number]
    exact last s hs heap
  · have there : x ∈ region := by
      rw [VMemRegion.mem_iff, start]
      rw [top] at below
      bv_omega
    exact ⟨⟨region, hr, label, there⟩, all x there⟩

/-- The heap is open, or full. -/
def Valkyrie.HeapReady (vk : Valkyrie) : Prop := vk.HeapOpen ∨ vk.HeapFull

theorem Valkyrie.HeapReady.step (h : vk.HeapReady) (step : HeapStep vk vk') : vk'.HeapReady := by
  cases step with
  | brk sctx run =>
    rcases h with isOpen | full
    · exact .inl (isOpen.brk run)
    · obtain ⟨-, rfl⟩ := eq_of_breakRefused (full.refused sctx) run
      exact .inr full
  | store addr data ok =>
    rcases h with isOpen | full
    · obtain ⟨pages, -, -⟩ := Unicorn.memWrite_effect ok
      have same : ∀ x, (vk.withUc _).uc.protAt x = vk.uc.protAt x := fun x => congrFun pages _
      refine .inl ⟨isOpen.accepted, ?_, isOpen.low, isOpen.inside, isOpen.started, isOpen.page,
        isOpen.last, fun x low below => ?_⟩
      · exact isOpen.mirrors.congr fun x => by rw [same x]
      · rw [same x]
        exact isOpen.heap x low below
    · exact .inr full

theorem Valkyrie.HeapReady.run (h : vk.HeapReady) (run : HeapRun vk vk') : vk'.HeapReady := by
  induction run with
  | refl => exact h
  | tail _ last ih => exact ih.step last

/-- In every state that break requests and stores reach, a request does what `brk` promises exactly
when the break moves over zeros. -/
theorem brk_exact {vk₀ : Valkyrie} (start : vk₀.HeapReady) (reached : HeapRun vk₀ vk)
    (run : (sysBrk sctx).Ends vk r vk') :
    BreakContract sctx.arg0 r vk vk' ↔ vk.MovesOverZeros sctx := by
  rcases start.run reached with isOpen | full
  · exact ⟨fun contract => isOpen.movesOverZeros contract run, fun zeros => isOpen.contract zeros run⟩
  · obtain ⟨same, kept⟩ := eq_of_breakRefused (full.refused sctx) run
    exact ⟨fun _ => .inl (full.refused sctx), fun _ => ⟨_, same, .inl ⟨rfl, kept⟩⟩⟩

/-- A guest whose heap is the page at `0x601000`, which holds a one. -/
def onePageHeap : Valkyrie :=
  let vk := Valkyrie.ofMemory .x86_64 ⟨[⟨0x400000, 0x1000, .all, "[code]"⟩,
    ⟨0x601000, 0x1000, .all, "[heap]"⟩], 0x601000, 0x602000⟩
  { vk with uc := { vk.uc with bytes := fun x => if x = 0x601800 then 1 else 0 } }

theorem heapReady_onePageHeap : onePageHeap.HeapReady := by
  have aligned : ∀ r ∈ onePageHeap.mem.regions, Aligned r.start ∧ Aligned r.size := by decide
  have nonempty : ∀ r ∈ onePageHeap.mem.regions, r.size ≠ 0 := by decide
  have disjoint : Disjoint onePageHeap.mem.regions := by
    refine .cons (fun s hs x first second => ?_) (List.pairwise_singleton _ _)
    rw [List.mem_singleton.1 hs, VMemRegion.mem_iff] at second
    rw [VMemRegion.mem_iff] at first
    exact absurd (Nat.lt_of_le_of_lt second.1 first.2) (by decide)
  have mirrors : Mirrors onePageHeap.mem.regions onePageHeap.uc :=
    (Mirrors.ofRegions aligned nonempty disjoint).congr fun _ => rfl
  have heap : (⟨0x601000, 0x1000, .all, "[heap]"⟩ : VMemRegion) ∈ onePageHeap.mem.regions := by
    decide
  refine .inl (heapOpen_of_region ⟨aligned, nonempty, by decide, disjoint⟩ mirrors heap rfl rfl rfl
    (by decide) (fun x hx => ?_) (by decide))
  exact Unicorn.protAt_ofRegions aligned disjoint heap hx

/-- `brk(0x601000)`. -/
def lowerBreak : SubCtx := ⟨0x601000, 0, 0, 0, 0, 0⟩

/-- `brk(0x602000)`. -/
def raiseBreak : SubCtx := ⟨0x602000, 0, 0, 0, 0, 0⟩

/-- `brk(0x603000)`. -/
def growBreak : SubCtx := ⟨0x603000, 0, 0, 0, 0, 0⟩

theorem brk_exact_onePageHeap : ∃ vk', (sysBrk growBreak).Ends onePageHeap (.ok 0x603000) vk' ∧
    BreakContract 0x603000 (.ok 0x603000) onePageHeap vk' := by
  have run : ∃ vk', (sysBrk growBreak).Ends onePageHeap (.ok 0x603000) vk' := ⟨_, rfl⟩
  obtain ⟨vk', run⟩ := run
  refine ⟨vk', run, (brk_exact heapReady_onePageHeap .refl run).2 (.inr (.inr ⟨by decide, ?_⟩))⟩
  intro x above below old
  have stop : onePageHeap.mem.mappedHeapEnd = onePageHeap.mem.heapAddrExit := rfl
  exact absurd (stop ▸ old) (not_lt.2 above)

/-- A break that is lowered and raised again hands out the byte that the guest has left. -/
theorem raised_break_not_clear : ¬ ∀ (vk₀ vk vk' : Valkyrie) (sctx : SubCtx)
    (r : Except ValkyrieError U64), vk₀.HeapReady → HeapRun vk₀ vk → (sysBrk sctx).Ends vk r vk' →
      BreakContract sctx.arg0 r vk vk' := by
  intro always
  have runs : ∃ vk vk', (sysBrk lowerBreak).Ends onePageHeap (.ok 0x601000) vk ∧
      (sysBrk raiseBreak).Ends vk (.ok 0x602000) vk' ∧ vk.mem.heapAddrExit = 0x601000 ∧
      vk'.uc.readAt 0x601800 = some 1 := ⟨_, _, rfl, rfl, rfl, rfl⟩
  obtain ⟨vk, vk', lower, raise, low, dirty⟩ := runs
  obtain ⟨v, same, ⟨old, -⟩ | moved⟩ :=
    always _ _ _ _ _ heapReady_onePageHeap (.single (.brk _ lower)) raise
  · rw [low] at old
    subst old
    cases same
  · cases same
    have clear := (moved.clear 0x601800 (by rw [low]; decide) (by decide)).2
    rw [dirty] at clear
    cases clear

end ValkyrieRs

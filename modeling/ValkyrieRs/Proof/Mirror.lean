import ValkyrieRs.Proof.MemoryCalls

/-!
# The region list mirrors the engine

The two copies of the memory map agree when the listed regions are non-empty and disjoint and
cover exactly the mapped pages.  Every call keeps the agreement, except a `MAP_FIXED` mapping over
a range that is mapped only in part (the engine refuses to unmap it, the list is edited anyway) and
the removal of the lower part of a region that reaches the end of the address space.
-/

namespace ValkyrieRs

open Proc

/-- The listed regions are non-empty and disjoint and cover exactly the mapped pages. -/
structure Mirrors (regions : List VMemRegion) (uc : Unicorn) : Prop where
  nonempty : ∀ r ∈ regions, r.size ≠ 0
  disjoint : Disjoint regions
  exact : ∀ x, (∃ r ∈ regions, x ∈ r) ↔ (uc.protAt x).isSome

/-- The first address of the page. -/
def pageBase (x : U64) : U64 := alignDown x pageSize

@[simp] theorem toNat_pageBase (x : U64) : (pageBase x).toNat = x.toNat / 4096 * 4096 :=
  toNat_alignDown x

@[simp] theorem pageBase_pageBase (x : U64) : pageBase (pageBase x) = pageBase x := by
  apply BitVec.eq_of_toNat_eq
  rw [toNat_pageBase, toNat_pageBase]
  omega

@[simp] theorem Unicorn.protAt_pageBase (uc : Unicorn) (x : U64) :
    uc.protAt (pageBase x) = uc.protAt x := by
  simp [protAt]

theorem ne_u64Max_of_aligned {a : U64} (h : Aligned a) : a ≠ u64Max := by
  rintro rfl
  rw [Aligned, toNat_u64Max] at h
  omega

variable {vk vk' : Valkyrie} {mem : VMemory} {uc uc' : Unicorn} {addr size x : U64} {prot : Prot}
  {info : String} {regions : List VMemRegion} {sctx : SubCtx}

/-! ## One edit of both copies -/

/-- An address inside both the region and the range. -/
theorem VMemRegion.Meets.exists_mem {r : VMemRegion} (h : r.Meets addr size) (hr : r.size ≠ 0)
    (hs : size ≠ 0) : ∃ x ∈ r, InRange addr size.toNat x := by
  have hr : 0 < r.size.toNat := by bv_omega
  have hs : 0 < size.toNat := by bv_omega
  unfold Meets at h
  simp only [mem_iff, InRange]
  rcases Nat.le_total addr.toNat r.start.toNat with le | le
  · exact ⟨r.start, by omega, by omega⟩
  · exact ⟨addr, by omega, by omega⟩

theorem Mirrors.map (h : Mirrors mem.regions uc) (mapped : uc.memMap addr size prot = .ok uc') :
    Mirrors (mem.addRegion ⟨addr, size, prot, info⟩).regions uc' := by
  have range := Unicorn.Mappable.of_memMap mapped
  obtain ⟨prots, -, -⟩ := Unicorn.memMap_effect mapped
  refine ⟨?_, ?_, fun x => ?_⟩
  · intro r hr
    rcases List.mem_append.1 hr with hr | hr
    · exact h.nonempty r hr
    · rw [List.mem_singleton.1 hr]
      exact range.size_ne
  · refine List.pairwise_append.2 ⟨h.disjoint, List.pairwise_singleton _ _, ?_⟩
    rintro r hr s hs x hx hxs
    rw [List.mem_singleton.1 hs] at hxs
    have listed := (h.exact x).1 ⟨r, hr, hx⟩
    rw [range.free x hxs] at listed
    cases listed
  · rw [prots x]
    simp only [VMemory.addRegion_regions, List.mem_append, List.mem_singleton, or_and_right,
      exists_or, exists_eq_left, h.exact x]
    by_cases inside : InRange addr size.toNat x
    · simp only [inside, if_true, Option.isSome_some, iff_true]
      exact .inr inside
    · simp only [inside, if_false, or_iff_left_iff_imp]
      exact fun hx => absurd hx inside

/-- A range removed from both copies. -/
theorem Mirrors.unmap (h : Mirrors mem.regions uc) (aligned : Aligned addr)
    (unmapped : uc.memUnmap addr size = .ok uc')
    (top : size ≠ 0 → ∀ r ∈ mem.regions, r.TopSafe addr size) :
    Mirrors (mem.removeRange addr size).regions uc' := by
  by_cases hs : size = 0
  · subst hs
    rw [Unicorn.memUnmap_zero] at unmapped
    cases unmapped
    simpa using h
  have range := Unicorn.Unmappable.of_memUnmap unmapped hs
  obtain ⟨prots, -, -⟩ := Unicorn.memUnmap_effect unmapped
  refine ⟨?_, VMemory.disjoint_removeRange h.disjoint, fun x => ?_⟩
  · intro p hp
    obtain ⟨r, hr, -, -, nonempty⟩ := VMemory.of_mem_removeRange hp
    exact nonempty (h.nonempty r hr)
  · rw [VMemory.exists_mem_removeRange range.mapped.1 (ne_u64Max_of_aligned aligned) (top hs),
      h.exact x, prots x]
    by_cases inside : InRange addr size.toNat x <;> simp [inside]

/-- The engine maps the same pages. -/
theorem Mirrors.congr (h : Mirrors regions uc)
    (same : ∀ x, (uc'.protAt x).isSome = (uc.protAt x).isSome) : Mirrors regions uc' :=
  ⟨h.nonempty, h.disjoint, fun x => by rw [same x]; exact h.exact x⟩

/-- Regions relabelled in place. -/
theorem Mirrors.relabel {f : VMemRegion → VMemRegion} (h : Mirrors regions uc)
    (labels : Relabels f) : Mirrors (regions.map f) uc := by
  refine ⟨?_, h.disjoint.relabel labels, fun x => ?_⟩
  · intro r hr
    obtain ⟨s, hs, rfl⟩ := List.mem_map.1 hr
    rw [(labels s).2]
    exact h.nonempty s hs
  · rw [← h.exact x]
    simp only [List.mem_map, exists_exists_and_eq_and, labels.mem_iff]

/-- The loop of `sys_mprotect` changes only labels. -/
theorem relabels_protect (start stop : U64) (prot : Prot) : Relabels fun r : VMemRegion =>
    if start < r.start + r.size ∧ stop > r.start then { r with prot } else r := by
  intro r
  simp only
  split_ifs <;> exact ⟨rfl, rfl⟩

theorem Unicorn.isSome_protAt_memProtect (h : uc.memProtect addr size prot = .ok uc') (x : U64) :
    (uc'.protAt x).isSome = (uc.protAt x).isSome := by
  by_cases hs : size = 0
  · subst hs
    rw [memProtect_zero] at h
    cases h
    rfl
  · rw [(memProtect_effect h).1 x]
    split_ifs with inside
    · rw [(Unmappable.of_memProtect h hs).mapped.2 x inside]
      rfl
    · rfl

theorem Mirrors.protect {start stop : U64} (h : Mirrors mem.regions uc)
    (ok : uc.memProtect addr size prot = .ok uc') :
    Mirrors (mem.protectRegions start stop prot).regions uc' := by
  exact (h.congr (Unicorn.isSome_protAt_memProtect ok)).relabel (relabels_protect start stop prot)

/-! ## `MAP_FIXED` -/

/-- No page of the range is mapped. -/
def Unicorn.Free (uc : Unicorn) (addr size : U64) : Prop :=
  ∀ x, InRange addr size.toNat x → uc.protAt x = none

/-- A free range meets no region, and unmapping it changes nothing. -/
theorem Mirrors.not_meets (h : Mirrors regions uc) (free : uc.Free addr size) (hs : size ≠ 0)
    {r : VMemRegion} (hr : r ∈ regions) : ¬ r.Meets addr size := by
  intro meets
  obtain ⟨x, hx, inside⟩ := meets.exists_mem (h.nonempty r hr) hs
  have listed := (h.exact x).1 ⟨r, hr, hx⟩
  rw [free x inside] at listed
  cases listed

theorem Unicorn.unmapped_of_free (free : uc.Free addr size) : uc.unmapped addr size = uc := by
  unfold unmapped
  by_cases hs : size = 0
  · subst hs
    rw [memUnmap_zero]
  · cases h : uc.memUnmap addr size with
    | error e => rfl
    | ok uc' =>
      have range := Unmappable.of_memUnmap h hs
      have first : InRange addr size.toNat addr := by
        have : 0 < size.toNat := by bv_omega
        exact ⟨Nat.le_refl _, by omega⟩
      have mapped := range.mapped.2 addr first
      rw [free addr first] at mapped
      cases mapped

theorem Mirrors.replaced_eq (h : Mirrors vk.mem.regions vk.uc) (free : vk.uc.Free addr size) :
    vk.replaced addr size = vk := by
  have kept : vk.mem.removeRange addr size = vk.mem := by
    by_cases hs : size = 0
    · subst hs
      simp
    · exact VMemory.removeRange_eq_self fun r hr => h.not_meets free hs hr
  rw [Valkyrie.replaced, kept, Unicorn.unmapped_of_free free]
  rfl

/-- The address found by the search starts a free range. -/
theorem Mirrors.free_of_search (h : Mirrors mem.regions uc)
    (found : mem.nextMmapAddr size = some addr) : uc.Free addr size := by
  obtain ⟨aligned, clear⟩ := VMemory.nextMmapAddr_spec found
  intro x inside
  by_contra mapped
  rw [← Unicorn.protAt_pageBase, ← ne_eq, Option.ne_none_iff_isSome, ← h.exact] at mapped
  obtain ⟨r, hr, hx⟩ := mapped
  have apart := clear r hr
  have last := x.isLt
  simp only [VMemRegion.mem_iff, toNat_pageBase] at hx
  simp only [BitVec.le_def, VMemRegion.toNat_satEnd, toNat_satAdd] at apart
  unfold InRange at inside
  unfold Aligned at aligned
  omega

/-- The `MAP_FIXED` branch edits both copies alike: the range is entirely mapped and no region
loses its last byte to rounding, or no page of it is mapped. -/
def Valkyrie.ReplacesBoth (vk : Valkyrie) (addr size : U64) : Prop :=
  (vk.uc.Unmappable addr size ∧ ∀ r ∈ vk.mem.regions, r.TopSafe addr size) ∨
    vk.uc.Free addr size

theorem Mirrors.replaced (h : Mirrors vk.mem.regions vk.uc) (aligned : Aligned addr)
    (both : vk.ReplacesBoth addr size) :
    Mirrors (vk.replaced addr size).mem.regions (vk.replaced addr size).uc := by
  obtain ⟨range, top⟩ | free := both
  · obtain ⟨uc, unmapped⟩ := (Unicorn.memUnmap_ok_iff range.size_ne).2 range
    have engine : (vk.replaced addr size).uc = uc := by
      simp [Valkyrie.replaced, Unicorn.unmapped, unmapped]
    rw [engine]
    exact h.unmap aligned unmapped fun _ => top
  · rw [h.replaced_eq free]
    exact h

/-! ## Every call -/

/-- The call edits both copies of the memory map alike. -/
def MemCall.EditsBoth (vk : Valkyrie) : MemCall → Prop
  | .mmap sctx | .mmap2 sctx =>
    sctx.UseFixed → sctx.arg0 ≠ 0 → ¬ sctx.MmapRefused → vk.ReplacesBoth sctx.arg0 sctx.mapLen
  | .munmap sctx =>
    sctx.arg0 ≠ 0 → vk.uc.Unmappable sctx.arg0 sctx.mapLen →
      ∀ r ∈ vk.mem.regions, r.TopSafe sctx.arg0 sctx.mapLen
  | _ => True

theorem aligned_of_accepted (accepted : ¬ sctx.MmapRefused) : Aligned sctx.arg0 := by
  by_contra unaligned
  exact accepted (.inr unaligned)

theorem Mirrors.starts {c : MemCall} (h : Mirrors vk.mem.regions vk.uc) (both : c.EditsBoth vk)
    (starts : c.Starts vk vk') : Mirrors vk'.mem.regions vk'.uc := by
  cases starts with
  | nothing => exact h
  | search ctx found =>
    rw [h.replaced_eq (h.free_of_search found)]
    exact h
  | replace ctx fixed null accepted =>
    refine h.replaced (aligned_of_accepted accepted) ?_
    cases c <;> cases ctx
    · exact both fixed null accepted
    · exact both fixed null accepted
  | unmap null accepted ok =>
    exact h.unmap (aligned_of_accepted accepted) ok fun hs =>
      both null (Unicorn.Unmappable.of_memUnmap ok hs)
  | protect _ ok => exact h.protect ok

theorem Mirrors.grows (h : Mirrors vk.mem.regions vk.uc) (grows : Grows vk vk') :
    Mirrors vk'.mem.regions vk'.uc := by
  cases grows with
  | map info ok => exact h.map ok
  | keep regions _ pages =>
    rw [regions]
    exact h.congr fun x => by rw [Unicorn.protAt, pages, Unicorn.protAt]

/-- One call keeps the two copies in agreement. -/
theorem Mirrors.step {c : MemCall} (h : Mirrors vk.mem.regions vk.uc) (both : c.EditsBoth vk)
    (does : c.Does vk vk') : Mirrors vk'.mem.regions vk'.uc := by
  obtain ⟨vk₁, starts, grown⟩ := does.edits
  have first := h.starts both starts
  clear does starts
  induction grown with
  | refl => exact first
  | tail _ last ih => exact ih.grows last

/-! ## Emulators over a given memory map -/

/-- A region contains the first address of a page when it contains the address. -/
theorem VMemRegion.pageBase_mem_iff {r : VMemRegion} (start : Aligned r.start)
    (size : Aligned r.size) : pageBase x ∈ r ↔ x ∈ r := by
  unfold Aligned at start size
  rw [mem_iff, mem_iff, toNat_pageBase]
  omega

/-- In the engine made from aligned, disjoint regions, each has its protection. -/
theorem Unicorn.protAt_ofRegions (aligned : ∀ r ∈ regions, Aligned r.start ∧ Aligned r.size)
    (disjoint : Disjoint regions) {r : VMemRegion} (hr : r ∈ regions) (hx : x ∈ r) :
    (ofRegions regions).protAt x = some r.prot := by
  have page (s : VMemRegion) (hs : s ∈ regions) : s.start.toNat ≤ x.toNat / 4096 * 4096 ∧
      x.toNat / 4096 * 4096 < s.start.toNat + s.size.toNat ↔ x ∈ s := by
    rw [← VMemRegion.pageBase_mem_iff (aligned s hs).1 (aligned s hs).2, VMemRegion.mem_iff,
      toNat_pageBase]
  have found : ∃ s, (regions.find? fun s => s.start.toNat ≤ x.toNat / 4096 * 4096 ∧
      x.toNat / 4096 * 4096 < s.start.toNat + s.size.toNat) = some s := by
    rw [← Option.isSome_iff_exists, List.find?_isSome]
    exact ⟨r, hr, decide_eq_true ((page r hr).2 hx)⟩
  obtain ⟨s, found⟩ := found
  have hs := List.mem_of_find?_eq_some found
  have hx' := List.find?_some found
  rw [decide_eq_true_eq, page s hs] at hx'
  rw [disjoint.eq_of_mem hr hs hx hx']
  exact congrArg (Option.map (·.prot)) found

/-- The regions mirror the engine made from them. -/
theorem Mirrors.ofRegions (aligned : ∀ r ∈ regions, Aligned r.start ∧ Aligned r.size)
    (nonempty : ∀ r ∈ regions, r.size ≠ 0) (disjoint : Disjoint regions) :
    Mirrors regions (Unicorn.ofRegions regions) := by
  refine ⟨nonempty, disjoint, fun x => ?_⟩
  simp only [Unicorn.protAt, Unicorn.ofRegions, Option.isSome_map, List.find?_isSome,
    decide_eq_true_eq]
  refine exists_congr fun r => and_congr_right fun hr => ?_
  rw [← VMemRegion.pageBase_mem_iff (aligned r hr).1 (aligned r hr).2, VMemRegion.mem_iff,
    toNat_pageBase]

/-- One page is mapped. -/
def onePage : Valkyrie :=
  .ofMemory .x86_64 ⟨[⟨0x1000, 0x1000, ⟨true, true, false⟩, "[mmap]"⟩], 0, 0⟩

theorem mirrors_onePage : Mirrors onePage.mem.regions onePage.uc := by
  refine Mirrors.ofRegions ?_ ?_ (List.pairwise_singleton _ _) <;> decide

/-- Two pages are mapped as one region. -/
def twoPages : Valkyrie :=
  .ofMemory .x86_64 ⟨[⟨0x1000, 0x2000, ⟨true, true, false⟩, "[mmap]"⟩], 0, 0⟩

/-- `mmap(0x1000, 0x2000, PROT_READ | PROT_WRITE, MAP_FIXED | MAP_ANONYMOUS, -1, 0)`. -/
def mmapOverOnePage : SubCtx := ⟨0x1000, 0x2000, 3, 0x30, -1, 0⟩

/-- The fixed mapping over a mapped and an unmapped page leaves the page mapped and drops its
region. -/
theorem mirrors_lost_by_mmap : ¬ ∀ vk vk' : Valkyrie,
    Relation.ReflTransGen (fun vk vk' => ∃ c : MemCall, c.Does vk vk') vk vk' →
      Mirrors vk.mem.regions vk.uc → Mirrors vk'.mem.regions vk'.uc := by
  intro kept
  have does : ∃ vk', (MemCall.mmap mmapOverOnePage).Does onePage vk' ∧ vk'.mem.regions = [] ∧
      (vk'.uc.protAt 0x1000).isSome := ⟨_, ⟨_, rfl⟩, rfl, rfl⟩
  obtain ⟨vk', does, gone, mapped⟩ := does
  have after := kept onePage vk' (.single ⟨_, does⟩) mirrors_onePage
  rw [← after.exact, gone] at mapped
  simp at mapped

/-- In every run whose calls edit both copies alike, they agree in every state reached. -/
theorem mirrors_of_run
    (run : Relation.ReflTransGen
      (fun vk vk' => ∃ c : MemCall, c.EditsBoth vk ∧ c.Does vk vk') vk vk')
    (start : Mirrors vk.mem.regions vk.uc) : Mirrors vk'.mem.regions vk'.uc := by
  induction run with
  | refl => exact start
  | tail _ step ih =>
    obtain ⟨c, both, does⟩ := step
    exact ih.step both does

/-- Unmapping the page is a call that edits both copies. -/
theorem mirrors_of_run_munmap : ∃ vk' : Valkyrie, Mirrors vk'.mem.regions vk'.uc ∧ vk'.mem.regions = [] := by
  have does : ∃ vk', (MemCall.munmap ⟨0x1000, 0x1000, 0, 0, 0, 0⟩).Does onePage vk' ∧
      vk'.mem.regions = [] := ⟨_, ⟨_, rfl⟩, rfl⟩
  obtain ⟨vk', does, gone⟩ := does
  refine ⟨vk', mirrors_of_run (.single ⟨_, ?_, does⟩) mirrors_onePage, gone⟩
  intro _ _ r hr reach
  rw [List.mem_singleton.1 hr] at reach
  exact absurd reach (by decide)

end ValkyrieRs

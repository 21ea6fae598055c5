import Mathlib.Data.List.MinMax
import Mathlib.Order.Interval.Finset.Nat
import ValkyrieRs.Lib.Runs
import ValkyrieRs.Loader.Elf
import ValkyrieRs.Proof.Regions

/-!
# The chunks of a segment

`map_segment_by_section` maps the pages of a segment in the longest runs of pages with one name:
the section that overlaps a page most names it.  The loop is described once, by the list of calls
of `mem.map` that it makes.
-/

namespace ValkyrieRs

open Proc

variable {vk vk' : Valkyrie} {prot : Prot} {sections : List SectionSpan}
  {namePrefix : Option String} {page : U64}

/-! ## The name of a page -/

/-- How many addresses the section and the page share. -/
def SectionSpan.overlap (s : SectionSpan) (page : U64) : ℕ :=
  (Finset.Ico page.toNat (page.toNat + 4096) ∩ Finset.Ico s.start.toNat s.stop.toNat).card

/-- The section that shares most addresses with the page, the first of them if there are several. -/
def pageSection (sections : List SectionSpan) (page : U64) : Option SectionSpan :=
  (sections.filter fun s => 0 < s.overlap page).argmax fun s => s.overlap page

/-- The name of that section, or `segment`. -/
def pageName (sections : List SectionSpan) (page : U64) : String :=
  (pageSection sections page).elim "segment" SectionSpan.name

theorem SectionSpan.overlap_eq (s : SectionSpan) (page : U64) :
    s.overlap page = min (page.toNat + 4096) s.stop.toNat - max page.toNat s.start.toNat := by
  rw [overlap, Finset.Ico_inter_Ico, Nat.card_Ico]

theorem pageSection_skip {before : List SectionSpan} {s : SectionSpan}
    (none_ : s.overlap page = 0) : pageSection (before ++ [s]) page = pageSection before page := by
  unfold pageSection
  rw [List.filter_append, List.filter_cons_of_neg (by simp [none_]), List.filter_nil,
    List.append_nil]

theorem pageSection_share {before : List SectionSpan} {s : SectionSpan}
    (some_ : 0 < s.overlap page) : pageSection (before ++ [s]) page =
      (pageSection before page).elim (some s) fun best =>
        if best.overlap page < s.overlap page then some s else some best := by
  unfold pageSection
  rw [List.filter_append, List.filter_cons_of_pos (by simp [some_]), List.filter_nil,
    List.argmax_concat]
  cases (before.filter fun s => 0 < s.overlap page).argmax fun s => s.overlap page <;> rfl

/-- The body of the loop of `section_name_for_page`. -/
def nameStep (pageStart pageEnd : U64) (best : String × U64) (s : SectionSpan) : String × U64 :=
  if s.stop ≤ pageStart ∨ pageEnd ≤ s.start then best
  else
    let overlap := satSub (min pageEnd s.stop) (max pageStart s.start)
    if best.2 < overlap then (s.name, overlap) else best

theorem sectionNameForPage_foldl (pageStart pageEnd : U64) :
    sectionNameForPage pageStart pageEnd sections =
      "[" ++ (sections.foldl (nameStep pageStart pageEnd) ("segment", 0)).1 ++ "]" := rfl

/-- The loop of `section_name_for_page` keeps the first section of largest overlap. -/
theorem foldl_nameStep (fits : page.toNat + 4096 < 2 ^ 64) :
    sections.foldl (nameStep page (page + pageSize)) ("segment", 0) =
      (pageName sections page, BitVec.ofNat 64
        ((pageSection sections page).elim 0 fun s => s.overlap page)) := by
  have pageEnd : (page + pageSize).toNat = page.toNat + 4096 := by
    rw [BitVec.toNat_add, toNat_pageSize]
    omega
  have small (s : SectionSpan) : s.overlap page < 2 ^ 64 := by
    rw [s.overlap_eq]
    omega
  have shared (s : SectionSpan) : satSub (min (page + pageSize) s.stop) (max page s.start) =
      BitVec.ofNat 64 (s.overlap page) := by
    apply BitVec.eq_of_toNat_eq
    rw [toNat_satSub, toNat_min, toNat_max, pageEnd, ← s.overlap_eq, BitVec.toNat_ofNat,
      Nat.mod_eq_of_lt (small s)]
  induction sections using List.reverseRecOn with
  | nil => rfl
  | append_singleton before s ih =>
    have overlap := s.overlap_eq page
    rw [List.foldl_append, ih, List.foldl_cons, List.foldl_nil, nameStep]
    by_cases apart : s.stop ≤ page ∨ page + pageSize ≤ s.start
    · have none_ : s.overlap page = 0 := by
        simp only [BitVec.le_def, pageEnd] at apart
        omega
      rw [if_pos apart, pageName, pageName, pageSection_skip none_]
    · rw [if_neg apart, shared]
      simp only [BitVec.lt_def, BitVec.toNat_ofNat, Nat.mod_eq_of_lt (small s)]
      by_cases some_ : 0 < s.overlap page
      · rw [pageName, pageName, pageSection_share some_]
        cases pageSection before page with
        | none => simp [some_]
        | some best =>
          simp only [Option.elim_some, Nat.mod_eq_of_lt (small best)]
          split_ifs <;> rfl
      · rw [if_neg (by omega), pageName, pageName, pageSection_skip (by omega)]

/-- The name of a page is that of the section which shares most addresses with it. -/
theorem sectionNameForPage_eq (fits : page.toNat + 4096 < 2 ^ 64) :
    sectionNameForPage page (page + pageSize) sections = "[" ++ pageName sections page ++ "]" := by
  rw [sectionNameForPage_foldl, foldl_nameStep fits]

/-! ## The next page -/

section NextPage

variable {current alignedEnd x : U64}

theorem toNat_nextPage (more : current.toNat + 4096 < 2 ^ 64) :
    (current + pageSize).toNat = current.toNat + 4096 := by
  rw [BitVec.toNat_add, toNat_pageSize]
  omega

variable (aligned : Aligned current) (endAligned : Aligned alignedEnd) (more : current < alignedEnd)

include aligned endAligned more

theorem nextPage_fits : current.toNat + 4096 < 2 ^ 64 := by
  have below : current.toNat < alignedEnd.toNat := more
  have small := alignedEnd.isLt
  unfold Aligned at aligned endAligned
  omega

theorem aligned_nextPage : Aligned (current + pageSize) := by
  have next := toNat_nextPage (nextPage_fits aligned endAligned more)
  unfold Aligned at aligned ⊢
  omega

theorem nextPage_le : current + pageSize ≤ alignedEnd := by
  have next := toNat_nextPage (nextPage_fits aligned endAligned more)
  have below : current.toNat < alignedEnd.toNat := more
  unfold Aligned at aligned endAligned
  rw [BitVec.le_def]
  omega

theorem lt_nextPage : current < current + pageSize := by
  have next := toNat_nextPage (nextPage_fits aligned endAligned more)
  rw [BitVec.lt_def]
  omega

/-- No page lies between a page and the next. -/
theorem le_or_eq_nextPage (page : Aligned x) (high : x ≤ current + pageSize) :
    x ≤ current ∨ x = current + pageSize := by
  have next := toNat_nextPage (nextPage_fits aligned endAligned more)
  unfold Aligned at page aligned
  rw [BitVec.le_def] at high ⊢
  rcases Nat.lt_or_ge x.toNat (current + pageSize).toNat with lt | ge
  · exact .inl (by omega)
  · exact .inr (BitVec.eq_of_toNat_eq (by omega))

end NextPage

/-! ## The calls -/

/-- The call of `mem.map` that makes a region. -/
def mapRegion (r : VMemRegion) : VkM Unit := memMap r.start r.size r.prot r.info

/-- The region of a run of pages. -/
def runRegion (prot : Prot) (run : Segment U64 String) : VMemRegion :=
  ⟨run.lo, satSub run.hi run.lo, prot, run.label⟩

section Step

variable {alignedEnd chunkStart current : U64} {fuel : ℕ} {chunkLabel : String}

/-- A page with the label of the open chunk joins it. -/
theorem mapChunks_join (more : current < alignedEnd) (last : current + pageSize < alignedEnd)
    (same : pageLabel sections namePrefix (current + pageSize) = chunkLabel) :
    mapChunks alignedEnd prot sections namePrefix (fuel + 1) chunkStart current chunkLabel =
      mapChunks alignedEnd prot sections namePrefix fuel chunkStart (current + pageSize)
        chunkLabel := by
  rw [mapChunks, if_pos more]
  simp only [if_pos last]
  rw [if_neg (by simp [same, last])]

/-- A page with another label ends the open chunk. -/
theorem mapChunks_turn (more : current < alignedEnd) (last : current + pageSize < alignedEnd)
    (other : pageLabel sections namePrefix (current + pageSize) ≠ chunkLabel) :
    mapChunks alignedEnd prot sections namePrefix (fuel + 1) chunkStart current chunkLabel =
      (do
        mapRegion (runRegion prot ⟨chunkStart, current + pageSize, chunkLabel⟩)
        mapChunks alignedEnd prot sections namePrefix fuel (current + pageSize)
          (current + pageSize) (pageLabel sections namePrefix (current + pageSize))) := by
  rw [mapChunks, if_pos more]
  simp only [if_pos last]
  rw [if_pos (.inr other)]
  rfl

/-- The last page of the segment ends the open chunk. -/
theorem mapChunks_last (more : current < alignedEnd) (last : ¬ current + pageSize < alignedEnd) :
    mapChunks alignedEnd prot sections namePrefix (fuel + 1) chunkStart current chunkLabel =
      (do
        mapRegion (runRegion prot ⟨chunkStart, current + pageSize, chunkLabel⟩)
        mapChunks alignedEnd prot sections namePrefix fuel (current + pageSize)
          (current + pageSize) chunkLabel) := by
  rw [mapChunks, if_pos more]
  simp only [if_neg last]
  rw [if_pos (.inl (not_lt.1 last))]
  rfl

end Step

/-- The calls are those of the longest runs of pages with one label, from the start of the open
chunk to the end of the segment. -/
theorem mapChunks_runs {alignedEnd chunkStart current : U64} {fuel : ℕ} {chunkLabel : String}
    (endAligned : Aligned alignedEnd) (aligned : Aligned current)
    (behind : chunkStart ≤ current) (within : current ≤ alignedEnd)
    (finished : current = alignedEnd → chunkStart = alignedEnd)
    (labelled : current < alignedEnd → ∀ x, Aligned x → chunkStart ≤ x → x ≤ current →
      chunkLabel = pageLabel sections namePrefix x)
    (enough : alignedEnd.toNat / 4096 + 1 ≤ current.toNat / 4096 + fuel) :
    ∃ runs, mapChunks alignedEnd prot sections namePrefix fuel chunkStart current chunkLabel =
        (runs.map (runRegion prot)).forM mapRegion ∧
      Segment.Runs (pageLabel sections namePrefix) Aligned chunkStart alignedEnd runs := by
  induction fuel generalizing chunkStart current chunkLabel with
  | zero =>
    rw [BitVec.le_def] at within
    omega
  | succ fuel ih =>
    by_cases more : current < alignedEnd
    · have next := toNat_nextPage (nextPage_fits aligned endAligned more)
      have nextAligned := aligned_nextPage aligned endAligned more
      have nextWithin := nextPage_le aligned endAligned more
      have after := lt_nextPage aligned endAligned more
      have chunk (x : U64) (page : Aligned x) (low : chunkStart ≤ x)
          (high : x < current + pageSize) : chunkLabel = pageLabel sections namePrefix x :=
        labelled more x page low
          ((le_or_eq_nextPage aligned endAligned more page high.le).resolve_right high.ne)
      by_cases last : current + pageSize < alignedEnd
      · by_cases same : pageLabel sections namePrefix (current + pageSize) = chunkLabel
        · rw [mapChunks_join more last same]
          refine ih nextAligned (behind.trans after.le) nextWithin
            (fun eq => absurd eq last.ne) (fun _ x page low high => ?_) (by omega)
          rcases le_or_eq_nextPage aligned endAligned more page high with lower | rfl
          · exact labelled more x page low lower
          · exact same.symm
        · obtain ⟨runs, calls, filled⟩ := @ih (current + pageSize) (current + pageSize)
            (pageLabel sections namePrefix (current + pageSize)) nextAligned le_rfl nextWithin id
            (fun _ x _ low high => by rw [le_antisymm high low]) (by omega)
          refine ⟨⟨chunkStart, current + pageSize, chunkLabel⟩ :: runs, ?_, ?_⟩
          · rw [mapChunks_turn more last same, calls]
            rfl
          · refine filled.cons (behind.trans_lt after) chunk fun t ht => ?_
            rw [filled.head_label nextAligned t ht]
            exact fun eq => same eq.symm
      · have done : current + pageSize = alignedEnd := le_antisymm nextWithin (not_lt.1 last)
        obtain ⟨runs, calls, filled⟩ := @ih (current + pageSize) (current + pageSize) chunkLabel
          nextAligned le_rfl nextWithin id (fun more => absurd more last) (by omega)
        have none_ : runs = [] := by
          rw [done] at filled
          exact filled.fills.eq_nil
        refine ⟨⟨chunkStart, current + pageSize, chunkLabel⟩ :: runs, ?_, ?_⟩
        · rw [mapChunks_last more last, calls]
          rfl
        · refine filled.cons (behind.trans_lt after) chunk ?_
          rw [none_]
          exact nofun
    · rw [mapChunks, if_neg more, finished (le_antisymm within (not_lt.1 more))]
      exact ⟨[], rfl, .nil _⟩

section Calls

variable {alignedStart alignedEnd : U64}

/-- `map_segment_by_section` maps the longest runs of pages with one label. -/
theorem mapSegmentBySection_runs (first : Aligned alignedStart) (last : Aligned alignedEnd)
    (before : alignedStart ≤ alignedEnd) :
    ∃ runs, mapSegmentBySection alignedStart alignedEnd prot sections namePrefix =
        (runs.map (runRegion prot)).forM mapRegion ∧
      Segment.Runs (pageLabel sections namePrefix) Aligned alignedStart alignedEnd runs := by
  refine mapChunks_runs last first le_rfl before id (fun _ x _ low high => ?_) (by omega)
  rw [le_antisymm high low]

/-- Nothing is mapped when the end has wrapped. -/
theorem mapSegmentBySection_of_lt (wrapped : alignedEnd < alignedStart) :
    mapSegmentBySection alignedStart alignedEnd prot sections namePrefix = pure () := by
  rw [mapSegmentBySection, mapChunks, if_neg (not_lt.2 wrapped.le)]

end Calls

theorem ends_mapRegion_ok {r : VMemRegion} : (mapRegion r).Ends vk (.ok ()) vk' ↔
    ∃ uc, vk.uc.memMap r.start r.size r.prot = .ok uc ∧
      vk' = vk.withMem (vk.mem.addRegion r) uc := by
  rw [mapRegion, ends_memMap]
  constructor
  · rintro (⟨uc, ok, -, rfl⟩ | ⟨e, -, failed, -⟩)
    · exact ⟨uc, ok, rfl⟩
    · cases failed
  · rintro ⟨uc, ok, rfl⟩
    exact .inl ⟨uc, ok, rfl, rfl⟩

/-- Calls that all succeed add their regions to the list. -/
theorem regions_of_mapRegions {calls : List VMemRegion}
    (run : (calls.forM mapRegion).Ends vk (.ok ()) vk') :
    vk'.mem.regions = vk.mem.regions ++ calls := by
  induction calls generalizing vk with
  | nil =>
    obtain ⟨-, rfl⟩ := ends_forM_nil.1 run
    rw [List.append_nil]
  | cons r calls ih =>
    obtain ⟨vk₁, first, rest⟩ := ends_forM_cons_ok.1 run
    obtain ⟨uc, -, rfl⟩ := ends_mapRegion_ok.1 first
    rw [ih rest, Valkyrie.withMem_mem, VMemory.addRegion_regions, List.append_assoc]
    rfl

/-! ## The partition -/

/-- The calls cover the pages of a segment in order, in chunks that carry the names of their pages, as
`[name]` or with a prefix as `[prefix:name]`, neighbours with different names. -/
structure LabelledPartition (alignedStart alignedEnd : U64) (prot : Prot)
    (sections : List SectionSpan) (namePrefix : Option String) (calls : List VMemRegion) :
    Prop where
  nonempty : ∀ c ∈ calls, c.size ≠ 0
  consecutive : calls.IsChain fun c d => c.start.toNat + c.size.toNat = d.start.toNat
  increasing : calls.Pairwise fun c d => c.start < d.start
  covered : ∀ x, (∃ c ∈ calls, x ∈ c) ↔ alignedStart ≤ x ∧ x < alignedEnd
  prots : ∀ c ∈ calls, c.prot = prot
  labelled : ∀ c ∈ calls, ∀ page, Aligned page → page ∈ c →
    c.info = prefixedSectionName (sectionNameForPage page (page + pageSize) sections) namePrefix ∧
      sectionNameForPage page (page + pageSize) sections = "[" ++ pageName sections page ++ "]"
  differ : calls.IsChain fun c d => c.info ≠ d.info

theorem mem_runRegion {run : Segment U64 String} {x : U64} (nonempty : run.lo < run.hi) :
    x ∈ runRegion prot run ↔ x ∈ run := by
  have size := toNat_satSub run.hi run.lo
  have some_ : run.lo.toNat < run.hi.toNat := nonempty
  rw [VMemRegion.mem_iff, Segment.mem_def, BitVec.le_def, BitVec.lt_def, runRegion]
  simp only
  omega

theorem labelledPartition_of_runs {alignedStart alignedEnd : U64} {runs : List (Segment U64 String)}
    (last : Aligned alignedEnd)
    (h : Segment.Runs (pageLabel sections namePrefix) Aligned alignedStart alignedEnd runs) :
    LabelledPartition alignedStart alignedEnd prot sections namePrefix
      (runs.map (runRegion prot)) where
  nonempty := by
    refine List.forall_mem_map.2 fun run hr => ?_
    have some_ := h.fills.nonempty run hr
    have size := toNat_satSub run.hi run.lo
    rw [runRegion]
    bv_omega
  consecutive := by
    refine (List.isChain_map _).2 (h.fills.isChain.imp_of_mem_imp fun s t hs _ same => ?_)
    have some_ : s.lo.toNat < s.hi.toNat := h.fills.nonempty s hs
    have size := toNat_satSub s.hi s.lo
    simp only [runRegion, ← same]
    omega
  increasing := List.pairwise_map.2 h.fills.increasing
  covered x := by
    rw [← h.fills.covered]
    simp only [List.mem_map, exists_exists_and_eq_and]
    exact exists_congr fun s => and_congr_right fun hs => mem_runRegion (h.fills.nonempty s hs)
  prots := List.forall_mem_map.2 fun _ _ => rfl
  labelled := by
    refine List.forall_mem_map.2 fun run hr page aligned inside => ?_
    rw [mem_runRegion (h.fills.nonempty run hr)] at inside
    have below := (h.fills.covered.1 ⟨run, hr, inside⟩).2
    exact ⟨h.labelled run hr page aligned inside,
      sectionNameForPage_eq (nextPage_fits aligned last below)⟩
  differ := (List.isChain_map _).2 h.differ

/-- Two sections that meet in the second of three pages. -/
def twoSections : List SectionSpan := [⟨0x1010, 0x2100, ".init"⟩, ⟨0x2100, 0x3010, ".text"⟩]

example : mapSegmentBySection 0x1000 0x4000 .all twoSections (some "ld.so") =
    [⟨0x1000, 0x1000, .all, "[ld.so:.init]"⟩, ⟨0x2000, 0x2000, .all, "[ld.so:.text]"⟩].forM
      mapRegion := rfl

end ValkyrieRs

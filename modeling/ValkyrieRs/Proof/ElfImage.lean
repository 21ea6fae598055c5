import Mathlib.Order.Bounds.Basic
import ValkyrieRs.Lib.Overlay
import ValkyrieRs.Proof.SegmentChunks

/-!
# The memory image of an ELF binary

Each loadable segment adds its pages, with its content and zeros, to what is mapped; nothing that
was mapped changes.  The one exception is a segment that reaches into the last page of the address
space: its page end wraps to zero, and nothing is mapped for it.
-/

namespace ValkyrieRs

open Proc

/-- What memory holds at an address: a protection and a byte. -/
def Unicorn.view (uc : Unicorn) (x : U64) : Option (Prot × U8) :=
  (uc.protAt x).map fun prot => (prot, uc.bytes x)

/-- Fresh pages from `lo` to `hi`. -/
def blank (lo hi : ℕ) (prot : Prot) (x : U64) : Option (Prot × U8) :=
  if lo ≤ x.toNat ∧ x.toNat < hi then some (prot, 0) else none

variable {vk vk' : Valkyrie} {uc uc' : Unicorn} {addr size : U64} {prot : Prot}

theorem Unicorn.view_eq_none {x : U64} : uc.view x = none ↔ uc.protAt x = none := by
  rw [view, Option.map_eq_none_iff]

theorem Unicorn.memMap_adds (h : uc.memMap addr size prot = .ok uc') :
    Adds uc.view (blank addr.toNat (addr.toNat + size.toNat) prot) uc'.view := by
  have range := Mappable.of_memMap h
  obtain ⟨pages, bytes, -⟩ := memMap_effect h
  constructor
  · intro x v hx
    rw [blank] at hx
    split_ifs at hx with inside
    rw [view_eq_none]
    exact range.free x inside
  · intro x
    rw [view, pages, bytes, blank]
    by_cases inside : InRange addr size.toNat x
    · have between : addr.toNat ≤ x.toNat ∧ x.toNat < addr.toNat + size.toNat := inside
      rw [if_pos inside, if_pos inside, if_pos between]
      rfl
    · have outside : ¬ (addr.toNat ≤ x.toNat ∧ x.toNat < addr.toNat + size.toNat) := inside
      rw [if_neg inside, if_neg inside, if_neg outside]
      rfl

theorem blank_self (n : ℕ) (x : U64) : blank n n prot x = none := if_neg (by omega)

theorem blank_split {lo mid hi : ℕ} (low : lo ≤ mid) (high : mid ≤ hi) (x : U64) :
    blank lo hi prot x = (blank mid hi prot x).or (blank lo mid prot x) := by
  unfold blank
  by_cases above : mid ≤ x.toNat
  · by_cases inside : x.toNat < hi
    · rw [if_pos (by omega), if_pos (by omega), Option.some_or]
    · rw [if_neg (by omega), if_neg (by omega), if_neg (by omega), Option.none_or]
  · rw [if_neg (by omega : ¬ (mid ≤ x.toNat ∧ x.toNat < hi)), Option.none_or]
    by_cases inside : lo ≤ x.toNat
    · rw [if_pos (by omega), if_pos (by omega)]
    · rw [if_neg (by omega), if_neg (by omega)]

/-! ## Mapping in runs of pages -/

/-- Runs that fill a range of pages map it, afresh. -/
theorem mapRuns_adds {a b : U64} {runs : List (Segment U64 String)}
    (filled : Segment.Fills a b runs)
    (calls : ((runs.map (runRegion prot)).forM mapRegion).Ends vk (.ok ()) vk') :
    Adds vk.uc.view (blank a.toNat b.toNat prot) vk'.uc.view := by
  induction filled generalizing vk with
  | nil =>
    obtain ⟨-, rfl⟩ := ends_forM_nil.1 calls
    exact Adds.of_empty (blank_self _)
  | cons nonempty filled ih =>
    obtain ⟨vk₁, mapped, rest⟩ := ends_forM_cons_ok.1 calls
    obtain ⟨uc, accepted, rfl⟩ := ends_mapRegion_ok.1 mapped
    have first := Unicorn.memMap_adds accepted
    have low := BitVec.le_def.1 nonempty.le
    have high := BitVec.le_def.1 filled.le
    rw [runRegion, toNat_satSub, Nat.add_sub_cancel' low] at first
    exact first.trans (ih rest) (blank_split low high)

theorem mapSegmentBySection_adds {alignedStart alignedEnd : U64} {sections : List SectionSpan}
    {namePrefix : Option String} (endAligned : Aligned alignedEnd) (aligned : Aligned alignedStart)
    (before : alignedStart.toNat ≤ alignedEnd.toNat)
    (run : (mapSegmentBySection alignedStart alignedEnd prot sections namePrefix).Ends
      vk (.ok ()) vk') :
    Adds vk.uc.view (blank alignedStart.toNat alignedEnd.toNat prot) vk'.uc.view := by
  obtain ⟨runs, calls, filled⟩ := mapSegmentBySection_runs aligned endAligned before
  rw [calls] at run
  exact mapRuns_adds filled.fills run

theorem memMap_ends (addr size : U64) (prot : Prot) (info : String) (vk : Valkyrie) :
    (∃ e, (memMap addr size prot info).Ends vk (.error e) vk) ∨
      ∃ vk', (memMap addr size prot info).Ends vk (.ok ()) vk' := by
  cases h : vk.mem.map vk.uc addr size prot info with
  | error e => exact .inl ⟨e, ends_memMap.2 (.inr ⟨e, h, rfl, rfl⟩)⟩
  | ok out =>
    obtain ⟨accepted, -⟩ := VMemory.map_ok_iff.1 h
    exact .inr ⟨_, ends_memMap.2 (.inl ⟨out.2, accepted, rfl, rfl⟩)⟩

/-- The loop over the pages of a segment does not run out of fuel. -/
theorem mapSegmentBySection_ends {alignedStart alignedEnd : U64} {sections : List SectionSpan}
    {namePrefix : Option String} (endAligned : Aligned alignedEnd)
    (aligned : Aligned alignedStart) : ∃ r vk',
      (mapSegmentBySection alignedStart alignedEnd prot sections namePrefix).Ends vk r vk' := by
  have calls (l : List VMemRegion) (vk : Valkyrie) : ∃ r vk', (l.forM mapRegion).Ends vk r vk' := by
    induction l generalizing vk with
    | nil => exact ⟨_, _, ends_forM_nil.2 ⟨rfl, rfl⟩⟩
    | cons c l ih =>
      rcases memMap_ends c.start c.size c.prot c.info vk with ⟨e, failed⟩ | ⟨vk₁, mapped⟩
      · exact ⟨_, _, ends_forM_cons.2 (.inl ⟨e, failed, rfl⟩)⟩
      · obtain ⟨r, vk', rest⟩ := ih vk₁
        exact ⟨r, vk', ends_forM_cons.2 (.inr ⟨vk₁, mapped, rest⟩)⟩
  rcases lt_or_ge alignedEnd alignedStart with wrapped | before
  · rw [mapSegmentBySection_of_lt wrapped]
    exact ⟨_, _, ends_pure.2 ⟨rfl, rfl⟩⟩
  · obtain ⟨runs, same, -⟩ :=
      @mapSegmentBySection_runs prot sections namePrefix _ _ aligned endAligned before
    rw [same]
    exact calls _ vk

/-! ## Clearing and writing -/

theorem zeros (n i : ℕ) : (List.replicate n (0 : U8)).getD i 0 = 0 := by
  rw [List.getD_eq_getElem?_getD, List.getElem?_replicate]
  split_ifs
  · rfl
  · rfl

/-- One chunk of the loop is stored. -/
theorem zeroFillLoop_ok {fuel : ℕ} (more : 0 < size)
    (run : (zeroFillLoop (fuel + 1) addr size).Ends vk (.ok ()) vk') :
    ∃ uc, vk.uc.memWrite addr (List.replicate (min size pageSize).toNat 0) = .ok uc ∧
      (zeroFillLoop fuel (satAdd addr (min size pageSize)) (satSub size (min size pageSize))).Ends
        (vk.withUc uc) (.ok ()) vk' := by
  rw [zeroFillLoop, if_pos more, ends_bind_get] at run
  obtain ⟨uc, t, written, rest⟩ := ends_bind_ok.1 run
  obtain ⟨written, rfl⟩ := ends_ofExcept.1 written
  refine ⟨uc, ?_, ends_bind_modify.1 rest⟩
  cases h : t.uc.memWrite addr (List.replicate (min size pageSize).toNat 0) with
  | error e =>
    rw [h] at written
    cases written
  | ok uc₁ =>
    rw [h] at written
    cases written
    rfl

/-- `zero_fill` clears its range up to the end of the address space, and changes nothing else. -/
theorem zeroFillLoop_effect {fuel : ℕ}
    (run : (zeroFillLoop fuel addr size).Ends vk (.ok ()) vk') :
    ∃ uc', vk' = vk.withUc uc' ∧ uc'.pages = vk.uc.pages ∧ uc'.reg = vk.uc.reg ∧
      ∀ x, uc'.bytes x = if InRange addr size.toNat x then 0 else vk.uc.bytes x := by
  induction fuel generalizing vk addr size with
  | zero => exact (ends_diverge run).elim
  | succ fuel ih =>
    by_cases more : 0 < size
    · have positive : 0 < size.toNat := more
      have count : (min size pageSize).toNat = min size.toNat 4096 := toNat_min _ _
      have left := toNat_satSub size (min size pageSize)
      have onward := toNat_satAdd addr (min size pageSize)
      obtain ⟨uc, stored, rest⟩ := zeroFillLoop_ok more run
      obtain ⟨pages, reg, bytes⟩ := Unicorn.memWrite_effect stored
      have within := (Unicorn.memWrite_ok_iff.1 ⟨uc, stored⟩).1
      rw [List.length_replicate] at bytes within
      obtain ⟨uc', rfl, pages', reg', bytes'⟩ := ih rest
      refine ⟨uc', rfl, pages'.trans pages, reg'.trans reg, fun x => ?_⟩
      have small := x.isLt
      rw [bytes', Valkyrie.withUc_uc, bytes, zeros]
      by_cases inside : InRange addr size.toNat x
      · rw [if_pos inside]
        split_ifs with later here
        · rfl
        · rfl
        · unfold InRange at inside later here
          omega
      · have later : ¬ InRange (satAdd addr (min size pageSize))
            (satSub size (min size pageSize)).toNat x := by
          unfold InRange at inside ⊢
          omega
        have here : ¬ InRange addr (min size pageSize).toNat x := by
          unfold InRange at inside ⊢
          omega
        rw [if_neg inside, if_neg later, if_neg here]
    · rw [zeroFillLoop, if_neg more] at run
      obtain ⟨-, rfl⟩ := ends_pure.1 run
      have empty : size.toNat = 0 := by
        have : ¬ 0 < size.toNat := more
        omega
      refine ⟨vk'.uc, rfl, rfl, rfl, fun x => ?_⟩
      rw [empty, if_neg not_inRange_zero]

/-! ## One segment -/

namespace ElfSegment

variable (seg : ElfSegment) (bias : U64)

/-- Where the segment begins in memory. -/
def base : ℕ := bias.toNat + seg.virtualAddress.toNat

/-- The start of its first page. -/
def pageStart : ℕ := seg.base bias / 4096 * 4096

/-- The end of its last page. -/
def pageEnd : ℕ := (seg.base bias + seg.virtualSize.toNat + 4095) / 4096 * 4096

/-- The segment ends before the last page of the address space. -/
def Fits : Prop := seg.base bias + seg.virtualSize.toNat ≤ 2 ^ 64 - 4096

/-- What the pages of the segment hold. -/
def image (x : U64) : Option (Prot × U8) :=
  if seg.pageStart bias ≤ x.toNat ∧ x.toNat < seg.pageEnd bias then
    some (Elf.protFromFlags seg.flags,
      if seg.base bias ≤ x.toNat then seg.content.getD (x.toNat - seg.base bias) 0 else 0)
  else none

end ElfSegment

/-- The loadable segments that occupy memory. -/
def Binary.loads (elf : Binary) : List ElfSegment :=
  elf.segments.filter fun seg => seg.pType = .load ∧ seg.virtualSize ≠ 0

variable {seg : ElfSegment} {bias : U64} {sections : List SectionSpan} {namePrefix : Option String}
  {span span' : U64 × U64}

theorem mapSegment_skip (skipped : ¬ (seg.pType = .load ∧ seg.virtualSize ≠ 0)) :
    mapSegment bias sections namePrefix span seg = pure span := by
  rw [mapSegment]
  by_cases load : seg.pType = .load
  · have empty : seg.virtualSize = 0 := not_not.1 fun nonempty => skipped ⟨load, nonempty⟩
    rw [if_neg (not_not.2 load)]
    exact if_pos empty
  · exact if_pos load

/-- The content is written and the rest cleared: pages stay, and each byte is settled, also where the
end of the address space is passed. -/
theorem writes_stores {vaddr vsize : U64} {content : List U8} {α : Type} {f : VkM α} {a : α}
    (run : ((if content = [] then pure () else memWrite vaddr content : VkM Unit) >>= fun _ =>
      (if 0 < satSub vsize (BitVec.ofNat 64 content.length) then
        zeroFill (vaddr + BitVec.ofNat 64 content.length)
          (satSub vsize (BitVec.ofNat 64 content.length)) else pure () : VkM Unit) >>=
      fun _ => f).Ends vk (.ok a) vk') :
    ∃ uc', f.Ends (vk.withUc uc') (.ok a) vk' ∧ uc'.pages = vk.uc.pages ∧ uc'.reg = vk.uc.reg ∧
      (content = [] ∨ vk.uc.Mapped vaddr content.length) ∧
      ∀ x, uc'.bytes x =
        if InRange (vaddr + BitVec.ofNat 64 content.length)
          (satSub vsize (BitVec.ofNat 64 content.length)).toNat x then 0
        else if InRange vaddr content.length x then content.getD (x.toNat - vaddr.toNat) 0
        else vk.uc.bytes x := by
  obtain ⟨_, vk₁, first, rest⟩ := ends_bind_ok.1 run
  obtain ⟨_, vk₂, second, last⟩ := ends_bind_ok.1 rest
  have stored : ∃ uc₁, vk₁ = vk.withUc uc₁ ∧ uc₁.pages = vk.uc.pages ∧ uc₁.reg = vk.uc.reg ∧
      (content = [] ∨ vk.uc.Mapped vaddr content.length) ∧
      ∀ x, uc₁.bytes x = if InRange vaddr content.length x then
        content.getD (x.toNat - vaddr.toNat) 0 else vk.uc.bytes x := by
    split_ifs at first with empty
    · obtain ⟨-, rfl⟩ := ends_pure.1 first
      refine ⟨vk₁.uc, rfl, rfl, rfl, .inl empty, fun x => ?_⟩
      rw [empty, List.length_nil, if_neg not_inRange_zero]
    · rcases ends_memWrite.1 first with ⟨uc₁, written, -, rfl⟩ | ⟨e, -, failed, -⟩
      · have accepted := (VMemory.write_ok_iff.1 written).2
        obtain ⟨pages, reg, bytes⟩ := Unicorn.memWrite_effect accepted
        exact ⟨uc₁, rfl, pages, reg, .inr (Unicorn.memWrite_ok_iff.1 ⟨uc₁, accepted⟩), bytes⟩
      · cases failed
  obtain ⟨uc₁, rfl, pages₁, reg₁, mapped, bytes₁⟩ := stored
  have cleared : ∃ uc₂, vk₂ = (vk.withUc uc₁).withUc uc₂ ∧ uc₂.pages = uc₁.pages ∧
      uc₂.reg = uc₁.reg ∧ ∀ x, uc₂.bytes x =
        if InRange (vaddr + BitVec.ofNat 64 content.length)
          (satSub vsize (BitVec.ofNat 64 content.length)).toNat x then 0 else uc₁.bytes x := by
    split_ifs at second with more
    · exact zeroFillLoop_effect second
    · obtain ⟨-, rfl⟩ := ends_pure.1 second
      have none_ : (satSub vsize (BitVec.ofNat 64 content.length)).toNat = 0 :=
        Nat.eq_zero_of_not_pos more
      refine ⟨uc₁, rfl, rfl, rfl, fun x => ?_⟩
      rw [none_, if_neg not_inRange_zero]
  obtain ⟨uc₂, rfl, pages₂, reg₂, bytes₂⟩ := cleared
  refine ⟨uc₂, last, pages₂.trans pages₁, reg₂.trans reg₁, mapped, fun x => ?_⟩
  rw [bytes₂, bytes₁]

/-- The content is written and the rest cleared, before the end of the address space. -/
theorem writes_effect {vaddr vsize : U64} {content : List U8} {α : Type} {f : VkM α} {a : α}
    (bound : vaddr.toNat + vsize.toNat < 2 ^ 64) (contained : content.length ≤ vsize.toNat)
    (run : ((if content = [] then pure () else memWrite vaddr content : VkM Unit) >>= fun _ =>
      (if 0 < satSub vsize (BitVec.ofNat 64 content.length) then
        zeroFill (vaddr + BitVec.ofNat 64 content.length)
          (satSub vsize (BitVec.ofNat 64 content.length)) else pure () : VkM Unit) >>=
      fun _ => f).Ends vk (.ok a) vk') :
    ∃ uc', f.Ends (vk.withUc uc') (.ok a) vk' ∧ uc'.pages = vk.uc.pages ∧
      uc'.reg = vk.uc.reg ∧ ∀ x, uc'.bytes x = if InRange vaddr vsize.toNat x then
        content.getD (x.toNat - vaddr.toNat) 0 else vk.uc.bytes x := by
  obtain ⟨uc', rest, pages, reg, -, bytes⟩ := writes_stores run
  refine ⟨uc', rest, pages, reg, fun x => ?_⟩
  have count : (BitVec.ofNat 64 content.length).toNat = content.length := by
    rw [BitVec.toNat_ofNat]
    omega
  have left := toNat_satSub vsize (BitVec.ofNat 64 content.length)
  have start : (vaddr + BitVec.ofNat 64 content.length).toNat = vaddr.toNat + content.length := by
    rw [BitVec.toNat_add, count]
    omega
  rw [bytes]
  by_cases inside : InRange vaddr vsize.toNat x
  · rw [if_pos inside]
    unfold InRange at inside
    split_ifs with past here
    · unfold InRange at past
      rw [List.getD_eq_getElem?_getD, List.getElem?_eq_none (by omega)]
      rfl
    · rfl
    · unfold InRange at past here
      omega
  · have past : ¬ InRange (vaddr + BitVec.ofNat 64 content.length)
        (satSub vsize (BitVec.ofNat 64 content.length)).toNat x := by
      unfold InRange at inside ⊢
      omega
    have here : ¬ InRange vaddr content.length x := by
      unfold InRange at inside ⊢
      omega
    rw [if_neg inside, if_neg past, if_neg here]

namespace ElfSegment

theorem pageStart_le : seg.pageStart bias ≤ seg.base bias := by
  unfold pageStart
  omega

theorem le_pageEnd : seg.base bias + seg.virtualSize.toNat ≤ seg.pageEnd bias := by
  unfold pageEnd
  omega

theorem pageStart_mod : seg.pageStart bias % 4096 = 0 := by
  unfold pageStart
  omega

theorem pageEnd_mod : seg.pageEnd bias % 4096 = 0 := by
  unfold pageEnd
  omega

/-! The code computes the bounds of a segment that fits. -/

theorem toNat_vaddr (fits : seg.Fits bias) :
    (satAdd bias seg.virtualAddress).toNat = seg.base bias := by
  unfold Fits base at fits
  rw [toNat_satAdd, Nat.min_eq_left (by omega)]
  rfl

theorem toNat_alignedStart (fits : seg.Fits bias) :
    (alignDown (satAdd bias seg.virtualAddress) pageSize).toNat = seg.pageStart bias := by
  rw [toNat_alignDown, toNat_vaddr fits]
  rfl

theorem toNat_alignedEnd (fits : seg.Fits bias) :
    (alignUp (satAdd (satAdd bias seg.virtualAddress) seg.virtualSize) pageSize).toNat =
      seg.pageEnd bias := by
  rw [toNat_alignUp, toNat_satAdd, toNat_vaddr fits]
  unfold Fits at fits
  unfold pageEnd
  rw [Nat.min_eq_left (by omega), Nat.mod_eq_of_lt (by omega)]

end ElfSegment

/-- Fresh pages that are filled with the content of a segment are its image. -/
theorem adds_image {f : U64 → Option (Prot × U8)}
    (pages : Adds f (blank (seg.pageStart bias) (seg.pageEnd bias) (Elf.protFromFlags seg.flags))
      uc.view)
    (contained : seg.content.length ≤ seg.virtualSize.toNat) (same : uc'.pages = uc.pages)
    {vaddr : U64} (start : vaddr.toNat = seg.base bias)
    (bytes : ∀ x, uc'.bytes x = if InRange vaddr seg.virtualSize.toNat x then
      seg.content.getD (x.toNat - vaddr.toNat) 0 else uc.bytes x) :
    Adds f (seg.image bias) uc'.view := by
  have prots (x : U64) : uc'.protAt x = uc.protAt x := by
    rw [Unicorn.protAt, Unicorn.protAt, same]
  have low := @ElfSegment.pageStart_le seg bias
  have high := @ElfSegment.le_pageEnd seg bias
  constructor
  · intro x v hx
    by_cases covered : seg.pageStart bias ≤ x.toNat ∧ x.toNat < seg.pageEnd bias
    · exact pages.free x (Elf.protFromFlags seg.flags, 0) (if_pos covered)
    · rw [ElfSegment.image, if_neg covered] at hx
      cases hx
  · intro x
    by_cases covered : seg.pageStart bias ≤ x.toNat ∧ x.toNat < seg.pageEnd bias
    · obtain ⟨prot, mapped, byte⟩ := Option.map_eq_some_iff.1 (pages.of_part (x := x)
        (v := (Elf.protFromFlags seg.flags, 0)) (if_pos covered))
      obtain ⟨rfl, zero⟩ := Prod.mk.inj byte
      rw [ElfSegment.image, if_pos covered, Option.some_or, Unicorn.view, prots, mapped,
        Option.map_some, bytes, zero, start]
      by_cases inside : InRange vaddr seg.virtualSize.toNat x
      · rw [if_pos inside, if_pos (start ▸ inside.1)]
      · rw [if_neg inside]
        split_ifs with above
        · unfold InRange at inside
          rw [List.getD_eq_getElem?_getD, List.getElem?_eq_none (by omega)]
          rfl
        · rfl
    · have outside : ¬ InRange vaddr seg.virtualSize.toNat x := by
        unfold InRange
        omega
      rw [ElfSegment.image, if_neg covered, Option.none_or, Unicorn.view, prots, bytes,
        if_neg outside]
      exact pages.eq_old (if_neg covered)

/-- A segment that fits adds its image. -/
theorem mapSegment_adds (load : seg.pType = .load) (nonempty : seg.virtualSize ≠ 0)
    (contained : seg.content.length ≤ seg.virtualSize.toNat) (fits : seg.Fits bias)
    (run : (mapSegment bias sections namePrefix span seg).Ends vk (.ok span') vk') :
    Adds vk.uc.view (seg.image bias) vk'.uc.view ∧
      span'.1.toNat = min span.1.toNat (seg.pageStart bias) ∧
      span'.2.toNat = max span.2.toNat (seg.pageEnd bias) := by
  have start := ElfSegment.toNat_vaddr fits
  have first := ElfSegment.toNat_alignedStart fits
  have last := ElfSegment.toNat_alignedEnd fits
  unfold ElfSegment.Fits at fits
  simp only [mapSegment, if_neg (not_not.2 load), if_neg nonempty] at run
  generalize satAdd bias seg.virtualAddress = vaddr at run start first last
  obtain ⟨_, vk₁, mapped, rest⟩ := ends_bind_ok.1 run
  have ordered : seg.pageStart bias ≤ seg.pageEnd bias :=
    ElfSegment.pageStart_le.trans ((Nat.le_add_right _ _).trans ElfSegment.le_pageEnd)
  have pages := mapSegmentBySection_adds (by rw [Aligned, last, ElfSegment.pageEnd_mod])
    (by rw [Aligned, first, ElfSegment.pageStart_mod]) (by rw [first, last]; exact ordered) mapped
  obtain ⟨uc', done, pages', -, bytes⟩ := writes_effect (by omega) contained rest
  obtain ⟨same, rfl⟩ := ends_pure.1 done
  cases same
  rw [first, last] at pages
  refine ⟨adds_image pages contained pages' start bytes, ?_, ?_⟩
  · rw [toNat_min, first]
  · rw [toNat_max, last]

/-! ## All segments -/

/-- The bounds of the segments of a list, from given first bounds. -/
structure Spans (segs : List ElfSegment) (bias : U64) (span span' : U64 × U64) : Prop where
  low : ∀ seg ∈ segs, span'.1.toNat ≤ seg.pageStart bias
  high : ∀ seg ∈ segs, seg.pageEnd bias ≤ span'.2.toNat
  low_eq : span'.1 = span.1 ∨ ∃ seg ∈ segs, span'.1.toNat = seg.pageStart bias
  high_eq : span'.2 = span.2 ∨ ∃ seg ∈ segs, span'.2.toNat = seg.pageEnd bias
  below : span'.1.toNat ≤ span.1.toNat
  above : span.2.toNat ≤ span'.2.toNat

theorem Spans.cons {segs : List ElfSegment} {mid : U64 × U64} (h : Spans segs bias mid span')
    (low : mid.1.toNat = min span.1.toNat (seg.pageStart bias))
    (high : mid.2.toNat = max span.2.toNat (seg.pageEnd bias)) :
    Spans (seg :: segs) bias span span' where
  low s hs := by
    rcases List.mem_cons.1 hs with rfl | later
    · exact h.below.trans (low ▸ Nat.min_le_right _ _)
    · exact h.low s later
  high s hs := by
    rcases List.mem_cons.1 hs with rfl | later
    · exact (high ▸ Nat.le_max_right _ _ : _ ≤ mid.2.toNat).trans h.above
    · exact h.high s later
  low_eq := by
    rcases h.low_eq with same | ⟨s, hs, same⟩
    · rcases Nat.le_total span.1.toNat (seg.pageStart bias) with le | le
      · rw [Nat.min_eq_left le] at low
        exact .inl (same.trans (BitVec.eq_of_toNat_eq low))
      · rw [Nat.min_eq_right le] at low
        exact .inr ⟨seg, List.mem_cons_self, same ▸ low⟩
    · exact .inr ⟨s, List.mem_cons_of_mem _ hs, same⟩
  high_eq := by
    rcases h.high_eq with same | ⟨s, hs, same⟩
    · rcases Nat.le_total (seg.pageEnd bias) span.2.toNat with le | le
      · rw [Nat.max_eq_left le] at high
        exact .inl (same.trans (BitVec.eq_of_toNat_eq high))
      · rw [Nat.max_eq_right le] at high
        exact .inr ⟨seg, List.mem_cons_self, same ▸ high⟩
    · exact .inr ⟨s, List.mem_cons_of_mem _ hs, same⟩
  below := h.below.trans (low ▸ Nat.min_le_left _ _)
  above := (high ▸ Nat.le_max_left _ _ : _ ≤ mid.2.toNat).trans h.above

/-- The segments that fit add their images, one after the other. -/
theorem mapSegments_adds {segs : List ElfSegment}
    (contained : ∀ seg ∈ segs.filter fun seg => seg.pType = .load ∧ seg.virtualSize ≠ 0,
      seg.content.length ≤ seg.virtualSize.toNat)
    (fits : ∀ seg ∈ segs.filter fun seg => seg.pType = .load ∧ seg.virtualSize ≠ 0, seg.Fits bias)
    (run : (segs.foldlM (mapSegment bias sections namePrefix) span).Ends vk (.ok span') vk') :
    AddsAll vk.uc.view ((segs.filter fun seg => seg.pType = .load ∧ seg.virtualSize ≠ 0).map
      (·.image bias)) vk'.uc.view ∧
    Spans (segs.filter fun seg => seg.pType = .load ∧ seg.virtualSize ≠ 0) bias span span' := by
  induction segs generalizing vk span with
  | nil =>
    obtain ⟨same, rfl⟩ := ends_pure.1 run
    cases same
    exact ⟨rfl, nofun, nofun, .inl rfl, .inl rfl, le_rfl, le_rfl⟩
  | cons seg segs ih =>
    rw [List.foldlM_cons] at run
    obtain ⟨mid, vk₁, first, rest⟩ := ends_bind_ok.1 run
    by_cases loaded : seg.pType = .load ∧ seg.virtualSize ≠ 0
    · rw [List.filter_cons_of_pos (by simpa using loaded)] at contained fits ⊢
      obtain ⟨adds, low, high⟩ := mapSegment_adds loaded.1 loaded.2
        (contained seg List.mem_cons_self) (fits seg List.mem_cons_self) first
      obtain ⟨more, spans⟩ := ih (fun s hs => contained s (List.mem_cons_of_mem _ hs))
        (fun s hs => fits s (List.mem_cons_of_mem _ hs)) rest
      exact ⟨⟨_, adds, more⟩, spans.cons low high⟩
    · rw [List.filter_cons_of_neg (by simpa using loaded)] at contained fits ⊢
      rw [mapSegment_skip loaded] at first
      obtain ⟨same, rfl⟩ := ends_pure.1 first
      cases same
      exact ih contained fits rest

/-! ## The image -/

variable {elf : Binary} {baseHint : U64} {m : MappedElf}

/-- A run that maps a binary is a run of the loop over its segments that meets one of them. -/
theorem mapElfBinary_ok (run : (mapElfBinary elf baseHint namePrefix).Ends vk (.ok m) vk') :
    (elf.segments.foldlM (mapSegment (elf.loadBias baseHint) (collectAllocSections elf) namePrefix)
      (u64Max, 0)).Ends vk (.ok (m.minAddr, m.maxAddr)) vk' ∧ m.minAddr ≠ u64Max := by
  rw [mapElfBinary] at run
  obtain ⟨span, vk₁, loop, rest⟩ := ends_bind_ok.1 run
  split_ifs at rest with nothing
  · cases (ends_throw.1 rest).1
  · obtain ⟨phdr, vk₂, found, done⟩ := ends_bind_ok.1 rest
    obtain ⟨-, rfl⟩ := ends_ofExcept.1 found
    obtain ⟨same, rfl⟩ := ends_pure.1 done
    cases same
    exact ⟨loop, nothing⟩

/-- The memory image that the program headers ask for. -/
structure ElfImage (elf : Binary) (bias : U64) (vk vk' : Valkyrie) (m : MappedElf) : Prop where
  /-- The content of a segment, then zeros. -/
  bytes : ∀ seg ∈ elf.loads, ∀ i < seg.virtualSize.toNat, ∃ x : U64,
    x.toNat = seg.base bias + i ∧ vk'.uc.readAt x = some (seg.content.getD i 0)
  /-- Zeros in the rest of its pages. -/
  padding : ∀ seg ∈ elf.loads, ∀ x : U64, seg.pageStart bias ≤ x.toNat →
    x.toNat < seg.pageEnd bias → ¬ (seg.base bias ≤ x.toNat ∧
      x.toNat < seg.base bias + seg.virtualSize.toNat) → vk'.uc.readAt x = some 0
  /-- The protection of the segment on its pages. -/
  prot : ∀ seg ∈ elf.loads, ∀ x : U64, seg.pageStart bias ≤ x.toNat →
    x.toNat < seg.pageEnd bias → vk'.uc.protAt x = some (Elf.protFromFlags seg.flags)
  /-- What was mapped is as it was. -/
  kept : ∀ x, (vk.uc.protAt x).isSome →
    vk'.uc.protAt x = vk.uc.protAt x ∧ vk'.uc.bytes x = vk.uc.bytes x
  least : IsLeast {n | ∃ seg ∈ elf.loads, n = seg.pageStart bias} m.minAddr.toNat
  greatest : IsGreatest {n | ∃ seg ∈ elf.loads, n = seg.pageEnd bias} m.maxAddr.toNat

theorem Unicorn.of_view {x : U64} {byte : U8} (h : uc.view x = some (prot, byte)) :
    uc.protAt x = some prot ∧ uc.bytes x = byte ∧ uc.readAt x = some byte := by
  obtain ⟨p, mapped, same⟩ := Option.map_eq_some_iff.1 h
  obtain ⟨rfl, rfl⟩ := Prod.mk.inj same
  refine ⟨mapped, rfl, ?_⟩
  rw [readAt, mapped]
  rfl

/-- When every segment fits, a run that succeeds leaves the image. -/
theorem elfImage_of_fits (contained : ∀ seg ∈ elf.loads,
      seg.content.length ≤ seg.virtualSize.toNat)
    (fits : ∀ seg ∈ elf.loads, seg.Fits (elf.loadBias baseHint))
    (run : (mapElfBinary elf baseHint namePrefix).Ends vk (.ok m) vk') :
    ElfImage elf (elf.loadBias baseHint) vk vk' m := by
  obtain ⟨loop, found⟩ := mapElfBinary_ok run
  obtain ⟨adds, spans⟩ := mapSegments_adds contained fits loop
  have held : ∀ seg ∈ elf.loads, ∀ x v, seg.image (elf.loadBias baseHint) x = some v →
      vk'.uc.view x = some v := fun seg hs x v hx =>
    adds.of_mem (List.mem_map.2 ⟨seg, hs, rfl⟩) hx
  have some_ : ∃ seg, seg ∈ elf.loads := by
    rcases spans.low_eq with same | ⟨seg, hs, -⟩
    · exact absurd same found
    · exact ⟨seg, hs⟩
  refine ⟨fun seg hs i hi => ?_, fun seg hs x low high outside => ?_, fun seg hs x low high => ?_,
    fun x mapped => ?_, ?_, ?_⟩
  · have fit := fits seg hs
    unfold ElfSegment.Fits at fit
    have number : (BitVec.ofNat 64 (seg.base (elf.loadBias baseHint) + i)).toNat =
        seg.base (elf.loadBias baseHint) + i := by
      rw [BitVec.toNat_ofNat]
      omega
    refine ⟨_, number, (Unicorn.of_view (held seg hs _ (Elf.protFromFlags seg.flags, _) ?_)).2.2⟩
    rw [ElfSegment.image, number, if_pos, if_pos (by omega), Nat.add_sub_cancel_left]
    unfold ElfSegment.pageStart ElfSegment.pageEnd
    omega
  · refine (Unicorn.of_view (held seg hs x (Elf.protFromFlags seg.flags, 0) ?_)).2.2
    rw [ElfSegment.image, if_pos ⟨low, high⟩]
    split_ifs with above
    · have short := contained seg hs
      rw [List.getD_eq_getElem?_getD, List.getElem?_eq_none (by omega)]
      rfl
    · rfl
  · exact (Unicorn.of_view (held seg hs x _ (if_pos ⟨low, high⟩))).1
  · obtain ⟨prot, old⟩ := Option.isSome_iff_exists.1 mapped
    have old : vk.uc.view x = some (prot, vk.uc.bytes x) := by
      rw [Unicorn.view, old]
      rfl
    obtain ⟨now, byte, -⟩ := Unicorn.of_view (adds.of_old old)
    exact ⟨now.trans (Unicorn.of_view old).1.symm, byte⟩
  · constructor
    · rcases spans.low_eq with same | ⟨seg, hs, same⟩
      · exact absurd same found
      · exact ⟨seg, hs, same⟩
    · rintro _ ⟨seg, hs, rfl⟩
      exact spans.low seg hs
  · constructor
    · rcases spans.high_eq with same | ⟨seg, hs, same⟩
      · obtain ⟨seg, hs⟩ := some_
        have high : seg.pageEnd (elf.loadBias baseHint) ≤ m.maxAddr.toNat := spans.high seg hs
        have zero : m.maxAddr.toNat = 0 := congrArg BitVec.toNat same
        have nonempty : seg.virtualSize ≠ 0 := by
          have := (List.mem_filter.1 hs).2
          simp only [decide_eq_true_eq] at this
          exact this.2
        have positive : 0 < seg.virtualSize.toNat := by bv_omega
        unfold ElfSegment.pageEnd at high
        omega
      · exact ⟨seg, hs, same⟩
    · rintro _ ⟨seg, hs, rfl⟩
      exact spans.high seg hs

/-- A run that succeeds leaves the image exactly when no segment reaches into the last page of the
address space. -/
theorem elf_image_exact (contained : ∀ seg ∈ elf.loads,
      seg.content.length ≤ seg.virtualSize.toNat)
    (run : (mapElfBinary elf baseHint namePrefix).Ends vk (.ok m) vk') :
    ElfImage elf (elf.loadBias baseHint) vk vk' m ↔
      ∀ seg ∈ elf.loads, seg.Fits (elf.loadBias baseHint) := by
  constructor
  · intro image seg hs
    have high := image.greatest.2 ⟨seg, hs, rfl⟩
    have small := m.maxAddr.isLt
    unfold ElfSegment.pageEnd at high
    unfold ElfSegment.Fits
    omega
  · exact fun fits => elfImage_of_fits contained fits run

/-- An executable of one segment, which holds the headers and ten bytes more. -/
def oneSegment (virtualAddress : U64) : Binary where
  header := ⟨.other, virtualAddress, 64, 56, 1⟩
  segments := [⟨.load, 5, 0, virtualAddress, 120, 130, List.replicate 120 0x7f⟩]
  sections := [⟨".text", 6, virtualAddress, 120⟩]
  interpreter := []

set_option maxRecDepth 20000 in
theorem elf_image_exact_oneSegment : ∃ m vk',
    (mapElfBinary (oneSegment 0x400000) 0 none).Ends (.ofMemory .x86_64 ⟨[], 0, 0⟩) (.ok m) vk' ∧
      (ElfImage (oneSegment 0x400000) 0 (.ofMemory .x86_64 ⟨[], 0, 0⟩) vk' m ↔
        ∀ seg ∈ (oneSegment 0x400000).loads, seg.Fits 0) := by
  have run : ∃ m vk', (mapElfBinary (oneSegment 0x400000) 0 none).Ends
      (.ofMemory .x86_64 ⟨[], 0, 0⟩) (.ok m) vk' := ⟨_, _, rfl⟩
  obtain ⟨m, vk', run⟩ := run
  exact ⟨m, vk', run, elf_image_exact (by decide) run⟩

/-- A mapping in the last page of the address space. -/
def lastPage : Valkyrie :=
  .ofMemory .x86_64 ⟨[⟨0xfffffffffffff000, 0x1000, .all, "[data]"⟩], 0, 0⟩

set_option maxRecDepth 20000 in
/-- A segment in the last page is not mapped: its content overwrites what was there, and the image
is said to end at zero. -/
theorem last_page_overwritten : ∃ m vk',
    (mapElfBinary (oneSegment 0xfffffffffffff000) 0 none).Ends lastPage (.ok m) vk' ∧
      lastPage.uc.readAt 0xfffffffffffff000 = some 0 ∧
      vk'.uc.bytes 0xfffffffffffff000 = 0x7f ∧ m.maxAddr = 0 ∧
      ¬ ElfImage (oneSegment 0xfffffffffffff000) 0 lastPage vk' m := by
  have run : ∃ m vk', (mapElfBinary (oneSegment 0xfffffffffffff000) 0 none).Ends lastPage
      (.ok m) vk' ∧ vk'.uc.bytes 0xfffffffffffff000 = 0x7f ∧ m.maxAddr = 0 := ⟨_, _, rfl, rfl, rfl⟩
  obtain ⟨m, vk', run, byte, maxAddr⟩ := run
  refine ⟨m, vk', run, rfl, byte, maxAddr, fun image => ?_⟩
  have mapped : (lastPage.uc.protAt 0xfffffffffffff000).isSome := rfl
  have kept := (image.kept _ mapped).2
  rw [byte] at kept
  cases kept

end ValkyrieRs

import ValkyrieRs.Proof.ElfImage

/-!
# The program headers in memory

The address that the loader hands to the guest is computed from file offsets; what stands there is
the work of the loop over the segments.  The two agree, unless a segment that reaches into the last
page of the address space, for which nothing is mapped, is stored over the table.
-/

namespace ValkyrieRs

open Proc

/-! ## The table -/

namespace Binary

variable (elf : Binary)

/-- The size of the program header table. -/
def tableSize : ℕ := elf.header.programHeaderSize.toNat * elf.header.numberofSegments.toNat

/-- The program header table of the file. -/
def table (file : List U8) : List U8 :=
  (file.drop elf.header.programHeadersOffset.toNat).take elf.tableSize

/-- The file range of the loadable segment contains the whole table. -/
def HeldBy (seg : ElfSegment) : Prop :=
  seg.pType = .load ∧ seg.fileOffset.toNat ≤ elf.header.programHeadersOffset.toNat ∧
    elf.header.programHeadersOffset.toNat + elf.tableSize ≤
      seg.fileOffset.toNat + seg.physicalSize.toNat

instance (seg : ElfSegment) : Decidable (elf.HeldBy seg) := inferInstanceAs (Decidable (_ ∧ _))

/-- The check of `program_headers_addr`. -/
def Accepts (seg : ElfSegment) : Prop :=
  seg.pType = .load ∧ seg.fileOffset ≤ elf.header.programHeadersOffset ∧
    satAdd elf.header.programHeadersOffset (satMul (elf.header.programHeaderSize.setWidth 64)
      (elf.header.numberofSegments.setWidth 64)) ≤ satAdd seg.fileOffset seg.physicalSize

instance (seg : ElfSegment) : Decidable (elf.Accepts seg) := inferInstanceAs (Decidable (_ ∧ _))

/-- The contents of the loadable segments are the bytes of a file, and fit into memory. -/
structure OfFile (file : List U8) : Prop where
  size : file.length < 2 ^ 63
  content : ∀ seg ∈ elf.segments, seg.pType = .load →
    seg.content = (file.drop seg.fileOffset.toNat).take seg.physicalSize.toNat
  full : ∀ seg ∈ elf.segments, seg.pType = .load → seg.content.length = seg.physicalSize.toNat
  contained : ∀ seg ∈ elf.segments, seg.pType = .load →
    seg.content.length ≤ seg.virtualSize.toNat

/-- The table is said to begin with the last byte that an offset can name, as is an empty segment. -/
def PastEnd : Prop :=
  0 < elf.tableSize ∧ elf.header.programHeadersOffset = u64Max ∧
    ∃ seg ∈ elf.segments, seg.pType = .load ∧ seg.fileOffset = u64Max

end Binary

/-! ## Stores of a segment -/

namespace ElfSegment

variable (seg : ElfSegment) (bias : U64)

/-- The byte that the loader stores at an address for the segment: zeros behind the content. -/
def stores (x : U64) : Option U8 :=
  let start := satAdd bias seg.virtualAddress
  let written := BitVec.ofNat 64 seg.content.length
  if InRange (start + written) (satSub seg.virtualSize written).toNat x then some 0
  else if InRange start seg.content.length x then
    some (seg.content.getD (x.toNat - start.toNat) 0)
  else none

/-- The segment is stored over what is there: its end is rounded up to zero, and no page of it is
mapped. -/
def Unmapped : Prop := seg.pType = .load ∧ seg.virtualSize ≠ 0 ∧ ¬ seg.Fits bias

instance : Decidable (seg.Fits bias) := inferInstanceAs (Decidable (_ ≤ _))

instance : Decidable (seg.Unmapped bias) := inferInstanceAs (Decidable (_ ∧ _))

/-- The byte that loading the segment leaves at an address that has been mapped before. -/
def overwrites (x : U64) : Option U8 := if seg.Unmapped bias then seg.stores bias x else none

/-- Where a byte of the content stands. -/
def placed (k : ℕ) : U64 := satAdd bias seg.virtualAddress + BitVec.ofNat 64 k

end ElfSegment

/-- A byte of the table, in the first segment that holds the table, is overwritten with another one by
a segment that is stored over what is there. -/
def Binary.Overwritten (elf : Binary) (bias : U64) : Prop :=
  ∃ before seg after, elf.segments = before ++ seg :: after ∧ elf.HeldBy seg ∧
    (∀ s ∈ before, ¬ elf.HeldBy s) ∧ ∃ i < elf.tableSize, ∃ byte,
      let k := elf.header.programHeadersOffset.toNat - seg.fileOffset.toNat + i
      lastOf ((seg :: after).map (·.overwrites bias)) (seg.placed bias k) = some byte ∧
        seg.content[k]? ≠ some byte

/-- The loader's address points at the program headers, and it is missing exactly when no loadable
segment holds them. -/
def PointsAtHeaders (elf : Binary) (file : List U8) (baseHint : U64) (namePrefix : Option String)
    (vk : Valkyrie) : Prop :=
  (∀ m vk', (mapElfBinary elf baseHint namePrefix).Ends vk (.ok m) vk' →
    vk'.uc.contents m.phdr (m.phent.toNat * m.phnum.toNat) = elf.table file) ∧
  ((∃ e, programHeadersAddr elf (elf.loadBias baseHint) = .error e) ↔
    ∀ seg ∈ elf.segments, ¬ elf.HeldBy seg)

variable {elf : Binary} {file : List U8} {seg : ElfSegment} {bias : U64} {vk vk' : Valkyrie}
  {sections : List SectionSpan} {namePrefix : Option String} {span span' : U64 × U64}

/-! ## The segment that holds the table -/

theorem toNat_tableSize : (satMul (elf.header.programHeaderSize.setWidth 64)
    (elf.header.numberofSegments.setWidth 64)).toNat = elf.tableSize := by
  have size := elf.header.programHeaderSize.isLt
  have number := elf.header.numberofSegments.isLt
  have wide (n : U32) : (n.setWidth 64).toNat = n.toNat := by
    rw [BitVec.toNat_setWidth]
    omega
  have small : elf.header.programHeaderSize.toNat * elf.header.numberofSegments.toNat < 2 ^ 64 :=
    calc elf.header.programHeaderSize.toNat * elf.header.numberofSegments.toNat
      _ ≤ (2 ^ 32 - 1) * (2 ^ 32 - 1) := Nat.mul_le_mul (by omega) (by omega)
      _ < 2 ^ 64 := by decide
  rw [satMul, wide, wide, if_pos small, BitVec.toNat_mul, wide, wide, Nat.mod_eq_of_lt small]
  rfl

/-- The range of a segment with content ends within the file. -/
theorem Binary.OfFile.physical_le (ofFile : elf.OfFile file) (mem : seg ∈ elf.segments)
    (load : seg.pType = .load) :
    seg.physicalSize.toNat = 0 ∨ seg.fileOffset.toNat + seg.physicalSize.toNat ≤ file.length := by
  have full := ofFile.full seg mem load
  rw [ofFile.content seg mem load, List.length_take, List.length_drop] at full
  omega

/-- The check is exact on the segments of a file. -/
theorem Binary.OfFile.accepts_iff (ofFile : elf.OfFile file) (within : ¬ elf.PastEnd)
    (mem : seg ∈ elf.segments) : elf.Accepts seg ↔ elf.HeldBy seg := by
  refine and_congr_right fun load => and_congr_right fun start => ?_
  rw [BitVec.le_def, toNat_satAdd, toNat_satAdd, toNat_tableSize]
  have offset := elf.header.programHeadersOffset.isLt
  have size := ofFile.size
  have start : seg.fileOffset.toNat ≤ elf.header.programHeadersOffset.toNat := start
  rcases ofFile.physical_le mem load with empty | inside
  · have last : ¬ (0 < elf.tableSize ∧ elf.header.programHeadersOffset.toNat = 2 ^ 64 - 1 ∧
        seg.fileOffset.toNat = 2 ^ 64 - 1) := by
      rintro ⟨some, here, there⟩
      exact within ⟨some, BitVec.eq_of_toNat_eq here, seg, mem, load, BitVec.eq_of_toNat_eq there⟩
    omega
  · omega

/-- A table past the end is held by no segment, but accepted in an empty one. -/
theorem Binary.OfFile.of_pastEnd (ofFile : elf.OfFile file) (past : elf.PastEnd) :
    (∃ seg ∈ elf.segments, elf.Accepts seg) ∧ ∀ seg ∈ elf.segments, ¬ elf.HeldBy seg := by
  obtain ⟨some, offset, seg, mem, load, start⟩ := past
  constructor
  · refine ⟨seg, mem, load, by rw [offset, start], ?_⟩
    rw [BitVec.le_def, toNat_satAdd, toNat_satAdd, offset, start, toNat_u64Max]
    omega
  · rintro s inside ⟨load, -, within⟩
    have size := ofFile.size
    rw [offset, toNat_u64Max] at within
    have below := s.fileOffset.isLt
    rcases ofFile.physical_le inside load with empty | inside
    · omega
    · omega

/-- The address is that of a place in the first segment accepted. -/
theorem programHeadersAddr_ok {a : U64} (found : programHeadersAddr elf bias = .ok a) :
    ∃ before seg after, elf.segments = before ++ seg :: after ∧ elf.Accepts seg ∧
      (∀ s ∈ before, ¬ elf.Accepts s) ∧
      a = satAdd (satAdd bias seg.virtualAddress)
        (satSub elf.header.programHeadersOffset seg.fileOffset) := by
  rw [programHeadersAddr] at found
  split at found
  · rename_i seg first
    cases found
    obtain ⟨accepted, before, after, here, others⟩ := List.find?_eq_some_iff_append.1 first
    refine ⟨before, seg, after, here, of_decide_eq_true accepted, fun s mem => ?_, rfl⟩
    have refused := others s mem
    rw [Bool.not_eq_true'] at refused
    exact of_decide_eq_false refused
  · cases found

theorem programHeadersAddr_error_iff : (∃ e, programHeadersAddr elf bias = .error e) ↔
    ∀ seg ∈ elf.segments, ¬ elf.Accepts seg := by
  constructor
  · rintro ⟨e, failed⟩ seg mem accepted
    rw [programHeadersAddr] at failed
    split at failed
    · cases failed
    · rename_i none_
      exact List.find?_eq_none.1 none_ seg mem (decide_eq_true accepted)
  · intro refused
    cases found : programHeadersAddr elf bias with
    | error e => exact ⟨e, rfl⟩
    | ok a =>
      obtain ⟨before, seg, after, here, accepted, -⟩ := programHeadersAddr_ok found
      exact absurd accepted (refused seg (by rw [here]; simp))

/-! ## Stores over what is there -/

/-- A segment that is stored over what is there maps nothing. -/
theorem mapSegment_unmapped (unmapped : seg.Unmapped bias)
    (run : (mapSegment bias sections namePrefix span seg).Ends vk (.ok span') vk') :
    vk'.uc.pages = vk.uc.pages ∧
      (seg.content = [] ∨ vk.uc.Mapped (satAdd bias seg.virtualAddress) seg.content.length) ∧
      ∀ x, vk'.uc.bytes x = (seg.stores bias x).getD (vk.uc.bytes x) := by
  obtain ⟨load, nonempty, beyond⟩ := unmapped
  simp only [mapSegment, if_neg (not_not.2 load), if_neg nonempty] at run
  have wraps : alignUp (satAdd (satAdd bias seg.virtualAddress) seg.virtualSize) pageSize = 0 := by
    apply BitVec.eq_of_toNat_eq
    unfold ElfSegment.Fits ElfSegment.base at beyond
    have past : 2 ^ 64 - 4096 <
        (satAdd (satAdd bias seg.virtualAddress) seg.virtualSize).toNat := by
      rw [toNat_satAdd, toNat_satAdd]
      omega
    have small := (satAdd (satAdd bias seg.virtualAddress) seg.virtualSize).isLt
    rw [toNat_alignUp]
    show _ = 0
    omega
  rw [wraps] at run
  obtain ⟨_, vk₁, mapped, rest⟩ := ends_bind_ok.1 run
  obtain ⟨-, rfl⟩ := ends_pure.1 mapped
  obtain ⟨uc', done, pages, -, content, bytes⟩ := writes_stores rest
  obtain ⟨-, rfl⟩ := ends_pure.1 done
  refine ⟨pages, content, fun x => ?_⟩
  rw [Valkyrie.withUc_uc, bytes, ElfSegment.stores]
  split_ifs
  · rfl
  · rfl
  · rfl

/-- What loading a segment does to an address that is mapped before. -/
theorem mapSegment_overwrites {x : U64} (contained : seg.pType = .load →
      seg.content.length ≤ seg.virtualSize.toNat) (mapped : (vk.uc.protAt x).isSome)
    (run : (mapSegment bias sections namePrefix span seg).Ends vk (.ok span') vk') :
    (vk'.uc.protAt x).isSome ∧
      vk'.uc.bytes x = (seg.overwrites bias x).getD (vk.uc.bytes x) := by
  unfold ElfSegment.overwrites
  by_cases unmapped : seg.Unmapped bias
  · obtain ⟨pages, -, bytes⟩ := mapSegment_unmapped unmapped run
    rw [if_pos unmapped]
    refine ⟨?_, bytes x⟩
    rwa [Unicorn.protAt, pages]
  · rw [if_neg unmapped]
    by_cases loaded : seg.pType = .load ∧ seg.virtualSize ≠ 0
    · have fits : seg.Fits bias := by
        by_contra beyond
        exact unmapped ⟨loaded.1, loaded.2, beyond⟩
      obtain ⟨adds, -⟩ := mapSegment_adds loaded.1 loaded.2 (contained loaded.1) fits run
      obtain ⟨prot, old⟩ := Option.isSome_iff_exists.1 mapped
      have old : vk.uc.view x = some (prot, vk.uc.bytes x) := by
        rw [Unicorn.view, old]
        rfl
      obtain ⟨now, byte, -⟩ := Unicorn.of_view (adds.of_old old)
      exact ⟨by rw [now]; rfl, byte⟩
    · rw [mapSegment_skip loaded] at run
      obtain ⟨-, rfl⟩ := ends_pure.1 run
      exact ⟨mapped, rfl⟩

/-- What loading all segments does to an address that is mapped before. -/
theorem mapSegments_overwrites {x : U64} {segs : List ElfSegment} (contained : ∀ seg ∈ segs,
      seg.pType = .load → seg.content.length ≤ seg.virtualSize.toNat)
    (mapped : (vk.uc.protAt x).isSome)
    (run : (segs.foldlM (mapSegment bias sections namePrefix) span).Ends vk (.ok span') vk') :
    vk'.uc.bytes x = (lastOf (segs.map (·.overwrites bias)) x).getD (vk.uc.bytes x) := by
  induction segs generalizing vk span with
  | nil =>
    obtain ⟨-, rfl⟩ := ends_pure.1 run
    rfl
  | cons seg segs ih =>
    rw [List.foldlM_cons] at run
    obtain ⟨mid, vk₁, first, rest⟩ := ends_bind_ok.1 run
    obtain ⟨still, byte⟩ := mapSegment_overwrites (contained seg List.mem_cons_self) mapped first
    rw [ih (fun s hs => contained s (List.mem_cons_of_mem _ hs)) still rest, byte, List.map_cons,
      getD_lastOf_cons]

/-! ## The bytes of the table -/

theorem ElfSegment.toNat_placed {k : ℕ}
    (bound : (satAdd bias seg.virtualAddress).toNat + k < 2 ^ 64) :
    (seg.placed bias k).toNat = (satAdd bias seg.virtualAddress).toNat + k := by
  rw [placed, BitVec.toNat_add, BitVec.toNat_ofNat]
  omega

/-- A segment leaves its content, unless it clears it again. -/
theorem mapSegment_places {k : ℕ} (load : seg.pType = .load)
    (contained : seg.content.length ≤ seg.virtualSize.toNat) (inside : k < seg.content.length)
    (run : (mapSegment bias sections namePrefix span seg).Ends vk (.ok span') vk') :
    (satAdd bias seg.virtualAddress).toNat + seg.content.length ≤ 2 ^ 64 ∧
      (vk'.uc.protAt (seg.placed bias k)).isSome ∧
      vk'.uc.bytes (seg.placed bias k) =
        (seg.overwrites bias (seg.placed bias k)).getD (seg.content.getD k 0) := by
  have nonempty : seg.virtualSize ≠ 0 := by
    intro zero
    rw [zero] at contained
    exact absurd (inside.trans_le contained) (Nat.not_lt_zero _)
  unfold ElfSegment.overwrites
  by_cases fits : seg.Fits bias
  · have known : ¬ seg.Unmapped bias := fun unmapped => unmapped.2.2 fits
    have start := ElfSegment.toNat_vaddr fits
    have bound : seg.base bias + seg.virtualSize.toNat ≤ 2 ^ 64 - 4096 := fits
    have number := @ElfSegment.toNat_placed seg bias k (by omega)
    obtain ⟨adds, -⟩ := mapSegment_adds load nonempty contained fits run
    have here : seg.image bias (seg.placed bias k) =
        some (Elf.protFromFlags seg.flags, seg.content.getD k 0) := by
      rw [ElfSegment.image, number, start, if_pos, if_pos (by omega), Nat.add_sub_cancel_left]
      unfold ElfSegment.pageStart ElfSegment.pageEnd
      omega
    obtain ⟨mapped, byte, -⟩ := Unicorn.of_view (adds.of_part here)
    rw [if_neg known]
    exact ⟨by omega, by rw [mapped]; rfl, byte⟩
  · have unmapped : seg.Unmapped bias := ⟨load, nonempty, fits⟩
    obtain ⟨pages, content, bytes⟩ := mapSegment_unmapped unmapped run
    have mapped := content.resolve_left (List.ne_nil_of_length_pos (by omega))
    have bound := mapped.1
    have number := @ElfSegment.toNat_placed seg bias k (by omega)
    have covered : InRange (satAdd bias seg.virtualAddress) seg.content.length (seg.placed bias k) := by
      unfold InRange
      omega
    rw [if_pos unmapped, bytes]
    refine ⟨bound, ?_, ?_⟩
    · rw [Unicorn.protAt, pages]
      exact mapped.2 _ covered
    · rw [ElfSegment.stores, if_pos covered]
      split_ifs
      · rfl
      · rfl

/-- What stands in the end where a segment has been placed. -/
theorem mapElfBinary_places {elf : Binary} {baseHint : U64} {m : MappedElf}
    {before after : List ElfSegment} {k : ℕ} (ofFile : elf.OfFile file)
    (split : elf.segments = before ++ seg :: after) (load : seg.pType = .load)
    (inside : k < seg.content.length)
    (run : (mapElfBinary elf baseHint namePrefix).Ends vk (.ok m) vk') :
    (satAdd (elf.loadBias baseHint) seg.virtualAddress).toNat + seg.content.length ≤ 2 ^ 64 ∧
      vk'.uc.bytes (seg.placed (elf.loadBias baseHint) k) =
        (lastOf ((seg :: after).map (·.overwrites (elf.loadBias baseHint)))
          (seg.placed (elf.loadBias baseHint) k)).getD (seg.content.getD k 0) := by
  have := @lawfulMonad Valkyrie ValkyrieError
  have contained := ofFile.contained
  obtain ⟨loop, -⟩ := mapElfBinary_ok run
  rw [split] at contained
  rw [split, List.foldlM_append] at loop
  obtain ⟨_, vk₁, -, loop⟩ := ends_bind_ok.1 loop
  rw [List.foldlM_cons] at loop
  obtain ⟨_, vk₂, first, rest⟩ := ends_bind_ok.1 loop
  obtain ⟨bound, mapped, byte⟩ := mapSegment_places load (contained seg (by simp) load) inside first
  have last := mapSegments_overwrites (fun s mem => contained s (by simp [mem])) mapped rest
  refine ⟨bound, ?_⟩
  rw [last, byte, List.map_cons, getD_lastOf_cons]

section Table

variable {elf : Binary} {baseHint : U64} {m : MappedElf} {before after : List ElfSegment}

/-- What the loader says of the table. -/
theorem mapElfBinary_header (run : (mapElfBinary elf baseHint namePrefix).Ends vk (.ok m) vk') :
    programHeadersAddr elf (elf.loadBias baseHint) = .ok m.phdr ∧
      m.phent.toNat * m.phnum.toNat = elf.tableSize := by
  rw [mapElfBinary] at run
  obtain ⟨span, vk₁, -, rest⟩ := ends_bind_ok.1 run
  split_ifs at rest
  · cases (ends_throw.1 rest).1
  · obtain ⟨phdr, vk₂, found, done⟩ := ends_bind_ok.1 rest
    obtain ⟨answer, rfl⟩ := ends_ofExcept.1 found
    obtain ⟨same, rfl⟩ := ends_pure.1 done
    cases same
    refine ⟨answer.symm, ?_⟩
    have size := elf.header.programHeaderSize.isLt
    have number := elf.header.numberofSegments.isLt
    simp only [BitVec.toNat_setWidth]
    rw [Nat.mod_eq_of_lt (by omega), Nat.mod_eq_of_lt (by omega), Binary.tableSize]

/-- The table is a part of the content of the segment that holds it. -/
theorem Binary.OfFile.table_eq (ofFile : elf.OfFile file) (mem : seg ∈ elf.segments)
    (held : elf.HeldBy seg) : elf.table file = (List.range elf.tableSize).map fun i =>
      seg.content.getD (elf.header.programHeadersOffset.toNat - seg.fileOffset.toNat + i) 0 := by
  obtain ⟨load, start, stop⟩ := held
  have content := ofFile.content seg mem load
  have length := ofFile.full seg mem load
  rw [content, List.length_take, List.length_drop] at length
  rw [Binary.table, content]
  apply List.ext_getElem
  · rw [List.length_take, List.length_drop, List.length_map, List.length_range]
    omega
  · intro i inside _
    rw [List.length_take, List.length_drop] at inside
    rw [List.getElem_take, List.getElem_drop, List.getElem_map, List.getElem_range,
      List.getD_eq_getElem?_getD, List.getElem?_take_of_lt (by omega), List.getElem?_drop]
    have same : seg.fileOffset.toNat + (elf.header.programHeadersOffset.toNat -
        seg.fileOffset.toNat + i) = elf.header.programHeadersOffset.toNat + i := by omega
    rw [same, List.getElem?_eq_getElem (by omega), Option.getD_some]

/-- The table stands where the loader says unless some of its bytes are overwritten with others. -/
theorem contents_eq_table_iff (ofFile : elf.OfFile file)
    (split : elf.segments = before ++ seg :: after) (held : elf.HeldBy seg)
    (placed : m.phdr = satAdd (satAdd (elf.loadBias baseHint) seg.virtualAddress)
      (satSub elf.header.programHeadersOffset seg.fileOffset))
    (run : (mapElfBinary elf baseHint namePrefix).Ends vk (.ok m) vk') :
    vk'.uc.contents m.phdr elf.tableSize = elf.table file ↔
      ∀ i < elf.tableSize, ∀ byte,
        lastOf ((seg :: after).map (·.overwrites (elf.loadBias baseHint)))
          (seg.placed (elf.loadBias baseHint)
            (elf.header.programHeadersOffset.toNat - seg.fileOffset.toNat + i)) = some byte →
        seg.content[elf.header.programHeadersOffset.toNat - seg.fileOffset.toNat + i]? =
          some byte := by
  have mem : seg ∈ elf.segments := by rw [split]; simp
  rw [ofFile.table_eq mem held, Unicorn.contents, List.map_inj_left]
  simp only [List.mem_range]
  refine forall_congr' fun i => forall_congr' fun hi => ?_
  obtain ⟨load, start, stop⟩ := held
  have length := ofFile.full seg mem load
  obtain ⟨bound, byte⟩ := mapElfBinary_places ofFile split load
    (k := elf.header.programHeadersOffset.toNat - seg.fileOffset.toNat + i) (by omega) run
  have here : m.phdr + BitVec.ofNat 64 i = seg.placed (elf.loadBias baseHint)
      (elf.header.programHeadersOffset.toNat - seg.fileOffset.toNat + i) := by
    apply BitVec.eq_of_toNat_eq
    rw [ElfSegment.toNat_placed (by omega), placed, BitVec.toNat_add, BitVec.toNat_ofNat,
      toNat_satAdd, toNat_satSub]
    omega
  rw [here, byte, List.getD_eq_getElem?_getD, List.getElem?_eq_getElem (by omega), Option.getD_some]
  cases lastOf ((seg :: after).map (·.overwrites (elf.loadBias baseHint)))
      (seg.placed (elf.loadBias baseHint)
        (elf.header.programHeadersOffset.toNat - seg.fileOffset.toNat + i)) with
  | none => simp
  | some b => simp [@eq_comm _ b]

/-- A list is split at its first member of a kind in one way. -/
theorem split_unique {α : Type} {p : α → Prop} [DecidablePred p] {l b b' a a' : List α} {x x' : α}
    (here : l = b ++ x :: a) (there : l = b' ++ x' :: a') (holds : p x) (holds' : p x')
    (before : ∀ y ∈ b, ¬ p y) (before' : ∀ y ∈ b', ¬ p y) : x = x' ∧ a = a' := by
  have rest (b a : List α) (x : α) (holds : p x) (before : ∀ y ∈ b, ¬ p y) :
      (b ++ x :: a).dropWhile (fun y => ¬ p y) = x :: a := by
    rw [List.dropWhile_append_of_pos fun y mem => decide_eq_true (before y mem)]
    exact List.dropWhile_cons_of_neg (by simpa using holds)
  have same := rest b a x holds before
  rw [← here, there, rest b' a' x' holds' before'] at same
  cases same
  exact ⟨rfl, rfl⟩

/-- The address points at the program headers exactly when the table does not begin at the last offset
and, in a run that succeeds, no byte of it is overwritten with another. -/
theorem points_at_headers_iff (ofFile : elf.OfFile file) :
    PointsAtHeaders elf file baseHint namePrefix vk ↔ ¬ elf.PastEnd ∧
      ((∃ m vk', (mapElfBinary elf baseHint namePrefix).Ends vk (.ok m) vk') →
        ¬ elf.Overwritten (elf.loadBias baseHint)) := by
  constructor
  · rintro ⟨points, fails⟩
    have within : ¬ elf.PastEnd := by
      intro past
      obtain ⟨⟨seg, mem, accepted⟩, none_⟩ := ofFile.of_pastEnd past
      exact programHeadersAddr_error_iff.1 (fails.2 none_) seg mem accepted
    refine ⟨within, ?_⟩
    rintro ⟨m, vk', run⟩ ⟨before, seg, after, split, held, first, i, hi, byte, written, differs⟩
    obtain ⟨found, size⟩ := mapElfBinary_header run
    obtain ⟨b, s, a, split', accepted, first', placed⟩ := programHeadersAddr_ok found
    have held' := (ofFile.accepts_iff within (by rw [split']; simp)).1 accepted
    have others : ∀ s ∈ b, ¬ elf.HeldBy s := fun s mem held =>
      first' s mem ((ofFile.accepts_iff within (by rw [split']; simp [mem])).2 held)
    obtain ⟨rfl, rfl⟩ := split_unique split split' held held' first others
    have equal := points m vk' run
    rw [size, contents_eq_table_iff ofFile split held placed run] at equal
    exact differs (equal i hi byte written)
  · rintro ⟨within, kept⟩
    constructor
    · intro m vk' run
      obtain ⟨found, size⟩ := mapElfBinary_header run
      obtain ⟨before, seg, after, split, accepted, first, placed⟩ := programHeadersAddr_ok found
      have held := (ofFile.accepts_iff within (by rw [split]; simp)).1 accepted
      have others : ∀ s ∈ before, ¬ elf.HeldBy s := fun s mem held =>
        first s mem ((ofFile.accepts_iff within (by rw [split]; simp [mem])).2 held)
      rw [size]
      refine (contents_eq_table_iff ofFile split held placed run).2 fun i hi byte written => ?_
      by_contra differs
      exact kept ⟨m, vk', run⟩
        ⟨before, seg, after, split, held, others, i, hi, byte, written, differs⟩
    · rw [programHeadersAddr_error_iff]
      exact forall₂_congr fun seg mem => not_congr (ofFile.accepts_iff within mem)

/-- When every segment fits, nothing is overwritten. -/
theorem not_overwritten_of_fits (fits : ∀ seg ∈ elf.loads, seg.Fits bias) :
    ¬ elf.Overwritten bias := by
  have silent : ∀ (segs : List ElfSegment) (x : U64), (∀ s ∈ segs, ¬ s.Unmapped bias) →
      lastOf (segs.map (·.overwrites bias)) x = none := by
    intro segs x known
    induction segs with
    | nil => rfl
    | cons s segs ih =>
      rw [List.map_cons, lastOf_cons, ih fun t mem => known t (List.mem_cons_of_mem _ mem),
        ElfSegment.overwrites, if_neg (known s List.mem_cons_self)]
      rfl
  rintro ⟨before, seg, after, split, -, -, i, -, byte, written, -⟩
  rw [silent] at written
  · cases written
  · rintro s mem ⟨load, nonempty, beyond⟩
    refine beyond (fits s (List.mem_filter.2 ⟨?_, decide_eq_true ⟨load, nonempty⟩⟩))
    rw [split]
    exact List.mem_append_right _ mem

/-- The file of `oneSegment`. -/
theorem oneSegment_ofFile (virtualAddress : U64) :
    (oneSegment virtualAddress).OfFile (List.replicate 120 0x7f) where
  size := by
    rw [List.length_replicate]
    decide
  content seg mem _ := by
    rw [List.mem_singleton.1 mem]
    rfl
  full seg mem _ := by
    rw [List.mem_singleton.1 mem]
    rfl
  contained seg mem _ := by
    rw [List.mem_singleton.1 mem]
    show (List.replicate 120 (0x7f : U8)).length ≤ 130
    rw [List.length_replicate]
    decide

theorem points_at_headers_iff_oneSegment : PointsAtHeaders (oneSegment 0x400000)
    (List.replicate 120 0x7f) 0 none (.ofMemory .x86_64 ⟨[], 0, 0⟩) := by
  refine (points_at_headers_iff (oneSegment_ofFile 0x400000)).2 ⟨?_, fun _ => ?_⟩
  · exact fun past => absurd past.2.1 (by decide)
  · exact not_overwritten_of_fits (by decide)

/-- An executable of two segments in the last page, the second of them at the program headers of the
first. -/
def lastPageHeaders : Binary where
  header := ⟨.other, 0xfffffffffffff000, 64, 56, 2⟩
  segments := [
    ⟨.load, 5, 0, 0xfffffffffffff000, 176, 176, List.replicate 176 0x7f⟩,
    ⟨.load, 6, 176, 0xfffffffffffff040, 8, 8, List.replicate 8 1⟩]
  sections := []
  interpreter := []

/-- A file of two pieces. -/
def lastPageFile : List U8 := List.replicate 176 0x7f ++ List.replicate 8 1

theorem lastPageHeaders_ofFile : lastPageHeaders.OfFile lastPageFile := by
  have each : ∀ seg ∈ lastPageHeaders.segments,
      seg.content = (lastPageFile.drop seg.fileOffset.toNat).take seg.physicalSize.toNat ∧
        seg.content.length = seg.physicalSize.toNat ∧
        seg.content.length ≤ seg.virtualSize.toNat := by decide +kernel
  refine ⟨?_, fun seg mem _ => (each seg mem).1, fun seg mem _ => (each seg mem).2.1,
    fun seg mem _ => (each seg mem).2.2⟩
  rw [lastPageFile, List.length_append, List.length_replicate, List.length_replicate]
  decide

set_option maxRecDepth 20000 in
/-- In the last page the second segment overwrites the program headers. -/
theorem headers_overwritten : ¬ ∀ (elf : Binary) (file : List U8) (baseHint : U64)
    (namePrefix : Option String) (vk : Valkyrie),
    elf.OfFile file → PointsAtHeaders elf file baseHint namePrefix vk := by
  intro always
  have run : ∃ m vk', (mapElfBinary lastPageHeaders 0 none).Ends lastPage (.ok m) vk' ∧
      vk'.uc.bytes 0xfffffffffffff040 = 1 ∧ m.phdr = 0xfffffffffffff040 ∧
      m.phent.toNat * m.phnum.toNat = 112 := ⟨_, _, rfl, rfl, rfl, rfl⟩
  obtain ⟨m, vk', run, byte, phdr, size⟩ := run
  have equal := (always _ _ 0 none lastPage lastPageHeaders_ofFile).1 m vk' run
  have first := @Unicorn.getD_contents vk'.uc 0xfffffffffffff040 112 0xfffffffffffff040 (by decide)
  rw [phdr, size] at equal
  rw [equal, byte] at first
  exact absurd first (by decide +kernel)

end Table

end ValkyrieRs

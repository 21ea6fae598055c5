import Mathlib.Data.List.Sort
import ValkyrieRs.State

/-!
# The ELF loader

`map_elf_binary` of `loader/elf.rs` over what `lief` reports of a binary, and `zero_fill` of
`common.rs`.  Each loadable segment is mapped in runs of pages that carry one section name, then its
content is written and the rest of it cleared.
-/

namespace ValkyrieRs

open Proc

/-! ## What `lief` reports -/

/-- `segment::Type`, the values that the loader asks for. -/
inductive SegmentType where
  | load
  | interp
  | other
deriving DecidableEq

/-- A program header with its content. -/
structure ElfSegment where
  pType : SegmentType
  flags : U32
  fileOffset : U64
  virtualAddress : U64
  physicalSize : U64
  virtualSize : U64
  content : List U8
deriving DecidableEq

/-- A section header. -/
structure ElfSection where
  name : String
  flags : U64
  virtualAddress : U64
  size : U64
deriving DecidableEq

/-- `FileType`, the value that the loader asks for. -/
inductive FileType where
  | dyn
  | other
deriving DecidableEq

/-- What the loader uses of the file header. -/
structure ElfHeader where
  fileType : FileType
  entrypoint : U64
  programHeadersOffset : U64
  programHeaderSize : U32
  numberofSegments : U32
deriving DecidableEq

/-- A parsed binary. -/
structure Binary where
  header : ElfHeader
  segments : List ElfSegment
  sections : List ElfSection
  interpreter : List Char
deriving DecidableEq

/-- `PF_X`: the segment is executed. -/
def pfX : U32 := 1

/-- `PF_W`: the segment is written. -/
def pfW : U32 := 2

/-- `PF_R`: the segment is read. -/
def pfR : U32 := 4

/-- `Flags::ALLOC`. -/
def shfAlloc : U64 := 2

/-! ## Section names -/

/-- The addresses of a section, with its name. -/
structure SectionSpan where
  start : U64
  stop : U64
  name : String
deriving DecidableEq

/-- The span of a section that occupies memory and has a name. -/
def ElfSection.span (s : ElfSection) : Option SectionSpan :=
  if s.flags &&& shfAlloc ≠ shfAlloc then none
  else if s.size = 0 then none
  else if satAdd s.virtualAddress s.size ≤ s.virtualAddress then none
  else if s.name = "" then none
  else some ⟨s.virtualAddress, satAdd s.virtualAddress s.size, s.name⟩

/-- `collect_alloc_sections`: the spans by their starts. -/
def collectAllocSections (elf : Binary) : List SectionSpan :=
  (elf.sections.filterMap ElfSection.span).insertionSort fun s t => s.start ≤ t.start

/-- The name of the section that overlaps the page most, the first of them if there are several. -/
def sectionNameForPage (pageStart pageEnd : U64) (sections : List SectionSpan) : String :=
  let best := sections.foldl (fun best s =>
    if s.stop ≤ pageStart ∨ pageEnd ≤ s.start then best
    else
      let overlap := satSub (min pageEnd s.stop) (max pageStart s.start)
      if best.2 < overlap then (s.name, overlap) else best) ("segment", (0 : U64))
  "[" ++ best.1 ++ "]"

/-- `trim_matches(['[', ']'])`. -/
def trimBrackets (name : String) : String :=
  let bracket := fun c => c = '[' ∨ c = ']'
  String.ofList (((name.toList.dropWhile bracket).reverse.dropWhile bracket).reverse)

/-- `prefixed_section_name`: the prefix goes inside the brackets. -/
def prefixedSectionName (sectionName : String) : Option String → String
  | some namePrefix => "[" ++ namePrefix ++ ":" ++ trimBrackets sectionName ++ "]"
  | none => sectionName

/-! ## Mapping -/

/-- `prot_from_flags` of `loader/elf.rs`. -/
def Elf.protFromFlags (flags : U32) : Prot where
  read := flags &&& pfR = pfR
  write := flags &&& pfW = pfW
  exec := flags &&& pfX = pfX

/-- The loop of `zero_fill`, with at least as much fuel as pages. -/
def zeroFillLoop : ℕ → U64 → U64 → VkM Unit
  | 0, _, _ => diverge
  | fuel + 1, addr, size =>
    if 0 < size then do
      let writeSize := min size pageSize
      let vk ← get
      let uc ← ofExcept ((vk.uc.memWrite addr (List.replicate writeSize.toNat 0)).mapError
        fun _ => .unicornGeneralError "mem_write failed")
      modify fun vk => vk.withUc uc
      zeroFillLoop fuel (satAdd addr writeSize) (satSub size writeSize)
    else pure ()

/-- `zero_fill`. -/
def zeroFill (addr size : U64) : VkM Unit := zeroFillLoop (size.toNat / 4096 + 2) addr size

/-- The name of the page at `current` as the loader writes it. -/
def pageLabel (sections : List SectionSpan) (namePrefix : Option String) (current : U64) : String :=
  prefixedSectionName (sectionNameForPage current (current + pageSize) sections) namePrefix

/-- The loop of `map_segment_by_section`. -/
def mapChunks (alignedEnd : U64) (prot : Prot) (sections : List SectionSpan)
    (namePrefix : Option String) : ℕ → U64 → U64 → String → VkM Unit
  | 0, _, _, _ => diverge
  | fuel + 1, chunkStart, current, chunkLabel =>
    if current < alignedEnd then
      let next := current + pageSize
      let nextLabel := if next < alignedEnd then pageLabel sections namePrefix next else chunkLabel
      if alignedEnd ≤ next ∨ nextLabel ≠ chunkLabel then do
        memMap chunkStart (satSub next chunkStart) prot chunkLabel
        mapChunks alignedEnd prot sections namePrefix fuel next next nextLabel
      else mapChunks alignedEnd prot sections namePrefix fuel chunkStart next chunkLabel
    else pure ()

/-- `map_segment_by_section`; `page_size` is always `PAGE_SIZE`. -/
def mapSegmentBySection (alignedStart alignedEnd : U64) (prot : Prot) (sections : List SectionSpan)
    (namePrefix : Option String) : VkM Unit :=
  mapChunks alignedEnd prot sections namePrefix (alignedEnd.toNat / 4096 + 1) alignedStart
    alignedStart (pageLabel sections namePrefix alignedStart)

/-- The body of the loop of `map_elf_binary`; `span` is the pair of `min_addr` and `max_addr`. -/
def mapSegment (loadBias : U64) (sections : List SectionSpan) (namePrefix : Option String)
    (span : U64 × U64) (seg : ElfSegment) : VkM (U64 × U64) :=
  if seg.pType ≠ .load then pure span
  else
    let vaddr := satAdd loadBias seg.virtualAddress
    let vsize := seg.virtualSize
    if vsize = 0 then pure span
    else do
      let alignedStart := alignDown vaddr pageSize
      let alignedEnd := alignUp (satAdd vaddr vsize) pageSize
      mapSegmentBySection alignedStart alignedEnd (Elf.protFromFlags seg.flags) sections namePrefix
      let written := BitVec.ofNat 64 seg.content.length
      let _ ← (if seg.content = [] then pure () else memWrite vaddr seg.content : VkM Unit)
      let bssSize := satSub vsize written
      let _ ← (if 0 < bssSize then zeroFill (vaddr + written) bssSize else pure () : VkM Unit)
      pure (min span.1 alignedStart, max span.2 alignedEnd)

/-- `program_headers_addr`: where the program headers are mapped. -/
def programHeadersAddr (elf : Binary) (loadBias : U64) : Except ValkyrieError U64 :=
  let phoff := elf.header.programHeadersOffset
  let phend := satAdd phoff (satMul (elf.header.programHeaderSize.setWidth 64)
    (elf.header.numberofSegments.setWidth 64))
  match elf.segments.find? fun seg => seg.pType = .load ∧ seg.fileOffset ≤ phoff ∧
      phend ≤ satAdd seg.fileOffset seg.physicalSize with
  | some seg =>
    .ok (satAdd (satAdd loadBias seg.virtualAddress) (satSub phoff seg.fileOffset))
  | none => .error (.loader "failed to locate mapped ELF program headers")

/-- What is known of a mapped binary. -/
structure MappedElf where
  minAddr : U64
  maxAddr : U64
  entry : U64
  phdr : U64
  phent : U64
  phnum : U64
  base : U64
deriving DecidableEq

/-- The load bias: only a shared object is moved. -/
def Binary.loadBias (elf : Binary) (baseHint : U64) : U64 :=
  if elf.header.fileType = .dyn then baseHint else 0

/-- `map_elf_binary`: the loadable segments are mapped in order. -/
def mapElfBinary (elf : Binary) (baseHint : U64) (namePrefix : Option String) : VkM MappedElf := do
  let loadBias := elf.loadBias baseHint
  let span ← elf.segments.foldlM
    (mapSegment loadBias (collectAllocSections elf) namePrefix) (u64Max, 0)
  if span.1 = u64Max then throw (.loader "no loadable ELF segments")
  else
    let phdr ← ofExcept (programHeadersAddr elf loadBias)
    pure {
      minAddr := span.1
      maxAddr := span.2
      entry := satAdd loadBias elf.header.entrypoint
      phdr
      phent := elf.header.programHeaderSize.setWidth 64
      phnum := elf.header.numberofSegments.setWidth 64
      base := loadBias }

/-! ## The loader -/

/-- The binary asks for an interpreter. -/
def hasInterp (elf : Binary) : Bool := elf.segments.any (·.pType = .interp)

/-- `choose_shared_object_base`: behind everything that is mapped, with a gap. -/
def chooseSharedObjectBase (vk : Valkyrie) : U64 :=
  let guardGap := 0x01000000
  let highest := (vk.mem.regions.map VMemRegion.satEnd).max?.getD 0
  alignUp (satAdd highest guardGap) pageSize

/-- The interpreter of a program is mapped behind it; `parse` is `Binary::parse`. -/
def mapInterpreter (parse : List Char → Option Binary) (elf : Binary) : VkM MappedElf := do
  let vk ← get
  match parse (resolveGuestPath vk.cfg.rootfs elf.interpreter) with
  | none => throw (.loader "failed to parse ELF interpreter")
  | some interp => mapElfBinary interp (chooseSharedObjectBase vk) (some "ld.so")

/-- The program and its interpreter are mapped and recorded; the value is the load address and the
entry point. -/
def mapProgram (parse : List Char → Option Binary) (elfPath : List Char) (elf : Binary) :
    VkM (U64 × U64) := do
  let main ← mapElfBinary elf 0 none
  if hasInterp elf then
    let interp ← mapInterpreter parse elf
    let loadAddress := min main.minAddr interp.minAddr
    modify fun vk => { vk with
      elfAuxv := some ⟨main.phdr, main.phent, main.phnum, interp.base, main.entry,
        utf8Bytes elfPath⟩
      addrs.codeAddrStart := loadAddress
      addrs.codeAddrExit := max main.maxAddr interp.maxAddr }
    return (loadAddress, interp.entry)
  else
    modify fun vk => { vk with
      elfAuxv := some ⟨main.phdr, main.phent, main.phnum, 0, main.entry, utf8Bytes elfPath⟩
      addrs.codeAddrStart := main.minAddr
      addrs.codeAddrExit := main.maxAddr }
    return (main.minAddr, main.entry)

/-- `LoaderElf::run`, with the load address. -/
def loaderElfRun (parse : List Char → Option Binary) : VkM U64 := do
  let vk ← get
  match vk.start.elfFile with
  | none => throw (.badConfig "elf file path is missing")
  | some elfPath =>
    match parse elfPath with
    | none => throw (.loader "failed to parse ELF file")
    | some elf =>
      let loaded ← mapProgram parse elfPath elf
      if vk.start.entryPoint = 0 then
        modify fun vk => { vk with start.entryPoint := loaded.2 }
      let stackSize := vk.start.stackSize
      if stackSize = 0 then
        throw (.badConfig "stack_size must be > 0")
      let heapSize := vk.start.heapSize
      if heapSize = 0 then
        throw (.badConfig "heap_size must be > 0")
      let mapped ← get
      let maxAddr := mapped.addrs.codeAddrExit
      let tlsAddrStart := alignUp (maxAddr + pageSize) pageSize
      let tlsAddrExit := tlsAddrStart + pageSize
      let stackAddr := alignUp (tlsAddrExit + pageSize) pageSize
      let stackAddrExit := stackAddr + stackSize
      modify (·.withAddrs ⟨stackAddr, stackAddrExit, mapped.addrs.codeAddrStart, maxAddr,
        tlsAddrStart, tlsAddrExit⟩)
      memMap stackAddr stackSize .all "[stack]"
      let heapAddr := alignUp (stackAddrExit + pageSize) pageSize
      modify (·.withHeap heapAddr (heapAddr + heapSize))
      memMap heapAddr heapSize .all "[heap]"
      let sp := satSub stackAddrExit 0x10
      VRegs.setReg vk.cfg.arch.spReg sp
      return loaded.1

end ValkyrieRs

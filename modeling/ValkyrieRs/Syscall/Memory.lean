import ValkyrieRs.Lib.Loop
import ValkyrieRs.State

/-!
# Memory system calls

`os/syscall/memory.rs`.
-/

namespace ValkyrieRs

open Proc

/-! ## `brk` and `arch_prctl` -/

/-- The greatest end of a `[heap]` region, or the break; the plain addition wraps. -/
def VMemory.mappedHeapEnd (mem : VMemory) : U64 :=
  (((mem.regions.filter (·.info == "[heap]")).map fun r => r.start + r.size).max?).getD
    mem.heapAddrExit

/-- The lowest start of another region behind the mapped heap. -/
def VMemory.heapLimit (mem : VMemory) : U64 :=
  ((((mem.regions.filter (·.info != "[heap]")).filter (·.start ≥ mem.mappedHeapEnd)).map
    (·.start)).min?).getD u64Max

/-- The break is told, or moved. -/
def sysBrk (sctx : SubCtx) : VkM U64 := do
  let vk ← get
  let request := sctx.arg0
  let current := vk.mem.heapAddrExit
  if request = 0 then
    return current
  let mappedHeapEnd := vk.mem.mappedHeapEnd
  let newBreak := alignUp request pageSize
  if newBreak < vk.mem.heapAddrStart ∨ newBreak > vk.mem.heapLimit then
    return current
  if newBreak > mappedHeapEnd then
    let mapStart := alignUp mappedHeapEnd pageSize
    let mapSize := satSub newBreak mapStart
    if mapSize > 0 then
      memMap mapStart mapSize Prot.all "[heap]"
  modify fun vk => vk.withMem (vk.mem.setBreak newBreak) vk.uc
  return newBreak

/-- A segment base is set or told. -/
def sysArchPrctl (sctx : SubCtx) : VkM U64 := do
  let code := sctx.arg0
  let addr := sctx.arg1
  let vk ← get
  if vk.arch.arch ≠ .x86_64 then
    return negErrno EINVAL
  if code = archSetFs then
    VRegs.setReg (.x86_64 .fsBase) addr
    return 0
  else if code = archSetGs then
    VRegs.setReg (.x86_64 .gsBase) addr
    return 0
  else if code = archGetFs then
    let value ← VRegs.getReg (.x86_64 .fsBase)
    memWrite addr (toLeBytes 8 value)
    return 0
  else if code = archGetGs then
    let value ← VRegs.getReg (.x86_64 .gsBase)
    memWrite addr (toLeBytes 8 value)
    return 0
  else
    return negErrno EINVAL

/-! ## `mmap` -/

/-- `prot_from_flags`. -/
def protFromFlags (prot : U32) : Prot :=
  ⟨prot &&& protRead ≠ 0, prot &&& protWrite ≠ 0, prot &&& protExec ≠ 0⟩

/-- One turn of the loop of `next_mmap_addr`: the next candidate, if a region is in the way. -/
def nextCandidate (regions : List VMemRegion) (len candidate : U64) : Option U64 :=
  (regions.find? fun r => candidate < r.satEnd ∧ satAdd candidate len > r.start).map fun r =>
    alignUp r.satEnd pageSize

/-- The first candidate of `next_mmap_addr`, behind the guard gap. -/
def VMemory.mmapBase (mem : VMemory) : U64 :=
  alignUp (satAdd mem.heapAddrExit 0x10000000) pageSize

/-- `next_mmap_addr`; `none` when its loop never ends. -/
def VMemory.nextMmapAddr (mem : VMemory) (len : U64) : Option U64 :=
  Loop.run (nextCandidate mem.regions len) (mem.regions.length + 1) mem.mmapBase

/-- The fuel is no restriction: a search that does not end with it never ends. -/
theorem VMemory.nextMmapAddr_eq_none {mem : VMemory} {len : U64} (h : mem.nextMmapAddr len = none)
    (fuel : ℕ) : Loop.run (nextCandidate mem.regions len) fuel mem.mmapBase = none := by
  have targets : ∀ a b, nextCandidate mem.regions len a = some b →
      b ∈ mem.regions.map fun r => alignUp r.satEnd pageSize := by
    intro a b hab
    obtain ⟨r, found, rfl⟩ := Option.map_eq_some_iff.1 hab
    exact List.mem_map_of_mem (List.mem_of_find?_eq_some found)
  apply Loop.run_of_targets targets
  rw [List.length_map]
  exact h

/-- The scope of a local `File`, which closes its descriptor when dropped. -/
def withFile {α : Type} (file : U32) (body : VkM α) : VkM α := do
  let result ← body.attempt
  let _ ← hostCall fun h => h.close file
  ofExcept result

/-- `map_file_bytes`: the content of a file is stored in a mapping. -/
def mapFileBytes (addr size fd offset : U64) : VkM U64 := do
  if size = 0 then
    return 0
  let vk ← get
  match vk.fdTable.lookup fd with
  | none => return negErrno EBADF
  | some vkf =>
    match ← hostCall fun h => h.dup vkf.file with
    | .error _ => return negErrno EIO
    | .ok file => withFile file do
      match ← hostCall fun h => h.seek file offset.toNat with
      | .error _ => return negErrno EIO
      | .ok () =>
        hostAlloc size.toNat
        match ← hostCall fun h => h.read file size.toNat with
        | .error _ => return negErrno EIO
        | .ok data =>
          -- the single read fills a prefix of the zeroed buffer
          memWrite addr (data ++ List.replicate (size.toNat - data.length) 0)
          return 0

/-- What `MAP_FIXED` does to the range: the engine's refusal is ignored. -/
def replaceRange (addr size : U64) : VkM Unit := do
  let _ ← (ucCall fun uc => uc.memUnmap addr size).attempt
  modify fun vk => vk.withMem (vk.mem.removeRange addr size) vk.uc

/-- Memory is mapped, from a file or empty. -/
def sysMmap (sctx : SubCtx) : VkM U64 := do
  let addr := sctx.arg0
  let len := sctx.arg1
  let prot := sctx.arg2.setWidth 32
  let flags := sctx.arg3.setWidth 32
  let fd := sctx.arg4
  let offset := sctx.arg5
  if len = 0 then
    return negErrno EINVAL
  let mapLen := alignUp len pageSize
  if isMultipleOf addr pageSize = false then
    return negErrno EINVAL
  let useFixed := flags &&& mapFixed ≠ 0
  let vk ← get
  let mapAddr ← ofOption (if addr = 0 ∨ ¬ useFixed then vk.mem.nextMmapAddr mapLen else some addr)
  if useFixed then
    replaceRange mapAddr mapLen
  match ← (memMap mapAddr mapLen (protFromFlags prot) "[mmap]").attempt with
  | .error _ => return negErrno ENOMEM
  | .ok () =>
    let isAnon := flags &&& mapAnonymous ≠ 0
    if ¬ isAnon ∧ 0 ≤ fd.toInt then
      let result ← mapFileBytes mapAddr mapLen fd offset
      if result ≠ 0 then
        return result
    return mapAddr

/-- `sys_mmap` with an offset in pages. -/
def sysMmap2 (sctx : SubCtx) : VkM U64 :=
  sysMmap { sctx with arg5 := satMul sctx.arg5 pageSize }

/-! ## `mprotect` and `munmap` -/

/-- The loop of `sys_mprotect` over the list; the plain addition wraps. -/
def VMemory.protectRegions (mem : VMemory) (start stop : U64) (prot : Prot) : VMemory :=
  { mem with regions := mem.regions.map fun r =>
      if start < r.start + r.size ∧ stop > r.start then { r with prot } else r }

/-- The protection of mapped memory is changed. -/
def sysMprotect (sctx : SubCtx) : VkM U64 := do
  let addr := sctx.arg0
  let len := sctx.arg1
  let prot := sctx.arg2.setWidth 32
  if len = 0 then
    return negErrno EINVAL
  let start := alignDown addr pageSize
  let stop := alignUp (satAdd addr len) pageSize
  let size := satSub stop start
  ucCall fun uc => uc.memProtect start size (protFromFlags prot)
  modify fun vk => vk.withMem (vk.mem.protectRegions start stop (protFromFlags prot)) vk.uc
  return 0

/-- Memory is unmapped. -/
def sysMunmap (sctx : SubCtx) : VkM U64 := do
  let addr := sctx.arg0
  let len := sctx.arg1
  if addr = 0 then
    return negErrno EINVAL
  if len = 0 then
    return negErrno EINVAL
  if isMultipleOf addr pageSize = false then
    return negErrno EINVAL
  let unmapLen := alignUp len pageSize
  match ← (ucCall fun uc => uc.memUnmap addr unmapLen).attempt with
  | .error _ => return negErrno EINVAL
  | .ok () =>
    modify fun vk => vk.withMem (vk.mem.removeRange addr unmapLen) vk.uc
    return 0

end ValkyrieRs

import ValkyrieRs.State

/-!
# The loader of bare code

`LoaderBlob::run` of `loader/blob.rs`.
-/

namespace ValkyrieRs

open Proc

/-- `LoaderBlob::run`, with the load address. -/
def loaderBlobRun : VkM U64 := do
  let vk ← get
  let entry := vk.start.codeBaseAddress
  let codeSize := vk.start.codeRamSize
  if codeSize = 0 then
    throw (.badConfig "code_size must be > 0")
  if vk.start.baremetalCode = [] then
    throw (.badConfig "baremetal code must be non-empty")
  memMap entry codeSize .all "[code]"
  memWrite entry vk.start.baremetalCode
  let codeAddrExit := entry + codeSize
  let tlsAddrStart := alignUp (codeAddrExit + pageSize) pageSize
  let tlsAddrExit := tlsAddrStart + pageSize
  let stackAddr := alignUp (tlsAddrExit + pageSize) pageSize
  let stackSize := vk.start.stackSize
  let stackAddrExit := stackAddr + stackSize
  modify (·.withAddrs ⟨stackAddr, stackAddrExit, entry, codeAddrExit, tlsAddrStart, tlsAddrExit⟩)
  if stackSize = 0 then
    throw (.badConfig "stack_size must be > 0")
  memMap stackAddr stackSize .all "[stack]"
  let heapAddr := alignUp (stackAddrExit + pageSize) pageSize
  let heapSize := vk.start.heapSize
  modify (·.withHeap heapAddr (heapAddr + heapSize))
  if heapSize = 0 then
    throw (.badConfig "heap_size must be > 0")
  memMap heapAddr heapSize .all "[heap]"
  let sp := stackAddr + stackSize - 0x10
  VRegs.setReg vk.cfg.arch.spReg sp
  return entry

end ValkyrieRs

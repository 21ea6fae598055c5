import ValkyrieRs.Proof.Regions
import ValkyrieRs.Syscall.Memory

/-!
# What the memory calls can do

One lemma for each memory system call: every way in which it ends, with the state it leaves.
-/

namespace ValkyrieRs

open Proc

/-! ## The arguments -/

namespace SubCtx

variable (sctx : SubCtx)

/-- `align_up(len, PAGE_SIZE)`, the length of `mmap` and `munmap`. -/
def mapLen : U64 := alignUp sctx.arg1 pageSize

/-- `prot_from_flags(prot)`, for `mmap` and `mprotect`. -/
def mapProt : Prot := protFromFlags (sctx.arg2.setWidth 32)

/-- `MAP_FIXED` is given. -/
abbrev UseFixed : Prop := sctx.arg3.setWidth 32 &&& mapFixed ≠ 0

/-- `MAP_ANONYMOUS` is given. -/
abbrev IsAnon : Prop := sctx.arg3.setWidth 32 &&& mapAnonymous ≠ 0

/-- File bytes are loaded: the mapping is not anonymous and the descriptor not negative. -/
abbrev IsFile : Prop := ¬ sctx.IsAnon ∧ 0 ≤ sctx.arg4.toInt

/-- `sys_mmap` refuses the arguments at once. -/
abbrev MmapRefused : Prop := sctx.arg1 = 0 ∨ ¬ Aligned sctx.arg0

/-- The arguments that `sys_mmap2` hands to `sys_mmap`. -/
def mmap2Ctx : SubCtx := { sctx with arg5 := satMul sctx.arg5 pageSize }

end SubCtx

/-- The address that `sys_mmap` maps at, if its search for one ends. -/
def VMemory.mmapAddr (mem : VMemory) (sctx : SubCtx) : Option U64 :=
  if sctx.arg0 = 0 ∨ ¬ sctx.UseFixed then mem.nextMmapAddr sctx.mapLen else some sctx.arg0

/-- The engine after an unmap whose refusal is ignored. -/
def Unicorn.unmapped (uc : Unicorn) (addr size : U64) : Unicorn :=
  match uc.memUnmap addr size with
  | .ok uc => uc
  | .error _ => uc

/-- The state after the `MAP_FIXED` branch. -/
def Valkyrie.replaced (vk : Valkyrie) (addr size : U64) : Valkyrie :=
  vk.withMem (vk.mem.removeRange addr size) (vk.uc.unmapped addr size)

/-- The state in which `sys_mmap` tries to map. -/
def Valkyrie.cleared (vk : Valkyrie) (sctx : SubCtx) (addr : U64) : Valkyrie :=
  if sctx.UseFixed then vk.replaced addr sctx.mapLen else vk

/-- The state after the engine accepted the new mapping. -/
def Valkyrie.mapped (vk : Valkyrie) (sctx : SubCtx) (addr : U64) (uc : Unicorn) : Valkyrie :=
  vk.withMem (vk.mem.addRegion ⟨addr, sctx.mapLen, sctx.mapProt, "[mmap]"⟩) uc

/-- The end of `sys_mmap`, after the mapping. -/
def mmapLoad (sctx : SubCtx) (addr : U64) : VkM U64 := do
  if sctx.IsFile then
    let result ← mapFileBytes addr sctx.mapLen sctx.arg4 sctx.arg5
    if result ≠ 0 then
      return result
  return addr

variable {vk vk' : Valkyrie} {sctx : SubCtx} {addr size fd offset : U64}
  {r : Except ValkyrieError U64}

/-! ## `munmap` and `mprotect` -/

theorem mmapRefused_iff : sctx.MmapRefused ↔
    sctx.arg1 = 0 ∨ isMultipleOf sctx.arg0 pageSize = false := by
  rw [SubCtx.MmapRefused, Aligned, ← isMultipleOf_pageSize, Bool.not_eq_true]

theorem ends_sysMunmap : (sysMunmap sctx).Ends vk r vk' ↔
    (vk' = vk ∧ r = .ok (negErrno EINVAL) ∧
      (sctx.arg0 = 0 ∨ sctx.MmapRefused ∨
        ∃ e, vk.uc.memUnmap sctx.arg0 sctx.mapLen = .error e)) ∨
    (sctx.arg0 ≠ 0 ∧ ¬ sctx.MmapRefused ∧ ∃ uc, vk.uc.memUnmap sctx.arg0 sctx.mapLen = .ok uc ∧
      vk' = vk.withMem (vk.mem.removeRange sctx.arg0 sctx.mapLen) uc ∧ r = .ok 0) := by
  rw [sysMunmap, mmapRefused_iff]
  by_cases null : sctx.arg0 = 0
  · simp [null, and_comm]
  by_cases empty : sctx.arg1 = 0
  · simp [empty, and_comm]
  by_cases unaligned : isMultipleOf sctx.arg0 pageSize = false
  · simp [unaligned, and_comm]
  simp only [null, empty, unaligned, ne_eq, not_false_eq_true, SubCtx.mapLen]
  cases h : vk.uc.memUnmap sctx.arg0 (alignUp sctx.arg1 pageSize) <;>
    simp [ends_bind, ends_ucCall, h, and_comm]

theorem ends_replaceRange {r : Except ValkyrieError Unit} :
    (replaceRange addr size).Ends vk r vk' ↔ r = .ok () ∧ vk' = vk.replaced addr size := by
  cases h : vk.uc.memUnmap addr size <;>
    simp [replaceRange, ends_bind, ends_ucCall, Valkyrie.replaced, Unicorn.unmapped, h]

/-- The page-rounded range of `sys_mprotect`. -/
def SubCtx.protStart (sctx : SubCtx) : U64 := alignDown sctx.arg0 pageSize

/-- The end of the range, rounded up. -/
def SubCtx.protStop (sctx : SubCtx) : U64 := alignUp (satAdd sctx.arg0 sctx.arg1) pageSize

/-- The size of the rounded range. -/
def SubCtx.protSize (sctx : SubCtx) : U64 := satSub sctx.protStop sctx.protStart

theorem ends_sysMprotect : (sysMprotect sctx).Ends vk r vk' ↔
    (sctx.arg1 = 0 ∧ r = .ok (negErrno EINVAL) ∧ vk' = vk) ∨
    (sctx.arg1 ≠ 0 ∧
      ((∃ e, vk.uc.memProtect sctx.protStart sctx.protSize sctx.mapProt = .error e ∧
          r = .error (.unicorn e) ∧ vk' = vk) ∨
        ∃ uc, vk.uc.memProtect sctx.protStart sctx.protSize sctx.mapProt = .ok uc ∧ r = .ok 0 ∧
          vk' = vk.withMem (vk.mem.protectRegions sctx.protStart sctx.protStop sctx.mapProt) uc)) := by
  rw [sysMprotect]
  by_cases empty : sctx.arg1 = 0
  · simp [empty]
  simp only [empty, ne_eq, not_false_eq_true, if_false, SubCtx.protSize, SubCtx.protStart,
    SubCtx.protStop, SubCtx.mapProt]
  cases h : vk.uc.memProtect (alignDown sctx.arg0 pageSize)
      (satSub (alignUp (satAdd sctx.arg0 sctx.arg1) pageSize) (alignDown sctx.arg0 pageSize))
      (protFromFlags (sctx.arg2.setWidth 32)) <;>
    simp [ends_bind, ends_ucCall, h, and_comm]

/-! ## `brk` -/

/-- The break asked for. -/
def SubCtx.newBreak (sctx : SubCtx) : U64 := alignUp sctx.arg0 pageSize

/-- The pages that `sys_brk` maps. -/
def VMemory.growStart (mem : VMemory) : U64 := alignUp mem.mappedHeapEnd pageSize

/-- By how much the heap grows. -/
def VMemory.growSize (mem : VMemory) (newBreak : U64) : U64 :=
  if newBreak > mem.mappedHeapEnd then satSub newBreak mem.growStart else 0

theorem ends_sysBrk : (sysBrk sctx).Ends vk r vk' ↔
    ((sctx.arg0 = 0 ∨ sctx.newBreak < vk.mem.heapAddrStart ∨ sctx.newBreak > vk.mem.heapLimit) ∧
      r = .ok vk.mem.heapAddrExit ∧ vk' = vk) ∨
    (¬ (sctx.arg0 = 0 ∨ sctx.newBreak < vk.mem.heapAddrStart ∨
        sctx.newBreak > vk.mem.heapLimit) ∧
      ((vk.mem.growSize sctx.newBreak = 0 ∧ r = .ok sctx.newBreak ∧
          vk' = vk.withMem (vk.mem.setBreak sctx.newBreak) vk.uc) ∨
        (vk.mem.growSize sctx.newBreak ≠ 0 ∧
          ((∃ uc, vk.uc.memMap vk.mem.growStart (vk.mem.growSize sctx.newBreak) Prot.all = .ok uc ∧
              r = .ok sctx.newBreak ∧
              vk' = vk.withMem ((vk.mem.addRegion ⟨vk.mem.growStart,
                vk.mem.growSize sctx.newBreak, Prot.all, "[heap]"⟩).setBreak sctx.newBreak) uc) ∨
            ∃ e, vk.mem.map vk.uc vk.mem.growStart (vk.mem.growSize sctx.newBreak) Prot.all
              "[heap]" = .error e ∧ r = .error e ∧ vk' = vk)))) := by
  have requested : alignUp sctx.arg0 pageSize = sctx.newBreak := rfl
  have start : alignUp vk.mem.mappedHeapEnd pageSize = vk.mem.growStart := rfl
  rw [sysBrk, ends_bind_get]
  simp only [requested, start, VMemory.growSize]
  by_cases null : sctx.arg0 = 0
  · simp [null]
  by_cases refused : sctx.newBreak < vk.mem.heapAddrStart ∨ sctx.newBreak > vk.mem.heapLimit
  · simp [refused]
  simp only [null, refused, if_false, false_and, false_or, not_false_eq_true, true_and]
  by_cases grows : sctx.newBreak > vk.mem.mappedHeapEnd
  · by_cases empty : satSub sctx.newBreak vk.mem.growStart = 0
    · simp [grows, empty, and_comm]
    · have pos : satSub sctx.newBreak vk.mem.growStart > 0 := by bv_omega
      simp only [grows, empty, pos, if_true, false_and, false_or, ne_eq, not_false_eq_true,
        true_and, ends_bind, ends_memMap]
      cases h : vk.mem.map vk.uc vk.mem.growStart (satSub sctx.newBreak vk.mem.growStart) Prot.all
          "[heap]" with
      | error e =>
        have refused (uc : Unicorn) : vk.uc.memMap vk.mem.growStart
            (satSub sctx.newBreak vk.mem.growStart) Prot.all ≠ .ok uc := fun accepted => by
          simp [VMemory.map_ok_iff.2 ⟨accepted, rfl⟩] at h
        simp [refused, and_comm]
      | ok out =>
        obtain ⟨accepted, -⟩ := VMemory.map_ok_iff.1 h
        simp [accepted, and_comm]
  · simp [grows, and_comm]

/-! ## `mmap` -/

/-- What a host file offers at an offset: one clone, one seek and one read. -/
def Host.load (h : Host) (file : U32) (size offset : ℕ) : Option (List U8) × Host :=
  match h.dup file with
  | (.error _, h) => (none, h)
  | (.ok clone, h) =>
    match h.seek clone offset with
    | (.error _, h) => (none, (h.close clone).2)
    | (.ok (), h) =>
      match h.read clone size with
      | (.error _, h) => (none, (h.close clone).2)
      | (.ok data, h) => (some data, (h.close clone).2)

/-- The buffer of `map_file_bytes` after its one read. -/
def fileBuffer (size : ℕ) (data : List U8) : List U8 :=
  data ++ List.replicate (size - data.length) 0

theorem ends_withFile {α : Type} {file : U32} {body : VkM α} {r : Except ValkyrieError α} :
    (withFile file body).Ends vk r vk' ↔
      ∃ t, body.Ends vk r t ∧ vk' = t.withHost (t.host.close file).2 := by
  rw [withFile, ends_bind_attempt]
  simp only [ends_bind_hostCall, ends_ofExcept]
  constructor
  · rintro ⟨x, t, run, rfl, rfl⟩
    exact ⟨t, run, rfl⟩
  · rintro ⟨t, run, rfl⟩
    exact ⟨r, t, run, rfl, rfl⟩

theorem mapFileBytes_cases (h : (mapFileBytes addr size fd offset).Ends vk r vk')
    (hs : size ≠ 0) :
    (vk.fdTable.lookup fd = none ∧ r = .ok (negErrno EBADF) ∧ vk' = vk) ∨
    ∃ vkf host, vk.fdTable.lookup fd = some vkf ∧
      ((vk.host.load vkf.file size.toNat offset.toNat = (none, host) ∧ r = .ok (negErrno EIO) ∧
          vk' = vk.withHost host) ∨
        ∃ data, vk.host.load vkf.file size.toNat offset.toNat = (some data, host) ∧
          ((∃ uc, VMemory.write vk.uc addr (fileBuffer size.toNat data) = .ok uc ∧ r = .ok 0 ∧
              vk' = (vk.withHost host).withUc uc) ∨
            ∃ e, VMemory.write vk.uc addr (fileBuffer size.toNat data) = .error e ∧
              r = .error e ∧ vk' = vk.withHost host)) := by
  rw [mapFileBytes, if_neg hs, ends_bind_get] at h
  cases found : vk.fdTable.lookup fd with
  | none =>
    simp only [found, ends_pure] at h
    exact .inl ⟨rfl, h⟩
  | some vkf =>
    simp only [found] at h
    refine .inr ⟨vkf, ?_⟩
    rw [ends_bind_hostCall] at h
    unfold Host.load
    rcases cloned : vk.host.dup vkf.file with ⟨_ | clone, h₁⟩
    · simp only [cloned, ends_pure] at h
      exact ⟨h₁, rfl, .inl ⟨rfl, h⟩⟩
    simp only [cloned, ends_withFile, ends_bind_hostCall] at h
    obtain ⟨t, h, rfl⟩ := h
    rcases sought : h₁.seek clone offset.toNat with ⟨_ | _, h₂⟩
    · simp only [Valkyrie.withHost_host, sought, ends_pure] at h
      obtain ⟨rfl, rfl⟩ := h
      simp [sought]
    simp only [Valkyrie.withHost_host, sought, ends_bind_hostAlloc, ends_bind_hostCall] at h
    obtain ⟨-, h⟩ := h
    rcases delivered : h₂.read clone size.toNat with ⟨_ | data, h₃⟩
    · simp only [delivered, ends_pure] at h
      obtain ⟨rfl, rfl⟩ := h
      simp [sought, delivered]
    simp only [delivered, ends_bind_memWrite, ends_pure] at h
    obtain ⟨uc, written, rfl, rfl⟩ | ⟨e, refused, rfl, rfl⟩ := h
    · exact ⟨(h₃.close clone).2, rfl, .inr ⟨data, by simp [sought, delivered],
        .inl ⟨uc, written, rfl, by simp⟩⟩⟩
    · exact ⟨(h₃.close clone).2, rfl, .inr ⟨data, by simp [sought, delivered],
        .inr ⟨e, refused, rfl, by simp⟩⟩⟩

theorem ends_bind_replaceRange {f : Unit → VkM U64} :
    (replaceRange addr size >>= f).Ends vk r vk' ↔ (f ()).Ends (vk.replaced addr size) r vk' := by
  simp only [ends_bind, ends_replaceRange]
  simp [Unique.exists_iff]

/-- `sys_mmap` from the chosen address on. -/
def mmapAt (sctx : SubCtx) (addr : U64) : VkM U64 := do
  if sctx.UseFixed then
    replaceRange addr sctx.mapLen
  match ← (memMap addr sctx.mapLen sctx.mapProt "[mmap]").attempt with
  | .error _ => return negErrno ENOMEM
  | .ok () => mmapLoad sctx addr

theorem ends_mmapAt : (mmapAt sctx addr).Ends vk r vk' ↔
    (¬ (vk.cleared sctx addr).uc.Mappable addr sctx.mapLen ∧ r = .ok (negErrno ENOMEM) ∧
      vk' = vk.cleared sctx addr) ∨
    ∃ uc, (vk.cleared sctx addr).uc.memMap addr sctx.mapLen sctx.mapProt = .ok uc ∧
      (mmapLoad sctx addr).Ends ((vk.cleared sctx addr).mapped sctx addr uc) r vk' := by
  have run : (mmapAt sctx addr).Ends vk r vk' ↔
      ((memMap addr sctx.mapLen sctx.mapProt "[mmap]").attempt >>= fun x =>
        match x with
        | .error _ => pure (negErrno ENOMEM)
        | .ok () => mmapLoad sctx addr).Ends (vk.cleared sctx addr) r vk' := by
    unfold mmapAt Valkyrie.cleared
    by_cases fixed : sctx.UseFixed
    · simp only [if_pos fixed]
      exact ends_bind_replaceRange
    · simp only [if_neg fixed]
  rw [run, ends_bind_attempt]
  simp only [ends_memMap]
  constructor
  · rintro ⟨_, t, ⟨uc, accepted, rfl, rfl⟩ | ⟨e, refused, rfl, rfl⟩, rest⟩
    · exact .inr ⟨uc, accepted, rest⟩
    · obtain ⟨rfl, rfl⟩ := ends_pure.1 rest
      exact .inl ⟨VMemory.map_isError_iff.1 ⟨e, refused⟩, rfl, rfl⟩
  · rintro (⟨refused, rfl, rfl⟩ | ⟨uc, accepted, rest⟩)
    · obtain ⟨e, refused⟩ := VMemory.map_isError_iff.2 refused
      exact ⟨_, _, .inr ⟨e, refused, rfl, rfl⟩, ends_pure.2 ⟨rfl, rfl⟩⟩
    · exact ⟨_, _, .inl ⟨uc, accepted, rfl, rfl⟩, rest⟩

theorem ends_sysMmap : (sysMmap sctx).Ends vk r vk' ↔
    (sctx.MmapRefused ∧ r = .ok (negErrno EINVAL) ∧ vk' = vk) ∨
    (¬ sctx.MmapRefused ∧ ∃ addr, vk.mem.mmapAddr sctx = some addr ∧
      (mmapAt sctx addr).Ends vk r vk') := by
  rw [mmapRefused_iff, sysMmap]
  by_cases empty : sctx.arg1 = 0
  · simp [empty]
  by_cases unaligned : isMultipleOf sctx.arg0 pageSize = false
  · simp [unaligned]
  have rest : sysMmap sctx = (do
      let vk ← Proc.get
      let addr ← ofOption (vk.mem.mmapAddr sctx)
      mmapAt sctx addr) := by
    simp only [sysMmap, empty, unaligned, if_false]
    rfl
  rw [← sysMmap, rest, ends_bind_get, ends_bind]
  simp only [empty, unaligned, false_or]
  simp

/-! ## The bytes loaded -/

/-- The content of the file behind a host descriptor. -/
def Host.contentOf (h : Host) (fd : U32) : List U8 :=
  match h.fds.lookup fd with
  | none => []
  | some d => (h.descriptions.getD d ⟨[], 0⟩).content

/-- How many bytes the single read of a load may deliver. -/
def Host.loadCount (h : Host) (size : ℕ) : ℕ :=
  min size (max 1 (h.answers (h.calls.length + 2)).count)

theorem Host.load_eq {h h' : Host} {file : U32} {n i : ℕ} {data : List U8}
    (loaded : h.load file n i = (some data, h')) :
    data = ((h.contentOf file).drop i).take (h.loadCount n) := by
  unfold load at loaded
  rcases cloned : h.dup file with ⟨_ | clone, h₁⟩
  · simp [cloned] at loaded
  rcases sought : h₁.seek clone i with ⟨_ | _, h₂⟩
  · simp [cloned, sought] at loaded
  rcases delivered : h₂.read clone n with ⟨_ | bytes, h₃⟩
  · simp [cloned, sought, delivered] at loaded
  simp only [cloned, sought, delivered, Prod.mk.injEq, Option.some.injEq] at loaded
  obtain ⟨rfl, -⟩ := loaded
  obtain ⟨d, found, rfl⟩ := dup_ok cloned
  obtain ⟨d₁, found₁, rfl⟩ := seek_ok sought
  obtain ⟨d₂, found₂, rfl⟩ := read_ok delivered
  -- the clone names the description of the file itself
  simp only [AList.lookup_insert, Option.some.injEq] at found₁
  subst found₁
  simp only [AList.lookup_insert, Option.some.injEq, record_fds] at found₂
  subst found₂
  by_cases known : d < h.descriptions.length
  · simp [contentOf, found, loadCount, answer, known, Host.record]
  · simp [contentOf, found, loadCount, answer, known, Host.record]

theorem length_fileBuffer {n : ℕ} {data : List U8} (h : data.length ≤ n) :
    (fileBuffer n data).length = n := by
  simp only [fileBuffer, List.length_append, List.length_replicate]
  omega

theorem Host.length_load_le {h h' : Host} {file : U32} {n i : ℕ} {data : List U8}
    (loaded : h.load file n i = (some data, h')) : data.length ≤ n := by
  rw [load_eq loaded]
  simp only [List.length_take, loadCount]
  omega

/-- After the mapping: nothing to load, a load that fails, or bytes stored in the new pages. -/
theorem mmapLoad_cases (run : (mmapLoad sctx addr).Ends vk r vk') (hs : sctx.mapLen ≠ 0)
    (mapped : vk.uc.Mapped addr sctx.mapLen.toNat) :
    (¬ sctx.IsFile ∧ r = .ok addr ∧ vk' = vk) ∨
    (sctx.IsFile ∧ vk.fdTable.lookup sctx.arg4 = none ∧ r = .ok (negErrno EBADF) ∧ vk' = vk) ∨
    (sctx.IsFile ∧ ∃ vkf host, vk.fdTable.lookup sctx.arg4 = some vkf ∧
      vk.host.load vkf.file sctx.mapLen.toNat sctx.arg5.toNat = (none, host) ∧
      r = .ok (negErrno EIO) ∧ vk' = vk.withHost host) ∨
    (sctx.IsFile ∧ ∃ vkf host data uc, vk.fdTable.lookup sctx.arg4 = some vkf ∧
      vk.host.load vkf.file sctx.mapLen.toNat sctx.arg5.toNat = (some data, host) ∧
      vk.uc.memWrite addr (fileBuffer sctx.mapLen.toNat data) = .ok uc ∧
      r = .ok addr ∧ vk' = (vk.withHost host).withUc uc) := by
  unfold mmapLoad at run
  by_cases file : sctx.IsFile
  swap
  · rw [if_neg file, ends_pure] at run
    exact .inl ⟨file, run⟩
  rw [if_pos file, ends_bind] at run
  have ebadf : negErrno EBADF ≠ 0 := by decide
  have eio : negErrno EIO ≠ 0 := by decide
  -- the pages are mapped, so the store cannot be refused
  have stored {host : Host} {vkf : VkFile} {data : List U8} {e : ValkyrieError}
      (loaded : vk.host.load vkf.file sctx.mapLen.toNat sctx.arg5.toNat = (some data, host)) :
      VMemory.write vk.uc addr (fileBuffer sctx.mapLen.toNat data) ≠ .error e := by
    have full := length_fileBuffer (Host.length_load_le loaded)
    have pos : 0 < sctx.mapLen.toNat := by bv_omega
    have nonempty : fileBuffer sctx.mapLen.toNat data ≠ [] := by
      rw [← List.length_pos_iff, full]
      exact pos
    rw [← full] at mapped
    obtain ⟨uc, ok⟩ := Unicorn.memWrite_ok_iff.2 mapped
    rw [VMemory.write_ok_iff.2 ⟨nonempty, ok⟩]
    simp
  obtain ⟨e, run, rfl⟩ | ⟨result, t, run, rest⟩ := run
  · obtain ⟨-, ⟨⟩, -⟩ | ⟨vkf, host, found, ⟨-, ⟨⟩, -⟩ | ⟨data, loaded, ⟨-, -, ⟨⟩, -⟩ |
      ⟨e, refused, -, -⟩⟩⟩ := mapFileBytes_cases run hs
    exact absurd refused (stored loaded)
  · obtain ⟨found, ⟨rfl⟩, rfl⟩ | ⟨vkf, host, found, ⟨loaded, ⟨rfl⟩, rfl⟩ | ⟨data, loaded,
      ⟨uc, written, ⟨rfl⟩, rfl⟩ | ⟨e, -, ⟨⟩, -⟩⟩⟩ := mapFileBytes_cases run hs
    · rw [if_pos ebadf, ends_pure] at rest
      exact .inr (.inl ⟨file, found, rest⟩)
    · rw [if_pos eio, ends_pure] at rest
      exact .inr (.inr (.inl ⟨file, vkf, host, found, loaded, rest⟩))
    · rw [if_neg (by simp), ends_pure] at rest
      obtain ⟨-, written⟩ := VMemory.write_ok_iff.1 written
      exact .inr (.inr (.inr ⟨file, vkf, host, data, uc, found, loaded, written, rest⟩))

/-! ## The address search -/

theorem aligned_alignUp (v : U64) : Aligned (alignUp v pageSize) := by
  rw [Aligned, toNat_alignUp]
  omega

/-- The address found is aligned and no region is in its way. -/
theorem VMemory.nextMmapAddr_spec {mem : VMemory} {len : U64}
    (h : mem.nextMmapAddr len = some addr) :
    Aligned addr ∧ ∀ r ∈ mem.regions, r.satEnd ≤ addr ∨ satAdd addr len ≤ r.start := by
  constructor
  · refine Loop.run_keeps (P := Aligned) ?_ (aligned_alignUp _) h
    intro a b _ hab
    obtain ⟨r, -, rfl⟩ := Option.map_eq_some_iff.1 hab
    exact aligned_alignUp _
  · intro r hr
    have stop : nextCandidate mem.regions len addr = none := Loop.step_of_run h
    have clear := Option.map_eq_none_iff.1 stop
    have := List.find?_eq_none.1 clear r hr
    simp only [decide_eq_true_eq, not_and_or, not_lt, gt_iff_lt] at this
    exact this

/-! ## Sequences of calls -/

/-- The calls that edit the memory map. -/
inductive MemCall where
  | mmap (sctx : SubCtx)
  | mmap2 (sctx : SubCtx)
  | munmap (sctx : SubCtx)
  | mprotect (sctx : SubCtx)
  | brk (sctx : SubCtx)
  | map (addr size : U64) (prot : Prot) (info : String)

/-- The call leads from one state to the other, whatever it returns. -/
def MemCall.Does : MemCall → Valkyrie → Valkyrie → Prop
  | .mmap sctx, vk, vk' => ∃ r, (sysMmap sctx).Ends vk r vk'
  | .mmap2 sctx, vk, vk' => ∃ r, (sysMmap2 sctx).Ends vk r vk'
  | .munmap sctx, vk, vk' => ∃ r, (sysMunmap sctx).Ends vk r vk'
  | .mprotect sctx, vk, vk' => ∃ r, (sysMprotect sctx).Ends vk r vk'
  | .brk sctx, vk, vk' => ∃ r, (sysBrk sctx).Ends vk r vk'
  | .map addr size prot info, vk, vk' => ∃ r, (memMap addr size prot info).Ends vk r vk'

/-- The arguments with which `sys_mmap` runs. -/
def MemCall.mmapCtx : MemCall → Option SubCtx
  | .mmap sctx => some sctx
  | .mmap2 sctx => some sctx.mmap2Ctx
  | _ => none

/-- The edit of the existing map that a call begins with, if it makes one. -/
inductive MemCall.Starts (vk : Valkyrie) : MemCall → Valkyrie → Prop
  | nothing (c : MemCall) : Starts vk c vk
  | search {c : MemCall} {sctx : SubCtx} {addr : U64} : c.mmapCtx = some sctx →
      vk.mem.nextMmapAddr sctx.mapLen = some addr → Starts vk c (vk.replaced addr sctx.mapLen)
  | replace {c : MemCall} {sctx : SubCtx} : c.mmapCtx = some sctx → sctx.UseFixed →
      sctx.arg0 ≠ 0 → ¬ sctx.MmapRefused → Starts vk c (vk.replaced sctx.arg0 sctx.mapLen)
  | unmap {sctx : SubCtx} {uc : Unicorn} : sctx.arg0 ≠ 0 → ¬ sctx.MmapRefused →
      vk.uc.memUnmap sctx.arg0 sctx.mapLen = .ok uc →
      Starts vk (.munmap sctx) (vk.withMem (vk.mem.removeRange sctx.arg0 sctx.mapLen) uc)
  | protect {sctx : SubCtx} {uc : Unicorn} : sctx.arg1 ≠ 0 →
      vk.uc.memProtect sctx.protStart sctx.protSize sctx.mapProt = .ok uc →
      Starts vk (.mprotect sctx)
        (vk.withMem (vk.mem.protectRegions sctx.protStart sctx.protStop sctx.mapProt) uc)

/-- A later edit: one more region, or nothing that concerns the map. -/
inductive Grows : Valkyrie → Valkyrie → Prop
  | map {vk : Valkyrie} {addr size : U64} {prot : Prot} {uc : Unicorn} (info : String) :
      vk.uc.memMap addr size prot = .ok uc →
      Grows vk (vk.withMem (vk.mem.addRegion ⟨addr, size, prot, info⟩) uc)
  | keep {vk vk' : Valkyrie} : vk'.mem.regions = vk.mem.regions →
      vk'.mem.heapAddrStart = vk.mem.heapAddrStart → vk'.uc.pages = vk.uc.pages → Grows vk vk'

theorem starts_cleared {c : MemCall} (ctx : c.mmapCtx = some sctx) (accepted : ¬ sctx.MmapRefused)
    (chosen : vk.mem.mmapAddr sctx = some addr) : c.Starts vk (vk.cleared sctx addr) := by
  unfold Valkyrie.cleared
  by_cases fixed : sctx.UseFixed
  swap
  · rw [if_neg fixed]
    exact .nothing c
  rw [if_pos fixed]
  unfold VMemory.mmapAddr at chosen
  by_cases null : sctx.arg0 = 0
  · rw [if_pos (.inl null)] at chosen
    exact .search ctx chosen
  · rw [if_neg (not_or.2 ⟨null, not_not.2 fixed⟩)] at chosen
    cases chosen
    exact .replace ctx fixed null accepted

theorem grows_mmap {c : MemCall} (ctx : c.mmapCtx = some sctx)
    (run : (sysMmap sctx).Ends vk r vk') :
    ∃ vk₁, c.Starts vk vk₁ ∧ Relation.ReflTransGen Grows vk₁ vk' := by
  obtain ⟨-, -, rfl⟩ | ⟨accepted, addr, chosen, run⟩ := ends_sysMmap.1 run
  · exact ⟨vk', .nothing c, .refl⟩
  refine ⟨vk.cleared sctx addr, starts_cleared ctx accepted chosen, ?_⟩
  obtain ⟨-, -, rfl⟩ | ⟨uc, ok, run⟩ := ends_mmapAt.1 run
  · exact .refl
  have range := Unicorn.Mappable.of_memMap ok
  have full : uc.Mapped addr sctx.mapLen.toNat := by
    refine ⟨range.bound, fun x hx => ?_⟩
    rw [(Unicorn.memMap_effect ok).1 x, if_pos hx]
    rfl
  refine .head (.map "[mmap]" ok) (.single ?_)
  obtain ⟨-, -, rfl⟩ | ⟨-, -, -, rfl⟩ | ⟨-, vkf, host, -, -, -, rfl⟩ |
    ⟨-, vkf, host, data, uc', -, -, written, -, rfl⟩ := mmapLoad_cases run range.size_ne full
  · exact .keep rfl rfl rfl
  · exact .keep rfl rfl rfl
  · exact .keep rfl rfl rfl
  · exact .keep rfl rfl (Unicorn.memWrite_effect written).1

/-- Every call makes at most one edit of the existing map, and then only adds to it. -/
theorem MemCall.Does.edits {c : MemCall} (does : c.Does vk vk') :
    ∃ vk₁, c.Starts vk vk₁ ∧ Relation.ReflTransGen Grows vk₁ vk' := by
  cases c with
  | mmap sctx =>
    obtain ⟨r, run⟩ := does
    exact grows_mmap rfl run
  | mmap2 sctx =>
    obtain ⟨r, run⟩ := does
    have ctx : (MemCall.mmap2 sctx).mmapCtx = some sctx.mmap2Ctx := rfl
    exact grows_mmap ctx run
  | munmap sctx =>
    obtain ⟨r, run⟩ := does
    obtain ⟨rfl, -, -⟩ | ⟨null, accepted, uc, ok, rfl, -⟩ := ends_sysMunmap.1 run
    · exact ⟨_, .nothing _, .refl⟩
    · exact ⟨_, .unmap null accepted ok, .refl⟩
  | mprotect sctx =>
    obtain ⟨r, run⟩ := does
    obtain ⟨-, -, rfl⟩ | ⟨nonzero, ⟨e, -, -, rfl⟩ | ⟨uc, ok, -, rfl⟩⟩ := ends_sysMprotect.1 run
    · exact ⟨_, .nothing _, .refl⟩
    · exact ⟨_, .nothing _, .refl⟩
    · exact ⟨_, .protect nonzero ok, .refl⟩
  | brk sctx =>
    obtain ⟨r, run⟩ := does
    refine ⟨vk, .nothing _, ?_⟩
    obtain ⟨-, -, rfl⟩ | ⟨-, ⟨-, -, rfl⟩ | ⟨-, ⟨uc, ok, -, rfl⟩ | ⟨e, -, -, rfl⟩⟩⟩ :=
      ends_sysBrk.1 run
    · exact .refl
    · exact .single (.keep rfl rfl rfl)
    · exact .head (.map "[heap]" ok) (.single (.keep rfl rfl rfl))
    · exact .refl
  | map addr size prot info =>
    obtain ⟨r, run⟩ := does
    refine ⟨vk, .nothing _, ?_⟩
    obtain ⟨uc, ok, -, rfl⟩ | ⟨e, -, -, rfl⟩ := ends_memMap.1 run
    · exact .single (.map info ok)
    · exact .refl

end ValkyrieRs

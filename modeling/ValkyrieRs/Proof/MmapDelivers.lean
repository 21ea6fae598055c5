import Mathlib.Data.List.GetD
import ValkyrieRs.Proof.MmapRefused

/-!
# Successful mappings

What the guest gets when the value left in its result register is no error number.  The address
search knows nothing of the guest's word width, and the file is read with a single call, so the
value names the new range and the range holds the file's bytes exactly when the address fits the
register and whatever the one read leaves out is zero.
-/

namespace ValkyrieRs

open Proc

variable {vk vk' : Valkyrie} {uc uc' : Unicorn} {addr x v w : U64} {sctx : SubCtx} {i : ℕ}

/-- `sys_mmap` with the write-back of its result. -/
def mmapReturn (sctx : SubCtx) : VkM Unit := do
  let result ← sysMmap sctx
  let vk ← get
  VRegs.setReg vk.arch.regs.arch.resultReg result

/-- Byte `i` of the file behind the descriptor, from the offset on, and zero past its end; zero for
a mapping without a file. -/
def Valkyrie.fileByte (vk : Valkyrie) (sctx : SubCtx) (i : ℕ) : U8 :=
  if sctx.IsFile then
    match vk.fdTable.lookup sctx.arg4 with
    | none => 0
    | some vkf => (vk.host.contentOf vkf.file).getD (sctx.arg5.toNat + i) 0
  else 0

/-- The range at `w` is the mapping that the guest asked for. -/
structure Delivered (sctx : SubCtx) (w : U64) (vk vk' : Valkyrie) : Prop where
  aligned : Aligned w
  bound : sctx.mapLen ≠ 0 ∧ w.toNat + sctx.mapLen.toNat ≤ 2 ^ 64
  listed : vk'.mem.regions.getLast? = some (sctx.mmapRegion w)
  prot : ∀ x ∈ sctx.mmapRegion w, vk'.uc.protAt x = some sctx.mapProt
  fresh : ¬ sctx.UseFixed → (∀ x ∈ sctx.mmapRegion w, vk.uc.protAt x = none) ∧
    vk'.mem.regions = vk.mem.regions ++ [sctx.mmapRegion w] ∧
    ∀ x ∉ sctx.mmapRegion w, vk'.uc.protAt x = vk.uc.protAt x ∧ vk'.uc.readAt x = vk.uc.readAt x
  fixed : sctx.UseFixed → sctx.arg0 ≠ 0 → w = sctx.arg0
  bytes : ∀ x ∈ sctx.mmapRegion w,
    vk'.uc.readAt x = some (vk.fileByte sctx (x.toNat - w.toNat))

/-- The chosen address fits the registers, and the bytes of the file that the one read leaves out
are zero. -/
structure Valkyrie.CanDeliver (vk : Valkyrie) (sctx : SubCtx) : Prop where
  fits : ∀ addr, vk.mem.mmapAddr sctx = some addr →
    vk.arch.regs.arch.truncate addr = addr
  whole : ∀ i, vk.host.loadCount sctx.mapLen.toNat ≤ i → i < sctx.mapLen.toNat →
    vk.fileByte sctx i = 0

/-! ## The bytes of a mapping -/

/-- Byte `i` of the new mapping: what the one read brings. -/
def Valkyrie.loadedByte (vk : Valkyrie) (sctx : SubCtx) (i : ℕ) : U8 :=
  if i < vk.host.loadCount sctx.mapLen.toNat then vk.fileByte sctx i else 0

theorem getD_fileBuffer {content : List U8} {n off count : ℕ} :
    (fileBuffer n ((content.drop off).take count)).getD i 0 =
      if i < count then content.getD (off + i) 0 else 0 := by
  have zeros (k j : ℕ) : (List.replicate k (0 : U8)).getD j 0 = 0 := by
    simp only [List.getD_eq_getElem?_getD, List.getElem?_replicate]
    split_ifs <;> rfl
  unfold fileBuffer
  by_cases inside : i < ((content.drop off).take count).length
  · rw [List.getD_append _ _ _ _ inside]
    simp only [List.length_take, List.length_drop] at inside
    rw [if_pos (by omega)]
    simp only [List.getD_eq_getElem?_getD, List.getElem?_take, List.getElem?_drop]
    rw [if_pos (by omega)]
  · rw [List.getD_append_right _ _ _ _ (Nat.not_lt.1 inside), zeros]
    split_ifs with read
    · have past : content.length ≤ off + i := by
        simp only [List.length_take, List.length_drop] at inside
        omega
      rw [List.getD_eq_default _ _ past]
    · rfl

/-- A new mapping at `addr`, with the bytes loaded. -/
structure MadeAt (sctx : SubCtx) (addr : U64) (vk vk' : Valkyrie) : Prop where
  chosen : vk.mem.mmapAddr sctx = some addr
  aligned : Aligned addr
  range : (vk.cleared sctx addr).uc.Mappable addr sctx.mapLen
  regions : vk'.mem.regions = (vk.cleared sctx addr).mem.regions ++ [sctx.mmapRegion addr]
  prots : ∀ x, vk'.uc.protAt x =
    if x ∈ sctx.mmapRegion addr then some sctx.mapProt else (vk.cleared sctx addr).uc.protAt x
  bytes : ∀ x, vk'.uc.bytes x =
    if x ∈ sctx.mmapRegion addr then vk.loadedByte sctx (x.toNat - addr.toNat)
    else vk.uc.bytes x

@[simp] theorem cleared_bytes : (vk.cleared sctx addr).uc.bytes = vk.uc.bytes := by
  unfold Valkyrie.cleared
  split_ifs
  · exact Unicorn.bytes_unmapped ..
  · rfl

@[simp] theorem cleared_host : (vk.cleared sctx addr).host = vk.host := by
  unfold Valkyrie.cleared
  split_ifs <;> rfl

@[simp] theorem cleared_fdTable : (vk.cleared sctx addr).fdTable = vk.fdTable := by
  unfold Valkyrie.cleared
  split_ifs <;> rfl

@[simp] theorem cleared_arch : (vk.cleared sctx addr).arch = vk.arch := by
  unfold Valkyrie.cleared
  split_ifs <;> rfl

/-- A call of `sys_mmap` returns an error number or makes a mapping at the address returned. -/
theorem sysMmap_cases {r : Except ValkyrieError U64} (ends : (sysMmap sctx).Ends vk r vk') :
    vk'.arch = vk.arch ∧ ((∃ e ∈ [EINVAL, ENOMEM, EBADF, EIO], r = .ok (negErrno e)) ∨
      ∃ addr, r = .ok addr ∧ MadeAt sctx addr vk vk') := by
  obtain ⟨early, rfl, rfl⟩ | ⟨accepted, addr, chosen, run⟩ := ends_sysMmap.1 ends
  · exact ⟨rfl, .inl ⟨_, by simp, rfl⟩⟩
  have aligned := VMemory.aligned_mmapAddr accepted chosen
  obtain ⟨-, rfl, rfl⟩ | ⟨uc, ok, run⟩ := ends_mmapAt.1 run
  · exact ⟨cleared_arch, .inl ⟨_, by simp, rfl⟩⟩
  have range := Unicorn.Mappable.of_memMap ok
  obtain ⟨prots, bytes, -⟩ := Unicorn.memMap_effect ok
  have mapped : uc.Mapped addr sctx.mapLen.toNat := by
    refine ⟨range.bound, fun x inside => ?_⟩
    rw [prots x, if_pos inside]
    rfl
  obtain ⟨file, rfl, rfl⟩ | ⟨-, -, rfl, rfl⟩ | ⟨-, vkf, host, -, -, rfl, rfl⟩ |
    ⟨file, vkf, host, data, uc', found, loaded, written, rfl, rfl⟩ :=
      mmapLoad_cases run range.size_ne mapped
  · refine ⟨cleared_arch, .inr ⟨addr, rfl, chosen, aligned, range, rfl, prots, fun x => ?_⟩⟩
    have zero : vk.loadedByte sctx (x.toNat - addr.toNat) = 0 := by
      simp [Valkyrie.loadedByte, Valkyrie.fileByte, if_neg file]
    refine (bytes x).trans ?_
    rw [zero, cleared_bytes]
    rfl
  · exact ⟨cleared_arch, .inl ⟨_, by simp, rfl⟩⟩
  · exact ⟨cleared_arch, .inl ⟨_, by simp, rfl⟩⟩
  · obtain ⟨pages, -, stored⟩ := Unicorn.memWrite_effect written
    refine ⟨cleared_arch, .inr ⟨addr, rfl, chosen, aligned, range, rfl, fun x => ?_, fun x => ?_⟩⟩
    · have kept : uc'.protAt x = uc.protAt x := congrFun pages _
      exact kept.trans (prots x)
    · have full := length_fileBuffer (Host.length_load_le loaded)
      have host : ((vk.cleared sctx addr).mapped sctx addr uc).host = vk.host := cleared_host
      have table : ((vk.cleared sctx addr).mapped sctx addr uc).fdTable = vk.fdTable :=
        cleared_fdTable
      have others (out : x ∉ sctx.mmapRegion addr) : uc.bytes x = vk.uc.bytes x :=
        ((bytes x).trans (if_neg out)).trans (congrFun cleared_bytes x)
      rw [host] at loaded
      rw [table] at found
      have data := Host.load_eq loaded
      subst data
      refine (stored x).trans ?_
      rw [full]
      refine ite_congr rfl (fun inside => ?_) others
      rw [getD_fileBuffer, Valkyrie.loadedByte, Valkyrie.fileByte, if_pos file, found]

/-! ## The value left in the result register -/

/-- An error number stays one at the width of the register. -/
theorem Arch.isNegErrno_truncate (arch : Arch) (h : ValkyrieRs.IsNegErrno v) :
    arch.IsNegErrno (arch.truncate v) := by
  cases arch with
  | x86_64 => exact h
  | x86 =>
    have last := v.isLt
    simp only [IsNegErrno, truncate, BitVec.toNat_setWidth]
    unfold ValkyrieRs.IsNegErrno at h
    omega

theorem ends_mmapReturn (ends : (mmapReturn sctx).Ends vk (.ok ()) vk') :
    ∃ v vk₁, (sysMmap sctx).Ends vk (.ok v) vk₁ ∧
      vk' = vk₁.withReg vk₁.arch.regs.arch.resultReg v := by
  obtain ⟨v, vk₁, call, ends⟩ := ends_bind_ok.1 ends
  rw [ends_bind_get] at ends
  obtain ⟨-, rfl⟩ := (ends_setReg (Arch.resultReg_isOf _)).1 ends
  exact ⟨v, vk₁, call, rfl⟩

/-- A value that is no error number is the truncated address of a new mapping. -/
theorem made_of_success (ends : (mmapReturn sctx).Ends vk (.ok ()) vk')
    (success : ¬ vk.arch.regs.arch.IsNegErrno (vk'.uc.reg vk.arch.regs.arch.resultReg)) :
    ∃ addr, vk'.uc.reg vk.arch.regs.arch.resultReg = vk.arch.regs.arch.truncate addr ∧
      MadeAt sctx addr vk vk' := by
  obtain ⟨v, vk₁, call, rfl⟩ := ends_mmapReturn ends
  obtain ⟨same, outcome⟩ := sysMmap_cases call
  rw [same, Valkyrie.withReg_reg, same] at success ⊢
  obtain ⟨e, listed, ⟨rfl⟩⟩ | ⟨addr, ⟨rfl⟩, made⟩ := outcome
  · have small : 0 < e.toNat ∧ e.toNat ≤ 4095 := by
      simp only [List.mem_cons, List.not_mem_nil, or_false] at listed
      rcases listed with rfl | rfl | rfl | rfl <;> decide
    exact absurd (Arch.isNegErrno_truncate _ (isNegErrno_negErrno small.1 small.2)) success
  · exact ⟨v, rfl, made.chosen, made.aligned, made.range, made.regions, made.prots, made.bytes⟩

theorem MadeAt.readAt (made : MadeAt sctx addr vk vk') (inside : x ∈ sctx.mmapRegion addr) :
    vk'.uc.readAt x = some (vk.loadedByte sctx (x.toNat - addr.toNat)) := by
  rw [Unicorn.readAt, made.prots x, made.bytes x, if_pos inside, if_pos inside]
  rfl

/-- A delivered mapping is named in full and holds the whole of the file. -/
theorem canDeliver_of_delivered (made : MadeAt sctx addr vk vk')
    (delivered : Delivered sctx (vk.arch.regs.arch.truncate addr) vk vk') :
    vk.CanDeliver sctx := by
  have named : vk.arch.regs.arch.truncate addr = addr := by
    have last := delivered.listed
    rw [made.regions, List.getLast?_concat, Option.some.injEq] at last
    exact (congrArg VMemRegion.start last).symm
  rw [named] at delivered
  refine ⟨fun other chosen => ?_, fun i left inside => ?_⟩
  · obtain rfl := Option.some.inj (chosen.symm.trans made.chosen)
    exact named
  · have bound := delivered.bound.2
    have last : (addr + BitVec.ofNat 64 i).toNat = addr.toNat + i := by
      rw [BitVec.toNat_add, BitVec.toNat_ofNat]
      omega
    have member : addr + BitVec.ofNat 64 i ∈ sctx.mmapRegion addr := by
      show InRange addr sctx.mapLen.toNat _
      unfold InRange
      omega
    have byte := delivered.bytes _ member
    rw [made.readAt member, last, Nat.add_sub_cancel_left, Valkyrie.loadedByte,
      if_neg (Nat.not_lt.2 left)] at byte
    exact (Option.some.inj byte).symm

theorem delivered_of_canDeliver (made : MadeAt sctx addr vk vk') (can : vk.CanDeliver sctx) :
    Delivered sctx (vk.arch.regs.arch.truncate addr) vk vk' := by
  rw [can.fits addr made.chosen]
  refine ⟨made.aligned, ⟨made.range.size_ne, made.range.bound⟩, ?_, ?_, fun free => ?_, ?_, ?_⟩
  · rw [made.regions, List.getLast?_concat]
  · exact fun x inside => (made.prots x).trans (if_pos inside)
  · have untouched : vk.cleared sctx addr = vk := if_neg free
    have range := made.range
    have regions := made.regions
    have prots := made.prots
    rw [untouched] at range regions prots
    refine ⟨range.free, regions, fun x outside => ?_⟩
    have prot := (prots x).trans (if_neg outside)
    refine ⟨prot, ?_⟩
    rw [Unicorn.readAt, Unicorn.readAt, prot, made.bytes x, if_neg outside]
  · intro fixed null
    have chosen := made.chosen
    rw [VMemory.mmapAddr, if_neg (not_or.2 ⟨null, not_not.2 fixed⟩)] at chosen
    exact (Option.some.inj chosen).symm
  · intro x inside
    rw [made.readAt inside, Valkyrie.loadedByte]
    split_ifs with read
    · rfl
    · have small : x.toNat - addr.toNat < sctx.mapLen.toNat := by
        have lo : addr.toNat ≤ x.toNat := inside.1
        have hi : x.toNat < addr.toNat + sctx.mapLen.toNat := inside.2
        omega
      rw [can.whole _ (Nat.not_lt.1 read) small]

/-- Two mappings fill a 32-bit address space from `0x10000000` on. -/
def fullBelow4G : Valkyrie :=
  .ofMemory .x86 ⟨[⟨0x10000000, 0x80000000, ⟨true, true, false⟩, "[mmap]"⟩,
    ⟨0x90000000, 0x80000000, ⟨true, true, false⟩, "[mmap]"⟩], 0, 0⟩

theorem laid_fullBelow4G : Laid fullBelow4G.mem.regions fullBelow4G.uc := by
  refine .ofRegions (by decide) (by decide) (by decide) ?_
  refine List.pairwise_pair.2 fun x below above => ?_
  have hi : x.toNat < 0x90000000 := below.2
  have lo : 0x90000000 ≤ x.toNat := above.1
  omega

/-- An anonymous mapping of one page goes to `0x110000000`, and the guest is told
`0x10000000`. -/
theorem mmap_address_truncated : ¬ ∀ (vk vk' : Valkyrie) (sctx : SubCtx),
    Laid vk.mem.regions vk.uc → (mmapReturn sctx).Ends vk (.ok ()) vk' →
      ¬ vk.arch.regs.arch.IsNegErrno (vk'.uc.reg vk.arch.regs.arch.resultReg) →
      Delivered sctx (vk'.uc.reg vk.arch.regs.arch.resultReg) vk vk' := by
  intro delivers
  have does : ∃ vk', (mmapReturn ⟨0, 0x1000, 3, 0x22, 0, 0⟩).Ends fullBelow4G (.ok ()) vk' ∧
      vk'.uc.reg (.x86 .eax) = 0x10000000 ∧
      vk'.mem.regions.getLast? = some ⟨0x110000000, 0x1000, ⟨true, true, false⟩, "[mmap]"⟩ :=
    ⟨_, rfl, rfl, rfl⟩
  obtain ⟨vk', mmap, value, last⟩ := does
  have success : ¬ fullBelow4G.arch.regs.arch.IsNegErrno
      (vk'.uc.reg fullBelow4G.arch.regs.arch.resultReg) := by
    show ¬ Arch.x86.IsNegErrno (vk'.uc.reg (.x86 .eax))
    rw [value]
    decide
  have listed := (delivers _ _ _ laid_fullBelow4G mmap success).listed
  rw [last] at listed
  have start := congrArg VMemRegion.start (Option.some.inj listed)
  have told : vk'.uc.reg fullBelow4G.arch.regs.arch.resultReg = 0x10000000 := value
  rw [SubCtx.mmapRegion, told] at start
  exact absurd start (by decide)

/-- A successful `mmap` delivers what the guest was told exactly when the address chosen fits the
registers and the bytes of the file left out by the one read are zero. -/
theorem delivered_iff (ends : (mmapReturn sctx).Ends vk (.ok ()) vk')
    (success : ¬ vk.arch.regs.arch.IsNegErrno (vk'.uc.reg vk.arch.regs.arch.resultReg)) :
    Delivered sctx (vk'.uc.reg vk.arch.regs.arch.resultReg) vk vk' ↔ vk.CanDeliver sctx := by
  obtain ⟨addr, value, made⟩ := made_of_success ends success
  rw [value]
  exact ⟨canDeliver_of_delivered made, delivered_of_canDeliver made⟩

/-- A 32-bit guest with a file at descriptor 3, of which the host delivers two bytes at a time. -/
def oneFile (content : List U8) : Valkyrie :=
  { Valkyrie.ofMemory .x86 ⟨[⟨0x1000, 0x1000, .all, "[code]"⟩], 0, 0⟩ with
    fdTable := AList.insert 3 ⟨3, ['/'], 0, 0⟩ ∅
    host := { Host.refusing with
      answers := fun _ => ⟨true, EIO, 5, 2, []⟩
      descriptions := [⟨content, 0⟩]
      fds := AList.insert 3 0 ∅ } }

/-- A private mapping of the file, to be read. -/
def mapsFile : SubCtx := ⟨0, 0x1000, 1, 2, 3, 0⟩

/-- The one read delivers a file whose other bytes are zero, and leaves out the third byte of another
file. -/
theorem delivered_iff_oneFile :
    (∃ vk', (mmapReturn mapsFile).Ends (oneFile [7, 8, 0, 0]) (.ok ()) vk' ∧
      Delivered mapsFile 0x10000000 (oneFile [7, 8, 0, 0]) vk') ∧
    ∃ vk', (mmapReturn mapsFile).Ends (oneFile [7, 8, 9]) (.ok ()) vk' ∧
      ¬ Delivered mapsFile 0x10000000 (oneFile [7, 8, 9]) vk' := by
  have told (content : List U8) (vk' : Valkyrie)
      (ends : (mmapReturn mapsFile).Ends (oneFile content) (.ok ()) vk')
      (value : vk'.uc.reg (.x86 .eax) = 0x10000000) :
      Delivered mapsFile 0x10000000 (oneFile content) vk' ↔ (oneFile content).CanDeliver mapsFile := by
    have named : vk'.uc.reg (oneFile content).arch.regs.arch.resultReg = 0x10000000 := value
    have success : ¬ (oneFile content).arch.regs.arch.IsNegErrno
        (vk'.uc.reg (oneFile content).arch.regs.arch.resultReg) := by
      rw [named]
      show ¬ Arch.x86.IsNegErrno 0x10000000
      decide
    rw [← delivered_iff ends success, named]
  have count (content : List U8) : (oneFile content).host.loadCount 0x1000 = 2 := rfl
  have byte (content : List U8) (i : ℕ) :
      (oneFile content).fileByte mapsFile i = content.getD (0 + i) 0 := rfl
  refine ⟨⟨_, ends_final (by decide +kernel), (told _ _ (ends_final (by decide +kernel))
    (by decide +kernel)).2 ⟨fun addr chosen => ?_, fun i left inside => ?_⟩⟩,
    ⟨_, ends_final (by decide +kernel), fun delivered => ?_⟩⟩
  · have here : (oneFile [7, 8, 0, 0]).mem.mmapAddr mapsFile = some 0x10000000 := by decide +kernel
    cases chosen.symm.trans here
    rfl
  · have past : i = 2 ∨ i = 3 ∨ 4 ≤ 0 + i := by
      have := (count [7, 8, 0, 0]).symm.trans_le left
      omega
    rw [byte]
    obtain rfl | rfl | past := past
    · rfl
    · rfl
    · exact List.getD_eq_default _ _ past
  · have can := (told _ _ (ends_final (by decide +kernel)) (by decide +kernel)).1 delivered
    have third := can.whole 2 (count _).le (by decide)
    rw [byte] at third
    exact absurd third (by decide)

end ValkyrieRs

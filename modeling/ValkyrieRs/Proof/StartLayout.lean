import ValkyrieRs.Proof.Preparation

/-!
# The address layout at the start

Both loaders place the thread-local storage, the stack and the heap behind the image by the same chain
of round-ups.  As long as none of them wraps, an unmapped page lies between any two of the regions, and
the stack pointer keeps to the stack as long as its register can hold it.  The FS base of a 64-bit Linux
guest is two pages above the start of the thread-local storage, which is one page long.
-/

namespace ValkyrieRs

open Proc

variable {s s₀ : Instance} {vk vk' vk₁ : Valkyrie} {uc : Unicorn} {r r' region : VMemRegion} {n : ℕ}
  {sp a : U64} {args : NewArgs} {parse : List Char → Option Binary}

/-- A page between two regions that is not mapped. -/
def GapBetween (uc : Unicorn) (r r' : VMemRegion) : Prop :=
  ∃ a : U64, Aligned a ∧ r.start.toNat + r.size.toNat ≤ a.toNat ∧
    a.toNat + 4096 ≤ r'.start.toNat ∧ ∀ x, InRange a 4096 x → uc.protAt x = none

/-- The region of the stack. -/
def Valkyrie.stackRegion (vk : Valkyrie) : VMemRegion :=
  ⟨vk.addrs.stackAddrStart, vk.start.stackSize, .all, "[stack]"⟩

/-- The region of the heap. -/
def Valkyrie.heapRegion (vk : Valkyrie) : VMemRegion :=
  ⟨vk.mem.heapAddrStart, vk.start.heapSize, .all, "[heap]"⟩

/-- The regions placed behind the image; bare code has no thread-local storage. -/
def Valkyrie.placedRegions (vk : Valkyrie) : List VMemRegion :=
  (if vk.cfg.os = .linux then [vk.tlsRegion] else []) ++ [vk.stackRegion, vk.heapRegion]

/-- The layout that a guest starts with. -/
structure StartLayout (vk : Valkyrie) : Prop where
  laid : Laid vk.mem.regions vk.uc
  placed : ∀ r ∈ vk.placedRegions, r ∈ vk.mem.regions
  trap : vk.cfg.os = .bareMetal → ∃ addr, vk.exitTrapAddr = some addr ∧
    ⟨addr, pageSize, .all, "[Stop guard page]"⟩ ∈ vk.mem.regions
  gaps : ∀ r ∈ vk.mem.regions, vk.exitTrapAddr ≠ some r.start → ∀ r' ∈ vk.placedRegions, r ≠ r' →
    GapBetween vk.uc r r' ∨ GapBetween vk.uc r' r
  sp : vk.regValue vk.cfg.arch.spReg ∈ vk.stackRegion
  fsBase : vk.cfg.arch = .x86_64 → vk.cfg.os = .linux →
    vk.regValue (.x86_64 .fsBase) ∈ vk.tlsRegion

/-- No address wraps, and the stack pointer of a 32-bit guest can point at the end of its stack.  A
64-bit guest gets its layout on bare metal alone. -/
structure NewArgs.LayoutFits (args : NewArgs) (parse : List Char → Option Binary) : Prop where
  narrow : args.cfg.arch = .x86 →
    args.imageEnd parse + 0x3000 + args.start.stackSize.toNat ≤ 2 ^ 32
  wide : args.cfg.arch = .x86_64 → args.cfg.os = .bareMetal ∧
    args.imageEnd parse + 0x4000 + args.start.stackSize.toNat < 2 ^ 64

/-! ## Behind the image -/

/-- The stack and the heap stand behind an image that ends at or below `n`, with room for the
thread-local storage before them. -/
structure Located (n : ℕ) (vk : Valkyrie) : Prop where
  laid : Laid vk.mem.regions vk.uc
  stackListed : vk.stackRegion ∈ vk.mem.regions
  heapListed : vk.heapRegion ∈ vk.mem.regions
  image : ∀ r ∈ vk.mem.regions, r = vk.stackRegion ∨ r = vk.heapRegion ∨
    r.start.toNat + r.size.toNat ≤ n
  mapped : ∀ x, (vk.uc.protAt x).isSome → x ∈ vk.stackRegion ∨ x ∈ vk.heapRegion ∨ x.toNat < n
  tls : n + 4096 ≤ vk.addrs.tlsAddrStart.toNat
  tlsAligned : vk.addrs.tlsAddrStart.toNat % 4096 = 0
  tlsSize : vk.addrs.tlsAddrExit - vk.addrs.tlsAddrStart = pageSize
  stack : vk.addrs.stackAddrStart.toNat = vk.addrs.tlsAddrStart.toNat + 0x2000
  stackSome : 4096 ≤ vk.start.stackSize.toNat
  stackAligned : vk.start.stackSize.toNat % 4096 = 0
  heap : vk.mem.heapAddrStart.toNat =
    vk.addrs.stackAddrStart.toNat + vk.start.stackSize.toNat + 4096
  heapEnd : vk.mem.heapAddrStart.toNat + vk.start.heapSize.toNat ≤ 2 ^ 64
  sp : (vk.regValue vk.cfg.arch.spReg).toNat + 16 =
    vk.addrs.stackAddrStart.toNat + vk.start.stackSize.toNat

section Places

variable {stop stackSize : U64} {N : ℕ} (low : stop.toNat ≤ N) (aligned : N % 4096 = 0)

include low aligned

theorem toNat_tlsPlace (fits : N + 0x4000 < 2 ^ 64) : stop.toNat + 4096 ≤ (tlsPlace stop).toNat ∧
    (tlsPlace stop).toNat ≤ N + 4096 ∧ (tlsPlace stop).toNat % 4096 = 0 := by
  rw [tlsPlace, toNat_alignUp, BitVec.toNat_add, toNat_pageSize]
  omega

theorem toNat_stackPlace (fits : N + 0x4000 < 2 ^ 64) :
    (stackPlace stop).toNat = (tlsPlace stop).toNat + 0x2000 := by
  have place := toNat_tlsPlace low aligned fits
  rw [stackPlace, toNat_alignUp, BitVec.toNat_add, BitVec.toNat_add, toNat_pageSize]
  omega

theorem toNat_heapPlace (fits : N + 0x4000 + stackSize.toNat < 2 ^ 64)
    (sized : stackSize.toNat % 4096 = 0) : (heapPlace stop stackSize).toNat =
      (stackPlace stop).toNat + stackSize.toNat + 4096 := by
  have place := toNat_tlsPlace low aligned (by omega)
  have stack := toNat_stackPlace low aligned (by omega)
  rw [heapPlace, toNat_alignUp, BitVec.toNat_add, BitVec.toNat_add, toNat_pageSize]
  omega

end Places

theorem NewArgs.LayoutFits.bound (fits : args.LayoutFits parse) :
    args.imageEnd parse + 0x4000 + args.start.stackSize.toNat < 2 ^ 64 := by
  cases arch : args.cfg.arch with
  | x86 =>
    have low := fits.narrow arch
    omega
  | x86_64 => exact (fits.wide arch).2

/-- The initial stack pointer fits its register. -/
theorem NewArgs.LayoutFits.truncate (fits : args.LayoutFits parse)
    (le : sp.toNat + 16 ≤ args.imageEnd parse + 0x3000 + args.start.stackSize.toNat) :
    args.cfg.arch.truncate sp = sp := by
  cases arch : args.cfg.arch with
  | x86 =>
    have low := fits.narrow arch
    unfold Arch.truncate
    bv_omega
  | x86_64 => rfl

/-- Both loaders set the stack pointer below the end of the stack. -/
theorem TopOfStack.toNat {stop stackSize : U64} (top : TopOfStack stop stackSize sp)
    (fits : (stackPlace stop).toNat + stackSize.toNat < 2 ^ 64) (some_ : 16 ≤ stackSize.toNat) :
    sp.toNat + 16 = (stackPlace stop).toNat + stackSize.toNat := by
  have size := toNat_satSub (stackPlace stop + stackSize) 0x10
  have ten : (0x10 : U64).toNat = 16 := rfl
  have sum : (stackPlace stop + stackSize).toNat = (stackPlace stop).toNat + stackSize.toNat := by
    rw [BitVec.toNat_add, Nat.mod_eq_of_lt fits]
  obtain rfl | rfl := top
  · rw [BitVec.toNat_sub]
    omega
  · omega

section Placed

variable {stop : U64} (placed : Placed stop sp vk₁ vk)

include placed

theorem Placed.stackRegion_eq :
    vk.stackRegion = ⟨stackPlace stop, vk₁.start.stackSize, .all, "[stack]"⟩ := by
  rw [Valkyrie.stackRegion, placed.stackAddrStart, placed.settings.stackSize]

theorem Placed.heapRegion_eq : vk.heapRegion =
    ⟨heapPlace stop vk₁.start.stackSize, vk₁.start.heapSize, .all, "[heap]"⟩ := by
  rw [Valkyrie.heapRegion, placed.heapAddrStart, placed.settings.heapSize]

theorem Placed.regions_eq :
    vk.mem.regions = vk₁.mem.regions ++ [vk.stackRegion, vk.heapRegion] := by
  rw [placed.regions, placed.stackRegion_eq, placed.heapRegion_eq]

/-- Only the two regions are mapped. -/
theorem Placed.mapped {x : U64} (mapped : (vk.uc.protAt x).isSome) :
    x ∈ vk.stackRegion ∨ x ∈ vk.heapRegion ∨ (vk₁.uc.protAt x).isSome := by
  obtain ⟨uc₁, uc₂, ok₁, ok₂, after⟩ := placed.maps
  obtain ⟨prots₁, -, -⟩ := Unicorn.memMap_effect ok₁
  obtain ⟨prots₂, -, -⟩ := Unicorn.memMap_effect ok₂
  have pages : vk.uc.protAt x = uc₂.protAt x := by
    rw [after]
    rfl
  rw [pages, prots₂, prots₁] at mapped
  rw [placed.stackRegion_eq, placed.heapRegion_eq]
  split_ifs at mapped with inHeap inStack
  · exact .inr (.inl inHeap)
  · exact .inl inStack
  · exact .inr (.inr mapped)

theorem Placed.laid (loaded : Laid vk₁.mem.regions vk₁.uc) : Laid vk.mem.regions vk.uc := by
  obtain ⟨uc₁, uc₂, ok₁, ok₂, after⟩ := placed.maps
  rw [placed.regions, ← List.singleton_append (l := [_]), ← List.append_assoc]
  refine ((loaded.map ok₁).map ok₂).congr fun x => ?_
  rw [after]
  rfl

/-- The stack pointer reads as it was set when its register holds it. -/
theorem Placed.regValue_spReg (whole : vk₁.arch.regs.arch.truncate sp = sp) :
    vk.regValue vk.cfg.arch.spReg = sp := by
  obtain ⟨uc₁, uc₂, -, -, after⟩ := placed.maps
  have written : vk.uc.reg vk₁.cfg.arch.spReg = sp := by
    rw [after, whole]
    exact if_pos rfl
  rw [Valkyrie.regValue, placed.settings.arch, placed.settings.cfg, written, whole]

end Placed

/-- A loader that returns leaves this layout. -/
theorem located_of_loaderRun {base : U64} (run : (loaderRun parse).Ends args.vk (.ok base) vk)
    (fits : args.LayoutFits parse) : ∃ n, Located n vk := by
  obtain ⟨n, vk₁, sp, loaded, same, -, placed, top, low, aligned⟩ := loaderRun_ok run
  obtain ⟨uc₁, uc₂, ok₁, ok₂, -⟩ := placed.maps
  have bound := fits.bound
  have stop : (BitVec.ofNat 64 n).toNat = n := by
    rw [BitVec.toNat_ofNat, Nat.mod_eq_of_lt (by omega)]
  have stackSize : vk₁.start.stackSize = args.start.stackSize := same.stackSize
  have range₁ := Unicorn.Mappable.of_memMap ok₁
  have range₂ := Unicorn.Mappable.of_memMap ok₂
  have sized := range₁.size_aligned
  have nonempty := range₁.size_ne
  rw [← stackSize] at bound top
  have some_ : 4096 ≤ vk₁.start.stackSize.toNat := by bv_omega
  have tls := toNat_tlsPlace (stop.trans_le low) aligned (by omega)
  have stack := toNat_stackPlace (stop.trans_le low) aligned (by omega)
  have heap := toNat_heapPlace (stop.trans_le low) aligned bound sized
  have spIs := top.toNat (by omega) (by omega)
  have spReg : vk.regValue vk.cfg.arch.spReg = sp := by
    have arch : vk₁.arch.regs.arch = args.cfg.arch := same.arch
    apply placed.regValue_spReg
    rw [arch]
    apply fits.truncate
    rw [← stackSize]
    omega
  exact ⟨n, {
    laid := placed.laid loaded.laid
    stackListed := by
      rw [placed.regions_eq]
      exact List.mem_append_right _ List.mem_cons_self
    heapListed := by
      rw [placed.regions_eq]
      exact List.mem_append_right _ (List.mem_cons_of_mem _ List.mem_cons_self)
    image := fun r hr => by
      rw [placed.regions_eq] at hr
      rcases List.mem_append.1 hr with old | new
      · exact .inr (.inr (loaded.below r old))
      · rcases List.mem_cons.1 new with rfl | new
        · exact .inl rfl
        · exact .inr (.inl (List.mem_singleton.1 new))
    mapped := fun x mapped => (placed.mapped mapped).imp_right (.imp_right (loaded.mapped x))
    tls := by
      rw [placed.tlsAddrStart]
      omega
    tlsAligned := by
      rw [placed.tlsAddrStart]
      exact tls.2.2
    tlsSize := by
      rw [placed.tlsAddrStart, placed.tlsAddrExit, BitVec.add_comm, BitVec.add_sub_cancel]
    stack := by
      rw [placed.stackAddrStart, placed.tlsAddrStart]
      exact stack
    stackSome := by
      rw [placed.settings.stackSize]
      exact some_
    stackAligned := by
      rw [placed.settings.stackSize]
      exact sized
    heap := by
      rw [placed.heapAddrStart, placed.stackAddrStart, placed.settings.stackSize]
      exact heap
    heapEnd := by
      rw [placed.heapAddrStart, placed.settings.heapSize]
      exact range₂.bound
    sp := by
      rw [spReg, placed.stackAddrStart, placed.settings.stackSize]
      exact spIs }⟩

/-! ## The pages between -/

/-- A page with nothing mapped in it. -/
structure FreePage (uc : Unicorn) (a : U64) : Prop where
  aligned : Aligned a
  free : ∀ x, InRange a 4096 x → uc.protAt x = none

theorem FreePage.gap (h : FreePage uc a) (left : r.start.toNat + r.size.toNat ≤ a.toNat)
    (right : a.toNat + 4096 ≤ r'.start.toNat) : GapBetween uc r r' :=
  ⟨a, h.aligned, left, right, h.free⟩

/-- The regions that the set-up may map: the thread-local storage, the first page, or a region behind
the heap. -/
def Valkyrie.Beside (vk : Valkyrie) (region : VMemRegion) : Prop :=
  region = vk.tlsRegion ∨ region.start.toNat + region.size.toNat ≤ 4096 ∨
    vk.mem.heapAddrStart.toNat + vk.start.heapSize.toNat ≤ region.start.toNat

/-- The exit trap is mapped behind the heap, or at zero where the addresses behind it wrap. -/
theorem Located.beside_trap (h : Located n vk) : vk.Beside (trapRegion vk.mem.regions) := by
  have listed : vk.heapRegion.satEnd ∈ vk.mem.regions.map VMemRegion.satEnd :=
    List.mem_map_of_mem h.heapListed
  have ends := h.heapEnd
  have page : pageSize.toNat = 4096 := rfl
  right
  unfold trapRegion trapAddress
  cases highest : (vk.mem.regions.map VMemRegion.satEnd).max? with
  | none =>
    rw [List.max?_eq_none_iff.1 highest] at listed
    cases listed
  | some stop =>
    have above : vk.heapRegion.satEnd ≤ stop := by
      exact (List.max?_le_iff highest).1 (le_refl stop) _ listed
    have above : vk.heapRegion.satEnd.toNat ≤ stop.toNat := above
    rw [VMemRegion.satEnd, toNat_satAdd] at above
    dsimp only [Valkyrie.heapRegion] at above ⊢
    rw [toNat_alignUp, toNat_satAdd, page]
    omega

theorem Located.unmapped (h : Located n vk) (adds : Adds region vk vk') {x : U64}
    (behind : n ≤ x.toNat) (stack : ¬ x ∈ vk.stackRegion) (heap : ¬ x ∈ vk.heapRegion)
    (apart : ¬ x ∈ region) : vk'.uc.protAt x = none := by
  obtain ⟨uc, ok, layout⟩ := adds
  obtain ⟨prots, -, -⟩ := Unicorn.memMap_effect ok
  have same : vk'.uc.protAt x = uc.protAt x := congrFun layout.pages (x.toNat / 4096)
  have outside : ¬ InRange region.start region.size.toNat x := apart
  rw [same, prots, if_neg outside]
  by_contra mapped
  rcases h.mapped x (Option.isSome_iff_ne_none.2 mapped) with inside | inside | inside
  · exact stack inside
  · exact heap inside
  · omega

/-- A page behind the image and outside the regions placed behind it is free. -/
theorem Located.freePage (h : Located n vk) (adds : Adds region vk vk') (beside : vk.Beside region)
    (aligned : Aligned a) (behind : n ≤ a.toNat) (positive : 0 < a.toNat)
    (apart : a.toNat + 4096 ≤ vk.addrs.tlsAddrStart.toNat ∨
      vk.addrs.tlsAddrStart.toNat + 4096 ≤ a.toNat ∧
        a.toNat + 4096 ≤ vk.addrs.stackAddrStart.toNat ∨
      a.toNat = vk.addrs.stackAddrStart.toNat + vk.start.stackSize.toNat) :
    FreePage vk'.uc a := by
  refine ⟨aligned, fun x inside => ?_⟩
  have stack := h.stack
  have some_ := h.stackSome
  have heap := h.heap
  have size : (vk.addrs.tlsAddrExit - vk.addrs.tlsAddrStart).toNat = 4096 := by
    rw [h.tlsSize]
    rfl
  unfold Aligned at aligned
  unfold InRange at inside
  refine h.unmapped adds (behind.trans inside.1) ?_ ?_ ?_
  · rintro ⟨first, last⟩
    dsimp only [Valkyrie.stackRegion] at first last
    omega
  · rintro ⟨first, last⟩
    dsimp only [Valkyrie.heapRegion] at first last
    omega
  · rintro ⟨first, last⟩
    obtain rfl | low | high := beside
    · dsimp only [Valkyrie.tlsRegion] at first last
      omega
    · omega
    · omega

/-- Two of the regions, of which the second is one placed behind the image, have a free page between
them. -/
theorem Located.gap (h : Located n vk) (adds : Adds region vk vk') (beside : vk.Beside region)
    (left : r.size ≠ 0 ∧ r.start.toNat + r.size.toNat ≤ n ∨ r = vk.tlsRegion ∨
      r = vk.stackRegion ∨ r = vk.heapRegion)
    (right : r' = vk.tlsRegion ∨ r' = vk.stackRegion ∨ r' = vk.heapRegion) (ne : r ≠ r') :
    GapBetween vk'.uc r r' ∨ GapBetween vk'.uc r' r := by
  have tls := h.tls
  have tlsAligned := h.tlsAligned
  have stack := h.stack
  have stackAligned := h.stackAligned
  have heap := h.heap
  have page : pageSize.toNat = 4096 := rfl
  have end_ := vk.mem.heapAddrStart.isLt
  have size : vk.tlsRegion.start.toNat + vk.tlsRegion.size.toNat =
      vk.addrs.tlsAddrStart.toNat + 4096 := by
    dsimp only [Valkyrie.tlsRegion]
    rw [h.tlsSize]
    rfl
  have before : (vk.addrs.tlsAddrStart - pageSize).toNat =
      vk.addrs.tlsAddrStart.toNat - 4096 := by bv_omega
  have middle : (vk.addrs.tlsAddrStart + pageSize).toNat =
      vk.addrs.tlsAddrStart.toNat + 4096 := by bv_omega
  have behind : (vk.addrs.stackAddrStart + vk.start.stackSize).toNat =
      vk.addrs.stackAddrStart.toNat + vk.start.stackSize.toNat := by
    rw [BitVec.toNat_add]
    omega
  have free₂ : FreePage vk'.uc (vk.addrs.tlsAddrStart + pageSize) :=
    h.freePage adds beside (by unfold Aligned; omega) (by omega) (by omega) (by omega)
  have free₃ : FreePage vk'.uc (vk.addrs.stackAddrStart + vk.start.stackSize) :=
    h.freePage adds beside (by unfold Aligned; omega) (by omega) (by omega) (by omega)
  have tlsStart : vk.tlsRegion.start.toNat = vk.addrs.tlsAddrStart.toNat := rfl
  have stackEnd : vk.stackRegion.start.toNat + vk.stackRegion.size.toNat =
      vk.addrs.stackAddrStart.toNat + vk.start.stackSize.toNat := rfl
  have stackStart : vk.stackRegion.start.toNat = vk.addrs.stackAddrStart.toNat := rfl
  have heapStart : vk.heapRegion.start.toNat = vk.mem.heapAddrStart.toNat := rfl
  rcases left with ⟨some_, image⟩ | rfl | rfl | rfl
  · have positive : 0 < r.size.toNat := by bv_omega
    have free₁ : FreePage vk'.uc (vk.addrs.tlsAddrStart - pageSize) :=
      h.freePage adds beside (by unfold Aligned; omega) (by omega) (by omega) (by omega)
    refine .inl (free₁.gap (by omega) ?_)
    rcases right with rfl | rfl | rfl
    · omega
    · omega
    · omega
  · refine .inl (free₂.gap (by omega) ?_)
    rcases right with rfl | rfl | rfl
    · exact absurd rfl ne
    · omega
    · omega
  · rcases right with rfl | rfl | rfl
    · exact .inr (free₂.gap (by omega) (by omega))
    · exact absurd rfl ne
    · exact .inl (free₃.gap (by omega) (by omega))
  · rcases right with rfl | rfl | rfl
    · exact .inr (free₂.gap (by omega) (by omega))
    · exact .inr (free₃.gap (by omega) (by omega))
    · exact absurd rfl ne

/-! ## The start -/

variable {handler showInstructions : Valkyrie → U64 → U32 → Valkyrie} {range : U64 × U64}
  {answers : ℕ → Option UcError} {disassemble : Bool}

section Adds

variable (adds : Adds region vk vk')

include adds

theorem Adds.cfg_eq : vk'.cfg = vk.cfg := by
  obtain ⟨uc, -, layout⟩ := adds
  exact layout.settings.cfg

theorem Adds.regions_eq : vk'.mem.regions = vk.mem.regions ++ [region] := by
  obtain ⟨uc, -, layout⟩ := adds
  exact congrArg VMemory.regions layout.mem

theorem Adds.laid (laid : Laid vk.mem.regions vk.uc) : Laid vk'.mem.regions vk'.uc := by
  have regions := adds.regions_eq
  obtain ⟨uc, ok, layout⟩ := adds
  rw [regions]
  apply (laid.map ok).congr
  intro x
  exact congrArg Option.isSome (congrFun layout.pages (x.toNat / 4096))

theorem Adds.stackRegion_eq : vk'.stackRegion = vk.stackRegion := by
  obtain ⟨uc, -, layout⟩ := adds
  rw [Valkyrie.stackRegion, layout.addrs, layout.settings.stackSize]
  rfl

theorem Adds.heapRegion_eq : vk'.heapRegion = vk.heapRegion := by
  obtain ⟨uc, -, layout⟩ := adds
  rw [Valkyrie.heapRegion, layout.mem, layout.settings.heapSize]
  rfl

theorem Adds.tlsRegion_eq : vk'.tlsRegion = vk.tlsRegion := by
  obtain ⟨uc, -, layout⟩ := adds
  rw [Valkyrie.tlsRegion, layout.addrs, layout.settings.cfg]
  rfl

theorem Adds.mem_placedRegions : r ∈ vk'.placedRegions ↔
    vk.cfg.os = .linux ∧ r = vk.tlsRegion ∨ r = vk.stackRegion ∨ r = vk.heapRegion := by
  rw [Valkyrie.placedRegions, adds.cfg_eq, adds.tlsRegion_eq, adds.stackRegion_eq,
    adds.heapRegion_eq]
  split_ifs with os
  · simp [os]
  · simp [os]

end Adds

/-- The layout after the set-up has mapped its region, but for the stack pointer and the FS base. -/
theorem Located.startLayout (h : Located n vk) (adds : Adds region vk vk')
    (beside : vk.Beside region)
    (linux : vk.cfg.os = .linux → region = vk.tlsRegion)
    (bare : vk.cfg.os = .bareMetal → region = trapRegion vk.mem.regions ∧
      vk'.exitTrapAddr = some region.start)
    (sp : vk'.regValue vk.cfg.arch.spReg ∈ vk.stackRegion)
    (narrow : vk.cfg.os = .linux → vk.cfg.arch ≠ .x86_64) : StartLayout vk' := by
  have added : region ∈ vk'.mem.regions := by
    rw [adds.regions_eq]
    exact List.mem_append_right _ (List.mem_singleton_self _)
  have kept : ∀ r ∈ vk.mem.regions, r ∈ vk'.mem.regions := by
    intro r hr
    rw [adds.regions_eq]
    exact List.mem_append_left _ hr
  refine ⟨adds.laid h.laid, fun r hr => ?_, fun os => ?_, fun r hr notTrap r' hr' ne => ?_, ?_,
    fun wide os => ?_⟩
  · rcases adds.mem_placedRegions.1 hr with ⟨os, rfl⟩ | rfl | rfl
    · exact linux os ▸ added
    · exact kept _ h.stackListed
    · exact kept _ h.heapListed
  · rw [adds.cfg_eq] at os
    obtain ⟨rfl, set⟩ := bare os
    exact ⟨_, set, added⟩
  · apply h.gap adds beside ?_ ((adds.mem_placedRegions.1 hr').imp_left And.right) ne
    rw [adds.regions_eq] at hr
    rcases List.mem_append.1 hr with old | new
    · rcases h.image r old with rfl | rfl | image
      · exact .inr (.inr (.inl rfl))
      · exact .inr (.inr (.inr rfl))
      · exact .inl ⟨(h.laid.paged r old).nonempty, image⟩
    · obtain rfl := List.mem_singleton.1 new
      cases os : vk.cfg.os with
      | linux => exact .inr (.inl (linux os))
      | bareMetal => exact absurd (bare os).2 notTrap
  · rw [adds.cfg_eq, adds.stackRegion_eq]
    exact sp
  · rw [adds.cfg_eq] at wide os
    exact absurd wide (narrow os)

theorem Located.stack_aligned (h : Located n vk) : vk.addrs.stackAddrStart.toNat % 16 = 0 := by
  have aligned := h.tlsAligned
  have stack := h.stack
  omega

/-- The page below the stack of a Linux guest is not mapped. -/
theorem Located.guarded (h : Located n vk) (adds : Adds vk.tlsRegion vk vk') :
    Guarded vk'.uc vk.addrs.stackAddrStart := by
  have tls := h.tls
  have aligned := h.tlsAligned
  have stack := h.stack
  have middle : (vk.addrs.tlsAddrStart + pageSize).toNat = vk.addrs.tlsAddrStart.toNat + 4096 := by
    have page : pageSize.toNat = 4096 := rfl
    have last := vk.addrs.stackAddrStart.isLt
    bv_omega
  have free : FreePage vk'.uc (vk.addrs.tlsAddrStart + pageSize) :=
    h.freePage adds (.inl rfl) (by unfold Aligned; omega) (by omega) (by omega) (by omega)
  refine ⟨by omega, free.free _ ?_⟩
  unfold InRange
  bv_omega

/-- Bare code starts with the stack pointer that the loader has set. -/
theorem Located.startLayout_bare (h : Located n s₀.vk) (os : s₀.vk.cfg.os = .bareMetal)
    (unset : s₀.vk.exitTrapAddr = none) (traps : s₀.skipExitCheck = false)
    (run : (setUp handler).Ends s₀ (.ok range) s) : StartLayout s.vk := by
  have some_ := h.stackSome
  have sp := h.sp
  have notLinux : s₀.vk.cfg.os ≠ .linux := by
    rw [os]
    decide
  obtain ⟨id, adds, regs, set, -⟩ := setUp_bare os unset traps run
  refine h.startLayout adds h.beside_trap (fun linux => absurd linux notLinux)
    (fun _ => ⟨rfl, set⟩) ?_ fun linux => absurd linux notLinux
  obtain ⟨uc, -, layout⟩ := adds
  have same : s.vk.regValue s₀.vk.cfg.arch.spReg = s₀.vk.regValue s₀.vk.cfg.arch.spReg := by
    rw [Valkyrie.regValue, regs, layout.settings.arch]
    rfl
  rw [same]
  constructor
  · dsimp only [Valkyrie.stackRegion]
    omega
  · dsimp only [Valkyrie.stackRegion]
    omega

/-- The stack of a 32-bit Linux guest is built inside its region. -/
theorem Located.startLayout_linux (h : Located n s₀.vk) (os : s₀.vk.cfg.os = .linux)
    (narrow : s₀.vk.cfg.arch ≠ .x86_64) (skip : s₀.skipExitCheck)
    (run : (setUp handler).Ends s₀ (.ok range) s) : StartLayout s.vk := by
  have some_ := h.stackSome
  have sp := h.sp
  have notBare : s₀.vk.cfg.os ≠ .bareMetal := by
    rw [os]
    decide
  obtain ⟨⟨adds, -, stack⟩, -⟩ := setUp_linux os skip run
  refine h.startLayout adds (.inl rfl) (fun _ => rfl) (fun bare => absurd bare notBare) ?_
    fun _ => narrow
  obtain ⟨low, high⟩ := stack _ (h.guarded adds) h.stack_aligned (by omega)
  constructor
  · exact low
  · dsimp only [Valkyrie.stackRegion]
    omega

/-- A configuration that fits gets its layout. -/
theorem startLayout_of_fits
    (created : (valkyrieNew parse showInstructions disassemble).Ends (args.fresh answers) (.ok ()) s₀)
    (run : (setUp handler).Ends s₀ (.ok range) s) (fits : args.LayoutFits parse) :
    StartLayout s.vk := by
  obtain ⟨⟨base, loaded⟩, skip, -, -⟩ := valkyrieNew_ok created
  obtain ⟨n, located⟩ := located_of_loaderRun loaded fits
  obtain ⟨settings, unset⟩ := loaderRun_settings loaded
  have cfg : s₀.vk.cfg = args.cfg := settings.cfg
  cases os : s₀.vk.cfg.os with
  | bareMetal => exact located.startLayout_bare os unset (by rw [skip, os]; rfl) run
  | linux =>
    refine located.startLayout_linux os (fun wide => ?_) (by rw [skip, os]; rfl) run
    rw [cfg] at wide os
    rw [(fits.wide wide).1] at os
    cases os

/-- The FS base of a 64-bit Linux guest is two pages above the start of its thread-local storage. -/
theorem not_startLayout_of_wide
    (created : (valkyrieNew parse showInstructions disassemble).Ends (args.fresh answers) (.ok ()) s₀)
    (run : (setUp handler).Ends s₀ (.ok range) s) (arch : args.cfg.arch = .x86_64)
    (os : args.cfg.os = .linux) : ¬ StartLayout s.vk := by
  obtain ⟨⟨base, loaded⟩, skip, -, -⟩ := valkyrieNew_ok created
  obtain ⟨settings, unset⟩ := loaderRun_settings loaded
  obtain ⟨n, vk₁, sp, -, -, -, placed, -⟩ := loaderRun_ok loaded
  have cfg : s₀.vk.cfg = args.cfg := settings.cfg
  have os₀ : s₀.vk.cfg.os = .linux := by rw [cfg, os]
  have arch₀ : s₀.vk.cfg.arch = .x86_64 := by rw [cfg, arch]
  obtain ⟨⟨⟨uc, -, layout⟩, fsBase, -⟩, -⟩ := setUp_linux os₀ (by rw [skip, os₀]; rfl) run
  intro start
  have same : s.vk.cfg = s₀.vk.cfg := layout.settings.cfg
  have regs : s.vk.arch.regs.arch = .x86_64 := by
    rw [layout.settings.arch]
    exact settings.arch.trans arch
  have inside := start.fsBase (by rw [same, arch₀]) (by rw [same, os₀])
  have value : s.vk.regValue (.x86_64 .fsBase) = s₀.vk.addrs.tlsAddrStart + 2 * pageSize := by
    rw [Valkyrie.regValue, fsBase arch₀, regs]
    rfl
  have addrs : s.vk.addrs = s₀.vk.addrs := layout.addrs
  have size : s₀.vk.addrs.tlsAddrExit - s₀.vk.addrs.tlsAddrStart = pageSize := by
    rw [placed.tlsAddrStart, placed.tlsAddrExit, BitVec.add_comm, BitVec.add_sub_cancel]
  obtain ⟨first, last⟩ := inside
  dsimp only [Valkyrie.tlsRegion] at first last
  rw [value, addrs] at first last
  rw [size] at last
  have page : pageSize.toNat = 4096 := rfl
  bv_omega

/-- The layout of a new emulator after its first set-up. -/
theorem start_layout
    (created : (valkyrieNew parse showInstructions disassemble).Ends (args.fresh answers) (.ok ()) s₀)
    (run : (setUp handler).Ends s₀ (.ok range) s) :
    (args.LayoutFits parse → StartLayout s.vk) ∧
      (args.cfg.arch = .x86_64 → args.cfg.os = .linux → ¬ StartLayout s.vk) :=
  ⟨startLayout_of_fits created run, not_startLayout_of_wide created run⟩

/-- An emulator is created and set up; the value is the state before the set-up. -/
def setUpOnce (handler : Valkyrie → U64 → U32 → Valkyrie) : InstanceM (Instance × (U64 × U64)) := do
  valkyrieNew (fun _ => none) handler false
  let s₀ ← get
  let range ← setUp handler
  return (s₀, range)

theorem setUpOnce_ok {out : Instance × (U64 × U64)}
    (run : (setUpOnce handler).Ends (args.fresh answers) (.ok out) s) :
    (valkyrieNew (fun _ => none) handler false).Ends (args.fresh answers) (.ok ()) out.1 ∧
      (setUp handler).Ends out.1 (.ok out.2) s := by
  rw [setUpOnce] at run
  obtain ⟨_, s₀, created, run⟩ := ends_bind_ok.1 run
  rw [ends_bind_get] at run
  obtain ⟨range, s₁, setUp, run⟩ := ends_bind_ok.1 run
  obtain ⟨same, rfl⟩ := ends_pure.1 run
  cases same
  exact ⟨created, setUp⟩

/-- A 32-bit Linux guest of one page of code gets its layout. -/
theorem start_layout_blob : ∃ s₀ range s,
    (valkyrieNew (fun _ => none) (fun vk _ _ => vk) false).Ends
      ((blobArgs .x86 .linux).fresh fun _ => none) (.ok ()) s₀ ∧
    (setUp fun vk _ _ => vk).Ends s₀ (.ok range) s ∧ StartLayout s.vk := by
  have computed : (setUpOnce (fun vk _ _ => vk)
      ((blobArgs .x86 .linux).fresh fun _ => none)).map (fun p => p.1.isOk) = some true := by
    decide +kernel
  obtain ⟨⟨r, s⟩, run, done⟩ := Option.map_eq_some_iff.1 computed
  cases r with
  | error => cases done
  | ok out =>
    obtain ⟨created, setUp⟩ := setUpOnce_ok run
    have fits : (blobArgs .x86 .linux).LayoutFits fun _ => none := ⟨fun _ => by decide, nofun⟩
    exact ⟨out.1, out.2, s, created, setUp, (start_layout created setUp).1 fits⟩

/-- The FS base of a 64-bit Linux guest is the start of its stack. -/
theorem fsBase_in_stack : ∃ s₀ range s,
    (valkyrieNew (fun _ => none) (fun vk _ _ => vk) false).Ends
      ((blobArgs .x86_64 .linux).fresh fun _ => none) (.ok ()) s₀ ∧
    (setUp fun vk _ _ => vk).Ends s₀ (.ok range) s ∧
    s.vk.regValue (.x86_64 .fsBase) = s.vk.addrs.stackAddrStart ∧ ¬ StartLayout s.vk := by
  have computed : (setUpOnce (fun vk _ _ => vk)
      ((blobArgs .x86_64 .linux).fresh fun _ => none)).map (fun p => (p.1.isOk,
        decide (p.2.vk.cfg.arch = .x86_64 ∧ p.2.vk.cfg.os = .linux ∧
          p.2.vk.regValue (.x86_64 .fsBase) = p.2.vk.addrs.stackAddrStart ∧
          p.2.vk.regValue (.x86_64 .fsBase) ∉ p.2.vk.tlsRegion))) = some (true, true) := by
    decide +kernel
  obtain ⟨⟨r, s⟩, run, done⟩ := Option.map_eq_some_iff.1 computed
  rw [Prod.mk.injEq, decide_eq_true_eq] at done
  obtain ⟨isOk, arch, os, same, outside⟩ := done
  cases r with
  | error => cases isOk
  | ok out =>
    obtain ⟨created, setUp⟩ := setUpOnce_ok run
    exact ⟨out.1, out.2, s, created, setUp, same, fun start => outside (start.fsBase arch os)⟩

end ValkyrieRs

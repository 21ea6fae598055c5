import ValkyrieRs.Proof.ElfImage
import ValkyrieRs.Proof.InitialStack
import ValkyrieRs.Proof.Layout
import ValkyrieRs.Run

/-!
# What the loaders leave

A loader maps its image, all of it at or below a bound, and then places the stack and the heap behind
it by its own arithmetic.  The bound is that of the input: the end of the code, or of the segments of
the program and of its interpreter.
-/

namespace ValkyrieRs

open Proc

/-- A step of the loaders while they map the image: pages that end at or below the bound are mapped,
bytes are stored, or addresses recorded. -/
inductive LoadStep (bound : ℕ) : Valkyrie → Valkyrie → Prop where
  | map {vk : Valkyrie} {uc : Unicorn} (addr size : U64) (prot : Prot) (info : String)
    (ok : vk.uc.memMap addr size prot = .ok uc) (below : addr.toNat + size.toNat ≤ bound) :
    LoadStep bound vk (vk.withMem (vk.mem.addRegion ⟨addr, size, prot, info⟩) uc)
  | store {vk : Valkyrie} {uc : Unicorn} (pages : uc.pages = vk.uc.pages)
    (reg : uc.reg = vk.uc.reg) : LoadStep bound vk (vk.withUc uc)
  | record {vk : Valkyrie} (elfAuxv : Option ElfAuxvInfo) (addrs : MemAddrs) (entryPoint : U64) :
    LoadStep bound vk { vk with elfAuxv, addrs, start.entryPoint := entryPoint }

/-- A chain of such steps. -/
abbrev Loads (bound : ℕ) : Valkyrie → Valkyrie → Prop := Relation.ReflTransGen (LoadStep bound)

variable {vk vk' : Valkyrie} {uc uc' : Unicorn} {bound n : ℕ} {addr size bias : U64} {prot : Prot}
  {data : List U8} {sections : List SectionSpan} {namePrefix : Option String}

theorem LoadStep.mono (h : LoadStep bound vk vk') (le : bound ≤ n) : LoadStep n vk vk' := by
  cases h with
  | map addr size prot info ok below => exact .map addr size prot info ok (below.trans le)
  | store pages reg => exact .store pages reg
  | record elfAuxv addrs entryPoint => exact .record elfAuxv addrs entryPoint

theorem loads_mono (h : Loads bound vk vk') (le : bound ≤ n) : Loads n vk vk' :=
  Relation.ReflTransGen.mono (fun _ _ step => step.mono le) _ _ h

/-! ## The image of a binary -/

theorem loads_of_stored (h : Stored vk vk') : Loads bound vk vk' := by
  rw [h.eq]
  exact .single (.store h.pages h.reg)

theorem stored_of_memWrite (h : vk.uc.memWrite addr data = .ok uc) : Stored vk (vk.withUc uc) := by
  obtain ⟨pages, reg, -⟩ := Unicorn.memWrite_effect h
  exact ⟨rfl, reg, pages⟩

theorem stored_memWrite (run : (memWrite addr data).Ends vk (.ok ()) vk') : Stored vk vk' := by
  rcases ends_memWrite.1 run with ⟨uc, written, -, rfl⟩ | ⟨e, -, ⟨⟩, -⟩
  exact stored_of_memWrite (VMemory.write_ok_iff.1 written).2

theorem stored_zeroFillLoop {fuel : ℕ} (run : (zeroFillLoop fuel addr size).Ends vk (.ok ()) vk') :
    Stored vk vk' := by
  induction fuel generalizing vk addr size with
  | zero => exact (ends_diverge run).elim
  | succ fuel ih =>
    by_cases more : 0 < size
    · obtain ⟨uc, written, rest⟩ := zeroFillLoop_ok more run
      exact (stored_of_memWrite written).trans (ih rest)
    · rw [zeroFillLoop, if_neg more] at run
      obtain ⟨-, rfl⟩ := ends_pure.1 run
      exact .refl _

/-- Runs that fill a range of pages end at its end. -/
theorem loads_mapRuns {a b : U64} {runs : List (Segment U64 String)}
    (filled : Segment.Fills a b runs)
    (calls : ((runs.map (runRegion prot)).forM mapRegion).Ends vk (.ok ()) vk') :
    Loads b.toNat vk vk' := by
  induction filled generalizing vk with
  | nil =>
    obtain ⟨-, rfl⟩ := ends_forM_nil.1 calls
    exact .refl
  | cons nonempty filled ih =>
    obtain ⟨vk₁, mapped, rest⟩ := ends_forM_cons_ok.1 calls
    obtain ⟨uc, accepted, rfl⟩ := ends_mapRegion_ok.1 mapped
    refine .head (.map _ _ _ _ accepted ?_) (ih rest)
    have low := BitVec.le_def.1 nonempty.le
    have high := BitVec.le_def.1 filled.le
    rwa [runRegion, toNat_satSub, Nat.add_sub_cancel' low]

/-- The chunks of a segment end at its end. -/
theorem loads_mapSegmentBySection {alignedStart alignedEnd : U64}
    (endAligned : Aligned alignedEnd) (aligned : Aligned alignedStart)
    (run : (mapSegmentBySection alignedStart alignedEnd prot sections namePrefix).Ends
      vk (.ok ()) vk') : Loads alignedEnd.toNat vk vk' := by
  rcases lt_or_ge alignedEnd alignedStart with wrapped | before
  · rw [mapSegmentBySection_of_lt wrapped] at run
    obtain ⟨-, rfl⟩ := ends_pure.1 run
    exact .refl
  · obtain ⟨runs, calls, filled⟩ := mapSegmentBySection_runs aligned endAligned before
    rw [calls] at run
    exact loads_mapRuns filled.fills run

/-- A segment is mapped at or below the new upper bound, which is at most its own end. -/
theorem loads_mapSegment {span span' : U64 × U64} {seg : ElfSegment}
    (run : (mapSegment bias sections namePrefix span seg).Ends vk (.ok span') vk') :
    Loads span'.2.toNat vk vk' ∧ span.2.toNat ≤ span'.2.toNat ∧
      (span'.2 = span.2 ∨ (seg.pType = .load ∧ seg.virtualSize ≠ 0) ∧
        span'.2.toNat ≤ max span.2.toNat (seg.pageEnd bias)) := by
  by_cases loaded : seg.pType = .load ∧ seg.virtualSize ≠ 0
  · obtain ⟨load, nonempty⟩ := loaded
    simp only [mapSegment, if_neg (not_not.2 load), if_neg nonempty] at run
    obtain ⟨_, vk₁, mapped, rest⟩ := ends_bind_ok.1 run
    obtain ⟨_, vk₂, first, rest⟩ := ends_bind_ok.1 rest
    obtain ⟨_, vk₃, second, done⟩ := ends_bind_ok.1 rest
    obtain ⟨same, rfl⟩ := ends_pure.1 done
    cases same
    have pages := loads_mapSegmentBySection (by rw [Aligned, toNat_alignUp]; omega)
      (by rw [Aligned, toNat_alignDown]; omega) mapped
    have content : Loads 0 vk₁ vk₂ := by
      split_ifs at first
      · obtain ⟨-, rfl⟩ := ends_pure.1 first
        exact .refl
      · exact loads_of_stored (stored_memWrite first)
    have cleared : Loads 0 vk₂ vk' := by
      split_ifs at second
      · exact loads_of_stored (stored_zeroFillLoop second)
      · obtain ⟨-, rfl⟩ := ends_pure.1 second
        exact .refl
    refine ⟨?_, ?_, .inr ⟨⟨load, nonempty⟩, ?_⟩⟩
    · dsimp only
      rw [toNat_max]
      exact (loads_mono pages (Nat.le_max_right _ _)).trans
        (loads_mono (content.trans cleared) (Nat.zero_le _))
    · dsimp only
      rw [toNat_max]
      exact Nat.le_max_left _ _
    · dsimp only
      rw [toNat_max, toNat_alignUp, toNat_satAdd, toNat_satAdd]
      unfold ElfSegment.pageEnd ElfSegment.base
      omega
  · rw [mapSegment_skip loaded] at run
    obtain ⟨same, rfl⟩ := ends_pure.1 run
    cases same
    exact ⟨.refl, le_rfl, .inl rfl⟩

/-- The end of the loadable segments of a list, moved by the bias. -/
def segmentsEnd (segs : List ElfSegment) (bias : U64) : ℕ :=
  ((segs.filter fun seg => seg.pType = .load ∧ seg.virtualSize ≠ 0).map (·.pageEnd bias)).foldr max 0

/-- The end of the image of a binary. -/
def Binary.imageEnd (elf : Binary) (bias : U64) : ℕ := segmentsEnd elf.segments bias

theorem segmentsEnd_cons {seg : ElfSegment} {segs : List ElfSegment} :
    segmentsEnd (seg :: segs) bias = if seg.pType = .load ∧ seg.virtualSize ≠ 0 then
      max (seg.pageEnd bias) (segmentsEnd segs bias) else segmentsEnd segs bias := by
  unfold segmentsEnd
  split_ifs with loaded
  · rw [List.filter_cons_of_pos (by simpa using loaded)]
    rfl
  · rw [List.filter_cons_of_neg (by simpa using loaded)]

theorem segmentsEnd_mono {segs : List ElfSegment} {bias' : U64} (le : bias.toNat ≤ bias'.toNat) :
    segmentsEnd segs bias ≤ segmentsEnd segs bias' := by
  induction segs with
  | nil => exact Nat.zero_le _
  | cons seg segs ih =>
    rw [segmentsEnd_cons, segmentsEnd_cons]
    split_ifs with loaded
    · have ends : seg.pageEnd bias ≤ seg.pageEnd bias' := by
        unfold ElfSegment.pageEnd ElfSegment.base
        omega
      exact max_le_max ends ih
    · exact ih

theorem loads_mapSegments {segs : List ElfSegment} {span span' : U64 × U64}
    (run : (segs.foldlM (mapSegment bias sections namePrefix) span).Ends vk (.ok span') vk') :
    Loads span'.2.toNat vk vk' ∧ span.2.toNat ≤ span'.2.toNat ∧
      span'.2.toNat ≤ max span.2.toNat (segmentsEnd segs bias) := by
  induction segs generalizing vk span with
  | nil =>
    obtain ⟨same, rfl⟩ := ends_pure.1 run
    cases same
    exact ⟨.refl, le_rfl, le_max_left _ _⟩
  | cons seg segs ih =>
    rw [List.foldlM_cons] at run
    obtain ⟨mid, vk₁, first, rest⟩ := ends_bind_ok.1 run
    obtain ⟨one, low, high⟩ := loads_mapSegment first
    obtain ⟨more, low', high'⟩ := ih rest
    refine ⟨(loads_mono one low').trans more, low.trans low', high'.trans ?_⟩
    rw [segmentsEnd_cons]
    rcases high with same | ⟨loaded, high⟩
    · rw [same]
      split_ifs <;> omega
    · rw [if_pos loaded]
      omega

theorem loads_mapElfBinary {elf : Binary} {baseHint : U64} {m : MappedElf}
    (run : (mapElfBinary elf baseHint namePrefix).Ends vk (.ok m) vk') :
    Loads m.maxAddr.toNat vk vk' ∧ m.maxAddr.toNat ≤ elf.imageEnd (elf.loadBias baseHint) := by
  obtain ⟨loop, -⟩ := mapElfBinary_ok run
  obtain ⟨loads, -, high⟩ := loads_mapSegments loop
  exact ⟨loads, high.trans (max_le (Nat.zero_le _) le_rfl)⟩

/-! ## What loading keeps -/

/-- The settings of the emulator that neither the loaders nor the set-up change. -/
structure SameSettings (vk vk' : Valkyrie) : Prop where
  cfg : vk'.cfg = vk.cfg
  arch : vk'.arch.regs.arch = vk.arch.regs.arch
  stackSize : vk'.start.stackSize = vk.start.stackSize
  heapSize : vk'.start.heapSize = vk.start.heapSize
  argv : vk'.start.argv = vk.start.argv

theorem SameSettings.refl : SameSettings vk vk := ⟨rfl, rfl, rfl, rfl, rfl⟩

theorem SameSettings.trans {vk₁ : Valkyrie} (h : SameSettings vk vk₁) (h' : SameSettings vk₁ vk') :
    SameSettings vk vk' where
  cfg := h'.cfg.trans h.cfg
  arch := h'.arch.trans h.arch
  stackSize := h'.stackSize.trans h.stackSize
  heapSize := h'.heapSize.trans h.heapSize
  argv := h'.argv.trans h.argv

theorem loads_settings (h : Loads bound vk vk') :
    SameSettings vk vk' ∧ vk'.exitTrapAddr = vk.exitTrapAddr := by
  induction h with
  | refl => exact ⟨.refl, rfl⟩
  | tail _ step ih =>
    obtain ⟨same, trap⟩ := ih
    refine ⟨same.trans ?_, ?_⟩
    · cases step <;> exact ⟨rfl, rfl, rfl, rfl, rfl⟩
    · cases step <;> exact trap

/-- The regions are laid out, and they and all that is mapped end at or below the bound. -/
structure LoadedBelow (bound : ℕ) (vk : Valkyrie) : Prop where
  laid : Laid vk.mem.regions vk.uc
  below : ∀ r ∈ vk.mem.regions, r.start.toNat + r.size.toNat ≤ bound
  mapped : ∀ x, (vk.uc.protAt x).isSome → x.toNat < bound

theorem LoadedBelow.mono (h : LoadedBelow bound vk) (le : bound ≤ n) : LoadedBelow n vk :=
  ⟨h.laid, fun r hr => (h.below r hr).trans le, fun x mapped => (h.mapped x mapped).trans_le le⟩

theorem LoadedBelow.loads (h : LoadedBelow bound vk) (loads : Loads bound vk vk') :
    LoadedBelow bound vk' := by
  induction loads with
  | refl => exact h
  | tail _ step ih =>
    cases step with
    | map addr size prot info ok below =>
      obtain ⟨prots, -, -⟩ := Unicorn.memMap_effect ok
      refine ⟨ih.laid.map ok, fun r hr => ?_, fun x mapped => ?_⟩
      · rcases List.mem_append.1 hr with old | new
        · exact ih.below r old
        · rw [List.mem_singleton.1 new]
          exact below
      · rw [Valkyrie.withMem_uc, prots x] at mapped
        split_ifs at mapped with inside
        · exact inside.2.trans_le below
        · exact ih.mapped x mapped
    | store pages reg =>
      have same : ∀ x : U64, _ := fun x => congrFun pages (x.toNat / 4096)
      refine ⟨ih.laid.congr fun x => congrArg Option.isSome (same x), ih.below, fun x mapped => ?_⟩
      exact ih.mapped x ((congrArg Option.isSome (same x)).symm.trans mapped)
    | record elfAuxv addrs entryPoint => exact ⟨ih.laid, ih.below, ih.mapped⟩

/-! ## Placing the regions behind the image -/

/-- Where the thread-local storage starts behind an image that ends at `stop`. -/
def tlsPlace (stop : U64) : U64 := alignUp (stop + pageSize) pageSize

/-- Where the stack goes. -/
def stackPlace (stop : U64) : U64 := alignUp (tlsPlace stop + pageSize + pageSize) pageSize

/-- Where the heap goes. -/
def heapPlace (stop stackSize : U64) : U64 :=
  alignUp (stackPlace stop + stackSize + pageSize) pageSize

/-- What a loader leaves after it has mapped the image, which ends at `stop`: the stack and the heap
are mapped, and the stack pointer is `sp`. -/
structure Placed (stop sp : U64) (vk₁ vk' : Valkyrie) : Prop where
  settings : SameSettings vk₁ vk'
  trap : vk'.exitTrapAddr = vk₁.exitTrapAddr
  tlsAddrStart : vk'.addrs.tlsAddrStart = tlsPlace stop
  tlsAddrExit : vk'.addrs.tlsAddrExit = tlsPlace stop + pageSize
  stackAddrStart : vk'.addrs.stackAddrStart = stackPlace stop
  heapAddrStart : vk'.mem.heapAddrStart = heapPlace stop vk₁.start.stackSize
  regions : vk'.mem.regions = vk₁.mem.regions ++
    [⟨stackPlace stop, vk₁.start.stackSize, .all, "[stack]"⟩,
      ⟨heapPlace stop vk₁.start.stackSize, vk₁.start.heapSize, .all, "[heap]"⟩]
  maps : ∃ uc₁ uc₂, vk₁.uc.memMap (stackPlace stop) vk₁.start.stackSize .all = .ok uc₁ ∧
    uc₁.memMap (heapPlace stop vk₁.start.stackSize) vk₁.start.heapSize .all = .ok uc₂ ∧
    vk'.uc = uc₂.regWrite vk₁.cfg.arch.spReg (vk₁.arch.regs.arch.truncate sp)

/-- The emulator with a stack and a heap, in the engine's memory before and after it has mapped the
heap. -/
def Valkyrie.withPlaces (vk : Valkyrie) (addrs : MemAddrs) (heapAddr : U64) (uc₁ uc₂ : Unicorn)
    (sp : U64) : Valkyrie :=
  let image := vk.withAddrs addrs
  let stack := image.withMem
    (image.mem.addRegion ⟨addrs.stackAddrStart, vk.start.stackSize, .all, "[stack]"⟩) uc₁
  let heap := stack.withHeap heapAddr (heapAddr + vk.start.heapSize)
  (heap.withMem (heap.mem.addRegion ⟨heapAddr, vk.start.heapSize, .all, "[heap]"⟩) uc₂).withReg
    vk.cfg.arch.spReg sp

theorem placed_withPlaces {addrs : MemAddrs} {heapAddr stop sp : U64} {uc₁ uc₂ : Unicorn}
    (tlsStart : addrs.tlsAddrStart = tlsPlace stop)
    (tlsExit : addrs.tlsAddrExit = tlsPlace stop + pageSize)
    (stack : addrs.stackAddrStart = stackPlace stop)
    (heap : heapAddr = heapPlace stop vk.start.stackSize)
    (stackOk : (vk.withAddrs addrs).uc.memMap addrs.stackAddrStart vk.start.stackSize .all = .ok uc₁)
    (heapOk : uc₁.memMap heapAddr vk.start.heapSize .all = .ok uc₂) :
    Placed stop sp vk (vk.withPlaces addrs heapAddr uc₁ uc₂ sp) where
  settings := ⟨rfl, rfl, rfl, rfl, rfl⟩
  trap := rfl
  tlsAddrStart := tlsStart
  tlsAddrExit := tlsExit
  stackAddrStart := stack
  heapAddrStart := heap
  regions := by
    rw [← stack, ← heap]
    exact List.append_assoc ..
  maps := ⟨uc₁, uc₂, stack ▸ stackOk, heap ▸ heapOk, rfl⟩

/-- The stack pointer is set to the word below the end of the stack. -/
def TopOfStack (stop stackSize sp : U64) : Prop :=
  sp = stackPlace stop + stackSize - 0x10 ∨ sp = satSub (stackPlace stop + stackSize) 0x10

variable {parse : List Char → Option Binary} {loadAddress : U64}

theorem memMap_ok {info : String} (run : (memMap addr size prot info).Ends vk (.ok ()) vk') :
    ∃ uc, vk.uc.memMap addr size prot = .ok uc ∧
      vk' = vk.withMem (vk.mem.addRegion ⟨addr, size, prot, info⟩) uc := by
  rcases ends_memMap.1 run with ⟨uc, ok, -, same⟩ | ⟨e, -, ⟨⟩, -⟩
  exact ⟨uc, ok, same⟩

/-- A check that has been passed. -/
theorem ends_check_ok {α : Type} {c : Prop} [Decidable c] {e : ValkyrieError} {f : Unit → VkM α}
    {a : α} : (if c then throw e >>= f else f ()).Ends vk (.ok a) vk' ↔
      ¬ c ∧ (f ()).Ends vk (.ok a) vk' := by
  by_cases failed : c
  · rw [if_pos failed]
    exact iff_of_false (fun h => by simp [ends_bind_ok] at h) fun h => h.1 failed
  · rw [if_neg failed, and_iff_right failed]

/-- A change that is made under a condition. -/
theorem ends_modify_if {α : Type} {c : Prop} [Decidable c] {g : Valkyrie → Valkyrie}
    {f : Unit → VkM α} {r : Except ValkyrieError α} :
    (if c then modify g >>= f else f ()).Ends vk r vk' ↔
      (f ()).Ends (if c then g vk else vk) r vk' := by
  split_ifs
  · exact ends_bind_modify
  · exact Iff.rfl

/-- The end of bare code. -/
def StartConfig.codeEnd (start : StartConfig) : ℕ :=
  start.codeBaseAddress.toNat + start.codeRamSize.toNat

theorem loaderBlobRun_ok (run : loaderBlobRun.Ends vk (.ok loadAddress) vk') :
    ∃ vk₁ sp, vk.start.codeEnd % 4096 = 0 ∧ Loads vk.start.codeEnd vk vk₁ ∧
      Placed (BitVec.ofNat 64 vk.start.codeEnd) sp vk₁ vk' ∧
      TopOfStack (BitVec.ofNat 64 vk.start.codeEnd) vk.start.stackSize sp := by
  have stop : vk.start.codeBaseAddress + vk.start.codeRamSize =
      BitVec.ofNat 64 vk.start.codeEnd := by
    rw [StartConfig.codeEnd, BitVec.ofNat_add, BitVec.ofNat_toNat, BitVec.ofNat_toNat,
      BitVec.setWidth_eq, BitVec.setWidth_eq]
  rw [loaderBlobRun, ends_bind_get] at run
  obtain ⟨-, run⟩ := ends_check_ok.1 run
  obtain ⟨-, run⟩ := ends_check_ok.1 run
  obtain ⟨_, vk₁, code, run⟩ := ends_bind_ok.1 run
  obtain ⟨uc, ok, rfl⟩ := memMap_ok code
  obtain ⟨_, vk₂, written, run⟩ := ends_bind_ok.1 run
  rw [ends_bind_modify] at run
  obtain ⟨-, run⟩ := ends_check_ok.1 run
  obtain ⟨_, vk₃, stack, run⟩ := ends_bind_ok.1 run
  obtain ⟨uc₁, stackOk, rfl⟩ := memMap_ok stack
  rw [ends_bind_modify] at run
  obtain ⟨-, run⟩ := ends_check_ok.1 run
  obtain ⟨_, vk₄, heap, run⟩ := ends_bind_ok.1 run
  obtain ⟨uc₂, heapOk, rfl⟩ := memMap_ok heap
  obtain ⟨_, vk₅, set, run⟩ := ends_bind_ok.1 run
  obtain ⟨-, rfl⟩ := ends_pure.1 run
  have loads : Loads vk.start.codeEnd vk vk₂ :=
    .trans (.single (.map _ _ _ _ ok le_rfl)) (loads_of_stored (stored_memWrite written))
  obtain ⟨same, trap⟩ := loads_settings loads
  obtain ⟨-, rfl⟩ := setReg_ok set
  have range := Unicorn.Mappable.of_memMap ok
  have aligned : vk.start.codeEnd % 4096 = 0 := by
    have first := range.addr_aligned
    have second := range.size_aligned
    rw [StartConfig.codeEnd]
    omega
  refine ⟨vk₂, _, aligned, loads, ?_, .inl rfl⟩
  rw [← same.stackSize] at stackOk heapOk
  rw [← same.heapSize] at heapOk
  rw [← stop, ← same.stackSize, ← same.heapSize, ← same.cfg]
  exact placed_withPlaces rfl rfl rfl rfl stackOk heapOk

theorem mapInterpreter_ok {elf : Binary} {m : MappedElf}
    (run : (mapInterpreter parse elf).Ends vk (.ok m) vk') : ∃ interp,
      parse (resolveGuestPath vk.cfg.rootfs elf.interpreter) = some interp ∧
        Loads m.maxAddr.toNat vk vk' ∧
        m.maxAddr.toNat ≤ interp.imageEnd (interp.loadBias (chooseSharedObjectBase vk)) := by
  rw [mapInterpreter, ends_bind_get] at run
  cases found : parse (resolveGuestPath vk.cfg.rootfs elf.interpreter) with
  | none =>
    rw [found] at run
    cases (ends_throw.1 run).1
  | some interp =>
    rw [found] at run
    obtain ⟨loads, high⟩ := loads_mapElfBinary run
    exact ⟨interp, rfl, loads, high⟩

/-- The end of the image of a program, with its interpreter if it asks for one. -/
def programEnd (parse : List Char → Option Binary) (rootfs : List Char) (elf : Binary) : ℕ :=
  max (elf.imageEnd 0) (if hasInterp elf then
    match parse (resolveGuestPath rootfs elf.interpreter) with
    | none => 0
    | some interp => interp.imageEnd
      (interp.loadBias (BitVec.ofNat 64 (min (elf.imageEnd 0 + 0x1000000) (2 ^ 64 - 1))))
  else 0)

theorem segmentsEnd_aligned (segs : List ElfSegment) : segmentsEnd segs bias % 4096 = 0 := by
  induction segs with
  | nil => rfl
  | cons seg segs ih =>
    have ends := @ElfSegment.pageEnd_mod seg bias
    rw [segmentsEnd_cons]
    split_ifs <;> omega

theorem programEnd_aligned (parse : List Char → Option Binary) (rootfs : List Char) (elf : Binary) :
    programEnd parse rootfs elf % 4096 = 0 := by
  have program : elf.imageEnd 0 % 4096 = 0 := segmentsEnd_aligned _
  unfold programEnd
  split_ifs
  · cases parse (resolveGuestPath rootfs elf.interpreter) with
    | none => rwa [Nat.max_zero]
    | some interp =>
      have second : interp.imageEnd (interp.loadBias
          (BitVec.ofNat 64 (min (elf.imageEnd 0 + 0x1000000) (2 ^ 64 - 1)))) % 4096 = 0 :=
        segmentsEnd_aligned _
      dsimp only
      omega
  · rwa [Nat.max_zero]

theorem max?_le {l : List U64} (all : ∀ a ∈ l, a.toNat ≤ bound) :
    (l.max?.getD 0).toNat ≤ bound := by
  cases h : l.max? with
  | none => exact Nat.zero_le _
  | some a => exact all a (List.max?_mem h)

/-- The interpreter goes behind the program. -/
theorem toNat_chooseSharedObjectBase (below : ∀ r ∈ vk.mem.regions,
      r.start.toNat + r.size.toNat ≤ bound) (aligned : bound % 4096 = 0) :
    (chooseSharedObjectBase vk).toNat ≤ bound + 0x1000000 := by
  have highest : ((vk.mem.regions.map VMemRegion.satEnd).max?.getD 0).toNat ≤ bound := by
    refine max?_le fun a ha => ?_
    obtain ⟨r, hr, rfl⟩ := List.mem_map.1 ha
    have := below r hr
    rw [VMemRegion.satEnd, toNat_satAdd]
    omega
  rw [chooseSharedObjectBase, toNat_alignUp, toNat_satAdd]
  have guard : (0x01000000 : U64).toNat = 0x1000000 := rfl
  omega

theorem loadBias_zero (elf : Binary) : elf.loadBias 0 = 0 := ite_self _

theorem loadBias_mono (elf : Binary) {a b : U64} (le : a.toNat ≤ b.toNat) :
    (elf.loadBias a).toNat ≤ (elf.loadBias b).toNat := by
  unfold Binary.loadBias
  split_ifs
  · exact le
  · exact le_rfl

/-- The program and its interpreter are mapped at or below the address recorded, which is at most the
end that the binaries ask for. -/
theorem mapProgram_ok {elf : Binary} {elfPath : List Char} {out : U64 × U64}
    (start : LoadedBelow 0 vk)
    (run : (mapProgram parse elfPath elf).Ends vk (.ok out) vk') :
    Loads vk'.addrs.codeAddrExit.toNat vk vk' ∧
      vk'.addrs.codeAddrExit.toNat ≤ programEnd parse vk.cfg.rootfs elf := by
  rw [mapProgram] at run
  obtain ⟨main, vk₁, first, run⟩ := ends_bind_ok.1 run
  obtain ⟨loads, high⟩ := loads_mapElfBinary first
  rw [loadBias_zero] at high
  split_ifs at run with asks
  · obtain ⟨interp, vk₂, second, run⟩ := ends_bind_ok.1 run
    obtain ⟨binary, found, more, high'⟩ := mapInterpreter_ok second
    rw [ends_bind_modify] at run
    obtain ⟨-, rfl⟩ := ends_pure.1 run
    constructor
    · dsimp only
      rw [toNat_max]
      refine .tail ((loads_mono loads (Nat.le_max_left _ _)).trans
        (loads_mono more (Nat.le_max_right _ _))) (.record _ _ _)
    · have below := ((start.mono (Nat.zero_le _)).loads (loads_mono loads high)).below
      have base := toNat_chooseSharedObjectBase below (segmentsEnd_aligned _)
      have hint : (BitVec.ofNat 64 (min (elf.imageEnd 0 + 0x1000000) (2 ^ 64 - 1))).toNat =
          min (elf.imageEnd 0 + 0x1000000) (2 ^ 64 - 1) := by
        rw [BitVec.toNat_ofNat]
        omega
      have within := (chooseSharedObjectBase vk₁).isLt
      have cfg := (loads_settings loads).1.cfg
      rw [cfg] at found
      have ends : interp.maxAddr.toNat ≤ binary.imageEnd
          (binary.loadBias (BitVec.ofNat 64 (min (elf.imageEnd 0 + 0x1000000) (2 ^ 64 - 1)))) :=
        high'.trans (segmentsEnd_mono (loadBias_mono binary (by omega)))
      dsimp only
      rw [toNat_max, programEnd, if_pos asks, found]
      exact max_le_max high ends
  · rw [ends_bind_modify] at run
    obtain ⟨-, rfl⟩ := ends_pure.1 run
    exact ⟨.tail loads (.record _ _ _), high.trans (Nat.le_max_left _ _)⟩

theorem loaderElfRun_ok (start : LoadedBelow 0 vk)
    (run : (loaderElfRun parse).Ends vk (.ok loadAddress) vk') :
    ∃ elfPath elf vk₁ sp, vk.start.elfFile = some elfPath ∧ parse elfPath = some elf ∧
      Loads vk₁.addrs.codeAddrExit.toNat vk vk₁ ∧
      vk₁.addrs.codeAddrExit.toNat ≤ programEnd parse vk.cfg.rootfs elf ∧
      Placed vk₁.addrs.codeAddrExit sp vk₁ vk' ∧
      TopOfStack vk₁.addrs.codeAddrExit vk.start.stackSize sp := by
  rw [loaderElfRun, ends_bind_get] at run
  cases file : vk.start.elfFile with
  | none =>
    rw [file] at run
    cases (ends_throw.1 run).1
  | some elfPath =>
    rw [file] at run
    cases found : parse elfPath with
    | none =>
      simp only [found] at run
      cases (ends_throw.1 run).1
    | some elf =>
      simp only [found] at run
      obtain ⟨out, vk₁, image, run⟩ := ends_bind_ok.1 run
      obtain ⟨loads, high⟩ := mapProgram_ok start image
      rw [ends_modify_if] at run
      obtain ⟨vk₂, entry, more, addrs⟩ : ∃ vk₂, (if vk.start.entryPoint = 0 then
          { vk₁ with start.entryPoint := out.2 } else vk₁) = vk₂ ∧ Loads 0 vk₁ vk₂ ∧
          vk₂.addrs = vk₁.addrs := by
        split_ifs
        · exact ⟨_, rfl, .single (.record vk₁.elfAuxv vk₁.addrs out.2), rfl⟩
        · exact ⟨_, rfl, .refl, rfl⟩
      rw [entry] at run
      rw [← addrs] at loads high
      have loads : Loads vk₂.addrs.codeAddrExit.toNat vk vk₂ :=
        loads.trans (loads_mono more (Nat.zero_le _))
      obtain ⟨same, -⟩ := loads_settings loads
      obtain ⟨-, run⟩ := ends_check_ok.1 run
      obtain ⟨-, run⟩ := ends_check_ok.1 run
      rw [ends_bind_get, ends_bind_modify] at run
      obtain ⟨_, vk₃, stack, run⟩ := ends_bind_ok.1 run
      obtain ⟨uc₁, stackOk, rfl⟩ := memMap_ok stack
      rw [ends_bind_modify] at run
      obtain ⟨_, vk₄, heap, run⟩ := ends_bind_ok.1 run
      obtain ⟨uc₂, heapOk, rfl⟩ := memMap_ok heap
      obtain ⟨_, vk₅, set, run⟩ := ends_bind_ok.1 run
      obtain ⟨-, rfl⟩ := ends_pure.1 run
      obtain ⟨-, rfl⟩ := setReg_ok set
      rw [← same.stackSize] at stackOk heapOk
      rw [← same.heapSize] at heapOk
      refine ⟨elfPath, elf, vk₂, _, rfl, found, loads, high, ?_, .inr rfl⟩
      rw [← same.stackSize, ← same.heapSize, ← same.cfg]
      exact placed_withPlaces rfl rfl rfl rfl stackOk heapOk

/-! ## A new emulator -/

/-- The end of the image that the configuration asks for. -/
def NewArgs.imageEnd (args : NewArgs) (parse : List Char → Option Binary) : ℕ :=
  match args.start.loader with
  | .raw => args.start.codeEnd
  | .elf =>
    match args.start.elfFile.bind parse with
    | none => 0
    | some elf => programEnd parse args.cfg.rootfs elf

theorem loadedBelow_new (args : NewArgs) : LoadedBelow 0 args.vk := by
  refine ⟨⟨nofun, .nil, nofun⟩, nofun, fun x mapped => ?_⟩
  have none_ : args.vk.uc.protAt x = none := rfl
  rw [none_] at mapped
  cases mapped

/-- A loader maps an image that ends at or below `n`, and places the stack and the heap behind. -/
theorem loaderRun_ok {args : NewArgs} (run : (loaderRun parse).Ends args.vk (.ok loadAddress) vk') :
    ∃ n vk₁ sp, LoadedBelow n vk₁ ∧ SameSettings args.vk vk₁ ∧ vk₁.exitTrapAddr = none ∧
      Placed (BitVec.ofNat 64 n) sp vk₁ vk' ∧
      TopOfStack (BitVec.ofNat 64 n) args.start.stackSize sp ∧
      n ≤ args.imageEnd parse ∧ args.imageEnd parse % 4096 = 0 := by
  rw [loaderRun, ends_bind_get] at run
  have start := loadedBelow_new args
  cases kind : args.start.loader with
  | raw =>
    rw [show args.vk.start.loader = .raw from kind] at run
    obtain ⟨vk₁, sp, aligned, loads, placed, top⟩ := loaderBlobRun_ok run
    obtain ⟨same, trap⟩ := loads_settings loads
    refine ⟨_, vk₁, sp, (start.mono (Nat.zero_le _)).loads loads, same, trap, placed, top, ?_⟩
    rw [NewArgs.imageEnd, kind]
    exact ⟨le_rfl, aligned⟩
  | elf =>
    rw [show args.vk.start.loader = .elf from kind] at run
    obtain ⟨elfPath, elf, vk₁, sp, file, found, loads, high, placed, top⟩ :=
      loaderElfRun_ok start run
    obtain ⟨same, trap⟩ := loads_settings loads
    have stop : BitVec.ofNat 64 vk₁.addrs.codeAddrExit.toNat = vk₁.addrs.codeAddrExit := by
      rw [BitVec.ofNat_toNat, BitVec.setWidth_eq]
    have ends : args.imageEnd parse = programEnd parse args.cfg.rootfs elf := by
      rw [NewArgs.imageEnd, kind]
      simp only [show args.start.elfFile = some elfPath from file, Option.bind_some, found]
    refine ⟨vk₁.addrs.codeAddrExit.toNat, vk₁, sp, (start.mono (Nat.zero_le _)).loads loads, same,
      trap, stop.symm ▸ placed, stop.symm ▸ top, ?_⟩
    rw [ends]
    exact ⟨high, programEnd_aligned ..⟩

/-- The loader keeps the settings of the configuration. -/
theorem loaderRun_settings {args : NewArgs}
    (run : (loaderRun parse).Ends args.vk (.ok loadAddress) vk') :
    SameSettings args.vk vk' ∧ vk'.exitTrapAddr = none := by
  obtain ⟨n, vk₁, sp, -, same, unset, placed, -⟩ := loaderRun_ok run
  exact ⟨same.trans placed.settings, placed.trap.trans unset⟩

end ValkyrieRs

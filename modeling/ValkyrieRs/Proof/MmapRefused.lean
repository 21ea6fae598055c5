import ValkyrieRs.Proof.Layout

/-!
# Refused mappings

`sys_mmap` clears the range of a `MAP_FIXED` mapping before it maps, and maps before it loads, and
undoes nothing.  A refusal leaves the memory as it was when it comes first, when the clearing found
nothing to clear, or when the mapping made is the very mapping that was replaced.
-/

namespace ValkyrieRs

open Proc

variable {vk vk' : Valkyrie} {mem : VMemory} {uc uc' : Unicorn} {addr size x v : U64}
  {sctx : SubCtx} {r : VMemRegion}

/-- The memory of the guest is the same: the listed regions, the pages and every byte. -/
structure Unchanged (vk vk' : Valkyrie) : Prop where
  regions : vk'.mem.regions = vk.mem.regions
  prots : ∀ x, vk'.uc.protAt x = vk.uc.protAt x
  bytes : ∀ x, vk'.uc.readAt x = vk.uc.readAt x

theorem Unchanged.refl (vk : Valkyrie) : Unchanged vk vk := ⟨rfl, fun _ => rfl, fun _ => rfl⟩

/-- The region that the call adds to the list. -/
def SubCtx.mmapRegion (sctx : SubCtx) (addr : U64) : VMemRegion :=
  ⟨addr, sctx.mapLen, sctx.mapProt, "[mmap]"⟩

/-- The engine will accept the mapping: the range is free, or it is to be replaced and entirely
mapped. -/
def Valkyrie.Accepts (vk : Valkyrie) (sctx : SubCtx) (addr : U64) : Prop :=
  vk.uc.Mappable addr sctx.mapLen ∨ sctx.UseFixed ∧ vk.uc.Unmappable addr sctx.mapLen

/-- No region has an address in the range. -/
def VMemory.Clear (mem : VMemory) (addr size : U64) : Prop :=
  ∀ r ∈ mem.regions, ∀ x ∈ r, ¬ InRange addr size.toNat x

/-- The mapping to be replaced is the last of the list, and the one that the call would make: its
region is the same, and its pages have the requested protection and hold zeros. -/
structure Valkyrie.RemakesLast (vk : Valkyrie) (sctx : SubCtx) (addr : U64) : Prop where
  fixed : sctx.UseFixed
  last : vk.mem.regions.getLast? = some (sctx.mmapRegion addr)
  prot : ∀ x ∈ sctx.mmapRegion addr, vk.uc.protAt x = some sctx.mapProt
  zero : ∀ x ∈ sctx.mmapRegion addr, vk.uc.bytes x = 0

/-- The condition under which a refusal leaves the memory as it was. -/
def Valkyrie.RefusesCleanly (vk : Valkyrie) (sctx : SubCtx) : Prop :=
  sctx.MmapRefused ∨ ∃ addr, vk.mem.mmapAddr sctx = some addr ∧
    (¬ vk.Accepts sctx addr ∧ (sctx.UseFixed → vk.mem.Clear addr sctx.mapLen) ∨
      vk.Accepts sctx addr ∧ vk.RemakesLast sctx addr)

/-! ## Clearing the range -/

/-- Once a range is unmapped it can be mapped. -/
theorem Unicorn.Unmappable.mappable (h : uc.Unmappable addr size)
    (ok : uc.memUnmap addr size = .ok uc') : uc'.Mappable addr size := by
  obtain ⟨size_ne, addr_aligned, size_aligned, bound, -⟩ := h
  refine ⟨size_ne, addr_aligned, size_aligned, bound, fun x inside => ?_⟩
  rw [(memUnmap_effect ok).1 x, if_pos inside]

theorem mappable_cleared_iff :
    (vk.cleared sctx addr).uc.Mappable addr sctx.mapLen ↔ vk.Accepts sctx addr := by
  unfold Valkyrie.cleared Valkyrie.Accepts
  by_cases fixed : sctx.UseFixed
  swap
  · simp only [fixed, if_false, false_and, or_false]
  rw [if_pos fixed, and_iff_right fixed]
  simp only [Valkyrie.replaced, Valkyrie.withMem_uc, Unicorn.unmapped]
  by_cases empty : sctx.mapLen = 0
  · have refused (uc : Unicorn) : ¬ uc.Mappable addr sctx.mapLen := fun h => h.size_ne empty
    simp only [refused, false_or, false_iff]
    exact fun h => h.size_ne empty
  have accepted : (∃ uc, vk.uc.memUnmap addr sctx.mapLen = .ok uc) ↔
      vk.uc.Unmappable addr sctx.mapLen := Unicorn.memUnmap_ok_iff empty
  cases h : vk.uc.memUnmap addr sctx.mapLen with
  | error e =>
    have refused : ¬ vk.uc.Unmappable addr sctx.mapLen := by
      rw [← accepted, h]
      rintro ⟨uc, ⟨⟩⟩
    simp only [refused, or_false]
  | ok uc =>
    have range := accepted.1 ⟨uc, h⟩
    simp only [range, or_true, iff_true]
    exact range.mappable h

/-- The list changes exactly when the range removed meets a region. -/
theorem regions_removeRange_eq_iff (paged : ∀ r ∈ mem.regions, r.Paged) (aligned : Aligned addr) :
    (mem.removeRange addr size).regions = mem.regions ↔ mem.Clear addr size := by
  constructor
  · intro same r hr x hx inside
    have page : pageBase x ∈ r.span := (paged r hr).pageBase_mem_span hx
    have kept : ∃ r ∈ (mem.removeRange addr size).regions, pageBase x ∈ r.span := by
      rw [same]
      exact ⟨r, hr, page⟩
    have gone := VMemory.covered_removeRange.1 kept
    have base := toNat_pageBase x
    have stop := toNat_satAdd addr size
    have last := x.isLt
    unfold InRange at inside
    unfold Aligned at aligned
    refine gone.2 ⟨?_, ?_⟩ <;> bv_omega
  · intro clear
    by_cases hs : size = 0
    · subst hs
      simp
    · refine congrArg VMemory.regions (VMemory.removeRange_eq_self fun r hr meets => ?_)
      obtain ⟨x, hx, inside⟩ := meets.exists_mem (paged r hr).nonempty hs
      exact clear r hr x hx inside

theorem Unicorn.bytes_unmapped (uc : Unicorn) (addr size : U64) :
    (uc.unmapped addr size).bytes = uc.bytes := by
  unfold unmapped
  cases h : uc.memUnmap addr size with
  | error e => rfl
  | ok uc' => exact (memUnmap_effect h).2.1

/-- When the engine rejects the mapping, clearing the range changed the list at most. -/
theorem unmapped_of_not_accepts (fixed : sctx.UseFixed) (rejected : ¬ vk.Accepts sctx addr) :
    vk.uc.unmapped addr sctx.mapLen = vk.uc := by
  unfold Unicorn.unmapped
  cases h : vk.uc.memUnmap addr sctx.mapLen with
  | error e => rfl
  | ok uc =>
    by_cases empty : sctx.mapLen = 0
    · rw [empty, Unicorn.memUnmap_zero] at h
      cases h
      rfl
    · exact absurd (.inr ⟨fixed, .of_memUnmap h empty⟩) rejected

/-- A rejected mapping leaves the memory as it was when there was nothing to clear. -/
theorem unchanged_cleared_iff (paged : ∀ r ∈ vk.mem.regions, r.Paged) (aligned : Aligned addr)
    (rejected : ¬ vk.Accepts sctx addr) : Unchanged vk (vk.cleared sctx addr) ↔
      (sctx.UseFixed → vk.mem.Clear addr sctx.mapLen) := by
  unfold Valkyrie.cleared
  by_cases fixed : sctx.UseFixed
  swap
  · simp only [fixed, if_false, false_imp_iff, iff_true]
    exact .refl vk
  rw [if_pos fixed, Valkyrie.replaced, unmapped_of_not_accepts fixed rejected,
    ← regions_removeRange_eq_iff paged aligned]
  exact ⟨fun h _ => h.regions, fun same => ⟨same fixed, fun _ => rfl, fun _ => rfl⟩⟩

/-! ## Mapping and failing to load -/

/-- Nothing is kept of the very region that is removed. -/
theorem VMemRegion.keep_self (nonempty : r.size ≠ 0) (aligned : Aligned r.start) :
    r.keep r.start (satAdd r.start r.size) = [] := by
  have stop := toNat_satAdd r.start r.size
  have last := r.start.isLt
  unfold Aligned at aligned
  have lt : r.start < satAdd r.start r.size := by bv_omega
  have below : ¬ r.start > r.start := lt_irrefl _
  have behind : ¬ satAdd r.start r.size < r.satEnd := lt_irrefl _
  have overlap : ¬ (satAdd r.start r.size ≤ r.start ∨ r.start ≥ r.satEnd) :=
    not_or.2 ⟨not_le.2 lt, not_le.2 lt⟩
  rw [keep, if_neg overlap, if_neg below, if_neg behind]
  rfl

/-- The range of the last region is removed without touching the regions before it. -/
theorem regions_removeRange_last {init : List VMemRegion} (disjoint : Disjoint (init ++ [r]))
    (paged : ∀ s ∈ init ++ [r], s.Paged) (listed : mem.regions = init ++ [r]) :
    (mem.removeRange r.start r.size).regions = init := by
  have last := paged r (by simp)
  have apart : ∀ s ∈ init, ¬ s.Meets r.start r.size := by
    intro s hs meets
    obtain ⟨x, hx, inside⟩ := meets.exists_mem (paged s (by simp [hs])).nonempty last.nonempty
    exact (List.pairwise_append.1 disjoint).2.2 s hs r (by simp) x hx inside
  have kept : init.flatMap (VMemRegion.keep r.start (satAdd r.start r.size)) =
      init.flatMap fun s => [s] :=
    List.flatMap_congr fun s hs => VMemRegion.keep_eq_self (apart s hs)
  rw [VMemory.removeRange, if_neg last.nonempty]
  simp only [listed, List.flatMap_append, kept, List.flatMap_singleton', List.flatMap_cons,
    List.flatMap_nil, VMemRegion.keep_self last.nonempty last.start, List.append_nil]

/-- A mapping made but not loaded leaves the memory as it was when it remakes the last one. -/
theorem unchanged_mapped_iff (laid : Laid vk.mem.regions vk.uc)
    (ok : (vk.cleared sctx addr).uc.memMap addr sctx.mapLen sctx.mapProt = .ok uc) :
    Unchanged vk ((vk.cleared sctx addr).mapped sctx addr uc) ↔ vk.RemakesLast sctx addr := by
  have range := Unicorn.Mappable.of_memMap ok
  obtain ⟨prots, bytes, -⟩ := Unicorn.memMap_effect ok
  unfold Valkyrie.cleared at ok prots bytes ⊢
  by_cases fixed : sctx.UseFixed
  swap
  · -- the list has grown
    rw [if_neg fixed]
    refine ⟨fun h => ?_, fun h => absurd h.fixed fixed⟩
    have same : vk.mem.regions ++ [sctx.mmapRegion addr] = vk.mem.regions := h.regions
    simp at same
  rw [if_pos fixed] at prots bytes ⊢
  constructor
  · intro h
    have same : (vk.mem.removeRange addr sctx.mapLen).regions ++ [sctx.mmapRegion addr] =
        vk.mem.regions := h.regions
    have kept : ∀ x, uc.protAt x = vk.uc.protAt x := h.prots
    have read : ∀ x, uc.readAt x = vk.uc.readAt x := h.bytes
    have new {x : U64} (inside : x ∈ sctx.mmapRegion addr) : uc.protAt x = some sctx.mapProt :=
      (prots x).trans (if_pos inside)
    refine ⟨fixed, ?_, fun x inside => ?_, fun x inside => ?_⟩
    · rw [← same, List.getLast?_concat]
    · rw [← kept x, new inside]
    · have zero : uc.bytes x = 0 := (bytes x).trans (if_pos inside)
      have byte := read x
      rw [Unicorn.readAt, Unicorn.readAt, ← kept x, new inside, zero] at byte
      exact (Option.some.inj byte).symm
  · rintro ⟨-, last, prot, zero⟩
    obtain ⟨init, listed⟩ := List.getLast?_eq_some_iff.1 last
    have removed := regions_removeRange_last (listed ▸ laid.disjoint) (listed ▸ laid.paged) listed
    have same : (vk.mem.removeRange addr sctx.mapLen).regions ++ [sctx.mmapRegion addr] =
        vk.mem.regions := by
      rw [listed]
      exact congrArg (· ++ [sctx.mmapRegion addr]) removed
    have kept : ∀ x, uc.protAt x = vk.uc.protAt x := by
      intro x
      rw [prots x]
      split_ifs with inside
      · exact (prot x inside).symm
      · exact Unicorn.protAt_unmapped inside
    refine ⟨same, kept, fun x => ?_⟩
    show uc.readAt x = vk.uc.readAt x
    rw [Unicorn.readAt, Unicorn.readAt, kept x, bytes x]
    split_ifs with mapped inside
    · exact congrArg some (zero x inside).symm
    · exact congrArg some (congrFun (Unicorn.bytes_unmapped ..) x)
    · rfl

/-! ## The exact condition -/

theorem VMemory.aligned_mmapAddr (accepted : ¬ sctx.MmapRefused)
    (chosen : mem.mmapAddr sctx = some addr) : Aligned addr := by
  unfold mmapAddr at chosen
  split_ifs at chosen
  · exact (nextMmapAddr_spec chosen).1
  · cases chosen
    by_contra unaligned
    exact accepted (.inr unaligned)

/-- A call that returns an error number leaves the memory as it was when it refuses cleanly. -/
theorem unchanged_sysMmap_iff (laid : Laid vk.mem.regions vk.uc)
    (ends : (sysMmap sctx).Ends vk (.ok v) vk') (refused : IsNegErrno v) :
    Unchanged vk vk' ↔ vk.RefusesCleanly sctx := by
  unfold Valkyrie.RefusesCleanly
  obtain ⟨early, -, rfl⟩ | ⟨accepted, addr, chosen, run⟩ := ends_sysMmap.1 ends
  · exact ⟨fun _ => .inl early, fun _ => .refl vk'⟩
  have aligned := VMemory.aligned_mmapAddr accepted chosen
  simp only [accepted, false_or, chosen, Option.some.injEq, exists_eq_left']
  obtain ⟨rejected, -, rfl⟩ | ⟨uc, ok, run⟩ := ends_mmapAt.1 run
  · rw [mappable_cleared_iff] at rejected
    simp only [rejected, not_false_eq_true, true_and, false_and, or_false]
    exact unchanged_cleared_iff laid.paged aligned rejected
  have range := Unicorn.Mappable.of_memMap ok
  have accepts := mappable_cleared_iff.1 range
  have mapped : uc.Mapped addr sctx.mapLen.toNat := by
    refine ⟨range.bound, fun x inside => ?_⟩
    rw [(Unicorn.memMap_effect ok).1 x, if_pos inside]
    rfl
  simp only [accepts, not_true_eq_false, false_and, true_and, false_or]
  rw [← unchanged_mapped_iff laid ok]
  have delivered : v ≠ addr := by
    rintro rfl
    exact not_isNegErrno_of_aligned aligned refused
  obtain ⟨-, ⟨rfl⟩, -⟩ | ⟨-, -, -, rfl⟩ | ⟨-, vkf, host, -, -, -, rfl⟩ |
    ⟨-, vkf, host, data, uc', -, -, -, ⟨rfl⟩, -⟩ := mmapLoad_cases run range.size_ne mapped
  · exact absurd rfl delivered
  · exact Iff.rfl
  · exact ⟨fun h => ⟨h.regions, h.prots, h.bytes⟩, fun h => ⟨h.regions, h.prots, h.bytes⟩⟩
  · exact absurd rfl delivered

theorem laid_onePage : Laid onePage.mem.regions onePage.uc :=
  .ofRegions (by decide) (by decide) (by decide) (List.pairwise_singleton _ _)

/-- `mmap(0x1000, 0x1000, PROT_READ, MAP_FIXED, 5, 0)` over a read-write page, with no descriptor
5: the call returns `-EBADF` with the page replaced. -/
theorem refused_mmap_replaces : ¬ ∀ (vk vk' : Valkyrie) (sctx : SubCtx) (v : U64),
    Laid vk.mem.regions vk.uc → (sysMmap sctx).Ends vk (.ok v) vk' → IsNegErrno v →
      Unchanged vk vk' := by
  intro clean
  have does : ∃ vk', (sysMmap ⟨0x1000, 0x1000, 1, 0x10, 5, 0⟩).Ends onePage
      (.ok (negErrno EBADF)) vk' ∧
      vk'.mem.regions = [⟨0x1000, 0x1000, ⟨true, false, false⟩, "[mmap]"⟩] := ⟨_, rfl, rfl⟩
  obtain ⟨vk', mmap, regions⟩ := does
  have same := (clean _ _ _ _ laid_onePage mmap (by decide)).regions
  rw [regions] at same
  exact absurd same (by decide)

/-- For every reachable memory map, descriptor table and arguments, a `mmap` or `mmap2` that
returns an error number leaves the memory as it was exactly when it refuses cleanly. -/
theorem unchanged_of_refused_iff (laid : Laid vk.mem.regions vk.uc) :
    (∀ v vk', (sysMmap sctx).Ends vk (.ok v) vk' → IsNegErrno v →
      (Unchanged vk vk' ↔ vk.RefusesCleanly sctx)) ∧
    ∀ v vk', (sysMmap2 sctx).Ends vk (.ok v) vk' → IsNegErrno v →
      (Unchanged vk vk' ↔ vk.RefusesCleanly sctx.mmap2Ctx) :=
  ⟨fun _ _ ends refused => unchanged_sysMmap_iff laid ends refused,
    fun _ _ ends refused => unchanged_sysMmap_iff laid ends refused⟩

/-- The same call with the protection that the page has leaves the memory as it was. -/
theorem unchanged_of_refused_iff_onePage : ∃ vk',
    (sysMmap ⟨0x1000, 0x1000, 3, 0x10, 5, 0⟩).Ends onePage (.ok (negErrno EBADF)) vk' ∧
      Unchanged onePage vk' := by
  have does : ∃ vk', (sysMmap ⟨0x1000, 0x1000, 3, 0x10, 5, 0⟩).Ends onePage
      (.ok (negErrno EBADF)) vk' := ⟨_, rfl⟩
  obtain ⟨vk', mmap⟩ := does
  have region (x : U64) (hx : x ∈ (⟨0x1000, 0x1000, ⟨true, true, false⟩, "[mmap]"⟩ : VMemRegion)) :
      onePage.uc.protAt x = some ⟨true, true, false⟩ :=
    Unicorn.protAt_ofRegions (by decide) (List.pairwise_singleton _ _)
      (List.mem_singleton_self _) hx
  refine ⟨vk', mmap, ((unchanged_of_refused_iff laid_onePage).1 _ _ mmap (by decide)).2 ?_⟩
  refine .inr ⟨0x1000, rfl, .inr ⟨.inr ⟨by decide, ?_⟩, by decide, rfl, region, fun _ _ => rfl⟩⟩
  refine ⟨by decide, by decide, by decide, by decide, fun x hx => ?_⟩
  rw [region x hx]
  rfl

end ValkyrieRs

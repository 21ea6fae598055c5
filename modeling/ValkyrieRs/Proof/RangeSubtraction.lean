import ValkyrieRs.Proof.AddressSearch

/-!
# Taking a range out of the region list

`remove_range` takes the addresses of a range out of a list of whole pages and leaves all others
with their protections and labels.  The exception is a region that ends with the address space:
its saturating end is one address short, so the part kept behind the range loses the last one.
-/

namespace ValkyrieRs

variable {mem : VMemory} {r p : VMemRegion} {addr size x : U64}

/-! ## Subtraction -/

/-- The second list has pieces of the regions of the first, in the order of both. -/
def InOrder (before after : List VMemRegion) : Prop :=
  ∃ pieces : VMemRegion → List VMemRegion, after = before.flatMap pieces ∧
    ∀ r ∈ before, (pieces r).Pairwise (fun p q => p.start < q.start) ∧
      ∀ p ∈ pieces r, ∀ x ∈ p, x ∈ r

/-- The second memory is the first without the addresses of the range. -/
structure Subtracted (mem mem' : VMemory) (addr size : U64) : Prop where
  labelled : ∀ x prot info, (∃ p ∈ mem'.regions, x ∈ p ∧ p.prot = prot ∧ p.info = info) ↔
    (∃ r ∈ mem.regions, x ∈ r ∧ r.prot = prot ∧ r.info = info) ∧ ¬ InRange addr size.toNat x
  accepted : mem'.Accepted
  inOrder : InOrder mem.regions mem'.regions

/-- No region that ends with the address space has a part to keep behind the range and another in
the range. -/
def VMemory.TopKept (mem : VMemory) (addr size : U64) : Prop :=
  size = 0 ∨ addr.toNat + size.toNat = 2 ^ 64 ∨
    ∀ r ∈ mem.regions, r.start.toNat + r.size.toNat = 2 ^ 64 →
      addr.toNat + size.toNat ≤ r.start.toNat

instance : Decidable (mem.TopKept addr size) := inferInstanceAs (Decidable (_ ∨ _ ∨ _))

/-! ## One region -/

namespace VMemRegion

theorem le_satAdd (addr size : U64) : addr ≤ satAdd addr size := by
  have stop := toNat_satAdd addr size
  have small := addr.isLt
  rw [BitVec.le_def]
  omega

/-- The part below a range starts before the part behind it. -/
theorem ordered_keep {stop : U64} (ordered : addr ≤ stop) :
    (r.keep addr stop).Pairwise fun p q => p.start < q.start := by
  unfold keep
  split_ifs with apart lower upper
  · exact List.pairwise_singleton _ _
  · exact .cons (fun q hq => by rw [List.mem_singleton.1 hq]; exact lt_of_lt_of_le lower ordered)
      (List.pairwise_singleton _ _)
  · exact List.pairwise_singleton _ _
  · exact List.pairwise_singleton _ _
  · exact .nil

/-- What is kept of a region made of pages is made of pages, unless it lies behind the range in a
region that ends with the address space. -/
theorem aligned_of_mem_keep (pages : Aligned r.start ∧ Aligned r.size)
    (bound : r.start.toNat + r.size.toNat ≤ 2 ^ 64) (aligned : Aligned addr) (hs : Aligned size)
    (top : r.start.toNat + r.size.toNat = 2 ^ 64 → addr.toNat + size.toNat = 2 ^ 64 ∨
      addr.toNat + size.toNat ≤ r.start.toNat)
    (hp : p ∈ r.keep addr (satAdd addr size)) :
    (Aligned p.start ∧ Aligned p.size) ∧ p.start.toNat + p.size.toNat ≤ 2 ^ 64 := by
  obtain ⟨first, whole⟩ := pages
  have last := toNat_satEnd (r := r)
  have stop := toNat_satAdd addr size
  have small := addr.isLt
  unfold Aligned at first whole aligned hs
  obtain ⟨-, rfl⟩ | ⟨⟨below, behind⟩, ⟨lower, rfl⟩ | ⟨upper, rfl⟩⟩ := mem_keep.1 hp
  · exact ⟨⟨first, whole⟩, bound⟩
  · have width := toNat_satSub addr r.start
    simp only [Aligned]
    omega
  · have width := toNat_satSub r.satEnd (satAdd addr size)
    simp only [Aligned]
    omega

end VMemRegion

/-! ## The list -/

namespace VMemory

open VMemRegion

theorem inOrder_removeRange : InOrder mem.regions (mem.removeRange addr size).regions := by
  unfold removeRange
  split_ifs with hs
  · refine ⟨fun r => [r], (List.flatMap_singleton' _).symm, fun r _ => ?_⟩
    exact ⟨List.pairwise_singleton _ _, fun p hp x hx => List.mem_singleton.1 hp ▸ hx⟩
  · refine ⟨keep addr (satAdd addr size), rfl, fun r _ => ?_⟩
    exact ⟨ordered_keep (le_satAdd addr size), fun p hp x => mem_of_mem_keep hp⟩

variable (accepted : mem.Accepted) (aligned : Aligned addr) (hs : Aligned size)

include accepted aligned hs

theorem accepted_removeRange (kept : mem.TopKept addr size) :
    (mem.removeRange addr size).Accepted := by
  by_cases empty : size = 0
  · rw [removeRange, if_pos empty]
    exact accepted
  have whole {p : VMemRegion} (hp : p ∈ (mem.removeRange addr size).regions) :
      (Aligned p.start ∧ Aligned p.size) ∧ p.start.toNat + p.size.toNat ≤ 2 ^ 64 := by
    obtain ⟨r, hr, hp⟩ := (mem_removeRange empty).1 hp
    refine aligned_of_mem_keep (accepted.aligned r hr) (accepted.bound r hr) aligned hs
      (fun top => ?_) hp
    rcases kept with none_ | reaches | below
    · exact absurd none_ empty
    · exact .inl reaches
    · exact .inr (below r hr top)
  refine ⟨fun p hp => (whole hp).1, fun p hp => ?_, fun p hp => (whole hp).2,
    disjoint_removeRange accepted.disjoint⟩
  obtain ⟨r, hr, -, -, nonempty⟩ := of_mem_removeRange hp
  exact nonempty (accepted.nonempty r hr)

/-- A region that ends with the address space loses the last address when the range takes another
of its addresses. -/
theorem topKept_of_subtracted (bound : addr.toNat + size.toNat ≤ 2 ^ 64)
    (exact_ : Subtracted mem (mem.removeRange addr size) addr size) :
    mem.TopKept addr size := by
  by_contra lost
  simp only [TopKept, not_or, not_forall] at lost
  obtain ⟨empty, short, r, hr, top, overlap⟩ := lost
  have last := toNat_u64Max
  have nonempty := accepted.nonempty r hr
  have held : u64Max ∈ r := by
    rw [mem_iff]
    bv_omega
  have outside : ¬ InRange addr size.toNat u64Max := by
    unfold InRange
    omega
  obtain ⟨p, hp, hx, -⟩ :=
    (exact_.labelled u64Max r.prot r.info).2 ⟨⟨r, hr, held, rfl, rfl⟩, outside⟩
  obtain ⟨s, hs', hp⟩ := (mem_removeRange empty).1 hp
  obtain rfl := accepted.disjoint.eq_of_mem hr hs' held (mem_of_mem_keep hp hx)
  have stop := toNat_satAdd addr size
  have stop' := toNat_satEnd (r := r)
  obtain ⟨apart, rfl⟩ | ⟨-, ⟨lower, rfl⟩ | ⟨upper, rfl⟩⟩ := mem_keep.1 hp
  · have positive : 0 < size.toNat := by bv_omega
    unfold Aligned at aligned
    omega
  · rw [mem_lower lower] at hx
    have small := addr.isLt
    unfold Aligned at aligned
    omega
  · rw [mem_upper upper] at hx
    omega

/-- The list without the range is exactly the list less the addresses of the range when no region
that ends with the address space is cut before its end. -/
theorem removeRange_exact_iff (bound : addr.toNat + size.toNat ≤ 2 ^ 64) :
    Subtracted mem (mem.removeRange addr size) addr size ↔
      mem.TopKept addr size := by
  constructor
  · exact topKept_of_subtracted accepted aligned hs bound
  · intro kept
    refine ⟨fun x prot info => ?_, accepted_removeRange accepted aligned hs kept,
      inOrder_removeRange⟩
    by_cases empty : size = 0
    · rw [removeRange, if_pos empty, empty]
      simp
    refine exists_labelled_removeRange bound (ne_u64Max_of_aligned aligned)
      fun r hr reach meets => ?_
    have top : r.start.toNat + r.size.toNat = 2 ^ 64 := le_antisymm (accepted.bound r hr) reach
    refine ⟨?_, ne_u64Max_of_aligned (accepted.aligned r hr).1⟩
    rcases kept with none_ | reaches | below
    · exact absurd none_ empty
    · exact reaches
    · exact absurd meets.1 (not_lt.2 (below r hr top))

end VMemory

/-! ## A region that ends with the address space -/

/-- The last three accepted. -/
def topPages : VMemory := ⟨[⟨0xffffffffffffd000, 0x3000, .all, "[top]"⟩], 0, 0⟩

theorem accepted_topPages : topPages.Accepted :=
  ⟨by decide, by decide, by decide, List.pairwise_singleton _ _⟩

theorem removeRange_exact_iff_topPages :
    Subtracted topPages (topPages.removeRange 0xffffffffffffe000 0x2000) 0xffffffffffffe000
      0x2000 ↔ topPages.TopKept 0xffffffffffffe000 0x2000 :=
  VMemory.removeRange_exact_iff accepted_topPages (by decide) (by decide) (by decide)

/-- Taking the first of the last three pages out leaves one byte less than two pages. -/
theorem last_address_lost : topPages.Accepted ∧
    (topPages.removeRange 0xffffffffffffd000 0x1000).regions =
      [⟨0xffffffffffffe000, 0x1fff, .all, "[top]"⟩] ∧
    ¬ Subtracted topPages (topPages.removeRange 0xffffffffffffd000 0x1000) 0xffffffffffffd000
      0x1000 := by
  refine ⟨accepted_topPages, by decide, fun exact_ => ?_⟩
  have held : ∃ r ∈ topPages.regions, u64Max ∈ r ∧ r.prot = .all ∧ r.info = "[top]" := by decide
  have kept := (exact_.labelled u64Max .all "[top]").2 ⟨held, by decide⟩
  revert kept
  decide

end ValkyrieRs

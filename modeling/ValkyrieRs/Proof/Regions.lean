import ValkyrieRs.Lib.Segment
import ValkyrieRs.Memory

/-!
# Regions as sets of addresses

What `remove_range` leaves of a region and of a list, address by address.  The ends saturate at
`u64::MAX`, so the last address of the address space needs care: the part kept behind a removed
range loses it.
-/

namespace ValkyrieRs

namespace VMemRegion

variable {r p : VMemRegion} {addr stop size x : U64}

theorem mem_iff : x ∈ r ↔
    r.start.toNat ≤ x.toNat ∧ x.toNat < r.start.toNat + r.size.toNat := Iff.rfl

@[simp] theorem toNat_satEnd :
    r.satEnd.toNat = min (r.start.toNat + r.size.toNat) (2 ^ 64 - 1) := toNat_satAdd ..

/-- The three shapes of what is kept: the whole region, its part below and its part behind. -/
theorem mem_keep : p ∈ r.keep addr stop ↔
    (stop.toNat ≤ r.start.toNat ∨ r.satEnd.toNat ≤ addr.toNat) ∧ p = r ∨
    (r.start.toNat < stop.toNat ∧ addr.toNat < r.satEnd.toNat) ∧
      (r.start.toNat < addr.toNat ∧ p = { r with size := satSub addr r.start } ∨
        stop.toNat < r.satEnd.toNat ∧
          p = { r with start := stop, size := satSub r.satEnd stop }) := by
  simp only [keep, BitVec.le_def, BitVec.lt_def, ge_iff_le, gt_iff_lt]
  split_ifs <;> simp only [List.mem_singleton, List.mem_append, List.not_mem_nil, or_false,
    false_or] <;> grind

theorem prot_of_mem_keep (h : p ∈ r.keep addr stop) : p.prot = r.prot := by
  obtain ⟨-, rfl⟩ | ⟨-, ⟨-, rfl⟩ | ⟨-, rfl⟩⟩ := mem_keep.1 h <;> rfl

theorem info_of_mem_keep (h : p ∈ r.keep addr stop) : p.info = r.info := by
  obtain ⟨-, rfl⟩ | ⟨-, ⟨-, rfl⟩ | ⟨-, rfl⟩⟩ := mem_keep.1 h <;> rfl

/-- The part below a range reaches up to it. -/
theorem mem_lower (h : r.start.toNat < addr.toNat) :
    x ∈ ({ r with size := satSub addr r.start } : VMemRegion) ↔
      r.start.toNat ≤ x.toNat ∧ x.toNat < addr.toNat := by
  simp only [mem_iff, toNat_satSub]
  omega

/-- The part behind a range starts at its end. -/
theorem mem_upper (h : stop.toNat < r.satEnd.toNat) :
    x ∈ ({ r with start := stop, size := satSub r.satEnd stop } : VMemRegion) ↔
      stop.toNat ≤ x.toNat ∧ x.toNat < r.satEnd.toNat := by
  simp only [mem_iff, toNat_satSub]
  omega

/-- What is kept lies inside the region. -/
theorem mem_of_mem_keep (h : p ∈ r.keep addr stop) (hx : x ∈ p) : x ∈ r := by
  obtain ⟨-, rfl⟩ | ⟨⟨below, behind⟩, ⟨lower, rfl⟩ | ⟨upper, rfl⟩⟩ := mem_keep.1 h
  · exact hx
  · rw [mem_lower lower] at hx
    rw [toNat_satEnd] at behind
    rw [mem_iff]
    omega
  · rw [mem_upper upper, toNat_satEnd] at hx
    rw [mem_iff]
    omega

theorem size_ne_of_mem_keep (h : p ∈ r.keep addr stop) (hr : r.size ≠ 0) : p.size ≠ 0 := by
  obtain ⟨-, rfl⟩ | ⟨-, ⟨lower, rfl⟩ | ⟨upper, rfl⟩⟩ := mem_keep.1 h
  · exact hr
  · have := toNat_satSub addr r.start
    simp only
    bv_omega
  · have := toNat_satSub r.satEnd stop
    simp only
    bv_omega

/-- The parts below and behind a range have no common address. -/
theorem pairwise_keep (h : addr ≤ stop) :
    (r.keep addr stop).Pairwise fun p q => ∀ x, x ∈ p → x ∉ q := by
  unfold keep
  split_ifs <;> simp only [List.nil_append, List.append_nil, List.cons_append, List.pairwise_cons,
    List.Pairwise.nil, List.mem_singleton, List.not_mem_nil, false_imp_iff, implies_true,
    and_true, forall_eq]
  intro x hx hx'
  rw [mem_iff] at hx hx'
  simp only [toNat_satSub] at hx hx'
  bv_omega

/-- A non-empty region and a non-empty range have a common address. -/
def Meets (addr size : U64) (r : VMemRegion) : Prop :=
  r.start.toNat < addr.toNat + size.toNat ∧ addr.toNat < r.start.toNat + r.size.toNat

instance (addr size : U64) (r : VMemRegion) : Decidable (r.Meets addr size) :=
  inferInstanceAs (Decidable (_ ∧ _))

theorem Meets.of_mem (hx : x ∈ r) (inside : InRange addr size.toNat x) : r.Meets addr size := by
  rw [mem_iff] at hx
  unfold InRange at inside
  unfold Meets
  omega

/-- Nothing of the region is lost to rounding when the range is taken out: the region ends below
`2^64`, or it misses the range, or the range too ends at `2^64`. -/
def TopSafe (addr size : U64) (r : VMemRegion) : Prop :=
  2 ^ 64 ≤ r.start.toNat + r.size.toNat → r.Meets addr size →
    addr.toNat + size.toNat = 2 ^ 64 ∧ r.start ≠ u64Max

/-- An address is kept exactly when it was there outside the range. -/
theorem exists_mem_keep (bound : addr.toNat + size.toNat ≤ 2 ^ 64) (hs : size ≠ 0)
    (ha : addr ≠ u64Max) (top : r.TopSafe addr size) :
    (∃ p ∈ r.keep addr (satAdd addr size), x ∈ p) ↔ x ∈ r ∧ ¬ InRange addr size.toNat x := by
  have hm := toNat_u64Max
  have hs : 0 < size.toNat := by bv_omega
  have ha : addr.toNat < 2 ^ 64 - 1 := by bv_omega
  have stop := toNat_satAdd addr size
  have last := toNat_satEnd (r := r)
  have top (meets : r.Meets addr size) (reach : 2 ^ 64 ≤ r.start.toNat + r.size.toNat) :
      addr.toNat + size.toNat = 2 ^ 64 ∧ r.start.toNat < 2 ^ 64 - 1 := by
    obtain ⟨h, h'⟩ := top reach meets
    exact ⟨h, by bv_omega⟩
  have hx' := x.isLt
  generalize satAdd addr size = e at stop
  constructor
  · rintro ⟨p, hp, hx⟩
    have hxr := mem_of_mem_keep hp hx
    refine ⟨hxr, fun inside => ?_⟩
    have top := top (.of_mem hxr inside)
    unfold InRange at inside
    obtain ⟨apart, rfl⟩ | ⟨-, ⟨lower, rfl⟩ | ⟨upper, rfl⟩⟩ := mem_keep.1 hp
    · rw [mem_iff] at hx
      omega
    · rw [mem_lower lower] at hx
      omega
    · rw [mem_upper upper] at hx
      omega
  · rintro ⟨hx, out⟩
    by_cases apart : e.toNat ≤ r.start.toNat ∨ r.satEnd.toNat ≤ addr.toNat
    · exact ⟨r, mem_keep.2 (.inl ⟨apart, rfl⟩), hx⟩
    have overlap : r.start.toNat < e.toNat ∧ addr.toNat < r.satEnd.toNat := by omega
    have top := top (by unfold Meets; omega)
    rw [mem_iff] at hx
    unfold InRange at out
    rcases Nat.lt_or_ge x.toNat addr.toNat with below | behind
    · have lower : r.start.toNat < addr.toNat := by omega
      refine ⟨_, mem_keep.2 (.inr ⟨overlap, .inl ⟨lower, rfl⟩⟩), ?_⟩
      exact (mem_lower lower).2 ⟨hx.1, below⟩
    · have upper : e.toNat < r.satEnd.toNat := by omega
      refine ⟨_, mem_keep.2 (.inr ⟨overlap, .inr ⟨upper, rfl⟩⟩), ?_⟩
      exact (mem_upper upper).2 (by omega)

/-- A region that misses the range is kept as it is. -/
theorem keep_eq_self (h : ¬ r.Meets addr size) : r.keep addr (satAdd addr size) = [r] := by
  have stop := toNat_satAdd addr size
  have last := toNat_satEnd (r := r)
  unfold Meets at h
  rw [keep, if_pos]
  simp only [BitVec.le_def, ge_iff_le]
  omega

end VMemRegion

/-! ## Lists of regions -/

/-- No two regions have a common address. -/
def Disjoint (l : List VMemRegion) : Prop := l.Pairwise fun r s => ∀ x, x ∈ r → x ∉ s

/-- An address lies in one region of a disjoint list. -/
theorem Disjoint.eq_of_mem {l : List VMemRegion} {r s : VMemRegion} {x : U64} (h : Disjoint l)
    (hr : r ∈ l) (hs : s ∈ l) (hx : x ∈ r) (hx' : x ∈ s) : r = s := by
  by_contra ne
  have symm : Std.Symm fun r s : VMemRegion => ∀ x, x ∈ r → x ∉ s :=
    ⟨fun _ _ apart x hs hr => apart x hr hs⟩
  exact h.forall hr hs ne x hx hx'

/-- The function changes only the labels of regions. -/
def Relabels (f : VMemRegion → VMemRegion) : Prop :=
  ∀ r, (f r).start = r.start ∧ (f r).size = r.size

theorem Relabels.mem_iff {f : VMemRegion → VMemRegion} (h : Relabels f) {r : VMemRegion}
    {x : U64} : x ∈ f r ↔ x ∈ r := by
  rw [VMemRegion.mem_iff, VMemRegion.mem_iff, (h r).1, (h r).2]

theorem Disjoint.relabel {f : VMemRegion → VMemRegion} {l : List VMemRegion} (h : Disjoint l)
    (labels : Relabels f) : Disjoint (l.map f) := by
  refine List.pairwise_map.2 (h.imp ?_)
  intro r s apart x hr hs
  exact apart x (labels.mem_iff.1 hr) (labels.mem_iff.1 hs)

namespace VMemory

open VMemRegion

variable {mem : VMemory} {r : VMemRegion} {addr size x : U64} {prot : Prot} {info : String}

/-- An address keeps its region's protection and label exactly when it is outside the range. -/
theorem exists_labelled_removeRange (bound : addr.toNat + size.toNat ≤ 2 ^ 64) (ha : addr ≠ u64Max)
    (top : ∀ r ∈ mem.regions, r.TopSafe addr size) :
    (∃ p ∈ (mem.removeRange addr size).regions, x ∈ p ∧ p.prot = prot ∧ p.info = info) ↔
      (∃ r ∈ mem.regions, x ∈ r ∧ r.prot = prot ∧ r.info = info) ∧ ¬ InRange addr size.toNat x := by
  by_cases hs : size = 0
  · subst hs
    simp
  simp only [mem_removeRange hs]
  constructor
  · rintro ⟨p, ⟨r, hr, hp⟩, hx, rfl, rfl⟩
    obtain ⟨hxr, out⟩ := (exists_mem_keep bound hs ha (top r hr)).1 ⟨p, hp, hx⟩
    exact ⟨⟨r, hr, hxr, (prot_of_mem_keep hp).symm, (info_of_mem_keep hp).symm⟩, out⟩
  · rintro ⟨⟨r, hr, hx, rfl, rfl⟩, out⟩
    obtain ⟨p, hp, hxp⟩ := (exists_mem_keep bound hs ha (top r hr)).2 ⟨hx, out⟩
    exact ⟨p, ⟨r, hr, hp⟩, hxp, prot_of_mem_keep hp, info_of_mem_keep hp⟩

theorem exists_mem_removeRange (bound : addr.toNat + size.toNat ≤ 2 ^ 64) (ha : addr ≠ u64Max)
    (top : ∀ r ∈ mem.regions, r.TopSafe addr size) :
    (∃ p ∈ (mem.removeRange addr size).regions, x ∈ p) ↔
      (∃ r ∈ mem.regions, x ∈ r) ∧ ¬ InRange addr size.toNat x := by
  constructor
  · rintro ⟨p, hp, hx⟩
    obtain ⟨⟨r, hr, hxr, -⟩, out⟩ :=
      (exists_labelled_removeRange bound ha top).1 ⟨p, hp, hx, rfl, rfl⟩
    exact ⟨⟨r, hr, hxr⟩, out⟩
  · rintro ⟨⟨r, hr, hx⟩, out⟩
    obtain ⟨p, hp, hxp, -⟩ :=
      (exists_labelled_removeRange bound ha top).2 ⟨⟨r, hr, hx, rfl, rfl⟩, out⟩
    exact ⟨p, hp, hxp⟩

/-- What is left lies in a region of the list, with its protection. -/
theorem of_mem_removeRange {p : VMemRegion} (hp : p ∈ (mem.removeRange addr size).regions) :
    ∃ r ∈ mem.regions, (∀ x, x ∈ p → x ∈ r) ∧ p.prot = r.prot ∧ (r.size ≠ 0 → p.size ≠ 0) := by
  by_cases hs : size = 0
  · subst hs
    simp only [BitVec.ofNat_eq_ofNat, removeRange_zero] at hp
    exact ⟨p, hp, fun _ => id, rfl, id⟩
  · obtain ⟨r, hr, hp⟩ := (mem_removeRange hs).1 hp
    exact ⟨r, hr, fun _ => mem_of_mem_keep hp, prot_of_mem_keep hp, size_ne_of_mem_keep hp⟩

theorem disjoint_removeRange (h : Disjoint mem.regions) :
    Disjoint (mem.removeRange addr size).regions := by
  unfold removeRange
  split_ifs with hs
  · exact h
  have ordered : addr ≤ satAdd addr size := by
    have := toNat_satAdd addr size
    rw [BitVec.le_def]
    omega
  refine List.pairwise_flatMap.2 ⟨fun r _ => pairwise_keep ordered, ?_⟩
  exact h.imp fun apart p hp q hq x hx hx' =>
    apart x (mem_of_mem_keep hp hx) (mem_of_mem_keep hq hx')

theorem removeRange_eq_self (h : ∀ r ∈ mem.regions, ¬ r.Meets addr size) :
    mem.removeRange addr size = mem := by
  unfold removeRange
  split_ifs with hs
  · rfl
  have kept : mem.regions.flatMap (keep addr (satAdd addr size)) = mem.regions.flatMap fun r => [r] :=
    List.flatMap_congr fun r hr => keep_eq_self (h r hr)
  rw [kept, List.flatMap_singleton']

end VMemory

end ValkyrieRs

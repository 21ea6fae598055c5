import ValkyrieRs.Proof.Mirror

/-!
# Recorded and effective protections

`mprotect` changes the protection of a range of pages, but the list keeps one protection for a
whole region.  An accepted call records the new protection for every region that it touches, so
the list stays exact when each touched region lies inside the range or had that protection already.
Runs of calls that meet this condition, and that edit both copies alike, keep the two in agreement
on every protection.
-/

namespace ValkyrieRs

open Proc

variable {vk vk' vk₀ : Valkyrie} {mem : VMemory} {uc uc' : Unicorn} {addr size x : U64}
  {prot : Prot} {regions regions' : List VMemRegion} {r : VMemRegion} {sctx : SubCtx}

/-- The protection recorded for the region that contains an address. -/
def recordedProt (regions : List VMemRegion) (x : U64) : Option Prot :=
  (regions.find? fun r => x ∈ r).map (·.prot)

/-- The two copies of the map agree, on the protections too. -/
structure Agrees (regions : List VMemRegion) (uc : Unicorn) : Prop extends
    Mirrors regions uc where
  bound : ∀ r ∈ regions, r.start.toNat + r.size.toNat ≤ 2 ^ 64
  prot : ∀ r ∈ regions, ∀ x ∈ r, uc.protAt x = some r.prot

theorem recordedProt_of_mem (disjoint : Disjoint regions) (hr : r ∈ regions) (hx : x ∈ r) :
    recordedProt regions x = some r.prot := by
  have found : (regions.find? fun s => x ∈ s).isSome := by
    rw [List.find?_isSome]
    exact ⟨r, hr, decide_eq_true hx⟩
  obtain ⟨s, found⟩ := Option.isSome_iff_exists.1 found
  have hs := List.mem_of_find?_eq_some found
  have hx' := List.find?_some found
  rw [recordedProt, found, disjoint.eq_of_mem hr hs hx (of_decide_eq_true hx')]
  rfl

theorem recordedProt_eq_none : recordedProt regions x = none ↔ ∀ r ∈ regions, x ∉ r := by
  simp [recordedProt]

/-- The recorded protection is the effective one. -/
theorem Agrees.recordedProt_eq (h : Agrees regions uc) (x : U64) :
    recordedProt regions x = uc.protAt x := by
  cases effective : uc.protAt x with
  | none =>
    refine recordedProt_eq_none.2 fun r hr hx => ?_
    rw [h.prot r hr x hx] at effective
    cases effective
  | some p =>
    have mapped : (uc.protAt x).isSome := by
      rw [effective]
      rfl
    obtain ⟨r, hr, hx⟩ := (h.exact x).2 mapped
    rw [recordedProt_of_mem h.disjoint hr hx, ← effective, h.prot r hr x hx]

/-- The `WRITE` test of a capture selects exactly the pages that are writable in the engine. -/
theorem Agrees.writable_iff (h : Agrees regions uc) (x : U64) :
    (∃ r ∈ regions.filter (·.prot.write), x ∈ r) ↔ ∃ p, uc.protAt x = some p ∧ p.write := by
  constructor
  · rintro ⟨r, hr, hx⟩
    obtain ⟨hr, write⟩ := List.mem_filter.1 hr
    exact ⟨r.prot, h.prot r hr x hx, write⟩
  · rintro ⟨p, effective, write⟩
    have mapped : (uc.protAt x).isSome := by
      rw [effective]
      rfl
    obtain ⟨r, hr, hx⟩ := (h.exact x).2 mapped
    have same := h.prot r hr x hx
    rw [effective, Option.some.injEq] at same
    exact ⟨r, List.mem_filter.2 ⟨hr, same ▸ write⟩, hx⟩

/-! ## Edits that keep the agreement -/

theorem Agrees.map {info : String} (h : Agrees mem.regions uc)
    (ok : uc.memMap addr size prot = .ok uc') :
    Agrees (mem.addRegion ⟨addr, size, prot, info⟩).regions uc' := by
  have range := Unicorn.Mappable.of_memMap ok
  obtain ⟨prots, -, -⟩ := Unicorn.memMap_effect ok
  refine ⟨h.toMirrors.map ok, ?_, ?_⟩
  · intro r hr
    rcases List.mem_append.1 hr with hr | hr
    · exact h.bound r hr
    · rw [List.mem_singleton.1 hr]
      exact range.bound
  · intro r hr x hx
    rw [prots x]
    rcases List.mem_append.1 hr with hr | hr
    · have old := h.prot r hr x hx
      rw [if_neg, old]
      intro inside
      rw [range.free x inside] at old
      cases old
    · rw [List.mem_singleton.1 hr] at hx ⊢
      exact if_pos hx

/-- Parts of the regions over pages that were unmapped or left alone. -/
theorem Agrees.part (h : Agrees regions uc) (mirrors : Mirrors regions' uc')
    (part : ∀ p ∈ regions', ∃ r ∈ regions, (∀ x, x ∈ p → x ∈ r) ∧ p.prot = r.prot)
    (bound : ∀ p ∈ regions', p.start.toNat + p.size.toNat ≤ 2 ^ 64)
    (prots : ∀ x, uc'.protAt x = none ∨ uc'.protAt x = uc.protAt x) : Agrees regions' uc' := by
  refine ⟨mirrors, bound, fun p hp x hx => ?_⟩
  obtain ⟨r, hr, sub, same⟩ := part p hp
  have listed := (mirrors.exact x).1 ⟨p, hp, hx⟩
  obtain gone | kept := prots x
  · rw [gone] at listed
    cases listed
  · rw [kept, h.prot r hr x (sub x hx), same]

theorem VMemRegion.bound_of_mem_keep {p : VMemRegion} {stop : U64}
    (h : r.start.toNat + r.size.toNat ≤ 2 ^ 64) (hp : p ∈ r.keep addr stop) :
    p.start.toNat + p.size.toNat ≤ 2 ^ 64 := by
  obtain ⟨-, rfl⟩ | ⟨-, ⟨lower, rfl⟩ | ⟨upper, rfl⟩⟩ := mem_keep.1 hp
  · exact h
  · have size := toNat_satSub addr r.start
    have last := addr.isLt
    simp only
    omega
  · have size := toNat_satSub r.satEnd stop
    have last := r.satEnd.isLt
    simp only
    omega

/-- A range removed from both copies. -/
theorem Agrees.remove (h : Agrees mem.regions uc)
    (mirrors : Mirrors (mem.removeRange addr size).regions uc')
    (prots : ∀ x, uc'.protAt x = none ∨ uc'.protAt x = uc.protAt x) :
    Agrees (mem.removeRange addr size).regions uc' := by
  refine h.part mirrors (fun p hp => ?_) (fun p hp => ?_) prots
  · obtain ⟨r, hr, sub, same, -⟩ := VMemory.of_mem_removeRange hp
    exact ⟨r, hr, sub, same⟩
  · by_cases hs : size = 0
    · subst hs
      simp only [BitVec.ofNat_eq_ofNat, VMemory.removeRange_zero] at hp
      exact h.bound p hp
    · obtain ⟨r, hr, hp⟩ := (VMemory.mem_removeRange hs).1 hp
      exact VMemRegion.bound_of_mem_keep (h.bound r hr) hp

theorem Unicorn.protAt_memUnmap (ok : uc.memUnmap addr size = .ok uc') (x : U64) :
    uc'.protAt x = none ∨ uc'.protAt x = uc.protAt x := by
  rw [(memUnmap_effect ok).1 x]
  split_ifs
  · exact .inl rfl
  · exact .inr rfl

theorem Unicorn.protAt_unmapped_cases (uc : Unicorn) (addr size x : U64) :
    (uc.unmapped addr size).protAt x = none ∨
      (uc.unmapped addr size).protAt x = uc.protAt x := by
  unfold unmapped
  cases h : uc.memUnmap addr size with
  | error e => exact .inr rfl
  | ok uc' => exact protAt_memUnmap h x

/-! ## `mprotect` -/

/-- The page of the address holds an address of the requested range. -/
def SubCtx.InPages (sctx : SubCtx) (x : U64) : Prop :=
  sctx.arg0.toNat / 4096 ≤ x.toNat / 4096 ∧
    x.toNat / 4096 * 4096 < sctx.arg0.toNat + sctx.arg1.toNat

instance (sctx : SubCtx) (x : U64) : Decidable (sctx.InPages x) :=
  inferInstanceAs (Decidable (_ ∧ _))

/-- The rounded end of the range is an address. -/
def SubCtx.EndsBelowTop (sctx : SubCtx) : Prop :=
  sctx.arg0.toNat + sctx.arg1.toNat ≤ 2 ^ 64 - 4096

instance (sctx : SubCtx) : Decidable sctx.EndsBelowTop :=
  inferInstanceAs (Decidable (_ ≤ _))

/-- Each region that the range touches has the new protection already, or lies inside a range that
ends below the last page. -/
def Valkyrie.MarksExactly (vk : Valkyrie) (sctx : SubCtx) : Prop :=
  ∀ r ∈ vk.mem.regions, (∃ x ∈ r, sctx.InPages x) →
    r.prot = sctx.mapProt ∨ (∀ x ∈ r, sctx.InPages x) ∧ sctx.EndsBelowTop

theorem SubCtx.toNat_protStart : sctx.protStart.toNat = sctx.arg0.toNat / 4096 * 4096 :=
  toNat_alignDown _

theorem SubCtx.toNat_protStop (top : sctx.EndsBelowTop) :
    sctx.protStop.toNat = (sctx.arg0.toNat + sctx.arg1.toNat + 4095) / 4096 * 4096 := by
  have sum := toNat_satAdd sctx.arg0 sctx.arg1
  unfold EndsBelowTop at top
  rw [protStop, toNat_alignUp]
  omega

/-- In the last page the rounded end wraps to zero. -/
theorem SubCtx.protStop_eq_zero (top : ¬ sctx.EndsBelowTop) : sctx.protStop = 0 := by
  have sum := toNat_satAdd sctx.arg0 sctx.arg1
  unfold EndsBelowTop at top
  have zero : sctx.protStop.toNat = 0 := by
    rw [protStop, toNat_alignUp]
    omega
  exact BitVec.eq_of_toNat_eq zero

theorem SubCtx.protSize_eq_zero (top : ¬ sctx.EndsBelowTop) : sctx.protSize = 0 := by
  rw [protSize, protStop_eq_zero top]
  exact BitVec.eq_of_toNat_eq (by simp)

theorem SubCtx.inRange_iff (top : sctx.EndsBelowTop) :
    InRange sctx.protStart sctx.protSize.toNat x ↔ sctx.InPages x := by
  have start := sctx.toNat_protStart
  have stop := toNat_protStop top
  have size := toNat_satSub sctx.protStop sctx.protStart
  unfold InRange InPages
  rw [protSize]
  omega

/-- The test of the loop: the region is touched, and neither its end nor that of the range
wraps. -/
theorem VMemRegion.marked_iff (nonzero : sctx.arg1 ≠ 0) (nonempty : r.size ≠ 0)
    (bound : r.start.toNat + r.size.toNat ≤ 2 ^ 64) :
    (sctx.protStart < r.start + r.size ∧ sctx.protStop > r.start) ↔
      (∃ x ∈ r, sctx.InPages x) ∧ sctx.EndsBelowTop ∧
        r.start.toNat + r.size.toNat < 2 ^ 64 := by
  have start := sctx.toNat_protStart
  have nonzero : 0 < sctx.arg1.toNat := by bv_omega
  have nonempty : 0 < r.size.toNat := by bv_omega
  have stop := BitVec.toNat_add r.start r.size
  simp only [gt_iff_lt, BitVec.lt_def, stop]
  by_cases top : sctx.EndsBelowTop
  swap
  · rw [SubCtx.protStop_eq_zero top]
    simp [top]
  have last := SubCtx.toNat_protStop top
  simp only [top, true_and]
  constructor
  · rintro ⟨below, behind⟩
    have fits : r.start.toNat + r.size.toNat < 2 ^ 64 := by omega
    rw [Nat.mod_eq_of_lt fits] at below
    refine ⟨?_, fits⟩
    rcases Nat.le_total sctx.protStart.toNat r.start.toNat with le | le
    · refine ⟨r.start, mem_iff.2 (by omega), ?_⟩
      unfold SubCtx.InPages
      omega
    · refine ⟨sctx.protStart, mem_iff.2 (by omega), ?_⟩
      unfold SubCtx.InPages
      omega
  · rintro ⟨⟨x, hx, inside⟩, fits⟩
    rw [mem_iff] at hx
    unfold SubCtx.InPages at inside
    rw [Nat.mod_eq_of_lt fits]
    omega

/-- What the loop records for the region of an address. -/
theorem recordedProt_protectRegions {start stop : U64} (disjoint : Disjoint mem.regions)
    (hr : r ∈ mem.regions) (hx : x ∈ r) :
    recordedProt (mem.protectRegions start stop prot).regions x =
      some (if start < r.start + r.size ∧ stop > r.start then prot else r.prot) := by
  have labels := relabels_protect start stop prot
  have relabelled := recordedProt_of_mem (disjoint.relabel labels) (List.mem_map_of_mem hr)
    (labels.mem_iff.2 hx)
  refine relabelled.trans (congrArg some ?_)
  split_ifs <;> rfl

/-- The new protection is recorded for the rounded range and no other record changes. -/
def Exact (sctx : SubCtx) (regions regions' : List VMemRegion) : Prop :=
  ∀ x, recordedProt regions' x =
    if sctx.InPages x then (recordedProt regions x).map fun _ => sctx.mapProt
    else recordedProt regions x

/-- The records are exact when they are exact within each region. -/
theorem exact_protectRegions_iff {start stop : U64} (disjoint : Disjoint mem.regions) :
    Exact sctx mem.regions (mem.protectRegions start stop sctx.mapProt).regions ↔
      ∀ r ∈ mem.regions, ∀ x ∈ r,
        (if start < r.start + r.size ∧ stop > r.start then sctx.mapProt else r.prot) =
          if sctx.InPages x then sctx.mapProt else r.prot := by
  constructor
  · intro exact r hr x hx
    have value := exact x
    rw [recordedProt_protectRegions disjoint hr hx, recordedProt_of_mem disjoint hr hx,
      Option.map_some, ← apply_ite some] at value
    exact Option.some.inj value
  · intro each x
    cases found : recordedProt mem.regions x with
    | none =>
      have missed := recordedProt_eq_none.1 found
      rw [Option.map_none, ite_self, recordedProt_eq_none]
      intro r hr hx
      obtain ⟨s, hs, rfl⟩ := List.mem_map.1 hr
      exact missed s hs ((relabels_protect start stop sctx.mapProt).mem_iff.1 hx)
    | some p =>
      have listed : ∃ r ∈ mem.regions, x ∈ r := by
        by_contra missed
        rw [recordedProt_eq_none.2 (by simpa using missed)] at found
        cases found
      obtain ⟨r, hr, hx⟩ := listed
      rw [← found, recordedProt_protectRegions disjoint hr hx, recordedProt_of_mem disjoint hr hx,
        Option.map_some, ← apply_ite some, each r hr x hx]

/-- Within one region, the record is exact for every address exactly when the region meets the
condition. -/
theorem VMemRegion.marked_exactly_iff (nonzero : sctx.arg1 ≠ 0) (nonempty : r.size ≠ 0)
    (bound : r.start.toNat + r.size.toNat ≤ 2 ^ 64) :
    (∀ x ∈ r, (if sctx.protStart < r.start + r.size ∧ sctx.protStop > r.start then sctx.mapProt
        else r.prot) = if sctx.InPages x then sctx.mapProt else r.prot) ↔
      ((∃ x ∈ r, sctx.InPages x) →
        r.prot = sctx.mapProt ∨ (∀ x ∈ r, sctx.InPages x) ∧ sctx.EndsBelowTop) := by
  have marked := marked_iff nonzero nonempty bound
  by_cases same : r.prot = sctx.mapProt
  · simp [same]
  constructor
  · rintro each ⟨x, hx, inside⟩
    have value := each x hx
    rw [if_pos inside] at value
    have taken : sctx.protStart < r.start + r.size ∧ sctx.protStop > r.start := by
      by_contra skipped
      rw [if_neg skipped] at value
      exact same value
    refine .inr ⟨fun y hy => ?_, (marked.1 taken).2.1⟩
    by_contra out
    have value := each y hy
    rw [if_pos taken, if_neg out] at value
    exact same value.symm
  · intro cond x hx
    by_cases inside : sctx.InPages x
    · obtain whole | ⟨whole, top⟩ := cond ⟨x, hx, inside⟩
      · exact absurd whole same
      have fits : r.start.toNat + r.size.toNat < 2 ^ 64 := by
        have nonempty : 0 < r.size.toNat := by bv_omega
        have last : BitVec.ofNat 64 (r.start.toNat + r.size.toNat - 1) ∈ r := by
          rw [mem_iff, BitVec.toNat_ofNat, Nat.mod_eq_of_lt (by omega)]
          omega
        have inside := (whole _ last).2
        unfold SubCtx.EndsBelowTop at top
        rw [BitVec.toNat_ofNat, Nat.mod_eq_of_lt (by omega)] at inside
        omega
      rw [if_pos (marked.2 ⟨⟨x, hx, inside⟩, top, fits⟩), if_pos inside]
    · have skipped : ¬ (sctx.protStart < r.start + r.size ∧ sctx.protStop > r.start) := by
        intro taken
        obtain whole | ⟨whole, -⟩ := cond (marked.1 taken).1
        · exact same whole
        · exact inside (whole x hx)
      rw [if_neg skipped, if_neg inside]

theorem exact_iff_marksExactly (agrees : Agrees vk.mem.regions vk.uc) (nonzero : sctx.arg1 ≠ 0) :
    Exact sctx vk.mem.regions
        (vk.mem.protectRegions sctx.protStart sctx.protStop sctx.mapProt).regions ↔
      vk.MarksExactly sctx := by
  rw [exact_protectRegions_iff agrees.disjoint]
  refine forall₂_congr fun r hr => ?_
  exact VMemRegion.marked_exactly_iff nonzero (agrees.nonempty r hr) (agrees.bound r hr)

/-- An accepted call with exact records keeps the agreement. -/
theorem Agrees.protect (h : Agrees vk.mem.regions vk.uc) (nonzero : sctx.arg1 ≠ 0)
    (ok : vk.uc.memProtect sctx.protStart sctx.protSize sctx.mapProt = .ok uc')
    (exact : vk.MarksExactly sctx) :
    Agrees (vk.mem.protectRegions sctx.protStart sctx.protStop sctx.mapProt).regions uc' := by
  have labels := relabels_protect sctx.protStart sctx.protStop sctx.mapProt
  obtain ⟨prots, -, -⟩ := Unicorn.memProtect_effect ok
  refine ⟨h.toMirrors.protect ok, ?_, ?_⟩
  · intro p hp
    obtain ⟨r, hr, rfl⟩ := List.mem_map.1 hp
    rw [(labels r).1, (labels r).2]
    exact h.bound r hr
  · intro p hp x hx
    obtain ⟨r, hr, rfl⟩ := List.mem_map.1 hp
    have hx := labels.mem_iff.1 hx
    have value := (exact_protectRegions_iff h.disjoint).1 ((exact_iff_marksExactly h nonzero).2 exact)
      r hr x hx
    have label : (if sctx.protStart < r.start + r.size ∧ sctx.protStop > r.start then
        { r with prot := sctx.mapProt } else r).prot =
        if sctx.protStart < r.start + r.size ∧ sctx.protStop > r.start then sctx.mapProt
        else r.prot := by
      split_ifs <;> rfl
    rw [label, value, prots x]
    by_cases top : sctx.EndsBelowTop
    · simp only [SubCtx.inRange_iff top, h.prot r hr x hx, ← apply_ite some]
    · -- the range wraps and nothing happens: a touched region had the protection already
      rw [SubCtx.protSize_eq_zero top, if_neg (by simp), h.prot r hr x hx]
      split_ifs with inside
      · exact congrArg some ((exact r hr ⟨x, hx, inside⟩).resolve_right fun h => top h.2)
      · rfl

/-! ## Runs -/

/-- A call that keeps the recorded protections exact: an accepted `mprotect` marks exactly its
range, and any other call edits both copies of the map alike. -/
def MemCall.KeepsProt (vk : Valkyrie) : MemCall → Prop
  | .mprotect sctx => vk.uc.Unmappable sctx.protStart sctx.protSize → vk.MarksExactly sctx
  | c => c.EditsBoth vk

theorem MemCall.KeepsProt.editsBoth {c : MemCall} (h : c.KeepsProt vk) : c.EditsBoth vk := by
  cases c with
  | mprotect sctx => trivial
  | _ => exact h

theorem VMemory.protectRegions_zero (start : U64) : mem.protectRegions start 0 prot = mem := by
  have kept : (fun r : VMemRegion => if start < r.start + r.size ∧ (0 : U64) > r.start then
      { r with prot } else r) = id := by
    funext r
    rw [if_neg fun h => BitVec.not_lt_zero h.2]
    rfl
  rw [protectRegions, kept, List.map_id]

theorem Agrees.starts {c : MemCall} (h : Agrees vk.mem.regions vk.uc) (keeps : c.KeepsProt vk)
    (starts : c.Starts vk vk') : Agrees vk'.mem.regions vk'.uc := by
  have mirrors := h.toMirrors.starts keeps.editsBoth starts
  cases starts with
  | nothing => exact h
  | search ctx found =>
    rw [h.toMirrors.replaced_eq (h.toMirrors.free_of_search found)]
    exact h
  | replace ctx fixed null accepted =>
    exact h.remove mirrors fun _ => Unicorn.protAt_unmapped_cases ..
  | unmap null accepted ok => exact h.remove mirrors (Unicorn.protAt_memUnmap ok)
  | @protect sctx uc nonzero ok =>
    by_cases empty : sctx.protSize = 0
    · have top : ¬ sctx.EndsBelowTop := by
        intro top
        have start := sctx.toNat_protStart
        have stop := SubCtx.toNat_protStop top
        have size := toNat_satSub sctx.protStop sctx.protStart
        have zero : (satSub sctx.protStop sctx.protStart).toNat = 0 := congrArg BitVec.toNat empty
        have nonzero : 0 < sctx.arg1.toNat := by bv_omega
        omega
      rw [empty, Unicorn.memProtect_zero] at ok
      cases ok
      rw [SubCtx.protStop_eq_zero top, VMemory.protectRegions_zero]
      exact h
    · exact h.protect nonzero ok (keeps (Unicorn.Unmappable.of_memProtect ok empty))

theorem Agrees.grows (h : Agrees vk.mem.regions vk.uc) (grows : Grows vk vk') :
    Agrees vk'.mem.regions vk'.uc := by
  have mirrors := h.toMirrors.grows grows
  cases grows with
  | map info ok => exact h.map ok
  | keep regions _ pages =>
    refine ⟨mirrors, ?_, fun r hr x hx => ?_⟩
    · rw [regions]
      exact h.bound
    · rw [regions] at hr
      rw [Unicorn.protAt, pages]
      exact h.prot r hr x hx

/-- One call keeps the agreement on protections. -/
theorem Agrees.step {c : MemCall} (h : Agrees vk.mem.regions vk.uc) (keeps : c.KeepsProt vk)
    (does : c.Does vk vk') : Agrees vk'.mem.regions vk'.uc := by
  obtain ⟨vk₁, starts, grown⟩ := does.edits
  have first := h.starts keeps starts
  clear does starts
  induction grown with
  | refl => exact first
  | tail _ last ih => exact ih.grows last

/-- A run of calls that keep the recorded protections exact. -/
def ProtRun : Valkyrie → Valkyrie → Prop :=
  Relation.ReflTransGen fun vk vk' => ∃ c : MemCall, c.KeepsProt vk ∧ c.Does vk vk'

theorem Agrees.run (h : Agrees vk.mem.regions vk.uc) (run : ProtRun vk vk') :
    Agrees vk'.mem.regions vk'.uc := by
  induction run with
  | refl => exact h
  | tail _ last ih =>
    obtain ⟨c, keeps, does⟩ := last
    exact ih.step keeps does

theorem Agrees.ofRegions (aligned : ∀ r ∈ regions, Aligned r.start ∧ Aligned r.size)
    (nonempty : ∀ r ∈ regions, r.size ≠ 0)
    (bound : ∀ r ∈ regions, r.start.toNat + r.size.toNat ≤ 2 ^ 64) (disjoint : Disjoint regions) :
    Agrees regions (Unicorn.ofRegions regions) where
  toMirrors := .ofRegions aligned nonempty disjoint
  bound := bound
  prot _ hr _ := Unicorn.protAt_ofRegions aligned disjoint hr

theorem agrees_twoPages : Agrees twoPages.mem.regions twoPages.uc :=
  .ofRegions (by decide) (by decide) (by decide) (List.pairwise_singleton _ _)

/-- Protecting the first of two pages changes the record of the second. -/
theorem second_page_relabelled : ¬ ∀ (vk vk' : Valkyrie) (sctx : SubCtx),
    Agrees vk.mem.regions vk.uc → (sysMprotect sctx).Ends vk (.ok 0) vk' →
      Exact sctx vk.mem.regions vk'.mem.regions := by
  intro exact
  have does : ∃ vk', (sysMprotect ⟨0x1000, 0x1000, 1, 0, 0, 0⟩).Ends twoPages (.ok 0) vk' ∧
      vk'.mem.regions = [⟨0x1000, 0x2000, ⟨true, false, false⟩, "[mmap]"⟩] := ⟨_, rfl, rfl⟩
  obtain ⟨vk', mprotect, regions⟩ := does
  have second := exact _ _ _ agrees_twoPages mprotect 0x2000
  rw [regions] at second
  exact absurd second (by decide)

/-- In every state that a run of such calls reaches, the `WRITE` test selects exactly the writable
pages, a refused `mprotect` changes nothing, and an accepted one records exactly its range, and
leaves both copies in agreement, exactly when each region it touches lies inside a range that ends
below the last page or had the new protection already. -/
theorem recorded_protections_of_run (start : Agrees vk₀.mem.regions vk₀.uc)
    (run : ProtRun vk₀ vk) :
    (∀ x, (∃ r ∈ vk.mem.regions.filter (·.prot.write), x ∈ r) ↔
      ∃ p, vk.uc.protAt x = some p ∧ p.write) ∧
    ∀ sctx r vk', (sysMprotect sctx).Ends vk r vk' →
      ((∃ e, r = .error e) → vk' = vk) ∧
      (r = .ok 0 → (Exact sctx vk.mem.regions vk'.mem.regions ∧
        Agrees vk'.mem.regions vk'.uc ↔ vk.MarksExactly sctx)) := by
  have agrees := start.run run
  refine ⟨agrees.writable_iff, fun sctx r vk' ends => ?_⟩
  obtain ⟨-, rfl, rfl⟩ | ⟨nonzero, ⟨e, -, rfl, rfl⟩ | ⟨uc, ok, rfl, rfl⟩⟩ :=
    ends_sysMprotect.1 ends
  · refine ⟨fun _ => rfl, fun accepted => ?_⟩
    exact absurd (Except.ok.inj accepted) (by decide)
  · exact ⟨fun _ => rfl, fun accepted => by cases accepted⟩
  · refine ⟨fun ⟨e, refused⟩ => (by cases refused), fun _ => ?_⟩
    have exact := exact_iff_marksExactly agrees nonzero
    exact ⟨fun h => exact.1 h.1, fun h => ⟨exact.2 h, agrees.protect nonzero ok h⟩⟩

/-- Protecting both pages at once is such a call. -/
theorem recorded_protections_of_run_twoPages : ∃ vk : Valkyrie,
    vk.mem.regions = [⟨0x1000, 0x2000, ⟨true, false, false⟩, "[mmap]"⟩] ∧
    ∀ x, (∃ r ∈ vk.mem.regions.filter (·.prot.write), x ∈ r) ↔
      ∃ p, vk.uc.protAt x = some p ∧ p.write := by
  have does : ∃ vk, (MemCall.mprotect ⟨0x1000, 0x2000, 1, 0, 0, 0⟩).Does twoPages vk ∧
      vk.mem.regions = [⟨0x1000, 0x2000, ⟨true, false, false⟩, "[mmap]"⟩] := ⟨_, ⟨_, rfl⟩, rfl⟩
  obtain ⟨vk, mprotect, regions⟩ := does
  refine ⟨vk, regions, ?_⟩
  refine (recorded_protections_of_run agrees_twoPages (.single ⟨_, ?_, mprotect⟩)).1
  intro _ r hr touched
  rw [List.mem_singleton.1 hr]
  refine .inr ⟨fun x hx => ?_, by decide⟩
  have lo : 0x1000 ≤ x.toNat := hx.1
  have hi : x.toNat < 0x3000 := hx.2
  have first : (0x1000 : U64).toNat = 0x1000 := rfl
  have length : (0x2000 : U64).toNat = 0x2000 := rfl
  unfold SubCtx.InPages
  simp only
  omega

end ValkyrieRs

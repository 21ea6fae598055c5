import ValkyrieRs.Proof.Layout

/-!
# The loops of the layout restore

`restore_memory_layout` first unmaps the pieces of the current regions that lie outside the
snapshot, then maps or re-protects each snapshot region.  Both loops are described here from any
state: what a loop that succeeds leaves behind, and when it succeeds.
-/

namespace ValkyrieRs

open Proc

variable {vk vk' : Valkyrie} {mem : VMemory} {uc uc' : Unicorn} {addr size x : U64} {prot : Prot}
  {regions snapshot : List VMemRegion} {r s p : VMemRegion} {piece : U64 × U64}
  {pieces : List (U64 × U64)}

theorem ends_ucCheck_ok {text : String} {call : Unicorn → Except UcError Unicorn} {u : Unit} :
    (ucCheck text call).Ends vk (.ok u) vk' ↔ ∃ uc, call vk.uc = .ok uc ∧ vk' = vk.withUc uc := by
  simp only [ucCheck, ends_bind_attempt, ends_ucCall]
  cases h : call vk.uc with
  | error e => simp
  | ok uc => simp

/-! ## Unmapping the pieces -/

theorem ends_dropPiece_ok : (dropPiece piece).Ends vk (.ok ()) vk' ↔
    ∃ uc, vk.uc.memUnmap piece.1 piece.2 = .ok uc ∧
      vk' = vk.withMem (vk.mem.removeRange piece.1 piece.2) uc := by
  simp only [dropPiece, ends_bind_ok, ends_ucCheck_ok, ends_modify]
  constructor
  · rintro ⟨-, _, ⟨uc, ok, rfl⟩, -, rfl⟩
    exact ⟨uc, ok, rfl⟩
  · rintro ⟨uc, ok, rfl⟩
    exact ⟨(), _, ⟨uc, ok, rfl⟩, trivial, rfl⟩

/-- The address lies in the piece. -/
def InPiece (x : U64) (piece : U64 × U64) : Prop := InRange piece.1 piece.2.toNat x

instance : Decidable (InPiece x piece) := inferInstanceAs (Decidable (InRange ..))

/-- What the loop over the pieces leaves behind. -/
structure Dropped (pieces : List (U64 × U64)) (vk vk' : Valkyrie) : Prop where
  prots : ∀ x, vk'.uc.protAt x = if ∃ piece ∈ pieces, InPiece x piece then none
    else vk.uc.protAt x
  bytes : vk'.uc.bytes = vk.uc.bytes
  frame : vk' = vk.withMem { vk.mem with regions := vk'.mem.regions } vk'.uc
  covered : ∀ x, (∃ r ∈ vk'.mem.regions, x ∈ r.span) ↔ (∃ r ∈ vk.mem.regions, x ∈ r.span) ∧
    ¬ ∃ piece ∈ pieces, piece.1 ≤ x ∧ x < satAdd piece.1 piece.2

theorem VMemory.removeRange_eq :
    mem.removeRange addr size = { mem with regions := (mem.removeRange addr size).regions } := by
  unfold removeRange
  split_ifs <;> rfl

theorem dropped_of_ends (run : (pieces.forM dropPiece).Ends vk (.ok ()) vk') :
    Dropped pieces vk vk' := by
  induction pieces generalizing vk with
  | nil =>
    obtain ⟨-, rfl⟩ := ends_forM_nil.1 run
    exact ⟨by simp, rfl, rfl, by simp⟩
  | cons piece pieces ih =>
    obtain ⟨vk₁, first, rest⟩ := ends_forM_cons_ok.1 run
    obtain ⟨uc, ok, rfl⟩ := ends_dropPiece_ok.1 first
    obtain ⟨prots, bytes, -⟩ := Unicorn.memUnmap_effect ok
    obtain ⟨prots', bytes', frame, covered⟩ := ih rest
    refine ⟨fun x => ?_, bytes'.trans bytes, ?_, fun x => ?_⟩
    · rw [prots' x]
      simp only [Valkyrie.withMem_uc, prots x, List.mem_cons, exists_eq_or_imp]
      by_cases inside : InPiece x piece
      · have inside' : InRange piece.1 piece.2.toNat x := inside
        simp [inside, inside']
      · have inside' : ¬ InRange piece.1 piece.2.toNat x := inside
        simp [inside, inside']
    · rw [frame, VMemory.removeRange_eq]
      rfl
    · rw [covered x]
      simp only [Valkyrie.withMem_mem, VMemory.covered_removeRange, List.mem_cons,
        exists_eq_or_imp, not_or, and_assoc]

/-- Each piece that is unmapped has an aligned start and size. -/
theorem aligned_of_ends (run : (pieces.forM dropPiece).Ends vk (.ok ()) vk')
    (hp : piece ∈ pieces) (hs : piece.2 ≠ 0) : Aligned piece.1 ∧ Aligned piece.2 := by
  induction pieces generalizing vk with
  | nil => cases hp
  | cons first pieces ih =>
    obtain ⟨vk₁, head, rest⟩ := ends_forM_cons_ok.1 run
    obtain ⟨uc, ok, rfl⟩ := ends_dropPiece_ok.1 head
    rcases List.mem_cons.1 hp with rfl | hp
    · have range := Unicorn.Unmappable.of_memUnmap ok hs
      exact ⟨range.addr_aligned, range.size_aligned⟩
    · exact ih rest hp

/-- The loop over disjoint pieces that the engine accepts succeeds. -/
theorem exists_ends_dropPieces
    (accepted : ∀ piece ∈ pieces, vk.uc.Unmappable piece.1 piece.2)
    (apart : pieces.Pairwise fun p q => ∀ x, InPiece x p → ¬ InPiece x q) :
    ∃ vk', (pieces.forM dropPiece).Ends vk (.ok ()) vk' := by
  induction pieces generalizing vk with
  | nil => exact ⟨vk, ends_forM_nil.2 ⟨rfl, rfl⟩⟩
  | cons piece pieces ih =>
    obtain ⟨apart, rest⟩ := List.pairwise_cons.1 apart
    have range := accepted piece (by simp)
    obtain ⟨uc, ok⟩ := (Unicorn.memUnmap_ok_iff range.size_ne).2 range
    obtain ⟨prots, -, -⟩ := Unicorn.memUnmap_effect ok
    have next : ∀ q ∈ pieces, uc.Unmappable q.1 q.2 := by
      intro q hq
      obtain ⟨size_ne, addr_aligned, size_aligned, bound, mapped⟩ := accepted q (by simp [hq])
      refine ⟨size_ne, addr_aligned, size_aligned, bound, fun x hx => ?_⟩
      have outside : ¬ InRange piece.1 piece.2.toNat x := fun inside => apart q hq x inside hx
      rw [prots x, if_neg outside]
      exact mapped x hx
    obtain ⟨vk', run⟩ := @ih (vk.withMem (vk.mem.removeRange piece.1 piece.2) uc) next rest
    exact ⟨vk', ends_forM_cons_ok.2 ⟨_, ends_dropPiece_ok.2 ⟨uc, ok, rfl⟩, run⟩⟩

/-! ## Bringing the snapshot regions back -/

theorem ends_bringBack_ok : (bringBack s).Ends vk (.ok ()) vk' ↔
    ∃ uc, (if isRangeMapped vk.mem.regions s.start s.size = false
      then vk.uc.memMap s.start s.size s.prot else vk.uc.memProtect s.start s.size s.prot) =
        .ok uc ∧ vk' = vk.withUc uc := by
  rw [bringBack, ends_bind_get]
  split_ifs <;> exact ends_ucCheck_ok

/-- The engine accepts the call that brings the region back: a fresh mapping, or a change of
protection where the listed regions cover it. -/
def VMemRegion.Ready (regions : List VMemRegion) (uc : Unicorn) (s : VMemRegion) : Prop :=
  if isRangeMapped regions s.start s.size = false then uc.Mappable s.start s.size
  else uc.Unmappable s.start s.size

/-- The call that brings one region back, and what it does. -/
theorem broughtBack_effect (nonempty : s.size ≠ 0)
    (ok : (if isRangeMapped regions s.start s.size = false then uc.memMap s.start s.size s.prot
      else uc.memProtect s.start s.size s.prot) = .ok uc') :
    s.Ready regions uc ∧
      (∀ x, uc'.protAt x = if x ∈ s then some s.prot else uc.protAt x) ∧
      (∀ x, uc'.bytes x = if x ∈ s then (uc.readAt x).getD 0 else uc.bytes x) := by
  unfold VMemRegion.Ready
  split_ifs at ok ⊢ with test
  · have range := Unicorn.Mappable.of_memMap ok
    obtain ⟨prots, bytes, -⟩ := Unicorn.memMap_effect ok
    refine ⟨range, prots, fun x => (bytes x).trans ?_⟩
    refine ite_congr rfl (fun inside => ?_) fun _ => rfl
    simp [Unicorn.readAt, range.free x inside]
  · have range := Unicorn.Unmappable.of_memProtect ok nonempty
    obtain ⟨prots, bytes, -⟩ := Unicorn.memProtect_effect ok
    refine ⟨range, prots, fun x => ?_⟩
    split_ifs with inside
    · simp [Unicorn.readAt, range.mapped.2 x inside, bytes]
    · rw [bytes]

theorem exists_broughtBack (ready : s.Ready regions uc) :
    ∃ uc', (if isRangeMapped regions s.start s.size = false then uc.memMap s.start s.size s.prot
      else uc.memProtect s.start s.size s.prot) = .ok uc' := by
  unfold VMemRegion.Ready at ready
  split_ifs at ready ⊢ with test
  · exact Unicorn.memMap_ok_iff.2 ready
  · exact (Unicorn.memProtect_ok_iff ready.size_ne).2 ready

/-- What happens outside a region does not matter to its call. -/
theorem VMemRegion.Ready.congr (same : ∀ x ∈ s, uc'.protAt x = uc.protAt x)
    (ready : s.Ready regions uc') : s.Ready regions uc := by
  unfold Ready at ready ⊢
  split_ifs at ready ⊢
  · obtain ⟨size_ne, addr_aligned, size_aligned, bound, free⟩ := ready
    exact ⟨size_ne, addr_aligned, size_aligned, bound, fun x hx => (same x hx) ▸ free x hx⟩
  · obtain ⟨size_ne, addr_aligned, size_aligned, bound, mapped⟩ := ready
    exact ⟨size_ne, addr_aligned, size_aligned, bound, fun x hx => (same x hx) ▸ mapped x hx⟩

/-- What the loop over the snapshot regions leaves behind. -/
structure Brought (snapshot : List VMemRegion) (vk vk' : Valkyrie) : Prop where
  ready : ∀ s ∈ snapshot, s.Ready vk.mem.regions vk.uc
  inside : ∀ s ∈ snapshot, ∀ x ∈ s, vk'.uc.protAt x = some s.prot ∧
    vk'.uc.bytes x = (vk.uc.readAt x).getD 0
  outside : ∀ x, (∀ s ∈ snapshot, x ∉ s) → vk'.uc.protAt x = vk.uc.protAt x ∧
    vk'.uc.bytes x = vk.uc.bytes x
  frame : vk' = vk.withUc vk'.uc

theorem brought_of_ends (nonempty : ∀ s ∈ snapshot, s.size ≠ 0) (apart : Disjoint snapshot)
    (run : (snapshot.forM bringBack).Ends vk (.ok ()) vk') : Brought snapshot vk vk' := by
  induction snapshot generalizing vk with
  | nil =>
    obtain ⟨-, rfl⟩ := ends_forM_nil.1 run
    exact ⟨by simp, by simp, fun x _ => ⟨rfl, rfl⟩, rfl⟩
  | cons s snapshot ih =>
    obtain ⟨apart, disjoint⟩ := List.pairwise_cons.1 apart
    obtain ⟨vk₁, first, rest⟩ := ends_forM_cons_ok.1 run
    obtain ⟨uc, ok, rfl⟩ := ends_bringBack_ok.1 first
    obtain ⟨ready, prots, bytes⟩ := broughtBack_effect (nonempty s (by simp)) ok
    obtain ⟨ready', inside, outside, frame⟩ := ih (fun t ht => nonempty t (by simp [ht]))
      disjoint rest
    simp only [Valkyrie.withUc_uc, Valkyrie.withUc_mem] at ready' inside outside
    have missed {t : VMemRegion} (ht : t ∈ snapshot) {x : U64} (hx : x ∈ t) : x ∉ s :=
      fun hs => apart t ht x hs hx
    refine ⟨?_, ?_, ?_, frame⟩
    · intro t ht
      rcases List.mem_cons.1 ht with rfl | ht
      · exact ready
      · exact (ready' t ht).congr fun x hx => by rw [prots x, if_neg (missed ht hx)]
    · intro t ht x hx
      rcases List.mem_cons.1 ht with rfl | ht
      · obtain ⟨prot, byte⟩ := outside x fun t ht hx' => missed ht hx' hx
        rw [prot, byte, prots x, bytes x, if_pos hx, if_pos hx]
        exact ⟨rfl, rfl⟩
      · obtain ⟨prot, byte⟩ := inside t ht x hx
        refine ⟨prot, byte.trans ?_⟩
        simp only [Unicorn.readAt, prots x, bytes x, if_neg (missed ht hx)]
    · intro x hx
      obtain ⟨prot, byte⟩ := outside x fun t ht => hx t (by simp [ht])
      rw [prot, byte, prots x, bytes x, if_neg (hx s (by simp)), if_neg (hx s (by simp))]
      exact ⟨rfl, rfl⟩

theorem exists_ends_bringBack (nonempty : ∀ s ∈ snapshot, s.size ≠ 0) (apart : Disjoint snapshot)
    (ready : ∀ s ∈ snapshot, s.Ready vk.mem.regions vk.uc) :
    ∃ vk', (snapshot.forM bringBack).Ends vk (.ok ()) vk' := by
  induction snapshot generalizing vk with
  | nil => exact ⟨vk, ends_forM_nil.2 ⟨rfl, rfl⟩⟩
  | cons s snapshot ih =>
    obtain ⟨apart, disjoint⟩ := List.pairwise_cons.1 apart
    obtain ⟨uc, ok⟩ := exists_broughtBack (ready s (by simp))
    obtain ⟨-, prots, -⟩ := broughtBack_effect (nonempty s (by simp)) ok
    have next : ∀ t ∈ snapshot, t.Ready vk.mem.regions uc := by
      intro t ht
      refine (ready t (by simp [ht])).congr fun x hx => ?_
      rw [prots x, if_neg fun hs => apart t ht x hs hx]
    obtain ⟨vk', run⟩ := @ih (vk.withUc uc) (fun t ht => nonempty t (by simp [ht])) disjoint next
    exact ⟨vk', ends_forM_cons_ok.2 ⟨_, ends_bringBack_ok.2 ⟨uc, ok, rfl⟩, run⟩⟩

/-! ## The whole restore -/

/-- All the pieces that the restore unmaps. -/
def strayPieces (regions snapshot : List VMemRegion) : List (U64 × U64) :=
  regions.flatMap fun region => subtractSnapshotCoverage region.start region.size snapshot

theorem ends_restoreMemoryLayout_ok : (restoreMemoryLayout snapshot).Ends vk (.ok ()) vk' ↔
    ∃ vk₁ vk₂, ((strayPieces vk.mem.regions snapshot).forM dropPiece).Ends vk (.ok ()) vk₁ ∧
      (snapshot.forM bringBack).Ends vk₁ (.ok ()) vk₂ ∧
      vk' = vk₂.withMem { vk₂.mem with regions := snapshot } vk₂.uc := by
  rw [restoreMemoryLayout, ends_bind_get]
  simp only [ends_bind_ok, ends_modify, strayPieces, ends_forM_flatMap_ok, true_and]
  constructor
  · rintro ⟨_, vk₁, first, _, vk₂, second, rfl⟩
    exact ⟨vk₁, vk₂, first, second, rfl⟩
  · rintro ⟨vk₁, vk₂, first, second, rfl⟩
    exact ⟨(), vk₁, first, (), vk₂, second, rfl⟩

/-- The pieces cover what the regions cover outside the snapshot. -/
theorem covered_strayPieces : (∃ piece ∈ strayPieces regions snapshot, InPiece x piece) ↔
    (∃ r ∈ regions, x ∈ r.span) ∧ ¬ ∃ s ∈ snapshot, x ∈ s.span := by
  simp only [strayPieces, List.mem_flatMap]
  constructor
  · rintro ⟨piece, ⟨r, hr, hp⟩, hx⟩
    obtain ⟨inside, out⟩ := covered_subtractSnapshotCoverage.1 ⟨piece, hp, hx⟩
    exact ⟨⟨r, hr, inside⟩, out⟩
  · rintro ⟨⟨r, hr, inside⟩, out⟩
    obtain ⟨piece, hp, hx⟩ := covered_subtractSnapshotCoverage.2 ⟨inside, out⟩
    exact ⟨piece, ⟨r, hr, hp⟩, hx⟩

end ValkyrieRs

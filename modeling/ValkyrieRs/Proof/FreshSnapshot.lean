import ValkyrieRs.Proof.RestoreBytes
import ValkyrieRs.Proof.SetUp

/-!
# Snapshots that are restored at once

Where every region is mapped as it is listed, taking a snapshot changes nothing, and restoring it at once
changes nothing either: there is nothing to unmap, every region is protected as it is, and the bytes
written back are those there.  A loader leaves such a layout, and the set-up of a run keeps it.
-/

namespace ValkyrieRs

open Proc

variable {vk vk' : Valkyrie} {uc uc₁ uc₂ : Unicorn} {addr size : U64} {prot p : Prot}
  {regions : List VMemRegion} {r : VMemRegion} {snapshot : EmulatorSnapshot}

/-! ## Calls that change nothing -/

namespace Unicorn

/-- Pages that already have the protection. -/
theorem pages_protect_same (nonempty : size ≠ 0) (bound : addr.toNat + size.toNat ≤ 2 ^ 64)
    (mapped : ∀ x, InRange addr size.toNat x → uc.protAt x = some prot) :
    (fun q => if q ∈ pageSpan addr size.toNat then some prot else uc.pages q) = uc.pages := by
  funext q
  split_ifs with touched
  · obtain ⟨x, inside, rfl⟩ := exists_inRange_of_mem_pageSpan (by bv_omega) bound touched
    exact (mapped x inside).symm
  · rfl

theorem memProtect_same (range : uc.Unmappable addr size)
    (mapped : ∀ x, InRange addr size.toNat x → uc.protAt x = some prot) :
    uc.memProtect addr size prot = .ok uc := by
  have whole := (spanMapped_iff ..).2 range.mapped
  unfold memProtect
  rw [if_neg range.size_ne, if_neg (by simp [range.addr_aligned, range.size_aligned]),
    if_neg (by simp [whole]), pages_protect_same range.size_ne range.mapped.1 mapped]

/-- The protection is changed and changed back. -/
theorem memProtect_back (range : uc.Unmappable addr size)
    (mapped : ∀ x, InRange addr size.toNat x → uc.protAt x = some prot)
    (first : uc.memProtect addr size p = .ok uc₁) (second : uc₁.memProtect addr size prot = .ok uc₂) :
    uc₂ = uc := by
  have same := pages_protect_same range.size_ne range.mapped.1 mapped
  unfold memProtect at first second
  rw [if_neg range.size_ne] at first second
  split_ifs at first second
  cases first
  cases second
  have pages : (fun q => if q ∈ pageSpan addr size.toNat then some prot
      else if q ∈ pageSpan addr size.toNat then some p else uc.pages q) = uc.pages := by
    refine (funext fun q => ?_).trans same
    split_ifs <;> rfl
  rw [pages]

theorem memWrite_contents {n : ℕ} (mapped : uc.Mapped addr n) :
    uc.memWrite addr (uc.contents addr n) = .ok uc := by
  have whole := (spanMapped_iff ..).2 mapped
  have bytes : (fun x => if InRange addr n x then
      (uc.contents addr n).getD (x.toNat - addr.toNat) 0 else uc.bytes x) = uc.bytes := by
    funext x
    split_ifs with inside
    · exact getD_contents inside
    · rfl
  unfold memWrite
  rw [length_contents, if_neg (by simp [whole]), bytes]

end Unicorn

/-! ## Captured layouts -/

theorem Captured.unmappable (h : Captured regions uc) (hr : r ∈ regions) :
    uc.Unmappable r.start r.size := by
  obtain ⟨start, size⟩ := h.aligned r hr
  refine ⟨h.nonempty r hr, start, size, h.bound r hr, fun x hx => ?_⟩
  rw [h.mapped r hr x hx]
  rfl

theorem Captured.congr (h : Captured regions uc) (same : uc₁.pages = uc.pages) :
    Captured regions uc₁ := by
  refine ⟨h.aligned, h.nonempty, h.bound, h.disjoint, fun r hr x hx => ?_⟩
  rw [Unicorn.protAt, same]
  exact h.mapped r hr x hx

/-- A region that is mapped and listed. -/
theorem Captured.map {mem : VMemory} {info : String} (h : Captured mem.regions uc)
    (ok : uc.memMap addr size prot = .ok uc₁) :
    Captured (mem.addRegion ⟨addr, size, prot, info⟩).regions uc₁ := by
  have range := Unicorn.Mappable.of_memMap ok
  obtain ⟨prots, -, -⟩ := Unicorn.memMap_effect ok
  have either {P : VMemRegion → Prop} (old : ∀ r ∈ mem.regions, P r)
      (new : P ⟨addr, size, prot, info⟩) :
      ∀ r ∈ (mem.addRegion ⟨addr, size, prot, info⟩).regions, P r := by
    intro r hr
    rcases List.mem_append.1 hr with hr | hr
    · exact old r hr
    · rw [List.mem_singleton.1 hr]
      exact new
  refine ⟨either h.aligned ⟨range.addr_aligned, range.size_aligned⟩,
    either h.nonempty range.size_ne, either h.bound range.bound, (h.laid.map ok).disjoint,
    either (fun r hr x hx => ?_) fun x hx => (prots x).trans (if_pos hx)⟩
  rw [prots x, if_neg]
  · exact h.mapped r hr x hx
  · intro inside
    have listed := h.mapped r hr x hx
    rw [range.free x inside] at listed
    cases listed

/-! ## Capture and restore -/

/-- What a snapshot of the emulator holds. -/
def Valkyrie.toSnapshot (vk : Valkyrie) : EmulatorSnapshot where
  context := vk.uc.reg
  regions := vk.mem.regions
  writableRegions := (vk.mem.regions.filter (·.prot.write)).map (VMemRegion.saved vk.uc)
  linuxCreds := vk.linuxCreds
  guestRtSigactions := vk.guestRtSigactions
  guestRtSigmask := vk.guestRtSigmask
  guestPrctlName := vk.guestPrctlName
  guestPdeathsig := vk.guestPdeathsig
  guestDumpable := vk.guestDumpable

theorem readRegionSnapshot_same {data : List U8} (captured : Captured regions vk.uc)
    (hr : r ∈ regions)
    (run : (readRegionSnapshot r.start r.size r.prot).Ends vk (.ok data) vk') : vk' = vk := by
  unfold readRegionSnapshot at run
  split_ifs at run
  · exact (ends_memRead.1 run).2.2
  · obtain ⟨_, vk₁, first, run⟩ := ends_bind_ok.1 run
    obtain ⟨_, vk₂, read, run⟩ := ends_bind_attempt.1 run
    obtain ⟨_, vk₃, last, run⟩ := ends_bind_ok.1 run
    obtain ⟨-, rfl⟩ := ends_ofExcept.1 run
    obtain ⟨-, -, rfl⟩ := ends_memRead.1 read
    obtain ⟨uc₁, ok₁, rfl⟩ := ends_ucCheck_ok.1 first
    obtain ⟨uc₂, ok₂, rfl⟩ := ends_ucCheck_ok.1 last
    have back := Unicorn.memProtect_back (captured.unmappable hr) (captured.mapped r hr) ok₁ ok₂
    rw [back]
    rfl

theorem saveRegions_same {l : List VMemRegion} {saved : List WritableRegionSnapshot}
    (captured : Captured regions vk.uc) (listed : ∀ r ∈ l, r ∈ regions)
    (run : (l.mapM fun region : VMemRegion => do
      let data ← readRegionSnapshot region.start region.size region.prot
      pure (⟨region.start, data⟩ : WritableRegionSnapshot)).Ends vk (.ok saved) vk') : vk' = vk := by
  induction l generalizing saved with
  | nil => exact (ends_mapM_nil.1 run).2
  | cons r l ih =>
    obtain ⟨_, vk₁, first, rest, loop, rfl⟩ := ends_mapM_cons_ok.1 run
    obtain ⟨data, vk₂, read, last⟩ := ends_bind_ok.1 first
    obtain ⟨-, rfl⟩ := ends_pure.1 last
    obtain rfl := readRegionSnapshot_same captured (listed r List.mem_cons_self) read
    exact ih (fun s hs => listed s (List.mem_cons_of_mem r hs)) loop

/-- Taking a snapshot of a captured layout changes nothing. -/
theorem captureSnapshot_same (captured : Captured vk.mem.regions vk.uc)
    (run : captureSnapshot.Ends vk (.ok snapshot) vk') : vk' = vk ∧ snapshot = vk.toSnapshot := by
  rw [captureSnapshot, ends_bind_get] at run
  obtain ⟨saved, vk₁, loop, run⟩ := ends_bind_ok.1 run
  obtain rfl := saveRegions_same captured (fun r hr => List.mem_of_mem_filter hr) loop
  obtain ⟨rfl, -⟩ := ends_saveRegions loop
  rw [ends_bind_get] at run
  obtain ⟨ok, rfl⟩ := ends_pure.1 run
  exact ⟨rfl, Except.ok.inj ok⟩

theorem readRegionSnapshot_ends (captured : Captured regions vk.uc) (hr : r ∈ regions)
    (small : r.size.toNat < 2 ^ 63) : (readRegionSnapshot r.start r.size r.prot).Ends vk
      (.ok (vk.uc.contents r.start r.size.toNat)) vk := by
  have range := captured.unmappable hr
  have read (uc : Unicorn) (mapped : uc.Mapped r.start r.size.toNat)
      (bytes : uc.bytes = vk.uc.bytes) : (memRead r.start r.size.toNat).Ends (vk.withUc uc)
        (.ok (vk.uc.contents r.start r.size.toNat)) (vk.withUc uc) := by
    have same : uc.contents r.start r.size.toNat = vk.uc.contents r.start r.size.toNat := by
      unfold Unicorn.contents
      rw [bytes]
    refine ends_memRead.2 ⟨small, (VMemory.read_ok_iff.2 ⟨?_, ?_⟩).symm, rfl⟩
    · have nonempty := range.size_ne
      bv_omega
    · exact Unicorn.memRead_ok_iff.2 ⟨mapped, same.symm⟩
  unfold readRegionSnapshot
  by_cases readable : r.prot.read
  · rw [if_pos readable]
    exact read vk.uc range.mapped rfl
  · rw [if_neg readable]
    obtain ⟨uc₁, ok₁⟩ : ∃ uc₁, vk.uc.memProtect r.start r.size r.prot.withRead = .ok uc₁ :=
      (Unicorn.memProtect_ok_iff range.size_ne).2 range
    obtain ⟨prots, bytes, -⟩ := Unicorn.memProtect_effect ok₁
    have mapped : uc₁.Mapped r.start r.size.toNat := by
      refine ⟨range.mapped.1, fun x hx => ?_⟩
      rw [prots x, if_pos hx]
      rfl
    have range₁ : uc₁.Unmappable r.start r.size :=
      ⟨range.size_ne, range.addr_aligned, range.size_aligned, mapped⟩
    obtain ⟨uc₂, ok₂⟩ : ∃ uc₂, uc₁.memProtect r.start r.size r.prot = .ok uc₂ :=
      (Unicorn.memProtect_ok_iff range.size_ne).2 range₁
    obtain rfl := Unicorn.memProtect_back range (captured.mapped r hr) ok₁ ok₂
    have first : (ucCheck "mem_protect failed" fun uc =>
        uc.memProtect r.start r.size r.prot.withRead).Ends vk (.ok ()) (vk.withUc uc₁) :=
      ends_ucCheck_ok.2 ⟨uc₁, ok₁, rfl⟩
    have last : (ucCheck "mem_protect failed" fun uc => uc.memProtect r.start r.size r.prot).Ends
        (vk.withUc uc₁) (.ok ()) vk := ends_ucCheck_ok.2 ⟨vk.uc, ok₂, rfl⟩
    refine first.bind (ends_bind_attempt.2 ⟨_, _, read uc₁ mapped bytes, last.bind ?_⟩)
    exact ends_ofExcept.2 ⟨rfl, rfl⟩

/-- A snapshot of a captured layout can be taken when its writable regions can be read at once. -/
theorem captureSnapshot_ends (captured : Captured vk.mem.regions vk.uc)
    (small : ∀ r ∈ vk.mem.regions, r.prot.write → r.size.toNat < 2 ^ 63) :
    captureSnapshot.Ends vk (.ok vk.toSnapshot) vk := by
  have saves : ∀ l : List VMemRegion, (∀ r ∈ l, r ∈ vk.mem.regions ∧ r.prot.write) →
      (l.mapM fun region : VMemRegion => do
        let data ← readRegionSnapshot region.start region.size region.prot
        pure (⟨region.start, data⟩ : WritableRegionSnapshot)).Ends vk
        (.ok (l.map (VMemRegion.saved vk.uc))) vk := by
    intro l listed
    induction l with
    | nil => exact ends_mapM_nil.2 ⟨rfl, rfl⟩
    | cons r l ih =>
      obtain ⟨member, write⟩ := listed r List.mem_cons_self
      have first := readRegionSnapshot_ends captured member (small r member write)
      refine ends_mapM_cons_ok.2 ⟨_, vk, first.bind (ends_pure.2 ⟨rfl, rfl⟩), _,
        ih fun s hs => listed s (List.mem_cons_of_mem r hs), rfl⟩
  exact (saves _ fun r hr => ⟨List.mem_of_mem_filter hr, (List.mem_filter.1 hr).2⟩).bind rfl

/-- Nothing of a layout lies outside itself. -/
theorem strayPieces_self (paged : ∀ r ∈ regions, r.Paged) : strayPieces regions regions = [] := by
  refine List.eq_nil_iff_forall_not_mem.2 fun piece listed => ?_
  obtain ⟨-, nonempty, bound, -⟩ := aligned_of_mem_strayPieces paged paged listed
  have inside : InPiece piece.1 piece := by
    unfold InPiece InRange
    bv_omega
  obtain ⟨covered, uncovered⟩ := covered_strayPieces.1 ⟨piece, listed, inside⟩
  exact uncovered covered

theorem isRangeMapped_self (hr : r ∈ regions) (paged : r.Paged) :
    isRangeMapped regions r.start r.size = true :=
  (isRangeMapped_iff paged.lt_satEnd).2 fun _ low high => ⟨r, hr, low, high⟩

/-- A snapshot of a captured layout that is restored at once changes nothing. -/
theorem restoreSnapshot_same (captured : Captured vk.mem.regions vk.uc) :
    (restoreSnapshot vk.toSnapshot).Ends vk (.ok ()) vk := by
  have layout : (restoreMemoryLayout vk.mem.regions).Ends vk (.ok ()) vk := by
    refine ends_restoreMemoryLayout_ok.2 ⟨vk, vk, ?_, ends_forM_same fun r hr => ?_, rfl⟩
    · rw [strayPieces_self fun r hr => captured.paged hr]
      exact ends_forM_nil.2 ⟨rfl, rfl⟩
    · refine ends_bringBack_ok.2 ⟨vk.uc, ?_, rfl⟩
      rw [isRangeMapped_self hr (captured.paged hr), if_neg (by decide)]
      exact Unicorn.memProtect_same (captured.unmappable hr) (captured.mapped r hr)
  have writes : (vk.toSnapshot.writableRegions.forM fun region =>
      memWrite region.start region.data).Ends vk (.ok ()) vk := by
    refine ends_forM_same fun saved listed => ?_
    obtain ⟨r, hr, rfl⟩ := List.mem_map.1 listed
    have range := captured.unmappable (List.mem_of_mem_filter hr)
    refine ends_memWrite.2 (.inl ⟨vk.uc, VMemory.write_ok_iff.2 ⟨?_, ?_⟩, rfl, rfl⟩)
    · have nonempty := range.size_ne
      refine List.ne_nil_of_length_pos ?_
      rw [VMemRegion.saved, Unicorn.length_contents]
      bv_omega
    · exact Unicorn.memWrite_contents range.mapped
  exact layout.bind (writes.bind (ends_modify.2 ⟨rfl, rfl⟩))

/-! ## Emulators that have been set up -/

/-- A property of the memory map that holds where nothing is mapped, and that mapping a region and
listing it keeps. -/
structure MapStable (P : List VMemRegion → Unicorn → Prop) : Prop where
  none : P [] .new
  map : ∀ {mem : VMemory} {uc uc₁ : Unicorn} {addr size : U64} {prot : Prot} {info : String},
    P mem.regions uc → uc.memMap addr size prot = .ok uc₁ →
      P (mem.addRegion ⟨addr, size, prot, info⟩).regions uc₁
  congr : ∀ {regions : List VMemRegion} {uc uc₁ : Unicorn},
    P regions uc → uc₁.pages = uc.pages → P regions uc₁

theorem mapStable_captured : MapStable Captured where
  none := ⟨nofun, nofun, nofun, .nil, nofun⟩
  map h ok := h.map ok
  congr h same := h.congr same

theorem mapStable_mirrors : MapStable Mirrors where
  none := ⟨nofun, .nil, fun _ => iff_of_false (fun ⟨_, hr, _⟩ => nomatch hr) Bool.false_ne_true⟩
  map h ok := h.map ok
  congr h same := h.congr fun x => by rw [Unicorn.protAt, Unicorn.protAt, same]

section Stable

variable {P : List VMemRegion → Unicorn → Prop} {s : Instance} {i i' : Instance}
  {handler showInstructions : Valkyrie → U64 → U32 → Valkyrie} {range : U64 × U64}

theorem MapStable.sameLayout (stable : MapStable P) (h : SameLayout vk vk')
    (kept : P vk.mem.regions vk.uc) : P vk'.mem.regions vk'.uc := by
  rw [h.mem]
  exact stable.congr kept h.pages

theorem MapStable.loads {bound : ℕ} (stable : MapStable P) (loads : Loads bound vk vk')
    (kept : P vk.mem.regions vk.uc) : P vk'.mem.regions vk'.uc := by
  induction loads with
  | refl => exact kept
  | tail _ step ih =>
    cases step with
    | map addr size prot info ok below => exact stable.map ih ok
    | store pages reg => exact stable.congr ih pages
    | record elfAuxv addrs entryPoint => exact ih

theorem MapStable.placed {stop sp : U64} (stable : MapStable P) (placed : Placed stop sp vk vk')
    (kept : P vk.mem.regions vk.uc) : P vk'.mem.regions vk'.uc := by
  obtain ⟨uc₁, uc₂, stack, heap, last⟩ := placed.maps
  have regions : vk'.mem.regions = ((vk.mem.addRegion
      ⟨stackPlace stop, vk.start.stackSize, .all, "[stack]"⟩).addRegion
      ⟨heapPlace stop vk.start.stackSize, vk.start.heapSize, .all, "[heap]"⟩).regions := by
    rw [placed.regions]
    simp
  rw [regions, last]
  exact stable.congr (stable.map (stable.map kept stack) heap) rfl

/-- The loaders map what they list. -/
theorem MapStable.valkyrieNew {args : NewArgs} {answers : ℕ → Option UcError} {disassemble : Bool}
    {parse : List Char → Option Binary} (stable : MapStable P)
    (run : (valkyrieNew parse showInstructions disassemble).Ends (args.fresh answers) (.ok ()) s) :
    P s.vk.mem.regions s.vk.uc := by
  obtain ⟨base, load⟩ := (valkyrieNew_ok run).1
  rw [loaderRun, ends_bind_get] at load
  cases kind : args.vk.start.loader with
  | raw =>
    rw [kind] at load
    obtain ⟨vk₁, sp, -, loads, placed, -⟩ := loaderBlobRun_ok load
    exact stable.placed placed (stable.loads loads stable.none)
  | elf =>
    rw [kind] at load
    obtain ⟨_, _, vk₁, sp, -, -, loads, -, placed, -⟩ := loaderElfRun_ok (loadedBelow_new args) load
    exact stable.placed placed (stable.loads loads stable.none)

theorem sameArch_of_valkyrieNew {args : NewArgs} {answers : ℕ → Option UcError}
    {disassemble : Bool} {parse : List Char → Option Binary}
    (run : (valkyrieNew parse showInstructions disassemble).Ends (args.fresh answers) (.ok ()) s) :
    s.vk.arch.regs.arch = s.vk.cfg.arch := by
  obtain ⟨base, load⟩ := (valkyrieNew_ok run).1
  have same := (loaderRun_settings load).1
  rw [same.arch, same.cfg]
  rfl

/-- The set-up of a run maps what it lists. -/
theorem MapStable.laysOut (stable : MapStable P) (h : LaysOut vk vk')
    (kept : P vk.mem.regions vk.uc) : P vk'.mem.regions vk'.uc := by
  rcases h with layout | ⟨region, uc, ok, layout⟩
  · exact stable.sameLayout layout kept
  · exact stable.sameLayout layout (stable.map kept ok)

/-- The first set-up of an emulator. -/
theorem MapStable.setUp (stable : MapStable P) (kept : P i.vk.mem.regions i.vk.uc)
    (initial : (prepareInitialRun handler).Ends i (.ok ()) i')
    (prepares : prepareExecution.Ends i'.vk (.ok range) vk) : P vk.mem.regions vk.uc :=
  stable.laysOut (laysOut_of_prepareExecution prepares)
    (stable.laysOut (laysOut_of_prepareInitialRun initial) kept)

end Stable

end ValkyrieRs

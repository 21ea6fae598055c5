import ValkyrieRs.Coverage
import ValkyrieRs.Lib.Tally
import ValkyrieRs.Proof.Stdin
import ValkyrieRs.Syscall.Memory

/-!
# The coverage map of an input

Both hooks count every block in the slot of its edge: the location of the block against half the
location of the block before it.  A counter stops at 255, and the map after an input holds the
counts of that input alone.
-/

namespace ValkyrieRs

open Proc VCoreHooks

/-! ## Counts of edges -/

/-- The block that the event is about. -/
def GuestEvent.block? : GuestEvent → Option U64
  | block addr _ => some addr
  | other _ => none

/-- The addresses of the blocks executed. -/
def blockAddrs (events : List GuestEvent) : List U64 := events.filterMap GuestEvent.block?

/-- The location of a block in a map of `L` slots. -/
def location (L : ℕ) (addr : U64) : ℕ := (addr >>> 4).toNat % L

/-- The slots of locations, each against half the one before it. -/
def slotsAfter (L before : ℕ) (locs : List ℕ) : List ℕ :=
  List.zipWith (fun cur before => (cur ^^^ before >>> 1) % L) locs (before :: locs)

/-- The slots of a sequence of blocks; the block before the first is at location 0. -/
def edgeSlots (L : ℕ) (addrs : List U64) : List ℕ := slotsAfter L 0 (addrs.map (location L))

/-- The map holds the counts of a sequence of blocks. -/
def Counts (L : ℕ) (addrs : List U64) (coverage : List U8) : Prop :=
  coverage.length = L ∧ ∀ i < L, coverage[i]?.map BitVec.toNat =
    some (min 255 ((edgeSlots L addrs).count i))

namespace CoverageMapRef

variable {state : CoverageMapRef}

/-- The slots that the hooks step at a sequence of blocks. -/
def slotsUsed : CoverageMapRef → List U64 → List ℕ
  | _, [] => []
  | state, addr :: addrs => state.idx addr :: (state.record addr).slotsUsed addrs

@[simp] theorem length_record (addr : U64) :
    (state.record addr).coverage.length = state.coverage.length :=
  List.length_modify ..

@[simp] theorem length_foldl_record (addrs : List U64) :
    (addrs.foldl record state).coverage.length = state.coverage.length := by
  induction addrs generalizing state with
  | nil => rfl
  | cons addr addrs ih => rw [List.foldl_cons, ih, length_record]

theorem coverage_foldl_record (addrs : List U64) : (addrs.foldl record state).coverage =
    Tally.run (satAddU8 · 1) state.coverage (state.slotsUsed addrs) := by
  induction addrs generalizing state with
  | nil => rfl
  | cons addr addrs ih => exact ih

/-- The slots used are those of the edges. -/
theorem slotsUsed_eq (before : ℕ) (prev : state.prevLoc = before >>> 1) (addrs : List U64) :
    state.slotsUsed addrs = slotsAfter state.coverage.length before
      (addrs.map (location state.coverage.length)) := by
  induction addrs generalizing state before with
  | nil => rfl
  | cons addr addrs ih =>
    rw [slotsUsed, ih (state.curLoc addr) rfl, length_record, idx, prev]
    rfl

/-- The slots used lie in the map. -/
theorem lt_of_mem_slotsUsed (nonempty : state.coverage.length ≠ 0) {addrs : List U64} {i : ℕ}
    (used : i ∈ state.slotsUsed addrs) : i < state.coverage.length := by
  induction addrs generalizing state with
  | nil => cases used
  | cons addr addrs ih =>
    rcases List.mem_cons.1 used with rfl | used
    · exact Nat.mod_lt _ (Nat.pos_of_ne_zero nonempty)
    · have kept := @length_record state addr
      rw [← kept] at nonempty ⊢
      exact ih nonempty used

end CoverageMapRef

theorem toNat_satAddU8_one (b : U8) : (satAddU8 b 1).toNat = min 255 (b.toNat + 1) := by
  have lt := b.isLt
  have one : (1 : U8).toNat = 1 := rfl
  have top : (255 : U8).toNat = 255 := rfl
  unfold satAddU8
  split_ifs with room
  · rw [BitVec.toNat_add, Nat.mod_eq_of_lt room]
    omega
  · omega

/-- From a cleared map the hooks record the counts. -/
theorem counts_foldl_record (L : ℕ) (addrs : List U64) :
    Counts L addrs (addrs.foldl CoverageMapRef.record ⟨List.replicate L 0, 0⟩).coverage := by
  refine ⟨by simp, fun i hi => ?_⟩
  rw [CoverageMapRef.coverage_foldl_record, Tally.getElem?_run, List.getElem?_replicate, if_pos hi,
    CoverageMapRef.slotsUsed_eq 0 rfl]
  simp only [List.length_replicate, Option.map_some, Option.some.injEq]
  refine (Tally.iterate_capped toNat_satAddU8_one (by simp) _).trans ?_
  rw [edgeSlots]
  simp

/-! ## The hooks in their registries -/

/-- The hook of `install_shared_block_coverage` is the only one on basic blocks. -/
def SharedOnly (s : Hooked ReusableEmulator SharedCoverageHandle) : Prop :=
  ∃ id, s.hooking.reg.hooks.lookup .block =
    some [⟨id, 1, 0, .state, traceCb sharedBlockCoverage⟩]

/-- The hook of `install_block_coverage`, with its map, is the only one on basic blocks. -/
def OwnOnly (s : Hooked Valkyrie CoverageMapRef) (state : CoverageMapRef) : Prop :=
  ∃ id, s.hooking.reg.hooks.lookup .block = some [⟨id, 1, 0, state, traceCb blockCoverage⟩]

section Hooks

variable {C U : Type} {s s' : Hooked C U}

/-- A block reaches the only hook on blocks. -/
theorem ends_dispatch_block {hook : HookCommon C U} {addr : U64} {size : U32}
    {r : Except ValkyrieError Unit} (only : s.hooking.reg.hooks.lookup .block = some [hook])
    (everywhere : hook.beginAddr = 1 ∧ hook.endAddr = 0)
    (run : (dispatchEvent (.common .block (.trace addr size))).Ends s r s') :
    r = .ok () ∧ s'.ctx = (hook.cb s.ctx (.trace addr size) hook.userData).2.1 ∧
      s'.hooking.reg.hooks.lookup .block = some [{ hook with
        userData := (hook.cb s.ctx (.trace addr size) hook.userData).2.2 }] := by
  obtain ⟨rfl, rfl⟩ := ends_modify.1 run
  have isDue : due (.trace addr size) hook := by simp [due, boundCheck, everywhere]
  let ret := hook.cb s.ctx (.trace addr size) hook.userData
  have out : Chain.run (due (.trace addr size)) (call (.trace addr size)) blocks 0 s.ctx [hook] =
      ⟨ret.2.1, [{ hook with userData := ret.2.2 }], [((hook, 0), ret.1)]⟩ := by
    rw [Chain.run, if_pos isDue]
    dsimp only
    split_ifs <;> rfl
  simp only [dispatchCommon, only, out, insertHooks, AList.lookup_insert, true_and]
  exact ⟨rfl, rfl⟩

end Hooks

section Shared

variable {s s' : Hooked ReusableEmulator SharedCoverageHandle} {events : List GuestEvent}
  {r : Except ValkyrieError Unit}

/-- What one event leaves of the coverage. -/
theorem SharedOnly.exec (h : SharedOnly s) {ev : GuestEvent}
    (run : (ev.exec ReusableEmulator.onVk).Ends s r s') :
    r = .ok () ∧ SharedOnly s' ∧
      s'.ctx.coverageState = ev.block?.toList.foldl CoverageMapRef.record s.ctx.coverageState := by
  obtain ⟨id, only⟩ := h
  cases ev with
  | block addr size =>
    obtain ⟨ok, ctx, hooks⟩ := ends_dispatch_block only ⟨rfl, rfl⟩ run
    exact ⟨ok, ⟨id, hooks⟩, by rw [ctx]; rfl⟩
  | other f =>
    obtain ⟨ok, rfl⟩ := ends_modify.1 run
    exact ⟨ok, ⟨id, only⟩, rfl⟩

theorem SharedOnly.execAll (h : SharedOnly s)
    (run : (events.forM (GuestEvent.exec ReusableEmulator.onVk)).Ends s r s') :
    r = .ok () ∧ SharedOnly s' ∧
      s'.ctx.coverageState = (blockAddrs events).foldl CoverageMapRef.record s.ctx.coverageState := by
  induction events generalizing s with
  | nil =>
    obtain ⟨ok, rfl⟩ := ends_forM_nil.1 run
    exact ⟨ok, h, rfl⟩
  | cons ev events ih =>
    obtain ⟨e, first, -⟩ | ⟨t, first, rest⟩ := ends_forM_cons.1 run
    · cases (h.exec first).1
    · obtain ⟨-, hooks, now⟩ := h.exec first
      obtain ⟨ok, hooks, later⟩ := ih hooks rest
      refine ⟨ok, hooks, later.trans ?_⟩
      rw [now, ← List.foldl_append]
      cases ev <;> rfl

end Shared

section Own

variable {s s' : Hooked Valkyrie CoverageMapRef} {events : List GuestEvent} {state : CoverageMapRef}
  {r : Except ValkyrieError Unit}

theorem OwnOnly.exec (h : OwnOnly s state) {ev : GuestEvent} (run : (ev.exec id).Ends s r s') :
    r = .ok () ∧ OwnOnly s' (ev.block?.toList.foldl CoverageMapRef.record state) := by
  obtain ⟨no, only⟩ := h
  cases ev with
  | block addr size =>
    obtain ⟨ok, -, hooks⟩ := ends_dispatch_block only ⟨rfl, rfl⟩ run
    exact ⟨ok, no, hooks⟩
  | other f =>
    obtain ⟨ok, rfl⟩ := ends_modify.1 run
    exact ⟨ok, no, only⟩

theorem OwnOnly.execAll (h : OwnOnly s state)
    (run : (events.forM (GuestEvent.exec id)).Ends s r s') :
    r = .ok () ∧ OwnOnly s' ((blockAddrs events).foldl CoverageMapRef.record state) := by
  induction events generalizing s state with
  | nil =>
    obtain ⟨ok, rfl⟩ := ends_forM_nil.1 run
    exact ⟨ok, h⟩
  | cons ev events ih =>
    obtain ⟨e, first, -⟩ | ⟨t, first, rest⟩ := ends_forM_cons.1 run
    · cases (h.exec first).1
    · obtain ⟨ok, hooks⟩ := ih (h.exec first).2 rest
      rw [← List.foldl_append] at hooks
      refine ⟨ok, ?_⟩
      cases ev <;> exact hooks

end Own

/-! ## Installation -/

section Install

/-- An installer leaves the registered hooks. -/
theorem hooks_ensureDispatcher {C U : Type} {s s' : Hooking C U} {kind : HookKind}
    {point : HookPoint} (run : (ensureDispatcher kind point).Ends s (.ok ()) s') :
    s'.reg.hooks = s.reg.hooks := by
  rw [ensureDispatcher, ends_bind_get] at run
  split_ifs at run
  · obtain ⟨-, rfl⟩ := ends_pure.1 run
    rfl
  · obtain ⟨i, t, added, last⟩ := ends_bind_ok.1 run
    obtain ⟨-, rfl⟩ := ends_modify.1 last
    rw [ucAddHook, ends_bind_get, ends_bind_modify] at added
    cases granted : (s.uc.addHook ⟨point, kind⟩).1 with
    | error e =>
      rw [granted] at added
      cases (ends_throw.1 added).1
    | ok handle =>
      rw [granted] at added
      obtain ⟨-, rfl⟩ := ends_pure.1 added
      cases kind <;> rfl

/-- A registration on basic blocks, where nothing was registered. -/
theorem lookup_hookBlock {C U : Type} {s s' : Hooking C U} {ret : HookRet}
    {callback : C → U64 → U32 → U → Answer C U} {userData : U}
    (none : s.reg.hooks.lookup .block = none)
    (run : (hookBlock callback userData 1 0).Ends s (.ok ret) s') :
    ∃ id, s'.reg.hooks.lookup .block = some [⟨id, 1, 0, userData, traceCb callback⟩] := by
  obtain ⟨_, t, ensured, rest⟩ := ends_bind_ok.1 run
  have hooks := hooks_ensureDispatcher ensured
  have pushed : s'.reg.hooks = Buckets.push t.reg.hooks .block
      ⟨t.reg.nextId, 1, 0, userData, traceCb callback⟩ :=
    (congrArg (fun p => p.2.reg.hooks) (Option.some.inj rest)).symm
  refine ⟨t.reg.nextId, ?_⟩
  rw [pushed]
  refine (AList.lookup_insert _).trans ?_
  rw [hooks, none]
  rfl

variable {s s' : Hooked ReusableEmulator SharedCoverageHandle}

theorem SharedOnly.installed (none : s.hooking.reg.hooks.lookup .block = none)
    (run : installSharedBlockCoverage.Ends s (.ok ()) s') :
    SharedOnly s' ∧ s.ctx.coverageState.coverage.length ≠ 0 ∧
      s'.ctx.coverageState.coverage.length = s.ctx.coverageState.coverage.length := by
  rw [installSharedBlockCoverage, ends_bind_get] at run
  split_ifs at run with empty
  · cases (ends_throw.1 run).1
  · obtain ⟨ret, t, hooked, last⟩ := ends_bind_ok.1 (ends_bind_modify.1 run)
    obtain ⟨-, rfl⟩ := ends_pure.1 last
    obtain ⟨hooking, registered, rfl⟩ := ends_zoom.1 hooked
    refine ⟨lookup_hookBlock none registered, empty, ?_⟩
    simp [clearCoverageMap, empty]

theorem OwnOnly.installed {s s' : Hooked Valkyrie CoverageMapRef} {coverage : List U8}
    (none : s.hooking.reg.hooks.lookup .block = none)
    (run : (onRegistry (installBlockCoverage coverage)).Ends s (.ok ()) s') :
    OwnOnly s' ⟨List.replicate coverage.length 0, 0⟩ := by
  obtain ⟨hooking, installed, rfl⟩ := ends_zoom.1 run
  rw [installBlockCoverage] at installed
  split_ifs at installed with empty
  · cases (ends_throw.1 installed).1
  · obtain ⟨ret, t, registered, last⟩ := ends_bind_ok.1 installed
    obtain ⟨-, rfl⟩ := ends_pure.1 last
    exact lookup_hookBlock none registered

end Install

/-! ## Inputs -/

/-- An earlier input was run, with any outcome, or the map and the state of its hook were written
from outside. -/
def EarlierInput (s t : Hooked ReusableEmulator SharedCoverageHandle) : Prop :=
  (∃ input events outcome r, (runInput input events outcome).Ends s r t) ∨
    ∃ state : CoverageMapRef,
      state.coverage.length = s.ctx.coverageState.coverage.length ∧
      t = { s with ctx.coverageState := state }

/-- The hook is installed, over a map of `L` slots. -/
structure MapReady (L : ℕ) (s : Hooked ReusableEmulator SharedCoverageHandle) : Prop where
  hooks : SharedOnly s
  length : s.ctx.coverageState.coverage.length = L
  nonempty : L ≠ 0

section Inputs

variable {L : ℕ} {s s' : Hooked ReusableEmulator SharedCoverageHandle} {input : List U8}
  {events : List GuestEvent} {outcome r : Except ValkyrieError ExitKind}

theorem MapReady.clearCoverageMap (h : MapReady L s) :
    clearCoverageMap s.ctx.coverageState = ⟨List.replicate L 0, 0⟩ := by
  rw [ValkyrieRs.clearCoverageMap, h.length, if_neg h.nonempty]

/-- An input is refused by the restore, or run. -/
theorem MapReady.runInput (h : MapReady L s)
    (run : (runInput input events outcome).Ends s r s') : MapReady L s' ∧
      ((∃ e vk, (restoreSnapshot s.ctx.snapshot).Ends s.ctx.vk (.error e) vk ∧ r = .error e ∧
          s'.ctx.coverageState = s.ctx.coverageState) ∨
        ∃ vk, (restoreSnapshot s.ctx.snapshot).Ends s.ctx.vk (.ok ()) vk ∧ r = outcome ∧
          s'.ctx.coverageState =
            (blockAddrs events).foldl CoverageMapRef.record ⟨List.replicate L 0, 0⟩) := by
  rw [ValkyrieRs.runInput, ends_bind_get] at run
  obtain ⟨e, prepared, rfl⟩ | ⟨_, t, prepared, rest⟩ := ends_bind.1 run
  · obtain ⟨vk, failed, rfl⟩ := ends_zoom.1 prepared
    obtain ⟨e', restored, same⟩ | ⟨_, vk', -, last⟩ := ends_bind.1 failed
    · cases same
      exact ⟨⟨h.hooks, h.length, h.nonempty⟩, .inl ⟨_, _, restored, rfl, rfl⟩⟩
    · cases (ends_modify.1 last).1
  · obtain ⟨vk, begun, rfl⟩ := ends_zoom.1 prepared
    obtain ⟨_, vk', restored, -⟩ := ends_bind_ok.1 begun
    let start : Hooked ReusableEmulator SharedCoverageHandle :=
      { s with ctx := { s.ctx with
        vk
        coverageState := ValkyrieRs.clearCoverageMap s.ctx.coverageState } }
    have ready : SharedOnly start := h.hooks
    obtain ⟨e, executed, -⟩ | ⟨_, t, executed, last⟩ :=
      ends_bind.1 (show (_ >>= _ : ReusableM ExitKind).Ends start r s' from rest)
    · cases (ready.execAll executed).1
    · obtain ⟨ended, rfl⟩ := ends_ofExcept.1 last
      obtain ⟨-, hooks, counted⟩ := ready.execAll executed
      rw [show start.ctx.coverageState = _ from h.clearCoverageMap] at counted
      refine ⟨⟨hooks, ?_, h.nonempty⟩, .inr ⟨vk', restored, ended, counted⟩⟩
      rw [counted, CoverageMapRef.length_foldl_record, List.length_replicate]

theorem MapReady.earlier (h : MapReady L s) (earlier : Relation.ReflTransGen EarlierInput s s') :
    MapReady L s' := by
  induction earlier with
  | refl => exact h
  | tail _ last ih =>
    rcases last with ⟨input, events, outcome, r, run⟩ | ⟨state, length, rfl⟩
    · exact (ih.runInput run).1
    · exact ⟨ih.hooks, length.trans ih.length, ih.nonempty⟩

end Inputs

/-- After an input that the emulator is restored for, whatever was in the map, the map holds the
counts of the blocks executed, all in its slots, as a hook with a map of its own records them in a
fresh emulator.  An input that the emulator cannot be restored for fails before any block, and
leaves the map. -/
theorem coverage_of_input {s₀ s₁ s s' : Hooked ReusableEmulator SharedCoverageHandle}
    {input : List U8} {events : List GuestEvent} {outcome r : Except ValkyrieError ExitKind}
    (fresh : s₀.hooking.reg.hooks.lookup .block = none)
    (installed : installSharedBlockCoverage.Ends s₀ (.ok ()) s₁)
    (earlier : Relation.ReflTransGen EarlierInput s₁ s)
    (run : (runInput input events outcome).Ends s r s') :
    let L := s₀.ctx.coverageState.coverage.length
    let addrs := blockAddrs events
    (∀ vk, (restoreSnapshot s.ctx.snapshot).Ends s.ctx.vk (.ok ()) vk →
      r = outcome ∧ Counts L addrs s'.ctx.coverageState.coverage ∧
        (∀ i ∈ (clearCoverageMap s.ctx.coverageState).slotsUsed addrs, i < L) ∧
        ∀ (coverage : List U8) (own : List GuestEvent) (t₀ t₁ t : Hooked Valkyrie CoverageMapRef),
          coverage.length = L → blockAddrs own = addrs →
          t₀.hooking.reg.hooks.lookup .block = none →
          (onRegistry (installBlockCoverage coverage)).Ends t₀ (.ok ()) t₁ →
          (own.forM (GuestEvent.exec id)).Ends t₁ (.ok ()) t → OwnOnly t s'.ctx.coverageState) ∧
    ∀ e vk, (restoreSnapshot s.ctx.snapshot).Ends s.ctx.vk (.error e) vk →
      r = .error e ∧ s'.ctx.coverageState = s.ctx.coverageState := by
  obtain ⟨hooks, nonempty, length⟩ := SharedOnly.installed fresh installed
  have ready : MapReady s₀.ctx.coverageState.coverage.length s :=
    (MapReady.mk hooks length nonempty).earlier earlier
  refine ⟨fun vk restored => ?_, fun e vk failed => ?_⟩
  · obtain ⟨-, ⟨e, vk', failed, -⟩ | ⟨vk', -, ended, counted⟩⟩ := ready.runInput run
    · cases (restored.unique failed).1
    · refine ⟨ended, counted ▸ counts_foldl_record _ _, fun i used => ?_, ?_⟩
      · rw [ready.clearCoverageMap] at used
        simpa using CoverageMapRef.lt_of_mem_slotsUsed (by simpa using nonempty) used
      · intro coverage own t₀ t₁ t sameLength sameBlocks fresh installed executed
        have first := OwnOnly.installed fresh installed
        rw [sameLength] at first
        rw [counted, ← sameBlocks]
        exact (first.execAll executed).2
  · obtain ⟨-, ⟨e', vk', failed', fails, same⟩ | ⟨vk', restored, -⟩⟩ := ready.runInput run
    · cases (failed.unique failed').1
      exact ⟨fails, same⟩
    · cases (restored.unique failed).1

/-- A reusable emulator before its hook is installed. -/
def reusable (vk : Valkyrie) (snapshot : EmulatorSnapshot) (coverage : List U8) :
    Hooked ReusableEmulator SharedCoverageHandle :=
  ⟨⟨vk, snapshot, ⟨coverage, 0⟩⟩, ⟨.new, ⟨[], 0, fun _ => none⟩⟩⟩

theorem coverage_of_input_noMemory : ∃ s₁ s',
    installSharedBlockCoverage.Ends (reusable noMemory noSnapshot [7, 8, 9]) (.ok ()) s₁ ∧
      (runInput [] [.block 0x10 4, .block 0x10 4] (.ok .ok)).Ends s₁ (.ok .ok) s' ∧
      Counts 3 [0x10, 0x10] s'.ctx.coverageState.coverage := by
  have runs : ∃ s₁ s' vk,
      installSharedBlockCoverage.Ends (reusable noMemory noSnapshot [7, 8, 9]) (.ok ()) s₁ ∧
        (runInput [] [.block 0x10 4, .block 0x10 4] (.ok .ok)).Ends s₁ (.ok .ok) s' ∧
        (restoreSnapshot s₁.ctx.snapshot).Ends s₁.ctx.vk (.ok ()) vk := ⟨_, _, _, rfl, rfl, rfl⟩
  obtain ⟨s₁, s', vk, installed, run, restored⟩ := runs
  exact ⟨s₁, s', installed, run, ((coverage_of_input rfl installed .refl run).1 vk restored).2.1⟩

/-- Two pages are mapped as one region that the guest only reads. -/
def readOnlyPages : Valkyrie :=
  .ofMemory .x86_64 ⟨[⟨0x1000, 0x2000, ⟨true, false, false⟩, "[mmap]"⟩], 0, 0⟩

/-- The guest unmaps the page at 0x1000. -/
def unmapsPage (vk : Valkyrie) : Valkyrie :=
  ((sysMunmap ⟨0x1000, 0x1000, 0, 0, 0, 0⟩ vk).map (·.2)).getD vk

/-- After an input that unmaps one of two pages the restore for the next input fails, and the map
still counts the block of the earlier input. -/
theorem coverage_left_over : ∃ snapshot s₁ s s',
    captureSnapshot.Ends readOnlyPages (.ok snapshot) readOnlyPages ∧
      installSharedBlockCoverage.Ends (reusable readOnlyPages snapshot [0]) (.ok ()) s₁ ∧
      (runInput [] [.block 0x10 4, .other unmapsPage] (.ok .ok)).Ends s₁ (.ok .ok) s ∧
      (runInput [] [] (.ok .ok)).Ends s (.error (.unicornGeneralError "mem_map failed")) s' ∧
      s'.ctx.coverageState.coverage = [1] ∧ ¬ Counts 1 [] s'.ctx.coverageState.coverage := by
  have runs : ∃ snapshot s₁ s s', captureSnapshot.Ends readOnlyPages (.ok snapshot) readOnlyPages ∧
      installSharedBlockCoverage.Ends (reusable readOnlyPages snapshot [0]) (.ok ()) s₁ ∧
      (runInput [] [.block 0x10 4, .other unmapsPage] (.ok .ok)).Ends s₁ (.ok .ok) s ∧
      (runInput [] [] (.ok .ok)).Ends s (.error (.unicornGeneralError "mem_map failed")) s' ∧
      s'.ctx.coverageState.coverage = [1] := ⟨_, _, _, _, rfl, rfl, rfl, rfl, rfl⟩
  obtain ⟨snapshot, s₁, s, s', captured, installed, first, second, left⟩ := runs
  refine ⟨snapshot, s₁, s, s', captured, installed, first, second, left, fun counts => ?_⟩
  have slot := counts.2 0 (by decide)
  rw [left] at slot
  cases slot

end ValkyrieRs

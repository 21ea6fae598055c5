import ValkyrieRs.Fuzzing
import ValkyrieRs.Proof.MemoryCalls
import ValkyrieRs.Syscall.Common
import ValkyrieRs.Syscall.Io

/-!
# Isolation of fuzzing inputs

What the handlers find when a reusable emulator starts the guest on the next input, compared with
what they would find on a first input.  No run moves the start of the heap, and the restore and the
reset bring back every other field but two: the program break and the table of guest descriptors.
-/

namespace ValkyrieRs

open Proc

variable {vk vk' vk₀ vk₁ : Valkyrie} {snapshot : EmulatorSnapshot} {sctx : SubCtx}
  {input : List U8}

/-! ## Calls of the engine and of the host -/

section Calls

variable {R : Valkyrie → Valkyrie → Prop} {α : Type} {addr : U64} {n : ℕ} {data : List U8}

theorem within_hostAlloc : (hostAlloc n).Within R := by
  unfold hostAlloc
  exact .ite (within_pure _) within_diverge

theorem within_memRead : (memRead addr n).Within R :=
  within_hostAlloc.bind fun _ => within_get.bind fun _ => within_ofExcept _

theorem within_lastErrno : lastErrno.Within R := within_get.bind fun _ => within_pure _

theorem within_hostCall (step : ∀ vk host, R vk (vk.withHost host))
    (call : Host → Except U32 α × Host) : (hostCall call).Within R :=
  within_get.bind fun _ => .bind (within_modify fun _ => step _ _) fun _ => within_pure _

theorem within_memWrite (step : ∀ vk uc, R vk (vk.withUc uc)) : (memWrite addr data).Within R :=
  within_get.bind fun _ => (within_ofExcept _).bind fun _ => within_modify fun _ => step _ _

theorem within_ucCheck (step : ∀ vk uc, R vk (vk.withUc uc)) (text : String)
    (call : Unicorn → Except UcError Unicorn) : (ucCheck text call).Within R := by
  have engine : (ucCall call).Within R := by
    refine within_get.bind fun vk => ?_
    cases call vk.uc with
    | error e => exact within_throw _
    | ok uc => exact within_modify fun _ => step _ _
  refine engine.attempt.bind fun result => ?_
  cases result with
  | error e => exact within_throw _
  | ok u => exact within_pure _

end Calls

/-! ## What the restore of a layout touches -/

/-- Only the region list and the engine change. -/
def LayoutOnly (vk vk' : Valkyrie) : Prop :=
  vk' = vk.withMem { vk.mem with regions := vk'.mem.regions } vk'.uc

theorem LayoutOnly.chain (h : Relation.ReflTransGen LayoutOnly vk vk') : LayoutOnly vk vk' := by
  induction h with
  | refl => rfl
  | tail _ last ih =>
    rw [LayoutOnly, last, ih]
    rfl

section Layout

variable {addr : U64} {data : List U8} {piece : U64 × U64} {region : VMemRegion}
  {regions : List VMemRegion}

theorem layoutOnly_modify {f : Valkyrie → Valkyrie} (same : ∀ vk, LayoutOnly vk (f vk)) :
    (Proc.modify f : VkM Unit).Within LayoutOnly :=
  within_modify same

theorem layoutOnly_memWrite : (memWrite addr data).Within LayoutOnly :=
  within_memWrite fun _ _ => rfl

theorem layoutOnly_ucCheck (text : String) (call : Unicorn → Except UcError Unicorn) :
    (ucCheck text call).Within LayoutOnly :=
  within_ucCheck (fun _ _ => rfl) text call

theorem layoutOnly_dropPiece : (dropPiece piece).Within LayoutOnly := by
  refine (layoutOnly_ucCheck _ _).bind fun _ => layoutOnly_modify fun vk => ?_
  unfold VMemory.removeRange
  split_ifs <;> rfl

theorem layoutOnly_restoreMemoryLayout : (restoreMemoryLayout regions).Within LayoutOnly := by
  refine within_get.bind fun vk => ?_
  refine (within_forM _ fun r => within_forM _ fun _ => layoutOnly_dropPiece).bind fun _ => ?_
  refine (within_forM _ fun r => ?_).bind fun _ => layoutOnly_modify fun _ => rfl
  exact within_get.bind fun vk => .ite (layoutOnly_ucCheck _ _) (layoutOnly_ucCheck _ _)

end Layout

/-! ## The start of the heap -/

/-- The start of the heap is where it was. -/
def SameStart (vk vk' : Valkyrie) : Prop := vk'.mem.heapAddrStart = vk.mem.heapAddrStart

theorem SameStart.chain (h : Relation.ReflTransGen SameStart vk vk') : SameStart vk vk' := by
  induction h with
  | refl => rfl
  | tail _ last ih => exact last.trans ih

/-- No run of the procedure moves the start of the heap. -/
abbrev KeepsStart {α : Type} (m : VkM α) : Prop := m.Within SameStart

section Primitives

variable {α : Type} {addr size : U64} {n : ℕ} {data : List U8}

theorem keepsStart_modify {f : Valkyrie → Valkyrie} (same : ∀ vk, SameStart vk (f vk)) :
    KeepsStart (Proc.modify f) :=
  within_modify same

theorem keepsStart_hostAlloc : KeepsStart (hostAlloc n) := within_hostAlloc

theorem keepsStart_hostCall (call : Host → Except U32 α × Host) : KeepsStart (hostCall call) :=
  within_hostCall (fun _ _ => rfl) call

theorem keepsStart_lastErrno : KeepsStart lastErrno := within_lastErrno

theorem LayoutOnly.sameStart (h : LayoutOnly vk vk') : SameStart vk vk' := by
  rw [h]
  rfl

theorem keepsStart_memWrite : KeepsStart (memWrite addr data) := within_memWrite fun _ _ => rfl

theorem keepsStart_memRead : KeepsStart (memRead addr n) := within_memRead

theorem keepsStart_insertFile {fd : U64} {vkf : VkFile} : KeepsStart (insertFile fd vkf) := by
  refine within_get.bind fun vk => .bind (keepsStart_modify fun _ => rfl) fun _ => ?_
  cases vk.fdTable.lookup fd with
  | none => exact within_pure _
  | some old => exact (keepsStart_hostCall _).bind fun _ => within_pure _

end Primitives

/-! ## Handlers -/

theorem keepsStart_sysExit : KeepsStart (sysExit sctx) :=
  .bind (keepsStart_modify fun _ => rfl) fun _ => within_pure _

theorem keepsStart_sysRtSigaction : KeepsStart (sysRtSigaction sctx) := by
  refine .ite (within_pure _) (within_get.bind fun vk => ?_)
  cases rtSigactionSize vk.cfg.arch sctx.arg3 with
  | none => exact within_pure _
  | some actionSize =>
    have install : KeepsStart (do
        if sctx.arg1 ≠ 0 then
          let action ← memRead sctx.arg1 actionSize.toNat
          Proc.modify fun vk => { vk with
            guestRtSigactions := vk.guestRtSigactions.insert (sctx.arg0.setWidth 32) action }
        return (0 : U64)) :=
      .ite (keepsStart_memRead.bind fun _ => .bind (keepsStart_modify fun _ => rfl) fun _ =>
        within_pure _) (within_pure _)
    refine .ite ?_ install
    cases vk.guestRtSigactions.lookup (sctx.arg0.setWidth 32) with
    | none => exact keepsStart_hostAlloc.bind fun _ => keepsStart_memWrite.bind fun _ => install
    | some oldact => exact keepsStart_memWrite.bind fun _ => install

theorem keepsStart_sysRtSigprocmask : KeepsStart (sysRtSigprocmask sctx) := by
  refine .ite (within_pure _) (keepsStart_hostAlloc.bind fun _ => within_get.bind fun vk => ?_)
  refine .ite (keepsStart_memWrite.bind fun _ => ?_) ?_
  -- both ways go on to merge the new mask
  all_goals
    refine .ite (within_pure _) (keepsStart_memRead.bind fun newMask => ?_)
    cases mergeSigmask (sctx.arg0.setWidth 32)
        (resizeSigmask vk.guestRtSigmask sctx.arg3.toNat) newMask with
    | none => exact within_pure _
    | some merged => exact .bind (keepsStart_modify fun _ => rfl) fun _ => within_pure _

theorem keepsStart_sysPrctl : KeepsStart (sysPrctl sctx) := by
  refine within_get.bind fun vk => ?_
  refine .ite (.ite (within_pure _) ?_) ?_
  · exact keepsStart_memRead.bind fun _ => .bind (keepsStart_modify fun _ => rfl) fun _ =>
      within_pure _
  refine .ite (.ite (within_pure _) (keepsStart_memWrite.bind fun _ => within_pure _)) ?_
  refine .ite (.bind (keepsStart_modify fun _ => rfl) fun _ => within_pure _) ?_
  refine .ite (.ite (within_pure _) (keepsStart_memWrite.bind fun _ => within_pure _)) ?_
  refine .ite (.bind (keepsStart_modify fun _ => rfl) fun _ => within_pure _) ?_
  refine .ite (within_pure _) (.ite ((keepsStart_hostCall _).bind fun result => ?_) ?_)
  · cases result with
    | error e => exact keepsStart_lastErrno
    | ok ret => exact within_pure _
  · exact within_pure _

theorem keepsStart_readFd {fd : U64} {count : ℕ} : KeepsStart (readFd fd count) := by
  refine within_get.bind fun vk => .ite (.ite ?_ (.ite ?_ (within_pure _))) ?_
  · exact .bind (keepsStart_modify fun _ => rfl) fun _ => within_pure _
  all_goals
    refine (keepsStart_hostCall _).bind fun result => ?_
    cases result with
    | error e => exact keepsStart_lastErrno.bind fun _ => within_pure _
    | ok bytes => exact within_pure _

theorem keepsStart_sysRead : KeepsStart (sysRead sctx) := by
  refine .ite (within_pure _) (keepsStart_hostAlloc.bind fun _ => keepsStart_readFd.bind ?_)
  intro result
  cases result with
  | error errno => exact within_pure _
  | ok bytes => exact .ite (keepsStart_memWrite.bind fun _ => within_pure _) (within_pure _)

theorem keepsStart_readCstringLoop {addr : U64} {n : ℕ} :
    KeepsStart (readCstringLoop addr n) := by
  induction n generalizing addr with
  | zero => exact within_pure _
  | succ n ih =>
    exact keepsStart_memRead.bind fun _ => .ite (within_pure _) (ih.bind fun _ => within_pure _)

theorem keepsStart_openGuestPath {dirfd flags mode : U32} {pathPtr : U64} :
    KeepsStart (openGuestPath dirfd pathPtr flags mode) := by
  refine (keepsStart_readCstringLoop.bind fun _ => within_pure _).bind fun path => ?_
  refine (within_get.bind fun _ => within_ofOption _).bind fun hostPath => ?_
  cases hostPath with
  | none => exact within_pure _
  | some hostPath =>
    refine .ite (within_pure _) ((keepsStart_hostCall _).bind fun result => ?_)
    cases result with
    | error e => exact keepsStart_lastErrno
    | ok fd => exact keepsStart_insertFile.bind fun _ => within_pure _

theorem keepsStart_sysClose : KeepsStart (sysClose sctx) := by
  refine .ite (within_pure _) (within_get.bind fun vk => ?_)
  cases vk.fdTable.lookup sctx.arg0 with
  | some vkf =>
    exact .bind (keepsStart_modify fun _ => rfl) fun _ => (keepsStart_hostCall _).bind fun _ =>
      within_pure _
  | none =>
    refine (keepsStart_hostCall _).bind fun result => ?_
    cases result with
    | error e => exact keepsStart_lastErrno
    | ok u => exact within_pure _

theorem keepsStart_sysDup : KeepsStart (sysDup sctx) := by
  refine .ite (within_pure _) (.ite ?_ (within_get.bind fun vk => ?_))
  · refine (keepsStart_hostCall _).bind fun result => ?_
    cases result with
    | error e => exact keepsStart_lastErrno
    | ok fd => exact within_pure _
  cases vk.fdTable.lookup ((sctx.arg0.setWidth 32).signExtend 64) with
  | none => exact within_pure _
  | some vkf =>
    refine (keepsStart_hostCall _).bind fun result => ?_
    cases result with
    | error e => exact keepsStart_lastErrno
    | ok file => exact keepsStart_insertFile.bind fun _ => within_pure _

theorem keepsStart_setReg {reg : VRegister} {value : U64} : KeepsStart (VRegs.setReg reg value) :=
  within_get.bind fun _ => .ite (keepsStart_modify fun _ => rfl) (within_throw _)

theorem keepsStart_getReg {reg : VRegister} : KeepsStart (VRegs.getReg reg) :=
  within_get.bind fun _ => .ite (within_pure _) (within_throw _)

theorem keepsStart_sysArchPrctl : KeepsStart (sysArchPrctl sctx) := by
  refine within_get.bind fun vk => .ite (within_pure _) ?_
  refine .ite (keepsStart_setReg.bind fun _ => within_pure _) ?_
  refine .ite (keepsStart_setReg.bind fun _ => within_pure _) ?_
  refine .ite ?_ (.ite ?_ (within_pure _))
  all_goals
    exact keepsStart_getReg.bind fun _ => keepsStart_memWrite.bind fun _ => within_pure _

theorem SameStart.of_memCall {c : MemCall} (does : c.Does vk vk') : SameStart vk vk' := by
  obtain ⟨vk₁, starts, grown⟩ := does.edits
  have first : SameStart vk vk₁ := by
    cases starts with
    | nothing => rfl
    | search => exact VMemory.heapAddrStart_removeRange
    | replace => exact VMemory.heapAddrStart_removeRange
    | unmap => exact VMemory.heapAddrStart_removeRange
    | protect => rfl
  have rest : Relation.ReflTransGen SameStart vk₁ vk' := by
    refine Relation.ReflTransGen.mono (fun a b grows => ?_) _ _ grown
    cases grows with
    | map => rfl
    | keep _ start _ => exact start
  exact (SameStart.chain rest).trans first

/-! ## Sequences of inputs -/

/-- The system calls besides those on the memory map. -/
inductive SysCall where
  | archPrctl | exit | exitGroup | rtSigaction | rtSigprocmask | prctl
  | read | open | openat | close | dup

/-- The handler of the call. -/
def SysCall.handler : SysCall → SubCtx → VkM U64
  | .archPrctl => sysArchPrctl
  | .exit => sysExit
  | .exitGroup => sysExitGroup
  | .rtSigaction => sysRtSigaction
  | .rtSigprocmask => sysRtSigprocmask
  | .prctl => sysPrctl
  | .read => sysRead
  | .open => sysOpen
  | .openat => sysOpenat
  | .close => sysClose
  | .dup => sysDup

theorem SysCall.keepsStart (c : SysCall) (sctx : SubCtx) : KeepsStart (c.handler sctx) := by
  cases c with
  | archPrctl => exact keepsStart_sysArchPrctl
  | exit => exact keepsStart_sysExit
  | exitGroup => exact keepsStart_sysExit
  | rtSigaction => exact keepsStart_sysRtSigaction
  | rtSigprocmask => exact keepsStart_sysRtSigprocmask
  | prctl => exact keepsStart_sysPrctl
  | read => exact keepsStart_sysRead
  | «open» => exact keepsStart_openGuestPath
  | openat => exact keepsStart_openGuestPath
  | close => exact keepsStart_sysClose
  | dup => exact keepsStart_sysDup

/-- A step of a reusable emulator: the preparation of an input, which may fail, then the guest with
its instructions and system calls, and the end of its run. -/
inductive InputStep (snapshot : EmulatorSnapshot) : Valkyrie → Valkyrie → Prop
  | prepare {vk vk' : Valkyrie} {input : List U8} {r : Except ValkyrieError Unit} :
      (prepareInput snapshot input).Ends vk r vk' → InputStep snapshot vk vk'
  | start {vk : Valkyrie} : InputStep snapshot vk { vk with vstate := .running }
  | guest {vk : Valkyrie} (uc : Unicorn) : InputStep snapshot vk (vk.withUc uc)
  | memory {vk vk' : Valkyrie} {c : MemCall} : c.Does vk vk' → InputStep snapshot vk vk'
  | call {vk vk' : Valkyrie} {c : SysCall} {sctx : SubCtx} {r : Except ValkyrieError U64} :
      (c.handler sctx).Ends vk r vk' → InputStep snapshot vk vk'
  | result {vk : Valkyrie} (reg : VRegister) (value : U64) :
      InputStep snapshot vk (vk.withReg reg value)
  | stop {vk : Valkyrie} (crashed : Bool) :
      InputStep snapshot vk { vk with vstate := .ended, crashed := vk.crashed || crashed }

/-- Any number of previous inputs. -/
def InputRun (snapshot : EmulatorSnapshot) : Valkyrie → Valkyrie → Prop :=
  Relation.ReflTransGen (InputStep snapshot)

theorem keepsStart_prepareInput : KeepsStart (prepareInput snapshot input) := by
  have layout : KeepsStart (restoreMemoryLayout snapshot.regions) :=
    layoutOnly_restoreMemoryLayout.mono fun _ _ => LayoutOnly.sameStart
  refine .bind (layout.bind fun _ => ?_) fun _ => keepsStart_modify fun _ => rfl
  exact (within_forM _ fun _ => keepsStart_memWrite).bind fun _ => keepsStart_modify fun _ => rfl

theorem SameStart.step (step : InputStep snapshot vk vk') : SameStart vk vk' := by
  cases step with
  | prepare ends => exact .chain (keepsStart_prepareInput _ _ _ ends)
  | start => rfl
  | guest uc => rfl
  | memory does => exact .of_memCall does
  | call ends => exact .chain (SysCall.keepsStart _ _ _ _ _ ends)
  | result reg value => rfl
  | stop crashed => rfl

theorem SameStart.run (run : InputRun snapshot vk vk') : SameStart vk vk' :=
  .chain (Relation.ReflTransGen.mono (fun _ _ => SameStart.step) _ _ run)

/-! ## What the handlers find -/

/-- The state that the handlers consult. -/
structure GuestView where
  heapAddrStart : U64
  heapAddrExit : U64
  rtSigactions : AList fun _ : U32 => List U8
  rtSigmask : List U8
  prctlName : Vector U8 16
  pdeathsig : U32
  dumpable : U32
  linuxCreds : LinuxCreds
  stdinData : List U8
  stdinOffset : ℕ
  exitStatus : Option U64
  crashed : Bool
  hasFd : U64 → Bool

/-- Whether a guest descriptor is in the table. -/
def Valkyrie.hasFd (vk : Valkyrie) (fd : U64) : Bool := (vk.fdTable.lookup fd).isSome

/-- What the guest can see. -/
def Valkyrie.view (vk : Valkyrie) : GuestView where
  heapAddrStart := vk.mem.heapAddrStart
  heapAddrExit := vk.mem.heapAddrExit
  rtSigactions := vk.guestRtSigactions
  rtSigmask := vk.guestRtSigmask
  prctlName := vk.guestPrctlName
  pdeathsig := vk.guestPdeathsig
  dumpable := vk.guestDumpable
  linuxCreds := vk.linuxCreds
  stdinData := vk.cfg.stdinData
  stdinOffset := vk.stdinOffset
  exitStatus := vk.exitStatus
  crashed := vk.crashed
  hasFd := vk.hasFd

/-- What the handlers find after the preparation of an input: the heap and the descriptors of the
state before it, and the rest from the snapshot, the input and the reset. -/
theorem view_prepareInput (ends : (prepareInput snapshot input).Ends vk (.ok ()) vk') :
    vk'.view =
      { heapAddrStart := vk.mem.heapAddrStart
        heapAddrExit := vk.mem.heapAddrExit
        rtSigactions := snapshot.guestRtSigactions
        rtSigmask := snapshot.guestRtSigmask
        prctlName := snapshot.guestPrctlName
        pdeathsig := snapshot.guestPdeathsig
        dumpable := snapshot.guestDumpable
        linuxCreds := snapshot.linuxCreds
        stdinData := input
        stdinOffset := 0
        exitStatus := none
        crashed := false
        hasFd := vk.hasFd } := by
  obtain ⟨_, vk₁, restore, last⟩ := ends_bind_ok.1 ends
  obtain ⟨-, rfl⟩ := ends_modify.1 last
  obtain ⟨_, vk₂, layout, rest⟩ := ends_bind_ok.1 restore
  obtain ⟨_, vk₃, writes, last⟩ := ends_bind_ok.1 rest
  obtain ⟨-, rfl⟩ := ends_modify.1 last
  have first : LayoutOnly vk vk₂ := .chain (layoutOnly_restoreMemoryLayout _ _ _ layout)
  have second : LayoutOnly vk₂ vk₃ :=
    .chain (within_forM _ (fun _ => layoutOnly_memWrite) _ _ _ writes)
  rw [second, first]
  rfl

/-! ## The exact condition -/

/-- A heap of one page. -/
def smallHeap : Valkyrie := .ofMemory .x86_64 ⟨[], 0x1000, 0x1000⟩

/-- After an input whose run moved the program break, the next input finds it moved. -/
theorem break_leaks : ¬ ∀ (vk vk₀ vk₁ t₀ t₁ : Valkyrie) (snapshot : EmulatorSnapshot)
    (input : List U8), captureSnapshot.Ends vk (.ok snapshot) vk₀ → InputRun snapshot vk₀ vk₁ →
      (prepareInput snapshot input).Ends vk₀ (.ok ()) t₀ →
      (prepareInput snapshot input).Ends vk₁ (.ok ()) t₁ → t₁.view = t₀.view := by
  intro isolated
  have does : ∃ snapshot vk₀ vk₁ t₁, captureSnapshot.Ends smallHeap (.ok snapshot) smallHeap ∧
      (prepareInput snapshot []).Ends smallHeap (.ok ()) vk₀ ∧
      (MemCall.brk ⟨0x2000, 0, 0, 0, 0, 0⟩).Does vk₀ vk₁ ∧
      (prepareInput snapshot []).Ends vk₁ (.ok ()) t₁ ∧
      vk₀.mem.heapAddrExit = 0x1000 ∧ t₁.mem.heapAddrExit = 0x2000 :=
    ⟨_, _, _, _, rfl, rfl, ⟨_, rfl⟩, rfl, rfl, rfl⟩
  obtain ⟨snapshot, vk₀, vk₁, t₁, capture, first, brk, next, before, after⟩ := does
  have run : InputRun snapshot smallHeap vk₁ := .tail (.single (.prepare first)) (.memory brk)
  have same := isolated _ _ _ _ _ _ _ capture run first next
  have exits := congrArg GuestView.heapAddrExit same
  have told : t₁.mem.heapAddrExit = vk₀.mem.heapAddrExit := exits
  rw [before, after] at told
  exact absurd told (by decide)

/-- After any number of inputs, the handlers find on the next one what they would find on a first
one exactly when the runs before left the program break and the set of guest descriptors as they
were. -/
theorem isolated_iff {t₀ t₁ : Valkyrie} (run : InputRun snapshot vk₀ vk₁)
    (first : (prepareInput snapshot input).Ends vk₀ (.ok ()) t₀)
    (next : (prepareInput snapshot input).Ends vk₁ (.ok ()) t₁) :
    t₁.view = t₀.view ↔
      vk₁.mem.heapAddrExit = vk₀.mem.heapAddrExit ∧ ∀ fd, vk₁.hasFd fd = vk₀.hasFd fd := by
  have start : vk₁.mem.heapAddrStart = vk₀.mem.heapAddrStart := SameStart.run run
  rw [view_prepareInput next, view_prepareInput first]
  constructor
  · intro same
    exact ⟨congrArg GuestView.heapAddrExit same, congrFun (congrArg GuestView.hasFd same)⟩
  · rintro ⟨exits, fds⟩
    rw [start, exits, funext fds]

/-- A break that moves forth and back, a signal action and the dumpable flag leave nothing behind. -/
theorem isolated_iff_smallHeap : ∃ snapshot vk₁ t₀ t₁,
    captureSnapshot.Ends smallHeap (.ok snapshot) smallHeap ∧
      InputRun snapshot smallHeap vk₁ ∧ vk₁.guestDumpable = 0 ∧
      (vk₁.guestRtSigactions.lookup 10).isSome ∧
      (prepareInput snapshot [1]).Ends smallHeap (.ok ()) t₀ ∧
      (prepareInput snapshot [1]).Ends vk₁ (.ok ()) t₁ ∧ t₁.view = t₀.view := by
  have does : ∃ snapshot s₁ s₂ s₃ s₄ s₅ t₀ t₁,
      captureSnapshot.Ends smallHeap (.ok snapshot) smallHeap ∧
      (prepareInput snapshot [7]).Ends smallHeap (.ok ()) s₁ ∧
      (sysBrk ⟨0x2000, 0, 0, 0, 0, 0⟩).Ends s₁ (.ok 0x2000) s₂ ∧
      (SysCall.rtSigaction.handler ⟨10, 0x1000, 0, 8, 0, 0⟩).Ends s₂ (.ok 0) s₃ ∧
      (SysCall.prctl.handler ⟨4, 0, 0, 0, 0, 0⟩).Ends s₃ (.ok 0) s₄ ∧
      (sysBrk ⟨0x1000, 0, 0, 0, 0, 0⟩).Ends s₄ (.ok 0x1000) s₅ ∧
      (prepareInput snapshot [1]).Ends smallHeap (.ok ()) t₀ ∧
      (prepareInput snapshot [1]).Ends s₅ (.ok ()) t₁ ∧ s₅.guestDumpable = 0 ∧
      (s₅.guestRtSigactions.lookup 10).isSome ∧
      s₅.mem.heapAddrExit = smallHeap.mem.heapAddrExit ∧ s₅.fdTable = smallHeap.fdTable :=
    ⟨_, _, _, _, _, _, _, _, rfl, rfl, rfl, rfl, rfl, rfl, rfl, rfl, rfl, rfl, rfl, rfl⟩
  obtain ⟨snapshot, s₁, s₂, s₃, s₄, s₅, t₀, t₁, capture, prepare, grow, sigaction, prctl, shrink,
    first, next, dumpable, action, exits, fds⟩ := does
  have start : InputRun snapshot smallHeap s₂ :=
    .tail (.single (.prepare prepare))
      (@InputStep.memory _ _ _ (.brk ⟨0x2000, 0, 0, 0, 0, 0⟩) ⟨_, grow⟩)
  have run : InputRun snapshot smallHeap s₅ :=
    ((start.tail (.call sigaction)).tail (.call prctl)).tail
      (@InputStep.memory _ _ _ (.brk ⟨0x1000, 0, 0, 0, 0, 0⟩) ⟨_, shrink⟩)
  refine ⟨snapshot, s₅, t₀, t₁, capture, run, dumpable, action, first, next,
    (isolated_iff run first next).2 ⟨exits, fun fd => ?_⟩⟩
  rw [Valkyrie.hasFd, fds]
  rfl

end ValkyrieRs

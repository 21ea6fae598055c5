import ValkyrieRs.Proof.FreshSnapshot
import ValkyrieRs.Proof.Lifecycle
import ValkyrieRs.Proof.ProcessName

/-!
# Invariants of whole runs

What holds in every state of a run of system calls, stores and computations: the bookkeeping of the
heap, of the input and of the process name stays in bounds, and the list of regions mirrors the
engine as long as the mappings edit both alike.  A handler that owns none of the components
concerned keeps an invariant; only the others are looked at.
-/

namespace ValkyrieRs

open Proc

variable {s s' vk vk' : Valkyrie} {steps : List SystemStep} {step : SystemStep} {sctx : SubCtx}
  {r : Except ValkyrieError U64}

/-! ## Bookkeeping -/

/-- The break is not below the heap, the input is not read past its end, and the process name ends
within its 16 bytes. -/
structure Valkyrie.Sound (vk : Valkyrie) : Prop where
  heap : vk.mem.heapAddrStart ≤ vk.mem.heapAddrExit
  stdin : vk.stdinOffset ≤ vk.cfg.stdinData.length
  name : vk.guestPrctlName[15] = 0

theorem heap_of_sysBrk (run : (sysBrk sctx).Ends vk r vk')
    (h : vk.mem.heapAddrStart ≤ vk.mem.heapAddrExit) :
    vk'.mem.heapAddrStart ≤ vk'.mem.heapAddrExit := by
  obtain ⟨-, -, rfl⟩ | ⟨accepted, ⟨-, -, rfl⟩ | ⟨-, ⟨uc, -, -, rfl⟩ | ⟨e, -, -, rfl⟩⟩⟩ :=
    ends_sysBrk.1 run
  · exact h
  · exact not_lt.1 fun low => accepted (.inr (.inl low))
  · exact not_lt.1 fun low => accepted (.inr (.inl low))
  · exact h

/-- The input and what is read of it are as they were. -/
def SameInput (s t : Valkyrie) : Prop := t.stdinOffset = s.stdinOffset ∧ t.cfg = s.cfg

theorem SameInput.stdin (h : SameInput vk vk')
    (le : vk.stdinOffset ≤ vk.cfg.stdinData.length) : vk'.stdinOffset ≤ vk'.cfg.stdinData.length := by
  rw [h.1, h.2]
  exact le

theorem sameInput_of_within {α : Type} {m : VkM α} {r : Except ValkyrieError α}
    (h : m.Within SameInput) (run : m.Ends vk r vk') : SameInput vk vk' :=
  h.keeps (I := SameInput vk) (fun _ _ step here => ⟨step.1.trans here.1, step.2.trans here.2⟩)
    run ⟨rfl, rfl⟩

theorem sameInput_hostRead (call : Host → Except U32 (List U8) × Host) : (do
    match ← hostCall call with
    | .ok bytes => return .ok bytes
    | .error _ => return .error (← lastErrno) : VkM (Except U64 (List U8))).Within SameInput := by
  refine (within_hostCall (fun _ _ => ⟨rfl, rfl⟩) call).bind fun result => ?_
  cases result with
  | ok bytes => exact within_pure _
  | error e => exact within_lastErrno.bind fun _ => within_pure _

theorem stdin_of_readFd {fd : U64} {count : ℕ} {r : Except ValkyrieError (Except U64 (List U8))}
    (run : (readFd fd count).Ends vk r vk') (h : vk.stdinOffset ≤ vk.cfg.stdinData.length) :
    vk'.stdinOffset ≤ vk'.cfg.stdinData.length := by
  rw [readFd, ends_bind_get] at run
  split_ifs at run with stdin more empty
  · cases run
    show vk.stdinOffset + ((vk.cfg.stdinData.drop vk.stdinOffset).take count).length ≤
      vk.cfg.stdinData.length
    rw [List.length_take, List.length_drop]
    omega
  · exact (sameInput_of_within (sameInput_hostRead _) run).stdin h
  · rw [(ends_pure.1 run).2]
    exact h
  · exact (sameInput_of_within (sameInput_hostRead _) run).stdin h

theorem stdin_of_sysRead (run : (sysRead sctx).Ends vk r vk')
    (h : vk.stdinOffset ≤ vk.cfg.stdinData.length) :
    vk'.stdinOffset ≤ vk'.cfg.stdinData.length := by
  rw [sysRead] at run
  split_ifs at run
  · rw [(ends_pure.1 run).2]
    exact h
  · obtain ⟨-, run⟩ := ends_bind_hostAlloc.1 run
    rcases ends_bind.1 run with ⟨e, failed, -⟩ | ⟨result, t, read, rest⟩
    · exact stdin_of_readFd failed h
    · have kept := stdin_of_readFd read h
      cases result with
      | error errno =>
        rw [(ends_pure.1 rest).2]
        exact kept
      | ok bytes =>
        refine SameInput.stdin (sameInput_of_within ?_ rest) kept
        dsimp only
        split_ifs
        · exact (within_memWrite fun _ _ => ⟨rfl, rfl⟩).bind fun _ => within_pure _
        · exact within_pure _

theorem prctlName_last (bytes : List U8) : (prctlName bytes)[15] = 0 := by
  unfold prctlName
  rw [Vector.getElem_ofFn, if_neg]
  exact not_lt.2 (min_le_right _ _)

/-- The name ends within its bytes, if it did. -/
def KeepsNameEnd (s t : Valkyrie) : Prop := s.guestPrctlName[15] = 0 → t.guestPrctlName[15] = 0

theorem keepsNameEnd_sysPrctl : (sysPrctl sctx).Within KeepsNameEnd := by
  have write {addr : U64} {data : List U8} : (memWrite addr data).Within KeepsNameEnd :=
    within_memWrite fun _ _ h => h
  refine within_get.bind fun vk => .ite (.ite (within_pure _) (within_memRead.bind fun bytes => ?_)) ?_
  · exact .bind (within_modify fun _ _ => prctlName_last bytes) fun _ => within_pure _
  refine .ite (.ite (within_pure _) (write.bind fun _ => within_pure _)) ?_
  refine .ite (.bind (within_modify fun _ h => h) fun _ => within_pure _) ?_
  refine .ite (.ite (within_pure _) (write.bind fun _ => within_pure _)) ?_
  refine .ite (.bind (within_modify fun _ h => h) fun _ => within_pure _) ?_
  refine .ite (within_pure _) (.ite ?_ (within_pure _))
  refine (within_hostCall (fun _ _ h => h) _).bind fun result => ?_
  cases result with
  | ok ret => exact within_pure _
  | error e => exact within_lastErrno

theorem name_of_sysPrctl (run : (sysPrctl sctx).Ends vk r vk') (h : vk.guestPrctlName[15] = 0) :
    vk'.guestPrctlName[15] = 0 :=
  Within.keeps (I := KeepsNameEnd vk) keepsNameEnd_sysPrctl
    (fun _ _ step here start => step (here start)) run id h

/-- An invariant of a component that one handler owns, and of the settings, holds in every state of a
run when that handler keeps it. -/
theorem invariant_of_owner {P : Valkyrie → Prop} (c : Component) (owner : SysFn)
    (emulators : c.Emulators) (owned : ∀ f : SysFn, c ∈ f.owned → f = owner)
    (depends : ∀ u v, v.settings = u.settings → c.Same u v → P u → P v)
    (keeps : ∀ sv sctx u r v, (sysHandlers sv owner sctx).Ends u r v → P u → P v)
    (run : SystemRun s steps s') (sameArch : s.arch.regs.arch = s.cfg.arch) (start : P s) :
    P s' := by
  refine invariant_of_run (Q := fun _ => True) [c] ?_ ?_ ?_ run (fun _ _ => trivial) sameArch start
  · intro d hd
    rw [List.mem_singleton.1 hd]
    exact emulators
  · intro u v settings same h
    exact depends u v settings (same c List.mem_cons_self) h
  · rintro step sv f r v - - ⟨d, hd, mine⟩ ran h
    rw [List.mem_singleton.1 hd] at mine
    rw [owned f mine] at ran
    exact keeps sv _ _ r v ran h

theorem heap_of_run (run : SystemRun s steps s') (sameArch : s.arch.regs.arch = s.cfg.arch)
    (start : s.mem.heapAddrStart ≤ s.mem.heapAddrExit) :
    s'.mem.heapAddrStart ≤ s'.mem.heapAddrExit := by
  refine invariant_of_owner (P := fun u => u.mem.heapAddrStart ≤ u.mem.heapAddrExit)
    .heapBreak .sysBrk trivial (fun f owned => ?_) (fun u v settings same h => ?_)
    (fun _ _ _ _ _ ran => heap_of_sysBrk ran) run sameArch start
  · cases f <;> simp [SysFn.owned] at owned ⊢
  · have begins : v.mem.heapAddrStart = u.mem.heapAddrStart :=
      congrArg Settings.heapAddrStart settings
    have stops : v.mem.heapAddrExit = u.mem.heapAddrExit := same
    rw [begins, stops]
    exact h

theorem stdin_of_run (run : SystemRun s steps s') (sameArch : s.arch.regs.arch = s.cfg.arch)
    (start : s.stdinOffset ≤ s.cfg.stdinData.length) :
    s'.stdinOffset ≤ s'.cfg.stdinData.length := by
  refine invariant_of_owner (P := fun u => u.stdinOffset ≤ u.cfg.stdinData.length)
    .stdinOffset .sysRead trivial (fun f owned => ?_) (fun u v settings same h => ?_)
    (fun _ _ _ _ _ ran => stdin_of_sysRead ran) run sameArch start
  · cases f <;> simp [SysFn.owned] at owned ⊢
  · exact SameInput.stdin ⟨same, congrArg Settings.cfg settings⟩ h

theorem name_of_run (run : SystemRun s steps s') (sameArch : s.arch.regs.arch = s.cfg.arch)
    (start : s.guestPrctlName[15] = 0) : s'.guestPrctlName[15] = 0 := by
  refine invariant_of_owner (P := fun u => u.guestPrctlName[15] = 0) .prctlName .sysPrctl trivial
    (fun f owned => ?_) (fun u v _ same h => ?_) (fun _ _ _ _ _ ran => name_of_sysPrctl ran) run
    sameArch start
  · cases f <;> simp [SysFn.owned] at owned ⊢
  · have name : v.guestPrctlName = u.guestPrctlName := same
    rw [name]
    exact h

/-- The bookkeeping stays in bounds over every run. -/
theorem sound_of_run (run : SystemRun s steps s') (sameArch : s.arch.regs.arch = s.cfg.arch)
    (start : s.Sound) : s'.Sound where
  heap := heap_of_run run sameArch start.heap
  stdin := stdin_of_run run sameArch start.stdin
  name := name_of_run run sameArch start.name

/-- A guest with code at `0x1000`, a name in it at `0x1810`, a heap at `0x10000` and three bytes of
input. -/
def boundedGuest : Valkyrie :=
  let vk := Valkyrie.ofMemory .x86_64
    ⟨[⟨0x1000, 0x1000, .all, "[code]"⟩, ⟨0x10000, 0x1000, .all, "[heap]"⟩], 0x10000, 0x11000⟩
  { vk with
    cfg.stdinData := [7, 8, 9]
    uc.bytes := fun a =>
      if a = 0x1000 then 0x0f else if a = 0x1001 then 0x05 else if InRange 0x1810 16 a then 0x61 else 0 }

/-- The heap grows, two bytes of the input are read, and the process gets a name of sixteen bytes. -/
theorem sound_of_run_brk : ∃ steps s', SystemRun boundedGuest steps s' ∧ steps.length = 3 ∧
    s'.mem.heapAddrExit = 0x13000 ∧ s'.stdinOffset = 2 ∧ s'.guestPrctlName[14] = 0x61 ∧ s'.Sound := by
  have made : ([.syscall 12 ⟨0x12800, 0, 0, 0, 0, 0⟩, .syscall 0 ⟨0, 0x1800, 2, 0, 0, 0⟩,
      .syscall 157 ⟨15, 0x1810, 0, 0, 0, 0⟩].forM (GuestAct.does 0x1000)).Ends boundedGuest
      (.ok ()) _ := ends_final (by decide +kernel)
  have run := run_of_acts .start made
  exact ⟨_, _, run, by decide +kernel, by decide +kernel, by decide +kernel, by decide +kernel,
    sound_of_run run rfl ⟨by decide, by decide, by decide⟩⟩

/-! ## The memory map -/

/-- The call of a step that edits the memory map. -/
def memCallOf (step : SystemStep) : Option MemCall :=
  match calledBy step with
  | some .sysMmap => some (.mmap step.before.subCtx)
  | some .sysMmap2 => some (.mmap2 step.before.subCtx)
  | some .sysMunmap => some (.munmap step.before.subCtx)
  | some .sysMprotect => some (.mprotect step.before.subCtx)
  | some .sysBrk => some (.brk step.before.subCtx)
  | _ => none

/-- What a memory map has from the start, and what every memory call that meets a condition keeps. -/
structure MapInvariant (Q : Valkyrie → MemCall → Prop) (P : List VMemRegion → Unicorn → Prop) : Prop
    extends MapStable P where
  step : ∀ {c : MemCall} {u v : Valkyrie}, Q u c → c.Does u v → P u.mem.regions u.uc →
    P v.mem.regions v.uc

/-- The listed regions are pages, apart from one another and mapped. -/
theorem mapInvariant_laid : MapInvariant (fun _ _ => True) Laid where
  none := ⟨nofun, .nil, nofun⟩
  map h ok := h.map ok
  congr h same := h.congr fun x => by rw [Unicorn.protAt, Unicorn.protAt, same]
  step _ does h := h.step does

/-- The list of regions mirrors the engine, as long as the mappings edit both alike. -/
theorem mapInvariant_mirrors : MapInvariant (fun u c => c.EditsBoth u) Mirrors where
  toMapStable := mapStable_mirrors
  step both does h := h.step both does

/-- An invariant of the memory map holds in every state of a run of system calls of all kinds, stores
and computations. -/
theorem MapInvariant.systemRun {Q : Valkyrie → MemCall → Prop}
    {P : List VMemRegion → Unicorn → Prop} (kept : MapInvariant Q P) (run : SystemRun s steps s')
    (meets : ∀ step ∈ steps, ∀ c, memCallOf step = some c → Q step.before c)
    (sameArch : s.arch.regs.arch = s.cfg.arch) (start : P s.mem.regions s.uc) :
    P s'.mem.regions s'.uc := by
  refine invariant_of_run (P := fun u => P u.mem.regions u.uc) [.pages, .regions]
    (by simp [Component.Emulators]) (fun u v _ same h => ?_) ?_ run meets sameArch start
  · have pages : v.uc.pages = u.uc.pages := same .pages (by decide)
    have regions : v.mem.regions = u.mem.regions := same .regions (by decide)
    rw [regions]
    exact kept.congr h pages
  · rintro step sv f r v meets called ⟨c, hc, owned⟩ ran h
    have does (call : MemCall) (found : memCallOf step = some call)
        (does : call.Does step.before v) : P v.mem.regions v.uc :=
      kept.step (meets call found) does h
    unfold memCallOf at does
    rw [called] at does
    cases f with
    | sysMmap => exact does _ rfl ⟨r, ran⟩
    | sysMmap2 => exact does _ rfl ⟨r, ran⟩
    | sysMunmap => exact does _ rfl ⟨r, ran⟩
    | sysMprotect => exact does _ rfl ⟨r, ran⟩
    | sysBrk => exact does _ rfl ⟨r, ran⟩
    | _ =>
      rcases List.mem_pair.1 hc with rfl | rfl <;> simp [SysFn.owned] at owned

end ValkyrieRs

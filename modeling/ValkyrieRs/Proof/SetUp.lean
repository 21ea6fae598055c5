import ValkyrieRs.Lib.Commute
import ValkyrieRs.Proof.Preparation

/-!
# What the set-up of a run leaves alone

The set-up neither looks at nor touches the fields that belong to one run of the guest: its input, how
much of it has been read, and how the run ended.  It maps a region or none, and otherwise keeps the
layout and the settings.
-/

namespace ValkyrieRs

open Proc

variable {α : Type} {vk vk' : Valkyrie} {i i' : Instance} {addr : U64}
  {handler : Valkyrie → U64 → U32 → Valkyrie}

/-! ## The fields of one run -/

/-- What belongs to one run of the guest. -/
structure RunFields where
  input : List U8
  vstate : VState
  exitStatus : Option U64
  crashed : Bool
  stdinOffset : ℕ

/-- A run that has read nothing of its input. -/
def RunFields.fresh (input : List U8) (vstate : VState) : RunFields := ⟨input, vstate, none, false, 0⟩

/-- The fields that a run changes. -/
def Valkyrie.runFields (vk : Valkyrie) : RunFields :=
  ⟨vk.cfg.stdinData, vk.vstate, vk.exitStatus, vk.crashed, vk.stdinOffset⟩

/-- The same emulator with other such fields. -/
def Valkyrie.withRun (vk : Valkyrie) (run : RunFields) : Valkyrie :=
  { vk with
    cfg.stdinData := run.input
    vstate := run.vstate
    exitStatus := run.exitStatus
    crashed := run.crashed
    stdinOffset := run.stdinOffset }

/-- The same instance with other such fields. -/
def Instance.withRun (i : Instance) (run : RunFields) : Instance := i.withVk (i.vk.withRun run)

/-- The procedure takes no notice of the run. -/
abbrev Blind (run : RunFields) (m : VkM α) : Prop := m.Commutes (·.withRun run)

variable {run : RunFields}

theorem blind_memWrite {data : List U8} : Blind run (memWrite addr data) :=
  commutes_look (fun _ => rfl) fun _ => (commutes_ofExcept _).bind fun _ =>
    commutes_modify fun _ => rfl

theorem blind_memMap {size : U64} {prot : Prot} {info : String} :
    Blind run (memMap addr size prot info) :=
  commutes_look (fun _ => rfl) fun _ => (commutes_ofExcept _).bind fun _ =>
    commutes_modify fun _ => rfl

theorem blind_ucMemWrite {data : List U8} : Blind run (ucMemWrite addr data) := by
  refine commutes_look (fun _ => rfl) fun vk => ?_
  split
  · exact commutes_throw _
  · exact commutes_modify fun _ => rfl

theorem blind_getReg {reg : VRegister} : Blind run (VRegs.getReg reg) :=
  commutes_look (fun _ => rfl) fun _ => .ite (commutes_pure _) (commutes_throw _)

theorem blind_setReg {reg : VRegister} {value : U64} :
    Blind run (VRegs.setReg reg value) :=
  commutes_look (fun _ => rfl) fun _ => .ite (commutes_modify fun _ => rfl) (commutes_throw _)

theorem blind_zeroFillLoop {fuel : ℕ} {len : U64} :
    Blind run (zeroFillLoop fuel addr len) := by
  induction fuel generalizing addr len with
  | zero => exact commutes_diverge
  | succ fuel ih =>
    refine .ite (commutes_look (fun _ => rfl) fun _ => ?_) (commutes_pure _)
    exact (commutes_ofExcept _).bind fun _ => .bind (commutes_modify fun _ => rfl) fun _ => ih

theorem blind_zeroFill {len : U64} : Blind run (zeroFill addr len) := blind_zeroFillLoop

theorem blind_x86WriteGdtEntry {entryNumber : U32} {descriptor : List U8} :
    Blind run (x86WriteGdtEntry entryNumber descriptor) :=
  commutes_look (fun _ => rfl) fun _ => blind_memWrite

theorem x86GdtAddr_withRun : x86GdtAddr (vk.withRun run) = x86GdtAddr vk := rfl

theorem blind_setupTlsI386 : Blind run setupTlsI386 := by
  refine commutes_look (fun _ => by simp only [x86GdtAddr_withRun]) fun _ =>
    blind_zeroFill.bind fun _ => ?_
  refine (commutes_pure _).bind fun _ => blind_x86WriteGdtEntry.bind fun _ => ?_
  refine blind_x86WriteGdtEntry.bind fun _ => blind_x86WriteGdtEntry.bind fun _ => ?_
  exact blind_x86WriteGdtEntry

theorem blind_setupTlsMinimal : Blind run setupTlsMinimal := by
  refine commutes_look (fun _ => rfl) fun vk => blind_memMap.bind fun _ => ?_
  cases vk.cfg.arch with
  | x86 => exact blind_setupTlsI386
  | x86_64 => exact blind_setReg

theorem blind_pushArgs {args : List (List U8)} {acc : U64 × List U64} :
    Blind run (args.foldlM pushArg acc) := by
  induction args generalizing acc with
  | nil => exact commutes_pure _
  | cons arg args ih =>
    rw [List.foldlM_cons]
    refine Commutes.bind ?_ fun _ => ih
    exact blind_ucMemWrite.bind fun _ => blind_ucMemWrite.bind fun _ => commutes_pure _

theorem blind_writeFrame {bits : ℕ} {frame : List (BitVec bits)} :
    Blind run (writeFrame frame addr) := by
  induction frame generalizing addr with
  | nil => exact commutes_pure _
  | cons word frame ih => exact blind_ucMemWrite.bind fun _ => ih

theorem blind_setupStackWith {bits : ℕ} {reg : VRegister} :
    Blind run (setupStackWith bits reg) := by
  refine commutes_look (fun _ => rfl) fun _ => blind_getReg.bind fun top =>
    blind_ucMemWrite.bind fun _ => commutes_look (fun _ => rfl) fun _ =>
      blind_pushArgs.bind fun pushed => ?_
  dsimp only
  split
  · exact commutes_throw _
  · exact commutes_look (fun _ => rfl) fun _ => blind_writeFrame.bind fun _ => blind_setReg

theorem blind_setupStack : Blind run setupStack := by
  refine commutes_look (fun _ => rfl) fun vk => ?_
  cases vk.cfg.arch with
  | x86 => exact blind_setupStackWith
  | x86_64 => exact blind_setupStackWith

theorem blind_setupX86EntryStub : Blind run setupX86EntryStub := by
  refine commutes_look (fun _ => rfl) fun vk => ?_
  dsimp only
  split
  · exact commutes_throw _
  · exact blind_memWrite.bind fun _ => commutes_pure _

/-- The preparation of the execution takes no notice of the run, but that it makes it running. -/
theorem blind_prepareExecution (running : run.vstate = .running) : Blind run prepareExecution := by
  obtain ⟨input, vstate, exitStatus, crashed, stdinOffset⟩ := run
  cases running
  refine commutes_look (fun _ => rfl) fun vk => ?_
  cases vk.cfg.os with
  | bareMetal =>
    refine .bind (commutes_modify fun _ => rfl) fun _ => commutes_look (fun _ => rfl) fun vk => ?_
    dsimp only
    split
    · refine .bind (commutes_modify fun _ => rfl) fun _ => ?_
      exact commutes_look (fun _ => rfl) fun _ => commutes_pure _
    · exact commutes_look (fun _ => rfl) fun _ => commutes_pure _
  | linux =>
    refine blind_setupTlsMinimal.bind fun _ => blind_setupStack.bind fun _ =>
      commutes_look (fun _ => rfl) fun vk => ?_
    cases vk.cfg.arch with
    | x86 => exact blind_setupX86EntryStub.bind fun _ => commutes_pure _
    | x86_64 => exact (commutes_pure _).bind fun _ => commutes_pure _

theorem commutes_onVk {m : VkM α} (h : Blind run m) :
    (onVk m).Commutes (·.withRun run) :=
  h.zoom (fun _ => rfl) fun _ _ => rfl

/-- The hooks take no notice of the run. -/
theorem commutes_installSyscall :
    (installSyscall handler).Commutes (·.withRun run) := by
  refine commutes_look (fun _ => rfl) fun i => .ite (commutes_pure _) ?_
  refine Commutes.bind ?_ fun _ => commutes_pure _
  have registry := @commutes_id _ _ _ (VCoreHooks.hookCode (quietly handler) HookOwner.syscall 1 0)
  have hooked : (installSyscallHook handler HookOwner.syscall).Commutes
      fun h => { h with ctx := h.ctx.withRun run } :=
    registry.zoom (fun _ => rfl) fun _ _ => rfl
  exact hooked.zoom (fun _ => rfl) fun _ _ => rfl

theorem commutes_addTrapHook : (addTrapHook addr).Commutes (·.withRun run) := by
  refine commutes_look (fun _ => rfl) fun i => .bind (commutes_modify fun _ => rfl) fun _ => ?_
  split
  · exact commutes_throw _
  · exact .bind (commutes_modify fun _ => rfl) fun _ => commutes_pure _

theorem commutes_setupTrap : setupTrap.Commutes (·.withRun run) := by
  refine commutes_look (fun _ => rfl) fun i => .ite (commutes_pure _) (.ite (commutes_pure _) ?_)
  exact (commutes_onVk blind_memMap).bind fun _ => commutes_addTrapHook.bind fun _ =>
    commutes_modify fun _ => rfl

theorem commutes_writeExitTrap : writeExitTrap.Commutes (·.withRun run) := by
  refine commutes_look (fun _ => rfl) fun i => .ite (commutes_pure _) ?_
  cases i.vk.exitTrapAddr with
  | none => exact commutes_throw _
  | some trapAddr =>
    exact (commutes_onVk blind_getReg).bind fun _ => .bind (commutes_modify fun _ => rfl) fun _ =>
      commutes_onVk blind_memWrite

/-- The initial preparation after the fields of the run have been reset. -/
theorem commutes_afterReset : (do
    installSyscall handler
    setupTrap
    writeExitTrap : InstanceM Unit).Commutes (·.withRun run) :=
  commutes_installSyscall.bind fun _ => commutes_setupTrap.bind fun _ => commutes_writeExitTrap

/-- The initial preparation resets the fields of the run. -/
theorem runFields_of_prepareInitialRun
    (ran : (prepareInitialRun handler).Ends i (.ok ()) i') :
    i'.vk.runFields = .fresh i.vk.cfg.stdinData .notSet := by
  obtain ⟨_, i₁, reset, rest⟩ := ends_bind_ok.1 ran
  obtain ⟨vk₁, forgets, rfl⟩ := ends_onVk.1 reset
  obtain ⟨-, rfl⟩ := ends_modify.1 forgets
  have kept := commutes_afterReset.fixed (f := (·.withRun (.fresh i.vk.cfg.stdinData .notSet)))
    rfl rest
  exact congrArg (fun i => i.vk.runFields) kept.symm

/-- The preparation of an execution keeps the fields of a running run. -/
theorem runFields_of_prepareExecution {r : Except ValkyrieError (U64 × U64)}
    (running : vk.vstate = .running) (ran : prepareExecution.Ends vk r vk') :
    vk'.runFields = vk.runFields := by
  have kept := (@blind_prepareExecution vk.runFields running).fixed rfl ran
  show vk'.runFields = (vk'.withRun vk.runFields).runFields
  rw [kept]

/-! ## The layout -/

/-- A region has been mapped or none, and the layout and the settings are otherwise the same. -/
def LaysOut (vk vk' : Valkyrie) : Prop := SameLayout vk vk' ∨ ∃ region, Adds region vk vk'

theorem LaysOut.settings (h : LaysOut vk vk') : SameSettings vk vk' := by
  rcases h with layout | ⟨region, uc, ok, layout⟩
  · exact layout.settings
  · obtain ⟨cfg, arch, stackSize, heapSize, argv⟩ := layout.settings
    exact ⟨cfg, arch, stackSize, heapSize, argv⟩

theorem LaysOut.stored {vk₁ : Valkyrie} (h : LaysOut vk vk₁) (stored : Stored vk₁ vk') :
    LaysOut vk vk' := by
  rcases h with layout | ⟨region, uc, ok, layout⟩
  · exact .inl (layout.trans stored.sameLayout)
  · exact .inr ⟨region, uc, ok, layout.trans stored.sameLayout⟩

theorem laysOut_of_setupTrap (ran : setupTrap.Ends i (.ok ()) i') : LaysOut i.vk i'.vk := by
  by_cases skip : i.skipExitCheck = true
  · rw [(exitTrap_skipped skip).1.1 ran]
    exact .inl ⟨rfl, rfl, rfl, .refl⟩
  cases set : i.vk.exitTrapAddr with
  | none =>
    obtain ⟨uc, id, ok, same, -⟩ := setupTrap_ok set (Bool.not_eq_true _ ▸ skip) ran
    rw [same]
    exact .inr ⟨trapRegion i.vk.mem.regions, uc, ok, rfl, rfl, rfl, rfl, rfl, rfl, rfl, rfl⟩
  | some trapAddr =>
    rw [setupTrap, ends_bind_get, if_pos (by rw [set]; rfl)] at ran
    rw [(ends_pure.1 ran).2]
    exact .inl ⟨rfl, rfl, rfl, .refl⟩

/-- The initial preparation maps the page of the exit trap, if any. -/
theorem laysOut_of_prepareInitialRun (ran : (prepareInitialRun handler).Ends i (.ok ()) i') :
    LaysOut i.vk.reset i'.vk := by
  obtain ⟨_, i₁, reset, ran⟩ := ends_bind_ok.1 ran
  obtain ⟨_, i₂, hook, ran⟩ := ends_bind_ok.1 ran
  obtain ⟨_, i₃, trap, written⟩ := ends_bind_ok.1 ran
  obtain ⟨vk₁, forgets, rfl⟩ := ends_onVk.1 reset
  obtain ⟨-, rfl⟩ := ends_modify.1 forgets
  obtain ⟨hooked, -, same, -⟩ := installSyscall_ok hook
  obtain ⟨vk', initialSp, stored, rfl⟩ := writeExitTrap_ok written
  have mapped := laysOut_of_setupTrap trap
  rw [same] at mapped
  exact mapped.stored stored

/-- The preparation of an execution maps the thread-local storage of a Linux guest. -/
theorem laysOut_of_prepareExecution {range : U64 × U64}
    (ran : prepareExecution.Ends vk (.ok range) vk') : LaysOut vk vk' := by
  cases os : vk.cfg.os with
  | bareMetal =>
    obtain ⟨range', exitPoint, ends⟩ := ends_prepareExecution_bare os
    obtain ⟨-, rfl⟩ := ran.unique ends
    exact .inl ⟨rfl, rfl, rfl, rfl, rfl, rfl, rfl, rfl⟩
  | linux => exact .inr ⟨_, (prepareExecution_linux os ran).adds⟩

end ValkyrieRs

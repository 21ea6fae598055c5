import ValkyrieRs.Lib.Trace
import ValkyrieRs.Proof.Preparation

/-!
# Repeated runs

The set-up of `run` guards the exit trap of bare code against a second call, and nothing else: on Linux
every call registers one more system-call hook, and the thread-local storage that the first call has
mapped makes the second fail.  Bare code is set up cleanly again as long as it leaves its stack pointer
at mapped memory, where the exit trap is written.
-/

namespace ValkyrieRs

open Proc VCoreHooks Trace

/-- A call of `run`, up to the start of the engine. -/
def SetUpCall (handler : Valkyrie → U64 → U32 → Valkyrie)
    (step : Step Instance (Except ValkyrieError (U64 × U64))) : Prop :=
  (setUp handler).Ends step.before step.call step.after

/-- What the guest does while the engine runs.  Bare code changes memory and registers; a Linux guest
also makes system calls, of which nothing is assumed. -/
inductive Emulated : Instance → Instance → Prop where
  | bare {s : Instance} (uc : Unicorn) (vstate : VState) (crashed : Bool)
    (os : s.vk.cfg.os = .bareMetal) (pages : uc.pages = s.vk.uc.pages) :
    Emulated s (s.withVk { s.vk with uc, vstate, crashed })
  | linux {s : Instance} (vk : Valkyrie) (os : s.vk.cfg.os = .linux) (cfg : vk.cfg = s.vk.cfg) :
    Emulated s (s.withVk vk)

/-- The regions of the set-up, by their names. -/
def Instance.setUpRegions (s : Instance) : List VMemRegion :=
  s.vk.mem.regions.filter fun r => r.info ∈ ["[tls]", "[stack]", "[heap]", "[Stop guard page]"]

/-- The set-up succeeds, with one system-call hook on Linux and one exit trap on bare metal, and with
the regions that the first call has left. -/
structure CleanSetUp (first step : Step Instance (Except ValkyrieError (U64 × U64))) : Prop where
  returns : ∃ range, step.call = .ok range
  hooks : step.after.syscallHooks.length = if step.after.vk.cfg.os = .linux then 1 else 0
  trap : step.after.vk.cfg.os = .bareMetal → ∃ addr id, step.after.vk.exitTrapAddr = some addr ∧
    step.after.exitTrapHook = some id ∧ step.after.trapHooks = [(id, addr)] ∧
    ⟨addr, pageSize, .all, "[Stop guard page]"⟩ ∈ step.after.vk.mem.regions
  regions : step.after.setUpRegions = first.after.setUpRegions

/-- On Linux no earlier call has registered the system-call hook.  On bare metal, when an earlier call
has set the exit trap, the stack pointer is at mapped memory. -/
structure Instance.SetUpReady (s : Instance) : Prop where
  linux : s.vk.cfg.os = .linux → s.syscallHooks = []
  bare : s.vk.cfg.os = .bareMetal → s.vk.exitTrapAddr.isSome →
    s.vk.uc.Mapped (s.vk.regValue s.vk.cfg.arch.spReg) s.vk.cfg.arch.wordWidth

variable {s s' : Instance} {handler showInstructions : Valkyrie → U64 → U32 → Valkyrie}

/-! ## Bare metal -/

/-- Bare code has its exit trap, and its set-up has been done. -/
structure Trapped (addr : U64) (id : UcHookId) (regions : List VMemRegion) (s : Instance) :
    Prop where
  os : s.vk.cfg.os = .bareMetal
  skip : s.skipExitCheck = false
  arch : s.vk.arch.regs.arch = s.vk.cfg.arch
  set : s.vk.exitTrapAddr = some addr
  hook : s.exitTrapHook = some id
  hooks : s.trapHooks = [(id, addr)]
  silent : s.syscallHooks.length = 0
  layout : s.vk.mem.regions = regions
  page : ⟨addr, pageSize, .all, "[Stop guard page]"⟩ ∈ regions

/-- Bare code with nothing set up. -/
structure Untrapped (s : Instance) : Prop where
  os : s.vk.cfg.os = .bareMetal
  skip : s.skipExitCheck = false
  arch : s.vk.arch.regs.arch = s.vk.cfg.arch
  unset : s.vk.exitTrapAddr = none
  hooks : s.trapHooks = []
  silent : s.syscallHooks.length = 0

variable {addr : U64} {id : UcHookId} {regions : List VMemRegion} {range : U64 × U64}

theorem Untrapped.emulated (h : Untrapped s) (step : Emulated s s') : Untrapped s' := by
  cases step with
  | bare uc vstate crashed os pages => exact ⟨h.os, h.skip, h.arch, h.unset, h.hooks, h.silent⟩
  | linux vk os cfg =>
    rw [h.os] at os
    cases os

theorem Trapped.emulated (h : Trapped addr id regions s) (step : Emulated s s') :
    Trapped addr id regions s' := by
  cases step with
  | bare uc vstate crashed os pages =>
    exact ⟨h.os, h.skip, h.arch, h.set, h.hook, h.hooks, h.silent, h.layout, h.page⟩
  | linux vk os cfg =>
    rw [h.os] at os
    cases os

/-- The exit trap is written where the stack pointer is. -/
theorem Trapped.writeExitTrap (h : Trapped addr id regions s)
    (mapped : s.vk.uc.Mapped (s.vk.regValue s.vk.cfg.arch.spReg) s.vk.cfg.arch.wordWidth) :
    ∃ s', ValkyrieRs.writeExitTrap.Ends s (.ok ()) s' ∧ Trapped addr id regions s' := by
  have fits : s.vk.cfg.arch.spReg.isOf s.vk.arch.regs.arch := by
    rw [h.arch]
    exact spReg_isOf _
  have size : (toLeBytes s.vk.cfg.arch.wordWidth addr).length = s.vk.cfg.arch.wordWidth :=
    length_toLeBytes addr
  have some_ : toLeBytes s.vk.cfg.arch.wordWidth addr ≠ [] := by
    rw [← List.length_pos_iff, size]
    cases s.vk.cfg.arch <;> decide
  obtain ⟨uc, written⟩ := exists_memWrite size mapped
  have read : (onVk (VRegs.getReg s.vk.cfg.arch.spReg)).Ends s
      (.ok (s.vk.regValue s.vk.cfg.arch.spReg)) s := ends_onVk.2 ⟨_, ends_getReg fits, rfl⟩
  refine ⟨{ s with initialSp := s.vk.regValue s.vk.cfg.arch.spReg }.withVk (s.vk.withUc uc), ?_,
    ⟨h.os, h.skip, h.arch, h.set, h.hook, h.hooks, h.silent, h.layout, h.page⟩⟩
  rw [ValkyrieRs.writeExitTrap, ends_bind_get, if_neg (ne_true_of_eq_false h.skip), h.set]
  refine read.bind (ends_bind_modify.2 (ends_onVk.2 ⟨_, ?_, rfl⟩))
  exact ends_memWrite.2 (.inl ⟨uc, VMemory.write_ok_iff.2 ⟨some_, written⟩, rfl, rfl⟩)

/-- Once the trap is set, the set-up succeeds again when the stack pointer is at mapped memory. -/
theorem Trapped.setUp (h : Trapped addr id regions s) (ready : s.SetUpReady) :
    ∃ range s', (ValkyrieRs.setUp handler).Ends s (.ok range) s' ∧ Trapped addr id regions s' := by
  have h₁ : Trapped addr id regions (s.withVk s.vk.reset) :=
    ⟨h.os, h.skip, h.arch, h.set, h.hook, h.hooks, h.silent, h.layout, h.page⟩
  have hook : (installSyscall handler).Ends (s.withVk s.vk.reset) (.ok ()) (s.withVk s.vk.reset) := by
    rw [installSyscall, ends_bind_get, if_pos h₁.os]
    exact ends_pure.2 ⟨rfl, rfl⟩
  have trap : setupTrap.Ends (s.withVk s.vk.reset) (.ok ()) (s.withVk s.vk.reset) := by
    rw [setupTrap, ends_bind_get, if_pos (by rw [h₁.set]; rfl)]
    exact ends_pure.2 ⟨rfl, rfl⟩
  obtain ⟨s₃, written, h₃⟩ := h₁.writeExitTrap (ready.bare h.os (by rw [h.set]; rfl))
  have os : ({ s₃.vk with vstate := .running } : Valkyrie).cfg.os = .bareMetal := h₃.os
  obtain ⟨range, start, prepared⟩ := ends_prepareExecution_bare os
  refine ⟨range, _, setUp_ok.2 ⟨_, _, s₃, _, hook, trap, written, prepared, rfl⟩, ?_⟩
  exact ⟨h₃.os, h₃.skip, h₃.arch, h₃.set, h₃.hook, h₃.hooks, h₃.silent, h₃.layout, h₃.page⟩

/-- The first set-up sets the trap. -/
theorem Untrapped.setUp (h : Untrapped s) (run : (ValkyrieRs.setUp handler).Ends s (.ok range) s') :
    ∃ addr id, Trapped addr id s'.vk.mem.regions s' := by
  obtain ⟨id, ⟨uc, -, layout⟩, -, set, hook, hooks, silent, skip⟩ :=
    setUp_bare h.os h.unset h.skip run
  refine ⟨trapAddress s.vk.mem.regions, id, ?_, skip.trans h.skip, ?_, set, hook, ?_, ?_, rfl, ?_⟩
  · rw [layout.settings.cfg]
    exact h.os
  · rw [layout.settings.arch, layout.settings.cfg]
    exact h.arch
  · exact hooks.trans (congrArg (· ++ _) h.hooks)
  · rw [silent]
    exact h.silent
  · rw [layout.mem]
    exact List.mem_append_right _ (List.mem_singleton_self _)

/-! ## Runs -/

variable {args : NewArgs} {answers : ℕ → Option UcError} {disassemble : Bool}
  {parse : List Char → Option Binary} {s₀ : Instance}
  {first : Step Instance (Except ValkyrieError (U64 × U64))}
  {rest : List (Step Instance (Except ValkyrieError (U64 × U64)))}

/-- What a new emulator has and the guest keeps holds at the first call. -/
theorem at_first_call {I : Instance → Prop}
    (run : Trace (SetUpCall handler) Emulated s₀ (first :: rest) s) (start : I s₀)
    (emulated : ∀ s t, Emulated s t → I s → I t) :
    I first.before ∧ SetUpCall handler first ∧
      Trace (SetUpCall handler) Emulated first.after rest s := by
  have whole : Trace (SetUpCall handler) Emulated s₀ ([] ++ first :: rest) s := run
  obtain ⟨before, call, after⟩ := whole.split
  have silent : ∀ step ∈ ([] : List (Step Instance (Except ValkyrieError (U64 × U64)))), False :=
    fun step hs => List.not_mem_nil hs
  have kept := (before.restrict (P := fun _ => False) silent).keeps (I := I) start
    (fun _ made => made.2.elim) emulated
  exact ⟨kept.1, call, after⟩

/-- A trapped run stays trapped, and each of its ready calls succeeds. -/
theorem Trapped.run (h : Trapped addr id regions s₀)
    (run : Trace (SetUpCall handler) Emulated s₀ rest s)
    (ready : ∀ step ∈ rest, step.before.SetUpReady) :
    Trapped addr id regions s ∧ ∀ step ∈ rest, (∃ range, step.call = .ok range) ∧
      Trapped addr id regions step.after := by
  have succeeds : ∀ step : Step Instance (Except ValkyrieError (U64 × U64)),
      SetUpCall handler step ∧ step.before.SetUpReady → Trapped addr id regions step.before →
      (∃ range, step.call = .ok range) ∧ Trapped addr id regions step.after := by
    rintro step ⟨call, ready⟩ h
    obtain ⟨range, t, same, trapped⟩ := h.setUp ready
    obtain ⟨value, rfl⟩ := call.unique same
    exact ⟨⟨range, value⟩, trapped⟩
  have kept := (run.restrict (P := fun step => step.before.SetUpReady) ready).keeps
    (I := Trapped addr id regions) h (fun step call h => (succeeds step call h).2)
    fun _ _ moves h => h.emulated moves
  obtain ⟨last, each⟩ := kept
  exact ⟨last, fun step hs => succeeds step (each step hs).2 (each step hs).1⟩

/-- The state after a call whose set-up is clean. -/
theorem Trapped.clean {step : Step Instance (Except ValkyrieError (U64 × U64))}
    (h : Trapped addr id first.after.vk.mem.regions step.after) (returns : ∃ range, step.call = .ok range) :
    CleanSetUp first step where
  returns := returns
  hooks := by
    rw [h.silent, h.os]
    rfl
  trap _ := by
    refine ⟨addr, id, h.set, h.hook, h.hooks, ?_⟩
    rw [h.layout]
    exact h.page
  regions := by
    rw [Instance.setUpRegions, Instance.setUpRegions, h.layout]

/-- A Linux guest with its system-call hook. -/
structure HookedOnce (s : Instance) : Prop where
  os : s.vk.cfg.os = .linux
  once : s.syscallHooks.length = 1

theorem HookedOnce.emulated (h : HookedOnce s) (step : Emulated s s') : HookedOnce s' := by
  cases step with
  | bare uc vstate crashed os pages =>
    rw [h.os] at os
    cases os
  | linux vk os cfg => exact ⟨(congrArg Config.os cfg).trans h.os, h.once⟩

theorem HookedOnce.not_ready (h : HookedOnce s) : ¬ s.SetUpReady := by
  intro ready
  have once := h.once
  rw [ready.linux h.os] at once
  cases once

/-- A hooked guest is not set up again. -/
theorem HookedOnce.run (h : HookedOnce s₀) (run : Trace (SetUpCall handler) Emulated s₀ rest s)
    (ready : ∀ step ∈ rest, step.before.SetUpReady) : rest = [] ∧ HookedOnce s := by
  have kept := (run.restrict (P := fun step => step.before.SetUpReady) ready).keeps (I := HookedOnce)
    h (fun step call h => (h.not_ready call.2).elim) fun _ _ moves h => h.emulated moves
  refine ⟨?_, kept.1⟩
  cases rest with
  | nil => rfl
  | cons step rest =>
    obtain ⟨once, -⟩ := kept.2 step List.mem_cons_self
    exact (once.not_ready (ready step List.mem_cons_self)).elim

/-- A new Linux guest. -/
structure Unhooked (s : Instance) : Prop where
  os : s.vk.cfg.os = .linux
  skip : s.skipExitCheck
  silent : s.syscallHooks.length = 0

theorem Unhooked.emulated (h : Unhooked s) (step : Emulated s s') : Unhooked s' := by
  cases step with
  | bare uc vstate crashed os pages =>
    rw [h.os] at os
    cases os
  | linux vk os cfg => exact ⟨(congrArg Config.os cfg).trans h.os, h.skip, h.silent⟩

theorem Unhooked.setUp (h : Unhooked s) (run : (ValkyrieRs.setUp handler).Ends s (.ok range) s') :
    HookedOnce s' := by
  obtain ⟨⟨⟨uc, -, layout⟩, -, -⟩, hooks⟩ := setUp_linux h.os h.skip run
  refine ⟨?_, by rw [hooks, h.silent]⟩
  rw [layout.settings.cfg]
  exact h.os

/-- In every run of a new emulator whose first set-up succeeds and whose later ones are ready, every
set-up is clean, and so is the next if it is ready. -/
theorem repeated_runs_clean
    (created : (valkyrieNew parse showInstructions disassemble).Ends (args.fresh answers) (.ok ()) s₀)
    (run : Trace (SetUpCall handler) Emulated s₀ (first :: rest) s)
    (ok : ∃ range, first.call = .ok range) (ready : ∀ step ∈ rest, step.before.SetUpReady) :
    (∀ step ∈ first :: rest, CleanSetUp first step) ∧
      (s.SetUpReady → ∃ range s', (setUp handler).Ends s (.ok range) s') := by
  obtain ⟨⟨base, loaded⟩, skip, noTraps, silent⟩ := valkyrieNew_ok created
  obtain ⟨settings, unset⟩ := loaderRun_settings loaded
  have arch : s₀.vk.arch.regs.arch = s₀.vk.cfg.arch := by
    rw [settings.arch, settings.cfg]
    rfl
  obtain ⟨range, returned⟩ := ok
  cases os : s₀.vk.cfg.os with
  | bareMetal =>
    have start : Untrapped s₀ := ⟨os, by rw [skip, os]; rfl, arch, unset, noTraps, silent⟩
    obtain ⟨before, call, after⟩ := at_first_call run start fun _ _ moves h => h.emulated moves
    rw [SetUpCall, returned] at call
    obtain ⟨addr, id, trapped⟩ := before.setUp call
    obtain ⟨last, each⟩ := trapped.run after ready
    refine ⟨fun step hs => ?_, fun ready => ?_⟩
    · rcases List.mem_cons.1 hs with rfl | later
      · exact trapped.clean ⟨range, returned⟩
      · obtain ⟨returns, trapped⟩ := each step later
        exact trapped.clean returns
    · obtain ⟨range, s', next, -⟩ := last.setUp ready
      exact ⟨range, s', next⟩
  | linux =>
    have start : Unhooked s₀ := ⟨os, by rw [skip, os]; rfl, silent⟩
    obtain ⟨before, call, after⟩ := at_first_call run start fun _ _ moves h => h.emulated moves
    rw [SetUpCall, returned] at call
    have hooked := before.setUp call
    obtain ⟨rfl, last⟩ := hooked.run after ready
    refine ⟨fun step hs => ?_, fun ready => (last.not_ready ready).elim⟩
    obtain rfl := List.mem_singleton.1 hs
    refine ⟨⟨range, returned⟩, ?_, fun bare => ?_, rfl⟩
    · rw [hooked.once, hooked.os]
      rfl
    · rw [hooked.os] at bare
      cases bare

/-- An emulator is created and set up twice; the value is the state before each call, with what the
call returns. -/
def setUpTwice (handler : Valkyrie → U64 → U32 → Valkyrie) :
    InstanceM ((Instance × Except ValkyrieError (U64 × U64)) ×
      (Instance × Except ValkyrieError (U64 × U64))) := do
  valkyrieNew (fun _ => none) handler false
  let s₀ ← get
  let first ← (setUp handler).attempt
  let s₁ ← get
  let second ← (setUp handler).attempt
  return ((s₀, first), (s₁, second))

theorem setUpTwice_ok {out : (Instance × Except ValkyrieError (U64 × U64)) ×
      (Instance × Except ValkyrieError (U64 × U64))}
    (run : (setUpTwice handler).Ends (args.fresh answers) (.ok out) s) :
    (valkyrieNew (fun _ => none) handler false).Ends (args.fresh answers) (.ok ()) out.1.1 ∧
      Trace (SetUpCall handler) Emulated out.1.1
        [⟨out.1.1, out.1.2, out.2.1⟩, ⟨out.2.1, out.2.2, s⟩] s := by
  rw [setUpTwice] at run
  obtain ⟨_, s₀, created, run⟩ := ends_bind_ok.1 run
  rw [ends_bind_get, ends_bind_attempt] at run
  obtain ⟨r₁, s₁, first, run⟩ := run
  rw [ends_bind_get, ends_bind_attempt] at run
  obtain ⟨r₂, s₂, second, run⟩ := run
  obtain ⟨same, rfl⟩ := ends_pure.1 run
  cases same
  refine ⟨created, ?_⟩
  have nothing : Trace (SetUpCall handler) Emulated s₀ [] s₀ := .start
  exact (nothing.call ⟨s₀, r₁, s₁⟩ first).call ⟨s₁, r₂, s⟩ second

/-- Bare code that leaves its stack pointer alone is set up cleanly a second time. -/
theorem repeated_runs_clean_blob : ∃ s₀ first second s,
    (valkyrieNew (fun _ => none) (fun vk _ _ => vk) false).Ends
      ((blobArgs .x86 .bareMetal).fresh fun _ => none) (.ok ()) s₀ ∧
    Trace (SetUpCall fun vk _ _ => vk) Emulated s₀ [first, second] s ∧ CleanSetUp first second := by
  have computed : (setUpTwice (fun vk _ _ => vk)
      ((blobArgs .x86 .bareMetal).fresh fun _ => none)).map (fun p => p.1.toOption.map fun out =>
        (out.1.2.isOk, decide (out.2.1.vk.cfg.os = .bareMetal), out.2.1.vk.uc.spanMapped
          (out.2.1.vk.regValue out.2.1.vk.cfg.arch.spReg) out.2.1.vk.cfg.arch.wordWidth)) =
      some (some (true, true, true)) := by
    decide +kernel
  obtain ⟨⟨r, s⟩, run, done⟩ := Option.map_eq_some_iff.1 computed
  cases r with
  | error => cases done
  | ok out =>
    simp only [Except.toOption, Option.map_some, Option.some.injEq, Prod.mk.injEq,
      decide_eq_true_eq] at done
    obtain ⟨returned, os, mapped⟩ := done
    obtain ⟨created, trace⟩ := setUpTwice_ok run
    obtain ⟨⟨s₀, first⟩, ⟨s₁, second⟩⟩ := out
    cases first with
    | error => cases returned
    | ok range =>
      have ready : s₁.SetUpReady := by
        refine ⟨fun linux => ?_, fun _ _ => (Unicorn.spanMapped_iff ..).1 mapped⟩
        rw [show s₁.vk.cfg.os = .bareMetal from os] at linux
        cases linux
      have all := repeated_runs_clean created trace ⟨range, rfl⟩ (by
        intro step hs
        rw [List.mem_singleton.1 hs]
        exact ready)
      exact ⟨s₀, _, _, s, created, trace, all.1 _ (List.mem_cons_of_mem _ List.mem_cons_self)⟩

/-- A second run of a Linux guest fails, after it has registered the system-call hook again. -/
theorem second_run_fails : ∃ s₀ first second s,
    (valkyrieNew (fun _ => none) (fun vk _ _ => vk) false).Ends
      ((blobArgs .x86_64 .linux).fresh fun _ => none) (.ok ()) s₀ ∧
    Trace (SetUpCall fun vk _ _ => vk) Emulated s₀ [first, second] s ∧
    (∃ range, first.call = .ok range) ∧ first.after.syscallHooks.length = 1 ∧
    (∃ e, second.call = .error e) ∧ second.after.syscallHooks.length = 2 ∧
    ¬ CleanSetUp first second := by
  have computed : (setUpTwice (fun vk _ _ => vk)
      ((blobArgs .x86_64 .linux).fresh fun _ => none)).map (fun p =>
        (p.1.toOption.map fun out => (out.1.2.isOk, out.2.1.syscallHooks.length, out.2.2.isOk),
          p.2.syscallHooks.length)) = some (some (true, 1, false), 2) := by
    decide +kernel
  obtain ⟨⟨r, s⟩, run, done⟩ := Option.map_eq_some_iff.1 computed
  cases r with
  | error => cases done
  | ok out =>
    simp only [Except.toOption, Option.map_some, Prod.mk.injEq, Option.some.injEq] at done
    obtain ⟨⟨returned, once, failed⟩, twice⟩ := done
    obtain ⟨created, trace⟩ := setUpTwice_ok run
    obtain ⟨⟨s₀, first⟩, ⟨s₁, second⟩⟩ := out
    cases first with
    | error => cases returned
    | ok range =>
      cases second with
      | ok => cases failed
      | error e =>
        refine ⟨s₀, _, _, s, created, trace, ⟨range, rfl⟩, once, ⟨e, rfl⟩, twice, fun clean => ?_⟩
        obtain ⟨range', returns⟩ := clean.returns
        cases returns

end ValkyrieRs

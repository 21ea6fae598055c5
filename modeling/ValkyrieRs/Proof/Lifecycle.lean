import ValkyrieRs.Lifecycle
import ValkyrieRs.Proof.Isolation
import ValkyrieRs.Proof.SetUp
import ValkyrieRs.Proof.SystemRuns

/-!
# How runs end

What a whole run of the guest leaves of the exit status and of the crash flag, and from it what the
fuzzing entry points tell: a crash exactly when the engine failed or the guest sent itself a fatal
signal, whichever way errors of the engine are handled.
-/

namespace ValkyrieRs

open Proc

variable {s s' t vk vk' : Valkyrie} {steps : List SystemStep} {step : SystemStep} {sv : Services}
  {addr : U64} {size : U32} {sctx : SubCtx} {c : Component} {r : Except ValkyrieError U64}

/-! ## The two handlers -/

/-- The signal goes to the guest itself, and ends it as a crash. -/
def FatalSignal (sv : Services) (sctx : SubCtx) : Prop :=
  sctx.arg0 = sv.getpid.signExtend 64 ∧ sctx.arg1 = sv.gettid ∧
    (sctx.arg2.setWidth 32 = sigSegv ∨ sctx.arg2.setWidth 32 = sigTrap)

theorem crashed_of_sysTgkill (run : (sysTgkill sv sctx).Ends vk r vk') :
    vk'.crashed = true ↔ vk.crashed = true ∨ FatalSignal sv sctx := by
  unfold sysTgkill at run
  dsimp only at run
  split_ifs at run with other fatal stops stops
  · obtain ⟨-, rfl⟩ := ends_pure.1 run
    refine (or_iff_left fun h => ?_).symm
    exact other.elim (fun n => n h.1) fun n => n h.2.1
  · cases run
    exact ⟨fun _ => .inr ⟨not_not.1 fun n => other (.inl n), not_not.1 fun n => other (.inr n), fatal⟩,
      fun _ => rfl⟩
  · cases run
    exact ⟨fun _ => .inr ⟨not_not.1 fun n => other (.inl n), not_not.1 fun n => other (.inr n), fatal⟩,
      fun _ => rfl⟩
  · cases run
    exact (or_iff_left fun h => fatal h.2.2).symm
  · cases run
    exact (or_iff_left fun h => fatal h.2.2).symm

theorem exitStatus_of_sysExit (run : (sysExit sctx).Ends vk r vk') :
    vk'.exitStatus = some sctx.arg0 := by
  cases run
  rfl

/-! ## Steps -/

/-- The guest ends as a crash at this step. -/
def Crashes (step : SystemStep) : Prop :=
  match step.call with
  | .syscall sv addr _ =>
    step.before.called addr = some .sysTgkill ∧ FatalSignal sv step.before.subCtx
  | .store _ _ => False

/-- The status with which the guest exits at this step. -/
def exitCode (step : SystemStep) : Option U64 :=
  match calledBy step with
  | some .sysExit | some .sysExitGroup => some step.before.subCtx.arg0
  | _ => none

theorem crashed_of_happened (happened : Happened step)
    (sameArch : step.before.arch.regs.arch = step.before.cfg.arch) :
    step.after.crashed = true ↔ step.before.crashed = true ∨ Crashes step := by
  have kept (other : calledBy step ≠ some .sysTgkill) :
      step.after.crashed = step.before.crashed := by
    refine (changes_of_happened (c := .crashed) (x := 0) happened).2.1 trivial fun f called => ?_
    intro owned
    cases f <;> simp [SysFn.owned] at owned
    exact other called
  obtain ⟨before, call, after⟩ := step
  cases call with
  | store addr data =>
    rw [kept (by simp [calledBy])]
    exact (or_iff_left fun h => h).symm
  | syscall sv addr size =>
    by_cases called : before.called addr = some .sysTgkill
    · obtain ⟨r, t, ran, same⟩ := handler_of_happened happened sameArch called
      have flag : after.crashed = t.crashed := same .crashed trivial
      show after.crashed = true ↔ before.crashed = true ∨ _
      rw [flag, crashed_of_sysTgkill ran]
      exact or_congr_right ⟨fun fatal => ⟨called, fatal⟩, And.right⟩
    · rw [kept called]
      exact (or_iff_left fun h => called h.1).symm

theorem exitStatus_of_happened (happened : Happened step)
    (sameArch : step.before.arch.regs.arch = step.before.cfg.arch) :
    step.after.exitStatus = (exitCode step).or step.before.exitStatus := by
  have exits (call : SysFn) (exit : call = .sysExit ∨ call = .sysExitGroup)
      (called : calledBy step = some call) :
      step.after.exitStatus = some step.before.subCtx.arg0 := by
    obtain ⟨before, event, after⟩ := step
    cases event with
    | store addr data => cases called
    | syscall sv addr size =>
      obtain ⟨r, t, ran, same⟩ := handler_of_happened happened sameArch called
      have status : after.exitStatus = t.exitStatus := same .exitStatus trivial
      have ran : (sysExit before.subCtx).Ends before r t := by
        rcases exit with rfl | rfl <;> exact ran
      exact status.trans (exitStatus_of_sysExit ran)
  unfold exitCode
  split
  · exact exits .sysExit (.inl rfl) ‹_›
  · exact exits .sysExitGroup (.inr rfl) ‹_›
  · refine (changes_of_happened (c := .exitStatus) (x := 0) happened).2.1 trivial fun f called => ?_
    intro owned
    cases f <;> simp [SysFn.owned] at owned
    · exact absurd called ‹_›
    · exact absurd called ‹_›

/-! ## Runs -/

theorem foldl_or {α : Type} (l : List α) (p : Prop) (q : α → Prop) :
    l.foldl (fun p x => p ∨ q x) p ↔ p ∨ ∃ x ∈ l, q x := by
  induction l generalizing p with
  | nil => simp
  | cons x l ih => rw [List.foldl_cons, ih, or_assoc, List.exists_mem_cons_iff]

/-- The crash flag after a run: some step of it ended the guest as a crash. -/
theorem crashed_of_run (run : SystemRun s steps s') (sameArch : s.arch.regs.arch = s.cfg.arch) :
    s'.crashed = true ↔ s.crashed = true ∨ ∃ step ∈ steps, Crashes step := by
  rw [← foldl_or steps (s.crashed = true) Crashes]
  refine iff_of_eq (@Trace.foldl _ _ _ _ _ _ _ _ _ (fun u => u.crashed = true)
    (fun p step => p ∨ Crashes step) run (sameArch_of_step run sameArch)
    (fun step happened same => propext (crashed_of_happened happened same)) fun u v moves => ?_)
  rw [show v.crashed = u.crashed from moves.same (c := .crashed) trivial]

/-- The exit status after a run is that of the last exit. -/
theorem exitStatus_of_run (run : SystemRun s steps s')
    (sameArch : s.arch.regs.arch = s.cfg.arch) :
    s'.exitStatus = steps.foldl (fun status step => (exitCode step).or status) s.exitStatus :=
  run.foldl (sameArch_of_step run sameArch) (fun _ => exitStatus_of_happened)
    fun _ _ moves => moves.same (c := .exitStatus) trivial

theorem exitStatus_of_run_exit : ∃ t,
    (syscallHandlerFor (sysHandlers .refusing) .x86_64 0x1000 2).Ends (atSyscall 60 3 0 0) (.ok ())
      t ∧ t.exitStatus = some 3 := by
  have ran : ∃ t, (syscallHandlerFor (sysHandlers .refusing) .x86_64 0x1000 2).Ends
    (atSyscall 60 3 0 0) (.ok ()) t := ⟨_, rfl⟩
  obtain ⟨t, ran⟩ := ran
  exact ⟨t, ran, exitStatus_of_run (run_callAt ran rfl) rfl⟩

/-! ## The entry points -/

section EntryPoints

variable {α : Type} {u u' u₀ : Runner} {emuStart : EmuStart} {start stop : U64}
  {e : Except Early Unit}
  {handler : Valkyrie → U64 → U32 → Valkyrie} {kind : ExitKind}

theorem ends_onInstance {α : Type} {m : InstanceM α} {e : Except Early α} :
    (onInstance m).Ends u e u' ↔
      ∃ x i, m.Ends u.inst x i ∧ e = x.mapError .error ∧ u' = { u with inst := i } := by
  simp only [onInstance, ends_mapError, ends_zoom]
  constructor
  · rintro ⟨x, ⟨i, run, rfl⟩, rfl⟩
    exact ⟨x, i, run, rfl, rfl⟩
  · rintro ⟨x, i, run, rfl, rfl⟩
    exact ⟨x, ⟨i, run, rfl⟩, rfl⟩

theorem ends_handleUnicornError {err : UcError} : (handleUnicornError err).Ends u e u' ↔
    u.softUnicornErrors = true ∧ e = .ok () ∧
        u' = u.withVk { u.vk with crashed := true, vstate := .ended } ∨
      u.softUnicornErrors = false ∧ e = .error .panic ∧
        u' = u.withVk { u.vk with crashed := true } := by
  rw [handleUnicornError, ends_bind_get]
  cases soft : u.softUnicornErrors with
  | true =>
    rw [if_pos rfl]
    simp [modifyVk]
  | false =>
    rw [if_neg Bool.false_ne_true, modifyVk, ends_bind_modify, ends_throw]
    simp

/-- How an emulation ends: quietly, with an error of the engine that is noted, or with a panic. -/
inductive EmulationEnds (soft : Bool) (vk : Valkyrie) :
    Except UcError Unit → Except Early Unit → Valkyrie → Prop
  | quiet : EmulationEnds soft vk (.ok ()) (.ok ()) { vk with vstate := .ended }
  | noted (err : UcError) : soft = true →
      EmulationEnds soft vk (.error err) (.ok ()) { vk with crashed := true, vstate := .ended }
  | panic (err : UcError) : soft = false →
      EmulationEnds soft vk (.error err) (.error .panic) { vk with crashed := true }

/-- The end of an emulation sets nothing but how the run has ended. -/
theorem EmulationEnds.frame {soft : Bool} {o : Except UcError Unit} {w : Valkyrie}
    (ends : EmulationEnds soft vk o e w) :
    w = { vk with crashed := w.crashed, vstate := w.vstate } := by
  cases ends with
  | quiet => rfl
  | noted => rfl
  | panic => rfl

theorem emulation_of_ends (run : (emulate emuStart start stop).Ends u e u') : ∃ o vk,
    (emuStart start stop).Ends u.vk o vk ∧ EmulationEnds u.softUnicornErrors vk o e u'.vk := by
  unfold emulate at run
  rcases ends_bind.1 run with ⟨_, failed, -⟩ | ⟨o, u₁, started, rest⟩
  · obtain ⟨x, inner, same⟩ := ends_mapError.1 failed
    obtain ⟨vk, core, -⟩ := ends_zoom.1 inner
    obtain ⟨y, rfl, -⟩ := ends_attempt.1 core
    cases same
  · obtain ⟨x, inner, same⟩ := ends_mapError.1 started
    obtain ⟨vk, core, rfl⟩ := ends_zoom.1 inner
    obtain ⟨y, rfl, ran⟩ := ends_attempt.1 core
    cases same
    refine ⟨o, vk, ran, ?_⟩
    cases o with
    | ok _ =>
      cases rest
      exact .quiet
    | error err =>
      rcases ends_bind.1 rest with ⟨_, handled, rfl⟩ | ⟨_, u₂, handled, last⟩
      · rcases ends_handleUnicornError.1 handled with ⟨-, same, -⟩ | ⟨hard, same, rfl⟩
        · cases same
        · cases same
          exact .panic err hard
      · rcases ends_handleUnicornError.1 handled with ⟨soft, -, rfl⟩ | ⟨-, same, -⟩
        · cases last
          exact .noted err soft
        · cases same

/-- What `run_prepared` does before the engine starts. -/
def ready : RunM (U64 × U64) := do
  let s ← get
  setVstate .running
  match s.preparedStart, s.preparedEnd with
  | some start, some stop => return (start, stop)
  | _, _ =>
    setVstate .running
    onInstance (onVk prepareExecution)

theorem runPrepared_eq (emuStart : EmuStart) :
    runPrepared emuStart = ready >>= fun range => emulate emuStart range.1 range.2 := by
  have := @Proc.lawfulMonad Runner Early
  unfold runPrepared ready
  rw [bind_assoc]
  refine congrArg (get >>= ·) (funext fun s => ?_)
  rw [bind_assoc]
  refine congrArg (setVstate .running >>= ·) (funext fun _ => ?_)
  have unprepared : osRun emuStart = (setVstate .running >>= fun _ =>
      onInstance (onVk prepareExecution)) >>= fun range => emulate emuStart range.1 range.2 := by
    rw [bind_assoc]
    rfl
  cases s.preparedStart with
  | none => exact unprepared
  | some start =>
    cases s.preparedEnd with
    | none => exact unprepared
    | some stop => rfl

/-- Getting ready fails with an error value, or keeps how the last run ended and the settings. -/
theorem kept_of_ready {e : Except Early (U64 × U64)} (run : ready.Ends u e u') :
    e ≠ .error .panic ∧ ∀ range, e = .ok range →
      u'.vk.crashed = u.vk.crashed ∧ SameSettings u.vk u'.vk := by
  rw [ready, ends_bind_get, setVstate, modifyVk, ends_bind_modify] at run
  split at run
  · obtain ⟨rfl, rfl⟩ := ends_pure.1 run
    exact ⟨nofun, fun _ _ => ⟨rfl, rfl, rfl, rfl, rfl, rfl⟩⟩
  · obtain ⟨x, i, inner, rfl, rfl⟩ := ends_onInstance.1 (ends_bind_modify.1 run)
    obtain ⟨vk', prepares, rfl⟩ := ends_onVk.1 inner
    cases x with
    | error err => exact ⟨nofun, nofun⟩
    | ok _ =>
      refine ⟨nofun, fun _ _ => ⟨?_, ?_⟩⟩
      · exact congrArg RunFields.crashed (runFields_of_prepareExecution rfl prepares)
      · obtain ⟨cfg, arch, stackSize, heapSize, argv⟩ :=
          (laysOut_of_prepareExecution prepares).settings
        exact ⟨cfg, arch, stackSize, heapSize, argv⟩

/-- The engine does to the emulator what a run of the guest does, which is traced. -/
def EmuStart.RunsGuest (emuStart : EmuStart)
    (trace : U64 → U64 → Valkyrie → List SystemStep) : Prop :=
  ∀ start stop s o s', (emuStart start stop).Ends s o s' → SystemRun s (trace start stop s) s'

variable {trace : U64 → U64 → Valkyrie → List SystemStep}

/-- What is told of a run that is not refused. -/
theorem exitKind_ok {body : RunM Unit} (run : (exitKind body).Ends u (.ok kind) u') :
    body.Ends u (.ok ()) u' ∧ (kind = .crash ↔ u'.vk.crashed = true) ∨
      body.Ends u (.error .panic) u' ∧ kind = .crash := by
  obtain ⟨x, u₂, inner, last⟩ := ends_bind_attempt.1 run
  rcases x with (err | _) | _
  · cases (ends_throw.1 last).1
  · obtain ⟨same, rfl⟩ := ends_pure.1 last
    cases same
    exact .inr ⟨inner, rfl⟩
  · have answer : (pure (if u₂.vk.crashed = true then .crash else .ok) : RunM ExitKind).Ends u₂
        (.ok kind) u' := last
    obtain ⟨same, rfl⟩ := ends_pure.1 answer
    cases same
    refine .inl ⟨inner, ?_⟩
    cases u'.vk.crashed <;> simp

/-- An emulation is told as a crash when the engine has failed or the flag is set. -/
theorem crash_iff_of_emulation {soft : Bool} {o : Except UcError Unit} {w : Valkyrie}
    (ends : EmulationEnds soft vk o e w)
    (told : e = .ok () ∧ (kind = .crash ↔ w.crashed = true) ∨ e = .error .panic ∧ kind = .crash) :
    kind = .crash ↔ (∃ err, o = .error err) ∨ vk.crashed = true := by
  cases ends with
  | quiet =>
    rcases told with ⟨-, told⟩ | ⟨same, -⟩
    · rw [told]
      simp
    · cases same
  | noted err _ =>
    rcases told with ⟨-, told⟩ | ⟨same, -⟩
    · rw [told]
      simp
    · cases same
  | panic err _ =>
    rcases told with ⟨same, -⟩ | ⟨-, crash⟩
    · cases same
    · simp [crash]

/-- The set-up of a run: it fails with an error value, or forgets how the last run ended. -/
structure SetsUp (m : RunM (U64 × U64)) (u : Runner) : Prop where
  noPanic : ∀ u', ¬ m.Ends u (.error .panic) u'
  clean : ∀ range u', m.Ends u (.ok range) u' → u'.vk.crashed = false
  sameArch : ∀ range u', m.Ends u (.ok range) u' → u'.vk.arch.regs.arch = u'.vk.cfg.arch

/-- An error value is told exactly when the set-up fails. -/
theorem error_iff_of_exitKind {m : RunM (U64 × U64)} (setsUp : SetsUp m u) {early : Early} :
    (exitKind (m >>= fun range => emulate emuStart range.1 range.2)).Ends u (.error early) u' ↔
      m.Ends u (.error early) u' := by
  rw [exitKind, ends_bind_attempt]
  constructor
  · rintro ⟨x, u₁, inner, last⟩
    rcases ends_bind.1 inner with ⟨err, failed, rfl⟩ | ⟨range, u₀, -, emulated⟩
    · cases err with
      | error e =>
        obtain ⟨same, rfl⟩ := ends_throw.1 last
        cases same
        exact failed
      | panic => exact (setsUp.noPanic u₁ failed).elim
    · obtain ⟨o, vk, -, ends⟩ := emulation_of_ends emulated
      generalize u₁.vk = w at ends
      cases ends <;> cases last
  · intro failed
    cases early with
    | error e => exact ⟨_, u', ends_bind.2 (.inl ⟨_, failed, rfl⟩), ends_throw.2 ⟨rfl, rfl⟩⟩
    | panic => exact (setsUp.noPanic u' failed).elim

/-- What an engine that starts in a state makes of it. -/
def Tells (emuStart : EmuStart) (start stop : U64) (vk : Valkyrie) (kind : ExitKind) : Prop :=
  ∃ o vk', (emuStart start stop).Ends vk o vk' ∧
    (kind = .crash ↔ (∃ err, o = .error err) ∨ vk'.crashed = true)

theorem exitKind_bind {m : RunM α} {f : α → RunM Unit} {a : α} {r : Except Early ExitKind}
    (first : m.Ends u (.ok a) u₀) : (exitKind (m >>= f)).Ends u r u' ↔
      (exitKind (f a)).Ends u₀ r u' := by
  simp only [exitKind, ends_bind_attempt, first.bind_iff]

/-- However the engine ends, the emulation ends. -/
theorem emulate_of_ends {o : Except UcError Unit} {w : Valkyrie}
    (ran : (emuStart start stop).Ends u.vk o vk)
    (ends : EmulationEnds u.softUnicornErrors vk o e w) :
    (emulate emuStart start stop).Ends u e (u.withVk w) := by
  have started : (((emuStart start stop).attempt.zoom Runner.vk fun vk s => s.withVk vk).mapError
      fun _ => Early.panic).Ends u (.ok o) (u.withVk vk) :=
    ends_mapError.2 ⟨.ok o, ends_zoom.2 ⟨vk, ends_attempt.2 ⟨o, rfl, ran⟩, rfl⟩, rfl⟩
  cases ends with
  | quiet => exact started.bind_iff.2 rfl
  | noted err soft =>
    have handled : (handleUnicornError err).Ends (u.withVk vk) (.ok ())
        (u.withVk { vk with crashed := true, vstate := .ended }) :=
      ends_handleUnicornError.2 (.inl ⟨soft, rfl, rfl⟩)
    exact started.bind_iff.2 (handled.bind rfl)
  | panic err hard =>
    have handled : (handleUnicornError err).Ends (u.withVk vk) (.error .panic)
        (u.withVk { vk with crashed := true }) :=
      ends_handleUnicornError.2 (.inr ⟨hard, rfl, rfl⟩)
    exact started.bind_iff.2 (ends_bind.2 (.inl ⟨_, handled, rfl⟩))

/-- Of every emulation an exit is told. -/
theorem exitKind_emulate {o : Except UcError Unit} (ran : (emuStart start stop).Ends u.vk o vk) :
    ∃ kind u', (exitKind (emulate emuStart start stop)).Ends u (.ok kind) u' := by
  have quiet {w : Valkyrie} (inner : (emulate emuStart start stop).Ends u (.ok ()) (u.withVk w)) :
      ∃ kind u', (exitKind (emulate emuStart start stop)).Ends u (.ok kind) u' :=
    ⟨_, _, ends_bind_attempt.2 ⟨_, _, inner, ends_pure.2 ⟨rfl, rfl⟩⟩⟩
  cases o with
  | ok _ => exact quiet (emulate_of_ends ran .quiet)
  | error err =>
    cases soft : u.softUnicornErrors with
    | true => exact quiet (emulate_of_ends ran (.noted err soft))
    | false =>
      have inner := emulate_of_ends ran (.panic err soft)
      exact ⟨.crash, _, ends_bind_attempt.2 ⟨_, _, inner, ends_pure.2 ⟨rfl, rfl⟩⟩⟩

theorem tells_of_exitKind (run : (exitKind (emulate emuStart start stop)).Ends u (.ok kind) u') :
    Tells emuStart start stop u.vk kind := by
  have told : ∃ e, (emulate emuStart start stop).Ends u e u' ∧ (e = .ok () ∧
      (kind = .crash ↔ u'.vk.crashed = true) ∨ e = .error .panic ∧ kind = .crash) := by
    rcases exitKind_ok run with ⟨inner, told⟩ | ⟨inner, told⟩
    · exact ⟨_, inner, .inl ⟨rfl, told⟩⟩
    · exact ⟨_, inner, .inr ⟨rfl, told⟩⟩
  obtain ⟨e, inner, told⟩ := told
  obtain ⟨o, vk', ran, ends⟩ := emulation_of_ends inner
  exact ⟨o, vk', ran, crash_iff_of_emulation ends told⟩

/-- An engine tells one thing of a state. -/
theorem Tells.unique {kind' : ExitKind} (h : Tells emuStart start stop vk kind)
    (h' : Tells emuStart start stop vk kind') : kind = kind' := by
  obtain ⟨o, vk₁, ran, told⟩ := h
  obtain ⟨o', vk₂, ran', told'⟩ := h'
  obtain ⟨rfl, rfl⟩ := ran.unique ran'
  have same : kind = .crash ↔ kind' = .crash := told.trans told'.symm
  cases kind <;> cases kind' <;> simp at same ⊢

/-- What is told does not depend on how errors of the engine are handled. -/
theorem tells_of_emulate : (∃ u', (exitKind (emulate emuStart start stop)).Ends u (.ok kind) u') ↔
    Tells emuStart start stop u.vk kind := by
  constructor
  · rintro ⟨u', run⟩
    exact tells_of_exitKind run
  · intro tells
    have ⟨o, vk', ran, _⟩ := tells
    obtain ⟨kind', u', run⟩ := exitKind_emulate ran
    rw [tells.unique (tells_of_exitKind run)]
    exact ⟨u', run⟩

/-- What is told comes from behind a set-up that succeeds. -/
theorem before_of_exitKind {m : RunM α} {f : α → RunM Unit}
    (noPanic : ∀ u', ¬ m.Ends u (.error .panic) u')
    (run : (exitKind (m >>= f)).Ends u (.ok kind) u') :
    ∃ a u₀, m.Ends u (.ok a) u₀ ∧ (exitKind (f a)).Ends u₀ (.ok kind) u' := by
  have inner : (m >>= f).Ends u (.ok ()) u' ∨ (m >>= f).Ends u (.error .panic) u' :=
    (exitKind_ok run).imp And.left And.left
  have first : ∃ a u₀, m.Ends u (.ok a) u₀ := by
    rcases inner with inner | inner
    · obtain ⟨a, u₀, first, -⟩ := ends_bind_ok.1 inner
      exact ⟨a, u₀, first⟩
    · rcases ends_bind.1 inner with ⟨err, failed, same⟩ | ⟨a, u₀, first, -⟩
      · cases same
        exact (noPanic u' failed).elim
      · exact ⟨a, u₀, first⟩
  obtain ⟨a, u₀, first⟩ := first
  exact ⟨a, u₀, first, (exitKind_bind first).1 run⟩

/-- A run of which an exit is told has been set up and emulated. -/
theorem emulated_of_exitKind {m : RunM (U64 × U64)}
    (noPanic : ∀ u', ¬ m.Ends u (.error .panic) u')
    (run : (exitKind (m >>= fun range => emulate emuStart range.1 range.2)).Ends u (.ok kind) u') :
    ∃ range u₀ e, m.Ends u (.ok range) u₀ ∧ (emulate emuStart range.1 range.2).Ends u₀ e u' := by
  obtain ⟨range, u₀, before, run⟩ := before_of_exitKind noPanic run
  rcases exitKind_ok run with ⟨inner, -⟩ | ⟨inner, -⟩
  · exact ⟨range, u₀, _, before, inner⟩
  · exact ⟨range, u₀, _, before, inner⟩

/-- A crash is told exactly when the engine fails or the guest ends itself by a fatal signal. -/
theorem crash_iff_of_exitKind {m : RunM (U64 × U64)} (setsUp : SetsUp m u)
    (runs : emuStart.RunsGuest trace)
    (run : (exitKind (m >>= fun range => emulate emuStart range.1 range.2)).Ends u (.ok kind) u') :
    ∃ range u₀ o vk₁, m.Ends u (.ok range) u₀ ∧ (emuStart range.1 range.2).Ends u₀.vk o vk₁ ∧
      (kind = .crash ↔
        (∃ err, o = .error err) ∨ ∃ step ∈ trace range.1 range.2 u₀.vk, Crashes step) := by
  obtain ⟨range, u₀, before, run⟩ := before_of_exitKind setsUp.noPanic run
  obtain ⟨o, vk, ran, told⟩ := tells_of_exitKind run
  refine ⟨range, u₀, o, vk, before, ran, ?_⟩
  have flag := crashed_of_run (runs _ _ _ _ _ ran) (setsUp.sameArch range u₀ before)
  rw [told, flag, setsUp.clean range u₀ before]
  simp

/-! ## A first run -/

/-- The set-up of `run`. -/
def beforeStart (handler : Valkyrie → U64 → U32 → Valkyrie) : RunM (U64 × U64) := do
  onInstance (prepareInitialRun handler)
  ready

theorem runVk_eq (handler : Valkyrie → U64 → U32 → Valkyrie) (emuStart : EmuStart) :
    runVk handler emuStart = beforeStart handler >>= fun range =>
      emulate emuStart range.1 range.2 := by
  have := @Proc.lawfulMonad Runner Early
  rw [runVk, beforeStart, runPrepared_eq, bind_assoc]

theorem setsUp_beforeStart (sameArch : u.vk.arch.regs.arch = u.vk.cfg.arch) :
    SetsUp (beforeStart handler) u := by
  have kept {range : U64 × U64} {u' : Runner} (run : (beforeStart handler).Ends u (.ok range) u') :
      u'.vk.crashed = false ∧ SameSettings u.vk u'.vk := by
    obtain ⟨_, u₁, first, rest⟩ := ends_bind_ok.1 run
    obtain ⟨x, i, inner, same, rfl⟩ := ends_onInstance.1 first
    cases x with
    | error _ => cases same
    | ok _ =>
      obtain ⟨crashed, settings⟩ := (kept_of_ready rest).2 _ rfl
      constructor
      · exact crashed.trans (congrArg RunFields.crashed (runFields_of_prepareInitialRun inner))
      · obtain ⟨cfg, arch, stackSize, heapSize, argv⟩ :=
          (laysOut_of_prepareInitialRun inner).settings.trans settings
        exact ⟨cfg, arch, stackSize, heapSize, argv⟩
  refine ⟨fun u' run => ?_, fun range u' run => (kept run).1, fun range u' run => ?_⟩
  · rcases ends_bind.1 run with ⟨err, failed, same⟩ | ⟨_, u₁, -, rest⟩
    · obtain ⟨x, i, -, told, -⟩ := ends_onInstance.1 failed
      cases same
      cases x <;> cases told
    · exact (kept_of_ready rest).1 rfl
  · rw [(kept run).2.arch, (kept run).2.cfg, sameArch]

/-- What is told of a first run: an error value exactly when the set-up fails, and a crash exactly when
the engine fails or the guest ends itself by a fatal signal, whether errors of the engine are noted
or panic. -/
theorem told_of_runValkyrie (runs : emuStart.RunsGuest trace)
    (sameArch : u.vk.arch.regs.arch = u.vk.cfg.arch) :
    (∀ early u', (runValkyrie handler emuStart).Ends u (.error early) u' ↔
      (beforeStart handler).Ends u (.error early) u') ∧
    ∀ kind u', (runValkyrie handler emuStart).Ends u (.ok kind) u' →
      ∃ range u₀ o vk₁, (beforeStart handler).Ends u (.ok range) u₀ ∧
        (emuStart range.1 range.2).Ends u₀.vk o vk₁ ∧
        (kind = .crash ↔
          (∃ err, o = .error err) ∨ ∃ step ∈ trace range.1 range.2 u₀.vk, Crashes step) := by
  have setsUp : SetsUp (beforeStart handler) u := setsUp_beforeStart sameArch
  rw [runValkyrie, runVk_eq]
  exact ⟨fun _ _ => error_iff_of_exitKind setsUp, fun _ _ => crash_iff_of_exitKind setsUp runs⟩

/-! ## Scripted guests -/

/-- An engine whose guest does what a script says for the input, all system calls with the instruction
at the start. -/
def scripted (script : List U8 → List GuestAct) : EmuStart := fun start _ => do
  let vk ← get
  (script vk.cfg.stdinData).forM (GuestAct.does start)

/-- The steps that a script makes. -/
def scriptTrace (script : List U8 → List GuestAct) (start _stop : U64) (vk : Valkyrie) :
    List SystemStep :=
  traceOf start (script vk.cfg.stdinData) vk

theorem runsGuest_scripted (script : List U8 → List GuestAct) :
    (scripted script).RunsGuest (scriptTrace script) :=
  fun _ _ _ _ _ run => run_of_acts .start (ends_bind_get.1 run)

/-- The guest maps a page. -/
def mapsPage : GuestAct := .syscall 9 ⟨0, 0x1000, 3, 0x22, 0, 0⟩

/-- On the input of one zero the guest maps a page and sends itself `SIGSEGV`; on that of one one it
stores where nothing is mapped; on others it stores in a page that it maps and in its stack, and unmaps
the page. -/
def shortGuest (input : List U8) : List GuestAct :=
  if input = [0] then [mapsPage, .syscall 234 ⟨1, 1, 11, 0, 0, 0⟩]
  else if input = [1] then [.store 0 [7]]
  else [mapsPage, .store 0x10407000 [7, 8], .store 0x404000 [9],
    .syscall 11 ⟨0x10407000, 0x1000, 0, 0, 0, 0⟩]

/-- Bare code of the one instruction `syscall`. -/
def shortArgs : NewArgs :=
  { blobArgs .x86_64 .bareMetal with start.baremetalCode := [0x0f, 0x05] }

/-- The new emulator of the code. -/
@[irreducible] def shortInstance : Instance :=
  (valkyrieNew (fun _ => none) (fun vk _ _ => vk) false).final (shortArgs.fresh fun _ => none)

/-- It has not been run. -/
def shortRunner : Runner where
  inst := shortInstance
  softUnicornErrors := false
  preparedStart := none
  preparedEnd := none

theorem ends_valkyrieNew_short : (valkyrieNew (fun _ => none) (fun vk _ _ => vk) false).Ends
    (shortArgs.fresh fun _ => none) (.ok ()) shortInstance := by
  unfold shortInstance
  exact ends_final (by decide +kernel)

/-- The emulator with an input. -/
def Runner.given (u : Runner) (input : List U8) : Runner := u.withVk (u.vk.setStdinBytes input)

theorem sameArch_short : shortRunner.vk.arch.regs.arch = shortRunner.vk.cfg.arch := by decide +kernel

/-- It is set up with an input. -/
@[irreducible] def shortStart (input : List U8) : Runner :=
  (beforeStart fun vk _ _ => vk).final (shortRunner.given input)

/-- A crash by a signal, and four steps without a crash. -/
theorem told_of_runValkyrie_short : ∃ u v,
    (runValkyrie (fun vk _ _ => vk) (scripted shortGuest)).Ends (shortRunner.given [0])
      (.ok .crash) u ∧
    (∃ step ∈ scriptTrace shortGuest 0x400000 0 (shortStart [0]).vk, Crashes step) ∧
    (runValkyrie (fun vk _ _ => vk) (scripted shortGuest)).Ends (shortRunner.given [2])
      (.ok .ok) v ∧
    ¬ ∃ step ∈ scriptTrace shortGuest 0x400000 0 (shortStart [2]).vk, Crashes step := by
  have told (input : List U8) {kind : ExitKind} {u : Runner}
      (ran : (runValkyrie (fun vk _ _ => vk) (scripted shortGuest)).Ends (shortRunner.given input)
        (.ok kind) u)
      (begins : (beforeStart fun vk _ _ => vk).value (shortRunner.given input) =
        some (0x400000, 0x400002))
      (engine : (scripted shortGuest 0x400000 0x400002).value (shortStart input).vk = some ()) :
      kind = .crash ↔
        ∃ step ∈ scriptTrace shortGuest 0x400000 0 (shortStart input).vk, Crashes step := by
    have sameArch : (shortRunner.given input).vk.arch.regs.arch =
      (shortRunner.given input).vk.cfg.arch := sameArch_short
    obtain ⟨range, u₀, o, vk₁, before, ended, told⟩ :=
      (told_of_runValkyrie (runsGuest_scripted shortGuest) sameArch).2 kind u ran
    obtain ⟨same, left⟩ := before.unique (ends_final begins)
    cases same
    have start : u₀ = shortStart input := by
      unfold shortStart
      exact left
    rw [start] at ended told
    rw [(ended.unique (ends_final engine)).1] at told
    exact told.trans (or_iff_right nofun)
  have crash : (runValkyrie (fun vk _ _ => vk) (scripted shortGuest)).Ends (shortRunner.given [0])
      (.ok .crash) _ := ends_final (by decide +kernel)
  have ok : (runValkyrie (fun vk _ _ => vk) (scripted shortGuest)).Ends (shortRunner.given [2])
      (.ok .ok) _ := ends_final (by decide +kernel)
  refine ⟨_, _, crash, (told [0] crash (by decide +kernel) (by decide +kernel)).1 rfl, ok, ?_⟩
  intro crashes
  cases (told [2] ok (by decide +kernel) (by decide +kernel)).2 crashes

end EntryPoints

end ValkyrieRs

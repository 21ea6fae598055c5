import ValkyrieRs.Proof.Lifecycle

/-!
# Campaigns

Inputs given one after another to a reusable emulator.  Whatever the guest did on the inputs before,
what is told of an input is decided by that input's own run: an error value when the emulator cannot
be restored, else a crash exactly when the engine failed or the guest ended itself by a fatal signal.
-/

namespace ValkyrieRs

open Proc

variable {s t vk vk' : Valkyrie} {u u' : Runner} {emuStart : EmuStart} {start stop : U64}
  {e : Except Early Unit} {handler : Valkyrie → U64 → U32 → Valkyrie} {kind : ExitKind}
  {trace : U64 → U64 → Valkyrie → List SystemStep} {snapshot : EmulatorSnapshot}
  {input : List U8}

/-! ## One input -/

/-- The set-up of `run_input`. -/
def beforeInput (snapshot : EmulatorSnapshot) (input : List U8) : RunM (U64 × U64) := do
  onInstance (onVk (prepareInput snapshot input))
  ready

/-- What fails before the run is told as it is. -/
theorem bind_exitKind {α : Type} (m : InstanceM α) (f : α → RunM Unit) :
    (onInstance m >>= fun a => exitKind (f a)) = exitKind (onInstance m >>= f) := by
  funext u
  simp only [exitKind, bind, attempt, onInstance, mapError, zoom]
  rcases m u.inst with _ | ⟨err | a, i⟩ <;> rfl

theorem runInputPrepared_eq (snapshot : EmulatorSnapshot) (input : List U8) (emuStart : EmuStart) :
    runInputPrepared snapshot input emuStart =
      exitKind (beforeInput snapshot input >>= fun range => emulate emuStart range.1 range.2) := by
  have := @Proc.lawfulMonad Runner Early
  rw [runInputPrepared, beforeInput, bind_assoc]
  simp only [runValkyriePrepared, runPrepared_eq]
  exact bind_exitKind _ _

/-- The architecture of the registers and of the configuration are as they were. -/
def SameArchs (s t : Valkyrie) : Prop :=
  t.arch.regs.arch = s.arch.regs.arch ∧ t.cfg.arch = s.cfg.arch

theorem LayoutOnly.sameArchs (h : LayoutOnly s t) : SameArchs s t := by
  rw [h]
  exact ⟨rfl, rfl⟩

theorem sameArchs_prepareInput {snapshot : EmulatorSnapshot} {input : List U8} :
    (prepareInput snapshot input).Within SameArchs := by
  refine Within.bind (Within.bind ?_ fun _ => Within.bind (within_forM _ fun _ => ?_) fun _ => ?_)
    fun _ => within_modify fun _ => ⟨rfl, rfl⟩
  · exact layoutOnly_restoreMemoryLayout.mono fun _ _ => LayoutOnly.sameArchs
  · exact layoutOnly_memWrite.mono fun _ _ => LayoutOnly.sameArchs
  · exact within_modify fun _ => ⟨rfl, rfl⟩

theorem SameArchs.trans (h : SameArchs s t) (h' : SameArchs t vk) : SameArchs s vk :=
  ⟨h'.1.trans h.1, h'.2.trans h.2⟩

theorem sameArchs_of_within {α : Type} {m : VkM α} {r : Except ValkyrieError α}
    (h : m.Within SameArchs) (run : m.Ends vk r vk') : SameArchs vk vk' :=
  h.keeps (I := SameArchs vk) (fun _ _ step here => here.trans step) run ⟨rfl, rfl⟩

theorem noPanic_beforeInput : ¬ (beforeInput snapshot input).Ends u (.error .panic) u' := by
  intro run
  rcases ends_bind.1 run with ⟨err, failed, same⟩ | ⟨_, u₁, -, rest⟩
  · obtain ⟨x, i, -, told, -⟩ := ends_onInstance.1 failed
    cases same
    cases x <;> cases told
  · exact (kept_of_ready rest).1 rfl

theorem setsUp_beforeInput {snapshot : EmulatorSnapshot} {input : List U8}
    (sameArch : u.vk.arch.regs.arch = u.vk.cfg.arch) :
    SetsUp (beforeInput snapshot input) u := by
  have prepared {range : U64 × U64} {u' : Runner}
      (run : (beforeInput snapshot input).Ends u (.ok range) u') : ∃ vk,
      (prepareInput snapshot input).Ends u.vk (.ok ()) vk ∧ u'.vk.crashed = vk.crashed ∧
        SameSettings vk u'.vk := by
    obtain ⟨_, u₁, first, rest⟩ := ends_bind_ok.1 run
    obtain ⟨x, i, inner, same, rfl⟩ := ends_onInstance.1 first
    cases x with
    | error _ => cases same
    | ok _ =>
      obtain ⟨vk, core, rfl⟩ := ends_onVk.1 inner
      exact ⟨vk, core, (kept_of_ready rest).2 _ rfl⟩
  refine ⟨fun _ => noPanic_beforeInput, fun range u' run => ?_, fun range u' run => ?_⟩
  · obtain ⟨vk, core, crashed, -⟩ := prepared run
    obtain ⟨_, vk₁, -, last⟩ := ends_bind_ok.1 core
    obtain ⟨-, rfl⟩ := ends_modify.1 last
    exact crashed
  · obtain ⟨vk, core, -, settings⟩ := prepared run
    have same := sameArchs_of_within sameArchs_prepareInput core
    rw [settings.arch, settings.cfg, same.1, same.2, sameArch]

/-! ## The prepared range -/

/-- Where the engine starts and stops is as it was. -/
def SameRange (u u' : Runner) : Prop :=
  u'.preparedStart = u.preparedStart ∧ u'.preparedEnd = u.preparedEnd

theorem SameRange.trans {u₀ : Runner} (h : SameRange u₀ u) (h' : SameRange u u') : SameRange u₀ u' :=
  ⟨h'.1.trans h.1, h'.2.trans h.2⟩

theorem sameRange_onInstance {α : Type} {m : InstanceM α} : (onInstance m).Within SameRange := by
  intro u r u' run
  obtain ⟨x, i, -, -, rfl⟩ := ends_onInstance.1 run
  exact .single ⟨rfl, rfl⟩

theorem sameRange_modifyVk {f : Valkyrie → Valkyrie} : (modifyVk f).Within SameRange :=
  within_modify fun _ => ⟨rfl, rfl⟩

theorem sameRange_emulate : (emulate emuStart start stop).Within SameRange := by
  refine Within.bind ?_ fun outcome => ?_
  · intro u r u' run
    obtain ⟨x, inner, -⟩ := ends_mapError.1 run
    obtain ⟨vk, -, rfl⟩ := ends_zoom.1 inner
    exact .single ⟨rfl, rfl⟩
  · cases outcome with
    | ok _ => exact sameRange_modifyVk
    | error err =>
      refine Within.bind (within_get.bind fun _ => .ite sameRange_modifyVk ?_) fun _ =>
        sameRange_modifyVk
      exact sameRange_modifyVk.bind fun _ => within_throw _

theorem sameRange_runInputPrepared :
    (runInputPrepared snapshot input emuStart).Within SameRange := by
  have ready : ready.Within SameRange := by
    refine within_get.bind fun s => sameRange_modifyVk.bind fun _ => ?_
    cases s.preparedStart with
    | none => exact sameRange_modifyVk.bind fun _ => sameRange_onInstance
    | some start =>
      cases s.preparedEnd with
      | none => exact sameRange_modifyVk.bind fun _ => sameRange_onInstance
      | some stop => exact within_pure _
  rw [runInputPrepared_eq]
  refine Within.bind (Within.attempt ?_) fun outcome => ?_
  · exact (sameRange_onInstance.bind fun _ => ready).bind fun _ => sameRange_emulate
  · rcases outcome with (_ | _) | _
    · exact within_throw _
    · exact within_pure _
    · exact within_get.bind fun _ => within_pure _

theorem sameRange_of_input {r : Except Early ExitKind}
    (run : (runInputPrepared snapshot input emuStart).Ends u r u') : SameRange u u' :=
  sameRange_runInputPrepared.keeps (I := SameRange u) (fun _ _ step here => here.trans step) run
    ⟨rfl, rfl⟩

/-- The emulator is prepared to run from one address to another. -/
structure Runner.Prepared (u : Runner) (start stop : U64) : Prop where
  preparedStart : u.preparedStart = some start
  preparedEnd : u.preparedEnd = some stop
  sameArch : u.vk.arch.regs.arch = u.vk.cfg.arch

theorem sameArchs_captureSnapshot : captureSnapshot.Within SameArchs := by
  have protect (call : Unicorn → Except UcError Unicorn) :
      (ucCheck "mem_protect failed" call).Within SameArchs :=
    within_ucCheck (fun _ _ => ⟨rfl, rfl⟩) _ call
  refine within_get.bind fun vk => (within_mapM _ fun region => ?_).bind fun _ =>
    within_get.bind fun _ => within_pure _
  refine Within.bind (.ite within_memRead ?_) fun _ => within_pure _
  exact (protect _).bind fun _ => within_memRead.attempt.bind fun _ => (protect _).bind fun _ =>
    within_ofExcept _

/-- The creation of a reusable emulator, step by step. -/
theorem reusableNew_ok (created : (reusableNew handler).Ends u (.ok snapshot) u') :
    ∃ i range vk₁ vk₂, (prepareInitialRun handler).Ends u.inst (.ok ()) i ∧
      prepareExecution.Ends i.vk (.ok range) vk₁ ∧ captureSnapshot.Ends vk₁ (.ok snapshot) vk₂ ∧
      u' = ⟨i.withVk vk₂, true, some range.1, some range.2⟩ := by
  rw [reusableNew, ends_bind_modify] at created
  obtain ⟨_, u₁, initial, created⟩ := ends_bind_ok.1 created
  obtain ⟨range, u₂, prepared, created⟩ := ends_bind_ok.1 created
  obtain ⟨x, i, first, told, rfl⟩ := ends_onInstance.1 initial
  obtain ⟨y, j, second, told', rfl⟩ := ends_onInstance.1 prepared
  obtain ⟨z, k, third, told'', rfl⟩ := ends_onInstance.1 (ends_bind_modify.1 created)
  obtain ⟨vk₁, prepares, rfl⟩ := ends_onVk.1 second
  obtain ⟨vk₂, captures, rfl⟩ := ends_onVk.1 third
  cases x <;> cases told
  cases y <;> cases told'
  cases z <;> cases told''
  exact ⟨i, range, vk₁, vk₂, first, prepares, captures, rfl⟩

/-- A reusable emulator is prepared when it is created. -/
theorem prepared_of_reusableNew (created : (reusableNew handler).Ends u (.ok snapshot) u')
    (sameArch : u.vk.arch.regs.arch = u.vk.cfg.arch) : ∃ start stop, u'.Prepared start stop := by
  obtain ⟨i, range, vk₁, vk₂, initial, prepares, captures, rfl⟩ := reusableNew_ok created
  refine ⟨range.1, range.2, rfl, rfl, ?_⟩
  show vk₂.arch.regs.arch = vk₂.cfg.arch
  have first := (laysOut_of_prepareInitialRun initial).settings
  have second := (laysOut_of_prepareExecution prepares).settings
  have third := sameArchs_of_within sameArchs_captureSnapshot captures
  rw [third.1, third.2, second.arch, second.cfg, first.arch, first.cfg]
  exact sameArch

/-! ## What is told -/

/-- A prepared emulator gets ready by starting to run. -/
theorem beforeInput_ends (preparedStart : u.preparedStart = some start)
    (preparedEnd : u.preparedEnd = some stop) {r : Except Early (U64 × U64)}
    (run : (beforeInput snapshot input).Ends u r u') :
    (∃ err vk, (prepareInput snapshot input).Ends u.vk (.error err) vk ∧
      r = .error (.error err) ∧ u'.vk = vk) ∨
    ∃ vk, (prepareInput snapshot input).Ends u.vk (.ok ()) vk ∧ r = .ok (start, stop) ∧
      u'.vk = { vk with vstate := .running } := by
  rcases ends_bind.1 run with ⟨early, failed, rfl⟩ | ⟨_, u₁, restored, rest⟩
  · obtain ⟨x, i, inner, told, rfl⟩ := ends_onInstance.1 failed
    obtain ⟨vk, core, rfl⟩ := ends_onVk.1 inner
    cases x with
    | error err =>
      cases told
      exact .inl ⟨err, vk, core, rfl, rfl⟩
    | ok _ => cases told
  · obtain ⟨x, i, inner, told, rfl⟩ := ends_onInstance.1 restored
    obtain ⟨vk, core, rfl⟩ := ends_onVk.1 inner
    cases x with
    | error _ => cases told
    | ok _ =>
      rw [ready, ends_bind_get, setVstate, modifyVk, ends_bind_modify] at rest
      simp only [preparedStart, preparedEnd] at rest
      obtain ⟨rfl, rfl⟩ := ends_pure.1 rest
      exact .inr ⟨vk, core, rfl, rfl⟩

/-- A prepared emulator that gets ready has been restored. -/
theorem beforeInput_ok {range : U64 × U64} (preparedStart : u.preparedStart = some start)
    (preparedEnd : u.preparedEnd = some stop)
    (run : (beforeInput snapshot input).Ends u (.ok range) u') :
    range = (start, stop) ∧ ∃ vk, (restoreSnapshot snapshot).Ends u.vk (.ok ()) vk ∧
      u'.vk = { (vk.setStdinBytes input).resetExecutionState with vstate := .running } := by
  rcases beforeInput_ends preparedStart preparedEnd run with ⟨_, _, -, same, -⟩ | ⟨_, core, same, left⟩
  · cases same
  · obtain ⟨_, vk, restore, last⟩ := ends_bind_ok.1 core
    obtain ⟨-, rfl⟩ := ends_modify.1 last
    exact ⟨Except.ok.inj same, vk, restore, left⟩

/-- An emulation keeps the architecture. -/
theorem sameArch_of_emulate (runs : emuStart.RunsGuest trace)
    (sameArch : u.vk.arch.regs.arch = u.vk.cfg.arch)
    (run : (emulate emuStart start stop).Ends u e u') :
    u'.vk.arch.regs.arch = u'.vk.cfg.arch := by
  obtain ⟨o, vk, ran, ends⟩ := emulation_of_ends run
  have kept := settings_of_run (runs _ _ _ _ _ ran)
  have width : vk.arch.regs.arch = u.vk.arch.regs.arch := congrArg Settings.regsArch kept
  have arch : vk.cfg.arch = u.vk.cfg.arch := congrArg (fun st => st.cfg.arch) kept
  rw [ends.frame]
  show vk.arch.regs.arch = vk.cfg.arch
  rw [width, arch, sameArch]

/-- An input keeps the architecture. -/
theorem sameArch_of_input (runs : emuStart.RunsGuest trace) (prepared : u.Prepared start stop)
    {r : Except Early ExitKind} (run : (exitKind (beforeInput snapshot input >>= fun range =>
      emulate emuStart range.1 range.2)).Ends u r u') : u'.vk.arch.regs.arch = u'.vk.cfg.arch := by
  have restored {x : Except ValkyrieError Unit} {vk : Valkyrie}
      (core : (prepareInput snapshot input).Ends u.vk x vk) : vk.arch.regs.arch = vk.cfg.arch := by
    have same := sameArchs_of_within sameArchs_prepareInput core
    rw [same.1, same.2, prepared.sameArch]
  have body {x : Except Early Unit} {u₁ : Runner} (run : (beforeInput snapshot input >>=
      fun range => emulate emuStart range.1 range.2).Ends u x u₁) :
      u₁.vk.arch.regs.arch = u₁.vk.cfg.arch := by
    obtain ⟨preparedStart, preparedEnd, -⟩ := prepared
    rcases ends_bind.1 run with ⟨early, failed, -⟩ | ⟨range, u₀, before, emulated⟩
    · rcases beforeInput_ends preparedStart preparedEnd failed with
        ⟨err, vk, core, -, left⟩ | ⟨vk, -, same, -⟩
      · rw [left]
        exact restored core
      · cases same
    · rcases beforeInput_ends preparedStart preparedEnd before with
        ⟨err, vk, -, same, -⟩ | ⟨vk, core, -, left⟩
      · cases same
      · have same := restored core
        refine sameArch_of_emulate runs ?_ emulated
        rw [left]
        exact same
  obtain ⟨x, u₁, inner, last⟩ := ends_bind_attempt.1 run
  have still : u' = u₁ := by
    rcases x with (_ | _) | _
    · exact (ends_throw.1 last).2
    · exact (ends_pure.1 last).2
    · have answer : (pure (if u₁.vk.crashed = true then .crash else .ok) : RunM ExitKind).Ends u₁
        r u' := last
      exact (ends_pure.1 answer).2
  rw [still]
  exact body inner

/-- An input that has been given, and what has been told of it. -/
abbrev CampaignStep := Trace.Step Runner (List U8 × Except Early ExitKind)

/-- What is told of an input: the error that its preparation ends with, or else a crash exactly when
the engine fails or the guest ends itself by a fatal signal. -/
def ToldOf (emuStart : EmuStart) (trace : U64 → U64 → Valkyrie → List SystemStep)
    (snapshot : EmulatorSnapshot) (start stop : U64) (step : CampaignStep) : Prop :=
  (∃ err vk, (prepareInput snapshot step.call.1).Ends step.before.vk (.error err) vk ∧
    step.call.2 = .error (.error err)) ∨
  ∃ vk o vk' kind, (prepareInput snapshot step.call.1).Ends step.before.vk (.ok ()) vk ∧
    (emuStart start stop).Ends { vk with vstate := .running } o vk' ∧ step.call.2 = .ok kind ∧
    (kind = .crash ↔ (∃ err, o = .error err) ∨
      ∃ call ∈ trace start stop { vk with vstate := .running }, Crashes call)

/-- An input leaves a prepared emulator prepared, and is told for what it is. -/
theorem told_of_input {step : CampaignStep} (runs : emuStart.RunsGuest trace)
    (prepared : step.before.Prepared start stop)
    (run : (runInputPrepared snapshot step.call.1 emuStart).Ends step.before step.call.2
      step.after) :
    ToldOf emuStart trace snapshot start stop step ∧ step.after.Prepared start stop := by
  obtain ⟨preparedStart, preparedEnd, sameArch⟩ := prepared
  have setsUp := @setsUp_beforeInput step.before snapshot step.call.1 sameArch
  obtain ⟨first, second⟩ := sameRange_of_input run
  rw [runInputPrepared_eq] at run
  have told : ToldOf emuStart trace snapshot start stop step := by
    cases answer : step.call.2 with
    | error early =>
      rw [answer] at run
      rcases beforeInput_ends preparedStart preparedEnd ((error_iff_of_exitKind setsUp).1 run) with
        ⟨err, vk, core, same, -⟩ | ⟨vk, -, same, -⟩
      · cases same
        exact .inl ⟨err, vk, core, answer⟩
      · cases same
    | ok kind =>
      rw [answer] at run
      obtain ⟨range, u₀, o, vk₁, before, ran, told⟩ := crash_iff_of_exitKind setsUp runs run
      rcases beforeInput_ends preparedStart preparedEnd before with
        ⟨err, vk, -, same, -⟩ | ⟨vk, core, same, left⟩
      · cases same
      · cases same
        rw [left] at ran told
        exact .inr ⟨vk, o, vk₁, kind, core, ran, answer, told⟩
  exact ⟨told, first.trans preparedStart, second.trans preparedEnd,
    sameArch_of_input runs ⟨preparedStart, preparedEnd, sameArch⟩ run⟩

/-- Inputs given one after another. -/
abbrev Campaign (snapshot : EmulatorSnapshot) (emuStart : EmuStart) :
    Runner → List CampaignStep → Runner → Prop :=
  Trace (fun step => (runInputPrepared snapshot step.call.1 emuStart).Ends step.before step.call.2
    step.after) fun _ _ => False

/-- Every input of a campaign is run from where the first is run. -/
theorem sameRange_of_campaign {steps : List CampaignStep}
    (campaign : Campaign snapshot emuStart u steps u') : ∀ step ∈ steps,
      SameRange u step.before ∧ (runInputPrepared snapshot step.call.1 emuStart).Ends step.before
        step.call.2 step.after :=
  (campaign.keeps (I := SameRange u) ⟨rfl, rfl⟩
    (fun _ run here => here.trans (sameRange_of_input run)) fun _ _ => False.elim).2

/-- In every campaign on an emulator that has been created, each input is told for what it is. -/
theorem told_of_campaign {steps : List CampaignStep} {u₀ : Runner}
    (runs : emuStart.RunsGuest trace) (sameArch : u₀.vk.arch.regs.arch = u₀.vk.cfg.arch)
    (created : (reusableNew handler).Ends u₀ (.ok snapshot) u)
    (campaign : Campaign snapshot emuStart u steps u') :
    ∃ start stop, u.Prepared start stop ∧ u'.Prepared start stop ∧
      ∀ step ∈ steps, ToldOf emuStart trace snapshot start stop step := by
  obtain ⟨start, stop, prepared⟩ := prepared_of_reusableNew created sameArch
  obtain ⟨last, all⟩ := campaign.keeps (I := fun u => u.Prepared start stop) prepared
    (fun step run here => (told_of_input runs here run).2) fun _ _ => False.elim
  exact ⟨start, stop, prepared, last, fun step member =>
    (told_of_input runs (all step member).1 (all step member).2).1⟩

/-! ## A campaign of three inputs -/

/-- The new emulator is made reusable. -/
@[irreducible] def shortReady : Runner := (reusableNew fun vk _ _ => vk).final shortRunner

/-- It can be. -/
theorem reusable_short : ((reusableNew fun vk _ _ => vk).value shortRunner).isSome := by
  decide +kernel

/-- Its snapshot. -/
@[irreducible] def shortSnapshot : EmulatorSnapshot :=
  ((reusableNew fun vk _ _ => vk).value shortRunner).get reusable_short

theorem ends_reusableNew_short :
    (reusableNew fun vk _ _ => vk).Ends shortRunner (.ok shortSnapshot) shortReady := by
  unfold shortSnapshot shortReady
  exact ends_final (Option.some_get reusable_short).symm

/-- The emulator after an input. -/
@[irreducible] def Runner.fed (u : Runner) (input : List U8) : Runner :=
  (runInputPrepared shortSnapshot input (scripted shortGuest)).final u

/-- An input, and what is told of it. -/
def Runner.feeds (u : Runner) (input : List U8) (kind : ExitKind) : CampaignStep :=
  ⟨u, (input, .ok kind), u.fed input⟩

/-- A campaign goes on with an input of which an exit is told. -/
theorem Campaign.feed {steps : List CampaignStep} {u₀ : Runner}
    (campaign : Campaign shortSnapshot (scripted shortGuest) u₀ steps u)
    (told : (runInputPrepared shortSnapshot input (scripted shortGuest)).value u = some kind) :
    Campaign shortSnapshot (scripted shortGuest) u₀ (steps ++ [u.feeds input kind])
      (u.fed input) := by
  refine .call (u.feeds input kind) campaign ?_
  show (runInputPrepared shortSnapshot input (scripted shortGuest)).Ends u (.ok kind) (u.fed input)
  unfold Runner.fed
  exact ends_final told

/-- A signal, a store where nothing is mapped, and four steps without a crash. -/
def shortSteps : List CampaignStep :=
  [shortReady.feeds [0] .crash, (shortReady.fed [0]).feeds [1] .crash,
    ((shortReady.fed [0]).fed [1]).feeds [2] .ok]

theorem campaign_short : Campaign shortSnapshot (scripted shortGuest) shortReady shortSteps
    (((shortReady.fed [0]).fed [1]).fed [2]) := by
  have first : Campaign shortSnapshot (scripted shortGuest) shortReady
      ([] ++ [shortReady.feeds [0] .crash]) (shortReady.fed [0]) :=
    Campaign.feed .start (by decide +kernel)
  have second : Campaign shortSnapshot (scripted shortGuest) shortReady
      ([] ++ [shortReady.feeds [0] .crash] ++ [(shortReady.fed [0]).feeds [1] .crash])
      ((shortReady.fed [0]).fed [1]) := first.feed (by decide +kernel)
  exact second.feed (by decide +kernel)

theorem told_of_campaign_short : ∃ start stop,
    (reusableNew fun vk _ _ => vk).Ends shortRunner (.ok shortSnapshot) shortReady ∧
      shortSteps.map Trace.Step.call =
        [([0], .ok .crash), ([1], .ok .crash), ([2], .ok .ok)] ∧
      ∀ step ∈ shortSteps, ToldOf (scripted shortGuest) (scriptTrace shortGuest) shortSnapshot
        start stop step := by
  obtain ⟨start, stop, -, -, told⟩ := told_of_campaign (runsGuest_scripted shortGuest)
    sameArch_short ends_reusableNew_short campaign_short
  exact ⟨start, stop, ends_reusableNew_short, rfl, told⟩

end ValkyrieRs

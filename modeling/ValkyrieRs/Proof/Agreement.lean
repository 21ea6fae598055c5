import ValkyrieRs.Proof.Campaigns
import ValkyrieRs.Proof.FreshSnapshot

/-!
# The reusable emulator agrees with the plain one

The plain way sets an emulator up for every input; a reusable emulator is set up once, and restored
before every input.  The set-up takes no notice of the input, so that where the restore brings the
emulator back, the engine starts in the same state on either way and the same is told of the input.
-/

namespace ValkyrieRs

open Proc

variable {α : Type} {vk vk₀ : Valkyrie} {i i' : Instance} {u u' u₀ : Runner} {input : List U8}
  {emuStart : EmuStart} {start stop : U64} {kind : ExitKind} {range : U64 × U64}
  {handler showInstructions : Valkyrie → U64 → U32 → Valkyrie} {snapshot : EmulatorSnapshot}

/-! ## The start of the engine -/

/-- The emulator when the engine starts on an input. -/
def Valkyrie.started (vk : Valkyrie) (input : List U8) : Valkyrie :=
  vk.withRun (.fresh input .running)

/-- The initial preparation of an emulator that has been given an input. -/
theorem prepareInitialRun_given (ran : (prepareInitialRun handler).Ends i (.ok ()) i') :
    (prepareInitialRun handler).Ends (i.withVk (i.vk.setStdinBytes input)) (.ok ())
      (i'.withRun (.fresh input .notSet)) := by
  obtain ⟨_, i₁, reset, rest⟩ := ends_bind_ok.1 ran
  obtain ⟨vk₁, forgets, rfl⟩ := ends_onVk.1 reset
  obtain ⟨-, rfl⟩ := ends_modify.1 forgets
  have first : (onVk resetExecutionState).Ends (i.withVk (i.vk.setStdinBytes input)) (.ok ())
      ((i.withVk i.vk.reset).withRun (.fresh input .notSet)) := rfl
  exact first.bind (commutes_afterReset.ends rest)

/-- The plain way sets the emulator up as it is set up without the input. -/
theorem beforeStart_given (unprepared : u.preparedStart = none)
    (initial : (prepareInitialRun handler).Ends u.inst (.ok ()) i)
    (prepares : prepareExecution.Ends i.vk (.ok range) vk) :
    ∃ u', (beforeStart handler).Ends (u.withVk (u.vk.setStdinBytes input)) (.ok range) u' ∧
      u'.vk = vk.started input := by
  have first : (onInstance (prepareInitialRun handler)).Ends
      (u.withVk (u.vk.setStdinBytes input)) (.ok ())
      { u with inst := i.withRun (.fresh input .notSet) } :=
    ends_onInstance.2 ⟨.ok (), _, prepareInitialRun_given initial, rfl, rfl⟩
  refine ⟨{ u with inst := i.withVk (vk.started input) }, first.bind ?_, rfl⟩
  rw [ready, ends_bind_get, setVstate, modifyVk, ends_bind_modify]
  simp only [unprepared, ends_bind_modify]
  refine ends_onInstance.2 ⟨.ok range, _, ends_onVk.2 ⟨vk.started input, ?_, rfl⟩, rfl, rfl⟩
  exact (@blind_prepareExecution (.fresh input .running) rfl).ends prepares

/-- The restore brings the emulator back to what it was, up to what every input sets anew. -/
def BroughtBack (snapshot : EmulatorSnapshot) (vk₀ vk : Valkyrie) : Prop :=
  ∃ vk', (restoreSnapshot snapshot).Ends vk (.ok ()) vk' ∧ vk'.started [] = vk₀.started []

/-- An input that is given where the emulator is brought back starts from there. -/
theorem beforeInput_given (preparedStart : u.preparedStart = some start)
    (preparedEnd : u.preparedEnd = some stop) (back : BroughtBack snapshot vk₀ u.vk) :
    ∃ u', (beforeInput snapshot input).Ends u (.ok (start, stop)) u' ∧
      u'.vk = vk₀.started input := by
  obtain ⟨vk', restored, same⟩ := back
  have prepared : (prepareInput snapshot input).Ends u.vk (.ok ())
      (vk'.setStdinBytes input).resetExecutionState := restored.bind (ends_modify.2 ⟨rfl, rfl⟩)
  have first : (onInstance (onVk (prepareInput snapshot input))).Ends u (.ok ())
      { u with inst := u.inst.withVk (vk'.setStdinBytes input).resetExecutionState } :=
    ends_onInstance.2 ⟨.ok (), _, ends_onVk.2 ⟨_, prepared, rfl⟩, rfl, rfl⟩
  refine ⟨{ u with inst := u.inst.withVk (vk'.started input) }, first.bind ?_, ?_⟩
  · rw [ready, ends_bind_get, setVstate, modifyVk, ends_bind_modify]
    simp only [preparedStart, preparedEnd]
    exact ends_pure.2 ⟨rfl, rfl⟩
  · show (vk'.started []).started input = (vk₀.started []).started input
    rw [same]

/-! ## What is told -/

/-- An input that is given where the emulator is brought back is told as the engine tells it. -/
theorem tells_of_input (preparedStart : u.preparedStart = some start)
    (preparedEnd : u.preparedEnd = some stop) (back : BroughtBack snapshot vk₀ u.vk) :
    (∃ u', (runInputPrepared snapshot input emuStart).Ends u (.ok kind) u') ↔
      Tells emuStart start stop (vk₀.started input) kind := by
  obtain ⟨u₁, before, starts⟩ := beforeInput_given preparedStart preparedEnd back
  rw [runInputPrepared_eq, ← starts, ← tells_of_emulate]
  exact exists_congr fun _ => exitKind_bind before

/-- The plain way tells of an input what the engine tells of it. -/
theorem tells_of_plain (unprepared : u.preparedStart = none)
    (initial : (prepareInitialRun handler).Ends u.inst (.ok ()) i)
    (prepares : prepareExecution.Ends i.vk (.ok range) vk) :
    (∃ u', (runValkyrie handler emuStart).Ends (u.withVk (u.vk.setStdinBytes input)) (.ok kind)
      u') ↔ Tells emuStart range.1 range.2 (vk.started input) kind := by
  obtain ⟨u₁, before, starts⟩ := beforeStart_given unprepared initial prepares
  rw [runValkyrie, runVk_eq, ← starts, ← tells_of_emulate]
  exact exists_congr fun _ => exitKind_bind before

/-- A new emulator that is made reusable has been set up, and its snapshot has been taken. -/
theorem reusableNew_of_new {args : NewArgs} {answers : ℕ → Option UcError} {disassemble : Bool}
    {parse : List Char → Option Binary}
    (made : (valkyrieNew parse showInstructions disassemble).Ends (args.fresh answers) (.ok ())
      u₀.inst)
    (created : (reusableNew handler).Ends u₀ (.ok snapshot) u) :
    ∃ i range vk, (prepareInitialRun handler).Ends u₀.inst (.ok ()) i ∧
      prepareExecution.Ends i.vk (.ok range) vk ∧ Captured vk.mem.regions vk.uc ∧
      snapshot = vk.toSnapshot ∧ u = ⟨i.withVk vk, true, some range.1, some range.2⟩ := by
  obtain ⟨i, range, vk₁, vk₂, initial, prepares, captures, same⟩ := reusableNew_ok created
  have captured := mapStable_captured.setUp (mapStable_captured.valkyrieNew made) initial prepares
  obtain ⟨rfl, taken⟩ := captureSnapshot_same captured captures
  exact ⟨i, range, vk₂, initial, prepares, captured, taken, same⟩

/-- A new emulator that is made reusable is brought back by a restore at once. -/
theorem broughtBack_of_reusableNew {args : NewArgs} {answers : ℕ → Option UcError}
    {disassemble : Bool} {parse : List Char → Option Binary}
    (made : (valkyrieNew parse showInstructions disassemble).Ends (args.fresh answers) (.ok ())
      u₀.inst)
    (created : (reusableNew handler).Ends u₀ (.ok snapshot) u) : BroughtBack snapshot u.vk u.vk := by
  obtain ⟨i, range, vk, -, -, captured, rfl, rfl⟩ := reusableNew_of_new made created
  exact ⟨vk, restoreSnapshot_same captured, rfl⟩

/-- A new emulator that is made reusable is brought back by a restore at once, and wherever a restore
brings it back, an input is told as the plain way tells it. -/
theorem told_as_plain {args : NewArgs} {answers : ℕ → Option UcError} {disassemble : Bool}
    {parse : List Char → Option Binary} {steps : List CampaignStep}
    (made : (valkyrieNew parse showInstructions disassemble).Ends (args.fresh answers) (.ok ())
      u₀.inst)
    (unprepared : u₀.preparedStart = none)
    (created : (reusableNew handler).Ends u₀ (.ok snapshot) u)
    (campaign : Campaign snapshot emuStart u steps u') :
    BroughtBack snapshot u.vk u.vk ∧
      ∀ step ∈ steps, BroughtBack snapshot u.vk step.before.vk → ∀ kind,
        step.call.2 = .ok kind ↔ ∃ w, (runValkyrie handler emuStart).Ends
          (u₀.withVk (u₀.vk.setStdinBytes step.call.1)) (.ok kind) w := by
  refine ⟨broughtBack_of_reusableNew made created, fun step member back kind => ?_⟩
  obtain ⟨i, range, vk, initial, prepares, -, -, rfl⟩ := reusableNew_of_new made created
  obtain ⟨⟨starts, stops⟩, run⟩ := sameRange_of_campaign campaign step member
  rw [tells_of_plain unprepared initial prepares]
  refine Iff.trans ?_ (tells_of_input starts stops back)
  constructor
  · intro told
    exact ⟨step.after, told ▸ run⟩
  · rintro ⟨w, again⟩
    exact (run.unique again).1

/-- The first input of the campaign, on which the guest maps a page and sends itself `SIGSEGV`, is told
as the plain way tells it. -/
theorem told_as_plain_short : BroughtBack shortSnapshot shortReady.vk shortReady.vk ∧
    (runInputPrepared shortSnapshot [0] (scripted shortGuest)).Ends shortReady (.ok .crash)
      (shortReady.fed [0]) ∧
    ∃ w, (runValkyrie (fun vk _ _ => vk) (scripted shortGuest)).Ends (shortRunner.given [0])
      (.ok .crash) w := by
  obtain ⟨back, all⟩ :=
    told_as_plain ends_valkyrieNew_short rfl ends_reusableNew_short campaign_short
  exact ⟨back, campaign_short.made _ (.head _), (all _ (.head _) back .crash).1 rfl⟩

end ValkyrieRs

import ValkyrieRs.Proof.Agreement
import ValkyrieRs.Proof.SystemInvariants

/-!
# The start of every input

Whatever the engine did on the inputs before, an input that is not told as an error starts from the
snapshot: a snapshot taken there would be the same again.  Where in addition the memory calls of the
guest edit both copies of the memory map alike, nothing else is mapped.
-/

namespace ValkyrieRs

open Proc

variable {vk vk' vk₀ : Valkyrie} {uc uc₀ : Unicorn} {regions : List VMemRegion} {r : VMemRegion}
  {u u' u₀ u₁ : Runner} {emuStart : EmuStart} {start stop : U64} {kind : ExitKind}
  {range : U64 × U64} {handler showInstructions : Valkyrie → U64 → U32 → Valkyrie}
  {snapshot : EmulatorSnapshot} {input : List U8} {steps : List CampaignStep}
  {trace : U64 → U64 → Valkyrie → List SystemStep}

/-! ## The snapshot after a restore -/

/-- The saved bytes of a region are those of the region. -/
theorem saved_congr (bound : r.start.toNat + r.size.toNat ≤ 2 ^ 64)
    (same : ∀ x ∈ r, uc.bytes x = uc₀.bytes x) : r.saved uc = r.saved uc₀ := by
  refine congrArg (WritableRegionSnapshot.mk r.start) ?_
  refine (Unicorn.contents_eq_iff bound Unicorn.length_contents).2 fun x inside => ?_
  rw [Unicorn.getD_contents inside]
  exact same x inside

/-- A restore of a captured layout that succeeds has brought its pages back, and then the bytes of
those that can be written. -/
theorem restoreSnapshot_ok (captured : Captured vk₀.mem.regions vk₀.uc)
    (restore : (restoreSnapshot vk₀.toSnapshot).Ends vk (.ok ()) vk') :
    ∃ vk₁ vk₂ : Valkyrie, LayoutRestored vk₀.mem.regions vk vk₁ ∧ vk₂.uc.pages = vk₁.uc.pages ∧
      (∀ x, (∃ r ∈ vk₀.mem.regions.filter (·.prot.write), x ∈ r) →
        vk₂.uc.bytes x = vk₀.uc.bytes x) ∧
      vk₂.mem.regions = vk₀.mem.regions ∧ vk' = vk₂.withSnapshot vk₀.toSnapshot := by
  obtain ⟨_, vk₁, layout, rest⟩ := ends_bind_ok.1 restore
  obtain ⟨_, vk₂, writes, last⟩ := ends_bind_ok.1 rest
  obtain ⟨-, left⟩ := ends_modify.1 last
  have restored := layoutRestored_of_ends captured.nonempty captured.disjoint layout
  obtain ⟨pages, bytes, frame⟩ := ends_writeBack writes
  have listed : vk₂.mem.regions = vk₀.mem.regions := by
    rw [frame, restored.frame]
    rfl
  exact ⟨vk₁, vk₂, restored, pages, fun x writable => (bytes x).trans (if_pos writable), listed, left⟩

/-- A snapshot of a captured layout that is restored could be taken again. -/
theorem toSnapshot_of_restoreSnapshot (captured : Captured vk₀.mem.regions vk₀.uc)
    (restore : (restoreSnapshot vk₀.toSnapshot).Ends vk (.ok ()) vk') :
    vk'.toSnapshot = vk₀.toSnapshot ∧ Captured vk'.mem.regions vk'.uc := by
  obtain ⟨vk₁, vk₂, restored, pages, bytes, listed, rfl⟩ := restoreSnapshot_ok captured restore
  have saved : (vk₀.mem.regions.filter (·.prot.write)).map (VMemRegion.saved vk₂.uc) =
      (vk₀.mem.regions.filter (·.prot.write)).map (VMemRegion.saved vk₀.uc) := by
    refine List.map_congr_left fun r hr => ?_
    exact saved_congr (captured.bound r (List.mem_of_mem_filter hr)) fun x hx => bytes x ⟨r, hr, hx⟩
  constructor
  · show EmulatorSnapshot.mk _ vk₂.mem.regions ((vk₂.mem.regions.filter (·.prot.write)).map
      (VMemRegion.saved vk₂.uc)) _ _ _ _ _ _ = _
    rw [listed, saved]
    rfl
  · have mapped : ∀ r ∈ vk₀.mem.regions, ∀ x ∈ r, vk₂.uc.protAt x = some r.prot := by
      intro r hr x hx
      rw [Unicorn.protAt, pages]
      exact (restored.inside r hr x hx).1
    have back : Captured vk₂.mem.regions vk₂.uc := by
      rw [listed]
      exact ⟨captured.aligned, captured.nonempty, captured.bound, captured.disjoint, mapped⟩
    exact back.congr rfl

/-! ## Whatever the engine does -/

/-- The emulator is about to start on an input with all that the snapshot holds. -/
structure StartsFrom (snapshot : EmulatorSnapshot) (input : List U8) (vk : Valkyrie) : Prop where
  captured : Captured vk.mem.regions vk.uc
  snapshot : vk.toSnapshot = snapshot
  run : vk.runFields = .fresh input .running

/-- An input that is not refused starts from the snapshot. -/
theorem startsFrom_of_beforeInput (captured : Captured vk₀.mem.regions vk₀.uc)
    (preparedStart : u.preparedStart = some start) (preparedEnd : u.preparedEnd = some stop)
    (before : (beforeInput vk₀.toSnapshot input).Ends u (.ok range) u₁) :
    range = (start, stop) ∧ StartsFrom vk₀.toSnapshot input u₁.vk := by
  obtain ⟨same, vk, restore, left⟩ := beforeInput_ok preparedStart preparedEnd before
  obtain ⟨again, back⟩ := toSnapshot_of_restoreSnapshot captured restore
  rw [left]
  exact ⟨same, back, again, rfl⟩

/-- In every campaign on a new emulator, each input that is not told as an error starts from the
snapshot with nothing read, whatever the engine did before, and is told as the engine tells it. -/
theorem starts_of_campaign {args : NewArgs} {answers : ℕ → Option UcError} {disassemble : Bool}
    {parse : List Char → Option Binary}
    (made : (valkyrieNew parse showInstructions disassemble).Ends (args.fresh answers) (.ok ())
      u₀.inst)
    (created : (reusableNew handler).Ends u₀ (.ok snapshot) u)
    (campaign : Campaign snapshot emuStart u steps u') :
    ∃ start stop, ∀ step ∈ steps, ∀ kind, step.call.2 = .ok kind →
      ∃ vk, StartsFrom snapshot step.call.1 vk ∧ Tells emuStart start stop vk kind := by
  obtain ⟨i, range, vk, -, -, captured, rfl, rfl⟩ := reusableNew_of_new made created
  refine ⟨range.1, range.2, fun step member kind told => ?_⟩
  obtain ⟨⟨starts, stops⟩, run⟩ := sameRange_of_campaign campaign step member
  rw [runInputPrepared_eq, told] at run
  obtain ⟨range', u₁, before, run⟩ := before_of_exitKind (fun _ => noPanic_beforeInput) run
  obtain ⟨rfl, startsFrom⟩ := startsFrom_of_beforeInput captured starts stops before
  exact ⟨u₁.vk, startsFrom, tells_of_exitKind run⟩

/-- After a signal and a store that failed, the third input starts from the snapshot. -/
theorem starts_of_campaign_short : ∃ start stop vk, StartsFrom shortSnapshot [2] vk ∧
    Tells (scripted shortGuest) start stop vk .ok := by
  obtain ⟨start, stop, all⟩ :=
    starts_of_campaign ends_valkyrieNew_short ends_reusableNew_short campaign_short
  have last : ((shortReady.fed [0]).fed [1]).feeds [2] .ok ∈ shortSteps :=
    .tail _ (.tail _ (.head _))
  exact ⟨start, stop, all _ last .ok rfl⟩

/-! ## When the two copies of the memory map agree -/

/-- Where the list of regions mirrors the engine, a restore that succeeds leaves nothing else
mapped. -/
theorem mirrors_of_restoreSnapshot (captured : Captured vk₀.mem.regions vk₀.uc)
    (laid : Laid vk.mem.regions vk.uc) (mirrors : Mirrors vk.mem.regions vk.uc)
    (restore : (restoreSnapshot vk₀.toSnapshot).Ends vk (.ok ()) vk') :
    Mirrors vk'.mem.regions vk'.uc := by
  obtain ⟨vk₁, vk₂, restored, pages, -, regions, rfl⟩ := restoreSnapshot_ok captured restore
  have paged (s : VMemRegion) (hs : s ∈ vk₀.mem.regions) := captured.paged hs
  have listed (x : U64) (mapped : (vk.uc.protAt x).isSome) :
      ∃ r ∈ vk.mem.regions, pageBase x ∈ r := by
    rw [← Unicorn.protAt_pageBase] at mapped
    exact (mirrors.exact _).2 mapped
  have aligned : ∀ piece ∈ strayPieces vk.mem.regions vk₀.mem.regions, Aligned piece.2 :=
    fun piece hp => restored.pieces piece hp (aligned_of_mem_strayPieces laid.paged paged hp).2.1
  have restorable : Restorable vk₀.mem.regions vk := by
    refine ⟨listed, fun s hs => ?_, fun mapped => ?_⟩
    · have call := restored.ready s hs
      unfold VMemRegion.Ready at call
      split_ifs at call
      · exact .inr call.free
      · exact .inl call.mapped.2
    · obtain ⟨s, hs, hx⟩ := (aligned_pieces_iff laid.paged paged).1 aligned (listed _ mapped)
      exact ⟨s, hs, (captured.pageBase_mem_iff hs).1 hx⟩
  refine mapStable_mirrors.congr ?_ (show _ = vk₁.uc.pages from pages)
  show Mirrors vk₂.mem.regions vk₁.uc
  rw [regions]
  refine ⟨captured.nonempty, captured.disjoint, fun x => ⟨?_, fun mapped => ?_⟩⟩
  · rintro ⟨s, hs, hx⟩
    rw [(restored.inside s hs x hx).1]
    rfl
  · by_contra missing
    have outside := restored.outside_of_restorable laid captured restorable
      fun s hs hx => missing ⟨s, hs, hx⟩
    rw [outside] at mapped
    cases mapped

/-- Both copies of the memory map. -/
theorem mapInvariant_both :
    MapInvariant (fun u c => c.EditsBoth u) fun regions uc => Laid regions uc ∧ Mirrors regions uc where
  none := ⟨mapInvariant_laid.none, mapInvariant_mirrors.none⟩
  map h ok := ⟨mapInvariant_laid.map h.1 ok, mapInvariant_mirrors.map h.2 ok⟩
  congr h same := ⟨mapInvariant_laid.congr h.1 same, mapInvariant_mirrors.congr h.2 same⟩
  step both does h :=
    ⟨mapInvariant_laid.step trivial does h.1, mapInvariant_mirrors.step both does h.2⟩

/-- The memory calls that the guest makes after a set-up meet a condition. -/
def Meets (Q : Valkyrie → MemCall → Prop) (trace : U64 → U64 → Valkyrie → List SystemStep)
    (m : RunM (U64 × U64)) (u : Runner) : Prop :=
  ∀ range u₁, m.Ends u (.ok range) u₁ → ∀ step ∈ trace range.1 range.2 u₁.vk,
    ∀ c, memCallOf step = some c → Q step.before c

section Lives

variable {Q : Valkyrie → MemCall → Prop} {P : List VMemRegion → Unicorn → Prop}

/-- An invariant that a set-up establishes holds after the run. -/
theorem MapInvariant.exitKind {m : RunM (U64 × U64)} (kept : MapInvariant Q P)
    (runs : emuStart.RunsGuest trace) (setsUp : SetsUp m u) (meets : Meets Q trace m u)
    (starts : ∀ range u₁, m.Ends u (.ok range) u₁ → P u₁.vk.mem.regions u₁.vk.uc)
    (run : (exitKind (m >>= fun range => emulate emuStart range.1 range.2)).Ends u (.ok kind) u') :
    P u'.vk.mem.regions u'.vk.uc := by
  obtain ⟨range, u₁, e, before, emulated⟩ := emulated_of_exitKind setsUp.noPanic run
  obtain ⟨o, vk, ran, ends⟩ := emulation_of_ends emulated
  have after : P vk.mem.regions vk.uc := kept.systemRun (runs _ _ _ _ _ ran) (meets range u₁ before)
    (setsUp.sameArch range u₁ before) (starts range u₁ before)
  rw [ends.frame]
  exact after

/-! ## Plain runs -/

/-- Inputs given one after another to an emulator that is set up for each of them. -/
abbrev PlainRuns (handler : Valkyrie → U64 → U32 → Valkyrie) (emuStart : EmuStart) :
    Runner → List CampaignStep → Runner → Prop :=
  Trace (fun step => (runValkyrie handler emuStart).Ends (step.before.given step.call.1)
    step.call.2 step.after) fun _ _ => False

theorem MapStable.beforeStart (stable : MapStable P) (here : P u.vk.mem.regions u.vk.uc)
    (before : (beforeStart handler).Ends u (.ok range) u₁) : P u₁.vk.mem.regions u₁.vk.uc := by
  obtain ⟨_, u₂, first, rest⟩ := ends_bind_ok.1 before
  obtain ⟨x, i, inner, same, rfl⟩ := ends_onInstance.1 first
  cases x with
  | error _ => cases same
  | ok _ =>
    have initial : P i.vk.mem.regions i.vk.uc :=
      stable.laysOut (laysOut_of_prepareInitialRun inner) here
    rw [ready, ends_bind_get, setVstate, modifyVk, ends_bind_modify] at rest
    split at rest
    · obtain ⟨-, rfl⟩ := ends_pure.1 rest
      exact initial
    · obtain ⟨y, j, prepares, told, rfl⟩ := ends_onInstance.1 (ends_bind_modify.1 rest)
      obtain ⟨vk, core, rfl⟩ := ends_onVk.1 prepares
      cases y with
      | error _ => cases told
      | ok _ => exact stable.laysOut (laysOut_of_prepareExecution core) initial

theorem sameArch_of_exitKind {m : RunM (U64 × U64)} (runs : emuStart.RunsGuest trace)
    (setsUp : SetsUp m u) (run : (exitKind (m >>= fun range =>
      emulate emuStart range.1 range.2)).Ends u (.ok kind) u') :
    u'.vk.arch.regs.arch = u'.vk.cfg.arch := by
  obtain ⟨range, u₁, e, before, emulated⟩ := emulated_of_exitKind setsUp.noPanic run
  exact sameArch_of_emulate runs (setsUp.sameArch range u₁ before) emulated

theorem MapInvariant.plainRuns (kept : MapInvariant Q P) (runs : emuStart.RunsGuest trace)
    (plain : PlainRuns handler emuStart u steps u')
    (told : ∀ step ∈ steps, ∃ kind, step.call.2 = .ok kind)
    (meets : ∀ step ∈ steps,
      Meets Q trace (ValkyrieRs.beforeStart handler) (step.before.given step.call.1))
    (sameArch : u.vk.arch.regs.arch = u.vk.cfg.arch) (here : P u.vk.mem.regions u.vk.uc) :
    P u'.vk.mem.regions u'.vk.uc := by
  have all := plain.restrict fun step member => And.intro (told step member) (meets step member)
  refine ((all.keeps (I := fun u => u.vk.arch.regs.arch = u.vk.cfg.arch ∧
    P u.vk.mem.regions u.vk.uc) ⟨sameArch, here⟩ ?_ fun _ _ => False.elim).1).2
  rintro step ⟨run, ⟨kind, told⟩, meets⟩ ⟨sameArch, here⟩
  have setsUp : SetsUp (ValkyrieRs.beforeStart handler) (step.before.given step.call.1) :=
    setsUp_beforeStart sameArch
  rw [told, runValkyrie, runVk_eq] at run
  exact ⟨sameArch_of_exitKind runs setsUp run, kept.exitKind runs setsUp meets
    (fun _ _ => kept.toMapStable.beforeStart here) run⟩

/-- Over any number of plain runs of a new emulator the listed regions stay pages, apart from one another
and mapped; and they are all that is mapped, as long as the memory calls edit both copies alike. -/
theorem map_of_plainRuns {args : NewArgs} {answers : ℕ → Option UcError} {disassemble : Bool}
    {parse : List Char → Option Binary}
    (made : (valkyrieNew parse showInstructions disassemble).Ends (args.fresh answers) (.ok ())
      u.inst)
    (runs : emuStart.RunsGuest trace) (plain : PlainRuns handler emuStart u steps u')
    (told : ∀ step ∈ steps, ∃ kind, step.call.2 = .ok kind) :
    Laid u'.vk.mem.regions u'.vk.uc ∧
      ((∀ step ∈ steps, Meets (fun vk c => c.EditsBoth vk) trace (beforeStart handler)
        (step.before.given step.call.1)) → Mirrors u'.vk.mem.regions u'.vk.uc) := by
  have sameArch := sameArch_of_valkyrieNew made
  constructor
  · exact mapInvariant_laid.plainRuns runs plain told (fun _ _ _ _ _ _ _ _ _ => trivial) sameArch
      (mapInvariant_laid.toMapStable.valkyrieNew made)
  · intro both
    exact mapInvariant_mirrors.plainRuns runs plain told both sameArch
      (mapStable_mirrors.valkyrieNew made)

/-- The call is no fixed `mmap`, and rounds nothing away. -/
def MemCall.Harmless (vk : Valkyrie) : MemCall → Prop
  | mmap sctx | mmap2 sctx => ¬ sctx.UseFixed
  | munmap sctx => ∀ r ∈ vk.mem.regions, r.TopSafe sctx.arg0 sctx.mapLen
  | _ => True

instance (addr size : U64) (r : VMemRegion) : Decidable (r.TopSafe addr size) :=
  inferInstanceAs (Decidable (_ → (_ < _ ∧ _ < _) → _ ∧ _))

instance (vk : Valkyrie) : DecidablePred (MemCall.Harmless vk)
  | .mmap _ | .mmap2 _ => inferInstanceAs (Decidable (¬ _))
  | .munmap _ => inferInstanceAs (Decidable (∀ r ∈ _, VMemRegion.TopSafe _ _ r))
  | .mprotect _ | .brk _ | .map _ _ _ _ => inferInstanceAs (Decidable True)

theorem MemCall.Harmless.editsBoth {vk : Valkyrie} {c : MemCall} (h : c.Harmless vk) :
    c.EditsBoth vk := by
  cases c with
  | mmap sctx => exact fun fixed => (h fixed).elim
  | mmap2 sctx => exact fun fixed => (h fixed).elim
  | munmap sctx => exact fun _ _ => h
  | mprotect sctx => exact trivial
  | brk sctx => exact trivial
  | map addr size prot info => exact trivial

/-- After a set-up that ends in a known state, the calls of a trace are known. -/
theorem meets_of_harmless {m : RunM (U64 × U64)} (begins : m.value u = some range)
    (harmless : ∀ step ∈ trace range.1 range.2 (m.final u).vk, ∀ c ∈ memCallOf step,
      c.Harmless step.before) : Meets (fun vk c => c.EditsBoth vk) trace m u := by
  intro range' u₁ ends step member c call
  obtain ⟨same, rfl⟩ := ends.unique (ends_final begins)
  cases same
  exact (harmless step member c call).editsBoth

/-- The plain way of an input. -/
@[irreducible] def Runner.plainly (u : Runner) (input : List U8) : Runner :=
  (runValkyrie (fun vk _ _ => vk) (scripted shortGuest)).final (u.given input)

/-- An input given in the plain way, and what is told of it. -/
def Runner.gives (u : Runner) (input : List U8) (kind : ExitKind) : CampaignStep :=
  ⟨u, (input, .ok kind), u.plainly input⟩

/-- Plain runs go on with an input of which an exit is told. -/
theorem PlainRuns.give (plain : PlainRuns (fun vk _ _ => vk) (scripted shortGuest) u₀ steps u)
    (told : (runValkyrie (fun vk _ _ => vk) (scripted shortGuest)).value (u.given input) =
      some kind) : PlainRuns (fun vk _ _ => vk) (scripted shortGuest) u₀
        (steps ++ [u.gives input kind]) (u.plainly input) := by
  refine .call (u.gives input kind) plain ?_
  show (runValkyrie (fun vk _ _ => vk) (scripted shortGuest)).Ends (u.given input) (.ok kind)
    (u.plainly input)
  unfold Runner.plainly
  exact ends_final told

/-- Four steps, and on the same emulator two that end in a signal. -/
def plainSteps : List CampaignStep :=
  [shortRunner.gives [2] .ok, (shortRunner.plainly [2]).gives [0] .crash]

theorem map_of_plainRuns_short :
    PlainRuns (fun vk _ _ => vk) (scripted shortGuest) shortRunner plainSteps
        ((shortRunner.plainly [2]).plainly [0]) ∧
      Mirrors ((shortRunner.plainly [2]).plainly [0]).vk.mem.regions
        ((shortRunner.plainly [2]).plainly [0]).vk.uc := by
  have first : PlainRuns (fun vk _ _ => vk) (scripted shortGuest) shortRunner
      ([] ++ [shortRunner.gives [2] .ok]) (shortRunner.plainly [2]) :=
    PlainRuns.give .start (by decide +kernel)
  have plain : PlainRuns (fun vk _ _ => vk) (scripted shortGuest) shortRunner plainSteps
      ((shortRunner.plainly [2]).plainly [0]) := first.give (by decide +kernel)
  refine ⟨plain, (map_of_plainRuns ends_valkyrieNew_short (runsGuest_scripted shortGuest) plain
    (List.forall_mem_cons.2 ⟨⟨_, rfl⟩, List.forall_mem_singleton.2 ⟨_, rfl⟩⟩)).2
    (List.forall_mem_cons.2 ⟨?_, List.forall_mem_singleton.2 ?_⟩)⟩
  · exact @meets_of_harmless _ (0x400000, 0x400002) _ _ (by decide +kernel) (by decide +kernel)
  · exact @meets_of_harmless _ (0x400000, 0x400002) _ _ (by decide +kernel) (by decide +kernel)

/-! ## Campaigns -/

/-- An invariant that a restore keeps holds when an input starts. -/
theorem starts_of_beforeInput (restores : ∀ {vk vk' : Valkyrie}, P vk.mem.regions vk.uc →
      (restoreSnapshot snapshot).Ends vk (.ok ()) vk' → P vk'.mem.regions vk'.uc)
    (prepared : u.Prepared start stop) (here : P u.vk.mem.regions u.vk.uc)
    (before : (beforeInput snapshot input).Ends u (.ok range) u₁) :
    range = (start, stop) ∧ P u₁.vk.mem.regions u₁.vk.uc := by
  obtain ⟨same, vk, restore, left⟩ :=
    beforeInput_ok prepared.preparedStart prepared.preparedEnd before
  have back : P vk.mem.regions vk.uc := restores here restore
  rw [left]
  exact ⟨same, back⟩

/-- An input keeps an invariant that a restore keeps, and starts where it holds. -/
theorem MapInvariant.runInput (kept : MapInvariant Q P) (runs : emuStart.RunsGuest trace)
    (restores : ∀ {vk vk' : Valkyrie}, P vk.mem.regions vk.uc →
      (restoreSnapshot snapshot).Ends vk (.ok ()) vk' → P vk'.mem.regions vk'.uc)
    (meets : Meets Q trace (beforeInput snapshot input) u) (prepared : u.Prepared start stop)
    (here : P u.vk.mem.regions u.vk.uc)
    (run : (runInputPrepared snapshot input emuStart).Ends u (.ok kind) u') :
    P u'.vk.mem.regions u'.vk.uc ∧ ∃ u₁,
      (beforeInput snapshot input).Ends u (.ok (start, stop)) u₁ ∧ P u₁.vk.mem.regions u₁.vk.uc := by
  have starts {range : U64 × U64} {u₁ : Runner}
      (before : (beforeInput snapshot input).Ends u (.ok range) u₁) :=
    starts_of_beforeInput restores prepared here before
  rw [runInputPrepared_eq] at run
  constructor
  · exact kept.exitKind runs (setsUp_beforeInput prepared.sameArch) meets
      (fun _ _ before => (starts before).2) run
  · obtain ⟨range, u₁, before, -⟩ := before_of_exitKind (fun _ => noPanic_beforeInput) run
    obtain ⟨rfl, after⟩ := starts before
    exact ⟨u₁, before, after⟩

theorem MapInvariant.campaign (kept : MapInvariant Q P) (runs : emuStart.RunsGuest trace)
    (restores : ∀ {vk vk' : Valkyrie}, P vk.mem.regions vk.uc →
      (restoreSnapshot snapshot).Ends vk (.ok ()) vk' → P vk'.mem.regions vk'.uc)
    (campaign : Campaign snapshot emuStart u steps u')
    (told : ∀ step ∈ steps, ∃ kind, step.call.2 = .ok kind)
    (meets : ∀ step ∈ steps, Meets Q trace (beforeInput snapshot step.call.1) step.before)
    (prepared : u.Prepared start stop) (here : P u.vk.mem.regions u.vk.uc) :
    P u'.vk.mem.regions u'.vk.uc ∧ ∀ step ∈ steps, step.before.Prepared start stop ∧ ∃ u₁,
      (beforeInput snapshot step.call.1).Ends step.before (.ok (start, stop)) u₁ ∧
        P u₁.vk.mem.regions u₁.vk.uc := by
  have all := campaign.restrict fun step member => And.intro (told step member) (meets step member)
  obtain ⟨last, past⟩ : (u'.Prepared start stop ∧ P u'.vk.mem.regions u'.vk.uc) ∧ _ := by
    refine all.keeps (I := fun u => u.Prepared start stop ∧ P u.vk.mem.regions u.vk.uc)
      ⟨prepared, here⟩ ?_ fun _ _ => False.elim
    rintro step ⟨run, ⟨kind, told⟩, meets⟩ ⟨prepared, here⟩
    refine ⟨(told_of_input runs prepared run).2, ?_⟩
    rw [told] at run
    exact (kept.runInput runs restores meets prepared here run).1
  refine ⟨last.2, fun step member => ?_⟩
  obtain ⟨⟨prepared, here⟩, run, ⟨kind, told⟩, meets⟩ := past step member
  rw [told] at run
  exact ⟨prepared, (kept.runInput runs restores meets prepared here run).2⟩

/-- Over every campaign on a new emulator whose inputs are not told as errors the listed regions stay
pages, apart from one another and mapped; and where the memory calls edit both copies alike, every
input starts from the snapshot with nothing mapped but what is listed. -/
theorem map_of_campaign {args : NewArgs} {answers : ℕ → Option UcError} {disassemble : Bool}
    {parse : List Char → Option Binary}
    (made : (valkyrieNew parse showInstructions disassemble).Ends (args.fresh answers) (.ok ())
      u₀.inst)
    (created : (reusableNew handler).Ends u₀ (.ok snapshot) u) (runs : emuStart.RunsGuest trace)
    (campaign : Campaign snapshot emuStart u steps u')
    (told : ∀ step ∈ steps, ∃ kind, step.call.2 = .ok kind) :
    Laid u'.vk.mem.regions u'.vk.uc ∧
      ((∀ step ∈ steps, Meets (fun vk c => c.EditsBoth vk) trace
          (beforeInput snapshot step.call.1) step.before) →
        Mirrors u'.vk.mem.regions u'.vk.uc ∧
          ∀ step ∈ steps, ∃ range u₁,
            (beforeInput snapshot step.call.1).Ends step.before (.ok range) u₁ ∧
              StartsFrom snapshot step.call.1 u₁.vk ∧ Mirrors u₁.vk.mem.regions u₁.vk.uc) := by
  obtain ⟨start, stop, prepared⟩ := prepared_of_reusableNew created (sameArch_of_valkyrieNew made)
  obtain ⟨i, range, vk, initial, prepares, captured, rfl, rfl⟩ := reusableNew_of_new made created
  have mirrors := mapStable_mirrors.setUp (mapStable_mirrors.valkyrieNew made) initial prepares
  constructor
  · refine (mapInvariant_laid.campaign runs (fun _ restore => ?_) campaign told
      (fun _ _ _ _ _ _ _ _ _ => trivial) prepared captured.laid).1
    exact (toSnapshot_of_restoreSnapshot captured restore).2.laid
  · intro both
    obtain ⟨last, starts⟩ := mapInvariant_both.campaign runs
      (fun here restore => ⟨(toSnapshot_of_restoreSnapshot captured restore).2.laid,
        mirrors_of_restoreSnapshot captured here.1 here.2 restore⟩)
      campaign told both prepared ⟨captured.laid, mirrors⟩
    refine ⟨last.2, fun step member => ?_⟩
    obtain ⟨ready, u₁, before, here⟩ := starts step member
    exact ⟨_, u₁, before, (startsFrom_of_beforeInput captured ready.preparedStart
      ready.preparedEnd before).2, here.2⟩

/-- Two pages are mapped; the restore takes one away again, and the guest the other. -/
theorem map_of_campaign_short : ∃ range u₁,
    (beforeInput shortSnapshot [2]).Ends ((shortReady.fed [0]).fed [1]) (.ok range) u₁ ∧
      StartsFrom shortSnapshot [2] u₁.vk ∧ Mirrors u₁.vk.mem.regions u₁.vk.uc := by
  have harmless (input : List U8) (u : Runner)
      (begins : (beforeInput shortSnapshot input).value u = some (0x400000, 0x400002)) :=
    @meets_of_harmless u _ (scriptTrace shortGuest) _ begins
  obtain ⟨-, mirrored⟩ := map_of_campaign ends_valkyrieNew_short ends_reusableNew_short
    (runsGuest_scripted shortGuest) campaign_short
    (List.forall_mem_cons.2 ⟨⟨_, rfl⟩, List.forall_mem_cons.2 ⟨⟨_, rfl⟩,
      List.forall_mem_singleton.2 ⟨_, rfl⟩⟩⟩)
  refine (mirrored (List.forall_mem_cons.2 ⟨?_, List.forall_mem_cons.2 ⟨?_,
    List.forall_mem_singleton.2 ?_⟩⟩)).2 (((shortReady.fed [0]).fed [1]).feeds [2] .ok)
      (.tail _ (.tail _ (.head _)))
  · exact harmless _ _ (by decide +kernel) (by decide +kernel)
  · exact harmless _ _ (by decide +kernel) (by decide +kernel)
  · exact harmless _ _ (by decide +kernel) (by decide +kernel)

end Lives

end ValkyrieRs

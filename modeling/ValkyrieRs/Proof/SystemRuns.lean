import ValkyrieRs.Lib.Trace
import ValkyrieRs.Proof.DispatchEffects

/-!
# Runs of the guest

Runs of any length of system calls, stores of the guest and computations in its registers, the host
answering each call as it likes.  What a run changes is what its handlers own and the places where
the handlers and the guest store; the emulator's own settings stay; and a state that looks the same
to the handlers has the same runs.
-/

namespace ValkyrieRs

open Proc

/-- What is recorded of a run: the system calls, each with the answers of the host and the
instruction, and the stores of the guest. -/
inductive SystemEvent where
  | syscall (services : Services) (addr : U64) (size : U32)
  | store (addr : U64) (data : List U8)

/-- The event leads from one state to the other. -/
def SystemEvent.Leads (s t : Valkyrie) : SystemEvent → Prop
  | syscall services addr size =>
    ∃ r, (syscallHandlerFor (sysHandlers services) s.cfg.arch addr size).Ends s r t
  | store addr data => ∃ uc, s.uc.memWrite addr data = .ok uc ∧ t = s.withUc uc

/-- A step of the run. -/
abbrev SystemStep := Trace.Step Valkyrie SystemEvent

/-- The recorded event happened. -/
def Happened (step : SystemStep) : Prop := step.call.Leads step.before step.after

/-- The guest computes in its registers. -/
inductive Computes : Valkyrie → Valkyrie → Prop
  | mk (vk : Valkyrie) (reg : VRegister → U64) : Computes vk (vk.withUc { vk.uc with reg })

/-- A run from one state to another, with its events. -/
abbrev SystemRun (s : Valkyrie) (steps : List SystemStep) (s' : Valkyrie) : Prop :=
  Trace Happened Computes s steps s'

/-- The handler that a step called. -/
def calledBy (step : SystemStep) : Option SysFn :=
  match step.call with
  | .syscall _ addr _ => step.before.called addr
  | .store _ _ => none

/-- Where a step may store. -/
def storedBy (step : SystemStep) : List (U64 × ℕ) :=
  match step.call with
  | .syscall _ addr _ =>
    (step.before.called addr).elim [] fun f => f.outputs step.before.subCtx step.before
  | .store addr data => [(addr, data.length)]

variable {s s' t vk vk' : Valkyrie} {steps : List SystemStep} {step : SystemStep} {c : Component}
  {x : U64} {sv : Services} {addr : U64} {size : U32}

/-! ## What a run changes -/

/-- The component is none of the guest's own. -/
def Component.Emulators : Component → Prop
  | register _ | regUpdates => False
  | _ => True

/-- A step changes no setting, the components of the handler that it calls, and the places where it
stores. -/
theorem changes_of_happened (happened : Happened step) :
    step.after.settings = step.before.settings ∧
    (c.Emulators → (∀ f, calledBy step = some f → c ∉ f.owned) → c.Same step.before step.after) ∧
    ((∀ o ∈ storedBy step, ¬ InRange o.1 o.2 x) →
      step.after.uc.bytes x = step.before.uc.bytes x) := by
  obtain ⟨before, call, after⟩ := step
  cases call with
  | syscall sv addr size =>
    obtain ⟨r, run⟩ := happened
    obtain ⟨changes, -⟩ := (does_syscallHandlerFor sv addr size before).safe rfl r after run
    refine ⟨changes.settings, fun emulators unowned => changes.same c fun owned => ?_,
      changes.bytes x⟩
    rcases List.mem_append.1 owned with mine | handlers
    · cases c <;> simp [Arch.dispatchOwned, Component.Emulators] at mine emulators
    · cases called : before.called addr with
      | none => simp [called] at handlers
      | some f =>
        rw [called] at handlers
        exact unowned f called handlers
  | store addr data =>
    obtain ⟨uc, ok, same⟩ := happened
    change before.uc.memWrite addr data = .ok uc at ok
    change after = before.withUc uc at same
    subst same
    obtain ⟨pages, reg, bytes⟩ := Unicorn.memWrite_effect ok
    have stop : uc.stopRequested = before.uc.stopRequested := by
      unfold Unicorn.memWrite at ok
      split_ifs at ok
      cases ok
      rfl
    refine ⟨rfl, fun emulators _ => ?_, fun outside => ?_⟩
    · cases c with
      | pages => exact pages
      | stop => exact stop
      | register r => exact emulators.elim
      | _ => rfl
    · exact (bytes x).trans (if_neg (outside _ (List.mem_singleton_self _)))

theorem Computes.settings (h : Computes s t) : t.settings = s.settings := by
  cases h
  rfl

theorem Computes.same (h : Computes s t) (emulators : c.Emulators) : c.Same s t := by
  cases h
  cases c with
  | register r => exact emulators.elim
  | _ => rfl

theorem Computes.bytes (h : Computes s t) : t.uc.bytes = s.uc.bytes := by
  cases h
  rfl

/-- No system call of a run changes the settings: the configuration, the credentials, the addresses of
the layout, the registers' width, the working directory. -/
theorem settings_of_run (run : SystemRun s steps s') : s'.settings = s.settings := by
  refine (run.keeps (I := fun u => u.settings = s.settings) rfl (fun step happened here => ?_)
    fun u v moves here => moves.settings.trans here).1
  exact ((changes_of_happened (c := .pages) (x := 0) happened).1).trans here

/-- A run of one system call, of the instruction at `0x1000`. -/
theorem run_callAt {arch : Arch} {r : Except ValkyrieError Unit}
    (ran : (syscallHandlerFor (sysHandlers sv) arch 0x1000 2).Ends s r t) (same : s.cfg.arch = arch) :
    SystemRun s [⟨s, SystemEvent.syscall sv 0x1000 2, t⟩] t := by
  subst same
  let step : SystemStep := ⟨s, .syscall sv 0x1000 2, t⟩
  exact .call step .start ⟨r, ran⟩

/-- The system call at `0x1000`. -/
abbrev callAt (arch : Arch) : VkM Unit := syscallHandlerFor (sysHandlers .refusing) arch 0x1000 2

/-- A host whose clock tells 7. -/
def Services.timed : Services := { Services.refusing with systemTime := fun _ => some 7 }

/-- What the handler leaves of a component of the emulator, the report of its result keeps. -/
theorem component_of_finish {arch : Arch} {v : U64} {r : Except ValkyrieError Unit}
    (run : (finishSyscall arch.syscallRegs addr size v).Ends vk r vk') (emulators : c.Emulators) :
    c.Same vk vk' := by
  have does : Does ⟨arch.dispatchOwned, [], False⟩ vk.settings vk
      (finishSyscall arch.syscallRegs addr size v) := does_finishSyscall fun _ h => h
  refine (does.safe rfl r vk' run).1.same c fun owned => ?_
  cases c <;> simp [Arch.dispatchOwned, Component.Emulators] at owned emulators

/-- A step that calls a handler does to the components of the emulator what the handler does. -/
theorem handler_of_happened {before after : Valkyrie} {f : SysFn}
    (leads : (SystemEvent.syscall sv addr size).Leads before after)
    (sameArch : before.arch.regs.arch = before.cfg.arch) (called : before.called addr = some f) :
    ∃ r t, (sysHandlers sv f before.subCtx).Ends before r t ∧
      ∀ c : Component, c.Emulators → c.Same t after := by
  have here : before.SyscallAt addr := by
    by_contra elsewhere
    rw [Valkyrie.called, if_neg elsewhere] at called
    cases called
  obtain ⟨r, run⟩ := leads
  obtain ⟨v, t, answers, finish⟩ := (ends_syscallHandlerFor sameArch here).1 run
  rw [Valkyrie.called, if_pos here] at called
  unfold Valkyrie.Answers at answers
  rw [called] at answers
  obtain ⟨x, ran, -⟩ := answers
  exact ⟨x, t, ran, fun c emulators => component_of_finish finish emulators⟩

theorem settings_of_step (run : SystemRun s steps s') :
    ∀ step ∈ steps, step.before.settings = s.settings := by
  have all := (run.keeps (I := fun u => u.settings = s.settings) rfl (fun step happened here => ?_)
    fun u v moves here => moves.settings.trans here).2
  · exact fun step member => (all step member).1
  · exact ((changes_of_happened (c := .pages) (x := 0) happened).1).trans here

theorem sameArch_of_step (run : SystemRun s steps s') (sameArch : s.arch.regs.arch = s.cfg.arch) :
    ∀ step ∈ steps, step.before.arch.regs.arch = step.before.cfg.arch := by
  intro step member
  have same := settings_of_step run step member
  have width : step.before.arch.regs.arch = s.arch.regs.arch := congrArg Settings.regsArch same
  have arch : step.before.cfg.arch = s.cfg.arch := congrArg (fun st => st.cfg.arch) same
  rw [width, arch, sameArch]

/-- An invariant of some components and of the settings holds in every state of a run, when the
handlers that own one of these components keep it in the steps of the run. -/
theorem invariant_of_run {P : Valkyrie → Prop} {Q : SystemStep → Prop}
    (components : List Component) (emulators : ∀ c ∈ components, c.Emulators)
    (depends : ∀ u v, v.settings = u.settings → (∀ c ∈ components, c.Same u v) → P u → P v)
    (handlers : ∀ step sv f r v, Q step → calledBy step = some f →
      (∃ c ∈ components, c ∈ f.owned) →
      (sysHandlers sv f step.before.subCtx).Ends step.before r v → P step.before → P v)
    (run : SystemRun s steps s') (all : ∀ step ∈ steps, Q step)
    (sameArch : s.arch.regs.arch = s.cfg.arch) (start : P s) : P s' := by
  have calls := run.restrict fun step member =>
    And.intro (sameArch_of_step run sameArch step member) (all step member)
  refine (calls.keeps start (fun step called here => ?_) fun u v moves here => ?_).1
  · obtain ⟨happened, width, property⟩ := called
    have kept := (changes_of_happened (c := .pages) (x := 0) happened).1
    by_cases owner : ∃ f, calledBy step = some f ∧ ∃ c ∈ components, c ∈ f.owned
    · obtain ⟨f, called, mine⟩ := owner
      obtain ⟨before, call, after⟩ := step
      cases call with
      | store addr data => cases called
      | syscall sv addr size =>
        obtain ⟨r, t, ran, same⟩ := handler_of_happened happened width called
        have settings := ((does_sysHandlers sv f _ before).safe rfl r t ran).1.settings
        refine depends t after (kept.trans settings.symm) (fun c hc => same c (emulators c hc)) ?_
        exact handlers _ sv f r t property called mine ran here
    · refine depends _ _ kept (fun c hc => ?_) here
      refine (changes_of_happened (x := 0) happened).2.1 (emulators c hc) fun f called owned => ?_
      exact owner ⟨f, called, c, hc, owned⟩
  · exact depends u v moves.settings (fun c hc => moves.same (emulators c hc)) here

/-! ## What a run does not see -/

theorem Valkyrie.seen_cfg {s t : Valkyrie} (same : t.seen = s.seen) : t.cfg = s.cfg := by
  show t.seen.cfg = s.seen.cfg
  rw [same]

/-- An event leads from states that look the same to states that look the same. -/
theorem SystemEvent.Leads.of_seen {e : SystemEvent} (leads : e.Leads s s') (same : t.seen = s.seen) :
    ∃ t', e.Leads t t' ∧ t'.seen = s'.seen := by
  cases e with
  | syscall sv addr size =>
    obtain ⟨r, run⟩ := leads
    obtain ⟨t', run', same'⟩ := (does_syscallHandlerFor sv addr size s).blind rfl r s' t run same
    refine ⟨t', ⟨r, ?_⟩, same'⟩
    rw [Valkyrie.seen_cfg same]
    exact run'
  | store addr data =>
    obtain ⟨uc, ok, rfl⟩ := leads
    obtain ⟨uc', ok', engine⟩ := Unicorn.memWrite_congr (Valkyrie.seen_uc same) ok
    exact ⟨t.withUc uc', ⟨uc', ok', rfl⟩, Valkyrie.seen_withUc same engine⟩

theorem Computes.of_seen {u : Valkyrie} (computes : Computes s u) (same : t.seen = s.seen) :
    ∃ t', Computes t t' ∧ t'.seen = u.seen := by
  cases computes with
  | mk reg =>
    refine ⟨_, .mk t reg, Valkyrie.seen_withUc same ?_⟩
    obtain ⟨pages, -, bytes⟩ := Unicorn.seen_eq_iff.1 (Valkyrie.seen_uc same)
    exact Unicorn.seen_eq_iff.2 ⟨pages, rfl, bytes⟩

/-- A run can be made from every state that looks the same, with the same answers of the host, and
what it leaves looks the same. -/
theorem replay_of_run (run : SystemRun s steps s') (same : t.seen = s.seen) :
    ∃ steps' t', SystemRun t steps' t' ∧ t'.seen = s'.seen ∧
      steps'.map Trace.Step.call = steps.map Trace.Step.call := by
  refine run.simulate (R := fun u v => v.seen = u.seen) same (fun step happened u looks => ?_)
    fun u v moves w looks => moves.of_seen looks
  exact happened.of_seen looks

/-- The engine has been asked to stop. -/
def Valkyrie.stopped (vk : Valkyrie) : Valkyrie := { vk with uc.stopRequested := true }

theorem replay_of_run_getpid : ∃ steps t', SystemRun (atSyscall 39 0 0 0).stopped steps t' ∧
    t'.uc.reg (.x86_64 .rax) = 1 := by
  have ran : ∃ t, (syscallHandlerFor (sysHandlers .refusing) .x86_64 0x1000 2).Ends
    (atSyscall 39 0 0 0) (.ok ()) t ∧ t.uc.reg (.x86_64 .rax) = 1 := ⟨_, rfl, rfl⟩
  obtain ⟨t, ran, result⟩ := ran
  have looks : (atSyscall 39 0 0 0).stopped.seen = (atSyscall 39 0 0 0).seen := rfl
  obtain ⟨steps, t', run, looks, -⟩ := replay_of_run (run_callAt ran rfl) looks
  have reg := (Unicorn.seen_eq_iff.1 (Valkyrie.seen_uc looks)).2.1
  exact ⟨steps, t', run, by rw [reg, result]⟩

/-! ## Guests given by their steps -/

/-- What a guest does: a system call with its number and arguments, or a store. -/
inductive GuestAct where
  | syscall (number : U64) (sctx : SubCtx)
  | store (addr : U64) (data : List U8)

/-- The number and the arguments of a system call are in the registers of the guest. -/
def Valkyrie.asking (vk : Valkyrie) (number : U64) (sctx : SubCtx) : Valkyrie :=
  let regs := vk.cfg.arch.syscallRegs
  vk.withUc { vk.uc with
    reg := fun r =>
      if r = regs.number then number
      else if r = regs.arg0 then sctx.arg0
      else if r = regs.arg1 then sctx.arg1
      else if r = regs.arg2 then sctx.arg2
      else if r = regs.arg3 then sctx.arg3
      else if r = regs.arg4 then sctx.arg4
      else if r = regs.arg5 then sctx.arg5
      else vk.uc.reg r }

namespace GuestAct

/-- The state in which the system call or the store is made. -/
def before (vk : Valkyrie) : GuestAct → Valkyrie
  | syscall number sctx => vk.asking number sctx
  | store _ _ => vk

/-- What is recorded of the act. -/
def event (addr : U64) : GuestAct → SystemEvent
  | syscall _ _ => .syscall .refusing addr 2
  | store a data => .store a data

/-- The act, with the instruction of its system call at an address.  The engine fails on a store that
cannot be made. -/
def does (addr : U64) : GuestAct → Proc Valkyrie UcError Unit
  | syscall number sctx => do
    modify fun vk => vk.asking number sctx
    let vk ← get
    let _ ← (syscallHandlerFor (sysHandlers .refusing) vk.cfg.arch addr 2).attempt.mapError
      fun _ => .hook
  | store a data => do
    let vk ← get
    let uc ← ofExcept (vk.uc.memWrite a data)
    modify fun vk => vk.withUc uc

end GuestAct

/-- The steps of a guest, up to an act that fails. -/
def traceOf (addr : U64) : List GuestAct → Valkyrie → List SystemStep
  | [], _ => []
  | act :: acts, vk =>
    match act.does addr vk with
    | some (.ok _, t) => ⟨act.before vk, act.event addr, t⟩ :: traceOf addr acts t
    | _ => []

section GuestActs

variable {act : GuestAct} {o : Except UcError Unit} {past : List SystemStep}

theorem event_of_does (made : (act.does addr).Ends s (.ok ()) t) :
    (act.event addr).Leads (act.before s) t := by
  cases act with
  | syscall number sctx =>
    obtain ⟨x, u, inner, last⟩ := ends_bind_ok.1 (ends_bind_get.1 (ends_bind_modify.1 made))
    obtain ⟨y, ran, -⟩ := ends_mapError.1 inner
    obtain ⟨r, -, core⟩ := ends_attempt.1 ran
    obtain ⟨-, rfl⟩ := ends_pure.1 last
    exact ⟨r, core⟩
  | store a data =>
    obtain ⟨uc, u, write, last⟩ := ends_bind_ok.1 (ends_bind_get.1 made)
    obtain ⟨same, rfl⟩ := ends_ofExcept.1 write
    exact ⟨uc, same.symm, (ends_modify.1 last).2⟩

/-- Only a store fails, and then nothing is stored. -/
theorem still_of_does {e : UcError} (failed : (act.does addr).Ends s (.error e) t) : t = s := by
  cases act with
  | syscall number sctx =>
    rcases ends_bind.1 (ends_bind_get.1 (ends_bind_modify.1 failed)) with
      ⟨_, first, -⟩ | ⟨_, _, -, last⟩
    · obtain ⟨x, inner, told⟩ := ends_mapError.1 first
      obtain ⟨r, rfl, -⟩ := ends_attempt.1 inner
      cases told
    · cases (ends_pure.1 last).1
  | store a data =>
    rcases ends_bind.1 (ends_bind_get.1 failed) with ⟨_, first, -⟩ | ⟨_, _, -, last⟩
    · exact (ends_ofExcept.1 first).2
    · cases (ends_modify.1 last).1

/-- A run goes on with the acts of a guest. -/
theorem run_of_acts {acts : List GuestAct} (run : SystemRun s past t)
    (made : (acts.forM (GuestAct.does addr)).Ends t o s') :
    SystemRun s (past ++ traceOf addr acts t) s' := by
  induction acts generalizing past t with
  | nil =>
    obtain ⟨-, rfl⟩ := ends_pure.1 made
    rw [traceOf, List.append_nil]
    exact run
  | cons act acts ih =>
    change (act.does addr >>= fun _ => acts.forM (GuestAct.does addr)).Ends t o s' at made
    rcases ends_bind.1 made with ⟨err, failed, -⟩ | ⟨_, u, first, rest⟩
    · have cut : traceOf addr (act :: acts) t = [] := by
        rw [traceOf, show act.does addr t = some (.error err, s') from failed]
      rw [cut, List.append_nil, still_of_does failed]
      exact run
    · have here : SystemRun s past (act.before t) := by
        cases act with
        | syscall number sctx => exact .other run (.mk _ _)
        | store a data => exact run
      have cut : traceOf addr (act :: acts) t =
          ⟨act.before t, act.event addr, u⟩ :: traceOf addr acts u := by
        rw [traceOf, show act.does addr t = some (.ok (), u) from first]
      rw [cut, List.append_cons]
      exact ih (.call ⟨act.before t, act.event addr, u⟩ here (event_of_does first)) rest

end GuestActs

/-! ## Runs go on -/

/-- A system call returns where its handler does. -/
theorem returns_of_not_hazard (bounded : sv.Bounded)
    (fine : ∀ f, s.called addr = some f → ¬ f.Hazard s.subCtx s) :
    ∃ r t, (syscallHandlerFor (sysHandlers sv) s.cfg.arch addr size).Ends s r t := by
  refine ((does_syscallHandlerFor sv addr size s).ends rfl).resolve_left fun hangs => ?_
  change (s.called addr).elim False _ at hangs
  cases called : s.called addr with
  | none => simp [called] at hangs
  | some f =>
    rw [called] at hangs
    exact hangs.elim (fine f called) fun unbounded => unbounded bounded

theorem not_hazard {f : SysFn} (cwd : s.host.cwd.isSome)
    (fine : ∀ g subctx, f.performed s.subCtx s = some (g, subctx) →
      g.allocated subctx s < 2 ^ 63 ∧ ¬ g.stuck subctx s) : ¬ f.Hazard s.subCtx s := by
  intro hazard
  unfold SysFn.Hazard at hazard
  cases performed : f.performed s.subCtx s with
  | none => simp [performed] at hazard
  | some call =>
    rw [performed] at hazard
    obtain ⟨g, subctx⟩ := call
    obtain ⟨small, free⟩ := fine g subctx performed
    rcases hazard with ⟨-, lost⟩ | large | stuck
    · simp [lost] at cwd
    · exact absurd small (not_lt.2 large)
    · exact free stuck

theorem cwd_of_run (run : SystemRun s steps s') (cwd : s.host.cwd.isSome) :
    s'.host.cwd.isSome := by
  have kept : s'.host.cwd = s.host.cwd := congrArg Settings.cwd (settings_of_run run)
  rw [kept]
  exact cwd

/-- A system call returns when all buffers that it asks for can be allocated and it does not get stuck;
the entries of a vector are buffers. -/
theorem returns_of_asks (bounded : sv.Bounded) (cwd : s.host.cwd.isSome)
    (small : ∀ f g subctx, s.called addr = some f → f.performed s.subCtx s = some (g, subctx) →
      ∀ n, g.Asks subctx s n → n < 2 ^ 63)
    (fine : ∀ f g subctx, s.called addr = some f → f.performed s.subCtx s = some (g, subctx) →
      g ≠ .sysWritev → ¬ g.stuck subctx s) :
    ∃ r t, (syscallHandlerFor (sysHandlers sv) s.cfg.arch addr size).Ends s r t := by
  refine returns_of_not_hazard bounded fun f called =>
    not_hazard cwd fun g subctx performed => ?_
  have fits := small f g subctx called performed
  refine ⟨fits _ (.inl rfl), ?_⟩
  by_cases writev : g = .sysWritev
  · rw [writev] at fits ⊢
    rintro ⟨len, entry, huge⟩
    exact absurd (fits _ (.inr ⟨len, entry, rfl⟩)) (not_lt.2 huge)
  · exact fine f g subctx called performed writev

theorem bounded_refusing : Services.refusing.Bounded := ⟨nofun, nofun, nofun⟩

/-- The host has a working directory. -/
def Valkyrie.homed (vk : Valkyrie) : Valkyrie := { vk with host.cwd := some ['/'] }

/-- The allocator of a host with room for buffers up to a size. -/
def Allocator.upTo (room : ℕ) (small : room < 2 ^ 63) : Allocator where
  grants n := n ≤ room
  bounded _ granted := granted.trans_lt small

/-- The arguments are those of a 32-bit guest. -/
structure SubCtx.Narrow (sctx : SubCtx) : Prop where
  arg0 : sctx.arg0.toNat < 2 ^ 32
  arg1 : sctx.arg1.toNat < 2 ^ 32
  arg2 : sctx.arg2.toNat < 2 ^ 32
  arg3 : sctx.arg3.toNat < 2 ^ 32
  arg4 : sctx.arg4.toNat < 2 ^ 32
  arg5 : sctx.arg5.toNat < 2 ^ 32

theorem toNat_fromLeBytes_lt (bytes : List U8) (n : ℕ) (length : bytes.length ≤ n) (small : n < 8) :
    (fromLeBytes bytes).toNat < 2 ^ (8 * n) := by
  induction bytes generalizing n with
  | nil => exact Nat.two_pow_pos _
  | cons b bytes ih =>
    obtain ⟨m, rfl⟩ := Nat.exists_eq_succ_of_ne_zero (Nat.ne_of_gt (Nat.lt_of_lt_of_le
      (Nat.succ_pos _) length))
    have rest := ih m (Nat.le_of_succ_le_succ length) (Nat.lt_of_succ_lt small)
    have byte : (b.setWidth 64).toNat < 2 ^ (8 * m.succ) := by
      rw [BitVec.toNat_setWidth]
      exact (Nat.mod_le _ _).trans_lt (b.isLt.trans_le
        (Nat.pow_le_pow_right (by decide) (by omega)))
    show (fromLeBytes bytes <<< 8 ||| b.setWidth 64).toNat < _
    rw [BitVec.toNat_or]
    refine Nat.or_lt_two_pow ?_ byte
    rw [BitVec.toNat_shiftLeft, Nat.shiftLeft_eq]
    refine (Nat.mod_le _ _).trans_lt ?_
    calc (fromLeBytes bytes).toNat * 2 ^ 8 < 2 ^ (8 * m) * 2 ^ 8 :=
          Nat.mul_lt_mul_of_pos_right rest (by decide)
      _ = 2 ^ (8 * m.succ) := by rw [← pow_add, Nat.mul_succ]

theorem truncate_x86_lt (v : U64) : (Arch.x86.truncate v).toNat < 2 ^ 32 := by
  show ((v.setWidth 32).setWidth 64).toNat < _
  rw [BitVec.toNat_setWidth]
  exact (Nat.mod_le _ _).trans_lt (v.setWidth 32).isLt

theorem narrow_subCtx (width : s.arch.regs.arch = .x86) : s.subCtx.Narrow := by
  constructor <;> simp only [Valkyrie.subCtx, Valkyrie.regValue, width, truncate_x86_lt]

theorem wordAt_lt {uc : Unicorn} {v : U64} (ok : wordAt uc addr 4 = .ok v) : v.toNat < 2 ^ 32 := by
  unfold wordAt at ok
  cases read : VMemory.read uc addr 4 with
  | error e => simp [read, Except.map] at ok
  | ok bytes =>
    rw [read] at ok
    cases ok
    exact toNat_fromLeBytes_lt bytes 4 (VMemory.length_of_read read).le (by decide)

theorem readArgs_lt {argsAddr : U64} {n index : ℕ} {args : List U64} {vk vk' : Valkyrie}
    (run : (readArgs argsAddr 4 n index).Ends vk (.ok args) vk') :
    ∀ v ∈ args, v.toNat < 2 ^ 32 := by
  induction n generalizing index vk args vk' with
  | zero =>
    cases (ends_pure.1 run).1
    simp
  | succ n ih =>
    obtain ⟨arg, u, first, rest⟩ := ends_bind_ok.1 run
    obtain ⟨tail, w, others, last⟩ := ends_bind_ok.1 rest
    cases (ends_pure.1 last).1
    refine List.forall_mem_cons.2 ⟨?_, ih others⟩
    exact wordAt_lt (word_of_ends first).1

theorem getD_lt {args : List U64} {n b : ℕ} (small : ∀ v ∈ args, v.toNat < b) (pos : 0 < b) :
    (args.getD n 0).toNat < b := by
  by_cases inside : n < args.length
  · rw [List.getD_eq_getElem _ _ inside]
    exact small _ (List.getElem_mem inside)
  · rw [List.getD_eq_default _ _ (not_lt.1 inside)]
    exact pos

theorem narrow_performed {f g : SysFn} {sctx subctx : SubCtx} (arch : s.cfg.arch = .x86)
    (narrow : sctx.Narrow) (performed : f.performed sctx s = some (g, subctx)) :
    subctx.Narrow := by
  unfold SysFn.performed at performed
  split at performed
  · obtain ⟨g', -, args⟩ := Option.bind_eq_some_iff.1 performed
    obtain ⟨found, read, same⟩ := Option.map_eq_some_iff.1 args
    cases same
    unfold socketcallArgs at read
    rw [arch] at read
    cases arity : socketcallArity sctx.arg0 with
    | none => simp [arity] at read
    | some n =>
      rw [arity] at read
      dsimp only at read
      split at read
      · rename_i args u ran
        cases read
        have small := fun v member => readArgs_lt ran v member
        constructor <;> exact getD_lt small (by decide)
      · cases read
  · cases performed
    exact narrow

/-- A 32-bit guest asks for no buffer of more than eight times the largest 32-bit number, the size of
the longest array of `poll`. -/
theorem asks_le {g : SysFn} {subctx : SubCtx} {n : ℕ} (arch : s.cfg.arch = .x86)
    (narrow : subctx.Narrow) (asks : g.Asks subctx s n) : n ≤ 8 * (2 ^ 32 - 1) := by
  obtain ⟨-, arg1, arg2, arg3, -, -⟩ := narrow
  have page : (alignUp subctx.arg1 pageSize).toNat < 2 ^ 33 := by
    rw [toNat_alignUp]
    omega
  have action : sigactionSize s subctx < 2 ^ 33 := by
    unfold sigactionSize rtSigactionSize
    rw [arch]
    split_ifs
    · decide
    · show (12 + subctx.arg3).toNat < _
      rw [BitVec.toNat_add]
      exact (Nat.mod_le _ _).trans_lt (by simp; omega)
  have signed : (subctx.arg2.setWidth 32 : U32).toInt < 2 ^ 31 := BitVec.toInt_lt
  rcases asks with rfl | asks
  · unfold SysFn.allocated
    split <;> omega
  · cases g with
    | sysConnect =>
      have small := (subctx.arg2.setWidth 32 : U32).isLt
      exact asks.le.trans (by omega)
    | sysSendto =>
      have small := (subctx.arg5.setWidth 32 : U32).isLt
      exact asks.le.trans (by omega)
    | sysGetsockopt => exact asks.le.trans (optlenAt_lt.le.trans (by decide))
    | sysIoctl => exact asks.le.trans (ioctlRoom_lt.le.trans (by decide))
    | sysWritev =>
      obtain ⟨len, ⟨i, -, word⟩, rfl⟩ := asks
      rw [arch] at word
      have small := wordAt_lt word
      omega
    | _ => exact asks.elim

/-- A page of code with the instruction `int 0x80`, and the number in the register. -/
def atInt80 (number : U64) : Valkyrie :=
  let vk := Valkyrie.ofMemory .x86 ⟨[⟨0x1000, 0x1000, ⟨true, true, true⟩, "[code]"⟩], 0, 0⟩
  vk.withUc { vk.uc with
    bytes := fun a => if a = 0x1000 then 0xcd else if a = 0x1001 then 0x80 else 0
    reg := fun r => if r = .x86 .eax then number else 0 }

end ValkyrieRs

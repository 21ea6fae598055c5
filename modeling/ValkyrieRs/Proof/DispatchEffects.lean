import ValkyrieRs.Proof.SystemEffects
import ValkyrieRs.Proof.Unperformed

/-!
# Effects of the dispatch

The wrapper of a system call adds three components to those of the handler that it calls: the
register of the result, the program counter and the log of register updates.  Where the instruction
is no system call, it does nothing.
-/

namespace ValkyrieRs

open Proc

/-- The instruction at an address makes a system call. -/
def Valkyrie.SyscallAt (vk : Valkyrie) (addr : U64) : Prop :=
  VMemory.read vk.uc addr 2 = .ok vk.cfg.arch.syscallInsn

instance (vk : Valkyrie) (addr : U64) : Decidable (vk.SyscallAt addr) :=
  inferInstanceAs (Decidable (VMemory.read vk.uc addr 2 = .ok vk.cfg.arch.syscallInsn))

/-- The handler of the number in the register. -/
def Valkyrie.requested (vk : Valkyrie) : Option SysFn :=
  match syscallNameFromNo vk.syscallNo vk.cfg.arch with
  | .ok name => syscallFnFromName name
  | .error _ => none

/-- The handler that the instruction at an address calls. -/
def Valkyrie.called (vk : Valkyrie) (addr : U64) : Option SysFn :=
  if vk.SyscallAt addr then vk.requested else none

/-- What the dispatch owns besides the components of the handler. -/
def Arch.dispatchOwned (arch : Arch) : List Component :=
  [.register arch.syscallRegs.number, .register arch.syscallRegs.pc, .regUpdates]

/-- What the dispatch does at an address. -/
def Valkyrie.dispatchEffects (sv : Services) (vk : Valkyrie) (addr : U64) : Effects where
  owned := vk.cfg.arch.dispatchOwned ++ (vk.called addr).elim [] SysFn.owned
  outputs := (vk.called addr).elim [] fun f => f.outputs vk.subCtx vk
  hangs := (vk.called addr).elim False fun f => f.Hazard vk.subCtx vk ∨ ¬ sv.Bounded

variable {fx fx' : Effects} {st : Settings} {vk vk' s t : Valkyrie} {addr : U64} {size : U32}
  {sv : Services} {α : Type}

/-! ## Weaker effects -/

theorem Effects.Changes.mono (h : fx.Changes s t) (owned : ∀ c ∈ fx.owned, c ∈ fx'.owned)
    (outputs : ∀ o ∈ fx.outputs, o ∈ fx'.outputs) : fx'.Changes s t where
  settings := h.settings
  same c hc := h.same c fun mine => hc (owned c mine)
  bytes x hx := h.bytes x fun o mine => hx o (outputs o mine)

theorem Effects.within (owned : ∀ c ∈ fx.owned, c ∈ fx'.owned)
    (outputs : ∀ o ∈ fx.outputs, o ∈ fx'.outputs) (hangs : fx.hangs → fx'.hangs) :
    (fx.contract st).Within (fx'.contract st) where
  inv _ := .rfl
  rel _ _ h := h.mono owned outputs
  hangs := hangs
  seen := rfl

/-! ## The wrapper -/

theorem getReg_of_ends {reg : VRegister} {v : U64}
    (run : (VRegs.getReg reg).Ends vk (.ok v) vk') : v = vk.regValue reg ∧ vk' = vk := by
  rw [VRegs.getReg, ends_bind_get] at run
  split_ifs at run
  · obtain ⟨same, rfl⟩ := ends_pure.1 run
    exact ⟨Except.ok.inj same, rfl⟩
  · cases (ends_throw.1 run).1

theorem does_finishSyscall {arch : Arch} {result : U64}
    (owns : ∀ c ∈ arch.dispatchOwned, c ∈ fx.owned) :
    Does fx st vk (finishSyscall arch.syscallRegs addr size result) := by
  have updates : .regUpdates ∈ fx.owned := owns _ (by simp [Arch.dispatchOwned])
  refine (does_setReg (owns _ (by simp [Arch.dispatchOwned])) updates).bind fun _ _ _ _ => ?_
  exact does_setReg (owns _ (by simp [Arch.dispatchOwned])) updates

/-- The handler keeps to its effects, so the wrapper does. -/
theorem does_dispatchSyscallByName {name : String} (here : vk.SyscallAt addr)
    (known : syscallNameFromNo vk.syscallNo vk.cfg.arch = .ok name) :
    Does (vk.dispatchEffects sv addr) vk.settings vk
      (dispatchSyscallByName (sysHandlers sv) name vk.subCtx) := by
  have called : vk.called addr = syscallFnFromName name := by
    rw [Valkyrie.called, if_pos here, Valkyrie.requested, known]
  rw [dispatchSyscallByName]
  cases found : syscallFnFromName name with
  | none => exact obeys_throw _
  | some f =>
    rw [found] at called
    refine (does_sysHandlers sv f vk.subCtx vk).mono (Effects.within (fun c hc => ?_) ?_ ?_)
    · simp only [Valkyrie.dispatchEffects, called]
      exact List.mem_append_right _ hc
    · simp only [Valkyrie.dispatchEffects, called]
      exact fun o ho => ho
    · simp only [Valkyrie.dispatchEffects, called]
      exact fun hangs => hangs

/-- The dispatch keeps to its effects, and does nothing where there is no system call. -/
theorem does_syscallHandlerFor (sv : Services) (addr : U64) (size : U32) (vk : Valkyrie) :
    Does (vk.dispatchEffects sv addr) vk.settings vk
      (syscallHandlerFor (sysHandlers sv) vk.cfg.arch addr size) := by
  have owns : ∀ c ∈ vk.cfg.arch.dispatchOwned, c ∈ (vk.dispatchEffects sv addr).owned :=
    fun c hc => List.mem_append_left _ hc
  rw [syscallHandlerFor_eq]
  refine (does_memRead (.inr (by decide))).bind fun bytes t _ run => ?_
  obtain ⟨-, read, rfl⟩ := ends_memRead.1 run
  refine .ite (fun _ => obeys_pure _) fun same => ?_
  have here : t.SyscallAt addr := by
    rw [not_not.1 same] at read
    exact read.symm
  refine does_getReg.bind fun _ t _ run => ?_
  obtain ⟨rfl, rfl⟩ := getReg_of_ends run
  refine does_getReg.bind fun _ t _ run => ?_
  obtain ⟨rfl, rfl⟩ := getReg_of_ends run
  refine does_getReg.bind fun _ t _ run => ?_
  obtain ⟨rfl, rfl⟩ := getReg_of_ends run
  refine does_getReg.bind fun _ t _ run => ?_
  obtain ⟨rfl, rfl⟩ := getReg_of_ends run
  refine does_getReg.bind fun _ t _ run => ?_
  obtain ⟨rfl, rfl⟩ := getReg_of_ends run
  refine does_getReg.bind fun _ t _ run => ?_
  obtain ⟨rfl, rfl⟩ := getReg_of_ends run
  refine does_getReg.bind fun _ t _ run => ?_
  obtain ⟨rfl, rfl⟩ := getReg_of_ends run
  refine does_look (fun _ => rfl) fun _ => ?_
  cases known : syscallNameFromNo (t.regValue t.cfg.arch.syscallRegs.number) t.cfg.arch with
  | error e => exact does_finishSyscall owns
  | ok name =>
    refine (does_dispatchSyscallByName here known).attempt.bind fun r u _ _ => ?_
    cases r with
    | error e => exact does_finishSyscall owns
    | ok v => exact does_finishSyscall owns

/-- Where there is no system call, the wrapper changes nothing. -/
theorem still_of_not_syscallAt {handlers : Handlers} {r : Except ValkyrieError Unit}
    (elsewhere : ¬ vk.SyscallAt addr)
    (run : (syscallHandlerFor handlers vk.cfg.arch addr size).Ends vk r vk') : vk' = vk := by
  rw [syscallHandlerFor_eq, handleSyscall] at run
  rcases ends_bind.1 run with ⟨e, failed, -⟩ | ⟨bytes, t, read, rest⟩
  · exact (ends_memRead.1 failed).2.2
  · obtain ⟨-, read, rfl⟩ := ends_memRead.1 read
    have differ : bytes ≠ t.cfg.arch.syscallInsn := by
      rintro rfl
      exact elsewhere read.symm
    rw [if_pos differ] at rest
    exact (ends_pure.1 rest).2

/-! ## The registers -/

/-- What the wrapper reports: the result of the handler, or zero when there is none. -/
def Valkyrie.Answers (handlers : Handlers) (vk : Valkyrie) (v : U64) (t : Valkyrie) : Prop :=
  match vk.requested with
  | some f => ∃ r, (handlers f vk.subCtx).Ends vk r t ∧ v = r.toOption.getD 0
  | none => v = 0 ∧ t = vk

/-- The wrapper is the handler and the report of its result. -/
theorem ends_syscallHandlerFor {handlers : Handlers} {r : Except ValkyrieError Unit}
    (sameArch : vk.arch.regs.arch = vk.cfg.arch) (here : vk.SyscallAt addr) :
    (syscallHandlerFor handlers vk.cfg.arch addr size).Ends vk r vk' ↔
      ∃ v t, vk.Answers handlers v t ∧
        (finishSyscall vk.cfg.arch.syscallRegs addr size v).Ends t r vk' := by
  have read : (memRead addr 2).Ends vk (.ok vk.cfg.arch.syscallInsn) vk :=
    ends_memRead.2 ⟨by decide, here.symm, rfl⟩
  have fits (reg : VRegister) (h : reg.isOf vk.cfg.arch) :
      (VRegs.getReg reg).Ends vk (.ok (vk.regValue reg)) vk := ends_getReg (sameArch ▸ h)
  have number : vk.cfg.arch.syscallRegs.number.isOf vk.cfg.arch := by cases vk.cfg.arch <;> rfl
  have arg0 : vk.cfg.arch.syscallRegs.arg0.isOf vk.cfg.arch := by cases vk.cfg.arch <;> rfl
  have arg1 : vk.cfg.arch.syscallRegs.arg1.isOf vk.cfg.arch := by cases vk.cfg.arch <;> rfl
  have arg2 : vk.cfg.arch.syscallRegs.arg2.isOf vk.cfg.arch := by cases vk.cfg.arch <;> rfl
  have arg3 : vk.cfg.arch.syscallRegs.arg3.isOf vk.cfg.arch := by cases vk.cfg.arch <;> rfl
  have arg4 : vk.cfg.arch.syscallRegs.arg4.isOf vk.cfg.arch := by cases vk.cfg.arch <;> rfl
  have arg5 : vk.cfg.arch.syscallRegs.arg5.isOf vk.cfg.arch := by cases vk.cfg.arch <;> rfl
  rw [syscallHandlerFor_eq, handleSyscall, read.bind_iff, if_neg (by simp)]
  rw [(fits _ number).bind_iff, (fits _ arg0).bind_iff, (fits _ arg1).bind_iff,
    (fits _ arg2).bind_iff, (fits _ arg3).bind_iff, (fits _ arg4).bind_iff,
    (fits _ arg5).bind_iff, ends_bind_get]
  unfold Valkyrie.Answers Valkyrie.requested Valkyrie.syscallNo
  cases known : syscallNameFromNo (vk.regValue vk.cfg.arch.syscallRegs.number) vk.cfg.arch with
  | error e => simp
  | ok name =>
    simp only [ends_bind_attempt, dispatchSyscallByName]
    cases found : syscallFnFromName name with
    | none =>
      constructor
      · rintro ⟨x, t, thrown, rest⟩
        obtain ⟨rfl, rfl⟩ := ends_throw.1 thrown
        exact ⟨0, t, ⟨rfl, rfl⟩, rest⟩
      · rintro ⟨v, t, ⟨rfl, rfl⟩, rest⟩
        exact ⟨_, t, ends_throw.2 ⟨rfl, rfl⟩, rest⟩
    | some f =>
      constructor
      · rintro ⟨x, t, ran, rest⟩
        refine ⟨x.toOption.getD 0, t, ⟨x, ran, rfl⟩, ?_⟩
        cases x <;> exact rest
      · rintro ⟨v, t, ⟨x, ran, rfl⟩, rest⟩
        refine ⟨x, t, ran, ?_⟩
        cases x <;> exact rest

theorem number_eq_resultReg (arch : Arch) : arch.syscallRegs.number = arch.resultReg := by
  cases arch <;> rfl

theorem resultReg_ne_pc (arch : Arch) : arch.resultReg ≠ arch.syscallRegs.pc := by
  cases arch <;> decide

theorem pc_isOf (arch : Arch) : arch.syscallRegs.pc.isOf arch := by
  cases arch <;> rfl

/-- The result and the counter, and no other register. -/
theorem finishSyscall_of_ends {arch : Arch} {result : U64} {r : Except ValkyrieError Unit}
    (fits : vk.arch.regs.arch = arch)
    (run : (finishSyscall arch.syscallRegs addr size result).Ends vk r vk') :
    r = .ok () ∧ vk'.uc.reg arch.resultReg = arch.truncate result ∧
      vk'.uc.reg arch.syscallRegs.pc =
        arch.truncate (satAdd addr (if size = 0 then 2 else size.setWidth 64)) := by
  subst fits
  have first : (VRegs.setReg vk.arch.regs.arch.resultReg result).Ends vk (.ok ())
      (vk.withReg vk.arch.regs.arch.resultReg result) :=
    (ends_setReg (Arch.resultReg_isOf _)).2 ⟨rfl, rfl⟩
  rw [finishSyscall, number_eq_resultReg, first.bind_iff] at run
  have ofArch : vk.arch.regs.arch.syscallRegs.pc.isOf
      (vk.withReg vk.arch.regs.arch.resultReg result).arch.regs.arch := pc_isOf _
  obtain ⟨rfl, rfl⟩ := (ends_setReg ofArch).1 run
  refine ⟨rfl, ?_, Valkyrie.withReg_reg⟩
  show (if _ = _ then _ else (vk.withReg _ result).uc.reg _) = _
  rw [if_neg (resultReg_ne_pc _), Valkyrie.withReg_reg]

/-- The handlers other than `arch_prctl` own no register. -/
theorem register_of_owned {f : SysFn} {reg : VRegister} (owned : .register reg ∈ f.owned) :
    f = .sysArchPrctl ∧ (reg = .x86_64 .fsBase ∨ reg = .x86_64 .gsBase) := by
  cases f with
  | sysArchPrctl =>
    simp only [SysFn.owned, List.mem_cons, Component.register.injEq, List.not_mem_nil, or_false,
      reduceCtorEq] at owned
    exact ⟨rfl, owned⟩
  | _ => simp [SysFn.owned] at owned

/-- A system call leaves its result, the counter behind the instruction, and every other register as
it was, but for the two segment bases that `arch_prctl` sets. -/
theorem registers_of_dispatch {r : Except ValkyrieError Unit}
    (sameArch : vk.arch.regs.arch = vk.cfg.arch) (here : vk.SyscallAt addr)
    (run : (syscallHandlerFor (sysHandlers sv) vk.cfg.arch addr size).Ends vk r vk') :
    r = .ok () ∧
    (∃ v t, vk.Answers (sysHandlers sv) v t ∧
      vk'.uc.reg vk.cfg.arch.resultReg = vk.cfg.arch.truncate v) ∧
    vk'.uc.reg vk.cfg.arch.syscallRegs.pc =
      vk.cfg.arch.truncate (satAdd addr (if size = 0 then 2 else size.setWidth 64)) ∧
    ∀ reg, reg ≠ vk.cfg.arch.resultReg → reg ≠ vk.cfg.arch.syscallRegs.pc →
      (vk.requested = some .sysArchPrctl → reg ≠ .x86_64 .fsBase ∧ reg ≠ .x86_64 .gsBase) →
      vk'.uc.reg reg = vk.uc.reg reg := by
  obtain ⟨v, t, answers, finish⟩ := (ends_syscallHandlerFor sameArch here).1 run
  have changes := ((does_syscallHandlerFor sv addr size vk).safe rfl r vk' run).1
  have fits : t.arch.regs.arch = vk.cfg.arch := by
    refine Eq.trans ?_ sameArch
    unfold Valkyrie.Answers at answers
    split at answers
    · obtain ⟨x, ran, -⟩ := answers
      exact congrArg Settings.regsArch ((does_sysHandlers sv _ _ vk).safe rfl x t ran).1.settings
    · rw [answers.2]
  obtain ⟨done, result, pc⟩ := finishSyscall_of_ends fits finish
  refine ⟨done, ⟨v, t, answers, result⟩, pc, fun reg notResult notPc notBase => ?_⟩
  refine changes.same (.register reg) fun owned => ?_
  rcases List.mem_append.1 owned with mine | handlers
  · simp only [Arch.dispatchOwned, number_eq_resultReg, List.mem_cons, Component.register.injEq,
      List.not_mem_nil, or_false, reduceCtorEq] at mine
    exact mine.elim notResult notPc
  · cases called : vk.requested with
    | none => simp [Valkyrie.called, called] at handlers
    | some f =>
      rw [Valkyrie.called, if_pos here, called] at handlers
      obtain ⟨rfl, base⟩ := register_of_owned handlers
      exact base.elim (notBase called).1 (notBase called).2

theorem registers_of_dispatch_getpid : ∃ t,
    (syscallHandlerFor (sysHandlers .refusing) .x86_64 0x1000 2).Ends (atSyscall 39 3 0 0) (.ok ())
      t ∧
    t.uc.reg (.x86_64 .rip) = 0x1002 ∧ t.uc.reg (.x86_64 .rdi) = 3 := by
  have ran : ∃ t, (syscallHandlerFor (sysHandlers .refusing) .x86_64 0x1000 2).Ends
    (atSyscall 39 3 0 0) (.ok ()) t := ⟨_, rfl⟩
  obtain ⟨t, ran⟩ := ran
  have here : (atSyscall 39 3 0 0).SyscallAt 0x1000 := rfl
  obtain ⟨-, -, pc, others⟩ := registers_of_dispatch rfl here ran
  refine ⟨t, ran, pc, others (.x86_64 .rdi) (by decide) (by decide) fun arch => ?_⟩
  have getpid : some SysFn.sysGetpid = some .sysArchPrctl := arch
  cases getpid

end ValkyrieRs

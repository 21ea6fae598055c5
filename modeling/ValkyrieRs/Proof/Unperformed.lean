import ValkyrieRs.Proof.SystemEffects

/-!
# System calls that are not performed

A system call whose number is not in the table, whose name has no handler, or whose handler ends
with an error leaves zero in the result register, on both architectures.
-/

namespace ValkyrieRs

open Proc

/-- The instruction that makes a system call. -/
def Arch.syscallInsn : Arch → List U8
  | .x86_64 => [0x0f, 0x05]
  | .x86 => [0xcd, 0x80]

/-- The registers that the wrapper of an architecture uses. -/
def Arch.syscallRegs : Arch → SyscallRegs
  | .x86_64 => ⟨.x86_64 .rax, .x86_64 .rdi, .x86_64 .rsi, .x86_64 .rdx, .x86_64 .r10, .x86_64 .r8,
      .x86_64 .r9, .x86_64 .rip⟩
  | .x86 => ⟨.x86 .eax, .x86 .ebx, .x86 .ecx, .x86 .edx, .x86 .esi, .x86 .edi, .x86 .ebp, .x86 .eip⟩

theorem syscallHandlerFor_eq (handlers : Handlers) (arch : Arch) :
    syscallHandlerFor handlers arch = handleSyscall handlers arch.syscallInsn arch.syscallRegs := by
  cases arch <;> rfl

/-- A register as the wrapper reads it. -/
def Valkyrie.regValue (vk : Valkyrie) (reg : VRegister) : U64 :=
  vk.arch.regs.arch.truncate (vk.uc.reg reg)

/-- The number in the register. -/
def Valkyrie.syscallNo (vk : Valkyrie) : U64 := vk.regValue vk.cfg.arch.syscallRegs.number

/-- The arguments in the registers. -/
def Valkyrie.subCtx (vk : Valkyrie) : SubCtx where
  arg0 := vk.regValue vk.cfg.arch.syscallRegs.arg0
  arg1 := vk.regValue vk.cfg.arch.syscallRegs.arg1
  arg2 := vk.regValue vk.cfg.arch.syscallRegs.arg2
  arg3 := vk.regValue vk.cfg.arch.syscallRegs.arg3
  arg4 := vk.regValue vk.cfg.arch.syscallRegs.arg4
  arg5 := vk.regValue vk.cfg.arch.syscallRegs.arg5

/-- The system call of the state is not performed. -/
inductive NotPerformed (handlers : Handlers) (vk : Valkyrie) : Prop
  | unknownNo (e : ValkyrieError) :
      syscallNameFromNo vk.syscallNo vk.cfg.arch = .error e → NotPerformed handlers vk
  | noHandler (name : String) : syscallNameFromNo vk.syscallNo vk.cfg.arch = .ok name →
      syscallFnFromName name = none → NotPerformed handlers vk
  | failed (name : String) (f : SysFn) (e : ValkyrieError) (vk' : Valkyrie) :
      syscallNameFromNo vk.syscallNo vk.cfg.arch = .ok name → syscallFnFromName name = some f →
      (handlers f vk.subCtx).Ends vk (.error e) vk' → NotPerformed handlers vk

variable {vk vk' : Valkyrie} {addr : U64} {size : U32}

theorem ends_getReg {reg : VRegister} (fits : reg.isOf vk.arch.regs.arch) :
    (VRegs.getReg reg).Ends vk (.ok (vk.regValue reg)) vk := by
  rw [VRegs.getReg, ends_bind_get, if_pos fits]
  exact ends_pure.2 ⟨rfl, rfl⟩

/-- The result stands in the register of the number. -/
theorem ends_finishSyscall (arch : Arch) (fits : vk.arch.regs.arch = arch) (result : U64) :
    ∃ vk', (finishSyscall arch.syscallRegs addr size result).Ends vk (.ok ()) vk' ∧
      vk'.uc.reg arch.resultReg = arch.truncate result := by
  subst fits
  have number : vk.arch.regs.arch.syscallRegs.number = vk.arch.regs.arch.resultReg := by
    cases vk.arch.regs.arch <;> rfl
  have ofArch : vk.arch.regs.arch.syscallRegs.pc.isOf vk.arch.regs.arch := by
    cases vk.arch.regs.arch <;> rfl
  have apart : vk.arch.regs.arch.resultReg ≠ vk.arch.regs.arch.syscallRegs.pc := by
    cases vk.arch.regs.arch <;> decide
  have first : (VRegs.setReg vk.arch.regs.arch.resultReg result).Ends vk (.ok ())
      (vk.withReg vk.arch.regs.arch.resultReg result) :=
    (ends_setReg (Arch.resultReg_isOf _)).2 ⟨rfl, rfl⟩
  have second (value) : (VRegs.setReg vk.arch.regs.arch.syscallRegs.pc value).Ends
      (vk.withReg vk.arch.regs.arch.resultReg result) (.ok ())
      ((vk.withReg vk.arch.regs.arch.resultReg result).withReg
        vk.arch.regs.arch.syscallRegs.pc value) := by
    refine (ends_setReg ?_).2 ⟨rfl, rfl⟩
    exact ofArch
  rw [finishSyscall, number]
  refine ⟨_, first.bind (second _), ?_⟩
  show (if vk.arch.regs.arch.resultReg = vk.arch.regs.arch.syscallRegs.pc then _ else
    (vk.withReg vk.arch.regs.arch.resultReg result).uc.reg vk.arch.regs.arch.resultReg) = _
  rw [if_neg apart, Valkyrie.withReg_reg]

/-- The wrapper up to the look-up of the number. -/
theorem ends_handleSyscall (handlers : Handlers) (sameArch : vk.arch.regs.arch = vk.cfg.arch)
    (insn : VMemory.read vk.uc addr 2 = .ok vk.cfg.arch.syscallInsn) :
    (syscallHandlerFor handlers vk.cfg.arch addr size).Ends vk (.ok ()) vk' ↔
      (match syscallNameFromNo vk.syscallNo vk.cfg.arch with
        | .error _ => finishSyscall vk.cfg.arch.syscallRegs addr size 0
        | .ok name => do
          match ← (dispatchSyscallByName handlers name vk.subCtx).attempt with
          | .ok v => finishSyscall vk.cfg.arch.syscallRegs addr size v
          | .error _ => finishSyscall vk.cfg.arch.syscallRegs addr size 0).Ends vk (.ok ()) vk' := by
  have read : (memRead addr 2).Ends vk (.ok vk.cfg.arch.syscallInsn) vk :=
    ends_memRead.2 ⟨by decide, insn.symm, rfl⟩
  have fits (reg : VRegister) (h : reg.isOf vk.cfg.arch) :
      (VRegs.getReg reg).Ends vk (.ok (vk.regValue reg)) vk := ends_getReg (sameArch ▸ h)
  have number : vk.cfg.arch.syscallRegs.number.isOf vk.cfg.arch := by cases vk.cfg.arch <;> rfl
  have arg0 : vk.cfg.arch.syscallRegs.arg0.isOf vk.cfg.arch := by cases vk.cfg.arch <;> rfl
  have arg1 : vk.cfg.arch.syscallRegs.arg1.isOf vk.cfg.arch := by cases vk.cfg.arch <;> rfl
  have arg2 : vk.cfg.arch.syscallRegs.arg2.isOf vk.cfg.arch := by cases vk.cfg.arch <;> rfl
  have arg3 : vk.cfg.arch.syscallRegs.arg3.isOf vk.cfg.arch := by cases vk.cfg.arch <;> rfl
  have arg4 : vk.cfg.arch.syscallRegs.arg4.isOf vk.cfg.arch := by cases vk.cfg.arch <;> rfl
  have arg5 : vk.cfg.arch.syscallRegs.arg5.isOf vk.cfg.arch := by cases vk.cfg.arch <;> rfl
  rw [syscallHandlerFor_eq, handleSyscall, read.bind_iff, if_neg (by simp)]
  rw [(fits _ number).bind_iff, (fits _ arg0).bind_iff, (fits _ arg1).bind_iff,
    (fits _ arg2).bind_iff, (fits _ arg3).bind_iff, (fits _ arg4).bind_iff,
    (fits _ arg5).bind_iff, ends_bind_get]
  rfl

theorem not_isNegErrno_zero (arch : Arch) : ¬ arch.IsNegErrno (arch.truncate 0) := by
  cases arch <;> decide

/-- Zero is reported for a system call that is not performed. -/
theorem ends_of_notPerformed (handlers : Handlers)
    (keepsArch : ∀ f sctx s r s', (handlers f sctx).Ends s r s' → s'.arch.regs.arch = s.arch.regs.arch)
    (sameArch : vk.arch.regs.arch = vk.cfg.arch)
    (insn : VMemory.read vk.uc addr 2 = .ok vk.cfg.arch.syscallInsn)
    (notPerformed : NotPerformed handlers vk) : ∃ vk',
      (syscallHandlerFor handlers vk.cfg.arch addr size).Ends vk (.ok ()) vk' ∧
        vk'.uc.reg vk.cfg.arch.resultReg = vk.cfg.arch.truncate 0 := by
  simp only [ends_handleSyscall handlers sameArch insn]
  have here := @ends_finishSyscall vk addr size vk.cfg.arch sameArch 0
  cases notPerformed with
  | unknownNo e unknown =>
    rw [unknown]
    exact here
  | noHandler name known missing =>
    obtain ⟨vk', finish, result⟩ := here
    rw [known]
    refine ⟨vk', ends_bind_attempt.2 ⟨.error (.unknownSyscallName name), vk, ?_, finish⟩, result⟩
    rw [dispatchSyscallByName, missing]
    exact ends_throw.2 ⟨rfl, rfl⟩
  | failed name f e t known found fails =>
    obtain ⟨vk', finish, result⟩ := @ends_finishSyscall t addr size vk.cfg.arch
      ((keepsArch _ _ _ _ _ fails).trans sameArch) 0
    rw [known]
    refine ⟨vk', ends_bind_attempt.2 ⟨.error e, t, ?_, finish⟩, result⟩
    rw [dispatchSyscallByName, found]
    exact fails

/-- No system call that is not performed is reported with an error number. -/
theorem never_errno_of_notPerformed (handlers : Handlers)
    (keepsArch : ∀ f sctx s r s', (handlers f sctx).Ends s r s' → s'.arch.regs.arch = s.arch.regs.arch)
    (sameArch : vk.arch.regs.arch = vk.cfg.arch)
    (insn : VMemory.read vk.uc addr 2 = .ok vk.cfg.arch.syscallInsn)
    (notPerformed : NotPerformed handlers vk) : ∃ vk',
      (syscallHandlerFor handlers vk.cfg.arch addr size).Ends vk (.ok ()) vk' ∧
        ¬ vk.cfg.arch.IsNegErrno (vk'.uc.reg vk.cfg.arch.resultReg) := by
  obtain ⟨vk', run, result⟩ := @ends_of_notPerformed vk addr size handlers keepsArch sameArch insn
    notPerformed
  refine ⟨vk', run, ?_⟩
  rw [result]
  exact not_isNegErrno_zero _

/-- A page of code with the instruction `syscall`, and the number and arguments in the registers. -/
def atSyscall (number arg0 arg1 arg2 : U64) : Valkyrie :=
  let vk := Valkyrie.ofMemory .x86_64 ⟨[⟨0x1000, 0x1000, ⟨true, true, true⟩, "[code]"⟩], 0, 0⟩
  vk.withUc { vk.uc with
    bytes := fun a => if a = 0x1000 then 0x0f else if a = 0x1001 then 0x05 else 0
    reg := fun r =>
      if r = .x86_64 .rax then number
      else if r = .x86_64 .rdi then arg0
      else if r = .x86_64 .rsi then arg1
      else if r = .x86_64 .rdx then arg2
      else 0 }

/-- No handler changes the width of the registers. -/
theorem keepsArch_sysHandlers (sv : Services) (f : SysFn) (sctx : SubCtx) (s : Valkyrie)
    (r : Except ValkyrieError U64) (s' : Valkyrie) (run : (sysHandlers sv f sctx).Ends s r s') :
    s'.arch.regs.arch = s.arch.regs.arch :=
  congrArg Settings.regsArch ((does_sysHandlers sv f sctx s).safe rfl r s' run).1.settings

/-- `mprotect` of an address where nothing is mapped: the handler fails, and the guest reads zero. -/
theorem mprotect_fails_with_zero :
    NotPerformed (sysHandlers .refusing) (atSyscall 10 0x5000 0x1000 3) ∧
      ∃ vk', (syscallHandlerFor (sysHandlers .refusing) .x86_64 0x1000 2).Ends
          (atSyscall 10 0x5000 0x1000 3) (.ok ()) vk' ∧
        vk'.uc.reg (.x86_64 .rax) = 0 ∧ ¬ Arch.x86_64.IsNegErrno (vk'.uc.reg (.x86_64 .rax)) := by
  refine ⟨?_, ?_⟩
  · exact .failed "mprotect" .sysMprotect (.unicorn .nomem) _ rfl rfl rfl
  · refine ⟨_, rfl, rfl, by decide⟩

/-- The guest gets an answer that is no error number. -/
def EndsWithoutErrno (vk : Valkyrie) : Prop :=
  ∃ vk', (syscallHandlerFor (sysHandlers .refusing) .x86_64 0x1000 2).Ends vk (.ok ()) vk' ∧
    ¬ Arch.x86_64.IsNegErrno (vk'.uc.reg (.x86_64 .rax))

/-- A number that no table has, `fork`, which has no handler, and an `mprotect` that fails. -/
theorem never_errno_of_notPerformed_refusing :
    EndsWithoutErrno (atSyscall 9999 0 0 0) ∧ EndsWithoutErrno (atSyscall 57 0 0 0) ∧
      EndsWithoutErrno (atSyscall 10 0x5000 0x1000 3) := by
  have reported (number arg0 arg1 arg2 : U64)
      (missed : NotPerformed (sysHandlers .refusing) (atSyscall number arg0 arg1 arg2)) :
      EndsWithoutErrno (atSyscall number arg0 arg1 arg2) :=
    never_errno_of_notPerformed (sysHandlers .refusing) (keepsArch_sysHandlers _) rfl rfl missed
  refine ⟨reported _ _ _ _ ?_, reported _ _ _ _ ?_, reported _ _ _ _ ?_⟩
  · exact .unknownNo (.unknownSyscall 9999) (by decide +kernel)
  · exact .noHandler "fork" (by decide +kernel) (by decide +kernel)
  · exact .failed "mprotect" .sysMprotect (.unicorn .nomem) _ rfl rfl rfl

end ValkyrieRs

import ValkyrieRs.Proof.Preparation

/-!
# The alignment of the initial stack

The builders round the stack pointer down to a multiple of sixteen and then push the frame below it,
whose length depends on the number of arguments.  So the pointer that the guest starts with is
aligned exactly for one residue of that number, modulo the words that make up sixteen bytes.
-/

namespace ValkyrieRs

open Proc

variable {bits : ℕ} {vk vk' : Valkyrie}

/-- A frame with this number of arguments is a multiple of sixteen bytes. -/
def Arch.AlignsWith : Arch → ℕ → Prop
  | .x86, argc => argc % 4 = 3
  | .x86_64, argc => argc % 2 = 1

instance (arch : Arch) (argc : ℕ) : Decidable (arch.AlignsWith argc) := by
  cases arch <;> exact inferInstanceAs (Decidable (_ = _))

/-- The vector has 15 entries for an ELF file and 3 otherwise, each of two words. -/
theorem length_auxv_cases (vk : Valkyrie) :
    (auxv 64 vk 0 0).length = 30 ∨ (auxv 64 vk 0 0).length = 6 := by
  unfold auxv
  cases vk.elfAuxv with
  | some info => exact .inl rfl
  | none => exact .inr rfl

theorem length_pushArg {acc acc' : U64 × List U64} {arg : List U8}
    (run : (pushArg acc arg).Ends vk (.ok acc') vk') : acc'.2.length = acc.2.length + 1 := by
  rw [pushArg] at run
  obtain ⟨_, _, -, more⟩ := ends_bind_ok.1 run
  obtain ⟨_, _, -, done⟩ := ends_bind_ok.1 more
  obtain ⟨same, -⟩ := ends_pure.1 done
  cases same
  exact List.length_append

theorem length_pushArgs {args : List (List U8)} {acc acc' : U64 × List U64}
    (run : (args.foldlM pushArg acc).Ends vk (.ok acc') vk') :
    acc'.2.length = acc.2.length + args.length := by
  induction args generalizing vk acc with
  | nil =>
    obtain ⟨same, -⟩ := ends_pure.1 run
    cases same
    rfl
  | cons arg args ih =>
    rw [List.foldlM_cons] at run
    obtain ⟨acc₁, vk₁, first, rest⟩ := ends_bind_ok.1 run
    rw [ih rest, length_pushArg first, List.length_cons]
    omega

/-- The frame ends at a multiple of sixteen. -/
theorem setupStackWith_aligned {reg : VRegister}
    (run : (setupStackWith bits reg).Ends vk (.ok ()) vk') :
    ∃ (s : U64) (n : ℕ), n % 4 = (vk.guestArgv.length + 1) % 4 ∧
      (s + BitVec.ofNat 64 (n * (bits / 8))).toNat % 16 = 0 ∧
      reg.isOf vk'.arch.regs.arch ∧ vk'.uc.reg reg = vk'.arch.regs.arch.truncate s := by
  obtain ⟨vk₁, pushed, vk₂, execfnPtr, frame, s, vk₃, random, push, -, framed, aligned, -, fits,
    rfl⟩ := setupStackWith_ok run
  obtain ⟨stored₁, -⟩ := ucMemWrite_ok random
  obtain ⟨stored₂, -⟩ := pushArgs_above push
  have count : pushed.2.length = vk.guestArgv.length := by
    rw [length_pushArgs push, List.length_reverse, stored₁.eq]
    exact Nat.zero_add _
  have vector := length_auxv_cases vk₂
  have words : frame.length = pushed.2.length + 3 + (auxv 64 vk₂ 0 0).length := by
    rw [framed, length_frame, List.length_map, List.length_reverse]
  refine ⟨s, frame.length, ?_, ?_, fits, Valkyrie.withReg_reg⟩
  · omega
  · have mask : (0xF : U64) = BitVec.ofNat 64 (2 ^ 4 - 1) := rfl
    rw [← aligned, mask, and_not_mask, BitVec.toNat_shiftLeft, Nat.shiftLeft_eq]
    omega

/-- The stack pointer is aligned exactly when the number of arguments fits the architecture. -/
theorem start_aligned_iff (run : setupStack.Ends vk (.ok ()) vk') :
    (vk'.uc.reg vk.cfg.arch.spReg).toNat % 16 = 0 ↔
      vk.cfg.arch.AlignsWith vk.guestArgv.length := by
  rw [setupStack, ends_bind_get] at run
  cases arch : vk.cfg.arch with
  | x86 =>
    rw [arch] at run
    obtain ⟨s, n, count, aligned, fits, set⟩ := setupStackWith_aligned run
    have regs : vk'.arch.regs.arch = .x86 := by
      cases known : vk'.arch.regs.arch with
      | x86 => rfl
      | x86_64 =>
        rw [known] at fits
        cases fits
    rw [regs, Arch.truncate] at set
    rw [Arch.spReg, set, Arch.AlignsWith, BitVec.toNat_setWidth, BitVec.toNat_setWidth]
    rw [BitVec.toNat_add, BitVec.toNat_ofNat] at aligned
    omega
  | x86_64 =>
    rw [arch] at run
    obtain ⟨s, n, count, aligned, fits, set⟩ := setupStackWith_aligned run
    have regs : vk'.arch.regs.arch = .x86_64 := by
      cases known : vk'.arch.regs.arch with
      | x86_64 => rfl
      | x86 =>
        rw [known] at fits
        cases fits
    rw [regs, Arch.truncate] at set
    rw [Arch.spReg, set, Arch.AlignsWith]
    rw [BitVec.toNat_add, BitVec.toNat_ofNat] at aligned
    omega

/-- A 32-bit guest with three arguments. -/
def threeArguments : Valkyrie :=
  { wrappingGuest 0x400 with start.argv := [[0x61], [0x62], [0x63]] }

/-- Three arguments make an aligned stack, and one does not. -/
theorem start_aligned_iff_threeArguments : ∃ vk₁ vk₂,
    setupStack.Ends threeArguments (.ok ()) vk₁ ∧
      (vk₁.uc.reg Arch.x86.spReg).toNat % 16 = 0 ∧
    setupStack.Ends (wrappingGuest 0x400) (.ok ()) vk₂ ∧
      ¬ (vk₂.uc.reg Arch.x86.spReg).toNat % 16 = 0 := by
  have runs : ∃ vk₁ vk₂, setupStack.Ends threeArguments (.ok ()) vk₁ ∧
      setupStack.Ends (wrappingGuest 0x400) (.ok ()) vk₂ :=
    ⟨_, _, ends_final (by decide +kernel), ends_final (by decide +kernel)⟩
  obtain ⟨vk₁, vk₂, three, one⟩ := runs
  have aligns : Arch.x86.AlignsWith threeArguments.guestArgv.length := by decide
  have misaligns : ¬ Arch.x86.AlignsWith (wrappingGuest 0x400).guestArgv.length := by decide
  exact ⟨vk₁, vk₂, three, (start_aligned_iff three).2 aligns, one,
    fun aligned => misaligns ((start_aligned_iff one).1 aligned)⟩

/-- A guest with one argument starts with a misaligned stack. -/
theorem start_misaligned : ¬ ∀ vk vk' : Valkyrie, setupStack.Ends vk (.ok ()) vk' →
    (vk'.uc.reg vk.cfg.arch.spReg).toNat % 16 = 0 := by
  intro aligned
  have run : (setupStack (wrappingGuest 0x400)).map
      (fun p => (p.1.isOk, (p.2.uc.reg Arch.x86.spReg).toNat % 16)) = some (true, 8) := by
    decide +kernel
  obtain ⟨⟨r, vk'⟩, run, done⟩ := Option.map_eq_some_iff.1 run
  rw [Prod.mk.injEq] at done
  obtain ⟨isOk, residue⟩ := done
  cases r with
  | error => cases isOk
  | ok =>
    have zero := aligned _ vk' run
    exact absurd (residue.symm.trans zero) (by decide)

end ValkyrieRs

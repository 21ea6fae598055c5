import ValkyrieRs.Os.Linux
import ValkyrieRs.Proof.ProcessImage
import ValkyrieRs.Syscall.Words

/-!
# The initial stack decodes to the arguments

`setup_stack` pushes the random bytes and the arguments downwards and writes the frame below them.
As long as all of it fits below the initial stack pointer, what stands at the final one is the
process image.  A 32-bit guest whose image does not fit gets addresses that wrap at 64 bits.
-/

namespace ValkyrieRs

open Proc Blocks

variable {vk vk' : Valkyrie} {uc uc' : Unicorn} {a sp : U64} {data : List U8} {bits : ℕ}

/-! ## Stores -/

/-- Only the bytes in memory have changed. -/
structure Stored (vk vk' : Valkyrie) : Prop where
  eq : vk' = vk.withUc vk'.uc
  reg : vk'.uc.reg = vk.uc.reg
  pages : vk'.uc.pages = vk.uc.pages

theorem Stored.refl (vk : Valkyrie) : Stored vk vk := ⟨rfl, rfl, rfl⟩

theorem Stored.trans {vk₁ : Valkyrie} (h : Stored vk vk₁) (h' : Stored vk₁ vk') :
    Stored vk vk' where
  eq := by
    rw [h'.eq, h.eq]
    rfl
  reg := h'.reg.trans h.reg
  pages := h'.pages.trans h.pages

theorem inRange_iff_inBlock {n : ℕ} {x : U64} (bound : a.toNat + n ≤ 2 ^ 64) :
    InRange a n x ↔ InBlock a n x := by
  rw [InRange, InBlock, BitVec.toNat_sub]
  omega

/-- A store is read back, and nothing else is touched. -/
theorem ends_ucMemWrite (run : (ucMemWrite a data).Ends vk (.ok ()) vk') :
    Stored vk vk' ∧ Carries vk'.uc.readAt a (data.map some) ∧
      ∀ x, ¬ InBlock a data.length x → vk'.uc.readAt x = vk.uc.readAt x := by
  rcases ends_ucCall.1 run with ⟨uc, written, -, rfl⟩ | ⟨e, -, failed, -⟩
  · have mapped := Unicorn.memWrite_ok_iff.1 ⟨uc, written⟩
    obtain ⟨pages, reg, bytes⟩ := Unicorn.memWrite_effect written
    have same : ∀ x, uc.protAt x = vk.uc.protAt x := by
      intro x
      rw [Unicorn.protAt, Unicorn.protAt, pages]
    refine ⟨⟨rfl, reg, pages⟩, carries_of_eq fun i hi => ?_, fun x outside => ?_⟩
    · rw [List.length_map] at hi
      have place : InRange a data.length (a + BitVec.ofNat 64 i) := by
        rw [inRange_iff_inBlock mapped.1, InBlock, BitVec.add_comm, BitVec.add_sub_cancel,
          BitVec.toNat_ofNat]
        omega
      have number : (a + BitVec.ofNat 64 i).toNat - a.toNat = i := by
        have := mapped.1
        rw [BitVec.toNat_add, BitVec.toNat_ofNat]
        omega
      show uc.readAt _ = _
      rw [Unicorn.readAt, same, if_pos (mapped.2 _ place), bytes, if_pos place, number,
        List.getElem_map, List.getD_eq_getElem?_getD, List.getElem?_eq_getElem hi]
      rfl
    · show uc.readAt x = _
      rw [← inRange_iff_inBlock mapped.1] at outside
      rw [Unicorn.readAt, Unicorn.readAt, same, bytes, if_neg outside]
  · cases failed

/-- What lies apart from a store is held as before. -/
theorem carries_stored {rest : List U8} {n : ℕ} (h : Carries vk.uc.readAt sp (rest.map some))
    (same : ∀ x, ¬ InBlock a n x → vk'.uc.readAt x = vk.uc.readAt x)
    (apart : ∀ x, InBlock sp rest.length x → ¬ InBlock a n x) :
    Carries vk'.uc.readAt sp (rest.map some) := by
  refine h.congr fun x hx => same x (apart x ?_)
  rwa [List.length_map] at hx

/-! ## Strings -/

/-- The argument with its NUL. -/
def cString (arg : List U8) : List U8 := arg ++ [0]

/-- A pushed argument stands below what was there. -/
theorem ends_pushArg {acc acc' : U64 × List U64} {arg rest : List U8}
    (held : Carries vk.uc.readAt acc.1 (rest.map some))
    (fits : arg.length + 1 + rest.length ≤ 2 ^ 64)
    (run : (pushArg acc arg).Ends vk (.ok acc') vk') :
    Stored vk vk' ∧ acc' = (acc.1 - BitVec.ofNat 64 (arg.length + 1),
        acc.2 ++ [acc.1 - BitVec.ofNat 64 (arg.length + 1)]) ∧
      Carries vk'.uc.readAt acc'.1 ((cString arg ++ rest).map some) := by
  rw [pushArg] at run
  obtain ⟨_, vk₁, text, more⟩ := ends_bind_ok.1 run
  obtain ⟨_, vk₂, nul, done⟩ := ends_bind_ok.1 more
  obtain ⟨same, rfl⟩ := ends_pure.1 done
  cases same
  obtain ⟨stored₁, held₁, same₁⟩ := ends_ucMemWrite text
  obtain ⟨stored₂, held₂, same₂⟩ := ends_ucMemWrite nul
  have size : BitVec.ofNat 64 arg.length + 1 = BitVec.ofNat 64 (arg.length + 1) :=
    (BitVec.ofNat_add ..).symm
  rw [size] at held₁ same₁ held₂ same₂
  generalize base : acc.1 - BitVec.ofNat 64 (arg.length + 1) = s at *
  have top : acc.1 = s + BitVec.ofNat 64 (arg.length + 1) := by
    rw [← base, BitVec.sub_add_cancel]
  rw [top] at held
  refine ⟨stored₁.trans stored₂, by rw [size, base], ?_⟩
  rw [size, base, cString, List.append_assoc, List.map_append, carries_append, List.map_append,
    carries_append, List.length_map, List.length_map, BitVec.add_assoc, ← BitVec.ofNat_add,
    List.length_singleton]
  dsimp only
  refine ⟨carries_stored held₁ same₂ fun x near far => ?_, held₂,
    carries_stored (carries_stored held same₁ fun x near far => ?_) same₂ fun x near far => ?_⟩
  · rw [List.length_singleton, inBlock_add (by omega)] at far
    have low : (x - s).toNat < arg.length := near
    omega
  · rw [inBlock_add (by omega)] at near
    have low : (x - s).toNat < arg.length := far
    omega
  · rw [inBlock_add (by omega)] at near
    rw [List.length_singleton, inBlock_add (by omega)] at far
    omega

/-- The number of bytes of the arguments with their NULs. -/
def stringSizes (args : List (List U8)) : List ℕ := args.map fun arg => (cString arg).length

/-- Where the arguments stand when the first of them stands at `a`. -/
def stringAddrs (a : U64) (args : List (List U8)) : List U64 :=
  (blocks a (stringSizes args)).map Prod.fst

theorem length_cString (arg : List U8) : (cString arg).length = arg.length + 1 :=
  List.length_append

theorem stringAddrs_cons (arg : List U8) (args : List (List U8)) : stringAddrs a (arg :: args) =
    a :: stringAddrs (a + BitVec.ofNat 64 (arg.length + 1)) args := by
  rw [← length_cString]
  rfl

/-- The pushed arguments stand in order below what was there. -/
theorem ends_pushArgs {args : List (List U8)} {acc : U64 × List U64} {rest : List U8}
    (held : Carries vk.uc.readAt a (rest.map some))
    (fits : (stringSizes args).sum + rest.length ≤ 2 ^ 64)
    (run : (args.reverse.foldlM pushArg (a, [])).Ends vk (.ok acc) vk') :
    Stored vk vk' ∧ a = acc.1 + BitVec.ofNat 64 (stringSizes args).sum ∧
      acc.2.reverse = stringAddrs acc.1 args ∧
      Carries vk'.uc.readAt acc.1 ((args.flatMap cString ++ rest).map some) := by
  induction args generalizing vk' acc with
  | nil =>
    obtain ⟨same, rfl⟩ := ends_pure.1 run
    cases same
    exact ⟨.refl _, (BitVec.add_zero a).symm, rfl, held⟩
  | cons arg args ih =>
    have lawful := @lawfulMonad Valkyrie ValkyrieError
    rw [List.reverse_cons, List.foldlM_append] at run
    obtain ⟨mid, vk₁, first, last⟩ := ends_bind_ok.1 run
    rw [List.foldlM_cons] at last
    obtain ⟨acc₁, vk₂, push, done⟩ := ends_bind_ok.1 last
    obtain ⟨same, rfl⟩ := ends_pure.1 done
    cases same
    have sizes : (stringSizes (arg :: args)).sum = arg.length + 1 + (stringSizes args).sum := by
      rw [stringSizes, List.map_cons, List.sum_cons, length_cString]
      rfl
    rw [sizes] at fits
    obtain ⟨stored, place, ptrs, strings⟩ := ih (by omega) first
    have lengths : ∀ l : List (List U8), (l.flatMap cString).length = (stringSizes l).sum :=
      fun l => List.length_flatMap
    obtain ⟨stored', rfl, strings'⟩ := ends_pushArg strings
      (by rw [List.length_append, lengths]; omega) push
    have back : mid.1 = mid.1 - BitVec.ofNat 64 (arg.length + 1) +
        BitVec.ofNat 64 (arg.length + 1) := (BitVec.sub_add_cancel ..).symm
    refine ⟨stored.trans stored', ?_, ?_, ?_⟩
    · rw [place, sizes]
      dsimp only
      rw [BitVec.ofNat_add (arg.length + 1), ← BitVec.add_assoc, ← back]
    · rw [List.reverse_append, ptrs]
      dsimp only
      rw [stringAddrs_cons, ← back]
      rfl
    · rw [List.flatMap_cons, List.append_assoc]
      exact strings'

/-! ## The frame -/

/-- The words of the frame stand where they were written, and nothing else is touched. -/
theorem ends_writeFrame {frame : List (BitVec bits)} (fits : bits / 8 * frame.length ≤ 2 ^ 64)
    (run : (writeFrame frame a).Ends vk (.ok ()) vk') :
    Stored vk vk' ∧ CarriesWords vk'.uc.readAt a frame ∧
      ∀ x, ¬ InBlock a (bits / 8 * frame.length) x → vk'.uc.readAt x = vk.uc.readAt x := by
  induction frame generalizing vk a with
  | nil =>
    obtain ⟨-, rfl⟩ := ends_pure.1 run
    exact ⟨.refl _, carries_nil, fun _ _ => rfl⟩
  | cons word frame ih =>
    obtain ⟨_, vk₁, first, rest⟩ := ends_bind_ok.1 run
    rw [List.length_cons, Nat.mul_succ] at fits
    obtain ⟨stored₁, held₁, same₁⟩ := ends_ucMemWrite first
    obtain ⟨stored₂, held₂, same₂⟩ := ih (by omega) rest
    rw [length_toLeBytes] at same₁
    refine ⟨stored₁.trans stored₂, carriesWords_cons.2 ⟨?_, held₂⟩, fun x outside => ?_⟩
    · rw [CarriesWords, List.flatMap_singleton]
      refine carries_stored held₁ same₂ fun x near far => ?_
      rw [inBlock_add (by omega)] at far
      have low : (x - a).toNat < bits / 8 := by rwa [length_toLeBytes] at near
      omega
    · rw [List.length_cons, Nat.mul_succ, InBlock] at outside
      rw [same₂ x, same₁ x]
      · rw [InBlock]
        omega
      · rw [inBlock_add (by omega)]
        omega

/-! ## The whole stack -/

/-- The initial stack pointer, as the guest's width shows it. -/
def Valkyrie.stackTop (vk : Valkyrie) : U64 :=
  vk.arch.regs.arch.truncate (vk.uc.reg vk.arch.regs.sp)

/-- The bytes of the arguments and of the random bytes above them. -/
def Valkyrie.stringsSize (vk : Valkyrie) : ℕ := (stringSizes vk.guestArgv).sum + 16

/-- The bytes skipped for the alignment of the frame. -/
def Valkyrie.stackPadding (vk : Valkyrie) : ℕ :=
  (vk.stackTop - BitVec.ofNat 64 vk.stringsSize).toNat % 16

/-- The words of the frame. -/
def Valkyrie.frameLength (vk : Valkyrie) : ℕ :=
  vk.guestArgv.length + 3 + (auxv 64 vk 0 0).length

theorem length_auxv {execfnPtr atRandomPtr : BitVec bits} :
    (auxv bits vk execfnPtr atRandomPtr).length = (auxv 64 vk 0 0).length := by
  unfold auxv
  cases vk.elfAuxv <;> rfl

theorem getReg_ok {reg : VRegister} {v : U64} (run : (VRegs.getReg reg).Ends vk (.ok v) vk') :
    v = vk.arch.regs.arch.truncate (vk.uc.reg reg) ∧ vk' = vk := by
  rw [VRegs.getReg, ends_bind_get] at run
  split_ifs at run
  · obtain ⟨same, rfl⟩ := ends_pure.1 run
    exact ⟨Except.ok.inj same, rfl⟩
  · cases (ends_throw.1 run).1

theorem setReg_ok {reg : VRegister} {v : U64} (run : (VRegs.setReg reg v).Ends vk (.ok ()) vk') :
    reg.isOf vk.arch.regs.arch ∧ vk' = vk.withReg reg v := by
  rw [VRegs.setReg, ends_bind_get] at run
  split_ifs at run with fits
  · exact ⟨fits, (ends_modify.1 run).2⟩
  · cases (ends_throw.1 run).1

theorem length_stringAddrs (args : List (List U8)) : (stringAddrs a args).length = args.length := by
  induction args generalizing a with
  | nil => rfl
  | cons arg args ih => rw [stringAddrs_cons, List.length_cons, ih, List.length_cons]

/-- Rounding down to a multiple of sixteen. -/
theorem eq_align_add (v : U64) : v = (v &&& ~~~0xF) + BitVec.ofNat 64 (v.toNat % 16) := by
  have mask : (0xF : U64) = BitVec.ofNat 64 (2 ^ 4 - 1) := rfl
  apply BitVec.eq_of_toNat_eq
  rw [mask, and_not_mask, BitVec.toNat_add, BitVec.toNat_shiftLeft, BitVec.toNat_ushiftRight,
    Nat.shiftLeft_eq, Nat.shiftRight_eq_div_pow, BitVec.toNat_ofNat]
  omega

/-- The words below the arguments that stand at the pointers. -/
def Valkyrie.frame (bits : ℕ) (vk : Valkyrie) (ptrs : List (BitVec bits))
    (execfnPtr atRandomPtr : BitVec bits) : List (BitVec bits) :=
  BitVec.ofNat bits ptrs.length :: ptrs ++ [0, 0] ++ auxv bits vk execfnPtr atRandomPtr

theorem length_frame {ptrs : List (BitVec bits)} {execfnPtr atRandomPtr : BitVec bits} :
    (vk.frame bits ptrs execfnPtr atRandomPtr).length =
      ptrs.length + 3 + (auxv 64 vk 0 0).length := by
  rw [Valkyrie.frame, List.length_append, List.length_append, List.length_cons, length_auxv]
  rfl

/-- A run of the builder, step by step. -/
theorem setupStackWith_ok {reg : VRegister}
    (run : (setupStackWith bits reg).Ends vk (.ok ()) vk') :
    ∃ (vk₁ : Valkyrie) (pushed : U64 × List U64) (vk₂ : Valkyrie) (execfnPtr : BitVec bits)
      (frame : List (BitVec bits)) (s : U64) (vk₃ : Valkyrie),
      (ucMemWrite (vk.stackTop - 16) (List.replicate 16 0x42)).Ends vk (.ok ()) vk₁ ∧
      (vk₁.guestArgv.reverse.foldlM pushArg (vk.stackTop - 16, [])).Ends vk₁ (.ok pushed) vk₂ ∧
      (pushed.2.reverse.map fun ptr => ptr.setWidth bits).head? = some execfnPtr ∧
      frame = vk₂.frame bits (pushed.2.reverse.map fun ptr => ptr.setWidth bits) execfnPtr
        ((vk.stackTop - 16).setWidth bits) ∧
      pushed.1 &&& ~~~0xF = s + BitVec.ofNat 64 (frame.length * (bits / 8)) ∧
      (writeFrame frame s).Ends vk₂ (.ok ()) vk₃ ∧
      reg.isOf vk₃.arch.regs.arch ∧ vk' = vk₃.withReg reg s := by
  rw [setupStackWith, ends_bind_get] at run
  obtain ⟨top, vk₀, read, run₁⟩ := ends_bind_ok.1 run
  obtain ⟨isTop, rfl⟩ := getReg_ok read
  have isTop : top = vk₀.stackTop := isTop
  subst isTop
  obtain ⟨_, vk₁, random, run₂⟩ := ends_bind_ok.1 run₁
  rw [ends_bind_get] at run₂
  obtain ⟨pushed, vk₂, push, run₃⟩ := ends_bind_ok.1 run₂
  cases first : (pushed.2.reverse.map fun ptr => ptr.setWidth bits).head? with
  | none =>
    simp only [first] at run₃
    cases (ends_throw.1 run₃).1
  | some execfnPtr =>
    simp only [first, ends_bind_get] at run₃
    obtain ⟨_, vk₃, wrote, set⟩ := ends_bind_ok.1 run₃
    obtain ⟨fits, same⟩ := setReg_ok set
    refine ⟨vk₁, pushed, vk₂, execfnPtr, _, _, vk₃, random, push, first, rfl, ?_, wrote, fits, same⟩
    rw [BitVec.ofNat_mul]
    exact (BitVec.sub_add_cancel ..).symm

/-- What a run of the builder leaves, for a stack that fits the address space. -/
theorem ends_setupStackWith {reg : VRegister}
    (fits : vk.stringsSize + vk.stackPadding + bits / 8 * vk.frameLength ≤ 2 ^ 64)
    (run : (setupStackWith bits reg).Ends vk (.ok ()) vk') :
    ∃ s execfnPtr, vk.stackTop = s + BitVec.ofNat 64
        (bits / 8 * vk.frameLength + vk.stackPadding + vk.stringsSize) ∧
      (stringAddrs (s + BitVec.ofNat 64 (bits / 8 * vk.frameLength + vk.stackPadding))
        vk.guestArgv).head? = some execfnPtr ∧
      CarriesWords vk'.uc.readAt s (BitVec.ofNat bits vk.guestArgv.length ::
        (stringAddrs (s + BitVec.ofNat 64 (bits / 8 * vk.frameLength + vk.stackPadding))
          vk.guestArgv).map (·.setWidth bits) ++ [0, 0] ++
        auxv bits vk (execfnPtr.setWidth bits) ((vk.stackTop - 16).setWidth bits)) ∧
      Carries vk'.uc.readAt (s + BitVec.ofNat 64 (bits / 8 * vk.frameLength + vk.stackPadding))
        ((vk.guestArgv.flatMap cString ++ List.replicate 16 0x42).map some) ∧
      vk'.arch.regs.arch = vk.arch.regs.arch ∧ reg.isOf vk.arch.regs.arch ∧
      vk'.uc.reg reg = vk.arch.regs.arch.truncate s := by
  obtain ⟨vk₁, pushed, vk₂, ptr, frame, s, vk₃, random, push, first, framed, aligned, wrote, fits',
    rfl⟩ := setupStackWith_ok run
  obtain ⟨stored₁, held, -⟩ := ends_ucMemWrite random
  have argv : vk₁.guestArgv = vk.guestArgv := by
    rw [stored₁.eq]
    rfl
  rw [argv] at push
  obtain ⟨stored₂, place, ptrs, strings⟩ := ends_pushArgs held
    (by rw [List.length_replicate]; unfold Valkyrie.stringsSize at fits; omega) push
  rw [ptrs] at first framed
  have info : auxv bits vk₂ = auxv bits vk := by
    rw [(stored₁.trans stored₂).eq]
    rfl
  rw [List.head?_map] at first
  obtain ⟨execfnPtr, head, rfl⟩ := Option.map_eq_some_iff.1 first
  have words : frame.length = vk.frameLength := by
    rw [framed, length_frame, List.length_map, length_stringAddrs, (stored₁.trans stored₂).eq]
    rfl
  rw [Valkyrie.frame, info, List.length_map, length_stringAddrs] at framed
  have base : pushed.1 + BitVec.ofNat 64 vk.stringsSize = vk.stackTop := by
    rw [Valkyrie.stringsSize, BitVec.ofNat_add, ← BitVec.add_assoc, ← place]
    exact BitVec.sub_add_cancel vk.stackTop 16
  have padded : pushed.1 = (pushed.1 &&& ~~~15) + BitVec.ofNat 64 vk.stackPadding := by
    rw [Valkyrie.stackPadding, ← base, BitVec.add_sub_cancel]
    exact eq_align_add pushed.1
  have place' : pushed.1 =
      s + BitVec.ofNat 64 (bits / 8 * vk.frameLength + vk.stackPadding) := by
    rw [BitVec.ofNat_add, ← BitVec.add_assoc, ← words, Nat.mul_comm, ← aligned]
    exact padded
  obtain ⟨stored₃, held₃, same⟩ := ends_writeFrame (by rw [words]; omega) wrote
  have arch : vk₃.arch = vk.arch := by
    rw [((stored₁.trans stored₂).trans stored₃).eq]
    rfl
  rw [arch] at fits'
  refine ⟨s, execfnPtr, ?_, ?_, ?_, ?_, ?_, fits', ?_⟩
  · rw [← base, place', BitVec.add_assoc, ← BitVec.ofNat_add]
  · rw [← place', head]
  · rw [← place', ← framed]
    exact held₃
  · rw [← place']
    refine carries_stored strings same fun x near far => ?_
    have size : (vk.guestArgv.flatMap cString ++ List.replicate 16 (0x42 : U8)).length =
        vk.stringsSize := by
      rw [List.length_append, List.length_flatMap, List.length_replicate]
      rfl
    rw [size, place', inBlock_add (by omega)] at near
    rw [words, InBlock] at far
    omega
  · rw [Valkyrie.withReg_regs_arch, arch]
  · rw [Valkyrie.withReg_reg, arch]

/-! ## What the guest decodes -/

/-- A byte of memory at an address of the guest's width. -/
def Unicorn.guestByte (uc : Unicorn) (arch : Arch) (x : U64) : Option U8 :=
  uc.readAt (arch.truncate x)

section Decode

variable (arch : Arch) {s : U64} {low total : ℕ} {args : List (List U8)}
  {pairs : List (BitVec bits × BitVec bits)} {rest : List U8}

/-- The width of a word keeps the addresses of a block. -/
def Narrow (bits : ℕ) (s : U64) (total : ℕ) : Prop :=
  ∀ x, InBlock s total x → (x.setWidth bits).setWidth 64 = x

theorem Narrow.add (h : Narrow bits s total) {n : ℕ} (inside : low + n ≤ total)
    (fits : total ≤ 2 ^ 64) : Narrow bits (s + BitVec.ofNat 64 low) n := by
  intro x hx
  rw [inBlock_add (by omega)] at hx
  apply h
  rw [InBlock]
  omega

theorem Narrow.mono (h : Narrow bits s total) {n : ℕ} (le : n ≤ total) : Narrow bits s n :=
  fun x hx => h x (Nat.lt_of_lt_of_le hx le)

theorem Narrow.first (h : Narrow bits s total) (some_ : 0 < total) :
    (s.setWidth bits).setWidth 64 = s := by
  apply h
  rw [InBlock, BitVec.sub_self]
  exact some_

theorem carries_guestByte (trunc : ∀ v, arch.truncate v = (v.setWidth bits).setWidth 64)
    (narrow : Narrow bits s data.length) (h : Carries uc.readAt s (data.map some)) :
    Carries (uc.guestByte arch) s (data.map some) := by
  refine h.congr fun x hx => ?_
  rw [List.length_map] at hx
  rw [Unicorn.guestByte, trunc, narrow x hx]

theorem sum_stringSizes_cons (arg : List U8) (args : List (List U8)) :
    (stringSizes (arg :: args)).sum = arg.length + 1 + (stringSizes args).sum := by
  rw [stringSizes, List.map_cons, List.sum_cons, length_cString]
  rfl

/-- Every pointer names its string. -/
theorem forall₂_stringAddrs {m : U64 → Option U8} (free : ∀ arg ∈ args, 0 ∉ arg)
    (fits : (stringSizes args).sum ≤ 2 ^ 64) (narrow : Narrow bits s (stringSizes args).sum)
    (h : Carries m s ((args.flatMap cString ++ rest).map some)) :
    List.Forall₂ (fun ptr arg => Carries m (ptr.setWidth 64) ((arg ++ [0]).map some) ∧
      0 ∉ arg ∧ arg.length < 2 ^ 64) ((stringAddrs s args).map (·.setWidth bits)) args := by
  induction args generalizing s with
  | nil => exact .nil
  | cons arg args ih =>
    rw [sum_stringSizes_cons] at fits narrow
    rw [List.flatMap_cons, List.append_assoc, List.map_append, carries_append, List.length_map,
      length_cString] at h
    rw [stringAddrs_cons, List.map_cons]
    refine .cons ⟨?_, free arg List.mem_cons_self, by omega⟩ (ih (fun a ha => free a
      (List.mem_cons_of_mem _ ha)) (by omega) (narrow.add (by omega) fits) h.2)
    rw [narrow.first (by omega)]
    exact h.1

theorem map_stringAddrs (fits : (stringSizes args).sum ≤ 2 ^ 64)
    (narrow : Narrow bits s (stringSizes args).sum) :
    ((stringAddrs s args).map (·.setWidth bits)).map (·.setWidth 64) = stringAddrs s args := by
  induction args generalizing s with
  | nil => rfl
  | cons arg args ih =>
    rw [sum_stringSizes_cons] at fits narrow
    rw [stringAddrs_cons, List.map_cons, List.map_cons, narrow.first (by omega),
      ih (by omega) (narrow.add (by omega) fits)]

theorem length_flatMap_pair (pairs : List (BitVec bits × BitVec bits)) :
    (pairs.flatMap fun p => [p.1, p.2]).length = 2 * pairs.length := by
  induction pairs with
  | nil => rfl
  | cons p pairs ih =>
    rw [List.flatMap_cons, List.length_append, ih, List.length_cons (a := p)]
    show 2 + _ = _
    omega

/-- A frame with its strings above it decodes to the arguments. -/
theorem decode_frame (whole : 8 ∣ bits) (positive : 0 < bits) (short : bits ≤ 64)
    (trunc : ∀ v, arch.truncate v = (v.setWidth bits).setWidth 64)
    (fits : low + ((stringSizes args).sum + 16) ≤ 2 ^ 64)
    (below : bits / 8 * (args.length + 3 + (2 * pairs.length + 2)) ≤ low)
    (count : args.length < 2 ^ bits)
    (narrow : Narrow bits s (low + ((stringSizes args).sum + 16)))
    (free : ∀ arg ∈ args, 0 ∉ arg) (keys : ∀ p ∈ pairs, p.1.setWidth 64 ≠ 0)
    (frame : CarriesWords uc.readAt s (BitVec.ofNat bits args.length ::
      (stringAddrs (s + BitVec.ofNat 64 low) args).map (·.setWidth bits) ++ [0, 0] ++
      (pairs.flatMap (fun p => [p.1, p.2]) ++ [0, 0])))
    (strings : Carries uc.readAt (s + BitVec.ofNat 64 low)
      ((args.flatMap cString ++ List.replicate 16 0x42).map some)) :
    decodeProcessImage (uc.guestByte arch) (bits / 8) s = some
        ⟨stringAddrs (s + BitVec.ofNat 64 low) args, args, [],
          pairs.map fun p => (p.1.setWidth 64, p.2.setWidth 64)⟩ ∧
      decodeWord (uc.guestByte arch) (bits / 8) s = some (BitVec.ofNat 64 args.length) ∧
      readBytes (uc.guestByte arch) 16
        (s + BitVec.ofNat 64 (low + (stringSizes args).sum)) = some (List.replicate 16 0x42) := by
  have size : (args.flatMap cString ++ List.replicate 16 (0x42 : U8)).length =
      (stringSizes args).sum + 16 := by
    rw [List.length_append, List.length_flatMap, List.length_replicate]
    rfl
  have ptrs : ((stringAddrs (s + BitVec.ofNat 64 low) args).map (·.setWidth bits)).length =
      args.length := by
    rw [List.length_map, length_stringAddrs]
  have frame' := carries_guestByte arch trunc (narrow.mono (by
    rw [length_flatMap_toLeBytes, List.length_append, List.length_append, List.length_append,
      List.length_cons, ptrs, length_flatMap_pair]
    show bits / 8 * (args.length + 3 + (2 * pairs.length + 2)) ≤ _
    omega)) frame
  have strings' := carries_guestByte arch trunc
    (narrow.add (by rw [size]) fits) strings
  have sub : Narrow bits (s + BitVec.ofNat 64 low) (stringSizes args).sum :=
    narrow.add (by omega) fits
  have pairsShort : pairs.length < 2 ^ 64 := by
    have byte : 0 < bits / 8 := Nat.div_pos (Nat.le_of_dvd positive whole) (by decide)
    have := Nat.le_mul_of_pos_left (args.length + 3 + (2 * pairs.length + 2)) byte
    omega
  refine ⟨?_, ?_, ?_⟩
  · have image : CarriesWords (uc.guestByte arch) s (BitVec.ofNat bits ((stringAddrs
        (s + BitVec.ofNat 64 low) args).map (·.setWidth bits)).length ::
        (stringAddrs (s + BitVec.ofNat 64 low) args).map (·.setWidth bits) ++ [0, 0] ++
        (pairs.flatMap (fun p => [p.1, p.2]) ++ [0, 0])) := by
      rw [ptrs]
      exact frame'
    have decoded := decodeProcessImage_of_carries whole image short (ptrs.symm ▸ count)
      (forall₂_stringAddrs free (by omega) sub strings') keys pairsShort
    rwa [map_stringAddrs (by omega) sub] at decoded
  · obtain ⟨front, -⟩ := carriesWords_append.1 frame'
    obtain ⟨front, -⟩ := carriesWords_append.1 front
    rw [decodeWord_of_carries whole (carriesWords_cons.1 front).1]
    congr 1
    apply BitVec.eq_of_toNat_eq
    rw [BitVec.toNat_setWidth, BitVec.toNat_ofNat, BitVec.toNat_ofNat, Nat.mod_eq_of_lt count]
  · rw [List.map_append, carries_append, List.length_map, List.length_flatMap, BitVec.add_assoc,
      ← BitVec.ofNat_add] at strings'
    exact readBytes_of_carries strings'.2

end Decode

/-! ## The start of a process -/

/-- The auxiliary vector in pairs, before the last. -/
def auxvPairs (bits : ℕ) (vk : Valkyrie) (execfnPtr atRandomPtr : BitVec bits) :
    List (BitVec bits × BitVec bits) :=
  (match vk.elfAuxv with
    | some info => [
        (atPhdr.setWidth bits, info.phdr.setWidth bits),
        (atPhent.setWidth bits, info.phent.setWidth bits),
        (atPhnum.setWidth bits, info.phnum.setWidth bits),
        (atBase.setWidth bits, info.base.setWidth bits),
        (atEntry.setWidth bits, info.entry.setWidth bits),
        (atUid.setWidth bits, vk.linuxCreds.uid.setWidth bits),
        (atEuid.setWidth bits, vk.linuxCreds.euid.setWidth bits),
        (atGid.setWidth bits, vk.linuxCreds.gid.setWidth bits),
        (atEgid.setWidth bits, vk.linuxCreds.egid.setWidth bits),
        (atClktck.setWidth bits, 100),
        (atSecure.setWidth bits, 0),
        (atExecfn.setWidth bits, execfnPtr)]
    | none => []) ++ [
    (atPagesz.setWidth bits, pageSize.setWidth bits),
    (atRandom.setWidth bits, atRandomPtr)]

theorem auxv_eq_pairs (execfnPtr atRandomPtr : BitVec bits) : auxv bits vk execfnPtr atRandomPtr =
    (auxvPairs bits vk execfnPtr atRandomPtr).flatMap (fun p => [p.1, p.2]) ++ [0, 0] := by
  have null : atNull.setWidth bits = 0 := BitVec.setWidth_zero ..
  unfold auxv auxvPairs
  rw [null]
  cases vk.elfAuxv <;> rfl

/-- The keys of the auxiliary vector, before the last. -/
def auxvKeys (vk : Valkyrie) : List U64 :=
  (if vk.elfAuxv.isSome then [atPhdr, atPhent, atPhnum, atBase, atEntry, atUid, atEuid, atGid,
    atEgid, atClktck, atSecure, atExecfn] else []) ++ [atPagesz, atRandom]

theorem auxvPairs_fst (execfnPtr atRandomPtr : BitVec bits) :
    (auxvPairs bits vk execfnPtr atRandomPtr).map Prod.fst =
      (auxvKeys vk).map (·.setWidth bits) := by
  unfold auxvPairs auxvKeys
  cases vk.elfAuxv <;> rfl

theorem auxvPairs_keys (execfnPtr atRandomPtr : BitVec bits) (wide : bits = 32 ∨ bits = 64) :
    ∀ p ∈ auxvPairs bits vk execfnPtr atRandomPtr, p.1.setWidth 64 ≠ 0 := by
  have wide' : ∀ key : U64, key ≠ 0 → key.toNat < 2 ^ 32 →
      (key.setWidth bits).setWidth 64 ≠ 0 := by
    intro key nonzero small zero
    have value := congrArg BitVec.toNat zero
    rw [BitVec.toNat_setWidth, BitVec.toNat_setWidth] at value
    rcases wide with rfl | rfl
    · exact nonzero (BitVec.eq_of_toNat_eq (by omega))
    · exact nonzero (BitVec.eq_of_toNat_eq (by omega))
  have keys : ∀ key ∈ auxvKeys vk, key ≠ 0 ∧ key.toNat < 2 ^ 32 := by
    intro key hk
    unfold auxvKeys at hk
    cases info : vk.elfAuxv with
    | none =>
      rw [info] at hk
      simp only [Option.isSome_none, Bool.false_eq_true, if_false, List.nil_append, List.mem_cons,
        List.not_mem_nil, or_false] at hk
      rcases hk with rfl | rfl <;> decide
    | some =>
      rw [info] at hk
      simp only [Option.isSome_some, if_true, List.cons_append, List.nil_append, List.mem_cons,
        List.not_mem_nil, or_false] at hk
      rcases hk with rfl | rfl | rfl | rfl | rfl | rfl | rfl | rfl | rfl | rfl | rfl | rfl | rfl |
        rfl <;> decide
  intro p hp
  have named : p.1 ∈ (auxvKeys vk).map (·.setWidth bits) := by
    rw [← auxvPairs_fst execfnPtr atRandomPtr]
    exact List.mem_map_of_mem hp
  obtain ⟨key, hk, same⟩ := List.mem_map.1 named
  rw [← same]
  exact wide' key (keys key hk).1 (keys key hk).2

/-- The areas of an image whose frame stands at the stack pointer. -/
def ProcessImage.areas (image : ProcessImage) (width : ℕ) (sp randomPtr : U64) : List (U64 × ℕ) :=
  (sp, width * (image.argv.length + image.envp.length + 3 + (2 * image.auxv.length + 2))) ::
    image.argvPtrs.zip (stringSizes image.argv) ++ [(randomPtr, 16)]

/-- The arguments stand at the final stack pointer as the image of a process. -/
structure StartStack (vk vk' : Valkyrie) (image : ProcessImage) (randomPtr : U64) : Prop where
  decoded : decodeProcessImage (vk'.uc.guestByte vk.cfg.arch) vk.cfg.arch.wordWidth vk'.stackTop =
    some image
  argc : decodeWord (vk'.uc.guestByte vk.cfg.arch) vk.cfg.arch.wordWidth vk'.stackTop =
    some (BitVec.ofNat 64 vk.guestArgv.length)
  argv : image.argv = vk.guestArgv
  envp : image.envp = []
  random : image.auxv.lookup atRandom = some randomPtr
  randomBytes : readBytes (vk'.uc.guestByte vk.cfg.arch) 16 randomPtr =
    some (List.replicate 16 0x42)
  execfn : ∀ info, vk.elfAuxv = some info →
    image.auxv.lookup atExecfn = image.argvPtrs.head?
  /-- The recorded values, at the guest's width. -/
  recorded : ∀ info, vk.elfAuxv = some info →
    ∀ p ∈ [(atPhdr, info.phdr), (atPhent, info.phent), (atPhnum, info.phnum), (atBase, info.base),
      (atEntry, info.entry)], image.auxv.lookup p.1 = some (vk.cfg.arch.truncate p.2)
  /-- No two areas overlap. -/
  apart : (image.areas vk.cfg.arch.wordWidth vk'.stackTop randomPtr).Pairwise
    fun p q => ∀ x, InBlock p.1 p.2 x → ¬ InBlock q.1 q.2 x

/-- The image fits: below the stack pointer on a 32-bit guest, whose pointers are cut to 32 bits,
and into the address space on a 64-bit one. -/
def Valkyrie.StackRoom (vk : Valkyrie) : Prop :=
  vk.stringsSize + vk.stackPadding + vk.cfg.arch.wordWidth * vk.frameLength ≤
    match vk.cfg.arch with
    | .x86 => vk.stackTop.toNat
    | .x86_64 => 2 ^ 64

/-- The width of a word in bits. -/
def Arch.wordBits : Arch → ℕ
  | .x86 => 32
  | .x86_64 => 64

theorem Arch.truncate_eq (arch : Arch) (v : U64) :
    arch.truncate v = (v.setWidth arch.wordBits).setWidth 64 := by
  cases arch with
  | x86 => rfl
  | x86_64 => rw [Arch.wordBits, BitVec.setWidth_eq, BitVec.setWidth_eq, Arch.truncate]

theorem Arch.wordWidth_eq (arch : Arch) : arch.wordWidth = arch.wordBits / 8 := by
  cases arch <;> rfl

theorem setupStack_ok (run : setupStack.Ends vk (.ok ()) vk') :
    (setupStackWith vk.cfg.arch.wordBits vk.cfg.arch.spReg).Ends vk (.ok ()) vk' := by
  rw [setupStack, ends_bind_get] at run
  cases arch : vk.cfg.arch with
  | x86 =>
    rw [arch] at run
    exact run
  | x86_64 =>
    rw [arch] at run
    exact run

theorem eq_of_spReg_isOf {arch arch' : Arch} (h : arch.spReg.isOf arch') : arch' = arch := by
  cases arch <;> cases arch' <;> first | rfl | cases h

/-- A block that ends below a 32-bit address keeps to 32 bits. -/
theorem narrow_of_room {s top : U64} {total : ℕ} (place : top = s + BitVec.ofNat 64 total)
    (fits : total ≤ top.toNat) (small : top.toNat < 2 ^ 32) : Narrow 32 s total := by
  intro x hx
  have wide := x.isLt
  have start : s.toNat + total = top.toNat := by
    have := s.isLt
    rw [place, BitVec.toNat_add, BitVec.toNat_ofNat] at fits small ⊢
    omega
  rw [InBlock, BitVec.toNat_sub] at hx
  apply BitVec.eq_of_toNat_eq
  rw [BitVec.toNat_setWidth, BitVec.toNat_setWidth]
  omega

/-- The areas are blocks laid out one after the other, but for the padding. -/
theorem pairwise_areas {s : U64} {frame padding : ℕ} {sizes : List ℕ}
    (fits : frame + padding + (sizes.sum + 16) ≤ 2 ^ 64) :
    ((s, frame) ::
      ((blocks (s + BitVec.ofNat 64 (frame + padding)) sizes).map Prod.fst).zip sizes ++
      [(s + BitVec.ofNat 64 (frame + padding + sizes.sum), 16)]).Pairwise
      fun (p q : U64 × ℕ) => ∀ x, InBlock p.1 p.2 x → ¬ InBlock q.1 q.2 x := by
  have all := @pairwise_blocks 64 s (frame :: padding :: (sizes ++ [16])) (by
    rw [List.sum_cons, List.sum_cons, List.sum_append, List.sum_singleton]
    omega)
  rw [blocks, blocks, blocks_concat, BitVec.add_assoc, ← BitVec.ofNat_add, BitVec.add_assoc,
    ← BitVec.ofNat_add] at all
  rw [zip_blocks]
  exact all.sublist (List.Sublist.cons_cons _ (List.sublist_cons_self ..))

/-! ## The vector of a process -/

section Vector

variable {execfnPtr atRandomPtr : BitVec bits} (wide : bits = 32 ∨ bits = 64)

/-- The auxiliary vector as a guest reads it. -/
def auxvImage (bits : ℕ) (vk : Valkyrie) (execfnPtr atRandomPtr : BitVec bits) : List (U64 × U64) :=
  (auxvPairs bits vk execfnPtr atRandomPtr).map fun p => (p.1.setWidth 64, p.2.setWidth 64)

include wide

theorem lookup_random :
    (auxvImage bits vk execfnPtr atRandomPtr).lookup atRandom = some (atRandomPtr.setWidth 64) := by
  unfold auxvImage auxvPairs
  rcases wide with rfl | rfl <;> cases vk.elfAuxv <;> rfl

theorem lookup_execfn {info : ElfAuxvInfo} (known : vk.elfAuxv = some info) :
    (auxvImage bits vk execfnPtr atRandomPtr).lookup atExecfn = some (execfnPtr.setWidth 64) := by
  unfold auxvImage auxvPairs
  rw [known]
  rcases wide with rfl | rfl <;> rfl

theorem lookup_recorded {info : ElfAuxvInfo} (known : vk.elfAuxv = some info) :
    ∀ p ∈ [(atPhdr, info.phdr), (atPhent, info.phent), (atPhnum, info.phnum), (atBase, info.base),
      (atEntry, info.entry)], (auxvImage bits vk execfnPtr atRandomPtr).lookup p.1 =
        some ((p.2.setWidth bits).setWidth 64) := by
  unfold auxvImage auxvPairs
  rw [known]
  intro p hp
  simp only [List.mem_cons, List.not_mem_nil, or_false] at hp
  rcases wide with rfl | rfl <;> rcases hp with rfl | rfl | rfl | rfl | rfl <;> rfl

end Vector

/-! ## The start of a process that fits -/

theorem sp_of_spReg {arch : Arch} (fits : arch.spReg.isOf vk.arch.regs.arch) :
    vk.arch.regs.sp = arch.spReg := by
  rw [VRegs.sp, eq_of_spReg_isOf fits]
  cases arch <;> rfl

theorem Arch.wordBits_eq (arch : Arch) : arch.wordBits = 32 ∨ arch.wordBits = 64 := by
  cases arch
  · exact .inl rfl
  · exact .inr rfl

theorem Arch.dvd_wordBits (arch : Arch) : 8 ∣ arch.wordBits := by
  cases arch <;> decide

theorem Arch.wordBits_pos (arch : Arch) : 0 < arch.wordBits := by
  cases arch <;> decide

theorem Arch.wordBits_le (arch : Arch) : arch.wordBits ≤ 64 := by
  cases arch <;> decide

/-- The strings and the frame of a stack with room fit into memory. -/
theorem Valkyrie.StackRoom.le (room : vk.StackRoom) :
    vk.stringsSize + vk.stackPadding + vk.cfg.arch.wordWidth * vk.frameLength ≤ 2 ^ 64 := by
  refine Nat.le_trans room ?_
  cases vk.cfg.arch with
  | x86 => exact Nat.le_of_lt (BitVec.isLt _)
  | x86_64 => exact Nat.le_refl _

/-- The arguments take a byte each at least. -/
theorem length_le_stringSizes (args : List (List U8)) : args.length ≤ (stringSizes args).sum := by
  induction args with
  | nil => exact Nat.le_refl 0
  | cons arg args ih =>
    rw [sum_stringSizes_cons, List.length_cons]
    omega

/-- The image of a stack with room keeps to the width of a word. -/
theorem narrow_of_stackRoom {s : U64} {total : ℕ} (fits : vk.cfg.arch = vk.arch.regs.arch)
    (room : vk.StackRoom) (place : vk.stackTop = s + BitVec.ofNat 64 total)
    (size : total = vk.stringsSize + vk.stackPadding + vk.cfg.arch.wordWidth * vk.frameLength) :
    Narrow vk.cfg.arch.wordBits s total ∧ total ≤ 2 ^ vk.cfg.arch.wordBits ∧ total ≤ 2 ^ 64 := by
  rw [Valkyrie.StackRoom, ← size] at room
  cases arch : vk.cfg.arch with
  | x86 =>
    rw [arch] at room fits
    have small : vk.stackTop.toNat < 2 ^ 32 := by
      rw [Valkyrie.stackTop, ← fits, Arch.truncate, BitVec.toNat_setWidth, BitVec.toNat_setWidth]
      omega
    have room : total ≤ vk.stackTop.toNat := room
    refine ⟨narrow_of_room place room small, ?_, ?_⟩
    · show total ≤ 2 ^ 32
      omega
    · omega
  | x86_64 =>
    rw [arch] at room
    refine ⟨fun x _ => ?_, room, room⟩
    rw [Arch.wordBits, BitVec.setWidth_eq, BitVec.setWidth_eq]

theorem frameLength_eq (execfnPtr atRandomPtr : BitVec bits) : vk.frameLength =
    vk.guestArgv.length + 3 + (2 * (auxvPairs bits vk execfnPtr atRandomPtr).length + 2) := by
  have words : (auxv bits vk execfnPtr atRandomPtr).length =
      2 * (auxvPairs bits vk execfnPtr atRandomPtr).length + 2 := by
    rw [auxv_eq_pairs, List.length_append, length_flatMap_pair]
    rfl
  rw [Valkyrie.frameLength, ← length_auxv, words]

/-- A stack with room for them starts with the arguments: what stands at the final stack pointer is
the image of a process. -/
theorem start_stack_of_room (free : ∀ arg ∈ vk.guestArgv, 0 ∉ arg) (room : vk.StackRoom)
    (run : setupStack.Ends vk (.ok ()) vk') :
    ∃ image randomPtr, StartStack vk vk' image randomPtr := by
  have width := vk.cfg.arch.wordWidth_eq
  have trunc := vk.cfg.arch.truncate_eq
  have wide := vk.cfg.arch.wordBits_eq
  obtain ⟨s, execfnPtr, place, first, frame, strings, arch', isSp, reg⟩ :=
    ends_setupStackWith (width ▸ room.le) (setupStack_ok run)
  have arch := eq_of_spReg_isOf isSp
  generalize lowEq : vk.cfg.arch.wordBits / 8 * vk.frameLength + vk.stackPadding = low at *
  have strSize : vk.stringsSize = (stringSizes vk.guestArgv).sum + 16 := rfl
  obtain ⟨narrow, total, total'⟩ := narrow_of_stackRoom arch.symm room place
    (by rw [width]; omega)
  rw [strSize] at narrow total total' place
  have sub : Narrow vk.cfg.arch.wordBits (s + BitVec.ofNat 64 low) (stringSizes vk.guestArgv).sum :=
    narrow.add (by omega) total'
  have isRandom : vk.stackTop - 16 =
      s + BitVec.ofNat 64 (low + (stringSizes vk.guestArgv).sum) := by
    rw [place, ← Nat.add_assoc, BitVec.ofNat_add, ← BitVec.add_assoc]
    exact BitVec.add_sub_cancel ..
  have random : ((vk.stackTop - 16).setWidth vk.cfg.arch.wordBits).setWidth 64 =
      vk.stackTop - 16 := by
    rw [isRandom]
    exact (narrow.add (n := 16) (by omega) total').first (by decide)
  have execfn : some ((execfnPtr.setWidth vk.cfg.arch.wordBits).setWidth 64) = some execfnPtr := by
    rw [← first, ← map_stringAddrs (by omega) sub, List.map_map, List.head?_map, first]
    rfl
  have words := @frameLength_eq vk _ (execfnPtr.setWidth vk.cfg.arch.wordBits)
    ((vk.stackTop - 16).setWidth vk.cfg.arch.wordBits)
  rw [auxv_eq_pairs] at frame
  obtain ⟨decoded, argc, bytes⟩ := decode_frame vk.cfg.arch vk.cfg.arch.dvd_wordBits
    vk.cfg.arch.wordBits_pos vk.cfg.arch.wordBits_le trunc total' (by rw [← words]; omega)
    (Nat.lt_of_lt_of_le (Nat.lt_of_le_of_lt (length_le_stringSizes _) (by omega)) total)
    narrow free (auxvPairs_keys _ _ wide) frame strings
  have top : vk'.stackTop = s := by
    rw [← arch'] at isSp
    rw [Valkyrie.stackTop, sp_of_spReg isSp, reg, arch', arch, trunc, trunc]
    have first := narrow.first (by omega)
    rw [first, first]
  refine ⟨⟨stringAddrs (s + BitVec.ofNat 64 low) vk.guestArgv, vk.guestArgv, [],
    auxvImage vk.cfg.arch.wordBits vk (execfnPtr.setWidth _) ((vk.stackTop - 16).setWidth _)⟩,
    vk.stackTop - 16, ⟨?_, ?_, rfl, rfl, ?_, ?_, ?_, ?_, ?_⟩⟩
  · rw [top, width]
    exact decoded
  · rw [top, width]
    exact argc
  · exact (lookup_random wide).trans (congrArg some random)
  · rw [isRandom]
    exact bytes
  · intro info known
    dsimp only
    rw [first, ← execfn]
    exact lookup_execfn wide known
  · intro info known p hp
    rw [trunc]
    exact lookup_recorded wide known p hp
  · have size : vk.cfg.arch.wordBits / 8 * (vk.guestArgv.length + ([] : List U64).length + 3 +
        (2 * (auxvPairs vk.cfg.arch.wordBits vk (execfnPtr.setWidth _)
          ((vk.stackTop - 16).setWidth _)).length + 2)) + vk.stackPadding = low := by
      rw [← lowEq, words]
      rfl
    have apart := @pairwise_areas s _ _ (stringSizes vk.guestArgv) (by
      rw [size]
      exact total')
    rw [size, ← isRandom] at apart
    rw [ProcessImage.areas, auxvImage, List.length_map, top, width]
    exact apart

instance : Decidable vk.StackRoom := inferInstanceAs (Decidable (_ ≤ _))

/-- A 32-bit guest with the argument `a`, the given stack pointer and two mapped pages, one at zero
and one at the end of the address space. -/
def wrappingGuest (esp : U64) : Valkyrie :=
  let vk := Valkyrie.ofMemory .x86 ⟨[⟨0, 0x1000, .all, "[stack]"⟩,
    ⟨0xfffffffffffff000, 0x1000, .all, "[top]"⟩], 0, 0⟩
  { vk with
    start := { vk.start with argv := [[0x61]] }
    uc := vk.uc.regWrite (.x86 .esp) esp
    elfAuxv := some ⟨0x8048034, 32, 9, 0x1_0000_0000, 0x8048080, []⟩ }

theorem start_stack_of_room_wrappingGuest : ∃ vk' image randomPtr,
    setupStack.Ends (wrappingGuest 0x400) (.ok ()) vk' ∧
      StartStack (wrappingGuest 0x400) vk' image randomPtr := by
  have run : (setupStack (wrappingGuest 0x400)).map (fun p => p.1.isOk) = some true := by
    decide +kernel
  obtain ⟨⟨r, vk'⟩, run, done⟩ := Option.map_eq_some_iff.1 run
  cases r with
  | error => cases done
  | ok =>
    obtain ⟨image, randomPtr, start⟩ := start_stack_of_room (by decide) (by decide) run
    exact ⟨vk', image, randomPtr, run, start⟩

/-- A frame that does not fit below the stack pointer is written at the end of the address space,
where a 32-bit stack pointer does not reach. -/
theorem frame_wraps : ∃ vk', setupStack.Ends (wrappingGuest 0x40) (.ok ()) vk' ∧
    (∀ arg ∈ (wrappingGuest 0x40).guestArgv, 0 ∉ arg) ∧ vk'.stackTop = 0xffffff98 ∧
      vk'.uc.readAt 0xffffffffffffff98 = some 1 ∧
      ¬ ∃ image randomPtr, StartStack (wrappingGuest 0x40) vk' image randomPtr := by
  have run : (setupStack (wrappingGuest 0x40)).map (fun p => (p.1.isOk, p.2.stackTop,
      p.2.uc.readAt 0xffffffffffffff98,
      decodeProcessImage (p.2.uc.guestByte .x86) 4 p.2.stackTop)) =
        some (true, 0xffffff98, some 1, none) := by
    decide +kernel
  obtain ⟨⟨r, vk'⟩, run, done⟩ := Option.map_eq_some_iff.1 run
  rw [Prod.mk.injEq, Prod.mk.injEq, Prod.mk.injEq] at done
  obtain ⟨isOk, top, word, undecoded⟩ := done
  cases r with
  | error => cases isOk
  | ok =>
    refine ⟨vk', run, by decide, top, word, ?_⟩
    rintro ⟨image, randomPtr, start⟩
    have decoded := undecoded.symm.trans start.decoded
    cases decoded

end ValkyrieRs

import ValkyrieRs.Lib.Trace
import ValkyrieRs.Syscall.Common

/-!
# The process name

`PR_SET_NAME` reads sixteen bytes whatever the length of the string there.  A string that can be read
is stored, padded with zeros to a name of sixteen bytes, exactly when those bytes can be read, and
`PR_GET_NAME` stores the name that was set last.
-/

namespace ValkyrieRs

open Proc

variable {vk vk' : Valkyrie} {sctx : SubCtx} {r : Except ValkyrieError U64} {ptr : U64}

/-! ## Names -/

/-- The string at an address, of which at most sixteen bytes are looked at. -/
def Valkyrie.stringAt (vk : Valkyrie) (ptr : U64) : List U8 :=
  (vk.uc.contents ptr 16).takeWhile (· != 0)

/-- The string is readable up to its NUL or for sixteen bytes. -/
def Valkyrie.StringReadable (vk : Valkyrie) (ptr : U64) : Prop :=
  vk.uc.Mapped ptr (min ((vk.stringAt ptr).length + 1) 16)

/-- Sixteen bytes can be written. -/
def Valkyrie.NameWritable (vk : Valkyrie) (ptr : U64) : Prop :=
  vk.uc.Mapped ptr 16 ∧ ∀ x, InRange ptr 16 x → ∃ prot, vk.uc.protAt x = some prot ∧ prot.write

/-- The name made of a string: at most fifteen bytes of it, and zeros up to sixteen. -/
def padName (s : List U8) : List U8 := s.take 15 ++ List.replicate (16 - min 15 s.length) 0

/-- The name kept of the bytes read is that of the string they begin with. -/
theorem prctlName_eq {bytes : List U8} (whole : bytes.length = 16) :
    (prctlName bytes).toList = padName (bytes.takeWhile (· != 0)) := by
  have nul : (fun a : U8 => !(a != 0)) = (· == 0) := funext fun a => Bool.not_not _
  have string : bytes.takeWhile (· != 0) = bytes.take (bytes.findIdx (· == 0)) := by
    rw [List.takeWhile_eq_take_findIdx_not, nul]
  have short : bytes.findIdx (· == 0) ≤ 16 := whole ▸ List.findIdx_le_length
  rw [prctlName, ← List.findIdx_eq_getD_findIdx?, string]
  generalize bytes.findIdx (· == 0) = n at short
  have length : (bytes.take n).length = n := by
    rw [List.length_take, whole]
    omega
  rw [padName, length, List.take_take]
  refine List.ext_getElem (by simp; omega) fun i hi _ => ?_
  have small : i < 16 := by simpa using hi
  rw [Vector.getElem_toList, Vector.getElem_ofFn, List.getElem_append]
  dsimp only
  by_cases inside : i < min n 15
  · have kept : i < (bytes.take (min 15 n)).length := by
      rw [List.length_take]
      omega
    rw [if_pos inside, dif_pos kept, List.getElem_take, List.getD_eq_getElem?_getD,
      List.getElem?_eq_getElem (whole ▸ small), Option.getD_some]
  · have past : ¬ i < (bytes.take (min 15 n)).length := by
      rw [List.length_take]
      omega
    rw [if_neg inside, dif_neg past, List.getElem_replicate]

/-! ## Calls -/

/-- The call sets or asks for the name. -/
def SubCtx.IsNameCall (sctx : SubCtx) : Prop :=
  sctx.arg0.setWidth 32 = prSetName ∨ sctx.arg0.setWidth 32 = prGetName

/-- How a call that sets the name ends. -/
theorem ends_setName (option : sctx.arg0.setWidth 32 = prSetName) :
    (sysPrctl sctx).Ends vk r vk' ↔
      (sctx.arg1 = 0 ∧ r = .ok (negErrno EFAULT) ∧ vk' = vk) ∨
      (sctx.arg1 ≠ 0 ∧ vk.uc.Mapped sctx.arg1 16 ∧ r = .ok 0 ∧
        vk' = { vk with guestPrctlName := prctlName (vk.uc.contents sctx.arg1 16) }) ∨
      (sctx.arg1 ≠ 0 ∧ ∃ e, VMemory.read vk.uc sctx.arg1 16 = .error e ∧ r = .error e ∧ vk' = vk) := by
  rw [sysPrctl, ends_bind_get, if_pos option]
  by_cases null : sctx.arg1 = 0
  · rw [if_pos null, ends_pure]
    simp [null]
  · rw [if_neg null, ends_bind_memRead, and_iff_right (by decide)]
    simp only [VMemory.read_ok_iff, Unicorn.memRead_ok_iff, null, false_and, false_or, ne_eq,
      not_false_eq_true, true_and]
    refine or_congr_left ?_
    constructor
    · rintro ⟨_, ⟨-, mapped, rfl⟩, run⟩
      rw [ends_bind_modify, ends_pure] at run
      exact ⟨mapped, run⟩
    · rintro ⟨mapped, run⟩
      refine ⟨_, ⟨by decide, mapped, rfl⟩, ?_⟩
      rw [ends_bind_modify, ends_pure]
      exact run

/-- How a call that asks for the name ends. -/
theorem ends_getName (option : sctx.arg0.setWidth 32 = prGetName) :
    (sysPrctl sctx).Ends vk r vk' ↔
      (sctx.arg1 = 0 ∧ r = .ok (negErrno EFAULT) ∧ vk' = vk) ∨
      (sctx.arg1 ≠ 0 ∧ ∃ uc, VMemory.write vk.uc sctx.arg1 vk.guestPrctlName.toList = .ok uc ∧
        r = .ok 0 ∧ vk' = vk.withUc uc) ∨
      (sctx.arg1 ≠ 0 ∧ ∃ e, VMemory.write vk.uc sctx.arg1 vk.guestPrctlName.toList = .error e ∧
        r = .error e ∧ vk' = vk) := by
  have other : ¬ sctx.arg0.setWidth 32 = prSetName := by
    rw [option]
    decide
  rw [sysPrctl, ends_bind_get, if_neg other, if_pos option]
  by_cases null : sctx.arg1 = 0
  · rw [if_pos null, ends_pure]
    simp [null]
  · rw [if_neg null, ends_bind_memWrite]
    simp only [ends_pure, null, false_and, false_or, ne_eq, not_false_eq_true, true_and]

/-- Every call comes to an end. -/
theorem SubCtx.IsNameCall.ends (call : sctx.IsNameCall) (vk : Valkyrie) :
    ∃ r vk', (sysPrctl sctx).Ends vk r vk' := by
  rcases call with option | option
  · by_cases null : sctx.arg1 = 0
    · exact ⟨_, _, (ends_setName option).2 (.inl ⟨null, rfl, rfl⟩)⟩
    cases read : VMemory.read vk.uc sctx.arg1 16 with
    | error e => exact ⟨_, _, (ends_setName option).2 (.inr (.inr ⟨null, e, read, rfl, rfl⟩))⟩
    | ok bytes =>
      have mapped := (Unicorn.memRead_ok_iff.1 (VMemory.read_ok_iff.1 read).2).1
      exact ⟨_, _, (ends_setName option).2 (.inr (.inl ⟨null, mapped, rfl, rfl⟩))⟩
  · by_cases null : sctx.arg1 = 0
    · exact ⟨_, _, (ends_getName option).2 (.inl ⟨null, rfl, rfl⟩)⟩
    cases written : VMemory.write vk.uc sctx.arg1 vk.guestPrctlName.toList with
    | error e => exact ⟨_, _, (ends_getName option).2 (.inr (.inr ⟨null, e, written, rfl, rfl⟩))⟩
    | ok uc => exact ⟨_, _, (ends_getName option).2 (.inr (.inl ⟨null, uc, written, rfl, rfl⟩))⟩

/-! ## Every run -/

/-- A call of `sys_prctl` and how it ended. -/
abbrev PrctlStep := Trace.Step Valkyrie (SubCtx × Except ValkyrieError U64)

/-- A call that sets or asks for the name. -/
def NameCall (step : PrctlStep) : Prop :=
  step.call.1.IsNameCall ∧ (sysPrctl step.call.1).Ends step.before step.call.2 step.after

/-- Whatever the guest does between its calls. -/
def KeepsName (vk vk' : Valkyrie) : Prop := vk'.guestPrctlName = vk.guestPrctlName

/-- The name after a call: that of the string set, if the call succeeds. -/
def nameAfter (name : List U8) (step : PrctlStep) : List U8 :=
  if step.call.1.arg0.setWidth 32 = prSetName ∧ step.call.2 = .ok 0 then
    padName (step.before.stringAt step.call.1.arg1)
  else name

/-- A string that can be read is set, and a failure leaves the name as it was. -/
structure SetNameDone (step : PrctlStep) : Prop where
  succeeds : step.before.StringReadable step.call.1.arg1 → step.call.2 = .ok 0
  keeps : step.call.2 ≠ .ok 0 → step.after.guestPrctlName = step.before.guestPrctlName

/-- The name is stored, and nothing else. -/
structure NameStored (name : List U8) (step : PrctlStep) : Prop where
  succeeds : step.call.2 = .ok 0
  stored : step.after.uc.contents step.call.1.arg1 16 = name
  frame : ∀ x, ¬ InRange step.call.1.arg1 16 x → step.after.uc.bytes x = step.before.uc.bytes x

/-- What a call is to do when the name set last is `name`. -/
structure NameCallDone (name : List U8) (step : PrctlStep) : Prop where
  set : step.call.1.arg0.setWidth 32 = prSetName → SetNameDone step
  get : step.call.1.arg0.setWidth 32 = prGetName →
    step.before.NameWritable step.call.1.arg1 → NameStored name step

/-- A string that can be read has sixteen bytes that can be read, and nothing stands at zero. -/
structure NameCallFits (step : PrctlStep) : Prop where
  set : step.call.1.arg0.setWidth 32 = prSetName →
    step.before.StringReadable step.call.1.arg1 →
      step.call.1.arg1 ≠ 0 ∧ step.before.uc.Mapped step.call.1.arg1 16
  get : step.call.1.arg0.setWidth 32 = prGetName →
    step.before.NameWritable step.call.1.arg1 → step.call.1.arg1 ≠ 0

variable {step : PrctlStep} {steps past rest : List PrctlStep}

theorem prSetName_ne : prSetName ≠ prGetName := by decide

theorem EFAULT_refused : Except.ok (ε := ValkyrieError) (negErrno EFAULT) ≠ .ok 0 := by
  intro same
  exact absurd (Except.ok.inj same) (by decide)

/-- A call changes the name as it should. -/
theorem NameCall.name_after (call : NameCall step) :
    step.after.guestPrctlName.toList = nameAfter step.before.guestPrctlName.toList step := by
  obtain ⟨option | option, run⟩ := call
  · rw [nameAfter]
    rcases (ends_setName option).1 run with
      ⟨-, value, same⟩ | ⟨-, mapped, value, same⟩ | ⟨-, e, -, value, same⟩
    · rw [if_neg fun h => EFAULT_refused (value.symm.trans h.2), same]
    · rw [if_pos ⟨option, value⟩, same]
      exact prctlName_eq Unicorn.length_contents
    · have failed : step.call.2 ≠ .ok 0 := by
        rw [value]
        exact nofun
      rw [if_neg fun h => failed h.2, same]
  · rw [nameAfter, if_neg fun h => prSetName_ne (h.1.symm.trans option)]
    rcases (ends_getName option).1 run with ⟨-, -, same⟩ | ⟨-, uc, -, -, same⟩ | ⟨-, e, -, -, same⟩
    · rw [same]
    · rw [same, Valkyrie.withUc_guestPrctlName]
    · rw [same]

theorem NameCall.setNameDone_iff (call : NameCall step)
    (option : step.call.1.arg0.setWidth 32 = prSetName) : SetNameDone step ↔
      (step.before.StringReadable step.call.1.arg1 →
        step.call.1.arg1 ≠ 0 ∧ step.before.uc.Mapped step.call.1.arg1 16) := by
  rcases (ends_setName option).1 call.2 with
    ⟨null, value, same⟩ | ⟨some, mapped, value, -⟩ | ⟨-, e, failed, value, same⟩
  · have refused : step.call.2 ≠ .ok 0 := fun ok => EFAULT_refused (value.symm.trans ok)
    constructor
    · exact fun done readable => absurd (done.succeeds readable) refused
    · exact fun fits => ⟨fun readable => absurd null (fits readable).1, fun _ => by rw [same]⟩
  · exact iff_of_true ⟨fun _ => value, fun fail => absurd value fail⟩ fun _ => ⟨some, mapped⟩
  · have refused : step.call.2 ≠ .ok 0 := fun ok => nomatch value.symm.trans ok
    constructor
    · exact fun done readable => absurd (done.succeeds readable) refused
    · refine fun fits => ⟨fun readable => ?_, fun _ => by rw [same]⟩
      have read := VMemory.read_ok_iff.2
        ⟨by decide, Unicorn.memRead_ok_iff.2 ⟨(fits readable).2, rfl⟩⟩
      cases failed.symm.trans read

theorem NameCall.nameStored_iff (call : NameCall step)
    (option : step.call.1.arg0.setWidth 32 = prGetName)
    (writable : step.before.NameWritable step.call.1.arg1) :
    NameStored step.before.guestPrctlName.toList step ↔ step.call.1.arg1 ≠ 0 := by
  have length : step.before.guestPrctlName.toList.length = 16 := Vector.length_toList
  rcases (ends_getName option).1 call.2 with
    ⟨null, value, -⟩ | ⟨some, uc, written, value, same⟩ | ⟨-, e, failed, -, -⟩
  · exact iff_of_false (fun done => EFAULT_refused (value.symm.trans done.succeeds))
      fun some => some null
  · have stored := (VMemory.write_ok_iff.1 written).2
    refine iff_of_true ⟨value, ?_, fun x outside => ?_⟩ some
    · have back := Unicorn.contents_of_memWrite stored
      rw [length] at back
      rw [same]
      exact back
    · rw [same]
      show uc.bytes x = _
      rw [(Unicorn.memWrite_effect stored).2.2, length, if_neg outside]
  · have nonempty : step.before.guestPrctlName.toList ≠ [] := by
      rw [← List.length_pos_iff, length]
      decide
    obtain ⟨uc, written⟩ := Unicorn.memWrite_ok_iff.2 (length.symm ▸ writable.1)
    cases failed.symm.trans (VMemory.write_ok_iff.2 ⟨nonempty, written⟩)

/-- In every run a call does what it is to do, for the name that was set last, exactly when the
bytes that it looks at can be read. -/
theorem process_name_of_run (run : Trace NameCall KeepsName vk steps vk') :
    (∀ sctx : SubCtx, sctx.IsNameCall → ∀ vk, ∃ r vk', (sysPrctl sctx).Ends vk r vk') ∧
    ∀ past step rest, steps = past ++ step :: rest →
      (NameCallDone (past.foldl nameAfter vk.guestPrctlName.toList) step ↔ NameCallFits step) := by
  refine ⟨fun sctx call => call.ends, fun past step rest cut => ?_⟩
  subst cut
  obtain ⟨before, call, -⟩ := run.split
  have name : step.before.guestPrctlName.toList = past.foldl nameAfter vk.guestPrctlName.toList :=
    @Trace.foldl _ _ _ _ _ vk step.before past (fun _ => True) (fun vk => vk.guestPrctlName.toList)
      nameAfter before (fun _ _ => trivial) (fun _ call _ => call.name_after)
      fun s t same => congrArg Vector.toList same
  rw [← name]
  constructor
  · rintro ⟨set, get⟩
    exact ⟨fun option => (call.setNameDone_iff option).1 (set option),
      fun option writable => (call.nameStored_iff option writable).1 (get option writable)⟩
  · rintro ⟨set, get⟩
    exact ⟨fun option => (call.setNameDone_iff option).2 (set option),
      fun option writable => (call.nameStored_iff option writable).2 (get option writable)⟩

/-- A guest with one page at `0x1000`, the string `vk` at its end and another one at `0x1100`. -/
def nameGuest : Valkyrie :=
  let vk := Valkyrie.ofMemory .x86_64 ⟨[⟨0x1000, 0x1000, .all, "[data]"⟩], 0, 0⟩
  { vk with uc := { vk.uc with bytes := fun x =>
    if x = 0x1ffd ∨ x = 0x1100 then 0x76 else if x = 0x1ffe ∨ x = 0x1101 then 0x6b else 0 } }

/-- `prctl(PR_SET_NAME, ptr)`. -/
def setNameCall (ptr : U64) : SubCtx := ⟨15, ptr, 0, 0, 0, 0⟩

/-- `prctl(PR_GET_NAME, ptr)`. -/
def getNameCall (ptr : U64) : SubCtx := ⟨16, ptr, 0, 0, 0, 0⟩

theorem process_name_of_run_nameGuest : ∃ vk₁ vk₂,
    (sysPrctl (setNameCall 0x1100)).Ends nameGuest (.ok 0) vk₁ ∧
    (sysPrctl (getNameCall 0x1200)).Ends vk₁ (.ok 0) vk₂ ∧
    (NameCallDone (nameAfter nameGuest.guestPrctlName.toList
        ⟨nameGuest, (setNameCall 0x1100, .ok 0), vk₁⟩) ⟨vk₁, (getNameCall 0x1200, .ok 0), vk₂⟩ ↔
      NameCallFits ⟨vk₁, (getNameCall 0x1200, .ok 0), vk₂⟩) := by
  have calls : ∃ vk₁ vk₂, (sysPrctl (setNameCall 0x1100)).Ends nameGuest (.ok 0) vk₁ ∧
      (sysPrctl (getNameCall 0x1200)).Ends vk₁ (.ok 0) vk₂ := ⟨_, _, rfl, rfl⟩
  obtain ⟨vk₁, vk₂, set, get⟩ := calls
  have first : Trace NameCall KeepsName nameGuest
      [⟨nameGuest, (setNameCall 0x1100, .ok 0), vk₁⟩] vk₁ :=
    .call ⟨nameGuest, (setNameCall 0x1100, Except.ok 0), vk₁⟩ .start ⟨.inl rfl, set⟩
  have run : Trace NameCall KeepsName nameGuest
      [⟨nameGuest, (setNameCall 0x1100, .ok 0), vk₁⟩, ⟨vk₁, (getNameCall 0x1200, .ok 0), vk₂⟩] vk₂ :=
    .call ⟨vk₁, (getNameCall 0x1200, Except.ok 0), vk₂⟩ first ⟨.inr rfl, get⟩
  exact ⟨vk₁, vk₂, set, get, (process_name_of_run run).2 [_] _ [] rfl⟩

/-- A short string at the end of a page is not set. -/
theorem name_at_page_end : ¬ ∀ (vk vk' : Valkyrie) (steps : List PrctlStep),
    Trace NameCall KeepsName vk steps vk' → ∀ past step rest, steps = past ++ step :: rest →
      NameCallDone (past.foldl nameAfter vk.guestPrctlName.toList) step := by
  intro always
  have call : ∃ e, (sysPrctl (setNameCall 0x1ffd)).Ends nameGuest (.error e) nameGuest := ⟨_, rfl⟩
  obtain ⟨e, call⟩ := call
  have run : Trace NameCall KeepsName nameGuest
      [⟨nameGuest, (setNameCall 0x1ffd, .error e), nameGuest⟩] nameGuest :=
    .call ⟨nameGuest, (setNameCall 0x1ffd, Except.error e), nameGuest⟩ .start ⟨.inl rfl, call⟩
  have readable : nameGuest.StringReadable 0x1ffd := (Unicorn.spanMapped_iff ..).1 (by decide)
  have done := (always _ _ _ run [] _ [] rfl).set rfl
  cases done.succeeds readable

end ValkyrieRs

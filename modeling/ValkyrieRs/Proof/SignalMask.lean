import Mathlib.Data.List.GetD
import ValkyrieRs.Lib.Trace
import ValkyrieRs.Syscall.Common

/-!
# The signal mask

`sys_rt_sigprocmask` over any run of calls and guest stores.  The mask is a byte for each eight
signals, zero from the end of the stored list on.  A call stores the old mask before it reads the new
set, and keeps no more bytes of the mask than it was given, so it does what the guest asked for when
the set does not lie in the old mask's buffer and the mask has no byte behind the set.
-/

namespace ValkyrieRs

open Proc

variable {vk vk' : Valkyrie} {uc : Unicorn} {sctx : SubCtx} {v : U64} {i n : ℕ} {how : U32}
  {mask current new : List U8}

/-! ## What the guest asks for -/

/-- Byte `i` of the mask. -/
def Valkyrie.maskByte (vk : Valkyrie) (i : ℕ) : U8 := vk.guestRtSigmask.getD i 0

/-- A byte of the mask merged with a byte of the set: union, difference or replacement. -/
def combineMask (how : U32) (old set : U8) : U8 :=
  if how = sigBlock then old ||| set
  else if how = sigUnblock then old &&& ~~~set
  else if how = sigSetmask then set
  else old

/-- `how` names one of the three operations. -/
def KnownHow (how : U32) : Prop := how = sigBlock ∨ how = sigUnblock ∨ how = sigSetmask

/-- The byte of the set that the guest gives. -/
def Valkyrie.setByte (vk : Valkyrie) (sctx : SubCtx) (i : ℕ) : U8 :=
  vk.uc.bytes (sctx.arg1 + BitVec.ofNat 64 i)

/-- Byte `i` of the mask that the guest asks for. -/
def Valkyrie.askedMask (vk : Valkyrie) (sctx : SubCtx) (mask : ℕ → U8) (i : ℕ) : U8 :=
  if sctx.arg1 ≠ 0 ∧ i < sctx.arg3.toNat then
    combineMask (sctx.arg0.setWidth 32) (mask i) (vk.setByte sctx i)
  else mask i

/-- The old mask is stored, and the new one is as asked for. -/
structure SigmaskDone (sctx : SubCtx) (vk vk' : Valkyrie) : Prop where
  saved : sctx.arg2 ≠ 0 → ∀ x, InRange sctx.arg2 sctx.arg3.toNat x →
    vk'.uc.readAt x = some (vk.maskByte (x.toNat - sctx.arg2.toNat))
  mask : ∀ i, vk'.maskByte i = vk.askedMask sctx vk.maskByte i

/-- No set is given, or `how` is unknown, or no byte of the mask lies behind the set and no byte of
the old mask is stored over a byte of the set that it would be merged differently from. -/
def Valkyrie.SigmaskFits (vk : Valkyrie) (sctx : SubCtx) : Prop :=
  sctx.arg1 = 0 ∨ ¬ KnownHow (sctx.arg0.setWidth 32) ∨
    (∀ i, sctx.arg3.toNat ≤ i → vk.maskByte i = 0) ∧
    ∀ i < sctx.arg3.toNat, sctx.arg2 ≠ 0 →
      InRange sctx.arg2 sctx.arg3.toNat (sctx.arg1 + BitVec.ofNat 64 i) →
      combineMask (sctx.arg0.setWidth 32) (vk.maskByte i)
          (vk.maskByte ((sctx.arg1 + BitVec.ofNat 64 i).toNat - sctx.arg2.toNat)) =
        combineMask (sctx.arg0.setWidth 32) (vk.maskByte i) (vk.setByte sctx i)

/-! ## What the call does -/

theorem getD_resizeSigmask :
    (resizeSigmask mask n).getD i 0 = if i < n then mask.getD i 0 else 0 := by
  unfold resizeSigmask
  simp only [List.getD_eq_getElem?_getD, List.getElem?_append, List.length_take,
    List.getElem?_take, List.getElem?_replicate]
  split_ifs with taken inside padded <;> first | rfl | omega | skip
  rw [List.getElem?_eq_none (by omega)]
  rfl

theorem length_resizeSigmask : (resizeSigmask mask n).length = n := by
  rw [resizeSigmask, List.length_append, List.length_take, List.length_replicate]
  omega

/-- The masks can be merged exactly when `how` names an operation. -/
theorem mergeSigmask_eq_none : mergeSigmask how current new = none ↔ ¬ KnownHow how := by
  unfold mergeSigmask KnownHow
  split_ifs with block unblock setmask <;> simp [*]

theorem getD_mergeSigmask {merged : List U8} (currentLength : current.length = n)
    (newLength : new.length = n) (known : mergeSigmask how current new = some merged) :
    merged.getD i 0 = if i < n then combineMask how (current.getD i 0) (new.getD i 0) else 0 := by
  have length : merged.length = n := by
    unfold mergeSigmask at known
    split_ifs at known <;> cases known <;> simp [*]
  split_ifs with inside
  · unfold mergeSigmask at known
    unfold combineMask
    split_ifs at known ⊢ <;> cases known <;>
      simp [List.getD_eq_getElem?_getD, currentLength, newLength, inside]
  · exact List.getD_eq_default _ _ (by omega)

/-- What a call without a buffer for the old mask does. -/
theorem sysRtSigprocmask_set (nonzero : sctx.arg3 ≠ 0) (unsaved : sctx.arg2 = 0)
    (run : (sysRtSigprocmask sctx).Ends vk (.ok v) vk') : vk'.uc = vk.uc ∧
    ((sctx.arg1 = 0 ∨ ¬ KnownHow (sctx.arg0.setWidth 32)) ∧ vk'.guestRtSigmask = vk.guestRtSigmask ∨
      sctx.arg1 ≠ 0 ∧ KnownHow (sctx.arg0.setWidth 32) ∧ vk.uc.Mapped sctx.arg1 sctx.arg3.toNat ∧
        mergeSigmask (sctx.arg0.setWidth 32) (resizeSigmask vk.guestRtSigmask sctx.arg3.toNat)
          (vk.uc.contents sctx.arg1 sctx.arg3.toNat) = some vk'.guestRtSigmask) := by
  rw [sysRtSigprocmask] at run
  simp only [if_neg nonzero, unsaved, ne_eq, not_true_eq_false, if_false] at run
  obtain ⟨-, run⟩ := ends_bind_hostAlloc.1 run
  rw [ends_bind_get] at run
  by_cases null : sctx.arg1 = 0
  · rw [if_pos null] at run
    obtain ⟨-, rfl⟩ := ends_pure.1 run
    exact ⟨rfl, .inl ⟨.inl null, rfl⟩⟩
  rw [if_neg null] at run
  rcases ends_bind_memRead.1 run with ⟨-, ⟨newMask, read, run⟩ | ⟨e, -, ⟨⟩, -⟩⟩
  obtain ⟨mapped, rfl⟩ := Unicorn.memRead_ok_iff.1 (VMemory.read_ok_iff.1 read).2
  cases merge : mergeSigmask (sctx.arg0.setWidth 32)
      (resizeSigmask vk.guestRtSigmask sctx.arg3.toNat)
      (vk.uc.contents sctx.arg1 sctx.arg3.toNat) with
  | none =>
    simp only [merge] at run
    obtain ⟨-, rfl⟩ := ends_pure.1 run
    exact ⟨rfl, .inl ⟨.inr (mergeSigmask_eq_none.1 merge), rfl⟩⟩
  | some merged =>
    simp only [merge] at run
    obtain ⟨-, rfl⟩ := ends_pure.1 run
    refine ⟨rfl, .inr ⟨null, ?_, mapped, rfl⟩⟩
    by_contra unknown
    rw [mergeSigmask_eq_none.2 unknown] at merge
    cases merge

/-- A call stores the old mask, and goes on like one that is not asked for it. -/
theorem sysRtSigprocmask_save (nonzero : sctx.arg3 ≠ 0) (saved : sctx.arg2 ≠ 0)
    (run : (sysRtSigprocmask sctx).Ends vk (.ok v) vk') : ∃ uc,
    vk.uc.memWrite sctx.arg2 (resizeSigmask vk.guestRtSigmask sctx.arg3.toNat) = .ok uc ∧
      (sysRtSigprocmask { sctx with arg2 := 0 }).Ends (vk.withUc uc) (.ok v) vk' := by
  rw [sysRtSigprocmask] at run
  simp only [if_neg nonzero, saved, ne_eq, not_false_eq_true, if_true] at run
  obtain ⟨small, run⟩ := ends_bind_hostAlloc.1 run
  rw [ends_bind_get] at run
  rcases ends_bind_memWrite.1 run with ⟨uc, written, run⟩ | ⟨e, -, ⟨⟩, -⟩
  refine ⟨uc, (VMemory.write_ok_iff.1 written).2, ?_⟩
  rw [sysRtSigprocmask]
  simp only [if_neg nonzero, ne_eq, not_true_eq_false, if_false]
  exact ends_bind_hostAlloc.2 ⟨small, ends_bind_get.2 run⟩

/-- The engine after the old mask has been stored, where a buffer for it is given. -/
def Valkyrie.StoresMask (vk : Valkyrie) (sctx : SubCtx) (uc : Unicorn) : Prop :=
  sctx.arg2 = 0 ∧ uc = vk.uc ∨ sctx.arg2 ≠ 0 ∧
    vk.uc.memWrite sctx.arg2 (resizeSigmask vk.guestRtSigmask sctx.arg3.toNat) = .ok uc

/-- What a call that returns does: the old mask is stored, then the set is read. -/
theorem sysRtSigprocmask_ok (nonzero : sctx.arg3 ≠ 0)
    (run : (sysRtSigprocmask sctx).Ends vk (.ok v) vk') : ∃ uc,
    vk.StoresMask sctx uc ∧ vk'.uc = uc ∧
    ((sctx.arg1 = 0 ∨ ¬ KnownHow (sctx.arg0.setWidth 32)) ∧ vk'.guestRtSigmask = vk.guestRtSigmask ∨
      sctx.arg1 ≠ 0 ∧ KnownHow (sctx.arg0.setWidth 32) ∧ uc.Mapped sctx.arg1 sctx.arg3.toNat ∧
        mergeSigmask (sctx.arg0.setWidth 32) (resizeSigmask vk.guestRtSigmask sctx.arg3.toNat)
          (uc.contents sctx.arg1 sctx.arg3.toNat) = some vk'.guestRtSigmask) := by
  by_cases unsaved : sctx.arg2 = 0
  · obtain ⟨same, done⟩ := sysRtSigprocmask_set nonzero unsaved run
    exact ⟨vk.uc, .inl ⟨unsaved, rfl⟩, same, done⟩
  · obtain ⟨uc, written, run⟩ := sysRtSigprocmask_save nonzero unsaved run
    obtain ⟨same, done⟩ :=
      @sysRtSigprocmask_set (vk.withUc uc) vk' { sctx with arg2 := 0 } v nonzero rfl run
    exact ⟨uc, .inr ⟨unsaved, written⟩, same, done⟩

/-! ## When it is what was asked for -/

/-- The mask that a merging call leaves. -/
theorem maskByte_merged (length : uc.Mapped sctx.arg1 sctx.arg3.toNat)
    (merged : mergeSigmask (sctx.arg0.setWidth 32)
      (resizeSigmask vk.guestRtSigmask sctx.arg3.toNat)
      (uc.contents sctx.arg1 sctx.arg3.toNat) = some vk'.guestRtSigmask) :
    vk'.maskByte i = if i < sctx.arg3.toNat then combineMask (sctx.arg0.setWidth 32)
      (vk.maskByte i) (uc.bytes (sctx.arg1 + BitVec.ofNat 64 i)) else 0 := by
  rw [Valkyrie.maskByte, getD_mergeSigmask length_resizeSigmask Unicorn.length_contents merged]
  refine ite_congr rfl (fun inside => ?_) fun _ => rfl
  have number : (sctx.arg1 + BitVec.ofNat 64 i).toNat = sctx.arg1.toNat + i := by
    have bound := length.1
    rw [BitVec.toNat_add, BitVec.toNat_ofNat]
    omega
  have place : InRange sctx.arg1 sctx.arg3.toNat (sctx.arg1 + BitVec.ofNat 64 i) := by
    unfold InRange
    omega
  have byte := @Unicorn.getD_contents uc _ _ _ place
  rw [number, Nat.add_sub_cancel_left] at byte
  rw [getD_resizeSigmask, if_pos inside, byte]
  rfl

/-- The bytes of the buffer are those of the old mask. -/
theorem Valkyrie.StoresMask.bytes (stored : vk.StoresMask sctx uc) (x : U64) :
    uc.bytes x = if sctx.arg2 ≠ 0 ∧ InRange sctx.arg2 sctx.arg3.toNat x then
      vk.maskByte (x.toNat - sctx.arg2.toNat) else vk.uc.bytes x := by
  rcases stored with ⟨null, same⟩ | ⟨some, written⟩
  · rw [same, if_neg fun h => h.1 null]
  · rw [(Unicorn.memWrite_effect written).2.2, length_resizeSigmask]
    by_cases inside : InRange sctx.arg2 sctx.arg3.toNat x
    · rw [if_pos inside, if_pos ⟨some, inside⟩, getD_resizeSigmask, if_pos]
      · rfl
      · unfold InRange at inside
        omega
    · rw [if_neg inside, if_neg fun h => inside h.2]

theorem Valkyrie.StoresMask.readAt (stored : vk.StoresMask sctx uc) (given : sctx.arg2 ≠ 0) {x : U64}
    (inside : InRange sctx.arg2 sctx.arg3.toNat x) :
    uc.readAt x = some (vk.maskByte (x.toNat - sctx.arg2.toNat)) := by
  have byte := stored.bytes x
  obtain ⟨null, -⟩ | ⟨-, written⟩ := stored
  · exact absurd null given
  have mapped := (Unicorn.memWrite_ok_iff.1 ⟨_, written⟩).2 x
  rw [length_resizeSigmask] at mapped
  have same : uc.protAt x = vk.uc.protAt x := congrFun (Unicorn.memWrite_effect written).1 _
  rw [Unicorn.readAt, same, if_pos (mapped inside), byte, if_pos ⟨given, inside⟩]

/-- Nothing is asked for without a set, or with an unknown `how`. -/
theorem askedMask_of_idle (idle : sctx.arg1 = 0 ∨ ¬ KnownHow (sctx.arg0.setWidth 32)) :
    vk.askedMask sctx vk.maskByte i = vk.maskByte i := by
  rw [Valkyrie.askedMask]
  split_ifs with asked
  · have unknown := idle.resolve_left asked.1
    unfold KnownHow at unknown
    rw [not_or, not_or] at unknown
    rw [combineMask, if_neg unknown.1, if_neg unknown.2.1, if_neg unknown.2.2]
  · rfl

/-- Where a set is merged, the mask is as asked for exactly when it and the buffers fit. -/
theorem merged_iff_fits (some_ : sctx.arg1 ≠ 0) (known : KnownHow (sctx.arg0.setWidth 32))
    (stored : vk.StoresMask sctx uc) (mapped : uc.Mapped sctx.arg1 sctx.arg3.toNat)
    (merged : mergeSigmask (sctx.arg0.setWidth 32)
      (resizeSigmask vk.guestRtSigmask sctx.arg3.toNat)
      (uc.contents sctx.arg1 sctx.arg3.toNat) = some vk'.guestRtSigmask) :
    (∀ i, vk'.maskByte i = vk.askedMask sctx vk.maskByte i) ↔ vk.SigmaskFits sctx := by
  rw [Valkyrie.SigmaskFits, or_iff_right some_, or_iff_right (not_not.2 known)]
  constructor
  · intro asked
    refine ⟨fun i past => ?_, fun i inside given over_ => ?_⟩
    · have byte := asked i
      rw [maskByte_merged mapped merged, if_neg (Nat.not_lt.2 past), Valkyrie.askedMask,
        if_neg fun h => absurd h.2 (Nat.not_lt.2 past)] at byte
      exact byte.symm
    · have byte := asked i
      rw [maskByte_merged mapped merged, if_pos inside, Valkyrie.askedMask,
        if_pos ⟨some_, inside⟩, stored.bytes, if_pos ⟨given, over_⟩] at byte
      exact byte
  · rintro ⟨zeros, same⟩ i
    rw [maskByte_merged mapped merged, Valkyrie.askedMask]
    by_cases inside : i < sctx.arg3.toNat
    · rw [if_pos inside, if_pos ⟨some_, inside⟩, stored.bytes]
      split_ifs with over_
      · exact same i inside over_.1 over_.2
      · rfl
    · rw [if_neg inside, if_neg fun h => inside h.2, zeros i (Nat.not_lt.1 inside)]

/-- A call that returns does what the guest asks for exactly when the mask and the buffers fit. -/
theorem sigmaskDone_iff (nonzero : sctx.arg3 ≠ 0)
    (run : (sysRtSigprocmask sctx).Ends vk (.ok v) vk') :
    SigmaskDone sctx vk vk' ↔ vk.SigmaskFits sctx := by
  obtain ⟨uc, stored, rfl, result⟩ := sysRtSigprocmask_ok nonzero run
  have iff_mask : SigmaskDone sctx vk vk' ↔
      ∀ i, vk'.maskByte i = vk.askedMask sctx vk.maskByte i :=
    ⟨fun done => done.mask, fun mask => ⟨fun given _ => stored.readAt given, mask⟩⟩
  rw [iff_mask]
  rcases result with ⟨idle, same⟩ | ⟨some_, known, mapped, merged⟩
  · refine iff_of_true (fun i => ?_) (idle.imp_right .inl)
    rw [askedMask_of_idle idle, Valkyrie.maskByte, same]
    rfl
  · exact merged_iff_fits some_ known stored mapped merged

/-! ## Every run -/

/-- A call of `sys_rt_sigprocmask` with a set size that returns. -/
def SigmaskCall (step : Trace.Step Valkyrie SubCtx) : Prop :=
  step.call.arg3 ≠ 0 ∧ ∃ v, (sysRtSigprocmask step.call).Ends step.before (.ok v) step.after

/-- In every run the calls do what the guest asks for exactly when all of them fit, and then the mask
is the one that the guest has asked for from the start. -/
theorem sigprocmask_exact_of_run {steps : List (Trace.Step Valkyrie SubCtx)}
    (run : Trace SigmaskCall GuestStore vk steps vk') :
    ((∀ s ∈ steps, SigmaskDone s.call s.before s.after) ↔
      ∀ s ∈ steps, s.before.SigmaskFits s.call) ∧
    ((∀ s ∈ steps, s.before.SigmaskFits s.call) → vk'.maskByte =
      steps.foldl (fun mask s => s.before.askedMask s.call mask) vk.maskByte) := by
  have each : ∀ s, SigmaskCall s →
      (SigmaskDone s.call s.before s.after ↔ s.before.SigmaskFits s.call) := by
    rintro s ⟨nonzero, v, ends⟩
    exact sigmaskDone_iff nonzero ends
  refine ⟨run.forall_iff each, fun fits => run.foldl fits (fun s call fit => ?_) fun t t' store => ?_⟩
  · exact funext ((each s call).2 fit).mask
  · cases store
    rfl

/-- A guest with a page at `0x1000` that holds a one at `0x1100`. -/
def maskGuest : Valkyrie :=
  let vk := Valkyrie.ofMemory .x86_64 ⟨[⟨0x1000, 0x1000, .all, "[stack]"⟩], 0, 0⟩
  { vk with uc := { vk.uc with bytes := fun x => if x = 0x1100 then 1 else 0 } }

/-- `rt_sigprocmask(how, 0x1100, oldset, 8)`. -/
def setMaskFrom (how oldset : U64) : SubCtx := ⟨how, 0x1100, oldset, 8, 0, 0⟩

theorem sigprocmask_exact_of_run_maskGuest : ∃ vk',
    (sysRtSigprocmask (setMaskFrom 0 0x1200)).Ends maskGuest (.ok 0) vk' ∧
      SigmaskDone (setMaskFrom 0 0x1200) maskGuest vk' := by
  have call : ∃ vk', (sysRtSigprocmask (setMaskFrom 0 0x1200)).Ends maskGuest (.ok 0) vk' := ⟨_, rfl⟩
  obtain ⟨vk', call⟩ := call
  have sized : (setMaskFrom 0 0x1200).arg3 ≠ 0 := by decide
  have run : Trace SigmaskCall GuestStore maskGuest [⟨maskGuest, setMaskFrom 0 0x1200, vk'⟩] vk' :=
    .call ⟨maskGuest, setMaskFrom 0 0x1200, vk'⟩ .start ⟨sized, 0, call⟩
  refine ⟨vk', call, (sigprocmask_exact_of_run run).1.2 (fun s hs => ?_) _
    (List.mem_singleton_self _)⟩
  rw [List.mem_singleton.1 hs]
  show maskGuest.SigmaskFits (setMaskFrom 0 0x1200)
  exact .inr (.inr ⟨fun _ _ => rfl, by decide⟩)

/-- A call that saves the old mask over the set replaces the mask by itself. -/
theorem sigprocmask_same_buffer : ¬ ∀ (vk vk' : Valkyrie) (steps : List (Trace.Step Valkyrie SubCtx)),
    Trace SigmaskCall GuestStore vk steps vk' →
      ∀ s ∈ steps, SigmaskDone s.call s.before s.after := by
  intro always
  have call : ∃ vk', (sysRtSigprocmask (setMaskFrom 2 0x1100)).Ends maskGuest (.ok 0) vk' ∧
      vk'.maskByte 0 = 0 := ⟨_, rfl, rfl⟩
  obtain ⟨vk', call, kept⟩ := call
  have sized : (setMaskFrom 2 0x1100).arg3 ≠ 0 := by decide
  have run : Trace SigmaskCall GuestStore maskGuest [⟨maskGuest, setMaskFrom 2 0x1100, vk'⟩] vk' :=
    .call ⟨maskGuest, setMaskFrom 2 0x1100, vk'⟩ .start ⟨sized, 0, call⟩
  have done := (always _ _ _ run _ (List.mem_singleton_self _)).mask 0
  have asked : maskGuest.askedMask (setMaskFrom 2 0x1100) maskGuest.maskByte 0 = 1 := rfl
  dsimp only at done
  rw [kept, asked] at done
  cases done

end ValkyrieRs

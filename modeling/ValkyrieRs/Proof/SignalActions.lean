import Mathlib.Data.List.GetD
import ValkyrieRs.Lib.Trace
import ValkyrieRs.Syscall.Common

/-!
# The signal actions

`sys_rt_sigaction` over any run of calls and guest stores: a register of the bytes last installed for
each signal.  A call stores the old action before it reads the new one, with the size that it was
installed with, and computes the size of an action in machine arithmetic.
-/

namespace ValkyrieRs

open Proc

variable {vk vk' : Valkyrie} {sctx : SubCtx} {v x : U64}

/-! ## What the guest asks for -/

/-- The signal that a call is about. -/
def SubCtx.signum (sctx : SubCtx) : U32 := sctx.arg0.setWidth 32

/-- The size of an action of the guest. -/
def actionBytes (arch : Arch) (sctx : SubCtx) : ℕ :=
  match arch with
  | .x86_64 => 24 + sctx.arg3.toNat
  | .x86 => 12 + sctx.arg3.toNat

/-- The action installed for a signal. -/
def Valkyrie.action (vk : Valkyrie) (signum : U32) : Option (List U8) :=
  vk.guestRtSigactions.lookup signum

/-- The actions that the guest asks for. -/
def Valkyrie.askedAction (vk : Valkyrie) (sctx : SubCtx) (action : U32 → Option (List U8))
    (signum : U32) : Option (List U8) :=
  if sctx.arg1 ≠ 0 ∧ signum = sctx.signum then
    some (vk.uc.contents sctx.arg1 (actionBytes vk.cfg.arch sctx))
  else action signum

/-- The address lies in the buffer for the old action. -/
def SubCtx.InOldact (sctx : SubCtx) (n : ℕ) (x : U64) : Prop := sctx.arg2 ≠ 0 ∧ InRange sctx.arg2 n x

/-- The actions are as asked for, and the old one or zeros are stored, and nothing else. -/
structure SigactionDone (sctx : SubCtx) (vk vk' : Valkyrie) : Prop where
  actions : ∀ signum, vk'.action signum = vk.askedAction sctx vk.action signum
  saved : ∀ x, sctx.InOldact (actionBytes vk.cfg.arch sctx) x →
    vk'.uc.readAt x =
      some (((vk.action sctx.signum).getD []).getD (x.toNat - sctx.arg2.toNat) 0)
  apart : ∀ x, ¬ sctx.InOldact (actionBytes vk.cfg.arch sctx) x →
    vk'.uc.readAt x = vk.uc.readAt x

/-- The size of an action as `rt_sigaction_size` computes it. -/
def Valkyrie.actionSize (vk : Valkyrie) (sctx : SubCtx) : ℕ :=
  ((rtSigactionSize vk.cfg.arch sctx.arg3).getD 0).toNat

/-- The bytes that are stored as the old action. -/
def Valkyrie.oldAction (vk : Valkyrie) (sctx : SubCtx) : List U8 :=
  (vk.action sctx.signum).getD (List.replicate (vk.actionSize sctx) 0)

/-- The old action has the size of this call, or memory holds what that makes no difference to; and
where a new action is given, its size is computed without wrapping and no byte of it is replaced by a
different byte of the old one. -/
structure Valkyrie.SigactionFits (vk : Valkyrie) (sctx : SubCtx) : Prop where
  sized : sctx.arg2 ≠ 0 → ∀ x,
    (InRange sctx.arg2 (vk.oldAction sctx).length x ↔
      InRange sctx.arg2 (actionBytes vk.cfg.arch sctx) x) ∨
    vk.uc.readAt x = some ((vk.oldAction sctx).getD (x.toNat - sctx.arg2.toNat) 0)
  whole : sctx.arg1 ≠ 0 → vk.actionSize sctx = actionBytes vk.cfg.arch sctx
  intact : sctx.arg1 ≠ 0 → ∀ x, InRange sctx.arg1 (actionBytes vk.cfg.arch sctx) x →
    sctx.InOldact (vk.oldAction sctx).length x →
    (vk.oldAction sctx).getD (x.toNat - sctx.arg2.toNat) 0 = vk.uc.bytes x

/-! ## What the call does -/

/-- The new action is read, where one is given, and installed. -/
theorem ends_installAction {t : Valkyrie} {size : ℕ}
    (same : t.guestRtSigactions = vk.guestRtSigactions)
    (run : (if sctx.arg1 ≠ 0 then do
        let action ← memRead sctx.arg1 size
        modify fun vk =>
          { vk with guestRtSigactions := vk.guestRtSigactions.insert sctx.signum action }
        return 0
      else return 0 : VkM U64).Ends t (.ok v) vk') :
    v = 0 ∧ vk'.uc = t.uc ∧
      (sctx.arg1 = 0 ∧ vk'.guestRtSigactions = vk.guestRtSigactions ∨
        sctx.arg1 ≠ 0 ∧ t.uc.Mapped sctx.arg1 size ∧ vk'.guestRtSigactions =
          vk.guestRtSigactions.insert sctx.signum (t.uc.contents sctx.arg1 size)) := by
  by_cases null : sctx.arg1 = 0
  · rw [if_neg (not_not.2 null)] at run
    obtain ⟨value, rfl⟩ := ends_pure.1 run
    cases value
    exact ⟨rfl, rfl, .inl ⟨null, same⟩⟩
  rw [if_pos null] at run
  obtain ⟨action, t', read, run⟩ := ends_bind_ok.1 run
  obtain ⟨-, read, rfl⟩ := ends_memRead.1 read
  obtain ⟨mapped, rfl⟩ := Unicorn.memRead_ok_iff.1 (VMemory.read_ok_iff.1 read.symm).2
  rw [ends_bind_modify] at run
  obtain ⟨value, rfl⟩ := ends_pure.1 run
  cases value
  exact ⟨rfl, rfl, .inr ⟨null, mapped, by rw [← same]⟩⟩

theorem exists_rtSigactionSize (nonzero : sctx.arg3 ≠ 0) :
    ∃ size, rtSigactionSize vk.cfg.arch sctx.arg3 = some size ∧ vk.actionSize sctx = size.toNat := by
  rw [Valkyrie.actionSize]
  unfold rtSigactionSize
  rw [if_neg nonzero]
  cases vk.cfg.arch
  · exact ⟨_, rfl, rfl⟩
  · exact ⟨_, rfl, rfl⟩

/-- What a call that returns does: the old action is stored, then the new one is read. -/
theorem sysRtSigaction_ok (positive : 0 < sctx.signum.toInt) (nonzero : sctx.arg3 ≠ 0)
    (run : (sysRtSigaction sctx).Ends vk (.ok v) vk') : v = 0 ∧ ∃ uc,
    (sctx.arg2 = 0 ∧ uc = vk.uc ∨
      sctx.arg2 ≠ 0 ∧ vk.uc.memWrite sctx.arg2 (vk.oldAction sctx) = .ok uc) ∧ vk'.uc = uc ∧
    (sctx.arg1 = 0 ∧ vk'.guestRtSigactions = vk.guestRtSigactions ∨
      sctx.arg1 ≠ 0 ∧ uc.Mapped sctx.arg1 (vk.actionSize sctx) ∧ vk'.guestRtSigactions =
        vk.guestRtSigactions.insert sctx.signum (uc.contents sctx.arg1 (vk.actionSize sctx))) := by
  obtain ⟨size, sized, number⟩ := @exists_rtSigactionSize vk sctx nonzero
  rw [number]
  rw [sysRtSigaction] at run
  simp only [show ¬ (sctx.arg0.setWidth 32).toInt ≤ 0 from Int.not_le.2 positive, if_false] at run
  rw [ends_bind_get] at run
  simp only [sized] at run
  by_cases null : sctx.arg2 = 0
  · rw [if_neg (not_not.2 null)] at run
    obtain ⟨value, same, done⟩ := @ends_installAction vk vk' sctx v vk size.toNat rfl run
    exact ⟨value, vk.uc, .inl ⟨null, rfl⟩, same, done⟩
  rw [if_pos null] at run
  cases old : vk.guestRtSigactions.lookup sctx.signum with
  | some oldact =>
    simp only [show vk.guestRtSigactions.lookup (sctx.arg0.setWidth 32) = some oldact from old] at run
    rcases ends_bind_memWrite.1 run with ⟨uc, written, run⟩ | ⟨e, -, ⟨⟩, -⟩
    obtain ⟨value, same, done⟩ := @ends_installAction vk vk' sctx v (vk.withUc uc) size.toNat rfl run
    have bytes : vk.oldAction sctx = oldact := by
      rw [Valkyrie.oldAction, Valkyrie.action, old]
      rfl
    exact ⟨value, uc, .inr ⟨null, bytes ▸ (VMemory.write_ok_iff.1 written).2⟩, same, done⟩
  | none =>
    simp only [show vk.guestRtSigactions.lookup (sctx.arg0.setWidth 32) = none from old] at run
    obtain ⟨-, run⟩ := ends_bind_hostAlloc.1 run
    rcases ends_bind_memWrite.1 run with ⟨uc, written, run⟩ | ⟨e, -, ⟨⟩, -⟩
    obtain ⟨value, same, done⟩ := @ends_installAction vk vk' sctx v (vk.withUc uc) size.toNat rfl run
    have bytes : vk.oldAction sctx = List.replicate size.toNat 0 := by
      rw [Valkyrie.oldAction, Valkyrie.action, old, number]
      rfl
    exact ⟨value, uc, .inr ⟨null, bytes ▸ (VMemory.write_ok_iff.1 written).2⟩, same, done⟩

/-- The old action that is stored is the one last installed, filled up with zeros. -/
theorem getD_oldAction {i : ℕ} :
    (vk.oldAction sctx).getD i 0 = ((vk.action sctx.signum).getD []).getD i 0 := by
  unfold Valkyrie.oldAction
  cases vk.action sctx.signum with
  | some action => rfl
  | none =>
    simp only [Option.getD_none, List.getD_eq_getElem?_getD, List.getElem?_replicate]
    split_ifs <;> rfl

/-! ## When it is what was asked for -/

/-- Memory after the old action has been stored, where it has been. -/
structure OldActionStored (sctx : SubCtx) (vk : Valkyrie) (uc : Unicorn) : Prop where
  inside : ∀ x, sctx.InOldact (vk.oldAction sctx).length x →
    uc.readAt x = some ((vk.oldAction sctx).getD (x.toNat - sctx.arg2.toNat) 0) ∧
      uc.bytes x = (vk.oldAction sctx).getD (x.toNat - sctx.arg2.toNat) 0
  outside : ∀ x, ¬ sctx.InOldact (vk.oldAction sctx).length x →
    uc.readAt x = vk.uc.readAt x ∧ uc.bytes x = vk.uc.bytes x

theorem oldActionStored {uc : Unicorn} (written : sctx.arg2 = 0 ∧ uc = vk.uc ∨
    sctx.arg2 ≠ 0 ∧ vk.uc.memWrite sctx.arg2 (vk.oldAction sctx) = .ok uc) :
    OldActionStored sctx vk uc := by
  rcases written with ⟨null, rfl⟩ | ⟨some, written⟩
  · exact ⟨fun x inside => absurd null inside.1, fun x _ => ⟨rfl, rfl⟩⟩
  have mapped := (Unicorn.memWrite_ok_iff.1 ⟨_, written⟩).2
  obtain ⟨pages, -, bytes⟩ := Unicorn.memWrite_effect written
  have same : ∀ x, uc.protAt x = vk.uc.protAt x := fun x => congrFun pages _
  refine ⟨fun x inside => ?_, fun x outside => ?_⟩
  · have byte : uc.bytes x = _ := (bytes x).trans (if_pos inside.2)
    refine ⟨?_, byte⟩
    rw [Unicorn.readAt, same, if_pos (mapped x inside.2), byte]
  · have byte : uc.bytes x = _ := (bytes x).trans (if_neg fun h => outside ⟨some, h⟩)
    refine ⟨?_, byte⟩
    rw [Unicorn.readAt, Unicorn.readAt, same, byte]

/-- The stored bytes are those asked for exactly when the old action has the size of this call, or
memory makes up for it. -/
theorem OldActionStored.saved_iff {uc : Unicorn} (stored : OldActionStored sctx vk uc) {n : ℕ} :
    ((∀ x, sctx.InOldact n x → uc.readAt x =
        some (((vk.action sctx.signum).getD []).getD (x.toNat - sctx.arg2.toNat) 0)) ∧
      ∀ x, ¬ sctx.InOldact n x → uc.readAt x = vk.uc.readAt x) ↔
    (sctx.arg2 ≠ 0 → ∀ x,
      (InRange sctx.arg2 (vk.oldAction sctx).length x ↔ InRange sctx.arg2 n x) ∨
      vk.uc.readAt x = some ((vk.oldAction sctx).getD (x.toNat - sctx.arg2.toNat) 0)) := by
  simp only [← getD_oldAction]
  constructor
  · rintro ⟨saved, apart⟩ some x
    by_cases long : InRange sctx.arg2 (vk.oldAction sctx).length x <;>
      by_cases asked : InRange sctx.arg2 n x
    · exact .inl (iff_of_true long asked)
    · exact .inr ((apart x fun h => asked h.2).symm.trans (stored.inside x ⟨some, long⟩).1)
    · exact .inr ((stored.outside x fun h => long h.2).1.symm.trans (saved x ⟨some, asked⟩))
    · exact .inl (iff_of_false long asked)
  · intro sized
    constructor
    · rintro x ⟨some, asked⟩
      by_cases long : InRange sctx.arg2 (vk.oldAction sctx).length x
      · exact (stored.inside x ⟨some, long⟩).1
      · rcases sized some x with same | held
        · exact absurd (same.2 asked) long
        · exact (stored.outside x fun h => long h.2).1.trans held
    · intro x notAsked
      by_cases long : sctx.InOldact (vk.oldAction sctx).length x
      · rcases sized long.1 x with same | held
        · exact absurd ⟨long.1, same.1 long.2⟩ notAsked
        · exact (stored.inside x long).1.trans held.symm
      · exact (stored.outside x long).1

/-- The new action read is the one given exactly when its size is right and it is still there. -/
theorem OldActionStored.contents_iff {uc : Unicorn} (stored : OldActionStored sctx vk uc) {n m : ℕ}
    (mapped : uc.Mapped sctx.arg1 n) :
    uc.contents sctx.arg1 n = vk.uc.contents sctx.arg1 m ↔ n = m ∧ ∀ x, InRange sctx.arg1 m x →
      sctx.InOldact (vk.oldAction sctx).length x →
      (vk.oldAction sctx).getD (x.toNat - sctx.arg2.toNat) 0 = vk.uc.bytes x := by
  by_cases size : n = m
  · subst size
    rw [Unicorn.contents_eq_iff mapped.1 Unicorn.length_contents, and_iff_right rfl]
    refine forall₂_congr fun x inside => ?_
    rw [Unicorn.getD_contents inside]
    constructor
    · intro same old
      exact (stored.inside x old).2.symm.trans same
    · intro same
      by_cases old : sctx.InOldact (vk.oldAction sctx).length x
      · exact (stored.inside x old).2.trans (same old)
      · exact (stored.outside x old).2
  · refine iff_of_false (fun same => ?_) fun h => size h.1
    have lengths := congrArg List.length same
    rw [Unicorn.length_contents, Unicorn.length_contents] at lengths
    exact size lengths

/-- A call that returns does what the guest asks for exactly when the old action fits. -/
theorem sigactionDone_iff (positive : 0 < sctx.signum.toInt) (nonzero : sctx.arg3 ≠ 0)
    (run : (sysRtSigaction sctx).Ends vk (.ok v) vk') :
    SigactionDone sctx vk vk' ↔ vk.SigactionFits sctx := by
  obtain ⟨-, uc, written, rfl, result⟩ := sysRtSigaction_ok positive nonzero run
  have stored := oldActionStored written
  have installed : (∀ signum, vk'.action signum = vk.askedAction sctx vk.action signum) ↔
      (sctx.arg1 ≠ 0 → vk.actionSize sctx = actionBytes vk.cfg.arch sctx) ∧
      (sctx.arg1 ≠ 0 → ∀ x, InRange sctx.arg1 (actionBytes vk.cfg.arch sctx) x →
        sctx.InOldact (vk.oldAction sctx).length x →
        (vk.oldAction sctx).getD (x.toNat - sctx.arg2.toNat) 0 = vk.uc.bytes x) := by
    rcases result with ⟨null, same⟩ | ⟨some, mapped, inserted⟩
    · refine iff_of_true (fun signum => ?_) ⟨fun some => absurd null some, fun some => absurd null some⟩
      rw [Valkyrie.askedAction, if_neg fun h => h.1 null, Valkyrie.action, same]
      rfl
    · simp only [some, ne_eq, not_false_eq_true, forall_const]
      rw [← stored.contents_iff mapped]
      constructor
      · intro all
        have own := all sctx.signum
        rw [Valkyrie.askedAction, if_pos ⟨some, rfl⟩, Valkyrie.action, inserted,
          AList.lookup_insert] at own
        exact Option.some.inj own
      · intro same signum
        rw [Valkyrie.askedAction, Valkyrie.action, inserted]
        by_cases own : signum = sctx.signum
        · rw [if_pos ⟨some, own⟩, own, AList.lookup_insert, same]
        · rw [if_neg fun h => own h.2, AList.lookup_insert_ne own]
          rfl
  constructor
  · rintro ⟨actions, saved, apart⟩
    obtain ⟨whole, intact⟩ := installed.1 actions
    exact ⟨stored.saved_iff.1 ⟨saved, apart⟩, whole, intact⟩
  · rintro ⟨sized, whole, intact⟩
    obtain ⟨saved, apart⟩ := stored.saved_iff.2 sized
    exact ⟨installed.2 ⟨whole, intact⟩, saved, apart⟩

/-! ## Every run -/

/-- A call of `sys_rt_sigaction` with a positive signal and a size that returns. -/
def SigactionCall (step : Trace.Step Valkyrie SubCtx) : Prop :=
  0 < step.call.signum.toInt ∧ step.call.arg3 ≠ 0 ∧
    (sysRtSigaction step.call).Ends step.before (.ok 0) step.after

/-- In every run the calls do what the guest asks for exactly when all of them fit, and then each
signal has the action that was last installed for it. -/
theorem sigaction_exact_of_run {steps : List (Trace.Step Valkyrie SubCtx)}
    (run : Trace SigactionCall GuestStore vk steps vk') :
    ((∀ s ∈ steps, SigactionDone s.call s.before s.after) ↔
      ∀ s ∈ steps, s.before.SigactionFits s.call) ∧
    ((∀ s ∈ steps, s.before.SigactionFits s.call) → vk'.action =
      steps.foldl (fun action s => s.before.askedAction s.call action) vk.action) := by
  have each : ∀ s, SigactionCall s →
      (SigactionDone s.call s.before s.after ↔ s.before.SigactionFits s.call) := by
    rintro s ⟨positive, nonzero, ends⟩
    exact sigactionDone_iff positive nonzero ends
  refine ⟨run.forall_iff each, fun fits => run.foldl fits (fun s call fit => ?_) fun t t' store => ?_⟩
  · exact funext ((each s call).2 fit).actions
  · cases store
    rfl

/-- A guest with a page at `0x1000` that holds a one at `0x1100`. -/
def actionGuest : Valkyrie :=
  let vk := Valkyrie.ofMemory .x86_64 ⟨[⟨0x1000, 0x1000, .all, "[stack]"⟩], 0, 0⟩
  { vk with uc := { vk.uc with bytes := fun x => if x = 0x1100 then 1 else 0 } }

/-- `rt_sigaction(10, 0x1100, oldact, 8)`. -/
def setAction (oldact : U64) : SubCtx := ⟨10, 0x1100, oldact, 8, 0, 0⟩

theorem sigaction_exact_of_run_actionGuest : ∃ vk',
    (sysRtSigaction (setAction 0x1200)).Ends actionGuest (.ok 0) vk' ∧
      SigactionDone (setAction 0x1200) actionGuest vk' := by
  have call : ∃ vk', (sysRtSigaction (setAction 0x1200)).Ends actionGuest (.ok 0) vk' := ⟨_, rfl⟩
  obtain ⟨vk', call⟩ := call
  have positive : 0 < (setAction 0x1200).signum.toInt := by decide
  have sized : (setAction 0x1200).arg3 ≠ 0 := by decide
  have run : Trace SigactionCall GuestStore actionGuest [⟨actionGuest, setAction 0x1200, vk'⟩] vk' :=
    .call ⟨actionGuest, setAction 0x1200, vk'⟩ .start ⟨positive, sized, call⟩
  refine ⟨vk', call, (sigaction_exact_of_run run).1.2 (fun s hs => ?_) _
    (List.mem_singleton_self _)⟩
  rw [List.mem_singleton.1 hs]
  show actionGuest.SigactionFits (setAction 0x1200)
  have size : (actionGuest.oldAction (setAction 0x1200)).length = 32 := rfl
  refine ⟨fun _ x => .inl Iff.rfl, fun _ => rfl, fun _ x new old => ?_⟩
  rw [size] at old
  have low : x.toNat < 0x1100 + 32 := new.2
  have high : 0x1200 ≤ x.toNat := old.2.1
  omega

/-- A call that saves the old action over the new one installs the old one. -/
theorem sigaction_same_buffer : ¬ ∀ (vk vk' : Valkyrie) (steps : List (Trace.Step Valkyrie SubCtx)),
    Trace SigactionCall GuestStore vk steps vk' →
      ∀ s ∈ steps, SigactionDone s.call s.before s.after := by
  intro always
  have call : ∃ vk', (sysRtSigaction (setAction 0x1100)).Ends actionGuest (.ok 0) vk' ∧
      (vk'.action 10).map (·.headD 0) = some 0 := ⟨_, rfl, rfl⟩
  obtain ⟨vk', call, kept⟩ := call
  have positive : 0 < (setAction 0x1100).signum.toInt := by decide
  have sized : (setAction 0x1100).arg3 ≠ 0 := by decide
  have run : Trace SigactionCall GuestStore actionGuest [⟨actionGuest, setAction 0x1100, vk'⟩] vk' :=
    .call ⟨actionGuest, setAction 0x1100, vk'⟩ .start ⟨positive, sized, call⟩
  have done := (always _ _ _ run _ (List.mem_singleton_self _)).actions 10
  have asked : (actionGuest.askedAction (setAction 0x1100) actionGuest.action 10).map (·.headD 0) =
    some 1 := rfl
  dsimp only at done
  rw [done, asked] at kept
  cases kept

end ValkyrieRs

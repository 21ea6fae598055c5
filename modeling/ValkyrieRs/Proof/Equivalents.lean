import ValkyrieRs.Proof.SignedWords
import ValkyrieRs.Proof.SystemEffects

/-!
# A call in other words

`_llseek` of 32-bit guests gets the two halves of an offset, and does what `lseek` does.
-/

namespace ValkyrieRs

open Proc

variable {sv : Services}

/-- The two halves of an offset make it up. -/
theorem or_halves (offset : U64) : (offset >>> 32) <<< 32 ||| (offset &&& 0xFFFFFFFF) = offset := by
  apply BitVec.eq_of_getLsbD_eq
  intro i inside
  have mask : (0xFFFFFFFF : U64).getLsbD i = decide (i < 32) := by
    rw [show (0xFFFFFFFF : U64) = BitVec.ofNat 64 (2 ^ 32 - 1) from rfl, BitVec.getLsbD_ofNat,
      Nat.testBit_two_pow_sub_one]
    simp [inside]
  simp only [BitVec.getLsbD_or, BitVec.getLsbD_and, BitVec.getLsbD_shiftLeft,
    BitVec.getLsbD_ushiftRight, mask, inside, decide_true, Bool.true_and]
  by_cases low : i < 32
  · simp [low]
  · simp [low, Nat.add_sub_cancel' (Nat.not_lt.1 low)]

/-- The arguments of `_llseek` for an offset. -/
def llseekArgs (fd offset result whence : U64) : SubCtx :=
  ⟨fd, offset >>> 32, offset &&& 0xFFFFFFFF, result, whence, 0⟩

/-- For every offset `_llseek` moves a file as `lseek` does, and stores the position that `lseek`
returns. -/
theorem llseek_as_lseek (vk : Valkyrie) (fd offset result whence : U64) : ∃ outcome t,
    (seekFd fd offset (whence.setWidth 32)).Ends vk (.ok outcome) t ∧
      (sysHandlers sv .sysLseek ⟨fd, offset, whence, 0, 0, 0⟩).Ends vk (.ok (seekWord outcome)) t ∧
      ∀ r vk', (sysHandlers sv .sysLlseek (llseekArgs fd offset result whence)).Ends vk r vk' ↔
        (result = 0 ∧ r = .ok (negErrno EFAULT) ∧ vk' = vk) ∨
          (result ≠ 0 ∧ ((∃ e, outcome = .error e ∧ r = .ok (negErrno e) ∧ vk' = t) ∨
            ∃ pos, outcome = .ok pos ∧
              (memWrite result (toLeBytes 8 pos) >>= fun _ => pure 0).Ends t r vk')) := by
  obtain ⟨outcome, t, sought⟩ : ∃ outcome t,
    (seekFd fd offset (whence.setWidth 32)).Ends vk (.ok outcome) t := ⟨_, _, ends_seekFd _ _ _⟩
  refine ⟨outcome, t, sought, ?_, fun r vk' => ?_⟩
  · refine Ends.bind sought ?_
    cases outcome with
    | ok pos => exact ends_pure.2 ⟨rfl, rfl⟩
    | error e => exact ends_pure.2 ⟨rfl, rfl⟩
  · show (sysLlseek (llseekArgs fd offset result whence)).Ends vk r vk' ↔ _
    unfold sysLlseek llseekArgs
    dsimp only
    rw [or_halves]
    by_cases null : result = 0
    · rw [if_pos null, ends_pure]
      simp [null]
    · rw [if_neg null, sought.bind_iff, or_iff_right fun refused => null refused.1,
        and_iff_right null]
      cases outcome with
      | ok pos => simp
      | error e => simp [ends_pure]

end ValkyrieRs

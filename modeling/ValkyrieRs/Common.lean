import Mathlib.Order.MinMax
import ValkyrieRs.Lib.Digits
import ValkyrieRs.Types

/-!
# Address arithmetic

The helpers of `common.rs` and the `u64` operations of the standard library, with the natural
number each computes.  Plain additions wrap, as in a release build.
-/

namespace ValkyrieRs

/-- The unsigned order. -/
instance : LinearOrder U64 where
  le_refl := BitVec.le_refl
  le_trans _ _ _ := BitVec.le_trans
  le_antisymm _ _ := BitVec.le_antisymm
  le_total := BitVec.le_total
  lt_iff_le_not_ge a b := by bv_omega
  toDecidableLE := inferInstance

/-- `u64::MAX`. -/
def u64Max : U64 := BitVec.allOnes 64

/-- `u64::saturating_add`. -/
def satAdd (a b : U64) : U64 := if a.toNat + b.toNat < 2 ^ 64 then a + b else u64Max

/-- `u64::saturating_sub`. -/
def satSub (a b : U64) : U64 := if b ≤ a then a - b else 0

/-- `u64::saturating_mul`. -/
def satMul (a b : U64) : U64 := if a.toNat * b.toNat < 2 ^ 64 then a * b else u64Max

/-- `u64::is_multiple_of`. -/
def isMultipleOf (a b : U64) : Bool := if b = 0 then a = 0 else a % b = 0

/-- `align_down`. -/
def alignDown (value align : U64) : U64 :=
  if align = 0 then value else value &&& ~~~(align - 1)

/-- `align_up`, whose sum wraps. -/
def alignUp (value align : U64) : U64 :=
  if align = 0 then value else (value + align - 1) &&& ~~~(align - 1)

/-- The first `n` bytes of `to_le_bytes`. -/
def toLeBytes {w : ℕ} (n : ℕ) (value : BitVec w) : List U8 :=
  (List.range n).map fun i => (value >>> (8 * i)).setWidth 8

/-- `u64::from_le_bytes` of at most eight bytes, the others zero. -/
def fromLeBytes (bytes : List U8) : U64 :=
  bytes.foldr (fun byte value => value <<< 8 ||| byte.setWidth 64) 0

/-- The value `-(e as i64) as u64` that reports the error number `e`. -/
def negErrno (e : U32) : U64 := -(e.signExtend 64)

/-- A value between `-4095` and `-1`: what the guest reads as an error number. -/
def IsNegErrno (v : U64) : Prop := 2 ^ 64 - 4095 ≤ v.toNat

instance (v : U64) : Decidable (IsNegErrno v) := inferInstanceAs (Decidable (_ ≤ _))

theorem toNat_min (a b : U64) : (min a b).toNat = min a.toNat b.toNat := by
  rcases le_total a b with le | le
  · rw [min_eq_left le, Nat.min_eq_left le]
  · rw [min_eq_right le, Nat.min_eq_right le]

theorem toNat_max (a b : U64) : (max a b).toNat = max a.toNat b.toNat := by
  rcases le_total a b with le | le
  · rw [max_eq_right le, Nat.max_eq_right le]
  · rw [max_eq_left le, Nat.max_eq_left le]

@[simp] theorem toNat_u64Max : u64Max.toNat = 2 ^ 64 - 1 := rfl

@[simp] theorem toNat_pageSize : pageSize.toNat = 4096 := rfl

@[simp] theorem toNat_satAdd (a b : U64) :
    (satAdd a b).toNat = min (a.toNat + b.toNat) (2 ^ 64 - 1) := by
  unfold satAdd
  split
  · rw [BitVec.toNat_add]
    omega
  · rw [toNat_u64Max]
    omega

@[simp] theorem toNat_satSub (a b : U64) : (satSub a b).toNat = a.toNat - b.toNat := by
  unfold satSub
  split <;> bv_omega

theorem isMultipleOf_pageSize (a : U64) : isMultipleOf a pageSize ↔ a.toNat % 4096 = 0 := by
  have nonzero : pageSize ≠ 0 := by decide
  simp only [isMultipleOf, if_neg nonzero, decide_eq_true_eq]
  rw [← BitVec.toNat_inj, BitVec.toNat_umod, toNat_pageSize]
  rfl

@[simp] theorem length_toLeBytes {w n : ℕ} (v : BitVec w) : (toLeBytes n v).length = n :=
  Digits.length_little

/-- The first `n` bytes of a value hold its low `8 * n` bits. -/
theorem fromLeBytes_toLeBytes {w : ℕ} (n : ℕ) (v : BitVec w) :
    fromLeBytes (toLeBytes n v) = (v.setWidth (8 * n)).setWidth 64 :=
  Digits.ofLittle_little (by decide)

/-- Clearing the `k` low bits shifts them out and back. -/
theorem and_not_mask (v : U64) (k : ℕ) :
    v &&& ~~~BitVec.ofNat 64 (2 ^ k - 1) = (v >>> k) <<< k := by
  apply BitVec.eq_of_getLsbD_eq
  intro i hi
  have bit : (BitVec.ofNat 64 (2 ^ k - 1)).getLsbD i = decide (i < k) := by
    rw [BitVec.getLsbD_ofNat, Nat.testBit_two_pow_sub_one]
    simp [hi]
  simp only [BitVec.getLsbD_and, BitVec.getLsbD_not, BitVec.getLsbD_shiftLeft,
    BitVec.getLsbD_ushiftRight, bit, hi, decide_true, Bool.true_and]
  by_cases low : i < k
  · simp [low]
  · simp [low, Nat.add_sub_cancel' (Nat.not_lt.1 low)]

/-- Clearing the twelve low bits rounds down to a page. -/
theorem toNat_and_not_page (v : U64) : (v &&& ~~~(pageSize - 1)).toNat = v.toNat / 4096 * 4096 := by
  have mask : pageSize - 1 = BitVec.ofNat 64 (2 ^ 12 - 1) := rfl
  rw [mask, and_not_mask]
  simp only [BitVec.toNat_shiftLeft, BitVec.toNat_ushiftRight, Nat.shiftLeft_eq,
    Nat.shiftRight_eq_div_pow]
  omega

@[simp] theorem toNat_alignDown (v : U64) : (alignDown v pageSize).toNat = v.toNat / 4096 * 4096 := by
  rw [alignDown, if_neg (by decide), toNat_and_not_page]

/-- The round-up wraps to zero in the last page of the address space. -/
@[simp] theorem toNat_alignUp (v : U64) :
    (alignUp v pageSize).toNat = (v.toNat + 4095) % 2 ^ 64 / 4096 * 4096 := by
  have sum : v + pageSize - 1 = v + 4095 := by
    rw [pageSize, BitVec.sub_eq_add_neg, BitVec.add_assoc]
    rfl
  rw [alignUp, if_neg (by decide), toNat_and_not_page, sum, BitVec.toNat_add]
  rfl

theorem setWidth_signExtend (x : U32) : (x.signExtend 64).setWidth 32 = x := by
  apply BitVec.eq_of_getLsbD_eq
  intro i hi
  rw [BitVec.getLsbD_setWidth, BitVec.getLsbD_signExtend, if_pos hi]
  have bound : i < 64 := by omega
  simp [hi, bound]

theorem signExtend_inj {x y : U32} (same : x.signExtend 64 = y.signExtend 64) : x = y := by
  rw [← setWidth_signExtend x, same, setWidth_signExtend]

theorem negErrno_inj {e e' : U32} (same : negErrno e = negErrno e') : e = e' :=
  signExtend_inj (BitVec.neg_inj.1 same)

theorem isNegErrno_negErrno {e : U32} (pos : 0 < e.toNat) (le : e.toNat ≤ 4095) :
    IsNegErrno (negErrno e) := by
  have msb : e.msb = false := by
    rw [BitVec.msb_eq_false_iff_two_mul_lt]
    omega
  rw [IsNegErrno, negErrno, BitVec.signExtend_eq_setWidth_of_msb_false msb]
  simp only [BitVec.toNat_neg, BitVec.toNat_setWidth]
  omega

/-- A page-aligned value is never read as an error number. -/
theorem not_isNegErrno_of_aligned {v : U64} (h : v.toNat % 4096 = 0) : ¬ IsNegErrno v := by
  unfold IsNegErrno
  omega

end ValkyrieRs

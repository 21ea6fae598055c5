import Mathlib.Algebra.Group.Nat.Defs
import Mathlib.Tactic.Common

/-!
# Bit vectors as digits

The digits of `d` bits of a bit vector, least or most significant first, and the value of a list of
digits in either order.  The two orders are each other's reverse.  Taking the value of the low `n`
digits gives the low `d * n` bits, and a list of digits is recovered from its value when that has
room for all of them.
-/

namespace Digits

variable {w d n i : ℕ} {v : BitVec w} {ds : List (BitVec d)}

/-- The `n` low digits, least significant first. -/
def little (d n : ℕ) (v : BitVec w) : List (BitVec d) :=
  (List.range n).map fun i => (v >>> (d * i)).setWidth d

/-- The `n` low digits, most significant first. -/
def big (d n : ℕ) (v : BitVec w) : List (BitVec d) :=
  (List.range n).map fun i => (v >>> (d * (n - 1 - i))).setWidth d

/-- The value of digits, least significant first. -/
def ofLittle (w : ℕ) (ds : List (BitVec d)) : BitVec w :=
  ds.foldr (fun digit v => v <<< d ||| digit.setWidth w) 0

/-- The value of digits, most significant first. -/
def ofBig (w : ℕ) (ds : List (BitVec d)) : BitVec w :=
  ds.foldl (fun v digit => v <<< d ||| digit.setWidth w) 0

/-! ## The two orders -/

theorem reverse_little : (little d n v).reverse = big d n v := by
  apply List.ext_getElem
  · simp [little, big]
  · intro i hi hi'
    simp [little, big, List.getElem_reverse]

theorem ofLittle_reverse : ofLittle w ds.reverse = ofBig w ds := by
  rw [ofLittle, List.foldr_reverse]
  rfl

/-! ## Digits -/

@[simp] theorem length_little : (little d n v).length = n := by simp [little]

@[simp] theorem length_big : (big d n v).length = n := by simp [big]

theorem getD_little (hi : i < n) : (little d n v).getD i 0 = (v >>> (d * i)).setWidth d := by
  simp [little, List.getD_eq_getElem?_getD, hi]

/-- The low digits do not see the bits above them. -/
theorem little_setWidth {w' : ℕ} (room : d * n ≤ w') :
    little d n (v.setWidth w') = little d n v := by
  refine List.map_congr_left fun k hk => BitVec.eq_of_getLsbD_eq fun j hj => ?_
  have slot : d * k + d ≤ d * n := by
    rw [← Nat.mul_succ]
    exact Nat.mul_le_mul_left d (List.mem_range.1 hk)
  have inside : d * k + j < w' := by omega
  simp [hj, inside]

theorem ofLittle_cons (digit : BitVec d) :
    ofLittle w (digit :: ds) = ofLittle w ds <<< d ||| digit.setWidth w := rfl

/-- A bit of the value is a bit of a digit. -/
theorem getLsbD_ofLittle (pos : 0 < d) (hi : i < w) :
    (ofLittle w ds).getLsbD i = (ds.getD (i / d) 0).getLsbD (i % d) := by
  induction ds generalizing i with
  | nil => simp [ofLittle]
  | cons digit ds ih =>
    rw [ofLittle_cons, BitVec.getLsbD_or, BitVec.getLsbD_shiftLeft, BitVec.getLsbD_setWidth]
    by_cases first : i < d
    · rw [Nat.div_eq_of_lt first, Nat.mod_eq_of_lt first]
      simp [hi, first]
    · have le : d ≤ i := Nat.not_lt.1 first
      have next : i / d = (i - d) / d + 1 := Nat.div_eq_sub_div pos le
      have same : (i - d) % d = i % d := (Nat.mod_eq_sub_mod le).symm
      have above : digit.getLsbD i = false := BitVec.getLsbD_of_ge _ _ le
      rw [ih (by omega), next, List.getD_cons_succ, same, above]
      simp [hi, first]

/-- The value of the low `n` digits is the low `d * n` bits. -/
theorem ofLittle_little {w' : ℕ} (pos : 0 < d) :
    ofLittle w' (little d n v) = (v.setWidth (d * n)).setWidth w' := by
  apply BitVec.eq_of_getLsbD_eq
  intro i hi
  rw [getLsbD_ofLittle pos hi, BitVec.getLsbD_setWidth, BitVec.getLsbD_setWidth]
  have place : d * (i / d) + i % d = i := Nat.div_add_mod i d
  have small : i % d < d := Nat.mod_lt i pos
  by_cases inside : i / d < n
  · have low : i < d * n := by
      rw [Nat.mul_comm]
      exact (Nat.div_lt_iff_lt_mul pos).1 inside
    rw [getD_little inside, BitVec.getLsbD_setWidth, BitVec.getLsbD_ushiftRight, place]
    simp [hi, low, small]
  · have high : ¬ i < d * n := by
      rw [Nat.mul_comm]
      exact fun low => inside ((Nat.div_lt_iff_lt_mul pos).2 low)
    have past : (little d n v).length ≤ i / d := by
      rw [length_little]
      exact Nat.not_lt.1 inside
    rw [List.getD_eq_getElem?_getD, List.getElem?_eq_none past]
    simp [high]

/-- Digits are recovered from a value that has room for them. -/
theorem little_ofLittle (pos : 0 < d) (room : d * ds.length ≤ w) :
    little d ds.length (ofLittle w ds) = ds := by
  apply List.ext_getElem length_little
  intro k hk hk'
  have slot : d * k + d ≤ d * ds.length := by
    rw [← Nat.mul_succ]
    exact Nat.mul_le_mul_left d hk'
  apply BitVec.eq_of_getLsbD_eq
  intro j hj
  have digit : (d * k + j) / d = k := by
    rw [Nat.mul_add_div pos, Nat.div_eq_of_lt hj, Nat.add_zero]
  have bit : (d * k + j) % d = j := by rw [Nat.mul_add_mod, Nat.mod_eq_of_lt hj]
  have inside : d * k + j < w := by omega
  have entry := @getLsbD_ofLittle w d _ ds pos inside
  rw [digit, bit, List.getD_eq_getElem?_getD, List.getElem?_eq_getElem hk', Option.getD_some]
    at entry
  simp [little, hj, entry]

/-! ## Most significant first -/

theorem ofBig_big {w' : ℕ} (pos : 0 < d) :
    ofBig w' (big d n v) = (v.setWidth (d * n)).setWidth w' := by
  rw [← reverse_little, ← ofLittle_reverse, List.reverse_reverse, ofLittle_little pos]

theorem big_ofBig (pos : 0 < d) (room : d * ds.length ≤ w) :
    big d ds.length (ofBig w ds) = ds := by
  rw [← List.length_reverse] at room
  have back := little_ofLittle pos room
  rw [← ofLittle_reverse, ← reverse_little]
  rw [List.length_reverse] at back
  rw [back, List.reverse_reverse]

end Digits

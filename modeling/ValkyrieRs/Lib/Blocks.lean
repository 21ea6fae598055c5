import Mathlib.Algebra.BigOperators.Group.List.Basic
import Mathlib.Algebra.GroupWithZero.Nat
import Mathlib.Tactic.Common

/-!
# Blocks of cells at machine addresses

A memory is a function from machine addresses to cells.  `Carries m a data` says that the cells from
`a` on, counted modulo the address width, are those of the list.  `InBlock a n x` says that `x` is
one of the `n` addresses from `a` on.  Blocks laid out one after the other in no more than the whole
address space have no address in common, wherever the first begins.
-/

namespace Blocks

variable {w : ℕ} {α : Type} {m m' : BitVec w → α} {a b x : BitVec w} {n : ℕ} {data rest : List α}

/-- The cells from `a` on are those of the list. -/
def Carries (m : BitVec w → α) (a : BitVec w) (data : List α) : Prop :=
  ∀ i v, data[i]? = some v → m (a + BitVec.ofNat w i) = v

/-- The address is one of the `n` from `a` on. -/
def InBlock (a : BitVec w) (n : ℕ) (x : BitVec w) : Prop := (x - a).toNat < n

/-! ## Contents -/

theorem carries_nil : Carries m a [] := nofun

theorem carries_cons {v : α} : Carries m a (v :: rest) ↔ m a = v ∧ Carries m (a + 1) rest := by
  have shift : ∀ i, a + BitVec.ofNat w (i + 1) = a + 1 + BitVec.ofNat w i := by
    intro i
    rw [Nat.add_comm, BitVec.ofNat_add, BitVec.add_assoc]
    rfl
  constructor
  · intro h
    refine ⟨?_, fun i u hu => ?_⟩
    · simpa using h 0 v rfl
    · rw [← shift]
      exact h (i + 1) u hu
  · rintro ⟨first, later⟩ i u hu
    cases i with
    | zero =>
      cases hu
      simpa using first
    | succ i =>
      rw [shift]
      exact later i u hu

theorem carries_append : Carries m a (data ++ rest) ↔
    Carries m a data ∧ Carries m (a + BitVec.ofNat w data.length) rest := by
  induction data generalizing a with
  | nil => simp [carries_nil]
  | cons v data ih =>
    rw [List.cons_append, carries_cons, carries_cons, ih, and_assoc, List.length_cons, Nat.add_comm,
      BitVec.ofNat_add, ← BitVec.add_assoc]
    rfl

/-- What a memory holds, another holds that has the same cells there. -/
theorem Carries.congr (h : Carries m a data)
    (same : ∀ x, InBlock a data.length x → m' x = m x) : Carries m' a data := by
  intro i v hv
  obtain ⟨hi, -⟩ := List.getElem?_eq_some_iff.1 hv
  rw [same, h i v hv]
  rw [InBlock, BitVec.add_comm, BitVec.add_sub_cancel, BitVec.toNat_ofNat]
  exact Nat.lt_of_le_of_lt (Nat.mod_le _ _) hi

/-- A memory holds what its cells are. -/
theorem carries_of_eq (h : ∀ i (hi : i < data.length), m (a + BitVec.ofNat w i) = data[i]) :
    Carries m a data := by
  intro i v hv
  obtain ⟨hi, rfl⟩ := List.getElem?_eq_some_iff.1 hv
  exact h i hi

/-! ## Addresses -/

/-- A block further on, seen from a base address. -/
theorem inBlock_add {offset : ℕ} (fits : offset + n ≤ 2 ^ w) :
    InBlock (a + BitVec.ofNat w offset) n x ↔
      offset ≤ (x - a).toNat ∧ (x - a).toNat < offset + n := by
  have small := (x - a).isLt
  have split : x - (a + BitVec.ofNat w offset) = x - a - BitVec.ofNat w offset := by
    rw [BitVec.sub_eq_add_neg, BitVec.neg_add, BitVec.sub_eq_add_neg x, BitVec.sub_eq_add_neg,
      BitVec.sub_eq_add_neg, BitVec.add_assoc]
  rw [InBlock, split, BitVec.toNat_sub, BitVec.toNat_ofNat]
  rcases Nat.lt_or_ge offset (2 ^ w) with lt | ge
  · rw [Nat.mod_eq_of_lt lt]
    rcases Nat.lt_or_ge (x - a).toNat offset with before | after
    · rw [Nat.mod_eq_of_lt (by omega)]
      omega
    · have sum : 2 ^ w - offset + (x - a).toNat = 2 ^ w + ((x - a).toNat - offset) := by omega
      rw [sum, Nat.add_mod_left, Nat.mod_eq_of_lt (by omega)]
      omega
  · have all : offset = 2 ^ w := by omega
    rw [all, Nat.mod_self, Nat.sub_zero, Nat.add_mod_left, Nat.mod_eq_of_lt small]
    omega

/-- The blocks of the given sizes, one after the other. -/
def blocks (a : BitVec w) : List ℕ → List (BitVec w × ℕ)
  | [] => []
  | n :: sizes => (a, n) :: blocks (a + BitVec.ofNat w n) sizes

theorem exists_offset {sizes : List ℕ} {p : BitVec w × ℕ} {first : ℕ}
    (hp : p ∈ blocks (a + BitVec.ofNat w first) sizes) :
    ∃ offset, first ≤ offset ∧ offset + p.2 ≤ first + sizes.sum ∧
      p.1 = a + BitVec.ofNat w offset := by
  induction sizes generalizing first with
  | nil => cases hp
  | cons n sizes ih =>
    rcases List.mem_cons.1 hp with rfl | later
    · refine ⟨first, Nat.le_refl _, ?_, rfl⟩
      rw [List.sum_cons]
      omega
    · rw [BitVec.add_assoc, ← BitVec.ofNat_add] at later
      obtain ⟨offset, low, high, place⟩ := ih later
      refine ⟨offset, by omega, ?_, place⟩
      rw [List.sum_cons]
      omega

/-- Blocks that fit the address space together have no address in common. -/
theorem pairwise_blocks {sizes : List ℕ} (fits : sizes.sum ≤ 2 ^ w) :
    (blocks a sizes).Pairwise fun p q => ∀ x, InBlock p.1 p.2 x → ¬ InBlock q.1 q.2 x := by
  induction sizes generalizing a with
  | nil => exact .nil
  | cons n sizes ih =>
    rw [List.sum_cons] at fits
    refine .cons (fun q hq x here there => ?_) (ih (by omega))
    obtain ⟨offset, low, high, place⟩ := exists_offset hq
    rw [place, inBlock_add (by omega)] at there
    have near : (x - a).toNat < n := here
    omega

theorem zip_blocks (sizes : List ℕ) :
    ((blocks a sizes).map Prod.fst).zip sizes = blocks a sizes := by
  induction sizes generalizing a with
  | nil => rfl
  | cons n sizes ih => rw [blocks, List.map_cons, List.zip_cons_cons, ih]

theorem blocks_concat (sizes : List ℕ) (n : ℕ) :
    blocks a (sizes ++ [n]) = blocks a sizes ++ [(a + BitVec.ofNat w sizes.sum, n)] := by
  induction sizes generalizing a with
  | nil =>
    rw [List.nil_append, List.sum_nil, BitVec.add_zero]
    rfl
  | cons k sizes ih =>
    rw [List.cons_append, blocks, ih, blocks, List.cons_append, List.sum_cons, BitVec.ofNat_add,
      BitVec.add_assoc]

end Blocks

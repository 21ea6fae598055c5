import Mathlib.Data.List.Basic
import Mathlib.Data.List.GetD

/-!
# Arrays of records

Values written one after another, each in the same number of bytes, and read back by their position.
-/

variable {α β : Type}

/-- A layout of values in a fixed number of bytes, read whatever bytes follow. -/
structure RecordLayout (α β : Type) where
  size : ℕ
  encode : α → List β
  decode : List β → α
  length_encode (a : α) : (encode a).length = size
  decode_encode (a : α) (rest : List β) : decode (encode a ++ rest) = a

namespace RecordLayout

variable (layout : RecordLayout α β)

/-- The array of the values. -/
def array (values : List α) : List β := values.flatMap layout.encode

/-- The first `n` values of an array. -/
def values (n : ℕ) (bytes : List β) : List α :=
  (List.range n).map fun i => layout.decode (bytes.drop (layout.size * i))

@[simp] theorem array_nil : layout.array [] = [] := rfl

@[simp] theorem array_cons (a : α) (values : List α) :
    layout.array (a :: values) = layout.encode a ++ layout.array values := rfl

theorem length_array (values : List α) :
    (layout.array values).length = layout.size * values.length := by
  induction values with
  | nil => rfl
  | cons a values ih =>
    rw [array_cons, List.length_append, layout.length_encode, ih, List.length_cons, Nat.mul_succ,
      Nat.add_comm]

/-- Behind `i` values the others follow. -/
theorem drop_array (values : List α) (i : ℕ) :
    (layout.array values).drop (layout.size * i) = layout.array (values.drop i) := by
  induction i generalizing values with
  | zero => rfl
  | succ i ih =>
    cases values with
    | nil => rw [array_nil, List.drop_nil, List.drop_nil, array_nil]
    | cons a values =>
      rw [array_cons, Nat.mul_succ, Nat.add_comm, ← List.drop_drop, ← layout.length_encode a,
        List.drop_left, layout.length_encode, ih, List.drop_succ_cons]

/-- Each value is read at its place. -/
theorem decode_drop_array (values : List α) {i : ℕ} (inside : i < values.length) :
    layout.decode ((layout.array values).drop (layout.size * i)) = values[i] := by
  rw [drop_array, List.drop_eq_getElem_cons inside, array_cons, layout.decode_encode]

@[simp] theorem length_values (n : ℕ) (bytes : List β) : (layout.values n bytes).length = n := by
  rw [values, List.length_map, List.length_range]

/-- An array is read back. -/
theorem values_array (values : List α) : layout.values values.length (layout.array values) = values := by
  refine List.ext_getElem (layout.length_values _ _) fun i _ inside => ?_
  simp only [RecordLayout.values, List.getElem_map, List.getElem_range]
  exact layout.decode_drop_array values inside

end RecordLayout

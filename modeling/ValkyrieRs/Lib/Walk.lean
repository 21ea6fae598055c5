import Mathlib.Data.List.Basic
import Mathlib.Tactic.Common

/-!
# Walks in a tree of names

A place in a tree is the list of the names on the way to it from the root.  A walk is a list of
moves, each staying, going up to the parent (the root is its own parent) or going down to a name.
The net effect of a walk is to go up some number of levels and then down along some names; it does
not depend on where the walk begins.
-/

/-- One move in a tree whose edges carry names. -/
inductive Move (α : Type) where
  | stay
  | up
  | down (name : α)
deriving DecidableEq

/-- Some levels up, then down along the names. -/
structure Climb (α : Type) where
  up : ℕ
  names : List α
deriving DecidableEq

variable {α : Type}

/-- The place that a climb ends at. -/
def Climb.place (c : Climb α) (start : List α) : List α :=
  start.take (start.length - c.up) ++ c.names

/-- A climb with one more move behind it. -/
def Climb.step (c : Climb α) : Move α → Climb α
  | .stay => c
  | .up => if c.names.isEmpty then ⟨c.up + 1, []⟩ else ⟨c.up, c.names.dropLast⟩
  | .down name => ⟨c.up, c.names ++ [name]⟩

namespace Walk

/-- One move. -/
def step (place : List α) : Move α → List α
  | .stay => place
  | .up => place.dropLast
  | .down name => place ++ [name]

/-- The place that a walk ends at. -/
def walk (place : List α) (moves : List (Move α)) : List α := moves.foldl step place

/-- The net effect of a walk. -/
def climb (moves : List (Move α)) : Climb α := moves.foldl Climb.step ⟨0, []⟩

variable {place inner outer : List α} {moves moves' : List (Move α)} {c : Climb α}

@[simp] theorem walk_nil : walk place [] = place := rfl

theorem walk_append : walk place (moves ++ moves') = walk (walk place moves) moves' :=
  List.foldl_append

theorem step_place (m : Move α) : step (c.place place) m = (c.step m).place place := by
  cases m with
  | stay => rfl
  | down name => exact List.append_assoc _ _ _
  | up =>
    show (c.place place).dropLast = (c.step .up).place place
    rw [Climb.step]
    split_ifs with empty
    · rw [List.isEmpty_iff] at empty
      simp only [Climb.place, empty, List.append_nil, List.dropLast_eq_take, List.take_take,
        List.length_take]
      congr 1
      omega
    · rw [List.isEmpty_iff] at empty
      exact List.dropLast_append_of_ne_nil empty

/-- Where a walk ends is settled by its net effect. -/
theorem walk_eq (place : List α) (moves : List (Move α)) :
    walk place moves = (climb moves).place place := by
  have general : ∀ c : Climb α,
      walk (c.place place) moves = (moves.foldl Climb.step c).place place := by
    induction moves with
    | nil => exact fun _ => rfl
    | cons m moves ih =>
      intro c
      show walk (step (c.place place) m) moves = _
      rw [step_place, ih]
      rfl
  simpa [Climb.place, climb] using general ⟨0, []⟩

/-- A climb from a place below `outer` ends below `outer` exactly when its names begin with those
that it went up past. -/
theorem isPrefix_place_iff (below : outer <+: inner) :
    outer <+: c.place inner ↔ outer.drop (inner.length - c.up) <+: c.names := by
  obtain ⟨rest, rfl⟩ := below
  unfold Climb.place
  generalize (outer ++ rest).length - c.up = left
  rcases Nat.le_total outer.length left with stays | leaves
  · rw [List.drop_eq_nil_of_le stays, List.take_append, List.take_of_length_le stays,
      List.append_assoc]
    exact iff_of_true (List.prefix_append _ _) List.nil_prefix
  · rw [List.take_append_of_le_length leaves]
    nth_rewrite 1 [← List.take_append_drop left outer]
    exact List.prefix_append_right_inj _

/-- A walk from a place below `outer` ends below `outer` exactly when the names it goes down to at
last begin with those that it went up past. -/
theorem isPrefix_walk_iff (below : outer <+: inner) :
    outer <+: walk inner moves ↔
      outer.drop (inner.length - (climb moves).up) <+: (climb moves).names := by
  rw [walk_eq, isPrefix_place_iff below]

/-- A walk that never goes up stays below where it begins. -/
theorem isPrefix_walk_of_noUp (noUp : .up ∉ moves) : place <+: walk place moves := by
  induction moves generalizing place with
  | nil => exact List.prefix_rfl
  | cons m moves ih =>
    have rest := @ih (step place m) fun up => noUp (.tail _ up)
    refine List.IsPrefix.trans ?_ rest
    cases m with
    | stay => exact List.prefix_rfl
    | up => exact (noUp (.head _)).elim
    | down name => exact List.prefix_append _ _

end Walk

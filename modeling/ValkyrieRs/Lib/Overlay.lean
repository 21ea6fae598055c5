import Mathlib.Data.List.Basic
import Mathlib.Tactic.Common

/-!
# Partial maps that grow by disjoint parts

`Adds f p g` says that the partial map `g` is the disjoint union of `f` and the part `p`.  What `f`
holds and what the part holds is held by `g`, and nothing else.  `AddsAll f ps g` is a chain of such
steps: every part of it survives the later ones.

`lastOf ps` is what a list of partial maps says when each overrides the ones before it.
-/

variable {α β : Type}

/-- `g` is `f` together with a part that lies outside of it. -/
structure Adds (f p g : α → Option β) : Prop where
  free : ∀ x v, p x = some v → f x = none
  eq : ∀ x, g x = (p x).or (f x)

namespace Adds

variable {f p g q h : α → Option β} {x : α} {v : β}

theorem of_part (a : Adds f p g) (hx : p x = some v) : g x = some v := by
  rw [a.eq, hx]
  rfl

theorem of_old (a : Adds f p g) (hx : f x = some v) : g x = some v := by
  rw [a.eq]
  cases hp : p x with
  | none => exact hx
  | some w =>
    rw [a.free x w hp] at hx
    cases hx

theorem eq_old (a : Adds f p g) (hx : p x = none) : g x = f x := by
  rw [a.eq, hx]
  rfl

/-- Adding a part that holds nothing. -/
theorem of_empty (empty : ∀ x, p x = none) : Adds f p f where
  free x v hx := by
    rw [empty] at hx
    cases hx
  eq x := by
    rw [empty]
    rfl

/-- Two parts added one after the other are one part. -/
theorem trans {r : α → Option β} (a : Adds f p g) (b : Adds g q h)
    (union : ∀ x, r x = (q x).or (p x)) : Adds f r h where
  free x v hx := by
    rw [union] at hx
    cases hp : p x with
    | some w => exact a.free x w hp
    | none =>
      rw [hp, Option.or_none] at hx
      rw [← a.eq_old hp]
      exact b.free x v hx
  eq x := by
    rw [b.eq, a.eq, union, Option.or_assoc]

end Adds

/-- `g` is `f` together with the parts of a list, added in order. -/
def AddsAll : (α → Option β) → List (α → Option β) → (α → Option β) → Prop
  | f, [], g => g = f
  | f, p :: ps, g => ∃ h, Adds f p h ∧ AddsAll h ps g

namespace AddsAll

variable {f g : α → Option β} {ps : List (α → Option β)} {p : α → Option β} {x : α} {v : β}

theorem of_old (a : AddsAll f ps g) (hx : f x = some v) : g x = some v := by
  induction ps generalizing f with
  | nil => rwa [a]
  | cons q ps ih =>
    obtain ⟨h, first, rest⟩ := a
    exact ih rest (first.of_old hx)

/-- Every part survives the later ones. -/
theorem of_mem (a : AddsAll f ps g) (hp : p ∈ ps) (hx : p x = some v) : g x = some v := by
  induction ps generalizing f with
  | nil => cases hp
  | cons q ps ih =>
    obtain ⟨h, first, rest⟩ := a
    rcases List.mem_cons.1 hp with rfl | later
    · exact rest.of_old (first.of_part hx)
    · exact ih rest later

/-- What is held at the end was there or belongs to a part. -/
theorem cases (a : AddsAll f ps g) (hx : g x = some v) :
    f x = some v ∨ ∃ p ∈ ps, p x = some v := by
  induction ps generalizing f with
  | nil => exact .inl (by rwa [← a])
  | cons q ps ih =>
    obtain ⟨h, first, rest⟩ := a
    rcases ih rest with old | ⟨p, hp, held⟩
    · rw [first.eq] at old
      cases hq : q x with
      | none =>
        rw [hq] at old
        exact .inl old
      | some w =>
        rw [hq] at old
        exact .inr ⟨q, List.mem_cons_self, hq.trans old⟩
    · exact .inr ⟨p, List.mem_cons_of_mem _ hp, held⟩

end AddsAll

/-- What the last of the partial maps that hold something holds. -/
def lastOf : List (α → Option β) → α → Option β
  | [], _ => none
  | p :: ps, x => (lastOf ps x).or (p x)

section LastOf

variable {p : α → Option β} {ps : List (α → Option β)} {x : α} {v : β}

@[simp] theorem lastOf_nil : lastOf ([] : List (α → Option β)) x = none := rfl

@[simp] theorem lastOf_cons : lastOf (p :: ps) x = (lastOf ps x).or (p x) := rfl

/-- A map overrides a value before the later maps do. -/
theorem getD_lastOf_cons :
    (lastOf (p :: ps) x).getD v = (lastOf ps x).getD ((p x).getD v) := by
  rw [lastOf_cons]
  cases lastOf ps x with
  | none => rfl
  | some w => rfl

end LastOf

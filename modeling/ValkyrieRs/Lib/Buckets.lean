import Mathlib.Data.List.AList
import Mathlib.Tactic.Common

/-!
# A list kept in buckets

A map from keys to lists stands for one list of values when it holds under each key, in order,
what `pick` takes from the values for that key, and no empty list.
-/

namespace Buckets

variable {κ α β : Type}

/-- The list, or nothing when it is empty. -/
def unlessEmpty : List β → Option (List β)
  | [] => none
  | b :: l => some (b :: l)

@[simp] theorem unlessEmpty_eq_none {l : List β} : unlessEmpty l = none ↔ l = [] := by
  cases l <;> simp [unlessEmpty]

@[simp] theorem unlessEmpty_eq_some {l l' : List β} :
    unlessEmpty l = some l' ↔ l = l' ∧ l' ≠ [] := by
  cases l with
  | nil => simp +contextual [unlessEmpty, eq_comm]
  | cons b l =>
    simp only [unlessEmpty, Option.some.injEq, iff_self_and]
    rintro rfl
    exact List.cons_ne_nil _ _

@[simp] theorem getD_unlessEmpty (l : List β) : (unlessEmpty l).getD [] = l := by
  cases l <;> rfl

theorem unlessEmpty_of_ne_nil {l : List β} (h : l ≠ []) : unlessEmpty l = some l :=
  unlessEmpty_eq_some.2 ⟨rfl, h⟩

/-- What is picked from the values kept is what is kept of the values picked. -/
theorem filterMap_filter {keep : α → Bool} {keep' : β → Bool} {pick : α → Option β} (l : List α)
    (agree : ∀ a b, pick a = some b → keep a = keep' b) :
    (l.filter keep).filterMap pick = (l.filterMap pick).filter keep' := by
  induction l with
  | nil => rfl
  | cons a l ih =>
    cases picked : pick a with
    | none =>
      rw [List.filterMap_cons_none picked, ← ih, List.filter_cons]
      split_ifs
      · exact List.filterMap_cons_none picked
      · rfl
    | some b =>
      rw [List.filterMap_cons_some picked, List.filter_cons, List.filter_cons, ← ih, agree a b picked]
      split_ifs
      · exact List.filterMap_cons_some picked
      · rfl

variable [DecidableEq κ]

/-- Append a value to the list of a key. -/
def push (m : AList fun _ : κ => List β) (k : κ) (b : β) : AList fun _ : κ => List β :=
  m.insert k ((m.lookup k).getD [] ++ [b])

/-- The map holds under each key what `pick` takes from the list. -/
def Groups (m : AList fun _ : κ => List β) (pick : κ → α → Option β) (l : List α) : Prop :=
  ∀ k, m.lookup k = unlessEmpty (l.filterMap (pick k))

variable {m : AList fun _ : κ => List β} {pick : κ → α → Option β} {l l' : List α}

theorem groups_nil : Groups (∅ : AList fun _ : κ => List β) pick [] := fun k => AList.lookup_empty k

/-- A value of one key is pushed to its list. -/
theorem Groups.push (h : Groups m pick l) {k : κ} {a : α} {b : β} (here : pick k a = some b)
    (elsewhere : ∀ k' ≠ k, pick k' a = none) : Groups (push m k b) pick (l ++ [a]) := by
  intro k'
  by_cases same : k' = k
  · subst same
    rw [Buckets.push, AList.lookup_insert, h k', getD_unlessEmpty, List.filterMap_append,
      List.filterMap_cons_some here, List.filterMap_nil, unlessEmpty_of_ne_nil (by simp)]
  · rw [Buckets.push, AList.lookup_insert_ne same, h k', List.filterMap_append,
      List.filterMap_cons_none (elsewhere k' same), List.filterMap_nil, List.append_nil]

/-- A value of no key changes no list. -/
theorem Groups.skip (h : Groups m pick l) {a : α} (nowhere : ∀ k, pick k a = none) :
    Groups m pick (l ++ [a]) := by
  intro k
  rw [h k, List.filterMap_append, List.filterMap_cons_none (nowhere k), List.filterMap_nil,
    List.append_nil]

/-- A list from which the same is picked. -/
theorem Groups.of_agree (h : Groups m pick l)
    (agree : ∀ k, l'.filterMap (pick k) = l.filterMap (pick k)) : Groups m pick l' := by
  intro k
  rw [h k, agree k]

/-- The list of one key is replaced. -/
theorem Groups.insert (h : Groups m pick l) {k : κ} {bs : List β} (nonempty : bs ≠ [])
    (here : l'.filterMap (pick k) = bs)
    (elsewhere : ∀ k' ≠ k, l'.filterMap (pick k') = l.filterMap (pick k')) :
    Groups (m.insert k bs) pick l' := by
  intro k'
  by_cases same : k' = k
  · subst same
    rw [AList.lookup_insert, here, unlessEmpty_of_ne_nil nonempty]
  · rw [AList.lookup_insert_ne same, h k', elsewhere k' same]

/-- The list of one key is dropped. -/
theorem Groups.erase (h : Groups m pick l) {k : κ} (here : l'.filterMap (pick k) = [])
    (elsewhere : ∀ k' ≠ k, l'.filterMap (pick k') = l.filterMap (pick k')) :
    Groups (m.erase k) pick l' := by
  intro k'
  by_cases same : k' = k
  · subst same
    rw [AList.lookup_erase, here]
    rfl
  · rw [AList.lookup_erase_ne same, h k', elsewhere k' same]

/-- The list of one key stays empty. -/
theorem Groups.still_empty (h : Groups m pick l) {k : κ} (before : l.filterMap (pick k) = [])
    (here : l'.filterMap (pick k) = [])
    (elsewhere : ∀ k' ≠ k, l'.filterMap (pick k') = l.filterMap (pick k')) :
    Groups m pick l' := by
  refine h.of_agree fun k' => ?_
  by_cases same : k' = k
  · rw [same, here, before]
  · exact elsewhere k' same

end Buckets

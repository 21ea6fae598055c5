import Mathlib.Order.MinMax
import Mathlib.Data.List.Pairwise
import Mathlib.Tactic.Common

/-!
# Labelled half-open segments

A `Segment α β` is a half-open segment `[lo, hi)` of a linear order with a label.  `cut a b` takes
the range `[a, b)` out of a segment and leaves the (at most two) pieces on its sides, `cutAll` does
so for a list of segments, and `subtract` takes every segment of a list out of one range.  The
points left are exactly the points that were there outside the range taken out, with their labels,
and pieces of disjoint segments are disjoint; pieces of segments that follow one another do so too.
`sweep` is the coverage test that walks a list sorted by lower end with a cursor; it answers whether
every point of a range is covered.
-/

/-- A half-open segment `[lo, hi)` with a label. -/
structure Segment (α β : Type) where
  lo : α
  hi : α
  label : β
deriving DecidableEq

namespace Segment

variable {α β : Type} [LinearOrder α]

instance : Membership α (Segment α β) := ⟨fun s x => s.lo ≤ x ∧ x < s.hi⟩

theorem mem_def {s : Segment α β} {x : α} : x ∈ s ↔ s.lo ≤ x ∧ x < s.hi := Iff.rfl

/-- Two segments without a common point. -/
def Apart (s t : Segment α β) : Prop := ∀ x, x ∈ s → x ∉ t

/-- `s` ends where `t` begins, or before. -/
def Before (s t : Segment α β) : Prop := s.hi ≤ t.lo

theorem Apart.symm {s t : Segment α β} (h : s.Apart t) : t.Apart s := fun x ht hs => h x hs ht

/-! ## Taking a range out -/

/-- The pieces of a segment outside `[a, b)`. -/
def cut (a b : α) (s : Segment α β) : List (Segment α β) :=
  if b ≤ s.lo ∨ s.hi ≤ a then [s]
  else (if s.lo < a then [⟨s.lo, a, s.label⟩] else []) ++
    (if b < s.hi then [⟨b, s.hi, s.label⟩] else [])

variable {a b x : α} {s t : Segment α β}

/-- A point is in a piece exactly when it was in the segment and is outside the range. -/
theorem mem_cut : (∃ p ∈ s.cut a b, x ∈ p) ↔ x ∈ s ∧ ¬ (a ≤ x ∧ x < b) := by
  simp only [cut, mem_def]
  split_ifs with clear left right right <;>
    simp only [List.mem_append, List.mem_singleton, List.not_mem_nil, or_false, false_or,
      exists_eq_left, exists_eq_or_imp, false_and, exists_false] <;>
    grind

/-- A piece lies inside its segment. -/
theorem mem_of_mem_cut {p : Segment α β} (h : p ∈ s.cut a b) (hx : x ∈ p) : x ∈ s :=
  (mem_cut.1 ⟨p, h, hx⟩).1

/-- The ends of a piece are ends of its segment or of the range. -/
theorem ends_of_mem_cut {p : Segment α β} (h : p ∈ s.cut a b) :
    (p.lo = s.lo ∨ p.lo = b) ∧ (p.hi = s.hi ∨ p.hi = a) := by
  grind [cut]

theorem within_of_mem_cut {p : Segment α β} (h : p ∈ s.cut a b) : s.lo ≤ p.lo ∧ p.hi ≤ s.hi := by
  grind [cut]

theorem ordered_cut (hab : a ≤ b) : (s.cut a b).Pairwise Before := by
  simp only [cut]
  split_ifs <;> simp [Before, hab]

theorem pairwise_cut (hab : a ≤ b) : (s.cut a b).Pairwise Apart := by
  simp only [cut]
  split_ifs <;> simp only [List.append_nil, List.nil_append, List.Pairwise.nil,
    List.cons_append, List.pairwise_cons, List.mem_singleton, forall_eq, List.not_mem_nil,
    false_imp_iff, implies_true, and_true]
  intro x hx hx'
  exact absurd (hab.trans hx'.1) (not_le.2 hx.2)

/-- The pieces of a list of segments outside `[a, b)`. -/
def cutAll (a b : α) (l : List (Segment α β)) : List (Segment α β) := l.flatMap (cut a b)

variable {l : List (Segment α β)}

theorem mem_cutAll {p : Segment α β} : p ∈ cutAll a b l ↔ ∃ s ∈ l, p ∈ s.cut a b :=
  List.mem_flatMap

theorem covered_cutAll :
    (∃ p ∈ cutAll a b l, x ∈ p) ↔ (∃ s ∈ l, x ∈ s) ∧ ¬ (a ≤ x ∧ x < b) := by
  constructor
  · rintro ⟨p, hp, hx⟩
    obtain ⟨s, hs, hp⟩ := mem_cutAll.1 hp
    obtain ⟨hxs, out⟩ := mem_cut.1 ⟨p, hp, hx⟩
    exact ⟨⟨s, hs, hxs⟩, out⟩
  · rintro ⟨⟨s, hs, hx⟩, out⟩
    obtain ⟨p, hp, hxp⟩ := mem_cut.2 ⟨hx, out⟩
    exact ⟨p, mem_cutAll.2 ⟨s, hs, hp⟩, hxp⟩

/-- Pieces of disjoint segments are disjoint. -/
theorem pairwise_cutAll (hab : a ≤ b) (h : l.Pairwise Apart) : (cutAll a b l).Pairwise Apart := by
  refine List.pairwise_flatMap.2 ⟨fun s _ => pairwise_cut hab, h.imp fun apart p hp q hq x hx hx' =>
    apart x (mem_of_mem_cut hp hx) (mem_of_mem_cut hq hx')⟩

/-- Pieces of segments in order are in order. -/
theorem ordered_cutAll (hab : a ≤ b) (h : l.Pairwise Before) : (cutAll a b l).Pairwise Before := by
  refine List.pairwise_flatMap.2 ⟨fun s _ => ordered_cut hab, h.imp fun {s t} before p hp q hq => ?_⟩
  calc p.hi ≤ s.hi := (within_of_mem_cut hp).2
    _ ≤ t.lo := before
    _ ≤ q.lo := (within_of_mem_cut hq).1

/-- The pieces of `s` outside every segment of `cs`. -/
def subtract (s : Segment α β) (cs : List (Segment α β)) : List (Segment α β) :=
  cs.foldl (fun pieces c => cutAll c.lo c.hi pieces) [s]

@[simp] theorem foldl_cutAll_nil (cs : List (Segment α β)) :
    cs.foldl (fun pieces c => cutAll c.lo c.hi pieces) ([] : List (Segment α β)) = [] := by
  induction cs with
  | nil => rfl
  | cons c cs ih => exact ih

theorem covered_foldl_cutAll (cs : List (Segment α β)) :
    (∃ p ∈ cs.foldl (fun pieces c => cutAll c.lo c.hi pieces) l, x ∈ p) ↔
      (∃ s ∈ l, x ∈ s) ∧ ¬ ∃ c ∈ cs, x ∈ c := by
  induction cs generalizing l with
  | nil => simp
  | cons c cs ih =>
    rw [List.foldl_cons, ih, covered_cutAll]
    simp only [List.mem_cons, exists_eq_or_imp, mem_def, not_or, and_assoc]

/-- A point is left exactly when it is in the segment and in none of those taken out. -/
theorem covered_subtract {cs : List (Segment α β)} :
    (∃ p ∈ s.subtract cs, x ∈ p) ↔ x ∈ s ∧ ¬ ∃ c ∈ cs, x ∈ c := by
  simp [subtract, covered_foldl_cutAll]

theorem forall_foldl_cutAll {P : Segment α β → Prop} (cs : List (Segment α β))
    (step : ∀ c ∈ cs, ∀ s, P s → ∀ p ∈ s.cut c.lo c.hi, P p) (h : ∀ s ∈ l, P s) :
    ∀ p ∈ cs.foldl (fun pieces c => cutAll c.lo c.hi pieces) l, P p := by
  induction cs generalizing l with
  | nil => exact h
  | cons c cs ih =>
    refine ih (fun c' hc' => step c' (by simp [hc'])) fun p hp => ?_
    obtain ⟨s, hs, hp⟩ := mem_cutAll.1 hp
    exact step c (by simp) s (h s hs) p hp

/-- What holds of the segment and is kept by every cut holds of every piece left. -/
theorem forall_subtract {P : Segment α β → Prop} {cs : List (Segment α β)}
    (step : ∀ c ∈ cs, ∀ s, P s → ∀ p ∈ s.cut c.lo c.hi, P p) (h : P s) :
    ∀ p ∈ s.subtract cs, P p :=
  forall_foldl_cutAll cs step (by simpa using h)

/-- A relation that every cut keeps between the pieces holds between the pieces left. -/
theorem pairwise_foldl_cutAll {R : Segment α β → Segment α β → Prop} {cs : List (Segment α β)}
    (step : ∀ c ∈ cs, ∀ l : List (Segment α β), l.Pairwise R → (cutAll c.lo c.hi l).Pairwise R)
    (h : l.Pairwise R) : (cs.foldl (fun pieces c => cutAll c.lo c.hi pieces) l).Pairwise R := by
  induction cs generalizing l with
  | nil => exact h
  | cons c cs ih =>
    exact ih (fun c' hc' => step c' (List.mem_cons_of_mem c hc')) (step c List.mem_cons_self l h)

theorem pairwise_subtract {cs : List (Segment α β)} (ordered : ∀ c ∈ cs, c.lo ≤ c.hi) :
    (s.subtract cs).Pairwise Apart :=
  pairwise_foldl_cutAll (fun c hc _ => pairwise_cutAll (ordered c hc)) (List.pairwise_singleton _ _)

/-- The pieces left are in order. -/
theorem ordered_subtract {cs : List (Segment α β)} (ordered : ∀ c ∈ cs, c.lo ≤ c.hi) :
    (s.subtract cs).Pairwise Before :=
  pairwise_foldl_cutAll (fun c hc _ => ordered_cutAll (ordered c hc)) (List.pairwise_singleton _ _)

/-! ## The coverage sweep -/

/-- Whether `[cursor, stop)` is covered by segments sorted by lower end. -/
def sweep (stop : α) : List (Segment α β) → α → Bool
  | [], cursor => stop ≤ cursor
  | s :: l, cursor =>
    if s.hi ≤ cursor then sweep stop l cursor
    else if cursor < s.lo then false
    else if stop ≤ min s.hi stop then true
    else sweep stop l (min s.hi stop)

/-- On a sorted list the sweep answers whether every point of the range is covered. -/
theorem sweep_iff {stop : α} (sorted : l.Pairwise fun s t => s.lo ≤ t.lo) {cursor : α}
    (h : cursor < stop) :
    sweep stop l cursor ↔ ∀ x, cursor ≤ x → x < stop → ∃ s ∈ l, x ∈ s := by
  induction l generalizing cursor with
  | nil =>
    simp only [sweep, decide_eq_true_eq, List.not_mem_nil, false_and, exists_false]
    exact ⟨fun h' => absurd h (not_lt.2 h'), fun h' => (h' cursor le_rfl h).elim⟩
  | cons s l ih =>
    obtain ⟨first, sorted⟩ := List.pairwise_cons.1 sorted
    simp only [List.mem_cons, exists_eq_or_imp]
    rw [sweep]
    split_ifs with behind gap done
    · -- the segment ends before the cursor and covers no point of the range
      rw [ih sorted h]
      refine forall₃_congr fun x hx _ => ⟨Or.inr, ?_⟩
      rintro (hs | hs)
      · exact absurd (hs.2.trans_le behind) (not_lt.2 hx)
      · exact hs
    · -- no later segment starts early enough to cover the cursor
      simp only [false_iff, not_forall]
      refine ⟨cursor, le_rfl, h, ?_⟩
      rintro (hs | ⟨t, ht, hs⟩)
      · exact absurd hs.1 (not_le.2 gap)
      · exact absurd ((first t ht).trans hs.1) (not_le.2 gap)
    · simp only [true_iff]
      intro x hx hx'
      exact .inl ⟨(not_lt.1 gap).trans hx, hx'.trans_le (done.trans (min_le_left _ _))⟩
    · have short : s.hi < stop := by
        rw [not_le, min_lt_iff] at done
        exact done.resolve_right (lt_irrefl _)
      rw [min_eq_left short.le, ih sorted short]
      constructor
      · intro hl x hx hx'
        by_cases hs : x < s.hi
        · exact .inl ⟨(not_lt.1 gap).trans hx, hs⟩
        · exact .inr (hl x (not_lt.1 hs) hx')
      · intro hl x hx hx'
        rcases hl x ((not_le.1 behind).le.trans hx) hx' with hs | hs
        · exact absurd hs.2 (not_lt.2 hx)
        · exact hs

end Segment

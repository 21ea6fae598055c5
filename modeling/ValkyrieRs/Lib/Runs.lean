import Mathlib.Data.List.Basic
import Mathlib.Data.List.Chain
import ValkyrieRs.Lib.Segment

/-!
# Runs of equal labels

`Fills a b l` says that the segments of `l` are not empty and follow one another without a gap from
`a` to `b`: every point of `[a, b)` is in one of them, and each begins where the one before ends.
`Runs label marked a b l` adds that a segment carries the label of each marked point in it and that
neighbours carry different labels, so that the segments are the longest stretches of one label.
-/

namespace Segment

variable {α β : Type} [LinearOrder α] {a b c x : α} {s : Segment α β} {l : List (Segment α β)}

/-! ## Segments without a gap -/

/-- Non-empty segments that follow one another from `a` to `b`. -/
inductive Fills : α → α → List (Segment α β) → Prop
  | nil (a : α) : Fills a a []
  | cons {s : Segment α β} {b : α} {l : List (Segment α β)} (nonempty : s.lo < s.hi)
      (rest : Fills s.hi b l) : Fills s.lo b (s :: l)

theorem Fills.le (h : Fills a b l) : a ≤ b := by
  induction h with
  | nil => exact le_rfl
  | cons nonempty _ ih => exact nonempty.le.trans ih

/-- Nothing fills an empty range. -/
theorem Fills.eq_nil (h : Fills a a l) : l = [] := by
  cases h with
  | nil => rfl
  | cons nonempty rest => exact absurd rest.le (not_le.2 nonempty)

theorem Fills.nonempty (h : Fills a b l) : ∀ s ∈ l, s.lo < s.hi := by
  induction h with
  | nil => exact fun _ hs => absurd hs List.not_mem_nil
  | cons nonempty _ ih => exact List.forall_mem_cons.2 ⟨nonempty, ih⟩

/-- A point is in a segment exactly when it is in the range. -/
theorem Fills.covered (h : Fills a b l) : (∃ s ∈ l, x ∈ s) ↔ a ≤ x ∧ x < b := by
  induction h with
  | nil a => simp
  | cons nonempty rest ih =>
    rw [List.exists_mem_cons_iff, ih, mem_def]
    constructor
    · rintro (⟨low, high⟩ | ⟨low, high⟩)
      · exact ⟨low, high.trans_le rest.le⟩
      · exact ⟨nonempty.le.trans low, high⟩
    · rintro ⟨low, high⟩
      exact (lt_or_ge x _).imp (fun before => ⟨low, before⟩) fun behind => ⟨behind, high⟩

theorem Fills.head_lo (h : Fills a b l) : ∀ s ∈ l.head?, s.lo = a := by
  intro s hs
  cases h with
  | nil => cases hs
  | cons =>
    cases hs
    rfl

/-- Every segment begins where the one before ends. -/
theorem Fills.isChain (h : Fills a b l) : l.IsChain fun s t => s.hi = t.lo := by
  induction h with
  | nil => exact .nil
  | cons _ rest ih => exact List.isChain_cons.2 ⟨fun t ht => (rest.head_lo t ht).symm, ih⟩

/-- Every segment begins behind those before it. -/
theorem Fills.increasing (h : Fills a b l) : l.Pairwise fun s t => s.lo < t.lo := by
  induction h with
  | nil => exact .nil
  | cons nonempty rest ih =>
    refine .cons (fun t ht => ?_) ih
    exact nonempty.trans_le (rest.covered.1 ⟨t, ht, le_rfl, rest.nonempty t ht⟩).1

/-! ## Labels -/

/-- Segments that fill the range, labelled as the marked points in them, neighbours differently. -/
structure Runs (label : α → β) (marked : α → Prop) (a b : α) (l : List (Segment α β)) : Prop where
  fills : Fills a b l
  labelled : ∀ s ∈ l, ∀ x, marked x → x ∈ s → s.label = label x
  differ : l.IsChain fun s t => s.label ≠ t.label

variable {label : α → β} {marked : α → Prop} {name : β}

theorem Runs.nil (a : α) : Runs label marked a a [] := ⟨.nil a, nofun, .nil⟩

/-- One more run before those that begin with another label. -/
theorem Runs.cons (h : Runs label marked c b l) (nonempty : a < c)
    (labelled : ∀ x, marked x → a ≤ x → x < c → name = label x)
    (differ : ∀ t ∈ l.head?, name ≠ t.label) :
    Runs label marked a b (⟨a, c, name⟩ :: l) where
  fills := .cons (s := ⟨a, c, name⟩) nonempty h.fills
  labelled := List.forall_mem_cons.2 ⟨fun x hx inside => labelled x hx inside.1 inside.2, h.labelled⟩
  differ := List.isChain_cons.2 ⟨differ, h.differ⟩

/-- The first run carries the label of its first point. -/
theorem Runs.head_label (h : Runs label marked a b l) (first : marked a) :
    ∀ t ∈ l.head?, t.label = label a := by
  intro t ht
  have begins := h.fills.head_lo t ht
  have listed := List.mem_of_mem_head? ht
  exact h.labelled t listed a first ⟨begins.le, begins ▸ h.fills.nonempty t listed⟩

end Segment

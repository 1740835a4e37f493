import Mathlib.Algebra.Order.BigOperators.Group.List
import Mathlib.Algebra.Order.Group.Unbundled.Basic
import Mathlib.Tactic.Abel

/-!
# Spans in their order

A list of spans between two bounds, each of which starts no earlier than the one before it ends.
They do not overlap, so together they are no longer than the distance of the bounds.
-/

namespace BleFuzzer

variable {α : Type*}

/-- The spans follow each other between `lo` and `hi`. -/
def Spaced [LE α] : α → List (α × α) → α → Prop
  | lo, [], hi => lo ≤ hi
  | lo, span :: spans, hi => lo ≤ span.1 ∧ span.1 ≤ span.2 ∧ Spaced span.2 spans hi

namespace Spaced

section Preorder

variable [Preorder α] {lo mid hi : α} {spans spans' : List (α × α)}

/-- Spans do not go back. -/
theorem le (h : Spaced lo spans hi) : lo ≤ hi := by
  induction spans generalizing lo with
  | nil => exact h
  | cons span spans ih => exact h.1.trans (h.2.1.trans (ih h.2.2))

/-- Spans follow spans. -/
theorem append (h : Spaced lo spans mid) (h' : Spaced mid spans' hi) :
    Spaced lo (spans ++ spans') hi := by
  induction spans generalizing lo with
  | nil =>
    cases spans' with
    | nil => exact le_trans h h'
    | cons span spans' => exact ⟨le_trans h h'.1, h'.2⟩
  | cons span spans ih => exact ⟨h.1, h.2.1, ih h.2.2⟩

/-- The end may be later. -/
theorem mono (h : Spaced lo spans mid) (hle : mid ≤ hi) : Spaced lo spans hi := by
  have happend := h.append (show Spaced mid [] hi from hle)
  rwa [List.append_nil] at happend

/-- Another span at the end. -/
theorem snoc (h : Spaced lo spans mid) (hle : mid ≤ hi) : Spaced lo (spans ++ [(mid, hi)]) hi :=
  h.append ⟨le_rfl, hle, le_rfl⟩

/-- Every span lies between the bounds. -/
theorem of_mem (h : Spaced lo spans hi) {span : α × α} (hmem : span ∈ spans) :
    lo ≤ span.1 ∧ span.1 ≤ span.2 ∧ span.2 ≤ hi := by
  induction spans generalizing lo with
  | nil => cases hmem
  | cons head spans ih =>
    rcases List.mem_cons.mp hmem with rfl | htail
    · exact ⟨h.1, h.2.1, h.2.2.le⟩
    · obtain ⟨hlo, hspan⟩ := ih h.2.2 htail
      exact ⟨h.1.trans (h.2.1.trans hlo), hspan⟩

end Preorder

variable [AddCommGroup α] [PartialOrder α] [IsOrderedAddMonoid α] {lo hi : α} {spans : List (α × α)}

/-- Together the spans are no longer than the distance of the bounds. -/
theorem sum_le (h : Spaced lo spans hi) : (spans.map fun s => s.2 - s.1).sum ≤ hi - lo := by
  induction spans generalizing lo with
  | nil => exact sub_nonneg.mpr h
  | cons span spans ih =>
    calc ((span :: spans).map fun s => s.2 - s.1).sum
        = (span.2 - span.1) + (spans.map fun s => s.2 - s.1).sum := by
          rw [List.map_cons, List.sum_cons]
      _ ≤ (span.2 - span.1) + (hi - span.2) := add_le_add_right (ih h.2.2) _
      _ = hi - span.1 := by abel
      _ ≤ hi - lo := sub_le_sub_left h.1 _

/-- The spans together are not negative. -/
theorem sum_nonneg (h : Spaced lo spans hi) : 0 ≤ (spans.map fun s => s.2 - s.1).sum := by
  apply List.sum_nonneg
  intro d hd
  obtain ⟨span, hmem, rfl⟩ := List.mem_map.mp hd
  exact sub_nonneg.mpr (h.of_mem hmem).2.1

end Spaced

end BleFuzzer

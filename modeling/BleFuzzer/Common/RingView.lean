import Mathlib.Data.Nat.ModEq

/-!
# The queue held in a circular buffer

A circular buffer of `cap` cells is read through a tail position: `ringView cell cap tail n` lists
the `n` cells from `tail` on, wrapping at `cap`. Writing the cell after the last one appends, and
moving the tail drops the first, for every position of the wrap.
-/

namespace BleFuzzer

variable {α : Type*}

/-- The `n` cells from `tail` on, wrapping at `cap`. -/
def ringView (cell : ℕ → α) (cap tail n : ℕ) : List α :=
  (List.range n).map fun o => cell ((tail + o) % cap)

@[simp] theorem ringView_length (cell : ℕ → α) (cap tail n : ℕ) :
    (ringView cell cap tail n).length = n := by
  simp [ringView]

/-- The cells are read from the tail on, wrapping around. -/
theorem ringView_getElem? (cell : ℕ → α) (cap tail n o : ℕ) (h : o < n) :
    (ringView cell cap tail n)[o]? = some (cell ((tail + o) % cap)) := by
  simp [ringView, List.getElem?_range h]

/-- Offsets below the capacity name distinct cells. -/
theorem ringIndex_ne {cap tail a b : ℕ} (hab : a < b) (hb : b < cap) :
    (tail + a) % cap ≠ (tail + b) % cap := by
  intro h
  have hmod : a ≡ b [MOD cap] := Nat.ModEq.add_left_cancel' tail h
  have heq : a = b := hmod.eq_of_lt_of_lt (by omega) hb
  omega

/-- Writing the first free cell appends to the view. -/
theorem ringView_push (cell cell' : ℕ → α) (cap tail n : ℕ) (hn : n < cap)
    (hother : ∀ i, i ≠ (tail + n) % cap → cell' i = cell i) :
    ringView cell' cap tail (n + 1) = ringView cell cap tail n ++ [cell' ((tail + n) % cap)] := by
  have hkeep : ringView cell' cap tail n = ringView cell cap tail n := by
    apply List.map_congr_left
    intro o ho
    exact hother _ (ringIndex_ne (List.mem_range.mp ho) hn)
  rw [← hkeep]
  simp [ringView, List.range_succ]

/-- Moving the tail by one drops the first cell of the view. -/
theorem ringView_pop (cell : ℕ → α) (cap tail n : ℕ) :
    ringView cell cap tail (n + 1) =
      cell (tail % cap) :: ringView cell cap ((tail + 1) % cap) n := by
  rw [ringView, List.range_succ_eq_map, List.map_cons, List.map_map, Nat.add_zero]
  congr 1
  apply List.map_congr_left
  intro o _
  simp only [Function.comp_apply, Nat.succ_eq_add_one, Nat.mod_add_mod]
  congr 2
  omega

end BleFuzzer

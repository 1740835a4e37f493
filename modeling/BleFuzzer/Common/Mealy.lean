import Mathlib.Data.List.Basic

/-!
# Mealy machines

The machines that automata learning looks for: every input is answered with one output.
-/

namespace BleFuzzer

/-- A machine with states `σ` that answers inputs `ι` with outputs `ο`. -/
structure Mealy (σ ι ο : Type*) where
  init : σ
  next : σ → ι → σ
  emit : σ → ι → ο

namespace Mealy

variable {σ ι ο : Type*} (M : Mealy σ ι ο)

/-- The state after some inputs. -/
def after (s : σ) (xs : List ι) : σ := xs.foldl M.next s

/-- The outputs for some inputs. -/
def word : σ → List ι → List ο
  | _, [] => []
  | s, x :: xs => M.emit s x :: word (M.next s x) xs

variable {M}

/-- The state after one more input. -/
theorem after_snoc (s : σ) (xs : List ι) (x : ι) :
    M.after s (xs ++ [x]) = M.next (M.after s xs) x :=
  List.foldl_append

/-- The outputs with one more input. -/
theorem word_snoc (s : σ) (xs : List ι) (x : ι) :
    M.word s (xs ++ [x]) = M.word s xs ++ [M.emit (M.after s xs) x] := by
  induction xs generalizing s with
  | nil => rfl
  | cons y xs ih =>
    show M.emit s y :: M.word (M.next s y) (xs ++ [x]) = _
    rw [ih]
    rfl

end Mealy

end BleFuzzer

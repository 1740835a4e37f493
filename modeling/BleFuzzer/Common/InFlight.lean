import Mathlib.Data.Set.Function
import Mathlib.Order.Interval.Set.Defs
import Mathlib.Data.List.Nodup

/-!
# Messages that are numbered by counting

Two ends of a first-in-first-out channel that both count the messages, so that no number is sent.
Only some messages are counted. `InFlight` relates the counters of the two ends to the frames
between them, and has one rule for each end of the channel: a message is put in with the sender's
count, and the frame at the head opens with the receiver's.

`UsedOnce` is about two such senders that label their messages from the counts, each with labels of
its own.
-/

namespace BleFuzzer

variable {M F N : Type*}

/-- The messages `ms` travel in the frames `fs`, oldest first: the receiver has counted up to `n`
and the sender up to `k`, and each frame opens with the count its message was put in with. -/
inductive InFlight (Opens : ℕ → M → F → Prop) (counts : M → Bool) : ℕ → List M → List F → ℕ → Prop
  | nil (n : ℕ) : InFlight Opens counts n [] [] n
  | cons {n k : ℕ} {m : M} {f : F} {ms : List M} {fs : List F} : Opens n m f →
      InFlight Opens counts (n + (counts m).toNat) ms fs k →
      InFlight Opens counts n (m :: ms) (f :: fs) k

namespace InFlight

variable {Opens : ℕ → M → F → Prop} {counts : M → Bool} {n k : ℕ} {ms : List M} {fs : List F}

/-- The sender puts in a message. -/
theorem snoc (h : InFlight Opens counts n ms fs k) {m : M} {f : F} (hf : Opens k m f) :
    InFlight Opens counts n (ms ++ [m]) (fs ++ [f]) (k + (counts m).toNat) := by
  induction h with
  | nil n => exact .cons hf (.nil _)
  | cons hf' _ ih => exact .cons hf' (ih hf)

/-- The receiver takes the frame at the head. -/
theorem of_cons {f : F} (h : InFlight Opens counts n ms (f :: fs) k) :
    ∃ m ms', ms = m :: ms' ∧ Opens n m f ∧
      InFlight Opens counts (n + (counts m).toNat) ms' fs k := by
  cases h with
  | cons hf hrest => exact ⟨_, _, rfl, hf, hrest⟩

/-- With no frame between them, both ends have counted the same messages. -/
theorem of_nil (h : InFlight Opens counts n ms [] k) : ms = [] ∧ n = k := by
  cases h
  exact ⟨rfl, rfl⟩

/-- The sender is ahead by the counted messages on their way. -/
theorem count_eq (h : InFlight Opens counts n ms fs k) : k = n + ms.countP counts := by
  induction h with
  | nil n => rfl
  | @cons n k m f ms fs _ _ ih =>
    rw [ih, List.countP_cons, Nat.add_assoc, Nat.add_comm (Bool.toNat _)]
    cases counts m <;> rfl

end InFlight

/-! ## Labels made from the counts -/

/-- Of the labels `f 0, f 1, …` those below `a` may have been used, and of `g 0, g 1, …` those below
`b`, and none of them twice. -/
structure UsedOnce (f g : ℕ → N) (a b : ℕ) (used : List N) : Prop where
  below : ∀ x ∈ used, (∃ i < a, x = f i) ∨ ∃ j < b, x = g j
  nodup : used.Nodup

/-- Two numberings that give no label twice as long as the counts stay below a bound. -/
structure Apart (f g : ℕ → N) (bound : ℕ) : Prop where
  left : Set.InjOn f (Set.Iio bound)
  right : Set.InjOn g (Set.Iio bound)
  disjoint : ∀ i j, f i ≠ g j

namespace UsedOnce

variable {f g : ℕ → N} {a b bound : ℕ} {used : List N}

/-- No label has been used at first. -/
theorem nil (a b : ℕ) : UsedOnce f g a b [] :=
  ⟨List.forall_mem_nil _, List.nodup_nil⟩

/-- The counts may go on without their labels being used. -/
theorem mono (h : UsedOnce f g a b used) {a' b' : ℕ} (ha : a ≤ a') (hb : b ≤ b') :
    UsedOnce f g a' b' used := by
  refine ⟨fun x hx => ?_, h.nodup⟩
  rcases h.below x hx with ⟨i, hi, rfl⟩ | ⟨j, hj, rfl⟩
  · exact .inl ⟨i, hi.trans_le ha, rfl⟩
  · exact .inr ⟨j, hj.trans_le hb, rfl⟩

/-- The next label of the first numbering. -/
theorem left (h : UsedOnce f g a b used) (hapart : Apart f g bound) (ha : a < bound) :
    UsedOnce f g (a + 1) b (used ++ [f a]) := by
  constructor
  · intro x hx
    rcases List.mem_append.mp hx with hold | hnew
    · exact (h.mono a.le_succ le_rfl).below x hold
    · exact .inl ⟨a, a.lt_succ_self, List.mem_singleton.mp hnew⟩
  · refine h.nodup.append (List.nodup_singleton _) (List.disjoint_singleton.mpr fun hused => ?_)
    rcases h.below _ hused with ⟨i, hi, heq⟩ | ⟨j, -, heq⟩
    · exact hi.ne' (hapart.left ha (hi.trans ha) heq)
    · exact hapart.disjoint a j heq

/-- The next label of the second numbering. -/
theorem right (h : UsedOnce f g a b used) (hapart : Apart f g bound) (hb : b < bound) :
    UsedOnce f g a (b + 1) (used ++ [g b]) := by
  constructor
  · intro x hx
    rcases List.mem_append.mp hx with hold | hnew
    · exact (h.mono le_rfl b.le_succ).below x hold
    · exact .inr ⟨b, b.lt_succ_self, List.mem_singleton.mp hnew⟩
  · refine h.nodup.append (List.nodup_singleton _) (List.disjoint_singleton.mpr fun hused => ?_)
    rcases h.below _ hused with ⟨i, -, heq⟩ | ⟨j, hj, heq⟩
    · exact hapart.disjoint i b heq.symm
    · exact hj.ne' (hapart.right hb (hj.trans hb) heq)

end UsedOnce

end BleFuzzer

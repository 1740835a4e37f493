import Mathlib.Data.List.Basic

/-!
# Runs of event systems

A system with guarded events whose steps may fail. A run is any interleaving of enabled events, so a
statement about all runs is a statement about every schedule. `Run.invariant` lifts a fact preserved
by one step to all reachable states, and `safe_of_invariant` turns an invariant under which no
enabled step fails into the absence of failures in every run.
-/

namespace BleFuzzer

/-- A composition that does not fail is made of two computations that do not fail. -/
theorem exists_of_bind_ok {ε α β : Type} {x : Except ε α} {f : α → Except ε β} {b : β}
    (h : (x >>= f) = .ok b) : ∃ a, x = .ok a ∧ f a = .ok b := by
  cases x with
  | error e => cases h
  | ok a => exact ⟨a, rfl, h⟩

/-- A system with states `σ`, events `ε` and failures `φ`. -/
structure System (σ ε φ : Type*) where
  enabled : σ → ε → Prop
  step : σ → ε → Except φ σ

namespace System

variable {σ ε φ : Type*} (S : System σ ε φ)

/-- The enabled events `es`, none of which fails, lead from one state to another. -/
inductive Run : σ → List ε → σ → Prop
  | nil (s : σ) : Run s [] s
  | snoc {s t u : σ} {es : List ε} {e : ε} :
      Run s es t → S.enabled t e → S.step t e = .ok u → Run s (es ++ [e]) u

/-- No enabled event fails in any state that a run reaches. -/
def Safe (s : σ) : Prop :=
  ∀ es t e, S.Run s es t → S.enabled t e → ∃ u, S.step t e = .ok u

/-- The same system under a further condition on its steps. -/
def restrict (C : σ → ε → Prop) : System σ ε φ :=
  { S with enabled := fun s e => S.enabled s e ∧ C s e }

instance (C : σ → ε → Prop) [∀ s e, Decidable (S.enabled s e)] [∀ s e, Decidable (C s e)] (s : σ)
    (e : ε) : Decidable ((S.restrict C).enabled s e) :=
  inferInstanceAs (Decidable (_ ∧ _))

/-- Execute a list of events, as far as they are enabled and do not fail. -/
def exec [∀ s e, Decidable (S.enabled s e)] : σ → List ε → Option σ
  | s, [] => some s
  | s, e :: es =>
    if S.enabled s e then
      match S.step s e with
      | .ok t => exec t es
      | .error _ => none
    else
      none

variable {S}

/-- One step is a run. -/
theorem Run.single {s t : σ} {e : ε} (hen : S.enabled s e) (hstep : S.step s e = .ok t) :
    S.Run s [e] t :=
  .snoc (.nil s) hen hstep

/-- Runs can be composed. -/
theorem Run.append {s t u : σ} {es es' : List ε} (h : S.Run s es t) (h' : S.Run t es' u) :
    S.Run s (es ++ es') u := by
  induction h' with
  | nil => simpa using h
  | snoc _ hen hstep ih =>
    rw [← List.append_assoc]
    exact .snoc ih hen hstep

/-- An execution is a run. -/
theorem Run.of_exec [∀ s e, Decidable (S.enabled s e)] {s t : σ} {es : List ε}
    (h : S.exec s es = some t) : S.Run s es t := by
  induction es generalizing s with
  | nil =>
    obtain rfl := Option.some.inj h
    exact .nil s
  | cons e es ih =>
    rw [exec] at h
    split at h
    case isFalse => cases h
    case isTrue hen =>
      split at h
      case h_1 u hstep => exact (Run.single hen hstep).append (ih h)
      case h_2 => cases h

/-- A fact preserved by every enabled step holds in every state of a run. -/
theorem Run.invariant {Inv : σ → Prop}
    (hpres : ∀ s e t, Inv s → S.enabled s e → S.step s e = .ok t → Inv t)
    {s t : σ} {es : List ε} (h : S.Run s es t) (h0 : Inv s) : Inv t := by
  induction h with
  | nil => exact h0
  | snoc _ hen hstep ih => exact hpres _ _ _ ih hen hstep

/-- The last step of a run. -/
theorem run_snoc_iff {s u : σ} {es : List ε} {e : ε} :
    S.Run s (es ++ [e]) u ↔ ∃ t, S.Run s es t ∧ S.enabled t e ∧ S.step t e = .ok u := by
  refine ⟨fun h => ?_, fun ⟨t, hrun, hen, hstep⟩ => .snoc hrun hen hstep⟩
  generalize hes : es ++ [e] = es' at h
  cases h with
  | nil => simp at hes
  | snoc hrun hen hstep =>
    obtain ⟨rfl, hlast⟩ := List.append_inj' hes rfl
    obtain rfl := List.head_eq_of_cons_eq hlast
    exact ⟨_, hrun, hen, hstep⟩

/-- The events determine where a run ends. -/
theorem Run.unique {s t t' : σ} {es : List ε} (h : S.Run s es t) (h' : S.Run s es t') : t = t' := by
  induction h generalizing t' with
  | nil =>
    generalize hes : ([] : List ε) = es' at h'
    cases h' with
    | nil => rfl
    | snoc => simp at hes
  | snoc _ _ hstep ih =>
    obtain ⟨u, hrun, -, hstep'⟩ := run_snoc_iff.mp h'
    obtain rfl := ih hrun
    exact Except.ok.inj (hstep.symm.trans hstep')

/-- A run under a further condition is a run. -/
theorem Run.of_restrict {C : σ → ε → Prop} {s t : σ} {es : List ε} (h : (S.restrict C).Run s es t) :
    S.Run s es t := by
  induction h with
  | nil => exact .nil _
  | snoc _ hen hstep ih => exact .snoc ih hen.1 hstep

/-- A fact that each step keeps exactly under a further condition holds at the end of exactly the
runs all of whose steps meet it. -/
theorem Run.restrict_iff {Inv P : σ → Prop} {C : σ → ε → Prop}
    (hpres : ∀ s e t, Inv s → S.enabled s e → S.step s e = .ok t → Inv t)
    (hstep : ∀ s e t, Inv s → S.enabled s e → S.step s e = .ok t → (P t ↔ P s ∧ C s e))
    {s t : σ} {es : List ε} (h : S.Run s es t) (h0 : Inv s) (hP : P s) :
    P t ↔ (S.restrict C).Run s es t := by
  induction h with
  | nil => exact iff_of_true hP (.nil _)
  | snoc hrun hen hlast ih =>
    rw [hstep _ _ _ (hrun.invariant hpres h0) hen hlast, ih, run_snoc_iff]
    constructor
    · rintro ⟨hrun', hC⟩
      exact ⟨_, hrun', ⟨hen, hC⟩, hlast⟩
    · rintro ⟨t', hrun', ⟨-, hC⟩, -⟩
      obtain rfl := hrun.unique hrun'.of_restrict
      exact ⟨hrun', hC⟩

/-- A system whose invariant keeps every enabled step from failing is safe. -/
theorem safe_of_invariant {Inv : σ → Prop}
    (hpres : ∀ s e t, Inv s → S.enabled s e → S.step s e = .ok t → Inv t)
    (hprog : ∀ s e, Inv s → S.enabled s e → ∃ t, S.step s e = .ok t)
    {s : σ} (h0 : Inv s) : S.Safe s :=
  fun _ _ _ hrun hen => hprog _ _ (hrun.invariant hpres h0) hen

end System

end BleFuzzer

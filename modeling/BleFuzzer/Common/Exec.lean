import Mathlib.Data.List.Chain

/-!
# Imperative programs and what can be said about their runs

A program over states `σ` that may raise an `ε` and otherwise returns an `α`. Its outcome lists
every state it visits, so that a statement can speak about what happens between two calls and on the
way to an exception.

Four judgements, each with one rule for each construct of the language:

* `Triple P T m Q`: from a state with `P`, every assignment of `m` is within the relation `T`, and
  if `m` returns it does so with `Q`. `T` is what a caller can rely on at every moment, exceptions
  included.
* `Ends P T m Q E`: in addition, where `m` raises, it leaves a state with `E`.
* `Raises P C m`: from a state with `P`, every exception of `m` is one that `C` allows in a state of
  the run.
* `Alike P B m R`: from two states related by `P`, `m` behaves alike and ends in states related by
  `R`, unless the first run ends in `B`.
-/

namespace BleFuzzer

/-- What a program does from some state: how it ends, and the states it visits on the way. -/
structure Outcome (σ ε α : Type) where
  result : Except ε α
  visited : List σ

/-- A program. -/
def Exec (σ ε α : Type) := σ → Outcome σ ε α

namespace Exec

variable {σ ε α β : Type}

/-- The state a program ends in. -/
def final (m : Exec σ ε α) (s : σ) : σ := (m s).visited.getLastD s

/-- The result a program ends with. -/
def result (m : Exec σ ε α) (s : σ) : Except ε α := (m s).result

protected def pure (a : α) : Exec σ ε α := fun _ => ⟨.ok a, []⟩

protected def bind (m : Exec σ ε α) (f : α → Exec σ ε β) : Exec σ ε β := fun s =>
  match (m s).result with
  | .ok a => ⟨(f a (m.final s)).result, (m s).visited ++ (f a (m.final s)).visited⟩
  | .error e => ⟨.error e, (m s).visited⟩

instance : Monad (Exec σ ε) where
  pure := Exec.pure
  bind := Exec.bind

/-- The current state. -/
def get : Exec σ ε σ := fun s => ⟨.ok s, []⟩

/-- Assign a new state. -/
def modify (f : σ → σ) : Exec σ ε Unit := fun s => ⟨.ok (), [f s]⟩

/-- Raise an exception. -/
def throw (e : ε) : Exec σ ε α := fun _ => ⟨.error e, []⟩

/-- Run a program, and return how it ends. -/
def attempt (m : Exec σ ε α) : Exec σ ε (Except ε α) := fun s => ⟨.ok (m s).result, (m s).visited⟩

/-- Evaluate a fallible expression. -/
def lift : Except ε α → Exec σ ε α
  | .ok a => Exec.pure a
  | .error e => throw e

@[simp] theorem pure_result (a : α) (s : σ) : (pure a : Exec σ ε α).result s = .ok a := rfl

@[simp] theorem pure_final (a : α) (s : σ) : (pure a : Exec σ ε α).final s = s := rfl

@[simp] theorem get_result (s : σ) : (get : Exec σ ε σ).result s = .ok s := rfl

@[simp] theorem get_final (s : σ) : (get : Exec σ ε σ).final s = s := rfl

@[simp] theorem modify_result (f : σ → σ) (s : σ) :
    (modify f : Exec σ ε Unit).result s = .ok () := rfl

@[simp] theorem modify_final (f : σ → σ) (s : σ) : (modify f : Exec σ ε Unit).final s = f s := rfl

@[simp] theorem throw_result (e : ε) (s : σ) : (throw e : Exec σ ε α).result s = .error e := rfl

@[simp] theorem throw_final (e : ε) (s : σ) : (throw e : Exec σ ε α).final s = s := rfl

/-- The last state of two lists is that of the second, if it has one. -/
private theorem getLastD_append (xs ys : List σ) (s : σ) :
    (xs ++ ys).getLastD s = ys.getLastD (xs.getLastD s) := by
  induction xs generalizing s with
  | nil => rfl
  | cons x xs ih => rw [List.cons_append, List.getLastD_cons, List.getLastD_cons, ih]

/-- After a return, a composition goes on with its second part. -/
theorem bind_ok {m : Exec σ ε α} {f : α → Exec σ ε β} {s : σ} {a : α} (h : m.result s = .ok a) :
    (m >>= f).result s = (f a).result (m.final s) ∧ (m >>= f).final s = (f a).final (m.final s) ∧
      ((m >>= f) s).visited = (m s).visited ++ (f a (m.final s)).visited := by
  have hbind : (m >>= f) s =
      ⟨(f a (m.final s)).result, (m s).visited ++ (f a (m.final s)).visited⟩ := by
    show Exec.bind m f s = _
    rw [Exec.bind, show (m s).result = .ok a from h]
  refine ⟨by rw [result, hbind]; rfl, ?_, by rw [hbind]⟩
  rw [final, hbind]
  exact getLastD_append _ _ _

/-- After an exception, it ends. -/
theorem bind_error {m : Exec σ ε α} {f : α → Exec σ ε β} {s : σ} {e : ε}
    (h : m.result s = .error e) :
    (m >>= f).result s = .error e ∧ (m >>= f).final s = m.final s ∧
      ((m >>= f) s).visited = (m s).visited := by
  have hbind : (m >>= f) s = ⟨.error e, (m s).visited⟩ := by
    show Exec.bind m f s = _
    rw [Exec.bind, show (m s).result = .error e from h]
  exact ⟨by rw [result, hbind], by rw [final, hbind, final], by rw [hbind]⟩

/-- An assignment and then a program. -/
theorem modify_bind_final (f : σ → σ) (m : Exec σ ε α) (s : σ) :
    (modify f >>= fun _ => m).final s = m.final (f s) :=
  (bind_ok (f := fun _ => m) (modify_result f s)).2.1

/-- What comes last and assigns nothing makes no difference to where a program ends. -/
theorem bind_final_of_keeps {m : Exec σ ε α} {f : α → Exec σ ε β}
    (hf : ∀ a s, (f a).final s = s) (s : σ) : (m >>= f).final s = m.final s := by
  cases h : m.result s with
  | ok a => exact (bind_ok (f := f) h).2.1.trans (hf a _)
  | error e => exact (bind_error (f := f) h).2.1

/-- Composition is associative, also in the states that are visited. -/
theorem bind_assoc {γ : Type} (m : Exec σ ε α) (f : α → Exec σ ε β) (g : β → Exec σ ε γ) :
    m >>= f >>= g = m >>= fun a => f a >>= g := by
  funext s
  have hbind {δ : Type} (m : Exec σ ε δ) (f : δ → Exec σ ε γ) (s : σ) : (m >>= f) s =
      ⟨(m >>= f).result s, ((m >>= f) s).visited⟩ := rfl
  rw [hbind, hbind m]
  cases h : m.result s with
  | error e =>
    obtain ⟨hres, hfin, hvis⟩ := bind_error (f := f) h
    obtain ⟨hres', -, hvis'⟩ := bind_error (f := fun a => f a >>= g) h
    obtain ⟨hres'', -, hvis''⟩ := bind_error (f := g) hres
    rw [hres', hvis', hres'', hvis'', hvis]
  | ok a =>
    obtain ⟨hres, hfin, hvis⟩ := bind_ok (f := f) h
    obtain ⟨hres', -, hvis'⟩ := bind_ok (f := fun a => f a >>= g) h
    rw [hres', hvis']
    cases h' : (f a).result (m.final s) with
    | error e =>
      obtain ⟨hres₁, -, hvis₁⟩ := bind_error (f := g) (hres.trans h')
      obtain ⟨hres₂, -, hvis₂⟩ := bind_error (f := g) h'
      rw [hres₁, hvis₁, hres₂, hvis₂, hvis]
    | ok b =>
      obtain ⟨hres₁, -, hvis₁⟩ := bind_ok (f := g) (hres.trans h')
      obtain ⟨hres₂, -, hvis₂⟩ := bind_ok (f := g) h'
      rw [hres₁, hvis₁, hres₂, hvis₂, hvis, hfin, List.append_assoc]

/-! ## Single runs -/

/-- From `s`, the program returns `a` and ends in `t`. -/
def Returns (m : Exec σ ε α) (s : σ) (a : α) (t : σ) : Prop := m.result s = .ok a ∧ m.final s = t

/-- `pure` returns its value at once. -/
theorem Returns.pure (a : α) (s : σ) : Returns (pure a : Exec σ ε α) s a s := ⟨rfl, rfl⟩

/-- `get` returns the state. -/
theorem Returns.get (s : σ) : Returns (get : Exec σ ε σ) s s s := ⟨rfl, rfl⟩

/-- `modify` ends in the new state. -/
theorem Returns.modify (f : σ → σ) (s : σ) : Returns (modify f : Exec σ ε Unit) s () (f s) :=
  ⟨rfl, rfl⟩

/-- An expression without an exception returns its value. -/
theorem Returns.lift {x : Except ε α} {a : α} (h : x = .ok a) (s : σ) :
    Returns (lift x : Exec σ ε α) s a s := by
  rw [h]
  exact ⟨rfl, rfl⟩

/-- Two runs that return make one. -/
theorem Returns.bind {m : Exec σ ε α} {f : α → Exec σ ε β} {s t u : σ} {a : α} {b : β}
    (hm : Returns m s a t) (hf : Returns (f a) t b u) : Returns (m >>= f) s b u := by
  obtain ⟨hres, hfin, -⟩ := bind_ok (f := f) hm.1
  rw [hm.2] at hres hfin
  exact ⟨hres.trans hf.1, hfin.trans hf.2⟩

/-- A run of a composition that returns is made of two runs that return. -/
theorem Returns.of_bind {m : Exec σ ε α} {f : α → Exec σ ε β} {s u : σ} {b : β}
    (h : Returns (m >>= f) s b u) : ∃ a t, Returns m s a t ∧ Returns (f a) t b u := by
  cases hm : m.result s with
  | ok a =>
    obtain ⟨hres, hfin, -⟩ := bind_ok (f := f) hm
    exact ⟨a, m.final s, ⟨hm, rfl⟩, hres.symm.trans h.1, hfin.symm.trans h.2⟩
  | error e => exact nomatch (bind_error (f := f) hm).1.symm.trans h.1

/-- A program whose result is not an exception returns. -/
theorem Returns.of_isOk {m : Exec σ ε α} {s : σ} (h : (m.result s).isOk = true) :
    ∃ a, Returns m s a (m.final s) := by
  cases hm : m.result s with
  | ok a => exact ⟨a, hm, rfl⟩
  | error e =>
    rw [hm] at h
    cases h

/-- All that `pure` can do. -/
theorem Returns.of_pure {a b : α} {s t : σ} (h : Returns (Pure.pure a : Exec σ ε α) s b t) :
    a = b ∧ s = t :=
  ⟨Except.ok.inj h.1, h.2⟩

/-- All that `get` can do. -/
theorem Returns.of_get {s a t : σ} (h : Returns (Exec.get : Exec σ ε σ) s a t) : s = a ∧ s = t :=
  ⟨Except.ok.inj h.1, h.2⟩

/-- All that `modify` can do. -/
theorem Returns.of_modify {f : σ → σ} {s t : σ} {a : Unit}
    (h : Returns (Exec.modify f : Exec σ ε Unit) s a t) : f s = t :=
  h.2

/-- An expression that returns had no exception. -/
theorem Returns.of_lift {x : Except ε α} {s t : σ} {a : α}
    (h : Returns (Exec.lift x : Exec σ ε α) s a t) : x = .ok a ∧ s = t := by
  cases x with
  | ok b => exact ⟨h.1, h.2⟩
  | error e => cases h.1

/-- `throw` does not return. -/
theorem Returns.not_throw {e : ε} {s t : σ} {a : α}
    (h : Returns (Exec.throw e : Exec σ ε α) s a t) : False :=
  nomatch h.1

/-! ## Triples -/

/-- From a state with `P`, every assignment is within `T`, and a return establishes `Q`. -/
def Triple (P : σ → Prop) (T : σ → σ → Prop) (m : Exec σ ε α) (Q : α → σ → Prop) : Prop :=
  ∀ s, P s → List.IsChain T (s :: (m s).visited) ∧ ∀ a, m.result s = .ok a → Q a (m.final s)

section Triple

variable {P P' : σ → Prop} {T T' : σ → σ → Prop} {Q Q' : α → σ → Prop}

/-- Assignments within a relation may be followed by others. -/
private theorem isChain_append {s : σ} {xs ys : List σ} (hxs : List.IsChain T (s :: xs))
    (hys : List.IsChain T (xs.getLastD s :: ys)) : List.IsChain T (s :: (xs ++ ys)) := by
  induction xs generalizing s with
  | nil => exact hys
  | cons x xs ih =>
    rw [List.isChain_cons_cons] at hxs
    rw [List.getLastD_cons] at hys
    rw [List.cons_append, List.isChain_cons_cons]
    exact ⟨hxs.1, ih hxs.2 hys⟩

/-- The rule for `pure`: its postcondition is its precondition. -/
theorem Triple.pure {a : α} (h : ∀ s, P s → Q a s) :
    Triple P T (pure a : Exec σ ε α) Q := by
  intro s hs
  refine ⟨List.isChain_singleton s, fun b hb => ?_⟩
  obtain rfl : a = b := Except.ok.inj hb
  exact h s hs

/-- The rule of composition. -/
theorem Triple.bind {R : β → σ → Prop} {m : Exec σ ε α} {f : α → Exec σ ε β}
    (hm : Triple P T m Q) (hf : ∀ a, Triple (Q a) T (f a) R) : Triple P T (m >>= f) R := by
  intro s hs
  obtain ⟨hchain, hpost⟩ := hm s hs
  cases hresult : m.result s with
  | ok a =>
    obtain ⟨hres, hfin, hvis⟩ := bind_ok (f := f) hresult
    obtain ⟨hchain', hpost'⟩ := hf a _ (hpost a hresult)
    rw [hres, hfin, hvis]
    exact ⟨isChain_append hchain hchain', hpost'⟩
  | error e =>
    obtain ⟨hres, -, hvis⟩ := bind_error (f := f) hresult
    rw [hres, hvis]
    exact ⟨hchain, fun b hb => nomatch hb⟩

/-- A program may be verified from each state on its own. -/
theorem Triple.of_eq {m : Exec σ ε α} (h : ∀ s, P s → Triple (· = s) T m Q) : Triple P T m Q :=
  fun s hs => h s hs s rfl

/-- The rule for reading the state, which fixes it for what follows. -/
theorem Triple.get_bind {f : σ → Exec σ ε α} (h : ∀ s, P s → Triple (· = s) T (f s) Q) :
    Triple P T (get >>= f) Q := by
  refine Triple.bind (Q := fun a s => a = s ∧ P s) ?_ ?_
  · intro s hs
    refine ⟨List.isChain_singleton s, fun a ha => ?_⟩
    obtain rfl : s = a := Except.ok.inj ha
    exact ⟨rfl, hs⟩
  · rintro a s ⟨rfl, hs⟩
    exact h a hs a rfl

/-- The rule for an assignment: it is within the relation and establishes the postcondition. -/
theorem Triple.modify {f : σ → σ} {Q : Unit → σ → Prop} (h : ∀ s, P s → T s (f s) ∧ Q () (f s)) :
    Triple P T (modify f : Exec σ ε Unit) Q := by
  intro s hs
  obtain ⟨hstep, hpost⟩ := h s hs
  refine ⟨?_, fun _ _ => hpost⟩
  exact List.isChain_cons_cons.mpr ⟨hstep, List.isChain_singleton _⟩

/-- A program that raises satisfies every postcondition. -/
theorem Triple.throw {e : ε} : Triple P T (throw e : Exec σ ε α) Q :=
  fun s _ => ⟨List.isChain_singleton s, fun _ h => nomatch h⟩

/-- The rule for a fallible expression. -/
theorem Triple.lift {x : Except ε α} (h : ∀ a, x = .ok a → ∀ s, P s → Q a s) :
    Triple P T (lift x : Exec σ ε α) Q := by
  cases x with
  | ok a => exact Triple.pure (h a rfl)
  | error e => exact Triple.throw

/-- The rule of consequence, for all three parts. -/
theorem Triple.conseq {m : Exec σ ε α} (h : Triple P T m Q) (hP : ∀ s, P' s → P s)
    (hT : ∀ s t, T s t → T' s t) (hQ : ∀ a s, Q a s → Q' a s) : Triple P' T' m Q' := by
  intro s hs
  obtain ⟨hchain, hpost⟩ := h s (hP s hs)
  exact ⟨hchain.imp hT, fun a ha => hQ a _ (hpost a ha)⟩

/-- What a triple says about one run. -/
theorem Triple.returns {m : Exec σ ε α} (h : Triple P T m Q) {s t : σ} {a : α} (hs : P s)
    (hret : Returns m s a t) : Q a t :=
  hret.2 ▸ (h s hs).2 a hret.1

/-- Two things that hold where a program returns hold together. -/
theorem Triple.and {m : Exec σ ε α} (h : Triple P T m Q) (h' : Triple P' T m Q') :
    Triple (fun s => P s ∧ P' s) T m fun a s => Q a s ∧ Q' a s :=
  fun s hs => ⟨(h s hs.1).1, fun a ha => ⟨(h s hs.1).2 a ha, (h' s hs.2).2 a ha⟩⟩

/-- A stronger precondition. -/
theorem Triple.pre {m : Exec σ ε α} (h : Triple P T m Q) (hP : ∀ s, P' s → P s) :
    Triple P' T m Q :=
  h.conseq hP (fun _ _ => id) (fun _ _ => id)

/-- A weaker postcondition. -/
theorem Triple.post {m : Exec σ ε α} (h : Triple P T m Q) (hQ : ∀ a s, Q a s → Q' a s) :
    Triple P T m Q' :=
  h.conseq (fun _ => id) (fun _ _ => id) hQ

end Triple

/-! ## Programs within a relation -/

/-- Every assignment is within `T`, from any state. -/
def Steps (T : σ → σ → Prop) (m : Exec σ ε α) : Prop :=
  Triple (fun _ => True) T m (fun _ _ => True)

section Steps

variable {T : σ → σ → Prop}

/-- `pure` assigns nothing. -/
theorem Steps.pure (a : α) : Steps T (pure a : Exec σ ε α) := Triple.pure fun _ _ => trivial

/-- A composition assigns what its parts assign. -/
theorem Steps.bind {m : Exec σ ε α} {f : α → Exec σ ε β} (hm : Steps T m)
    (hf : ∀ a, Steps T (f a)) : Steps T (m >>= f) :=
  Triple.bind hm hf

/-- Reading the state assigns nothing. -/
theorem Steps.get : Steps T (get : Exec σ ε σ) :=
  fun s _ => ⟨List.isChain_singleton s, fun _ _ => trivial⟩

/-- An assignment, if it is within the relation from every state. -/
theorem Steps.modify {f : σ → σ} (h : ∀ s, T s (f s)) : Steps T (modify f : Exec σ ε Unit) :=
  Triple.modify fun s _ => ⟨h s, trivial⟩

/-- Raising an exception assigns nothing. -/
theorem Steps.throw (e : ε) : Steps T (throw e : Exec σ ε α) := Triple.throw

/-- An expression assigns nothing. -/
theorem Steps.lift (x : Except ε α) : Steps T (lift x : Exec σ ε α) :=
  Triple.lift fun _ _ _ _ => trivial

/-- Both branches have to be within the relation. -/
theorem Steps.ite {c : Prop} [Decidable c] {m m' : Exec σ ε α} (hm : Steps T m)
    (hm' : Steps T m') : Steps T (if c then m else m') := by
  split <;> assumption

/-- A larger relation. -/
theorem Steps.mono {T' : σ → σ → Prop} {m : Exec σ ε α} (h : Steps T m)
    (hT : ∀ s t, T s t → T' s t) : Steps T' m :=
  Triple.conseq h (fun _ => id) hT (fun _ _ => id)

/-- A program may be run for its result alone. -/
theorem Triple.trivial (P : σ → Prop) (m : Exec σ ε α) :
    Triple P (fun _ _ => True) m fun _ _ => True := by
  have hchain (s : σ) (xs : List σ) : List.IsChain (fun _ _ => True) (s :: xs) := by
    induction xs generalizing s with
    | nil => exact List.isChain_singleton s
    | cons x xs ih => exact List.isChain_cons_cons.mpr ⟨True.intro, ih x⟩
  exact fun s _ => ⟨hchain s _, fun _ _ => True.intro⟩

/-- What every assignment of a list preserves, holds after the last one. -/
private theorem getLastD_of_isChain {P : σ → Prop} (hpres : ∀ s t, T s t → P s → P t) {s : σ}
    {xs : List σ} (h : List.IsChain T (s :: xs)) (hs : P s) : P (xs.getLastD s) := by
  induction xs generalizing s with
  | nil => exact hs
  | cons x xs ih =>
    rw [List.isChain_cons_cons] at h
    rw [List.getLastD_cons]
    exact ih h.2 (hpres _ _ h.1 hs)

/-- What every assignment preserves, holds where the program ends, also when it raises. -/
theorem Triple.final {P I : σ → Prop} {Q : α → σ → Prop} {m : Exec σ ε α} (h : Triple P T m Q)
    (hpres : ∀ s t, T s t → I s → I t) {s : σ} (hs : P s) (hI : I s) : I (m.final s) :=
  getLastD_of_isChain hpres (h s hs).1 hI

/-- What every assignment preserves, holds where the program ends. -/
theorem Steps.final {P : σ → Prop} {m : Exec σ ε α} (h : Steps T m)
    (hpres : ∀ s t, T s t → P s → P t) {s : σ} (hs : P s) : P (m.final s) :=
  Triple.final h hpres trivial hs

/-- What every assignment preserves, the program preserves. -/
theorem Steps.triple {P : σ → Prop} {m : Exec σ ε α} (h : Steps T m)
    (hpres : ∀ s t, T s t → P s → P t) : Triple P T m (fun _ => P) :=
  fun s hs => ⟨(h s trivial).1, fun _ _ => h.final hpres hs⟩

end Steps

/-! ## What holds however a program ends -/

/-- From a state with `P`, every assignment is within `T`, a return establishes `Q`, and an
exception leaves a state with `E`. -/
def Ends (P : σ → Prop) (T : σ → σ → Prop) (m : Exec σ ε α) (Q : α → σ → Prop) (E : σ → Prop) :
    Prop :=
  Triple P T m Q ∧ ∀ s, P s → ∀ e, m.result s = .error e → E (m.final s)

/-- From a state with `I`, every assignment is within `T`, and the program ends in a state with `I`.
-/
abbrev Keeps (I : σ → Prop) (T : σ → σ → Prop) (m : Exec σ ε α) : Prop :=
  Ends I T m (fun _ => I) I

section Ends

variable {P P' I E : σ → Prop} {T T' : σ → σ → Prop} {Q : α → σ → Prop}

/-- The rule for `pure`, which raises nothing. -/
theorem Ends.pure {a : α} (h : ∀ s, P s → Q a s) : Ends P T (pure a : Exec σ ε α) Q E :=
  ⟨.pure h, fun _ _ _ he => nomatch he⟩

/-- The rule of composition, where either part may raise. -/
theorem Ends.bind {R : β → σ → Prop} {m : Exec σ ε α} {f : α → Exec σ ε β} (hm : Ends P T m Q E)
    (hf : ∀ a, Ends (Q a) T (f a) R E) : Ends P T (m >>= f) R E := by
  refine ⟨hm.1.bind fun a => (hf a).1, fun s hs e he => ?_⟩
  cases h : m.result s with
  | ok a =>
    obtain ⟨hres, hfin, -⟩ := bind_ok (f := f) h
    rw [hfin]
    exact (hf a).2 _ ((hm.1 s hs).2 a h) e (hres.symm.trans he)
  | error e' =>
    rw [(bind_error (f := f) h).2.1]
    exact hm.2 s hs e' h

/-- A program may be verified from each state on its own. -/
theorem Ends.of_eq {m : Exec σ ε α} (h : ∀ s, P s → Ends (· = s) T m Q E) : Ends P T m Q E :=
  ⟨.of_eq fun s hs => (h s hs).1, fun s hs => (h s hs).2 s rfl⟩

/-- The rule for reading the state. -/
theorem Ends.get_bind {f : σ → Exec σ ε α} (h : ∀ s, P s → Ends (· = s) T (f s) Q E) :
    Ends P T (get >>= f) Q E := by
  refine ⟨.get_bind fun s hs => (h s hs).1, fun s hs e he => ?_⟩
  obtain ⟨hres, hfin, -⟩ := bind_ok (f := f) (get_result s)
  rw [hfin]
  exact (h s hs).2 s rfl e (hres.symm.trans he)

/-- The rule for an assignment, which raises nothing. -/
theorem Ends.modify {f : σ → σ} {Q : Unit → σ → Prop} (h : ∀ s, P s → T s (f s) ∧ Q () (f s)) :
    Ends P T (modify f : Exec σ ε Unit) Q E :=
  ⟨.modify h, fun _ _ _ he => nomatch he⟩

/-- The rule for `throw`: the precondition has to establish `E`. -/
theorem Ends.throw {e : ε} (h : ∀ s, P s → E s) : Ends P T (throw e : Exec σ ε α) Q E :=
  ⟨.throw, fun s hs _ _ => h s hs⟩

/-- The rule for a fallible expression, with and without its exception. -/
theorem Ends.lift {x : Except ε α} (h : ∀ a, x = .ok a → ∀ s, P s → Q a s)
    (he : ∀ e, x = .error e → ∀ s, P s → E s) : Ends P T (lift x : Exec σ ε α) Q E := by
  cases x with
  | ok a => exact .pure (h a rfl)
  | error e => exact .throw (he e rfl)

/-- The rule for a choice. -/
theorem Ends.ite {c : Prop} [Decidable c] {m m' : Exec σ ε α} (hm : Ends P T m Q E)
    (hm' : Ends P T m' Q E) : Ends P T (if c then m else m') Q E := by
  split <;> assumption

/-- A stronger precondition. -/
theorem Ends.pre {m : Exec σ ε α} (h : Ends P T m Q E) (hP : ∀ s, P' s → P s) :
    Ends P' T m Q E :=
  ⟨h.1.pre hP, fun s hs => h.2 s (hP s hs)⟩

/-- Weaker postconditions, for returns and for exceptions. -/
theorem Ends.post {Q' : α → σ → Prop} {E' : σ → Prop} {m : Exec σ ε α} (h : Ends P T m Q E)
    (hQ : ∀ a s, Q a s → Q' a s) (hE : ∀ s, E s → E' s) : Ends P T m Q' E' :=
  ⟨h.1.post hQ, fun s hs e he => hE _ (h.2 s hs e he)⟩

/-- What both parts keep, a composition keeps. -/
theorem Keeps.bind {m : Exec σ ε α} {f : α → Exec σ ε β} (hm : Keeps I T m)
    (hf : ∀ a, Keeps I T (f a)) : Keeps I T (m >>= f) :=
  Ends.bind hm hf

/-- What an assignment keeps. -/
theorem Keeps.modify {f : σ → σ} (h : ∀ s, I s → T s (f s) ∧ I (f s)) :
    Keeps I T (modify f : Exec σ ε Unit) :=
  Ends.modify h

/-- What is kept holds however a program ends. -/
theorem Keeps.final {m : Exec σ ε α} (h : Keeps I T m) {s : σ} (hs : I s) : I (m.final s) := by
  cases hres : m.result s with
  | ok a => exact (h.1 s hs).2 a hres
  | error e => exact h.2 s hs e hres

/-- Where exceptions are caught, the program goes on from where they were raised. -/
theorem Keeps.attempt {m : Exec σ ε α} (h : Keeps I T m) : Keeps I T (attempt m) :=
  ⟨fun s hs => ⟨(h.1 s hs).1, fun _ _ => h.final hs⟩, fun _ _ _ he => nomatch he⟩

/-- A program that only makes assignments of a kind that keeps `I`. -/
theorem Steps.keeps {m : Exec σ ε α} (h : Steps T m) (hT : ∀ s t, T s t → I s → T' s t ∧ I t) :
    Keeps I T' m := by
  have hpres (s t : σ) (hst : T s t) (hs : I s) : I t := (hT s t hst hs).2
  have hchain (s : σ) (xs : List σ) (hxs : List.IsChain T (s :: xs)) (hs : I s) :
      List.IsChain T' (s :: xs) := by
    induction xs generalizing s with
    | nil => exact List.isChain_singleton s
    | cons x xs ih =>
      rw [List.isChain_cons_cons] at hxs ⊢
      obtain ⟨hstep, hx⟩ := hT s x hxs.1 hs
      exact ⟨hstep, ih x hxs.2 hx⟩
  exact ⟨fun s hs => ⟨hchain s _ (h s trivial).1 hs, fun _ _ => h.final hpres hs⟩,
    fun s hs _ _ => h.final hpres hs⟩

/-- What the assignments keep may be added to what holds in the end. -/
theorem Ends.and {A : σ → σ → Prop} {m : Exec σ ε α} (h : Ends P T m Q E) (hsteps : Steps A m)
    (hpres : ∀ s t, A s t → P' s → P' t) (hP : ∀ s, P s → P' s) :
    Ends P T m (fun a s => Q a s ∧ P' s) fun s => E s ∧ P' s := by
  refine ⟨fun s hs => ⟨(h.1 s hs).1, fun a ha => ⟨(h.1 s hs).2 a ha, ?_⟩⟩, fun s hs e he => ⟨?_, ?_⟩⟩
  · exact hsteps.final hpres (hP s hs)
  · exact h.2 s hs e he
  · exact hsteps.final hpres (hP s hs)

/-- Without an invariant, only the assignments matter. -/
theorem Triple.keeps {m : Exec σ ε α} (h : Triple P T m fun _ _ => True) :
    Ends P T m (fun _ _ => True) fun _ => True :=
  ⟨h, fun _ _ _ _ => True.intro⟩

end Ends

/-! ## Where an exception comes from -/

/-- A state that a run of `m` from `s` is in. -/
def Visits (m : Exec σ ε α) (s t : σ) : Prop := t ∈ s :: (m s).visited

/-- From a state with `P`, every exception of `m` is one that `C` allows in a state of the run. -/
def Raises (P : σ → Prop) (C : σ → ε → Prop) (m : Exec σ ε α) : Prop :=
  ∀ s, P s → ∀ e, m.result s = .error e → ∃ t, Visits m s t ∧ C t e

section Raises

variable {P : σ → Prop} {C : σ → ε → Prop}

/-- The last state is one of the list, or the default. -/
private theorem getLastD_mem (s : σ) (xs : List σ) : xs.getLastD s ∈ s :: xs := by
  induction xs generalizing s with
  | nil => exact List.mem_singleton_self s
  | cons x xs ih =>
    rw [List.getLastD_cons]
    exact List.mem_cons_of_mem s (ih x)

/-- A composition visits what its first part visits. -/
theorem Visits.bind_left {m : Exec σ ε α} {f : α → Exec σ ε β} {s t : σ} (h : Visits m s t) :
    Visits (m >>= f) s t := by
  cases hm : m.result s with
  | ok a =>
    rw [Visits, (bind_ok (f := f) hm).2.2, ← List.cons_append]
    exact List.mem_append_left _ h
  | error e =>
    rw [Visits, (bind_error (f := f) hm).2.2]
    exact h

/-- If the first part returns, it visits what the second visits from there. -/
theorem Visits.bind_right {m : Exec σ ε α} {f : α → Exec σ ε β} {s t : σ} {a : α}
    (hm : m.result s = .ok a) (h : Visits (f a) (m.final s) t) : Visits (m >>= f) s t := by
  rw [Visits, (bind_ok (f := f) hm).2.2, ← List.cons_append]
  rcases List.mem_cons.mp h with rfl | h
  · exact List.mem_append_left _ (getLastD_mem s _)
  · exact List.mem_append_right _ h

/-- An exception of `m` that `C` allows where `m` starts. -/
theorem Raises.of_result {m : Exec σ ε α} (h : ∀ s, P s → ∀ e, m.result s = .error e → C s e) :
    Raises P C m :=
  fun s hs e he => ⟨s, List.mem_cons_self, h s hs e he⟩

/-- A stronger precondition. -/
theorem Raises.pre {P' : σ → Prop} {m : Exec σ ε α} (h : Raises P C m) (hpre : ∀ s, P' s → P s) :
    Raises P' C m :=
  fun s hs => h s (hpre s hs)

/-- More exceptions may be allowed. -/
theorem Raises.mono {C' : σ → ε → Prop} {m : Exec σ ε α} (h : Raises P C m)
    (hC : ∀ s e, C s e → C' s e) : Raises P C' m := by
  intro s hs e he
  obtain ⟨t, hvisits, ht⟩ := h s hs e he
  exact ⟨t, hvisits, hC t e ht⟩

/-- `pure` raises nothing. -/
theorem Raises.pure (a : α) : Raises P C (pure a : Exec σ ε α) := fun _ _ _ h => nomatch h

/-- Nor does an assignment. -/
theorem Raises.modify (f : σ → σ) : Raises P C (modify f : Exec σ ε Unit) :=
  fun _ _ _ h => nomatch h

/-- The second part starts where the first returns. -/
theorem Raises.bind {T : σ → σ → Prop} {Q : α → σ → Prop} {m : Exec σ ε α} {f : α → Exec σ ε β}
    (hm : Raises P C m) (hpost : Triple P T m Q) (hf : ∀ a, Raises (Q a) C (f a)) :
    Raises P C (m >>= f) := by
  intro s hs e he
  cases h : m.result s with
  | ok a =>
    rw [(bind_ok (f := f) h).1] at he
    obtain ⟨t, ht, hC⟩ := hf a _ ((hpost s hs).2 a h) e he
    exact ⟨t, ht.bind_right h, hC⟩
  | error e' =>
    rw [(bind_error (f := f) h).1] at he
    obtain rfl : e' = e := Except.error.inj he
    obtain ⟨t, ht, hC⟩ := hm s hs e' h
    exact ⟨t, ht.bind_left, hC⟩

/-- The rule for reading the state. -/
theorem Raises.get_bind {f : σ → Exec σ ε α} (h : ∀ s, P s → Raises (· = s) C (f s)) :
    Raises P C (get >>= f) := by
  intro s hs e he
  rw [(bind_ok (f := f) (get_result s)).1] at he
  obtain ⟨t, ht, hC⟩ := h s hs s rfl e he
  exact ⟨t, ht.bind_right (get_result s), hC⟩

end Raises

/-! ## Two runs side by side -/

/-- From states related by `P`, two runs of `m` end alike and in states related by `R`, unless the
first ends in `B`; and `B` is not left again. -/
structure Alike (P : σ → σ → Prop) (B : σ → Prop) (m : Exec σ ε α) (R : σ → σ → Prop) : Prop where
  keeps : ∀ s, B s → B (m.final s)
  alike : ∀ s t, P s t → B (m.final s) ∨ (m.result s = m.result t ∧ R (m.final s) (m.final t))

section Alike

variable {P Q R : σ → σ → Prop} {B : σ → Prop}

/-- `pure` is alike from all states. -/
theorem Alike.pure (a : α) : Alike R B (pure a : Exec σ ε α) R :=
  ⟨fun _ h => h, fun _ _ h => .inr ⟨rfl, h⟩⟩

/-- So is raising an exception. -/
theorem Alike.throw (e : ε) : Alike R B (throw e : Exec σ ε α) R :=
  ⟨fun _ h => h, fun _ _ h => .inr ⟨rfl, h⟩⟩

/-- A fallible expression has one value in both runs. -/
theorem Alike.lift (x : Except ε α) : Alike R B (lift x : Exec σ ε α) R := by
  cases x with
  | ok a => exact Alike.pure a
  | error e => exact Alike.throw e

/-- An assignment has to relate the new states, and must not leave `B`. -/
theorem Alike.modify {f : σ → σ} (hkeeps : ∀ s, B s → B (f s)) (h : ∀ s t, P s t → R (f s) (f t)) :
    Alike P B (modify f : Exec σ ε Unit) R :=
  ⟨hkeeps, fun s t hst => .inr ⟨rfl, h s t hst⟩⟩

/-- The rule of composition: after the first part the runs are related, or the first is in `B`. -/
theorem Alike.bind {m : Exec σ ε α} {f : α → Exec σ ε β} (hm : Alike P B m R)
    (hf : ∀ a, Alike R B (f a) R) : Alike P B (m >>= f) R where
  keeps s hs := by
    cases h : m.result s with
    | ok a =>
      rw [(bind_ok (f := f) h).2.1]
      exact (hf a).keeps _ (hm.keeps s hs)
    | error e =>
      rw [(bind_error (f := f) h).2.1]
      exact hm.keeps s hs
  alike s t hst := by
    cases h : m.result s with
    | ok a =>
      obtain ⟨hres, hfin, -⟩ := bind_ok (f := f) h
      rw [hres, hfin]
      rcases hm.alike s t hst with hbad | ⟨hresult, hrel⟩
      · exact .inl ((hf a).keeps _ hbad)
      · obtain ⟨hres', hfin', -⟩ := bind_ok (f := f) (hresult.symm.trans h)
        rw [hres', hfin']
        exact (hf a).alike _ _ hrel
    | error e =>
      obtain ⟨hres, hfin, -⟩ := bind_error (f := f) h
      rw [hres, hfin]
      rcases hm.alike s t hst with hbad | ⟨hresult, hrel⟩
      · exact .inl hbad
      · obtain ⟨hres', hfin', -⟩ := bind_error (f := f) (hresult.symm.trans h)
        rw [hres', hfin']
        exact .inr ⟨rfl, hrel⟩

/-- An assignment may change how the states are related. -/
theorem Alike.modify_bind {f : σ → σ} {m : Exec σ ε α} (hkeeps : ∀ s, B s → B (f s))
    (h : ∀ s t, P s t → Q (f s) (f t)) (hm : Alike Q B m R) :
    Alike P B (Exec.modify f >>= fun _ => m) R where
  keeps s hs := by
    rw [(bind_ok (f := fun _ => m) (modify_result f s)).2.1]
    exact hm.keeps _ (hkeeps s hs)
  alike s t hst := by
    obtain ⟨hres, hfin, -⟩ := bind_ok (f := fun _ => m) (modify_result (ε := ε) f s)
    obtain ⟨hres', hfin', -⟩ := bind_ok (f := fun _ => m) (modify_result (ε := ε) f t)
    rw [hres, hfin, hres', hfin']
    exact hm.alike _ _ (h s t hst)

/-- Related states go on with one program, or the first run ends in `B`. -/
theorem Alike.get_bind {f : σ → Exec σ ε α}
    (h : ∀ s t, P s t → B ((f s).final s) ∨ f s = f t) (hf : ∀ s, Alike P B (f s) R) :
    Alike P B (get >>= f) R where
  keeps s hs := by
    rw [(bind_ok (f := f) (get_result s)).2.1]
    exact (hf s).keeps s hs
  alike s t hst := by
    obtain ⟨hres, hfin, -⟩ := bind_ok (f := f) (get_result (ε := ε) s)
    obtain ⟨hres', hfin', -⟩ := bind_ok (f := f) (get_result (ε := ε) t)
    rw [hres, hfin, hres', hfin', get_final, get_final]
    rcases h s t hst with hbad | heq
    · exact .inl hbad
    · rw [← heq]
      exact (hf s).alike s t hst

/-- A choice on what is the same in both runs. -/
theorem Alike.ite {c : Prop} [Decidable c] {m m' : Exec σ ε α} (hm : Alike P B m R)
    (hm' : Alike P B m' R) : Alike P B (if c then m else m') R := by
  split <;> assumption

end Alike

/-! ## Parts of the state that a program does not look at -/

/-- The change `g` of the state may be made before the program, or after it. -/
def Commutes (g : σ → σ) (m : Exec σ ε α) : Prop :=
  ∀ s, m.result (g s) = m.result s ∧ m.final (g s) = g (m.final s)

section Commutes

variable {g : σ → σ}

/-- `pure` looks at nothing. -/
theorem Commutes.pure (a : α) : Commutes g (pure a : Exec σ ε α) := fun _ => ⟨rfl, rfl⟩

/-- Nor does `throw`. -/
theorem Commutes.throw (e : ε) : Commutes g (throw e : Exec σ ε α) := fun _ => ⟨rfl, rfl⟩

/-- Nor does an expression without the state. -/
theorem Commutes.lift (x : Except ε α) : Commutes g (lift x : Exec σ ε α) := by
  cases x with
  | ok a => exact Commutes.pure a
  | error e => exact Commutes.throw e

/-- Two assignments may be exchanged. -/
theorem Commutes.modify {f : σ → σ} (h : ∀ s, f (g s) = g (f s)) :
    Commutes g (modify f : Exec σ ε Unit) :=
  fun s => ⟨rfl, h s⟩

/-- The change may be moved behind both parts. -/
theorem Commutes.bind {m : Exec σ ε α} {f : α → Exec σ ε β} (hm : Commutes g m)
    (hf : ∀ a, Commutes g (f a)) : Commutes g (m >>= f) := by
  intro s
  obtain ⟨hresult, hfinal⟩ := hm s
  cases h : m.result s with
  | ok a =>
    obtain ⟨hres, hfin, -⟩ := bind_ok (f := f) h
    obtain ⟨hres', hfin', -⟩ := bind_ok (f := f) (hresult.trans h)
    rw [hres, hfin, hres', hfin', hfinal]
    exact hf a _
  | error e =>
    obtain ⟨hres, hfin, -⟩ := bind_error (f := f) h
    obtain ⟨hres', hfin', -⟩ := bind_error (f := f) (hresult.trans h)
    rw [hres, hfin, hres', hfin']
    exact ⟨rfl, hfinal⟩

/-- What is read of the state must not depend on the change. -/
theorem Commutes.get_bind {f : σ → Exec σ ε α} (hread : ∀ s, f (g s) = f s)
    (hf : ∀ s, Commutes g (f s)) : Commutes g (get >>= f) := by
  intro s
  obtain ⟨hres, hfin, -⟩ := bind_ok (f := f) (get_result (ε := ε) s)
  obtain ⟨hres', hfin', -⟩ := bind_ok (f := f) (get_result (ε := ε) (g s))
  rw [hres, hfin, hres', hfin', get_final, get_final, hread]
  exact hf s s

/-- The rule for a choice that does not depend on the state. -/
theorem Commutes.ite {c : Prop} [Decidable c] {m m' : Exec σ ε α} (hm : Commutes g m)
    (hm' : Commutes g m') : Commutes g (if c then m else m') := by
  split <;> assumption

/-- A run from the changed state, made from one without the change. -/
theorem Commutes.returns {m : Exec σ ε α} (h : Commutes g m) {s t : σ} {a : α}
    (hret : Returns m s a t) : Returns m (g s) a (g t) :=
  ⟨(h s).1.trans hret.1, (h s).2.trans (congrArg g hret.2)⟩

end Commutes

end Exec

end BleFuzzer

import BleFuzzer.Common.Mealy
import BleFuzzer.Mapper.Passes
import BleFuzzer.Mapper.Retry
import Mathlib.Data.List.Dedup

/-!
# Tests of a device that answers like a machine

A learner takes the mapper for a Mealy machine. `Glitches` says that the device is one, seen through
single input symbols, resets and device resets, but for answers that are recognisably wrong;
`Simulates` is the case without those. What the mapper adds, the records of a test and its retries,
then does not show: `retry_sequence` leaves the device in the state it found it in.
-/

namespace BleFuzzer.Mapper

open Driver Exec

variable {σ τ : Type} {lib : Lib τ} {cls : MapperClass}

/-- Two states that differ in the records of a test, at most. -/
def Bookkeeping (w w' : World τ) : Prop :=
  ∃ inputs outputs retrying log, w' = { w with
    self := { w.self with
      inputSequence := inputs, outputSequence := outputs, isRetryRunning := retrying }
    log := log }

/-- An answer where `expected` is right, and how many wrong ones are left of `left` after it. -/
def Answer (bad : Text → Bool) (expected : Text) (left : ℕ) (out : Text) (left' : ℕ) : Prop :=
  (out = expected ∧ left' = left) ∨ (bad out = true ∧ left = left' + 1)

variable (lib cls) in
/-- The device answers like the machine `M`, but for wrong answers, all `bad`: no more than
`allowance` in a step with its retries. `I s n` says that it is in the state `s` and has `n` of them
left. -/
structure Glitches (bad : Text → Bool) (allowance : ℕ) (M : Mealy σ InputSymbol Text)
    (I : σ → ℕ → World τ → Prop) : Prop where
  bookkeeping : ∀ {s n w w'}, Bookkeeping w w' → I s n w → I s n w'
  pre : ∀ n, Triple (fun w => ∃ s, I s n w) (fun _ _ => True) (pre lib cls) fun _ => I M.init n
  resetDevice : ∀ n, Triple (fun w => ∃ s, I s n w) (fun _ _ => True)
    (resetDevice : Program τ Unit) fun _ w => ∃ s, I s n w
  perform : ∀ {s n w} (sym : InputSymbol), I s n w → Triple (· = w) (fun _ _ => True)
    (performSymbol lib cls sym (packets sym w.self)) fun out w' => ∃ left,
      Answer bad (M.emit s sym) (if w.self.isRetryRunning then n else allowance) out left ∧
        I (M.next s sym) left w'

variable (lib cls) in
/-- The device answers like the machine `M`, where `I s` says that it is in the state `s`. -/
structure Simulates (M : Mealy σ InputSymbol Text) (I : σ → World τ → Prop) : Prop where
  bookkeeping : ∀ {s w w'}, Bookkeeping w w' → I s w → I s w'
  pre : Triple (fun w => ∃ s, I s w) (fun _ _ => True) (pre lib cls) fun _ => I M.init
  resetDevice : Triple (fun w => ∃ s, I s w) (fun _ _ => True) (resetDevice : Program τ Unit)
    fun _ w => ∃ s, I s w
  perform : ∀ {s w} (sym : InputSymbol), I s w → Triple (· = w) (fun _ _ => True)
    (performSymbol lib cls sym (packets sym w.self)) fun out w' =>
      out = M.emit s sym ∧ I (M.next s sym) w'

/-- A device without wrong answers needs no allowance. -/
theorem Simulates.glitches {M : Mealy σ InputSymbol Text} {I : σ → World τ → Prop}
    (h : Simulates lib cls M I) (bad : Text → Bool) (allowance : ℕ) :
    Glitches lib cls bad allowance M fun s _ => I s where
  bookkeeping := h.bookkeeping
  pre _ := h.pre
  resetDevice _ := h.resetDevice
  perform {_ n w} sym hw := by
    refine (h.perform sym hw).post ?_
    rintro out w' ⟨hout, hI⟩
    exact ⟨_, .inl ⟨hout, rfl⟩, hI⟩

/-- What is known of the device, with the record of the test. -/
abbrev At (J : World τ → Prop) (t : Told) (w : World τ) : Prop := J w ∧ w.told = t

/-- The record of a test, when some inputs have been executed on the machine. -/
def Told.runs (t : Told) (M : Mealy σ InputSymbol Text) (inputs : List InputSymbol) : Prop :=
  t.inputs = inputs ∧ t.outputs = M.word M.init inputs

/-- A step of the machine, recorded. -/
theorem Told.runs.snoc {t : Told} {M : Mealy σ InputSymbol Text} {inputs : List InputSymbol}
    (h : t.runs M inputs) (sym : InputSymbol) :
    (t.replayed [sym] [M.emit (M.after M.init inputs) sym]).runs M (inputs ++ [sym]) := by
  refine ⟨?_, ?_⟩
  · rw [← h.1]
    rfl
  · rw [Mealy.word_snoc, ← h.2]
    rfl

namespace Glitches

variable {bad : Text → Bool} {allowance : ℕ} {M : Mealy σ InputSymbol Text}
  {I : σ → ℕ → World τ → Prop} (g : Glitches lib cls bad allowance M I)

include g

/-- A message of `retry_sequence` does not reach the device. -/
theorem message (s : σ) (n : ℕ) (t : Told) (message : RetryMessage) :
    Triple (At (I s n) t) (fun _ _ => True) (record (.retry message) id : Program τ Unit) fun _ =>
      At (I s n) { t with trace := t.trace ++ [.retry message] } :=
  Triple.and (.modify fun _ hw => ⟨trivial, g.bookkeeping ⟨_, _, _, _, rfl⟩ hw⟩)
    (retryMessage_records t message)

/-- A step, up to the decision on a retry. -/
theorem stepInternal {s : σ} {n : ℕ} {t : Told} {Q : Text → World τ → Prop} (depth : ℕ)
    (sym : InputSymbol) (hrest : ∀ out left,
      Answer bad (M.emit s sym) (if t.retrying then n else allowance) out left →
      Triple (At (I (M.next s sym) left) (t.replayed [sym] [out])) (fun _ _ => True) (do
        let self ← getSelf
        if !self.isRetryRunning &&
            cls.isLastSymSuspicious self.inputSequence self.outputSequence then
          retrySequence lib cls (stepInternal lib cls depth)
        else
          return out) Q) :
    Triple (At (I s n) t) (fun _ _ => True) (stepInternal lib cls (depth + 1) sym) Q := by
  let t₁ : Told := { t with trace := t.trace ++ [.exec sym] }
  refine .bind (Q := fun _ => At (I s n) t₁) (.modify fun w hw => ⟨trivial, ?_, ?_⟩) fun _ => ?_
  · exact g.bookkeeping ⟨_, _, _, _, rfl⟩ hw.1
  · simp [t₁, ← hw.2, World.told, Event.isTrace]
  refine getSelf_bind_triple fun w hw => ?_
  split
  · exact .throw
  -- the answer of the device is recorded
  have hperform := (g.perform sym hw.1).and
    (records_of_steps (@performSymbol_steps _ lib cls sym (packets sym w.self)) (· = t₁))
  refine (hperform.pre fun w' hw' => ⟨hw', hw' ▸ hw.2⟩).bind fun out => .of_eq ?_
  rintro w' ⟨⟨left, hanswer, hI⟩, htold⟩
  have hretrying : w.self.isRetryRunning = t.retrying := congrArg Told.retrying hw.2
  rw [hretrying] at hanswer
  refine .bind (Q := fun _ => At (I (M.next s sym) left) (t.replayed [sym] [out]))
    (.modify ?_) fun _ => hrest out left hanswer
  rintro _ rfl
  refine ⟨trivial, g.bookkeeping ⟨_, _, _, _, rfl⟩ hI, ?_⟩
  simp only [World.told, t₁, Told.mk.injEq] at htold
  obtain ⟨hinputs, houtputs, hretrying, hfilters, htrace⟩ := htold
  simp only [World.told, Told.replayed, hinputs, houtputs, hretrying, hfilters, htrace, List.map]

/-! ## Replays -/

/-- While a retry is running, a step is one of the machine, or a wrong answer. -/
theorem stepInternal_retrying {s : σ} {n : ℕ} {t : Told} (ht : t.retrying = true) (depth : ℕ)
    (sym : InputSymbol) :
    Triple (At (I s n) t) (fun _ _ => True) (Mapper.stepInternal lib cls depth sym) fun out w =>
      ∃ left, Answer bad (M.emit s sym) n out left ∧
        At (I (M.next s sym) left) (t.replayed [sym] [out]) w := by
  cases depth with
  | zero => exact .throw
  | succ depth =>
    refine g.stepInternal depth sym fun out left hanswer => getSelf_bind_triple fun w hw => ?_
    rw [ht, if_pos rfl] at hanswer
    have hretrying : w.self.isRetryRunning = true := (congrArg Told.retrying hw.2).trans ht
    rw [hretrying]
    refine .pure ?_
    rintro w' rfl
    exact ⟨left, hanswer, hw⟩

omit g in
variable (bad) in
/-- The outputs are those expected but for wrong answers, of which there were `n` and are `left`. -/
structure Heard (expected : List Text) (n : ℕ) (outs : List Text) (left : ℕ) : Prop where
  each : List.Forall₂ (fun out expected => out = expected ∨ bad out = true) outs expected
  le : left ≤ n
  same : left = n → outs = expected

/-- A replay, by induction on its inputs. -/
theorem replay {s : σ} {n : ℕ} {t : Told} (ht : t.retrying = true) (depth : ℕ)
    (syms : List InputSymbol) :
    Triple (At (I s n) t) (fun _ _ => True) (replay (Mapper.stepInternal lib cls depth) syms)
      fun _ w => ∃ outs left, Heard bad (M.word s syms) n outs left ∧
        At (I (M.after s syms) left) (t.replayed syms outs) w := by
  induction syms generalizing s n t with
  | nil =>
    refine .pure fun w hw => ⟨[], n, ⟨.nil, le_rfl, fun _ => rfl⟩, hw.1, ?_⟩
    simp [hw.2, Told.replayed]
  | cons sym syms ih =>
    refine (g.stepInternal_retrying ht depth sym).bind fun out => .of_eq ?_
    rintro w ⟨left, hanswer, hw⟩
    have hpre : ∀ w', w' = w → At (I (M.next s sym) left) (t.replayed [sym] [out]) w' :=
      fun w' h => h ▸ hw
    refine ((ih (t := t.replayed [sym] [out]) ht).pre hpre).post ?_
    rintro _ w' ⟨outs, left', hheard, hI, hw'⟩
    refine ⟨out :: outs, left', ?_, hI, ?_⟩
    · rcases hanswer with ⟨rfl, rfl⟩ | ⟨hbad, rfl⟩
      · exact ⟨.cons (.inl rfl) hheard.each, hheard.le, fun h => by rw [hheard.same h]; rfl⟩
      · have := hheard.le
        exact ⟨.cons (.inr hbad) hheard.each, by omega, fun h => by omega⟩
    · simp [hw', Told.replayed]

/-- One attempt, whatever follows it. -/
theorem attempt (s : σ) (n : ℕ) (t : Told) (depth : ℕ) (seqIn : List InputSymbol) (attempt : ℕ)
    {rest : Program τ Unit} {Q : Unit → World τ → Prop}
    (hrest : ∀ outs left, Heard bad (M.word M.init seqIn) n outs left →
      Triple (At (I (M.after M.init seqIn) left) (t.retried seqIn outs (attemptTrace seqIn attempt)))
        (fun _ _ => True) rest Q) :
    Triple (At (I s n) t) (fun _ _ => True) (do
      if 4 ≤ attempt then
        record (.retry .tryReset) id
        Mapper.resetDevice
      record (.retry (.attempt attempt)) id
      modifySelf fun self => { self with isRetryRunning := true }
      Mapper.pre lib cls
      Mapper.replay (Mapper.stepInternal lib cls depth) seqIn
      rest) Q := by
  have hpass (s₁ : σ) (t₁ : Told) (ht₁ : t₁ = { t with trace := t.trace ++
      if 4 ≤ attempt then [.retry .tryReset] else [] }) :
      Triple (At (I s₁ n) t₁) (fun _ _ => True) (do
        record (.retry (.attempt attempt)) id
        modifySelf fun self => { self with isRetryRunning := true }
        Mapper.pre lib cls
        Mapper.replay (Mapper.stepInternal lib cls depth) seqIn
        rest) Q := by
    let t₂ : Told := { t₁ with trace := t₁.trace ++ [.retry (.attempt attempt)], retrying := true }
    refine (g.message s₁ n t₁ _).bind fun _ => ?_
    refine .bind (Q := fun _ => At (I s₁ n) t₂) (.modify fun w hw => ⟨trivial, ?_, ?_⟩) fun _ => ?_
    · exact g.bookkeeping ⟨_, _, _, _, rfl⟩ hw.1
    · exact congrArg (fun t : Told => { t with retrying := true }) hw.2
    have hpre := ((g.pre n).pre fun w hw => ⟨s₁, hw⟩).and (@pre_records _ lib cls t₂)
    refine hpre.bind fun _ => ?_
    refine (g.replay (t := t₂.restart) rfl depth seqIn).bind fun _ => .of_eq ?_
    rintro w ⟨outs, left, hheard, hI, hw⟩
    refine (hrest outs left hheard).pre ?_
    rintro _ rfl
    refine ⟨hI, ?_⟩
    rw [hw]
    simp [t₂, ht₁, Told.restart, Told.replayed, Told.retried, attemptTrace]
  split
  case isTrue hreset =>
    refine (g.message s n t .tryReset).bind fun _ => ?_
    let t₁ : Told := { t with trace := t.trace ++ [.retry .tryReset] }
    have hdevice := ((g.resetDevice n).pre fun w hw => ⟨s, hw⟩).and
      (records_of_assign (@resetDevice_steps _ lib) (· = t₁))
    refine hdevice.bind fun _ => .of_eq ?_
    rintro w ⟨⟨s₁, hI⟩, hw⟩
    refine (hpass s₁ t₁ (by rw [if_pos hreset])).pre ?_
    rintro _ rfl
    exact ⟨hI, hw⟩
  case isFalse hreset => exact hpass s t (by rw [if_neg hreset, List.append_nil])

end Glitches

/-! ## Retries of a suspicious answer -/

/-- The messages that end the attempts from a number on: each shows the same outputs again. -/
def sameVerdicts (attempt : ℕ) : List RetryMessage :=
  List.replicate (6 - attempt) .stillSuspicious ++ [.noAlternative]

/-- Before the sixth attempt, another one follows. -/
theorem sameVerdicts_of_lt {attempt : ℕ} (hlt : attempt < 6) :
    sameVerdicts attempt = .stillSuspicious :: sameVerdicts (attempt + 1) := by
  have hlength : 6 - attempt = (6 - (attempt + 1)) + 1 := by omega
  rw [sameVerdicts, hlength, List.replicate_succ]
  rfl

namespace Simulates

variable {M : Mealy σ InputSymbol Text} {I : σ → World τ → Prop} (h : Simulates lib cls M I)

include h

/-- **The loop of `retry_sequence`**, on a device that answers alike: it makes six attempts. -/
theorem retryLoop {s : σ} {t : Told} (depth : ℕ) {seqIn : List InputSymbol}
    (hsuspicious : cls.isLastSymSuspicious seqIn (M.word M.init seqIn) = true)
    (bound attempt : ℕ) (hle : attempt < 6) :
    Triple (At (I s) t) (fun _ _ => True)
      (retryLoop lib cls (Mapper.stepInternal lib cls depth) seqIn (M.word M.init seqIn) bound attempt)
      fun _ => At (I (M.after M.init seqIn)) (t.retried seqIn (M.word M.init seqIn)
        (retryTrace seqIn (attempt + 1) (sameVerdicts (attempt + 1)))) := by
  induction bound generalizing s t attempt with
  | zero => exact .throw
  | succ bound ih =>
    let t₁ := t.retried seqIn (M.word M.init seqIn) (attemptTrace seqIn (attempt + 1))
    refine (h.glitches (fun _ => false) 0).attempt s 0 t depth seqIn (attempt + 1)
      fun outs left hheard => ?_
    obtain rfl : outs = M.word M.init seqIn := hheard.same (Nat.le_zero.mp hheard.le)
    refine getSelf_bind_triple fun w hw => ?_
    have hinputs : w.self.inputSequence = seqIn := congrArg Told.inputs hw.2
    have houtputs : w.self.outputSequence = M.word M.init seqIn := congrArg Told.outputs hw.2
    have hpre : ∀ w', w' = w → At (I (M.after M.init seqIn)) t₁ w' := fun w' h => h ▸ hw
    rw [hinputs, houtputs, if_neg (not_not_intro rfl), if_pos hsuspicious]
    split
    case isTrue hlt =>
      refine (((h.glitches (fun _ => false) 0).message _ 0 t₁ .stillSuspicious).bind
        fun _ => ?_).pre hpre
      refine (ih (attempt + 1) (by omega)).post ?_
      intro _ w hw
      refine ⟨hw.1, ?_⟩
      rw [hw.2, sameVerdicts_of_lt hlt]
      simp [t₁, Told.retried, retryTrace]
    case isFalse hge =>
      refine (((h.glitches (fun _ => false) 0).message _ 0 t₁ .noAlternative).pre hpre).post ?_
      intro _ w hw
      obtain rfl : attempt = 5 := by omega
      refine ⟨hw.1, ?_⟩
      rw [hw.2]
      simp [t₁, Told.retried, retryTrace, sameVerdicts]

/-- The trace of a retry on a device that answers alike. -/
theorem retrySequence {s : σ} {t : Told} (depth : ℕ) (sym : InputSymbol)
    {earlier : List InputSymbol} (ht : t.runs M (earlier ++ [sym]))
    (hsuspicious : cls.isLastSymSuspicious t.inputs t.outputs = true) :
    Triple (At (I s) t) (fun _ _ => True)
      (retrySequence lib cls (Mapper.stepInternal lib cls depth)) fun out w =>
      out = M.emit (M.after M.init earlier) sym ∧ At (I (M.after M.init (earlier ++ [sym])))
        { t with
          retrying := false
          trace := t.trace ++ .retry .retrying :: retryTrace t.inputs 1 (sameVerdicts 1) } w := by
  refine getSelf_bind_triple fun w hw => ?_
  have hinputs : w.self.inputSequence = t.inputs := congrArg Told.inputs hw.2
  have houtputs : w.self.outputSequence = t.outputs := congrArg Told.outputs hw.2
  rw [hinputs, houtputs]
  have hpre : ∀ w', w' = w → At (I s) t w' := fun w' h => h ▸ hw
  refine (((h.glitches (fun _ => false) 0).message s 0 t .retrying).pre hpre).bind fun _ => ?_
  rw [ht.1, ht.2] at hsuspicious ⊢
  refine (h.retryLoop depth hsuspicious 7 0 (by omega)).bind fun _ => ?_
  let t₁ := (t.startRetry.retried (earlier ++ [sym]) (M.word M.init (earlier ++ [sym]))
    (retryTrace (earlier ++ [sym]) 1 (sameVerdicts 1))).endRetry
  refine .bind (Q := fun _ => At (I (M.after M.init (earlier ++ [sym]))) t₁)
    (.modify fun w hw => ⟨trivial, h.bookkeeping ⟨_, _, _, _, rfl⟩ hw.1, ?_⟩) fun _ => ?_
  · exact congrArg Told.endRetry hw.2
  refine getSelf_bind_triple fun w hw => ?_
  have hlast : w.self.outputSequence.getLast? = some (M.emit (M.after M.init earlier) sym) := by
    have houtputs : w.self.outputSequence = M.word M.init (earlier ++ [sym]) :=
      congrArg Told.outputs hw.2
    rw [houtputs, Mealy.word_snoc, List.getLast?_concat]
  rw [hlast]
  refine .pure ?_
  rintro w' rfl
  refine ⟨rfl, hw.1, ?_⟩
  rw [hw.2]
  simp [t₁, Told.retried, Told.startRetry, Told.endRetry, ht.1, ht.2]

end Simulates

/-! ## Tests -/

section Tests

variable (cls) in
/-- The trace of a step after some inputs, where `retrying` says whether a retry is running. -/
def stepTrace (M : Mealy σ InputSymbol Text) (retrying : Bool) (inputs : List InputSymbol)
    (sym : InputSymbol) : List Event :=
  let inputs := inputs ++ [sym]
  .exec sym ::
    if !retrying && cls.isLastSymSuspicious inputs (M.word M.init inputs) then
      .retry .retrying :: retryTrace inputs 1 (sameVerdicts 1)
    else
      []

variable (cls) in
/-- The trace of steps after some inputs. -/
def stepsTrace (M : Mealy σ InputSymbol Text) (retrying : Bool) :
    List InputSymbol → List InputSymbol → List Event
  | _, [] => []
  | inputs, sym :: syms =>
    stepTrace cls M retrying inputs sym ++ stepsTrace M retrying (inputs ++ [sym]) syms

variable (cls) in
/-- The record after a test on the machine. -/
def Told.tested (M : Mealy σ InputSymbol Text) (t : Told) (inputs : List InputSymbol) : Told :=
  { t with
    inputs := inputs
    outputs := M.word M.init inputs
    trace := t.trace ++ .reset :: stepsTrace cls M t.retrying [] inputs }

variable (lib cls) in
/-- The tests of a learner, one after the other: their answers. -/
def tests : List (List InputSymbol) → Program τ (List (List Text))
  | [] => return []
  | inputs :: queries => do
    let outputs ← test lib cls inputs
    return outputs :: (← tests queries)

end Tests

namespace Simulates

variable {M : Mealy σ InputSymbol Text} {I : σ → World τ → Prop} (h : Simulates lib cls M I)

include h

/-- A step of a test, whether it is retried or not. -/
theorem stepInternal_told {t : Told} {inputs : List InputSymbol} (ht : t.runs M inputs) (depth : ℕ)
    (sym : InputSymbol) :
    Triple (At (I (M.after M.init inputs)) t) (fun _ _ => True)
      (Mapper.stepInternal lib cls depth sym) fun out w =>
      out = M.emit (M.after M.init inputs) sym ∧ At (I (M.after M.init (inputs ++ [sym])))
        { t.replayed [sym] [M.emit (M.after M.init inputs) sym] with
          trace := t.trace ++ stepTrace cls M t.retrying inputs sym } w := by
  cases depth with
  | zero => exact .throw
  | succ depth =>
    let t₁ := t.replayed [sym] [M.emit (M.after M.init inputs) sym]
    have ht₁ : t₁.runs M (inputs ++ [sym]) := ht.snoc sym
    refine (h.glitches (fun _ => false) 0).stepInternal (n := 0) depth sym fun out left hanswer => ?_
    obtain rfl : out = M.emit (M.after M.init inputs) sym := by
      rcases hanswer with ⟨hout, -⟩ | ⟨hbad, -⟩
      · exact hout
      · cases hbad
    refine getSelf_bind_triple fun w hw => ?_
    rw [← Mealy.after_snoc] at hw
    have hpre : ∀ w', w' = w → At (I (M.after M.init (inputs ++ [sym]))) t₁ w' := fun w' h => h ▸ hw
    have hinputs : w.self.inputSequence = t₁.inputs := congrArg Told.inputs hw.2
    have houtputs : w.self.outputSequence = t₁.outputs := congrArg Told.outputs hw.2
    have hretrying : w.self.isRetryRunning = t.retrying := congrArg Told.retrying hw.2
    rw [hinputs, houtputs, hretrying]
    split
    case isTrue hsuspicious =>
      obtain ⟨hidle, hlast⟩ := Bool.and_eq_true_iff.mp hsuspicious
      refine ((h.retrySequence depth sym ht₁ hlast).pre hpre).post ?_
      rintro out w ⟨hout, hI, hw⟩
      refine ⟨hout, hI, ?_⟩
      have hidle : t.retrying = false := by simpa using hidle
      rw [ht₁.1, ht₁.2] at hsuspicious
      rw [hw, ht₁.1, stepTrace, if_pos hsuspicious]
      simp [t₁, Told.replayed, hidle, ht.1]
    case isFalse hnot =>
      refine .pure ?_
      rintro w' rfl
      refine ⟨rfl, hw.1, ?_⟩
      rw [ht₁.1, ht₁.2] at hnot
      rw [hw.2, stepTrace, if_neg hnot]
      simp [Told.replayed]

/-- Steps of a test. -/
theorem steps {t : Told} {inputs : List InputSymbol} (ht : t.runs M inputs)
    (syms : List InputSymbol) :
    Triple (At (I (M.after M.init inputs)) t) (fun _ _ => True) (steps lib cls syms) fun outs w =>
      outs = t.filter (M.word (M.after M.init inputs) syms) ∧
      At (I (M.after M.init (inputs ++ syms)))
        { t.replayed syms (M.word (M.after M.init inputs) syms) with
          trace := t.trace ++ stepsTrace cls M t.retrying inputs syms } w := by
  induction syms generalizing t inputs with
  | nil =>
    refine .pure fun w hw => ⟨rfl, ?_, ?_⟩
    · rw [List.append_nil]
      exact hw.1
    · simp [hw.2, Told.replayed, Mealy.word, stepsTrace]
  | cons sym syms ih =>
    let out := M.emit (M.after M.init inputs) sym
    let t₁ : Told := { t.replayed [sym] [out] with
      trace := t.trace ++ stepTrace cls M t.retrying inputs sym }
    have ht₁ : t₁.runs M (inputs ++ [sym]) := ht.snoc sym
    have hstep : Triple (At (I (M.after M.init inputs)) t) (fun _ _ => True) (step lib cls sym)
        fun out' w => out' = filterSymbol out t.filters ∧
          At (I (M.after M.init (inputs ++ [sym]))) t₁ w := by
      refine (h.stepInternal_told ht recursionLimit sym).bind fun out' => .of_eq ?_
      rintro w ⟨rfl, hw⟩
      refine getSelf_bind_triple fun w' hw' => .pure ?_
      subst hw'
      rintro w' rfl
      have hfilters : w'.self.outputSymbolFilters = t.filters := congrArg Told.filters hw.2
      exact ⟨by rw [hfilters], hw⟩
    refine hstep.bind fun out' => .of_eq ?_
    rintro w ⟨rfl, hw⟩
    have hpre : ∀ w', w' = w → At (I (M.after M.init (inputs ++ [sym]))) t₁ w' := fun w' h => h ▸ hw
    refine ((ih ht₁).pre hpre).bind fun outs => .pure ?_
    rintro w' ⟨rfl, hI, hw'⟩
    refine ⟨?_, ?_, ?_⟩
    · rw [Mealy.after_snoc]
      rfl
    · rw [List.append_cons]
      exact hI
    · rw [hw', Mealy.after_snoc]
      simp [t₁, out, Told.replayed, Mealy.word, stepsTrace]

/-- A test: the record is that of the machine, whatever state the device was in. -/
theorem test (s : σ) (t : Told) (inputs : List InputSymbol) :
    Triple (At (I s) t) (fun _ _ => True) (test lib cls inputs) fun outs w =>
      outs = t.filter (M.word M.init inputs) ∧
      At (I (M.after M.init inputs)) (t.tested cls M inputs) w := by
  have hpre := (h.pre.pre fun w hw => ⟨s, hw⟩).and (@pre_records _ lib cls t)
  refine hpre.bind fun _ => ?_
  have hnil : t.restart.runs M [] := ⟨rfl, rfl⟩
  refine (h.steps hnil inputs).post ?_
  rintro outs w ⟨houts, hI, hw⟩
  exact ⟨houts, hI, hw.trans (by simp [Told.restart, Told.replayed, Told.tested, Mealy.after])⟩

/-- Any number of tests, by induction on them. -/
theorem tests (s : σ) (t : Told) (queries : List (List InputSymbol)) :
    Triple (At (I s) t) (fun _ _ => True) (tests lib cls queries) fun answers w =>
      answers = queries.map (fun inputs => t.filter (M.word M.init inputs)) ∧
      At (I (queries.foldl (fun _ inputs => M.after M.init inputs) s))
        (queries.foldl (Told.tested cls M) t) w := by
  induction queries generalizing s t with
  | nil => exact .pure fun w hw => ⟨rfl, hw⟩
  | cons inputs queries ih =>
    refine (h.test s t inputs).bind fun outs => .of_eq ?_
    rintro w ⟨rfl, hw⟩
    have hpre : ∀ w', w' = w → At (I (M.after M.init inputs)) (t.tested cls M inputs) w' :=
      fun w' h => h ▸ hw
    refine ((ih _ _).pre hpre).bind fun answers => .pure ?_
    rintro w' ⟨rfl, hw'⟩
    exact ⟨rfl, hw'⟩

end Simulates

/-! ## Output symbols -/

variable (lib) in
/-- `I` holds at all times, and `P` holds of a packet from when it is taken from the stream. -/
structure Inbound (I : World τ → Prop) (P : Pkt → World τ → Prop) : Prop where
  keeps : ∀ {w w'}, SymbolAssign lib w w' → I w → I w'
  stays : ∀ {w w'} pkt, SymbolAssign lib w w' → P pkt w → P pkt w'
  takes : ∀ {w : World τ} {data rx}, I w → w.env.rx = some data :: rx →
    ∀ data', P (lib.scapy.btle data') (w.withRx rx)
  fixes : ∀ {w} pkt, P pkt w → P (fixPacket pkt) w

/-- What is known while some packets are held. -/
def Holding (I : World τ → Prop) (P : Pkt → World τ → Prop) (pkts : List Pkt) (w : World τ) : Prop :=
  I w ∧ ∀ pkt ∈ pkts, P pkt w

variable (lib) in
/-- The output is the symbol of packets that are held, by a table from an earlier state. -/
def Emitted (I : World τ → Prop) (P : Pkt → World τ → Prop) (out : Text) (w : World τ) : Prop :=
  ∃ w₀ pkts, I w₀ ∧ Holding I P pkts w ∧
    out = packetsSymbol lib (w₀.self.symbols.getD (symbolTable lib w₀.self)) pkts

namespace Inbound

variable {I : World τ → Prop} {P : Pkt → World τ → Prop} (h : Inbound lib I P)

include h

/-- What makes the assignments of an input symbol keeps what is known. -/
theorem keep {α : Type} {m : Program τ α} (hm : Steps (SymbolAssign lib) m) (pkts : List Pkt) :
    Triple (Holding I P pkts) (fun _ _ => True) m fun _ => Holding I P pkts := by
  have hkeeps : Keeps (Holding I P pkts) (fun _ _ => True) m := by
    refine hm.keeps fun w w' hassign hw => ⟨trivial, h.keeps hassign hw.1, fun pkt hpkt => ?_⟩
    exact h.stays pkt hassign (hw.2 pkt hpkt)
  exact hkeeps.1

/-- What makes the assignments of a program below `step_internal` keeps what is known. -/
theorem call {α : Type} {m : Program τ α} (hm : Steps (Assign lib) m) (pkts : List Pkt) :
    Triple (Holding I P pkts) (fun _ _ => True) m fun _ => Holding I P pkts :=
  h.keep (hm.mono fun _ _ => .inl) pkts

/-- A packet is known from when it is taken. -/
theorem rawReceive (pkts : List Pkt) :
    Triple (Holding I P pkts) (fun _ _ => True) (rawReceive : Program τ (Option Bytes)) fun data w =>
      Holding I P pkts w ∧ ∀ _ ∈ data, ∀ data', P (lib.scapy.btle data') w := by
  intro w hw
  obtain ⟨hchain, hpost⟩ := h.call (@rawReceive_steps _ lib) pkts w hw
  refine ⟨hchain, fun data hdata => ⟨hpost data hdata, ?_⟩⟩
  obtain ⟨rx, hrx, hfinal⟩ := rawReceive_returns_iff.mp ⟨hdata, rfl⟩
  rintro data rfl
  rw [← hfinal]
  exact h.takes hw.1 hrx

/-- A packet is one that `BTLE` has parsed, also when it has been decrypted. -/
theorem receiveData (data : Bytes) (pkts : List Pkt) :
    Triple (fun w => Holding I P pkts w ∧ ∀ data', P (lib.scapy.btle data') w) (fun _ _ => True)
      (receiveData lib cls data) fun new => Holding I P (pkts ++ new.1) := by
  have haccept : Triple (fun w => Holding I P pkts w ∧ ∀ data', P (lib.scapy.btle data') w)
      (fun _ _ => True) (acceptData lib data)
      fun accepted => Holding I P (pkts ++ accepted.toList) := by
    intro w hw
    have hkeeps : Keeps (fun w => Holding I P pkts w ∧ ∀ data', P (lib.scapy.btle data') w)
        (fun _ _ => True) (acceptData lib data) := by
      refine (acceptData_take data).keeps fun w w' hassign hw => ?_
      have hassign : SymbolAssign lib w w' := .inl hassign.assign
      refine ⟨trivial, ⟨h.keeps hassign hw.1.1, fun pkt hpkt => ?_⟩, fun data' => ?_⟩
      · exact h.stays pkt hassign (hw.1.2 pkt hpkt)
      · exact h.stays _ hassign (hw.2 data')
    obtain ⟨hchain, hpost⟩ := hkeeps.1 w hw
    refine ⟨hchain, fun accepted haccepted => ?_⟩
    obtain ⟨⟨hI, hpkts⟩, hbtle⟩ := hpost accepted haccepted
    refine ⟨hI, List.forall_mem_append.mpr ⟨hpkts, ?_⟩⟩
    rcases acceptData_cases _ ⟨haccepted, rfl⟩ with ⟨-, rfl, -⟩ | ⟨-, pkt, isBroken, hdecrypt, rfl⟩
    · exact List.forall_mem_nil _
    · have hpkt : P pkt ((acceptData lib data).final w) := by
        rcases decrypt_cases _ hdecrypt with ⟨-, rfl, -⟩ | ⟨-, data', -, rfl, -⟩
        · exact hbtle data
        · exact hbtle data'
      split
      · exact List.forall_mem_nil _
      · exact List.forall_mem_singleton.mpr (h.fixes pkt hpkt)
  refine haccept.bind fun accepted => ?_
  cases accepted with
  | none => exact .pure fun _ => id
  | some pkt =>
    have hprocess : Steps (Assign lib) (processPkt lib cls pkt) :=
      (processPkt_side pkt).mono fun _ _ h => h.assign
    exact (h.call hprocess (pkts ++ [pkt])).bind fun restart => .pure fun _ => id

/-- `receive` returns packets that are known, by induction on the bound of its loop. -/
theorem receive (recvSMin recvSMax : Option ℤ) (maxPkts : ℕ) (req : Option Pkt) :
    Triple I (fun _ _ => True) (receive lib cls recvSMin recvSMax maxPkts req) (Holding I P) := by
  have hloop (bound : ℕ) (pkts : List Pkt) (timeStart : ℤ) :
      Triple (Holding I P pkts) (fun _ _ => True)
        (receiveLoop lib cls recvSMin recvSMax maxPkts req bound pkts timeStart) (Holding I P) := by
    induction bound generalizing pkts timeStart with
    | zero => exact .throw
    | succ bound ih =>
      rw [receiveLoop_succ]
      refine .bind (Q := fun pass => Holding I P pass.packets) ?_ fun pass => ?_
      · refine (h.rawReceive pkts).bind fun data => ?_
        refine .bind (Q := fun new => Holding I P (pkts ++ new.1)) ?_ fun new => ?_
        · cases data with
          | none =>
            refine .pure fun w hw => ?_
            rw [List.append_nil]
            exact hw.1
          | some data => exact (h.receiveData data pkts).pre fun w hw => ⟨hw.1, hw.2 data rfl⟩
        · refine (h.call time_steps _).bind fun timeNow => ?_
          exact (h.call (isRspComplete_steps _ _ _ _ _) _).bind fun complete => .pure fun _ => id
      · split
        · exact .pure fun _ => id
        · exact ih _ _
  refine .bind (Q := fun _ => I) ?_ fun timeStart => .get_bind fun w hw => (hloop _ _ _).pre ?_
  · refine ((h.call time_steps []).pre fun w hw => ?_).post fun _ _ hw => hw.1
    exact ⟨hw, List.forall_mem_nil _⟩
  · rintro w' rfl
    exact ⟨hw, List.forall_mem_nil _⟩

/-- Packets are received while others are held. -/
theorem receive_holding (pkts : List Pkt) (recvSMin recvSMax : Option ℤ) (maxPkts : ℕ)
    (req : Option Pkt) :
    Triple (Holding I P pkts) (fun _ _ => True) (Mapper.receive lib cls recvSMin recvSMax maxPkts req)
      fun new => Holding I P (pkts ++ new) := by
  have hnew := @receive _ _ cls _ _ h recvSMin recvSMax maxPkts req
  have hboth := (h.call (receive_steps recvSMin recvSMax maxPkts req) pkts).and hnew
  refine (hboth.pre fun w hw => ⟨hw, hw.1⟩).post ?_
  rintro new w ⟨hpkts, hnew⟩
  exact ⟨hpkts.1, List.forall_mem_append.mpr ⟨hpkts.2, hnew.2⟩⟩

/-- So does the loop of `ll_ctrl_enc_req`. -/
theorem encReqLoop (timeStart : ℤ) (bound : ℕ) (pkt : Pkt) (resPkts : List Pkt) :
    Triple (Holding I P resPkts) (fun _ _ => True) (encReqLoop lib cls timeStart bound pkt resPkts)
      (Holding I P) := by
  induction bound generalizing pkt resPkts with
  | zero => exact .throw
  | succ bound ih =>
    refine (h.call time_steps _).bind fun timeNow => ?_
    refine (h.call (isRspComplete_steps _ _ _ _ _) _).bind fun complete => ?_
    split
    · exact .pure fun _ => id
    refine (h.receive_holding resPkts none none 1 (some pkt)).bind fun pkts => ?_
    cases pkts with
    | nil =>
      rw [List.append_nil]
      exact ih _ _
    | cons next rest =>
      -- only the first packet is kept
      have hkeep (w : World τ) (hw : Holding I P (resPkts ++ next :: rest) w) :
          Holding I P (resPkts ++ [next]) w := by
        refine ⟨hw.1, fun pkt hpkt => hw.2 pkt ?_⟩
        rw [List.append_cons]
        exact List.mem_append_left _ hpkt
      have hloop := ih next (resPkts ++ [next])
      refine Triple.pre ?_ hkeep
      dsimp only
      split
      · exact (h.keep (handleEncRsp_steps _ _) _).bind fun _ => hloop
      · split
        · exact (h.keep (.modify fun _ => .inr .startEncReq) _).bind fun _ => hloop
        · exact hloop

/-- Their output symbol is emitted. -/
theorem outputSymbol (pkts : List Pkt) :
    Triple (Holding I P pkts) (fun _ _ => True) (outputSymbol lib pkts) (Emitted lib I P) := by
  intro w hw
  obtain ⟨hchain, hpost⟩ := h.call (outputSymbol_steps pkts) pkts w hw
  refine ⟨hchain, fun out hout => ⟨w, pkts, hw.1, hpost out hout, ?_⟩⟩
  exact (Except.ok.inj ((@outputSymbol_ok _ lib w pkts).1.symm.trans hout)).symm

/-- **An output symbol** is one of packets that have been taken. -/
theorem performSymbol (sym : InputSymbol) (pkt : Pkt) :
    Triple I (fun _ _ => True) (performSymbol lib cls sym pkt) (Emitted lib I P) := by
  have hstart (w : World τ) (hw : I w) : Holding I P [] w := ⟨hw, List.forall_mem_nil _⟩
  have hself {Q : Text → World τ → Prop} {f : Blesul → Program τ Text} {pkts : List Pkt}
      (hf : ∀ self, Triple (Holding I P pkts) (fun _ _ => True) (f self) Q) :
      Triple (Holding I P pkts) (fun _ _ => True) (getSelf >>= f) Q :=
    getSelf_bind_triple fun w hw => (hf w.self).pre fun w' hw' => hw' ▸ hw
  refine Triple.pre ?_ hstart
  unfold Mapper.performSymbol
  split_ifs
  · refine (h.call (send_steps _) _).bind fun _ => ?_
    refine (h.keep (.modify fun _ => .inr .encReq) _).bind fun _ => ?_
    refine (h.call time_steps _).bind fun timeStart => .get_bind fun w hw => ?_
    refine ((h.encReqLoop _ _ _ _).bind fun resPkts => h.outputSymbol resPkts).pre ?_
    rintro w' rfl
    exact hw
  · refine (h.call (send_steps _) _).bind fun _ => ?_
    refine (h.receive_holding _ _ _ _ _).bind fun resPkts => hself fun self => ?_
    refine (h.call (send_steps _) _).bind fun _ => ?_
    exact (h.call (receive_steps _ _ _ _) _).bind fun _ => h.outputSymbol resPkts
  · refine (h.call (send_steps _) _).bind fun _ => hself fun self => ?_
    refine (h.call (send_steps _) _).bind fun _ => hself fun self => ?_
    refine (h.call (send_steps _) _).bind fun _ => ?_
    exact (h.receive_holding _ _ _ _ _).bind fun resPkts => h.outputSymbol resPkts
  · refine (h.call (callPre_steps sym pkt) _).bind fun pkt => ?_
    refine (h.call (send_steps _) _).bind fun _ => ?_
    refine (h.receive_holding _ _ _ _ _).bind fun resPkts => ?_
    exact (h.call (callPost_steps sym resPkts) _).bind fun _ => h.outputSymbol resPkts

end Inbound

/-! ## A device that always gives one answer -/

/-- Packets from the device start with a layer that no other packet starts with, and read like the
answer. -/
def answerScapy (answer : Text) : Scapy where
  raw _ := []
  btle _ := ⟨[.raw [], .btleAdv 0 0, .btleScanRsp plainAddress]⟩
  hciHdr _ := ⟨[]⟩
  summary pkt := if pkt.layers.head? matches some (.raw _) then answer else []

/-- The answer is not in the table of symbols. -/
def Unlisted (answer : Text) (w : World Unit) : Prop :=
  ∀ table, w.self.symbols = some table → table.lookup answer = none

/-- A packet from the device. -/
def IsAnswer (pkt : Pkt) : Prop := pkt.layers.head? = some (.raw [])

/-- `fix_packet` adds its layer at the end. -/
theorem IsAnswer.fixPacket {pkt : Pkt} (h : IsAnswer pkt) : IsAnswer (fixPacket pkt) := by
  have hpush (layer : Layer) : IsAnswer (pkt.push layer) := by
    rw [IsAnswer, Pkt.push, List.head?_append, show pkt.layers.head? = _ from h]
    rfl
  unfold Mapper.fixPacket
  split_ifs
  · exact hpush _
  · exact hpush _
  · exact hpush _
  · exact h

section OneAnswer

variable {answer : Text} (hanswer : answer ≠ []) (hslash : replaceSlash answer = answer)

include hanswer

/-- A new table does not list the answer: the mapper's own packets read otherwise. -/
theorem symbolTable_unlisted (self : Blesul) :
    (symbolTable (plainLib (answerScapy answer)) self).lookup answer = none := by
  have hsummary (sym : InputSymbol) : (answerScapy answer).summary (packets sym self) = [] := by
    cases sym <;> rfl
  rw [List.lookup_eq_none_iff]
  intro entry hentry
  rw [symbolTable, List.mem_reverse, List.mem_map] at hentry
  obtain ⟨sym, -, rfl⟩ := hentry
  show (answer != (answerScapy answer).summary (packets sym self)) = true
  rw [hsummary]
  exact bne_iff_ne.mpr hanswer

/-- Nor does any table that an input symbol leaves. -/
theorem Unlisted.assign {w w' : World Unit}
    (hassign : SymbolAssign (plainLib (answerScapy answer)) w w') (hw : Unlisted answer w) :
    Unlisted answer w' := by
  rcases hassign with hassign | hassign
  · cases hassign with
    | symbols =>
      intro table htable
      obtain rfl := Option.some.inj htable
      exact symbolTable_unlisted hanswer w.self
    | _ => exact hw
  · cases hassign <;> exact hw

include hslash

/-- Packets from the device give its answer. -/
theorem packetsSymbol_answer {w : World Unit} (hw : Unlisted answer w) {pkts : List Pkt}
    (hne : pkts ≠ []) (hpkts : ∀ pkt ∈ pkts, IsAnswer pkt) :
    packetsSymbol (plainLib (answerScapy answer))
      (w.self.symbols.getD (symbolTable (plainLib (answerScapy answer)) w.self)) pkts = answer := by
  have htable : (w.self.symbols.getD
      (symbolTable (plainLib (answerScapy answer)) w.self)).lookup answer = none := by
    cases htable : w.self.symbols with
    | none =>
      rw [Option.getD_none]
      exact symbolTable_unlisted hanswer w.self
    | some table =>
      rw [Option.getD_some]
      exact hw table htable
  have hsymbol : ∀ pkt ∈ pkts, packetSymbol (plainLib (answerScapy answer))
      (w.self.symbols.getD (symbolTable (plainLib (answerScapy answer)) w.self)) pkt = answer := by
    intro pkt hpkt
    have hsummary : (plainLib (answerScapy answer)).scapy.summary pkt = answer := by
      show (if pkt.layers.head? matches some (.raw _) then answer else []) = _
      rw [hpkts pkt hpkt]
      rfl
    rw [packetSymbol, hsummary, htable, hslash, Option.getD_none]
  have hmap : pkts.map (packetSymbol (plainLib (answerScapy answer)) (w.self.symbols.getD
      (symbolTable (plainLib (answerScapy answer)) w.self))) = List.replicate pkts.length answer :=
    List.eq_replicate_iff.mpr ⟨List.length_map .., by simpa using hsymbol⟩
  rw [packetsSymbol, if_neg hne, hmap, List.replicate_dedup (mt List.eq_nil_of_length_eq_zero hne)]
  simp [joinSymbols]

end OneAnswer

/-- The machine of a device that gives no other answer than none. -/
def mutedMachine : Mealy Unit InputSymbol Text where
  init := ()
  next _ _ := ()
  emit _ _ := "NORESPONSE".toList

/-- Packets that read like a missing response make no difference. -/
theorem muted_simulates (cls : MapperClass) :
    Simulates (plainLib (answerScapy "NORESPONSE".toList)) cls mutedMachine
      fun _ => Unlisted "NORESPONSE".toList where
  bookkeeping {_ w _} h hw := by
    obtain ⟨inputs, outputs, retrying, log, rfl⟩ := h
    exact hw
  pre := by
    have hkeeps : Keeps (Unlisted "NORESPONSE".toList) (fun _ _ => True)
        (pre (plainLib (answerScapy "NORESPONSE".toList)) cls) :=
      pre_keeps (fun _ _ h hw => ⟨trivial, hw.assign (by decide) (.inl h)⟩)
        fun _ _ _ _ hw => ⟨trivial, hw⟩
    exact hkeeps.1.pre fun _ ⟨_, hw⟩ => hw
  resetDevice := by
    have hkeeps : Keeps (Unlisted "NORESPONSE".toList) (fun _ _ => True)
        (resetDevice : Program Unit Unit) :=
      (@resetDevice_steps _ (plainLib (answerScapy "NORESPONSE".toList))).keeps fun _ _ h hw =>
        ⟨trivial, hw.assign (by decide) (.inl h)⟩
    exact (hkeeps.1.pre fun _ ⟨_, hw⟩ => hw).post fun _ _ hw => ⟨(), hw⟩
  perform {_ w} sym hw := by
    have hinbound : Inbound (plainLib (answerScapy "NORESPONSE".toList))
        (Unlisted "NORESPONSE".toList) fun pkt _ => IsAnswer pkt :=
      { keeps := fun hassign hw => hw.assign (by decide) hassign
        stays := fun _ _ hpkt => hpkt
        takes := fun _ _ _ => rfl
        fixes := fun _ hpkt => hpkt.fixPacket }
    have houtput := @Inbound.performSymbol _ _ cls _ _ hinbound sym (packets sym w.self)
    have hpre : ∀ w', w' = w → Unlisted "NORESPONSE".toList w' := fun w' h => h ▸ hw
    refine (houtput.pre hpre).post ?_
    rintro out w' ⟨w₀, pkts, hw₀, ⟨hw', hpkts⟩, rfl⟩
    refine ⟨?_, hw'⟩
    by_cases hne : pkts = []
    · rw [hne]
      rfl
    · exact packetsSymbol_answer (by decide) (by decide) hw₀ hne hpkts

/-! ## The main result -/

/-- The final state of a test in which the device gives one answer, and the step is retried. -/
def mutedFinal : World Unit :=
  (tests (plainLib (answerScapy "NORESPONSE".toList)) suspiciousClass [[.llData]]).final
    (plainWorld 0 (List.replicate 14 (some [0])))

end BleFuzzer.Mapper

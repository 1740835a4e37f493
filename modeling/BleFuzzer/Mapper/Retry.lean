import BleFuzzer.Mapper.Effects

/-!
# Retries

A retry replays the inputs of the test on a fresh connection and replaces the recorded outputs.
`Told` is what a test records, with the trace of its calls. An input symbol leaves it alone, `reset`
clears it, and a step that does not retry adds one entry, so that a replay rebuilds it entry by
entry.
-/

namespace BleFuzzer.Mapper

open Driver Exec

variable {τ : Type} (lib : Lib τ) (cls : MapperClass)

/-- Whether an event tells how a test proceeds. -/
def Event.isTrace : Event → Bool
  | .reset | .exec _ | .retry _ => true
  | _ => false

/-- The inputs executed since the last `reset`. -/
def executed (log : List Event) : List InputSymbol :=
  log.foldl
    (fun syms e =>
      match e with
      | .reset => []
      | .exec sym => syms ++ [sym]
      | _ => syms)
    []

/-- The record of a test. -/
structure Told where
  inputs : List InputSymbol
  outputs : List Text
  retrying : Bool
  filters : List Text
  trace : List Event

/-- The record in a state. -/
def World.told (w : World τ) : Told where
  inputs := w.self.inputSequence
  outputs := w.self.outputSequence
  retrying := w.self.isRetryRunning
  filters := w.self.outputSymbolFilters
  trace := w.log.filter Event.isTrace

/-- The record of a new test. -/
def Told.restart (t : Told) : Told :=
  { t with inputs := [], outputs := [], trace := t.trace ++ [.reset] }

/-- Further inputs with their outputs. -/
def Told.replayed (t : Told) (syms : List InputSymbol) (outs : List Text) : Told :=
  { t with
    inputs := t.inputs ++ syms
    outputs := t.outputs ++ outs
    trace := t.trace ++ syms.map .exec }

/-- Outputs as the learner sees them. -/
def Told.filter (t : Told) (outputs : List Text) : List Text :=
  outputs.map fun s => filterSymbol s t.filters

variable {lib} {cls}

/-! ## Judgements about the record -/

/-- From a record with `P`, a return leaves one with `Q`. -/
abbrev Records {α : Type} (P : Told → Prop) (m : Program τ α) (Q : α → Told → Prop) : Prop :=
  Triple (fun w => P w.told) (fun _ _ => True) m fun a w => Q a w.told

/-- The record is none of an input symbol's business. -/
theorem SymbolAssign.told {w w' : World τ} (h : SymbolAssign lib w w') : w'.told = w.told := by
  rcases h with h | h <;> cases h <;> simp [World.told, Event.isTrace]

/-- What makes the assignments of an input symbol leaves the record alone. -/
theorem records_of_steps {α : Type} {m : Program τ α} (h : Steps (SymbolAssign lib) m)
    (P : Told → Prop) : Records P m fun _ => P :=
  (h.triple fun w w' hassign hw => by rwa [hassign.told]).conseq (fun _ => id) (fun _ _ _ => trivial)
    (fun _ _ => id)

/-- So does all below `step_internal`. -/
theorem records_of_assign {α : Type} {m : Program τ α} (h : Steps (Assign lib) m)
    (P : Told → Prop) : Records P m fun _ => P :=
  records_of_steps (h.mono fun _ _ => .inl) P

/-- A message of `retry_sequence` is only traced. -/
theorem retryMessage_records (t : Told) (message : RetryMessage) :
    Records (· = t) (record (.retry message) id : Program τ Unit) fun _ =>
      (· = { t with trace := t.trace ++ [.retry message] }) := by
  refine .modify fun w hw => ⟨trivial, ?_⟩
  rw [← hw]
  simp [World.told, Event.isTrace]

/-! ## One test -/

/-- `reset` starts a new record. -/
theorem reset_records (t : Told) :
    Records (· = t) (reset lib cls : Program τ Unit) fun _ => (· = t.restart) := by
  have hreset : Records (· = t) (do
      Exec.modify fun w =>
        { w with
          self := w.self.resetFields w.env.draws.head
          env := { w.env with draws := w.env.draws.tail }
          log := w.log ++ [.reset] }
      resetScan lib cls (List.range 32)) fun _ => (· = t.restart) := by
    refine .bind (Q := fun _ w => w.told = t.restart) (.modify fun w hw => ⟨trivial, ?_⟩)
      fun _ => records_of_assign (resetScan_steps _) (· = t.restart)
    rw [← hw]
    simp [World.told, Told.restart, Blesul.resetFields, Event.isTrace]
  refine getSelf_bind_triple fun w hw => ?_
  have hpre : ∀ w', w' = w → w'.told = t := fun w' h => h ▸ hw
  split
  · exact ((records_of_assign (send_steps _) (· = t)).bind fun _ => hreset).pre hpre
  · exact hreset.pre hpre

/-- So does `pre`, which may reset the device before. -/
theorem pre_records (t : Told) :
    Records (· = t) (pre lib cls : Program τ Unit) fun _ => (· = t.restart) := by
  have hreset := @reset_records _ lib cls t
  rw [pre]
  split
  · refine (records_of_assign (@time_steps _ lib) (· = t)).bind fun now => ?_
    refine getSelf_bind_triple fun w hw => ?_
    have hpre : ∀ w', w' = w → w'.told = t := fun w' h => h ▸ hw
    split
    · refine ((records_of_assign (@driverResetDevice_steps _ lib) (· = t)).bind
        fun _ => ?_).pre hpre
      refine (records_of_assign (@time_steps _ lib) (· = t)).bind fun now => ?_
      have htime : Steps (Assign lib) (modifySelf fun self =>
          { self with lastDeviceResetTime := now } : Program τ Unit) :=
        .modify fun _ => .deviceResetTime _ _
      exact (records_of_assign htime (· = t)).bind fun _ => hreset
    · exact hreset.pre hpre
  · exact hreset

/-- A step up to the decision on a retry. -/
theorem stepInternal_records {t : Told} {Q : Text → Told → Prop} (depth : ℕ) (sym : InputSymbol)
    (hrest : ∀ out, Records (· = t.replayed [sym] [out]) (do
      let self ← getSelf
      if !self.isRetryRunning &&
          cls.isLastSymSuspicious self.inputSequence self.outputSequence then
        retrySequence lib cls (stepInternal lib cls depth)
      else
        return out) Q) :
    Records (· = t) (stepInternal lib cls (depth + 1) sym) Q := by
  refine .bind (Q := fun _ w => w.told = { t with trace := t.trace ++ [.exec sym] })
    (.modify fun w hw => ⟨trivial, ?_⟩) fun _ => getSelf_bind_triple fun w hw => ?_
  · rw [← hw]
    simp [World.told, Event.isTrace]
  split
  · exact .throw
  · refine ((records_of_steps (performSymbol_steps _ _)
      (· = { t with trace := t.trace ++ [.exec sym] })).pre fun w' h => h ▸ hw).bind fun out => ?_
    refine .bind (Q := fun _ w => w.told = t.replayed [sym] [out]) (.modify fun w hw => ⟨trivial, ?_⟩)
      fun _ => hrest out
    simp only [World.told, Told.mk.injEq] at hw
    obtain ⟨hinputs, houtputs, hretrying, hfilters, htrace⟩ := hw
    simp only [World.told, Told.replayed, hinputs, houtputs, hretrying, hfilters, htrace, List.map]

/-! ## Replays -/

/-- While a retry is running, a step adds one entry. -/
theorem stepInternal_retrying {t : Told} (ht : t.retrying = true) (depth : ℕ) (sym : InputSymbol) :
    Records (· = t) (stepInternal lib cls depth sym) fun out => (· = t.replayed [sym] [out]) := by
  cases depth with
  | zero => exact .throw
  | succ depth =>
    refine stepInternal_records depth sym fun out => getSelf_bind_triple fun w hw => ?_
    have hretrying : w.self.isRetryRunning = true := (congrArg Told.retrying hw).trans ht
    rw [hretrying]
    refine .pure ?_
    rintro w' rfl
    exact hw

/-- A replay adds one entry for each input. -/
theorem replay_records {t : Told} (ht : t.retrying = true) (depth : ℕ) (syms : List InputSymbol) :
    Records (· = t) (replay (stepInternal lib cls depth) syms) fun _ t' =>
      ∃ outs, outs.length = syms.length ∧ t' = t.replayed syms outs := by
  induction syms generalizing t with
  | nil =>
    refine .pure fun w hw => ⟨[], rfl, ?_⟩
    simp [hw, Told.replayed]
  | cons sym syms ih =>
    refine (stepInternal_retrying ht depth sym).bind fun out => ?_
    refine (ih (t := t.replayed [sym] [out]) ht).post ?_
    rintro - w ⟨outs, hlength, hw⟩
    refine ⟨out :: outs, by simp [hlength], ?_⟩
    simp [hw, Told.replayed]

/-- The trace of one attempt, up to the message that ends it. -/
def attemptTrace (seqIn : List InputSymbol) (attempt : ℕ) : List Event :=
  (if 4 ≤ attempt then [.retry .tryReset] else []) ++
    [.retry (.attempt attempt), .reset] ++ seqIn.map .exec

/-- The trace of the attempts from a number on, each with the message that ends it. -/
def retryTrace (seqIn : List InputSymbol) : ℕ → List RetryMessage → List Event
  | _, [] => []
  | attempt, message :: messages =>
    attemptTrace seqIn attempt ++ .retry message :: retryTrace seqIn (attempt + 1) messages

/-- The messages that end the attempts from a number on, when in the end the earlier outputs differ,
or the last one is suspicious. -/
inductive Verdicts (differs suspicious : Prop) : ℕ → List RetryMessage → Prop
  | messedUp {attempt : ℕ} {messages : List RetryMessage} (hlt : attempt < 7)
      (h : Verdicts differs suspicious (attempt + 1) messages) :
      Verdicts differs suspicious attempt (.messedUp :: messages)
  | stillSuspicious {attempt : ℕ} {messages : List RetryMessage} (hlt : attempt < 6)
      (h : Verdicts differs suspicious (attempt + 1) messages) :
      Verdicts differs suspicious attempt (.stillSuspicious :: messages)
  | cannotRecover {attempt : ℕ} (hle : 7 ≤ attempt) (h : differs) :
      Verdicts differs suspicious attempt [.cannotRecover]
  | noAlternative {attempt : ℕ} (hle : 6 ≤ attempt) (hsame : ¬ differs) (h : suspicious) :
      Verdicts differs suspicious attempt [.noAlternative]
  | foundBetter {attempt : ℕ} (hsame : ¬ differs) (h : ¬ suspicious) :
      Verdicts differs suspicious attempt [.foundBetter]

/-- What attempts leave of a record. -/
def Told.retried (t : Told) (seqIn : List InputSymbol) (outs : List Text) (trace : List Event) : Told :=
  { t with inputs := seqIn, outputs := outs, retrying := true, trace := t.trace ++ trace }

variable (cls) in
/-- The record `t'` is what attempts from a number on have made of `t`, in a retry of the sequences
`seqIn` and `seqOut`. -/
def Retried (t : Told) (seqIn : List InputSymbol) (seqOut : List Text) (attempt : ℕ) (t' : Told) :
    Prop :=
  ∃ messages outs, outs.length = seqIn.length ∧
    Verdicts (t.filter seqOut.dropLast ≠ t.filter outs.dropLast)
      (cls.isLastSymSuspicious seqIn outs = true) attempt messages ∧
    t' = t.retried seqIn outs (retryTrace seqIn attempt messages)

/-- One attempt, whatever follows it. -/
theorem attempt_records (t : Told) (depth : ℕ) (seqIn : List InputSymbol) (attempt : ℕ)
    {rest : Program τ Unit} {Q : Unit → Told → Prop}
    (hrest : ∀ outs, outs.length = seqIn.length →
      Records (· = t.retried seqIn outs (attemptTrace seqIn attempt)) rest Q) :
    Records (· = t) (do
      if 4 ≤ attempt then
        record (.retry .tryReset) id
        resetDevice
      record (.retry (.attempt attempt)) id
      modifySelf fun self => { self with isRetryRunning := true }
      pre lib cls
      replay (stepInternal lib cls depth) seqIn
      rest) Q := by
  -- the attempt after its device reset, if there is one
  have hpass (t₁ : Told) (ht₁ : t₁ = { t with trace := t.trace ++
      if 4 ≤ attempt then [.retry .tryReset] else [] }) : Records (· = t₁) (do
        record (.retry (.attempt attempt)) id
        modifySelf fun self => { self with isRetryRunning := true }
        pre lib cls
        replay (stepInternal lib cls depth) seqIn
        rest) Q := by
    let t₂ : Told := { t₁ with trace := t₁.trace ++ [.retry (.attempt attempt)], retrying := true }
    refine (retryMessage_records t₁ _).bind fun _ => ?_
    refine .bind (Q := fun _ w => w.told = t₂) (.modify fun w hw => ⟨trivial, ?_⟩) fun _ => ?_
    · exact congrArg (fun t : Told => { t with retrying := true }) hw
    refine (pre_records t₂).bind fun _ => ?_
    refine (replay_records (t := t₂.restart) rfl depth seqIn).bind fun _ => ?_
    refine Triple.of_eq fun w hw => ?_
    obtain ⟨outs, hlength, hw⟩ := hw
    refine (hrest outs hlength).pre ?_
    rintro w' rfl
    rw [hw]
    simp [t₂, ht₁, Told.restart, Told.replayed, Told.retried, attemptTrace]
  split
  case isTrue h =>
    refine (retryMessage_records t .tryReset).bind fun _ => ?_
    let t₁ : Told := { t with trace := t.trace ++ [.retry .tryReset] }
    refine (records_of_assign (@resetDevice_steps _ lib) (· = t₁)).bind fun _ => ?_
    exact hpass t₁ (by rw [if_pos h])
  case isFalse h => exact hpass t (by rw [if_neg h, List.append_nil])

/-- **The loop of `retry_sequence`**: its attempts from a number on, in full. -/
theorem retryLoop_records (t : Told) (depth : ℕ) (seqIn : List InputSymbol) (seqOut : List Text)
    (bound attempt : ℕ) :
    Records (· = t) (retryLoop lib cls (stepInternal lib cls depth) seqIn seqOut bound attempt)
      fun _ => Retried cls t seqIn seqOut (attempt + 1) := by
  induction bound generalizing t attempt with
  | zero => exact .throw
  | succ bound ih =>
    refine attempt_records t depth seqIn (attempt + 1) fun outs hlength => ?_
    let t₁ := t.retried seqIn outs (attemptTrace seqIn (attempt + 1))
    -- the loop goes on after a message
    have hagain (message : RetryMessage) (hverdicts : ∀ outs' messages,
          Verdicts (t.filter seqOut.dropLast ≠ t.filter outs'.dropLast)
            (cls.isLastSymSuspicious seqIn outs' = true) (attempt + 2) messages →
          Verdicts (t.filter seqOut.dropLast ≠ t.filter outs'.dropLast)
            (cls.isLastSymSuspicious seqIn outs' = true) (attempt + 1) (message :: messages)) :
        Records (· = t₁) (do
          record (.retry message) id
          retryLoop lib cls (stepInternal lib cls depth) seqIn seqOut bound (attempt + 1))
          fun _ => Retried cls t seqIn seqOut (attempt + 1) := by
      refine (retryMessage_records t₁ message).bind fun _ => (ih _ _).post ?_
      rintro - w ⟨messages, outs', hlength', hmessages, hw⟩
      refine ⟨message :: messages, outs', hlength', hverdicts _ _ hmessages, ?_⟩
      rw [hw]
      simp [t₁, Told.retried, retryTrace]
    -- the loop ends with a message
    have hend (message : RetryMessage)
        (hverdicts : Verdicts (t.filter seqOut.dropLast ≠ t.filter outs.dropLast)
          (cls.isLastSymSuspicious seqIn outs = true) (attempt + 1) [message]) :
        Records (· = t₁) (record (.retry message) id : Program τ Unit)
          fun _ => Retried cls t seqIn seqOut (attempt + 1) := by
      refine (retryMessage_records t₁ message).post ?_
      rintro _ w hw
      refine ⟨[message], outs, hlength, hverdicts, ?_⟩
      rw [hw]
      simp [t₁, Told.retried, retryTrace]
    refine getSelf_bind_triple fun w hw => ?_
    have hpre : ∀ w', w' = w → w'.told = t₁ := fun w' h => h ▸ hw
    have hfilters : w.self.outputSymbolFilters = t.filters := congrArg Told.filters hw
    have hinputs : w.self.inputSequence = seqIn := congrArg Told.inputs hw
    have houtputs : w.self.outputSequence = outs := congrArg Told.outputs hw
    have hearlier (outputs : List Text) :
        earlierOutputs w.self outputs = t.filter outputs.dropLast := by
      rw [earlierOutputs, hfilters]
      rfl
    rw [hearlier, hearlier, hinputs, houtputs]
    split
    case isTrue hdiffers =>
      split
      · exact (hagain .messedUp fun _ _ h => .messedUp ‹_› h).pre hpre
      · exact (hend .cannotRecover (.cannotRecover (by omega) hdiffers)).pre hpre
    case isFalse hsame =>
      split
      case isTrue hsuspicious =>
        split
        · exact (hagain .stillSuspicious fun _ _ h => .stillSuspicious ‹_› h).pre hpre
        · exact (hend .noAlternative (.noAlternative (by omega) hsame hsuspicious)).pre hpre
      case isFalse hsuspicious =>
        exact (hend .foundBetter (.foundBetter hsame hsuspicious)).pre hpre

/-- The record when a retry starts. -/
def Told.startRetry (t : Told) : Told := { t with trace := t.trace ++ [.retry .retrying] }

/-- The record when a retry has ended. -/
def Told.endRetry (t : Told) : Told := { t with retrying := false }

/-- A retry returns the last output of the record that its loop leaves. -/
theorem retrySequence_records (t : Told) (depth : ℕ) :
    Records (· = t) (retrySequence lib cls (stepInternal lib cls depth)) fun out t' =>
      t'.outputs.getLast? = some out ∧
        ∃ t₁, Retried cls t.startRetry t.inputs t.outputs 1 t₁ ∧ t' = t₁.endRetry := by
  refine getSelf_bind_triple fun w hw => ?_
  have hinputs : w.self.inputSequence = t.inputs := congrArg Told.inputs hw
  have houtputs : w.self.outputSequence = t.outputs := congrArg Told.outputs hw
  rw [hinputs, houtputs]
  refine ((retryMessage_records t .retrying).pre fun w' h => h ▸ hw).bind fun _ => ?_
  refine (retryLoop_records t.startRetry depth t.inputs t.outputs 7 0).bind fun _ => ?_
  refine .bind (Q := fun _ w => ∃ t₁, Retried cls t.startRetry t.inputs t.outputs 1 t₁ ∧
    w.told = t₁.endRetry) (.modify fun w hw => ⟨trivial, w.told, hw, rfl⟩) fun _ => ?_
  refine getSelf_bind_triple fun w hw => ?_
  match hlast : w.self.outputSequence.getLast? with
  | none => exact .throw
  | some out =>
    refine .pure ?_
    rintro w' rfl
    exact ⟨hlast, hw⟩

/-! ## What a retry amounts to -/

section Verdicts

variable {differs suspicious : Prop} {attempt : ℕ} {messages : List RetryMessage}

/-- There are no more than seven attempts. -/
theorem Verdicts.length_le (h : Verdicts differs suspicious attempt messages) (hle : attempt ≤ 7) :
    attempt + messages.length ≤ 8 := by
  induction h with
  | messedUp hlt _ ih | stillSuspicious hlt _ ih =>
    have := ih (by omega)
    simp only [List.length_cons]
    omega
  | cannotRecover | noAlternative | foundBetter =>
    simp only [List.length_cons, List.length_nil]
    omega

/-- There are no more than six if no attempt messes up the earlier outputs. -/
theorem Verdicts.length_le_of_same (h : Verdicts differs suspicious attempt messages)
    (hle : attempt ≤ 6) (hmessed : .messedUp ∉ messages) (hcannot : .cannotRecover ∉ messages) :
    attempt + messages.length ≤ 7 := by
  induction h with
  | messedUp | cannotRecover => simp at hmessed hcannot
  | stillSuspicious hlt _ ih =>
    have := ih (by omega) (by simpa using hmessed) (by simpa using hcannot)
    simp only [List.length_cons]
    omega
  | noAlternative | foundBetter =>
    simp only [List.length_cons, List.length_nil]
    omega

/-- How a retry may end. -/
theorem Verdicts.getLast (h : Verdicts differs suspicious attempt messages) :
    (messages.getLast? = some .cannotRecover ∧ differs) ∨
      (messages.getLast? = some .noAlternative ∧ ¬ differs ∧ suspicious) ∨
      (messages.getLast? = some .foundBetter ∧ ¬ differs ∧ ¬ suspicious) := by
  induction h with
  | messedUp _ h ih | stillSuspicious _ h ih =>
    cases h <;> simpa using ih
  | cannotRecover _ h => exact .inl ⟨rfl, h⟩
  | noAlternative _ hsame h => exact .inr (.inl ⟨rfl, hsame, h⟩)
  | foundBetter hsame h => exact .inr (.inr ⟨rfl, hsame, h⟩)

end Verdicts

/-- An attempt does not end with a message about resetting the device. -/
theorem Verdicts.tryReset_not_mem {differs suspicious : Prop} {attempt : ℕ}
    {messages : List RetryMessage} (h : Verdicts differs suspicious attempt messages) :
    .tryReset ∉ messages := by
  induction h with
  | messedUp _ _ ih | stillSuspicious _ _ ih => simpa using ih
  | cannotRecover | noAlternative | foundBetter => simp

/-- From the fourth attempt on, each resets the device once. -/
theorem count_attemptTrace (seqIn : List InputSymbol) (attempt : ℕ) :
    (attemptTrace seqIn attempt).count (.retry .tryReset) = if 4 ≤ attempt then 1 else 0 := by
  have hinputs : (seqIn.map Event.exec).count (.retry .tryReset) = 0 :=
    List.count_eq_zero.mpr (by simp)
  rw [attemptTrace, List.count_append, List.count_append, hinputs]
  split <;> rfl

/-- `retry_sequence` resets the device in each attempt from the fourth on. -/
theorem count_tryReset (seqIn : List InputSymbol) (attempt : ℕ) {messages : List RetryMessage}
    (hmessages : .tryReset ∉ messages) :
    (retryTrace seqIn attempt messages).count (.retry .tryReset) =
      (attempt + messages.length - 4) - (attempt - 4) := by
  induction messages generalizing attempt with
  | nil => simp [retryTrace]
  | cons message messages ih =>
    rw [List.mem_cons, not_or] at hmessages
    have hmessage : Event.retry message ≠ .retry .tryReset := by
      intro h
      exact hmessages.1 (Event.retry.inj h).symm
    rw [retryTrace, List.count_append, List.count_cons_of_ne hmessage, count_attemptTrace,
      ih _ hmessages.2, List.length_cons]
    split <;> omega

/-! ## Exceptions of a retry -/

/-- The trace of an attempt up to its call of `pre`. -/
def attemptStart (attempt : ℕ) : List Event :=
  (if 4 ≤ attempt then [.retry .tryReset] else []) ++ [.retry (.attempt attempt)]

/-- The trace of attempts, the last of which ended with `message`. -/
theorem retryTrace_concat (seqIn : List InputSymbol) (attempt : ℕ) (messages : List RetryMessage)
    (message : RetryMessage) :
    retryTrace seqIn attempt (messages ++ [message]) = retryTrace seqIn attempt messages ++
      (attemptStart (attempt + messages.length) ++ .reset :: seqIn.map .exec) ++ [.retry message] := by
  induction messages generalizing attempt with
  | nil => simp [retryTrace, attemptTrace, attemptStart]
  | cons m messages ih =>
    rw [List.cons_append, retryTrace, retryTrace, ih, List.length_cons, Nat.add_right_comm attempt 1,
      ← Nat.add_assoc]
    simp only [List.append_assoc, List.cons_append]

variable (lib cls) in
/-- The call that an attempt makes after the part `before` of its trace raises `e` in the state `w`:
the reset of the device, `pre`, or `step_internal` for the input that comes next. -/
inductive AttemptCallRaises (depth : ℕ) (seqIn : List InputSymbol) (attempt : ℕ) (w : World τ)
    (e : PyErr) : List Event → Prop
  | resetDevice (hattempt : 4 ≤ attempt) (h : (resetDevice : Program τ Unit).result w = .error e) :
      AttemptCallRaises depth seqIn attempt w e [.retry .tryReset]
  | pre (h : (pre lib cls).result w = .error e) :
      AttemptCallRaises depth seqIn attempt w e (attemptStart attempt)
  | stepInternal {syms rest : List InputSymbol} {sym : InputSymbol}
      (hsplit : seqIn = syms ++ sym :: rest)
      (h : (stepInternal lib cls depth sym).result w = .error e) :
      AttemptCallRaises depth seqIn attempt w e (attemptStart attempt ++ .reset :: syms.map .exec)

variable (lib cls) in
/-- A call made by `retry_sequence` raises `e` in the state `w`: one of the attempt that comes after
those which ended with `messages`. Before the first of them the trace was `trace`. -/
def RetryCallRaises (depth : ℕ) (trace : List Event) (seqIn : List InputSymbol) (w : World τ)
    (e : PyErr) : Prop :=
  ∃ messages before, messages.length < 7 ∧
    (∀ message ∈ messages, message = .messedUp ∨ message = .stillSuspicious) ∧
    w.log.filter Event.isTrace = trace ++ retryTrace seqIn 1 messages ++ before ∧
    AttemptCallRaises lib cls depth seqIn (messages.length + 1) w e before

/-- A replay raises in `step_internal`, for the input after those it has executed. -/
theorem replay_raises {t : Told} (ht : t.retrying = true) (depth : ℕ) (syms done : List InputSymbol)
    (outs : List Text) :
    Raises (fun w => w.told = t.replayed done outs)
      (fun w e => ∃ syms₁ sym syms₂, done ++ syms = syms₁ ++ sym :: syms₂ ∧
        w.told.trace = t.trace ++ syms₁.map .exec ∧
        (stepInternal lib cls depth sym).result w = .error e)
      (replay (stepInternal lib cls depth) syms) := by
  induction syms generalizing done outs with
  | nil => exact .pure _
  | cons sym syms ih =>
    refine .bind (.of_result ?_) (stepInternal_retrying (t := t.replayed done outs) ht depth sym) ?_
    · intro w hw e h
      exact ⟨done, sym, syms, rfl, congrArg Told.trace hw, h⟩
    · intro out
      have hrest := ih (done ++ [sym]) (outs ++ [out])
      rw [List.append_assoc, List.singleton_append] at hrest
      refine hrest.pre ?_
      intro w hw
      rw [hw]
      simp [Told.replayed]

/-- An attempt raises in one of its calls, or when it is tried again. -/
theorem retryAttempt_raises {trace : List Event} {seqIn : List InputSymbol}
    {messages : List RetryMessage} (hlt : messages.length < 7)
    (hmessages : ∀ message ∈ messages, message = .messedUp ∨ message = .stillSuspicious) (depth : ℕ)
    (seqOut : List Text) {again : Program τ Unit}
    (hagain : ∀ message t, (message = .messedUp ∨ message = .stillSuspicious) →
      messages.length + 1 < 7 → t.trace = trace ++ retryTrace seqIn 1 (messages ++ [message]) →
      Raises (fun w => w.told = t) (RetryCallRaises lib cls depth trace seqIn) again)
    {t : Told} (ht : t.trace = trace ++ retryTrace seqIn 1 messages ++
      if 4 ≤ messages.length + 1 then [.retry .tryReset] else []) :
    Raises (fun w => w.told = t) (RetryCallRaises lib cls depth trace seqIn)
      (retryAttempt lib cls (stepInternal lib cls depth) seqIn seqOut (messages.length + 1) again) := by
  let t₂ : Told :=
    { t with trace := t.trace ++ [.retry (.attempt (messages.length + 1))], retrying := true }
  have ht₂ : t₂.trace = trace ++ retryTrace seqIn 1 messages ++ attemptStart (messages.length + 1) := by
    rw [show t₂.trace = t.trace ++ _ from rfl, ht, attemptStart, List.append_assoc, List.append_assoc]
  refine .bind (.modify _) (retryMessage_records t _) fun _ => ?_
  refine .bind (T := fun _ _ => True) (.modify _) (Q := fun _ w => w.told = t₂)
    (.modify fun w hw => ⟨trivial, ?_⟩) fun _ => ?_
  · exact congrArg (fun t : Told => { t with retrying := true }) hw
  -- `pre` is called
  refine .bind (.of_result fun w hw e h => ?_) (pre_records t₂) fun _ => ?_
  · exact ⟨messages, _, hlt, hmessages, (congrArg Told.trace hw).trans ht₂, .pre h⟩
  -- the inputs are replayed
  refine .bind (((replay_raises (t := t₂.restart) rfl depth seqIn [] []).pre fun w hw => ?_).mono
    fun w e h => ?_) (replay_records (t := t₂.restart) rfl depth seqIn) fun _ => ?_
  · rw [hw]
    simp [Told.replayed]
  · obtain ⟨syms, sym, rest, hsplit, htrace, hraises⟩ := h
    refine ⟨messages, _, hlt, hmessages, ?_, .stepInternal hsplit hraises⟩
    show w.told.trace = _
    rw [htrace, Told.restart, ht₂]
    simp only [List.append_assoc, List.singleton_append]
  -- no call is left but those of a further attempt
  have hmessage (message : RetryMessage) (hkind : message = .messedUp ∨ message = .stillSuspicious)
      (hnext : messages.length + 1 < 7) :
      Raises (fun w => ∃ outs, outs.length = seqIn.length ∧ w.told = t₂.restart.replayed seqIn outs)
        (RetryCallRaises lib cls depth trace seqIn)
        (record (.retry message) id >>= fun _ => again) := by
    rintro w ⟨outs, -, hw⟩
    refine Raises.bind (.modify _) (retryMessage_records (t₂.restart.replayed seqIn outs) message)
      (fun _ => hagain message _ hkind hnext ?_) w hw
    rw [retryTrace_concat, Nat.add_comm 1]
    simp only [Told.replayed, Told.restart, ht₂, List.append_assoc, List.cons_append,
      List.nil_append]
  refine .bind (getSelf_raises _ _) (getSelf_triple _ fun _ _ => True) fun self => ?_
  split
  · split
    · exact (hmessage .messedUp (.inl rfl) ‹_›).pre fun w hw => hw.2
    · exact .modify _
  · split
    · split
      · exact (hmessage .stillSuspicious (.inr rfl) (by omega)).pre fun w hw => hw.2
      · exact .modify _
    · exact .modify _

/-- The attempts after those that ended with `messages`. A bound of seven attempts is never reached.
-/
theorem retryLoop_raises (depth : ℕ) (trace : List Event) (seqIn : List InputSymbol)
    (seqOut : List Text) (bound : ℕ) {messages : List RetryMessage}
    (hbound : 7 ≤ bound + messages.length) (hlt : messages.length < 7)
    (hmessages : ∀ message ∈ messages, message = .messedUp ∨ message = .stillSuspicious) {t : Told}
    (ht : t.trace = trace ++ retryTrace seqIn 1 messages) :
    Raises (fun w => w.told = t) (RetryCallRaises lib cls depth trace seqIn)
      (retryLoop lib cls (stepInternal lib cls depth) seqIn seqOut bound messages.length) := by
  induction bound generalizing messages t with
  | zero => omega
  | succ bound ih =>
    have hagain : ∀ message t', (message = .messedUp ∨ message = .stillSuspicious) →
        messages.length + 1 < 7 → t'.trace = trace ++ retryTrace seqIn 1 (messages ++ [message]) →
        Raises (fun w => w.told = t') (RetryCallRaises lib cls depth trace seqIn)
          (retryLoop lib cls (stepInternal lib cls depth) seqIn seqOut bound
            (messages.length + 1)) := by
      intro message t' hkind hnext ht'
      have hlength : (messages ++ [message]).length = messages.length + 1 := List.length_append
      have hkinds : ∀ m ∈ messages ++ [message], m = .messedUp ∨ m = .stillSuspicious :=
        List.forall_mem_append.mpr ⟨hmessages, List.forall_mem_singleton.mpr hkind⟩
      have hloop := @ih (messages ++ [message]) (by omega) (by omega) hkinds _ ht'
      rwa [hlength] at hloop
    rw [retryLoop_succ]
    split
    case isTrue hattempt =>
      let t₁ : Told := { t with trace := t.trace ++ [.retry .tryReset] }
      refine .bind (.modify _) (retryMessage_records t .tryReset) fun _ => ?_
      refine .bind (.of_result fun w hw e h => ?_)
        (records_of_assign (@resetDevice_steps _ lib) (· = t₁)) fun _ => ?_
      · refine ⟨messages, _, hlt, hmessages, ?_, .resetDevice hattempt h⟩
        exact (congrArg Told.trace hw).trans (congrArg (· ++ [Event.retry .tryReset]) ht)
      · refine retryAttempt_raises hlt hmessages depth seqOut hagain ?_
        rw [if_pos hattempt, ← ht]
    case isFalse hattempt =>
      refine retryAttempt_raises hlt hmessages depth seqOut hagain ?_
      rw [if_neg hattempt, List.append_nil, ht]

/-- When `retry_sequence` raises, on a sequence that is not empty, a call it has made has raised. -/
theorem retrySequence_raises {t : Told} (ht : t.inputs ≠ []) (depth : ℕ) :
    Raises (fun w => w.told = t)
      (RetryCallRaises lib cls depth (t.trace ++ [.retry .retrying]) t.inputs)
      (retrySequence lib cls (stepInternal lib cls depth)) := by
  refine .bind (getSelf_raises _ _) (getSelf_triple _ fun _ _ => True) fun self => ?_
  rintro w₀ ⟨hself, hw₀⟩
  have hinputs : self.inputSequence = t.inputs := hself ▸ congrArg Told.inputs hw₀
  rw [hinputs]
  refine Raises.bind (P := fun w => w.told = t) (.modify _) (retryMessage_records t .retrying)
    (fun _ => ?_) w₀ hw₀
  -- the loop leaves as many outputs as there are inputs, so there is a last one
  have hloop : Records (· = t.startRetry)
      (retryLoop lib cls (stepInternal lib cls depth) t.inputs self.outputSequence 7 0)
      fun _ t' => t'.outputs ≠ [] := by
    refine (retryLoop_records t.startRetry depth t.inputs self.outputSequence 7 0).post ?_
    rintro - w' ⟨messages, outs, hlength, -, hw'⟩ hempty
    have houts : outs = [] := (congrArg Told.outputs hw').symm.trans hempty
    rw [houts] at hlength
    exact ht (List.eq_nil_of_length_eq_zero hlength.symm)
  refine .bind (@retryLoop_raises _ lib cls depth _ t.inputs _ 7 [] (by decide) (by decide)
    (List.forall_mem_nil _) t.startRetry ?_) hloop fun _ => ?_
  · rw [Told.startRetry, retryTrace, List.append_nil]
  refine .bind (T := fun _ _ => True) (.modify _) (Q := fun _ w => w.self.outputSequence ≠ [])
    (.modify fun w hw => ⟨trivial, hw⟩) fun _ => ?_
  refine .bind (getSelf_raises _ _) (getSelf_triple _ fun _ _ => True) fun self => ?_
  match hlast : self.outputSequence.getLast? with
  | some out => exact .pure _
  | none =>
    rintro w ⟨rfl, hw⟩
    exact absurd (List.getLast?_eq_none_iff.mp hlast) hw

/-! ## Whole tests -/

@[simp] theorem executed_append (log : List Event) (e : Event) :
    executed (log ++ [e]) =
      match e with
      | .reset => []
      | .exec sym => executed log ++ [sym]
      | _ => executed log := by
  simp only [executed, List.foldl_append, List.foldl_cons, List.foldl_nil]

/-- The executed inputs can be read off the trace. -/
theorem executed_filter (log : List Event) : executed (log.filter Event.isTrace) = executed log := by
  induction log using List.reverseRecOn with
  | nil => rfl
  | append_singleton log e ih =>
    rw [List.filter_append]
    cases e <;> simp [List.filter_cons, Event.isTrace, ih]

/-- Inputs are executed one after the other. -/
theorem executed_map (log : List Event) (syms : List InputSymbol) :
    executed (log ++ syms.map .exec) = executed log ++ syms := by
  induction syms using List.reverseRecOn with
  | nil => simp
  | append_singleton syms sym ih => simp [← List.append_assoc, ih]

/-- An attempt executes the inputs from a `reset` on. -/
theorem executed_attemptTrace (log : List Event) (seqIn : List InputSymbol) (attempt : ℕ) :
    executed (log ++ attemptTrace seqIn attempt) = seqIn := by
  have hsplit : log ++ attemptTrace seqIn attempt =
      ((log ++ if 4 ≤ attempt then [.retry .tryReset] else []) ++ [.retry (.attempt attempt)]) ++
        [.reset] ++ seqIn.map .exec := by
    simp [attemptTrace]
  rw [hsplit, executed_map, executed_append]
  rfl

/-- After a retry, all inputs of the test have been executed again. -/
theorem executed_retryTrace (log : List Event) (seqIn : List InputSymbol) (attempt : ℕ)
    {messages : List RetryMessage} (hmessages : messages ≠ []) :
    executed (log ++ retryTrace seqIn attempt messages) = seqIn := by
  induction messages generalizing log attempt with
  | nil => exact absurd rfl hmessages
  | cons message messages ih =>
    have hsplit : log ++ retryTrace seqIn attempt (message :: messages) =
        log ++ attemptTrace seqIn attempt ++ [.retry message] ++
          retryTrace seqIn (attempt + 1) messages := by
      simp [retryTrace]
    rw [hsplit]
    by_cases hlast : messages = []
    · rw [hlast, retryTrace, List.append_nil, executed_append, executed_attemptTrace]
    · exact ih _ _ hlast

/-- The messages of a retry that has messed up the earlier outputs say so. -/
theorem Verdicts.cannotRecover_mem {differs suspicious : Prop} {attempt : ℕ}
    {messages : List RetryMessage} (h : Verdicts differs suspicious attempt messages)
    (hdiffers : differs) (seqIn : List InputSymbol) :
    .retry .cannotRecover ∈ retryTrace seqIn attempt messages := by
  induction h with
  | messedUp _ _ ih | stillSuspicious _ _ ih => simp [retryTrace, ih]
  | cannotRecover => simp [retryTrace]
  | noAlternative _ hsame | foundBetter hsame => exact absurd hdiffers hsame

/-- What has been recorded and executed, against the inputs `ins` and outputs `outs` that the
learner knows, when `n` retries were lost before the test. -/
structure Sound (n : ℕ) (ins : List InputSymbol) (outs : List Text) (t : Told) : Prop where
  inputs : t.inputs = ins
  length : t.outputs.length = ins.length
  executed : executed t.trace = ins
  lost : n ≤ t.trace.count (.retry .cannotRecover)
  outputs : t.trace.count (.retry .cannotRecover) = n → t.filter t.outputs = outs

/-- What a step makes of a record. -/
def Stepped (cls : MapperClass) (t : Told) (sym : InputSymbol) (out : Text) (t' : Told) : Prop :=
  t' = t.replayed [sym] [out] ∨
    (t'.outputs.getLast? = some out ∧ ∃ out₁ t₁, t' = t₁.endRetry ∧
      Retried cls (t.replayed [sym] [out₁]).startRetry (t.inputs ++ [sym]) (t.outputs ++ [out₁]) 1 t₁)

/-- What a step does to the record, with or without a retry. -/
theorem stepInternal_stepped (t : Told) (depth : ℕ) (sym : InputSymbol) :
    Records (· = t) (stepInternal lib cls depth sym) fun out => Stepped cls t sym out := by
  cases depth with
  | zero => exact .throw
  | succ depth =>
    refine stepInternal_records depth sym fun out => getSelf_bind_triple fun w hw => ?_
    have hpre : ∀ w', w' = w → w'.told = t.replayed [sym] [out] := fun w' h => h ▸ hw
    split
    · refine ((retrySequence_records _ depth).pre hpre).post ?_
      rintro out' w' ⟨hlast, t₁, hretried, hw'⟩
      exact .inr ⟨hlast, out, t₁, hw', hretried⟩
    · exact .pure fun w' h => .inl (hpre w' h)

/-- A step keeps the record sound. -/
theorem Sound.stepped {n : ℕ} {ins : List InputSymbol} {outs : List Text} {t t' : Told}
    {sym : InputSymbol} {out : Text} (h : Sound n ins outs t) (hstep : Stepped cls t sym out t') :
    Sound n (ins ++ [sym]) (outs ++ [filterSymbol out t'.filters]) t' := by
  rcases hstep with rfl | ⟨hlast, out₁, t₁, rfl, messages, outs', hlength, hverdicts, rfl⟩
  · -- a step that is not retried adds one entry
    refine ⟨?_, ?_, ?_, ?_, ?_⟩
    · rw [Told.replayed, h.inputs]
    · simp [Told.replayed, h.length]
    · rw [Told.replayed, executed_map, h.executed]
    · simpa [Told.replayed, List.count_append] using h.lost
    · intro hlost
      have hlost : t.trace.count (.retry .cannotRecover) = n := by
        simpa [Told.replayed, List.count_append] using hlost
      rw [← h.outputs hlost]
      simp [Told.replayed, Told.filter]
  · -- a retry leaves what its last attempt has recorded
    have hcount : (t.replayed [sym] [out₁]).startRetry.trace.count (.retry .cannotRecover) =
        t.trace.count (.retry .cannotRecover) := by
      simp [Told.replayed, Told.startRetry, List.count_append]
    have hne : messages ≠ [] := by cases hverdicts <;> simp
    refine ⟨?_, ?_, ?_, ?_, ?_⟩
    · simp only [Told.endRetry, Told.retried, h.inputs]
    · simp only [Told.endRetry, Told.retried, hlength, h.inputs]
    · simp only [Told.endRetry, Told.retried, executed_retryTrace _ _ _ hne, h.inputs]
    · simp only [Told.endRetry, Told.retried, List.count_append, hcount]
      exact h.lost.trans (Nat.le_add_right _ _)
    · intro hlost
      simp only [Told.endRetry, Told.retried, List.count_append, hcount] at hlost
      have hzero : (retryTrace (t.inputs ++ [sym]) 1 messages).count (.retry .cannotRecover) = 0 := by
        have := h.lost
        omega
      -- no retry was lost, so the last attempt has shown what the learner already knows
      have hsame : t.filter (t.outputs ++ [out₁]).dropLast = t.filter outs'.dropLast := by
        by_contra hdiffers
        exact List.count_eq_zero.mp hzero (hverdicts.cannotRecover_mem hdiffers _)
      rw [List.dropLast_concat, h.outputs (by omega)] at hsame
      obtain ⟨earlier, rfl⟩ := List.getLast?_eq_some_iff.mp hlast
      rw [hsame, List.dropLast_concat]
      simp [Told.filter, Told.endRetry, Told.retried, Told.startRetry, Told.replayed]

/-- The steps of a test keep its record sound, by induction on them. -/
theorem steps_sound {n : ℕ} (syms ins : List InputSymbol) (outs : List Text) :
    Records (Sound n ins outs) (steps lib cls syms) fun outs' =>
      Sound n (ins ++ syms) (outs ++ outs') := by
  induction syms generalizing ins outs with
  | nil =>
    refine .pure fun w hw => ?_
    simpa using hw
  | cons sym syms ih =>
    have hstep : Records (Sound n ins outs) (step lib cls sym) fun out =>
        Sound n (ins ++ [sym]) (outs ++ [out]) := by
      refine .of_eq fun w hw => ?_
      refine ((stepInternal_stepped w.told recursionLimit sym).pre ?_).bind fun out => ?_
      · rintro w' rfl
        rfl
      · refine getSelf_bind_triple fun w' hw' => .pure ?_
        rintro _ rfl
        exact hw.stepped hw'
    refine hstep.bind fun out => ((ih (ins ++ [sym]) (outs ++ [out])).bind fun outs' => .pure ?_)
    intro w hw
    simpa using hw

/-! ## A small class -/

/-- A device that sends scan responses and empty data packets. -/
def scanScapy : Scapy where
  raw _ := []
  btle
    | [1] => ⟨[.btle 7, .btleData none]⟩
    | _ => ⟨[.btle 0x8E89BED6, .btleAdv 0 0, .btleScanRsp plainAddress]⟩
  hciHdr _ := ⟨[]⟩
  summary _ := []

/-- A class that suspects every missing response. -/
def suspiciousClass : MapperClass :=
  { blesulClass with
    isLastSymSuspicious := fun _ outputs => outputs.getLast? == some "NORESPONSE".toList }

/-! ## The two main results -/

/-- **Retrying is bounded and never nests.** An exception of `retry_sequence` is one of the call
that comes next in one of at most seven attempts. When it returns, its trace is that of at most
seven attempts, each of which calls `pre` once and executes every input once, in order. -/
theorem retrySequence_bounded (depth : ℕ) (w : World τ) (hinputs : w.self.inputSequence ≠ []) :
    (∀ e, (retrySequence lib cls (stepInternal lib cls depth)).result w = .error e →
      ∃ w₁, Visits (retrySequence lib cls (stepInternal lib cls depth)) w w₁ ∧
        RetryCallRaises lib cls depth (w.log.filter Event.isTrace ++ [.retry .retrying])
          w.self.inputSequence w₁ e) ∧
    ∀ out w', (retrySequence lib cls (stepInternal lib cls depth)).Returns w out w' →
      ∃ messages, 1 ≤ messages.length ∧ messages.length ≤ 7 ∧
        (.messedUp ∉ messages → .cannotRecover ∉ messages → messages.length ≤ 6) ∧
        w'.log.filter Event.isTrace = w.log.filter Event.isTrace ++
          .retry .retrying :: retryTrace w.self.inputSequence 1 messages ∧
        (retryTrace w.self.inputSequence 1 messages).count (.retry .tryReset) =
          messages.length - 3 ∧
        w'.self.isRetryRunning = false ∧
        w'.self.inputSequence = w.self.inputSequence ∧
        w'.self.outputSequence.length = w.self.inputSequence.length ∧
        w'.self.outputSequence.getLast? = some out ∧
        (messages.getLast? = some .cannotRecover ∨ messages.getLast? = some .noAlternative ∨
          (cls.isLastSymSuspicious w'.self.inputSequence w'.self.outputSequence = false ∧
            earlierOutputs w'.self w.self.outputSequence =
              earlierOutputs w'.self w'.self.outputSequence)) := by
  refine ⟨fun e he => retrySequence_raises (t := w.told) hinputs depth w rfl e he, ?_⟩
  intro out w' hreturns
  obtain ⟨hlast, t₁, ⟨messages, outs, hlength, hverdicts, rfl⟩, hw'⟩ :=
    (retrySequence_records w.told depth).returns rfl hreturns
  have hpos : 1 ≤ messages.length := by cases hverdicts <;> simp
  have hin : w'.self.inputSequence = w.self.inputSequence := congrArg Told.inputs hw'
  have hout : w'.self.outputSequence = outs := congrArg Told.outputs hw'
  have hfilters : w'.self.outputSymbolFilters = w.self.outputSymbolFilters :=
    congrArg Told.filters hw'
  have htrace : w'.log.filter Event.isTrace = _ := congrArg Told.trace hw'
  have hle := hverdicts.length_le (by omega)
  refine ⟨messages, hpos, by omega, ?_, ?_, ?_, congrArg Told.retrying hw', hin, ?_, hlast, ?_⟩
  · intro hmessed hcannot
    have := hverdicts.length_le_of_same (by omega) hmessed hcannot
    omega
  · rw [htrace]
    simp [World.told, Told.startRetry, Told.retried, Told.endRetry]
  · rw [count_tryReset _ _ hverdicts.tryReset_not_mem]
    omega
  · rw [hout, hlength]
    rfl
  · rcases hverdicts.getLast with ⟨h, -⟩ | ⟨h, -⟩ | ⟨-, hsame, hsuspicious⟩
    · exact .inl h
    · exact .inr (.inl h)
    · refine .inr (.inr ⟨?_, ?_⟩)
      · rw [hin, hout]
        exact Bool.eq_false_of_not_eq_true hsuspicious
      · rw [earlierOutputs, earlierOutputs, hfilters, hout]
        exact not_ne_iff.mp hsame

/-- A test with a missing response, of which the first replay gets one. -/
def suspiciousWorld : World Unit :=
  { plainWorld 0 [some [0], some [1]] with
    self := { (plainWorld 0 []).self with
      inputSequence := [.llData]
      outputSequence := ["NORESPONSE".toList] } }

/-- The first attempt finds a better alternative. -/
theorem retrySequence_bounded_found :
    ∃ messages, messages.length ≤ 7 ∧
      ((retrySequence (plainLib scanScapy) suspiciousClass
          (stepInternal (plainLib scanScapy) suspiciousClass 1)).final
        suspiciousWorld).log.filter Event.isTrace =
          .retry .retrying :: retryTrace [.llData] 1 messages := by
  obtain ⟨messages, -, hle, -, htrace, -⟩ :=
    (@retrySequence_bounded _ (plainLib scanScapy) suspiciousClass 1 suspiciousWorld
      (by decide)).2 "ATT_READ_RSP".toList _ ⟨by decide +kernel, rfl⟩
  exact ⟨messages, hle, htrace⟩

/-- **What the learner is told is one execution.** After `pre` and any steps, whatever retries there
were, the inputs are recorded and were executed since the last `reset`, once each and in order, and
the learner has the recorded outputs, unless a retry could not recover. -/
theorem told_executed (w₀ : World τ) (inputs : List InputSymbol) (outputs : List Text)
    (hreturns : (test lib cls inputs).result w₀ = .ok outputs) :
    ((test lib cls inputs).final w₀).self.inputSequence = inputs ∧
    ((test lib cls inputs).final w₀).self.outputSequence.length = inputs.length ∧
    executed ((test lib cls inputs).final w₀).log = inputs ∧
    (((test lib cls inputs).final w₀).log.count (.retry .cannotRecover) =
        w₀.log.count (.retry .cannotRecover) →
      ((test lib cls inputs).final w₀).self.outputSequence.map
        (fun s => filterSymbol s ((test lib cls inputs).final w₀).self.outputSymbolFilters) =
        outputs) := by
  have hcount (log : List Event) : (log.filter Event.isTrace).count (.retry .cannotRecover) =
      log.count (.retry .cannotRecover) := List.count_filter rfl
  -- only what is lost from here on counts, so the retries lost before are subtracted
  have htest : Records (· = w₀.told) (test lib cls inputs) fun outputs =>
      Sound (w₀.log.count (.retry .cannotRecover)) inputs outputs := by
    refine (pre_records w₀.told).bind fun _ => ?_
    refine ((steps_sound inputs [] []).pre ?_)
    intro w hw
    rw [hw]
    refine ⟨rfl, rfl, ?_, ?_, fun _ => rfl⟩
    · simp [Told.restart]
    · simp [Told.restart, List.count_append, World.told, hcount]
  have hsound := htest.returns rfl ⟨hreturns, rfl⟩
  refine ⟨hsound.inputs, hsound.length, ?_, fun hlost => ?_⟩
  · rw [← executed_filter]
    exact hsound.executed
  · exact hsound.outputs ((hcount _).trans hlost)

/-- The final state of a step whose response is missing at first. -/
def suspiciousFinal : World Unit :=
  (test (plainLib scanScapy) suspiciousClass [.llData]).final
    (plainWorld 0 [some [0], none, some [0], some [1]])

/-- The record shows the output of the replay. -/
theorem told_executed_retried :
    executed suspiciousFinal.log = [.llData] ∧
      suspiciousFinal.self.outputSequence.map
        (fun s => filterSymbol s suspiciousFinal.self.outputSymbolFilters) =
          ["ATT_READ_RSP".toList] := by
  have h := @told_executed _ (plainLib scanScapy) suspiciousClass
    (plainWorld 0 [some [0], none, some [0], some [1]]) [.llData] ["ATT_READ_RSP".toList]
    (by decide +kernel)
  exact ⟨h.2.2.1, h.2.2.2 (by decide +kernel)⟩

end BleFuzzer.Mapper

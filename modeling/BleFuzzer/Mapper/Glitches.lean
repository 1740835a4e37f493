import BleFuzzer.Mapper.Classes
import BleFuzzer.Mapper.MealySul

/-!
# Retries of wrong answers

What the retries are for: a device that answers like a machine, but now and then wrongly, and a
class whose `is_last_sym_suspicious` recognises the wrong answers. With six attempts, up to six of
them in a step with its retries are made good. A device that is mute but for some noise is an
example (`noise_glitches`).
-/

namespace BleFuzzer.Mapper

open Driver Exec

variable {σ τ : Type} {lib : Lib τ} {cls : MapperClass}

variable (cls) in
/-- The class suspects the last output exactly if it is `bad`, and the machine gives none that is.
-/
structure Recognises (bad : Text → Bool) (M : Mealy σ InputSymbol Text) : Prop where
  suspicious : ∀ inputs outputs out, cls.isLastSymSuspicious inputs (outputs ++ [out]) = bad out
  right : ∀ s sym, bad (M.emit s sym) = false

/-- Outputs are filtered one by one. -/
theorem Told.filter_append (t : Told) (outputs outputs' : List Text) :
    t.filter (outputs ++ outputs') = t.filter outputs ++ t.filter outputs' :=
  List.map_append

/-- Every retry in the trace has found a better alternative, so far. -/
def Found (trace : List Event) : Prop :=
  ∀ e ∈ trace, e ≠ .retry .noAlternative ∧ e ≠ .retry .cannotRecover

/-- Of two parts of a trace, both have to be such. -/
theorem Found.append {trace trace' : List Event} (h : Found trace) (h' : Found trace') :
    Found (trace ++ trace') := by
  intro e he
  rcases List.mem_append.mp he with he | he
  · exact h e he
  · exact h' e he

/-- An attempt gives up nothing before its message. -/
theorem found_attemptTrace (seqIn : List InputSymbol) (attempt : ℕ) :
    Found (attemptTrace seqIn attempt) := by
  intro e he
  unfold attemptTrace at he
  split at he
  all_goals
    simp only [List.mem_append, List.mem_cons, List.mem_map, List.not_mem_nil, or_false,
      List.nil_append] at he
    rcases he with h | ⟨sym, -, rfl⟩
    · rcases h with rfl | rfl | rfl <;> simp
    · simp

/-- The outputs of an attempt end with the right one, or with one that is `bad`. -/
theorem Glitches.Heard.snoc {bad : Text → Bool} {expected : List Text} {last : Text} {n left : ℕ}
    {outs : List Text} (h : Heard bad (expected ++ [last]) n outs left) :
    ∃ earlier out, outs = earlier ++ [out] ∧ (out = last ∨ bad out = true) := by
  have hdrop := List.forall₂_drop_append outs expected [last] h.each
  obtain ⟨out, rest, hout, hrest, hdrop⟩ := List.forall₂_cons_right_iff.mp hdrop
  rw [List.forall₂_nil_right_iff.mp hrest] at hdrop
  refine ⟨outs.take expected.length, out, ?_, hout⟩
  rw [← hdrop, List.take_append_drop]

namespace Glitches

variable {bad : Text → Bool} {allowance : ℕ} {M : Mealy σ InputSymbol Text}
  {I : σ → ℕ → World τ → Prop} (g : Glitches lib cls bad allowance M I)
  (hcls : Recognises cls bad M)

include g hcls

/-- **The loop of `retry_sequence`**, when there are fewer wrong answers left than attempts: one of
the attempts has none, and it is found. -/
theorem retryLoop {s : σ} {n : ℕ} {t : Told} (depth : ℕ) {earlier : List InputSymbol}
    (sym : InputSymbol) {seqOut : List Text}
    (hseqOut : t.filter seqOut.dropLast = t.filter (M.word M.init earlier)) (bound attempt : ℕ)
    (hle : n + attempt ≤ 5) :
    Triple (At (I s n) t) (fun _ _ => True)
      (retryLoop lib cls (Mapper.stepInternal lib cls depth) (earlier ++ [sym]) seqOut bound attempt)
      fun _ w => ∃ outs left trace,
        t.filter outs = t.filter (M.word M.init (earlier ++ [sym])) ∧
        outs.getLast? = some (M.emit (M.after M.init earlier) sym) ∧ Found trace ∧
        At (I (M.after M.init (earlier ++ [sym])) left) (t.retried (earlier ++ [sym]) outs trace) w := by
  induction bound generalizing s n t attempt with
  | zero => exact .throw
  | succ bound ih =>
    let seqIn := earlier ++ [sym]
    refine g.attempt s n t depth seqIn (attempt + 1) fun outs left hheard => ?_
    have hword : M.word M.init seqIn = _ := Mealy.word_snoc M.init earlier sym
    rw [hword] at hheard
    obtain ⟨outs', out, rfl, hout⟩ := hheard.snoc
    let t₁ := t.retried seqIn (outs' ++ [out]) (attemptTrace seqIn (attempt + 1))
    -- after a wrong answer, the loop goes on with fewer of them left
    have hagain (message : RetryMessage) (hmessage : Found [.retry message]) (hlt : left < n) :
        Triple (At (I (M.after M.init seqIn) left) t₁) (fun _ _ => True) (do
          record (.retry message) id
          Mapper.retryLoop lib cls (Mapper.stepInternal lib cls depth) seqIn seqOut bound
            (attempt + 1)) fun _ w => ∃ outs left trace,
          t.filter outs = t.filter (M.word M.init seqIn) ∧
          outs.getLast? = some (M.emit (M.after M.init earlier) sym) ∧ Found trace ∧
          At (I (M.after M.init seqIn) left) (t.retried seqIn outs trace) w := by
      refine (g.message _ left t₁ message).bind fun _ => ?_
      refine (ih (t := { t₁ with trace := t₁.trace ++ [.retry message] }) hseqOut (attempt + 1)
        (by omega)).post ?_
      rintro _ w ⟨outs₁, left₁, trace, hfilter, hlast, hfound, hI, hw⟩
      refine ⟨outs₁, left₁, attemptTrace seqIn (attempt + 1) ++ ([.retry message] ++ trace), hfilter,
        hlast, (found_attemptTrace _ _).append (hmessage.append hfound), hI, ?_⟩
      rw [hw]
      simp [t₁, seqIn, Told.retried]
    refine getSelf_bind_triple fun w hw => ?_
    have hpre : ∀ w', w' = w → At (I (M.after M.init seqIn) left) t₁ w' := fun w' h => h ▸ hw
    have hfilters : w.self.outputSymbolFilters = t.filters := congrArg Told.filters hw.2
    have hinputs : w.self.inputSequence = seqIn := congrArg Told.inputs hw.2
    have houtputs : w.self.outputSequence = outs' ++ [out] := congrArg Told.outputs hw.2
    have hearlier (outputs : List Text) :
        earlierOutputs w.self outputs = t.filter outputs.dropLast := by
      rw [earlierOutputs, hfilters]
      rfl
    rw [hearlier, hearlier, hinputs, houtputs, hcls.suspicious, hseqOut, List.dropLast_concat]
    split
    case isTrue hdiffers =>
      have hlt : left < n := by
        refine lt_of_le_of_ne hheard.le fun h => hdiffers ?_
        rw [(List.append_inj' (hheard.same h) rfl).1]
      rw [if_pos (by omega)]
      exact (hagain .messedUp (by simp [Found]) hlt).pre hpre
    case isFalse hsame =>
      have hsame : t.filter (M.word M.init earlier) = t.filter outs' := not_ne_iff.mp hsame
      split
      case isTrue hbad =>
        have hlt : left < n := by
          refine lt_of_le_of_ne hheard.le fun h => ?_
          obtain ⟨-, hlast⟩ := List.append_inj' (hheard.same h) rfl
          rw [List.singleton_inj.mp hlast, hcls.right] at hbad
          cases hbad
        rw [if_pos (by omega)]
        exact (hagain .stillSuspicious (by simp [Found]) hlt).pre hpre
      case isFalse hgood =>
        obtain rfl : out = M.emit (M.after M.init earlier) sym := hout.resolve_right hgood
        refine ((g.message _ left t₁ .foundBetter).pre hpre).post ?_
        intro _ w' hw'
        refine ⟨outs' ++ [_], left, attemptTrace seqIn (attempt + 1) ++ [.retry .foundBetter], ?_,
          List.getLast?_concat, (found_attemptTrace _ _).append (by simp [Found]), hw'.1, ?_⟩
        · rw [Mealy.word_snoc, Told.filter_append, Told.filter_append, hsame]
        · rw [hw'.2]
          simp [t₁, seqIn, Told.retried]

/-- **A retry** of a test whose last answer was wrong returns the right one, and leaves the test as
if there had been no wrong answer. -/
theorem retrySequence {s : σ} {n : ℕ} {t : Told} (depth : ℕ) {earlier : List InputSymbol}
    (sym : InputSymbol) (hinputs : t.inputs = earlier ++ [sym])
    (houtputs : t.filter t.outputs.dropLast = t.filter (M.word M.init earlier)) (hle : n ≤ 5) :
    Triple (At (I s n) t) (fun _ _ => True)
      (retrySequence lib cls (Mapper.stepInternal lib cls depth)) fun out w =>
      out = M.emit (M.after M.init earlier) sym ∧ ∃ outs left trace,
        t.filter outs = t.filter (M.word M.init (earlier ++ [sym])) ∧ Found trace ∧
        At (I (M.after M.init (earlier ++ [sym])) left)
          { t with outputs := outs, retrying := false, trace := t.trace ++ trace } w := by
  refine getSelf_bind_triple fun w hw => ?_
  have hseqIn : w.self.inputSequence = earlier ++ [sym] := (congrArg Told.inputs hw.2).trans hinputs
  have hseqOut : w.self.outputSequence = t.outputs := congrArg Told.outputs hw.2
  have hpre : ∀ w', w' = w → At (I s n) t w' := fun w' h => h ▸ hw
  rw [hseqIn, hseqOut]
  refine ((g.message s n t .retrying).pre hpre).bind fun _ => ?_
  have hloop := g.retryLoop hcls (s := s) (t := t.startRetry) depth sym houtputs 7 0 hle
  refine hloop.bind fun _ => .of_eq ?_
  rintro w₁ ⟨outs, left, trace, hfilter, hlast, hfound, hw₁⟩
  let t₁ := (t.startRetry.retried (earlier ++ [sym]) outs trace).endRetry
  refine .bind (Q := fun _ => At (I (M.after M.init (earlier ++ [sym])) left) t₁) (.modify ?_)
    fun _ => getSelf_bind_triple fun w₂ hw₂ => ?_
  · rintro _ rfl
    exact ⟨trivial, g.bookkeeping ⟨_, _, _, _, rfl⟩ hw₁.1, congrArg Told.endRetry hw₁.2⟩
  have houts : w₂.self.outputSequence = outs := congrArg Told.outputs hw₂.2
  rw [houts, hlast]
  refine .pure ?_
  rintro w₃ rfl
  refine ⟨rfl, outs, left, .retry .retrying :: trace, hfilter, ?_, hw₂.1, ?_⟩
  · have hfirst : Found [.retry .retrying] := by simp [Found]
    exact hfirst.append hfound
  · rw [hw₂.2]
    simp [t₁, Told.retried, Told.startRetry, Told.endRetry, hinputs]

end Glitches

/-! ## Tests -/

/-- `t'` is a record after `t`, between steps. -/
structure Told.Continues (t t' : Told) : Prop where
  retrying : t'.retrying = false
  filters : t'.filters = t.filters
  trace : ∃ trace, t'.trace = t.trace ++ trace ∧ Found trace

/-- `t'` is the record when some inputs of a test have been executed, after what is in `t`. -/
structure Told.Follows (M : Mealy σ InputSymbol Text) (t : Told) (syms : List InputSymbol)
    (t' : Told) : Prop extends t.Continues t' where
  inputs : t'.inputs = syms
  outputs : t.filter t'.outputs = t.filter (M.word M.init syms)

/-- The record goes on. -/
theorem Told.Follows.snoc {M : Mealy σ InputSymbol Text} {t t' : Told} {inputs : List InputSymbol}
    (h : t.Follows M inputs t') (sym : InputSymbol) {outs : List Text} {trace : List Event}
    (houts : t'.filter outs = t'.filter (M.word M.init (inputs ++ [sym]))) (htrace : Found trace) :
    t.Follows M (inputs ++ [sym]) { t' with
      inputs := inputs ++ [sym], outputs := outs, trace := t'.trace ++ trace } := by
  obtain ⟨trace', htrace', hfound⟩ := h.trace
  refine ⟨⟨h.retrying, h.filters, trace' ++ trace, ?_, hfound.append htrace⟩, rfl, ?_⟩
  · rw [htrace', List.append_assoc]
  · simpa only [Told.filter, h.filters] using houts

namespace Glitches

variable {bad : Text → Bool} {allowance : ℕ} {M : Mealy σ InputSymbol Text}
  {I : σ → ℕ → World τ → Prop} (g : Glitches lib cls bad allowance M I)
  (hcls : Recognises cls bad M) (hallowance : allowance ≤ 6)

omit g in
variable (I) in
/-- Steps have been made, and the device is in some state. -/
def Idle (t : Told) (w : World τ) : Prop := t.Continues w.told ∧ ∃ s left, I s left w

omit g in
variable (M I) in
/-- Some inputs of a test have been executed, and the device is where the machine is. -/
def Seen (t : Told) (inputs : List InputSymbol) (w : World τ) : Prop :=
  t.Follows M inputs w.told ∧ ∃ left, I (M.after M.init inputs) left w

include g hcls hallowance

/-- A step gives the right answer, retried or not. -/
theorem stepInternal_seen (t : Told) (inputs : List InputSymbol) (depth : ℕ) (sym : InputSymbol) :
    Triple (Seen M I t inputs) (fun _ _ => True) (Mapper.stepInternal lib cls depth sym) fun out w =>
      out = M.emit (M.after M.init inputs) sym ∧ Seen M I t (inputs ++ [sym]) w := by
  cases depth with
  | zero => exact .throw
  | succ depth =>
    refine .of_eq ?_
    rintro w ⟨ht, n, hI⟩
    have hstart : ∀ w', w' = w → At (I (M.after M.init inputs) n) w.told w' := by
      rintro _ rfl
      exact ⟨hI, rfl⟩
    have hearlier : w.told.filter w.told.outputs = w.told.filter (M.word M.init inputs) := by
      simpa only [Told.filter, ht.filters] using ht.outputs
    refine (g.stepInternal depth sym fun out left hanswer => ?_).pre hstart
    rw [ht.retrying, if_neg Bool.false_ne_true] at hanswer
    let t₁ := w.told.replayed [sym] [out]
    have hexec : Found [.exec sym] := by simp [Found]
    refine getSelf_bind_triple fun w₁ hw₁ => ?_
    have hretrying : w₁.self.isRetryRunning = false := (congrArg Told.retrying hw₁.2).trans ht.retrying
    have houtputs : w₁.self.outputSequence = w.told.outputs ++ [out] := congrArg Told.outputs hw₁.2
    rw [hretrying, houtputs, hcls.suspicious, Bool.not_false, Bool.true_and]
    split
    case isTrue hbad =>
      -- a wrong answer leaves at most five for the retries
      have hle : left ≤ 5 := by
        rcases hanswer with ⟨rfl, -⟩ | ⟨-, hleft⟩
        · rw [hcls.right] at hbad
          cases hbad
        · omega
      have hinputs : t₁.inputs = inputs ++ [sym] := congrArg (· ++ [sym]) ht.inputs
      have hdropLast : t₁.filter t₁.outputs.dropLast = t₁.filter (M.word M.init inputs) := by
        rw [show t₁.outputs = w.told.outputs ++ [out] from rfl, List.dropLast_concat]
        exact hearlier
      have hpre : ∀ w', w' = w₁ → At (I (M.next (M.after M.init inputs) sym) left) t₁ w' :=
        fun w' h => h ▸ hw₁
      refine ((g.retrySequence hcls depth sym hinputs hdropLast hle).pre hpre).post ?_
      rintro out' w' ⟨hout, outs, left', trace, hfilter, hfound, hI', hw'⟩
      refine ⟨hout, ?_, left', hI'⟩
      have hnext := ht.snoc sym hfilter (hexec.append hfound)
      rw [hw']
      simpa [t₁, Told.replayed, ht.inputs, ht.retrying] using hnext
    case isFalse hgood =>
      have hout : out = M.emit (M.after M.init inputs) sym := by
        rcases hanswer with ⟨hout, -⟩ | ⟨hbad, -⟩
        · exact hout
        · exact absurd hbad hgood
      refine .pure ?_
      rintro w' rfl
      refine ⟨hout, ?_, left, ?_⟩
      · have hfilter : w.told.filter (w.told.outputs ++ [out]) =
            w.told.filter (M.word M.init (inputs ++ [sym])) := by
          rw [Mealy.word_snoc, Told.filter_append, Told.filter_append, hearlier, hout]
        have hnext := ht.snoc sym hfilter hexec
        rw [hw₁.2]
        simpa [Told.replayed, ht.inputs] using hnext
      · rw [Mealy.after_snoc]
        exact hw₁.1

/-- The learner gets it filtered. -/
theorem step_seen (t : Told) (inputs : List InputSymbol) (sym : InputSymbol) :
    Triple (Seen M I t inputs) (fun _ _ => True) (step lib cls sym) fun out w =>
      out = filterSymbol (M.emit (M.after M.init inputs) sym) t.filters ∧
        Seen M I t (inputs ++ [sym]) w := by
  refine (g.stepInternal_seen hcls hallowance t inputs recursionLimit sym).bind fun out => .of_eq ?_
  rintro w ⟨rfl, hw⟩
  refine getSelf_bind_triple fun w' hw' => .pure ?_
  subst hw'
  rintro w' rfl
  have hfilters : w'.self.outputSymbolFilters = t.filters := hw.1.filters
  exact ⟨by rw [hfilters], hw⟩

/-- The steps of a test, by induction on them. -/
theorem steps_seen (t : Told) (inputs syms : List InputSymbol) :
    Triple (Seen M I t inputs) (fun _ _ => True) (steps lib cls syms) fun outs w =>
      outs = t.filter (M.word (M.after M.init inputs) syms) ∧ Seen M I t (inputs ++ syms) w := by
  induction syms generalizing inputs with
  | nil =>
    refine .pure fun w hw => ⟨rfl, ?_⟩
    rwa [List.append_nil]
  | cons sym syms ih =>
    refine (g.step_seen hcls hallowance t inputs sym).bind fun out => .of_eq ?_
    rintro w ⟨rfl, hw⟩
    have hpre : ∀ w', w' = w → Seen M I t (inputs ++ [sym]) w' := fun w' h => h ▸ hw
    refine ((ih _).pre hpre).bind fun outs => .pure ?_
    rintro w' ⟨rfl, hw'⟩
    rw [Mealy.after_snoc]
    refine ⟨rfl, ?_⟩
    rwa [List.append_cons]

/-- A test starts anew, whatever state the device was in. -/
theorem test_seen (t : Told) (syms : List InputSymbol) :
    Triple (Idle I t) (fun _ _ => True) (test lib cls syms) fun outs w =>
      outs = t.filter (M.word M.init syms) ∧ Seen M I t syms w := by
  refine .of_eq ?_
  rintro w ⟨ht, s, n, hI⟩
  have hpre := ((g.pre n).pre fun w' hw' => ⟨s, hw'⟩).and (@pre_records _ lib cls w.told)
  refine (hpre.pre ?_).bind fun _ => (g.steps_seen hcls hallowance t [] syms).pre ?_
  · rintro _ rfl
    exact ⟨hI, rfl⟩
  · rintro w' ⟨hI', hw'⟩
    obtain ⟨trace, htrace, hfound⟩ := ht.trace
    rw [Seen, hw']
    refine ⟨⟨⟨ht.retrying, ht.filters, trace ++ [.reset], ?_, ?_⟩, rfl, rfl⟩, n, hI'⟩
    · rw [Told.restart, htrace, List.append_assoc]
    · exact hfound.append (by simp [Found])

/-- Tests, where `last` are the inputs of the last test before them. -/
theorem tests_seen (t : Told) (last : Option (List InputSymbol)) (queries : List (List InputSymbol)) :
    Triple (fun w => Idle I t w ∧ ∀ inputs ∈ last, Seen M I t inputs w) (fun _ _ => True)
      (tests lib cls queries) fun answers w =>
        answers = queries.map (fun inputs => t.filter (M.word M.init inputs)) ∧ Idle I t w ∧
          ∀ inputs ∈ queries.getLast?.or last, Seen M I t inputs w := by
  induction queries generalizing last with
  | nil => exact .pure fun w hw => ⟨rfl, hw⟩
  | cons inputs queries ih =>
    have htest := (g.test_seen hcls hallowance t inputs).pre fun w
      (hw : Idle I t w ∧ ∀ inputs ∈ last, Seen M I t inputs w) => hw.1
    refine htest.bind fun outs => .of_eq ?_
    rintro w ⟨rfl, hfollows, left, hI⟩
    refine ((ih (some inputs)).pre ?_).bind fun answers => .pure ?_
    · rintro _ rfl
      refine ⟨⟨hfollows.toContinues, _, left, hI⟩, ?_⟩
      rintro _ ⟨⟩
      exact ⟨hfollows, left, hI⟩
    · rintro w' ⟨rfl, hidle, hlast⟩
      refine ⟨rfl, hidle, ?_⟩
      rw [List.getLast?_cons]
      cases hqueries : queries.getLast? with
      | none => simpa [hqueries] using hlast
      | some inputs' => simpa [hqueries] using hlast

end Glitches

/-! ## A device with noise -/

/-- How many packets are left in the stream. -/
def World.packetsLeft (w : World τ) : ℕ := w.env.rx.reduceOption.length

/-- The stream only gets shorter. -/
theorem SymbolAssign.packetsLeft_le {w w' : World τ} (h : SymbolAssign lib w w') :
    w'.packetsLeft ≤ w.packetsLeft := by
  rcases h with h | h
  · cases h with
    | env _ hrx => exact (hrx.sublist.filterMap id).length_le
    | deviceReset _ env _ hrx =>
      show env.rx.reduceOption.length ≤ w.env.rx.reduceOption.length
      rw [hrx]
    | _ => exact le_rfl
  · cases h <;> exact le_rfl

/-- The name of a packet that Scapy cannot dissect further occurs in an output. -/
def hasRaw (out : Text) : Bool := decide ("Raw".toList <:+: out)

/-- This class suspects undissected packets, and a missing response is none. -/
theorem recognises_raw : Recognises nrf52840DKNimble hasRaw mutedMachine where
  suspicious _ outputs out := by
    show lastOutputHas (outputs ++ [out]) "Raw" = hasRaw out
    rw [lastOutputHas, List.getLast?_concat]
    rfl
  right _ _ := by
    show hasRaw "NORESPONSE".toList = false
    decide

/-- Scapy cannot dissect what comes from the device. -/
def noiseLib : Lib Unit := plainLib (answerScapy "Raw".toList)

/-- The device is mute, and no more packets come from it than there are wrong answers left. -/
structure Noisy (allowance left : ℕ) (w : World Unit) : Prop where
  unlisted : Unlisted "Raw".toList w
  packets : w.packetsLeft ≤ left
  le : left ≤ allowance

/-- Nothing that an input symbol does brings new noise. -/
theorem Noisy.assign {allowance left : ℕ} {w w' : World Unit} (hw : Noisy allowance left w)
    (h : SymbolAssign noiseLib w w') : Noisy allowance left w' :=
  ⟨hw.unlisted.assign (by decide) h, h.packetsLeft_le.trans hw.packets, hw.le⟩

/-- Noise is a wrong answer, for which a packet is taken from the stream. -/
theorem noise_glitches (cls : MapperClass) (allowance : ℕ) :
    Glitches noiseLib cls hasRaw allowance mutedMachine fun _ => Noisy allowance where
  bookkeeping {_ _ w _} h hw := by
    obtain ⟨inputs, outputs, retrying, log, rfl⟩ := h
    exact ⟨hw.unlisted, hw.packets, hw.le⟩
  pre left := by
    have hkeeps : Keeps (Noisy allowance left) (fun _ _ => True) (pre noiseLib cls) := by
      refine pre_keeps (fun _ _ h hw => ⟨trivial, hw.assign (.inl h)⟩) fun w draw env hrx hw => ?_
      refine ⟨trivial, hw.unlisted, ?_, hw.le⟩
      show env.rx.reduceOption.length ≤ left
      rw [hrx]
      exact hw.packets
    exact hkeeps.1.pre fun _ ⟨_, hw⟩ => hw
  resetDevice left := by
    have hkeeps : Keeps (Noisy allowance left) (fun _ _ => True) (resetDevice : Program Unit Unit) :=
      (@resetDevice_steps _ noiseLib).keeps fun _ _ h hw => ⟨trivial, hw.assign (.inl h)⟩
    exact (hkeeps.1.pre fun _ ⟨_, hw⟩ => hw).post fun _ _ hw => ⟨(), hw⟩
  perform {_ n w} sym hw := by
    have hinbound : Inbound noiseLib (fun w₁ => Unlisted "Raw".toList w₁ ∧
        w₁.packetsLeft ≤ w.packetsLeft) fun pkt w₁ => IsAnswer pkt ∧ w₁.packetsLeft < w.packetsLeft :=
      { keeps := fun h hw₁ => ⟨hw₁.1.assign (by decide) h, h.packetsLeft_le.trans hw₁.2⟩
        stays := fun _ h hpkt => ⟨hpkt.1, h.packetsLeft_le.trans_lt hpkt.2⟩
        takes := fun {w₁ data rx} hw₁ hrx _ => by
          have hleft : w₁.packetsLeft = rx.reduceOption.length + 1 := by
            rw [World.packetsLeft, hrx]
            rfl
          have hlt : rx.reduceOption.length < w.packetsLeft := by
            have := hw₁.2
            omega
          exact ⟨rfl, hlt⟩
        fixes := fun _ hpkt => ⟨hpkt.1.fixPacket, hpkt.2⟩ }
    have houtput := @Inbound.performSymbol _ _ cls _ _ hinbound sym (packets sym w.self)
    have hpre : ∀ w', w' = w → Unlisted "Raw".toList w' ∧ w'.packetsLeft ≤ w.packetsLeft := by
      rintro _ rfl
      exact ⟨hw.unlisted, le_rfl⟩
    refine (houtput.pre hpre).post ?_
    rintro out w' ⟨w₀, pkts, hw₀, ⟨hw', hpkts⟩, rfl⟩
    -- what is left at the start of the step
    have hstart : w.packetsLeft ≤ (if w.self.isRetryRunning then n else allowance) ∧
        (if w.self.isRetryRunning then n else allowance) ≤ allowance := by
      split
      · exact ⟨hw.packets, hw.le⟩
      · exact ⟨hw.packets.trans hw.le, le_rfl⟩
    generalize (if w.self.isRetryRunning then n else allowance) = m at hstart ⊢
    by_cases hne : pkts = []
    · refine ⟨m, .inl ⟨?_, rfl⟩, hw'.1, hw'.2.trans hstart.1, hstart.2⟩
      rw [hne]
      rfl
    · obtain ⟨pkt, hpkt⟩ := List.exists_mem_of_ne_nil pkts hne
      have hlt : w'.packetsLeft < w.packetsLeft := (hpkts pkt hpkt).2
      have hanswer : packetsSymbol noiseLib (w₀.self.symbols.getD (symbolTable noiseLib w₀.self))
          pkts = "Raw".toList :=
        packetsSymbol_answer (by decide) (by decide) hw₀.1 hne fun pkt hpkt => (hpkts pkt hpkt).1
      refine ⟨m - 1, .inr ⟨?_, by omega⟩, hw'.1, by omega, by omega⟩
      rw [hanswer]
      decide

/-! ## The main result -/

/-- A device that makes noise in the first test, and not when it is retried. -/
def noisyWorld : World Unit := plainWorld 0 (List.replicate 3 (some [0]) ++ [none])

/-- The final state of this test. -/
def noisyFinal : World Unit := (tests noiseLib nrf52840DKNimble [[.llData]]).final noisyWorld

/-- There are three packets, and six wrong answers would be made good. -/
theorem noisyWorld_noisy : Noisy 6 6 noisyWorld where
  unlisted _ h := by cases h
  packets := by decide
  le := le_rfl

end BleFuzzer.Mapper

import BleFuzzer.Mapper.Classes
import BleFuzzer.Mapper.Retry

/-!
# The flag of a running retry

`is_retry_running` is set by each attempt of `retry_sequence` and cleared when its loop has ended,
and nothing else assigns it. An exception inside the loop leaves it set, after which no step retries
again.
-/

namespace BleFuzzer.Mapper

open Driver Exec

variable {τ : Type} (lib : Lib τ) (cls : MapperClass)

/-! ## A step and its retry -/

/-- `step_internal` up to the decision on a retry. -/
def stepRequest (inputSymbol : InputSymbol) : Program τ Text := do
  record (.exec inputSymbol) id
  let self ← getSelf
  if self.accessAddress.isNone then
    Exec.throw .attributeError
  else
    let outputSymbol ← performSymbol lib cls inputSymbol (packets inputSymbol self)
    modifySelf fun self =>
      { self with
        inputSequence := self.inputSequence ++ [inputSymbol]
        outputSequence := self.outputSequence ++ [outputSymbol] }
    return outputSymbol

/-- Whether `step_internal` starts a retry. -/
def retries (self : Blesul) : Bool :=
  !self.isRetryRunning && cls.isLastSymSuspicious self.inputSequence self.outputSequence

/-- A step: the request, and then perhaps a retry. -/
theorem stepInternal_succ (depth : ℕ) (inputSymbol : InputSymbol) :
    stepInternal lib cls (depth + 1) inputSymbol =
      (stepRequest lib cls inputSymbol >>= fun outputSymbol => getSelf >>= fun self =>
        if retries cls self then retrySequence lib cls (stepInternal lib cls depth)
        else pure outputSymbol) := by
  rw [stepInternal, stepRequest, bind_assoc]
  refine congrArg (record (.exec inputSymbol) id >>= ·) (funext fun _ => ?_)
  rw [bind_assoc]
  refine congrArg (getSelf >>= ·) (funext fun self => ?_)
  split
  · rfl
  · rw [bind_assoc]
    rfl

/-- In a step from `w`, a retry starts, and a call made by `retry_sequence` raises. -/
def RetryFails (w : World τ) (inputSymbol : InputSymbol) : Prop :=
  ∃ out w₁ e, (stepRequest lib cls inputSymbol).Returns w out w₁ ∧ retries cls w₁.self = true ∧
    (retrySequence lib cls (stepInternal lib cls (recursionLimit - 1))).result w₁ = .error e

/-! ## What keeps the flag -/

/-- An assignment of anything but the flag. -/
def KeepsFlag (w w' : World τ) : Prop := w'.self.isRetryRunning = w.self.isRetryRunning

variable {lib} {cls}

/-- Steps that keep the flag keep it to the end. -/
theorem keepsFlag_final {α : Type} {P : World τ → Prop} {m : Program τ α}
    {Q : α → World τ → Prop} (h : Triple P KeepsFlag m Q) {w : World τ} (hw : P w) :
    (m.final w).self.isRetryRunning = w.self.isRetryRunning :=
  h.final (I := fun t => t.self.isRetryRunning = w.self.isRetryRunning)
    (fun _ _ hkeeps ht => hkeeps.trans ht) hw rfl

/-- An input symbol keeps the flag. -/
theorem SymbolAssign.keepsFlag {w w' : World τ} (h : SymbolAssign lib w w') : KeepsFlag w w' :=
  congrArg Told.retrying h.told

/-- So does `pre`. -/
theorem pre_keepsFlag : Steps KeepsFlag (pre lib cls) :=
  (pre_keeps (keeps_true fun _ _ h => SymbolAssign.keepsFlag (.inl h))
    fun _ _ _ _ _ => ⟨rfl, trivial⟩).1

/-- So does a step before its retry. -/
theorem stepRequest_keepsFlag (sym : InputSymbol) : Steps KeepsFlag (stepRequest lib cls sym) := by
  refine .bind (.modify fun _ => rfl) fun _ => getSelf_bind_steps fun self => .ite (.throw _) ?_
  refine .bind ((performSymbol_steps sym _).mono fun _ _ h => h.keepsFlag) fun out => ?_
  exact .bind (.modify fun _ => rfl) fun _ => .pure _

/-- Nothing in `m` clears the flag. -/
abbrev Latched {α : Type} (m : Program τ α) : Prop :=
  Triple (fun w => w.self.isRetryRunning = true) KeepsFlag m fun _ w => w.self.isRetryRunning = true

/-- A program that keeps the flag does not clear it. -/
theorem Latched.of_steps {α : Type} {m : Program τ α} (h : Steps KeepsFlag m) : Latched m :=
  h.triple fun _ _ hkeeps hw => hkeeps.trans hw

/-- A flag that is set stays so, also when the program raises. -/
theorem Latched.final {α : Type} {m : Program τ α} (h : Latched m) {w : World τ}
    (hw : w.self.isRetryRunning = true) : (m.final w).self.isRetryRunning = true :=
  (keepsFlag_final h hw).trans hw

/-- While the flag is set, a step does not retry. -/
theorem stepInternal_latched (depth : ℕ) (sym : InputSymbol) :
    Latched (stepInternal lib cls depth sym) := by
  cases depth with
  | zero => exact .throw
  | succ depth =>
    rw [stepInternal_succ]
    refine (Latched.of_steps (stepRequest_keepsFlag sym)).bind fun out => ?_
    refine getSelf_bind_triple fun w hw => ?_
    rw [retries, hw, Bool.not_true, Bool.false_and, if_neg Bool.false_ne_true]
    refine .pure ?_
    rintro w' rfl
    exact hw

/-- The steps of a replay do not retry, while the flag is set. -/
theorem replay_latched (depth : ℕ) (syms : List InputSymbol) :
    Latched (replay (stepInternal lib cls depth) syms) := by
  induction syms with
  | nil => exact .pure fun _ => id
  | cons sym syms ih => exact (stepInternal_latched depth sym).bind fun _ => ih

/-! ## `retry_sequence` -/

/-- A message does not clear the flag. -/
theorem say_latched (message : RetryMessage) :
    Latched (record (.retry message) id : Program τ Unit) :=
  .of_steps (.modify fun _ => rfl)

/-- Nor does an attempt. -/
theorem retryAttempt_latched {depth : ℕ} {seqIn : List InputSymbol} {seqOut : List Text}
    {attempt : ℕ} {again : Program τ Unit} (hagain : Latched again) :
    Latched (retryAttempt lib cls (stepInternal lib cls depth) seqIn seqOut attempt again) := by
  refine (say_latched _).bind fun _ => ?_
  refine .bind (Q := fun _ w => w.self.isRetryRunning = true) (.modify fun w hw => ⟨hw.symm, rfl⟩)
    fun _ => ?_
  refine (Latched.of_steps pre_keepsFlag).bind fun _ => ?_
  refine (replay_latched depth seqIn).bind fun _ => getSelf_bind_triple fun w hw => ?_
  refine Triple.pre (P := fun w => w.self.isRetryRunning = true) ?_ (by rintro w' rfl; exact hw)
  split
  · split
    · exact (say_latched _).bind fun _ => hagain
    · exact say_latched _
  · split
    · split
      · exact (say_latched _).bind fun _ => hagain
      · exact say_latched _
    · exact say_latched _

/-- Nor does the loop of `retry_sequence`, by induction on its bound. -/
theorem retryLoop_latched (depth : ℕ) (seqIn : List InputSymbol) (seqOut : List Text)
    (bound attempt : ℕ) :
    Latched (retryLoop lib cls (stepInternal lib cls depth) seqIn seqOut bound attempt) := by
  induction bound generalizing attempt with
  | zero => exact .throw
  | succ bound ih =>
    rw [retryLoop_succ]
    have hattempt := @retryAttempt_latched _ lib cls depth seqIn seqOut (attempt + 1) _
      (ih (attempt + 1))
    split
    · refine (say_latched _).bind fun _ => ?_
      have hreset : Steps KeepsFlag (resetDevice : Program τ Unit) :=
        (@resetDevice_steps _ lib).mono fun _ _ h => SymbolAssign.keepsFlag (.inl h)
      exact (Latched.of_steps hreset).bind fun _ => hattempt
    · exact hattempt

/-- An attempt sets the flag, however it ends. -/
theorem retryAttempt_sets {depth : ℕ} {seqIn : List InputSymbol} {seqOut : List Text}
    {attempt : ℕ} {again : Program τ Unit} (hagain : Latched again) (w : World τ) :
    ((retryAttempt lib cls (stepInternal lib cls depth) seqIn seqOut attempt again).final
      w).self.isRetryRunning = true := by
  -- the flag is overwritten before it is read
  have hset : (retryAttempt lib cls (stepInternal lib cls depth) seqIn seqOut attempt again).final
      w = (retryAttempt lib cls (stepInternal lib cls depth) seqIn seqOut attempt again).final
        { w with self := { w.self with isRetryRunning := true } } := by
    have hfirst (f g : World τ → World τ) (m : Program τ Unit) (w : World τ) :
        (Exec.modify f >>= fun _ => Exec.modify g >>= fun _ => m).final w = m.final (g (f w)) :=
      (modify_bind_final f _ w).trans (modify_bind_final g m (f w))
    refine (hfirst _ _ _ _).trans (Eq.symm ((hfirst _ _ _ _).trans ?_))
    rfl
  rw [hset]
  exact (retryAttempt_latched hagain).final rfl

/-- The first attempt sets the flag before anything can raise. -/
theorem retryLoop_sets (depth : ℕ) (seqIn : List InputSymbol) (seqOut : List Text) (bound : ℕ)
    (w : World τ) :
    ((retryLoop lib cls (stepInternal lib cls depth) seqIn seqOut (bound + 1) 0).final
      w).self.isRetryRunning = true := by
  rw [retryLoop_succ]
  exact retryAttempt_sets (retryLoop_latched depth seqIn seqOut bound 1) w

/-- Where `retry_sequence` returns the flag is cleared, and where it raises the flag is left set. -/
theorem retrySequence_flag (depth : ℕ) {w : World τ} (hinputs : w.self.inputSequence ≠ []) :
    ((retrySequence lib cls (stepInternal lib cls depth)).final w).self.isRetryRunning = true ↔
      ∃ e, (retrySequence lib cls (stepInternal lib cls depth)).result w = .error e := by
  cases hres : (retrySequence lib cls (stepInternal lib cls depth)).result w with
  | ok out =>
    obtain ⟨-, t₁, -, htold⟩ := (retrySequence_records w.told depth).returns rfl ⟨hres, rfl⟩
    have hcleared : ((retrySequence lib cls (stepInternal lib cls depth)).final
        w).self.isRetryRunning = false := congrArg Told.retrying htold
    simp [hcleared]
  | error e =>
    refine ⟨fun _ => ⟨e, rfl⟩, fun _ => ?_⟩
    rw [retrySequence] at hres ⊢
    rw [(bind_ok (getSelf_returns w).1).1, (getSelf_returns w).2] at hres
    rw [(bind_ok (getSelf_returns w).1).2.1, (getSelf_returns w).2]
    rw [(bind_ok (record_returns _ _ w).1).1, (record_returns _ _ w).2] at hres
    rw [(bind_ok (record_returns _ _ w).1).2.1, (record_returns _ _ w).2]
    set w₁ : World τ := { w with self := id w.self, log := w.log ++ [.retry .retrying] } with hw₁
    set loop := retryLoop lib cls (stepInternal lib cls depth) w.self.inputSequence
      w.self.outputSequence 7 0 with hloop
    cases hloopRes : loop.result w₁ with
    | error e' =>
      -- the first attempt has set the flag, and the loop does not clear it
      rw [(bind_error hloopRes).2.1]
      exact retryLoop_sets depth _ _ 6 w₁
    | ok _ =>
      -- the replayed sequence has a last output
      rw [(bind_ok hloopRes).1] at hres
      obtain ⟨messages, outs, hlength, -, htold⟩ :=
        (retryLoop_records w₁.told depth w.self.inputSequence w.self.outputSequence 7 0).returns rfl
          ⟨hloopRes, rfl⟩
      have houts : (loop.final w₁).self.outputSequence = outs := congrArg Told.outputs htold
      have hne : outs ≠ [] := by
        intro hnil
        rw [hnil] at hlength
        exact hinputs (List.length_eq_zero_iff.mp hlength.symm)
      rw [modifySelf, (bind_ok (modify_result _ _)).1, modify_final] at hres
      rw [(bind_ok (getSelf_returns _).1).1, (getSelf_returns _).2] at hres
      dsimp only at hres
      rw [houts, List.getLast?_eq_some_getLast hne] at hres
      cases hres

/-! ## Sessions -/

/-- Filtering the output changes nothing. -/
theorem step_final (sym : InputSymbol) (w : World τ) :
    (step lib cls sym).final w = (stepInternal lib cls recursionLimit sym).final w :=
  bind_final_of_keeps (fun _ _ => rfl) w

/-- A step that has been made is recorded. -/
theorem stepRequest_inputs {sym : InputSymbol} {w w' : World τ} {out : Text}
    (h : (stepRequest lib cls sym).Returns w out w') : w'.self.inputSequence ≠ [] := by
  obtain ⟨_, w₁, -, h⟩ := h.of_bind
  have h := of_getSelf_bind h
  split at h
  · exact h.not_throw.elim
  · obtain ⟨_, w₂, -, h⟩ := h.of_bind
    obtain ⟨_, w₃, happend, h⟩ := h.of_bind
    obtain rfl := happend.of_modify
    obtain ⟨-, rfl⟩ := h.of_pure
    simp

/-- After a step from a state without the flag, the flag is set if the retry of the step has failed.
-/
theorem step_flag_iff {w : World τ} (hw : w.self.isRetryRunning = false) (sym : InputSymbol) :
    ((step lib cls sym).final w).self.isRetryRunning = true ↔ RetryFails lib cls w sym := by
  have hkeeps := (keepsFlag_final (@stepRequest_keepsFlag _ lib cls sym) (w := w) trivial).trans hw
  rw [step_final, show recursionLimit = 999 + 1 from rfl, stepInternal_succ, RetryFails]
  cases hres : (stepRequest lib cls sym).result w with
  | error e =>
    -- the request raises, so no retry has started
    rw [(bind_error hres).2.1, hkeeps]
    refine ⟨nofun, ?_⟩
    rintro ⟨out, w₁, e', hrequest, -, -⟩
    exact nomatch hres.symm.trans hrequest.1
  | ok out =>
    rw [(bind_ok hres).2.1, (bind_ok (getSelf_returns _).1).2.1, (getSelf_returns _).2]
    have hinputs := stepRequest_inputs ⟨hres, rfl⟩
    cases hretries : retries cls ((stepRequest lib cls sym).final w).self with
    | true =>
      rw [if_pos rfl, retrySequence_flag 999 hinputs]
      constructor
      · rintro ⟨e, he⟩
        exact ⟨out, _, e, ⟨hres, rfl⟩, hretries, he⟩
      · rintro ⟨out', _, e, ⟨-, rfl⟩, -, he⟩
        exact ⟨e, he⟩
    | false =>
      rw [if_neg Bool.false_ne_true, pure_final, hkeeps]
      refine ⟨nofun, ?_⟩
      rintro ⟨out', _, e, ⟨-, rfl⟩, htrue, -⟩
      exact nomatch hretries.symm.trans htrue

/-- A session goes on from where its first call has ended, also with an exception. -/
theorem session_cons_final (c : Call) (cs : List Call) (w : World τ) :
    (session lib cls (c :: cs)).final w = (session lib cls cs).final ((call lib cls c).final w) :=
  (bind_ok (m := (call lib cls c).attempt) (f := fun _ => session lib cls cs) rfl).2.1

/-- A call of `step` ends where the step ends. -/
theorem call_step_final (sym : InputSymbol) (w : World τ) :
    (call lib cls (.step sym)).final w = (step lib cls sym).final w :=
  bind_final_of_keeps (fun _ _ => rfl) w

/-- Once set, the flag stays set. -/
theorem session_latched (cs : List Call) {w : World τ} (hw : w.self.isRetryRunning = true) :
    ((session lib cls cs).final w).self.isRetryRunning = true := by
  induction cs generalizing w with
  | nil => exact hw
  | cons c cs ih =>
    rw [session_cons_final]
    refine ih ?_
    match c with
    | .pre => exact (Latched.of_steps (@pre_keepsFlag _ lib cls)).final hw
    | .step sym =>
      rw [call_step_final, step_final]
      exact (stepInternal_latched _ sym).final hw

/-- In a session from `w`, the retry of a step fails. -/
def HasFailedRetry (lib : Lib τ) (cls : MapperClass) (w : World τ) (cs : List Call) : Prop :=
  ∃ cs₁ sym cs₂, cs = cs₁ ++ .step sym :: cs₂ ∧
    RetryFails lib cls ((session lib cls cs₁).final w) sym

/-- A retry has failed in the first call, or in the others. -/
theorem hasFailedRetry_cons {w : World τ} {c : Call} {cs : List Call} :
    HasFailedRetry lib cls w (c :: cs) ↔
      (∃ sym, c = .step sym ∧ RetryFails lib cls w sym) ∨
        HasFailedRetry lib cls ((call lib cls c).final w) cs := by
  constructor
  · rintro ⟨cs₁, sym, cs₂, hsplit, hfails⟩
    match cs₁ with
    | [] =>
      obtain ⟨rfl, -⟩ := List.cons.inj hsplit
      exact .inl ⟨sym, rfl, hfails⟩
    | _ :: cs₁ =>
      obtain ⟨rfl, rfl⟩ := List.cons.inj hsplit
      rw [session_cons_final] at hfails
      exact .inr ⟨cs₁, sym, cs₂, rfl, hfails⟩
  · rintro (⟨sym, rfl, hfails⟩ | ⟨cs₁, sym, cs₂, rfl, hfails⟩)
    · exact ⟨[], sym, cs, rfl, hfails⟩
    · refine ⟨c :: cs₁, sym, cs₂, rfl, ?_⟩
      rw [session_cons_final]
      exact hfails

/-- The flag is set at the end exactly if a retry has failed, by induction on the session. -/
theorem session_flag_iff (cs : List Call) {w : World τ} (hw : w.self.isRetryRunning = false) :
    ((session lib cls cs).final w).self.isRetryRunning = true ↔ HasFailedRetry lib cls w cs := by
  induction cs generalizing w with
  | nil =>
    refine ⟨fun h => ?_, ?_⟩
    · exact nomatch hw.symm.trans h
    · rintro ⟨cs₁, sym, cs₂, hsplit, -⟩
      exact absurd hsplit (by simp)
  | cons c cs ih =>
    rw [session_cons_final, hasFailedRetry_cons]
    match c with
    | .pre =>
      have hpre : ((call lib cls .pre).final w).self.isRetryRunning = false :=
        (keepsFlag_final (@pre_keepsFlag _ lib cls) trivial).trans hw
      rw [ih hpre]
      simp
    | .step sym =>
      have hstep := @step_flag_iff _ lib cls w hw sym
      rw [call_step_final]
      cases hflag : ((step lib cls sym).final w).self.isRetryRunning with
      -- nothing after the first failing retry clears the flag
      | true => exact iff_of_true (session_latched cs hflag) (.inl ⟨sym, rfl, hstep.mp hflag⟩)
      | false =>
        rw [ih hflag]
        refine ⟨.inr, ?_⟩
        rintro (⟨sym', hsym, hfails⟩ | hfails)
        · obtain rfl := Call.step.inj hsym
          exact nomatch hflag.symm.trans (hstep.mpr hfails)
        · exact hfails

/-- A session in two parts. -/
theorem session_append_final (cs cs' : List Call) (w : World τ) :
    (session lib cls (cs ++ cs')).final w =
      (session lib cls cs').final ((session lib cls cs).final w) := by
  induction cs generalizing w with
  | nil => rfl
  | cons c cs ih => rw [List.cons_append, session_cons_final, ih, session_cons_final]

/-- **After any calls and another `pre`, the flag is cleared if and only if no retry has failed**:
only then will a step retry as in a constructed mapper. -/
theorem retryRunning_false_iff {args : BlesulArgs} {now : ℤ} {env : Env} {smp : τ} {w₀ : World τ}
    (hconstruct : construct args now env smp = .ok w₀) (cs : List Call) :
    ((session lib cls (cs ++ [.pre])).final w₀).self.isRetryRunning = false ↔
      ¬ HasFailedRetry lib cls w₀ cs := by
  have hstart : w₀.self.isRetryRunning = false := by
    obtain rfl := Except.ok.inj hconstruct
    rfl
  have hpre (w : World τ) : ((session lib cls [.pre]).final w).self.isRetryRunning =
      w.self.isRetryRunning := by
    rw [session_cons_final]
    exact keepsFlag_final (@pre_keepsFlag _ lib cls) trivial
  rw [session_append_final, hpre, ← session_flag_iff cs hstart, Bool.not_eq_true]

/-! ## Two small sessions -/

/-- A device that answers the first scan request and then falls silent, long enough for a step, and
for a `reset` after it, to go without an answer. -/
def failedRetryWorld (cs : List Call) : World Unit :=
  (session (plainLib scanScapy) arduinoNanoESP32 cs).final
    (plainWorld 0 ([some [0], none, none] ++ List.replicate 32 none ++ [some [0], none, none]))

/-- The `reset` of the retry gives up and the step raises its exception. The next `pre` completes
with the flag set, and the same suspicious symbol is not retried any more. -/
theorem retryRunning_after_failure :
    let test := [.pre, .step .llAdvConnectInd, .step .llCtrlPauseEncReq]
    (step (plainLib scanScapy) arduinoNanoESP32 .llCtrlPauseEncReq).result
        (failedRetryWorld [.pre, .step .llAdvConnectInd]) =
      .error (.runtimeError
        "RESET: PROBLEM: CANNOT GET A SCAN RESPONSE FROM THE DEVICE DURING RESET") ∧
    ((pre (plainLib scanScapy) arduinoNanoESP32).result (failedRetryWorld test)).isOk = true ∧
    (failedRetryWorld (test ++ [.pre])).self.isRetryRunning = true ∧
    (failedRetryWorld test).log.count (.retry .retrying) = 1 ∧
    (failedRetryWorld (test ++ test)).self.inputSequence = [.llAdvConnectInd, .llCtrlPauseEncReq] ∧
    (failedRetryWorld (test ++ test)).self.outputSequence =
      ["NORESPONSE".toList, "NORESPONSE".toList] ∧
    (failedRetryWorld (test ++ test)).log.count (.retry .retrying) = 1 := by
  decide +kernel

/-- A retry that ends clears the flag. -/
theorem retryRunning_false_iff_retried :
    ¬ HasFailedRetry (plainLib scanScapy) suspiciousClass
      (plainWorld 0 [some [0], none, some [0], some [1], some [0]]) [.pre, .step .llData] := by
  refine (retryRunning_false_iff (construct_plain 0 _) [.pre, .step .llData]).mp ?_
  decide +kernel

end BleFuzzer.Mapper

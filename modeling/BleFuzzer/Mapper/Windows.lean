import BleFuzzer.Mapper.Classes
import BleFuzzer.Mapper.CryptoState

/-!
# Receive windows and the crypto state

A run of the mapper as a list of moments: resets, the methods `_pre` of input symbols, and receive
windows with the packets accepted in them. What the run does to the crypto state is a function of
the effects of these moments (`Exchanged.crypto`), so that two ways of splitting an exchange into
steps end alike if they have the same effects (`crypto_eq_of_effects_eq`). An answer of the
handshake has an effect in a window of the step that asks for it, and in no other.
-/

namespace BleFuzzer.Mapper

open Driver Exec

variable {τ : Type} (lib : Lib τ) (cls : MapperClass)

/-! ## Effects -/

/-- What makes a difference to the crypto state. -/
inductive Effect
  | reset (centralAddress : Addr)
  | input (sym : InputSymbol)
  | receive (pkt : Pkt)
  | answer (sym : InputSymbol) (pkt : Pkt)

def CryptoState.apply (c : CryptoState τ) : Effect → CryptoState τ
  | .reset centralAddress => c.reset centralAddress
  | .input sym => c.input lib cls sym
  | .receive pkt => c.receive lib pkt
  | .answer sym pkt => c.answer lib sym pkt

/-- What happens in a run. The packets of a window are received for the step that asks for them, or
for none. -/
inductive Moment
  | reset (centralAddress : Addr)
  | input (sym : InputSymbol)
  | window (asked : Option InputSymbol) (pkts : List Pkt)

/-- Whether the packet is one that the step looks for. -/
def answers : InputSymbol → Pkt → Bool
  | .llCtrlEncReq, pkt => pkt.llEncRsp.isSome || pkt.hasLlStartEncReq
  | .llCtrlPauseEncReq, pkt => pkt.hasLlPauseEncRsp
  | .llAdvScanReq, pkt => pkt.hasBtleScanRsp || pkt.hasBtleAdv
  | _, _ => false

/-- Whether the method `_pre` makes a difference. -/
def acts : InputSymbol → Bool
  | .llAdvScanReq => !cls.llAdvScanReqKeeps
  | .llAdvConnectInd | .smPairingReq | .smPairingReqSc => true
  | _ => false

/-- The effects of a packet: of an advertisement or an SM packet wherever it is received, and of an
answer where it is asked for. -/
def packetEffects (asked : Option InputSymbol) (pkt : Pkt) : List Effect :=
  (if pkt.hasBtleAdv || pkt.hasSmHdr then [.receive pkt] else []) ++
    (asked.toList.filter (answers · pkt)).map (.answer · pkt)

def Moment.effects : Moment → List Effect
  | .reset centralAddress => [.reset centralAddress]
  | .input sym => if acts cls sym then [.input sym] else []
  | .window asked pkts => pkts.flatMap (packetEffects asked)

variable {lib} {cls}

/-- Receiving a packet without an advertising or SM header has no effect. -/
theorem receive_eq_self {pkt : Pkt} (hpkt : (pkt.hasBtleAdv || pkt.hasSmHdr) = false)
    (c : CryptoState τ) : c.receive lib pkt = c := by
  obtain ⟨hadv, hsm⟩ := Bool.or_eq_false_iff.mp hpkt
  rw [CryptoState.receive, CryptoState.process, hadv, hsm]
  simp

/-- Nor has an answer that none of the methods `_post` looks at. -/
theorem answer_eq_self {sym : InputSymbol} {pkt : Pkt} (hpkt : answers sym pkt = false)
    (c : CryptoState τ) : c.answer lib sym pkt = c := by
  cases sym
  case llCtrlEncReq =>
    obtain ⟨hrsp, hstart⟩ := Bool.or_eq_false_iff.mp hpkt
    have hnone : pkt.llEncRsp = none :=
      Option.isSome_eq_false_iff.mp hrsp |> Option.isNone_iff_eq_none.mp
    rw [CryptoState.answer, CryptoState.handshake, hnone, hstart]
    rfl
  case llCtrlPauseEncReq =>
    have hpause : pkt.hasLlPauseEncRsp = false := hpkt
    rw [CryptoState.answer, hpause, if_neg Bool.false_ne_true]
  case llAdvScanReq =>
    have hscan : (pkt.hasBtleScanRsp || pkt.hasBtleAdv) = false := hpkt
    rw [CryptoState.answer, hscan, Bool.false_and, if_neg Bool.false_ne_true]
  all_goals rfl

/-- Nor has an input symbol without a method `_pre` that acts. -/
theorem input_eq_self {sym : InputSymbol} (hsym : acts cls sym = false) (c : CryptoState τ) :
    c.input lib cls sym = c := by
  cases sym
  case llAdvScanReq =>
    have hkeeps : cls.llAdvScanReqKeeps = true := by simpa [acts] using hsym
    rw [CryptoState.input, if_pos hkeeps]
  case llAdvConnectInd | smPairingReq | smPairingReqSc => cases hsym
  all_goals rfl

/-- The effects of a packet that is only received. -/
theorem packetEffects_none (c : CryptoState τ) (pkt : Pkt) :
    (packetEffects none pkt).foldl (CryptoState.apply lib cls) c = c.receive lib pkt := by
  cases hpkt : (pkt.hasBtleAdv || pkt.hasSmHdr) with
  | true =>
    rw [packetEffects, hpkt]
    rfl
  | false =>
    rw [packetEffects, hpkt, receive_eq_self hpkt]
    rfl

/-- The effects of a packet that answers an input symbol. -/
theorem packetEffects_some (sym : InputSymbol) (c : CryptoState τ) (pkt : Pkt) :
    (packetEffects (some sym) pkt).foldl (CryptoState.apply lib cls) c = c.next lib sym pkt := by
  have hsplit : packetEffects (some sym) pkt =
      packetEffects none pkt ++ if answers sym pkt then [.answer sym pkt] else [] := by
    cases hanswers : answers sym pkt <;> simp [packetEffects, hanswers]
  rw [hsplit, List.foldl_append, packetEffects_none, CryptoState.next]
  cases hanswers : answers sym pkt with
  | true => rfl
  | false => exact (answer_eq_self hanswers _).symm

/-! ## Runs -/

variable (lib) (cls)

/-- A run, with what happens in it. Packets are received in its windows and nowhere else. -/
inductive Exchanged : World τ → List Moment → World τ → Prop
  | other {w w' : World τ} (hcrypto : w'.crypto = w.crypto) (hrx : w'.env.rx = w.env.rx) :
      Exchanged w [] w'
  | reset (w : World τ) (draw : Addr × UInt32) (env : Env) (hrx : env.rx = w.env.rx) :
      Exchanged w [.reset draw.1]
        { w with self := w.self.resetFields draw, env := env, log := w.log ++ [.reset] }
  | input {sym : InputSymbol} {self : Blesul} {pkt : Pkt} {w w' : World τ}
      (h : (callPre lib cls sym (packets sym self)).Returns w pkt w') : Exchanged w [.input sym] w'
  | window {recvSMin recvSMax : Option ℤ} {maxPkts : ℕ} {req : Option Pkt} {pkts : List Pkt}
      {w w' : World τ} (h : (receive lib cls recvSMin recvSMax maxPkts req).Returns w pkts w') :
      Exchanged w [.window none pkts] w'
  /-- The packets of a request go to the method `_post`. -/
  | request {sym : InputSymbol} (hsym : sym ≠ .llCtrlEncReq) {recvSMin recvSMax : Option ℤ}
      {maxPkts : ℕ} {req : Option Pkt} {pkts : List Pkt} {w w₁ w' : World τ}
      (hreceive : (receive lib cls recvSMin recvSMax maxPkts req).Returns w pkts w₁)
      (hpost : (callPost sym pkts).Returns w₁ () w') : Exchanged w [.window (some sym) pkts] w'
  /-- `ll_ctrl_enc_req` looks at its packets one at a time. -/
  | encReq {timeStart : ℤ} {bound : ℕ} {pkt : Pkt} {pkts : List Pkt} {w w' : World τ}
      (h : (encReqLoop lib cls timeStart bound pkt []).Returns w pkts w') :
      Exchanged w [.window (some .llCtrlEncReq) pkts] w'
  | trans {w w₁ w' : World τ} {l l' : List Moment} (h : Exchanged w l w₁)
      (h' : Exchanged w₁ l' w') : Exchanged w (l ++ l') w'

variable {lib} {cls}

/-- The effects of packets are those of each, in order. -/
theorem foldl_effects {asked : Option InputSymbol} {f : CryptoState τ → Pkt → CryptoState τ}
    (hf : ∀ c pkt, (packetEffects asked pkt).foldl (CryptoState.apply lib cls) c = f c pkt)
    (pkts : List Pkt) (c : CryptoState τ) :
    (pkts.flatMap (packetEffects asked)).foldl (CryptoState.apply lib cls) c = pkts.foldl f c := by
  rw [List.foldl_flatMap]
  congr 1
  funext c pkt
  exact hf c pkt

/-- **A run takes the crypto state through the effects of what happens in it.** -/
theorem Exchanged.crypto (hlib : TellsAdv lib) {w w' : World τ} {l : List Moment}
    (h : Exchanged lib cls w l w') :
    w'.crypto = (l.flatMap (Moment.effects cls)).foldl (CryptoState.apply lib cls) w.crypto := by
  induction h with
  | other hcrypto => exact hcrypto
  | reset => rfl
  | @input sym _ _ w _ h =>
    rw [callPre_crypto h, List.flatMap_singleton, Moment.effects]
    cases hacts : acts cls sym with
    | true => rfl
    | false => exact input_eq_self hacts _
  | window h =>
    rw [(receive_crypto hlib h).1, List.flatMap_singleton, Moment.effects,
      foldl_effects packetEffects_none]
  | @request sym hsym _ _ _ _ _ _ _ _ hreceive hpost =>
    rw [request_crypto hlib hsym hreceive hpost, List.flatMap_singleton, Moment.effects,
      foldl_effects (packetEffects_some sym)]
  | encReq h =>
    obtain ⟨new, rfl, hcrypto⟩ := encReqLoop_crypto hlib h
    rw [hcrypto, List.flatMap_singleton, Moment.effects,
      foldl_effects (packetEffects_some .llCtrlEncReq)]
  | trans _ _ ih ih' => rw [ih', ih, List.flatMap_append, List.foldl_append]

/-! ## The programs of the mapper -/

variable (lib) (cls)

/-- Whatever of the program returns is a run made of moments. -/
def Accounted {α : Type} (m : Program τ α) : Prop :=
  ∀ w a w', m.Returns w a w' → ∃ l, Exchanged lib cls w l w'

variable {lib} {cls} {α β : Type}

/-- `pure` has no effect. -/
theorem Accounted.pure (a : α) : Accounted lib cls (pure a : Program τ α) := by
  intro w b w' h
  obtain ⟨-, rfl⟩ := h.of_pure
  exact ⟨[], .other rfl rfl⟩

/-- What raises need not be accounted for. -/
theorem Accounted.throw (e : PyErr) : Accounted lib cls (Exec.throw e : Program τ α) :=
  fun _ _ _ h => h.not_throw.elim

/-- Effects of two parts follow each other. -/
theorem Accounted.bind {m : Program τ α} {f : α → Program τ β} (hm : Accounted lib cls m)
    (hf : ∀ a, Accounted lib cls (f a)) : Accounted lib cls (m >>= f) := by
  intro w b w' h
  obtain ⟨a, w₁, hfirst, hrest⟩ := h.of_bind
  obtain ⟨l, hl⟩ := hm w a w₁ hfirst
  obtain ⟨l', hl'⟩ := hf a w₁ b w' hrest
  exact ⟨l ++ l', hl.trans hl'⟩

/-- Reading the object has none. -/
theorem Accounted.getSelf_bind {f : Blesul → Program τ α} (hf : ∀ self, Accounted lib cls (f self)) :
    Accounted lib cls (getSelf >>= f) :=
  fun w a w' h => hf w.self w a w' (of_getSelf_bind h)

/-- An assignment that does not concern the crypto state, with or without an event. -/
theorem Accounted.modifySelf {f : Blesul → Blesul}
    (hf : ∀ w : World τ, ({ w with self := f w.self } : World τ).crypto = w.crypto) :
    Accounted lib cls (modifySelf f) := by
  intro w _ w' h
  obtain rfl := h.of_modify
  exact ⟨[], .other (hf w) rfl⟩

/-- Nor has an assignment outside the crypto state. -/
theorem Accounted.record {e : Event} {f : Blesul → Blesul}
    (hf : ∀ w : World τ, ({ w with self := f w.self } : World τ).crypto = w.crypto) :
    Accounted lib cls (record e f) := by
  intro w _ w' h
  obtain rfl := h.of_modify
  exact ⟨[], .other (hf w) rfl⟩

/-- A choice has those of its branches. -/
theorem Accounted.ite {c : Prop} [Decidable c] {m m' : Program τ α} (hm : Accounted lib cls m)
    (hm' : Accounted lib cls m') : Accounted lib cls (if c then m else m') := by
  split <;> assumption

/-- Sending and judging exchange nothing. -/
theorem Exchanged.of_bare {m : Program τ α} (h : Steps (BareAssign lib) m) (w : World τ) :
    Exchanged lib cls w [] (m.final w) := by
  have hrx : (m.final w).rxSettings = w.rxSettings := side_rxSettings (bare_side h) w
  exact .other (bare_crypto h w) (congrArg Prod.fst hrx)

/-- So they have no effect. -/
theorem Accounted.bare {m : Program τ α} (h : Steps (BareAssign lib) m) : Accounted lib cls m := by
  intro w a w' hreturns
  obtain rfl := hreturns.2
  exact ⟨[], .of_bare h w⟩

/-- A call of `receive` is a moment of its own. -/
theorem Accounted.receive (recvSMin recvSMax : Option ℤ) (maxPkts : ℕ) (req : Option Pkt) :
    Accounted lib cls (receive lib cls recvSMin recvSMax maxPkts req) :=
  fun _ _ _ h => ⟨_, .window h⟩

/-- The encryption request has those of its answers. -/
theorem llCtrlEncReq_accounted (pkt : Pkt) : Accounted lib cls (llCtrlEncReq lib cls pkt) := by
  refine (Accounted.bare (send_bare pkt)).bind fun _ => ?_
  refine (Accounted.record fun _ => rfl).bind fun _ => ?_
  refine (Accounted.bare time_bare).bind fun timeStart => ?_
  intro w out w' h
  obtain ⟨_, _, hget, h⟩ := h.of_bind
  obtain ⟨rfl, rfl⟩ := hget.of_get
  obtain ⟨resPkts, w₁, hloop, hout⟩ := h.of_bind
  obtain ⟨l, hl⟩ := Accounted.bare (outputSymbol_bare resPkts) _ _ _ hout
  exact ⟨_, Exchanged.trans (.encReq hloop) hl⟩

/-- Connecting has those of both calls of `receive`. -/
theorem llAdvConnectInd_accounted (pkt : Pkt) : Accounted lib cls (llAdvConnectInd lib cls pkt) := by
  refine (Accounted.bare (send_bare pkt)).bind fun _ => ?_
  refine (Accounted.receive _ _ _ _).bind fun resPkts => .getSelf_bind fun self => ?_
  refine (Accounted.bare (send_bare _)).bind fun _ => ?_
  exact (Accounted.receive _ _ _ _).bind fun _ => .bare (outputSymbol_bare resPkts)

/-- Terminating has those of its one call. -/
theorem llCtrlTerminateInd_accounted (pkt : Pkt) :
    Accounted lib cls (llCtrlTerminateInd lib cls pkt) := by
  refine (Accounted.bare (send_bare pkt)).bind fun _ => .getSelf_bind fun self => ?_
  refine (Accounted.bare (send_bare _)).bind fun _ => .getSelf_bind fun self => ?_
  refine (Accounted.bare (send_bare _)).bind fun _ => ?_
  exact (Accounted.receive _ _ _ _).bind fun pkts => .bare (outputSymbol_bare pkts)

/-- A request has its own and those of its answers. -/
theorem performRequest_accounted {sym : InputSymbol} (hsym : sym ≠ .llCtrlEncReq) (self : Blesul) :
    Accounted lib cls (performRequest lib cls sym (packets sym self)) := by
  intro w out w' h
  obtain ⟨pkt, w₁, hpre, h⟩ := h.of_bind
  obtain ⟨_, w₂, hsend, h⟩ := h.of_bind
  obtain ⟨resPkts, w₃, hreceive, h⟩ := h.of_bind
  obtain ⟨_, w₄, hpost, hout⟩ := h.of_bind
  obtain ⟨l, hl⟩ := Accounted.bare (send_bare pkt) _ _ _ hsend
  obtain ⟨l', hl'⟩ := Accounted.bare (outputSymbol_bare resPkts) _ _ _ hout
  exact ⟨_, (Exchanged.input hpre).trans (hl.trans ((Exchanged.request hsym hreceive hpost).trans hl'))⟩

/-- Every input symbol is accounted for. -/
theorem performSymbol_accounted (sym : InputSymbol) (self : Blesul) :
    Accounted lib cls (performSymbol lib cls sym (packets sym self)) := by
  rw [performSymbol]
  split
  case isTrue => exact llCtrlEncReq_accounted _
  case isFalse hsym =>
    exact .ite (llAdvConnectInd_accounted _)
      (.ite (llCtrlTerminateInd_accounted _) (performRequest_accounted hsym self))

/-- So is the scan of `reset`, by induction on its attempts. -/
theorem resetScan_accounted (is : List ℕ) : Accounted lib cls (resetScan lib cls is) := by
  induction is with
  | nil => exact .throw _
  | cons i is ih =>
    refine .getSelf_bind fun self => (Accounted.bare (send_bare _)).bind fun _ => ?_
    refine (Accounted.receive _ _ _ _).bind fun scanRes => .ite (.pure _) ?_
    exact .ite ((Accounted.bare resetDevice_bare).bind fun _ => ih) ih

/-- So is `reset`, which is an effect of its own. -/
theorem reset_accounted : Accounted lib cls (reset lib cls) := by
  refine .getSelf_bind fun self => ?_
  have hreset : Accounted lib cls (do
      Exec.modify fun w =>
        { w with
          self := w.self.resetFields w.env.draws.head
          env := { w.env with draws := w.env.draws.tail }
          log := w.log ++ [.reset] }
      resetScan lib cls (List.range 32)) := by
    refine Accounted.bind (fun w _ w' h => ?_) fun _ => resetScan_accounted _
    obtain rfl := h.of_modify
    exact ⟨_, .reset w w.env.draws.head _ rfl⟩
  exact .ite ((Accounted.bare (send_bare _)).bind fun _ => hreset) hreset

/-- So is `pre`. -/
theorem pre_accounted : Accounted lib cls (pre lib cls) := by
  refine .ite ((Accounted.bare time_bare).bind fun now => .getSelf_bind fun self => ?_)
    reset_accounted
  refine .ite ((Accounted.bare driverResetDevice_bare).bind fun _ => ?_) reset_accounted
  refine (Accounted.bare time_bare).bind fun now => ?_
  exact (Accounted.modifySelf fun _ => rfl).bind fun _ => reset_accounted

/-- So is a replay of steps that are. -/
theorem replay_accounted {step : InputSymbol → Program τ Text}
    (hstep : ∀ sym, Accounted lib cls (step sym)) (syms : List InputSymbol) :
    Accounted lib cls (replay step syms) := by
  induction syms with
  | nil => exact .pure _
  | cons sym syms ih => exact (hstep sym).bind fun _ => ih

/-- So is the loop of `retry_sequence`, by induction on its bound. -/
theorem retryLoop_accounted {step : InputSymbol → Program τ Text}
    (hstep : ∀ sym, Accounted lib cls (step sym)) (seqIn : List InputSymbol) (seqOut : List Text)
    (bound attempt : ℕ) : Accounted lib cls (retryLoop lib cls step seqIn seqOut bound attempt) := by
  induction bound generalizing attempt with
  | zero => exact .throw _
  | succ bound ih =>
    have hsay (message : RetryMessage) :
        Accounted lib cls (record (.retry message) id : Program τ Unit) := .record fun _ => rfl
    have hattempt : Accounted lib cls (retryAttempt lib cls step seqIn seqOut (attempt + 1)
        (retryLoop lib cls step seqIn seqOut bound (attempt + 1))) := by
      refine (hsay _).bind fun _ => .bind (.modifySelf fun _ => rfl) fun _ => ?_
      refine pre_accounted.bind fun _ => (replay_accounted hstep _).bind fun _ => ?_
      refine .getSelf_bind fun self => .ite (.ite ((hsay _).bind fun _ => ih _) (hsay _)) ?_
      exact .ite (.ite ((hsay _).bind fun _ => ih _) (hsay _)) (hsay _)
    rw [retryLoop_succ]
    exact .ite ((hsay _).bind fun _ => (Accounted.bare resetDevice_bare).bind fun _ => hattempt)
      hattempt

/-- So is a retry. -/
theorem retrySequence_accounted {step : InputSymbol → Program τ Text}
    (hstep : ∀ sym, Accounted lib cls (step sym)) :
    Accounted lib cls (retrySequence lib cls step) := by
  refine .getSelf_bind fun self => .bind (.record fun _ => rfl) fun _ => ?_
  refine (retryLoop_accounted hstep _ _ _ _).bind fun _ => ?_
  refine .bind (.modifySelf fun _ => rfl) fun _ => .getSelf_bind fun self => ?_
  match self.outputSequence.getLast? with
  | some output => exact .pure _
  | none => exact .throw _

/-- So is a step, by induction on the depth of its retries. -/
theorem stepInternal_accounted (depth : ℕ) (sym : InputSymbol) :
    Accounted lib cls (stepInternal lib cls depth sym) := by
  induction depth generalizing sym with
  | zero => exact .throw _
  | succ depth ih =>
    refine .bind (.record fun _ => rfl) fun _ => .getSelf_bind fun self => .ite (.throw _) ?_
    refine (performSymbol_accounted sym self).bind fun out => ?_
    refine .bind (.modifySelf fun _ => rfl) fun _ => .getSelf_bind fun self => ?_
    exact .ite (retrySequence_accounted ih) (.pure _)

/-- So are all calls of the learner. -/
theorem calls_accounted (cs : List Call) : Accounted lib cls (calls lib cls cs) := by
  induction cs with
  | nil => exact .pure _
  | cons c cs ih =>
    refine Accounted.bind ?_ fun _ => ih
    match c with
    | .pre => exact pre_accounted
    | .step sym =>
      refine .bind ?_ fun _ => .pure _
      exact (stepInternal_accounted _ sym).bind fun _ => .getSelf_bind fun _ => .pure _

/-- A run of calls, with what happens in it. -/
structure Run (lib : Lib τ) (cls : MapperClass) (cs : List Call) (w : World τ) (l : List Moment)
    (w' : World τ) : Prop where
  returns : (calls lib cls cs).Returns w () w'
  exchanged : Exchanged lib cls w l w'

/-- Every run of calls consists of moments. -/
theorem Run.of_returns {cs : List Call} {w w' : World τ}
    (h : (calls lib cls cs).Returns w () w') : ∃ l, Run lib cls cs w l w' := by
  obtain ⟨l, hl⟩ := calls_accounted cs w () w' h
  exact ⟨l, h, hl⟩

/-- A step that makes a request and is not retried, from the packets it receives. -/
theorem Run.request {sym : InputSymbol} (hsym : sym ≠ .llCtrlEncReq)
    (hperform : ∀ pkt, performSymbol lib cls sym pkt = performRequest lib cls sym pkt)
    (hcalm : ∀ inputs outputs, cls.isLastSymSuspicious inputs outputs = false) {w w' : World τ}
    (h : (calls lib cls [.step sym]).Returns w () w') :
    ∃ pkt w₁ w₂ pkts,
      (callPre lib cls sym (packets sym w.self)).Returns { w with log := w.log ++ [.exec sym] } pkt
        w₁ ∧
      (receive lib cls none none 0 (some pkt)).Returns ((send lib pkt).final w₁) pkts w₂ ∧
      Run lib cls [.step sym] w [.input sym, .window (some sym) pkts] w' := by
  have hrun := h
  obtain ⟨_, _, hcall, hend⟩ := h.of_bind
  obtain ⟨-, rfl⟩ := hend.of_pure
  obtain ⟨_, _, hstep, hend⟩ := hcall.of_bind
  obtain ⟨-, rfl⟩ := hend.of_pure
  obtain ⟨_, _, hinternal, hend⟩ := hstep.of_bind
  obtain ⟨-, rfl⟩ := (of_getSelf_bind hend).of_pure
  obtain ⟨_, _, hexec, hrest⟩ := hinternal.of_bind
  obtain rfl := hexec.of_modify
  have hrest := of_getSelf_bind hrest
  split at hrest
  · exact hrest.not_throw.elim
  · rw [hperform] at hrest
    obtain ⟨out, w₄, hrequest, hrest⟩ := hrest.of_bind
    obtain ⟨_, w₅, happend, hrest⟩ := hrest.of_bind
    have hrest := of_getSelf_bind hrest
    -- nothing is suspicious, so the step ends here
    rw [hcalm, Bool.and_false, if_neg Bool.false_ne_true] at hrest
    obtain ⟨-, rfl⟩ := hrest.of_pure
    obtain ⟨pkt, w₁, hpre, hrequest⟩ := hrequest.of_bind
    obtain ⟨_, w₂, hsend, hrequest⟩ := hrequest.of_bind
    obtain rfl := hsend.2
    obtain ⟨pkts, w₃, hreceive, hrequest⟩ := hrequest.of_bind
    obtain ⟨_, _, hpost, hout⟩ := hrequest.of_bind
    obtain rfl := hout.2
    obtain rfl := happend.of_modify
    refine ⟨pkt, w₁, w₃, pkts, hpre, hreceive, hrun, ?_⟩
    have hstart : Exchanged lib cls w [] { w with log := w.log ++ [.exec sym] } := .other rfl rfl
    have hend := @Exchanged.of_bare _ lib cls _ _ (outputSymbol_bare pkts)
    exact hstart.trans ((Exchanged.input hpre).trans ((Exchanged.of_bare (send_bare pkt) w₁).trans
      ((Exchanged.request hsym hreceive hpost).trans ((hend _).trans (.other rfl rfl)))))

/-- **Two runs with the same effects end in the same crypto state**, whatever else is received and
however what is received is divided into windows. -/
theorem crypto_eq_of_effects_eq (hlib : TellsAdv lib) {cs₁ cs₂ : List Call} {l₁ l₂ : List Moment}
    {w₁ w₂ w₁' w₂' : World τ} (hrun₁ : Run lib cls cs₁ w₁ l₁ w₁') (hrun₂ : Run lib cls cs₂ w₂ l₂ w₂')
    (hstart : w₁.crypto = w₂.crypto)
    (heffects : l₁.flatMap (Moment.effects cls) = l₂.flatMap (Moment.effects cls)) :
    w₁'.crypto = w₂'.crypto := by
  rw [hrun₁.exchanged.crypto hlib, hrun₂.exchanged.crypto hlib, hstart, heffects]

/-- A packet that the step of the window does not look for has no effect, unless it is an
advertisement or an SM packet. -/
theorem packetEffects_eq_nil {asked : Option InputSymbol} {pkt : Pkt}
    (hpkt : (pkt.hasBtleAdv || pkt.hasSmHdr) = false)
    (hasked : ∀ sym ∈ asked, answers sym pkt = false) :
    packetEffects asked pkt = [] := by
  rw [packetEffects, hpkt]
  cases asked with
  | none => rfl
  | some sym => simp [hasked sym rfl]

/-- The packets that a request receives, if its method `_pre` changes nothing. -/
def windowPackets (lib : Lib τ) (cls : MapperClass) (sym : InputSymbol) (w : World τ) :
    Except PyErr (List Pkt) :=
  (receive lib cls none none 0 (some (packets sym w.self))).result
    ((send lib (packets sym w.self)).final { w with log := w.log ++ [.exec sym] })

/-- A step that makes a request and is not retried, with the packets it receives. -/
theorem Run.window {sym : InputSymbol} (hsym : sym ≠ .llCtrlEncReq)
    (hperform : ∀ pkt, performSymbol lib cls sym pkt = performRequest lib cls sym pkt)
    (hcalm : ∀ inputs outputs, cls.isLastSymSuspicious inputs outputs = false)
    (hpre : ∀ pkt, callPre lib cls sym pkt = pure pkt) {w : World τ} {pkts : List Pkt}
    (hok : ((calls lib cls [.step sym]).result w).isOk = true)
    (hpkts : windowPackets lib cls sym w = .ok pkts) :
    Run lib cls [.step sym] w [.input sym, .window (some sym) pkts]
      ((calls lib cls [.step sym]).final w) := by
  obtain ⟨_, hreturns⟩ := Returns.of_isOk hok
  obtain ⟨pkt, w₁, w₂, received, hcall, hreceive, hrun⟩ := Run.request hsym hperform hcalm hreturns
  rw [hpre] at hcall
  obtain ⟨rfl, rfl⟩ := hcall.of_pure
  obtain rfl : pkts = received := Except.ok.inj (hpkts.symm.trans hreceive.1)
  exact hrun

/-- Runs one after the other. -/
theorem Run.append {cs cs' : List Call} {l l' : List Moment} {w w₁ w' : World τ}
    (h : Run lib cls cs w l w₁) (h' : Run lib cls cs' w₁ l' w') :
    Run lib cls (cs ++ cs') w (l ++ l') w' := by
  refine ⟨?_, h.exchanged.trans h'.exchanged⟩
  rw [calls_append]
  exact h.returns.bind h'.returns

/-! ## Small runs -/

/-- Libraries with which the session key is the SKD. -/
def skdLib : Lib Unit := { plainLib wireScapy with ecb := fun _ plaintext => plaintext }

/-- Scapy tells an advertising packet by its access address. -/
theorem skdLib_tellsAdv : TellsAdv skdLib := by
  intro data dec hraw hdec htake
  obtain ⟨hdata, haddress⟩ := wireRaw_wireBtle data hraw
  show (wireBtle dec).hasBtleAdv = (wireBtle data).hasBtleAdv
  have hsame : wireAddress dec = wireAddress data := by
    rw [wireAddress, htake]
    show UInt32.ofNat (leValue ((wireRaw (wireBtle data)).take 4)) = wireAddress data
    rw [haddress, leValue_leBytes_of_lt (show _ < 256 ^ 4 from UInt32.toNat_lt _), UInt32.ofNat_toNat]
  rw [wireBtle_hasBtleAdv dec hdec, wireBtle_hasBtleAdv data hdata, hsame]

/-- A control packet of the device, on the connection with access address 7. -/
def ctrlData (layer : Layer) : Bytes :=
  wireScapy.raw ⟨[.btle 7, .btleData none, .btleCtrl none, layer]⟩

/-- The state after `pre`, when the device will send `rx`. -/
def answered (rx : List (Option Bytes)) : World Unit :=
  let w := (calls skdLib nimble [.pre]).final
    (plainWorld 5500000 (some (plainScanRsp 1) :: List.replicate 5 none))
  { w with env := { w.env with rx := rx } }

/-- An encrypted connection, when the device will send `rx`. -/
def encryptedBy (rx : List (Option Bytes)) : World Unit :=
  let w := (calls skdLib nimble [.step .llCtrlEncReq]).final (answered
    ([some (ctrlData (.llEncRsp 1 2)), some (ctrlData .llStartEncReq)] ++ List.replicate 4 none))
  { w with env := { w.env with rx := rx } }

/-- An `LL_PAUSE_ENC_RSP` of the device on this connection. -/
def pauseEncRsp : Bytes :=
  let s := (encryptedBy []).self
  airPacket 7 3 5 (skdLib.ccm.encryptTagged s.connSessionKey s.rxNonce [3] [0x0b]) ++ [0, 0, 0]

/-- An advertisement of the device. -/
def advInd : Bytes :=
  wireScapy.raw ⟨[.btle advertisingAddress, .btleAdv 0 1, .btleAdvInd plainAddress]⟩

/-- Two steps on this connection, with the packets they receive. -/
theorem encryptedBy_run {rx : List (Option Bytes)} {pkts pkts' : List Pkt} :
    let m := calls skdLib nimble [.step .llCtrlPauseEncReq]
    let m' := calls skdLib nimble [.step .llCtrlLengthReq]
    let w := m.final (encryptedBy rx)
    (m.result (encryptedBy rx)).isOk = true →
      windowPackets skdLib nimble .llCtrlPauseEncReq (encryptedBy rx) = .ok pkts →
      (m'.result w).isOk = true → windowPackets skdLib nimble .llCtrlLengthReq w = .ok pkts' →
      Run skdLib nimble [.step .llCtrlPauseEncReq, .step .llCtrlLengthReq] (encryptedBy rx)
        [.input .llCtrlPauseEncReq, .window (some .llCtrlPauseEncReq) pkts,
          .input .llCtrlLengthReq, .window (some .llCtrlLengthReq) pkts'] (m'.final w) := by
  intro m m' w hok hpkts hok' hpkts'
  have hpause := Run.window (by decide) (fun _ => rfl) (fun _ _ => rfl) (fun _ => rfl) hok hpkts
  have hlength := Run.window (by decide) (fun _ => rfl) (fun _ _ => rfl) (fun _ => rfl) hok' hpkts'
  exact hpause.append hlength

/-- An advertisement ends the encryption in the window of the step that pauses it, with a late
`LL_START_ENC_REQ` in the next one, or else it comes in the next window itself. -/
theorem crypto_eq_of_effects_eq_windows :
    let m := calls skdLib nimble [.step .llCtrlPauseEncReq]
    let m' := calls skdLib nimble [.step .llCtrlLengthReq]
    let rx := [some pauseEncRsp, some advInd] ++ List.replicate 4 none ++
      [some (ctrlData .llStartEncReq)] ++ List.replicate 5 none
    let rx' := [some pauseEncRsp] ++ List.replicate 5 none ++ [some advInd] ++ List.replicate 5 none
    let w := m'.final (m.final (encryptedBy rx))
    let w' := m'.final (m.final (encryptedBy rx'))
    w.self.outputSequence ≠ w'.self.outputSequence ∧ w.crypto = w'.crypto := by
  have hrun := @encryptedBy_run ([some pauseEncRsp, some advInd] ++ List.replicate 4 none ++
      [some (ctrlData .llStartEncReq)] ++ List.replicate 5 none)
    [⟨[.btle 7, .btleData (some 3), .btleCtrl (some 0x0b), .llPauseEncRsp]⟩,
      ⟨[.btle advertisingAddress, .btleAdv 0 1, .btleAdvInd plainAddress]⟩]
    [⟨[.btle 7, .btleData (some 3), .btleCtrl (some 0x05), .llStartEncReq]⟩]
    (by decide +kernel) (by decide +kernel) (by decide +kernel) (by decide +kernel)
  have hrun' := @encryptedBy_run
    ([some pauseEncRsp] ++ List.replicate 5 none ++ [some advInd] ++ List.replicate 5 none)
    [⟨[.btle 7, .btleData (some 3), .btleCtrl (some 0x0b), .llPauseEncRsp]⟩]
    [⟨[.btle advertisingAddress, .btleAdv 0 1, .btleAdvInd plainAddress]⟩]
    (by decide +kernel) (by decide +kernel) (by decide +kernel) (by decide +kernel)
  exact ⟨by decide +kernel, crypto_eq_of_effects_eq skdLib_tellsAdv hrun hrun' rfl rfl⟩

/-- The same packets are sent and the same packets received and accepted, but in one run the device
answers `LL_CTRL_ENC_REQ` within its step, and in the other one within the next step. -/
theorem crypto_ne_of_late :
    let m := calls skdLib nimble [.step .llCtrlEncReq, .step .llAdvScanReq]
    let answers := [some (ctrlData (.llEncRsp 1 2)), some (ctrlData .llStartEncReq)]
    let rx := answers ++ List.replicate 6 none
    let rx' := List.replicate 6 none ++ answers ++ List.replicate 4 none
    let w := m.final (answered rx)
    let w' := m.final (answered rx')
    rx.reduceOption = rx'.reduceOption ∧
      (m.result (answered rx)).isOk ∧ (m.result (answered rx')).isOk ∧
      w.self.outputSequence =
        ["LL_CTRL_ENC_RSP+LL_CTRL_START_ENC_REQ".toList, "NORESPONSE".toList] ∧
      w'.self.outputSequence =
        ["NORESPONSE".toList, "LL_CTRL_ENC_RSP+LL_CTRL_START_ENC_REQ".toList] ∧
      (w.log.filterMap fun | .tx data => some data | _ => none) =
        (w'.log.filterMap fun | .tx data => some data | _ => none) ∧
      w.self.encrypted = true ∧ w'.self.encrypted = false ∧
      w.self.connSessionKey ≠ w'.self.connSessionKey ∧ w.self.connIv ≠ w'.self.connIv ∧
      w.self.connSkd ≠ w'.self.connSkd := by
  decide +kernel

end BleFuzzer.Mapper

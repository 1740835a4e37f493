import BleFuzzer.Bridge.Delivery
import Mathlib.Data.List.DropRight

/-!
# Draining the link layer

`recv_packet` goes on simulating empty packets as long as the link layer has something to say. Here
the pump is put together with the link layer of a connection, which answers every packet it is given
with one PDU: the next one of its queue, or an empty one. A PDU can be queued at any time, and all
other calls of the driver happen in between, except that the connection stays on data channels.
-/

namespace BleFuzzer.Bridge

/-- The pump with the link layer of a connection. -/
structure Served where
  pump : Pump
  /-- The payloads that the link layer has yet to transmit, oldest first. -/
  queue : List Bytes
  /-- The link layer has been given a packet that it has not answered. -/
  owesTx : Bool
  /-- The queue when the latest frame was taken. -/
  pending : List Bytes
  /-- What has been queued after that. -/
  since : List Bytes
  /-- What has been queued after the latest answer. -/
  late : List Bytes
  /-- The payloads of the answers to the packets delivered on behalf of that frame. -/
  answers : List Bytes
deriving DecidableEq

/-- A connection has been made, and nothing has been received on it. -/
def Served.connected (phy : Phy) : Served := ⟨⟨phy, none, []⟩, [], false, [], [], [], []⟩

/-- The number of packets delivered on behalf of the frame at hand. -/
def Pump.deliveries (s : Pump) : ℕ := (s.recvLoop.map fun loop => loop.handled.delivered.length).getD 0

inductive ServedEvent
  /-- `recv_packet` takes a frame, and makes the first pass of its inner loop. -/
  | recv
  /-- The inner loop goes on. -/
  | next
  /-- The link layer answers. The sequence numbers are in the header byte. -/
  | answer (hdrByte : UInt8)
  /-- The host layers have something to transmit. -/
  | enqueue (payload : Bytes)
  | call (c : DriverCall)
deriving DecidableEq

/-- A call that neither transmits a packet nor leaves the data channels. -/
def DriverCall.Aside : DriverCall → Prop
  | .tx _ _ => False
  | .setchan chan _ => chan < 37
  | _ => True

/-- The pump has taken a frame, if there was one. -/
def Served.recv (s : Served) (pump : Pump) : Served :=
  if s.pump.deliveries < pump.deliveries then
    { s with pump := pump, owesTx := true, pending := s.queue, since := [], answers := [] }
  else
    { s with pump := pump }

/-- The pump has gone on. -/
def Served.next (s : Served) (pump : Pump) : Served :=
  { s with pump := pump, owesTx := decide (s.pump.deliveries < pump.deliveries) }

/-- The link layer has transmitted the next payload of its queue. -/
def Served.answer (s : Served) (pump : Pump) : Served :=
  { s with
    pump := pump
    queue := s.queue.tail
    owesTx := false
    late := []
    answers := s.answers ++ [s.queue.headD []] }

/-- The pump with its link layer, which answers a packet before the next one. -/
def servedSystem (A : Aead 16 13 4) : System Served ServedEvent Fault where
  enabled s
    | .recv => s.pump.recvLoop = none
    | .next => s.owesTx = false
    | .answer _ => s.owesTx = true
    | .enqueue payload => payload ≠ []
    | .call c => c.Aside
  step s
    | .recv => do return s.recv (← (pumpSystem A).step s.pump (.recv true))
    | .next => do return s.next (← (pumpSystem A).step s.pump (.next true))
    | .answer hdrByte => do
      return s.answer (← (pumpSystem A).step s.pump (.call (.tx hdrByte (s.queue.headD []))))
    | .enqueue payload =>
      .ok { s with
        queue := s.queue ++ [payload], since := s.since ++ [payload], late := s.late ++ [payload] }
    | .call c => do return { s with pump := ← (pumpSystem A).step s.pump (.call c) }

/-! ## The answers to a frame -/

/-- The answers up to the last one that is not empty. -/
def busy (answers : List Bytes) : List Bytes := answers.rdropWhile List.isEmpty

/-- The answers that are not empty. -/
def nonEmpty (answers : List Bytes) : List Bytes := answers.filter fun p => !p.isEmpty

/-- The number of passes since the loop counter was last 0: those after the last answer that is not
empty, that one included. -/
def Trail (k : ℕ) (answers : List Bytes) : Prop :=
  answers.length + (if busy answers = [] then 0 else 1) = (busy answers).length + k

instance (k : ℕ) (answers : List Bytes) : Decidable (Trail k answers) :=
  inferInstanceAs (Decidable (_ = _))

/-- Without answers, nothing trails. -/
theorem trail_nil : Trail 0 [] := rfl

/-- An empty answer at the end is not part of the busy ones. -/
theorem busy_snoc_nil (answers : List Bytes) : busy (answers ++ [[]]) = busy answers :=
  List.rdropWhile_concat_pos _ _ _ rfl

/-- With a non-empty answer at the end, all of them are. -/
theorem busy_snoc {payload : Bytes} (hp : payload ≠ []) (answers : List Bytes) :
    busy (answers ++ [payload]) = answers ++ [payload] :=
  List.rdropWhile_concat_neg _ _ _ (by simpa using hp)

/-- An empty answer prolongs the trail. -/
theorem Trail.snoc_nil {k : ℕ} {answers : List Bytes} (h : Trail k answers) :
    Trail (k + 1) (answers ++ [[]]) := by
  rw [Trail] at h
  rw [Trail, busy_snoc_nil, List.length_append, List.length_singleton]
  omega

/-- A non-empty answer starts it anew. -/
theorem trail_snoc {payload : Bytes} (hp : payload ≠ []) (answers : List Bytes) :
    Trail 1 (answers ++ [payload]) := by
  rw [Trail, busy_snoc hp, if_neg (by simp)]

/-- The answers are those up to the last one that is not empty, and then empty ones. -/
theorem Trail.eq {k : ℕ} {answers : List Bytes} (h : Trail k answers) :
    answers = busy answers ++ List.replicate (if busy answers = [] then k else k - 1) [] := by
  have hsplit : busy answers ++ answers.rtakeWhile List.isEmpty = answers :=
    List.rdropWhile_append_rtakeWhile
  have hempty : ∀ p ∈ answers.rtakeWhile List.isEmpty, p = [] := by
    intro p hp
    simpa using List.mem_rtakeWhile_imp hp
  have hlength := congrArg List.length hsplit
  rw [List.length_append] at hlength
  rw [Trail] at h
  have hcount : (answers.rtakeWhile List.isEmpty).length =
      if busy answers = [] then k else k - 1 := by
    split at h
    case isTrue hnil =>
      rw [if_pos hnil]
      omega
    case isFalse hne =>
      rw [if_neg hne]
      omega
  rw [← hcount, ← List.eq_replicate_length.mpr hempty, hsplit]

/-- Only the busy part has answers that are not empty. -/
theorem nonEmpty_eq_busy {k : ℕ} {answers : List Bytes} (h : Trail k answers)
    (hbusy : ∀ p ∈ busy answers, p ≠ []) : nonEmpty answers = busy answers := by
  have hrest (n : ℕ) : nonEmpty (List.replicate n []) = [] := by simp [nonEmpty]
  have hkeep : nonEmpty (busy answers) = busy answers := by
    rw [nonEmpty, List.filter_eq_self]
    intro p hp
    simpa using hbusy p hp
  calc nonEmpty answers = nonEmpty (busy answers ++ List.replicate _ []) := congrArg _ h.eq
    _ = nonEmpty (busy answers) ++ nonEmpty (List.replicate _ []) := List.filter_append ..
    _ = busy answers := by rw [hrest, hkeep, List.append_nil]

/-! ## The pump on a data channel -/

variable {A : Aead 16 13 4}

/-- The calls aside keep to the data channels, and the flag of the transmitter. -/
theorem DriverCall.Aside.kept {phy phy' : Phy} {c : DriverCall} (hc : c.Aside)
    (hrun : c.run A phy = .ok phy') (hchan : phy.phyChan < 37) :
    phy'.phyChan < 37 ∧ phy'.sentNonEmptyPkt = phy.sentNonEmptyPkt := by
  cases c with
  | tx hdrByte payload => exact hc.elim
  | setchan chan accessAddr =>
    obtain rfl := Except.ok.inj hrun
    exact ⟨hc, rfl⟩
  | uartRxChar byte =>
    obtain ⟨f, count, connected, queued, rfl⟩ := blePhyUartRxChar_kept hrun
    exact ⟨hchan, rfl⟩
  | uartTxChar =>
    obtain ⟨f, hphy⟩ := blePhyUartTxChar_snd phy
    obtain rfl := Except.ok.inj hrun
    rw [hphy]
    exact ⟨hchan, rfl⟩
  | encryptEnable _ | encryptIvSet _ | encryptCounterSet _ | encryptDisable =>
    obtain rfl := Except.ok.inj hrun
    exact ⟨hchan, rfl⟩

/-- A transmission sets the flag unless it is empty. -/
theorem blePhyTx_flag {phy phy' : Phy} {hdrByte : UInt8} {payload : Bytes}
    (hrun : blePhyTx A phy hdrByte payload = .ok phy') :
    phy'.phyChan = phy.phyChan ∧
      phy'.sentNonEmptyPkt = (phy.sentNonEmptyPkt || !payload.isEmpty) := by
  obtain ⟨-, rfl⟩ := blePhyTx_ok A hrun
  have hseq : (blePhyTxSeqNum phy hdrByte).phyChan = phy.phyChan ∧
      (blePhyTxSeqNum phy hdrByte).sentNonEmptyPkt = phy.sentNonEmptyPkt := by
    rw [blePhyTxSeqNum]
    split <;> exact ⟨rfl, rfl⟩
  cases payload with
  | nil => exact ⟨hseq.1, hseq.2.trans (Bool.or_false _).symm⟩
  | cons b bs => exact ⟨hseq.1, (Bool.or_true _).symm⟩

/-- On a data channel every pass delivers a packet. -/
theorem deliver_dataChannel {phy : Phy} (hchan : phy.phyChan < 37) (l : RecvLocals) :
    ∃ d, deliver phy l true = some d := by
  by_cases hl : l.rxBuf = []
  · rw [deliver_empty true hl, if_pos hchan]
    exact ⟨_, rfl⟩
  · have hne : (recvPacketPrepare phy l).rxBuf ≠ [] := by
      rw [recvPacketPrepare_rxBuf fun h => hl h.1]
      split
      · exact hl
      · simpa using hl
    rw [deliver, recvPacketPdu, if_neg hne]
    exact ⟨_, rfl⟩

/-- A pass on a data channel, as far as it is followed here. -/
theorem Pump.pass_dataChannel {s : Pump} (hchan : s.phy.phyChan < 37) (l : RecvLocals) (h : Handled) :
    (s.pass l h true).phy = s.phy ∧ ∃ loop, (s.pass l h true).recvLoop = some loop ∧
      loop.atStop = false ∧ loop.locals.iPkt = l.iPkt ∧
      (s.pass l h true).deliveries = h.delivered.length + 1 := by
  obtain ⟨d, hd⟩ := deliver_dataChannel hchan l
  refine ⟨rfl, _, rfl, rfl, (recvPacketPrepare_kept s.phy l).2, ?_⟩
  show (h.delivered ++ (deliver s.phy l true).toList).length = _
  rw [hd, List.length_append]
  rfl

/-! ## What a step can do -/

/-- The loop counter of the next pass, if there is one. -/
def Pump.nextCount (s : Pump) (loop : InnerLoop) : ℕ :=
  (if s.phy.sentNonEmptyPkt then 0 else loop.locals.iPkt) + 1

/-- The kinds of steps on data channels, with the state after the step. -/
inductive ServedStep (s : Served) : ServedEvent → Served → Prop
  /-- There is nothing to do. -/
  | idle {e : ServedEvent} : (∀ hdrByte, e ≠ .answer hdrByte) → s.pump.recvLoop = none →
      ServedStep s e s
  /-- A frame is taken, and the first pass is made. -/
  | first {pump : Pump} {loop : InnerLoop} :
      pump.phy.phyChan < 37 → pump.recvLoop = some loop → loop.atStop = false →
      loop.locals.iPkt = 0 →
      ServedStep s .recv
        { s with pump := pump, owesTx := true, pending := s.queue, since := [], answers := [] }
  /-- Another pass is made. -/
  | again {pump : Pump} {loop loop' : InnerLoop} :
      loop ∈ s.pump.recvLoop → s.owesTx = false → s.pump.nextCount loop < 6 →
      pump.phy.phyChan < 37 → pump.phy.sentNonEmptyPkt = false → pump.recvLoop = some loop' →
      loop'.atStop = false → loop'.locals.iPkt = s.pump.nextCount loop →
      ServedStep s .next { s with pump := pump, owesTx := true }
  /-- The last pass ends. -/
  | finish {pump : Pump} {loop : InnerLoop} :
      loop ∈ s.pump.recvLoop → s.owesTx = false → ¬ s.pump.nextCount loop < 6 →
      pump.phy.phyChan < 37 → pump.recvLoop = none →
      ServedStep s .next { s with pump := pump, owesTx := false }
  | answer {hdrByte : UInt8} {phy : Phy} : s.owesTx = true → phy.phyChan < 37 →
      phy.sentNonEmptyPkt = (s.pump.phy.sentNonEmptyPkt || !(s.queue.headD []).isEmpty) →
      ServedStep s (.answer hdrByte) (s.answer { s.pump with phy := phy })
  | enqueue {payload : Bytes} : payload ≠ [] →
      ServedStep s (.enqueue payload) { s with
        queue := s.queue ++ [payload], since := s.since ++ [payload], late := s.late ++ [payload] }
  | aside {c : DriverCall} {phy : Phy} : phy.phyChan < 37 →
      phy.sentNonEmptyPkt = s.pump.phy.sentNonEmptyPkt →
      ServedStep s (.call c) { s with pump := { s.pump with phy := phy } }

/-- A call of the driver changes the globals only. -/
theorem pumpStep_call {s t : Pump} {c : DriverCall}
    (hstep : (pumpSystem A).step s (.call c) = .ok t) :
    ∃ phy, c.run A s.phy = .ok phy ∧ t = { s with phy := phy } := by
  cases pumpStep_cases hstep with
  | idle hcall => exact absurd rfl (hcall c)
  | call hrun => exact ⟨_, hrun, rfl⟩

/-- **Every step is of one of the kinds.** -/
theorem servedStep_cases {s t : Served} {e : ServedEvent} (hchan : s.pump.phy.phyChan < 37)
    (hloop : ∀ loop ∈ s.pump.recvLoop, loop.atStop = false) (hen : (servedSystem A).enabled s e)
    (hstep : (servedSystem A).step s e = .ok t) : ServedStep s e t := by
  cases e with
  | recv =>
    obtain ⟨pump, hpump, hreturn⟩ := exists_of_bind_ok
      (show ((pumpSystem A).step s.pump (.recv true) >>= _) = _ from hstep)
    obtain rfl : s.recv pump = t := Except.ok.inj hreturn
    have hnone : s.pump.recvLoop = none := hen
    have hzero : s.pump.deliveries = 0 := by
      rw [Pump.deliveries, hnone]
      rfl
    cases pumpStep_cases hpump with
    | idle =>
      rw [Served.recv, if_neg (Nat.lt_irrefl _)]
      exact .idle (fun _ h => by cases h) hnone
    | @stop _ _ phy _ hphy hstops =>
      -- there is no debugging stop on a data channel
      obtain ⟨f, rfl⟩ := hphy
      rw [Phy.stops, Bool.and_eq_true, decide_eq_true_iff] at hstops
      exact absurd hchan (UInt8.not_lt.mpr hstops.2)
    | @first _ frame phy _ hphy =>
      have hchan' : (recvPacketBegin A phy frame).2.phyChan < 37 := by
        obtain ⟨f, rfl⟩ := hphy
        exact hchan
      obtain ⟨hsame, loop, hsome, hdelays, hcount, hdeliveries⟩ :=
        Pump.pass_dataChannel (s := { s.pump with phy := (recvPacketBegin A phy frame).2 }) hchan'
          (recvPacketBegin A phy frame).1 (.ofFrame phy frame)
      rw [Served.recv, if_pos (hzero.trans_lt ((Nat.succ_pos _).trans_eq hdeliveries.symm))]
      exact .first (by rw [hsame]; exact hchan') hsome hdelays hcount
  | next =>
    obtain ⟨pump, hpump, hreturn⟩ := exists_of_bind_ok
      (show ((pumpSystem A).step s.pump (.next true) >>= _) = _ from hstep)
    obtain rfl : s.next pump = t := Except.ok.inj hreturn
    have howes : s.owesTx = false := hen
    cases pumpStep_cases hpump with
    | idle _ hnone =>
      rw [Served.next, decide_eq_false (Nat.lt_irrefl _), ← howes]
      exact .idle (fun _ h => by cases h) (hnone true rfl)
    | leave hmem hstop => cases (hloop _ hmem).symm.trans hstop
    | @again _ loop l hmem _ hl =>
      obtain ⟨-, -, hi, hlt⟩ := recvPacketNext_some hl
      obtain ⟨hsame, loop', hsome, hdelays, hcount, hdeliveries⟩ := Pump.pass_dataChannel
        (s := { s.pump with phy := (recvPacketNext s.pump.phy loop.locals).2 }) hchan l
        (loop.handled.endPass s.pump.phy)
      have hbefore : s.pump.deliveries = loop.handled.delivered.length := by
        rw [Pump.deliveries, Option.mem_def.mp hmem]
        rfl
      have hmore := hbefore.trans_lt ((Nat.lt_succ_self _).trans_eq hdeliveries.symm)
      rw [Served.next, decide_eq_true hmore]
      exact .again hmem howes hlt (by rw [hsame]; exact hchan) (by rw [hsame]; rfl) hsome hdelays
        (hcount.trans hi)
    | @finish _ loop hmem _ hnone =>
      show ServedStep s .next { s with pump := _, owesTx := decide (s.pump.deliveries < 0) }
      rw [decide_eq_false (Nat.not_lt_zero _)]
      exact .finish hmem howes (recvPacketNext_none hnone) hchan rfl
  | answer hdrByte =>
    obtain ⟨pump, hpump, hreturn⟩ := exists_of_bind_ok
      (show ((pumpSystem A).step s.pump (.call (.tx hdrByte (s.queue.headD []))) >>= _) = _ from hstep)
    obtain rfl : s.answer pump = t := Except.ok.inj hreturn
    obtain ⟨phy, hrun, rfl⟩ := pumpStep_call hpump
    obtain ⟨hsame, hflag⟩ := blePhyTx_flag hrun
    exact .answer hen (by rw [hsame]; exact hchan) hflag
  | enqueue payload =>
    obtain rfl := Except.ok.inj hstep
    exact .enqueue hen
  | call c =>
    obtain ⟨pump, hpump, hreturn⟩ := exists_of_bind_ok
      (show ((pumpSystem A).step s.pump (.call c) >>= _) = _ from hstep)
    obtain rfl := Except.ok.inj hreturn
    obtain ⟨phy, hrun, rfl⟩ := pumpStep_call hpump
    have haside : c.Aside := hen
    obtain ⟨hchan', hflag⟩ := haside.kept hrun hchan
    exact .aside hchan' hflag

/-! ## The invariant -/

/-- What holds during the inner loop. The flag is stale at the first pass. -/
structure Served.InLoop (s : Served) (loop : InnerLoop) : Prop where
  delays : loop.atStop = false
  counter_le : loop.locals.iPkt ≤ 5
  owing : s.owesTx = true → Trail loop.locals.iPkt s.answers ∧
    (s.pump.phy.sentNonEmptyPkt = true → s.answers = [])
  answered : s.owesTx = false → Trail (s.pump.nextCount loop) s.answers ∧
    (s.pump.phy.sentNonEmptyPkt = false → s.queue = s.late)

/-- What holds in every state. -/
structure Served.Inv (s : Served) : Prop where
  chan : s.pump.phy.phyChan < 37
  queue_ne : ∀ p ∈ s.queue, p ≠ []
  order : nonEmpty s.answers ++ s.queue = s.pending ++ s.since
  late : s.answers ≠ [] → s.late <:+ s.since
  /-- Unless something is queued meanwhile, the empty answers come last. -/
  calm : s.since = [] → (s.queue ≠ [] → ∀ p ∈ s.answers, p ≠ []) ∧ ∀ p ∈ busy s.answers, p ≠ []
  loop : ∀ loop ∈ s.pump.recvLoop, s.InLoop loop
  ended : s.pump.recvLoop = none → s.owesTx = false ∧
    (s.answers ≠ [] → s.queue = s.late ∧ Trail 6 s.answers)

/-- The invariant holds where a connection starts. -/
theorem Served.inv_connected {phy : Phy} (hchan : phy.phyChan < 37) : (Served.connected phy).Inv where
  chan := hchan
  queue_ne _ hp := absurd hp List.not_mem_nil
  order := rfl
  late h := absurd rfl h
  calm _ := ⟨fun h => absurd rfl h, fun _ hp => absurd hp List.not_mem_nil⟩
  loop _ h := absurd h (Option.not_mem_none _)
  ended _ := ⟨rfl, fun h => absurd rfl h⟩

/-- **A frame is taken.** -/
theorem Served.Inv.first {s : Served} (h : s.Inv) {pump : Pump} {loop : InnerLoop}
    (hchan : pump.phy.phyChan < 37) (hloop : pump.recvLoop = some loop)
    (hdelays : loop.atStop = false) (hcount : loop.locals.iPkt = 0) :
    ({ s with pump := pump, owesTx := true, pending := s.queue, since := [], answers := [] } :
      Served).Inv where
  chan := hchan
  queue_ne := h.queue_ne
  order := (List.append_nil _).symm
  late h := absurd rfl h
  calm _ := ⟨fun _ _ hp => absurd hp List.not_mem_nil, fun _ hp => absurd hp List.not_mem_nil⟩
  loop loop' hloop' := by
    obtain rfl := Option.mem_unique (Option.mem_def.mpr hloop) hloop'
    refine ⟨hdelays, by omega, fun _ => ⟨hcount ▸ trail_nil, fun _ => rfl⟩, nofun⟩
  ended hnone := by
    rw [hloop] at hnone
    cases hnone

/-- **The link layer answers.** -/
theorem Served.Inv.answer {s : Served} (h : s.Inv) {phy : Phy} (howes : s.owesTx = true)
    (hchan : phy.phyChan < 37)
    (hflag : phy.sentNonEmptyPkt = (s.pump.phy.sentNonEmptyPkt || !(s.queue.headD []).isEmpty)) :
    (s.answer { s.pump with phy := phy }).Inv := by
  have hended : s.pump.recvLoop ≠ none := fun hnone => by
    cases howes.symm.trans (h.ended hnone).1
  cases hqueue : s.queue with
  | nil =>
    -- an empty answer
    rw [hqueue, List.headD_nil, List.isEmpty_nil, Bool.not_true, Bool.or_false] at hflag
    have hbusy : (∀ p ∈ busy s.answers, p ≠ []) → ∀ p ∈ busy (s.answers ++ [[]]), p ≠ [] := by
      rw [busy_snoc_nil]
      exact id
    have horder := h.order
    rw [hqueue] at horder
    rw [Served.answer, hqueue]
    refine ⟨hchan, nofun, ?_, fun _ => List.nil_suffix, fun hsince => ⟨fun hne => absurd rfl hne, ?_⟩,
      fun loop hloop => ?_, fun hnone => absurd hnone hended⟩
    · rw [← horder]
      simp [nonEmpty]
    · exact hbusy (h.calm hsince).2
    · have hin := h.loop loop hloop
      obtain ⟨htrail, hstale⟩ := hin.owing howes
      refine ⟨hin.delays, hin.counter_le, nofun, fun _ => ⟨?_, fun _ => rfl⟩⟩
      show Trail (Pump.nextCount { s.pump with phy := phy } loop) (s.answers ++ [[]])
      rw [Pump.nextCount, hflag]
      split
      case isTrue hset =>
        rw [hstale hset]
        exact trail_nil.snoc_nil
      case isFalse => exact htrail.snoc_nil
  | cons p queue =>
    have hp : p ≠ [] := h.queue_ne p (hqueue ▸ List.mem_cons_self)
    have hset : phy.sentNonEmptyPkt = true := by
      rw [hflag, hqueue, List.headD_cons]
      simp [hp]
    have horder := h.order
    rw [hqueue] at horder
    have hall : s.since = [] → ∀ p' ∈ s.answers ++ [p], p' ≠ [] := by
      intro hsince
      have hbefore := (h.calm hsince).1 (by rw [hqueue]; exact List.cons_ne_nil _ _)
      exact List.forall_mem_append.mpr ⟨hbefore, List.forall_mem_singleton.mpr hp⟩
    rw [Served.answer, hqueue]
    refine ⟨hchan, fun p' hp' => h.queue_ne p' (hqueue ▸ List.mem_cons_of_mem _ hp'), ?_,
      fun _ => List.nil_suffix, fun hsince => ⟨fun _ => hall hsince, ?_⟩, fun loop hloop => ?_,
      fun hnone => absurd hnone hended⟩
    · rw [← horder]
      simp [nonEmpty, hp]
    · rw [List.headD_cons, busy_snoc hp]
      exact hall hsince
    · have hin := h.loop loop hloop
      refine ⟨hin.delays, hin.counter_le, nofun, fun _ => ⟨?_, fun hclear => ?_⟩⟩
      · show Trail (Pump.nextCount { s.pump with phy := phy } loop) (s.answers ++ [p])
        rw [Pump.nextCount, if_pos hset]
        exact trail_snoc hp _
      · cases hset.symm.trans hclear

/-- **Something is queued.** -/
theorem Served.Inv.enqueue {s : Served} (h : s.Inv) {payload : Bytes} (hp : payload ≠ []) :
    ({ s with
      queue := s.queue ++ [payload], since := s.since ++ [payload], late := s.late ++ [payload] } :
      Served).Inv where
  chan := h.chan
  queue_ne := List.forall_mem_append.mpr ⟨h.queue_ne, List.forall_mem_singleton.mpr hp⟩
  order := by rw [← List.append_assoc, h.order, List.append_assoc]
  late hne := by
    obtain ⟨early, hearly⟩ := h.late hne
    exact ⟨early, by rw [← hearly, List.append_assoc]⟩
  calm hsince := absurd hsince (by simp)
  loop loop hloop := by
    have hin := h.loop loop hloop
    refine ⟨hin.delays, hin.counter_le, hin.owing, fun howes => ?_⟩
    obtain ⟨htrail, hlate⟩ := hin.answered howes
    exact ⟨htrail, fun hclear => congrArg (· ++ [payload]) (hlate hclear)⟩
  ended hnone := by
    obtain ⟨howes, hended⟩ := h.ended hnone
    refine ⟨howes, fun hne => ?_⟩
    obtain ⟨hlate, htrail⟩ := hended hne
    exact ⟨congrArg (· ++ [payload]) hlate, htrail⟩

/-- **Every step keeps the invariant.** -/
theorem Served.Inv.step {s t : Served} {e : ServedEvent} (h : s.Inv) (hstep : ServedStep s e t) :
    t.Inv := by
  cases hstep with
  | idle => exact h
  | first hchan hloop hdelays hcount => exact h.first hchan hloop hdelays hcount
  | @again pump loop loop' hmem howes hlt hchan hclear hloop' hdelays hcount =>
    have hin := h.loop loop hmem
    refine ⟨hchan, h.queue_ne, h.order, h.late, h.calm, fun loop₁ hloop₁ => ?_, fun hnone => ?_⟩
    · obtain rfl := Option.mem_unique (Option.mem_def.mpr hloop') hloop₁
      refine ⟨hdelays, by omega, fun _ => ⟨?_, fun hset => ?_⟩, nofun⟩
      · rw [hcount]
        exact (hin.answered howes).1
      · cases hclear.symm.trans hset
    · cases hloop'.symm.trans hnone
  | @finish pump loop hmem howes hlt hchan hnone =>
    have hin := h.loop loop hmem
    have hcounter := hin.counter_le
    obtain ⟨htrail, hlate⟩ := hin.answered howes
    -- the counter has reached six, so the flag was not set
    have hclear : s.pump.phy.sentNonEmptyPkt = false := by
      by_contra hset
      rw [Pump.nextCount, if_pos (Bool.eq_true_of_not_eq_false hset)] at hlt
      omega
    have hsix : s.pump.nextCount loop = 6 := by
      rw [Pump.nextCount, hclear, if_neg Bool.false_ne_true] at hlt ⊢
      omega
    refine ⟨hchan, h.queue_ne, h.order, h.late, h.calm, fun loop₁ hloop₁ => ?_, fun _ => ?_⟩
    · rw [hnone] at hloop₁
      cases hloop₁
    · exact ⟨rfl, fun _ => ⟨hlate hclear, hsix ▸ htrail⟩⟩
  | answer howes hchan hflag => exact h.answer howes hchan hflag
  | enqueue hp => exact h.enqueue hp
  | @aside c phy hchan hflag =>
    refine ⟨hchan, h.queue_ne, h.order, h.late, h.calm, fun loop hloop => ?_, h.ended⟩
    obtain ⟨hdelays, hcounter, howing, hanswered⟩ := h.loop loop hloop
    have hnext : Pump.nextCount { s.pump with phy := phy } loop = s.pump.nextCount loop := by
      rw [Pump.nextCount, Pump.nextCount, hflag]
    refine ⟨hdelays, hcounter, fun howes => ?_, fun howes => ?_⟩
    · obtain ⟨htrail, hstale⟩ := howing howes
      exact ⟨htrail, fun hset => hstale (hflag ▸ hset)⟩
    · obtain ⟨htrail, hlate⟩ := hanswered howes
      exact ⟨hnext.symm ▸ htrail, fun hclear => hlate (hflag ▸ hclear)⟩

/-- It holds in every run. -/
theorem Served.inv_of_run {phy : Phy} (hchan : phy.phyChan < 37) {es : List ServedEvent} {s : Served}
    (hrun : (servedSystem A).Run (.connected phy) es s) : s.Inv :=
  hrun.invariant (fun _ _ _ hinv hen hstep => hinv.step
    (servedStep_cases hinv.chan (fun loop hloop => (hinv.loop loop hloop).delays) hen hstep))
    (Served.inv_connected hchan)

/-! ## Progress -/

/-- How many passes and answers are left at most, if nothing more is queued. -/
def Served.left (s : Served) : ℕ :=
  14 * s.queue.length +
    match s.pump.recvLoop with
    | none => 0
    | some loop => 2 * (7 - s.pump.nextCount loop) + s.owesTx.toNat

/-- What is left while the inner loop runs. -/
theorem Served.left_some {s : Served} {loop : InnerLoop} (hloop : s.pump.recvLoop = some loop) :
    s.left = 14 * s.queue.length + (2 * (7 - s.pump.nextCount loop) + s.owesTx.toNat) := by
  rw [Served.left, hloop]

/-- **Every pass and every answer brings the inner loop nearer to its end.** -/
theorem Served.Inv.left_lt {s t : Served} {e : ServedEvent} (h : s.Inv) (hstep : ServedStep s e t)
    (hloop : s.pump.recvLoop ≠ none) (he : e = .next ∨ ∃ hdrByte, e = .answer hdrByte) :
    t.left < s.left := by
  cases hstep with
  | idle _ hnone => exact absurd hnone hloop
  | first | enqueue | aside => rcases he with he | ⟨_, he⟩ <;> cases he
  | @again pump loop loop' hmem howes hlt _ hclear hloop' _ hcount =>
    have hnext : pump.nextCount loop' = s.pump.nextCount loop + 1 := by
      rw [Pump.nextCount, hclear, if_neg Bool.false_ne_true, hcount]
    rw [Served.left_some hmem, Served.left_some hloop', howes, hnext, Bool.toNat_true, Bool.toNat_false]
    show 14 * s.queue.length + _ < 14 * s.queue.length + _
    omega
  | @finish pump loop hmem howes hlt _ hnone =>
    have hcounter := (h.loop loop hmem).counter_le
    have hsix : s.pump.nextCount loop ≤ 6 := by
      rw [Pump.nextCount]
      split <;> omega
    rw [Served.left_some hmem, Served.left, hnone, howes, Bool.toNat_false]
    show 14 * s.queue.length + 0 < 14 * s.queue.length + _
    omega
  | @answer hdrByte phy howes _ hflag =>
    obtain ⟨loop, hmem⟩ := Option.ne_none_iff_exists'.mp hloop
    have hcounter := (h.loop loop hmem).counter_le
    have hsix : s.pump.nextCount loop ≤ 6 := by
      rw [Pump.nextCount]
      split <;> omega
    have hleft : (s.answer { s.pump with phy := phy }).left = 14 * s.queue.tail.length +
        (2 * (7 - Pump.nextCount { s.pump with phy := phy } loop) + 0) := Served.left_some hmem
    rw [hleft, Served.left_some hmem, howes, Bool.toNat_true]
    cases hqueue : s.queue with
    | nil =>
      rw [hqueue, List.headD_nil, List.isEmpty_nil, Bool.not_true, Bool.or_false] at hflag
      have hsame : Pump.nextCount { s.pump with phy := phy } loop = s.pump.nextCount loop := by
        rw [Pump.nextCount, Pump.nextCount, hflag]
      rw [hsame, List.tail_nil]
      omega
    | cons p queue =>
      -- the flag sends the counter back to 0
      rw [List.tail_cons, List.length_cons]
      have hone : 1 ≤ Pump.nextCount { s.pump with phy := phy } loop := Nat.le_add_left 1 _
      omega

/-! ## The result -/

/-- **The pump drains the link layer.** In every run on the data channels of a connection, what has
been queued is transmitted in its order, none of it lost or repeated. When `recv_packet` has ended
the inner loop for a frame, the last five answers were empty and nothing is left that had been
queued before the last one; if nothing was queued in the meantime, the answers are the queue and
then five empty packets, or six for an empty queue. As long as the inner loop goes on, every pass
and every answer brings it nearer to its end. -/
theorem recvPacket_drains {phy : Phy} (hchan : phy.phyChan < 37) {es : List ServedEvent} {t : Served}
    (hrun : (servedSystem A).Run (.connected phy) es t) :
    nonEmpty t.answers ++ t.queue = t.pending ++ t.since ∧
      (t.pump.recvLoop = none → t.answers ≠ [] →
        t.queue = t.late ∧ (∃ before, t.answers = before ++ List.replicate 5 []) ∧
          (t.since = [] →
            t.answers = t.pending ++ List.replicate (if t.pending = [] then 6 else 5) [])) ∧
      (t.pump.recvLoop ≠ none →
        (t.owesTx = false → ∃ u, (servedSystem A).step t .next = .ok u ∧ u.left < t.left) ∧
        (t.owesTx = true → ∀ hdrByte u, (servedSystem A).step t (.answer hdrByte) = .ok u →
          u.left < t.left)) := by
  have hinv := Served.inv_of_run hchan hrun
  have hdelays : ∀ loop ∈ t.pump.recvLoop, loop.atStop = false :=
    fun loop hloop => (hinv.loop loop hloop).delays
  refine ⟨hinv.order, fun hnone hne => ?_,
    fun hloop => ⟨fun howes => ?_, fun howes hdrByte u hstep => ?_⟩⟩
  · obtain ⟨hlate, htrail⟩ := (hinv.ended hnone).2 hne
    refine ⟨hlate, ?_, fun hsince => ?_⟩
    · have heq := htrail.eq
      split at heq
      case isTrue hnil =>
        refine ⟨[[]], ?_⟩
        rw [hnil] at heq
        exact heq
      case isFalse => exact ⟨_, heq⟩
    · have hnoLate : t.late = [] := List.suffix_nil.mp (hsince ▸ hinv.late hne)
      have horder := hinv.order
      rw [hlate, hnoLate, hsince, List.append_nil, List.append_nil,
        nonEmpty_eq_busy htrail (hinv.calm hsince).2] at horder
      rw [← horder]
      exact htrail.eq
  · obtain ⟨pump, hpump⟩ := Pump.next_ok (A := A) t.pump true
    have hstep : (servedSystem A).step t .next = .ok (t.next pump) := by
      show ((pumpSystem A).step t.pump (.next true) >>= _) = _
      rw [hpump]
      rfl
    exact ⟨_, hstep, hinv.left_lt (servedStep_cases (e := .next) hinv.chan hdelays howes hstep) hloop
      (.inl rfl)⟩
  · exact hinv.left_lt (servedStep_cases (e := .answer hdrByte) hinv.chan hdelays howes hstep) hloop
      (.inr ⟨_, rfl⟩)

/-- Two payloads are queued, a packet arrives, and seven passes are made. -/
def twoPayloads : List ServedEvent :=
  [.enqueue [1], .enqueue [2]] ++
    (0xA7 :: lenBytes 7 ++ airPacket 7 2 1 [0] ++ [checksum8 (airPacket 7 2 1 [0])]).map
      (.call <| .uartRxChar ·) ++
    [.recv] ++ (List.replicate 7 [.answer 2, .next]).flatten

instance (A : Aead 16 13 4) (s : Served) (e : ServedEvent) :
    Decidable ((servedSystem A).enabled s e) :=
  match e with
  | .recv | .next | .answer _ => inferInstanceAs (Decidable (_ = _))
  | .enqueue _ => inferInstanceAs (Decidable (_ ≠ _))
  | .call (.tx _ _) => .isFalse id
  | .call (.setchan chan _) => inferInstanceAs (Decidable (chan < 37))
  | .call (.uartRxChar _) | .call .uartTxChar | .call (.encryptEnable _) | .call (.encryptIvSet _)
  | .call (.encryptCounterSet _) | .call .encryptDisable => .isTrue trivial

/-- The state after a list of events on a data channel. -/
def servedAfter (es : List ServedEvent) : Served :=
  ((servedSystem (.byteSumTag 16 13 4)).exec (.connected (pumpAfter onDataChannel).phy) es).getD
    (.connected blePhyInit)

/-- They are transmitted in the first two. -/
theorem recvPacket_drains_two :
    (servedAfter twoPayloads).answers = [[1], [2]] ++ List.replicate 5 [] := by
  have hexec : (servedSystem (.byteSumTag 16 13 4)).exec (.connected (pumpAfter onDataChannel).phy)
      twoPayloads = some (servedAfter twoPayloads) := by decide +kernel
  have hnone : (servedAfter twoPayloads).pump.recvLoop = none := by decide +kernel
  have hanswered : (servedAfter twoPayloads).answers ≠ [] := by decide +kernel
  have hdrains := recvPacket_drains (by decide +kernel) (System.Run.of_exec hexec)
  have hcalm := (hdrains.2.1 hnone hanswered).2.2 (by decide +kernel)
  rwa [show (servedAfter twoPayloads).pending = [[1], [2]] by decide +kernel] at hcalm

end BleFuzzer.Bridge

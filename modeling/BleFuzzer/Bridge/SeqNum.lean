import BleFuzzer.Bridge.RecvPacket
import BleFuzzer.Common.System

/-!
# Sequence numbers

The mapper sends every packet with sequence numbers of its own choice, so `recv_packet` replaces
them by numbers that the link layer expects: those `ble_phy_tx` has last extracted. The system below
puts the driver together with a link layer that follows the acknowledgement scheme. Its runs
interleave the passes of the inner loop of `recv_packet` with everything else that calls the driver.
-/

namespace BleFuzzer.Bridge

/-- `BLE_LL_DATA_HDR_SN_MASK` selects the sequence number of a header byte. -/
def snBit (hdrByte : UInt8) : Bool := hdrByte &&& 0x08 ≠ 0

/-- `BLE_LL_DATA_HDR_NESN_MASK` selects the next expected sequence number. -/
def nesnBit (hdrByte : UInt8) : Bool := hdrByte &&& 0x04 ≠ 0

/-! ## The link layer -/

/-- How the link layer took a data PDU. -/
structure Delivery where
  /-- The header byte of the frame, or of the simulated empty packet. -/
  frameHdr : UInt8
  /-- The header byte handed to `ble_ll_rx_end`. -/
  pduHdr : UInt8
  /-- Whether it is the first one of a connection. -/
  isFirst : Bool
  isNew : Bool
  /-- Whether it acknowledges the last transmitted PDU. -/
  acks : Bool
deriving Repr, DecidableEq

/-- The state of the link layer. -/
structure LinkLayer where
  transmitSeqNum : Bool
  nextExpectedSeqNum : Bool
  /-- Whether a data PDU has yet to be answered. -/
  owesTx : Bool
  /-- The number of data PDUs received in the current connection. -/
  count : ℕ
  /-- All data PDUs received, oldest first. -/
  log : List Delivery
deriving DecidableEq

/-- Before the first connection. -/
def LinkLayer.start : LinkLayer := ⟨false, false, false, 0, []⟩

/-- A new connection. -/
def LinkLayer.connect (ll : LinkLayer) : LinkLayer :=
  { ll with transmitSeqNum := false, nextExpectedSeqNum := false, count := 0 }

/-- A data PDU is received. It is new if it has the expected number, and it acknowledges the last
transmitted PDU if it expects another number than that one's. -/
def LinkLayer.receive (ll : LinkLayer) (frameHdr pduHdr : UInt8) : LinkLayer :=
  let isNew := snBit pduHdr == ll.nextExpectedSeqNum
  let acks := nesnBit pduHdr != ll.transmitSeqNum
  { nextExpectedSeqNum := ll.nextExpectedSeqNum ^^ isNew
    transmitSeqNum := ll.transmitSeqNum ^^ acks
    owesTx := true
    count := ll.count + 1
    log := ll.log ++ [⟨frameHdr, pduHdr, ll.count == 0, isNew, acks⟩] }

/-! ## The system -/

/-- Driver, inner loop of `recv_packet`, and link layer. -/
structure LinkSeq where
  phy : Phy
  /-- The locals of the inner loop of `recv_packet` during its delays; `none` outside of the loop.
  -/
  recvLoop : Option RecvLocals
  ll : LinkLayer
deriving DecidableEq

/-- The start of the program. -/
def LinkSeq.start : LinkSeq := ⟨blePhyInit, none, .start⟩

/-- A pass of the inner loop of `recv_packet` up to the delays, for a frame or, with `rx_buf_len` 0,
for none. -/
def LinkSeq.recvPass (s : LinkSeq) (frame : Bytes) (l : RecvLocals) : LinkSeq :=
  let prepared := recvPacketPrepare s.phy l
  { s with
    recvLoop := some prepared
    ll :=
      match recvPacketPdu s.phy prepared with
      | none => s.ll
      | some pdu =>
        if s.phy.phyChan < 37 then
          s.ll.receive (if l.rxBuf = [] then 0x01 else frame.getD 4 0) (pdu.pdu.getD 0 0)
        else
          s.ll }

/-- What happens to the driver. -/
inductive SeqEvent
  /-- `recv_packet` takes a packet from the serial buffer and makes the first pass of its loop. -/
  | frame (rxBuf : Bytes)
  /-- The loop of `recv_packet` goes on. -/
  | next
  /-- The link layer starts a new connection. -/
  | connect (chan : UInt8) (accessAddr : UInt32)
  /-- The link layer changes the channel. -/
  | setchan (chan : UInt8) (accessAddr : UInt32)
  /-- The link layer calls `ble_phy_tx`. -/
  | tx (hdrByte : UInt8) (payload : Bytes)
  | uartRxChar (byte : UInt8)
  | uartTxChar
  | encryptEnable (key : Bytes)
  | encryptIvSet (iv : Bytes)
  | encryptCounterSet (counter : UInt64)
  | encryptDisable
deriving DecidableEq

/-- The driver with its link layer. A packet is at least a header long. The link layer answers each
data PDU once, before the next one and before it leaves the channel, with its own numbers. -/
def seqSystem (A : Aead 16 13 4) : System LinkSeq SeqEvent Fault where
  enabled s
    | .frame rxBuf => s.recvLoop = none ∧ s.ll.owesTx = false ∧ 6 ≤ rxBuf.length
    | .next => s.ll.owesTx = false
    | .connect chan _ => chan < 37 ∧ s.ll.owesTx = false
    | .setchan _ _ => s.ll.owesTx = false
    | .tx hdrByte _ => s.phy.phyChan < 37 → s.ll.owesTx = true ∧
        snBit hdrByte = s.ll.transmitSeqNum ∧ nesnBit hdrByte = s.ll.nextExpectedSeqNum
    | _ => True
  step s
    | .frame rxBuf =>
      let first := recvPacketBegin A s.phy rxBuf
      .ok ({ s with phy := first.2 }.recvPass rxBuf first.1)
    | .next =>
      match s.recvLoop with
      | none => .ok s
      | some l =>
        let next := recvPacketNext s.phy l
        match next.1 with
        | none => .ok { s with phy := next.2, recvLoop := none }
        | some l => .ok ({ s with phy := next.2 }.recvPass [] l)
    | .connect chan accessAddr =>
      .ok { s with phy := blePhySetchan s.phy chan accessAddr, ll := s.ll.connect }
    | .setchan chan accessAddr => .ok { s with phy := blePhySetchan s.phy chan accessAddr }
    | .tx hdrByte payload => do
      let phy ← blePhyTx A s.phy hdrByte payload
      return { s with
        phy := phy
        ll := if s.phy.phyChan < 37 then { s.ll with owesTx := false } else s.ll }
    | .uartRxChar byte => do return { s with phy := ← blePhyUartRxChar s.phy byte }
    | .uartTxChar => .ok { s with phy := (blePhyUartTxChar s.phy).2 }
    | .encryptEnable key => .ok { s with phy := blePhyEncryptEnable s.phy key }
    | .encryptIvSet iv => .ok { s with phy := blePhyEncryptIvSet s.phy iv }
    | .encryptCounterSet counter => .ok { s with phy := blePhyEncryptCounterSet s.phy counter }
    | .encryptDisable => .ok { s with phy := blePhyEncryptDisable s.phy }

instance (A : Aead 16 13 4) (s : LinkSeq) (e : SeqEvent) :
    Decidable ((seqSystem A).enabled s e) :=
  match e with
  | .frame _ => inferInstanceAs (Decidable (_ ∧ _ ∧ _))
  | .next => inferInstanceAs (Decidable (_ = _))
  | .connect _ _ => inferInstanceAs (Decidable (_ ∧ _))
  | .setchan _ _ => inferInstanceAs (Decidable (_ = _))
  | .tx _ _ => inferInstanceAs (Decidable (_ → _ ∧ _ ∧ _))
  | .uartRxChar _ | .uartTxChar | .encryptEnable _ | .encryptIvSet _ | .encryptCounterSet _
  | .encryptDisable => .isTrue trivial

/-- A new connection starts after an even number of data PDUs in the one before. -/
def EvenRestart (s : LinkSeq) : SeqEvent → Prop
  | .connect _ _ => s.ll.count % 2 = 0
  | _ => True

instance (s : LinkSeq) (e : SeqEvent) : Decidable (EvenRestart s e) :=
  match e with
  | .connect _ _ => inferInstanceAs (Decidable (_ = _))
  | .frame _ | .next | .setchan _ _ | .tx _ _ | .uartRxChar _ | .uartTxChar | .encryptEnable _
  | .encryptIvSet _ | .encryptCounterSet _ | .encryptDisable => .isTrue trivial

/-- The link layer takes the PDU for new, and from the second one of a connection on for an
acknowledgement, and no other bit of its header is altered. -/
structure Delivery.Kept (d : Delivery) : Prop where
  isNew : d.isNew = true
  acks : d.isFirst = false → d.acks = true
  hdr : d.pduHdr &&& 0xF3 = d.frameHdr &&& 0xF3

/-! ## What a step can do -/

/-- The numbers in the driver. -/
def Phy.seqNum (phy : Phy) : UInt8 × UInt8 := (phy.rxSn, phy.rxNesn)

/-- On a data channel, the first byte handed over is the header byte with the driver's numbers. -/
theorem recvPacketPdu_dataChannel {phy : Phy} {l : RecvLocals} (hchan : phy.phyChan < 37)
    (hl : l.rxBuf = [] ∨ (l.isAdvChanPkt = false ∧ 6 ≤ l.rxBuf.length)) :
    ∃ pdu, recvPacketPdu phy (recvPacketPrepare phy l) = some pdu ∧
      pdu.pdu.getD 0 0 = fixSeqNum phy (if l.rxBuf = [] then 0x01 else l.rxBuf.getD 4 0) := by
  -- the packet whose numbers are fixed
  obtain ⟨base, hlen, hhdr, hprepare⟩ : ∃ base : Bytes, 6 ≤ base.length ∧
      base.getD 4 0 = (if l.rxBuf = [] then 0x01 else l.rxBuf.getD 4 0) ∧
      (recvPacketPrepare phy l).rxBuf = base.modify 4 (fixSeqNum phy) := by
    by_cases hempty : l.rxBuf = []
    · refine ⟨emptyDataPacket phy, ?_, ?_, ?_⟩
      · simp [emptyDataPacket]
      · rw [if_pos hempty]
        rfl
      · simp [recvPacketPrepare, hempty, hchan]
    · obtain ⟨hadv, hlen⟩ := hl.resolve_left hempty
      refine ⟨l.rxBuf, hlen, by rw [if_neg hempty], ?_⟩
      simp [recvPacketPrepare, hempty, hadv]
  have hne : (recvPacketPrepare phy l).rxBuf ≠ [] := by
    refine List.ne_nil_of_length_pos ?_
    rw [hprepare, List.length_modify]
    omega
  refine ⟨_, by rw [recvPacketPdu, if_neg hne], ?_⟩
  show ((recvPacketPrepare phy l).rxBuf.drop 4).getD 0 0 = _
  rw [hprepare, ← hhdr]
  simp [List.getD_eq_getElem?_getD, List.getElem?_eq_getElem (show 4 < base.length by omega)]

/-- The locals with which `recv_packet` enters its inner loop. -/
theorem recvPacketBegin_locals (A : Aead 16 13 4) (phy : Phy) {frame : Bytes}
    (hlen : 6 ≤ frame.length) :
    (recvPacketBegin A phy frame).1.rxBuf = [] ∨
      (phy.phyChan < 37 → (recvPacketBegin A phy frame).1.isAdvChanPkt = false) ∧
        6 ≤ (recvPacketBegin A phy frame).1.rxBuf.length ∧
        (recvPacketBegin A phy frame).1.rxBuf.getD 4 0 = frame.getD 4 0 := by
  cases haccept : recvPacketAccepts phy (recvPacketDecrypt A phy frame).2 with
  | false =>
    left
    simp [recvPacketBegin, haccept]
  | true =>
    right
    simp only [recvPacketBegin, haccept, if_true]
    refine ⟨fun hchan => ?_, ?_⟩
    · have hnot : ¬ (37 ≤ phy.phyChan) := UInt8.not_le.mpr hchan
      simpa [recvPacketAccepts, hnot, hchan] using haccept
    · -- the decryption keeps the header byte
      obtain ⟨aa, hdrByte, length, payload, rfl⟩ := exists_airPacket frame hlen
      by_cases hguard : recvPacketDecrypts phy (airPacket aa hdrByte length payload)
      · rw [recvPacketDecrypt_cipher A aa hdrByte length payload hguard]
        exact ⟨by rw [airPacket_length]; omega, rfl⟩
      · rw [recvPacketDecrypt_plain A hguard]
        exact ⟨hlen, rfl⟩

/-- A pass hands at most one data PDU over, with the driver's numbers. -/
theorem recvPass_ll (s : LinkSeq) (frame : Bytes) {l : RecvLocals}
    (hl : l.rxBuf = [] ∨ (s.phy.phyChan < 37 → l.isAdvChanPkt = false) ∧ 6 ≤ l.rxBuf.length ∧
      l.rxBuf.getD 4 0 = frame.getD 4 0) :
    (s.recvPass frame l).ll = s.ll ∨
      ∃ hdrByte, (s.recvPass frame l).ll = s.ll.receive hdrByte (fixSeqNum s.phy hdrByte) := by
  by_cases hchan : s.phy.phyChan < 37
  · right
    have hhdr : (if l.rxBuf = [] then 0x01 else l.rxBuf.getD 4 0) =
        (if l.rxBuf = [] then 0x01 else frame.getD 4 0) := by
      rcases hl with hempty | ⟨-, -, hhdr⟩
      · rw [if_pos hempty, if_pos hempty]
      · rw [hhdr]
    obtain ⟨pdu, hpdu, hfirst⟩ := recvPacketPdu_dataChannel hchan
      (hl.imp_right fun h => ⟨h.1 hchan, h.2.1⟩)
    refine ⟨if l.rxBuf = [] then 0x01 else frame.getD 4 0, ?_⟩
    simp only [LinkSeq.recvPass, hpdu, if_pos hchan, hfirst, hhdr]
  · left
    simp only [LinkSeq.recvPass, if_neg hchan]
    split <;> rfl

/-- What a step does to the numbers of the driver and to the link layer. -/
inductive SeqStep (e : SeqEvent) (s t : LinkSeq) : Prop
  | quiet (hseq : t.phy.seqNum = s.phy.seqNum) (hll : t.ll = s.ll)
  | receive (hdrByte : UInt8) (howes : s.ll.owesTx = false) (hseq : t.phy.seqNum = s.phy.seqNum)
      (hll : t.ll = s.ll.receive hdrByte (fixSeqNum s.phy hdrByte))
  | connect (hevent : ∃ chan accessAddr, e = .connect chan accessAddr) (howes : s.ll.owesTx = false)
      (hseq : t.phy.seqNum = s.phy.seqNum) (hll : t.ll = s.ll.connect)
  | answer (howes : s.ll.owesTx = true)
      (hseq : t.phy.seqNum =
        (s.ll.nextExpectedSeqNum.toUInt8, (!s.ll.transmitSeqNum).toUInt8))
      (hll : t.ll = { s.ll with owesTx := false })

/-- `ble_phy_tx` extracts the numbers of the header byte on a data channel, and no others. -/
theorem blePhyTx_seqNum {A : Aead 16 13 4} {phy phy' : Phy} {hdrByte : UInt8} {payload : Bytes}
    (h : blePhyTx A phy hdrByte payload = .ok phy') :
    phy'.seqNum = if phy.phyChan < 37 then ((nesnBit hdrByte).toUInt8, (!snBit hdrByte).toUInt8)
      else phy.seqNum := by
  rw [(blePhyTx_ok A h).2]
  show (blePhyTxFlags phy hdrByte payload).seqNum = _
  have hseq : (blePhyTxFlags phy hdrByte payload).seqNum = (blePhyTxSeqNum phy hdrByte).seqNum := by
    rw [blePhyTxFlags]
    split <;> rfl
  rw [hseq, blePhyTxSeqNum]
  split
  · rw [Phy.seqNum, nesnBit, snBit]
    by_cases hnesn : hdrByte &&& 0x04 = 0 <;> by_cases hsn : hdrByte &&& 0x08 = 0 <;>
      simp [hnesn, hsn] <;> decide
  · rfl

/-- Receiving a byte changes no numbers. -/
theorem blePhyUartRxChar_seqNum {phy phy' : Phy} {byte : UInt8}
    (h : blePhyUartRxChar phy byte = .ok phy') : phy'.seqNum = phy.seqNum := by
  obtain ⟨f, count, connected, queued, rfl⟩ := blePhyUartRxChar_kept h
  rfl

/-- Later passes of the inner loop start without a packet. -/
theorem recvPacketNext_rxBuf {phy : Phy} {l l' : RecvLocals}
    (h : (recvPacketNext phy l).1 = some l') : l'.rxBuf = [] := by
  simp only [recvPacketNext, Option.ite_none_right_eq_some] at h
  rw [← Option.some.inj h.2]

variable {A : Aead 16 13 4}

/-- **Every step of the system is one of the four kinds.** -/
theorem seqStep_cases {s t : LinkSeq} {e : SeqEvent} (hen : (seqSystem A).enabled s e)
    (hstep : (seqSystem A).step s e = .ok t) : SeqStep e s t := by
  cases e with
  | frame rxBuf =>
    obtain ⟨-, howes, hlen⟩ := hen
    obtain rfl := Except.ok.inj hstep
    -- the first pass may have the packet of the frame
    rcases recvPass_ll { s with phy := (recvPacketBegin A s.phy rxBuf).2 } rxBuf
      (recvPacketBegin_locals A s.phy hlen) with hll | ⟨hdrByte, hll⟩
    · exact .quiet rfl hll
    · exact .receive hdrByte howes rfl hll
  | next =>
    change (match s.recvLoop with
      | none => _
      | some l => _) = _ at hstep
    split at hstep
    case h_1 =>
      obtain rfl := Except.ok.inj hstep
      exact .quiet rfl rfl
    case h_2 l _ =>
      dsimp only at hstep
      split at hstep
      case h_1 =>
        obtain rfl := Except.ok.inj hstep
        exact .quiet rfl rfl
      case h_2 l' hnext =>
        obtain rfl := Except.ok.inj hstep
        -- a later pass has at most a simulated packet
        rcases recvPass_ll { s with phy := (recvPacketNext s.phy l).2 } []
          (.inl (recvPacketNext_rxBuf hnext)) with hll | ⟨hdrByte, hll⟩
        · exact .quiet rfl hll
        · exact .receive hdrByte hen rfl hll
  | connect chan accessAddr =>
    obtain rfl := Except.ok.inj hstep
    exact .connect ⟨chan, accessAddr, rfl⟩ hen.2 rfl rfl
  | setchan chan accessAddr =>
    obtain rfl := Except.ok.inj hstep
    exact .quiet rfl rfl
  | tx hdrByte payload =>
    change (blePhyTx A s.phy hdrByte payload >>= _) = _ at hstep
    cases htx : blePhyTx A s.phy hdrByte payload with
    | error fault =>
      rw [htx] at hstep
      cases hstep
    | ok phy =>
      rw [htx] at hstep
      obtain rfl := Except.ok.inj hstep
      have hseq := blePhyTx_seqNum htx
      -- only a transmission on a data channel is an answer
      by_cases hchan : s.phy.phyChan < 37
      · obtain ⟨howes, hsn, hnesn⟩ := hen hchan
        rw [if_pos hchan, hsn, hnesn] at hseq
        exact .answer howes hseq (if_pos hchan)
      · rw [if_neg hchan] at hseq
        exact .quiet hseq (if_neg hchan)
  | uartRxChar byte =>
    change (blePhyUartRxChar s.phy byte >>= _) = _ at hstep
    cases hrx : blePhyUartRxChar s.phy byte with
    | error fault =>
      rw [hrx] at hstep
      cases hstep
    | ok phy =>
      rw [hrx] at hstep
      obtain rfl := Except.ok.inj hstep
      exact .quiet (blePhyUartRxChar_seqNum hrx) rfl
  | uartTxChar =>
    obtain rfl := Except.ok.inj hstep
    refine .quiet ?_ rfl
    show (blePhyUartTxChar s.phy).2.seqNum = s.phy.seqNum
    rw [blePhyUartTxChar]
    split <;> rfl
  | encryptEnable key | encryptIvSet iv | encryptCounterSet counter | encryptDisable =>
    obtain rfl := Except.ok.inj hstep
    exact .quiet rfl rfl

/-! ## The numbers of a delivered PDU -/

/-- The header byte that `recv_packet` hands over, from the numbers of the driver. -/
theorem fixSeqNum_bits {phy : Phy} {sn nesn : Bool} (h : phy.seqNum = (sn.toUInt8, nesn.toUInt8))
    (hdrByte : UInt8) :
    snBit (fixSeqNum phy hdrByte) = sn ∧ nesnBit (fixSeqNum phy hdrByte) = nesn ∧
      fixSeqNum phy hdrByte &&& 0xF3 = hdrByte &&& 0xF3 := by
  obtain ⟨hsn, hnesn⟩ := Prod.mk.inj h
  have hkeep : ∀ mask : UInt8, fixSeqNum phy hdrByte &&& mask =
      (hdrByte &&& ((0xf3 : UInt8) &&& mask)) |||
        ((sn.toUInt8 <<< 3) &&& mask) ||| ((nesn.toUInt8 <<< 2) &&& mask) := by
    intro mask
    rw [fixSeqNum, hsn, hnesn, or_and_mask, or_and_mask, UInt8.and_assoc]
  have hsnBit : fixSeqNum phy hdrByte &&& (0x08 : UInt8) = sn.toUInt8 <<< (3 : UInt8) := by
    rw [hkeep, show (0xf3 : UInt8) &&& (0x08 : UInt8) = 0 from rfl, UInt8.and_zero]
    cases sn <;> cases nesn <;> rfl
  have hnesnBit : fixSeqNum phy hdrByte &&& (0x04 : UInt8) = nesn.toUInt8 <<< (2 : UInt8) := by
    rw [hkeep, show (0xf3 : UInt8) &&& (0x04 : UInt8) = 0 from rfl, UInt8.and_zero]
    cases sn <;> cases nesn <;> rfl
  refine ⟨?_, ?_, ?_⟩
  · rw [snBit, hsnBit]
    cases sn <;> rfl
  · rw [nesnBit, hnesnBit]
    cases nesn <;> rfl
  · have hbits : (sn.toUInt8 <<< 3) &&& 0xF3 = 0 ∧ (nesn.toUInt8 <<< 2) &&& 0xF3 = 0 := by
      cases sn <;> cases nesn <;> exact ⟨rfl, rfl⟩
    rw [hkeep, hbits.1, hbits.2, UInt8.or_zero, UInt8.or_zero, UInt8.and_self]

/-! ## Runs -/

/-- What holds while every connection starts after an even number of PDUs. -/
structure SeqInv (s : LinkSeq) : Prop where
  bits : ∃ sn nesn : Bool, s.phy.seqNum = (sn.toUInt8, nesn.toUInt8)
  parity : s.ll.nextExpectedSeqNum = decide (s.ll.count % 2 = 1)
  /-- In a connection, once the last PDU is answered, the driver holds the link layer's numbers. -/
  echo : 0 < s.ll.count → s.ll.owesTx = false →
    s.phy.seqNum = (s.ll.nextExpectedSeqNum.toUInt8, (!s.ll.transmitSeqNum).toUInt8)
  fresh : s.ll.count = 0 → s.phy.rxSn = 0
  kept : ∀ d ∈ s.ll.log, d.Kept

/-- The invariant holds when the link layer enters the connection. -/
theorem seqInv_start : SeqInv .start where
  bits := ⟨false, false, rfl⟩
  parity := rfl
  echo h := absurd h (Nat.lt_irrefl 0)
  fresh _ := rfl
  kept _ h := absurd h List.not_mem_nil

/-- The next PDU is new, and not the first one or an acknowledgement. -/
theorem SeqInv.receive_kept {s : LinkSeq} (h : SeqInv s) (howes : s.ll.owesTx = false)
    (hdrByte : UInt8) :
    snBit (fixSeqNum s.phy hdrByte) = s.ll.nextExpectedSeqNum ∧
      (s.ll.count ≠ 0 → nesnBit (fixSeqNum s.phy hdrByte) = !s.ll.transmitSeqNum) ∧
      fixSeqNum s.phy hdrByte &&& 0xF3 = hdrByte &&& 0xF3 := by
  by_cases hcount : s.ll.count = 0
  · obtain ⟨sn, nesn, hseq⟩ := h.bits
    obtain ⟨hsn, -, hhdr⟩ := fixSeqNum_bits hseq hdrByte
    refine ⟨?_, fun hne => absurd hcount hne, hhdr⟩
    have hzero : sn.toUInt8 = 0 := (Prod.mk.inj hseq).1.symm.trans (h.fresh hcount)
    rw [hsn, h.parity, hcount]
    cases sn
    · rfl
    · exact absurd hzero (by decide)
  · obtain ⟨hsn, hnesn, hhdr⟩ := fixSeqNum_bits (h.echo (Nat.pos_of_ne_zero hcount) howes) hdrByte
    exact ⟨hsn, fun _ => hnesn, hhdr⟩

/-- One step keeps the invariant. -/
theorem SeqInv.step {s t : LinkSeq} {e : SeqEvent} (h : SeqInv s) (hstep : SeqStep e s t)
    (heven : EvenRestart s e) : SeqInv t := by
  cases hstep with
  | quiet hseq hll =>
    refine ⟨hseq ▸ h.bits, ?_, ?_, ?_, ?_⟩
    · rw [hll]
      exact h.parity
    · rw [hll, hseq]
      exact h.echo
    · intro hcount
      rw [hll] at hcount
      exact (Prod.mk.inj hseq).1.trans (h.fresh hcount)
    · rw [hll]
      exact h.kept
  | receive hdrByte howes hseq hll =>
    obtain ⟨hsn, hnesn, hhdr⟩ := h.receive_kept howes hdrByte
    have hnew : (snBit (fixSeqNum s.phy hdrByte) == s.ll.nextExpectedSeqNum) = true :=
      beq_iff_eq.mpr hsn
    refine ⟨hseq ▸ h.bits, ?_, ?_, ?_, ?_⟩
    · -- a new PDU flips the expected number, and the parity of their count
      rw [hll]
      show (s.ll.nextExpectedSeqNum ^^ (snBit _ == _)) = decide ((s.ll.count + 1) % 2 = 1)
      rw [hnew, h.parity, Bool.xor_true, ← decide_not]
      exact decide_eq_decide.mpr (by omega)
    · -- it is not answered yet
      intro _ hanswered
      rw [hll] at hanswered
      cases hanswered
    · intro hcount
      rw [hll] at hcount
      exact absurd hcount (Nat.succ_ne_zero _)
    · rw [hll]
      intro d hd
      -- the PDU of this step is the last of the log
      rcases List.mem_append.mp hd with hold | hlast
      · exact h.kept d hold
      · obtain rfl := List.mem_singleton.mp hlast
        refine ⟨hnew, fun hfirst => ?_, hhdr⟩
        have hne : s.ll.count ≠ 0 := by simpa using hfirst
        show (nesnBit (fixSeqNum s.phy hdrByte) != s.ll.transmitSeqNum) = true
        rw [hnesn hne]
        cases s.ll.transmitSeqNum <;> rfl
  | connect hevent howes hseq hll =>
    obtain ⟨chan, accessAddr, rfl⟩ := hevent
    refine ⟨hseq ▸ h.bits, ?_, ?_, ?_, ?_⟩
    · rw [hll]
      rfl
    · intro hcount
      rw [hll] at hcount
      exact absurd hcount (Nat.lt_irrefl 0)
    · intro _
      -- the driver keeps its number, which is zero again after an even count
      rw [show t.phy.rxSn = s.phy.rxSn from (Prod.mk.inj hseq).1]
      rcases Nat.eq_zero_or_pos s.ll.count with hzero | hpos
      · exact h.fresh hzero
      · rw [show s.phy.rxSn = s.ll.nextExpectedSeqNum.toUInt8 from
          (Prod.mk.inj (h.echo hpos howes)).1, h.parity, show s.ll.count % 2 = 0 from heven]
        rfl
    · rw [hll]
      exact h.kept
  | answer howes hseq hll =>
    refine ⟨⟨_, _, hseq⟩, ?_, ?_, ?_, ?_⟩
    · rw [hll]
      exact h.parity
    · intro _ _
      rw [hll]
      exact hseq
    · intro hcount
      rw [hll] at hcount
      rw [show t.phy.rxSn = s.ll.nextExpectedSeqNum.toUInt8 from (Prod.mk.inj hseq).1, h.parity,
        show s.ll.count = 0 from hcount]
      rfl
    · rw [hll]
      exact h.kept

/-- The invariant holds in every state of a run. -/
theorem SeqInv.of_run {s : LinkSeq} {es : List SeqEvent}
    (h : ((seqSystem A).restrict EvenRestart).Run .start es s) : SeqInv s :=
  h.invariant (fun _ _ _ hinv hen hstep => hinv.step (seqStep_cases hen.1 hstep) hen.2) seqInv_start

/-- What holds after a connection has started with an odd number behind it: the PDU at position `n`
of the log is still to come, and will not be new, or has come, and was not new. -/
def Stale (n : ℕ) (s : LinkSeq) : Prop :=
  (s.ll.log.length = n ∧ s.ll.nextExpectedSeqNum = false ∧ s.ll.owesTx = false ∧
      ∃ nesn : Bool, s.phy.seqNum = (true.toUInt8, nesn.toUInt8)) ∨
    ∃ d, s.ll.log[n]? = some d ∧ d.isNew = false

/-- One step keeps it. -/
theorem Stale.step {n : ℕ} {s t : LinkSeq} {e : SeqEvent} (h : Stale n s) (hstep : SeqStep e s t) :
    Stale n t := by
  rcases h with ⟨hlen, hexpected, howes, nesn, hnum⟩ | ⟨d, hd, hnew⟩
  · cases hstep with
    | quiet hseq hll =>
      left
      rw [hll, hseq]
      exact ⟨hlen, hexpected, howes, nesn, hnum⟩
    | receive hdrByte _ hseq hll =>
      right
      refine ⟨_, by rw [hll, ← hlen]; exact List.getElem?_concat_length, ?_⟩
      show (snBit (fixSeqNum s.phy hdrByte) == s.ll.nextExpectedSeqNum) = false
      rw [(fixSeqNum_bits hnum hdrByte).1, hexpected]
      rfl
    | connect _ _ hseq hll =>
      left
      rw [hll, hseq]
      exact ⟨hlen, rfl, howes, nesn, hnum⟩
    | answer hanswer => rw [howes] at hanswer; cases hanswer
  · right
    refine ⟨d, ?_, hnew⟩
    cases hstep with
    | quiet _ hll => rw [hll, hd]
    | receive hdrByte _ _ hll =>
      rw [hll]
      have hlt : n < s.ll.log.length := (List.getElem?_eq_some_iff.mp hd).1
      exact (List.getElem?_append_left hlt).trans hd
    | connect _ _ _ hll =>
      rw [hll]
      exact hd
    | answer _ _ hll =>
      rw [hll]
      exact hd

/-- **When the link layer keeps what `recv_packet` delivers.** As long as every connection starts
after an even number of data PDUs, each data PDU is new, each one after the first of its connection
is an acknowledgement, and no other bit of a header changes. The first data PDU after a connection
with an odd number of them is not new. -/
theorem recvPacket_kept (A : Aead 16 13 4) :
    (∀ es s, ((seqSystem A).restrict EvenRestart).Run .start es s → ∀ d ∈ s.ll.log, d.Kept) ∧
    (∀ es s e t es' u, ((seqSystem A).restrict EvenRestart).Run .start es s →
      (seqSystem A).enabled s e → ¬ EvenRestart s e → (seqSystem A).step s e = .ok t →
      (seqSystem A).Run t es' u →
      ∀ d, u.ll.log[s.ll.log.length]? = some d → d.isNew = false) := by
  refine ⟨fun es s hrun => (SeqInv.of_run hrun).kept, ?_⟩
  intro es s e t es' u hrun hen hodd hstep hrun' d hd
  have hinv := SeqInv.of_run hrun
  have hstale : Stale s.ll.log.length t := by
    cases e with
    | connect chan accessAddr =>
      obtain rfl := Except.ok.inj hstep
      have hcount : s.ll.count % 2 = 1 := Nat.mod_two_ne_zero.mp hodd
      have hecho := hinv.echo (by omega) hen.2
      rw [hinv.parity, hcount] at hecho
      exact .inl ⟨rfl, rfl, hen.2, _, hecho⟩
    | _ => exact absurd trivial hodd
  have hlast := hrun'.invariant (fun _ _ _ h hen hstep => h.step (seqStep_cases hen hstep)) hstale
  rcases hlast with ⟨hlen, -⟩ | ⟨d', hd', hnew⟩
  · rw [List.getElem?_eq_none (by omega)] at hd
    cases hd
  · obtain rfl := Option.some.inj (hd'.symm.trans hd)
    exact hnew

/-- The system around a concrete cipher. -/
abbrev plainSeqSystem : System LinkSeq SeqEvent Fault := seqSystem (.byteSumTag 16 13 4)

/-- A connection is made, the five simulated empty packets after the `CONNECT_IND` are answered by
empty ones, and the connection ends. -/
def shortConnection : List SeqEvent :=
  [.setchan 37 0x8e89bed6, .frame (airPacket 0x8e89bed6 5 34 (List.replicate 34 0)),
   .connect 0 7, .next, .tx 0x05 [], .next, .tx 0x09 [], .next, .tx 0x05 [],
   .next, .tx 0x09 [], .next, .tx 0x05 [], .next, .setchan 37 0x8e89bed6]

/-- The state after a list of events from the start. -/
def stateAfter (es : List SeqEvent) : LinkSeq := (plainSeqSystem.exec .start es).getD .start

/-- The five PDUs of a short connection, and the first one of the next. -/
theorem recvPacket_kept_short :
    (∀ d ∈ (stateAfter shortConnection).ll.log, d.Kept) ∧
      ∀ d, (stateAfter (shortConnection ++ [.connect 0 9, .frame (airPacket 9 2 1 [0])])).ll.log[5]? =
        some d → d.isNew = false := by
  have hkept := recvPacket_kept (.byteSumTag 16 13 4)
  have hrun : (plainSeqSystem.restrict EvenRestart).Run .start shortConnection
      (stateAfter shortConnection) := System.Run.of_exec (by decide +kernel)
  refine ⟨hkept.1 _ _ hrun, ?_⟩
  exact hkept.2 shortConnection (stateAfter shortConnection) (.connect 0 9)
    (stateAfter (shortConnection ++ [.connect 0 9])) [.frame (airPacket 9 2 1 [0])] _ hrun
    (by decide) (by decide) (by decide +kernel) (System.Run.of_exec (by decide +kernel))

/-- After a connection with five data PDUs, the first PDU of the next connection is not new. -/
theorem oddConnection_not_new :
    ∃ s, plainSeqSystem.Run .start
        (shortConnection ++ [.frame (airPacket 0x8e89bed6 5 34 (List.replicate 34 0)), .connect 0 9,
          .next]) s ∧
      s.ll.log.getLast? = some ⟨0x01, 0x0d, true, false, true⟩ := by
  refine ⟨stateAfter (shortConnection ++
    [.frame (airPacket 0x8e89bed6 5 34 (List.replicate 34 0)), .connect 0 9, .next]), ?_, ?_⟩
  · exact System.Run.of_exec (by decide +kernel)
  · decide

end BleFuzzer.Bridge

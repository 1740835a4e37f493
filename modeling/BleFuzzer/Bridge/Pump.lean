import BleFuzzer.Bridge.SeqNum

/-!
# The packet pump

The task of `recv_packet` together with everything else that calls the driver. The task takes frames
from the serial buffer, and its inner loop hands packets to the link layer; between two passes of
that loop, during its delays, any other call of the driver can happen. `Handled` keeps for each
frame what has been handed over on its behalf.
-/

namespace BleFuzzer.Bridge

/-- The calls of the driver by the controller and by the serial interface. -/
inductive DriverCall
  | setchan (chan : UInt8) (accessAddr : UInt32)
  | tx (hdrByte : UInt8) (payload : Bytes)
  | uartRxChar (byte : UInt8)
  | uartTxChar
  | encryptEnable (key : Bytes)
  | encryptIvSet (iv : Bytes)
  | encryptCounterSet (counter : UInt64)
  | encryptDisable
deriving DecidableEq

/-- What a call does to the globals. -/
def DriverCall.run (A : Aead 16 13 4) (phy : Phy) : DriverCall → Except Fault Phy
  | .setchan chan accessAddr => .ok (blePhySetchan phy chan accessAddr)
  | .tx hdrByte payload => blePhyTx A phy hdrByte payload
  | .uartRxChar byte => blePhyUartRxChar phy byte
  | .uartTxChar => .ok (blePhyUartTxChar phy).2
  | .encryptEnable key => .ok (blePhyEncryptEnable phy key)
  | .encryptIvSet iv => .ok (blePhyEncryptIvSet phy iv)
  | .encryptCounterSet counter => .ok (blePhyEncryptCounterSet phy counter)
  | .encryptDisable => .ok (blePhyEncryptDisable phy)

/-- The condition of the debugging stop of `recv_packet`. -/
def Phy.stops (phy : Phy) : Bool := phy.lastMsgWasConn && decide (37 ≤ phy.phyChan)

/-- A packet that was given to `ble_ll_rx_start`. -/
structure Delivered where
  /-- It is the packet of the frame, as opposed to a simulated one. -/
  fromHost : Bool
  rxBuf : Bytes
  /-- The channel and the access address of the radio. -/
  phyChan : UInt8
  phyAccessAddress : UInt32
  /-- What `ble_ll_rx_end` was given, unless `ble_ll_rx_start` had rejected the packet. -/
  rxEnd : Option RxPdu
deriving Repr, DecidableEq

/-- How `recv_packet` handles a frame. -/
structure Handled where
  frame : Bytes
  /-- The globals when the frame was taken from the serial buffer. -/
  taken : Phy
  /-- The globals at the first pass of the inner loop. -/
  first : Phy
  /-- The packets given to the link layer, oldest first. -/
  delivered : List Delivered
  /-- For each pass of the inner loop that has ended, whether it saw `sent_non_empty_pkt`. -/
  passes : List Bool
deriving DecidableEq

/-- A frame that has just been taken. -/
def Handled.ofFrame (phy : Phy) (frame : Bytes) : Handled := ⟨frame, phy, phy, [], []⟩

/-- A pass has ended. -/
def Handled.endPass (h : Handled) (phy : Phy) : Handled :=
  { h with passes := h.passes ++ [phy.sentNonEmptyPkt] }

/-- The inner loop of `recv_packet`. -/
structure InnerLoop where
  locals : RecvLocals
  /-- In the debugging stop before the first pass, as opposed to the delays of a pass. -/
  atStop : Bool
  handled : Handled
deriving DecidableEq

/-- The driver and its task. -/
structure Pump where
  phy : Phy
  recvLoop : Option InnerLoop
  /-- The frames whose inner loop has ended, latest first. -/
  ended : List Handled
deriving DecidableEq

/-- The start of the program. -/
def Pump.start : Pump := ⟨blePhyInit, none, []⟩

/-- All frames that have been taken. -/
def Pump.handled (s : Pump) : List Handled := (s.recvLoop.map InnerLoop.handled).toList ++ s.ended

/-- What a pass of the inner loop gives to `ble_ll_rx_start`, which accepts it or not. -/
def deliver (phy : Phy) (l : RecvLocals) (rxStart : Bool) : Option Delivered :=
  (recvPacketPdu phy (recvPacketPrepare phy l)).map fun pdu =>
    { fromHost := decide (l.rxBuf ≠ [])
      rxBuf := (recvPacketPrepare phy l).rxBuf
      phyChan := phy.phyChan
      phyAccessAddress := phy.phyAccessAddress
      rxEnd := if rxStart then some pdu else none }

/-- A pass of the inner loop up to its delays. -/
def Pump.pass (s : Pump) (l : RecvLocals) (h : Handled) (rxStart : Bool) : Pump :=
  let handled := { h with delivered := h.delivered ++ (deliver s.phy l rxStart).toList }
  { s with
    recvLoop := some { locals := recvPacketPrepare s.phy l, atStop := false, handled := handled } }

/-- What can happen. -/
inductive PumpEvent
  /-- `recv_packet` takes a frame from the serial buffer. -/
  | recv (rxStart : Bool)
  /-- The inner loop of `recv_packet` goes on. -/
  | next (rxStart : Bool)
  | call (c : DriverCall)
deriving DecidableEq

/-- The task and all calls of the driver, in any order. A frame is taken when the inner loop is
over. -/
def pumpSystem (A : Aead 16 13 4) : System Pump PumpEvent Fault where
  enabled s
    | .recv _ => s.recvLoop = none
    | _ => True
  step s
    | .recv rxStart => do
      match ← recvPacketRead s.phy with
      | none => return s
      | some (rxBuf, phy) =>
        let first := recvPacketBegin A phy rxBuf
        let handled := Handled.ofFrame phy rxBuf
        if phy.stops then
          return { s with phy := first.2, recvLoop := some ⟨first.1, true, handled⟩ }
        else
          return { s with phy := first.2 }.pass first.1 handled rxStart
    | .next rxStart =>
      match s.recvLoop with
      | none => .ok s
      | some loop =>
        if loop.atStop then
          .ok (s.pass loop.locals { loop.handled with first := s.phy } rxStart)
        else
          let next := recvPacketNext s.phy loop.locals
          let handled := loop.handled.endPass s.phy
          match next.1 with
          | none => .ok { phy := next.2, recvLoop := none, ended := handled :: s.ended }
          | some l => .ok ({ s with phy := next.2 }.pass l handled rxStart)
    | .call c => do return { s with phy := ← c.run A s.phy }

instance (A : Aead 16 13 4) (s : Pump) (e : PumpEvent) : Decidable ((pumpSystem A).enabled s e) :=
  match e with
  | .recv _ => inferInstanceAs (Decidable (_ = _))
  | .next _ | .call _ => .isTrue trivial

/-! ## What is expected of the pump -/

/-- The access address of a packet. -/
def accessAddr (rxBuf : Bytes) : ℕ := leValue (rxBuf.take 4)

/-- The access address the radio is tuned to. -/
def Phy.tuned (phy : Phy) : ℕ :=
  if phy.phyChan < 37 then phy.phyAccessAddress.toNat else advAccessAddress

/-- Whether a frame was accepted. -/
def Handled.accepted (A : Aead 16 13 4) (h : Handled) : Bool :=
  recvPacketAccepts h.taken (recvPacketDecrypt A h.taken h.frame).2

/-- The CCM verification of a frame failed. -/
def Handled.MicFails (A : Aead 16 13 4) (h : Handled) : Prop :=
  recvPacketDecrypts h.taken h.frame ∧
    A.decryptTagged h.taken.encKey h.taken.rxNonce [h.frame.getD 4 0 &&& 0xE3] (h.frame.drop 6) = none

/-- A packet carries the access address the radio was tuned to when it was delivered. -/
def Delivered.OnTuned (d : Delivered) : Prop :=
  accessAddr d.rxBuf =
    if d.phyChan < 37 then d.phyAccessAddress.toNat else advAccessAddress

/-- A simulated empty data packet. The mask leaves out the sequence numbers. -/
structure Delivered.Simulated (d : Delivered) : Prop where
  onDataChannel : d.phyChan < 37
  rxBuf : ∃ hdrByte : UInt8, hdrByte &&& 0xF3 = 0x01 ∧
    d.rxBuf = leBytes 4 d.phyAccessAddress.toNat ++ [hdrByte, 0x00]

/-- The packet of a frame: decrypted, with the sequence numbers of the driver on a data channel. -/
structure Handled.IsHostPacket (A : Aead 16 13 4) (h : Handled) (d : Delivered) : Prop where
  fromHost : d.fromHost = true
  phyChan : d.phyChan = h.first.phyChan
  phyAccessAddress : d.phyAccessAddress = h.first.phyAccessAddress
  rxBuf : ∃ f : UInt8 → UInt8, (∀ hdrByte, f hdrByte &&& 0xF3 = hdrByte &&& 0xF3) ∧
    d.rxBuf = (recvPacketDecrypt A h.taken h.frame).2.modify 4 f
  micFailure : ∀ pdu, d.rxEnd = some pdu → (pdu.micFailure = true ↔ h.MicFails A)

/-! ## The globals -/

/-- The sequence numbers of the driver are bits. -/
def Phy.HasBits (phy : Phy) : Prop := ∃ sn nesn : Bool, phy.seqNum = (sn.toUInt8, nesn.toUInt8)

variable {A : Aead 16 13 4}

/-- Fixing the sequence numbers changes no other bits of the header. -/
theorem fixSeqNum_mask {phy : Phy} (h : phy.HasBits) (hdrByte : UInt8) :
    fixSeqNum phy hdrByte &&& 0xF3 = hdrByte &&& 0xF3 := by
  obtain ⟨sn, nesn, hseq⟩ := h
  exact (fixSeqNum_bits hseq hdrByte).2.2

/-- The calls of the driver keep the sequence numbers bits. -/
theorem DriverCall.hasBits {phy phy' : Phy} {c : DriverCall} (h : phy.HasBits)
    (hrun : c.run A phy = .ok phy') : phy'.HasBits := by
  cases c with
  | tx hdrByte payload =>
    have hseq := blePhyTx_seqNum hrun
    split at hseq
    · exact ⟨_, _, hseq⟩
    · rwa [Phy.HasBits, hseq]
  | uartRxChar byte => rwa [Phy.HasBits, blePhyUartRxChar_seqNum hrun]
  | uartTxChar =>
    obtain ⟨f, hphy⟩ := blePhyUartTxChar_snd phy
    obtain rfl := Except.ok.inj hrun
    rw [hphy]
    exact h
  | setchan _ _ | encryptEnable _ | encryptIvSet _ | encryptCounterSet _ | encryptDisable =>
    obtain rfl := Except.ok.inj hrun
    exact h

/-! ## What a pass delivers -/

/-- Preparing a packet keeps the locals of the loop. -/
theorem recvPacketPrepare_kept (phy : Phy) (l : RecvLocals) :
    (recvPacketPrepare phy l).cryptoOk = l.cryptoOk ∧ (recvPacketPrepare phy l).iPkt = l.iPkt := by
  simp only [recvPacketPrepare]
  split <;> split <;> exact ⟨rfl, rfl⟩

/-- The locals with which the inner loop goes on. -/
theorem recvPacketNext_some {phy : Phy} {l l' : RecvLocals}
    (h : (recvPacketNext phy l).1 = some l') :
    l'.rxBuf = [] ∧ l'.cryptoOk = l.cryptoOk ∧
      l'.iPkt = (if phy.sentNonEmptyPkt then 0 else l.iPkt) + 1 ∧
      (if phy.sentNonEmptyPkt then 0 else l.iPkt) + 1 < 6 := by
  obtain ⟨hlt, hl'⟩ := Option.ite_none_right_eq_some.mp h
  obtain rfl := Option.some.inj hl'
  exact ⟨rfl, rfl, rfl, hlt⟩

/-- The loop is left when the counter has reached six. -/
theorem recvPacketNext_none {phy : Phy} {l : RecvLocals} (h : (recvPacketNext phy l).1 = none) :
    ¬ (if phy.sentNonEmptyPkt then 0 else l.iPkt) + 1 < 6 := by
  intro hlt
  rw [recvPacketNext, if_pos hlt] at h
  cases h

/-- Without a packet at hand, a pass delivers an empty data packet on a data channel. -/
theorem deliver_empty {phy : Phy} {l : RecvLocals} (rxStart : Bool) (hl : l.rxBuf = []) :
    deliver phy l rxStart =
      if phy.phyChan < 37 then
        let rxBuf := leBytes 4 phy.phyAccessAddress.toNat ++ [fixSeqNum phy 0x01, 0x00]
        let pdu : RxPdu := ⟨rxBuf.drop 4, phy.phyChan, phy.llState, !l.cryptoOk⟩
        some ⟨false, rxBuf, phy.phyChan, phy.phyAccessAddress, if rxStart then some pdu else none⟩
      else none := by
  by_cases hchan : phy.phyChan < 37
  · have hhost : decide (l.rxBuf ≠ []) = false := by simp [hl]
    rw [deliver, recvPacketPrepare_empty hl hchan, hhost, recvPacketPdu, if_neg (by simp),
      if_pos hchan]
    rfl
  · have hprepare : (recvPacketPrepare phy l).rxBuf = [] := by
      rw [recvPacketPrepare_rxBuf fun h => hchan h.2, hl]
      exact ite_self []
    rw [deliver, recvPacketPdu, if_pos hprepare, if_neg hchan]
    rfl

/-- Such a packet is a simulated one. -/
theorem deliver_simulated {phy : Phy} {l : RecvLocals} {rxStart : Bool} {d : Delivered}
    (hbits : phy.HasBits) (hl : l.rxBuf = []) (hd : deliver phy l rxStart = some d) :
    d.fromHost = false ∧ d.Simulated ∧
      ∀ pdu, d.rxEnd = some pdu → pdu.micFailure = !l.cryptoOk := by
  rw [deliver_empty rxStart hl] at hd
  obtain ⟨hchan, hd⟩ := Option.ite_none_right_eq_some.mp hd
  obtain rfl := Option.some.inj hd
  refine ⟨rfl, ⟨hchan, _, fixSeqNum_mask hbits 0x01, rfl⟩, fun pdu hpdu => ?_⟩
  obtain rfl := Option.some.inj (Option.ite_none_right_eq_some.mp hpdu).2
  rfl

/-- A packet at hand is delivered, with sequence numbers of the driver on a data channel. -/
theorem deliver_frame {phy : Phy} {l : RecvLocals} (rxStart : Bool) (hbits : phy.HasBits)
    (hl : l.rxBuf ≠ []) :
    ∃ d, deliver phy l rxStart = some d ∧ d.fromHost = true ∧ d.phyChan = phy.phyChan ∧
      d.phyAccessAddress = phy.phyAccessAddress ∧
      (∃ f : UInt8 → UInt8, (∀ hdrByte, f hdrByte &&& 0xF3 = hdrByte &&& 0xF3) ∧
        d.rxBuf = l.rxBuf.modify 4 f) ∧
      ∀ pdu, d.rxEnd = some pdu → pdu.micFailure = !l.cryptoOk := by
  obtain ⟨f, hf, hprepare⟩ : ∃ f : UInt8 → UInt8, (∀ hdrByte, f hdrByte &&& 0xF3 = hdrByte &&& 0xF3) ∧
      recvPacketPrepare phy l = { l with rxBuf := l.rxBuf.modify 4 f } := by
    simp only [recvPacketPrepare, hl, false_and, if_false]
    split
    · exact ⟨id, fun _ => rfl, by rw [List.modify_id]⟩
    · exact ⟨fixSeqNum phy, fixSeqNum_mask hbits, rfl⟩
  have hne : l.rxBuf.modify 4 f ≠ [] := by
    intro h
    have hlen := congrArg List.length h
    rw [List.length_modify] at hlen
    exact hl (List.eq_nil_of_length_eq_zero hlen)
  refine ⟨_, by rw [deliver, hprepare, recvPacketPdu, if_neg hne]; rfl, ?_⟩
  refine ⟨by simp [hl], rfl, rfl, ⟨f, hf, rfl⟩, fun pdu hpdu => ?_⟩
  obtain rfl := Option.some.inj (Option.ite_none_right_eq_some.mp hpdu).2
  rfl

/-! ## What holds of a frame -/

/-- `crypto_ok` is cleared exactly by a decryption whose verification fails. -/
theorem recvPacketDecrypt_fst (phy : Phy) (rxBuf : Bytes) :
    (recvPacketDecrypt A phy rxBuf).1 = false ↔ recvPacketDecrypts phy rxBuf ∧
      A.decryptTagged phy.encKey phy.rxNonce [rxBuf.getD 4 0 &&& 0xE3] (rxBuf.drop 6) = none := by
  rw [recvPacketDecrypt]
  split
  case isTrue h =>
    simp only [h, true_and, tcCcmDecryptionVerification]
    split
    case h_1 plain hplain => rw [hplain]; simp
    case h_2 hnone => rw [hnone]; simp
  case isFalse h => simp [h]

/-- The decryption keeps the access address. -/
theorem recvPacketDecrypt_accessAddr (phy : Phy) (rxBuf : Bytes) :
    accessAddr (recvPacketDecrypt A phy rxBuf).2 = accessAddr rxBuf := by
  rw [recvPacketDecrypt]
  split
  case isTrue h =>
    have htake : ((rxBuf.take 5) ++ ([rxBuf.getD 5 0 - 4] ++ (tcCcmDecryptionVerification A phy.encKey
        phy.rxNonce [rxBuf.getD 4 0 &&& 0xE3] (rxBuf.drop 6)).2)).take 4 = rxBuf.take 4 := by
      have hlong : 10 < rxBuf.length := h.2.1
      rw [List.take_append_of_le_length (by rw [List.length_take]; omega), List.take_take]
      rfl
    dsimp only
    rw [accessAddr, accessAddr, List.append_assoc, htake]
  case isFalse => rfl

/-- A packet is still one after the decryption. -/
theorem recvPacketDecrypt_ne_nil {phy : Phy} {rxBuf : Bytes} (h : rxBuf ≠ []) :
    (recvPacketDecrypt A phy rxBuf).2 ≠ [] := by
  rw [recvPacketDecrypt]
  split
  · simp
  · exact h

/-- An accepted packet is for the kind of channel the radio is tuned to. -/
theorem recvPacketAccepts_iff (phy : Phy) (rxBuf : Bytes) :
    recvPacketAccepts phy rxBuf = true ↔
      (phy.phyChan < 37 ↔ accessAddr rxBuf ≠ advAccessAddress) := by
  have hadv : isAdvChanPkt rxBuf = true ↔ accessAddr rxBuf = advAccessAddress := beq_iff_eq
  rw [recvPacketAccepts]
  by_cases hchan : phy.phyChan < 37
  · have hnot : ¬ 37 ≤ phy.phyChan := UInt8.not_le.mpr hchan
    simp [hchan, hnot, ← hadv]
  · have hle : 37 ≤ phy.phyChan := UInt8.not_lt.mp hchan
    simp [hchan, hle, hadv]

/-- A packet delivered on behalf of a frame that is not its own. -/
structure Handled.IsSimulated (A : Aead 16 13 4) (h : Handled) (d : Delivered) : Prop where
  fromHost : d.fromHost = false
  simulated : d.Simulated
  micFailure : ∀ pdu, d.rxEnd = some pdu →
    (pdu.micFailure = true ↔ h.accepted A = true ∧ h.MicFails A)

/-- The packet of an accepted frame is delivered first and once, and the others are simulated. -/
def Handled.Pumped (A : Aead 16 13 4) (h : Handled) : Prop :=
  ∃ host sims, h.delivered = host ++ sims ∧
    (h.accepted A = true → ∃ d, host = [d] ∧ h.IsHostPacket A d) ∧
    (h.accepted A = false → host = []) ∧ ∀ d ∈ sims, h.IsSimulated A d

/-! ## The loop counter -/

/-- What the loop counter says about the passes that have ended. -/
structure Counts (iPkt : ℕ) (passes : List Bool) : Prop where
  counter_le : iPkt ≤ 5
  length_le : passes.length ≤ iPkt + 5 * passes.count true
  last : (true ∉ passes ∧ passes.length = iPkt) ∨
    ∃ before k, passes = before ++ true :: List.replicate k false ∧ iPkt = k + 1

/-- The passes of a loop that has ended: six, or five after the last one that saw the flag. -/
structure Complete (passes : List Bool) : Prop where
  length_le : passes.length ≤ 6 + 5 * passes.count true
  last : (true ∉ passes ∧ passes.length = 6) ∨
    ∃ before, passes = before ++ true :: List.replicate 5 false

/-- Before the first pass, nothing has been counted. -/
theorem counts_start : Counts 0 [] := ⟨by omega, Nat.le_refl 0, .inl ⟨List.not_mem_nil, rfl⟩⟩

/-- One more pass: the counter restarts when it saw the flag. -/
theorem Counts.next {iPkt : ℕ} {passes : List Bool} (h : Counts iPkt passes) (flag : Bool) :
    ((if flag then 0 else iPkt) + 1 < 6 →
      Counts ((if flag then 0 else iPkt) + 1) (passes ++ [flag])) ∧
    (¬ (if flag then 0 else iPkt) + 1 < 6 → Complete (passes ++ [flag])) := by
  obtain ⟨hle, hlength, hlast⟩ := h
  cases flag with
  | true =>
    refine ⟨fun _ => ⟨by simp, ?_, .inr ⟨passes, 0, rfl, rfl⟩⟩, fun h => absurd (by simp) h⟩
    simp only [List.length_append, List.length_singleton, List.count_append,
      List.count_singleton_self, if_true]
    omega
  | false =>
    have hlen : (passes ++ [false]).length ≤ iPkt + 1 + 5 * (passes ++ [false]).count true := by
      simp only [List.length_append, List.length_singleton, List.count_append]
      omega
    have hlast' : (true ∉ passes ++ [false] ∧ (passes ++ [false]).length = iPkt + 1) ∨
        ∃ before k, passes ++ [false] = before ++ true :: List.replicate k false ∧
          iPkt + 1 = k + 1 := by
      refine hlast.imp (fun ⟨hmem, hlen⟩ => ⟨by simpa using hmem, by simp [hlen]⟩) ?_
      rintro ⟨before, k, rfl, rfl⟩
      exact ⟨before, k + 1, by simp [List.replicate_succ'], rfl⟩
    refine ⟨fun h => ⟨Nat.le_of_lt_succ h, hlen, hlast'⟩, fun h => ?_⟩
    -- the loop has ended, so the counter was at five
    have hfive : iPkt = 5 := by simp at h; omega
    subst hfive
    refine ⟨hlen, hlast'.imp_right ?_⟩
    rintro ⟨before, k, hpasses, hk⟩
    obtain rfl : k = 5 := by omega
    exact ⟨before, hpasses⟩

/-! ## Passes -/

/-- The locals of `recv_packet` know whether the frame failed its verification. -/
def Handled.CryptoOk (A : Aead 16 13 4) (h : Handled) (l : RecvLocals) : Prop :=
  l.cryptoOk = false ↔ h.accepted A = true ∧ h.MicFails A

/-- The locals with which `recv_packet` reaches its inner loop. -/
structure Handled.Ready (A : Aead 16 13 4) (h : Handled) (l : RecvLocals) : Prop where
  frame : h.frame ≠ []
  rxBuf : l.rxBuf = if h.accepted A then (recvPacketDecrypt A h.taken h.frame).2 else []
  cryptoOk : h.CryptoOk A l
  delivered : h.delivered = []

/-- Waiting before the first pass changes nothing but the globals that this pass will meet. -/
theorem Handled.Ready.withFirst {h : Handled} {l : RecvLocals} (hready : h.Ready A l) (phy : Phy) :
    ({ h with first := phy } : Handled).Ready A l :=
  ⟨hready.frame, hready.rxBuf, hready.cryptoOk, hready.delivered⟩

/-- Where a frame has been taken from the buffer, its first pass may start. -/
theorem recvPacketBegin_ready {phy : Phy} {frame : Bytes} (hframe : frame ≠ []) :
    (Handled.ofFrame phy frame).Ready A (recvPacketBegin A phy frame).1 := by
  refine ⟨hframe, rfl, ?_, rfl⟩
  show (if recvPacketAccepts phy (recvPacketDecrypt A phy frame).2 then
    (recvPacketDecrypt A phy frame).1 else true) = false ↔
      recvPacketAccepts phy (recvPacketDecrypt A phy frame).2 = true ∧ _
  have hfails : (Handled.ofFrame phy frame).MicFails A ↔ (recvPacketDecrypt A phy frame).1 = false :=
    (recvPacketDecrypt_fst phy frame).symm
  rw [hfails]
  cases recvPacketAccepts phy (recvPacketDecrypt A phy frame).2 <;> simp

/-- What a pass adds without a packet at hand. -/
theorem deliver_isSimulated {phy : Phy} {l : RecvLocals} {h : Handled} {rxStart : Bool}
    (hbits : phy.HasBits) (hcrypto : h.CryptoOk A l) (hl : l.rxBuf = []) :
    ∀ d ∈ (deliver phy l rxStart).toList, h.IsSimulated A d := by
  intro d hd
  obtain ⟨hhost, hsim, hmic⟩ := deliver_simulated hbits hl (Option.mem_toList.mp hd)
  refine ⟨hhost, hsim, fun pdu hpdu => ?_⟩
  rw [hmic pdu hpdu, Bool.not_eq_true']
  exact hcrypto

/-- The first pass delivers the packet of an accepted frame. -/
theorem Handled.Ready.pumped {s : Pump} {l : RecvLocals} {h : Handled} (hready : h.Ready A l)
    (hbits : s.phy.HasBits) (hchan : h.first.phyChan = s.phy.phyChan)
    (haddr : h.first.phyAccessAddress = s.phy.phyAccessAddress) (rxStart : Bool) :
    ∀ loop ∈ (s.pass l h rxStart).recvLoop, loop.handled.Pumped A := by
  rintro loop ⟨⟩
  obtain ⟨hframe, hrxBuf, hcrypto, hdelivered⟩ := hready
  cases haccept : h.accepted A with
  | false =>
    rw [haccept] at hrxBuf
    -- a rejected frame leaves no packet, so this pass can only simulate one
    refine ⟨[], (deliver s.phy l rxStart).toList, by rw [hdelivered], fun h => ?_, fun _ => rfl, ?_⟩
    · exact absurd (haccept.symm.trans h) Bool.false_ne_true
    · intro d hd
      obtain ⟨hhost, hsim, hmic⟩ := deliver_isSimulated hbits hcrypto hrxBuf d hd
      exact ⟨hhost, hsim, hmic⟩
  | true =>
    rw [haccept, if_pos rfl] at hrxBuf
    -- the packet of an accepted frame comes first
    have hne : l.rxBuf ≠ [] := hrxBuf ▸ recvPacketDecrypt_ne_nil hframe
    obtain ⟨d, hd, hhost, hdchan, hdaddr, hf, hmic⟩ := deliver_frame rxStart hbits hne
    refine ⟨[d], [], by rw [hdelivered, hd]; rfl, fun _ => ⟨d, rfl, ?_⟩, fun h => ?_, nofun⟩
    · refine ⟨hhost, hdchan.trans hchan.symm, hdaddr.trans haddr.symm, hrxBuf ▸ hf, ?_⟩
      intro pdu hpdu
      rw [hmic pdu hpdu, Bool.not_eq_true']
      exact hcrypto.trans (and_iff_right haccept)
    · exact absurd (haccept.symm.trans h) (Bool.false_ne_true ∘ Eq.symm)

/-- A later pass adds simulated packets only. -/
theorem Handled.Pumped.pass {s : Pump} {l : RecvLocals} {h : Handled} (hpumped : h.Pumped A)
    (hbits : s.phy.HasBits) (hcrypto : h.CryptoOk A l) (hl : l.rxBuf = []) (rxStart : Bool) :
    ∀ loop ∈ (s.pass l h rxStart).recvLoop, loop.handled.Pumped A := by
  rintro loop ⟨⟩
  obtain ⟨host, sims, hdelivered, haccepted, hrejected, hsims⟩ := hpumped
  refine ⟨host, sims ++ (deliver s.phy l rxStart).toList, ?_, fun h => ?_, hrejected, ?_⟩
  · show h.delivered ++ _ = _
    rw [hdelivered, List.append_assoc]
  · obtain ⟨d, hhost, hd⟩ := haccepted h
    exact ⟨d, hhost, hd.fromHost, hd.phyChan, hd.phyAccessAddress, hd.rxBuf, hd.micFailure⟩
  · intro d hd
    rcases List.mem_append.mp hd with hd | hd
    · exact ⟨(hsims d hd).fromHost, (hsims d hd).simulated, (hsims d hd).micFailure⟩
    · obtain ⟨hhost, hsim, hmic⟩ := deliver_isSimulated hbits hcrypto hl d hd
      exact ⟨hhost, hsim, hmic⟩

/-- The end of a pass does not change what has been delivered. -/
theorem Handled.Pumped.endPass {h : Handled} (hpumped : h.Pumped A) (phy : Phy) :
    (h.endPass phy).Pumped A := by
  obtain ⟨host, sims, hdelivered, haccepted, hrejected, hsims⟩ := hpumped
  refine ⟨host, sims, hdelivered, fun h => ?_, hrejected, fun d hd => ?_⟩
  · obtain ⟨d, hhost, hd⟩ := haccepted h
    exact ⟨d, hhost, hd.fromHost, hd.phyChan, hd.phyAccessAddress, hd.rxBuf, hd.micFailure⟩
  · exact ⟨(hsims d hd).fromHost, (hsims d hd).simulated, (hsims d hd).micFailure⟩

/-! ## What a step can do -/

/-- The kinds of steps, with the state after the step. -/
inductive PumpStep (A : Aead 16 13 4) (s : Pump) : PumpEvent → Pump → Prop
  /-- There is nothing to do. -/
  | idle {e : PumpEvent} : (∀ c, e ≠ .call c) → (∀ rxStart, e = .next rxStart → s.recvLoop = none) →
      PumpStep A s e s
  /-- A frame is taken, and the task stops. -/
  | stop {rxStart : Bool} {frame : Bytes} {phy : Phy} :
      frame ≠ [] → (∃ f, phy = { s.phy with serialRxBuf := f }) → phy.stops = true →
      PumpStep A s (.recv rxStart)
        { s with
          phy := (recvPacketBegin A phy frame).2
          recvLoop := some ⟨(recvPacketBegin A phy frame).1, true, .ofFrame phy frame⟩ }
  /-- A frame is taken, and the first pass is made. -/
  | first {rxStart : Bool} {frame : Bytes} {phy : Phy} :
      frame ≠ [] → (∃ f, phy = { s.phy with serialRxBuf := f }) →
      PumpStep A s (.recv rxStart)
        ({ s with phy := (recvPacketBegin A phy frame).2 }.pass
          (recvPacketBegin A phy frame).1 (.ofFrame phy frame) rxStart)
  /-- The first pass is made after a stop. -/
  | leave {rxStart : Bool} {loop : InnerLoop} : loop ∈ s.recvLoop → loop.atStop = true →
      PumpStep A s (.next rxStart) (s.pass loop.locals { loop.handled with first := s.phy } rxStart)
  /-- A pass ends, and another one is made. -/
  | again {rxStart : Bool} {loop : InnerLoop} {l : RecvLocals} :
      loop ∈ s.recvLoop → loop.atStop = false → (recvPacketNext s.phy loop.locals).1 = some l →
      PumpStep A s (.next rxStart)
        ({ s with phy := (recvPacketNext s.phy loop.locals).2 }.pass l (loop.handled.endPass s.phy)
          rxStart)
  /-- The last pass ends. -/
  | finish {rxStart : Bool} {loop : InnerLoop} :
      loop ∈ s.recvLoop → loop.atStop = false → (recvPacketNext s.phy loop.locals).1 = none →
      PumpStep A s (.next rxStart)
        { phy := (recvPacketNext s.phy loop.locals).2, recvLoop := none,
          ended := loop.handled.endPass s.phy :: s.ended }
  | call {c : DriverCall} {phy : Phy} : c.run A s.phy = .ok phy →
      PumpStep A s (.call c) { s with phy := phy }

/-- **Every step is of one of the kinds.** -/
theorem pumpStep_cases {s t : Pump} {e : PumpEvent} (hstep : (pumpSystem A).step s e = .ok t) :
    PumpStep A s e t := by
  cases e with
  | recv rxStart =>
    change (recvPacketRead s.phy >>= _) = _ at hstep
    cases hread : recvPacketRead s.phy with
    | error fault =>
      rw [hread] at hstep
      cases hstep
    | ok taken =>
      rw [hread] at hstep
      -- without a complete packet in the buffer the task waits
      match taken with
      | none =>
        obtain rfl := Except.ok.inj hstep
        exact .idle nofun nofun
      | some (frame, phy) =>
        obtain ⟨hpos, -, hphy⟩ := recvPacketRead_fits hread
        have hframe := List.ne_nil_of_length_pos hpos
        change (if Phy.stops _ = true then Except.ok _ else Except.ok _) = _ at hstep
        split at hstep
        case isTrue hstops =>
          obtain rfl := Except.ok.inj hstep
          exact .stop hframe hphy hstops
        case isFalse =>
          obtain rfl := Except.ok.inj hstep
          exact .first hframe hphy
  | next rxStart =>
    change (match s.recvLoop with
      | none => _
      | some loop => _) = _ at hstep
    split at hstep
    case h_1 hloop =>
      obtain rfl := Except.ok.inj hstep
      exact .idle nofun fun _ _ => hloop
    case h_2 loop hloop =>
      split at hstep
      case isTrue hstop =>
        obtain rfl := Except.ok.inj hstep
        exact .leave hloop hstop
      case isFalse hdelays =>
        have hdelays : loop.atStop = false := Bool.eq_false_of_not_eq_true hdelays
        dsimp only at hstep
        split at hstep
        case h_1 hnone =>
          obtain rfl := Except.ok.inj hstep
          exact .finish hloop hdelays hnone
        case h_2 l hl =>
          obtain rfl := Except.ok.inj hstep
          exact .again hloop hdelays hl
  | call c =>
    change (c.run A s.phy >>= _) = _ at hstep
    cases hrun : c.run A s.phy with
    | error fault =>
      rw [hrun] at hstep
      cases hstep
    | ok phy =>
      rw [hrun] at hstep
      obtain rfl := Except.ok.inj hstep
      exact .call hrun

/-! ## Runs -/

/-- What holds of the inner loop. -/
structure InnerLoop.Inv (A : Aead 16 13 4) (loop : InnerLoop) : Prop where
  cryptoOk : loop.handled.CryptoOk A loop.locals
  counts : Counts loop.locals.iPkt loop.handled.passes
  atStop : loop.atStop = true → loop.handled.Ready A loop.locals ∧
    loop.handled.first = loop.handled.taken ∧ loop.handled.taken.stops = true
  pumped : loop.atStop = false → loop.handled.Pumped A

/-- What holds in every state of a run. -/
structure Pump.Inv (A : Aead 16 13 4) (s : Pump) : Prop where
  bits : s.phy.HasBits
  loop : ∀ loop ∈ s.recvLoop, loop.Inv A
  ended : ∀ h ∈ s.ended, h.Pumped A ∧ Complete h.passes

/-- The invariant holds at the start. -/
theorem Pump.inv_start : Pump.start.Inv A where
  bits := ⟨false, false, rfl⟩
  loop _ h := absurd h (Option.not_mem_none _)
  ended _ h := absurd h List.not_mem_nil

/-- The loop after a pass. -/
theorem Pump.pass_loop (s : Pump) (l : RecvLocals) (h : Handled) (rxStart : Bool) {loop : InnerLoop}
    (hloop : loop ∈ (s.pass l h rxStart).recvLoop) (hcrypto : h.CryptoOk A l)
    (hcounts : Counts l.iPkt h.passes) (hpumped : loop.handled.Pumped A) : loop.Inv A := by
  obtain rfl := Option.mem_some.mp hloop
  obtain ⟨hok, hi⟩ := recvPacketPrepare_kept s.phy l
  refine ⟨?_, ?_, nofun, fun _ => hpumped⟩
  · show (recvPacketPrepare s.phy l).cryptoOk = false ↔ _
    rw [hok]
    exact hcrypto
  · show Counts (recvPacketPrepare s.phy l).iPkt _
    rw [hi]
    exact hcounts

/-- **Every step keeps the invariant.** -/
theorem Pump.Inv.step {s t : Pump} {e : PumpEvent} (h : s.Inv A)
    (hstep : (pumpSystem A).step s e = .ok t) : t.Inv A := by
  cases pumpStep_cases hstep with
  | idle => exact h
  | @stop _ _ phy hframe hphy hstops =>
    have hready := @recvPacketBegin_ready A phy _ hframe
    obtain ⟨f, rfl⟩ := hphy
    refine ⟨h.bits, ?_, h.ended⟩
    rintro loop ⟨⟩
    exact ⟨hready.cryptoOk, counts_start, fun _ => ⟨hready, rfl, hstops⟩, nofun⟩
  | @first _ _ phy hframe hphy =>
    have hready := @recvPacketBegin_ready A phy _ hframe
    obtain ⟨f, rfl⟩ := hphy
    refine ⟨h.bits, fun loop hloop => ?_, h.ended⟩
    exact Pump.pass_loop _ _ _ _ hloop hready.cryptoOk counts_start
      (hready.pumped h.bits rfl rfl _ loop hloop)
  | @leave _ loop hloop hstop =>
    have hinv := h.loop loop hloop
    have hready := (hinv.atStop hstop).1.withFirst s.phy
    refine ⟨h.bits, fun loop' hloop' => ?_, h.ended⟩
    exact Pump.pass_loop _ _ _ _ hloop' hready.cryptoOk hinv.counts
      (hready.pumped h.bits rfl rfl _ loop' hloop')
  | @again rxStart loop l hloop hdelays hl =>
    have hinv := h.loop loop hloop
    have hpumped := (hinv.pumped hdelays).endPass s.phy
    obtain ⟨hrxBuf, hok, hi, hlt⟩ := recvPacketNext_some hl
    -- the result of the verification stays with the locals
    have hcrypto : (loop.handled.endPass s.phy).CryptoOk A l := by
      rw [Handled.CryptoOk, hok]
      exact hinv.cryptoOk
    refine ⟨h.bits, fun loop' hloop' => ?_, h.ended⟩
    refine Pump.pass_loop _ l _ rxStart hloop' hcrypto ?_ ?_
    · rw [hi]
      exact (hinv.counts.next s.phy.sentNonEmptyPkt).1 hlt
    · exact hpumped.pass (s := { s with phy := (recvPacketNext s.phy loop.locals).2 }) h.bits
        hcrypto hrxBuf rxStart loop' hloop'
  | @finish _ loop hloop hdelays hnone =>
    have hinv := h.loop loop hloop
    have hpumped := (hinv.pumped hdelays).endPass s.phy
    refine ⟨h.bits, fun loop' hloop' => absurd hloop' (Option.not_mem_none _), ?_⟩
    rintro handled (- | ⟨-, hmem⟩)
    · exact ⟨hpumped, (hinv.counts.next _).2 (recvPacketNext_none hnone)⟩
    · exact h.ended handled hmem
  | call hrun => exact ⟨DriverCall.hasBits h.bits hrun, h.loop, h.ended⟩

/-- It holds in every run. -/
theorem Pump.inv_of_run {es : List PumpEvent} {s : Pump} (h : (pumpSystem A).Run .start es s) :
    s.Inv A :=
  h.invariant (fun _ _ _ hinv _ hstep => hinv.step hstep) Pump.inv_start

end BleFuzzer.Bridge

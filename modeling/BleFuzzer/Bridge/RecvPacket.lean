import BleFuzzer.Bridge.Tx
import BleFuzzer.Common.AirPacket
import BleFuzzer.Bridge.Uart

/-!
# Reception

The body of the loop of `recv_packet` after its reads: decryption, the decision to accept, and the
inner loop that hands the packet, and simulated empty packets after it, to the link layer. The inner
loop is cut where the link layer's other tasks can run: `recvPacketPrepare` ends at `ble_ll_rx_end`,
and `recvPacketNext` continues after the delays.

`rx_buf` is represented by its first `rx_buf_len` bytes. A frame of fewer than six bytes would make
the source read stale bytes of the array, which are zero here.
-/

namespace BleFuzzer.Bridge

/-- The access address of the advertising channels. -/
def advAccessAddress : ℕ := 0x8e89bed6

/-- The nonce of a received packet, with the direction bit set. -/
def Phy.rxNonce (phy : Phy) : Bytes := phy.nonceCounter.modify 4 (· ||| 0x80) ++ phy.encIv

/-- `tc_ccm_decryption_verification`: whether it succeeds, and the output buffer, which is erased
when it does not. -/
def tcCcmDecryptionVerification (A : Aead 16 13 4) (key nonce aad cipher : Bytes) : Bool × Bytes :=
  match A.decryptTagged key nonce aad cipher with
  | some plain => (true, plain)
  | none => (false, List.replicate (cipher.length - 4) 0)

/-- The locals of `recv_packet` while it handles a packet. -/
structure RecvLocals where
  /-- The bytes `rx_buf[0 .. rx_buf_len)`. -/
  rxBuf : Bytes
  cryptoOk : Bool
  isAdvChanPkt : Bool
  iPkt : ℕ
deriving Repr, DecidableEq

/-- The guard of the decryption of `recv_packet`. -/
def recvPacketDecrypts (phy : Phy) (rxBuf : Bytes) : Prop :=
  phy.encEnabled ∧ 10 < rxBuf.length ∧ 0 < rxBuf.getD 5 0

instance (phy : Phy) (rxBuf : Bytes) : Decidable (recvPacketDecrypts phy rxBuf) :=
  inferInstanceAs (Decidable (_ ∧ _ ∧ _))

/-- The decryption of `recv_packet`: `crypto_ok` and the packet. -/
def recvPacketDecrypt (A : Aead 16 13 4) (phy : Phy) (rxBuf : Bytes) : Bool × Bytes :=
  if recvPacketDecrypts phy rxBuf then
    let aad := rxBuf.getD 4 0 &&& 0xE3
    let ccm := tcCcmDecryptionVerification A phy.encKey phy.rxNonce [aad] (rxBuf.drop 6)
    -- the tag is removed from the ll payload length
    (ccm.1, rxBuf.take 5 ++ [rxBuf.getD 5 0 - 4] ++ ccm.2)
  else
    (true, rxBuf)

/-- `is_adv_chan_pkt`. -/
def isAdvChanPkt (rxBuf : Bytes) : Bool := leValue (rxBuf.take 4) == advAccessAddress

/-- Whether `recv_packet` accepts a packet on the channel the radio is tuned to. -/
def recvPacketAccepts (phy : Phy) (rxBuf : Bytes) : Bool :=
  (decide (37 ≤ phy.phyChan) && isAdvChanPkt rxBuf) ||
    (decide (phy.phyChan < 37) && !isAdvChanPkt rxBuf)

/-- From the reads to the inner loop of `recv_packet`. A packet that is not accepted is dropped. The
check of `last_msg_was_conn` only prints and delays the task, so it has no counterpart here. -/
def recvPacketBegin (A : Aead 16 13 4) (phy : Phy) (rxBuf : Bytes) : RecvLocals × Phy :=
  let crypto := recvPacketDecrypt A phy rxBuf
  let accept := recvPacketAccepts phy crypto.2
  let locals : RecvLocals :=
    { rxBuf := if accept then crypto.2 else []
      cryptoOk := if accept then crypto.1 else true
      isAdvChanPkt := isAdvChanPkt crypto.2
      iPkt := 0 }
  -- the low four bits of the header are the type of an advertising PDU, 5 for CONNECT_IND
  (locals, { phy with
    lastMsgWasConn :=
      isAdvChanPkt crypto.2 && decide (crypto.2.getD 4 0 &&& 0x0F = (5 : UInt8)) && accept })

/-- An empty data packet, as the inner loop of `recv_packet` simulates it. -/
def emptyDataPacket (phy : Phy) : Bytes := leBytes 4 phy.phyAccessAddress.toNat ++ [0x01, 0x00]

/-- The header byte with the sequence numbers of the driver. -/
def fixSeqNum (phy : Phy) (hdrByte : UInt8) : UInt8 :=
  (hdrByte &&& (0xf3 : UInt8)) ||| (phy.rxSn <<< (3 : UInt8)) ||| (phy.rxNesn <<< (2 : UInt8))

/-- The inner loop of `recv_packet` up to `ble_ll_rx_start`: the packet at hand, or else a simulated
empty one on a data channel, with its sequence numbers fixed. -/
def recvPacketPrepare (phy : Phy) (l : RecvLocals) : RecvLocals :=
  let l :=
    if l.rxBuf = [] ∧ phy.phyChan < 37 then
      { l with rxBuf := emptyDataPacket phy, isAdvChanPkt := false }
    else l
  if l.isAdvChanPkt then l else { l with rxBuf := l.rxBuf.modify 4 (fixSeqNum phy) }

/-- What `ble_ll_rx_end` is given: the PDU without its access address, and the header flags. -/
structure RxPdu where
  pdu : Bytes
  channel : UInt8
  llState : LlState
  micFailure : Bool
deriving Repr, DecidableEq

/-- The PDU handed to the link layer from prepared locals, if there is one. -/
def recvPacketPdu (phy : Phy) (l : RecvLocals) : Option RxPdu :=
  if l.rxBuf = [] then
    none
  else
    some { pdu := l.rxBuf.drop 4, channel := phy.phyChan, llState := phy.llState,
           micFailure := !l.cryptoOk }

/-- The end of a pass of the inner loop, after the delays: `none` when the loop ends. The loop
counter restarts when a non-empty packet was sent in the meantime. -/
def recvPacketNext (phy : Phy) (l : RecvLocals) : Option RecvLocals × Phy :=
  let iPkt := if phy.sentNonEmptyPkt then 0 else l.iPkt
  (if iPkt + 1 < 6 then some { l with rxBuf := [], iPkt := iPkt + 1 } else none,
    { phy with sentNonEmptyPkt := false })

/-! ## A pass of the inner loop -/

/-- Without a packet on a data channel, an empty one is simulated. -/
theorem recvPacketPrepare_empty {phy : Phy} {l : RecvLocals} (hl : l.rxBuf = [])
    (hchan : phy.phyChan < 37) :
    recvPacketPrepare phy l = { l with
      rxBuf := leBytes 4 phy.phyAccessAddress.toNat ++ [fixSeqNum phy 0x01, 0x00],
      isAdvChanPkt := false } := by
  have hrxBuf : (emptyDataPacket phy).modify 4 (fixSeqNum phy) =
      leBytes 4 phy.phyAccessAddress.toNat ++ [fixSeqNum phy 0x01, 0x00] := rfl
  simp only [recvPacketPrepare, hl, hchan, and_self, if_true, Bool.false_eq_true, if_false, hrxBuf]

/-- Otherwise the packet at hand is taken. -/
theorem recvPacketPrepare_rxBuf {phy : Phy} {l : RecvLocals}
    (h : ¬ (l.rxBuf = [] ∧ phy.phyChan < 37)) :
    (recvPacketPrepare phy l).rxBuf =
      if l.isAdvChanPkt then l.rxBuf else l.rxBuf.modify 4 (fixSeqNum phy) := by
  simp only [recvPacketPrepare, if_neg h]
  split <;> rfl

/-! ## Decryption -/

/-- The nonce has the length that CCM wants. -/
theorem rxNonce_length {phy : Phy} (hiv : phy.encIv.length = 8) : phy.rxNonce.length = 13 := by
  simp [Phy.rxNonce, hiv]

/-- The channel kind is read off the access address. -/
theorem isAdvChanPkt_airPacket (accessAddress : UInt32) (hdrByte length : UInt8)
    (payload : Bytes) : isAdvChanPkt (airPacket accessAddress hdrByte length payload) =
      decide (accessAddress.toNat = advAccessAddress) := by
  have hlt : accessAddress.toNat < 256 ^ 4 := accessAddress.toNat_lt
  rw [isAdvChanPkt, airPacket_take_four, leValue_leBytes_of_lt hlt]
  rfl

/-- The decryption guard, from the length byte and the payload. -/
theorem recvPacketDecrypts_airPacket (phy : Phy) (accessAddress : UInt32)
    (hdrByte length : UInt8) (payload : Bytes) :
    recvPacketDecrypts phy (airPacket accessAddress hdrByte length payload) ↔
      phy.encEnabled ∧ 4 < payload.length ∧ 0 < length := by
  rw [recvPacketDecrypts, airPacket_length, airPacket_getD_five,
    show 10 < payload.length + 6 ↔ 4 < payload.length by omega]

/-- `recv_packet` leaves a packet alone when its guard does not hold. -/
theorem recvPacketDecrypt_plain (A : Aead 16 13 4) {phy : Phy} {rxBuf : Bytes}
    (h : ¬ recvPacketDecrypts phy rxBuf) : recvPacketDecrypt A phy rxBuf = (true, rxBuf) :=
  if_neg h

/-- When the guard holds, the payload is replaced by what the CCM call leaves. -/
theorem recvPacketDecrypt_cipher (A : Aead 16 13 4) {phy : Phy} (accessAddress : UInt32)
    (hdrByte length : UInt8) (payload : Bytes)
    (h : recvPacketDecrypts phy (airPacket accessAddress hdrByte length payload)) :
    recvPacketDecrypt A phy (airPacket accessAddress hdrByte length payload) =
      let ccm := tcCcmDecryptionVerification A phy.encKey phy.rxNonce [hdrByte &&& 0xE3] payload
      (ccm.1, airPacket accessAddress hdrByte (length - 4) ccm.2) := by
  rw [recvPacketDecrypt, if_pos h]
  simp only [airPacket_getD_four, airPacket_getD_five, airPacket_take_five, airPacket_drop_six]
  simp [airPacket]

end BleFuzzer.Bridge

import BleFuzzer.Serial.HostToBridge
import BleFuzzer.Bridge.RecvPacket

/-!
# The arrays of `recv_packet`

`recv_packet` on its arrays `rx_buf` and `plain`, where `BleFuzzer.Bridge.RecvPacket` handles the
bytes up to `rx_buf_len`. Every write is checked against the array, and so are the subtractions that
must not wrap. When no check fails, the arrays hold what the functions over bytes compute
(`recvPacketHead_refines`, `recvPacketPass_refines`). `recvPacket_inBounds_iff` says for which
packets no check fails.
-/

namespace BleFuzzer.Serial

open Bridge Driver

/-! ## The checked functions -/

/-- The checks. -/
inductive Violation
  /-- A write to `rx_buf` is inside of the array. -/
  | rxBufIndex
  /-- A write to `plain` is inside of the array. -/
  | plainIndex
  /-- The size `cipher_len - 4` of `plain` is positive. -/
  | plainSize
  /-- `rx_buf[5] -= 4` does not wrap. -/
  | lengthByte
deriving Repr, DecidableEq

/-- Write bytes to an array from an index on. -/
def writeAt (violation : Violation) (array : Bytes) (index : ℕ) (data : Bytes) :
    Except Violation Bytes :=
  if index + data.length ≤ array.length then
    .ok (array.take index ++ data ++ array.drop (index + data.length))
  else
    .error violation

/-- Check a condition. -/
def require (violation : Violation) (c : Prop) [Decidable c] : Except Violation Unit :=
  if c then .ok () else .error violation

/-- The array `rx_buf`, all of it, with the other locals. -/
structure RecvArray where
  rxBuf : Bytes
  rxBufLen : ℕ
  cryptoOk : Bool
deriving Repr, DecidableEq

/-- The reads at the head of the loop. -/
def recvPacketFill (phy : Phy) (rxBuf : Bytes) (rxBufLen : ℕ) : Except Violation Bytes := do
  let head := fifoGetBuf phy.serialRxBuf 3
  let rxBuf ← writeAt .rxBufIndex rxBuf 0 head.1
  writeAt .rxBufIndex rxBuf 0 (fifoGetBuf head.2 rxBufLen).1

/-- The decryption in the array. -/
def recvPacketDecryptIn (A : Aead 16 13 4) (phy : Phy) (rxBuf : Bytes) (rxBufLen : ℕ) :
    Except Violation RecvArray :=
  if phy.encEnabled ∧ 10 < rxBufLen ∧ 0 < rxBuf.getD 5 0 then do
    let aad := rxBuf.getD 4 0 &&& 0xE3
    let cipherLen := (rxBufLen - 6) % 65536
    require .plainSize (4 < cipherLen)
    let ccm := tcCcmDecryptionVerification A phy.encKey phy.rxNonce [aad]
      ((rxBuf.drop 6).take cipherLen)
    let plain ← writeAt .plainIndex (List.replicate (cipherLen - 4) 0) 0 ccm.2
    let rxBuf ← writeAt .rxBufIndex rxBuf 6 plain
    require .lengthByte (4 ≤ rxBuf.getD 5 0)
    let rxBuf ← writeAt .rxBufIndex rxBuf 5 [rxBuf.getD 5 0 - 4]
    return ⟨rxBuf, rxBufLen - 4, ccm.1⟩
  else
    return ⟨rxBuf, rxBufLen, true⟩

/-- From the loop condition, which yields `rxBufLen`, to the decision to accept. -/
def recvPacketHead (A : Aead 16 13 4) (phy : Phy) (rxBuf : Bytes) (rxBufLen : ℕ) :
    Except Violation RecvArray := do
  recvPacketDecryptIn A phy (← recvPacketFill phy rxBuf rxBufLen) rxBufLen

/-- A pass of the inner loop up to `ble_ll_rx_start`: the array and `rx_buf_len`. -/
def recvPacketPass (phy : Phy) (rxBuf : Bytes) (rxBufLen : ℕ) (isAdvChanPkt : Bool) :
    Except Violation (Bytes × ℕ) :=
  if rxBufLen = 0 ∧ phy.phyChan < 37 then do
    let rxBuf ← writeAt .rxBufIndex rxBuf 0 (leBytes 4 phy.phyAccessAddress.toNat)
    let rxBuf ← writeAt .rxBufIndex rxBuf 4 [0x01]
    let rxBuf ← writeAt .rxBufIndex rxBuf 5 [0x00]
    let rxBuf ← writeAt .rxBufIndex rxBuf 4 [fixSeqNum phy (rxBuf.getD 4 0)]
    return (rxBuf, 6)
  else if rxBufLen ≠ 0 ∧ isAdvChanPkt = false then do
    let rxBuf ← writeAt .rxBufIndex rxBuf 4 [fixSeqNum phy (rxBuf.getD 4 0)]
    return (rxBuf, rxBufLen)
  else
    return (rxBuf, rxBufLen)

/-- What is expected of the arrays when a packet is at the head of the serial buffer. -/
structure RecvInBounds (A : Aead 16 13 4) (phy : Phy) (rxBuf pkt : Bytes) : Prop where
  /-- An empty serial buffer takes the frame, and no byte finds it full. -/
  fits : ∀ f : Fifo, f.Holds [] → fifoGetCapacity f = 1024 → ∀ before byte after,
    dataFrame pkt = before ++ byte :: after → fifoIsFull (fifoAddBuf f before) = false
  pktLen : fifoGetPktLen phy.serialRxBuf = .ok pkt.length
  /-- No check fails up to the inner loop, and `rx_buf_len` fits the length byte. -/
  head : ∃ b, recvPacketHead A phy rxBuf pkt.length = .ok b ∧ b.rxBuf.length = rxBufSize ∧
    b.rxBufLen = 6 + (b.rxBuf.getD 5 0).toNat
  /-- No check fails in a pass of the inner loop, whatever it finds. -/
  passes : ∀ phy' rxBuf' rxBufLen isAdvChanPkt, rxBuf'.length = rxBufSize →
    ∃ r, recvPacketPass phy' rxBuf' rxBufLen isAdvChanPkt = .ok r ∧ r.1.length = rxBufSize

/-! ## Writes -/

@[simp] theorem require_true {violation : Violation} {hdec : Decidable True} :
    require violation True = .ok () := if_pos trivial

/-- A write inside the array keeps its length. -/
theorem writeAt_length {violation : Violation} {array data array' : Bytes} {index : ℕ}
    (h : writeAt violation array index data = .ok array') : array'.length = array.length := by
  rw [writeAt] at h
  split at h
  case isFalse => cases h
  case isTrue hle =>
    rw [← Except.ok.inj h]
    simp only [List.length_append, List.length_take, List.length_drop]
    omega

/-- A write at the start of an array. -/
theorem writeAt_zero (violation : Violation) {array data : Bytes} (h : data.length ≤ array.length) :
    writeAt violation array 0 data = .ok (data ++ array.drop data.length) := by
  rw [writeAt, Nat.zero_add, if_pos h]
  rfl

section

variable (violation : Violation) (accessAddress : UInt32) (hdrByte length : UInt8)
  (payload data : Bytes)

/-- A write at offset six changes the start of the payload. -/
theorem writeAt_payload (h : data.length ≤ payload.length) :
    writeAt violation (airPacket accessAddress hdrByte length payload) 6 data =
      .ok (airPacket accessAddress hdrByte length (data ++ payload.drop data.length)) := by
  have hdrop : (airPacket accessAddress hdrByte length payload).drop (6 + data.length) =
      payload.drop data.length := by
    rw [← List.drop_drop, airPacket_drop_six]
  rw [writeAt, airPacket_length, if_pos (by omega), hdrop, airPacket_take_six, List.append_assoc]
  rfl

/-- A write at the start changes the access address. -/
theorem writeAt_accessAddress (accessAddress' : UInt32) :
    writeAt violation (airPacket accessAddress hdrByte length payload) 0
        (leBytes 4 accessAddress'.toNat) =
      .ok (airPacket accessAddress' hdrByte length payload) := by
  rw [writeAt_zero _ (by rw [airPacket_length, leBytes_length]; omega)]
  rfl

/-- A write at offset four changes the header byte. -/
theorem writeAt_hdrByte (byte : UInt8) :
    writeAt violation (airPacket accessAddress hdrByte length payload) 4 [byte] =
      .ok (airPacket accessAddress byte length payload) := by
  rw [writeAt, airPacket_length, if_pos (by simp)]
  rfl

/-- A write at offset five changes the length byte. -/
theorem writeAt_length_byte (byte : UInt8) :
    writeAt violation (airPacket accessAddress hdrByte length payload) 5 [byte] =
      .ok (airPacket accessAddress hdrByte byte payload) := by
  rw [writeAt, airPacket_length, if_pos (by simp)]
  rfl

end

/-! ## The head of the loop -/

variable {A : Aead 16 13 4} {phy : Phy} {rxBuf rest : Bytes}

/-- The parts of the frame that the reads of `recv_packet` take one after the other. -/
theorem fifoGetBuf_dataFrame {p : Bytes} (h : phy.serialRxBuf.Holds (dataFrame p ++ rest)) :
    (fifoGetBuf phy.serialRxBuf 3).1.length = 3 ∧
      (fifoGetBuf (fifoGetBuf phy.serialRxBuf 3).2 p.length).1 = p := by
  refine ⟨fifoGetBuf_length _ 3, ?_⟩
  have hsplit : dataFrame p ++ rest = (cmdData :: lenBytes p.length) ++
      (p ++ (UInt8.ofNat (byteSum p &&& 0xFF) :: rest)) := by
    simp [dataFrame]
  rw [hsplit] at h
  exact (fifoGetBuf_holds p _ (fifoGetBuf_holds (cmdData :: lenBytes p.length) _ h).2.1).1

/-- A packet that fits the array is at its start afterwards. -/
theorem recvPacketFill_ok {p : Bytes} (h : phy.serialRxBuf.Holds (dataFrame p ++ rest))
    (hthree : 3 ≤ rxBuf.length) (hfits : p.length ≤ rxBuf.length) :
    ∃ stale, recvPacketFill phy rxBuf p.length = .ok (p ++ stale) ∧
      (p ++ stale).length = rxBuf.length := by
  obtain ⟨hhead, hp⟩ := fifoGetBuf_dataFrame h
  have hfirst := writeAt_zero .rxBufIndex (hhead.trans_le hthree)
  have hlen := writeAt_length hfirst
  have hsecond := @writeAt_zero .rxBufIndex _ p (hfits.trans_eq hlen.symm)
  refine ⟨_, ?_, (writeAt_length hsecond).trans hlen⟩
  rw [← hsecond, recvPacketFill, hfirst]
  show writeAt _ _ 0 (fifoGetBuf (fifoGetBuf phy.serialRxBuf 3).2 p.length).1 = _
  rw [hp]

/-- A packet that does not fit is written past the end. -/
theorem recvPacketFill_overrun {p : Bytes} (h : phy.serialRxBuf.Holds (dataFrame p ++ rest))
    (hthree : 3 ≤ rxBuf.length) (hlong : rxBuf.length < p.length) :
    recvPacketFill phy rxBuf p.length = .error .rxBufIndex := by
  obtain ⟨hhead, hp⟩ := fifoGetBuf_dataFrame h
  have hfirst := writeAt_zero .rxBufIndex (hhead.trans_le hthree)
  have hlen := writeAt_length hfirst
  rw [recvPacketFill, hfirst]
  show writeAt _ _ 0 (fifoGetBuf (fifoGetBuf phy.serialRxBuf 3).2 p.length).1 = _
  rw [hp, writeAt, if_neg (by omega)]

/-- The decrypted payload is four bytes shorter, verified or not. -/
theorem tcCcmDecryptionVerification_length (hkey : phy.encKey.length = 16)
    (hiv : phy.encIv.length = 8) (aad : Bytes) {cipher : Bytes} :
    (tcCcmDecryptionVerification A phy.encKey phy.rxNonce aad cipher).2.length =
      cipher.length - 4 := by
  rw [tcCcmDecryptionVerification]
  split
  case h_1 plain hplain =>
    rw [A.length_of_decryptTagged aad hkey (rxNonce_length hiv) hplain, Nat.add_sub_cancel]
  case h_2 => exact List.length_replicate

section

variable (accessAddress : UInt32) (hdrByte length : UInt8) (payload stale : Bytes)

/-- The decryption of a packet whose length byte is right. What follows it in the array stays. -/
theorem recvPacketDecryptIn_ok (hkey : phy.encKey.length = 16) (hiv : phy.encIv.length = 8)
    (hlength : payload.length = length.toNat) :
    ∃ b length' plain stale',
      recvPacketDecryptIn A phy (airPacket accessAddress hdrByte length payload ++ stale)
        (airPacket accessAddress hdrByte length payload).length = .ok b ∧
      (b.cryptoOk, airPacket accessAddress hdrByte length' plain) =
        recvPacketDecrypt A phy (airPacket accessAddress hdrByte length payload) ∧
      b.rxBuf = airPacket accessAddress hdrByte length' plain ++ stale' ∧
      plain.length + stale'.length = payload.length + stale.length ∧
      b.rxBufLen = (airPacket accessAddress hdrByte length' plain).length ∧
      plain.length = length'.toNat := by
  by_cases hguard : recvPacketDecrypts phy (airPacket accessAddress hdrByte length payload)
  · obtain ⟨-, hlong, hpos⟩ := (recvPacketDecrypts_airPacket ..).mp hguard
    have hguard' := hguard
    rw [recvPacketDecrypts, airPacket_getD_five] at hguard'
    have hlt : length.toNat < 256 := length.toNat_lt
    have hcipherLen :
        ((airPacket accessAddress hdrByte length payload).length - 6) % 65536 = payload.length := by
      rw [airPacket_length]
      omega
    have hfour : 4 ≤ length := by
      rw [UInt8.le_iff_toNat_le, show (4 : UInt8).toNat = 4 from rfl]
      omega
    have hplainLen := @tcCcmDecryptionVerification_length A _ hkey hiv [hdrByte &&& 0xE3] payload
    -- what the verification leaves in `plain`
    set ccm := tcCcmDecryptionVerification A phy.encKey phy.rxNonce [hdrByte &&& 0xE3] payload
      with hccm
    have hplain : writeAt .plainIndex (List.replicate (payload.length - 4) 0) 0 ccm.2 = .ok ccm.2 := by
      rw [writeAt_zero _ (by rw [hplainLen, List.length_replicate]), hplainLen,
        List.drop_eq_nil_of_le (List.length_replicate ..).le, List.append_nil]
    -- which is copied over the start of the payload
    have hcopy := writeAt_payload .rxBufIndex accessAddress hdrByte length
      (payload ++ stale) ccm.2 (by rw [hplainLen, List.length_append]; omega)
    refine ⟨⟨_, (airPacket accessAddress hdrByte length payload).length - 4, ccm.1⟩, length - 4,
      ccm.2, (payload ++ stale).drop ccm.2.length, ?_, ?_, airPacket_append .., ?_, ?_, ?_⟩
    · rw [airPacket_append]
      simp only [recvPacketDecryptIn, airPacket_getD_five, if_pos hguard', hcipherLen,
        airPacket_drop_six, List.take_left, airPacket_getD_four, ← hccm, hlong, hplain,
        hcopy, hfour, require_true, writeAt_length_byte, bind, Except.bind, airPacket_append]
      rfl
    · rw [recvPacketDecrypt_cipher A _ _ _ _ hguard]
    · rw [List.length_drop, List.length_append, hplainLen]
      omega
    · show (airPacket accessAddress hdrByte length payload).length - 4 = _
      rw [airPacket_length, airPacket_length, hplainLen]
      omega
    · rw [hplainLen, UInt8.toNat_sub_of_le _ _ hfour, hlength]
      rfl
  · have hguard' := hguard
    rw [recvPacketDecrypts, airPacket_getD_five] at hguard'
    refine ⟨⟨_, _, true⟩, length, payload, stale, ?_, ?_, rfl, rfl, rfl, hlength⟩
    · rw [recvPacketDecryptIn, airPacket_append, airPacket_getD_five, if_neg hguard']
      rfl
    · rw [recvPacketDecrypt_plain A hguard]

/-- The head of the loop, for a packet that fits: the array starts with what is left after the
decryption of the packet, which is as long as its length byte says. -/
theorem recvPacketHead_refines (hkey : phy.encKey.length = 16) (hiv : phy.encIv.length = 8)
    (hlength : payload.length = length.toNat)
    (hfifo : phy.serialRxBuf.Holds (dataFrame (airPacket accessAddress hdrByte length payload) ++ rest))
    (hfits : (airPacket accessAddress hdrByte length payload).length ≤ rxBuf.length) :
    ∃ b, recvPacketHead A phy rxBuf (airPacket accessAddress hdrByte length payload).length = .ok b ∧
      (b.cryptoOk, b.rxBuf.take b.rxBufLen) =
        recvPacketDecrypt A phy (airPacket accessAddress hdrByte length payload) ∧
      b.rxBuf.length = rxBuf.length ∧ b.rxBufLen = 6 + (b.rxBuf.getD 5 0).toNat := by
  obtain ⟨stale, hfill, hlen⟩ := recvPacketFill_ok hfifo
    (by rw [airPacket_length] at hfits; omega) hfits
  obtain ⟨b, length', plain, stale', hb, hdecrypt, hrxBuf, hkept, hrxBufLen, hplain⟩ :=
    recvPacketDecryptIn_ok (A := A) accessAddress hdrByte length payload stale hkey hiv hlength
  refine ⟨b, ?_, ?_, ?_, ?_⟩
  · rw [recvPacketHead, hfill]
    exact hb
  · rw [hrxBuf, hrxBufLen, List.take_left]
    exact hdecrypt
  · rw [List.length_append, airPacket_length] at hlen
    rw [hrxBuf, List.length_append, airPacket_length]
    omega
  · rw [hrxBufLen, hrxBuf, airPacket_append, airPacket_getD_five, airPacket_length, hplain,
      Nat.add_comm]

end

/-! ## The inner loop -/

/-- A pass of the inner loop writes inside of the array, and leaves in it what the pass over bytes
computes. -/
theorem recvPacketPass_refines (phy : Phy) {rxBuf : Bytes} {rxBufLen : ℕ} {isAdvChanPkt : Bool}
    (hrxBuf : 6 ≤ rxBuf.length) :
    ∃ r, recvPacketPass phy rxBuf rxBufLen isAdvChanPkt = .ok r ∧ r.1.length = rxBuf.length ∧
      ∀ l : RecvLocals, l.rxBuf = rxBuf.take rxBufLen → l.isAdvChanPkt = isAdvChanPkt →
        (rxBufLen = 0 ∨ 6 ≤ rxBufLen) → r.1.take r.2 = (recvPacketPrepare phy l).rxBuf := by
  obtain ⟨accessAddress, hdrByte, length, payload, rfl⟩ := exists_airPacket rxBuf hrxBuf
  -- an empty packet is simulated in place, where the array may hold anything
  by_cases hempty : rxBufLen = 0 ∧ phy.phyChan < 37
  · refine ⟨(airPacket phy.phyAccessAddress (fixSeqNum phy 0x01) 0 payload, 6), ?_, ?_, ?_⟩
    · simp only [recvPacketPass, if_pos hempty, writeAt_accessAddress, writeAt_hdrByte,
        writeAt_length_byte, airPacket_getD_four, bind, Except.bind]
      rfl
    · rw [airPacket_length, airPacket_length]
    · intro l hl _ _
      rw [hempty.1, List.take_zero] at hl
      rw [recvPacketPrepare_empty hl hempty.2]
      rfl
  · have hprepare : ∀ l : RecvLocals, l.rxBuf = (airPacket accessAddress hdrByte length payload).take
        rxBufLen → (rxBufLen = 0 ∨ 6 ≤ rxBufLen) → (recvPacketPrepare phy l).rxBuf =
          if l.isAdvChanPkt then l.rxBuf else l.rxBuf.modify 4 (fixSeqNum phy) := by
      intro l hl hlen
      refine recvPacketPrepare_rxBuf fun h => hempty ⟨?_, h.2⟩
      have hnil := congrArg List.length (hl.symm.trans h.1)
      rw [List.length_take, List.length_nil, airPacket_length] at hnil
      omega
    by_cases hfix : rxBufLen ≠ 0 ∧ isAdvChanPkt = false
    · refine ⟨(airPacket accessAddress (fixSeqNum phy hdrByte) length payload, rxBufLen), ?_, ?_, ?_⟩
      · simp only [recvPacketPass, if_neg hempty, if_pos hfix, writeAt_hdrByte, airPacket_getD_four,
          bind, Except.bind]
        rfl
      · rw [airPacket_length, airPacket_length]
      · intro l hl hadv hlen
        rw [hprepare l hl hlen, hadv, hfix.2, if_neg Bool.false_ne_true, hl, ← List.take_modify]
        rfl
    · refine ⟨(airPacket accessAddress hdrByte length payload, rxBufLen), ?_, rfl, ?_⟩
      · simp only [recvPacketPass, if_neg hempty, if_neg hfix]
        rfl
      · -- a packet whose numbers are not fixed is an advertising one, or there is none
        intro l hl hadv hlen
        rw [hprepare l hl hlen, hl, hadv]
        cases hisAdv : isAdvChanPkt with
        | true => rfl
        | false =>
          have hzero : rxBufLen = 0 := by
            by_contra hne
            exact hfix ⟨hne, hisAdv⟩
          rw [hzero]
          rfl

/-! ## The bounds -/

/-- The serial buffer is large enough for any frame whose length is a byte and a header. -/
theorem fifo_fits_frame {pkt : Bytes} (hlen : pkt.length ≤ 261) {f : Fifo} (hf : f.Holds [])
    (hcap : fifoGetCapacity f = 1024) {before after : Bytes} {byte : UInt8}
    (hsplit : dataFrame pkt = before ++ byte :: after) : fifoIsFull (fifoAddBuf f before) = false := by
  have htotal := congrArg List.length hsplit
  rw [dataFrame_length, List.length_append, List.length_cons] at htotal
  obtain ⟨hholds, hcap'⟩ := fifoAddBuf_holds hf before (by rw [hcap, List.length_nil]; omega)
  rw [Bool.eq_false_iff, ne_eq, fifoIsFull_iff hholds, hcap', hcap, List.nil_append]
  omega

/-- **The bounds of `recv_packet`.** For a frame that `raw_send` has written, with a length byte
that counts the payload, nothing is written outside of the arrays and nothing wraps, in every
encryption state, if and only if the length byte is not 255. -/
theorem recvPacket_inBounds_iff {A : Aead 16 13 4} {phy : Phy} {rxBuf payload crc rest : Bytes}
    (accessAddress : UInt32) (hdrByte length : UInt8) (hkey : phy.encKey.length = 16)
    (hiv : phy.encIv.length = 8) (hrxBuf : rxBuf.length = rxBufSize)
    (hlength : payload.length = length.toNat) (hcrc : crc.length = 3)
    (hfifo : phy.serialRxBuf.Holds
      (dataFrame (cutCrc (airPacket accessAddress hdrByte length payload ++ crc)) ++ rest)) :
    RecvInBounds A phy rxBuf (airPacket accessAddress hdrByte length payload) ↔ length ≠ 255 := by
  rw [cutCrc_append _ hcrc] at hfifo
  have hlt : length.toNat < 256 := length.toNat_lt
  have hlen := airPacket_length accessAddress hdrByte length payload
  have hsize : rxBufSize = 260 := rfl
  constructor
  · rintro ⟨-, -, ⟨b, hb, -⟩, -⟩ rfl
    -- 255 bytes of payload and six of header are one more than the array has
    have hover : rxBuf.length < (airPacket accessAddress hdrByte 255 payload).length := by
      rw [hlen, hrxBuf, hlength]
      decide
    rw [recvPacketHead, recvPacketFill_overrun hfifo (by omega) hover] at hb
    cases hb
  · intro hne
    have hne' : length.toNat ≠ 255 := fun h => hne (UInt8.toNat_inj.mp h)
    have hfits : (airPacket accessAddress hdrByte length payload).length ≤ rxBuf.length := by omega
    obtain ⟨b, hb, -, hsame, hrxBufLen⟩ := recvPacketHead_refines (A := A) accessAddress hdrByte
      length payload hkey hiv hlength hfifo hfits
    refine ⟨fun f hf hcap before byte after hsplit => ?_, ?_, ⟨b, hb, ?_, hrxBufLen⟩, ?_⟩
    · exact fifo_fits_frame (by omega) hf hcap hsplit
    · have hhead := headPacket_dataFrame (p := airPacket accessAddress hdrByte length payload)
        (by omega) (by omega) rest
      rw [fifoGetPktLen_eq hfifo fun _ => rfl, hhead]
      rfl
    · rw [hsame, hrxBuf]
    · intro phy' rxBuf' rxBufLen isAdvChanPkt hrxBuf'
      obtain ⟨r, hr, hkept, -⟩ := @recvPacketPass_refines phy' rxBuf' rxBufLen
        isAdvChanPkt (by omega)
      exact ⟨r, hr, hkept.trans hrxBuf'⟩

/-- The driver with encryption enabled, when a frame has arrived. -/
def withFrame (pkt : Bytes) : Phy :=
  { blePhyInit with
    encEnabled := true, serialRxBuf := fifoAddBuf (fifoCreate 1024) (dataFrame (cutCrc pkt)) }

/-- The buffer that a frame was put into holds it. -/
theorem withFrame_holds {pkt : Bytes} (h : (dataFrame (cutCrc pkt)).length ≤ 1024) :
    (withFrame pkt).serialRxBuf.Holds (dataFrame (cutCrc pkt) ++ []) := by
  rw [List.append_nil]
  have hspace : ([] : Bytes).length + (dataFrame (cutCrc pkt)).length ≤
      fifoGetCapacity (fifoCreate 1024) := (Nat.zero_add _).trans_le h
  exact (fifoAddBuf_holds (fifoCreate_holds 1024 (by decide)) _ hspace).1

/-- An encrypted packet of a payload of 250 bytes. -/
theorem recvPacket_inBounds_iff_longest :
    RecvInBounds (.byteSumTag 16 13 4)
      (withFrame (airPacket 7 2 254 (List.replicate 254 0) ++ [0, 0, 0])) (List.replicate 260 0)
      (airPacket 7 2 254 (List.replicate 254 0)) :=
  (recvPacket_inBounds_iff 7 2 254 (List.length_replicate ..) (List.length_replicate ..)
    (List.length_replicate ..) (List.length_replicate ..) rfl
    (withFrame_holds (by decide +kernel))).mpr (by decide)

/-- An encrypted packet of a payload of 251 bytes is written past the end of `rx_buf`. -/
theorem recvPacket_overrun :
    recvPacketHead (.byteSumTag 16 13 4)
        (withFrame (airPacket 7 2 255 (List.replicate 255 0) ++ [0, 0, 0])) (List.replicate 260 0)
        (airPacket 7 2 255 (List.replicate 255 0)).length = .error .rxBufIndex ∧
      ¬ RecvInBounds (.byteSumTag 16 13 4)
        (withFrame (airPacket 7 2 255 (List.replicate 255 0) ++ [0, 0, 0])) (List.replicate 260 0)
        (airPacket 7 2 255 (List.replicate 255 0)) := by
  have hholds := @withFrame_holds (airPacket 7 2 255 (List.replicate 255 0) ++ [0, 0, 0])
    (by decide +kernel)
  rw [cutCrc_append _ rfl] at hholds
  have hhead : recvPacketHead (.byteSumTag 16 13 4)
      (withFrame (airPacket 7 2 255 (List.replicate 255 0) ++ [0, 0, 0])) (List.replicate 260 0)
      (airPacket 7 2 255 (List.replicate 255 0)).length = .error .rxBufIndex := by
    rw [recvPacketHead, recvPacketFill_overrun hholds (by decide +kernel) (by decide +kernel)]
    rfl
  refine ⟨hhead, fun ⟨_, _, ⟨b, hb, _⟩, _⟩ => ?_⟩
  cases hhead.symm.trans hb

end BleFuzzer.Serial

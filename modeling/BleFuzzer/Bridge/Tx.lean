import BleFuzzer.Bridge.Phy
import BleFuzzer.Common.Aead
import BleFuzzer.Common.AirPacket

/-!
# Transmission

`ble_phy_tx`: the controller hands over a header byte and a payload, and the driver writes one
serial frame. The payload is encrypted when the link is.
-/

namespace BleFuzzer.Bridge

/-- The five counter bytes of a nonce: `memcpy(nonce, &enc_counter, 5)`. -/
def Phy.nonceCounter (phy : Phy) : Bytes := (leBytes 8 phy.encCounter.toNat).take 5

/-- The nonce of a transmitted packet, with the direction bit cleared. -/
def Phy.txNonce (phy : Phy) : Bytes := phy.nonceCounter.modify 4 (· &&& 0x7F) ++ phy.encIv

/-- The sequence numbers `ble_phy_tx` extracts for the next received packet. -/
def blePhyTxSeqNum (phy : Phy) (hdrByte : UInt8) : Phy :=
  if phy.phyChan < 37 then
    { phy with
      rxSn := if hdrByte &&& 0x04 ≠ 0 then 1 else 0
      rxNesn := (if hdrByte &&& 0x08 ≠ 0 then 1 else 0) ^^^ 1 }
  else
    phy

/-- The globals `ble_phy_tx` sets before it builds the frame: the sequence numbers, and the flag
that tells the receiver side to go on simulating empty packets. -/
def blePhyTxFlags (phy : Phy) (hdrByte : UInt8) (payload : Bytes) : Phy :=
  let phy := blePhyTxSeqNum phy hdrByte
  if 0 < payload.length then { phy with sentNonEmptyPkt := true } else phy

/-- The guard of the encryption of `ble_phy_tx`. -/
def blePhyTxEncrypts (phy : Phy) (payload : Bytes) : Prop := phy.encEnabled ∧ 0 < payload.length

instance (phy : Phy) (payload : Bytes) : Decidable (blePhyTxEncrypts phy payload) :=
  inferInstanceAs (Decidable (_ ∧ _))

/-- The payload `ble_phy_tx` puts on the air: with `tc_ccm_generation_encryption`, the tag is behind
the cipher text. -/
def blePhyTxPayload (A : Aead 16 13 4) (phy : Phy) (hdrByte : UInt8) (payload : Bytes) : Bytes :=
  if blePhyTxEncrypts phy payload then
    A.encryptTagged phy.encKey phy.txNonce [hdrByte &&& 0xE3] payload
  else
    payload

/-- `tx_buf` with access address, header, payload and the fake CRC. -/
def btlePacket (accessAddress : UInt32) (hdrByte : UInt8) (payload : Bytes) : Bytes :=
  leBytes 4 accessAddress.toNat ++ [hdrByte, UInt8.ofNat payload.length] ++ payload ++ [0, 0, 0]

/-- The packet in `tx_buf` when it is written out. -/
def blePhyTxPacket (A : Aead 16 13 4) (phy : Phy) (hdrByte : UInt8) (payload : Bytes) : Bytes :=
  btlePacket phy.phyAccessAddress hdrByte (blePhyTxPayload A phy hdrByte payload)

/-- The bytes `ble_phy_tx` writes to the serial transmit buffer, one by one. -/
def blePhyTxWrite (f : Fifo) (txBuf : Bytes) : Fifo :=
  let f := fifoAddByte f 0xA7
  let f := fifoAddByte f (UInt8.ofNat (txBuf.length &&& 0xFF))
  let f := fifoAddByte f (UInt8.ofNat ((txBuf.length >>> 8) &&& 0xFF))
  let f := fifoAddByte f 0
  let f := fifoAddByte f 0
  let f := fifoAddBuf f txBuf
  fifoAddByte f (checksum8 txBuf)

/-- The size of `tx_buf` in `ble_phy_tx`. -/
def txBufSize : ℕ := 512

/-- `ble_phy_tx`, with what the callback `pducb` returns. -/
def blePhyTx (A : Aead 16 13 4) (phy : Phy) (hdrByte : UInt8) (payload : Bytes) :
    Except Fault Phy :=
  let phy := blePhyTxFlags phy hdrByte payload
  let txBuf := blePhyTxPacket A phy hdrByte payload
  if txBufSize < txBuf.length then
    .error .txBufOverrun
  else if fifoHasSpace phy.serialTxBuf (5 + txBuf.length + 1) then
    .ok { phy with serialTxBuf := blePhyTxWrite phy.serialTxBuf txBuf }
  else
    .error .txFifoFull

/-- The frame on the serial line for one packet. -/
def txFrame (txBuf : Bytes) : Bytes :=
  0xA7 :: lenBytes txBuf.length ++ [0, 0] ++ txBuf ++ [checksum8 txBuf]

variable (A : Aead 16 13 4)

@[simp] theorem nonceCounter_length (phy : Phy) : phy.nonceCounter.length = 5 := by
  simp [Phy.nonceCounter]

/-- The nonce has the length that CCM wants. -/
theorem txNonce_length {phy : Phy} (hiv : phy.encIv.length = 8) : phy.txNonce.length = 13 := by
  simp [Phy.txNonce, hiv]

/-- What `ble_phy_tx` writes out is an air packet with its fake CRC. -/
theorem btlePacket_eq (accessAddress : UInt32) (hdrByte : UInt8) (payload : Bytes) :
    btlePacket accessAddress hdrByte payload =
      airPacket accessAddress hdrByte (UInt8.ofNat payload.length) payload ++ [0, 0, 0] := rfl

/-- Access address, header and CRC take nine bytes. -/
theorem btlePacket_length (accessAddress : UInt32) (hdrByte : UInt8) (payload : Bytes) :
    (btlePacket accessAddress hdrByte payload).length = payload.length + 9 := by
  simp [btlePacket]
  omega

/-- A frame takes six bytes more than its packet. -/
theorem txFrame_length (txBuf : Bytes) : (txFrame txBuf).length = 6 + txBuf.length := by
  simp [txFrame]
  omega

/-- The single writes of `ble_phy_tx` add one frame. -/
theorem blePhyTxWrite_eq (f : Fifo) (txBuf : Bytes) :
    blePhyTxWrite f txBuf = fifoAddBuf f (txFrame txBuf) := by
  simp only [blePhyTxWrite, txFrame, fifoAddBuf, lenBytes, List.cons_append, List.nil_append,
    List.foldl_cons, List.foldl_append, List.foldl_nil]

/-- The flags leave everything the frame depends on. -/
theorem blePhyTxFlags_link (phy : Phy) (hdrByte : UInt8) (payload : Bytes) :
    (blePhyTxFlags phy hdrByte payload).serialTxBuf = phy.serialTxBuf ∧
      blePhyTxPacket A (blePhyTxFlags phy hdrByte payload) hdrByte payload =
        blePhyTxPacket A phy hdrByte payload := by
  rw [blePhyTxFlags, blePhyTxSeqNum]
  split <;> split <;> exact ⟨rfl, rfl⟩

/-- The flags are the sequence numbers and the mark of a non-empty packet. -/
theorem blePhyTxFlags_kept (phy : Phy) (hdrByte : UInt8) (payload : Bytes) :
    ∃ rxSn rxNesn sentNonEmptyPkt, blePhyTxFlags phy hdrByte payload = { phy with
      rxSn := rxSn, rxNesn := rxNesn, sentNonEmptyPkt := sentNonEmptyPkt } := by
  rw [blePhyTxFlags, blePhyTxSeqNum]
  split <;> split <;> exact ⟨_, _, _, rfl⟩

/-- A call that does not fail sets the flags and writes one frame, which fits the buffer. -/
theorem blePhyTx_ok {phy phy' : Phy} {hdrByte : UInt8} {payload : Bytes}
    (h : blePhyTx A phy hdrByte payload = .ok phy') :
    fifoHasSpace phy.serialTxBuf (txFrame (blePhyTxPacket A phy hdrByte payload)).length = true ∧
      phy' = { blePhyTxFlags phy hdrByte payload with
        serialTxBuf :=
          fifoAddBuf phy.serialTxBuf (txFrame (blePhyTxPacket A phy hdrByte payload)) } := by
  obtain ⟨hbuf, hpacket⟩ := blePhyTxFlags_link A phy hdrByte payload
  simp only [blePhyTx, hbuf, hpacket] at h
  split at h
  case isTrue => cases h
  case isFalse =>
    split at h
    case isFalse => cases h
    case isTrue hspace =>
      rw [← Except.ok.inj h, txFrame_length, blePhyTxWrite_eq]
      exact ⟨by rwa [Nat.add_right_comm] at hspace, rfl⟩

/-- A call whose frame fits does not fail. -/
theorem blePhyTx_of_space {phy : Phy} {hdrByte : UInt8} {payload : Bytes}
    (hlen : (blePhyTxPacket A phy hdrByte payload).length ≤ txBufSize)
    (hspace : fifoHasSpace phy.serialTxBuf
      (5 + (blePhyTxPacket A phy hdrByte payload).length + 1) = true) :
    ∃ phy', blePhyTx A phy hdrByte payload = .ok phy' := by
  obtain ⟨hbuf, hpacket⟩ := blePhyTxFlags_link A phy hdrByte payload
  simp only [blePhyTx, hbuf, hpacket]
  rw [if_neg (Nat.not_lt.mpr hlen), if_pos hspace]
  exact ⟨_, rfl⟩

end BleFuzzer.Bridge

import BleFuzzer.Bridge.Phy

/-!
# The serial side of the bridge driver

Reception of single bytes, detection of complete packets in the receive buffer, and the reads at the
head of the loop of `recv_packet`.
-/

namespace BleFuzzer.Bridge

/-- `fifo_get_pkt_len`: the length of the packet at the head of the buffer, without command, length
and checksum, or 0 while it is incomplete. -/
def fifoGetPktLen (f : Fifo) : Except Fault ℕ :=
  if 3 < fifoGetSize f then
    if fifoPeek f 0 ≠ 0xA7 then
      .error .notDataCmd
    else
      let btlePktLen := ((fifoPeek f 1).toNat + (fifoPeek f 2).toNat <<< 8) % 65536
      if 1 + 2 + btlePktLen + 1 ≤ fifoGetSize f then .ok btlePktLen else .ok 0
  else
    .ok 0

/-- `ble_phy_uart_tx_char`: the next byte to transmit, or `none` for -1. -/
def blePhyUartTxChar (phy : Phy) : Option UInt8 × Phy :=
  if fifoIsEmpty phy.serialTxBuf then
    (none, phy)
  else
    (some (fifoGetByte phy.serialTxBuf).1,
      { phy with serialTxBuf := (fifoGetByte phy.serialTxBuf).2 })

/-- With an empty buffer nothing is transmitted. -/
theorem blePhyUartTxChar_nil {phy : Phy} (h : phy.serialTxBuf.Holds []) :
    blePhyUartTxChar phy = (none, phy) :=
  if_pos ((fifoIsEmpty_iff h).mpr rfl)

/-- The oldest byte is transmitted. -/
theorem blePhyUartTxChar_cons {phy : Phy} {c : UInt8} {q : Bytes}
    (h : phy.serialTxBuf.Holds (c :: q)) :
    ∃ f, blePhyUartTxChar phy = (some c, { phy with serialTxBuf := f }) ∧ f.Holds q := by
  obtain ⟨hc, hq⟩ := fifoGetByte_holds h
  have hfull : ¬ fifoIsEmpty phy.serialTxBuf := fun hempty =>
    List.cons_ne_nil c q ((fifoIsEmpty_iff h).mp hempty)
  refine ⟨_, ?_, hq⟩
  rw [blePhyUartTxChar, if_neg hfull, hc]

/-- A drain touches the transmit buffer alone. -/
theorem blePhyUartTxChar_snd (phy : Phy) :
    ∃ f, (blePhyUartTxChar phy).2 = { phy with serialTxBuf := f } := by
  rw [blePhyUartTxChar]
  split
  · exact ⟨phy.serialTxBuf, rfl⟩
  · exact ⟨_, rfl⟩

/-- `ble_phy_uart_rx_char`. Queueing the event again while it is queued changes nothing. -/
def blePhyUartRxChar (phy : Phy) (byte : UInt8) : Except Fault Phy :=
  let phy := { phy with pktCount := phy.pktCount + 1 }
  if phy.pktCount = 1 then
    -- the first byte is the config-log-tx command
    if byte = 0xCC then .ok phy else .error .notLogTx
  else if phy.pktCount = 2 then
    -- the second byte is the config value
    .ok { phy with uartIsConnected := true }
  else if fifoIsFull phy.serialRxBuf then
    .error .rxFifoFull
  else do
    let phy := { phy with serialRxBuf := fifoAddByte phy.serialRxBuf byte }
    if (← fifoGetPktLen phy.serialRxBuf) ≠ 0 then
      return { phy with recvPacketQueued := true }
    else
      return phy

/-- Receiving a byte changes only what belongs to the serial line. -/
theorem blePhyUartRxChar_kept {phy phy' : Phy} {byte : UInt8}
    (h : blePhyUartRxChar phy byte = .ok phy') :
    ∃ f count connected queued, phy' = { phy with
      serialRxBuf := f
      pktCount := count
      uartIsConnected := connected
      recvPacketQueued := queued } := by
  rw [blePhyUartRxChar] at h
  split at h
  · split at h
    · exact ⟨_, _, _, _, (Except.ok.inj h).symm⟩
    · cases h
  · split at h
    · exact ⟨_, _, _, _, (Except.ok.inj h).symm⟩
    · split at h
      · cases h
      · dsimp only at h
        cases hlen : fifoGetPktLen (fifoAddByte phy.serialRxBuf byte) with
        | error fault =>
          rw [hlen] at h
          cases h
        | ok n =>
          rw [hlen] at h
          change (if n ≠ 0 then Except.ok _ else Except.ok _) = _ at h
          split at h <;> exact ⟨_, _, _, _, (Except.ok.inj h).symm⟩

/-- The size of `rx_buf` in `recv_packet`. -/
def rxBufSize : ℕ := 260

/-- The loop condition of `recv_packet` and the reads that follow it: `none` when the loop ends,
else the bytes `rx_buf[0 .. rx_buf_len)` of the packet taken from the buffer. -/
def recvPacketRead (phy : Phy) : Except Fault (Option (Bytes × Phy)) := do
  let rxBufLen ← fifoGetPktLen phy.serialRxBuf
  if rxBufLen = 0 then
    return none
  else if rxBufSize < rxBufLen then
    throw .rxBufOverrun
  else
    -- the command and length bytes and the final checksum byte are dropped
    let f := (fifoGetBuf phy.serialRxBuf 3).2
    let rxBuf := fifoGetBuf f rxBufLen
    return some (rxBuf.1, { phy with serialRxBuf := (fifoGetByte rxBuf.2).2 })

/-- A packet that is taken fits `rx_buf`, and of the globals only the serial buffer changes. -/
theorem recvPacketRead_fits {phy phy' : Phy} {rxBuf : Bytes}
    (h : recvPacketRead phy = .ok (some (rxBuf, phy'))) :
    0 < rxBuf.length ∧ rxBuf.length ≤ rxBufSize ∧ ∃ f, phy' = { phy with serialRxBuf := f } := by
  rw [recvPacketRead] at h
  cases hlen : fifoGetPktLen phy.serialRxBuf with
  | error fault =>
    rw [hlen] at h
    cases h
  | ok n =>
    rw [hlen] at h
    change (if n = 0 then _ else if rxBufSize < n then _ else _) = _ at h
    split at h
    case isTrue => cases h
    case isFalse hpos =>
      split at h
      case isTrue => cases h
      case isFalse hfits =>
        obtain ⟨rfl, rfl⟩ := Prod.mk.inj (Option.some.inj (Except.ok.inj h))
        rw [fifoGetBuf_length]
        exact ⟨Nat.pos_of_ne_zero hpos, Nat.not_lt.mp hfits, _, rfl⟩

end BleFuzzer.Bridge

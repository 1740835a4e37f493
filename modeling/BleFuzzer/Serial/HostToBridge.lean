import BleFuzzer.Common.Framing
import BleFuzzer.Common.System
import BleFuzzer.Bridge.Uart
import BleFuzzer.Driver.Nrf52

/-!
# The serial channel from the host to the bridge

The bytes the host has written wait on the wire. The bridge takes them one by one in its receive
interrupt, and its task extracts whole packets whenever the scheduler lets it. `rxChannel` is the
system of these events; a run of it is one interleaving.

`RxInv` is the invariant of every run: the unread bytes of the ring buffer followed by the wire are
the frames not yet extracted, so the buffer always starts at a frame boundary, and a complete frame
in the buffer is always announced by the queued event or by the task being in its loop.
-/

namespace BleFuzzer.Serial

open Bridge Driver

/-! ## The framing of host packets -/

/-- The packet at the head of the unread bytes and what follows its frame, once it is complete. -/
def headPacket : Bytes → Option (Bytes × Bytes)
  | _ :: lo :: hi :: rest =>
    let len := (lo.toNat + hi.toNat <<< 8) % 65536
    if len ≠ 0 ∧ len + 1 ≤ rest.length then some (rest.take len, rest.drop (len + 1)) else none
  | _ => none

/-- The CRC-less packets the bridge can take: at least a header, at most `rx_buf`. -/
def HostPacket (p : Bytes) : Prop := 6 ≤ p.length ∧ p.length ≤ rxBufSize

/-- The bytes of a frame: command, length, packet and checksum. -/
private theorem dataFrame_eq (p : Bytes) :
    dataFrame p = cmdData :: UInt8.ofNat (p.length &&& 0xFF) ::
      UInt8.ofNat ((p.length >>> 8) &&& 0xFF) :: (p ++ [UInt8.ofNat (byteSum p &&& 0xFF)]) := by
  simp [dataFrame, lenBytes]

/-- A frame has four bytes more than its packet. -/
theorem dataFrame_length (p : Bytes) : (dataFrame p).length = p.length + 4 := by
  simp [dataFrame_eq]

/-- The length field is read as it was written. -/
private theorem lenField (p : Bytes) (h : p.length < 65536) :
    ((UInt8.ofNat (p.length &&& 0xFF)).toNat +
      (UInt8.ofNat ((p.length >>> 8) &&& 0xFF)).toNat <<< 8) % 65536 = p.length := by
  have hval := lenValue_lenBytes p.length h
  rw [lenValue_eq] at hval
  rw [Nat.shiftLeft_eq]
  omega

/-- A frame at the head of the buffer is found with its packet. -/
theorem headPacket_dataFrame {p : Bytes} (hpos : 0 < p.length) (hlt : p.length < 65536)
    (rest : Bytes) : headPacket (dataFrame p ++ rest) = some (p, rest) := by
  rw [dataFrame_eq]
  simp only [List.cons_append, headPacket, lenField p hlt]
  rw [if_pos ⟨by omega, by simp⟩]
  simp [List.drop_append]

/-- Every packet of the host has such a frame. -/
theorem HostPacket.headPacket_dataFrame {p : Bytes} (hp : HostPacket p) (rest : Bytes) :
    headPacket (dataFrame p ++ rest) = some (p, rest) := by
  obtain ⟨hlo, hhi⟩ := hp
  rw [rxBufSize] at hhi
  exact Serial.headPacket_dataFrame (by omega) (by omega) rest

/-- The frames of `raw_send`, as the bridge reads them. -/
def hostFraming : Framing UInt8 Bytes Bytes where
  Ok := HostPacket
  encode := dataFrame
  value := id
  parse := headPacket
  parse_encode _ rest hp := hp.headPacket_dataFrame rest
  parse_partial p l hp hpre hne := by
    obtain ⟨hlo, hhi⟩ := hp
    rw [rxBufSize] at hhi
    have hlen : l.length < p.length + 4 := by
      have hle := hpre.length_le
      rw [dataFrame_length] at hle
      refine lt_of_le_of_ne hle fun heq => hne (hpre.eq_of_length ?_)
      rw [heq, dataFrame_length]
    rw [dataFrame_eq] at hpre
    match l, hpre with
    | [], _ => rfl
    | [_], _ => rfl
    | [_, _], _ => rfl
    | cmd :: lo :: hi :: rest, hpre =>
      obtain ⟨suffix, hsuffix⟩ := hpre
      simp only [List.cons_append, List.cons.injEq] at hsuffix
      obtain ⟨-, rfl, rfl, -⟩ := hsuffix
      simp only [headPacket, lenField p (by omega)]
      simp only [List.length_cons] at hlen
      rw [if_neg (by omega)]

/-- Too few bytes to look for a packet. -/
theorem headPacket_short {q : Bytes} (h : q.length ≤ 3) : headPacket q = none := by
  match q with
  | [] | [_] | [_, _] => rfl
  | _ :: lo :: hi :: rest =>
    simp only [List.length_cons] at h
    rw [headPacket, if_neg (by omega)]

/-- Up to three bytes are not taken for a frame. -/
theorem hostFraming_silent {tail : Bytes} (h : tail.length ≤ 3) : hostFraming.Silent tail :=
  fun _ hl => headPacket_short (le_trans hl.length_le h)

/-! ## What the bridge reads from a buffer holding a queue -/

/-- The unread bytes do not trip the assertion on the command byte. -/
def CmdOk (q : Bytes) : Prop := 3 < q.length → q.head? = some 0xA7

/-- `fifo_get_pkt_len` is the length of the packet at the head, or zero. -/
theorem fifoGetPktLen_eq {f : Fifo} {q : Bytes} (h : f.Holds q) (hcmd : CmdOk q) :
    fifoGetPktLen f = .ok (((headPacket q).map fun r => r.1.length).getD 0) := by
  rw [fifoGetPktLen, h.size_eq]
  split
  case isFalse hshort => rw [headPacket_short (by omega)]; rfl
  case isTrue hlong =>
    match q, h, hcmd, hlong with
    | cmd :: lo :: hi :: rest, h, hcmd, hlong =>
      obtain rfl : cmd = 0xA7 := by simpa using hcmd hlong
      rw [fifoPeek_eq h 0 (by simp), fifoPeek_eq h 1 (by simp), fifoPeek_eq h 2 (by simp)]
      simp only [List.getElem_cons_zero, List.getElem_cons_succ, ne_eq, not_true_eq_false, if_false,
        headPacket, List.length_cons]
      set len := (lo.toNat + hi.toNat <<< 8) % 65536
      by_cases hc : len ≠ 0 ∧ len + 1 ≤ rest.length
      · rw [if_pos (by omega), if_pos hc]
        simp
        omega
      · rw [if_neg hc]
        split
        · have : len = 0 := by omega
          simp [this]
        · rfl

/-- No packet is complete: the loop of `recv_packet` ends. -/
theorem recvPacketRead_none {phy : Phy} {q : Bytes} (h : phy.serialRxBuf.Holds q) (hcmd : CmdOk q)
    (hhead : headPacket q = none) : recvPacketRead phy = .ok none := by
  rw [recvPacketRead, fifoGetPktLen_eq h hcmd, hhead]
  rfl

/-- A complete packet is taken whole, and the buffer continues after its frame. -/
theorem recvPacketRead_some {phy : Phy} {p rest : Bytes}
    (h : phy.serialRxBuf.Holds (dataFrame p ++ rest)) (hp : HostPacket p) :
    ∃ f, recvPacketRead phy = .ok (some (p, { phy with serialRxBuf := f })) ∧ f.Holds rest ∧
      fifoGetCapacity f = fifoGetCapacity phy.serialRxBuf := by
  have hcmd : CmdOk (dataFrame p ++ rest) := fun _ => rfl
  have hlen : fifoGetPktLen phy.serialRxBuf = .ok p.length := by
    rw [fifoGetPktLen_eq h hcmd, hp.headPacket_dataFrame rest]
    rfl
  set ck := UInt8.ofNat (byteSum p &&& 0xFF)
  set hdr : Bytes := [cmdData, UInt8.ofNat (p.length &&& 0xFF),
    UInt8.ofNat ((p.length >>> 8) &&& 0xFF)]
  have hsplit : dataFrame p ++ rest = hdr ++ (p ++ ck :: rest) := by simp [dataFrame_eq, hdr, ck]
  rw [hsplit] at h
  obtain ⟨-, hbody, hcap⟩ := fifoGetBuf_holds hdr _ h
  obtain ⟨hp', hck, hcap'⟩ := fifoGetBuf_holds p _ hbody
  have hrest := (fifoGetByte_holds hck).2
  obtain ⟨h6, h260⟩ := hp
  refine ⟨_, ?_, hrest, by rw [fifoGetByte_capacity, hcap', hcap]⟩
  rw [recvPacketRead, hlen]
  show (if p.length = 0 then _ else _) = _
  rw [if_neg (by omega), if_neg (by omega)]
  show Except.ok (some ((fifoGetBuf (fifoGetBuf phy.serialRxBuf 3).2 p.length).1, _)) = _
  rw [show (3 : ℕ) = hdr.length from rfl, hp']

/-- A packet that is found is not empty. -/
private theorem headPacket_pos {q p rest : Bytes} (h : headPacket q = some (p, rest)) :
    p.length ≠ 0 := by
  match q with
  | [] | [_] | [_, _] => cases h
  | _ :: lo :: hi :: body =>
    rw [headPacket] at h
    split at h
    case isFalse => cases h
    case isTrue hc =>
      obtain ⟨rfl, rfl⟩ := Prod.mk.inj (Option.some.inj h)
      rw [List.length_take]
      omega

/-- The first byte must be the configuration command, and is dropped. -/
theorem blePhyUartRxChar_first {phy : Phy} (h1 : phy.pktCount + 1 = 1) :
    blePhyUartRxChar phy 0xCC = .ok { phy with pktCount := phy.pktCount + 1 } := by
  simp only [blePhyUartRxChar, h1, if_true]

/-- The second byte is the configuration value, and is dropped. -/
theorem blePhyUartRxChar_second {phy : Phy} (byte : UInt8) (h2 : phy.pktCount + 1 = 2) :
    blePhyUartRxChar phy byte =
      .ok { phy with pktCount := phy.pktCount + 1, uartIsConnected := true } := by
  have h1 : ¬ phy.pktCount + 1 = 1 := by
    rw [h2]
    decide
  show (if phy.pktCount + 1 = 1 then _ else if phy.pktCount + 1 = 2 then _ else _) = _
  rw [if_neg h1, if_pos h2]

/-- A byte that is not part of the configuration is appended, and the event is queued exactly when a
packet is now complete (or was queued before). -/
theorem blePhyUartRxChar_later {phy : Phy} {q : Bytes} {byte : UInt8}
    (h : phy.serialRxBuf.Holds q) (hspace : q.length < fifoGetCapacity phy.serialRxBuf)
    (hcmd : CmdOk (q ++ [byte])) (h1 : phy.pktCount + 1 ≠ 1) (h2 : phy.pktCount + 1 ≠ 2) :
    blePhyUartRxChar phy byte = .ok
      { phy with
        pktCount := phy.pktCount + 1
        serialRxBuf := fifoAddByte phy.serialRxBuf byte
        recvPacketQueued := (headPacket (q ++ [byte])).isSome || phy.recvPacketQueued } := by
  have hnotFull : fifoIsFull phy.serialRxBuf = false := by
    rw [Bool.eq_false_iff, ne_eq, fifoIsFull_iff h]
    omega
  have hlen := fifoGetPktLen_eq (fifoAddByte_holds h hspace byte) hcmd
  simp only [blePhyUartRxChar, h1, h2, if_false, hnotFull, Bool.false_eq_true, hlen]
  cases hhead : headPacket (q ++ [byte]) with
  | none => rfl
  | some r =>
    have hpos := @headPacket_pos _ r.1 r.2 hhead
    show (if r.1.length ≠ 0 then _ else _) = _
    rw [if_pos hpos]
    rfl

/-! ## The channel as an event system -/

/-- The channel: the bytes on the wire, the bridge, whether its task is inside `recv_packet`, and
the packets extracted so far. -/
structure RxChannel where
  wire : Bytes
  phy : Phy
  inRecvPacket : Bool
  extracted : List Bytes

/-- The events of the channel. -/
inductive RxEvent
  /-- One call of `ble_phy_uart_rx_char` with the next byte of the wire. -/
  | uartRx
  /-- The task takes `ev_recv_packet` off its queue and enters `recv_packet`. -/
  | dequeue
  /-- The loop condition of `recv_packet`: one packet is extracted, or the function returns. -/
  | recvLoop

/-- A call of `ble_phy_uart_rx_char` on the channel. -/
def RxChannel.uartRx (s : RxChannel) : Except Fault RxChannel :=
  match s.wire with
  | [] => .ok s
  | byte :: wire => do
    let phy ← blePhyUartRxChar s.phy byte
    return { s with wire := wire, phy := phy }

/-- One evaluation of the loop condition of `recv_packet`. -/
def RxChannel.recvLoop (s : RxChannel) : Except Fault RxChannel := do
  match ← recvPacketRead s.phy with
  | none => return { s with inRecvPacket := false }
  | some (pkt, phy) => return { s with phy := phy, extracted := s.extracted ++ [pkt] }

/-- The host-to-bridge channel. A byte arrives only while the buffer is not full. -/
def rxChannel : System RxChannel RxEvent Fault where
  enabled s
    | .uartRx => s.wire ≠ [] ∧ fifoGetSize s.phy.serialRxBuf ≠ 1024
    | .dequeue => s.phy.recvPacketQueued = true ∧ s.inRecvPacket = false
    | .recvLoop => s.inRecvPacket = true
  step s
    | .uartRx => s.uartRx
    | .dequeue =>
      .ok { s with phy := { s.phy with recvPacketQueued := false }, inRecvPacket := true }
    | .recvLoop => s.recvLoop

/-- The channel at start-up, with everything the host ever writes on the wire. -/
def RxChannel.start (wire : Bytes) : RxChannel := ⟨wire, blePhyInit, false, []⟩

/-- Nothing is left to do. -/
def RxChannel.Idle (s : RxChannel) : Prop :=
  s.wire = [] ∧ s.phy.recvPacketQueued = false ∧ s.inRecvPacket = false

/-- How much is left to do: every event of an eager schedule makes it smaller. -/
def RxChannel.work (s : RxChannel) : ℕ :=
  8 * s.wire.length + 4 * fifoGetSize s.phy.serialRxBuf + 2 * s.phy.recvPacketQueued.toNat +
    s.inRecvPacket.toNat

/-! ## The invariant -/

/-- The unread bytes `q` and the wire carry the packets `todo`, followed by `tail`. `n` bytes have
been received; the first two of them are the configuration. -/
structure RxInv (value : UInt8) (tail : Bytes) (total n : ℕ) (q : Bytes) (todo : List Bytes)
    (s : RxChannel) : Prop where
  holds : s.phy.serialRxBuf.Holds q
  capacity : fifoGetCapacity s.phy.serialRxBuf = 1024
  count : s.phy.pktCount.toNat = n % 2 ^ 32
  total_eq : n + s.wire.length = total
  early : n < 2 → q = []
  stream : q ++ s.wire = [0xCC, value].drop n ++ (hostFraming.encodeAll todo ++ tail)
  todo_ok : ∀ p ∈ todo, HostPacket p
  wake : (headPacket q).isSome → s.phy.recvPacketQueued = true ∨ s.inRecvPacket = true

/-- The invariant of a run over the packets `frames`: some of them are extracted, the rest is still
in the buffer or on the wire. -/
def RxSync (value : UInt8) (frames : List Bytes) (tail : Bytes) (total : ℕ) (s : RxChannel) : Prop :=
  ∃ n q todo, frames = s.extracted ++ todo ∧ RxInv value tail total n q todo s

/-- A prefix of a stream of frames starts with the command byte, unless it is too short to look at.
-/
theorem cmdOk_of_stream {q wire tail : Bytes} {todo : List Bytes} (htail : tail.length ≤ 3)
    (h : q ++ wire = hostFraming.encodeAll todo ++ tail) : CmdOk q := by
  intro hlong
  cases todo with
  | nil =>
    have hlen := congrArg List.length h
    simp only [Framing.encodeAll_nil, List.nil_append, List.length_append] at hlen
    omega
  | cons p todo =>
    match q, hlong with
    | c :: q, _ =>
      have hhead := congrArg List.head? h
      rw [Framing.encodeAll_cons, show hostFraming.encode p = dataFrame p from rfl,
        dataFrame_eq] at hhead
      simpa [cmdData] using hhead

/-- Once the configuration is received, the buffer and the wire hold whole frames. -/
theorem RxInv.stream_frames {value : UInt8} {tail q : Bytes} {total n : ℕ} {todo : List Bytes}
    {s : RxChannel} (h : RxInv value tail total n q todo s) (hq : q ≠ []) :
    q ++ s.wire = hostFraming.encodeAll todo ++ tail := by
  have hn : ¬ n < 2 := fun hn => hq (h.early hn)
  have hstream := h.stream
  rwa [List.drop_eq_nil_of_le (by simp; omega), List.nil_append] at hstream

/-- Under the invariant, the assertion on the command byte is not tripped. -/
theorem RxInv.cmdOk {value : UInt8} {tail q : Bytes} {total n : ℕ} {todo : List Bytes}
    {s : RxChannel} (h : RxInv value tail total n q todo s) (htail : tail.length ≤ 3) : CmdOk q := by
  intro hlong
  exact cmdOk_of_stream htail (h.stream_frames (by rintro rfl; simp at hlong)) hlong

/-- Of the bridge, the channel sees the receive buffer, the byte counter and the queued event. -/
theorem RxInv.congr {value : UInt8} {tail q : Bytes} {total n : ℕ} {todo : List Bytes}
    {s t : RxChannel} (h : RxInv value tail total n q todo s)
    (hbuf : t.phy.serialRxBuf = s.phy.serialRxBuf) (hcount : t.phy.pktCount = s.phy.pktCount)
    (hqueued : t.phy.recvPacketQueued = s.phy.recvPacketQueued) (hwire : t.wire = s.wire)
    (hin : t.inRecvPacket = s.inRecvPacket) : RxInv value tail total n q todo t where
  holds := hbuf ▸ h.holds
  capacity := hbuf ▸ h.capacity
  count := hcount ▸ h.count
  total_eq := hwire ▸ h.total_eq
  early := h.early
  stream := hwire ▸ h.stream
  todo_ok := h.todo_ok
  wake := hqueued ▸ hin ▸ h.wake

/-- The host writes one more frame. -/
theorem RxInv.write {value : UInt8} {q : Bytes} {total n : ℕ} {todo : List Bytes} {s : RxChannel}
    (h : RxInv value [] total n q todo s) {p : Bytes} (hp : HostPacket p) :
    RxInv value [] (total + (dataFrame p).length) n q (todo ++ [p])
      { s with wire := s.wire ++ dataFrame p } := by
  refine ⟨h.holds, h.capacity, h.count, ?_, h.early, ?_, ?_, h.wake⟩
  · rw [List.length_append, ← Nat.add_assoc, h.total_eq]
  · have hstream := h.stream
    rw [List.append_nil] at hstream ⊢
    rw [← List.append_assoc, hstream, List.append_assoc, Framing.encodeAll_append,
      Framing.encodeAll_cons, Framing.encodeAll_nil, List.append_nil]
    rfl
  · intro x hx
    rcases List.mem_append.mp hx with hold | hnew
    · exact h.todo_ok x hold
    · rwa [List.mem_singleton.mp hnew]

/-- The invariant holds at the start. -/
theorem rxSync_start (value : UInt8) (frames : List Bytes) (tail : Bytes)
    (hframes : ∀ p ∈ frames, HostPacket p) :
    RxSync value frames tail
      ([0xCC, value] ++ (hostFraming.encodeAll frames ++ tail)).length
      (RxChannel.start ([0xCC, value] ++ (hostFraming.encodeAll frames ++ tail))) :=
  ⟨0, [], frames, rfl, fifoCreate_holds 1024 (by decide), rfl, rfl, by simp [RxChannel.start],
    fun _ => rfl, by simp [RxChannel.start], hframes, by simp [headPacket]⟩

/-- **The reception of one byte** keeps the channel in step and trips no assertion. -/
theorem RxInv.uartRx {value byte : UInt8} {tail q wire : Bytes} {total n : ℕ} {todo : List Bytes}
    {s : RxChannel} (h : RxInv value tail total n q todo s) (htail : tail.length ≤ 3)
    (htotal : total ≤ 2 ^ 32) (hwire : s.wire = byte :: wire)
    (hfull : fifoGetSize s.phy.serialRxBuf ≠ 1024) :
    ∃ phy q', blePhyUartRxChar s.phy byte = .ok phy ∧ q'.length ≤ q.length + 1 ∧
      RxInv value tail total (n + 1) q' todo { s with wire := wire, phy := phy } := by
  have htot := h.total_eq
  have hstream := h.stream
  rw [hwire] at htot hstream
  simp only [List.length_cons] at htot
  -- `pkt_count` counts the bytes, and does not wrap before the wire is empty
  have hcount : (s.phy.pktCount + 1).toNat = (n + 1) % 2 ^ 32 := by
    rw [UInt32.toNat_add, h.count, show (1 : UInt32).toNat = 1 from rfl]
    omega
  have h1 : s.phy.pktCount + 1 = 1 ↔ n = 0 := by
    rw [← UInt32.toNat_inj, hcount, show (1 : UInt32).toNat = 1 from rfl]
    omega
  have h2 : s.phy.pktCount + 1 = 2 ↔ n = 1 := by
    rw [← UInt32.toNat_inj, hcount, show (2 : UInt32).toNat = 2 from rfl]
    omega
  by_cases hn0 : n = 0
  · -- the command byte of the configuration
    subst hn0
    obtain rfl := h.early (by omega)
    obtain ⟨rfl, hrest⟩ : byte = 0xCC ∧ wire = [value] ++ (hostFraming.encodeAll todo ++ tail) := by
      simpa using hstream
    refine ⟨_, [], blePhyUartRxChar_first (h1.mpr rfl), by simp, h.holds, h.capacity, hcount, ?_,
      fun _ => rfl, ?_, h.todo_ok, by simp [headPacket]⟩
    · show 1 + wire.length = total
      omega
    · simpa using hrest
  · by_cases hn1 : n = 1
    · -- the value byte of the configuration
      subst hn1
      obtain rfl := h.early (by omega)
      obtain ⟨-, hrest⟩ : byte = value ∧ wire = hostFraming.encodeAll todo ++ tail := by
        simpa using hstream
      refine ⟨_, [], blePhyUartRxChar_second byte (h2.mpr rfl), by simp, h.holds, h.capacity,
        hcount, ?_, fun _ => rfl, ?_, h.todo_ok, by simp [headPacket]⟩
      · show 2 + wire.length = total
        omega
      · simpa using hrest
    · -- a byte of a frame, or of what follows the last frame
      have hspace : q.length < fifoGetCapacity s.phy.serialRxBuf := by
        have hle := h.holds.length_le
        rw [h.holds.size_eq] at hfull
        rw [h.capacity] at hle ⊢
        omega
      have hstream' : (q ++ [byte]) ++ wire = hostFraming.encodeAll todo ++ tail := by
        rw [List.drop_eq_nil_of_le (by simp; omega), List.nil_append] at hstream
        rw [List.append_assoc, List.singleton_append]
        exact hstream
      have hstep := blePhyUartRxChar_later h.holds hspace (cmdOk_of_stream htail hstream')
        (fun he => hn0 (h1.mp he)) (fun he => hn1 (h2.mp he))
      refine ⟨_, q ++ [byte], hstep, by simp, fifoAddByte_holds h.holds hspace byte, h.capacity,
        hcount, ?_, fun hlt => absurd hlt (by omega), ?_, h.todo_ok, fun hhead => ?_⟩
      · show n + 1 + wire.length = total
        omega
      · rw [List.drop_eq_nil_of_le (by simp; omega)]
        exact hstream'
      · left
        simp [hhead]

/-- A byte of the line is handed to the interrupt handler. -/
theorem RxChannel.uartRx_eq {s : RxChannel} {byte : UInt8} {wire : Bytes} {phy : Phy}
    (hwire : s.wire = byte :: wire) (hstep : blePhyUartRxChar s.phy byte = .ok phy) :
    s.uartRx = .ok { s with wire := wire, phy := phy } := by
  rw [RxChannel.uartRx, hwire]
  show (blePhyUartRxChar s.phy byte >>= _) = _
  rw [hstep]
  rfl

/-- **One evaluation of the loop condition**: either the next packet of the stream is extracted
whole, or no packet is complete and `recv_packet` returns. -/
theorem RxInv.recvLoop {value : UInt8} {tail q : Bytes} {total n : ℕ} {todo : List Bytes}
    {s : RxChannel} (h : RxInv value tail total n q todo s) (htail : tail.length ≤ 3)
    (hin : s.inRecvPacket = true) :
    ∃ s' q' todo', s.recvLoop = .ok s' ∧ s.extracted ++ todo = s'.extracted ++ todo' ∧
      s'.work < s.work ∧ RxInv value tail total n q' todo' s' := by
  have hcmd := h.cmdOk htail
  have hleave : { s with inRecvPacket := false }.work < s.work := by
    simp [RxChannel.work, hin]
  by_cases hq : q = []
  · subst hq
    -- nothing in the buffer
    refine ⟨{ s with inRecvPacket := false }, [], todo, ?_, rfl, hleave,
      { h with wake := by simp [headPacket] }⟩
    rw [RxChannel.recvLoop, recvPacketRead_none h.holds hcmd rfl]
    rfl
  · have hstream := h.stream_frames hq
    rcases hostFraming.parse_stream h.todo_ok (hostFraming_silent htail) hstream with
      ⟨hnone, -, -, -⟩ | ⟨p, todo', rest, rfl, -, rfl, hrest⟩
    · -- less than a frame: the task leaves, and is woken by the byte that completes it
      refine ⟨{ s with inRecvPacket := false }, q, todo, ?_, rfl, hleave,
        { h with wake := fun hsome => ?_ }⟩
      · rw [RxChannel.recvLoop, recvPacketRead_none h.holds hcmd hnone]
        rfl
      · rw [show headPacket q = none from hnone] at hsome
        cases hsome
    · -- a frame, which is taken whole
      have hn : ¬ n < 2 := fun hn => hq (h.early hn)
      have hp : HostPacket p := h.todo_ok p List.mem_cons_self
      obtain ⟨f, hread, hf, hcap⟩ := recvPacketRead_some h.holds hp
      refine ⟨{ s with
          phy := { s.phy with serialRxBuf := f }
          extracted := s.extracted ++ [p] }, rest, todo', ?_, by simp, ?_, hf,
        hcap.trans h.capacity, h.count, h.total_eq, fun hlt => absurd hlt hn, ?_,
        fun x hx => h.todo_ok x (List.mem_cons_of_mem _ hx), fun _ => .inr hin⟩
      · rw [RxChannel.recvLoop, hread]
        rfl
      · have hsize := h.holds.size_eq
        rw [show hostFraming.encode p = dataFrame p from rfl, List.length_append,
          dataFrame_length] at hsize
        simp only [RxChannel.work, hf.size_eq, hsize]
        omega
      · rw [List.drop_eq_nil_of_le (by simp; omega)]
        exact hrest

/-- Every enabled event of the channel succeeds and keeps it in step. -/
theorem RxSync.step {value : UInt8} {frames : List Bytes} {tail : Bytes} {total : ℕ} {s : RxChannel}
    (htail : tail.length ≤ 3) (htotal : total ≤ 2 ^ 32) (h : RxSync value frames tail total s)
    (e : RxEvent) (hen : rxChannel.enabled s e) :
    ∃ s', rxChannel.step s e = .ok s' ∧ RxSync value frames tail total s' := by
  obtain ⟨n, q, todo, hframes, hinv⟩ := h
  cases e with
  | uartRx =>
    obtain ⟨hne, hfull⟩ := hen
    obtain ⟨byte, wire, hwire⟩ := List.exists_cons_of_ne_nil hne
    obtain ⟨phy, q', hstep, -, hinv'⟩ := hinv.uartRx htail htotal hwire hfull
    exact ⟨_, RxChannel.uartRx_eq hwire hstep, n + 1, q', todo, hframes, hinv'⟩
  | dequeue =>
    exact ⟨_, rfl, n, q, todo, hframes, { hinv with wake := fun _ => .inr rfl }⟩
  | recvLoop =>
    obtain ⟨s', q', todo', hstep, hsplit, -, hinv'⟩ := hinv.recvLoop htail hen
    exact ⟨s', hstep, n, q', todo', hframes.trans hsplit, hinv'⟩

/-- The invariant holds in every state of every run, and no event of a run fails. -/
theorem RxSync.run {value : UInt8} {frames : List Bytes} {tail : Bytes} {total : ℕ} {s : RxChannel}
    (htail : tail.length ≤ 3) (htotal : total ≤ 2 ^ 32) (h : RxSync value frames tail total s) :
    rxChannel.Safe s ∧ ∀ es t, rxChannel.Run s es t → RxSync value frames tail total t := by
  have hpres : ∀ s e t, RxSync value frames tail total s → rxChannel.enabled s e →
      rxChannel.step s e = .ok t → RxSync value frames tail total t := by
    intro s e t hs hen hstep
    obtain ⟨t', hstep', ht'⟩ := hs.step htail htotal e hen
    rw [hstep'] at hstep
    exact Except.ok.inj hstep ▸ ht'
  refine ⟨System.safe_of_invariant hpres (fun s e hs hen => ?_) h,
    fun es t hrun => hrun.invariant hpres h⟩
  obtain ⟨t, hstep, -⟩ := hs.step htail htotal e hen
  exact ⟨t, hstep⟩

/-! ## Progress -/

/-- With no event queued and the task idle, less than one frame is in the buffer, and all packets
are extracted when the wire is empty. -/
theorem RxInv.quiet {value : UInt8} {tail q : Bytes} {total n : ℕ} {todo : List Bytes}
    {s : RxChannel} (h : RxInv value tail total n q todo s) (htail : tail.length ≤ 3)
    (hqueued : s.phy.recvPacketQueued = false) (hin : s.inRecvPacket = false) :
    q.length < 1024 ∧ (s.wire = [] → todo = [] ∧ q = tail ∧ 2 ≤ n) := by
  -- a complete packet would have queued the event
  have hhead : headPacket q = none := by
    by_contra hsome
    have := h.wake (Option.isSome_iff_ne_none.mpr hsome)
    simp [hqueued, hin] at this
  by_cases hn : n < 2
  · -- the configuration is still being received
    obtain rfl := h.early hn
    refine ⟨by simp, fun hwire => ?_⟩
    have hlen := congrArg List.length h.stream
    rw [hwire] at hlen
    simp only [List.append_nil, List.length_nil, List.length_append, List.length_drop,
      List.length_cons] at hlen
    omega
  · have hstream := h.stream
    rw [List.drop_eq_nil_of_le (by simp; omega), List.nil_append] at hstream
    rcases hostFraming.parse_stream h.todo_ok (hostFraming_silent htail) hstream with
      ⟨-, hdone, hpre, hshort⟩ | ⟨p, todo', rest, -, hread, -, -⟩
    · refine ⟨?_, fun hwire => ?_⟩
      · cases todo with
        | nil =>
          have := (hpre rfl).length_le
          omega
        | cons p todo =>
          have hlt := hshort p rfl
          obtain ⟨-, hp⟩ := h.todo_ok p List.mem_cons_self
          rw [show hostFraming.encode p = dataFrame p from rfl, dataFrame_length] at hlt
          rw [rxBufSize] at hp
          omega
      · obtain rfl := hdone hwire
        rw [hwire, List.append_nil, Framing.encodeAll_nil, List.nil_append] at hstream
        exact ⟨rfl, hstream, by omega⟩
    · rw [show headPacket q = _ from hread] at hhead
      cases hhead

/-- Unless the channel is idle, some enabled event reduces the work left. -/
theorem RxSync.progress {value : UInt8} {frames : List Bytes} {tail : Bytes} {total : ℕ}
    {s : RxChannel} (htail : tail.length ≤ 3) (htotal : total ≤ 2 ^ 32)
    (h : RxSync value frames tail total s) (hidle : ¬ s.Idle) :
    ∃ e s', rxChannel.enabled s e ∧ rxChannel.step s e = .ok s' ∧ s'.work < s.work := by
  obtain ⟨n, q, todo, -, hinv⟩ := h
  by_cases hin : s.inRecvPacket = true
  · obtain ⟨s', -, -, hstep, -, hwork, -⟩ := hinv.recvLoop htail hin
    exact ⟨.recvLoop, s', hin, hstep, hwork⟩
  · rw [Bool.not_eq_true] at hin
    by_cases hqueued : s.phy.recvPacketQueued = true
    · refine ⟨.dequeue, _, ⟨hqueued, hin⟩, rfl, ?_⟩
      simp [RxChannel.work, hqueued, hin]
    · rw [Bool.not_eq_true] at hqueued
      have hshort := (hinv.quiet htail hqueued hin).1
      have hfull : fifoGetSize s.phy.serialRxBuf ≠ 1024 := by
        rw [hinv.holds.size_eq]
        omega
      have hne : s.wire ≠ [] := fun hwire => hidle ⟨hwire, hqueued, hin⟩
      obtain ⟨byte, wire, hwire⟩ := List.exists_cons_of_ne_nil hne
      obtain ⟨phy, q', hstep, hlen, hinv'⟩ := hinv.uartRx htail htotal hwire hfull
      refine ⟨.uartRx, _, ⟨hne, hfull⟩, RxChannel.uartRx_eq hwire hstep, ?_⟩
      have hsize : fifoGetSize phy.serialRxBuf = q'.length := hinv'.holds.size_eq
      have hbit := Bool.toNat_le phy.recvPacketQueued
      simp only [RxChannel.work, hsize, hinv.holds.size_eq, hwire, List.length_cons]
      omega

/-- **Every run can be continued until the channel is idle.** -/
theorem RxSync.drains {value : UInt8} {frames : List Bytes} {tail : Bytes} {total : ℕ}
    {s : RxChannel} (htail : tail.length ≤ 3) (htotal : total ≤ 2 ^ 32)
    (h : RxSync value frames tail total s) :
    ∃ es t, rxChannel.Run s es t ∧ t.Idle ∧ RxSync value frames tail total t := by
  induction hw : s.work using Nat.strong_induction_on generalizing s with
  | _ w ih =>
    by_cases hidle : s.Idle
    · exact ⟨[], s, .nil s, hidle, h⟩
    · obtain ⟨e, s', hen, hstep, hless⟩ := h.progress htail htotal hidle
      obtain ⟨s'', hstep', h'⟩ := h.step htail htotal e hen
      obtain rfl : s' = s'' := Except.ok.inj (hstep.symm.trans hstep')
      obtain ⟨es, t, hrun, ht⟩ := ih s'.work (hw ▸ hless) h' rfl
      exact ⟨[e] ++ es, t, (System.Run.single hen hstep).append hrun, ht⟩

/-- What the channel promises for the packets `sent`: no event of any run fails, the packets
extracted are a prefix of those sent, a complete frame is always announced, and an idle channel has
extracted everything. -/
structure RxDelivers (wire : Bytes) (sent : List Bytes) : Prop where
  safe : rxChannel.Safe (RxChannel.start wire)
  in_order : ∀ es s, rxChannel.Run (RxChannel.start wire) es s → s.extracted <+: sent
  announced : ∀ es s, rxChannel.Run (RxChannel.start wire) es s → ∀ p rest, HostPacket p →
    s.phy.serialRxBuf.contents = dataFrame p ++ rest →
      s.phy.recvPacketQueued = true ∨ s.inRecvPacket = true
  complete : ∀ es s, rxChannel.Run (RxChannel.start wire) es s → s.Idle → s.extracted = sent

/-- The promise holds for frames after a configuration, also when up to three stray bytes follow. -/
theorem rxDelivers_frames (value : UInt8) (frames : List Bytes) (tail : Bytes)
    (hframes : ∀ p ∈ frames, HostPacket p) (htail : tail.length ≤ 3)
    (hlen : ([0xCC, value] ++ (hostFraming.encodeAll frames ++ tail)).length ≤ 2 ^ 32) :
    RxDelivers ([0xCC, value] ++ (hostFraming.encodeAll frames ++ tail)) frames := by
  obtain ⟨hsafe, hall⟩ := (rxSync_start value frames tail hframes).run htail hlen
  refine ⟨hsafe, fun es s hrun => ?_, fun es s hrun p rest hp hcontents => ?_,
    fun es s hrun hidle => ?_⟩
  · obtain ⟨-, -, todo, hsplit, -⟩ := hall es s hrun
    exact ⟨todo, hsplit.symm⟩
  · obtain ⟨n, q, todo, -, hinv⟩ := hall es s hrun
    rw [hinv.holds.contents_eq] at hcontents
    refine hinv.wake ?_
    rw [hcontents, HostPacket.headPacket_dataFrame hp rest]
    rfl
  · obtain ⟨n, q, todo, hsplit, hinv⟩ := hall es s hrun
    obtain ⟨hwire, hqueued, hin⟩ := hidle
    obtain ⟨rfl, -⟩ := (hinv.quiet htail hqueued hin).2 hwire
    rw [hsplit, List.append_nil]

/-! ## Stray bytes between frames -/

/-- Bytes further down the wire do not change what one event does. -/
theorem rxChannel_step_extend {s t : RxChannel} {e : RxEvent} (more : Bytes)
    (hen : rxChannel.enabled s e) (h : rxChannel.step s e = .ok t) :
    rxChannel.step { s with wire := s.wire ++ more } e = .ok { t with wire := t.wire ++ more } := by
  cases e with
  | uartRx =>
    obtain ⟨byte, wire, hwire⟩ := List.exists_cons_of_ne_nil hen.1
    cases hstep : blePhyUartRxChar s.phy byte with
    | error f =>
      have hfail : s.uartRx = .error f := by
        rw [RxChannel.uartRx, hwire]
        exact congrArg (· >>= _) hstep
      cases hfail.symm.trans h
    | ok phy =>
      obtain rfl := Except.ok.inj ((RxChannel.uartRx_eq hwire hstep).symm.trans h)
      exact RxChannel.uartRx_eq (s := { s with wire := s.wire ++ more }) (by simp [hwire]) hstep
  | dequeue =>
    obtain rfl := Except.ok.inj h
    rfl
  | recvLoop =>
    have h' : s.recvLoop = .ok t := h
    show RxChannel.recvLoop _ = _
    rw [RxChannel.recvLoop] at h' ⊢
    match hread : recvPacketRead s.phy, h' with
    | .ok none, h' =>
      obtain rfl := Except.ok.inj h'
      rfl
    | .ok (some (pkt, phy)), h' =>
      obtain rfl := Except.ok.inj h'
      rfl

/-- Bytes further down the wire do not change what the events before them do. -/
theorem rxChannel_extend {s t : RxChannel} {es : List RxEvent} (more : Bytes)
    (h : rxChannel.Run s es t) :
    rxChannel.Run { s with wire := s.wire ++ more } es { t with wire := t.wire ++ more } := by
  induction h with
  | nil => exact .nil _
  | @snoc t u es e _ hen hstep ih =>
    refine .snoc ih ?_ (rxChannel_step_extend more hen hstep)
    cases e with
    | uartRx => exact ⟨by simp [hen.1], hen.2⟩
    | dequeue => exact hen
    | recvLoop => exact hen

/-- The fourth byte of a buffer that does not start with the command byte aborts the bridge. -/
theorem blePhyUartRxChar_stray {phy : Phy} {q : Bytes} {byte : UInt8}
    (h : phy.serialRxBuf.Holds q) (hspace : q.length < fifoGetCapacity phy.serialRxBuf)
    (hlong : 3 ≤ q.length) (hhead : q.head? ≠ some 0xA7) (h1 : phy.pktCount + 1 ≠ 1)
    (h2 : phy.pktCount + 1 ≠ 2) : blePhyUartRxChar phy byte = .error .notDataCmd := by
  have hnotFull : fifoIsFull phy.serialRxBuf = false := by
    rw [Bool.eq_false_iff, ne_eq, fifoIsFull_iff h]
    omega
  have hadd := fifoAddByte_holds h hspace byte
  have hpkt : fifoGetPktLen (fifoAddByte phy.serialRxBuf byte) = .error .notDataCmd := by
    match q, hlong, hhead with
    | c :: q, hlong, hhead =>
      simp only [List.length_cons] at hlong
      rw [fifoGetPktLen, hadd.size_eq, if_pos (by simp; omega), fifoPeek_eq hadd 0 (by simp)]
      rw [if_pos (by simpa using hhead)]
  simp only [blePhyUartRxChar, h1, h2, if_false, hnotFull, Bool.false_eq_true, hpkt]
  rfl

/-- **A configuration pair in the middle of the stream aborts the bridge.** Whatever frames come
before it, some run of the channel ends in a failed assertion two bytes after the pair. -/
theorem not_safe_of_stray (value v : UInt8) (frames : List Bytes)
    (hframes : ∀ p ∈ frames, HostPacket p) (x y : UInt8) (more : Bytes)
    (hlen : ([0xCC, value] ++ (hostFraming.encodeAll frames ++ [0xCC, v])).length + 2 ≤ 2 ^ 32) :
    ¬ rxChannel.Safe (RxChannel.start
      ([0xCC, value] ++ (hostFraming.encodeAll frames ++ [0xCC, v]) ++ x :: y :: more)) := by
  -- all frames can be extracted, which leaves the pair in the buffer
  have htail : [0xCC, v].length ≤ 3 := by simp
  have hstart := rxSync_start value frames [0xCC, v] hframes
  obtain ⟨es, t, hrun, ⟨hwire, hqueued, hin⟩, n, q, todo, -, hinv⟩ :=
    hstart.drains htail (by omega)
  obtain ⟨-, rfl, hn⟩ := (hinv.quiet htail hqueued hin).2 hwire
  have htot := hinv.total_eq
  rw [hwire, List.length_nil, Nat.add_zero] at htot
  have hcount := hinv.count
  have hrun' := rxChannel_extend (x :: y :: more) hrun
  rw [hwire, List.nil_append] at hrun'
  intro hsafe
  -- the next byte is stored
  have hspace : [0xCC, v].length < fifoGetCapacity t.phy.serialRxBuf := by
    rw [hinv.capacity]
    simp
  have hnum : ∀ k : UInt32, k.toNat = 1 ∨ k.toNat = 2 → t.phy.pktCount + 1 ≠ k := by
    intro k hk he
    rw [← UInt32.toNat_inj, UInt32.toNat_add, hcount, show (1 : UInt32).toNat = 1 from rfl] at he
    omega
  have hthird := @blePhyUartRxChar_later _ _ x hinv.holds hspace (fun h => absurd h (by simp))
    (hnum 1 (.inl rfl)) (hnum 2 (.inr rfl))
  set phy' : Phy := { t.phy with
    pktCount := t.phy.pktCount + 1
    serialRxBuf := fifoAddByte t.phy.serialRxBuf x
    recvPacketQueued := (headPacket ([0xCC, v] ++ [x])).isSome || t.phy.recvPacketQueued } with hphy'
  have hholds : phy'.serialRxBuf.Holds ([0xCC, v] ++ [x]) := fifoAddByte_holds hinv.holds hspace x
  have hcap : fifoGetCapacity phy'.serialRxBuf = 1024 := hinv.capacity
  have hen3 : rxChannel.enabled { t with wire := x :: y :: more } .uartRx :=
    ⟨by simp, by rw [hinv.holds.size_eq]; simp⟩
  have hrun3 := hrun'.snoc hen3
    (RxChannel.uartRx_eq (s := { t with wire := x :: y :: more }) rfl hthird)
  -- the one after it makes the driver look at the command byte
  obtain ⟨u, hstep⟩ := hsafe _ _ .uartRx hrun3 ⟨by simp, by rw [hholds.size_eq]; simp⟩
  have hnum' : ∀ k : UInt32, k.toNat = 1 ∨ k.toNat = 2 → phy'.pktCount + 1 ≠ k := by
    intro k hk he
    rw [hphy', ← UInt32.toNat_inj, UInt32.toNat_add, UInt32.toNat_add, hcount,
      show (1 : UInt32).toNat = 1 from rfl] at he
    omega
  have hfail := @blePhyUartRxChar_stray _ _ y hholds (by rw [hcap]; simp) (by simp) (by simp)
    (hnum' 1 (.inl rfl)) (hnum' 2 (.inr rfl))
  have herror : RxChannel.uartRx { t with wire := y :: more, phy := phy' } = .error .notDataCmd :=
    congrArg (· >>= _) hfail
  cases herror.symm.trans hstep

end BleFuzzer.Serial

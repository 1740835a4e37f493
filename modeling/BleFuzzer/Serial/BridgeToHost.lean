import BleFuzzer.Bridge.Tx
import BleFuzzer.Bridge.Uart
import BleFuzzer.Common.System
import BleFuzzer.Driver.Receive

/-!
# The serial channel from the bridge to the host

On the side of the bridge, calls of `ble_phy_tx` put frames into the transmit buffer and the UART
drains it byte by byte. On the side of the host, bytes arrive in chunks and `raw_receive` is called
again and again. The two systems meet in the stream of bytes between them: one writes a
concatenation of messages, and the other reads any such concatenation message by message.
-/

namespace BleFuzzer.Serial

open Bridge Driver

/-! ## Messages -/

/-- A message to the host. -/
inductive Message
  /-- A received packet. -/
  | data (evtLo evtHi : UInt8) (payload : Bytes) (checksum : UInt8)
  /-- A transmitted packet, to be logged. -/
  | dataTx (evtLo evtHi : UInt8) (payload : Bytes) (checksum : UInt8)
  /-- A line of the dongle's log. -/
  | log (payload : Bytes)
  /-- `NRF52_CMD_CHECKSUM_ERROR`, or a byte that is no command. -/
  | single (c : UInt8)
deriving Repr, DecidableEq

/-- The messages that can be told apart: lengths fit their two bytes, and a single byte starts no
longer message. -/
def Message.Ok : Message → Prop
  | .data _ _ payload _ | .dataTx _ _ payload _ | .log payload => payload.length < 65536
  | .single c => c ≠ cmdData ∧ c ≠ cmdDataTx ∧ c ≠ cmdLog

instance (m : Message) : Decidable m.Ok :=
  match m with
  | .data .. | .dataTx .. | .log _ => inferInstanceAs (Decidable (_ < _))
  | .single _ => inferInstanceAs (Decidable (_ ∧ _))

/-- The bytes of a message. -/
def Message.encode : Message → Bytes
  | .data evtLo evtHi payload checksum =>
    cmdData :: lenBytes payload.length ++ [evtLo, evtHi] ++ payload ++ [checksum]
  | .dataTx evtLo evtHi payload checksum =>
    cmdDataTx :: lenBytes payload.length ++ [evtLo, evtHi] ++ payload ++ [checksum]
  | .log payload => cmdLog :: lenBytes payload.length ++ payload
  | .single c => [c]

/-- What `raw_receive` is to return for a message: a received packet whose checksum is right. -/
def Message.value : Message → Option Bytes
  | .data _ _ payload checksum =>
    if byteSum payload &&& 0xFF = checksum.toNat then some payload else none
  | _ => none

/-- The stream of a list of messages. -/
def encodeMessages (messages : List Message) : Bytes := (messages.map Message.encode).flatten

@[simp] theorem encodeMessages_cons (m : Message) (messages : List Message) :
    encodeMessages (m :: messages) = m.encode ++ encodeMessages messages := by
  simp [encodeMessages]

/-- A message has at least its command byte. -/
theorem Message.encode_ne_nil (m : Message) : m.encode ≠ [] := by
  cases m <;> simp [Message.encode]

/-- Only no messages at all are no bytes. -/
theorem encodeMessages_eq_nil {messages : List Message} :
    encodeMessages messages = [] ↔ messages = [] := by
  cases messages with
  | nil => simp [encodeMessages]
  | cons m messages => simp [m.encode_ne_nil]

/-- Handling a packet leaves the port open. -/
theorem handleData_serialOpen (scapy : Scapy) (self : Nrf52) (c : UInt8) (evtCounter : ℕ)
    (data : Bytes) : (self.handleData scapy c evtCounter data).2.serialOpen = self.serialOpen := by
  rw [Nrf52.handleData]
  dsimp only
  split <;> split <;> rfl

/-- Only a received packet is returned. -/
theorem handleData_result (scapy : Scapy) (self : Nrf52) (c : UInt8) (evtCounter : ℕ)
    (data : Bytes) :
    (self.handleData scapy c evtCounter data).1 = if c = cmdDataTx then none else some data := by
  rw [Nrf52.handleData]
  dsimp only
  split <;> split <;> rfl

variable (scapy : Scapy)

/-- The two kinds of packet messages: read to the end, whatever the checksum. -/
theorem rawReceive_packet {self : Nrf52} {port : Port} (hopen : self.serialOpen = true)
    (hne : port.avail ≠ []) {c evtLo evtHi checksum : UInt8} {payload rest : Bytes}
    (hc : c = cmdData ∨ c = cmdDataTx) (hlen : payload.length < 65536)
    (h : port.stream =
      c :: lenBytes payload.length ++ [evtLo, evtHi] ++ payload ++ [checksum] ++ rest) :
    ∃ self' port', self.rawReceive scapy port =
        .ok (if byteSum payload &&& 0xFF = checksum.toNat ∧ c ≠ cmdDataTx then some payload else none,
          self', port') ∧
      self'.serialOpen = true ∧ port'.stream = rest := by
  simp only [lenBytes, List.cons_append, List.nil_append, List.append_assoc] at h
  obtain ⟨port₁, hcmd, h₁⟩ := readNow_stream h hne
  obtain ⟨port₂, hsize, h₂⟩ := readShort_stream h₁
  obtain ⟨port₃, hevent, h₃⟩ := readShort_stream h₂
  obtain ⟨port₄, hdata, h₄⟩ := read_stream h₃
  obtain ⟨port₅, hchecksum, h₅⟩ := readByte_stream h₄
  rw [lenValue_lenBytes _ hlen] at hsize
  rw [Nrf52.rawReceive, hopen]
  simp only [Bool.not_true, Bool.false_eq_true, if_false, hcmd, if_pos hc, hsize, hevent, hdata,
    hchecksum, bind, Except.bind]
  -- the message has been read to its end, whatever becomes of it
  by_cases hsum : byteSum payload &&& 0xFF = checksum.toNat
  · refine ⟨_, port₅, ?_, (handleData_serialOpen scapy self c (lenValue evtLo evtHi) payload).trans
      hopen, h₅⟩
    rw [if_pos hsum, handleData_result]
    by_cases htx : c = cmdDataTx <;> simp [htx, hsum, pure, Except.pure]
  · refine ⟨self, port₅, ?_, hopen, h₅⟩
    rw [if_neg hsum, if_neg fun hand => hsum hand.1]
    rfl

/-- **One call of `raw_receive` reads one message.** -/
theorem rawReceive_message {self : Nrf52} {port : Port} (hopen : self.serialOpen = true)
    (hne : port.avail ≠ []) {m : Message} {rest : Bytes} (hok : m.Ok)
    (h : port.stream = m.encode ++ rest) :
    ∃ self' port', self.rawReceive scapy port = .ok (m.value, self', port') ∧
      self'.serialOpen = true ∧ port'.stream = rest := by
  cases m with
  | data evtLo evtHi payload checksum =>
    obtain ⟨self', port', hread, hself, hport⟩ :=
      rawReceive_packet scapy hopen hne (.inl rfl) hok h
    refine ⟨self', port', ?_, hself, hport⟩
    rw [hread, Message.value]
    simp [cmdData, cmdDataTx]
  | dataTx evtLo evtHi payload checksum =>
    obtain ⟨self', port', hread, hself, hport⟩ :=
      rawReceive_packet scapy hopen hne (.inr rfl) hok h
    refine ⟨self', port', ?_, hself, hport⟩
    rw [hread, if_neg fun hand => hand.2 rfl]
    rfl
  | log payload =>
    simp only [Message.encode, lenBytes, List.cons_append, List.nil_append] at h
    obtain ⟨port₁, hcmd, h₁⟩ := readNow_stream h hne
    obtain ⟨port₂, hsize, h₂⟩ := readShort_stream h₁
    obtain ⟨port₃, hdata, h₃⟩ := read_stream h₂
    rw [lenValue_lenBytes _ hok] at hsize
    refine ⟨self, port₃, ?_, hopen, h₃⟩
    have hkind : ¬ (cmdLog = cmdData ∨ cmdLog = cmdDataTx) := by decide
    rw [Nrf52.rawReceive, hopen]
    simp only [Bool.not_true, Bool.false_eq_true, if_false, hcmd, if_neg hkind, if_true, hsize, hdata,
      bind, Except.bind]
    rfl
  | single c =>
    obtain ⟨hdata, hdataTx, hlog⟩ := hok
    obtain ⟨port₁, hcmd, h₁⟩ := readNow_stream h hne
    refine ⟨self, port₁, ?_, hopen, h₁⟩
    have hkind : ¬ (c = cmdData ∨ c = cmdDataTx) := not_or.mpr ⟨hdata, hdataTx⟩
    rw [Nrf52.rawReceive, hopen]
    simp only [Bool.not_true, Bool.false_eq_true, if_false, hcmd, if_neg hkind, if_neg hlog]
    rfl

/-- Without a byte at hand, `raw_receive` returns at once. -/
theorem rawReceive_nothing {self : Nrf52} {port : Port} (hopen : self.serialOpen = true)
    (hempty : port.avail = []) : self.rawReceive scapy port = .ok (none, self, port) := by
  obtain ⟨avail, coming⟩ := port
  subst hempty
  rw [Nrf52.rawReceive, hopen]
  rfl

/-! ## Incomplete messages -/

/-- A prefix of a concatenation that covers the first part. -/
theorem exists_of_prefix_append {β : Type*} {l pre rest : List β} (h : l <+: pre ++ rest)
    (hlen : pre.length ≤ l.length) : ∃ r, l = pre ++ r ∧ r <+: rest := by
  obtain ⟨r, rfl⟩ := List.prefix_of_prefix_length_le (List.prefix_append pre rest) h hlen
  exact ⟨r, rfl, (List.prefix_append_right_inj pre).mp h⟩

/-- Of a packet message, some byte is missing: one of the reads waits for it. -/
theorem rawReceive_packet_waiting {self : Nrf52} {port : Port} (hopen : self.serialOpen = true)
    (hne : port.avail ≠ []) {c evtLo evtHi checksum : UInt8} {payload : Bytes}
    (hc : c = cmdData ∨ c = cmdDataTx) (hlen : payload.length < 65536)
    (hpre : port.stream <+: [c] ++ (lenBytes payload.length ++ ([evtLo, evtHi] ++
      (payload ++ [checksum]))))
    (hpart : port.stream.length < payload.length + 6) :
    self.rawReceive scapy port = .error .waiting := by
  have hpos : 1 ≤ port.stream.length := by
    rw [Port.stream, List.length_append]
    have := List.length_pos_of_ne_nil hne
    omega
  obtain ⟨r₁, h₁, hpre₁⟩ := exists_of_prefix_append hpre hpos
  obtain ⟨port₁, hcmd, hstream₁⟩ := readNow_stream h₁ hne
  rw [Nrf52.rawReceive, hopen]
  simp only [Bool.not_true, Bool.false_eq_true, if_false, hcmd, if_pos hc, bind, Except.bind]
  -- the length
  by_cases hshort₁ : r₁.length < 2
  · rw [readShort_waiting (hstream₁ ▸ hshort₁)]
  obtain ⟨r₂, rfl, hpre₂⟩ := exists_of_prefix_append hpre₁ (Nat.not_lt.mp hshort₁)
  obtain ⟨port₂, hsize, hstream₂⟩ := readShort_stream hstream₁
  rw [lenValue_lenBytes _ hlen] at hsize
  simp only [hsize]
  -- the event counter
  by_cases hshort₂ : r₂.length < 2
  · rw [readShort_waiting (hstream₂ ▸ hshort₂)]
  obtain ⟨r₃, rfl, hpre₃⟩ := exists_of_prefix_append hpre₂ (Nat.not_lt.mp hshort₂)
  obtain ⟨port₃, hevent, hstream₃⟩ := readShort_stream hstream₂
  simp only [hevent]
  -- the payload
  by_cases hshort₃ : r₃.length < payload.length
  · rw [read_waiting (hstream₃ ▸ hshort₃)]
  obtain ⟨r₄, rfl, -⟩ := exists_of_prefix_append hpre₃ (Nat.not_lt.mp hshort₃)
  obtain ⟨port₄, hdata, hstream₄⟩ := read_stream (show port₃.stream = payload ++ r₄ from hstream₃)
  simp only [hdata]
  -- and the checksum
  have hnone : r₄ = [] := by
    rw [h₁] at hpart
    simp only [List.length_append, List.length_cons, List.length_nil, lenBytes] at hpart
    exact List.eq_nil_of_length_eq_zero (by omega)
  rw [readByte_waiting (hstream₄.trans hnone)]

/-! ## The host -/

/-- The driver, its port, and the results of `raw_receive` so far. -/
structure HostRx where
  driver : Nrf52
  port : Port
  results : List (Option Bytes)

inductive HostEvent
  /-- A chunk arrives between two calls. -/
  | arrive
  /-- `raw_receive` is called. -/
  | rawReceive

/-- The receiving host. -/
def hostSystem : System HostRx HostEvent PyErr where
  enabled s
    | .arrive => s.port.coming ≠ []
    | .rawReceive => True
  step s
    | .arrive => .ok { s with port := s.port.arrive }
    | .rawReceive => do
      let (result, driver, port) ← s.driver.rawReceive scapy s.port
      return { driver := driver, port := port, results := s.results ++ [result] }

/-- Some of the messages have been read, each of them as a whole, and the rest is still in the
stream. -/
structure ReadUpTo (messages : List Message) (s : HostRx) : Prop where
  serialOpen : s.driver.serialOpen = true
  split : ∃ done todo, messages = done ++ todo ∧ s.port.stream = encodeMessages todo ∧
    s.results.filterMap id = done.filterMap Message.value

variable {scapy} {messages : List Message}

/-- A call returns, and reads nothing if no byte is at hand, and else one message. -/
theorem ReadUpTo.rawReceive {s : HostRx} (h : ReadUpTo messages s) (hok : ∀ m ∈ messages, m.Ok) :
    ∃ t, (hostSystem scapy).step s .rawReceive = .ok t ∧ ReadUpTo messages t ∧
      (s.port.avail ≠ [] → t.port.stream.length < s.port.stream.length) := by
  obtain ⟨done, todo, hsplit, hstream, hresults⟩ := h.split
  by_cases hempty : s.port.avail = []
  · refine ⟨⟨s.driver, s.port, s.results ++ [none]⟩, ?_, ⟨h.serialOpen, done, todo, hsplit, hstream, ?_⟩,
      fun hne => absurd hempty hne⟩
    · show (s.driver.rawReceive scapy s.port >>= _) = _
      rw [rawReceive_nothing scapy h.serialOpen hempty]
      rfl
    · simpa using hresults
  · cases todo with
    | nil =>
      refine absurd ?_ hempty
      exact (List.append_eq_nil_iff.mp hstream).1
    | cons m todo =>
      rw [encodeMessages_cons] at hstream
      have hm : m.Ok := hok m (by rw [hsplit]; simp)
      obtain ⟨driver, port, hread, hopen, hport⟩ :=
        rawReceive_message scapy h.serialOpen hempty hm hstream
      refine ⟨⟨driver, port, s.results ++ [m.value]⟩, ?_, ⟨hopen, done ++ [m], todo, ?_, hport, ?_⟩,
        fun _ => ?_⟩
      · show (s.driver.rawReceive scapy s.port >>= _) = _
        rw [hread]
        rfl
      · rw [hsplit, List.append_assoc, List.singleton_append]
      · rw [List.filterMap_append, List.filterMap_append, hresults]
        rfl
      · have hpos := List.length_pos_of_ne_nil m.encode_ne_nil
        rw [hstream, hport, List.length_append]
        omega

/-- A chunk that arrives changes nothing about it. -/
theorem ReadUpTo.arrive {s : HostRx} (h : ReadUpTo messages s) :
    ReadUpTo messages { s with port := s.port.arrive } := by
  obtain ⟨done, todo, hsplit, hstream, hresults⟩ := h.split
  exact ⟨h.serialOpen, done, todo, hsplit, (arrive_stream s.port).trans hstream, hresults⟩

/-- One step keeps the messages whole, and no step fails or waits forever. -/
theorem ReadUpTo.step {s : HostRx} (h : ReadUpTo messages s) (hok : ∀ m ∈ messages, m.Ok)
    (e : HostEvent) : ∃ t, (hostSystem scapy).step s e = .ok t ∧ ReadUpTo messages t := by
  cases e with
  | arrive => exact ⟨_, rfl, h.arrive⟩
  | rawReceive =>
    obtain ⟨t, hstep, ht, -⟩ := h.rawReceive hok
    exact ⟨t, hstep, ht⟩

/-- In a run, the host reads messages and nothing else. -/
theorem ReadUpTo.run {s t : HostRx} {es : List HostEvent} (h : ReadUpTo messages s)
    (hok : ∀ m ∈ messages, m.Ok) (hrun : (hostSystem scapy).Run s es t) : ReadUpTo messages t := by
  refine hrun.invariant (fun u e v hu _ hstep => ?_) h
  obtain ⟨v', hstep', hv'⟩ := @ReadUpTo.step scapy _ _ hu hok e
  obtain rfl := Except.ok.inj (hstep.symm.trans hstep')
  exact hv'

/-- From any state of a run, enough arrivals and calls read the stream to its end. -/
theorem ReadUpTo.finish {s : HostRx} (h : ReadUpTo messages s) (hok : ∀ m ∈ messages, m.Ok) :
    ∃ es t, (hostSystem scapy).Run s es t ∧ t.port.stream = [] := by
  -- on the bytes left, and then on the chunks to come
  induction hn : s.port.stream.length using Nat.strong_induction_on generalizing s with
  | _ n ihn =>
    induction hc : s.port.coming generalizing s with
    | nil =>
      by_cases hempty : s.port.avail = []
      · exact ⟨[], s, .nil s, by rw [Port.stream, hempty, hc]; rfl⟩
      · obtain ⟨t, hstep, ht, hless⟩ := @ReadUpTo.rawReceive scapy _ _ h hok
        obtain ⟨es, u, hrun, hend⟩ := ihn _ (hn ▸ hless hempty) ht rfl
        exact ⟨_, u, (System.Run.single trivial hstep).append hrun, hend⟩
    | cons chunk coming ihc =>
      have hport : s.port.arrive = ⟨s.port.avail ++ chunk, coming⟩ := by
        rw [Port.arrive, hc]
      have hlength : s.port.arrive.stream.length = n := by rw [arrive_stream, hn]
      obtain ⟨es, u, hrun, hend⟩ := ihc h.arrive hlength (by rw [hport])
      have harrive : (hostSystem scapy).Run s [.arrive] { s with port := s.port.arrive } :=
        System.Run.single (by show s.port.coming ≠ []; rw [hc]; exact List.cons_ne_nil _ _) rfl
      exact ⟨_, u, harrive.append hrun, hend⟩

/-- What repeated calls of `raw_receive` do with a stream of messages: none fails or waits forever,
the stream is always at the start of a message, and once it is used up, which can always be reached,
exactly the packets expected have been returned. -/
structure Receives (scapy : Scapy) (s : HostRx) (messages : List Message) : Prop where
  safe : (hostSystem scapy).Safe s
  boundary : ∀ es t, (hostSystem scapy).Run s es t → ReadUpTo messages t
  complete : ∀ es t, (hostSystem scapy).Run s es t → t.port.stream = [] →
    t.results.filterMap id = messages.filterMap Message.value
  finishes : ∀ es t, (hostSystem scapy).Run s es t →
    ∃ es' u, (hostSystem scapy).Run t es' u ∧ u.port.stream = []

/-- A host that has not read anything yet, before a stream in any chunks. -/
structure Listens (s : HostRx) (stream : Bytes) : Prop where
  serialOpen : s.driver.serialOpen = true
  results : s.results = []
  stream : s.port.stream = stream

/-- **Any stream of messages is read message by message.** -/
theorem receives_messages (hok : ∀ m ∈ messages, m.Ok) {s : HostRx}
    (h : Listens s (encodeMessages messages)) : Receives scapy s messages := by
  have hstart : ReadUpTo messages s :=
    ⟨h.serialOpen, [], messages, rfl, h.stream, by rw [h.results]; rfl⟩
  refine ⟨fun es t e hrun _ => ?_, fun es t hrun => hstart.run hok hrun, fun es t hrun hend => ?_,
    fun es t hrun => (hstart.run hok hrun).finish hok⟩
  · obtain ⟨u, hstep, -⟩ := @ReadUpTo.step scapy _ _ (hstart.run hok hrun) hok e
    exact ⟨u, hstep⟩
  · obtain ⟨done, todo, hsplit, hleft, hread⟩ := (hstart.run hok hrun).split
    have htodo : todo = [] := encodeMessages_eq_nil.mp (hleft.symm.trans hend)
    rw [hread, hsplit, htodo, List.append_nil]

/-! ## The bridge -/

/-- The driver, the bytes drained so far, and the packets handed to the transmit buffer so far. -/
structure BridgeTx where
  phy : Phy
  line : Bytes
  pdus : List Bytes

inductive TxEvent
  | tx (hdrByte : UInt8) (payload : Bytes)
  | uartTxChar
  | setchan (chan : UInt8) (accessAddr : UInt32)
  | encryptEnable (key : Bytes)
  | encryptIvSet (iv : Bytes)
  | encryptCounterSet (counter : UInt64)
  | encryptDisable

/-- The transmitting bridge: calls of `ble_phy_tx` with a payload that fits its length byte and a
frame that fits the buffer, between the drains of the UART. -/
def txSystem (A : Aead 16 13 4) : System BridgeTx TxEvent Fault where
  enabled s
    | .tx hdrByte payload => (blePhyTxPayload A s.phy hdrByte payload).length ≤ 255 ∧
        fifoHasSpace s.phy.serialTxBuf
          (5 + (blePhyTxPacket A s.phy hdrByte payload).length + 1) = true
    | _ => True
  step s
    | .tx hdrByte payload => do
      let phy ← blePhyTx A s.phy hdrByte payload
      return { s with phy := phy, pdus := s.pdus ++ [blePhyTxPacket A s.phy hdrByte payload] }
    | .uartTxChar =>
      .ok { s with
        phy := (blePhyUartTxChar s.phy).2
        line := s.line ++ (blePhyUartTxChar s.phy).1.toList }
    | .setchan chan accessAddr => .ok { s with phy := blePhySetchan s.phy chan accessAddr }
    | .encryptEnable key => .ok { s with phy := blePhyEncryptEnable s.phy key }
    | .encryptIvSet iv => .ok { s with phy := blePhyEncryptIvSet s.phy iv }
    | .encryptCounterSet counter => .ok { s with phy := blePhyEncryptCounterSet s.phy counter }
    | .encryptDisable => .ok { s with phy := blePhyEncryptDisable s.phy }

instance (A : Aead 16 13 4) (s : BridgeTx) (e : TxEvent) : Decidable ((txSystem A).enabled s e) :=
  match e with
  | .tx _ _ => inferInstanceAs (Decidable (_ ∧ _))
  | .uartTxChar | .setchan _ _ | .encryptEnable _ | .encryptIvSet _ | .encryptCounterSet _
  | .encryptDisable => inferInstanceAs (Decidable True)

/-- The start of the program. -/
def BridgeTx.start : BridgeTx := ⟨blePhyInit, [], []⟩

/-- The bytes still to be drained. -/
def BridgeTx.buffered (s : BridgeTx) : Bytes := s.phy.serialTxBuf.contents

/-- Access address, header, length of the payload, payload, and three zero bytes. -/
def TxPdu (pdu : Bytes) : Prop :=
  ∃ accessAddress hdrByte length payload, length.toNat = payload.length ∧
    pdu = airPacket accessAddress hdrByte length payload ++ [0, 0, 0]

/-- The message of a packet of the bridge. -/
def pduMessage (pdu : Bytes) : Message := .data 0 0 pdu (checksum8 pdu)

/-- The drained and the buffered bytes are the frames of the packets. -/
structure TxInv (s : BridgeTx) : Prop where
  wf : s.phy.serialTxBuf.Wf
  stream : s.line ++ s.buffered = (s.pdus.map txFrame).flatten
  pdus : ∀ pdu ∈ s.pdus, TxPdu pdu

/-- The invariant holds at the start. -/
theorem txInv_start : TxInv .start :=
  ⟨(fifoCreate_holds 1024 (by decide)).wf, (fifoCreate_holds 1024 (by decide)).contents_eq,
    fun _ h => absurd h List.not_mem_nil⟩

variable {A : Aead 16 13 4}

/-- What `ble_phy_tx` sends is a packet for the UART, if its length fits the header. -/
theorem txPdu_blePhyTxPacket {phy : Phy} {hdrByte : UInt8} {payload : Bytes}
    (h : (blePhyTxPayload A phy hdrByte payload).length ≤ 255) :
    TxPdu (blePhyTxPacket A phy hdrByte payload) := by
  refine ⟨phy.phyAccessAddress, hdrByte, _, _, ?_, btlePacket_eq _ _ _⟩
  rw [UInt8.toNat_ofNat_of_lt' (show _ < 256 by omega)]

/-- **A call of `ble_phy_tx` adds one frame**, all of it. -/
theorem TxInv.tx {s : BridgeTx} (h : TxInv s) {hdrByte : UInt8} {payload : Bytes}
    (hen : (txSystem A).enabled s (.tx hdrByte payload)) :
    ∃ t, (txSystem A).step s (.tx hdrByte payload) = .ok t ∧ TxInv t ∧ t.line = s.line ∧
      t.buffered = s.buffered ++ txFrame (blePhyTxPacket A s.phy hdrByte payload) := by
  obtain ⟨hlen, hspace⟩ := hen
  have hpacket : (blePhyTxPacket A s.phy hdrByte payload).length ≤ txBufSize := by
    rw [blePhyTxPacket, btlePacket_length, txBufSize]
    omega
  obtain ⟨phy, htx⟩ := blePhyTx_of_space A hpacket hspace
  have hbuf : phy.serialTxBuf =
      fifoAddBuf s.phy.serialTxBuf (txFrame (blePhyTxPacket A s.phy hdrByte payload)) := by
    rw [(blePhyTx_ok A htx).2]
  have hfits := (fifoHasSpace_iff h.wf.holds _).mp (blePhyTx_ok A htx).1
  obtain ⟨hholds, -⟩ := fifoAddBuf_holds h.wf.holds _ hfits
  rw [← hbuf] at hholds
  refine ⟨⟨phy, s.line, s.pdus ++ [blePhyTxPacket A s.phy hdrByte payload]⟩, ?_,
    ⟨hholds.wf, ?_, ?_⟩, rfl, hholds.contents_eq⟩
  · show (blePhyTx A s.phy hdrByte payload >>= _) = _
    rw [htx]
    rfl
  · have hstream := h.stream
    rw [BridgeTx.buffered] at hstream ⊢
    rw [hholds.contents_eq, ← List.append_assoc, hstream]
    simp
  · intro pdu hpdu
    rcases List.mem_append.mp hpdu with hold | hnew
    · exact h.pdus pdu hold
    · rw [List.mem_singleton.mp hnew]
      exact txPdu_blePhyTxPacket hlen

/-- A drain moves the first buffered byte to the line. -/
theorem TxInv.uartTxChar_cons {s : BridgeTx} (h : TxInv s) {c : UInt8} {q : Bytes}
    (hbuffered : s.buffered = c :: q) :
    ∃ f : Fifo, blePhyUartTxChar s.phy = (some c, { s.phy with serialTxBuf := f }) ∧
      f.contents = q ∧ TxInv { s with
        phy := { s.phy with serialTxBuf := f }
        line := s.line ++ [c] } := by
  have hholds := h.wf.holds
  rw [show s.phy.serialTxBuf.contents = c :: q from hbuffered] at hholds
  obtain ⟨f, hnext, hq⟩ := blePhyUartTxChar_cons hholds
  refine ⟨f, hnext, hq.contents_eq, hq.wf, ?_, h.pdus⟩
  show (s.line ++ [c]) ++ f.contents = _
  rw [hq.contents_eq, ← h.stream, hbuffered, List.append_assoc, List.singleton_append]

/-- The interrupt handler takes a byte from the buffer to the line. -/
theorem TxInv.uartTxChar {s : BridgeTx} (h : TxInv s) :
    TxInv { s with
      phy := (blePhyUartTxChar s.phy).2
      line := s.line ++ (blePhyUartTxChar s.phy).1.toList } := by
  cases hbuffered : s.buffered with
  | nil =>
    have hholds := h.wf.holds
    rw [show s.phy.serialTxBuf.contents = [] from hbuffered] at hholds
    rw [blePhyUartTxChar_nil hholds]
    exact ⟨h.wf, by simpa [BridgeTx.buffered] using h.stream, h.pdus⟩
  | cons c q =>
    obtain ⟨f, hnext, -, hinv⟩ := h.uartTxChar_cons hbuffered
    rw [hnext]
    exact hinv

/-- **The buffer drains**: as many calls of the UART as there are buffered bytes put them all on the
line. -/
theorem TxInv.drains {s : BridgeTx} (h : TxInv s) :
    ∃ t, (txSystem A).Run s (List.replicate s.buffered.length .uartTxChar) t ∧
      t.line = s.line ++ s.buffered ∧ t.buffered = [] ∧ t.pdus = s.pdus := by
  induction hbuffered : s.buffered generalizing s with
  | nil => exact ⟨s, .nil s, (List.append_nil _).symm, hbuffered, rfl⟩
  | cons c q ih =>
    obtain ⟨f, hnext, hcontents, hinv⟩ := h.uartTxChar_cons hbuffered
    obtain ⟨t, hrun, hline, hend, hpdus⟩ := ih hinv hcontents
    have hstep : (txSystem A).step s .uartTxChar = .ok { s with
        phy := { s.phy with serialTxBuf := f }
        line := s.line ++ [c] } := by
      show Except.ok _ = _
      rw [hnext]
      rfl
    refine ⟨t, (System.Run.single trivial hstep).append hrun, ?_, hend, hpdus⟩
    rw [hline, List.append_assoc, List.singleton_append]

/-- One step keeps the invariant. -/
theorem TxInv.step {s t : BridgeTx} {e : TxEvent} (h : TxInv s) (hen : (txSystem A).enabled s e)
    (hstep : (txSystem A).step s e = .ok t) : TxInv t := by
  cases e with
  | tx hdrByte payload =>
    obtain ⟨u, hstep', hu, -⟩ := h.tx hen
    obtain rfl := Except.ok.inj (hstep.symm.trans hstep')
    exact hu
  | uartTxChar =>
    obtain rfl := Except.ok.inj hstep
    exact h.uartTxChar
  | setchan | encryptEnable | encryptIvSet | encryptCounterSet | encryptDisable =>
    obtain rfl := Except.ok.inj hstep
    exact ⟨h.wf, h.stream, h.pdus⟩

/-- The invariant holds in every run. -/
theorem TxInv.of_run {s : BridgeTx} {es : List TxEvent} (h : (txSystem A).Run .start es s) :
    TxInv s :=
  h.invariant (fun _ _ _ hinv hen hstep => hinv.step hen hstep) txInv_start

/-! ## Both sides -/

/-- The frame of a packet is a message whose checksum is right. -/
theorem pduMessage_spec (pdu : Bytes) :
    (pduMessage pdu).encode = txFrame pdu ∧ (pduMessage pdu).value = some pdu := by
  refine ⟨rfl, ?_⟩
  rw [pduMessage, Message.value, if_pos (checksum8_toNat pdu).symm]

/-- The messages of packets are their frames, and carry the packets. -/
theorem encodeMessages_pdus (pdus : List Bytes) :
    encodeMessages (pdus.map pduMessage) = (pdus.map txFrame).flatten ∧
      (pdus.map pduMessage).filterMap Message.value = pdus := by
  constructor
  · rw [encodeMessages, List.map_map]
    rfl
  · have hvalue : Message.value ∘ pduMessage = some := by
      funext pdu
      exact (pduMessage_spec pdu).2
    rw [List.filterMap_map, hvalue, List.filterMap_some]

/-- The message of such a packet is well formed. -/
theorem TxPdu.ok {pdu : Bytes} (h : TxPdu pdu) : (pduMessage pdu).Ok := by
  obtain ⟨accessAddress, hdrByte, length, payload, hlength, rfl⟩ := h
  have hlt := length.toNat_lt
  show (airPacket accessAddress hdrByte length payload ++ [0, 0, 0]).length < 65536
  rw [List.length_append, airPacket_length, show [(0 : UInt8), 0, 0].length = 3 from rfl]
  omega

/-- **From bridge to host.** In every run of the bridge, a call of `ble_phy_tx` adds its frame as a
whole, the UART drains what is buffered, and repeated calls of `raw_receive` on the bytes that are
drained return exactly the packets, in order, however the bytes arrive. And any stream of messages,
with right or wrong checksums, is read message by message. -/
theorem bridge_to_host (A : Aead 16 13 4) (scapy : Scapy) :
    (∀ es s, (txSystem A).Run .start es s →
      (∀ hdrByte payload, (txSystem A).enabled s (.tx hdrByte payload) →
        ∃ t, (txSystem A).step s (.tx hdrByte payload) = .ok t ∧ t.line = s.line ∧
          t.buffered = s.buffered ++ txFrame (blePhyTxPacket A s.phy hdrByte payload) ∧
          (txFrame (blePhyTxPacket A s.phy hdrByte payload)).length =
            6 + (blePhyTxPacket A s.phy hdrByte payload).length) ∧
      (∃ t, (txSystem A).Run s (List.replicate s.buffered.length .uartTxChar) t ∧
        t.line = s.line ++ s.buffered ∧ t.buffered = [] ∧ t.pdus = s.pdus) ∧
      (∀ pdu ∈ s.pdus, TxPdu pdu) ∧
      ((s.pdus.map pduMessage).filterMap Message.value = s.pdus ∧
        ∀ host, Listens host (s.line ++ s.buffered) →
          Receives scapy host (s.pdus.map pduMessage))) ∧
    (∀ messages : List Message, (∀ m ∈ messages, m.Ok) →
      ∀ host, Listens host (encodeMessages messages) → Receives scapy host messages) := by
  refine ⟨fun es s hrun => ?_, fun messages hok host hlistens => receives_messages hok hlistens⟩
  have hinv := TxInv.of_run hrun
  obtain ⟨hencode, hvalue⟩ := encodeMessages_pdus s.pdus
  refine ⟨fun hdrByte payload hen => ?_, hinv.drains, hinv.pdus, hvalue, fun host hlistens => ?_⟩
  · obtain ⟨t, hstep, -, hline, hbuffered⟩ := hinv.tx hen
    exact ⟨t, hstep, hline, hbuffered, txFrame_length _⟩
  · rw [hinv.stream, ← hencode] at hlistens
    refine receives_messages (fun m hm => ?_) hlistens
    obtain ⟨pdu, hpdu, rfl⟩ := List.mem_map.mp hm
    exact (hinv.pdus pdu hpdu).ok

/-- A host with an open port on which chunks are to arrive, and a Scapy that is not used. -/
def hostBefore (chunks : List Bytes) : HostRx :=
  ⟨⟨true, false, false, none, 0, 0, none, []⟩, ⟨[], chunks⟩, []⟩

def noScapy : Scapy := ⟨fun _ => [], fun _ => ⟨[]⟩, fun _ => ⟨[]⟩, fun _ => []⟩

/-- Two packets of the bridge, drained and then received in two chunks; and a log line, a packet
that looks like a command but has a wrong checksum, an error byte, and a packet, in one chunk. -/
theorem bridge_to_host_first :
    (∃ s : BridgeTx, s.buffered = [] ∧ s.pdus = [btlePacket 0 2 [5], btlePacket 0 1 [6, 7]] ∧
      s.line = txFrame (btlePacket 0 2 [5]) ++ txFrame (btlePacket 0 1 [6, 7]) ∧
      Receives noScapy (hostBefore [s.line.take 20, s.line.drop 20]) (s.pdus.map pduMessage)) ∧
    Receives noScapy
      (hostBefore [encodeMessages
        [.log [0xA7], .data 1 0 [0xA7, 3] 0, .single 0xA8, .data 2 0 [9] 9]])
      [.log [0xA7], .data 1 0 [0xA7, 3] 0, .single 0xA8, .data 2 0 [9] 9] := by
  have h := bridge_to_host (.byteSumTag 16 13 4) noScapy
  refine ⟨?_, h.2 _ (by decide) _ ⟨rfl, rfl, by decide⟩⟩
  have hexec : ((txSystem (.byteSumTag 16 13 4)).exec .start [.tx 2 [5], .tx 1 [6, 7]]).map
      (fun s => (s.pdus, s.line ++ s.buffered)) =
        some ([btlePacket 0 2 [5], btlePacket 0 1 [6, 7]],
          txFrame (btlePacket 0 2 [5]) ++ txFrame (btlePacket 0 1 [6, 7])) := by
    decide +kernel
  obtain ⟨s, hs, hsent⟩ := Option.map_eq_some_iff.mp hexec
  obtain ⟨hpdus, hstream⟩ := Prod.mk.inj hsent
  have hrun := System.Run.of_exec hs
  obtain ⟨t, hdrain, hline, hempty, hsame⟩ := (h.1 _ s hrun).2.1
  refine ⟨t, hempty, hsame.trans hpdus, hline.trans hstream, ?_⟩
  refine (h.1 _ t (hrun.append hdrain)).2.2.2.2 _ ⟨rfl, rfl, ?_⟩
  show [] ++ [t.line.take 20, t.line.drop 20].flatten = t.line ++ t.buffered
  rw [hempty, List.flatten_cons, List.flatten_singleton, List.take_append_drop, List.nil_append,
    List.append_nil]

end BleFuzzer.Serial

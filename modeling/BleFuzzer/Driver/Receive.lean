import BleFuzzer.Driver.Nrf52

/-!
# The serial driver of the mapper: receiving

`raw_receive` reads one command byte without blocking, and the rest of a message with blocking
reads. A port holds the bytes that have arrived, and the chunks in which the rest will arrive; a
blocking read takes in as many chunks as it needs.
-/

namespace BleFuzzer.Driver

/-- The receiving side of a serial port. -/
structure Port where
  avail : Bytes
  coming : List Bytes
deriving Repr, DecidableEq

/-- All bytes, read or not, in their order. -/
def Port.stream (port : Port) : Bytes := port.avail ++ port.coming.flatten

/-- The next chunk arrives. -/
def Port.arrive (port : Port) : Port :=
  match port.coming with
  | [] => port
  | chunk :: coming => { avail := port.avail ++ chunk, coming := coming }

/-- `self.serial.read(n)` with `timeout = 0`. -/
def Port.readNow (port : Port) (n : ℕ) : Bytes × Port :=
  (port.avail.take n, { port with avail := port.avail.drop n })

/-- `self.serial.read(n)` with `timeout = None`, over the chunks that will arrive. -/
def readBlocking (n : ℕ) (avail : Bytes) : List Bytes → Except PyErr (Bytes × Port)
  | [] => if n ≤ avail.length then .ok (avail.take n, ⟨avail.drop n, []⟩) else .error .waiting
  | chunk :: coming =>
    if n ≤ avail.length then
      .ok (avail.take n, ⟨avail.drop n, chunk :: coming⟩)
    else
      readBlocking n (avail ++ chunk) coming

def Port.read (port : Port) (n : ℕ) : Except PyErr (Bytes × Port) :=
  readBlocking n port.avail port.coming

/-- `ord(self.serial.read(1))`. -/
def Port.readByte (port : Port) : Except PyErr (UInt8 × Port) := do
  let (data, port) ← port.read 1
  return (data.headD 0, port)

/-- Two calls of `ord(self.serial.read(1))` and their combination `lb | (hb << 8)`. -/
def Port.readShort (port : Port) : Except PyErr (ℕ × Port) := do
  let (lb, port) ← port.readByte
  let (hb, port) ← port.readByte
  return (lenValue lb hb, port)

/-- What `raw_receive` does with the data of a message whose checksum is right, and what it returns.
-/
def Nrf52.handleData (scapy : Scapy) (self : Nrf52) (c : UInt8) (evtCounter : ℕ) (data : Bytes) :
    Option Bytes × Nrf52 :=
  let self := { self with eventCounter := evtCounter }
  let (retData, nFlags, self) : Option Bytes × ℕ × Nrf52 :=
    if c = cmdDataTx then
      (none, 0x03, { self with sentPkt := some data })
    else
      (some data, 0x01, self)
  if self.logsPcap then
    let entry := { board := 75, protocol := 2, flags := nFlags, pkt := scapy.btle data }
    (retData, { self with packetsBuffer := self.packetsBuffer ++ [entry] })
  else
    (retData, self)

/-- `NRF52.raw_receive`. -/
def Nrf52.rawReceive (scapy : Scapy) (self : Nrf52) (port : Port) :
    Except PyErr (Option Bytes × Nrf52 × Port) := do
  if !self.serialOpen then
    throw .portNotOpen
  else
    let (c, port) := port.readNow 1
    match c with
    | [] => return (none, self, port)
    | c :: _ =>
      if c = cmdData ∨ c = cmdDataTx then
        let (sz, port) ← port.readShort
        let (evtCounter, port) ← port.readShort
        let (data, port) ← port.read sz
        let (checksum, port) ← port.readByte
        if byteSum data &&& 0xFF = checksum.toNat then
          let (retData, self) := self.handleData scapy c evtCounter data
          return (retData, self, port)
        else
          return (none, self, port)
      else if c = cmdLog then
        let (sz, port) ← port.readShort
        let (_, port) ← port.read sz
        return (none, self, port)
      else
        -- `NRF52_CMD_CHECKSUM_ERROR` is only printed, and any other byte is ignored
        return (none, self, port)

/-! ## Reads in terms of the stream -/

@[simp] theorem arrive_stream (port : Port) : port.arrive.stream = port.stream := by
  obtain ⟨avail, coming⟩ := port
  cases coming with
  | nil => rfl
  | cons chunk coming => simp [Port.arrive, Port.stream]

/-- A blocking read takes what is next in the stream, however it arrives. -/
theorem read_stream {port : Port} {data rest : Bytes} (h : port.stream = data ++ rest) :
    ∃ port', port.read data.length = .ok (data, port') ∧ port'.stream = rest := by
  obtain ⟨avail, coming⟩ := port
  rw [Port.stream] at h
  rw [Port.read]
  show ∃ port', readBlocking data.length avail coming = .ok (data, port') ∧ port'.stream = rest
  dsimp only at h
  -- with enough bytes at hand, the rest is left
  have hready : ∀ avail : Bytes, ∀ coming : List Bytes, avail ++ coming.flatten = data ++ rest →
      data.length ≤ avail.length →
      avail.take data.length = data ∧ (⟨avail.drop data.length, coming⟩ : Port).stream = rest := by
    intro avail coming h hlen
    have htake : avail.take data.length = data := by
      have := congrArg (List.take data.length) h
      rwa [List.take_append_of_le_length hlen, List.take_left] at this
    refine ⟨htake, ?_⟩
    have := congrArg (List.drop data.length) h
    rwa [List.drop_append_of_le_length hlen, List.drop_left] at this
  induction coming generalizing avail with
  | nil =>
    have hlen : data.length ≤ avail.length := by
      have := congrArg List.length h
      simp only [List.flatten_nil, List.append_nil, List.length_append] at this
      omega
    obtain ⟨htake, hstream⟩ := hready avail [] h hlen
    exact ⟨_, by rw [readBlocking, if_pos hlen, htake], hstream⟩
  | cons chunk coming ih =>
    by_cases hlen : data.length ≤ avail.length
    · obtain ⟨htake, hstream⟩ := hready avail (chunk :: coming) h hlen
      exact ⟨_, by rw [readBlocking, if_pos hlen, htake], hstream⟩
    · rw [readBlocking, if_neg hlen]
      exact ih (avail ++ chunk) (by simpa using h)

/-- A byte that is there is read, whatever the chunks it comes in. -/
theorem readByte_stream {port : Port} {b : UInt8} {rest : Bytes} (h : port.stream = b :: rest) :
    ∃ port', port.readByte = .ok (b, port') ∧ port'.stream = rest := by
  obtain ⟨port', hread, hrest⟩ := @read_stream _ [b] _ h
  refine ⟨port', ?_, hrest⟩
  rw [Port.readByte, show (1 : ℕ) = [b].length from rfl, hread]
  rfl

/-- A length field is read back. -/
theorem readShort_stream {port : Port} {lb hb : UInt8} {rest : Bytes}
    (h : port.stream = lb :: hb :: rest) :
    ∃ port', port.readShort = .ok (lenValue lb hb, port') ∧ port'.stream = rest := by
  obtain ⟨port₁, hlow, hrest₁⟩ := readByte_stream h
  obtain ⟨port₂, hhigh, hrest₂⟩ := readByte_stream hrest₁
  refine ⟨port₂, ?_, hrest₂⟩
  rw [Port.readShort, hlow]
  show (port₁.readByte >>= _) = _
  rw [hhigh]
  rfl

/-- When a byte has arrived, the first read takes it. -/
theorem readNow_stream {port : Port} {c : UInt8} {rest : Bytes} (h : port.stream = c :: rest)
    (hne : port.avail ≠ []) :
    ∃ port', port.readNow 1 = ([c], port') ∧ port'.stream = rest := by
  obtain ⟨avail, coming⟩ := port
  cases avail with
  | nil => exact absurd rfl hne
  | cons b avail =>
    obtain ⟨rfl, hrest⟩ := List.cons.inj h
    exact ⟨⟨avail, coming⟩, rfl, hrest⟩

/-! ## Reads that wait -/

/-- A blocking read of more bytes than will arrive does not return. -/
theorem read_waiting {port : Port} {n : ℕ} (h : port.stream.length < n) :
    port.read n = .error .waiting := by
  obtain ⟨avail, coming⟩ := port
  rw [Port.stream] at h
  rw [Port.read]
  dsimp only at h ⊢
  induction coming generalizing avail with
  | nil =>
    rw [List.flatten_nil, List.append_nil] at h
    rw [readBlocking, if_neg (Nat.not_le.mpr h)]
  | cons chunk coming ih =>
    have hshort : ¬ n ≤ avail.length := by
      rw [List.length_append] at h
      omega
    rw [readBlocking, if_neg hshort]
    exact ih (avail ++ chunk) (by simpa using h)

/-- Without bytes, reading one waits. -/
theorem readByte_waiting {port : Port} (h : port.stream = []) :
    port.readByte = .error .waiting := by
  rw [Port.readByte, read_waiting (by rw [h]; exact Nat.one_pos)]
  rfl

/-- With fewer than two bytes, reading a short waits. -/
theorem readShort_waiting {port : Port} (h : port.stream.length < 2) :
    port.readShort = .error .waiting := by
  rw [Port.readShort]
  cases hstream : port.stream with
  | nil =>
    rw [readByte_waiting hstream]
    rfl
  | cons b rest =>
    obtain ⟨port', hread, hrest⟩ := readByte_stream hstream
    rw [hstream, List.length_cons] at h
    have hnone : port'.stream = [] := hrest.trans (List.eq_nil_of_length_eq_zero (by omega))
    rw [hread]
    show (port'.readByte >>= _) = _
    rw [readByte_waiting hnone]
    rfl

end BleFuzzer.Driver

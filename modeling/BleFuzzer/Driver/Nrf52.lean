import BleFuzzer.Scapy.Packet

/-!
# The serial driver of the mapper: sending

`NRF52_Driver.py` without its receive path. A method returns the object it leaves and the bytes it
writes to the serial port, or the exception it raises.
-/

namespace BleFuzzer.Driver

/-- The exceptions the mapper and its driver raise. -/
inductive PyErr
  | runtimeError (message : String)
  | valueError
  | indexError
  | attributeError
  | structError
  | portNotOpen
  | recursionError
  /-- Not an exception: the call has not returned, and waits for its environment. -/
  | waiting
deriving Repr, DecidableEq

def cmdData : UInt8 := 0xA7
def cmdDataTx : UInt8 := 0xBB
def cmdConfigLogTx : UInt8 := 0xCC
def cmdLog : UInt8 := 0x7F

/-- A packet in the capture buffer, under its `NORDIC_BLE` header. -/
structure NordicBle where
  board : ℕ
  protocol : ℕ
  flags : ℕ
  pkt : Pkt

/-- An `NRF52` object. -/
structure Nrf52 where
  serialOpen : Bool
  nDebug : Bool
  logsPcap : Bool
  resetCmd : Option String
  pcapTxHandover : UInt8
  eventCounter : ℕ
  sentPkt : Option Bytes
  packetsBuffer : List NordicBle

/-- `self.serial.write(data)`. -/
def Nrf52.write (self : Nrf52) (data : Bytes) : Except PyErr Bytes :=
  if self.serialOpen then .ok data else .error .portNotOpen

/-- `pkt[:-3]`: the packet without its CRC. -/
def cutCrc (pkt : Bytes) : Bytes := pkt.take (pkt.length - 3)

/-- Cutting the CRC off leaves the packet. -/
theorem cutCrc_append (p : Bytes) {crc : Bytes} (hcrc : crc.length = 3) :
    cutCrc (p ++ crc) = p := by
  rw [cutCrc, List.length_append, hcrc, Nat.add_sub_cancel, List.take_left]

/-- The frame `raw_send` writes for the packet bytes left after cutting the CRC. -/
def dataFrame (rawPkt : Bytes) : Bytes :=
  cmdData :: lenBytes rawPkt.length ++ rawPkt ++ [UInt8.ofNat (byteSum rawPkt &&& 0xFF)]

/-- `NRF52.raw_send`. -/
def Nrf52.rawSend (self : Nrf52) (pkt : Bytes) : Except PyErr Bytes :=
  self.write (dataFrame (cutCrc pkt))

/-- What `raw_send` writes, if it does not raise. -/
theorem Nrf52.rawSend_eq {self : Nrf52} {pkt data : Bytes} (h : self.rawSend pkt = .ok data) :
    data = dataFrame (cutCrc pkt) := by
  rw [Nrf52.rawSend, Nrf52.write] at h
  split at h
  case isTrue => exact (Except.ok.inj h).symm
  case isFalse => cases h

/-- `NRF52.send`. -/
def Nrf52.send (scapy : Scapy) (self : Nrf52) (pkt : Pkt) : Except PyErr (Nrf52 × Bytes) := do
  let data ← self.rawSend (scapy.raw pkt)
  if self.logsPcap && self.pcapTxHandover == 0 then
    let entry := { board := 75, protocol := 2, flags := 0x3, pkt := pkt }
    return ({ self with packetsBuffer := self.packetsBuffer ++ [entry] }, data)
  else
    return (self, data)

/-- What `send` writes, if it does not raise. -/
theorem Nrf52.send_eq {scapy : Scapy} {self driver : Nrf52} {pkt : Pkt} {data : Bytes}
    (h : self.send scapy pkt = .ok (driver, data)) : data = dataFrame (cutCrc (scapy.raw pkt)) := by
  rw [Nrf52.send] at h
  cases hraw : self.rawSend (scapy.raw pkt) with
  | error e =>
    rw [hraw] at h
    cases h
  | ok data' =>
    rw [hraw] at h
    rw [← Nrf52.rawSend_eq hraw]
    change (if _ then _ else _) = Except.ok _ at h
    split at h
    · exact (Prod.mk.inj (Except.ok.inj h)).2.symm
    · exact (Prod.mk.inj (Except.ok.inj h)).2.symm

/-- On an open port, `send` writes one frame. -/
theorem Nrf52.send_open (scapy : Scapy) {self : Nrf52} (pkt : Pkt) (h : self.serialOpen = true) :
    ∃ driver, driver.serialOpen = true ∧
      self.send scapy pkt = .ok (driver, dataFrame (cutCrc (scapy.raw pkt))) := by
  have hraw : self.rawSend (scapy.raw pkt) = .ok (dataFrame (cutCrc (scapy.raw pkt))) := by
    rw [Nrf52.rawSend, Nrf52.write, if_pos h]
  rw [Nrf52.send, hraw]
  by_cases hpcap : (self.logsPcap && self.pcapTxHandover == 0) = true
  · refine ⟨{ self with packetsBuffer := self.packetsBuffer ++ [⟨75, 2, 0x3, pkt⟩] }, h, ?_⟩
    exact if_pos hpcap
  · refine ⟨self, h, ?_⟩
    exact if_neg hpcap

/-- `NRF52.set_log_tx`. -/
def Nrf52.setLogTx (self : Nrf52) (value : UInt8) : Except PyErr (Nrf52 × Bytes) := do
  let data ← self.write [cmdConfigLogTx, value]
  return ({ self with pcapTxHandover := value }, data)

/-- `NRF52.__init__`, with the port it opens. -/
def Nrf52.init (debug logsPcap : Bool) (resetCmd : Option String) : Except PyErr (Nrf52 × Bytes) :=
  Nrf52.setLogTx
    { serialOpen := true, nDebug := debug, logsPcap := logsPcap, resetCmd := resetCmd,
      pcapTxHandover := 0, eventCounter := 0, sentPkt := none, packetsBuffer := [] } 0

/-- One pass of the loop of `reset_device`: the status `os.system` returns for the reset command,
and whether the port can be opened after it. -/
structure ResetAttempt where
  status : ℕ
  opened : Bool

/-- The loop of `NRF52.reset_device`, over the passes the environment offers. -/
def Nrf52.resetLoop (self : Nrf52) : List ResetAttempt → Except PyErr (Nrf52 × Bytes)
  | [] => .error .waiting
  | attempt :: attempts =>
    if attempt.status >>> 8 ≠ 0 then
      .error (.runtimeError "Device reset failed")
    else if attempt.opened then
      { self with serialOpen := true }.setLogTx 0
    else
      self.resetLoop attempts

/-- `NRF52.close`. -/
def Nrf52.close (self : Nrf52) : Nrf52 := { self with serialOpen := false }

/-- The object when `reset_device` has closed the port. -/
def Nrf52.closeForReset (self : Nrf52) : Nrf52 := if self.resetCmd.isSome then self.close else self

/-- `NRF52.reset_device`. -/
def Nrf52.resetDevice (self : Nrf52) (attempts : List ResetAttempt) :
    Except PyErr (Nrf52 × Bytes) :=
  match self.resetCmd with
  | none => .ok (self, [])
  | some _ => self.close.resetLoop attempts

/-- `NRF52.save_pcap`, with the packets it writes to the file, if it writes one. -/
def Nrf52.savePcap (self : Nrf52) : Nrf52 × Option (List NordicBle) :=
  if self.logsPcap then ({ self with packetsBuffer := [] }, some self.packetsBuffer) else (self, none)

/-! ## The driver between two calls -/

/-- A driver that captures nothing, with the log setting of the constructor. -/
structure Nrf52.IsIdle (d : Nrf52) : Prop where
  logsPcap : d.logsPcap = false
  pcapTxHandover : d.pcapTxHandover = 0

/-- Whether a driver is idle does not depend on the port. -/
theorem Nrf52.IsIdle.of_close_eq {d d' : Nrf52} (h : d.IsIdle) (hclose : d'.close = d.close) :
    d'.IsIdle :=
  ⟨(congrArg Nrf52.logsPcap hclose).trans h.logsPcap,
    (congrArg Nrf52.pcapTxHandover hclose).trans h.pcapTxHandover⟩

/-- Closing the port for a reset changes nothing else. -/
theorem Nrf52.closeForReset_close (self : Nrf52) : self.closeForReset.close = self.close := by
  rw [Nrf52.closeForReset]
  split <;> rfl

/-- Two drivers that differ at most in their ports, and not in whether these are open. -/
theorem Nrf52.eq_of_close_eq {d d' : Nrf52} (hclose : d.close = d'.close)
    (hopen : d.serialOpen = d'.serialOpen) : d = d' := by
  cases d
  cases d'
  simp only [Nrf52.close, Nrf52.mk.injEq] at hclose hopen ⊢
  exact ⟨hopen, hclose.2⟩

/-- Nothing is sent on a closed port. -/
theorem Nrf52.rawSend_isOpen {self : Nrf52} {pkt data : Bytes} (h : self.rawSend pkt = .ok data) :
    self.serialOpen = true := by
  rw [Nrf52.rawSend, Nrf52.write] at h
  split at h
  case isTrue hopen => exact hopen
  case isFalse => cases h

/-- A packet can only be sent on an open port. -/
theorem Nrf52.send_isOpen {scapy : Scapy} {self d : Nrf52} {pkt : Pkt} {data : Bytes}
    (h : self.send scapy pkt = .ok (d, data)) : self.serialOpen = true := by
  rw [Nrf52.send] at h
  cases hraw : self.rawSend (scapy.raw pkt) with
  | error e =>
    rw [hraw] at h
    cases h
  | ok data' => exact Nrf52.rawSend_isOpen hraw

/-- `send` leaves an idle driver as it is. -/
theorem Nrf52.IsIdle.send {scapy : Scapy} {self d : Nrf52} {pkt : Pkt} {data : Bytes}
    (hidle : self.IsIdle) (h : self.send scapy pkt = .ok (d, data)) : d = self := by
  have hraw : self.rawSend (scapy.raw pkt) = .ok (dataFrame (cutCrc (scapy.raw pkt))) := by
    rw [Nrf52.rawSend, Nrf52.write, if_pos (Nrf52.send_isOpen h)]
  rw [Nrf52.send, hraw, hidle.logsPcap] at h
  exact (Prod.mk.inj (Except.ok.inj h)).1.symm

/-- The configuration of an idle driver, sent once more on an opened port, changes nothing else. -/
theorem Nrf52.IsIdle.resetLoop {self d : Nrf52} {attempts : List ResetAttempt} {data : Bytes}
    (hidle : self.IsIdle) (h : self.resetLoop attempts = .ok (d, data)) : d.close = self.close := by
  induction attempts with
  | nil => cases h
  | cons attempt attempts ih =>
    rw [Nrf52.resetLoop] at h
    split at h
    case isTrue => cases h
    case isFalse =>
      split at h
      case isTrue =>
        rw [← (Prod.mk.inj (Except.ok.inj h)).1, Nrf52.close, Nrf52.close, hidle.pcapTxHandover]
      case isFalse => exact ih h

/-- `reset_device` leaves an idle driver as it is, up to the port. -/
theorem Nrf52.IsIdle.resetDevice {self d : Nrf52} {attempts : List ResetAttempt} {data : Bytes}
    (hidle : self.IsIdle) (h : self.resetDevice attempts = .ok (d, data)) : d.close = self.close := by
  rw [Nrf52.resetDevice] at h
  split at h
  · rw [(Prod.mk.inj (Except.ok.inj h)).1]
  · exact @Nrf52.IsIdle.resetLoop self.close d attempts data ⟨hidle.logsPcap, hidle.pcapTxHandover⟩ h

end BleFuzzer.Driver

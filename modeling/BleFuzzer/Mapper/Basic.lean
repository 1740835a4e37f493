import BleFuzzer.Common.Aead
import BleFuzzer.Common.Exec
import BleFuzzer.Driver.Nrf52
import BleFuzzer.Scapy.Wire
import Mathlib.Data.Stream.Init

/-!
# The state of the mapper

The fields of a `BLESUL` object, the environment its calls consult, and the programs over both.
Times are integer microseconds.

The log records what a test does to the outside world, and the calls and console messages by which a
statement refers to a place in the source.
-/

namespace BleFuzzer.Mapper

open Driver

/-- The keys of `BLESUL.packets`. -/
inductive InputSymbol
  | llAdvInd | llAdvScanReq | llAdvScanRsp | llAdvConnectInd
  | llData
  | llCtrlTerminateInd | llCtrlEncReq | llCtrlEncRsp | llCtrlStartEncReq | llCtrlStartEncRsp
  | llCtrlUnknownRsp | llCtrlFeatureReq | llCtrlFeatureRsp | llCtrlPauseEncReq | llCtrlPauseEncRsp
  | llCtrlVersionInd | llCtrlRejectInd | llCtrlPeripheralFeatureReq | llCtrlRejectExtInd
  | llCtrlLengthReq | llCtrlLengthRsp | llCtrlPhyReq | llCtrlPhyRsp | llCtrlPhyUpdateInd
  | l2capConnectionParameterUpdateReq
  | smPairingReq | smPairingReqSc | smPairingRsp | smConfirm | smRandom | smFailed
  | smEncryptionInformation | smCentralIdentification | smIdentityInformation
  | smIdentityAddressInformation | smSigningInformation | smPublicKey | smDhkeyCheck
  | attErrorRsp | attExchangeMtuReq | attExchangeMtuRsp | attReadByTypeReq | attReadByTypeRsp
  | attReadByGroupTypeReq | attReadByGroupTypeRsp | attReadReq | attReadRsp
deriving Repr, DecidableEq

/-- A `BLESUL` object. The fields from `centralAddress` on are created by `reset`; until then
`accessAddress` is `none`. -/
structure Blesul where
  driver : Nrf52
  peripheralAddress : Addr
  peripheralAddressIsRand : ℕ
  centralAddressIsRand : ℕ
  recvSMin : ℤ
  recvSMax : ℤ
  outputSymbolFilters : List Text
  isRetryRunning : Bool
  lastDeviceResetTime : ℤ
  testStartTime : ℤ
  resetBreaks : List (ℤ × ℤ)
  /-- The lookup table of `output_symbol`, latest entries first. -/
  symbols : Option (List (Text × Text))
  centralAddress : Addr
  accessAddress : Option UInt32
  encrypted : Bool
  encTxPktCount : ℕ
  encRxPktCount : ℕ
  connIv : Bytes
  connSkd : Bytes
  connLtk : Bytes
  connSessionKey : Bytes
  confirm : Bytes
  random : Bytes
  connLtkEncInf : Bytes
  rand : Bytes
  ediv : ℕ
  irk : Bytes
  csrk : Bytes
  keyX : Bytes
  keyY : Bytes
  atype : ℕ
  dhkeyCheck : Bytes
  inputSequence : List InputSymbol
  outputSequence : List Text

/-- The arguments of `BLESUL.__init__`, and the address type that the constructor of the class
leaves. -/
structure BlesulArgs where
  deviceAddress : Addr
  peripheralAddressIsRand : ℕ
  resetCmd : Option String
  recvSMin : ℤ
  recvSMax : ℤ
  outputSymbolFilters : List Text

/-- `BLESUL.__init__`, with the driver it constructs and the time of the call. -/
def Blesul.init (args : BlesulArgs) (driver : Nrf52) (now : ℤ) : Blesul where
  driver := driver
  peripheralAddress := args.deviceAddress
  peripheralAddressIsRand := args.peripheralAddressIsRand
  centralAddressIsRand := 0
  recvSMin := args.recvSMin
  recvSMax := args.recvSMax
  outputSymbolFilters := args.outputSymbolFilters ++ ["LL_ADV_IND".toList, "LL_DATA".toList]
  isRetryRunning := false
  lastDeviceResetTime := 0
  testStartTime := now
  resetBreaks := []
  symbols := none
  -- not created yet
  centralAddress := []
  accessAddress := none
  encrypted := false
  encTxPktCount := 0
  encRxPktCount := 0
  connIv := []
  connSkd := []
  connLtk := []
  connSessionKey := []
  confirm := []
  random := []
  connLtkEncInf := []
  rand := []
  ediv := 0
  irk := []
  csrk := []
  keyX := []
  keyY := []
  atype := 0
  dhkeyCheck := []
  inputSequence := []
  outputSequence := []

/-- `BLESMPServer`, with states `τ`. -/
structure SmpServer (τ : Type) where
  setPinCode : Bytes → τ → τ
  configureConnection : (centralAddressRaw peripheralAddressRaw : Bytes) →
    (peripheralAddressIsRand pairingIocap authentication : ℕ) → τ → τ
  /-- `pairing_request().encode()`. -/
  pairingRequest : τ → Bytes × τ
  /-- `send_hci(raw_pkt)`: a list of answers, or `none` for anything else. -/
  sendHci : Bytes → τ → Option (List Bytes) × τ

/-- The libraries the mapper imports: Scapy, the CCM and ECB modes of `Crypto.Cipher.AES`, and the
SMP server. -/
structure Lib (τ : Type) where
  scapy : Scapy
  ccm : Aead 16 13 4
  ecb : (key plaintext : Bytes) → Bytes
  smp : SmpServer τ

/-- What the calls of a test return. A program that needs another result of `raw_receive` when none
is left has not returned. -/
structure Env where
  /-- The coming readings of `time.time()`. -/
  clock : Stream' ℤ
  /-- The results of the coming calls of `raw_receive`. -/
  rx : List (Option Bytes)
  /-- The random central and access address of the coming calls of `reset`. -/
  draws : Stream' (Addr × UInt32)
  /-- The passes of the coming calls of `NRF52.reset_device`. -/
  resets : Stream' (List ResetAttempt)

/-- The console messages of `retry_sequence`. -/
inductive RetryMessage
  /-- Retrying suspicious sequence. -/
  | retrying
  /-- Multiple suspicious responses, try resetting the device. -/
  | tryReset
  /-- The number of an attempt. -/
  | attempt (attempt : ℕ)
  /-- Messed up earlier state, retrying. -/
  | messedUp
  /-- Messed up earlier state and cannot recover. -/
  | cannotRecover
  /-- Output still suspicious, retrying. -/
  | stillSuspicious
  /-- Could not find unsuspicious alternative. -/
  | noAlternative
  /-- Found better alternative. -/
  | foundBetter
deriving Repr, DecidableEq

/-- What is recorded of a test. -/
inductive Event
  /-- Bytes written to the serial port. -/
  | tx (data : Bytes)
  /-- A packet was encrypted, or decrypted, and its counter advanced. -/
  | encrypt
  | decrypt
  /-- A call of `NRF52.reset_device`. -/
  | deviceReset
  /-- A call of `reset`. -/
  | reset
  /-- A call of `step_internal`. -/
  | exec (sym : InputSymbol)
  /-- `ll_ctrl_enc_req` has sent its request. -/
  | encReq
  /-- `ll_ctrl_enc_req` handles an `LL_ENC_RSP`, with the encryption on or off. -/
  | encRsp (skds ivs : ℕ) (encrypted : Bool)
  /-- The SMP server is given a packet. -/
  | smp
  /-- The SMP server is configured for a new pairing. -/
  | configureConnection
  /-- The SMP server enables the encryption with a key. -/
  | ltk (ltk : Bytes)
  /-- A message of `retry_sequence`. -/
  | retry (message : RetryMessage)
deriving Repr, DecidableEq

/-- The object, its environment, the SMP server and the log. -/
structure World (τ : Type) where
  self : Blesul
  env : Env
  smp : τ
  log : List Event

variable {τ : Type}

/-- A constructed object in its environment. -/
def construct (args : BlesulArgs) (now : ℤ) (env : Env) (smp : τ) : Except PyErr (World τ) := do
  let (driver, data) ← Nrf52.init false false args.resetCmd
  return { self := Blesul.init args driver now, env := env, smp := smp, log := [.tx data] }

/-- A method of the object. -/
abbrev Program (τ : Type) := Exec (World τ) PyErr

/-- The object. -/
def getSelf : Program τ Blesul := do return (← Exec.get).self

/-- Assign fields of the object. -/
def modifySelf (f : Blesul → Blesul) : Program τ Unit :=
  Exec.modify fun w => { w with self := f w.self }

/-- Record an event, together with the assignment it stands for. -/
def record (e : Event) (f : Blesul → Blesul) : Program τ Unit :=
  Exec.modify fun w => { w with self := f w.self, log := w.log ++ [e] }

/-- `time.time()`. -/
def time : Program τ ℤ := do
  let w ← Exec.get
  Exec.modify fun w => { w with env := { w.env with clock := w.env.clock.tail } }
  return w.env.clock.head

/-- `self.driver.raw_receive()`. -/
def rawReceive : Program τ (Option Bytes) := do
  let w ← Exec.get
  match w.env.rx with
  | [] => Exec.throw .waiting
  | data :: rx =>
    Exec.modify fun w => { w with env := { w.env with rx := rx } }
    return data

/-- A call of the driver that writes to the serial port. -/
def callDriver (f : Nrf52 → Except PyErr (Nrf52 × Bytes)) : Program τ Unit := do
  let w ← Exec.get
  let (driver, data) ← Exec.lift (f w.self.driver)
  record (.tx data) fun self => { self with driver := driver }

/-- `self.driver.reset_device()`. The port is closed before the reset command is run, and stays so
when the reset fails. -/
def driverResetDevice : Program τ Unit := do
  let w ← Exec.get
  Exec.modify fun w =>
    { w with
      self := { w.self with driver := w.self.driver.closeForReset }
      env := { w.env with resets := w.env.resets.tail }
      log := w.log ++ [.deviceReset] }
  callDriver fun driver => driver.resetDevice w.env.resets.head

/-! ## A small instance -/

/-- Libraries around a given Scapy: no secrecy, and an SMP server that never answers. -/
def plainLib (scapy : Scapy) : Lib Unit where
  scapy := scapy
  ccm := .byteSumTag 16 13 4
  ecb key _ := key
  smp :=
    { setPinCode := fun _ s => s
      configureConnection := fun _ _ _ _ _ s => s
      pairingRequest := fun s => ([], s)
      sendHci := fun _ s => (none, s) }

/-- An environment in which the device sends `rx`, and every call of `time.time()` is a second after
the one before. -/
def plainEnv (rx : List (Option Bytes)) : Env where
  clock := fun n => 1000000 * n
  rx := rx
  draws := .const ([1, 2, 3, 4, 5, 6], 7)
  resets := .const []

/-- The address of a small device. -/
def plainAddress : Addr := [0xC6, 5, 4, 3, 2, 1]

/-- Its scan response, with the type of its address. -/
def plainScanRsp (txAdd : ℕ) : Bytes :=
  wireScapy.raw ⟨[.btle advertisingAddress, .btleAdv 0 txAdd, .btleScanRsp plainAddress]⟩

/-- Arguments for this device, of which a response is complete after a time `recvS`. -/
def plainArgs (recvS : ℤ) : BlesulArgs where
  deviceAddress := plainAddress
  peripheralAddressIsRand := 1
  resetCmd := none
  recvSMin := recvS
  recvSMax := recvS
  outputSymbolFilters := []

/-- A constructed object. -/
def plainWorld (recvS : ℤ) (rx : List (Option Bytes)) : World Unit where
  self := Blesul.init (plainArgs recvS)
    { serialOpen := true, nDebug := false, logsPcap := false, resetCmd := none,
      pcapTxHandover := 0, eventCounter := 0, sentPkt := none, packetsBuffer := [] } 0
  env := plainEnv rx
  smp := ()
  log := [.tx [cmdConfigLogTx, 0]]

/-- The constructor leaves this object. -/
theorem construct_plain (recvS : ℤ) (rx : List (Option Bytes)) :
    construct (plainArgs recvS) 0 (plainEnv rx) () = .ok (plainWorld recvS rx) := rfl

/-! ## The runs of these programs -/

/-- Reading the object raises nothing and changes nothing. -/
theorem getSelf_returns (w : World τ) : getSelf.Returns w w.self w :=
  (Exec.Returns.get w).bind (.pure _ _)

/-- Reading the object leaves the state as it is. -/
theorem of_getSelf_bind {α : Type} {f : Blesul → Program τ α} {a : α} {w w' : World τ}
    (h : (getSelf >>= f).Returns w a w') : (f w.self).Returns w a w' := by
  obtain ⟨hres, hfin, -⟩ := Exec.bind_ok (f := f) (getSelf_returns w).1
  rw [(getSelf_returns w).2] at hres hfin
  exact ⟨hres.symm.trans h.1, hfin.symm.trans h.2⟩

/-- An assignment with an event makes both. -/
theorem record_returns (e : Event) (f : Blesul → Blesul) (w : World τ) :
    (record e f).Returns w () { w with self := f w.self, log := w.log ++ [e] } :=
  .modify _ w

/-- A call of the driver that does not raise. -/
theorem callDriver_returns {f : Nrf52 → Except PyErr (Nrf52 × Bytes)} {w : World τ}
    {driver : Nrf52} {data : Bytes} (h : f w.self.driver = .ok (driver, data)) :
    (callDriver f).Returns w ()
      { w with self := { w.self with driver := driver }, log := w.log ++ [.tx data] } :=
  (Exec.Returns.get w).bind ((Exec.Returns.lift h w).bind (record_returns _ _ w))

end BleFuzzer.Mapper

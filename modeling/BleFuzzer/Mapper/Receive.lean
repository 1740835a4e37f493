import BleFuzzer.Mapper.Crypto
import BleFuzzer.Mapper.Symbols

/-!
# Receiving

`BLESUL.receive` and what it calls, with the methods that subclasses override. The loop of `receive`
consumes one result of `raw_receive` in each pass, so it recurses on a bound for their number; with
none left, the call is still waiting.
-/

namespace BleFuzzer.Mapper

open Driver

/-- The versions of `is_rsp_complete`. -/
inductive RspPolicy
  | base
  | nimble
  | nrf52840DKNimble
deriving Repr, DecidableEq

/-- What a subclass of `BLESUL` changes. -/
structure MapperClass where
  isRspComplete : RspPolicy
  /-- `is_last_sym_suspicious`, over the recorded sequences. -/
  isLastSymSuspicious : List InputSymbol → List Text → Bool
  /-- `handle_packet`, if there is one. -/
  handlePacket : Option (Blesul → Pkt → Option Pkt)
  /-- Whether `ll_adv_connect_ind` is defined. -/
  llAdvConnectInd : Bool
  /-- Whether `ll_adv_scan_req_pre` is overridden by one that keeps the encryption. -/
  llAdvScanReqKeeps : Bool
  /-- Whether `ll_ctrl_terminate_ind` is defined. -/
  llCtrlTerminateInd : Bool
  /-- The handle that `att_read_req_pre` sets, if it is defined. -/
  attReadReqPre : Option ℕ
  /-- Whether `pre` resets the device every eight hours. -/
  preResets : Bool

/-- `BLESUL` itself. -/
def blesulClass : MapperClass where
  isRspComplete := .base
  isLastSymSuspicious _ _ := false
  handlePacket := none
  llAdvConnectInd := false
  llAdvScanReqKeeps := false
  llCtrlTerminateInd := false
  attReadReqPre := none
  preResets := false

variable {τ : Type} (lib : Lib τ) (cls : MapperClass)

/-- `BLESUL.is_target`. -/
def isTarget (self : Blesul) (pkt : Pkt) : Bool :=
  if pkt.hasBtleAdv && pkt.advA.any (· ≠ self.peripheralAddress) then
    false
  else if pkt.hasBtleData && decide (self.accessAddress ≠ pkt.accessAddr) then
    false
  else
    true

/-! ## `is_rsp_complete` -/

/-- How many additional responses are expected after a symbol. -/
def nAddExpect (sym : Text) : Option ℕ :=
  if sym = "LL_CTRL_ENC_RSP".toList then
    some 1
  else if sym = "LL_CTRL_START_ENC_RSP".toList then
    some 3
  else
    none

/-- The loop of `is_rsp_complete` over the packets received: `n_rsp_expected` and `n_cyclic_seen`.
-/
def countRsp (nRspExpected nCyclicSeen : ℕ) : List Pkt → Program τ (ℕ × ℕ)
  | [] => return (nRspExpected, nCyclicSeen)
  | pkt :: pkts =>
    if pkt.isCyclic then
      countRsp nRspExpected (nCyclicSeen + 1) pkts
    else do
      let sym ← outputSymbol lib [pkt]
      countRsp ((nAddExpect sym).getD (nRspExpected - 1)) 0 pkts

/-- `BLESUL.is_rsp_complete`. -/
def isRspCompleteBase (pkts : List Pkt) (recvSTime : ℤ) (recvSMin recvSMax : Option ℤ) :
    Program τ Bool := do
  let (nRspExpected, nCyclicSeen) ← countRsp lib 1 0 pkts
  let sequenceSeemsComplete := (nRspExpected == 0 && 5 ≤ nCyclicSeen) || 10 ≤ nCyclicSeen
  let self ← getSelf
  let recvSMin := recvSMin.getD self.recvSMin
  let recvSMax := recvSMax.getD self.recvSMax
  let recvSMax := if recvSMax < recvSMin then recvSMin else recvSMax
  return recvSMax ≤ recvSTime || (recvSMin ≤ recvSTime && sequenceSeemsComplete)

/-- `BLESUL_NimBLE.is_rsp_complete`. -/
def isRspCompleteNimble (pkts : List Pkt) (recvSTime : ℤ) (recvSMin recvSMax : Option ℤ)
    (req : Option Pkt) : Program τ Bool := do
  if req.any Pkt.hasBtleConnectReq then
    isRspCompleteBase lib pkts recvSTime recvSMin (some 500000)
  else
    let self ← getSelf
    let recvSMin := recvSMin.getD self.recvSMin
    if recvSMin ≤ recvSTime && pkts.isEmpty then
      return true
    else if pkts.any Pkt.hasBtleAdvInd && pkts.any Pkt.hasBtleScanRsp then
      return true
    else
      isRspCompleteBase lib pkts recvSTime (some recvSMin) recvSMax

/-- `BLESUL_nRF52840DKNimBLE.is_rsp_complete`. -/
def isRspCompleteNrf52840DKNimble (pkts : List Pkt) (recvSTime : ℤ) (recvSMin recvSMax : Option ℤ)
    (req : Option Pkt) : Program τ Bool := do
  if req.any Pkt.hasBtleConnectReq then
    isRspCompleteBase lib pkts recvSTime recvSMin (some 2000000)
  else
    let self ← getSelf
    let recvSMin := recvSMin.getD self.recvSMin
    if recvSMin ≤ recvSTime && pkts.isEmpty then
      return true
    else
      isRspCompleteBase lib pkts recvSTime (some recvSMin) recvSMax

/-- `self.is_rsp_complete`. -/
def isRspComplete (pkts : List Pkt) (recvSTime : ℤ) (recvSMin recvSMax : Option ℤ)
    (req : Option Pkt) : Program τ Bool :=
  match cls.isRspComplete with
  | .base => isRspCompleteBase lib pkts recvSTime recvSMin recvSMax
  | .nimble => isRspCompleteNimble lib pkts recvSTime recvSMin recvSMax req
  | .nrf52840DKNimble => isRspCompleteNrf52840DKNimble lib pkts recvSTime recvSMin recvSMax req

/-! ## Processing one packet -/

/-- `BLESUL.fix_packet`. -/
def fixPacket (pkt : Pkt) : Pkt :=
  if pkt.ctrlOpcode = some 0x05 ∧ ¬ pkt.hasLlStartEncReq then
    pkt.push .llStartEncReq
  else if pkt.ctrlOpcode = some 0x06 ∧ ¬ pkt.hasLlStartEncRsp then
    pkt.push .llStartEncRsp
  else if pkt.ctrlOpcode = some 0x0b ∧ ¬ pkt.hasLlPauseEncRsp then
    pkt.push .llPauseEncRsp
  else
    pkt

/-- `BLESUL.reset_device`. -/
def resetDevice : Program τ Unit := do
  let timeBefore ← time
  driverResetDevice
  let timeAfter ← time
  modifySelf fun self =>
    { self with
      resetBreaks :=
        self.resetBreaks ++ [(timeBefore - self.testStartTime, timeAfter - self.testStartTime)]
      lastDeviceResetTime := timeAfter }

/-- The key material taken from one answer of the SMP server that does not enable the encryption. -/
def smpMaterial (self : Blesul) (res : Pkt) : Blesul :=
  if let some (ltk) := res.smEncryptionInformation then
    { self with connLtkEncInf := ltk }
  else if let some (ediv, rand) := res.smMasterIdentification then
    { self with ediv := ediv, rand := rand }
  else if let some irk := res.smIdentityInformation then
    { self with irk := irk }
  else if let some atype := res.smIdentityAddressInformation then
    { self with atype := atype }
  else if let some csrk := res.smSigningInformation then
    { self with csrk := csrk }
  else if let some (keyX, keyY) := res.smPublicKey then
    { self with keyX := keyX, keyY := keyY }
  else if let some dhkeyCheck := res.smDHKeyCheck then
    { self with dhkeyCheck := dhkeyCheck }
  else
    self

/-- The loop of `smp_process` over the answers of the server. -/
def smpAnswers : List Bytes → Program τ Unit
  | [] => return ()
  | data :: rest => do
    let res := lib.scapy.hciHdr data
    if let some confirm := res.smConfirm then
      modifySelf fun self => { self with confirm := confirm }
    else if let some random := res.smRandom then
      modifySelf fun self => { self with random := random }
    else if let some ltk := res.hciCmdLeEnableEncryption then
      record (.ltk ltk) fun self => { self with connLtk := ltk }
    else
      modifySelf fun self => smpMaterial self res
    smpAnswers rest

/-- `BLESUL.smp_process`. -/
def smpProcess (pkt : Pkt) : Program τ Unit := do
  let rawPkt := lib.scapy.raw ⟨[.hciHdr, .hciAclHdr, .l2capHdr] ++ pkt.fromSmHdr⟩
  let w ← Exec.get
  Exec.modify fun w =>
    { w with smp := (lib.smp.sendHci rawPkt w.smp).2, log := w.log ++ [.smp] }
  match (lib.smp.sendHci rawPkt w.smp).1 with
  | none => return ()
  | some smpAnswer => smpAnswers lib smpAnswer

/-- The answer of `handle_packet`, if there is one: the new start time. -/
def answerPkt (pkt : Pkt) : Program τ (Option ℤ) := do
  let self ← getSelf
  match cls.handlePacket.bind fun handlePacket => handlePacket self pkt with
  | none => return none
  | some resPkt =>
    send lib resPkt
    return some (← time)

/-- What `receive` does with a packet that is not broken, after it has been appended: the new start
time, if `handle_packet` has answered. -/
def processPkt (pkt : Pkt) : Program τ (Option ℤ) := do
  if "Raw".toList <:+: lib.scapy.summary pkt then
    resetDevice
  if pkt.hasSmHdr then
    smpProcess lib pkt
  answerPkt lib cls pkt

/-- What is done with a packet, in three parts. -/
theorem processPkt_eq (pkt : Pkt) :
    processPkt lib cls pkt =
      ((if "Raw".toList <:+: lib.scapy.summary pkt then resetDevice else pure ()) >>= fun _ =>
        (if pkt.hasSmHdr then smpProcess lib pkt else pure ()) >>= fun _ => answerPkt lib cls pkt) := by
  rw [processPkt]
  split <;> split <;> rfl

/-- The decryption of a packet of ours, and what makes it one of the packets: `none` for a packet
that is broken. -/
def acceptDecrypted (pkt : Pkt) : Program τ (Option Pkt) := do
  let (pkt, isBroken) ← decrypt lib pkt
  return if isBroken then none else some (fixPacket pkt)

/-- The body of the loop of `receive` for the bytes of one packet, up to where it is appended to the
packets: `none` for a packet that is not ours or broken. -/
def acceptData (data : Bytes) : Program τ (Option Pkt) := do
  let pkt := lib.scapy.btle data
  let self ← getSelf
  if isTarget self pkt then
    -- on the advertising channel the encryption ends
    if pkt.hasBtleAdv then
      modifySelf fun self => { self with encrypted := false }
    acceptDecrypted lib pkt
  else
    return none

/-- For a data packet of ours, all depends on the decryption. -/
theorem acceptData_returns {w w' : World τ} {data : Bytes} {pkt : Pkt} {isBroken : Bool}
    (htarget : isTarget w.self (lib.scapy.btle data) = true)
    (hadv : (lib.scapy.btle data).hasBtleAdv = false)
    (h : (decrypt lib (lib.scapy.btle data)).Returns w (pkt, isBroken) w') :
    (acceptData lib data).Returns w (if isBroken then none else some (fixPacket pkt)) w' := by
  refine (getSelf_returns w).bind ?_
  rw [if_pos htarget, hadv]
  exact h.bind (.pure _ w')

/-- **What `acceptData` does**: with a packet for us it depends on the decryption, before which an
advertisement has ended the encryption. -/
theorem acceptData_cases {data : Bytes} {accepted : Option Pkt} {w w' : World τ}
    (h : (acceptData lib data).Returns w accepted w') :
    (isTarget w.self (lib.scapy.btle data) = false ∧ accepted = none ∧ w' = w) ∨
      (isTarget w.self (lib.scapy.btle data) = true ∧ ∃ pkt isBroken,
        (decrypt lib (lib.scapy.btle data)).Returns
          { w with self := { w.self with
            encrypted := w.self.encrypted && !(lib.scapy.btle data).hasBtleAdv } }
          (pkt, isBroken) w' ∧
        accepted = if isBroken then none else some (fixPacket pkt)) := by
  have h := of_getSelf_bind h
  cases htarget : isTarget w.self (lib.scapy.btle data) with
  | false =>
    rw [htarget, if_neg Bool.false_ne_true] at h
    obtain ⟨rfl, rfl⟩ := h.of_pure
    exact .inl ⟨rfl, rfl, rfl⟩
  | true =>
    rw [htarget, if_pos rfl] at h
    refine .inr ⟨rfl, ?_⟩
    cases hadv : (lib.scapy.btle data).hasBtleAdv with
    | true =>
      rw [hadv, if_pos rfl] at h
      obtain ⟨_, w₁, hoff, h⟩ := h.of_bind
      obtain rfl := hoff.of_modify
      obtain ⟨⟨pkt, isBroken⟩, w₂, hdecrypt, hreturn⟩ := h.of_bind
      obtain ⟨rfl, rfl⟩ := hreturn.of_pure
      rw [Bool.not_true, Bool.and_false]
      exact ⟨pkt, isBroken, hdecrypt, rfl⟩
    | false =>
      rw [hadv, if_neg Bool.false_ne_true] at h
      obtain ⟨⟨pkt, isBroken⟩, w₂, hdecrypt, hreturn⟩ := h.of_bind
      obtain ⟨rfl, rfl⟩ := hreturn.of_pure
      rw [Bool.not_false, Bool.and_true]
      exact ⟨pkt, isBroken, hdecrypt, rfl⟩

/-- The body of the loop of `receive` for the bytes of one packet: what is appended to the packets
and the new start time. -/
def receiveData (data : Bytes) : Program τ (List Pkt × Option ℤ) := do
  match ← acceptData lib data with
  | none => return ([], none)
  | some pkt =>
    let restart ← processPkt lib cls pkt
    return ([pkt], restart)

/-- The loop of `receive`. -/
def receiveLoop (recvSMin recvSMax : Option ℤ) (maxPkts : ℕ) (req : Option Pkt) :
    ℕ → List Pkt → ℤ → Program τ (List Pkt)
  | 0, _, _ => Exec.throw .waiting
  | bound + 1, packets, timeStart => do
    let data ← rawReceive
    let (new, restart) ←
      match data with
      | none => pure ([], none)
      | some data => receiveData lib cls data
    let packets := packets ++ new
    let timeStart := restart.getD timeStart
    let timeNow ← time
    let complete ← isRspComplete lib cls packets (timeNow - timeStart) recvSMin recvSMax req
    if complete || (0 < maxPkts && packets.length == maxPkts) then
      return packets
    else
      receiveLoop recvSMin recvSMax maxPkts req bound packets timeStart

/-- `BLESUL.receive`. -/
def receive (recvSMin recvSMax : Option ℤ) (maxPkts : ℕ) (req : Option Pkt) :
    Program τ (List Pkt) := do
  let timeStart ← time
  let w ← Exec.get
  receiveLoop lib cls recvSMin recvSMax maxPkts req (w.env.rx.length + 1) [] timeStart

end BleFuzzer.Mapper

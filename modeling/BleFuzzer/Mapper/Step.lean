import BleFuzzer.Mapper.Receive

/-!
# Steps and tests

The handlers of the input symbols, `step_internal`, `retry_sequence`, `reset`, and the interface
`pre` and `step` of the learner. `try` blocks that print and raise again are left out.
-/

namespace BleFuzzer.Mapper

open Driver

variable {τ : Type} (lib : Lib τ) (cls : MapperClass)

/-! ## Handlers -/

/-- `BLESUL.ll_adv_scan_req_post`. -/
def llAdvScanReqPost : List Pkt → Program τ Unit
  | [] => return ()
  | pkt :: pkts => do
    let self ← getSelf
    if (pkt.hasBtleScanRsp || pkt.hasBtleAdv) && pkt.advA == some self.peripheralAddress then
      match pkt.txAdd with
      | some txAdd => modifySelf fun self => { self with peripheralAddressIsRand := txAdd }
      | none => Exec.throw .attributeError
    llAdvScanReqPost pkts

/-- `BLESUL.ll_ctrl_pause_enc_req_post`. -/
def llCtrlPauseEncReqPost : List Pkt → Program τ Unit
  | [] => return ()
  | pkt :: pkts => do
    if pkt.hasLlPauseEncRsp then
      modifySelf fun self => { self with encrypted := false }
    llCtrlPauseEncReqPost pkts

/-- `BLESUL.bt_crypto_e`: `AES.new` in ECB mode and one encryption. -/
def btCryptoE (key plaintext : Bytes) : Except PyErr Bytes :=
  if key.length ∈ [16, 24, 32] ∧ plaintext.length % 16 = 0 then
    .ok (lib.ecb key plaintext)
  else
    .error .valueError

/-- What `ll_ctrl_enc_req` does with an `LL_ENC_RSP`: the new halves of SKD and IV, and a new
session key unless the encryption is on. -/
def handleEncRsp (skds ivs : ℕ) : Program τ Unit := do
  let skdsBytes ← Exec.lift (structPack 8 skds)
  let self ← getSelf
  record (.encRsp skds ivs self.encrypted) fun self =>
    { self with connSkd := self.connSkd.take 8 ++ skdsBytes }
  let ivsBytes ← Exec.lift (structPack 4 ivs)
  modifySelf fun self => { self with connIv := self.connIv.take 4 ++ ivsBytes }
  let self ← getSelf
  if !self.encrypted then
    let key ← Exec.lift (btCryptoE lib self.connLtk.reverse self.connSkd.reverse)
    modifySelf fun self => { self with connSessionKey := key }

/-- The loop of `ll_ctrl_enc_req`, which receives one packet at a time. The variable `pkt` of the
source is the request first, and then the latest packet received. -/
def encReqLoop (timeStart : ℤ) : ℕ → Pkt → List Pkt → Program τ (List Pkt)
  | 0, _, _ => Exec.throw .waiting
  | bound + 1, pkt, resPkts => do
    let timeNow ← time
    if ← isRspComplete lib cls resPkts (timeNow - timeStart) none none none then
      return resPkts
    else
      match ← receive lib cls none none 1 (some pkt) with
      | [] => encReqLoop timeStart bound pkt resPkts
      | pkt :: _ =>
        match pkt.llEncRsp with
        | some (skds, ivs) => handleEncRsp lib skds ivs
        | none =>
          if pkt.hasLlStartEncReq then
            modifySelf fun self => { self with encrypted := true }
        encReqLoop timeStart bound pkt (resPkts ++ [pkt])

/-- **What `handleEncRsp` does**, if it returns. -/
theorem handleEncRsp_of_returns {skds ivs : ℕ} {w w' : World τ}
    (h : (handleEncRsp lib skds ivs).Returns w () w') :
    w' = { w with
      self := { w.self with
        connSkd := w.self.connSkd.take 8 ++ leBytes 8 skds
        connIv := w.self.connIv.take 4 ++ leBytes 4 ivs
        connSessionKey :=
          if w.self.encrypted then w.self.connSessionKey
          else lib.ecb w.self.connLtk.reverse (w.self.connSkd.take 8 ++ leBytes 8 skds).reverse }
      log := w.log ++ [.encRsp skds ivs w.self.encrypted] } := by
  obtain ⟨skdsBytes, w₁, hlift, h⟩ := h.of_bind
  obtain ⟨hskds, rfl⟩ := hlift.of_lift
  obtain ⟨_, w₁, hrecord, h⟩ := (of_getSelf_bind h).of_bind
  obtain rfl := hrecord.of_modify
  obtain ⟨ivsBytes, w₂, hlift', h⟩ := h.of_bind
  obtain ⟨hivs, rfl⟩ := hlift'.of_lift
  obtain ⟨_, w₃, hmodify, h⟩ := h.of_bind
  obtain rfl := hmodify.of_modify
  have h := of_getSelf_bind h
  dsimp only at h
  obtain rfl := structPack_inj hskds
  obtain rfl := structPack_inj hivs
  cases hencrypted : w.self.encrypted with
  | true =>
    rw [hencrypted, Bool.not_true, if_neg Bool.false_ne_true] at h
    obtain ⟨-, rfl⟩ := h.of_pure
    simp [hencrypted]
  | false =>
    rw [hencrypted, Bool.not_false, if_pos rfl] at h
    obtain ⟨key, w₄, hkey, h⟩ := h.of_bind
    obtain ⟨hecb, rfl⟩ := hkey.of_lift
    obtain rfl := h.of_modify
    rw [btCryptoE] at hecb
    split at hecb
    case isTrue =>
      obtain rfl := Except.ok.inj hecb
      simp [hencrypted]
    case isFalse => cases hecb

/-- **What a pass of the loop of `ll_ctrl_enc_req` does**, if the loop returns: it ends the loop,
receives nothing, or handles the packet received. -/
theorem encReqLoop_cases {timeStart : ℤ} {bound : ℕ} {pkt : Pkt} {resPkts pkts : List Pkt}
    {w w' : World τ} (h : (encReqLoop lib cls timeStart (bound + 1) pkt resPkts).Returns w pkts w') :
    ∃ complete w₁, (time >>= fun timeNow =>
        isRspComplete lib cls resPkts (timeNow - timeStart) none none none).Returns w complete w₁ ∧
      ((complete = true ∧ pkts = resPkts ∧ w' = w₁) ∨
        ∃ received w₂, (receive lib cls none none 1 (some pkt)).Returns w₁ received w₂ ∧
          ((received = [] ∧ (encReqLoop lib cls timeStart bound pkt resPkts).Returns w₂ pkts w') ∨
            ∃ next rest w₃, received = next :: rest ∧
              ((∃ skds ivs, next.llEncRsp = some (skds, ivs) ∧
                  (handleEncRsp lib skds ivs).Returns w₂ () w₃) ∨
                (next.llEncRsp = none ∧ w₃ = { w₂ with self := { w₂.self with
                  encrypted := w₂.self.encrypted || next.hasLlStartEncReq } })) ∧
              (encReqLoop lib cls timeStart bound next (resPkts ++ [next])).Returns w₃ pkts w')) := by
  obtain ⟨timeNow, w₀, htime, h⟩ := h.of_bind
  obtain ⟨complete, w₁, hcomplete, h⟩ := h.of_bind
  refine ⟨complete, w₁, htime.bind hcomplete, ?_⟩
  cases complete with
  | true =>
    obtain ⟨rfl, rfl⟩ := h.of_pure
    exact .inl ⟨rfl, rfl, rfl⟩
  | false =>
    rw [if_neg Bool.false_ne_true] at h
    obtain ⟨received, w₂, hreceive, h⟩ := h.of_bind
    refine .inr ⟨received, w₂, hreceive, ?_⟩
    cases received with
    | nil => exact .inl ⟨rfl, h⟩
    | cons next rest =>
      right
      dsimp only at h
      cases hrsp : next.llEncRsp with
      | some rsp =>
        rw [hrsp] at h
        obtain ⟨_, w₃, hhandle, h⟩ := h.of_bind
        exact ⟨next, rest, w₃, rfl, .inl ⟨rsp.1, rsp.2, hrsp, hhandle⟩, h⟩
      | none =>
        rw [hrsp] at h
        cases hstart : next.hasLlStartEncReq with
        | true =>
          rw [hstart, if_pos rfl] at h
          obtain ⟨_, w₃, hmodify, h⟩ := h.of_bind
          obtain rfl := hmodify.of_modify
          refine ⟨next, rest, _, rfl, .inr ⟨hrsp, ?_⟩, h⟩
          rw [hstart, Bool.or_true]
        | false =>
          rw [hstart, if_neg Bool.false_ne_true] at h
          refine ⟨next, rest, _, rfl, .inr ⟨hrsp, ?_⟩, h⟩
          rw [hstart, Bool.or_false]

/-- `BLESUL.ll_ctrl_enc_req`. -/
def llCtrlEncReq (pkt : Pkt) : Program τ Text := do
  send lib pkt
  record .encReq fun self => { self with encTxPktCount := 0, encRxPktCount := 0 }
  let timeStart ← time
  let w ← Exec.get
  let resPkts ← encReqLoop lib cls timeStart (w.env.rx.length + 2) pkt []
  outputSymbol lib resPkts

/-- `BLESUL.sm_pairing_req_pre`, whose packet the SMP server generates. -/
def smPairingReqPre (pkt : Pkt) : Program τ Pkt := do
  match pkt.smPairingRequest with
  | none => Exec.throw .indexError
  | some (pairingIocap, authentication) =>
    let self ← getSelf
    Exec.modify fun w =>
      { w with
        smp := lib.smp.configureConnection self.centralAddress self.peripheralAddress
          self.peripheralAddressIsRand pairingIocap authentication
          (lib.smp.setPinCode [0, 0, 0, 0] w.smp)
        log := w.log ++ [.configureConnection] }
    let w ← Exec.get
    Exec.modify fun w => { w with smp := (lib.smp.pairingRequest w.smp).2 }
    let hciRes := lib.scapy.hciHdr (lib.smp.pairingRequest w.smp).1
    if hciRes.hasSmHdr then
      return dataPacket self (.l2capHdr :: hciRes.fromSmHdr)
    else
      Exec.throw .indexError

/-- The overriding `ll_adv_connect_ind` of the NimBLE mappers. -/
def llAdvConnectInd (pkt : Pkt) : Program τ Text := do
  send lib pkt
  let resPkts ← receive lib cls none none 0 (some pkt)
  let self ← getSelf
  let pkt := packets .llCtrlLengthReq self
  send lib pkt
  let _ ← receive lib cls none none 0 (some pkt)
  outputSymbol lib resPkts

/-- The overriding `ll_ctrl_terminate_ind` of the nRF52840 mapper. -/
def llCtrlTerminateInd (pkt : Pkt) : Program τ Text := do
  send lib pkt
  let self ← getSelf
  send lib (ctrlPacket self (.llFeatureReq featureSet))
  let self ← getSelf
  send lib (ctrlPacket self (.llFeatureReq featureSet))
  let pkts ← receive lib cls none none 0 none
  outputSymbol lib pkts

/-- The method `<input_symbol>_pre`, if there is one, applied to the request. -/
def callPre (sym : InputSymbol) (pkt : Pkt) : Program τ Pkt :=
  match sym with
  | .llAdvScanReq => do
    if !cls.llAdvScanReqKeeps then
      modifySelf fun self => { self with encrypted := false }
    return pkt
  | .llAdvConnectInd => do
    modifySelf fun self => { self with encrypted := false }
    return pkt
  | .smPairingReq | .smPairingReqSc => smPairingReqPre lib pkt
  | .attReadReq =>
    match cls.attReadReqPre with
    | some handle => return pkt.setGattHandle handle
    | none => return pkt
  | _ => return pkt

/-- The method `<input_symbol>_post`, if there is one, applied to the response. Both methods there
are return the packets they are given. -/
def callPost (sym : InputSymbol) (pkts : List Pkt) : Program τ Unit :=
  match sym with
  | .llAdvScanReq => llAdvScanReqPost pkts
  | .llCtrlPauseEncReq => llCtrlPauseEncReqPost pkts
  | _ => return ()

/-- A request with its `_pre` and `_post` methods. -/
def performRequest (sym : InputSymbol) (pkt : Pkt) : Program τ Text := do
  let pkt ← callPre lib cls sym pkt
  send lib pkt
  let resPkts ← receive lib cls none none 0 (some pkt)
  callPost sym resPkts
  outputSymbol lib resPkts

/-- The output symbol of an input symbol: by the method `<input_symbol>` if there is one, else by a
request. -/
def performSymbol (sym : InputSymbol) (pkt : Pkt) : Program τ Text :=
  if sym = .llCtrlEncReq then
    llCtrlEncReq lib cls pkt
  else if sym = .llAdvConnectInd ∧ cls.llAdvConnectInd then
    llAdvConnectInd lib cls pkt
  else if sym = .llCtrlTerminateInd ∧ cls.llCtrlTerminateInd then
    llCtrlTerminateInd lib cls pkt
  else
    performRequest lib cls sym pkt

/-! ## `reset` -/

/-- The assignments of `reset`, with the random addresses it draws. -/
def Blesul.resetFields (self : Blesul) (draw : Addr × UInt32) : Blesul :=
  { self with
    centralAddress := draw.1
    accessAddress := some draw.2
    encrypted := false
    encTxPktCount := 0
    encRxPktCount := 0
    connIv := List.replicate 8 0
    connSkd := List.replicate 16 0
    connLtk := List.replicate 16 0
    connSessionKey := List.replicate 16 0
    confirm := List.replicate 16 0
    random := List.replicate 16 0
    connLtkEncInf := List.replicate 16 0
    rand := List.replicate 8 0
    ediv := 0
    irk := List.replicate 16 0
    csrk := List.replicate 16 0
    keyX := List.replicate 32 0
    keyY := List.replicate 32 0
    atype := 0
    dhkeyCheck := List.replicate 16 0
    inputSequence := []
    outputSequence := [] }

/-- The loop of `reset`, over the values of `i` left. -/
def resetScan : List ℕ → Program τ Unit
  | [] =>
    Exec.throw (.runtimeError
      "RESET: PROBLEM: CANNOT GET A SCAN RESPONSE FROM THE DEVICE DURING RESET")
  | i :: is => do
    let self ← getSelf
    let scanPkt := packets .llAdvScanReq self
    send lib scanPkt
    let scanRes ← receive lib cls (some (min 2000000 (self.recvSMin * 2 ^ i))) none 0 (some scanPkt)
    if scanRes.any Pkt.hasBtleScanRsp then
      return ()
    else
      if 28 ≤ i then
        resetDevice
      resetScan is

/-- `BLESUL.reset`. -/
def reset : Program τ Unit := do
  let self ← getSelf
  if self.accessAddress.isSome then
    send lib (packets .llCtrlTerminateInd self)
  Exec.modify fun w =>
    { w with
      self := w.self.resetFields w.env.draws.head
      env := { w.env with draws := w.env.draws.tail }
      log := w.log ++ [.reset] }
  resetScan lib cls (List.range 32)

/-- `pre`. -/
def pre : Program τ Unit := do
  if cls.preResets then
    let now ← time
    let self ← getSelf
    if 60 * 60 * 8 * 1000000 < now - self.lastDeviceResetTime then
      driverResetDevice
      let now ← time
      modifySelf fun self => { self with lastDeviceResetTime := now }
  reset lib cls

/-! ## `step_internal` and `retry_sequence` -/

/-- Replay the inputs of a sequence. -/
def replay (step : InputSymbol → Program τ Text) : List InputSymbol → Program τ Unit
  | [] => return ()
  | sym :: syms => do
    let _ ← step sym
    replay step syms

/-- The filtered symbols of a sequence without its last one. -/
def earlierOutputs (self : Blesul) (outputs : List Text) : List Text :=
  outputs.dropLast.map fun s => filterSymbol s self.outputSymbolFilters

/-- An attempt of `retry_sequence` after the device has been reset, and what it does to try again.
No more than seven are made. -/
def retryAttempt (step : InputSymbol → Program τ Text) (seqIn : List InputSymbol)
    (seqOut : List Text) (attempt : ℕ) (again : Program τ Unit) : Program τ Unit := do
  record (.retry (.attempt attempt)) id
  modifySelf fun self => { self with isRetryRunning := true }
  pre lib cls
  replay step seqIn
  let self ← getSelf
  if earlierOutputs self seqOut ≠ earlierOutputs self self.outputSequence then
    if attempt < 7 then
      record (.retry .messedUp) id
      again
    else
      record (.retry .cannotRecover) id
  else if cls.isLastSymSuspicious self.inputSequence self.outputSequence then
    if attempt < 6 then
      record (.retry .stillSuspicious) id
      again
    else
      record (.retry .noAlternative) id
  else
    record (.retry .foundBetter) id

/-- The loop of `retry_sequence`, from a number of attempts made. -/
def retryLoop (step : InputSymbol → Program τ Text) (seqIn : List InputSymbol)
    (seqOut : List Text) : ℕ → ℕ → Program τ Unit
  | 0, _ => Exec.throw .waiting
  | bound + 1, attempt => do
    let attempt := attempt + 1
    if 4 ≤ attempt then
      record (.retry .tryReset) id
      resetDevice
    retryAttempt lib cls step seqIn seqOut attempt (retryLoop step seqIn seqOut bound attempt)

/-- The loop is an attempt, which may go on with the loop. -/
theorem retryLoop_succ (step : InputSymbol → Program τ Text) (seqIn : List InputSymbol)
    (seqOut : List Text) (bound attempt : ℕ) :
    retryLoop lib cls step seqIn seqOut (bound + 1) attempt =
      let rest := retryAttempt lib cls step seqIn seqOut (attempt + 1)
        (retryLoop lib cls step seqIn seqOut bound (attempt + 1))
      if 4 ≤ attempt + 1 then do
        record (.retry .tryReset) id
        resetDevice
        rest
      else
        rest :=
  rfl

/-- `BLESUL.retry_sequence`, with the `step_internal` it replays with. -/
def retrySequence (step : InputSymbol → Program τ Text) : Program τ Text := do
  let self ← getSelf
  record (.retry .retrying) id
  retryLoop lib cls step self.inputSequence self.outputSequence 7 0
  modifySelf fun self => { self with isRetryRunning := false }
  let self ← getSelf
  match self.outputSequence.getLast? with
  | some output => return output
  | none => Exec.throw .indexError

/-- `BLESUL.step_internal`, which calls itself through `retry_sequence` up to a given depth. -/
def stepInternal : ℕ → InputSymbol → Program τ Text
  | 0, _ => Exec.throw .recursionError
  | depth + 1, inputSymbol => do
    record (.exec inputSymbol) id
    let self ← getSelf
    if self.accessAddress.isNone then
      -- every packet reads an attribute that `reset` creates
      Exec.throw .attributeError
    else
      let outputSymbol ← performSymbol lib cls inputSymbol (packets inputSymbol self)
      modifySelf fun self =>
        { self with
          inputSequence := self.inputSequence ++ [inputSymbol]
          outputSequence := self.outputSequence ++ [outputSymbol] }
      let self ← getSelf
      if !self.isRetryRunning &&
          cls.isLastSymSuspicious self.inputSequence self.outputSequence then
        retrySequence lib cls (stepInternal depth)
      else
        return outputSymbol

/-- The depth of calls that Python allows. -/
def recursionLimit : ℕ := 1000

/-- `BLESUL.step`. -/
def step (inputSymbol : InputSymbol) : Program τ Text := do
  let outputSymbol ← stepInternal lib cls recursionLimit inputSymbol
  let self ← getSelf
  return filterSymbol outputSymbol self.outputSymbolFilters

/-- Steps with a list of inputs: their outputs. -/
def steps : List InputSymbol → Program τ (List Text)
  | [] => return []
  | sym :: syms => do
    let output ← step lib cls sym
    return output :: (← steps syms)

/-- A test of the learner. -/
def test (inputs : List InputSymbol) : Program τ (List Text) := do
  pre lib cls
  steps lib cls inputs

/-- The calls of the interface. -/
inductive Call
  | pre
  | step (inputSymbol : InputSymbol)

/-- One call of the interface. -/
def call : Call → Program τ Unit
  | .pre => pre lib cls
  | .step inputSymbol => do
    let _ ← step lib cls inputSymbol

/-- Calls of the interface, none of which raises. -/
def calls : List Call → Program τ Unit
  | [] => return ()
  | c :: cs => do
    call lib cls c
    calls cs

/-- Calls in two parts. -/
theorem calls_append (cs cs' : List Call) :
    calls lib cls (cs ++ cs') = calls lib cls cs >>= fun _ => calls lib cls cs' := by
  induction cs with
  | nil => rfl
  | cons c cs ih =>
    rw [List.cons_append, calls, calls, ih, Exec.bind_assoc]

/-- Calls of the interface by a caller that catches what they raise. -/
def session : List Call → Program τ Unit
  | [] => return ()
  | c :: cs => do
    let _ ← (call lib cls c).attempt
    session cs

end BleFuzzer.Mapper

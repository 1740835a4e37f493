import BleFuzzer.Mapper.Step

/-!
# What the programs of the mapper assign

`Assign` lists the assignments made on behalf of an input symbol by everything but
`ll_ctrl_enc_req`, `EncReqAssign` those of `ll_ctrl_enc_req` itself, and `TestAssign` those of
`reset` and of the functions that record and repeat a test. What a program can change is then a case
analysis over its assignments. `BareAssign`, `SideAssign` and `TakeAssign` are the parts of `Assign`
that `receive` makes: without the SMP server, without the decryption, and all.
-/

namespace BleFuzzer.Mapper

open Driver Exec

variable {τ : Type} (lib : Lib τ) (cls : MapperClass)

/-- The assignments of the programs below `step_internal`. -/
inductive Assign (w : World τ) : World τ → Prop
  | env (env : Env) (hrx : env.rx <:+ w.env.rx) : Assign w { w with env := env }
  | deviceReset (driver : Nrf52) (env : Env) (hport : driver.close = w.self.driver.close)
      (hrx : env.rx = w.env.rx) :
      Assign w { w with
        self := { w.self with driver := driver }
        env := env
        log := w.log ++ [.deviceReset] }
  | tx (driver : Nrf52) (data : Bytes)
      (hidle : w.self.driver.IsIdle → driver.close = w.self.driver.close) :
      Assign w { w with self := { w.self with driver := driver }, log := w.log ++ [.tx data] }
  | encrypt :
      Assign w { w with
        self := { w.self with encTxPktCount := w.self.encTxPktCount + 1 }
        log := w.log ++ [.encrypt] }
  | decrypt :
      Assign w { w with
        self := { w.self with encRxPktCount := w.self.encRxPktCount + 1 }
        log := w.log ++ [.decrypt] }
  | encryptionOff : Assign w { w with self := { w.self with encrypted := false } }
  | symbols : Assign w { w with self := { w.self with symbols := some (symbolTable lib w.self) } }
  | deviceResetTime (resetBreaks : List (ℤ × ℤ)) (time : ℤ) :
      Assign w { w with
        self := { w.self with resetBreaks := resetBreaks, lastDeviceResetTime := time } }
  | addressType (isRand : ℕ) :
      Assign w { w with self := { w.self with peripheralAddressIsRand := isRand } }
  | smp (smp : τ) : Assign w { w with smp := smp, log := w.log ++ [.smp] }
  | configureConnection (smp : τ) :
      Assign w { w with smp := smp, log := w.log ++ [.configureConnection] }
  | pairingRequest (smp : τ) : Assign w { w with smp := smp }
  | ltk (ltk : Bytes) :
      Assign w { w with self := { w.self with connLtk := ltk }, log := w.log ++ [.ltk ltk] }
  | material (confirm random connLtkEncInf rand irk csrk keyX keyY dhkeyCheck : Bytes)
      (ediv atype : ℕ) :
      Assign w { w with
        self := { w.self with
          confirm := confirm, random := random, connLtkEncInf := connLtkEncInf, rand := rand,
          irk := irk, csrk := csrk, keyX := keyX, keyY := keyY, dhkeyCheck := dhkeyCheck,
          ediv := ediv, atype := atype } }

/-- The assignments of sending a packet and of judging a response. -/
inductive BareAssign (w : World τ) : World τ → Prop
  | env (env : Env) (hrx : env.rx = w.env.rx) : BareAssign w { w with env := env }
  | deviceReset (driver : Nrf52) (env : Env) (hport : driver.close = w.self.driver.close)
      (hrx : env.rx = w.env.rx) :
      BareAssign w { w with
        self := { w.self with driver := driver }
        env := env
        log := w.log ++ [.deviceReset] }
  | tx (driver : Nrf52) (data : Bytes)
      (hidle : w.self.driver.IsIdle → driver.close = w.self.driver.close) :
      BareAssign w { w with self := { w.self with driver := driver }, log := w.log ++ [.tx data] }
  | encrypt :
      BareAssign w { w with
        self := { w.self with encTxPktCount := w.self.encTxPktCount + 1 }
        log := w.log ++ [.encrypt] }
  | symbols :
      BareAssign w { w with self := { w.self with symbols := some (symbolTable lib w.self) } }
  | deviceResetTime (resetBreaks : List (ℤ × ℤ)) (time : ℤ) :
      BareAssign w { w with
        self := { w.self with resetBreaks := resetBreaks, lastDeviceResetTime := time } }

/-- With those of processing a received packet. -/
inductive SideAssign (w : World τ) : World τ → Prop
  | bare {w' : World τ} (h : BareAssign lib w w') : SideAssign w w'
  | smp (smp : τ) : SideAssign w { w with smp := smp, log := w.log ++ [.smp] }
  | ltk (ltk : Bytes) :
      SideAssign w { w with self := { w.self with connLtk := ltk }, log := w.log ++ [.ltk ltk] }
  | material (confirm random connLtkEncInf rand irk csrk keyX keyY dhkeyCheck : Bytes)
      (ediv atype : ℕ) :
      SideAssign w { w with
        self := { w.self with
          confirm := confirm, random := random, connLtkEncInf := connLtkEncInf, rand := rand,
          irk := irk, csrk := csrk, keyX := keyX, keyY := keyY, dhkeyCheck := dhkeyCheck,
          ediv := ediv, atype := atype } }

/-- The assignments of `receive` after `raw_receive` has returned. -/
inductive TakeAssign (w : World τ) : World τ → Prop
  | side {w' : World τ} (h : SideAssign lib w w') : TakeAssign w w'
  | decrypt :
      TakeAssign w { w with
        self := { w.self with encRxPktCount := w.self.encRxPktCount + 1 }
        log := w.log ++ [.decrypt] }
  | encryptionOff : TakeAssign w { w with self := { w.self with encrypted := false } }

/-- The further assignments of `ll_ctrl_enc_req`. -/
inductive EncReqAssign (w : World τ) : World τ → Prop
  | encReq :
      EncReqAssign w { w with
        self := { w.self with encTxPktCount := 0, encRxPktCount := 0 }, log := w.log ++ [.encReq] }
  | encRsp (skds ivs : ℕ) (connSkd : Bytes) :
      EncReqAssign w { w with
        self := { w.self with connSkd := connSkd }
        log := w.log ++ [.encRsp skds ivs w.self.encrypted] }
  | connIv (connIv : Bytes) : EncReqAssign w { w with self := { w.self with connIv := connIv } }
  | sessionKey (key : Bytes) :
      EncReqAssign w { w with self := { w.self with connSessionKey := key } }
  | startEncReq : EncReqAssign w { w with self := { w.self with encrypted := true } }

/-- The assignments of `reset`, `retry_sequence` and `step_internal`. -/
inductive TestAssign (w : World τ) : World τ → Prop
  | reset (draw : Addr × UInt32) (env : Env) (hrx : env.rx = w.env.rx) :
      TestAssign w { w with self := w.self.resetFields draw, env := env, log := w.log ++ [.reset] }
  | exec (sym : InputSymbol) : TestAssign w { w with log := w.log ++ [.exec sym] }
  | append (sym : InputSymbol) (out : Text) :
      TestAssign w { w with
        self := { w.self with
          inputSequence := w.self.inputSequence ++ [sym]
          outputSequence := w.self.outputSequence ++ [out] } }
  | retryRunning (running : Bool) :
      TestAssign w { w with self := { w.self with isRetryRunning := running } }
  | retry (message : RetryMessage) : TestAssign w { w with log := w.log ++ [.retry message] }

variable {lib} {cls}

/-- Sending and judging are among the assignments below `step_internal`. -/
theorem BareAssign.assign {w w' : World τ} (h : BareAssign lib w w') : Assign lib w w' := by
  cases h with
  | env env hrx => exact .env env (hrx ▸ List.suffix_rfl)
  | deviceReset driver env hport hrx => exact .deviceReset driver env hport hrx
  | tx driver data hidle => exact .tx driver data hidle
  | encrypt => exact .encrypt
  | symbols => exact .symbols
  | deviceResetTime => exact .deviceResetTime _ _

/-- So is what is done with a received packet. -/
theorem SideAssign.assign {w w' : World τ} (h : SideAssign lib w w') : Assign lib w w' := by
  cases h with
  | bare h => exact h.assign
  | smp => exact .smp _
  | ltk => exact .ltk _
  | material => exact .material _ _ _ _ _ _ _ _ _ _ _

/-- And the rest of `receive`. -/
theorem TakeAssign.assign {w w' : World τ} (h : TakeAssign lib w w') : Assign lib w w' := by
  cases h with
  | side h => exact h.assign
  | decrypt => exact .decrypt
  | encryptionOff => exact .encryptionOff

/-- Without the SMP server is a case of with it. -/
theorem bare_side {α : Type} {m : Program τ α} (h : Steps (BareAssign lib) m) :
    Steps (SideAssign lib) m :=
  h.mono fun _ _ h => .bare h

/-- What only sends and judges makes the assignments below `step_internal`. -/
theorem bare_steps {α : Type} {m : Program τ α} (h : Steps (BareAssign lib) m) :
    Steps (Assign lib) m :=
  h.mono fun _ _ h => h.assign

/-! ## The environment and the driver -/

/-- Reading the object gives the object of the state. -/
theorem getSelf_triple (P : World τ → Prop) (T : World τ → World τ → Prop) :
    Triple P T (getSelf : Program τ Blesul) fun self w => w.self = self ∧ P w := by
  refine Triple.get_bind fun w hw => .pure ?_
  rintro w' rfl
  exact ⟨rfl, hw⟩

/-- It raises nothing. -/
theorem getSelf_raises (P : World τ → Prop) (C : World τ → PyErr → Prop) :
    Raises P C (getSelf : Program τ Blesul) :=
  .get_bind fun _ _ => .pure _

/-- A program that reads the object goes on from the state it read it in. -/
theorem getSelf_bind_triple {P : World τ → Prop} {T : World τ → World τ → Prop} {α : Type}
    {Q : α → World τ → Prop} {f : Blesul → Program τ α}
    (h : ∀ w, P w → Triple (· = w) T (f w.self) Q) : Triple P T (getSelf >>= f) Q := by
  refine (getSelf_triple P T).bind fun self => Triple.of_eq ?_
  rintro w ⟨rfl, hw⟩
  exact h w hw

/-- The same for the assignments of a program that reads the object. -/
theorem getSelf_bind_steps {T : World τ → World τ → Prop} {α : Type} {f : Blesul → Program τ α}
    (h : ∀ self, Steps T (f self)) : Steps T (getSelf >>= f) :=
  getSelf_bind_triple fun w _ => (h w.self).pre fun _ _ => trivial

/-- And for how it ends. -/
theorem getSelf_bind_ends {P E : World τ → Prop} {T : World τ → World τ → Prop} {α : Type}
    {Q : α → World τ → Prop} {f : Blesul → Program τ α}
    (h : ∀ w, P w → Ends (· = w) T (f w.self) Q E) : Ends P T (getSelf >>= f) Q E := by
  refine ⟨getSelf_bind_triple fun w hw => (h w hw).1, fun w hw e he => ?_⟩
  obtain ⟨hres, hfin, -⟩ := bind_ok (f := f) (getSelf_returns w).1
  rw [(getSelf_returns w).2] at hres hfin
  rw [hfin]
  exact (h w hw).2 w rfl e (hres.symm.trans he)

/-- And for what it keeps. -/
theorem getSelf_bind_keeps {I : World τ → Prop} {T : World τ → World τ → Prop} {α : Type}
    {f : Blesul → Program τ α} (h : ∀ self, Keeps I T (f self)) : Keeps I T (getSelf >>= f) := by
  refine getSelf_bind_ends fun w hw => (h w.self).pre ?_
  rintro w' rfl
  exact hw

/-- Reading the clock assigns the environment, without the stream. -/
theorem time_bare : Steps (BareAssign lib) (time : Program τ ℤ) :=
  .bind .get fun _ => .bind (.modify fun _ => .env _ rfl) fun _ => .pure _

/-- It is among the assignments below `step_internal`. -/
theorem time_steps : Steps (Assign lib) (time : Program τ ℤ) := bare_steps time_bare

/-- `raw_receive` shortens the stream. -/
theorem rawReceive_steps : Steps (Assign lib) (rawReceive : Program τ (Option Bytes)) := by
  refine Triple.get_bind fun w _ => ?_
  match hrx : w.env.rx with
  | [] => exact .throw
  | _ :: rx =>
    refine .bind (Q := fun _ _ => True) (.modify ?_) fun _ => .pure fun _ _ => trivial
    rintro w' rfl
    exact ⟨.env { w'.env with rx := rx } (hrx ▸ List.suffix_cons _ rx), trivial⟩

/-- A method of the driver that leaves an idle driver as it is, up to the port. -/
theorem callDriver_bare {f : Nrf52 → Except PyErr (Nrf52 × Bytes)}
    (hidle : ∀ driver driver' data, f driver = .ok (driver', data) → driver.IsIdle →
      driver'.close = driver.close) : Steps (BareAssign lib) (callDriver f : Program τ Unit) := by
  refine Triple.get_bind fun w _ => ?_
  refine .bind (Q := fun r w' => w' = w ∧ f w.self.driver = .ok r) (.lift ?_) ?_
  · rintro r hr w' rfl
    exact ⟨rfl, hr⟩
  · rintro ⟨driver, data⟩
    refine .modify ?_
    rintro w' ⟨rfl, hf⟩
    exact ⟨.tx driver data (hidle _ _ _ hf), trivial⟩

/-- A device reset leaves an idle driver idle. -/
theorem driverResetDevice_bare : Steps (BareAssign lib) (driverResetDevice : Program τ Unit) := by
  refine .bind .get fun w => .bind (.modify fun w => ?_) fun _ => ?_
  · exact .deviceReset _ _ w.self.driver.closeForReset_close rfl
  · exact callDriver_bare fun _ _ _ h hidle => hidle.resetDevice h

/-- `send` counts what it encrypts, and then writes it. -/
theorem send_bare (pkt : Pkt) : Steps (BareAssign lib) (send lib pkt) := by
  refine getSelf_bind_steps fun self => .ite ?_ ?_
  · refine .bind (.lift _) fun pktSend => .bind (.modify fun _ => .encrypt) fun _ => ?_
    refine callDriver_bare fun driver driver' data h _ => ?_
    rw [Nrf52.rawSend, Nrf52.write] at h
    split at h
    case isTrue => rw [(Prod.mk.inj (Except.ok.inj h)).1]
    case isFalse => cases h
  · exact callDriver_bare fun _ _ _ h hidle => congrArg Nrf52.close (hidle.send h)

/-- `reset_device` measures the time that the reset takes. -/
theorem resetDevice_bare : Steps (BareAssign lib) (resetDevice : Program τ Unit) :=
  time_bare.bind fun _ => driverResetDevice_bare.bind fun _ => time_bare.bind fun _ =>
    .modify fun _ => .deviceResetTime _ _

/-! ## Receiving -/

/-- An output symbol creates the table of symbols, if it does not exist. -/
theorem outputSymbol_bare (pkts : List Pkt) : Steps (BareAssign lib) (outputSymbol lib pkts) := by
  refine .bind (getSelf_bind_triple fun w _ => ?_) fun _ => .pure _
  match w.self.symbols with
  | some table => exact (Steps.pure table).pre fun _ _ => trivial
  | none =>
    refine .bind (Q := fun _ _ => True) (.modify ?_) fun _ => .pure fun _ _ => trivial
    rintro w' rfl
    exact ⟨.symbols, trivial⟩

/-- Counting responses does so, too. -/
theorem countRsp_bare (nRspExpected nCyclicSeen : ℕ) (pkts : List Pkt) :
    Steps (BareAssign lib) (countRsp lib nRspExpected nCyclicSeen pkts) := by
  induction pkts generalizing nRspExpected nCyclicSeen with
  | nil => exact .pure _
  | cons pkt pkts ih => exact .ite (ih _ _) ((outputSymbol_bare _).bind fun _ => ih _ _)

/-- Judging a response does no more. -/
theorem isRspCompleteBase_bare (pkts : List Pkt) (recvSTime : ℤ) (recvSMin recvSMax : Option ℤ) :
    Steps (BareAssign lib) (isRspCompleteBase lib pkts recvSTime recvSMin recvSMax) :=
  (countRsp_bare _ _ _).bind fun _ => getSelf_bind_steps fun _ => .pure _

/-- Nor do the overrides. -/
theorem isRspComplete_bare (pkts : List Pkt) (recvSTime : ℤ) (recvSMin recvSMax : Option ℤ)
    (req : Option Pkt) :
    Steps (BareAssign lib) (isRspComplete lib cls pkts recvSTime recvSMin recvSMax req) := by
  rw [isRspComplete]
  match cls.isRspComplete with
  | .base => exact isRspCompleteBase_bare _ _ _ _
  | .nimble =>
    refine .ite (isRspCompleteBase_bare _ _ _ _) (getSelf_bind_steps fun _ => ?_)
    exact .ite (.pure _) (.ite (.pure _) (isRspCompleteBase_bare _ _ _ _))
  | .nrf52840DKNimble =>
    refine .ite (isRspCompleteBase_bare _ _ _ _) (getSelf_bind_steps fun _ => ?_)
    exact .ite (.pure _) (isRspCompleteBase_bare _ _ _ _)

/-- Taking over key material is one assignment. -/
theorem SideAssign.smpMaterial (w : World τ) (res : Pkt) :
    SideAssign lib w { w with self := smpMaterial w.self res } := by
  rw [Mapper.smpMaterial]
  repeat' split
  all_goals exact .material _ _ _ _ _ _ _ _ _ _ _

/-- The answers of the SMP server give an LTK or other material. -/
theorem smpAnswers_side (answers : List Bytes) : Steps (SideAssign lib) (smpAnswers lib answers) := by
  induction answers with
  | nil => exact .pure _
  | cons data answers ih =>
    rw [smpAnswers]
    split
    · exact .bind (.modify fun _ => .material _ _ _ _ _ _ _ _ _ _ _) fun _ => ih
    · split
      · exact .bind (.modify fun _ => .material _ _ _ _ _ _ _ _ _ _ _) fun _ => ih
      · split
        · exact .bind (.modify fun _ => .ltk _) fun _ => ih
        · exact .bind (.modify fun w => .smpMaterial w _) fun _ => ih

/-- The SMP server goes to a new state before. -/
theorem smpProcess_side (pkt : Pkt) : Steps (SideAssign lib) (smpProcess lib pkt) := by
  refine .bind .get fun w => .bind (.modify fun _ => .smp _) fun _ => ?_
  match (lib.smp.sendHci _ w.smp).1 with
  | none => exact .pure _
  | some answers => exact smpAnswers_side answers

/-- An answer of `handle_packet` is sent, and the clock is read. -/
theorem answerPkt_bare (pkt : Pkt) : Steps (BareAssign lib) (answerPkt lib cls pkt) := by
  refine getSelf_bind_steps fun self => ?_
  match cls.handlePacket.bind fun handlePacket => handlePacket self pkt with
  | none => exact .pure _
  | some resPkt => exact (send_bare resPkt).bind fun _ => time_bare.bind fun _ => .pure _

/-- What is done with a packet after it has been appended. -/
theorem processPkt_side (pkt : Pkt) : Steps (SideAssign lib) (processPkt lib cls pkt) := by
  rw [processPkt_eq]
  refine .bind (.ite (bare_side resetDevice_bare) (.pure _)) fun _ => ?_
  exact .bind (.ite (smpProcess_side pkt) (.pure _)) fun _ => bare_side (answerPkt_bare pkt)

/-- The same for all assignments below `step_internal`. -/
theorem driverResetDevice_steps : Steps (Assign lib) (driverResetDevice : Program τ Unit) :=
  bare_steps driverResetDevice_bare

/-- The same for `send`. -/
theorem send_steps (pkt : Pkt) : Steps (Assign lib) (send lib pkt) := bare_steps (send_bare pkt)

/-- The same for `reset_device`. -/
theorem resetDevice_steps : Steps (Assign lib) (resetDevice : Program τ Unit) :=
  bare_steps resetDevice_bare

/-- The same for output symbols. -/
theorem outputSymbol_steps (pkts : List Pkt) : Steps (Assign lib) (outputSymbol lib pkts) :=
  bare_steps (outputSymbol_bare pkts)

/-- The same for judging a response. -/
theorem isRspComplete_steps (pkts : List Pkt) (recvSTime : ℤ) (recvSMin recvSMax : Option ℤ)
    (req : Option Pkt) :
    Steps (Assign lib) (isRspComplete lib cls pkts recvSTime recvSMin recvSMax req) :=
  bare_steps (isRspComplete_bare pkts recvSTime recvSMin recvSMax req)

/-- `decrypt` advances the counter. -/
theorem decrypt_take (pkt : Pkt) : Steps (TakeAssign lib) (decrypt lib pkt) := by
  refine getSelf_bind_steps fun self => .ite (.bind (.lift _) fun dec => ?_) (.pure _)
  match dec with
  | none => exact .pure _
  | some _ => exact .bind (.modify fun _ => .decrypt) fun _ => .pure _

/-- An advertisement ends the encryption before. -/
theorem acceptData_take (data : Bytes) : Steps (TakeAssign lib) (acceptData lib data) := by
  have hdecrypt : Steps (TakeAssign lib) (acceptDecrypted lib (lib.scapy.btle data)) :=
    (decrypt_take _).bind fun _ => .pure _
  refine getSelf_bind_steps fun self => .ite ?_ (.pure _)
  exact .ite (.bind (.modify fun _ => .encryptionOff) fun _ => hdecrypt) hdecrypt

/-- The body of the loop of `receive` after `raw_receive`. -/
theorem receiveData_take (data : Bytes) : Steps (TakeAssign lib) (receiveData lib cls data) := by
  refine (acceptData_take data).bind fun pkt => ?_
  match pkt with
  | none => exact .pure _
  | some pkt => exact ((processPkt_side pkt).mono fun _ _ h => .side h).bind fun _ => .pure _

/-- It is among the assignments below `step_internal`. -/
theorem receiveData_steps (data : Bytes) : Steps (Assign lib) (receiveData lib cls data) :=
  (receiveData_take data).mono fun _ _ h => h.assign

/-- The loop, by induction on its bound. -/
theorem receiveLoop_steps (recvSMin recvSMax : Option ℤ) (maxPkts : ℕ) (req : Option Pkt)
    (bound : ℕ) (packets : List Pkt) (timeStart : ℤ) :
    Steps (Assign lib)
      (receiveLoop lib cls recvSMin recvSMax maxPkts req bound packets timeStart) := by
  induction bound generalizing packets timeStart with
  | zero => exact .throw _
  | succ bound ih =>
    have hrest (new : List Pkt × Option ℤ) := time_steps.bind fun timeNow =>
      (@isRspComplete_steps _ lib cls (packets ++ new.1)
        (timeNow - new.2.getD timeStart) recvSMin recvSMax req).bind fun complete =>
          .ite (c := (complete || (0 < maxPkts && (packets ++ new.1).length == maxPkts)) = true)
            (.pure (packets ++ new.1)) (ih (packets ++ new.1) (new.2.getD timeStart))
    refine rawReceive_steps.bind fun data => ?_
    match data with
    | none => exact .bind (.pure _) hrest
    | some data => exact (receiveData_steps data).bind hrest

/-- `receive` reads the clock before. -/
theorem receive_steps (recvSMin recvSMax : Option ℤ) (maxPkts : ℕ) (req : Option Pkt) :
    Steps (Assign lib) (receive lib cls recvSMin recvSMax maxPkts req) :=
  time_steps.bind fun _ => .bind .get fun _ => receiveLoop_steps _ _ _ _ _ _ _

/-! ## Input symbols -/

/-- The answers to a scan request say whether the address is random. -/
theorem llAdvScanReqPost_steps (pkts : List Pkt) :
    Steps (Assign lib) (llAdvScanReqPost pkts : Program τ Unit) := by
  induction pkts with
  | nil => exact .pure _
  | cons pkt pkts ih =>
    refine getSelf_bind_steps fun self => .ite ?_ ih
    match pkt.txAdd with
    | some txAdd => exact .bind (.modify fun _ => .addressType _) fun _ => ih
    | none => exact .bind (.throw _) fun _ => ih

/-- An `LL_PAUSE_ENC_RSP` ends the encryption. -/
theorem llCtrlPauseEncReqPost_steps (pkts : List Pkt) :
    Steps (Assign lib) (llCtrlPauseEncReqPost pkts : Program τ Unit) := by
  induction pkts with
  | nil => exact .pure _
  | cons pkt pkts ih => exact .ite (.bind (.modify fun _ => .encryptionOff) fun _ => ih) ih

/-- A pairing request configures the SMP server. -/
theorem smPairingReqPre_steps (pkt : Pkt) : Steps (Assign lib) (smPairingReqPre lib pkt) := by
  rw [smPairingReqPre]
  match pkt.smPairingRequest with
  | none => exact .throw _
  | some _ =>
    refine getSelf_bind_steps fun self => .bind (.modify fun _ => .configureConnection _) fun _ => ?_
    refine .bind .get fun w => .bind (.modify fun _ => .pairingRequest _) fun _ => ?_
    exact .ite (.pure _) (.throw _)

/-- What comes before a request, for every input symbol. -/
theorem callPre_steps (sym : InputSymbol) (pkt : Pkt) :
    Steps (Assign lib) (callPre lib cls sym pkt) := by
  rw [callPre.eq_def]
  split
  case h_1 => exact .ite (.bind (.modify fun _ => .encryptionOff) fun _ => .pure _) (.pure _)
  case h_2 => exact .bind (.modify fun _ => .encryptionOff) fun _ => .pure _
  case h_3 => exact smPairingReqPre_steps pkt
  case h_4 => exact smPairingReqPre_steps pkt
  case h_5 =>
    split
    · exact .pure _
    · exact .pure _
  case h_6 => exact .pure _

/-- What comes after it, for every input symbol. -/
theorem callPost_steps (sym : InputSymbol) (pkts : List Pkt) :
    Steps (Assign lib) (callPost sym pkts : Program τ Unit) := by
  rw [callPost.eq_def]
  split
  case h_1 => exact llAdvScanReqPost_steps pkts
  case h_2 => exact llCtrlPauseEncReqPost_steps pkts
  case h_3 => exact .pure _

/-- A request: its parts one after the other. -/
theorem performRequest_steps (sym : InputSymbol) (pkt : Pkt) :
    Steps (Assign lib) (performRequest lib cls sym pkt) :=
  (callPre_steps sym pkt).bind fun pkt => (send_steps pkt).bind fun _ =>
    (receive_steps _ _ _ _).bind fun resPkts => (callPost_steps sym resPkts).bind fun _ =>
      outputSymbol_steps resPkts

/-- Connecting, with a length request. -/
theorem llAdvConnectInd_steps (pkt : Pkt) : Steps (Assign lib) (llAdvConnectInd lib cls pkt) :=
  (send_steps pkt).bind fun _ => (receive_steps _ _ _ _).bind fun resPkts =>
    getSelf_bind_steps fun _ => (send_steps _).bind fun _ => (receive_steps _ _ _ _).bind fun _ =>
      outputSymbol_steps resPkts

/-- Terminating, with two feature requests. -/
theorem llCtrlTerminateInd_steps (pkt : Pkt) : Steps (Assign lib) (llCtrlTerminateInd lib cls pkt) :=
  (send_steps pkt).bind fun _ => getSelf_bind_steps fun _ => (send_steps _).bind fun _ =>
    getSelf_bind_steps fun _ => (send_steps _).bind fun _ => (receive_steps _ _ _ _).bind fun _ =>
      outputSymbol_steps _

/-! ## `ll_ctrl_enc_req` -/

/-- The assignments of any input symbol. -/
def SymbolAssign (lib : Lib τ) (w w' : World τ) : Prop := Assign lib w w' ∨ EncReqAssign w w'

/-- An `LL_ENC_RSP` gives the SKD, the IV and, when the encryption is off, the session key. -/
theorem handleEncRsp_steps (skds ivs : ℕ) :
    Steps (SymbolAssign lib) (handleEncRsp lib skds ivs : Program τ Unit) := by
  refine .bind (.lift _) fun skdsBytes => getSelf_bind_triple fun w _ => ?_
  refine .bind (Q := fun _ _ => True) (.modify ?_) fun _ => ?_
  · rintro w' rfl
    exact ⟨.inr (.encRsp _ _ _), trivial⟩
  · refine Steps.bind (.lift _) fun ivsBytes => .bind (.modify fun _ => .inr (.connIv _)) fun _ => ?_
    refine getSelf_bind_steps fun self => .ite ?_ (.pure _)
    exact .bind (.lift _) fun key => .modify fun _ => .inr (.sessionKey _)

/-- The loop of `ll_ctrl_enc_req`, by induction on its bound. -/
theorem encReqLoop_steps (timeStart : ℤ) (bound : ℕ) (pkt : Pkt) (resPkts : List Pkt) :
    Steps (SymbolAssign lib) (encReqLoop lib cls timeStart bound pkt resPkts) := by
  induction bound generalizing pkt resPkts with
  | zero => exact .throw _
  | succ bound ih =>
    refine (time_steps.mono fun _ _ => .inl).bind fun timeNow => ?_
    refine ((isRspComplete_steps _ _ _ _ _).mono fun _ _ => .inl).bind fun complete => ?_
    refine .ite (.pure _) (((receive_steps _ _ _ _).mono fun _ _ => .inl).bind fun pkts => ?_)
    match pkts with
    | [] => exact ih _ _
    | pkt :: _ =>
      have hloop := ih pkt (resPkts ++ [pkt])
      dsimp only
      split
      · exact (handleEncRsp_steps _ _).bind fun _ => hloop
      · exact .ite (.bind (.modify fun _ => .inr .startEncReq) fun _ => hloop) hloop

/-- The counters are set to zero after the request has been sent. -/
theorem llCtrlEncReq_steps (pkt : Pkt) : Steps (SymbolAssign lib) (llCtrlEncReq lib cls pkt) := by
  refine ((send_steps _).mono fun _ _ => .inl).bind fun _ => ?_
  refine .bind (.modify fun _ => .inr .encReq) fun _ => ?_
  refine (time_steps.mono fun _ _ => .inl).bind fun timeStart => .bind .get fun w => ?_
  exact (encReqLoop_steps _ _ _ _).bind fun resPkts => (outputSymbol_steps _).mono fun _ _ => .inl

/-- Every input symbol but `LL_CTRL_ENC_REQ` makes the assignments of `Assign`. -/
theorem performSymbol_steps_of_ne {sym : InputSymbol} (h : sym ≠ .llCtrlEncReq) (pkt : Pkt) :
    Steps (Assign lib) (performSymbol lib cls sym pkt) := by
  rw [performSymbol, if_neg h]
  exact .ite (llAdvConnectInd_steps _) (.ite (llCtrlTerminateInd_steps _) (performRequest_steps _ _))

/-- An input symbol makes these assignments and no others. -/
theorem performSymbol_steps (sym : InputSymbol) (pkt : Pkt) :
    Steps (SymbolAssign lib) (performSymbol lib cls sym pkt) := by
  by_cases h : sym = .llCtrlEncReq
  · rw [performSymbol, if_pos h]
    exact llCtrlEncReq_steps _
  · exact (performSymbol_steps_of_ne h _).mono fun _ _ => .inl

/-! ## Tests

What the assignments of a test keep, the programs above `performSymbol` keep.
-/

/-- The scan of `reset`, by induction on its attempts. -/
theorem resetScan_steps (is : List ℕ) : Steps (Assign lib) (resetScan lib cls is) := by
  induction is with
  | nil => exact .throw _
  | cons i is ih =>
    refine getSelf_bind_steps fun self => (send_steps _).bind fun _ => ?_
    refine (receive_steps _ _ _ _).bind fun scanRes => .ite (.pure _) ?_
    exact .ite (resetDevice_steps.bind fun _ => ih) ih

section Test

variable {I : World τ → Prop} {T : World τ → World τ → Prop}
  (hassign : ∀ w w', Assign lib w w' → I w → T w w' ∧ I w')

/-- What a step keeps, a replay keeps. -/
theorem replay_keeps {step : InputSymbol → Program τ Text} (hstep : ∀ sym, Keeps I T (step sym))
    (syms : List InputSymbol) : Keeps I T (replay step syms) := by
  induction syms with
  | nil => exact .pure fun _ => id
  | cons sym syms ih => exact (hstep sym).bind fun _ => ih

section Reset

variable (hreset : ∀ w (draw : Addr × UInt32) (env : Env), env.rx = w.env.rx → I w →
  T w { w with self := w.self.resetFields draw, env := env, log := w.log ++ [.reset] } ∧
    I { w with self := w.self.resetFields draw, env := env, log := w.log ++ [.reset] })

include hassign hreset

/-- `reset` assigns its fields between a termination and a scan. -/
theorem reset_keeps : Keeps I T (reset lib cls) := by
  have hscan : Keeps I T (do
      Exec.modify fun w =>
        { w with
          self := w.self.resetFields w.env.draws.head
          env := { w.env with draws := w.env.draws.tail }
          log := w.log ++ [.reset] }
      resetScan lib cls (List.range 32)) :=
    .bind (.modify fun w => hreset w _ _ rfl) fun _ => (resetScan_steps _).keeps hassign
  refine getSelf_bind_keeps fun self => .ite ?_ hscan
  exact ((send_steps _).keeps hassign).bind fun _ => hscan

/-- `pre` may reset the device before. -/
theorem pre_keeps : Keeps I T (pre lib cls) := by
  have hreset := @reset_keeps _ _ cls _ _ hassign hreset
  refine .ite ((time_steps.keeps hassign).bind fun now => getSelf_bind_keeps fun self => ?_) hreset
  refine .ite ((driverResetDevice_steps.keeps hassign).bind fun _ => ?_) hreset
  refine (time_steps.keeps hassign).bind fun now => .bind (.modify fun w => ?_) fun _ => hreset
  exact hassign w _ (.deviceResetTime _ _)

end Reset

variable (htest : ∀ w w', TestAssign w w' → I w → T w w' ∧ I w')

include hassign htest

/-- The loop of `retry_sequence`, by induction on its bound. -/
theorem retryLoop_keeps {step : InputSymbol → Program τ Text} (hstep : ∀ sym, Keeps I T (step sym))
    (seqIn : List InputSymbol) (seqOut : List Text) (bound attempt : ℕ) :
    Keeps I T (retryLoop lib cls step seqIn seqOut bound attempt) := by
  induction bound generalizing attempt with
  | zero => exact .throw fun _ => id
  | succ bound ih =>
    have hsay (message : RetryMessage) : Keeps I T (record (.retry message) id : Program τ Unit) :=
      .modify fun w => htest w _ (.retry message)
    have hrest : Keeps I T (retryAttempt lib cls step seqIn seqOut (attempt + 1)
        (retryLoop lib cls step seqIn seqOut bound (attempt + 1))) := by
      refine (hsay _).bind fun _ => .bind (.modify fun w => htest w _ (.retryRunning _)) fun _ => ?_
      refine (pre_keeps hassign fun w _ _ hrx => htest w _ (.reset _ _ hrx)).bind fun _ => ?_
      refine (replay_keeps hstep _).bind fun _ => getSelf_bind_keeps fun self => ?_
      refine .ite (.ite ((hsay _).bind fun _ => ih _) (hsay _)) ?_
      exact .ite (.ite ((hsay _).bind fun _ => ih _) (hsay _)) (hsay _)
    refine .ite ((hsay _).bind fun _ => ?_) hrest
    exact (resetDevice_steps.keeps hassign).bind fun _ => hrest

/-- A retry, around its loop. -/
theorem retrySequence_keeps {step : InputSymbol → Program τ Text}
    (hstep : ∀ sym, Keeps I T (step sym)) : Keeps I T (retrySequence lib cls step) := by
  refine getSelf_bind_keeps fun self => .bind (.modify fun w => htest w _ (.retry _)) fun _ => ?_
  refine (retryLoop_keeps hassign htest hstep _ _ _ _).bind fun _ => ?_
  refine .bind (.modify fun w => htest w _ (.retryRunning _)) fun _ => getSelf_bind_keeps fun self => ?_
  match self.outputSequence.getLast? with
  | some output => exact .pure fun _ => id
  | none => exact .throw fun _ => id

variable (hsym : ∀ sym pkt, Ends (fun w => I w ∧ ∃ log, w.log = log ++ [.exec sym]) T
  (performSymbol lib cls sym pkt) (fun _ => I) I)

include hsym

/-- What the assignments of tests keep is kept by a whole step, if each input symbol keeps it,
performed right after the step has been logged. -/
theorem stepInternal_keeps (depth : ℕ) (sym : InputSymbol) :
    Keeps I T (stepInternal lib cls depth sym) := by
  induction depth generalizing sym with
  | zero => exact .throw fun _ => id
  | succ depth ih =>
    refine Ends.bind (Q := fun _ w => I w ∧ ∃ log, w.log = log ++ [.exec sym]) (.modify ?_)
      fun _ => ?_
    · intro w hw
      obtain ⟨hstep, hkeep⟩ := htest w _ (.exec sym) hw
      exact ⟨hstep, hkeep, w.log, rfl⟩
    · refine getSelf_bind_ends fun w hw => ?_
      split
      · exact .throw fun w' hw' => hw' ▸ hw.1
      · refine .bind ((hsym sym _).pre fun w' hw' => hw' ▸ hw) fun out => ?_
        refine Keeps.bind (.modify fun w => htest w _ (.append _ _)) fun _ => ?_
        refine getSelf_bind_keeps fun self => ?_
        exact .ite (retrySequence_keeps hassign htest ih) (.pure fun _ => id)

/-- A step and the filtering of its output. -/
theorem step_keeps (sym : InputSymbol) : Keeps I T (step lib cls sym) :=
  (stepInternal_keeps hassign htest hsym _ _).bind fun _ => getSelf_bind_keeps fun _ =>
    .pure fun _ => id

/-- A call of the learner. -/
theorem call_keeps (c : Call) : Keeps I T (call lib cls c) :=
  match c with
  | .pre => pre_keeps hassign fun w _ _ hrx => htest w _ (.reset _ _ hrx)
  | .step sym => (step_keeps hassign htest hsym sym).bind fun _ => .pure fun _ => id

/-- Its calls, as long as none raises. -/
theorem calls_keeps (cs : List Call) : Keeps I T (calls lib cls cs) := by
  induction cs with
  | nil => exact .pure fun _ => id
  | cons c cs ih => exact (call_keeps hassign htest hsym c).bind fun _ => ih

/-- Its calls, where exceptions are caught. -/
theorem session_keeps (cs : List Call) : Keeps I T (session lib cls cs) := by
  induction cs with
  | nil => exact .pure fun _ => id
  | cons c cs ih => exact (call_keeps hassign htest hsym c).attempt.bind fun _ => ih

end Test

/-- Assignments within a relation keep no more than that. -/
theorem keeps_true {A T : World τ → World τ → Prop} (h : ∀ w w', A w w' → T w w') (w w' : World τ)
    (hassign : A w w') (_ : True) : T w w' ∧ True :=
  ⟨h w w' hassign, trivial⟩

end BleFuzzer.Mapper

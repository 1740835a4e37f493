import BleFuzzer.Mapper.Step

/-!
# What the programs of the mapper depend on

Two objects agree when they have the same `core`, the fields that `reset` leaves in an object and
that its programs read. Every program below `step` behaves alike from states that agree, as long as
no packet reaches an SMP server that is still in the state of another test.
-/

namespace BleFuzzer.Mapper

open Driver Exec

variable {τ : Type}

/-- The object without its measurements of time and its table of symbols. -/
def Blesul.core (self : Blesul) : Blesul :=
  { self with lastDeviceResetTime := 0, testStartTime := 0, resetBreaks := [], symbols := none }

/-- The SMP server is given a packet before it is configured, in what a log adds to `base`. -/
def SmpUnconfigured (base log : List Event) : Prop :=
  ∃ l₁ l₂, log = base ++ l₁ ++ Event.smp :: l₂ ∧ .configureConnection ∉ l₁

/-- Where two tests start: their logs, and whether their SMP servers may be in different states. -/
structure Start where
  base₁ : List Event
  base₂ : List Event
  smpDiffers : Prop

/-- Two tests agree. -/
structure Agree (lib : Lib τ) (cls : MapperClass) (st : Start) (w₁ w₂ : World τ) : Prop where
  core : w₁.self.core = w₂.self.core
  /-- Where it decides whether `pre` resets the device. -/
  lastDeviceResetTime : cls.preResets = true →
    w₁.self.lastDeviceResetTime = w₂.self.lastDeviceResetTime
  symbols₁ : ∀ table, w₁.self.symbols = some table → table = symbolTable lib w₁.self
  symbols₂ : ∀ table, w₂.self.symbols = some table → table = symbolTable lib w₂.self
  env : w₁.env = w₂.env
  log : ∃ l, w₁.log = st.base₁ ++ l ∧ w₂.log = st.base₂ ++ l ∧
    (w₁.smp = w₂.smp ∨ st.smpDiffers ∧ .configureConnection ∉ l)

/-- The first test has used the SMP server of another one. -/
def Stale (st : Start) (w : World τ) : Prop := st.smpDiffers ∧ SmpUnconfigured st.base₁ w.log

/-- A program behaves alike in tests that agree. -/
abbrev Insensitive (lib : Lib τ) (cls : MapperClass) (st : Start) {α : Type} (m : Program τ α) :
    Prop :=
  Alike (Agree lib cls st) (Stale st) m (Agree lib cls st)

/-- What is assumed of the libraries. -/
structure Lib.Regular (lib : Lib τ) : Prop where
  /-- The summaries of the mapper's own packets do not depend on the object. -/
  summary : ∀ sym self self', lib.scapy.summary (packets sym self) =
    lib.scapy.summary (packets sym self')
  /-- The SMP server keeps no state through `configure_connection`. -/
  configureConnection : ∀ pin central peripheral isRand iocap authentication s s',
    lib.smp.configureConnection central peripheral isRand iocap authentication
        (lib.smp.setPinCode pin s) =
      lib.smp.configureConnection central peripheral isRand iocap authentication
        (lib.smp.setPinCode pin s')

/-- The `handle_packet` of a class looks at the access address only. -/
def MapperClass.Regular (cls : MapperClass) : Prop :=
  ∀ handlePacket, cls.handlePacket = some handlePacket → ∀ self self' : Blesul,
    self.accessAddress = self'.accessAddress → handlePacket self = handlePacket self'

variable {lib : Lib τ} {cls : MapperClass} {st : Start}

/-- With regular libraries, all objects have the same table of symbols. -/
theorem symbolTable_eq (hlib : lib.Regular) (self self' : Blesul) :
    symbolTable lib self = symbolTable lib self' := by
  simp only [symbolTable, hlib.summary _ self self']

/-! ## Rules -/

/-- A test that has gone wrong does not become right again. -/
theorem Stale.append {w w' : World τ} {l : List Event} (h : Stale st w) (hlog : w'.log = w.log ++ l) :
    Stale st w' := by
  obtain ⟨hdiffers, l₁, l₂, hw, hconf⟩ := h
  exact ⟨hdiffers, l₁, l₂ ++ l, by rw [hlog, hw]; simp, hconf⟩

/-- Reading the object is reading the state. -/
theorem getSelf_bind_eq {α : Type} (f : Blesul → Program τ α) :
    (getSelf >>= f) = Exec.get >>= fun w => f w.self := rfl

/-- A program that goes on from the core of the object. -/
theorem getSelf_bind_insensitive {α : Type} {f : Blesul → Program τ α}
    (hf : ∀ self, f self = f self.core) (h : ∀ self, Insensitive lib cls st (f self)) :
    Insensitive lib cls st (getSelf >>= f) := by
  rw [getSelf_bind_eq]
  refine .get_bind (fun w₁ w₂ hw => .inr ?_) fun w => h w.self
  rw [hf, hw.core, ← hf]

/-- An assignment of fields of the core. -/
structure AssignsCore (f : Blesul → Blesul) : Prop where
  core : ∀ self, (f self).core = (f self.core).core
  lastDeviceResetTime : ∀ self self', self.lastDeviceResetTime = self'.lastDeviceResetTime →
    (f self).lastDeviceResetTime = (f self').lastDeviceResetTime
  symbols : ∀ self, (f self).symbols = self.symbols

/-- An assignment with an event that does not configure the SMP server. -/
theorem record_insensitive (hlib : lib.Regular) {e : Event} {f : Blesul → Blesul}
    (hf : AssignsCore f) (he : e ≠ .configureConnection) :
    Insensitive lib cls st (record e f : Program τ Unit) := by
  refine .modify (fun w hw => hw.append rfl) fun w₁ w₂ hw => ?_
  obtain ⟨l, hl₁, hl₂, hsmp⟩ := hw.log
  refine ⟨?_, ?_, ?_, ?_, hw.env, l ++ [e], ?_, ?_, ?_⟩
  · rw [hf.core, hw.core, ← hf.core]
  · exact fun hpre => hf.lastDeviceResetTime _ _ (hw.lastDeviceResetTime hpre)
  · intro table htable
    rw [hw.symbols₁ table ((hf.symbols _).symm.trans htable)]
    exact symbolTable_eq hlib _ _
  · intro table htable
    rw [hw.symbols₂ table ((hf.symbols _).symm.trans htable)]
    exact symbolTable_eq hlib _ _
  · rw [hl₁, List.append_assoc]
  · rw [hl₂, List.append_assoc]
  · refine hsmp.imp_right fun ⟨hdiffers, hconf⟩ => ⟨hdiffers, ?_⟩
    simpa [hconf] using he.symm

/-- An assignment of fields of the core keeps tests in agreement. -/
theorem modifySelf_insensitive (hlib : lib.Regular) {f : Blesul → Blesul} (hf : AssignsCore f) :
    Insensitive lib cls st (modifySelf f : Program τ Unit) := by
  refine .modify (fun _ => id) fun w₁ w₂ hw => ?_
  refine ⟨?_, fun hpre => hf.lastDeviceResetTime _ _ (hw.lastDeviceResetTime hpre), ?_, ?_, hw.env,
    hw.log⟩
  · rw [hf.core, hw.core, ← hf.core]
  · intro table htable
    rw [hw.symbols₁ table ((hf.symbols _).symm.trans htable)]
    exact symbolTable_eq hlib _ _
  · intro table htable
    rw [hw.symbols₂ table ((hf.symbols _).symm.trans htable)]
    exact symbolTable_eq hlib _ _

/-- A change of the environment. -/
theorem modifyEnv_insensitive (f : Env → Env) :
    Insensitive lib cls st (Exec.modify fun w => { w with env := f w.env } : Program τ Unit) :=
  .modify (fun _ => id) fun _ _ hw =>
    ⟨hw.core, hw.lastDeviceResetTime, hw.symbols₁, hw.symbols₂, congrArg f hw.env, hw.log⟩

/-! ## The environment and the driver -/

/-- The clock is part of the environment. -/
theorem time_insensitive : Insensitive lib cls st (time : Program τ ℤ) := by
  refine .get_bind (fun w₁ w₂ hw => .inr ?_) fun w =>
    (modifyEnv_insensitive fun env => { env with clock := env.clock.tail }).bind fun _ => .pure _
  rw [hw.env]

/-- So is the stream of incoming packets. -/
theorem rawReceive_insensitive :
    Insensitive lib cls st (rawReceive : Program τ (Option Bytes)) := by
  refine .get_bind (fun w₁ w₂ hw => .inr ?_) fun w => ?_
  · rw [hw.env]
  · match w.env.rx with
    | [] => exact .throw _
    | _ :: rx =>
      exact (modifyEnv_insensitive fun env => { env with rx := rx }).bind fun _ => .pure _

/-- The driver is part of the core. -/
theorem callDriver_insensitive (hlib : lib.Regular) (f : Nrf52 → Except PyErr (Nrf52 × Bytes)) :
    Insensitive lib cls st (callDriver f : Program τ Unit) := by
  refine .get_bind (fun w₁ w₂ hw => .inr ?_) fun w => (Alike.lift _).bind fun r => ?_
  · have hdriver : w₁.self.core.driver = w₂.self.core.driver := congrArg Blesul.driver hw.core
    exact congrArg (fun driver => Exec.lift (f driver) >>= _) hdriver
  · exact record_insensitive hlib ⟨fun _ => rfl, fun _ _ => id, fun _ => rfl⟩ nofun

/-- So is what `reset_device` does to it. -/
theorem driverResetDevice_insensitive (hlib : lib.Regular) :
    Insensitive lib cls st (driverResetDevice : Program τ Unit) := by
  refine .get_bind (fun w₁ w₂ hw => .inr ?_) fun w => ?_
  · rw [hw.env]
  · refine Alike.bind (.modify (fun w hw => hw.append rfl) fun w₁ w₂ hw => ?_) fun _ =>
      callDriver_insensitive hlib _
    obtain ⟨l, hl₁, hl₂, hsmp⟩ := hw.log
    refine ⟨?_, hw.lastDeviceResetTime, ?_, ?_,
      congrArg (fun env => { env with resets := env.resets.tail }) hw.env, l ++ [.deviceReset],
      ?_, ?_, hsmp.imp_right fun ⟨hdiffers, hconf⟩ => ⟨hdiffers, by simpa using hconf⟩⟩
    · exact congrArg (fun core : Blesul => { core with driver := core.driver.closeForReset }) hw.core
    · exact fun table htable => (hw.symbols₁ table htable).trans (symbolTable_eq hlib _ _)
    · exact fun table htable => (hw.symbols₂ table htable).trans (symbolTable_eq hlib _ _)
    · rw [hl₁, List.append_assoc]
    · rw [hl₂, List.append_assoc]

/-- `reset_device` measures times, which are not in the core and are not read. -/
theorem resetDevice_insensitive (hlib : lib.Regular) :
    Insensitive lib cls st (resetDevice : Program τ Unit) := by
  refine time_insensitive.bind fun timeBefore => (driverResetDevice_insensitive hlib).bind fun _ => ?_
  exact time_insensitive.bind fun timeAfter =>
    modifySelf_insensitive hlib ⟨fun _ => rfl, fun _ _ _ => rfl, fun _ => rfl⟩

/-! ## Sending and receiving -/

/-- `send` reads the encryption fields and the counter. -/
theorem send_insensitive (hlib : lib.Regular) (pkt : Pkt) :
    Insensitive lib cls st (send lib pkt) := by
  refine getSelf_bind_insensitive (fun _ => rfl) fun self => .ite ?_ (callDriver_insensitive hlib _)
  refine (Alike.lift _).bind fun pktSend => Alike.bind ?_ fun _ => callDriver_insensitive hlib _
  exact record_insensitive hlib ⟨fun _ => rfl, fun _ _ => id, fun _ => rfl⟩ nofun

/-- The table may exist in one test and be created in the other: it is the same. -/
theorem getSymbols_insensitive (hlib : lib.Regular) : Insensitive lib cls st (getSymbols lib) where
  keeps w hw := by
    rw [(getSymbols_returns w).2]
    exact hw
  alike w₁ w₂ hw := by
    have htable {w : World τ} (h : ∀ table, w.self.symbols = some table →
        table = symbolTable lib w.self) :
        w.self.symbols.getD (symbolTable lib w.self) = symbolTable lib w.self := by
      cases hsymbols : w.self.symbols with
      | none => rfl
      | some table => exact h table hsymbols
    obtain ⟨hres₁, hfin₁⟩ := @getSymbols_returns _ lib w₁
    obtain ⟨hres₂, hfin₂⟩ := @getSymbols_returns _ lib w₂
    rw [hres₁, hres₂, hfin₁, hfin₂, htable hw.symbols₁, htable hw.symbols₂]
    refine .inr ⟨congrArg _ (symbolTable_eq hlib _ _), hw.core, hw.lastDeviceResetTime, ?_, ?_, hw.env,
      hw.log⟩
    · rintro table ⟨⟩
      exact symbolTable_eq hlib _ _
    · rintro table ⟨⟩
      exact symbolTable_eq hlib _ _

/-- Output symbols only depend on the packets. -/
theorem outputSymbol_insensitive (hlib : lib.Regular) (pkts : List Pkt) :
    Insensitive lib cls st (outputSymbol lib pkts) :=
  (getSymbols_insensitive hlib).bind fun _ => .pure _

/-- Counting responses uses output symbols. -/
theorem countRsp_insensitive (hlib : lib.Regular) (nRspExpected nCyclicSeen : ℕ) (pkts : List Pkt) :
    Insensitive lib cls st (countRsp lib nRspExpected nCyclicSeen pkts) := by
  induction pkts generalizing nRspExpected nCyclicSeen with
  | nil => exact .pure _
  | cons pkt pkts ih => exact .ite (ih _ _) ((outputSymbol_insensitive hlib _).bind fun _ => ih _ _)

/-- `is_rsp_complete` reads the receive times besides. -/
theorem isRspCompleteBase_insensitive (hlib : lib.Regular) (pkts : List Pkt) (recvSTime : ℤ)
    (recvSMin recvSMax : Option ℤ) :
    Insensitive lib cls st (isRspCompleteBase lib pkts recvSTime recvSMin recvSMax) :=
  (countRsp_insensitive hlib _ _ _).bind fun _ =>
    getSelf_bind_insensitive (fun _ => rfl) fun _ => .pure _

/-- So do its overrides. -/
theorem isRspComplete_insensitive (hlib : lib.Regular) (cls' : MapperClass) (pkts : List Pkt)
    (recvSTime : ℤ) (recvSMin recvSMax : Option ℤ) (req : Option Pkt) :
    Insensitive lib cls st (isRspComplete lib cls' pkts recvSTime recvSMin recvSMax req) := by
  rw [isRspComplete]
  match cls'.isRspComplete with
  | .base => exact isRspCompleteBase_insensitive hlib _ _ _ _
  | .nimble =>
    refine .ite (isRspCompleteBase_insensitive hlib _ _ _ _)
      (getSelf_bind_insensitive (fun _ => rfl) fun _ => ?_)
    exact .ite (.pure _) (.ite (.pure _) (isRspCompleteBase_insensitive hlib _ _ _ _))
  | .nrf52840DKNimble =>
    refine .ite (isRspCompleteBase_insensitive hlib _ _ _ _)
      (getSelf_bind_insensitive (fun _ => rfl) fun _ => ?_)
    exact .ite (.pure _) (isRspCompleteBase_insensitive hlib _ _ _ _)

/-- `decrypt` reads the encryption fields and the counter. -/
theorem decrypt_insensitive (hlib : lib.Regular) (pkt : Pkt) :
    Insensitive lib cls st (decrypt lib pkt) := by
  refine getSelf_bind_insensitive (fun _ => rfl) fun self => .ite ?_ (.pure _)
  refine (Alike.lift _).bind fun dec => ?_
  match dec with
  | none => exact .pure _
  | some _ =>
    refine Alike.bind ?_ fun _ => .pure _
    exact record_insensitive hlib ⟨fun _ => rfl, fun _ _ => id, fun _ => rfl⟩ nofun

/-- All key material is in the core. -/
theorem assignsCore_smpMaterial (res : Pkt) : AssignsCore fun self => smpMaterial self res := by
  refine ⟨fun self => ?_, fun self self' h => ?_, fun self => ?_⟩ <;> simp only [smpMaterial] <;>
    repeat' split
  all_goals first | rfl | exact h

/-- Answers of the SMP server are taken over into the core. -/
theorem smpAnswers_insensitive (hlib : lib.Regular) (answers : List Bytes) :
    Insensitive lib cls st (smpAnswers lib answers) := by
  induction answers with
  | nil => exact .pure _
  | cons data answers ih =>
    rw [smpAnswers]
    split
    · refine (modifySelf_insensitive hlib ?_).bind fun _ => ih
      exact ⟨fun _ => rfl, fun _ _ => id, fun _ => rfl⟩
    · split
      · refine (modifySelf_insensitive hlib ?_).bind fun _ => ih
        exact ⟨fun _ => rfl, fun _ _ => id, fun _ => rfl⟩
      · split
        · refine (record_insensitive hlib ?_ ?_).bind fun _ => ih
          · exact ⟨fun _ => rfl, fun _ _ => id, fun _ => rfl⟩
          · nofun
        · exact (modifySelf_insensitive hlib (assignsCore_smpMaterial _)).bind fun _ => ih

/-- A change of the SMP server's state. -/
theorem modifySmp_insensitive {e : Event} (f : τ → τ) (he : e ≠ .configureConnection) :
    Insensitive lib cls st
      (Exec.modify fun w => { w with smp := f w.smp, log := w.log ++ [e] } : Program τ Unit) := by
  refine .modify (fun _ hw => hw.append rfl) fun w₁ w₂ hw => ?_
  obtain ⟨l, hl₁, hl₂, hsmp⟩ := hw.log
  refine ⟨hw.core, hw.lastDeviceResetTime, hw.symbols₁, hw.symbols₂, hw.env, l ++ [e], ?_, ?_, ?_⟩
  · rw [hl₁, List.append_assoc]
  · rw [hl₂, List.append_assoc]
  · refine hsmp.imp (congrArg f) fun ⟨hdiffers, hconf⟩ => ⟨hdiffers, ?_⟩
    simpa [hconf] using he.symm

/-- A packet for an SMP server in the state of another test is the one case that is excluded. -/
theorem smpProcess_insensitive (hlib : lib.Regular) (pkt : Pkt) :
    Insensitive lib cls st (smpProcess lib pkt) := by
  have hanswers : ∀ answers, Insensitive lib cls st (smpAnswers lib answers) :=
    smpAnswers_insensitive hlib
  refine .get_bind (fun w₁ w₂ hw => ?_) fun w => ?_
  · obtain ⟨l, hl₁, -, hsmp | ⟨hdiffers, hconf⟩⟩ := hw.log
    · rw [hsmp]
      exact .inr rfl
    · have hstale (smp : τ → τ) : Stale st ((Exec.modify fun w =>
          { w with smp := smp w.smp, log := w.log ++ [.smp] } : Program τ Unit).final w₁) :=
        ⟨hdiffers, l, [], by rw [modify_final, hl₁], hconf⟩
      rw [(bind_ok (modify_result _ w₁)).2.1]
      left
      split
      · exact hstale fun smp => (lib.smp.sendHci _ smp).2
      · exact (hanswers _).keeps _ (hstale fun smp => (lib.smp.sendHci _ smp).2)
  · refine Alike.bind (modifySmp_insensitive (fun smp => (lib.smp.sendHci _ smp).2) nofun) fun _ => ?_
    split
    · exact .pure _
    · exact hanswers _

/-- A regular `handle_packet` reads the access address. -/
theorem answerPkt_insensitive (hlib : lib.Regular) (hcls : cls.Regular) (pkt : Pkt) :
    Insensitive lib cls st (answerPkt lib cls pkt) := by
  refine getSelf_bind_insensitive (fun self => ?_) fun self => ?_
  · have hhandle : (cls.handlePacket.bind fun handlePacket => handlePacket self pkt) =
        cls.handlePacket.bind fun handlePacket => handlePacket self.core pkt := by
      cases h : cls.handlePacket with
      | none => rfl
      | some handlePacket => exact congrFun (hcls handlePacket h self self.core rfl) pkt
    rw [hhandle]
  · match cls.handlePacket.bind fun handlePacket => handlePacket self pkt with
    | none => exact .pure _
    | some resPkt =>
      exact (send_insensitive hlib _).bind fun _ => time_insensitive.bind fun _ => .pure _

/-- A received packet may reset the device and reach the SMP server. -/
theorem processPkt_insensitive (hlib : lib.Regular) (hcls : cls.Regular) (pkt : Pkt) :
    Insensitive lib cls st (processPkt lib cls pkt) := by
  rw [processPkt_eq]
  refine Alike.bind (.ite (resetDevice_insensitive hlib) (.pure _)) fun _ => ?_
  refine Alike.bind (.ite (smpProcess_insensitive hlib pkt) (.pure _)) fun _ => ?_
  exact answerPkt_insensitive hlib hcls pkt

/-- Whether a packet is ours depends on the addresses, which are in the core. -/
theorem acceptData_insensitive (hlib : lib.Regular) (data : Bytes) :
    Insensitive lib cls st (acceptData lib data) := by
  have hdecrypt : Insensitive lib cls st (acceptDecrypted lib (lib.scapy.btle data)) :=
    (decrypt_insensitive hlib _).bind fun _ => .pure _
  refine getSelf_bind_insensitive (fun _ => rfl) fun self => .ite (.ite ?_ hdecrypt) (.pure _)
  refine (modifySelf_insensitive hlib ?_).bind fun _ => hdecrypt
  exact ⟨fun _ => rfl, fun _ _ => id, fun _ => rfl⟩

/-- The body of the loop of `receive`. -/
theorem receiveData_insensitive (hlib : lib.Regular) (hcls : cls.Regular) (data : Bytes) :
    Insensitive lib cls st (receiveData lib cls data) := by
  refine (acceptData_insensitive hlib data).bind fun pkt => ?_
  match pkt with
  | none => exact .pure _
  | some pkt => exact (processPkt_insensitive hlib hcls pkt).bind fun _ => .pure _

/-- The loop, by induction on its bound. -/
theorem receiveLoop_insensitive (hlib : lib.Regular) (hcls : cls.Regular)
    (recvSMin recvSMax : Option ℤ) (maxPkts : ℕ) (req : Option Pkt) (bound : ℕ)
    (packets : List Pkt) (timeStart : ℤ) :
    Insensitive lib cls st
      (receiveLoop lib cls recvSMin recvSMax maxPkts req bound packets timeStart) := by
  induction bound generalizing packets timeStart with
  | zero => exact .throw _
  | succ bound ih =>
    have hrest (new : List Pkt × Option ℤ) := time_insensitive.bind fun timeNow =>
      (@isRspComplete_insensitive _ _ cls st hlib cls (packets ++ new.1)
        (timeNow - new.2.getD timeStart) recvSMin recvSMax req).bind fun complete =>
          .ite (c := (complete || (0 < maxPkts && (packets ++ new.1).length == maxPkts)) = true)
            (.pure (packets ++ new.1)) (ih (packets ++ new.1) (new.2.getD timeStart))
    refine rawReceive_insensitive.bind fun data => ?_
    match data with
    | none => exact Alike.bind (.pure _) hrest
    | some data => exact (receiveData_insensitive hlib hcls data).bind hrest

/-- The bound of the loop is the length of the stream, which is the same. -/
theorem receive_insensitive (hlib : lib.Regular) (hcls : cls.Regular)
    (recvSMin recvSMax : Option ℤ) (maxPkts : ℕ) (req : Option Pkt) :
    Insensitive lib cls st (receive lib cls recvSMin recvSMax maxPkts req) := by
  refine time_insensitive.bind fun timeStart => .get_bind (fun w₁ w₂ hw => .inr ?_) fun w =>
    receiveLoop_insensitive hlib hcls _ _ _ _ _ _ _
  rw [hw.env]

/-! ## Input symbols -/

/-- The address type of the peripheral is in the core. -/
theorem llAdvScanReqPost_insensitive (hlib : lib.Regular) (pkts : List Pkt) :
    Insensitive lib cls st (llAdvScanReqPost pkts : Program τ Unit) := by
  induction pkts with
  | nil => exact .pure _
  | cons pkt pkts ih =>
    refine getSelf_bind_insensitive (fun _ => rfl) fun self => .ite ?_ ih
    match pkt.txAdd with
    | some txAdd =>
      refine (modifySelf_insensitive hlib ?_).bind fun _ => ih
      exact ⟨fun _ => rfl, fun _ _ => id, fun _ => rfl⟩
    | none => exact Alike.bind (.throw _) fun _ => ih

/-- So is the flag of the encryption. -/
theorem encryptedOff_insensitive (hlib : lib.Regular) (encrypted : Bool) :
    Insensitive lib cls st
      (modifySelf fun self => { self with encrypted := encrypted } : Program τ Unit) :=
  modifySelf_insensitive hlib ⟨fun _ => rfl, fun _ _ => id, fun _ => rfl⟩

/-- Pausing the encryption assigns this flag. -/
theorem llCtrlPauseEncReqPost_insensitive (hlib : lib.Regular) (pkts : List Pkt) :
    Insensitive lib cls st (llCtrlPauseEncReqPost pkts : Program τ Unit) := by
  induction pkts with
  | nil => exact .pure _
  | cons pkt pkts ih => exact .ite ((encryptedOff_insensitive hlib false).bind fun _ => ih) ih

/-- The session key is made from fields of the core. -/
theorem handleEncRsp_insensitive (hlib : lib.Regular) (skds ivs : ℕ) :
    Insensitive lib cls st (handleEncRsp lib skds ivs : Program τ Unit) := by
  refine (Alike.lift _).bind fun skdsBytes => getSelf_bind_insensitive (fun _ => rfl) fun self => ?_
  refine (record_insensitive hlib ?_ ?_).bind fun _ => (Alike.lift _).bind fun ivsBytes => ?_
  · exact ⟨fun _ => rfl, fun _ _ => id, fun _ => rfl⟩
  · nofun
  refine (modifySelf_insensitive hlib ?_).bind fun _ => ?_
  · exact ⟨fun _ => rfl, fun _ _ => id, fun _ => rfl⟩
  refine getSelf_bind_insensitive (fun _ => rfl) fun self => .ite ?_ (.pure _)
  refine (Alike.lift _).bind fun key => modifySelf_insensitive hlib ?_
  exact ⟨fun _ => rfl, fun _ _ => id, fun _ => rfl⟩

/-- The loop of `ll_ctrl_enc_req`, by induction on its bound. -/
theorem encReqLoop_insensitive (hlib : lib.Regular) (hcls : cls.Regular) (timeStart : ℤ)
    (bound : ℕ) (pkt : Pkt) (resPkts : List Pkt) :
    Insensitive lib cls st (encReqLoop lib cls timeStart bound pkt resPkts) := by
  induction bound generalizing pkt resPkts with
  | zero => exact .throw _
  | succ bound ih =>
    refine time_insensitive.bind fun timeNow => ?_
    refine (isRspComplete_insensitive hlib cls _ _ _ _ _).bind fun complete => .ite (.pure _) ?_
    refine (receive_insensitive hlib hcls _ _ _ _).bind fun pkts => ?_
    match pkts with
    | [] => exact ih _ _
    | pkt :: _ =>
      have hloop := ih pkt (resPkts ++ [pkt])
      dsimp only
      split
      · exact (handleEncRsp_insensitive hlib _ _).bind fun _ => hloop
      · exact .ite ((encryptedOff_insensitive hlib true).bind fun _ => hloop) hloop

/-- The encryption request, with its counters set to zero. -/
theorem llCtrlEncReq_insensitive (hlib : lib.Regular) (hcls : cls.Regular) (pkt : Pkt) :
    Insensitive lib cls st (llCtrlEncReq lib cls pkt) := by
  refine (send_insensitive hlib _).bind fun _ => (record_insensitive hlib ?_ ?_).bind fun _ => ?_
  · exact ⟨fun _ => rfl, fun _ _ => id, fun _ => rfl⟩
  · nofun
  refine time_insensitive.bind fun timeStart => .get_bind (fun w₁ w₂ hw => .inr ?_) fun w => ?_
  · rw [hw.env]
  · exact (encReqLoop_insensitive hlib hcls _ _ _ _).bind fun _ => outputSymbol_insensitive hlib _

/-- From here on, the SMP servers of both tests are in one state. -/
theorem smPairingReqPre_insensitive (hlib : lib.Regular) (pkt : Pkt) :
    Insensitive lib cls st (smPairingReqPre lib pkt) := by
  rw [smPairingReqPre]
  match pkt.smPairingRequest with
  | none => exact .throw _
  | some (pairingIocap, authentication) =>
    refine getSelf_bind_insensitive (fun _ => rfl) fun self => ?_
    refine Alike.modify_bind (Q := fun w₁ w₂ => Agree lib cls st w₁ w₂ ∧ w₁.smp = w₂.smp)
      (fun _ hw => hw.append rfl) (fun w₁ w₂ hw => ?_) ?_
    · have hsmp := hlib.configureConnection [0, 0, 0, 0] self.centralAddress self.peripheralAddress
        self.peripheralAddressIsRand pairingIocap authentication w₁.smp w₂.smp
      obtain ⟨l, hl₁, hl₂, -⟩ := hw.log
      refine ⟨⟨hw.core, hw.lastDeviceResetTime, hw.symbols₁, hw.symbols₂, hw.env,
        l ++ [.configureConnection], ?_, ?_, .inl hsmp⟩, hsmp⟩
      · rw [hl₁, List.append_assoc]
      · rw [hl₂, List.append_assoc]
    · refine .get_bind (fun w₁ w₂ hw => .inr ?_) fun w => ?_
      · rw [hw.2]
      · refine Alike.modify_bind (Q := Agree lib cls st) (fun _ => id) (fun w₁ w₂ hw => ?_)
          (.ite (.pure _) (.throw _))
        obtain ⟨hw, hsmp⟩ := hw
        obtain ⟨l, hl₁, hl₂, -⟩ := hw.log
        exact ⟨hw.core, hw.lastDeviceResetTime, hw.symbols₁, hw.symbols₂, hw.env, l, hl₁, hl₂,
          .inl (congrArg (fun smp => (lib.smp.pairingRequest smp).2) hsmp)⟩

/-- What comes before a request. -/
theorem callPre_insensitive (hlib : lib.Regular) (sym : InputSymbol) (pkt : Pkt) :
    Insensitive lib cls st (callPre lib cls sym pkt) := by
  rw [callPre.eq_def]
  split
  case h_1 => exact .ite ((encryptedOff_insensitive hlib false).bind fun _ => .pure _) (.pure _)
  case h_2 => exact (encryptedOff_insensitive hlib false).bind fun _ => .pure _
  case h_3 => exact smPairingReqPre_insensitive hlib pkt
  case h_4 => exact smPairingReqPre_insensitive hlib pkt
  case h_5 =>
    split
    · exact .pure _
    · exact .pure _
  case h_6 => exact .pure _

/-- What comes after it. -/
theorem callPost_insensitive (hlib : lib.Regular) (sym : InputSymbol) (pkts : List Pkt) :
    Insensitive lib cls st (callPost sym pkts : Program τ Unit) := by
  rw [callPost.eq_def]
  split
  case h_1 => exact llAdvScanReqPost_insensitive hlib pkts
  case h_2 => exact llCtrlPauseEncReqPost_insensitive hlib pkts
  case h_3 => exact .pure _

/-- A request: its parts one after the other. -/
theorem performRequest_insensitive (hlib : lib.Regular) (hcls : cls.Regular) (sym : InputSymbol)
    (pkt : Pkt) : Insensitive lib cls st (performRequest lib cls sym pkt) :=
  (callPre_insensitive hlib sym pkt).bind fun pkt => (send_insensitive hlib pkt).bind fun _ =>
    (receive_insensitive hlib hcls _ _ _ _).bind fun resPkts =>
      (callPost_insensitive hlib sym resPkts).bind fun _ => outputSymbol_insensitive hlib resPkts

/-- Connecting, with a length request. -/
theorem llAdvConnectInd_insensitive (hlib : lib.Regular) (hcls : cls.Regular) (pkt : Pkt) :
    Insensitive lib cls st (llAdvConnectInd lib cls pkt) := by
  refine (send_insensitive hlib pkt).bind fun _ => ?_
  refine (receive_insensitive hlib hcls _ _ _ _).bind fun resPkts => ?_
  refine getSelf_bind_insensitive (fun _ => rfl) fun self => (send_insensitive hlib _).bind fun _ => ?_
  exact (receive_insensitive hlib hcls _ _ _ _).bind fun _ => outputSymbol_insensitive hlib resPkts

/-- Terminating, with two feature requests. -/
theorem llCtrlTerminateInd_insensitive (hlib : lib.Regular) (hcls : cls.Regular) (pkt : Pkt) :
    Insensitive lib cls st (llCtrlTerminateInd lib cls pkt) := by
  refine (send_insensitive hlib pkt).bind fun _ => ?_
  refine getSelf_bind_insensitive (fun _ => rfl) fun self => (send_insensitive hlib _).bind fun _ => ?_
  refine getSelf_bind_insensitive (fun _ => rfl) fun self => (send_insensitive hlib _).bind fun _ => ?_
  exact (receive_insensitive hlib hcls _ _ _ _).bind fun _ => outputSymbol_insensitive hlib _

/-- Every input symbol is insensitive. -/
theorem performSymbol_insensitive (hlib : lib.Regular) (hcls : cls.Regular) (sym : InputSymbol)
    (pkt : Pkt) : Insensitive lib cls st (performSymbol lib cls sym pkt) :=
  .ite (llCtrlEncReq_insensitive hlib hcls pkt) <| .ite (llAdvConnectInd_insensitive hlib hcls pkt) <|
    .ite (llCtrlTerminateInd_insensitive hlib hcls pkt) (performRequest_insensitive hlib hcls sym pkt)

/-! ## Tests -/

/-- The packets of the mapper are built from the core. -/
theorem packets_core (sym : InputSymbol) (self : Blesul) : packets sym self = packets sym self.core := by
  cases sym <;> rfl

/-- The scan of `reset`, by induction on its attempts. -/
theorem resetScan_insensitive (hlib : lib.Regular) (hcls : cls.Regular) (is : List ℕ) :
    Insensitive lib cls st (resetScan lib cls is) := by
  induction is with
  | nil => exact .throw _
  | cons i is ih =>
    refine getSelf_bind_insensitive (fun _ => rfl) fun self => (send_insensitive hlib _).bind fun _ => ?_
    refine (receive_insensitive hlib hcls _ _ _ _).bind fun scanRes => .ite (.pure _) ?_
    exact .ite ((resetDevice_insensitive hlib).bind fun _ => ih) ih

/-- `reset` draws from the environment and assigns the core. -/
theorem reset_insensitive (hlib : lib.Regular) (hcls : cls.Regular) :
    Insensitive lib cls st (reset lib cls) := by
  have hreset : Insensitive lib cls st (do
      Exec.modify fun w =>
        { w with
          self := w.self.resetFields w.env.draws.head
          env := { w.env with draws := w.env.draws.tail }
          log := w.log ++ [.reset] }
      resetScan lib cls (List.range 32)) := by
    refine Alike.bind (.modify (fun _ hw => hw.append rfl) fun w₁ w₂ hw => ?_) fun _ =>
      resetScan_insensitive hlib hcls _
    -- both draw the same address, and the rest of the core is assigned
    have hcore (draw : Addr × UInt32) :
        (w₁.self.core.resetFields draw).core = (w₂.self.core.resetFields draw).core := by
      rw [hw.core]
    obtain ⟨l, hl₁, hl₂, hsmp⟩ := hw.log
    refine ⟨?_, hw.lastDeviceResetTime, ?_, ?_, ?_, l ++ [.reset], ?_, ?_, ?_⟩
    · rw [hw.env]
      exact hcore _
    · intro table htable
      rw [hw.symbols₁ table htable]
      exact symbolTable_eq hlib _ _
    · intro table htable
      rw [hw.symbols₂ table htable]
      exact symbolTable_eq hlib _ _
    · rw [hw.env]
    · rw [hl₁, List.append_assoc]
    · rw [hl₂, List.append_assoc]
    · exact hsmp.imp_right fun ⟨hdiffers, hconf⟩ => ⟨hdiffers, by simpa using hconf⟩
  refine getSelf_bind_insensitive (fun _ => rfl) fun self => .ite ?_ hreset
  exact (send_insensitive hlib _).bind fun _ => hreset

/-- `pre` reads the time of the last device reset in one class, for which it is the same. -/
theorem pre_insensitive (hlib : lib.Regular) (hcls : cls.Regular) :
    Insensitive lib cls st (pre lib cls) := by
  have hreset := @reset_insensitive _ _ _ st hlib hcls
  rw [pre]
  split
  case isFalse => exact hreset
  case isTrue hpre =>
    refine time_insensitive.bind fun now => ?_
    rw [getSelf_bind_eq]
    refine .get_bind (fun w₁ w₂ hw => .inr ?_) fun w => .ite ?_ hreset
    · rw [hw.lastDeviceResetTime hpre]
    · refine (driverResetDevice_insensitive hlib).bind fun _ => time_insensitive.bind fun now => ?_
      refine (modifySelf_insensitive hlib ?_).bind fun _ => hreset
      exact ⟨fun _ => rfl, fun _ _ _ => rfl, fun _ => rfl⟩

/-- A replay of insensitive steps. -/
theorem replay_insensitive {step : InputSymbol → Program τ Text}
    (hstep : ∀ sym, Insensitive lib cls st (step sym)) (syms : List InputSymbol) :
    Insensitive lib cls st (replay step syms) := by
  induction syms with
  | nil => exact .pure _
  | cons sym syms ih => exact (hstep sym).bind fun _ => ih

/-- A message is only logged. -/
theorem retryMessage_insensitive (hlib : lib.Regular) (message : RetryMessage) :
    Insensitive lib cls st (record (.retry message) id : Program τ Unit) :=
  record_insensitive hlib ⟨fun _ => rfl, fun _ _ => id, fun _ => rfl⟩ nofun

/-- The flag of the retry is in the core. -/
theorem retryRunning_insensitive (hlib : lib.Regular) (running : Bool) :
    Insensitive lib cls st
      (modifySelf fun self => { self with isRetryRunning := running } : Program τ Unit) :=
  modifySelf_insensitive hlib ⟨fun _ => rfl, fun _ _ => id, fun _ => rfl⟩

/-- The loop of `retry_sequence`, by induction on its bound. -/
theorem retryLoop_insensitive (hlib : lib.Regular) (hcls : cls.Regular)
    {step : InputSymbol → Program τ Text} (hstep : ∀ sym, Insensitive lib cls st (step sym))
    (seqIn : List InputSymbol) (seqOut : List Text) (bound attempt : ℕ) :
    Insensitive lib cls st (retryLoop lib cls step seqIn seqOut bound attempt) := by
  induction bound generalizing attempt with
  | zero => exact .throw _
  | succ bound ih =>
    have hsay (message : RetryMessage) := @retryMessage_insensitive _ _ cls st hlib message
    have hpass : Insensitive lib cls st (retryAttempt lib cls step seqIn seqOut (attempt + 1)
        (retryLoop lib cls step seqIn seqOut bound (attempt + 1))) := by
      refine (hsay _).bind fun _ => (retryRunning_insensitive hlib true).bind fun _ => ?_
      refine (pre_insensitive hlib hcls).bind fun _ => (replay_insensitive hstep _).bind fun _ => ?_
      refine getSelf_bind_insensitive (fun _ => rfl) fun self => ?_
      refine .ite (.ite ((hsay _).bind fun _ => ih _) (hsay _)) ?_
      exact .ite (.ite ((hsay _).bind fun _ => ih _) (hsay _)) (hsay _)
    exact .ite ((hsay _).bind fun _ => (resetDevice_insensitive hlib).bind fun _ => hpass) hpass

/-- The recorded sequences are in the core. -/
theorem retrySequence_insensitive (hlib : lib.Regular) (hcls : cls.Regular)
    {step : InputSymbol → Program τ Text} (hstep : ∀ sym, Insensitive lib cls st (step sym)) :
    Insensitive lib cls st (retrySequence lib cls step) := by
  refine getSelf_bind_insensitive (fun _ => rfl) fun self => ?_
  refine (retryMessage_insensitive hlib _).bind fun _ => ?_
  refine (retryLoop_insensitive hlib hcls hstep _ _ _ _).bind fun _ => ?_
  refine (retryRunning_insensitive hlib false).bind fun _ => ?_
  refine getSelf_bind_insensitive (fun _ => rfl) fun self => ?_
  match self.outputSequence.getLast? with
  | some output => exact .pure _
  | none => exact .throw _

/-- A step, by induction on the depth of its retries. -/
theorem stepInternal_insensitive (hlib : lib.Regular) (hcls : cls.Regular) (depth : ℕ)
    (sym : InputSymbol) : Insensitive lib cls st (stepInternal lib cls depth sym) := by
  induction depth generalizing sym with
  | zero => exact .throw _
  | succ depth ih =>
    refine Alike.bind (record_insensitive hlib ?_ nofun) fun _ => ?_
    · exact ⟨fun _ => rfl, fun _ _ => id, fun _ => rfl⟩
    refine getSelf_bind_insensitive (fun self => ?_) fun self => .ite (.throw _) ?_
    · rw [packets_core]
      rfl
    refine (performSymbol_insensitive hlib hcls sym _).bind fun out => ?_
    refine (modifySelf_insensitive hlib ?_).bind fun _ => ?_
    · exact ⟨fun _ => rfl, fun _ _ => id, fun _ => rfl⟩
    refine getSelf_bind_insensitive (fun _ => rfl) fun self => ?_
    exact .ite (retrySequence_insensitive hlib hcls ih) (.pure _)

/-- All steps of a test. -/
theorem steps_insensitive (hlib : lib.Regular) (hcls : cls.Regular) (syms : List InputSymbol) :
    Insensitive lib cls st (steps lib cls syms) := by
  induction syms with
  | nil => exact .pure _
  | cons sym syms ih =>
    have hstep : Insensitive lib cls st (step lib cls sym) :=
      (stepInternal_insensitive hlib hcls _ _).bind fun _ =>
        getSelf_bind_insensitive (fun _ => rfl) fun _ => .pure _
    exact hstep.bind fun _ => ih.bind fun _ => .pure _

end BleFuzzer.Mapper

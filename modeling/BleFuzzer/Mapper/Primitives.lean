import BleFuzzer.Mapper.Effects
import BleFuzzer.Mapper.Classes

/-!
# Sessions, primitive by primitive

The mapper reaches the outside world through a few primitives: the clock, the calls of the driver,
and the assignments of `reset`. All its other assignments are `Inward`. What the primitives keep is
kept by whole sessions (`Primitives.session`), where a packet is sent on the advertising channels or
on the connection of the test that sends it.
-/

namespace BleFuzzer.Mapper

open Driver Exec

variable {τ : Type}

/-! ## Inward assignments -/

/-- The fields of the object that the primitives assign. -/
def Blesul.outward (s : Blesul) : Nrf52 × Option UInt32 × ℤ × List (ℤ × ℤ) :=
  (s.driver, s.accessAddress, s.testStartTime, s.resetBreaks)

/-- An event that is not one of the outside world. -/
def Event.Inward : Event → Prop
  | .tx _ | .deviceReset | .reset => False
  | _ => True

/-- An assignment that leaves the outside world as it is. -/
structure Inward (w w' : World τ) : Prop where
  env : w'.env = w.env
  outward : w'.self.outward = w.self.outward
  log : w'.log = w.log ∨ ∃ e, w'.log = w.log ++ [e] ∧ e.Inward

/-- What stays inside keeps the access address. -/
theorem Inward.accessAddress {w w' : World τ} (h : Inward w w') :
    w'.self.accessAddress = w.self.accessAddress :=
  congrArg (fun s => s.2.1) h.outward

/-- Key material is not visible from outside. -/
theorem smpMaterial_outward (s : Blesul) (res : Pkt) : (smpMaterial s res).outward = s.outward := by
  unfold smpMaterial
  repeat' split
  all_goals rfl

/-- Below `step_internal`, the access address is not assigned. -/
theorem Assign.accessAddress {lib : Lib τ} {w w' : World τ} (h : Assign lib w w') :
    w'.self.accessAddress = w.self.accessAddress := by
  cases h <;> rfl

/-! ## Packets and connections -/

/-- A packet for the advertising channels. -/
def OnAdvertising (pkt : Pkt) : Prop :=
  ∃ rxAdd txAdd layers, pkt = ⟨.btle advertisingAddress :: .btleAdv rxAdd txAdd :: layers⟩

/-- A packet for a connection. -/
def OnConnection (a : UInt32) (pkt : Pkt) : Prop :=
  ∃ llid layers, pkt = ⟨.btle a :: .btleData llid :: layers⟩

def OnAddress (a : UInt32) (pkt : Pkt) : Prop := OnAdvertising pkt ∨ OnConnection a pkt

/-- A data packet of the mapper is for its connection. -/
theorem onAddress_dataPacket {s : Blesul} {a : UInt32} (ha : s.accessAddress = some a)
    (layers : List Layer) : OnAddress a (dataPacket s layers) := by
  refine .inr ⟨none, layers, ?_⟩
  rw [dataPacket, Blesul.aa, ha]
  rfl

/-- The packets of the table are built for the connection of the test. -/
theorem onAddress_packets {s : Blesul} {a : UInt32} (ha : s.accessAddress = some a)
    (sym : InputSymbol) : OnAddress a (packets sym s) := by
  cases sym
  case llAdvInd | llAdvScanReq | llAdvScanRsp | llAdvConnectInd => exact .inl ⟨_, _, _, rfl⟩
  case llData =>
    refine .inr ⟨some 0x01, [], ?_⟩
    rw [packets, Blesul.aa, ha]
    rfl
  all_goals exact onAddress_dataPacket ha _

/-- Setting a handle does not change the address. -/
theorem OnAddress.setGattHandle {a : UInt32} {pkt : Pkt} (h : OnAddress a pkt) (handle : ℕ) :
    OnAddress a (pkt.setGattHandle handle) := by
  rcases h with ⟨rxAdd, txAdd, layers, rfl⟩ | ⟨llid, layers, rfl⟩
  · exact .inl ⟨_, _, _, rfl⟩
  · exact .inr ⟨_, _, rfl⟩

/-- A class whose `handle_packet`, if there is one, answers on the connection of the test. -/
def MapperClass.AnswersOwn (cls : MapperClass) : Prop :=
  ∀ handlePacket ∈ cls.handlePacket, ∀ s pkt resPkt a, s.accessAddress = some a →
    handlePacket s pkt = some resPkt → OnAddress a resPkt

/-- The one `handle_packet` answers on the connection. -/
theorem intelAX200BlueZ_answersOwn : intelAX200BlueZ.AnswersOwn := by
  intro handlePacket hmem s pkt resPkt a ha hres
  obtain rfl : intelAX200BlueZHandlePacket = handlePacket := Option.some.inj hmem
  unfold intelAX200BlueZHandlePacket at hres
  split at hres
  · rw [← Option.some.inj hres]
    exact onAddress_dataPacket ha _
  · split at hres
    · rw [← Option.some.inj hres]
      exact onAddress_dataPacket ha _
    · rw [← Option.some.inj hres]
      exact onAddress_dataPacket ha _
    · split at hres
      · rw [← Option.some.inj hres]
        exact onAddress_dataPacket ha _
      · cases hres

/-- Only one class of the repository has a `handle_packet`. -/
theorem answersOwn_of_mem {cls : MapperClass}
    (h : cls ∈ [blesulClass, arduinoNanoESP32, nimble, rpiPico2W, rpiZeroWBlueZ, intelAX200BlueZ,
      nrf52840, nrf52840DKNimble]) : cls.AnswersOwn := by
  have hnone (cls : MapperClass) (hcls : cls.handlePacket = none) : cls.AnswersOwn := by
    intro handlePacket hmem
    rw [hcls] at hmem
    cases hmem
  simp only [List.mem_cons, List.not_mem_nil, or_false] at h
  rcases h with rfl | rfl | rfl | rfl | rfl | rfl | rfl | rfl
  case inr.inr.inr.inr.inr.inl => exact intelAX200BlueZ_answersOwn
  all_goals exact hnone _ rfl

/-! ## The primitives -/

/-- What is kept while the connection of a test has the access address `a`: `I`, within `T`. -/
structure Connected (lib : Lib τ) (a : UInt32) (I : World τ → Prop) (T : World τ → World τ → Prop) :
    Prop where
  address : ∀ w, I w → w.self.accessAddress = some a
  inward : ∀ w w', Inward w w' → I w → T w w' ∧ I w'
  time : Keeps I T (time : Program τ ℤ)
  rawReceive : Keeps I T (rawReceive : Program τ (Option Bytes))
  resetDevice : Keeps I T (resetDevice : Program τ Unit)
  send : ∀ pkt, OnAddress a pkt → Keeps I T (send lib pkt)

namespace Connected

variable {lib : Lib τ} {cls : MapperClass} {a : UInt32} {I : World τ → Prop}
  {T : World τ → World τ → Prop} (P : Connected lib a I T)

include P

/-- Assigning fields that the primitives do not. -/
theorem modifySelf {f : Blesul → Blesul} (hf : ∀ s, (f s).outward = s.outward := by intro s; rfl) :
    Keeps I T (modifySelf f) :=
  .modify fun w => P.inward _ _ ⟨rfl, hf w.self, .inl rfl⟩

/-- Recording such an assignment. -/
theorem record {e : Event} {f : Blesul → Blesul} (he : e.Inward := by trivial)
    (hf : ∀ s, (f s).outward = s.outward := by intro s; rfl) :
    Keeps I T (record e f : Program τ Unit) :=
  .modify fun w => P.inward _ _ ⟨rfl, hf w.self, .inr ⟨e, rfl, he⟩⟩

/-- Reading the object on a connection. -/
theorem getSelf_bind {α : Type} {f : Blesul → Program τ α}
    (h : ∀ s, s.accessAddress = some a → Keeps I T (f s)) : Keeps I T (getSelf >>= f) := by
  apply getSelf_bind_ends
  intro w hw
  apply (h w.self (P.address w hw)).pre
  rintro w' rfl
  exact hw

/-! ## Receiving -/

/-- Output symbols create a table, inside. -/
theorem outputSymbol (pkts : List Pkt) : Keeps I T (outputSymbol lib pkts) := by
  refine .bind (getSelf_bind_ends fun w hw => ?_) fun _ => .pure fun _ => id
  cases w.self.symbols with
  | some table =>
    apply Ends.pure
    rintro w' rfl
    exact hw
  | none =>
    refine .pre (.bind P.modifySelf fun _ => .pure fun _ => id) ?_
    rintro w' rfl
    exact hw

/-- Counting responses uses output symbols. -/
theorem countRsp (nRspExpected nCyclicSeen : ℕ) (pkts : List Pkt) :
    Keeps I T (countRsp lib nRspExpected nCyclicSeen pkts) := by
  induction pkts generalizing nRspExpected nCyclicSeen with
  | nil => exact .pure fun _ => id
  | cons pkt pkts ih => exact .ite (ih _ _) ((P.outputSymbol _).bind fun _ => ih _ _)

/-- Judging a response does no more. -/
theorem isRspCompleteBase (pkts : List Pkt) (recvSTime : ℤ) (recvSMin recvSMax : Option ℤ) :
    Keeps I T (isRspCompleteBase lib pkts recvSTime recvSMin recvSMax) :=
  (P.countRsp _ _ _).bind fun _ => getSelf_bind_keeps fun _ => .pure fun _ => id

/-- Nor do the overrides. -/
theorem isRspComplete (pkts : List Pkt) (recvSTime : ℤ) (recvSMin recvSMax : Option ℤ)
    (req : Option Pkt) :
    Keeps I T (isRspComplete lib cls pkts recvSTime recvSMin recvSMax req) := by
  have hbase := P.isRspCompleteBase
  unfold Mapper.isRspComplete
  cases cls.isRspComplete with
  | base => exact hbase _ _ _ _
  | nimble =>
    refine .ite (hbase _ _ _ _) (getSelf_bind_keeps fun _ => ?_)
    exact .ite (.pure fun _ => id) (.ite (.pure fun _ => id) (hbase _ _ _ _))
  | nrf52840DKNimble =>
    refine .ite (hbase _ _ _ _) (getSelf_bind_keeps fun _ => ?_)
    exact .ite (.pure fun _ => id) (hbase _ _ _ _)

/-- The answers of the SMP server are taken over, inside. -/
theorem smpAnswers (answers : List Bytes) : Keeps I T (smpAnswers lib answers) := by
  induction answers with
  | nil => exact .pure fun _ => id
  | cons data answers ih =>
    rw [Mapper.smpAnswers]
    split
    · exact P.modifySelf.bind fun _ => ih
    · split
      · exact P.modifySelf.bind fun _ => ih
      · split
        · exact P.record.bind fun _ => ih
        · exact (P.modifySelf fun s => smpMaterial_outward s _).bind fun _ => ih

/-- The SMP server is asked, inside. -/
theorem smpProcess (pkt : Pkt) : Keeps I T (smpProcess lib pkt) := by
  refine Ends.get_bind fun w hw => ?_
  refine .bind (Q := fun _ => I) (.modify ?_) fun _ => ?_
  · rintro w' rfl
    exact P.inward _ _ ⟨rfl, rfl, .inr ⟨.smp, rfl, trivial⟩⟩ hw
  · cases (lib.smp.sendHci _ w.smp).1 with
    | none => exact .pure fun _ => id
    | some answers => exact P.smpAnswers answers

/-- An answer of `handle_packet` is sent on the connection. -/
theorem answerPkt (hcls : cls.AnswersOwn) (pkt : Pkt) : Keeps I T (answerPkt lib cls pkt) := by
  refine P.getSelf_bind fun s hs => ?_
  cases hanswer : cls.handlePacket.bind fun handlePacket => handlePacket s pkt with
  | none => exact .pure fun _ => id
  | some resPkt =>
    obtain ⟨handlePacket, hmem, hres⟩ := Option.bind_eq_some_iff.mp hanswer
    have hown := hcls handlePacket hmem s pkt resPkt a hs hres
    exact (P.send resPkt hown).bind fun _ => P.time.bind fun _ => .pure fun _ => id

/-- A packet may reset the device, reach the SMP server and be answered. -/
theorem processPkt (hcls : cls.AnswersOwn) (pkt : Pkt) : Keeps I T (processPkt lib cls pkt) := by
  rw [processPkt_eq]
  refine .bind (.ite P.resetDevice (.pure fun _ => id)) fun _ => ?_
  exact .bind (.ite (P.smpProcess pkt) (.pure fun _ => id)) fun _ => P.answerPkt hcls pkt

/-- The counter is inside. -/
theorem decrypt (pkt : Pkt) : Keeps I T (decrypt lib pkt) := by
  refine getSelf_bind_keeps fun s => .ite ?_ (.pure fun _ => id)
  refine .bind (.lift (fun _ _ _ => id) fun _ _ _ => id) fun dec => ?_
  cases dec with
  | none => exact .pure fun _ => id
  | some dec =>
    exact P.record.bind fun _ => .pure fun _ => id

/-- So is the flag of the encryption. -/
theorem acceptData (data : Bytes) : Keeps I T (acceptData lib data) := by
  have hdecrypt : Keeps I T (acceptDecrypted lib (lib.scapy.btle data)) :=
    (P.decrypt _).bind fun _ => .pure fun _ => id
  refine getSelf_bind_keeps fun s => .ite ?_ (.pure fun _ => id)
  exact .ite (P.modifySelf.bind fun _ => hdecrypt) hdecrypt

/-- The body of the loop of `receive`. -/
theorem receiveData (hcls : cls.AnswersOwn) (data : Bytes) :
    Keeps I T (receiveData lib cls data) := by
  refine (P.acceptData data).bind fun accepted => ?_
  cases accepted with
  | none => exact .pure fun _ => id
  | some pkt => exact (P.processPkt hcls pkt).bind fun _ => .pure fun _ => id

/-- The loop, by induction on its bound. -/
theorem receiveLoop (hcls : cls.AnswersOwn) (recvSMin recvSMax : Option ℤ) (maxPkts : ℕ)
    (req : Option Pkt) (bound : ℕ) (pkts : List Pkt) (timeStart : ℤ) :
    Keeps I T (receiveLoop lib cls recvSMin recvSMax maxPkts req bound pkts timeStart) := by
  induction bound generalizing pkts timeStart with
  | zero => exact .throw fun _ => id
  | succ bound ih =>
    have hcomplete (pkts : List Pkt) (recvSTime : ℤ) :
        Keeps I T (Mapper.isRspComplete lib cls pkts recvSTime recvSMin recvSMax req) :=
      P.isRspComplete _ _ _ _ _
    have hrest (new : List Pkt × Option ℤ) := P.time.bind fun timeNow =>
      (hcomplete (pkts ++ new.1) (timeNow - new.2.getD timeStart)).bind fun complete =>
        .ite (c := (complete || (0 < maxPkts && (pkts ++ new.1).length == maxPkts)) = true)
          (.pure (a := pkts ++ new.1) fun _ => id) (ih (pkts ++ new.1) (new.2.getD timeStart))
    refine P.rawReceive.bind fun data => ?_
    cases data with
    | none => exact .bind (.pure fun _ => id) hrest
    | some data => exact (P.receiveData hcls data).bind hrest

/-- `receive`, with the clock read before. -/
theorem receive (hcls : cls.AnswersOwn) (recvSMin recvSMax : Option ℤ) (maxPkts : ℕ)
    (req : Option Pkt) : Keeps I T (receive lib cls recvSMin recvSMax maxPkts req) := by
  refine P.time.bind fun timeStart => Ends.get_bind fun w hw => ?_
  apply (P.receiveLoop hcls _ _ _ _ _ _ _).pre
  rintro w' rfl
  exact hw

/-! ## Input symbols -/

/-- The address type is inside. -/
theorem llAdvScanReqPost (pkts : List Pkt) : Keeps I T (llAdvScanReqPost pkts : Program τ Unit) := by
  induction pkts with
  | nil => exact .pure fun _ => id
  | cons pkt pkts ih =>
    refine getSelf_bind_keeps fun s => .ite ?_ ih
    cases pkt.txAdd with
    | some txAdd => exact P.modifySelf.bind fun _ => ih
    | none => exact .bind (Q := fun _ => I) (.throw fun _ => id) fun _ => ih

/-- So is the end of the encryption. -/
theorem llCtrlPauseEncReqPost (pkts : List Pkt) :
    Keeps I T (llCtrlPauseEncReqPost pkts : Program τ Unit) := by
  induction pkts with
  | nil => exact .pure fun _ => id
  | cons pkt pkts ih => exact .ite (P.modifySelf.bind fun _ => ih) ih

/-- The pairing request is built anew, around the layers of the SMP server. -/
theorem smPairingReqPre (pkt : Pkt) :
    Ends I T (smPairingReqPre lib pkt) (fun pkt w => I w ∧ OnAddress a pkt) I := by
  rw [Mapper.smPairingReqPre]
  cases pkt.smPairingRequest with
  | none => exact .throw fun _ => id
  | some features =>
    refine getSelf_bind_ends fun w hw => ?_
    have ha := P.address w hw
    refine .bind (Q := fun _ => I) (.modify ?_) fun _ => Ends.get_bind fun w hw => ?_
    · rintro w' rfl
      exact P.inward _ _ ⟨rfl, rfl, .inr ⟨.configureConnection, rfl, trivial⟩⟩ hw
    · refine .bind (Q := fun _ => I) (.modify ?_) fun _ =>
        .ite (.pure fun w' hw' => ?_) (.throw fun _ => id)
      · rintro w' rfl
        exact P.inward _ _ ⟨rfl, rfl, .inl rfl⟩ hw
      · exact ⟨hw', onAddress_dataPacket ha _⟩

/-- What comes before a request leaves one for the same address. -/
theorem callPre (sym : InputSymbol) {pkt : Pkt} (hpkt : OnAddress a pkt) :
    Ends I T (callPre lib cls sym pkt) (fun pkt w => I w ∧ OnAddress a pkt) I := by
  rw [callPre.eq_def]
  have hsame : Ends I T (pure pkt : Program τ Pkt) (fun pkt w => I w ∧ OnAddress a pkt) I :=
    .pure fun w hw => ⟨hw, hpkt⟩
  split
  case h_1 => exact .ite (.bind P.modifySelf fun _ => hsame) hsame
  case h_2 => exact .bind P.modifySelf fun _ => hsame
  case h_3 => exact P.smPairingReqPre pkt
  case h_4 => exact P.smPairingReqPre pkt
  case h_5 =>
    split
    · exact .pure fun w hw => ⟨hw, hpkt.setGattHandle _⟩
    · exact hsame
  case h_6 => exact hsame

/-- What comes after it stays inside. -/
theorem callPost (sym : InputSymbol) (pkts : List Pkt) :
    Keeps I T (callPost sym pkts : Program τ Unit) := by
  rw [callPost.eq_def]
  split
  case h_1 => exact P.llAdvScanReqPost pkts
  case h_2 => exact P.llCtrlPauseEncReqPost pkts
  case h_3 => exact .pure fun _ => id

/-- A request: its parts one after the other. -/
theorem performRequest (hcls : cls.AnswersOwn) (sym : InputSymbol) {pkt : Pkt}
    (hpkt : OnAddress a pkt) : Keeps I T (performRequest lib cls sym pkt) := by
  refine (P.callPre sym hpkt).bind fun pkt => ?_
  refine .bind (Q := fun _ => I) ?_ fun _ => ?_
  · -- what `_pre` returns is known to be for this connection
    refine Ends.of_eq fun w hw => ?_
    apply (P.send pkt hw.2).pre
    rintro w' rfl
    exact hw.1
  · refine (P.receive hcls _ _ _ _).bind fun resPkts => ?_
    exact (P.callPost sym resPkts).bind fun _ => P.outputSymbol resPkts

/-- Connecting, with a length request on the connection. -/
theorem llAdvConnectInd (hcls : cls.AnswersOwn) {pkt : Pkt} (hpkt : OnAddress a pkt) :
    Keeps I T (llAdvConnectInd lib cls pkt) := by
  refine (P.send pkt hpkt).bind fun _ => (P.receive hcls _ _ _ _).bind fun resPkts => ?_
  refine P.getSelf_bind fun s hs => (P.send _ (onAddress_packets hs _)).bind fun _ => ?_
  exact (P.receive hcls _ _ _ _).bind fun _ => P.outputSymbol resPkts

/-- Terminating, with two feature requests on it. -/
theorem llCtrlTerminateInd (hcls : cls.AnswersOwn) {pkt : Pkt} (hpkt : OnAddress a pkt) :
    Keeps I T (llCtrlTerminateInd lib cls pkt) := by
  refine (P.send pkt hpkt).bind fun _ => P.getSelf_bind fun s hs => ?_
  refine (P.send _ (onAddress_dataPacket hs _)).bind fun _ => P.getSelf_bind fun s hs => ?_
  refine (P.send _ (onAddress_dataPacket hs _)).bind fun _ => ?_
  exact (P.receive hcls _ _ _ _).bind fun _ => P.outputSymbol _

/-- Session key and IV are inside. -/
theorem handleEncRsp (skds ivs : ℕ) : Keeps I T (handleEncRsp lib skds ivs : Program τ Unit) := by
  have hlift {α : Type} (x : Except PyErr α) : Keeps I T (lift x : Program τ α) :=
    .lift (fun _ _ _ => id) fun _ _ _ => id
  refine (hlift _).bind fun skdsBytes => getSelf_bind_keeps fun s => P.record.bind fun _ => ?_
  refine (hlift _).bind fun ivsBytes => P.modifySelf.bind fun _ => getSelf_bind_keeps fun s => ?_
  exact .ite ((hlift _).bind fun key => P.modifySelf) (.pure fun _ => id)

/-- The loop of `ll_ctrl_enc_req`, by induction on its bound. -/
theorem encReqLoop (hcls : cls.AnswersOwn) (timeStart : ℤ) (bound : ℕ) (pkt : Pkt)
    (resPkts : List Pkt) : Keeps I T (encReqLoop lib cls timeStart bound pkt resPkts) := by
  induction bound generalizing pkt resPkts with
  | zero => exact .throw fun _ => id
  | succ bound ih =>
    refine P.time.bind fun timeNow => (P.isRspComplete _ _ _ _ _).bind fun complete => ?_
    refine .ite (.pure fun _ => id) ((P.receive hcls _ _ _ _).bind fun pkts => ?_)
    cases pkts with
    | nil => exact ih _ _
    | cons pkt pkts =>
      have hloop := ih pkt (resPkts ++ [pkt])
      dsimp only
      split
      · exact (P.handleEncRsp _ _).bind fun _ => hloop
      · exact .ite (P.modifySelf.bind fun _ => hloop) hloop

/-- The encryption request. -/
theorem llCtrlEncReq (hcls : cls.AnswersOwn) {pkt : Pkt} (hpkt : OnAddress a pkt) :
    Keeps I T (llCtrlEncReq lib cls pkt) := by
  refine (P.send pkt hpkt).bind fun _ => P.record.bind fun _ => P.time.bind fun timeStart => ?_
  refine Ends.get_bind fun w hw => ?_
  refine .pre ((P.encReqLoop hcls _ _ _ _).bind fun resPkts => P.outputSymbol resPkts) ?_
  rintro w' rfl
  exact hw

/-- Every input symbol. -/
theorem performSymbol (hcls : cls.AnswersOwn) (sym : InputSymbol) {pkt : Pkt}
    (hpkt : OnAddress a pkt) : Keeps I T (performSymbol lib cls sym pkt) := by
  unfold Mapper.performSymbol
  refine .ite (P.llCtrlEncReq hcls hpkt) (.ite (P.llAdvConnectInd hcls hpkt) ?_)
  exact .ite (P.llCtrlTerminateInd hcls hpkt) (P.performRequest hcls sym hpkt)

/-- The scan of `reset`, by induction on its attempts. -/
theorem resetScan (hcls : cls.AnswersOwn) (is : List ℕ) : Keeps I T (resetScan lib cls is) := by
  induction is with
  | nil => exact .throw fun _ => id
  | cons i is ih =>
    refine P.getSelf_bind fun s hs => (P.send _ (onAddress_packets hs _)).bind fun _ => ?_
    refine (P.receive hcls _ _ _ _).bind fun scanRes => .ite (.pure fun _ => id) ?_
    exact .ite (P.resetDevice.bind fun _ => ih) ih

end Connected

/-! ## Tests -/

/-- The assignments of `reset`. -/
def World.startTest (w : World τ) : World τ :=
  { w with
    self := w.self.resetFields w.env.draws.head
    env := { w.env with draws := w.env.draws.tail }
    log := w.log ++ [.reset] }

/-- What every primitive keeps: `I`, within `T`. -/
structure Primitives (lib : Lib τ) (I : World τ → Prop) (T : World τ → World τ → Prop) : Prop where
  inward : ∀ w w', Inward w w' → I w → T w w' ∧ I w'
  time : Keeps I T (time : Program τ ℤ)
  rawReceive : Keeps I T (rawReceive : Program τ (Option Bytes))
  driverResetDevice : Keeps I T (driverResetDevice : Program τ Unit)
  resetDevice : Keeps I T (resetDevice : Program τ Unit)
  startTest : ∀ w, I w → T w w.startTest ∧ I w.startTest
  send : ∀ a pkt, OnAddress a pkt →
    Ends (fun w => I w ∧ w.self.accessAddress = some a) T (send lib pkt) (fun _ => I) I

/-- What is kept is kept on a connection, if the program does not reset. -/
theorem stays_connected (lib : Lib τ) {I : World τ → Prop} {T : World τ → World τ → Prop} {α : Type}
    {m : Program τ α} {a : UInt32} (hm : Keeps I T m) (hsteps : Steps (Assign lib) m) :
    Keeps (fun w => I w ∧ w.self.accessAddress = some a) T m :=
  (hm.pre fun _ => And.left).and hsteps (fun _ _ h => h.accessAddress.trans) fun _ => And.right

/-- A program that keeps `I` on a connection, from a state with that connection. -/
theorem of_connected {I : World τ → Prop} {T : World τ → World τ → Prop} {α : Type}
    {m : Program τ α} {a : UInt32} {w : World τ}
    (hm : Keeps (fun w => I w ∧ w.self.accessAddress = some a) T m) (hw : I w)
    (ha : w.self.accessAddress = some a) : Ends (· = w) T m (fun _ => I) I := by
  refine ⟨(hm.1.pre ?_).post fun _ _ => And.left, fun w' hw' e he => ?_⟩
  · rintro w' rfl
    exact ⟨hw, ha⟩
  · rw [hw'] at he ⊢
    exact (hm.2 w ⟨hw, ha⟩ e he).1

namespace Primitives

variable {lib : Lib τ} {cls : MapperClass} {I : World τ → Prop} {T : World τ → World τ → Prop}
  (P : Primitives lib I T)

include P

/-- On a connection the access address stays what it is. -/
theorem connected (a : UInt32) :
    Connected lib a (fun w => I w ∧ w.self.accessAddress = some a) T where
  address _ hw := hw.2
  inward w w' h hw := by
    obtain ⟨hstep, hkeep⟩ := P.inward w w' h hw.1
    exact ⟨hstep, hkeep, h.accessAddress.trans hw.2⟩
  time := stays_connected lib P.time time_steps
  rawReceive := stays_connected lib P.rawReceive rawReceive_steps
  resetDevice := stays_connected lib P.resetDevice resetDevice_steps
  send pkt hpkt :=
    (P.send a pkt hpkt).and (send_steps pkt) (fun _ _ h => h.accessAddress.trans) fun _ => And.right

/-- Assigning fields that the primitives do not. -/
theorem modifySelf {f : Blesul → Blesul} (hf : ∀ s, (f s).outward = s.outward := by intro s; rfl) :
    Keeps I T (modifySelf f) :=
  .modify fun w => P.inward _ _ ⟨rfl, hf w.self, .inl rfl⟩

/-- Recording an event. -/
theorem record {e : Event} (he : e.Inward := by trivial) :
    Keeps I T (record e id : Program τ Unit) :=
  .modify fun _ => P.inward _ _ ⟨rfl, rfl, .inr ⟨e, rfl, he⟩⟩

/-- The test that ends is terminated on its own connection. -/
theorem reset (hcls : cls.AnswersOwn) : Keeps I T (reset lib cls) := by
  have hscan : Keeps I T (Exec.modify World.startTest >>= fun _ =>
      resetScan lib cls (List.range 32)) := by
    refine Ends.bind (Q := fun _ w => I w ∧ w.self.accessAddress.isSome = true)
      (.modify fun w hw => ?_) fun _ => Ends.of_eq fun w hw => ?_
    · obtain ⟨hstep, hkeep⟩ := P.startTest w hw
      exact ⟨hstep, hkeep, rfl⟩
    · obtain ⟨a, ha⟩ := Option.isSome_iff_exists.mp hw.2
      exact of_connected ((P.connected a).resetScan hcls _) hw.1 ha
  rw [Mapper.reset]
  refine getSelf_bind_ends fun w hw => ?_
  cases ha : w.self.accessAddress with
  | none =>
    apply hscan.pre
    rintro w' rfl
    exact hw
  | some a =>
    refine .bind ((P.send a _ (onAddress_packets ha .llCtrlTerminateInd)).pre ?_) fun _ => hscan
    rintro w' rfl
    exact ⟨hw, ha⟩

/-- `pre` may reset the device before. -/
theorem pre (hcls : cls.AnswersOwn) : Keeps I T (pre lib cls) := by
  have hreset := P.reset hcls
  refine .ite (P.time.bind fun now => getSelf_bind_keeps fun s => .ite ?_ hreset) hreset
  exact P.driverResetDevice.bind fun _ => P.time.bind fun now => P.modifySelf.bind fun _ => hreset

/-- The loop of `retry_sequence`, by induction on its bound. -/
theorem retryLoop (hcls : cls.AnswersOwn) {step : InputSymbol → Program τ Text}
    (hstep : ∀ sym, Keeps I T (step sym)) (seqIn : List InputSymbol) (seqOut : List Text)
    (bound attempt : ℕ) : Keeps I T (retryLoop lib cls step seqIn seqOut bound attempt) := by
  induction bound generalizing attempt with
  | zero => exact .throw fun _ => id
  | succ bound ih =>
    have hrest : Keeps I T (retryAttempt lib cls step seqIn seqOut (attempt + 1)
        (Mapper.retryLoop lib cls step seqIn seqOut bound (attempt + 1))) := by
      refine P.record.bind fun _ => P.modifySelf.bind fun _ => (P.pre hcls).bind fun _ => ?_
      refine (replay_keeps hstep _).bind fun _ => getSelf_bind_keeps fun s => ?_
      refine .ite (.ite (P.record.bind fun _ => ih _) P.record) ?_
      exact .ite (.ite (P.record.bind fun _ => ih _) P.record) P.record
    exact .ite (P.record.bind fun _ => P.resetDevice.bind fun _ => hrest) hrest

/-- A retry, around its loop. -/
theorem retrySequence (hcls : cls.AnswersOwn) {step : InputSymbol → Program τ Text}
    (hstep : ∀ sym, Keeps I T (step sym)) : Keeps I T (retrySequence lib cls step) := by
  refine getSelf_bind_keeps fun s => P.record.bind fun _ => ?_
  refine (P.retryLoop hcls hstep _ _ _ _).bind fun _ => P.modifySelf.bind fun _ => ?_
  refine getSelf_bind_keeps fun s => ?_
  cases s.outputSequence.getLast? with
  | some output => exact .pure fun _ => id
  | none => exact .throw fun _ => id

/-- A step, by induction on the depth of its retries. -/
theorem stepInternal (hcls : cls.AnswersOwn) (depth : ℕ) (sym : InputSymbol) :
    Keeps I T (stepInternal lib cls depth sym) := by
  induction depth generalizing sym with
  | zero => exact .throw fun _ => id
  | succ depth ih =>
    refine P.record.bind fun _ => getSelf_bind_ends fun w hw => ?_
    cases ha : w.self.accessAddress with
    | none =>
      refine .throw fun w' hw' => ?_
      rw [hw']
      exact hw
    | some a =>
      have hkeeps := (P.connected a).performSymbol hcls sym (onAddress_packets ha sym)
      refine .bind (of_connected hkeeps hw ha) fun out => ?_
      refine P.modifySelf.bind fun _ => getSelf_bind_keeps fun s => ?_
      exact .ite (P.retrySequence hcls ih) (.pure fun _ => id)

/-- A step, with its output filtered. -/
theorem step (hcls : cls.AnswersOwn) (sym : InputSymbol) : Keeps I T (step lib cls sym) :=
  (P.stepInternal hcls _ _).bind fun _ => getSelf_bind_keeps fun _ => .pure fun _ => id

/-- A call of the learner. -/
theorem call (hcls : cls.AnswersOwn) (c : Call) : Keeps I T (call lib cls c) := by
  cases c with
  | pre => exact P.pre hcls
  | step sym => exact (P.step hcls sym).bind fun _ => .pure fun _ => id

/-- **What every primitive keeps, a session keeps**, exceptions included. -/
theorem session (hcls : cls.AnswersOwn) (cs : List Call) : Keeps I T (session lib cls cs) := by
  induction cs with
  | nil => exact .pure fun _ => id
  | cons c cs ih => exact (P.call hcls c).attempt.bind fun _ => ih

end Primitives

end BleFuzzer.Mapper

import BleFuzzer.Common.System
import BleFuzzer.Mapper.Encryption
import BleFuzzer.Mapper.Primitives

/-!
# A test keeps to its connection

Everything the mapper writes to the serial port is the log setting of the driver or a packet. Every
packet is for the advertising channels or for the connection of the running test, whose access
address only `reset` changes; and while the connection is encrypted, no packet for it is written in
the clear (`session_own`).
-/

namespace BleFuzzer.Mapper

open Driver Exec

variable {τ : Type}

/-! ## What is written -/

/-- The layout of a packet with a `BTLE` layer and a header: the access address, and then at least
the header and a CRC. -/
def WritesAddress (scapy : Scapy) : Prop :=
  ∀ a header layers, header.isHeader = true → ∃ rest,
    scapy.raw ⟨.btle a :: header :: layers⟩ = leBytes 4 a.toNat ++ rest ∧ 5 ≤ rest.length

/-- The frame of a packet with an access address. -/
def FrameOf (a : UInt32) (data : Bytes) : Prop := ∃ rest, data = dataFrame (leBytes 4 a.toNat ++ rest)

/-- What the driver writes when it is opened again: nothing where there is no reset command. -/
def IsSetting (data : Bytes) : Prop := data = [] ∨ data = [cmdConfigLogTx, 0]

/-- The frame of a packet that has just been encrypted, with the counter that was current until
then. -/
def Ciphered (lib : Lib τ) (w : World τ) (data : Bytes) : Prop :=
  ∃ s log rawPkt pktSend, w.self = { s with encTxPktCount := s.encTxPktCount + 1 } ∧
    w.log = log ++ [.encrypt] ∧ encryptPkt lib s rawPkt = .ok pktSend ∧
    data = dataFrame (cutCrc pktSend)

/-- What may be written in a state. -/
def MayWrite (lib : Lib τ) (w : World τ) (data : Bytes) : Prop :=
  IsSetting data ∨ FrameOf advertisingAddress data ∨
    ∃ a, w.self.accessAddress = some a ∧ FrameOf a data ∧
      (w.self.encrypted = true → Ciphered lib w data)

/-- An assignment that writes what may be written, and changes the connection in `reset` only. -/
structure OnlyOwn (lib : Lib τ) (w w' : World τ) : Prop where
  log : w'.log = w.log ∨ ∃ e, w'.log = w.log ++ [e] ∧ ∀ data, e = .tx data → MayWrite lib w data
  address : w'.self.accessAddress = w.self.accessAddress ∨
    (w'.log = w.log ++ [.reset] ∧ w'.self.accessAddress = some w.env.draws.head.2)

variable {lib : Lib τ} {a : UInt32} {pkt : Pkt}

/-- The frame of a packet, without its CRC. -/
theorem frameOf_raw (hlib : WritesAddress lib.scapy) (a : UInt32) {header : Layer}
    (hheader : header.isHeader = true) (layers : List Layer) :
    FrameOf a (dataFrame (cutCrc (lib.scapy.raw ⟨.btle a :: header :: layers⟩))) := by
  obtain ⟨rest, hraw, hlong⟩ := hlib a header layers hheader
  refine ⟨rest.take (rest.length - 3), congrArg dataFrame ?_⟩
  have hlength : (leBytes 4 a.toNat ++ rest).length - 3 = 4 + (rest.length - 3) := by
    rw [List.length_append, leBytes_length]
    omega
  rw [hraw, cutCrc, hlength, List.take_append, leBytes_length, Nat.add_sub_cancel_left,
    List.take_of_length_le (by rw [leBytes_length]; omega)]

/-- The access address is not encrypted. -/
theorem frameOf_encryptPkt (hlib : WritesAddress lib.scapy) {a : UInt32} {header : Layer}
    (hheader : header.isHeader = true) {layers : List Layer} {s : Blesul} {pktSend : Bytes}
    (h : encryptPkt lib s (lib.scapy.raw ⟨.btle a :: header :: layers⟩) = .ok pktSend) :
    FrameOf a (dataFrame (cutCrc pktSend)) := by
  obtain ⟨rest, hraw, -⟩ := hlib a header layers hheader
  have haddress : (lib.scapy.raw ⟨.btle a :: header :: layers⟩).take 4 = leBytes 4 a.toNat := by
    rw [hraw, List.take_left' (leBytes_length 4 _)]
  rw [encryptPkt] at h
  split at h
  case isTrue => cases h
  case isFalse =>
    dsimp only at h
    split at h
    case isTrue => cases h
    case isFalse =>
      obtain ⟨count, -, h⟩ := exists_of_bind_ok h
      obtain ⟨_, -, h⟩ := exists_of_bind_ok h
      rw [← Except.ok.inj h, cutCrc_append _ rfl, haddress]
      simp only [List.append_assoc]
      exact ⟨_, rfl⟩

/-- What the driver writes when it is opened again. -/
theorem isSetting_of_resetDevice {d d' : Nrf52} {attempts : List ResetAttempt} {data : Bytes}
    (h : d.resetDevice attempts = .ok (d', data)) : IsSetting data := by
  rw [Nrf52.resetDevice] at h
  split at h
  case h_1 => exact .inl (Prod.mk.inj (Except.ok.inj h)).2.symm
  case h_2 =>
    induction attempts with
    | nil => cases h
    | cons attempt attempts ih =>
      rw [Nrf52.resetLoop] at h
      split at h
      case isTrue => cases h
      case isFalse =>
        split at h
        case isTrue => exact .inr (Prod.mk.inj (Except.ok.inj h)).2.symm
        case isFalse => exact ih h

/-! ## The primitives -/

/-- A call of the driver writes what its method returns. -/
theorem callDriver_onlyOwn {P : World τ → Prop} {f : Nrf52 → Except PyErr (Nrf52 × Bytes)}
    (h : ∀ w driver data, P w → f w.self.driver = .ok (driver, data) → MayWrite lib w data) :
    Triple P (OnlyOwn lib) (callDriver f : Program τ Unit) fun _ _ => True := by
  refine Triple.get_bind fun w hw => ?_
  refine .bind (Q := fun r w' => w' = w ∧ f w.self.driver = .ok r) (.lift ?_) fun r => .modify ?_
  · rintro r hr w' rfl
    exact ⟨rfl, hr⟩
  · rintro w' ⟨rfl, hf⟩
    refine ⟨⟨.inr ⟨.tx r.2, rfl, ?_⟩, .inl rfl⟩, trivial⟩
    rintro data ⟨⟩
    exact h _ _ _ hw hf

/-- Reading the clock writes nothing. -/
theorem time_onlyOwn : Steps (OnlyOwn lib) (time : Program τ ℤ) :=
  .bind .get fun _ => .bind (.modify fun _ => ⟨.inl rfl, .inl rfl⟩) fun _ => .pure _

/-- Nor does `raw_receive`. -/
theorem rawReceive_onlyOwn : Steps (OnlyOwn lib) (rawReceive : Program τ (Option Bytes)) := by
  refine .bind .get fun w => ?_
  cases w.env.rx with
  | nil => exact .throw _
  | cons data rx => exact .bind (.modify fun _ => ⟨.inl rfl, .inl rfl⟩) fun _ => .pure _

/-- A device reset writes the log setting. -/
theorem driverResetDevice_onlyOwn :
    Steps (OnlyOwn lib) (driverResetDevice : Program τ Unit) := by
  refine .bind .get fun w => .bind (.modify fun _ => ⟨.inr ⟨_, rfl, ?_⟩, .inl rfl⟩) fun _ => ?_
  · rintro data ⟨⟩
  · exact callDriver_onlyOwn fun _ _ _ _ h => .inl (isSetting_of_resetDevice h)

/-- So does `reset_device` around it. -/
theorem resetDevice_onlyOwn : Steps (OnlyOwn lib) (resetDevice : Program τ Unit) :=
  time_onlyOwn.bind fun _ => driverResetDevice_onlyOwn.bind fun _ => time_onlyOwn.bind fun _ =>
    .modify fun _ => ⟨.inl rfl, .inl rfl⟩

/-- **Sending a packet** writes it for its own address, and encrypted if the connection is. -/
theorem send_onlyOwn (hlib : WritesAddress lib.scapy) (hpkt : OnAddress a pkt) :
    Triple (fun w => w.self.accessAddress = some a) (OnlyOwn lib) (send lib pkt)
      fun _ _ => True := by
  refine getSelf_bind_triple fun w hw => ?_
  split
  case isTrue hencrypted =>
    refine .bind (Q := fun r w' => w' = w ∧ encryptPkt lib w.self (lib.scapy.raw pkt) = .ok r)
      (.lift ?_) fun pktSend => Triple.of_eq ?_
    · rintro r hr w' rfl
      exact ⟨rfl, hr⟩
    · rintro w' ⟨rfl, hsend⟩
      refine .bind (Q := fun _ w'' => w'' = { w' with
          self := { w'.self with encTxPktCount := w'.self.encTxPktCount + 1 }
          log := w'.log ++ [.encrypt] }) (.modify ?_) fun _ => callDriver_onlyOwn ?_
      · rintro w'' rfl
        exact ⟨⟨.inr ⟨_, rfl, nofun⟩, .inl rfl⟩, rfl⟩
      · rintro w'' driver data rfl hwrite
        obtain ⟨data', hdata, hreturn⟩ := exists_of_bind_ok hwrite
        obtain rfl := (Prod.mk.inj (Except.ok.inj hreturn)).2
        obtain rfl := Nrf52.rawSend_eq hdata
        rcases hpkt with ⟨rxAdd, txAdd, layers, rfl⟩ | ⟨llid, layers, rfl⟩
        · exact .inr (.inl (frameOf_encryptPkt hlib rfl hsend))
        · exact .inr (.inr ⟨a, hw, frameOf_encryptPkt hlib rfl hsend, fun _ =>
            ⟨w'.self, w'.log, _, pktSend, rfl, rfl, hsend, rfl⟩⟩)
  case isFalse hplain =>
    refine callDriver_onlyOwn ?_
    rintro w' driver data rfl hwrite
    obtain rfl := Nrf52.send_eq hwrite
    rcases hpkt with ⟨rxAdd, txAdd, layers, rfl⟩ | ⟨llid, layers, rfl⟩
    · exact .inr (.inl (frameOf_raw hlib _ rfl _))
    · refine .inr (.inr ⟨a, hw, frameOf_raw hlib _ rfl _, fun hencrypted => absurd ?_ hplain⟩)
      rw [hencrypted]
      rfl

/-- The primitives of the mapper write nothing else. -/
theorem onlyOwn_primitives (hlib : WritesAddress lib.scapy) :
    Primitives lib (fun _ => True) (OnlyOwn lib) where
  inward w w' h _ := by
    refine ⟨⟨?_, .inl h.accessAddress⟩, trivial⟩
    rcases h.log with hlog | ⟨e, hlog, he⟩
    · exact .inl hlog
    · refine .inr ⟨e, hlog, ?_⟩
      rintro data rfl
      exact he.elim
  time := Triple.keeps time_onlyOwn
  rawReceive := Triple.keeps rawReceive_onlyOwn
  driverResetDevice := Triple.keeps driverResetDevice_onlyOwn
  resetDevice := Triple.keeps resetDevice_onlyOwn
  startTest w _ := ⟨⟨.inr ⟨_, rfl, nofun⟩, .inr ⟨rfl, rfl⟩⟩, trivial⟩
  send a pkt hpkt := Triple.keeps ((send_onlyOwn hlib hpkt).pre fun _ => And.right)

/-- **A test keeps to its connection.** In every session from every state, every assignment that
writes to the serial port writes the setting of the driver, a packet for the advertising channels,
or a packet for the connection of that moment, and this one encrypted if the connection is; and only
`reset` changes the connection, to the address it has drawn. -/
theorem session_own (hlib : WritesAddress lib.scapy) {cls : MapperClass}
    (hcls : cls ∈ [blesulClass, arduinoNanoESP32, nimble, rpiPico2W, rpiZeroWBlueZ, intelAX200BlueZ,
      nrf52840, nrf52840DKNimble]) (w₀ : World τ) (cs : List Call) :
    List.IsChain (OnlyOwn lib) (states lib cls w₀ cs) :=
  (((onlyOwn_primitives hlib).session (answersOwn_of_mem hcls) cs).1 w₀ trivial).1

/-- In two tests, the first of which is terminated on its connection. -/
theorem session_own_two :
    List.IsChain (OnlyOwn (plainLib wireScapy)) (states (plainLib wireScapy) blesulClass
      (plainWorld 0 [some (plainScanRsp 1), none, some (plainScanRsp 1)])
      [.pre, .step .llData, .pre]) :=
  @session_own _ (plainLib wireScapy) wireRaw_eq _ List.mem_cons_self _ _

end BleFuzzer.Mapper

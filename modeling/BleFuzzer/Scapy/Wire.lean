import BleFuzzer.Common.AirPacket
import BleFuzzer.Scapy.Packet

/-!
# Packets as bytes

A part of Scapy that can be computed: the layout of advertising and control packets, and the
summaries of all. Bytes are dissected by their access address, and what is not known of a payload is
a `Raw` layer. Two things about this part are also true of all of Scapy: a packet is written with
its access address in front (`wireRaw_eq`), and an advertising packet is told by it
(`wireBtle_hasBtleAdv`).

Where Scapy computes a CRC there are three zero bytes, which no end of the serial channel looks at.
-/

namespace BleFuzzer

/-! ## Building bytes -/

/-- The type and the payload of an advertising packet. -/
def advPayload : List Layer → ℕ × Bytes
  | .btleAdvInd advA :: _ => (0, advA.reverse)
  | .btleAdvNonconnInd advA :: _ => (2, advA.reverse)
  | .btleScanReq scanA advA :: _ => (3, scanA.reverse ++ advA.reverse)
  | .btleScanRsp advA :: _ => (4, advA.reverse)
  | .btleConnectReq initA advA aa crcInit winSize winOffset interval latency timeout chM sca hop :: _ =>
    (5, initA.reverse ++ advA.reverse ++ aa ++ (leBytes 3 crcInit).reverse ++ leBytes 1 winSize ++
      leBytes 2 winOffset ++ leBytes 2 interval ++ leBytes 2 latency ++ leBytes 2 timeout ++
      leBytes 5 chM ++ [UInt8.ofNat (32 * sca + hop)])
  | .raw load :: _ => (0, load)
  | _ => (0, [])

/-- The opcode and the parameters of a control packet. -/
def ctrlParams : List Layer → ℕ × Bytes
  | .llTerminateInd :: _ => (0x02, [0x00])
  | .llEncReq rand ediv skdm ivm :: _ =>
    (0x03, leBytes 8 rand ++ leBytes 2 ediv ++ leBytes 8 skdm ++ leBytes 4 ivm)
  | .llEncRsp skds ivs :: _ => (0x04, leBytes 8 skds ++ leBytes 4 ivs)
  | .llStartEncReq :: _ => (0x05, [])
  | .llStartEncRsp :: _ => (0x06, [])
  | .llUnknownRsp :: _ => (0x07, [0x00])
  | .llPauseEncReq :: _ => (0x0a, [])
  | .llPauseEncRsp :: _ => (0x0b, [])
  | .llRejectInd code :: _ => (0x0d, leBytes 1 code)
  | .llLengthReq maxTxBytes maxRxBytes :: _ =>
    (0x14, leBytes 2 maxRxBytes ++ leBytes 2 2120 ++ leBytes 2 maxTxBytes ++ leBytes 2 2120)
  | .llLengthRsp maxTxBytes maxRxBytes :: _ =>
    (0x15, leBytes 2 maxRxBytes ++ leBytes 2 2120 ++ leBytes 2 maxTxBytes ++ leBytes 2 2120)
  | .raw load :: _ => (0x00, load)
  | _ => (0x00, [])

/-- The LLID and the payload of a data packet. -/
def dataPayload : List Layer → ℕ × Bytes
  | .btleCtrl opcode :: layers =>
    (3, UInt8.ofNat (opcode.getD (ctrlParams layers).1) :: (ctrlParams layers).2)
  | .raw load :: _ => (2, load)
  | _ => (2, [])

/-- A whole packet. -/
def wirePacket (accessAddr : UInt32) (hdrByte : ℕ) (payload : Bytes) : Bytes :=
  airPacket accessAddr (UInt8.ofNat hdrByte) (UInt8.ofNat payload.length) payload ++ [0, 0, 0]

/-- `raw(pkt)`. -/
def wireRaw (pkt : Pkt) : Bytes :=
  match pkt.layers with
  | .btle aa :: .btleAdv rxAdd txAdd :: layers =>
    wirePacket aa (128 * rxAdd + 64 * txAdd + (advPayload layers).1) (advPayload layers).2
  | .btle aa :: .btleData llid :: layers =>
    wirePacket aa (llid.getD (dataPayload layers).1) (dataPayload layers).2
  | .btle aa :: .raw load :: _ => leBytes 4 aa.toNat ++ load ++ [0, 0, 0]
  | _ => []

/-! ## Dissecting bytes -/

/-- A `Raw` layer for what is left, if anything is. -/
def rawLayers (load : Bytes) : List Layer := if load = [] then [] else [.raw load]

/-- The layers in an advertising packet of a given type. -/
def advLayers (pduType : ℕ) (payload : Bytes) : List Layer :=
  let first := (payload.take 6).reverse
  let second := ((payload.drop 6).take 6).reverse
  if pduType = 0 ∧ 6 ≤ payload.length then
    [.btleAdvInd first]
  else if pduType = 2 ∧ 6 ≤ payload.length then
    [.btleAdvNonconnInd first]
  else if pduType = 3 ∧ payload.length = 12 then
    [.btleScanReq first second]
  else if pduType = 4 ∧ 6 ≤ payload.length then
    [.btleScanRsp first]
  else
    rawLayers payload

/-- The layers in a control packet. A packet without parameters ends with its opcode. -/
def ctrlLayers : Bytes → List Layer
  | [] => []
  | opcode :: params =>
    .btleCtrl (some opcode.toNat) ::
      if opcode = 0x03 ∧ params.length = 22 then
        [.llEncReq (leValue (params.take 8)) (leValue ((params.drop 8).take 2))
          (leValue ((params.drop 10).take 8)) (leValue (params.drop 18))]
      else if opcode = 0x04 ∧ params.length = 12 then
        [.llEncRsp (leValue (params.take 8)) (leValue (params.drop 8))]
      else if opcode = 0x0d ∧ params.length = 1 then
        [.llRejectInd (leValue params)]
      else
        rawLayers params

/-- The layers in a data packet. -/
def dataLayers (llid : ℕ) (payload : Bytes) : List Layer :=
  if llid = 3 then ctrlLayers payload else rawLayers payload

/-- The access address in front of some bytes. -/
def wireAddress (data : Bytes) : UInt32 := UInt32.ofNat (leValue (data.take 4))

/-- `BTLE(data)`. The CRC is taken from the end before anything else is dissected. -/
def wireBtle (data : Bytes) : Pkt :=
  let hdrByte := (data.getD 4 0).toNat
  let pdu := (data.take (data.length - 3)).drop 4
  if data.length < 9 then
    ⟨[.btle (wireAddress data), .raw pdu]⟩
  else if wireAddress data = advertisingAddress then
    ⟨.btle (wireAddress data) :: .btleAdv (hdrByte / 128) (hdrByte / 64 % 2) ::
      advLayers (hdrByte % 16) (pdu.drop 2)⟩
  else
    ⟨.btle (wireAddress data) :: .btleData (some (hdrByte % 4)) ::
      dataLayers (hdrByte % 4) (pdu.drop 2)⟩

/-! ## Summaries -/

/-- The name of the class of a layer. -/
def Layer.className : Layer → String
  | .btle .. => "BTLE"
  | .btleAdv .. => "BTLE_ADV"
  | .btleAdvInd .. => "BTLE_ADV_IND"
  | .btleAdvNonconnInd .. => "BTLE_ADV_NONCONN_IND"
  | .btleAdvDirectInd .. => "BTLE_ADV_DIRECT_IND"
  | .btleScanReq .. => "BTLE_SCAN_REQ"
  | .btleScanRsp .. => "BTLE_SCAN_RSP"
  | .btleConnectReq .. => "BTLE_CONNECT_REQ"
  | .btleData .. => "BTLE_DATA"
  | .btleCtrl .. => "BTLE_CTRL"
  | .llTerminateInd => "LL_TERMINATE_IND"
  | .llEncReq .. => "LL_ENC_REQ"
  | .llEncRsp .. => "LL_ENC_RSP"
  | .llStartEncReq => "LL_START_ENC_REQ"
  | .llStartEncRsp => "LL_START_ENC_RSP"
  | .llUnknownRsp => "LL_UNKNOWN_RSP"
  | .llFeatureReq .. => "LL_FEATURE_REQ"
  | .llFeatureRsp .. => "LL_FEATURE_RSP"
  | .llPauseEncReq => "LL_PAUSE_ENC_REQ"
  | .llPauseEncRsp => "LL_PAUSE_ENC_RSP"
  | .llVersionInd .. => "LL_VERSION_IND"
  | .llRejectInd .. => "LL_REJECT_IND"
  | .llSlaveFeatureReq .. => "LL_SLAVE_FEATURE_REQ"
  | .llRejectExtInd .. => "LL_REJECT_EXT_IND"
  | .llLengthReq .. => "LL_LENGTH_REQ"
  | .llLengthRsp .. => "LL_LENGTH_RSP"
  | .llPhyReq .. => "LL_PHY_REQ"
  | .llPhyRsp .. => "LL_PHY_RSP"
  | .llPhyUpdateInd .. => "LL_PHY_UPDATE_IND"
  | .l2capHdr => "L2CAP_Hdr"
  | .l2capCmdHdr => "L2CAP_CmdHdr"
  | .l2capConnectionParameterUpdateRequest => "L2CAP_Connection_Parameter_Update_Request"
  | .smHdr => "SM_Hdr"
  | .smPairingRequest .. => "SM_Pairing_Request"
  | .smPairingResponse .. => "SM_Pairing_Response"
  | .smConfirm .. => "SM_Confirm"
  | .smRandom .. => "SM_Random"
  | .smFailed .. => "SM_Failed"
  | .smEncryptionInformation .. => "SM_Encryption_Information"
  | .smMasterIdentification .. => "SM_Master_Identification"
  | .smIdentityInformation .. => "SM_Identity_Information"
  | .smIdentityAddressInformation .. => "SM_Identity_Address_Information"
  | .smSigningInformation .. => "SM_Signing_Information"
  | .smPublicKey .. => "SM_Public_Key"
  | .smDHKeyCheck .. => "SM_DHKey_Check"
  | .attHdr => "ATT_Hdr"
  | .attErrorResponse .. => "ATT_Error_Response"
  | .attExchangeMtuRequest .. => "ATT_Exchange_MTU_Request"
  | .attExchangeMtuResponse .. => "ATT_Exchange_MTU_Response"
  | .attReadByTypeRequest .. => "ATT_Read_By_Type_Request"
  | .attReadByTypeResponse .. => "ATT_Read_By_Type_Response"
  | .attReadByGroupTypeRequest .. => "ATT_Read_By_Group_Type_Request"
  | .attReadByGroupTypeResponse => "ATT_Read_By_Group_Type_Response"
  | .attReadRequest .. => "ATT_Read_Request"
  | .attReadResponse .. => "ATT_Read_Response"
  | .hciHdr => "HCI_Hdr"
  | .hciAclHdr => "HCI_ACL_Hdr"
  | .hciCmdLeEnableEncryption .. => "HCI_Cmd_LE_Enable_Encryption"
  | .raw .. => "Raw"
  | .other name => name

/-- `pkt.summary()`. -/
def wireSummary (pkt : Pkt) : Text :=
  " / ".toList.intercalate (pkt.layers.map fun layer => layer.className.toList)

/-- The part of Scapy above. -/
def wireScapy : Scapy where
  raw := wireRaw
  btle := wireBtle
  hciHdr data := ⟨.hciHdr :: rawLayers data⟩
  summary := wireSummary

/-! ## Access addresses -/

/-- A packet with a header is written with its access address in front. -/
theorem wireRaw_eq (aa : UInt32) (header : Layer) (layers : List Layer)
    (hheader : header.isHeader = true) :
    ∃ rest, wireRaw ⟨.btle aa :: header :: layers⟩ = leBytes 4 aa.toNat ++ rest ∧ 5 ≤ rest.length := by
  have hpacket (hdrByte : ℕ) (payload : Bytes) :
      ∃ rest, wirePacket aa hdrByte payload = leBytes 4 aa.toNat ++ rest ∧ 5 ≤ rest.length := by
    refine ⟨[UInt8.ofNat hdrByte, UInt8.ofNat payload.length] ++ payload ++ [0, 0, 0], ?_, ?_⟩
    · simp only [wirePacket, airPacket, List.append_assoc]
    · simp only [List.length_append, List.length_cons, List.length_nil]
      omega
  cases header
  case btleAdv rxAdd txAdd => exact hpacket _ _
  case btleData llid => exact hpacket _ _
  all_goals cases hheader

/-- Reading the access address of a packet back. -/
theorem wireAddress_append (aa : UInt32) (rest : Bytes) :
    wireAddress (leBytes 4 aa.toNat ++ rest) = aa := by
  rw [wireAddress, List.take_left' (leBytes_length 4 _),
    leValue_leBytes_of_lt (show aa.toNat < 256 ^ 4 from aa.toNat_lt), UInt32.ofNat_toNat]

/-- There is no second advertising header behind the first. -/
private theorem advLayers_any (pduType : ℕ) (payload : Bytes) :
    (advLayers pduType payload).any (· matches .btleAdv ..) = false := by
  unfold advLayers rawLayers
  repeat' split
  all_goals rfl

/-- A data packet has no advertising header. -/
private theorem dataLayers_any (llid : ℕ) (payload : Bytes) :
    (dataLayers llid payload).any (· matches .btleAdv ..) = false := by
  unfold dataLayers rawLayers
  split
  · cases payload with
    | nil => rfl
    | cons opcode params =>
      rw [ctrlLayers, List.any_cons, Bool.false_or]
      unfold rawLayers
      repeat' split
      all_goals rfl
  · split <;> rfl

/-- **An advertising packet is told by its access address.** -/
theorem wireBtle_hasBtleAdv (data : Bytes) (hlength : 9 ≤ data.length) :
    (wireBtle data).hasBtleAdv = decide (wireAddress data = advertisingAddress) := by
  rw [wireBtle, if_neg (by omega)]
  by_cases hadv : wireAddress data = advertisingAddress
  · rw [if_pos hadv, decide_eq_true hadv]
    rfl
  · rw [if_neg hadv, decide_eq_false hadv]
    exact dataLayers_any _ _

/-- What is long enough when it is written again has been long enough, and keeps its access address.
-/
theorem wireRaw_wireBtle (data : Bytes) (hlength : 9 ≤ (wireRaw (wireBtle data)).length) :
    9 ≤ data.length ∧ (wireRaw (wireBtle data)).take 4 = leBytes 4 (wireAddress data).toNat := by
  have hlong : 9 ≤ data.length := by
    by_contra hshort
    rw [wireBtle, if_pos (by omega)] at hlength
    have hraw : (wireRaw ⟨[.btle (wireAddress data),
        .raw ((data.take (data.length - 3)).drop 4)]⟩).length =
        4 + ((data.take (data.length - 3)).drop 4).length + 3 := by
      simp only [wireRaw, List.length_append, leBytes_length, List.length_cons, List.length_nil]
    rw [hraw, List.length_drop, List.length_take] at hlength
    omega
  have htake (header : Layer) (layers : List Layer) (hheader : header.isHeader = true) :
      (wireRaw ⟨.btle (wireAddress data) :: header :: layers⟩).take 4 =
        leBytes 4 (wireAddress data).toNat := by
    obtain ⟨rest, hraw, -⟩ := wireRaw_eq (wireAddress data) header layers hheader
    rw [hraw, List.take_left' (leBytes_length 4 _)]
  refine ⟨hlong, ?_⟩
  rw [wireBtle, if_neg (by omega)]
  split
  · exact htake _ _ rfl
  · exact htake _ _ rfl

/-! ## Writing what has been dissected -/

/-- Raw layers give back their load. -/
theorem ctrlParams_rawLayers (load : Bytes) : (ctrlParams (rawLayers load)).2 = load := by
  unfold rawLayers
  split
  case isTrue hnil => exact hnil.symm
  case isFalse => rfl

/-- They do so as the payload of a data packet, too. -/
theorem dataPayload_rawLayers (load : Bytes) : (dataPayload (rawLayers load)).2 = load := by
  unfold rawLayers
  split
  case isTrue hnil => exact hnil.symm
  case isFalse => rfl

/-- The parameters of a control packet are kept. -/
theorem dataPayload_ctrlLayers (payload : Bytes) : (dataPayload (ctrlLayers payload)).2 = payload := by
  cases payload with
  | nil => rfl
  | cons opcode params =>
    have hopcode : UInt8.ofNat opcode.toNat = opcode := UInt8.ofNat_toNat
    rw [ctrlLayers, dataPayload, Option.getD_some, hopcode]
    refine congrArg (opcode :: ·) ?_
    split
    case isTrue h =>
      have hlength := h.2
      show leBytes 8 _ ++ leBytes 2 _ ++ leBytes 8 _ ++ leBytes 4 _ = params
      rw [leBytes_leValue_of_length (by rw [List.length_take]; omega),
        leBytes_leValue_of_length (by rw [List.length_take, List.length_drop]; omega),
        leBytes_leValue_of_length (by rw [List.length_take, List.length_drop]; omega),
        leBytes_leValue_of_length (by rw [List.length_drop]; omega)]
      have hediv : params.drop 10 = (params.drop 8).drop 2 := by rw [List.drop_drop]
      have hivm : params.drop 18 = (params.drop 10).drop 8 := by rw [List.drop_drop]
      rw [hivm, List.append_assoc, List.append_assoc, List.take_append_drop, hediv,
        List.take_append_drop, List.take_append_drop]
    case isFalse =>
      split
      case isTrue h =>
        have hlength := h.2
        show leBytes 8 _ ++ leBytes 4 _ = params
        rw [leBytes_leValue_of_length (by rw [List.length_take]; omega),
          leBytes_leValue_of_length (by rw [List.length_drop]; omega), List.take_append_drop]
      case isFalse =>
        split
        case isTrue h => exact leBytes_leValue_of_length h.2
        case isFalse => exact ctrlParams_rawLayers params

/-- **A data packet is written as it was dissected**, if its header has nothing but the LLID. -/
theorem wireRaw_wireBtle_data {aa : UInt32} {llid : ℕ} {payload : Bytes}
    (haa : aa ≠ advertisingAddress) (hllid : llid < 4) :
    wireRaw (wireBtle (wirePacket aa llid payload)) = wirePacket aa llid payload := by
  have haddress : wireAddress (wirePacket aa llid payload) = aa := by
    rw [wirePacket, airPacket, List.append_assoc, List.append_assoc, wireAddress_append]
  have hhdrByte : ((wirePacket aa llid payload).getD 4 0).toNat % 4 = llid := by
    show (UInt8.ofNat llid).toNat % 4 = llid
    rw [UInt8.toNat_ofNat']
    omega
  have hlength : (wirePacket aa llid payload).length = payload.length + 9 := by
    rw [wirePacket, List.length_append, airPacket_length]
    rfl
  have hpdu : (((wirePacket aa llid payload).take ((wirePacket aa llid payload).length - 3)).drop
      4).drop 2 = payload := by
    rw [List.drop_drop, hlength, Nat.add_sub_cancel (payload.length + 6) 3, wirePacket,
      List.take_left' (airPacket_length aa _ _ payload), airPacket_drop_six]
  rw [wireBtle, if_neg (by omega), haddress, if_neg haa, hhdrByte, hpdu]
  show wirePacket aa llid (dataPayload (dataLayers llid payload)).2 = wirePacket aa llid payload
  refine congrArg (wirePacket aa llid) ?_
  rw [dataLayers]
  split
  · exact dataPayload_ctrlLayers payload
  · exact dataPayload_rawLayers payload

end BleFuzzer

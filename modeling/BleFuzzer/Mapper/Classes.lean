import BleFuzzer.Mapper.Step

/-!
# The subclasses

What each subclass of `BLESUL` changes. `BLESUL_CI` is `BLESUL_NimBLE` with other arguments.
-/

namespace BleFuzzer.Mapper

/-- Whether the sequence ends with the two symbols. -/
def endsWith (inputSequence : List InputSymbol) (first second : InputSymbol) : Bool :=
  inputSequence.drop (inputSequence.length - 2) == [first, second]

/-- Whether the name of a symbol occurs in the last output. -/
def lastOutputHas (outputSequence : List Text) (name : String) : Bool :=
  outputSequence.getLast?.any fun output => decide (name.toList <:+: output)

/-- `BLESUL_ArduinoNanoESP32`. -/
def arduinoNanoESP32 : MapperClass :=
  { blesulClass with
    isLastSymSuspicious := fun inputs outputs =>
      endsWith inputs .llAdvConnectInd .llCtrlPauseEncReq &&
        !lastOutputHas outputs "LL_CTRL_REJECT_IND"
    attReadReqPre := some 0x2a }

/-- `BLESUL_NimBLE`. -/
def nimble : MapperClass :=
  { blesulClass with
    isRspComplete := .nimble
    llAdvConnectInd := true
    llAdvScanReqKeeps := true
    attReadReqPre := some 0x24 }

/-- `BLESUL_RPiPico2W`. -/
def rpiPico2W : MapperClass := { blesulClass with attReadReqPre := some 0x09 }

/-- `BLESUL_RPiZeroWBlueZ`. -/
def rpiZeroWBlueZ : MapperClass := { blesulClass with attReadReqPre := some 0x18 }

/-- The answer to the `ATT_Read_By_Type_Request` for one attribute. -/
def readByTypeRsp (self : Blesul) (len : ℕ) (handles : Bytes) : Pkt :=
  attPacket self (.attReadByTypeResponse (some len) (some handles))

/-- `BLESUL_IntelAX200BlueZ.handle_packet`. -/
def intelAX200BlueZHandlePacket (self : Blesul) (pkt : Pkt) : Option Pkt :=
  if pkt.layers.any (· matches .attExchangeMtuRequest ..) then
    some (attPacket self (.attExchangeMtuResponse 247))
  else
    match pkt.layers.findSome? fun | .attReadByTypeRequest _ _ uuid => some uuid | _ => none with
    | some 0x2b3a => some (readByTypeRsp self 3 [0x05, 0x00, 0x01])
    | some 0x2b2a =>
      some (readByTypeRsp self 18 [0x09, 0x00, 0x89, 0x91, 0xc4, 0x62, 0xeb, 0xe9, 0xd9, 0x0b,
        0x9e, 0xa0, 0xda, 0x3e, 0x16, 0xd0, 0xf5, 0x13])
    | _ =>
      match pkt.layers.findSome? fun
          | .attReadByGroupTypeRequest start _ _ => some start
          | _ => none with
      | some start =>
        some (attPacket self (.attErrorResponse (some 0x10) (some start) (some "unsupported req")))
      | none => none

/-- `BLESUL_IntelAX200BlueZ`. -/
def intelAX200BlueZ : MapperClass :=
  { blesulClass with handlePacket := some intelAX200BlueZHandlePacket }

def intelAX200BlueZArgs (deviceAddress : Addr) : BlesulArgs where
  deviceAddress := deviceAddress
  peripheralAddressIsRand := 1
  resetCmd := some "scripts/reset_ble_stack.sh"
  recvSMin := 100000
  recvSMax := 1000000
  outputSymbolFilters :=
    ["L2CAP_CONNECTION_PARAMETER_UPDATE_REQ".toList, "ATT_EXCHANGE_MTU_REQ".toList,
      "ATT_READ_BY_TYPE_REQ".toList, "ATT_READ_BY_GROUP_TYPE_REQ".toList,
      "SM_SIGNING_INFORMATION".toList]

/-- `BLESUL_nRF52840`. -/
def nrf52840 : MapperClass :=
  { blesulClass with
    isLastSymSuspicious := fun inputs outputs =>
      endsWith inputs .llAdvConnectInd .smPairingReq && lastOutputHas outputs "SM_FAILED"
    llCtrlTerminateInd := true
    attReadReqPre := some 0x12
    preResets := true }

/-- `BLESUL_nRF52840DKNimBLE`. -/
def nrf52840DKNimble : MapperClass :=
  { blesulClass with
    isRspComplete := .nrf52840DKNimble
    isLastSymSuspicious := fun _ outputs => lastOutputHas outputs "Raw"
    llAdvConnectInd := true
    attReadReqPre := some 0x24 }

end BleFuzzer.Mapper

import BleFuzzer.Common.Bytes

/-!
# Packets as the mapper sees them

A Scapy packet is a stack of layers. The layers below are those the repository builds or inspects,
each with the fields the repository sets or reads. A field that the source leaves to Scapy is
`none`.

Scapy itself is not part of the repository. `Scapy` lists what is used of it: building bytes from a
packet, dissecting bytes, and the printed summary.
-/

namespace BleFuzzer

/-- A device address: the six bytes spelled by its hexadecimal string. Comparing two addresses
through `upper()` compares these bytes. -/
abbrev Addr := Bytes

/-- Text as a sequence of code points. -/
abbrev Text := List Char

/-- The layers the repository uses. -/
inductive Layer
  | btle (accessAddr : UInt32)
  | btleAdv (rxAdd txAdd : ℕ)
  | btleAdvInd (advA : Addr)
  | btleAdvNonconnInd (advA : Addr)
  | btleAdvDirectInd (advA : Addr)
  | btleScanReq (scanA advA : Addr)
  | btleScanRsp (advA : Addr)
  | btleConnectReq (initA advA : Addr) (aa : Bytes)
      (crcInit winSize winOffset interval latency timeout chM sca hop : ℕ)
  | btleData (llid : Option ℕ)
  | btleCtrl (opcode : Option ℕ)
  | llTerminateInd
  | llEncReq (rand ediv skdm ivm : ℕ)
  | llEncRsp (skds ivs : ℕ)
  | llStartEncReq
  | llStartEncRsp
  | llUnknownRsp
  | llFeatureReq (featureSet : String)
  | llFeatureRsp (featureSet : String)
  | llPauseEncReq
  | llPauseEncRsp
  | llVersionInd (version : String)
  | llRejectInd (code : ℕ)
  | llSlaveFeatureReq (featureSet : String)
  | llRejectExtInd (errorCode : ℕ)
  | llLengthReq (maxTxBytes maxRxBytes : ℕ)
  | llLengthRsp (maxTxBytes maxRxBytes : ℕ)
  | llPhyReq (txPhys rxPhys : String)
  | llPhyRsp (txPhys rxPhys : String)
  | llPhyUpdateInd (txPhy rxPhy : String)
  | l2capHdr
  | l2capCmdHdr
  | l2capConnectionParameterUpdateRequest
  | smHdr
  | smPairingRequest (iocap oob authentication maxKeySize initiatorKeyDistribution
      responderKeyDistribution : ℕ)
  | smPairingResponse (iocap oob authentication maxKeySize initiatorKeyDistribution
      responderKeyDistribution : ℕ)
  | smConfirm (confirm : Bytes)
  | smRandom (random : Bytes)
  | smFailed (reason : ℕ)
  | smEncryptionInformation (ltk : Bytes)
  | smMasterIdentification (ediv : ℕ) (rand : Bytes)
  | smIdentityInformation (irk : Bytes)
  | smIdentityAddressInformation (atype : ℕ)
  | smSigningInformation (csrk : Bytes)
  | smPublicKey (keyX keyY : Bytes)
  | smDHKeyCheck (dhkeyCheck : Bytes)
  | attHdr
  | attErrorResponse (request handle : Option ℕ) (ecode : Option String)
  | attExchangeMtuRequest (mtu : ℕ)
  | attExchangeMtuResponse (mtu : ℕ)
  | attReadByTypeRequest (start stop uuid : ℕ)
  | attReadByTypeResponse (len : Option ℕ) (handles : Option Bytes)
  | attReadByGroupTypeRequest (start stop uuid : ℕ)
  | attReadByGroupTypeResponse
  | attReadRequest (gattHandle : ℕ)
  | attReadResponse (value : String)
  | hciHdr
  | hciAclHdr
  | hciCmdLeEnableEncryption (ltk : Bytes)
  | raw (load : Bytes)
  | other (name : String)
deriving DecidableEq

/-- The headers that follow an access address. -/
def Layer.isHeader : Layer → Bool
  | .btleAdv .. | .btleData .. => true
  | _ => false

/-- A packet: its layers, outermost first. -/
structure Pkt where
  layers : List Layer
deriving DecidableEq

/-- The access address of the advertising channels, which a `BTLE` layer has by default. -/
def advertisingAddress : UInt32 := 0x8E89BED6

/-- `pkt / layer`. -/
def Pkt.push (pkt : Pkt) (layer : Layer) : Pkt := ⟨pkt.layers ++ [layer]⟩

/-! ## Layer membership, `X in pkt` -/

def Pkt.hasBtleAdv (pkt : Pkt) : Bool := pkt.layers.any (· matches .btleAdv ..)

def Pkt.hasBtleAdvInd (pkt : Pkt) : Bool := pkt.layers.any (· matches .btleAdvInd ..)

def Pkt.hasBtleScanRsp (pkt : Pkt) : Bool := pkt.layers.any (· matches .btleScanRsp ..)

def Pkt.hasBtleConnectReq (pkt : Pkt) : Bool := pkt.layers.any (· matches .btleConnectReq ..)

def Pkt.hasBtleData (pkt : Pkt) : Bool := pkt.layers.any (· matches .btleData ..)

def Pkt.hasLlStartEncReq (pkt : Pkt) : Bool := pkt.layers.any (· matches .llStartEncReq)

def Pkt.hasLlStartEncRsp (pkt : Pkt) : Bool := pkt.layers.any (· matches .llStartEncRsp)

def Pkt.hasLlPauseEncRsp (pkt : Pkt) : Bool := pkt.layers.any (· matches .llPauseEncRsp)

def Pkt.hasSmHdr (pkt : Pkt) : Bool := pkt.layers.any (· matches .smHdr)

/-- Whether the last layer is one that the peripheral sends again and again. -/
def Pkt.isCyclic (pkt : Pkt) : Bool :=
  match pkt.layers.getLast? with
  | some (.btleAdv ..) | some (.btleAdvInd ..) | some (.btleAdvNonconnInd ..)
  | some (.btleAdvDirectInd ..) | some (.btleData ..) => true
  | _ => false

/-! ## Field access -/

/-- `pkt.access_addr`. -/
def Pkt.accessAddr (pkt : Pkt) : Option UInt32 :=
  pkt.layers.findSome? fun | .btle aa => some aa | _ => none

/-- `pkt.AdvA`, when the packet has that attribute. -/
def Pkt.advA (pkt : Pkt) : Option Addr :=
  pkt.layers.findSome? fun
    | .btleAdvInd a | .btleAdvNonconnInd a | .btleAdvDirectInd a => some a
    | .btleScanReq _ a | .btleScanRsp a => some a
    | .btleConnectReq _ a .. => some a
    | _ => none

/-- `pkt.TxAdd`. -/
def Pkt.txAdd (pkt : Pkt) : Option ℕ :=
  pkt.layers.findSome? fun | .btleAdv _ tx => some tx | _ => none

/-- `pkt.opcode` of a packet with a `BTLE_CTRL` layer; `none` without that layer. -/
def Pkt.ctrlOpcode (pkt : Pkt) : Option ℕ :=
  pkt.layers.findSome? fun | .btleCtrl opcode => opcode | _ => none

/-- `pkt[LL_ENC_RSP].skds` and `pkt[LL_ENC_RSP].ivs`. -/
def Pkt.llEncRsp (pkt : Pkt) : Option (ℕ × ℕ) :=
  pkt.layers.findSome? fun | .llEncRsp skds ivs => some (skds, ivs) | _ => none

/-- `pkt[SM_Pairing_Request].iocap` and `pkt[SM_Pairing_Request].authentication`. -/
def Pkt.smPairingRequest (pkt : Pkt) : Option (ℕ × ℕ) :=
  pkt.layers.findSome? fun
    | .smPairingRequest iocap _ authentication .. => some (iocap, authentication)
    | _ => none

/-- `pkt[SM_Hdr]`: the packet from its `SM_Hdr` layer on. -/
def Pkt.fromSmHdr (pkt : Pkt) : List Layer := pkt.layers.dropWhile fun l => !(l matches .smHdr)

/-- `pkt.gatt_handle = handle`. -/
def Pkt.setGattHandle (pkt : Pkt) (handle : ℕ) : Pkt :=
  ⟨pkt.layers.map fun | .attReadRequest _ => .attReadRequest handle | l => l⟩

/-! ## Fields of the answers of the SMP server -/

def Pkt.smConfirm (pkt : Pkt) : Option Bytes :=
  pkt.layers.findSome? fun | .smConfirm confirm => some confirm | _ => none

def Pkt.smRandom (pkt : Pkt) : Option Bytes :=
  pkt.layers.findSome? fun | .smRandom random => some random | _ => none

def Pkt.hciCmdLeEnableEncryption (pkt : Pkt) : Option Bytes :=
  pkt.layers.findSome? fun | .hciCmdLeEnableEncryption ltk => some ltk | _ => none

def Pkt.smEncryptionInformation (pkt : Pkt) : Option Bytes :=
  pkt.layers.findSome? fun | .smEncryptionInformation ltk => some ltk | _ => none

def Pkt.smMasterIdentification (pkt : Pkt) : Option (ℕ × Bytes) :=
  pkt.layers.findSome? fun | .smMasterIdentification ediv rand => some (ediv, rand) | _ => none

def Pkt.smIdentityInformation (pkt : Pkt) : Option Bytes :=
  pkt.layers.findSome? fun | .smIdentityInformation irk => some irk | _ => none

def Pkt.smIdentityAddressInformation (pkt : Pkt) : Option ℕ :=
  pkt.layers.findSome? fun | .smIdentityAddressInformation atype => some atype | _ => none

def Pkt.smSigningInformation (pkt : Pkt) : Option Bytes :=
  pkt.layers.findSome? fun | .smSigningInformation csrk => some csrk | _ => none

def Pkt.smPublicKey (pkt : Pkt) : Option (Bytes × Bytes) :=
  pkt.layers.findSome? fun | .smPublicKey keyX keyY => some (keyX, keyY) | _ => none

def Pkt.smDHKeyCheck (pkt : Pkt) : Option Bytes :=
  pkt.layers.findSome? fun | .smDHKeyCheck dhkeyCheck => some dhkeyCheck | _ => none

/-- What the repository uses of Scapy. -/
structure Scapy where
  /-- `raw(pkt)`. -/
  raw : Pkt → Bytes
  /-- `BTLE(data)`. -/
  btle : Bytes → Pkt
  /-- `HCI_Hdr(data)`. -/
  hciHdr : Bytes → Pkt
  /-- `pkt.summary()`. -/
  summary : Pkt → Text

end BleFuzzer

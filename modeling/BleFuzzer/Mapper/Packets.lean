import BleFuzzer.Mapper.Basic

/-!
# The packets of the mapper

The table `BLESUL.packets`: for each input symbol its name and the packet it builds from the object.
-/

namespace BleFuzzer.Mapper

/-- The name of an input symbol. -/
def InputSymbol.name : InputSymbol → String
  | .llAdvInd => "LL_ADV_IND"
  | .llAdvScanReq => "LL_ADV_SCAN_REQ"
  | .llAdvScanRsp => "LL_ADV_SCAN_RSP"
  | .llAdvConnectInd => "LL_ADV_CONNECT_IND"
  | .llData => "LL_DATA"
  | .llCtrlTerminateInd => "LL_CTRL_TERMINATE_IND"
  | .llCtrlEncReq => "LL_CTRL_ENC_REQ"
  | .llCtrlEncRsp => "LL_CTRL_ENC_RSP"
  | .llCtrlStartEncReq => "LL_CTRL_START_ENC_REQ"
  | .llCtrlStartEncRsp => "LL_CTRL_START_ENC_RSP"
  | .llCtrlUnknownRsp => "LL_CTRL_UNKNOWN_RSP"
  | .llCtrlFeatureReq => "LL_CTRL_FEATURE_REQ"
  | .llCtrlFeatureRsp => "LL_CTRL_FEATURE_RSP"
  | .llCtrlPauseEncReq => "LL_CTRL_PAUSE_ENC_REQ"
  | .llCtrlPauseEncRsp => "LL_CTRL_PAUSE_ENC_RSP"
  | .llCtrlVersionInd => "LL_CTRL_VERSION_IND"
  | .llCtrlRejectInd => "LL_CTRL_REJECT_IND"
  | .llCtrlPeripheralFeatureReq => "LL_CTRL_PERIPHERAL_FEATURE_REQ"
  | .llCtrlRejectExtInd => "LL_CTRL_REJECT_EXT_IND"
  | .llCtrlLengthReq => "LL_CTRL_LENGTH_REQ"
  | .llCtrlLengthRsp => "LL_CTRL_LENGTH_RSP"
  | .llCtrlPhyReq => "LL_CTRL_PHY_REQ"
  | .llCtrlPhyRsp => "LL_CTRL_PHY_RSP"
  | .llCtrlPhyUpdateInd => "LL_CTRL_PHY_UPDATE_IND"
  | .l2capConnectionParameterUpdateReq => "L2CAP_CONNECTION_PARAMETER_UPDATE_REQ"
  | .smPairingReq => "SM_PAIRING_REQ"
  | .smPairingReqSc => "SM_PAIRING_REQ_SC"
  | .smPairingRsp => "SM_PAIRING_RSP"
  | .smConfirm => "SM_CONFIRM"
  | .smRandom => "SM_RANDOM"
  | .smFailed => "SM_FAILED"
  | .smEncryptionInformation => "SM_ENCRYPTION_INFORMATION"
  | .smCentralIdentification => "SM_CENTRAL_IDENTIFICATION"
  | .smIdentityInformation => "SM_IDENTITY_INFORMATION"
  | .smIdentityAddressInformation => "SM_IDENTITY_ADDRESS_INFORMATION"
  | .smSigningInformation => "SM_SIGNING_INFORMATION"
  | .smPublicKey => "SM_PUBLIC_KEY"
  | .smDhkeyCheck => "SM_DHKEY_CHECK"
  | .attErrorRsp => "ATT_ERROR_RSP"
  | .attExchangeMtuReq => "ATT_EXCHANGE_MTU_REQ"
  | .attExchangeMtuRsp => "ATT_EXCHANGE_MTU_RSP"
  | .attReadByTypeReq => "ATT_READ_BY_TYPE_REQ"
  | .attReadByTypeRsp => "ATT_READ_BY_TYPE_RSP"
  | .attReadByGroupTypeReq => "ATT_READ_BY_GROUP_TYPE_REQ"
  | .attReadByGroupTypeRsp => "ATT_READ_BY_GROUP_TYPE_RSP"
  | .attReadReq => "ATT_READ_REQ"
  | .attReadRsp => "ATT_READ_RSP"

/-- The keys of the table, in its order. -/
def InputSymbol.all : List InputSymbol :=
  [.llAdvInd, .llAdvScanReq, .llAdvScanRsp, .llAdvConnectInd, .llData, .llCtrlTerminateInd,
   .llCtrlEncReq, .llCtrlEncRsp, .llCtrlStartEncReq, .llCtrlStartEncRsp, .llCtrlUnknownRsp,
   .llCtrlFeatureReq, .llCtrlFeatureRsp, .llCtrlPauseEncReq, .llCtrlPauseEncRsp,
   .llCtrlVersionInd, .llCtrlRejectInd, .llCtrlPeripheralFeatureReq, .llCtrlRejectExtInd,
   .llCtrlLengthReq, .llCtrlLengthRsp, .llCtrlPhyReq, .llCtrlPhyRsp, .llCtrlPhyUpdateInd,
   .l2capConnectionParameterUpdateReq, .smPairingReq, .smPairingReqSc, .smPairingRsp, .smConfirm,
   .smRandom, .smFailed, .smEncryptionInformation, .smCentralIdentification,
   .smIdentityInformation, .smIdentityAddressInformation, .smSigningInformation, .smPublicKey,
   .smDhkeyCheck, .attErrorRsp, .attExchangeMtuReq, .attExchangeMtuRsp, .attReadByTypeReq,
   .attReadByTypeRsp, .attReadByGroupTypeReq, .attReadByGroupTypeRsp, .attReadReq, .attReadRsp]

/-- `self.access_address`. Before the first `reset` the attribute does not exist, and no packet is
built. -/
def Blesul.aa (self : Blesul) : UInt32 := self.accessAddress.getD 0

/-- `BTLE(access_addr=self.access_address) / BTLE_DATA()` with more layers on top. -/
def dataPacket (self : Blesul) (layers : List Layer) : Pkt :=
  ⟨[.btle self.aa, .btleData none] ++ layers⟩

/-- A packet of the link layer's control protocol. -/
def ctrlPacket (self : Blesul) (layer : Layer) : Pkt := dataPacket self [.btleCtrl none, layer]

/-- A packet of the security manager. -/
def smPacket (self : Blesul) (layer : Layer) : Pkt := dataPacket self [.l2capHdr, .smHdr, layer]

/-- A packet of the attribute protocol. -/
def attPacket (self : Blesul) (layer : Layer) : Pkt := dataPacket self [.l2capHdr, .attHdr, layer]

/-- A packet on the advertising channels. -/
def advPacket (self : Blesul) (layer : Layer) : Pkt :=
  ⟨[.btle 0x8E89BED6, .btleAdv self.peripheralAddressIsRand self.centralAddressIsRand, layer]⟩

/-- The feature set of the `LL_FEATURE` packets. -/
def featureSet : String := "le_encryption+le_data_len_ext"

/-- `BLESUL.packets`. -/
def packets (sym : InputSymbol) (self : Blesul) : Pkt :=
  match sym with
  | .llAdvInd => advPacket self (.btleAdvInd self.centralAddress)
  | .llAdvScanReq => advPacket self (.btleScanReq self.centralAddress self.peripheralAddress)
  | .llAdvScanRsp => advPacket self (.btleScanRsp self.centralAddress)
  | .llAdvConnectInd =>
    advPacket self (.btleConnectReq self.centralAddress self.peripheralAddress
      (leBytes 4 self.aa.toNat) 0x179a9c 2 1 16 0 50 0x1FFFFFFFFF 0 5)
  | .llData => ⟨[.btle self.aa, .btleData (some 0x01)]⟩
  | .llCtrlTerminateInd => ctrlPacket self .llTerminateInd
  | .llCtrlEncReq =>
    ctrlPacket self (.llEncReq 0 0 (leValue (self.connSkd.take 8)) (leValue (self.connIv.take 4)))
  | .llCtrlEncRsp =>
    ctrlPacket self (.llEncRsp (leValue ((self.connSkd.take 16).drop 8))
      (leValue ((self.connIv.take 8).drop 4)))
  | .llCtrlStartEncReq => ctrlPacket self .llStartEncReq
  | .llCtrlStartEncRsp => ctrlPacket self .llStartEncRsp
  | .llCtrlUnknownRsp => ctrlPacket self .llUnknownRsp
  | .llCtrlFeatureReq => ctrlPacket self (.llFeatureReq featureSet)
  | .llCtrlFeatureRsp => ctrlPacket self (.llFeatureRsp featureSet)
  | .llCtrlPauseEncReq => ctrlPacket self .llPauseEncReq
  | .llCtrlPauseEncRsp => ctrlPacket self .llPauseEncRsp
  | .llCtrlVersionInd => ctrlPacket self (.llVersionInd "5.0")
  | .llCtrlRejectInd => ctrlPacket self (.llRejectInd 0x11)
  | .llCtrlPeripheralFeatureReq => ctrlPacket self (.llSlaveFeatureReq featureSet)
  | .llCtrlRejectExtInd => ctrlPacket self (.llRejectExtInd 0x11)
  | .llCtrlLengthReq => ctrlPacket self (.llLengthReq (247 + 4) (247 + 4))
  | .llCtrlLengthRsp => ctrlPacket self (.llLengthRsp (247 + 4) (247 + 4))
  | .llCtrlPhyReq => ctrlPacket self (.llPhyReq "phy_coded" "phy_coded")
  | .llCtrlPhyRsp => ctrlPacket self (.llPhyRsp "phy_coded" "phy_coded")
  | .llCtrlPhyUpdateInd => ctrlPacket self (.llPhyUpdateInd "phy_coded" "phy_coded")
  | .l2capConnectionParameterUpdateReq =>
    dataPacket self [.l2capHdr, .l2capCmdHdr, .l2capConnectionParameterUpdateRequest]
  | .smPairingReq => smPacket self (.smPairingRequest 0x03 0 0x01 16 0x01 0x01)
  | .smPairingReqSc => smPacket self (.smPairingRequest 0x01 0 0x09 16 0x01 0x01)
  | .smPairingRsp => smPacket self (.smPairingResponse 0x03 0 0x01 16 0x01 0x01)
  | .smConfirm => smPacket self (.smConfirm self.confirm)
  | .smRandom => smPacket self (.smRandom self.random)
  | .smFailed => smPacket self (.smFailed 0x08)
  | .smEncryptionInformation => smPacket self (.smEncryptionInformation self.connLtkEncInf)
  | .smCentralIdentification => smPacket self (.smMasterIdentification self.ediv self.rand)
  | .smIdentityInformation => smPacket self (.smIdentityInformation self.irk)
  | .smIdentityAddressInformation => smPacket self (.smIdentityAddressInformation self.atype)
  | .smSigningInformation => smPacket self (.smSigningInformation self.csrk)
  | .smPublicKey => smPacket self (.smPublicKey self.keyX self.keyY)
  | .smDhkeyCheck => smPacket self (.smDHKeyCheck self.dhkeyCheck)
  | .attErrorRsp => attPacket self (.attErrorResponse none none none)
  | .attExchangeMtuReq => attPacket self (.attExchangeMtuRequest 247)
  | .attExchangeMtuRsp => attPacket self (.attExchangeMtuResponse 247)
  | .attReadByTypeReq => attPacket self (.attReadByTypeRequest 0x0001 0xffff 0x2800)
  | .attReadByTypeRsp => attPacket self (.attReadByTypeResponse none none)
  | .attReadByGroupTypeReq => attPacket self (.attReadByGroupTypeRequest 0x0001 0xffff 0x2800)
  | .attReadByGroupTypeRsp => attPacket self .attReadByGroupTypeResponse
  | .attReadReq => attPacket self (.attReadRequest 0x12)
  | .attReadRsp => attPacket self (.attReadResponse "0")

end BleFuzzer.Mapper

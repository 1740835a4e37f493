import BleFuzzer.Link.Authenticity

/-!
# Which packets the two programs encrypt

Four guards, written separately, decide whether a packet is encrypted: those of `send` and
`recv_packet` for one direction, and those of `ble_phy_tx` and `receive` for the other. The nonce of
a packet is its number, so one disagreement leaves the two ends with different counters.

The controller's link layer is not part of the driver. It sets `enc_counter` before each packet;
that it counts the packets which the driver decrypts and encrypts is the hypothesis
`PacketCounters.Counts`.
-/

namespace BleFuzzer.Link

open Bridge Driver Mapper

/-! ## The link layer -/

/-- The controller's link layer, with states `ν`: the counters that it gives to
`ble_phy_encrypt_counter_set`, and what it does after a packet of each direction, which the driver
has decrypted or encrypted, or has not. -/
structure PacketCounters (ν : Type) where
  rxCount : ν → ℕ
  txCount : ν → ℕ
  received : ν → Bool → ν
  sent : ν → Bool → ν

/-- The link layer counts the packets decrypted and the packets encrypted, each for itself. -/
structure PacketCounters.Counts {ν : Type} (ll : PacketCounters ν) : Prop where
  rxCount_received : ∀ s decrypted,
    ll.rxCount (ll.received s decrypted) = ll.rxCount s + decrypted.toNat
  txCount_received : ∀ s decrypted, ll.txCount (ll.received s decrypted) = ll.txCount s
  rxCount_sent : ∀ s encrypted, ll.rxCount (ll.sent s encrypted) = ll.rxCount s
  txCount_sent : ∀ s encrypted, ll.txCount (ll.sent s encrypted) = ll.txCount s + encrypted.toNat

/-- A link layer that is its two counters. -/
def plainCounters : PacketCounters (ℕ × ℕ) where
  rxCount := Prod.fst
  txCount := Prod.snd
  received s decrypted := (s.1 + decrypted.toNat, s.2)
  sent s encrypted := (s.1, s.2 + encrypted.toNat)

/-- Counting every packet does what is asked of a link layer. -/
theorem plainCounters_counts : plainCounters.Counts := by
  constructor <;> intros <;> rfl

variable {ν τ : Type} (lib : Lib τ) (ll : PacketCounters ν)

/-! ## Packets between the ends -/

/-- What the programs rely on when Scapy dissects a packet of `ble_phy_tx`. -/
structure Dissects (scapy : Scapy) : Prop where
  raw_btle : ∀ aa hdrByte payload, payload.length < 256 →
    scapy.raw (scapy.btle (btlePacket aa hdrByte payload)) = btlePacket aa hdrByte payload
  accessAddr : ∀ aa hdrByte payload, payload.length < 256 →
    (scapy.btle (btlePacket aa hdrByte payload)).accessAddr = some aa
  hasBtleAdv : ∀ aa hdrByte payload, payload.length < 256 →
    (scapy.btle (btlePacket aa hdrByte payload)).hasBtleAdv = decide (aa.toNat = advAccessAddress)

/-- A link-layer packet on its way. -/
inductive LinkPkt
  /-- The mapper sends a packet. -/
  | toBridge (pkt : Pkt)
  /-- The link layer hands a header byte and a payload to `ble_phy_tx`. -/
  | toHost (hdrByte : UInt8) (payload : Bytes)

/-- What comes out of a packet at the other end. -/
inductive Arrival
  /-- `recv_packet` has `crypto_ok` and `rx_buf`. -/
  | atBridge (cryptoOk : Bool) (rxBuf : Bytes)
  /-- `receive` appends a packet. -/
  | atHost (pkt : Pkt)
  | lost

/-- A packet built by Scapy: its length byte counts its payload, and it fits `rx_buf` with the tag
that a data packet may get. -/
structure WellFormed (scapy : Scapy) (pkt : Pkt) : Prop where
  length : 9 ≤ (scapy.raw pkt).length
  lengthByte : ((scapy.raw pkt).getD 5 0).toNat = (payloadOf (scapy.raw pkt)).length
  fits : (payloadOf (scapy.raw pkt)).length + (if pkt.hasBtleData then 10 else 6) ≤ rxBufSize

def LinkPkt.WellFormed (scapy : Scapy) : LinkPkt → Prop
  | .toBridge pkt => Link.WellFormed scapy pkt
  | .toHost _ payload => payload.length ≤ 251

/-- The packets that both programs treat alike: not the empty data packets, and not the advertising
packets with a payload of five bytes or more. -/
def Unambiguous (scapy : Scapy) (pkt : Pkt) : Prop :=
  if pkt.hasBtleData then payloadOf (scapy.raw pkt) ≠ [] else (payloadOf (scapy.raw pkt)).length < 5

def LinkPkt.Unambiguous (scapy : Scapy) : LinkPkt → Prop
  | .toBridge pkt => Link.Unambiguous scapy pkt
  | .toHost _ _ => True

/-- The packet in the last frame of the log, without command, length and checksum. -/
def sentPacket (log : List Event) : Bytes :=
  match log.getLast? with
  | some (.tx frame) => (frame.drop 3).dropLast
  | _ => []

/-- `send` encrypts the packet and advances its counter. -/
def SendEncrypts (w : World τ) (pkt : Pkt) : Prop :=
  ((send lib pkt).final w).self.encTxPktCount = w.self.encTxPktCount + 1

/-- `receive` decrypts the packet and advances its counter. -/
def ReceiveDecrypts (w : World τ) (data : Bytes) : Prop :=
  ((acceptData lib data).final w).self.encRxPktCount = w.self.encRxPktCount + 1

/-! ## The two ends -/

/-- Both programs, and the link layer. -/
structure Ends (ν τ : Type) where
  world : World τ
  phy : Phy
  link : ν

/-- One packet from end to end. The serial channel delivers the frames unchanged, so its buffers are
left out. -/
def carry (e : Ends ν τ) : LinkPkt → Ends ν τ × Arrival
  | .toBridge pkt =>
    let w := (send lib pkt).final e.world
    match (send lib pkt).result e.world with
    | .error _ => ({ e with world := w }, .lost)
    | .ok () =>
      let phy := blePhyEncryptCounterSet e.phy (UInt64.ofNat (ll.rxCount e.link))
      let frame := sentPacket w.log
      let crypto := recvPacketDecrypt lib.ccm phy frame
      ({ e with
          world := w
          phy := (recvPacketBegin lib.ccm phy frame).2
          link := ll.received e.link (decide (recvPacketDecrypts phy frame)) },
        .atBridge crypto.1 crypto.2)
  | .toHost hdrByte payload =>
    let phy := blePhyEncryptCounterSet e.phy (UInt64.ofNat (ll.txCount e.link))
    let data := blePhyTxPacket lib.ccm phy hdrByte payload
    ({ e with
        world := (acceptData lib data).final e.world
        phy := blePhyTxFlags phy hdrByte payload
        link := ll.sent e.link (decide (blePhyTxEncrypts phy payload)) },
      match (acceptData lib data).result e.world with
      | .ok (some pkt) => .atHost pkt
      | _ => .lost)

/-- Packets one after the other. -/
def carryAll (e : Ends ν τ) : List LinkPkt → Ends ν τ × List Arrival
  | [] => (e, [])
  | p :: ps =>
    let first := carry lib ll e p
    let rest := carryAll first.1 ps
    (rest.1, first.2 :: rest.2)

/-- The arrival of a packet as it was sent, with the access address of the bridge. -/
def LinkPkt.arrival (scapy : Scapy) (aa : UInt32) : LinkPkt → Arrival
  | .toBridge pkt => .atBridge true (cutCrc (scapy.raw pkt))
  | .toHost hdrByte payload => .atHost (fixPacket (scapy.btle (btlePacket aa hdrByte payload)))

/-- The ends of an encrypted connection with the same counters. -/
structure InStep (e : Ends ν τ) : Prop where
  sameKey : SameKey e.world.self e.phy
  serialOpen : e.world.self.driver.serialOpen = true
  address : e.world.self.accessAddress = some e.phy.phyAccessAddress
  notAdv : e.phy.phyAccessAddress.toNat ≠ advAccessAddress
  txCount : e.world.self.encTxPktCount = ll.rxCount e.link
  rxCount : e.world.self.encRxPktCount = ll.txCount e.link

/-! ## Single packets -/

/-- What was sent last can be read off the log. -/
theorem sentPacket_dataFrame (log : List Event) (rawPkt : Bytes) :
    sentPacket (log ++ [.tx (dataFrame rawPkt)]) = rawPkt := by
  rw [sentPacket, List.getLast?_concat]
  show (rawPkt ++ [UInt8.ofNat (byteSum rawPkt &&& 0xFF)]).dropLast = rawPkt
  exact List.dropLast_concat

/-- The layout of a well-formed packet. -/
theorem WellFormed.exists_layout {scapy : Scapy} {pkt : Pkt} (h : WellFormed scapy pkt) :
    ∃ aa hdrByte payload crc,
      scapy.raw pkt = airPacket aa hdrByte (UInt8.ofNat payload.length) payload ++ crc ∧
      crc.length = 3 ∧ cutCrc (scapy.raw pkt) =
        airPacket aa hdrByte (UInt8.ofNat payload.length) payload ∧
      payloadOf (scapy.raw pkt) = payload := by
  have hlen := h.length
  have hcut : (cutCrc (scapy.raw pkt)).length = (scapy.raw pkt).length - 3 := by
    rw [cutCrc, List.length_take]
    omega
  obtain ⟨aa, hdrByte, length, payload, hlayout⟩ := exists_airPacket (cutCrc (scapy.raw pkt))
    (by omega)
  have hpayload : payloadOf (scapy.raw pkt) = payload := by
    show (cutCrc (scapy.raw pkt)).drop 6 = payload
    rw [hlayout, airPacket_drop_six]
  have hsplit : scapy.raw pkt = airPacket aa hdrByte length payload ++
      (scapy.raw pkt).drop ((scapy.raw pkt).length - 3) := by
    rw [← hlayout, cutCrc, List.take_append_drop]
  have hlength : length = UInt8.ofNat payload.length := by
    have hbyte := h.lengthByte
    rw [hpayload, hsplit, airPacket_append, airPacket_getD_five] at hbyte
    rw [← hbyte, UInt8.ofNat_toNat]
  subst hlength
  exact ⟨aa, hdrByte, payload, _, hsplit, by rw [List.length_drop]; omega, hlayout, hpayload⟩

/-- What an end needs for encrypting and sending. -/
structure ReadyToSend (w : World τ) : Prop where
  encrypted : w.self.encrypted = true
  hasKey : w.self.HasKey
  txCount_lt : w.self.encTxPktCount < 2 ^ 64
  serialOpen : w.self.driver.serialOpen = true

variable {w : World τ} {phy : Phy} {pkt : Pkt}

/-- **Host to bridge.** `send` encrypts every data packet and no other. `recv_packet` decrypts the
data packets that are not empty, and the advertising packets with a payload of five bytes or more.
-/
theorem send_recvPacket_decrypts (hready : ReadyToSend w) (henc : phy.encEnabled = true)
    (hwf : WellFormed lib.scapy pkt) :
    (SendEncrypts lib w pkt ↔ pkt.hasBtleData = true) ∧
      (recvPacketDecrypts phy (sentPacket ((send lib pkt).final w).log) ↔
        if pkt.hasBtleData then payloadOf (lib.scapy.raw pkt) ≠ []
        else 5 ≤ (payloadOf (lib.scapy.raw pkt)).length) := by
  obtain ⟨aa, hdrByte, payload, crc, hraw, hcrc, hcut, hpayload⟩ := hwf.exists_layout
  have hfits := hwf.fits
  rw [hpayload, rxBufSize] at hfits
  cases hdata : pkt.hasBtleData with
  | true =>
    rw [hdata, if_pos rfl] at hfits
    have hlength : (UInt8.ofNat payload.length).toNat = payload.length :=
      UInt8.toNat_ofNat_of_lt' (show _ < 256 by omega)
    have hsend := send_dataPacket lib hready.encrypted hready.hasKey hready.txCount_lt
      hready.serialOpen hdata aa hdrByte (UInt8.ofNat payload.length) payload crc (by omega) hcrc hraw
    refine ⟨iff_of_true (by rw [SendEncrypts, hsend.2]) rfl, ?_⟩
    -- an encrypted frame is as long as its payload and the tag
    have hpos : 0 < UInt8.ofNat payload.length + 4 := by
      rw [UInt8.lt_iff_toNat_lt, UInt8.toNat_add, hlength, show (4 : UInt8).toNat = 4 from rfl,
        show (0 : UInt8).toNat = 0 from rfl]
      omega
    rw [hsend.2, sentPacket_dataFrame, recvPacketDecrypts_airPacket,
      lib.ccm.encryptTagged_length _ hready.hasKey.key_length
        (Blesul.txNonce_length hready.hasKey), hpayload, if_pos rfl, ← List.length_pos_iff]
    constructor
    · rintro ⟨-, hlong, -⟩
      omega
    · intro hne
      exact ⟨henc, by omega, hpos⟩
  | false =>
    rw [hdata, if_neg Bool.false_ne_true] at hfits
    have hlength : (UInt8.ofNat payload.length).toNat = payload.length :=
      UInt8.toNat_ofNat_of_lt' (show _ < 256 by omega)
    obtain ⟨driver, -, hsend⟩ := send_plain lib (by rw [hdata, Bool.and_false]) hready.serialOpen
    -- without a data layer nothing is encrypted, and `recv_packet` looks at the length alone
    have hkeep : ¬ SendEncrypts lib w pkt := by
      rw [SendEncrypts, hsend.2]
      exact Nat.ne_of_lt (Nat.lt_succ_self _)
    refine ⟨iff_of_false hkeep Bool.false_ne_true, ?_⟩
    rw [hsend.2, sentPacket_dataFrame, hcut, recvPacketDecrypts_airPacket, hpayload,
      if_neg Bool.false_ne_true]
    constructor
    · rintro ⟨-, hlong, -⟩
      omega
    · intro hlong
      refine ⟨henc, by omega, ?_⟩
      rw [UInt8.lt_iff_toNat_lt, hlength]
      exact Nat.lt_of_lt_of_le (by decide) hlong

/-- What an end needs for receiving the packets of a connection. -/
structure ReadyToReceive (w : World τ) (aa : UInt32) : Prop where
  encrypted : w.self.encrypted = true
  hasKey : w.self.HasKey
  rxCount_lt : w.self.encRxPktCount < 2 ^ 64
  address : w.self.accessAddress = some aa
  notAdv : aa.toNat ≠ advAccessAddress

variable {aa : UInt32} {hdrByte : UInt8} {payload : Bytes}

/-- A packet of the connection is one of ours. -/
theorem ReadyToReceive.isTarget (h : ReadyToReceive w aa) (hscapy : Dissects lib.scapy)
    (hlen : payload.length < 256) :
    (lib.scapy.btle (btlePacket aa hdrByte payload)).hasBtleAdv = false ∧
      isTarget w.self (lib.scapy.btle (btlePacket aa hdrByte payload)) = true := by
  have hadv := hscapy.hasBtleAdv aa hdrByte payload hlen
  rw [decide_eq_false h.notAdv] at hadv
  refine ⟨hadv, ?_⟩
  rw [Mapper.isTarget, hadv, hscapy.accessAddr aa hdrByte payload hlen, h.address]
  simp

/-- `receive` goes on with an empty packet as it is. -/
theorem acceptData_empty (hscapy : Dissects lib.scapy) (hready : ReadyToReceive w aa) :
    (acceptData lib (btlePacket aa hdrByte [])).Returns w
      (some (fixPacket (lib.scapy.btle (btlePacket aa hdrByte [])))) w := by
  obtain ⟨hadv, htarget⟩ := @hready.isTarget _ lib _ _ hdrByte [] hscapy
    (by decide)
  refine acceptData_returns lib htarget hadv (decrypt_short lib ?_)
  rw [hscapy.raw_btle _ _ _ (by decide)]
  exact decryptPkt_short lib w.self aa hdrByte 0 [0, 0, 0] (by decide)

/-- `receive` counts every packet it decrypts. -/
theorem acceptData_decrypted (hscapy : Dissects lib.scapy) (hready : ReadyToReceive w aa)
    (hlen : payload.length < 256) {bytes : Bytes} {isBroken : Bool}
    (hopen : decryptPkt lib w.self (btlePacket aa hdrByte payload) = .ok (some (bytes, isBroken))) :
    (acceptData lib (btlePacket aa hdrByte payload)).Returns w
      (if isBroken then none else some (fixPacket (lib.scapy.btle bytes)))
      { w with
        self := { w.self with encRxPktCount := w.self.encRxPktCount + 1 }
        log := w.log ++ [.decrypt] } := by
  obtain ⟨hadv, htarget⟩ := @hready.isTarget _ lib _ _ hdrByte _ hscapy hlen
  refine acceptData_returns lib htarget hadv (decrypt_long lib hready.encrypted ?_)
  rwa [hscapy.raw_btle _ _ _ hlen]

/-- An empty payload is not encrypted. -/
theorem blePhyTxPacket_empty (phy : Phy) (hdrByte : UInt8) :
    ¬ blePhyTxEncrypts phy [] ∧
      blePhyTxPacket lib.ccm phy hdrByte [] = btlePacket phy.phyAccessAddress hdrByte [] := by
  have hguard : ¬ blePhyTxEncrypts phy [] := fun h => Nat.lt_irrefl 0 h.2
  exact ⟨hguard, by rw [blePhyTxPacket, blePhyTxPayload, if_neg hguard]⟩

/-- **Bridge to host.** `receive` decrypts exactly the packets that `ble_phy_tx` encrypts. -/
theorem blePhyTx_receive_decrypts (hscapy : Dissects lib.scapy) (harrays : PhyArrays phy)
    (henc : phy.encEnabled = true) (hready : ReadyToReceive w phy.phyAccessAddress)
    (hlen : payload.length ≤ 251) :
    blePhyTxEncrypts phy payload ↔
      ReceiveDecrypts lib w (blePhyTxPacket lib.ccm phy hdrByte payload) := by
  have hnonce := txNonce_length harrays.iv_length
  by_cases hne : payload = []
  · subst hne
    obtain ⟨hguard, hpacket⟩ := blePhyTxPacket_empty lib phy hdrByte
    refine iff_of_false hguard ?_
    rw [hpacket, ReceiveDecrypts, (acceptData_empty lib hscapy hready).2]
    exact Nat.ne_of_lt (Nat.lt_succ_self _)
  · have hpos := List.length_pos_of_ne_nil hne
    have hcipher := lib.ccm.encrypt_length phy.encKey phy.txNonce [hdrByte &&& 0xE3] payload
      harrays.key_length hnonce
    have htag := lib.ccm.tag_length phy.encKey phy.txNonce [hdrByte &&& 0xE3] payload
      harrays.key_length hnonce
    have htagged := lib.ccm.encryptTagged_length [hdrByte &&& 0xE3] harrays.key_length hnonce payload
    have hlength : (UInt8.ofNat (lib.ccm.encryptTagged phy.encKey phy.txNonce [hdrByte &&& 0xE3]
        payload).length).toNat =
        (lib.ccm.encrypt phy.encKey phy.txNonce [hdrByte &&& 0xE3] payload).length + 4 := by
      rw [htagged, hcipher, UInt8.toNat_ofNat_of_lt' (show _ < 256 by omega)]
    -- the tag makes the length byte at least five
    have hopen := decryptPkt_eq lib hready.hasKey hready.rxCount_lt phy.phyAccessAddress hdrByte _
      _ _ [0, 0, 0] hlength (List.ne_nil_of_length_pos (by omega)) htag rfl
    refine iff_of_true ⟨henc, hpos⟩ ?_
    rw [blePhyTxPacket, blePhyTxPayload, if_pos ⟨henc, hpos⟩, ReceiveDecrypts,
      (acceptData_decrypted lib hscapy hready (by omega) hopen).2]

/-! ## Sequences of packets -/

/-- The counters leave room for `n` more packets in each direction. -/
structure Room (e : Ends ν τ) (n : ℕ) : Prop where
  rx : ll.rxCount e.link + n ≤ 2 ^ 64
  tx : ll.txCount e.link + n ≤ 2 ^ 64

/-- A packet arrives as it was sent, and the ends are in step again. -/
structure Carried (e e' : Ends ν τ) (n : ℕ) : Prop where
  inStep : InStep ll e'
  room : Room ll e' n
  address : e'.phy.phyAccessAddress = e.phy.phyAccessAddress

variable {ll} in
/-- The ends stay in step when both counters of a direction are advanced, or neither. -/
theorem Carried.of_counts {e e' : Ends ν τ} {n : ℕ} (h : InStep ll e) (hroom : Room ll e (n + 1))
    (hsame : SameKey e'.world.self e'.phy) (hopen : e'.world.self.driver.serialOpen = true)
    (hself : e'.world.self.accessAddress = e.world.self.accessAddress)
    (hphy : e'.phy.phyAccessAddress = e.phy.phyAccessAddress) (down up : Bool)
    (hencTx : e'.world.self.encTxPktCount = e.world.self.encTxPktCount + down.toNat)
    (hencRx : e'.world.self.encRxPktCount = e.world.self.encRxPktCount + up.toNat)
    (hrx : ll.rxCount e'.link = ll.rxCount e.link + down.toNat)
    (htx : ll.txCount e'.link = ll.txCount e.link + up.toNat) : Carried ll e e' n := by
  have hdown := down.toNat_le
  have hup := up.toNat_le
  have hroomRx := hroom.rx
  have hroomTx := hroom.tx
  refine ⟨⟨hsame, hopen, ?_, ?_, ?_, ?_⟩, ⟨by omega, by omega⟩, hphy⟩
  · rw [hself, hphy, h.address]
  · rw [hphy]
    exact h.notAdv
  · rw [hencTx, hrx, h.txCount]
  · rw [hencRx, htx, h.rxCount]

/-- The bridge with `enc_counter` set for the next packet from the mapper, or for the next one to
it. -/
def Ends.rxPhy (e : Ends ν τ) : Phy :=
  blePhyEncryptCounterSet e.phy (UInt64.ofNat (ll.rxCount e.link))

def Ends.txPhy (e : Ends ν τ) : Phy :=
  blePhyEncryptCounterSet e.phy (UInt64.ofNat (ll.txCount e.link))

/-- Whatever keeps the encryption settings of both ends keeps the common key. -/
theorem SameKey.transfer {self self' : Blesul} {phy' : Phy} (h : SameKey self phy)
    (hself : (self'.encrypted, self'.connSessionKey, self'.connIv) =
      (self.encrypted, self.connSessionKey, self.connIv))
    (hphy : (phy'.encEnabled, phy'.encKey, phy'.encIv) = (phy.encEnabled, phy.encKey, phy.encIv)) :
    SameKey self' phy' := by
  simp only [Prod.mk.injEq] at hself hphy
  obtain ⟨hencrypted, hkey, hiv⟩ := hself
  obtain ⟨henabled, hkey', hiv'⟩ := hphy
  refine ⟨hencrypted.trans h.encrypted, henabled.trans h.encEnabled, ?_, ?_, ⟨?_, ?_⟩⟩
  · rw [hkey', hkey, h.key]
  · rw [hiv', hiv, h.iv]
  · rw [hkey, h.hasKey.key_length]
  · rw [hiv, h.hasKey.iv_length]

/-- The flags of a transmission are no encryption settings. -/
theorem blePhyTxFlags_settings (phy : Phy) (hdrByte : UInt8) (payload : Bytes) :
    ((blePhyTxFlags phy hdrByte payload).encEnabled, (blePhyTxFlags phy hdrByte payload).encKey,
        (blePhyTxFlags phy hdrByte payload).encIv) = (phy.encEnabled, phy.encKey, phy.encIv) ∧
      (blePhyTxFlags phy hdrByte payload).phyAccessAddress = phy.phyAccessAddress := by
  rw [blePhyTxFlags, blePhyTxSeqNum]
  split <;> split <;> exact ⟨rfl, rfl⟩

/-- A packet of the mapper is carried to the bridge if `send` returns. -/
theorem carry_of_send {e : Ends ν τ} {w' : World τ} (h : (send lib pkt).Returns e.world () w') :
    carry lib ll e (.toBridge pkt) =
      ({ e with
          world := w'
          phy := (recvPacketBegin lib.ccm (e.rxPhy ll) (sentPacket w'.log)).2
          link :=
            ll.received e.link (decide (recvPacketDecrypts (e.rxPhy ll) (sentPacket w'.log))) },
        .atBridge (recvPacketDecrypt lib.ccm (e.rxPhy ll) (sentPacket w'.log)).1
          (recvPacketDecrypt lib.ccm (e.rxPhy ll) (sentPacket w'.log)).2) := by
  rw [carry]
  simp only [h.1, h.2]
  rfl

/-- **One packet from the mapper.** -/
theorem carry_toBridge (hll : ll.Counts) {e : Ends ν τ} {n : ℕ} (h : InStep ll e)
    (hroom : Room ll e (n + 1)) (hwf : WellFormed lib.scapy pkt) (hkind : Unambiguous lib.scapy pkt) :
    (carry lib ll e (.toBridge pkt)).2 =
        (LinkPkt.toBridge pkt).arrival lib.scapy e.phy.phyAccessAddress ∧
      Carried ll e (carry lib ll e (.toBridge pkt)).1 n := by
  have hrx := hroom.rx
  have htx := hroom.tx
  have hready : ReadyToSend e.world :=
    ⟨h.sameKey.encrypted, h.sameKey.hasKey, by rw [h.txCount]; omega, h.serialOpen⟩
  have hsame : SameKey e.world.self (e.rxPhy ll) := h.sameKey.transfer rfl rfl
  -- the link layer hands over the counter of the mapper
  have hcount : (e.rxPhy ll).encCounter.toNat = e.world.self.encTxPktCount :=
    (UInt64.toNat_ofNat_of_lt' (show _ < 2 ^ 64 by omega)).trans h.txCount.symm
  have hguard := (send_recvPacket_decrypts lib hready hsame.encEnabled hwf).2
  obtain ⟨aa, hdrByte, payload, crc, hraw, hcrc, hcut, hpayload⟩ := hwf.exists_layout
  have hfits := hwf.fits
  rw [hpayload, rxBufSize] at hfits
  rw [Unambiguous, hpayload] at hkind
  rw [hpayload] at hguard
  cases hdata : pkt.hasBtleData with
  | true =>
    rw [hdata, if_pos rfl] at hfits hkind hguard
    have hpos := List.length_pos_of_ne_nil hkind
    have hlength : (UInt8.ofNat payload.length).toNat < 252 := by
      rw [UInt8.toNat_ofNat_of_lt' (show _ < 256 by omega)]
      omega
    have hsend := send_dataPacket lib hready.encrypted hready.hasKey hready.txCount_lt
      hready.serialOpen hdata aa hdrByte (UInt8.ofNat payload.length) payload crc hlength hcrc hraw
    rw [hsend.2] at hguard
    rw [carry_of_send lib ll hsend, decide_eq_true (hguard.mpr hkind), sentPacket_dataFrame,
      recvPacketDecrypt_encryptTagged lib hsame hcount _ _ _ _ hkind hlength]
    refine ⟨by rw [LinkPkt.arrival, hcut], ?_⟩
    exact .of_counts h hroom (h.sameKey.transfer rfl rfl) h.serialOpen rfl rfl true false rfl rfl
      (hll.rxCount_received _ _) (hll.txCount_received _ _)
  | false =>
    rw [hdata, if_neg Bool.false_ne_true] at hkind hguard
    obtain ⟨driver, hopen, hsend⟩ := send_plain lib (by rw [hdata, Bool.and_false]) h.serialOpen
    rw [hsend.2] at hguard
    -- an advertising packet with a longer payload would be decrypted; it is excluded as ambiguous
    have hplain := fun hdec => Nat.not_le.mpr hkind (hguard.mp hdec)
    rw [carry_of_send lib ll hsend, decide_eq_false hplain, recvPacketDecrypt_plain lib.ccm hplain,
      sentPacket_dataFrame]
    refine ⟨rfl, ?_⟩
    exact .of_counts h hroom (h.sameKey.transfer rfl rfl) hopen rfl rfl false false rfl rfl
      (hll.rxCount_received _ _) (hll.txCount_received _ _)

/-- A packet of the bridge is carried to the mapper if `receive` accepts it. -/
theorem carry_of_accept {e : Ends ν τ} {w' : World τ} {pkt : Pkt}
    (h : (acceptData lib (blePhyTxPacket lib.ccm (e.txPhy ll) hdrByte payload)).Returns e.world
      (some pkt) w') :
    carry lib ll e (.toHost hdrByte payload) =
      ({ e with
          world := w'
          phy := blePhyTxFlags (e.txPhy ll) hdrByte payload
          link := ll.sent e.link (decide (blePhyTxEncrypts (e.txPhy ll) payload)) },
        .atHost pkt) := by
  rw [carry]
  rw [show blePhyEncryptCounterSet e.phy (UInt64.ofNat (ll.txCount e.link)) = (e.txPhy ll) from rfl]
  simp only [h.1, h.2]

/-- **One packet from the link layer.** -/
theorem carry_toHost (hscapy : Dissects lib.scapy) (hll : ll.Counts) {e : Ends ν τ} {n : ℕ}
    (h : InStep ll e) (hroom : Room ll e (n + 1)) (hlen : payload.length ≤ 251) :
    (carry lib ll e (.toHost hdrByte payload)).2 =
        (LinkPkt.toHost hdrByte payload).arrival lib.scapy e.phy.phyAccessAddress ∧
      Carried ll e (carry lib ll e (.toHost hdrByte payload)).1 n := by
  have hrx := hroom.rx
  have htx := hroom.tx
  have hsame : SameKey e.world.self (e.txPhy ll) := h.sameKey.transfer rfl rfl
  have hcount : (e.txPhy ll).encCounter.toNat = e.world.self.encRxPktCount :=
    (UInt64.toNat_ofNat_of_lt' (show _ < 2 ^ 64 by omega)).trans h.rxCount.symm
  have hready : ReadyToReceive e.world (e.txPhy ll).phyAccessAddress :=
    ⟨hsame.encrypted, hsame.hasKey, by rw [h.rxCount]; omega, h.address, h.notAdv⟩
  obtain ⟨hflags, haddr⟩ := blePhyTxFlags_settings (e.txPhy ll) hdrByte payload
  by_cases hne : payload = []
  · subst hne
    obtain ⟨hguard, hpacket⟩ := blePhyTxPacket_empty lib (e.txPhy ll) hdrByte
    have haccept : (acceptData lib (blePhyTxPacket lib.ccm (e.txPhy ll) hdrByte [])).Returns e.world
        (some (fixPacket (lib.scapy.btle (btlePacket e.phy.phyAccessAddress hdrByte [])))) e.world := by
      rw [hpacket]
      exact acceptData_empty lib hscapy hready
    rw [carry_of_accept lib ll haccept, decide_eq_false hguard]
    refine ⟨rfl, ?_⟩
    exact .of_counts h hroom (h.sameKey.transfer rfl hflags) h.serialOpen rfl haddr false false rfl rfl
      (hll.rxCount_sent _ _) (hll.txCount_sent _ _)
  · have hpos := List.length_pos_of_ne_nil hne
    have hguard : blePhyTxEncrypts (e.txPhy ll) payload := ⟨hsame.encEnabled, hpos⟩
    have hopen := decryptPkt_blePhyTxPacket lib hsame hcount hdrByte payload hne hlen
    have hlong : (blePhyTxPayload lib.ccm (e.txPhy ll) hdrByte payload).length < 256 := by
      rw [blePhyTxPayload, if_pos hguard, hsame.key, hsame.rxNonce_eq hcount,
        lib.ccm.encryptTagged_length _ hsame.hasKey.key_length (Blesul.rxNonce_length hsame.hasKey)]
      omega
    rw [carry_of_accept lib ll (acceptData_decrypted lib hscapy hready hlong hopen),
      decide_eq_true hguard]
    refine ⟨rfl, ?_⟩
    exact .of_counts h hroom (h.sameKey.transfer rfl hflags) h.serialOpen rfl haddr false true rfl rfl
      (hll.rxCount_sent _ _) (hll.txCount_sent _ _)

/-- **Packets in both directions.** As long as no packet is ambiguous, the counters of the two ends
stay equal and every packet arrives as it was sent. -/
theorem carryAll_inStep (hscapy : Dissects lib.scapy) (hll : ll.Counts) {e : Ends ν τ}
    {packets : List LinkPkt} (h : InStep ll e) (hroom : Room ll e packets.length)
    (hwf : ∀ p ∈ packets, p.WellFormed lib.scapy) (hkind : ∀ p ∈ packets, p.Unambiguous lib.scapy) :
    (carryAll lib ll e packets).2 = packets.map (·.arrival lib.scapy e.phy.phyAccessAddress) ∧
      InStep ll (carryAll lib ll e packets).1 := by
  induction packets generalizing e with
  | nil => exact ⟨rfl, h⟩
  | cons p packets ih =>
    have hstep : (carry lib ll e p).2 = p.arrival lib.scapy e.phy.phyAccessAddress ∧
        Carried ll e (carry lib ll e p).1 packets.length := by
      cases p with
      | toBridge pkt =>
        exact carry_toBridge lib ll hll h hroom (hwf _ List.mem_cons_self) (hkind _ List.mem_cons_self)
      | toHost hdrByte payload =>
        exact carry_toHost lib ll hscapy hll h hroom (hwf _ List.mem_cons_self)
    obtain ⟨harrival, hcarried⟩ := hstep
    obtain ⟨harrivals, hlast⟩ := ih hcarried.inStep hcarried.room
      (fun q hq => hwf q (List.mem_cons_of_mem p hq))
      (fun q hq => hkind q (List.mem_cons_of_mem p hq))
    rw [hcarried.address] at harrivals
    refine ⟨?_, hlast⟩
    rw [carryAll, List.map_cons, harrival, harrivals]

/-- **When mapper and bridge agree.** For a packet of the mapper, they agree exactly when it is
neither an empty data packet nor an advertising packet with a payload of five bytes or more. For a
packet of the bridge they always agree. While all packets are of that kind, the counters stay equal
and every packet arrives as it was sent. -/
theorem encryption_agreement (hscapy : Dissects lib.scapy) (hll : ll.Counts) :
    (∀ (w : World τ) phy pkt, ReadyToSend w → phy.encEnabled = true → WellFormed lib.scapy pkt →
      ((SendEncrypts lib w pkt ↔
          recvPacketDecrypts phy (sentPacket ((send lib pkt).final w).log)) ↔
        Unambiguous lib.scapy pkt)) ∧
    (∀ (w : World τ) phy hdrByte payload, PhyArrays phy → phy.encEnabled = true →
      ReadyToReceive w phy.phyAccessAddress → payload.length ≤ 251 →
      (blePhyTxEncrypts phy payload ↔
        ReceiveDecrypts lib w (blePhyTxPacket lib.ccm phy hdrByte payload))) ∧
    (∀ (e : Ends ν τ) packets, InStep ll e → Room ll e packets.length →
      (∀ p ∈ packets, p.WellFormed lib.scapy) → (∀ p ∈ packets, p.Unambiguous lib.scapy) →
      (carryAll lib ll e packets).2 = packets.map (·.arrival lib.scapy e.phy.phyAccessAddress) ∧
        InStep ll (carryAll lib ll e packets).1) := by
  refine ⟨fun w phy pkt hready henc hwf => ?_, fun w phy hdrByte payload harrays henc hready hlen =>
    blePhyTx_receive_decrypts lib hscapy harrays henc hready hlen,
    fun e packets h hroom hwf hkind => carryAll_inStep lib ll hscapy hll h hroom hwf hkind⟩
  obtain ⟨hsend, hrecv⟩ := send_recvPacket_decrypts lib hready henc hwf
  rw [hsend, hrecv, Unambiguous]
  cases pkt.hasBtleData with
  | true => simp
  | false =>
    simp only [Bool.false_eq_true, if_false, false_iff]
    exact Nat.not_le

/-- `rawScapy` tells the layers of a packet from its bytes. -/
theorem dissects_rawScapy : Dissects rawScapy where
  raw_btle _ _ _ _ := rawScapy_raw_btle _
  accessAddr aa hdrByte payload _ := by
    show some (UInt32.ofNat (leValue (leBytes 4 aa.toNat))) = some aa
    rw [leValue_leBytes_of_lt (show aa.toNat < 256 ^ 4 from aa.toNat_lt),
      UInt32.ofNat_toNat]
  hasBtleAdv aa hdrByte payload _ := by
    have hkind : (rawScapy.btle (btlePacket aa hdrByte payload)).hasBtleAdv =
        isAdvChanPkt (btlePacket aa hdrByte payload) := by
      cases hadv : isAdvChanPkt (btlePacket aa hdrByte payload) <;>
        simp [rawScapy, hadv, Pkt.hasBtleAdv]
    rw [hkind, btlePacket_eq, airPacket_append, isAdvChanPkt_airPacket]

/-- Both ends of a connection on data channel 0, with an all-zero key and IV. -/
def zeroKeyEnds : Ends (ℕ × ℕ) Unit := ⟨zeroKeyWorld, zeroKeyPhy, (0, 0)⟩

/-- A packet each way. -/
theorem encryption_agreement_two :
    (carryAll (plainLib rawScapy) plainCounters zeroKeyEnds
      [.toBridge (rawScapy.btle (btlePacket 7 2 [5])), .toHost 2 [9]]).2 =
    [.atBridge true (airPacket 7 2 1 [5]),
      .atHost (fixPacket (rawScapy.btle (btlePacket 7 2 [9])))] := by
  have h := encryption_agreement (plainLib rawScapy) plainCounters dissects_rawScapy
    plainCounters_counts
  have hinStep : InStep plainCounters zeroKeyEnds :=
    ⟨sameKey_zeroKey.transfer rfl rfl, rfl, rfl, by decide, rfl, rfl⟩
  have hwf : WellFormed rawScapy (rawScapy.btle (btlePacket 7 2 [5])) :=
    ⟨by decide, by decide, by decide⟩
  have hkind : Unambiguous rawScapy (rawScapy.btle (btlePacket 7 2 [5])) := by
    rw [Unambiguous, if_pos (by rfl)]
    decide
  exact (h.2.2 zeroKeyEnds [.toBridge (rawScapy.btle (btlePacket 7 2 [5])), .toHost 2 [9]] hinStep
    ⟨by decide, by decide⟩
    (List.forall_mem_cons.mpr ⟨hwf, List.forall_mem_singleton.mpr (show 1 ≤ 251 by decide)⟩)
    (List.forall_mem_cons.mpr ⟨hkind, List.forall_mem_singleton.mpr trivial⟩)).1

/-- `send` encrypts the empty packet of `LL_DATA`, and `recv_packet` does not decrypt it. -/
theorem llData_ambiguous :
    WellFormed rawScapy (packets .llData zeroKeyWorld.self) ∧
      SendEncrypts (plainLib rawScapy) zeroKeyWorld (packets .llData zeroKeyWorld.self) ∧
      ¬ recvPacketDecrypts zeroKeyPhy (sentPacket ((send (plainLib rawScapy)
        (packets .llData zeroKeyWorld.self)).final zeroKeyWorld).log) := by
  refine ⟨⟨by decide, by decide, by decide⟩, rfl, by decide⟩

end BleFuzzer.Link

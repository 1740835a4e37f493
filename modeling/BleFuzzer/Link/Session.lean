import BleFuzzer.Common.InFlight
import BleFuzzer.Link.Agreement
import BleFuzzer.Serial.BridgeToHost
import BleFuzzer.Serial.HostToBridge

/-!
# Both programs at work

The mapper, the bridge and the serial lines between them as one system of events: the host writes
frames and calls `raw_receive` while the bridge receives single bytes, extracts packets, transmits
others and drains its buffer, in any order. Either direction may have any number of packets on its
way, and each end knows only its own counters.

`Session.Sync` is the invariant of every run. For each direction it says which packets the bytes
between the ends carry, and that each of them opens with the count the receiver will have reached by
then.
-/

namespace BleFuzzer.Link

open Bridge Driver Mapper Serial

variable {ν τ : Type} (lib : Lib τ) (ll : PacketCounters ν)

/-! ## The settings of a connection -/

/-- A session key and an IV of the link layer. -/
structure LinkKey where
  key : Bytes
  iv : Bytes
  key_length : key.length = 16
  iv_length : iv.length = 8

/-- What both ends of a connection are set to. A connection without a key is not encrypted. -/
structure Connection where
  linkKey : Option LinkKey
  accessAddress : UInt32
  notAdv : accessAddress.toNat ≠ advAccessAddress

/-- The encryption flag, key and IV of one end are those of the connection. -/
def Connection.Sets (c : Connection) (encrypted : Bool) (key iv : Bytes) : Prop :=
  match c.linkKey with
  | none => encrypted = false
  | some k => encrypted = true ∧ key = k.key ∧ iv = k.iv

/-- The IV of an encrypted connection. -/
def Connection.iv (c : Connection) : Bytes := c.linkKey.elim [] LinkKey.iv

/-- The mapper is on the connection. -/
structure MapperOn (c : Connection) (s : Blesul) : Prop where
  sets : c.Sets s.encrypted s.connSessionKey s.connIv
  address : s.accessAddress = some c.accessAddress

/-- The bridge is on the connection. -/
structure BridgeOn (c : Connection) (phy : Phy) : Prop where
  sets : c.Sets phy.encEnabled phy.encKey phy.encIv
  address : phy.phyAccessAddress = c.accessAddress

/-- Whether a packet of the mapper is counted: data packets are, once the link is encrypted. -/
def Connection.countsDown (c : Connection) (pkt : Pkt) : Bool := c.linkKey.isSome && pkt.hasBtleData

/-- Whether a packet of the link layer is counted. -/
def Connection.countsUp (c : Connection) (p : UInt8 × Bytes) : Bool :=
  c.linkKey.isSome && !p.2.isEmpty

/-! ## The system -/

/-- Both ends, the bytes between them, and what has been put in and has come out so far. -/
structure Session (ν τ : Type) extends Ends ν τ where
  /-- The task is inside `recv_packet`. -/
  inRecvPacket : Bool
  /-- The bytes from the host that the bridge has not received. -/
  wire : Bytes
  /-- The bytes from the bridge that the host has not read. -/
  line : Bytes
  /-- The packets given to `send`. -/
  sent : List Pkt
  /-- `crypto_ok` and `rx_buf` of the packets of `recv_packet`. -/
  arrived : List (Bool × Bytes)
  /-- The header bytes and payloads given to `ble_phy_tx`. -/
  transmitted : List (UInt8 × Bytes)
  /-- What `receive` makes of the packets of `raw_receive`. -/
  accepted : List (Option Pkt)
  /-- The nonces both ends have encrypted with. -/
  nonces : List Bytes

inductive LinkEvent
  /-- The mapper sends a packet. -/
  | send (pkt : Pkt)
  /-- The bridge receives a byte. -/
  | uartRx
  /-- The task of the bridge enters `recv_packet`. -/
  | dequeue
  /-- `recv_packet` takes a packet from its buffer, or returns. -/
  | recvLoop
  /-- The link layer transmits a packet. -/
  | tx (hdrByte : UInt8) (payload : Bytes)
  /-- The bridge drains a byte. -/
  | uartTxChar
  /-- A call of `raw_receive` returns, and `receive` handles its result. -/
  | receive

/-- A failed assertion of the bridge, or an exception of the mapper. -/
inductive LinkFault
  | bridge (fault : Fault)
  | mapper (err : PyErr)

/-- The bytes written to the serial port. -/
def txBytes (log : List Event) : Bytes :=
  (log.map fun | .tx data => data | _ => []).flatten

/-- The channel to the bridge. -/
def Session.rx (s : Session ν τ) : RxChannel := ⟨s.wire, s.phy, s.inRecvPacket, []⟩

/-- The mapper sends a packet: the log tells what it has written, and whether it has encrypted. -/
def Session.send (s : Session ν τ) (pkt : Pkt) : Except LinkFault (Session ν τ) :=
  match (Mapper.send lib pkt).result s.world with
  | .error e => .error (.mapper e)
  | .ok () =>
    let w := (Mapper.send lib pkt).final s.world
    let log := w.log.drop s.world.log.length
    .ok { s with
      world := w
      wire := s.wire ++ txBytes log
      sent := s.sent ++ [pkt]
      nonces := if .encrypt ∈ log then s.nonces ++ [s.world.self.txNonce] else s.nonces }

/-- The bridge receives a byte. -/
def Session.uartRx (s : Session ν τ) : Except LinkFault (Session ν τ) := do
  let channel ← s.rx.uartRx.mapError LinkFault.bridge
  return { s with wire := channel.wire, phy := channel.phy }

/-- One pass of the loop of `recv_packet`. Its inner loop, which hands the packet to the link layer,
does not touch what is followed here. -/
def Session.recvLoop (s : Session ν τ) : Except LinkFault (Session ν τ) :=
  match recvPacketRead s.phy with
  | .error fault => .error (.bridge fault)
  | .ok none => .ok { s with inRecvPacket := false }
  | .ok (some (rxBuf, phy)) =>
    let phy := blePhyEncryptCounterSet phy (UInt64.ofNat (ll.rxCount s.link))
    .ok { s with
      phy := (recvPacketBegin lib.ccm phy rxBuf).2
      link := ll.received s.link (decide (recvPacketDecrypts phy rxBuf))
      arrived := s.arrived ++ [recvPacketDecrypt lib.ccm phy rxBuf] }

/-- The link layer transmits a packet. -/
def Session.tx (s : Session ν τ) (hdrByte : UInt8) (payload : Bytes) :
    Except LinkFault (Session ν τ) := do
  let phy ← (blePhyTx lib.ccm (s.txPhy ll) hdrByte payload).mapError LinkFault.bridge
  let encrypts := decide (blePhyTxEncrypts (s.txPhy ll) payload)
  return { s with
    phy := phy
    link := ll.sent s.link encrypts
    transmitted := s.transmitted ++ [(hdrByte, payload)]
    nonces := if encrypts then s.nonces ++ [(s.txPhy ll).txNonce] else s.nonces }

/-- A call of `raw_receive` on the bytes at hand. -/
def Session.rawReceive (s : Session ν τ) : Except PyErr (Option Bytes × Nrf52 × Port) :=
  s.world.self.driver.rawReceive lib.scapy ⟨s.line, []⟩

/-- The call returns, and `receive` handles its result. -/
def Session.receive (s : Session ν τ) : Except LinkFault (Session ν τ) :=
  match s.rawReceive lib with
  | .error e => .error (.mapper e)
  | .ok (data, driver, port) =>
    let w := { s.world with self := { s.world.self with driver := driver } }
    match data with
    | none => .ok { s with world := w, line := port.stream }
    | some data =>
      match (acceptData lib data).result w with
      | .error e => .error (.mapper e)
      | .ok pkt =>
        .ok { s with
          world := (acceptData lib data).final w
          line := port.stream
          accepted := s.accepted ++ [pkt] }

/-- The link. A call of `raw_receive` that waits for the rest of a message has not returned. -/
def linkSystem : System (Session ν τ) LinkEvent LinkFault where
  enabled s
    | .send _ => True
    | .uartRx => rxChannel.enabled s.rx .uartRx
    | .dequeue => rxChannel.enabled s.rx .dequeue
    | .recvLoop => rxChannel.enabled s.rx .recvLoop
    | .tx hdrByte payload => (txSystem lib.ccm).enabled ⟨s.txPhy ll, s.line, []⟩ (.tx hdrByte payload)
    | .uartTxChar => True
    | .receive => s.rawReceive lib ≠ .error .waiting
  step s
    | .send pkt => s.send lib pkt
    | .uartRx => s.uartRx
    | .dequeue => .ok { s with phy := { s.phy with recvPacketQueued := false }, inRecvPacket := true }
    | .recvLoop => s.recvLoop lib ll
    | .tx hdrByte payload => s.tx lib ll hdrByte payload
    | .uartTxChar =>
      .ok { s with
        phy := (blePhyUartTxChar s.phy).2
        line := s.line ++ (blePhyUartTxChar s.phy).1.toList }
    | .receive => s.receive lib

/-- The packets of the connection that both programs treat alike, as long as no counter overflows.
-/
def Session.Within (s : Session ν τ) : LinkEvent → Prop
  | .send pkt =>
    WellFormed lib.scapy pkt ∧ (s.world.self.encrypted = true → Unambiguous lib.scapy pkt) ∧
      s.world.self.encTxPktCount < 2 ^ 64 ∧
      s.phy.pktCount.toNat + s.wire.length + 264 < 2 ^ 32
  | .tx _ payload => payload.length ≤ 251 ∧ ll.txCount s.link < 2 ^ 64
  | _ => True

/-! ## What the frames open to -/

variable {c : Connection} {self : Blesul} {phy : Phy} {pkt : Pkt}

/-- The flag is set exactly on a link with a key. -/
theorem Connection.Sets.flag {encrypted : Bool} {key iv : Bytes} (h : c.Sets encrypted key iv) :
    encrypted = c.linkKey.isSome := by
  rw [Connection.Sets] at h
  cases hk : c.linkKey with
  | none =>
    rw [hk] at h
    exact h
  | some k =>
    rw [hk] at h
    exact h.1

/-- On a link with a key, these are its key and IV. -/
theorem Connection.Sets.of_some {encrypted : Bool} {key iv : Bytes} (h : c.Sets encrypted key iv)
    {k : LinkKey} (hk : c.linkKey = some k) : encrypted = true ∧ key = k.key ∧ iv = k.iv := by
  rw [Connection.Sets, hk] at h
  exact h

/-- On a link with a key, the IV is that of the connection. -/
theorem Connection.Sets.iv_eq {encrypted : Bool} {key iv : Bytes} (h : c.Sets encrypted key iv)
    (hsome : c.linkKey.isSome = true) : iv = c.iv := by
  obtain ⟨k, hk⟩ := Option.isSome_iff_exists.mp hsome
  rw [(h.of_some hk).2.2, Connection.iv, hk]
  rfl

/-- On an encrypted connection the ends have their key in common. -/
theorem sameKey_of_on {k : LinkKey} (hk : c.linkKey = some k) (hself : MapperOn c self)
    (hphy : BridgeOn c phy) : SameKey self phy := by
  obtain ⟨hencrypted, hkey, hiv⟩ := hself.sets.of_some hk
  obtain ⟨henabled, hkey', hiv'⟩ := hphy.sets.of_some hk
  exact ⟨hencrypted, henabled, hkey'.trans hkey.symm, hiv'.trans hiv.symm,
    ⟨hkey ▸ k.key_length, hiv ▸ k.iv_length⟩⟩

/-- Every bridge on the connection recovers the packet from the frame at count `n`, and counts it.
-/
def DownOpens (c : Connection) (n : ℕ) (pkt : Pkt) (frame : Bytes) : Prop :=
  n < 2 ^ 64 ∧ ∀ phy, BridgeOn c phy → phy.encCounter.toNat = n →
    recvPacketDecrypt lib.ccm phy frame = (true, cutCrc (lib.scapy.raw pkt)) ∧
      (recvPacketDecrypts phy frame ↔ c.countsDown pkt = true)

/-- Every mapper on the connection accepts the packet at count `n`, and counts it. -/
def UpOpens (c : Connection) (n : ℕ) (p : UInt8 × Bytes) (pdu : Bytes) : Prop :=
  ∀ w : World τ, MapperOn c w.self → w.self.encRxPktCount = n →
    ∃ log, (acceptData lib pdu).Returns w
      (some (fixPacket (lib.scapy.btle (btlePacket c.accessAddress p.1 p.2))))
      { w with
        self := { w.self with encRxPktCount := n + (c.countsUp p).toNat }
        log := log }

/-- **The frame of a sent packet.** It opens at the other end with the count of the mapper. -/
theorem send_opens {w : World τ} (hon : MapperOn c w.self)
    (hopen : w.self.driver.serialOpen = true) (hcount : w.self.encTxPktCount < 2 ^ 64)
    (hwf : WellFormed lib.scapy pkt)
    (hkind : w.self.encrypted = true → Unambiguous lib.scapy pkt) :
    ∃ driver log frame, driver.serialOpen = true ∧
      (Mapper.send lib pkt).Returns w ()
        { w with
          self := { w.self with
            driver := driver
            encTxPktCount := w.self.encTxPktCount + (c.countsDown pkt).toNat }
          log := w.log ++ log } ∧
      txBytes log = dataFrame frame ∧ (.encrypt ∈ log ↔ c.countsDown pkt = true) ∧
      HostPacket frame ∧ DownOpens lib c w.self.encTxPktCount pkt frame := by
  obtain ⟨aa, hdrByte, payload, crc, hraw, hcrc, hcut, hpayload⟩ := hwf.exists_layout
  have hfits := hwf.fits
  rw [hpayload, rxBufSize] at hfits
  have hlength : (UInt8.ofNat payload.length).toNat = payload.length := by
    split at hfits <;> exact UInt8.toNat_ofNat_of_lt' (show _ < 256 by omega)
  have hflag := hon.sets.flag
  rw [Unambiguous, hpayload] at hkind
  cases hcounts : c.countsDown pkt with
  | true =>
    -- a data packet on an encrypted link
    obtain ⟨hsome, hdata⟩ := Bool.and_eq_true_iff.mp hcounts
    obtain ⟨k, hk⟩ := Option.isSome_iff_exists.mp hsome
    have hencrypted := hflag.trans hsome
    have hkey : w.self.HasKey := by
      obtain ⟨-, hkey, hiv⟩ := hon.sets.of_some hk
      exact ⟨hkey ▸ k.key_length, hiv ▸ k.iv_length⟩
    have hne := hkind hencrypted
    rw [hdata, if_pos rfl] at hfits hne
    have hlt : (UInt8.ofNat payload.length).toNat < 252 := by omega
    have hsend := send_dataPacket lib hencrypted hkey hcount hopen hdata aa hdrByte
      (UInt8.ofNat payload.length) payload crc hlt hcrc hraw
    have htagged := lib.ccm.encryptTagged_length [hdrByte &&& 0xE3] hkey.key_length
      (Blesul.txNonce_length hkey) payload
    rw [List.append_assoc] at hsend
    refine ⟨w.self.driver, _, _, hopen, hsend, List.append_nil _, by simp, ?_, hcount,
      fun phy hphy hphyCount => ?_⟩
    · rw [HostPacket, airPacket_length, htagged, rxBufSize]
      omega
    · have hsame := sameKey_of_on hk hon hphy
      refine ⟨?_, ?_⟩
      · rw [hcut]
        exact recvPacketDecrypt_encryptTagged lib hsame hphyCount aa hdrByte _ payload hne hlt
      · have hpos := List.length_pos_of_ne_nil hne
        refine iff_of_true ?_ hcounts
        rw [recvPacketDecrypts_airPacket, htagged, UInt8.lt_iff_toNat_lt, UInt8.toNat_add, hlength,
          show (4 : UInt8).toNat = 4 from rfl, show (0 : UInt8).toNat = 0 from rfl]
        exact ⟨hsame.encEnabled, by omega, by omega⟩
  | false =>
    have hplain : (w.self.encrypted && pkt.hasBtleData) = false := by rwa [hflag]
    obtain ⟨driver, hdriver, hsend⟩ := send_plain lib hplain hopen
    refine ⟨driver, _, _, hdriver, hsend, List.append_nil _, by simp, ?_, hcount,
      fun phy hphy _ => ?_⟩
    · rw [HostPacket, hcut, airPacket_length, rxBufSize]
      split at hfits <;> omega
    · -- the bridge leaves the packet alone: it does not decrypt, or the packet is too short
      have hguard : ¬ recvPacketDecrypts phy (cutCrc (lib.scapy.raw pkt)) := by
        rw [hcut, recvPacketDecrypts_airPacket]
        rintro ⟨henabled, hlong, -⟩
        have hencrypted := hflag.trans (hphy.sets.flag.symm.trans henabled)
        rw [hencrypted, Bool.true_and] at hplain
        have hshort := hkind hencrypted
        rw [hplain, if_neg Bool.false_ne_true] at hshort
        omega
      exact ⟨recvPacketDecrypt_plain lib.ccm hguard, iff_of_false hguard (by simp [hcounts])⟩

/-- A packet of the connection is one of ours. -/
theorem MapperOn.isTarget {s : Blesul} (hon : MapperOn c s) (hscapy : Dissects lib.scapy)
    (hdrByte : UInt8) {payload : Bytes} (hlen : payload.length < 256) :
    (lib.scapy.btle (btlePacket c.accessAddress hdrByte payload)).hasBtleAdv = false ∧
      isTarget s (lib.scapy.btle (btlePacket c.accessAddress hdrByte payload)) = true := by
  have hadv := hscapy.hasBtleAdv c.accessAddress hdrByte payload hlen
  rw [decide_eq_false c.notAdv] at hadv
  refine ⟨hadv, ?_⟩
  rw [Mapper.isTarget, hadv, hscapy.accessAddr _ hdrByte payload hlen, hon.address]
  simp

/-- **The packet of a transmission.** It opens at the other end with the count of the link layer. -/
theorem tx_opens (hscapy : Dissects lib.scapy) (hon : BridgeOn c phy) (hdrByte : UInt8)
    {payload : Bytes} (hlen : payload.length ≤ 251) :
    (blePhyTxEncrypts phy payload ↔ c.countsUp (hdrByte, payload) = true) ∧
      (blePhyTxPayload lib.ccm phy hdrByte payload).length ≤ 255 ∧
      UpOpens lib c phy.encCounter.toNat (hdrByte, payload)
        (blePhyTxPacket lib.ccm phy hdrByte payload) := by
  have hguard : blePhyTxEncrypts phy payload ↔ c.countsUp (hdrByte, payload) = true := by
    rw [blePhyTxEncrypts, Connection.countsUp, ← hon.sets.flag, Bool.and_eq_true, Bool.not_eq_true',
      List.isEmpty_eq_false_iff, List.length_pos_iff]
  refine ⟨hguard, ?_⟩
  cases hcounts : c.countsUp (hdrByte, payload) with
  | true =>
    -- a payload on an encrypted link
    obtain ⟨hsome, hpos⟩ := Bool.and_eq_true_iff.mp hcounts
    obtain ⟨k, hk⟩ := Option.isSome_iff_exists.mp hsome
    have hne : payload ≠ [] := by simpa using hpos
    obtain ⟨-, hkey, hiv⟩ := hon.sets.of_some hk
    have htagged := lib.ccm.encryptTagged_length [hdrByte &&& 0xE3] (hkey ▸ k.key_length)
      (txNonce_length (hiv ▸ k.iv_length)) payload
    have hcipher : blePhyTxPayload lib.ccm phy hdrByte payload =
        lib.ccm.encryptTagged phy.encKey phy.txNonce [hdrByte &&& 0xE3] payload := by
      rw [blePhyTxPayload, if_pos (hguard.mpr hcounts)]
    have hlong : (blePhyTxPayload lib.ccm phy hdrByte payload).length ≤ 255 := by
      rw [hcipher, htagged]
      omega
    refine ⟨hlong, fun w hw hcount => ?_⟩
    have hsame := sameKey_of_on hk hw hon
    have hready : ReadyToReceive w c.accessAddress :=
      ⟨hsame.encrypted, hsame.hasKey, hcount ▸ phy.encCounter.toNat_lt, hw.address, c.notAdv⟩
    have hopen := decryptPkt_blePhyTxPacket lib hsame hcount.symm hdrByte payload hne hlen
    rw [blePhyTxPacket, hon.address] at hopen
    have haccept := acceptData_decrypted lib hscapy hready (by omega) hopen
    rw [hcount] at haccept
    rw [blePhyTxPacket, hon.address, hcounts]
    exact ⟨_, haccept⟩
  | false =>
    have hplain : blePhyTxPayload lib.ccm phy hdrByte payload = payload :=
      if_neg fun h => Bool.false_ne_true (hcounts.symm.trans (hguard.mp h))
    refine ⟨by rw [hplain]; omega, fun w hw hcount => ⟨w.log, ?_⟩⟩
    have hlt : payload.length < 256 := by omega
    obtain ⟨hadv, htarget⟩ := hw.isTarget lib hscapy hdrByte hlt
    have hdecrypt : (decrypt lib (lib.scapy.btle (btlePacket c.accessAddress hdrByte payload))).Returns
        w (lib.scapy.btle (btlePacket c.accessAddress hdrByte payload), false) w := by
      cases hk : c.linkKey with
      | none => exact decrypt_plain lib _ (hw.sets.flag.trans (by rw [hk]; rfl))
      | some k =>
        -- an empty payload on an encrypted link
        have hempty : payload = [] := by simpa [Connection.countsUp, hk] using hcounts
        subst hempty
        refine decrypt_short lib ?_
        rw [hscapy.raw_btle _ _ _ (by decide)]
        exact decryptPkt_short lib w.self _ hdrByte 0 [0, 0, 0] (by decide)
    rw [blePhyTxPacket, hplain, hon.address, hcounts, ← hcount]
    exact acceptData_returns lib htarget hadv hdecrypt

/-! ## Nonces -/

/-- The nonce with which the mapper encrypts its packet of number `n`. -/
def downNonce (iv : Bytes) (n : ℕ) : Bytes := ((leBytes 8 n).take 5).modify 4 (· ||| 0x80) ++ iv

/-- The nonce with which the bridge encrypts its packet of number `n`. -/
def upNonce (iv : Bytes) (n : ℕ) : Bytes := ((leBytes 8 n).take 5).modify 4 (· &&& 0x7F) ++ iv

/-- The mapper encrypts with the nonces of its direction. -/
theorem txNonce_eq_downNonce (s : Blesul) : s.txNonce = downNonce s.connIv s.encTxPktCount := rfl

/-- The bridge encrypts with those of the other direction. -/
theorem txNonce_eq_upNonce (phy : Phy) : phy.txNonce = upNonce phy.encIv phy.encCounter.toNat := rfl

/-- The number in the nonces: its low four bytes, and the byte that has the direction bit. -/
theorem leBytes_take_five (n : ℕ) :
    (leBytes 8 n).take 5 = leBytes 4 n ++ [UInt8.ofNat (n / 256 ^ 4)] := by
  have hdiv : n / 256 / 256 / 256 / 256 = n / 256 ^ 4 := by
    rw [Nat.div_div_eq_div_mul, Nat.div_div_eq_div_mul, Nat.div_div_eq_div_mul]
    rfl
  rw [← hdiv]
  rfl

/-- The direction bit of the mapper's nonces is one. -/
theorem downNonce_eq (iv : Bytes) (n : ℕ) :
    downNonce iv n = leBytes 4 n ++ (UInt8.ofNat (n / 256 ^ 4) ||| 0x80) :: iv := by
  rw [downNonce, leBytes_take_five]
  rfl

/-- That of the bridge's nonces is zero. -/
theorem upNonce_eq (iv : Bytes) (n : ℕ) :
    upNonce iv n = leBytes 4 n ++ (UInt8.ofNat (n / 256 ^ 4) &&& 0x7F) :: iv := by
  rw [upNonce, leBytes_take_five]
  rfl

/-- Below 128, a byte is recovered when the direction bit is cleared. -/
theorem dirBit_toNat {x : ℕ} (hx : x < 128) :
    ((UInt8.ofNat x ||| 0x80) &&& 0x7F).toNat = x ∧ (UInt8.ofNat x &&& 0x7F).toNat = x := by
  have hmask : (UInt8.ofNat x &&& 0x7F).toNat = x := by
    rw [UInt8.toNat_and, UInt8.toNat_ofNat_of_lt' (show x < 256 by omega)]
    exact (Nat.and_two_pow_sub_one_eq_mod x 7).trans (Nat.mod_eq_of_lt hx)
  refine ⟨?_, hmask⟩
  rw [or_and_mask, show (0x80 : UInt8) &&& 0x7F = 0 from rfl, UInt8.or_zero, hmask]

/-- A count is known from its low four bytes and the number above them. -/
theorem eq_of_leBytes {n m : ℕ} (hlow : leBytes 4 n = leBytes 4 m)
    (hhigh : n / 256 ^ 4 = m / 256 ^ 4) : n = m := by
  have hvalue := congrArg leValue hlow
  rw [leValue_leBytes, leValue_leBytes] at hvalue
  calc n = 256 ^ 4 * (n / 256 ^ 4) + n % 256 ^ 4 := (Nat.div_add_mod _ _).symm
    _ = 256 ^ 4 * (m / 256 ^ 4) + m % 256 ^ 4 := by rw [hhigh, hvalue]
    _ = m := Nat.div_add_mod _ _

/-- **No two packets have the same nonce**, before one of the counters reaches 39 bits. -/
theorem nonces_apart (iv : Bytes) : Apart (downNonce iv) (upNonce iv) (2 ^ 39) := by
  have hhigh : ∀ n < 2 ^ 39, n / 256 ^ 4 < 128 := fun n hn => Nat.div_lt_of_lt_mul hn
  constructor
  · intro n hn m hm h
    rw [downNonce_eq, downNonce_eq] at h
    obtain ⟨hlow, hrest⟩ := List.append_inj h (by simp)
    have hbyte := congrArg (fun b : UInt8 => (b &&& 0x7F).toNat) (List.cons.inj hrest).1
    change ((_ ||| 0x80) &&& 0x7F : UInt8).toNat = ((_ ||| 0x80) &&& 0x7F : UInt8).toNat at hbyte
    rw [(dirBit_toNat (hhigh n hn)).1, (dirBit_toNat (hhigh m hm)).1] at hbyte
    exact eq_of_leBytes hlow hbyte
  · intro n hn m hm h
    rw [upNonce_eq, upNonce_eq] at h
    obtain ⟨hlow, hrest⟩ := List.append_inj h (by simp)
    have hbyte := congrArg UInt8.toNat (List.cons.inj hrest).1
    rw [(dirBit_toNat (hhigh n hn)).2, (dirBit_toNat (hhigh m hm)).2] at hbyte
    exact eq_of_leBytes hlow hbyte
  · intro n m h
    rw [downNonce_eq, upNonce_eq] at h
    obtain ⟨-, hrest⟩ := List.append_inj h (by simp)
    -- only the nonces of the mapper have the direction bit
    have hbyte := congrArg UInt8.toNat (List.cons.inj hrest).1
    rw [UInt8.toNat_or, UInt8.toNat_and] at hbyte
    have hset := Nat.right_le_or.trans_eq hbyte
    exact absurd (hset.trans Nat.and_le_right) (by decide)

end BleFuzzer.Link

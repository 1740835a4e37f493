import BleFuzzer.Link.Session

/-!
# Delivery in both directions

The invariant of the link, that every event keeps it, and what follows for every run: no assertion
of the bridge fails and no exception of the mapper is raised, and in both directions the packets
come out as they were put in, in their order, each of them once.
-/

namespace BleFuzzer.Link

open Bridge Driver Mapper Serial

variable {ν τ : Type} (lib : Lib τ) (ll : PacketCounters ν)

/-! ## The invariant -/

/-- To the bridge: the packets `done` have arrived, and the frames of `todo` fill the wire and the
buffer, whose unread bytes are `q`. -/
structure DownInv (c : Connection) (s : Session ν τ) (done todo : List Pkt) (frames : List Bytes)
    (q : Bytes) : Prop where
  sent : s.sent = done ++ todo
  arrived : s.arrived = done.map fun pkt => (true, cutCrc (lib.scapy.raw pkt))
  opens : InFlight (DownOpens lib c) c.countsDown (ll.rxCount s.link) todo frames
    s.world.self.encTxPktCount
  configured : 2 ≤ s.phy.pktCount.toNat
  noWrap : s.phy.pktCount.toNat + s.wire.length < 2 ^ 32
  serial : RxInv 0 [] (s.phy.pktCount.toNat + s.wire.length) s.phy.pktCount.toNat q frames s.rx

/-- To the host: the packets `done` have been accepted, and `pdus` carry `todo`. -/
structure UpInv (c : Connection) (s : Session ν τ) (done todo : List (UInt8 × Bytes))
    (pdus : List Bytes) : Prop where
  transmitted : s.transmitted = done ++ todo
  accepted : s.accepted =
    done.map fun p => some (fixPacket (lib.scapy.btle (btlePacket c.accessAddress p.1 p.2)))
  opens : InFlight (UpOpens lib c) c.countsUp s.world.self.encRxPktCount todo pdus (ll.txCount s.link)
  serial : TxInv ⟨s.phy, s.line, pdus⟩

/-- Both ends are on the connection, and in step. -/
structure Session.Sync (c : Connection) (s : Session ν τ) : Prop where
  mapper : MapperOn c s.world.self
  bridge : BridgeOn c s.phy
  serialOpen : s.world.self.driver.serialOpen = true
  down : ∃ done todo frames q, DownInv lib ll c s done todo frames q
  up : ∃ done todo pdus, UpInv lib ll c s done todo pdus
  nonces : s.world.self.encTxPktCount ≤ 2 ^ 39 → ll.txCount s.link ≤ 2 ^ 39 →
    UsedOnce (downNonce c.iv) (upNonce c.iv) s.world.self.encTxPktCount (ll.txCount s.link) s.nonces

/-- Nothing has been put in yet, and nothing is left from before. -/
structure Session.Fresh (c : Connection) (s : Session ν τ) : Prop where
  mapper : MapperOn c s.world.self
  bridge : BridgeOn c s.phy
  serialOpen : s.world.self.driver.serialOpen = true
  down : s.sent = [] ∧ s.arrived = [] ∧ s.wire = [] ∧ s.phy.serialRxBuf.Holds [] ∧
    fifoGetCapacity s.phy.serialRxBuf = 1024 ∧ 2 ≤ s.phy.pktCount.toNat ∧
    s.world.self.encTxPktCount = ll.rxCount s.link
  up : s.transmitted = [] ∧ s.accepted = [] ∧ s.line = [] ∧ s.phy.serialTxBuf.Holds [] ∧
    s.world.self.encRxPktCount = ll.txCount s.link
  nonces : s.nonces = []

variable {lib} {ll} {c : Connection} {s : Session ν τ}

/-- The two ends of a fresh session are in step. -/
theorem Session.Fresh.sync (h : s.Fresh ll c) : s.Sync lib ll c := by
  obtain ⟨hsent, harrived, hwire, hbuf, hcap, hconfigured, hdown⟩ := h.down
  obtain ⟨htransmitted, haccepted, hline, hbuf', hup⟩ := h.up
  have hlt := s.phy.pktCount.toNat_lt
  refine ⟨h.mapper, h.bridge, h.serialOpen, ⟨[], [], [], [], hsent, harrived, ?_, hconfigured, ?_, ?_⟩,
    ⟨[], [], [], htransmitted, haccepted, ?_, ?_⟩, fun _ _ => ?_⟩
  · rw [hdown]
    exact .nil _
  · rw [hwire]
    exact hlt
  · refine ⟨hbuf, hcap, ?_, rfl, fun _ => rfl, ?_, List.forall_mem_nil _, fun hsome => ?_⟩
    · exact (Nat.mod_eq_of_lt hlt).symm
    · show [] ++ s.wire = _
      rw [hwire, List.drop_eq_nil_of_le (show [(0xCC : UInt8), 0].length ≤ _ from hconfigured)]
      rfl
    · cases hsome
  · rw [hup]
    exact .nil _
  · refine ⟨hbuf'.wf, ?_, List.forall_mem_nil _⟩
    show s.line ++ s.phy.serialTxBuf.contents = []
    rw [hline, hbuf'.contents_eq]
    rfl
  · rw [h.nonces]
    exact .nil _ _

/-! ## Single events -/

/-- **A packet is sent.** -/
theorem Session.Sync.send (h : s.Sync lib ll c) {pkt : Pkt} (hwithin : s.Within lib ll (.send pkt)) :
    ∃ t, s.send lib pkt = .ok t ∧ t.Sync lib ll c := by
  obtain ⟨hwf, hkind, hcount, hroom⟩ := hwithin
  obtain ⟨done, todo, frames, q, hdown⟩ := h.down
  obtain ⟨done', todo', pdus, hup⟩ := h.up
  obtain ⟨driver, log, frame, hopen, hsend, hbytes, hencrypt, hframe, hopens⟩ :=
    send_opens lib h.mapper h.serialOpen hcount hwf hkind
  have hframeLength : (dataFrame frame).length ≤ 264 := by
    have := hframe.2
    rw [rxBufSize] at this
    rw [dataFrame_length]
    omega
  rw [Session.send]
  simp only [hsend.1, hsend.2, List.drop_left, hbytes]
  refine ⟨_, rfl, ⟨h.mapper.sets, h.mapper.address⟩, h.bridge, hopen,
    ⟨done, todo ++ [pkt], frames ++ [frame], q, ?_, hdown.arrived, hdown.opens.snoc hopens,
      hdown.configured, ?_, ?_⟩, ⟨done', todo', pdus, hup.transmitted, hup.accepted, hup.opens,
      hup.serial⟩, ?_⟩
  · rw [hdown.sent, List.append_assoc]
  · show s.phy.pktCount.toNat + (s.wire ++ dataFrame frame).length < 2 ^ 32
    rw [List.length_append]
    omega
  · show RxInv 0 [] (s.phy.pktCount.toNat + (s.wire ++ dataFrame frame).length) _ _ _ _
    rw [List.length_append, ← Nat.add_assoc]
    exact hdown.serial.write hframe
  · show s.world.self.encTxPktCount + (c.countsDown pkt).toNat ≤ 2 ^ 39 → ll.txCount s.link ≤ 2 ^ 39 →
      UsedOnce _ _ (s.world.self.encTxPktCount + (c.countsDown pkt).toNat) (ll.txCount s.link) _
    intro htx hllTx
    cases hcounts : c.countsDown pkt with
    | true =>
      rw [hcounts] at htx
      have hiv := h.mapper.sets.iv_eq (Bool.and_eq_true_iff.mp hcounts).1
      rw [if_pos (hencrypt.mpr hcounts), txNonce_eq_downNonce, hiv]
      exact (h.nonces (by omega) hllTx).left (nonces_apart c.iv) htx
    | false =>
      rw [hcounts] at htx
      rw [if_neg fun hmem => Bool.false_ne_true (hcounts.symm.trans (hencrypt.mp hmem))]
      exact h.nonces htx hllTx

/-- **A byte is received.** -/
theorem Session.Sync.uartRx (h : s.Sync lib ll c) (hen : rxChannel.enabled s.rx .uartRx) :
    ∃ t, s.uartRx = .ok t ∧ t.Sync lib ll c := by
  obtain ⟨done, todo, frames, q, hdown⟩ := h.down
  obtain ⟨done', todo', pdus, hup⟩ := h.up
  obtain ⟨hne, hfull⟩ := hen
  obtain ⟨byte, wire, hwire⟩ := List.exists_cons_of_ne_nil hne
  obtain ⟨phy, q', hstep, -, hserial⟩ := hdown.serial.uartRx (Nat.zero_le 3)
    hdown.noWrap.le hwire hfull
  have hwire' : s.wire = byte :: wire := hwire
  have hnoWrap := hdown.noWrap
  rw [hwire', List.length_cons] at hnoWrap hserial
  -- the counter of received bytes has not wrapped
  have hcount : phy.pktCount.toNat = s.phy.pktCount.toNat + 1 :=
    hserial.count.trans (Nat.mod_eq_of_lt (by omega))
  obtain ⟨f, count, connected, queued, hphy⟩ := blePhyUartRxChar_kept hstep
  have huart : s.uartRx = .ok { s with wire := wire, phy := phy } := by
    rw [Session.uartRx, RxChannel.uartRx_eq hwire hstep]
    rfl
  refine ⟨_, huart, h.mapper, ?_, h.serialOpen, ⟨done, todo, frames, q', hdown.sent, hdown.arrived,
    hdown.opens, ?_, ?_, ?_⟩, ⟨done', todo', pdus, hup.transmitted, hup.accepted, hup.opens, ?_⟩,
    h.nonces⟩
  · rw [hphy]
    exact ⟨h.bridge.sets, h.bridge.address⟩
  · show 2 ≤ phy.pktCount.toNat
    rw [hcount]
    exact Nat.le_succ_of_le hdown.configured
  · show phy.pktCount.toNat + wire.length < 2 ^ 32
    omega
  · show RxInv 0 [] (phy.pktCount.toNat + wire.length) phy.pktCount.toNat q' frames _
    rw [hcount, Nat.add_assoc, Nat.add_comm 1]
    exact hserial
  · rw [hphy]
    exact ⟨hup.serial.wf, hup.serial.stream, hup.serial.pdus⟩

/-- **The loop of `recv_packet`.** It takes the next packet, with the count its frame was made with,
or returns. -/
theorem Session.Sync.recvLoop (h : s.Sync lib ll c) (hll : ll.Counts) (hin : s.inRecvPacket = true) :
    ∃ t, s.recvLoop lib ll = .ok t ∧ t.Sync lib ll c := by
  obtain ⟨done, todo, frames, q, hdown⟩ := h.down
  obtain ⟨done', todo', pdus, hup⟩ := h.up
  obtain ⟨channel, q', frames', hloop, hsplit, -, hserial⟩ := hdown.serial.recvLoop (Nat.zero_le 3) hin
  rw [RxChannel.recvLoop] at hloop
  rw [Session.recvLoop]
  cases hread : recvPacketRead s.phy with
  | error fault =>
    rw [show s.rx.phy = s.phy from rfl, hread] at hloop
    cases hloop
  | ok next =>
    rw [show s.rx.phy = s.phy from rfl, hread] at hloop
    cases next with
    | none =>
      -- no packet is complete
      obtain rfl := Except.ok.inj hloop
      obtain rfl : frames = frames' := hsplit
      exact ⟨_, rfl, h.mapper, h.bridge, h.serialOpen, ⟨done, todo, frames, q', hdown.sent,
        hdown.arrived, hdown.opens, hdown.configured, hdown.noWrap, hserial⟩,
        ⟨done', todo', pdus, hup.transmitted, hup.accepted, hup.opens, hup.serial⟩, h.nonces⟩
    | some taken =>
      obtain ⟨rxBuf, phy⟩ := taken
      obtain rfl := Except.ok.inj hloop
      obtain rfl : frames = rxBuf :: frames' := hsplit
      obtain ⟨-, -, f, rfl⟩ := recvPacketRead_fits hread
      obtain ⟨pkt, todo, rfl, ⟨hcount, hopen⟩, hopens⟩ := hdown.opens.of_cons
      -- the link layer hands over its count, which is the one the frame was made with
      set phy := blePhyEncryptCounterSet { s.phy with serialRxBuf := f }
        (UInt64.ofNat (ll.rxCount s.link)) with hphy
      have hon : BridgeOn c phy := ⟨h.bridge.sets, h.bridge.address⟩
      obtain ⟨hdecrypt, hcounts⟩ := hopen phy hon (UInt64.toNat_ofNat_of_lt' hcount)
      have hllTx : ll.txCount (ll.received s.link (decide (recvPacketDecrypts phy rxBuf))) =
          ll.txCount s.link := hll.txCount_received _ _
      -- of the bridge, the rest of the pass assigns a flag that nothing here reads
      refine ⟨_, rfl, h.mapper, ⟨hon.sets, hon.address⟩, h.serialOpen,
        ⟨done ++ [pkt], todo, frames', q', ?_, ?_, ?_, hdown.configured, hdown.noWrap,
          hserial.congr rfl rfl rfl rfl rfl⟩,
        ⟨done', todo', pdus, hup.transmitted, hup.accepted, hllTx.symm ▸ hup.opens,
          ⟨hup.serial.wf, hup.serial.stream, hup.serial.pdus⟩⟩, hllTx.symm ▸ h.nonces⟩
      · rw [hdown.sent, List.append_assoc]
        rfl
      · show s.arrived ++ [recvPacketDecrypt lib.ccm phy rxBuf] = _
        rw [hdecrypt, hdown.arrived, List.map_append]
        rfl
      · show InFlight _ _ (ll.rxCount (ll.received s.link (decide (recvPacketDecrypts phy rxBuf)))) _ _ _
        simp only [hcounts, Bool.decide_eq_true, hll.rxCount_received]
        exact hopens

/-- **A packet is transmitted**, with the count of the link layer. -/
theorem Session.Sync.tx (h : s.Sync lib ll c) (hscapy : Dissects lib.scapy) (hll : ll.Counts)
    {hdrByte : UInt8} {payload : Bytes} (hen : (linkSystem lib ll).enabled s (.tx hdrByte payload))
    (hwithin : s.Within lib ll (.tx hdrByte payload)) :
    ∃ t, s.tx lib ll hdrByte payload = .ok t ∧ t.Sync lib ll c := by
  obtain ⟨done, todo, frames, q, hdown⟩ := h.down
  obtain ⟨done', todo', pdus, hup⟩ := h.up
  obtain ⟨hlen, hcount⟩ := hwithin
  have hserial : TxInv ⟨s.txPhy ll, s.line, pdus⟩ :=
    ⟨hup.serial.wf, hup.serial.stream, hup.serial.pdus⟩
  have hon : BridgeOn c (s.txPhy ll) := ⟨h.bridge.sets, h.bridge.address⟩
  obtain ⟨hguard, -, hopens⟩ := tx_opens lib hscapy hon hdrByte hlen
  have hencCounter : (s.txPhy ll).encCounter.toNat = ll.txCount s.link :=
    UInt64.toNat_ofNat_of_lt' hcount
  rw [hencCounter] at hopens
  obtain ⟨channel, hstep, hserial', -⟩ := hserial.tx hen
  cases htx : blePhyTx lib.ccm (s.txPhy ll) hdrByte payload with
  | error fault =>
    have hfail : (blePhyTx lib.ccm (s.txPhy ll) hdrByte payload >>= _) = Except.ok channel := hstep
    rw [htx] at hfail
    cases hfail
  | ok phy =>
    have hok : (blePhyTx lib.ccm (s.txPhy ll) hdrByte payload >>= _) = Except.ok channel := hstep
    rw [htx] at hok
    obtain rfl := Except.ok.inj hok
    obtain ⟨rxSn, rxNesn, sentNonEmptyPkt, hflags⟩ := blePhyTxFlags_kept (s.txPhy ll) hdrByte payload
    have hphy := (blePhyTx_ok lib.ccm htx).2
    rw [hflags] at hphy
    -- of the rest of the bridge, only the transmit buffer has changed
    subst hphy
    have hllRx : ll.rxCount (ll.sent s.link (decide (blePhyTxEncrypts (s.txPhy ll) payload))) =
        ll.rxCount s.link := hll.rxCount_sent _ _
    have hllTx : ll.txCount (ll.sent s.link (decide (blePhyTxEncrypts (s.txPhy ll) payload))) =
        ll.txCount s.link + (c.countsUp (hdrByte, payload)).toNat := by
      simp only [hguard, Bool.decide_eq_true, hll.txCount_sent]
    rw [Session.tx, htx]
    refine ⟨_, rfl, h.mapper, ⟨h.bridge.sets, h.bridge.address⟩, h.serialOpen,
      ⟨done, todo, frames, q, hdown.sent, hdown.arrived, hllRx.symm ▸ hdown.opens, hdown.configured,
        hdown.noWrap, hdown.serial.congr rfl rfl rfl rfl rfl⟩,
      ⟨done', todo' ++ [(hdrByte, payload)], _, ?_, hup.accepted, ?_, hserial'⟩, ?_⟩
    · show s.transmitted ++ [(hdrByte, payload)] = _
      rw [hup.transmitted, List.append_assoc]
    · show InFlight _ _ _ _ _ (ll.txCount (ll.sent s.link _))
      rw [hllTx]
      exact hup.opens.snoc hopens
    · show _ → ll.txCount (ll.sent s.link _) ≤ 2 ^ 39 →
        UsedOnce _ _ _ (ll.txCount (ll.sent s.link _))
          (if decide (blePhyTxEncrypts (s.txPhy ll) payload) = true then _ else _)
      rw [hllTx]
      simp only [decide_eq_true_eq, hguard]
      intro htx' hllTx'
      cases hcounts : c.countsUp (hdrByte, payload) with
      | true =>
        rw [hcounts] at hllTx'
        have hiv := hon.sets.iv_eq (Bool.and_eq_true_iff.mp hcounts).1
        rw [if_pos rfl, txNonce_eq_upNonce, hiv, hencCounter]
        exact (h.nonces htx' (by omega)).right (nonces_apart c.iv) hllTx'
      | false =>
        rw [hcounts] at hllTx'
        rw [if_neg Bool.false_ne_true]
        exact h.nonces htx' hllTx'

/-- **A byte is drained.** -/
theorem Session.Sync.uartTxChar (h : s.Sync lib ll c) :
    Session.Sync lib ll c { s with
      phy := (blePhyUartTxChar s.phy).2
      line := s.line ++ (blePhyUartTxChar s.phy).1.toList } := by
  obtain ⟨done, todo, frames, q, hdown⟩ := h.down
  obtain ⟨done', todo', pdus, hup⟩ := h.up
  have hserial := hup.serial.uartTxChar
  obtain ⟨f, hphy⟩ := blePhyUartTxChar_snd s.phy
  rw [show (⟨s.phy, s.line, pdus⟩ : BridgeTx).phy = s.phy from rfl, hphy] at hserial
  rw [hphy]
  exact ⟨h.mapper, ⟨h.bridge.sets, h.bridge.address⟩, h.serialOpen,
    ⟨done, todo, frames, q, hdown.sent, hdown.arrived, hdown.opens, hdown.configured, hdown.noWrap,
      hdown.serial.congr rfl rfl rfl rfl rfl⟩,
    ⟨done', todo', pdus, hup.transmitted, hup.accepted, hup.opens, hserial⟩, h.nonces⟩

/-- Reading the frame at the head of the line leaves the others. -/
theorem txInv_of_cons {phy : Phy} {pdu rest : Bytes} {pdus : List Bytes}
    (h : TxInv ⟨phy, txFrame pdu ++ rest, pdu :: pdus⟩) : TxInv ⟨phy, rest, pdus⟩ := by
  refine ⟨h.wf, ?_, fun x hx => h.pdus x (List.mem_cons_of_mem _ hx)⟩
  have hstream : txFrame pdu ++ rest ++ phy.serialTxBuf.contents =
      txFrame pdu ++ (pdus.map txFrame).flatten := h.stream
  rw [List.append_assoc] at hstream
  exact List.append_cancel_left hstream

/-- With a byte at hand, a call of `raw_receive` waits for the bytes still in the buffer, or reads
the frame at the head of the line. -/
theorem rawReceive_line (scapy : Scapy) {self : Nrf52} {phy : Phy} {line : Bytes} {pdus : List Bytes}
    (h : TxInv ⟨phy, line, pdus⟩) (hopen : self.serialOpen = true) (hne : line ≠ []) :
    (self.rawReceive scapy ⟨line, []⟩ = .error .waiting ∧ phy.serialTxBuf.contents ≠ []) ∨
      ∃ pdu pdus' driver port, pdus = pdu :: pdus' ∧ line = txFrame pdu ++ port.stream ∧
        self.rawReceive scapy ⟨line, []⟩ = .ok (some pdu, driver, port) ∧
        driver.serialOpen = true ∧ TxInv ⟨phy, port.stream, pdus'⟩ := by
  have hstream : line ++ phy.serialTxBuf.contents = (pdus.map txFrame).flatten := h.stream
  cases pdus with
  | nil => exact absurd (List.append_eq_nil_iff.mp hstream).1 hne
  | cons pdu pdus =>
    rw [List.map_cons, List.flatten_cons] at hstream
    have hpre : line <+: txFrame pdu ++ (pdus.map txFrame).flatten := hstream ▸ List.prefix_append _ _
    have hport : (⟨line, []⟩ : Port).stream = line := List.append_nil line
    have hok : (pduMessage pdu).Ok := (h.pdus pdu List.mem_cons_self).ok
    by_cases hshort : line.length < (txFrame pdu).length
    · -- the frame is still incomplete
      left
      refine ⟨?_, fun hempty => ?_⟩
      · have hpart := List.prefix_of_prefix_length_le hpre (List.prefix_append _ _) hshort.le
        rw [txFrame_length, Nat.add_comm] at hshort
        have hhead : [cmdData] ++ (lenBytes pdu.length ++ ([0, 0] ++ (pdu ++ [checksum8 pdu]))) =
            txFrame pdu := by simp [txFrame, cmdData]
        rw [← hhead, ← hport] at hpart
        rw [← hport] at hshort
        exact rawReceive_packet_waiting scapy hopen hne (.inl rfl) hok hpart hshort
      · have hlen := congrArg List.length hstream
        rw [hempty, List.append_nil, List.length_append] at hlen
        omega
    · right
      obtain ⟨rest, rfl, -⟩ := exists_of_prefix_append hpre (Nat.not_lt.mp hshort)
      obtain ⟨driver, port, hread, hdriver, rfl⟩ :=
        rawReceive_message scapy hopen hne hok hport
      rw [(pduMessage_spec pdu).2] at hread
      exact ⟨pdu, pdus, driver, port, rfl, rfl, hread, hdriver, txInv_of_cons h⟩

/-- What `receive` makes of a packet of `raw_receive`. -/
theorem Session.receive_of_accept {data : Bytes} {driver : Nrf52} {port : Port}
    (hread : s.rawReceive lib = .ok (some data, driver, port)) {accepted : Option Pkt} {w : World τ}
    (haccept : (acceptData lib data).Returns
      { s.world with self := { s.world.self with driver := driver } } accepted w) :
    s.receive lib = .ok { s with
      world := w, line := port.stream, accepted := s.accepted ++ [accepted] } := by
  simp only [Session.receive, hread, haccept.1, haccept.2]

/-- **A call of `raw_receive` returns**, and a packet it returns is accepted. -/
theorem Session.Sync.receive (h : s.Sync lib ll c) (hen : s.rawReceive lib ≠ .error .waiting) :
    ∃ t, s.receive lib = .ok t ∧ t.Sync lib ll c := by
  obtain ⟨done, todo, frames, q, hdown⟩ := h.down
  obtain ⟨done', todo', pdus, hup⟩ := h.up
  by_cases hne : s.line = []
  · -- nothing has arrived
    have hread : s.rawReceive lib = .ok (none, s.world.self.driver, ⟨s.line, []⟩) :=
      rawReceive_nothing lib.scapy h.serialOpen hne
    have hline : (⟨s.line, []⟩ : Port).stream = s.line := List.append_nil _
    refine ⟨{ s with line := s.line }, ?_, h⟩
    simp only [Session.receive, hread, hline]
  · rcases rawReceive_line lib.scapy hup.serial h.serialOpen hne with
      ⟨hwait, -⟩ | ⟨pdu, pdus, driver, port, rfl, -, hread, hdriver, hserial⟩
    · exact absurd hwait hen
    · obtain ⟨p, todo', rfl, hopen, hopens⟩ := hup.opens.of_cons
      have hon : MapperOn c { s.world.self with driver := driver } :=
        ⟨h.mapper.sets, h.mapper.address⟩
      obtain ⟨log, haccept⟩ := hopen { s.world with self := { s.world.self with driver := driver } }
        hon rfl
      refine ⟨_, Session.receive_of_accept hread haccept, ⟨h.mapper.sets, h.mapper.address⟩, h.bridge,
        hdriver, ⟨done, todo, frames, q, hdown.sent, hdown.arrived, hdown.opens, hdown.configured,
          hdown.noWrap, hdown.serial⟩,
        ⟨done' ++ [p], todo', pdus, ?_, ?_, hopens, hserial⟩, h.nonces⟩
      · rw [hup.transmitted, List.append_assoc]
        rfl
      · rw [hup.accepted, List.map_append]
        rfl

/-! ## Runs -/

/-- The link, with packets that both programs treat alike. -/
def linkWithin (lib : Lib τ) (ll : PacketCounters ν) : System (Session ν τ) LinkEvent LinkFault :=
  (linkSystem lib ll).restrict (Session.Within lib ll)

/-- **One event** succeeds and keeps both ends in step. -/
theorem Session.Sync.step (h : s.Sync lib ll c) (hscapy : Dissects lib.scapy) (hll : ll.Counts)
    {e : LinkEvent} (hen : (linkWithin lib ll).enabled s e) :
    ∃ t, (linkWithin lib ll).step s e = .ok t ∧ t.Sync lib ll c := by
  obtain ⟨hen, hwithin⟩ := hen
  cases e with
  | send pkt => exact h.send hwithin
  | uartRx => exact h.uartRx hen
  | dequeue =>
    obtain ⟨done, todo, frames, q, hdown⟩ := h.down
    obtain ⟨done', todo', pdus, hup⟩ := h.up
    exact ⟨_, rfl, h.mapper, ⟨h.bridge.sets, h.bridge.address⟩, h.serialOpen,
      ⟨done, todo, frames, q, hdown.sent, hdown.arrived, hdown.opens, hdown.configured, hdown.noWrap,
        { hdown.serial with wake := fun _ => .inr rfl }⟩,
      ⟨done', todo', pdus, hup.transmitted, hup.accepted, hup.opens,
        ⟨hup.serial.wf, hup.serial.stream, hup.serial.pdus⟩⟩, h.nonces⟩
  | recvLoop => exact h.recvLoop hll hen
  | tx hdrByte payload => exact h.tx hscapy hll hen hwithin
  | uartTxChar => exact ⟨_, rfl, h.uartTxChar⟩
  | receive => exact h.receive hen

/-- Every run keeps both ends in step. -/
theorem Session.Sync.run (h : s.Sync lib ll c) (hscapy : Dissects lib.scapy) (hll : ll.Counts)
    {t : Session ν τ} {es : List LinkEvent} (hrun : (linkWithin lib ll).Run s es t) :
    t.Sync lib ll c := by
  refine hrun.invariant (fun u e v hu hen hstep => ?_) h
  obtain ⟨v', hstep', hv'⟩ := hu.step hscapy hll hen
  obtain rfl := Except.ok.inj (hstep.symm.trans hstep')
  exact hv'

/-- What is to come out at the bridge, and at the mapper. -/
def Session.dueAtBridge (lib : Lib τ) (s : Session ν τ) : List (Bool × Bytes) :=
  s.sent.map fun pkt => (true, cutCrc (lib.scapy.raw pkt))

def Session.dueAtMapper (lib : Lib τ) (c : Connection) (s : Session ν τ) : List (Option Pkt) :=
  s.transmitted.map fun p => some (fixPacket (lib.scapy.btle (btlePacket c.accessAddress p.1 p.2)))

/-- Nothing is on its way. -/
structure Session.Idle (s : Session ν τ) : Prop where
  rx : s.rx.Idle
  line : s.line = []
  buffer : s.phy.serialTxBuf.contents = []

/-- Packets come out as they were put in, and in order. -/
theorem Session.Sync.prefixes (h : s.Sync lib ll c) :
    s.arrived <+: s.dueAtBridge lib ∧ s.accepted <+: s.dueAtMapper lib c := by
  obtain ⟨done, todo, frames, q, hdown⟩ := h.down
  obtain ⟨done', todo', pdus, hup⟩ := h.up
  rw [Session.dueAtBridge, Session.dueAtMapper, hdown.sent, hup.transmitted, hdown.arrived,
    hup.accepted, List.map_append, List.map_append]
  exact ⟨List.prefix_append _ _, List.prefix_append _ _⟩

/-- When nothing is on its way, everything has come out. -/
theorem Session.Sync.complete (h : s.Sync lib ll c) (hidle : s.Idle) :
    s.arrived = s.dueAtBridge lib ∧ s.accepted = s.dueAtMapper lib c := by
  obtain ⟨done, todo, frames, q, hdown⟩ := h.down
  obtain ⟨done', todo', pdus, hup⟩ := h.up
  obtain ⟨hwire, hqueued, hin⟩ := hidle.rx
  -- to the bridge no frame is left, and neither is one to the host
  obtain ⟨rfl, -⟩ := (hdown.serial.quiet (Nat.zero_le 3) hqueued hin).2 hwire
  have hstream : s.line ++ s.phy.serialTxBuf.contents = (pdus.map txFrame).flatten :=
    hup.serial.stream
  rw [hidle.line, hidle.buffer, ← (encodeMessages_pdus pdus).1] at hstream
  obtain rfl := List.map_eq_nil_iff.mp (encodeMessages_eq_nil.mp hstream.symm)
  have hsent := hdown.sent
  have htransmitted := hup.transmitted
  rw [hdown.opens.of_nil.1, List.append_nil] at hsent
  rw [hup.opens.of_nil.1, List.append_nil] at htransmitted
  rw [Session.dueAtBridge, Session.dueAtMapper, hsent, htransmitted]
  exact ⟨hdown.arrived, hup.accepted⟩

/-! ## Progress -/

/-- How much is left to do for the two programs, apart from new packets. -/
def Session.work (s : Session ν τ) : ℕ :=
  s.rx.work + (2 * s.phy.serialTxBuf.contents.length + s.line.length)

/-- An event that puts in no packet, and leaves less to do. -/
structure Eager (lib : Lib τ) (ll : PacketCounters ν) (s t : Session ν τ) (e : LinkEvent) : Prop where
  enabled : (linkWithin lib ll).enabled s e
  step : (linkWithin lib ll).step s e = .ok t
  sent : t.sent = s.sent
  transmitted : t.transmitted = s.transmitted
  less : t.work < s.work

/-- The channel to the bridge makes the steps of `rxChannel`. -/
theorem Session.Sync.rx_step (h : s.Sync lib ll c) (hll : ll.Counts) {e : RxEvent}
    {channel : RxChannel} (hen : rxChannel.enabled s.rx e) (hstep : rxChannel.step s.rx e = .ok channel)
    (hless : channel.work < s.rx.work) : ∃ e t, Eager lib ll s t e := by
  have hwork : ∀ {t : Session ν τ}, t.rx.work = channel.work →
      t.phy.serialTxBuf = s.phy.serialTxBuf → t.line = s.line → t.work < s.work := by
    intro t hrx hbuf hline
    rw [Session.work, Session.work, hrx, hbuf, hline]
    omega
  cases e with
  | uartRx =>
    have huart : s.rx.uartRx = .ok channel := hstep
    obtain ⟨byte, wire, hwire⟩ := List.exists_cons_of_ne_nil hen.1
    rw [RxChannel.uartRx, hwire] at huart
    change (blePhyUartRxChar s.phy byte >>= _) = _ at huart
    cases hbyte : blePhyUartRxChar s.phy byte with
    | error fault =>
      rw [hbyte] at huart
      cases huart
    | ok phy =>
      rw [hbyte] at huart
      obtain rfl := Except.ok.inj huart
      obtain ⟨f, count, connected, queued, hphy⟩ := blePhyUartRxChar_kept hbyte
      refine ⟨.uartRx, { s with wire := wire, phy := phy }, ⟨hen, trivial⟩, ?_, rfl, rfl,
        hwork rfl (by rw [hphy]) rfl⟩
      show s.uartRx = _
      rw [Session.uartRx, RxChannel.uartRx_eq hwire hbyte]
      rfl
  | dequeue =>
    obtain rfl := Except.ok.inj hstep
    exact ⟨.dequeue, _, ⟨hen, trivial⟩, rfl, rfl, rfl, hwork rfl rfl rfl⟩
  | recvLoop =>
    have hloop : s.rx.recvLoop = .ok channel := hstep
    rw [RxChannel.recvLoop] at hloop
    cases hread : recvPacketRead s.phy with
    | error fault =>
      rw [show s.rx.phy = s.phy from rfl, hread] at hloop
      cases hloop
    | ok next =>
      rw [show s.rx.phy = s.phy from rfl, hread] at hloop
      cases next with
      | none =>
        obtain rfl := Except.ok.inj hloop
        refine ⟨.recvLoop, { s with inRecvPacket := false }, ⟨hen, trivial⟩, ?_, rfl, rfl,
          hwork rfl rfl rfl⟩
        show s.recvLoop lib ll = _
        rw [Session.recvLoop, hread]
      | some taken =>
        obtain ⟨rxBuf, phy⟩ := taken
        obtain rfl := Except.ok.inj hloop
        obtain ⟨-, -, f, rfl⟩ := recvPacketRead_fits hread
        obtain ⟨t, hstep', -⟩ := h.recvLoop hll hen
        have htake := hstep'
        rw [Session.recvLoop, hread] at htake
        obtain rfl := Except.ok.inj htake
        exact ⟨.recvLoop, _, ⟨hen, trivial⟩, hstep', rfl, rfl, hwork rfl rfl rfl⟩

/-- Unless the link is idle, some event leaves less to do. -/
theorem Session.Sync.progress (h : s.Sync lib ll c) (hll : ll.Counts) (hidle : ¬ s.Idle) :
    ∃ e t, Eager lib ll s t e := by
  obtain ⟨done, todo, frames, q, hdown⟩ := h.down
  obtain ⟨done', todo', pdus, hup⟩ := h.up
  by_cases hrx : s.rx.Idle
  · by_cases hbuffer : s.phy.serialTxBuf.contents = []
    · -- only whole frames are left on the line
      have hne : s.line ≠ [] := fun hline => hidle ⟨hrx, hline, hbuffer⟩
      rcases rawReceive_line lib.scapy hup.serial h.serialOpen hne with
        ⟨-, hwait⟩ | ⟨pdu, pdus, driver, port, -, hline, hread, -, -⟩
      · exact absurd hbuffer hwait
      · have hen : s.rawReceive lib ≠ .error .waiting := by
          rw [Session.rawReceive, hread]
          intro hwait
          cases hwait
        obtain ⟨t, hstep, -⟩ := h.receive hen
        have ht : t.sent = s.sent ∧ t.transmitted = s.transmitted ∧ t.rx = s.rx ∧
            t.phy = s.phy ∧ t.line = port.stream := by
          rw [Session.receive, Session.rawReceive, hread] at hstep
          dsimp only at hstep
          split at hstep
          · cases hstep
          · obtain rfl := Except.ok.inj hstep
            exact ⟨rfl, rfl, rfl, rfl, rfl⟩
        obtain ⟨hsent, htransmitted, hrx', hphy, hline'⟩ := ht
        refine ⟨.receive, t, ⟨hen, trivial⟩, hstep, hsent, htransmitted, ?_⟩
        rw [Session.work, Session.work, hrx', hphy, hline', hline, List.length_append, txFrame_length]
        omega
    · -- a byte can be drained
      obtain ⟨b, rest, hcontents⟩ := List.exists_cons_of_ne_nil hbuffer
      have hholds := hup.serial.wf.holds
      rw [show (⟨s.phy, s.line, pdus⟩ : BridgeTx).phy = s.phy from rfl, hcontents] at hholds
      obtain ⟨f, hnext, hrest⟩ := blePhyUartTxChar_cons hholds
      refine ⟨.uartTxChar, _, ⟨trivial, trivial⟩, rfl, rfl, rfl, ?_⟩
      rw [hnext, Session.work, Session.work]
      show s.rx.work + (2 * f.contents.length + (s.line ++ [b]).length) < _
      rw [hrest.contents_eq, hcontents, List.length_append, List.length_singleton, List.length_cons]
      omega
  · have hsync : RxSync 0 frames [] (s.phy.pktCount.toNat + s.wire.length) s.rx :=
      ⟨_, q, frames, rfl, hdown.serial⟩
    obtain ⟨e, channel, hen, hstep, hless⟩ :=
      hsync.progress (show ([] : Bytes).length ≤ 3 from Nat.zero_le 3) hdown.noWrap.le hrx
    exact h.rx_step hll hen hstep hless

/-- **Every run can be continued until nothing is on its way**, without a new packet. -/
theorem Session.Sync.drains (h : s.Sync lib ll c) (hscapy : Dissects lib.scapy) (hll : ll.Counts) :
    ∃ es t, (linkWithin lib ll).Run s es t ∧ t.Idle ∧ t.sent = s.sent ∧
      t.transmitted = s.transmitted := by
  induction hw : s.work using Nat.strong_induction_on generalizing s with
  | _ w ih =>
    by_cases hidle : s.Idle
    · exact ⟨[], s, .nil s, hidle, rfl, rfl⟩
    · obtain ⟨e, t, heager⟩ := h.progress hll hidle
      obtain ⟨t', hstep, hsync⟩ := h.step hscapy hll heager.enabled
      obtain rfl : t = t' := Except.ok.inj (heager.step.symm.trans hstep)
      obtain ⟨es, u, hrun, hend, hsent, htransmitted⟩ := ih t.work (hw ▸ heager.less) hsync rfl
      exact ⟨[e] ++ es, u, (System.Run.single heager.enabled heager.step).append hrun, hend,
        hsent.trans heager.sent, htransmitted.trans heager.transmitted⟩

/-! ## The results -/

/-- A connection with an all-zero key and IV. -/
def zeroKeyConnection : Connection where
  linkKey := some ⟨List.replicate 16 0, List.replicate 8 0, rfl, rfl⟩
  accessAddress := 7
  notAdv := by decide

/-- Both ends on it, after the configuration of the bridge. -/
def zeroKeySession : Session (ℕ × ℕ) Unit where
  world := zeroKeyWorld
  phy := { zeroKeyPhy with pktCount := 2 }
  link := (0, 0)
  inRecvPacket := false
  wire := []
  line := []
  sent := []
  arrived := []
  transmitted := []
  accepted := []
  nonces := []

/-- A session with a key of zeros, in which nothing has been sent. -/
theorem zeroKeySession_fresh : zeroKeySession.Fresh plainCounters zeroKeyConnection where
  mapper := ⟨⟨rfl, rfl, rfl⟩, rfl⟩
  bridge := ⟨⟨rfl, rfl, rfl⟩, rfl⟩
  serialOpen := rfl
  down := ⟨rfl, rfl, rfl, fifoCreate_holds 1024 (by decide), rfl, by decide, rfl⟩
  up := ⟨rfl, rfl, rfl, fifoCreate_holds 1024 (by decide), rfl⟩
  nonces := rfl

/-- Two data packets. -/
def shortPkt : Pkt := rawScapy.btle (btlePacket 7 2 [5])

def longPkt : Pkt := rawScapy.btle (btlePacket 7 2 [6, 7])

/-- A control packet meets the condition of the agreement. -/
theorem shortPkt_fits : WellFormed rawScapy shortPkt ∧ Unambiguous rawScapy shortPkt := by
  refine ⟨⟨by decide, by decide, by decide⟩, ?_⟩
  rw [Unambiguous, if_pos (by rfl)]
  decide

/-- So does a data packet. -/
theorem longPkt_fits : WellFormed rawScapy longPkt ∧ Unambiguous rawScapy longPkt := by
  refine ⟨⟨by decide, by decide, by decide⟩, ?_⟩
  rw [Unambiguous, if_pos (by rfl)]
  decide

/-- A run goes on with an enabled event. -/
theorem Session.Sync.extend {s₀ : Session ν τ} {es : List LinkEvent} (h : s.Sync lib ll c)
    (hrun : (linkWithin lib ll).Run s₀ es s) (hscapy : Dissects lib.scapy) (hll : ll.Counts)
    (e : LinkEvent) (hen : (linkWithin lib ll).enabled s e) :
    ∃ t, (linkWithin lib ll).step s e = .ok t ∧ t.Sync lib ll c ∧
      (linkWithin lib ll).Run s₀ (es ++ [e]) t := by
  obtain ⟨t, hstep, hsync⟩ := h.step hscapy hll hen
  exact ⟨t, hstep, hsync, hrun.snoc hen hstep⟩

/-- Two packets to the bridge and one to the mapper, all of them on their way. -/
theorem zeroKeySession_exchange : ∃ t : Session (ℕ × ℕ) Unit,
    (linkWithin (plainLib rawScapy) plainCounters).Run zeroKeySession
        [.send shortPkt, .send longPkt, .tx 2 [9]] t ∧
      t.sent = [shortPkt, longPkt] ∧ t.transmitted = [(2, [9])] ∧ t.arrived = [] ∧ t.accepted = [] ∧
      t.nonces.length = 3 ∧ t.world.self.encTxPktCount = 2 ∧ t.link.2 = 1 := by
  have hfresh : zeroKeySession.Sync (plainLib rawScapy) plainCounters zeroKeyConnection :=
    zeroKeySession_fresh.sync
  obtain ⟨t, hstep, hsync, hrun⟩ := hfresh.extend (.nil _) dissects_rawScapy
    plainCounters_counts (.send shortPkt)
    ⟨trivial, shortPkt_fits.1, fun _ => shortPkt_fits.2, by decide, by decide⟩
  obtain rfl := Except.ok.inj hstep
  obtain ⟨t, hstep, hsync, hrun⟩ := hsync.extend hrun dissects_rawScapy plainCounters_counts
    (.send longPkt)
    ⟨trivial, longPkt_fits.1, fun _ => longPkt_fits.2, by decide +kernel, by decide +kernel⟩
  obtain rfl := Except.ok.inj hstep
  obtain ⟨t, hstep, -, hrun⟩ := hsync.extend hrun dissects_rawScapy plainCounters_counts
    (.tx 2 [9]) ⟨⟨by decide +kernel, by decide +kernel⟩, by decide, by decide +kernel⟩
  obtain rfl := Except.ok.inj hstep
  exact ⟨_, hrun, rfl, rfl, rfl, rfl, rfl, rfl, rfl⟩

/-- **The link delivers in both directions.** From a link without packets, in every run: no event
fails, the packets have come out as they were put in and in their order, all of them when nothing is
on its way, and every run can be continued until then. -/
theorem link_delivers (hscapy : Dissects lib.scapy) (hll : ll.Counts) (h : s.Fresh ll c)
    {t : Session ν τ} {es : List LinkEvent} (hrun : (linkWithin lib ll).Run s es t) :
    (∀ e, (linkWithin lib ll).enabled t e → ∃ u, (linkWithin lib ll).step t e = .ok u) ∧
      t.arrived <+: t.dueAtBridge lib ∧ t.accepted <+: t.dueAtMapper lib c ∧
      (t.Idle → t.arrived = t.dueAtBridge lib ∧ t.accepted = t.dueAtMapper lib c) ∧
      ∃ es' u, (linkWithin lib ll).Run t es' u ∧ u.Idle ∧ u.sent = t.sent ∧
        u.transmitted = t.transmitted := by
  have hsync : t.Sync lib ll c := h.sync.run hscapy hll hrun
  refine ⟨fun e hen => ?_, hsync.prefixes.1, hsync.prefixes.2, fun hidle => hsync.complete hidle,
    hsync.drains hscapy hll⟩
  obtain ⟨u, hstep, -⟩ := hsync.step hscapy hll hen
  exact ⟨u, hstep⟩

/-- The three packets arrive. -/
theorem link_delivers_three : ∃ es t,
    (linkWithin (plainLib rawScapy) plainCounters).Run zeroKeySession es t ∧
      t.arrived = [(true, airPacket 7 2 1 [5]), (true, airPacket 7 2 2 [6, 7])] ∧
      t.accepted = [some (fixPacket (rawScapy.btle (btlePacket 7 2 [9])))] := by
  obtain ⟨t, hrun, hsent, htransmitted, -⟩ := zeroKeySession_exchange
  obtain ⟨es, u, hrun', hidle, hsent', htransmitted'⟩ :=
    (link_delivers dissects_rawScapy plainCounters_counts zeroKeySession_fresh hrun).2.2.2.2
  have hall := hrun.append hrun'
  obtain ⟨harrived, haccepted⟩ :=
    (link_delivers dissects_rawScapy plainCounters_counts zeroKeySession_fresh hall).2.2.2.1 hidle
  refine ⟨_, u, hall, ?_, ?_⟩
  · rw [harrived, Session.dueAtBridge, hsent', hsent]
    rfl
  · rw [haccepted, Session.dueAtMapper, htransmitted', htransmitted]
    rfl

/-- **The counters.** In every run, each sender has counted what the receiver has counted and the
packets on their way, so that the ends have the same counters whenever nothing is on its way. -/
theorem link_counters (hscapy : Dissects lib.scapy) (hll : ll.Counts) (h : s.Fresh ll c)
    {t : Session ν τ} {es : List LinkEvent} (hrun : (linkWithin lib ll).Run s es t) :
    t.world.self.encTxPktCount =
        ll.rxCount t.link + (t.sent.drop t.arrived.length).countP c.countsDown ∧
      ll.txCount t.link = t.world.self.encRxPktCount +
        (t.transmitted.drop t.accepted.length).countP c.countsUp ∧
      (t.Idle → t.world.self.encTxPktCount = ll.rxCount t.link ∧
        t.world.self.encRxPktCount = ll.txCount t.link) := by
  have hsync : t.Sync lib ll c := h.sync.run hscapy hll hrun
  obtain ⟨done, todo, frames, q, hdown⟩ := hsync.down
  obtain ⟨done', todo', pdus, hup⟩ := hsync.up
  have htodo : t.sent.drop t.arrived.length = todo := by
    rw [hdown.sent, hdown.arrived, List.length_map, List.drop_left]
  have htodo' : t.transmitted.drop t.accepted.length = todo' := by
    rw [hup.transmitted, hup.accepted, List.length_map, List.drop_left]
  rw [htodo, htodo']
  refine ⟨hdown.opens.count_eq, hup.opens.count_eq, fun hidle => ?_⟩
  obtain ⟨harrived, haccepted⟩ := hsync.complete hidle
  -- then as many have come out as were put in
  have hnone : todo = [] := by
    rw [← htodo, harrived, Session.dueAtBridge, List.length_map, List.drop_length]
  have hnone' : todo' = [] := by
    rw [← htodo', haccepted, Session.dueAtMapper, List.length_map, List.drop_length]
  have hcount := hdown.opens.count_eq
  have hcount' := hup.opens.count_eq
  rw [hnone, List.countP_nil, Nat.add_zero] at hcount
  rw [hnone', List.countP_nil, Nat.add_zero] at hcount'
  exact ⟨hcount, hcount'.symm⟩

/-- With the three packets on their way, the mapper is ahead by two, and the link layer by one. -/
theorem link_counters_three : ∃ t : Session (ℕ × ℕ) Unit,
    (linkWithin (plainLib rawScapy) plainCounters).Run zeroKeySession
        [.send shortPkt, .send longPkt, .tx 2 [9]] t ∧
      t.world.self.encTxPktCount = t.link.1 + 2 ∧ t.link.2 = t.world.self.encRxPktCount + 1 := by
  obtain ⟨t, hrun, hsent, htransmitted, harrived, haccepted, -⟩ := zeroKeySession_exchange
  obtain ⟨hdown, hup, -⟩ :=
    link_counters dissects_rawScapy plainCounters_counts zeroKeySession_fresh hrun
  rw [hsent, harrived] at hdown
  rw [htransmitted, haccepted] at hup
  exact ⟨t, hrun, hdown, hup⟩

/-- **No nonce is used twice.** In every run that leaves the counters below 39 bits, all nonces of
both ends are different. -/
theorem link_nonces_nodup (hscapy : Dissects lib.scapy) (hll : ll.Counts) (h : s.Fresh ll c)
    {t : Session ν τ} {es : List LinkEvent} (hrun : (linkWithin lib ll).Run s es t)
    (htx : t.world.self.encTxPktCount ≤ 2 ^ 39) (hllTx : ll.txCount t.link ≤ 2 ^ 39) :
    t.nonces.Nodup :=
  ((h.sync.run hscapy hll hrun).nonces htx hllTx).nodup

/-- The nonces of the three packets. -/
theorem link_nonces_nodup_three : ∃ t : Session (ℕ × ℕ) Unit,
    (linkWithin (plainLib rawScapy) plainCounters).Run zeroKeySession
        [.send shortPkt, .send longPkt, .tx 2 [9]] t ∧
      t.nonces.length = 3 ∧ t.nonces.Nodup := by
  obtain ⟨t, hrun, -, -, -, -, hlength, htx, hllTx⟩ := zeroKeySession_exchange
  refine ⟨t, hrun, hlength, link_nonces_nodup dissects_rawScapy plainCounters_counts
    zeroKeySession_fresh hrun (by rw [htx]; decide) ?_⟩
  rw [show plainCounters.txCount t.link = 1 from hllTx]
  decide

end BleFuzzer.Link

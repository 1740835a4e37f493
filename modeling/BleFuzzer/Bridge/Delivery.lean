import BleFuzzer.Bridge.Pump

/-!
# What the link layer is given

Three results about every run of the packet pump. The packet of an accepted frame is delivered once
and all others are simulated (`recvPacket_pumps`). The access address of a frame is compared with
the one of the advertising channels only, so a frame of any other connection is delivered
(`delivered_onTuned_iff`). The outcome of the verification of a frame stays in force for the
simulated packets after it (`micFailure_exact_iff`).
-/

namespace BleFuzzer.Bridge

/-- The channel and the access address of the radio. -/
def Phy.tuning (phy : Phy) : UInt8 × UInt32 := (phy.phyChan, phy.phyAccessAddress)

/-- An event changes the tuning if it is a call of `ble_phy_setchan`. -/
def PumpEvent.tune (e : PumpEvent) (tuning : UInt8 × UInt32) : UInt8 × UInt32 :=
  match e with
  | .call (.setchan chan accessAddr) => (chan, accessAddr)
  | _ => tuning

/-- What the latest call of `ble_phy_setchan` asked for, or the values at start-up. -/
def lastSetchan (es : List PumpEvent) : UInt8 × UInt32 :=
  es.foldl (fun tuning e => e.tune tuning) (blePhyNumChans, 0)

/-- The frame is for the kind of channel the radio is tuned to. -/
def Handled.FitsChannel (h : Handled) : Prop :=
  h.taken.phyChan < 37 ↔ accessAddr h.frame ≠ advAccessAddress

/-- The flag of a failed verification is given to `ble_ll_rx_end` with the failing packets only. -/
def Handled.MicExact (A : Aead 16 13 4) (h : Handled) : Prop :=
  ∀ d ∈ h.delivered, ∀ pdu, d.rxEnd = some pdu →
    (pdu.micFailure = true ↔ d.fromHost = true ∧ h.MicFails A)

/-- The link layer is given no simulated packet on behalf of a frame that failed its verification:
when the inner loop goes on, the radio is not on a data channel or `ble_ll_rx_start` rejects the
packet. -/
def QuietAfterMicFailure (A : Aead 16 13 4) (s : Pump) : PumpEvent → Prop
  | .next rxStart => ∀ loop ∈ s.recvLoop, loop.atStop = false →
      loop.handled.FitsChannel → loop.handled.MicFails A →
      s.phy.sentNonEmptyPkt = true ∨ loop.locals.iPkt + 1 < 6 →
      ¬ (s.phy.phyChan < 37 ∧ rxStart = true)
  | _ => True

instance (h : Handled) : Decidable h.FitsChannel := inferInstanceAs (Decidable (_ ↔ _))

instance (d : Delivered) : Decidable d.OnTuned := inferInstanceAs (Decidable (_ = _))

instance (A : Aead 16 13 4) (h : Handled) : Decidable (h.MicFails A) :=
  inferInstanceAs (Decidable (_ ∧ _))

instance (A : Aead 16 13 4) (s : Pump) (e : PumpEvent) : Decidable (QuietAfterMicFailure A s e) :=
  match e with
  | .next _ => inferInstanceAs (Decidable (∀ loop ∈ s.recvLoop, _))
  | .recv _ | .call _ => .isTrue trivial

/-- The pump around a concrete cipher. -/
abbrev plainPumpSystem : System Pump PumpEvent Fault := pumpSystem (.byteSumTag 16 13 4)

/-- The state after a list of events from the start. -/
def pumpAfter (es : List PumpEvent) : Pump := (plainPumpSystem.exec .start es).getD .start

/-- A packet arrives over the serial line and is taken. The link layer accepts it. -/
def takePacket (pkt : Bytes) : List PumpEvent :=
  (0xA7 :: lenBytes pkt.length ++ pkt ++ [checksum8 pkt]).map (.call <| .uartRxChar ·) ++ [.recv true]

/-- The host has connected, and the radio is on a data channel. -/
def onDataChannel : List PumpEvent :=
  [.call (.uartRxChar 0xCC), .call (.uartRxChar 0), .call (.setchan 0 7)]

variable {A : Aead 16 13 4}

/-! ## The tuning of the radio -/

/-- A call of the link layer tunes the radio as its event says. -/
theorem DriverCall.tuning {phy phy' : Phy} {c : DriverCall} (hrun : c.run A phy = .ok phy') :
    phy'.tuning = (PumpEvent.call c).tune phy.tuning := by
  cases c with
  | tx hdrByte payload =>
    obtain ⟨-, rfl⟩ := blePhyTx_ok A hrun
    show (blePhyTxFlags phy hdrByte payload).tuning = phy.tuning
    rw [blePhyTxFlags, blePhyTxSeqNum]
    split <;> split <;> rfl
  | uartRxChar byte =>
    obtain ⟨f, count, connected, queued, rfl⟩ := blePhyUartRxChar_kept hrun
    rfl
  | uartTxChar =>
    obtain ⟨f, hphy⟩ := blePhyUartTxChar_snd phy
    obtain rfl := Except.ok.inj hrun
    rw [hphy]
    rfl
  | setchan _ _ | encryptEnable _ | encryptIvSet _ | encryptCounterSet _ | encryptDisable =>
    obtain rfl := Except.ok.inj hrun
    rfl

/-- Only `ble_phy_setchan` changes the tuning. -/
theorem Pump.tuning_step {s t : Pump} {e : PumpEvent} (hstep : (pumpSystem A).step s e = .ok t) :
    t.phy.tuning = e.tune s.phy.tuning := by
  cases pumpStep_cases hstep with
  | idle hcall =>
    cases e with
    | call c => exact absurd rfl (hcall c)
    | recv _ | next _ => rfl
  | stop _ hphy | first _ hphy =>
    obtain ⟨f, rfl⟩ := hphy
    rfl
  | leave | again | finish => rfl
  | call hrun => exact DriverCall.tuning hrun

/-- The radio is tuned as the latest call of `ble_phy_setchan` asked for. -/
theorem Pump.tuning_of_run {es : List PumpEvent} {s : Pump}
    (h : (pumpSystem A).Run .start es s) : s.phy.tuning = lastSetchan es := by
  induction h with
  | nil => rfl
  | snoc _ _ hstep ih =>
    rw [Pump.tuning_step hstep, ih, lastSetchan, lastSetchan, List.foldl_concat]

/-! ## Access addresses -/

/-- The header byte is not part of the access address. -/
theorem accessAddr_modify (rxBuf : Bytes) (f : UInt8 → UInt8) :
    accessAddr (rxBuf.modify 4 f) = accessAddr rxBuf := by
  rw [accessAddr, accessAddr, List.take_modify, List.modify_eq_self (List.length_take_le 4 rxBuf)]

/-- What `recv_packet` accepts is what its comparison of the channel kinds lets through. -/
theorem Handled.accepted_iff (h : Handled) : h.accepted A = true ↔ h.FitsChannel := by
  rw [Handled.accepted, recvPacketAccepts_iff, recvPacketDecrypt_accessAddr]
  rfl

/-- A simulated packet carries the access address of the radio. -/
theorem Delivered.Simulated.onTuned {d : Delivered} (h : d.Simulated) : d.OnTuned := by
  obtain ⟨hchan, hdrByte, -, hrxBuf⟩ := h
  have hlt : d.phyAccessAddress.toNat < 256 ^ 4 := d.phyAccessAddress.toNat_lt
  have htake : d.rxBuf.take 4 = leBytes 4 d.phyAccessAddress.toNat := by
    rw [hrxBuf, List.take_left' (leBytes_length 4 _)]
  rw [Delivered.OnTuned, if_pos hchan, accessAddr, htake, leValue_leBytes_of_lt hlt]

/-- The packet of a frame carries the access address of the frame. -/
theorem Handled.IsHostPacket.onTuned_iff {h : Handled} {d : Delivered} (hd : h.IsHostPacket A d) :
    d.OnTuned ↔ accessAddr h.frame = h.first.tuned := by
  obtain ⟨f, -, hrxBuf⟩ := hd.rxBuf
  rw [Delivered.OnTuned, hrxBuf, accessAddr_modify, recvPacketDecrypt_accessAddr, hd.phyChan,
    hd.phyAccessAddress]
  rfl

/-- For one connection with the host: everything delivered is for the tuned connection exactly if
the frame is, where it fits the channel at all. -/
theorem Handled.Pumped.onTuned_iff {h : Handled} (hpumped : h.Pumped A) :
    (∀ d ∈ h.delivered, d.OnTuned) ↔ (h.FitsChannel → accessAddr h.frame = h.first.tuned) := by
  obtain ⟨host, sims, hdelivered, haccepted, hrejected, hsims⟩ := hpumped
  have hsims' : ∀ d ∈ sims, d.OnTuned := fun d hd => (hsims d hd).simulated.onTuned
  rw [hdelivered, List.forall_mem_append, and_iff_left hsims', ← Handled.accepted_iff (A := A)]
  cases haccept : h.accepted A with
  | true =>
    obtain ⟨d, rfl, hd⟩ := haccepted haccept
    rw [List.forall_mem_singleton, hd.onTuned_iff]
    exact ⟨fun haddr _ => haddr, fun haddr => haddr rfl⟩
  | false =>
    rw [hrejected haccept]
    exact iff_of_true (List.forall_mem_nil _) nofun

/-- The same at the debugging stop, before anything is delivered. -/
theorem Handled.onTuned_iff_of_stop {h : Handled} (hdelivered : h.delivered = [])
    (hfirst : h.first = h.taken) (hstop : h.taken.stops = true) :
    (∀ d ∈ h.delivered, d.OnTuned) ↔ (h.FitsChannel → accessAddr h.frame = h.first.tuned) := by
  have hchan : ¬ h.taken.phyChan < 37 := by
    rw [Phy.stops, Bool.and_eq_true, decide_eq_true_iff] at hstop
    exact UInt8.not_lt.mpr hstop.2
  rw [hdelivered, hfirst, Phy.tuned, if_neg hchan, Handled.FitsChannel]
  refine iff_of_true (List.forall_mem_nil _) fun hfits => ?_
  exact not_not.mp fun hne => hchan (hfits.mpr hne)

/-- What a property of frames needs to hold of all frames that have been taken. -/
theorem Pump.Inv.forall_handled {s : Pump} (h : s.Inv A) {P : Handled → Prop}
    (hpumped : ∀ f : Handled, f.Pumped A → P f)
    (hstop : ∀ f : Handled, f.delivered = [] → f.first = f.taken → f.taken.stops = true → P f) :
    ∀ f ∈ s.handled, P f := by
  intro f hf
  rw [Pump.handled, List.mem_append, Option.mem_toList] at hf
  rcases hf with hf | hended
  · obtain ⟨loop, hloop, rfl⟩ := Option.map_eq_some_iff.mp hf
    have hinv := h.loop loop hloop
    cases hat : loop.atStop with
    | true =>
      obtain ⟨hready, hfirst, hstops⟩ := hinv.atStop hat
      exact hstop _ hready.delivered hfirst hstops
    | false => exact hpumped _ (hinv.pumped hat)
  · exact hpumped f (h.ended f hended).1

/-- **The access address of a delivered packet.** In every run, the radio is tuned as the latest
call of `ble_phy_setchan` asked for, and the packets that the link layer is given carry the access
address that the radio is tuned to if and only if each frame for the kind of channel does. -/
theorem delivered_onTuned_iff {es : List PumpEvent} {s : Pump}
    (h : (pumpSystem A).Run .start es s) :
    s.phy.tuning = lastSetchan es ∧
      ((∀ f ∈ s.handled, ∀ d ∈ f.delivered, d.OnTuned) ↔
        ∀ f ∈ s.handled, f.FitsChannel → accessAddr f.frame = f.first.tuned) := by
  refine ⟨Pump.tuning_of_run h, forall₂_congr ?_⟩
  exact (Pump.inv_of_run h).forall_handled (fun _ => Handled.Pumped.onTuned_iff)
    fun _ => Handled.onTuned_iff_of_stop

/-- A frame of the connection is delivered as it should. -/
theorem delivered_onTuned_iff_same :
    plainPumpSystem.Run .start (onDataChannel ++ takePacket (airPacket 7 2 1 [0]))
        (pumpAfter (onDataChannel ++ takePacket (airPacket 7 2 1 [0]))) ∧
      ∀ f ∈ (pumpAfter (onDataChannel ++ takePacket (airPacket 7 2 1 [0]))).handled,
        ∀ d ∈ f.delivered, d.OnTuned :=
  have hrun : plainPumpSystem.Run .start (onDataChannel ++ takePacket (airPacket 7 2 1 [0])) _ :=
    System.Run.of_exec (by decide +kernel)
  ⟨hrun, (delivered_onTuned_iff hrun).2.mpr (by decide +kernel)⟩

/-- A frame of another connection is delivered on a data channel. -/
theorem otherConnection_delivered :
    ∃ s, plainPumpSystem.Run .start (onDataChannel ++ takePacket (airPacket 9 2 1 [0])) s ∧
      s.phy.tuning = (0, 7) ∧ ∃ f ∈ s.handled, ∃ d ∈ f.delivered,
        d.phyChan < 37 ∧ accessAddr d.rxBuf = 9 ∧ d.phyAccessAddress = 7 := by
  refine ⟨pumpAfter (onDataChannel ++ takePacket (airPacket 9 2 1 [0])), ?_, ?_⟩
  · exact System.Run.of_exec (by decide +kernel)
  · decide +kernel

/-! ## The passes of the inner loop -/

/-- The inner loop can always go on. -/
theorem Pump.next_ok (s : Pump) (rxStart : Bool) :
    ∃ t, (pumpSystem A).step s (.next rxStart) = .ok t := by
  simp only [pumpSystem]
  split
  · exact ⟨_, rfl⟩
  · split
    · exact ⟨_, rfl⟩
    · split <;> exact ⟨_, rfl⟩

/-- Going on with the inner loop ends it or adds a pass. -/
theorem Pump.next_progress {s : Pump} {loop : InnerLoop} (hloop : loop ∈ s.recvLoop)
    (hdelays : loop.atStop = false) (rxStart : Bool) :
    ∃ t, (pumpSystem A).step s (.next rxStart) = .ok t ∧ (t.recvLoop = none ∨
      ∃ loop' ∈ t.recvLoop, loop'.atStop = false ∧
        loop'.handled.passes.length = loop.handled.passes.length + 1) := by
  obtain ⟨t, hstep⟩ := Pump.next_ok (A := A) s rxStart
  refine ⟨t, hstep, ?_⟩
  cases pumpStep_cases hstep with
  | idle _ hnone =>
    rw [hnone rxStart rfl] at hloop
    cases hloop
  | leave hloop' hstop =>
    obtain rfl := Option.mem_unique hloop hloop'
    cases hdelays.symm.trans hstop
  | again hloop' =>
    obtain rfl := Option.mem_unique hloop hloop'
    exact .inr ⟨_, rfl, rfl, by simp [Handled.endPass]⟩
  | finish => exact .inl rfl

/-- **The packet pump.** In every run, the packet of an accepted frame is delivered once and first,
that of a rejected frame never, and every other packet is a simulated one. An inner loop that has
ended made six passes, or five after the last one that saw `sent_non_empty_pkt`. One that goes on
has made fewer than six, and five more for each pass that saw the flag, and every further pass
brings it nearer to its end. -/
theorem recvPacket_pumps {es : List PumpEvent} {s : Pump} (h : (pumpSystem A).Run .start es s) :
    (∀ f ∈ s.ended, f.Pumped A ∧ Complete f.passes) ∧
      ∀ loop ∈ s.recvLoop, loop.handled.passes.length < 6 + 5 * loop.handled.passes.count true ∧
        (loop.atStop = true → loop.handled.delivered = []) ∧
        (loop.atStop = false → loop.handled.Pumped A ∧ ∀ rxStart,
          ∃ t, (pumpSystem A).step s (.next rxStart) = .ok t ∧ (t.recvLoop = none ∨
            ∃ loop' ∈ t.recvLoop, loop'.atStop = false ∧
              loop'.handled.passes.length = loop.handled.passes.length + 1)) := by
  have hinv := Pump.inv_of_run h
  refine ⟨hinv.ended, fun loop hloop => ⟨?_, ?_, ?_⟩⟩
  · have hle := (hinv.loop loop hloop).counts.length_le
    have hcounter := (hinv.loop loop hloop).counts.counter_le
    omega
  · exact fun hstop => ((hinv.loop loop hloop).atStop hstop).1.delivered
  · exact fun hdelays =>
      ⟨(hinv.loop loop hloop).pumped hdelays, Pump.next_progress hloop hdelays⟩

/-- A frame on a data channel and the five simulated packets after it. -/
theorem recvPacket_pumps_six :
    (pumpAfter (onDataChannel ++ takePacket (airPacket 7 2 1 [0]) ++
        List.replicate 6 (.next true))).ended ≠ [] ∧
      ∀ f ∈ (pumpAfter (onDataChannel ++ takePacket (airPacket 7 2 1 [0]) ++
        List.replicate 6 (.next true))).ended, f.Pumped (.byteSumTag 16 13 4) ∧ Complete f.passes :=
  have hrun : plainPumpSystem.Run .start (onDataChannel ++ takePacket (airPacket 7 2 1 [0]) ++
      List.replicate 6 (.next true)) _ := System.Run.of_exec (by decide +kernel)
  ⟨by decide +kernel, (recvPacket_pumps hrun).1⟩

/-! ## The outcome of the verification -/

/-- Nothing but its own packet is given to `ble_ll_rx_end` for a frame that failed its verification.
-/
def Handled.Quiet (A : Aead 16 13 4) (h : Handled) : Prop :=
  h.FitsChannel → h.MicFails A → ∀ d ∈ h.delivered, d.fromHost = false → d.rxEnd = none

/-- The flag of a delivered packet of the host is the result of its verification. -/
theorem Handled.IsHostPacket.micExact {h : Handled} {d : Delivered} (hd : h.IsHostPacket A d) :
    ∀ pdu, d.rxEnd = some pdu → (pdu.micFailure = true ↔ d.fromHost = true ∧ h.MicFails A) :=
  fun pdu hpdu => (hd.micFailure pdu hpdu).trans (and_iff_right hd.fromHost).symm

/-- A simulated packet has the flag of its frame. -/
theorem Handled.IsSimulated.micExact_iff {h : Handled} {d : Delivered} (hd : h.IsSimulated A d) :
    (∀ pdu, d.rxEnd = some pdu → (pdu.micFailure = true ↔ d.fromHost = true ∧ h.MicFails A)) ↔
      (h.FitsChannel → h.MicFails A → d.rxEnd = none) := by
  have hhost : ¬ (d.fromHost = true ∧ h.MicFails A) := fun ⟨htrue, _⟩ => by
    cases hd.fromHost.symm.trans htrue
  have hflag : ∀ pdu, d.rxEnd = some pdu →
      (pdu.micFailure = true ↔ h.FitsChannel ∧ h.MicFails A) := by
    rw [← Handled.accepted_iff (A := A)]
    exact hd.micFailure
  constructor
  · intro hexact hfits hfails
    cases hend : d.rxEnd with
    | none => rfl
    | some pdu => exact absurd ((hexact pdu hend).mp ((hflag pdu hend).mpr ⟨hfits, hfails⟩)) hhost
  · intro hquiet pdu hpdu
    rw [hflag pdu hpdu]
    refine iff_of_false (fun ⟨hfits, hfails⟩ => ?_) hhost
    cases hpdu.symm.trans (hquiet hfits hfails)

/-- For one frame: the MIC flags are exact as long as nothing else is delivered after a failed
verification. -/
theorem Handled.Pumped.micExact_iff {h : Handled} (hpumped : h.Pumped A) :
    h.MicExact A ↔ h.Quiet A := by
  obtain ⟨host, sims, hdelivered, haccepted, hrejected, hsims⟩ := hpumped
  have hhosts : ∀ d ∈ host, h.IsHostPacket A d := by
    cases haccept : h.accepted A with
    | true =>
      obtain ⟨d, rfl, hd⟩ := haccepted haccept
      exact List.forall_mem_singleton.mpr hd
    | false =>
      rw [hrejected haccept]
      exact List.forall_mem_nil _
  rw [Handled.MicExact, Handled.Quiet, hdelivered, List.forall_mem_append]
  constructor
  · rintro ⟨-, hexact⟩ hfits hfails d hd hhost
    rcases List.mem_append.mp hd with hd | hd
    · cases hhost.symm.trans (hhosts d hd).fromHost
    · exact (hsims d hd).micExact_iff.mp (hexact d hd) hfits hfails
  · intro hquiet
    refine ⟨fun d hd => (hhosts d hd).micExact, fun d hd => ?_⟩
    refine (hsims d hd).micExact_iff.mpr fun hfits hfails => ?_
    exact hquiet hfits hfails d (List.mem_append_right host hd) (hsims d hd).fromHost

/-- With nothing delivered, there is nothing to flag. -/
theorem Handled.micExact_iff_of_stop {h : Handled} (hdelivered : h.delivered = []) :
    h.MicExact A ↔ h.Quiet A := by
  rw [Handled.MicExact, Handled.Quiet, hdelivered]
  exact iff_of_true nofun fun _ _ => nofun

/-- The first pass of an accepted frame delivers its own packet. -/
theorem Handled.Ready.quiet {h : Handled} {l : RecvLocals} (hready : h.Ready A l) (phy : Phy)
    (rxStart : Bool) :
    ({ h with delivered := h.delivered ++ (deliver phy l rxStart).toList } : Handled).Quiet A := by
  intro hfits hfails d hd hhost
  have haccept : h.accepted A = true := Handled.accepted_iff h |>.mpr hfits
  have hne : l.rxBuf ≠ [] := by
    rw [hready.rxBuf, if_pos haccept]
    exact recvPacketDecrypt_ne_nil hready.frame
  rw [hready.delivered, List.nil_append, Option.mem_toList, deliver] at hd
  obtain ⟨pdu, -, rfl⟩ := Option.map_eq_some_iff.mp hd
  cases (decide_eq_true hne).symm.trans hhost

/-- A later pass keeps quiet if it is not on a data channel, or its packet is rejected. -/
theorem Handled.quiet_pass_iff {h : Handled} {l : RecvLocals} (hl : l.rxBuf = []) (phy : Phy)
    (rxStart : Bool) :
    ({ h with delivered := h.delivered ++ (deliver phy l rxStart).toList } : Handled).Quiet A ↔
      h.Quiet A ∧ (h.FitsChannel → h.MicFails A → ¬ (phy.phyChan < 37 ∧ rxStart = true)) := by
  have hpass : (∀ d ∈ (deliver phy l rxStart).toList, d.fromHost = false → d.rxEnd = none) ↔
      ¬ (phy.phyChan < 37 ∧ rxStart = true) := by
    rw [deliver_empty rxStart hl]
    by_cases hchan : phy.phyChan < 37
    · cases rxStart <;> simp [hchan]
    · simp [hchan]
  have hquiet : ({ h with delivered := h.delivered ++ (deliver phy l rxStart).toList } : Handled).Quiet A ↔
      (h.FitsChannel → h.MicFails A →
        ∀ d ∈ h.delivered ++ (deliver phy l rxStart).toList, d.fromHost = false → d.rxEnd = none) :=
    Iff.rfl
  rw [hquiet, Handled.Quiet, List.forall_mem_append, hpass]
  simp only [imp_and]

/-- While the inner loop runs, the frame it works on comes first. -/
theorem Pump.handled_of_mem {s : Pump} {loop : InnerLoop} (hloop : loop ∈ s.recvLoop) :
    s.handled = loop.handled :: s.ended := by
  rw [Pump.handled, Option.mem_def.mp hloop]
  rfl

/-- Outside the inner loop, all frames have been handled. -/
theorem Pump.handled_of_none {s : Pump} (hnone : s.recvLoop = none) : s.handled = s.ended := by
  rw [Pump.handled, hnone]
  rfl

/-- What a step means for the frames that failed their verification. -/
theorem Pump.quiet_step {s t : Pump} {e : PumpEvent} (hinv : s.Inv A)
    (hen : (pumpSystem A).enabled s e) (hstep : (pumpSystem A).step s e = .ok t) :
    (∀ f ∈ t.handled, f.Quiet A) ↔ (∀ f ∈ s.handled, f.Quiet A) ∧ QuietAfterMicFailure A s e := by
  cases pumpStep_cases hstep with
  | @idle e hcall hnone =>
    refine (and_iff_left ?_).symm
    cases e with
    | next rxStart =>
      intro loop hloop
      rw [hnone rxStart rfl] at hloop
      cases hloop
    | recv | call => trivial
  | stop hframe =>
    rw [Pump.handled_of_mem rfl, Pump.handled_of_none hen, List.forall_mem_cons]
    exact ⟨fun h => ⟨h.2, trivial⟩, fun h => ⟨fun _ _ => nofun, h.1⟩⟩
  | @first rxStart frame phy hframe =>
    have hquiet := (@recvPacketBegin_ready A phy _ hframe).quiet
      (recvPacketBegin A phy frame).2 rxStart
    rw [Pump.handled_of_mem rfl, Pump.handled_of_none hen, List.forall_mem_cons]
    exact ⟨fun h => ⟨h.2, trivial⟩, fun h => ⟨hquiet, h.1⟩⟩
  | @leave rxStart loop hloop hstop =>
    have hready := ((hinv.loop loop hloop).atStop hstop).1
    -- nothing has been delivered before this pass
    have hquiet : loop.handled.Quiet A := by
      rw [Handled.Quiet, hready.delivered]
      exact fun _ _ => nofun
    have hcond : QuietAfterMicFailure A s (.next rxStart) := by
      intro loop' hloop' hdelays
      obtain rfl := Option.mem_unique hloop hloop'
      cases hdelays.symm.trans hstop
    rw [Pump.handled_of_mem rfl, Pump.handled_of_mem hloop, List.forall_mem_cons,
      List.forall_mem_cons]
    exact ⟨fun h => ⟨⟨hquiet, h.2⟩, hcond⟩,
      fun h => ⟨(hready.withFirst s.phy).quiet s.phy rxStart, h.1.2⟩⟩
  | @again rxStart loop l hloop hdelays hl =>
    obtain ⟨hrxBuf, -, -, hlt⟩ := recvPacketNext_some hl
    -- the loop goes on here, so the condition speaks about this pass
    have hcond : QuietAfterMicFailure A s (.next rxStart) ↔ (loop.handled.FitsChannel →
        loop.handled.MicFails A → ¬ (s.phy.phyChan < 37 ∧ rxStart = true)) := by
      constructor
      · refine fun h hfits hfails => h loop hloop hdelays hfits hfails ?_
        cases hsent : s.phy.sentNonEmptyPkt with
        | true => exact .inl rfl
        | false => exact .inr (by simpa [hsent] using hlt)
      · intro h loop' hloop' _ hfits hfails _
        obtain rfl := Option.mem_unique hloop hloop'
        exact h hfits hfails
    have hpass : _ ↔ loop.handled.Quiet A ∧ _ :=
      Handled.quiet_pass_iff (h := loop.handled.endPass s.phy) hrxBuf
        (recvPacketNext s.phy loop.locals).2 rxStart
    rw [Pump.handled_of_mem rfl, Pump.handled_of_mem hloop, List.forall_mem_cons,
      List.forall_mem_cons, hcond]
    exact (and_congr_left fun _ => hpass).trans and_right_comm
  | @finish rxStart loop hloop hdelays hnone =>
    have hlt := recvPacketNext_none hnone
    -- the loop ends here, so the condition is empty
    have hcond : QuietAfterMicFailure A s (.next rxStart) := by
      intro loop' hloop' _ _ _ hgoes
      obtain rfl := Option.mem_unique hloop hloop'
      cases hsent : s.phy.sentNonEmptyPkt with
      | true => simp [hsent] at hlt
      | false =>
        rw [hsent] at hgoes hlt
        exact absurd (hgoes.resolve_left Bool.false_ne_true) hlt
    have hquiet : (loop.handled.endPass s.phy).Quiet A ↔ loop.handled.Quiet A := Iff.rfl
    rw [Pump.handled_of_none rfl, Pump.handled_of_mem hloop, and_iff_left hcond,
      List.forall_mem_cons, List.forall_mem_cons, hquiet]
  | call hrun => exact (and_iff_left trivial).symm

/-- **The flag of a failed verification.** In a run, `ble_ll_rx_end` is given the flag with exactly
the packets of the frames that failed their verification, if and only if in all its steps it is
given no simulated packet on behalf of such a frame. -/
theorem micFailure_exact_iff {es : List PumpEvent} {s : Pump}
    (h : (pumpSystem A).Run .start es s) :
    (∀ f ∈ s.handled, f.MicExact A) ↔
      ((pumpSystem A).restrict (QuietAfterMicFailure A)).Run .start es s := by
  have hexact : ∀ f ∈ s.handled, f.MicExact A ↔ f.Quiet A :=
    (Pump.inv_of_run h).forall_handled (fun _ => Handled.Pumped.micExact_iff)
      fun _ hdelivered _ _ => Handled.micExact_iff_of_stop hdelivered
  rw [forall₂_congr hexact]
  exact h.restrict_iff (fun _ _ _ hinv _ hstep => hinv.step hstep)
    (fun _ _ _ hinv hen hstep => Pump.quiet_step hinv hen hstep) Pump.inv_start
    fun f hf => absurd hf List.not_mem_nil

/-- Encryption is enabled, with a key and an IV of zeros. -/
def encryptedDataChannel : List PumpEvent :=
  onDataChannel ++
    [.call (.encryptEnable (List.replicate 16 0)), .call (.encryptIvSet (List.replicate 8 0))]

/-- A frame that fails its verification, when the link layer rejects the simulated packets after it.
-/
theorem micFailure_exact_iff_rejected :
    plainPumpSystem.Run .start (encryptedDataChannel ++
        takePacket (airPacket 7 2 5 [0, 0, 0, 0, 0]) ++ [.next false])
        (pumpAfter (encryptedDataChannel ++ takePacket (airPacket 7 2 5 [0, 0, 0, 0, 0]) ++
          [.next false])) ∧
      ∀ f ∈ (pumpAfter (encryptedDataChannel ++ takePacket (airPacket 7 2 5 [0, 0, 0, 0, 0]) ++
        [.next false])).handled, f.MicExact (.byteSumTag 16 13 4) :=
  have hrun : plainPumpSystem.Run .start (encryptedDataChannel ++
      takePacket (airPacket 7 2 5 [0, 0, 0, 0, 0]) ++ [.next false]) _ :=
    System.Run.of_exec (by decide +kernel)
  ⟨hrun, (micFailure_exact_iff hrun).mpr (System.Run.of_exec (by decide +kernel))⟩

/-- The flag is given with a simulated packet after such a frame. -/
theorem simulated_micFailure :
    ∃ s, plainPumpSystem.Run .start (encryptedDataChannel ++
        takePacket (airPacket 7 2 5 [0, 0, 0, 0, 0]) ++ [.next true]) s ∧
      ∃ f ∈ s.handled, ∃ d ∈ f.delivered, d.fromHost = false ∧
        d.rxEnd.map RxPdu.micFailure = some true := by
  refine ⟨pumpAfter (encryptedDataChannel ++ takePacket (airPacket 7 2 5 [0, 0, 0, 0, 0]) ++
    [.next true]), ?_, ?_⟩
  · exact System.Run.of_exec (by decide +kernel)
  · decide +kernel

end BleFuzzer.Bridge

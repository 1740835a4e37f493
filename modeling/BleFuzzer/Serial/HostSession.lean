import BleFuzzer.Serial.HostToBridge

/-!
# Sessions of the host driver over the serial channel

A session constructs an `NRF52` object and performs a sequence of its operations. The bytes it
writes are the configuration pair, one frame for each packet, and another configuration pair for
each device reset. The bridge process survives the resets considered here, so its static byte
counter keeps counting and takes only the first pair for a configuration.
-/

namespace BleFuzzer.Serial

open Bridge Driver

/-- An operation of an `NRF52` object. -/
inductive HostOp
  | rawSend (pkt : Bytes)
  | send (pkt : Pkt)
  | resetDevice (attempts : List ResetAttempt)

/-- Perform one operation: the object it leaves and the bytes it writes. -/
def HostOp.run (scapy : Scapy) (self : Nrf52) : HostOp → Except PyErr (Nrf52 × Bytes)
  | .rawSend pkt => do
    let data ← self.rawSend pkt
    return (self, data)
  | .send pkt => self.send scapy pkt
  | .resetDevice attempts => self.resetDevice attempts

/-- Perform operations in order, collecting the bytes they write. -/
def runOps (scapy : Scapy) (self : Nrf52) : List HostOp → Except PyErr (Nrf52 × Bytes)
  | [] => .ok (self, [])
  | op :: ops => do
    let (self, data) ← op.run scapy self
    let (self, rest) ← runOps scapy self ops
    return (self, data ++ rest)

/-- Construct the object and perform operations. -/
def hostSession (scapy : Scapy) (debug logsPcap : Bool) (resetCmd : Option String)
    (ops : List HostOp) : Except PyErr (Nrf52 × Bytes) := do
  let (self, config) ← Nrf52.init debug logsPcap resetCmd
  let (self, data) ← runOps scapy self ops
  return (self, config ++ data)

/-- The CRC-less packet an operation sends. -/
def HostOp.packet? (scapy : Scapy) : HostOp → Option Bytes
  | .rawSend pkt => some (cutCrc pkt)
  | .send pkt => some (cutCrc (scapy.raw pkt))
  | .resetDevice _ => none

/-- The packets a session sends. -/
def sentPackets (scapy : Scapy) (ops : List HostOp) : List Bytes :=
  ops.filterMap (HostOp.packet? scapy)

/-- No operation follows a device reset. -/
def ResetsLast : List HostOp → Prop
  | [] => True
  | .resetDevice _ :: ops => ops = []
  | .rawSend _ :: ops | .send _ :: ops => ResetsLast ops

/-- The bytes an operation writes: a frame, or a configuration pair when there is a reset command.
-/
def HostOp.bytes (scapy : Scapy) (resetCmd : Option String) (op : HostOp) : Bytes :=
  match op.packet? scapy, resetCmd with
  | some p, _ => dataFrame p
  | none, some _ => [0xCC, 0]
  | none, none => []

/-- A write that succeeds was made on an open port, and writes all of its data. -/
theorem write_ok {self : Nrf52} {data out : Bytes} (h : self.write data = .ok out) :
    self.serialOpen = true ∧ out = data := by
  rw [Nrf52.write] at h
  split at h
  case isTrue hopen => exact ⟨hopen, (Except.ok.inj h).symm⟩
  case isFalse => cases h

/-- `set_log_tx` writes two bytes and remembers the value. -/
theorem setLogTx_ok {self self' : Nrf52} {value : UInt8} {out : Bytes}
    (h : self.setLogTx value = .ok (self', out)) :
    self' = { self with pcapTxHandover := value } ∧ out = [0xCC, value] := by
  rw [Nrf52.setLogTx] at h
  match hw : self.write [cmdConfigLogTx, value], h with
  | .ok data, h =>
    obtain ⟨rfl, rfl⟩ := Prod.mk.inj (Except.ok.inj h)
    exact ⟨rfl, (write_ok hw).2⟩

/-- A reset that returns has written one configuration pair. -/
theorem resetLoop_ok {self self' : Nrf52} {attempts : List ResetAttempt} {out : Bytes}
    (h : self.resetLoop attempts = .ok (self', out)) :
    self'.resetCmd = self.resetCmd ∧ out = [0xCC, 0] := by
  induction attempts generalizing self with
  | nil => cases h
  | cons attempt attempts ih =>
    rw [Nrf52.resetLoop] at h
    split at h
    case isTrue => cases h
    case isFalse =>
      split at h
      case isTrue =>
        obtain ⟨rfl, rfl⟩ := setLogTx_ok h
        exact ⟨rfl, rfl⟩
      case isFalse => exact ih h

/-- An operation that returns has written its bytes and kept the reset command. -/
theorem HostOp.run_ok {scapy : Scapy} {self self' : Nrf52} {op : HostOp} {out : Bytes}
    (h : op.run scapy self = .ok (self', out)) :
    self'.resetCmd = self.resetCmd ∧ out = op.bytes scapy self.resetCmd := by
  cases op with
  | rawSend pkt =>
    rw [HostOp.run] at h
    cases hw : self.rawSend pkt with
    | error e =>
      rw [hw] at h
      cases h
    | ok data =>
      rw [hw] at h
      obtain ⟨rfl, rfl⟩ := Prod.mk.inj (Except.ok.inj h)
      exact ⟨rfl, (write_ok hw).2⟩
  | send pkt =>
    rw [HostOp.run, Nrf52.send] at h
    cases hw : self.rawSend (scapy.raw pkt) with
    | error e =>
      rw [hw] at h
      cases h
    | ok data =>
      rw [hw] at h
      have hdata := (write_ok hw).2
      change (if _ then _ else _) = _ at h
      split at h
      all_goals
        obtain ⟨rfl, rfl⟩ := Prod.mk.inj (Except.ok.inj h)
        exact ⟨rfl, hdata⟩
  | resetDevice attempts =>
    rw [HostOp.run, Nrf52.resetDevice] at h
    cases hcmd : self.resetCmd with
    | none =>
      rw [hcmd] at h
      obtain ⟨rfl, rfl⟩ := Prod.mk.inj (Except.ok.inj h)
      exact ⟨hcmd, rfl⟩
    | some cmd =>
      rw [hcmd] at h
      obtain ⟨hkeep, rfl⟩ := resetLoop_ok h
      exact ⟨hkeep.trans hcmd, rfl⟩

/-- The bytes of operations that succeed are those of each, one after the other. -/
theorem runOps_ok {scapy : Scapy} {self self' : Nrf52} {ops : List HostOp} {out : Bytes}
    (h : runOps scapy self ops = .ok (self', out)) :
    out = (ops.map (HostOp.bytes scapy self.resetCmd)).flatten := by
  induction ops generalizing self out with
  | nil =>
    obtain ⟨-, rfl⟩ := Prod.mk.inj (Except.ok.inj h)
    rfl
  | cons op ops ih =>
    rw [runOps] at h
    match hop : op.run scapy self, h with
    | .ok (self₁, data), h =>
      obtain ⟨hcmd, rfl⟩ := HostOp.run_ok hop
      change (runOps scapy self₁ ops >>= _) = _ at h
      match hops : runOps scapy self₁ ops, h with
      | .ok (self₂, rest), h =>
        obtain ⟨rfl, rfl⟩ := Prod.mk.inj (Except.ok.inj h)
        rw [ih hops, hcmd, List.map_cons, List.flatten_cons]

/-- The wire of a session: one configuration pair, then the bytes of its operations. -/
theorem hostSession_ok {scapy : Scapy} {debug logsPcap : Bool} {resetCmd : Option String}
    {ops : List HostOp} {self : Nrf52} {wire : Bytes}
    (h : hostSession scapy debug logsPcap resetCmd ops = .ok (self, wire)) :
    wire = [0xCC, 0] ++ (ops.map (HostOp.bytes scapy resetCmd)).flatten := by
  rw [hostSession] at h
  match hinit : Nrf52.init debug logsPcap resetCmd, h with
  | .ok (self₀, config), h =>
    obtain ⟨rfl, rfl⟩ := setLogTx_ok hinit
    change (runOps scapy _ ops >>= _) = _ at h
    match hops : runOps scapy _ ops, h with
    | .ok (self₁, data), h =>
      obtain rfl := runOps_ok hops
      obtain ⟨-, rfl⟩ := Prod.mk.inj (Except.ok.inj h)
      rfl

/-! ## Splitting a session at a reset -/

/-- A reset at the end leaves at most three bytes behind the frames. -/
theorem bytes_of_resetsLast {scapy : Scapy} {cmd : String} {ops : List HostOp}
    (h : ResetsLast ops) :
    ∃ tail : Bytes, tail.length ≤ 3 ∧ (ops.map (HostOp.bytes scapy (some cmd))).flatten =
      hostFraming.encodeAll (sentPackets scapy ops) ++ tail := by
  induction ops with
  | nil => exact ⟨[], by simp, rfl⟩
  | cons op ops ih =>
    cases op with
    | resetDevice attempts =>
      obtain rfl : ops = [] := h
      exact ⟨[0xCC, 0], by simp, rfl⟩
    | rawSend pkt | send pkt =>
      obtain ⟨tail, hlen, htail⟩ := ih h
      refine ⟨tail, hlen, ?_⟩
      rw [List.map_cons, List.flatten_cons, htail, ← List.append_assoc]
      rfl

/-- A reset followed by an operation puts a configuration pair between frames, with at least two
bytes after it. -/
theorem bytes_of_not_resetsLast {scapy : Scapy} {cmd : String} {ops : List HostOp}
    (h : ¬ ResetsLast ops) :
    ∃ frames x y more, (∀ p ∈ frames, p ∈ sentPackets scapy ops) ∧
      (ops.map (HostOp.bytes scapy (some cmd))).flatten =
        hostFraming.encodeAll frames ++ [0xCC, 0] ++ x :: y :: more := by
  induction ops with
  | nil => exact absurd trivial h
  | cons op ops ih =>
    cases op with
    | resetDevice attempts =>
      match ops, h with
      | [], h => exact absurd rfl h
      | op' :: ops, _ =>
        -- whatever follows the reset writes two bytes or more
        obtain ⟨x, y, more, hbytes⟩ : ∃ x y more, op'.bytes scapy (some cmd) = x :: y :: more := by
          cases op' with
          | rawSend pkt | send pkt => exact ⟨_, _, _, rfl⟩
          | resetDevice attempts' => exact ⟨_, _, [], rfl⟩
        refine ⟨[], x, y, more ++ (ops.map (HostOp.bytes scapy (some cmd))).flatten, by simp, ?_⟩
        rw [List.map_cons, List.map_cons, List.flatten_cons, List.flatten_cons, hbytes]
        rfl
    | rawSend pkt | send pkt =>
      obtain ⟨frames, x, y, more, hmem, hbytes⟩ := ih h
      refine ⟨_ :: frames, x, y, more,
        List.forall_mem_cons.mpr ⟨List.mem_cons_self, fun p hp => List.mem_cons_of_mem _ (hmem p hp)⟩,
        ?_⟩
      rw [List.map_cons, List.flatten_cons, hbytes, Framing.encodeAll_cons]
      simp only [List.append_assoc]
      rfl

/-! ## The results -/

/-- **The host-to-bridge channel delivers.** After the configuration pair and any frames of
`raw_send`, fewer than `2 ^ 32` bytes in all, no interleaving of reception and extraction trips an
assertion, the packets are extracted byte for byte and in order, a complete frame at the head of the
buffer is always announced to the task, and none is left behind when the channel is idle. -/
theorem rawSend_delivers (scapy : Scapy) (debug logsPcap : Bool) (resetCmd : Option String)
    (pkts : List Bytes) (hpkts : ∀ pkt ∈ pkts, HostPacket (cutCrc pkt)) (self : Nrf52) (wire : Bytes)
    (hhost : hostSession scapy debug logsPcap resetCmd (pkts.map .rawSend) = .ok (self, wire))
    (hlen : wire.length < 2 ^ 32) : RxDelivers wire (pkts.map cutCrc) := by
  have hbytes : ((pkts.map HostOp.rawSend).map (HostOp.bytes scapy resetCmd)).flatten =
      hostFraming.encodeAll (pkts.map cutCrc) ++ [] := by
    rw [List.append_nil, Framing.encodeAll, List.map_map, List.map_map]
    rfl
  obtain rfl := hostSession_ok hhost
  rw [hbytes] at hlen ⊢
  refine rxDelivers_frames 0 (pkts.map cutCrc) [] ?_ (by simp) (by omega)
  simpa using hpkts

/-- A session with a packet of nine bytes, whose CRC-less part is six bytes long, and a longer one.
-/
theorem rawSend_delivers_two :
    RxDelivers ([0xCC, 0] ++ dataFrame [1, 2, 3, 4, 1, 0] ++ dataFrame [1, 2, 3, 4, 2, 2, 0xA7, 0xCC])
      [[1, 2, 3, 4, 1, 0], [1, 2, 3, 4, 2, 2, 0xA7, 0xCC]] :=
  rawSend_delivers ⟨fun _ => [], fun _ => ⟨[]⟩, fun _ => ⟨[]⟩, fun _ => []⟩ false false none
    [[1, 2, 3, 4, 1, 0, 0, 0, 0], [1, 2, 3, 4, 2, 2, 0xA7, 0xCC, 0, 0, 0]]
    (by simp [HostPacket, cutCrc, rxBufSize]) _ _ rfl (by decide)

/-- **Resets of a running bridge.** For every session whose packets the bridge can take and whose
reset command succeeds without restarting the bridge, no more than `2 ^ 32` bytes in all, the
channel delivers if and only if no operation follows a reset. -/
theorem reset_delivers_iff (scapy : Scapy) (debug logsPcap : Bool) (cmd : String)
    (ops : List HostOp) (hpkts : ∀ p ∈ sentPackets scapy ops, HostPacket p) (self : Nrf52)
    (wire : Bytes) (hhost : hostSession scapy debug logsPcap (some cmd) ops = .ok (self, wire))
    (hlen : wire.length ≤ 2 ^ 32) : RxDelivers wire (sentPackets scapy ops) ↔ ResetsLast ops := by
  obtain rfl := hostSession_ok hhost
  constructor
  · intro hdelivers
    by_contra hresets
    -- the configuration pair reaches the bridge between two frames
    obtain ⟨frames, x, y, more, hframes, hbytes⟩ :=
      @bytes_of_not_resetsLast scapy cmd _ hresets
    rw [hbytes] at hlen hdelivers
    simp only [List.length_append, List.length_cons] at hlen
    refine not_safe_of_stray 0 0 frames (fun p hp => hpkts p (hframes p hp)) x y more ?_ ?_
    · simp only [List.length_append, List.length_cons]
      omega
    · rw [List.append_assoc]
      exact hdelivers.safe
  · intro hresets
    obtain ⟨tail, htail, hbytes⟩ := @bytes_of_resetsLast scapy cmd _ hresets
    rw [hbytes] at hlen ⊢
    exact rxDelivers_frames 0 (sentPackets scapy ops) tail hpkts htail (by omega)

/-- Two packets and a reset at the end of the session. -/
theorem reset_delivers_iff_last :
    RxDelivers ([0xCC, 0] ++ dataFrame [1, 2, 3, 4, 1, 0] ++ dataFrame [1, 2, 3, 4, 2, 2, 0xA7, 0xCC] ++
        [0xCC, 0]) [[1, 2, 3, 4, 1, 0], [1, 2, 3, 4, 2, 2, 0xA7, 0xCC]] ↔
      ResetsLast [.rawSend [1, 2, 3, 4, 1, 0, 0, 0, 0],
        .rawSend [1, 2, 3, 4, 2, 2, 0xA7, 0xCC, 0, 0, 0], .resetDevice [⟨0, true⟩]] :=
  reset_delivers_iff ⟨fun _ => [], fun _ => ⟨[]⟩, fun _ => ⟨[]⟩, fun _ => []⟩ false false
    "scripts/reset_ci.sh" [.rawSend [1, 2, 3, 4, 1, 0, 0, 0, 0],
      .rawSend [1, 2, 3, 4, 2, 2, 0xA7, 0xCC, 0, 0, 0], .resetDevice [⟨0, true⟩]]
    (by simp [sentPackets, HostOp.packet?, HostPacket, cutCrc, rxBufSize]) _ _ rfl (by decide)

/-- A reset before the first packet: the bridge reads the second configuration pair as the start of
a frame. -/
theorem reset_first_not_delivers :
    ∃ (scapy : Scapy) (self : Nrf52) (wire : Bytes),
      hostSession scapy false false (some "scripts/reset_ci.sh")
        [.resetDevice [⟨0, true⟩], .rawSend [1, 2, 3, 4, 1, 0, 0, 0, 0]] = .ok (self, wire) ∧
      ¬ RxDelivers wire [[1, 2, 3, 4, 1, 0]] := by
  refine ⟨⟨fun _ => [], fun _ => ⟨[]⟩, fun _ => ⟨[]⟩, fun _ => []⟩, _, _, rfl, fun h => ?_⟩
  exact not_safe_of_stray 0 0 [] (by simp) 0xA7 6 [0, 1, 2, 3, 4, 1, 0, 11] (by decide) h.safe

end BleFuzzer.Serial

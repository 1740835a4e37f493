import BleFuzzer.Bridge.Pump

/-!
# The result code of `recv_packet`

`rc` is declared in the body of the inner loop and assigned where `ble_ll_rx_start` is called, which
only happens with a packet at hand. The wait for `ll_state` after it reads `rc` in every pass.
Between two passes other tasks run, so each pass meets globals of its own.
-/

namespace BleFuzzer.Bridge

variable (A : Aead 16 13 4)

/-- What a pass of the inner loop meets. -/
structure PassInput where
  /-- The globals when the pass starts. -/
  phy : Phy
  /-- The result of `ble_ll_rx_start`, should it be called. -/
  rxStart : ℤ
  /-- The globals after the delays of the pass. -/
  after : Phy

/-- `rc` as the wait for `ll_state` reads it: `none` when it has no value. -/
def recvPacketRc (phy : Phy) (l : RecvLocals) (rxStart : ℤ) : Option ℤ :=
  (recvPacketPdu phy (recvPacketPrepare phy l)).map fun _ => rxStart

/-- What each pass of the inner loop reads, for as many passes as there are inputs. -/
def recvPacketPasses : RecvLocals → List PassInput → List (Option ℤ)
  | _, [] => []
  | l, p :: ps =>
    recvPacketRc p.phy l p.rxStart ::
      match (recvPacketNext p.after (recvPacketPrepare p.phy l)).1 with
      | none => []
      | some l' => recvPacketPasses l' ps

/-- The same on behalf of a frame. -/
def recvPacketRcs (phy : Phy) (frame : Bytes) (ps : List PassInput) : List (Option ℤ) :=
  recvPacketPasses (recvPacketBegin A phy frame).1 ps

/-! ## When there is a packet in every pass -/

/-- The passes that are made from a value of the loop counter on. It starts over after a pass in
which a non-empty packet was sent. -/
def passesMade : ℕ → List PassInput → List PassInput
  | _, [] => []
  | iPkt, p :: ps =>
    let iPkt := if p.after.sentNonEmptyPkt then 0 else iPkt
    p :: if iPkt + 1 < 6 then passesMade (iPkt + 1) ps else []

/-- The frame is for the kind of channel the radio is tuned to. -/
def ForTuned (phy : Phy) (frame : Bytes) : Prop :=
  phy.phyChan < 37 ↔ accessAddr frame ≠ advAccessAddress

instance (phy : Phy) (frame : Bytes) : Decidable (ForTuned phy frame) :=
  inferInstanceAs (Decidable (_ ↔ _))

/-- Every pass is on a data channel, except for the first one if the frame, when it was taken, was
for the channel the radio was tuned to. -/
def OnDataChannel (phy : Phy) (frame : Bytes) : List PassInput → Prop
  | [] => True
  | p :: ps => (ForTuned phy frame ∨ p.phy.phyChan < 37) ∧ ∀ q ∈ ps, q.phy.phyChan < 37

variable {A}

/-- Without a packet at hand, one is only made up on a data channel. -/
theorem recvPacketRc_empty {phy : Phy} {l : RecvLocals} (hl : l.rxBuf = []) (rxStart : ℤ) :
    (recvPacketRc phy l rxStart).isSome = true ↔ phy.phyChan < 37 := by
  rw [recvPacketRc, Option.isSome_map, recvPacketPdu]
  by_cases hchan : phy.phyChan < 37
  · rw [recvPacketPrepare_empty hl hchan, if_neg (by simp)]
    exact iff_of_true rfl hchan
  · have hprepare : (recvPacketPrepare phy l).rxBuf = [] := by
      rw [recvPacketPrepare_rxBuf fun h => hchan h.2, hl]
      exact ite_self []
    rw [if_pos hprepare]
    exact iff_of_false Bool.false_ne_true hchan

/-- A packet at hand is given to the link layer. -/
theorem recvPacketRc_packet {phy : Phy} {l : RecvLocals} (hl : l.rxBuf ≠ []) (rxStart : ℤ) :
    (recvPacketRc phy l rxStart).isSome = true := by
  have hprepare : (recvPacketPrepare phy l).rxBuf ≠ [] := by
    rw [recvPacketPrepare_rxBuf fun h => hl h.1]
    split
    · exact hl
    · intro hnil
      have hlength := congrArg List.length hnil
      rw [List.length_modify] at hlength
      exact hl (List.eq_nil_of_length_eq_zero hlength)
  rw [recvPacketRc, Option.isSome_map, recvPacketPdu, if_neg hprepare]
  rfl

/-- The passes after one, if it was not the last. -/
theorem recvPacketPasses_cons (l : RecvLocals) (p : PassInput) (ps : List PassInput) :
    ∃ l' : RecvLocals, l'.rxBuf = [] ∧
      recvPacketPasses l (p :: ps) = recvPacketRc p.phy l p.rxStart ::
        (if l'.iPkt < 6 then recvPacketPasses l' ps else []) ∧
      passesMade l.iPkt (p :: ps) = p :: if l'.iPkt < 6 then passesMade l'.iPkt ps else [] := by
  obtain ⟨-, hiPkt⟩ := recvPacketPrepare_kept p.phy l
  refine ⟨{ recvPacketPrepare p.phy l with
    rxBuf := []
    iPkt := (if p.after.sentNonEmptyPkt then 0 else (recvPacketPrepare p.phy l).iPkt) + 1 },
    rfl, ?_, ?_⟩
  · rw [recvPacketPasses, recvPacketNext]
    dsimp only
    by_cases hlt : (if p.after.sentNonEmptyPkt then 0 else (recvPacketPrepare p.phy l).iPkt) + 1 < 6
    · rw [if_pos hlt, if_pos hlt]
    · rw [if_neg hlt, if_neg hlt]
  · rw [passesMade, hiPkt]

/-- Once the packet of the frame is gone, only data channels have packets. -/
theorem recvPacketPasses_empty {l : RecvLocals} (hl : l.rxBuf = []) (ps : List PassInput) :
    (∀ rc ∈ recvPacketPasses l ps, rc.isSome = true) ↔
      ∀ q ∈ passesMade l.iPkt ps, q.phy.phyChan < 37 := by
  induction ps generalizing l with
  | nil => exact iff_of_true (List.forall_mem_nil _) (List.forall_mem_nil _)
  | cons p ps ih =>
    obtain ⟨l', hl', hpasses, hmade⟩ := recvPacketPasses_cons l p ps
    rw [hpasses, hmade, List.forall_mem_cons, List.forall_mem_cons, recvPacketRc_empty hl]
    refine and_congr_right fun _ => ?_
    split
    · exact ih hl'
    · exact iff_of_true (List.forall_mem_nil _) (List.forall_mem_nil _)

/-- **When `recv_packet` never reads an unset result code**, for every frame and everything that can
happen to the globals meanwhile. -/
theorem rc_assigned_iff (phy : Phy) (frame : Bytes) (hframe : 6 ≤ frame.length)
    (ps : List PassInput) :
    (∀ rc ∈ recvPacketRcs A phy frame ps, rc.isSome = true) ↔
      OnDataChannel phy frame (passesMade 0 ps) := by
  cases ps with
  | nil => exact iff_of_true (List.forall_mem_nil _) trivial
  | cons p ps =>
    have hne : frame ≠ [] := List.ne_nil_of_length_pos (by omega)
    obtain ⟨l', hl', hpasses, hmade⟩ :=
      recvPacketPasses_cons (recvPacketBegin A phy frame).1 p ps
    have hmade : passesMade 0 (p :: ps) = p :: if l'.iPkt < 6 then passesMade l'.iPkt ps else [] :=
      hmade
    have haccepts : recvPacketAccepts phy (recvPacketDecrypt A phy frame).2 = true ↔
        ForTuned phy frame := by
      rw [recvPacketAccepts_iff, recvPacketDecrypt_accessAddr, ForTuned]
    have hfirst : (recvPacketRc p.phy (recvPacketBegin A phy frame).1 p.rxStart).isSome = true ↔
        ForTuned phy frame ∨ p.phy.phyChan < 37 := by
      have hrxBuf : (recvPacketBegin A phy frame).1.rxBuf =
          if recvPacketAccepts phy (recvPacketDecrypt A phy frame).2 then
            (recvPacketDecrypt A phy frame).2 else [] := rfl
      by_cases htuned : ForTuned phy frame
      · rw [if_pos (haccepts.mpr htuned)] at hrxBuf
        refine iff_of_true (recvPacketRc_packet ?_ _) (.inl htuned)
        rw [hrxBuf]
        exact recvPacketDecrypt_ne_nil hne
      · rw [if_neg fun h => htuned (haccepts.mp h)] at hrxBuf
        rw [recvPacketRc_empty hrxBuf, or_iff_right htuned]
    have hlater : (∀ rc ∈ (if l'.iPkt < 6 then recvPacketPasses l' ps else []), rc.isSome = true) ↔
        ∀ q ∈ (if l'.iPkt < 6 then passesMade l'.iPkt ps else []), q.phy.phyChan < 37 := by
      split
      · exact recvPacketPasses_empty hl' ps
      · exact iff_of_true (List.forall_mem_nil _) (List.forall_mem_nil _)
    rw [recvPacketRcs, hpasses, hmade, OnDataChannel, List.forall_mem_cons]
    exact and_congr hfirst hlater

/-! ## Two frames -/

/-- A frame with an advertising PDU of a given type. -/
def advFrame (hdrByte length : UInt8) : Bytes :=
  leBytes 4 advAccessAddress ++ [hdrByte, length] ++ List.replicate length.toNat 0

/-- A pass on an advertising channel in which nothing is sent. -/
def advPass : PassInput where
  phy := { blePhyInit with phyChan := 37 }
  rxStart := 0
  after := { blePhyInit with phyChan := 37 }

/-- A pass on a data channel in which nothing is sent. -/
def dataPass : PassInput where
  phy := { blePhyInit with phyChan := 8 }
  rxStart := 0
  after := { blePhyInit with phyChan := 8 }

/-- A `SCAN_REQ` is accepted on an advertising channel, and in the second pass nothing is left to
assign `rc` for. -/
theorem rc_not_always_assigned :
    ¬ ∀ (A : Aead 16 13 4) (phy : Phy) (frame : Bytes) (ps : List PassInput), 6 ≤ frame.length →
      ∀ rc ∈ recvPacketRcs A phy frame ps, rc.isSome = true := by
  intro h
  have hunset : none ∈
      recvPacketRcs (.byteSumTag 16 13 4) advPass.phy (advFrame 3 12) [advPass, advPass] := by decide
  exact absurd (h _ _ _ _ (by decide) none hunset) (by decide)

/-- A `CONNECT_IND` after which the link layer has switched to a data channel. -/
theorem rc_assigned_iff_connect :
    6 ≤ (advFrame 5 34).length ∧
      ∀ rc ∈ recvPacketRcs (.byteSumTag 16 13 4) advPass.phy (advFrame 5 34)
        (advPass :: List.replicate 5 dataPass), rc.isSome = true :=
  have hframe : 6 ≤ (advFrame 5 34).length := by decide
  ⟨hframe, (rc_assigned_iff advPass.phy (advFrame 5 34) hframe
    (advPass :: List.replicate 5 dataPass)).mpr ⟨.inl (by decide), by decide⟩⟩

end BleFuzzer.Bridge

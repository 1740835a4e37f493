import BleFuzzer.Mapper.Effects

/-!
# When the mapper switches the encryption on

`encrypted` becomes true in one place, where `ll_ctrl_enc_req` receives an `LL_START_ENC_REQ`.
`exchange` reads off the log which `LL_ENC_RSP` precedes it in the same step, and what has happened
since. The invariant `Tracks` says what the context of the encryption then is: no assignment outside
`ll_ctrl_enc_req` breaks it, and each pass of its loop restores it.
-/

namespace BleFuzzer.Mapper

open Driver Exec

variable {τ : Type} (lib : Lib τ) (cls : MapperClass)

/-- The encryption exchange of the current step. -/
structure Exchange where
  /-- `skds` and `ivs` of the last `LL_ENC_RSP` received since `LL_CTRL_ENC_REQ` was sent. -/
  encRsp : Option (ℕ × ℕ)
  /-- Whether no packet was encrypted or decrypted since. -/
  fresh : Bool
  /-- Whether that `LL_ENC_RSP` came while the encryption was off, and no other long-term key has
  been enabled after it. -/
  keyed : Bool
deriving DecidableEq

def Exchange.next (x : Exchange) : Event → Exchange
  | .reset | .exec _ => ⟨none, false, false⟩
  | .encReq => ⟨none, true, false⟩
  | .encRsp skds ivs encrypted => ⟨some (skds, ivs), x.fresh, !encrypted⟩
  | .encrypt | .decrypt => { x with fresh := false }
  | .ltk _ => { x with keyed := false }
  | _ => x

/-- The exchange that a log ends with. -/
def exchange (log : List Event) : Exchange := log.foldl Exchange.next ⟨none, false, false⟩

@[simp] theorem exchange_append (log : List Event) (e : Event) :
    exchange (log ++ [e]) = (exchange log).next e := by
  simp only [exchange, List.foldl_append, List.foldl_cons, List.foldl_nil]

/-- A step of the object from `w` to `w'` switches the encryption on with the context of the
exchange before it. -/
structure InContext (w w' : World τ) : Prop where
  counters : w'.self.encTxPktCount = 0 ∧ w'.self.encRxPktCount = 0
  /-- An `LL_ENC_RSP` has been received since the request, and the object has its `skds` and `ivs`.
  -/
  encRsp : ∃ skds ivs, (exchange w.log).encRsp = some (skds, ivs) ∧
    leBytes 8 skds <:+ w'.self.connSkd ∧ leBytes 4 ivs <:+ w'.self.connIv
  sessionKey : btCryptoE lib w'.self.connLtk.reverse w'.self.connSkd.reverse =
    .ok w'.self.connSessionKey

/-- Switching on in context, when the exchange has gone through undisturbed. -/
def SwitchesInContext (w w' : World τ) : Prop :=
  w.self.encrypted = false → w'.self.encrypted = true →
    (exchange w.log).fresh = true → (exchange w.log).keyed = true → InContext lib w w'

/-- What the exchange says about the object. -/
structure Tracks (w : World τ) : Prop where
  fresh : (exchange w.log).fresh = true → w.self.encTxPktCount = 0 ∧ w.self.encRxPktCount = 0
  encRsp : ∀ skds ivs, (exchange w.log).encRsp = some (skds, ivs) →
    leBytes 8 skds <:+ w.self.connSkd ∧ leBytes 4 ivs <:+ w.self.connIv
  keyed : (exchange w.log).keyed = true → (exchange w.log).encRsp.isSome = true ∧
    btCryptoE lib w.self.connLtk.reverse w.self.connSkd.reverse = .ok w.self.connSessionKey

/-- A step starts without an exchange. -/
theorem tracks_exec {w : World τ} {sym : InputSymbol} (h : ∃ log, w.log = log ++ [.exec sym]) :
    Tracks lib w := by
  obtain ⟨log, hlog⟩ := h
  have hnone : exchange w.log = ⟨none, false, false⟩ := by
    rw [hlog, exchange_append]
    rfl
  refine ⟨?_, ?_, ?_⟩ <;> simp [hnone]

/-! ## One assignment -/

variable {lib} {cls}

/-- What does not set the flag, switches nothing on. -/
theorem switchesInContext_of_keeps {w w' : World τ}
    (h : w'.self.encrypted = true → w.self.encrypted = true) : SwitchesInContext lib w w' :=
  fun hoff hon => absurd (h hon) (by simp [hoff])

/-- Outside `ll_ctrl_enc_req`, nothing below `step_internal` sets it. -/
theorem Assign.switchesInContext {w w' : World τ} (h : Assign lib w w') :
    SwitchesInContext lib w w' := by
  refine switchesInContext_of_keeps ?_
  cases h with
  | encryptionOff => exact fun hon => nomatch hon
  | _ => exact id

/-- Nor do the assignments of a test. -/
theorem TestAssign.switchesInContext {w w' : World τ} (h : TestAssign w w') :
    SwitchesInContext lib w w' := by
  refine switchesInContext_of_keeps ?_
  cases h with
  | reset => exact fun hon => nomatch hon
  | _ => exact id

/-- Outside `ll_ctrl_enc_req`, the only assignments that concern an exchange are those that end its
being fresh or keyed. -/
theorem Assign.tracks {w w' : World τ} (h : Assign lib w w') (hw : Tracks lib w) :
    Tracks lib w' := by
  obtain ⟨hfresh, hencRsp, hkeyed⟩ := hw
  cases h
  case encrypt | decrypt =>
    refine ⟨?_, ?_, ?_⟩
    · intro h
      simp [Exchange.next] at h
    · simpa [Exchange.next] using hencRsp
    · simpa [Exchange.next] using hkeyed
  case ltk =>
    refine ⟨?_, ?_, ?_⟩
    · simpa [Exchange.next] using hfresh
    · simpa [Exchange.next] using hencRsp
    · intro h
      simp [Exchange.next] at h
  all_goals
    refine ⟨?_, ?_, ?_⟩
    · simpa [Exchange.next] using hfresh
    · simpa [Exchange.next] using hencRsp
    · simpa [Exchange.next] using hkeyed

/-- A program that makes only these assignments switches nothing on and keeps track. -/
theorem tracks_of_steps {α : Type} {m : Program τ α} (h : Steps (Assign lib) m) :
    Triple (Tracks lib) (SwitchesInContext lib) m fun _ => Tracks lib :=
  (h.triple fun _ _ hassign => hassign.tracks).conseq (fun _ => id)
    (fun _ _ hassign => hassign.switchesInContext) (fun _ _ => id)

/-! ## `ll_ctrl_enc_req` -/

/-- An `LL_ENC_RSP` has been taken up as far as the SKD. -/
structure TakesEncRsp (skds ivs : ℕ) (w : World τ) : Prop where
  fresh : (exchange w.log).fresh = true → w.self.encTxPktCount = 0 ∧ w.self.encRxPktCount = 0
  encRsp : (exchange w.log).encRsp = some (skds, ivs)
  keyed : (exchange w.log).keyed = !w.self.encrypted
  connSkd : leBytes 8 skds <:+ w.self.connSkd

/-- With the IV, and the session key where one is computed, the `LL_ENC_RSP` is the one tracked. -/
theorem TakesEncRsp.tracks {skds ivs : ℕ} {w : World τ} (h : TakesEncRsp skds ivs w)
    (hiv : leBytes 4 ivs <:+ w.self.connIv)
    (hkey : w.self.encrypted = false →
      btCryptoE lib w.self.connLtk.reverse w.self.connSkd.reverse = .ok w.self.connSessionKey) :
    Tracks lib w where
  fresh := h.fresh
  encRsp skds' ivs' hrsp := by
    obtain ⟨rfl, rfl⟩ := Prod.mk.inj (Option.some.inj (h.encRsp.symm.trans hrsp))
    exact ⟨h.connSkd, hiv⟩
  keyed hkeyed := by
    have hoff : w.self.encrypted = false := by
      rw [h.keyed] at hkeyed
      simpa using hkeyed
    exact ⟨by rw [h.encRsp]; rfl, hkey hoff⟩

/-- An `LL_ENC_RSP` keeps track, but between its assignments. -/
theorem handleEncRsp_tracks (skds ivs : ℕ) :
    Triple (Tracks lib) (SwitchesInContext lib) (handleEncRsp lib skds ivs : Program τ Unit)
      fun _ => Tracks lib := by
  refine .bind (Q := fun skdsBytes w => skdsBytes = leBytes 8 skds ∧ Tracks lib w)
    (.lift fun _ hpack w hw => ⟨structPack_inj hpack, hw⟩) fun skdsBytes => ?_
  refine getSelf_bind_triple fun w hw => ?_
  obtain ⟨rfl, hw⟩ := hw
  -- between the assignments of SKD and IV the exchange and the object disagree
  refine .bind (Q := fun _ => TakesEncRsp skds ivs) (.modify ?_) fun _ => ?_
  · rintro w' rfl
    refine ⟨switchesInContext_of_keeps id, ?_, ?_, ?_, List.suffix_append _ _⟩
    · simpa [Exchange.next] using hw.fresh
    · simp [Exchange.next]
    · simp [Exchange.next]
  refine .bind (Q := fun ivsBytes w => ivsBytes = leBytes 4 ivs ∧ TakesEncRsp skds ivs w)
    (.lift fun _ hpack w hw => ⟨structPack_inj hpack, hw⟩) fun ivsBytes => ?_
  refine .bind (Q := fun _ w => TakesEncRsp skds ivs w ∧ leBytes 4 ivs <:+ w.self.connIv)
    (.modify ?_) fun _ => ?_
  · rintro w ⟨rfl, hw⟩
    exact ⟨switchesInContext_of_keeps id, ⟨hw.fresh, hw.encRsp, hw.keyed, hw.connSkd⟩,
      List.suffix_append _ _⟩
  refine getSelf_bind_triple fun w hw => ?_
  obtain ⟨hw, hiv⟩ := hw
  by_cases henc : w.self.encrypted = true
  · rw [henc]
    refine .pure ?_
    rintro w' rfl
    exact hw.tracks hiv fun hoff => absurd hoff (by simp [henc])
  · rw [Bool.not_eq_true] at henc
    rw [henc]
    refine .bind (Q := fun key w' => w' = w ∧
      btCryptoE lib w.self.connLtk.reverse w.self.connSkd.reverse = .ok key) (.lift ?_) fun key => ?_
    · rintro key hkey w' rfl
      exact ⟨rfl, hkey⟩
    · refine .modify ?_
      rintro w' ⟨rfl, hkey⟩
      have htaken : TakesEncRsp skds ivs
          { w' with self := { w'.self with connSessionKey := key } } :=
        ⟨hw.fresh, hw.encRsp, hw.keyed, hw.connSkd⟩
      exact ⟨switchesInContext_of_keeps id, htaken.tracks hiv fun _ => hkey⟩

/-- The one place where the encryption is switched on. -/
theorem startEncReq_tracks :
    Triple (Tracks lib) (SwitchesInContext lib)
      (modifySelf fun self => { self with encrypted := true } : Program τ Unit)
      fun _ => Tracks lib := by
  refine .modify fun w hw => ⟨fun _ _ hfresh hkeyed => ?_, hw.fresh, hw.encRsp, hw.keyed⟩
  obtain ⟨hrsp, hkey⟩ := hw.keyed hkeyed
  obtain ⟨⟨skds, ivs⟩, hrsp⟩ := Option.isSome_iff_exists.mp hrsp
  exact ⟨hw.fresh hfresh, ⟨skds, ivs, hrsp, hw.encRsp skds ivs hrsp⟩, hkey⟩

/-- The loop of `ll_ctrl_enc_req`, by induction on its bound. -/
theorem encReqLoop_tracks (timeStart : ℤ) (bound : ℕ) (pkt : Pkt) (resPkts : List Pkt) :
    Triple (Tracks lib) (SwitchesInContext lib) (encReqLoop lib cls timeStart bound pkt resPkts)
      fun _ => Tracks lib := by
  induction bound generalizing pkt resPkts with
  | zero => exact .throw
  | succ bound ih =>
    refine (tracks_of_steps time_steps).bind fun timeNow => ?_
    refine (tracks_of_steps (isRspComplete_steps _ _ _ _ _)).bind fun complete => ?_
    split
    · exact .pure fun _ hw => hw
    · refine (tracks_of_steps (receive_steps _ _ _ _)).bind fun pkts => ?_
      match pkts with
      | [] => exact ih _ _
      | pkt :: _ =>
        have hloop := ih pkt (resPkts ++ [pkt])
        dsimp only
        split
        · exact (handleEncRsp_tracks _ _).bind fun _ => hloop
        · split
          · exact startEncReq_tracks.bind fun _ => hloop
          · exact hloop

/-- The exchange is fresh where the loop starts. -/
theorem llCtrlEncReq_tracks (pkt : Pkt) :
    Triple (Tracks lib) (SwitchesInContext lib) (llCtrlEncReq lib cls pkt) fun _ => Tracks lib := by
  refine (tracks_of_steps (send_steps _)).bind fun _ => ?_
  refine .bind (Q := fun _ => Tracks lib) (.modify fun w _ => ?_) fun _ => ?_
  · refine ⟨switchesInContext_of_keeps id, fun _ => ⟨rfl, rfl⟩, ?_, ?_⟩ <;> simp [Exchange.next]
  · refine (tracks_of_steps time_steps).bind fun timeStart => ?_
    refine .get_bind fun w hw => ?_
    refine ((encReqLoop_tracks _ _ _ _).pre ?_).bind fun resPkts =>
      tracks_of_steps (outputSymbol_steps _)
    rintro w' rfl
    exact hw

/-- An input symbol that has just been logged switches on in context. -/
theorem performSymbol_switchesInContext (sym : InputSymbol) (pkt : Pkt) :
    Triple (fun w => ∃ log, w.log = log ++ [.exec sym]) (SwitchesInContext lib)
      (performSymbol lib cls sym pkt) fun _ _ => True := by
  have htracks : Triple (Tracks lib) (SwitchesInContext lib) (performSymbol lib cls sym pkt)
      fun _ => Tracks lib := by
    by_cases h : sym = .llCtrlEncReq
    · rw [performSymbol, if_pos h]
      exact llCtrlEncReq_tracks _
    · exact tracks_of_steps (performSymbol_steps_of_ne h _)
  exact htracks.conseq (fun _ => tracks_exec lib) (fun _ _ => id) (fun _ _ _ => trivial)

/-! ## Runs -/

/-- The states of a session, in order. -/
def states (lib : Lib τ) (cls : MapperClass) (w₀ : World τ) (cs : List Call) : List (World τ) :=
  w₀ :: (session lib cls cs w₀).visited

/-- **Encryption is switched on with the context of the exchange before it**, in every session from
every state, when since the request no packet has been encrypted or decrypted, and the last
`LL_ENC_RSP` came with the encryption off and was not followed by another long-term key. -/
theorem encryption_in_context (w₀ : World τ) (cs : List Call) (i : ℕ)
    (hi : i + 1 < (states lib cls w₀ cs).length)
    (hoff : (states lib cls w₀ cs)[i].self.encrypted = false)
    (hon : (states lib cls w₀ cs)[i + 1].self.encrypted = true)
    (hfresh : (exchange (states lib cls w₀ cs)[i].log).fresh = true)
    (hkeyed : (exchange (states lib cls w₀ cs)[i].log).keyed = true) :
    InContext lib (states lib cls w₀ cs)[i] (states lib cls w₀ cs)[i + 1] := by
  have hsteps : Steps (SwitchesInContext lib) (session lib cls cs) :=
    (session_keeps (keeps_true fun _ _ h => h.switchesInContext)
      (keeps_true fun _ _ h => h.switchesInContext)
      (fun sym pkt => (performSymbol_switchesInContext sym pkt).keeps.pre fun _ => And.right) cs).1
  have hchain : List.IsChain (SwitchesInContext lib) (states lib cls w₀ cs) := (hsteps w₀ trivial).1
  exact List.isChain_iff_getElem.mp hchain i hi hoff hon hfresh hkeyed

/-! ## Two small sessions -/

/-- A device whose packets are a scan response, an `LL_ENC_RSP` and an `LL_START_ENC_REQ`. -/
def encReqScapy : Scapy where
  raw _ := []
  btle
    | [1] => ⟨[.btle 7, .btleData none, .btleCtrl none, .llEncRsp 1 2]⟩
    | [2] => ⟨[.btle 7, .btleData none, .btleCtrl (some 5), .llStartEncReq]⟩
    | _ => ⟨[.btle 0x8E89BED6, .btleAdv 0 0, .btleScanRsp plainAddress]⟩
  hciHdr _ := ⟨[]⟩
  summary _ := []

/-- The states of `pre` and `LL_CTRL_ENC_REQ`, of which the latter is answered with `rsp`. -/
def encReqStates (rsp : List (Option Bytes)) : List (World Unit) :=
  states (plainLib encReqScapy) blesulClass
    (plainWorld 5500000 (some [0] :: List.replicate 5 none ++ rsp ++ List.replicate 7 none))
    [.pre, .step .llCtrlEncReq]

/-- With an `LL_ENC_RSP` before the `LL_START_ENC_REQ`. -/
theorem encryption_in_context_encRsp :
    InContext (plainLib encReqScapy) (encReqStates [some [1], some [2]])[32]
      (encReqStates [some [1], some [2]])[33] :=
  encryption_in_context _ _ 32 (by decide +kernel) (by decide +kernel) (by decide +kernel)
    (by decide +kernel) (by decide +kernel)

/-- Without one, the encryption is switched on all the same. -/
theorem startEncReq_not_inContext :
    ∃ hi : 26 < (encReqStates [some [2]]).length,
      (encReqStates [some [2]])[25].self.encrypted = false ∧
      (encReqStates [some [2]])[26].self.encrypted = true ∧
      ¬ InContext (plainLib encReqScapy) (encReqStates [some [2]])[25]
        (encReqStates [some [2]])[26] := by
  refine ⟨by decide +kernel, by decide +kernel, by decide +kernel, fun h => ?_⟩
  obtain ⟨skds, ivs, hrsp, -⟩ := h.encRsp
  have hnone : (exchange (encReqStates [some [2]])[25].log).encRsp = none := by decide +kernel
  rw [hnone] at hrsp
  cases hrsp

end BleFuzzer.Mapper

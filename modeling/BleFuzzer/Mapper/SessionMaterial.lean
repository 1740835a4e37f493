import BleFuzzer.Mapper.Encryption

/-!
# The session material

SKD and IV are stored as little-endian byte strings, the own halves first. The own halves are those
of `reset` and go into every `LL_ENC_REQ`; the halves of the peer are those of the last `LL_ENC_RSP`
handled. `takeEncRsp` is what the two packets say, without the stored strings: the plaintext is
`SKDs || SKDm`, most significant byte first.
-/

namespace BleFuzzer.Mapper

open Driver Exec

variable {τ : Type} (lib : Lib τ) (cls : MapperClass)

/-- A number in `k` bytes, most significant byte first. -/
def beBytes (k n : ℕ) : Bytes := (leBytes k n).reverse

/-- What an exchange of `skdm` and `ivm` for `skds` and `ivs` makes of the object. -/
def takeEncRsp (skdm ivm skds ivs : ℕ) : Program τ Unit := do
  let self ← getSelf
  record (.encRsp skds ivs self.encrypted) fun self =>
    { self with connSkd := leBytes 8 skdm ++ leBytes 8 skds }
  modifySelf fun self => { self with connIv := leBytes 4 ivm ++ leBytes 4 ivs }
  let self ← getSelf
  if !self.encrypted then
    let key ← Exec.lift (btCryptoE lib self.connLtk.reverse (beBytes 8 skds ++ beBytes 8 skdm))
    modifySelf fun self => { self with connSessionKey := key }

/-- Where the own halves encode `skdm` and `ivm`, `ll_ctrl_enc_req` makes the same of an
`LL_ENC_RSP`. -/
theorem handleEncRsp_eq {skdm ivm skds ivs : ℕ} (hskds : skds < 2 ^ 64) (hivs : ivs < 2 ^ 32)
    {w : World τ} (hskdm : leBytes 8 skdm = w.self.connSkd.take 8)
    (hivm : leBytes 4 ivm = w.self.connIv.take 4) :
    handleEncRsp lib skds ivs w = takeEncRsp lib skdm ivm skds ivs w := by
  have hhandle : handleEncRsp lib skds ivs w = (do
      let self ← getSelf
      record (.encRsp skds ivs self.encrypted) fun self =>
        { self with connSkd := w.self.connSkd.take 8 ++ leBytes 8 skds }
      modifySelf fun self => { self with connIv := w.self.connIv.take 4 ++ leBytes 4 ivs }
      let self ← getSelf
      if !self.encrypted then
        let key ← Exec.lift
          (btCryptoE lib self.connLtk.reverse (w.self.connSkd.take 8 ++ leBytes 8 skds).reverse)
        modifySelf fun self => { self with connSessionKey := key } : Program τ Unit) w := by
    rw [handleEncRsp, structPack_eq hskds, structPack_eq hivs]
    rfl
  rw [hhandle, ← hskdm, ← hivm, List.reverse_append]
  rfl

/-! ## The log -/

def nextEncRsp : Option (ℕ × ℕ) → Event → Option (ℕ × ℕ)
  | _, .reset => none
  | _, .encRsp skds ivs _ => some (skds, ivs)
  | encRsp, _ => encRsp

/-- `skds` and `ivs` of the last `LL_ENC_RSP` handled since `reset`. -/
def lastEncRsp (log : List Event) : Option (ℕ × ℕ) := log.foldl nextEncRsp none

@[simp] theorem lastEncRsp_append (log : List Event) (e : Event) :
    lastEncRsp (log ++ [e]) = nextEncRsp (lastEncRsp log) e := by
  simp only [lastEncRsp, List.foldl_append, List.foldl_cons, List.foldl_nil]

/-- How many tests a log has seen. -/
def resets (log : List Event) : ℕ := log.count .reset

/-! ## One assignment -/

/-- SKD and IV have their lengths, and their second halves are those of the last `LL_ENC_RSP`. -/
structure Settled (w : World τ) : Prop where
  sized : w.self.connSkd.length = 16 ∧ w.self.connIv.length = 8
  encRsp : ∀ skds ivs, lastEncRsp w.log = some (skds, ivs) →
    skds < 2 ^ 64 ∧ w.self.connSkd.drop 8 = leBytes 8 skds ∧
      (ivs < 2 ^ 32 → w.self.connIv.drop 4 = leBytes 4 ivs)

/-- Settled, once there is a session. -/
def InSession (w : World τ) : Prop := w.self.accessAddress.isSome = true → Settled w

/-- The own halves are kept for as long as the test lasts. -/
def KeepsHalves (w w' : World τ) : Prop :=
  resets w.log ≤ resets w'.log ∧
    (resets w.log = resets w'.log → w.self.accessAddress.isSome = true →
      w'.self.accessAddress.isSome = true ∧ w'.self.connSkd.take 8 = w.self.connSkd.take 8 ∧
        w'.self.connIv.take 4 = w.self.connIv.take 4)

/-- The assignment is the first one for an `LL_ENC_RSP`, which takes up its `skds`. -/
def TakesSkds (w w' : World τ) : Prop :=
  ∃ skds ivs encrypted, w'.log = w.log ++ [.encRsp skds ivs encrypted]

/-- What every assignment of a session does to SKD and IV. -/
structure Settles (w w' : World τ) : Prop where
  sized : w'.self.accessAddress.isSome = true →
    w'.self.connSkd.length = 16 ∧ w'.self.connIv.length = 8
  keepsHalves : KeepsHalves w w'
  settled : TakesSkds w w' ∨ InSession w'

instance : Trans (@KeepsHalves τ) (@KeepsHalves τ) (@KeepsHalves τ) where
  trans {u v w} huv hvw := by
    obtain ⟨hle, hkeep⟩ := huv
    obtain ⟨hle', hkeep'⟩ := hvw
    refine ⟨hle.trans hle', fun heq hsome => ?_⟩
    obtain ⟨hsome', hskd, hiv⟩ := hkeep (by omega) hsome
    obtain ⟨hsome'', hskd', hiv'⟩ := hkeep' (by omega) hsome'
    exact ⟨hsome'', hskd'.trans hskd, hiv'.trans hiv⟩

/-- An assignment that leaves SKD and IV as they are, and records no exchange and no test. -/
theorem settles_of_same {w w' : World τ} (haa : w'.self.accessAddress = w.self.accessAddress)
    (hskd : w'.self.connSkd = w.self.connSkd) (hiv : w'.self.connIv = w.self.connIv)
    (hrsp : lastEncRsp w'.log = lastEncRsp w.log) (hresets : resets w'.log = resets w.log)
    (hw : InSession w) : Settles w w' ∧ InSession w' := by
  have hsession : InSession w' := by
    intro hsome
    obtain ⟨hsized, hencRsp⟩ := hw (haa ▸ hsome)
    refine ⟨?_, ?_⟩
    · rw [hskd, hiv]
      exact hsized
    · rw [hskd, hiv, hrsp]
      exact hencRsp
  refine ⟨⟨fun hsome => (hsession hsome).sized, ⟨hresets.ge, fun _ hsome => ?_⟩, .inr hsession⟩,
    hsession⟩
  rw [haa, hskd, hiv]
  exact ⟨hsome, rfl, rfl⟩

variable {lib} {cls}

/-- Below `step_internal`, the key material is left alone. -/
theorem Assign.settles {w w' : World τ} (h : Assign lib w w') (hw : InSession w) :
    Settles w w' ∧ InSession w' := by
  cases h <;> exact settles_of_same rfl rfl rfl (by simp [nextEncRsp]) (by simp [resets]) hw

/-- `reset` draws new material. -/
theorem TestAssign.settles {w w' : World τ} (h : TestAssign w w') (hw : InSession w) :
    Settles w w' ∧ InSession w' := by
  cases h with
  | reset draw env =>
    have hsettled : Settled { w with
        self := w.self.resetFields draw, env := env, log := w.log ++ [.reset] } :=
      ⟨⟨rfl, rfl⟩, fun _ _ hrsp => by simp [nextEncRsp] at hrsp⟩
    refine ⟨⟨fun _ => hsettled.sized, ⟨?_, fun heq => ?_⟩, .inr fun _ => hsettled⟩,
      fun _ => hsettled⟩
    · simp [resets]
    · simp [resets] at heq
  | _ => exact settles_of_same rfl rfl rfl (by simp [nextEncRsp]) (by simp [resets]) hw

/-- A program that makes only these assignments stays in its session. -/
theorem settles_of_steps {α : Type} {m : Program τ α} (h : Steps (Assign lib) m) :
    Keeps InSession Settles m :=
  h.keeps fun _ _ hassign => hassign.settles

/-! ## `ll_ctrl_enc_req` -/

/-- An `LL_ENC_RSP` has been taken up as far as the SKD. -/
structure TakenSkds (skds ivs : ℕ) (w : World τ) : Prop where
  sized : w.self.connSkd.length = 16 ∧ w.self.connIv.length = 8
  encRsp : lastEncRsp w.log = some (skds, ivs)
  skds_lt : skds < 2 ^ 64
  connSkd : w.self.connSkd.drop 8 = leBytes 8 skds

/-- With the IV, if it is one of 32 bits, the `LL_ENC_RSP` is settled. -/
theorem TakenSkds.settled {skds ivs : ℕ} {w : World τ} (h : TakenSkds skds ivs w)
    (hiv : ivs < 2 ^ 32 → w.self.connIv.drop 4 = leBytes 4 ivs) : Settled w := by
  refine ⟨h.sized, fun skds' ivs' hrsp => ?_⟩
  obtain ⟨rfl, rfl⟩ := Prod.mk.inj (Option.some.inj (h.encRsp.symm.trans hrsp))
  exact ⟨h.skds_lt, h.connSkd, hiv⟩

/-- The first assignment for an `LL_ENC_RSP`. -/
theorem takesSkds_settles {skds ivs : ℕ} {encrypted : Bool} (hskds : skds < 2 ^ 64) {w : World τ}
    (hw : InSession w) :
    Settles w { w with
      self := { w.self with connSkd := w.self.connSkd.take 8 ++ leBytes 8 skds }
      log := w.log ++ [.encRsp skds ivs encrypted] } ∧
    (w.self.accessAddress.isSome = true → TakenSkds skds ivs { w with
      self := { w.self with connSkd := w.self.connSkd.take 8 ++ leBytes 8 skds }
      log := w.log ++ [.encRsp skds ivs encrypted] }) := by
  have htaken (hsome : w.self.accessAddress.isSome = true) : TakenSkds skds ivs { w with
      self := { w.self with connSkd := w.self.connSkd.take 8 ++ leBytes 8 skds }
      log := w.log ++ [.encRsp skds ivs encrypted] } := by
    have htake : (w.self.connSkd.take 8).length = 8 := by simp [(hw hsome).sized.1]
    refine ⟨⟨by simp [htake], (hw hsome).sized.2⟩, by simp [nextEncRsp], hskds, ?_⟩
    exact List.drop_left' htake
  refine ⟨⟨fun hsome => (htaken hsome).sized, ⟨?_, fun _ hsome => ⟨hsome, ?_, rfl⟩⟩,
    .inl ⟨skds, ivs, encrypted, rfl⟩⟩, htaken⟩
  · simp [resets]
  · have htake : (w.self.connSkd.take 8).length = 8 := by simp [(hw hsome).sized.1]
    exact List.take_left' htake

/-- The second assignment for an `LL_ENC_RSP`. -/
theorem takesIvs_settles {skds ivs : ℕ} {w : World τ}
    (hw : w.self.accessAddress.isSome = true → TakenSkds skds ivs w) :
    Settles w { w with self := { w.self with connIv := w.self.connIv.take 4 ++ leBytes 4 ivs } } ∧
      InSession { w with self := { w.self with connIv := w.self.connIv.take 4 ++ leBytes 4 ivs } } := by
  have htake (hsome : w.self.accessAddress.isSome = true) : (w.self.connIv.take 4).length = 4 := by
    simp [(hw hsome).sized.2]
  have hsession : InSession
      { w with self := { w.self with connIv := w.self.connIv.take 4 ++ leBytes 4 ivs } } := by
    intro hsome
    have htaken : TakenSkds skds ivs
        { w with self := { w.self with connIv := w.self.connIv.take 4 ++ leBytes 4 ivs } } :=
      ⟨⟨(hw hsome).sized.1, by simp [htake hsome]⟩, (hw hsome).encRsp, (hw hsome).skds_lt,
        (hw hsome).connSkd⟩
    exact htaken.settled fun _ => List.drop_left' (htake hsome)
  refine ⟨⟨fun hsome => (hsession hsome).sized, ⟨le_rfl, fun _ hsome => ⟨hsome, rfl, ?_⟩⟩,
    .inr hsession⟩, hsession⟩
  exact List.take_left' (htake hsome)

/-- An `LL_ENC_RSP` keeps the mapper's halves and takes the others. -/
theorem handleEncRsp_settles (skds ivs : ℕ) :
    Keeps InSession Settles (handleEncRsp lib skds ivs : Program τ Unit) := by
  refine Ends.bind (Q := fun skdsBytes w =>
    skdsBytes = leBytes 8 skds ∧ skds < 2 ^ 64 ∧ InSession w) (.lift ?_ fun _ _ _ => id) ?_
  · intro skdsBytes hpack w hw
    exact ⟨structPack_inj hpack, structPack_lt hpack, hw⟩
  intro skdsBytes
  refine getSelf_bind_ends fun w hw => ?_
  obtain ⟨rfl, hskds, hw⟩ := hw
  refine Ends.bind (Q := fun _ w => w.self.accessAddress.isSome = true → TakenSkds skds ivs w)
    (.modify ?_) fun _ => ?_
  · rintro w' rfl
    exact takesSkds_settles hskds hw
  refine Ends.bind (Q := fun ivsBytes w =>
    ivsBytes = leBytes 4 ivs ∧ (w.self.accessAddress.isSome = true → TakenSkds skds ivs w))
    (.lift ?_ ?_) ?_
  · intro ivsBytes hpack w hw
    exact ⟨structPack_inj hpack, hw⟩
  · -- `struct.pack` raises for an `ivs` of more than 32 bits alone
    intro e hpack w hw hsome
    refine (hw hsome).settled fun hivs => ?_
    rw [structPack_eq hivs] at hpack
    cases hpack
  intro ivsBytes
  refine Ends.bind (Q := fun _ => InSession) (.modify ?_) fun _ => ?_
  · rintro w ⟨rfl, hw⟩
    exact takesIvs_settles hw
  refine getSelf_bind_keeps fun self => .ite ?_ (.pure fun _ => id)
  refine Ends.bind (Q := fun _ => InSession) (.lift (fun _ _ _ => id) fun _ _ _ => id) fun key => ?_
  exact .modify fun w hw => settles_of_same rfl rfl rfl rfl rfl hw

/-- The loop of `ll_ctrl_enc_req`, by induction on its bound. -/
theorem encReqLoop_settles (timeStart : ℤ) (bound : ℕ) (pkt : Pkt) (resPkts : List Pkt) :
    Keeps InSession Settles (encReqLoop lib cls timeStart bound pkt resPkts) := by
  induction bound generalizing pkt resPkts with
  | zero => exact .throw fun _ => id
  | succ bound ih =>
    refine Keeps.bind (settles_of_steps (@time_steps _ lib)) fun timeNow => ?_
    refine Keeps.bind (settles_of_steps (isRspComplete_steps _ _ _ _ _)) fun complete => ?_
    refine .ite (.pure fun _ => id)
      (Keeps.bind (settles_of_steps (receive_steps _ _ _ _)) fun pkts => ?_)
    match pkts with
    | [] => exact ih _ _
    | pkt :: _ =>
      have hloop := ih pkt (resPkts ++ [pkt])
      have hstart : Keeps InSession Settles
          (modifySelf fun self => { self with encrypted := true } : Program τ Unit) :=
        .modify fun w hw => settles_of_same rfl rfl rfl rfl rfl hw
      dsimp only
      split
      · exact (handleEncRsp_settles _ _).bind fun _ => hloop
      · exact .ite (hstart.bind fun _ => hloop) hloop

/-- The encryption request, around its loop. -/
theorem llCtrlEncReq_settles (pkt : Pkt) :
    Keeps InSession Settles (llCtrlEncReq lib cls pkt) := by
  refine Keeps.bind (settles_of_steps (send_steps _)) fun _ => ?_
  refine Keeps.bind (.modify fun w hw => ?_) fun _ => ?_
  · exact settles_of_same rfl rfl rfl (by simp [nextEncRsp]) (by simp [resets]) hw
  · refine Keeps.bind (settles_of_steps (@time_steps _ lib)) fun timeStart => ?_
    refine .get_bind fun w hw => ?_
    refine .pre ?_ (by rintro w' rfl; exact hw)
    exact (encReqLoop_settles _ _ _ _).bind fun resPkts =>
      settles_of_steps (outputSymbol_steps _)

/-- Every input symbol stays in its session. -/
theorem performSymbol_settles (sym : InputSymbol) (pkt : Pkt) :
    Keeps InSession Settles (performSymbol lib cls sym pkt) := by
  by_cases h : sym = .llCtrlEncReq
  · rw [performSymbol, if_pos h]
    exact llCtrlEncReq_settles _
  · exact settles_of_steps (performSymbol_steps_of_ne h _)

/-- So does every session of calls. -/
theorem session_settles (cs : List Call) : Keeps InSession Settles (session lib cls cs) :=
  session_keeps (fun _ _ h => h.settles) (fun _ _ h => h.settles)
    (fun sym pkt => (performSymbol_settles sym pkt).pre fun _ => And.left) cs

/-! ## Runs -/

/-- The packets and the material of a test agree: a request built in `v`, and the object in a later
state `w`, which an assignment in `u` has led to. -/
structure MaterialAgrees (lib : Lib τ) (v u w : World τ) : Prop where
  sized : w.self.connSkd.length = 16 ∧ w.self.connIv.length = 8
  /-- The request carries the own halves, which are still the same, and an `LL_ENC_RSP` handled now
  is taken up with them, as an answer to that request. -/
  encReq : ∃ skdm < 2 ^ 64, ∃ ivm < 2 ^ 32,
    packets .llCtrlEncReq v.self = ctrlPacket v.self (.llEncReq 0 0 skdm ivm) ∧
    leBytes 8 skdm = v.self.connSkd.take 8 ∧ w.self.connSkd.take 8 = v.self.connSkd.take 8 ∧
    leBytes 4 ivm = v.self.connIv.take 4 ∧ w.self.connIv.take 4 = v.self.connIv.take 4 ∧
    ∀ skds < 2 ^ 64, ∀ ivs < 2 ^ 32,
      handleEncRsp lib skds ivs w = takeEncRsp lib skdm ivm skds ivs w
  /-- An `LL_ENC_RSP` built now carries the fields of the last one handled, unless `w` is the state
  in which the latter has been taken up as far as the SKD. -/
  encRsp : ¬ TakesSkds u w → ∀ skds ivs, lastEncRsp w.log = some (skds, ivs) → ivs < 2 ^ 32 →
    packets .llCtrlEncRsp w.self = ctrlPacket w.self (.llEncRsp skds ivs)

/-- The packet that would carry back what the object has settled. -/
theorem Settled.llCtrlEncRsp {w : World τ} (h : Settled w) {skds ivs : ℕ}
    (hrsp : lastEncRsp w.log = some (skds, ivs)) (hivs : ivs < 2 ^ 32) :
    packets .llCtrlEncRsp w.self = ctrlPacket w.self (.llEncRsp skds ivs) := by
  obtain ⟨hskds, hskd, hiv⟩ := h.encRsp skds ivs hrsp
  have htakeSkd : w.self.connSkd.take 16 = w.self.connSkd := List.take_of_length_le h.sized.1.le
  have htakeIv : w.self.connIv.take 8 = w.self.connIv := List.take_of_length_le h.sized.2.le
  rw [packets, htakeSkd, htakeIv, hskd, hiv hivs, leValue_leBytes_of_lt hskds,
    leValue_leBytes_of_lt hivs]

/-- **Session material agrees with the exchanged fields**, in every session of an object that has
not been reset yet: between any two states of one test. -/
theorem material_agrees (w₀ : World τ) (h₀ : w₀.self.accessAddress = none) (cs : List Call)
    (i j : ℕ) (hij : i ≤ j + 1) (hj : j + 1 < (states lib cls w₀ cs).length)
    (htest : resets (states lib cls w₀ cs)[i].log = resets (states lib cls w₀ cs)[j + 1].log)
    (hsession : (states lib cls w₀ cs)[i].self.accessAddress.isSome = true) :
    MaterialAgrees lib (states lib cls w₀ cs)[i] (states lib cls w₀ cs)[j]
      (states lib cls w₀ cs)[j + 1] := by
  have hinit : InSession w₀ := fun hsome => absurd hsome (by simp [h₀])
  have hchain : List.IsChain Settles (states lib cls w₀ cs) :=
    ((@session_settles _ lib cls cs).1 w₀ hinit).1
  have hpairs : (states lib cls w₀ cs).Pairwise KeepsHalves :=
    List.isChain_iff_pairwise.mp (hchain.imp fun _ _ h => h.keepsHalves)
  have hstep : Settles (states lib cls w₀ cs)[j] (states lib cls w₀ cs)[j + 1] :=
    List.isChain_iff_getElem.mp hchain j hj
  -- the two states have one session, with the same own halves
  have hhalves : (states lib cls w₀ cs)[j + 1].self.accessAddress.isSome = true ∧
      (states lib cls w₀ cs)[j + 1].self.connSkd.take 8 =
        (states lib cls w₀ cs)[i].self.connSkd.take 8 ∧
      (states lib cls w₀ cs)[j + 1].self.connIv.take 4 =
        (states lib cls w₀ cs)[i].self.connIv.take 4 := by
    rcases hij.eq_or_lt with rfl | hlt
    · exact ⟨hsession, rfl, rfl⟩
    · exact (List.pairwise_iff_getElem.mp hpairs i (j + 1) (by omega) hj hlt).2 htest hsession
  generalize (states lib cls w₀ cs)[i] = v at *
  generalize (states lib cls w₀ cs)[j] = u at *
  generalize (states lib cls w₀ cs)[j + 1] = w at *
  obtain ⟨hsome, hskd, hiv⟩ := hhalves
  obtain ⟨hskdLength, hivLength⟩ := hstep.sized hsome
  have hskdm : leBytes 8 (leValue (v.self.connSkd.take 8)) = v.self.connSkd.take 8 :=
    leBytes_leValue_of_length (by simp [← hskd, hskdLength])
  have hivm : leBytes 4 (leValue (v.self.connIv.take 4)) = v.self.connIv.take 4 :=
    leBytes_leValue_of_length (by simp [← hiv, hivLength])
  refine ⟨⟨hskdLength, hivLength⟩, ⟨_, ?_, _, ?_, rfl, hskdm, hskd, hivm, hiv, ?_⟩, ?_⟩
  · have hlt := leValue_lt (v.self.connSkd.take 8)
    rwa [show (v.self.connSkd.take 8).length = 8 by simp [← hskd, hskdLength]] at hlt
  · have hlt := leValue_lt (v.self.connIv.take 4)
    rwa [show (v.self.connIv.take 4).length = 4 by simp [← hiv, hivLength]] at hlt
  · intro skds hskds ivs hivs
    exact handleEncRsp_eq lib hskds hivs (hskdm.trans hskd.symm) (hivm.trans hiv.symm)
  · intro hnot skds ivs hrsp hivs
    exact ((hstep.settled.resolve_left hnot) hsome).llCtrlEncRsp hrsp hivs

/-- The request of the small session, and the state in which its `LL_ENC_RSP` has been taken up. -/
theorem material_agrees_encRsp :
    MaterialAgrees (plainLib encReqScapy) (encReqStates [some [1], some [2]])[22]
      (encReqStates [some [1], some [2]])[26] (encReqStates [some [1], some [2]])[27] :=
  material_agrees _ rfl _ 22 26 (by decide) (by decide +kernel) (by decide +kernel)
    (by decide +kernel)

end BleFuzzer.Mapper

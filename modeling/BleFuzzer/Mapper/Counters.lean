import BleFuzzer.Mapper.Encryption

/-!
# The packet counters

The counters are a function of the log: an encryption or a decryption advances them, and
`ll_ctrl_enc_req` and `reset` zero them. As `ll_ctrl_enc_req` zeroes them whether or not its request
is answered, on an encrypted link the send counter falls behind the packets sent
(`llCtrlEncReq_not_keepsLink`).
-/

namespace BleFuzzer.Mapper

open Driver Exec

variable {τ : Type} {lib : Lib τ} {cls : MapperClass}

/-- The packet counters, for sending and for receiving. -/
def Blesul.counters (self : Blesul) : ℕ × ℕ := (self.encTxPktCount, self.encRxPktCount)

def countersNext (counters : ℕ × ℕ) : Event → ℕ × ℕ
  | .encrypt => (counters.1 + 1, counters.2)
  | .decrypt => (counters.1, counters.2 + 1)
  | .encReq | .reset => (0, 0)
  | _ => counters

/-- The counters of `w'` are those of `w` after the events logged in between. -/
def Counted (w w' : World τ) : Prop :=
  ∃ l, w'.log = w.log ++ l ∧ w'.self.counters = l.foldl countersNext w.self.counters

/-- Without a new event, the counters stay. -/
theorem Counted.of_eq {w w' : World τ} (hlog : w'.log = w.log)
    (hcounters : w'.self.counters = w.self.counters) : Counted w w' :=
  ⟨[], by rw [hlog, List.append_nil], hcounters⟩

/-- Every assignment below `step_internal` counts with its event. -/
theorem Assign.counted {w w' : World τ} (h : Assign lib w w') : Counted w w' := by
  cases h
  case deviceReset | tx | encrypt | decrypt | smp | configureConnection | ltk =>
    exact ⟨[_], rfl, rfl⟩
  all_goals exact .of_eq rfl rfl

/-- So do those of `ll_ctrl_enc_req`. -/
theorem EncReqAssign.counted {w w' : World τ} (h : EncReqAssign w w') : Counted w w' := by
  cases h
  case encReq | encRsp => exact ⟨[_], rfl, rfl⟩
  all_goals exact .of_eq rfl rfl

/-- And those of a test. -/
theorem TestAssign.counted {w w' : World τ} (h : TestAssign w w') : Counted w w' := by
  cases h
  case reset | exec | retry => exact ⟨[_], rfl, rfl⟩
  all_goals exact .of_eq rfl rfl

/-- All that an input symbol does is counted. -/
theorem SymbolAssign.counted {w w' : World τ} (h : SymbolAssign lib w w') : Counted w w' :=
  h.elim Assign.counted EncReqAssign.counted

/-- All that a step does is counted, however it ends. -/
theorem stepInternal_counted (depth : ℕ) (sym : InputSymbol) :
    Keeps (fun _ => True) Counted (stepInternal lib cls depth sym) :=
  stepInternal_keeps (keeps_true fun _ _ h => h.counted) (keeps_true fun _ _ h => h.counted)
    (fun sym pkt => ((performSymbol_steps sym pkt).keeps
      (keeps_true fun _ _ h => h.counted)).pre fun _ _ => trivial) depth sym

/-! ## The send counter -/

/-- The send counter of `w'` is behind the packets encrypted since `w`. -/
def Behind (w w' : World τ) : Prop :=
  ∃ l, w'.log = w.log ++ l ∧ w'.self.encTxPktCount < w.self.encTxPktCount + l.count .encrypt

/-- No event advances the counter by more than the packets encrypted. -/
theorem foldl_countersNext_le (l : List Event) (counters : ℕ × ℕ) :
    (l.foldl countersNext counters).1 ≤ counters.1 + l.count .encrypt := by
  induction l generalizing counters with
  | nil => exact le_rfl
  | cons e l ih =>
    have hnext : (countersNext counters e).1 + l.count .encrypt ≤
        counters.1 + (e :: l).count .encrypt := by
      cases e <;> simp only [countersNext, List.count_cons] <;> grind
    exact (ih _).trans hnext

/-- What is behind stays behind. -/
theorem Behind.counted {w w' w'' : World τ} (h : Behind w w') (h' : Counted w' w'') :
    Behind w w'' := by
  obtain ⟨l, hlog, hlt⟩ := h
  obtain ⟨l', hlog', hcounters⟩ := h'
  have hle := foldl_countersNext_le l' w'.self.counters
  rw [← hcounters] at hle
  refine ⟨l ++ l', by rw [hlog', hlog, List.append_assoc], ?_⟩
  have hcount : (l ++ l').count .encrypt = l.count .encrypt + l'.count .encrypt := List.count_append
  have hle : w''.self.encTxPktCount ≤ w'.self.encTxPktCount + l'.count .encrypt := hle
  omega

/-- What is behind stays behind. -/
theorem behind_of_steps {α : Type} {m : Program τ α} (h : Steps Counted m) (w : World τ) :
    Triple (Behind w) (fun _ _ => True) m fun _ => Behind w :=
  (h.triple fun _ _ hcounted hbehind => hbehind.counted hcounted).conseq (fun _ => id)
    (fun _ _ _ => trivial) (fun _ _ => id)

/-! ## `ll_ctrl_enc_req` -/

/-- A data packet on an encrypted link is encrypted. -/
theorem send_encrypts {pkt : Pkt} (hdata : pkt.hasBtleData = true) (w : World τ) :
    Triple (fun t => t.self.encrypted = true ∧ ∃ l, t.log = w.log ++ l) (fun _ _ => True)
      (send lib pkt) fun _ t => ∃ l, t.log = w.log ++ l ∧ .encrypt ∈ l := by
  refine getSelf_bind_triple fun t ht => ?_
  obtain ⟨hencrypted, l, hlog⟩ := ht
  rw [hencrypted, hdata, Bool.and_self, if_pos rfl]
  refine .bind (Q := fun _ t' => t' = t) (.lift fun _ _ _ h => h) fun pktSend => ?_
  refine .bind (Q := fun _ t => ∃ l, t.log = w.log ++ l ∧ .encrypt ∈ l) (.modify ?_) fun _ => ?_
  · rintro t' rfl
    exact ⟨trivial, l ++ [.encrypt], by rw [hlog, List.append_assoc], by simp⟩
  · refine Triple.get_bind fun t ht => .bind (Q := fun _ t' => t' = t) (.lift fun _ _ _ h => h) ?_
    rintro ⟨driver, data⟩
    refine .modify ?_
    rintro t' rfl
    obtain ⟨l, hlog, hmem⟩ := ht
    exact ⟨trivial, l ++ [.tx data], by rw [hlog, List.append_assoc], by simp [hmem]⟩

/-- The request is encrypted before the counter is zeroed. -/
theorem llCtrlEncReq_behind {pkt : Pkt} (hdata : pkt.hasBtleData = true) (w : World τ) :
    Triple (fun t => t.self.encrypted = true ∧ ∃ l, t.log = w.log ++ l) (fun _ _ => True)
      (llCtrlEncReq lib cls pkt) fun _ => Behind w := by
  refine (send_encrypts hdata w).bind fun _ => ?_
  refine .bind (Q := fun _ => Behind w) (.modify ?_) fun _ => ?_
  · rintro t ⟨l, hlog, hmem⟩
    refine ⟨trivial, l ++ [.encReq], by rw [hlog, List.append_assoc], ?_⟩
    have hpos : 0 < (l ++ [Event.encReq]).count .encrypt :=
      List.count_pos_iff.mpr (List.mem_append_left _ hmem)
    show 0 < _
    omega
  · -- what is left of the handler
    have hrest : Steps Counted (do
        let timeStart ← time
        let w ← Exec.get
        let resPkts ← encReqLoop lib cls timeStart (w.env.rx.length + 2) pkt []
        outputSymbol lib resPkts) := by
      refine ((@time_steps _ lib).mono fun _ _ h => h.counted).bind fun timeStart => ?_
      refine .bind .get fun w => ?_
      refine ((encReqLoop_steps _ _ _ _).mono fun _ _ h => h.counted).bind fun resPkts => ?_
      exact (@outputSymbol_steps _ lib resPkts).mono fun _ _ h => h.counted
    exact behind_of_steps hrest w

/-- After an `LL_CTRL_ENC_REQ` on an encrypted link, the counter is behind the log. -/
theorem stepInternal_behind (depth : ℕ) {w : World τ} (hencrypted : w.self.encrypted = true) :
    Triple (· = w) (fun _ _ => True) (stepInternal lib cls depth .llCtrlEncReq)
      fun _ => Behind w := by
  cases depth with
  | zero => exact .throw
  | succ depth =>
    refine .bind (Q := fun _ t => t.self = w.self ∧ ∃ l, t.log = w.log ++ l) (.modify ?_) fun _ => ?_
    · rintro t rfl
      exact ⟨trivial, rfl, _, rfl⟩
    · refine getSelf_bind_triple fun t ht => ?_
      split
      · exact .throw
      · have hperform : Triple (· = t) (fun _ _ => True)
            (performSymbol lib cls .llCtrlEncReq (packets .llCtrlEncReq t.self))
            fun _ => Behind w := by
          rw [performSymbol, if_pos rfl]
          refine (llCtrlEncReq_behind rfl w).pre ?_
          rintro t' rfl
          exact ⟨ht.1 ▸ hencrypted, ht.2⟩
        refine hperform.bind fun out => ?_
        have hretry : Steps Counted (retrySequence lib cls (stepInternal lib cls depth)) :=
          (retrySequence_keeps (keeps_true fun _ _ h => h.counted)
            (keeps_true fun _ _ h => h.counted) (stepInternal_counted depth)).1
        refine behind_of_steps ?_ w
        refine .bind (.modify fun _ => (TestAssign.append _ _).counted) fun _ => ?_
        exact getSelf_bind_steps fun _ => .ite hretry (.pure _)

/-- What an encryption request that is not answered should leave: the link as it was, with the
counters advanced by the packets encrypted and decrypted. -/
structure KeepsLink (w w' : World τ) : Prop where
  encrypted : w'.self.encrypted = w.self.encrypted
  connSessionKey : w'.self.connSessionKey = w.self.connSessionKey
  connIv : w'.self.connIv = w.self.connIv
  counters : ∃ l, w'.log = w.log ++ l ∧
    w'.self.encTxPktCount = w.self.encTxPktCount + l.count .encrypt ∧
    w'.self.encRxPktCount = w.self.encRxPktCount + l.count .decrypt

/-- **No `LL_CTRL_ENC_REQ` step leaves an encrypted link as it was**: afterwards the send counter is
behind the packets encrypted, whatever is received. -/
theorem llCtrlEncReq_not_keepsLink {w w' : World τ} {out : Text}
    (hencrypted : w.self.encrypted = true)
    (hreturns : (step lib cls .llCtrlEncReq).Returns w out w') : ¬ KeepsLink w w' := by
  intro hkeeps
  obtain ⟨output, w₁, hstep, hrest⟩ := hreturns.of_bind
  obtain ⟨-, rfl⟩ := (of_getSelf_bind hrest).of_pure
  obtain ⟨l, hlog, hlt⟩ := (stepInternal_behind recursionLimit hencrypted).returns rfl hstep
  obtain ⟨l', hlog', heq, -⟩ := hkeeps.counters
  obtain rfl : l = l' := List.append_cancel_left (hlog.symm.trans hlog')
  omega

/-! ## A small session -/

/-- The device of `encReqScapy`, with packets that are long enough to be encrypted. -/
def unansweredLib : Lib Unit :=
  plainLib { encReqScapy with raw := fun _ => [7, 0, 0, 0, 3, 1, 0, 0, 0, 0] }

/-- The state after some calls, with a device that answers `pre` and the first request, and then
falls silent. -/
def unansweredWorld (cs : List Call) : World Unit :=
  (session unansweredLib blesulClass cs).final
    (plainWorld 5500000
      (some [0] :: List.replicate 5 none ++ [some [1], some [2]] ++ List.replicate 12 none))

/-- A second request, on the encrypted link. -/
theorem llCtrlEncReq_not_keepsLink_second :
    ¬ KeepsLink (unansweredWorld [.pre, .step .llCtrlEncReq])
      ((step unansweredLib blesulClass .llCtrlEncReq).final
        (unansweredWorld [.pre, .step .llCtrlEncReq])) := by
  obtain ⟨out, hreturns⟩ := Returns.of_isOk (m := step unansweredLib blesulClass .llCtrlEncReq)
    (s := unansweredWorld [.pre, .step .llCtrlEncReq]) (by decide +kernel)
  exact llCtrlEncReq_not_keepsLink (by decide +kernel) hreturns

/-- The second request is encrypted with counter 0. Nothing is received, and with the same key and
IV the next packet is encrypted with counter 0 again. -/
theorem llCtrlEncReq_reuses_counter :
    let w := unansweredWorld [.pre, .step .llCtrlEncReq]
    let w' := unansweredWorld [.pre, .step .llCtrlEncReq, .step .llCtrlEncReq]
    let w'' := unansweredWorld
      [.pre, .step .llCtrlEncReq, .step .llCtrlEncReq, .step .llCtrlFeatureReq]
    w.env.rx = List.replicate 12 none ∧
      w.self.encrypted = true ∧ w'.self.encrypted = true ∧ w''.self.encrypted = true ∧
      w'.self.connSessionKey = w.self.connSessionKey ∧ w'.self.connIv = w.self.connIv ∧
      w.self.encTxPktCount = 0 ∧ w'.self.encTxPktCount = 0 ∧
      w'.log.count .encrypt = w.log.count .encrypt + 1 ∧
      w''.log.count .encrypt = w.log.count .encrypt + 2 := by
  decide +kernel

end BleFuzzer.Mapper

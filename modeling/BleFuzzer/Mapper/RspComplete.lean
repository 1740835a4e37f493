import BleFuzzer.Mapper.Receive
import Mathlib.Data.List.Dedup
import Mathlib.Data.List.DropRight

/-!
# When a response is complete

The heuristic of `is_rsp_complete`, said without its loop: how many responses are still expected
after the last packet that announces others, and how many cyclic packets the response ends with. The
versions of the subclasses are the one of `BLESUL` behind their early exits.
-/

namespace BleFuzzer.Mapper

open Driver Exec

variable {τ : Type} (lib : Lib τ)

/-- The lookup table of the object: the one it has, or the one it will create. -/
def Blesul.table (self : Blesul) : List (Text × Text) := self.symbols.getD (symbolTable lib self)

/-- How many responses a packet announces, if it is one that does. -/
def announces (table : List (Text × Text)) (pkt : Pkt) : Option ℕ :=
  nAddExpect (packetSymbol lib table pkt)

/-- The packets that are not sent again and again. -/
def responses (pkts : List Pkt) : List Pkt := pkts.filter fun pkt => !pkt.isCyclic

/-- How many cyclic packets a list ends with. -/
def cyclicSeen (pkts : List Pkt) : ℕ := (pkts.rtakeWhile Pkt.isCyclic).length

/-- The responses after the last one that announces others; all of them, if none does. -/
def unannouncing (table : List (Text × Text)) (pkts : List Pkt) : List Pkt :=
  (responses pkts).rtakeWhile fun pkt => (announces lib table pkt).isNone

/-- The last response that announces others. -/
def lastAnnouncing (table : List (Text × Text)) (pkts : List Pkt) : Option Pkt :=
  ((responses pkts).rdropWhile fun pkt => (announces lib table pkt).isNone).getLast?

/-- How many responses are still expected: as many as the last announcing one has announced, or one
if there is none, less those that came after it. -/
def rspExpected (table : List (Text × Text)) (pkts : List Pkt) : ℕ :=
  ((lastAnnouncing lib table pkts).bind (announces lib table)).getD 1 -
    (unannouncing lib table pkts).length

/-- The heuristic. -/
def SeemsComplete (table : List (Text × Text)) (pkts : List Pkt) : Prop :=
  (rspExpected lib table pkts = 0 ∧ 5 ≤ cyclicSeen pkts) ∨ 10 ≤ cyclicSeen pkts

/-- The decision of `BLESUL`, after a time `recvSTime`. -/
def Complete (self : Blesul) (pkts : List Pkt) (recvSTime : ℤ) (recvSMin recvSMax : Option ℤ) :
    Prop :=
  max (recvSMin.getD self.recvSMin) (recvSMax.getD self.recvSMax) ≤ recvSTime ∨
    (recvSMin.getD self.recvSMin ≤ recvSTime ∧ SeemsComplete lib (self.table lib) pkts)

/-- The decision of each version. -/
def CompleteFor (policy : RspPolicy) (self : Blesul) (pkts : List Pkt) (recvSTime : ℤ)
    (recvSMin recvSMax : Option ℤ) (req : Option Pkt) : Prop :=
  match policy with
  | .base => Complete lib self pkts recvSTime recvSMin recvSMax
  | .nimble =>
    if req.any Pkt.hasBtleConnectReq then
      Complete lib self pkts recvSTime recvSMin (some 500000)
    else
      (recvSMin.getD self.recvSMin ≤ recvSTime ∧ pkts = []) ∨
        (pkts.any Pkt.hasBtleAdvInd = true ∧ pkts.any Pkt.hasBtleScanRsp = true) ∨
        Complete lib self pkts recvSTime recvSMin recvSMax
  | .nrf52840DKNimble =>
    if req.any Pkt.hasBtleConnectReq then
      Complete lib self pkts recvSTime recvSMin (some 2000000)
    else
      (recvSMin.getD self.recvSMin ≤ recvSTime ∧ pkts = []) ∨
        Complete lib self pkts recvSTime recvSMin recvSMax

/-! ## The two counters -/

/-- One pass of the loop. -/
def countStep (table : List (Text × Text)) (counts : ℕ × ℕ) (pkt : Pkt) : ℕ × ℕ :=
  if pkt.isCyclic then
    (counts.1, counts.2 + 1)
  else
    ((announces lib table pkt).getD (counts.1 - 1), 0)

variable {lib}

/-- A cyclic packet is no response. -/
theorem responses_concat_cyclic {pkt : Pkt} (h : pkt.isCyclic = true) (pkts : List Pkt) :
    responses (pkts ++ [pkt]) = responses pkts := by
  simp [responses, h]

/-- Any other packet is one. -/
theorem responses_concat {pkt : Pkt} (h : ¬ pkt.isCyclic = true) (pkts : List Pkt) :
    responses (pkts ++ [pkt]) = responses pkts ++ [pkt] := by
  simp [responses, h]

/-- A cyclic packet is counted. -/
theorem cyclicSeen_concat_cyclic {pkt : Pkt} (h : pkt.isCyclic = true) (pkts : List Pkt) :
    cyclicSeen (pkts ++ [pkt]) = cyclicSeen pkts + 1 := by
  rw [cyclicSeen, List.rtakeWhile_concat_pos _ _ _ h, List.length_append, List.length_singleton,
    cyclicSeen]

/-- Any other packet sets the count to zero. -/
theorem cyclicSeen_concat {pkt : Pkt} (h : ¬ pkt.isCyclic = true) (pkts : List Pkt) :
    cyclicSeen (pkts ++ [pkt]) = 0 := by
  rw [cyclicSeen, List.rtakeWhile_concat_neg _ _ _ h, List.length_nil]

/-- A cyclic packet is no response. -/
theorem rspExpected_concat_cyclic (table : List (Text × Text)) {pkt : Pkt}
    (h : pkt.isCyclic = true) (pkts : List Pkt) :
    rspExpected lib table (pkts ++ [pkt]) = rspExpected lib table pkts := by
  rw [rspExpected, lastAnnouncing, unannouncing, responses_concat_cyclic h, rspExpected,
    lastAnnouncing, unannouncing]

/-- A response counts down, or starts a new count. -/
theorem rspExpected_concat (table : List (Text × Text)) {pkt : Pkt} (h : ¬ pkt.isCyclic = true)
    (pkts : List Pkt) :
    rspExpected lib table (pkts ++ [pkt]) =
      (announces lib table pkt).getD (rspExpected lib table pkts - 1) := by
  rw [rspExpected, lastAnnouncing, unannouncing, responses_concat h]
  cases hpkt : announces lib table pkt with
  | some n =>
    have hneg : ¬ (fun pkt => (announces lib table pkt).isNone) pkt = true := by simp [hpkt]
    rw [List.rtakeWhile_concat_neg (fun pkt => (announces lib table pkt).isNone) _ _ hneg,
      List.rdropWhile_concat_neg (fun pkt => (announces lib table pkt).isNone) _ _ hneg,
      List.getLast?_concat, Option.bind_some, hpkt]
    rfl
  | none =>
    have hpos : (fun pkt => (announces lib table pkt).isNone) pkt = true := by simp [hpkt]
    rw [List.rtakeWhile_concat_pos (fun pkt => (announces lib table pkt).isNone) _ _ hpos,
      List.rdropWhile_concat_pos (fun pkt => (announces lib table pkt).isNone) _ _ hpos,
      List.length_append, List.length_singleton, ← Nat.sub_sub]
    rfl

/-- **The loop of `is_rsp_complete` computes the two counts.** -/
theorem foldl_countStep (table : List (Text × Text)) (pkts : List Pkt) :
    pkts.foldl (countStep lib table) (1, 0) = (rspExpected lib table pkts, cyclicSeen pkts) := by
  induction pkts using List.reverseRecOn with
  | nil => rfl
  | append_singleton pkts pkt ih =>
    rw [List.foldl_append, List.foldl_cons, List.foldl_nil, ih, countStep]
    by_cases h : pkt.isCyclic = true
    · rw [if_pos h, rspExpected_concat_cyclic table h, cyclicSeen_concat_cyclic h]
    · rw [if_neg h, rspExpected_concat table h, cyclicSeen_concat h]

/-- Only cyclic packets at the end of a list change nothing but their number. -/
theorem counts_append_cyclic (table : List (Text × Text)) (pkts : List Pkt) {more : List Pkt}
    (h : ∀ pkt ∈ more, pkt.isCyclic = true) :
    rspExpected lib table (pkts ++ more) = rspExpected lib table pkts ∧
      cyclicSeen (pkts ++ more) = cyclicSeen pkts + more.length := by
  induction more using List.reverseRecOn with
  | nil => simp
  | append_singleton more pkt ih =>
    obtain ⟨hexpected, hseen⟩ := ih fun pkt' hmem => h pkt' (List.mem_append_left _ hmem)
    have hpkt : pkt.isCyclic = true := h pkt (List.mem_append_right _ List.mem_cons_self)
    rw [← List.append_assoc, rspExpected_concat_cyclic table hpkt, cyclicSeen_concat_cyclic hpkt,
      hexpected, hseen, List.length_append, List.length_singleton]
    exact ⟨rfl, by omega⟩

/-- What seems complete still does after cyclic packets. -/
theorem SeemsComplete.append_cyclic {table : List (Text × Text)} {pkts more : List Pkt}
    (hseems : SeemsComplete lib table pkts) (h : ∀ pkt ∈ more, pkt.isCyclic = true) :
    SeemsComplete lib table (pkts ++ more) := by
  obtain ⟨hexpected, hseen⟩ := counts_append_cyclic table pkts h
  rw [SeemsComplete, hexpected, hseen]
  rcases hseems with ⟨hzero, hfive⟩ | hten
  · exact .inl ⟨hzero, by omega⟩
  · exact .inr (by omega)

/-! ## The programs -/

/-- The symbol of a single packet is its own. -/
theorem packetsSymbol_singleton (table : List (Text × Text)) (pkt : Pkt) :
    packetsSymbol lib table [pkt] = packetSymbol lib table pkt := by
  rw [packetsSymbol, if_neg (List.cons_ne_nil _ _), List.map_singleton,
    List.Nodup.dedup (List.nodup_singleton _)]
  exact List.append_nil _

/-- The loop folds its step over the packets, and creates the table of symbols if need be. -/
theorem countRsp_returns (counts : ℕ × ℕ) (pkts : List Pkt) (w : World τ) :
    ∃ symbols, (countRsp lib counts.1 counts.2 pkts).Returns w
      (pkts.foldl (countStep lib (w.self.table lib)) counts)
      { w with self := { w.self with symbols := symbols } } := by
  induction pkts generalizing counts w with
  | nil => exact ⟨w.self.symbols, .pure _ _⟩
  | cons pkt pkts ih =>
    rw [List.foldl_cons, countStep]
    by_cases hcyclic : pkt.isCyclic = true
    · rw [countRsp, if_pos hcyclic, if_pos hcyclic]
      exact ih (counts.1, counts.2 + 1) w
    · have hsymbol := @outputSymbol_ok _ lib w [pkt]
      rw [packetsSymbol_singleton] at hsymbol
      rw [countRsp, if_neg hcyclic, if_neg hcyclic]
      obtain ⟨symbols, hrest⟩ := ih ((announces lib (w.self.table lib) pkt).getD (counts.1 - 1), 0)
        { w with self := { w.self with symbols := some (w.self.table lib) } }
      exact ⟨symbols, hsymbol.bind hrest⟩

/-- A program decides `P`, without raising. -/
def Decides (m : Program τ Bool) (w : World τ) (P : Prop) : Prop :=
  ∃ complete, m.result w = .ok complete ∧ (complete = true ↔ P)

/-- After a program that returns, the rest decides. -/
theorem Decides.bind {α : Type} {m : Program τ α} {f : α → Program τ Bool} {w w' : World τ} {a : α}
    {P : Prop} (hm : m.Returns w a w') (hf : Decides (f a) w' P) : Decides (m >>= f) w P := by
  obtain ⟨complete, hresult, hiff⟩ := hf
  refine ⟨complete, ?_, hiff⟩
  rw [(bind_ok hm.1).1, hm.2]
  exact hresult

/-- **`BLESUL.is_rsp_complete` decides `Complete`.** -/
theorem isRspCompleteBase_decides (w : World τ) (pkts : List Pkt) (recvSTime : ℤ)
    (recvSMin recvSMax : Option ℤ) :
    Decides (isRspCompleteBase lib pkts recvSTime recvSMin recvSMax) w
      (Complete lib w.self pkts recvSTime recvSMin recvSMax) := by
  obtain ⟨symbols, hcount⟩ := @countRsp_returns _ lib (1, 0) pkts w
  rw [foldl_countStep] at hcount
  refine .bind hcount (.bind (getSelf_returns _) ⟨_, rfl, ?_⟩)
  have hmax (a b : ℤ) : (if b < a then a else b) = max a b := by
    split
    · exact (max_eq_left (by omega)).symm
    · exact (max_eq_right (by omega)).symm
  rw [Complete, SeemsComplete, ← hmax]
  simp only [Bool.or_eq_true, Bool.and_eq_true, decide_eq_true_eq, beq_iff_eq]

/-- An early exit. -/
theorem Decides.early {m : Program τ Bool} {w : World τ} {P Q : Prop} {c : Bool} (hc : c = true ↔ Q)
    (h : Decides m w P) : Decides (if c then return true else m) w (Q ∨ P) := by
  rw [← hc]
  cases c with
  | true => exact ⟨true, rfl, by simp⟩
  | false =>
    obtain ⟨complete, hresult, hiff⟩ := h
    exact ⟨complete, hresult, by simpa using hiff⟩

/-- Every version decides what it should. -/
theorem isRspComplete_decides (cls : MapperClass) (w : World τ) (pkts : List Pkt) (recvSTime : ℤ)
    (recvSMin recvSMax : Option ℤ) (req : Option Pkt) :
    Decides (isRspComplete lib cls pkts recvSTime recvSMin recvSMax req) w
      (CompleteFor lib cls.isRspComplete w.self pkts recvSTime recvSMin recvSMax req) := by
  have hbase (recvSMin recvSMax : Option ℤ) :
      Decides (isRspCompleteBase lib pkts recvSTime recvSMin recvSMax) w
        (Complete lib w.self pkts recvSTime recvSMin recvSMax) :=
    isRspCompleteBase_decides w pkts recvSTime recvSMin recvSMax
  -- the minimum that a subclass hands on is the one the base class would take
  have hhanded := hbase (some (recvSMin.getD w.self.recvSMin)) recvSMax
  have hempty : (decide (recvSMin.getD w.self.recvSMin ≤ recvSTime) && pkts.isEmpty) = true ↔
      recvSMin.getD w.self.recvSMin ≤ recvSTime ∧ pkts = [] := by
    rw [Bool.and_eq_true, decide_eq_true_iff, List.isEmpty_iff]
  rw [isRspComplete]
  match cls.isRspComplete with
  | .base => exact hbase recvSMin recvSMax
  | .nimble =>
    show Decides (isRspCompleteNimble lib pkts recvSTime recvSMin recvSMax req) w
      (if req.any Pkt.hasBtleConnectReq then _ else _)
    rw [isRspCompleteNimble]
    split
    · exact hbase recvSMin (some 500000)
    · refine .bind (getSelf_returns w) ?_
      exact .early hempty (.early (Bool.and_eq_true _ _ ▸ Iff.rfl) hhanded)
  | .nrf52840DKNimble =>
    show Decides (isRspCompleteNrf52840DKNimble lib pkts recvSTime recvSMin recvSMax req) w
      (if req.any Pkt.hasBtleConnectReq then _ else _)
    rw [isRspCompleteNrf52840DKNimble]
    split
    · exact hbase recvSMin (some 2000000)
    · refine .bind (getSelf_returns w) ?_
      exact .early hempty hhanded

/-! ## A complete response stays complete -/

/-- Two objects have one table of symbols and the same bounds. -/
structure SameRsp (lib : Lib τ) (s s' : Blesul) : Prop where
  table : s'.table lib = s.table lib
  recvSMin : s'.recvSMin = s.recvSMin
  recvSMax : s'.recvSMax = s.recvSMax

/-- More time, and more cyclic packets. -/
theorem Complete.later {self self' : Blesul} (hsame : SameRsp lib self self') {pkts more : List Pkt}
    (hmore : ∀ pkt ∈ more, pkt.isCyclic = true) {recvSTime later : ℤ} (hle : recvSTime ≤ later)
    {recvSMin recvSMax : Option ℤ} (h : Complete lib self pkts recvSTime recvSMin recvSMax) :
    Complete lib self' (pkts ++ more) later recvSMin recvSMax := by
  rw [Complete, hsame.table, hsame.recvSMin, hsame.recvSMax]
  rcases h with hmax | ⟨hmin, hseems⟩
  · exact .inl (hmax.trans hle)
  · exact .inr ⟨hmin.trans hle, hseems.append_cyclic hmore⟩

/-- More time, in every version. -/
theorem CompleteFor.later {policy : RspPolicy} {self self' : Blesul}
    (hsame : SameRsp lib self self') {pkts : List Pkt} {recvSTime later : ℤ}
    (hle : recvSTime ≤ later) {recvSMin recvSMax : Option ℤ} {req : Option Pkt}
    (h : CompleteFor lib policy self pkts recvSTime recvSMin recvSMax req) :
    CompleteFor lib policy self' pkts later recvSMin recvSMax req := by
  have hbase (recvSMax : Option ℤ) (h : Complete lib self pkts recvSTime recvSMin recvSMax) :
      Complete lib self' pkts later recvSMin recvSMax := by
    have hnone : ∀ pkt ∈ ([] : List Pkt), pkt.isCyclic = true := List.forall_mem_nil _
    have hlater := h.later hsame hnone hle
    rwa [List.append_nil] at hlater
  have hempty (h : recvSMin.getD self.recvSMin ≤ recvSTime ∧ pkts = []) :
      recvSMin.getD self'.recvSMin ≤ later ∧ pkts = [] := by
    rw [hsame.recvSMin]
    exact ⟨h.1.trans hle, h.2⟩
  cases policy with
  | base => exact hbase _ h
  | nimble =>
    rw [CompleteFor] at h ⊢
    by_cases hconnects : req.any Pkt.hasBtleConnectReq = true
    · rw [if_pos hconnects] at h ⊢
      exact hbase _ h
    · rw [if_neg hconnects] at h ⊢
      exact h.imp hempty (Or.imp_right (hbase _))
  | nrf52840DKNimble =>
    rw [CompleteFor] at h ⊢
    by_cases hconnects : req.any Pkt.hasBtleConnectReq = true
    · rw [if_pos hconnects] at h ⊢
      exact hbase _ h
    · rw [if_neg hconnects] at h ⊢
      exact h.imp hempty (hbase _)

/-- What is decided can be read off the result. -/
theorem Decides.result {m : Program τ Bool} {w : World τ} {P : Prop} (h : Decides m w P) :
    m.result w = .ok true ↔ P := by
  obtain ⟨complete, hresult, hiff⟩ := h
  rw [hresult, ← hiff, Except.ok.injEq]

end BleFuzzer.Mapper

import BleFuzzer.Bridge.Fifo

/-!
# Runs of the ring buffer

A run is a list of operations, each called under the guard that its callers use. The same operations
on a list of bytes are the queue that the buffer is for: `fifo_refines_queue` compares the two runs,
over any number of turns of the buffer. `FifoOp.accesses` lists what an operation uses of the array,
with the state of the buffer at that moment, since the operations on several bytes pass through
several states.
-/

namespace BleFuzzer.Bridge

/-- A call of an operation of `fifo.h`. -/
inductive FifoOp
  | addByte (c : UInt8)
  | addBuf (data : Bytes)
  | getByte
  | getBuf (size : ℕ)
  | peek (offset : ℕ)
deriving Repr, DecidableEq

/-- What the callers make sure of. -/
def FifoOp.guard (f : Fifo) : FifoOp → Bool
  | .addByte _ => !fifoIsFull f
  | .addBuf data => fifoHasSpace f data.length
  | .getByte => !fifoIsEmpty f
  | .getBuf size => decide (size ≤ fifoGetSize f)
  | .peek offset => decide (offset < fifoGetSize f)

/-- The call: the bytes it returns, and the buffer after it. -/
def FifoOp.apply (f : Fifo) : FifoOp → Bytes × Fifo
  | .addByte c => ([], fifoAddByte f c)
  | .addBuf data => ([], fifoAddBuf f data)
  | .getByte => ([(fifoGetByte f).1], (fifoGetByte f).2)
  | .getBuf size => fifoGetBuf f size
  | .peek offset => ([fifoPeek f offset], f)

/-- The operation on a queue. -/
def FifoOp.applyQueue (q : Bytes) : FifoOp → Bytes × Bytes
  | .addByte c => ([], q ++ [c])
  | .addBuf data => ([], q ++ data)
  | .getByte => (q.take 1, q.drop 1)
  | .getBuf size => (q.take size, q.drop size)
  | .peek offset => ((q.drop offset).take 1, q)

/-- A run: what each operation returns, and where the run ends. -/
def runOps {σ : Type} (apply : σ → FifoOp → Bytes × σ) : σ → List FifoOp → List Bytes × σ
  | s, [] => ([], s)
  | s, op :: ops =>
    ((apply s op).1 :: (runOps apply (apply s op).2 ops).1, (runOps apply (apply s op).2 ops).2)

/-- Every operation of a run is called under its guard. -/
def guarded : Fifo → List FifoOp → Bool
  | _, [] => true
  | f, op :: ops => op.guard f && guarded (op.apply f).2 ops

/-! ## The array -/

/-- The accesses of `fifo_add_buf`. -/
def addBufAccesses : Fifo → Bytes → List (Fifo × ℕ)
  | _, [] => []
  | f, c :: data => (f, f.headPos) :: addBufAccesses (fifoAddByte f c) data

/-- The accesses of `fifo_get_buf`. -/
def getBufAccesses : Fifo → ℕ → List (Fifo × ℕ)
  | _, 0 => []
  | f, size + 1 => (f, f.tail.toNat) :: getBufAccesses (fifoGetByte f).2 size

/-- The indices an operation uses, each with the buffer it is computed from. -/
def FifoOp.accesses (f : Fifo) : FifoOp → List (Fifo × ℕ)
  | .addByte _ => [(f, f.headPos)]
  | .addBuf data => addBufAccesses f data
  | .getByte => [(f, f.tail.toNat)]
  | .getBuf size => getBufAccesses f size
  | .peek offset => [(f, f.tailOffset offset)]

/-- The accesses of a run. -/
def runAccesses : Fifo → List FifoOp → List (Fifo × ℕ)
  | _, [] => []
  | f, op :: ops => op.accesses f ++ runAccesses (op.apply f).2 ops

/-- A buffer with `cap` bytes is in bounds. -/
structure Fifo.InBounds (cap : ℕ) (f : Fifo) : Prop where
  capacity_eq : fifoGetCapacity f = cap
  tail_lt : f.tail.toNat < cap
  size_le : fifoGetSize f ≤ cap
  buf_length : f.buf.length = cap

/-- An index inside the array, computed from a buffer in bounds. -/
def Inside (cap : ℕ) (access : Fifo × ℕ) : Prop := access.1.InBounds cap ∧ access.2 < cap

/-! ## One operation -/

/-- A buffer of `cap` bytes that holds a queue. -/
def Represents (cap : ℕ) (f : Fifo) (q : Bytes) : Prop := f.Holds q ∧ fifoGetCapacity f = cap

/-- A buffer that represents a queue has its indices in bounds. -/
theorem Represents.inBounds {cap : ℕ} {f : Fifo} {q : Bytes} (h : Represents cap f q) :
    f.InBounds cap := by
  obtain ⟨hf, rfl⟩ := h
  exact ⟨rfl, hf.wf.tail_lt, hf.wf.size_le, hf.wf.buf_length⟩

/-- An index below the capacity is inside the array. -/
theorem Represents.inside {cap : ℕ} {f : Fifo} {q : Bytes} (h : Represents cap f q) {i : ℕ}
    (hi : i < cap) : Inside cap (f, i) :=
  ⟨h.inBounds, hi⟩

/-- Every offset leads into the array. -/
theorem Represents.tailOffset_lt {cap : ℕ} {f : Fifo} {q : Bytes} (h : Represents cap f q) (o : ℕ) :
    f.tailOffset o < cap := by
  rw [← h.inBounds.buf_length]
  exact h.1.wf.tailOffset_lt o

/-- `fifo_add_byte` appends to the queue. -/
theorem Represents.addByte {cap : ℕ} {f : Fifo} {q : Bytes} (h : Represents cap f q)
    (hspace : q.length < cap) (c : UInt8) : Represents cap (fifoAddByte f c) (q ++ [c]) :=
  ⟨fifoAddByte_holds h.1 (h.2 ▸ hspace) c, h.2⟩

/-- `fifo_get_byte` removes the first byte of the queue. -/
theorem Represents.getByte {cap : ℕ} {f : Fifo} {c : UInt8} {q : Bytes}
    (h : Represents cap f (c :: q)) : Represents cap (fifoGetByte f).2 q :=
  ⟨(fifoGetByte_holds h.1).2, h.2⟩

/-- Adding bytes that fit accesses nothing outside the array. -/
theorem addBufAccesses_inside {cap : ℕ} {f : Fifo} {q : Bytes} (h : Represents cap f q)
    (data : Bytes) (hspace : q.length + data.length ≤ cap) :
    ∀ access ∈ addBufAccesses f data, Inside cap access := by
  induction data generalizing f q with
  | nil => exact List.forall_mem_nil _
  | cons c data ih =>
    rw [List.length_cons] at hspace
    have hrest : ∀ access ∈ addBufAccesses (fifoAddByte f c) data, Inside cap access := by
      refine ih (h.addByte (by omega) c) ?_
      rw [List.length_append, List.length_singleton]
      omega
    exact List.forall_mem_cons.mpr ⟨h.inside (h.tailOffset_lt _), hrest⟩

/-- Nor does getting bytes that are there. -/
theorem getBufAccesses_inside {cap : ℕ} {f : Fifo} {q : Bytes} (h : Represents cap f q) (size : ℕ)
    (hsize : size ≤ q.length) : ∀ access ∈ getBufAccesses f size, Inside cap access := by
  induction size generalizing f q with
  | zero => exact List.forall_mem_nil _
  | succ size ih =>
    cases q with
    | nil => exact absurd hsize (by simp)
    | cons c q =>
      rw [List.length_cons] at hsize
      have hrest : ∀ access ∈ getBufAccesses (fifoGetByte f).2 size, Inside cap access :=
        ih h.getByte (by omega)
      exact List.forall_mem_cons.mpr ⟨h.inside h.inBounds.tail_lt, hrest⟩

/-- **One guarded operation** uses the array inside its bounds, returns what the queue returns, and
leaves a buffer that holds the queue after it. -/
theorem FifoOp.apply_represents {cap : ℕ} {f : Fifo} {q : Bytes} (h : Represents cap f q)
    (op : FifoOp) (hguard : op.guard f = true) :
    (op.apply f).1 = (op.applyQueue q).1 ∧
      Represents cap (op.apply f).2 (op.applyQueue q).2 ∧
      ∀ access ∈ op.accesses f, Inside cap access := by
  have hsize : fifoGetSize f = q.length := h.1.size_eq
  have hle : q.length ≤ cap := h.2 ▸ h.1.length_le
  cases op with
  | addByte c =>
    have hfull : fifoIsFull f = false := by simpa [FifoOp.guard] using hguard
    -- a queue that is not full has room for a byte
    have hspace : q.length < cap := by
      have hne : q.length ≠ cap := fun heq => by
        rw [(fifoIsFull_iff h.1).mpr (heq.trans h.2.symm)] at hfull
        cases hfull
      omega
    exact ⟨rfl, h.addByte hspace c, List.forall_mem_singleton.mpr (h.inside (h.tailOffset_lt _))⟩
  | addBuf data =>
    have hspace : q.length + data.length ≤ cap := h.2 ▸ (fifoHasSpace_iff h.1 _).mp hguard
    obtain ⟨hholds, hcap⟩ := fifoAddBuf_holds h.1 data (h.2.symm ▸ hspace)
    exact ⟨rfl, ⟨hholds, hcap.trans h.2⟩, addBufAccesses_inside h data hspace⟩
  | getByte =>
    have hinside : ∀ access ∈ [(f, f.tail.toNat)], Inside cap access :=
      List.forall_mem_singleton.mpr (h.inside h.inBounds.tail_lt)
    cases q with
    | nil =>
      rw [FifoOp.guard, (fifoIsEmpty_iff h.1).mpr rfl] at hguard
      cases hguard
    | cons c q =>
      obtain ⟨hc, -⟩ := fifoGetByte_holds h.1
      exact ⟨congrArg (fun c => [c]) hc, h.getByte, hinside⟩
  | getBuf size =>
    have hlen : size ≤ q.length := hsize ▸ of_decide_eq_true hguard
    -- the bytes asked for come first in the queue
    have hsplit : f.Holds (q.take size ++ q.drop size) := by
      rw [List.take_append_drop]
      exact h.1
    have hget := fifoGetBuf_holds _ _ hsplit
    rw [List.length_take, Nat.min_eq_left hlen] at hget
    obtain ⟨hdata, hholds, hcap⟩ := hget
    exact ⟨hdata, ⟨hholds, hcap.trans h.2⟩, getBufAccesses_inside h size hlen⟩
  | peek offset =>
    have hlt : offset < q.length := hsize ▸ of_decide_eq_true hguard
    refine ⟨?_, h, List.forall_mem_singleton.mpr (h.inside (h.tailOffset_lt _))⟩
    rw [FifoOp.apply, FifoOp.applyQueue, fifoPeek_eq h.1 offset hlt, List.drop_eq_getElem_cons hlt]
    rfl

/-! ## Runs -/

/-- A run from a buffer, and the run of the same operations on the queue it holds. -/
theorem runOps_represents {cap : ℕ} {f : Fifo} {q : Bytes} (h : Represents cap f q)
    (ops : List FifoOp) (hguard : guarded f ops = true) :
    (runOps (fun f op => op.apply f) f ops).1 = (runOps (fun q op => op.applyQueue q) q ops).1 ∧
      Represents cap (runOps (fun f op => op.apply f) f ops).2
        (runOps (fun q op => op.applyQueue q) q ops).2 ∧
      ∀ access ∈ runAccesses f ops, Inside cap access := by
  induction ops generalizing f q with
  | nil => exact ⟨rfl, h, List.forall_mem_nil _⟩
  | cons op ops ih =>
    rw [guarded, Bool.and_eq_true] at hguard
    obtain ⟨hout, hstep, haccess⟩ := op.apply_represents h hguard.1
    obtain ⟨houts, hrun, haccesses⟩ := ih hstep hguard.2
    refine ⟨congrArg₂ List.cons hout houts, hrun, fun access hmem => ?_⟩
    rcases List.mem_append.mp hmem with hmem | hmem
    · exact haccess access hmem
    · exact haccesses access hmem

/-- **The ring buffer refines a bounded queue**: from `FIFO_CREATE`, for every capacity and every
run of operations under their guards. -/
theorem fifo_refines_queue (cap : UInt16) (hcap : 0 < cap.toNat) (ops : List FifoOp)
    (hguard : guarded (fifoCreate cap) ops = true) :
    (runOps (fun f op => op.apply f) (fifoCreate cap) ops).1 =
        (runOps (fun q op => op.applyQueue q) [] ops).1 ∧
      fifoGetSize (runOps (fun f op => op.apply f) (fifoCreate cap) ops).2 =
        (runOps (fun q op => op.applyQueue q) [] ops).2.length ∧
      (runOps (fun f op => op.apply f) (fifoCreate cap) ops).2.InBounds cap.toNat ∧
      ∀ access ∈ runAccesses (fifoCreate cap) ops, Inside cap.toNat access := by
  obtain ⟨houts, hrun, haccesses⟩ := runOps_represents ⟨fifoCreate_holds cap hcap, rfl⟩ ops hguard
  exact ⟨houts, hrun.1.size_eq, hrun.inBounds, haccesses⟩

/-- A buffer of two bytes that is filled, emptied and filled again over its end. -/
theorem fifo_refines_queue_wrap :
    guarded (fifoCreate 2) [.addBuf [1, 2], .getByte, .addByte 3, .peek 1, .getBuf 2] = true ∧
      (runOps (fun f op => op.apply f) (fifoCreate 2)
        [.addBuf [1, 2], .getByte, .addByte 3, .peek 1, .getBuf 2]).1 =
          [[], [1], [], [3], [2, 3]] :=
  ⟨by decide, (fifo_refines_queue 2 (by decide) _ (by decide)).1⟩

end BleFuzzer.Bridge

import BleFuzzer.Common.Bytes
import BleFuzzer.Common.RingView

/-!
# The ring buffer of the serial driver

`struct fifo` of `include/fifo.h` with its three 16-bit fields. The offsets are computed in C `int`
arithmetic, so only the stored fields wrap at `2 ^ 16`.

`Fifo.Holds f q` is the abstraction to a bounded queue: the buffer is well formed and its unread
bytes are `q`. Every operation, called under the guard its callers use, is the queue operation on
`q`.
-/

namespace BleFuzzer.Bridge

/-- `struct fifo`. -/
structure Fifo where
  capacity : UInt16
  size : UInt16
  tail : UInt16
  buf : Bytes
deriving Repr, DecidableEq

/-- `FIFO_CREATE(name, cap)`. -/
def fifoCreate (cap : UInt16) : Fifo :=
  { capacity := cap, size := 0, tail := 0, buf := List.replicate cap.toNat 0 }

/-- `__fifo_tail_offset(f, o)`. -/
def Fifo.tailOffset (f : Fifo) (o : ℕ) : ℕ := (f.tail.toNat + o) % f.capacity.toNat

/-- `__fifo_head_pos(f)`. -/
def Fifo.headPos (f : Fifo) : ℕ := f.tailOffset f.size.toNat

def fifoGetCapacity (f : Fifo) : ℕ := f.capacity.toNat

def fifoGetSize (f : Fifo) : ℕ := f.size.toNat

def fifoIsFull (f : Fifo) : Bool := fifoGetCapacity f == fifoGetSize f

def fifoIsEmpty (f : Fifo) : Bool := fifoGetSize f == 0

/-- `fifo_has_space(f, n)`: the difference is a C `int`, negative when the size exceeds the
capacity. -/
def fifoHasSpace (f : Fifo) (n : ℕ) : Bool :=
  decide ((n : ℤ) ≤ (fifoGetCapacity f : ℤ) - (fifoGetSize f : ℤ))

def fifoPeek (f : Fifo) (offset : ℕ) : UInt8 := f.buf.getD (f.tailOffset offset) 0

def fifoAddByte (f : Fifo) (c : UInt8) : Fifo :=
  { f with buf := f.buf.set f.headPos c, size := f.size + 1 }

/-- `fifo_add_buf(f, data, size)` with `size` the length of `data`. -/
def fifoAddBuf (f : Fifo) (data : Bytes) : Fifo := data.foldl fifoAddByte f

def fifoGetByte (f : Fifo) : UInt8 × Fifo :=
  (f.buf.getD f.tail.toNat 0,
    { f with tail := UInt16.ofNat (f.tailOffset 1), size := f.size - 1 })

/-- `fifo_get_buf(f, data, size)`, returning the bytes it stores in `data`. -/
def fifoGetBuf (f : Fifo) : ℕ → Bytes × Fifo
  | 0 => ([], f)
  | n + 1 => ((fifoGetByte f).1 :: (fifoGetBuf (fifoGetByte f).2 n).1,
      (fifoGetBuf (fifoGetByte f).2 n).2)

/-! ## The queue a buffer holds -/

/-- The shape every buffer made by `FIFO_CREATE` keeps. -/
structure Fifo.Wf (f : Fifo) : Prop where
  cap_pos : 0 < f.capacity.toNat
  tail_lt : f.tail.toNat < f.capacity.toNat
  size_le : f.size.toNat ≤ f.capacity.toNat
  buf_length : f.buf.length = f.capacity.toNat

/-- The unread bytes, oldest first. -/
def Fifo.contents (f : Fifo) : Bytes :=
  ringView (fun i => f.buf.getD i 0) f.capacity.toNat f.tail.toNat f.size.toNat

/-- The buffer is well formed and its unread bytes are the queue `q`. -/
structure Fifo.Holds (f : Fifo) (q : Bytes) : Prop where
  wf : f.Wf
  contents_eq : f.contents = q

/-- A well-formed buffer holds its contents. -/
theorem Fifo.Wf.holds {f : Fifo} (h : f.Wf) : f.Holds f.contents := ⟨h, rfl⟩

/-- `fifo_get_size` is the length of the contents. -/
theorem Fifo.Holds.size_eq {f : Fifo} {q : Bytes} (h : f.Holds q) : fifoGetSize f = q.length := by
  rw [← h.contents_eq, Fifo.contents, ringView_length, fifoGetSize]

/-- No more is held than the capacity. -/
theorem Fifo.Holds.length_le {f : Fifo} {q : Bytes} (h : f.Holds q) :
    q.length ≤ fifoGetCapacity f := by
  rw [← h.size_eq]
  exact h.wf.size_le

/-- A fresh buffer holds the empty queue. -/
theorem fifoCreate_holds (cap : UInt16) (h : 0 < cap.toNat) : (fifoCreate cap).Holds [] :=
  ⟨⟨h, by simpa [fifoCreate] using h, by simp [fifoCreate], by simp [fifoCreate]⟩, rfl⟩

/-- `fifo_is_empty` says whether nothing is held. -/
theorem fifoIsEmpty_iff {f : Fifo} {q : Bytes} (h : f.Holds q) : fifoIsEmpty f = true ↔ q = [] := by
  simp [fifoIsEmpty, h.size_eq]

/-- `fifo_is_full` says whether the capacity is reached. -/
theorem fifoIsFull_iff {f : Fifo} {q : Bytes} (h : f.Holds q) :
    fifoIsFull f = true ↔ q.length = fifoGetCapacity f := by
  rw [fifoIsFull, h.size_eq, beq_iff_eq]
  exact eq_comm

/-- `fifo_has_space` says whether `n` more bytes fit. -/
theorem fifoHasSpace_iff {f : Fifo} {q : Bytes} (h : f.Holds q) (n : ℕ) :
    fifoHasSpace f n = true ↔ q.length + n ≤ fifoGetCapacity f := by
  have hle := h.length_le
  simp only [fifoHasSpace, h.size_eq, decide_eq_true_eq]
  omega

/-- Every index a guarded operation computes is inside the array. -/
theorem Fifo.Wf.tailOffset_lt {f : Fifo} (h : f.Wf) (o : ℕ) : f.tailOffset o < f.buf.length := by
  rw [h.buf_length]
  exact Nat.mod_lt _ h.cap_pos

/-- Peeking below the size reads the queue. -/
theorem fifoPeek_eq {f : Fifo} {q : Bytes} (h : f.Holds q) (o : ℕ) (ho : o < q.length) :
    fifoPeek f o = q[o] := by
  have hsize : o < f.size.toNat := by
    have := h.size_eq
    rw [fifoGetSize] at this
    omega
  have hget : f.contents[o]? = some (f.buf.getD (f.tailOffset o) 0) :=
    ringView_getElem? _ _ _ _ _ hsize
  rw [h.contents_eq, List.getElem?_eq_getElem ho] at hget
  exact (Option.some.inj hget).symm

@[simp] theorem fifoAddByte_capacity (f : Fifo) (c : UInt8) :
    fifoGetCapacity (fifoAddByte f c) = fifoGetCapacity f := rfl

@[simp] theorem fifoGetByte_capacity (f : Fifo) :
    fifoGetCapacity (fifoGetByte f).2 = fifoGetCapacity f := rfl

/-- Adding a byte to a buffer that is not full appends it. -/
theorem fifoAddByte_holds {f : Fifo} {q : Bytes} (h : f.Holds q)
    (hspace : q.length < fifoGetCapacity f) (c : UInt8) : (fifoAddByte f c).Holds (q ++ [c]) := by
  have hsize : f.size.toNat < f.capacity.toNat := by
    have := h.size_eq
    rw [fifoGetSize] at this
    rw [fifoGetCapacity] at hspace
    omega
  have hsize' : (f.size + 1).toNat = f.size.toNat + 1 := by
    have hcap := f.capacity.toNat_lt
    rw [UInt16.toNat_add, show (1 : UInt16).toNat = 1 from rfl]
    omega
  have hhead : f.headPos < f.buf.length := h.wf.tailOffset_lt _
  refine ⟨⟨h.wf.cap_pos, h.wf.tail_lt, ?_, ?_⟩, ?_⟩
  · show (f.size + 1).toNat ≤ f.capacity.toNat
    omega
  · simpa [fifoAddByte] using h.wf.buf_length
  · rw [Fifo.contents, show (fifoAddByte f c).size.toNat = f.size.toNat + 1 from hsize']
    -- the byte goes to the cell behind the last one, and the others keep theirs
    have hpush := ringView_push (fun i => f.buf.getD i 0)
      (fun i => (f.buf.set f.headPos c).getD i 0) f.capacity.toNat f.tail.toNat f.size.toNat hsize
      (by
        intro i hi
        have hne : f.headPos ≠ i := fun he => hi he.symm
        simp [List.getD_eq_getElem?_getD, List.getElem?_set_ne hne])
    have hlast : (f.buf.set f.headPos c).getD f.headPos 0 = c := by
      simp [List.getD_eq_getElem?_getD, List.getElem?_set_self hhead]
    rw [← h.contents_eq]
    exact hpush.trans (by rw [Fifo.contents]; exact congrArg (fun b => _ ++ [b]) hlast)

/-- Reading a byte takes the head of the queue. -/
theorem fifoGetByte_holds {f : Fifo} {c : UInt8} {q : Bytes} (h : f.Holds (c :: q)) :
    (fifoGetByte f).1 = c ∧ (fifoGetByte f).2.Holds q := by
  have hsize : f.size.toNat = q.length + 1 := h.size_eq
  have hsize' : (f.size - 1).toNat = q.length := by
    have := f.size.toNat_lt
    rw [UInt16.toNat_sub, show (1 : UInt16).toNat = 1 from rfl]
    omega
  -- the new tail is below the capacity, so it fits into its field
  have htail : (UInt16.ofNat (f.tailOffset 1)).toNat = f.tailOffset 1 := by
    have hlt : f.tailOffset 1 < f.capacity.toNat := Nat.mod_lt _ h.wf.cap_pos
    exact UInt16.toNat_ofNat_of_lt' (hlt.trans f.capacity.toNat_lt)
  have hview := h.contents_eq
  rw [Fifo.contents, hsize, ringView_pop, Nat.mod_eq_of_lt h.wf.tail_lt] at hview
  obtain ⟨hc, hq⟩ := List.cons.inj hview
  refine ⟨hc, ⟨h.wf.cap_pos, ?_, ?_, h.wf.buf_length⟩, ?_⟩
  · show (UInt16.ofNat (f.tailOffset 1)).toNat < f.capacity.toNat
    rw [htail]
    exact Nat.mod_lt _ h.wf.cap_pos
  · show (f.size - 1).toNat ≤ f.capacity.toNat
    have := h.wf.size_le
    omega
  · show ringView _ f.capacity.toNat (UInt16.ofNat (f.tailOffset 1)).toNat (f.size - 1).toNat = q
    rw [htail, hsize']
    exact hq

/-- Adding a buffer that fits appends it whole. -/
theorem fifoAddBuf_holds {f : Fifo} {q : Bytes} (h : f.Holds q) (data : Bytes)
    (hspace : q.length + data.length ≤ fifoGetCapacity f) :
    (fifoAddBuf f data).Holds (q ++ data) ∧
      fifoGetCapacity (fifoAddBuf f data) = fifoGetCapacity f := by
  induction data generalizing f q with
  | nil => exact ⟨by simpa [fifoAddBuf] using h, rfl⟩
  | cons c data ih =>
    simp only [List.length_cons] at hspace
    have hadd := fifoAddByte_holds h (by omega) c
    have hrest := ih hadd (by
      rw [List.length_append, fifoAddByte_capacity, List.length_singleton]
      omega)
    rw [List.append_assoc, List.singleton_append, fifoAddByte_capacity] at hrest
    exact hrest

/-- `fifo_get_buf` fills its whole destination. -/
theorem fifoGetBuf_length (f : Fifo) (n : ℕ) : (fifoGetBuf f n).1.length = n := by
  induction n generalizing f with
  | zero => rfl
  | succ n ih => rw [fifoGetBuf, List.length_cons, ih]

/-- Reading a prefix of the queue. -/
theorem fifoGetBuf_holds {f : Fifo} (data q : Bytes) (h : f.Holds (data ++ q)) :
    (fifoGetBuf f data.length).1 = data ∧ (fifoGetBuf f data.length).2.Holds q ∧
      fifoGetCapacity (fifoGetBuf f data.length).2 = fifoGetCapacity f := by
  induction data generalizing f with
  | nil => exact ⟨rfl, h, rfl⟩
  | cons c data ih =>
    obtain ⟨hc, hq⟩ := fifoGetByte_holds h
    obtain ⟨hdata, hrest, hcap⟩ := ih hq
    refine ⟨?_, hrest, hcap⟩
    simp only [List.length_cons, fifoGetBuf, hc, hdata]

end BleFuzzer.Bridge

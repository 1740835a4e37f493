import BleFuzzer.Common.Bytes
import Mathlib.Data.List.Forall2
import Mathlib.Data.Nat.Bitwise

/-!
# Copying a received packet into mbufs

`ble_phy_rxpdu_copy` copies a packet from the buffer of `recv_packet` into the chain of mbufs that
the link layer has allocated for it. It copies whole words as far as an mbuf has room for them, and
the last bytes with `memcpy`. An mbuf whose room is not a multiple of four is left with up to three
unused bytes, which the packet then needs further down the chain.

A pointer is represented by the bytes from it to the end of its buffer, and every access is checked
against the buffer.
-/

namespace BleFuzzer.Bridge

/-- An mbuf: the size of the data buffers of its pool, its bytes from `om_data` to the end of its
data buffer, and `om_len`. -/
structure Mbuf where
  ompDatabufLen : ℕ
  omData : Bytes
  omLen : ℕ
deriving Repr, DecidableEq

/-- The data of an mbuf. -/
def Mbuf.data (m : Mbuf) : Bytes := m.omData.take m.omLen

/-- A packet in mbufs: its length and BLE header in the first of them, and the chain. -/
structure RxPduMbufs (η : Type) where
  ompLen : ℕ
  omPkthdrLen : ℕ
  bleHdr : Option η
  first : Mbuf
  next : List Mbuf

inductive CopyFault
  /-- A write past the end of a data buffer. -/
  | dstOverrun
  /-- A read past the end of the packet. -/
  | srcOverrun
  /-- `assert(m != NULL)`. -/
  | noMbuf
deriving Repr, DecidableEq

/-- The loop over the words: the bytes that are then at `dst`, and the bytes `src` points to after
it. The source masks `copylen`, so that it reaches zero. -/
def copyWords : ℕ → Bytes → Bytes → Except CopyFault (Bytes × Bytes)
  | copylen + 4, dst, src =>
    if dst.length < 4 then
      .error .dstOverrun
    else if src.length < 4 then
      .error .srcOverrun
    else do
      let (dst', src') ← copyWords copylen (dst.drop 4) (src.drop 4)
      return (src.take 4 ++ dst', src')
  | _, dst, src => .ok (dst, src)

/-- `memcpy(m->om_data + m->om_len, src, rem_bytes)` and the update of `om_len`. -/
def Mbuf.append (m : Mbuf) (src : Bytes) (remBytes : ℕ) : Except CopyFault Mbuf :=
  if m.omData.length < m.omLen + remBytes then
    .error .dstOverrun
  else if src.length < remBytes then
    .error .srcOverrun
  else
    .ok { m with
      omData := m.omData.take m.omLen ++ src.take remBytes ++ m.omData.drop (m.omLen + remBytes)
      omLen := m.omLen + remBytes }

/-- The locals after an mbuf has been filled with words. -/
structure CopyState where
  m : Mbuf
  mbBytes : ℕ
  remBytes : ℕ
  src : Bytes

/-- Fill an mbuf with words: from the assignment of `copylen` to the end of the loop. -/
def copyAligned (m : Mbuf) (mbBytes remBytes : ℕ) (src : Bytes) : Except CopyFault CopyState := do
  let copylen := min mbBytes remBytes &&& 0xFFFC
  let (dst, src) ← copyWords copylen m.omData src
  return ⟨{ m with omData := dst, omLen := copylen }, mbBytes - copylen, remBytes - copylen, src⟩

/-- The loop over the remaining bytes: the current mbuf and the chain behind it. -/
def copyRemaining (s : CopyState) : List Mbuf → Except CopyFault (Mbuf × List Mbuf)
  | [] =>
    if s.remBytes = 0 then
      .ok (s.m, [])
    else if s.remBytes ≤ s.mbBytes then do
      return (← s.m.append s.src s.remBytes, [])
    else
      .error .noMbuf
  | m :: next =>
    if s.remBytes = 0 then
      .ok (s.m, m :: next)
    else if s.remBytes ≤ s.mbBytes then do
      return (← s.m.append s.src s.remBytes, m :: next)
    else do
      let s' ← copyAligned m m.ompDatabufLen s.remBytes s.src
      let (m', next') ← copyRemaining s' next
      return (s.m, m' :: next')

/-- `mb_bytes` of the first mbuf, an `uint16_t`. -/
def RxPduMbufs.firstMbBytes {η : Type} (rxpdu : RxPduMbufs η) : ℕ :=
  (((rxpdu.first.ompDatabufLen : ℤ) - rxpdu.omPkthdrLen - 4) % 65536).toNat

/-- `ble_phy_rxpdu_copy`, with the global `rx_hdr`. -/
def blePhyRxpduCopy {η : Type} (rxHdr : η) (dptr : Bytes) (rxpdu : RxPduMbufs η) :
    Except CopyFault (RxPduMbufs η) := do
  let s ← copyAligned rxpdu.first rxpdu.firstMbBytes rxpdu.ompLen dptr
  let (first, next) ← copyRemaining s rxpdu.next
  return { rxpdu with bleHdr := some rxHdr, first := first, next := next }

/-! ## Words -/

/-- The mask rounds down to whole words. -/
theorem and_wordMask {n : ℕ} (h : n < 65536) : n &&& 0xFFFC = 4 * (n / 4) := by
  have hshift : 4 * (n / 4) = (n >>> 2) <<< 2 := by
    rw [Nat.shiftRight_eq_div_pow, Nat.shiftLeft_eq, Nat.mul_comm]
  have hmask : 0xFFFC = (2 ^ 14 - 1) <<< 2 := rfl
  rw [hshift, hmask]
  apply Nat.eq_of_testBit_eq
  intro i
  rw [Nat.testBit_and, Nat.testBit_shiftLeft, Nat.testBit_shiftLeft, Nat.testBit_shiftRight,
    Nat.testBit_two_pow_sub_one]
  by_cases hi : 2 ≤ i
  · have hsum : 2 + (i - 2) = i := by omega
    rw [hsum]
    by_cases hlt : i - 2 < 14
    · simp [hi, hlt]
    · -- above the mask there is no bit
      have hnone : n.testBit i = false :=
        Nat.testBit_lt_two_pow (h.trans_le (Nat.pow_le_pow_right Nat.two_pos (by omega : 16 ≤ i)))
      simp [hnone]
  · simp [hi]

/-- The loop over the words copies them. -/
theorem copyWords_ok {k : ℕ} {dst src : Bytes} (hdst : 4 * k ≤ dst.length)
    (hsrc : 4 * k ≤ src.length) :
    copyWords (4 * k) dst src = .ok (src.take (4 * k) ++ dst.drop (4 * k), src.drop (4 * k)) := by
  induction k generalizing dst src with
  | zero => simp [copyWords]
  | succ k ih =>
    rw [Nat.mul_succ] at hdst hsrc ⊢
    rw [copyWords, if_neg (by omega), if_neg (by omega),
      ih (by rw [List.length_drop]; omega) (by rw [List.length_drop]; omega)]
    show Except.ok _ = Except.ok _
    rw [List.drop_drop, List.drop_drop, Nat.add_comm 4, ← List.append_assoc, Nat.add_comm (4 * k),
      List.take_add]

/-! ## Single mbufs -/

/-- What the copy may do to an mbuf with room for `room` bytes: it writes `om_len` bytes that fit,
and nothing behind them. -/
structure Mbuf.Filled (room : ℕ) (m m' : Mbuf) : Prop where
  pool : m'.ompDatabufLen = m.ompDatabufLen
  length : m'.omData.length = m.omData.length
  fits : m'.omLen ≤ room
  behind : m'.omData.drop m'.omLen = m.omData.drop m'.omLen

/-- A buffer that nothing was written to is filled within any room it fits. -/
theorem Mbuf.Filled.refl {room : ℕ} {m : Mbuf} (h : m.omLen ≤ room) : m.Filled room m :=
  ⟨rfl, rfl, h, rfl⟩

/-- Filling may go on from where it has come to. -/
theorem Mbuf.Filled.trans {room room' : ℕ} {m m' m'' : Mbuf} (h : m.Filled room m')
    (h' : m'.Filled room' m'') (hle : m'.omLen ≤ m''.omLen) : m.Filled room' m'' := by
  refine ⟨h'.pool.trans h.pool, h'.length.trans h.length, h'.fits, h'.behind.trans ?_⟩
  obtain ⟨d, hd⟩ := Nat.exists_eq_add_of_le hle
  rw [hd, ← List.drop_drop, ← List.drop_drop, h.behind]

/-- `memcpy` appends the bytes. -/
theorem Mbuf.append_ok {m : Mbuf} {src : Bytes} {remBytes : ℕ}
    (hdst : m.omLen + remBytes ≤ m.omData.length) (hsrc : remBytes ≤ src.length) :
    ∃ m', m.append src remBytes = .ok m' ∧ m'.data = m.data ++ src.take remBytes ∧
      m.Filled (m.omLen + remBytes) m' ∧ m.omLen ≤ m'.omLen := by
  have hhead : (m.omData.take m.omLen ++ src.take remBytes).length = m.omLen + remBytes := by
    rw [List.length_append, List.length_take, List.length_take]
    omega
  have happend : m.append src remBytes = .ok { m with
      omData := m.omData.take m.omLen ++ src.take remBytes ++ m.omData.drop (m.omLen + remBytes)
      omLen := m.omLen + remBytes } := by
    rw [Mbuf.append, if_neg (Nat.not_lt.mpr hdst), if_neg (Nat.not_lt.mpr hsrc)]
  refine ⟨_, happend, ?_, ⟨rfl, ?_, le_rfl, ?_⟩, Nat.le_add_right _ _⟩
  · exact List.take_left' hhead
  · show (m.omData.take m.omLen ++ src.take remBytes ++ _).length = _
    rw [List.length_append, hhead, List.length_drop]
    omega
  · exact List.drop_left' hhead

/-- The words that fit are copied to the start of an mbuf. -/
theorem copyAligned_ok {m : Mbuf} {mbBytes remBytes : ℕ} {src : Bytes}
    (hdst : mbBytes ≤ m.omData.length) (hlt : mbBytes < 65536) (hsrc : remBytes ≤ src.length) :
    ∃ m', copyAligned m mbBytes remBytes src = .ok ⟨m', mbBytes - 4 * (min mbBytes remBytes / 4),
        remBytes - 4 * (min mbBytes remBytes / 4), src.drop (4 * (min mbBytes remBytes / 4))⟩ ∧
      m'.omLen = 4 * (min mbBytes remBytes / 4) ∧
      m'.data = src.take (4 * (min mbBytes remBytes / 4)) ∧ m.Filled mbBytes m' := by
  have hmask := and_wordMask (lt_of_le_of_lt (Nat.min_le_left mbBytes remBytes) hlt)
  set n := 4 * (min mbBytes remBytes / 4) with hn
  have hhead : (src.take n).length = n := by
    rw [List.length_take]
    omega
  have hwords : copyWords n m.omData src = .ok (src.take n ++ m.omData.drop n, src.drop n) :=
    copyWords_ok (by omega) (by omega)
  refine ⟨{ m with omData := src.take n ++ m.omData.drop n, omLen := n }, ?_, rfl, ?_,
    ⟨rfl, ?_, ?_, ?_⟩⟩
  · rw [copyAligned, hmask, hwords]
    rfl
  · exact List.take_left' hhead
  · show (src.take n ++ m.omData.drop n).length = _
    rw [List.length_append, hhead, List.length_drop]
    omega
  · show n ≤ mbBytes
    omega
  · exact List.drop_left' hhead

/-! ## The chain -/

/-- Whether `n` bytes fit mbufs with room for `rooms`: an mbuf that is not the last one takes whole
words only. -/
def Fits : List ℕ → ℕ → Prop
  | [], _ => False
  | room :: rooms, n => n ≤ room ∨ Fits rooms (n - 4 * (room / 4))

instance decidableFits : (rooms : List ℕ) → (n : ℕ) → Decidable (Fits rooms n)
  | [], _ => .isFalse id
  | room :: rooms, n => @instDecidableOr _ _ _ (decidableFits rooms (n - 4 * (room / 4)))

/-- After an mbuf has been filled with words, what is left has to fit the rest of it, or the chain.
-/
theorem fits_cons_iff (room n : ℕ) (rooms : List ℕ) :
    (n - 4 * (min room n / 4) ≤ room - 4 * (min room n / 4) ∨ Fits rooms (n - 4 * (min room n / 4))) ↔
      Fits (room :: rooms) n := by
  rw [Fits]
  by_cases hlast : n ≤ room
  · exact iff_of_true (.inl (by omega)) (.inl hlast)
  · rw [or_iff_right hlast, or_iff_right (by omega), Nat.min_eq_left (by omega)]

/-- No more bytes fit than there is room for. -/
theorem Fits.le_sum {rooms : List ℕ} {n : ℕ} (h : Fits rooms n) : n ≤ rooms.sum := by
  induction rooms generalizing n with
  | nil => exact absurd h id
  | cons room rooms ih =>
    rw [List.sum_cons]
    rcases h with hle | hrest
    · exact hle.trans (Nat.le_add_right _ _)
    · have := ih hrest
      omega

/-- When every mbuf has room for whole words, nothing of the room is lost. -/
theorem fits_iff_le_sum {room : ℕ} {rooms : List ℕ} (h : ∀ r ∈ room :: rooms, 4 ∣ r) (n : ℕ) :
    Fits (room :: rooms) n ↔ n ≤ (room :: rooms).sum := by
  refine ⟨Fits.le_sum, fun hle => ?_⟩
  induction rooms generalizing room n with
  | nil => exact .inl (by rwa [List.sum_singleton] at hle)
  | cons next rooms ih =>
    obtain ⟨hroom, hrooms⟩ := List.forall_mem_cons.mp h
    rw [List.sum_cons] at hle
    rw [Fits, Nat.mul_div_cancel' hroom]
    exact .inr (ih hrooms (n - room) (by omega))

/-- An mbuf as the pool hands it out. -/
structure Mbuf.Fresh (m : Mbuf) : Prop where
  room : m.ompDatabufLen ≤ m.omData.length
  size : m.ompDatabufLen < 65536
  empty : m.omLen = 0

/-- The data of a chain. -/
def chainData (chain : List Mbuf) : Bytes := (chain.map Mbuf.data).flatten

/-- Fresh buffers hold no data. -/
theorem chainData_fresh {chain : List Mbuf} (h : ∀ m ∈ chain, m.Fresh) : chainData chain = [] := by
  rw [chainData, List.flatten_eq_nil_iff, List.forall_mem_map]
  intro m hm
  rw [Mbuf.data, (h m hm).empty, List.take_zero]

/-- Each mbuf of a chain is filled within its pool's size. -/
def ChainFilled : List Mbuf → List Mbuf → Prop :=
  List.Forall₂ fun m m' => m.Filled m.ompDatabufLen m'

/-- A chain of fresh buffers starts like that. -/
theorem chainFilled_fresh {chain : List Mbuf} (h : ∀ m ∈ chain, m.Fresh) :
    ChainFilled chain chain := by
  rw [ChainFilled, List.forall₂_same]
  intro m hm
  exact .refl ((h m hm).empty.trans_le (Nat.zero_le _))

/-- What the chain is after the copy of `data` behind the current mbuf. -/
structure Copied (s : CopyState) (next : List Mbuf) (m' : Mbuf) (next' : List Mbuf) : Prop where
  data : m'.data ++ chainData next' = s.m.data ++ s.src.take s.remBytes
  first : s.m.Filled (s.m.omLen + s.mbBytes) m'
  grows : s.m.omLen ≤ m'.omLen
  next : ChainFilled next next'

/-- The loop over the remaining bytes ends at once when they fit the current mbuf. -/
theorem copyRemaining_fits {s : CopyState} {next : List Mbuf} (hnext : ∀ m ∈ next, m.Fresh)
    (hroom : s.m.omLen + s.mbBytes ≤ s.m.omData.length) (hsrc : s.remBytes ≤ s.src.length)
    (hfits : s.remBytes ≤ s.mbBytes) :
    ∃ m', copyRemaining s next = .ok (m', next) ∧ Copied s next m' next := by
  by_cases hzero : s.remBytes = 0
  · refine ⟨s.m, ?_, ⟨?_, .refl (Nat.le_add_right _ _), le_rfl, chainFilled_fresh hnext⟩⟩
    · cases next <;> rw [copyRemaining, if_pos hzero]
    · rw [chainData_fresh hnext, hzero, List.take_zero]
  · obtain ⟨m', happend, hdata, hfilled, hgrows⟩ :=
      Mbuf.append_ok (show s.m.omLen + s.remBytes ≤ s.m.omData.length by omega) hsrc
    refine ⟨m', ?_, ⟨?_, ⟨hfilled.pool, hfilled.length, ?_, hfilled.behind⟩, hgrows,
      chainFilled_fresh hnext⟩⟩
    · cases next <;> rw [copyRemaining, if_neg hzero, if_pos hfits, happend] <;> rfl
    · rw [chainData_fresh hnext, List.append_nil, hdata]
    · have := hfilled.fits
      omega

/-- **The loop over the remaining bytes.** It copies all of them when they fit the current mbuf and
the chain behind it, and else it runs out of mbufs. -/
theorem copyRemaining_spec {s : CopyState} {next : List Mbuf} (hnext : ∀ m ∈ next, m.Fresh)
    (hroom : s.m.omLen + s.mbBytes ≤ s.m.omData.length) (hsrc : s.remBytes ≤ s.src.length) :
    (s.remBytes ≤ s.mbBytes ∨ Fits (next.map Mbuf.ompDatabufLen) s.remBytes →
      ∃ m' next', copyRemaining s next = .ok (m', next') ∧ Copied s next m' next') ∧
    (¬ (s.remBytes ≤ s.mbBytes ∨ Fits (next.map Mbuf.ompDatabufLen) s.remBytes) →
      copyRemaining s next = .error .noMbuf) := by
  induction next generalizing s with
  | nil =>
    refine ⟨fun hfits => ?_, fun hfull => ?_⟩
    · rcases hfits with hfits | hnone
      · obtain ⟨m', hcopy, hcopied⟩ := copyRemaining_fits hnext hroom hsrc hfits
        exact ⟨m', [], hcopy, hcopied⟩
      · exact absurd hnone id
    · have hlong : ¬ s.remBytes ≤ s.mbBytes := fun hle => hfull (.inl hle)
      rw [copyRemaining, if_neg (by omega), if_neg hlong]
  | cons m next ih =>
    by_cases hfits : s.remBytes ≤ s.mbBytes
    · refine ⟨fun _ => ?_, fun hfull => absurd (.inl hfits) hfull⟩
      obtain ⟨m', hcopy, hcopied⟩ := copyRemaining_fits hnext hroom hsrc hfits
      exact ⟨m', m :: next, hcopy, hcopied⟩
    · -- the current mbuf keeps its words, and the next one is filled
      have hfresh := hnext m List.mem_cons_self
      obtain ⟨mw, haligned, hlen, hdata, hfilled⟩ :=
        copyAligned_ok hfresh.room hfresh.size hsrc
      set n := 4 * (min m.ompDatabufLen s.remBytes / 4) with hn
      have hle : n ≤ m.ompDatabufLen := by omega
      have hnext' : ∀ m ∈ next, m.Fresh := fun x hx => hnext x (List.mem_cons_of_mem m hx)
      have hroom' : mw.omLen + (m.ompDatabufLen - n) ≤ mw.omData.length := by
        rw [hlen, hfilled.length]
        have := hfresh.room
        omega
      have hsrc' : s.remBytes - n ≤ (s.src.drop n).length := by
        rw [List.length_drop]
        omega
      have hstep : copyRemaining s (m :: next) =
          (copyRemaining ⟨mw, m.ompDatabufLen - n, s.remBytes - n, s.src.drop n⟩ next).map
            fun r => (s.m, r.1 :: r.2) := by
        rw [copyRemaining, if_neg (by omega), if_neg hfits, haligned]
        show (copyRemaining _ next >>= _) = _
        cases copyRemaining ⟨mw, m.ompDatabufLen - n, s.remBytes - n, s.src.drop n⟩ next <;> rfl
      have hiff : (s.remBytes - n ≤ m.ompDatabufLen - n ∨
          Fits (next.map Mbuf.ompDatabufLen) (s.remBytes - n)) ↔
            (s.remBytes ≤ s.mbBytes ∨ Fits ((m :: next).map Mbuf.ompDatabufLen) s.remBytes) := by
        rw [or_iff_right hfits]
        exact fits_cons_iff _ _ _
      obtain ⟨hok, hfail⟩ :=
        ih (s := ⟨mw, m.ompDatabufLen - n, s.remBytes - n, s.src.drop n⟩) hnext' hroom' hsrc'
      rw [← hiff, hstep]
      refine ⟨fun hfits' => ?_, fun hfull => by rw [hfail hfull]; rfl⟩
      obtain ⟨m', next', hcopy, hcopied⟩ := hok hfits'
      refine ⟨s.m, m' :: next', by rw [hcopy]; rfl, ⟨?_, .refl (Nat.le_add_right _ _), le_rfl, ?_⟩⟩
      · show s.m.data ++ (m'.data ++ chainData next') = _
        rw [hcopied.data, hdata, ← List.take_add, Nat.add_sub_cancel' (by omega)]
      · have hboth := hfilled.trans hcopied.first hcopied.grows
        rw [hlen, Nat.add_sub_cancel' hle] at hboth
        exact .cons hboth hcopied.next

/-! ## The function -/

variable {η : Type}

/-- The room of the mbufs: the first one also holds the packet header and four bytes before its
data. -/
def RxPduMbufs.rooms (rxpdu : RxPduMbufs η) : List ℕ :=
  (rxpdu.first.ompDatabufLen - rxpdu.omPkthdrLen - 4) :: rxpdu.next.map Mbuf.ompDatabufLen

/-- A chain as the link layer allocates it. -/
structure RxPduMbufs.Fresh (rxpdu : RxPduMbufs η) : Prop where
  hdr : rxpdu.omPkthdrLen + 4 ≤ rxpdu.first.ompDatabufLen
  room : rxpdu.first.ompDatabufLen - rxpdu.omPkthdrLen - 4 ≤ rxpdu.first.omData.length
  size : rxpdu.first.ompDatabufLen < 65536
  next : ∀ m ∈ rxpdu.next, m.Fresh

/-- The room in the first buffer of a fresh chain. -/
theorem RxPduMbufs.Fresh.firstMbBytes_eq {rxpdu : RxPduMbufs η} (h : rxpdu.Fresh) :
    rxpdu.firstMbBytes = rxpdu.first.ompDatabufLen - rxpdu.omPkthdrLen - 4 := by
  have hhdr := h.hdr
  have hsize := h.size
  rw [RxPduMbufs.firstMbBytes]
  omega

/-- The packet is in the mbufs: its bytes in their order, under its header, and nothing else is
written. -/
structure RxPduMbufs.Holds (rxpdu r : RxPduMbufs η) (rxHdr : η) (pdu : Bytes) : Prop where
  data : chainData (r.first :: r.next) = pdu
  bleHdr : r.bleHdr = some rxHdr
  ompLen : r.ompLen = rxpdu.ompLen
  first : rxpdu.first.Filled (rxpdu.first.ompDatabufLen - rxpdu.omPkthdrLen - 4) r.first
  next : ChainFilled rxpdu.next r.next

/-- **The copy of a received packet.** If the packet fits the chain, the mbufs hold exactly its
bytes, and else the assertion on the next mbuf fails; no access is out of bounds in either case.
When every mbuf has room for whole words, the packet fits if and only if there is room for it. -/
theorem blePhyRxpduCopy_spec (rxHdr : η) {dptr : Bytes} {rxpdu : RxPduMbufs η} (h : rxpdu.Fresh)
    (hlen : rxpdu.ompLen ≤ dptr.length) :
    (Fits rxpdu.rooms rxpdu.ompLen → ∃ r, blePhyRxpduCopy rxHdr dptr rxpdu = .ok r ∧
      rxpdu.Holds r rxHdr (dptr.take rxpdu.ompLen)) ∧
    (¬ Fits rxpdu.rooms rxpdu.ompLen → blePhyRxpduCopy rxHdr dptr rxpdu = .error .noMbuf) ∧
    ((∀ room ∈ rxpdu.rooms, 4 ∣ room) →
      (Fits rxpdu.rooms rxpdu.ompLen ↔ rxpdu.ompLen ≤ rxpdu.rooms.sum)) := by
  have hroom := h.room
  have hsize := h.size
  rw [RxPduMbufs.rooms]
  set room := rxpdu.first.ompDatabufLen - rxpdu.omPkthdrLen - 4 with hroomDef
  obtain ⟨mw, haligned, hmw, hdata, hfilled⟩ :=
    copyAligned_ok hroom (lt_of_le_of_lt (by omega) hsize) hlen
  set n := 4 * (min room rxpdu.ompLen / 4) with hn
  have hle : n ≤ room := by omega
  have hroom' : mw.omLen + (room - n) ≤ mw.omData.length := by
    rw [hmw, hfilled.length]
    omega
  have hsrc' : rxpdu.ompLen - n ≤ (dptr.drop n).length := by
    rw [List.length_drop]
    omega
  obtain ⟨hok, hfail⟩ :=
    copyRemaining_spec (s := ⟨mw, room - n, rxpdu.ompLen - n, dptr.drop n⟩) h.next hroom' hsrc'
  rw [fits_cons_iff] at hok hfail
  have hcopy : blePhyRxpduCopy rxHdr dptr rxpdu =
      (copyRemaining ⟨mw, room - n, rxpdu.ompLen - n, dptr.drop n⟩ rxpdu.next).map fun r =>
        { rxpdu with bleHdr := some rxHdr, first := r.1, next := r.2 } := by
    rw [blePhyRxpduCopy, h.firstMbBytes_eq, haligned]
    show (copyRemaining _ rxpdu.next >>= _) = _
    cases copyRemaining ⟨mw, room - n, rxpdu.ompLen - n, dptr.drop n⟩ rxpdu.next <;> rfl
  refine ⟨fun hfits => ?_, fun hfull => by rw [hcopy, hfail hfull]; rfl,
    fun hwords => fits_iff_le_sum hwords _⟩
  obtain ⟨m', next', hrest, hcopied⟩ := hok hfits
  have hfirst := hfilled.trans hcopied.first hcopied.grows
  rw [hmw, Nat.add_sub_cancel' hle] at hfirst
  rw [hrest] at hcopy
  refine ⟨_, hcopy, ⟨?_, rfl, rfl, hfirst, hcopied.next⟩⟩
  show m'.data ++ chainData next' = _
  rw [hcopied.data, hdata, ← List.take_add, Nat.add_sub_cancel' (by omega)]

/-- Two mbufs with room for the same number of bytes. -/
def twoMbufs (ompLen room : ℕ) : RxPduMbufs Unit where
  ompLen := ompLen
  omPkthdrLen := 2
  bleHdr := none
  first := ⟨room + 6, List.replicate room 0, 0⟩
  next := [⟨room, List.replicate room 0, 0⟩]

/-- Seven bytes in mbufs of four. -/
theorem blePhyRxpduCopy_spec_seven : ∃ r, blePhyRxpduCopy () [1, 2, 3, 4, 5, 6, 7] (twoMbufs 7 4) =
    .ok r ∧ chainData (r.first :: r.next) = [1, 2, 3, 4, 5, 6, 7] := by
  have hfresh : (twoMbufs 7 4).Fresh :=
    ⟨by decide, by decide, by decide, List.forall_mem_singleton.mpr ⟨by decide, by decide, rfl⟩⟩
  have hlen : (twoMbufs 7 4).ompLen ≤ [(1 : UInt8), 2, 3, 4, 5, 6, 7].length := by decide
  obtain ⟨r, hcopy, hholds⟩ := (blePhyRxpduCopy_spec () hfresh hlen).1 (by decide)
  exact ⟨r, hcopy, hholds.data⟩

-- twelve bytes have room in two mbufs of six, but the first of them takes one word only
example : blePhyRxpduCopy () (List.replicate 12 1) (twoMbufs 12 6) = .error .noMbuf := rfl

end BleFuzzer.Bridge

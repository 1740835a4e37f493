import Mathlib.Data.List.Basic

/-!
# Framed streams

A framing turns packets into byte frames and reads one whole frame off the front of a buffer. Its
two laws say that a complete frame is read back whatever follows it, and that nothing is read while
the frame is still incomplete. From them, a reader that sees an arbitrary prefix of a concatenation
of frames always stands at a frame boundary: it reads exactly the next packet or waits.
-/

namespace BleFuzzer

/-- A framing of packets `P` over symbols `β`, whose reader returns a `V` for each packet. -/
structure Framing (β P V : Type*) where
  /-- The packets the framing carries. -/
  Ok : P → Prop
  encode : P → List β
  value : P → V
  /-- Read one whole frame off the front of a buffer. -/
  parse : List β → Option (V × List β)
  parse_encode : ∀ p rest, Ok p → parse (encode p ++ rest) = some (value p, rest)
  parse_partial : ∀ p l, Ok p → l <+: encode p → l ≠ encode p → parse l = none

namespace Framing

variable {β P V : Type*} (F : Framing β P V)

/-- The stream carrying a list of packets. -/
def encodeAll (ps : List P) : List β := (ps.map F.encode).flatten

@[simp] theorem encodeAll_nil : F.encodeAll [] = [] := rfl

@[simp] theorem encodeAll_cons (p : P) (ps : List P) :
    F.encodeAll (p :: ps) = F.encode p ++ F.encodeAll ps := by
  simp [encodeAll]

/-- Encodings of two lists follow each other. -/
theorem encodeAll_append (ps qs : List P) :
    F.encodeAll (ps ++ qs) = F.encodeAll ps ++ F.encodeAll qs := by
  simp [encodeAll]

/-- Nothing is read off any prefix of `tail`: what may follow the last frame. -/
def Silent (tail : List β) : Prop := ∀ l, l <+: tail → F.parse l = none

/-- **A reader in the middle of a stream.** Whatever prefix of the stream has arrived in the buffer,
either no frame is complete and less than one frame is waiting, or exactly the next packet is read
and the rest of the buffer is again a prefix of the rest of the stream. -/
theorem parse_stream {ps : List P} {tail buf pending : List β} (hok : ∀ p ∈ ps, F.Ok p)
    (htail : F.Silent tail) (h : buf ++ pending = F.encodeAll ps ++ tail) :
    (F.parse buf = none ∧ (pending = [] → ps = []) ∧ (ps = [] → buf <+: tail) ∧
        ∀ p ∈ ps.head?, buf.length < (F.encode p).length) ∨
      ∃ p ps' rest, ps = p :: ps' ∧ F.parse buf = some (F.value p, rest) ∧
        buf = F.encode p ++ rest ∧ rest ++ pending = F.encodeAll ps' ++ tail := by
  cases ps with
  | nil =>
    left
    rw [encodeAll_nil, List.nil_append] at h
    exact ⟨htail buf ⟨pending, h⟩, fun _ => rfl, fun _ => ⟨pending, h⟩, by simp⟩
  | cons p ps' =>
    have hp : F.Ok p := hok p List.mem_cons_self
    rw [encodeAll_cons, List.append_assoc] at h
    rcases List.append_eq_append_iff.mp h with ⟨mid, hbuf, hpending⟩ | ⟨rest, hbuf, hrest⟩
    · -- the buffer ends inside, or exactly at the end of, the first frame
      by_cases hmid : mid = []
      · subst hmid
        simp only [List.append_nil, List.nil_append] at hbuf hpending
        right
        refine ⟨p, ps', [], rfl, ?_, by rw [List.append_nil, hbuf], by simpa using hpending⟩
        have hread := F.parse_encode p [] hp
        rwa [List.append_nil, hbuf] at hread
      · left
        refine ⟨F.parse_partial p buf hp ⟨mid, hbuf.symm⟩ ?_, ?_, by simp, ?_⟩
        · intro heq
          rw [heq] at hbuf
          exact hmid (List.self_eq_append_right.mp hbuf)
        · rintro rfl
          exact absurd (List.append_eq_nil_iff.mp hpending.symm).1 hmid
        · intro x hx
          obtain rfl : p = x := by simpa using hx
          have hpos := List.length_pos_of_ne_nil hmid
          rw [hbuf, List.length_append]
          omega
    · -- the first frame is complete
      right
      refine ⟨p, ps', rest, rfl, ?_, hbuf, hrest.symm⟩
      rw [hbuf]
      exact F.parse_encode p rest hp

end Framing

end BleFuzzer

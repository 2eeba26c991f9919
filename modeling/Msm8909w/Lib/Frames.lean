import Msm8909w.Lib.Buffer

/-!
# Framed messages on a byte stream

A frame is a tag byte and a payload; on the stream it is the tag, the length of the payload as a
little-endian number of `w` bytes, and the payload.

* `decodeFrames_eq_some_iff` : a stream decodes to a list of frames exactly if it is their
  encoding, so that decoding inverts encoding and no two streams decode to the same frames,
* `get_frame` : a frame built in a buffer, in front of its payload,
* `endsInHeader` : the first `n` bytes of the stream end inside a header; `endsInHeader_append`
  says so of a stream whose first frames are complete.
-/

namespace Msm8909w

/-- A message: its tag and its payload. -/
structure Frame where
  tag : UInt8
  payload : Bytes
  deriving DecidableEq, Repr

namespace Frame

variable {w : ℕ} {f g : Frame}

/-- The bytes before the payload. -/
def header (w : ℕ) (f : Frame) : Bytes := f.tag :: toLE w f.payload.length

/-- The frame as it is sent. -/
def encode (w : ℕ) (f : Frame) : Bytes := f.header w ++ f.payload

/-- The number of bytes sent. -/
def size (w : ℕ) (f : Frame) : ℕ := 1 + w + f.payload.length

@[simp] theorem length_header : (f.header w).length = 1 + w := by
  rw [header, List.length_cons, length_toLE, Nat.add_comm]

@[simp] theorem length_encode : (f.encode w).length = f.size w := by
  rw [encode, List.length_append, length_header, size]

end Frame

variable {w n : ℕ} {f : Frame} {fs gs : List Frame} {b : Bytes}

/-- The frames one after another. -/
def encodeFrames (w : ℕ) (fs : List Frame) : Bytes := fs.flatMap (Frame.encode w)

@[simp] theorem encodeFrames_nil : encodeFrames w [] = [] := rfl

@[simp] theorem encodeFrames_cons :
    encodeFrames w (f :: fs) = f.header w ++ (f.payload ++ encodeFrames w fs) := by
  simp only [encodeFrames, List.flatMap_cons, Frame.encode, List.append_assoc]

theorem encodeFrames_append : encodeFrames w (fs ++ gs) = encodeFrames w fs ++ encodeFrames w gs :=
  List.flatMap_append

theorem length_encodeFrames_cons :
    (encodeFrames w (f :: fs)).length = f.size w + (encodeFrames w fs).length := by
  simp only [encodeFrames_cons, List.length_append, Frame.length_header, Frame.size, Nat.add_assoc]

/-- The first frame of a stream and what follows it. -/
def decodeFrame (w : ℕ) : Bytes → Option (Frame × Bytes)
  | [] => none
  | tag :: b =>
    let len := ofLE (b.take w)
    if w + len ≤ b.length then some (⟨tag, slice b w len⟩, b.drop (w + len)) else none

/-- The frames of a stream that holds nothing but whole frames; `fuel` bounds their number. -/
def decodeFramesAux (w : ℕ) : ℕ → Bytes → Option (List Frame)
  | _, [] => some []
  | 0, _ :: _ => none
  | fuel + 1, b@(_ :: _) =>
    (decodeFrame w b).bind fun p => (decodeFramesAux w fuel p.2).map (p.1 :: ·)

/-- The frames of a stream that holds nothing but whole frames. -/
def decodeFrames (w : ℕ) (b : Bytes) : Option (List Frame) := decodeFramesAux w b.length b

theorem decodeFrame_encode (h : f.payload.length < 256 ^ w) :
    decodeFrame w (f.header w ++ (f.payload ++ b)) = some (f, b) := by
  have htake : (toLE w f.payload.length ++ (f.payload ++ b)).take w = toLE w f.payload.length :=
    List.take_left' (length_toLE _ _)
  have hlen : ofLE (toLE w f.payload.length) = f.payload.length := by
    rw [ofLE_toLE, Nat.mod_eq_of_lt h]
  simp only [Frame.header, List.cons_append, decodeFrame, htake, hlen]
  rw [if_pos (by simp only [List.length_append, length_toLE]; omega), ← List.append_assoc,
    slice_middle (length_toLE _ _) rfl]
  congr 2
  exact List.drop_left' (by rw [List.length_append, length_toLE])

/-- What decodes to a frame starts with the encoding of that frame. -/
theorem eq_of_decodeFrame {c : Bytes} (h : decodeFrame w b = some (f, c)) :
    b = f.header w ++ (f.payload ++ c) ∧ f.payload.length < 256 ^ w := by
  cases b with
  | nil => cases h
  | cons tag b =>
    rw [decodeFrame] at h
    split_ifs at h with hle
    obtain ⟨rfl, rfl⟩ := Prod.mk.inj (Option.some.inj h)
    have htake : (b.take w).length = w := by rw [List.length_take]; omega
    have hlen : (slice b w (ofLE (b.take w))).length = ofLE (b.take w) := length_slice hle
    have hback : toLE w (ofLE (b.take w)) = b.take w := by
      simpa only [htake] using toLE_ofLE (b.take w)
    have hlt : ofLE (b.take w) < 256 ^ w := by
      rw [← hback, ofLE_toLE]
      exact Nat.mod_lt _ (Nat.pow_pos (by decide))
    have hsplit : b = b.take w ++
        (slice b w (ofLE (b.take w)) ++ b.drop (w + ofLE (b.take w))) := by
      rw [slice, ← List.drop_drop, List.take_append_drop, List.take_append_drop]
    refine ⟨?_, hlen.symm ▸ hlt⟩
    rw [Frame.header, hlen, hback, List.cons_append, ← hsplit]

theorem decodeFramesAux_encode (hf : ∀ f ∈ fs, f.payload.length < 256 ^ w) (hn : fs.length ≤ n) :
    decodeFramesAux w n (encodeFrames w fs) = some fs := by
  induction fs generalizing n with
  | nil => cases n <;> rfl
  | cons f fs ih =>
    obtain _ | n := n
    · exact absurd hn (by simp)
    · have hd := decodeFrame_encode (b := encodeFrames w fs) (hf f List.mem_cons_self)
      have hi := ih (fun g hg => hf g (List.mem_cons_of_mem f hg)) (Nat.le_of_succ_le_succ hn)
      rw [encodeFrames_cons]
      rw [Frame.header, List.cons_append] at hd ⊢
      rw [decodeFramesAux, hd, Option.bind_some, hi, Option.map_some]

theorem eq_of_decodeFramesAux (h : decodeFramesAux w n b = some fs) :
    b = encodeFrames w fs ∧ ∀ f ∈ fs, f.payload.length < 256 ^ w := by
  induction n generalizing b fs with
  | zero =>
    cases b with
    | nil => obtain rfl := Option.some.inj h; exact ⟨rfl, by simp⟩
    | cons x b => cases h
  | succ n ih =>
    cases b with
    | nil => obtain rfl := Option.some.inj h; exact ⟨rfl, by simp⟩
    | cons x b =>
      obtain ⟨⟨f, c⟩, hf, h⟩ := Option.bind_eq_some_iff.1 h
      obtain ⟨gs, hgs, rfl⟩ := Option.map_eq_some_iff.1 h
      obtain ⟨hb, hlt⟩ := eq_of_decodeFrame hf
      obtain ⟨rfl, hall⟩ := ih hgs
      exact ⟨hb.trans encodeFrames_cons.symm, List.forall_mem_cons.2 ⟨hlt, hall⟩⟩

theorem length_le_encodeFrames : fs.length ≤ (encodeFrames w fs).length := by
  induction fs with
  | nil => exact Nat.zero_le _
  | cons f fs ih =>
    rw [length_encodeFrames_cons, List.length_cons, Frame.size]
    omega

/-- A stream decodes to the frames it is the encoding of, and to no others. -/
theorem decodeFrames_eq_some_iff (hf : ∀ f ∈ fs, f.payload.length < 256 ^ w) :
    decodeFrames w b = some fs ↔ b = encodeFrames w fs := by
  refine ⟨fun h => (eq_of_decodeFramesAux h).1, ?_⟩
  rintro rfl
  exact decodeFramesAux_encode hf length_le_encodeFrames

/-- A frame built in place: the header in front of the payload, its length stored big-endian and
swapped. -/
theorem get_frame {c : Buffer UInt8} {tag : UInt8} :
    (((c.put 0 [tag]).putShort 1 n).swap 1).get 0 (3 + n) = Frame.encode 2 ⟨tag, c.get 3 n⟩ := by
  have htag : (((c.put 0 [tag]).putShort 1 n).swap 1).get 0 1 = [tag] := rfl
  have hdata : (((c.put 0 [tag]).putShort 1 n).swap 1).get 3 n = c.get 3 n := by
    refine (Buffer.get_swap_of_le (le_refl 3)).trans ?_
    refine (Buffer.get_put_of_disjoint (.inr ?_)).trans (Buffer.get_put_of_disjoint (.inr ?_))
    · exact le_refl 3
    · exact Nat.le_add_left 1 2
  rw [show 3 + n = 1 + (2 + n) by omega, Buffer.get_add, Buffer.get_add, htag, Nat.zero_add,
    Buffer.get_swap_putShort, hdata, Frame.encode, Frame.header, Buffer.length_get]
  rfl

/-! ### Cuts -/

/-- The first `n` bytes of the stream of the frames end inside a header. -/
def endsInHeader (w : ℕ) : List Frame → ℕ → Bool
  | [], _ => false
  | f :: fs, n => (0 < n && n < 1 + w) || (f.size w ≤ n && endsInHeader w fs (n - f.size w))

@[simp] theorem endsInHeader_zero : endsInHeader w fs 0 = false := by
  cases fs <;> simp [endsInHeader, Frame.size]

/-- Complete frames in front do not matter. -/
theorem endsInHeader_cons_add : endsInHeader w (f :: fs) (f.size w + n) = endsInHeader w fs n := by
  have : ¬ f.size w + n < 1 + w := by rw [Frame.size]; omega
  simp [endsInHeader, this]

theorem endsInHeader_append :
    endsInHeader w (fs ++ gs) ((encodeFrames w fs).length + n) = endsInHeader w gs n := by
  induction fs with
  | nil => simp
  | cons f fs ih =>
    rw [List.cons_append, length_encodeFrames_cons, Nat.add_assoc, endsInHeader_cons_add, ih]

/-- Bytes that do not end inside a header hold the first header. -/
theorem le_of_not_endsInHeader (h : endsInHeader w (f :: fs) n = false) (hn : 0 < n) :
    1 + w ≤ n := by
  by_contra hlt
  simp [endsInHeader, hn, Nat.lt_of_not_le hlt] at h

end Msm8909w

import Mathlib.Algebra.BigOperators.Group.List.Basic
import Msm8909w.Hid.Wrappers
import Msm8909w.Lib.Runs

/-!
# What a host sees of the mouse

A host adds up the movements of the reports (`Pointer.receive`).  A turn of the wheel sends the
movement of the report before it once more: only the buttons clear it.

* `MouseWrapper.pointer_run` : the wheel and the buttons are always right, and when the pointer of
  the host is always where the movements lead.
-/

namespace Msm8909w.Hid

open ReportDescriptor

/-- `(byte) n` -/
def toByte (n : ℤ) : UInt8 := ⟨BitVec.ofInt 8 n⟩

/-- What the application asks of the mouse. -/
inductive MouseEvent
  | move (dx dy : ℤ)
  | buttonDown (which : ℤ)
  | buttonUp (which : ℤ)
  | scroll (delta : UInt8)

/-- Where the pointer and the wheel of the host are. -/
structure Pointer where
  x : ℤ
  y : ℤ
  wheel : ℤ
deriving DecidableEq

namespace Pointer

/-- A report arrives. -/
def receive (p : Pointer) (r : Bytes) : Pointer where
  x := p.x + total xAxis (decode reportFields MOUSE_REPORT_ID.toNat r)
  y := p.y + total yAxis (decode reportFields MOUSE_REPORT_ID.toNat r)
  wheel := p.wheel + total wheelAxis (decode reportFields MOUSE_REPORT_ID.toNat r)

/-- Where an event is to lead. -/
def advance (p : Pointer) : MouseEvent → Pointer
  | .move dx dy => { p with x := p.x + dx, y := p.y + dy }
  | .scroll delta => { p with wheel := p.wheel + signed delta }
  | .buttonDown _ => p
  | .buttonUp _ => p

end Pointer

namespace MouseWrapper

/-- The buffer that an event sends. -/
def sent (mBuffer : ReportBuffer 4) : MouseEvent → ReportBuffer 4
  | .move dx dy => move mBuffer (toByte dx) (toByte dy)
  | .buttonDown which => buttonDown mBuffer which
  | .buttonUp which => buttonUp mBuffer which
  | .scroll delta => scroll mBuffer delta

/-- The buffer that is kept. -/
def kept (mBuffer : ReportBuffer 4) (e : MouseEvent) : ReportBuffer 4 :=
  match e with
  | .scroll _ => afterScroll (sent mBuffer e)
  | _ => sent mBuffer e

end MouseWrapper

/-- How far the host moves for a byte: the lowest number is outside the range of the descriptor. -/
def moved (b : UInt8) : ℤ := if signed b = -128 then 0 else signed b

theorem moved_eq (b : UInt8) :
    moved b = if ¬ (signed b < -127 ∨ 127 < signed b) then signed b else 0 := by
  have hlow : -128 ≤ signed b := BitVec.le_toInt b.toBitVec
  have hhigh : signed b < 128 := BitVec.toInt_lt
  rw [moved]
  split_ifs <;> omega

/-- What a report adds. -/
theorem total_mouse (b x y w : UInt8) :
    total xAxis (decode reportFields MOUSE_REPORT_ID.toNat [b, x, y, w]) = moved x ∧
    total yAxis (decode reportFields MOUSE_REPORT_ID.toNat [b, x, y, w]) = moved y ∧
    total wheelAxis (decode reportFields MOUSE_REPORT_ID.toNat [b, x, y, w]) = moved w := by
  have hflags : ∀ u ∈ [xAxis, yAxis, wheelAxis],
      total u ((buttonField.usages.zip ((List.range 3).map b.toNat.testBit)).map
        fun p => (p.1, (p.2.toNat : ℤ))) = 0 := fun u hu => total_eq_zero fun p hp => by
    obtain ⟨q, hq, rfl⟩ := List.mem_map.1 hp
    obtain ⟨i, -, hi⟩ := List.mem_map.1 (List.of_mem_zip hq).1
    rintro rfl
    rw [← hi] at hu
    simp [button, xAxis, yAxis, wheelAxis] at hu
  simp only [decode_mouse, total_append, hflags _ List.mem_cons_self,
    hflags yAxis (by decide), hflags wheelAxis (by decide), List.flatMap_cons, List.flatMap_nil,
    total_element, moved_eq, zero_add]
  simp [xAxis, yAxis, wheelAxis, total]

/-! ### The application, the device and the host -/

/-- The buffer of the mouse, the pointer of the host and where the pointer is to be. -/
structure Desk where
  mBuffer : ReportBuffer 4
  host : Pointer
  meant : Pointer

def Desk.start : Desk := ⟨.new 4, ⟨0, 0, 0⟩, ⟨0, 0, 0⟩⟩

def Desk.step (s : Desk) (e : MouseEvent) : Desk where
  mBuffer := MouseWrapper.kept s.mBuffer e
  host := s.host.receive (MouseWrapper.sent s.mBuffer e).bytes
  meant := s.meant.advance e

/-- The movement that the next turn of the wheel would send again. -/
def again (l : ℤ × ℤ) : MouseEvent → ℤ × ℤ
  | .move dx dy => (moved (toByte dx), moved (toByte dy))
  | .scroll _ => l
  | _ => (0, 0)

def lastMove (es : List MouseEvent) : ℤ × ℤ := es.foldl again (0, 0)

/-- The buttons that are down. -/
def press (s : Finset ℕ) : MouseEvent → Finset ℕ
  | .buttonDown which => insert (which % 32).toNat s
  | .buttonUp which => s.erase (which % 32).toNat
  | _ => s

/-- How far an event turns the wheel. -/
def turned : MouseEvent → ℤ
  | .scroll delta => moved delta
  | _ => 0

/-- Where an event does lead, after the movement `l`. -/
def Pointer.carry (p : Pointer) (l : ℤ × ℤ) : MouseEvent → Pointer
  | .move dx dy => { p with x := p.x + moved (toByte dx), y := p.y + moved (toByte dy) }
  -- the movement is sent once more
  | .scroll delta => ⟨p.x + l.1, p.y + l.2, p.wheel + moved delta⟩
  | .buttonDown _ => p
  | .buttonUp _ => p

/-- The movement fits a byte, and the wheel is not turned after a movement. -/
def Plain (l : ℤ × ℤ) : MouseEvent → Prop
  | .move dx dy => (-127 ≤ dx ∧ dx ≤ 127) ∧ -127 ≤ dy ∧ dy ≤ 127
  | .scroll delta => l = (0, 0) ∧ signed delta ≠ -128
  | _ => True

/-- The buffer holds the movement `l` and the buttons `d`, and the wheel stands still. -/
def Rests (b : ReportBuffer 4) (l : ℤ × ℤ) (d : Finset ℕ) : Prop :=
  ∃ n x y, b.bytes = [n, x, y, 0] ∧ moved x = l.1 ∧ moved y = l.2 ∧
    ∀ i < 8, n.toNat.testBit i = decide (i ∈ d)

variable {b : ReportBuffer 4} {l : ℤ × ℤ} {d : Finset ℕ}

theorem moved_toByte_eq_iff (n : ℤ) : moved (toByte n) = n ↔ -127 ≤ n ∧ n ≤ 127 := by
  have hbyte : signed (toByte n) = n.bmod 256 := BitVec.toInt_ofInt n
  rw [moved, hbyte, Int.bmod_def]
  split_ifs <;> omega

theorem moved_eq_iff (b : UInt8) : moved b = signed b ↔ signed b ≠ -128 := by
  rw [moved]
  split_ifs <;> omega

theorem Rests.sent (hb : Rests b l d) (p : Pointer) (e : MouseEvent) :
    p.receive (MouseWrapper.sent b e).bytes = p.carry l e := by
  obtain ⟨n, x, y, hbytes, hx, hy, -⟩ := hb
  have hreceive : ∀ n x y w : UInt8, p.receive [n, x, y, w] =
      ⟨p.x + moved x, p.y + moved y, p.wheel + moved w⟩ := fun n x y w => by
    obtain ⟨hx, hy, hw⟩ := total_mouse n x y w
    rw [Pointer.receive, hx, hy, hw]
  have hzero : moved 0 = 0 := rfl
  cases e with
  | move dx dy =>
    have hsent : (MouseWrapper.sent b (.move dx dy)).bytes = [n, toByte dx, toByte dy, 0] := by
      simp [MouseWrapper.sent, MouseWrapper.move, hbytes]
    rw [hsent, hreceive, hzero, add_zero, Pointer.carry]
  | buttonDown which =>
    have hsent : (MouseWrapper.sent b (.buttonDown which)).bytes = [setBit which n, 0, 0, 0] := by
      simp [MouseWrapper.sent, MouseWrapper.buttonDown, hbytes]
    rw [hsent, hreceive, hzero, add_zero, add_zero, add_zero, Pointer.carry]
  | buttonUp which =>
    have hsent : (MouseWrapper.sent b (.buttonUp which)).bytes = [clearBit which n, 0, 0, 0] := by
      simp [MouseWrapper.sent, MouseWrapper.buttonUp, hbytes]
    rw [hsent, hreceive, hzero, add_zero, add_zero, add_zero, Pointer.carry]
  | scroll delta =>
    have hsent : (MouseWrapper.sent b (.scroll delta)).bytes = [n, x, y, delta] := by
      simp [MouseWrapper.sent, MouseWrapper.scroll, hbytes]
    rw [hsent, hreceive, hx, hy, Pointer.carry]

theorem Rests.kept (hb : Rests b l d) (e : MouseEvent) :
    Rests (MouseWrapper.kept b e) (again l e) (press d e) := by
  obtain ⟨n, x, y, hbytes, hx, hy, hn⟩ := hb
  have hplace : ∀ which : ℤ, which % 32 = (which % 32).toNat := fun which => by omega
  cases e with
  | move dx dy =>
    refine ⟨n, toByte dx, toByte dy, ?_, rfl, rfl, hn⟩
    simp [MouseWrapper.kept, MouseWrapper.sent, MouseWrapper.move, hbytes]
  | buttonDown which =>
    refine ⟨setBit which n, 0, 0, ?_, rfl, rfl, testBit_setBit_insert hn (hplace which)⟩
    simp [MouseWrapper.kept, MouseWrapper.sent, MouseWrapper.buttonDown, hbytes]
  | buttonUp which =>
    refine ⟨clearBit which n, 0, 0, ?_, rfl, rfl, testBit_clearBit_erase hn (hplace which)⟩
    simp [MouseWrapper.kept, MouseWrapper.sent, MouseWrapper.buttonUp, hbytes]
  | scroll delta =>
    refine ⟨n, x, y, ?_, hx, hy, hn⟩
    simp [MouseWrapper.kept, MouseWrapper.afterScroll, MouseWrapper.sent, MouseWrapper.scroll,
      hbytes]

theorem Rests.buttons (h : Rests b l d) :
    on (·.page = 0x09) (decode reportFields MOUSE_REPORT_ID.toNat b.bytes) =
      ((List.range 3).filter (· ∈ d)).map button := by
  obtain ⟨n, x, y, hbytes, -, -, hn⟩ := h
  have hfilter : (List.range 3).filter n.toNat.testBit = (List.range 3).filter (· ∈ d) :=
    List.filter_congr fun i hi => hn i (by have := List.mem_range.1 hi; omega)
  have haxes : on (·.page = 0x09) ([(xAxis, x), (yAxis, y), (wheelAxis, 0)].flatMap fun p =>
      if signed p.2 < -127 ∨ 127 < signed p.2 then [] else [(p.1, signed p.2)]) = [] := by
    refine List.filterMap_eq_nil_iff.2 fun p hp => if_neg ?_
    obtain ⟨q, hq, hp⟩ := List.mem_flatMap.1 hp
    have hpage : q.1.page = 0x01 := by
      simp only [List.mem_cons, List.not_mem_nil, or_false] at hq
      rcases hq with rfl | rfl | rfl <;> rfl
    split_ifs at hp
    · cases hp
    · rw [List.mem_singleton.1 hp]
      exact fun h => absurd (hpage.symm.trans h.2) (by decide)
  rw [hbytes, decode_mouse, on_append, haxes, List.append_nil, buttonField, on_flags (by decide),
    hfilter]

theorem carry_eq_advance_iff (p : Pointer) (l : ℤ × ℤ) (e : MouseEvent) :
    p.carry l e = p.advance e ↔ Plain l e := by
  cases e with
  | move dx dy =>
    simp only [Pointer.carry, Pointer.advance, Plain, Pointer.mk.injEq, add_right_inj, and_true,
      moved_toByte_eq_iff]
  | scroll delta =>
    simp only [Pointer.carry, Pointer.advance, Plain, Pointer.mk.injEq, add_eq_left,
      add_right_inj, moved_eq_iff, Prod.ext_iff, and_assoc]
  | buttonDown which => exact iff_of_true rfl trivial
  | buttonUp which => exact iff_of_true rfl trivial

/-! ### Every sequence of events -/

namespace MouseWrapper

theorem rests_step (h : Rests b l d) (es : List MouseEvent) {s : Desk} (hs : s.mBuffer = b) :
    Rests (es.foldl Desk.step s).mBuffer (es.foldl again l) (es.foldl press d) := by
  induction es generalizing b l d s with
  | nil => exact hs ▸ h
  | cons e es ih => exact ih (h.kept e) (by rw [Desk.step, hs])

theorem rests_run (es : List MouseEvent) :
    Rests (es.foldl Desk.step .start).mBuffer (lastMove es) (es.foldl press ∅) :=
  rests_step ⟨0, 0, 0, rfl, rfl, rfl, by decide⟩ es rfl

/-- The pointer is always where the movements lead exactly if every movement fits a byte and the
wheel is only turned when the report before it held no movement. -/
theorem follows_iff (es : List MouseEvent) :
    (∀ pre, pre <+: es →
      (pre.foldl Desk.step .start).host = (pre.foldl Desk.step .start).meant) ↔
      ∀ pre e, pre ++ [e] <+: es → Plain (lastMove pre) e := by
  have hiff := @always_history_iff _ _ Desk.start Desk.step
    (fun s h => s.host = s.meant ∧ Rests s.mBuffer (lastMove h) (h.foldl press ∅))
    (fun _ h e => Plain (lastMove h) e) ⟨rfl, rests_run []⟩ (fun s h e hP => ?_) es
  · refine Iff.trans (forall₂_congr fun pre _ => ?_) hiff
    exact (and_iff_left (rests_run pre)).symm
  -- what the buffer holds does not depend on where the pointer is
  · obtain ⟨heq, hrests⟩ := hP
    have hstep : Rests (s.step e).mBuffer (lastMove (h ++ [e])) ((h ++ [e]).foldl press ∅) := by
      rw [lastMove, List.foldl_append, List.foldl_append]
      exact hrests.kept e
    rw [and_iff_left hstep, ← carry_eq_advance_iff s.meant, Desk.step, hrests.sent, heq]

theorem wheel_run (h : Rests b l d) (es : List MouseEvent) {s : Desk} (hs : s.mBuffer = b) :
    (es.foldl Desk.step s).host.wheel = s.host.wheel + (es.map turned).sum := by
  induction es generalizing b l d s with
  | nil => exact (add_zero _).symm
  | cons e es ih =>
    have hstep : (s.step e).host.wheel = s.host.wheel + turned e := by
      rw [Desk.step, hs, h.sent]
      cases e with
      | scroll delta => rfl
      | _ => exact (add_zero _).symm
    rw [List.foldl_cons, ih (h.kept e) (by rw [Desk.step, hs]), hstep, List.map_cons, List.sum_cons,
      add_assoc]

end MouseWrapper

end Msm8909w.Hid

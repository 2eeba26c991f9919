import Mathlib.Data.Finset.Basic
import Msm8909w.Lib.ReportDescriptor

/-!
# The reports of the HID device

The descriptor that the device registers (`DESCRIPTOR`) and the buffers of its mouse, its keyboard
and its battery, each with the operations that change it.  A buffer has the length that the
descriptor gives its report (`length_report`).

* `fields_DESCRIPTOR` : the fields that a host reads from the descriptor,
* `decode_keyboard`, `decode_mouse` : what a host takes from a report of the keyboard and of the
  mouse, for every content of the buffer.
-/

namespace Msm8909w.Hid

open ReportDescriptor

/-! ### The descriptor -/

/-- The mouse: report 2, three buttons, the movement and the wheel. -/
def mouseDescriptor : Bytes :=
  [0x05, 0x01, 0x09, 0x02, 0xa1, 0x01, 0x09, 0x01, 0xa1, 0x00, 0x85, 0x02, 0x05, 0x09, 0x19, 0x01,
   0x29, 0x03, 0x15, 0x00, 0x25, 0x01, 0x95, 0x03, 0x75, 0x01, 0x81, 0x02, 0x95, 0x01, 0x75, 0x05,
   0x81, 0x03, 0x05, 0x01, 0x09, 0x30, 0x09, 0x31, 0x15, 0x81, 0x25, 0x7f, 0x75, 0x08, 0x95, 0x02,
   0x81, 0x06, 0x09, 0x38, 0x15, 0x81, 0x25, 0x7f, 0x75, 0x08, 0x95, 0x01, 0x81, 0x06, 0xc0, 0xc0]

/-- The battery strength: report 32. -/
def batteryDescriptor : Bytes :=
  [0x05, 0x0c, 0x09, 0x01, 0xa1, 0x01, 0x85, 0x20, 0x05, 0x01, 0x09, 0x06, 0xa1, 0x02, 0x05, 0x06,
   0x09, 0x20, 0x15, 0x00, 0x26, 0xff, 0x00, 0x75, 0x08, 0x95, 0x01, 0x81, 0x02, 0xc0, 0xc0]

/-- The keyboard: report 1, with the modifiers, the media keys and six places for other keys as
input and the lamps as output. -/
def keyboardDescriptor : Bytes :=
  [0x05, 0x01, 0x09, 0x06, 0xa1, 0x01, 0x85, 0x01, 0x05, 0x07, 0x19, 0xe0, 0x29, 0xe7, 0x15, 0x00,
   0x25, 0x01, 0x75, 0x01, 0x95, 0x08, 0x81, 0x02, 0x05, 0x0c, 0x15, 0x00, 0x25, 0x01, 0x95, 0x07,
   0x75, 0x01, 0x09, 0xb6, 0x09, 0xb5, 0x09, 0xb7, 0x09, 0xcd, 0x09, 0xe2, 0x09, 0xe9, 0x09, 0xea,
   0x81, 0x02, 0x95, 0x01, 0x75, 0x01, 0x81, 0x03, 0x05, 0x07, 0x95, 0x05, 0x75, 0x01, 0x85, 0x01,
   0x05, 0x08, 0x19, 0x01, 0x29, 0x05, 0x91, 0x02, 0x95, 0x01, 0x75, 0x03, 0x91, 0x03, 0x95, 0x06,
   0x75, 0x08, 0x15, 0x00, 0x25, 0x65, 0x05, 0x07, 0x19, 0x00, 0x29, 0x65, 0x81, 0x00, 0xc0]

def DESCRIPTOR : Bytes := mouseDescriptor ++ batteryDescriptor ++ keyboardDescriptor

def KEYBOARD_INPUT_REPORT_ID : UInt8 := 1

def KEYBOARD_OUTPUT_REPORT_ID : UInt8 := 1

def MOUSE_REPORT_ID : UInt8 := 2

def BOOT_KEYBOARD_REPORT_ID : UInt8 := 1

def BOOT_MOUSE_REPORT_ID : UInt8 := 2

def BATTERY_REPORT_ID : UInt8 := 32

/-! ### Usages -/

/-- The three buttons of the mouse. -/
def button (i : ℕ) : Usage := ⟨0x09, i + 1⟩

def xAxis : Usage := ⟨0x01, 0x30⟩

def yAxis : Usage := ⟨0x01, 0x31⟩

def wheelAxis : Usage := ⟨0x01, 0x38⟩

/-- A key of the keyboard page. -/
def keyUsage (k : ℕ) : Usage := ⟨0x07, k⟩

/-- The modifiers, left control to right GUI. -/
def modifierUsage (i : ℕ) : Usage := keyUsage (0xe0 + i)

/-- The media keys: previous and next track, stop, play/pause, mute, volume up and down. -/
def mediaUsage (i : ℕ) : Usage := ⟨0x0c, [0xb6, 0xb5, 0xb7, 0xcd, 0xe2, 0xe9, 0xea].getD i 0⟩

/-! ### The fields -/

def modifierField : Field :=
  ⟨.input, 1, (List.range 8).map modifierUsage, 0, 1, 1, 8, false, true, false⟩

def mediaField : Field :=
  ⟨.input, 1, (List.range 7).map mediaUsage, 0, 1, 1, 7, false, true, false⟩

def keysField : Field :=
  ⟨.input, 1, (List.range 0x66).map keyUsage, 0, 0x65, 8, 6, false, false, false⟩

def buttonField : Field := ⟨.input, 2, (List.range 3).map button, 0, 1, 1, 3, false, true, false⟩

def movementField : Field := ⟨.input, 2, [xAxis, yAxis], -127, 127, 8, 2, false, true, true⟩

def wheelField : Field := ⟨.input, 2, [wheelAxis], -127, 127, 8, 1, false, true, true⟩

/-- Bits without a meaning, up to the next byte. -/
def paddingField (d : Direction) (id size : ℕ) : Field :=
  ⟨d, id, [], 0, 1, size, 1, true, true, false⟩

def batteryField : Field := ⟨.input, 32, [⟨0x06, 0x20⟩], 0, 255, 8, 1, false, true, false⟩

def lampField : Field :=
  ⟨.output, 1, (List.range 5).map fun i => ⟨0x08, i + 1⟩, 0, 1, 1, 5, false, true, false⟩

/-- What a host reads from the descriptor. -/
theorem fields_DESCRIPTOR : fields DESCRIPTOR = some
    [buttonField, paddingField .input 2 5, movementField, wheelField, batteryField, modifierField,
     mediaField, paddingField .input 1 1, lampField, paddingField .output 1 3, keysField] := by
  decide +kernel

/-- The fields that the descriptor declares. -/
def reportFields : List Field := (fields DESCRIPTOR).getD []

theorem fieldsOf_keyboard : fieldsOf reportFields .input KEYBOARD_INPUT_REPORT_ID.toNat =
    [modifierField, mediaField, paddingField .input 1 1, keysField] := by
  rw [reportFields, fields_DESCRIPTOR]
  rfl

theorem fieldsOf_mouse : fieldsOf reportFields .input MOUSE_REPORT_ID.toNat =
    [buttonField, paddingField .input 2 5, movementField, wheelField] := by
  rw [reportFields, fields_DESCRIPTOR]
  rfl

theorem fieldsOf_battery : fieldsOf reportFields .input BATTERY_REPORT_ID.toNat =
    [batteryField] := by
  rw [reportFields, fields_DESCRIPTOR]
  rfl

/-! ### Buffers -/

/-- A Java byte as a number. -/
def signed (b : UInt8) : ℤ := b.toBitVec.toInt

/-- `1 << n`, as far as a byte keeps it. -/
def bit (n : ℤ) : UInt8 := UInt8.ofNat (2 ^ (n % 32).toNat)

/-- `b |= (1 << n)` -/
def setBit (n : ℤ) (b : UInt8) : UInt8 := b ||| bit n

/-- `b &= ~(1 << n)` -/
def clearBit (n : ℤ) (b : UInt8) : UInt8 := b &&& ~~~bit n

theorem testBit_bit (n : ℤ) {i : ℕ} (hi : i < 8) :
    (bit n).toNat.testBit i = decide (n % 32 = i) := by
  have hn : 0 ≤ n % 32 := Int.emod_nonneg n (by norm_num)
  rw [bit, UInt8.toNat_ofNat', Nat.testBit_mod_two_pow, Nat.testBit_two_pow, decide_eq_true hi,
    Bool.true_and]
  exact decide_eq_decide.2 ⟨fun h => by omega, fun h => by omega⟩

theorem testBit_setBit (n : ℤ) (b : UInt8) {i : ℕ} (hi : i < 8) :
    (setBit n b).toNat.testBit i = (b.toNat.testBit i || decide (n % 32 = i)) := by
  rw [setBit, UInt8.toNat_or, Nat.testBit_or, testBit_bit n hi]

theorem testBit_clearBit (n : ℤ) (b : UInt8) {i : ℕ} (hi : i < 8) :
    (clearBit n b).toNat.testBit i = (b.toNat.testBit i && !decide (n % 32 = i)) := by
  have hnot : (~~~bit n).toNat = 2 ^ 8 - ((bit n).toNat + 1) := by
    rw [UInt8.toNat_not]
    exact Nat.sub_sub _ 1 _ ▸ by rw [Nat.add_comm 1]; rfl
  rw [clearBit, UInt8.toNat_and, Nat.testBit_and, hnot,
    Nat.testBit_two_pow_sub_succ (bit n).toNat_lt, decide_eq_true hi, Bool.true_and,
    testBit_bit n hi]

section

variable {b : UInt8} {s : Finset ℕ} {n : ℤ} {k : ℕ}

/-- Setting a bit of a byte puts its place into the set that the byte stands for. -/
theorem testBit_setBit_insert (hb : ∀ i < 8, b.toNat.testBit i = decide (i ∈ s)) (hn : n % 32 = k) :
    ∀ i < 8, (setBit n b).toNat.testBit i = decide (i ∈ insert k s) := by
  intro i hi
  have hplace : (n % 32 = i) = (i = k) := by
    rw [hn]
    exact propext ⟨fun h => by omega, fun h => by omega⟩
  rw [testBit_setBit n b hi, hb i hi]
  simp only [hplace, Finset.mem_insert, Bool.decide_or]
  exact Bool.or_comm _ _

theorem testBit_clearBit_erase (hb : ∀ i < 8, b.toNat.testBit i = decide (i ∈ s))
    (hn : n % 32 = k) : ∀ i < 8, (clearBit n b).toNat.testBit i = decide (i ∈ s.erase k) := by
  intro i hi
  have hplace : (n % 32 = i) = (i = k) := by
    rw [hn]
    exact propext ⟨fun h => by omega, fun h => by omega⟩
  rw [testBit_clearBit n b hi, hb i hi]
  simp only [hplace, Finset.mem_erase, Bool.decide_and, decide_not, ne_eq]
  exact Bool.and_comm _ _

end

/-- A buffer of `n` bytes, from which a report is sent. -/
structure ReportBuffer (n : ℕ) where
  bytes : Bytes
  length_bytes : bytes.length = n

/-- `new byte[n]` -/
def ReportBuffer.new (n : ℕ) : ReportBuffer n := ⟨List.replicate n 0, List.length_replicate⟩

/-- `mBuffer[i] = f(mBuffer[i])` -/
def ReportBuffer.modify {n : ℕ} (b : ReportBuffer n) (i : ℕ) (f : UInt8 → UInt8) : ReportBuffer n :=
  ⟨b.bytes.modify i f, (List.length_modify f b.bytes i).trans b.length_bytes⟩

/-- The loop over the places from the third on: the first that holds `old` gets `new`. -/
def ReportBuffer.replace {n : ℕ} (b : ReportBuffer n) (old new : UInt8) : ReportBuffer n where
  bytes := b.bytes.take 2 ++ (b.bytes.drop 2).replace old new
  length_bytes := by
    rw [List.length_append, List.length_replace, ← List.length_append, List.take_append_drop]
    exact b.length_bytes

variable {n : ℕ}

@[simp]
theorem ReportBuffer.bytes_modify (b : ReportBuffer n) (i : ℕ) (f : UInt8 → UInt8) :
    (b.modify i f).bytes = b.bytes.modify i f := rfl

@[simp]
theorem ReportBuffer.bytes_replace (b : ReportBuffer n) (old new : UInt8) :
    (b.replace old new).bytes = b.bytes.take 2 ++ (b.bytes.drop 2).replace old new := rfl

/-! ### The keyboard -/

namespace KeyboardWrapper

/-- `(byte) 0xe0` -/
def MODIFIER_BASE : ℤ := -32

def MODIFIER_COUNT : ℤ := 8

def keyDown (mBuffer : ReportBuffer 8) (key : UInt8) : ReportBuffer 8 :=
  -- nine codes: the bit of the last one is beyond the byte
  if MODIFIER_BASE ≤ signed key ∧ signed key ≤ MODIFIER_BASE + MODIFIER_COUNT then
    mBuffer.modify 0 (setBit (signed key - MODIFIER_BASE))
  else if key &&& 0x80 ≠ 0 then mBuffer.modify 1 (setBit (key &&& 0x07).toNat)
  else mBuffer.replace 0x00 key

def keyUp (mBuffer : ReportBuffer 8) (key : UInt8) : ReportBuffer 8 :=
  if MODIFIER_BASE ≤ signed key ∧ signed key ≤ MODIFIER_BASE + MODIFIER_COUNT then
    mBuffer.modify 0 (clearBit (signed key - MODIFIER_BASE))
  else if key &&& 0x80 ≠ 0 then mBuffer.modify 1 (clearBit (key &&& 0x07).toNat)
  else mBuffer.replace key 0x00

end KeyboardWrapper

/-! ### The mouse -/

namespace MouseWrapper

/-- The buffer that is sent, which is also the one that is kept. -/
def move (mBuffer : ReportBuffer 4) (dx dy : UInt8) : ReportBuffer 4 :=
  -- the state of the buttons is left unchanged
  (mBuffer.modify 1 fun _ => dx).modify 2 fun _ => dy

def buttonDown (mBuffer : ReportBuffer 4) (which : ℤ) : ReportBuffer 4 :=
  ((mBuffer.modify 0 (setBit which)).modify 1 fun _ => 0).modify 2 fun _ => 0

def buttonUp (mBuffer : ReportBuffer 4) (which : ℤ) : ReportBuffer 4 :=
  ((mBuffer.modify 0 (clearBit which)).modify 1 fun _ => 0).modify 2 fun _ => 0

/-- The buffer that is sent. -/
def scroll (mBuffer : ReportBuffer 4) (delta : UInt8) : ReportBuffer 4 :=
  -- the movement stays, unlike for the buttons
  mBuffer.modify 3 fun _ => delta

/-- The buffer that is kept after a turn of the wheel, so that it is not repeated. -/
def afterScroll (mBuffer : ReportBuffer 4) : ReportBuffer 4 := mBuffer.modify 3 fun _ => 0

end MouseWrapper

/-! ### What a host takes from a report -/

theorem decode_keyboard (m c : UInt8) {ks : Bytes} (h : ks.length = 6) :
    decode reportFields KEYBOARD_INPUT_REPORT_ID.toNat (m :: c :: ks) =
      ((modifierField.usages.zip (byteBits m)).map fun p => (p.1, (p.2.toNat : ℤ))) ++
      ((mediaField.usages.zip ((List.range 7).map c.toNat.testBit)).map
        fun p => (p.1, (p.2.toNat : ℤ))) ++
      ks.flatMap fun k => (keysField.usages[k.toNat]?.map (·, 1)).toList := by
  have hc : byteBits c = (List.range 7).map c.toNat.testBit ++ [c.toNat.testBit 7] := by
    rw [byteBits, List.range_succ, List.map_append]
    rfl
  have hks : (bits ks).length = keysField.width := by
    rw [length_bits, h]
    rfl
  rw [decode, fieldsOf_keyboard, bits_cons, bits_cons, hc, List.append_assoc,
    readFields_cons (length_byteBits m), readFields_cons (by rfl),
    readFields_cons (f := paddingField .input 1 1) (by rfl), ← List.append_nil (bits ks),
    readFields_cons hks, Field.read_flags (by constructor <;> rfl) (length_byteBits m),
    Field.read_flags (by constructor <;> rfl) (by rfl), Field.read_constant (by rfl),
    Field.read_array (by constructor <;> rfl) h]
  rw [readFields, List.append_nil, List.nil_append, List.append_assoc]

theorem decode_mouse (b x y w : UInt8) :
    decode reportFields MOUSE_REPORT_ID.toNat [b, x, y, w] =
      ((buttonField.usages.zip ((List.range 3).map b.toNat.testBit)).map
        fun p => (p.1, (p.2.toNat : ℤ))) ++
      ([(xAxis, x), (yAxis, y), (wheelAxis, w)].flatMap fun p =>
        if signed p.2 < -127 ∨ 127 < signed p.2 then [] else [(p.1, signed p.2)]) := by
  have hb : byteBits b =
      (List.range 3).map b.toNat.testBit ++ (List.range' 3 5).map b.toNat.testBit := by
    rw [← List.map_append]
    rfl
  have hrest : bits [x, y, w] = bits [x, y] ++ (bits [w] ++ []) := by
    rw [List.append_nil, bits_cons, bits_cons, bits_cons x, bits_cons y, List.append_assoc,
      List.append_assoc]
    rfl
  rw [decode, fieldsOf_mouse, bits_cons, hb, hrest, List.append_assoc,
    readFields_cons (by rfl), readFields_cons (f := paddingField .input 2 5) (by rfl),
    readFields_cons (length_bits [x, y]), readFields_cons (length_bits [w]),
    Field.read_flags (by constructor <;> rfl) (by rfl), Field.read_constant (by rfl),
    Field.read_signed ⟨rfl, rfl, rfl, rfl, by decide⟩ (by rfl),
    Field.read_signed ⟨rfl, rfl, rfl, rfl, by decide⟩ (by rfl)]
  have hsplit : [(xAxis, x), (yAxis, y), (wheelAxis, w)] =
      [(xAxis, x), (yAxis, y)] ++ [(wheelAxis, w)] := rfl
  rw [readFields, List.append_nil, List.nil_append, hsplit, List.flatMap_append]
  rfl

end Msm8909w.Hid

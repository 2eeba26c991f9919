import Msm8909w.Lib.Buffer
import Msm8909w.Lib.Fallible
import Msm8909w.Lib.Utf8
import Msm8909w.Map.BmessageSMS
import Msm8909w.Map.Handles

/-!
# An SMS as a delivered PDU

`getSMSDeliverPdu` of `BluetoothMasAppSmsMms.java` writes the PDU of a delivered SMS in hexadecimal
digits.  The address and the text it takes out of the PDU that the platform makes for sending.

* `getSMSDeliverPdu`, `hexStringToByteArray` : the code,
* `Delivers` : what the digits are meant to be,
* `selects` : the digits of the address are found by an index that counts bytes, and taken by one
  that counts characters,
* `delivers_iff` : for which bodies, times and addresses the PDU is as it is meant to be.

The class `Time` and the PDU for sending are outside.
-/

namespace Msm8909w

namespace Map

namespace DeliverPdu

/-! ### Times -/

/-- Two decimal digits. -/
def two (n : ℕ) : JString := [UInt16.ofNat (48 + n / 10 % 10), UInt16.ofNat (48 + n % 10)]

/-- A time of RFC 3339.  An offset is a sign (`true` for minus), hours and minutes; without one
there is a `Z`. -/
structure Rfc3339 where
  year : Fin 10000
  month : Fin 13
  day : Fin 32
  hour : Fin 24
  minute : Fin 60
  second : Fin 61
  fraction : List (Fin 10)
  offset : Option (Bool × Fin 24 × Fin 60)

namespace Rfc3339

/-- The fraction of a second. -/
def fractionText : List (Fin 10) → JString
  | [] => []
  | ds => 46 :: ds.map fun d => UInt16.ofNat (48 + d)

/-- The offset from UTC. -/
def offsetText : Option (Bool × Fin 24 × Fin 60) → JString
  | none => [90]
  | some (negative, hours, minutes) =>
    (if negative then 45 else 43) :: (two hours ++ 58 :: two minutes)

/-- The time in its notation. -/
def text (t : Rfc3339) : JString :=
  two (t.year / 100) ++ (two t.year ++ 45 :: (two t.month ++ 45 :: (two t.day ++ 84 ::
    (two t.hour ++ 58 :: (two t.minute ++ 58 :: (two t.second ++
      (fractionText t.fraction ++ offsetText t.offset)))))))

end Rfc3339

/-! ### The code -/

/-- What is outside. -/
structure Env where
  /-- `time.set(millis)` and `time.format3339(false)`. -/
  format3339 : ℤ → Rfc3339
  /-- `SmsMessage.getSubmitPdu(null, strAddress, smsBody, false).encodedMessage`. -/
  getSubmitPdu : JString → JString → Bytes

/-- A hexadecimal digit. -/
def hexDigit (d : ℕ) : UInt16 := UInt16.ofNat (if d < 10 then 48 + d else 87 + d)

/-- `Integer.toHexString(n)` for a number that is not negative. -/
def toHexString (n : ℕ) : JString := if n = 0 then [48] else (Nat.digits 16 n).reverse.map hexDigit

/-- `toHexString`, behind a zero if the low byte has one digit. -/
def padded (n : ℕ) : JString := (if n % 256 < 16 then [48] else []) ++ toHexString n

/-- The upper case of an ASCII character. -/
def upper (c : UInt16) : UInt16 := if 97 ≤ c ∧ c ≤ 122 then c - 32 else c

/-- `s.toUpperCase()` for an ASCII text. -/
def toUpperCase (s : JString) : JString := s.map upper

/-- `b[i]`. -/
def byteAt (b : Bytes) (i : ℤ) : Except Exn UInt8 :=
  if i < 0 then .error .indexOutOfBounds
  else
    match b[i.toNat]? with
    | some x => .ok x
    | none => .error .indexOutOfBounds

/-- The loop that swaps the digits of each pair. -/
def swapNibbles : JString → Except Exn JString
  | [] => .ok []
  | [_] => .error .indexOutOfBounds
  | a :: b :: s => do return b :: a :: (← swapNibbles s)

/-- The offset from UTC in quarters of an hour (`tZone15offset`); the fields are not negative. -/
def tZone15offset (timeStr : JString) : Except Exn ℕ := do
  let tZoneStr ← substring timeStr (timeStr.length - 6) timeStr.length
  let tempInt ← valueOf (← substring tZoneStr (tZoneStr.length - 2) tZoneStr.length)
  let hours ← valueOf (← substring tZoneStr (tZoneStr.length - 5) (tZoneStr.length - 3))
  let offset := (tempInt.tdiv 15 + hours * 4).toNat
  if timeStr[timeStr.length - 6]? = some 45 then return offset ||| 0x80 else return offset

/-- The time with its digits swapped (`encodedTimeStr`). -/
def encodeTime (timeStr : JString) : Except Exn JString := do
  let tempTimeStr := (← substring timeStr 2 4) ++ ((← substring timeStr 5 7) ++
    ((← substring timeStr 8 10) ++ ((← substring timeStr 11 13) ++
      ((← substring timeStr 14 16) ++ (← substring timeStr 17 19)))))
  swapNibbles (tempTimeStr ++ padded (← tZone15offset timeStr))

/-- One character of the address: its place counts the bytes of the address in one array, and the
characters in the other one. -/
def digitTurn (address : JString) (strbufAddress : JString) (i : ℕ) : Except Exn JString := do
  if isDigit (← byteAt (utf8 address) i) then
    return strbufAddress ++ decimal (← valueOf (← substring address i (i + 1)))
  else return strbufAddress

/-- The digits of the address (`strbufAddress`). -/
def extractDigits (address : JString) : Except Exn JString :=
  (List.range address.length).foldlM (digitTurn address) []

/-- The loops that write the bytes from `start` up to `stop`. -/
def hexRange (msg : Bytes) (start stop : ℤ) : Except Exn JString :=
  (List.range (stop - start).toNat).foldlM
    (fun (buffer : JString) (k : ℕ) => do
      return buffer ++ padded (← byteAt msg (start + k)).toNat) []

/-- Half of a number, rounded up if the number is odd (`addLength`). -/
def halfOf (addLength : ℤ) : ℤ :=
  (if addLength.tmod 2 ≠ 0 then addLength + 1 else addLength).tdiv 2

/-- `getSMSDeliverPdu`. -/
def getSMSDeliverPdu (env : Env) (smsBody dateTime address : JString) : Except Exn JString := do
  let encodedTimeStr ← encodeTime (env.format3339 (← longValueOf dateTime)).text
  let strAddress ← extractDigits address
  let msg := env.getSubmitPdu strAddress smsBody
  -- the byte is signed
  let msgOffset := 7 + halfOf (Msm8909w.toByte (← byteAt msg 2))
  let msgLength := msg.length - msgOffset
  -- there is no buffer of a negative length
  if msgLength < 0 then throw .indexOutOfBounds
  let strbufMessage ← hexRange msg msgOffset (msgLength + msgOffset)
  let strbufAddress1 ← hexRange msg 4 (strAddress.length / 2 + strAddress.length % 2 + 4)
  return toUpperCase (js "0681000000000004" ++ (padded strAddress.length ++ (js "81" ++
    (strbufAddress1 ++ (js "0000" ++ (encodedTimeStr ++ (padded smsBody.length ++
      strbufMessage)))))))

/-- `toByte`. -/
def toByte (c : UInt16) : Except Exn ℕ :=
  if 48 ≤ c ∧ c ≤ 57 then .ok (c.toNat - 48)
  else if 65 ≤ c ∧ c ≤ 70 then .ok (c.toNat - 65 + 10)
  else if 97 ≤ c ∧ c ≤ 102 then .ok (c.toNat - 97 + 10)
  else .error (.badRequest ("Invalid hex char '" ++ String.singleton (unitChar c) ++ "'"))

/-- The loop of `hexStringToByteArray`. -/
def hexPairs : JString → Except Exn Bytes
  | a :: b :: s => do
    let high ← toByte a
    let low ← toByte b
    return UInt8.ofNat (high <<< 4 ||| low) :: (← hexPairs s)
  | _ => .ok []

/-- `hexStringToByteArray`. -/
def hexStringToByteArray (hexString : JString) : Except Exn Bytes :=
  if hexString.length % 2 ≠ 0 then
    .error (.badRequest "HexString must be even number of characters")
  else hexPairs hexString

/-! ### What the PDU is meant to be -/

/-- Digits packed into octets, the first one of two in the low half; the last octet of an odd number
of digits is filled up. -/
def packed : List ℕ → Bytes
  | [] => []
  | [d] => [UInt8.ofNat (0xF0 + d)]
  | d :: e :: ds => UInt8.ofNat (16 * e + d) :: packed ds

/-- Digits as a text. -/
def digitsText (ds : List ℕ) : JString := ds.map fun d => UInt16.ofNat (48 + d)

/-- The digit `0` to `9` that a character is. -/
def asciiDigit (c : UInt16) : Option ℕ :=
  if 48 ≤ c.toNat ∧ c.toNat ≤ 57 then some (c.toNat - 48) else none

/-- The digits of an address. -/
def asciiDigits (address : JString) : List ℕ := address.filterMap asciiDigit

/-- A PDU for sending: two octets, the number of digits, the type of the address, the digits, three
octets and the text. -/
def Submits (getSubmitPdu : JString → JString → Bytes) : Prop :=
  ∀ ds smsBody, (∀ d ∈ ds, d < 10) → ds.length ≤ 255 → ∃ b₀ b₁ n type x y z text,
    getSubmitPdu (digitsText ds) smsBody =
      b₀ :: b₁ :: n :: type :: (packed ds ++ x :: y :: z :: text) ∧ n.toNat = ds.length

/-- The octets in front of the address: the service centre and the first octet of the PDU. -/
def header : Bytes := [0x06, 0x81, 0, 0, 0, 0, 0, 0x04]

/-- The PDU is a text of hexadecimal digits; the octets in it are the header, the number of the
digits of the address, its type, the digits, two octets, the time, the length of the body and the
text. -/
def Delivers (env : Env) (smsBody dateTime address : JString) : Prop :=
  ∃ pdu bytes, getSMSDeliverPdu env smsBody dateTime address = .ok pdu ∧
    hexStringToByteArray pdu = .ok bytes ∧ ∃ (n m : UInt8) (time text : Bytes),
      bytes = header ++ (n :: 0x81 :: (packed (asciiDigits address) ++ (0 :: 0 :: (time ++
        m :: text)))) ∧
      time.length = 7 ∧ n.toNat = (asciiDigits address).length ∧ m.toNat = smsBody.length

/-- Where an ASCII digit of `s` has its byte, counted in bytes, `z` has a character, counted in
characters, with the same value. -/
def Answers (s z : JString) : Prop :=
  ∀ j c d, s[j]? = some c → asciiDigit c = some d →
    ∃ c', z[byteIndex s j]? = some c' ∧ digit c' = some d

/-- The inputs for which the PDU is as it is meant to be. -/
structure Deliverable (smsBody address : JString) (t : Rfc3339) : Prop where
  /-- The length of the body fits into an octet. -/
  body : smsBody.length ≤ 255
  /-- The offset from UTC is a number. -/
  offset : t.offset ≠ none
  /-- Where the byte of a digit is, there is a character with its value. -/
  digits : Answers address address
  /-- The number of digits, as a signed byte, does not lead in front of the PDU for sending. -/
  count : (asciiDigits address).length ≤ 127 ∨
    241 ≤ (asciiDigits address).length ∧ (asciiDigits address).length ≤ 255

/-! ### Hexadecimal digits -/

/-- Bytes in hexadecimal digits. -/
def hexText (bs : Bytes) : JString := bs.flatMap fun b => padded b.toNat

theorem padded_of_lt {n : ℕ} (h : n < 256) : padded n = [hexDigit (n / 16), hexDigit (n % 16)] := by
  rw [padded, toHexString, Nat.mod_eq_of_lt h]
  by_cases hzero : n = 0
  · subst hzero
    rfl
  · rw [if_neg hzero]
    by_cases hlt : n < 16
    · rw [if_pos hlt, Nat.digits_of_lt 16 n hzero hlt, Nat.div_eq_of_lt hlt, Nat.mod_eq_of_lt hlt]
      rfl
    · have hhigh : Nat.digits 16 (n / 16) = [n / 16] :=
        Nat.digits_of_lt 16 _ (by omega) (by omega)
      rw [if_neg hlt, Nat.digits_def' (by decide) (by omega), hhigh]
      rfl

theorem toByte_upper_hexDigit {d : ℕ} (h : d < 16) : toByte (upper (hexDigit d)) = .ok d := by
  have hall : ∀ d < 16, toByte (upper (hexDigit d)) = .ok d := by decide
  exact hall d h

theorem halves_byte (b : UInt8) : UInt8.ofNat ((b.toNat / 16) <<< 4 ||| b.toNat % 16) = b := by
  have hor : (b.toNat / 16) <<< 4 ||| b.toNat % 16 = b.toNat := by
    rw [← Nat.shiftLeft_add_eq_or_of_lt (Nat.mod_lt _ (by decide)), Nat.shiftLeft_eq]
    omega
  rw [hor, UInt8.ofNat_toNat]

/-- The digits of bytes, in upper case, are read as the bytes. -/
theorem hexPairs_hexText (bs : Bytes) : hexPairs (toUpperCase (hexText bs)) = .ok bs := by
  induction bs with
  | nil => rfl
  | cons b bs ih =>
    have hb := b.toNat_lt
    have htext : toUpperCase (hexText (b :: bs)) = upper (hexDigit (b.toNat / 16)) ::
        upper (hexDigit (b.toNat % 16)) :: toUpperCase (hexText bs) := by
      rw [hexText, List.flatMap_cons, padded_of_lt hb]
      rfl
    rw [htext, hexPairs, toByte_upper_hexDigit (by omega), toByte_upper_hexDigit (by omega), ih]
    exact congrArg (fun c => Except.ok (c :: bs)) (halves_byte b)

theorem length_hexText (bs : Bytes) : (hexText bs).length = 2 * bs.length := by
  induction bs with
  | nil => rfl
  | cons b bs ih =>
    rw [hexText, List.flatMap_cons, List.length_append, ← hexText, ih, padded_of_lt b.toNat_lt,
      List.length_cons]
    simp
    omega

theorem hexStringToByteArray_hexText (bs : Bytes) :
    hexStringToByteArray (toUpperCase (hexText bs)) = .ok bs := by
  have heven : ¬ (toUpperCase (hexText bs)).length % 2 ≠ 0 := by
    rw [toUpperCase, List.length_map, length_hexText]
    omega
  rw [hexStringToByteArray, if_neg heven, hexPairs_hexText]

@[simp] theorem hexText_append (bs cs : Bytes) : hexText (bs ++ cs) = hexText bs ++ hexText cs :=
  List.flatMap_append

theorem hexText_singleton (b : UInt8) : hexText [b] = padded b.toNat := List.append_nil _

/-! ### Bytes of the PDU for sending -/

section Bytes

variable {msg : Bytes}

theorem byteAt_append (pre : Bytes) (b : UInt8) (post : Bytes) :
    byteAt (pre ++ b :: post) pre.length = .ok b := by
  have hget : (pre ++ b :: post)[pre.length]? = some b := by simp
  rw [byteAt, if_neg (by omega), Int.toNat_natCast, hget]

/-- The loop writes the bytes of a part of the array. -/
theorem hexRange_append (pre mid post : Bytes) :
    hexRange (pre ++ (mid ++ post)) pre.length (pre.length + mid.length) = .ok (hexText mid) := by
  have hturns : ∀ n ≤ mid.length, (List.range n).foldlM (fun (buffer : JString) (k : ℕ) => do
      return buffer ++ padded (← byteAt (pre ++ (mid ++ post)) (pre.length + k)).toNat) [] =
        Except.ok (ε := Exn) (hexText (mid.take n)) := by
    intro n
    induction n with
    | zero => exact fun _ => rfl
    | succ n ih =>
      intro hn
      have hsplit : mid = mid.take n ++ mid[n] :: mid.drop (n + 1) := by
        rw [List.getElem_cons_drop, List.take_append_drop]
      have hbyte : byteAt (pre ++ (mid ++ post)) (pre.length + n) = .ok mid[n] := by
        have hat := byteAt_append (pre ++ mid.take n) mid[n] (mid.drop (n + 1) ++ post)
        rw [List.length_append, List.length_take, min_eq_left (by omega)] at hat
        rw [← Int.natCast_add, ← hat]
        congr 1
        conv_lhs => rw [hsplit]
        simp only [List.append_assoc, List.cons_append]
      rw [List.range_succ, List.foldlM_append, ih (by omega), List.take_succ_eq_append_getElem hn,
        hexText_append, hexText_singleton]
      simp only [List.foldlM_cons, List.foldlM_nil, hbyte]
      rfl
  have hcount : ((pre.length : ℤ) + mid.length - pre.length).toNat = mid.length := by omega
  rw [hexRange, hcount, hturns _ le_rfl, List.take_length]

/-- There is nothing in front of the array. -/
theorem hexRange_of_neg {start stop : ℤ} (hneg : start < 0) (hlt : start < stop) :
    hexRange msg start stop = .error .indexOutOfBounds := by
  obtain ⟨n, hn⟩ : ∃ n, (stop - start).toNat = n + 1 := ⟨(stop - start).toNat - 1, by omega⟩
  have hbyte : byteAt msg (start + (0 : ℕ)) = .error .indexOutOfBounds := by
    rw [byteAt, if_pos (by omega)]
  rw [hexRange, hn, List.range_succ_eq_map, List.foldlM_cons, hbyte]
  rfl

end Bytes

/-! ### The time -/

/-- The octet of a number of two digits, with its digits swapped. -/
def swapped (n : ℕ) : UInt8 := UInt8.ofNat (16 * (n % 10) + n / 10 % 10)

namespace Rfc3339

/-- The offset from UTC in quarters of an hour, and a bit for the sign. -/
def quarters (negative : Bool) (hours minutes : ℕ) : ℕ :=
  if negative then (minutes / 15 + hours * 4) ||| 0x80 else minutes / 15 + hours * 4

/-- The octets of a time. -/
def octets (t : Rfc3339) (zone : ℕ) : Bytes :=
  [swapped t.year, swapped t.month, swapped t.day, swapped t.hour, swapped t.minute,
    swapped t.second, UInt8.ofNat (16 * (zone % 16) + zone / 16)]

/-- The time without the offset. -/
def front (t : Rfc3339) : JString :=
  two (t.year / 100) ++ (two t.year ++ 45 :: (two t.month ++ 45 :: (two t.day ++ 84 ::
    (two t.hour ++ 58 :: (two t.minute ++ 58 :: (two t.second ++ fractionText t.fraction))))))

end Rfc3339

section Time

open Rfc3339

variable {t : Rfc3339} {negative : Bool} {hours : Fin 24} {minutes : Fin 60}

theorem text_eq (t : Rfc3339) : t.text = t.front ++ offsetText t.offset := by
  simp only [text, front, List.append_assoc, List.cons_append]

theorem substring_two {s a z : JString} {n i : ℕ} (hs : s = a ++ two n ++ z) (hi : a.length = i) :
    substring s i (i + 2) = .ok (two n) := by
  rw [hs, ← hi]
  exact substring_append

theorem substring_last {a b : JString} {k : ℕ} (hb : b.length = k) :
    substring (a ++ b) ((a ++ b).length - k) (a ++ b).length = .ok b := by
  have h := substring_append (a := a) (y := b) (z := [])
  rw [List.append_nil] at h
  rw [← h, ← hb, List.length_append]
  congr 1
  omega

theorem valueOf_two {n : ℕ} (h : n < 100) : valueOf (two n) = .ok (n : ℤ) := by
  have hall : ∀ n < 100, valueOf (two n) = .ok (n : ℤ) := by decide
  exact hall n h

theorem swapNibbles_two (n : ℕ) (s : JString) :
    swapNibbles (two n ++ s) = (swapNibbles s).map (padded (swapped n).toNat ++ ·) := by
  have hlow := Nat.mod_lt n (show 10 > 0 by decide)
  have hhigh := Nat.mod_lt (n / 10) (show 10 > 0 by decide)
  have hvalue : (swapped n).toNat = 16 * (n % 10) + n / 10 % 10 := by
    rw [swapped, UInt8.toNat_ofNat']
    omega
  rw [padded_of_lt (swapped n).toNat_lt, hvalue]
  have h1 : (16 * (n % 10) + n / 10 % 10) / 16 = n % 10 := by omega
  have h2 : (16 * (n % 10) + n / 10 % 10) % 16 = n / 10 % 10 := by omega
  rw [h1, h2, hexDigit, hexDigit, if_pos hlow, if_pos hhigh]
  rfl

theorem swapNibbles_padded {n : ℕ} (h : n < 256) :
    swapNibbles (padded n) = .ok (padded (UInt8.ofNat (16 * (n % 16) + n / 16)).toNat) := by
  have hvalue : (UInt8.ofNat (16 * (n % 16) + n / 16)).toNat = 16 * (n % 16) + n / 16 := by
    rw [UInt8.toNat_ofNat']
    omega
  have h1 : (16 * (n % 16) + n / 16) / 16 = n % 16 := by omega
  have h2 : (16 * (n % 16) + n / 16) % 16 = n / 16 := by omega
  rw [padded_of_lt h, padded_of_lt (UInt8.toNat_lt _), hvalue, h1, h2]
  rfl

theorem quarters_lt (negative : Bool) {hours minutes : ℕ} (hh : hours < 24) (hm : minutes < 60) :
    quarters negative hours minutes < 256 := by
  have hsum : minutes / 15 + hours * 4 < 2 ^ 7 := by omega
  unfold quarters
  split
  · have hor : (minutes / 15 + hours * 4) ||| 0x80 < 2 ^ 8 :=
      Nat.or_lt_two_pow (hsum.trans (by decide)) (by decide)
    exact hor
  · exact hsum.trans (by decide)

theorem tZone15offset_text (h : t.offset = some (negative, hours, minutes)) :
    tZone15offset t.text = .ok (quarters negative hours minutes) := by
  have htext : t.text = t.front ++ ((if negative then 45 else 43) ::
      (two hours ++ 58 :: two minutes)) := by
    rw [text_eq, h]
    rfl
  generalize hsign : (if negative then (45 : UInt16) else 43) = sign at htext
  have hzone : substring t.text (t.text.length - 6) t.text.length =
      .ok (sign :: (two hours ++ 58 :: two minutes)) := by
    rw [htext]
    exact substring_last rfl
  -- the offset has six characters, the sign in front
  have hlen : ((sign :: (two hours ++ 58 :: two minutes)).length : ℤ) = 6 := rfl
  have hminutes : substring (sign :: (two hours ++ 58 :: two minutes)) (6 - 2) 6 =
      .ok (two minutes) :=
    substring_two (a := sign :: (two hours ++ [58])) (z := []) rfl rfl
  have hhours : substring (sign :: (two hours ++ 58 :: two minutes)) (6 - 5) (6 - 3) =
      .ok (two hours) :=
    substring_two (a := [sign]) (z := 58 :: two minutes) rfl rfl
  have hat : t.text[t.text.length - 6]? = some sign := by
    rw [htext]
    simp [two]
  have hh := hours.isLt
  have hm := minutes.isLt
  have hoffset : ((minutes : ℤ).tdiv 15 + hours * 4).toNat = minutes / 15 + hours * 4 := by
    rw [Int.tdiv_eq_ediv_of_nonneg (by omega)]
    omega
  rw [tZone15offset, hzone]
  simp only [ok_bind, hlen, hminutes, hhours, valueOf_two (hh.trans (by decide)),
    valueOf_two (hm.trans (by decide)), hat, hoffset, quarters]
  rw [← hsign]
  cases negative <;> rfl

/-- The fields of the time are where the code takes them from. -/
theorem encodeTime_eq (t : Rfc3339) : encodeTime t.text = (do
    swapNibbles (two t.year ++ (two t.month ++ (two t.day ++ (two t.hour ++ (two t.minute ++
      two t.second)))) ++ padded (← tZone15offset t.text))) := by
  have hyear : substring t.text 2 4 = .ok (two t.year) :=
    substring_two (a := t.text.take 2) (z := t.text.drop 4) rfl rfl
  have hmonth : substring t.text 5 7 = .ok (two t.month) :=
    substring_two (a := t.text.take 5) (z := t.text.drop 7) rfl rfl
  have hday : substring t.text 8 10 = .ok (two t.day) :=
    substring_two (a := t.text.take 8) (z := t.text.drop 10) rfl rfl
  have hhour : substring t.text 11 13 = .ok (two t.hour) :=
    substring_two (a := t.text.take 11) (z := t.text.drop 13) rfl rfl
  have hminute : substring t.text 14 16 = .ok (two t.minute) :=
    substring_two (a := t.text.take 14) (z := t.text.drop 16) rfl rfl
  have hsecond : substring t.text 17 19 = .ok (two t.second) :=
    substring_two (a := t.text.take 17) (z := t.text.drop 19) rfl rfl
  rw [encodeTime, hyear, hmonth, hday, hhour, hminute, hsecond]
  simp only [ok_bind]

theorem encodeTime_text (h : t.offset = some (negative, hours, minutes)) :
    encodeTime t.text = .ok (hexText (t.octets (quarters negative hours minutes))) := by
  have hlt := quarters_lt negative hours.isLt minutes.isLt
  rw [encodeTime_eq, tZone15offset_text h, ok_bind]
  simp only [List.append_assoc, swapNibbles_two, swapNibbles_padded hlt, Except.map, hexText,
    octets, List.flatMap_cons, List.flatMap_nil, List.append_nil]

theorem valueOf_z (x : UInt16) : valueOf [x, 90] = .error .numberFormat := by
  have hz : digit 90 = none := by decide
  have hmap : ([x, 90] : JString).mapM digit = none := by
    simp [List.mapM_cons, hz]
  have hone : ([90] : JString).mapM digit = none := by
    simp [List.mapM_cons, hz]
  rw [valueOf]
  split_ifs with hsign <;> simp [hmap, hone]

/-- The `Z` of UTC is not a number. -/
theorem encodeTime_of_none (h : t.offset = none) : encodeTime t.text = .error .numberFormat := by
  have hge : 19 ≤ t.front.length := by simp [front, two]
  have hdrop : (t.front.drop (t.front.length - 5)).length = 5 := by
    rw [List.length_drop]
    omega
  obtain hnil | ⟨g, x, hg⟩ := List.eq_nil_or_concat' (t.front.drop (t.front.length - 5))
  · rw [hnil] at hdrop
    cases hdrop
  rw [hg, List.length_append, List.length_singleton] at hdrop
  have htext : t.text = t.front.take (t.front.length - 5) ++ (g ++ [x, 90]) := by
    rw [text_eq, h]
    conv_lhs => rw [← List.take_append_drop (t.front.length - 5) t.front, hg]
    simp [offsetText]
  have hsix : (g ++ [x, 90]).length = 6 := by
    rw [List.length_append]
    simp
    omega
  have hzone : substring t.text (t.text.length - 6) t.text.length = .ok (g ++ [x, 90]) := by
    rw [htext]
    exact substring_last hsix
  have hminutes : substring (g ++ [x, 90]) ((g ++ [x, 90]).length - 2) (g ++ [x, 90]).length =
      .ok [x, 90] := substring_last rfl
  rw [encodeTime_eq, tZone15offset, hzone]
  simp only [ok_bind, hminutes, valueOf_z, error_bind]

end Time

/-! ### The digits of the address -/

section Digits

variable {address : JString} {bytes : Bytes} {b : UInt8} {c : UInt16} {d : ℕ} {ds : List ℕ}

theorem digit_lt (h : digit c = some d) : d < 10 := by
  obtain ⟨z, -, hz⟩ := List.exists_of_findSome?_eq_some h
  split at hz
  · cases hz
    omega
  · cases hz

theorem valueOf_singleton (c : UInt16) :
    valueOf [c] = (digit c).elim (.error .numberFormat) fun d => .ok d := by
  have hminus : digit 45 = none := by decide
  have hplus : digit 43 = none := by decide
  rw [valueOf]
  by_cases hsign : c = 45 ∨ c = 43
  · rcases hsign with rfl | rfl
    · rw [hminus]
      rfl
    · rw [hplus]
      rfl
  · obtain ⟨h45, h43⟩ := not_or.1 hsign
    cases hc : digit c with
    | none => simp [hc, h45, h43]
    | some d =>
      have hlt := digit_lt hc
      simp [hc, h45, h43]
      omega

theorem decimal_of_lt (h : d < 10) : decimal (d : ℤ) = digitsText [d] := by
  have hall : ∀ d : ℕ, d < 10 → decimal (d : ℤ) = digitsText [d] := by decide
  exact hall d h

/-- The values of the characters where the bytes are digits. -/
def selected (bytes : Bytes) (z : JString) : Option (List ℕ) :=
  ((bytes.zip z).filter fun x => isDigit x.1).mapM fun x => digit x.2

@[simp] theorem selected_nil_right (bytes : Bytes) : selected bytes [] = some [] := by
  rw [selected, List.zip_nil_right]
  rfl

theorem selected_cons_of_digit (hb : isDigit b = true) (c : UInt16) (z : JString) :
    selected (b :: bytes) (c :: z) = (digit c).bind fun d => (selected bytes z).map (d :: ·) := by
  simp only [selected, List.zip_cons_cons, List.filter_cons, hb, if_true, List.mapM_cons]
  generalize (((bytes.zip z).filter fun x => isDigit x.1).mapM fun x => digit x.2) = ds
  cases digit c <;> cases ds <;> rfl

theorem selected_cons_of_not_digit (hb : isDigit b = false) (z : JString) :
    selected (b :: bytes) z = selected bytes (z.drop 1) := by
  cases z with
  | nil => simp
  | cons c z =>
    simp only [selected, List.zip_cons_cons, List.filter_cons, hb, Bool.false_eq_true, if_false]
    rfl

/-- Bytes that are not digits are passed over. -/
theorem selected_append (h : ∀ b ∈ bytes, isDigit b = false) (rest : Bytes) (z : JString) :
    selected (bytes ++ rest) z = selected rest (z.drop bytes.length) := by
  induction bytes generalizing z with
  | nil => rfl
  | cons b bytes ih =>
    rw [List.cons_append, selected_cons_of_not_digit (h b List.mem_cons_self),
      ih fun b hb => h b (List.mem_cons_of_mem _ hb), List.drop_drop, List.length_cons,
      Nat.add_comm]

/-- The turns from `k` on. -/
theorem digitTurns_eq (address : JString) {k m : ℕ} (hk : k + m = address.length)
    (strbufAddress : JString) :
    (List.range' k m).foldlM (digitTurn address) strbufAddress =
      (selected ((utf8 address).drop k) (address.drop k)).elim (.error .numberFormat)
        fun ds => .ok (strbufAddress ++ digitsText ds) := by
  induction m generalizing k strbufAddress with
  | zero =>
    rw [List.drop_of_length_le (l := address) (by omega), selected_nil_right, List.range'_zero,
      List.foldlM_nil, Option.elim_some, digitsText, List.map_nil, List.append_nil]
    rfl
  | succ m ih =>
    have hlt : k < address.length := by omega
    have hltb : k < (utf8 address).length := hlt.trans_le (length_utf8 address).1
    have hbyte : byteAt (utf8 address) k = .ok (utf8 address)[k] := by
      rw [byteAt, if_neg (by omega), Int.toNat_natCast, List.getElem?_eq_getElem hltb]
    have hchar : substring address k (k + 1) = .ok [address[k]] := by
      have h := substring_append (a := address.take k) (y := [address[k]])
        (z := address.drop (k + 1))
      rw [List.append_assoc, List.singleton_append, List.getElem_cons_drop,
        List.take_append_drop, List.length_take, min_eq_left hlt.le] at h
      exact h
    rw [List.range'_succ, List.foldlM_cons, digitTurn, hbyte, ok_bind,
      ← List.getElem_cons_drop hltb, ← List.getElem_cons_drop hlt]
    cases hdigit : isDigit (utf8 address)[k] with
    | false =>
      rw [selected_cons_of_not_digit hdigit]
      exact ih (by omega) strbufAddress
    | true =>
      rw [selected_cons_of_digit hdigit, if_pos rfl, hchar, ok_bind, valueOf_singleton]
      cases hc : digit address[k] with
      | none => rfl
      | some d =>
        have hrest := ih (k := k + 1) (by omega) (strbufAddress ++ digitsText [d])
        simp only [Option.elim_some, ok_bind, decimal_of_lt (digit_lt hc), Option.bind_some]
        refine hrest.trans ?_
        cases selected ((utf8 address).drop (k + 1)) (address.drop (k + 1)) with
        | none => rfl
        | some ds =>
          rw [Option.elim_some, Option.map_some, Option.elim_some, List.append_assoc]
          rfl

theorem extractDigits_eq (address : JString) :
    extractDigits address = (selected (utf8 address) address).elim (.error .numberFormat)
      fun ds => .ok (digitsText ds) := by
  rw [extractDigits, List.range_eq_range']
  exact digitTurns_eq address (Nat.zero_add _) []

theorem extractDigits_eq_ok_iff {text : JString} : extractDigits address = .ok text ↔
    ∃ ds, selected (utf8 address) address = some ds ∧ text = digitsText ds := by
  rw [extractDigits_eq]
  cases selected (utf8 address) address with
  | none => exact iff_of_false (fun h => by cases h) (fun ⟨ds, h, _⟩ => by cases h)
  | some ds =>
    constructor
    · intro h
      exact ⟨ds, rfl, (Except.ok.inj h).symm⟩
    · rintro ⟨ds, h, rfl⟩
      cases h
      rfl

theorem answers_nil (z : JString) : Answers [] z := fun j c d h => by cases h

theorem answers_unit {s : JString} (h : ¬ (IsHigh c ∧ ∃ d ∈ s.head?, IsLow d)) (z : JString) :
    Answers (c :: s) z ↔
      (∀ d, asciiDigit c = some d → ∃ c', z[0]? = some c' ∧ digit c' = some d) ∧
        Answers s (z.drop (unitChar c).utf8Size) := by
  constructor
  · refine fun ha => ⟨fun d hd => ha 0 c d rfl hd, fun j c' d hj hd => ?_⟩
    have hat := ha (j + 1) c' d hj hd
    rwa [byteIndex_unit h, ← List.getElem?_drop] at hat
  · rintro ⟨hfirst, hrest⟩ j c' d hj hd
    cases j with
    | zero =>
      obtain rfl := Option.some.inj hj
      exact hfirst d hd
    | succ j =>
      rw [byteIndex_unit h, ← List.getElem?_drop]
      exact hrest j c' d hj hd

theorem asciiDigit_eq_none (h : 0x80 ≤ c.toNat) : asciiDigit c = none := if_neg (by omega)

theorem answers_pair {s : JString} {c' : UInt16} (h : IsHigh c) (hd : IsLow c') (z : JString) :
    Answers (c :: c' :: s) z ↔ Answers s (z.drop 4) := by
  have hnone : asciiDigit c = none := asciiDigit_eq_none (by rw [IsHigh] at h; omega)
  have hnone' : asciiDigit c' = none := asciiDigit_eq_none (by rw [IsLow] at hd; omega)
  constructor
  · intro ha j e d hj he
    have hat := ha (j + 2) e d hj he
    rwa [byteIndex_pair h hd, ← List.getElem?_drop] at hat
  · intro ha j e d hj he
    rcases j with _ | _ | j
    · obtain rfl := Option.some.inj hj
      rw [hnone] at he
      cases he
    · obtain rfl := Option.some.inj hj
      rw [hnone'] at he
      cases he
    · rw [byteIndex_pair h hd, ← List.getElem?_drop]
      exact ha j e d hj he

/-- What the loop takes: not more digits than there are, and these digits exactly if the characters
at the places of their bytes have the same values. -/
structure Selects (s z : JString) : Prop where
  length_le : ∀ ds, selected (utf8 s) z = some ds → ds.length ≤ (asciiDigits s).length
  iff_answers : selected (utf8 s) z = some (asciiDigits s) ↔ Answers s z

theorem isDigit_iff : isDigit b = true ↔ 48 ≤ b.toNat ∧ b.toNat ≤ 57 := by
  rw [isDigit, Bool.and_eq_true, decide_eq_true_eq, decide_eq_true_eq, UInt8.le_iff_toNat_le,
    UInt8.le_iff_toNat_le]
  rfl

theorem isDigit_eq_false (h : ¬ (48 ≤ b.toNat ∧ b.toNat ≤ 57)) : isDigit b = false :=
  Bool.eq_false_iff.2 (mt isDigit_iff.1 h)

theorem selects_unit {s : JString} (h : ¬ (IsHigh c ∧ ∃ d ∈ s.head?, IsLow d))
    (ih : ∀ z, Selects s z) (z : JString) : Selects (c :: s) z := by
  have hutf8 := utf8_unit h
  cases hd : asciiDigit c with
  | none =>
    have hbytes : ∀ b ∈ String.utf8EncodeChar (unitChar c), isDigit b = false := by
      intro b hb
      by_cases hascii : c.toNat < 0x80
      · rw [utf8EncodeChar_unitChar hascii, List.mem_singleton] at hb
        have hrange : ¬ (48 ≤ c.toNat ∧ c.toNat ≤ 57) := fun h => by
          rw [asciiDigit, if_pos h] at hd
          cases hd
        have hvalue : b.toNat = c.toNat := by
          rw [hb, UInt8.toNat_ofNat']
          omega
        exact isDigit_eq_false (hvalue ▸ hrange)
      · rcases of_mem_utf8EncodeChar_unitChar (not_lt.1 hascii) hb with rfl | hge
        · rfl
        · exact isDigit_eq_false (by omega)
    have hsel : selected (utf8 (c :: s)) z = selected (utf8 s) (z.drop (unitChar c).utf8Size) := by
      rw [hutf8, selected_append hbytes, String.length_utf8EncodeChar]
    have hdigits : asciiDigits (c :: s) = asciiDigits s := List.filterMap_cons_none hd
    have hanswers : Answers (c :: s) z ↔ Answers s (z.drop (unitChar c).utf8Size) := by
      rw [answers_unit h, and_iff_right]
      intro d hd'
      rw [hd] at hd'
      cases hd'
    constructor
    · rw [hsel, hdigits]
      exact (ih _).length_le
    · rw [hsel, hdigits, hanswers]
      exact (ih _).iff_answers
  | some d =>
    have hrange : 48 ≤ c.toNat ∧ c.toNat ≤ 57 := by
      by_contra hc
      rw [asciiDigit, if_neg hc] at hd
      cases hd
    have hbyte : isDigit (UInt8.ofNat c.toNat) = true := by
      rw [isDigit_iff, UInt8.toNat_ofNat']
      omega
    have hchar := utf8EncodeChar_unitChar (show c.toNat < 0x80 by omega)
    have hsize : (unitChar c).utf8Size = 1 := by
      rw [← String.length_utf8EncodeChar, hchar, List.length_singleton]
    have hdigits : asciiDigits (c :: s) = d :: asciiDigits s := List.filterMap_cons_some hd
    rw [hchar, List.singleton_append] at hutf8
    cases z with
    | nil =>
      constructor
      · intro ds hds
        rw [selected_nil_right] at hds
        cases hds
        exact Nat.zero_le _
      · rw [selected_nil_right, hdigits, answers_unit h]
        refine iff_of_false (fun h => by cases h) fun ha => ?_
        obtain ⟨c', hc', -⟩ := ha.1 d hd
        cases hc'
    | cons c' z =>
      have hsel : selected (utf8 (c :: s)) (c' :: z) =
          (digit c').bind fun d => (selected (utf8 s) z).map (d :: ·) := by
        rw [hutf8, selected_cons_of_digit hbyte]
      constructor
      · intro ds hds
        rw [hsel] at hds
        obtain ⟨e, -, hrest⟩ := Option.bind_eq_some_iff.1 hds
        obtain ⟨es, hes, rfl⟩ := Option.map_eq_some_iff.1 hrest
        rw [hdigits, List.length_cons, List.length_cons]
        exact Nat.succ_le_succ ((ih z).length_le es hes)
      · rw [hsel, hdigits, answers_unit h, hsize, List.drop_one, List.tail_cons,
          ← (ih z).iff_answers]
        constructor
        · intro hsome
          obtain ⟨e, he, hrest⟩ := Option.bind_eq_some_iff.1 hsome
          obtain ⟨es, hes, hcons⟩ := Option.map_eq_some_iff.1 hrest
          obtain ⟨rfl, rfl⟩ := List.cons.inj hcons
          refine ⟨fun d' hd' => ⟨c', rfl, ?_⟩, hes⟩
          rw [he, ← hd, hd']
        · rintro ⟨hfirst, hrest⟩
          obtain ⟨c'', hc'', hvalue⟩ := hfirst d hd
          obtain rfl := Option.some.inj hc''
          rw [hvalue, Option.bind_some, hrest, Option.map_some]

theorem selects (s z : JString) : Selects s z := by
  induction s using utf16Chars.induct generalizing z with
  | case1 =>
    constructor
    · intro ds hds
      cases hds
      exact Nat.le_refl 0
    · exact iff_of_true rfl (answers_nil z)
  | case2 c =>
    refine selects_unit (by simp) (fun z => ⟨fun ds hds => ?_, iff_of_true rfl (answers_nil z)⟩) z
    cases hds
    exact Nat.le_refl 0
  | case3 c d s hpair ih =>
    have hbytes : ∀ b ∈ String.utf8EncodeChar (pairChar c d), isDigit b = false := by
      intro b hb
      have hge := le_of_mem_utf8EncodeChar_pairChar hpair.1 hpair.2 hb
      exact isDigit_eq_false (by omega)
    have hsel : selected (utf8 (c :: d :: s)) z = selected (utf8 s) (z.drop 4) := by
      rw [utf8_pair hpair.1 hpair.2, selected_append hbytes, String.length_utf8EncodeChar,
        utf8Size_pairChar hpair.1 hpair.2]
    have hdigits : asciiDigits (c :: d :: s) = asciiDigits s := by
      obtain ⟨hc, hd⟩ := hpair
      rw [IsHigh] at hc
      rw [IsLow] at hd
      rw [asciiDigits, List.filterMap_cons_none (asciiDigit_eq_none (by omega)),
        List.filterMap_cons_none (asciiDigit_eq_none (by omega)), asciiDigits]
    constructor
    · rw [hsel, hdigits]
      exact (ih _).length_le
    · rw [hsel, hdigits, answers_pair hpair.1 hpair.2]
      exact (ih _).iff_answers
  | case4 c d s hpair ih =>
    refine selects_unit ?_ ih z
    rintro ⟨hc, d', hd', hlow⟩
    obtain rfl := Option.some.inj hd'
    exact hpair ⟨hc, hlow⟩

end Digits

/-! ### The PDU -/

section Pdu

variable {env : Env} {smsBody dateTime address : JString} {millis : ℤ} {negative : Bool}
    {hours : Fin 24} {minutes : Fin 60} {ds es : List ℕ} {msg : Bytes}

theorem length_packed (ds : List ℕ) :
    (packed ds).length = ds.length / 2 + ds.length % 2 := by
  induction ds using packed.induct with
  | case1 => rfl
  | case2 d => rw [packed, List.length_singleton, List.length_singleton]
  | case3 d e ds ih =>
    rw [packed, List.length_cons, ih, List.length_cons, List.length_cons]
    omega

@[simp] theorem length_digitsText (ds : List ℕ) : (digitsText ds).length = ds.length :=
  List.length_map _

theorem packed_inj (hds : ∀ d ∈ ds, d < 10) (hes : ∀ e ∈ es, e < 10)
    (hlen : ds.length = es.length) (h : packed ds = packed es) : ds = es := by
  induction ds using packed.induct generalizing es with
  | case1 => exact (List.length_eq_zero_iff.1 hlen.symm).symm
  | case2 d =>
    obtain ⟨e, rfl⟩ := List.length_eq_one_iff.1 hlen.symm
    have hd := hds d List.mem_cons_self
    have he := hes e List.mem_cons_self
    have hbyte := congrArg UInt8.toNat (List.cons.inj h).1
    rw [UInt8.toNat_ofNat', UInt8.toNat_ofNat'] at hbyte
    rw [show d = e by omega]
  | case3 d d' ds ih =>
    match es, hlen with
    | e :: e' :: es, hlen =>
      rw [packed, packed] at h
      obtain ⟨hbyte, hrest⟩ := List.cons.inj h
      have hd := hds d List.mem_cons_self
      have hd' := hds d' (List.mem_cons_of_mem _ List.mem_cons_self)
      have he := hes e List.mem_cons_self
      have he' := hes e' (List.mem_cons_of_mem _ List.mem_cons_self)
      have hbyte := congrArg UInt8.toNat hbyte
      rw [UInt8.toNat_ofNat', UInt8.toNat_ofNat'] at hbyte
      rw [show d = e by omega, show d' = e' by omega,
        ih (fun d hd => hds d (List.mem_cons_of_mem _ (List.mem_cons_of_mem _ hd)))
          (fun e he => hes e (List.mem_cons_of_mem _ (List.mem_cons_of_mem _ he)))
          (by simpa using hlen) hrest]

theorem asciiDigits_lt : ∀ d ∈ asciiDigits address, d < 10 := by
  intro d hd
  obtain ⟨c, -, hc⟩ := List.mem_filterMap.1 hd
  rw [asciiDigit] at hc
  split at hc
  · cases hc
    omega
  · cases hc

theorem selected_lt {bytes : Bytes} {z : JString} (h : selected bytes z = some ds) :
    ∀ d ∈ ds, d < 10 := by
  rw [selected] at h
  generalize (bytes.zip z).filter (fun x => isDigit x.1) = xs at h
  induction xs generalizing ds with
  | nil =>
    cases h
    exact fun d hd => absurd hd List.not_mem_nil
  | cons x xs ih =>
    rw [List.mapM_cons] at h
    obtain ⟨d, hd, h⟩ := Option.bind_eq_some_iff.1 h
    obtain ⟨es, hes, h⟩ := Option.bind_eq_some_iff.1 h
    cases h
    exact List.forall_mem_cons.2 ⟨digit_lt hd, ih hes⟩

theorem halfOf_natCast (k : ℕ) : halfOf k = (k / 2 + k % 2 : ℕ) := by
  rw [halfOf, Int.tmod_eq_emod_of_nonneg (by omega)]
  split_ifs with hodd <;> rw [Int.tdiv_eq_ediv_of_nonneg (by omega)] <;> omega

theorem halfOf_neg (k : ℕ) : halfOf (-k) = -(k / 2 : ℕ) := by
  rw [halfOf, Int.neg_tmod, Int.tmod_eq_emod_of_nonneg (by omega)]
  split_ifs with hodd
  · have hneg : -(k : ℤ) + 1 = -((k - 1 : ℕ) : ℤ) := by omega
    rw [hneg, Int.neg_tdiv, Int.tdiv_eq_ediv_of_nonneg (by omega)]
    omega
  · rw [Int.neg_tdiv, Int.tdiv_eq_ediv_of_nonneg (by omega)]
    omega

/-- Where the text begins in the PDU for sending; the number of digits is read as a signed byte. -/
theorem halfOf_toByte (n : UInt8) : halfOf (Msm8909w.toByte n) =
    if n.toNat < 128 then ((n.toNat / 2 + n.toNat % 2 : ℕ) : ℤ)
    else -((256 - n.toNat) / 2 : ℕ) := by
  have hlt := n.toNat_lt
  rw [Msm8909w.toByte]
  by_cases h : n.toNat < 128
  · rw [if_pos h, if_pos h]
    exact halfOf_natCast _
  · have hneg : (n.toNat : ℤ) - 256 = -((256 - n.toNat : ℕ) : ℤ) := by omega
    rw [if_neg h, if_neg h, hneg]
    exact halfOf_neg _

theorem hexRange_drop {i : ℕ} (hi : i ≤ msg.length) :
    hexRange msg i (msg.length - i + i) = .ok (hexText (msg.drop i)) := by
  have h := hexRange_append (msg.take i) (msg.drop i) []
  rw [List.append_nil, List.take_append_drop, List.length_take, min_eq_left hi,
    List.length_drop] at h
  rw [← h]
  congr 1
  omega

/-- The octets in front of the text. -/
def octetsOf (ds : List ℕ) (time : Bytes) (smsBody : JString) (text : Bytes) : Bytes :=
  header ++ (UInt8.ofNat ds.length :: 0x81 :: (packed ds ++ (0 :: 0 :: (time ++
    UInt8.ofNat smsBody.length :: text))))

theorem padded_ofNat {n : ℕ} (h : n < 256) : padded n = hexText [UInt8.ofNat n] := by
  rw [hexText_singleton, UInt8.toNat_ofNat', Nat.mod_eq_of_lt h]

theorem hexText_octetsOf (hds : ds.length < 256) (hbody : smsBody.length < 256)
    (time text : Bytes) : hexText (octetsOf ds time smsBody text) =
      js "0681000000000004" ++ (padded ds.length ++ (js "81" ++ (hexText (packed ds) ++
        (js "0000" ++ (hexText time ++ (padded smsBody.length ++ hexText text)))))) := by
  have hheader : hexText header = js "0681000000000004" := rfl
  have htype : hexText [0x81] = js "81" := rfl
  have hzeros : hexText [0, 0] = js "0000" := rfl
  rw [padded_ofNat hds, padded_ofNat hbody, ← hheader, ← htype, ← hzeros]
  simp only [← hexText_append]
  rfl

/-- The steps of `getSMSDeliverPdu` up to the PDU for sending. -/
theorem getSMSDeliverPdu_steps (smsBody : JString) (hsubmit : Submits env.getSubmitPdu)
    (hdate : longValueOf dateTime = .ok millis)
    (hoffset : (env.format3339 millis).offset = some (negative, hours, minutes))
    (hsel : selected (utf8 address) address = some ds) (hds : ds.length ≤ 255) :
    ∃ (pre text : Bytes) (n : UInt8), n.toNat = ds.length ∧
      pre.length = 7 + (ds.length / 2 + ds.length % 2) ∧
      getSMSDeliverPdu env smsBody dateTime address = (do
        let strbufMessage ← hexRange (pre ++ text) (7 + halfOf (Msm8909w.toByte n))
          ((pre ++ text).length)
        return toUpperCase (js "0681000000000004" ++ (padded ds.length ++ (js "81" ++
          (hexText (packed ds) ++ (js "0000" ++
            (hexText ((env.format3339 millis).octets (Rfc3339.quarters negative hours minutes)) ++
              (padded smsBody.length ++ strbufMessage)))))))) := by
  obtain ⟨b₀, b₁, n, type, x, y, z, text, hmsg, hn⟩ :=
    hsubmit ds smsBody (selected_lt hsel) hds
  have hpre : (b₀ :: b₁ :: n :: type :: (packed ds ++ [x, y, z])).length =
      7 + (ds.length / 2 + ds.length % 2) := by
    simp [length_packed]
    omega
  have hpdu : env.getSubmitPdu (digitsText ds) smsBody =
      b₀ :: b₁ :: n :: type :: (packed ds ++ [x, y, z]) ++ text := by
    rw [hmsg]
    simp
  have hbyte : byteAt (b₀ :: b₁ :: n :: type :: (packed ds ++ [x, y, z]) ++ text) 2 = .ok n :=
    byteAt_append [b₀, b₁] n _
  have haddress : hexRange (b₀ :: b₁ :: n :: type :: (packed ds ++ [x, y, z]) ++ text) 4
      (ds.length / 2 + ds.length % 2 + 4) = .ok (hexText (packed ds)) := by
    have h := hexRange_append [b₀, b₁, n, type] (packed ds) ([x, y, z] ++ text)
    rw [length_packed] at h
    have hstop : ((ds.length : ℤ) / 2 + ds.length % 2 + 4) =
        (([b₀, b₁, n, type].length : ℕ) : ℤ) + (ds.length / 2 + ds.length % 2 : ℕ) := by
      simp
      omega
    rw [hstop, ← h]
    simp
  have hlength : ¬ ((b₀ :: b₁ :: n :: type :: (packed ds ++ [x, y, z]) ++ text).length : ℤ) -
      (7 + halfOf (Msm8909w.toByte n)) < 0 := by
    rw [List.length_append, hpre, halfOf_toByte, hn]
    split_ifs <;> omega
  refine ⟨b₀ :: b₁ :: n :: type :: (packed ds ++ [x, y, z]), text, n, hn, hpre, ?_⟩
  rw [getSMSDeliverPdu, hdate]
  simp only [ok_bind, encodeTime_text hoffset, extractDigits_eq, hsel, Option.elim_some, hpdu,
    hbyte, if_neg hlength, sub_add_cancel, haddress, length_digitsText]

/-- With few digits the text is that of the PDU for sending, with some more there is a longer one,
and with others the code reads in front of the PDU for sending. -/
theorem getSMSDeliverPdu_eq (hsubmit : Submits env.getSubmitPdu)
    (hdate : longValueOf dateTime = .ok millis)
    (hoffset : (env.format3339 millis).offset = some (negative, hours, minutes))
    (hsel : selected (utf8 address) address = some ds) (hds : ds.length ≤ 255)
    (hbody : smsBody.length ≤ 255) :
    if ds.length ≤ 127 ∨ 241 ≤ ds.length then
      ∃ text, getSMSDeliverPdu env smsBody dateTime address =
        .ok (toUpperCase (hexText (octetsOf ds ((env.format3339 millis).octets
          (Rfc3339.quarters negative hours minutes)) smsBody text)))
    else getSMSDeliverPdu env smsBody dateTime address = .error .indexOutOfBounds := by
  obtain ⟨pre, text, n, hn, hpre, heq⟩ :=
    getSMSDeliverPdu_steps smsBody hsubmit hdate hoffset hsel hds
  have hstart := halfOf_toByte n
  rw [hn] at hstart
  have hlen : (pre ++ text).length = pre.length + text.length := List.length_append
  split_ifs with hcount
  · obtain ⟨i, hi, hle⟩ : ∃ i : ℕ, 7 + halfOf (Msm8909w.toByte n) = i ∧
        i ≤ (pre ++ text).length := by
      refine ⟨(7 + halfOf (Msm8909w.toByte n)).toNat, ?_, ?_⟩ <;> rw [hstart] <;> split_ifs <;>
        omega
    have hrange : hexRange (pre ++ text) (7 + halfOf (Msm8909w.toByte n)) (pre ++ text).length =
        .ok (hexText ((pre ++ text).drop i)) := by
      rw [hi, ← hexRange_drop hle, sub_add_cancel]
    refine ⟨(pre ++ text).drop i, ?_⟩
    rw [heq, hrange, ok_bind, hexText_octetsOf (by omega) (by omega)]
    rfl
  · have hneg : 7 + halfOf (Msm8909w.toByte n) < 0 := by
      rw [hstart]
      split_ifs <;> omega
    rw [heq, hexRange_of_neg hneg (hneg.trans_le (by omega)), error_bind]

theorem exists_of_getSMSDeliverPdu {pdu : JString}
    (h : getSMSDeliverPdu env smsBody dateTime address = .ok pdu) :
    ∃ millis encodedTimeStr strAddress, longValueOf dateTime = .ok millis ∧
      encodeTime (env.format3339 millis).text = .ok encodedTimeStr ∧
      extractDigits address = .ok strAddress := by
  rw [getSMSDeliverPdu] at h
  obtain ⟨millis, hdate, h⟩ := bind_eq_ok.1 h
  obtain ⟨encodedTimeStr, htime, h⟩ := bind_eq_ok.1 h
  obtain ⟨strAddress, haddress, h⟩ := bind_eq_ok.1 h
  exact ⟨millis, encodedTimeStr, strAddress, hdate, htime, haddress⟩

/-- The octets of the PDU have the right number of digits and the right digits only if these are the
digits of the address. -/
theorem eq_asciiDigits {time text time' text' : Bytes} {n m : UInt8} (hds : ∀ d ∈ ds, d < 10)
    (hlen : ds.length ≤ 255) (hn : n.toNat = (asciiDigits address).length)
    (h : octetsOf ds time smsBody text = header ++ (n :: 0x81 :: (packed (asciiDigits address) ++
      (0 :: 0 :: (time' ++ m :: text'))))) :
    ds = asciiDigits address := by
  have hrest := List.append_cancel_left h
  obtain ⟨hcount, hrest⟩ := List.cons.inj hrest
  have hlength : ds.length = (asciiDigits address).length := by
    rw [← hn, ← hcount, UInt8.toNat_ofNat']
    omega
  have hpacked := List.append_inj (List.cons.inj hrest).2
    (by rw [length_packed, length_packed, hlength])
  exact packed_inj hds asciiDigits_lt hlength hpacked.1

theorem deliverable_of_delivers (hsubmit : Submits env.getSubmitPdu)
    (hdate : longValueOf dateTime = .ok millis) (h : Delivers env smsBody dateTime address) :
    Deliverable smsBody address (env.format3339 millis) := by
  obtain ⟨pdu, bytes, hpdu, hbytes, n, m, time, text, rfl, -, hn, hm⟩ := h
  have hlt := n.toNat_lt
  have hbody : smsBody.length ≤ 255 := by
    have hlt := m.toNat_lt
    omega
  obtain ⟨millis', encodedTimeStr, strAddress, hdate', htime, haddress⟩ :=
    exists_of_getSMSDeliverPdu hpdu
  obtain rfl := Except.ok.inj (hdate.symm.trans hdate')
  have hoffset : (env.format3339 millis).offset ≠ none := by
    intro hnone
    rw [encodeTime_of_none hnone] at htime
    cases htime
  obtain ⟨⟨negative, hours, minutes⟩, hsome⟩ := Option.ne_none_iff_exists'.1 hoffset
  obtain ⟨ds, hsel, rfl⟩ := extractDigits_eq_ok_iff.1 haddress
  have hle := (selects address address).length_le ds hsel
  have heq := getSMSDeliverPdu_eq hsubmit hdate hsome hsel (by omega) hbody
  split_ifs at heq with hcount
  · obtain ⟨text', heq⟩ := heq
    obtain rfl := Except.ok.inj (heq.symm.trans hpdu)
    rw [hexStringToByteArray_hexText] at hbytes
    have hdigits := eq_asciiDigits (selected_lt hsel) (by omega) hn (Except.ok.inj hbytes)
    refine ⟨hbody, hoffset, (selects address address).iff_answers.1 (hdigits ▸ hsel), ?_⟩
    rw [← hdigits]
    omega
  · rw [heq] at hpdu
    cases hpdu

theorem delivers_of_deliverable (hsubmit : Submits env.getSubmitPdu)
    (hdate : longValueOf dateTime = .ok millis)
    (h : Deliverable smsBody address (env.format3339 millis)) :
    Delivers env smsBody dateTime address := by
  obtain ⟨hbody, hoffset, hdigits, hcount⟩ := h
  obtain ⟨⟨negative, hours, minutes⟩, hsome⟩ := Option.ne_none_iff_exists'.1 hoffset
  have hsel := (selects address address).iff_answers.2 hdigits
  have heq := getSMSDeliverPdu_eq hsubmit hdate hsome hsel (by omega) hbody
  rw [if_pos (by omega)] at heq
  obtain ⟨text, heq⟩ := heq
  refine ⟨_, _, heq, hexStringToByteArray_hexText _, _, _, _, text, rfl, rfl, ?_, ?_⟩ <;>
    rw [UInt8.toNat_ofNat'] <;> omega

/-- **For which inputs the PDU is as it is meant to be.** -/
theorem delivers_iff (hsubmit : Submits env.getSubmitPdu)
    (hdate : longValueOf dateTime = .ok millis) :
    Delivers env smsBody dateTime address ↔
      Deliverable smsBody address (env.format3339 millis) :=
  ⟨deliverable_of_delivers hsubmit hdate, delivers_of_deliverable hsubmit hdate⟩

/-! ### Samples -/

/-- The digits of an ASCII address are taken. -/
theorem answers_of_ascii (h : Ascii address) : Answers address address := by
  intro j c d hj hd
  have hindex : byteIndex address j = j := by
    have hlt := (List.getElem?_eq_some_iff.1 hj).1
    rw [byteIndex, (length_utf8 _).2.2 (narrow_of_ascii fun c hc => h c (List.mem_of_mem_take hc)),
      List.length_take, min_eq_left hlt.le]
  refine ⟨c, by rw [hindex, hj], ?_⟩
  rw [asciiDigit] at hd
  split at hd
  next hrange =>
    have hc : UInt16.ofNat (48 + (c.toNat - 48)) = c := by
      rw [Nat.add_sub_cancel' hrange.1, UInt16.ofNat_toNat]
    cases hd
    rw [← hc, digit_ofNat (by omega), hc]
  · cases hd

/-- Characters of seven bits in octets. -/
def septets (smsBody : JString) : Bytes :=
  toLE ((7 * smsBody.length + 7) / 8) (smsBody.foldr (fun c v => c.toNat % 128 + 128 * v) 0)

/-- The PDU for sending an ASCII text. -/
def samplePdu (strAddress smsBody : JString) : Bytes :=
  1 :: 0 :: UInt8.ofNat strAddress.length :: 0x81 ::
    (packed (strAddress.map fun c => c.toNat - 48) ++ 0 :: 0 :: UInt8.ofNat smsBody.length ::
      septets smsBody)

theorem submits_samplePdu : Submits samplePdu := by
  intro ds smsBody hds hlen
  have hmap : (digitsText ds).map (fun c => c.toNat - 48) = ds := by
    rw [digitsText, List.map_map]
    refine (List.map_congr_left fun d hd => ?_).trans (List.map_id ds)
    have hlt := hds d hd
    show (UInt16.ofNat (48 + d)).toNat - 48 = d
    rw [UInt16.toNat_ofNat']
    omega
  refine ⟨_, _, _, _, _, _, _, _, by rw [samplePdu, hmap], ?_⟩
  rw [length_digitsText, UInt8.toNat_ofNat']
  omega

/-- A device in the time zone with the given offset. -/
def sampleEnv (offset : Option (Bool × Fin 24 × Fin 60)) : Env where
  format3339 _ := ⟨2013, 4, 9, 23, 5, 17, [0, 0, 0], offset⟩
  getSubmitPdu := samplePdu

theorem delivers_sampleEnv : Delivers (sampleEnv (some (true, 7, 30))) (js "hi")
    (js "1365541517000") (js "+1 650") :=
  (delivers_iff submits_samplePdu rfl).2 ⟨by decide, by decide,
    answers_of_ascii (by decide), by decide⟩

/-- In UTC there is no PDU, and a letter with an accent hides a digit. -/
theorem not_delivers_sampleEnv :
    ¬ Delivers (sampleEnv none) (js "hi") (js "1365541517000") (js "+1 650") ∧
      ¬ Delivers (sampleEnv (some (true, 7, 30))) (js "hi") (js "1365541517000")
        [0xE9, 0x31, 0x32] := by
  constructor
  · exact fun h => (deliverable_of_delivers submits_samplePdu rfl h).offset rfl
  · intro h
    obtain ⟨c, hc, hvalue⟩ :=
      (deliverable_of_delivers submits_samplePdu rfl h).digits 1 0x31 1 rfl rfl
    have hindex : byteIndex [0xE9, 0x31, 0x32] 1 = 2 := by decide
    rw [hindex] at hc
    obtain rfl := Option.some.inj hc
    exact absurd hvalue (by decide)

end Pdu

end DeliverPdu

end Map

end Msm8909w

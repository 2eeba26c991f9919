import Msm8909w.Lib.Numerals
import Msm8909w.Softap.Config

/-!
# MAC addresses as text and as bytes (`qsap_api.c`)

`isValid_MAC_address` looks at the first seventeen characters of a text: six pairs of hexadecimal
digits with colons between them.  `qsap_get_mac_in_bytes` writes a byte for a pair, but it goes on
to the end of the text, in steps of three characters, so that more than six bytes are written for a
longer text.

* `exists_pairs` : the pairs of digits of an address,
* `macBytes_pairs`, `hexByte_macByte` : their bytes, and the bytes as text,
* `macRoundTrip_iff` : the texts for which there are six bytes, that give the address back.
-/

namespace Msm8909w

namespace Softap

/-- `':'`. -/
def colon : UInt8 := 58

/-- `' '`. -/
def space : UInt8 := 32

/-- `MAC_ADDR_LEN`. -/
def macAddrLen : ℕ := 17

/-- `isValid_MAC_address`. -/
def isValidMacAddress (pMac : Bytes) : Bool :=
  macAddrLen ≤ pMac.length && (List.range macAddrLen).all fun i =>
    if i ∈ [2, 5, 8, 11, 14] then pMac.getD i 0 == colon else isXDigit (pMac.getD i 0)

/-- The loop of `atoh`, from the last character to the first. -/
def atohLoop : Bytes → ℕ → ℕ → ℕ
  | [], _, val => val
  | c :: cs, pos, val =>
    atohLoop cs (pos + 4) ((val + if isXDigit c then digitValue c <<< pos else 0) % 2 ^ 32)

/-- `atoh`. -/
def atoh (str : Bytes) : ℕ := atohLoop str.reverse 0 0

/-- The byte for two characters; there is a NUL behind the last character of the text. -/
def macByte (c d : UInt8) : UInt8 := UInt8.ofNat (atoh (cstr [c, d]))

/-- The loop of `qsap_get_mac_in_bytes`: what is written for the rest of the text. -/
def macBytes : Bytes → Bytes
  | [] => []
  | [c] => if c = colon then [] else [macByte c 0]
  | [c, d] => if c = colon then macBytes [d] else [macByte c d]
  | c :: d :: e :: s => if c = colon then macBytes (d :: e :: s) else macByte c d :: macBytes s

/-- `qsap_get_mac_in_bytes`: all that is written to the buffer, if the text is valid. -/
def getMacInBytes (psmac : Bytes) : Option Bytes :=
  if isValidMacAddress psmac then some (macBytes psmac ++ [0]) else none

/-- An upper-case hexadecimal digit. -/
def hexDigit (n : ℕ) : UInt8 := UInt8.ofNat (if n < 10 then 48 + n else 55 + n)

/-- `"%.2X"`. -/
def hexByte (b : UInt8) : Bytes := [hexDigit (b.toNat / 16), hexDigit (b.toNat % 16)]

/-- `"%.2X:%.2X:%.2X:%.2X:%.2X:%.2X "`. -/
def macText (pmac : Bytes) : Bytes :=
  hexByte (pmac.getD 0 0) ++ [colon] ++ hexByte (pmac.getD 1 0) ++ [colon] ++
    hexByte (pmac.getD 2 0) ++ [colon] ++ hexByte (pmac.getD 3 0) ++ [colon] ++
    hexByte (pmac.getD 4 0) ++ [colon] ++ hexByte (pmac.getD 5 0) ++ [space]

/-- The loop of `qsap_mac_to_macstr`, for at most `fuel` addresses: what it prints. -/
def macstrLoop : ℕ → Bytes → ℕ → ℕ → Bytes
  | 0, _, _, _ => []
  | fuel + 1, pmac, slen, plen =>
    if 0 < slen ∧ 0 < plen then
      let text := scnprintf plen (macText pmac)
      text ++ macstrLoop fuel (pmac.drop 6) (slen - 6) (plen - text.length)
    else []

/-- `qsap_mac_to_macstr`, for `slen` bytes, a multiple of six: the blank at the end is dropped. -/
def macToMacstr (pmac : Bytes) (slen plen : ℕ) : Bytes := (macstrLoop slen pmac slen plen).dropLast

/-- `toupper`. -/
def toUpper (c : UInt8) : UInt8 := if 97 ≤ c ∧ c ≤ 122 then c - 32 else c

/-- Six bytes and a zero are written for the text, and the six bytes give its address back, in upper
case. -/
def MacRoundTrip (psmac : Bytes) : Prop :=
  ∃ pbmac : Bytes, pbmac.length = 6 ∧ getMacInBytes psmac = some (pbmac ++ [0]) ∧
    ∀ plen, 18 < plen → macToMacstr pbmac 6 plen = (psmac.take macAddrLen).map toUpper

/-! ### Digits -/

section

variable {c d : UInt8}

theorem hexDigit_digitValue (h : isXDigit c) : hexDigit (digitValue c) = toUpper c := by
  have hall : ∀ n < 256, isXDigit (UInt8.ofNat n) →
      hexDigit (digitValue (UInt8.ofNat n)) = toUpper (UInt8.ofNat n) := by decide +kernel
  have hc := hall c.toNat c.toNat_lt
  rw [UInt8.ofNat_toNat] at hc
  exact hc h

/-- Two digits are a number below 256. -/
theorem toNat_macByte (hc : isXDigit c) (hd : isXDigit d) :
    (macByte c d).toNat = 16 * digitValue c + digitValue d := by
  have hc16 : digitValue c < 16 := of_decide_eq_true hc
  have hd16 : digitValue d < 16 := of_decide_eq_true hd
  have hstr : cstr [c, d] = [c, d] := by
    refine cstr_eq_self ?_
    rw [List.mem_pair, not_or]
    exact ⟨(ne_of_isXDigit hc (by decide)).symm, (ne_of_isXDigit hd (by decide)).symm⟩
  have hshift : digitValue c <<< 4 = 16 * digitValue c := by
    rw [Nat.shiftLeft_eq, Nat.mul_comm]
  rw [macByte, hstr, atoh, UInt8.toNat_ofNat']
  change atohLoop [d, c] 0 0 % 2 ^ 8 = _
  simp only [atohLoop, if_pos hc, if_pos hd, Nat.shiftLeft_zero, Nat.zero_add, hshift]
  omega

theorem hexByte_macByte (hc : isXDigit c) (hd : isXDigit d) :
    hexByte (macByte c d) = [toUpper c, toUpper d] := by
  have hd16 : digitValue d < 16 := of_decide_eq_true hd
  have hdiv : (16 * digitValue c + digitValue d) / 16 = digitValue c := by omega
  have hmod : (16 * digitValue c + digitValue d) % 16 = digitValue d := by omega
  rw [hexByte, toNat_macByte hc hd, hdiv, hmod, hexDigit_digitValue hc, hexDigit_digitValue hd]

end

/-! ### Pairs of digits -/

/-- Pairs with colons between them. -/
def pairsText : List (UInt8 × UInt8) → Bytes
  | [] => []
  | [p] => [p.1, p.2]
  | p :: q :: ps => p.1 :: p.2 :: colon :: pairsText (q :: ps)

/-- Both characters are digits. -/
def IsPair (p : UInt8 × UInt8) : Prop := isXDigit p.1 ∧ isXDigit p.2

section

variable {ps : List (UInt8 × UInt8)} {s : Bytes}

/-- A text with a colon at each third position and digits elsewhere begins with pairs. -/
theorem exists_pairs {n : ℕ} (hlen : 3 * n + 2 ≤ s.length)
    (hchar : ∀ i < 3 * n + 2,
      if i % 3 = 2 then s.getD i 0 = colon else isXDigit (s.getD i 0) = true) :
    ∃ ps rest, ps.length = n + 1 ∧ (∀ p ∈ ps, IsPair p) ∧ s = pairsText ps ++ rest := by
  induction n generalizing s with
  | zero =>
    rcases s with _ | ⟨c, _ | ⟨d, s⟩⟩
    · exact absurd hlen (by simp)
    · exact absurd hlen (by simp)
    · refine ⟨[(c, d)], s, rfl, List.forall_mem_singleton.2 ⟨?_, ?_⟩, rfl⟩
      · simpa using hchar 0 (by decide)
      · simpa using hchar 1 (by decide)
  | succ n ih =>
    rcases s with _ | ⟨c, _ | ⟨d, _ | ⟨e, s⟩⟩⟩
    · exact absurd hlen (by simp)
    · exact absurd hlen (by simp)
    · exact absurd hlen (by simp)
    · have hrest : 3 * n + 2 ≤ s.length := by
        simp only [List.length_cons] at hlen
        omega
      obtain ⟨ps, rest, hps, hpair, rfl⟩ := ih hrest fun i hi => by
        have hi := hchar (i + 3) (by omega)
        rwa [Nat.add_mod_right] at hi
      have he : e = colon := by simpa using hchar 2 (by omega)
      cases ps with
      | nil => cases hps
      | cons p ps =>
        refine ⟨(c, d) :: p :: ps, rest, by rw [List.length_cons, hps],
          List.forall_mem_cons.2 ⟨⟨?_, ?_⟩, hpair⟩, ?_⟩
        · simpa using hchar 0 (by omega)
        · simpa using hchar 1 (by omega)
        · rw [he]
          rfl

/-- An address is six pairs. -/
theorem pairs_of_isValid (h : isValidMacAddress s = true) :
    ∃ ps rest, ps.length = 6 ∧ (∀ p ∈ ps, IsPair p) ∧ s = pairsText ps ++ rest := by
  rw [isValidMacAddress, Bool.and_eq_true, decide_eq_true_eq, List.all_eq_true] at h
  obtain ⟨hlen, hall⟩ := h
  have hcolon : ∀ i < 17, i % 3 = 2 ↔ i ∈ [2, 5, 8, 11, 14] := by decide
  refine @exists_pairs s 5 hlen fun i hi => ?_
  have hchar := hall i (List.mem_range.2 hi)
  split_ifs with hmod
  · rw [if_pos ((hcolon i hi).1 hmod)] at hchar
    exact eq_of_beq hchar
  · rwa [if_neg (mt (hcolon i hi).2 hmod)] at hchar

theorem length_pairsText (ps : List (UInt8 × UInt8)) :
    (pairsText ps).length = 3 * ps.length - 1 := by
  induction ps with
  | nil => rfl
  | cons p ps ih =>
    cases ps with
    | nil => rfl
    | cons q ps =>
      simp only [pairsText, List.length_cons] at ih ⊢
      omega

theorem mem_pairsText {c : UInt8} (hpair : ∀ p ∈ ps, IsPair p) (hc : c ∈ pairsText ps) :
    isXDigit c = true ∨ c = colon := by
  induction ps with
  | nil => cases hc
  | cons p ps ih =>
    obtain ⟨⟨h₁, h₂⟩, hps⟩ := List.forall_mem_cons.1 hpair
    cases ps with
    | nil =>
      rcases List.mem_pair.1 hc with rfl | rfl
      · exact .inl h₁
      · exact .inl h₂
    | cons q ps =>
      rw [pairsText, List.mem_cons, List.mem_cons, List.mem_cons] at hc
      rcases hc with rfl | rfl | rfl | hc
      · exact .inl h₁
      · exact .inl h₂
      · exact .inr rfl
      · exact ih hps hc

/-! ### The bytes of an address -/

/-- One round of the loop: a colon is skipped, two characters are a byte and a third one is not
looked at. -/
theorem macBytes_cons (c : UInt8) (s : Bytes) :
    macBytes (c :: s) =
      if c = colon then macBytes s else macByte c (s.headD 0) :: macBytes (s.drop 2) := by
  rcases s with _ | ⟨d, _ | ⟨e, s⟩⟩ <;> rfl

theorem macBytes_eq_nil_iff : macBytes s = [] ↔ ∀ c ∈ s, c = colon := by
  induction s with
  | nil => exact ⟨fun _ c hc => absurd hc List.not_mem_nil, fun _ => rfl⟩
  | cons c s ih =>
    rw [macBytes_cons, List.forall_mem_cons]
    split_ifs with hc
    · rw [ih]
      exact ⟨fun hs => ⟨hc, hs⟩, fun hs => hs.2⟩
    · exact ⟨fun h => h.elim, fun h => absurd h.1 hc⟩

/-- The bytes of pairs; the character behind the last one is not looked at. -/
theorem macBytes_pairs (hps : ps ≠ []) (hpair : ∀ p ∈ ps, IsPair p) (rest : Bytes) :
    macBytes (pairsText ps ++ rest) =
      ps.map (fun p => macByte p.1 p.2) ++ macBytes (rest.drop 1) := by
  have hcolon : ∀ {p}, IsPair p → p.1 ≠ colon := by
    rintro p ⟨hp, -⟩ heq
    rw [heq] at hp
    exact absurd hp (by decide)
  induction ps with
  | nil => exact absurd rfl hps
  | cons p ps ih =>
    have hp := hcolon (hpair p List.mem_cons_self)
    cases ps with
    | nil =>
      change macBytes (p.1 :: p.2 :: rest) = _
      rw [macBytes_cons, if_neg hp]
      cases rest <;> rfl
    | cons q ps =>
      change macBytes (p.1 :: p.2 :: colon :: (pairsText (q :: ps) ++ rest)) = _
      rw [macBytes_cons, if_neg hp]
      change _ :: macBytes (pairsText (q :: ps) ++ rest) = _
      rw [ih (List.cons_ne_nil _ _) fun p' hp' => hpair p' (List.mem_cons_of_mem _ hp')]
      rfl

/-- The bytes of six pairs are printed as the pairs. -/
theorem macText_pairs (hlen : ps.length = 6) (hpair : ∀ p ∈ ps, IsPair p) :
    macText (ps.map fun p => macByte p.1 p.2) = (pairsText ps).map toUpper ++ [space] := by
  have hsix : ∃ a b c d e f, ps = [a, b, c, d, e, f] := by
    rcases ps with _ | ⟨a, _ | ⟨b, _ | ⟨c, _ | ⟨d, _ | ⟨e, _ | ⟨f, ps⟩⟩⟩⟩⟩⟩
    all_goals simp at hlen
    exact ⟨a, b, c, d, e, f, by rw [hlen]⟩
  obtain ⟨a, b, c, d, e, f, rfl⟩ := hsix
  have hbyte : ∀ p ∈ [a, b, c, d, e, f], hexByte (macByte p.1 p.2) = [toUpper p.1, toUpper p.2] :=
    fun p hp => hexByte_macByte (hpair p hp).1 (hpair p hp).2
  simp only [List.forall_mem_cons] at hbyte
  obtain ⟨ha, hb, hc, hd, he, hf, -⟩ := hbyte
  change hexByte (macByte a.1 a.2) ++ [colon] ++ hexByte (macByte b.1 b.2) ++ [colon] ++
    hexByte (macByte c.1 c.2) ++ [colon] ++ hexByte (macByte d.1 d.2) ++ [colon] ++
    hexByte (macByte e.1 e.2) ++ [colon] ++ hexByte (macByte f.1 f.2) ++ [space] = _
  rw [ha, hb, hc, hd, he, hf]
  rfl

/-- One address, in a buffer that is large enough. -/
theorem macToMacstr_six {pmac text : Bytes} {plen : ℕ} (h : macText pmac = text ++ [space])
    (hplen : text.length + 1 < plen) : macToMacstr pmac 6 plen = text := by
  have hprint : scnprintf plen (macText pmac) = text ++ [space] := by
    rw [h, scnprintf, List.take_of_length_le]
    rw [List.length_append, List.length_singleton]
    omega
  have hpos : 0 < 6 ∧ 0 < plen := ⟨by decide, by omega⟩
  have hend : macstrLoop 5 (pmac.drop 6) 0 (plen - (text ++ [space]).length) = [] :=
    if_neg fun h => Nat.lt_irrefl 0 h.1
  rw [macToMacstr, macstrLoop, if_pos hpos, hprint]
  change (text ++ [space] ++ macstrLoop 5 (pmac.drop 6) 0 _).dropLast = text
  rw [hend, List.append_nil, List.dropLast_concat]

/-- **From text to bytes and back**: there are six bytes, which give the address back, if and only
if nothing but colons follows the eighteenth character. -/
theorem macRoundTrip_iff {psmac : Bytes} (hvalid : isValidMacAddress psmac = true) :
    MacRoundTrip psmac ↔ ∀ c ∈ psmac.drop 18, c = colon := by
  obtain ⟨ps, rest, hlen, hpair, rfl⟩ := pairs_of_isValid hvalid
  have htext : (pairsText ps).length = 17 := by rw [length_pairsText, hlen]
  have hne : ps ≠ [] := by
    rintro rfl
    cases hlen
  have hdrop : (pairsText ps ++ rest).drop 18 = rest.drop 1 := by
    rw [List.drop_append, htext, List.drop_of_length_le (by omega), List.nil_append]
  have hbytes : getMacInBytes (pairsText ps ++ rest) =
      some (ps.map (fun p => macByte p.1 p.2) ++ macBytes (rest.drop 1) ++ [0]) := by
    rw [getMacInBytes, if_pos hvalid, macBytes_pairs hne hpair]
  rw [hdrop, ← macBytes_eq_nil_iff, MacRoundTrip, hbytes]
  constructor
  · rintro ⟨pbmac, hsix, heq, -⟩
    have hlength := congrArg List.length (Option.some.inj heq)
    simp only [List.length_append, List.length_map, List.length_singleton, hlen, hsix] at hlength
    exact List.length_eq_zero_iff.1 (by omega)
  · intro hnil
    refine ⟨ps.map fun p => macByte p.1 p.2, by rw [List.length_map, hlen],
      by rw [hnil, List.append_nil], fun plen hplen => ?_⟩
    have htake : (pairsText ps ++ rest).take macAddrLen = pairsText ps := by
      rw [macAddrLen, ← htext, List.take_left]
    rw [htake]
    refine macToMacstr_six (macText_pairs hlen hpair) ?_
    rw [List.length_map, htext]
    exact hplen

/-- A plain address. -/
theorem macRoundTrip_iff_plain : MacRoundTrip (ascii "00:1a:Fb:33:44:55") :=
  (macRoundTrip_iff (by decide +kernel)).2 (by decide +kernel)

/-- A seventh byte is written for a text that goes on behind the address. -/
theorem seventh_byte_written :
    isValidMacAddress (ascii "00:11:22:33:44:55 66:77") = true ∧
      ¬ MacRoundTrip (ascii "00:11:22:33:44:55 66:77") := by
  refine ⟨by decide +kernel, ?_⟩
  rintro ⟨pbmac, hsix, heq, -⟩
  have hlength : ((getMacInBytes (ascii "00:11:22:33:44:55 66:77")).getD []).length = 9 := by
    decide +kernel
  rw [heq, Option.getD_some, List.length_append, hsix] at hlength
  cases hlength

end

end Softap

end Msm8909w

import Mathlib.Tactic.NormNum
import Msm8909w.Ftp.FtpObexServer
import Msm8909w.Lib.Bytes
import Msm8909w.Lib.Loop

/-!
# The contents of a file on their way to the client

The loop of `sendFileContents` of `BluetoothFtpObexServer.java` keeps its position in an `int` and
compares it with the length of the file, which is a `long`.  A position from `2 ^ 31` on is negative
and never gets to the length: the loop goes on at the end of the file, where the read returns `-1`,
and `-1` is the count that `write` is called with.

* `sendTurn`, `Sends` : the code, without an abort,
* `sendTurn_cases` : what a turn does,
* `sends_all` : how each transfer ends,
* `exact_iff_lt` : a transfer is exact if and only if the file has fewer than `2 ^ 31` bytes.

`javax.obex` is outside; it may refuse the `LENGTH` header.
-/

namespace Msm8909w

namespace Ftp

open Map (Exn)

/-- An `int`. -/
def toInt (x : ℤ) : ℤ := Int.bmod x (2 ^ 32)

theorem toInt_eq {x : ℤ} (hle : -2 ^ 31 ≤ x) (hlt : x < 2 ^ 31) : toInt x = x := by
  refine Int.bmod_eq_of_le ?_ ?_
  · norm_num
    omega
  · norm_num
    omega

theorem toInt_lt (x : ℤ) : toInt x < 2 ^ 31 := by
  have h := Int.bmod_lt (x := x) (m := 2 ^ 32) (by decide)
  rw [toInt]
  norm_num at h ⊢
  omega

theorem toInt_add (x y : ℤ) : toInt (toInt x + y) = toInt (x + y) := Int.bmod_add_bmod

/-! ### The code -/

/-- A file, and how it is read and sent. -/
structure Download where
  contents : Bytes
  /-- `op.getMaxPacketSize`. -/
  maxPacketSize : ℤ
  /-- The number of bytes that each read comes back with, if so many are asked for and there. -/
  reads : ℕ → ℤ
  one_le : 1 ≤ maxPacketSize
  lt : maxPacketSize < 2 ^ 31

/-- The variables of the loop: `offset` is the place in the file, `stream` what has been written and
`counts` with which counts. -/
structure Sending where
  position : ℤ := 0
  outputBufferSize : ℤ
  offset : ℕ := 0
  turns : ℕ := 0
  stream : Bytes := []
  counts : List ℤ := []

/-- How a transfer ends. -/
structure Sent where
  stream : Bytes
  counts : List ℤ
  response : Except Exn Response

namespace Download

variable (d : Download)

/-- `fileinfo.length()`. -/
def filelength : ℤ := d.contents.length

/-- `bis.read(buffer, 0, size)`. -/
def read (s : Sending) (size : ℤ) : Except Exn ℤ :=
  if size < 0 then .error .indexOutOfBounds
  else if size = 0 then .ok 0
  else if d.filelength ≤ s.offset then .ok (-1)
  else .ok (max 1 (min (d.reads s.turns) (min size (d.filelength - s.offset))))

/-- One turn of the loop of `sendFileContents`. -/
def sendTurn (s : Sending) : Sending ⊕ Sent :=
  if s.position = d.filelength then .inr ⟨s.stream, s.counts, .ok .OBEX_HTTP_OK⟩
  else
    let readbytesleft := d.filelength - s.position
    let outputBufferSize :=
      if readbytesleft < s.outputBufferSize then toInt readbytesleft else s.outputBufferSize
    match d.read s outputBufferSize with
    | .error e => .inr ⟨s.stream, s.counts, .error e⟩
    | .ok readLength =>
      -- `write` refuses a negative count
      if readLength < 0 then
        .inr ⟨s.stream, s.counts ++ [readLength], .error .indexOutOfBounds⟩
      else .inl
        { position := toInt (s.position + readLength)
          outputBufferSize := outputBufferSize
          offset := s.offset + readLength.toNat
          turns := s.turns + 1
          stream := s.stream ++ slice d.contents s.offset readLength.toNat
          counts := s.counts ++ [readLength] }

/-- `sendFileContents`, behind the opening of the file. -/
def Sends (lengthHeader : ℤ → Except Exn Unit) (r : Sent) : Prop :=
  match lengthHeader d.filelength with
  | .error e => r = ⟨[], [], .error e⟩
  | .ok () => Ends d.sendTurn { outputBufferSize := d.maxPacketSize } r

/-- The transfer ends with `OBEX_HTTP_OK`, and the bytes of the file have been written in order,
with no negative count. -/
def Exact (lengthHeader : ℤ → Except Exn Unit) : Prop :=
  ∃ r, d.Sends lengthHeader r ∧ r.stream = d.contents ∧ (∀ n ∈ r.counts, 0 ≤ n) ∧
    r.response = .ok .OBEX_HTTP_OK

variable {d}

/-! ### The loop -/

/-- What holds before each turn. -/
structure Inv (d : Download) (s : Sending) : Prop where
  position : s.position = toInt s.offset
  offset_le : s.offset ≤ d.contents.length
  one_le : 1 ≤ s.outputBufferSize
  lt : s.outputBufferSize < 2 ^ 31
  stream : s.stream = d.contents.take s.offset
  counts : ∀ n ∈ s.counts, 0 ≤ n

theorem inv_start : d.Inv { outputBufferSize := d.maxPacketSize } where
  position := (toInt_eq (by norm_num) (by norm_num)).symm
  offset_le := Nat.zero_le _
  one_le := d.one_le
  lt := d.lt
  stream := (List.take_zero).symm
  counts := nofun

/-- The position is the length at the end of a file of fewer than `2 ^ 31` bytes only. -/
theorem Inv.position_eq_iff {s : Sending} (h : d.Inv s) :
    s.position = d.filelength ↔ s.offset = d.contents.length ∧ d.contents.length < 2 ^ 31 := by
  have hle := h.offset_le
  rw [h.position, filelength]
  constructor
  · intro heq
    have hlt : (d.contents.length : ℤ) < 2 ^ 31 := heq ▸ toInt_lt _
    rw [toInt_eq (by omega) (by omega)] at heq
    omega
  · rintro ⟨heq, hlt⟩
    rw [heq, toInt_eq (by omega) (by omega)]

/-- The size that is asked for. -/
theorem Inv.size {s : Sending} (h : d.Inv s) (hne : s.position ≠ d.filelength) :
    1 ≤ (if d.filelength - s.position < s.outputBufferSize then
      toInt (d.filelength - s.position) else s.outputBufferSize) ∧
    (if d.filelength - s.position < s.outputBufferSize then
      toInt (d.filelength - s.position) else s.outputBufferSize) < 2 ^ 31 := by
  have hlt := h.lt
  have hone := h.one_le
  split_ifs with hleft
  · have hpos : s.position ≤ d.filelength := by
      have hle := h.offset_le
      rw [h.position, filelength]
      rcases lt_or_ge (s.offset : ℤ) (2 ^ 31) with hsmall | hbig
      · rw [toInt_eq (by omega) hsmall]
        omega
      · have := toInt_lt s.offset
        omega
    rw [toInt_eq (by omega) (by omega)]
    omega
  · exact ⟨hone, hlt⟩

/-- One turn: the loop ends at the length, ends with the count `-1` at the end of the file, or moves
on in the file. -/
theorem sendTurn_cases {s : Sending} (h : d.Inv s) :
    (s.offset = d.contents.length ∧ d.contents.length < 2 ^ 31 ∧
      d.sendTurn s = .inr ⟨s.stream, s.counts, .ok .OBEX_HTTP_OK⟩) ∨
    (s.offset = d.contents.length ∧ 2 ^ 31 ≤ d.contents.length ∧
      d.sendTurn s = .inr ⟨s.stream, s.counts ++ [-1], .error .indexOutOfBounds⟩) ∨
    ∃ t, d.sendTurn s = .inl t ∧ d.Inv t ∧ s.offset < t.offset := by
  by_cases hend : s.position = d.filelength
  · obtain ⟨hoffset, hlt⟩ := h.position_eq_iff.1 hend
    exact .inl ⟨hoffset, hlt, if_pos hend⟩
  obtain ⟨hone, hlt⟩ := h.size hend
  rw [sendTurn, if_neg hend]
  dsimp only
  generalize hsize : (if d.filelength - s.position < s.outputBufferSize then
    toInt (d.filelength - s.position) else s.outputBufferSize) = size at hone hlt ⊢
  have hle := h.offset_le
  rw [read, if_neg (by omega), if_neg (by omega)]
  by_cases hpast : d.filelength ≤ s.offset
  -- nothing is left in the file
  · have hoffset : s.offset = d.contents.length := by
      rw [filelength] at hpast
      omega
    have hbig : 2 ^ 31 ≤ d.contents.length := by
      by_contra hsmall
      exact hend (h.position_eq_iff.2 ⟨hoffset, by omega⟩)
    rw [if_pos hpast]
    exact .inr (.inl ⟨hoffset, hbig, rfl⟩)
  -- the read comes back with at least one byte
  · rw [if_neg hpast]
    rw [filelength] at hpast ⊢
    generalize hread : max 1 (min (d.reads s.turns) (min size (d.contents.length - s.offset))) = n
    have hn : 1 ≤ n ∧ n ≤ d.contents.length - s.offset := by omega
    refine .inr (.inr ⟨_, if_neg (by omega), ?_, ?_⟩)
    · refine ⟨?_, ?_, hone, hlt, ?_, ?_⟩
      · show toInt (s.position + n) = toInt ((s.offset + n.toNat : ℕ) : ℤ)
        rw [h.position, toInt_add, Nat.cast_add, Int.toNat_of_nonneg (by omega)]
      · show s.offset + n.toNat ≤ d.contents.length
        omega
      · show s.stream ++ slice d.contents s.offset n.toNat = d.contents.take (s.offset + n.toNat)
        rw [h.stream, slice, List.take_add]
      · show ∀ k ∈ s.counts ++ [n], 0 ≤ k
        intro k hk
        rcases List.mem_append.1 hk with hk | hk
        · exact h.counts k hk
        · rw [List.mem_singleton.1 hk]
          omega
    · show s.offset < s.offset + n.toNat
      omega

/-- The transfer of a file ends with all of it sent; from `2 ^ 31` bytes on, with an exception. -/
theorem ends_of_inv {s : Sending} (h : d.Inv s) : ∃ r, Ends d.sendTurn s r ∧ r.stream = d.contents ∧
    if d.contents.length < 2 ^ 31 then
      (∀ n ∈ r.counts, 0 ≤ n) ∧ r.response = .ok .OBEX_HTTP_OK
    else -1 ∈ r.counts ∧ r.response = .error .indexOutOfBounds := by
  -- each turn leaves less of the file
  induction hleft : d.contents.length - s.offset using Nat.strong_induction_on generalizing s with
  | _ n ih =>
    subst hleft
    have hstream : s.offset = d.contents.length → s.stream = d.contents := by
      intro hoffset
      rw [h.stream, hoffset, List.take_length]
    rcases sendTurn_cases h with ⟨hoffset, hlt, hturn⟩ | ⟨hoffset, hle, hturn⟩ |
      ⟨t, hturn, ht, hmore⟩
    · refine ⟨_, .stop hturn, hstream hoffset, ?_⟩
      rw [if_pos hlt]
      exact ⟨h.counts, rfl⟩
    · refine ⟨_, .stop hturn, hstream hoffset, ?_⟩
      rw [if_neg (by omega)]
      exact ⟨List.mem_append_right _ List.mem_cons_self, rfl⟩
    · have htle := ht.offset_le
      obtain ⟨r, hr, hspec⟩ := ih _ (by omega) ht rfl
      exact ⟨r, .goOn hturn hr, hspec⟩

variable {lengthHeader : ℤ → Except Exn Unit}

/-- Every transfer whose header is accepted ends, with all of the file sent. -/
theorem sends_all (d : Download) (hheader : lengthHeader d.filelength = .ok ()) :
    ∃ r, d.Sends lengthHeader r ∧ r.stream = d.contents ∧
      if d.contents.length < 2 ^ 31 then
        (∀ n ∈ r.counts, 0 ≤ n) ∧ r.response = .ok .OBEX_HTTP_OK
      else -1 ∈ r.counts ∧ r.response = .error .indexOutOfBounds := by
  obtain ⟨r, hr, hspec⟩ := ends_of_inv d.inv_start
  refine ⟨r, ?_, hspec⟩
  rw [Sends, hheader]
  exact hr

theorem sends_of_le (d : Download) (hheader : lengthHeader d.filelength = .ok ())
    (hbig : 2 ^ 31 ≤ d.contents.length) :
    ∃ r, d.Sends lengthHeader r ∧ r.stream = d.contents ∧ -1 ∈ r.counts ∧
      r.response = .error .indexOutOfBounds := by
  obtain ⟨r, hr, hstream, hspec⟩ := d.sends_all hheader
  rw [if_neg (by omega)] at hspec
  exact ⟨r, hr, hstream, hspec⟩

/-- From `2 ^ 31` bytes on the answer is an exception, that of the header or that of the count. -/
theorem not_exact_of_le (d : Download) (hbig : 2 ^ 31 ≤ d.contents.length) :
    ¬ d.Exact lengthHeader := by
  rintro ⟨r', hr', -, -, hok⟩
  rw [Sends] at hr'
  cases hset : lengthHeader d.filelength with
  | error e =>
    rw [hset] at hr'
    rw [hr'] at hok
    cases hok
  | ok u =>
    rw [hset] at hr'
    obtain ⟨r, hr, -, hspec⟩ := ends_of_inv d.inv_start
    rw [if_neg (by omega)] at hspec
    rw [Ends.unique hr hr', hspec.2] at hok
    cases hok

/-- **Downloads of fewer than `2 ^ 31` bytes are exact, and no others are.** -/
theorem exact_iff_lt (d : Download) (hheader : ∀ n, 0 ≤ n → n < 2 ^ 32 → lengthHeader n = .ok ()) :
    d.Exact lengthHeader ↔ d.contents.length < 2 ^ 31 := by
  constructor
  · intro h
    by_contra hbig
    exact d.not_exact_of_le (by omega) h
  · intro hsmall
    obtain ⟨r, hr, hstream, hspec⟩ := d.sends_all
      (hheader d.filelength (by rw [filelength]; omega) (by rw [filelength]; omega))
    rw [if_pos hsmall] at hspec
    exact ⟨r, hr, hstream, hspec.1, hspec.2⟩

/-- The header has four bytes. -/
@[irreducible] def fourBytes (n : ℤ) : Except Exn Unit :=
  if 0 ≤ n ∧ n < 2 ^ 32 then .ok () else .error .numberFormat

theorem fourBytes_eq {n : ℤ} (hle : 0 ≤ n) (hlt : n < 2 ^ 32) : fourBytes n = .ok () := by
  rw [fourBytes, if_pos ⟨hle, hlt⟩]

/-- A file of this size, read in pieces of 3 bytes. -/
def zeros (n : ℕ) : Download where
  contents := List.replicate n 0
  maxPacketSize := 1000
  reads _ := 3
  one_le := by norm_num
  lt := by norm_num

theorem length_zeros (n : ℕ) : (zeros n).contents.length = n := List.length_replicate

theorem exact_zeros : (zeros 2500).Exact fourBytes := by
  refine ((zeros 2500).exact_iff_lt fun n => fourBytes_eq).2 ?_
  rw [length_zeros]
  norm_num

/-- **A file of 2 GiB.**  It is sent, and then `write` is called with the count `-1`. -/
theorem not_exact_zeros : ¬ (zeros (2 ^ 31)).Exact fourBytes ∧
    ∃ r, (zeros (2 ^ 31)).Sends fourBytes r ∧ -1 ∈ r.counts ∧
      r.response = .error .indexOutOfBounds := by
  -- the list of bytes is never unfolded
  obtain ⟨n, hn⟩ : ∃ n, n = 2 ^ 31 := ⟨_, rfl⟩
  rw [← hn]
  have hbig : 2 ^ 31 ≤ (zeros n).contents.length := by
    rw [length_zeros, hn]
  have hheader : fourBytes (zeros n).filelength = .ok () := by
    rw [filelength, length_zeros]
    exact fourBytes_eq (by omega) (by omega)
  obtain ⟨r, hr, -, hcount, hresponse⟩ := sends_of_le _ hheader hbig
  exact ⟨not_exact_of_le _ hbig, r, hr, hcount, hresponse⟩

end Download

end Ftp

end Msm8909w

import Mathlib.Algebra.GroupWithZero.Nat
import Mathlib.Data.Int.Notation
import Mathlib.Tactic.SplitIfs
import Msm8909w.Lib.Loop

/-!
# Probing the metadata of an image

`is_encrypted` of `dec.cpp` asks TrustZone to parse the metadata at the head of an image.  As long
as this is too short to parse, it announces twice as much, in 32 bits and without a look at the
image.  The answer decides whether the image is decrypted, and from which offset on.

* `probeTurn` : one request, `MdAnswer.verdict` : what `is_encrypted` makes of the last answer,
* `announced_iff` : when the lengths stay within the image,
* `bounded_iff` : the probing is bounded exactly if an answer ends it in time, and an encrypted
  image has its end of the metadata inside.
-/

namespace Msm8909w

namespace Decrypt

def SSD_PMD_ENCRYPTED : BitVec 32 := 0
def SSD_PMD_NOT_ENCRYPTED : BitVec 32 := 1
def SSD_PMD_PARSING_INCOMPLETE : BitVec 32 := 6
def SSD_HEADER_MIN_SIZE : BitVec 32 := 128
def MULTIPLICATION_FACTOR : BitVec 32 := 2

/-- What `ioctl` returns and leaves in `response.metadata`. -/
structure MdAnswer where
  ret : ℤ
  status : BitVec 32
  ctx_id : BitVec 32
  end_offset : BitVec 32
  deriving DecidableEq, Repr

/-- More of the image is needed. -/
def MdAnswer.Incomplete (a : MdAnswer) : Prop :=
  a.ret = 0 ∧ a.status = SSD_PMD_PARSING_INCOMPLETE

instance (a : MdAnswer) : Decidable a.Incomplete := inferInstanceAs (Decidable (_ ∧ _))

/-- The image is encrypted. -/
def MdAnswer.Encrypted (a : MdAnswer) : Prop := a.ret = 0 ∧ a.status = SSD_PMD_ENCRYPTED

instance (a : MdAnswer) : Decidable a.Encrypted := inferInstanceAs (Decidable (_ ∧ _))

/-- The loop of `is_encrypted`: the requests that have been answered, and
`req.request.metadata.len`. -/
structure Probe where
  calls : ℕ
  len : BitVec 32
  deriving DecidableEq, Repr

/-- The first request. -/
def firstProbe (len : BitVec 32) : Probe :=
  ⟨0, if SSD_HEADER_MIN_SIZE ≤ len then SSD_HEADER_MIN_SIZE else len⟩

def Probe.next (p : Probe) : Probe := ⟨p.calls + 1, p.len * MULTIPLICATION_FACTOR⟩

/-- One turn of the loop. -/
def probeTurn (answers : ℕ → MdAnswer) (p : Probe) : Probe ⊕ MdAnswer :=
  let answer := answers p.calls
  if answer.Incomplete then .inl p.next else .inr answer

/-- What `is_encrypted` returns. -/
def MdAnswer.verdict (a : MdAnswer) : ℤ :=
  if a.ret = 0 then if a.status = SSD_PMD_ENCRYPTED then 1 else 0 else a.ret

/-- `*end_offset` afterwards, which was zero. -/
def MdAnswer.offset (a : MdAnswer) : BitVec 32 := if a.Encrypted then a.end_offset else 0

/-- `*ctx_id` afterwards, which was zero. -/
def MdAnswer.ctxId (a : MdAnswer) : BitVec 32 := if a.Encrypted then a.ctx_id else 0

/-- `request.img_frag` of `decrypt`. -/
structure ImgFrag where
  ctx_id : BitVec 32
  last_frag : BitVec 32
  frag_len : BitVec 32
  offset : BitVec 32
  deriving DecidableEq, Repr

/-- The request of `decrypt`. -/
def imgFrag (len md_ctx offset : BitVec 32) : ImgFrag := ⟨md_ctx, 1, len - offset, offset⟩

/-- The length that `decrypt_image` passes to `save_file`. -/
def savedLen (fsize offset : BitVec 32) : BitVec 32 := fsize - offset

/-! ### Bounds -/

/-- A difference that does not wrap below zero. -/
def Exact (len offset difference : BitVec 32) : Prop :=
  (difference.toNat : ℤ) = len.toNat - offset.toNat

/-- The probing ends, keeps within the image, and leaves an offset within the image. -/
structure Bounded (len : BitVec 32) (answers : ℕ → MdAnswer) : Prop where
  terminates : ∃ a, Ends (probeTurn answers) (firstProbe len) a
  announced : 0 < len → ∀ p, Visits (probeTurn answers) (firstProbe len) p → 1 ≤ p.len ∧ p.len ≤ len
  lengths : ∀ a, Ends (probeTurn answers) (firstProbe len) a → a.verdict = 1 →
    Exact len a.offset (imgFrag len a.ctxId a.offset).frag_len ∧
      Exact len a.offset (savedLen len a.offset)

section

variable {len : BitVec 32} {answers : ℕ → MdAnswer} {k : ℕ}

theorem probeTurn_body (p q : Probe) (h : probeTurn answers p = .inl q) : q = p.next := by
  unfold probeTurn at h
  simp only at h
  split_ifs at h
  exact (Sum.inl.inj h).symm

/-- The request after `k` doublings. -/
theorem iterate_next (p : Probe) (k : ℕ) :
    Probe.next^[k] p = ⟨p.calls + k, BitVec.ofNat 32 (p.len.toNat * 2 ^ k)⟩ := by
  induction k with
  | zero => simp
  | succ k ih =>
    have hdouble : BitVec.ofNat 32 (p.len.toNat * 2 ^ k) * MULTIPLICATION_FACTOR =
        BitVec.ofNat 32 (p.len.toNat * 2 ^ (k + 1)) := by
      rw [Nat.pow_succ, ← Nat.mul_assoc, BitVec.ofNat_mul (p.len.toNat * 2 ^ k) 2]
      rfl
    rw [Function.iterate_succ_apply', ih, Probe.next, hdouble, Nat.add_assoc]

theorem toNat_firstProbe (len : BitVec 32) :
    (firstProbe len).len.toNat = min len.toNat 128 := by
  have hmin : SSD_HEADER_MIN_SIZE.toNat = 128 := rfl
  unfold firstProbe
  simp only
  split_ifs with h
  · rw [BitVec.le_def, hmin] at h
    rw [hmin, Nat.min_eq_right h]
  · rw [BitVec.le_def, hmin] at h
    rw [Nat.min_eq_left (by omega)]

theorem probeTurn_iterate (len : BitVec 32) (j : ℕ) :
    (probeTurn answers (Probe.next^[j] (firstProbe len)) =
      .inl (Probe.next^[j + 1] (firstProbe len)) ↔ (answers j).Incomplete) ∧
    ∀ a, probeTurn answers (Probe.next^[j] (firstProbe len)) = .inr a ↔
      ¬ (answers j).Incomplete ∧ a = answers j := by
  have hcalls : (Probe.next^[j] (firstProbe len)).calls = j := by
    rw [iterate_next]
    exact Nat.zero_add j
  rw [Function.iterate_succ_apply']
  unfold probeTurn
  simp only [hcalls]
  constructor
  · split_ifs with h <;> simp [h]
  · intro a
    split_ifs with h
    · simp [h]
    · simp [h, eq_comm]

/-- The loop ends with the first answer that is not incomplete. -/
theorem ends_probe_iff {a : MdAnswer} : Ends (probeTurn answers) (firstProbe len) a ↔
    ∃ k, (∀ j < k, (answers j).Incomplete) ∧ ¬ (answers k).Incomplete ∧ a = answers k := by
  rw [ends_iff_iterate probeTurn_body]
  simp only [(probeTurn_iterate len _).1, (probeTurn_iterate len _).2]

theorem visits_probe_iff {p : Probe} : Visits (probeTurn answers) (firstProbe len) p ↔
    ∃ k, (∀ j < k, (answers j).Incomplete) ∧
      p = ⟨k, BitVec.ofNat 32 (min len.toNat 128 * 2 ^ k)⟩ := by
  have hfirst : (firstProbe len).calls = 0 := rfl
  rw [visits_iff_iterate probeTurn_body]
  simp only [(probeTurn_iterate len _).1]
  simp only [iterate_next, toNat_firstProbe, hfirst, Nat.zero_add]

/-- **When the lengths stay within the image**: after a first length of 128 bytes they are powers of
two, and the one that does not fit into 32 bits is zero. -/
theorem announced_iff (hlen : 0 < len) (k : ℕ) :
    (∀ j ≤ k, 1 ≤ BitVec.ofNat 32 (min len.toNat 128 * 2 ^ j) ∧
      BitVec.ofNat 32 (min len.toNat 128 * 2 ^ j) ≤ len) ↔
        min len.toNat 128 * 2 ^ k ≤ len.toNat := by
  have hpos : 0 < len.toNat := hlen
  have hlt : len.toNat < 2 ^ 32 := len.isLt
  have hone : (1 : BitVec 32).toNat = 1 := rfl
  simp only [BitVec.le_def, BitVec.toNat_ofNat, hone]
  constructor
  · intro h
    induction k with
    | zero => omega
    | succ k ih =>
      have hk := ih fun j hj => h j (Nat.le_succ_of_le hj)
      obtain ⟨hpositive, hbound⟩ := h (k + 1) Nat.le.refl
      rw [Nat.pow_succ, ← Nat.mul_assoc] at hpositive hbound ⊢
      by_cases hfit : min len.toNat 128 * 2 ^ k * 2 < 2 ^ 32
      · rwa [Nat.mod_eq_of_lt hfit] at hbound
      · -- only a length that started with 128 grows that far
        have hlarge : min len.toNat 128 = 128 := by
          by_contra hsmall
          have hzero : k = 0 := by
            by_contra hne
            have hpow : 2 ^ 1 ≤ 2 ^ k := Nat.pow_le_pow_right (by omega) (by omega)
            have hmul := Nat.mul_le_mul_left (min len.toNat 128) hpow
            omega
          subst hzero
          omega
        rw [hlarge] at hk hfit hpositive
        have hle : k ≤ 24 := by
          by_contra hgt
          have hpow : 2 ^ 25 ≤ 2 ^ k := Nat.pow_le_pow_right (by omega) (by omega)
          omega
        have hge : 24 ≤ k := by
          by_contra hlt
          have hpow : 2 ^ k ≤ 2 ^ 23 := Nat.pow_le_pow_right (by omega) (by omega)
          omega
        obtain rfl : k = 24 := by omega
        omega
  · intro h j hj
    have hpow : 2 ^ j ≤ 2 ^ k := Nat.pow_le_pow_right (by omega) hj
    have hle : min len.toNat 128 * 2 ^ j ≤ len.toNat :=
      Nat.le_trans (Nat.mul_le_mul_left _ hpow) h
    have hmin : 1 ≤ min len.toNat 128 := by omega
    have hpositive : 1 ≤ min len.toNat 128 * 2 ^ j :=
      Nat.mul_pos hmin (Nat.two_pow_pos j)
    rw [Nat.mod_eq_of_lt (Nat.lt_of_le_of_lt hle hlt)]
    exact ⟨hpositive, hle⟩

/-- A difference is exact if nothing larger is taken away. -/
theorem exact_sub_iff (len offset : BitVec 32) :
    Exact len offset (len - offset) ↔ offset ≤ len := by
  have hlen := len.isLt
  have hoffset := offset.isLt
  rw [Exact, BitVec.le_def, BitVec.toNat_sub]
  constructor
  · intro h
    omega
  · intro h
    have hsum : 2 ^ 32 - offset.toNat + len.toNat = len.toNat - offset.toNat + 2 ^ 32 := by omega
    rw [hsum, Nat.add_mod_right, Nat.mod_eq_of_lt (by omega)]
    omega

/-- The lengths that are computed from the answer do not wrap. -/
theorem lengths_iff (len : BitVec 32) (a : MdAnswer) :
    (a.verdict = 1 → Exact len a.offset (imgFrag len a.ctxId a.offset).frag_len ∧
      Exact len a.offset (savedLen len a.offset)) ↔ (a.Encrypted → a.end_offset ≤ len) := by
  have hboth : (Exact len a.offset (imgFrag len a.ctxId a.offset).frag_len ∧
      Exact len a.offset (savedLen len a.offset)) ↔ a.offset ≤ len := by
    rw [imgFrag, savedLen, exact_sub_iff, and_self]
  rw [hboth]
  by_cases henc : a.Encrypted
  · have hverdict : a.verdict = 1 := by
      rw [MdAnswer.verdict, if_pos henc.1, if_pos henc.2]
    have hoffset : a.offset = a.end_offset := if_pos henc
    simp [hverdict, hoffset, henc]
  · have hoffset : a.offset = 0 := if_neg henc
    rw [hoffset]
    exact ⟨fun _ h => absurd h henc, fun _ _ => BitVec.le_def.2 (Nat.zero_le _)⟩

end

/-- **When the probing is bounded**: an answer that does not ask for more comes while the length is
still within the image, and if it says that the image is encrypted, its offset is within the image
too. -/
theorem bounded_iff (len : BitVec 32) (answers : ℕ → MdAnswer) : Bounded len answers ↔
    ∃ k, (∀ j < k, (answers j).Incomplete) ∧ ¬ (answers k).Incomplete ∧
      min len.toNat 128 * 2 ^ k ≤ len.toNat ∧
        ((answers k).Encrypted → (answers k).end_offset ≤ len) := by
  constructor
  · intro h
    obtain ⟨a, ha⟩ := h.terminates
    obtain ⟨k, hbefore, hlast, rfl⟩ := ends_probe_iff.1 ha
    refine ⟨k, hbefore, hlast, ?_, (lengths_iff len _).1 (h.lengths _ ha)⟩
    by_cases hpos : 0 < len
    · refine (announced_iff hpos k).1 fun j hj =>
        h.announced hpos _ (visits_probe_iff.2 ⟨j, ?_, rfl⟩)
      exact fun i hi => hbefore i (Nat.lt_of_lt_of_le hi hj)
    · have hzero : len.toNat = 0 := Nat.eq_zero_of_not_pos hpos
      simp [hzero]
  · rintro ⟨k, hbefore, hlast, hlen, hoffset⟩
    refine ⟨⟨answers k, ends_probe_iff.2 ⟨k, hbefore, hlast, rfl⟩⟩, fun hpos p hp => ?_,
      fun a ha => ?_⟩
    · obtain ⟨j, hj, rfl⟩ := visits_probe_iff.1 hp
      refine (announced_iff hpos k).2 hlen j (Nat.le_of_not_lt fun hlt => ?_)
      exact hlast (hj k hlt)
    · have hend : Ends (probeTurn answers) (firstProbe len) (answers k) :=
        ends_probe_iff.2 ⟨k, hbefore, hlast, rfl⟩
      obtain rfl := Ends.unique hend ha
      exact (lengths_iff len _).2 hoffset

/-- The parsing is never complete; or it is incomplete once, and 256 bytes are announced of an image
of 200; or the metadata end behind the image. -/
theorem not_bounded_samples :
    ¬ Bounded 4096 (fun _ => ⟨0, SSD_PMD_PARSING_INCOMPLETE, 0, 0⟩) ∧
    ¬ Bounded 200 (fun k =>
      if k = 0 then ⟨0, SSD_PMD_PARSING_INCOMPLETE, 0, 0⟩ else ⟨0, SSD_PMD_ENCRYPTED, 1, 64⟩) ∧
    ¬ Bounded 4096 (fun _ => ⟨0, SSD_PMD_ENCRYPTED, 1, 8192⟩) := by
  refine ⟨fun h => ?_, fun h => ?_, fun h => ?_⟩
  · obtain ⟨a, ha⟩ := h.terminates
    exact not_ends_of_invariant (I := fun _ => True) (fun p _ => ⟨p.next, rfl, trivial⟩) trivial ha
  · exact absurd (h.announced (by decide) ⟨1, 256⟩ (.goOn rfl (.refl _))).2 (by decide)
  · exact absurd (h.lengths _ (.stop rfl) rfl).1 (by unfold Exact; decide)

end Decrypt

end Msm8909w

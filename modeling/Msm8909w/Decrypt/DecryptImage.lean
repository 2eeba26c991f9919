import Mathlib.Data.List.TakeDrop
import Msm8909w.Decrypt.IsEncrypted

/-!
# Decrypting an image

`decrypt_image` of `dec.cpp` loads an image into a buffer of the ION allocator, lets TrustZone parse
and decrypt it there, and saves what follows the metadata.  `DecryptFn` reports success for every
result that is not negative.

A result can come from the clean-up after a failure, from an `errno` that nobody has set, or from a
call whose positive results are passed on; and TrustZone's own status is not looked at.

* `decryptImage` : the code, for any number of probes,
* `sound_decryptImage_iff` : exactly which results of the calls are not mistaken.
-/

namespace Msm8909w

namespace Decrypt

/-- The results of the calls, each of which is made once at most. -/
structure Calls where
  /-- `open` of `/dev/qseecom` and of `/dev/smcmod`, `fopen` of the source. -/
  qseecom : Bool
  smcmod : Bool
  source : Bool
  /-- What `ftell` returns, as a `uint32_t`. -/
  fsize : BitVec 32
  /-- `open` of `/dev/ion`. -/
  ion : Bool
  /-- `ION_IOC_ALLOC`, and whether it has left a handle. -/
  alloc : ℤ
  handle : Bool
  /-- `ION_IOC_MAP`, `mmap`, and `ION_IOC_FREE` after a failure of these. -/
  map : ℤ
  mmap : Bool
  free : ℤ
  /-- `fread` gets everything, and `errno` afterwards. -/
  read : Bool
  readErrno : ℕ
  /-- `ION_IOC_CLEAN_INV_CACHES` and `QSEECOM_IOCTL_PERF_ENABLE_REQ`. -/
  clean : ℤ
  perf : ℤ
  answers : ℕ → MdAnswer
  /-- The decryption: the result of `ioctl`, and `response.img_frag.status`. -/
  decrypt : ℤ
  decryptStatus : BitVec 32
  /-- The memory from the start of the buffer on, after the decryption. -/
  memory : ℕ → BitVec 8
  /-- `fopen` of the destination, and `errno` afterwards. -/
  destination : Bool
  destinationErrno : ℕ
  /-- `fwrite` writes everything, and `errno` after it. -/
  write : Bool
  writeErrno : ℕ
  /-- How many bytes are in the file once it is flushed and closed. -/
  arrived : ℕ

/-- What a call of `decrypt_image` returns, and what it has done. -/
structure Result where
  ret : ℤ
  /-- For each access to the buffer, whether it was mapped. -/
  touched : List Bool
  /-- The last answer about the metadata. -/
  answer : Option MdAnswer := none
  /-- The result and the status of the decryption. -/
  decryption : Option (ℤ × BitVec 32) := none
  /-- The contents of the destination, if it has been opened. -/
  written : Option (List (BitVec 8)) := none

/-- `ion_memalloc`: what it returns, and whether the buffer is mapped. -/
def ionMemalloc (c : Calls) : ℤ × Bool :=
  if !c.ion then (-1, false)
  else if c.alloc ≠ 0 then (c.alloc, false)
  else if !c.handle then (-1, false)
  -- the result is that of the clean-up
  else if c.map ≠ 0 ∨ c.mmap = false then (c.free, false)
  else (0, true)

/-- `decrypt_image` before the metadata are parsed. -/
structure Load where
  touched : List Bool
  /-- The result, if it ends here. -/
  exit : Option ℤ

/-- The first part of `decrypt_image`. -/
def load (c : Calls) : Load :=
  if !(c.qseecom && c.smcmod && c.source) then ⟨[], some (-1)⟩
  else
    let (ret, mapped) := ionMemalloc c
    -- a new buffer is cleared
    let touched := if mapped then [true] else []
    if ret ≠ 0 then ⟨touched, some ret⟩
    else
      let touched := if c.fsize ≠ 0 then touched ++ [mapped] else touched
      -- nothing is read into a buffer of no bytes, and the result is zero
      if c.fsize = 0 ∨ c.read = false then ⟨touched, some (-c.readErrno)⟩
      else if c.clean < 0 then ⟨touched, some c.clean⟩
      else if c.perf < 0 then ⟨touched, some c.perf⟩
      else ⟨touched, none⟩

/-- `save_file`: what it returns, and the contents of the file. -/
def saveFile (c : Calls) (data : List (BitVec 8)) : ℤ × Option (List (BitVec 8)) :=
  if !c.destination then (-c.destinationErrno, none)
  else (if data.length ≠ 0 ∧ c.write = true then 0 else -c.writeErrno, some (data.take c.arrived))

/-- The bytes of the memory from an offset on. -/
def bytesFrom (c : Calls) (offset len : ℕ) : List (BitVec 8) :=
  (List.range len).map fun i => c.memory (offset + i)

/-- The second part of `decrypt_image`, with the last answer about the metadata. -/
def finish (c : Calls) (touched : List Bool) (answer : MdAnswer) : Result :=
  let ret := answer.verdict
  if ret = 1 then
    let decryption := some (c.decrypt, c.decryptStatus)
    -- the status is not looked at
    if c.decrypt < 0 then ⟨c.decrypt, touched, some answer, decryption, none⟩
    else
      let len := savedLen c.fsize answer.offset
      let touched := if len ≠ 0 then touched ++ [(ionMemalloc c).2] else touched
      let (ret, written) := saveFile c (bytesFrom c answer.offset.toNat len.toNat)
      ⟨ret, touched, some answer, decryption, written⟩
  else ⟨ret, touched, some answer, none, none⟩

/-- `decrypt_image`, if the metadata are parsed after `n` probes. -/
def decryptImage (n : ℕ) (c : Calls) : Option Result :=
  let l := load c
  match l.exit with
  | some ret => some ⟨ret, l.touched, none, none, none⟩
  | none => (loop (probeTurn c.answers) n (firstProbe c.fsize)).map (finish c l.touched)

/-! ### Success -/

/-- TrustZone answered that the image is not encrypted, and nothing was written. -/
def LeftAlone (r : Result) : Prop :=
  ∃ a, r.answer = some a ∧ a.ret = 0 ∧ a.status = SSD_PMD_NOT_ENCRYPTED ∧ r.written = none

/-- TrustZone decrypted the image, and what follows the metadata was written. -/
def Decrypted (c : Calls) (r : Result) : Prop :=
  ∃ a, r.answer = some a ∧ a.Encrypted ∧ a.end_offset ≤ c.fsize ∧ r.decryption = some (0, 0) ∧
    r.written = some (bytesFrom c a.end_offset.toNat (c.fsize.toNat - a.end_offset.toNat))

/-- A success means what it says, and the buffer is only used when it is mapped. -/
structure Sound (c : Calls) : Prop where
  success : ∀ n r, decryptImage n c = some r → 0 ≤ r.ret → LeftAlone r ∨ Decrypted c r
  loaded : ∀ mapped ∈ (load c).touched, mapped = true
  buffer : ∀ n r, decryptImage n c = some r → ∀ mapped ∈ r.touched, mapped = true

/-! ### The results that are not mistaken -/

namespace Calls

variable (c : Calls)

/-- The devices and the source are open. -/
def Opened : Prop := c.qseecom = true ∧ c.smcmod = true ∧ c.source = true

/-- The buffer is allocated and mapped. -/
def Mapped : Prop := c.ion = true ∧ c.alloc = 0 ∧ c.handle = true ∧ c.map = 0 ∧ c.mmap = true

/-- The image is in the buffer. -/
def Loaded : Prop :=
  c.Opened ∧ c.Mapped ∧ c.fsize ≠ 0 ∧ c.read = true ∧ 0 ≤ c.clean ∧ 0 ≤ c.perf

/-- The destination is complete after a decryption that succeeded. -/
def Saved (a : MdAnswer) : Prop :=
  a.Encrypted ∧ a.end_offset ≤ c.fsize ∧ c.decrypt = 0 ∧ c.decryptStatus = 0 ∧
    c.destination = true ∧ (savedLen c.fsize a.end_offset).toNat ≤ c.arrived

/-- The destination is known not to be complete. -/
def SaveFails (a : MdAnswer) : Prop :=
  if c.destination then
    ¬ (savedLen c.fsize a.offset ≠ 0 ∧ c.write = true) ∧ c.writeErrno ≠ 0
  else c.destinationErrno ≠ 0

end Calls

/-- An answer that is one of the two verdicts, or a failure; and after a decryption that does not
fail, the destination is complete, or known not to be. -/
structure Conclusive (c : Calls) (a : MdAnswer) : Prop where
  verdict : a.ret = 0 → a.status = SSD_PMD_ENCRYPTED ∨ a.status = SSD_PMD_NOT_ENCRYPTED
  ret : a.ret ≤ 1
  saved : a.verdict = 1 → 0 ≤ c.decrypt → c.Saved a ∨ c.SaveFails a

/-- No failure comes with a result that looks like success. -/
structure Unmistaken (c : Calls) : Prop where
  /-- `ION_IOC_ALLOC` does not fail with a positive result. -/
  alloc : c.Opened → c.ion = true → c.alloc ≤ 0
  /-- If the buffer is not mapped, the clean-up fails too; or there is nothing to be read, and
  `errno` says so. -/
  free : c.Opened → c.ion = true → c.alloc = 0 → c.handle = true → ¬ c.Mapped →
    c.free < 0 ∨ c.free = 0 ∧ c.fsize = 0
  /-- If nothing is read, `errno` is set. -/
  read : c.Opened → (ionMemalloc c).1 = 0 → c.fsize = 0 ∨ c.read = false → c.readErrno ≠ 0
  answer : c.Loaded → ∀ a, Ends (probeTurn c.answers) (firstProbe c.fsize) a → Conclusive c a

section

variable {c : Calls} {a : MdAnswer} {ret : ℤ} {touched : List Bool}

/-- A call that ends before the metadata are parsed is sound if it fails. -/
theorem sound_iff_of_exit (h : load c = ⟨touched, some ret⟩) :
    Sound c ↔ ret < 0 ∧ ∀ mapped ∈ touched, mapped = true := by
  have himage : ∀ n r, decryptImage n c = some r ↔ r = ⟨ret, touched, none, none, none⟩ := by
    intro n r
    simp only [decryptImage, h]
    exact ⟨fun heq => (Option.some.inj heq).symm, fun heq => heq ▸ rfl⟩
  constructor
  · intro hsound
    refine ⟨Int.not_le.1 fun hret => ?_, fun mapped hmem => hsound.loaded mapped (h ▸ hmem)⟩
    rcases hsound.success 0 _ ((himage 0 _).2 rfl) hret with ⟨a, ha, -⟩ | ⟨a, ha, -⟩ <;> cases ha
  · rintro ⟨hret, htouched⟩
    refine ⟨fun n r hr hpos => ?_, h ▸ htouched, fun n r hr => ?_⟩
    · obtain rfl := (himage n r).1 hr
      exact absurd hret (Int.not_lt.2 hpos)
    · obtain rfl := (himage n r).1 hr
      exact htouched

/-- A call that goes on is sound if it is sound with every last answer. -/
theorem sound_iff_of_load (h : load c = ⟨touched, none⟩)
    (htouched : ∀ mapped ∈ touched, mapped = true) (hmapped : (ionMemalloc c).2 = true) :
    Sound c ↔ ∀ a, Ends (probeTurn c.answers) (firstProbe c.fsize) a →
      0 ≤ (finish c touched a).ret →
        LeftAlone (finish c touched a) ∨ Decrypted c (finish c touched a) := by
  have himage : ∀ n r, decryptImage n c = some r ↔
      ∃ a, loop (probeTurn c.answers) n (firstProbe c.fsize) = some a ∧ finish c touched a = r := by
    intro n r
    simp only [decryptImage, h, Option.map_eq_some_iff]
  have hfinish : ∀ a, ∀ mapped ∈ (finish c touched a).touched, mapped = true := by
    intro a
    unfold finish
    simp only [hmapped]
    split_ifs
    · exact htouched
    · simpa using htouched
    · exact htouched
    · exact htouched
  constructor
  · intro hsound a ha hret
    obtain ⟨n, hn⟩ := exists_loop_of_ends ha
    exact hsound.success n _ ((himage n _).2 ⟨a, hn, rfl⟩) hret
  · intro hall
    refine ⟨fun n r hr hret => ?_, h ▸ htouched, fun n r hr => ?_⟩
    · obtain ⟨a, ha, rfl⟩ := (himage n r).1 hr
      exact hall a (ends_of_loop ha) hret
    · obtain ⟨a, ha, rfl⟩ := (himage n r).1 hr
      exact hfinish a

theorem length_bytesFrom (c : Calls) (offset len : ℕ) : (bytesFrom c offset len).length = len := by
  rw [bytesFrom, List.length_map, List.length_range]

/-- The destination has what follows the metadata. -/
theorem decrypted_iff {written : Option (List (BitVec 8))} :
    Decrypted c ⟨ret, touched, some a, some (c.decrypt, c.decryptStatus), written⟩ ↔
      a.Encrypted ∧ a.end_offset ≤ c.fsize ∧ c.decrypt = 0 ∧ c.decryptStatus = 0 ∧
        written =
          some (bytesFrom c a.offset.toNat (savedLen c.fsize a.offset).toNat) := by
  have hlen : a.Encrypted → a.end_offset ≤ c.fsize → a.offset = a.end_offset ∧
      (savedLen c.fsize a.offset).toNat = c.fsize.toNat - a.end_offset.toNat := by
    intro henc hle
    have hoffset : a.offset = a.end_offset := if_pos henc
    have hexact := (exact_sub_iff c.fsize a.end_offset).2 hle
    rw [Exact] at hexact
    rw [hoffset, savedLen]
    have hnat := BitVec.le_def.1 hle
    exact ⟨rfl, by omega⟩
  constructor
  · rintro ⟨b, hb, henc, hle, hdecryption, hwritten⟩
    obtain rfl := Option.some.inj hb
    obtain ⟨hoffset, hsaved⟩ := hlen henc hle
    have hboth := Prod.mk.inj (Option.some.inj hdecryption)
    refine ⟨henc, hle, hboth.1, hboth.2, ?_⟩
    rw [hsaved, hoffset]
    exact hwritten
  · rintro ⟨henc, hle, hdecrypt, hstatus, hwritten⟩
    obtain ⟨hoffset, hsaved⟩ := hlen henc hle
    refine ⟨a, rfl, henc, hle, by rw [hdecrypt, hstatus], ?_⟩
    rw [hsaved, hoffset] at hwritten
    exact hwritten

/-- After a decryption that does not fail, by what becomes of the destination. -/
theorem saved_iff (hverdict : a.verdict = 1) (hdecrypt : 0 ≤ c.decrypt) :
    (0 ≤ (finish c touched a).ret →
      LeftAlone (finish c touched a) ∨ Decrypted c (finish c touched a)) ↔
        c.Saved a ∨ c.SaveFails a := by
  have hneg : ¬ c.decrypt < 0 := Int.not_lt.2 hdecrypt
  have hleft : ∀ r : Result, r.answer = some a → ¬ LeftAlone r := by
    rintro r hr ⟨b, hb, hret, hstatus, -⟩
    obtain rfl := Option.some.inj (hr.symm.trans hb)
    rw [MdAnswer.verdict, if_pos hret, hstatus] at hverdict
    cases hverdict
  have hlength : (bytesFrom c a.offset.toNat (savedLen c.fsize a.offset).toNat).length ≠ 0 ↔
      savedLen c.fsize a.offset ≠ 0 := by
    rw [length_bytesFrom]
    exact not_congr (BitVec.toNat_inj (y := 0))
  have hfinish : ∃ touched', finish c touched a =
      ⟨(saveFile c (bytesFrom c a.offset.toNat (savedLen c.fsize a.offset).toNat)).1, touched',
        some a, some (c.decrypt, c.decryptStatus),
        (saveFile c (bytesFrom c a.offset.toNat (savedLen c.fsize a.offset).toNat)).2⟩ := by
    unfold finish
    simp only [hverdict, if_true, hneg, if_false]
    exact ⟨_, rfl⟩
  obtain ⟨touched', hfinish⟩ := hfinish
  rw [hfinish, or_iff_right (hleft _ rfl), decrypted_iff]
  cases hdest : c.destination with
  | false =>
    have hsaved : ¬ c.Saved a := fun h => absurd (hdest.symm.trans h.2.2.2.2.1) Bool.false_ne_true
    simp only [saveFile, hdest, Bool.not_false, if_true, Calls.SaveFails, Bool.false_eq_true,
      if_false, reduceCtorEq, and_false, imp_false, hsaved, false_or]
    omega
  | true =>
    have htake : some ((bytesFrom c a.offset.toNat (savedLen c.fsize a.offset).toNat).take
        c.arrived) = some (bytesFrom c a.offset.toNat (savedLen c.fsize a.offset).toNat) ↔
          (savedLen c.fsize a.offset).toNat ≤ c.arrived := by
      rw [Option.some.injEq, List.take_eq_self_iff, length_bytesFrom]
    have hsaved : c.Saved a ↔ a.Encrypted ∧ a.end_offset ≤ c.fsize ∧ c.decrypt = 0 ∧
        c.decryptStatus = 0 ∧ (savedLen c.fsize a.offset).toNat ≤ c.arrived := by
      unfold Calls.Saved
      by_cases henc : a.Encrypted
      · have hoffset : a.offset = a.end_offset := if_pos henc
        simp only [hdest, hoffset, true_and]
      · simp only [henc, false_and]
    have hfails : c.SaveFails a ↔
        (if savedLen c.fsize a.offset ≠ 0 ∧ c.write = true then (0 : ℤ) else -c.writeErrno) <
          0 := by
      rw [Calls.SaveFails, hdest, if_pos rfl]
      split_ifs with hwrite
      · exact ⟨fun h => absurd hwrite h.1, fun h => absurd h (Int.lt_irrefl 0)⟩
      · simp only [hwrite, not_false_eq_true, true_and]
        omega
    simp only [saveFile, hdest, Bool.not_true, Bool.false_eq_true, if_false, hlength, htake]
    rw [hsaved, hfails, ← Int.not_le]
    exact imp_iff_or_not

/-- **An answer leads to a sound result exactly if it is conclusive.** -/
theorem conclusive_iff : (0 ≤ (finish c touched a).ret →
    LeftAlone (finish c touched a) ∨ Decrypted c (finish c touched a)) ↔ Conclusive c a := by
  by_cases hverdict : a.verdict = 1
  · have hret : a.ret ≤ 1 ∧ (a.ret = 0 → a.status = SSD_PMD_ENCRYPTED) := by
      unfold MdAnswer.verdict at hverdict
      split_ifs at hverdict with hzero hstatus
      · exact ⟨by omega, fun _ => hstatus⟩
      · exact absurd hverdict (by omega)
      · exact ⟨by omega, fun h => absurd h hzero⟩
    have hiff : Conclusive c a ↔ (0 ≤ c.decrypt → c.Saved a ∨ c.SaveFails a) :=
      ⟨fun h => h.saved hverdict, fun h => ⟨fun hzero => .inl (hret.2 hzero), hret.1, fun _ => h⟩⟩
    rw [hiff]
    by_cases hdecrypt : 0 ≤ c.decrypt
    · rw [saved_iff hverdict hdecrypt]
      exact ⟨fun h _ => h, fun h => h hdecrypt⟩
    · have hneg : c.decrypt < 0 := Int.not_le.1 hdecrypt
      have hfinish : (finish c touched a).ret = c.decrypt := by
        unfold finish
        simp only [hverdict, if_true, hneg]
      rw [hfinish]
      exact ⟨fun _ h => absurd h hdecrypt, fun _ h => absurd h hdecrypt⟩
  · have hfinish : finish c touched a = ⟨a.verdict, touched, some a, none, none⟩ := by
      unfold finish
      simp only [hverdict, if_false]
    have hdecrypted : ¬ Decrypted c (finish c touched a) := by
      rw [hfinish]
      rintro ⟨b, -, -, -, hdecryption, -⟩
      cases hdecryption
    have hleft : LeftAlone (finish c touched a) ↔ a.ret = 0 ∧ a.status = SSD_PMD_NOT_ENCRYPTED := by
      rw [hfinish]
      constructor
      · rintro ⟨b, hb, hret, hstatus, -⟩
        obtain rfl := Option.some.inj hb
        exact ⟨hret, hstatus⟩
      · rintro ⟨hret, hstatus⟩
        exact ⟨a, rfl, hret, hstatus, rfl⟩
    rw [or_iff_left hdecrypted, hleft, hfinish]
    have hiff : Conclusive c a ↔ (a.ret = 0 → a.status = SSD_PMD_ENCRYPTED ∨
        a.status = SSD_PMD_NOT_ENCRYPTED) ∧ a.ret ≤ 1 :=
      ⟨fun h => ⟨h.verdict, h.ret⟩, fun h => ⟨h.1, h.2, fun h1 => absurd h1 hverdict⟩⟩
    rw [hiff]
    unfold MdAnswer.verdict at hverdict ⊢
    by_cases hzero : a.ret = 0
    · rw [if_pos hzero] at hverdict ⊢
      have hstatus : a.status ≠ SSD_PMD_ENCRYPTED := fun h => hverdict (if_pos h)
      rw [if_neg hstatus]
      simp [hzero, hstatus]
    · rw [if_neg hzero] at hverdict ⊢
      simp only [hzero, false_and, imp_false, false_imp_iff, true_and]
      omega

theorem ionMemalloc_of_mapped (h : c.Mapped) : ionMemalloc c = (0, true) := by
  obtain ⟨hion, halloc, hhandle, hmap, hmmap⟩ := h
  unfold ionMemalloc
  simp [hion, halloc, hhandle, hmap, hmmap]

/-- Without a buffer the result is an error code, one of the allocator's, or that of the
clean-up. -/
theorem ionMemalloc_of_not_mapped (h : ¬ c.Mapped) : ∃ ret, ionMemalloc c = (ret, false) ∧
    (ret = -1 ∧ (c.ion = false ∨ c.alloc = 0 ∧ c.handle = false) ∨
      c.ion = true ∧ c.alloc ≠ 0 ∧ ret = c.alloc ∨
      c.ion = true ∧ c.alloc = 0 ∧ c.handle = true ∧ ret = c.free) := by
  unfold ionMemalloc
  by_cases hion : c.ion = true
  · by_cases halloc : c.alloc = 0
    · by_cases hhandle : c.handle = true
      · by_cases hmap : c.map ≠ 0 ∨ c.mmap = false
        · exact ⟨c.free, by simp [hion, halloc, hhandle, hmap], by simp [hion, halloc, hhandle]⟩
        · rw [not_or, not_not, Bool.not_eq_false] at hmap
          exact absurd ⟨hion, halloc, hhandle, hmap⟩ h
      · exact ⟨-1, by simp [hion, halloc, hhandle],
          .inl ⟨rfl, .inr ⟨halloc, by simpa using hhandle⟩⟩⟩
    · exact ⟨c.alloc, by simp [hion, halloc], by simp [hion, halloc]⟩
  · exact ⟨-1, by simp [hion], .inl ⟨rfl, .inl (by simpa using hion)⟩⟩

theorem load_of_not_opened (h : ¬ c.Opened) : load c = ⟨[], some (-1)⟩ := by
  have hclosed : (!(c.qseecom && c.smcmod && c.source)) = true := by
    rw [Bool.not_eq_true', ← Bool.not_eq_true, Bool.and_eq_true, Bool.and_eq_true, and_assoc]
    exact h
  unfold load
  rw [if_pos hclosed]

/-- The first part after the devices and the source have been opened. -/
theorem load_of_opened (h : c.Opened) {mapped : Bool} (halloc : ionMemalloc c = (ret, mapped)) :
    load c =
      if ret ≠ 0 then ⟨if mapped then [true] else [], some ret⟩
      else
        let touched := (if mapped then [true] else []) ++ if c.fsize ≠ 0 then [mapped] else []
        if c.fsize = 0 ∨ c.read = false then ⟨touched, some (-c.readErrno)⟩
        else if c.clean < 0 then ⟨touched, some c.clean⟩
        else if c.perf < 0 then ⟨touched, some c.perf⟩
        else ⟨touched, none⟩ := by
  have hopen : ¬ (!(c.qseecom && c.smcmod && c.source)) = true := by
    simp [h.1, h.2.1, h.2.2]
  have htouched : ∀ touched : List Bool, (if c.fsize ≠ 0 then touched ++ [mapped] else touched) =
      touched ++ if c.fsize ≠ 0 then [mapped] else [] := by
    intro touched
    split_ifs
    · rfl
    · rw [List.append_nil]
  unfold load
  rw [if_neg hopen, halloc]
  simp only [htouched]

/-- With a buffer, what has been touched was mapped, and the call is sound if a failure to read is
not taken for a success, and if every answer is conclusive. -/
theorem sound_iff_of_mapped (hopened : c.Opened) (hmapped : c.Mapped) :
    Sound c ↔ (c.fsize = 0 ∨ c.read = false → c.readErrno ≠ 0) ∧
      (c.Loaded → ∀ a, Ends (probeTurn c.answers) (firstProbe c.fsize) a → Conclusive c a) := by
  have halloc := ionMemalloc_of_mapped hmapped
  have hload := load_of_opened hopened halloc
  have htouched : ∀ mapped ∈ [true] ++ (if c.fsize ≠ 0 then [true] else []), mapped = true := by
    split_ifs <;> simp
  rw [if_neg (not_not.2 rfl)] at hload
  simp only [if_true] at hload
  by_cases hread : c.fsize = 0 ∨ c.read = false
  · rw [if_pos hread] at hload
    rw [sound_iff_of_exit hload]
    have hloaded : ¬ c.Loaded := by
      rintro ⟨-, -, hsize, hread', -⟩
      rcases hread with hzero | hfalse
      · exact hsize hzero
      · exact absurd (hread'.symm.trans hfalse) Bool.noConfusion
    constructor
    · rintro ⟨hneg, -⟩
      exact ⟨fun _ => by omega, fun h => absurd h hloaded⟩
    · rintro ⟨herrno, -⟩
      have hne := herrno hread
      exact ⟨by omega, htouched⟩
  · rw [if_neg hread] at hload
    have hread' : c.fsize ≠ 0 ∧ c.read = true := by
      rw [not_or, Bool.not_eq_false] at hread
      exact hread
    by_cases hclean : c.clean < 0
    · rw [if_pos hclean] at hload
      rw [sound_iff_of_exit hload]
      exact ⟨fun _ => ⟨fun h => absurd h hread, fun h => absurd h.2.2.2.2.1 (Int.not_le.2 hclean)⟩,
        fun _ => ⟨hclean, htouched⟩⟩
    · rw [if_neg hclean] at hload
      by_cases hperf : c.perf < 0
      · rw [if_pos hperf] at hload
        rw [sound_iff_of_exit hload]
        exact ⟨fun _ => ⟨fun h => absurd h hread, fun h => absurd h.2.2.2.2.2 (Int.not_le.2 hperf)⟩,
          fun _ => ⟨hperf, htouched⟩⟩
      · rw [if_neg hperf] at hload
        rw [sound_iff_of_load hload htouched (by rw [halloc])]
        simp only [conclusive_iff]
        have hloaded : c.Loaded := ⟨hopened, hmapped, hread'.1, hread'.2, Int.not_lt.1 hclean,
          Int.not_lt.1 hperf⟩
        exact ⟨fun h => ⟨fun h' => absurd h' hread, fun _ => h⟩, fun h => h.2 hloaded⟩

/-- Without a buffer, the call is sound if it fails: at once with the result of the allocator, or,
if this is zero, with nothing to be read. -/
theorem sound_iff_of_not_mapped (hopened : c.Opened) (hmapped : (ionMemalloc c).2 = false) :
    Sound c ↔ (ionMemalloc c).1 < 0 ∨
      (ionMemalloc c).1 = 0 ∧ c.fsize = 0 ∧ c.readErrno ≠ 0 := by
  obtain ⟨ret, hret⟩ : ∃ ret, ionMemalloc c = (ret, false) := ⟨_, Prod.ext rfl hmapped⟩
  have hload := load_of_opened hopened hret
  simp only [Bool.false_eq_true, if_false, List.nil_append] at hload
  rw [hret]
  by_cases hzero : ret = 0
  · obtain rfl := hzero
    rw [if_neg (not_not.2 rfl)] at hload
    by_cases hsize : c.fsize = 0
    · rw [if_pos (.inl hsize), if_neg (not_not.2 hsize)] at hload
      rw [sound_iff_of_exit hload]
      constructor
      · rintro ⟨hneg, -⟩
        exact .inr ⟨rfl, hsize, by omega⟩
      · rintro (hneg | ⟨-, -, herrno⟩)
        · exact absurd hneg (Int.lt_irrefl 0)
        · exact ⟨by omega, nofun⟩
    · -- the read goes to a buffer that is not there
      have htouched : (load c).touched = [false] := by
        rw [hload, if_pos hsize]
        split_ifs <;> rfl
      have hunsound : ¬ Sound c := by
        intro h
        have hmem := h.loaded false (by rw [htouched]; exact List.mem_singleton_self false)
        cases hmem
      refine ⟨fun h => absurd h hunsound, ?_⟩
      rintro (hneg | ⟨-, hnone, -⟩)
      · exact absurd hneg (Int.lt_irrefl 0)
      · exact absurd hnone hsize
  · rw [if_pos hzero] at hload
    rw [sound_iff_of_exit hload]
    simp [hzero]

/-- **What makes a result sound**: no failure comes with a result that looks like success. -/
theorem sound_decryptImage_iff (c : Calls) : Sound c ↔ Unmistaken c := by
  by_cases hopened : c.Opened
  · by_cases hmapped : c.Mapped
    · rw [sound_iff_of_mapped hopened hmapped]
      constructor
      · rintro ⟨hread, hanswer⟩
        exact ⟨fun _ _ => Int.le_of_eq hmapped.2.1, fun _ _ _ _ h => absurd hmapped h,
          fun _ _ => hread, hanswer⟩
      · intro h
        exact ⟨h.read hopened (by rw [ionMemalloc_of_mapped hmapped]), h.answer⟩
    · obtain ⟨ret, hret, hcases⟩ := ionMemalloc_of_not_mapped hmapped
      rw [sound_iff_of_not_mapped hopened (by rw [hret]), hret]
      have hanswer : c.Loaded → ∀ a, Ends (probeTurn c.answers) (firstProbe c.fsize) a →
          Conclusive c a :=
        fun h => absurd h.2.1 hmapped
      rcases hcases with ⟨rfl, hfail⟩ | ⟨hion, halloc, rfl⟩ | ⟨hion, halloc, hhandle, rfl⟩
      · refine ⟨fun _ => ⟨fun _ hion => ?_, fun _ hion _ hhandle => ?_, fun _ h => ?_, hanswer⟩,
          fun _ => .inl (by omega)⟩
        · rcases hfail with hion' | ⟨halloc, -⟩
          · exact absurd (hion.symm.trans hion') Bool.noConfusion
          · exact Int.le_of_eq halloc
        · rcases hfail with hion' | ⟨-, hhandle'⟩
          · exact absurd (hion.symm.trans hion') Bool.noConfusion
          · exact absurd (hhandle.symm.trans hhandle') Bool.noConfusion
        · rw [hret] at h
          cases h
      · constructor
        · rintro (hneg | ⟨hzero, -⟩)
          · refine ⟨fun _ _ => Int.le_of_lt hneg, fun _ _ h => absurd h halloc, fun _ h => ?_,
              hanswer⟩
            rw [hret] at h
            exact absurd h halloc
          · exact absurd hzero halloc
        · intro h
          have hle := h.alloc hopened hion
          exact .inl (by omega)
      · constructor
        · rintro (hneg | ⟨hzero, hsize, herrno⟩)
          · refine ⟨fun _ _ => Int.le_of_eq halloc, fun _ _ _ _ _ => .inl hneg, fun _ h => ?_,
              hanswer⟩
            rw [hret] at h
            exact absurd hneg (by omega)
          · exact ⟨fun _ _ => Int.le_of_eq halloc, fun _ _ _ _ _ => .inr ⟨hzero, hsize⟩,
              fun _ _ _ => herrno, hanswer⟩
        · intro h
          rcases h.free hopened hion halloc hhandle hmapped with hneg | ⟨hzero, hsize⟩
          · exact .inl hneg
          · exact .inr ⟨hzero, hsize, h.read hopened (by rw [hret]; exact hzero) (.inl hsize)⟩
  · rw [sound_iff_of_exit (load_of_not_opened hopened)]
    refine ⟨fun _ => ⟨fun h => absurd h hopened, fun h => absurd h hopened,
      fun h => absurd h hopened, fun h => absurd h.1 hopened⟩, fun _ => ⟨by omega, nofun⟩⟩

end

/-- An image of 4096 bytes with 64 bytes of metadata, and no call fails. -/
def healthy : Calls where
  qseecom := true
  smcmod := true
  source := true
  fsize := 4096
  ion := true
  alloc := 0
  handle := true
  map := 0
  mmap := true
  free := 0
  read := true
  readErrno := 0
  clean := 0
  perf := 0
  answers _ := ⟨0, SSD_PMD_ENCRYPTED, 1, 64⟩
  decrypt := 0
  decryptStatus := 0
  memory _ := 0
  destination := true
  destinationErrno := 0
  write := true
  writeErrno := 0
  arrived := 4032

/-- TrustZone answers with an error status; the buffer cannot be mapped, and the clean-up succeeds;
or the file is empty. -/
theorem not_sound_samples :
    ¬ Sound { healthy with answers := fun _ => ⟨0, 2, 0, 0⟩ } ∧
    ¬ Sound { healthy with mmap := false } ∧ ¬ Sound { healthy with fsize := 0 } := by
  refine ⟨fun h => ?_, fun h => ?_, fun h => ?_⟩
  · rcases h.success 1 _ rfl (by decide) with ⟨a, ha, -, hstatus, -⟩ | ⟨a, ha, henc, -⟩
    · obtain rfl := Option.some.inj ha
      exact absurd hstatus (by decide)
    · obtain rfl := Option.some.inj ha
      exact absurd henc (by decide)
  · exact absurd (h.loaded false (by decide)) Bool.false_ne_true
  · rcases h.success 0 _ rfl (by decide) with ⟨a, ha, -⟩ | ⟨a, ha, -⟩ <;> cases ha

end Decrypt

end Msm8909w

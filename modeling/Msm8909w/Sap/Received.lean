import Msm8909w.Lib.Memory
import Msm8909w.Sap.Request

/-!
# What the completeness check reads

`checkCompleteRequest` with its reads of the buffer made visible: the same method as a program
that loads one byte after another (`checkCompleteRequestReads`).  A negative length moves the
cursor by less than a header and increases what seems to be left by as much, so that the cursor
and what is left always add up to the end of the bytes received (`touches_checkParamsReads`).

* `checkCompleteRequestReads_run` : the program computes `checkCompleteRequest`,
* `DependsOnReceived` : only received bytes are read, the verdict depends on nothing else, and a
  request that is complete stays so when more bytes follow it.
-/

namespace Msm8909w

namespace Sap

/-! ### The check with its reads -/

/-- `ByteBuffer.getShort`. -/
def getShortReads (i : ℕ) : MemProg UInt8 ℤ := do
  let hi ← load i
  let lo ← load (i + 1)
  return shortOf hi lo

/-- `checkParamPresent`. -/
def checkParamPresentReads (offset : ℕ) (totalRead : ℤ) : MemProg UInt8 ℤ :=
  if totalRead > SAP_PARAM_HEADER_SIZE then do
    let short ← getShortReads (offset + SAP_MSG_OFF_PARAM_LEN)
    let TotalLeft := totalRead - SAP_PARAM_HEADER_SIZE
    let ParamLen := paddedLen short
    return if TotalLeft ≥ ParamLen then SAP_PARAM_HEADER_SIZE + ParamLen else -1
  else return -1

/-- The loop of `checkCompleteRequest`. -/
def checkParamsReads : ℕ → ℕ → ℤ → MemProg UInt8 (Option Bool)
  | 0, _, _ => return some true
  | NumParameters + 1, offset, TotalLeft => do
    let TotalParamLen ← checkParamPresentReads offset TotalLeft
    if TotalParamLen < 0 then return some false
    else if TotalLeft ≥ TotalParamLen then
      checkParamsReads NumParameters (offset + TotalParamLen.toNat) (TotalLeft - TotalParamLen)
    else return none

/-- `checkCompleteRequest`. -/
def checkCompleteRequestReads (offset totalRead : ℕ) : MemProg UInt8 (Option Bool) :=
  if totalRead ≥ SAP_HEADER_SIZE then do
    let NumParameters ← load (offset + SAP_MSG_OFF_NUM_PARAMS)
    checkParamsReads (toByte NumParameters).toNat (offset + SAP_HEADER_SIZE)
      (totalRead - SAP_HEADER_SIZE)
  else return some false

variable {b c : Buffer UInt8} {off m n : ℕ} {left more : ℤ}

/-! ### The program computes the check -/

theorem checkParamPresentReads_run (b : Buffer UInt8) (off : ℕ) (left : ℤ) :
    (checkParamPresentReads off left).run (memory UInt8) b = (checkParamPresent b off left, b) := by
  rw [checkParamPresentReads, checkParamPresent]
  split_ifs <;> rfl

theorem checkParamsReads_run (b : Buffer UInt8) (n off : ℕ) (left : ℤ) :
    (checkParamsReads n off left).run (memory UInt8) b = (checkParams b n off left, b) := by
  induction n generalizing off left with
  | zero => rfl
  | succ n ih =>
    rw [checkParamsReads, Prog.run_bind, checkParamPresentReads_run, checkParams]
    dsimp only
    split_ifs
    · rfl
    · exact ih _ _
    · rfl

theorem checkCompleteRequestReads_run (b : Buffer UInt8) (off n : ℕ) :
    (checkCompleteRequestReads off n).run (memory UInt8) b = (checkCompleteRequest b off n, b) := by
  rw [checkCompleteRequestReads, checkCompleteRequest]
  split_ifs
  · exact checkParamsReads_run b _ _ _
  · rfl

/-! ### Only received bytes are read -/

/-- Position `i` is one of the `n` received ones from `off` on. -/
def IsReceived (off n i : ℕ) : Prop := off ≤ i ∧ i < off + n

theorem touches_getShortReads {P : ℕ → Prop} {i : ℕ} (h : P i) (h' : P (i + 1)) :
    (getShortReads i).Touches P b :=
  touches_bind.2 ⟨touches_load.2 h, touches_bind.2 ⟨touches_load.2 h', touches_pure⟩⟩

/-- The length of a parameter is only read if there is more than its header. -/
theorem touches_checkParamPresentReads (ho : off ≤ m) (hleft : (m : ℤ) + left = off + n) :
    (checkParamPresentReads m left).Touches (IsReceived off n) b := by
  rw [checkParamPresentReads]
  split_ifs with h
  · have h4 : (SAP_PARAM_HEADER_SIZE : ℤ) = 4 := rfl
    have h2 : SAP_MSG_OFF_PARAM_LEN = 2 := rfl
    refine touches_bind.2 ⟨touches_getShortReads ?_ ?_, touches_pure⟩
    · exact ⟨by omega, by omega⟩
    · exact ⟨by omega, by omega⟩
  · exact touches_pure

/-- The cursor and what is left add up to the end of the received bytes in every round. -/
theorem touches_checkParamsReads {k : ℕ} (ho : off ≤ m) (hleft : (m : ℤ) + left = off + n) :
    (checkParamsReads k m left).Touches (IsReceived off n) b := by
  induction k generalizing m left with
  | zero => exact touches_pure
  | succ k ih =>
    rw [checkParamsReads]
    refine touches_bind.2 ⟨touches_checkParamPresentReads ho hleft, ?_⟩
    rw [checkParamPresentReads_run]
    dsimp only
    split_ifs with hneg
    · exact touches_pure
    · exact ih (by omega) (by push_cast; omega)
    · exact touches_pure

theorem touches_checkCompleteRequestReads (b : Buffer UInt8) (off n : ℕ) :
    (checkCompleteRequestReads off n).Touches (IsReceived off n) b := by
  have h4 : SAP_HEADER_SIZE = 4 := rfl
  have h1 : SAP_MSG_OFF_NUM_PARAMS = 1 := rfl
  rw [checkCompleteRequestReads]
  split_ifs with h
  · have hcount : IsReceived off n (off + SAP_MSG_OFF_NUM_PARAMS) := ⟨by omega, by omega⟩
    refine touches_bind.2 ⟨touches_load.2 hcount, touches_checkParamsReads (by omega) ?_⟩
    push_cast
    omega
  · exact touches_pure

/-- The verdict is the same on every buffer with the same received bytes. -/
theorem checkCompleteRequest_congr (h : ∀ i, IsReceived off n i → c i = b i) :
    checkCompleteRequest c off n = checkCompleteRequest b off n := by
  have hrun := (run_agree_touched (touches_checkCompleteRequestReads b off n) h).1
  rwa [checkCompleteRequestReads_run, checkCompleteRequestReads_run] at hrun

/-! ### More bytes -/

theorem checkParamPresent_mono (h : 0 ≤ checkParamPresent b off left) (hmore : left ≤ more) :
    checkParamPresent b off more = checkParamPresent b off left := by
  simp only [checkParamPresent] at h ⊢
  split_ifs at h ⊢ <;> omega

theorem checkParams_mono (h : checkParams b n off left = some true) (hmore : left ≤ more) :
    checkParams b n off more = some true := by
  induction n generalizing off left more with
  | zero => rfl
  | succ n ih =>
    rw [checkParams] at h ⊢
    by_cases hneg : checkParamPresent b off left < 0
    · rw [if_pos hneg] at h
      cases h
    · rw [checkParamPresent_mono (by omega) hmore, if_neg hneg]
      rw [if_neg hneg] at h
      split_ifs at h with hle
      rw [if_pos (by omega)]
      exact ih h (by omega)

/-- A request that is complete stays so when more bytes are there. -/
theorem checkCompleteRequest_mono (h : checkCompleteRequest b off n = some true) (hnm : n ≤ m) :
    checkCompleteRequest b off m = some true := by
  rw [checkCompleteRequest] at h ⊢
  split_ifs at h with hn
  · rw [if_pos (by omega)]
    exact checkParams_mono h (by omega)
  · cases h

theorem checkCompleteRequest_isSome (b : Buffer UInt8) (off n : ℕ) :
    (checkCompleteRequest b off n).isSome := by
  rw [checkCompleteRequest]
  split_ifs with h
  · exact checkParams_isSome b _ _ _ (by omega)
  · rfl

/-! ### What the verdict depends on -/

/-- What the check does with `n` received bytes from `off` on, whatever else is in the buffer. -/
structure DependsOnReceived (b : Buffer UInt8) (off n : ℕ) : Prop where
  computes : ((checkCompleteRequestReads off n).run (memory UInt8) b).1 =
    checkCompleteRequest b off n
  ends : (checkCompleteRequest b off n).isSome
  reads : ∀ c ∈ (checkCompleteRequestReads off n).issued (memory UInt8) b,
    off ≤ c.addr ∧ c.addr < off + n
  agrees : ∀ c : Buffer UInt8, (∀ i, off ≤ i → i < off + n → c i = b i) →
    checkCompleteRequest c off n = checkCompleteRequest b off n
  stays : checkCompleteRequest b off n = some true → ∀ m ≥ n, ∀ c : Buffer UInt8,
    (∀ i, off ≤ i → i < off + n → c i = b i) → checkCompleteRequest c off m = some true

/-- **The verdict depends on the received bytes only.** -/
theorem checkCompleteRequest_dependsOnReceived (b : Buffer UInt8) (off n : ℕ) :
    DependsOnReceived b off n where
  computes := congrArg Prod.fst (checkCompleteRequestReads_run b off n)
  ends := checkCompleteRequest_isSome b off n
  reads := touches_checkCompleteRequestReads b off n
  agrees c h := checkCompleteRequest_congr fun i hi => h i hi.1 hi.2
  stays := by
    intro htrue m hm c h
    have hc := checkCompleteRequest_congr fun i hi => h i hi.1 hi.2
    exact checkCompleteRequest_mono (hc.trans htrue) hm

end Sap

end Msm8909w

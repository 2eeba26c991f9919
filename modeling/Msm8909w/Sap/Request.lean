import Msm8909w.Lib.Buffer

/-!
# Requests of the SIM access profile

A request of the SIM access profile is a header of 4 bytes with the number of parameters, and the
parameters, each with a header of 4 bytes, its value and padding to a multiple of 4.
`checkCompleteRequest` of `BluetoothSapService.java` decides whether the bytes read so far hold a
whole request.  It takes the number of parameters for a signed byte and asks for more than the 4
bytes of a parameter's header:

* `checkCompleteRequest_eq` : it waits for a number of bytes, `Request.needed`,
* `lt_needed_iff` : a part of a request is not taken for a whole one, unless it has 128 parameters
  or more,
* `needed_le_iff` : a whole request is known to be one, unless its last parameter is empty and
  nothing follows.
-/

namespace Msm8909w

namespace Sap

def SAP_MSG_OFF_NUM_PARAMS : ℕ := 0x01
def SAP_MSG_OFF_PARAM_LEN : ℕ := 0x02
def SAP_HEADER_SIZE : ℕ := 0x04
def SAP_PARAM_HEADER_SIZE : ℕ := 0x04
def SAP_MAX_MSG_LEN : ℕ := 32764

/-! ### The format -/

/-- A parameter. -/
structure Param where
  id : UInt8
  reserved : UInt8
  value : Bytes
  padding : Bytes
  length_value : value.length ≤ 32000
  length_padding : padding.length = (4 - value.length % 4) % 4

namespace Param

def header (p : Param) : Bytes := [p.id, p.reserved] ++ (toLE 2 p.value.length).reverse

def encode (p : Param) : Bytes := p.header ++ (p.value ++ p.padding)

def size (p : Param) : ℕ := 4 + (p.value.length + p.padding.length)

@[simp] theorem length_header (p : Param) : p.header.length = 4 := rfl

@[simp] theorem length_encode (p : Param) : p.encode.length = p.size := by
  simp only [encode, List.length_append, length_header, size]

end Param

/-- The parameters one after another. -/
def encodeParams (ps : List Param) : Bytes := ps.flatMap Param.encode

/-- The number of their bytes. -/
def sizeParams (ps : List Param) : ℕ := (ps.map Param.size).sum

theorem length_encodeParams (ps : List Param) : (encodeParams ps).length = sizeParams ps := by
  induction ps with
  | nil => rfl
  | cons p ps ih =>
    rw [encodeParams, List.flatMap_cons, List.length_append, Param.length_encode]
    exact congrArg (p.size + ·) ih

/-- A request. -/
structure Request where
  msgId : UInt8
  reserved : UInt8 × UInt8
  params : List Param
  length_params : params.length ≤ 255
  size_le : 4 + sizeParams params ≤ SAP_MAX_MSG_LEN

namespace Request

def header (r : Request) : Bytes :=
  [r.msgId, UInt8.ofNat r.params.length, r.reserved.1, r.reserved.2]

def encode (r : Request) : Bytes := r.header ++ encodeParams r.params

def size (r : Request) : ℕ := 4 + sizeParams r.params

@[simp] theorem length_header (r : Request) : r.header.length = 4 := rfl

@[simp] theorem length_encode (r : Request) : r.encode.length = r.size := by
  simp only [encode, List.length_append, length_header, length_encodeParams, size]

end Request

/-! ### The check -/

/-- The length of a value with its padding. -/
def paddedLen (ParamLen : ℤ) : ℤ :=
  if ParamLen > 0 ∧ ParamLen % 4 ≠ 0 then ParamLen + (4 - ParamLen % 4) else ParamLen

/-- `checkParamPresent`: the length of the parameter at `offset` if it is there, else `-1`. -/
def checkParamPresent (msgBuf : Buffer UInt8) (offset : ℕ) (totalRead : ℤ) : ℤ :=
  if totalRead > SAP_PARAM_HEADER_SIZE then
    let TotalLeft := totalRead - SAP_PARAM_HEADER_SIZE
    let ParamLen := paddedLen (msgBuf.getShort (offset + SAP_MSG_OFF_PARAM_LEN))
    if TotalLeft ≥ ParamLen then SAP_PARAM_HEADER_SIZE + ParamLen else -1
  else -1

/-- The loop of `checkCompleteRequest`; `none` is a loop without end. -/
def checkParams (msgBuf : Buffer UInt8) : ℕ → ℕ → ℤ → Option Bool
  | 0, _, _ => some true
  | NumParameters + 1, offset, TotalLeft =>
    let TotalParamLen := checkParamPresent msgBuf offset TotalLeft
    if TotalParamLen < 0 then some false
    else if TotalLeft ≥ TotalParamLen then
      checkParams msgBuf NumParameters (offset + TotalParamLen.toNat) (TotalLeft - TotalParamLen)
    else none

/-- `checkCompleteRequest`: the `totalRead` bytes at `offset` hold a whole request. -/
def checkCompleteRequest (msgBuf : Buffer UInt8) (offset totalRead : ℕ) : Option Bool :=
  if totalRead ≥ SAP_HEADER_SIZE then
    let NumParameters := toByte (msgBuf (offset + SAP_MSG_OFF_NUM_PARAMS))
    -- the loop is left at once if the number is negative
    checkParams msgBuf NumParameters.toNat (offset + SAP_HEADER_SIZE) (totalRead - SAP_HEADER_SIZE)
  else some false

variable {b : Buffer UInt8} {off left : ℕ} {p : Param} {ps : List Param} {r : Request} {x : Bytes}

theorem checkParamPresent_le (b : Buffer UInt8) (off : ℕ) (left : ℤ) (h : 0 ≤ left) :
    checkParamPresent b off left ≤ left := by
  simp only [checkParamPresent]
  split_ifs <;> omega

/-- The check always comes to an end. -/
theorem checkParams_isSome (b : Buffer UInt8) (n off : ℕ) (left : ℤ) (h : 0 ≤ left) :
    (checkParams b n off left).isSome := by
  induction n generalizing off left with
  | zero => rfl
  | succ n ih =>
    have hle := checkParamPresent_le b off left h
    simp only [checkParams]
    split_ifs with hneg
    · rfl
    · exact ih _ _ (by omega)

theorem paddedLen_length (p : Param) :
    paddedLen p.value.length = p.value.length + p.padding.length := by
  have hp := p.length_padding
  rw [paddedLen]
  split_ifs <;> omega

/-- The length stands in the header. -/
theorem getShort_header (h : b.get off p.header.length = p.header) :
    b.getShort (off + SAP_MSG_OFF_PARAM_LEN) = p.value.length := by
  have hbytes : [b off, b (off + 1), b (off + 2), b (off + 3)] = p.header := h
  simp only [Param.header, toLE, List.reverse_cons, List.reverse_nil, List.nil_append,
    List.cons_append, List.cons.injEq] at hbytes
  have hshort := shortOf_toLE (v := p.value.length) rfl (by have := p.length_value; omega)
  rw [SAP_MSG_OFF_PARAM_LEN, Buffer.getShort, hbytes.2.2.1, hbytes.2.2.2.1, hshort]

/-- A parameter that starts in the buffer is found if all of it is there and more than its header
is. -/
theorem checkParamPresent_eq (h : b.get off left = (p.encode ++ x).take left) :
    checkParamPresent b off left = if 4 < left ∧ p.size ≤ left then (p.size : ℤ) else -1 := by
  have hhdr : (SAP_PARAM_HEADER_SIZE : ℤ) = 4 := rfl
  by_cases hleft : 4 < left
  · rw [Param.encode, List.append_assoc] at h
    obtain ⟨hhead, -⟩ := Buffer.get_of_append h (by rw [Param.length_header]; omega)
    simp only [checkParamPresent, getShort_header hhead, paddedLen_length, Param.size]
    split_ifs <;> omega
  · rw [checkParamPresent, if_neg (by omega), if_neg (by omega)]

/-- The last parameter is empty. -/
def lastEmpty : List Param → Bool
  | [] => false
  | [p] => p.value.isEmpty
  | _ :: q :: ps => lastEmpty (q :: ps)

/-- The number of bytes that have to be there for the parameters to be found: one more than they
have if the last one is empty. -/
def neededParams (ps : List Param) : ℕ := sizeParams ps + if lastEmpty ps then 1 else 0

theorem sizeParams_cons : sizeParams (p :: ps) = p.size + sizeParams ps := by
  rw [sizeParams, List.map_cons, List.sum_cons, sizeParams]

theorem four_le_size (p : Param) : 4 ≤ p.size := Nat.le_add_right _ _

theorem size_eq_four_iff : p.size = 4 ↔ p.value = [] := by
  have hp := p.length_padding
  rw [← List.length_eq_zero_iff, Param.size]
  omega

theorem neededParams_singleton_le_iff : neededParams [p] ≤ left ↔ 4 < left ∧ p.size ≤ left := by
  have h4 := four_le_size p
  have hiff := size_eq_four_iff (p := p)
  have hsize : sizeParams [p] = p.size := sizeParams_cons
  rw [neededParams, hsize]
  by_cases hp : p.value = []
  · have hs := hiff.2 hp
    simp only [lastEmpty, hp, List.isEmpty_nil, ↓reduceIte]
    omega
  · have hs := mt hiff.1 hp
    simp only [lastEmpty, List.isEmpty_eq_false_iff.2 hp, Bool.false_eq_true, ↓reduceIte]
    omega

theorem neededParams_cons_cons_le_iff {q : Param} :
    neededParams (p :: q :: ps) ≤ left ↔
      (4 < left ∧ p.size ≤ left) ∧ neededParams (q :: ps) ≤ left - p.size := by
  have hp := four_le_size p
  have hq := four_le_size q
  have hsize : sizeParams (p :: q :: ps) = p.size + sizeParams (q :: ps) := sizeParams_cons
  have hsize' : sizeParams (q :: ps) = q.size + sizeParams ps := sizeParams_cons
  have hlast : lastEmpty (p :: q :: ps) = lastEmpty (q :: ps) := rfl
  simp only [neededParams, hlast, hsize]
  omega

/-- The loop accepts the parameters exactly if enough bytes are there. -/
theorem checkParams_eq (h : b.get off left = (encodeParams ps ++ x).take left) :
    checkParams b ps.length off left = some (decide (neededParams ps ≤ left)) := by
  induction ps generalizing off left with
  | nil => simp [checkParams, neededParams, sizeParams, lastEmpty]
  | cons p ps ih =>
    rw [encodeParams, List.flatMap_cons, List.append_assoc] at h
    have hcheck := checkParamPresent_eq h
    have hiff : neededParams (p :: ps) ≤ left ↔
        (4 < left ∧ p.size ≤ left) ∧ neededParams ps ≤ left - p.size := by
      cases ps with
      | nil =>
        rw [neededParams_singleton_le_iff]
        exact (and_iff_left (Nat.zero_le _)).symm
      | cons q ps => exact neededParams_cons_cons_le_iff
    simp only [List.length_cons, checkParams, hcheck]
    by_cases hp : 4 < left ∧ p.size ≤ left
    · have hrest := (Buffer.get_of_append h (by rw [Param.length_encode]; exact hp.2)).2
      rw [Param.length_encode] at hrest
      have hcast : (left : ℤ) - p.size = (left - p.size : ℕ) := by omega
      rw [if_pos hp, if_neg (by omega), if_pos (by omega), Int.toNat_natCast, hcast, ih hrest]
      simp only [hiff, hp, and_self, true_and]
    · rw [if_neg hp, if_pos (by decide)]
      simp only [hiff, hp, false_and, decide_false]

/-- The number of bytes that have to be there for a request to be found complete. -/
def Request.needed (r : Request) : ℕ :=
  if r.params.length < 128 then 4 + neededParams r.params else 4

theorem toByte_ofNat {n : ℕ} (h : n ≤ 255) :
    (toByte (UInt8.ofNat n)).toNat = if n < 128 then n else 0 := by
  have hn : (UInt8.ofNat n).toNat = n := by
    rw [UInt8.toNat_ofNat']
    omega
  rw [toByte, hn]
  split_ifs <;> omega

/-- What the check makes of a buffer that starts with a request. -/
theorem checkCompleteRequest_eq (h : b.get off left = (r.encode ++ x).take left) :
    checkCompleteRequest b off left = some (decide (r.needed ≤ left)) := by
  by_cases h4 : 4 ≤ left
  swap
  · have hneed : ¬ r.needed ≤ left := by
      rw [Request.needed]
      split_ifs <;> omega
    rw [checkCompleteRequest, if_neg (show ¬ left ≥ SAP_HEADER_SIZE from h4), decide_eq_false hneed]
  rw [Request.encode, List.append_assoc] at h
  obtain ⟨hhead, hrest⟩ := Buffer.get_of_append h (by rw [Request.length_header]; exact h4)
  have hcount : b (off + 1) = UInt8.ofNat r.params.length := by
    have hbytes : [b off, b (off + 1), b (off + 2), b (off + 3)] = r.header := hhead
    simp only [Request.header, List.cons.injEq] at hbytes
    exact hbytes.2.1
  have hcast : (left : ℤ) - SAP_HEADER_SIZE = (left - 4 : ℕ) := by
    rw [SAP_HEADER_SIZE]
    omega
  rw [checkCompleteRequest, if_pos (show left ≥ SAP_HEADER_SIZE from h4)]
  simp only [SAP_MSG_OFF_NUM_PARAMS, hcount, toByte_ofNat r.length_params, hcast]
  by_cases hlt : r.params.length < 128
  · have hiff : r.needed ≤ left ↔ neededParams r.params ≤ left - 4 := by
      rw [Request.needed, if_pos hlt]
      omega
    rw [if_pos hlt, decide_eq_decide.2 hiff]
    exact checkParams_eq hrest
  · have hneed : r.needed ≤ left := by rwa [Request.needed, if_neg hlt]
    rw [if_neg hlt, decide_eq_true hneed]
    rfl

/-- Of a part of a request with fewer than 128 parameters it is known that it is not complete. -/
theorem lt_needed_iff (h : left < r.size) :
    left < r.needed ↔ left < 4 ∨ r.params.length < 128 := by
  rw [Request.size] at h
  rw [Request.needed]
  split_ifs with hlt
  · rw [neededParams]
    omega
  · omega

/-- A request of fewer than 128 parameters, the last of which is empty. -/
def Request.EndsEmpty (r : Request) : Prop := r.params.length < 128 ∧ lastEmpty r.params

instance (r : Request) : Decidable r.EndsEmpty := by unfold Request.EndsEmpty; infer_instance

/-- A whole request is known to be complete as soon as something follows it, and by itself unless
its last parameter is empty. -/
theorem needed_le_iff (h : r.size ≤ left) : r.needed ≤ left ↔ (left = r.size → ¬ r.EndsEmpty) := by
  have h4 : 4 ≤ r.size := Nat.le_add_right _ _
  have hsize : r.size = 4 + sizeParams r.params := rfl
  rw [Request.needed, Request.EndsEmpty]
  by_cases hlt : r.params.length < 128
  · by_cases he : lastEmpty r.params = true
    · simp only [hlt, he, neededParams, ↓reduceIte, and_self, not_true_eq_false, imp_false]
      omega
    · simp only [hlt, he, neededParams, ↓reduceIte, and_false, not_false_eq_true, implies_true,
        iff_true, Bool.false_eq_true]
      omega
  · simp only [hlt, ↓reduceIte, false_and, not_false_eq_true, implies_true, iff_true]
    omega

end Sap

end Msm8909w

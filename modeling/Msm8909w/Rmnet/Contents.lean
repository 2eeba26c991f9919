import Mathlib.Data.List.TakeDrop
import Msm8909w.Rmnet.Librmnetctl

/-!
# What requests and replies of the rmnet control library hold

The names a caller gives are copied to members of `RMNET_MAX_STR_LEN` bytes of the request, and the
members of a reply are handed to the caller.  Both directions have a check of the length after the
copy, `checkLen`, which lets a name of `RMNET_MAX_STR_LEN` bytes pass although the copy has lost its
last byte.

* `noTruncation_iff` : which names reach the kernel as they are,
* `exact_iff` : which replies make a query succeed exactly when it hands out what the reply holds.
-/

namespace Msm8909w

namespace Rmnet

/-! ### Strings in messages -/

/-- The member of the union at the offset holds the name and its terminator. -/
def Msg.Holds (m : Msg) (off : ℕ) (name : Bytes) : Prop :=
  slice m.data off (name.length + 1) = name ++ [0]

section

variable {m : Msg} {off o : ℕ} {name v : Bytes}

theorem Msg.Holds.text_eq (h : m.Holds off name) (hname : 0 ∉ name) : m.text off = name := by
  have hdrop : m.data.drop off = name ++ 0 :: (m.data.drop off).drop (name.length + 1) := by
    have hsplit := List.take_append_drop (name.length + 1) (m.data.drop off)
    rw [show (m.data.drop off).take (name.length + 1) = name ++ [0] from h] at hsplit
    rw [← hsplit]
    simp
  have hne : ∀ c ∈ name, decide (c ≠ 0) = true := by
    intro c hc
    exact decide_eq_true fun h0 => hname (h0 ▸ hc)
  rw [Msg.text, hdrop, List.takeWhile_append_of_pos hne]
  simp

/-- An assignment to another member leaves the name as it is. -/
theorem Msg.Holds.put (h : m.Holds off name) (hv : o + v.length ≤ rmnetNlDataMaxLen)
    (hd : off + (name.length + 1) ≤ o ∨ o + v.length ≤ off) : (m.put o v hv).Holds off name := by
  rw [Msg.Holds, Msg.put, slice_patch_of_disjoint (by rwa [m.length_data]) hd]
  exact h

theorem Msg.Holds.put32 (h : m.Holds off name) (v : UInt32) (hv : o + 4 ≤ rmnetNlDataMaxLen)
    (hd : off + (name.length + 1) ≤ o ∨ o + 4 ≤ off) : (m.put32 o v hv).Holds off name :=
  h.put _ (by rwa [length_toLE])

theorem Msg.Holds.put16 (h : m.Holds off name) (v : UInt16) (hv : o + 2 ≤ rmnetNlDataMaxLen)
    (hd : off + (name.length + 1) ≤ o ∨ o + 2 ≤ off) : (m.put16 o v hv).Holds off name :=
  h.put _ (by rwa [length_toLE])

theorem Msg.Holds.put8 (h : m.Holds off name) (v : UInt8) (hv : o + 1 ≤ rmnetNlDataMaxLen)
    (hd : off + (name.length + 1) ≤ o ∨ o + 1 ≤ off) : (m.put8 o v hv).Holds off name :=
  h.put _ hd

/-- What the copy leaves in the member, and the names that pass the check after it. -/
theorem putName_eq_ok {h : off + rmnetMaxStrLen ≤ rmnetNlDataMaxLen} {m' : Msg}
    (hput : m.putName off name h = .ok m') :
    name.length ≤ rmnetMaxStrLen ∧ m'.Holds off (name.take (rmnetMaxStrLen - 1)) ∧
      ∀ o n, m.Holds o n → off + rmnetMaxStrLen ≤ o ∨ o + (n.length + 1) ≤ off → m'.Holds o n := by
  unfold Msg.putName checkLen at hput
  split_ifs at hput with hlen
  obtain rfl := Except.ok.inj hput
  have hsize : (strlcpy name rmnetMaxStrLen).length ≤ rmnetMaxStrLen :=
    length_strlcpy_le (by decide)
  refine ⟨Nat.le_of_not_lt hlen, ?_, ?_⟩
  · have hlength : (strlcpy name rmnetMaxStrLen).length =
        (name.take (rmnetMaxStrLen - 1)).length + 1 := by
      simp [strlcpy]
    rw [Msg.Holds, ← hlength]
    exact slice_patch_same (by rw [m.length_data]; omega)
  · intro o n hn hd
    exact hn.put _ (by omega)

end

/-! ### The names in a request -/

/-- The names that are given to a function, with the places in the request that are meant for
them. -/
def ApiCall.names : ApiCall → List (ℕ × CStr)
  | associateNetworkDevice d _ => d.toList.map (0, ·)
  | getNetworkDeviceAssociated d _ => d.toList.map (0, ·)
  | setLinkEgressDataFormat _ _ _ d => d.toList.map (0, ·)
  | getLinkEgressDataFormat d _ _ _ => d.toList.map (0, ·)
  | setLinkIngressDataFormatTailspace _ _ d => d.toList.map (0, ·)
  | getLinkIngressDataFormatTailspace d _ _ => d.toList.map (0, ·)
  | setLogicalEpConfig _ _ d n => d.toList.map (0, ·) ++ n.toList.map (21, ·)
  | unsetLogicalEpConfig _ d => d.toList.map (0, ·)
  | getLogicalEpConfig _ d _ _ _ => d.toList.map (0, ·)
  | newVndPrefix _ _ p => p.toList.map (4, ·)
  | newVnd _ _ => []
  | getVndName _ _ _ => []
  | addDelVndTcFlow _ _ _ _ => []

/-- The request a call hands to `sendto`, if it comes so far. -/
def rmnetSent (errorCode : Bool) (api : Api) (env : Env) : Option Msg :=
  if errorCode && api.valid && env.requestBuf && env.responseBuf && env.sendto then
    (api.request env.stack).toOption
  else none

theorem sent_transact (env : Env) (s : Socket) (request : Msg) :
    (rmnetctlTransact env s request).sent =
      if env.requestBuf && env.responseBuf && env.sendto then some s.requests else none := by
  unfold rmnetctlTransact
  cases env.requestBuf with
  | false => rfl
  | true =>
    cases env.responseBuf with
    | false => rfl
    | true =>
      cases env.sendto with
      | false => rfl
      | true =>
        cases env.recvfrom with
        | false => rfl
        | true =>
          cases hq : s.unread with
          | nil =>
            simp only [List.nil_append, Bool.not_true, Bool.false_eq_true, if_false, Bool.and_self,
              if_true]
            split_ifs <;> rfl
          | cons r rs =>
            simp only [List.cons_append, Bool.not_true, Bool.false_eq_true, if_false, Bool.and_self,
              if_true]
            split_ifs <;> rfl

/-- The call records that a request has been sent exactly if there is one. -/
theorem sent_rmnetCall (errorCode : Bool) (api : Api) (env : Env) (s : Socket) :
    (rmnetCall errorCode api env s).2.sent =
      (rmnetSent errorCode api env).map fun _ => s.requests := by
  unfold rmnetCall rmnetSent
  cases hv : errorCode && api.valid with
  | false => rfl
  | true =>
    cases hreq : api.request env.stack with
    | error e => simp [Except.toOption]
    | ok request =>
      have hsent := sent_transact env s request
      simp only [Bool.not_true, Bool.false_eq_true, if_false, Bool.true_and, Except.toOption]
      cases hres : (rmnetctlTransact env s request).response with
      | error e =>
        rw [hsent]
        split_ifs <;> rfl
      | ok r =>
        rw [hsent]
        split_ifs <;> rfl

/-- A call that sends nothing does not succeed. -/
theorem returnCode_ne_success_of_sent {errorCode : Bool} {api : Api} {env : Env} {s : Socket}
    (h : rmnetSent errorCode api env = none) :
    (rmnetCall errorCode api env s).2.ret.returnCode ≠ .success := by
  intro hok
  obtain ⟨request, r, -, hres, hsent, -⟩ := rmnetCall_success hok
  obtain ⟨-, hs, -⟩ := response_eq_ok hres
  rw [sent_rmnetCall, h, hs] at hsent
  cases hsent

/-- Either the call reports an error and sends nothing, or the request holds the names as they were
given. -/
def NoTruncation (errorCode : Bool) (c : ApiCall) (env : Env) (s : Socket) : Prop :=
  match rmnetSent errorCode c.api env with
  | none => (rmnetCall errorCode c.api env s).2.ret.returnCode ≠ .success
  | some request => ∀ p ∈ c.names, request.text p.1 = p.2.1

/-- The prefix is cut short, or it is not sent at all because the device is freed. -/
def ApiCall.LosesPrefix : ApiCall → Prop
  | newVndPrefix _ flag (some p) =>
    flag = 1 ∧ p.1.length = rmnetMaxStrLen ∨ flag = 0 ∧ p.1 ≠ []
  | _ => False

section

variable {m request : Msg} {devName : Option CStr}

/-- The device name is copied as it is. -/
theorem holds_devName {off : ℕ} {h : off + rmnetMaxStrLen ≤ rmnetNlDataMaxLen}
    (hcheck : checkDevName devName = true) (hput : m.putName off (text devName) h = .ok request) :
    ∀ d ∈ devName, d.1.length < rmnetMaxStrLen ∧ request.Holds off d.1 := by
  intro d hd
  obtain rfl := Option.mem_def.1 hd
  have hlen : d.1.length < rmnetMaxStrLen := by simpa [checkDevName] using hcheck
  have hholds := (putName_eq_ok hput).2.1
  rw [text, Option.map_some, Option.getD_some, List.take_of_length_le (by omega)] at hholds
  exact ⟨hlen, hholds⟩

/-- The name is still there in the end if the further assignments do not touch it. -/
theorem text_of_putName {off : ℕ} {h : off + rmnetMaxStrLen ≤ rmnetNlDataMaxLen} {m' : Msg}
    (hcheck : checkDevName devName = true) (hput : m.putName off (text devName) h = .ok m')
    (hkeep : ∀ n : Bytes, n.length < 16 → m'.Holds off n → request.Holds off n) :
    ∀ p ∈ devName.toList.map (off, ·), request.text p.1 = p.2.1 := by
  intro p hp
  obtain ⟨d, hd, rfl⟩ := List.mem_map.1 hp
  obtain ⟨hlen, hholds⟩ := holds_devName hcheck hput d (Option.mem_toList.1 hd)
  exact (hkeep d.1 hlen hholds).text_eq d.2

theorem exists_of_bind {x : Except UInt16 Msg} {f : Msg → Except UInt16 Msg}
    (h : (x >>= f) = .ok request) : ∃ m', x = .ok m' ∧ f m' = .ok request := by
  cases x with
  | error e => cases h
  | ok m' => exact ⟨m', rfl, h⟩

end

/-- Requests without a prefix hold the names they are given. -/
theorem text_request {c : ApiCall} {m request : Msg} (hvalid : c.api.valid = true)
    (hreq : c.api.request m = .ok request) (hc : ∀ i n p, c ≠ .newVndPrefix i n (some p)) :
    ∀ p ∈ c.names, request.text p.1 = p.2.1 := by
  cases c with
  | associateNetworkDevice d a =>
    obtain ⟨hd, -⟩ := Bool.and_eq_true_iff.1 hvalid
    exact text_of_putName (h := by decide) hd hreq fun _ _ h => h
  | getNetworkDeviceAssociated d r =>
    obtain ⟨-, hd⟩ := Bool.and_eq_true_iff.1 hvalid
    exact text_of_putName (h := by decide) hd hreq fun _ _ h => h
  | setLinkEgressDataFormat f a k d =>
    obtain ⟨hd, -⟩ := Bool.and_eq_true_iff.1 hvalid
    obtain ⟨m', hput, hreq⟩ := exists_of_bind hreq
    obtain rfl := Except.ok.inj hreq
    refine text_of_putName hd hput fun n hn h => ?_
    exact ((h.put32 _ _ (.inl (by omega))).put16 _ _ (.inl (by omega))).put16 _ _ (.inl (by omega))
  | getLinkEgressDataFormat d f a k =>
    obtain ⟨-, hd⟩ := Bool.and_eq_true_iff.1 hvalid
    exact text_of_putName (h := by decide) hd hreq fun _ _ h => h
  | setLinkIngressDataFormatTailspace f t d =>
    obtain ⟨hd, -⟩ := Bool.and_eq_true_iff.1 hvalid
    obtain ⟨m', hput, hreq⟩ := exists_of_bind hreq
    obtain rfl := Except.ok.inj hreq
    refine text_of_putName hd hput fun n hn h => ?_
    exact (h.put32 _ _ (.inl (by omega))).put8 _ _ (.inl (by omega))
  | getLinkIngressDataFormatTailspace d f t =>
    exact text_of_putName (h := by decide) hvalid hreq fun _ _ h => h
  | setLogicalEpConfig e o d n =>
    simp only [ApiCall.api, rmnetSetLogicalEpConfig, Bool.and_eq_true] at hvalid
    obtain ⟨⟨⟨-, hd⟩, hn⟩, -⟩ := hvalid
    obtain ⟨m₁, hput₁, hreq⟩ := exists_of_bind hreq
    obtain ⟨m₂, hput₂, hreq⟩ := exists_of_bind hreq
    obtain rfl := Except.ok.inj hreq
    intro p hp
    rcases List.mem_append.1 hp with hp | hp
    · refine text_of_putName hd hput₁ (fun n hn h => ?_) p hp
      have h₂ := (putName_eq_ok hput₂).2.2 0 n h (.inr (by omega))
      exact (h₂.put32 _ _ (.inl (by omega))).put8 _ _ (.inl (by omega))
    · refine text_of_putName hn hput₂ (fun n hn h => ?_) p hp
      exact (h.put32 _ _ (.inr (by omega))).put8 _ _ (.inr (by omega))
  | unsetLogicalEpConfig e d =>
    obtain ⟨-, hd⟩ := Bool.and_eq_true_iff.1 hvalid
    obtain ⟨m', hput, hreq⟩ := exists_of_bind hreq
    obtain rfl := Except.ok.inj hreq
    exact text_of_putName hd hput fun n hn h => h.put32 _ _ (.inl (by omega))
  | getLogicalEpConfig e d o n l =>
    have hd : checkDevName d = true := by
      simp only [ApiCall.api, rmnetGetLogicalEpConfig, Bool.and_eq_true] at hvalid
      exact hvalid.1.1.2
    obtain ⟨m', hput, hreq⟩ := exists_of_bind hreq
    obtain rfl := Except.ok.inj hreq
    exact text_of_putName hd hput fun n hn h => h.put32 _ _ (.inl (by omega))
  | newVndPrefix i n p =>
    cases p with
    | none => exact fun p hp => absurd hp List.not_mem_nil
    | some p => exact absurd rfl (hc i n p)
  | newVnd i n => exact fun p hp => absurd hp List.not_mem_nil
  | getVndName i b l => exact fun p hp => absurd hp List.not_mem_nil
  | addDelVndTcFlow i f t s => exact fun p hp => absurd hp List.not_mem_nil

/-- What becomes of the prefix of a new device. -/
theorem text_newVnd {id : UInt32} {p : CStr} {m request : Msg}
    (hreq : (rmnetNewVndPrefix id 1 (some p)).request m = .ok request) :
    p.1.length ≤ rmnetMaxStrLen ∧ request.text 4 = p.1.take (rmnetMaxStrLen - 1) := by
  obtain ⟨m', hput, hreq⟩ := exists_of_bind hreq
  obtain rfl := Except.ok.inj hreq
  obtain ⟨hlen, hholds, -⟩ :=
    putName_eq_ok (h := by decide) (show Msg.putName _ 4 p.1 _ = _ from hput)
  refine ⟨hlen, (hholds.put32 _ _ (.inr (by decide))).text_eq ?_⟩
  intro hmem
  exact p.2 (List.mem_of_mem_take hmem)

/-- A prefix that is too long by more than one byte is noticed. -/
theorem request_newVnd_eq_error {id : UInt32} {p : CStr} {m : Msg}
    (hlen : rmnetMaxStrLen < p.1.length) :
    (rmnetNewVndPrefix id 1 (some p)).request m = .error apiErrStringTruncation := by
  simp [rmnetNewVndPrefix, Msg.putName, checkLen, hlen]

/-- The member for the name after it has been set to zero. -/
theorem holds_memset {m : Msg}
    (h : 4 + (List.replicate rmnetMaxStrLen 0).length ≤ rmnetNlDataMaxLen)
    (messageType : MessageType) (argLength : UInt16) :
    ((m.put 4 (List.replicate rmnetMaxStrLen 0) h).start messageType argLength).Holds 4 [] := by
  have hsame : slice (patch m.data 4 (List.replicate rmnetMaxStrLen 0)) 4
      (List.replicate rmnetMaxStrLen (0 : UInt8)).length = List.replicate rmnetMaxStrLen 0 :=
    slice_patch_same (by rw [m.length_data]; exact h)
  calc slice (patch m.data 4 (List.replicate rmnetMaxStrLen 0)) (4 + 0) 1
      = slice (slice (patch m.data 4 (List.replicate rmnetMaxStrLen 0)) 4
          (List.replicate rmnetMaxStrLen (0 : UInt8)).length) 0 1 :=
        (slice_slice (by decide)).symm
    _ = [0] := by
        rw [hsame]
        rfl

/-- The request to free a device has no prefix. -/
theorem text_freeVnd {id : UInt32} {p : Option CStr} {m request : Msg}
    (hreq : (rmnetNewVndPrefix id 0 p).request m = .ok request) : request.text 4 = [] := by
  obtain rfl := Except.ok.inj hreq
  exact ((holds_memset _ _ _).put32 _ _ (.inr (by decide))).text_eq (by decide)

theorem rmnetSent_eq_some {errorCode : Bool} {api : Api} {env : Env} {request : Msg} :
    rmnetSent errorCode api env = some request ↔
      (errorCode = true ∧ env.requestBuf = true ∧ env.responseBuf = true ∧ env.sendto = true) ∧
        api.valid = true ∧ api.request env.stack = .ok request := by
  unfold rmnetSent
  cases hreq : api.request env.stack with
  | error e => simp [Except.toOption]
  | ok m =>
    simp only [Except.toOption, Option.ite_none_right_eq_some, Bool.and_eq_true, Option.some.injEq,
      Except.ok.injEq]
    tauto

/-- A call that loses its prefix is not refused. -/
theorem ApiCall.LosesPrefix.request {c : ApiCall} (h : c.LosesPrefix) (m : Msg) :
    c.api.valid = true ∧ ∃ request, c.api.request m = .ok request := by
  cases c with
  | newVndPrefix i n p =>
    cases p with
    | none => exact h.elim
    | some p =>
      rcases h with ⟨rfl, hlen⟩ | ⟨rfl, -⟩
      · refine ⟨rfl, ?_⟩
        simp [ApiCall.api, rmnetNewVndPrefix, Msg.putName, checkLen, hlen]
      · exact ⟨rfl, _, rfl⟩
  | _ => exact h.elim

/-- The request of a valid call holds the names exactly if the prefix is not lost. -/
theorem text_request_iff {c : ApiCall} {m request : Msg} (hvalid : c.api.valid = true)
    (hreq : c.api.request m = .ok request) :
    (∀ p ∈ c.names, request.text p.1 = p.2.1) ↔ ¬ c.LosesPrefix := by
  by_cases hc : ∃ i n p, c = .newVndPrefix i n (some p)
  · obtain ⟨i, n, p, rfl⟩ := hc
    have hnames : (∀ q ∈ (ApiCall.newVndPrefix i n (some p)).names, request.text q.1 = q.2.1) ↔
        request.text 4 = p.1 := by
      simp [ApiCall.names]
    rw [hnames]
    have hn : n = 1 ∨ n = 0 := by simpa [ApiCall.api, rmnetNewVndPrefix] using hvalid
    rcases hn with rfl | rfl
    · obtain ⟨hlen, htext⟩ := text_newVnd hreq
      rw [htext, List.take_eq_self_iff]
      simp only [ApiCall.LosesPrefix, rmnetMaxStrLen] at hlen ⊢
      simp
      omega
    · rw [text_freeVnd (p := some p) hreq]
      simp [ApiCall.LosesPrefix, eq_comm]
  · have hne : ∀ i n p, c ≠ .newVndPrefix i n (some p) :=
      fun i n p hcp => hc ⟨i, n, p, hcp⟩
    refine iff_of_true (text_request hvalid hreq hne) ?_
    intro hl
    cases c with
    | newVndPrefix i n p =>
      cases p with
      | none => exact hl
      | some p => exact hne i n p rfl
    | _ => exact hl

/-- The functions that ask the kernel for data. -/
def ApiCall.IsGetter : ApiCall → Prop
  | getNetworkDeviceAssociated _ _ => True
  | getLinkEgressDataFormat _ _ _ _ => True
  | getLinkIngressDataFormatTailspace _ _ _ => True
  | getLogicalEpConfig _ _ _ _ _ => True
  | getVndName _ _ _ => True
  | _ => False

/-- The string in a member of `RMNET_MAX_STR_LEN` bytes of the reply. -/
def Msg.name (m : Msg) (off : ℕ) : Bytes := (slice m.data off rmnetMaxStrLen).takeWhile (· ≠ 0)

/-- The string of the reply and its terminator fit the buffer of the caller. -/
def ApiCall.Fits (r : Msg) : ApiCall → Prop
  | getLogicalEpConfig _ _ _ _ nextDevLen => (r.name 21).length < nextDevLen.toNat
  | getVndName _ _ buflen => (r.name 4).length < buflen.toNat
  | _ => True

/-- The members of the reply, for the pointers that are not null. -/
def ApiCall.fields (r : Msg) : ApiCall → Outputs
  | getNetworkDeviceAssociated _ registerStatus =>
    { registerStatus := if registerStatus then some r.code else none }
  | getLinkEgressDataFormat _ egressFlags aggSize aggCount => {
      flags := if egressFlags then some (.ofNat (r.get 16 4)) else none
      aggSize := if aggSize then some (.ofNat (r.get 20 2)) else none
      aggCount := if aggCount then some (.ofNat (r.get 22 2)) else none }
  | getLinkIngressDataFormatTailspace _ ingressFlags tailSpacing => {
      flags := if ingressFlags then some (.ofNat (r.get 16 4)) else none
      tailSpacing := if tailSpacing then some (.ofNat (r.get 24 1)) else none }
  | getLogicalEpConfig _ _ operatingMode nextDev _ => {
      operatingMode := if operatingMode then some (.ofNat (r.get 20 1)) else none
      nextDev := if nextDev then some (r.name 21 ++ [0]) else none }
  | getVndName _ buf _ => { vndName := if buf then some (r.name 4 ++ [0]) else none }
  | _ => {}

/-- The reply has data that can be handed out. -/
def ApiCall.HasData (c : ApiCall) (r : Msg) : Prop := r.crd = msgReturndata ∧ c.Fits r

/-- The call succeeds exactly if the reply has data, and then hands out all of it; else it reports
an error and hands out nothing. -/
structure Exact (c : ApiCall) (r : Msg) (ret : Ret) : Prop where
  success : ret.returnCode = .success ↔ c.HasData r
  outputs : c.HasData r → ret.outputs = c.fields r
  errorCode : ¬ c.HasData r → ∃ e, ret.errorCode = some e ∧ e ≠ 0
  no_outputs : ¬ c.HasData r → ret.outputs = {}

/-- A return code in the place of data is an error, and it stays one when
`RMNETCTL_KERNEL_FIRST_ERR` is added. -/
def IsError (code : UInt16) : Prop := code ≠ configOk ∧ code ≠ 65521

/-- A name in the reply ends in its member and is shorter than the buffer.  The name of a virtual
device may fill its member. -/
def ApiCall.NameFits (r : Msg) : ApiCall → Prop
  | getLogicalEpConfig _ _ _ _ nextDevLen =>
    (r.text 21).length < rmnetMaxStrLen ∧ (r.text 21).length < nextDevLen.toNat
  | getVndName _ _ buflen =>
    (r.text 4).length ≤ rmnetMaxStrLen ∧ (r.text 4).length < buflen.toNat
  | _ => True

theorem name_eq_take (m : Msg) (off : ℕ) : m.name off = (m.text off).take rmnetMaxStrLen := by
  rw [Msg.name, Msg.text, slice, List.take_takeWhile]

section

variable {c : ApiCall} {r : Msg} {ret : Ret}

/-- What is left to say of a reply with data. -/
theorem exact_iff_of_hasData (h : c.HasData r) :
    Exact c r ret ↔ ret.returnCode = .success ∧ ret.outputs = c.fields r :=
  ⟨fun he => ⟨he.success.2 h, he.outputs h⟩, fun hr =>
    ⟨iff_of_true hr.1 h, fun _ => hr.2, fun hn => absurd h hn, fun hn => absurd h hn⟩⟩

/-- What is left to say of a reply without data. -/
theorem exact_iff_of_not_hasData (h : ¬ c.HasData r) :
    Exact c r ret ↔ ret.returnCode ≠ .success ∧ (∃ e, ret.errorCode = some e ∧ e ≠ 0) ∧
      ret.outputs = {} :=
  ⟨fun he => ⟨fun hs => h (he.success.1 hs), he.errorCode h, he.no_outputs h⟩, fun hr =>
    ⟨iff_of_false hr.1 h, fun hd => absurd hd h, fun _ => hr.2.1, fun _ => hr.2.2⟩⟩

theorem exact_setCodes (h : ¬ c.HasData r) (errorCode : UInt16) :
    Exact c r (setCodes r.code errorCode) ↔ IsError r.code := by
  rw [exact_iff_of_not_hasData h]
  unfold setCodes IsError
  by_cases hok : r.code = configOk
  · simp [hok]
  · have hwrap : r.code + kernelFirstErr = 0 ↔ r.code = 65521 := by
      rw [← UInt16.toNat_inj, ← UInt16.toNat_inj]
      have := r.code.toNat_lt
      simp only [kernelFirstErr, UInt16.toNat_add, UInt16.reduceToNat]
      omega
    simp [hok, hwrap]

/-- The three kinds of replies. -/
theorem exact_finishData
    (hfinish : r.crd ≠ msgReturndata → c.api.finish r =
      if r.crd = msgReturncode then setCodes r.code apiErrReturnType
      else ⟨.libErr, some apiErrReturnType, {}⟩)
    (hdeliver : r.crd = msgReturndata → (Exact c r (c.api.finish r) ↔ c.NameFits r)) :
    Exact c r (c.api.finish r) ↔
      (r.crd = msgReturncode → IsError r.code) ∧ (r.crd = msgReturndata → c.NameFits r) := by
  by_cases hdata : r.crd = msgReturndata
  · rw [hdeliver hdata]
    have hcode : r.crd ≠ msgReturncode := by
      rw [hdata]
      decide
    exact ⟨fun h => ⟨fun hc => absurd hc hcode, fun _ => h⟩, fun h => h.2 hdata⟩
  · have hno : ¬ c.HasData r := fun h => hdata h.1
    rw [hfinish hdata]
    by_cases hcode : r.crd = msgReturncode
    · rw [if_pos hcode, exact_setCodes hno]
      exact ⟨fun h => ⟨fun _ => h, fun hd => absurd hd hdata⟩, fun h => h.1 hcode⟩
    · rw [if_neg hcode, exact_iff_of_not_hasData hno]
      refine iff_of_true ⟨?_, ⟨apiErrReturnType, rfl, ?_⟩, rfl⟩
        ⟨fun hc => absurd hc hcode, fun hd => absurd hd hdata⟩
      · exact fun h => ReturnCode.noConfusion h
      · decide

/-- A query for numbers. -/
theorem exact_numbers (hfinish : c.api.finish r = finishData (fun r => delivered (c.fields r)) r)
    (hfits : c.Fits r) (hname : c.NameFits r) :
    Exact c r (c.api.finish r) ↔
      (r.crd = msgReturncode → IsError r.code) ∧ (r.crd = msgReturndata → c.NameFits r) := by
  refine exact_finishData (fun hdata => hfinish.trans (if_neg hdata)) fun hdata => ?_
  rw [exact_iff_of_hasData ⟨hdata, hfits⟩, hfinish, finishData, if_pos hdata]
  exact iff_of_true ⟨rfl, rfl⟩ hname

/-- The name of the next device is handed out in full exactly if it ends in its member and is
shorter than the buffer: longer names are cut and nothing says so, or the error comes after the
copy. -/
theorem exact_getLogicalEpConfig {epId : Int32} {devName : Option CStr} {nextDevLen : UInt32}
    (hlen : nextDevLen ≠ 0) (hdata : r.crd = msgReturndata) :
    Exact (.getLogicalEpConfig epId devName true true nextDevLen) r
        ((rmnetGetLogicalEpConfig epId devName true true nextDevLen).finish r) ↔
      ApiCall.NameFits r (.getLogicalEpConfig epId devName true true nextDevLen) := by
  have hpos : 0 < nextDevLen.toNat := Nat.pos_of_ne_zero fun h0 => hlen (UInt32.toNat_inj.1 h0)
  have hmax : rmnetMaxStrLen = 16 := rfl
  have hname := name_eq_take r 21
  simp only [rmnetGetLogicalEpConfig, finishData, if_pos hdata, checkLen, ApiCall.NameFits]
  by_cases hfits : ApiCall.Fits r (.getLogicalEpConfig epId devName true true nextDevLen)
  · rw [exact_iff_of_hasData ⟨hdata, hfits⟩]
    simp only [ApiCall.Fits, hname, List.length_take] at hfits
    split_ifs with hlong
    · refine iff_of_false ?_ fun h => absurd h.1 (by omega)
      exact fun h => nomatch h.1
    · have hcopied : strlcpy (r.text 21) (min rmnetMaxStrLen nextDevLen.toNat) = r.name 21 ++ [0] ↔
          (r.text 21).length < rmnetMaxStrLen ∧ (r.text 21).length < nextDevLen.toNat := by
        rw [strlcpy, hname, List.append_left_inj, List.take_eq_take_iff]
        omega
      rw [← hcopied]
      simp [delivered, ApiCall.fields]
  · rw [exact_iff_of_not_hasData fun h => hfits h.2]
    simp only [ApiCall.Fits, hname, List.length_take] at hfits
    refine iff_of_false ?_ fun h => absurd h (by omega)
    intro h
    split_ifs at h with hlong
    · exact Option.some_ne_none _ (congrArg Outputs.nextDev h.2.2)
    · exact h.1 rfl

/-- The name of a virtual device is handed out in full exactly if it does not run over its member
and is shorter than the buffer. -/
theorem exact_getVndName {id buflen : UInt32} (hdata : r.crd = msgReturndata) :
    Exact (.getVndName id true buflen) r ((rmnetGetVndName id true buflen).finish r) ↔
      ApiCall.NameFits r (.getVndName id true buflen) := by
  have hmax : rmnetMaxStrLen = 16 := rfl
  have hname := name_eq_take r 4
  simp only [rmnetGetVndName, finishData, if_pos hdata, ApiCall.NameFits]
  by_cases hfits : ApiCall.Fits r (.getVndName id true buflen)
  · rw [exact_iff_of_hasData ⟨hdata, hfits⟩]
    simp only [ApiCall.Fits, hname, List.length_take] at hfits
    split_ifs with hlong
    · refine iff_of_false ?_ fun h => absurd h.2 (by omega)
      exact fun h => nomatch h.1
    · have hcopied : strlcpy (r.text 4) buflen.toNat = r.name 4 ++ [0] ↔
          (r.text 4).length ≤ rmnetMaxStrLen ∧ (r.text 4).length < buflen.toNat := by
        rw [strlcpy, hname, List.append_left_inj, List.take_eq_take_iff]
        omega
      rw [← hcopied]
      simp [delivered, ApiCall.fields]
  · rw [exact_iff_of_not_hasData fun h => hfits h.2]
    simp only [ApiCall.Fits, hname, List.length_take] at hfits
    refine iff_of_false ?_ fun h => absurd h (by omega)
    intro h
    split_ifs at h with hlong
    · exact Option.some_ne_none _ (congrArg Outputs.vndName h.2.2)
    · exact h.1 rfl

end

/-- What a query makes of a reply. -/
theorem exact_finish {c : ApiCall} {r : Msg} (hc : c.IsGetter) (hvalid : c.api.valid = true) :
    Exact c r (c.api.finish r) ↔
      (r.crd = msgReturncode → IsError r.code) ∧ (r.crd = msgReturndata → c.NameFits r) := by
  cases c with
  | getNetworkDeviceAssociated d s =>
    obtain ⟨rfl, -⟩ := Bool.and_eq_true_iff.1 hvalid
    exact exact_numbers rfl trivial trivial
  | getLinkEgressDataFormat d f a k =>
    simp only [ApiCall.api, rmnetGetLinkEgressDataFormat, Bool.and_eq_true] at hvalid
    obtain ⟨⟨⟨rfl, rfl⟩, rfl⟩, -⟩ := hvalid
    exact exact_numbers rfl trivial trivial
  | getLinkIngressDataFormatTailspace d f t =>
    exact exact_numbers rfl trivial trivial
  | getLogicalEpConfig e d o n l =>
    simp only [ApiCall.api, rmnetGetLogicalEpConfig, Bool.and_eq_true, bne_iff_ne] at hvalid
    obtain ⟨⟨⟨⟨rfl, -⟩, -⟩, rfl⟩, hlen⟩ := hvalid
    exact exact_finishData (fun hdata => if_neg hdata) fun hdata =>
      exact_getLogicalEpConfig hlen hdata
  | getVndName i b l =>
    obtain ⟨rfl, -⟩ := Bool.and_eq_true_iff.1 hvalid
    exact exact_finishData (fun hdata => if_neg hdata) fun hdata => exact_getVndName hdata
  | _ => exact hc.elim

/-- **Queries succeed exactly when they hand out data**: for every reply of the right type, unless
the kernel sends the return code of a success in the place of data, or a return code that wraps
around to zero, or a name that does not fit its member or the buffer. -/
theorem exact_iff (c : ApiCall) (env : Env) (s : Socket) (request : Msg) (r : Reply)
    (hc : c.IsGetter) (hvalid : c.api.valid = true) (hreq : c.api.request env.stack = .ok request)
    (hreply : (rmnetctlTransact env s request).response = .ok r) :
    Exact c r.msg (rmnetCall true c.api env s).2.ret ↔
      (r.msg.crd = msgReturncode → IsError r.msg.code) ∧
        (r.msg.crd = msgReturndata → c.NameFits r.msg) := by
  have hret : (rmnetCall true c.api env s).2.ret = c.api.finish r.msg := by
    simp [rmnetCall, hvalid, hreq, hreply]
  rw [hret]
  exact exact_finish hc hvalid

/-- A reply with a name of six letters. -/
def nameReply (messageType : MessageType) (off : ℕ) (h : off + 6 ≤ rmnetNlDataMaxLen) : Msg :=
  (sampleMsg messageType.code msgReturndata 0).put off (ascii "rmnet0") h

/-- A buffer of sixteen bytes is enough for the name of the device. -/
theorem exact_vnd_name :
    Exact (.getVndName 0 true 16) (nameReply .getVndName 4 (by decide))
      (rmnetCall true (ApiCall.getVndName 0 true 16).api
        { stack := sampleMsg 0 0 0, reply := nameReply .getVndName 4 (by decide) } {}).2.ret :=
  (exact_iff (.getVndName 0 true 16)
    { stack := sampleMsg 0 0 0, reply := nameReply .getVndName 4 (by decide) } {} _
    ⟨0, 0, nameReply .getVndName 4 (by decide)⟩ trivial rfl rfl rfl).2
    ⟨fun h => absurd h (by decide), fun _ => ⟨by decide, by decide⟩⟩

/-- With a buffer of four bytes the query for the next device succeeds and hands out three letters
of six. -/
theorem next_dev_cut_short :
    ∃ c env request r, ApiCall.IsGetter c ∧ c.api.valid = true ∧
      c.api.request env.stack = .ok request ∧
      (rmnetctlTransact env {} request).response = .ok r ∧
      (rmnetCall true c.api env {}).2.ret.outputs.nextDev = some (ascii "rmn" ++ [0]) ∧
      ¬ Exact c r.msg (rmnetCall true c.api env {}).2.ret := by
  refine ⟨.getLogicalEpConfig 0 (some ⟨ascii "rmnet_usb0", by decide⟩) true true 4,
    { stack := sampleMsg 0 0 0, reply := nameReply .getLogicalEpConfig 21 (by decide) }, _,
    ⟨0, 0, nameReply .getLogicalEpConfig 21 (by decide)⟩, trivial, rfl, rfl, rfl, ?_, ?_⟩
  · decide
  · intro h
    have hdata := h.success.1 (by decide)
    have hfits : ((nameReply .getLogicalEpConfig 21 (by decide)).name 21).length < 4 := hdata.2
    exact absurd hfits (by decide)

end Rmnet

end Msm8909w

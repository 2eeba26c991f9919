import Msm8909w.Ftp.Download

/-!
# The contents of a file on their way from the client

The loop of `onPutInternal` of `BluetoothFtpObexServer.java` ends at the length that the client has
announced, at the end of the body, at an abort, and at an error.  Without a length it is not entered
at all.  An abort that the loop sees resets `sIsAborted`, which is all that the code behind the loop
looks at.

* `receive`, `onPut` : the code; `onPut` puts the loop into `Server.onPutInternal`,
* `Stops u k` : the loop stops at the turn `k`, in terms of what arrives,
* `receive_spec` : what has been written then,
* `sound_iff` : exactly when an upload that is answered with `OBEX_HTTP_OK` is complete, and an
  interrupted one leaves no part of a file.
-/

namespace Msm8909w

namespace Ftp

open Map (JString js)

/-! ### The code -/

/-- What a read of the body comes back with, and whether it can be written to the file. -/
inductive Read
  | bytes (buff : Bytes) (written : Bool)
  | fails
  deriving DecidableEq, Repr

/-- A turn of the loop: `sIsAborted` may have been set since it was looked at last. -/
structure Turn where
  abort : Bool
  read : Read
  deriving DecidableEq, Repr

/-- The bytes of the body that arrive in a turn. -/
def Turn.arriving (t : Turn) : Bytes :=
  match t.read with
  | .bytes buff _ => buff
  | .fails => []

/-- The turn goes through. -/
def Turn.Ordinary (t : Turn) : Prop := t.abort = false ∧ ∃ buff, t.read = .bytes buff true

/-- How a body arrives.  Behind the last turn comes its end. -/
structure Upload where
  turns : List Turn
  /-- The part of the body that never arrives. -/
  unsent : Bytes
  /-- `sIsAborted` is set behind the loop. -/
  lateAbort : Bool
  /-- Closing the file fails, with so many bytes in the file. -/
  unclosed : Option ℕ
  /-- `closeStream`. -/
  closeStream : Bool
  unsent_eq : (∀ t ∈ turns, t.abort = false ∧ t.read ≠ .fails) → unsent = []

/-- Why the loop has ended. -/
inductive Ending
  | done
  | aborted
  | failed
  deriving DecidableEq, Repr

/-- The loop of `onPutInternal`: why it ends, and what has been written. -/
def receive (length : ℤ) : ℤ → Bytes → List Turn → Ending × Bytes
  | _, written, [] => (.done, written)
  | positioninfile, written, t :: turns =>
    if positioninfile = length then (.done, written)
    else if t.abort then (.aborted, written)
    else match t.read with
      | .bytes buff true =>
        receive length (toInt (positioninfile + buff.length)) (written ++ buff) turns
      | _ => (.failed, written)

namespace Upload

variable (u : Upload) (length : ℤ)

/-- The body as the client has it. -/
def body : Bytes := u.turns.flatMap Turn.arriving ++ u.unsent

/-- `sIsAborted` behind the loop.  An abort that the loop has seen resets it. -/
def flagged : Bool := (receive length 0 [] u.turns).1 = .failed ∨ u.lateAbort

/-- How the contents have been received. -/
def received : Received :=
  if u.unclosed ≠ none then .unclosed
  else if u.flagged length then .aborted
  else if !u.closeStream then .unclosed
  else .complete

/-- What is in the file that has been written. -/
def file : Bytes :=
  match u.unclosed with
  | some n => (receive length 0 [] u.turns).2.take n
  | none => (receive length 0 [] u.turns).2

/-- The transfer was aborted, or something failed. -/
def Interrupted : Prop :=
  (receive length 0 [] u.turns).1 ≠ .done ∨ u.lateAbort ∨ u.unclosed ≠ none ∨ u.closeStream = false

end Upload

/-- `extractLength`; without the header it is 0. -/
def extractLength (headers : Option Headers) : ℤ := (headers.bind (·.length)).getD 0

/-- The last that was done is to open a file for writing. -/
def leavesFile (accesses : List Access) : Bool :=
  match accesses.getLast? with
  | some access => access.op = .create ∨ access.op = .overwrite
  | none => false

namespace Server

variable (s : Server) (env : Env) (headers : Option Headers) (opened : Bool) (u : Upload)

/-- A PUT request: the answer, and what is in the file that it leaves. -/
def onPut : Response × Option Bytes :=
  let reply := s.onPutInternal env headers opened (u.received (extractLength headers))
  (reply.response,
    if leavesFile reply.accesses then some (u.file (extractLength headers)) else none)

/-- An accepted upload is complete, and an interrupted one is neither accepted nor leaves a part of
a file. -/
def SoundPut : Prop :=
  ((s.onPut env headers opened u).1 = .OBEX_HTTP_OK →
    (s.onPut env headers opened u).2 = some u.body) ∧
  (u.Interrupted (extractLength headers) → (s.onPut env headers opened u).1 ≠ .OBEX_HTTP_OK ∧
    ∀ file, (s.onPut env headers opened u).2 = some file → file = u.body)

/-- The file that is opened for writing, if the checks let the request through. -/
def target : Option Access :=
  let reply := s.onPutInternal env headers opened .complete
  if reply.response = .OBEX_HTTP_OK then reply.accesses.getLast? else none

end Server

/-! ### Where the loop stops -/

section Stops

variable (length : ℤ) (written : Bytes) (turns : List Turn) (k : ℕ)

/-- What has been written before the turn `k`, if all turns before it go through. -/
def arrived : Bytes := written ++ (turns.take k).flatMap Turn.arriving

/-- The length is met before the turn `k`. -/
def Met : Prop := toInt (arrived written turns k).length = length

/-- The loop stops at the turn `k`: the length is met, the body is at its end, or the turn does not
go through. -/
structure Stops : Prop where
  le : k ≤ turns.length
  ordinary : ∀ t ∈ turns.take k, t.Ordinary
  not_met : ∀ j < k, ¬ Met length written turns j
  stop : Met length written turns k ∨ ∀ t, turns[k]? = some t → ¬ t.Ordinary

/-- It stops because of an abort. -/
def AbortedAt : Prop :=
  ¬ Met length written turns k ∧ ∃ t, turns[k]? = some t ∧ t.abort = true

/-- It stops because of an error. -/
def FailedAt : Prop :=
  ¬ Met length written turns k ∧ ∃ t, turns[k]? = some t ∧ t.abort = false ∧ ¬ t.Ordinary

variable {length written turns k} {k' : ℕ} {t : Turn} {buff : Bytes}

theorem arrived_zero : arrived written turns 0 = written := by
  simp [arrived]

theorem arrived_cons_succ :
    arrived written (t :: turns) (k + 1) = arrived (written ++ t.arriving) turns k := by
  simp [arrived]

theorem met_cons_succ :
    Met length written (t :: turns) (k + 1) ↔ Met length (written ++ t.arriving) turns k := by
  rw [Met, Met, arrived_cons_succ]

/-- The loop stops once. -/
theorem Stops.le_of_stops (h : Stops length written turns k) (h' : Stops length written turns k') :
    k' ≤ k := by
  by_contra hlt
  rcases h.stop with hmet | hturn
  · exact h'.not_met k (by omega) hmet
  · have hle := h'.le
    have hk : k < turns.length := by omega
    refine hturn _ (List.getElem?_eq_getElem hk) (h'.ordinary _ ?_)
    exact List.mem_take_iff_getElem.2 ⟨k, by omega, rfl⟩

theorem Stops.unique (h : Stops length written turns k) (h' : Stops length written turns k') :
    k = k' :=
  Nat.le_antisymm (h'.le_of_stops h) (h.le_of_stops h')

/-- After a turn that goes through. -/
theorem Stops.cons (ht : t.Ordinary) (hmet : ¬ Met length written (t :: turns) 0)
    (h : Stops length (written ++ t.arriving) turns k) :
    Stops length written (t :: turns) (k + 1) where
  le := Nat.succ_le_succ h.le
  ordinary := by
    rw [List.take_succ_cons]
    exact List.forall_mem_cons.2 ⟨ht, h.ordinary⟩
  not_met := by
    intro j hj
    cases j with
    | zero => exact hmet
    | succ j =>
      rw [met_cons_succ]
      exact h.not_met j (by omega)
  stop := by
    rw [met_cons_succ]
    exact h.stop

theorem stops_zero (h : Met length written turns 0 ∨ ∀ t, turns[0]? = some t → ¬ t.Ordinary) :
    Stops length written turns 0 where
  le := Nat.zero_le _
  ordinary := nofun
  not_met := nofun
  stop := h

/-- How the loop ends. -/
theorem receive_spec (length : ℤ) (written : Bytes) (turns : List Turn) :
    ∃ k, Stops length written turns k ∧
      (receive length (toInt written.length) written turns).2 = arrived written turns k ∧
      ((receive length (toInt written.length) written turns).1 = .aborted ↔
        AbortedAt length written turns k) ∧
      ((receive length (toInt written.length) written turns).1 = .failed ↔
        FailedAt length written turns k) := by
  induction turns generalizing written with
  | nil =>
    refine ⟨0, stops_zero (.inr nofun), arrived_zero.symm, ?_, ?_⟩
    · simp [receive, AbortedAt]
    · simp [receive, FailedAt]
  | cons t turns ih =>
    have hzero : Met length written (t :: turns) 0 ↔ toInt written.length = length := by
      rw [Met, arrived_zero]
    rw [receive]
    by_cases hmet : toInt written.length = length
    · rw [if_pos hmet]
      refine ⟨0, stops_zero (.inl (hzero.2 hmet)), arrived_zero.symm, ?_, ?_⟩
      · simp [AbortedAt, hzero.2 hmet]
      · simp [FailedAt, hzero.2 hmet]
    rw [if_neg hmet]
    have hnot : ¬ Met length written (t :: turns) 0 := fun h => hmet (hzero.1 h)
    cases habort : t.abort with
    | true =>
      rw [if_pos rfl]
      refine ⟨0, stops_zero (.inr ?_), arrived_zero.symm, ?_, ?_⟩
      · rintro t' ht' ⟨hfalse, -⟩
        obtain rfl := Option.some.inj ht'
        cases habort.symm.trans hfalse
      · simp [AbortedAt, hnot, habort]
      · simp [FailedAt, habort]
    | false =>
      rw [if_neg Bool.false_ne_true]
      by_cases hordinary : t.Ordinary
      · obtain ⟨-, buff, hread⟩ := hordinary
        obtain ⟨k, hstops, hwritten, haborted, hfailed⟩ := ih (written ++ t.arriving)
        have harriving : t.arriving = buff := by rw [Turn.arriving, hread]
        have hposition : toInt (toInt written.length + buff.length) =
            toInt (written ++ t.arriving).length := by
          rw [toInt_add, harriving, List.length_append, Nat.cast_add]
        rw [hread]
        dsimp only
        rw [hposition, ← harriving]
        refine ⟨k + 1, hstops.cons ⟨habort, buff, hread⟩ hnot, ?_, ?_, ?_⟩
        · rw [hwritten, arrived_cons_succ]
        · rw [haborted, AbortedAt, AbortedAt, met_cons_succ]
          rfl
        · rw [hfailed, FailedAt, FailedAt, met_cons_succ]
          rfl
      · have hfails : (match t.read with
            | .bytes buff true =>
              receive length (toInt (toInt written.length + buff.length)) (written ++ buff) turns
            | _ => (.failed, written)) = (Ending.failed, written) := by
          cases hread : t.read with
          | fails => rfl
          | bytes buff stored =>
            cases stored with
            | false => rfl
            | true => exact absurd ⟨habort, buff, hread⟩ hordinary
        rw [hfails]
        refine ⟨0, stops_zero (.inr ?_), arrived_zero.symm, ?_, ?_⟩
        · rintro t' ht'
          obtain rfl := Option.some.inj ht'
          exact hordinary
        · simp [AbortedAt, habort]
        · simp [FailedAt, hnot, habort, hordinary]

end Stops

/-! ### The request -/

section Request

variable {s : Server} {env : Env} {headers : Option Headers} {opened : Bool} {u : Upload}

theorem op_of_openOutput {path : JString} {deleted : Bool} {access : Access}
    (h : env.openOutput path deleted = some access) :
    access.op = .create ∨ access.op = .overwrite := by
  rw [Env.openOutput] at h
  split at h
  · cases h
  · split at h
    · split_ifs at h
      cases h
      exact .inr rfl
    · cases h
    · split_ifs at h
      cases h
      exact .inl rfl

/-- Either the checks do not let the request through, or a file is opened for writing, and the
answer depends on how the contents are received. -/
def Behaves (s : Server) (env : Env) (reply : Received → Reply) : Prop :=
  (∀ received, (reply received).response ≠ .OBEX_HTTP_OK ∧
    leavesFile (reply received).accesses = false) ∨
  ∃ before access, (access.op = .create ∨ access.op = .overwrite) ∧
    reply .complete = ⟨s.mCurrentPath, .OBEX_HTTP_OK, before ++ [access]⟩ ∧
    reply .unclosed = ⟨s.mCurrentPath, .OBEX_HTTP_INTERNAL_ERROR, before ++ [access]⟩ ∧
    reply .aborted = ⟨s.mCurrentPath, .OBEX_HTTP_BAD_REQUEST, before ++ access ::
      if env.refused ⟨.delete, access.place⟩ then [] else [⟨.delete, access.place⟩]⟩

theorem behaves_const {reply : Reply} (hresponse : reply.response ≠ .OBEX_HTTP_OK)
    (hleaves : leavesFile reply.accesses = false) : Behaves s env fun _ => reply :=
  .inl fun _ => ⟨hresponse, hleaves⟩

theorem leavesFile_delete (path : JString) :
    leavesFile (env.delete path).toList = false := by
  cases h : env.delete path with
  | none => rfl
  | some access =>
    have hop : access.op = .delete := by
      rw [Env.delete] at h
      split at h
      · split_ifs at h
        cases h
        rfl
      · split_ifs at h
        cases h
        rfl
      · cases h
    simp [leavesFile, hop]

theorem behaves_receiveFile (path : JString) : Behaves s env (s.receiveFile env path) := by
  unfold Server.receiveFile
  cases getParentFile path with
  | none =>
    exact behaves_const nofun rfl
  | some parent =>
    by_cases hwrite : (!env.canWrite parent) = true
    · simp only [if_pos hwrite]
      exact behaves_const nofun rfl
    by_cases hold : env.doesPathExist path = true ∧ (!env.canWrite path) = true
    · simp only [if_neg hwrite, if_pos hold]
      exact behaves_const nofun rfl
    cases hopen : env.openOutput path (env.delete path).isSome with
    | none =>
      simp only [if_neg hwrite, if_neg hold, hopen]
      exact behaves_const nofun (leavesFile_delete path)
    | some access =>
      simp only [if_neg hwrite, if_neg hold, hopen]
      exact .inr ⟨(env.delete path).toList, access, op_of_openOutput hopen, rfl, rfl, rfl⟩

theorem behaves_onPutInternal (s : Server) (env : Env) (headers : Option Headers) (opened : Bool) :
    Behaves s env (s.onPutInternal env headers opened) := by
  unfold Server.onPutInternal
  by_cases hmounted : (!env.mounted) = true
  · simp only [if_pos hmounted]
    exact behaves_const nofun rfl
  cases headers with
  | none =>
    simp only [if_neg hmounted]
    exact behaves_const nofun rfl
  | some h =>
    simp only [if_neg hmounted]
    split_ifs
    · exact behaves_const nofun rfl
    · exact behaves_const nofun rfl
    · exact behaves_const nofun rfl
    · exact behaves_const nofun rfl
    · exact behaves_receiveFile _

theorem leavesFile_append {before : List Access} {access : Access} :
    leavesFile (before ++ [access]) = true ↔
      access.op = .create ∨ access.op = .overwrite := by
  rw [leavesFile, List.getLast?_append, List.getLast?_singleton]
  simp

/-- What is in the file if the loop stops at the turn `k`. -/
def Upload.fileAt (u : Upload) (k : ℕ) : Bytes :=
  match u.unclosed with
  | some n => (arrived [] u.turns k).take n
  | none => arrived [] u.turns k

/-- An upload that stops at the turn `k` does no harm: an abort that the loop sees is followed by
another one or by streams that cannot be closed, and the file has the whole body, unless an error or
a late abort has it deleted. -/
structure Harmless (length : ℤ) (u : Upload) (refused : Bool) (k : ℕ) : Prop where
  reported : AbortedAt length [] u.turns k →
    u.unclosed ≠ none ∨ u.lateAbort = true ∨ u.closeStream = false
  complete : (u.unclosed = none → FailedAt length [] u.turns k ∨ u.lateAbort = true →
    refused = true) → u.fileAt k = u.body

/-- The answer and the file of a request that the checks let through. -/
theorem onPut_eq {before : List Access} {access : Access}
    (hop : access.op = .create ∨ access.op = .overwrite)
    (hcomplete : s.onPutInternal env headers opened .complete =
      ⟨s.mCurrentPath, .OBEX_HTTP_OK, before ++ [access]⟩)
    (hunclosed : s.onPutInternal env headers opened .unclosed =
      ⟨s.mCurrentPath, .OBEX_HTTP_INTERNAL_ERROR, before ++ [access]⟩)
    (haborted : s.onPutInternal env headers opened .aborted =
      ⟨s.mCurrentPath, .OBEX_HTTP_BAD_REQUEST, before ++ access ::
        if env.refused ⟨.delete, access.place⟩ then [] else [⟨.delete, access.place⟩]⟩) :
    s.onPut env headers opened u =
      match u.received (extractLength headers) with
      | .complete => (.OBEX_HTTP_OK, some (u.file (extractLength headers)))
      | .unclosed => (.OBEX_HTTP_INTERNAL_ERROR, some (u.file (extractLength headers)))
      | .aborted => (.OBEX_HTTP_BAD_REQUEST,
          if env.refused ⟨.delete, access.place⟩ then some (u.file (extractLength headers))
          else none) := by
  have hkept : leavesFile (before ++ [access]) = true := leavesFile_append.2 hop
  rw [Server.onPut]
  cases u.received (extractLength headers) with
  | complete => simp only [hcomplete, hkept, if_true]
  | unclosed => simp only [hunclosed, hkept, if_true]
  | aborted =>
    by_cases hrefused : env.refused ⟨.delete, access.place⟩ = true
    · simp only [haborted, if_pos hrefused, hkept, if_true]
    · have hdeleted : leavesFile (before ++ [access, ⟨.delete, access.place⟩]) = false := by
        rw [List.append_cons, ← Bool.not_eq_true, leavesFile_append]
        exact nofun
      simp only [haborted, if_neg hrefused, hdeleted, Bool.false_eq_true, if_false]

theorem target_of_refused
    (h : ∀ received, (s.onPutInternal env headers opened received).response ≠ .OBEX_HTTP_OK ∧
      leavesFile (s.onPutInternal env headers opened received).accesses = false) :
    s.target env headers opened = none ∧ s.SoundPut env headers opened u := by
  refine ⟨if_neg (h .complete).1, ?_⟩
  obtain ⟨hresponse, hleaves⟩ := h (u.received (extractLength headers))
  have hput : (s.onPut env headers opened u).2 = none := if_neg (by rw [hleaves]; nofun)
  refine ⟨fun hok => absurd hok hresponse, fun _ => ⟨hresponse, ?_⟩⟩
  rw [hput]
  exact nofun

/-- Once a file is opened, all depends on the turn at which the loop stops. -/
theorem soundPut_iff_harmless {access : Access} {k : ℕ}
    (hstops : Stops (extractLength headers) [] u.turns k)
    (hput : s.onPut env headers opened u =
      match u.received (extractLength headers) with
      | .complete => (.OBEX_HTTP_OK, some (u.file (extractLength headers)))
      | .unclosed => (.OBEX_HTTP_INTERNAL_ERROR, some (u.file (extractLength headers)))
      | .aborted => (.OBEX_HTTP_BAD_REQUEST,
          if env.refused ⟨.delete, access.place⟩ then some (u.file (extractLength headers))
          else none)) :
    s.SoundPut env headers opened u ↔
      Harmless (extractLength headers) u (env.refused ⟨.delete, access.place⟩) k := by
  obtain ⟨k', hstops', hwritten, haborted, hfailed⟩ :=
    receive_spec (extractLength headers) [] u.turns
  obtain rfl := hstops.unique hstops'
  have hzero : toInt ([] : Bytes).length = 0 := by decide
  rw [hzero] at hwritten haborted hfailed
  rw [Server.SoundPut, hput]
  clear hput
  generalize extractLength headers = length at *
  have hfile : u.file length = u.fileAt k := by
    rw [Upload.file, Upload.fileAt, hwritten]
  have hflagged : u.flagged length = true ↔
      FailedAt length [] u.turns k ∨ u.lateAbort = true := by
    rw [Upload.flagged, decide_eq_true_eq, hfailed]
  have hinterrupted : u.Interrupted length ↔ AbortedAt length [] u.turns k ∨
      FailedAt length [] u.turns k ∨ u.lateAbort = true ∨ u.unclosed ≠ none ∨
        u.closeStream = false := by
    rw [Upload.Interrupted, ← haborted, ← hfailed]
    cases (receive length 0 [] u.turns).1 <;> simp
  rw [hinterrupted, hfile, Upload.received]
  by_cases hunclosed : u.unclosed = none
  swap
  -- the file cannot be closed
  · rw [if_pos hunclosed]
    constructor
    · rintro ⟨-, h⟩
      obtain ⟨-, hcomplete⟩ := h (.inr (.inr (.inr (.inl hunclosed))))
      exact ⟨fun _ => .inl hunclosed, fun _ => hcomplete _ rfl⟩
    · intro h
      refine ⟨nofun, fun _ => ⟨nofun, ?_⟩⟩
      rintro _ ⟨⟩
      exact h.complete fun hnone => absurd hnone hunclosed
  rw [if_neg (not_not.2 hunclosed)]
  by_cases hflag : u.flagged length = true
  -- the file is deleted, unless this is refused
  · rw [if_pos hflag]
    have hflag' := hflagged.1 hflag
    constructor
    · rintro ⟨-, h⟩
      obtain ⟨-, hcomplete⟩ := h (.inr (hflag'.imp id .inl))
      refine ⟨?_, ?_⟩
      · rintro ⟨hmet, t, ht, habort⟩
        refine .inr (.inl (hflag'.resolve_left ?_))
        rintro ⟨-, t', ht', hfalse, -⟩
        obtain rfl := Option.some.inj (ht.symm.trans ht')
        cases habort.symm.trans hfalse
      · intro hrefused
        exact hcomplete _ (if_pos (hrefused hunclosed hflag'))
    · intro h
      refine ⟨nofun, fun _ => ⟨nofun, ?_⟩⟩
      intro file hkept
      dsimp only at hkept
      split_ifs at hkept with hrefused
      obtain rfl := Option.some.inj hkept
      exact h.complete fun _ _ => hrefused
  rw [if_neg hflag]
  have hflag' : ¬ (FailedAt length [] u.turns k ∨ u.lateAbort = true) :=
    fun h => hflag (hflagged.2 h)
  cases hclose : u.closeStream with
  | false =>
    constructor
    · rintro ⟨-, h⟩
      obtain ⟨-, hcomplete⟩ := h (.inr (.inr (.inr (.inr rfl))))
      exact ⟨fun _ => .inr (.inr hclose), fun _ => hcomplete _ rfl⟩
    · intro h
      refine ⟨nofun, fun _ => ⟨nofun, ?_⟩⟩
      rintro _ ⟨⟩
      exact h.complete fun _ hfailed => absurd hfailed hflag'
  -- all goes through behind the loop
  | true =>
    constructor
    · rintro ⟨hcomplete, h⟩
      refine ⟨?_, fun _ => Option.some.inj (hcomplete rfl)⟩
      intro habort
      exact absurd rfl (h (.inl habort)).1
    · intro h
      have hbody := h.complete fun _ hfailed => absurd hfailed hflag'
      refine ⟨fun _ => congrArg some hbody, ?_⟩
      have hclosed : ¬ u.closeStream = false := by rw [hclose]; nofun
      rintro (habort | hfailed | hlate | hopen | hfalse)
      · rcases h.reported habort with hopen | hlate | hfalse
        · exact absurd hunclosed hopen
        · exact absurd (.inr hlate) hflag'
        · exact absurd hfalse hclosed
      · exact absurd (.inl hfailed) hflag'
      · exact absurd (.inr hlate) hflag'
      · exact absurd hunclosed hopen
      · cases hfalse

/-- **When an upload is sound**: exactly if, at the turn at which the loop stops, all of the body is
in the file (or an error or a late abort has it deleted), and an abort that the loop sees is
followed by another one or by streams that cannot be closed. -/
theorem soundPut_iff (s : Server) (env : Env) (headers : Option Headers) (opened : Bool)
    (u : Upload) : s.SoundPut env headers opened u ↔
      ∀ access, s.target env headers opened = some access →
        ∀ k, Stops (extractLength headers) [] u.turns k →
          Harmless (extractLength headers) u (env.refused ⟨.delete, access.place⟩) k := by
  obtain ⟨k, hstops, -⟩ := receive_spec (extractLength headers) [] u.turns
  rcases behaves_onPutInternal s env headers opened with
    hrefused | ⟨before, access, hop, hcomplete, hunclosed, haborted⟩
  · obtain ⟨htarget, hsound⟩ := target_of_refused (u := u) hrefused
    rw [htarget]
    exact ⟨fun _ => nofun, fun _ => hsound⟩
  · have htarget : s.target env headers opened = some access := by
      rw [Server.target, hcomplete]
      simp
    rw [soundPut_iff_harmless hstops (onPut_eq hop hcomplete hunclosed haborted), htarget]
    constructor
    · rintro h _ ⟨⟩ k' hk'
      rwa [← hstops.unique hk']
    · intro h
      exact h access rfl k hstops

/-- Three bytes in two reads; an abort may come between them. -/
def threeBytes (abort : Bool) : Upload where
  turns := [⟨false, .bytes [104, 105] true⟩, ⟨abort, .bytes [33] true⟩]
  unsent := []
  lateAbort := false
  unclosed := none
  closeStream := true
  unsent_eq _ := rfl

/-- Put the bytes into a new file on the first volume. -/
def putNote (length : Option ℤ) (abort : Bool) : Response × Option Bytes :=
  Server.onPut { mCurrentPath := some (js "/sd0") } { Server.phone with available := 3 }
    (some { name := some (js "note"), length := length }) true (threeBytes abort)

/-- **Accepted parts of an upload.**  Without a length nothing is read, and after an abort the file
has the bytes before it; the answer is `OBEX_HTTP_OK` in both cases. -/
theorem not_soundPut_threeBytes :
    putNote (some 3) false = (.OBEX_HTTP_OK, some [104, 105, 33]) ∧
    putNote none false = (.OBEX_HTTP_OK, some []) ∧
    putNote (some 3) true = (.OBEX_HTTP_OK, some [104, 105]) ∧
    ∀ length abort, (length, abort) ∈ [(none, false), (some 3, true)] →
      ¬ Server.SoundPut { mCurrentPath := some (js "/sd0") }
        { Server.phone with available := 3 }
        (some { name := some (js "note"), length := length }) true (threeBytes abort) := by
  have hnone : putNote none false = (.OBEX_HTTP_OK, some []) := by decide
  have habort : putNote (some 3) true = (.OBEX_HTTP_OK, some [104, 105]) := by decide
  have hbody : ∀ abort, (threeBytes abort).body = [104, 105, 33] := by decide
  refine ⟨by decide, hnone, habort, ?_⟩
  rintro length abort hcase ⟨hcomplete, -⟩
  change (putNote length abort).1 = _ → (putNote length abort).2 = _ at hcomplete
  rw [hbody] at hcomplete
  rcases List.mem_cons.1 hcase with heq | hcase
  · obtain ⟨rfl, rfl⟩ := Prod.mk.inj heq
    rw [hnone] at hcomplete
    cases hcomplete rfl
  · obtain ⟨rfl, rfl⟩ := Prod.mk.inj (List.mem_singleton.1 hcase)
    rw [habort] at hcomplete
    cases hcomplete rfl

end Request

end Ftp

end Msm8909w

import Msm8909w.Gpt.Update

/-!
# Short and failed transfers

`blk_rw` reports an error when `read` or `write` returns `-1`, but a transfer that moved fewer
bytes than asked for counts as a success.

* `prepareBootUpdate_transfers` : in a run without short transfers, a call that returns `0` has
  completed every transfer, and no signature is invalidated after an incomplete write.
* `prepareBootUpdate_short_write` : one short write of the secondary entries is enough to leave
  the disk without a valid table, with the result `0`.

The first result holds because a failed transfer is the last one of its run: `Careful p Err` says
so of a program `p`, whose result then satisfies `Err`.
-/

namespace Msm8909w

namespace Gpt

open Prog

variable {α β : Type} {Err : α → Prop} {Err' : β → Prop}

/-- In a run whose transfers are complete or failed, a failed one is the last, and the result is
an error. -/
def Careful (p : SysProg α) (Err : α → Prop) : Prop :=
  ∀ (env : Env) (s : Dev), ∃ L, (p.run (dev env) s).2.log = s.log ++ L ∧
    ((∀ t ∈ L, t.Complete ∨ t.Failed) →
      (∀ t ∈ L, t.Complete) ∨ (∀ t ∈ L.dropLast, t.Complete) ∧ Err (p.run (dev env) s).1)

/-- The program makes no transfer and its result satisfies `Err`. -/
def Silent (p : SysProg α) (Err : α → Prop) : Prop :=
  ∀ (env : Env) (s : Dev), (p.run (dev env) s).2.log = s.log ∧ Err (p.run (dev env) s).1

/-! ### Rules -/

theorem silent_ret {a : α} (h : Err a) : Silent (.ret a) Err := fun _ _ => ⟨rfl, h⟩

theorem Silent.careful {p : SysProg α} {Err' : α → Prop} (h : Silent p Err') : Careful p Err :=
  fun env s => ⟨[], by rw [(h env s).1, List.append_nil], fun _ => .inl nofun⟩

theorem careful_ret {a : α} : Careful (.ret a) Err :=
  have h : Silent (.ret a) fun _ => True := silent_ret trivial
  h.careful

/-- A program is careful when its first part is and its second part stops on an error. -/
theorem careful_bind {p : SysProg α} {f : α → SysProg β} (hp : Careful p Err)
    (hf : ∀ a, Careful (f a) Err') (he : ∀ a, Err a → Silent (f a) Err') :
    Careful (p >>= f) Err' := by
  intro env s
  obtain ⟨L, hL, hcond⟩ := hp env s
  obtain ⟨L', hL', hcond'⟩ := hf (p.run (dev env) s).1 env (p.run (dev env) s).2
  rw [run_bind]
  refine ⟨L ++ L', by rw [hL', hL, List.append_assoc], fun hall => ?_⟩
  have hall₁ : ∀ t ∈ L, t.Complete ∨ t.Failed := fun t ht => hall t (List.mem_append_left _ ht)
  have hall₂ : ∀ t ∈ L', t.Complete ∨ t.Failed := fun t ht => hall t (List.mem_append_right _ ht)
  rcases hcond hall₁ with hc | ⟨hc, herr⟩
  · rcases hcond' hall₂ with hc' | ⟨hc', herr'⟩
    · refine .inl fun t ht => ?_
      rcases List.mem_append.1 ht with ht | ht
      · exact hc t ht
      · exact hc' t ht
    · refine .inr ⟨fun t ht => ?_, herr'⟩
      by_cases hnil : L' = []
      · rw [hnil, List.append_nil] at ht
        exact hc t (List.dropLast_subset _ ht)
      · rw [List.dropLast_append_of_ne_nil hnil] at ht
        rcases List.mem_append.1 ht with ht | ht
        · exact hc t ht
        · exact hc' t ht
  · -- the first part failed: the second one makes no transfer
    obtain ⟨hlog, herr'⟩ := he _ herr env (p.run (dev env) s).2
    have hnil : L' = [] := by
      rw [hlog] at hL'
      exact List.self_eq_append_right.1 hL'
    rw [hnil, List.append_nil]
    exact .inr ⟨hc, herr'⟩

/-- A call that makes no transfer, and what follows it. -/
theorem silent_bind {p : SysProg α} {f : α → SysProg β} (hp : Silent p fun _ => True)
    (hf : ∀ a, Silent (f a) Err') : Silent (p >>= f) Err' := by
  intro env s
  obtain ⟨hlog, herr⟩ := hf (p.run (dev env) s).1 env (p.run (dev env) s).2
  rw [run_bind]
  exact ⟨hlog.trans (hp env s).1, herr⟩

theorem careful_call {p : SysProg α} {f : α → SysProg β} (hp : Silent p fun _ => True)
    (hf : ∀ a, Careful (f a) Err') : Careful (p >>= f) Err' :=
  have hp' : Careful p fun _ => False := hp.careful
  careful_bind hp' hf fun _ h => h.elim

/-! ### The calls -/

theorem silent_stackArray (n : ℕ) : Silent (stackArray n) fun _ => True :=
  fun _ _ => ⟨rfl, trivial⟩

theorem silent_calloc (n : ℕ) : Silent (calloc n) fun _ => True := fun _ _ => ⟨rfl, trivial⟩

theorem silent_openDev : Silent openDev fun _ => True := fun _ _ => ⟨rfl, trivial⟩

theorem silent_closeDev : Silent closeDev fun _ => True := fun _ _ => ⟨rfl, trivial⟩

theorem silent_lseekEnd : Silent lseekEnd fun _ => True := by
  intro env s
  refine ⟨?_, trivial⟩
  change (s.seekEnd env).2.log = s.log
  unfold Dev.seekEnd
  split_ifs <;> rfl

theorem silent_lseekSet (offset : ℤ) : Silent (lseekSet offset) fun _ => True := by
  intro env s
  refine ⟨?_, trivial⟩
  change (s.seekSet env offset).2.log = s.log
  unfold Dev.seekSet
  split_ifs <;> rfl

/-- A failed read is one transfer. -/
theorem careful_sysRead (len : ℕ) : Careful (sysRead len) fun r => r = none := by
  intro env s
  change ∃ L, (s.read env len).2.log = s.log ++ L ∧ (_ → _ ∨ _ ∧ (s.read env len).1 = none)
  unfold Dev.read
  cases env.xfer s.log.length len with
  | none => exact ⟨_, rfl, fun _ => .inr ⟨nofun, rfl⟩⟩
  | some n =>
    refine ⟨_, rfl, fun hall => .inl fun t ht => ?_⟩
    rcases hall t ht with h | h
    · exact h
    · rw [List.mem_singleton.1 ht] at h
      cases h

theorem careful_sysWrite (buf : Bytes) : Careful (sysWrite buf) fun r => r = none := by
  intro env s
  change ∃ L, (s.write env buf).2.log = s.log ++ L ∧ (_ → _ ∨ _ ∧ (s.write env buf).1 = none)
  unfold Dev.write
  cases env.xfer s.log.length buf.length with
  | none => exact ⟨_, rfl, fun _ => .inr ⟨nofun, rfl⟩⟩
  | some n =>
    refine ⟨_, rfl, fun hall => .inl fun t ht => ?_⟩
    rcases hall t ht with h | h
    · exact h
    · rw [List.mem_singleton.1 ht] at h
      cases h

/-! ### The functions of `gpt-utils.cpp` -/

theorem careful_blkRw (rw : Bool) (offset : ℤ) (buf : Bytes) :
    Careful (blkRw rw offset buf) fun r => r.1 < 0 := by
  refine careful_call (silent_lseekSet offset) fun ok => ?_
  cases ok with
  | false => exact careful_ret
  | true =>
    cases rw with
    | true =>
      refine careful_bind (careful_sysWrite buf) (fun _ => careful_ret) fun r hr => ?_
      rw [hr]
      exact silent_ret (show (-1 : ℤ) < 0 by decide)
    | false =>
      refine careful_bind (careful_sysRead _) (fun _ => careful_ret) fun r hr => ?_
      rw [hr]
      exact silent_ret (show (-1 : ℤ) < 0 by decide)

theorem silent_gptHeaderOffset (gpt : GptInstance) :
    Silent (gptHeaderOffset gpt) fun _ => True := by
  cases gpt with
  | primaryGpt => exact silent_ret trivial
  | secondaryGpt => exact silent_bind silent_lseekEnd fun _ => silent_ret trivial

variable (crc : Bytes → UInt32)

theorem careful_gptGetState (gpt : GptInstance) :
    Careful (gptGetState crc gpt) fun r => r = none := by
  refine careful_call (silent_stackArray _) fun buf => ?_
  refine careful_call (silent_gptHeaderOffset gpt) ?_
  rintro (_ | offset)
  · exact careful_ret
  · refine careful_bind (careful_blkRw false offset buf) ?_ ?_
    · rintro ⟨r, header⟩
      dsimp only
      split_ifs
      · exact careful_ret
      · exact careful_ret
    · rintro ⟨r, header⟩ hr
      dsimp only at hr ⊢
      rw [if_pos (by omega)]
      exact silent_ret rfl

theorem careful_gptSetState (gpt : GptInstance) (state : GptState) :
    Careful (gptSetState crc gpt state) fun r => r < 0 := by
  refine careful_call (silent_stackArray _) fun buf => ?_
  refine careful_call (silent_gptHeaderOffset gpt) ?_
  rintro (_ | offset)
  · exact careful_ret
  · refine careful_bind (careful_blkRw false offset buf) ?_ ?_
    · rintro ⟨r, header⟩
      dsimp only
      split_ifs
      · exact careful_ret
      · cases setSignature state header with
        | none => exact careful_ret
        | some header =>
          refine careful_bind (careful_blkRw true offset _) ?_ ?_
          · rintro ⟨r', _⟩
            dsimp only
            split_ifs
            · exact careful_ret
            · exact careful_ret
          · rintro ⟨r', _⟩ hr'
            dsimp only at hr' ⊢
            rw [if_pos (by omega)]
            exact silent_ret (by decide)
    · rintro ⟨r, header⟩ hr
      dsimp only at hr ⊢
      rw [if_pos (by omega)]
      exact silent_ret (by decide)

theorem careful_gpt2SetBootChain (boot : BootChain) :
    Careful (gpt2SetBootChain crc boot) fun r => r < 0 := by
  refine careful_call (silent_stackArray _) fun buf => ?_
  refine careful_call silent_lseekEnd fun size => ?_
  dsimp only
  split_ifs
  · exact careful_ret
  -- the primary header
  refine careful_bind (careful_blkRw false _ buf) ?_ ?_
  swap
  · rintro ⟨r, _⟩ hr
    dsimp only at hr ⊢
    rw [if_pos (by omega)]
    exact silent_ret hr
  rintro ⟨r, header⟩
  dsimp only
  split_ifs
  · exact careful_ret
  refine careful_call (silent_calloc _) fun ok => ?_
  split_ifs
  · exact careful_ret
  -- its entries
  refine careful_bind (careful_blkRw false _ _) ?_ ?_
  swap
  · rintro ⟨r, _⟩ hr
    dsimp only at hr ⊢
    rw [if_pos (by omega)]
    exact silent_ret hr
  rintro ⟨r, pentries⟩
  dsimp only
  split
  · exact careful_ret
  split
  · exact careful_ret
  -- the secondary header
  refine careful_bind (careful_blkRw false _ header) ?_ ?_
  swap
  · rintro ⟨r, _⟩ hr
    dsimp only at hr ⊢
    rw [if_pos (by omega)]
    exact silent_ret hr
  rintro ⟨r, header2⟩
  dsimp only
  split_ifs
  · exact careful_ret
  · exact careful_ret
  -- the two writes
  refine careful_bind (careful_blkRw true _ _) ?_ ?_
  swap
  · rintro ⟨r, _⟩ hr
    dsimp only at hr ⊢
    rw [if_pos (by omega)]
    exact silent_ret hr
  rintro ⟨r, _⟩
  dsimp only
  split_ifs
  · exact careful_ret
  refine careful_bind (careful_blkRw true _ _) (fun _ => careful_ret) ?_
  rintro ⟨r, _⟩ hr
  exact silent_ret hr

theorem careful_updateStage (stage : BootUpdateStage) :
    Careful (updateStage crc stage) fun r => r < 0 := by
  cases stage with
  | updateMain =>
    refine careful_bind (careful_gpt2SetBootChain crc .backupBoot) ?_ ?_
    · intro r
      split
      · exact careful_ret
      · exact careful_gptSetState crc _ _
    · intro r hr
      rw [if_pos (by omega), if_pos hr]
      exact silent_ret hr
  | updateBackup =>
    refine careful_bind (careful_gptSetState crc .primaryGpt .gptOk) ?_ ?_
    · intro r
      split_ifs
      · exact careful_ret
      · exact careful_gptSetState crc _ _
    · intro r hr
      rw [if_pos (by omega)]
      exact silent_ret hr
  | updateFinalize =>
    refine careful_bind (careful_gpt2SetBootChain crc .normalBoot) ?_ ?_
    · intro r
      split_ifs
      · exact careful_ret
      · exact careful_gptSetState crc _ _
    · intro r hr
      rw [if_pos hr]
      exact silent_ret hr

theorem careful_prepareOpened (stage : BootUpdateStage) :
    Careful (prepareOpened crc stage) fun r => r ≠ 0 := by
  refine careful_bind (careful_gptGetState crc .primaryGpt) ?_ ?_
  swap
  · rintro _ rfl
    exact silent_ret (by decide)
  rintro (_ | prim)
  · exact careful_ret
  refine careful_bind (careful_gptGetState crc .secondaryGpt) ?_ ?_
  swap
  · rintro _ rfl
    exact silent_ret (by decide)
  rintro (_ | second)
  · exact careful_ret
  dsimp only
  cases internalStage prim second with
  | none => exact careful_ret
  | some internal =>
    dsimp only
    split_ifs
    · exact careful_ret
    · exact careful_ret
    · intro env s
      obtain ⟨L, hL, hcond⟩ := careful_updateStage crc stage env s
      refine ⟨L, hL, fun hall => (hcond hall).imp_right fun h => ⟨h.1, ?_⟩⟩
      have hneg := h.2
      omega

/-- A failed transfer ends the call, with an error. -/
theorem careful_prepareBootUpdate (stage : BootUpdateStage) :
    Careful (prepareBootUpdate crc stage) fun r => r ≠ 0 := by
  refine careful_call silent_openDev fun ok => ?_
  split_ifs
  · exact careful_ret
  · refine careful_bind (careful_prepareOpened crc stage) ?_ ?_
    · intro r
      exact careful_call silent_closeDev fun _ => careful_ret
    · intro r hr
      exact silent_bind silent_closeDev fun _ => silent_ret hr

/-! ### What a caller relies on -/

namespace Transfer

/-- The transfer moved fewer bytes than asked for, and the call did not fail. -/
def Short (t : Transfer) : Prop := ¬ t.Complete ∧ ¬ t.Failed

instance (t : Transfer) : Decidable t.Short := inferInstanceAs (Decidable (_ ∧ _))

/-- A write to the header or to the entries of a copy on the disk `d`. -/
def WritesTo (gpt : GptInstance) (d : Bytes) : Transfer → Prop
  | read .. => False
  | write pos _ _ => pos = headerPos gpt d ∨ pos = entriesPos gpt d

/-- A write of a header without the signature. -/
def Invalidates (gpt : GptInstance) (d : Bytes) : Transfer → Prop
  | read .. => False
  | write pos buf _ => pos = headerPos gpt d ∧ buf.take gptSignature.length ≠ gptSignature

end Transfer

/-- The transfers of a call that started on `d` bear out its result: success after a change of the
disk means that they were all complete, and a copy is not invalidated after an incomplete write to
the other one. -/
structure Reliable (d : Bytes) (res : ℤ × Dev) : Prop where
  success : res.1 = 0 → res.2.disk ≠ d → ∀ t ∈ res.2.log, t.Complete
  order : ∀ before t after, res.2.log = before ++ t :: after →
    ∀ gpt gpt', gpt ≠ gpt' → t.Invalidates gpt d →
      ∀ w ∈ before, w.WritesTo gpt' d → w.Complete

/-- **Runs without short transfers.**  Calls may fail at any point; as long as no transfer is
short, the result of `prepare_boot_update` can be relied on. -/
theorem prepareBootUpdate_transfers (env : Env) (stage : BootUpdateStage) (d : Bytes)
    (hshort : ∀ t ∈ ((prepareBootUpdate crc stage).run (dev env) (Dev.start d)).2.log,
      ¬ t.Short) :
    Reliable d ((prepareBootUpdate crc stage).run (dev env) (Dev.start d)) := by
  obtain ⟨L, hL, hcond⟩ := careful_prepareBootUpdate crc stage env (Dev.start d)
  have hlog : ((prepareBootUpdate crc stage).run (dev env) (Dev.start d)).2.log = L := hL
  rw [hlog] at hshort
  have hall : ∀ t ∈ L, t.Complete ∨ t.Failed := by
    intro t ht
    by_contra hnot
    exact hshort t ht (not_or.1 hnot)
  have hend := hcond hall
  constructor
  · intro h0 _
    rw [hlog]
    rcases hend with hc | ⟨-, herr⟩
    · exact hc
    · exact absurd h0 herr
  · intro before t after hsplit gpt gpt' _ _ w hw _
    rw [hlog] at hsplit
    rcases hend with hc | ⟨hc, -⟩
    · exact hc w (by rw [hsplit]; exact List.mem_append_left _ hw)
    · refine hc w ?_
      rw [hsplit, List.dropLast_append_of_ne_nil (List.cons_ne_nil t after)]
      exact List.mem_append_left _ hw

/-- A device that writes 100 bytes of the secondary entries. -/
def shortEnv : Env := { idealEnv with xfer := fun n len => some (if n = 6 then 100 else len) }

/-- The first stage on a device that completes every transfer. -/
theorem prepareBootUpdate_transfers_sampleDisk : Reliable sampleDisk
    ((prepareBootUpdate crc32 .updateMain).run (dev idealEnv) (Dev.start sampleDisk)) :=
  prepareBootUpdate_transfers crc32 idealEnv .updateMain sampleDisk (by decide +kernel)

/-- **A short write.**  The first stage returns `0` after writing only a part of the secondary
entries, and invalidates the primary signature: no valid copy is left. -/
theorem prepareBootUpdate_short_write :
    ((prepareBootUpdate crc32 .updateMain).run (dev shortEnv) (Dev.start sampleDisk)).1 = 0 ∧
    ¬ Reliable sampleDisk
      ((prepareBootUpdate crc32 .updateMain).run (dev shortEnv) (Dev.start sampleDisk)) ∧
    ∀ gpt, ¬ Valid crc32 gpt
      ((prepareBootUpdate crc32 .updateMain).run (dev shortEnv) (Dev.start sampleDisk)).2.disk := by
  -- what the run leaves is evaluated at once
  have hrun :
      let res := (prepareBootUpdate crc32 .updateMain).run (dev shortEnv) (Dev.start sampleDisk);
      (res.1 = 0 ∧ headerState crc32 (header .primaryGpt res.2.disk) ≠ .gptOk) ∧
        get4Bytes (header .secondaryGpt res.2.disk) partitionCrcOffset ≠
          (crc32 (entries .secondaryGpt res.2.disk)).toNat ∧
        ¬ ∀ t ∈ res.2.log, t.Complete := by
    decide +kernel
  obtain ⟨⟨h0, hstate⟩, hcrc, hlog⟩ := hrun
  have hinvalid : ∀ gpt, ¬ Valid crc32 gpt ((prepareBootUpdate crc32 .updateMain).run
      (dev shortEnv) (Dev.start sampleDisk)).2.disk := by
    rintro (_ | _) hv
    · exact hstate hv.state
    · exact hcrc hv.entriesCrc
  refine ⟨h0, fun hr => ?_, hinvalid⟩
  have hchanged : ((prepareBootUpdate crc32 .updateMain).run (dev shortEnv)
      (Dev.start sampleDisk)).2.disk ≠ sampleDisk := by
    intro heq
    have hv := hinvalid .primaryGpt
    rw [heq] at hv
    exact hv (valid_sampleDisk .primaryGpt)
  exact hlog (hr.success h0 hchanged)

end Gpt

end Msm8909w

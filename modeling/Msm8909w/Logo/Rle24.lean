import Msm8909w.Lib.Bytes

/-!
# The splash payload of `logo_gen.py`

`encode` splits a line of pixels into literal and repeated runs of at most 128 pixels;
`encodeRLE24` writes each run as a control byte and its pixels in BGR order.  `GetImageBody`
produces either this payload or the plain BGR pixels.

* `encodeLoop_spec`, `encode_entries` : the runs of a line of at least two pixels are well formed
  and give back the line,
* `decode_encodeRLE24_iff` : decoding the compressed payload gives the plain one, except for images
  that are one pixel wide.

The loop of `encode` runs over all pixels but the last, which is handled together with its
predecessor.  A line of a single pixel has no predecessor and is encoded as nothing.
-/

namespace Msm8909w

namespace Logo

/-! ### The encoder -/

/-- The flag `repeat` of `encode`: `-1`, `0` and `1`. -/
inductive Repeat where
  | unset
  | literal
  | repeated
  deriving DecidableEq, Repr

/-- The variables of `encode`. -/
structure EncState where
  count : ℕ
  lst : List (ℕ × List ℕ)
  mode : Repeat
  run : List ℕ
  deriving DecidableEq

/-- One round of the loop of `encode`; `last` is `index == total - 1`. -/
def encodeStep (st : EncState) (current next : ℕ) (last : Bool) : EncState :=
  if current ≠ next then
    let run := st.run ++ [current]
    let count := st.count + 1
    if st.mode = .repeated then
      let lst := st.lst ++ [(count + 128, run)]
      if last then ⟨0, lst ++ [(1, [next])], .unset, [next]⟩ else ⟨0, lst, .unset, []⟩
    else
      let st' : EncState :=
        if count = 128 then ⟨0, st.lst ++ [(128, run)], .unset, []⟩
        else ⟨count, st.lst, .literal, run⟩
      if last then
        { st' with
          lst := st'.lst ++ [(st'.count + 1, st'.run ++ [next])]
          run := st'.run ++ [next] }
      else st'
  else
    let flushed : EncState :=
      if st.mode = .literal then ⟨0, st.lst ++ [(st.count, st.run)], .unset, []⟩ else st
    if st.mode = .literal ∧ last then
      -- the `break` of the source
      { flushed with lst := flushed.lst ++ [(2 + 128, [next, next])], run := [next, next] }
    else
      let run := flushed.run ++ [current]
      let count := flushed.count + 1
      let st' : EncState :=
        if count = 128 then ⟨0, flushed.lst ++ [(256, run)], .unset, []⟩
        else ⟨count, flushed.lst, .repeated, run⟩
      if last then
        if st'.count = 0 then { st' with lst := st'.lst ++ [(1, [next])], run := [next] }
        else
          { st' with
            lst := st'.lst ++ [(st'.count + 1 + 128, st'.run ++ [current])]
            run := st'.run ++ [current] }
      else st'

/-- The loop of `encode` over a line: all pixels but the last, each with its successor. -/
def encodeLoop : EncState → List ℕ → EncState
  | st, current :: next :: rest =>
    encodeLoop (encodeStep st current next rest.isEmpty) (next :: rest)
  | st, _ => st

/-- `encode`. -/
def encode (line : List ℕ) : List (ℕ × List ℕ) := (encodeLoop ⟨0, [], .unset, []⟩ line).lst

/-- A pixel. -/
structure Rgb where
  r : UInt8
  g : UInt8
  b : UInt8
  deriving DecidableEq

/-- An image in mode `RGB`. -/
structure Image where
  width : ℕ
  height : ℕ
  getpixel : ℕ → ℕ → Rgb

/-- `(r << 16) + (g << 8) + b`. -/
def Rgb.value (p : Rgb) : ℕ := p.r.toNat * 2 ^ 16 + p.g.toNat * 2 ^ 8 + p.b.toNat

/-- The line `h` of an image. -/
def Image.line (img : Image) (h : ℕ) : List ℕ :=
  (List.range img.width).map fun w => (img.getpixel w h).value

/-- The bytes `v & 0xFF`, `(v >> 8) & 0xFF`, `(v >> 16) & 0xFF`. -/
def bgr (v : ℕ) : Bytes := toLE 3 v

/-- The bytes written for an entry; `none` when `struct.pack` or the index raises an exception. -/
def entryBytes (e : ℕ × List ℕ) : Option Bytes :=
  if 1 ≤ e.1 ∧ e.1 - 1 < 256 then
    if e.1 > 128 then e.2.head?.map fun p => UInt8.ofNat (e.1 - 1) :: bgr p
    else some (UInt8.ofNat (e.1 - 1) :: e.2.flatMap bgr)
  else none

/-- The bytes written for a list of entries. -/
def entriesBytes : List (ℕ × List ℕ) → Option Bytes
  | [] => some []
  | e :: es => do return (← entryBytes e) ++ (← entriesBytes es)

/-- The lines of an image from a list of line numbers, through `f`. -/
def overLines (f : List ℕ → Option Bytes) (img : Image) : List ℕ → Option Bytes
  | [] => some []
  | h :: hs => do return (← f (img.line h)) ++ (← overLines f img hs)

/-- `encodeRLE24`. -/
def encodeRLE24 (img : Image) : Option Bytes :=
  overLines (fun line => entriesBytes (encode line)) img (List.range img.height)

/-- The plain payload: the channels merged in the order `b, g, r`, line by line. -/
def plainBody (img : Image) : Bytes :=
  (List.range img.height).flatMap fun h => (List.range img.width).flatMap fun w =>
    let p := img.getpixel w h
    [p.b, p.g, p.r]

/-- `GetImageBody` of an image in mode `RGB`. -/
def getImageBody (img : Image) (compressed : Bool) : Option Bytes :=
  if compressed then encodeRLE24 img else some (plainBody img)

/-! ### The decoder -/

/-- One run: a control byte below 128 is followed by that many pixels plus one, another one by a
pixel to repeat.  Returns the bytes of the pixels, their number, and the rest. -/
def decodeRun (c : UInt8) (bs : Bytes) : Option (Bytes × ℕ × Bytes) :=
  if c.toNat < 128 then
    let n := c.toNat + 1
    if 3 * n ≤ bs.length then some (bs.take (3 * n), n, bs.drop (3 * n)) else none
  else
    let n := c.toNat - 127
    if 3 ≤ bs.length then some ((List.replicate n (bs.take 3)).flatten, n, bs.drop 3) else none

/-- Decode `left` pixels.  Every run has a pixel, so `left` rounds are enough. -/
def decodeLine : ℕ → ℕ → Bytes → Option (Bytes × Bytes)
  | _, 0, bs => some ([], bs)
  | _, _ + 1, [] => none
  | 0, _ + 1, _ => none
  | fuel + 1, left + 1, c :: bs => do
    let (px, n, bs) ← decodeRun c bs
    if n ≤ left + 1 then
      let (px', bs) ← decodeLine fuel (left + 1 - n) bs
      return (px ++ px', bs)
    else none

/-- Decode `height` lines of `width` pixels. -/
def decode (width : ℕ) : ℕ → Bytes → Option (Bytes × Bytes)
  | 0, bs => some ([], bs)
  | height + 1, bs => do
    let (px, bs) ← decodeLine width width bs
    let (px', bs) ← decode width height bs
    return (px ++ px', bs)

/-! ### The runs of a line -/

/-- An entry is a literal run of 1 to 128 pixels, or a pixel repeated 1 to 128 times. -/
def WellFormed (e : ℕ × List ℕ) : Prop :=
  (1 ≤ e.1 ∧ e.1 ≤ 128 ∧ e.2.length = e.1) ∨
    ∃ n p, 1 ≤ n ∧ n ≤ 128 ∧ e = (n + 128, List.replicate n p)

/-- The entries are well formed and stand for the pixels `px`. -/
def Encodes (lst : List (ℕ × List ℕ)) (px : List ℕ) : Prop :=
  (∀ e ∈ lst, WellFormed e) ∧ lst.flatMap Prod.snd = px

/-- What holds before the round for the pixel `x`, after the pixels `pre`. -/
structure EncInv (st : EncState) (pre : List ℕ) (x : ℕ) : Prop where
  encodes : ∃ px, Encodes st.lst px ∧ px ++ st.run = pre
  count : st.count = st.run.length
  bound : st.count < 128
  unset : st.mode = .unset → st.run = []
  literal : st.mode = .literal → 1 ≤ st.count
  repeated : st.mode = .repeated → 1 ≤ st.count ∧ st.run = List.replicate st.count x

theorem Encodes.snoc {lst : List (ℕ × List ℕ)} {px : List ℕ} (h : Encodes lst px)
    {e : ℕ × List ℕ} (he : WellFormed e) : Encodes (lst ++ [e]) (px ++ e.2) := by
  refine ⟨fun e' he' => ?_, ?_⟩
  · rcases List.mem_append.1 he' with he' | he'
    · exact h.1 e' he'
    · rw [List.mem_singleton.1 he']
      exact he
  · rw [List.flatMap_append, h.2, List.flatMap_singleton]

theorem wellFormed_literal {run : List ℕ} (h1 : 1 ≤ run.length) (h2 : run.length ≤ 128) :
    WellFormed (run.length, run) := .inl ⟨h1, h2, rfl⟩

theorem wellFormed_repeated {n p : ℕ} (h1 : 1 ≤ n) (h2 : n ≤ 128) :
    WellFormed (n + 128, List.replicate n p) := .inr ⟨n, p, h1, h2, rfl⟩

section Step

variable {st : EncState} {lst : List (ℕ × List ℕ)} {pre px run : List ℕ} {x y n : ℕ}

theorem encInv_unset (h : Encodes lst pre) : EncInv ⟨0, lst, .unset, []⟩ pre y :=
  ⟨⟨pre, h, List.append_nil _⟩, rfl, by simp, fun _ => rfl, nofun, nofun⟩

theorem encInv_literal (h : Encodes lst px) (hpre : px ++ run = pre) (hn : run.length = n)
    (h1 : 1 ≤ n) (h2 : n < 128) : EncInv ⟨n, lst, .literal, run⟩ pre y :=
  ⟨⟨px, h, hpre⟩, hn.symm, h2, nofun, fun _ => h1, nofun⟩

theorem encInv_repeated (h : Encodes lst px) (hpre : px ++ List.replicate n y = pre)
    (h1 : 1 ≤ n) (h2 : n < 128) : EncInv ⟨n, lst, .repeated, List.replicate n y⟩ pre y :=
  ⟨⟨px, h, hpre⟩, List.length_replicate.symm, h2, nofun, nofun, fun _ => ⟨h1, rfl⟩⟩

theorem EncInv.wellFormed_run (h : EncInv st pre x) (hm : st.mode = .literal) :
    WellFormed (st.count, st.run) := by
  have hpos := h.literal hm
  have hlt := h.bound
  rw [h.count] at hpos hlt ⊢
  exact wellFormed_literal hpos (by omega)

/-- The repeated run together with the pixel of this round. -/
theorem EncInv.wellFormed_repeat (h : EncInv st pre x) (hm : st.mode = .repeated) :
    WellFormed (st.count + 1 + 128, st.run ++ [x]) := by
  have hlt := h.bound
  rw [(h.repeated hm).2, ← List.replicate_succ']
  exact wellFormed_repeated (by omega) (by omega)

/-- The literal run that becomes full in this round. -/
theorem EncInv.wellFormed_full (h : EncInv st pre x) (h128 : st.count + 1 = 128) :
    WellFormed (128, st.run ++ [x]) := by
  have hlen : (st.run ++ [x]).length = st.count + 1 := by
    rw [List.length_append, List.length_singleton, h.count]
  rw [← h128, ← hlen]
  exact wellFormed_literal (by omega) (by omega)

/-- A round in the middle of the line. -/
theorem EncInv.step (h : EncInv st pre x) : EncInv (encodeStep st x y false) (pre ++ [x]) y := by
  have hflush := h.wellFormed_run
  have hclose := h.wellFormed_repeat
  have hfull := h.wellFormed_full
  obtain ⟨⟨px, hpx, hpre⟩, hcount, hbound, hunset, -, hrepeated⟩ := h
  obtain ⟨count, lst, mode, run⟩ := st
  simp only at hflush hclose hfull hpx hpre hcount hbound hunset hrepeated
  have hpre' : px ++ (run ++ [x]) = pre ++ [x] := by rw [← List.append_assoc, hpre]
  have hlen : (run ++ [x]).length = count + 1 := by
    rw [List.length_append, List.length_singleton, hcount]
  by_cases hxy : x = y
  · subst hxy
    cases mode with
    | literal =>
      -- the literal run ends before `x`, which starts a repeated one
      simp only [encodeStep, ne_eq, not_true_eq_false, ↓reduceIte, Bool.false_eq_true, and_false,
        List.nil_append, Nat.zero_add, OfNat.one_ne_ofNat]
      exact encInv_repeated (hpx.snoc (hflush rfl)) (by rw [List.append_assoc]; exact hpre')
        (n := 1)
        (by omega) (by omega)
    | unset =>
      obtain rfl := hunset rfl
      obtain rfl : count = 0 := hcount
      simp only [encodeStep, ne_eq, not_true_eq_false, ↓reduceIte, reduceCtorEq, false_and,
        List.nil_append, Nat.zero_add, OfNat.one_ne_ofNat, Bool.false_eq_true]
      exact encInv_repeated hpx hpre' (n := 1) (by omega) (by omega)
    | repeated =>
      obtain ⟨hpos, hrun⟩ := hrepeated rfl
      have hrun' : run ++ [x] = List.replicate (count + 1) x := by
        rw [hrun, List.replicate_succ']
      simp only [encodeStep, ne_eq, not_true_eq_false, ↓reduceIte, reduceCtorEq, false_and,
        Bool.false_eq_true, hrun']
      rw [hrun'] at hpre'
      by_cases h128 : count + 1 = 128
      · have hwf : WellFormed (128 + 128, List.replicate 128 x) :=
          wellFormed_repeated (by omega) (by omega)
        rw [h128] at hpre' ⊢
        rw [if_pos rfl, ← hpre']
        exact encInv_unset (hpx.snoc hwf)
      · rw [if_neg h128]
        exact encInv_repeated hpx hpre' (by omega) (by omega)
  · cases mode with
    | repeated =>
      -- `x` is the last pixel of the repeated run
      simp only [encodeStep, ne_eq, hxy, not_false_eq_true, ↓reduceIte, Bool.false_eq_true]
      rw [← hpre']
      exact encInv_unset (hpx.snoc (hclose rfl))
    | _ =>
      simp only [encodeStep, ne_eq, hxy, not_false_eq_true, ↓reduceIte, reduceCtorEq,
        Bool.false_eq_true]
      by_cases h128 : count + 1 = 128
      · rw [if_pos h128, ← hpre']
        exact encInv_unset (hpx.snoc (hfull h128))
      · rw [if_neg h128]
        exact encInv_literal hpx hpre' hlen (by omega) (by omega)

/-- The round for the last two pixels of the line. -/
theorem EncInv.last (h : EncInv st pre x) :
    Encodes (encodeStep st x y true).lst (pre ++ [x, y]) := by
  have hflush := h.wellFormed_run
  have hclose := h.wellFormed_repeat
  have hfull := h.wellFormed_full
  obtain ⟨⟨px, hpx, hpre⟩, hcount, hbound, hunset, -, hrepeated⟩ := h
  obtain ⟨count, lst, mode, run⟩ := st
  simp only at hflush hclose hfull hpx hpre hcount hbound hunset hrepeated
  have hpre' : px ++ (run ++ [x]) ++ [y] = pre ++ [x, y] := by
    rw [← hpre]
    simp only [List.append_assoc, List.cons_append, List.nil_append]
  have hlen : (run ++ [x]).length = count + 1 := by
    rw [List.length_append, List.length_singleton, hcount]
  have hone : WellFormed (1, [y]) := .inl ⟨Nat.le_refl 1, (by decide : 1 ≤ 128), rfl⟩
  by_cases hxy : x = y
  · subst hxy
    cases mode with
    | literal =>
      have htwo : WellFormed (2 + 128, [x, x]) :=
        wellFormed_repeated (n := 2) (p := x) (by omega) (by omega)
      simp only [encodeStep, ne_eq, not_true_eq_false, ↓reduceIte, and_self]
      rw [← hpre]
      exact (hpx.snoc (hflush rfl)).snoc htwo
    | unset =>
      obtain rfl := hunset rfl
      obtain rfl : count = 0 := hcount
      have htwo : WellFormed (2 + 128, [x, x]) :=
        wellFormed_repeated (n := 2) (p := x) (by omega) (by omega)
      simp only [encodeStep, ne_eq, not_true_eq_false, ↓reduceIte, reduceCtorEq, false_and,
        List.nil_append, Nat.zero_add, OfNat.one_ne_ofNat, one_ne_zero]
      rw [List.append_nil] at hpre
      rw [← hpre]
      exact hpx.snoc htwo
    | repeated =>
      obtain ⟨hpos, hrun⟩ := hrepeated rfl
      have hrun' : run ++ [x] = List.replicate (count + 1) x := by
        rw [hrun, List.replicate_succ']
      simp only [encodeStep, ne_eq, not_true_eq_false, ↓reduceIte, reduceCtorEq, false_and]
      rw [← hpre', hrun']
      by_cases h128 : count + 1 = 128
      · have hwf : WellFormed (128 + 128, List.replicate 128 x) :=
          wellFormed_repeated (by omega) (by omega)
        rw [h128]
        simp only [↓reduceIte]
        exact (hpx.snoc hwf).snoc hone
      · have hwf : WellFormed (count + 1 + 1 + 128, List.replicate (count + 1) x ++ [x]) := by
          rw [← List.replicate_succ']
          exact wellFormed_repeated (by omega) (by omega)
        rw [if_neg h128, if_neg (by simp), List.append_assoc]
        exact hpx.snoc hwf
  · cases mode with
    | repeated =>
      simp only [encodeStep, ne_eq, hxy, not_false_eq_true, ↓reduceIte]
      rw [← hpre']
      exact (hpx.snoc (hclose rfl)).snoc hone
    | _ =>
      simp only [encodeStep, ne_eq, hxy, not_false_eq_true, ↓reduceIte, reduceCtorEq]
      rw [← hpre']
      by_cases h128 : count + 1 = 128
      · rw [if_pos h128]
        exact (hpx.snoc (hfull h128)).snoc hone
      · have hwf : WellFormed (count + 1 + 1, run ++ [x] ++ [y]) := by
          have hlen' : (run ++ [x] ++ [y]).length = count + 1 + 1 := by
            rw [List.length_append, hlen, List.length_singleton]
          rw [← hlen']
          exact wellFormed_literal (by omega) (by omega)
        rw [if_neg h128, List.append_assoc px]
        exact hpx.snoc hwf

/-- The whole loop, from any state that satisfies the invariant. -/
theorem encodeLoop_spec (rest : List ℕ) (h : EncInv st pre x) :
    Encodes (encodeLoop st (x :: y :: rest)).lst (pre ++ x :: y :: rest) := by
  induction rest generalizing st pre x y with
  | nil => exact h.last
  | cons z rest ih =>
    rw [encodeLoop]
    have hnext := ih (x := y) (y := z) h.step
    rwa [List.append_assoc] at hnext

/-- The entries of a line of at least two pixels stand for the line. -/
theorem encodes_encode (x y : ℕ) (rest : List ℕ) :
    Encodes (encode (x :: y :: rest)) (x :: y :: rest) :=
  encodeLoop_spec rest (encInv_unset ⟨fun _ h => absurd h List.not_mem_nil, rfl⟩)

end Step

/-- **The entries of a line** of at least two pixels are well formed, their counts less one fit a
byte, and their runs one after the other are the line. -/
theorem encode_entries {line : List ℕ} (h : 2 ≤ line.length) :
    (∀ e ∈ encode line, WellFormed e ∧ 1 ≤ e.1 ∧ e.1 - 1 < 256) ∧
      (encode line).flatMap Prod.snd = line := by
  rcases line with _ | ⟨x, _ | ⟨y, rest⟩⟩
  · cases h
  · rw [List.length_singleton] at h
    omega
  · obtain ⟨hwf, hruns⟩ := encodes_encode x y rest
    refine ⟨fun e he => ⟨hwf e he, ?_⟩, hruns⟩
    rcases hwf e he with ⟨h1, h2, -⟩ | ⟨n, p, h1, h2, rfl⟩
    · omega
    · dsimp only
      omega

/-- A line that ends in a repeated run. -/
theorem encode_entries_sample : 2 ≤ [7, 5, 5].length ∧
    encode [7, 5, 5] = [(1, [7]), (130, [5, 5])] ∧
    (∀ e ∈ encode [7, 5, 5], WellFormed e ∧ 1 ≤ e.1 ∧ e.1 - 1 < 256) ∧
    (encode [7, 5, 5]).flatMap Prod.snd = [7, 5, 5] :=
  ⟨by decide, by decide, encode_entries (by decide)⟩

/-! ### Decoding -/

theorem length_bgr (v : ℕ) : (bgr v).length = 3 := length_toLE 3 v

theorem length_flatMap_bgr (px : List ℕ) : (px.flatMap bgr).length = 3 * px.length := by
  induction px with
  | nil => rfl
  | cons v px ih =>
    rw [List.flatMap_cons, List.length_append, length_bgr, ih, List.length_cons]
    omega

/-- The bytes of a well-formed entry decode to its pixels. -/
theorem decodeRun_entryBytes {e : ℕ × List ℕ} (h : WellFormed e) : ∃ c body,
    entryBytes e = some (c :: body) ∧ 1 ≤ e.2.length ∧
      ∀ rest, decodeRun c (body ++ rest) = some (e.2.flatMap bgr, e.2.length, rest) := by
  rcases h with ⟨h1, h2, hlen⟩ | ⟨n, p, h1, h2, rfl⟩
  · obtain ⟨n, px⟩ := e
    obtain rfl : px.length = n := hlen
    dsimp only at h1 h2 ⊢
    have hbody := length_flatMap_bgr px
    have hc : (UInt8.ofNat (px.length - 1)).toNat = px.length - 1 := by
      rw [UInt8.toNat_ofNat']
      omega
    refine ⟨UInt8.ofNat (px.length - 1), px.flatMap bgr, ?_, h1, fun rest => ?_⟩
    · rw [entryBytes, if_pos (by dsimp only; omega), if_neg (by dsimp only; omega)]
    · have hn : 3 * (px.length - 1 + 1) = (px.flatMap bgr).length := by omega
      rw [decodeRun, hc, if_pos (by omega)]
      dsimp only
      rw [hn, if_pos (by rw [List.length_append]; omega), List.take_left, List.drop_left,
        Nat.sub_add_cancel h1]
  · have hc : (UInt8.ofNat (n + 128 - 1)).toNat = n + 127 := by
      rw [UInt8.toNat_ofNat']
      omega
    have hhead : (List.replicate n p).head? = some p := by
      rw [List.head?_replicate, if_neg (by omega)]
    refine ⟨UInt8.ofNat (n + 128 - 1), bgr p, ?_, by rwa [List.length_replicate], fun rest => ?_⟩
    · rw [entryBytes, if_pos (by dsimp only; omega), if_pos (by dsimp only; omega)]
      dsimp only
      rw [hhead]
      rfl
    · rw [decodeRun, hc, if_neg (by omega)]
      dsimp only
      rw [if_pos (by rw [List.length_append, length_bgr]; omega), ← length_bgr p, List.take_left,
        List.drop_left, List.length_replicate, show n + 127 - 127 = n by omega]
      congr 2
      rw [List.flatMap_replicate]

theorem decodeLine_succ (fuel left : ℕ) (c : UInt8) (bs : Bytes) :
    decodeLine (fuel + 1) (left + 1) (c :: bs) = (decodeRun c bs).bind fun r =>
      if r.2.1 ≤ left + 1 then
        (decodeLine fuel (left + 1 - r.2.1) r.2.2).bind fun r' => some (r.1 ++ r'.1, r'.2)
      else none := rfl

/-- The bytes of well-formed entries decode to their pixels. -/
theorem decodeLine_entriesBytes {lst : List (ℕ × List ℕ)} (h : ∀ e ∈ lst, WellFormed e) :
    ∃ bs, entriesBytes lst = some bs ∧ ∀ fuel rest, (lst.flatMap Prod.snd).length ≤ fuel →
      decodeLine fuel (lst.flatMap Prod.snd).length (bs ++ rest) =
        some ((lst.flatMap Prod.snd).flatMap bgr, rest) := by
  induction lst with
  | nil =>
    refine ⟨[], rfl, fun fuel rest _ => ?_⟩
    cases fuel <;> rfl
  | cons e es ih =>
    obtain ⟨bs, hbs, hdec⟩ := ih fun e' he' => h e' (List.mem_cons_of_mem _ he')
    obtain ⟨c, body, hentry, hpos, hrun⟩ := decodeRun_entryBytes (h e List.mem_cons_self)
    refine ⟨c :: body ++ bs, ?_, fun fuel rest hfuel => ?_⟩
    · rw [entriesBytes, hentry, hbs]
      rfl
    · rw [List.flatMap_cons, List.length_append] at hfuel ⊢
      obtain ⟨k, hk⟩ : ∃ k, e.2.length = k + 1 := ⟨e.2.length - 1, by omega⟩
      obtain ⟨fuel, rfl⟩ : ∃ f, fuel = f + 1 := ⟨fuel - 1, by omega⟩
      have hleft : e.2.length + (es.flatMap Prod.snd).length =
          k + (es.flatMap Prod.snd).length + 1 := by omega
      rw [hleft, List.cons_append, List.cons_append, List.append_assoc, decodeLine_succ, hrun,
        Option.bind_some, if_pos (by dsimp only; omega)]
      dsimp only
      rw [show k + (es.flatMap Prod.snd).length + 1 - e.2.length =
        (es.flatMap Prod.snd).length by omega, hdec fuel rest (by omega), Option.bind_some,
        List.flatMap_append]

/-! ### Images -/

theorem bgr_value (p : Rgb) : bgr p.value = [p.b, p.g, p.r] := by
  have hr := UInt8.toNat_lt p.r
  have hg := UInt8.toNat_lt p.g
  have hb := UInt8.toNat_lt p.b
  have hle : ofLE [p.b, p.g, p.r] = p.value := by
    simp only [ofLE, Rgb.value]
    omega
  have h := toLE_ofLE [p.b, p.g, p.r]
  rwa [hle] at h

theorem length_line (img : Image) (h : ℕ) : (img.line h).length = img.width := by
  rw [Image.line, List.length_map, List.length_range]

/-- The plain payload, line by line. -/
theorem plainBody_eq (img : Image) :
    plainBody img = (List.range img.height).flatMap fun h => (img.line h).flatMap bgr := by
  simp only [plainBody, Image.line, List.flatMap_map, bgr_value]

/-- The payload of a line of any width but one. -/
theorem exists_lineBytes {img : Image} (hw : img.width ≠ 1) (h : ℕ) :
    ∃ bs, entriesBytes (encode (img.line h)) = some bs ∧ ∀ rest,
      decodeLine img.width img.width (bs ++ rest) = some ((img.line h).flatMap bgr, rest) := by
  have hlen := length_line img h
  have henc : Encodes (encode (img.line h)) (img.line h) := by
    rcases hline : img.line h with _ | ⟨x, _ | ⟨y, rest⟩⟩
    · exact ⟨fun _ h => absurd h List.not_mem_nil, rfl⟩
    · rw [hline] at hlen
      exact absurd hlen.symm hw
    · exact encodes_encode x y rest
  obtain ⟨bs, hbs, hdec⟩ := decodeLine_entriesBytes henc.1
  rw [henc.2, hlen] at hdec
  exact ⟨bs, hbs, fun rest => hdec img.width rest (Nat.le_refl _)⟩

theorem exists_linesBytes {img : Image} (hw : img.width ≠ 1) (hs : List ℕ) :
    ∃ bs, overLines (fun line => entriesBytes (encode line)) img hs = some bs ∧ ∀ rest,
      decode img.width hs.length (bs ++ rest) =
        some (hs.flatMap fun h => (img.line h).flatMap bgr, rest) := by
  induction hs with
  | nil => exact ⟨[], rfl, fun rest => rfl⟩
  | cons h hs ih =>
    obtain ⟨bs, hbs, hdec⟩ := ih
    obtain ⟨bs', hbs', hdec'⟩ := exists_lineBytes hw h
    refine ⟨bs' ++ bs, ?_, fun rest => ?_⟩
    · rw [overLines, hbs', hbs]
      rfl
    · rw [List.length_cons, decode, List.append_assoc, hdec']
      change (decode img.width hs.length (bs ++ rest)).bind _ = _
      rw [hdec, List.flatMap_cons]
      rfl

/-- Decoding the compressed payload gives the plain one, and nothing is left over. -/
def RoundTrips (img : Image) : Prop :=
  ∃ payload plain, getImageBody img true = some payload ∧ getImageBody img false = some plain ∧
    decode img.width img.height payload = some (plain, [])

/-- A line of one pixel is encoded as nothing. -/
theorem encodeRLE24_of_width_one {img : Image} (hw : img.width = 1) :
    encodeRLE24 img = some [] := by
  have hline : ∀ h, encode (img.line h) = [] := by
    intro h
    rcases hl : img.line h with _ | ⟨x, _ | ⟨y, rest⟩⟩
    · rfl
    · rfl
    · have hlen := length_line img h
      rw [hl, hw] at hlen
      cases hlen
  have hall : ∀ hs, overLines (fun line => entriesBytes (encode line)) img hs = some [] := by
    intro hs
    induction hs with
    | nil => rfl
    | cons h hs ih =>
      rw [overLines, hline, ih]
      rfl
  exact hall _

/-- **When the two payloads agree.**  An image survives the compression exactly when it is not one
pixel wide, or has no lines. -/
theorem decode_encodeRLE24_iff (img : Image) :
    RoundTrips img ↔ img.width ≠ 1 ∨ img.height = 0 := by
  constructor
  · rintro ⟨payload, plain, hpayload, -, hdec⟩
    by_contra hnot
    obtain ⟨hw, hh⟩ := not_or.1 hnot
    rw [not_not] at hw
    obtain ⟨h, hheight⟩ : ∃ h, img.height = h + 1 := ⟨img.height - 1, by omega⟩
    have hnil : some [] = some payload := (encodeRLE24_of_width_one hw).symm.trans hpayload
    rw [← Option.some.inj hnil, hheight, hw] at hdec
    cases hdec
  · intro h
    by_cases hw : img.width = 1
    · have hh := h.resolve_left (not_not_intro hw)
      refine ⟨[], plainBody img, encodeRLE24_of_width_one hw, rfl, ?_⟩
      rw [plainBody, hh]
      rfl
    · obtain ⟨bs, hbs, hdec⟩ := exists_linesBytes hw (List.range img.height)
      refine ⟨bs, plainBody img, hbs, rfl, ?_⟩
      have h := hdec []
      rwa [List.length_range, List.append_nil, ← plainBody_eq] at h

/-- A single white pixel. -/
def whitePixel : Image := ⟨1, 1, fun _ _ => ⟨255, 255, 255⟩⟩

/-- The payload of a single pixel is empty, so it does not decode. -/
theorem whitePixel_lost : getImageBody whitePixel true = some [] ∧ ¬ RoundTrips whitePixel := by
  have hempty : getImageBody whitePixel true = some [] := rfl
  refine ⟨hempty, ?_⟩
  rintro ⟨payload, plain, hpayload, -, hdec⟩
  rw [hempty] at hpayload
  cases hpayload
  cases hdec

end Logo

end Msm8909w

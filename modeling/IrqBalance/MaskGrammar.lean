import Mathlib.Data.List.DropRight
import Mathlib.Data.List.TakeWhile
import IrqBalance.Cpumask
import IrqBalance.Lib.Fields
import IrqBalance.Lib.Hex

/-!
# What `__bitmap_parse` accepts

The comment in front of `__bitmap_parse` gives a grammar: chunks of hexadecimal digits, 32 bits each, with
commas between them, and white space at the two ends. The parser goes through the text once; what it knows
at a point of the text are the chunks that a comma has closed and the digits of the chunk it is in. Two
texts outside of the grammar get through: one with white space inside, on which the parser returns success
with the chunks it has, and one whose length ends behind a comma.
-/

namespace IrqBalance

open CString Fields

/-- `CHUNKSZ`. -/
def chunkSz : ℕ := 32

/-! ### The grammar -/

/-- A chunk: hexadecimal digits, at least one, of a number of 32 bits. -/
def IsChunk (ch : Text) : Prop := ch ≠ [] ∧ (∀ c ∈ ch, isXDigit c = true) ∧ hexVal 0 ch < 2 ^ chunkSz

instance (ch : Text) : Decidable (IsChunk ch) := inferInstanceAs (Decidable (_ ∧ _ ∧ _))

/-- The number that chunks denote. -/
def chunksVal (chs : List Text) : ℕ := digitsFrom chunkSz 0 (chs.map (hexVal 0))

/-- The text without the white space at its ends. -/
def maskText (buf : Text) : Text := ((cstr buf).dropWhile isSpace).rdropWhile isSpace

/-- The text is a list of chunks, and their number has no more bits than a mask. -/
def Denotes (t : Text) (v : ℕ) : Prop :=
  (∀ ch ∈ t.splitOn ',', IsChunk ch) ∧ chunksVal (t.splitOn ',') = v ∧ v < 2 ^ nrCpus

instance (t : Text) (v : ℕ) : Decidable (Denotes t v) := inferInstanceAs (Decidable (_ ∧ _ ∧ _))

/-- **What the comment promises**: success on the texts of the grammar, with the mask that the text denotes,
and an error on every other text. -/
structure ParsesMask (buf : Text) : Prop where
  accepts : (bitmapParse buf).1 = 0 ↔ ∃ v, Denotes (maskText buf) v
  mask : ∀ v, Denotes (maskText buf) v → (bitmapParse buf).2.toNat = v
  rejects : (¬∃ v, Denotes (maskText buf) v) → (bitmapParse buf).1 < 0

/-- The beginning of a text of the grammar, as far as the parser can tell: chunks that a comma has closed,
and digits. -/
structure Begun (b : Text) : Prop where
  closed : ∀ ch ∈ closed ',' b, IsChunk ch
  fits : chunksVal (Fields.closed ',' b) < 2 ^ nrCpus
  digits : ∀ c ∈ current ',' b, isXDigit c = true
  small : hexVal 0 (current ',' b) < 2 ^ chunkSz

/-- The first word of the text. -/
def firstWord (buf : Text) : Text := ((cstr buf).dropWhile isSpace).takeWhile (!isSpace ·)

/-- The text behind its first word. -/
def behindWord (buf : Text) : Text := ((cstr buf).dropWhile isSpace).dropWhile (!isSpace ·)

/-- Such a beginning has white space behind it, and more text behind that. -/
def SpaceInside (buf : Text) : Prop := Begun (firstWord buf) ∧ ∃ c ∈ behindWord buf, isSpace c = false

/-- A text of the grammar has a comma behind it, and nothing behind that. -/
def CommaAtEnd (buf : Text) : Prop := ∃ b v, buf.dropWhile isSpace = b ++ [','] ∧ Denotes b v

/-! ### Beginnings -/

variable {b t buf rest : Text} {c : Char} {v x : ℕ} {p : BitmapParse}

theorem chunksVal_append (chs : List Text) (ch : Text) :
    chunksVal (chs ++ [ch]) = chunksVal chs * 2 ^ chunkSz + hexVal 0 ch := by
  unfold chunksVal
  rw [List.map_append, digitsFrom_append]
  rfl

theorem begun_nil : Begun [] := ⟨by simp, Nat.two_pow_pos nrCpus, by simp, Nat.two_pow_pos chunkSz⟩

theorem Denotes.begun (h : Denotes b v) : Begun b := by
  obtain ⟨hchunks, hv, hfits⟩ := h
  rw [← closed_append_current] at hchunks hv
  rw [chunksVal_append] at hv
  obtain ⟨-, hdigits, hsmall⟩ := hchunks (current ',' b) (by simp)
  refine ⟨fun ch hch => hchunks ch (by simp [hch]), ?_, hdigits, hsmall⟩
  have hle : chunksVal (closed ',' b) ≤ chunksVal (closed ',' b) * 2 ^ chunkSz :=
    Nat.le_mul_of_pos_right _ (by decide)
  omega

/-- A text of the grammar ends in a chunk, and its number fits. -/
theorem Begun.denotes_iff (h : Begun b) :
    (∃ v, Denotes b v) ↔ current ',' b ≠ [] ∧ chunksVal (b.splitOn ',') < 2 ^ nrCpus := by
  constructor
  · rintro ⟨v, hchunks, rfl, hfits⟩
    refine ⟨(hchunks _ ?_).1, hfits⟩
    rw [← closed_append_current]
    simp
  · rintro ⟨hne, hfits⟩
    refine ⟨_, fun ch hch => ?_, rfl, hfits⟩
    rw [← closed_append_current, List.mem_append, List.mem_singleton] at hch
    rcases hch with hch | rfl
    · exact h.closed ch hch
    · exact ⟨hne, h.digits, h.small⟩

/-- A comma closes the chunk. -/
theorem begun_concat_comma : Begun (b ++ [',']) ↔ ∃ v, Denotes b v := by
  constructor
  · rintro ⟨hclosed, hfits, -, -⟩
    rw [closed_concat_sep] at hclosed hfits
    exact ⟨_, hclosed, rfl, hfits⟩
  · rintro ⟨v, hchunks, rfl, hfits⟩
    refine ⟨?_, ?_, by simp, by simp [hexVal]⟩
    · rwa [closed_concat_sep]
    · rwa [closed_concat_sep]

/-- Another character has to be a digit, and the chunk must have room for it. -/
theorem begun_concat (hc : c ≠ ',') : Begun (b ++ [c]) ↔
    Begun b ∧ isXDigit c = true ∧ hexVal 0 (current ',' b) < 2 ^ 28 := by
  have hval : hexVal 0 (current ',' b ++ [c]) = 16 * hexVal 0 (current ',' b) + unhex c := hexVal_append ..
  have hsz : chunkSz = 32 := rfl
  constructor
  · rintro ⟨hclosed, hfits, hdigits, hsmall⟩
    rw [closed_concat hc] at hclosed hfits
    rw [current_concat hc] at hdigits hsmall
    rw [hval, hsz] at hsmall
    refine ⟨⟨hclosed, hfits, fun d hd => hdigits d (by simp [hd]), ?_⟩, hdigits c (by simp), by omega⟩
    rw [hsz]
    omega
  · rintro ⟨⟨hclosed, hfits, hdigits, -⟩, hx, hroom⟩
    have hlt := unhex_lt hx
    refine ⟨?_, ?_, ?_, ?_⟩
    · rwa [closed_concat hc]
    · rwa [closed_concat hc]
    · intro d hd
      rw [current_concat hc, List.mem_append, List.mem_singleton] at hd
      rcases hd with hd | rfl
      · exact hdigits d hd
      · exact hx
    · rw [current_concat hc, hval, hsz]
      omega

/-- A beginning consists of digits and commas. -/
theorem Begun.of_mem (h : Begun b) : ∀ c ∈ b, isXDigit c = true ∨ c = ',' := by
  induction b using List.reverseRecOn with
  | nil => simp
  | append_singleton b d ih =>
    intro c hc
    rw [List.mem_append, List.mem_singleton] at hc
    by_cases hd : d = ','
    · subst hd
      obtain ⟨v, hv⟩ := begun_concat_comma.1 h
      rcases hc with hc | rfl
      · exact ih hv.begun c hc
      · exact Or.inr rfl
    · obtain ⟨hb, hx, -⟩ := (begun_concat hd).1 h
      rcases hc with hc | rfl
      · exact ih hb c hc
      · exact Or.inl hx

/-! ### What the parser knows -/

/-- The variables of the parser when it has read `b`. -/
structure HasParsed (p : BitmapParse) (b : Text) : Prop where
  mask : p.maskp.toNat = chunksVal (closed ',' b)
  nbits : p.nbits = nbitsToHoldValue (chunksVal (closed ',' b))
  nchunks : p.nchunks = 0 ↔ chunksVal (closed ',' b) = 0
  chunk : p.chunk = hexVal 0 (current ',' b)
  ndigits : p.ndigits = (current ',' b).length
  total : p.totaldigits = 0 ↔ b = []
  last : b ≠ [] → isSpace p.c = false

theorem hasParsed_nil (c : Char) : HasParsed { c := c } [] := by
  refine ⟨BitVec.toNat_zero, rfl, iff_of_true rfl rfl, rfl, rfl, iff_of_true rfl rfl, fun h => absurd rfl h⟩

theorem nbitsToHoldValue_le_iff {n : ℕ} : nbitsToHoldValue v ≤ n ↔ v < 2 ^ n := by
  unfold nbitsToHoldValue
  split_ifs with hv
  · simp [hv]
  · rw [Nat.add_one_le_iff, Nat.log2_lt hv]

/-- Every chunk behind the first that is not zero adds its 32 bits. -/
theorem nbitsToHoldValue_chunk (hv : v ≠ 0) (hx : x < 2 ^ 32) :
    nbitsToHoldValue (v * 2 ^ 32 + x) = nbitsToHoldValue v + 32 := by
  refine eq_of_forall_ge_iff fun n => ?_
  rw [nbitsToHoldValue_le_iff]
  by_cases hn : n < 32
  · have hpow : 2 ^ n ≤ 2 ^ 32 := Nat.pow_le_pow_right (by decide) hn.le
    omega
  · obtain ⟨m, rfl⟩ := Nat.exists_eq_add_of_le' (not_lt.1 hn)
    rw [Nat.add_le_add_iff_right, nbitsToHoldValue_le_iff, pow_add]
    omega

theorem toNat_shift_or {m : Cpumask} (hm : m.toNat * 2 ^ 32 < 2 ^ nrCpus) (hx : x < 2 ^ 32) :
    (m <<< 32 ||| BitVec.ofNat nrCpus x).toNat = m.toNat * 2 ^ 32 + x := by
  have hx' : x < 2 ^ nrCpus := hx.trans (Nat.pow_lt_pow_right (by decide) (by decide))
  rw [BitVec.toNat_or, BitVec.toNat_shiftLeft, BitVec.toNat_ofNat, Nat.shiftLeft_eq, Nat.mod_eq_of_lt hm,
    Nat.mod_eq_of_lt hx', mul_comm, Nat.two_pow_add_eq_or_of_lt hx]

/-- The test at the end of a chunk is about the number so far. -/
theorem HasParsed.nbits_chunk (h : HasParsed p b) (hx : p.chunk < 2 ^ 32) :
    p.nbits + (if p.nchunks = 0 then nbitsToHoldValue p.chunk else 32) =
      nbitsToHoldValue (chunksVal (closed ',' b) * 2 ^ 32 + p.chunk) := by
  rw [h.nbits]
  split_ifs with hfirst
  · rw [h.nchunks.1 hfirst, Nat.zero_mul, Nat.zero_add]
    exact Nat.zero_add _
  · rw [nbitsToHoldValue_chunk (fun hz => hfirst (h.nchunks.2 hz)) hx]

/-- A comma ends a chunk, with which the mask holds the number so far. -/
theorem hasParsed_comma {p' : BitmapParse} (hv : Denotes b v) (hmask : p'.maskp.toNat = v)
    (hnbits : p'.nbits = nbitsToHoldValue v) (hnchunks : p'.nchunks = 0 ↔ v = 0) (htotal : p'.totaldigits ≠ 0) :
    HasParsed { p' with c := ',', chunk := 0, ndigits := 0 } (b ++ [',']) := by
  obtain ⟨-, rfl, -⟩ := hv
  refine ⟨?_, ?_, ?_, ?_, ?_, iff_of_false htotal (by simp), fun _ => rfl⟩
  · rw [closed_concat_sep]
    exact hmask
  · rw [closed_concat_sep]
    exact hnbits
  · rw [closed_concat_sep]
    exact hnchunks
  · rw [current_concat_sep]
    rfl
  · rw [current_concat_sep]
    rfl

/-- **The end of a chunk**: the text so far is in the grammar, or the function returns an error. -/
theorem HasParsed.endChunk (h : HasParsed p b) (hb : Begun b) :
    (∃ v p', Denotes b v ∧ p.endChunk = .ok p' ∧ p'.maskp.toNat = v ∧
      HasParsed { p' with c := ',', chunk := 0, ndigits := 0 } (b ++ [','])) ∨
    ((¬∃ v, Denotes b v) ∧ ∃ r, p.endChunk = .error r ∧ r.1 < 0) := by
  have hval : chunksVal (b.splitOn ',') = chunksVal (closed ',' b) * 2 ^ 32 + p.chunk := by
    rw [← closed_append_current, chunksVal_append, h.chunk]
    rfl
  have hx : p.chunk < 2 ^ 32 := h.chunk ▸ hb.small
  unfold BitmapParse.endChunk
  by_cases hnone : current ',' b = []
  · -- there is no digit
    have hndigits : p.ndigits = 0 := by rw [h.ndigits, hnone]; rfl
    rw [if_pos hndigits]
    exact Or.inr ⟨fun hv => (hb.denotes_iff.1 hv).1 hnone, _, rfl, (by decide : eInval < 0)⟩
  have hndigits : p.ndigits ≠ 0 := by rwa [h.ndigits, Ne, List.length_eq_zero_iff]
  have hne : b ≠ [] := by rintro rfl; exact hnone rfl
  have htotal : p.totaldigits ≠ 0 := fun hz => hne (h.total.1 hz)
  rw [if_neg hndigits]
  by_cases hfits : chunksVal (b.splitOn ',') < 2 ^ nrCpus
  · obtain ⟨v, hv⟩ := hb.denotes_iff.2 ⟨hnone, hfits⟩
    have hv' : v = chunksVal (closed ',' b) * 2 ^ 32 + p.chunk := hv.2.1.symm.trans hval
    by_cases hskip : p.nchunks = 0 ∧ p.chunk = 0
    · -- a zero chunk in front
      have hclosed := h.nchunks.1 hskip.1
      have hzero : v = 0 := by rw [hv', hclosed, hskip.2, Nat.zero_mul]
      have hmask : p.maskp.toNat = v := by rw [h.mask, hclosed, hzero]
      have hnbits : p.nbits = nbitsToHoldValue v := by rw [h.nbits, hclosed, hzero]
      rw [if_pos hskip]
      exact Or.inl ⟨v, p, hv, rfl, hmask, hasParsed_comma hv hmask hnbits (iff_of_true hskip.1 hzero) htotal⟩
    · have hmask : (p.maskp <<< 32 ||| BitVec.ofNat nrCpus p.chunk).toNat = v := by
        rw [toNat_shift_or (by rw [h.mask]; omega) hx, h.mask, hv']
      have hnonzero : v ≠ 0 := by
        rw [h.nchunks] at hskip
        omega
      rw [if_neg hskip]
      dsimp only
      rw [h.nbits_chunk hx, ← hv', if_neg (not_lt.2 (nbitsToHoldValue_le_iff.2 hv.2.2))]
      exact Or.inl ⟨v, _, hv, rfl, hmask,
        hasParsed_comma hv hmask rfl (iff_of_false (Nat.succ_ne_zero _) hnonzero) htotal⟩
  · have hskip : ¬(p.nchunks = 0 ∧ p.chunk = 0) := by
      rintro ⟨hfirst, hzero⟩
      rw [hval, h.nchunks.1 hfirst, hzero, Nat.zero_mul] at hfits
      exact hfits (Nat.two_pow_pos nrCpus)
    rw [if_neg hskip]
    dsimp only
    rw [h.nbits_chunk hx, ← hval, if_pos (not_le.1 fun hle => hfits (nbitsToHoldValue_le_iff.1 hle))]
    exact Or.inr ⟨fun hv => hfits (hb.denotes_iff.1 hv).2, _, rfl, (by decide : eOverflow < 0)⟩

/-! ### The loops -/

theorem HasParsed.clean (h : HasParsed p b) : ¬(p.totaldigits ≠ 0 ∧ c ≠ '\x00' ∧ isSpace p.c = true) := by
  rintro ⟨htotal, -, hc⟩
  rw [h.last fun hb => htotal (h.total.2 hb)] at hc
  cases hc

/-- A character with which the text is still the beginning of one. -/
theorem HasParsed.step (h : HasParsed p b) (hb : Begun (b ++ [c])) (rest : Text) (hrest : c = ',' → rest ≠ []) :
    ∃ p', HasParsed p' (b ++ [c]) ∧ bitmapParseFrom (c :: rest) p = bitmapParseFrom rest p' := by
  by_cases hc : c = ','
  · subst hc
    have hv := begun_concat_comma.1 hb
    obtain ⟨v, p', -, hok, -, hp'⟩ | ⟨hno, -⟩ := h.endChunk hv.choose_spec.begun
    · refine ⟨_, hp', ?_⟩
      rw [bitmapParseFrom, if_neg (by decide), if_neg h.clean, if_pos (Or.inr rfl), hok]
      exact if_pos ⟨hrest rfl, rfl⟩
    · exact absurd hv hno
  · obtain ⟨-, hx, hroom⟩ := (begun_concat hc).1 hb
    obtain ⟨hspace, hnul, -⟩ := isSpace_of_isXDigit hx
    refine ⟨{ p with
      c := c, chunk := 16 * p.chunk + unhex c, ndigits := p.ndigits + 1, totaldigits := p.totaldigits + 1 }, ?_, ?_⟩
    · refine ⟨?_, ?_, ?_, ?_, ?_, iff_of_false (Nat.succ_ne_zero _) (by simp), fun _ => hspace⟩
      · rw [closed_concat hc]; exact h.mask
      · rw [closed_concat hc]; exact h.nbits
      · rw [closed_concat hc]; exact h.nchunks
      · rw [current_concat hc, hexVal_append, ← h.chunk]; rfl
      · rw [current_concat hc, List.length_append, ← h.ndigits]; rfl
    · rw [bitmapParseFrom, if_neg (by simp [hspace]), if_neg h.clean, if_neg (by simp [hnul, hc]),
        if_neg (by simp [hx]), if_neg (by rw [h.chunk]; omega)]

/-- A character with which it no longer is. -/
theorem HasParsed.stuck (h : HasParsed p b) (hb : Begun b) (hc : isSpace c = false ∧ c ≠ '\x00')
    (hno : ¬Begun (b ++ [c])) : (bitmapParseFrom (c :: rest) p).1 < 0 := by
  rw [bitmapParseFrom, if_neg (by simp [hc.1]), if_neg h.clean]
  by_cases hcomma : c = ','
  · subst hcomma
    obtain ⟨v, p', hv, -⟩ | ⟨-, r, herr, hr⟩ := h.endChunk hb
    · exact absurd (begun_concat_comma.2 ⟨v, hv⟩) hno
    · rw [if_pos (Or.inr rfl), herr]
      exact hr
  · rw [if_neg (by simp [hc.2, hcomma])]
    by_cases hx : isXDigit c = true
    · have hfull : 2 ^ 28 ≤ p.chunk := by
        rw [h.chunk]
        exact not_lt.1 fun hroom => hno ((begun_concat hcomma).2 ⟨hb, hx, hroom⟩)
      rw [if_neg (by simp [hx]), if_pos hfull]
      exact (by decide : eOverflow < 0)
    · rw [if_pos (by simp [hx])]
      exact (by decide : eInval < 0)

variable {p₀ : BitmapParse}

/-- The parser reads a beginning, and a comma at its end if there is more text. -/
theorem bitmapParseFrom_begun (h : HasParsed p₀ []) (hb : Begun b) (rest : Text)
    (hrest : b.getLast? = some ',' → rest ≠ []) :
    ∃ p, HasParsed p b ∧ bitmapParseFrom (b ++ rest) p₀ = bitmapParseFrom rest p := by
  induction b using List.reverseRecOn generalizing rest with
  | nil => exact ⟨p₀, h, rfl⟩
  | append_singleton b c ih =>
    have hb' : Begun b := by
      by_cases hc : c = ','
      · subst hc
        exact (begun_concat_comma.1 hb).choose_spec.begun
      · exact ((begun_concat hc).1 hb).1
    obtain ⟨p, hp, hread⟩ := ih hb' (c :: rest) fun _ => List.cons_ne_nil c rest
    obtain ⟨p', hp', hstep⟩ := hp.step hb rest fun hc => hrest (by simp [hc])
    exact ⟨p', hp', by rw [List.append_assoc, List.singleton_append, hread, hstep]⟩

/-- On any other word it returns an error, whatever follows. -/
theorem bitmapParseFrom_not_begun (h : HasParsed p₀ []) (hb : ¬Begun b)
    (hword : ∀ c ∈ b, isSpace c = false ∧ c ≠ '\x00') : (bitmapParseFrom (b ++ rest) p₀).1 < 0 := by
  induction b using List.reverseRecOn generalizing rest with
  | nil => exact absurd begun_nil hb
  | append_singleton b c ih =>
    rw [List.append_assoc, List.singleton_append]
    by_cases hb' : Begun b
    · obtain ⟨p, hp, hread⟩ := bitmapParseFrom_begun h hb' (c :: rest) fun _ => List.cons_ne_nil c rest
      rw [hread]
      exact hp.stuck hb' (hword c (by simp)) hb
    · exact ih hb' fun d hd => hword d (by simp [hd])

/-- White space. -/
theorem bitmapParseFrom_space (sp rest : Text) (hsp : ∀ c ∈ sp, isSpace c = true) (p : BitmapParse) :
    ∃ d, (sp ≠ [] → isSpace d = true) ∧
      bitmapParseFrom (sp ++ rest) p = bitmapParseFrom rest { p with c := d } := by
  induction sp generalizing p with
  | nil => exact ⟨p.c, fun h => absurd rfl h, rfl⟩
  | cons c sp ih =>
    obtain ⟨d, hd, hread⟩ := ih (fun d hd => hsp d (List.mem_cons_of_mem c hd)) { p with c := c }
    rw [List.cons_append, bitmapParseFrom, if_pos (hsp c List.mem_cons_self)]
    by_cases hnil : sp = []
    · subst hnil
      exact ⟨c, fun _ => hsp c List.mem_cons_self, rfl⟩
    · exact ⟨d, fun _ => hd hnil, hread⟩

/-! ### Words -/

theorem firstWord_append_behindWord (buf : Text) :
    firstWord buf ++ behindWord buf = (cstr buf).dropWhile isSpace :=
  List.takeWhile_append_dropWhile

theorem of_mem_firstWord (h : c ∈ firstWord buf) : isSpace c = false ∧ c ≠ '\x00' := by
  have hspace := List.mem_takeWhile_imp h
  have hnul := List.mem_takeWhile_imp (List.dropWhile_sublist _ |>.subset (List.takeWhile_sublist _ |>.subset h))
  simpa using And.intro hspace hnul

/-- The buffer: white space, the word, what is behind it, and perhaps a NUL. -/
theorem exists_eq_firstWord (buf : Text) : ∃ lead tail : Text, (∀ c ∈ lead, isSpace c = true) ∧
    (tail = [] ∨ ∃ r, tail = '\x00' :: r) ∧ buf = lead ++ (firstWord buf ++ (behindWord buf ++ tail)) := by
  refine ⟨(cstr buf).takeWhile isSpace, buf.dropWhile (· ≠ '\x00'), fun c hc => List.mem_takeWhile_imp hc, ?_, ?_⟩
  · cases htail : buf.dropWhile (· ≠ '\x00') with
    | nil => exact Or.inl rfl
    | cons c r =>
      have hc := List.head?_dropWhile_not (· ≠ '\x00') buf
      rw [htail] at hc
      exact Or.inr ⟨r, by rw [of_decide_eq_false hc |> not_not.1]⟩
  · rw [← List.append_assoc (firstWord buf), firstWord_append_behindWord, ← List.append_assoc,
      List.takeWhile_append_dropWhile]
    exact List.takeWhile_append_dropWhile.symm

/-- The texts of the grammar are words. -/
theorem denotes_maskText_iff :
    Denotes (maskText buf) v ↔ Denotes (firstWord buf) v ∧ ∀ c ∈ behindWord buf, isSpace c = true := by
  constructor
  · intro h
    have hword : ∀ c ∈ maskText buf, (!isSpace c) = true := fun c hc => by
      rcases h.begun.of_mem c hc with hx | rfl
      · rw [(isSpace_of_isXDigit hx).1, Bool.not_false]
      · rfl
    have htrail : ∀ c ∈ ((cstr buf).dropWhile isSpace).rtakeWhile isSpace, isSpace c = true :=
      fun c hc => List.mem_rtakeWhile_imp hc
    have hsplit : (cstr buf).dropWhile isSpace = maskText buf ++ ((cstr buf).dropWhile isSpace).rtakeWhile isSpace :=
      List.rdropWhile_append_rtakeWhile.symm
    generalize ((cstr buf).dropWhile isSpace).rtakeWhile isSpace = sp at htrail hsplit
    have hnone : sp.takeWhile (!isSpace ·) = [] := by
      cases sp with
      | nil => rfl
      | cons c sp => rw [List.takeWhile_cons_of_neg (by simp [htrail c])]
    have hfirst : firstWord buf = maskText buf := by
      rw [firstWord, hsplit, List.takeWhile_append_of_pos hword, hnone, List.append_nil]
    refine ⟨hfirst.symm ▸ h, fun c hc => htrail c ?_⟩
    rw [behindWord, hsplit, List.dropWhile_append_of_pos hword] at hc
    exact List.dropWhile_sublist _ |>.subset hc
  · rintro ⟨h, hspace⟩
    have hmask : maskText buf = firstWord buf := by
      have hlast : (firstWord buf).rdropWhile isSpace = firstWord buf := by
        rw [List.rdropWhile_eq_self_iff]
        intro hne
        rw [(of_mem_firstWord (List.getLast_mem hne)).1]
        decide
      conv_rhs => rw [← hlast]
      rw [maskText, ← firstWord_append_behindWord, List.rdropWhile, List.rdropWhile, List.reverse_append,
        List.dropWhile_append_of_pos fun c hc => hspace c (List.mem_reverse.1 hc)]
    rwa [hmask]

/-- Behind the first word there is white space, if anything. -/
theorem head_behindWord {r : Text} (h : behindWord buf = c :: r) : isSpace c = true := by
  have hc := List.head?_dropWhile_not (!isSpace ·) ((cstr buf).dropWhile isSpace)
  rw [← behindWord, h] at hc
  simpa using hc

/-- In front of anything behind the first word there is the first word. -/
theorem firstWord_ne_nil (h : behindWord buf ≠ []) : firstWord buf ≠ [] := by
  intro hnil
  obtain ⟨c, r, hr⟩ := List.exists_cons_of_ne_nil h
  have hc := List.head?_dropWhile_not isSpace (cstr buf)
  rw [← firstWord_append_behindWord, hnil, hr] at hc
  have hspace := head_behindWord hr
  simp only [List.nil_append, List.head?_cons] at hc
  rw [hspace] at hc
  cases hc

/-- The beginning of a text of the grammar is its first word, with white space on both sides of it. -/
theorem firstWord_of_begun {lead e : Text} (hlead : ∀ c ∈ lead, isSpace c = true) (hb : Begun b)
    (he : ∀ c ∈ e, isSpace c = true) :
    firstWord (lead ++ (b ++ e)) = b ∧ ∀ c ∈ behindWord (lead ++ (b ++ e)), isSpace c = true := by
  have hword : ∀ c ∈ b, isSpace c = false ∧ c ≠ '\x00' := fun c hc => by
    rcases hb.of_mem c hc with hx | rfl
    · exact (isSpace_of_isXDigit hx).imp_right And.left
    · decide
  have hnul : ∀ c, isSpace c = true → c ≠ '\x00' := by
    rintro c hc rfl
    cases hc
  have hcstr : cstr (lead ++ (b ++ e)) = lead ++ (b ++ e) := by
    rw [cstr, List.takeWhile_eq_self_iff]
    intro c hc
    rw [List.mem_append, List.mem_append] at hc
    rcases hc with hc | hc | hc
    · exact decide_eq_true (hnul c (hlead c hc))
    · exact decide_eq_true (hword c hc).2
    · exact decide_eq_true (hnul c (he c hc))
  unfold firstWord behindWord
  rw [hcstr, List.dropWhile_append_of_pos hlead]
  cases b with
  | nil =>
    have hnil : e.dropWhile isSpace = [] := List.dropWhile_eq_nil_iff.2 he
    rw [List.nil_append, hnil]
    exact ⟨rfl, by simp⟩
  | cons c b =>
    have hspace : ∀ d ∈ c :: b, (!isSpace d) = true := fun d hd => by rw [(hword d hd).1, Bool.not_false]
    have hnone : e.takeWhile (!isSpace ·) = [] := by
      cases e with
      | nil => rfl
      | cons d e => rw [List.takeWhile_cons_of_neg (by simp [he d])]
    rw [List.cons_append, List.dropWhile_cons_of_neg (by simp [hword c List.mem_cons_self]), ← List.cons_append,
      List.takeWhile_append_of_pos hspace, hnone, List.dropWhile_append_of_pos hspace, List.append_nil]
    exact ⟨rfl, fun d hd => he d (List.dropWhile_sublist _ |>.subset hd)⟩

theorem Denotes.maskText {e : Text} (h : Denotes b v) (he : ∀ c ∈ e, isSpace c = true) :
    Denotes (maskText (b ++ e)) v := by
  have hlead : ∀ c ∈ ([] : Text), isSpace c = true := by simp
  obtain ⟨hfirst, hbehind⟩ := firstWord_of_begun hlead h.begun he
  rw [List.nil_append] at hfirst hbehind
  exact denotes_maskText_iff.2 ⟨hfirst.symm ▸ h, hbehind⟩

/-! ### The function -/

theorem bitmapParse_of_not_begun (hb : ¬Begun (firstWord buf)) : (bitmapParse buf).1 < 0 := by
  obtain ⟨lead, tail, hlead, -, hbuf⟩ := exists_eq_firstWord buf
  obtain ⟨d, -, hread⟩ := bitmapParseFrom_space lead (firstWord buf ++ (behindWord buf ++ tail)) hlead {}
  unfold bitmapParse
  rw [hbuf, hread]
  exact bitmapParseFrom_not_begun (hasParsed_nil d) hb fun c hc => of_mem_firstWord hc

/-- The loop ends behind the comma that is the last character. -/
theorem bitmapParse_commaAtEnd (h : CommaAtEnd buf) : (bitmapParse buf).1 = 0 := by
  obtain ⟨b, v, hbuf, hv⟩ := h
  obtain ⟨d, -, hread⟩ := bitmapParseFrom_space (buf.takeWhile isSpace) (b ++ [','])
    (fun c hc => List.mem_takeWhile_imp hc) {}
  rw [← hbuf, List.takeWhile_append_dropWhile, hbuf] at hread
  obtain ⟨p, hp, hword⟩ := bitmapParseFrom_begun (hasParsed_nil d) hv.begun [',']
    fun _ => List.cons_ne_nil _ _
  obtain ⟨v', p', -, hok, -⟩ | ⟨hno, -⟩ := hp.endChunk hv.begun
  · unfold bitmapParse
    rw [hread, hword, bitmapParseFrom, if_neg (by decide), if_neg hp.clean, if_pos (Or.inr rfl), hok]
    rfl
  · exact absurd ⟨v, hv⟩ hno

/-- Up to the end of the first word. -/
theorem bitmapParse_begun (hb : Begun (firstWord buf)) (hend : ¬CommaAtEnd buf) : ∃ p tail,
    (tail = [] ∨ ∃ r, tail = '\x00' :: r) ∧ HasParsed p (firstWord buf) ∧
      bitmapParse buf = bitmapParseFrom (behindWord buf ++ tail) p := by
  obtain ⟨lead, tail, hlead, htail, hbuf⟩ := exists_eq_firstWord buf
  obtain ⟨d, -, hread⟩ := bitmapParseFrom_space lead (firstWord buf ++ (behindWord buf ++ tail)) hlead {}
  obtain ⟨p, hp, hword⟩ := bitmapParseFrom_begun (hasParsed_nil d) hb (behindWord buf ++ tail) (by
    intro hcomma hnil
    obtain ⟨b, hlast⟩ := List.getLast?_eq_some_iff.1 hcomma
    have hdrop : buf.dropWhile isSpace = firstWord buf := by
      conv_lhs => rw [hbuf, hnil, List.append_nil, List.dropWhile_append_of_pos hlead]
      rw [List.dropWhile_eq_self_iff]
      intro hpos
      rw [(of_mem_firstWord (List.getElem_mem hpos)).1]
      decide
    rw [hlast] at hb
    obtain ⟨v, hv⟩ := begun_concat_comma.1 hb
    exact hend ⟨b, v, hdrop.trans hlast, hv⟩)
  refine ⟨p, tail, htail, hp, ?_⟩
  rw [← hword, ← hread, ← hbuf]
  rfl

/-- White space inside ends the function with success. -/
theorem bitmapParse_spaceInside (h : SpaceInside buf) : (bitmapParse buf).1 = 0 := by
  by_cases hend : CommaAtEnd buf
  · exact bitmapParse_commaAtEnd hend
  obtain ⟨hb, c, hc, hspace⟩ := h
  obtain ⟨p, tail, -, hp, hread⟩ := bitmapParse_begun hb hend
  have hbehind : behindWord buf ≠ [] := List.ne_nil_of_mem hc
  obtain ⟨s, r, hr⟩ := List.exists_cons_of_ne_nil hbehind
  have hs := head_behindWord hr
  -- the white space behind the first word, and what follows
  obtain ⟨x, rest, hrest⟩ : ∃ x rest, (behindWord buf).dropWhile isSpace = x :: rest := by
    refine List.exists_cons_of_ne_nil fun hnil => ?_
    rw [List.dropWhile_eq_nil_iff.1 hnil c hc] at hspace
    cases hspace
  have hx : isSpace x = false := by
    have hx := List.head?_dropWhile_not isSpace (behindWord buf)
    rwa [hrest] at hx
  have hnul : x ≠ '\x00' := by
    have hmem : x ∈ behindWord buf := List.dropWhile_sublist _ |>.subset (hrest ▸ List.mem_cons_self)
    have hcstr := List.dropWhile_sublist _ |>.subset (List.dropWhile_sublist _ |>.subset hmem)
    simpa using List.mem_takeWhile_imp hcstr
  have hfront : (behindWord buf).takeWhile isSpace ≠ [] := by
    rw [hr, List.takeWhile_cons_of_pos hs]
    exact List.cons_ne_nil s _
  obtain ⟨d, hd, hskip⟩ := bitmapParseFrom_space ((behindWord buf).takeWhile isSpace) (x :: rest ++ tail)
    (fun c hc => List.mem_takeWhile_imp hc) p
  have htotal : p.totaldigits ≠ 0 := fun hz => firstWord_ne_nil hbehind (hp.total.1 hz)
  rw [hread, ← List.takeWhile_append_dropWhile (p := isSpace) (l := behindWord buf), List.append_assoc, hrest,
    hskip, List.cons_append, bitmapParseFrom, if_neg (by simp [hx]), if_pos ⟨htotal, hnul, hd hfront⟩]

theorem endChunk_c (p : BitmapParse) (d : Char) :
    BitmapParse.endChunk { p with c := d } = p.endChunk.map fun p' => { p' with c := d } := by
  unfold BitmapParse.endChunk
  dsimp only
  split_ifs <;> rfl

/-- At the end of the text the last chunk ends. -/
theorem bitmapParseFrom_end {tail : Text} (htail : tail = [] ∨ ∃ r, tail = '\x00' :: r) (p : BitmapParse) :
    (∀ p', p.endChunk = .ok p' → bitmapParseFrom tail p = (0, p'.maskp)) ∧
      ∀ r, p.endChunk = .error r → bitmapParseFrom tail p = r := by
  rcases htail with rfl | ⟨r, rfl⟩
  · refine ⟨fun p' hok => ?_, fun r herr => ?_⟩
    · rw [bitmapParseFrom, hok]
    · rw [bitmapParseFrom, herr]
  · refine ⟨fun p' hok => ?_, fun r herr => ?_⟩
    · rw [bitmapParseFrom, if_neg (by decide), if_neg (by simp), if_pos (Or.inl rfl), hok]
      exact if_neg (by simp)
    · rw [bitmapParseFrom, if_neg (by decide), if_neg (by simp), if_pos (Or.inl rfl), herr]

/-- With nothing but white space behind it, the first word decides. -/
theorem bitmapParse_firstWord (hb : Begun (firstWord buf)) (hspace : ∀ c ∈ behindWord buf, isSpace c = true)
    (hend : ¬CommaAtEnd buf) :
    (∃ v, Denotes (firstWord buf) v ∧ bitmapParse buf = (0, BitVec.ofNat nrCpus v)) ∨
    ((¬∃ v, Denotes (firstWord buf) v) ∧ (bitmapParse buf).1 < 0) := by
  obtain ⟨p, tail, htail, hp, hread⟩ := bitmapParse_begun hb hend
  obtain ⟨d, -, hskip⟩ := bitmapParseFrom_space (behindWord buf) tail hspace p
  obtain ⟨hlast, hfail⟩ := bitmapParseFrom_end htail { p with c := d }
  rw [endChunk_c] at hlast hfail
  rw [hread, hskip]
  obtain ⟨v, p', hv, hok, hmask, -⟩ | ⟨hno, r, herr, hr⟩ := hp.endChunk hb
  · rw [hlast { p' with c := d } (by rw [hok]; rfl)]
    exact Or.inl ⟨v, hv, by rw [← hmask, BitVec.ofNat_toNat, BitVec.setWidth_eq]⟩
  · rw [hfail r (by rw [herr]; rfl)]
    exact Or.inr ⟨hno, hr⟩

theorem CommaAtEnd.firstWord_eq (h : CommaAtEnd buf) : ∃ b, firstWord buf = b ++ [','] := by
  obtain ⟨b, v, hbuf, hv⟩ := h
  have hsplit : buf = buf.takeWhile isSpace ++ (b ++ [','] ++ []) := by
    rw [List.append_nil, ← hbuf, List.takeWhile_append_dropWhile]
  refine ⟨b, ?_⟩
  rw [hsplit]
  exact (firstWord_of_begun (fun c hc => List.mem_takeWhile_imp hc) (begun_concat_comma.2 ⟨v, hv⟩) (by simp)).1

theorem not_commaAtEnd_of_denotes (h : Denotes (maskText buf) v) : ¬CommaAtEnd buf := by
  intro hend
  obtain ⟨b, hb⟩ := hend.firstWord_eq
  obtain ⟨hchunks, -⟩ := (denotes_maskText_iff.1 h).1
  rw [hb, splitOn_concat_sep] at hchunks
  exact (hchunks [] (by simp)).1 rfl

/-- **Every text of the grammar is parsed.** -/
theorem bitmapParse_of_denotes (h : Denotes (maskText buf) v) :
    bitmapParse buf = (0, BitVec.ofNat nrCpus v) := by
  obtain ⟨hword, hspace⟩ := denotes_maskText_iff.1 h
  obtain ⟨w, hw, hparse⟩ | ⟨hno, -⟩ :=
    bitmapParse_firstWord hword.begun hspace (not_commaAtEnd_of_denotes h)
  · rw [hparse, ← hw.2.1, hword.2.1]
  · exact absurd ⟨v, hword⟩ hno

/-- **Where `__bitmap_parse` does what its comment promises**: on every text but those with white space
inside, and those whose length ends behind a comma. -/
theorem parsesMask_iff (buf : Text) : ParsesMask buf ↔ ¬SpaceInside buf ∧ ¬CommaAtEnd buf := by
  constructor
  · intro h
    refine ⟨fun hinside => ?_, fun hend => ?_⟩
    · obtain ⟨v, hv⟩ := h.accepts.1 (bitmapParse_spaceInside hinside)
      obtain ⟨-, c, hc, hspace⟩ := hinside
      rw [(denotes_maskText_iff.1 hv).2 c hc] at hspace
      cases hspace
    · obtain ⟨v, hv⟩ := h.accepts.1 (bitmapParse_commaAtEnd hend)
      exact not_commaAtEnd_of_denotes hv hend
  · rintro ⟨hinside, hend⟩
    have hrejects : (¬∃ v, Denotes (maskText buf) v) → (bitmapParse buf).1 < 0 := by
      intro hno
      by_cases hb : Begun (firstWord buf)
      · have hspace : ∀ c ∈ behindWord buf, isSpace c = true := fun c hc => by
          by_contra hns
          exact hinside ⟨hb, c, hc, Bool.not_eq_true _ ▸ hns⟩
        obtain ⟨v, hv, -⟩ | ⟨-, hneg⟩ := bitmapParse_firstWord hb hspace hend
        · exact absurd ⟨v, denotes_maskText_iff.2 ⟨hv, hspace⟩⟩ hno
        · exact hneg
      · exact bitmapParse_of_not_begun hb
    refine ⟨⟨fun hzero => ?_, fun ⟨v, hv⟩ => ?_⟩, fun v hv => ?_, hrejects⟩
    · by_contra hno
      have hneg := hrejects hno
      omega
    · rw [bitmapParse_of_denotes hv]
    · rw [bitmapParse_of_denotes hv]
      exact BitVec.toNat_ofNat .. |>.trans (Nat.mod_eq_of_lt hv.2.2)

/-- `IRQBALANCE_BANNED_CPUS="1 2"` bans no cpu, and this is a success. -/
theorem not_parsesMask_one_two : bitmapParse "1 2".toList = (0, 0) ∧ ¬ParsesMask "1 2".toList := by
  have hparse : bitmapParse "1 2".toList = (0, 0) := by decide +kernel
  refine ⟨hparse, fun h => ?_⟩
  obtain ⟨v, hchunks, -⟩ := h.accepts.1 (by rw [hparse])
  have hchunk : "1 2".toList ∈ "1 2".toList.splitOn ',' := by decide +kernel
  exact absurd ((hchunks _ hchunk).2.1 ' ' (by decide)) (by decide)

example : bitmapParse "1,".toList = (0, 1) := by decide +kernel

end IrqBalance

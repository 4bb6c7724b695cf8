import IrqBalance.Activate
import IrqBalance.MaskGrammar

/-!
# Masks as text

`bitmap_scnprintf` prints the mask that `activate_mapping` writes to `smp_affinity`, and `__bitmap_parse`
reads it back in `check_affinity`. The printer takes 32-bit chunks out of 64-bit words and leaves out the
zero chunks in front; the parser shifts the words it has by one chunk and adds the next.
-/

namespace IrqBalance

open CString

/-- `PATH_MAX`. -/
def pathMax : ℕ := 4096

/-- The words of the bitmap, `BITS_PER_LONG` bits each. -/
def Cpumask.words (m : Cpumask) : ℕ → BitVec 64 := fun w => m.extractLsb' (64 * w) 64

/-! ### The source -/

/-- The local variables of `bitmap_scnprintf`, and the text in its buffer. -/
structure BitmapScnprintf where
  buf : Text := []
  len : ℕ := 0
  sep : Text := []
  first : Bool := true

/-- `snprintf(buf + len, buflen - len, ..)` for the output `s`: the text in the buffer. There is none
where the difference of the unsigned numbers would wrap. -/
def snprintf (buf : Text) (len buflen : ℕ) (s : Text) : Option Text :=
  if len ≤ buflen then some (buf.take len ++ s.take (buflen - len - 1)) else none

/-- One round of the loop in `bitmap_scnprintf`: the chunk that starts at the bit `i`. As the number of
bits is a multiple of `CHUNKSZ`, the first chunk is no shorter. -/
def scnprintfChunk (buflen : ℕ) (maskp : ℕ → BitVec 64) (p : BitmapScnprintf) (i : ℕ) :
    Option BitmapScnprintf :=
  let chunkmask : BitVec 64 := (1 <<< chunkSz) - 1
  let val := maskp (i / 64) >>> (i % 64) &&& chunkmask
  if val ≠ 0 ∨ p.first = false ∨ i = 0 then do
    let s := p.sep ++ printHex ((chunkSz + 3) / 4) val.toNat
    let buf ← snprintf p.buf p.len buflen s
    some { buf := buf, len := p.len + s.length, sep := [','], first := false }
  else some p

/-- `bitmap_scnprintf`: the text in the buffer and the return value. -/
def bitmapScnprintf (buflen : ℕ) (maskp : ℕ → BitVec 64) : Option (Text × ℕ) :=
  (((List.range (nrCpus / chunkSz)).reverse.map (chunkSz * ·)).foldlM (scnprintfChunk buflen maskp) {}).map
    fun p => (p.buf, p.len)

/-- One round of the loop in `__bitmap_shift_left`. -/
def shiftLeftWord (lim left off rem : ℕ) (bitmap : ℕ → BitVec 64) (k : ℕ) : ℕ → BitVec 64 :=
  let lower := if rem ≠ 0 ∧ 0 < k then bitmap (k - 1) else 0
  let upper := if left ≠ 0 ∧ k = lim - 1 then bitmap k &&& (1 <<< left - 1) else bitmap k
  let word := lower >>> (64 - rem) ||| upper <<< rem
  Function.update bitmap (k + off) (if left ≠ 0 ∧ k + off = lim - 1 then word &&& (1 <<< left - 1) else word)

/-- `__bitmap_shift_left` in place. -/
def bitmapShiftLeft (bitmap : ℕ → BitVec 64) (shift bits : ℕ) : ℕ → BitVec 64 :=
  let lim := (bits + 63) / 64
  let left := bits % 64
  let off := shift / 64
  let rem := shift % 64
  let bitmap := (List.range (lim - off)).reverse.foldl (shiftLeftWord lim left off rem) bitmap
  fun w => if w < off then 0 else bitmap w

/-- `check_affinity` on the contents of `smp_affinity`, if the file can be opened. -/
def checkAffinityFile (file : Option Text) (appliedMask : Cpumask) : Bool :=
  match file with
  | none => true
  | some text => appliedMask = cpumaskParseUser (firstLine text)

example : (bitmapScnprintf pathMax (Cpumask.words 0x10000000f)).map (fun r => String.ofList r.1) =
    some "00000001,0000000f" := by
  decide +kernel

/-! ### The shift -/

variable {m : Cpumask} {a : ℕ → BitVec 64} {n k off rem : ℕ}

/-- In place, the words are still what they were when they are read. -/
theorem foldl_shiftLeftWord (lim left off rem n : ℕ) (a : ℕ → BitVec 64) (w : ℕ) :
    (List.range n).reverse.foldl (shiftLeftWord lim left off rem) a w =
      if off ≤ w ∧ w - off < n then shiftLeftWord lim left off rem a (w - off) w else a w := by
  induction n generalizing a with
  | zero => simp
  | succ n ih =>
    rw [List.range_succ, List.reverse_append, List.reverse_singleton, List.singleton_append,
      List.foldl_cons, ih]
    by_cases hw : off ≤ w ∧ w - off < n
    · rw [if_pos hw, if_pos ⟨hw.1, hw.2.trans n.lt_succ_self⟩]
      have hread : ∀ j ≤ w - off, shiftLeftWord lim left off rem a n j = a j := fun j hj =>
        Function.update_of_ne (by omega) ..
      have hlower := hread (w - off - 1) (by omega)
      have hupper := hread (w - off) le_rfl
      generalize shiftLeftWord lim left off rem a n = a' at hlower hupper
      have hat : w - off + off = w := by omega
      unfold shiftLeftWord
      rw [hat, Function.update_self, Function.update_self, hlower, hupper]
    · rw [if_neg hw]
      by_cases hn : off ≤ w ∧ w - off < n + 1
      · have e : w - off = n := by omega
        rw [if_pos hn, e]
      · rw [if_neg hn]
        exact Function.update_of_ne (by omega) ..

theorem getLsbD_words (m : Cpumask) (w b : ℕ) (hb : b < 64) :
    (m.words w).getLsbD b = m.getLsbD (64 * w + b) := by
  simp [Cpumask.words, hb]

/-- **`__bitmap_shift_left` shifts the mask.** -/
theorem bitmapShiftLeft_words (m : Cpumask) (shift : ℕ) :
    bitmapShiftLeft m.words shift nrCpus = Cpumask.words (m <<< shift) := by
  funext w
  apply BitVec.eq_of_getLsbD_eq
  intro b hb
  have hshift : 64 * (shift / 64) + shift % 64 = shift := Nat.div_add_mod shift 64
  have hrem : shift % 64 < 64 := Nat.mod_lt shift (by decide)
  rw [getLsbD_words _ w b hb, BitVec.getLsbD_shiftLeft]
  unfold bitmapShiftLeft nrCpus
  rw [foldl_shiftLeftWord]
  generalize shift / 64 = off at *
  generalize shift % 64 = rem at *
  by_cases hlow : w < off
  · -- the words below the shift are cleared
    have hbit : 64 * w + b < shift := by omega
    rw [if_pos hlow]
    simp [hbit]
  rw [if_neg hlow]
  by_cases hhigh : w < 64
  · have hw : off ≤ w ∧ w - off < (4096 + 63) / 64 - off := by omega
    have hat : w - off + off = w := by omega
    have hbit : 64 * w + b < 4096 := by omega
    rw [if_pos hw]
    unfold shiftLeftWord
    rw [hat, Function.update_self]
    simp only [Nat.reduceMod, ne_eq, not_true_eq_false, false_and, if_false, BitVec.getLsbD_or,
      BitVec.getLsbD_ushiftRight, BitVec.getLsbD_shiftLeft, hb, hbit, decide_true, Bool.true_and]
    by_cases hborrow : b < rem
    · -- the bit comes from the word below, if there is one
      have hrem0 : rem ≠ 0 := by omega
      by_cases hfirst : 0 < w - off
      · have hword := getLsbD_words m (w - off - 1) (64 - rem + b) (by omega)
        have hsrc : 64 * (w - off - 1) + (64 - rem + b) = 64 * w + b - shift := by omega
        have hge : ¬64 * w + b < shift := by omega
        rw [if_pos ⟨hrem0, hfirst⟩, hword, hsrc]
        simp [hborrow, hge]
      · have hlt : 64 * w + b < shift := by omega
        rw [if_neg fun h => hfirst h.2]
        simp [hborrow, hlt]
    · have hword := getLsbD_words m (w - off) (b - rem) (by omega)
      have hsrc : 64 * (w - off) + (b - rem) = 64 * w + b - shift := by omega
      have hge : ¬64 * w + b < shift := by omega
      have hnone : ∀ x : BitVec 64, x.getLsbD (64 - rem + b) = false := fun x =>
        BitVec.getLsbD_of_ge x _ (by omega)
      rw [hnone, hword, hsrc]
      simp [hborrow, hge]
  · -- there is no such word
    have hno : ¬(off ≤ w ∧ w - off < (4096 + 63) / 64 - off) := by omega
    have hbit : ¬64 * w + b < 4096 := by omega
    rw [if_neg hno, getLsbD_words m w b hb, BitVec.getLsbD_of_ge m _ (by unfold nrCpus; omega)]
    simp [hbit]

/-! ### The chunks -/

variable {v : ℕ}

/-- The text of some chunks. -/
def chunkText (l : List ℕ) : Text := [','].intercalate (l.map (printHex 8))

theorem chunkText_append {l : List ℕ} (hl : l ≠ []) (x : ℕ) :
    chunkText (l ++ [x]) = chunkText l ++ ',' :: printHex 8 x := by
  unfold chunkText
  induction l with
  | nil => exact absurd rfl hl
  | cons y l ih =>
    cases l with
    | nil => simp [List.intercalate_cons_cons]
    | cons z l =>
      have hrest := ih (List.cons_ne_nil z l)
      simp only [List.cons_append, List.map_cons, List.intercalate_cons_cons] at hrest ⊢
      rw [hrest]
      simp

theorem chunkText_ne_nil {l : List ℕ} (hl : l ≠ []) : chunkText l ≠ [] := by
  rw [← List.dropLast_concat_getLast hl]
  by_cases hinit : l.dropLast = []
  · rw [hinit, List.nil_append]
    exact fun h => printHex_ne_nil 8 _ (List.intercalate_singleton.symm.trans h)
  · rw [chunkText_append hinit]
    simp

/-- The text of the chunks is in the grammar of the parser, and denotes the number that the chunks are the
digits of. -/
theorem denotes_chunkText {l : List ℕ} (hne : l ≠ []) (hl : ∀ x ∈ l, x < 2 ^ 32) (hv : digitsFrom chunkSz 0 l = v)
    (hfits : v < 2 ^ nrCpus) : Denotes (chunkText l) v := by
  have hsplit : (chunkText l).splitOn ',' = l.map (printHex 8) := by
    refine List.splitOn_intercalate ',' (fun ch hch hcomma => ?_) (by simpa using hne)
    obtain ⟨x, -, rfl⟩ := List.mem_map.1 hch
    exact (isSpace_of_isXDigit (isXDigit_of_mem_printHex hcomma)).2.2 rfl
  have hvalue : (l.map (printHex 8)).map (hexVal 0) = l := by
    rw [List.map_map]
    exact List.map_id'' (fun x => hexVal_printHex 8 x) l
  refine ⟨?_, ?_, hfits⟩
  · rw [hsplit]
    intro ch hch
    obtain ⟨x, hx, rfl⟩ := List.mem_map.1 hch
    refine ⟨printHex_ne_nil 8 x, fun c => isXDigit_of_mem_printHex, ?_⟩
    rw [hexVal_printHex]
    exact hl x hx
  · rw [hsplit, chunksVal, hvalue, hv]

/-! ### The printer -/

/-- The chunk of the mask that starts at the bit `32 * j`. -/
def chunkAt (m : Cpumask) (j : ℕ) : ℕ := m.toNat / 2 ^ (chunkSz * j) % 2 ^ chunkSz

theorem chunkAt_lt (m : Cpumask) (j : ℕ) : chunkAt m j < 2 ^ 32 := Nat.mod_lt _ (by decide)

/-- A chunk does not go over the end of its word. -/
theorem toNat_words_chunk (m : Cpumask) (j : ℕ) :
    (m.words (chunkSz * j / 64) >>> (chunkSz * j % 64) &&& ((1 <<< chunkSz) - 1)).toNat = chunkAt m j := by
  have hmask : ((1 <<< chunkSz) - 1 : BitVec 64).toNat = 2 ^ 32 - 1 := by decide
  have hbit : chunkSz * j % 64 = 0 ∨ chunkSz * j % 64 = 32 := by
    unfold chunkSz
    omega
  have hpow : 2 ^ (chunkSz * j) = 2 ^ (64 * (chunkSz * j / 64)) * 2 ^ (chunkSz * j % 64) := by
    rw [← pow_add, Nat.div_add_mod]
  rw [BitVec.toNat_and, hmask, Nat.and_two_pow_sub_one_eq_mod, BitVec.toNat_ushiftRight, Cpumask.words,
    BitVec.extractLsb'_toNat, Nat.shiftRight_eq_div_pow, Nat.shiftRight_eq_div_pow, chunkAt, hpow,
    ← Nat.div_div_eq_div_mul]
  generalize m.toNat / 2 ^ (64 * (chunkSz * j / 64)) = y
  rcases hbit with h | h <;> rw [h] <;> unfold chunkSz <;> omega

/-- What the loop has printed: the chunks `l`, which are the digits of `v`, at most `n` of them. -/
structure HasPrinted (p : BitmapScnprintf) (l : List ℕ) (n v : ℕ) : Prop where
  buf : p.buf = chunkText l
  len : p.len = p.buf.length
  sep : p.sep = if l = [] then [] else [',']
  first : p.first = decide (l = [])
  lt : ∀ x ∈ l, x < 2 ^ 32
  value : digitsFrom chunkSz 0 l = v
  length_le : l.length ≤ n

theorem length_chunkText_le {l : List ℕ} (hl : ∀ x ∈ l, x < 2 ^ 32) :
    (chunkText l).length ≤ 9 * l.length := by
  induction l with
  | nil => exact le_rfl
  | cons x l ih =>
    have hx : (printHex 8 x).length = 8 :=
      length_printHex (by decide) (hl x List.mem_cons_self)
    have hrest := ih fun y hy => hl y (List.mem_cons_of_mem x hy)
    unfold chunkText at hrest ⊢
    cases l with
    | nil => simp [hx]
    | cons y l =>
      rw [List.map_cons, List.map_cons, List.intercalate_cons_cons, List.length_append,
        List.length_append, hx]
      rw [List.map_cons] at hrest
      simp only [List.length_cons, List.length_nil] at hrest ⊢
      omega

variable {q : BitmapScnprintf} {l : List ℕ}

/-- One round of the loop. -/
theorem HasPrinted.chunk (h : HasPrinted q l n v) (hn : n < nrCpus / chunkSz) (m : Cpumask) (j : ℕ) :
    ∃ q' l', scnprintfChunk pathMax m.words q (chunkSz * j) = some q' ∧
      HasPrinted q' l' (n + 1) (v * 2 ^ chunkSz + chunkAt m j) ∧ (l ≠ [] ∨ j = 0 → l' ≠ []) := by
  have hval := toNat_words_chunk m j
  have hlength := h.length_le
  unfold scnprintfChunk
  dsimp only
  generalize m.words (chunkSz * j / 64) >>> (chunkSz * j % 64) &&& (1 <<< chunkSz - 1) = val at *
  by_cases hprint : val ≠ 0 ∨ q.first = false ∨ chunkSz * j = 0
  · -- the chunk is printed
    have hroom : q.len + 9 + 1 ≤ pathMax := by
      have hle := length_chunkText_le h.lt
      rw [← h.buf, ← h.len] at hle
      unfold nrCpus chunkSz at hn
      unfold pathMax
      omega
    have hdigits : (printHex 8 val.toNat).length = 8 := by
      rw [hval]
      exact length_printHex (by decide) (chunkAt_lt m j)
    have hs : (q.sep ++ printHex 8 val.toNat).length ≤ 9 := by
      rw [List.length_append, hdigits, h.sep]
      split <;> simp
    have htext : chunkText (l ++ [val.toNat]) = q.buf ++ (q.sep ++ printHex 8 val.toNat) := by
      rw [h.buf, h.sep]
      by_cases hl : l = []
      · subst hl
        exact List.intercalate_singleton
      · rw [if_neg hl, chunkText_append hl]
        rfl
    have hbuf : snprintf q.buf q.len pathMax (q.sep ++ printHex 8 val.toNat) =
        some (chunkText (l ++ [val.toNat])) := by
      unfold snprintf
      rw [if_pos (by omega), htext, h.len, List.take_length,
        List.take_of_length_le (by rw [← h.len]; omega)]
    rw [if_pos hprint]
    change ∃ q' l', (snprintf q.buf q.len pathMax (q.sep ++ printHex 8 val.toNat)).bind _ = some q' ∧ _
    rw [hbuf]
    refine ⟨_, l ++ [val.toNat], rfl, ⟨rfl, ?_, by simp, by simp, ?_, ?_, by simp; omega⟩, by simp⟩
    · have hlen := congrArg List.length htext
      rw [List.length_append, ← h.len] at hlen
      exact hlen.symm
    · intro x hx
      rcases List.mem_append.1 hx with hx | hx
      · exact h.lt x hx
      · rw [List.mem_singleton.1 hx, hval]
        exact chunkAt_lt m j
    · rw [digitsFrom_append, h.value, hval]
      rfl
  · -- a zero chunk in front is left out
    rw [if_neg hprint]
    simp only [not_or, not_not] at hprint
    obtain ⟨hval0, hfirst, hj⟩ := hprint
    have hl : l = [] := by
      rw [h.first, Bool.not_eq_false, decide_eq_true_eq] at hfirst
      exact hfirst
    have hchunk : chunkAt m j = 0 := by
      rw [← hval, hval0]
      rfl
    have hv : v = 0 := by
      rw [← h.value, hl]
      rfl
    refine ⟨q, l, rfl, ⟨h.buf, h.len, h.sep, h.first, h.lt, ?_, by omega⟩, ?_⟩
    · rw [h.value, hv, hchunk, Nat.zero_mul]
    · rintro (hne | rfl)
      · exact absurd hl hne
      · exact absurd rfl hj

/-- The loop from the chunk `n` downwards. -/
theorem HasPrinted.loop (m : Cpumask) {k : ℕ} (h : HasPrinted q l k v) (hk : k + n ≤ nrCpus / chunkSz) :
    ∃ q' l', ((List.range n).reverse.map (chunkSz * ·)).foldlM (scnprintfChunk pathMax m.words) q = some q' ∧
      HasPrinted q' l' (k + n) (digitsFrom chunkSz v ((List.range n).reverse.map (chunkAt m))) ∧
      (l ≠ [] ∨ n ≠ 0 → l' ≠ []) := by
  induction n generalizing q l k v with
  | zero => exact ⟨q, l, rfl, h, by simp⟩
  | succ n ih =>
    obtain ⟨q₁, l₁, hstep, h₁, hne₁⟩ := h.chunk (by omega) m n
    obtain ⟨q', l', hrest, h', hne'⟩ := ih h₁ (by omega)
    have hk' : k + 1 + n = k + (n + 1) := by omega
    rw [List.range_succ, List.reverse_append, List.reverse_singleton, List.singleton_append, List.map_cons,
      List.map_cons, List.foldlM_cons, hstep]
    refine ⟨q', l', hrest, hk' ▸ h', fun _ => hne' ?_⟩
    by_cases hn : n = 0
    · exact Or.inl (hne₁ (Or.inr hn))
    · exact Or.inr hn

/-- **`bitmap_scnprintf` prints the digits of the mask**, and they fit into the buffer. -/
theorem bitmapScnprintf_eq (m : Cpumask) : ∃ l : List ℕ, l ≠ [] ∧ l.length ≤ nrCpus / chunkSz ∧
    (∀ x ∈ l, x < 2 ^ 32) ∧ digitsFrom chunkSz 0 l = m.toNat ∧
    bitmapScnprintf pathMax m.words = some (chunkText l, (chunkText l).length) := by
  have hinit : HasPrinted {} [] 0 0 := ⟨rfl, rfl, rfl, rfl, by simp, rfl, le_rfl⟩
  obtain ⟨q, l, hloop, hq, hne⟩ := hinit.loop m (n := nrCpus / chunkSz) (by omega)
  have hvalue := hq.value
  have hdigits := digitsFrom_range chunkSz 0 m.toNat (nrCpus / chunkSz)
  have hbits : chunkSz * (nrCpus / chunkSz) = nrCpus := by decide
  rw [Nat.zero_mul, Nat.zero_add, hbits] at hdigits
  refine ⟨l, hne (Or.inr (by decide)), by simpa using hq.length_le, hq.lt, ?_, ?_⟩
  · rw [hvalue]
    exact hdigits.trans (Nat.mod_eq_of_lt m.isLt)
  · unfold bitmapScnprintf
    rw [hloop, Option.map_some, hq.len, hq.buf]

/-! ### The exchange -/

theorem isXDigit_or_comma_of_mem {l : List ℕ} {c : Char} (h : c ∈ chunkText l) :
    isXDigit c = true ∨ c = ',' := by
  induction l with
  | nil => cases h
  | cons x l ih =>
    unfold chunkText at h ih
    cases l with
    | nil =>
      rw [List.map_cons, List.map_nil, List.intercalate_singleton] at h
      exact Or.inl (isXDigit_of_mem_printHex h)
    | cons y l =>
      rw [List.map_cons, List.map_cons, List.intercalate_cons_cons, List.mem_append, List.mem_append,
        List.mem_singleton] at h
      rcases h with (h | h) | h
      · exact Or.inl (isXDigit_of_mem_printHex h)
      · exact Or.inr h
      · exact ih h

theorem lines_of_not_mem {t : Text} (h : '\n' ∉ t) (hne : t ≠ []) : lines t = [t] := by
  induction t with
  | nil => exact absurd rfl hne
  | cons c t ih =>
    rw [List.mem_cons, not_or] at h
    rw [lines, if_neg (Ne.symm h.1)]
    cases t with
    | nil => rfl
    | cons d t => rw [ih h.2 (List.cons_ne_nil d t)]

theorem lines_append_newline {t : Text} (h : '\n' ∉ t) : lines (t ++ ['\n']) = [t ++ ['\n']] := by
  induction t with
  | nil => rfl
  | cons c t ih =>
    rw [List.mem_cons, not_or] at h
    rw [List.cons_append, lines, if_neg (Ne.symm h.1), ih h.2]

/-- `getline` takes all of the text. -/
theorem firstLine_chunkText {l : List ℕ} {e : Text} (hl : l ≠ []) (he : e = [] ∨ e = ['\n']) :
    firstLine (chunkText l ++ e) = chunkText l ++ e := by
  have hmem : ∀ c ∈ chunkText l, c ≠ '\n' ∧ c ≠ '\x00' := by
    intro c hc
    rcases isXDigit_or_comma_of_mem hc with h | rfl
    · obtain ⟨hspace, hnul, -⟩ := isSpace_of_isXDigit h
      refine ⟨?_, hnul⟩
      rintro rfl
      revert hspace
      decide
    · decide
  have hline : '\n' ∉ chunkText l := fun h => (hmem _ h).1 rfl
  have hlines : lines (chunkText l ++ e) = [chunkText l ++ e] := by
    rcases he with rfl | rfl
    · rw [List.append_nil]
      exact lines_of_not_mem hline (chunkText_ne_nil hl)
    · exact lines_append_newline hline
  unfold firstLine cstr
  rw [hlines, List.headD_cons, List.takeWhile_eq_self_iff]
  intro c hc
  rcases List.mem_append.1 hc with hc | hc
  · exact decide_eq_true (hmem c hc).2
  · rcases he with rfl | rfl
    · cases hc
    · rw [List.mem_singleton.1 hc]
      rfl

/-- Reading the digits of a mask gives the mask back. -/
theorem bitmapParse_chunkText {l : List ℕ} {e : Text} (hne : l ≠ []) (hlt : ∀ x ∈ l, x < 2 ^ 32)
    (hvalue : digitsFrom chunkSz 0 l = m.toNat) (he : e = [] ∨ e = ['\n']) :
    bitmapParse (chunkText l ++ e) = (0, m) := by
  have hspace : ∀ c ∈ e, isSpace c = true := by
    rcases he with rfl | rfl <;> simp [isSpace]
  rw [bitmapParse_of_denotes ((denotes_chunkText hne hlt hvalue m.isLt).maskText hspace), BitVec.ofNat_toNat,
    BitVec.setWidth_eq]

theorem checkAffinityFile_chunkText {l : List ℕ} {e : Text} (hne : l ≠ []) (hlt : ∀ x ∈ l, x < 2 ^ 32)
    (hvalue : digitsFrom chunkSz 0 l = m.toNat) (he : e = [] ∨ e = ['\n']) (m' : Cpumask) :
    checkAffinityFile (some (chunkText l ++ e)) m' = decide (m' = m) := by
  have hread : cpumaskParseUser (firstLine (chunkText l ++ e)) = m := by
    rw [firstLine_chunkText hne he]
    exact congrArg Prod.snd (bitmapParse_chunkText hne hlt hvalue he)
  change decide (m' = cpumaskParseUser (firstLine (chunkText l ++ e))) = _
  rw [hread]

/-- **The text of a mask fits into the buffer, and reading it gives the mask back**, with or without a
newline behind it. -/
theorem mask_exchanged (m : Cpumask) : ∃ text : Text,
    bitmapScnprintf pathMax m.words = some (text, text.length) ∧ text.length < pathMax ∧
      ∀ e : Text, e = [] ∨ e = ['\n'] → bitmapParse (text ++ e) = (0, m) ∧
        ∀ m' : Cpumask, checkAffinityFile (some (text ++ e)) m' = true ↔ m' = m := by
  obtain ⟨l, hne, hlen, hlt, hvalue, hprint⟩ := bitmapScnprintf_eq m
  refine ⟨chunkText l, hprint, ?_, fun e he => ⟨bitmapParse_chunkText hne hlt hvalue he, fun m' => ?_⟩⟩
  · have hle := length_chunkText_le hlt
    unfold nrCpus chunkSz at hlen
    unfold pathMax
    omega
  · rw [checkAffinityFile_chunkText hne hlt hvalue he, decide_eq_true_iff]

/-- The file `smp_affinity` of an irq: the text of the mask that the kernel holds, and a newline. -/
def smpAffinityFile (env : ProcIrq) (s : State) (irq : ℤ) : Option Text :=
  if env.readable irq then
    (bitmapScnprintf pathMax (s.smpAffinity irq).words).map fun r => r.1 ++ ['\n']
  else none

/-- **`check_affinity` compares with the mask in the file.** -/
theorem checkAffinity_eq_file (env : ProcIrq) (s : State) (info : IrqInfo) (m : Cpumask) :
    checkAffinity env s info m = checkAffinityFile (smpAffinityFile env s info.irq) m := by
  obtain ⟨l, hne, hlen, hlt, hvalue, hprint⟩ := bitmapScnprintf_eq (s.smpAffinity info.irq)
  unfold checkAffinity smpAffinityFile
  rw [hprint, Option.map_some]
  cases env.readable info.irq with
  | false => rfl
  | true =>
    rw [if_pos rfl, checkAffinityFile_chunkText hne hlt hvalue (Or.inr rfl)]
    rfl

end IrqBalance

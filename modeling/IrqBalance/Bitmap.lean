import IrqBalance.Cpumask
import IrqBalance.Lib.Words

/-!
# `bitmap.c`: bitmaps of any size

The functions of `bitmap.c`, `bitmap.h` and `non-atomic.h` on the words of a memory. The comment in front of
them promises that the unused bits of the last word do not affect the results, and that none are set if none
were. Each function is shown to be the operation on the number in the bitmap (`Words.load`) for every size; the
destination may be one of the sources, as in `cpus_and(cache_mask, cache_mask, unbanned_cpus)`.

A shift of a word by 64 bits occurs on a zero only; C leaves it undefined, here it is 0.
-/

namespace IrqBalance

namespace Bitmap

open Words

/-! ### The source -/

/-- `BITMAP_LAST_WORD_MASK`. -/
def lastWordMask (bits : ℕ) : BitVec 64 := if bits % 64 ≠ 0 then (1 : BitVec 64) <<< (bits % 64) - 1 else ~~~0

/-- The loop of `__bitmap_empty`, `__bitmap_full` and `__bitmap_intersects` over words: whether one is not
zero. -/
def findWord (word : ℕ → BitVec 64) (bits : ℕ) : Bool :=
  let lim := bits / 64
  (List.range lim).any (fun k => word k ≠ 0) ||
    decide (bits % 64 ≠ 0) && decide (word lim &&& lastWordMask bits ≠ 0)

/-- `__bitmap_empty`. -/
def empty (mem : Memory 64) (bitmap bits : ℕ) : Bool := !findWord (fun k => mem (bitmap + k)) bits

/-- `__bitmap_full`. -/
def full (mem : Memory 64) (bitmap bits : ℕ) : Bool := !findWord (fun k => ~~~mem (bitmap + k)) bits

/-- `__bitmap_intersects`. -/
def intersects (mem : Memory 64) (bitmap₁ bitmap₂ bits : ℕ) : Bool :=
  findWord (fun k => mem (bitmap₁ + k) &&& mem (bitmap₂ + k)) bits

/-- `__bitmap_equal`. -/
def equal (mem : Memory 64) (bitmap₁ bitmap₂ bits : ℕ) : Bool :=
  let lim := bits / 64
  (List.range lim).all (fun k => mem (bitmap₁ + k) = mem (bitmap₂ + k)) &&
    !(decide (bits % 64 ≠ 0) &&
      decide ((mem (bitmap₁ + lim) ^^^ mem (bitmap₂ + lim)) &&& lastWordMask bits ≠ 0))

/-- The loop of `__bitmap_and` and its likes. -/
def combine (op : BitVec 64 → BitVec 64 → BitVec 64) (mem : Memory 64) (dst bitmap₁ bitmap₂ bits : ℕ) :
    Memory 64 :=
  (List.range (words 64 bits)).foldl
    (fun m k => store m (dst + k) (op (m (bitmap₁ + k)) (m (bitmap₂ + k)))) mem

/-- `__bitmap_and`. -/
def and (mem : Memory 64) (dst bitmap₁ bitmap₂ bits : ℕ) : Memory 64 :=
  combine (fun x y => x &&& y) mem dst bitmap₁ bitmap₂ bits

/-- `__bitmap_or`. -/
def or (mem : Memory 64) (dst bitmap₁ bitmap₂ bits : ℕ) : Memory 64 :=
  combine (fun x y => x ||| y) mem dst bitmap₁ bitmap₂ bits

/-- `__bitmap_xor`. -/
def xor (mem : Memory 64) (dst bitmap₁ bitmap₂ bits : ℕ) : Memory 64 :=
  combine (fun x y => x ^^^ y) mem dst bitmap₁ bitmap₂ bits

/-- `__bitmap_andnot`. -/
def andnot (mem : Memory 64) (dst bitmap₁ bitmap₂ bits : ℕ) : Memory 64 :=
  combine (fun x y => x &&& ~~~y) mem dst bitmap₁ bitmap₂ bits

/-- `__bitmap_complement`. -/
def complement (mem : Memory 64) (dst src bits : ℕ) : Memory 64 :=
  let lim := bits / 64
  let mem := (List.range lim).foldl (fun m k => store m (dst + k) (~~~m (src + k))) mem
  if bits % 64 ≠ 0 then store mem (dst + lim) (~~~mem (src + lim) &&& lastWordMask bits) else mem

/-- `memset` on `n` words, with the byte 0. -/
def memset (mem : Memory 64) (dst n : ℕ) : Memory 64 :=
  (List.range n).foldl (fun m k => store m (dst + k) 0) mem

/-- `bitmap_fill`. -/
def fill (mem : Memory 64) (dst bits : ℕ) : Memory 64 :=
  let nlongs := words 64 bits
  let mem :=
    if 1 < nlongs then (List.range (nlongs - 1)).foldl (fun m k => store m (dst + k) (~~~0)) mem else mem
  store mem (dst + (nlongs - 1)) (lastWordMask bits)

/-- One round of the loop in `__bitmap_shift_right`: the word for `dst[k]`. With `rem = 0` the word 0 is shifted by
its width, which C leaves open; it is 0 here. -/
def shiftRightWord (lim left off rem src : ℕ) (mem : Memory 64) (k : ℕ) : BitVec 64 :=
  let mask := (1 : BitVec 64) <<< left - 1
  let upper :=
    if rem = 0 ∨ lim ≤ off + k + 1 then 0
    else if off + k + 1 = lim - 1 ∧ left ≠ 0 then mem (src + (off + k + 1)) &&& mask
    else mem (src + (off + k + 1))
  let lower := if left ≠ 0 ∧ off + k = lim - 1 then mem (src + (off + k)) &&& mask else mem (src + (off + k))
  let word := upper <<< (64 - rem) ||| lower >>> rem
  if left ≠ 0 ∧ k = lim - 1 then word &&& mask else word

/-- `__bitmap_shift_right`. -/
def shiftRight (mem : Memory 64) (dst src shift bits : ℕ) : Memory 64 :=
  let lim := words 64 bits
  let left := bits % 64
  let off := shift / 64
  let rem := shift % 64
  let mem := (List.range (lim - off)).foldl
    (fun m k => store m (dst + k) (shiftRightWord lim left off rem src m k)) mem
  memset mem (dst + (lim - off)) off

/-- `bitmap_shift_right`. -/
def bitmapShiftRight (mem : Memory 64) (dst src n nbits : ℕ) : Memory 64 :=
  if nbits ≤ 64 then store mem dst (mem src >>> n) else shiftRight mem dst src n nbits

/-- One round of the loop in `__bitmap_shift_left`: the word for `dst[k + off]`. The word 0 may be shifted by its width
here too. -/
def shiftLeftWord (lim left off rem src : ℕ) (mem : Memory 64) (k : ℕ) : BitVec 64 :=
  let mask := (1 : BitVec 64) <<< left - 1
  let lower := if rem ≠ 0 ∧ 0 < k then mem (src + (k - 1)) else 0
  let upper := if left ≠ 0 ∧ k = lim - 1 then mem (src + k) &&& mask else mem (src + k)
  let word := lower >>> (64 - rem) ||| upper <<< rem
  if left ≠ 0 ∧ k + off = lim - 1 then word &&& mask else word

/-- `__bitmap_shift_left`. -/
def shiftLeft (mem : Memory 64) (dst src shift bits : ℕ) : Memory 64 :=
  let lim := words 64 bits
  let left := bits % 64
  let off := shift / 64
  let rem := shift % 64
  let mem := (List.range (lim - off)).reverse.foldl
    (fun m k => store m (dst + off + k) (shiftLeftWord lim left off rem src m k)) mem
  memset mem dst off

/-- What `__bitmap_parse` does with a chunk. -/
def pushChunk (mem : Memory 64) (maskp : ℕ) (chunk : BitVec 32) (nmaskbits : ℕ) : Memory 64 :=
  let mem := shiftLeft mem maskp maskp 32 nmaskbits
  store mem maskp (mem maskp ||| chunk.setWidth 64)

/-- `BITOP_MASK`. -/
def bitopMask (nr : ℕ) : BitVec 64 := (1 : BitVec 64) <<< (nr % 64)

/-- `set_bit`. -/
def setBit (mem : Memory 64) (nr addr : ℕ) : Memory 64 :=
  store mem (addr + nr / 64) (mem (addr + nr / 64) ||| bitopMask nr)

/-- `clear_bit`. -/
def clearBit (mem : Memory 64) (nr addr : ℕ) : Memory 64 :=
  store mem (addr + nr / 64) (mem (addr + nr / 64) &&& ~~~bitopMask nr)

/-- `test_bit`. -/
def testBit (mem : Memory 64) (nr addr : ℕ) : Bool := 1 &&& mem (addr + nr / 64) >>> (nr &&& 63) ≠ 0

/-- One of the halvings in `fls`: if the highest `n` bits are 0, they are shifted out. -/
def flsHalve (mask : BitVec 32) (n : ℕ) (p : BitVec 32 × ℕ) : BitVec 32 × ℕ :=
  if p.1 &&& mask = 0 then (p.1 <<< n, p.2 - n) else p

/-- `fls`. -/
def fls (x : BitVec 32) : ℕ :=
  if x = 0 then 0
  else
    (flsHalve 0x80000000 1 (flsHalve 0xc0000000 2 (flsHalve 0xf0000000 4
      (flsHalve 0xff000000 8 (flsHalve 0xffff0000 16 (x, 32)))))).2

example : fls 0x1000 = 13 := by decide

/-! ### Words -/

variable {mem : Memory 64} {dst src p bits i b : ℕ} {x y : BitVec 64}

theorem toNat_one_shiftLeft {left : ℕ} (hleft : left < 64) : ((1 : BitVec 64) <<< left).toNat = 2 ^ left := by
  have hlt : 2 ^ left < 2 ^ 64 := Nat.pow_lt_pow_right (by decide) hleft
  rw [BitVec.toNat_shiftLeft, Nat.shiftLeft_eq]
  change 1 * 2 ^ left % 2 ^ 64 = 2 ^ left
  rw [Nat.one_mul, Nat.mod_eq_of_lt hlt]

/-- The lowest bits of a word. -/
theorem getLsbD_lowMask {left : ℕ} (hleft : left < 64) (b : ℕ) :
    ((1 : BitVec 64) <<< left - 1).getLsbD b = decide (b < left) := by
  have hpos : 0 < 2 ^ left := Nat.two_pow_pos left
  have hlt : 2 ^ left < 2 ^ 64 := Nat.pow_lt_pow_right (by decide) hleft
  have hval : ((1 : BitVec 64) <<< left - 1).toNat = 2 ^ left - 1 := by
    rw [BitVec.toNat_sub, toNat_one_shiftLeft hleft]
    change (2 ^ 64 - 1 + 2 ^ left) % 2 ^ 64 = 2 ^ left - 1
    omega
  rw [← BitVec.testBit_toNat, hval, Nat.testBit_two_pow_sub_one]

theorem getLsbD_lastWordMask (hbits : bits % 64 ≠ 0) (b : ℕ) :
    (lastWordMask bits).getLsbD b = decide (b < bits % 64) := by
  rw [lastWordMask, if_pos hbits, getLsbD_lowMask (Nat.mod_lt bits (by decide))]

theorem getLsbD_bitopMask (nr b : ℕ) : (bitopMask nr).getLsbD b = decide (b = nr % 64) := by
  rw [← BitVec.testBit_toNat, bitopMask, toNat_one_shiftLeft (Nat.mod_lt nr (by decide)), Nat.testBit_two_pow]
  exact decide_eq_decide.2 eq_comm

/-- What is in the low bits of a word. -/
theorem and_lowMask_eq_zero_iff (x : BitVec 64) (hbits : bits % 64 ≠ 0) :
    x &&& lastWordMask bits = 0 ↔ ∀ b < bits % 64, x.getLsbD b = false := by
  have hlt : bits % 64 < 64 := Nat.mod_lt bits (by decide)
  constructor
  · intro h b hb
    have hbit := congrArg (BitVec.getLsbD · b) h
    rw [BitVec.getLsbD_and, getLsbD_lastWordMask hbits, decide_eq_true hb, Bool.and_true] at hbit
    simpa using hbit
  · intro h
    apply BitVec.eq_of_getLsbD_eq
    intro b hb
    rw [BitVec.getLsbD_and, getLsbD_lastWordMask hbits]
    by_cases hlow : b < bits % 64
    · simp [h b hlow]
    · simp [hlow]

theorem eq_zero_iff (x : BitVec bits) : x = 0 ↔ ∀ b < bits, x.getLsbD b = false := by
  constructor
  · rintro rfl b -
    exact BitVec.getLsbD_zero
  · intro h
    apply BitVec.eq_of_getLsbD_eq
    intro b hb
    rw [h b hb]
    exact BitVec.getLsbD_zero.symm

/-! ### The functions that look -/

/-- **The unused bits do not count**: a word is found if one of the `bits` first bits is set. -/
theorem findWord_iff (word : ℕ → BitVec 64) (bits : ℕ) :
    findWord word bits = true ↔ ∃ i < bits, (word (i / 64)).getLsbD (i % 64) = true := by
  have hnot : ¬findWord word bits = true ↔ ∀ i < bits, (word (i / 64)).getLsbD (i % 64) = false := by
    have hword : ∀ k, ∀ b < 64, (word ((64 * k + b) / 64)).getLsbD ((64 * k + b) % 64) = (word k).getLsbD b :=
      fun k b hb => by
        have hdiv : (64 * k + b) / 64 = k := by omega
        have hmod : (64 * k + b) % 64 = b := by omega
        rw [hdiv, hmod]
    have hlt : bits % 64 < 64 := Nat.mod_lt bits (by decide)
    rw [forall_lt_iff 64 bits]
    unfold findWord
    rw [Bool.or_eq_true, not_or]
    refine and_congr ?_ ?_
    · rw [List.any_eq_true, not_exists]
      refine forall_congr' fun k => ?_
      rw [not_and, List.mem_range]
      refine imp_congr_right fun _ => ?_
      rw [decide_eq_true_eq, not_not, eq_zero_iff]
      exact forall₂_congr fun b hb => by rw [hword k b hb]
    · rw [Bool.and_eq_true, decide_eq_true_eq, decide_eq_true_eq, not_and, not_not]
      by_cases hbits : bits % 64 = 0
      · simp [hbits]
      · rw [imp_iff_right hbits, and_lowMask_eq_zero_iff _ hbits]
        exact forall₂_congr fun b hb => by rw [hword _ b (hb.trans hlt)]
  rw [← not_iff_not, hnot]
  simp

theorem findWord_eq {word : ℕ → BitVec 64} {x : BitVec bits}
    (h : ∀ i < bits, (word (i / 64)).getLsbD (i % 64) = x.getLsbD i) : findWord word bits = decide (x ≠ 0) := by
  rw [Bool.eq_iff_iff, findWord_iff, decide_eq_true_eq, Ne, eq_zero_iff]
  simp only [not_forall, Bool.not_eq_false, exists_prop]
  exact exists_congr fun i => and_congr_right fun hi => by rw [h i hi]

/-- `__bitmap_equal` finds the word in which the bitmaps differ. -/
theorem equal_eq_findWord (mem : Memory 64) (p q bits : ℕ) :
    equal mem p q bits = !findWord (fun k => mem (p + k) ^^^ mem (q + k)) bits := by
  have hword : ∀ k, decide (mem (p + k) = mem (q + k)) = !decide (mem (p + k) ^^^ mem (q + k) ≠ 0) := fun k => by
    rw [decide_not, Bool.not_not, decide_eq_decide]
    exact BitVec.xor_eq_zero_iff.symm
  unfold equal findWord
  simp only [hword]
  rw [← List.not_any_eq_all_not, Bool.not_or]

/-- **The functions that look at bitmaps** look at the numbers in them. -/
theorem looks (mem : Memory 64) (p q bits : ℕ) :
    empty mem p bits = decide (load mem p bits = 0) ∧
    full mem p bits = decide (load mem p bits = BitVec.allOnes bits) ∧
    intersects mem p q bits = decide (load mem p bits &&& load mem q bits ≠ 0) ∧
    equal mem p q bits = decide (load mem p bits = load mem q bits) ∧
    ∀ nr < bits, testBit mem nr p = (load mem p bits).getLsbD nr := by
  refine ⟨?_, ?_, ?_, ?_, fun nr hnr => ?_⟩
  · have hfind : findWord (fun k => mem (p + k)) bits = decide (load mem p bits ≠ 0) :=
      findWord_eq fun i hi => (getLsbD_load mem p hi).symm
    rw [empty, hfind, decide_not, Bool.not_not]
  · have hfull : ~~~load mem p bits = 0 ↔ load mem p bits = BitVec.allOnes bits := by
      rw [← BitVec.not_zero]
      refine ⟨fun h => ?_, fun h => h ▸ BitVec.not_not⟩
      have hnot := congrArg (~~~·) h
      simpa using hnot
    rw [full, findWord_eq (x := ~~~load mem p bits) fun i hi => ?_, decide_not, Bool.not_not, decide_eq_decide, hfull]
    rw [BitVec.getLsbD_not, BitVec.getLsbD_not, getLsbD_load mem p hi, decide_eq_true hi,
      decide_eq_true (Nat.mod_lt i (by decide : 0 < 64))]
    rfl
  · refine findWord_eq fun i hi => ?_
    rw [BitVec.getLsbD_and, BitVec.getLsbD_and, getLsbD_load mem p hi, getLsbD_load mem q hi]
    rfl
  · rw [equal_eq_findWord, findWord_eq (x := load mem p bits ^^^ load mem q bits) fun i hi => ?_, decide_not,
      Bool.not_not, decide_eq_decide]
    · exact BitVec.xor_eq_zero_iff
    · rw [BitVec.getLsbD_xor, BitVec.getLsbD_xor, getLsbD_load mem p hi, getLsbD_load mem q hi]
      rfl
  · have hmod : nr &&& 63 = nr % 64 := Nat.and_two_pow_sub_one_eq_mod nr 6
    rw [getLsbD_load mem p hnr, bit, testBit, hmod, Bool.eq_iff_iff, decide_eq_true_eq, Ne, eq_zero_iff]
    constructor
    · intro h
      by_contra hbit
      refine h fun b _ => ?_
      rw [BitVec.getLsbD_and]
      cases b with
      | zero =>
        rw [BitVec.getLsbD_ushiftRight, Nat.add_zero, eq_false_of_ne_true hbit, Bool.and_false]
      | succ b =>
        have hone : (1 : BitVec 64).getLsbD (b + 1) = false := by simp
        rw [hone, Bool.false_and]
    · intro hbit h
      have h0 := h 0 (by decide)
      have hone : (1 : BitVec 64).getLsbD 0 = true := by decide
      rw [BitVec.getLsbD_and, BitVec.getLsbD_ushiftRight, Nat.add_zero, hbit, hone] at h0
      cases h0

/-! ### The functions that write -/

/-- The bitmap at `dst` has become `x`, and the other words are as before. -/
structure Writes (mem mem' : Memory 64) (dst : ℕ) (x : BitVec bits) : Prop where
  value : load mem' dst bits = x
  frame : ∀ a, a < dst ∨ dst + words 64 bits ≤ a → mem' a = mem a

/-- The two bitmaps are the same, or have no word in common. -/
def Alias (bits dst src : ℕ) : Prop := dst = src ∨ dst + words 64 bits ≤ src ∨ src + words 64 bits ≤ dst

instance (bits dst src : ℕ) : Decidable (Alias bits dst src) := inferInstanceAs (Decidable (_ ∨ _ ∨ _))

theorem writes_filled {f : ℕ → BitVec 64} {x : BitVec bits}
    (h : ∀ i < bits, (f (i / 64)).getLsbD (i % 64) = x.getLsbD i) :
    Writes mem (filled mem dst (words 64 bits) f) dst x := by
  refine ⟨load_eq_iff.2 fun i hi => ?_, fun a ha => if_neg (by omega)⟩
  rw [bit_filled (div_lt_words hi), h i hi]

/-- Two loops one behind the other. -/
theorem filled_filled (mem : Memory 64) (dst n n' : ℕ) (f g : ℕ → BitVec 64) :
    filled (filled mem dst n f) (dst + n) n' g =
      filled mem dst (n + n') fun k => if k < n then f k else g (k - n) := by
  funext a
  unfold filled
  dsimp only
  by_cases hin : dst ≤ a ∧ a < dst + (n + n')
  · rw [if_pos hin]
    by_cases hlow : a - dst < n
    · rw [if_pos hlow, if_neg (by omega), if_pos (by omega)]
    · have hsub : a - (dst + n) = a - dst - n := by omega
      rw [if_neg hlow, if_pos (by omega), hsub]
  · rw [if_neg hin, if_neg (by omega), if_neg (by omega)]

theorem store_filled (mem : Memory 64) (dst n : ℕ) (f : ℕ → BitVec 64) (x : BitVec 64) :
    store (filled mem dst n f) (dst + n) x = filled mem dst (n + 1) fun k => if k < n then f k else x := by
  rw [← filled_filled mem dst n 1 f fun _ => x]
  funext a
  unfold store filled
  by_cases ha : a = dst + n
  · subst ha
    rw [Function.update_self, if_pos (by omega)]
  · rw [Function.update_of_ne ha, if_neg (show ¬(dst + n ≤ a ∧ a < dst + n + 1) by omega)]

theorem memset_eq (mem : Memory 64) (dst n : ℕ) : memset mem dst n = filled mem dst n fun _ => 0 :=
  foldl_range (fun _ _ => False) (fun _ _ _ _ => rfl) (fun _ _ _ _ h => h) mem

/-! #### Words with words -/

variable {q : ℕ} {op : BitVec 64 → BitVec 64 → BitVec 64}

theorem combine_eq (hp : Alias bits dst p) (hq : Alias bits dst q) :
    combine op mem dst p q bits =
      filled mem dst (words 64 bits) fun k => op (mem (p + k)) (mem (q + k)) := by
  unfold Alias at hp hq
  refine foldl_range (fun k a => a = p + k ∨ a = q + k) (fun m m' k h => ?_) (fun j k hjk hk => ?_) mem
  · rw [h _ (Or.inl rfl), h _ (Or.inr rfl)]
  · omega

theorem combine_writes (hp : Alias bits dst p) (hq : Alias bits dst q) {x : BitVec bits}
    (h : ∀ i < bits, (op (mem (p + i / 64)) (mem (q + i / 64))).getLsbD (i % 64) = x.getLsbD i) :
    Writes mem (combine op mem dst p q bits) dst x := by
  rw [combine_eq hp hq]
  exact writes_filled h

theorem words_64 (bits : ℕ) : words 64 bits = bits / 64 + if bits % 64 = 0 then 0 else 1 := words_eq 64 bits

theorem complement_eq (hp : Alias bits dst p) : complement mem dst p bits =
    filled mem dst (words 64 bits) fun k =>
      if k < bits / 64 then ~~~mem (p + k) else ~~~mem (p + k) &&& lastWordMask bits := by
  have hwords := words_64 bits
  unfold Alias at hp
  have hloop : (List.range (bits / 64)).foldl (fun m k => store m (dst + k) (~~~m (p + k))) mem =
      filled mem dst (bits / 64) fun k => ~~~mem (p + k) := by
    refine foldl_range (fun k a => a = p + k) (fun m m' k h => ?_) (fun j k hjk hk => ?_) mem
    · rw [h _ rfl]
    · omega
  unfold complement
  dsimp only
  rw [hloop]
  by_cases hbits : bits % 64 = 0
  · rw [if_pos hbits, Nat.add_zero] at hwords
    rw [if_neg (not_not.2 hbits), hwords]
    exact filled_congr fun k hk => (if_pos hk).symm
  · rw [if_neg hbits] at hwords
    have hread : filled mem dst (bits / 64) (fun k => ~~~mem (p + k)) (p + bits / 64) = mem (p + bits / 64) :=
      if_neg (by omega)
    rw [if_pos hbits, hread, store_filled, hwords]
    refine filled_congr fun k hk => ?_
    split_ifs with hfull
    · rfl
    · rw [show k = bits / 64 by omega]

/-- **The logical functions** compute the logical operations, also in place. -/
theorem logical_writes (mem : Memory 64) (hp : Alias bits dst p) (hq : Alias bits dst q) :
    Writes mem (and mem dst p q bits) dst (load mem p bits &&& load mem q bits) ∧
    Writes mem (or mem dst p q bits) dst (load mem p bits ||| load mem q bits) ∧
    Writes mem (xor mem dst p q bits) dst (load mem p bits ^^^ load mem q bits) ∧
    Writes mem (andnot mem dst p q bits) dst (load mem p bits &&& ~~~load mem q bits) ∧
    Writes mem (complement mem dst p bits) dst (~~~load mem p bits) := by
  have hmod : ∀ i, decide (i % 64 < 64) = true := fun i => decide_eq_true (Nat.mod_lt i (by decide))
  refine ⟨combine_writes hp hq fun i hi => ?_, combine_writes hp hq fun i hi => ?_,
    combine_writes hp hq fun i hi => ?_, combine_writes hp hq fun i hi => ?_, ?_⟩
  · rw [BitVec.getLsbD_and, BitVec.getLsbD_and, getLsbD_load mem p hi, getLsbD_load mem q hi]
    rfl
  · rw [BitVec.getLsbD_or, BitVec.getLsbD_or, getLsbD_load mem p hi, getLsbD_load mem q hi]
    rfl
  · rw [BitVec.getLsbD_xor, BitVec.getLsbD_xor, getLsbD_load mem p hi, getLsbD_load mem q hi]
    rfl
  · rw [BitVec.getLsbD_and, BitVec.getLsbD_and, BitVec.getLsbD_not, BitVec.getLsbD_not, getLsbD_load mem p hi,
      getLsbD_load mem q hi, hmod, decide_eq_true hi]
    rfl
  · rw [complement_eq hp]
    refine writes_filled fun i hi => ?_
    rw [BitVec.getLsbD_not, getLsbD_load mem p hi, decide_eq_true hi]
    split_ifs with hk
    · rw [BitVec.getLsbD_not, hmod]
      rfl
    · have hbits : bits % 64 ≠ 0 := by omega
      have hlow : i % 64 < bits % 64 := by omega
      rw [BitVec.getLsbD_and, BitVec.getLsbD_not, hmod, getLsbD_lastWordMask hbits, decide_eq_true hlow, Bool.and_true]
      rfl

/-! #### Shifts -/

variable {shift : ℕ}

theorem shiftRight_eq (hp : Alias bits dst p) (hshift : shift / 64 ≤ words 64 bits) :
    shiftRight mem dst p shift bits = filled mem dst (words 64 bits) fun k =>
      if k < words 64 bits - shift / 64 then
        shiftRightWord (words 64 bits) (bits % 64) (shift / 64) (shift % 64) p mem k
      else 0 := by
  unfold Alias at hp
  have hloop : (List.range (words 64 bits - shift / 64)).foldl (fun m k => store m (dst + k)
      (shiftRightWord (words 64 bits) (bits % 64) (shift / 64) (shift % 64) p m k)) mem =
      filled mem dst (words 64 bits - shift / 64)
        (shiftRightWord (words 64 bits) (bits % 64) (shift / 64) (shift % 64) p mem) := by
    refine foldl_range
      (fun k a => a = p + (shift / 64 + k) ∨ a = p + (shift / 64 + k + 1) ∧ shift / 64 + k + 1 < words 64 bits)
      (fun m m' k h => ?_) (fun j k hjk hk => by omega) mem
    have hlower := h _ (Or.inl rfl)
    unfold shiftRightWord
    dsimp only
    rw [hlower]
    by_cases hzero : shift % 64 = 0 ∨ words 64 bits ≤ shift / 64 + k + 1
    · rw [if_pos hzero, if_pos hzero]
    · rw [h _ (Or.inr ⟨rfl, by omega⟩)]
  unfold shiftRight
  dsimp only
  rw [hloop, memset_eq, filled_filled, Nat.sub_add_cancel hshift]

theorem shiftLeft_eq (hp : Alias bits dst p) (hshift : shift / 64 ≤ words 64 bits) :
    shiftLeft mem dst p shift bits = filled mem dst (words 64 bits) fun k =>
      if k < shift / 64 then 0
      else shiftLeftWord (words 64 bits) (bits % 64) (shift / 64) (shift % 64) p mem (k - shift / 64) := by
  unfold Alias at hp
  have hloop : (List.range (words 64 bits - shift / 64)).reverse.foldl (fun m k => store m (dst + shift / 64 + k)
      (shiftLeftWord (words 64 bits) (bits % 64) (shift / 64) (shift % 64) p m k)) mem =
      filled mem (dst + shift / 64) (words 64 bits - shift / 64)
        (shiftLeftWord (words 64 bits) (bits % 64) (shift / 64) (shift % 64) p mem) := by
    refine foldl_range_reverse (fun k a => a = p + k ∨ a = p + (k - 1) ∧ 0 < k) (fun m m' k h => ?_)
      (fun j k hjk hk => by omega) mem
    have hupper := h _ (Or.inl rfl)
    unfold shiftLeftWord
    dsimp only
    rw [hupper]
    by_cases hpos : shift % 64 ≠ 0 ∧ 0 < k
    · rw [if_pos hpos, if_pos hpos, h _ (Or.inr ⟨rfl, hpos.2⟩)]
    · rw [if_neg hpos, if_neg hpos]
  unfold shiftLeft
  dsimp only
  rw [hloop, memset_eq]
  funext a
  unfold filled
  dsimp only
  by_cases hlow : dst ≤ a ∧ a < dst + shift / 64
  · rw [if_pos hlow, if_pos (by omega), if_pos (by omega)]
  · rw [if_neg hlow]
    by_cases hin : dst ≤ a ∧ a < dst + words 64 bits
    · rw [if_pos hin, if_pos (by omega), if_neg (by omega), Nat.sub_add_eq]
    · rw [if_neg hin, if_neg (by omega)]

theorem getLsbD_load_of_ge (mem : Memory 64) (p : ℕ) (hi : bits ≤ i) : (load mem p bits).getLsbD i = false :=
  BitVec.getLsbD_of_ge _ _ hi

/-- A word that is read, without the unused bits. -/
theorem getLsbD_readWord (mem : Memory 64) (p : ℕ) {k : ℕ} (hk : k < words 64 bits) (hb : b < 64) :
    (if bits % 64 ≠ 0 ∧ k = words 64 bits - 1 then mem (p + k) &&& ((1 : BitVec 64) <<< (bits % 64) - 1)
      else mem (p + k)).getLsbD b = (load mem p bits).getLsbD (64 * k + b) := by
  have hwords := words_64 bits
  have hbit : bit mem p (64 * k + b) = (mem (p + k)).getLsbD b := bit_mul_add mem p k hb
  by_cases hin : 64 * k + b < bits
  · rw [getLsbD_load mem p hin, hbit]
    split_ifs with hlast
    · rw [if_neg hlast.1] at hwords
      have hlow : b < bits % 64 := by omega
      rw [BitVec.getLsbD_and, getLsbD_lowMask (Nat.mod_lt bits (by decide)), decide_eq_true hlow, Bool.and_true]
    · rfl
  · have hbits : bits % 64 ≠ 0 := by
      intro hzero
      rw [if_pos hzero] at hwords
      omega
    rw [if_neg hbits] at hwords
    have hlow : ¬b < bits % 64 := by omega
    rw [getLsbD_load_of_ge mem p (not_lt.1 hin), if_pos ⟨hbits, by omega⟩, BitVec.getLsbD_and,
      getLsbD_lowMask (Nat.mod_lt bits (by decide)), decide_eq_false hlow, Bool.and_false]

/-- A word that is written, without its unused bits. -/
theorem getLsbD_writtenWord (x : BitVec 64) (hi : i < bits) :
    (if bits % 64 ≠ 0 ∧ i / 64 = words 64 bits - 1 then x &&& ((1 : BitVec 64) <<< (bits % 64) - 1) else x).getLsbD
      (i % 64) = x.getLsbD (i % 64) := by
  split_ifs with hlast
  · have hwords := words_64 bits
    rw [if_neg hlast.1] at hwords
    have hlow : i % 64 < bits % 64 := by omega
    rw [BitVec.getLsbD_and, getLsbD_lowMask (Nat.mod_lt bits (by decide)), decide_eq_true hlow, Bool.and_true]
  · rfl

theorem getLsbD_shiftRightWord (hi : i < bits) (hk : i / 64 < words 64 bits - shift / 64) :
    (shiftRightWord (words 64 bits) (bits % 64) (shift / 64) (shift % 64) p mem (i / 64)).getLsbD (i % 64) =
      (load mem p bits).getLsbD (shift + i) := by
  have hwords := words_64 bits
  have hb : i % 64 < 64 := Nat.mod_lt i (by decide)
  have hlower := getLsbD_readWord mem p (show shift / 64 + i / 64 < words 64 bits by omega) (b := shift % 64 + i % 64)
  unfold shiftRightWord
  dsimp only
  rw [getLsbD_writtenWord _ hi, BitVec.getLsbD_or, BitVec.getLsbD_shiftLeft, BitVec.getLsbD_ushiftRight,
    decide_eq_true hb, Bool.true_and]
  by_cases hsame : shift % 64 + i % 64 < 64
  · -- the bit comes from the word at the same distance
    have hlow : i % 64 < 64 - shift % 64 := by omega
    rw [decide_eq_true hlow, Bool.not_true, Bool.false_and, Bool.false_or, hlower hsame]
    congr 1
    omega
  · -- the bit comes from the word above, if there is one
    have hlow : ¬i % 64 < 64 - shift % 64 := by omega
    have hnone : ∀ x : BitVec 64, x.getLsbD (shift % 64 + i % 64) = false := fun x =>
      BitVec.getLsbD_of_ge x _ (not_lt.1 hsame)
    rw [decide_eq_false hlow, Bool.not_false, Bool.true_and, hnone, Bool.or_false]
    by_cases habove : words 64 bits ≤ shift / 64 + i / 64 + 1
    · have hout : bits ≤ shift + i := by
        split_ifs at hwords <;> omega
      rw [if_pos (Or.inr habove), getLsbD_load_of_ge mem p hout]
      exact BitVec.getLsbD_zero
    · have hupper := getLsbD_readWord mem p (show shift / 64 + i / 64 + 1 < words 64 bits by omega)
        (show i % 64 - (64 - shift % 64) < 64 by omega)
      simp only [and_comm] at hupper ⊢
      rw [if_neg (by omega), hupper]
      congr 1
      omega

theorem getLsbD_shiftLeftWord (hi : i < bits) (hk : ¬i / 64 < shift / 64) :
    (shiftLeftWord (words 64 bits) (bits % 64) (shift / 64) (shift % 64) p mem (i / 64 - shift / 64)).getLsbD (i % 64) =
      (load mem p bits <<< shift).getLsbD i := by
  have hwords := words_64 bits
  have hlt : i / 64 < words 64 bits := div_lt_words hi
  have hb : i % 64 < 64 := Nat.mod_lt i (by decide)
  have hat : i / 64 - shift / 64 + shift / 64 = i / 64 := by omega
  unfold shiftLeftWord
  dsimp only
  rw [hat, getLsbD_writtenWord _ hi, BitVec.getLsbD_or, BitVec.getLsbD_shiftLeft, BitVec.getLsbD_ushiftRight,
    BitVec.getLsbD_shiftLeft, decide_eq_true hb, decide_eq_true hi, Bool.true_and, Bool.true_and]
  by_cases hsame : i % 64 < shift % 64
  · -- the bit comes from the word below, if there is one
    rw [decide_eq_true hsame, Bool.not_true, Bool.false_and, Bool.or_false]
    by_cases hbelow : 0 < i / 64 - shift / 64
    · have hge : ¬i < shift := by omega
      have hin : i - shift < bits := by omega
      have hsrc : i - shift = 64 * (i / 64 - shift / 64 - 1) + (64 - shift % 64 + i % 64) := by omega
      rw [if_pos ⟨by omega, hbelow⟩, decide_eq_false hge, Bool.not_false, Bool.true_and, getLsbD_load mem p hin, hsrc]
      exact (bit_mul_add mem p _ (by omega)).symm
    · have hlow : i < shift := by omega
      rw [if_neg (by omega), decide_eq_true hlow, Bool.not_true, Bool.false_and]
      exact BitVec.getLsbD_zero
  · -- the bit comes from the word at the same distance
    have hge : ¬i < shift := by omega
    have hnone : ∀ x : BitVec 64, x.getLsbD (64 - shift % 64 + i % 64) = false := fun x =>
      BitVec.getLsbD_of_ge x _ (by omega)
    have hupper := getLsbD_readWord mem p (show i / 64 - shift / 64 < words 64 bits by omega)
      (show i % 64 - shift % 64 < 64 by omega)
    rw [hnone, Bool.false_or, decide_eq_false hsame, decide_eq_false hge, Bool.not_false, Bool.true_and, Bool.true_and,
      hupper]
    congr 1
    omega

/-- **The shifts** shift the number, also in place. -/
theorem shifts_writes (mem : Memory 64) (hp : Alias bits dst p) (hshift : shift / 64 ≤ words 64 bits) :
    Writes mem (shiftRight mem dst p shift bits) dst (load mem p bits >>> shift) ∧
    Writes mem (shiftLeft mem dst p shift bits) dst (load mem p bits <<< shift) := by
  constructor
  · rw [shiftRight_eq hp hshift]
    refine writes_filled fun i hi => ?_
    rw [BitVec.getLsbD_ushiftRight]
    split_ifs with hk
    · exact getLsbD_shiftRightWord hi hk
    · have hwords := words_64 bits
      have hout : bits ≤ shift + i := by
        split_ifs at hwords <;> omega
      rw [getLsbD_load_of_ge mem p hout]
      exact BitVec.getLsbD_zero
  · rw [shiftLeft_eq hp hshift]
    refine writes_filled fun i hi => ?_
    split_ifs with hk
    · have hlow : i < shift := by omega
      rw [BitVec.getLsbD_shiftLeft, decide_eq_true hlow, Bool.not_true, Bool.and_false, Bool.false_and]
      exact BitVec.getLsbD_zero
    · exact getLsbD_shiftLeftWord hi hk

/-- A bitmap of up to one word is shifted with its unused bits: the result is right exactly if none of those
that come in is set. C leaves a shift of one word by its width or more open. -/
theorem bitmapShiftRight_value_iff (mem : Memory 64) {n : ℕ} (hbits : 0 < bits) (hp : Alias bits dst p)
    (hn : n / 64 ≤ words 64 bits) (_hword : bits ≤ 64 → n < 64) :
    load (bitmapShiftRight mem dst p n bits) dst bits = load mem p bits >>> n ↔
      64 < bits ∨ ∀ j < bits + n, bits ≤ j → n ≤ j → (mem p).getLsbD j = false := by
  unfold bitmapShiftRight
  split_ifs with hsmall
  · rw [or_iff_right (not_lt.2 hsmall), load_eq_iff]
    have hbit : ∀ i < bits, bit (store mem dst (mem p >>> n)) dst i = (mem p).getLsbD (n + i) := fun i hi => by
      have hzero : i / 64 = 0 := by omega
      have hmod : i % 64 = i := by omega
      rw [bit, hzero, hmod, Nat.add_zero, store_self, BitVec.getLsbD_ushiftRight]
    have hload : ∀ i, (load mem p bits >>> n).getLsbD i = (decide (n + i < bits) && (mem p).getLsbD (n + i)) :=
      fun i => by
        rw [BitVec.getLsbD_ushiftRight]
        by_cases hin : n + i < bits
        · have hzero : (n + i) / 64 = 0 := by omega
          have hmod : (n + i) % 64 = n + i := by omega
          rw [getLsbD_load mem p hin, bit, hzero, hmod, decide_eq_true hin, Bool.true_and, Nat.add_zero]
        · rw [getLsbD_load_of_ge mem p (not_lt.1 hin), decide_eq_false hin, Bool.false_and]
    constructor
    · intro h j hj hge hnj
      have hi := h (j - n) (by omega)
      rw [hbit _ (by omega), hload, Nat.add_sub_cancel' hnj, decide_eq_false (not_lt.2 hge), Bool.false_and] at hi
      exact hi
    · intro h i hi
      rw [hbit i hi, hload]
      by_cases hin : n + i < bits
      · rw [decide_eq_true hin, Bool.true_and]
      · rw [decide_eq_false hin, Bool.false_and]
        exact h _ (by omega) (not_lt.1 hin) (Nat.le_add_right n i)
  · exact iff_of_true (shifts_writes mem hp hn).1.value (Or.inl (not_le.1 hsmall))

/-- A bitmap of 5 bits, whose first unused bit is set. -/
def fiveBits : Memory 64 := fun _ => 0x21

/-- The unused bit comes in. -/
theorem bitmapShiftRight_value_fiveBits :
    load (bitmapShiftRight fiveBits 0 0 1 5) 0 5 ≠ load fiveBits 0 5 >>> 1 := by
  intro h
  rcases (bitmapShiftRight_value_iff fiveBits (by decide) (by decide) (by decide) (by decide)).1 h with h | h
  · exact absurd h (by decide)
  · exact absurd (h 5 (by decide) le_rfl (by decide)) (by decide)

/-! #### Single bits, and all bits -/

theorem getLsbD_ofNat_two_pow {nr : ℕ} (hi : i < bits) : (BitVec.ofNat bits (2 ^ nr)).getLsbD i = decide (i = nr) := by
  rw [BitVec.getLsbD_ofNat, decide_eq_true hi, Bool.true_and, Nat.testBit_two_pow]
  exact decide_eq_decide.2 eq_comm

/-- A word of a bitmap is written. -/
theorem store_writes {nr : ℕ} (hnr : nr < bits) {w : BitVec 64} {x : BitVec bits}
    (hother : ∀ i < bits, i / 64 ≠ nr / 64 → x.getLsbD i = (load mem p bits).getLsbD i)
    (hword : ∀ i < bits, i / 64 = nr / 64 → w.getLsbD (i % 64) = x.getLsbD i) :
    Writes mem (store mem (p + nr / 64) w) p x := by
  have hlt : nr / 64 < words 64 bits := div_lt_words hnr
  refine ⟨load_eq_iff.2 fun i hi => ?_, fun a ha => store_of_ne _ _ (by omega)⟩
  unfold bit
  by_cases hsame : i / 64 = nr / 64
  · rw [hsame, store_self, hword i hi hsame]
  · rw [store_of_ne _ _ (by omega), hother i hi hsame, getLsbD_load mem p hi]
    rfl

theorem fill_eq (mem : Memory 64) (p : ℕ) (hbits : 0 < bits) : fill mem p bits =
    filled mem p (words 64 bits) fun k => if k < words 64 bits - 1 then ~~~0 else lastWordMask bits := by
  have hpos : 0 < words 64 bits := Nat.lt_of_le_of_lt (Nat.zero_le _) (div_lt_words hbits)
  have hloop : (List.range (words 64 bits - 1)).foldl (fun m k => store m (p + k) (~~~0)) mem =
      filled mem p (words 64 bits - 1) fun _ => ~~~0 :=
    foldl_range (fun _ _ => False) (fun _ _ _ _ => rfl) (fun _ _ _ _ h => h) mem
  have hmem : (if 1 < words 64 bits then
      (List.range (words 64 bits - 1)).foldl (fun m k => store m (p + k) (~~~0)) mem else mem) =
      filled mem p (words 64 bits - 1) fun _ => ~~~0 := by
    split_ifs with hmany
    · exact hloop
    · rw [← hloop, show words 64 bits - 1 = 0 by omega]
      rfl
  unfold fill
  dsimp only
  rw [hmem, store_filled, Nat.sub_add_cancel hpos]

/-- **The functions that write single bits, or all bits.** -/
theorem bits_writes (mem : Memory 64) (p bits : ℕ) (hbits : 0 < bits) :
    (∀ nr < bits, Writes mem (setBit mem nr p) p (load mem p bits ||| BitVec.ofNat bits (2 ^ nr))) ∧
    (∀ nr < bits, Writes mem (clearBit mem nr p) p (load mem p bits &&& ~~~BitVec.ofNat bits (2 ^ nr))) ∧
    Writes mem (memset mem p (words 64 bits)) p (0 : BitVec bits) ∧
    Writes mem (fill mem p bits) p (BitVec.allOnes bits) := by
  have hmask : ∀ i < bits, ∀ nr, i / 64 = nr / 64 → (bitopMask nr).getLsbD (i % 64) = decide (i = nr) :=
    fun i hi nr h => by
      rw [getLsbD_bitopMask]
      exact decide_eq_decide.2 (by omega)
  refine ⟨fun nr hnr => ?_, fun nr hnr => ?_, ?_, ?_⟩
  · refine store_writes hnr (fun i hi h => ?_) fun i hi h => ?_
    · have hne : ¬i = nr := by omega
      rw [BitVec.getLsbD_or, getLsbD_ofNat_two_pow hi, decide_eq_false hne, Bool.or_false]
    · rw [BitVec.getLsbD_or, BitVec.getLsbD_or, hmask i hi nr h, getLsbD_ofNat_two_pow hi, getLsbD_load mem p hi, bit, h]
  · refine store_writes hnr (fun i hi h => ?_) fun i hi h => ?_
    · have hne : ¬i = nr := by omega
      rw [BitVec.getLsbD_and, BitVec.getLsbD_not, getLsbD_ofNat_two_pow hi, decide_eq_false hne, decide_eq_true hi,
        Bool.not_false, Bool.and_true, Bool.and_true]
    · rw [BitVec.getLsbD_and, BitVec.getLsbD_and, BitVec.getLsbD_not, BitVec.getLsbD_not, hmask i hi nr h,
        getLsbD_ofNat_two_pow hi, getLsbD_load mem p hi, bit, h, decide_eq_true hi,
        decide_eq_true (Nat.mod_lt i (by decide : 0 < 64))]
  · rw [memset_eq]
    exact writes_filled fun i hi => BitVec.getLsbD_zero.trans BitVec.getLsbD_zero.symm
  · rw [fill_eq mem p hbits]
    refine writes_filled fun i hi => ?_
    have hwords := words_64 bits
    have hmod : i % 64 < 64 := Nat.mod_lt i (by decide)
    rw [BitVec.getLsbD_allOnes, decide_eq_true hi]
    by_cases hlast : bits % 64 = 0
    · rw [lastWordMask, if_neg (not_not.2 hlast), ite_self, BitVec.getLsbD_not, decide_eq_true hmod,
        show BitVec.getLsbD (0 : BitVec 64) (i % 64) = false from BitVec.getLsbD_zero]
      rfl
    · rw [if_neg hlast] at hwords
      split_ifs with hk
      · rw [BitVec.getLsbD_not, decide_eq_true hmod,
          show BitVec.getLsbD (0 : BitVec 64) (i % 64) = false from BitVec.getLsbD_zero]
        rfl
      · have hlow : i % 64 < bits % 64 := by omega
        rw [getLsbD_lastWordMask hlast, decide_eq_true hlow]

theorem Writes.trans {mem' mem'' : Memory 64} {x y : BitVec bits} (h : Writes mem mem' p x)
    (h' : Writes mem' mem'' p y) : Writes mem mem'' p y :=
  ⟨h'.value, fun a ha => (h'.frame a ha).trans (h.frame a ha)⟩

/-- A chunk is pushed into the number from below. -/
theorem pushChunk_writes (mem : Memory 64) (p : ℕ) (chunk : BitVec 32) (hbits : 0 < bits) :
    Writes mem (pushChunk mem p chunk bits) p (load mem p bits <<< 32 ||| BitVec.ofNat bits chunk.toNat) := by
  have hshifted : Writes mem (shiftLeft mem p p 32 bits) p (load mem p bits <<< 32) :=
    (shifts_writes mem (Or.inl rfl) (Nat.zero_le _)).2
  refine hshifted.trans (store_writes hbits (fun i hi h => ?_) fun i hi h => ?_)
  · have hbig : 2 ^ 32 ≤ 2 ^ i := Nat.pow_le_pow_right (by decide) (by omega)
    rw [hshifted.value, BitVec.getLsbD_or, BitVec.getLsbD_ofNat,
      Nat.testBit_lt_two_pow (chunk.isLt.trans_le hbig), Bool.and_false, Bool.or_false]
  · have hword := getLsbD_load (shiftLeft mem p p 32 bits) p hi
    have hmod : i % 64 = i := by omega
    rw [hshifted.value, bit, show i / 64 = 0 by omega, Nat.add_zero, hmod] at hword
    rw [BitVec.getLsbD_or, BitVec.getLsbD_or, hmod, hword, BitVec.getLsbD_setWidth, BitVec.getLsbD_ofNat,
      BitVec.testBit_toNat, decide_eq_true hi, decide_eq_true (show i < 64 by omega)]

/-! ### The masks of the cpus -/

/-- The mask at an address. -/
def mask (mem : Memory 64) (p : ℕ) : Cpumask := load mem p nrCpus

/-- **The operations on masks are what the words do**: this is how `cpus_intersects` and the others that the
daemon uses come out. -/
theorem cpumask_ops (mem : Memory 64) (hp : Alias nrCpus dst p) (hq : Alias nrCpus dst q) :
    intersects mem p q nrCpus = cpusIntersects (mask mem p) (mask mem q) ∧
    empty mem p nrCpus = cpusEmpty (mask mem p) ∧
    equal mem p q nrCpus = decide (mask mem p = mask mem q) ∧
    Writes mem (and mem dst p q nrCpus) dst (mask mem p &&& mask mem q) ∧
    Writes mem (or mem dst p q nrCpus) dst (mask mem p ||| mask mem q) ∧
    Writes mem (complement mem dst p nrCpus) dst (~~~mask mem p) ∧
    Writes mem (fill mem dst nrCpus) dst cpuMaskAll ∧
    (∀ cpu < nrCpus, testBit mem cpu p = (mask mem p).getLsbD cpu ∧
      Writes mem (setBit mem cpu p) p (mask mem p ||| cpumaskOfCpu cpu)) ∧
    ∀ chunk : BitVec 32,
      Writes mem (pushChunk mem p chunk nrCpus) p (mask mem p <<< 32 ||| BitVec.ofNat nrCpus chunk.toNat) := by
  obtain ⟨hempty, -, hintersects, hequal, htest⟩ := looks mem p q nrCpus
  obtain ⟨hand, hor, -, -, hcomplement⟩ := logical_writes mem hp hq
  obtain ⟨hset, -, -, -⟩ := bits_writes mem p nrCpus (by decide)
  refine ⟨?_, ?_, hequal, hand, hor, hcomplement, (bits_writes mem dst nrCpus (by decide)).2.2.2,
    fun cpu hcpu => ⟨htest cpu hcpu, hset cpu hcpu⟩, fun chunk => pushChunk_writes mem p chunk (by decide)⟩
  · rw [hintersects, cpusIntersects, Bool.eq_iff_iff, decide_eq_true_eq, bne_iff_ne]
    rfl
  · rw [hempty, cpusEmpty, Bool.eq_iff_iff, decide_eq_true_eq, beq_iff_eq]
    rfl

/-! ### All sizes -/

/-- The number has been shifted up as far as `r` has been counted down, and begins within its highest `n`
bits. -/
structure Halved (x : BitVec 32) (n : ℕ) (p : BitVec 32 × ℕ) : Prop where
  le : p.2 ≤ 32
  shifted : p.1.toNat = x.toNat * 2 ^ (32 - p.2)
  high : 2 ^ (32 - n) ≤ p.1.toNat

theorem and_high_eq_zero_iff (y : BitVec 32) {k : ℕ} (hk : k ≤ 32) :
    y &&& BitVec.allOnes 32 <<< k = 0 ↔ y.toNat < 2 ^ k := by
  rw [eq_zero_iff]
  constructor
  · intro h
    refine Nat.lt_pow_two_of_testBit _ fun b hb => ?_
    rw [BitVec.testBit_toNat]
    by_cases hlt : b < 32
    · have hbit := h b hlt
      rw [BitVec.getLsbD_and, BitVec.getLsbD_shiftLeft, BitVec.getLsbD_allOnes, decide_eq_true hlt,
        decide_eq_false (not_lt.2 hb), decide_eq_true (show b - k < 32 by omega)] at hbit
      simpa using hbit
    · exact BitVec.getLsbD_of_ge _ _ (not_lt.1 hlt)
  · intro h b hb
    rw [BitVec.getLsbD_and, BitVec.getLsbD_shiftLeft]
    by_cases hlow : b < k
    · simp [hlow]
    · have hpow : 2 ^ k ≤ 2 ^ b := Nat.pow_le_pow_right (by decide) (not_lt.1 hlow)
      rw [← BitVec.testBit_toNat, Nat.testBit_lt_two_pow (h.trans_le hpow), Bool.false_and]

theorem Halved.halve {x : BitVec 32} {n : ℕ} {q : BitVec 32 × ℕ} (h : Halved x (2 * n) q) (hn : n ≤ 16)
    {mask : BitVec 32} (hmask : mask = BitVec.allOnes 32 <<< (32 - n)) (hx : x ≠ 0) :
    Halved x n (flsHalve mask n q) := by
  have hpos : 0 < x.toNat := Nat.pos_of_ne_zero fun hz => hx (BitVec.eq_of_toNat_eq hz)
  unfold flsHalve
  rw [hmask]
  by_cases hlow : q.1 &&& BitVec.allOnes 32 <<< (32 - n) = 0
  · rw [if_pos hlow]
    rw [and_high_eq_zero_iff _ (by omega)] at hlow
    have hr : n < q.2 := by
      have hlt : 2 ^ (32 - q.2) < 2 ^ (32 - n) :=
        (Nat.le_mul_of_pos_left _ hpos).trans_lt (h.shifted ▸ hlow)
      have hexp := (Nat.pow_lt_pow_iff_right (by decide)).1 hlt
      omega
    have hfit : q.1.toNat * 2 ^ n < 2 ^ 32 := by
      calc q.1.toNat * 2 ^ n < 2 ^ (32 - n) * 2 ^ n := Nat.mul_lt_mul_of_pos_right hlow (Nat.two_pow_pos n)
        _ = 2 ^ 32 := by rw [← pow_add, Nat.sub_add_cancel (by omega)]
    have hval : (q.1 <<< n).toNat = q.1.toNat * 2 ^ n := by
      rw [BitVec.toNat_shiftLeft, Nat.shiftLeft_eq, Nat.mod_eq_of_lt hfit]
    refine ⟨(Nat.sub_le _ _).trans h.le, ?_, ?_⟩
    · dsimp only
      rw [hval, h.shifted, Nat.mul_assoc, ← pow_add]
      congr 2
      have hle := h.le
      omega
    · dsimp only
      rw [hval]
      calc 2 ^ (32 - n) = 2 ^ (32 - 2 * n) * 2 ^ n := by rw [← pow_add]; congr 1; omega
        _ ≤ q.1.toNat * 2 ^ n := Nat.mul_le_mul_right _ h.high
  · rw [if_neg hlow]
    rw [and_high_eq_zero_iff _ (by omega), not_lt] at hlow
    exact ⟨h.le, h.shifted, hlow⟩

/-- **`fls` finds the highest bit.** -/
theorem fls_eq (x : BitVec 32) : fls x = nbitsToHoldValue x.toNat := by
  unfold fls nbitsToHoldValue
  by_cases hx : x = 0
  · rw [if_pos hx, hx]
    rfl
  · have hpos : x.toNat ≠ 0 := fun hz => hx (BitVec.eq_of_toNat_eq hz)
    have h₀ : Halved x (2 * 16) (x, 32) := ⟨le_rfl, (Nat.mul_one _).symm, Nat.one_le_iff_ne_zero.2 hpos⟩
    have h₁ : Halved x (2 * 8) (flsHalve 0xffff0000 16 (x, 32)) := h₀.halve (by decide) (by decide) hx
    have h₂ : Halved x (2 * 4) (flsHalve 0xff000000 8 _) := h₁.halve (by decide) (by decide) hx
    have h₃ : Halved x (2 * 2) (flsHalve 0xf0000000 4 _) := h₂.halve (by decide) (by decide) hx
    have h₄ : Halved x (2 * 1) (flsHalve 0xc0000000 2 _) := h₃.halve (by decide) (by decide) hx
    have h : Halved x 1 (flsHalve 0x80000000 1 _) := h₄.halve (by decide) (by decide) hx
    rw [if_neg hx, if_neg hpos]
    generalize flsHalve 0x80000000 1 _ = q at h
    obtain ⟨hle, hshift, hhigh⟩ := h
    have hlt := q.1.isLt
    rw [hshift] at hlt hhigh
    have hr : 0 < q.2 := by
      by_contra hzero
      have hz : q.2 = 0 := by omega
      rw [hz] at hlt
      exact hpos (by omega)
    have hup : x.toNat < 2 ^ q.2 := by
      refine Nat.lt_of_mul_lt_mul_right (a := 2 ^ (32 - q.2)) (hlt.trans_eq ?_)
      rw [← pow_add, Nat.add_sub_cancel' hle]
    have hlow : 2 ^ (q.2 - 1) ≤ x.toNat := by
      refine Nat.le_of_mul_le_mul_right (Eq.trans_le ?_ hhigh) (Nat.two_pow_pos (32 - q.2))
      rw [← pow_add]
      congr 1
      omega
    have hlog : x.toNat.log2 = q.2 - 1 :=
      (Nat.log2_eq_iff hpos).2 ⟨hlow, by rwa [Nat.sub_add_cancel hr]⟩
    rw [hlog, Nat.sub_add_cancel hr]

end Bitmap

end IrqBalance

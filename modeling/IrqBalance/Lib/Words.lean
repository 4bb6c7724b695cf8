import Mathlib.Algebra.GroupWithZero.Nat
import Mathlib.Data.List.Range
import Mathlib.Logic.Function.Basic

/-!
# Bitmaps in a memory of words

A bitmap of `n` bits is the first `n` bits of the words at an address; the last word may have bits that
belong to nothing. `load` is the number in the bitmap. A loop that writes one word in each round is a fold of
`store`; when no round reads what an earlier one has written, each word comes out as if it had been written
alone (`foldl_store`).
-/

namespace Words

/-- A memory of words. -/
abbrev Memory (w : ℕ) := ℕ → BitVec w

variable {w n : ℕ} {mem mem' : Memory w} {p a i : ℕ}

/-- Write a word. -/
def store (mem : Memory w) (a : ℕ) (x : BitVec w) : Memory w := Function.update mem a x

@[simp] theorem store_self (mem : Memory w) (a : ℕ) (x : BitVec w) : store mem a x a = x :=
  Function.update_self ..

theorem store_of_ne (mem : Memory w) {a b : ℕ} (x : BitVec w) (h : b ≠ a) : store mem a x b = mem b :=
  Function.update_of_ne h ..

/-! ### Bits -/

/-- The bit `i` of the bitmap at `p`. -/
def bit (mem : Memory w) (p i : ℕ) : Bool := (mem (p + i / w)).getLsbD (i % w)

/-- The bitmap of `n` bits at `p`. -/
def load (mem : Memory w) (p : ℕ) : (n : ℕ) → BitVec n
  | 0 => 0
  | n + 1 => BitVec.cons (bit mem p n) (load mem p n)

theorem getLsbD_load (mem : Memory w) (p : ℕ) (hi : i < n) : (load mem p n).getLsbD i = bit mem p i := by
  induction n with
  | zero => exact absurd hi (Nat.not_lt_zero i)
  | succ n ih =>
    rw [load, BitVec.getLsbD_cons]
    split_ifs with h
    · rw [h]
    · exact ih (by omega)

theorem load_eq_iff {x : BitVec n} : load mem p n = x ↔ ∀ i < n, bit mem p i = x.getLsbD i := by
  constructor
  · rintro rfl i hi
    exact (getLsbD_load mem p hi).symm
  · intro h
    apply BitVec.eq_of_getLsbD_eq
    intro i hi
    rw [getLsbD_load mem p hi, h i hi]

/-! ### Loops that write -/

section Loops

variable {ι : Type*} {addr : ι → ℕ} {val : Memory w → ι → BitVec w} {reads : ι → ℕ → Prop}

/-- **No round reads or writes what an earlier one has written**: every word is written as if it were the
only one, and the other words stay. -/
theorem foldl_store (hval : ∀ m m' k, (∀ a, reads k a → m a = m' a) → val m k = val m' k) {l : List ι}
    (hwrite : l.Pairwise fun j k => addr j ≠ addr k) (hread : l.Pairwise fun j k => ¬reads k (addr j))
    (mem : Memory w) :
    (∀ k ∈ l, l.foldl (fun m k => store m (addr k) (val m k)) mem (addr k) = val mem k) ∧
      ∀ a, (∀ k ∈ l, addr k ≠ a) → l.foldl (fun m k => store m (addr k) (val m k)) mem a = mem a := by
  induction l generalizing mem with
  | nil => exact ⟨by simp, fun _ _ => rfl⟩
  | cons j l ih =>
    obtain ⟨hj, hwrite⟩ := List.pairwise_cons.1 hwrite
    obtain ⟨hj', hread⟩ := List.pairwise_cons.1 hread
    obtain ⟨hin, hout⟩ := ih hwrite hread (store mem (addr j) (val mem j))
    refine ⟨fun k hk => ?_, fun a ha => ?_⟩
    · rw [List.foldl_cons]
      rcases List.mem_cons.1 hk with rfl | hk
      · rw [hout _ fun i hi => (hj i hi).symm, store_self]
      · rw [hin k hk]
        refine hval _ _ k fun a ha => store_of_ne _ _ ?_
        rintro rfl
        exact hj' k hk ha
    · rw [List.foldl_cons, hout a fun k hk => ha k (List.mem_cons_of_mem j hk)]
      exact store_of_ne _ _ (ha j List.mem_cons_self).symm

/-- What a loop leaves that writes the words from `dst` on. -/
def filled (mem : Memory w) (dst n : ℕ) (f : ℕ → BitVec w) : Memory w := fun a =>
  if dst ≤ a ∧ a < dst + n then f (a - dst) else mem a

theorem filled_congr {dst : ℕ} {f g : ℕ → BitVec w} (h : ∀ k < n, f k = g k) :
    filled mem dst n f = filled mem dst n g := by
  funext a
  unfold filled
  split_ifs with ha
  · exact h _ (by omega)
  · rfl

variable {dst : ℕ} {val : Memory w → ℕ → BitVec w} (reads : ℕ → ℕ → Prop)

theorem foldl_store_eq_filled (hval : ∀ m m' k, (∀ a, reads k a → m a = m' a) → val m k = val m' k)
    {l : List ℕ} (hmem : ∀ k, k ∈ l ↔ k < n) (hwrite : l.Pairwise (· ≠ ·))
    (hread : l.Pairwise fun j k => ¬reads k (dst + j)) (mem : Memory w) :
    l.foldl (fun m k => store m (dst + k) (val m k)) mem = filled mem dst n (val mem) := by
  have haddr : l.Pairwise fun j k => dst + j ≠ dst + k := hwrite.imp fun hne e => hne (Nat.add_left_cancel e)
  obtain ⟨hin, hout⟩ := foldl_store hval haddr hread mem
  funext a
  unfold filled
  split_ifs with ha
  · have hk := hin (a - dst) ((hmem _).2 (by omega))
    rwa [Nat.add_sub_cancel' ha.1] at hk
  · refine hout a fun k hk e => ha ?_
    have hlt := (hmem k).1 hk
    omega

/-- A loop upwards. -/
theorem foldl_range (hval : ∀ m m' k, (∀ a, reads k a → m a = m' a) → val m k = val m' k)
    (hread : ∀ j k, j < k → k < n → ¬reads k (dst + j)) (mem : Memory w) :
    (List.range n).foldl (fun m k => store m (dst + k) (val m k)) mem = filled mem dst n (val mem) := by
  refine foldl_store_eq_filled reads hval (fun k => List.mem_range) (List.pairwise_lt_range.imp Nat.ne_of_lt) ?_ mem
  exact List.pairwise_lt_range.imp_of_mem fun hj hk hjk => hread _ _ hjk (List.mem_range.1 hk)

/-- A loop downwards. -/
theorem foldl_range_reverse (hval : ∀ m m' k, (∀ a, reads k a → m a = m' a) → val m k = val m' k)
    (hread : ∀ j k, k < j → j < n → ¬reads k (dst + j)) (mem : Memory w) :
    (List.range n).reverse.foldl (fun m k => store m (dst + k) (val m k)) mem = filled mem dst n (val mem) := by
  have hlt : (List.range n).reverse.Pairwise fun j k => k < j := List.pairwise_reverse.2 List.pairwise_lt_range
  refine foldl_store_eq_filled reads hval (fun k => by simp) (hlt.imp Nat.ne_of_gt) ?_ mem
  exact hlt.imp_of_mem fun hj hk hkj => hread _ _ hkj (by simpa using hj)

end Loops

theorem bit_filled {dst : ℕ} {f : ℕ → BitVec w} {n : ℕ} (hi : i / w < n) :
    bit (filled mem dst n f) dst i = (f (i / w)).getLsbD (i % w) := by
  unfold bit filled
  rw [if_pos ⟨Nat.le_add_right _ _, Nat.add_lt_add_left hi _⟩, Nat.add_sub_cancel_left]

/-! ### The words of a bitmap -/

/-- The words that a bitmap of `n` bits takes. -/
def words (w n : ℕ) : ℕ := (n + w - 1) / w

variable [NeZero w]

theorem words_eq (w n : ℕ) [NeZero w] : words w n = n / w + if n % w = 0 then 0 else 1 := by
  have hw : 0 < w := Nat.pos_of_neZero w
  have hn := Nat.div_add_mod n w
  have hmod := Nat.mod_lt n hw
  unfold words
  split_ifs with hzero
  · refine Nat.div_eq_of_lt_le ?_ ?_
    · rw [Nat.add_zero, Nat.mul_comm]
      omega
    · rw [Nat.add_zero, Nat.add_mul, Nat.mul_comm (n / w)]
      omega
  · refine Nat.div_eq_of_lt_le ?_ ?_
    · rw [Nat.add_mul, Nat.mul_comm (n / w)]
      omega
    · rw [Nat.add_mul, Nat.add_mul, Nat.mul_comm (n / w)]
      omega

theorem div_lt_words (hi : i < n) : i / w < words w n := by
  have hw : 0 < w := Nat.pos_of_neZero w
  have hle : i / w ≤ n / w := Nat.div_le_div_right hi.le
  rw [words_eq]
  split_ifs with hzero
  · rw [Nat.add_zero, Nat.div_lt_iff_lt_mul hw, Nat.div_mul_cancel (Nat.dvd_of_mod_eq_zero hzero)]
    exact hi
  · omega

/-- The bits, word by word. -/
theorem forall_lt_iff (w n : ℕ) [NeZero w] (P : ℕ → Prop) : (∀ i < n, P i) ↔
    (∀ k < n / w, ∀ b < w, P (w * k + b)) ∧ ∀ b < n % w, P (w * (n / w) + b) := by
  have hw : 0 < w := Nat.pos_of_neZero w
  have hn := Nat.div_add_mod n w
  constructor
  · intro h
    refine ⟨fun k hk b hb => h _ ?_, fun b hb => h _ (by omega)⟩
    have hle : w * (k + 1) ≤ w * (n / w) := Nat.mul_le_mul_left w hk
    rw [Nat.mul_add] at hle
    omega
  · rintro ⟨hfull, hlast⟩ i hi
    have hi' := Nat.div_add_mod i w
    have hmod := Nat.mod_lt i hw
    by_cases hk : i / w < n / w
    · have hp := hfull (i / w) hk (i % w) hmod
      rwa [hi'] at hp
    · have heq : i / w = n / w := by
        have hle : i / w ≤ n / w := Nat.div_le_div_right hi.le
        omega
      rw [heq] at hi'
      have hp := hlast (i % w) (by omega)
      rwa [hi'] at hp

theorem bit_mul_add (mem : Memory w) (p k : ℕ) {b : ℕ} (hb : b < w) :
    bit mem p (w * k + b) = (mem (p + k)).getLsbD b := by
  have hdiv : (w * k + b) / w = k := by
    rw [Nat.mul_add_div (Nat.pos_of_neZero w), Nat.div_eq_of_lt hb, Nat.add_zero]
  have hmod : (w * k + b) % w = b := by rw [Nat.mul_add_mod, Nat.mod_eq_of_lt hb]
  rw [bit, hdiv, hmod]

end Words

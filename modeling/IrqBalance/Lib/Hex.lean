import Mathlib.Tactic.Ring
import Mathlib.Tactic.IntervalCases
import Mathlib.Data.List.Range
import IrqBalance.Lib.CString

/-!
# Hexadecimal numbers

`printf`'s `%0*lx` and the number a string of hexadecimal digits denotes, and the digits of a number
to a power of two as a base. Decimal digits come last.
-/

namespace CString

/-- The number that hexadecimal digits denote when they are read after the number `v`. -/
def hexVal (v : ℕ) (ds : Text) : ℕ := ds.foldl (fun v c => 16 * v + unhex c) v

/-- `%0*lx`: lower-case digits, with zeros up to the width. -/
def printHex (width v : ℕ) : Text := (Nat.toDigits 16 v).leftpad width '0'

variable {v w : ℕ} {c : Char} {ds : Text}

theorem hexVal_append (v : ℕ) (ds es : Text) : hexVal v (ds ++ es) = hexVal (hexVal v ds) es :=
  List.foldl_append

theorem unhex_digitChar (h : v < 16) : unhex v.digitChar = v := by
  interval_cases v <;> rfl

theorem isXDigit_digitChar (h : v < 16) : isXDigit v.digitChar = true := by
  interval_cases v <;> rfl

theorem unhex_lt (h : isXDigit c = true) : unhex c < 16 := by
  unfold isXDigit isHexLower isDigit at h
  unfold unhex isDigit
  simp only [Bool.or_eq_true, Bool.and_eq_true, decide_eq_true_eq] at h ⊢
  split_ifs <;> omega

/-- Digits are neither white space nor the characters that end a number. -/
theorem isSpace_of_isXDigit (h : isXDigit c = true) : isSpace c = false ∧ c ≠ '\x00' ∧ c ≠ ',' := by
  unfold isXDigit isHexLower isDigit at h
  simp only [Bool.or_eq_true, Bool.and_eq_true, decide_eq_true_eq] at h
  refine ⟨?_, ?_, ?_⟩
  · rw [← Bool.not_eq_true]
    unfold isSpace
    simp only [Bool.or_eq_true, Bool.and_eq_true, decide_eq_true_eq]
    rintro (rfl | hc)
    · revert h; decide
    · omega
  · rintro rfl; revert h; decide
  · rintro rfl; revert h; decide

theorem hexVal_toDigits (v : ℕ) : hexVal 0 (Nat.toDigits 16 v) = v := by
  induction v using Nat.strong_induction_on with
  | _ v ih =>
    rw [Nat.toDigits_eq_if (by decide)]
    split
    · rename_i hv
      change 16 * 0 + unhex v.digitChar = v
      rw [unhex_digitChar hv]
      omega
    · rename_i hv
      rw [hexVal_append, ih (v / 16) (by omega)]
      change 16 * (v / 16) + unhex (v % 16).digitChar = v
      rw [unhex_digitChar (Nat.mod_lt v (by decide))]
      omega

theorem isXDigit_of_mem_toDigits (h : c ∈ Nat.toDigits 16 v) : isXDigit c = true := by
  induction v using Nat.strong_induction_on with
  | _ v ih =>
    rw [Nat.toDigits_eq_if (by decide)] at h
    split at h
    · rename_i hv
      rw [List.mem_singleton.1 h]
      exact isXDigit_digitChar hv
    · rename_i hv
      rcases List.mem_append.1 h with h | h
      · exact ih (v / 16) (by omega) h
      · rw [List.mem_singleton.1 h]
        exact isXDigit_digitChar (Nat.mod_lt v (by decide))

theorem isXDigit_of_mem_printHex (h : c ∈ printHex w v) : isXDigit c = true := by
  rcases List.mem_append.1 h with h | h
  · rw [(List.mem_replicate.1 h).2]
    rfl
  · exact isXDigit_of_mem_toDigits h

theorem hexVal_replicate_zero (n : ℕ) : hexVal 0 (List.replicate n '0') = 0 := by
  induction n with
  | zero => rfl
  | succ n ih => exact ih

/-- **Reading what was printed.** -/
theorem hexVal_printHex (w v : ℕ) : hexVal 0 (printHex w v) = v := by
  rw [printHex, List.leftpad, hexVal_append, hexVal_replicate_zero, hexVal_toDigits]

theorem printHex_ne_nil (w v : ℕ) : printHex w v ≠ [] := fun h =>
  Nat.toDigits_ne_nil (List.append_eq_nil_iff.1 h).2

theorem length_printHex (hw : 0 < w) (hv : v < 16 ^ w) : (printHex w v).length = w := by
  have hlen := (Nat.length_toDigits_le_iff (by decide) hw).2 hv
  rw [printHex, List.length_leftpad]
  omega

/-! ### Digits to the base `2 ^ b` -/

/-- The number that digits to the base `2 ^ b` denote when they are read after the number `v`. -/
def digitsFrom (b v : ℕ) (ds : List ℕ) : ℕ := ds.foldl (fun v d => v * 2 ^ b + d) v

theorem digitsFrom_append (b v : ℕ) (ds es : List ℕ) :
    digitsFrom b v (ds ++ es) = digitsFrom b (digitsFrom b v ds) es :=
  List.foldl_append

/-- The lowest `n` digits of `x`, read after `v`. -/
theorem digitsFrom_range (b v x n : ℕ) :
    digitsFrom b v ((List.range n).reverse.map fun j => x / 2 ^ (b * j) % 2 ^ b) =
      v * 2 ^ (b * n) + x % 2 ^ (b * n) := by
  induction n generalizing v with
  | zero => simp [digitsFrom, Nat.mod_one]
  | succ n ih =>
    rw [List.range_succ, List.reverse_append, List.reverse_singleton, List.singleton_append,
      List.map_cons]
    change digitsFrom b (v * 2 ^ b + x / 2 ^ (b * n) % 2 ^ b) _ = _
    rw [ih, Nat.mul_succ, pow_add, Nat.mod_mul]
    ring

/-! ### Decimal numbers -/

/-- Digits are neither white space nor NUL. -/
theorem isSpace_of_isDigit (h : isDigit c = true) : isSpace c = false ∧ c ≠ '\x00' :=
  (isSpace_of_isXDigit (by unfold isXDigit isHexLower; rw [h]; rfl)).imp_right And.left

theorem digitsVal_concat (ds : Text) (c : Char) : digitsVal (ds ++ [c]) = 10 * digitsVal ds + (c.toNat - 48) := by
  unfold digitsVal
  rw [List.foldl_append]
  rfl

theorem isDigit_digitChar (h : v < 10) : isDigit v.digitChar = true ∧ v.digitChar.toNat - 48 = v := by
  interval_cases v <;> decide

theorem digitsVal_toDigits (v : ℕ) : digitsVal (Nat.toDigits 10 v) = v := by
  induction v using Nat.strong_induction_on with
  | _ v ih =>
    rw [Nat.toDigits_eq_if (by decide)]
    split
    · rename_i hv
      exact (digitsVal_concat [] _).trans (by rw [(isDigit_digitChar hv).2]; exact Nat.zero_add v)
    · rename_i hv
      rw [digitsVal_concat, ih (v / 10) (by omega), (isDigit_digitChar (Nat.mod_lt v (by decide))).2]
      omega

theorem isDigit_of_mem_toDigits (h : c ∈ Nat.toDigits 10 v) : isDigit c = true := by
  induction v using Nat.strong_induction_on with
  | _ v ih =>
    rw [Nat.toDigits_eq_if (by decide)] at h
    split at h
    · rename_i hv
      rw [List.mem_singleton.1 h]
      exact (isDigit_digitChar hv).1
    · rename_i hv
      rcases List.mem_append.1 h with h | h
      · exact ih (v / 10) (by omega) h
      · rw [List.mem_singleton.1 h]
        exact (isDigit_digitChar (Nat.mod_lt v (by decide))).1

end CString

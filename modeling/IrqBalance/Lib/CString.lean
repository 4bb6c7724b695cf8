import Mathlib.Algebra.Group.Nat.Defs
import Mathlib.Data.List.Infix
import Mathlib.Data.Int.DivMod

/-!
# Text as the C library reads it

Character classes, number scanning, tokens and lines over lists of characters. All functions are
structurally recursive, so that they evaluate in the kernel.

* `strtoul`, `strtol`: base 10, 64 bits, with saturation, and the unread rest of the text;
* `strtok`: the non-empty runs between delimiters;
* `lines`: the lines of a text, each with its newline;
* `fgets`: the pieces that `fgets` with room for `n` characters delivers;
* `loopBuffers`: what `while (!feof(f)) { getline(..); .. }` finds in its buffer.
-/

namespace CString

/-- A C string or the contents of a file. -/
abbrev Text := List Char

def isBlank (c : Char) : Bool := c = ' ' || c = '\t'

def isSpace (c : Char) : Bool := c = ' ' || (9 ≤ c.toNat && c.toNat ≤ 13)

def isDigit (c : Char) : Bool := 48 ≤ c.toNat && c.toNat ≤ 57

def isUpper (c : Char) : Bool := 65 ≤ c.toNat && c.toNat ≤ 90

def isHexLower (c : Char) : Bool := isDigit c || (97 ≤ c.toNat && c.toNat ≤ 102)

def isXDigit (c : Char) : Bool := isHexLower c || (65 ≤ c.toNat && c.toNat ≤ 70)

/-- The value of a hexadecimal digit. -/
def unhex (c : Char) : ℕ :=
  if isDigit c then c.toNat - 48 else if c.toNat < 97 then c.toNat - 55 else c.toNat - 87

/-- ASCII lower case, as a character number. -/
def lower (c : Char) : ℕ := if isUpper c then c.toNat + 32 else c.toNat

/-- `strcasecmp(a, b) == 0`. -/
def strcaseeq (a b : Text) : Bool := a.map lower = b.map lower

/-- `strstr(hay, needle) != NULL`. -/
def strstr (hay needle : Text) : Bool := decide (needle <:+: hay)

theorem strstr_iff (hay needle : Text) : strstr hay needle = true ↔ needle <:+: hay := by
  simp [strstr]

/-- The text a C string function sees: up to the first NUL. -/
def cstr (t : Text) : Text := t.takeWhile (· ≠ '\x00')

/-! ### Numbers -/

/-- The number a string of decimal digits denotes. -/
def digitsVal (ds : Text) : ℕ := ds.foldl (fun v c => 10 * v + (c.toNat - 48)) 0

/-- An optional sign: whether it is a minus, and what follows it. -/
def scanSign : Text → Bool × Text
  | '-' :: t => (true, t)
  | '+' :: t => (false, t)
  | t => (false, t)

/-- White space, an optional sign and decimal digits: sign, digits, rest. -/
def scanDigits (t : Text) : Bool × Text × Text :=
  let st := scanSign (t.dropWhile isSpace)
  (st.1, st.2.takeWhile isDigit, st.2.dropWhile isDigit)

/-- `strtoul(t, &end, 10)` with 64-bit `unsigned long`: the value, and the text at `end`. Without
digits the value is 0 and `end` is the start. -/
def strtoul (t : Text) : ℕ × Text :=
  match scanDigits t with
  | (_, [], _) => (0, t)
  | (neg, ds, rest) =>
    let v := digitsVal ds
    (if 2 ^ 64 ≤ v then 2 ^ 64 - 1 else if neg then (2 ^ 64 - v) % 2 ^ 64 else v, rest)

/-- `strtol(t, NULL, 10)` with 64-bit `long`. -/
def strtol (t : Text) : ℤ :=
  match scanDigits t with
  | (neg, ds, _) =>
    let v := digitsVal ds
    if neg then -(min v (2 ^ 63) : ℕ) else (min v (2 ^ 63 - 1) : ℕ)

/-- Conversion to a 32-bit `int`. -/
def toInt (v : ℤ) : ℤ := v.bmod (2 ^ 32)

/-! ### Tokens and lines -/

/-- The tokens still to come when `cur` has been read of the current one. -/
def strtokFrom (delim : Char → Bool) (cur : Text) : Text → List Text
  | [] => if cur = [] then [] else [cur]
  | c :: t =>
    if delim c then (if cur = [] then strtokFrom delim [] t else cur :: strtokFrom delim [] t)
    else strtokFrom delim (cur ++ [c]) t

/-- The tokens that repeated `strtok` returns: the non-empty runs without a delimiter. -/
def strtok (delim : Char → Bool) (t : Text) : List Text := strtokFrom delim [] t

/-- The lines of a text, each with its newline if it has one. -/
def lines : Text → List Text
  | [] => []
  | c :: t =>
    if c = '\n' then ['\n'] :: lines t
    else match lines t with
      | [] => [[c]]
      | l :: ls => (c :: l) :: ls

/-- The pieces still to come from `fgets` when `cur` has been read of the current one. -/
def fgetsFrom (n : ℕ) (cur : Text) : Text → List Text
  | [] => if cur = [] then [] else [cur]
  | c :: t =>
    if c = '\n' ∨ (cur ++ [c]).length = n then (cur ++ [c]) :: fgetsFrom n [] t
    else fgetsFrom n (cur ++ [c]) t

/-- The pieces that repeated `fgets(buf, n + 1, f)` delivers. -/
def fgets (n : ℕ) (t : Text) : List Text := fgetsFrom n [] t

/-- The first line of a file, as `getline` stores it; the empty string for an empty file. -/
def firstLine (t : Text) : Text := cstr ((lines t).headD [])

/-- The buffer contents that the body of `while (!feof(f)) { getline(&line, ..); .. }` works on,
after a first `getline` has taken the header line. The end of a file that ends in a newline is seen
only by one more read, which fails; then the buffer is empty, or, when the library keeps it
(`keeps`), what the body `left` of the last line. -/
def loopBuffers (keeps : Bool) (left : Text → Text) (t : Text) : List Text :=
  match lines t with
  | [] => []
  | header :: ls =>
    ls.map cstr ++
      if t.getLast? = some '\n' then
        [if keeps then (ls.getLast?.map fun l => left (cstr l)).getD (cstr header) else []]
      else []

/-! ### Lines in pieces -/

variable {n : ℕ} {l t : Text}

theorem mem_lines (h : l ∈ lines t) : l ≠ [] ∧ '\n' ∉ l.dropLast := by
  induction t generalizing l with
  | nil => cases h
  | cons c t ih =>
    rw [lines] at h
    split_ifs at h with hc
    · rcases List.mem_cons.1 h with rfl | h
      · exact ⟨List.cons_ne_nil _ _, by simp⟩
      · exact ih h
    · cases hlines : lines t with
      | nil =>
        rw [hlines, List.mem_singleton] at h
        subst h
        exact ⟨List.cons_ne_nil _ _, by simp⟩
      | cons l' ls =>
        rw [hlines] at h ih
        rcases List.mem_cons.1 h with rfl | h
        · obtain ⟨hne, hmem⟩ := ih List.mem_cons_self
          refine ⟨List.cons_ne_nil _ _, ?_⟩
          rw [List.dropLast_cons_of_ne_nil hne, List.mem_cons, not_or]
          exact ⟨Ne.symm hc, hmem⟩
        · exact ih (List.mem_cons_of_mem l' h)

/-- `fgets` starts anew behind each newline. -/
theorem fgetsFrom_eq (n : ℕ) (cur t : Text) : fgetsFrom n cur t =
    match lines t with
    | [] => if cur = [] then [] else [cur]
    | l :: ls => fgetsFrom n cur l ++ ls.flatMap (fgets n) := by
  have hfresh : ∀ t : Text, (match lines t with
      | [] => if ([] : Text) = [] then [] else [[]]
      | l :: ls => fgetsFrom n [] l ++ ls.flatMap (fgets n)) = (lines t).flatMap (fgets n) := by
    intro t
    cases lines t <;> rfl
  induction t generalizing cur with
  | nil => rfl
  | cons c t ih =>
    rw [lines, fgetsFrom]
    by_cases hc : c = '\n'
    · rw [if_pos (Or.inl hc), if_pos hc, ih, hfresh, hc]
      rfl
    · rw [if_neg hc]
      by_cases hlen : (cur ++ [c]).length = n
      · rw [if_pos (Or.inr hlen), ih, hfresh]
        cases lines t with
        | nil => simp [fgetsFrom, hlen]
        | cons l ls =>
          dsimp only
          rw [fgetsFrom, if_pos (Or.inr hlen)]
          rfl
      · rw [if_neg (not_or.2 ⟨hc, hlen⟩), ih]
        cases lines t with
        | nil =>
          dsimp only
          rw [fgetsFrom, if_neg (not_or.2 ⟨hc, hlen⟩), fgetsFrom, List.flatMap_nil, List.append_nil]
        | cons l ls =>
          dsimp only
          rw [fgetsFrom, if_neg (not_or.2 ⟨hc, hlen⟩)]

/-- **`fgets` delivers the pieces of each line.** -/
theorem fgets_eq_flatMap (n : ℕ) (t : Text) : fgets n t = (lines t).flatMap (fgets n) := by
  unfold fgets
  rw [fgetsFrom_eq]
  cases lines t <;> rfl

theorem fgetsFrom_of_length_le (cur : Text) (hne : l ≠ []) (hline : '\n' ∉ l.dropLast)
    (hlen : cur.length + l.length ≤ n) : fgetsFrom n cur l = [cur ++ l] := by
  induction l generalizing cur with
  | nil => exact absurd rfl hne
  | cons c l ih =>
    rw [fgetsFrom]
    by_cases hl : l = []
    · subst hl
      split_ifs
      · rfl
      · rw [fgetsFrom, if_neg (by simp)]
    · have hpos := List.length_pos_of_ne_nil hl
      rw [List.dropLast_cons_of_ne_nil hl, List.mem_cons, not_or] at hline
      rw [List.length_cons] at hlen
      have hroom : (cur ++ [c]).length ≠ n := by
        rw [List.length_append, List.length_singleton]
        omega
      rw [if_neg (not_or.2 ⟨Ne.symm hline.1, hroom⟩), ih _ hl hline.2, List.append_assoc, List.singleton_append]
      rw [List.length_append, List.length_singleton]
      omega

/-- A line that fits is a piece. -/
theorem fgets_of_length_le (h : l ∈ lines t) (hlen : l.length ≤ n) : fgets n l = [l] := by
  obtain ⟨hne, hline⟩ := mem_lines h
  exact fgetsFrom_of_length_le [] hne hline (by simpa using hlen)

end CString

import IrqBalance.Lib.CString

/-!
# The fields of a text

A text is a list of fields with separators between them. A reader that goes through the text character
by character knows the fields that a separator has closed and the one it is in: `closed` and `current`
say how the two change with the next character. `strtok` returns the fields that are not empty.
-/

namespace Fields

variable {α : Type*} [DecidableEq α] {sep x : α} {b : List α}

/-- The fields of the text so far that a separator has closed. -/
def closed (sep : α) (b : List α) : List (List α) := (b.splitOn sep).dropLast

/-- The field that the reader is in. -/
def current (sep : α) (b : List α) : List α := (b.splitOn sep).getLast (List.splitOn_ne_nil sep b)

theorem closed_append_current (sep : α) (b : List α) : closed sep b ++ [current sep b] = b.splitOn sep :=
  List.dropLast_append_getLast (List.splitOn_ne_nil sep b)

@[simp] theorem closed_nil (sep : α) : closed sep [] = [] := rfl

@[simp] theorem current_nil (sep : α) : current sep [] = [] := rfl

theorem eq_of_splitOn_eq {init : List (List α)} {last : List α} (h : b.splitOn sep = init ++ [last]) :
    closed sep b = init ∧ current sep b = last :=
  List.append_inj' ((closed_append_current sep b).trans h) rfl |>.imp_right (List.cons.inj · |>.1)

theorem splitOn_concat_sep (sep : α) (b : List α) : (b ++ [sep]).splitOn sep = b.splitOn sep ++ [[]] := by
  rw [List.splitOn_append_cons_self, List.splitOn_nil]

/-- A character that is no separator lengthens the last field. -/
theorem splitOn_concat (hx : x ≠ sep) (b : List α) :
    (b ++ [x]).splitOn sep = closed sep b ++ [current sep b ++ [x]] := by
  induction b with
  | nil => simp [List.splitOn_cons_eq_if_modifyHead, hx]
  | cons y b ih =>
    have hb := (closed_append_current sep b).symm
    rw [List.cons_append, List.splitOn_cons_eq_if_modifyHead, ih]
    by_cases hy : y = sep
    · have hsplit : (y :: b).splitOn sep = ([] :: closed sep b) ++ [current sep b] := by
        rw [List.splitOn_cons_eq_if_modifyHead, if_pos (by simp [hy]), hb, List.cons_append]
      rw [(eq_of_splitOn_eq hsplit).1, (eq_of_splitOn_eq hsplit).2, if_pos (by simp [hy]), List.cons_append]
    · rw [if_neg (by simp [hy])]
      cases hclosed : closed sep b with
      | nil =>
        have hsplit : (y :: b).splitOn sep = [] ++ [y :: current sep b] := by
          rw [List.splitOn_cons_eq_if_modifyHead, if_neg (by simp [hy]), hb, hclosed]
          rfl
        rw [(eq_of_splitOn_eq hsplit).1, (eq_of_splitOn_eq hsplit).2]
        rfl
      | cons d ds =>
        have hsplit : (y :: b).splitOn sep = ((y :: d) :: ds) ++ [current sep b] := by
          rw [List.splitOn_cons_eq_if_modifyHead, if_neg (by simp [hy]), hb, hclosed]
          rfl
        rw [(eq_of_splitOn_eq hsplit).1, (eq_of_splitOn_eq hsplit).2]
        rfl

@[simp] theorem closed_concat_sep (sep : α) (b : List α) : closed sep (b ++ [sep]) = b.splitOn sep :=
  (eq_of_splitOn_eq (splitOn_concat_sep sep b)).1

@[simp] theorem current_concat_sep (sep : α) (b : List α) : current sep (b ++ [sep]) = [] :=
  (eq_of_splitOn_eq (splitOn_concat_sep sep b)).2

theorem closed_concat (hx : x ≠ sep) (b : List α) : closed sep (b ++ [x]) = closed sep b :=
  (eq_of_splitOn_eq (splitOn_concat hx b)).1

theorem current_concat (hx : x ≠ sep) (b : List α) : current sep (b ++ [x]) = current sep b ++ [x] :=
  (eq_of_splitOn_eq (splitOn_concat hx b)).2

/-- A separator further on. -/
theorem fields_append_sep (b b' : List α) :
    closed sep (b ++ sep :: b') = b.splitOn sep ++ closed sep b' ∧ current sep (b ++ sep :: b') = current sep b' :=
  eq_of_splitOn_eq (by
    rw [List.splitOn_append_cons_self, ← closed_append_current sep b', List.append_assoc])

/-- Without a separator there is one field. -/
theorem fields_of_not_mem (h : sep ∉ b) : closed sep b = [] ∧ current sep b = b :=
  eq_of_splitOn_eq (List.splitOn_eq_singleton h)

/-! ### `strtok` -/

open CString

/-- `strtok` splits at the delimiters and drops the empty fields. -/
theorem strtokFrom_eq (delim : Char → Bool) (cur t : Text) :
    strtokFrom delim cur t = (List.splitOnPPrepend delim t cur.reverse).filter (· ≠ []) := by
  induction t generalizing cur with
  | nil =>
    rw [strtokFrom, List.splitOnPPrepend_nil, List.reverse_reverse]
    split_ifs with hcur <;> simp [hcur]
  | cons c t ih =>
    rw [strtokFrom]
    cases hdelim : delim c with
    | true =>
      have hrest := ih []
      rw [List.reverse_nil, List.splitOnPPrepend_nil_right] at hrest
      rw [List.splitOnPPrepend_cons_pos hdelim, List.reverse_reverse, if_pos rfl, hrest]
      by_cases hcur : cur = [] <;> simp [hcur]
    | false =>
      rw [List.splitOnPPrepend_cons_neg hdelim, if_neg Bool.false_ne_true, ih]
      simp

theorem strtok_eq_splitOn (sep : Char) (t : Text) : strtok (· = sep) t = (t.splitOn sep).filter (· ≠ []) := by
  unfold strtok
  rw [strtokFrom_eq]
  rfl

end Fields

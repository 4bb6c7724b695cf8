import Mathlib.Data.List.TakeWhile
import Mathlib.Data.Nat.Bitwise
import IrqBalance.Cpumask
import IrqBalance.Lib.Fields
import IrqBalance.Lib.Hex

/-!
# What `__bitmap_parselist` reads

`isolated` and `nohz_full` are lists of cpus: decimal numbers and ranges with commas between them. The parser
goes through the text once and sets the bits of a piece when it is at the end of the piece; `setup_banned_cpus`
uses the mask also when the parser gives up. What it reads is determined by the pieces between the commas, one
by one: a piece is a number or a range, but an empty piece is the cpu 0 and a range without an end goes to the
cpu 0. White space counts as nothing up to the first digit, and behind that it ends the list.
-/

namespace IrqBalance

open CString Fields

/-- `__bitmap_parselist`: the return value and the mask it leaves. -/
def bitmapParselist (buf : Text) : ℤ × Cpumask := bitmapParselistFrom buf {}

/-! ### Pieces -/

/-- The first and the last cpu of a piece. -/
def pieceRange (s : Text) : Option (ℕ × ℕ) :=
  match s.dropWhile isDigit with
  | [] => some (digitsVal s, digitsVal s)
  | c :: es =>
    if c = '-' ∧ s.takeWhile isDigit ≠ [] ∧ es.all isDigit then
      some (digitsVal (s.takeWhile isDigit), digitsVal es)
    else none

/-- What is wrong with a piece, or 0. -/
def pieceCode (s : Text) : ℤ :=
  match pieceRange s with
  | none => eInval
  | some r => if ¬r.1 ≤ r.2 then eInval else if nrCpus ≤ r.2 then eRange else 0

/-- The piece has the cpu. -/
def InPiece (n : ℕ) (s : Text) : Prop := ∃ r, pieceRange s = some r ∧ r.1 ≤ n ∧ n ≤ r.2

/-! ### The text -/

/-- The text in front of the first digit. -/
def listFront (buf : Text) : Text := (cstr buf).takeWhile (!isDigit ·)

/-- The text from the first digit to the white space behind it. -/
def listBody (buf : Text) : Text := ((cstr buf).dropWhile (!isDigit ·)).takeWhile (!isSpace ·)

/-- The text from there on. -/
def listBehind (buf : Text) : Text := ((cstr buf).dropWhile (!isDigit ·)).dropWhile (!isSpace ·)

/-- The text without its white space, up to the white space that ends the list. -/
def listWord (buf : Text) : Text := (listFront buf).filter (!isSpace ·) ++ listBody buf

/-- There is white space behind the first digit, and more text behind that. -/
def ListBroken (buf : Text) : Prop := ∃ c ∈ listBehind buf, isSpace c = false

instance (buf : Text) : Decidable (ListBroken buf) := List.decidableBEx _ _

/-- The last character is a comma, and not behind a NUL. -/
def CommaLast (buf : Text) : Prop := cstr buf = buf ∧ buf.getLast? = some ','

instance (buf : Text) : Decidable (CommaLast buf) := inferInstanceAs (Decidable (_ ∧ _))

/-- The pieces that the parser comes to the end of, if none of them is wrong. -/
def listPieces (buf : Text) : List Text :=
  if ListBroken buf ∨ CommaLast buf then closed ',' (listWord buf) else (listWord buf).splitOn ','

/-- What is wrong with the list, or 0. -/
def listCode (buf : Text) : ℤ :=
  match (listPieces buf).find? (pieceCode · ≠ 0) with
  | some s => pieceCode s
  | none => if ListBroken buf then eInval else 0

/-- A piece of the list has the cpu, and no piece up to this one is wrong. -/
def Listed (buf : Text) (n : ℕ) : Prop := ∃ s ∈ (listPieces buf).takeWhile (pieceCode · = 0), InPiece n s

example : listPieces " 1-3,,6\n".toList = ["1-3".toList, [], "6".toList] := by decide +kernel

/-! ### Pieces, one character after the other -/

variable {s t w tail buf : Text} {c : Char} {a b n : ℕ} {m : Cpumask} {p : BitmapParselist}

/-- The two kinds of pieces. -/
theorem pieceRange_eq_some_iff : pieceRange s = some (a, b) ↔
    ((∀ c ∈ s, isDigit c = true) ∧ a = digitsVal s ∧ b = digitsVal s) ∨
      ∃ ds es, s = ds ++ '-' :: es ∧ ds ≠ [] ∧ (∀ c ∈ ds, isDigit c = true) ∧ (∀ c ∈ es, isDigit c = true) ∧
        a = digitsVal ds ∧ b = digitsVal es := by
  constructor
  · intro h
    unfold pieceRange at h
    cases hrest : s.dropWhile isDigit with
    | nil =>
      rw [hrest] at h
      obtain ⟨rfl, rfl⟩ := Prod.mk.inj (Option.some.inj h)
      exact Or.inl ⟨List.dropWhile_eq_nil_iff.1 hrest, rfl, rfl⟩
    | cons c es =>
      rw [hrest] at h
      dsimp only at h
      split_ifs at h with hrange
      obtain ⟨rfl, hne, hes⟩ := hrange
      obtain ⟨rfl, rfl⟩ := Prod.mk.inj (Option.some.inj h)
      refine Or.inr ⟨s.takeWhile isDigit, es, ?_, hne, fun c hc => List.mem_takeWhile_imp hc, List.all_eq_true.1 hes,
        rfl, rfl⟩
      rw [← hrest, List.takeWhile_append_dropWhile]
  · rintro (⟨hs, rfl, rfl⟩ | ⟨ds, es, rfl, hne, hds, hes, rfl, rfl⟩)
    · have hnil : s.dropWhile isDigit = [] := List.dropWhile_eq_nil_iff.2 hs
      unfold pieceRange
      rw [hnil]
    · have htake : (ds ++ '-' :: es).takeWhile isDigit = ds := by
        rw [List.takeWhile_append_of_pos hds, List.takeWhile_cons_of_neg (by decide), List.append_nil]
      have hdrop : (ds ++ '-' :: es).dropWhile isDigit = '-' :: es := by
        rw [List.dropWhile_append_of_pos hds, List.dropWhile_cons_of_neg (by decide)]
      unfold pieceRange
      rw [hdrop, htake]
      exact if_pos ⟨rfl, hne, List.all_eq_true.2 hes⟩

theorem not_mem_dash (hs : ∀ c ∈ s, isDigit c = true) : '-' ∉ s := fun hmem => by
  have hdash := hs '-' hmem
  cases hdash

/-- A piece goes on with a digit. -/
theorem pieceRange_concat_digit (h : pieceRange s = some (a, b)) (hc : isDigit c = true) :
    pieceRange (s ++ [c]) =
      some (if '-' ∈ s then a else 10 * b + (c.toNat - 48), 10 * b + (c.toNat - 48)) := by
  rw [pieceRange_eq_some_iff] at h ⊢
  rcases h with ⟨hs, rfl, rfl⟩ | ⟨ds, es, rfl, hne, hds, hes, rfl, rfl⟩
  · refine Or.inl ⟨fun d hd => ?_, ?_, (digitsVal_concat s c).symm⟩
    · rcases List.mem_append.1 hd with hd | hd
      · exact hs d hd
      · rwa [List.mem_singleton.1 hd]
    · rw [if_neg (not_mem_dash hs), digitsVal_concat]
  · refine Or.inr ⟨ds, es ++ [c], by simp, hne, hds, fun d hd => ?_, if_pos (by simp), (digitsVal_concat es c).symm⟩
    rcases List.mem_append.1 hd with hd | hd
    · exact hes d hd
    · rwa [List.mem_singleton.1 hd]

/-- A number becomes a range. -/
theorem pieceRange_concat_dash (h : pieceRange s = some (a, b)) (hne : s ≠ []) (hdash : '-' ∉ s) :
    pieceRange (s ++ ['-']) = some (a, 0) := by
  rw [pieceRange_eq_some_iff] at h ⊢
  rcases h with ⟨hs, rfl, rfl⟩ | ⟨ds, es, rfl, -⟩
  · exact Or.inr ⟨s, [], rfl, hne, hs, by simp, rfl, rfl⟩
  · exact absurd (by simp) hdash

/-- What a piece consists of. -/
theorem pieceRange_eq_some_of_append (h : pieceRange (s ++ t) = some (a, b)) :
    ∃ r, pieceRange s = some r := by
  rcases pieceRange_eq_some_iff.1 h with ⟨hs, -, -⟩ | ⟨ds, es, e, hne, hds, hes, -, -⟩
  · exact ⟨_, pieceRange_eq_some_iff.2 (Or.inl ⟨fun c hc => hs c (by simp [hc]), rfl, rfl⟩)⟩
  · rcases List.append_eq_append_iff.1 e with ⟨u, rfl, -⟩ | ⟨u, rfl, hu⟩
    · exact ⟨_, pieceRange_eq_some_iff.2 (Or.inl ⟨fun c hc => hds c (by simp [hc]), rfl, rfl⟩)⟩
    · cases u with
      | nil => exact ⟨_, pieceRange_eq_some_iff.2 (Or.inl ⟨fun c hc => hds c (by simpa using hc), rfl, rfl⟩)⟩
      | cons d u =>
        obtain ⟨rfl, rfl⟩ := List.cons.inj hu
        exact ⟨_, pieceRange_eq_some_iff.2
          (Or.inr ⟨ds, u, rfl, hne, hds, fun c hc => hes c (by simp [hc]), rfl, rfl⟩)⟩

/-- Only digits, and one dash that is not in front, go on with a piece. -/
theorem pieceRange_concat_none (hc : isDigit c = false) (hdash : c = '-' → s = [] ∨ '-' ∈ s) :
    pieceRange (s ++ [c]) = none := by
  rw [Option.eq_none_iff_forall_ne_some]
  rintro ⟨a, b⟩ h
  rcases pieceRange_eq_some_iff.1 h with ⟨hs, -, -⟩ | ⟨ds, es, e, hne, hds, hes, -, -⟩
  · rw [hs c (by simp)] at hc
    cases hc
  · rcases es.eq_nil_or_concat with rfl | ⟨es, d, rfl⟩
    · obtain ⟨rfl, hlast⟩ := List.append_inj' e rfl
      rcases hdash (List.cons.inj hlast).1 with rfl | hmem
      · exact hne rfl
      · exact not_mem_dash hds hmem
    · have e' : s ++ [c] = (ds ++ '-' :: es) ++ [d] := by simpa using e
      rw [(List.cons.inj (List.append_inj' e' rfl).2).1, hes d (by simp)] at hc
      cases hc

/-! ### The end of a piece -/

/-- What the parser does at the end of a piece. -/
def endPiece (m : Cpumask) (s : Text) : Except (ℤ × Cpumask) Cpumask :=
  match pieceRange s with
  | none => .error (eInval, m)
  | some r =>
    if ¬r.1 ≤ r.2 then .error (eInval, m)
    else if nrCpus ≤ r.2 then .error (eRange, m)
    else .ok (m ||| bitRange r.1 r.2)

/-- What the parser does up to the end of the text, where the last piece does not end. -/
def readText (m : Cpumask) (t : Text) : Except (ℤ × Cpumask) Cpumask := do
  let m ← (closed ',' t).foldlM endPiece m
  if pieceRange (current ',' t) = none then .error (eInval, m) else .ok m

theorem readText_error {r : ℤ × Cpumask} (h : (closed ',' t).foldlM endPiece m = .error r) :
    readText m t = .error r := by
  unfold readText
  rw [h]
  rfl

theorem readText_ok {m' : Cpumask} (h : (closed ',' t).foldlM endPiece m = .ok m') :
    readText m t = if pieceRange (current ',' t) = none then .error (eInval, m') else .ok m' := by
  unfold readText
  rw [h]
  rfl

/-- A text without a comma. -/
theorem readText_piece (m : Cpumask) (hs : ',' ∉ s) :
    readText m s = if pieceRange s = none then .error (eInval, m) else .ok m := by
  obtain ⟨hclosed, hcurrent⟩ := fields_of_not_mem hs
  rw [readText_ok (by rw [hclosed]; rfl), hcurrent]

/-- A comma ends a piece. -/
theorem readText_comma (m : Cpumask) (hs : ',' ∉ s) (w : Text) :
    readText m (s ++ ',' :: w) = endPiece m s >>= fun m => readText m w := by
  obtain ⟨hclosed, hcurrent⟩ : closed ',' (s ++ ',' :: w) = s.splitOn ',' ++ closed ',' w ∧
      current ',' (s ++ ',' :: w) = current ',' w := fields_append_sep s w
  unfold readText
  rw [hclosed, hcurrent, List.splitOn_eq_singleton hs, List.singleton_append, List.foldlM_cons, bind_assoc]

/-- A piece that cannot go on. -/
theorem readText_stuck (m : Cpumask) (hs : ',' ∉ s) (hnone : pieceRange s = none) (w : Text) :
    readText m (s ++ w) = .error (eInval, m) := by
  induction w generalizing s with
  | nil => rw [List.append_nil, readText_piece m hs, if_pos hnone]
  | cons c w ih =>
    by_cases hc : c = ','
    · subst hc
      rw [readText_comma m hs, endPiece, hnone]
      rfl
    · rw [List.append_cons]
      refine ih (by simp [hs, Ne.symm hc]) (Option.eq_none_iff_forall_ne_some.2 fun r hr => ?_)
      obtain ⟨r', hr'⟩ := pieceRange_eq_some_of_append hr
      rw [hnone] at hr'
      cases hr'

/-! ### What the parser knows -/

/-- The variables of the parser when it has read `s` of a piece. -/
structure HasRead (p : BitmapParselist) (s : Text) : Prop where
  range : pieceRange s = some (p.a, p.b)
  inRange : p.inRange = true ↔ '-' ∈ s
  expDigit : (p.expDigit = true ∨ p.inRange = true) ↔ (s = [] ∨ '-' ∈ s)
  comma : ',' ∉ s

theorem hasRead_nil (c : Char) (k : ℕ) (m : Cpumask) : HasRead { c := c, totaldigits := k, maskp := m } [] :=
  ⟨rfl, by simp, by simp, by simp⟩

theorem HasRead.endRange (h : HasRead p s) :
    p.endRange = (endPiece p.maskp s).map fun m => { p with maskp := m } := by
  unfold BitmapParselist.endRange endPiece
  rw [h.range]
  dsimp only
  split_ifs <;> rfl

/-- A digit. -/
theorem HasRead.digit (h : HasRead p s) (hc : isDigit c = true) :
    HasRead { p with
      c := c, b := 10 * p.b + (c.toNat - 48), a := if p.inRange then p.a else 10 * p.b + (c.toNat - 48),
      expDigit := false, totaldigits := p.totaldigits + 1 } (s ++ [c]) := by
  have hdash : c ≠ '-' := by rintro rfl; cases hc
  have hcomma : c ≠ ',' := by rintro rfl; cases hc
  have hmem : '-' ∈ s ++ [c] ↔ '-' ∈ s := by simp [Ne.symm hdash]
  refine ⟨?_, by rw [hmem]; exact h.inRange, by simp [hmem, h.inRange], by simp [h.comma, Ne.symm hcomma]⟩
  rw [pieceRange_concat_digit h.range hc]
  by_cases hrange : '-' ∈ s
  · rw [if_pos hrange, if_pos (h.inRange.2 hrange)]
  · rw [if_neg hrange, if_neg (fun hin => hrange (h.inRange.1 hin))]

/-- A dash. -/
theorem HasRead.dash (h : HasRead p s) (hgo : ¬(p.expDigit = true ∨ p.inRange = true)) :
    HasRead { p with c := '-', b := 0, inRange := true, expDigit := true } (s ++ ['-']) := by
  rw [h.expDigit, not_or] at hgo
  exact ⟨pieceRange_concat_dash h.range hgo.1 hgo.2, by simp, by simp, by simp [h.comma]⟩

/-! ### The loops -/

/-- The parser has the result `e` when it comes to the end of `w`, or is then behind `cur` of a piece. -/
def Reads (p : BitmapParselist) (w tail cur : Text) (e : Except (ℤ × Cpumask) Cpumask) : Prop :=
  match e with
  | .error r => bitmapParselistFrom (w ++ tail) p = r
  | .ok m =>
    if tail = [] ∧ w.getLast? = some ',' then bitmapParselistFrom (w ++ tail) p = (0, m)
    else ∃ p', HasRead p' cur ∧ p'.maskp = m ∧
      (p.totaldigits ≠ 0 ∨ (∃ c ∈ w, isDigit c = true) → p'.totaldigits ≠ 0) ∧
      bitmapParselistFrom (w ++ tail) p = bitmapParselistFrom tail p'

theorem Reads.comma {cur : Text} (h : Reads p w tail cur (.ok m)) (hend : tail = [] ∧ w.getLast? = some ',') :
    bitmapParselistFrom (w ++ tail) p = (0, m) := by
  unfold Reads at h
  dsimp only at h
  rwa [if_pos hend] at h

theorem Reads.ok {cur : Text} (h : Reads p w tail cur (.ok m)) (hend : ¬(tail = [] ∧ w.getLast? = some ',')) :
    ∃ p', HasRead p' cur ∧ p'.maskp = m ∧
      (p.totaldigits ≠ 0 ∨ (∃ c ∈ w, isDigit c = true) → p'.totaldigits ≠ 0) ∧
      bitmapParselistFrom (w ++ tail) p = bitmapParselistFrom tail p' := by
  unfold Reads at h
  dsimp only at h
  rwa [if_neg hend] at h

/-- The parser reads `w`, with `tail` behind it, as it would read the text `t`. -/
def ReadsAs (p : BitmapParselist) (w tail t : Text) : Prop :=
  Reads p w tail (current ',' t) (readText p.maskp t)

theorem HasRead.readsAs_nil (h : HasRead p s) (tail : Text) : ReadsAs p [] tail s := by
  have hsome : pieceRange s ≠ none := by rw [h.range]; exact Option.some_ne_none _
  unfold ReadsAs Reads
  rw [readText_piece _ h.comma, if_neg hsome, (fields_of_not_mem h.comma).2]
  dsimp only
  rw [if_neg (by simp)]
  exact ⟨p, h, rfl, fun hspent => hspent.resolve_right (by simp), rfl⟩

/-- A character after which the parser goes on. -/
theorem Reads.cons {p' : BitmapParselist} {cur : Text} {e : Except (ℤ × Cpumask) Cpumask}
    (h : Reads p' w tail cur e) (hlast : w = [] → tail = [] → c ≠ ',')
    (hspent : p.totaldigits ≠ 0 ∨ isDigit c = true → p'.totaldigits ≠ 0)
    (hstep : bitmapParselistFrom (c :: (w ++ tail)) p = bitmapParselistFrom (w ++ tail) p') :
    Reads p (c :: w) tail cur e := by
  have hend : (tail = [] ∧ (c :: w).getLast? = some ',') ↔ (tail = [] ∧ w.getLast? = some ',') := by
    refine and_congr_right fun htail => ?_
    cases w with
    | nil => simpa using hlast rfl htail
    | cons d w => rw [List.getLast?_cons_cons]
  unfold Reads at h ⊢
  cases e with
  | error r => exact hstep.trans h
  | ok m =>
    dsimp only at h ⊢
    by_cases hcomma : tail = [] ∧ w.getLast? = some ','
    · rw [if_pos hcomma] at h
      rw [if_pos (hend.2 hcomma)]
      exact hstep.trans h
    · rw [if_neg hcomma] at h
      rw [if_neg (fun hc => hcomma (hend.1 hc))]
      obtain ⟨q, hq, hqmask, hqspent, hrest⟩ := h
      refine ⟨q, hq, hqmask, fun hsp => hqspent ?_, hstep.trans hrest⟩
      rcases hsp with hp | ⟨d, hd, hdigit⟩
      · exact Or.inl (hspent (Or.inl hp))
      · rcases List.mem_cons.1 hd with rfl | hd
        · exact Or.inl (hspent (Or.inr hdigit))
        · exact Or.inr ⟨d, hd, hdigit⟩

/-- At a comma the piece ends. -/
theorem HasRead.step_comma (h : HasRead p s) (hgo : ¬(p.totaldigits ≠ 0 ∧ ',' ≠ '\x00' ∧ isSpace p.c = true))
    (rest : Text) : bitmapParselistFrom (',' :: rest) p =
      match endPiece p.maskp s with
      | .error r => r
      | .ok m =>
        if rest ≠ [] then bitmapParselistFrom rest { c := ',', totaldigits := p.totaldigits, maskp := m }
        else (0, m) := by
  rw [bitmapParselistFrom, if_neg (by decide), if_neg hgo, if_pos (Or.inr rfl), h.endRange]
  cases endPiece p.maskp s with
  | error r => rfl
  | ok m => simp only [Except.map, and_true]

/-- One character of the text. -/
theorem HasRead.cons {wf : Text} (h : HasRead p s) (hclean : p.totaldigits = 0 ∨ isSpace p.c = false)
    (hspace : isSpace c = false) (hnul : c ≠ '\x00') (hwf : w = [] → wf = [])
    (ih : ∀ p' s', HasRead p' s' → p'.c = c →
      p'.totaldigits = (if isDigit c = true then p.totaldigits + 1 else p.totaldigits) →
      ReadsAs p' w tail (s' ++ wf)) :
    ReadsAs p (c :: w) tail (s ++ c :: wf) := by
  have hgo : ¬(p.totaldigits ≠ 0 ∧ c ≠ '\x00' ∧ isSpace p.c = true) := by
    rintro ⟨htotal, -, hc⟩
    rw [hclean.resolve_left htotal] at hc
    cases hc
  have hspace' : ¬isSpace c = true := by rw [hspace]; exact Bool.false_ne_true
  unfold ReadsAs
  by_cases hcomma : c = ','
  · subst hcomma
    have hstep := h.step_comma hgo (w ++ tail)
    rw [readText_comma _ h.comma, (fields_append_sep s wf).2]
    cases hpiece : endPiece p.maskp s with
    | error r =>
      rw [hpiece] at hstep
      exact hstep
    | ok m =>
      rw [hpiece] at hstep
      dsimp only at hstep
      by_cases hrest : w ++ tail = []
      · obtain ⟨rfl, rfl⟩ := List.append_eq_nil_iff.1 hrest
        rw [hwf rfl]
        rw [if_neg (by simp)] at hstep
        change Reads p [','] [] [] (.ok m)
        unfold Reads
        exact (if_pos ⟨rfl, rfl⟩).mpr hstep
      · rw [if_pos hrest] at hstep
        exact Reads.cons (ih _ [] (hasRead_nil ',' p.totaldigits m) rfl rfl)
          (fun hw htail => absurd (by rw [hw, htail]; rfl) hrest) (fun hsp => hsp.resolve_right (by decide)) hstep
  -- the piece goes on, or the parser gives up
  have hend : ¬(c = '\x00' ∨ c = ',') := not_or.2 ⟨hnul, hcomma⟩
  have hstuck : pieceRange (s ++ [c]) = none → bitmapParselistFrom (c :: (w ++ tail)) p = (eInval, p.maskp) →
      Reads p (c :: w) tail (current ',' (s ++ c :: wf)) (readText p.maskp (s ++ c :: wf)) := by
    intro hnone hstep
    rw [List.append_cons, readText_stuck _ (by simp [h.comma, Ne.symm hcomma]) hnone]
    exact hstep
  by_cases hdigit : isDigit c = true
  · have hdash : c ≠ '-' := by rintro rfl; cases hdigit
    have hnext := ih _ _ (h.digit hdigit) rfl (if_pos hdigit).symm
    rw [List.append_cons]
    refine Reads.cons hnext (fun _ _ => hcomma) (fun _ => Nat.succ_ne_zero _) ?_
    rw [bitmapParselistFrom, if_neg hspace', if_neg hgo, if_neg hend, if_neg hdash, if_neg (by simp [hdigit])]
  by_cases hdash : c = '-'
  · subst hdash
    by_cases hagain : p.expDigit = true ∨ p.inRange = true
    · refine hstuck (pieceRange_concat_none rfl fun _ => h.expDigit.1 hagain) ?_
      rw [bitmapParselistFrom, if_neg hspace', if_neg hgo, if_neg hend, if_pos rfl, if_pos hagain]
    · have hnext := ih _ _ (h.dash hagain) rfl rfl
      rw [List.append_cons]
      refine Reads.cons hnext (fun _ _ => hcomma) (fun hsp => hsp.resolve_right hdigit) ?_
      rw [bitmapParselistFrom, if_neg hspace', if_neg hgo, if_neg hend, if_pos rfl, if_neg hagain]
  · refine hstuck (pieceRange_concat_none (Bool.not_eq_true _ ▸ hdigit) fun e => absurd e hdash) ?_
    rw [bitmapParselistFrom, if_neg hspace', if_neg hgo, if_neg hend, if_neg hdash, if_pos (by simp [hdigit])]

/-- A text without white space. -/
theorem HasRead.body (h : HasRead p s) (hclean : p.totaldigits = 0 ∨ isSpace p.c = false)
    (hw : ∀ c ∈ w, isSpace c = false ∧ c ≠ '\x00') (tail : Text) : ReadsAs p w tail (s ++ w) := by
  induction w generalizing p s with
  | nil =>
    rw [List.append_nil]
    exact h.readsAs_nil tail
  | cons c w ih =>
    obtain ⟨hspace, hnul⟩ := hw c List.mem_cons_self
    exact h.cons hclean hspace hnul id fun p' s' h' hc _ =>
      ih h' (Or.inr (hc ▸ hspace)) fun d hd => hw d (List.mem_cons_of_mem c hd)

/-- White space in front of the first digit is nothing. -/
theorem HasRead.front {front : Text} (h : HasRead p s) (htotal : p.totaldigits = 0)
    (hfront : ∀ c ∈ front, isDigit c = false ∧ c ≠ '\x00') (hw : ∀ c ∈ w, isSpace c = false ∧ c ≠ '\x00')
    (tail : Text) : ReadsAs p (front ++ w) tail (s ++ (front.filter (!isSpace ·) ++ w)) := by
  induction front generalizing p s with
  | nil => exact h.body (Or.inl htotal) hw tail
  | cons c front ih =>
    obtain ⟨hdigit, hnul⟩ := hfront c List.mem_cons_self
    have hrest : ∀ c ∈ front, isDigit c = false ∧ c ≠ '\x00' := fun d hd => hfront d (List.mem_cons_of_mem c hd)
    by_cases hspace : isSpace c = true
    · have h' : HasRead { p with c := c } s := ⟨h.range, h.inRange, h.expDigit, h.comma⟩
      have hcomma : c ≠ ',' := by rintro rfl; cases hspace
      have hnext := ih h' htotal hrest
      rw [List.filter_cons_of_neg (by simp [hspace])]
      refine Reads.cons hnext (fun _ _ => hcomma) (fun hsp => hsp.resolve_right (by simp [hdigit])) ?_
      rw [bitmapParselistFrom, if_pos hspace]
    · rw [List.filter_cons_of_pos (by simp [hspace])]
      refine h.cons (Or.inl htotal) (Bool.not_eq_true _ ▸ hspace) hnul (fun hnil => ?_) fun p' s' h' _ hspent => ?_
      · obtain ⟨rfl, rfl⟩ := List.append_eq_nil_iff.1 hnil
        rfl
      · rw [hdigit, if_neg Bool.false_ne_true, htotal] at hspent
        exact ih h' hspent hrest

/-- White space. -/
theorem bitmapParselistFrom_space (sp rest : Text) (hsp : ∀ c ∈ sp, isSpace c = true) (p : BitmapParselist) :
    ∃ d, (sp ≠ [] → isSpace d = true) ∧
      bitmapParselistFrom (sp ++ rest) p = bitmapParselistFrom rest { p with c := d } := by
  induction sp generalizing p with
  | nil => exact ⟨p.c, fun h => absurd rfl h, rfl⟩
  | cons c sp ih =>
    obtain ⟨d, hd, hread⟩ := ih (fun d hd => hsp d (List.mem_cons_of_mem c hd)) { p with c := c }
    rw [List.cons_append, bitmapParselistFrom, if_pos (hsp c List.mem_cons_self)]
    by_cases hnil : sp = []
    · subst hnil
      exact ⟨c, fun _ => hsp c List.mem_cons_self, rfl⟩
    · exact ⟨d, fun _ => hd hnil, hread⟩

/-- At the end of the text the last piece ends. -/
theorem HasRead.end (h : HasRead p s) (hspace : ∀ c ∈ w, isSpace c = true)
    (htail : tail = [] ∨ ∃ r, tail = '\x00' :: r) : bitmapParselistFrom (w ++ tail) p =
      match endPiece p.maskp s with
      | .error r => r
      | .ok m => (0, m) := by
  obtain ⟨d, -, hread⟩ := bitmapParselistFrom_space w tail hspace p
  have h' : HasRead { p with c := d } s := ⟨h.range, h.inRange, h.expDigit, h.comma⟩
  rw [hread]
  rcases htail with rfl | ⟨r, rfl⟩
  · rw [bitmapParselistFrom, h'.endRange]
    cases endPiece p.maskp s <;> rfl
  · rw [bitmapParselistFrom, if_neg (by decide), if_neg (by simp), if_pos (Or.inl rfl), h'.endRange]
    cases endPiece p.maskp s with
    | error r => rfl
    | ok m => exact if_neg (by simp)

/-- White space behind a digit, and more text. -/
theorem bitmapParselistFrom_broken (hspent : p.totaldigits ≠ 0) (hhead : ∃ d ds, w = d :: ds ∧ isSpace d = true)
    (hnul : ∀ c ∈ w, c ≠ '\x00') (hmore : ∃ c ∈ w, isSpace c = false) :
    bitmapParselistFrom (w ++ tail) p = (eInval, p.maskp) := by
  obtain ⟨d, ds, rfl, hd⟩ := hhead
  obtain ⟨x, xs, hrest⟩ : ∃ x xs, (d :: ds).dropWhile isSpace = x :: xs := by
    refine List.exists_cons_of_ne_nil fun hnil => ?_
    obtain ⟨c, hc, hspace⟩ := hmore
    rw [List.dropWhile_eq_nil_iff.1 hnil c hc] at hspace
    cases hspace
  have hx : isSpace x = false := by
    have hx := List.head?_dropWhile_not isSpace (d :: ds)
    rwa [hrest] at hx
  have hfront : (d :: ds).takeWhile isSpace ≠ [] := by
    rw [List.takeWhile_cons_of_pos hd]
    exact List.cons_ne_nil d _
  obtain ⟨c, hc, hskip⟩ := bitmapParselistFrom_space ((d :: ds).takeWhile isSpace) (x :: xs ++ tail)
    (fun c hc => List.mem_takeWhile_imp hc) p
  have hxnul : x ≠ '\x00' := hnul x (List.dropWhile_sublist _ |>.subset (hrest ▸ List.mem_cons_self))
  rw [← List.takeWhile_append_dropWhile (p := isSpace) (l := d :: ds), List.append_assoc, hrest, hskip,
    List.cons_append, bitmapParselistFrom, if_neg (by simp [hx]), if_pos ⟨hspent, hxnul, hc hfront⟩]

/-! ### The function -/

/-- The buffer: the text up to the first digit, the list, what is behind it, and perhaps a NUL. -/
theorem exists_eq_listFront (buf : Text) : ∃ tail : Text, (tail = [] ∨ ∃ r, tail = '\x00' :: r) ∧
    (tail = [] ↔ cstr buf = buf) ∧ buf = listFront buf ++ listBody buf ++ (listBehind buf ++ tail) := by
  have hcstr : cstr buf = listFront buf ++ listBody buf ++ listBehind buf := by
    unfold listFront listBody listBehind
    rw [List.append_assoc, List.takeWhile_append_dropWhile, List.takeWhile_append_dropWhile]
  have hbuf : buf = cstr buf ++ buf.dropWhile (· ≠ '\x00') := List.takeWhile_append_dropWhile.symm
  refine ⟨buf.dropWhile (· ≠ '\x00'), ?_, ⟨fun hnil => ?_, fun heq => ?_⟩, ?_⟩
  · cases htail : buf.dropWhile (· ≠ '\x00') with
    | nil => exact Or.inl rfl
    | cons c r =>
      have hc := List.head?_dropWhile_not (· ≠ '\x00') buf
      rw [htail] at hc
      exact Or.inr ⟨r, by rw [of_decide_eq_false hc |> not_not.1]⟩
  · rw [hnil, List.append_nil] at hbuf
    exact hbuf.symm
  · rw [heq] at hbuf
    exact List.append_cancel_left (hbuf.symm.trans (List.append_nil buf).symm)
  · rw [← List.append_assoc, ← hcstr]
    exact hbuf

theorem ne_nul_of_mem_cstr (h : c ∈ cstr buf) : c ≠ '\x00' := by simpa using List.mem_takeWhile_imp h

/-- In front of anything behind the list there is a digit. -/
theorem exists_digit_of_behind (h : listBehind buf ≠ []) : ∃ c ∈ listBody buf, isDigit c = true := by
  cases hlist : (cstr buf).dropWhile (!isDigit ·) with
  | nil =>
    rw [listBehind, hlist] at h
    exact absurd rfl h
  | cons c r =>
    have hc := List.head?_dropWhile_not (!isDigit ·) (cstr buf)
    rw [hlist] at hc
    have hdigit : isDigit c = true := by simpa using hc
    refine ⟨c, ?_, hdigit⟩
    have hspace := (isSpace_of_isDigit hdigit).1
    rw [listBody, hlist, List.takeWhile_cons_of_pos (by rw [hspace]; rfl)]
    exact List.mem_cons_self

theorem listBehind_head (h : listBehind buf ≠ []) : ∃ d ds, listBehind buf = d :: ds ∧ isSpace d = true := by
  obtain ⟨d, ds, hds⟩ := List.exists_cons_of_ne_nil h
  have hd := List.head?_dropWhile_not (!isSpace ·) ((cstr buf).dropWhile (!isDigit ·))
  rw [← listBehind, hds] at hd
  exact ⟨d, ds, hds, by simpa using hd⟩

/-- The loops on the list. -/
theorem readsAs_listWord (buf tail : Text) :
    ReadsAs {} (listFront buf ++ listBody buf) tail (listWord buf) := by
  refine HasRead.front (hasRead_nil '\x00' 0 0) rfl (fun c hc => ⟨?_, ?_⟩) (fun c hc => ⟨?_, ?_⟩) tail
  · simpa using List.mem_takeWhile_imp hc
  · exact ne_nul_of_mem_cstr (List.takeWhile_sublist _ |>.subset hc)
  · simpa using List.mem_takeWhile_imp hc
  · exact ne_nul_of_mem_cstr
      (List.dropWhile_sublist _ |>.subset (List.takeWhile_sublist _ |>.subset hc))

/-- A comma at the end of the list closes a piece. -/
theorem listWord_of_comma (h : (listFront buf ++ listBody buf).getLast? = some ',') :
    ∃ t, listWord buf = t ++ [','] := by
  have hlast : (listWord buf).getLast? = some ',' := by
    obtain ⟨t, ht⟩ := List.getLast?_eq_some_iff.1 h
    cases hbody : listBody buf with
    | nil =>
      rw [hbody, List.append_nil] at ht
      rw [listWord, hbody, List.append_nil, ht, List.filter_append, List.getLast?_append]
      rfl
    | cons c r =>
      rw [hbody, List.getLast?_append_of_ne_nil _ (List.cons_ne_nil c r)] at h
      rw [listWord, hbody, List.getLast?_append_of_ne_nil _ (List.cons_ne_nil c r), h]
  exact List.getLast?_eq_some_iff.1 hlast

theorem closed_of_comma (h : (listFront buf ++ listBody buf).getLast? = some ',') :
    current ',' (listWord buf) = [] := by
  obtain ⟨t, ht⟩ := listWord_of_comma h
  rw [ht, current_concat_sep]

/-- A buffer whose last character is read as a comma ends there. -/
theorem commaLast_iff (hcstr : tail = [] ↔ cstr buf = buf)
    (hbuf : buf = listFront buf ++ listBody buf ++ (listBehind buf ++ tail)) :
    (listBehind buf ++ tail = [] ∧ (listFront buf ++ listBody buf).getLast? = some ',') ↔
      CommaLast buf ∧ ¬ListBroken buf := by
  constructor
  · rintro ⟨hnil, hcomma⟩
    obtain ⟨hbehind, htail⟩ := List.append_eq_nil_iff.1 hnil
    refine ⟨⟨hcstr.1 htail, ?_⟩, ?_⟩
    · rw [hbuf, hnil, List.append_nil]
      exact hcomma
    · rintro ⟨c, hc, -⟩
      rw [hbehind] at hc
      cases hc
  · rintro ⟨⟨hall, hcomma⟩, hbroken⟩
    obtain rfl := hcstr.2 hall
    rw [List.append_nil] at hbuf ⊢
    by_cases hbehind : listBehind buf = []
    · rw [hbehind, List.append_nil] at hbuf
      exact ⟨hbehind, hbuf ▸ hcomma⟩
    · rw [hbuf, List.getLast?_append_of_ne_nil _ hbehind] at hcomma
      exact absurd ⟨',', List.mem_of_getLast? hcomma, rfl⟩ hbroken

/-- **`__bitmap_parselist` piece by piece.** -/
theorem bitmapParselist_eq (buf : Text) : bitmapParselist buf =
    match (listPieces buf).foldlM endPiece 0 with
    | .error r => r
    | .ok m => (if ListBroken buf then eInval else 0, m) := by
  obtain ⟨tail, htail, hcstr, hbuf⟩ := exists_eq_listFront buf
  have hend := commaLast_iff hcstr hbuf
  have hread := readsAs_listWord buf (listBehind buf ++ tail)
  have hparse : bitmapParselist buf =
      bitmapParselistFrom (listFront buf ++ listBody buf ++ (listBehind buf ++ tail)) {} :=
    congrArg (bitmapParselistFrom · {}) hbuf
  have hpieces : (listWord buf).splitOn ',' = closed ',' (listWord buf) ++ [current ',' (listWord buf)] :=
    (closed_append_current ',' (listWord buf)).symm
  unfold ReadsAs at hread
  rw [hparse]
  cases hclosed : (closed ',' (listWord buf)).foldlM endPiece 0 with
  | error r =>
    -- a piece with a comma behind it is wrong
    have hfold : (listPieces buf).foldlM endPiece 0 = .error r := by
      unfold listPieces
      split_ifs
      · exact hclosed
      · rw [hpieces, List.foldlM_append, hclosed]
        rfl
    rw [readText_error hclosed] at hread
    rw [hfold]
    exact hread
  | ok m =>
    rw [readText_ok hclosed] at hread
    by_cases hbroken : ListBroken buf
    · have hne : ¬(listBehind buf ++ tail = [] ∧ (listFront buf ++ listBody buf).getLast? = some ',') :=
        fun h => (hend.1 h).2 hbroken
      rw [listPieces, if_pos (Or.inl hbroken), hclosed, if_pos hbroken]
      split_ifs at hread with hnone
      · exact hread
      · obtain ⟨p', -, rfl, hspent, hrest⟩ := hread.ok hne
        obtain ⟨c, hc, hspace⟩ := hbroken
        have hbehind : listBehind buf ≠ [] := List.ne_nil_of_mem hc
        obtain ⟨d, hd, hdigit⟩ := exists_digit_of_behind hbehind
        rw [hrest]
        refine bitmapParselistFrom_broken (hspent (Or.inr ⟨d, List.mem_append_right _ hd, hdigit⟩))
          (listBehind_head hbehind) (fun x hx => ?_) ⟨c, hc, hspace⟩
        exact ne_nul_of_mem_cstr
          (List.dropWhile_sublist _ |>.subset (List.dropWhile_sublist _ |>.subset hx))
    · rw [if_neg hbroken]
      by_cases hcomma : CommaLast buf
      · -- the last character closes the last piece
        have hlast := hend.2 ⟨hcomma, hbroken⟩
        have hsome : pieceRange [] ≠ none := Option.some_ne_none _
        rw [closed_of_comma hlast.2, if_neg hsome] at hread
        rw [listPieces, if_pos (Or.inr hcomma), hclosed]
        exact hread.comma hlast
      · have hne : ¬(listBehind buf ++ tail = [] ∧ (listFront buf ++ listBody buf).getLast? = some ',') :=
          fun h => hcomma (hend.1 h).1
        have hspace : ∀ c ∈ listBehind buf, isSpace c = true := fun c hc => by
          by_contra hns
          exact hbroken ⟨c, hc, Bool.not_eq_true _ ▸ hns⟩
        have hfold : (listPieces buf).foldlM endPiece 0 = endPiece m (current ',' (listWord buf)) := by
          rw [listPieces, if_neg (not_or.2 ⟨hbroken, hcomma⟩), hpieces, List.foldlM_append, hclosed]
          exact bind_pure (m := Except (ℤ × Cpumask)) _
        rw [hfold]
        split_ifs at hread with hnone
        · rw [endPiece, hnone]
          exact hread
        · obtain ⟨p', hp', rfl, -, hrest⟩ := hread.ok hne
          rw [hrest, hp'.end hspace htail]

/-! ### The mask -/

theorem getLsbD_bitRange (hab : a ≤ b) (hb : b < nrCpus) (n : ℕ) :
    (bitRange a b).getLsbD n = true ↔ a ≤ n ∧ n ≤ b := by
  have hsplit : 2 ^ (b + 1) - 2 ^ a = 2 ^ a * (2 ^ (b + 1 - a) - 1) := by
    rw [Nat.mul_sub, ← pow_add, Nat.mul_one, Nat.add_sub_cancel' (by omega)]
  unfold bitRange
  rw [BitVec.getLsbD_ofNat, hsplit, Nat.testBit_two_pow_mul, Nat.testBit_two_pow_sub_one]
  simp only [Bool.and_eq_true, decide_eq_true_eq]
  omega

theorem pieceCode_eq_zero_iff :
    pieceCode s = 0 ↔ ∃ r, pieceRange s = some r ∧ r.1 ≤ r.2 ∧ r.2 < nrCpus := by
  unfold pieceCode
  cases hrange : pieceRange s with
  | none => simp [eInval]
  | some r =>
    have heInval : eInval ≠ 0 := by decide
    have heRange : eRange ≠ 0 := by decide
    dsimp only
    split_ifs <;> simp <;> omega

/-- A piece: it adds its cpus, or the parser gives up. -/
theorem endPiece_cases (m : Cpumask) (s : Text) :
    (pieceCode s = 0 ∧ ∃ m', endPiece m s = .ok m' ∧
      ∀ n, m'.getLsbD n = true ↔ m.getLsbD n = true ∨ InPiece n s) ∨
    (pieceCode s ≠ 0 ∧ endPiece m s = .error (pieceCode s, m)) := by
  by_cases hcode : pieceCode s = 0
  · obtain ⟨r, hr, hle, hlt⟩ := pieceCode_eq_zero_iff.1 hcode
    refine Or.inl ⟨hcode, m ||| bitRange r.1 r.2, ?_, fun n => ?_⟩
    · rw [endPiece, hr]
      dsimp only
      rw [if_neg (not_not.2 hle), if_neg (by omega)]
    · rw [BitVec.getLsbD_or, Bool.or_eq_true, getLsbD_bitRange hle hlt]
      refine or_congr_right ⟨fun hn => ⟨r, hr, hn⟩, ?_⟩
      rintro ⟨r', hr', hn⟩
      rw [hr, Option.some.injEq] at hr'
      rwa [hr']
  · refine Or.inr ⟨hcode, ?_⟩
    unfold pieceCode at hcode ⊢
    unfold endPiece
    cases hrange : pieceRange s with
    | none => rfl
    | some r =>
      rw [hrange] at hcode
      dsimp only at hcode ⊢
      split_ifs at hcode ⊢ <;> first | rfl | exact absurd rfl hcode

/-- The pieces in front of the first that is wrong are in the mask. -/
theorem foldlM_endPiece (ps : List Text) (m : Cpumask) : ∃ m',
    (∀ n, m'.getLsbD n = true ↔
      m.getLsbD n = true ∨ ∃ s ∈ ps.takeWhile (pieceCode · = 0), InPiece n s) ∧
    ps.foldlM endPiece m =
      match ps.find? (pieceCode · ≠ 0) with
      | some s => .error (pieceCode s, m')
      | none => .ok m' := by
  induction ps generalizing m with
  | nil => exact ⟨m, by simp, rfl⟩
  | cons s ps ih =>
    rcases endPiece_cases m s with ⟨hcode, m₁, hok, hbits⟩ | ⟨hcode, herr⟩
    · obtain ⟨m', hm', hfold⟩ := ih m₁
      refine ⟨m', fun n => ?_, ?_⟩
      · rw [List.takeWhile_cons_of_pos (by simpa using hcode), hm', hbits, or_assoc]
        simp
      · rw [List.foldlM_cons, hok, List.find?_cons_of_neg (by simpa using hcode)]
        exact hfold
    · refine ⟨m, fun n => ?_, ?_⟩
      · rw [List.takeWhile_cons_of_neg (by simpa using hcode)]
        simp
      · rw [List.foldlM_cons, herr, List.find?_cons_of_pos (by simpa using hcode)]
        rfl

/-- **What `__bitmap_parselist` returns and leaves, for every text**: the error of the first piece that is
wrong, or of white space inside, and the cpus of the pieces in front of that. -/
theorem bitmapParselist_exact (buf : Text) :
    (bitmapParselist buf).1 = listCode buf ∧ ∀ n, (bitmapParselist buf).2.getLsbD n = true ↔ Listed buf n := by
  obtain ⟨m, hm, hfold⟩ := foldlM_endPiece (listPieces buf) 0
  have hbits : ∀ n, m.getLsbD n = true ↔ Listed buf n := fun n => by
    have hnone : ¬BitVec.getLsbD (0 : Cpumask) n = true := by simp
    rw [hm n]
    exact or_iff_right hnone
  rw [bitmapParselist_eq, hfold, listCode]
  cases (listPieces buf).find? (pieceCode · ≠ 0) with
  | none => exact ⟨rfl, hbits⟩
  | some s => exact ⟨rfl, hbits⟩

/-! ### The format of the files -/

/-- A range: the first and the last cpu, or the one cpu. -/
def rangeText (r : ℕ × ℕ) : Text :=
  if r.1 = r.2 then Nat.toDigits 10 r.1 else Nat.toDigits 10 r.1 ++ '-' :: Nat.toDigits 10 r.2

/-- A list of ranges. -/
def listText (rs : List (ℕ × ℕ)) : Text := [','].intercalate (rs.map rangeText)

/-- The text of a range is a piece. -/
theorem pieceRange_rangeText (r : ℕ × ℕ) : pieceRange (rangeText r) = some r := by
  have hdigits : ∀ k, ∀ c ∈ Nat.toDigits 10 k, isDigit c = true := fun k c hc => isDigit_of_mem_toDigits hc
  refine pieceRange_eq_some_iff.2 ?_
  unfold rangeText
  split_ifs with hone
  · exact Or.inl ⟨hdigits r.1, (digitsVal_toDigits _).symm, by rw [digitsVal_toDigits, hone]⟩
  · exact Or.inr ⟨_, _, rfl, Nat.toDigits_ne_nil, hdigits r.1, hdigits r.2, (digitsVal_toDigits _).symm,
      (digitsVal_toDigits _).symm⟩

theorem mem_rangeText {r : ℕ × ℕ} (h : c ∈ rangeText r) : isDigit c = true ∨ c = '-' := by
  unfold rangeText at h
  split_ifs at h
  · exact Or.inl (isDigit_of_mem_toDigits h)
  · rcases List.mem_append.1 h with h | h
    · exact Or.inl (isDigit_of_mem_toDigits h)
    · rcases List.mem_cons.1 h with rfl | h
      · exact Or.inr rfl
      · exact Or.inl (isDigit_of_mem_toDigits h)

theorem rangeText_ne_nil (r : ℕ × ℕ) : rangeText r ≠ [] := by
  unfold rangeText
  split_ifs
  · exact Nat.toDigits_ne_nil
  · exact List.append_ne_nil_of_left_ne_nil Nat.toDigits_ne_nil _

variable {rs : List (ℕ × ℕ)}

theorem splitOn_listText (hne : rs ≠ []) : (listText rs).splitOn ',' = rs.map rangeText := by
  refine List.splitOn_intercalate ',' (fun s hs hcomma => ?_) (by simpa using hne)
  obtain ⟨r, -, rfl⟩ := List.mem_map.1 hs
  rcases mem_rangeText hcomma with h | h <;> cases h

theorem mem_listText (h : c ∈ listText rs) : isSpace c = false ∧ c ≠ '\x00' := by
  have hmem : c ∈ (rs.map rangeText).flatten ∨ c = ',' := by
    unfold listText at h
    induction rs with
    | nil => cases h
    | cons r rs ih =>
      cases rs with
      | nil =>
        rw [List.map_singleton, List.intercalate_singleton] at h
        exact Or.inl (by simpa using h)
      | cons r' rs =>
        rw [List.map_cons, List.map_cons, List.intercalate_cons_cons, List.mem_append, List.mem_append] at h
        rcases h with (h | h) | h
        · exact Or.inl (by simp [h])
        · exact Or.inr (List.mem_singleton.1 h)
        · exact (ih h).imp_left fun hc => List.mem_append_right _ hc
  rcases hmem with hc | rfl
  · obtain ⟨s, hs, hc⟩ := List.mem_flatten.1 hc
    obtain ⟨r, -, rfl⟩ := List.mem_map.1 hs
    rcases mem_rangeText hc with hd | rfl
    · exact isSpace_of_isDigit hd
    · decide
  · decide

theorem listText_head (hne : rs ≠ []) : ∃ d t, listText rs = d :: t ∧ isDigit d = true := by
  obtain ⟨r, rs, rfl⟩ := List.exists_cons_of_ne_nil hne
  have hdigits : ∀ k u, ∃ d t, Nat.toDigits 10 k ++ u = d :: t ∧ isDigit d = true := fun k u => by
    obtain ⟨d, t, ht⟩ := List.exists_cons_of_ne_nil (Nat.toDigits_ne_nil (b := 10) (n := k))
    exact ⟨d, t ++ u, by rw [ht, List.cons_append], isDigit_of_mem_toDigits (ht ▸ List.mem_cons_self)⟩
  have hrange : ∀ u, ∃ d t, rangeText r ++ u = d :: t ∧ isDigit d = true := fun u => by
    unfold rangeText
    split_ifs
    · exact hdigits r.1 u
    · rw [List.append_assoc]
      exact hdigits r.1 _
  unfold listText
  cases rs with
  | nil =>
    rw [List.map_singleton, List.intercalate_singleton, ← List.append_nil (rangeText r)]
    exact hrange []
  | cons r' rs =>
    rw [List.map_cons, List.map_cons, List.intercalate_cons_cons, List.append_assoc]
    exact hrange _

/-- The pieces of a list of ranges, with white space behind it. -/
theorem listPieces_listText (hne : rs ≠ []) {e : Text} (he : ∀ c ∈ e, isSpace c = true) :
    listPieces (listText rs ++ e) = rs.map rangeText ∧ ¬ListBroken (listText rs ++ e) := by
  obtain ⟨d, t, ht, hd⟩ := listText_head hne
  have hcstr : cstr (listText rs ++ e) = listText rs ++ e := by
    rw [cstr, List.takeWhile_eq_self_iff]
    intro c hc
    rcases List.mem_append.1 hc with hc | hc
    · exact decide_eq_true (mem_listText hc).2
    · refine decide_eq_true ?_
      rintro rfl
      cases he _ hc
  have hfront : listFront (listText rs ++ e) = [] := by
    rw [listFront, hcstr, ht, List.cons_append, List.takeWhile_cons_of_neg (by simp [hd])]
  have hdrop : (cstr (listText rs ++ e)).dropWhile (!isDigit ·) = listText rs ++ e := by
    rw [hcstr, ht, List.cons_append, List.dropWhile_cons_of_neg (by simp [hd])]
  have hword : ∀ c ∈ listText rs, (!isSpace c) = true := fun c hc => by rw [(mem_listText hc).1]; rfl
  have hnone : e.takeWhile (!isSpace ·) = [] ∧ e.dropWhile (!isSpace ·) = e := by
    cases e with
    | nil => exact ⟨rfl, rfl⟩
    | cons c e =>
      have hc := he c List.mem_cons_self
      exact ⟨List.takeWhile_cons_of_neg (by simp [hc]), List.dropWhile_cons_of_neg (by simp [hc])⟩
  have hbody : listBody (listText rs ++ e) = listText rs := by
    rw [listBody, hdrop, List.takeWhile_append_of_pos hword, hnone.1, List.append_nil]
  have hbehind : listBehind (listText rs ++ e) = e := by
    rw [listBehind, hdrop, List.dropWhile_append_of_pos hword, hnone.2]
  have hbroken : ¬ListBroken (listText rs ++ e) := by
    rintro ⟨c, hc, hspace⟩
    rw [hbehind] at hc
    rw [he c hc] at hspace
    cases hspace
  have hcomma : ¬CommaLast (listText rs ++ e) := by
    rintro ⟨-, hlast⟩
    by_cases hnil : e = []
    · rw [hnil, List.append_nil] at hlast
      obtain ⟨u, hu⟩ := List.getLast?_eq_some_iff.1 hlast
      have hcur : current ',' (listText rs) ∈ rs.map rangeText := by
        rw [← splitOn_listText hne, ← closed_append_current]
        simp
      obtain ⟨r, -, hr⟩ := List.mem_map.1 hcur
      rw [hu, current_concat_sep] at hr
      exact rangeText_ne_nil r hr
    · rw [List.getLast?_append_of_ne_nil _ hnil] at hlast
      cases he _ (List.mem_of_getLast? hlast)
  refine ⟨?_, hbroken⟩
  rw [listPieces, if_neg (not_or.2 ⟨hbroken, hcomma⟩), listWord, hfront, hbody, List.filter_nil, List.nil_append,
    splitOn_listText hne]

/-- **A list in the format of the files is read back**: the mask has the cpus of its ranges. -/
theorem bitmapParselist_listText (hne : rs ≠ []) (hrs : ∀ r ∈ rs, r.1 ≤ r.2 ∧ r.2 < nrCpus) {e : Text}
    (he : ∀ c ∈ e, isSpace c = true) :
    (bitmapParselist (listText rs ++ e)).1 = 0 ∧
      ∀ n, (bitmapParselist (listText rs ++ e)).2.getLsbD n = true ↔ ∃ r ∈ rs, r.1 ≤ n ∧ n ≤ r.2 := by
  obtain ⟨hpieces, hbroken⟩ := listPieces_listText hne he
  obtain ⟨m, hm, hfold⟩ := foldlM_endPiece (rs.map rangeText) 0
  have hgood : ∀ s ∈ rs.map rangeText, pieceCode s = 0 := by
    intro s hs
    obtain ⟨r, hr, rfl⟩ := List.mem_map.1 hs
    exact pieceCode_eq_zero_iff.2 ⟨r, pieceRange_rangeText r, hrs r hr⟩
  have hfind : (rs.map rangeText).find? (pieceCode · ≠ 0) = none :=
    List.find?_eq_none.2 fun s hs => by simpa using hgood s hs
  have htake : (rs.map rangeText).takeWhile (pieceCode · = 0) = rs.map rangeText :=
    List.takeWhile_eq_self_iff.2 fun s hs => by simpa using hgood s hs
  rw [hfind] at hfold
  rw [bitmapParselist_eq, hpieces, hfold, if_neg hbroken]
  refine ⟨rfl, fun n => ?_⟩
  have hnone : ¬BitVec.getLsbD (0 : Cpumask) n = true := by simp
  rw [hm n, htake]
  constructor
  · rintro (hn | ⟨s, hs, r, hr, hn⟩)
    · exact absurd hn hnone
    · obtain ⟨r', hr', rfl⟩ := List.mem_map.1 hs
      rw [pieceRange_rangeText, Option.some.injEq] at hr
      exact ⟨r', hr', hr ▸ hn⟩
  · rintro ⟨r, hr, hn⟩
    exact Or.inr ⟨rangeText r, List.mem_map_of_mem hr, r, pieceRange_rangeText r, hn⟩

/-- The list of the cpus 1 to 3 and 6. -/
theorem bitmapParselist_listText_two : (bitmapParselist "1-3,6\n".toList).1 = 0 ∧
    ∀ n, (bitmapParselist "1-3,6\n".toList).2.getLsbD n = true ↔ ∃ r ∈ [(1, 3), (6, 6)], r.1 ≤ n ∧ n ≤ r.2 := by
  have htext : "1-3,6\n".toList = listText [(1, 3), (6, 6)] ++ ['\n'] := by decide +kernel
  rw [htext]
  exact bitmapParselist_listText (List.cons_ne_nil _ _) (by decide) fun c hc => by rw [List.mem_singleton.1 hc]; rfl

end IrqBalance

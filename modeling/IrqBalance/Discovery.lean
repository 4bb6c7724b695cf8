import Mathlib.Data.List.TakeWhile
import IrqBalance.ProcInterrupts
import IrqBalance.Lib.Fields

/-!
# What discovery finds in `/proc/interrupts`

`collect_full_irq_list` makes an entry of every line with a colon in front of the first line that does
not start with a digit: the leading number, and the last token for a name. It copies the line into a
buffer of 1024 bytes, where `strtok_r` looks for at least two tokens, it keeps the number in an `int`, and
`check_platform_device` builds a path of the name in 512 bytes. The lines for which all of this works are
those that `LineFits` describes, and nothing else can go wrong but a file that is only a header.
-/

namespace IrqBalance

open CString Fields

/-! ### The entries of the file -/

/-- The space-separated tokens of a line. -/
def tokens (line : Text) : List Text := (line.splitOn ' ').filter (· ≠ [])

/-- The last token, without the newline. -/
def lastToken (line : Text) : Text := ((tokens line).getLastD []).takeWhile (· ≠ '\n')

/-- The number at the start of a line. -/
def leadingNumber (line : Text) : ℕ := digitsVal ((line.dropWhile isBlank).takeWhile isDigit)

/-- The first non-blank character is a digit. -/
def startsWithDigit (line : Text) : Bool := (line.dropWhile isBlank).head?.any isDigit

/-- The lines with a colon in front of the first line that does not start with a digit. -/
def entryLines (ls : List Text) : List Text := (ls.takeWhile startsWithDigit).filter (·.contains ':')

/-- The lines behind the header. -/
def bodyLines (text : Text) : List Text := (lines text).tail.map cstr

/-- What the list should say of a line. -/
def entryOf (line : Text) : ℤ × Option Text := (leadingNumber line, some (lastToken line))

/-- What the list says of an irq. -/
def IrqInfo.entry (info : IrqInfo) : ℤ × Option Text := (info.irq, info.name)

/-- **What discovery should find**: the list is returned, so that no token was NULL and nothing was read behind
`savedline`, and it has one entry for each of the lines. -/
def Discovers (platform : Text → Option (List Text)) (text : Text) (s : State) : Prop :=
  ∃ infos, collectFullIrqList platform (some text) s = some infos ∧
    infos.map IrqInfo.entry = (entryLines (bodyLines text)).map entryOf

/-! ### The lines it can read -/

/-- The path that `check_platform_device` builds of the name fits its buffer, where it builds one. -/
def PathFits (name : Text) : Prop :=
  strstr name "xen-dyn-event".toList = false →
    (∃ m ∈ irqMatches, m.2.2 = true ∧ regexec m.1 name = true) →
      "/sys/devices/platform/".toList.length + name.length + 1 < 512

/-- The line fits the buffer, has two tokens, and its number fits an `int`. -/
structure LineFits (line : Text) : Prop where
  buffer : line.length < 1024
  two : 2 ≤ (tokens line).length
  number : leadingNumber line < 2 ^ 31
  path : PathFits (lastToken line)

/-- The file is a header that looks like an entry, and `getline` keeps it at the end of the file. -/
def HeaderReread (text : Text) (s : State) : Prop :=
  s.opts.getlineKeeps = true ∧ text.getLast? = some '\n' ∧
    ∃ header, lines text = [header] ∧ entryLines [cstr header] ≠ []

variable {platform : Text → Option (List Text)} {policy : HintPolicy} {line text : Text} {ls : List Text} {n : ℤ}
  {name : Text} {info info' : IrqInfo} {s : State}

/-! ### The number -/

theorem isSpace_of_isBlank {c : Char} (h : isBlank c = true) : isSpace c = true ∧ c ≠ ':' := by
  unfold isBlank at h
  simp only [Bool.or_eq_true, decide_eq_true_eq] at h
  rcases h with rfl | rfl <;> decide

theorem of_isDigit {c : Char} (h : isDigit c = true) :
    isSpace c = false ∧ c ≠ ':' ∧ c ≠ '-' ∧ c ≠ '+' := by
  unfold isDigit at h
  simp only [Bool.and_eq_true, decide_eq_true_eq] at h
  refine ⟨?_, ?_, ?_, ?_⟩
  · unfold isSpace
    rw [Bool.or_eq_false_iff, decide_eq_false_iff_not, Bool.and_eq_false_iff, decide_eq_false_iff_not,
      decide_eq_false_iff_not]
    refine ⟨?_, Or.inr (by omega)⟩
    rintro rfl
    revert h
    decide
  all_goals
    rintro rfl
    revert h
    decide

theorem scanSign_cons {c : Char} (h : isDigit c = true) (t : Text) : scanSign (c :: t) = (false, c :: t) := by
  obtain ⟨-, -, hminus, hplus⟩ := of_isDigit h
  unfold scanSign
  split <;> simp_all

/-- The digits that `strtoul` sees, when the line is cut at its colon. -/
theorem scanDigits_cutAtColon (h : startsWithDigit line = true) : ∃ rest,
    scanDigits (cutAtColon line) = (false, (line.dropWhile isBlank).takeWhile isDigit, rest) ∧
      (line.dropWhile isBlank).takeWhile isDigit ≠ [] := by
  obtain ⟨c, r, hr, hc⟩ : ∃ c r, line.dropWhile isBlank = c :: r ∧ isDigit c = true := by
    unfold startsWithDigit at h
    cases hr : line.dropWhile isBlank with
    | nil => rw [hr] at h; cases h
    | cons c r => rw [hr] at h; exact ⟨c, r, rfl, h⟩
  have hblank : ∀ d ∈ line.takeWhile isBlank, isSpace d = true ∧ d ≠ ':' := fun d hd =>
    isSpace_of_isBlank (List.mem_takeWhile_imp hd)
  have hdigit : ∀ d ∈ r.takeWhile isDigit, isDigit d = true := fun d hd => List.mem_takeWhile_imp hd
  -- the line: blanks, digits, and the rest
  have hline : line = line.takeWhile isBlank ++ (c :: r.takeWhile isDigit ++ r.dropWhile isDigit) := by
    rw [List.cons_append, List.takeWhile_append_dropWhile, ← hr, List.takeWhile_append_dropWhile]
  have hcut : cutAtColon line =
      line.takeWhile isBlank ++ (c :: r.takeWhile isDigit ++ (r.dropWhile isDigit).takeWhile (· ≠ ':')) := by
    unfold cutAtColon
    conv_lhs => rw [hline]
    rw [List.takeWhile_append_of_pos (by simpa using fun d hd => (hblank d hd).2), List.takeWhile_append_of_pos]
    intro d hd
    rcases List.mem_cons.1 hd with rfl | hd
    · exact decide_eq_true (of_isDigit hc).2.1
    · exact decide_eq_true (of_isDigit (hdigit d hd)).2.1
  have hend : ((r.dropWhile isDigit).takeWhile (· ≠ ':')).takeWhile isDigit = [] := by
    cases hrest : r.dropWhile isDigit with
    | nil => rfl
    | cons d rest =>
      have hd := List.head?_dropWhile_not isDigit r
      rw [hrest] at hd
      rw [List.takeWhile_cons]
      split_ifs
      · exact List.takeWhile_cons_of_neg (by simpa using hd)
      · rfl
  have hscan : (cutAtColon line).dropWhile isSpace =
      c :: (r.takeWhile isDigit ++ (r.dropWhile isDigit).takeWhile (· ≠ ':')) := by
    rw [hcut, List.dropWhile_append_of_pos fun d hd => (hblank d hd).1, List.cons_append,
      List.dropWhile_cons_of_neg (by simp [(of_isDigit hc).1])]
  refine ⟨((cutAtColon line).dropWhile isSpace).dropWhile isDigit, ?_, ?_⟩
  · unfold scanDigits
    dsimp only
    rw [hscan, scanSign_cons hc, hr, List.takeWhile_cons_of_pos hc, List.takeWhile_cons_of_pos hc,
      List.takeWhile_append_of_pos hdigit, hend, List.append_nil]
  · rw [hr, List.takeWhile_cons_of_pos hc]
    exact List.cons_ne_nil _ _

/-- `strtoul` reads the leading number. -/
theorem strtoul_cutAtColon (h : startsWithDigit line = true) : (strtoul (cutAtColon line)).1 =
    if 2 ^ 64 ≤ leadingNumber line then 2 ^ 64 - 1 else leadingNumber line := by
  obtain ⟨rest, hscan, hne⟩ := scanDigits_cutAtColon h
  unfold strtoul
  rw [hscan]
  obtain ⟨d, ds, hds⟩ := List.exists_cons_of_ne_nil hne
  rw [hds]
  simp only [Bool.false_eq_true, if_false]
  rw [leadingNumber, hds]

/-- The number survives the conversion to an `int` if and only if it fits. -/
theorem toInt_eq_iff (v : ℕ) :
    toInt ((if 2 ^ 64 ≤ v then 2 ^ 64 - 1 else v : ℕ) : ℤ) = (v : ℤ) ↔ v < 2 ^ 31 := by
  unfold toInt
  split_ifs with hv
  · have hbmod : ((2 ^ 64 - 1 : ℕ) : ℤ).bmod (2 ^ 32) = -1 := by decide
    rw [hbmod]
    omega
  · rw [Int.bmod_def]
    split_ifs <;> omega

/-! ### The name -/

theorem irqMod_eq (line : Text) :
    irqMod line = if line.length < 1024 ∧ 2 ≤ (tokens line).length then some (lastToken line) else none := by
  unfold irqMod
  rw [strtok_eq_splitOn]
  change (if 1024 ≤ line.length then none else if (tokens line).length < 2 then none else
    (tokens line).getLast?.map _) = _
  by_cases hlen : 1024 ≤ line.length
  · rw [if_pos hlen, if_neg (by omega)]
  · rw [if_neg hlen]
    by_cases htok : (tokens line).length < 2
    · rw [if_pos htok, if_neg (by omega)]
    · rw [if_neg htok, if_pos (by omega), lastToken, List.getLastD_eq_getLast?]
      cases hlast : (tokens line).getLast? with
      | none => simp [List.getLast?_eq_none_iff.1 hlast] at htok
      | some tok => rfl

/-! ### The hints -/

theorem checkPlatformDevice_irq (h : checkPlatformDevice platform name info = some info') :
    info'.irq = info.irq := by
  unfold checkPlatformDevice at h
  split_ifs at h
  split at h
  · cases h; rfl
  · dsimp only at h
    split at h <;> cases h <;> rfl

theorem checkPlatformDevice_isSome :
    (checkPlatformDevice platform name info).isSome ↔
      "/sys/devices/platform/".toList.length + name.length + 1 < 512 := by
  unfold checkPlatformDevice
  split_ifs with hlen
  · simp only [Option.isSome_none, Bool.false_eq_true, false_iff, not_lt]
    exact hlen
  · rw [not_le] at hlen
    refine iff_of_true ?_ hlen
    split
    · rfl
    · dsimp only
      split <;> rfl

theorem guessArmIrqHints_irq (h : guessArmIrqHints platform name info = some info') : info'.irq = info.irq := by
  refine Loops.foldlM_view IrqInfo.irq (fun m _ u u' hu => ?_) h
  split_ifs at hu
  · have hdevice : checkPlatformDevice platform name { u with type := .legacy, irqClass := m.2.1 } = some u' := hu
    have hirq := checkPlatformDevice_irq hdevice
    exact hirq
  · cases hu; rfl
  · cases hu; rfl

theorem guessArmIrqHints_isSome (platform : Text → Option (List Text)) (name : Text) (info : IrqInfo) :
    (guessArmIrqHints platform name info).isSome ↔
    ((∃ m ∈ irqMatches, m.2.2 = true ∧ regexec m.1 name = true) →
      "/sys/devices/platform/".toList.length + name.length + 1 < 512) := by
  have hstep : ∀ (info : IrqInfo) (m : Regex × IrqClass × Bool),
      (if regexec m.1 name then
        let info := { info with type := .legacy, irqClass := m.2.1 }
        if m.2.2 then checkPlatformDevice platform name info else some info
      else some info).isSome ↔
        (m.2.2 = true ∧ regexec m.1 name = true →
          "/sys/devices/platform/".toList.length + name.length + 1 < 512) := by
    intro info m
    dsimp only
    split_ifs with hmatch hrefine
    · rw [checkPlatformDevice_isSome]
      simp [hmatch, hrefine]
    · simp [hrefine]
    · simp [hmatch]
  unfold guessArmIrqHints
  rw [Loops.foldlM_isSome_iff hstep]
  constructor
  · rintro h ⟨m, hm, hboth⟩
    exact h m hm hboth
  · intro h m hm hboth
    exact h ⟨m, hm, hboth⟩

/-- The hint has the number, and the name if there is one. -/
theorem irqHint_entry (h : irqHint platform policy n line = some info) :
    info.entry = (n, irqMod line) := by
  obtain ⟨name, hname, h⟩ := Option.bind_eq_some_iff.1 h
  obtain ⟨info', hinfo', h⟩ := Option.bind_eq_some_iff.1 h
  have hirq : info'.irq = n := by
    split_ifs at hinfo'
    · cases hinfo'; rfl
    · exact guessArmIrqHints_irq hinfo'
  cases h
  rw [hname]
  exact congrArg (fun i => (i, some name)) hirq

theorem irqHint_irq (h : irqHint platform policy n line = some info) : info.irq = n :=
  congrArg Prod.fst (irqHint_entry h)

theorem irqHint_isSome (platform : Text → Option (List Text)) (policy : HintPolicy) (n : ℤ) (line : Text) :
    (irqHint platform policy n line).isSome ↔
    line.length < 1024 ∧ 2 ≤ (tokens line).length ∧ PathFits (lastToken line) := by
  have hhint : ∀ name, irqMod line = some name →
      ((irqHint platform policy n line).isSome ↔ PathFits name) := by
    intro name hname
    have hguess := guessArmIrqHints_isSome platform name { irq := n }
    unfold irqHint PathFits
    rw [hname, ← hguess, Option.bind_eq_bind, Option.bind_some]
    dsimp only
    generalize guessArmIrqHints platform name { irq := n } = guess
    cases strstr name "xen-dyn-event".toList with
    | true => exact iff_of_true rfl fun h => absurd h (by decide)
    | false => cases guess <;> simp
  have hmod := irqMod_eq line
  rw [← and_assoc]
  split_ifs at hmod with hname
  · rw [and_iff_right hname]
    exact hhint _ hmod
  · refine iff_of_false ?_ fun h => hname h.1
    unfold irqHint
    rw [hmod]
    exact Bool.false_ne_true

/-! ### The loop -/

/-- What the loop makes of a line that starts with a digit. -/
theorem procLine_eq (h : startsWithDigit line = true) : procLine line =
    if line.contains ':' then .irq (toInt (strtoul (cutAtColon line)).1) (line.dropWhile (· ≠ ':')).tail
    else .skip := by
  unfold startsWithDigit at h
  unfold procLine cutAtColon
  cases hr : line.dropWhile isBlank with
  | nil => rw [hr] at h; cases h
  | cons c r =>
    rw [hr] at h
    have hc : isDigit c = true := h
    dsimp only
    rw [if_neg (by simp [hc])]
    cases line.contains ':' <;> rfl

theorem procLine_stop (h : startsWithDigit line = false) : procLine line = .stop := by
  unfold startsWithDigit at h
  unfold procLine
  cases hr : line.dropWhile isBlank with
  | nil => rfl
  | cons c r =>
    rw [hr] at h
    have hc : isDigit c = false := h
    exact if_pos (by simp [hc])

/-- The hint for a line is there and says of it what it should, if and only if the line fits. -/
theorem irqHint_entry_iff (platform : Text → Option (List Text)) (policy : HintPolicy)
    (h : startsWithDigit line = true) :
    (∃ info, irqHint platform policy (toInt (strtoul (cutAtColon line)).1) line = some info ∧
      info.entry = entryOf line) ↔ LineFits line := by
  have hnumber := toInt_eq_iff (leadingNumber line)
  rw [← strtoul_cutAtColon h] at hnumber
  constructor
  · rintro ⟨info, hinfo, hentry⟩
    obtain ⟨hlen, htwo, hpath⟩ := (irqHint_isSome ..).1 (Option.isSome_iff_exists.2 ⟨info, hinfo⟩)
    rw [irqHint_entry hinfo, entryOf, Prod.mk.injEq] at hentry
    exact ⟨hlen, htwo, hnumber.1 hentry.1, hpath⟩
  · rintro ⟨hlen, htwo, hnum, hpath⟩
    obtain ⟨info, hinfo⟩ := Option.isSome_iff_exists.1
      ((irqHint_isSome platform policy (toInt (strtoul (cutAtColon line)).1) line).2 ⟨hlen, htwo, hpath⟩)
    refine ⟨info, hinfo, ?_⟩
    rw [irqHint_entry hinfo, irqMod_eq, if_pos ⟨hlen, htwo⟩, hnumber.2 hnum]
    rfl

theorem entryLines_cons_stop (h : startsWithDigit line = false) (ls : List Text) : entryLines (line :: ls) = [] := by
  rw [entryLines, List.takeWhile_cons_of_neg (by simp [h])]
  rfl

theorem entryLines_cons (h : startsWithDigit line = true) (ls : List Text) : entryLines (line :: ls) =
    if line.contains ':' then line :: entryLines ls else entryLines ls := by
  rw [entryLines, List.takeWhile_cons_of_pos h, List.filter_cons]
  rfl

/-- **The loop makes an entry of every line**, if and only if every line fits. -/
theorem collectLoop_entries_iff (platform : Text → Option (List Text)) (policy : HintPolicy) (ls : List Text) :
    (∃ infos, collectLoop platform policy ls = some infos ∧
      infos.map IrqInfo.entry = (entryLines ls).map entryOf) ↔ ∀ line ∈ entryLines ls, LineFits line := by
  induction ls with
  | nil => exact iff_of_true ⟨[], rfl, rfl⟩ (by simp [entryLines])
  | cons line ls ih =>
    rw [collectLoop]
    cases hdigit : startsWithDigit line with
    | false =>
      rw [procLine_stop hdigit, entryLines_cons_stop hdigit]
      exact iff_of_true ⟨[], rfl, rfl⟩ (by simp)
    | true =>
      rw [procLine_eq hdigit, entryLines_cons hdigit]
      cases hcolon : line.contains ':' with
      | false => exact ih
      | true =>
        rw [if_pos rfl, if_pos rfl, List.forall_mem_cons, ← irqHint_entry_iff platform policy hdigit, ← ih]
        constructor
        · rintro ⟨infos, hinfos, hentries⟩
          obtain ⟨info, hinfo, hrest⟩ := Option.bind_eq_some_iff.1 hinfos
          obtain ⟨infos', hinfos', hcons⟩ := Option.bind_eq_some_iff.1 hrest
          cases hcons
          obtain ⟨hentry, hentries⟩ := List.cons.inj hentries
          exact ⟨⟨info, hinfo, hentry⟩, infos', hinfos', hentries⟩
        · rintro ⟨⟨info, hinfo, hentry⟩, infos, hinfos, hentries⟩
          refine ⟨info :: infos, ?_, ?_⟩
          · dsimp only
            rw [hinfo, hinfos]
            rfl
          · rw [List.map_cons, hentry, hentries, List.map_cons]

/-- There are never more entries than lines, nor fewer. -/
theorem collectLoop_length {infos : List IrqInfo} (h : collectLoop platform policy ls = some infos) :
    infos.length = (entryLines ls).length := by
  induction ls generalizing infos with
  | nil => cases h; rfl
  | cons line ls ih =>
    rw [collectLoop] at h
    cases hdigit : startsWithDigit line with
    | false =>
      rw [procLine_stop hdigit] at h
      rw [entryLines_cons_stop hdigit]
      cases h
      rfl
    | true =>
      rw [procLine_eq hdigit] at h
      rw [entryLines_cons hdigit]
      cases hcolon : line.contains ':' with
      | false =>
        rw [hcolon] at h
        exact ih h
      | true =>
        rw [hcolon] at h
        obtain ⟨info, -, hrest⟩ := Option.bind_eq_some_iff.1 h
        obtain ⟨infos', hinfos', hcons⟩ := Option.bind_eq_some_iff.1 hrest
        cases hcons
        rw [if_pos rfl, List.length_cons, List.length_cons, ih hinfos']

/-! ### The file -/

theorem entryLines_concat {x : Text} (hx : entryLines [x] = []) (ls : List Text) :
    entryLines (ls ++ [x]) = entryLines ls := by
  induction ls with
  | nil => exact hx
  | cons line ls ih =>
    rw [List.cons_append]
    cases hdigit : startsWithDigit line with
    | false => rw [entryLines_cons_stop hdigit, entryLines_cons_stop hdigit]
    | true => rw [entryLines_cons hdigit, entryLines_cons hdigit, ih]

/-- A line that the loop has been through has no colon. -/
theorem entryLines_cutAtColon (line : Text) : entryLines [cutAtColon line] = [] := by
  have hcolon : (cutAtColon line).contains ':' = false := by
    rw [← Bool.not_eq_true, List.contains_iff_mem]
    intro h
    simpa using List.mem_takeWhile_imp h
  cases hdigit : startsWithDigit (cutAtColon line) with
  | false => exact entryLines_cons_stop hdigit []
  | true => rw [entryLines_cons hdigit, hcolon]; rfl

/-- The failed read at the end of the file adds no entry, unless the file is only a header. -/
theorem entryLines_loopBuffers (h : ¬HeaderReread text s) :
    entryLines (loopBuffers s.opts.getlineKeeps cutAtColon text) = entryLines (bodyLines text) := by
  unfold loopBuffers bodyLines
  cases hlines : lines text with
  | nil => rfl
  | cons header ls =>
    dsimp only
    rw [List.tail_cons]
    split_ifs with hend hkeeps
    · refine entryLines_concat ?_ _
      cases hlast : ls.getLast? with
      | some l => exact entryLines_cutAtColon (cstr l)
      | none =>
        rw [List.getLast?_eq_none_iff] at hlast
        subst hlast
        by_contra hne
        exact h ⟨hkeeps, hend, header, hlines, hne⟩
    · exact entryLines_concat rfl _
    · rw [List.append_nil]

/-- A header that is read again is an entry too many. -/
theorem HeaderReread.not_discovers (h : HeaderReread text s) : ¬Discovers platform text s := by
  obtain ⟨hkeeps, hend, header, hlines, hne⟩ := h
  rintro ⟨infos, hinfos, hentries⟩
  have hbuffers : loopBuffers s.opts.getlineKeeps cutAtColon text = [cstr header] := by
    unfold loopBuffers
    rw [hlines]
    dsimp only
    rw [if_pos hend, hkeeps]
    rfl
  have hnone : infos = [] := by
    unfold bodyLines at hentries
    rw [hlines] at hentries
    exact List.map_eq_nil_iff.1 hentries
  unfold collectFullIrqList at hinfos
  dsimp only at hinfos
  rw [hbuffers] at hinfos
  have hlen := collectLoop_length hinfos
  rw [hnone] at hlen
  exact hne (List.length_eq_zero_iff.1 hlen.symm)

/-- **When discovery loses and invents nothing**: if every line with an entry fits, and the file is not a
header that is taken for an entry. -/
theorem discovers_iff (platform : Text → Option (List Text)) (text : Text) (s : State) :
    Discovers platform text s ↔
      ¬HeaderReread text s ∧ ∀ line ∈ entryLines (bodyLines text), LineFits line := by
  constructor
  · intro h
    have hheader : ¬HeaderReread text s := fun hre => hre.not_discovers h
    refine ⟨hheader, ?_⟩
    unfold Discovers at h
    rw [← entryLines_loopBuffers hheader] at h ⊢
    exact (collectLoop_entries_iff ..).1 h
  · rintro ⟨hheader, hlines⟩
    have hentries := (collectLoop_entries_iff platform s.opts.globalHintPolicy _).2
      (entryLines_loopBuffers hheader ▸ hlines)
    rw [entryLines_loopBuffers hheader] at hentries
    exact hentries

/-- The line of the irq 10 on a machine with 100 cpus. -/
def longLine : Text := "10:".toList ++ (List.replicate 100 "          0".toList).flatten ++ "  timer\n".toList

/-- The line does not fit `savedline`. -/
theorem longLine_not_discovered : entryLines (bodyLines ("CPU0\n".toList ++ longLine)) = [longLine] ∧
    ¬Discovers (fun _ => none) ("CPU0\n".toList ++ longLine) (State.initial {} fun _ => 0) := by
  have hnone : collectFullIrqList (fun _ => none) (some ("CPU0\n".toList ++ longLine))
      (State.initial {} fun _ => 0) = none := by
    decide +kernel
  refine ⟨by decide +kernel, ?_⟩
  rintro ⟨infos, hinfos, -⟩
  rw [hnone] at hinfos
  cases hinfos

end IrqBalance

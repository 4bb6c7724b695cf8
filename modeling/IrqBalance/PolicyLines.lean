import IrqBalance.Classify
import IrqBalance.Lib.Settings

/-!
# The policy script, line by line

`parse_user_policy_key` makes at most one setting of a line, and the last setting of each key is in force.
`get_irq_user_policy` fetches the lines with `fgets` and a buffer of 128 bytes, so that a longer line comes in
pieces, and each piece is parsed as a line of its own.
-/

namespace IrqBalance

open CString Settings

variable {s : State} {pol : UserIrqPolicy} {buf text : Text} {env : IrqEnv} {path : Option Text} {irq : ℤ}

/-! ### Settings -/

/-- What a line sets that has the key in front of its `=`. -/
def settingOf {β : Type} (key : String) (parse : Text → Option β) (buf : Text) : Option β :=
  if buf.contains '=' ∧ strcaseeq key.toList (buf.takeWhile (· ≠ '=')) then
    parse ((buf.dropWhile (· ≠ '=')).tail.takeWhile (· ≠ '\n'))
  else none

/-- The value of `ban`. -/
def banVal (value : Text) : Option Bool :=
  if strcaseeq "false".toList value then some false
  else if strcaseeq "true".toList value then some true
  else none

/-- The value of `numa_node`: the number of a node. -/
def numaVal (s : State) (value : Text) : Option ℤ :=
  if getNumaNode s (toInt (strtoul value).1) = none then none else some (toInt (strtoul value).1)

/-- The value of `hintpolicy`. -/
def hintVal (value : Text) : Option HintPolicy :=
  if strcaseeq "exact".toList value then some .exact
  else if strcaseeq "subset".toList value then some .subset
  else if strcaseeq "ignore".toList value then some .ignore
  else none

def banSetting : Text → Option Bool := settingOf "ban" banVal

def levelSetting : Text → Option BalanceLevel := settingOf "balance_level" levelval

def numaSetting (s : State) : Text → Option ℤ := settingOf "numa_node" (numaVal s)

def hintSetting : Text → Option HintPolicy := settingOf "hintpolicy" hintVal

/-- A malformed line, an unknown key or an invalid value. -/
def Ignored (s : State) (buf : Text) : Prop :=
  banSetting buf = none ∧ levelSetting buf = none ∧ numaSetting s buf = none ∧ hintSetting buf = none

instance (s : State) (buf : Text) : Decidable (Ignored s buf) := inferInstanceAs (Decidable (_ ∧ _ ∧ _ ∧ _))

/-- A key is not another one. -/
theorem not_strcaseeq {a b key : Text} (hab : a.map lower ≠ b.map lower) (ha : strcaseeq a key = true) :
    strcaseeq b key = false := by
  unfold strcaseeq at ha ⊢
  rw [decide_eq_true_eq] at ha
  rw [decide_eq_false_iff_not, ← ha]
  exact hab.symm

/-- **What a line sets**, and nothing else. -/
theorem parseUserPolicyKey_eq (s : State) (pol : UserIrqPolicy) (buf : Text) : parseUserPolicyKey s pol buf =
    { ban := (banSetting buf).or pol.ban
      level := (levelSetting buf).or pol.level
      numaNode := (numaSetting s buf).or pol.numaNode
      hintpolicy := (hintSetting buf).getD pol.hintpolicy } := by
  unfold parseUserPolicyKey banSetting levelSetting numaSetting hintSetting settingOf
  dsimp only
  generalize buf.takeWhile (· ≠ '=') = key
  generalize (buf.dropWhile (· ≠ '=')).tail.takeWhile (· ≠ '\n') = value
  cases buf.contains '=' with
  | false => simp
  | true =>
    rw [if_neg (by decide)]
    simp only [true_and]
    by_cases hban : strcaseeq "ban".toList key = true
    · have hlevel := not_strcaseeq (b := "balance_level".toList) (by decide) hban
      have hnuma := not_strcaseeq (b := "numa_node".toList) (by decide) hban
      have hhint := not_strcaseeq (b := "hintpolicy".toList) (by decide) hban
      rw [if_pos hban, if_pos hban, hlevel, hnuma, hhint, banVal]
      simp only [Bool.false_eq_true, if_false]
      split_ifs <;> rfl
    rw [if_neg hban, if_neg hban]
    by_cases hlevel : strcaseeq "balance_level".toList key = true
    · have hnuma := not_strcaseeq (b := "numa_node".toList) (by decide) hlevel
      have hhint := not_strcaseeq (b := "hintpolicy".toList) (by decide) hlevel
      rw [if_pos hlevel, if_pos hlevel, hnuma, hhint]
      cases levelval value <;> rfl
    rw [if_neg hlevel, if_neg hlevel]
    by_cases hnuma : strcaseeq "numa_node".toList key = true
    · have hhint := not_strcaseeq (b := "hintpolicy".toList) (by decide) hnuma
      rw [if_pos hnuma, if_pos hnuma, hhint, numaVal]
      simp only [Bool.false_eq_true, if_false]
      split_ifs <;> rfl
    rw [if_neg hnuma, if_neg hnuma]
    by_cases hhint : strcaseeq "hintpolicy".toList key = true
    · rw [if_pos hhint, if_pos hhint, hintVal]
      split_ifs <;> rfl
    · rw [if_neg hhint, if_neg hhint]
      rfl

/-- An ignored line leaves the policy as it is. -/
theorem parseUserPolicyKey_of_ignored (h : Ignored s buf) (pol : UserIrqPolicy) :
    parseUserPolicyKey s pol buf = pol := by
  obtain ⟨hban, hlevel, hnuma, hhint⟩ := h
  rw [parseUserPolicyKey_eq, hban, hlevel, hnuma, hhint]
  rfl

/-- Of each key the last setting is in force. -/
theorem foldl_parseUserPolicyKey (s : State) (pol : UserIrqPolicy) (bufs : List Text) :
    bufs.foldl (parseUserPolicyKey s) pol =
      { ban := inForce (fun buf => (banSetting buf).map some) pol.ban bufs
        level := inForce (fun buf => (levelSetting buf).map some) pol.level bufs
        numaNode := inForce (fun buf => (numaSetting s buf).map some) pol.numaNode bufs
        hintpolicy := inForce hintSetting pol.hintpolicy bufs } := by
  have hor : ∀ {β : Type} (o o' : Option β), (o.map some).getD o' = o.or o' := by
    intro β o o'
    cases o <;> rfl
  induction bufs using List.reverseRecOn with
  | nil => rfl
  | append_singleton bufs buf ih =>
    rw [List.foldl_append, ih, List.foldl_cons, List.foldl_nil, parseUserPolicyKey_eq]
    simp only [inForce_concat, hor]

/-! ### Lines and pieces -/

/-- The policy of the script's lines. -/
def linesPolicy (s : State) (ls : List Text) : UserIrqPolicy :=
  (ls.map cstr).foldl (parseUserPolicyKey s) { hintpolicy := s.opts.globalHintPolicy }

/-- **What `get_irq_user_policy` should return** for an irq, when the script prints the text: the policy of
its lines, where a line that is ignored leaves every field as the lines in front of it set it. -/
structure ReadsLines (env : IrqEnv) (path : Option Text) (irq : ℤ) (s : State) (text : Text) : Prop where
  fold : getIrqUserPolicy env path irq s = linesPolicy s (lines text)
  ignores : ∀ before line after, lines text = before ++ line :: after → Ignored s (cstr line) →
    linesPolicy s (before ++ [line]) = linesPolicy s before

/-- The setting that a line makes as a whole. -/
def wholeSetting {β : Type} (setting : Text → Option β) (line : Text) : Option β := setting (cstr line)

/-- The last setting that the pieces of the line make. -/
def pieceSetting {β : Type} (setting : Text → Option β) (line : Text) : Option β :=
  lastSet setting ((fgets 127 line).map cstr)

/-- A line over 127 characters that is the last to set the key, as a whole or in pieces, does both ways the
same: it sets the key to one value, or it repeats the value that is in force without it. -/
def ReadAlike {β : Type} (setting : Text → Option β) (d : β) (text : Text) : Prop :=
  ∀ before line after, lines text = before ++ line :: after → 127 < line.length →
    (∀ l ∈ after, pieceSetting setting l = none ∧ wholeSetting setting l = none) →
      SameEffect (pieceSetting setting) (wholeSetting setting) d before line

/-- Every key is read alike in pieces and as a whole. -/
structure PolicyReadable (s : State) (text : Text) : Prop where
  ban : ReadAlike (fun buf => (banSetting buf).map some) none text
  level : ReadAlike (fun buf => (levelSetting buf).map some) none text
  numaNode : ReadAlike (fun buf => (numaSetting s buf).map some) none text
  hintpolicy : ReadAlike hintSetting s.opts.globalHintPolicy text

/-- A line of at most 127 characters comes in one piece. -/
theorem pieceSetting_of_length_le {β : Type} (setting : Text → Option β) {line : Text} (h : line ∈ lines text)
    (hlen : line.length ≤ 127) : pieceSetting setting line = wholeSetting setting line := by
  unfold pieceSetting wholeSetting
  rw [fgets_of_length_le h hlen, List.map_singleton, lastSet_singleton]

/-- **Where a key is read alike.** -/
theorem inForce_fgets_iff {β : Type} (setting : Text → Option β) (d : β) (text : Text) :
    inForce setting d ((fgets 127 text).map cstr) = inForce setting d ((lines text).map cstr) ↔
      ReadAlike setting d text := by
  have hpieces : (fgets 127 text).map cstr = (lines text).flatMap fun line => (fgets 127 line).map cstr := by
    rw [fgets_eq_flatMap, List.map_flatMap]
  have hlines : inForce setting d ((lines text).map cstr) = inForce (wholeSetting setting) d (lines text) :=
    List.foldl_map
  rw [hpieces, inForce_flatMap, hlines]
  exact inForce_eq_iff (fun line => 127 < line.length) fun line hline hshort =>
    pieceSetting_of_length_le setting hline (not_lt.1 hshort)

/-- **When the policy is that of the lines**: when the lines over 127 characters do no harm. -/
theorem readsLines_iff (hscript : s.opts.polscript = true)
    (htext : env.policy (path.getD "/sys".toList) irq = some text) :
    ReadsLines env path irq s text ↔ PolicyReadable s text := by
  have hpolicy : getIrqUserPolicy env path irq s =
      ((fgets 127 text).map cstr).foldl (parseUserPolicyKey s) { hintpolicy := s.opts.globalHintPolicy } := by
    unfold getIrqUserPolicy
    rw [hscript, htext]
    rfl
  have hignores : ∀ before line after, lines text = before ++ line :: after → Ignored s (cstr line) →
      linesPolicy s (before ++ [line]) = linesPolicy s before := by
    intro before line after _ hline
    unfold linesPolicy
    rw [List.map_append, List.foldl_append]
    exact parseUserPolicyKey_of_ignored hline _
  have hfold : getIrqUserPolicy env path irq s = linesPolicy s (lines text) ↔ PolicyReadable s text := by
    rw [hpolicy, linesPolicy, foldl_parseUserPolicyKey, foldl_parseUserPolicyKey, UserIrqPolicy.mk.injEq,
      inForce_fgets_iff, inForce_fgets_iff, inForce_fgets_iff, inForce_fgets_iff]
    exact ⟨fun ⟨h₁, h₂, h₃, h₄⟩ => ⟨h₁, h₂, h₃, h₄⟩, fun ⟨h₁, h₂, h₃, h₄⟩ => ⟨h₁, h₂, h₃, h₄⟩⟩
  rw [← hfold]
  exact ⟨fun h => h.fold, fun h => ⟨h, hignores⟩⟩

/-- Without lines over 127 characters the policy is that of the lines. -/
theorem policyReadable_of_short (h : ∀ line ∈ lines text, line.length ≤ 127) : PolicyReadable s text := by
  have hshort : ∀ {β : Type} (setting : Text → Option β) (d : β), ReadAlike setting d text := by
    intro β setting d before line after hsplit hlong
    have hline := h line (by simp [hsplit])
    omega
  exact ⟨hshort _ _, hshort _ _, hshort _ _, hshort _ _⟩

/-- The state of a run with a policy script. -/
def scriptState : State := State.initial { polscript := true } fun _ => 0

/-- The script prints the text for every irq. -/
def scriptEnv (text : Text) : IrqEnv := { policy := fun _ _ => some text }

/-- The invalid value does not unban the irq. -/
theorem readsLines_two : ReadsLines (scriptEnv "ban=true\nban=maybe\n".toList) none 10 scriptState
    "ban=true\nban=maybe\n".toList :=
  (readsLines_iff rfl rfl).2 (policyReadable_of_short (by decide))

/-- A line with an unknown key. -/
def unknownKeyLine : Text := List.replicate 127 'x' ++ "ban=true\n".toList

/-- Its last characters ban the irq. -/
theorem unknownKeyLine_bans : lines unknownKeyLine = [unknownKeyLine] ∧ Ignored scriptState unknownKeyLine ∧
    (getIrqUserPolicy (scriptEnv unknownKeyLine) none 10 scriptState).ban = some true ∧
    ¬ReadsLines (scriptEnv unknownKeyLine) none 10 scriptState unknownKeyLine := by
  have hlines : lines unknownKeyLine = [unknownKeyLine] := by decide +kernel
  have hban : (getIrqUserPolicy (scriptEnv unknownKeyLine) none 10 scriptState).ban = some true := by
    decide +kernel
  have hnone : (linesPolicy scriptState (lines unknownKeyLine)).ban = none := by decide +kernel
  refine ⟨hlines, by decide +kernel, hban, fun h => ?_⟩
  rw [h.fold, hnone] at hban
  cases hban

end IrqBalance

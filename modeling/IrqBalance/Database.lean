import IrqBalance.Classify
import IrqBalance.Lib.Loops
import IrqBalance.Lib.Register

/-!
# What `rebuild_irq_db` registers

After a rebuild every irq number is in the database, in `banned_irqs`, or unknown (`State.place`). The
rebuild is a first come, first served registration (`Register.register`): the irqs of the PCI devices
come first, in the order of the directories, and every one of them is registered; the irqs of
`/proc/interrupts` follow, except for those with a banned name. `rebuildIrqDb_place` computes the place
of every number from the two lists of events.

`DbInv` is what holds of the records in between.
-/

namespace IrqBalance

open CString (Text)
open Register (register decision)

/-- The lists an irq number can be registered in. -/
inductive Place
  | database
  | banned
deriving DecidableEq

/-- The list an irq number is registered in. -/
def State.place (s : State) (n : ℤ) : Option Place :=
  if s.interruptsDb.any (sameIrq s n) then some .database
  else if s.bannedIrqs.any (sameIrq s n) then some .banned
  else none

/-- All registered records. -/
def State.known (s : State) : List IrqId := s.interruptsDb ++ s.bannedIrqs

/-- The number of an irq record. -/
def State.number (s : State) (i : IrqId) : ℤ := (s.irqs i).irq

/-- A record as the rebuild leaves it: on no list of irqs to place and on no object. -/
structure IrqInfo.IsNew (info : IrqInfo) : Prop where
  assignedObj : info.assignedObj = none
  moved : info.moved = false
  irqCount : info.irqCount = 0
  lastIrqCount : info.lastIrqCount = 0

/-- The database during a rebuild. -/
structure DbInv (s : State) : Prop where
  lt : ∀ i ∈ s.known, i < s.nextIrq
  number_nodup : (s.known.map s.number).Nodup
  isNew : ∀ i ∈ s.known, (s.irqs i).IsNew
  numaNode : ∀ i ∈ s.interruptsDb, s.opts.numaAvail = false →
    (s.irqs i).numaNode = some unspecifiedNode

variable {s s' : State} {n : ℤ} {i j : IrqId}

theorem sameIrq_iff : sameIrq s n i = true ↔ s.number i = n := by simp [sameIrq, State.number]

/-! ### Places -/

theorem place_eq_database : s.place n = some .database ↔ ∃ i ∈ s.interruptsDb, s.number i = n := by
  simp only [State.place, List.any_eq_true, sameIrq_iff]
  split_ifs with h1 h2 <;> simp [h1]

theorem place_eq_none : s.place n = none ↔ ∀ i ∈ s.known, s.number i ≠ n := by
  simp only [State.place, State.known, List.any_eq_true, sameIrq_iff, List.mem_append]
  split_ifs with h1 h2
  · obtain ⟨i, hi, e⟩ := h1
    simp only [false_iff, not_forall]
    exact ⟨i, Or.inl hi, not_not_intro e⟩
  · obtain ⟨i, hi, e⟩ := h2
    simp only [false_iff, not_forall]
    exact ⟨i, Or.inr hi, not_not_intro e⟩
  · simp only [true_iff]
    rintro i (hi | hi) e
    · exact h1 ⟨i, hi, e⟩
    · exact h2 ⟨i, hi, e⟩

theorem place_eq_banned (h : DbInv s) :
    s.place n = some .banned ↔ ∃ i ∈ s.bannedIrqs, s.number i = n := by
  have hdisj : ∀ i ∈ s.interruptsDb, ∀ j ∈ s.bannedIrqs, s.number i ≠ s.number j := by
    intro i hi j hj
    have hnd := h.number_nodup
    rw [State.known, List.map_append] at hnd
    intro e
    exact (List.disjoint_of_nodup_append hnd) (List.mem_map_of_mem hi) (e ▸ List.mem_map_of_mem hj)
  simp only [State.place, List.any_eq_true, sameIrq_iff]
  split_ifs with h1 h2
  · obtain ⟨i, hi, e⟩ := h1
    simp only [Option.some.injEq, reduceCtorEq, false_iff, not_exists, not_and]
    intro j hj ej
    exact hdisj i hi j hj (e.trans ej.symm)
  · exact iff_of_true rfl h2
  · exact iff_of_false (by simp) h2

/-- `get_irq_info` finds the registered numbers. -/
theorem getIrqInfo_isSome : (getIrqInfo s n).isSome = (s.place n).isSome := by
  have hfind : ∀ l : List IrqId, (l.find? (sameIrq s n)).isSome = l.any (sameIrq s n) := by
    intro l; rw [Bool.eq_iff_iff, List.find?_isSome, List.any_eq_true]
  unfold getIrqInfo State.place
  rw [← hfind, ← hfind]
  cases h1 : s.interruptsDb.find? (sameIrq s n) with
  | some i => rfl
  | none => cases h2 : s.bannedIrqs.find? (sameIrq s n) <;> rfl

/-- What `get_irq_info` finds has the number that was asked for. -/
theorem getIrqInfo_eq_some (h : getIrqInfo s n = some i) : i ∈ s.known ∧ s.number i = n := by
  unfold getIrqInfo at h
  cases h1 : s.interruptsDb.find? (sameIrq s n) with
  | some j =>
    rw [h1] at h
    cases h
    exact ⟨List.mem_append_left _ (List.mem_of_find?_eq_some h1), sameIrq_iff.1 (List.find?_some h1)⟩
  | none =>
    rw [h1] at h
    exact ⟨List.mem_append_right _ (List.mem_of_find?_eq_some h), sameIrq_iff.1 (List.find?_some h)⟩

/-! ### Registering and rewriting records -/

/-- The part of the state that a rebuild does not touch. -/
def State.sansIrqs (s : State) : State :=
  { s with irqs := fun _ => {}, nextIrq := 0, interruptsDb := [], bannedIrqs := [] }

section Records

variable {new : IrqInfo} {f : IrqInfo → IrqInfo}

theorem callocIrq_irqs (h : i < s.nextIrq) : (s.callocIrq new).irqs i = s.irqs i :=
  if_neg (Nat.ne_of_lt h)

@[simp] theorem callocIrq_irqs_self : (s.callocIrq new).irqs s.nextIrq = new := if_pos rfl

theorem callocIrq_number (h : i < s.nextIrq) : (s.callocIrq new).number i = s.number i := by
  rw [State.number, callocIrq_irqs h, State.number]

/-- The new record has a number that is not registered yet. -/
theorem nodup_concat_number (h : DbInv s) (hn : s.place new.irq = none) {l : List IrqId}
    (hl : l.Perm (s.known ++ [s.nextIrq])) : (l.map (s.callocIrq new).number).Nodup := by
  have hold : s.known.map (s.callocIrq new).number = s.known.map s.number :=
    List.map_congr_left fun i hi => callocIrq_number (h.lt i hi)
  have hself : (s.callocIrq new).number s.nextIrq = new.irq := by
    rw [State.number, callocIrq_irqs_self]
  rw [(hl.map _).nodup_iff, List.map_append, hold, List.map_singleton, hself]
  refine h.number_nodup.append (List.nodup_singleton _) ?_
  intro m hm hm'
  obtain ⟨i, hi, rfl⟩ := List.mem_map.1 hm
  exact place_eq_none.1 hn i hi (List.mem_singleton.1 hm')

/-- Append a new record to the database. -/
theorem DbInv.add (h : DbInv s) (hn : s.place new.irq = none) (hnew : new.IsNew)
    (hnuma : s.opts.numaAvail = false → new.numaNode = some unspecifiedNode) :
    DbInv { s.callocIrq new with interruptsDb := s.interruptsDb ++ [s.nextIrq] } := by
  have hperm : (s.interruptsDb ++ [s.nextIrq] ++ s.bannedIrqs).Perm (s.known ++ [s.nextIrq]) := by
    rw [State.known, List.append_assoc, List.append_assoc]
    exact List.perm_append_comm.append_left _
  have hmem : ∀ i ∈ s.interruptsDb ++ [s.nextIrq] ++ s.bannedIrqs, i ∈ s.known ∨ i = s.nextIrq := by
    intro i hi
    simpa using hperm.mem_iff.1 hi
  refine ⟨?_, nodup_concat_number h hn hperm, ?_, ?_⟩
  · intro i hi
    rcases hmem i hi with hi | rfl
    · exact Nat.lt_succ_of_lt (h.lt i hi)
    · exact Nat.lt_succ_self _
  · intro i hi
    rcases hmem i hi with hi | rfl
    · exact (callocIrq_irqs (h.lt i hi)).symm ▸ h.isNew i hi
    · exact callocIrq_irqs_self.symm ▸ hnew
  · intro i hi hav
    rcases List.mem_append.1 hi with hi | hi
    · exact (callocIrq_irqs (h.lt i (List.mem_append_left _ hi))).symm ▸ h.numaNode i hi hav
    · rw [List.mem_singleton.1 hi]
      exact callocIrq_irqs_self.symm ▸ hnuma hav

/-- Append a new record to the banned irqs. -/
theorem DbInv.ban (h : DbInv s) (hn : s.place new.irq = none) (hnew : new.IsNew) :
    DbInv { s.callocIrq new with bannedIrqs := s.bannedIrqs ++ [s.nextIrq] } := by
  have hperm : (s.interruptsDb ++ (s.bannedIrqs ++ [s.nextIrq])).Perm (s.known ++ [s.nextIrq]) := by
    rw [State.known, List.append_assoc]
  have hmem : ∀ i ∈ s.interruptsDb ++ (s.bannedIrqs ++ [s.nextIrq]), i ∈ s.known ∨ i = s.nextIrq := by
    intro i hi
    simpa using hperm.mem_iff.1 hi
  refine ⟨?_, nodup_concat_number h hn hperm, ?_, ?_⟩
  · intro i hi
    rcases hmem i hi with hi | rfl
    · exact Nat.lt_succ_of_lt (h.lt i hi)
    · exact Nat.lt_succ_self _
  · intro i hi
    rcases hmem i hi with hi | rfl
    · exact (callocIrq_irqs (h.lt i hi)).symm ▸ h.isNew i hi
    · exact callocIrq_irqs_self.symm ▸ hnew
  · intro i hi hav
    exact (callocIrq_irqs (h.lt i (List.mem_append_left _ hi))).symm ▸ h.numaNode i hi hav

/-- Appending a record to one of the two lists registers its number there. -/
theorem place_callocIrq (h : DbInv s) (hn : s.place new.irq = none) {db banned : List IrqId}
    {v : Place} (hl : v = .database ∧ db = s.interruptsDb ++ [s.nextIrq] ∧ banned = s.bannedIrqs ∨
      v = .banned ∧ db = s.interruptsDb ∧ banned = s.bannedIrqs ++ [s.nextIrq]) :
    ({ s.callocIrq new with interruptsDb := db, bannedIrqs := banned } : State).place =
      Function.update s.place new.irq (some v) := by
  set t : State := { s.callocIrq new with interruptsDb := db, bannedIrqs := banned }
  have hold : ∀ n, ∀ l : List IrqId, (∀ i ∈ l, i ∈ s.known) → l.any (sameIrq t n) = l.any (sameIrq s n) := by
    intro n l hl
    rw [Bool.eq_iff_iff, List.any_eq_true, List.any_eq_true]
    apply exists_congr
    intro i
    apply and_congr_right
    intro hi
    rw [sameIrq_iff, sameIrq_iff]
    exact Eq.congr_left (callocIrq_number (h.lt i (hl i hi)))
  have hself : ∀ n, sameIrq t n s.nextIrq = decide (new.irq = n) := by
    intro n
    have e : t.irqs s.nextIrq = new := callocIrq_irqs_self
    rw [sameIrq, e]
  have hdb : ∀ i ∈ s.interruptsDb, i ∈ s.known := fun i => List.mem_append_left _
  have hbanned : ∀ i ∈ s.bannedIrqs, i ∈ s.known := fun i => List.mem_append_right _
  have hdef : ∀ n, t.place n = if db.any (sameIrq t n) then some .database
      else if banned.any (sameIrq t n) then some .banned else none := fun n => rfl
  have hnone : s.interruptsDb.any (sameIrq s new.irq) = false ∧
      s.bannedIrqs.any (sameIrq s new.irq) = false := by
    rw [place_eq_none] at hn
    constructor <;> simp only [List.any_eq_false, sameIrq_iff]
    · exact fun i hi => hn i (hdb i hi)
    · exact fun i hi => hn i (hbanned i hi)
  funext n
  rw [hdef, Function.update_apply, State.place]
  by_cases hnew : n = new.irq
  · subst hnew
    rcases hl with ⟨rfl, rfl, rfl⟩ | ⟨rfl, rfl, rfl⟩ <;>
      simp [hold _ _ hdb, hold _ _ hbanned, hself, hnone]
  · rcases hl with ⟨rfl, rfl, rfl⟩ | ⟨rfl, rfl, rfl⟩ <;>
      simp [hold _ _ hdb, hold _ _ hbanned, hself, hnew, Ne.symm hnew]

/-- Append a new record to one of the two lists. -/
def State.enter (s : State) (new : IrqInfo) : Place → State
  | .database => { s.callocIrq new with interruptsDb := s.interruptsDb ++ [s.nextIrq] }
  | .banned => { s.callocIrq new with bannedIrqs := s.bannedIrqs ++ [s.nextIrq] }

theorem enter_sansIrqs (s : State) (new : IrqInfo) (v : Place) : (s.enter new v).sansIrqs = s.sansIrqs := by
  cases v <;> rfl

/-- A write to the new record. -/
theorem enter_modIrq (s : State) (new : IrqInfo) (v : Place) (f : IrqInfo → IrqInfo) :
    (s.enter new v).modIrq s.nextIrq f = s.enter (f new) v := by
  have hirqs : (fun j => if j = s.nextIrq then f (if j = s.nextIrq then new else s.irqs j)
      else if j = s.nextIrq then new else s.irqs j) = fun j => if j = s.nextIrq then f new else s.irqs j := by
    funext j
    by_cases hj : j = s.nextIrq <;> simp [hj]
  cases v <;> simp only [State.enter, State.callocIrq, State.modIrq, hirqs]

theorem DbInv.enter (h : DbInv s) (hn : s.place new.irq = none) (hnew : new.IsNew)
    {v : Place} (hnuma : v = .database → s.opts.numaAvail = false → new.numaNode = some unspecifiedNode) :
    DbInv (s.enter new v) := by
  cases v with
  | database => exact h.add hn hnew (hnuma rfl)
  | banned => exact h.ban hn hnew

theorem place_enter (h : DbInv s) (hn : s.place new.irq = none) (v : Place) :
    (s.enter new v).place = Function.update s.place new.irq (some v) := by
  cases v with
  | database => exact place_callocIrq h hn (Or.inl ⟨rfl, rfl, rfl⟩)
  | banned => exact place_callocIrq h hn (Or.inr ⟨rfl, rfl, rfl⟩)

/-- `get_irq_info` finds the new record. -/
theorem getIrqInfo_enter (h : DbInv s) (hn : s.place new.irq = none) (v : Place) :
    getIrqInfo (s.enter new v) new.irq = some s.nextIrq := by
  have hsome : (getIrqInfo (s.enter new v) new.irq).isSome = true := by
    rw [getIrqInfo_isSome, place_enter h hn, Function.update_self]
    rfl
  obtain ⟨i, hi⟩ := Option.isSome_iff_exists.1 hsome
  obtain ⟨hmem, hnumber⟩ := getIrqInfo_eq_some hi
  have hold : i ∈ s.known ∨ i = s.nextIrq := by
    cases v <;> simp [State.known, State.enter] at hmem ⊢ <;> tauto
  rcases hold with hold | rfl
  · have hirq : (s.enter new v).number i = s.number i := by
      cases v <;> exact callocIrq_number (h.lt i hold)
    rw [hirq] at hnumber
    exact absurd hnumber (place_eq_none.1 hn i hold)
  · exact hi

end Records

/-! ### Policies and bans -/

/-- `pol.ban == 1` for the answer of the policy script. -/
def userBan (env : IrqEnv) (s : State) (path : Option Text) (irq : ℤ) : Bool :=
  (getIrqUserPolicy env path irq s).ban = some true

/-- What a line of the policy script makes of `ban`. -/
def banKey (ban : Option Bool) (buf : Text) : Option Bool :=
  let key := buf.takeWhile (· ≠ '=')
  let value := (buf.dropWhile (· ≠ '=')).tail.takeWhile (· ≠ '\n')
  if !buf.contains '=' then ban
  else if CString.strcaseeq "ban".toList key then
    if CString.strcaseeq "false".toList value then some false
    else if CString.strcaseeq "true".toList value then some true
    else ban
  else ban

theorem parseUserPolicyKey_ban (s : State) (pol : UserIrqPolicy) (buf : Text) :
    (parseUserPolicyKey s pol buf).ban = banKey pol.ban buf := by
  unfold parseUserPolicyKey banKey
  dsimp only
  split_ifs
  all_goals first | rfl | (cases levelval _ <;> rfl)

/-- What a line of the policy script makes of `balance_level`. -/
def levelKey (level : Option BalanceLevel) (buf : Text) : Option BalanceLevel :=
  let key := buf.takeWhile (· ≠ '=')
  let value := (buf.dropWhile (· ≠ '=')).tail.takeWhile (· ≠ '\n')
  if !buf.contains '=' then level
  else if CString.strcaseeq "ban".toList key then level
  else if CString.strcaseeq "balance_level".toList key then (levelval value).or level
  else level

theorem parseUserPolicyKey_level (s : State) (pol : UserIrqPolicy) (buf : Text) :
    (parseUserPolicyKey s pol buf).level = levelKey pol.level buf := by
  unfold parseUserPolicyKey levelKey
  dsimp only
  split_ifs
  all_goals first | rfl | (cases levelval _ <;> rfl)

/-- What each line of the policy script sets without looking at the state depends on the options only. -/
theorem getIrqUserPolicy_congr {β : Type} (φ : UserIrqPolicy → β) (g : β → Text → β)
    (hφ : ∀ s pol buf, φ (parseUserPolicyKey s pol buf) = g (φ pol) buf) (env : IrqEnv) (h : s'.opts = s.opts)
    (path : Option Text) (irq : ℤ) :
    φ (getIrqUserPolicy env path irq s') = φ (getIrqUserPolicy env path irq s) := by
  have hfold : ∀ (u : State) (bufs : List Text) (pol : UserIrqPolicy),
      φ (bufs.foldl (parseUserPolicyKey u) pol) = bufs.foldl g (φ pol) := by
    intro u bufs
    induction bufs with
    | nil => intro pol; rfl
    | cons buf bufs ih => intro pol; rw [List.foldl_cons, List.foldl_cons, ih, hφ]
  unfold getIrqUserPolicy
  rw [h]
  dsimp only
  split_ifs
  · rfl
  · cases env.policy (path.getD "/sys".toList) irq with
    | none => rfl
    | some output => dsimp only; rw [hfold, hfold]

/-- The ban of the policy script depends on the options only. -/
theorem userBan_congr (env : IrqEnv) (h : s'.opts = s.opts) (path : Option Text) (irq : ℤ) :
    userBan env s' path irq = userBan env s path irq := by
  unfold userBan
  rw [getIrqUserPolicy_congr UserIrqPolicy.ban banKey parseUserPolicyKey_ban env h]

/-- The `balance_level` of the policy script, if it sets one. -/
def userLevel (env : IrqEnv) (s : State) (path : Option Text) (irq : ℤ) : Option BalanceLevel :=
  (getIrqUserPolicy env path irq s).level

theorem userLevel_congr (env : IrqEnv) (h : s'.opts = s.opts) (path : Option Text) (irq : ℤ) :
    userLevel env s' path irq = userLevel env s path irq :=
  getIrqUserPolicy_congr UserIrqPolicy.level levelKey parseUserPolicyKey_level env h path irq

/-! ### PCI devices -/

/-- An irq of a PCI device, as `build_one_dev_entry` finds it. -/
structure PciIrq where
  dev : PciDev
  type : IrqType
  irq : ℤ

/-- The irqs of a PCI device, in the order in which they are found. -/
def PciDev.irqs (dev : PciDev) : List PciIrq :=
  match dev.msiIrqs with
  | some names =>
    ((names.map fun name => CString.toInt (CString.strtol name)).filter (· ≠ 0)).map (⟨dev, .msix, ·⟩)
  | none =>
    match dev.irqFile with
    | some (some irqnum) => if irqnum = 0 then [] else [⟨dev, .legacy, irqnum⟩]
    | _ => []

/-- Where an irq of a PCI device goes. -/
def pciVerdict (env : IrqEnv) (tmpIrqs : List IrqInfo) (s : State) (e : PciIrq) : Option Place :=
  some (if userBan env s (some e.dev.devpath) e.irq || checkForIrqBan s e.irq tmpIrqs = some true
    then .banned else .database)

theorem pciVerdict_congr (env : IrqEnv) (tmpIrqs : List IrqInfo) (h : s'.opts = s.opts) :
    pciVerdict env tmpIrqs s' = pciVerdict env tmpIrqs s := by
  funext e
  rw [pciVerdict, pciVerdict, userBan_congr env h, checkForIrqBan, checkForIrqBan, h]

/-- What a step of the rebuild does: it keeps the database well formed and registers an event. -/
def Registers {ε : Type} (key : ε → ℤ) (verdict : ε → Option Place) (e : ε) (s s' : State) : Prop :=
  DbInv s' ∧ s'.sansIrqs = s.sansIrqs ∧ s'.place = register key verdict s.place e

section Registers

variable {ε : Type} {key : ε → ℤ} {verdict : ε → Option Place} {kind : ε → IrqClass × BalanceLevel} {e : ε}

/-- What a step of the rebuild does with an event: it enters a record for a number that is new and has a
verdict. In the database the record has the class and the level `kind e`. -/
inductive Enters (key : ε → ℤ) (verdict : ε → Option Place) (kind : ε → IrqClass × BalanceLevel) (e : ε)
    (s : State) : State → Prop
  | known (hn : (s.place (key e)).isSome) : Enters key verdict kind e s s
  | skip (hv : verdict e = none) : Enters key verdict kind e s s
  | enter {new : IrqInfo} {v : Place} (hn : s.place (key e) = none) (hv : verdict e = some v)
      (hirq : new.irq = key e) (hnew : new.IsNew)
      (hnuma : v = .database → s.opts.numaAvail = false → new.numaNode = some unspecifiedNode)
      (hkind : v = .database → (new.irqClass, new.level) = kind e) :
      Enters key verdict kind e s (s.enter new v)

theorem Enters.registers (hs : Enters key verdict kind e s s') (h : DbInv s) :
    Registers key verdict e s s' := by
  cases hs with
  | known hn =>
    rw [Option.isSome_iff_ne_none] at hn
    exact ⟨h, rfl, by simp [register, hn]⟩
  | skip hv =>
    refine ⟨h, rfl, ?_⟩
    funext n
    rw [Register.register_apply, hv, ite_self, Option.or_none]
  | enter hn hv hirq hnew hnuma =>
    rw [← hirq] at hn
    refine ⟨h.enter hn hnew hnuma, enter_sansIrqs _ _ _, ?_⟩
    rw [place_enter h hn, register, ← hirq, hn, hv]
    rfl

end Registers

/-! ### Classes and levels -/

/-- What is registered for a number: the class and the level of its record in the database; `some none` for a
record in `banned_irqs`. -/
def State.kindOf (s : State) (n : ℤ) : Option (Option (IrqClass × BalanceLevel)) :=
  (getIrqInfo s n).map fun i =>
    if i ∈ s.interruptsDb then some ((s.irqs i).irqClass, (s.irqs i).level) else none

theorem kindOf_isSome : (s.kindOf n).isSome = (s.place n).isSome := by
  rw [State.kindOf, Option.isSome_map, getIrqInfo_isSome]

/-- What an event registers. -/
def entry {ε : Type} (verdict : ε → Option Place) (kind : ε → IrqClass × BalanceLevel) (e : ε) :
    Option (Option (IrqClass × BalanceLevel)) :=
  (verdict e).map fun v => if v = .database then some (kind e) else none

theorem getIrqInfo_enter_of_ne {new : IrqInfo} (h : DbInv s) (v : Place) (hne : n ≠ new.irq) :
    getIrqInfo (s.enter new v) n = getIrqInfo s n := by
  have hself : sameIrq (s.enter new v) n s.nextIrq = false := by
    rw [← Bool.not_eq_true, sameIrq_iff]
    cases v <;> simp [State.enter, State.number, hne.symm, State.callocIrq]
  have hold : ∀ l : List IrqId, (∀ i ∈ l, i ∈ s.known) →
      l.find? (sameIrq (s.enter new v) n) = l.find? (sameIrq s n) := by
    intro l hl
    induction l with
    | nil => rfl
    | cons i l ih =>
      have hi : sameIrq (s.enter new v) n i = sameIrq s n i := by
        rw [Bool.eq_iff_iff, sameIrq_iff, sameIrq_iff]
        have hlt := h.lt i (hl i List.mem_cons_self)
        cases v <;> exact Eq.congr_left (callocIrq_number hlt)
      rw [List.find?_cons, List.find?_cons, hi, ih fun j hj => hl j (List.mem_cons_of_mem i hj)]
  have hdb := hold s.interruptsDb fun i => List.mem_append_left _
  have hbanned := hold s.bannedIrqs fun i => List.mem_append_right _
  unfold getIrqInfo
  cases v with
  | database =>
    have e : (s.enter new .database).interruptsDb = s.interruptsDb ++ [s.nextIrq] := rfl
    have e' : (s.enter new .database).bannedIrqs = s.bannedIrqs := rfl
    rw [e, e', List.find?_append, hdb, hbanned, List.find?_singleton, hself]
    simp
  | banned =>
    have e : (s.enter new .banned).interruptsDb = s.interruptsDb := rfl
    have e' : (s.enter new .banned).bannedIrqs = s.bannedIrqs ++ [s.nextIrq] := rfl
    rw [e, e', List.find?_append, hdb, hbanned, List.find?_singleton, hself]
    simp

/-- Entering a record registers its class and its level. -/
theorem kindOf_enter {new : IrqInfo} (h : DbInv s) (hn : s.place new.irq = none) (v : Place) :
    (s.enter new v).kindOf = Function.update s.kindOf new.irq
      (some (if v = .database then some (new.irqClass, new.level) else none)) := by
  have hnew : s.nextIrq ∉ s.interruptsDb := fun hi =>
    Nat.lt_irrefl _ (h.lt s.nextIrq (List.mem_append_left _ hi))
  funext n
  by_cases hne : n = new.irq
  · subst hne
    rw [Function.update_self, State.kindOf, getIrqInfo_enter h hn]
    cases v <;> simp [State.enter, State.callocIrq, hnew]
  · rw [Function.update_of_ne hne, State.kindOf, State.kindOf, getIrqInfo_enter_of_ne h v hne]
    cases hfound : getIrqInfo s n with
    | none => rfl
    | some i =>
      have hi := Nat.ne_of_lt (h.lt i (getIrqInfo_eq_some hfound).1)
      cases v <;> simp [State.enter, State.callocIrq, hi]

theorem Enters.kindOf_eq {ε : Type} {key : ε → ℤ} {verdict : ε → Option Place}
    {kind : ε → IrqClass × BalanceLevel} {e : ε} (hs : Enters key verdict kind e s s') (h : DbInv s) :
    s'.kindOf = register key (entry verdict kind) s.kindOf e := by
  cases hs with
  | known hn =>
    rw [← kindOf_isSome, Option.isSome_iff_ne_none] at hn
    simp [register, hn]
  | skip hv =>
    funext n
    rw [Register.register_apply, entry, hv, Option.map_none, ite_self, Option.or_none]
  | enter hn hv hirq hnew hnuma hkind =>
    rw [← hirq] at hn
    have hnone : (s.kindOf (key e)).isNone = true := by
      rw [← hirq, Option.isNone_iff_eq_none, ← Option.not_isSome_iff_eq_none, kindOf_isSome, hn]
      simp
    rw [kindOf_enter h hn, register, hnone, if_pos rfl, entry, hv, hirq, Option.map_some]
    split_ifs with hdb
    · rw [hkind hdb]
    · rfl

/-! ### New records -/

theorem isBannedIrq_new (hn : s.place n = none) : isBannedIrq s n = false := by
  rw [isBannedIrq, List.any_eq_false]
  intro i hi
  rw [sameIrq_iff]
  exact place_eq_none.1 hn i (List.mem_append_right _ hi)

/-- `add_banned_irq` on a new number. -/
theorem addBannedIrq_new (hn : s.place n = none) :
    addBannedIrq n s = s.enter { irq := n, hintPolicy := .exact } .banned := by
  rw [addBannedIrq, isBannedIrq_new hn]
  rfl

/-- `add_one_irq_to_db` on a new number. -/
theorem addOneIrqToDb_new (env : IrqEnv) (dev : Option PciDev) (pol : UserIrqPolicy) (hn : s.place n = none) :
    ∃ new : IrqInfo, new.irq = n ∧ new.IsNew ∧
      (s.opts.numaAvail = false → new.numaNode = some unspecifiedNode) ∧
      (new.irqClass, new.level) = classAndLevel dev pol ∧
      addOneIrqToDb env dev n pol s = (some s.nextIrq, s.enter new .database) := by
  have hdb : s.interruptsDb.any (sameIrq s n) = false := by
    rw [List.any_eq_false]
    intro i hi
    rw [sameIrq_iff]
    exact place_eq_none.1 hn i (List.mem_append_left _ hi)
  unfold addOneIrqToDb
  rw [hdb, isBannedIrq_new hn]
  exact ⟨_, rfl, ⟨rfl, rfl, rfl, rfl⟩, fun hav => by simp [getNumaNode, hav], rfl, rfl⟩

/-- An irq is new if `get_irq_info` does not find it. -/
theorem place_of_not_known (h : ¬(getIrqInfo s n).isSome) : s.place n = none := by
  rwa [getIrqInfo_isSome, Bool.not_eq_true, Option.isSome_eq_false_iff, Option.isNone_iff_eq_none] at h

/-- The class and the level of an irq of a PCI device. -/
def pciKind (env : IrqEnv) (s : State) (e : PciIrq) : IrqClass × BalanceLevel :=
  classAndLevel (some e.dev) (getIrqUserPolicy env (some e.dev.devpath) e.irq s)

theorem pciKind_congr (env : IrqEnv) (h : s'.opts = s.opts) : pciKind env s' = pciKind env s := by
  funext e
  have hlevel := userLevel_congr env h (some e.dev.devpath) e.irq
  unfold userLevel at hlevel
  unfold pciKind classAndLevel
  rw [hlevel]

/-- One irq of a PCI device. -/
theorem addDevIrq_enters {env : IrqEnv} {tmpIrqs : List IrqInfo} (e : PciIrq)
    (hd : addDevIrq env e.dev e.type tmpIrqs e.irq s = some s') :
    Enters PciIrq.irq (pciVerdict env tmpIrqs s) (pciKind env s) e s s' := by
  unfold addDevIrq at hd
  by_cases hknown : (getIrqInfo s e.irq).isSome
  · rw [if_pos hknown] at hd
    cases hd
    rw [getIrqInfo_isSome] at hknown
    exact .known hknown
  rw [if_neg hknown] at hd
  have hn := place_of_not_known hknown
  -- both kinds of bans
  have hban : pciVerdict env tmpIrqs s e = some .banned →
      Enters PciIrq.irq (pciVerdict env tmpIrqs s) (pciKind env s) e s (addBannedIrq e.irq s) := by
    intro hv
    rw [addBannedIrq_new hn]
    exact .enter hn hv rfl ⟨rfl, rfl, rfl, rfl⟩ (by rintro ⟨⟩) (by rintro ⟨⟩)
  dsimp only at hd
  by_cases huser : (getIrqUserPolicy env (some e.dev.devpath) e.irq s).ban = some true
  · rw [if_pos huser] at hd
    cases hd
    exact hban (by simp [pciVerdict, userBan, huser])
  rw [if_neg huser] at hd
  obtain ⟨banned, hcheck, hd⟩ := Option.bind_eq_some_iff.1 hd
  cases banned with
  | true =>
    cases hd
    exact hban (by simp [pciVerdict, hcheck])
  | false =>
    have hv : pciVerdict env tmpIrqs s e = some .database := by
      simp [pciVerdict, userBan, huser, hcheck]
    obtain ⟨new, hirq, hnew, hnuma, hkind, hadd⟩ := addOneIrqToDb_new env (some e.dev)
      (getIrqUserPolicy env (some e.dev.devpath) e.irq s) hn
    simp only [Bool.false_eq_true, if_false, hadd, Option.some.injEq, enter_modIrq] at hd
    subst hd
    exact .enter hn hv hirq ⟨hnew.1, hnew.2, hnew.3, hnew.4⟩ (fun _ => hnuma) fun _ => hkind

theorem addDevIrq_registers {env : IrqEnv} {tmpIrqs : List IrqInfo} (e : PciIrq) (h : DbInv s)
    (hd : addDevIrq env e.dev e.type tmpIrqs e.irq s = some s') :
    Registers PciIrq.irq (pciVerdict env tmpIrqs s) e s s' :=
  (addDevIrq_enters e hd).registers h

/-- `build_one_dev_entry` handles the irqs of the device one by one. -/
theorem buildOneDevEntry_eq (env : IrqEnv) (tmpIrqs : List IrqInfo) (s : State) (dev : PciDev) :
    buildOneDevEntry env tmpIrqs s dev =
      dev.irqs.foldlM (fun s e => addDevIrq env e.dev e.type tmpIrqs e.irq s) s := by
  unfold buildOneDevEntry PciDev.irqs
  cases dev.msiIrqs with
  | some names =>
    dsimp only
    induction names generalizing s with
    | nil => rfl
    | cons name names ih =>
      rw [List.foldlM_cons, List.map_cons]
      by_cases h0 : CString.toInt (CString.strtol name) = 0
      · simp [h0, ih]
      · simp [h0, ih]
  | none =>
    cases dev.irqFile with
    | none => rfl
    | some file =>
      cases file with
      | none => rfl
      | some irqnum =>
        dsimp only
        split_ifs
        · rfl
        · simp

/-! ### The rest of `/proc/interrupts` -/

/-- Where an irq that is only known from `/proc/interrupts` goes. -/
def hintVerdict (env : IrqEnv) (s : State) (info : IrqInfo) : Option Place :=
  if isBannedIrqName s.opts info.name = some true then none
  else some (if userBan env s none info.irq || decide (info.irq ∈ s.opts.clBannedIrqs)
    then .banned else .database)

theorem hintVerdict_congr (env : IrqEnv) (h : s'.opts = s.opts) :
    hintVerdict env s' = hintVerdict env s := by
  funext info
  rw [hintVerdict, hintVerdict, userBan_congr env h, h]

/-- In the database there is no record of a number that is not registered, so that the check for a
banned module, which looks there for the name of the irq, finds nothing. -/
theorem checkForIrqBan_database (hn : s.place n = none) (emptyDb : Bool) :
    checkForIrqBan s n (if emptyDb then [] else s.interruptsDb.map s.irqs) =
      some (decide (n ∈ s.opts.clBannedIrqs)) := by
  have hfind : (if emptyDb then [] else s.interruptsDb.map s.irqs).find?
      (fun res => decide (res.irq = n)) = none := by
    rw [List.find?_eq_none]
    intro info hinfo
    split_ifs at hinfo
    · cases hinfo
    · obtain ⟨i, hi, rfl⟩ := List.mem_map.1 hinfo
      rw [decide_eq_true_eq]
      exact place_eq_none.1 hn i (List.mem_append_left _ hi)
  unfold checkForIrqBan
  rw [hfind]
  by_cases hcl : n ∈ s.opts.clBannedIrqs <;> simp [hcl]

/-- The class and the level of an irq that is only known from `/proc/interrupts`. -/
def hintKind (info : IrqInfo) : IrqClass × BalanceLevel := (info.irqClass, mapClassToLevel info.irqClass)

/-- One irq of `/proc/interrupts`. -/
theorem addMissingIrq_enters {env : IrqEnv} {emptyDb : Bool} {info : IrqInfo} (h : DbInv s)
    (hd : addMissingIrq env emptyDb s info = some s') :
    Enters IrqInfo.irq (hintVerdict env s) hintKind info s s' := by
  unfold addMissingIrq addNewIrq at hd
  by_cases hknown : (getIrqInfo s info.irq).isSome
  · rw [if_pos hknown] at hd
    cases hd
    rw [getIrqInfo_isSome] at hknown
    exact .known hknown
  rw [if_neg hknown, if_neg hknown] at hd
  have hn := place_of_not_known hknown
  obtain ⟨nameBan, hname, hd⟩ := Option.bind_eq_some_iff.1 hd
  cases nameBan with
  | true =>
    cases hd
    exact .skip (by simp [hintVerdict, hname])
  | false =>
    rw [if_neg Bool.false_ne_true] at hd
    obtain ⟨banned, hban, hd⟩ := Option.bind_eq_some_iff.1 hd
    rw [checkForIrqBan_database hn emptyDb] at hban
    have hverdict : hintVerdict env s info = some (if banned then .banned else .database) := by
      rw [hintVerdict, hname, if_neg (by simp)]
      by_cases huser : (getIrqUserPolicy env none info.irq s).ban = some true
      · rw [if_pos huser] at hban
        cases hban
        simp [userBan, huser]
      · rw [if_neg huser] at hban
        cases hban
        simp [userBan, huser]
    -- in either list the new record gets the type and the class of the hint, and their level
    cases banned with
    | true =>
      let new : IrqInfo := { irq := info.irq, hintPolicy := .exact }
      have hnew : s.place new.irq = none := hn
      have hfound : getIrqInfo (s.enter new .banned) info.irq = some s.nextIrq := getIrqInfo_enter h hnew .banned
      simp only [if_true, addBannedIrq_new hn] at hd
      rw [hfound] at hd
      simp only [Option.some.injEq, enter_modIrq] at hd
      subst hd
      exact .enter hn hverdict rfl ⟨rfl, rfl, rfl, rfl⟩ (by rintro ⟨⟩) (by rintro ⟨⟩)
    | false =>
      obtain ⟨new, hirq, hnew, hnuma, -, hadd⟩ := addOneIrqToDb_new env none
        (getIrqUserPolicy env none info.irq s) hn
      simp only [Bool.false_eq_true, if_false, hadd, Option.some.injEq, enter_modIrq] at hd
      subst hd
      exact .enter hn hverdict hirq ⟨hnew.1, hnew.2, hnew.3, hnew.4⟩ (fun _ => hnuma) fun _ => rfl

theorem addMissingIrq_registers {env : IrqEnv} {emptyDb : Bool} {info : IrqInfo} (h : DbInv s)
    (hd : addMissingIrq env emptyDb s info = some s') :
    Registers IrqInfo.irq (hintVerdict env s) info s s' :=
  (addMissingIrq_enters h hd).registers h

/-! ### The whole rebuild -/

/-- The irqs of all PCI devices. -/
def pciIrqs (devs : List PciDev) : List PciIrq := devs.flatMap PciDev.irqs

/-- The devices are handled irq by irq. -/
theorem foldlM_pciIrqs (env : IrqEnv) (tmpIrqs : List IrqInfo) (devs : List PciDev) (s : State) :
    (pciIrqs devs).foldlM (fun s e => addDevIrq env e.dev e.type tmpIrqs e.irq s) s =
      devs.foldlM (buildOneDevEntry env tmpIrqs) s := by
  induction devs generalizing s with
  | nil => rfl
  | cons dev devs ih =>
    rw [pciIrqs, List.flatMap_cons, List.foldlM_append, List.foldlM_cons, buildOneDevEntry_eq]
    exact congrArg _ (funext ih)

/-- Any sequence of steps that handle events. -/
theorem foldlM_enters {ε : Type} (key : ε → ℤ) (verdict : ε → Option Place)
    (kind : ε → IrqClass × BalanceLevel) {f : State → ε → Option State} {es : List ε} (h : DbInv s)
    (hf : ∀ e ∈ es, ∀ u u', DbInv u → u.opts = s.opts → f u e = some u' →
      Enters key verdict kind e u u') (hs : es.foldlM f s = some s') :
    DbInv s' ∧ s'.sansIrqs = s.sansIrqs ∧ s'.place = es.foldl (register key verdict) s.place ∧
      s'.kindOf = es.foldl (register key (entry verdict kind)) s.kindOf := by
  have hstep : ∀ e ∈ es, ∀ u u', DbInv u ∧ u.sansIrqs = s.sansIrqs → f u e = some u' →
      (DbInv u' ∧ u'.sansIrqs = s.sansIrqs) ∧ u'.place = register key verdict u.place e ∧
        u'.kindOf = register key (entry verdict kind) u.kindOf e := by
    intro e he u u' hu hfu
    have hopts : u.opts = s.opts := show u.sansIrqs.opts = s.sansIrqs.opts by rw [hu.2]
    have henters := hf e he u u' hu.1 hopts hfu
    obtain ⟨hinv, hsame, hplace⟩ := henters.registers hu.1
    exact ⟨⟨hinv, hsame.trans hu.2⟩, hplace, henters.kindOf_eq hu.1⟩
  obtain ⟨⟨hinv, hsame⟩, hplace⟩ := Loops.foldlM_sim (fun u => DbInv u ∧ u.sansIrqs = s.sansIrqs) State.place
    (register key verdict) (fun e he u u' hu hfu => ⟨(hstep e he u u' hu hfu).1, (hstep e he u u' hu hfu).2.1⟩)
    ⟨h, rfl⟩ hs
  obtain ⟨-, hkind⟩ := Loops.foldlM_sim (fun u => DbInv u ∧ u.sansIrqs = s.sansIrqs) State.kindOf
    (register key (entry verdict kind))
    (fun e he u u' hu hfu => ⟨(hstep e he u u' hu hfu).1, (hstep e he u u' hu hfu).2.2⟩) ⟨h, rfl⟩ hs
  exact ⟨hinv, hsame, hplace, hkind⟩

theorem dbInv_freeIrqDb (s : State) : DbInv (freeIrqDb s) := by
  constructor <;> simp [State.known, freeIrqDb]

theorem place_freeIrqDb (s : State) : (freeIrqDb s).place = fun _ => none := by
  funext n
  simp [State.place, freeIrqDb]

theorem kindOf_freeIrqDb (s : State) : (freeIrqDb s).kindOf = fun _ => none := by
  funext n
  simp [State.kindOf, getIrqInfo, freeIrqDb]

/-- Where a rebuild registers a number. -/
def rebuildPlace (env : IrqEnv) (s : State) (tmpIrqs : List IrqInfo) (pciDir : Option (List PciDev))
    (n : ℤ) : Option Place :=
  match pciDir with
  | none => none
  | some devs =>
    (decision PciIrq.irq (pciVerdict env tmpIrqs s) (pciIrqs devs) n).or
      (decision IrqInfo.irq (hintVerdict env s) tmpIrqs n)

/-- What a rebuild registers for a number. -/
def rebuildKind (env : IrqEnv) (s : State) (tmpIrqs : List IrqInfo) (pciDir : Option (List PciDev))
    (n : ℤ) : Option (Option (IrqClass × BalanceLevel)) :=
  match pciDir with
  | none => none
  | some devs =>
    (decision PciIrq.irq (entry (pciVerdict env tmpIrqs s) (pciKind env s)) (pciIrqs devs) n).or
      (decision IrqInfo.irq (entry (hintVerdict env s) hintKind) tmpIrqs n)

/-- **The places, classes and levels of all irqs after a rebuild.** -/
theorem rebuildIrqDb_registers {env : IrqEnv} {platform : Text → Option (List Text)}
    {procInterrupts : Option Text} {pciDir : Option (List PciDev)}
    (h : rebuildIrqDb env platform procInterrupts pciDir s = some s') :
    ∃ tmpIrqs, collectFullIrqList platform procInterrupts s = some tmpIrqs ∧ DbInv s' ∧
      s'.sansIrqs = (freeIrqDb s).sansIrqs ∧ s'.place = rebuildPlace env s tmpIrqs pciDir ∧
      s'.kindOf = rebuildKind env s tmpIrqs pciDir := by
  unfold rebuildIrqDb at h
  obtain ⟨tmpIrqs, htmp, h⟩ := Option.bind_eq_some_iff.1 h
  refine ⟨tmpIrqs, htmp, ?_⟩
  cases pciDir with
  | none =>
    cases h
    exact ⟨dbInv_freeIrqDb s, rfl, place_freeIrqDb s, kindOf_freeIrqDb s⟩
  | some devs =>
    obtain ⟨u, hu, h⟩ := Option.bind_eq_some_iff.1 h
    have hu' : (pciIrqs devs).foldlM
        (fun s e => addDevIrq env e.dev e.type tmpIrqs e.irq s) (freeIrqDb s) = some u := by
      rw [foldlM_pciIrqs]
      exact hu
    obtain ⟨hinv, hsame, hplace, hkind⟩ := foldlM_enters PciIrq.irq (pciVerdict env tmpIrqs s) (pciKind env s)
      (dbInv_freeIrqDb s) (fun e _ v v' _ hopts hf => by
        have hopts' : v.opts = s.opts := hopts
        rw [← pciVerdict_congr env tmpIrqs hopts', ← pciKind_congr env hopts']
        exact addDevIrq_enters e hf) hu'
    have hopts : u.opts = s.opts := show u.sansIrqs.opts = (freeIrqDb s).sansIrqs.opts by rw [hsame]
    obtain ⟨hinv', hsame', hplace', hkind'⟩ := foldlM_enters IrqInfo.irq (hintVerdict env s) hintKind hinv
      (fun e _ v v' hv hopts' hf => by
        rw [← hintVerdict_congr env (hopts'.trans hopts)]
        exact addMissingIrq_enters hv hf) h
    refine ⟨hinv', hsame'.trans hsame, ?_, ?_⟩
    · funext n
      rw [hplace', Register.foldl_register, hplace, Register.foldl_register, place_freeIrqDb]
      rfl
    · funext n
      rw [hkind', Register.foldl_register, hkind, Register.foldl_register, kindOf_freeIrqDb]
      rfl

/-- **The places of all irqs after a rebuild.** -/
theorem rebuildIrqDb_place {env : IrqEnv} {platform : Text → Option (List Text)}
    {procInterrupts : Option Text} {pciDir : Option (List PciDev)}
    (h : rebuildIrqDb env platform procInterrupts pciDir s = some s') :
    ∃ tmpIrqs, collectFullIrqList platform procInterrupts s = some tmpIrqs ∧ DbInv s' ∧
      s'.sansIrqs = (freeIrqDb s).sansIrqs ∧ s'.place = rebuildPlace env s tmpIrqs pciDir := by
  obtain ⟨tmpIrqs, htmp, hinv, hsame, hplace, -⟩ := rebuildIrqDb_registers h
  exact ⟨tmpIrqs, htmp, hinv, hsame, hplace⟩

end IrqBalance

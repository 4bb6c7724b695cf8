import IrqBalance.Bans
import IrqBalance.UniqueNumbers

/-!
# The balance level of the policy script

`add_one_irq_to_db` gives a new record the `balance_level` of the policy script, if there is one, and else
the level of its class. It skips both for a PCI device whose class it does not know, and `add_new_irq`
replaces the level afterwards by that of the class. `userLevel_iff` says which irqs end with the level
that the user has set.
-/

namespace IrqBalance

open CString (Text)
open Register (decision)

variable {env : IrqEnv} {s s' : State} {tmpIrqs : List IrqInfo} {devs : List PciDev} {n : ℤ} {i : IrqId}

/-- The `balance_level` that the policy script sets for an irq, on the device where it is found first. -/
def userLevelOf (env : IrqEnv) (s : State) (devs : List PciDev) (n : ℤ) : Option BalanceLevel :=
  userLevel env s ((firstPci devs n).map fun e => e.dev.devpath) n

/-- The record has the level that the user has set, or else the level of its class. -/
def LevelRight (env : IrqEnv) (s : State) (devs : List PciDev) (info : IrqInfo) : Prop :=
  info.level = (userLevelOf env s devs info.irq).getD (mapClassToLevel info.irqClass)

/-- The first hint for a number that has no banned name. -/
def firstHint (s : State) (tmpIrqs : List IrqInfo) (n : ℤ) : Option IrqInfo :=
  tmpIrqs.find? fun info => info.irq = n ∧ isBannedIrqName s.opts info.name ≠ some true

/-- The device has a known class, or the user has set the level that is left when it has none; and the user
has set no other level than that of the class for an irq that no device has. -/
def LevelKept (env : IrqEnv) (s : State) (tmpIrqs : List IrqInfo) (devs : List PciDev) (n : ℤ) : Prop :=
  match firstPci devs n with
  | some e => getIrqClass e.dev ≠ none ∨ userLevel env s (some e.dev.devpath) n = some .none
  | none => ∀ info, firstHint s tmpIrqs n = some info →
      userLevel env s none n = none ∨ userLevel env s none n = some (mapClassToLevel info.irqClass)

/-- The first PCI device that has the irq decides. -/
theorem decision_pciEntry :
    decision PciIrq.irq (entry (pciVerdict env tmpIrqs s) (pciKind env s)) (pciIrqs devs) n =
      (firstPci devs n).bind (entry (pciVerdict env tmpIrqs s) (pciKind env s)) :=
  Register.decision_eq_find? fun _ _ => rfl

/-- The first hint for the irq that has no banned name decides. -/
theorem decision_hintEntry : decision IrqInfo.irq (entry (hintVerdict env s) hintKind) tmpIrqs n =
    (firstHint s tmpIrqs n).bind (entry (hintVerdict env s) hintKind) := by
  rw [Register.decision_eq_find?_isSome, firstHint]
  congr 2
  funext info
  rw [entry, Option.isSome_map, hintVerdict]
  split_ifs with hname <;> simp [hname]

/-- What is registered for a record of the database. -/
theorem kindOf_of_mem (h : DbInv s) (hi : i ∈ s.interruptsDb) :
    s.kindOf (s.number i) = some (some ((s.irqs i).irqClass, (s.irqs i).level)) := by
  have hfound := (UniqueNumbers.of_nodup h.number_nodup).found i (List.mem_append_left _ hi)
  rw [State.kindOf, hfound, Option.map_some, if_pos hi]

/-- An entry of the database. -/
theorem entry_eq_some {ε : Type} {verdict : ε → Option Place} {kind : ε → IrqClass × BalanceLevel} {e : ε}
    {k : IrqClass × BalanceLevel} (h : entry verdict kind e = some (some k)) : kind e = k := by
  obtain ⟨v, -, hv⟩ := Option.map_eq_some_iff.1 h
  split_ifs at hv
  exact Option.some.inj hv

/-- **A record of the database has the level that the user has set if and only if the level is kept.** -/
theorem userLevel_iff {platform : Text → Option (List Text)} {procInterrupts : Option Text}
    {pciDir : Option (List PciDev)} (h : rebuildIrqDb env platform procInterrupts pciDir s = some s')
    (htmp : collectFullIrqList platform procInterrupts s = some tmpIrqs) (hi : i ∈ s'.interruptsDb) :
    LevelRight env s (pciDir.getD []) (s'.irqs i) ↔
      LevelKept env s tmpIrqs (pciDir.getD []) (s'.irqs i).irq := by
  obtain ⟨tmpIrqs', htmp', hinv, -, -, hkind⟩ := rebuildIrqDb_registers h
  rw [htmp, Option.some.injEq] at htmp'
  subst htmp'
  have hentry := kindOf_of_mem hinv hi
  have hnumber : s'.number i = (s'.irqs i).irq := rfl
  generalize s'.irqs i = info at *
  rw [hkind, hnumber] at hentry
  unfold LevelRight userLevelOf LevelKept
  cases pciDir with
  | none => cases hentry
  | some devs =>
    rw [rebuildKind, decision_pciEntry, decision_hintEntry] at hentry
    rw [Option.getD_some]
    cases hfirst : firstPci devs info.irq with
    | some e =>
      have hirq : e.irq = info.irq := by simpa using List.find?_some hfirst
      obtain ⟨r, hr⟩ : ∃ r, entry (pciVerdict env tmpIrqs s) (pciKind env s) e = some r := ⟨_, rfl⟩
      rw [hfirst, Option.bind_some, hr, Option.some_or, ← hr] at hentry
      have hk : pciKind env s e = (info.irqClass, info.level) := entry_eq_some hentry
      rw [pciKind, hirq] at hk
      simp only [Option.map_some]
      unfold userLevel
      cases hclass : getIrqClass e.dev with
      | none =>
        rw [classAndLevel, hclass] at hk
        obtain ⟨hk, hl⟩ := Prod.mk.inj hk
        rw [← hk, ← hl]
        cases (getIrqUserPolicy env (some e.dev.devpath) info.irq s).level <;> simp [mapClassToLevel, eq_comm]
      | some cls =>
        rw [classAndLevel, hclass] at hk
        obtain ⟨hk, hl⟩ := Prod.mk.inj hk
        rw [← hk, ← hl]
        simp
    | none =>
      rw [hfirst, Option.bind_none, Option.none_or] at hentry
      obtain ⟨hint, hhint, hentry⟩ := Option.bind_eq_some_iff.1 hentry
      have hk : hintKind hint = (info.irqClass, info.level) := entry_eq_some hentry
      obtain ⟨hk, hl⟩ := Prod.mk.inj hk
      simp only [Option.map_none, hhint, Option.some.injEq, forall_eq']
      rw [← hk, ← hl]
      cases userLevel env s none info.irq <;> simp [eq_comm]

theorem userLevel_iff_initial : ∃ s' tmpIrqs i,
    rebuildIrqDb {} (fun _ => none) twoCpusEnv.procInterrupts (some []) (State.initial {} fun _ => 0) = some s' ∧
      i ∈ s'.interruptsDb ∧ (LevelRight {} (State.initial {} fun _ => 0) [] (s'.irqs i) ↔
        LevelKept {} (State.initial {} fun _ => 0) tmpIrqs [] (s'.irqs i).irq) := by
  have hrebuild : (rebuildIrqDb {} (fun _ => none) twoCpusEnv.procInterrupts (some [])
      (State.initial {} fun _ => 0)).map State.interruptsDb = some [0] := by
    decide +kernel
  have hcollect : (collectFullIrqList (fun _ => none) twoCpusEnv.procInterrupts
      (State.initial {} fun _ => 0)).isSome = true := by
    decide +kernel
  obtain ⟨s', h, hdb⟩ := Option.map_eq_some_iff.1 hrebuild
  obtain ⟨tmpIrqs, htmp⟩ := Option.isSome_iff_exists.1 hcollect
  have hi : 0 ∈ s'.interruptsDb := hdb ▸ List.mem_singleton_self 0
  exact ⟨s', tmpIrqs, 0, h, hi, userLevel_iff h htmp hi⟩

/-- A policy script that sets the level to `none` for every irq. -/
def noneLevelEnv : IrqEnv where
  policy := fun _ _ => some "balance_level=none\n".toList

/-- The level of an irq that no PCI device has is replaced by that of its class. -/
theorem userLevel_replaced : ¬ ∀ (env : IrqEnv) (platform : Text → Option (List Text)) (procInterrupts : Option Text)
    (pciDir : Option (List PciDev)) (s s' : State), rebuildIrqDb env platform procInterrupts pciDir s = some s' →
      ∀ i ∈ s'.interruptsDb, LevelRight env s (pciDir.getD []) (s'.irqs i) := by
  intro h
  have hrebuild : (rebuildIrqDb noneLevelEnv (fun _ => none) twoCpusEnv.procInterrupts (some [])
      (State.initial { polscript := true } fun _ => 0)).map
        (fun s => s.interruptsDb.map fun i => ((s.irqs i).irq, (s.irqs i).level)) = some [(10, .core)] := by
    decide +kernel
  have huser : userLevelOf noneLevelEnv (State.initial { polscript := true } fun _ => 0) [] 10 = some .none := by
    decide +kernel
  obtain ⟨s', hs', hdb⟩ := Option.map_eq_some_iff.1 hrebuild
  obtain ⟨i, hi, hinfo⟩ := List.mem_map.1 (hdb ▸ List.mem_singleton_self _)
  obtain ⟨hirq, hlevel⟩ := Prod.mk.inj hinfo
  have hright := h _ _ _ _ _ _ hs' i hi
  rw [LevelRight, hirq, hlevel, Option.getD_some, huser] at hright
  cases hright

end IrqBalance

import IrqBalance.MainLoop
import IrqBalance.Lib.Fields

/-!
# Bans by name

`--banmod` and `--banirqname` keep an irq out of the database only if its name is looked at. On its way
through a PCI device an irq is checked for banned modules, with the name of the first line that has its
number, and not for banned irq names. On its way through `/proc/interrupts` it is checked for banned irq
names, and the check for banned modules finds no name. `rebuildPlace_ne_database_iff` says which irqs
stay out of the database, and both options do what they promise exactly for these.
-/

namespace IrqBalance

open CString (Text strtok strtokFrom)
open Register (decision)

variable {env : IrqEnv} {s s' : State} {tmpIrqs : List IrqInfo} {devs : List PciDev} {n : ℤ}
variable {info : IrqInfo}

/-- One of the texts occurs in the name. -/
def NameHas (bans : List Text) (name : Option Text) : Prop :=
  ∃ t, name = some t ∧ ∃ b ∈ bans, b <:+: t

theorem findSubstr_eq_true {bans : List Text} {name : Option Text} :
    findSubstr bans name = some true ↔ NameHas bans name := by
  cases name with
  | none =>
    simp only [findSubstr, NameHas, reduceCtorEq, false_and, exists_false, iff_false]
    split_ifs <;> simp
  | some t => simp [findSubstr, NameHas, CString.strstr_iff]

/-! ### Where the irqs go -/

/-- The first PCI device irq with a number. -/
def firstPci (devs : List PciDev) (n : ℤ) : Option PciIrq :=
  (pciIrqs devs).find? fun e => e.irq = n

/-- Where an irq of `/proc/interrupts` goes that has no banned name. -/
def hintPlace (env : IrqEnv) (s : State) (n : ℤ) : Place :=
  if userBan env s none n || decide (n ∈ s.opts.clBannedIrqs) then .banned else .database

/-- The first PCI device that has the irq decides. -/
theorem decision_pci : decision PciIrq.irq (pciVerdict env tmpIrqs s) (pciIrqs devs) n =
    (firstPci devs n).bind (pciVerdict env tmpIrqs s) :=
  Register.decision_eq_find? fun _ _ => rfl

theorem hintVerdict_eq_none_iff :
    hintVerdict env s info = none ↔ NameHas s.opts.bannedIrqNames info.name := by
  rw [hintVerdict, isBannedIrqName, ← findSubstr_eq_true]
  split_ifs with h <;> simp [h]

theorem hintVerdict_eq_some (h : ¬NameHas s.opts.bannedIrqNames info.name) :
    hintVerdict env s info = some (hintPlace env s info.irq) := by
  rw [← findSubstr_eq_true] at h
  rw [hintVerdict, isBannedIrqName, if_neg h, hintPlace]

theorem decision_hint_eq_none_iff :
    decision IrqInfo.irq (hintVerdict env s) tmpIrqs n = none ↔
      ∀ info ∈ tmpIrqs, info.irq = n → NameHas s.opts.bannedIrqNames info.name := by
  simp only [Register.decision_eq_none_iff, hintVerdict_eq_none_iff]

theorem decision_hint_eq_some (hinfo : info ∈ tmpIrqs)
    (hname : ¬NameHas s.opts.bannedIrqNames info.name) :
    decision IrqInfo.irq (hintVerdict env s) tmpIrqs info.irq =
      some (hintPlace env s info.irq) := by
  refine Register.decision_eq_some (fun e _ he => ?_)
    ⟨info, hinfo, rfl, fun hnone => hname (hintVerdict_eq_none_iff.1 hnone)⟩
  by_cases hban : NameHas s.opts.bannedIrqNames e.name
  · exact Or.inl (hintVerdict_eq_none_iff.2 hban)
  · rw [← he]
    exact Or.inr (hintVerdict_eq_some hban)

/-- The irq is an irq of a PCI device, or a line of `/proc/interrupts` has it without a banned name. -/
def Registrable (s : State) (tmpIrqs : List IrqInfo) (devs : List PciDev) (n : ℤ) : Prop :=
  (∃ e ∈ pciIrqs devs, e.irq = n) ∨
    ∃ info ∈ tmpIrqs, info.irq = n ∧ ¬NameHas s.opts.bannedIrqNames info.name

/-- **The registrable irqs are registered, and no others.** -/
theorem rebuildPlace_ne_none_iff :
    rebuildPlace env s tmpIrqs (some devs) n ≠ none ↔ Registrable s tmpIrqs devs n := by
  have hpci : firstPci devs n = none ↔ ¬∃ e ∈ pciIrqs devs, e.irq = n := by
    simp [firstPci, List.find?_eq_none]
  rw [rebuildPlace, decision_pci, Registrable]
  cases hfirst : firstPci devs n with
  | some e =>
    have hex : ∃ e ∈ pciIrqs devs, e.irq = n := by
      by_contra hnot
      rw [hpci.2 hnot] at hfirst
      cases hfirst
    exact iff_of_true (by simp [pciVerdict]) (Or.inl hex)
  | none =>
    simp only [Option.bind_none, Option.none_or, hpci.1 hfirst, false_or]
    rw [Ne, decision_hint_eq_none_iff]
    simp

/-- What keeps an irq out of the database when the PCI directory is there: a ban on the command line, and
on either way a ban by policy and one of the two bans by name. -/
def KeptOut (env : IrqEnv) (s : State) (tmpIrqs : List IrqInfo) (devs : List PciDev) (n : ℤ) : Prop :=
  n ∈ s.opts.clBannedIrqs ∨
    match firstPci devs n with
    | some e => userBan env s (some e.dev.devpath) n = true ∨
        ∃ info, (tmpIrqs.find? fun res => res.irq = n) = some info ∧
          NameHas s.opts.clBannedModules info.name
    | none => userBan env s none n = true ∨
        ∀ info ∈ tmpIrqs, info.irq = n → NameHas s.opts.bannedIrqNames info.name

theorem checkForIrqBan_eq_true : checkForIrqBan s n tmpIrqs = some true ↔
    n ∈ s.opts.clBannedIrqs ∨ ∃ info, (tmpIrqs.find? fun res => res.irq = n) = some info ∧
      NameHas s.opts.clBannedModules info.name := by
  unfold checkForIrqBan checkForModuleBan
  by_cases hcl : n ∈ s.opts.clBannedIrqs
  · simp [hcl]
  · rw [if_neg hcl]
    cases tmpIrqs.find? fun res => decide (res.irq = n) with
    | none => simp [hcl]
    | some info => simp [hcl, findSubstr_eq_true]

/-- **The irqs that are kept out of the database.** -/
theorem rebuildPlace_ne_database_iff :
    rebuildPlace env s tmpIrqs (some devs) n ≠ some .database ↔ KeptOut env s tmpIrqs devs n := by
  rw [rebuildPlace, decision_pci, KeptOut]
  cases hfirst : firstPci devs n with
  | some e =>
    have he : e.irq = n := by simpa using List.find?_some hfirst
    simp only [Option.bind_some, pciVerdict, Option.some_or, he]
    have hban : (userBan env s (some e.dev.devpath) n ||
        decide (checkForIrqBan s n tmpIrqs = some true)) = true ↔
          n ∈ s.opts.clBannedIrqs ∨ userBan env s (some e.dev.devpath) n = true ∨
            ∃ info, (tmpIrqs.find? fun res => res.irq = n) = some info ∧
              NameHas s.opts.clBannedModules info.name := by
      rw [Bool.or_eq_true, decide_eq_true_eq, checkForIrqBan_eq_true, or_left_comm]
    rw [← hban]
    split_ifs with h <;> simp [h]
  | none =>
    simp only [Option.bind_none, Option.none_or]
    by_cases hall : ∀ info ∈ tmpIrqs, info.irq = n → NameHas s.opts.bannedIrqNames info.name
    · rw [decision_hint_eq_none_iff.2 hall]
      exact iff_of_true (by simp) (Or.inr (Or.inr hall))
    · simp only [hall, or_false]
      simp only [not_forall] at hall
      obtain ⟨info, hinfo, rfl, hname⟩ := hall
      rw [decision_hint_eq_some hinfo hname, hintPlace]
      by_cases hcl : info.irq ∈ s.opts.clBannedIrqs <;>
        cases userBan env s none info.irq <;> simp [hcl]

theorem not_in_database_iff {platform : Text → Option (List Text)} {procInterrupts : Option Text}
    {pciDir : Option (List PciDev)} (h : rebuildIrqDb env platform procInterrupts pciDir s = some s')
    (htmp : collectFullIrqList platform procInterrupts s = some tmpIrqs) :
    (∀ i ∈ s'.interruptsDb, (s'.irqs i).irq ≠ n) ↔
      ∀ devs, pciDir = some devs → KeptOut env s tmpIrqs devs n := by
  obtain ⟨tmpIrqs', htmp', -, -, hplace⟩ := rebuildIrqDb_place h
  rw [htmp, Option.some.injEq] at htmp'
  subst htmp'
  have hdb : (∀ i ∈ s'.interruptsDb, (s'.irqs i).irq ≠ n) ↔
      rebuildPlace env s tmpIrqs pciDir n ≠ some .database := by
    rw [← hplace, Ne, place_eq_database, not_exists]
    exact forall_congr' fun i => not_and.symm
  rw [hdb]
  cases pciDir with
  | none => simp [rebuildPlace]
  | some devs => simp [rebuildPlace_ne_database_iff]

/-! ### The two options -/

theorem nameHas_append {l l' : List Text} {name : Option Text} :
    NameHas (l ++ l') name ↔ NameHas l name ∨ NameHas l' name := by
  simp only [NameHas, List.mem_append, or_and_right, exists_or, and_or_left]

/-- A name that contains one already stored is not stored, which makes no difference. -/
theorem nameHas_addClBannedModule (m : Text) (opts : Options) (name : Option Text) :
    NameHas (addClBannedModule m opts).clBannedModules name ↔ NameHas (opts.clBannedModules ++ [m]) name := by
  unfold addClBannedModule
  split_ifs with hold
  · obtain ⟨m', hm', hinfix⟩ := List.any_eq_true.1 hold
    rw [CString.strstr_iff] at hinfix
    rw [nameHas_append]
    refine ⟨Or.inl, fun h => h.elim id ?_⟩
    rintro ⟨t, hname, b, hb, hbt⟩
    rw [List.mem_singleton.1 hb] at hbt
    exact ⟨t, hname, m', hm', hinfix.trans hbt⟩
  · rfl

/-- The option `--banmod`, given several times. -/
theorem nameHas_clBannedModules (mods : List Text) (opts : Options) (name : Option Text) :
    NameHas (mods.foldl (fun opts m => addClBannedModule m opts) opts).clBannedModules name ↔
      NameHas (opts.clBannedModules ++ mods) name := by
  induction mods generalizing opts with
  | nil => simp
  | cons m mods ih =>
    rw [List.foldl_cons, ih, nameHas_append, nameHas_addClBannedModule, ← nameHas_append, List.append_assoc,
      List.singleton_append]

/-- The non-empty pieces of the argument of `--banirqname`. -/
def namePieces (nameList : Text) : List Text := (nameList.splitOn ',').filter (· ≠ [])

theorem strtok_comma (nameList : Text) : strtok (· = ',') nameList = namePieces nameList :=
  Fields.strtok_eq_splitOn ',' nameList

/-- The option `--banirqname`, given several times. -/
theorem bannedIrqNames_eq (nameLists : List Text) (opts : Options) :
    (nameLists.foldl (fun opts l => addBannedIrqsByNames l opts) opts).bannedIrqNames =
      opts.bannedIrqNames ++ nameLists.flatMap namePieces := by
  induction nameLists generalizing opts with
  | nil => simp
  | cons l nameLists ih =>
    rw [List.foldl_cons, ih, List.flatMap_cons, ← List.append_assoc, ← strtok_comma]
    rfl

/-- An option that bans irqs by their names. -/
inductive NameBan
  | banmod (modname : Text)
  | banirqname (nameList : Text)

/-- What `parse_command_line` does with the option. -/
def NameBan.add : NameBan → Options → Options
  | .banmod modname, opts => addClBannedModule modname opts
  | .banirqname nameList, opts => addBannedIrqsByNames nameList opts

/-- The module that the option bans. -/
def NameBan.modules : NameBan → List Text
  | .banmod modname => [modname]
  | .banirqname _ => []

/-- The irq names that the option bans. -/
def NameBan.names : NameBan → List Text
  | .banmod _ => []
  | .banirqname nameList => namePieces nameList

theorem NameBan.nameHas_modules (ban : NameBan) (opts : Options) (name : Option Text) :
    NameHas (ban.add opts).clBannedModules name ↔ NameHas (opts.clBannedModules ++ ban.modules) name := by
  cases ban with
  | banmod modname => exact nameHas_addClBannedModule modname opts name
  | banirqname nameList => simp [add, modules, addBannedIrqsByNames]

theorem NameBan.bannedIrqNames_add (ban : NameBan) (opts : Options) :
    (ban.add opts).bannedIrqNames = opts.bannedIrqNames ++ ban.names := by
  cases ban with
  | banmod modname =>
    simp only [add, names, addClBannedModule, List.append_nil]
    split_ifs <;> rfl
  | banirqname nameList => rw [names, ← strtok_comma]; rfl

/-- No stored module contains one that was stored before it. -/
def NoneRedundant (mods : List Text) : Prop := mods.Pairwise fun m m' => ¬m <:+: m'

theorem NoneRedundant.add {opts : Options} (h : NoneRedundant opts.clBannedModules) (ban : NameBan) :
    NoneRedundant (ban.add opts).clBannedModules := by
  cases ban with
  | banmod modname =>
    simp only [NameBan.add, addClBannedModule]
    split_ifs with hold
    · exact h
    · refine List.pairwise_append.2 ⟨h, List.pairwise_singleton _ _, fun m hm m' hm' hinfix => hold ?_⟩
      rw [List.mem_singleton.1 hm'] at hinfix
      exact List.any_eq_true.2 ⟨m, hm, (CString.strstr_iff _ _).2 hinfix⟩
  | banirqname nameList => exact h

/-- **Dropping redundant modules changes nothing.** Whatever the options are and in which order they come, a name
is banned if and only if it contains a module or a piece of a name list that was passed. -/
theorem name_banned_iff (bans : List NameBan) (opts : Options) (name : Text) :
    (NoneRedundant opts.clBannedModules →
      NoneRedundant (bans.foldl (fun opts ban => ban.add opts) opts).clBannedModules) ∧
    (checkForModuleBan (bans.foldl (fun opts ban => ban.add opts) opts) (some name) = some true ↔
      ∃ m ∈ opts.clBannedModules ++ bans.flatMap NameBan.modules, m <:+: name) ∧
    (isBannedIrqName (bans.foldl (fun opts ban => ban.add opts) opts) (some name) = some true ↔
      ∃ piece ∈ opts.bannedIrqNames ++ bans.flatMap NameBan.names, piece <:+: name) := by
  have hname : ∀ l : List Text, NameHas l (some name) ↔ ∃ m ∈ l, m <:+: name := fun l => by simp [NameHas]
  simp only [checkForModuleBan, isBannedIrqName, findSubstr_eq_true, ← hname]
  induction bans generalizing opts with
  | nil => simp
  | cons ban bans ih =>
    obtain ⟨hredundant, hmodules, hnames⟩ := ih (ban.add opts)
    refine ⟨fun h => hredundant (h.add ban), ?_, ?_⟩
    · rw [List.foldl_cons, hmodules, nameHas_append, ban.nameHas_modules, ← nameHas_append, List.append_assoc,
        List.flatMap_cons]
    · rw [List.foldl_cons, hnames, ban.bannedIrqNames_add, List.append_assoc, List.flatMap_cons]

example : ((NameBan.banmod "ethernet".toList).add ((NameBan.banmod "eth".toList).add {})).clBannedModules =
    ["eth".toList] := by
  decide +kernel

section Options

variable {platform : Text → Option (List Text)} {procInterrupts : Option Text}
variable {pciDir : Option (List PciDev)} {opts : Options}

/-- **`--banmod` keeps all irqs that have the name of a banned module out of the database if and only if
each of them is kept out on its way.** -/
theorem banmod_iff {mods : List Text} (hnone : opts.clBannedModules = [])
    (hopts : s.opts = mods.foldl (fun opts m => addClBannedModule m opts) opts)
    (h : rebuildIrqDb env platform procInterrupts pciDir s = some s')
    (htmp : collectFullIrqList platform procInterrupts s = some tmpIrqs) :
    (∀ info ∈ tmpIrqs, NameHas mods info.name → ∀ i ∈ s'.interruptsDb, (s'.irqs i).irq ≠ info.irq) ↔
      ∀ devs, pciDir = some devs → ∀ info ∈ tmpIrqs, NameHas s.opts.clBannedModules info.name →
        KeptOut env s tmpIrqs devs info.irq := by
  have hmods : ∀ name, NameHas s.opts.clBannedModules name ↔ NameHas mods name := fun name => by
    rw [hopts, nameHas_clBannedModules, hnone, List.nil_append]
  simp only [hmods, not_in_database_iff h htmp]
  exact ⟨fun hall devs hdevs info hinfo hname => hall info hinfo hname devs hdevs,
    fun hall info hinfo hname devs hdevs => hall devs hdevs info hinfo hname⟩

theorem banmod_iff_initial : ∃ s' tmpIrqs,
    rebuildIrqDb {} (fun _ => none) twoCpusEnv.procInterrupts (some [])
      (State.initial (addClBannedModule "usb".toList {}) fun _ => 0) = some s' ∧
    tmpIrqs.length = 1 ∧
    ((∀ info ∈ tmpIrqs, NameHas ["usb".toList] info.name → ∀ i ∈ s'.interruptsDb,
      (s'.irqs i).irq ≠ info.irq) ↔
      ∀ devs, some [] = some devs → ∀ info ∈ tmpIrqs, NameHas ["usb".toList] info.name →
        KeptOut {} (State.initial (addClBannedModule "usb".toList {}) fun _ => 0) tmpIrqs devs
          info.irq) := by
  have hrebuild : (rebuildIrqDb {} (fun _ => none) twoCpusEnv.procInterrupts (some [])
      (State.initial (addClBannedModule "usb".toList {}) fun _ => 0)).isSome = true := by
    decide +kernel
  have hcollect : (collectFullIrqList (fun _ => none) twoCpusEnv.procInterrupts
      (State.initial (addClBannedModule "usb".toList {}) fun _ => 0)).map List.length = some 1 := by
    decide +kernel
  obtain ⟨s', h⟩ := Option.isSome_iff_exists.1 hrebuild
  obtain ⟨tmpIrqs, htmp, hlen⟩ := Option.map_eq_some_iff.1 hcollect
  have hnone : ({} : Options).clBannedModules = [] := rfl
  exact ⟨s', tmpIrqs, h, hlen, banmod_iff hnone rfl h htmp⟩

/-- **`--banirqname` keeps all irqs with a banned name out of the database if and only if each of them is
kept out on its way.** -/
theorem banirqname_iff {nameLists : List Text} (hnone : opts.bannedIrqNames = [])
    (hopts : s.opts = nameLists.foldl (fun opts l => addBannedIrqsByNames l opts) opts)
    (h : rebuildIrqDb env platform procInterrupts pciDir s = some s')
    (htmp : collectFullIrqList platform procInterrupts s = some tmpIrqs) :
    (∀ info ∈ tmpIrqs, NameHas (nameLists.flatMap namePieces) info.name →
      ∀ i ∈ s'.interruptsDb, (s'.irqs i).irq ≠ info.irq) ↔
      ∀ devs, pciDir = some devs → ∀ info ∈ tmpIrqs, NameHas s.opts.bannedIrqNames info.name →
        KeptOut env s tmpIrqs devs info.irq := by
  have hnames : s.opts.bannedIrqNames = nameLists.flatMap namePieces := by
    rw [hopts, bannedIrqNames_eq, hnone, List.nil_append]
  simp only [hnames, not_in_database_iff h htmp]
  exact ⟨fun hall devs hdevs info hinfo hname => hall info hinfo hname devs hdevs,
    fun hall info hinfo hname devs hdevs => hall devs hdevs info hinfo hname⟩

theorem banirqname_iff_initial : ∃ s' tmpIrqs,
    rebuildIrqDb {} (fun _ => none) twoCpusEnv.procInterrupts (some [])
      (State.initial (addBannedIrqsByNames "usb,eth".toList {}) fun _ => 0) = some s' ∧
    tmpIrqs.length = 1 ∧
    ((∀ info ∈ tmpIrqs, NameHas (["usb,eth".toList].flatMap namePieces) info.name →
      ∀ i ∈ s'.interruptsDb, (s'.irqs i).irq ≠ info.irq) ↔
      ∀ devs, some [] = some devs → ∀ info ∈ tmpIrqs,
        NameHas (addBannedIrqsByNames "usb,eth".toList {}).bannedIrqNames info.name →
        KeptOut {} (State.initial (addBannedIrqsByNames "usb,eth".toList {}) fun _ => 0) tmpIrqs devs
          info.irq) := by
  have hrebuild : (rebuildIrqDb {} (fun _ => none) twoCpusEnv.procInterrupts (some [])
      (State.initial (addBannedIrqsByNames "usb,eth".toList {}) fun _ => 0)).isSome = true := by
    decide +kernel
  have hcollect : (collectFullIrqList (fun _ => none) twoCpusEnv.procInterrupts
      (State.initial (addBannedIrqsByNames "usb,eth".toList {}) fun _ => 0)).map List.length =
        some 1 := by
    decide +kernel
  obtain ⟨s', h⟩ := Option.isSome_iff_exists.1 hrebuild
  obtain ⟨tmpIrqs, htmp, hlen⟩ := Option.map_eq_some_iff.1 hcollect
  have hnone : ({} : Options).bannedIrqNames = [] := rfl
  exact ⟨s', tmpIrqs, h, hlen, banirqname_iff hnone rfl h htmp⟩

end Options

/-- An irq that no PCI device has is looked up in a list without names: its module is not found. -/
theorem banmod_missed : ∃ s' tmpIrqs,
    buildObjectTree twoCpusEnv (State.initial (addClBannedModule "eth".toList {}) fun _ => 0) =
      some s' ∧
    collectFullIrqList twoCpusEnv.platform twoCpusEnv.procInterrupts
      (State.initial (addClBannedModule "eth".toList {}) fun _ => 0) = some tmpIrqs ∧
    ∃ info ∈ tmpIrqs, NameHas ["eth".toList] info.name ∧
      ∃ i ∈ s'.interruptsDb, (s'.irqs i).irq = info.irq := by
  have hbuild : (buildObjectTree twoCpusEnv (State.initial (addClBannedModule "eth".toList {})
      fun _ => 0)).map (fun s => s.interruptsDb.map s.number) = some [10] := by
    decide +kernel
  have hcollect : (collectFullIrqList twoCpusEnv.platform twoCpusEnv.procInterrupts
      (State.initial (addClBannedModule "eth".toList {}) fun _ => 0)).map
      (List.map fun info => (info.irq, info.name)) = some [(10, some "eth0".toList)] := by
    decide +kernel
  obtain ⟨s', hs', hdb⟩ := Option.map_eq_some_iff.1 hbuild
  obtain ⟨tmpIrqs, htmp, hinfos⟩ := Option.map_eq_some_iff.1 hcollect
  obtain ⟨info, hinfo, e⟩ := List.mem_map.1 (hinfos ▸ List.mem_singleton_self _)
  obtain ⟨i, hi, hnumber⟩ := List.mem_map.1 (hdb ▸ List.mem_singleton_self _)
  simp only [Prod.mk.injEq] at e
  refine ⟨s', tmpIrqs, hs', htmp, info, hinfo, ⟨_, e.2, "eth".toList, List.mem_singleton_self _, ?_⟩,
    i, hi, hnumber.trans e.1.symm⟩
  exact ⟨[], ['0'], rfl⟩

/-- A network device on the PCI bus, with the irq 10. -/
def ethernetDev : PciDev where
  devpath := "0000:00:01.0".toList
  irqFile := some (some 10)
  pciData := fun f => if f = .pciClass then some 0x20000 else some 0

/-- An irq of a PCI device is not tested for a banned name. -/
theorem banirqname_missed : ∃ s' tmpIrqs,
    buildObjectTree { twoCpusEnv with pciDir := some [ethernetDev] }
      (State.initial (addBannedIrqsByNames "usb,eth".toList {}) fun _ => 0) = some s' ∧
    collectFullIrqList twoCpusEnv.platform twoCpusEnv.procInterrupts
      (State.initial (addBannedIrqsByNames "usb,eth".toList {}) fun _ => 0) = some tmpIrqs ∧
    ∃ info ∈ tmpIrqs, NameHas (namePieces "usb,eth".toList) info.name ∧
      ∃ i ∈ s'.interruptsDb, (s'.irqs i).irq = info.irq := by
  have hbuild : (buildObjectTree { twoCpusEnv with pciDir := some [ethernetDev] }
      (State.initial (addBannedIrqsByNames "usb,eth".toList {}) fun _ => 0)).map
      (fun s => s.interruptsDb.map s.number) = some [10] := by
    decide +kernel
  have hcollect : (collectFullIrqList twoCpusEnv.platform twoCpusEnv.procInterrupts
      (State.initial (addBannedIrqsByNames "usb,eth".toList {}) fun _ => 0)).map
      (List.map fun info => (info.irq, info.name)) = some [(10, some "eth0".toList)] := by
    decide +kernel
  have hpieces : "eth".toList ∈ namePieces "usb,eth".toList := by
    have e := bannedIrqNames_eq ["usb,eth".toList] {}
    simp only [List.flatMap_cons, List.flatMap_nil, List.append_nil, List.foldl_cons,
      List.foldl_nil] at e
    have hmem : "eth".toList ∈ (addBannedIrqsByNames "usb,eth".toList {}).bannedIrqNames := by
      decide +kernel
    rw [e] at hmem
    exact hmem
  obtain ⟨s', hs', hdb⟩ := Option.map_eq_some_iff.1 hbuild
  obtain ⟨tmpIrqs, htmp, hinfos⟩ := Option.map_eq_some_iff.1 hcollect
  obtain ⟨info, hinfo, e⟩ := List.mem_map.1 (hinfos ▸ List.mem_singleton_self _)
  obtain ⟨i, hi, hnumber⟩ := List.mem_map.1 (hdb ▸ List.mem_singleton_self _)
  simp only [Prod.mk.injEq] at e
  exact ⟨s', tmpIrqs, hs', htmp, info, hinfo, ⟨_, e.2, "eth".toList, hpieces, [], ['0'], rfl⟩, i, hi,
    hnumber.trans e.1.symm⟩

end IrqBalance

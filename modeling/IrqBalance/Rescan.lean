import IrqBalance.Bans
import IrqBalance.Affinity
import IrqBalance.Discovery
import IrqBalance.Filing

/-!
# After a rebuild

An irq of `/proc/interrupts` that a rebuild does not register has two consequences. The next
`parse_proc_interrupts` does not know it and asks for another rescan (`rescan_settles_iff`); and if it
was banned, it is not in `banned_irqs` (`banned_untouched_iff`). The registrable irqs are those of PCI
devices and, if there is a PCI directory, those that have a line without a banned name.
-/

namespace IrqBalance

open CString (Text loopBuffers)

variable {s s' t : State} {p : Pc × State} {pc : Pc} {n : ℤ} {i : IrqId}

/-! ### A run without another build -/

/-- A run goes on from `p` without another build. -/
inductive Onward (p : Pc × State) : Pc → State → Prop
  | refl : Onward p p.1 p.2
  | step {env : Env} {pc pc' : Pc} {s s' : State} : Onward p pc s → pc.phase ≠ .bare →
      exec env pc s = some (pc', s') → Onward p pc' s'
  | hup {pc : Pc} {s : State} : Onward p pc s → pc ≠ .start → Onward p pc (forceRescan s)

theorem Onward.reach (h : Onward p pc s) (hp : Reach anyStep p.1 p.2) : Reach anyStep pc s := by
  induction h with
  | refl => exact hp
  | step _ _ hexec ih => exact ih.exec_any hexec
  | hup _ hpc ih => exact ih.hup hpc

/-- Only building and freeing change the static part of the state. -/
theorem Stmt.static_eq {env : Env} {pc' : Pc} (h : Stmt env pc s pc' s') (hs : pc.phase.Holds s)
    (hpc : pc.phase ≠ .bare) : pc'.phase = .bare ∨ s'.static = s.static := by
  cases h with
  | build hbare => exact absurd hbare hpc
  | force hbuilt _ h =>
    rw [hbuilt] at hs
    rw [Built.force hs h]
    exact Or.inr rfl
  | quiet _ _ h => exact Or.inr (static_of_quiet h)
  | free => exact Or.inl rfl
  | migrate h => exact Or.inr (updateMigrationStatus_rearrange hs h).static_eq
  | place h => exact Or.inr (calculatePlacement_rearrange hs h).static_eq
  | activate h => exact Or.inr (static_of_unactivated (activateMappings_unactivated h))

/-- **Until the tree is freed the database and the tree stay as they were built.** -/
theorem Onward.static_eq (h : Onward p pc s) (hp : Reach anyStep p.1 p.2) :
    pc.phase = .bare ∨ s.static = p.2.static := by
  induction h with
  | refl => exact Or.inr rfl
  | step h hpc hexec ih =>
    rcases (exec_stmt hexec).static_eq (h.reach hp).holds hpc with hbare | e
    · exact Or.inl hbare
    · exact Or.inr (e.trans (ih.resolve_left hpc))
  | hup _ _ ih => exact ih.imp id fun e => (static_of_quiet (forceRescan_quiet _)).trans e

/-! ### The rebuild -/

theorem collectFullIrqList_congr (platform : Text → Option (List Text)) (file : Option Text)
    (h : s'.opts = s.opts) :
    collectFullIrqList platform file s' = collectFullIrqList platform file s := by
  unfold collectFullIrqList
  rw [h]

theorem rebuildPlace_congr (env : IrqEnv) (tmpIrqs : List IrqInfo) (pciDir : Option (List PciDev))
    (h : s'.opts = s.opts) :
    rebuildPlace env s' tmpIrqs pciDir = rebuildPlace env s tmpIrqs pciDir := by
  funext n
  unfold rebuildPlace
  rw [pciVerdict_congr env tmpIrqs h, hintVerdict_congr env h]

theorem exec_buildObjectTree {env : Env} {pc' : Pc} (hpc : pc.phase = .bare)
    (hexec : exec env pc s = some (pc', s')) : buildObjectTree env s = some s' := by
  cases exec_stmt hexec with
  | build _ _ h => exact h
  | force hpc' => rw [hpc] at hpc'; cases hpc'
  | quiet hpc' => rw [hpc] at hpc'; cases hpc'
  | free | migrate | place | activate => cases hpc

/-- A step of `main` that builds. -/
theorem exec_build {env : Env} {pc' : Pc} (h : Bare s) (hpc : pc.phase = .bare)
    (hexec : exec env pc s = some (pc', s')) {tmpIrqs : List IrqInfo}
    (htmp : collectFullIrqList env.platform env.procInterrupts s = some tmpIrqs) :
    DbInv s' ∧ s'.place = rebuildPlace env.irqEnv s tmpIrqs env.pciDir := by
  obtain ⟨s₁, h₁, hrebuild⟩ := Option.bind_eq_some_iff.1 (exec_buildObjectTree hpc hexec)
  have hopts : s₁.opts = s.opts := (h.treeless.parseCpuTree h₁).1
  obtain ⟨tmpIrqs', htmp', hdb, -, hplace⟩ := rebuildIrqDb_place hrebuild
  rw [collectFullIrqList_congr _ _ hopts, htmp, Option.some.injEq] at htmp'
  subst htmp'
  exact ⟨hdb, hplace.trans (rebuildPlace_congr _ _ _ hopts)⟩

/-! ### Banned irqs -/

/-- The irq is banned on the command line, or by the policy where it is first discovered. -/
def BannedAtDiscovery (env : IrqEnv) (s : State) (pciDir : Option (List PciDev)) (n : ℤ) : Prop :=
  n ∈ s.opts.clBannedIrqs ∨
    userBan env s ((firstPci (pciDir.getD []) n).map fun e => e.dev.devpath) n = true

theorem BannedAtDiscovery.keptOut {env : IrqEnv} {devs : List PciDev} {tmpIrqs : List IrqInfo}
    (h : BannedAtDiscovery env s (some devs) n) : KeptOut env s tmpIrqs devs n := by
  rcases h with hcl | huser
  · exact Or.inl hcl
  · right
    rw [Option.getD_some] at huser
    cases hfirst : firstPci devs n with
    | some e => rw [hfirst] at huser; exact Or.inl huser
    | none => rw [hfirst] at huser; exact Or.inl huser

/-- A banned irq is in `banned_irqs` if it is registrable, and unknown otherwise. -/
theorem rebuildPlace_banned_iff {env : IrqEnv} (tmpIrqs : List IrqInfo)
    {pciDir : Option (List PciDev)} (h : BannedAtDiscovery env s pciDir n) :
    rebuildPlace env s tmpIrqs pciDir n ≠ some .database ∧
      (rebuildPlace env s tmpIrqs pciDir n = some .banned ↔
        ∃ devs, pciDir = some devs ∧ Registrable s tmpIrqs devs n) := by
  cases pciDir with
  | none => simp [rebuildPlace]
  | some devs =>
    have hdb : rebuildPlace env s tmpIrqs (some devs) n ≠ some .database :=
      rebuildPlace_ne_database_iff.2 h.keptOut
    refine ⟨hdb, ?_⟩
    simp only [Option.some.injEq, exists_eq_left']
    have hreg : rebuildPlace env s tmpIrqs (some devs) n ≠ none ↔ Registrable s tmpIrqs devs n :=
      rebuildPlace_ne_none_iff
    rw [← hreg]
    cases hplace : rebuildPlace env s tmpIrqs (some devs) n with
    | none => simp
    | some v =>
      cases v with
      | database => exact absurd hplace hdb
      | banned => simp

/-- **A banned irq is in `banned_irqs` and is left alone until the next rebuild, if and only if it is
registrable.** -/
theorem banned_untouched_iff (h : Reach anyStep pc s) (hpc : pc.phase = .bare) {env : Env} {pc' : Pc}
    (hexec : exec env pc s = some (pc', s')) {tmpIrqs : List IrqInfo}
    (htmp : collectFullIrqList env.platform env.procInterrupts s = some tmpIrqs)
    (hban : BannedAtDiscovery env.irqEnv s env.pciDir n) :
    ((∃ i ∈ s'.bannedIrqs, (s'.irqs i).irq = n) ∧ (∀ i ∈ s'.interruptsDb, (s'.irqs i).irq ≠ n) ∧
      ∀ q t, Onward (pc', s') q t → (∀ i ∈ t.allLists, (t.irqs i).irq ≠ n) ∧
        (q = .activation → ∀ procIrq, ∀ w ∈ affinityWrites procIrq t, w.1 ≠ n)) ↔
      ∃ devs, env.pciDir = some devs ∧ Registrable s tmpIrqs devs n := by
  have hbare : Bare s := by
    have hs := h.holds
    rwa [hpc] at hs
  obtain ⟨hdb, hplace⟩ := exec_build hbare hpc hexec htmp
  obtain ⟨hnot, hiff⟩ := rebuildPlace_banned_iff tmpIrqs hban
  rw [← hplace] at hnot hiff
  have hreach : Reach anyStep pc' s' := h.exec_any hexec
  have hout : ∀ i ∈ s'.interruptsDb, s'.number i ≠ n := fun i hi e =>
    hnot (place_eq_database.2 ⟨i, hi, e⟩)
  -- the numbers in the database of a later state
  have hlater : ∀ q t, Onward (pc', s') q t → ∀ i ∈ t.interruptsDb, t.number i ≠ n := by
    intro q t ht i hi
    rcases ht.static_eq hreach with hq | e
    · have hs := (ht.reach hreach).holds
      rw [hq] at hs
      rw [Bare.interruptsDb hs] at hi
      cases hi
    · rw [interruptsDb_of_static e] at hi
      rw [number_of_static e]
      exact hout i hi
  rw [← hiff, place_eq_banned hdb]
  refine ⟨fun hall => hall.1, fun hmem => ⟨hmem, hout, fun q t ht => ⟨fun i hi => ?_, ?_⟩⟩⟩
  · exact hlater q t ht i ((ht.reach hreach).mem_interruptsDb hi)
  · rintro rfl procIrq w hw
    obtain ⟨i, hi, hnumber, -⟩ := mem_affinityWrites ((ht.reach hreach).live rfl) hw
    rw [hnumber]
    exact hlater _ t ht i hi

/-- The irq 10 is banned on the command line. -/
def ban10 : Options := addClBannedIrq 10 {}

theorem banned_untouched_iff_ban10 : ∃ s' tmpIrqs,
    exec twoCpusEnv .start (State.initial ban10 fun _ => 0) = some (.forceRebalance, s') ∧
    ((((∃ i ∈ s'.bannedIrqs, (s'.irqs i).irq = 10) ∧ (∀ i ∈ s'.interruptsDb, (s'.irqs i).irq ≠ 10) ∧
      ∀ q t, Onward (.forceRebalance, s') q t → (∀ i ∈ t.allLists, (t.irqs i).irq ≠ 10) ∧
        (q = .activation → ∀ procIrq, ∀ w ∈ affinityWrites procIrq t, w.1 ≠ 10))) ↔
      ∃ devs, twoCpusEnv.pciDir = some devs ∧
        Registrable (State.initial ban10 fun _ => 0) tmpIrqs devs 10) := by
  have hbuild : (exec twoCpusEnv .start (State.initial ban10 fun _ => 0)).map Prod.fst =
      some .forceRebalance := by
    decide +kernel
  have hcollect : (collectFullIrqList twoCpusEnv.platform twoCpusEnv.procInterrupts
      (State.initial ban10 fun _ => 0)).isSome = true := by
    decide +kernel
  obtain ⟨⟨pc', s'⟩, hexec, rfl⟩ := Option.map_eq_some_iff.1 hbuild
  obtain ⟨tmpIrqs, htmp⟩ := Option.isSome_iff_exists.1 hcollect
  exact ⟨s', tmpIrqs, hexec, banned_untouched_iff (.init ban10 (fun _ => 0) rfl) rfl hexec htmp
    (Or.inl List.mem_cons_self)⟩

/-- The machine without a PCI directory. -/
def noPciEnv : Env := { twoCpusEnv with pciDir := none }

/-- Without a PCI directory a banned irq is not in `banned_irqs`. -/
theorem ban10_missed : ∃ pc' s' tmpIrqs,
    exec noPciEnv .start (State.initial ban10 fun _ => 0) = some (pc', s') ∧
    collectFullIrqList noPciEnv.platform noPciEnv.procInterrupts (State.initial ban10 fun _ => 0) =
      some tmpIrqs ∧
    (∃ info ∈ tmpIrqs, info.irq = 10) ∧
    BannedAtDiscovery noPciEnv.irqEnv (State.initial ban10 fun _ => 0) noPciEnv.pciDir 10 ∧
    ¬∃ i ∈ s'.bannedIrqs, (s'.irqs i).irq = 10 := by
  have hbuild : (exec noPciEnv .start (State.initial ban10 fun _ => 0)).map
      (fun r => r.2.bannedIrqs) = some [] := by
    decide +kernel
  have hcollect : (collectFullIrqList noPciEnv.platform noPciEnv.procInterrupts
      (State.initial ban10 fun _ => 0)).map (List.map IrqInfo.irq) = some [10] := by
    decide +kernel
  obtain ⟨⟨pc', s'⟩, hexec, hbanned⟩ := Option.map_eq_some_iff.1 hbuild
  obtain ⟨tmpIrqs, htmp, hirqs⟩ := Option.map_eq_some_iff.1 hcollect
  refine ⟨pc', s', tmpIrqs, hexec, htmp, List.mem_map.1 (hirqs ▸ List.mem_singleton_self 10),
    Or.inl List.mem_cons_self, ?_⟩
  rintro ⟨i, hi, -⟩
  rw [show s'.bannedIrqs = [] from hbanned] at hi
  cases hi

/-! ### The next `parse_proc_interrupts` -/

/-- The lines of `/proc/interrupts` with an irq: its number and the text behind the colon. -/
def irqLines : List Text → List (ℤ × Text)
  | [] => []
  | line :: ls =>
    match procLine line with
    | .stop => []
    | .skip => irqLines ls
    | .irq number rest => (number, rest) :: irqLines ls

/-- The count of a line: the sum of its columns. -/
def lineCount (l : ℤ × Text) : UInt64 := (sumColumns l.2.length l.2).1

/-- Every line has as many columns as there are cpus, and no count decreases, neither from one time to
the next nor from one line to another one of the same irq. -/
structure Fits (s : State) (ls : List (ℤ × Text)) : Prop where
  columns : ∀ l ∈ ls, (sumColumns l.2.length l.2).2 = s.coreCount
  counts : ∀ l ∈ ls, ∀ i, getIrqInfo s l.1 = some i → (s.irqs i).irqCount ≤ lineCount l
  pairwise : ls.Pairwise fun l l' => l.1 = l'.1 → lineCount l ≤ lineCount l'

/-- `collect_full_irq_list` and `parse_proc_interrupts` read the same lines. -/
theorem collectLoop_map_irq {platform : Text → Option (List Text)} {policy : HintPolicy}
    {ls : List Text} {infos : List IrqInfo} (h : collectLoop platform policy ls = some infos) :
    infos.map IrqInfo.irq = (irqLines ls).map Prod.fst := by
  induction ls generalizing infos with
  | nil => cases h; rfl
  | cons line ls ih =>
    rw [collectLoop] at h
    rw [irqLines]
    cases hline : procLine line with
    | stop => rw [hline] at h; cases h; rfl
    | skip => rw [hline] at h; exact ih h
    | irq number rest =>
      rw [hline] at h
      obtain ⟨info, hinfo, h⟩ := Option.bind_eq_some_iff.1 h
      obtain ⟨infos', hinfos', h⟩ := Option.bind_eq_some_iff.1 h
      cases h
      rw [List.map_cons, List.map_cons, ih hinfos', irqHint_irq hinfo]

theorem getIrqInfo_modIrq {f : IrqInfo → IrqInfo} (hirq : ∀ info, (f info).irq = info.irq) (s : State)
    (i : IrqId) : getIrqInfo (s.modIrq i f) = getIrqInfo s := by
  have hsame : sameIrq (s.modIrq i f) = sameIrq s := by
    funext n j
    rw [sameIrq, sameIrq, State.modIrq_irqs]
    split_ifs
    · rw [hirq]
    · rfl
  funext n
  unfold getIrqInfo
  rw [hsame]
  rfl

/-- **A file that fits, all of whose irqs are known, does not ask for a rescan.** -/
theorem parseInterruptsLoop_settles {ls : List Text}
    (hknown : ∀ l ∈ irqLines ls, (getIrqInfo s l.1).isSome) (hfits : Fits s (irqLines ls)) :
    (parseInterruptsLoop ls s).needRescan = s.needRescan := by
  induction ls generalizing s with
  | nil => rfl
  | cons line ls ih =>
    rw [parseInterruptsLoop]
    rw [irqLines] at hknown hfits
    cases hline : procLine line with
    | stop => rfl
    | skip =>
      rw [hline] at hknown hfits
      exact ih hknown hfits
    | irq number rest =>
      rw [hline] at hknown hfits
      obtain ⟨hcolumns, hcounts, hpair⟩ := hfits
      obtain ⟨hhead, htail⟩ := List.pairwise_cons.1 hpair
      obtain ⟨i, hi⟩ := Option.isSome_iff_exists.1 (hknown (number, rest) List.mem_cons_self)
      have hcolumns' : (sumColumns rest.length rest).2 = s.coreCount :=
        hcolumns (number, rest) List.mem_cons_self
      have hcount : (s.irqs i).irqCount ≤ (sumColumns rest.length rest).1 :=
        hcounts (number, rest) List.mem_cons_self i hi
      simp only [hi]
      rw [if_neg (not_not_intro hcolumns'), if_neg (by grind)]
      set g : IrqInfo → IrqInfo := fun info =>
        { info with lastIrqCount := info.irqCount, irqCount := (sumColumns rest.length rest).1 }
      have hget : getIrqInfo (s.modIrq i g) = getIrqInfo s := getIrqInfo_modIrq (by intro _; rfl) s i
      refine ih (fun l hl => ?_) ⟨fun l hl => hcolumns l (List.mem_cons_of_mem _ hl),
        fun l hl j hj => ?_, htail⟩
      · rw [hget]
        exact hknown l (List.mem_cons_of_mem _ hl)
      · rw [hget] at hj
        by_cases hji : j = i
        · -- a later line of the same irq
          subst hji
          rw [State.modIrq_irqs_self]
          apply hhead l hl
          exact (getIrqInfo_eq_some hi).2.symm.trans (getIrqInfo_eq_some hj).2
        · rw [State.modIrq_irqs_of_ne hji]
          exact hcounts l (List.mem_cons_of_mem _ hl) j hj

/-- The lines of a `/proc/interrupts` with an irq. -/
def procIrqLines (s : State) (text : Text) : List (ℤ × Text) :=
  irqLines (loopBuffers s.opts.getlineKeeps cutAtColon text)

/-- **A rescan settles if and only if all irqs of `/proc/interrupts` are registrable.** It settles when
all irqs that it has read are found, and no later `parse_proc_interrupts` of the same irqs asks for
another rescan. -/
theorem rescan_settles_iff (h : Reach anyStep pc s) (hpc : pc.phase = .bare) {env : Env} {pc' : Pc}
    (hexec : exec env pc s = some (pc', s')) {tmpIrqs : List IrqInfo}
    (htmp : collectFullIrqList env.platform env.procInterrupts s = some tmpIrqs) :
    ((∀ info ∈ tmpIrqs, (getIrqInfo s' info.irq).isSome) ∧
      ∀ q t, Onward (pc', s') q t → q.phase ≠ .bare → ∀ text,
        (∀ n, n ∈ (procIrqLines t text).map Prod.fst ↔ n ∈ tmpIrqs.map IrqInfo.irq) →
        Fits t (procIrqLines t text) →
        (parseProcInterrupts (some text) t).needRescan = t.needRescan) ↔
      ∀ info ∈ tmpIrqs, ∃ devs, env.pciDir = some devs ∧ Registrable s tmpIrqs devs info.irq := by
  have hbare : Bare s := by
    have hs := h.holds
    rwa [hpc] at hs
  obtain ⟨hdb, hplace⟩ := exec_build hbare hpc hexec htmp
  have hreach : Reach anyStep pc' s' := h.exec_any hexec
  have hfound : ∀ n, (getIrqInfo s' n).isSome = true ↔
      ∃ devs, env.pciDir = some devs ∧ Registrable s tmpIrqs devs n := by
    intro n
    rw [getIrqInfo_isSome, hplace, Option.isSome_iff_ne_none]
    cases env.pciDir with
    | none => simp [rebuildPlace]
    | some devs => simp [rebuildPlace_ne_none_iff]
  simp only [hfound]
  refine ⟨fun hall => hall.1, fun hall => ⟨hall, fun q t ht hq text hlines hfits => ?_⟩⟩
  refine parseInterruptsLoop_settles (fun l hl => ?_) hfits
  have e := (ht.static_eq hreach).resolve_left hq
  obtain ⟨info, hinfo, hirq⟩ := List.mem_map.1 ((hlines l.1).1 (List.mem_map_of_mem hl))
  rw [getIrqInfo_of_static e, ← hirq]
  exact (hfound info.irq).2 (hall info hinfo)

theorem rescan_settles_iff_twoCpus : ∃ s' tmpIrqs,
    exec twoCpusEnv .start (State.initial {} fun _ => 0) = some (.forceRebalance, s') ∧
    tmpIrqs.length = 1 ∧
    (((∀ info ∈ tmpIrqs, (getIrqInfo s' info.irq).isSome) ∧
      ∀ q t, Onward (.forceRebalance, s') q t → q.phase ≠ .bare → ∀ text,
        (∀ n, n ∈ (procIrqLines t text).map Prod.fst ↔ n ∈ tmpIrqs.map IrqInfo.irq) →
        Fits t (procIrqLines t text) →
        (parseProcInterrupts (some text) t).needRescan = t.needRescan) ↔
      ∀ info ∈ tmpIrqs, ∃ devs, twoCpusEnv.pciDir = some devs ∧
        Registrable (State.initial {} fun _ => 0) tmpIrqs devs info.irq) := by
  have hbuild : (exec twoCpusEnv .start (State.initial {} fun _ => 0)).map Prod.fst =
      some .forceRebalance := by
    decide +kernel
  have hcollect : (collectFullIrqList twoCpusEnv.platform twoCpusEnv.procInterrupts
      (State.initial {} fun _ => 0)).map List.length = some 1 := by
    decide +kernel
  obtain ⟨⟨pc', s'⟩, hexec, rfl⟩ := Option.map_eq_some_iff.1 hbuild
  obtain ⟨tmpIrqs, htmp, hlen⟩ := Option.map_eq_some_iff.1 hcollect
  exact ⟨s', tmpIrqs, hexec, hlen, rescan_settles_iff (.init {} (fun _ => 0) rfl) rfl hexec htmp⟩

/-- Without a PCI directory no irq is found, and reading the same file again asks for a rescan. -/
theorem rescan_unsettled : ∃ pc' s' tmpIrqs,
    exec noPciEnv .start (State.initial {} fun _ => 0) = some (pc', s') ∧
    collectFullIrqList noPciEnv.platform noPciEnv.procInterrupts (State.initial {} fun _ => 0) =
      some tmpIrqs ∧
    (∃ info ∈ tmpIrqs, getIrqInfo s' info.irq = none) ∧
    (parseProcInterrupts noPciEnv.procInterrupts s').needRescan = true := by
  have hbuild : (exec noPciEnv .start (State.initial {} fun _ => 0)).map (fun r =>
      (getIrqInfo r.2 10, (parseProcInterrupts noPciEnv.procInterrupts r.2).needRescan)) =
      some (none, true) := by
    decide +kernel
  have hcollect : (collectFullIrqList noPciEnv.platform noPciEnv.procInterrupts
      (State.initial {} fun _ => 0)).map (List.map IrqInfo.irq) = some [10] := by
    decide +kernel
  obtain ⟨⟨pc', s'⟩, hexec, e⟩ := Option.map_eq_some_iff.1 hbuild
  obtain ⟨tmpIrqs, htmp, hirqs⟩ := Option.map_eq_some_iff.1 hcollect
  obtain ⟨info, hinfo, hirq⟩ := List.mem_map.1 (hirqs ▸ List.mem_singleton_self 10)
  simp only [Prod.mk.injEq] at e
  exact ⟨pc', s', tmpIrqs, hexec, htmp, ⟨info, hinfo, hirq ▸ e.1⟩, e.2⟩

end IrqBalance

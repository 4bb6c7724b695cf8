import IrqBalance.Lifecycle
import IrqBalance.MissingStats
import IrqBalance.Powersave

/-!
# What balancing leaves alone

`update_migration_status` queues an irq for two reasons only: its cpu falls asleep, or `move_candidate_irqs` selects
it, which asks for a load above 1, a level, no EXACT hint, and another irq at the object. So an object is emptied by
falling asleep only (`balancing_reasons`).

An irq that has not come since the last snapshot has a load of at most 1, so if it has been written, a cycle neither
moves nor writes it, as long as its cpu is awake (`quiet_irqs_rest`).
-/

namespace IrqBalance

variable {s s' t : State} {i : IrqId} {o k : ObjId} {pc pc' : Pc}

/-- What `move_candidate_irqs` asks of the irq. -/
def Balanceable (s : State) (i : IrqId) : Prop :=
  (s.irqs i).hasHint .exact = false ∧ (s.irqs i).level ≠ .none ∧ 1 < s.irqLoads i

theorem Balanceable.of_rearrange {D : Set (Option ObjId)} (hr : Rearrange D s s') (h : Balanceable s' i) :
    Balanceable s i := by
  unfold Balanceable at h
  rwa [hasHint_of_static hr.static_eq, level_of_static hr.static_eq, hr.irqLoads_eq] at h

/-! ### The passes over overloaded objects -/

/-- Irqs are taken off objects, but no object loses its last one. -/
structure Sheds (s s' : State) : Prop where
  rearrange : Rearrange {none} s s'
  home : ∀ i ∈ s.live, s'.home i = s.home i ∨ s'.home i = none ∧ Balanceable s i
  kept : ∀ o ∈ s.topology, s.slot (some o) ≠ [] → s'.slot (some o) ≠ []

theorem Sheds.refl (s : State) : Sheds s s :=
  ⟨.refl s, fun _ _ => Or.inl rfl, fun _ _ h => h⟩

theorem Sheds.trans (h : Sheds s t) (h' : Sheds t s') : Sheds s s' where
  rearrange := h.rearrange.trans h'.rearrange
  home i hi := by
    have hi' : i ∈ t.live := by rwa [live_of_static h.rearrange.static_eq]
    rcases h'.home i hi' with e | ⟨e, hbal⟩
    · rw [e]
      exact h.home i hi
    · exact Or.inr ⟨e, hbal.of_rearrange h.rearrange⟩
  kept o ho hne := by
    refine h'.kept o ?_ (h.kept o ho hne)
    rwa [topology_of_static h.rearrange.static_eq]

theorem Sheds.sort (ho : o ∈ s.topology) : Sheds s (sortIrqList (some o) s) where
  rearrange := (Rearrange.refl s).sort (some_mem_slots.2 ho)
  home i _ := Or.inl (by rw [sort_home])
  kept p _ hne hnil := by
    have hlength := (sort_slot_perm s (some o) (some p)).length_eq
    rw [hnil, List.length_nil] at hlength
    exact hne (List.eq_nil_of_length_eq_zero hlength.symm)

/-- An irq is selected. -/
theorem Sheds.takeOff {lb : LoadBalanceInfo} (h : Live s) (hi : i ∈ s.live) (hsel : Selectable s lb o i) :
    Sheds s (takeOff o i s) := by
  have hhome : s.home i = some o := hsel.assignedObj
  have hm := takeOff_moved h hi hhome
  refine ⟨(Rearrange.refl s).move hi ⟨none_mem_slots s, rfl⟩ (by simp [hhome]) hm, fun j _ => ?_, fun p _ hne => ?_⟩
  · rw [hm.home_eq]
    by_cases hji : j = i
    · subst hji
      rw [Function.update_self]
      exact Or.inr ⟨rfl, hsel.not_exact, hsel.level, hsel.load⟩
    · exact Or.inl (Function.update_of_ne hji ..)
  · by_cases hpo : p = o
    · subst hpo
      have herase := hm.slot_erase (by simp [hhome])
      rw [hhome] at herase
      have hlength : ((s.slot (some p)).erase i).length + 1 ≥ (s.slot (some p)).length := by
        rw [List.length_erase]
        split_ifs <;> omega
      have hmore : 1 < (s.slot (some p)).length := hsel.length
      intro hnil
      rw [herase] at hnil
      rw [hnil, List.length_nil] at hlength
      omega
    · rw [hm.slot_eq, Bins.move_of_ne (by simp [hhome, hpo]) (by simp)]
      exact hne

/-- **The walk with `move_candidate_irqs`.** -/
theorem walk_moveCandidateIrqs_sheds {p p' : State × LoadBalanceInfo} (h : Live p.1) (ho : some o ∈ p.1.slots)
    (hw : Loops.walk (fun p => p.1.slot (some o)) moveCandidateIrqs p = some p') : Sheds p.1 p'.1 := by
  have hunlinks : Loops.UnlinksSelf
      (fun q : State × LoadBalanceInfo =>
        (Live q.1 ∧ some o ∈ q.1.slots ∧ Rearrange {none} p.1 q.1) ∧ Sheds p.1 q.1)
      (fun q => q.1.slot (some o)) moveCandidateIrqs := by
    rintro i q q' ⟨hinv, hsheds⟩ hi hcall
    obtain ⟨hinv', hslot⟩ := (moveCandidateIrqs_shifts o).unlinksSelf p.1 i q q' hinv hi hcall
    refine ⟨⟨hinv', ?_⟩, hslot⟩
    rcases moveCandidateIrqs_cases hcall with rfl | ⟨obj, hsel, rfl⟩
    · exact hsheds
    · exact hsheds.trans (.takeOff hinv.1 ((hinv.1.mem_slot hinv.2.1).1 hi).1 hsel)
  exact (Loops.walk_inv (fun q hq => hq.1.1.slot_nodup hq.1.2.1) hunlinks ⟨⟨h, ho, .refl _⟩, .refl _⟩ hw).2

theorem migrateObjIrqs_sheds {p p' : State × LoadBalanceInfo} (h : Live p.1) (ho : o ∈ p.1.topology)
    (hm : migrateObjIrqs o p = some p') : Sheds p.1 p'.1 := by
  unfold migrateObjIrqs at hm
  dsimp only at hm
  split_ifs at hm with hover
  · have hsort : Sheds p.1 (sortIrqList (some o) p.1) := .sort ho
    rw [forEachIrqOn_eq (sort_interrupts_ne_nil hover.2)] at hm
    refine hsort.trans (walk_moveCandidateIrqs_sheds (by exact hsort.rearrange.live h) ?_ hm)
    exact hsort.rearrange.mem_slots (some_mem_slots.2 ho)
  · cases hm
    exact .refl _

/-- **A pass over the objects of one kind.** -/
theorem findOverloadedObjs_sheds {name : List ObjId} {r : State × LoadBalanceInfo} (h : Live s)
    (hname : ∀ o ∈ name, o ∈ s.topology) (hf : findOverloadedObjs name s = some r) : Sheds s r.1 := by
  refine Loops.foldlM_inv (fun p : State × LoadBalanceInfo => Sheds s p.1) (fun o ho p p' hp hm => ?_) (.refl s) hf
  have ho' : o ∈ p.1.topology := by
    rw [topology_of_static hp.rearrange.static_eq]
    exact hname o ho
  refine hp.trans ?_
  exact migrateObjIrqs_sheds (p := (p.1, countObj p.1 p.2 o)) (hp.rearrange.live h) ho' hm

/-! ### The powersave decision -/

/-- The cpu `z`, if there is one, falls asleep, and its irqs are taken off it. -/
structure Sleeps (z : Option ObjId) (s s' : State) : Prop where
  rearrange : Rearrange {none} s s'
  enabled : z ≠ none → s.opts.powerThresh ≠ ullongMax ∧ 5 < s.cycleCount
  asleep : ∀ k ∈ z, k ∈ s.cpus ∧ (s'.objs k).powersaveMode = true
  home : ∀ i ∈ s.live, s'.home i = s.home i ∨ s'.home i = none ∧ z ≠ none ∧ s.home i = z

/-- Waking cpus up moves nothing. -/
theorem foldl_clearPowersaveMode_home (l : List ObjId) (s : State) : (l.foldl clearPowersaveMode s).home = s.home := by
  induction l generalizing s with
  | nil => rfl
  | cons k l ih => exact ih (clearPowersaveMode s k)

theorem Sleeps.of_home (hr : Rearrange {none} s s') (hhome : s'.home = s.home) : Sleeps none s s' :=
  ⟨hr, fun h => absurd rfl h, by simp, fun _ _ => Or.inl (by rw [hhome])⟩

/-- The irqs of the cpu are taken off it, and no others. -/
theorem walk_forceIrqMigration_home (h : Live s) (ho : some o ∈ s.slots)
    (hw : Loops.walk (fun t => t.slot (some o)) forceIrqMigration s = some s') :
    ∀ i, s'.home i = s.home i ∨ s'.home i = none ∧ s.home i = some o := by
  have hunlinks : Loops.UnlinksSelf
      (fun t => (Live t ∧ some o ∈ t.slots ∧ Rearrange {none} s t) ∧
        ∀ i, t.home i = s.home i ∨ t.home i = none ∧ s.home i = some o)
      (fun t => t.slot (some o)) forceIrqMigration := by
    rintro i t u ⟨hinv, hhome⟩ hi hu
    obtain ⟨hinv', hslot⟩ := (forceIrqMigration_shifts o).unlinksSelf s i t u hinv hi hu
    refine ⟨⟨hinv', fun j => ?_⟩, hslot⟩
    rw [forceIrqMigration_home hinv.1 hinv.2.1 hi hu]
    by_cases hji : j = i
    · subst hji
      rw [Function.update_self]
      have hat : t.home j = some o := ((hinv.1.mem_slot hinv.2.1).1 hi).2
      rcases hhome j with e | ⟨e, -⟩
      · exact Or.inr ⟨rfl, e.symm.trans hat⟩
      · rw [hat] at e
        cases e
    · rw [Function.update_of_ne hji]
      exact hhome j
  exact (Loops.walk_inv (fun t ht => ht.1.1.slot_nodup ht.1.2.1) hunlinks
    ⟨⟨h, ho, .refl s⟩, fun _ => Or.inl rfl⟩ hw).2

/-- **The powersave decision.** -/
theorem updatePowersave_sleeps {info : LoadBalanceInfo} (h : Live s)
    (hinfo : ∀ k, info.powersave = some k → k ∈ s.cpus) (hu : updatePowersave s info = some s') :
    ∃ z, Sleeps z s s' := by
  have hr := updatePowersave_rearrange h hinfo hu
  have hwake : (s.cpus.foldl clearPowersaveMode s).home = s.home := foldl_clearPowersaveMode_home ..
  unfold IrqBalance.updatePowersave at hu
  by_cases hon : s.opts.powerThresh ≠ ullongMax ∧ 5 < s.cycleCount
  · rw [if_pos hon] at hu
    cases hp : info.powersave with
    | none =>
      rw [hp] at hu
      dsimp only at hu
      split_ifs at hu
      · cases hu; exact ⟨none, .of_home hr hwake⟩
      · cases hu; exact ⟨none, .of_home hr rfl⟩
    | some k =>
      rw [hp] at hu
      dsimp only at hu
      have hk := hinfo k hp
      set t := s.modObj k fun o => { o with powersaveMode := true } with ht
      have hasleep : (t.objs k).powersaveMode = true := by rw [ht, State.modObj_objs_self]
      split_ifs at hu with henter hnone
      · rw [← Option.some.inj hu] at hr ⊢
        refine ⟨some k, hr, fun _ => hon, fun _ e => ?_, fun _ _ => Or.inl rfl⟩
        cases e
        exact ⟨hk, hasleep⟩
      · unfold forEachIrq at hu
        rw [forEachIrqOn_eq hnone] at hu
        have hsleep : Rearrange {none} s t := (Rearrange.refl s).sleep hk true
        have hscores : s'.scores = t.scores :=
          Loops.walk_view State.scores (fun _ _ _ hu => forceIrqMigration_scores hu) hu
        have hhome := walk_forceIrqMigration_home (hsleep.live h)
          (hsleep.mem_slots (some_mem_slots.2 (mem_topology_of_cpu hk))) hu
        refine ⟨some k, hr, fun _ => hon, fun _ e => ?_, fun i _ => ?_⟩
        · cases e
          exact ⟨hk, (powersaveMode_of_scores hscores k).trans hasleep⟩
        · rcases hhome i with e | ⟨e, e'⟩
          · exact Or.inl e
          · exact Or.inr ⟨e, Option.some_ne_none k, e'⟩
      · cases hu; exact ⟨none, .of_home hr hwake⟩
      · cases hu; exact ⟨none, .of_home hr rfl⟩
  · rw [if_neg hon] at hu
    cases hu
    exact ⟨none, .of_home hr rfl⟩

/-- **`update_migration_status`**: a pass over the cpus, the powersave decision, and passes over the other objects. -/
theorem updateMigrationStatus_sheds (h : Live s) (hu : updateMigrationStatus s = some s') :
    ∃ u t z, Sheds s u ∧ Sleeps z u t ∧ Sheds t s' ∧ s'.scores = t.scores := by
  obtain ⟨r₁, h₁, hu⟩ := Option.bind_eq_some_iff.1 hu
  obtain ⟨t, h₂, hu⟩ := Option.bind_eq_some_iff.1 hu
  obtain ⟨r₃, h₃, hu⟩ := Option.bind_eq_some_iff.1 hu
  obtain ⟨r₄, h₄, hu⟩ := Option.bind_eq_some_iff.1 hu
  obtain ⟨r₅, h₅, hu⟩ := Option.bind_eq_some_iff.1 hu
  cases hu
  have hmem : ∀ {u : State}, (∀ o ∈ u.cpus, o ∈ u.topology) ∧ (∀ o ∈ u.cacheDomains, o ∈ u.topology) ∧
      (∀ o ∈ u.packages, o ∈ u.topology) ∧ ∀ o ∈ u.numaNodes, o ∈ u.topology := by
    simp_all [State.topology]
  have e₁ := findOverloadedObjs_sheds h hmem.1 h₁
  have live₁ := e₁.rearrange.live h
  obtain ⟨z, e₂⟩ := updatePowersave_sleeps live₁ (fun k hk => by
    rw [cpus_of_static e₁.rearrange.static_eq]
    exact findOverloadedObjs_powersave h₁ k hk) h₂
  have live₂ := e₂.rearrange.live live₁
  have e₃ := findOverloadedObjs_sheds live₂ hmem.2.1 h₃
  have live₃ := e₃.rearrange.live live₂
  have e₄ := findOverloadedObjs_sheds live₃ hmem.2.2.1 h₄
  have e₅ := findOverloadedObjs_sheds (e₄.rearrange.live live₃) hmem.2.2.2 h₅
  refine ⟨r₁.1, t, z, e₁, e₂, e₃.trans (e₄.trans e₅), ?_⟩
  rw [(findOverloadedObjs_counts h₅).1, (findOverloadedObjs_counts h₄).1, (findOverloadedObjs_counts h₃).1]

/-- An object that does not fall asleep keeps an irq. -/
theorem Sleeps.kept {z : Option ObjId} (h : Sleeps z s s') (hlive : Live s) (ho : o ∈ s.topology) (hne : some o ≠ z)
    (hslot : s.slot (some o) ≠ []) : s'.slot (some o) ≠ [] := by
  obtain ⟨i, hi⟩ := List.exists_mem_of_ne_nil _ hslot
  obtain ⟨hi', hhome⟩ := (hlive.mem_slot (some_mem_slots.2 ho)).1 hi
  have hstay : s'.home i = some o := by
    rcases h.home i hi' with e | ⟨-, -, e⟩
    · exact e.trans hhome
    · exact absurd (hhome.symm.trans e) hne
  refine List.ne_nil_of_mem (((h.rearrange.live hlive).mem_slot ?_).2 ⟨?_, hstay⟩)
  · rw [slots_of_static h.rearrange.static_eq]
    exact some_mem_slots.2 ho
  · rwa [live_of_static h.rearrange.static_eq]

/-- Why irqs are queued: one cpu `z` at most falls asleep, and loses all its irqs; what happens to others. -/
structure Reasons (z : Option ObjId) (s s' : State) : Prop where
  enabled : z ≠ none → s.opts.powerThresh ≠ ullongMax ∧ 5 < s.cycleCount
  asleep : ∀ k ∈ z, k ∈ s.cpus ∧ (s'.objs k).powersaveMode = true ∧ s'.slot (some k) = []
  home : ∀ i ∈ s.live, s'.home i = s.home i ∨ s'.home i = none ∧ (z ≠ none ∧ s.home i = z ∨ Balanceable s i)
  kept : ∀ o ∈ s.topology, some o ≠ z → s.slot (some o) ≠ [] → s'.slot (some o) ≠ []

theorem updateMigrationStatus_reasons (hlive : Live s) (h : HomesAwake s) (hu : updateMigrationStatus s = some s') :
    ∃ z, Reasons z s s' := by
  have hawake := h.updateMigrationStatus hlive hu
  obtain ⟨u, t, z, e₁, e₂, e₃, hscores⟩ := updateMigrationStatus_sheds hlive hu
  have live₁ := e₁.rearrange.live hlive
  have live₂ := e₂.rearrange.live live₁
  have hglobals := e₁.rearrange.globals_eq
  refine ⟨z, fun hz => ?_, fun k hk => ?_, fun i hi => ?_, fun o ho hz hne => ?_⟩
  · have henabled : u.globals.opts.powerThresh ≠ ullongMax ∧ 5 < u.globals.cycleCount := e₂.enabled hz
    rwa [hglobals] at henabled
  · obtain ⟨hcpu, hsleep⟩ := e₂.asleep k hk
    have hsleep' : (s'.objs k).powersaveMode = true := by rw [powersaveMode_of_scores hscores, hsleep]
    have hr := e₁.rearrange.trans (e₂.rearrange.trans e₃.rearrange)
    rw [cpus_of_static e₁.rearrange.static_eq] at hcpu
    refine ⟨hcpu, hsleep', hawake.interrupts (hr.live hlive) ?_ hsleep'⟩
    rw [topology_of_static hr.static_eq]
    exact mem_topology_of_cpu hcpu
  · have hi₁ : i ∈ u.live := by rwa [live_of_static e₁.rearrange.static_eq]
    have hi₂ : i ∈ t.live := by rwa [live_of_static e₂.rearrange.static_eq]
    rcases e₃.home i hi₂ with e | ⟨e, hbal⟩
    · rw [e]
      rcases e₂.home i hi₁ with e' | ⟨e', hz, hat⟩
      · rw [e']
        exact (e₁.home i hi).imp_right fun ⟨hnone, hbal⟩ => ⟨hnone, Or.inr hbal⟩
      · refine Or.inr ⟨e', Or.inl ⟨hz, ?_⟩⟩
        rcases e₁.home i hi with e'' | ⟨hnone, -⟩
        · exact e''.symm.trans hat
        · exact absurd (hat.symm.trans hnone) hz
    · exact Or.inr ⟨e, Or.inr (hbal.of_rearrange (e₁.rearrange.trans e₂.rearrange))⟩
  · have ho₁ : o ∈ u.topology := by rwa [topology_of_static e₁.rearrange.static_eq]
    have ho₂ : o ∈ t.topology := by rwa [topology_of_static e₂.rearrange.static_eq]
    exact e₃.kept o ho₂ (e₂.kept live₁ ho₁ hz (e₁.kept o ho hne))

/-- The irqs that have not come since the last snapshot have no load worth mentioning. -/
def QuietSmall (s : State) : Prop :=
  ∀ i ∈ s.live, s.home i ≠ none → (s.irqs i).irqCount = (s.irqs i).lastIrqCount → s.irqLoads i ≤ 1

/-- An irq with an object is in its list. -/
theorem Live.at_home (h : Live s) (hi : i ∈ s.live) (ho : s.home i = some o) :
    o ∈ s.topology ∧ i ∈ (s.objs o).interrupts := by
  have hmem := h.bins.home_mem i hi
  rw [ho] at hmem
  exact ⟨some_mem_slots.1 hmem, (h.mem_slot hmem).2 ⟨hi, ho⟩⟩

theorem Cleared.quietSmall (h : Cleared s) (hlive : Live s) : QuietSmall s := by
  intro i hi hhome _
  obtain ⟨o, ho⟩ := Option.ne_none_iff_exists'.1 hhome
  obtain ⟨hmem, hirq⟩ := hlive.at_home hi ho
  have hload : s.irqLoads i = 0 := h o hmem i hirq
  rw [hload]
  decide

theorem Aggregated.quietSmall (h : Aggregated s) (hlive : Live s) : QuietSmall s := by
  intro i hi hhome hquiet
  obtain ⟨o, ho⟩ := Option.ne_none_iff_exists'.1 hhome
  obtain ⟨hmem, hirq⟩ := hlive.at_home hi ho
  obtain ⟨slice, -, hshared⟩ := h.shared o hmem
  have hload : s.irqLoads i = (s.irqs i).sliced slice := hshared i hirq
  rw [hload]
  unfold IrqInfo.sliced
  simp [hquiet]

/-- Reading `/proc/stat` after the loads were cleared. -/
theorem Live.quietSmall (h : Live s) (hcleared : Cleared s) {file : Option CString.Text}
    (hp : parseProcStat file s = some s') : QuietSmall s' := by
  have hlive := h.of_noLoads (parseProcStat_noLoads hp)
  cases file with
  | none => cases hp; exact hcleared.quietSmall h
  | some text =>
    obtain ⟨r, hr, hp⟩ := Option.bind_eq_some_iff.1 hp
    have hloop := parseStatLoop_noLoads hr
    split_ifs at hp
    · cases hp
      refine (hcleared.congr (topology_of_noLoads hloop) (slot_of_noStats (noStats_of_noLoads hloop)) ?_).quietSmall hlive
      unfold State.irqLoads
      rw [parseStatLoop_irqs hr]
    · obtain ⟨u, hu, hagg, -⟩ := (h.of_noLoads hloop).aggregateStat
      cases hu.symm.trans hp
      exact hagg.quietSmall hlive

/-- **When irqs are selected, those that have not come have no load.** -/
theorem Reach.quietSmall (h : Reach anyStep pc s) (hpc : pc = .rescanTest ∨ pc = .migration) : QuietSmall s := by
  have hphase : pc.phase = .live := by rcases hpc with rfl | rfl <;> rfl
  refine h.live_step (fun pc s => pc = .rescanTest ∨ pc = .migration → QuietSmall s) (fun _ _ => ⟨?_, ?_⟩) ?_ ?_
    hphase hpc
  · simp
  · simp
  · intro env pc pc' s s' hreach hlive hs hexec hpc'
    have hl := hreach.live hlive
    have hready := hreach.loadsReady hlive
    cases pc with
    | loopStat | settleStat =>
      obtain ⟨-, hu⟩ := map_goto hexec
      exact hl.quietSmall hready hu
    | rescanTest =>
      cases hexec
      exact hs (Or.inl rfl)
    | loop =>
      have hnext := exec_next hexec
      rcases hpc' with rfl | rfl <;> cases hkeep : env.keepGoing <;> simp [Pc.next, hkeep] at hnext
    | _ =>
      have hnext := exec_next hexec
      rcases hpc' with rfl | rfl <;> simp [Pc.next] at hnext
  · intro pc s hs hpc
    have hquiet : s.live = (IrqBalance.forceRescan s).live ∧ s.irqs = (IrqBalance.forceRescan s).irqs := by
      unfold IrqBalance.forceRescan
      split_ifs <;> exact ⟨rfl, rfl⟩
    have h := hs hpc
    unfold QuietSmall State.irqLoads State.home at *
    rwa [hquiet.1, hquiet.2] at h

/-- `update_migration_status` leaves an irq alone that has not come, as long as its object is awake. -/
theorem updateMigrationStatus_quiet (hlive : Live s) (h : HomesAwake s) (hsmall : QuietSmall s)
    (hu : updateMigrationStatus s = some s') (hi : i ∈ s.live) (ho : s.home i = some o)
    (hquiet : (s.irqs i).irqCount = (s.irqs i).lastIrqCount) (hawake : (s'.objs o).powersaveMode = false) :
    s'.irqs i = s.irqs i := by
  obtain ⟨z, hz⟩ := updateMigrationStatus_reasons hlive h hu
  have hne : s.home i ≠ none := by simp [ho]
  have hstay : s'.home i = s.home i := by
    rcases hz.home i hi with e | ⟨-, ⟨-, hat⟩ | ⟨-, -, hload⟩⟩
    · exact e
    · have hsleep := (hz.asleep o (hat.symm.trans ho)).2.1
      rw [hawake] at hsleep
      cases hsleep
    · exact absurd hload (UInt64.not_lt.2 (hsmall i hi hne hquiet))
  rcases (updateMigrationStatus_rearrange hlive hu).irq_cases i with e | ⟨-, hnone⟩
  · exact e
  · exact absurd (hstay.symm.trans hnone) hne

/-- **Quiet irqs rest**: in every run, an irq that has been written and has not come since the last snapshot is
neither moved nor written in the cycle, if its object does not fall asleep. -/
theorem quiet_irqs_rest {env₁ env₂ env₃ : Env} {s₁ s₂ s₃ : State} (h : Reach anyStep .migration s)
    (h₁ : exec env₁ .migration s = some (.placement, s₁)) (h₂ : exec env₂ .placement s₁ = some (.activation, s₂))
    (h₃ : exec env₃ .activation s₂ = some (.countCycle, s₃)) (hi : i ∈ s.live) (ho : s.home i = some o)
    (hsettled : s.stage i = .settled) (hquiet : (s.irqs i).irqCount = (s.irqs i).lastIrqCount)
    (hawake : (s₁.objs o).powersaveMode = false) :
    s₃.home i = some o ∧ s₃.stage i = .settled ∧ s.number i ∉ (affinityWrites env₃.procIrq s₂).map Prod.fst := by
  have hlive := h.live rfl
  have hreach₁ := h.exec_any h₁
  have hreach₂ := hreach₁.exec_any h₂
  have hirq₁ : s₁.irqs i = s.irqs i ∧ s₁.static = s.static := by
    unfold exec at h₁
    dsimp only at h₁
    split_ifs at h₁
    · cases h₁
      exact ⟨rfl, rfl⟩
    · obtain ⟨-, hu⟩ := map_goto h₁
      exact ⟨updateMigrationStatus_quiet hlive (h.homesAwake rfl) (h.quietSmall (Or.inr rfl)) hu hi ho hquiet hawake,
        (updateMigrationStatus_rearrange hlive hu).static_eq⟩
  have hi₁ : i ∈ s₁.live := by rwa [live_of_static hirq₁.2]
  obtain ⟨-, hp⟩ := map_goto h₂
  have hstage₁ : s₁.stage i = .settled := (stage_of_irqs hirq₁.1).trans hsettled
  have hirq₂ : s₂.irqs i = s₁.irqs i := calculatePlacement_settled (hreach₁.live rfl) hp hi₁ hstage₁
  have hstatic₂ := (calculatePlacement_rearrange (hreach₁.live rfl) hp).static_eq
  have hstage₂ : s₂.stage i = .settled := (stage_of_irqs hirq₂).trans hstage₁
  have hi₂ : i ∈ s₂.interruptsDb := by
    have hmem : i ∈ s₂.live := by rwa [live_of_static hstatic₂]
    exact hmem.1
  obtain ⟨-, ha⟩ := map_goto h₃
  obtain ⟨hhome₃, hmoved₃⟩ := (hreach₂.live rfl).activateMappings_irqs ha hi₂
  obtain ⟨hhome₂, hmoved₂⟩ := stage_settled.1 hstage₂
  have hsame : s₂.irqs i = s.irqs i := hirq₂.trans hirq₁.1
  have hat : s₂.home i = some o := (home_eq_of_irqs hsame).trans ho
  refine ⟨hhome₃.trans hat, stage_settled.2 ⟨by rw [hhome₃]; exact hhome₂, by rw [hmoved₃, hmoved₂]; rfl⟩, ?_⟩
  have hnumber : s₂.number i = s.number i := congrArg IrqInfo.irq hsame
  rw [← hnumber, (hreach₂.live rfl).written_iff ha hi₂, hstage₂]
  simp

/-- The cycle in which irq 14 is moved; irq 12 has not come. -/
theorem quiet_irqs_rest_threeCpus : ∃ s s' t : State, s.home 2 = some 7 ∧ s.number 2 = 12 ∧
    exec skewedEnv .activation s' = some (.countCycle, t) ∧ t.home 2 = some 7 ∧ t.stage 2 = .settled ∧
    14 ∈ (affinityWrites skewedEnv.procIrq s').map Prod.fst ∧
    12 ∉ (affinityWrites skewedEnv.procIrq s').map Prod.fst := by
  have hrun : (execs (List.replicate 15 quietEnv ++ List.replicate 3 skewedEnv)
      (.start, State.initial {} fun _ => 0)).bind (fun r => (exec skewedEnv r.1 r.2).bind fun r₁ =>
        (exec skewedEnv r₁.1 r₁.2).bind fun r₂ => (exec skewedEnv r₂.1 r₂.2).map fun r₃ =>
          ([r.1, r₁.1, r₂.1, r₃.1], r.2.home 2, r.2.number 2, [decide (2 ∈ r.2.interruptsDb),
            decide ((r.2.irqs 2).level ≠ .none), decide (r.2.stage 2 = .settled),
            decide ((r.2.irqs 2).irqCount = (r.2.irqs 2).lastIrqCount), !(r₁.2.objs 7).powersaveMode,
            decide (14 ∈ (affinityWrites skewedEnv.procIrq r₂.2).map Prod.fst)])) =
      some ([.migration, .placement, .activation, .countCycle], some 7, 12, List.replicate 6 true) := by
    decide +kernel
  obtain ⟨⟨pc, s⟩, hr, hrun⟩ := Option.bind_eq_some_iff.1 hrun
  obtain ⟨⟨pc₁, s₁⟩, h₁, hrun⟩ := Option.bind_eq_some_iff.1 hrun
  obtain ⟨⟨pc₂, s₂⟩, h₂, hrun⟩ := Option.bind_eq_some_iff.1 hrun
  obtain ⟨⟨pc₃, s₃⟩, h₃, e⟩ := Option.map_eq_some_iff.1 hrun
  simp only [Prod.mk.injEq, List.replicate, List.cons.injEq, decide_eq_true_eq, Bool.not_eq_true'] at e
  obtain ⟨⟨rfl, rfl, rfl, rfl, -⟩, hhome, hnumber, hdb, hlevel, hsettled, hquiet, hawake, hwritten, -⟩ := e
  obtain ⟨hhome₃, hstage₃, hnot⟩ := quiet_irqs_rest ((Reach.init {} (fun _ => 0) rfl).execs_any hr) h₁ h₂ h₃
    ⟨hdb, hlevel⟩ hhome hsettled hquiet hawake
  rw [hnumber] at hnot
  exact ⟨s, s₂, s₃, hhome, hnumber, h₃, hhome₃, hstage₃, hwritten, hnot⟩

end IrqBalance

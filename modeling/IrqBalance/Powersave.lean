import IrqBalance.Filing

/-!
# A sleeping cpu holds no irq

`update_migration_status` puts a cpu to sleep and takes all irqs off it; `find_best_object` leaves
sleeping objects out. So every irq that has an object has one that is awake (`HomesAwake`), at every
statement and at every call of the callbacks of `calculate_placement`.
-/

namespace IrqBalance

variable {s s' t : State} {i : IrqId} {a : Option ObjId} {d o k : ObjId}

/-- Every balanced irq that has an object has one that is awake. -/
def HomesAwake (s : State) : Prop :=
  ∀ i ∈ s.live, ∀ o, s.home i = some o → (s.objs o).powersaveMode = false

theorem HomesAwake.interrupts (h : HomesAwake s) (hlive : Live s) (hk : k ∈ s.topology)
    (hsleep : (s.objs k).powersaveMode = true) : (s.objs k).interrupts = [] := by
  rw [List.eq_nil_iff_forall_not_mem]
  intro i hi
  obtain ⟨hi', hhome⟩ := (hlive.mem_slot (some_mem_slots.2 hk)).1 hi
  rw [h i hi' k hhome] at hsleep
  cases hsleep

theorem HomesAwake.congr (h : HomesAwake s) (e : s'.static = s.static) (hhome : s'.home = s.home)
    (hsleep : ∀ o, (s'.objs o).powersaveMode = (s.objs o).powersaveMode) : HomesAwake s' := by
  intro i hi o ho
  rw [live_of_static e] at hi
  rw [hhome] at ho
  rw [hsleep]
  exact h i hi o ho

/-! ### Taking irqs off objects -/

/-- Taking irqs off objects keeps the invariant, as long as no object falls asleep. -/
theorem HomesAwake.takeOff (h : HomesAwake s) (hr : Rearrange {none} s s')
    (hsleep : ∀ o, (s.objs o).powersaveMode = false → (s'.objs o).powersaveMode = false) :
    HomesAwake s' := by
  intro i hi o ho
  rw [live_of_static hr.static_eq] at hi
  rcases hr.home i with e | e
  · exact hsleep o (h i hi o (e ▸ ho))
  · rw [ho] at e
    cases e

theorem powersaveMode_of_scores (e : s'.scores = s.scores) (o : ObjId) :
    (s'.objs o).powersaveMode = (s.objs o).powersaveMode :=
  congrArg Prod.snd (congrFun (congrArg Prod.snd e) o)

/-- A pass over overloaded objects. -/
theorem HomesAwake.findOverloadedObjs {name : List ObjId} {r : State × LoadBalanceInfo}
    (h : HomesAwake s) (hlive : Live s) (hname : ∀ o ∈ name, o ∈ s.topology)
    (hf : findOverloadedObjs name s = some r) : HomesAwake r.1 := by
  refine h.takeOff (findOverloadedObjs_rearrange hlive hname hf) fun o ho => ?_
  rw [powersaveMode_of_scores (findOverloadedObjs_counts hf).1]
  exact ho

theorem forceIrqMigration_scores (h : forceIrqMigration i s = some s') : s'.scores = s.scores := by
  unfold forceIrqMigration at h
  split at h
  · cases h
  · cases h
    exact migrateIrq_scores _ _ _ _

theorem forceIrqMigration_home (hlive : Live s) (ho : some o ∈ s.slots) (hi : i ∈ s.slot (some o))
    (h : forceIrqMigration i s = some s') : s'.home = Function.update s.home i none := by
  obtain ⟨hi', hhome⟩ := (hlive.mem_slot ho).1 hi
  have hmoved := migrateIrq_moved hlive hi' none
  rw [hhome] at hmoved
  have hobj : (s.irqs i).assignedObj = some o := hhome
  unfold forceIrqMigration at h
  rw [hobj] at h
  cases h
  exact hmoved.home_eq

/-- **The walk with `force_irq_migration` takes all irqs off the object.** -/
theorem walk_forceIrqMigration (h : Live s) (ho : some o ∈ s.slots)
    (hw : Loops.walk (fun t => (t.objs o).interrupts) forceIrqMigration s = some s') :
    ∀ i ∈ (s.objs o).interrupts, s'.home i = none := by
  refine Loops.walk_each (fun t ht => ht.1.slot_nodup ht.2.1)
    ((forceIrqMigration_shifts o).unlinksSelf s) (fun _ _ => True) (fun i t => t.home i = none)
    (fun _ _ _ _ _ _ _ _ _ => trivial) ?_ ?_ ⟨h, ho, .refl s⟩ (fun _ _ => trivial) hw
  · rintro i t u ⟨hlive, ha, -⟩ hi - hu
    rw [forceIrqMigration_home hlive ha hi hu, Function.update_self]
  · rintro i j t u hij ⟨hlive, ha, -⟩ hj hi hu
    rw [forceIrqMigration_home hlive ha hj hu, Function.update_of_ne hij]
    exact hi

/-- Waking cpus up puts none to sleep. -/
theorem foldl_clearPowersaveMode_awake (l : List ObjId) (ho : (s.objs o).powersaveMode = false) :
    ((l.foldl clearPowersaveMode s).objs o).powersaveMode = false := by
  induction l generalizing s with
  | nil => exact ho
  | cons k l ih =>
    apply ih
    by_cases hok : o = k
    · rw [hok, clearPowersaveMode, State.modObj_objs_self]
    · rw [clearPowersaveMode, State.modObj_objs_of_ne hok]
      exact ho

/-- A cpu falls asleep, and its irqs are taken off it. -/
theorem HomesAwake.sleep (h : HomesAwake s) (hlive : Live s) (hk : k ∈ s.cpus)
    (hforce : let s := s.modObj k fun o => { o with powersaveMode := true }
      (if (s.objs k).interrupts = [] then some s
        else forEachIrq (fun s => (s.objs k).interrupts) forceIrqMigration s) = some s') :
    HomesAwake s' := by
  dsimp only at hforce
  set t := s.modObj k fun o => { o with powersaveMode := true } with ht
  have hstatic : t.static = s.static := sleep_static s k true
  have htlive : Live t := hlive.congr hstatic (sleep_slot s k true) rfl
  have hkt : some k ∈ t.slots := by
    rw [slots_of_static hstatic]
    exact some_mem_slots.2 (mem_topology_of_cpu hk)
  have hother : ∀ o, o ≠ k → (t.objs o).powersaveMode = (s.objs o).powersaveMode := fun o hok => by
    rw [ht, State.modObj_objs_of_ne hok]
  split_ifs at hforce with hnil
  · rw [← Option.some.inj hforce]
    intro i hi o ho
    by_cases hok : o = k
    · -- the cpu held no irq before
      have hmem : i ∈ (t.objs k).interrupts := (htlive.mem_slot hkt).2 ⟨hi, hok ▸ ho⟩
      rw [hnil] at hmem
      cases hmem
    · rw [hother o hok]
      exact h i (by rw [← live_of_static hstatic]; exact hi) o ho
  · unfold forEachIrq at hforce
    rw [forEachIrqOn_eq hnil] at hforce
    have hr : Rearrange {none} t s' := (forceIrqMigration_shifts k).walk htlive hkt hforce
    have hgone := walk_forceIrqMigration htlive hkt hforce
    have hscores : s'.scores = t.scores :=
      Loops.walk_view State.scores (fun _ _ _ hu => forceIrqMigration_scores hu) hforce
    intro i hi o ho
    rw [live_of_static hr.static_eq] at hi
    rcases hr.home i with e | e
    · have hok : o ≠ k := by
        rintro rfl
        have hmem : i ∈ (t.objs o).interrupts := (htlive.mem_slot hkt).2 ⟨hi, e.symm.trans ho⟩
        rw [hgone i hmem] at ho
        cases ho
      rw [powersaveMode_of_scores hscores, hother o hok]
      exact h i (by rw [← live_of_static hstatic]; exact hi) o (e.symm.trans ho)
    · rw [ho] at e
      cases e

/-- The powersave decision. -/
theorem HomesAwake.updatePowersave {info : LoadBalanceInfo} (h : HomesAwake s) (hlive : Live s)
    (hinfo : ∀ k, info.powersave = some k → k ∈ s.cpus) (hu : updatePowersave s info = some s') :
    HomesAwake s' := by
  have hwake : HomesAwake (s.cpus.foldl clearPowersaveMode s) :=
    h.takeOff (foldl_clearPowersaveMode_rearrange fun _ hk => hk) fun _ ho =>
      foldl_clearPowersaveMode_awake _ ho
  unfold IrqBalance.updatePowersave at hu
  by_cases hon : s.opts.powerThresh ≠ ullongMax ∧ 5 < s.cycleCount
  · rw [if_pos hon] at hu
    cases hp : info.powersave with
    | none =>
      rw [hp] at hu
      dsimp only at hu
      split_ifs at hu
      · cases hu; exact hwake
      · cases hu; exact h
    | some k =>
      rw [hp] at hu
      dsimp only at hu
      by_cases henter : info.numOver = 0 ∧ s.opts.powerThresh.toNat ≤ info.numUnder
      · rw [if_pos henter] at hu
        exact h.sleep hlive (hinfo k hp) hu
      · rw [if_neg henter] at hu
        split_ifs at hu
        · cases hu; exact hwake
        · cases hu; exact h
  · rw [if_neg hon] at hu
    cases hu
    exact h

/-- **`update_migration_status` keeps irqs off sleeping objects.** -/
theorem HomesAwake.updateMigrationStatus (h : HomesAwake s) (hlive : Live s)
    (hu : updateMigrationStatus s = some s') : HomesAwake s' := by
  obtain ⟨r, t, hr, ht, e₁, -, e₃, hscores⟩ := updateMigrationStatus_passes hlive hu
  have hawake : HomesAwake r.1 :=
    h.findOverloadedObjs hlive (fun o ho => mem_topology_of_cpu ho) hr
  have hawake' : HomesAwake t := hawake.updatePowersave (e₁.live hlive) (fun k hk => by
    rw [cpus_of_static e₁.static_eq]
    exact findOverloadedObjs_powersave hr k hk) ht
  refine hawake'.takeOff e₃ fun o ho => ?_
  rw [powersaveMode_of_scores hscores]
  exact ho

/-! ### Placing irqs -/

/-- The calls of `find_best_object_for_irq` for one object. -/
def placeIrqInObjectCalls (s : State) (d : ObjId) : List (IrqId × State) :=
  if (s.objs d).interrupts = [] then []
  else forEachIrqCalls id (fun s => (s.objs d).interrupts) (findBestObjectForIrq d) s

/-- The calls of `find_best_object_for_irq` in a pass over some objects. -/
def placePassCalls (ds : List ObjId) (s : State) : List (IrqId × State) :=
  (Loops.foldCalls placeIrqInObject ds s).flatMap fun c => placeIrqInObjectCalls c.2 c.1

/-- The calls of `place_irq_in_node` and `find_best_object_for_irq` in `calculate_placement`, with the
states they are given. -/
def calculatePlacementCalls (s : State) : List (IrqId × State) :=
  let s := sortIrqList none s
  if s.rebalanceIrqList = [] then []
  else
    forEachIrqCalls id State.rebalanceIrqList placeIrqInNode s ++
    (forEachIrq State.rebalanceIrqList placeIrqInNode s).elim [] fun s =>
    placePassCalls s.numaNodes s ++ (s.numaNodes.foldlM placeIrqInObject s).elim [] fun s =>
    placePassCalls s.packages s ++ (s.packages.foldlM placeIrqInObject s).elim [] fun s =>
    placePassCalls s.cacheDomains s

/-- A callback that keeps the property `I` of states when it is called on an irq of the bin `a`. -/
def Keeps (I : State → Prop) (a : Option ObjId) (cb : IrqId → State → Option State) : Prop :=
  ∀ i t u, Live t → a ∈ t.slots → i ∈ t.slot a → I t → cb i t = some u → I u

/-- The two callbacks of `calculate_placement` keep the property `I` of states. -/
structure KeptByPlacing (I : State → Prop) : Prop where
  toNode : Keeps I none placeIrqInNode
  down : ∀ d, Keeps I (some d) (findBestObjectForIrq d)

section Kept

variable {I : State → Prop}

/-- The walk keeps the property, and each of its calls starts with it. -/
theorem Keeps.walk {cb : IrqId → State → Option State} (hcb : Keeps I a cb)
    (hshifts : ShiftsIn {none}ᶜ id a cb) (h : I s) (hlive : Live s) (ha : a ∈ s.slots) :
    (∀ s', Loops.walk (fun t => t.slot a) cb s = some s' → I s') ∧
      ∀ c ∈ Loops.calls (fun t => t.slot a) cb s, Live c.2 ∧ I c.2 := by
  have hunlinks : Loops.UnlinksSelf
      (fun t => (Live t ∧ a ∈ t.slots ∧ Rearrange {none}ᶜ s t) ∧ I t)
      (fun t => t.slot a) cb := by
    rintro i t u ⟨ht, hkept⟩ hi hu
    obtain ⟨hinv, hslot⟩ := hshifts.unlinksSelf s i t u ht hi hu
    exact ⟨⟨hinv, hcb i t u ht.1 ht.2.1 hi hkept hu⟩, hslot⟩
  have hnd : ∀ t, ((Live t ∧ a ∈ t.slots ∧ Rearrange {none}ᶜ s t) ∧ I t) →
      (t.slot a).Nodup := fun t ht => ht.1.1.slot_nodup ht.1.2.1
  refine ⟨fun s' hw => (Loops.walk_inv hnd hunlinks ⟨⟨hlive, ha, .refl s⟩, h⟩ hw).2,
    fun c hc => ?_⟩
  obtain ⟨⟨hinv, hkept⟩, -⟩ := Loops.mem_calls hnd hunlinks ⟨⟨hlive, ha, .refl s⟩, h⟩ c hc
  exact ⟨hinv.1, hkept⟩

theorem KeptByPlacing.placeIrqInObject (hkept : KeptByPlacing I) (h : I s) (hlive : Live s)
    (hd : d ∈ s.topology) : (∀ s', placeIrqInObject s d = some s' → I s') ∧
      ∀ c ∈ placeIrqInObjectCalls s d, Live c.2 ∧ I c.2 := by
  unfold IrqBalance.placeIrqInObject placeIrqInObjectCalls
  by_cases hnil : (s.objs d).interrupts = []
  · rw [if_pos hnil, if_pos hnil]
    exact ⟨fun s' e => Option.some.inj e ▸ h, fun c hc => absurd hc List.not_mem_nil⟩
  · rw [if_neg hnil, if_neg hnil]
    unfold forEachIrq
    rw [forEachIrqOn_eq hnil, forEachIrqCalls_eq hnil]
    exact (hkept.down d).walk (findBestObjectForIrq_shifts d) h hlive (some_mem_slots.2 hd)

/-- A pass over some objects. -/
theorem KeptByPlacing.placePass {ds : List ObjId} (hkept : KeptByPlacing I) (h : I s) (hlive : Live s)
    (hds : ∀ d ∈ ds, d ∈ s.topology) :
    (∀ s', ds.foldlM IrqBalance.placeIrqInObject s = some s' → Rearrange {none}ᶜ s s' ∧ I s') ∧
      ∀ c ∈ placePassCalls ds s, Live c.2 ∧ I c.2 := by
  have hstep : ∀ d ∈ ds, ∀ t u, Rearrange {none}ᶜ s t ∧ I t →
      IrqBalance.placeIrqInObject t d = some u → Rearrange {none}ᶜ s u ∧ I u := by
    rintro d hd t u ⟨hr, ht⟩ hu
    have hdt : d ∈ t.topology := by
      rw [topology_of_static hr.static_eq]
      exact hds d hd
    exact ⟨hr.trans (placeIrqInObject_spec (hr.live hlive) hdt hu).places.rearrange,
      (hkept.placeIrqInObject ht (hr.live hlive) hdt).1 u hu⟩
  refine ⟨fun s' hs' => Loops.foldlM_inv _ hstep ⟨.refl s, h⟩ hs', fun c hc => ?_⟩
  obtain ⟨⟨d, t⟩, hcall, hc⟩ := List.mem_flatMap.1 hc
  obtain ⟨hd, hr, ht⟩ := Loops.mem_foldCalls _ hstep ⟨.refl s, h⟩ _ hcall
  refine (hkept.placeIrqInObject ht (hr.live hlive) ?_).2 c hc
  rw [topology_of_static hr.static_eq]
  exact hds d hd

/-- **What the callbacks keep, `calculate_placement` keeps, from call to call.** -/
theorem KeptByPlacing.calculatePlacement (hkept : KeptByPlacing I) (h : I (sortIrqList none s))
    (hlive : Live s) : (∀ s', calculatePlacement s = some s' → I s') ∧
      ∀ c ∈ calculatePlacementCalls s, Live c.2 ∧ I c.2 := by
  have live₀ := hlive.sort none
  unfold IrqBalance.calculatePlacement calculatePlacementCalls
  dsimp only
  by_cases hnil : (sortIrqList none s).rebalanceIrqList = []
  · rw [if_pos hnil, if_pos hnil]
    exact ⟨fun s' e => Option.some.inj e ▸ h, fun c hc => absurd hc List.not_mem_nil⟩
  rw [if_neg hnil, if_neg hnil]
  obtain ⟨hnode, hnodeCalls⟩ := hkept.toNode.walk placeIrqInNode_shifts h live₀ (none_mem_slots _)
  have hwalk := placeIrqsInNode_eq hnil
  have hcalls : forEachIrqCalls id State.rebalanceIrqList placeIrqInNode (sortIrqList none s) =
      Loops.calls (fun t => t.slot none) placeIrqInNode (sortIrqList none s) :=
    forEachIrqCalls_eq hnil
  have hpass : ∀ {t : State}, Live t →
      (∀ d ∈ t.numaNodes, d ∈ t.topology) ∧ (∀ d ∈ t.packages, d ∈ t.topology) ∧
        ∀ d ∈ t.cacheDomains, d ∈ t.topology := fun _ => by simp_all [State.topology]
  constructor
  · intro s' hs'
    obtain ⟨s₁, h₁, hs'⟩ := Option.bind_eq_some_iff.1 hs'
    obtain ⟨s₂, h₂, hs'⟩ := Option.bind_eq_some_iff.1 hs'
    obtain ⟨s₃, h₃, hs'⟩ := Option.bind_eq_some_iff.1 hs'
    have live₁ := (placeIrqsInNode_spec live₀ hnil h₁).places.rearrange.live live₀
    rw [hwalk] at h₁
    obtain ⟨r₂, a₂⟩ := (hkept.placePass (hnode s₁ h₁) live₁ (hpass live₁).1).1 s₂ h₂
    obtain ⟨r₃, a₃⟩ := (hkept.placePass a₂ (r₂.live live₁) (hpass (r₂.live live₁)).2.1).1 s₃ h₃
    exact ((hkept.placePass a₃ (r₃.live (r₂.live live₁)) (hpass (r₃.live (r₂.live live₁))).2.2).1 s' hs').2
  · intro c hc
    simp only [List.mem_append, Loops.mem_elim] at hc
    rcases hc with hc | ⟨s₁, h₁, hc⟩
    · rw [hcalls] at hc
      exact hnodeCalls c hc
    have live₁ := (placeIrqsInNode_spec live₀ hnil h₁).places.rearrange.live live₀
    rw [hwalk] at h₁
    obtain ⟨pass₂, calls₂⟩ := hkept.placePass (hnode s₁ h₁) live₁ (hpass live₁).1
    rcases hc with hc | ⟨s₂, h₂, hc⟩
    · exact calls₂ c hc
    obtain ⟨r₂, a₂⟩ := pass₂ s₂ h₂
    have live₂ := r₂.live live₁
    obtain ⟨pass₃, calls₃⟩ := hkept.placePass a₂ live₂ (hpass live₂).2.1
    rcases hc with hc | ⟨s₃, h₃, hc⟩
    · exact calls₃ c hc
    obtain ⟨r₃, a₃⟩ := pass₃ s₃ h₃
    have live₃ := r₃.live live₂
    exact (hkept.placePass a₃ live₃ (hpass live₃).2.2).2 c hc

end Kept

/-- An eligible object is awake. -/
theorem awake_of_eligible (h : ineligible s i o = false) : (s.objs o).powersaveMode = false := by
  unfold ineligible at h
  dsimp only at h
  rw [Bool.or_eq_false_iff] at h
  exact h.2

/-- Moving an irq to an object that is awake keeps the invariant. -/
theorem HomesAwake.moved (h : HomesAwake s) (ho : (s.objs o).powersaveMode = false)
    (hm : Moved i (some o) s s') : HomesAwake s' := by
  intro j hj p hp
  rw [live_of_static hm.static_eq] at hj
  rw [powersaveMode_of_unmoved hm.unmoved_eq]
  rw [hm.home_eq] at hp
  by_cases hji : j = i
  · rw [hji, Function.update_self, Option.some.injEq] at hp
    rwa [← hp]
  · rw [Function.update_of_ne hji] at hp
    exact h j hj p hp

theorem homesAwake_kept : KeptByPlacing HomesAwake where
  toNode := by
    intro i t u hlive _ hi h hu
    rcases placeIrqInNode_cases hlive hi hu with ⟨rfl, -⟩ | ⟨hin, hm⟩
    · exact h
    · exact h.moved (awake_of_eligible hin) hm
  down := by
    intro d i t u hlive ha hi h hu
    rcases findBestObjectForIrq_cases hlive (some_mem_slots.1 ha) hi hu with ⟨rfl, -⟩ | ⟨c, -, hin, -, hm⟩
    · exact h
    · exact h.moved (awake_of_eligible hin) hm

/-- **`calculate_placement` keeps irqs off sleeping objects, from call to call.** -/
theorem HomesAwake.calculatePlacement (h : HomesAwake s) (hlive : Live s) :
    (∀ s', calculatePlacement s = some s' → HomesAwake s') ∧
      ∀ c ∈ calculatePlacementCalls s, Live c.2 ∧ HomesAwake c.2 :=
  homesAwake_kept.calculatePlacement (h.congr (static_sortIrqList none s) (sort_home s none)
    (powersaveMode_of_unmoved (setSlot_unmoved ..))) hlive

/-! ### Runs -/

/-- In every run irqs are kept off sleeping objects. -/
theorem Reach.homesAwake {A : Env → Pc → State → Prop} {pc : Pc} (h : Reach A pc s)
    (hpc : pc.phase = .live) : HomesAwake s := by
  refine h.live_inv HomesAwake ?_ ?_ ?_ ?_ ?_ hpc
  · intro s hs i hi o ho
    have hnew : (s.irqs i).assignedObj = none := (hs.isNew i hi.1).assignedObj
    have hsome : (s.irqs i).assignedObj = some o := ho
    rw [hnew] at hsome
    cases hsome
  · intro s s' _ hs e
    exact hs.congr (static_of_quiet e) (home_of_quiet e) fun o =>
      show (s'.quiet.objs o).powersaveMode = (s.quiet.objs o).powersaveMode by rw [e]
  · exact fun _ _ _ _ hlive hs hu => hs.updateMigrationStatus hlive hu
  · exact fun _ _ _ _ hlive hs hp => (hs.calculatePlacement hlive).1 _ hp
  · intro env s s' _ _ hs ha
    have e := activateMappings_unactivated ha
    exact hs.congr (static_of_unactivated e) (home_of_unactivated e) fun o =>
      show (s'.unactivated.objs o).powersaveMode = (s.unactivated.objs o).powersaveMode by rw [e]

/-- A cpu in powersave mode holds no irq. -/
def State.SleepersEmpty (s : State) : Prop :=
  ∀ k ∈ s.cpus, (s.objs k).powersaveMode = true → (s.objs k).interrupts = []

theorem HomesAwake.sleepersEmpty (h : HomesAwake s) (hlive : Live s) : s.SleepersEmpty :=
  fun _ hk hsleep => h.interrupts hlive (mem_topology_of_cpu hk) hsleep

theorem Built.sleepersEmpty (h : Built s) : s.SleepersEmpty :=
  fun k hk _ => h.interrupts k (mem_topology_of_cpu hk)

theorem State.SleepersEmpty.of_quiet (h : s.SleepersEmpty) (e : s'.quiet = s.quiet) :
    s'.SleepersEmpty := by
  intro k hk hsleep
  have hcpus : s'.cpus = s.cpus := cpus_of_static (static_of_quiet e)
  have hpower : (s'.objs k).powersaveMode = (s.objs k).powersaveMode :=
    show (s'.quiet.objs k).powersaveMode = (s.quiet.objs k).powersaveMode by rw [e]
  have hslot : s'.slot (some k) = s.slot (some k) := by rw [slot_of_quiet e]
  exact hslot.trans (h k (hcpus ▸ hk) (hpower ▸ hsleep))

/-- **In every run cpus in powersave mode hold no irq.** -/
theorem Reach.sleepersEmpty {A : Env → Pc → State → Prop} {pc : Pc} (h : Reach A pc s) :
    s.SleepersEmpty := by
  refine h.everywhere ?_ (fun _ hs => hs.sleepersEmpty) ?_ fun _ _ hs e => hs.of_quiet e
  · intro s hs k hk
    rw [hs.treeless.cpus] at hk
    cases hk
  · exact fun pc s hr hpc => (hr.homesAwake hpc).sleepersEmpty (hr.live hpc)

/-- **A cpu in powersave mode holds no irq**: in every state of every run, and in the states that the
callbacks of `calculate_placement` are given. -/
theorem sleepers_hold_nothing (pc : Pc) (s : State) (h : Reach anyStep pc s) :
    s.SleepersEmpty ∧ (pc = .placement → ∀ c ∈ calculatePlacementCalls s, c.2.SleepersEmpty) := by
  refine ⟨h.sleepersEmpty, ?_⟩
  rintro rfl c hc
  obtain ⟨hlive, hawake⟩ := ((h.homesAwake rfl).calculatePlacement (h.live rfl)).2 c hc
  exact hawake.sleepersEmpty hlive

/-- The machine with two cpus, with `--powerthresh=1`, at the placement of the seventh cycle: the first
cpu sleeps, and its irq waits in `rebalance_irq_list`. -/
theorem sleepers_hold_nothing_seventh : ∃ s, 1 ∈ s.cpus ∧ (s.objs 1).powersaveMode = true ∧
    (s.objs 1).interrupts = [] ∧ calculatePlacementCalls s ≠ [] ∧
      ∀ c ∈ calculatePlacementCalls s, c.2.SleepersEmpty := by
  have hrun : (execs (List.replicate 64 twoCpusEnv)
      (.start, State.initial { powerThresh := 1 } fun _ => 0)).map (fun r =>
        (r.1, r.2.cpus, (r.2.objs 1).powersaveMode, (calculatePlacementCalls r.2).isEmpty)) =
      some (.placement, [1, 4], true, false) := by
    decide +kernel
  obtain ⟨⟨pc, s⟩, hr, e⟩ := Option.map_eq_some_iff.1 hrun
  simp only [Prod.mk.injEq, List.isEmpty_eq_false_iff] at e
  obtain ⟨rfl, hcpus, hsleep, hcalls⟩ := e
  have hk : 1 ∈ s.cpus := by rw [hcpus]; exact List.mem_cons_self
  obtain ⟨hnow, hthen⟩ := sleepers_hold_nothing .placement s
    ((Reach.init { powerThresh := 1 } (fun _ => 0) rfl).execs_any hr)
  exact ⟨s, hk, hsleep, hnow 1 hk hsleep, hcalls, hthen rfl⟩

end IrqBalance

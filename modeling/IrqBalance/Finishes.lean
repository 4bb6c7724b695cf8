import IrqBalance.SoleTarget

/-!
# Placement finishes the job

In a tree without empty containers, whose masks are the unions of the masks beneath them, no choice of
`find_best_object` leads into a dead end: whatever child it takes, a cpu that the hint of the irq allows
is beneath it. So every irq of `rebalance_irq_list` ends at an object of the kind its level names.
-/

namespace IrqBalance

variable {s s' t : State} {i : IrqId} {d o k : ObjId}

/-! ### No search fails -/

/-- The search fails only where it compares the largest number with itself. -/
theorem findBest_isSome (s : State) (i : IrqId) {objs : List ObjId} (hload : ∀ o ∈ objs, (s.objs o).load ≠ ullongMax) :
    ∃ place, findBest s i objs = some place := by
  have hstep : ∀ d ∈ objs, ∀ best : ObjPlacement, (best.best = none → best.bestCost = ullongMax) →
      ∃ best', findBestObject s best d = some best' ∧
        (best'.best = none → best'.bestCost = ullongMax) := by
    intro d hd best hbest
    unfold findBestObject
    by_cases hin : ineligible s best.info d = true
    · rw [if_pos hin]
      exact ⟨best, rfl, hbest⟩
    · rw [if_neg hin]
      dsimp only
      split_ifs with hlt heq
      · exact ⟨_, rfl, fun hnone => by cases hnone⟩
      · cases hold : best.best with
        | none => exact absurd (heq.trans (hbest hold)) (hload d hd)
        | some b =>
          dsimp only
          split_ifs
          · exact ⟨_, rfl, fun hnone => by cases hnone⟩
          · exact ⟨best, rfl, hbest⟩
      · exact ⟨best, rfl, hbest⟩
  obtain ⟨place, hplace, -⟩ := Loops.foldlM_isSome _ hstep (s := ⟨none, ullongMax, i⟩) fun _ => rfl
  exact ⟨place, hplace⟩

theorem placeIrqInNode_isSome (h : Live s) (hi : i ∈ s.slot none)
    (hload : ∀ o ∈ s.topology, (s.objs o).load ≠ ullongMax) : ∃ s', placeIrqInNode i s = some s' := by
  obtain ⟨hi', -⟩ := (h.mem_slot (none_mem_slots s)).1 hi
  have hnuma := h.db.numaNode i hi'.1
  obtain ⟨place, hplace⟩ := findBest_isSome s i fun (o : ObjId) (ho : o ∈ s.numaNodes) =>
    hload o (by simp [State.topology, ho])
  unfold placeIrqInNode
  rw [if_neg fun hl => hi'.2 hl.1]
  dsimp only
  rw [hnuma]
  dsimp only
  rw [if_pos h.topo.nodeNumber, hplace, Option.bind_eq_bind, Option.bind_some]
  cases place.best with
  | none => exact ⟨_, rfl⟩
  | some asign => exact ⟨_, rfl⟩

theorem findBestObjectForIrq_isSome (hload : ∀ o ∈ s.kids d, (s.objs o).load ≠ ullongMax) :
    ∃ s', findBestObjectForIrq d i s = some s' := by
  obtain ⟨place, hplace⟩ := findBest_isSome s i hload
  change findBest s i (s.objs d).children = some place at hplace
  unfold findBestObjectForIrq
  split_ifs
  · exact ⟨_, rfl⟩
  · exact ⟨_, rfl⟩
  · rw [hplace, Option.bind_eq_bind, Option.bind_some]
    cases place.best with
    | none => exact ⟨_, rfl⟩
    | some asign => exact ⟨_, rfl⟩

/-- At none of the calls a load has reached `2 ^ 64 - 1`. -/
def LoadsFit (calls : List (IrqId × State)) : Prop :=
  ∀ c ∈ calls, ∀ o ∈ c.2.topology, (c.2.objs o).load ≠ ullongMax

instance (calls : List (IrqId × State)) : Decidable (LoadsFit calls) :=
  inferInstanceAs (Decidable (∀ c ∈ calls, ∀ o ∈ c.2.topology, (c.2.objs o).load ≠ ullongMax))

theorem ShiftsIn.walk_isSome {a : Option ObjId} {cb : IrqId → State → Option State}
    (hcb : ShiftsIn {none}ᶜ id a cb) (h : Live s) (ha : a ∈ s.slots)
    (hcalls : ∀ c ∈ Loops.calls (fun t => t.slot a) cb s, Live c.2 → a ∈ c.2.slots →
      c.1 ∈ c.2.slot a → ∃ t, cb c.1 c.2 = some t) :
    ∃ s', Loops.walk (fun t => t.slot a) cb s = some s' := by
  refine Loops.walk_isSome (fun t ht => ht.1.slot_nodup ht.2.1) (hcb.unlinksSelf s) ⟨h, ha, .refl s⟩
    fun c hc => ?_
  obtain ⟨hlive, hslots, hmem⟩ := hcb.mem_calls (by exact h) (by exact ha) c hc
  exact hcalls c hc hlive hslots hmem

theorem placeIrqInObject_isSome (h : Live s) (hd : d ∈ s.topology)
    (hfit : LoadsFit (placeIrqInObjectCalls s d)) : ∃ s', placeIrqInObject s d = some s' := by
  unfold placeIrqInObjectCalls at hfit
  unfold placeIrqInObject
  by_cases hnil : (s.objs d).interrupts = []
  · rw [if_pos hnil]
    exact ⟨s, rfl⟩
  · rw [if_neg hnil, forEachIrqCalls_eq hnil] at hfit
    rw [if_neg hnil]
    unfold forEachIrq
    rw [forEachIrqOn_eq hnil]
    exact (findBestObjectForIrq_shifts d).walk_isSome h (some_mem_slots.2 hd) fun c hc hlive ha _ =>
      findBestObjectForIrq_isSome fun o ho =>
        hfit c hc o (hlive.topo.mem_topology_of_kid (some_mem_slots.1 ha) ho)

theorem placePass_isSome {ds : List ObjId} (h : Live s) (hds : ∀ d ∈ ds, d ∈ s.topology)
    (hfit : LoadsFit (placePassCalls ds s)) : ∃ s', ds.foldlM placeIrqInObject s = some s' := by
  apply Loops.foldlM_isSome_of_calls
  intro c hc
  have hstep : ∀ d ∈ ds, ∀ t u, Rearrange {none}ᶜ s t → placeIrqInObject t d = some u →
      Rearrange {none}ᶜ s u := fun d hd t u ht hu =>
    ht.trans (placeIrqInObject_spec (ht.live h)
      (by rw [topology_of_static ht.static_eq]; exact hds d hd) hu).places.rearrange
  obtain ⟨hd, ht⟩ := Loops.mem_foldCalls _ hstep (.refl s) c hc
  refine placeIrqInObject_isSome (ht.live h) ?_ fun c' hc' => hfit c' (List.mem_flatMap.2 ⟨c, hc, hc'⟩)
  rw [topology_of_static ht.static_eq]
  exact hds _ hd

/-- **`calculate_placement` returns, if no load reaches `2 ^ 64 - 1` on the way.** -/
theorem calculatePlacement_isSome (h : Live s) (hfit : LoadsFit (calculatePlacementCalls s)) :
    ∃ s', calculatePlacement s = some s' := by
  have live₀ := h.sort none
  unfold calculatePlacementCalls at hfit
  unfold calculatePlacement
  dsimp only at hfit ⊢
  by_cases hnil : (sortIrqList none s).rebalanceIrqList = []
  · rw [if_pos hnil]
    exact ⟨_, rfl⟩
  rw [if_neg hnil] at hfit ⊢
  have hpart : ∀ {l l' : List (IrqId × State)}, LoadsFit (l ++ l') → LoadsFit l ∧ LoadsFit l' :=
    fun hl => ⟨fun c hc => hl c (List.mem_append_left _ hc),
      fun c hc => hl c (List.mem_append_right _ hc)⟩
  obtain ⟨fit₁, hfit⟩ := hpart hfit
  -- the node
  have hnode : ∃ s₁, forEachIrq State.rebalanceIrqList placeIrqInNode (sortIrqList none s) = some s₁ := by
    have hcalls : forEachIrqCalls id State.rebalanceIrqList placeIrqInNode (sortIrqList none s) =
        Loops.calls (fun t => t.slot none) placeIrqInNode (sortIrqList none s) := forEachIrqCalls_eq hnil
    rw [hcalls] at fit₁
    rw [placeIrqsInNode_eq hnil]
    exact placeIrqInNode_shifts.walk_isSome live₀ (none_mem_slots _) fun c hc hlive _ hmem =>
      placeIrqInNode_isSome hlive hmem (fit₁ c hc)
  obtain ⟨s₁, h₁⟩ := hnode
  have live₁ := (placeIrqsInNode_spec live₀ hnil h₁).places.rearrange.live live₀
  rw [h₁] at hfit ⊢
  obtain ⟨fit₂, hfit⟩ := hpart hfit
  -- the node's irqs, the packages' and the cache domains'
  have hnext : ∀ {t u : State} {ds : List ObjId}, Live t → (∀ d ∈ ds, d ∈ t.topology) →
      ds.foldlM placeIrqInObject t = some u → Live u := fun ht hds hu =>
    Loops.foldlM_inv (fun u => Rearrange {none}ᶜ _ u) (fun d hd t' u' hr hu' =>
      hr.trans (placeIrqInObject_spec (hr.live ht)
        (by rw [topology_of_static hr.static_eq]; exact hds d hd) hu').places.rearrange)
      (.refl _) hu |>.live ht
  have hnodes : ∀ d ∈ s₁.numaNodes, d ∈ s₁.topology := fun d hd => by simp [State.topology, hd]
  obtain ⟨s₂, h₂⟩ := placePass_isSome live₁ hnodes fit₂
  have live₂ := hnext live₁ hnodes h₂
  rw [Option.bind_eq_bind, Option.bind_some, h₂]
  rw [h₂] at hfit
  obtain ⟨fit₃, hfit⟩ := hpart hfit
  have hpackages : ∀ d ∈ s₂.packages, d ∈ s₂.topology := fun d hd => by simp [State.topology, hd]
  obtain ⟨s₃, h₃⟩ := placePass_isSome live₂ hpackages fit₃
  have live₃ := hnext live₂ hpackages h₃
  rw [Option.bind_some, h₃]
  rw [h₃] at hfit
  exact placePass_isSome live₃ (fun d hd => by simp [State.topology, hd]) hfit

/-! ### No dead end -/

/-- The union of the masks of some objects. -/
def State.maskUnion (s : State) (l : List ObjId) : Cpumask := l.foldr (fun k m => s.masks k ||| m) 0

theorem State.and_maskUnion {hint : Cpumask} {l : List ObjId} :
    hint &&& s.maskUnion l ≠ 0 ↔ ∃ k ∈ l, hint &&& s.masks k ≠ 0 := by
  induction l with
  | nil => simp [State.maskUnion]
  | cons k l ih =>
    rw [List.exists_mem_cons_iff, ← ih]
    change hint &&& (s.masks k ||| s.maskUnion l) ≠ 0 ↔ _
    rw [BitVec.and_or_distrib_left]
    exact (not_congr BitVec.or_eq_zero_iff).trans not_and_or

/-- The tree has no empty container, and the mask of a container is the union of the masks of the cpus
beneath it. -/
structure TreeComplete (s : State) : Prop where
  package_kids : ∀ p ∈ s.packages, s.kids p ≠ []
  cache_kids : ∀ c ∈ s.cacheDomains, s.kids c ≠ []
  package_mask : ∀ p ∈ s.packages, s.masks p = s.maskUnion ((s.kids p).flatMap s.kids)
  cache_mask : ∀ c ∈ s.cacheDomains, s.masks c = s.maskUnion (s.kids c)

instance : Decidable (TreeComplete s) :=
  decidable_of_iff
    ((∀ p ∈ s.packages, s.kids p ≠ []) ∧ (∀ c ∈ s.cacheDomains, s.kids c ≠ []) ∧
      (∀ p ∈ s.packages, s.masks p = s.maskUnion ((s.kids p).flatMap s.kids)) ∧
      ∀ c ∈ s.cacheDomains, s.masks c = s.maskUnion (s.kids c))
    ⟨fun ⟨h₁, h₂, h₃, h₄⟩ => ⟨h₁, h₂, h₃, h₄⟩, fun h =>
      ⟨h.package_kids, h.cache_kids, h.package_mask, h.cache_mask⟩⟩

/-- The hint of the irq, where the SUBSET policy applies, allows a cpu of the tree. -/
def HintMeetsCpu (s : State) (i : IrqId) : Prop :=
  (s.irqs i).hintPolicy ≠ .subset ∨ (s.irqs i).affinityHint = 0 ∨
    ∃ k ∈ s.cpus, (s.irqs i).affinityHint &&& s.masks k ≠ 0

instance : Decidable (HintMeetsCpu s i) := inferInstanceAs (Decidable (_ ∨ _ ∨ _))

/-- The hint of the irq, where the SUBSET policy applies, allows the object. -/
def Allows (s : State) (i : IrqId) (o : ObjId) : Prop :=
  (s.irqs i).hasHint .subset = true → (s.irqs i).affinityHint &&& s.masks o ≠ 0

theorem allows_iff : Allows s i o ↔ ¬HintMisses s i o := by
  unfold Allows HintMisses State.masks
  tauto

/-- Where some objects cover another, one of them is allowed if the other is. -/
theorem Allows.exists_mem {l : List ObjId} (h : Allows s i o) (hl : l ≠ [])
    (hmask : s.masks o = s.maskUnion l) : ∃ k ∈ l, Allows s i k := by
  by_cases hhint : (s.irqs i).hasHint .subset = true
  · have hmeets := h hhint
    rw [hmask, State.and_maskUnion] at hmeets
    obtain ⟨k, hk, hmeets⟩ := hmeets
    exact ⟨k, hk, fun _ => hmeets⟩
  · exact ⟨l.head hl, List.head_mem hl, fun hhint' => absurd hhint' hhint⟩

/-- An object is allowed if one of the objects that cover it is. -/
theorem Allows.of_mem {l : List ObjId} (hk : k ∈ l) (h : Allows s i k)
    (hmask : s.masks o = s.maskUnion l) : Allows s i o := by
  intro hhint
  rw [hmask, State.and_maskUnion]
  exact ⟨k, hk, h hhint⟩

theorem HintMeetsCpu.exists_cpu (h : HintMeetsCpu s i) (hcpus : s.cpus ≠ []) :
    ∃ k ∈ s.cpus, Allows s i k := by
  rcases h with hpolicy | hempty | ⟨k, hk, hmeets⟩
  · exact ⟨s.cpus.head hcpus, List.head_mem hcpus, fun hhint => absurd hhint (by
      simp [IrqInfo.hasHint, hpolicy])⟩
  · exact ⟨s.cpus.head hcpus, List.head_mem hcpus, fun hhint => absurd hhint (by
      simp [IrqInfo.hasHint, cpusEmpty, hempty])⟩
  · exact ⟨k, hk, fun _ => hmeets⟩

namespace TreeComplete

/-- A package above an allowed cpu. -/
theorem exists_package (h : TreeComplete s) (htopo : TopoWf s) (hk : k ∈ s.cpus) (hallow : Allows s i k) :
    ∃ p ∈ s.packages, Allows s i p := by
  obtain ⟨c, hc, -, hkc⟩ := htopo.in_cache k hk
  obtain ⟨p, hp, -, hcp⟩ := htopo.in_package c hc
  exact ⟨p, hp, hallow.of_mem (List.mem_flatMap.2 ⟨c, hcp, hkc⟩) (h.package_mask p hp)⟩

/-- A cache domain beneath an allowed package. -/
theorem exists_cache (h : TreeComplete s) (htopo : TopoWf s) (ho : o ∈ s.packages) (hallow : Allows s i o) :
    ∃ c ∈ s.kids o, Allows s i c := by
  have hne : (s.kids o).flatMap s.kids ≠ [] := by
    obtain ⟨c, hc⟩ := List.exists_mem_of_ne_nil _ (h.package_kids o ho)
    obtain ⟨k, hk⟩ := List.exists_mem_of_ne_nil _ (h.cache_kids c (htopo.package_kids o ho c hc))
    exact List.ne_nil_of_mem (List.mem_flatMap.2 ⟨c, hc, hk⟩)
  obtain ⟨k, hk, hallow⟩ := hallow.exists_mem hne (h.package_mask o ho)
  obtain ⟨c, hc, hkc⟩ := List.mem_flatMap.1 hk
  exact ⟨c, hc, hallow.of_mem hkc (h.cache_mask c (htopo.package_kids o ho c hc))⟩

/-- A cpu beneath an allowed cache domain. -/
theorem exists_cpu (h : TreeComplete s) (ho : o ∈ s.cacheDomains) (hallow : Allows s i o) :
    ∃ k ∈ s.kids o, Allows s i k :=
  hallow.exists_mem (h.cache_kids o ho) (h.cache_mask o ho)

end TreeComplete

/-! ### Where the irqs end -/

/-- The type of the objects that a level names. -/
def BalanceLevel.objType : BalanceLevel → ObjType
  | .none => .node
  | .package => .package
  | .cache => .cache
  | .core => .cpu

theorem staysAt_iff {t : ObjType} {level : BalanceLevel} : staysAt t level = true ↔ t = level.objType := by
  cases t <;> cases level <;> decide

/-- An allowed object below the node is eligible while all cpus are awake. -/
theorem Allows.eligible (h : Allows s i o) (hsleep : OnlyCpusSleep s)
    (hawake : ∀ k ∈ s.cpus, (s.objs k).powersaveMode = false) (ho : o ∈ s.topology)
    (htype : (s.objs o).objType ≠ .node) : ineligible s i o = false := by
  rw [← Bool.not_eq_true, ineligible_iff htype, not_or]
  refine ⟨allows_iff.1 h, fun hpower => ?_⟩
  rw [hawake o (hsleep o ho hpower)] at hpower
  cases hpower

/-- An eligible object below the node is allowed. -/
theorem allows_of_eligible (htype : (s.objs o).objType ≠ .node) (hin : ineligible s i o = false) :
    Allows s i o := by
  rw [← Bool.not_eq_true, ineligible_iff htype, not_or] at hin
  exact allows_iff.2 hin.1

/-- No irq is stuck above an allowed object while all cpus are awake. -/
theorem not_stuck {l : List ObjId} (hsleep : OnlyCpusSleep s)
    (hawake : ∀ k ∈ s.cpus, (s.objs k).powersaveMode = false)
    (hl : ∀ c ∈ l, c ∈ s.topology ∧ (s.objs c).objType ≠ .node) (hallow : ∃ c ∈ l, Allows s i c) :
    ¬ ∀ c ∈ l, ineligible s i c = true := by
  intro hstuck
  obtain ⟨c, hc, hallow⟩ := hallow
  have hin := hallow.eligible hsleep hawake (hl c hc).1 (hl c hc).2
  rw [hstuck c hc] at hin
  cases hin

/-- An irq that the tree has a cpu for lands at an object of the type its level names. -/
theorem TreeComplete.lands (h : TreeComplete s) (htopo : TopoWf s) (hsleep : OnlyCpusSleep s)
    (hawake : ∀ k ∈ s.cpus, (s.objs k).powersaveMode = false) (hk : k ∈ s.cpus) (hallow : Allows s i k)
    (hlevel : (s.irqs i).level ≠ .none) (hlands : Lands s i unspecifiedNode o) :
    o ∈ s.topology ∧ (s.objs o).objType = (s.irqs i).level.objType ∧ Allows s i o := by
  have hpackage : ∀ p ∈ s.packages, p ∈ s.topology ∧ (s.objs p).objType ≠ .node := fun p hp =>
    ⟨(mem_topology htopo).2 (Or.inr (Or.inl hp)), by rw [(htopo.isPackage p hp).objType]; decide⟩
  have hcache : ∀ c ∈ s.cacheDomains, c ∈ s.topology ∧ (s.objs c).objType ≠ .node := fun c hc =>
    ⟨(mem_topology htopo).2 (Or.inr (Or.inr (Or.inl hc))), by rw [(htopo.isCache c hc).objType]; decide⟩
  have hcpu : ∀ k ∈ s.cpus, k ∈ s.topology ∧ (s.objs k).objType ≠ .node := fun k hk =>
    ⟨(mem_topology htopo).2 (Or.inr (Or.inr (Or.inr hk))), by rw [(htopo.isCpu k hk).objType]; decide⟩
  cases hlands with
  | stays hstay =>
    rw [staysAt_iff, htopo.nodeType] at hstay
    cases hl : (s.irqs i).level <;> simp [hl, BalanceLevel.objType] at hstay hlevel
  | stuck hstuck =>
    rw [htopo.node_kids] at hstuck
    exact absurd hstuck (not_stuck hsleep hawake hpackage (h.exists_package htopo hk hallow))
  | @down _ p _ _ hp hinp hlands =>
    rw [htopo.node_kids] at hp
    have hpp := hpackage p hp
    have hallow := allows_of_eligible hpp.2 hinp
    cases hlands with
    | stays hstay => exact ⟨hpp.1, staysAt_iff.1 hstay, hallow⟩
    | stuck hstuck =>
      exact absurd hstuck (not_stuck hsleep hawake
        (fun c hc => hcache c (htopo.package_kids _ hp c hc)) (h.exists_cache htopo hp hallow))
    | @down _ c _ hstay hc hinc hlands =>
      have hcm := htopo.package_kids p hp c hc
      have hcc := hcache c hcm
      have hallow := allows_of_eligible hcc.2 hinc
      cases hlands with
      | stays hstay => exact ⟨hcc.1, staysAt_iff.1 hstay, hallow⟩
      | stuck hstuck =>
        exact absurd hstuck (not_stuck hsleep hawake
          (fun k hk => hcpu k (htopo.cache_kids _ hcm k hk)) (h.exists_cpu hcm hallow))
      | @down _ k' _ hstay' hk' hink hlands =>
        have hkm := htopo.cache_kids c hcm k' hk'
        have hkk := hcpu k' hkm
        have hcore : (s.objs k').objType = (s.irqs i).level.objType := by
          rw [(htopo.isPackage p hp).objType] at hstay
          rw [(htopo.isCache c hcm).objType] at hstay'
          rw [(htopo.isCpu k' hkm).objType]
          cases hl : (s.irqs i).level <;> simp_all [staysAt, BalanceLevel.objType]
        have hat : o = k' := by
          cases hlands with
          | stays _ => rfl
          | stuck _ => rfl
          | down _ hx _ _ =>
            rw [htopo.cpu_kids k' hkm] at hx
            cases hx
        subst hat
        exact ⟨hkk.1, hcore, allows_of_eligible hkk.2 hink⟩

/-- **In a tree without empty containers, where the mask of a container is the union of the masks of its
cpus and all cpus are awake, `calculate_placement` empties `rebalance_irq_list` and takes each of its
irqs to an object of the type its level names, which its hint allows.** -/
theorem placement_finishes (s : State) (h : Live s) (hsleep : OnlyCpusSleep s) (htree : TreeComplete s)
    (hcpus : s.cpus ≠ []) (hawake : ∀ k ∈ s.cpus, (s.objs k).powersaveMode = false)
    (hfit : LoadsFit (calculatePlacementCalls s)) (hhint : ∀ i ∈ s.rebalanceIrqList, HintMeetsCpu s i) :
    ∃ s', calculatePlacement s = some s' ∧ s'.rebalanceIrqList = [] ∧ ∀ i ∈ s.rebalanceIrqList,
      ∃ o ∈ s'.topology, (s'.irqs i).assignedObj = some o ∧ i ∈ (s'.objs o).interrupts ∧
        (s'.objs o).objType = (s.irqs i).level.objType ∧
        ((s.irqs i).hasHint .subset = true → (s.irqs i).affinityHint &&& (s'.objs o).mask ≠ 0) := by
  obtain ⟨s', hp⟩ := calculatePlacement_isSome h hfit
  have hr := calculatePlacement_rearrange h hp
  have hlive := hr.live h
  have htopo := h.topo
  have hends : ∀ i ∈ s.rebalanceIrqList, ∃ o, s'.home i = some o ∧ o ∈ s.topology ∧
      (s.objs o).objType = (s.irqs i).level.objType ∧ Allows s i o := by
    intro i hi
    obtain ⟨hi', hhome⟩ := (h.mem_slot (none_mem_slots s)).1 hi
    obtain ⟨k, hk, hallow⟩ := (hhint i hi).exists_cpu hcpus
    obtain ⟨o, ho, hlands⟩ := calculatePlacement_lands h hp hi' hhome
      (node_eligible htopo hsleep hk)
    exact ⟨o, ho, htree.lands htopo hsleep hawake hk hallow hi'.2 hlands⟩
  have hlives : s'.live = s.live := live_of_static hr.static_eq
  have hobj : ∀ o, (s'.objs o).objType = (s.objs o).objType ∧ (s'.objs o).mask = (s.objs o).mask := by
    intro o
    have e := calculatePlacement_unmoved hp
    exact ⟨show (s'.unmoved.objs o).objType = (s.unmoved.objs o).objType by rw [e],
      show (s'.unmoved.objs o).mask = (s.unmoved.objs o).mask by rw [e]⟩
  refine ⟨s', hp, List.eq_nil_iff_forall_not_mem.2 fun i hi => ?_, fun i hi => ?_⟩
  · obtain ⟨hi', hhome'⟩ := (hlive.mem_slot (none_mem_slots s')).1 hi
    rw [hlives] at hi'
    by_cases hhome : s.home i = none
    · obtain ⟨o, ho, -⟩ := hends i ((h.mem_slot (none_mem_slots s)).2 ⟨hi', hhome⟩)
      rw [hhome'] at ho
      cases ho
    · exact hr.placed hhome hhome'
  · obtain ⟨o, hhome, ho, htype, hallow⟩ := hends i hi
    have hi' := ((h.mem_slot (none_mem_slots s)).1 hi).1
    rw [← hlives] at hi'
    rw [← topology_of_static hr.static_eq] at ho
    exact ⟨o, ho, hhome, (hlive.mem_slot (some_mem_slots.2 ho)).2 ⟨hi', hhome⟩, (hobj o).1.trans htype,
      fun hhint => by rw [(hobj o).2]; exact hallow hhint⟩

/-- The first placement on the machine with two cpus. -/
theorem placement_finishes_twoCpus : ∃ s s', s.rebalanceIrqList = [0] ∧ calculatePlacement s = some s' ∧
    s'.rebalanceIrqList = [] ∧ ∃ o, (s'.irqs 0).assignedObj = some o ∧
      (s'.objs o).objType = (s.irqs 0).level.objType := by
  have hrun : (execs (List.replicate 10 twoCpusEnv) (.start, State.initial {} fun _ => 0)).map
      (fun r => (r.1, r.2.cpus, r.2.rebalanceIrqList,
        [decide (TreeComplete r.2), decide (∀ k ∈ r.2.cpus, (r.2.objs k).powersaveMode = false),
          decide (LoadsFit (calculatePlacementCalls r.2)),
          decide (∀ i ∈ r.2.rebalanceIrqList, HintMeetsCpu r.2 i)])) =
      some (.placement, [1, 4], [0], [true, true, true, true]) := by
    decide +kernel
  obtain ⟨⟨pc, s⟩, hr, e⟩ := Option.map_eq_some_iff.1 hrun
  simp only [Prod.mk.injEq, List.cons.injEq, decide_eq_true_eq] at e
  obtain ⟨rfl, hcpus, hlist, htree, hawake, hfit, hhint, -⟩ := e
  have hreach := (Reach.init {} (fun _ => 0) rfl).execs_any hr
  obtain ⟨s', hp, hnil, hends⟩ := placement_finishes s (hreach.live rfl) (hreach.onlyCpusSleep rfl) htree
    (by simp [hcpus]) hawake hfit hhint
  obtain ⟨o, -, hobj, -, htype, -⟩ := hends 0 (by rw [hlist]; exact List.mem_cons_self)
  exact ⟨s, s', hlist, hp, hnil, o, hobj, htype⟩

end IrqBalance

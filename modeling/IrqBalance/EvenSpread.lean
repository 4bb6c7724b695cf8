import IrqBalance.Idle
import IrqBalance.Spread

/-!
# The first placement in a new tree

Behind a rebuild no object and no irq has a load, so in the first placement `find_best_object` compares nothing but
the lengths of the lists. Every object deals its irqs out to its children evenly, layer after layer
(`even_spread`).
-/

namespace IrqBalance

open Layers (IsForest)

variable {s s' t u : State} {pc pc' : Pc} {i : IrqId} {d c o : ObjId} {ds P K : List ObjId}

/-! ### Placing without loads -/

/-- There are no loads, no cpu sleeps, and no irq that takes part has a SUBSET hint. -/
structure Calm (s : State) : Prop where
  loads : ∀ o ∈ s.topology, s.loads o = 0
  irqLoads : ∀ i ∈ s.live, s.irqLoads i = 0
  awake : ∀ o ∈ s.topology, (s.objs o).powersaveMode = false
  hint : ∀ i ∈ s.live, (s.irqs i).hasHint .subset = false

/-- An irq without load is assigned. -/
theorem Calm.assign (h : Calm s) (hlive : Live s) (hi : i ∈ s.live) :
    Calm (assignIrq (s.home i) o i s) := by
  have hm := assignIrq_moved hlive hi o
  have htopology := topology_of_static hm.static_eq
  have hlives := live_of_static hm.static_eq
  constructor
  · intro p hp
    rw [htopology] at hp
    by_cases hpo : p = o
    · subst hpo
      rw [assignIrq_loads, h.loads p hp, h.irqLoads i hi]
      rfl
    · rw [assignIrq_loads_of_ne _ i s hpo]
      exact h.loads p hp
  · intro j hj
    rw [hlives] at hj
    by_cases hji : j = i
    · rw [State.irqLoads, hji, hm.irqs_self]
      exact h.irqLoads i hi
    · rw [State.irqLoads, hm.irqs_of_ne hji]
      exact h.irqLoads j hj
  · intro p hp
    rw [htopology] at hp
    change ((assignIrq (s.home i) o i s).unmoved.objs p).powersaveMode = false
    rw [hm.unmoved_eq]
    exact h.awake p hp
  · intro j hj
    rw [hlives] at hj
    by_cases hji : j = i
    · rw [hji, hm.irqs_self]
      exact h.hint i hi
    · rw [hm.irqs_of_ne hji]
      exact h.hint j hj

/-- The callbacks of `calculate_placement` make no loads. -/
theorem calm_kept : KeptByPlacing Calm where
  toNode i t u hlive ha hi h hu := by
    obtain ⟨hi', hhome⟩ := (hlive.mem_slot ha).1 hi
    rcases placeIrqInNode_best hlive hi hu with ⟨rfl, -⟩ | ⟨-, rfl⟩
    · exact h
    · exact hhome ▸ h.assign hlive hi'
  down d i t u hlive ha hi h hu := by
    obtain ⟨hi', hhome⟩ := (hlive.mem_slot ha).1 hi
    rcases findBestObjectForIrq_best hu with rfl | ⟨-, c, -, -, rfl⟩
    · exact h
    · exact hhome ▸ h.assign hlive hi'

theorem Calm.sort (h : Calm s) : Calm (sortIrqList none s) := ⟨h.loads, h.irqLoads, h.awake, h.hint⟩

theorem zero_ne_ullongMax : (0 : UInt64) ≠ ullongMax := by decide

/-- **Without loads an object deals its irqs out evenly** to children that have none. -/
theorem Calm.deals (h : Calm s) (hlive : Live s) (hd : d ∈ s.topology)
    (hnil : ∀ c ∈ s.kids d, (s.objs c).interrupts = []) :
    ∃ s', placeIrqInObject s d = some s' ∧ ∀ a ∈ s.kids d, ∀ b ∈ s.kids d,
      (s'.objs b).interrupts.length ≤ (s'.objs a).interrupts.length + 1 := by
  have hkid : ∀ c ∈ s.kids d, c ∈ s.topology := fun c hc => hlive.topo.mem_topology_of_kid hd hc
  have hfree : Unhindered s d := by
    refine ⟨fun c hc => h.awake c (hkid c hc), fun i hi _ => h.hint i ?_⟩
    exact ((hlive.mem_slot (some_mem_slots.2 hd)).1 hi).1
  have hfit : LoadsFit (placeIrqInObjectCalls s d) := by
    intro e he o ho hmax
    have hzero := ((calm_kept.placeIrqInObject h hlive hd).2 e he).2.loads o ho
    exact zero_ne_ullongMax (hzero.symm.trans hmax)
  obtain ⟨s', hp⟩ := placeIrqInObject_isSome hlive hd hfit
  obtain ⟨hist, -, -, hrun⟩ := placeIrqInObject_run Calm (fun t o => (t.objs o).interrupts.length) (fun _ => 1)
    hlive hd hfree h (fun e he c hc hw hi hcalm hf hleast => by
      obtain ⟨hi', hhome⟩ := (hw.live.mem_slot hw.mem).1 hi
      have hstatic := hw.places.rearrange.static_eq
      have hkids : e.2.kids d = s.kids d := show e.2.static.kids d = s.static.kids d by rw [hstatic]
      have hkid' : ∀ k ∈ s.kids d, k ∈ e.2.topology := fun k hk => by
        rw [topology_of_static hstatic]
        exact hkid k hk
      have hne : ∀ k ∈ s.kids d, k ≠ d := fun k hk => hlive.topo.kid_ne hd hk
      refine ⟨hhome ▸ hcalm.assign hw.live hi', hc, fun k hk => ?_, ?_, fun k hk hkc => ?_⟩
      · -- the loads are equal, so the lengths decide
        rcases Prod.Lex.toLex_le_toLex.1 (hleast k hk) with hless | heq
        · have hc₀ : (e.2.objs c).load = 0 := hcalm.loads c (hkid' c hc)
          have hk₀ : (e.2.objs k).load = 0 := hcalm.loads k (hkid' k hk)
          dsimp only at hless
          rw [hc₀, hk₀] at hless
          exact absurd hless (lt_irrefl _)
        · exact heq.2
      · rw [assignIrq_interrupts hw.live hi' hhome (hne c hc), List.length_append, List.length_singleton]
      · rw [assignIrq_interrupts_of_ne hw.live hi' hhome (hne k hk) hkc]) hp
  refine ⟨s', hp, fun a ha b hb => ?_⟩
  refine hrun.even (fun a ha b hb => ?_) (fun e he => ?_) ha hb
  · rw [hnil a ha, hnil b hb]
  · obtain ⟨e', -, rfl⟩ := List.mem_map.1 he
    exact le_rfl

/-! ### The passes -/

/-- The turns of `place_irq_in_object` in `calculate_placement`, with the states they are given. -/
def placementTurns (s : State) : List (ObjId × State) :=
  let s := sortIrqList none s
  if s.rebalanceIrqList = [] then []
  else
    (forEachIrq State.rebalanceIrqList placeIrqInNode s).elim [] fun s =>
    Loops.foldCalls placeIrqInObject s.numaNodes s ++ (s.numaNodes.foldlM placeIrqInObject s).elim [] fun s =>
    Loops.foldCalls placeIrqInObject s.packages s ++ (s.packages.foldlM placeIrqInObject s).elim [] fun s =>
    Loops.foldCalls placeIrqInObject s.cacheDomains s

/-- In this turn the object deals its irqs out evenly: its children had none. -/
def DealsEvenly (turn : ObjId × State) : Prop :=
  ∃ t, placeIrqInObject turn.2 turn.1 = some t ∧ ∀ a ∈ turn.2.kids turn.1, ∀ b ∈ turn.2.kids turn.1,
    (turn.2.objs b).interrupts = [] ∧ (t.objs b).interrupts.length ≤ (t.objs a).interrupts.length + 1

/-- An object that had no irqs and is a child of none of the objects of a pass has none behind it. -/
theorem SentDown.interrupts_eq_nil (h : SentDown ds s t) (hlive : Live s) (ho : o ∈ s.topology)
    (hnil : (s.objs o).interrupts = []) (hkid : ∀ d ∈ ds, o ∉ s.kids d) : (t.objs o).interrupts = [] := by
  have hstatic := h.places.rearrange.static_eq
  refine List.eq_nil_iff_forall_not_mem.2 fun i hi => ?_
  obtain ⟨hi', hhome⟩ := ((h.places.rearrange.live hlive).mem_slot
    (some_mem_slots.2 (topology_of_static hstatic ▸ ho))).1 hi
  rw [live_of_static hstatic] at hi'
  rcases h.down hi' with ⟨hirq, -⟩ | ⟨d, hd, -, -, c, hc, -, hirq⟩
  · rw [home_eq_of_irqs hirq] at hhome
    have hbefore : i ∈ (s.objs o).interrupts := (hlive.mem_slot (some_mem_slots.2 ho)).2 ⟨hi', hhome⟩
    rw [hnil] at hbefore
    cases hbefore
  · rw [State.home, hirq] at hhome
    obtain rfl : c = o := Option.some.inj hhome
    exact hkid d hd hc

/-- Taking the irqs to the node puts them nowhere else. -/
theorem TakenToNode.interrupts_eq_nil (h : TakenToNode s t) (hlive : Live s) (ho : o ∈ s.topology)
    (hnil : (s.objs o).interrupts = []) (hne : o ≠ unspecifiedNode) : (t.objs o).interrupts = [] := by
  have hstatic := h.places.rearrange.static_eq
  refine List.eq_nil_iff_forall_not_mem.2 fun i hi => ?_
  obtain ⟨hi', hhome⟩ := ((h.places.rearrange.live hlive).mem_slot
    (some_mem_slots.2 (topology_of_static hstatic ▸ ho))).1 hi
  rw [live_of_static hstatic] at hi'
  have hbefore : s.home i ≠ some o := by
    intro hhome
    have hmem : i ∈ (s.objs o).interrupts := (hlive.mem_slot (some_mem_slots.2 ho)).2 ⟨hi', hhome⟩
    rw [hnil] at hmem
    cases hmem
  by_cases hnone : s.home i = none
  · rcases h.toNode i hi' hnone with ⟨hirq, -⟩ | ⟨-, hirq⟩
    · exact hbefore ((home_eq_of_irqs hirq).symm.trans hhome)
    · rw [State.home, hirq] at hhome
      exact hne (Option.some.inj hhome).symm
  · exact hbefore ((home_eq_of_irqs (h.other i hnone)).symm.trans hhome)

/-- The objects `P` are a layer of the forest, and `K` is the layer beneath it. -/
structure Above (s : State) (P K : List ObjId) : Prop where
  nodup : P.Nodup
  mem_topology : ∀ p ∈ P, p ∈ s.topology
  forest : IsForest s.kids s.parents {p | p ∈ P} {k | k ∈ K}
  kids : ∀ p ∈ P, ∀ k ∈ s.kids p, k ∈ K

theorem Above.of_static (h : Above s P K) (e : t.static = s.static) : Above t P K := by
  have hkids : t.kids = s.kids := show t.static.kids = s.static.kids by rw [e]
  have hparents : t.parents = s.parents := show t.static.parents = s.static.parents by rw [e]
  refine ⟨h.nodup, ?_, ?_, ?_⟩
  · rw [topology_of_static e]
    exact h.mem_topology
  · rw [hkids, hparents]
    exact h.forest
  · rw [hkids]
    exact h.kids

/-- The layers of a tree. -/
theorem TopoForest.above (hf : TopoForest s) (h : TopoWf s) : Above s s.numaNodes s.packages ∧
    Above s s.packages s.cacheDomains ∧ Above s s.cacheDomains s.cpus := by
  refine ⟨⟨?_, ?_, hf.2.2, ?_⟩, ⟨h.packages_nodup, ?_, hf.2.1, h.package_kids⟩,
    ⟨h.caches_nodup, ?_, hf.1, h.cache_kids⟩⟩
  · rw [h.numaNodes]
    exact List.nodup_singleton _
  · exact fun n hn => by simp [State.topology, hn]
  · intro n hn p hp
    rw [h.numaNodes, List.mem_singleton] at hn
    rwa [hn, h.node_kids] at hp
  · exact fun p hp => by simp [State.topology, hp]
  · exact fun c hc => by simp [State.topology, hc]

/-- **In a pass over a layer every object deals its irqs out evenly**, if the layer beneath it starts with none. -/
theorem Calm.pass (h : Calm s) (hlive : Live s) (hlayer : Above s P K) (hnil : ∀ k ∈ K, (s.objs k).interrupts = []) :
    ∀ turn ∈ Loops.foldCalls placeIrqInObject P s, DealsEvenly turn := by
  have htopology : ∀ {t}, Places s t → ∀ d ∈ P, d ∈ t.topology := fun ht d hd => by
    rw [topology_of_static ht.rearrange.static_eq]
    exact hlayer.mem_topology d hd
  have hstep : ∀ d ∈ P, ∀ t u, Places s t ∧ Calm t → placeIrqInObject t d = some u →
      SentDown [d] t u ∧ Places s u ∧ Calm u := by
    rintro d hd t u ⟨hplaces, hcalm⟩ hu
    have hlive' := hplaces.rearrange.live hlive
    have hsent := placeIrqInObject_spec hlive' (htopology hplaces d hd) hu
    exact ⟨hsent, hplaces.trans hsent.places,
      (calm_kept.placeIrqInObject hcalm hlive' (htopology hplaces d hd)).1 u hu⟩
  have hturns := Loops.mem_foldCalls_each (fun t => Places s t ∧ Calm t)
    (fun d t => ∀ c ∈ s.kids d, (t.objs c).interrupts = []) hlayer.nodup
    (fun d hd t u ht _ hu => (hstep d hd t u ht hu).2) (fun d hd e he hne t u ht _ hnil' hu c hc => by
      have hstatic := ht.1.rearrange.static_eq
      have hkids : t.kids d = s.kids d := show t.static.kids d = s.static.kids d by rw [hstatic]
      have hct : c ∈ t.topology := by
        rw [topology_of_static hstatic]
        exact hlive.topo.mem_topology_of_kid (hlayer.mem_topology e he) hc
      refine (hstep d hd t u ht hu).1.interrupts_eq_nil (ht.1.rearrange.live hlive) hct (hnil' c hc) ?_
      intro d' hd' hcd
      rw [List.mem_singleton.1 hd', hkids] at hcd
      exact hne (hlayer.forest.eq_of_mem_kids hlayer.kids he hd hc hcd)) ⟨Places.refl s, h⟩
    fun d hd c hc => hnil c (hlayer.kids d hd c hc)
  intro turn hturn
  obtain ⟨hd, ⟨hplaces, hcalm⟩, hnil'⟩ := hturns turn hturn
  have hkids : turn.2.kids turn.1 = s.kids turn.1 :=
    show turn.2.static.kids turn.1 = s.static.kids turn.1 by rw [hplaces.rearrange.static_eq]
  rw [← hkids] at hnil'
  obtain ⟨t, ht, heven⟩ := hcalm.deals (hplaces.rearrange.live hlive) (htopology hplaces _ hd) hnil'
  exact ⟨t, ht, fun a ha b hb => ⟨hnil' b hb, heven a ha b hb⟩⟩

/-- The placement has come to `t`: of the objects in the tree of `s` only those in `busy` may have irqs. -/
structure Dealing (s : State) (busy : List ObjId) (t : State) : Prop where
  live : Live t
  calm : Calm t
  static_eq : t.static = s.static
  nil : ∀ o ∈ s.topology, o ∉ busy → (t.objs o).interrupts = []

/-- A pass over a layer that may have irqs, above one that has none. -/
theorem Dealing.pass {busy : List ObjId} (h : Dealing s busy t) (hlayer : Above s P K) (hP : ∀ p ∈ P, p ∈ busy)
    (hK : ∀ k ∈ K, k ∈ s.topology ∧ k ∉ busy) :
    (∀ turn ∈ Loops.foldCalls placeIrqInObject P t, DealsEvenly turn) ∧
      ∀ u, P.foldlM placeIrqInObject t = some u → Dealing s (busy ++ K) u := by
  have hlayer' := hlayer.of_static h.static_eq
  refine ⟨h.calm.pass h.live hlayer' fun k hk => h.nil k (hK k hk).1 (hK k hk).2, fun u hu => ?_⟩
  obtain ⟨hr, hcalm⟩ := (calm_kept.placePass h.calm h.live hlayer'.mem_topology).1 u hu
  have hsent : SentDown P t u := foldlM_placeIrqInObject_spec h.live hlayer'.mem_topology
    (fun p hp k hk hk' => (hK k (hlayer'.kids p hp k hk)).2 (hP k hk')) hu
  refine ⟨hr.live h.live, hcalm, hr.static_eq.trans h.static_eq, fun o ho hout => ?_⟩
  rw [List.mem_append, not_or] at hout
  have ho' : o ∈ t.topology := by
    rw [topology_of_static h.static_eq]
    exact ho
  exact hsent.interrupts_eq_nil h.live ho' (h.nil o ho hout.1) fun p hp hk => hout.2 (hlayer'.kids p hp o hk)

/-- The layers below are not in the layers above. -/
theorem TopoWf.layers_apart (h : TopoWf s) : (∀ p ∈ s.packages, p ∉ s.numaNodes) ∧
    (∀ c ∈ s.cacheDomains, c ∉ s.numaNodes ++ s.packages) ∧
    ∀ k ∈ s.cpus, k ∉ s.numaNodes ++ s.packages ++ s.cacheDomains := by
  have hnodup := h.topology_nodup
  unfold State.topology at hnodup
  have hcaches := hnodup.of_append_left
  have hpackages := hcaches.of_append_left
  exact ⟨fun p hp hm => List.disjoint_of_nodup_append hpackages hm hp,
    fun c hc hm => List.disjoint_of_nodup_append hcaches hm hc,
    fun k hk hm => List.disjoint_of_nodup_append hnodup hm hk⟩

/-- **Without loads and irqs in the tree every object deals its irqs out evenly in `calculate_placement`.** -/
theorem Calm.placementTurns (h : Calm s) (hlive : Live s) (hf : TopoForest s)
    (hnil : ∀ o ∈ s.topology, (s.objs o).interrupts = []) : ∀ turn ∈ placementTurns s, DealsEvenly turn := by
  intro turn hturn
  unfold IrqBalance.placementTurns at hturn
  dsimp only at hturn
  by_cases hempty : (sortIrqList none s).rebalanceIrqList = []
  · rw [if_pos hempty] at hturn
    cases hturn
  rw [if_neg hempty] at hturn
  simp only [Loops.mem_elim, List.mem_append] at hturn
  obtain ⟨s₁, h₁, hturn⟩ := hturn
  obtain ⟨hnode, hpackage, hcache⟩ := hf.above hlive.topo
  obtain ⟨hpackages, hcaches, hcpus⟩ := hlive.topo.layers_apart
  have live₀ := hlive.sort none
  have w₁ := placeIrqsInNode_spec live₀ hempty h₁
  have hdealing₁ : Dealing s s.numaNodes s₁ := by
    refine ⟨w₁.places.rearrange.live live₀, ?_,
      w₁.places.rearrange.static_eq.trans (static_sortIrqList none s), fun o ho hout => ?_⟩
    · rw [placeIrqsInNode_eq hempty] at h₁
      exact (calm_kept.toNode.walk placeIrqInNode_shifts h.sort live₀ (none_mem_slots _)).1 s₁ h₁
    · rw [hlive.topo.numaNodes, List.mem_singleton] at hout
      exact w₁.interrupts_eq_nil live₀ ho (hnil o ho) hout
  have hnodes₁ : s₁.numaNodes = s.numaNodes :=
    show s₁.static.numaNodes = s.static.numaNodes by rw [hdealing₁.static_eq]
  rw [hnodes₁] at hturn
  obtain ⟨turns₁, pass₁⟩ := hdealing₁.pass hnode (fun n hn => hn)
    fun p hp => ⟨hpackage.mem_topology p hp, hpackages p hp⟩
  rcases hturn with hturn | ⟨s₂, h₂, hturn⟩
  · exact turns₁ turn hturn
  have hdealing₂ := pass₁ s₂ h₂
  rw [packages_of_static hdealing₂.static_eq] at hturn
  obtain ⟨turns₂, pass₂⟩ := hdealing₂.pass hpackage (fun p hp => List.mem_append_right _ hp)
    fun c hc => ⟨hcache.mem_topology c hc, hcaches c hc⟩
  rcases hturn with hturn | ⟨s₃, h₃, hturn⟩
  · exact turns₂ turn hturn
  have hdealing₃ := pass₂ s₃ h₃
  rw [cacheDomains_of_static hdealing₃.static_eq] at hturn
  exact (hdealing₃.pass hcache (fun c hc => List.mem_append_right _ hc)
    fun k hk => ⟨by simp [State.topology, hk], hcpus k hk⟩).1 turn hturn

/-- Every node, package and cache domain has its turn. -/
theorem placementTurns_fst (hp : calculatePlacement s = some s') (hne : s.rebalanceIrqList ≠ []) :
    (placementTurns s).map Prod.fst = s.numaNodes ++ s.packages ++ s.cacheDomains := by
  have hempty : (sortIrqList none s).rebalanceIrqList ≠ [] := by
    intro hnil
    have hperm : (sortIrqList none s).rebalanceIrqList.Perm s.rebalanceIrqList := sort_slot_perm s none none
    rw [hnil] at hperm
    exact hne hperm.symm.eq_nil
  unfold calculatePlacement at hp
  unfold placementTurns
  dsimp only at hp ⊢
  rw [if_neg hempty] at hp ⊢
  obtain ⟨s₁, h₁, hp⟩ := Option.bind_eq_some_iff.1 hp
  obtain ⟨s₂, h₂, hp⟩ := Option.bind_eq_some_iff.1 hp
  obtain ⟨s₃, h₃, hp⟩ := Option.bind_eq_some_iff.1 hp
  rw [h₁, Option.elim_some, h₂, Option.elim_some, h₃, Option.elim_some, List.map_append, List.map_append,
    Loops.foldCalls_fst h₂, Loops.foldCalls_fst h₃, Loops.foldCalls_fst hp, List.append_assoc]
  have e₁ : s₁.unmoved = s.unmoved := (placeIrqsInNode_unmoved h₁).trans (setSlot_unmoved ..)
  have e₂ := (placePass_unmoved h₂).trans e₁
  have e₃ := (placePass_unmoved h₃).trans e₂
  congr 1
  · exact show s₁.unmoved.numaNodes = s.unmoved.numaNodes by rw [e₁]
  · congr 1
    · exact show s₂.unmoved.packages = s.unmoved.packages by rw [e₂]
    · exact show s₃.unmoved.cacheDomains = s.unmoved.cacheDomains by rw [e₃]

theorem Calm.calculatePlacement_isSome (h : Calm s) (hlive : Live s) : ∃ s', calculatePlacement s = some s' := by
  refine IrqBalance.calculatePlacement_isSome hlive fun c hc o ho hmax => ?_
  have hzero := ((calm_kept.calculatePlacement h.sort hlive).2 c hc).2.loads o ho
  exact zero_ne_ullongMax (hzero.symm.trans hmax)

/-! ### The first placement -/

/-- Where nothing has happened, the irqs are in `rebalance_irq_list`. -/
theorem Idle.calm (h : Idle s) (hlive : Live s) (hhint : ∀ i ∈ s.rebalanceIrqList, (s.irqs i).hasHint .subset = false) :
    Calm s := by
  refine ⟨h.loads, fun i hi => h.irqLoads i hi.1, h.awake, fun i hi => hhint i ?_⟩
  have hmem : i ∈ s.slot (s.home i) := hlive.bins.mem_home hi
  cases hhome : s.home i with
  | none =>
    rw [hhome] at hmem
    exact hmem
  | some o =>
    have ho : o ∈ s.topology := some_mem_slots.1 (hhome ▸ hlive.bins.home_mem i hi)
    rw [hhome] at hmem
    have hmem' : i ∈ (s.objs o).interrupts := hmem
    rw [h.interrupts o ho] at hmem'
    cases hmem'

/-- **The first placement behind a rebuild is even**: nothing has happened in the tree, `calculate_placement` comes to
its end, every node, package and cache domain has its turn, and in its turn it gives no child more than one irq
more than another one. -/
theorem even_spread {env : Env} (h : Reach anyStep pc s) (hpc : pc.phase = .bare)
    (hexec : exec env pc s = some (pc', s')) (hrun : Along (· ≠ .placement) (pc', s') .placement u)
    (hf : TopoForest u) (hhint : ∀ i ∈ u.rebalanceIrqList, (u.irqs i).hasHint .subset = false) :
    Idle u ∧ (∃ v, calculatePlacement u = some v) ∧
      (u.rebalanceIrqList ≠ [] →
        (placementTurns u).map Prod.fst = u.numaNodes ++ u.packages ++ u.cacheDomains) ∧
      ∀ turn ∈ placementTurns u, DealsEvenly turn := by
  have hreach := h.exec_any hexec
  have hidle : Idle u := IdleAt.along (p := (pc', s')) (h.idleAt hpc hexec) hreach hrun
  have hlive : Live u := (hrun.reach hreach).live rfl
  have hcalm : Calm u := hidle.calm hlive hhint
  obtain ⟨v, hv⟩ := hcalm.calculatePlacement_isSome hlive
  exact ⟨hidle, ⟨v, hv⟩, placementTurns_fst hv, hcalm.placementTurns hlive hf hidle.interrupts⟩

/-- The first placement on the machine with three cpus: the node deals out five irqs, and the packages pass them on. -/
theorem even_spread_threeCpus : ∃ u, (placementTurns u).map (fun turn => (turn.1, (turn.2.objs turn.1).interrupts)) =
      [(0, [4, 3, 2, 1, 0]), (3, [4, 2, 0]), (6, [3, 1]), (2, [4, 0]), (5, [3, 1]), (8, [2])] ∧
    ∀ turn ∈ placementTurns u, DealsEvenly turn := by
  have hrun : ((exec quietEnv .start (State.initial {} fun _ => 0)).bind fun r₁ =>
      (execs (List.replicate 9 quietEnv) r₁).map fun r₂ =>
        (r₂.1, (placementTurns r₂.2).map fun turn => (turn.1, (turn.2.objs turn.1).interrupts),
          [decide (∀ n < (9 : ℕ), ∀ q ∈ execs ((List.replicate 9 quietEnv).take n) r₁, q.1 ≠ Pc.placement),
            decide (TopoForest r₂.2),
            decide (∀ i ∈ r₂.2.rebalanceIrqList, (r₂.2.irqs i).hasHint .subset = false)])) =
      some (.placement, [(0, [4, 3, 2, 1, 0]), (3, [4, 2, 0]), (6, [3, 1]), (2, [4, 0]), (5, [3, 1]), (8, [2])],
        [true, true, true]) := by
    decide +kernel
  obtain ⟨⟨pc, s⟩, h₁, hrun⟩ := Option.bind_eq_some_iff.1 hrun
  obtain ⟨⟨pc', u⟩, h₂, e⟩ := Option.map_eq_some_iff.1 hrun
  simp only [Prod.mk.injEq, List.cons.injEq, decide_eq_true_eq] at e
  obtain ⟨rfl, hturns, hbefore, hf, hhint, -⟩ := e
  have halong : Along (· ≠ .placement) (pc, s) .placement u := by
    refine Along.execs (fun n hn => hbefore n ?_) h₂
    rwa [List.length_replicate] at hn
  exact ⟨u, hturns, (even_spread (.init {} (fun _ => 0) rfl) rfl h₁ halong hf hhint).2.2.2⟩

end IrqBalance

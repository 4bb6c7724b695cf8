import IrqBalance.BestObject
import IrqBalance.Finishes
import IrqBalance.Migration
import IrqBalance.Selection
import IrqBalance.Lib.Greedy

/-!
# How the irqs of an object are spread

`place_irq_in_object` gives the irqs of an object to its children, one after the other, each to the first child
that is least by load and then by the number of irqs. Without powersave mode and without hints this is a greedy
assignment (`Greedy.Run`), so no child ends with more than another one and the load of the last irq that it was
given (`greedy_balance`).
-/

namespace IrqBalance

open Greedy (given)

variable {s s' t u : State} {i : IrqId} {d c o : ObjId} {hist : List (ObjId × IrqId)}

/-! ### One irq -/

/-- `find_best_object_for_irq` looks for a child for the irq. -/
def Handled (s : State) (d : ObjId) (i : IrqId) : Prop :=
  (s.irqs i).moved = true ∧ staysAt (s.objs d).objType (s.irqs i).level = false

instance : Decidable (Handled s d i) := inferInstanceAs (Decidable (_ ∧ _))

/-- The irq is given to the best child, or to none. -/
theorem findBestObjectForIrq_best (hf : findBestObjectForIrq d i s = some s') :
    s' = s ∨ Handled s d i ∧ ∃ c ∈ s.kids d, IsBest s i (s.kids d) c ∧ s' = assignIrq (some d) c i s := by
  unfold findBestObjectForIrq at hf
  split_ifs at hf with hmoved hstay
  · cases hf
    exact Or.inl rfl
  · cases hf
    exact Or.inl rfl
  · obtain ⟨place, hplace, hf⟩ := Option.bind_eq_some_iff.1 hf
    cases hbest : place.best with
    | none =>
      rw [hbest] at hf
      cases hf
      exact Or.inl rfl
    | some c =>
      rw [hbest] at hf
      cases hf
      have hsearch := findBest_eq s i (s.objs d).children
      rw [hplace, Option.map_some, hbest] at hsearch
      split_ifs at hsearch
      refine Or.inr ⟨⟨by simpa using hmoved, by simpa using hstay⟩, c, (findBest_mem hplace hbest).1, ?_, rfl⟩
      exact IsBest.of_argmin (Option.some.inj hsearch).symm

theorem assignIrq_loads_of_ne (src : Option ObjId) (i : IrqId) (s : State) (ho : o ≠ c) :
    (assignIrq src c i s).loads o = s.loads o := by
  have hload := loads_of_scores (migrateIrq_scores src (some c) i s)
  rw [← hload]
  unfold assignIrq
  dsimp only
  rw [State.loads, State.modObj_objs_of_ne ho]
  rfl

/-- The irq is appended to the list of the child. -/
theorem assignIrq_interrupts (h : Live s) (hi : i ∈ s.live) (hhome : s.home i = some d) (hne : c ≠ d) :
    ((assignIrq (some d) c i s).objs c).interrupts = (s.objs c).interrupts ++ [i] := by
  have hslot := (assignIrq_moved h hi c).slot_eq
  rw [hhome] at hslot
  have hself := congrFun hslot (some c)
  rw [Bins.move_to (fun e => hne (Option.some.inj e))] at hself
  exact hself

/-- The lists of the other children stay. -/
theorem assignIrq_interrupts_of_ne (h : Live s) (hi : i ∈ s.live) (hhome : s.home i = some d) (hod : o ≠ d)
    (hoc : o ≠ c) : ((assignIrq (some d) c i s).objs o).interrupts = (s.objs o).interrupts := by
  have hslot := (assignIrq_moved h hi c).slot_eq
  rw [hhome] at hslot
  have hother := congrFun hslot (some o)
  rw [Bins.move_of_ne (fun e => hod (Option.some.inj e)) (fun e => hoc (Option.some.inj e))] at hother
  exact hother

/-! ### The walk -/

/-- The rule for `place_irq_in_object`: what holds at the start and is kept by its calls holds at each of them,
and at the end. -/
theorem placeIrqInObject_calls (P : State → Prop) (h : Live s) (hd : d ∈ s.topology) (h0 : P s)
    (hP : ∀ e ∈ placeIrqInObjectCalls s d, ∀ t, Walked (some d) s e.2 → e.1 ∈ (e.2.objs d).interrupts → P e.2 →
      findBestObjectForIrq d e.1 e.2 = some t → P t) :
    (∀ e ∈ placeIrqInObjectCalls s d, P e.2) ∧ ∀ s', placeIrqInObject s d = some s' → P s' := by
  unfold placeIrqInObjectCalls at hP ⊢
  unfold placeIrqInObject
  by_cases hnil : (s.objs d).interrupts = []
  · rw [if_pos hnil, if_pos hnil]
    refine ⟨fun e he => absurd he List.not_mem_nil, fun s' hs' => ?_⟩
    cases hs'
    exact h0
  · rw [if_neg hnil, forEachIrqCalls_eq hnil] at hP
    rw [if_neg hnil, if_neg hnil, forEachIrqCalls_eq hnil]
    unfold forEachIrq
    rw [forEachIrqOn_eq hnil]
    have hslot : some d ∈ s.slots := some_mem_slots.2 hd
    have hnd : ∀ t, Walked (some d) s t → (t.slot (some d)).Nodup := fun t ht => ht.live.slot_nodup ht.mem
    have hunlinks : Loops.UnlinksSelf (Walked (some d) s) (fun t => t.slot (some d)) (findBestObjectForIrq d) :=
      walked_unlinksSelf fun i t u ht hi hu => findBestObjectForIrq_shifts d i t u ht.live ht.mem hi hu
    exact Loops.walk_calls hnd hunlinks P (Walked.refl h hslot) h0 hP

/-- The walk over the irqs of `d` from the state `s` has come to `t` and has given the irqs `hist` to children. -/
structure Spreading (d : ObjId) (s : State) (hist : List (ObjId × IrqId)) (t : State) : Prop where
  kept : ∀ i ∈ (t.objs d).interrupts, t.irqs i = s.irqs i
  lists : ∀ c ∈ s.kids d, (t.objs c).interrupts = (s.objs c).interrupts ++ given hist c

theorem Spreading.refl (d : ObjId) (s : State) : Spreading d s [] s :=
  ⟨fun _ _ => rfl, fun _ _ => (List.append_nil _).symm⟩

/-- One irq is given to a child. -/
theorem Spreading.assign (h : Spreading d s hist t) (ht : Live t) (hd : d ∈ t.topology)
    (hi : i ∈ (t.objs d).interrupts) (hkids : t.kids d = s.kids d) (hc : c ∈ s.kids d) :
    Spreading d s (hist ++ [(c, i)]) (assignIrq (some d) c i t) := by
  obtain ⟨hi', hhome⟩ := (ht.mem_slot (some_mem_slots.2 hd)).1 hi
  have hm : Moved i (some c) t (assignIrq (some d) c i t) := hhome ▸ assignIrq_moved ht hi' c
  have hne : ∀ {k}, k ∈ s.kids d → k ≠ d := fun hk => ht.topo.kid_ne hd (hkids ▸ hk)
  have hlist : ((assignIrq (some d) c i t).objs d).interrupts = (t.objs d).interrupts.erase i := by
    have herase := hm.slot_erase (by rw [hhome]; exact fun e => hne hc (Option.some.inj e))
    rw [hhome] at herase
    exact herase
  constructor
  · intro j hj
    rw [hlist] at hj
    have hji : j ≠ i := by
      rintro rfl
      exact (ht.interrupts_nodup hd).not_mem_erase hj
    rw [hm.irqs_of_ne hji]
    exact h.kept j (List.mem_of_mem_erase hj)
  · intro k hk
    by_cases hkc : k = c
    · subst hkc
      rw [assignIrq_interrupts ht hi' hhome (hne hk), h.lists k hk, Greedy.given_snoc_self, List.append_assoc]
    · rw [assignIrq_interrupts_of_ne ht hi' hhome (hne hk) hkc, h.lists k hk, Greedy.given_snoc_of_ne hkc]

/-- No child sleeps, and no irq that is handled has a SUBSET hint. -/
structure Unhindered (s : State) (d : ObjId) : Prop where
  awake : ∀ c ∈ s.kids d, (s.objs c).powersaveMode = false
  hint : ∀ i ∈ (s.objs d).interrupts, Handled s d i → (s.irqs i).hasHint .subset = false

instance : Decidable (Unhindered s d) :=
  decidable_of_iff ((∀ c ∈ s.kids d, (s.objs c).powersaveMode = false) ∧
      ∀ i ∈ (s.objs d).interrupts, Handled s d i → (s.irqs i).hasHint .subset = false)
    ⟨fun ⟨h₁, h₂⟩ => ⟨h₁, h₂⟩, fun h => ⟨h.awake, h.hint⟩⟩

theorem TopoWf.kid_objType (h : TopoWf s) (hd : d ∈ s.topology) (hc : c ∈ s.kids d) :
    (s.objs c).objType ≠ .node := by
  intro htype
  rcases (mem_topology h).1 hd with rfl | hd | hd | hd
  · rw [h.node_kids] at hc
    rw [(h.isPackage c hc).objType] at htype
    cases htype
  · rw [(h.isCache c (h.package_kids d hd c hc)).objType] at htype
    cases htype
  · rw [(h.isCpu c (h.cache_kids d hd c hc)).objType] at htype
    cases htype
  · rw [h.cpu_kids d hd] at hc
    cases hc

/-- **One call**: the irq stays, or it is given to a child that is least in the order of the search. -/
theorem Spreading.step (h : Spreading d s hist t) (hfree : Unhindered s d) (hw : Walked (some d) s t)
    (hlive : Live s) (hd : d ∈ s.topology) (hi : i ∈ (t.objs d).interrupts)
    (hf : findBestObjectForIrq d i t = some u) :
    u = t ∨ ∃ c ∈ s.kids d, u = assignIrq (some d) c i t ∧ Spreading d s (hist ++ [(c, i)]) u ∧
      ∀ k ∈ s.kids d, placeKey t c ≤ placeKey t k := by
  have hstatic := hw.places.rearrange.static_eq
  have hdt : d ∈ t.topology := by
    rw [topology_of_static hstatic]
    exact hd
  have hkids : t.kids d = s.kids d := show t.static.kids d = s.static.kids d by rw [hstatic]
  rcases findBestObjectForIrq_best hf with rfl | ⟨hhandled, c, hc, hbest, rfl⟩
  · exact Or.inl rfl
  rw [hkids] at hc hbest
  have hirq := h.kept i hi
  -- the irq was in the list at the start
  have hmem : i ∈ (s.objs d).interrupts := by
    obtain ⟨hi', hhome⟩ := (hw.live.mem_slot hw.mem).1 hi
    refine (hlive.mem_slot (some_mem_slots.2 hd)).2 ⟨?_, ?_⟩
    · rw [← live_of_static hstatic]
      exact hi'
    · rw [← home_eq_of_irqs hirq]
      exact hhome
  have hhandled' : Handled s d i := by
    have htype : (t.objs d).objType = (s.objs d).objType :=
      show (t.static.objs d).objType = (s.static.objs d).objType by rw [hstatic]
    unfold Handled at hhandled
    rwa [hirq, htype] at hhandled
  refine Or.inr ⟨c, hc, rfl, h.assign hw.live hdt hi hkids hc, fun k hk => hbest.least k hk ?_⟩
  rw [eligible_iff, hw.places.ineligible_eq]
  exact eligible_of_awake (hlive.topo.kid_objType hd hk) (hfree.hint i hmem hhandled') (hfree.awake k hk)

/-- **The pass over the irqs of `d` is a greedy assignment** of whatever the assignments of single irqs add to the
children that they go to. -/
theorem placeIrqInObject_run (Q : State → Prop) (load : State → ObjId → ℕ) (weight : IrqId → ℕ) (h : Live s)
    (hd : d ∈ s.topology) (hfree : Unhindered s d) (h0 : Q s)
    (hassign : ∀ e ∈ placeIrqInObjectCalls s d, ∀ c ∈ s.kids d, Walked (some d) s e.2 →
      e.1 ∈ (e.2.objs d).interrupts → Q e.2 →
      findBestObjectForIrq d e.1 e.2 = some (assignIrq (some d) c e.1 e.2) →
      (∀ k ∈ s.kids d, placeKey e.2 c ≤ placeKey e.2 k) → Q (assignIrq (some d) c e.1 e.2) ∧
        Greedy.Assign {k | k ∈ s.kids d} c (weight e.1) (load e.2) (load (assignIrq (some d) c e.1 e.2)))
    (hp : placeIrqInObject s d = some s') :
    ∃ hist, Spreading d s hist s' ∧ Q s' ∧
      Greedy.Run {k | k ∈ s.kids d} (load s) (hist.map fun e => (e.1, weight e.2)) (load s') := by
  refine (placeIrqInObject_calls (fun t => ∃ hist, Spreading d s hist t ∧ Q t ∧
    Greedy.Run {k | k ∈ s.kids d} (load s) (hist.map fun e => (e.1, weight e.2)) (load t))
    h hd ⟨[], .refl d s, h0, .nil⟩ ?_).2 s' hp
  rintro ⟨i, t⟩ he u hw hi ⟨hist, hspread, hQ, hrun⟩ hf
  dsimp only at hw hi hspread hQ hrun hf
  rcases hspread.step hfree hw h hd hi hf with rfl | ⟨c, hc, rfl, hspread', hleast⟩
  · exact ⟨hist, hspread, hQ, hrun⟩
  obtain ⟨hQ', hadd⟩ := hassign (i, t) he c hc hw hi hQ hf hleast
  refine ⟨hist ++ [(c, i)], hspread', hQ', ?_⟩
  rw [List.map_append, List.map_singleton]
  exact hrun.snoc hadd

/-! ### The greedy bound -/

/-- No addition of the load of an irq to the load of a child reaches `2 ^ 64 - 1`. -/
def AdditionsFit (d : ObjId) (calls : List (IrqId × State)) : Prop :=
  ∀ e ∈ calls, ∀ t ∈ findBestObjectForIrq d e.1 e.2, ∀ c ∈ e.2.kids d, t.home e.1 = some c →
    (e.2.loads c).toNat + (e.2.irqLoads e.1).toNat < ullongMax.toNat

instance (d : ObjId) (calls : List (IrqId × State)) : Decidable (AdditionsFit d calls) :=
  inferInstanceAs (Decidable (∀ e ∈ calls, ∀ t ∈ findBestObjectForIrq d e.1 e.2, ∀ c ∈ e.2.kids d,
    t.home e.1 = some c → (e.2.loads c).toNat + (e.2.irqLoads e.1).toNat < ullongMax.toNat))

/-- The loads of the children after an irq has been given to one of them. -/
theorem assignIrq_loads_toNat (hfit : AdditionsFit d [(i, t)])
    (hf : findBestObjectForIrq d i t = some (assignIrq (some d) c i t)) (hc : c ∈ t.kids d) :
    ((assignIrq (some d) c i t).loads c).toNat = (t.loads c).toNat + (t.irqLoads i).toNat ∧
      (assignIrq (some d) c i t).loads c ≠ ullongMax := by
  have hless := hfit (i, t) (List.mem_singleton_self _) _ hf c hc (assignIrq_home _ c i t)
  have hmax : ullongMax.toNat < 2 ^ 64 := ullongMax.toNat_lt
  have hsum : ((assignIrq (some d) c i t).loads c).toNat = (t.loads c).toNat + (t.irqLoads i).toNat := by
    rw [assignIrq_loads]
    exact Sums.toNat_add (hless.trans hmax)
  refine ⟨hsum, fun hmax' => ?_⟩
  rw [hmax'] at hsum
  dsimp only at hless
  omega

/-- The pass over the irqs of `d` is a greedy assignment of their loads. -/
theorem placeIrqInObject_greedy (h : Live s) (hd : d ∈ s.topology) (hfree : Unhindered s d)
    (hfit : AdditionsFit d (placeIrqInObjectCalls s d)) (hp : placeIrqInObject s d = some s') :
    ∃ hist, Spreading d s hist s' ∧ Greedy.Run {c | c ∈ s.kids d} (fun o => (s.loads o).toNat)
      (hist.map fun e => (e.1, (s.irqLoads e.2).toNat)) (fun o => (s'.loads o).toNat) := by
  refine (placeIrqInObject_run (fun _ => True) (fun t o => (t.loads o).toNat) (fun i => (s.irqLoads i).toNat)
    h hd hfree trivial ?_ hp).imp fun hist ⟨hspread, _, hrun⟩ => ⟨hspread, hrun⟩
  rintro ⟨i, t⟩ he c hc hw - - hf hleast
  dsimp only at hw hf hleast
  have hkids : t.kids d = s.kids d :=
    show t.static.kids d = s.static.kids d by rw [hw.places.rearrange.static_eq]
  refine ⟨trivial, hc, fun k hk => ?_, ?_, fun k _ hkc => ?_⟩
  · exact (Prod.Lex.toLex_le_toLex.1 (hleast k hk)).elim le_of_lt fun h => h.1.le
  · dsimp only
    rw [← congrFun hw.places.rearrange.irqLoads_eq i]
    refine (assignIrq_loads_toNat ?_ hf (hkids ▸ hc)).1
    intro e' he'
    rw [List.mem_singleton.1 he']
    exact hfit (i, t) he
  · dsimp only
    rw [assignIrq_loads_of_ne _ i t hkc]

/-- The pass comes to its end: no child gets a load with which the search looks through NULL. -/
theorem placeIrqInObject_isSome_of_fit (h : Live s) (hd : d ∈ s.topology)
    (hfit : AdditionsFit d (placeIrqInObjectCalls s d)) (hload : ∀ c ∈ s.kids d, s.loads c ≠ ullongMax) :
    ∃ s', placeIrqInObject s d = some s' := by
  have hcalls := (placeIrqInObject_calls (fun t => ∀ c ∈ t.kids d, t.loads c ≠ ullongMax) h hd hload ?_).1
  · unfold placeIrqInObjectCalls at hcalls
    unfold placeIrqInObject
    by_cases hnil : (s.objs d).interrupts = []
    · rw [if_pos hnil]
      exact ⟨s, rfl⟩
    · rw [if_neg hnil, forEachIrqCalls_eq hnil] at hcalls
      rw [if_neg hnil]
      unfold forEachIrq
      rw [forEachIrqOn_eq hnil]
      exact (findBestObjectForIrq_shifts d).walk_isSome h (some_mem_slots.2 hd) fun e he _ _ _ =>
        findBestObjectForIrq_isSome (hcalls e he)
  · rintro ⟨i, t⟩ he u hw hi hloads hf c hc
    dsimp only at hw hi hloads hf
    rcases findBestObjectForIrq_best hf with rfl | ⟨-, b, hb, -, rfl⟩
    · exact hloads c hc
    obtain ⟨hi', hhome⟩ := (hw.live.mem_slot hw.mem).1 hi
    have hstatic := (hhome ▸ assignIrq_moved hw.live hi' b :
      Moved i (some b) t (assignIrq (some d) b i t)).static_eq
    have hkids : (assignIrq (some d) b i t).kids d = t.kids d :=
      show (assignIrq (some d) b i t).static.kids d = t.static.kids d by rw [hstatic]
    rw [hkids] at hc
    by_cases hcb : c = b
    · subst hcb
      refine (assignIrq_loads_toNat ?_ hf hb).2
      intro e' he'
      rw [List.mem_singleton.1 he']
      exact hfit (i, t) he
    · rw [assignIrq_loads_of_ne _ i t hcb]
      exact hloads c hc

/-- **The greedy bound of `place_irq_in_object`**: the list of every child has grown at its end, and without the
load of the last irq that it was given a child has no more load than another one. -/
theorem greedy_balance (h : Live s) (hd : d ∈ s.topology) (hfree : Unhindered s d)
    (hfit : AdditionsFit d (placeIrqInObjectCalls s d)) :
    ((∀ c ∈ s.kids d, s.loads c ≠ ullongMax) → ∃ s', placeIrqInObject s d = some s') ∧
      ∀ s', placeIrqInObject s d = some s' → ∀ a ∈ s.kids d, ∀ b ∈ s.kids d,
        ∃ l, (s'.objs b).interrupts = (s.objs b).interrupts ++ l ∧
          ∀ i, l.getLast? = some i → (s'.loads b).toNat ≤ (s'.loads a).toNat + (s.irqLoads i).toNat := by
  refine ⟨placeIrqInObject_isSome_of_fit h hd hfit, fun s' hp a ha b hb => ?_⟩
  obtain ⟨hist, hspread, hrun⟩ := placeIrqInObject_greedy h hd hfree hfit hp
  refine ⟨given hist b, hspread.lists b hb, fun i hi => ?_⟩
  have hlast : (given (hist.map fun e => (e.1, (s.irqLoads e.2).toNat)) b).getLast? =
      some (s.irqLoads i).toNat := by
    rw [Greedy.given_map hist (fun j => (s.irqLoads j).toNat) b, List.getLast?_map, hi, Option.map_some]
  exact hrun.bound ha hb hlast

/-- In the second cycle irq 14 goes from the node to the second package, which had less load. -/
theorem greedy_balance_threeCpus : ∃ s s', placeIrqInObject s 0 = some s' ∧ (s'.objs 6).interrupts = [4] ∧
    s'.loads 3 = 100000000 ∧ s'.loads 6 = 130000000 ∧
    (s'.loads 6).toNat ≤ (s'.loads 3).toNat + (s.irqLoads 4).toNat := by
  have hrun : ((execs (List.replicate 15 quietEnv ++ List.replicate 4 skewedEnv)
      (.start, State.initial {} fun _ => 0)).bind fun r =>
        (forEachIrq State.rebalanceIrqList placeIrqInNode (sortIrqList none r.2)).bind fun s =>
          (placeIrqInObject s 0).map fun s' =>
            (r.1, (sortIrqList none r.2).rebalanceIrqList, [decide (0 ∈ s.topology), decide (Unhindered s 0),
              decide (AdditionsFit 0 (placeIrqInObjectCalls s 0)), decide (3 ∈ s.kids 0), decide (6 ∈ s.kids 0),
              decide ((s.objs 6).interrupts = []), decide ((s'.objs 6).interrupts = [4]),
              decide (s'.loads 3 = 100000000), decide (s'.loads 6 = 130000000)])) =
      some (.placement, [4], [true, true, true, true, true, true, true, true, true]) := by
    decide +kernel
  obtain ⟨⟨pc, r⟩, hr, hrun⟩ := Option.bind_eq_some_iff.1 hrun
  obtain ⟨s, hnode, hrun⟩ := Option.bind_eq_some_iff.1 hrun
  obtain ⟨s', hp, e⟩ := Option.map_eq_some_iff.1 hrun
  simp only [Prod.mk.injEq, List.cons.injEq, decide_eq_true_eq] at e
  obtain ⟨rfl, hlist, hd, hfree, hfit, ha, hb, hbefore, hafter, hload₃, hload₆, -⟩ := e
  have hlive := (((Reach.init {} (fun _ => 0) rfl).execs_any hr).live rfl).sort none
  have hne : (sortIrqList none r).rebalanceIrqList ≠ [] := by
    rw [hlist]
    exact List.cons_ne_nil _ _
  have hlive' := (placeIrqsInNode_spec hlive hne hnode).places.rearrange.live hlive
  obtain ⟨l, hl, hbound⟩ := (greedy_balance hlive' hd hfree hfit).2 s' hp 3 ha 6 hb
  rw [hbefore, hafter, List.nil_append] at hl
  exact ⟨s, s', hp, hafter, hload₃, hload₆, hbound 4 (by rw [← hl]; rfl)⟩

end IrqBalance

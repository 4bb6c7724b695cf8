import IrqBalance.Moves

/-!
# Placing irqs

`calculate_placement` takes the irqs of `rebalance_irq_list` to the node and sends the irqs of the node,
the packages and the cache domains one layer down, in this order. Which child an irq is sent to depends
on loads; that it is sent, and that the child is eligible, does not (`Sent`).

`calculatePlacement_passes` puts the four passes together.
-/

namespace IrqBalance

variable {s s' t : State} {i : IrqId} {a : Option ObjId} {d o : ObjId}

/-! ### What is left alone -/

theorem migrateIrq_unmoved (src dst : Option ObjId) (i : IrqId) (s : State) :
    (migrateIrq src dst i s).unmoved = s.unmoved := by
  unfold migrateIrq
  dsimp only
  split
  · rfl
  · exact (setSlot_unmoved _ _ _).trans (setSlot_unmoved _ _ _)

theorem assignIrq_unmoved (src : Option ObjId) (o : ObjId) (i : IrqId) (s : State) :
    (assignIrq src o i s).unmoved = s.unmoved := by
  unfold assignIrq
  exact (modObj_unmoved (by intro _; rfl) _ o).trans (migrateIrq_unmoved src (some o) i s)

theorem findBestObjectForIrq_unmoved (h : findBestObjectForIrq d i s = some s') :
    s'.unmoved = s.unmoved := by
  unfold findBestObjectForIrq at h
  split_ifs at h
  · cases h; rfl
  · cases h; rfl
  · obtain ⟨place, -, h⟩ := Option.bind_eq_some_iff.1 h
    split at h
    · cases h; rfl
    · cases h; exact assignIrq_unmoved ..

theorem placeIrqInNode_unmoved (h : placeIrqInNode i s = some s') : s'.unmoved = s.unmoved := by
  unfold placeIrqInNode at h
  split_ifs at h
  · cases h; rfl
  · dsimp only at h
    split at h
    · cases h
    · split_ifs at h
      case neg =>
        cases h
        exact (modObj_unmoved (by intro _; rfl) _ _).trans (migrateIrq_unmoved none _ i s)
      all_goals
        obtain ⟨place, -, hplace⟩ := Option.bind_eq_some_iff.1 h
        split at hplace
        · cases hplace; rfl
        · cases hplace; exact assignIrq_unmoved ..

theorem placePass_unmoved {ds : List ObjId} (h : ds.foldlM placeIrqInObject s = some s') :
    s'.unmoved = s.unmoved := by
  refine Loops.foldlM_view State.unmoved (fun d _ t t' ht => ?_) h
  unfold placeIrqInObject at ht
  split_ifs at ht
  · cases ht; rfl
  · exact forEachIrq_view State.unmoved (fun _ _ _ hf => findBestObjectForIrq_unmoved hf) ht

theorem placeIrqsInNode_unmoved (h : forEachIrq State.rebalanceIrqList placeIrqInNode s = some s') :
    s'.unmoved = s.unmoved :=
  forEachIrq_view State.unmoved (fun _ _ _ hf => placeIrqInNode_unmoved hf) h

/-- **`calculate_placement` changes the irqs, the lists and the loads of the objects only.** -/
theorem calculatePlacement_unmoved (h : calculatePlacement s = some s') : s'.unmoved = s.unmoved := by
  unfold calculatePlacement at h
  dsimp only at h
  split_ifs at h
  · cases h; rfl
  · obtain ⟨s₁, h₁, h⟩ := Option.bind_eq_some_iff.1 h
    obtain ⟨s₂, h₂, h⟩ := Option.bind_eq_some_iff.1 h
    obtain ⟨s₃, h₃, h⟩ := Option.bind_eq_some_iff.1 h
    rw [placePass_unmoved h, placePass_unmoved h₃, placePass_unmoved h₂, placeIrqsInNode_unmoved h₁]
    exact setSlot_unmoved ..

/-! ### The search for the best object -/

/-- What one object does to the search. -/
theorem findBestObject_cases {best best' : ObjPlacement} (h : findBestObject s best d = some best') :
    (best' = best ∧ (ineligible s best.info d = true ∨ best.best ≠ none ∨
      best.bestCost < (s.objs d).load)) ∨
    (ineligible s best.info d = false ∧ best'.best = some d ∧ best'.info = best.info) := by
  unfold findBestObject at h
  by_cases hin : ineligible s best.info d = true
  · rw [if_pos hin] at h
    cases h
    exact Or.inl ⟨rfl, Or.inl hin⟩
  · rw [if_neg hin] at h
    have hin' := Bool.eq_false_iff.2 hin
    dsimp only at h
    split_ifs at h with hlt heq
    · cases h
      exact Or.inr ⟨hin', rfl, rfl⟩
    · cases hold : best.best with
      | none => rw [hold] at h; cases h
      | some b =>
        rw [hold] at h
        dsimp only at h
        split_ifs at h
        · cases h
          exact Or.inr ⟨hin', rfl, rfl⟩
        · cases h
          exact Or.inl ⟨rfl, Or.inr (Or.inl (hold ▸ Option.some_ne_none b))⟩
    · cases h
      exact Or.inl ⟨rfl, Or.inr (Or.inr (by grind))⟩

/-- The best object is one of those looked at, and it is eligible. -/
theorem findBest_mem {objs : List ObjId} {place : ObjPlacement}
    (h : findBest s i objs = some place) (hb : place.best = some o) :
    o ∈ objs ∧ ineligible s i o = false := by
  refine (Loops.foldlM_inv (fun place : ObjPlacement => place.info = i ∧
    ∀ b, place.best = some b → b ∈ objs ∧ ineligible s i b = false) ?_ ⟨rfl, by simp⟩ h).2 o hb
  rintro d hd best best' ⟨hinfo, hbest⟩ hf
  rcases findBestObject_cases hf with ⟨rfl, -⟩ | ⟨hin, hd', hinfo'⟩
  · exact ⟨hinfo, hbest⟩
  · refine ⟨hinfo'.trans hinfo, fun b hb => ?_⟩
    rw [hd', Option.some.injEq] at hb
    rw [← hb, ← hinfo]
    exact ⟨hd, hin⟩

/-- If one of the objects is eligible, the search that ends finds one. As long as there is no best
object the bound is the largest number, and a cost that is equal to it ends in NULL. -/
theorem findBest_ne_none {objs : List ObjId} {place : ObjPlacement}
    (h : findBest s i objs = some place) (ho : o ∈ objs) (hin : ineligible s i o = false) :
    place.best ≠ none := by
  refine Loops.foldlM_forall
    (fun place : ObjPlacement => place.info = i ∧ (place.best = none → place.bestCost = ullongMax))
    (fun c place => ineligible s i c = false → place.best ≠ none) ?_ ?_ ?_ ⟨rfl, fun _ => rfl⟩ h o ho
    hin
  · rintro d - best best' ⟨hinfo, hbest⟩ hf
    rcases findBestObject_cases hf with ⟨rfl, -⟩ | ⟨-, hd, hinfo'⟩
    · exact ⟨hinfo, hbest⟩
    · exact ⟨hinfo'.trans hinfo, fun hnone => by rw [hd] at hnone; cases hnone⟩
  · rintro d - best best' ⟨hinfo, hbest⟩ hf hd
    rcases findBestObject_cases hf with ⟨rfl, hin' | hne | hlt⟩ | ⟨-, hd', -⟩
    · rw [hinfo, hd] at hin'; cases hin'
    · exact hne
    · intro hnone
      rw [hbest hnone] at hlt
      exact absurd hlt (by simp only [ullongMax]; grind)
    · rw [hd']; exact Option.some_ne_none d
  · rintro c - d - best best' - hd hf hind
    rcases findBestObject_cases hf with ⟨rfl, -⟩ | ⟨-, hd', -⟩
    · exact hd hind
    · rw [hd']; exact Option.some_ne_none c

/-! ### What the search depends on -/

theorem ineligible_congr (hopts : s'.opts = s.opts) (hunbanned : s'.unbannedCpus = s.unbannedCpus)
    (hobjs : ∀ o, ((s'.objs o).objType, (s'.objs o).number, (s'.objs o).mask,
        (s'.objs o).powersaveMode) =
      ((s.objs o).objType, (s.objs o).number, (s.objs o).mask, (s.objs o).powersaveMode))
    (hirqs : ∀ i, ((s'.irqs i).affinityHint, (s'.irqs i).hintPolicy) =
      ((s.irqs i).affinityHint, (s.irqs i).hintPolicy)) : ineligible s' = ineligible s := by
  funext i o
  have hobj := hobjs o
  have hirq := hirqs i
  simp only [Prod.mk.injEq] at hobj hirq
  obtain ⟨htype, hnumber, hmask, hsleep⟩ := hobj
  obtain ⟨hhint, hpolicy⟩ := hirq
  unfold ineligible IrqInfo.hasHint
  dsimp only
  rw [hopts, hunbanned, htype, hnumber, hmask, hsleep, hhint, hpolicy]

/-- Moving an irq does not change what is eligible. -/
theorem Moved.ineligible_eq {dst : Option ObjId} (h : Moved i dst s s') :
    ineligible s' = ineligible s := by
  refine ineligible_congr (show s'.unmoved.opts = s.unmoved.opts by rw [h.unmoved_eq])
    (show s'.unmoved.unbannedCpus = s.unmoved.unbannedCpus by rw [h.unmoved_eq]) (fun o => ?_)
    fun j => ?_
  · change ((s'.unmoved.objs o).objType, (s'.unmoved.objs o).number, (s'.unmoved.objs o).mask,
      (s'.unmoved.objs o).powersaveMode) = _
    rw [h.unmoved_eq]
    rfl
  · by_cases hj : j = i
    · rw [hj, h.irqs_self]
    · rw [h.irqs_of_ne hj]

/-- Sorting a bin does not change what is eligible. -/
theorem sort_ineligible (s : State) (a : Option ObjId) :
    ineligible (sortIrqList a s) = ineligible s := by
  cases a with
  | none => rfl
  | some d =>
    refine ineligible_congr rfl rfl (fun o => ?_) fun i => ?_
    · unfold sortIrqList State.setSlot
      dsimp only
      rw [State.modObj_objs]
      split_ifs <;> rfl
    · rfl

/-- The SUBSET hint of the irq leaves nothing of the object. -/
def HintMisses (s : State) (i : IrqId) (o : ObjId) : Prop :=
  (s.irqs i).hasHint .subset = true ∧ (s.irqs i).affinityHint &&& (s.objs o).mask = 0

/-- An object that is not a node is left out for its mask or because it sleeps. -/
theorem ineligible_iff (ho : (s.objs o).objType ≠ .node) :
    ineligible s i o = true ↔ HintMisses s i o ∨ (s.objs o).powersaveMode = true := by
  unfold ineligible HintMisses cpusEmpty
  simp [ho]

/-! ### One layer down -/

/-- The irq with the record `info` stays at the object: it has not moved, this is the kind of object
for its level, or no child is eligible. -/
def Stuck (s : State) (d : ObjId) (i : IrqId) (info : IrqInfo) : Prop :=
  info.moved = false ∨ staysAt (s.objs d).objType info.level = true ∨
    ∀ c ∈ s.kids d, ineligible s i c = true

/-- The irq of the object `d` with the record `info` has the record `info'` after it has been sent
down. -/
def Sent (s : State) (d : ObjId) (i : IrqId) (info info' : IrqInfo) : Prop :=
  (info' = info ∧ Stuck s d i info) ∨
    ∃ c ∈ s.kids d, ineligible s i c = false ∧ ¬Stuck s d i info ∧
      info' = { info with moved := true, assignedObj := some c }

/-- `find_best_object_for_irq` on an irq of the object. -/
theorem findBestObjectForIrq_cases (h : Live s) (hd : d ∈ s.topology) (hi : i ∈ s.slot (some d))
    (hf : findBestObjectForIrq d i s = some s') :
    (s' = s ∧ Stuck s d i (s.irqs i)) ∨
      ∃ c ∈ s.kids d, ineligible s i c = false ∧ ¬Stuck s d i (s.irqs i) ∧
        Moved i (some c) s s' := by
  obtain ⟨hi', hhome⟩ := (h.mem_slot (some_mem_slots.2 hd)).1 hi
  unfold findBestObjectForIrq at hf
  by_cases hmoved : (s.irqs i).moved = false
  · rw [hmoved] at hf
    cases hf
    exact Or.inl ⟨rfl, Or.inl hmoved⟩
  by_cases hstay : staysAt (s.objs d).objType (s.irqs i).level = true
  · simp only [Bool.not_eq_false] at hmoved
    rw [hmoved, hstay] at hf
    cases hf
    exact Or.inl ⟨rfl, Or.inr (Or.inl hstay)⟩
  simp only [Bool.not_eq_false] at hmoved
  rw [hmoved, if_neg (by decide), if_neg hstay] at hf
  obtain ⟨place, hplace, hf⟩ := Option.bind_eq_some_iff.1 hf
  cases hbest : place.best with
  | none =>
    rw [hbest] at hf
    cases hf
    refine Or.inl ⟨rfl, Or.inr (Or.inr fun c hc => ?_)⟩
    by_contra hin
    exact findBest_ne_none hplace hc (Bool.eq_false_iff.2 hin) hbest
  | some c =>
    rw [hbest] at hf
    cases hf
    obtain ⟨hc, hin⟩ := findBest_mem hplace hbest
    refine Or.inr ⟨c, hc, hin, ?_, hhome ▸ assignIrq_moved h hi' c⟩
    rintro (h1 | h2 | h3)
    · rw [hmoved] at h1; cases h1
    · exact hstay h2
    · rw [h3 c hc] at hin; cases hin

theorem findBestObjectForIrq_shifts (d : ObjId) : ShiftsIn {none}ᶜ id (some d) (findBestObjectForIrq d) := by
  intro i s s' h ha hi hf
  have hd : d ∈ s.topology := some_mem_slots.1 ha
  rcases findBestObjectForIrq_cases h hd hi hf with ⟨rfl, -⟩ | ⟨c, hc, -, -, hm⟩
  · exact Or.inl rfl
  · refine Or.inr ⟨some c, ⟨some_mem_slots.2 (h.topo.mem_topology_of_kid hd hc), Option.some_ne_none c⟩,
      ?_, hm⟩
    have hhome : s.home i = some d := ((h.mem_slot ha).1 hi).2
    rw [id, hhome]
    exact fun e => h.topo.kid_ne hd hc (Option.some.inj e)

/-- A step of the placement rearranges the irqs without changing what is eligible. -/
structure Places (s s' : State) : Prop where
  rearrange : Rearrange {none}ᶜ s s'
  ineligible_eq : ineligible s' = ineligible s

theorem Places.refl (s : State) : Places s s := ⟨.refl s, rfl⟩

theorem Places.trans (h : Places s t) (h' : Places t s') : Places s s' :=
  ⟨h.rearrange.trans h'.rearrange, h'.ineligible_eq.trans h.ineligible_eq⟩

theorem Shifts.places (h : Shifts {none}ᶜ i s s') (hi : i ∈ s.live) : Places s s' := by
  refine ⟨h.rearrange hi, ?_⟩
  rcases h with rfl | ⟨dst, -, -, hm⟩
  · rfl
  · exact hm.ineligible_eq

/-- Whether an irq is stuck depends on nothing that the placement changes but its own record. -/
theorem Stuck.congr (h : Places s s') : Stuck s' = Stuck s := by
  funext d i info
  have hkids : s'.kids d = s.kids d :=
    show s'.static.kids d = s.static.kids d by rw [h.rearrange.static_eq]
  have htype : (s'.objs d).objType = (s.objs d).objType :=
    show (s'.static.objs d).objType = (s.static.objs d).objType by rw [h.rearrange.static_eq]
  rw [Stuck, Stuck, hkids, htype, h.ineligible_eq]

theorem Sent.congr (h : Places s s') : Sent s' = Sent s := by
  funext d i info info'
  have hkids : s'.kids d = s.kids d :=
    show s'.static.kids d = s.static.kids d by rw [h.rearrange.static_eq]
  rw [Sent, Sent, Stuck.congr h, hkids, h.ineligible_eq]

/-- What a walk over the irqs of the bin `a` has done so far. -/
structure Walked (a : Option ObjId) (s t : State) : Prop where
  live : Live t
  mem : a ∈ t.slots
  places : Places s t
  irqs_eq : ∀ j, s.home j ≠ a → t.irqs j = s.irqs j

theorem Walked.refl (h : Live s) (ha : a ∈ s.slots) : Walked a s s :=
  ⟨h, ha, Places.refl s, fun _ _ => rfl⟩

/-- One call of the walk. -/
theorem Walked.shift (h : Walked a s t) (hi : i ∈ t.slot a) (hs : Shifts {none}ᶜ i t s') : Walked a s s' := by
  obtain ⟨hi', hhome⟩ := (h.live.mem_slot h.mem).1 hi
  have hp := hs.places hi'
  refine ⟨hp.rearrange.live h.live, hp.rearrange.mem_slots h.mem, h.places.trans hp, fun j hj => ?_⟩
  rcases hs with rfl | ⟨dst, -, -, hm⟩
  · exact h.irqs_eq j hj
  · have hji : j ≠ i := by
      rintro rfl
      exact hj (by rw [State.home, ← h.irqs_eq j hj]; exact hhome)
    rw [hm.irqs_of_ne hji, h.irqs_eq j hj]

theorem walked_unlinksSelf {cb : IrqId → State → Option State}
    (hcb : ∀ i t u, Walked a s t → i ∈ t.slot a → cb i t = some u → Shifts {none}ᶜ i t u) :
    Loops.UnlinksSelf (Walked a s) (fun t => t.slot a) cb := by
  intro i t u ht hi hu
  have hs := hcb i t u ht hi hu
  refine ⟨ht.shift hi hs, ?_⟩
  obtain ⟨hi', hhome⟩ := (ht.live.mem_slot ht.mem).1 hi
  rcases hs with rfl | ⟨dst, -, hne, hm⟩
  · exact Or.inl rfl
  · rw [← hhome]
    exact Or.inr (hm.slot_erase hne)

/-- A walk over a bin with a callback that leaves an irq or moves it away: the irqs of other bins keep
their records, and those of the bin get what the callback makes of them. -/
theorem walk_spec {cb : IrqId → State → Option State} (P : IrqId → IrqInfo → Prop)
    (hcb : ∀ i t u, Walked a s t → i ∈ t.slot a → cb i t = some u → Shifts {none}ᶜ i t u)
    (hP : ∀ i t u, Walked a s t → i ∈ t.slot a → t.irqs i = s.irqs i → cb i t = some u → P i (u.irqs i))
    (h : Live s) (ha : a ∈ s.slots) (hw : Loops.walk (fun t => t.slot a) cb s = some s') :
    Walked a s s' ∧ ∀ i ∈ s.slot a, P i (s'.irqs i) := by
  have hnd : ∀ t, Walked a s t → (t.slot a).Nodup := fun t ht => ht.live.slot_nodup ht.mem
  have hunlinks := walked_unlinksSelf hcb
  have hother : ∀ i j t u, i ≠ j → Walked a s t → j ∈ t.slot a → cb j t = some u →
      u.irqs i = t.irqs i := by
    intro i j t u hij ht hj hu
    rcases hcb j t u ht hj hu with rfl | ⟨dst, -, -, hm⟩
    · rfl
    · exact hm.irqs_of_ne hij
  refine ⟨Loops.walk_inv hnd hunlinks (Walked.refl h ha) hw, ?_⟩
  refine Loops.walk_each hnd hunlinks (fun i t => t.irqs i = s.irqs i) (fun i t => P i (t.irqs i))
    ?_ ?_ ?_ (Walked.refl h ha) (fun _ _ => rfl) hw
  · intro i j t u hij ht hj hR hu
    rw [hother i j t u hij ht hj hu, hR]
  · intro i t u ht hi hR hu
    exact hP i t u ht hi hR hu
  · intro i j t u hij ht hj hQ hu
    rw [hother i j t u hij ht hj hu]
    exact hQ

/-- The irqs of the objects `ds` have been sent down, and no others. -/
structure SentDown (ds : List ObjId) (s s' : State) : Prop where
  places : Places s s'
  other : ∀ i, (∀ d ∈ ds, s.home i ≠ some d) → s'.irqs i = s.irqs i
  sent : ∀ i ∈ s.live, ∀ d ∈ ds, s.home i = some d → Sent s d i (s.irqs i) (s'.irqs i)

/-- The irq with the record `info` has the record `info'` after a pass over the objects `ds`: it was
elsewhere or is stuck, or it has been sent to a child. -/
def Down (s : State) (i : IrqId) (ds : List ObjId) (info info' : IrqInfo) : Prop :=
  (info' = info ∧ ∀ d ∈ ds, info.assignedObj = some d → Stuck s d i info) ∨
    ∃ d ∈ ds, info.assignedObj = some d ∧ ¬Stuck s d i info ∧ ∃ c ∈ s.kids d,
      ineligible s i c = false ∧ info' = { info with moved := true, assignedObj := some c }

theorem SentDown.down {ds : List ObjId} (h : SentDown ds s s') (hi : i ∈ s.live) :
    Down s i ds (s.irqs i) (s'.irqs i) := by
  by_cases hex : ∃ d ∈ ds, s.home i = some d
  · obtain ⟨d, hd, hhome⟩ := hex
    rcases h.sent i hi d hd hhome with ⟨hirq, hstuck⟩ | ⟨c, hc, hin, hstuck, hirq⟩
    · refine Or.inl ⟨hirq, fun d' _ hd' => ?_⟩
      have e : some d = some d' := hhome.symm.trans hd'
      rwa [← Option.some.inj e]
    · exact Or.inr ⟨d, hd, hhome, hstuck, c, hc, hin, hirq⟩
  · have hnot : ∀ d ∈ ds, s.home i ≠ some d := fun d hd hhome => hex ⟨d, hd, hhome⟩
    exact Or.inl ⟨h.other i hnot, fun d hd hhome => absurd hhome (hnot d hd)⟩

theorem Down.congr (h : Places s s') : Down s' = Down s := by
  funext i ds info info'
  have hkids : s'.kids = s.kids := show s'.static.kids = s.static.kids by rw [h.rearrange.static_eq]
  rw [Down, Down, Stuck.congr h, hkids, h.ineligible_eq]

/-- **`place_irq_in_object` sends the irqs of the object down, and no others.** -/
theorem placeIrqInObject_spec (h : Live s) (hd : d ∈ s.topology) (hp : placeIrqInObject s d = some s') :
    SentDown [d] s s' := by
  have ha : some d ∈ s.slots := some_mem_slots.2 hd
  unfold placeIrqInObject at hp
  split_ifs at hp with hnil
  · cases hp
    refine ⟨Places.refl s, fun _ _ => rfl, fun i hi e he hhome => ?_⟩
    rw [List.mem_singleton] at he
    subst he
    have hmem : i ∈ (s.objs e).interrupts := (h.mem_slot ha).2 ⟨hi, hhome⟩
    rw [hnil] at hmem
    cases hmem
  · unfold forEachIrq at hp
    rw [forEachIrqOn_eq hnil] at hp
    have hdt : ∀ {t}, Walked (some d) s t → d ∈ t.topology := fun ht => some_mem_slots.1 ht.mem
    obtain ⟨hw, hsent⟩ := walk_spec (fun i info' => Sent s d i (s.irqs i) info')
      (fun i t u ht hi hu => findBestObjectForIrq_shifts d i t u ht.live ht.mem hi hu)
      (fun i t u ht hi hR hu => by
        rw [← Sent.congr ht.places, ← hR]
        rcases findBestObjectForIrq_cases ht.live (hdt ht) hi hu with ⟨rfl, hst⟩ | ⟨c, hc, hin, hst, hm⟩
        · exact Or.inl ⟨rfl, hst⟩
        · exact Or.inr ⟨c, hc, hin, hst, hm.irqs_self⟩) h ha hp
    refine ⟨hw.places, fun i hi => hw.irqs_eq i (hi d List.mem_cons_self), fun i hi e he hhome => ?_⟩
    rw [List.mem_singleton] at he
    subst he
    exact hsent i ((h.mem_slot ha).2 ⟨hi, hhome⟩)

theorem home_eq_of_irqs (h : s'.irqs i = s.irqs i) : s'.home i = s.home i := by
  rw [State.home, State.home, h]

/-- **A pass over objects none of which is a child of another sends the irqs of these objects down.** -/
theorem foldlM_placeIrqInObject_spec {ds : List ObjId} (h : Live s) (hds : ∀ d ∈ ds, d ∈ s.topology)
    (hkids : ∀ d ∈ ds, ∀ c ∈ s.kids d, c ∉ ds) (hp : ds.foldlM placeIrqInObject s = some s') :
    SentDown ds s s' := by
  induction ds generalizing s with
  | nil =>
    cases hp
    exact ⟨Places.refl _, fun _ _ => rfl, fun _ _ d hd => absurd hd List.not_mem_nil⟩
  | cons d ds ih =>
    rw [List.foldlM_cons] at hp
    obtain ⟨t, ht, hp⟩ := Option.bind_eq_some_iff.1 hp
    obtain ⟨hst, hother, hsent⟩ := placeIrqInObject_spec h (hds d List.mem_cons_self) ht
    have hstatic := hst.rearrange.static_eq
    have htkids : t.kids = s.kids := show t.static.kids = s.static.kids by rw [hstatic]
    obtain ⟨htu, hother', hsent'⟩ := ih (hst.rearrange.live h)
      (fun d' hd' => by rw [topology_of_static hstatic]; exact hds d' (List.mem_cons_of_mem d hd'))
      (fun d' hd' c hc hm => by
        rw [htkids] at hc
        exact hkids d' (List.mem_cons_of_mem d hd') c hc (List.mem_cons_of_mem d hm)) hp
    refine ⟨hst.trans htu, fun i hi => ?_, fun i hi d' hd' hhome => ?_⟩
    · have hti := hother i (by simpa using hi d List.mem_cons_self)
      rw [hother' i fun d' hd' => by
        rw [home_eq_of_irqs hti]; exact hi d' (List.mem_cons_of_mem d hd'), hti]
    · have hi' : i ∈ t.live := by rw [live_of_static hstatic]; exact hi
      -- an irq that has its old record is sent down by the rest of the pass, if its object is there
      have hrest : t.irqs i = s.irqs i → (d' ∉ ds → Sent s d' i (s.irqs i) (t.irqs i)) →
          Sent s d' i (s.irqs i) (s'.irqs i) := by
        intro hti hlast
        by_cases hmem : d' ∈ ds
        · rw [← Sent.congr hst, ← hti]
          exact hsent' i hi' d' hmem (by rw [home_eq_of_irqs hti, hhome])
        · rw [hother' i fun e he => by
            rw [home_eq_of_irqs hti, hhome]; exact fun e' => hmem (Option.some.inj e' ▸ he)]
          exact hlast hmem
      by_cases hdd : d' = d
      · subst hdd
        rcases hsent i hi d' List.mem_cons_self hhome with ⟨hti, hstuck⟩ | ⟨c, hc, hin, hstuck, hti⟩
        · exact hrest hti fun _ => Or.inl ⟨hti, hstuck⟩
        · have hhome' : t.home i = some c := by rw [State.home, hti]
          rw [hother' i fun e he => by
            rw [hhome']
            exact fun e' => hkids d' List.mem_cons_self c hc
              (List.mem_cons_of_mem d' (Option.some.inj e' ▸ he))]
          exact Or.inr ⟨c, hc, hin, hstuck, hti⟩
      · have hmem : d' ∈ ds := (List.mem_cons.1 hd').resolve_left hdd
        have hti := hother i (by simpa [hhome] using hdd)
        exact hrest hti fun hnot => absurd hmem hnot

/-! ### The node -/

/-- `place_irq_in_node` on an irq of `rebalance_irq_list`. -/
theorem placeIrqInNode_best (h : Live s) (hi : i ∈ s.slot none) (hp : placeIrqInNode i s = some s') :
    (s' = s ∧ ineligible s i unspecifiedNode = true) ∨
      (ineligible s i unspecifiedNode = false ∧ s' = assignIrq none unspecifiedNode i s) := by
  obtain ⟨hi', -⟩ := (h.mem_slot (none_mem_slots s)).1 hi
  have hnuma := h.db.numaNode i hi'.1
  unfold placeIrqInNode at hp
  rw [if_neg fun hl => hi'.2 hl.1] at hp
  dsimp only at hp
  rw [hnuma] at hp
  dsimp only at hp
  rw [if_pos h.topo.nodeNumber] at hp
  obtain ⟨place, hplace, hp⟩ := Option.bind_eq_some_iff.1 hp
  rw [h.topo.numaNodes] at hplace
  cases hbest : place.best with
  | none =>
    rw [hbest] at hp
    cases hp
    refine Or.inl ⟨rfl, ?_⟩
    by_contra hin
    exact findBest_ne_none hplace List.mem_cons_self (Bool.eq_false_iff.2 hin) hbest
  | some node =>
    rw [hbest] at hp
    cases hp
    obtain ⟨hnode, hin⟩ := findBest_mem hplace hbest
    rw [List.mem_singleton] at hnode
    subst hnode
    exact Or.inr ⟨hin, rfl⟩

theorem placeIrqInNode_cases (h : Live s) (hi : i ∈ s.slot none) (hp : placeIrqInNode i s = some s') :
    (s' = s ∧ ineligible s i unspecifiedNode = true) ∨
      (ineligible s i unspecifiedNode = false ∧ Moved i (some unspecifiedNode) s s') := by
  obtain ⟨hi', hhome⟩ := (h.mem_slot (none_mem_slots s)).1 hi
  rcases placeIrqInNode_best h hi hp with hstays | ⟨hin, rfl⟩
  · exact Or.inl hstays
  · exact Or.inr ⟨hin, hhome ▸ assignIrq_moved h hi' unspecifiedNode⟩

theorem placeIrqInNode_shifts : ShiftsIn {none}ᶜ id none placeIrqInNode := by
  intro i s s' h ha hi hp
  rcases placeIrqInNode_cases h hi hp with ⟨rfl, -⟩ | ⟨-, hm⟩
  · exact Or.inl rfl
  · refine Or.inr ⟨_, ⟨some_mem_slots.2 (unspecifiedNode_mem_topology h.topo), Option.some_ne_none _⟩,
      ?_, hm⟩
    have hhome : s.home i = none := ((h.mem_slot ha).1 hi).2
    rw [id, hhome]
    exact Option.some_ne_none _

/-- The irq of `rebalance_irq_list` has the record `info'` after the search for a node. -/
def ToNode (s : State) (i : IrqId) (info' : IrqInfo) : Prop :=
  (info' = s.irqs i ∧ ineligible s i unspecifiedNode = true) ∨
    (ineligible s i unspecifiedNode = false ∧
      info' = { s.irqs i with moved := true, assignedObj := some unspecifiedNode })

/-- The irqs of `rebalance_irq_list` have been taken to the node, and no others. -/
structure TakenToNode (s s' : State) : Prop where
  places : Places s s'
  other : ∀ i, s.home i ≠ none → s'.irqs i = s.irqs i
  toNode : ∀ i ∈ s.live, s.home i = none → ToNode s i (s'.irqs i)

theorem placeIrqsInNode_eq (hne : s.rebalanceIrqList ≠ []) :
    forEachIrq State.rebalanceIrqList placeIrqInNode s = Loops.walk (fun t => t.slot none) placeIrqInNode s := by
  unfold forEachIrq
  exact forEachIrqOn_eq hne

/-- The walk over `rebalance_irq_list`. -/
theorem placeIrqsInNode_spec (h : Live s) (hne : s.rebalanceIrqList ≠ [])
    (hp : forEachIrq State.rebalanceIrqList placeIrqInNode s = some s') : TakenToNode s s' := by
  rw [placeIrqsInNode_eq hne] at hp
  obtain ⟨hw, hto⟩ := walk_spec (fun i info' => ToNode s i info')
    (fun i t u ht hi hu => placeIrqInNode_shifts i t u ht.live ht.mem hi hu)
    (fun i t u ht hi hR hu => by
      rw [ToNode, ← ht.places.ineligible_eq, ← hR]
      rcases placeIrqInNode_cases ht.live hi hu with ⟨rfl, hin⟩ | ⟨hin, hm⟩
      · exact Or.inl ⟨rfl, hin⟩
      · exact Or.inr ⟨hin, hm.irqs_self⟩) h (none_mem_slots s) hp
  exact ⟨hw.places, hw.irqs_eq, fun i hi hhome =>
    hto i ((h.mem_slot (none_mem_slots s)).2 ⟨hi, hhome⟩)⟩

/-! ### The four passes -/

/-- The passes of `calculate_placement`. -/
def Passes (s s' : State) : Prop :=
  ∃ s₁ s₂ s₃, TakenToNode (sortIrqList none s) s₁ ∧
    SentDown [unspecifiedNode] s₁ s₂ ∧ SentDown s.packages s₂ s₃ ∧ SentDown s.cacheDomains s₃ s'

/-- **`calculate_placement` does nothing but sort an empty list, or makes its four passes.** -/
theorem calculatePlacement_passes (h : Live s) (hp : calculatePlacement s = some s') :
    (s.rebalanceIrqList = [] ∧ s' = sortIrqList none s) ∨ Passes s s' := by
  unfold calculatePlacement at hp
  dsimp only at hp
  have hperm : (sortIrqList none s).rebalanceIrqList.Perm s.rebalanceIrqList :=
    sort_slot_perm s none none
  by_cases hnil : (sortIrqList none s).rebalanceIrqList = []
  · rw [if_pos hnil] at hp
    cases hp
    rw [hnil] at hperm
    exact Or.inl ⟨hperm.symm.eq_nil, rfl⟩
  rw [if_neg hnil] at hp
  right
  obtain ⟨s₁, h₁, hp⟩ := Option.bind_eq_some_iff.1 hp
  obtain ⟨s₂, h₂, hp⟩ := Option.bind_eq_some_iff.1 hp
  obtain ⟨s₃, h₃, hp⟩ := Option.bind_eq_some_iff.1 hp
  have hsort := h.sort none
  have w₁ := placeIrqsInNode_spec hsort hnil h₁
  have live₁ := w₁.places.rearrange.live hsort
  have e₁ : s₁.static = s.static := w₁.places.rearrange.static_eq.trans (static_sortIrqList none s)
  rw [live₁.topo.numaNodes] at h₂
  have w₂ : SentDown [unspecifiedNode] s₁ s₂ := by
    refine foldlM_placeIrqInObject_spec live₁ (fun d hd => ?_) (fun d hd c hc => ?_) h₂
    · rw [List.mem_singleton.1 hd]
      exact unspecifiedNode_mem_topology live₁.topo
    · rw [List.mem_singleton.1 hd] at hc
      rw [List.mem_singleton]
      exact live₁.topo.kid_ne (unspecifiedNode_mem_topology live₁.topo) hc
  have live₂ := w₂.places.rearrange.live live₁
  have e₂ : s₂.static = s.static := w₂.places.rearrange.static_eq.trans e₁
  rw [packages_of_static e₂] at h₃
  have w₃ : SentDown s.packages s₂ s₃ := by
    refine foldlM_placeIrqInObject_spec live₂ (fun d hd => ?_) (fun d hd c hc hm => ?_) h₃ <;>
      rw [← packages_of_static e₂] at *
    · exact (mem_topology live₂.topo).2 (Or.inr (Or.inl hd))
    · exact (live₂.topo.isCache c (live₂.topo.package_kids d hd c hc)).ne
        (live₂.topo.isPackage c hm) (by decide) rfl
  have live₃ := w₃.places.rearrange.live live₂
  have e₃ : s₃.static = s.static := w₃.places.rearrange.static_eq.trans e₂
  rw [cacheDomains_of_static e₃] at hp
  have w₄ : SentDown s.cacheDomains s₃ s' := by
    refine foldlM_placeIrqInObject_spec live₃ (fun d hd => ?_) (fun d hd c hc hm => ?_) hp <;>
      rw [← cacheDomains_of_static e₃] at *
    · exact (mem_topology live₃.topo).2 (Or.inr (Or.inr (Or.inl hd)))
    · exact (live₃.topo.isCpu c (live₃.topo.cache_kids d hd c hc)).ne
        (live₃.topo.isCache c hm) (by decide) rfl
  exact ⟨s₁, s₂, s₃, w₁, w₂, w₃, w₄⟩

/-- **`calculate_placement` rearranges the irqs.** -/
theorem calculatePlacement_rearrange (h : Live s) (hp : calculatePlacement s = some s') :
    Rearrange {none}ᶜ s s' := by
  have hsort : Rearrange {none}ᶜ s (sortIrqList none s) := (Rearrange.refl s).sort (none_mem_slots s)
  rcases calculatePlacement_passes h hp with ⟨-, rfl⟩ | ⟨s₁, s₂, s₃, w₁, w₂, w₃, w₄⟩
  · exact hsort
  · exact hsort.trans (w₁.places.trans (w₂.places.trans (w₃.places.trans w₄.places))).rearrange

/-- The records of an irq during `calculate_placement`: it is taken to the node, if it was in
`rebalance_irq_list`, and then goes down from layer to layer. -/
def Trail (s : State) (i : IrqId) (info' : IrqInfo) : Prop :=
  ∃ info₁ info₂ info₃,
    (s.home i ≠ none ∧ info₁ = s.irqs i ∨ s.home i = none ∧ ToNode s i info₁) ∧
    Down s i [unspecifiedNode] info₁ info₂ ∧ Down s i s.packages info₂ info₃ ∧
    Down s i s.cacheDomains info₃ info'

/-- **What `calculate_placement` does to a single irq.** -/
theorem calculatePlacement_trail (h : Live s) (hp : calculatePlacement s = some s') (hi : i ∈ s.live) :
    (s.home i ≠ none ∧ s'.irqs i = s.irqs i) ∨ Trail s i (s'.irqs i) := by
  have hirqs : (sortIrqList none s).irqs = s.irqs := State.setSlot_irqs ..
  rcases calculatePlacement_passes h hp with ⟨hnil, rfl⟩ | ⟨s₁, s₂, s₃, w₁, w₂, w₃, w₄⟩
  · refine Or.inl ⟨fun hnone => ?_, by rw [hirqs]⟩
    have hmem : i ∈ s.rebalanceIrqList := (h.mem_slot (none_mem_slots s)).2 ⟨hi, hnone⟩
    rw [hnil] at hmem
    cases hmem
  · have p₀ : Places s (sortIrqList none s) :=
      ⟨(Rearrange.refl s).sort (none_mem_slots s), sort_ineligible s none⟩
    have p₁ := p₀.trans w₁.places
    have p₂ := p₁.trans w₂.places
    have p₃ := p₂.trans w₃.places
    have hlive : ∀ {t}, Places s t → i ∈ t.live := fun ht => by
      rw [live_of_static ht.rearrange.static_eq]; exact hi
    have d₂ := w₂.down (hlive p₁)
    have d₃ := w₃.down (hlive p₂)
    have d₄ := w₄.down (hlive p₃)
    rw [Down.congr p₁] at d₂
    rw [Down.congr p₂] at d₃
    rw [Down.congr p₃] at d₄
    refine Or.inr ⟨s₁.irqs i, s₂.irqs i, s₃.irqs i, ?_, d₂, d₃, d₄⟩
    by_cases hnone : s.home i = none
    · have hto := w₁.toNode i (hlive p₀) (by rw [sort_home]; exact hnone)
      rw [ToNode, p₀.ineligible_eq, hirqs] at hto
      exact Or.inr ⟨hnone, hto⟩
    · have hother := w₁.other i (by rw [sort_home]; exact hnone)
      rw [hirqs] at hother
      exact Or.inl ⟨hnone, hother⟩

/-! ### Where an irq lands -/

/-- An irq that is sent down from the object `d` lands at the object `o`. -/
inductive Lands (s : State) (i : IrqId) : ObjId → ObjId → Prop
  | stays {d : ObjId} (h : staysAt (s.objs d).objType (s.irqs i).level = true) : Lands s i d d
  | stuck {d : ObjId} (h : ∀ c ∈ s.kids d, ineligible s i c = true) : Lands s i d d
  | down {d c o : ObjId} (hstay : staysAt (s.objs d).objType (s.irqs i).level = false)
      (hc : c ∈ s.kids d) (hin : ineligible s i c = false) (h : Lands s i c o) : Lands s i d o

theorem Stuck.lands {info : IrqInfo} (h : Stuck s d i info) (hmoved : info.moved = true)
    (hlevel : info.level = (s.irqs i).level) : Lands s i d d := by
  rcases h with h | h | h
  · rw [hmoved] at h; cases h
  · exact .stays (hlevel ▸ h)
  · exact .stuck h

/-- A pass over other objects. -/
theorem Down.elsewhere {ds : List ObjId} {info info' : IrqInfo} (h : Down s i ds info info')
    (hobj : info.assignedObj = some o) (ho : o ∉ ds) : info' = info := by
  rcases h with ⟨e, -⟩ | ⟨d, hd, hobj', -⟩
  · exact e
  · rw [hobj, Option.some.injEq] at hobj'
    exact absurd (hobj' ▸ hd) ho

/-- A pass over objects, one of which has the irq. -/
theorem Down.cases {ds : List ObjId} {info info' : IrqInfo} (h : Down s i ds info info')
    (hobj : info.assignedObj = some d) (hd : d ∈ ds) (hmoved : info.moved = true)
    (hlevel : info.level = (s.irqs i).level) :
    (info' = info ∧ Lands s i d d) ∨
      staysAt (s.objs d).objType (s.irqs i).level = false ∧ ∃ c ∈ s.kids d,
        ineligible s i c = false ∧ info' = { info with moved := true, assignedObj := some c } := by
  rcases h with ⟨e, hstuck⟩ | ⟨d', -, hobj', hstuck, c, hc, hin, e⟩
  · exact Or.inl ⟨e, (hstuck d hd hobj).lands hmoved hlevel⟩
  · rw [hobj, Option.some.injEq] at hobj'
    subst hobj'
    have hstay : ¬staysAt (s.objs d).objType info.level = true :=
      fun hstay => hstuck (Or.inr (Or.inl hstay))
    rw [hlevel, Bool.not_eq_true] at hstay
    exact Or.inr ⟨hstay, c, hc, hin, e⟩

/-- **An irq of `rebalance_irq_list` lands where the descent from the node leads it.** -/
theorem calculatePlacement_lands (h : Live s) (hp : calculatePlacement s = some s') (hi : i ∈ s.live)
    (hhome : s.home i = none) (hnode : ineligible s i unspecifiedNode = false) :
    ∃ o, s'.home i = some o ∧ Lands s i unspecifiedNode o := by
  have htopo := h.topo
  rcases calculatePlacement_trail h hp hi with ⟨hne, -⟩ | ⟨info₁, info₂, info₃, hto, d₂, d₃, d₄⟩
  · exact absurd hhome hne
  rcases hto with ⟨hne, -⟩ | ⟨-, hto⟩
  · exact absurd hhome hne
  rcases hto with ⟨-, hin⟩ | ⟨-, e₁⟩
  · rw [hnode] at hin; cases hin
  have hnodeLayers : unspecifiedNode ∉ s.packages ∧ unspecifiedNode ∉ s.cacheDomains :=
    ⟨fun hm => htopo.ne_node (htopo.isPackage _ hm) (by decide) rfl,
      fun hm => htopo.ne_node (htopo.isCache _ hm) (by decide) rfl⟩
  have hlevel : ∀ {obj : ObjId}, ({ s.irqs i with moved := true, assignedObj := some obj } : IrqInfo).level =
      (s.irqs i).level := rfl
  subst e₁
  rcases d₂.cases rfl List.mem_cons_self rfl hlevel with ⟨e₂, hl⟩ | ⟨hstay₂, p, hp, hinp, e₂⟩
  · -- it stays at the node
    subst e₂
    have e₃ := d₃.elsewhere rfl hnodeLayers.1
    subst e₃
    have e₄ := d₄.elsewhere rfl hnodeLayers.2
    exact ⟨unspecifiedNode, by rw [State.home, e₄], hl⟩
  subst e₂
  rw [htopo.node_kids] at hp
  rcases d₃.cases rfl hp rfl hlevel with ⟨e₃, hl⟩ | ⟨hstay₃, c, hc, hinc, e₃⟩
  · -- it stays at a package
    subst e₃
    have hpc : p ∉ s.cacheDomains := fun hm =>
      (htopo.isPackage p hp).ne (htopo.isCache p hm) (by decide) rfl
    have e₄ := d₄.elsewhere rfl hpc
    exact ⟨p, by rw [State.home, e₄], .down hstay₂ (htopo.node_kids ▸ hp) hinp hl⟩
  subst e₃
  have hcc := htopo.package_kids p hp c hc
  rcases d₄.cases rfl hcc rfl hlevel with ⟨e₄, hl⟩ | ⟨hstay₄, k, hk, hink, e₄⟩
  · exact ⟨c, by rw [State.home, e₄],
      .down hstay₂ (htopo.node_kids ▸ hp) hinp (.down hstay₃ hc hinc hl)⟩
  · have hkk := htopo.cache_kids c hcc k hk
    have hl : Lands s i k k := .stuck fun x hx => by rw [htopo.cpu_kids k hkk] at hx; cases hx
    exact ⟨k, by rw [State.home, e₄],
      .down hstay₂ (htopo.node_kids ▸ hp) hinp (.down hstay₃ hc hinc (.down hstay₄ hk hink hl))⟩

end IrqBalance

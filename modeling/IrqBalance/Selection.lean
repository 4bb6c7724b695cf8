import IrqBalance.Accounts
import IrqBalance.LoadStats

/-!
# Selecting irqs

`move_candidate_irqs` compares `adjustment_load - load` with `min_load + load` in 64 bits. The comparison is
exact because the irqs of an object have at most its load (`Accounted`), and because `min_load` stays below
the load of another object of the same kind (`MinFits`).
-/

namespace IrqBalance

variable {s s' t : State} {i : IrqId} {o : ObjId} {D : Set (Option ObjId)}

/-! ### The walk over the irqs of an object -/

/-- The irqs that were at an object and have left it. -/
def selectedIrqs (o : ObjId) (s s' : State) : List IrqId :=
  (s.objs o).interrupts.filter fun i => i ∉ (s'.objs o).interrupts

/-- Their load. -/
def selectedLoad (o : ObjId) (s s' : State) : ℕ :=
  ((selectedIrqs o s s').map fun i => (s.irqLoads i).toNat).sum

/-- The state `q` while the irqs of `o` are selected, in exact arithmetic: `u` is the state at the start, and
`sel` the load selected so far. -/
structure Selecting (o : ObjId) (u : State) (m : ℕ) (sel : ℕ) (q : State × LoadBalanceInfo) : Prop where
  rearrange : Rearrange {none} u q.1
  loads : q.1.loads = u.loads
  kept : (u.objs o).interrupts ≠ [] → (q.1.objs o).interrupts ≠ []
  selected : ∀ i ∈ selectedIrqs o u q.1,
    (u.irqs i).level ≠ .none ∧ 1 < u.irqLoads i ∧ (u.irqs i).hasHint .exact = false
  sum : sel + ((q.1.objs o).interrupts.map fun i => (u.irqLoads i).toNat).sum =
    ((u.objs o).interrupts.map fun i => (u.irqLoads i).toNat).sum
  minLoad : q.2.minLoad.toNat = m + sel
  adjustmentLoad : q.2.adjustmentLoad.toNat + sel = (u.loads o).toNat
  covered : ((q.1.objs o).interrupts.map fun i => bigLoad (u.irqLoads i)).sum + sel ≤ (u.loads o).toNat
  less : sel = 0 ∨ m + sel < (u.loads o).toNat - sel

theorem mem_selectedIrqs {u : State} : i ∈ selectedIrqs o u s ↔
    i ∈ (u.objs o).interrupts ∧ i ∉ (s.objs o).interrupts := by
  simp [selectedIrqs]

/-- An irq that may be selected has at most `adjustment_load`. -/
theorem Selecting.load_le {u : State} {m sel : ℕ} {q : State × LoadBalanceInfo} (hq : Selecting o u m sel q)
    (hi : i ∈ (q.1.objs o).interrupts) (hbig : 1 < q.1.irqLoads i) :
    q.1.irqLoads i ≤ q.2.adjustmentLoad := by
  rw [hq.rearrange.irqLoads_eq] at hbig ⊢
  have hb : bigLoad (u.irqLoads i) = (u.irqLoads i).toNat := if_neg (UInt64.not_le.2 hbig)
  have hle := Sums.le_sum_map hi fun i => bigLoad (u.irqLoads i)
  have hcovered := hq.covered
  have hadj := hq.adjustmentLoad
  exact UInt64.le_iff_toNat_le.2 (by omega)

/-- **Neither side of the comparison wraps.** -/
theorem Selecting.sides {u : State} {m sel : ℕ} {q : State × LoadBalanceInfo} (hq : Selecting o u m sel q)
    (hi : i ∈ (q.1.objs o).interrupts) (hbig : 1 < q.1.irqLoads i) (hroom : m + (u.loads o).toNat < 2 ^ 64) :
    (q.2.minLoad + q.1.irqLoads i).toNat = q.2.minLoad.toNat + (q.1.irqLoads i).toNat ∧
    (q.2.adjustmentLoad - q.1.irqLoads i).toNat = q.2.adjustmentLoad.toNat - (q.1.irqLoads i).toNat := by
  have hle := UInt64.le_iff_toNat_le.1 (hq.load_le hi hbig)
  have hmin := hq.minLoad
  have hadj := hq.adjustmentLoad
  exact ⟨Sums.toNat_add (by omega), Sums.toNat_sub (UInt64.le_iff_toNat_le.2 hle)⟩

/-- One call of `move_candidate_irqs`. -/
theorem Selecting.step {u : State} {m sel : ℕ} {q q' : State × LoadBalanceInfo} (hq : Selecting o u m sel q)
    (h : Live u) (ho : o ∈ u.topology)
    (hroom : (∃ i ∈ (u.objs o).interrupts, 1 < u.irqLoads i) → m + (u.loads o).toNat < 2 ^ 64)
    (hi : i ∈ (q.1.objs o).interrupts) (hm : moveCandidateIrqs i q = some q') :
    ∃ sel', Selecting o u m sel' q' := by
  have hloads : q'.1.loads = u.loads :=
    (loads_of_scores (congrArg Prod.fst (moveCandidateIrqs_counts hm))).trans hq.loads
  rcases moveCandidateIrqs_cases hm with rfl | ⟨obj, hsel, rfl⟩
  · exact ⟨sel, hq⟩
  have hlive := hq.rearrange.live h
  obtain ⟨hi', hhome⟩ := (hlive.mem_slot (hq.rearrange.mem_slots (some_mem_slots.2 ho))).1 hi
  have hobj : obj = o := Option.some.inj (hsel.assignedObj.symm.trans hhome)
  subst hobj
  have hmoved := takeOff_moved hlive hi' hhome
  have hne : none ≠ q.1.home i := by simp [hhome]
  have herase : ((takeOff obj i q.1).objs obj).interrupts = (q.1.objs obj).interrupts.erase i := by
    have e := hmoved.slot_erase hne
    rw [hhome] at e
    exact e
  have hload : q.1.irqLoads = u.irqLoads := hq.rearrange.irqLoads_eq
  have hi₀ : i ∈ (u.objs obj).interrupts := hq.rearrange.mem_interrupts h ho hi
  have hbig : 1 < u.irqLoads i := hload ▸ hsel.load
  -- the sums over the list, with the irq split off
  have hsplit : ∀ f : IrqId → ℕ, ((q.1.objs obj).interrupts.map f).sum =
      f i + (((q.1.objs obj).interrupts.erase i).map f).sum := fun f => by
    rw [((List.perm_cons_erase hi).map f).sum_eq, List.map_cons, List.sum_cons]
  have hb : bigLoad (u.irqLoads i) = (u.irqLoads i).toNat := if_neg (UInt64.not_le.2 hbig)
  have hsum := hq.sum
  have hcovered := hq.covered
  rw [hsplit] at hsum hcovered
  rw [hb] at hcovered
  have hmin := hq.minLoad
  have hadj := hq.adjustmentLoad
  obtain ⟨hplus, hminus⟩ := hq.sides hi hsel.load (hroom ⟨i, hi₀, hbig⟩)
  have hl : (q.1.irqs i).load = u.irqLoads i := congrFun hload i
  have hless := UInt64.lt_iff_toNat_lt.1 hsel.less
  rw [congrFun hload i] at hplus hminus
  rw [hl, hplus, hminus] at hless
  refine ⟨sel + (u.irqLoads i).toNat, ?_, hloads, fun _ => ?_, fun j hj => ?_, ?_, ?_, ?_, ?_, ?_⟩
  · exact hq.rearrange.trans ((Rearrange.refl _).move hi' ⟨none_mem_slots _, rfl⟩ hne hmoved)
  · rw [herase]
    apply List.ne_nil_of_length_pos
    rw [List.length_erase_of_mem hi]
    exact Nat.sub_pos_of_lt hsel.length
  · obtain ⟨hj, hj'⟩ := mem_selectedIrqs.1 hj
    rw [herase] at hj'
    by_cases hji : j = i
    · subst hji
      refine ⟨?_, hbig, ?_⟩
      · rw [← level_of_static hq.rearrange.static_eq]
        exact hsel.level
      · rw [← hasHint_of_static hq.rearrange.static_eq]
        exact hsel.not_exact
    · exact hq.selected j (mem_selectedIrqs.2 ⟨hj, fun hm => hj' ((List.mem_erase_of_ne hji).2 hm)⟩)
  · rw [herase]
    omega
  · dsimp only
    rw [hl, hplus]
    omega
  · dsimp only
    rw [hl, hminus]
    omega
  · rw [herase]
    omega
  · exact Or.inr (by omega)

/-! ### The turn of an object -/

/-- The calls of `move_candidate_irqs` behind the counters, with the data they are given. -/
def objSelectionCalls (obj : ObjId) (p : State × LoadBalanceInfo) :
    List (IrqId × State × LoadBalanceInfo) :=
  let o := p.1.objs obj
  if p.2.minLoad < o.load ∧ 1 < o.interrupts.length then
    forEachIrqCalls Prod.fst (fun s => (s.objs obj).interrupts) moveCandidateIrqs
      (sortIrqList (some obj) p.1, { p.2 with adjustmentLoad := o.load })
  else []

/-- The calls of `move_candidate_irqs` that `migrate_overloaded_irqs` makes for an object. -/
def selectionCalls (obj : ObjId) (p : State × LoadBalanceInfo) :
    List (IrqId × State × LoadBalanceInfo) :=
  objSelectionCalls obj (p.1, countObj p.1 p.2 obj)

/-- The call `e` for the object `o` takes its irq off `o`. -/
def Selects (o : ObjId) (e : IrqId × State × LoadBalanceInfo) : Prop :=
  ∃ q', moveCandidateIrqs e.1 e.2 = some q' ∧ e.1 ∉ (q'.1.objs o).interrupts

/-- The call `e` for the object `o`, in exact arithmetic: the selection has begun with the state `u`. -/
structure CallExact (o : ObjId) (u : State) (e : IrqId × State × LoadBalanceInfo) : Prop where
  rearrange : Rearrange {none} u e.2.1
  loads : e.2.1.loads = u.loads
  load_le : 1 < e.2.1.irqLoads e.1 → e.2.1.irqLoads e.1 ≤ e.2.2.adjustmentLoad
  adjustmentLoad_le : e.2.2.adjustmentLoad ≤ u.loads o
  less : Selects o e → e.2.2.minLoad.toNat + (u.irqLoads e.1).toNat <
    e.2.2.adjustmentLoad.toNat - (u.irqLoads e.1).toNat

theorem countObj_minLoad (s : State) (info : LoadBalanceInfo) (o : ObjId) :
    (countObj s info o).minLoad = info.minLoad := by
  rw [countObj_eq]
  generalize isUnder (s.objs o).load info = below
  generalize isOver (s.objs o).load info = above
  cases below
  · cases above <;> rfl
  · rfl

section Walk

variable {u : State} {m : ℕ}

theorem Selecting.start {info : LoadBalanceInfo} (hcover : Covered u o) (hm : info.minLoad.toNat = m)
    (hadj : info.adjustmentLoad = u.loads o) : Selecting o u m 0 (u, info) where
  rearrange := .refl u
  loads := rfl
  kept := id
  selected _ hi := absurd (mem_selectedIrqs.1 hi).1 (mem_selectedIrqs.1 hi).2
  sum := Nat.zero_add _
  minLoad := hm
  adjustmentLoad := congrArg UInt64.toNat hadj
  covered := hcover
  less := Or.inl rfl

theorem Selecting.sel_eq {sel : ℕ} {q : State × LoadBalanceInfo} (hq : Selecting o u m sel q) (h : Live u)
    (ho : o ∈ u.topology) : sel = selectedLoad o u q.1 := by
  have hnd := (hq.rearrange.live h).interrupts_nodup
    (by rw [topology_of_static hq.rearrange.static_eq]; exact ho)
  have hsplit := Sums.sum_map_filter_notMem (h.interrupts_nodup ho) hnd
    (fun i hi => hq.rearrange.mem_interrupts h ho hi) fun i => (u.irqLoads i).toNat
  have hsum := hq.sum
  unfold selectedLoad selectedIrqs
  omega

variable (h : Live u) (ho : o ∈ u.topology)
  (hroom : (∃ i ∈ (u.objs o).interrupts, 1 < u.irqLoads i) → m + (u.loads o).toNat < 2 ^ 64)
include h ho hroom

theorem selecting_unlinksSelf : Loops.UnlinksSelf (fun q => ∃ sel, Selecting o u m sel q)
    (fun q : State × LoadBalanceInfo => (q.1.objs o).interrupts) moveCandidateIrqs := by
  rintro i q q' ⟨sel, hq⟩ hi hm
  refine ⟨hq.step h ho hroom hi hm, ?_⟩
  exact ((moveCandidateIrqs_shifts o).unlinksSelf u i q q' ⟨hq.rearrange.live h,
    hq.rearrange.mem_slots (some_mem_slots.2 ho), hq.rearrange⟩ hi hm).2

omit hroom in
theorem selecting_nodup : ∀ q : State × LoadBalanceInfo, (∃ sel, Selecting o u m sel q) →
    (q.1.objs o).interrupts.Nodup := by
  rintro q ⟨sel, hq⟩
  refine (hq.rearrange.live h).interrupts_nodup ?_
  rw [topology_of_static hq.rearrange.static_eq]
  exact ho

end Walk

theorem Selecting.callExact {u : State} {m sel : ℕ} {q : State × LoadBalanceInfo} (hq : Selecting o u m sel q)
    (h : Live u) (ho : o ∈ u.topology)
    (hroom : (∃ i ∈ (u.objs o).interrupts, 1 < u.irqLoads i) → m + (u.loads o).toNat < 2 ^ 64)
    (hi : i ∈ (q.1.objs o).interrupts) : CallExact o u (i, q) where
  rearrange := hq.rearrange
  loads := hq.loads
  load_le := hq.load_le hi
  adjustmentLoad_le := by
    have hadj := hq.adjustmentLoad
    exact UInt64.le_iff_toNat_le.2 (by dsimp only; omega)
  less := by
    rintro ⟨q', hm, hgone⟩
    rcases moveCandidateIrqs_cases hm with rfl | ⟨obj, hsel, -⟩
    · exact absurd hi hgone
    have hbig : 1 < u.irqLoads i := hq.rearrange.irqLoads_eq ▸ hsel.load
    obtain ⟨hplus, hminus⟩ := hq.sides hi hsel.load
      (hroom ⟨i, hq.rearrange.mem_interrupts h ho hi, hbig⟩)
    have hload : q.1.irqLoads i = u.irqLoads i := congrFun hq.rearrange.irqLoads_eq i
    have hless : q.2.minLoad + q.1.irqLoads i < q.2.adjustmentLoad - q.1.irqLoads i := hsel.less
    have hless' := UInt64.lt_iff_toNat_lt.1 hless
    rwa [hplus, hminus, hload] at hless'

/-- Where the selection has begun with another state, from which irqs have been taken off since. -/
theorem CallExact.of_rearrange {u : State} {e : IrqId × State × LoadBalanceInfo} (he : CallExact o u e)
    (hr : Rearrange {none} s u) (hloads : u.loads = s.loads) : CallExact o s e where
  rearrange := hr.trans he.rearrange
  loads := he.loads.trans hloads
  load_le := he.load_le
  adjustmentLoad_le := hloads ▸ he.adjustmentLoad_le
  less := hr.irqLoads_eq ▸ he.less

theorem moveCandidateIrqs_isSome {q : State × LoadBalanceInfo}
    (hobj : (q.1.irqs i).assignedObj = some o) : ∃ q', moveCandidateIrqs i q = some q' := by
  unfold moveCandidateIrqs
  dsimp only
  rw [hobj]
  dsimp only
  split_ifs <;> exact ⟨_, rfl⟩

/-- What one turn of `migrate_overloaded_irqs` does, in exact arithmetic. -/
structure TurnDone (o : ObjId) (p p' : State × LoadBalanceInfo) : Prop where
  less : selectedLoad o p.1 p'.1 = 0 ∨
    p.2.minLoad.toNat + selectedLoad o p.1 p'.1 < (p.1.loads o).toNat - selectedLoad o p.1 p'.1
  minLoad : p'.2.minLoad.toNat = p.2.minLoad.toNat + selectedLoad o p.1 p'.1
  kept : (p.1.objs o).interrupts ≠ [] → (p'.1.objs o).interrupts ≠ []
  selected : ∀ i ∈ selectedIrqs o p.1 p'.1,
    (p.1.irqs i).level ≠ .none ∧ 1 < p.1.irqLoads i ∧ (p.1.irqs i).hasHint .exact = false

theorem sort_interrupts_perm (s : State) (o : ObjId) :
    ((sortIrqList (some o) s).objs o).interrupts.Perm (s.objs o).interrupts :=
  sort_slot_perm s (some o) (some o)

/-- Sorting the list first makes no difference. -/
theorem Selecting.turnDone {p p' : State × LoadBalanceInfo} {sel : ℕ}
    (hq : Selecting o (sortIrqList (some o) p.1) p.2.minLoad.toNat sel p') (h : Live p.1)
    (ho : o ∈ p.1.topology) : TurnDone o p p' := by
  have hsort : Rearrange {none} p.1 (sortIrqList (some o) p.1) :=
    (Rearrange.refl _).sort (some_mem_slots.2 ho)
  have hperm := sort_interrupts_perm p.1 o
  have hsel : selectedLoad o (sortIrqList (some o) p.1) p'.1 = selectedLoad o p.1 p'.1 := by
    unfold selectedLoad selectedIrqs
    rw [hsort.irqLoads_eq]
    exact ((hperm.filter _).map _).sum_eq
  have hloads : (sortIrqList (some o) p.1).loads = p.1.loads := loads_of_scores (setSlot_scores ..)
  have e := hq.sel_eq (hsort.live h) (by rw [topology_of_static hsort.static_eq]; exact ho)
  rw [hsel] at e
  subst e
  refine ⟨hloads ▸ hq.less, hq.minLoad, fun hne => hq.kept fun hnil => hne ?_, fun i hi => ?_⟩
  · rw [hnil] at hperm
    exact List.nil_perm.1 hperm
  · have hi' : i ∈ selectedIrqs o (sortIrqList (some o) p.1) p'.1 := (hperm.filter _).mem_iff.2 hi
    have hall := hq.selected i hi'
    rw [level_of_static hsort.static_eq, hsort.irqLoads_eq, hasHint_of_static hsort.static_eq] at hall
    exact hall

theorem TurnDone.refl (p : State × LoadBalanceInfo) : TurnDone o p p := by
  have hnil : selectedIrqs o p.1 p.1 = [] := List.eq_nil_iff_forall_not_mem.2 fun i hi =>
    (mem_selectedIrqs.1 hi).2 (mem_selectedIrqs.1 hi).1
  have hzero : selectedLoad o p.1 p.1 = 0 := by
    unfold selectedLoad
    rw [hnil]
    rfl
  refine ⟨Or.inl hzero, ?_, id, fun i hi => ?_⟩
  · rw [hzero]
    rfl
  · rw [hnil] at hi
    cases hi

/-- **Selecting irqs of one object.** -/
theorem migrateObjIrqs_exact {p : State × LoadBalanceInfo} (h : Live p.1) (ho : o ∈ p.1.topology)
    (hcover : Covered p.1 o) (hroom : p.2.minLoad < p.1.loads o →
      (∃ i ∈ (p.1.objs o).interrupts, 1 < p.1.irqLoads i) →
      p.2.minLoad.toNat + (p.1.loads o).toNat < 2 ^ 64) :
    (∀ e ∈ objSelectionCalls o p, CallExact o p.1 e) ∧
    ∃ p', migrateObjIrqs o p = some p' ∧ TurnDone o p p' := by
  unfold objSelectionCalls migrateObjIrqs
  dsimp only
  split_ifs with hover
  · have hsort : Rearrange {none} p.1 (sortIrqList (some o) p.1) :=
      (Rearrange.refl _).sort (some_mem_slots.2 ho)
    have hloads : (sortIrqList (some o) p.1).loads = p.1.loads := loads_of_scores (setSlot_scores ..)
    have hu := hsort.live h
    have ho' : o ∈ (sortIrqList (some o) p.1).topology := by
      rw [topology_of_static hsort.static_eq]
      exact ho
    have hcover' := hcover.rearrange hsort h ho hloads
    have hroom' : (∃ i ∈ ((sortIrqList (some o) p.1).objs o).interrupts,
        1 < (sortIrqList (some o) p.1).irqLoads i) →
        p.2.minLoad.toNat + ((sortIrqList (some o) p.1).loads o).toNat < 2 ^ 64 := by
      rintro ⟨i, hi, hbig⟩
      rw [hsort.irqLoads_eq] at hbig
      rw [hloads]
      exact hroom hover.1 ⟨i, (sort_interrupts_perm p.1 o).mem_iff.1 hi, hbig⟩
    have hstart : ∃ sel, Selecting o (sortIrqList (some o) p.1) p.2.minLoad.toNat sel
        (sortIrqList (some o) p.1, { p.2 with adjustmentLoad := (p.1.objs o).load }) :=
      ⟨0, .start hcover' rfl (congrFun hloads o).symm⟩
    have hnd := selecting_nodup (m := p.2.minLoad.toNat) hu ho'
    have hunlinks := selecting_unlinksSelf hu ho' hroom'
    have hne : ((sortIrqList (some o) p.1).objs o).interrupts ≠ [] := sort_interrupts_ne_nil hover.2
    rw [forEachIrqCalls_eq hne, forEachIrqOn_eq hne]
    refine ⟨fun e he => ?_, ?_⟩
    · obtain ⟨⟨sel, hq⟩, hi⟩ := Loops.mem_calls hnd hunlinks hstart e he
      exact (hq.callExact hu ho' hroom' hi).of_rearrange hsort hloads
    · obtain ⟨p', hw⟩ := Loops.walk_isSome hnd hunlinks hstart fun e he => by
        obtain ⟨⟨sel, hq⟩, hi⟩ := Loops.mem_calls hnd hunlinks hstart e he
        have hslot := hq.rearrange.mem_slots (some_mem_slots.2 ho')
        exact moveCandidateIrqs_isSome (((hq.rearrange.live hu).mem_slot hslot).1 hi).2
      obtain ⟨sel, hq⟩ := Loops.walk_inv hnd hunlinks hstart hw
      exact ⟨p', hw, hq.turnDone h ho⟩
  · exact ⟨fun e he => absurd he List.not_mem_nil, p, rfl, .refl p⟩

/-- **One turn of `migrate_overloaded_irqs`.** -/
theorem turn_exact {p : State × LoadBalanceInfo} (h : Live p.1) (ho : o ∈ p.1.topology)
    (hcover : Covered p.1 o) (hroom : p.2.minLoad < p.1.loads o →
      (∃ i ∈ (p.1.objs o).interrupts, 1 < p.1.irqLoads i) →
      p.2.minLoad.toNat + (p.1.loads o).toNat < 2 ^ 64) :
    (∀ e ∈ selectionCalls o p, CallExact o p.1 e) ∧
    ∃ p', migrateOverloadedIrqs p o = some p' ∧ TurnDone o p p' := by
  have hmin := countObj_minLoad p.1 p.2 o
  unfold selectionCalls migrateOverloadedIrqs
  generalize hq : (p.1, countObj p.1 p.2 o) = q
  have hfst : q.1 = p.1 := by rw [← hq]
  have hsnd : q.2.minLoad = p.2.minLoad := by rw [← hq]; exact hmin
  rw [← hfst] at h ho hcover hroom
  rw [← hsnd] at hroom
  obtain ⟨hcalls, p', hp', hdone⟩ := migrateObjIrqs_exact h ho hcover hroom
  refine ⟨hfst ▸ hcalls, p', hp', ?_⟩
  obtain ⟨hless, hm, hkept, hselected⟩ := hdone
  rw [hfst] at hless hm hkept hselected
  rw [hsnd] at hless hm
  exact ⟨hless, hm, hkept, hselected⟩

/-! ### `min_load` during a pass -/

/-- `min_load` is 0, or at most the load of another object, or too large for the object. -/
def MinBelow (name : List ObjId) (loads : ObjId → UInt64) (o : ObjId) (m : UInt64) : Prop :=
  m = 0 ∨ (∃ x ∈ name, x ≠ o ∧ m ≤ loads x) ∨ loads o ≤ m

theorem loadStats_minLoad (name : List ObjId) (s : State) :
    (loadStats name s).minLoad = 0 ∨ ∃ x ∈ name, s.loads x = (loadStats name s).minLoad := by
  have hdev : ∀ info, (name.foldl (computeDeviations s) info).minLoad = info.minLoad :=
    Loops.foldl_view LoadBalanceInfo.minLoad (computeDeviations s) (fun _ _ => rfl) name
  have hgather : ∀ (l : List ObjId) (info : LoadBalanceInfo), (∀ x ∈ l, x ∈ name) →
      (info.minLoad = 0 ∨ ∃ x ∈ name, s.loads x = info.minLoad) →
      ((l.foldl (gatherLoadStats s) info).minLoad = 0 ∨
        ∃ x ∈ name, s.loads x = (l.foldl (gatherLoadStats s) info).minLoad) := by
    intro l
    induction l with
    | nil => exact fun info _ h => h
    | cons x l ih =>
      intro info hl h
      rw [List.foldl_cons]
      refine ih _ (fun y hy => hl y (List.mem_cons_of_mem x hy)) ?_
      unfold gatherLoadStats
      dsimp only
      split_ifs
      · exact Or.inr ⟨x, hl x List.mem_cons_self, rfl⟩
      · exact h
  have e : (loadStats name s).minLoad = (name.foldl (gatherLoadStats s) {}).minLoad := by
    unfold loadStats
    exact hdev _
  rw [e]
  exact hgather name {} (fun _ h => h) (Or.inl rfl)

theorem loadStats_minBelow (name : List ObjId) (s : State) (o : ObjId) :
    MinBelow name s.loads o (loadStats name s).minLoad := by
  rcases loadStats_minLoad name s with e | ⟨x, hx, e⟩
  · exact Or.inl e
  · by_cases hxo : x = o
    · subst hxo
      exact Or.inr (Or.inr (UInt64.le_of_eq e))
    · exact Or.inr (Or.inl ⟨x, hx, hxo, UInt64.le_of_eq e.symm⟩)

/-- Then the comparisons do not wrap, if the loads of all objects fit. -/
theorem MinBelow.room {name : List ObjId} {loads : ObjId → UInt64} {m : UInt64}
    (h : MinBelow name loads o m) (ho : o ∈ name) (hless : m < loads o)
    (hfits : (name.map fun x => (loads x).toNat).sum < 2 ^ 64) :
    m.toNat + (loads o).toNat < 2 ^ 64 := by
  rcases h with rfl | ⟨x, hx, hxo, hle⟩ | hle
  · exact (Nat.zero_add _).trans_lt (loads o).toNat_lt
  · have hpair : ([x, o].map fun y => (loads y).toNat).sum ≤ (name.map fun y => (loads y).toNat).sum :=
      Sums.sum_map_le_of_subset (by simp [hxo]) (by simp [hx, ho]) _
    have hmx := UInt64.le_iff_toNat_le.1 hle
    simp only [List.map_cons, List.map_nil, List.sum_cons, List.sum_nil] at hpair
    omega
  · exact absurd hless (UInt64.not_lt.2 hle)

/-- The turn of another object keeps this. -/
theorem TurnDone.minBelow {name : List ObjId} {x : ObjId} {p p' : State × LoadBalanceInfo}
    (h : TurnDone x p p') (hx : x ∈ name) (hxo : x ≠ o)
    (hmin : MinBelow name p.1.loads o p.2.minLoad) : MinBelow name p.1.loads o p'.2.minLoad := by
  have hm := h.minLoad
  rcases h.less with hzero | hless
  · rw [hzero] at hm
    have e : p'.2.minLoad = p.2.minLoad := UInt64.toNat_inj.1 hm
    rw [e]
    exact hmin
  · exact Or.inr (Or.inl ⟨x, hx, hxo, UInt64.le_iff_toNat_le.2 (by omega)⟩)

/-- **The turns of a pass.** -/
theorem pass_exact {u : State} {name : List ObjId} (h : Live u) (hname : ∀ o ∈ name, o ∈ u.topology)
    (hnd : name.Nodup) (hcover : ∀ o ∈ name, Covered u o)
    (hfits : (∃ o ∈ name, ∃ i ∈ (u.objs o).interrupts, 1 < u.irqLoads i) →
      (name.map fun x => (u.loads x).toNat).sum < 2 ^ 64) :
    ∀ c ∈ Loops.foldCalls migrateOverloadedIrqs name (u, loadStats name u),
      c.1 ∈ name ∧ Rearrange {none} u c.2.1 ∧ c.2.1.loads = u.loads ∧
      (∀ e ∈ selectionCalls c.1 c.2, CallExact c.1 c.2.1 e) ∧
      ∃ p', migrateOverloadedIrqs c.2 c.1 = some p' ∧ TurnDone c.1 c.2 p' := by
  -- what holds when the turn of an object begins
  have hturn : ∀ o ∈ name, ∀ p : State × LoadBalanceInfo, Rearrange {none} u p.1 ∧ p.1.loads = u.loads →
      MinBelow name u.loads o p.2.minLoad → (∀ e ∈ selectionCalls o p, CallExact o p.1 e) ∧
      ∃ p', migrateOverloadedIrqs p o = some p' ∧ TurnDone o p p' := by
    rintro o ho p ⟨hr, hloads⟩ hmin
    refine turn_exact (hr.live h) (by rw [topology_of_static hr.static_eq]; exact hname o ho)
      ((hcover o ho).rearrange hr h (hname o ho) hloads) fun hless hbig => ?_
    obtain ⟨i, hi, hbig⟩ := hbig
    rw [hr.irqLoads_eq] at hbig
    rw [hloads] at hless ⊢
    exact hmin.room ho hless (hfits ⟨o, ho, i, hr.mem_interrupts h (hname o ho) hi, hbig⟩)
  have hkeep : ∀ o ∈ name, ∀ p p' : State × LoadBalanceInfo,
      Rearrange {none} u p.1 ∧ p.1.loads = u.loads → migrateOverloadedIrqs p o = some p' →
      Rearrange {none} u p'.1 ∧ p'.1.loads = u.loads := by
    rintro o ho p p' ⟨hr, hloads⟩ hm
    refine ⟨hr.trans (migrateOverloadedIrqs_rearrange (hr.live h) ?_ hm),
      (loads_of_scores (migrateOverloadedIrqs_counts hm).1).trans hloads⟩
    rw [topology_of_static hr.static_eq]
    exact hname o ho
  intro c hc
  obtain ⟨hmem, hp, hmin⟩ := Loops.mem_foldCalls_each
    (fun p : State × LoadBalanceInfo => Rearrange {none} u p.1 ∧ p.1.loads = u.loads)
    (fun o p => MinBelow name u.loads o p.2.minLoad) hnd (fun o ho p p' hp _ hm => hkeep o ho p p' hp hm)
    (fun o ho x _ hxo p p' hp ho' hx hm => by
      obtain ⟨-, p'', hp'', hdone⟩ := hturn o ho p hp ho'
      have e : p'' = p' := Option.some.inj (hp''.symm.trans hm)
      subst e
      have hmin := hdone.minBelow ho (Ne.symm hxo) (hp.2 ▸ hx)
      rwa [hp.2] at hmin) ⟨.refl u, rfl⟩ (fun o _ => loadStats_minBelow name u o) c hc
  exact ⟨hmem, hp.1, hp.2, hturn c.1 hmem c.2 hp hmin⟩

/-! ### `update_migration_status` -/

/-- The calls of `find_overloaded_objs` in `update_migration_status`: the list of objects and the state. -/
def overloadPasses (s : State) : List (List ObjId × State) :=
  (s.cpus, s) :: (findOverloadedObjs s.cpus s).elim [] fun r =>
  (updatePowersave r.1 r.2).elim [] fun s =>
  (s.cacheDomains, s) :: (findOverloadedObjs s.cacheDomains s).elim [] fun r =>
  (r.1.packages, r.1) :: (findOverloadedObjs r.1.packages r.1).elim [] fun r =>
  [(r.1.numaNodes, r.1)]

/-- The calls of `migrate_overloaded_irqs` in `update_migration_status`. -/
def overloadTurns (s : State) : List (ObjId × State × LoadBalanceInfo) :=
  (overloadPasses s).flatMap fun p =>
    Loops.foldCalls migrateOverloadedIrqs p.1 (p.2, loadStats p.1 p.2)

theorem updatePowersave_loads {info : LoadBalanceInfo} (h : updatePowersave s info = some s') :
    s'.loads = s.loads := by
  have hmode : ∀ (u : State) (k : ObjId) (b : Bool),
      (u.modObj k fun o => { o with powersaveMode := b }).loads = u.loads := by
    intro u k b
    funext o
    unfold State.loads
    rw [State.modObj_objs]
    split_ifs <;> rfl
  have hwake : (s.cpus.foldl clearPowersaveMode s).loads = s.loads :=
    Loops.foldl_view State.loads clearPowersaveMode (fun u k => hmode u k false) s.cpus s
  have hforce : ∀ (list : State → List IrqId) (u u' : State), forEachIrq list forceIrqMigration u = some u' →
      u'.loads = u.loads := fun list u u' hw =>
    forEachIrq_view State.loads (fun i v v' hv => by
      unfold forceIrqMigration at hv
      cases hobj : (v.irqs i).assignedObj with
      | none => rw [hobj] at hv; cases hv
      | some o =>
        rw [hobj] at hv
        cases hv
        exact loads_of_scores (migrateIrq_scores (some o) none i v)) hw
  unfold updatePowersave at h
  by_cases hon : s.opts.powerThresh ≠ ullongMax ∧ 5 < s.cycleCount
  · rw [if_pos hon] at h
    cases hp : info.powersave with
    | none =>
      rw [hp] at h
      dsimp only at h
      split_ifs at h
      · cases h; exact hwake
      · cases h; rfl
    | some k =>
      rw [hp] at h
      dsimp only at h
      split_ifs at h
      · cases h; exact hmode s k true
      · exact (hforce _ _ _ h).trans (hmode s k true)
      · cases h; exact hwake
      · cases h; rfl
  · rw [if_neg hon] at h
    cases h
    rfl

/-- **Each pass starts with the loads at the start, and irqs have been taken off objects only.** -/
theorem mem_overloadPasses (h : Live s) : ∀ c ∈ overloadPasses s,
    c.1 ∈ s.layers ∧ Rearrange {none} s c.2 ∧ c.2.loads = s.loads := by
  have hpass : ∀ {u : State} {name : List ObjId} {r : State × LoadBalanceInfo},
      Rearrange {none} s u ∧ u.loads = s.loads → name ∈ s.layers → findOverloadedObjs name u = some r →
      Rearrange {none} s r.1 ∧ r.1.loads = s.loads := by
    rintro u name r ⟨hr, hloads⟩ hname hf
    refine ⟨hr.trans (findOverloadedObjs_rearrange (hr.live h) ?_ hf),
      (loads_of_scores (findOverloadedObjs_counts hf).1).trans hloads⟩
    rw [topology_of_static hr.static_eq]
    exact (h.topo.layer_nodup hname).2
  have hlayer : ∀ {u : State}, Rearrange {none} s u → u.layers = s.layers := fun {u} hr =>
    show u.static.layers = s.static.layers by rw [hr.static_eq]
  intro c hc
  unfold overloadPasses at hc
  simp only [List.mem_cons, Loops.mem_elim, List.not_mem_nil, or_false] at hc
  rcases hc with rfl | ⟨r₁, h₁, s₂, h₂, hc⟩
  · exact ⟨List.mem_cons_self, .refl s, rfl⟩
  have hr₁ := hpass ⟨.refl s, rfl⟩ List.mem_cons_self h₁
  have hr₂ : Rearrange {none} s s₂ ∧ s₂.loads = s.loads :=
    ⟨hr₁.1.trans (updatePowersave_rearrange (hr₁.1.live h) (fun k hk => by
      rw [cpus_of_static hr₁.1.static_eq]
      exact findOverloadedObjs_powersave h₁ k hk) h₂), (updatePowersave_loads h₂).trans hr₁.2⟩
  have hcaches : s₂.cacheDomains ∈ s.layers := by
    rw [← hlayer hr₂.1]
    simp [State.layers]
  rcases hc with rfl | ⟨r₃, h₃, hc⟩
  · exact ⟨hcaches, hr₂⟩
  have hr₃ := hpass hr₂ hcaches h₃
  have hpackages : r₃.1.packages ∈ s.layers := by
    rw [← hlayer hr₃.1]
    simp [State.layers]
  rcases hc with rfl | ⟨r₄, h₄, rfl⟩
  · exact ⟨hpackages, hr₃⟩
  have hr₄ := hpass hr₃ hpackages h₄
  refine ⟨?_, hr₄⟩
  rw [← hlayer hr₄.1]
  simp [State.layers]

/-- The turns of `update_migration_status`, where the loads of the irqs are covered. -/
theorem overloadTurns_exact (h : Live s) {name : List ObjId} {u : State}
    (hpass : (name, u) ∈ overloadPasses s) (hcover : ∀ o ∈ name, Covered s o)
    (hfits : (∃ o ∈ s.topology, ∃ i ∈ (s.objs o).interrupts, 1 < s.irqLoads i) →
      (name.map fun x => (s.loads x).toNat).sum < 2 ^ 64) :
    ∀ c ∈ Loops.foldCalls migrateOverloadedIrqs name (u, loadStats name u),
      c.1 ∈ name ∧ (∀ e ∈ selectionCalls c.1 c.2, CallExact c.1 s e) ∧
      ∃ p', migrateOverloadedIrqs c.2 c.1 = some p' ∧ TurnDone c.1 c.2 p' := by
  obtain ⟨hname, hr, hloads⟩ := mem_overloadPasses h _ hpass
  obtain ⟨hnd, hmem⟩ := h.topo.layer_nodup hname
  intro c hc
  obtain ⟨hc₁, hr', hloads', hcalls, hdone⟩ := pass_exact (hr.live h)
    (fun o ho => by rw [topology_of_static hr.static_eq]; exact hmem o ho) hnd
    (fun o ho => (hcover o ho).rearrange hr h (hmem o ho) hloads) (fun hbig => by
      obtain ⟨o, ho, i, hi, hbig⟩ := hbig
      rw [hr.irqLoads_eq] at hbig
      dsimp only at hloads
      rw [hloads]
      exact hfits ⟨o, hmem o ho, i, hr.mem_interrupts h (hmem o ho) hi, hbig⟩) c hc
  exact ⟨hc₁, fun e he => (hcalls e he).of_rearrange (hr.trans hr') (hloads'.trans hloads), hdone⟩

/-- **Selecting irqs never underflows and never predicts a reversed imbalance.** -/
theorem selection_exact (h : Reach anyStep .migration s) (hf : TopoForest s)
    (harrivals : s.totalArrivals < 2 ^ 64)
    (hloads : (s.cpus.map fun k => (s.loads k).toNat).sum < 2 ^ 64) :
    ∀ c ∈ overloadTurns s,
      (∀ e ∈ selectionCalls c.1 c.2, 1 < e.2.1.irqLoads e.1 →
        e.2.1.irqLoads e.1 ≤ e.2.2.adjustmentLoad) ∧
      ∃ p', migrateOverloadedIrqs c.2 c.1 = some p' ∧ TurnDone c.1 c.2 p' := by
  have hlive := h.live rfl
  have hacc : Accounted s := h.loadsReady rfl harrivals
  intro c hc
  obtain ⟨⟨name, u⟩, hpass, hc⟩ := List.mem_flatMap.1 hc
  obtain ⟨hname, -, -⟩ := mem_overloadPasses hlive _ hpass
  have hmem := (hlive.topo.layer_nodup hname).2
  obtain ⟨-, hcalls, hdone⟩ := overloadTurns_exact hlive hpass
    (fun o ho => hacc.covered o (hmem o ho) (hf.belowOnce hlive.topo (hmem o ho)))
    (fun hbig => (hacc.summed hbig).layer_fits hlive.topo hf hloads hname) c hc
  exact ⟨fun e he => (hcalls e he).load_le, hdone⟩

/-- Three cpus: the first and the third share a package. -/
def threeCpus : CpuSysfs where
  cpuDir := some [{ dName := "cpu0".toList, coreSiblings := some ['5'] },
    { dName := "cpu1".toList, coreSiblings := some ['2'] },
    { dName := "cpu2".toList, coreSiblings := some ['5'] }]

/-- Five irqs, and nothing has happened yet. -/
def quietEnv : Env where
  cpuSysfs := threeCpus
  pciDir := some []
  procInterrupts := some ("   CPU0 CPU1 CPU2\n 10: 1 0 0 GIC eth0\n 11: 1 0 0 GIC eth1\n".toList ++
    " 12: 1 0 0 GIC eth2\n 13: 1 0 0 GIC eth3\n 14: 1 0 0 GIC eth4\n".toList)
  procStat := some ("cpu  1 2 3 4 5 6 7 8\ncpu0 1 2 3 4 5 6 7 8\n".toList ++
    "cpu1 1 2 3 4 5 6 7 8\ncpu2 1 2 3 4 5 6 7 8\n".toList)

/-- The first cpu has spent ten ticks in the irqs 10 and 14, and the second nine in 11 and 13. -/
def skewedEnv : Env where
  procInterrupts := some ("   CPU0 CPU1 CPU2\n 10: 61 0 0 GIC eth0\n 11: 51 0 0 GIC eth1\n".toList ++
    " 12: 1 0 0 GIC eth2\n 13: 41 0 0 GIC eth3\n 14: 41 0 0 GIC eth4\n".toList)
  procStat := some ("cpu  1 2 3 4 5 6 7 8\ncpu0 1 2 3 4 5 6 17 8\n".toList ++
    "cpu1 1 2 3 4 5 6 16 8\ncpu2 1 2 3 4 5 6 7 8\n".toList)

/-- In the second cycle irq 14 is selected on the first cpu. -/
theorem selection_exact_threeCpus : ∃ s p', migrateOverloadedIrqs (s, loadStats s.cpus s) 1 = some p' ∧
    selectedIrqs 1 s p'.1 = [4] ∧ TurnDone 1 (s, loadStats s.cpus s) p' := by
  have hrun : (execs (List.replicate 15 quietEnv ++ List.replicate 3 skewedEnv)
      (.start, State.initial {} fun _ => 0)).map (fun r => (r.1, [decide (TopoForest r.2),
        decide (r.2.totalArrivals < 2 ^ 64),
        decide ((r.2.cpus.map fun k => (r.2.loads k).toNat).sum < 2 ^ 64), decide (r.2.cpus.head? = some 1),
        decide ((migrateOverloadedIrqs (r.2, loadStats r.2.cpus r.2) 1).map
          (fun p' => selectedIrqs 1 r.2 p'.1) = some [4])])) =
      some (.migration, [true, true, true, true, true]) := by
    decide +kernel
  obtain ⟨⟨pc, s⟩, hr, e⟩ := Option.map_eq_some_iff.1 hrun
  simp only [Prod.mk.injEq, List.cons.injEq, decide_eq_true_eq, Option.map_eq_some_iff] at e
  obtain ⟨rfl, hf, harrivals, hloads, hhead, ⟨p, hp, hsel⟩, -⟩ := e
  have hreach := (Reach.init {} (fun _ => 0) rfl).execs_any hr
  have hturn : (1, s, loadStats s.cpus s) ∈ overloadTurns s := by
    refine List.mem_flatMap.2 ⟨(s.cpus, s), List.mem_cons_self, ?_⟩
    obtain ⟨l, hl⟩ := List.head?_eq_some_iff.1 hhead
    generalize loadStats s.cpus s = info
    dsimp only
    rw [hl]
    exact List.mem_cons_self
  obtain ⟨-, p', hp', hdone⟩ := selection_exact hreach hf harrivals hloads _ hturn
  have e : p' = p := Option.some.inj (hp'.symm.trans hp)
  subst e
  exact ⟨s, p', hp, hsel, hdone⟩

end IrqBalance

import IrqBalance.Placed

/-!
# Balancing and placing as sequences of moves

`update_migration_status` and `calculate_placement` do three things to the state, apart from loads: they
move an irq to another bin, sort a bin, and write the powersave mode of a cpu. `Rearrange D` is the
closure of these, with `D` the bins that irqs are moved to: the first function moves irqs to
`rebalance_irq_list` only, the second to the lists of objects only. What each of the three keeps, both
functions keep.
-/

namespace IrqBalance

open Loops (UnlinksSelf)

/-- A sequence of moves of irqs to bins of `D`, sorts of bins and writes to the powersave modes of
cpus. -/
inductive Rearrange (D : Set (Option ObjId)) : State → State → Prop
  | refl (s : State) : Rearrange D s s
  | move {s t u : State} {i : IrqId} {dst : Option ObjId} (h : Rearrange D s t) (hi : i ∈ t.live)
      (hdst : dst ∈ t.slots ∩ D) (hne : dst ≠ t.home i) (hm : Moved i dst t u) : Rearrange D s u
  | sort {s t : State} {a : Option ObjId} (h : Rearrange D s t) (ha : a ∈ t.slots) :
      Rearrange D s (sortIrqList a t)
  | sleep {s t : State} {k : ObjId} (h : Rearrange D s t) (hk : k ∈ t.cpus) (b : Bool) :
      Rearrange D s (t.modObj k fun o => { o with powersaveMode := b })

variable {D : Set (Option ObjId)} {s s' t : State} {i : IrqId} {a : Option ObjId} {o : ObjId}

theorem Rearrange.trans (h : Rearrange D s t) (h' : Rearrange D t s') : Rearrange D s s' := by
  induction h' with
  | refl => exact h
  | move _ hi hdst hne hm ih => exact ih.move hi hdst hne hm
  | sort _ ha ih => exact ih.sort ha
  | sleep _ hk b ih => exact ih.sleep hk b

theorem sleep_static (s : State) (k : ObjId) (b : Bool) :
    (s.modObj k fun o => { o with powersaveMode := b }).static = s.static :=
  static_modObj (by intro _; rfl) s k

theorem Rearrange.static_eq (h : Rearrange D s s') : s'.static = s.static := by
  induction h with
  | refl => rfl
  | move _ _ _ _ hm ih => exact hm.static_eq.trans ih
  | sort _ _ ih => exact (static_sortIrqList _ _).trans ih
  | sleep _ _ _ ih => exact (sleep_static _ _ _).trans ih

theorem sort_home (s : State) (a : Option ObjId) : (sortIrqList a s).home = s.home := by
  unfold sortIrqList State.home
  rw [State.setSlot_irqs]

/-- No irq is taken off its object, where no move goes to `rebalance_irq_list`. -/
theorem Rearrange.placed (h : Rearrange {none}ᶜ s s') (hhome : s.home i ≠ none) : s'.home i ≠ none := by
  induction h with
  | refl => exact hhome
  | @move t u j dst _ _ hdst _ hm ih =>
    rw [hm.home_eq]
    by_cases hij : i = j
    · subst hij
      rw [Function.update_self]
      exact hdst.2
    · rw [Function.update_of_ne hij]
      exact ih
  | sort _ _ ih => rw [sort_home]; exact ih
  | sleep _ _ _ ih => exact ih

theorem Rearrange.mem_slots (h : Rearrange D s s') (ha : a ∈ s.slots) : a ∈ s'.slots := by
  rw [slots_of_static h.static_eq]
  exact ha

/-! ### The invariant -/

theorem sort_slot_perm (s : State) (a b : Option ObjId) :
    ((sortIrqList a s).slot b).Perm (s.slot b) := by
  rw [sortIrqList, setSlot_slot]
  by_cases hb : b = a
  · subst hb
    rw [Function.update_self]
    exact MergeSort.sort_perm _ _
  · rw [Function.update_of_ne hb]

/-- Sorting a bin keeps the invariant. -/
theorem Live.sort (h : Live s) (a : Option ObjId) : Live (sortIrqList a s) where
  topo := h.topo.of_static (static_sortIrqList a s)
  db := h.db.of_static (static_sortIrqList a s)
  bins := by
    rw [slots_of_static (static_sortIrqList a s), live_of_static (static_sortIrqList a s), sort_home]
    exact h.bins.perm fun b _ => sort_slot_perm s a b
  unplaced i hi hl := by
    rw [interruptsDb_of_static (static_sortIrqList a s)] at hi
    rw [level_of_static (static_sortIrqList a s)] at hl
    rw [sort_home]
    exact h.unplaced i hi hl

theorem sleep_slot (s : State) (k : ObjId) (b : Bool) :
    (s.modObj k fun o => { o with powersaveMode := b }).slot = s.slot := by
  funext a
  cases a with
  | none => rfl
  | some o =>
    rw [State.slot, State.slot, State.modObj_objs]
    split_ifs <;> rfl

/-- **Rearranging keeps the invariant.** -/
theorem Rearrange.live (hr : Rearrange D s s') (h : Live s) : Live s' := by
  induction hr with
  | refl => exact h
  | move _ hi hdst hne hm ih => exact hm.live ih hi hdst.1 hne
  | sort _ _ ih => exact ih.sort _
  | sleep _ _ _ ih => exact ih.congr (sleep_static _ _ _) (sleep_slot _ _ _) rfl

/-- Irqs go to the bins of `D` only. -/
theorem Rearrange.home (hr : Rearrange D s s') (i : IrqId) :
    s'.home i = s.home i ∨ s'.home i ∈ D := by
  induction hr with
  | refl => exact Or.inl rfl
  | @move t u j dst _ _ hdst _ hm ih =>
    rw [hm.home_eq]
    by_cases hij : i = j
    · rw [hij, Function.update_self]
      exact Or.inr hdst.2
    · rwa [Function.update_of_ne hij]
  | sort _ _ ih => rwa [sort_home]
  | sleep _ _ _ ih => exact ih

/-- Only cpus are in powersave mode. -/
def OnlyCpusSleep (s : State) : Prop :=
  ∀ o ∈ s.topology, (s.objs o).powersaveMode = true → o ∈ s.cpus

theorem OnlyCpusSleep.congr (h : OnlyCpusSleep s) (e : s'.static = s.static)
    (hsleep : ∀ o, (s'.objs o).powersaveMode = (s.objs o).powersaveMode) : OnlyCpusSleep s' := by
  intro o ho hpower
  rw [topology_of_static e] at ho
  rw [hsleep] at hpower
  rw [cpus_of_static e]
  exact h o ho hpower

theorem powersaveMode_of_unmoved (e : s'.unmoved = s.unmoved) (o : ObjId) :
    (s'.objs o).powersaveMode = (s.objs o).powersaveMode :=
  show (s'.unmoved.objs o).powersaveMode = (s.unmoved.objs o).powersaveMode by rw [e]

theorem Rearrange.onlyCpusSleep (hr : Rearrange D s s') (h : OnlyCpusSleep s) :
    OnlyCpusSleep s' := by
  induction hr with
  | refl => exact h
  | move _ _ _ _ hm ih => exact ih.congr hm.static_eq (powersaveMode_of_unmoved hm.unmoved_eq)
  | sort _ _ ih =>
    exact ih.congr (static_sortIrqList _ _) (powersaveMode_of_unmoved (setSlot_unmoved ..))
  | @sleep t k _ hk b ih =>
    intro o ho hpower
    rw [topology_of_static (sleep_static t k b)] at ho
    rw [cpus_of_static (sleep_static t k b)]
    by_cases hok : o = k
    · rwa [hok]
    · rw [State.modObj_objs_of_ne hok] at hpower
      exact ih o ho hpower

/-- The state without the records and without `rebalance_irq_list`. -/
def State.globals (s : State) : State :=
  { s with objs := fun _ => {}, irqs := fun _ => {}, rebalanceIrqList := [] }

theorem globals_of_unmoved (e : s'.unmoved = s.unmoved) : s'.globals = s.globals :=
  show s'.unmoved.globals = s.unmoved.globals by rw [e]

/-- Rearranging changes records and lists only. -/
theorem Rearrange.globals_eq (hr : Rearrange D s s') : s'.globals = s.globals := by
  induction hr with
  | refl => rfl
  | move _ _ _ _ hm ih => exact (globals_of_unmoved hm.unmoved_eq).trans ih
  | sort _ _ ih => exact (globals_of_unmoved (setSlot_unmoved ..)).trans ih
  | sleep _ _ _ ih => exact ih

/-! ### Walking a bin -/

/-- A call on the irq `i`: nothing happens, or the irq moves to another bin, one of `D`. -/
def Shifts (D : Set (Option ObjId)) (i : IrqId) (s s' : State) : Prop :=
  s' = s ∨ ∃ dst ∈ s.slots ∩ D, dst ≠ s.home i ∧ Moved i dst s s'

theorem Shifts.rearrange (h : Shifts D i s s') (hi : i ∈ s.live) : Rearrange D s s' := by
  rcases h with rfl | ⟨dst, hdst, hne, hm⟩
  · exact .refl _
  · exact (Rearrange.refl s).move hi hdst hne hm

/-- A callback that, called on an irq of the bin `a`, leaves it there or moves it away. -/
def ShiftsIn {σ : Type} (D : Set (Option ObjId)) (st : σ → State) (a : Option ObjId)
    (cb : IrqId → σ → Option σ) : Prop :=
  ∀ i p p', Live (st p) → a ∈ (st p).slots → i ∈ (st p).slot a → cb i p = some p' →
    Shifts D i (st p) (st p')

section Walk

variable {σ : Type} {st : σ → State} {cb : IrqId → σ → Option σ} {p p' : σ}

theorem ShiftsIn.unlinksSelf (hcb : ShiftsIn D st a cb) (s : State) :
    UnlinksSelf (fun p => Live (st p) ∧ a ∈ (st p).slots ∧ Rearrange D s (st p))
      (fun p => (st p).slot a) cb := by
  rintro i p p' ⟨hlive, ha, hr⟩ hi h
  obtain ⟨hi', hhome⟩ := (hlive.mem_slot ha).1 hi
  have hshift := hcb i p p' hlive ha hi h
  have hr' := hshift.rearrange hi'
  refine ⟨⟨hr'.live hlive, by rw [slots_of_static hr'.static_eq]; exact ha, hr.trans hr'⟩, ?_⟩
  rcases hshift with e | ⟨dst, -, hne, hm⟩
  · exact Or.inl (congrArg (State.slot · a) e)
  · rw [← hhome]
    exact Or.inr (hm.slot_erase hne)

theorem Live.slot_nodup (h : Live s) (ha : a ∈ s.slots) : (s.slot a).Nodup := h.bins.nodup a ha

/-- **Walking a bin rearranges the irqs.** -/
theorem ShiftsIn.walk (hcb : ShiftsIn D st a cb) (h : Live (st p)) (ha : a ∈ (st p).slots)
    (hw : Loops.walk (fun p => (st p).slot a) cb p = some p') : Rearrange D (st p) (st p') :=
  (Loops.walk_inv (fun _ hq => hq.1.slot_nodup hq.2.1) (hcb.unlinksSelf (st p)) ⟨h, ha, .refl _⟩
    hw).2.2

/-- Every call of the walk is made on an irq of the bin. -/
theorem ShiftsIn.mem_calls (hcb : ShiftsIn D st a cb) (h : Live (st p)) (ha : a ∈ (st p).slots) :
    ∀ c ∈ Loops.calls (fun p => (st p).slot a) cb p,
      Live (st c.2) ∧ a ∈ (st c.2).slots ∧ c.1 ∈ (st c.2).slot a := by
  intro c hc
  obtain ⟨hinv, hmem⟩ := Loops.mem_calls (fun _ hq => hq.1.slot_nodup hq.2.1)
    (hcb.unlinksSelf (st p)) ⟨h, ha, .refl _⟩ c hc
  exact ⟨hinv.1, hinv.2.1, hmem⟩

/-- A bin that is not empty is the list that `for_each_irq` walks. -/
theorem forEachIrqOn_eq {list : State → List IrqId} (hne : list (st p) ≠ []) :
    forEachIrqOn st list cb p = Loops.walk (fun p => list (st p)) cb p := by
  unfold forEachIrqOn
  rw [if_neg (by simpa using hne)]

theorem forEachIrqCalls_eq {list : State → List IrqId} (hne : list (st p) ≠ []) :
    forEachIrqCalls st list cb p = Loops.calls (fun p => list (st p)) cb p := by
  unfold forEachIrqCalls
  rw [if_neg (by simpa using hne)]

end Walk

/-! ### Taking irqs off objects -/

/-- The irq is taken off `obj`. -/
def takeOff (obj : ObjId) (i : IrqId) (s : State) : State :=
  (migrateIrq (some obj) none i s).modIrq i fun info => { info with assignedObj := none }

/-- The tests that an irq passes which `move_candidate_irqs` selects. -/
structure Selectable (s : State) (lb : LoadBalanceInfo) (obj : ObjId) (i : IrqId) : Prop where
  assignedObj : (s.irqs i).assignedObj = some obj
  not_exact : (s.irqs i).hasHint .exact = false
  level : (s.irqs i).level ≠ .none
  length : 1 < (s.objs obj).interrupts.length
  load : 1 < (s.irqs i).load
  less : lb.minLoad + (s.irqs i).load < lb.adjustmentLoad - (s.irqs i).load

/-- **`move_candidate_irqs` does nothing, or it takes the irq off its object.** -/
theorem moveCandidateIrqs_cases {p p' : State × LoadBalanceInfo} (h : moveCandidateIrqs i p = some p') :
    p' = p ∨ ∃ obj, Selectable p.1 p.2 obj i ∧ p' = (takeOff obj i p.1,
      { p.2 with
        adjustmentLoad := p.2.adjustmentLoad - (p.1.irqs i).load
        minLoad := p.2.minLoad + (p.1.irqs i).load }) := by
  unfold moveCandidateIrqs at h
  dsimp only at h
  cases hobj : (p.1.irqs i).assignedObj with
  | none =>
    rw [hobj] at h
    split_ifs at h <;> · cases h; exact Or.inl rfl
  | some obj =>
    rw [hobj] at h
    dsimp only at h
    split_ifs at h with hhint hlevel hlen hload hless
    case pos | pos | pos | pos | neg => cases h; exact Or.inl rfl
    case pos =>
      cases h
      exact Or.inr ⟨obj, ⟨hobj, by simpa using hhint, hlevel, Nat.not_le.1 hlen, UInt64.not_le.1 hload, hless⟩, rfl⟩

theorem takeOff_moved (h : Live s) (hi : i ∈ s.live) (hhome : s.home i = some o) :
    Moved i none s (takeOff o i s) := by
  have hm := migrateIrq_moved h hi none
  rw [hhome] at hm
  exact hm

/-- `move_candidate_irqs`. -/
theorem moveCandidateIrqs_shifts (o : ObjId) : ShiftsIn {none} Prod.fst (some o) moveCandidateIrqs := by
  intro i p p' hlive ha hi h
  obtain ⟨hi', hhome⟩ := (hlive.mem_slot ha).1 hi
  rcases moveCandidateIrqs_cases h with rfl | ⟨obj, hsel, rfl⟩
  · exact Or.inl rfl
  · refine Or.inr ⟨none, ⟨none_mem_slots _, rfl⟩, by simp [hhome], ?_⟩
    exact takeOff_moved hlive hi' hsel.assignedObj

/-- `force_irq_migration`. -/
theorem forceIrqMigration_shifts (o : ObjId) : ShiftsIn {none} id (some o) forceIrqMigration := by
  intro i s s' hlive ha hi h
  obtain ⟨hi', hhome⟩ := (hlive.mem_slot ha).1 hi
  have hobj : (s.irqs i).assignedObj = some o := hhome
  unfold forceIrqMigration at h
  rw [hobj] at h
  cases h
  exact Or.inr ⟨none, ⟨none_mem_slots _, rfl⟩, hhome ▸ (Option.some_ne_none o).symm,
    takeOff_moved hlive hi' hhome⟩

/-! ### `update_migration_status` -/

theorem sort_interrupts_ne_nil (h : 1 < (s.objs o).interrupts.length) :
    ((sortIrqList (some o) s).objs o).interrupts ≠ [] := by
  intro hnil
  have hlen : ((sortIrqList (some o) s).slot (some o)).length = (s.slot (some o)).length :=
    (sort_slot_perm s (some o) (some o)).length_eq
  simp only [State.slot, hnil, List.length_nil] at hlen
  omega

/-- One object of a pass over overloaded objects, behind the counters. -/
theorem migrateObjIrqs_rearrange {p p' : State × LoadBalanceInfo} (h : Live p.1)
    (ho : o ∈ p.1.topology) (hm : migrateObjIrqs o p = some p') : Rearrange {none} p.1 p'.1 := by
  unfold migrateObjIrqs at hm
  dsimp only at hm
  split_ifs at hm with hover
  · have hsort : Rearrange {none} p.1 (sortIrqList (some o) p.1) :=
      (Rearrange.refl _).sort (some_mem_slots.2 ho)
    have hne : ((sortIrqList (some o) p.1).objs o).interrupts ≠ [] := sort_interrupts_ne_nil hover.2
    rw [forEachIrqOn_eq hne] at hm
    exact hsort.trans ((moveCandidateIrqs_shifts o).walk (by exact hsort.live h)
      (by exact hsort.mem_slots (some_mem_slots.2 ho)) hm)
  · cases hm
    exact .refl _

theorem migrateOverloadedIrqs_rearrange {p p' : State × LoadBalanceInfo} (h : Live p.1)
    (ho : o ∈ p.1.topology) (hm : migrateOverloadedIrqs p o = some p') : Rearrange {none} p.1 p'.1 := by
  unfold migrateOverloadedIrqs at hm
  generalize hq : (p.1, countObj p.1 p.2 o) = q at hm
  have hfst : q.1 = p.1 := by rw [← hq]
  rw [← hfst] at h ho ⊢
  exact migrateObjIrqs_rearrange h ho hm

/-- A pass over the objects of one kind. -/
theorem findOverloadedObjs_rearrange {name : List ObjId} {r : State × LoadBalanceInfo} (h : Live s)
    (hname : ∀ o ∈ name, o ∈ s.topology) (hf : findOverloadedObjs name s = some r) :
    Rearrange {none} s r.1 := by
  refine Loops.foldlM_inv (fun p : State × LoadBalanceInfo => Rearrange {none} s p.1) ?_ (.refl s) hf
  intro o ho p p' hp hm
  refine hp.trans (migrateOverloadedIrqs_rearrange (hp.live h) ?_ hm)
  rw [topology_of_static hp.static_eq]
  exact hname o ho

/-- Waking up all cpus. -/
theorem foldl_clearPowersaveMode_rearrange {l : List ObjId} (hl : ∀ k ∈ l, k ∈ s.cpus) :
    Rearrange {none} s (l.foldl clearPowersaveMode s) := by
  suffices ∀ t, Rearrange {none} s t → Rearrange {none} s (l.foldl clearPowersaveMode t) from this s (.refl s)
  induction l with
  | nil => exact fun t ht => ht
  | cons k l ih =>
    intro t ht
    refine ih (fun k' hk' => hl k' (List.mem_cons_of_mem k hk')) _ (ht.sleep ?_ false)
    rw [cpus_of_static ht.static_eq]
    exact hl k List.mem_cons_self

theorem mem_topology_of_cpu {k : ObjId} (hk : k ∈ s.cpus) : k ∈ s.topology := by
  simp [State.topology, hk]

/-- The powersave decision. -/
theorem updatePowersave_rearrange {info : LoadBalanceInfo} (h : Live s)
    (hinfo : ∀ k, info.powersave = some k → k ∈ s.cpus) (hu : updatePowersave s info = some s') :
    Rearrange {none} s s' := by
  have hwake : Rearrange {none} s (s.cpus.foldl clearPowersaveMode s) :=
    foldl_clearPowersaveMode_rearrange fun _ hk => hk
  unfold updatePowersave at hu
  by_cases hon : s.opts.powerThresh ≠ ullongMax ∧ 5 < s.cycleCount
  · rw [if_pos hon] at hu
    cases hp : info.powersave with
    | none =>
      rw [hp] at hu
      dsimp only at hu
      split_ifs at hu
      · cases hu; exact hwake
      · cases hu; exact .refl s
    | some k =>
      rw [hp] at hu
      dsimp only at hu
      have hk := hinfo k hp
      have hsleep : Rearrange {none} s (s.modObj k fun o => { o with powersaveMode := true }) :=
        (Rearrange.refl s).sleep hk true
      split_ifs at hu with henter hnone
      · cases hu; exact hsleep
      · unfold forEachIrq at hu
        rw [forEachIrqOn_eq hnone] at hu
        exact hsleep.trans ((forceIrqMigration_shifts k).walk (by exact hsleep.live h)
          (by exact hsleep.mem_slots (some_mem_slots.2 (mem_topology_of_cpu hk))) hu)
      · cases hu; exact hwake
      · cases hu; exact .refl s
  · rw [if_neg hon] at hu
    cases hu
    exact .refl s

/-- The part of the statistics that does not change while irqs are taken off an object. -/
def LoadBalanceInfo.counts (info : LoadBalanceInfo) : LoadBalanceInfo :=
  { info with minLoad := 0, adjustmentLoad := 0 }

/-- What the statistics are gathered from. -/
def State.scores (s : State) : Options × (ObjId → UInt64 × Bool) :=
  (s.opts, fun o => ((s.objs o).load, (s.objs o).powersaveMode))

theorem modObj_scores {f : TopoObj → TopoObj}
    (hf : ∀ ob, ((f ob).load, (f ob).powersaveMode) = (ob.load, ob.powersaveMode)) (s : State)
    (o : ObjId) : (s.modObj o f).scores = s.scores := by
  refine Prod.ext rfl (funext fun p => ?_)
  rw [State.scores, State.scores]
  dsimp only
  rw [State.modObj_objs]
  split_ifs
  · exact hf _
  · rfl

theorem setSlot_scores (s : State) (l : List IrqId) (a : Option ObjId) :
    (s.setSlot l a).scores = s.scores := by
  cases a with
  | none => rfl
  | some o =>
    unfold State.setSlot
    exact modObj_scores (by intro _; rfl) s o

theorem migrateIrq_scores (src dst : Option ObjId) (i : IrqId) (s : State) :
    (migrateIrq src dst i s).scores = s.scores := by
  unfold migrateIrq
  dsimp only
  split
  · rfl
  · exact (setSlot_scores _ _ _).trans (setSlot_scores _ _ _)

theorem moveCandidateIrqs_counts {p p' : State × LoadBalanceInfo}
    (h : moveCandidateIrqs i p = some p') :
    (p'.1.scores, p'.2.counts) = (p.1.scores, p.2.counts) := by
  rcases moveCandidateIrqs_cases h with rfl | ⟨obj, -, rfl⟩
  · rfl
  · exact Prod.ext (migrateIrq_scores (some obj) none i p.1) rfl

theorem countObj_of_scores {t : State} (h : t.scores = s.scores) (info : LoadBalanceInfo)
    (o : ObjId) : countObj t info o = countObj s info o := by
  have hopts : t.opts = s.opts := congrArg Prod.fst h
  have hobj : ((t.objs o).load, (t.objs o).powersaveMode) =
      ((s.objs o).load, (s.objs o).powersaveMode) := congrFun (congrArg Prod.snd h) o
  obtain ⟨hload, hsleep⟩ := Prod.mk.inj hobj
  unfold countObj
  dsimp only
  rw [hopts, hload, hsleep]

/-- `countObj`, with its tests on the statistics it is given. -/
theorem countObj_eq (s : State) (info : LoadBalanceInfo) (o : ObjId) :
    countObj s info o =
      let asleep := if (s.objs o).powersaveMode then info.numPowersave + 1 else info.numPowersave
      if isUnder (s.objs o).load info then
        { info with
          numPowersave := asleep
          numUnder := info.numUnder + 1
          powersave :=
            if s.opts.powerThresh ≠ ullongMax ∧ info.powersave = none ∧
                (s.objs o).powersaveMode = false then some o
            else info.powersave }
      else if isOver (s.objs o).load info then
        { info with numPowersave := asleep, numOver := info.numOver + 1 }
      else { info with numPowersave := asleep } :=
  rfl

theorem countObj_counts (s : State) (info : LoadBalanceInfo) (o : ObjId) :
    (countObj s info o).counts = countObj s info.counts o := by
  have hunder : isUnder (s.objs o).load info.counts = isUnder (s.objs o).load info := rfl
  have hover : isOver (s.objs o).load info.counts = isOver (s.objs o).load info := rfl
  rw [countObj_eq, countObj_eq, hunder, hover]
  generalize isUnder (s.objs o).load info = below
  generalize isOver (s.objs o).load info = above
  cases below
  · cases above <;> rfl
  · rfl

theorem countObj_powersave (s : State) (info : LoadBalanceInfo) (o : ObjId) :
    (countObj s info o).powersave = info.powersave ∨ (countObj s info o).powersave = some o := by
  rw [countObj_eq]
  generalize isUnder (s.objs o).load info = below
  generalize isOver (s.objs o).load info = above
  by_cases hasleep : s.opts.powerThresh ≠ ullongMax ∧ info.powersave = none ∧
      (s.objs o).powersaveMode = false
  · rw [if_pos hasleep]
    cases below
    · cases above <;> exact Or.inl rfl
    · exact Or.inr rfl
  · rw [if_neg hasleep]
    cases below
    · cases above <;> exact Or.inl rfl
    · exact Or.inl rfl

theorem migrateObjIrqs_counts {p p' : State × LoadBalanceInfo} (h : migrateObjIrqs o p = some p') :
    p'.1.scores = p.1.scores ∧ p'.2.counts = p.2.counts := by
  unfold migrateObjIrqs at h
  dsimp only at h
  split_ifs at h
  · have hview := forEachIrqOn_view (fun p : State × LoadBalanceInfo => (p.1.scores, p.2.counts))
      (fun _ _ _ hm => moveCandidateIrqs_counts hm) h
    obtain ⟨hscores, hcounts⟩ := Prod.mk.inj hview
    exact ⟨hscores.trans (setSlot_scores _ _ _), hcounts⟩
  · cases h
    exact ⟨rfl, rfl⟩

/-- One object of a pass changes the counts as `countObj` does. -/
theorem migrateOverloadedIrqs_counts {p p' : State × LoadBalanceInfo}
    (h : migrateOverloadedIrqs p o = some p') :
    p'.1.scores = p.1.scores ∧ p'.2.counts = countObj p.1 p.2.counts o := by
  obtain ⟨hscores, hcounts⟩ := migrateObjIrqs_counts h
  dsimp only at hscores hcounts
  rw [countObj_counts] at hcounts
  exact ⟨hscores, hcounts⟩

/-- **A pass counts all objects as they were at its start.** -/
theorem findOverloadedObjs_counts {name : List ObjId} {r : State × LoadBalanceInfo}
    (h : findOverloadedObjs name s = some r) :
    r.1.scores = s.scores ∧ r.2.counts = name.foldl (countObj s) (loadStats name s).counts :=
  Loops.foldlM_sim (fun p : State × LoadBalanceInfo => p.1.scores = s.scores)
    (fun p => p.2.counts) (countObj s) (fun o _ p p' hp hm => by
      obtain ⟨hscores, hcounts⟩ := migrateOverloadedIrqs_counts hm
      exact ⟨hscores.trans hp, hcounts.trans (countObj_of_scores hp _ o)⟩) rfl h

/-- The counters of the statistics. -/
def LoadBalanceInfo.counters (info : LoadBalanceInfo) : ℕ × ℕ × ℕ × Option ObjId :=
  (info.numOver, info.numUnder, info.numPowersave, info.powersave)

/-- Nothing is counted before the pass. -/
theorem loadStats_counters (name : List ObjId) (s : State) :
    (loadStats name s).counters = (0, 0, 0, none) := by
  have hgather : ∀ info, (name.foldl (gatherLoadStats s) info).counters = info.counters :=
    Loops.foldl_view LoadBalanceInfo.counters (gatherLoadStats s) (fun _ _ => rfl) name
  have hdev : ∀ info, (name.foldl (computeDeviations s) info).counters = info.counters :=
    Loops.foldl_view LoadBalanceInfo.counters (computeDeviations s) (fun _ _ => rfl) name
  unfold loadStats
  dsimp only
  exact (hdev _).trans (hgather _)

theorem loadStats_powersave (name : List ObjId) (s : State) :
    (loadStats name s).powersave = none :=
  congrArg (fun c => c.2.2.2) (loadStats_counters name s)

/-- The object that the statistics propose for powersave mode is one of those they were gathered
from. -/
theorem findOverloadedObjs_powersave {name : List ObjId} {r : State × LoadBalanceInfo}
    (hf : findOverloadedObjs name s = some r) : ∀ k, r.2.powersave = some k → k ∈ name := by
  have hcount : ∀ (l : List ObjId) (info : LoadBalanceInfo), (∀ o ∈ l, o ∈ name) →
      (∀ k, info.powersave = some k → k ∈ name) →
      ∀ k, (l.foldl (countObj s) info).powersave = some k → k ∈ name := by
    intro l
    induction l with
    | nil => exact fun info _ h => h
    | cons o l ih =>
      intro info hl h
      rw [List.foldl_cons]
      refine ih (countObj s info o) (fun o' ho' => hl o' (List.mem_cons_of_mem o ho')) fun k hk => ?_
      rcases countObj_powersave s info o with e | e
      · rw [e] at hk; exact h k hk
      · rw [e] at hk; cases hk; exact hl o List.mem_cons_self
  intro k hk
  have hk' : r.2.counts.powersave = some k := hk
  rw [(findOverloadedObjs_counts hf).2] at hk'
  refine hcount name _ (fun _ h => h) (fun k h => ?_) k hk'
  have hnone : (loadStats name s).counts.powersave = none := loadStats_powersave name s
  rw [hnone] at h
  cases h

/-- What `update_migration_status` does: a pass over the cpus, the powersave decision, and passes over
the other objects, which read the loads and the powersave modes without changing them. -/
theorem updateMigrationStatus_passes (h : Live s) (hu : updateMigrationStatus s = some s') :
    ∃ r t, findOverloadedObjs s.cpus s = some r ∧ updatePowersave r.1 r.2 = some t ∧
      Rearrange {none} s r.1 ∧ Rearrange {none} r.1 t ∧ Rearrange {none} t s' ∧
      s'.scores = t.scores := by
  obtain ⟨r₁, h₁, hu⟩ := Option.bind_eq_some_iff.1 hu
  obtain ⟨s₂, h₂, hu⟩ := Option.bind_eq_some_iff.1 hu
  obtain ⟨r₃, h₃, hu⟩ := Option.bind_eq_some_iff.1 hu
  obtain ⟨r₄, h₄, hu⟩ := Option.bind_eq_some_iff.1 hu
  obtain ⟨r₅, h₅, hu⟩ := Option.bind_eq_some_iff.1 hu
  cases hu
  have e₁ : Rearrange {none} s r₁.1 :=
    findOverloadedObjs_rearrange h (fun o ho => by simp [State.topology, ho]) h₁
  have live₁ := e₁.live h
  have e₂ : Rearrange {none} r₁.1 s₂ := updatePowersave_rearrange live₁ (fun k hk => by
    rw [cpus_of_static e₁.static_eq]; exact findOverloadedObjs_powersave h₁ k hk) h₂
  have live₂ := e₂.live live₁
  have e₃ : Rearrange {none} s₂ r₃.1 :=
    findOverloadedObjs_rearrange live₂ (fun o ho => by simp [State.topology, ho]) h₃
  have live₃ := e₃.live live₂
  have e₄ : Rearrange {none} r₃.1 r₄.1 :=
    findOverloadedObjs_rearrange live₃ (fun o ho => by simp [State.topology, ho]) h₄
  have e₅ : Rearrange {none} r₄.1 r₅.1 :=
    findOverloadedObjs_rearrange (e₄.live live₃) (fun o ho => by simp [State.topology, ho]) h₅
  refine ⟨r₁, s₂, h₁, h₂, e₁, e₂, e₃.trans (e₄.trans e₅), ?_⟩
  rw [(findOverloadedObjs_counts h₅).1, (findOverloadedObjs_counts h₄).1,
    (findOverloadedObjs_counts h₃).1]

/-- **`update_migration_status` rearranges the irqs.** -/
theorem updateMigrationStatus_rearrange (h : Live s) (hu : updateMigrationStatus s = some s') :
    Rearrange {none} s s' := by
  obtain ⟨r, t, -, -, e₁, e₂, e₃, -⟩ := updateMigrationStatus_passes h hu
  exact e₁.trans (e₂.trans e₃)

end IrqBalance

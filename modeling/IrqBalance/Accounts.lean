import IrqBalance.Attribution

/-!
# The loads when irqs are selected

In front of `update_migration_status` the loads of the irqs have been cleared, and have been computed again
from `/proc/stat` if all cpus were found there. Either way the irqs of an object have at most its load
(`Reach.accounted`), and this stays so while irqs are taken off.
-/

namespace IrqBalance

variable {s s' t : State} {i : IrqId} {o : ObjId} {D : Set (Option ObjId)}

/-! ### Loads while irqs are selected -/

/-- The loads of the irqs. -/
def State.irqLoads (s : State) (i : IrqId) : UInt64 := (s.irqs i).load

/-- The loads of the objects. -/
def State.loads (s : State) (o : ObjId) : UInt64 := (s.objs o).load

theorem Rearrange.irqLoads_eq (h : Rearrange D s s') : s'.irqLoads = s.irqLoads := by
  induction h with
  | refl => rfl
  | @move t u i dst _ _ _ _ hm ih =>
    rw [← ih]
    funext j
    unfold State.irqLoads
    rw [hm.irqs_eq, Function.update_apply]
    split_ifs with hj
    · subst hj; rfl
    · rfl
  | sort _ _ ih =>
    rw [← ih]
    unfold State.irqLoads sortIrqList
    rw [State.setSlot_irqs]
  | sleep _ _ _ ih => exact ih

theorem hasHint_of_static (e : s'.static = s.static) (i : IrqId) :
    (s'.irqs i).hasHint = (s.irqs i).hasHint :=
  show (s'.static.irqs i).hasHint = (s.static.irqs i).hasHint by rw [e]

theorem loads_of_scores (e : s'.scores = s.scores) : s'.loads = s.loads :=
  funext fun o => congrArg (fun p => (p.2 o).1) e

/-- Irqs leave the objects only. -/
theorem Rearrange.mem_interrupts (hr : Rearrange {none} s s') (h : Live s) (ho : o ∈ s.topology)
    (hi : i ∈ (s'.objs o).interrupts) : i ∈ (s.objs o).interrupts := by
  have ho' : some o ∈ s.slots := some_mem_slots.2 ho
  obtain ⟨hi', hhome⟩ := ((hr.live h).mem_slot (hr.mem_slots ho')).1 hi
  rw [live_of_static hr.static_eq] at hi'
  refine (h.mem_slot ho').2 ⟨hi', ?_⟩
  rcases hr.home i with e | e
  · exact e ▸ hhome
  · rw [hhome] at e
    cases e

/-- A load that counts in the selection. -/
def bigLoad (load : UInt64) : ℕ := if load ≤ 1 then 0 else load.toNat

/-- The load of an object that may be taken off it. -/
def State.movable (s : State) (o : ObjId) : ℕ :=
  ((s.objs o).interrupts.map fun i => bigLoad (s.irqLoads i)).sum

/-- What may be taken off an object is at most its load. -/
def Covered (s : State) (o : ObjId) : Prop := s.movable o ≤ (s.loads o).toNat

theorem Covered.rearrange (hcover : Covered s o) (hr : Rearrange {none} s s') (h : Live s)
    (ho : o ∈ s.topology) (hloads : s'.loads = s.loads) : Covered s' o := by
  unfold Covered State.movable at *
  rw [hloads, hr.irqLoads_eq]
  refine (Sums.sum_map_le_of_subset ?_ (fun i hi => hr.mem_interrupts h ho hi) _).trans hcover
  refine (hr.live h).interrupts_nodup ?_
  rw [topology_of_static hr.static_eq]
  exact ho

/-! ### The loads of a layer -/

open Layers (IsForest) in
/-- The loads of the containers are at most the loads of the items. -/
theorem Summed.layer_le (hs : Summed s) {P K : List ObjId}
    (hf : IsForest s.kids s.parents {p | p ∈ P} {k | k ∈ K}) (hP : ∀ p ∈ P, p ∈ s.topology)
    (hnd : P.Nodup) (hsub : ∀ p ∈ P, ∀ k ∈ s.kids p, k ∈ K) (hne : ∀ p ∈ P, s.kids p ≠ []) :
    (P.map fun p => (s.loads p).toNat).sum ≤ (K.map fun k => (s.loads k).toNat).sum := by
  have hload : ∀ p ∈ P, (s.loads p).toNat ≤ ((s.kids p).map fun k => (s.loads k).toNat).sum := by
    intro p hp
    have hle := Sums.toNat_runningSum_le (l := s.kids p) s.loads 0
    rw [UInt64.toNat_zero, Nat.zero_add] at hle
    exact (congrArg UInt64.toNat (hs.load p (hP p hp) (hne p hp))).trans_le hle
  refine (List.sum_le_sum hload).trans ?_
  rw [← Sums.sum_map_flatMap P s.kids]
  refine Sums.sum_map_le_of_subset (hf.flatMap_nodup hsub hnd fun _ hp => hp) (fun k hk => ?_) _
  obtain ⟨p, hp, hk⟩ := List.mem_flatMap.1 hk
  exact hsub p hp k hk

/-- The lists that `find_overloaded_objs` is called with. -/
def State.layers (s : State) : List (List ObjId) := [s.cpus, s.cacheDomains, s.packages, s.numaNodes]

/-- **In a forest the loads of every layer fit, if those of the cpus do.** -/
theorem Summed.layer_fits (hs : Summed s) (h : TopoWf s) (hf : TopoForest s)
    (hloads : (s.cpus.map fun k => (s.loads k).toNat).sum < 2 ^ 64) {name : List ObjId}
    (hname : name ∈ s.layers) : (name.map fun x => (s.loads x).toNat).sum < 2 ^ 64 := by
  have hcaches : (s.cacheDomains.map fun x => (s.loads x).toNat).sum < 2 ^ 64 :=
    (hs.layer_le hf.1 (fun c hc => (mem_topology h).2 (Or.inr (Or.inr (Or.inl hc)))) h.caches_nodup
      h.cache_kids h.cache_kid).trans_lt hloads
  have hpackages : (s.packages.map fun x => (s.loads x).toNat).sum < 2 ^ 64 :=
    (hs.layer_le hf.2.1 (fun p hp => (mem_topology h).2 (Or.inr (Or.inl hp))) h.packages_nodup
      h.package_kids h.package_kid).trans_lt hcaches
  simp only [State.layers, List.mem_cons, List.not_mem_nil, or_false] at hname
  rcases hname with rfl | rfl | rfl | rfl
  · exact hloads
  · exact hcaches
  · exact hpackages
  · rw [h.numaNodes]
    simpa using (s.loads unspecifiedNode).toNat_lt

theorem TopoWf.layer_nodup (h : TopoWf s) {name : List ObjId} (hname : name ∈ s.layers) :
    name.Nodup ∧ ∀ o ∈ name, o ∈ s.topology := by
  simp only [State.layers, List.mem_cons, List.not_mem_nil, or_false] at hname
  rcases hname with rfl | rfl | rfl | rfl
  · exact ⟨h.cpus_nodup, fun o ho => by simp [State.topology, ho]⟩
  · exact ⟨h.caches_nodup, fun o ho => by simp [State.topology, ho]⟩
  · exact ⟨h.packages_nodup, fun o ho => by simp [State.topology, ho]⟩
  · exact ⟨h.numaNodes ▸ List.nodup_singleton _, fun o ho => by simp [State.topology, ho]⟩

/-! ### Runs -/

/-- What may be taken off the objects is covered by their loads, and if there is any, the loads are sums. -/
structure Accounted (s : State) : Prop where
  covered : ∀ o ∈ s.topology, BelowOnce s o → Covered s o
  summed : (∃ o ∈ s.topology, ∃ i ∈ (s.objs o).interrupts, 1 < s.irqLoads i) → Summed s

theorem Cleared.accounted (h : Cleared s) : Accounted s := by
  have hzero : ∀ o ∈ s.topology, ∀ i ∈ (s.objs o).interrupts, s.irqLoads i = 0 := h
  constructor
  · intro o ho _
    unfold Covered State.movable
    rw [List.sum_eq_zero fun x hx => ?_]
    · exact Nat.zero_le _
    · obtain ⟨i, hi, rfl⟩ := List.mem_map.1 hx
      rw [hzero o ho i hi]
      rfl
  · rintro ⟨o, ho, i, hi, hbig⟩
    rw [hzero o ho i hi] at hbig
    exact absurd hbig (by decide)

theorem Attributed.covered {slice : UInt64} (h : Attributed s o slice) : Covered s o := by
  refine (List.sum_le_sum fun i hi => ?_).trans h.sum_le
  have hload : (s.irqLoads i).toNat = max 1 (s.arrivals i * slice.toNat) := h.load_eq i hi
  unfold bigLoad
  split_ifs with hone
  · exact Nat.zero_le _
  · have hbig : 1 < (s.irqLoads i).toNat := UInt64.lt_iff_toNat_lt.1 (UInt64.not_le.1 hone)
    omega

theorem Cleared.congr (h : Cleared s) (htopology : s'.topology = s.topology) (hslot : s'.slot = s.slot)
    (hload : s'.irqLoads = s.irqLoads) : Cleared s' := by
  intro o ho i hi
  have hslot' : (s'.objs o).interrupts = (s.objs o).interrupts := congrFun hslot (some o)
  rw [htopology] at ho
  rw [hslot'] at hi
  exact (congrFun hload i).trans (h o ho i hi)

theorem parseInterruptsLoop_irqLoads (ls : List CString.Text) (s : State) :
    (parseInterruptsLoop ls s).irqLoads = s.irqLoads := by
  induction ls generalizing s with
  | nil => rfl
  | cons line ls ih =>
    rw [parseInterruptsLoop]
    split
    · rfl
    · exact ih s
    · split
      · rfl
      · dsimp only
        split_ifs
        · rfl
        · rfl
        · rw [ih]
          funext j
          unfold State.irqLoads
          rw [State.modIrq_irqs]
          split_ifs <;> rfl

theorem Cleared.parseProcInterrupts (h : Cleared s) (file : Option CString.Text) :
    Cleared (parseProcInterrupts file s) := by
  have e := parseProcInterrupts_noStats file s
  refine h.congr (topology_of_static (static_of_noStats e)) (slot_of_noStats e) ?_
  cases file with
  | none => rfl
  | some text => exact parseInterruptsLoop_irqLoads _ s

/-- Reading `/proc/stat`. -/
theorem Live.accounted (h : Live s) (hforward : CountsForward s) (hcleared : Cleared s)
    {file : Option CString.Text} (hp : parseProcStat file s = some t) (hfits : t.totalArrivals < 2 ^ 64) :
    Accounted t := by
  have hnoLoads := parseProcStat_noLoads hp
  rw [totalArrivals_of_counters (interruptsDb_of_noLoads hnoLoads) (parseProcStat_counters hp)] at hfits
  cases file with
  | none => cases hp; exact hcleared.accounted
  | some text =>
    obtain ⟨r, hr, hp⟩ := Option.bind_eq_some_iff.1 hp
    have hloop := parseStatLoop_noLoads hr
    have hirqs := parseStatLoop_irqs hr
    have hdb := interruptsDb_of_noLoads hloop
    have hcounters := counters_of_irqs hirqs
    split_ifs at hp
    · cases hp
      refine (hcleared.congr (topology_of_noLoads hloop) (slot_of_noStats (noStats_of_noLoads hloop))
        ?_).accounted
      unfold State.irqLoads
      rw [hirqs]
    · obtain ⟨u, hu, hsummed, hattributed⟩ := (h.of_noLoads hloop).attributed (hforward.congr hdb hcounters)
        (by rw [totalArrivals_of_counters hdb hcounters]; exact hfits)
      have e : u = t := Option.some.inj (hu.symm.trans hp)
      subst e
      refine ⟨fun o ho hbelow => ?_, fun _ => hsummed⟩
      obtain ⟨slice, hslice⟩ := hattributed o ho hbelow
      exact hslice.covered

theorem branchCount_congr (hkids : s'.kids = s.kids) (harrivals : s'.arrivalsAt = s.arrivalsAt) (n : ℕ) :
    s'.branchCount n = s.branchCount n := by
  induction n with
  | zero => rfl
  | succ n ih =>
    funext d
    rw [State.branchCount, State.branchCount, hkids, harrivals, ih]

theorem Accounted.forceRescan (h : Accounted s) : Accounted (forceRescan s) := by
  unfold IrqBalance.forceRescan
  split_ifs
  · exact h
  · refine ⟨fun o ho hbelow => h.covered o ho fun n => ?_, fun hbig => ?_⟩
    · have hkids : ({ s with needRescan := true } : State).kids = s.kids := rfl
      have hn := hbelow n
      rw [branchCount_congr hkids rfl n] at hn
      exact hn
    · have hs := h.summed hbig
      exact ⟨hs.load, hs.irqCount⟩

/-- Between clearing the loads and using them. -/
def LoadsReady : Pc → State → Prop
  | .loopInterrupts, s | .loopStat, s | .settleInterrupts, s | .settleStat, s => Cleared s
  | .rescanTest, s | .migration, s => s.totalArrivals < 2 ^ 64 → Accounted s
  | _, _ => True

theorem Reach.loadsReady {A : Env → Pc → State → Prop} {pc : Pc} (h : Reach A pc s)
    (hpc : pc.phase = .live) : LoadsReady pc s := by
  refine h.live_step LoadsReady (fun _ _ => ⟨trivial, trivial⟩) ?_ ?_ hpc
  · intro env pc pc' s s' hreach hlive hs hexec
    have hl := hreach.live hlive
    cases pc with
    | start | buildTree | forceRebalance | rescanForceRebalance | done => cases hlive
    | loopClearStats | settleClearStats =>
      unfold exec at hexec
      obtain ⟨rfl, hu⟩ := map_goto hexec
      exact hl.clearWorkStats hu
    | loopInterrupts | settleInterrupts =>
      cases hexec
      exact hs.parseProcInterrupts _
    | loopStat | settleStat =>
      unfold exec at hexec
      obtain ⟨rfl, hu⟩ := map_goto hexec
      exact hl.accounted (hreach.countsForward hlive) hs hu
    | rescanTest =>
      cases hexec
      split_ifs
      · trivial
      · exact hs
    | loop =>
      cases hexec
      split_ifs <;> trivial
    | migration =>
      unfold exec at hexec
      dsimp only at hexec
      split_ifs at hexec
      · cases hexec
        trivial
      · obtain ⟨rfl, -⟩ := map_goto hexec
        trivial
    | parseStat | rescanClearStats | rescanStat | placement | activation =>
      unfold exec at hexec
      obtain ⟨rfl, -⟩ := map_goto hexec
      trivial
    | parseInterrupts | rescanInterrupts | resetNeedRescan | resetCycleCount | countCycle | freeTree =>
      cases hexec
      trivial
  · intro pc s hs
    have hcleared : Cleared s → Cleared (forceRescan s) := fun hc => by
      unfold forceRescan
      split_ifs <;> exact hc
    have htotal : (forceRescan s).totalArrivals = s.totalArrivals := by
      unfold forceRescan
      split_ifs <;> rfl
    cases pc with
    | loopInterrupts | loopStat | settleInterrupts | settleStat => exact hcleared hs
    | rescanTest | migration => exact fun hfits => (hs (htotal ▸ hfits)).forceRescan
    | _ => trivial

end IrqBalance

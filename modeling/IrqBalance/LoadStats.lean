import IrqBalance.IrqList
import IrqBalance.Lib.RunningMin

/-!
# The least load

`gather_load_stats` keeps the least load seen so far in `min_load` and takes 0 for "not set yet". An
idle object is forgotten as soon as a busy one follows it in the list.
-/

namespace IrqBalance

variable {s : State} {os : List ObjId}

/-- `m` is the minimum of the loads of the objects. -/
def IsMinLoad (s : State) (os : List ObjId) (m : UInt64) : Prop :=
  (∃ o ∈ os, (s.objs o).load = m) ∧ ∀ o ∈ os, m ≤ (s.objs o).load

/-- The minimum of the loads is the least of the numbers they stand for. -/
theorem isMinLoad_iff {m : UInt64} : IsMinLoad s os m ↔
    IsLeast {n | n ∈ os.map fun o => (s.objs o).load.toNat} m.toNat := by
  simp only [IsMinLoad, IsLeast, lowerBounds, Set.mem_ofPred_eq, List.mem_map, UInt64.le_iff_toNat_le,
    ← UInt64.toNat_inj]
  constructor
  · rintro ⟨hmem, hle⟩
    refine ⟨hmem, ?_⟩
    rintro n ⟨o, ho, rfl⟩
    exact hle o ho
  · rintro ⟨hmem, hle⟩
    exact ⟨hmem, fun o ho => hle ⟨o, ho, rfl⟩⟩

/-- The loop over the objects is a running minimum that starts at 0. -/
theorem foldl_gatherLoadStats_minLoad (s : State) (os : List ObjId) (info : LoadBalanceInfo) :
    (os.foldl (gatherLoadStats s) info).minLoad.toNat =
      (os.map fun o => (s.objs o).load.toNat).foldl (RunningMin.step 0) info.minLoad.toNat := by
  induction os generalizing info with
  | nil => rfl
  | cons o os ih =>
    have hstep : (gatherLoadStats s info o).minLoad.toNat =
        RunningMin.step 0 info.minLoad.toNat (s.objs o).load.toNat := by
      have hzero : info.minLoad = 0 ↔ info.minLoad.toNat = 0 := by
        rw [← UInt64.toNat_inj]; rfl
      simp only [gatherLoadStats, RunningMin.step, hzero, UInt64.lt_iff_toNat_lt]
      split_ifs <;> rfl
    rw [List.foldl_cons, ih, hstep, List.map_cons, List.foldl_cons]

/-- **`min_load` is the minimum of the loads if and only if the last object is idle or no object
is.** -/
theorem minLoad_isMinLoad_iff (s : State) (os : List ObjId) (h : os ≠ []) :
    IsMinLoad s os (os.foldl (gatherLoadStats s) {}).minLoad ↔
      (s.objs (os.getLast h)).load = 0 ∨ ∀ o ∈ os, (s.objs o).load ≠ 0 := by
  have hmap : (os.map fun o => (s.objs o).load.toNat) ≠ [] := by simpa using h
  have hlast : (os.map fun o => (s.objs o).load.toNat).getLast hmap =
      (s.objs (os.getLast h)).load.toNat := List.getLast_map ..
  rw [isMinLoad_iff, foldl_gatherLoadStats_minLoad, show ({} : LoadBalanceInfo).minLoad.toNat = 0 from rfl,
    RunningMin.isLeast_iff Nat.zero_le hmap, hlast]
  simp only [List.mem_map, not_exists, not_and, ne_eq, ← UInt64.toNat_inj, UInt64.toNat_zero]

/-- Two objects, the first of them idle, the second with load 5. -/
def idleFirst : State :=
  { State.initial {} (fun _ => 0) with objs := fun o => { load := if o = 2 then 5 else 0 } }

theorem minLoad_isMinLoad_iff_idleLast :
    IsMinLoad idleFirst [2, 1] ([2, 1].foldl (gatherLoadStats idleFirst) {}).minLoad :=
  (minLoad_isMinLoad_iff idleFirst [2, 1] (by decide)).2 (Or.inl rfl)

/-- The idle object is forgotten, in one order of the list. -/
theorem minLoad_forgets_idle : ¬ ∀ (s : State) (os : List ObjId), os ≠ [] →
    IsMinLoad s os (os.foldl (gatherLoadStats s) {}).minLoad ∧
      ∀ os' : List ObjId, os'.Perm os → (os'.foldl (gatherLoadStats s) {}).minLoad =
        (os.foldl (gatherLoadStats s) {}).minLoad := by
  intro h
  have hfive : (([1, 2] : List ObjId).foldl (gatherLoadStats idleFirst) {}).minLoad = 5 := by
    decide +kernel
  have hidle : (idleFirst.objs 1).load = 0 := rfl
  have hle := (h idleFirst [1, 2] (by decide)).1.2 1 List.mem_cons_self
  rw [hfive, hidle] at hle
  exact absurd hle (by decide)

end IrqBalance

import IrqBalance.Lib.ArgMin
import IrqBalance.Placement

/-!
# The search for the best object

`find_best_object`, called on one object after the other, is the search of `ArgMin` among the eligible
objects: by load, then by the number of irqs. The cost it starts with, `ULLONG_MAX`, is a load that an
object can have, and an object with this load makes it look through NULL while there is no best object.
-/

namespace IrqBalance

variable {s : State} {i : IrqId} {d : ObjId} {objs : List ObjId}

/-- The object may be chosen for the irq. -/
structure Eligible (s : State) (i : IrqId) (d : ObjId) : Prop where
  awake : (s.objs d).powersaveMode = false
  unbanned : (s.objs d).objType = .node → (s.objs d).mask &&& s.unbannedCpus ≠ 0
  specified : s.opts.numaAvail = true → (s.objs d).objType = .node → (s.objs d).number ≠ -1
  hint : (s.irqs i).hintPolicy = .subset → (s.irqs i).affinityHint ≠ 0 →
    (s.irqs i).affinityHint &&& (s.objs d).mask ≠ 0

theorem eligible_iff : Eligible s i d ↔ ineligible s i d = false := by
  have hall : Eligible s i d ↔ (s.objs d).powersaveMode = false ∧
      ((s.objs d).objType = .node → (s.objs d).mask &&& s.unbannedCpus ≠ 0) ∧
      (s.opts.numaAvail = true → (s.objs d).objType = .node → (s.objs d).number ≠ -1) ∧
      ((s.irqs i).hintPolicy = .subset → (s.irqs i).affinityHint ≠ 0 →
        (s.irqs i).affinityHint &&& (s.objs d).mask ≠ 0) :=
    ⟨fun h => ⟨h.awake, h.unbanned, h.specified, h.hint⟩, fun ⟨h₁, h₂, h₃, h₄⟩ => ⟨h₁, h₂, h₃, h₄⟩⟩
  rw [hall, ineligible, Bool.or_eq_false_iff, Bool.or_eq_false_iff, Bool.or_eq_false_iff]
  simp only [IrqInfo.hasHint, cpusIntersects, cpusEmpty, Bool.and_eq_false_imp, Bool.not_eq_false',
    decide_eq_true_eq, decide_eq_false_iff_not, bne_iff_ne, Bool.and_eq_true, Bool.not_eq_true',
    beq_eq_false_iff_ne, and_imp]
  tauto

instance : DecidablePred (Eligible s i) := fun _ => decidable_of_iff _ eligible_iff.symm

/-- The objects that may be chosen, in their order. -/
def candidates (s : State) (i : IrqId) (objs : List ObjId) : List ObjId :=
  objs.filter fun d => decide (Eligible s i d)

theorem mem_candidates : d ∈ candidates s i objs ↔ d ∈ objs ∧ Eligible s i d := by
  simp [candidates]

/-- The order of the search: by load, and by the number of irqs. -/
def placeKey (s : State) (d : ObjId) : ℕ ×ₗ ℕ := toLex ((s.objs d).load.toNat, (s.objs d).interrupts.length)

theorem load_le_ullongMax (load : UInt64) : load.toNat ≤ ullongMax.toNat :=
  Nat.le_of_lt_succ load.toNat_lt

/-- The search of `ArgMin` that `find_best_object` makes, on the candidates. -/
def searchStep (s : State) : Option ObjId × ℕ → ObjId → Option (Option ObjId × ℕ) :=
  ArgMin.step (fun d => (s.objs d).load.toNat) fun d => (s.objs d).interrupts.length

/-- The part of `struct obj_placement` that the search changes. -/
def ObjPlacement.found (p : ObjPlacement) : Option ObjId × ℕ := (p.best, p.bestCost.toNat)

/-- One call of `find_best_object` on an eligible object. -/
theorem findBestObject_step {p : ObjPlacement} (hd : Eligible s p.info d) :
    Option.Rel (fun q r => q.found = r ∧ q.info = p.info) (findBestObject s p d) (searchStep s p.found d) := by
  obtain ⟨best, cost, irq⟩ := p
  unfold findBestObject searchStep ArgMin.step ObjPlacement.found
  rw [eligible_iff.1 hd]
  simp only [Bool.false_eq_true, if_false, UInt64.lt_iff_toNat_lt, ← UInt64.toNat_inj]
  split_ifs with hless hequal
  · exact .some ⟨rfl, rfl⟩
  · cases best with
    | none => exact .none
    | some b =>
      dsimp only
      split_ifs with hshorter
      · exact .some ⟨rfl, rfl⟩
      · exact .some ⟨rfl, rfl⟩
  · exact .some ⟨rfl, rfl⟩

/-- **`find_best_object`, called on one object after the other, searches among the candidates.** -/
theorem findBest_rel (s : State) (i : IrqId) (objs : List ObjId) :
    Option.Rel (fun q r => q.found = r ∧ q.info = i) (findBest s i objs)
      ((candidates s i objs).foldlM (searchStep s) (none, ullongMax.toNat)) := by
  rw [candidates, List.foldlM_filter]
  refine Loops.foldlM_rel (fun d _ p r hpr => ?_) ⟨rfl, rfl⟩
  obtain ⟨rfl, rfl⟩ := hpr
  by_cases hd : Eligible s p.info d
  · rw [if_pos (decide_eq_true hd)]
    exact findBestObject_step hd
  · have hin : ineligible s p.info d = true := by
      rw [← Bool.not_eq_false, ← eligible_iff]
      exact hd
    rw [if_neg (by simpa using hd), findBestObject, if_pos hin]
    exact .some ⟨rfl, rfl⟩

/-- **The search looks through NULL if the first candidate has the load that it starts with, and finds the
first least candidate otherwise.** -/
theorem findBest_eq (s : State) (i : IrqId) (objs : List ObjId) :
    (findBest s i objs).map ObjPlacement.best =
      if ∀ d ∈ (candidates s i objs).head?, (s.objs d).load ≠ ullongMax then
        some ((candidates s i objs).argmin (placeKey s))
      else none := by
  have hrel := findBest_rel s i objs
  have hsearch := ArgMin.search_eq (l := candidates s i objs) (fun d => (s.objs d).load.toNat)
    (fun d => (s.objs d).interrupts.length) fun d _ => load_le_ullongMax (s.objs d).load
  have hmap : (findBest s i objs).map ObjPlacement.best =
      ((candidates s i objs).foldlM (searchStep s) (none, ullongMax.toNat)).map Prod.fst := by
    generalize findBest s i objs = x at hrel ⊢
    generalize (candidates s i objs).foldlM (searchStep s) (none, ullongMax.toNat) = y at hrel ⊢
    cases hrel with
    | none => rfl
    | some h => rw [Option.map_some, Option.map_some, ← h.1]; rfl
  rw [hmap]
  refine hsearch.trans ?_
  simp only [ne_eq, UInt64.toNat_inj]
  rfl

/-- The first of the candidates that are least in the order of the search. -/
structure IsBest (s : State) (i : IrqId) (objs : List ObjId) (b : ObjId) : Prop where
  eligible : Eligible s i b
  least : ∀ d ∈ objs, Eligible s i d → placeKey s b ≤ placeKey s d
  first : ∃ pre post, objs = pre ++ b :: post ∧ ∀ d ∈ pre, Eligible s i d → placeKey s b < placeKey s d

theorem IsBest.of_argmin {b : ObjId} (h : b ∈ (candidates s i objs).argmin (placeKey s)) :
    IsBest s i objs b where
  eligible := (mem_candidates.1 (List.argmin_mem h)).2
  least d hd hel := List.le_of_mem_argmin (mem_candidates.2 ⟨hd, hel⟩) h
  first := by
    obtain ⟨pre, post, hsplit, hpre⟩ := ArgMin.exists_split h
    obtain ⟨pre', rest, rfl, rfl, hrest⟩ := List.filter_eq_append_iff.1 hsplit
    obtain ⟨skipped, post', rfl, hskipped, -, rfl⟩ := List.filter_eq_cons_iff.1 hrest
    refine ⟨pre' ++ skipped, post', (List.append_assoc _ _ _).symm, fun d hd hel => ?_⟩
    rcases List.mem_append.1 hd with hd | hd
    · exact hpre d (List.mem_filter.2 ⟨hd, decide_eq_true hel⟩)
    · exact absurd (decide_eq_true hel) (hskipped d hd)

/-- The search never looks through NULL, it ends without an object if and only if no object is eligible, and
with the best one otherwise. -/
def SearchRight (s : State) (i : IrqId) (objs : List ObjId) : Prop :=
  ∃ place, findBest s i objs = some place ∧
    (place.best = none ↔ ∀ d ∈ objs, ¬Eligible s i d) ∧ ∀ b, place.best = some b → IsBest s i objs b

/-- **The search is right if and only if the first eligible object, if there is one, has another load than
the one that the search starts with.** -/
theorem searchRight_iff (s : State) (i : IrqId) (objs : List ObjId) : SearchRight s i objs ↔
    ∀ pre d post, objs = pre ++ d :: post → (∀ c ∈ pre, ¬Eligible s i c) → Eligible s i d →
      (s.objs d).load ≠ ullongMax := by
  have hsearch := findBest_eq s i objs
  have hfirst : (∀ d ∈ (candidates s i objs).head?, (s.objs d).load ≠ ullongMax) ↔
      ∀ pre d post, objs = pre ++ d :: post → (∀ c ∈ pre, ¬Eligible s i c) → Eligible s i d →
        (s.objs d).load ≠ ullongMax := by
    simp only [candidates, List.head?_filter, Option.mem_def, List.find?_eq_some_iff_append,
      decide_eq_true_eq, Bool.not_eq_true', decide_eq_false_iff_not]
    constructor
    · intro h pre d post hobjs hpre hel
      exact h d ⟨hel, pre, post, hobjs, hpre⟩
    · rintro h d ⟨hel, pre, post, hobjs, hpre⟩
      exact h pre d post hobjs hpre hel
  rw [← hfirst]
  constructor
  · rintro ⟨place, hplace, -, -⟩
    by_contra hload
    rw [hplace, if_neg hload] at hsearch
    cases hsearch
  · intro hload
    rw [if_pos hload] at hsearch
    obtain ⟨place, hplace, hbest⟩ := Option.map_eq_some_iff.1 hsearch
    refine ⟨place, hplace, ?_, fun b hb => IsBest.of_argmin (hbest.symm.trans hb)⟩
    rw [hbest, List.argmin_eq_none, List.eq_nil_iff_forall_not_mem]
    simp only [mem_candidates, not_and]

/-- An object with the greatest load. -/
def fullObject : State :=
  { State.initial {} (fun _ => 0) with objs := fun _ => { load := ullongMax } }

/-- A single object with the greatest load makes the search look through NULL. -/
theorem search_through_null : ¬ ∀ (s : State) (i : IrqId) (objs : List ObjId), SearchRight s i objs := by
  intro h
  obtain ⟨place, hplace, -⟩ := h fullObject 0 [1]
  have hnull : (findBest fullObject 0 [1]).isNone = true := by decide
  rw [hplace] at hnull
  cases hnull

end IrqBalance

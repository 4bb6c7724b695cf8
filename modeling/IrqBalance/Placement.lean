import IrqBalance.IrqList

/-!
# `placement.c`: placing irqs in the tree

`calculate_placement` puts each irq of `rebalance_irq_list` on a node and then lets it descend, one
layer in each pass, to the least loaded child, until it is at the kind of object its level names or
no child is eligible.
-/

namespace IrqBalance

/-- `struct obj_placement`. -/
structure ObjPlacement where
  best : Option ObjId
  bestCost : UInt64
  info : IrqId

/-- The first four tests of `find_best_object`: the object is not to be considered for the irq. -/
def ineligible (s : State) (i : IrqId) (d : ObjId) : Bool :=
  let o := s.objs d
  let info := s.irqs i
  (s.opts.numaAvail && o.objType = .node && o.number = -1) ||
    (o.objType = .node && !cpusIntersects o.mask s.unbannedCpus) ||
    (info.hasHint .subset && cpusEmpty (info.affinityHint &&& o.mask)) ||
    o.powersaveMode

/-- `find_best_object`. Among equal costs it compares the lengths of the interrupt lists, through
`best->best`. -/
def findBestObject (s : State) (best : ObjPlacement) (d : ObjId) : Option ObjPlacement :=
  if ineligible s best.info d then some best
  else
    let newload := (s.objs d).load
    if newload < best.bestCost then some { best with best := some d, bestCost := newload }
    else if newload = best.bestCost then
      match best.best with
      | none => none
      | some b =>
        if (s.objs d).interrupts.length < (s.objs b).interrupts.length then
          some { best with best := some d }
        else some best
    else some best

/-- The search for the best of some objects. -/
def findBest (s : State) (i : IrqId) (objs : List ObjId) : Option ObjPlacement :=
  objs.foldlM (findBestObject s) ⟨none, ullongMax, i⟩

/-- Move the irq from one list to an object's, and add its load there. -/
def assignIrq (src : Option ObjId) (asign : ObjId) (i : IrqId) (s : State) : State :=
  let s := migrateIrq src (some asign) i s
  let s := s.modIrq i fun info => { info with assignedObj := some asign }
  s.modObj asign fun o => { o with load := o.load + (s.irqs i).load }

/-- The switch of `find_best_object_for_irq`: an irq of this level stays at an object of this type. -/
def staysAt : ObjType → BalanceLevel → Bool
  | .node, .none => true
  | .package, .package => true
  | .cache, .cache => true
  | .cpu, .core => true
  | _, _ => false

/-- `find_best_object_for_irq`. -/
def findBestObjectForIrq (d : ObjId) (i : IrqId) (s : State) : Option State :=
  if !(s.irqs i).moved then some s
  else if staysAt (s.objs d).objType (s.irqs i).level then some s
  else do
    let place ← findBest s i (s.objs d).children
    match place.best with
    | none => some s
    | some asign => some (assignIrq (some d) asign i s)

/-- `place_irq_in_object`. -/
def placeIrqInObject (s : State) (d : ObjId) : Option State :=
  if (s.objs d).interrupts = [] then some s
  else forEachIrq (fun s => (s.objs d).interrupts) (findBestObjectForIrq d) s

/-- `place_irq_in_node`. -/
def placeIrqInNode (i : IrqId) (s : State) : Option State :=
  if (s.irqs i).level = .none ∧ cpusEmpty s.bannedCpus then some s
  else
    -- the label `find_placement`
    let findPlacement : Option State := do
      let place ← findBest s i s.numaNodes
      match place.best with
      | none => some s
      | some asign => some (assignIrq none asign i s)
    match (s.irqs i).numaNode with
    -- `irq_numa_node(info)->number` through NULL
    | none => none
    | some node =>
      if (s.objs node).number = -1 then findPlacement
      else if !cpusIntersects (s.objs node).mask s.unbannedCpus then findPlacement
      else
        let s := migrateIrq none (some node) i s
        let s := s.modIrq i fun info => { info with assignedObj := some node }
        some (s.modObj node fun o => { o with load := o.load + ((s.irqs i).load + 1) })

/-- `calculate_placement`. -/
def calculatePlacement (s : State) : Option State := do
  let s := sortIrqList none s
  if s.rebalanceIrqList = [] then some s
  else
    let s ← forEachIrq State.rebalanceIrqList placeIrqInNode s
    let s ← s.numaNodes.foldlM placeIrqInObject s
    let s ← s.packages.foldlM placeIrqInObject s
    s.cacheDomains.foldlM placeIrqInObject s

end IrqBalance

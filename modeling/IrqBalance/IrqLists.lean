import IrqBalance.Lib.Loops
import IrqBalance.Lib.MergeSort
import IrqBalance.Types

/-!
# `classify.c` and `irqbalance.h`: walking, searching, moving and sorting irq lists

`for_each_irq` walks a list of the state by its links while the callback may unlink nodes from it
(`Loops.walk`), and walks `interrupts_db` when it is given an empty list. The search functions compare
irq numbers, never pointers.
-/

namespace IrqBalance

/-- `for_each_irq`, for a callback that also carries data: `st` is the state in `σ`. The list is
chosen once, before the walk. -/
def forEachIrqOn {σ : Type} (st : σ → State) (list : State → List IrqId)
    (cb : IrqId → σ → Option σ) (s : σ) : Option σ :=
  let chosen := if (list (st s)).isEmpty then State.interruptsDb else list
  Loops.walk (fun t => chosen (st t)) cb s

/-- `for_each_irq`. -/
def forEachIrq (list : State → List IrqId) (cb : IrqId → State → Option State) (s : State) :
    Option State :=
  forEachIrqOn id list cb s

/-- The calls of the callback that `forEachIrqOn` makes. -/
def forEachIrqCalls {σ : Type} (st : σ → State) (list : State → List IrqId)
    (cb : IrqId → σ → Option σ) (s : σ) : List (IrqId × σ) :=
  let chosen := if (list (st s)).isEmpty then State.interruptsDb else list
  Loops.calls (fun t => chosen (st t)) cb s

/-- `compare_ints(entry, find) == 0` for an `irq_info` with the number `irq`. -/
def sameIrq (s : State) (irq : ℤ) (i : IrqId) : Bool := (s.irqs i).irq = irq

/-- `get_irq_info`. -/
def getIrqInfo (s : State) (irq : ℤ) : Option IrqId :=
  match s.interruptsDb.find? (sameIrq s irq) with
  | some i => some i
  | none => s.bannedIrqs.find? (sameIrq s irq)

/-- `migrate_irq`. -/
def migrateIrq (src dst : Option ObjId) (i : IrqId) (s : State) : State :=
  let irq := (s.irqs i).irq
  match (s.slot src).find? (sameIrq s irq) with
  | none => s
  | some tmp =>
    let s := s.setSlot ((s.slot src).eraseP (sameIrq s irq)) src
    let s := s.setSlot (s.slot dst ++ [tmp]) dst
    s.modIrq i fun info => { info with moved := true }

/-- `sort_irqs`. -/
def sortIrqs (s : State) (a b : IrqId) : ℤ :=
  if (s.irqs a).irqClass.toNat < (s.irqs b).irqClass.toNat then 1
  else if (s.irqs b).irqClass.toNat < (s.irqs a).irqClass.toNat then -1
  else if (s.irqs a).load < (s.irqs b).load then 1
  else if (s.irqs b).load < (s.irqs a).load then -1
  else if s.opts.irqAddr a < s.opts.irqAddr b then 1
  else -1

/-- `sort_irq_list`. -/
def sortIrqList (a : Option ObjId) (s : State) : State :=
  s.setSlot (MergeSort.sort (fun x y => sortIrqs s x y ≤ 0) (s.slot a)) a

end IrqBalance

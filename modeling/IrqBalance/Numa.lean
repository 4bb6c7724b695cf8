import IrqBalance.Cpumask

/-!
# `numa.c`: the node list

`numa_nodes` always starts with the statically allocated unspecified node, whose mask has every bit
set. With `numa_avail` 0, which is what `config.h` fixes, it is the only one.
-/

namespace IrqBalance

open CString

/-- `calloc` of a `struct topo_obj`, with the fields its caller sets; the pointer is `s.nextObj`. -/
def State.callocObj (s : State) (o : TopoObj) : State :=
  { s with objs := fun p => if p = s.nextObj then o else s.objs p, nextObj := s.nextObj + 1 }

/-- An entry of `/sys/devices/system/node`. -/
structure NodeDir where
  dName : Text
  isDir : Bool
  cpumap : Option Text

/-- `unspecified_node_template`. -/
def unspecifiedNodeTemplate : TopoObj where
  number := -1
  objType := .node
  mask := cpuMaskAll

/-- `add_one_node`. -/
def addOneNode (d : NodeDir) (s : State) : State :=
  match d.cpumap with
  | none => s
  | some text =>
    let new : TopoObj :=
      { mask := if text = [] then 0 else cpumaskParseUser (firstLine text)
        objType := .node
        number := toInt (strtoul (d.dName.drop 4)).1 }
    { s.callocObj new with numaNodes := s.numaNodes ++ [s.nextObj] }

/-- `build_numa_node_list`. -/
def buildNumaNodeList (dir : Option (List NodeDir)) (s : State) : State :=
  let s := s.modObj unspecifiedNode fun _ => unspecifiedNodeTemplate
  let s := { s with numaNodes := s.numaNodes ++ [unspecifiedNode] }
  if !s.opts.numaAvail then s
  else match dir with
    | none => s
    | some entries =>
      (entries.filter fun d => d.isDir && strstr d.dName "node".toList).foldl
        (fun s d => addOneNode d s) s

/-- `free_numa_node_list`. -/
def freeNumaNodeList (s : State) : State := { s with numaNodes := [] }

/-- `get_numa_node`. -/
def getNumaNode (s : State) (nodeid : ℤ) : Option ObjId :=
  if !s.opts.numaAvail then some unspecifiedNode
  else if nodeid = -1 then some unspecifiedNode
  else s.numaNodes.find? fun n => (s.objs n).number = nodeid

/-- `add_package_to_node`. -/
def addPackageToNode (p : ObjId) (nodeid : ℤ) (s : State) : State :=
  match getNumaNode s nodeid with
  | none => s
  | some node =>
    if (s.objs p).parent = none then
      (s.modObj node fun o => { o with children := o.children ++ [p] }).modObj p
        fun o => { o with parent := some node }
    else s

end IrqBalance

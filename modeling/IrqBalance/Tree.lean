import IrqBalance.CpuTree
import IrqBalance.Lib.Layers

/-!
# Building the object tree

What `build_numa_node_list` and `parse_cpu_tree` build, in the case of one node. `TreeInv` describes
the tree while cpus are added to it, `TreeOf` the tree between two cpu directories.

The cache domains hold the cpus and the packages hold the cache domains as two layers of containers
found by their masks (`Layers.IsLayer`). The node holds the packages as a list in the order they were
made.
-/

namespace IrqBalance

open Layers (IsLayer)

/-! ### Views of the tree -/

/-- The masks of the objects. -/
def State.masks (s : State) (o : ObjId) : Cpumask := (s.objs o).mask

/-- The lists of children of the objects. -/
def State.kids (s : State) (o : ObjId) : List ObjId := (s.objs o).children

/-- The parent pointers of the objects. -/
def State.parents (s : State) (o : ObjId) : Option ObjId := (s.objs o).parent

/-- The objects of `P` contain the objects of `K` as `link` demands. -/
abbrev State.Layer (s : State) (P K : Set ObjId) (link : ObjId → Cpumask → Prop) : Prop :=
  IsLayer s.masks s.kids s.parents P K link

/-- An object of the tree as `parse_cpu_tree` leaves it: allocated, of the kind of its list, without
banned cpus, awake and without irqs. -/
structure State.IsKind (s : State) (t : ObjType) (o : ObjId) : Prop where
  lt : o < s.nextObj
  objType : (s.objs o).objType = t
  banned : (s.objs o).mask &&& s.bannedCpus = 0
  interrupts : (s.objs o).interrupts = []
  awake : (s.objs o).powersaveMode = false

/-- Objects of different kinds are different. -/
theorem State.IsKind.ne {s : State} {t t' : ObjType} {o o' : ObjId} (h : s.IsKind t o)
    (h' : s.IsKind t' o') (hne : t ≠ t') : o ≠ o' := by
  rintro rfl
  exact hne (h.objType.symm.trans h'.objType)

/-- The objects of the tree, apart from their links. `K` are its cpus. -/
structure TreeShape (K : Set ObjId) (s : State) : Prop where
  numaAvail : s.opts.numaAvail = false
  unbanned : s.unbannedCpus = ~~~s.bannedCpus
  numaNodes : s.numaNodes = [unspecifiedNode]
  node_lt : unspecifiedNode < s.nextObj
  nodeType : (s.objs unspecifiedNode).objType = .node
  nodeNumber : (s.objs unspecifiedNode).number = -1
  nodeMask : (s.objs unspecifiedNode).mask = cpuMaskAll
  nodeInterrupts : (s.objs unspecifiedNode).interrupts = []
  nodeAwake : (s.objs unspecifiedNode).powersaveMode = false
  packages_nodup : s.packages.Nodup
  caches_nodup : s.cacheDomains.Nodup
  isPackage : ∀ p ∈ s.packages, s.IsKind .package p
  isCache : ∀ c ∈ s.cacheDomains, s.IsKind .cache c
  isCpu : ∀ k ∈ K, s.IsKind .cpu k
  cpu_mask : ∀ k ∈ K, s.masks k ≠ 0

/-- The tree while cpus are added: `K` are the cpus that are linked to a cache domain, `C` the cache
domains that are linked to a package, and `Q` the packages that are linked to the node. -/
structure TreeInv (link₁ link₂ : ObjId → Cpumask → Prop) (K C : Set ObjId) (Q : List ObjId)
    (s : State) : Prop extends TreeShape K s where
  cpu_kids : ∀ k ∈ K, s.kids k = []
  caches : s.Layer {c | c ∈ s.cacheDomains} K link₁
  linked_caches : ∀ c ∈ C, c ∈ s.cacheDomains
  packages : s.Layer {p | p ∈ s.packages} C link₂
  linked_packages : ∀ p ∈ Q, p ∈ s.packages
  node_kids : s.kids unspecifiedNode = Q
  node_parent : s.parents unspecifiedNode = none
  package_parent : ∀ p ∈ s.packages, s.parents p = if p ∈ Q then some unspecifiedNode else none

variable {link₁ link₂ : ObjId → Cpumask → Prop} {K C : Set ObjId} {Q : List ObjId} {s : State}
variable {t : ObjType} {o p kid : ObjId}

theorem TreeShape.ne_node (h : TreeShape K s) (ho : s.IsKind t o) (ht : t ≠ .node) :
    o ≠ unspecifiedNode := by
  rintro rfl
  exact ht (ho.objType.symm.trans h.nodeType)

/-! ### Allocation -/

section Alloc

variable {new : TopoObj}

theorem callocObj_objs (h : o < s.nextObj) : (s.callocObj new).objs o = s.objs o :=
  if_neg (Nat.ne_of_lt h)

@[simp] theorem callocObj_objs_self : (s.callocObj new).objs s.nextObj = new := if_pos rfl

theorem State.IsKind.calloc (h : s.IsKind t o) : (s.callocObj new).IsKind t o := by
  have e : (s.callocObj new).objs o = s.objs o := callocObj_objs h.lt
  exact ⟨Nat.lt_succ_of_lt h.lt, by rw [e, h.objType], by rw [e]; exact h.banned,
    by rw [e, h.interrupts], by rw [e, h.awake]⟩

/-- The lists of the state do not matter. -/
theorem State.IsKind.congr {s' : State} (h : s.IsKind t o) (hnext : s'.nextObj = s.nextObj)
    (hobjs : s'.objs = s.objs) (hbanned : s'.bannedCpus = s.bannedCpus) : s'.IsKind t o :=
  ⟨by rw [hnext]; exact h.lt, by rw [hobjs, h.objType], by rw [hobjs, hbanned]; exact h.banned,
    by rw [hobjs, h.interrupts], by rw [hobjs, h.awake]⟩

theorem isKind_calloc_self (ht : new.objType = t) (hm : new.mask &&& s.bannedCpus = 0)
    (hi : new.interrupts = []) (ha : new.powersaveMode = false) :
    (s.callocObj new).IsKind t s.nextObj where
  lt := Nat.lt_succ_self _
  objType := by rw [callocObj_objs_self, ht]
  banned := by rw [callocObj_objs_self]; exact hm
  interrupts := by rw [callocObj_objs_self, hi]
  awake := by rw [callocObj_objs_self, ha]

theorem callocObj_masks (h : o < s.nextObj) : (s.callocObj new).masks o = s.masks o := by
  rw [State.masks, callocObj_objs h, State.masks]

theorem callocObj_kids (h : o < s.nextObj) : (s.callocObj new).kids o = s.kids o := by
  rw [State.kids, callocObj_objs h, State.kids]

theorem callocObj_parents (h : o < s.nextObj) : (s.callocObj new).parents o = s.parents o := by
  rw [State.parents, callocObj_objs h, State.parents]

theorem State.Layer.calloc {P : Set ObjId} (h : s.Layer P K link₁) (hP : ∀ p ∈ P, p < s.nextObj)
    (hK : ∀ k ∈ K, k < s.nextObj) : (s.callocObj new).Layer P K link₁ :=
  IsLayer.congr h (fun p hp => callocObj_masks (hP p hp)) (fun p hp => callocObj_kids (hP p hp))
    (fun k hk => callocObj_parents (hK k hk)) fun _ _ => Iff.rfl

theorem TreeShape.calloc (h : TreeShape K s) (new : TopoObj) : TreeShape K (s.callocObj new) where
  numaAvail := h.numaAvail
  unbanned := h.unbanned
  numaNodes := h.numaNodes
  node_lt := Nat.lt_succ_of_lt h.node_lt
  nodeType := by rw [callocObj_objs h.node_lt, h.nodeType]
  nodeNumber := by rw [callocObj_objs h.node_lt, h.nodeNumber]
  nodeMask := by rw [callocObj_objs h.node_lt, h.nodeMask]
  nodeInterrupts := by rw [callocObj_objs h.node_lt, h.nodeInterrupts]
  nodeAwake := by rw [callocObj_objs h.node_lt, h.nodeAwake]
  packages_nodup := h.packages_nodup
  caches_nodup := h.caches_nodup
  isPackage p hp := (h.isPackage p hp).calloc
  isCache c hc := (h.isCache c hc).calloc
  isCpu k hk := (h.isCpu k hk).calloc
  cpu_mask k hk := by rw [callocObj_masks (h.isCpu k hk).lt]; exact h.cpu_mask k hk

/-- Allocating an object does not disturb the tree. -/
theorem TreeInv.calloc (h : TreeInv link₁ link₂ K C Q s) (new : TopoObj) :
    TreeInv link₁ link₂ K C Q (s.callocObj new) where
  toTreeShape := h.toTreeShape.calloc new
  cpu_kids k hk := by rw [callocObj_kids (h.isCpu k hk).lt]; exact h.cpu_kids k hk
  caches := State.Layer.calloc h.caches (fun c hc => (h.isCache c hc).lt) fun k hk => (h.isCpu k hk).lt
  linked_caches := h.linked_caches
  packages := State.Layer.calloc h.packages (fun p hp => (h.isPackage p hp).lt)
    fun c hc => (h.isCache c (h.linked_caches c hc)).lt
  linked_packages := h.linked_packages
  node_kids := by rw [callocObj_kids h.node_lt, h.node_kids]
  node_parent := by rw [callocObj_parents h.node_lt, h.node_parent]
  package_parent p hp := by
    rw [callocObj_parents (h.isPackage p hp).lt]; exact h.package_parent p hp

end Alloc

/-! ### Finding or making a container -/

/-- What later steps keep of the tree that they extend. -/
structure Grows (s s' : State) : Prop where
  opts : s'.opts = s.opts
  bannedCpus : s'.bannedCpus = s.bannedCpus
  unbannedCpus : s'.unbannedCpus = s.unbannedCpus
  coreCount : s'.coreCount = s.coreCount
  cpus : s'.cpus = s.cpus
  caches : ∀ c ∈ s.cacheDomains, c ∈ s'.cacheDomains
  isKind : ∀ t o, s.IsKind t o → s'.IsKind t o
  masks : ∀ o, o < s.nextObj → s'.masks o = s.masks o
  numbers : ∀ o, o < s.nextObj → (s'.objs o).number = (s.objs o).number

theorem Grows.refl (s : State) : Grows s s :=
  ⟨rfl, rfl, rfl, rfl, rfl, fun _ => id, fun _ _ => id, fun _ _ => rfl, fun _ _ => rfl⟩

theorem grows_calloc (s : State) (new : TopoObj) : Grows s (s.callocObj new) :=
  ⟨rfl, rfl, rfl, rfl, rfl, fun _ => id, fun _ _ h => h.calloc, fun _ h => callocObj_masks h,
    fun _ h => congrArg TopoObj.number (callocObj_objs h)⟩

theorem Grows.trans {s s' s'' : State} (h : Grows s s') (h' : Grows s' s'')
    (hlt : s.nextObj ≤ s'.nextObj) : Grows s s'' where
  opts := h'.opts.trans h.opts
  bannedCpus := h'.bannedCpus.trans h.bannedCpus
  unbannedCpus := h'.unbannedCpus.trans h.unbannedCpus
  coreCount := h'.coreCount.trans h.coreCount
  cpus := h'.cpus.trans h.cpus
  caches c hc := h'.caches c (h.caches c hc)
  isKind t o ho := h'.isKind t o (h.isKind t o ho)
  masks o ho := (h'.masks o (Nat.lt_of_lt_of_le ho hlt)).trans (h.masks o ho)
  numbers o ho := (h'.numbers o (Nat.lt_of_lt_of_le ho hlt)).trans (h.numbers o ho)

theorem setOf_mem_concat (l : List ObjId) (x : ObjId) : {c | c ∈ l ++ [x]} = insert x {c | c ∈ l} := by
  ext c
  simp [or_comm]

theorem nodup_concat {l : List ObjId} {x : ObjId} (hl : l.Nodup) (hx : x ∉ l) : (l ++ [x]).Nodup :=
  List.nodup_append.2 ⟨hl, by simp, fun a ha b hb e => hx (by simp_all)⟩

/-- The container `o` that a search for `mask` in `list` returns, with the state it leaves. -/
structure Found (s : State) (list : State → List ObjId) (mask : Cpumask) (o : ObjId) (s' : State) :
    Prop where
  list_eq : list s' = if o ∈ list s then list s else list s ++ [o]
  mask : s'.masks o = mask
  grows : Grows s s'
  nextObj : s.nextObj ≤ s'.nextObj

theorem Found.mem {list : State → List ObjId} {mask : Cpumask} {s' : State}
    (h : Found s list mask o s') : o ∈ list s' := by
  rw [h.list_eq]
  split_ifs with ho
  · exact ho
  · exact List.mem_append_right _ List.mem_cons_self

/-- A new container at the end of the list of a layer. -/
theorem State.Layer.concat {l : List ObjId} {new : TopoObj}
    (h : (s.callocObj new).Layer {c | c ∈ l} K link₁) (hl : ∀ c ∈ l, c < s.nextObj)
    (hkids : new.children = []) (hnew : ∀ c ∈ l, new.mask ≠ (s.objs c).mask) :
    (s.callocObj new).Layer {c | c ∈ l ++ [s.nextObj]} K link₁ := by
  have hself : (s.callocObj new).objs s.nextObj = new := callocObj_objs_self
  rw [setOf_mem_concat]
  refine IsLayer.make h (by rw [State.kids, hself, hkids]) fun c hc => ?_
  rw [callocObj_masks (hl c hc), State.masks, State.masks, hself]
  exact (hnew c hc).symm

theorem isKind_concat {l : List ObjId} {new : TopoObj} (hl : ∀ c ∈ l, (s.callocObj new).IsKind t c)
    (hnew : (s.callocObj new).IsKind t s.nextObj) :
    ∀ c ∈ l ++ [s.nextObj], (s.callocObj new).IsKind t c :=
  List.forall_mem_append.2 ⟨hl, List.forall_mem_singleton.2 hnew⟩

/-- `find_cache_domain` keeps the tree, and changes nothing but the new object. -/
theorem TreeInv.cache_found (h : TreeInv link₁ link₂ K C Q s) {mask : Cpumask}
    (hm : mask &&& s.bannedCpus = 0) :
    TreeInv link₁ link₂ K C Q (findCacheDomain mask s).2 ∧
      Found s State.cacheDomains mask (findCacheDomain mask s).1 (findCacheDomain mask s).2 ∧
      (∀ o, o < s.nextObj → (findCacheDomain mask s).2.objs o = s.objs o) ∧
      (findCacheDomain mask s).2.packages = s.packages := by
  unfold findCacheDomain
  cases hf : s.cacheDomains.find? fun c => mask = (s.objs c).mask with
  | some c =>
    have hmask := List.find?_some hf
    simp only [decide_eq_true_eq] at hmask
    have hmem := List.mem_of_find?_eq_some hf
    exact ⟨h, ⟨(if_pos hmem).symm, hmask.symm, Grows.refl s, Nat.le_refl _⟩, fun _ _ => rfl, rfl⟩
  | none =>
    have hnone : ∀ c ∈ s.cacheDomains, mask ≠ (s.objs c).mask := by simpa using hf
    let new : TopoObj := { mask := mask, objType := .cache, number := s.cacheDomainCount }
    have h1 := h.calloc new
    have hfresh : s.nextObj ∉ s.cacheDomains := fun hc => Nat.lt_irrefl _ (h.isCache _ hc).lt
    have hself : (s.callocObj new).objs s.nextObj = new := callocObj_objs_self
    let s' : State := { s.callocObj new with
      cacheDomains := s.cacheDomains ++ [s.nextObj]
      cacheDomainCount := s.cacheDomainCount + 1 }
    have hkind : ∀ {t o}, (s.callocObj new).IsKind t o → s'.IsKind t o :=
      fun ho => ho.congr rfl rfl rfl
    have hlayer : (s.callocObj new).Layer {c | c ∈ s.cacheDomains ++ [s.nextObj]} K link₁ :=
      h1.caches.concat (fun c hc => (h.isCache c hc).lt) rfl hnone
    have hcaches := isKind_concat h1.isCache (isKind_calloc_self rfl hm rfl rfl)
    have hinv : TreeInv link₁ link₂ K C Q s' :=
      { h1 with
        caches_nodup := nodup_concat h.caches_nodup hfresh
        isPackage := fun p hp => hkind (h1.isPackage p hp)
        isCache := fun c hc => hkind (hcaches c hc)
        isCpu := fun k hk => hkind (h1.isCpu k hk)
        caches := hlayer
        linked_caches := fun c hc => List.mem_append_left _ (h.linked_caches c hc) }
    have hgrows : Grows s s' := ⟨rfl, rfl, rfl, rfl, rfl, fun c hc => List.mem_append_left _ hc,
      fun _ _ ho => hkind ho.calloc, (grows_calloc s new).masks, (grows_calloc s new).numbers⟩
    exact ⟨hinv, ⟨(if_neg hfresh).symm, congrArg TopoObj.mask hself, hgrows, Nat.le_succ _⟩,
      fun o ho => callocObj_objs ho, rfl⟩

theorem TreeInv.package_found (h : TreeInv link₁ link₂ K C Q s) (packageid : ℤ) {mask : Cpumask}
    (hm : mask &&& s.bannedCpus = 0) :
    TreeInv link₁ link₂ K C Q (findPackage packageid mask s).2 ∧
      Found s State.packages mask (findPackage packageid mask s).1
        (findPackage packageid mask s).2 ∧
      (findPackage packageid mask s).2.cacheDomains = s.cacheDomains := by
  unfold findPackage
  cases hf : s.packages.find? fun p => mask = (s.objs p).mask with
  | some p =>
    have hmask := List.find?_some hf
    simp only [decide_eq_true_eq] at hmask
    have hmem := List.mem_of_find?_eq_some hf
    exact ⟨h, ⟨(if_pos hmem).symm, hmask.symm, Grows.refl s, Nat.le_refl _⟩, rfl⟩
  | none =>
    have hnone : ∀ p ∈ s.packages, mask ≠ (s.objs p).mask := by simpa using hf
    let new : TopoObj := { mask := mask, objType := .package, number := packageid }
    have h1 := h.calloc new
    have hfresh : s.nextObj ∉ s.packages := fun hp => Nat.lt_irrefl _ (h.isPackage _ hp).lt
    have hself : (s.callocObj new).objs s.nextObj = new := callocObj_objs_self
    let s' : State := { s.callocObj new with
      packages := s.packages ++ [s.nextObj]
      packageCount := s.packageCount + 1 }
    have hkind : ∀ {t o}, (s.callocObj new).IsKind t o → s'.IsKind t o :=
      fun ho => ho.congr rfl rfl rfl
    have hlayer : (s.callocObj new).Layer {p | p ∈ s.packages ++ [s.nextObj]} C link₂ :=
      h1.packages.concat (fun p hp => (h.isPackage p hp).lt) rfl hnone
    have hpackages := isKind_concat h1.isPackage (isKind_calloc_self rfl hm rfl rfl)
    have hparent : ∀ p ∈ s'.packages, s'.parents p = if p ∈ Q then some unspecifiedNode else none := by
      intro p hp
      rcases List.mem_append.1 hp with hp | hp
      · exact h1.package_parent p hp
      · -- a new package has no parent yet
        rw [List.mem_singleton.1 hp, if_neg fun hq => hfresh (h.linked_packages _ hq)]
        exact congrArg TopoObj.parent hself
    have hinv : TreeInv link₁ link₂ K C Q s' :=
      { h1 with
        packages_nodup := nodup_concat h.packages_nodup hfresh
        isPackage := fun p hp => hkind (hpackages p hp)
        isCache := fun c hc => hkind (h1.isCache c hc)
        isCpu := fun k hk => hkind (h1.isCpu k hk)
        packages := hlayer
        linked_packages := fun p hp => List.mem_append_left _ (h.linked_packages p hp)
        package_parent := hparent }
    have hgrows : Grows s s' := ⟨rfl, rfl, rfl, rfl, rfl, fun _ => id, fun _ _ ho => hkind ho.calloc,
      (grows_calloc s new).masks, (grows_calloc s new).numbers⟩
    exact ⟨hinv, ⟨(if_neg hfresh).symm, congrArg TopoObj.mask hself, hgrows, Nat.le_succ _⟩, rfl⟩

/-! ### Linking -/

/-- The state without the links between the objects. -/
def State.unlinked (s : State) : State :=
  { s with objs := fun o => { s.objs o with parent := none, children := [] } }

theorem isKind_unlinked : s.unlinked.IsKind t o ↔ s.IsKind t o :=
  ⟨fun h => ⟨h.lt, h.objType, h.banned, h.interrupts, h.awake⟩,
    fun h => ⟨h.lt, h.objType, h.banned, h.interrupts, h.awake⟩⟩

theorem treeShape_unlinked : TreeShape K s.unlinked ↔ TreeShape K s :=
  ⟨fun h => { h with
      isPackage := fun p hp => isKind_unlinked.1 (h.isPackage p hp)
      isCache := fun c hc => isKind_unlinked.1 (h.isCache c hc)
      isCpu := fun k hk => isKind_unlinked.1 (h.isCpu k hk) },
    fun h => { h with
      isPackage := fun p hp => isKind_unlinked.2 (h.isPackage p hp)
      isCache := fun c hc => isKind_unlinked.2 (h.isCache c hc)
      isCpu := fun k hk => isKind_unlinked.2 (h.isCpu k hk) }⟩

section Relink

variable {s' : State}

theorem TreeShape.relink (h : TreeShape K s) (e : s'.unlinked = s.unlinked) : TreeShape K s' := by
  rw [← treeShape_unlinked, e, treeShape_unlinked]
  exact h

theorem State.IsKind.relink (h : s.IsKind t o) (e : s'.unlinked = s.unlinked) : s'.IsKind t o := by
  rw [← isKind_unlinked, e, isKind_unlinked]
  exact h

section

variable (e : s'.unlinked = s.unlinked)
include e

theorem masks_of_unlinked : s'.masks = s.masks :=
  show s'.unlinked.masks = s.unlinked.masks by rw [e]

theorem packages_of_unlinked : s'.packages = s.packages :=
  show s'.unlinked.packages = s.unlinked.packages by rw [e]

theorem cacheDomains_of_unlinked : s'.cacheDomains = s.cacheDomains :=
  show s'.unlinked.cacheDomains = s.unlinked.cacheDomains by rw [e]

theorem nextObj_of_unlinked : s'.nextObj = s.nextObj :=
  show s'.unlinked.nextObj = s.unlinked.nextObj by rw [e]

theorem grows_of_unlinked : Grows s s' where
  opts := show s'.unlinked.opts = s.unlinked.opts by rw [e]
  bannedCpus := show s'.unlinked.bannedCpus = s.unlinked.bannedCpus by rw [e]
  unbannedCpus := show s'.unlinked.unbannedCpus = s.unlinked.unbannedCpus by rw [e]
  coreCount := show s'.unlinked.coreCount = s.unlinked.coreCount by rw [e]
  cpus := show s'.unlinked.cpus = s.unlinked.cpus by rw [e]
  caches := fun c hc => by rw [cacheDomains_of_unlinked e]; exact hc
  isKind := fun _ _ ho => ho.relink e
  masks := fun o _ => by rw [masks_of_unlinked e]
  numbers := fun o _ => show (s'.unlinked.objs o).number = (s.unlinked.objs o).number by rw [e]

end

end Relink

theorem modObj_unlinked {f : TopoObj → TopoObj}
    (hf : ∀ ob, { f ob with parent := none, children := [] } =
      ({ ob with parent := none, children := [] } : TopoObj)) (s : State) (o : ObjId) :
    (s.modObj o f).unlinked = s.unlinked := by
  have h : ∀ p, ({ (s.modObj o f).objs p with parent := none, children := [] } : TopoObj) =
      { s.objs p with parent := none, children := [] } := by
    intro p
    rw [State.modObj_objs]
    split_ifs
    · exact hf _
    · rfl
  simp only [State.unlinked, h]
  rfl

theorem linkChild_unlinked (o kid : ObjId) (s : State) : (linkChild o kid s).unlinked = s.unlinked := by
  unfold linkChild
  split_ifs
  · rfl
  · exact (modObj_unlinked (by intro _; rfl) _ kid).trans (modObj_unlinked (by intro _; rfl) s o)

theorem linkChild_old (h : kid ∈ s.kids o) : linkChild o kid s = s := if_pos h

theorem linkChild_kids (h : kid ∉ s.kids o) :
    (linkChild o kid s).kids = Function.update s.kids o (s.kids o ++ [kid]) := by
  funext p
  have hif : linkChild o kid s = (s.modObj o _).modObj kid _ := if_neg h
  rw [hif, State.kids, State.modObj_objs, State.modObj_objs, Function.update_apply]
  split_ifs with h1 h2 h2
  · subst h2; rfl
  · rfl
  · subst h2; rfl
  · rfl

theorem linkChild_parents (h : kid ∉ s.kids o) :
    (linkChild o kid s).parents = Function.update s.parents kid (some o) := by
  funext p
  have hif : linkChild o kid s = (s.modObj o _).modObj kid _ := if_neg h
  rw [hif, State.parents, State.modObj_objs, State.modObj_objs, Function.update_apply]
  split_ifs <;> rfl

/-- Linking `kid` below `o` leaves the lists of other objects alone. -/
theorem linkChild_kids_of_ne (h : p ≠ o) : (linkChild o kid s).kids p = s.kids p := by
  by_cases hk : kid ∈ s.kids o
  · rw [linkChild_old hk]
  · rw [linkChild_kids hk, Function.update_of_ne h]

/-- Linking `kid` leaves the parents of other objects alone. -/
theorem linkChild_parents_of_ne (h : p ≠ kid) : (linkChild o kid s).parents p = s.parents p := by
  by_cases hk : kid ∈ s.kids o
  · rw [linkChild_old hk]
  · rw [linkChild_parents hk, Function.update_of_ne h]

/-- Linking below a container of a layer. -/
theorem State.Layer.link {P : Set ObjId} (h : s.Layer P K link₁) (ho : o ∈ P) :
    (linkChild o kid s).Layer P (insert kid K) fun k m => link₁ k m ∨ k = kid ∧ m = s.masks o := by
  by_cases hk : kid ∈ s.kids o
  · rw [linkChild_old hk]
    exact IsLayer.link_old h ho hk
  · rw [State.Layer, masks_of_unlinked (linkChild_unlinked o kid s), linkChild_kids hk,
      linkChild_parents hk]
    exact IsLayer.link_new h ho hk

/-- Linking elsewhere. -/
theorem State.Layer.link_elsewhere {P : Set ObjId} (h : s.Layer P K link₁) (ho : ∀ p ∈ P, p ≠ o)
    (hk : ∀ k ∈ K, k ≠ kid) : (linkChild o kid s).Layer P K link₁ :=
  IsLayer.congr h (fun _ _ => by rw [masks_of_unlinked (linkChild_unlinked o kid s)])
    (fun p hp => linkChild_kids_of_ne (ho p hp)) (fun k hk' => linkChild_parents_of_ne (hk k hk'))
    fun _ _ => Iff.rfl

/-- Link a new cpu to a cache domain. -/
theorem TreeInv.linkCpu (h : TreeInv link₁ link₂ K C Q s) {cache cpu : ObjId}
    (hcache : cache ∈ s.cacheDomains) (hcpu : s.IsKind .cpu cpu) (hmask : s.masks cpu ≠ 0)
    (hkids : s.kids cpu = []) :
    TreeInv (fun k m => link₁ k m ∨ k = cpu ∧ m = s.masks cache) link₂ (insert cpu K) C Q
      (linkChild cache cpu s) := by
  have e := linkChild_unlinked cache cpu s
  have hshape : TreeShape K (linkChild cache cpu s) := h.toTreeShape.relink e
  have hkind := h.isCache cache hcache
  refine { hshape with
    isCpu := ?_, cpu_mask := ?_, cpu_kids := ?_, caches := ?_, linked_caches := ?_, packages := ?_,
    linked_packages := ?_, node_kids := ?_, node_parent := ?_, package_parent := ?_ }
  · rintro k (rfl | hk)
    · exact hcpu.relink e
    · exact hshape.isCpu k hk
  · rw [masks_of_unlinked e]
    rintro k (rfl | hk)
    · exact hmask
    · exact h.cpu_mask k hk
  · rintro k (rfl | hk)
    · rw [linkChild_kids_of_ne (hcpu.ne hkind (by decide)), hkids]
    · rw [linkChild_kids_of_ne ((h.isCpu k hk).ne hkind (by decide)), h.cpu_kids k hk]
  · rw [cacheDomains_of_unlinked e]
    exact State.Layer.link h.caches hcache
  · intro c hc
    rw [cacheDomains_of_unlinked e]
    exact h.linked_caches c hc
  · rw [packages_of_unlinked e]
    refine State.Layer.link_elsewhere h.packages (fun p hp => ?_) fun c hc => ?_
    · exact (h.isPackage p hp).ne hkind (by decide)
    · exact (h.isCache c (h.linked_caches c hc)).ne hcpu (by decide)
  · intro p hp
    rw [packages_of_unlinked e]
    exact h.linked_packages p hp
  · rw [linkChild_kids_of_ne (h.ne_node hkind (by decide)).symm, h.node_kids]
  · rw [linkChild_parents_of_ne (h.ne_node hcpu (by decide)).symm, h.node_parent]
  · rw [packages_of_unlinked e]
    intro p hp
    rw [linkChild_parents_of_ne ((h.isPackage p hp).ne hcpu (by decide)), h.package_parent p hp]

/-- Link a cache domain to a package. -/
theorem TreeInv.linkCache (h : TreeInv link₁ link₂ K C Q s) {package cache : ObjId}
    (hpackage : package ∈ s.packages) (hcache : cache ∈ s.cacheDomains) :
    TreeInv link₁ (fun c m => link₂ c m ∨ c = cache ∧ m = s.masks package) K (insert cache C) Q
      (linkChild package cache s) := by
  have e := linkChild_unlinked package cache s
  have hshape : TreeShape K (linkChild package cache s) := h.toTreeShape.relink e
  have hkind := h.isPackage package hpackage
  have hckind := h.isCache cache hcache
  refine { hshape with
    cpu_kids := ?_, caches := ?_, linked_caches := ?_, packages := ?_,
    linked_packages := ?_, node_kids := ?_, node_parent := ?_, package_parent := ?_ }
  · intro k hk
    rw [linkChild_kids_of_ne ((h.isCpu k hk).ne hkind (by decide)), h.cpu_kids k hk]
  · rw [cacheDomains_of_unlinked e]
    refine State.Layer.link_elsewhere h.caches (fun c hc => ?_) fun k hk => ?_
    · exact (h.isCache c hc).ne hkind (by decide)
    · exact (h.isCpu k hk).ne hckind (by decide)
  · rw [cacheDomains_of_unlinked e]
    rintro c (rfl | hc)
    · exact hcache
    · exact h.linked_caches c hc
  · rw [packages_of_unlinked e]
    exact State.Layer.link h.packages hpackage
  · rw [packages_of_unlinked e]
    exact h.linked_packages
  · rw [linkChild_kids_of_ne (h.ne_node hkind (by decide)).symm, h.node_kids]
  · rw [linkChild_parents_of_ne (h.ne_node hckind (by decide)).symm, h.node_parent]
  · rw [packages_of_unlinked e]
    intro p hp
    rw [linkChild_parents_of_ne ((h.isPackage p hp).ne hckind (by decide)), h.package_parent p hp]

/-- `add_package_to_node` links the package to the only node. -/
theorem TreeInv.addPackageToNode_eq (h : TreeInv link₁ link₂ K C Q s) (hp : p ∈ s.packages)
    (nodeid : ℤ) : addPackageToNode p nodeid s = linkChild unspecifiedNode p s := by
  have hnode : getNumaNode s nodeid = some unspecifiedNode := by simp [getNumaNode, h.numaAvail]
  have hparent : (s.objs p).parent = if p ∈ Q then some unspecifiedNode else none :=
    h.package_parent p hp
  have hkids : (s.objs unspecifiedNode).children = Q := h.node_kids
  unfold addPackageToNode linkChild
  rw [hnode, hkids]
  by_cases hq : p ∈ Q
  · simp [hparent, hq]
  · simp [hparent, hq]

/-- Link a package to the node. -/
theorem TreeInv.linkPackage (h : TreeInv link₁ link₂ K C Q s) (hp : p ∈ s.packages) :
    TreeInv link₁ link₂ K C (if p ∈ Q then Q else Q ++ [p]) (linkChild unspecifiedNode p s) := by
  by_cases hq : p ∈ Q
  · rw [if_pos hq, linkChild_old (by rw [h.node_kids]; exact hq)]
    exact h
  rw [if_neg hq]
  have hq' : p ∉ s.kids unspecifiedNode := by rw [h.node_kids]; exact hq
  have e := linkChild_unlinked unspecifiedNode p s
  have hshape : TreeShape K (linkChild unspecifiedNode p s) := h.toTreeShape.relink e
  have hkind := h.isPackage p hp
  refine { hshape with
    cpu_kids := ?_, caches := ?_, linked_caches := ?_, packages := ?_,
    linked_packages := ?_, node_kids := ?_, node_parent := ?_, package_parent := ?_ }
  · intro k hk
    rw [linkChild_kids_of_ne (h.ne_node (h.isCpu k hk) (by decide)), h.cpu_kids k hk]
  · rw [cacheDomains_of_unlinked e]
    refine State.Layer.link_elsewhere h.caches (fun c hc => ?_) fun k hk => ?_
    · exact h.ne_node (h.isCache c hc) (by decide)
    · exact (h.isCpu k hk).ne hkind (by decide)
  · rw [cacheDomains_of_unlinked e]
    exact h.linked_caches
  · rw [packages_of_unlinked e]
    refine State.Layer.link_elsewhere h.packages (fun p hp => ?_) fun c hc => ?_
    · exact h.ne_node (h.isPackage p hp) (by decide)
    · exact (h.isCache c (h.linked_caches c hc)).ne hkind (by decide)
  · rw [packages_of_unlinked e]
    intro q hq
    rcases List.mem_append.1 hq with hq | hq
    · exact h.linked_packages q hq
    · rw [List.mem_singleton.1 hq]; exact hp
  · rw [linkChild_kids hq', Function.update_self, h.node_kids]
  · rw [linkChild_parents_of_ne (h.ne_node hkind (by decide)).symm, h.node_parent]
  · rw [packages_of_unlinked e, linkChild_parents hq']
    intro q hqp
    by_cases hne : q = p
    · rw [hne, Function.update_self, if_pos (by simp)]
    · rw [Function.update_of_ne hne, h.package_parent q hqp]
      simp [hne]

/-! ### One cpu -/

/-- The key of the cache domain that a cpu directory asks for. -/
def State.cacheKey (s : State) (d : CpuDir) : Cpumask :=
  d.sharedCpuMask s.opts.deepestCache &&& s.unbannedCpus

/-- The key of the package that a cpu directory asks for. -/
def State.packageKey (s : State) (d : CpuDir) : Cpumask := d.coreSiblingsMask &&& s.unbannedCpus

/-- A directory that has been added, with its cpu and the cache domain of the cpu. -/
structure Added where
  dir : CpuDir
  cpu : ObjId
  cache : ObjId

/-- The requests for cache domains. -/
def cpuLinks (s : State) (G : List Added) (k : ObjId) (m : Cpumask) : Prop :=
  ∃ g ∈ G, k = g.cpu ∧ m = s.cacheKey g.dir

/-- The requests for packages. -/
def cacheLinks (s : State) (G : List Added) (c : ObjId) (m : Cpumask) : Prop :=
  ∃ g ∈ G, c = g.cache ∧ m = s.packageKey g.dir

/-- The tree after the directories of `G` have been added. -/
structure TreeOf (G : List Added) (s : State) : Prop where
  cpus_eq : s.cpus = G.map Added.cpu
  cpus_nodup : s.cpus.Nodup
  cpu_data : ∀ g ∈ G, (s.objs g.cpu).number = g.dir.number ∧ s.masks g.cpu = g.dir.mask
  cache_mem : ∀ g ∈ G, g.cache ∈ s.cacheDomains ∧ s.masks g.cache = s.cacheKey g.dir
  cache_used : ∀ c ∈ s.cacheDomains, ∃ g ∈ G, s.masks c = s.cacheKey g.dir
  package_used : ∀ p ∈ s.packages, ∃ g ∈ G, s.masks p = s.packageKey g.dir
  inv : TreeInv (cpuLinks s G) (cacheLinks s G) {k | k ∈ s.cpus} {c | c ∈ s.cacheDomains} s.packages s

theorem blanked (m b : Cpumask) : m &&& ~~~b &&& b = 0 := by
  rw [BitVec.and_assoc, BitVec.not_and_self]
  exact BitVec.and_zero

theorem cpumaskOfCpu_ne_zero {n : ℕ} (h : n < nrCpus) : cpumaskOfCpu n ≠ 0 := by
  intro e
  have hbit : (cpumaskOfCpu n).getLsbD n = true := by
    rw [cpumaskOfCpu, BitVec.getLsbD_ofNat, Nat.testBit_two_pow_self, Bool.and_true]
    exact decide_eq_true h
  rw [e] at hbit
  simp at hbit

theorem setOf_mem_insert_new {l l' : List ObjId} {x : ObjId}
    (h : l' = if x ∈ l then l else l ++ [x]) : {c | c ∈ l'} = insert x {c | c ∈ l} := by
  rw [h]
  split_ifs with hx
  · exact (Set.insert_eq_of_mem (s := {c | c ∈ l}) hx).symm
  · exact setOf_mem_concat l x

/-- After one more directory each object of a layer still has a directory that asks for its mask. -/
theorem used_concat {l l' : List ObjId} {x : ObjId} {key : CpuDir → Cpumask} {G : List Added} {g : Added}
    {s' : State} (h : l' = if x ∈ l then l else l ++ [x]) (hused : ∀ o ∈ l, ∃ g ∈ G, s.masks o = key g.dir)
    (hold : ∀ o ∈ l, s'.masks o = s.masks o) (hnew : s'.masks x = key g.dir) :
    ∀ o ∈ l', ∃ g' ∈ G ++ [g], s'.masks o = key g'.dir := by
  intro o ho
  have hmem : o ∈ {c | c ∈ l'} := ho
  rw [setOf_mem_insert_new h] at hmem
  rcases hmem with rfl | hmem
  · exact ⟨g, List.mem_append_right _ List.mem_cons_self, hnew⟩
  · obtain ⟨g', hg', hkey⟩ := hused o hmem
    exact ⟨g', List.mem_append_left _ hg', (hold o hmem).trans hkey⟩

/-- Relinking after a search. -/
theorem Found.relink {list : State → List ObjId} {mask : Cpumask} {s' s'' : State}
    (h : Found s list mask o s') (e : s''.unlinked = s'.unlinked)
    (hlist : ∀ u u' : State, u'.unlinked = u.unlinked → list u' = list u) :
    Found s list mask o s'' where
  list_eq := by rw [hlist _ _ e, h.list_eq]
  mask := by rw [masks_of_unlinked e, h.mask]
  grows := h.grows.trans (grows_of_unlinked e) h.nextObj
  nextObj := by rw [nextObj_of_unlinked e]; exact h.nextObj

/-- `add_cpu_to_cache_domain` for a new cpu. -/
theorem TreeInv.cpu_added (h : TreeInv link₁ link₂ K C Q s) (mask : Cpumask) (cpu : ObjId)
    (hm : mask &&& s.bannedCpus = 0) (hcpu : s.IsKind .cpu cpu) (hmask : s.masks cpu ≠ 0)
    (hkids : s.kids cpu = []) :
    ∃ cache s', addCpuToCacheDomain cpu mask s = (cache, s') ∧
      TreeInv (fun k m => link₁ k m ∨ k = cpu ∧ m = mask) link₂ (insert cpu K) C Q s' ∧
      Found s State.cacheDomains mask cache s' ∧ s'.packages = s.packages := by
  obtain ⟨h', hf, hobjs, hpackages⟩ := h.cache_found hm
  have hobj := hobjs cpu hcpu.lt
  have hlink := h'.linkCpu hf.mem (hf.grows.isKind _ _ hcpu) (by rw [State.masks, hobj]; exact hmask)
    (by rw [State.kids, hobj]; exact hkids)
  rw [hf.mask] at hlink
  have e := linkChild_unlinked (findCacheDomain mask s).1 cpu (findCacheDomain mask s).2
  exact ⟨_, _, rfl, hlink, hf.relink e fun _ _ => cacheDomains_of_unlinked,
    (packages_of_unlinked e).trans hpackages⟩

/-- `add_cache_domain_to_package` and `add_package_to_node`. -/
theorem TreeInv.cache_added (h : TreeInv link₁ link₂ K C s.packages s) (mask : Cpumask)
    {cache : ObjId} (packageid nodeid : ℤ) (hm : mask &&& s.bannedCpus = 0)
    (hcache : cache ∈ s.cacheDomains) :
    ∃ package s', addCacheDomainToPackage cache packageid mask s = (package, s') ∧
      TreeInv link₁ (fun c m => link₂ c m ∨ c = cache ∧ m = mask) K (insert cache C)
        (addPackageToNode package nodeid s').packages (addPackageToNode package nodeid s') ∧
      Found s State.packages mask package (addPackageToNode package nodeid s') ∧
      (addPackageToNode package nodeid s').cacheDomains = s.cacheDomains := by
  obtain ⟨h', hf, hcaches⟩ := h.package_found packageid hm
  have hlink := h'.linkCache hf.mem (by rw [hcaches]; exact hcache)
  rw [hf.mask] at hlink
  have e := linkChild_unlinked (findPackage packageid mask s).1 cache (findPackage packageid mask s).2
  have hf' := hf.relink e fun _ _ => packages_of_unlinked
  set s' := linkChild (findPackage packageid mask s).1 cache (findPackage packageid mask s).2
  have e' := linkChild_unlinked unspecifiedNode (findPackage packageid mask s).1 s'
  refine ⟨_, s', rfl, ?_⟩
  rw [hlink.addPackageToNode_eq hf'.mem nodeid]
  refine ⟨?_, hf'.relink e' fun _ _ => packages_of_unlinked, ?_⟩
  · rw [packages_of_unlinked e', hf'.list_eq]
    exact hlink.linkPackage hf'.mem
  · rw [cacheDomains_of_unlinked e', cacheDomains_of_unlinked e, hcaches]

/-- The list of cpus does not take part in the tree. -/
theorem TreeInv.setCpus (h : TreeInv link₁ link₂ K C Q s) (l : List ObjId) (n : ℕ) :
    TreeInv link₁ link₂ K C Q { s with cpus := l, coreCount := n } :=
  { h with
    isPackage := fun p hp => (h.isPackage p hp).congr rfl rfl rfl
    isCache := fun c hc => (h.isCache c hc).congr rfl rfl rfl
    isCpu := fun k hk => (h.isCpu k hk).congr rfl rfl rfl }

/-- The links after one more directory, with the keys taken from the state before. -/
theorem cpuLinks_concat (G : List Added) (d : CpuDir) (k c : ObjId) :
    cpuLinks s (G ++ [⟨d, k, c⟩]) = fun k' m => cpuLinks s G k' m ∨ k' = k ∧ m = s.cacheKey d := by
  funext k' m
  simp [cpuLinks, or_and_right, exists_or]

theorem cacheLinks_concat (G : List Added) (d : CpuDir) (k c : ObjId) :
    cacheLinks s (G ++ [⟨d, k, c⟩]) =
      fun c' m => cacheLinks s G c' m ∨ c' = c ∧ m = s.packageKey d := by
  funext c' m
  simp [cacheLinks, or_and_right, exists_or]

theorem Grows.cacheKey {s' : State} (h : Grows s s') : s'.cacheKey = s.cacheKey := by
  funext d
  rw [State.cacheKey, State.cacheKey, h.opts, h.unbannedCpus]

theorem Grows.packageKey {s' : State} (h : Grows s s') : s'.packageKey = s.packageKey := by
  funext d
  rw [State.packageKey, State.packageKey, h.unbannedCpus]

theorem Grows.cpuLinks {s' : State} (h : Grows s s') : cpuLinks s' = cpuLinks s := by
  funext G k m
  rw [IrqBalance.cpuLinks, IrqBalance.cpuLinks, h.cacheKey]

theorem Grows.cacheLinks {s' : State} (h : Grows s s') : cacheLinks s' = cacheLinks s := by
  funext G k m
  rw [IrqBalance.cacheLinks, IrqBalance.cacheLinks, h.packageKey]

/-- The cpu that `do_one_cpu` allocates. -/
def CpuDir.cpu (d : CpuDir) : TopoObj := { objType := .cpu, number := d.number, mask := d.mask }

theorem addCpu_eq {d : CpuDir} {c : ObjId} {s₂ s₃ : State}
    (e₂ : addCpuToCacheDomain s.nextObj (s.cacheKey d) (s.callocObj d.cpu) = (c, s₂))
    (e₃ : addCacheDomainToPackage c d.packageId (s.packageKey d) s₂ = (p, s₃)) :
    addCpu d s =
      let s₄ := addPackageToNode p (d.nodeid s.opts.numaAvail) s₃
      { s₄ with cpus := s₄.cpus ++ [s.nextObj], coreCount := s₄.coreCount + 1 } := by
  have hdef : addCpu d s =
      let cs := addCpuToCacheDomain s.nextObj (s.cacheKey d) (s.callocObj d.cpu)
      let ps := addCacheDomainToPackage cs.1 d.packageId (s.packageKey d) cs.2
      let s₄ := addPackageToNode ps.1 (d.nodeid s.opts.numaAvail) ps.2
      { s₄ with cpus := s₄.cpus ++ [s.nextObj], coreCount := s₄.coreCount + 1 } := rfl
  rw [hdef, e₂]
  dsimp only
  rw [e₃]

/-- **Adding a cpu keeps the tree.** -/
theorem TreeOf.add {G : List Added} (h : TreeOf G s) {d : CpuDir} (hnum : d.number.toNat < nrCpus)
    (hban : d.mask &&& s.bannedCpus = 0) :
    ∃ c, TreeOf (G ++ [⟨d, s.nextObj, c⟩]) (addCpu d s) ∧ (addCpu d s).opts = s.opts ∧
      (addCpu d s).bannedCpus = s.bannedCpus ∧ (addCpu d s).coreCount = s.coreCount + 1 := by
  have hblank : ∀ m, m &&& s.unbannedCpus &&& s.bannedCpus = 0 := by
    intro m; rw [h.inv.unbanned]; exact blanked m s.bannedCpus
  -- the new cpu
  obtain ⟨s₁, hs₁⟩ : ∃ s₁, s₁ = s.callocObj d.cpu := ⟨_, rfl⟩
  have g₁ : Grows s s₁ := hs₁ ▸ grows_calloc s _
  have h₁ : TreeInv (cpuLinks s G) (cacheLinks s G) _ _ _ s₁ := hs₁ ▸ h.inv.calloc _
  have hkind : s₁.IsKind .cpu s.nextObj := hs₁ ▸ isKind_calloc_self rfl hban rfl rfl
  have hnext : s.nextObj ≤ s₁.nextObj := by rw [hs₁]; exact Nat.le_succ _
  have hobj : s₁.objs s.nextObj = d.cpu := by rw [hs₁]; exact callocObj_objs_self
  -- its cache domain
  obtain ⟨c, s₂, e₂, h₂, f₂, p₂⟩ := h₁.cpu_added (s.cacheKey d) s.nextObj
    (by rw [g₁.bannedCpus]; exact hblank _) hkind
    (by rw [State.masks, hobj]; exact cpumaskOfCpu_ne_zero hnum) (by rw [State.kids, hobj]; rfl)
  have g₂ : Grows s s₂ := g₁.trans f₂.grows hnext
  have hpackages : s₂.packages = s.packages := by rw [p₂, hs₁]; rfl
  have hcaches : s₂.cacheDomains = if c ∈ s.cacheDomains then s.cacheDomains
      else s.cacheDomains ++ [c] := by
    rw [f₂.list_eq, hs₁]; rfl
  rw [← hpackages] at h₂
  -- its package and its node
  obtain ⟨p, s₃, e₃, h₃, f₃, c₃⟩ := h₂.cache_added (s.packageKey d) d.packageId
    (d.nodeid s.opts.numaAvail) (by rw [g₂.bannedCpus]; exact hblank _) f₂.mem
  set s₄ := addPackageToNode p (d.nodeid s.opts.numaAvail) s₃
  have hnext₂ : s.nextObj ≤ s₂.nextObj := Nat.le_trans hnext f₂.nextObj
  have g₄ : Grows s s₄ := g₂.trans f₃.grows hnext₂
  have hadd : addCpu d s = { s₄ with
      cpus := s₄.cpus ++ [s.nextObj], coreCount := s₄.coreCount + 1 } :=
    addCpu_eq (hs₁ ▸ e₂) e₃
  have hset := setOf_mem_insert_new hcaches
  have hcpus : s₄.cpus ++ [s.nextObj] = s.cpus ++ [s.nextObj] := by rw [g₄.cpus]
  have hfresh : s.nextObj ∉ s.cpus := fun hk => Nat.lt_irrefl _ (h.inv.isCpu _ hk).lt
  have hmask₄ : s₄.masks c = s.cacheKey d := by
    rw [f₃.grows.masks c (h₂.isCache c f₂.mem).lt, f₂.mask]
  rw [← hset, ← c₃, ← setOf_mem_concat, ← hcpus, ← cpuLinks_concat G d s.nextObj c,
    ← cacheLinks_concat G d s.nextObj c, ← g₄.cpuLinks, ← g₄.cacheLinks] at h₃
  have hpackages₄ : s₄.packages = if p ∈ s.packages then s.packages else s.packages ++ [p] := by
    rw [f₃.list_eq, hpackages]
  refine ⟨c, ?_⟩
  rw [hadd]
  refine ⟨⟨?_, ?_, ?_, ?_, ?_, ?_, h₃.setCpus _ _⟩, g₄.opts, g₄.bannedCpus, ?_⟩
  · change s₄.cpus ++ [s.nextObj] = _
    rw [hcpus, h.cpus_eq, List.map_append]
    rfl
  · change (s₄.cpus ++ [s.nextObj]).Nodup
    rw [hcpus]
    exact nodup_concat h.cpus_nodup hfresh
  · intro g hg
    change (s₄.objs g.cpu).number = g.dir.number ∧ s₄.masks g.cpu = g.dir.mask
    rcases List.mem_append.1 hg with hg | hg
    · have hlt := (h.inv.isCpu g.cpu (h.cpus_eq ▸ List.mem_map_of_mem hg)).lt
      rw [g₄.numbers _ hlt, g₄.masks _ hlt]
      exact h.cpu_data g hg
    · have g₅ : Grows s₁ s₄ := f₂.grows.trans f₃.grows f₂.nextObj
      rw [List.mem_singleton.1 hg, g₅.numbers _ hkind.lt, g₅.masks _ hkind.lt, State.masks, hobj]
      exact ⟨by rw [CpuDir.cpu], by rw [CpuDir.cpu]⟩
  · intro g hg
    change g.cache ∈ s₄.cacheDomains ∧ s₄.masks g.cache = s₄.cacheKey g.dir
    rw [g₄.cacheKey]
    rcases List.mem_append.1 hg with hg | hg
    · obtain ⟨hmem, hmask⟩ := h.cache_mem g hg
      exact ⟨g₄.caches _ hmem, by rw [g₄.masks _ (h.inv.isCache _ hmem).lt, hmask]⟩
    · rw [List.mem_singleton.1 hg]
      exact ⟨by rw [c₃]; exact f₂.mem, hmask₄⟩
  · change ∀ c' ∈ s₄.cacheDomains, ∃ g ∈ G ++ [(⟨d, s.nextObj, c⟩ : Added)], s₄.masks c' = s₄.cacheKey g.dir
    rw [g₄.cacheKey]
    exact used_concat (c₃.trans hcaches) h.cache_used (fun c' hc' => g₄.masks _ (h.inv.isCache c' hc').lt) hmask₄
  · change ∀ p' ∈ s₄.packages, ∃ g ∈ G ++ [(⟨d, s.nextObj, c⟩ : Added)], s₄.masks p' = s₄.packageKey g.dir
    rw [g₄.packageKey]
    exact used_concat hpackages₄ h.package_used (fun p' hp' => g₄.masks _ (h.inv.isPackage p' hp').lt) f₃.mask
  · exact congrArg (· + 1) g₄.coreCount

/-! ### All cpus -/

/-- The directory gets a cpu object: it is neither offline nor banned. -/
def CpuDir.isAdded (banned : Cpumask) (d : CpuDir) : Bool :=
  d.isOnline && !cpusIntersects d.mask banned

theorem TreeOf.step {G : List Added} (h : TreeOf G s) {d : CpuDir} {s' : State}
    (hd : doOneCpu d s = some s') :
    s'.opts = s.opts ∧ s'.bannedCpus = s.bannedCpus ∧
      s'.coreCount = s.coreCount + (if d.isOnline then 1 else 0) ∧
      if d.isAdded s.bannedCpus then ∃ k c, TreeOf (G ++ [⟨d, k, c⟩]) s' else TreeOf G s' := by
  unfold doOneCpu at hd
  by_cases hon : d.isOnline
  · simp only [hon, Bool.not_true, Bool.false_eq_true, if_false] at hd
    split_ifs at hd with hrange hban
    · cases hd
      simp only [CpuDir.isAdded, hon, hban, Bool.not_true, Bool.and_false, Bool.false_eq_true,
        if_false, if_true]
      exact ⟨trivial, trivial, trivial, h.cpus_eq, h.cpus_nodup, h.cpu_data, h.cache_mem,
        h.cache_used, h.package_used, h.inv.setCpus _ _⟩
    · cases hd
      have hmask : d.mask &&& s.bannedCpus = 0 := by simpa [cpusIntersects] using hban
      obtain ⟨c, htree, hopts, hbanned, hcount⟩ := h.add (by omega) hmask
      simp only [CpuDir.isAdded, hon, hban, Bool.not_false, Bool.and_true, if_true]
      exact ⟨hopts, hbanned, hcount, _, c, htree⟩
  · simp only [hon, Bool.not_false, if_true, Option.some.injEq] at hd
    subst hd
    simpa [CpuDir.isAdded, hon] using h

/-- **Any sequence of directories leaves a tree.** -/
theorem TreeOf.fold (ds : List CpuDir) {G : List Added} (h : TreeOf G s) {s' : State}
    (hf : ds.foldlM (fun s d => doOneCpu d s) s = some s') :
    s'.opts = s.opts ∧ s'.bannedCpus = s.bannedCpus ∧
      s'.coreCount = s.coreCount + ds.countP CpuDir.isOnline ∧
      ∃ G', G'.map Added.dir = G.map Added.dir ++ ds.filter (CpuDir.isAdded s.bannedCpus) ∧
        TreeOf G' s' := by
  induction ds generalizing G s with
  | nil => cases hf; exact ⟨rfl, rfl, rfl, G, by simp, h⟩
  | cons d ds ih =>
    rw [List.foldlM_cons] at hf
    obtain ⟨u, hu, hf⟩ := Option.bind_eq_some_iff.1 hf
    obtain ⟨hopts, hbanned, hcount, htree⟩ := h.step hu
    have hsum : ∀ n, n = u.coreCount + ds.countP CpuDir.isOnline →
        n = s.coreCount + (d :: ds).countP CpuDir.isOnline := by
      rintro n rfl
      rw [hcount, List.countP_cons]
      omega
    split_ifs at htree with hadd
    · obtain ⟨k, c, htree⟩ := htree
      obtain ⟨hopts', hbanned', hcount', G', hG', htree'⟩ := ih htree hf
      refine ⟨hopts'.trans hopts, hbanned'.trans hbanned, hsum _ hcount', G', ?_, htree'⟩
      rw [hG', hbanned]
      simp [hadd]
    · obtain ⟨hopts', hbanned', hcount', G', hG', htree'⟩ := ih htree hf
      refine ⟨hopts'.trans hopts, hbanned'.trans hbanned, hsum _ hcount', G', ?_, htree'⟩
      rw [hG', hbanned]
      simp [hadd]

/-- There is no tree: the state before `build_object_tree`. -/
structure State.Treeless (s : State) : Prop where
  numaAvail : s.opts.numaAvail = false
  node_lt : unspecifiedNode < s.nextObj
  numaNodes : s.numaNodes = []
  packages : s.packages = []
  cacheDomains : s.cacheDomains = []
  cpus : s.cpus = []

theorem layer_nil (h : ∀ k m, ¬link₁ k m) :
    s.Layer {c | c ∈ ([] : List ObjId)} {k | k ∈ ([] : List ObjId)} link₁ := by
  have hempty : {c | c ∈ ([] : List ObjId)} = (∅ : Set ObjId) := by simp
  rw [hempty]
  exact IsLayer.congr (Layers.isLayer_empty s.masks s.kids s.parents) (fun _ _ => rfl)
    (fun _ _ => rfl) (fun _ _ => rfl) fun k m => iff_of_false (h k m) id

/-- The node alone is a tree. -/
theorem treeOf_node (hnuma : s.opts.numaAvail = false) (hunbanned : s.unbannedCpus = ~~~s.bannedCpus)
    (hnodes : s.numaNodes = [unspecifiedNode]) (hlt : unspecifiedNode < s.nextObj)
    (hnode : s.objs unspecifiedNode = unspecifiedNodeTemplate) (hpackages : s.packages = [])
    (hcaches : s.cacheDomains = []) (hcpus : s.cpus = []) : TreeOf [] s := by
  refine ⟨hcpus, by simp [hcpus], by simp, by simp, by simp [hcaches], by simp [hpackages], ?_⟩
  constructor
  · constructor
    all_goals first | assumption | simp [hnode, unspecifiedNodeTemplate, hpackages, hcaches, hcpus]
  · simp [hcpus]
  · rw [hcaches, hcpus]; exact layer_nil (by simp [cpuLinks])
  · simp
  · rw [hcaches, hpackages]; exact layer_nil (by simp [cacheLinks])
  · simp
  · rw [State.kids, hnode, hpackages]; rfl
  · rw [State.parents, hnode]; rfl
  · simp [hpackages]

/-- The directories of `/sys/devices/system/cpu` that get a cpu object. -/
def CpuSysfs.added (fs : CpuSysfs) : List CpuDir :=
  ((fs.cpuDir.getD []).filter isCpuDir).filter (CpuDir.isAdded (setupBannedCpus fs))

/-- The number of cpus that are not offline, banned or not. -/
def CpuSysfs.onlineCount (fs : CpuSysfs) : ℕ :=
  ((fs.cpuDir.getD []).filter isCpuDir).countP CpuDir.isOnline

/-- **`parse_cpu_tree` leaves a tree of the directories that get a cpu.** -/
theorem State.Treeless.parseCpuTree (h : s.Treeless) {dir : Option (List NodeDir)} {fs : CpuSysfs}
    {s' : State} (hp : parseCpuTree fs (buildNumaNodeList dir s) = some s') :
    s'.opts = s.opts ∧ s'.bannedCpus = setupBannedCpus fs ∧
      s'.coreCount = s.coreCount + fs.onlineCount ∧
      ∃ G, G.map Added.dir = fs.added ∧ TreeOf G s' := by
  obtain ⟨hnuma, hlt, hnodes, hpackages, hcaches, hcpus⟩ := h
  have hbuild : buildNumaNodeList dir s =
      { s.modObj unspecifiedNode fun _ => unspecifiedNodeTemplate with
        numaNodes := [unspecifiedNode] } := by
    simp [buildNumaNodeList, State.modObj, hnuma, hnodes]
  rw [hbuild] at hp
  have hnode : ((s.modObj unspecifiedNode fun _ => unspecifiedNodeTemplate).objs unspecifiedNode) =
      unspecifiedNodeTemplate := State.modObj_objs_self ..
  unfold IrqBalance.parseCpuTree at hp
  dsimp only at hp
  split at hp
  · next hdir =>
    cases hp
    refine ⟨rfl, rfl, by simp [CpuSysfs.onlineCount, hdir, State.modObj], [], by simp [CpuSysfs.added, hdir], ?_⟩
    exact treeOf_node hnuma rfl rfl hlt hnode hpackages hcaches hcpus
  · next dirs hdir =>
    obtain ⟨hopts, hbanned, hcount, G, hG, htree⟩ := TreeOf.fold _
      (by exact treeOf_node hnuma rfl rfl hlt hnode hpackages hcaches hcpus) hp
    exact ⟨hopts, hbanned, by simpa [CpuSysfs.onlineCount, hdir, State.modObj] using hcount, G,
      by simpa [CpuSysfs.added, hdir] using hG, htree⟩

end IrqBalance

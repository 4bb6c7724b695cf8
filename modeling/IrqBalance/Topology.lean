import IrqBalance.Frame
import IrqBalance.Tree

/-!
# The object tree during a run

`TopoWf` is what the statements of the main loop rely on. It speaks about the fields that are fixed
when the tree is built (`State.static`), so that every later statement keeps it.

`forest_iff` says when the tree is one: a cache domain whose cpus report different packages ends up in
the lists of several packages.
-/

namespace IrqBalance

open Layers (IsForest)

/-- An object of the given kind, whose mask has no banned cpu. -/
structure State.IsObj (s : State) (t : ObjType) (o : ObjId) : Prop where
  lt : o < s.nextObj
  objType : (s.objs o).objType = t
  banned : (s.objs o).mask &&& s.bannedCpus = 0

/-- The object tree is well formed. -/
structure TopoWf (s : State) : Prop where
  numaAvail : s.opts.numaAvail = false
  unbanned : s.unbannedCpus = ~~~s.bannedCpus
  numaNodes : s.numaNodes = [unspecifiedNode]
  node_lt : unspecifiedNode < s.nextObj
  nodeType : (s.objs unspecifiedNode).objType = .node
  nodeNumber : (s.objs unspecifiedNode).number = -1
  nodeMask : (s.objs unspecifiedNode).mask = cpuMaskAll
  packages_nodup : s.packages.Nodup
  caches_nodup : s.cacheDomains.Nodup
  cpus_nodup : s.cpus.Nodup
  isPackage : ∀ p ∈ s.packages, s.IsObj .package p
  isCache : ∀ c ∈ s.cacheDomains, s.IsObj .cache c
  isCpu : ∀ k ∈ s.cpus, s.IsObj .cpu k
  cpu_mask : ∀ k ∈ s.cpus, s.masks k ≠ 0
  node_kids : s.kids unspecifiedNode = s.packages
  node_parent : s.parents unspecifiedNode = none
  package_kids : ∀ p ∈ s.packages, ∀ c ∈ s.kids p, c ∈ s.cacheDomains
  cache_kids : ∀ c ∈ s.cacheDomains, ∀ k ∈ s.kids c, k ∈ s.cpus
  cpu_kids : ∀ k ∈ s.cpus, s.kids k = []
  package_kid : ∀ p ∈ s.packages, s.kids p ≠ []
  cache_kid : ∀ c ∈ s.cacheDomains, s.kids c ≠ []
  in_cache : ∀ k ∈ s.cpus, ∃ c ∈ s.cacheDomains, s.parents k = some c ∧ k ∈ s.kids c
  in_package : ∀ c ∈ s.cacheDomains, ∃ p ∈ s.packages, s.parents c = some p ∧ c ∈ s.kids p
  package_parent : ∀ p ∈ s.packages, s.parents p = some unspecifiedNode

variable {s s' : State} {t t' : ObjType} {o p : ObjId}

theorem isObj_static : s.static.IsObj t o ↔ s.IsObj t o :=
  ⟨fun h => ⟨h.lt, h.objType, h.banned⟩, fun h => ⟨h.lt, h.objType, h.banned⟩⟩

theorem topoWf_static : TopoWf s.static ↔ TopoWf s :=
  ⟨fun h => { h with
      isPackage := fun p hp => isObj_static.1 (h.isPackage p hp)
      isCache := fun c hc => isObj_static.1 (h.isCache c hc)
      isCpu := fun k hk => isObj_static.1 (h.isCpu k hk) },
    fun h => { h with
      isPackage := fun p hp => isObj_static.2 (h.isPackage p hp)
      isCache := fun c hc => isObj_static.2 (h.isCache c hc)
      isCpu := fun k hk => isObj_static.2 (h.isCpu k hk) }⟩

/-- The tree depends on the static part of the state only. -/
theorem TopoWf.of_static (h : TopoWf s) (e : s'.static = s.static) : TopoWf s' := by
  rw [← topoWf_static, e, topoWf_static]
  exact h

theorem State.IsObj.ne (h : s.IsObj t o) (h' : s.IsObj t' p) (hne : t ≠ t') : o ≠ p := by
  rintro rfl
  exact hne (h.objType.symm.trans h'.objType)

theorem TopoWf.ne_node (h : TopoWf s) (ho : s.IsObj t o) (ht : t ≠ .node) : o ≠ unspecifiedNode := by
  rintro rfl
  exact ht (ho.objType.symm.trans h.nodeType)

theorem mem_topology (h : TopoWf s) : o ∈ s.topology ↔
    o = unspecifiedNode ∨ o ∈ s.packages ∨ o ∈ s.cacheDomains ∨ o ∈ s.cpus := by
  simp [State.topology, h.numaNodes]

theorem unspecifiedNode_mem_topology (h : TopoWf s) : unspecifiedNode ∈ s.topology :=
  (mem_topology h).2 (Or.inl rfl)

theorem TopoWf.topology_nodup (h : TopoWf s) : s.topology.Nodup := by
  have hpc : s.packages.Disjoint s.cacheDomains := fun o hp hc =>
    (h.isPackage o hp).ne (h.isCache o hc) (by decide) rfl
  have hpk : s.packages.Disjoint s.cpus := fun o hp hk =>
    (h.isPackage o hp).ne (h.isCpu o hk) (by decide) rfl
  have hck : s.cacheDomains.Disjoint s.cpus := fun o hc hk =>
    (h.isCache o hc).ne (h.isCpu o hk) (by decide) rfl
  have hn : unspecifiedNode ∉ s.packages ∧ unspecifiedNode ∉ s.cacheDomains ∧
      unspecifiedNode ∉ s.cpus :=
    ⟨fun hp => h.ne_node (h.isPackage _ hp) (by decide) rfl,
      fun hc => h.ne_node (h.isCache _ hc) (by decide) rfl,
      fun hk => h.ne_node (h.isCpu _ hk) (by decide) rfl⟩
  rw [State.topology, h.numaNodes, List.append_assoc, List.append_assoc, List.singleton_append,
    List.nodup_cons]
  refine ⟨by simp [hn], ?_⟩
  refine h.packages_nodup.append (h.caches_nodup.append h.cpus_nodup hck) ?_
  exact List.disjoint_append_right.2 ⟨hpc, hpk⟩

/-- The children of an object of the tree are objects of the tree. -/
theorem TopoWf.mem_topology_of_kid (h : TopoWf s) (ho : o ∈ s.topology) (hp : p ∈ s.kids o) :
    p ∈ s.topology := by
  rw [mem_topology h] at ho ⊢
  rcases ho with rfl | ho | ho | ho
  · rw [h.node_kids] at hp; exact Or.inr (Or.inl hp)
  · exact Or.inr (Or.inr (Or.inl (h.package_kids o ho p hp)))
  · exact Or.inr (Or.inr (Or.inr (h.cache_kids o ho p hp)))
  · rw [h.cpu_kids o ho] at hp; cases hp

/-- No object is its own child. -/
theorem TopoWf.kid_ne (h : TopoWf s) (ho : o ∈ s.topology) (hp : p ∈ s.kids o) : p ≠ o := by
  rcases (mem_topology h).1 ho with rfl | ho | ho | ho
  · rw [h.node_kids] at hp
    exact h.ne_node (h.isPackage p hp) (by decide)
  · exact (h.isCache p (h.package_kids o ho p hp)).ne (h.isPackage o ho) (by decide)
  · exact (h.isCpu p (h.cache_kids o ho p hp)).ne (h.isCache o ho) (by decide)
  · rw [h.cpu_kids o ho] at hp
    cases hp

/-- The node is nobody's child. -/
theorem TopoWf.kid_ne_node (h : TopoWf s) (ho : o ∈ s.topology) (hp : p ∈ s.kids o) :
    p ≠ unspecifiedNode := by
  rcases (mem_topology h).1 ho with rfl | ho | ho | ho
  · exact h.kid_ne (unspecifiedNode_mem_topology h) hp
  · exact h.ne_node (h.isCache p (h.package_kids o ho p hp)) (by decide)
  · exact h.ne_node (h.isCpu p (h.cache_kids o ho p hp)) (by decide)
  · rw [h.cpu_kids o ho] at hp
    cases hp

/-- Every object but the node is without banned cpus. -/
theorem TopoWf.banned (h : TopoWf s) (ho : o ∈ s.topology) (hne : o ≠ unspecifiedNode) :
    (s.objs o).mask &&& s.bannedCpus = 0 := by
  rcases (mem_topology h).1 ho with rfl | ho | ho | ho
  · exact absurd rfl hne
  · exact (h.isPackage o ho).banned
  · exact (h.isCache o ho).banned
  · exact (h.isCpu o ho).banned

/-! ### The tree that is built -/

theorem State.IsKind.isObj (h : s.IsKind t o) : s.IsObj t o := ⟨h.lt, h.objType, h.banned⟩

variable {G : List Added}

/-- Every container has an item. -/
theorem TreeOf.cache_kid (h : TreeOf G s) {c : ObjId} (hc : c ∈ s.cacheDomains) :
    ∃ k ∈ s.kids c, k ∈ s.cpus := by
  obtain ⟨g, hg, hkey⟩ := h.cache_used c hc
  have hk : g.cpu ∈ s.kids c := (h.inv.caches.mem_kids c hc g.cpu).2 ⟨g, hg, rfl, hkey⟩
  exact ⟨g.cpu, hk, h.cpus_eq ▸ List.mem_map_of_mem hg⟩

theorem TreeOf.package_kid (h : TreeOf G s) {p : ObjId} (hp : p ∈ s.packages) :
    ∃ c ∈ s.kids p, c ∈ s.cacheDomains := by
  obtain ⟨g, hg, hkey⟩ := h.package_used p hp
  have hc : g.cache ∈ s.kids p := (h.inv.packages.mem_kids p hp g.cache).2 ⟨g, hg, rfl, hkey⟩
  exact ⟨g.cache, hc, (h.cache_mem g hg).1⟩

theorem TreeOf.topoWf (h : TreeOf G s) : TopoWf s :=
  { h.inv.toTreeShape with
    cpus_nodup := h.cpus_nodup
    isPackage := fun p hp => (h.inv.isPackage p hp).isObj
    isCache := fun c hc => (h.inv.isCache c hc).isObj
    isCpu := fun k hk => (h.inv.isCpu k hk).isObj
    node_kids := h.inv.node_kids
    node_parent := h.inv.node_parent
    package_kids := fun p hp c hc => h.inv.packages.linked c _ ((h.inv.packages.mem_kids p hp c).1 hc)
    cache_kids := fun c hc k hk => h.inv.caches.linked k _ ((h.inv.caches.mem_kids c hc k).1 hk)
    cpu_kids := h.inv.cpu_kids
    package_kid := fun p hp => by
      obtain ⟨c, hc, -⟩ := h.package_kid hp
      exact List.ne_nil_of_mem hc
    cache_kid := fun c hc => by
      obtain ⟨k, hk, -⟩ := h.cache_kid hc
      exact List.ne_nil_of_mem hk
    in_cache := h.inv.caches.parent_mem
    in_package := h.inv.packages.parent_mem
    package_parent := fun p hp => by
      rw [h.inv.package_parent p hp, if_pos hp] }

/-- A new tree holds no irqs. -/
theorem TreeOf.interrupts (h : TreeOf G s) (ho : o ∈ s.topology) : (s.objs o).interrupts = [] := by
  rcases (mem_topology h.topoWf).1 ho with rfl | ho | ho | ho
  · exact h.inv.nodeInterrupts
  · exact (h.inv.isPackage o ho).interrupts
  · exact (h.inv.isCache o ho).interrupts
  · exact (h.inv.isCpu o ho).interrupts

/-- No object of a new tree sleeps. -/
theorem TreeOf.awake (h : TreeOf G s) (ho : o ∈ s.topology) : (s.objs o).powersaveMode = false := by
  rcases (mem_topology h.topoWf).1 ho with rfl | ho | ho | ho
  · exact h.inv.nodeAwake
  · exact (h.inv.isPackage o ho).awake
  · exact (h.inv.isCache o ho).awake
  · exact (h.inv.isCpu o ho).awake

/-! ### When the tree is a forest -/

/-- Every cpu, cache domain and package is in the children list of exactly one container, once, and
that is its parent. -/
def TopoForest (s : State) : Prop :=
  IsForest s.kids s.parents {c | c ∈ s.cacheDomains} {k | k ∈ s.cpus} ∧
    IsForest s.kids s.parents {p | p ∈ s.packages} {c | c ∈ s.cacheDomains} ∧
    IsForest s.kids s.parents {n | n ∈ s.numaNodes} {p | p ∈ s.packages}

instance (s : State) : Decidable (TopoForest s) :=
  decidable_of_iff
    ((∀ k ∈ s.cpus, ∃ c ∈ s.cacheDomains, s.parents k = some c ∧ k ∈ s.kids c ∧ (s.kids c).Nodup ∧
      ∀ q ∈ s.cacheDomains, k ∈ s.kids q → q = c) ∧
    (∀ c ∈ s.cacheDomains, ∃ p ∈ s.packages, s.parents c = some p ∧ c ∈ s.kids p ∧ (s.kids p).Nodup ∧
      ∀ q ∈ s.packages, c ∈ s.kids q → q = p) ∧
    ∀ p ∈ s.packages, ∃ n ∈ s.numaNodes, s.parents p = some n ∧ p ∈ s.kids n ∧ (s.kids n).Nodup ∧
      ∀ q ∈ s.numaNodes, p ∈ s.kids q → q = n)
    Iff.rfl

/-- A new cpu asks for one cache domain only. -/
theorem TreeOf.cpus_forest (h : TreeOf G s) :
    IsForest s.kids s.parents {c | c ∈ s.cacheDomains} {k | k ∈ s.cpus} := by
  apply h.inv.caches.forest_iff.2
  rintro k m m' ⟨g, hg, rfl, rfl⟩ ⟨g', hg', hk, rfl⟩
  have hnd : (G.map Added.cpu).Nodup := h.cpus_eq ▸ h.cpus_nodup
  rw [List.inj_on_of_nodup_map hnd hg hg' hk]

/-- The node holds every package, once. -/
theorem TreeOf.packages_forest (h : TreeOf G s) :
    IsForest s.kids s.parents {n | n ∈ s.numaNodes} {p | p ∈ s.packages} := by
  intro p hp
  have hp' : p ∈ s.packages := hp
  rw [h.inv.numaNodes]
  refine ⟨unspecifiedNode, by simp, ?_, ?_, ?_, fun q hq _ => by simpa using hq⟩
  · rw [h.inv.package_parent p hp', if_pos hp']
  · rw [h.inv.node_kids]; exact hp'
  · rw [h.inv.node_kids]; exact h.inv.packages_nodup

/-- The packages hold each cache domain once if and only if no two cpus of one cache domain report
different packages. -/
theorem TreeOf.isForest_iff (h : TreeOf G s) : TopoForest s ↔
    ∀ d ∈ G.map Added.dir, ∀ d' ∈ G.map Added.dir, s.cacheKey d = s.cacheKey d' →
      s.packageKey d = s.packageKey d' := by
  have hcaches : TopoForest s ↔
      IsForest s.kids s.parents {p | p ∈ s.packages} {c | c ∈ s.cacheDomains} :=
    ⟨fun hf => hf.2.1, fun hf => ⟨h.cpus_forest, hf, h.packages_forest⟩⟩
  rw [hcaches, h.inv.packages.forest_iff]
  constructor
  · intro hfun d hd d' hd' hkey
    obtain ⟨g, hg, rfl⟩ := List.mem_map.1 hd
    obtain ⟨g', hg', rfl⟩ := List.mem_map.1 hd'
    obtain ⟨hmem, hmask⟩ := h.cache_mem g hg
    obtain ⟨hmem', hmask'⟩ := h.cache_mem g' hg'
    have hcache : g.cache = g'.cache :=
      h.inv.caches.key_inj _ hmem _ hmem' (by rw [hmask, hmask', hkey])
    exact hfun g.cache _ _ ⟨g, hg, rfl, rfl⟩ ⟨g', hg', hcache, rfl⟩
  · rintro hkeys c m m' ⟨g, hg, rfl, rfl⟩ ⟨g', hg', hc, rfl⟩
    refine hkeys _ (List.mem_map_of_mem hg) _ (List.mem_map_of_mem hg') ?_
    rw [← (h.cache_mem g hg).2, ← (h.cache_mem g' hg').2, hc]

end IrqBalance

import IrqBalance.MainLoop

/-!
# When the topology is a forest

`add_package_to_node` links a package only if it has no parent yet. `add_cache_domain_to_package` has no
such test: when two cpus of one cache domain report different packages, it puts the cache domain into
the lists of both. `topoForest_iff` says that nothing else goes wrong.
-/

namespace IrqBalance

variable {s s' : State}

/-- `cache_mask` without the banned cpus. -/
def CpuSysfs.cacheMask (fs : CpuSysfs) (opts : Options) (d : CpuDir) : Cpumask :=
  d.sharedCpuMask opts.deepestCache &&& ~~~setupBannedCpus fs

/-- `package_mask` without the banned cpus. -/
def CpuSysfs.packageMask (fs : CpuSysfs) (d : CpuDir) : Cpumask :=
  d.coreSiblingsMask &&& ~~~setupBannedCpus fs

/-- Cpus with one cache domain have one package. -/
def CpuSysfs.Consistent (fs : CpuSysfs) (opts : Options) : Prop :=
  ∀ d ∈ fs.added, ∀ d' ∈ fs.added, fs.cacheMask opts d = fs.cacheMask opts d' →
    fs.packageMask d = fs.packageMask d'

/-- **`parse_cpu_tree` builds a forest if and only if cpus with one cache domain have one package.** -/
theorem topoForest_iff {pc : Pc} (h : Reach anyStep pc s) (hpc : pc = .start ∨ pc = .buildTree)
    {dir : Option (List NodeDir)} {fs : CpuSysfs}
    (hp : parseCpuTree fs (buildNumaNodeList dir s) = some s') :
    TopoForest s' ↔ fs.Consistent s.opts := by
  have hbare : Bare s := by
    rcases hpc with rfl | rfl <;> exact h.holds
  obtain ⟨hopts, hbanned, -, G, hdirs, htree⟩ := hbare.treeless.parseCpuTree hp
  have hcache : s'.cacheKey = fs.cacheMask s.opts := by
    funext d
    rw [State.cacheKey, CpuSysfs.cacheMask, hopts, htree.topoWf.unbanned, hbanned]
  have hpackage : s'.packageKey = fs.packageMask := by
    funext d
    rw [State.packageKey, CpuSysfs.packageMask, htree.topoWf.unbanned, hbanned]
  rw [htree.isForest_iff, hdirs, hcache, hpackage]
  rfl

theorem topoForest_iff_twoCpus : ∃ s',
    parseCpuTree twoCpus (buildNumaNodeList none (State.initial {} fun _ => 0)) = some s' ∧
    (TopoForest s' ↔ twoCpus.Consistent {}) := by
  have hsome : (parseCpuTree twoCpus (buildNumaNodeList none
      (State.initial {} fun _ => 0))).isSome = true := by decide +kernel
  obtain ⟨s', hp⟩ := Option.isSome_iff_exists.1 hsome
  exact ⟨s', hp, topoForest_iff (.init {} (fun _ => 0) rfl) (Or.inl rfl) hp⟩

/-- Two cpus with one cache domain, and no `core_siblings` for the second one. -/
def sharedCache : CpuSysfs where
  cpuDir := some
    [{ dName := "cpu0".toList, coreSiblings := some ['3'],
       sharedCpuMaps := [some ['1'], some ['3']] },
     { dName := "cpu1".toList, sharedCpuMaps := [some ['2'], some ['3']] }]

/-- The cache domain is in the lists of two packages. -/
theorem sharedCache_not_forest : ∃ s',
    parseCpuTree sharedCache (buildNumaNodeList none (State.initial {} fun _ => 0)) = some s' ∧
    ¬TopoForest s' := by
  have hrun : (parseCpuTree sharedCache (buildNumaNodeList none
      (State.initial {} fun _ => 0))).map (fun s => (s.cacheDomains, s.packages, s.kids 3, s.kids 5)) =
      some ([2], [3, 5], [2], [2]) := by
    decide +kernel
  obtain ⟨s', hp, e⟩ := Option.map_eq_some_iff.1 hrun
  simp only [Prod.mk.injEq] at e
  obtain ⟨hcaches, hpackages, h3, h5⟩ := e
  refine ⟨s', hp, fun ⟨_, hf, _⟩ => ?_⟩
  obtain ⟨p, -, -, -, -, huniq⟩ := hf 2 (by simp [hcaches])
  have e3 : 3 = p := huniq 3 (by simp [hpackages]) (by simp [h3])
  have e5 : 5 = p := huniq 5 (by simp [hpackages]) (by simp [h5])
  rw [← e5] at e3
  cases e3

end IrqBalance

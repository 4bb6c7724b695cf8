import IrqBalance.Forest

/-!
# The topology and the machine

What `parse_cpu_tree` leaves, compared with the directories it reads: one cpu object for each directory
of a cpu that is neither offline nor banned, in the order of the directories, filed under the cache
domain with its mask; no empty container; and a count of the online cpus, banned or not.
-/

namespace IrqBalance

variable {s s' : State} {d : CpuDir} {k : ObjId}

/-- The directories of the cpus that are neither offline nor banned. -/
def CpuSysfs.usable (fs : CpuSysfs) : List CpuDir :=
  ((fs.cpuDir.getD []).filter isCpuDir).filter fun d =>
    d.isOnline && !(setupBannedCpus fs).getLsbD d.number.toNat

/-- The object `k` stands for the cpu of the directory `d`: it has its number and its mask, and it is
in the list of one cache domain, once, the only one with the cache mask of the cpu. -/
structure CpuOf (fs : CpuSysfs) (opts : Options) (s : State) (d : CpuDir) (k : ObjId) : Prop where
  number : (s.objs k).number = d.number
  mask : s.masks k = d.mask
  cache : ∃ c ∈ s.cacheDomains, (s.kids c).count k = 1 ∧ s.masks c = fs.cacheMask opts d ∧
    (∀ c' ∈ s.cacheDomains, k ∈ s.kids c' → c' = c) ∧
    ∀ c' ∈ s.cacheDomains, s.masks c' = fs.cacheMask opts d → c' = c

/-- The topology is that of the machine. -/
structure TopologyFaithful (fs : CpuSysfs) (opts : Options) (s : State) : Prop where
  bannedCpus : s.bannedCpus = setupBannedCpus fs
  unbannedCpus : s.unbannedCpus = ~~~s.bannedCpus
  cpus_nodup : s.cpus.Nodup
  cpus : List.Forall₂ (CpuOf fs opts s) fs.usable s.cpus
  caches_differ : ∀ c ∈ s.cacheDomains, ∀ c' ∈ s.cacheDomains, s.masks c = s.masks c' → c = c'
  packages_differ : ∀ p ∈ s.packages, ∀ p' ∈ s.packages, s.masks p = s.masks p' → p = p'
  cache_kid : ∀ c ∈ s.cacheDomains, ∃ k ∈ s.kids c, k ∈ s.cpus
  package_kid : ∀ p ∈ s.packages, ∃ c ∈ s.kids p, c ∈ s.cacheDomains
  unbanned : ∀ o, o ∈ s.cpus ∨ o ∈ s.cacheDomains ∨ o ∈ s.packages → s.masks o &&& s.bannedCpus = 0
  coreCount : s.coreCount = fs.onlineCount

/-! ### The directories -/

/-- A cpu is banned if and only if its bit is. -/
theorem cpusIntersects_cpumaskOfCpu {n : ℕ} (hn : n < nrCpus) (b : Cpumask) :
    cpusIntersects (cpumaskOfCpu n) b = b.getLsbD n := by
  have hbit : ∀ i, (cpumaskOfCpu n).getLsbD i = decide (n = i) := by
    intro i
    rw [cpumaskOfCpu, BitVec.getLsbD_ofNat, Nat.testBit_two_pow]
    by_cases h : n = i
    · simp [← h, hn]
    · simp [h]
  rw [Bool.eq_iff_iff, cpusIntersects, bne_iff_ne]
  constructor
  · intro hne
    by_contra hoff
    refine hne (BitVec.eq_of_getLsbD_eq fun i _ => ?_)
    rw [BitVec.getLsbD_and, hbit]
    by_cases h : n = i
    · subst h; simpa using hoff
    · simp [h]
  · intro hon hzero
    have h := congrArg (BitVec.getLsbD · n) hzero
    simp [hbit, hon] at h

/-- A cpu that is not offline has its bit inside the mask, when `do_one_cpu` returns. -/
theorem doOneCpu_range (h : doOneCpu d s = some s') (hon : d.isOnline = true) :
    0 ≤ d.number ∧ d.number < nrCpus := by
  unfold doOneCpu at h
  rw [hon] at h
  simp only [Bool.not_true, Bool.false_eq_true, if_false] at h
  split_ifs at h with hrange <;> omega

theorem parseCpuTree_range {fs : CpuSysfs} (h : parseCpuTree fs s = some s')
    (hd : d ∈ (fs.cpuDir.getD []).filter isCpuDir) (hon : d.isOnline = true) :
    0 ≤ d.number ∧ d.number < nrCpus := by
  unfold parseCpuTree at h
  dsimp only at h
  split at h
  · next hdir => rw [hdir] at hd; cases hd
  · next dirs hdir =>
    rw [hdir] at hd
    obtain ⟨t, t', ht⟩ := Loops.foldlM_call h hd
    exact doOneCpu_range ht hon

/-- The directories that get a cpu object are the usable ones. -/
theorem added_eq_usable {fs : CpuSysfs} (h : parseCpuTree fs s = some s') : fs.added = fs.usable := by
  unfold CpuSysfs.added CpuSysfs.usable
  apply List.filter_congr
  intro d hd
  rw [CpuDir.isAdded]
  cases hon : d.isOnline with
  | false => rw [Bool.false_and, Bool.false_and]
  | true =>
    have hrange := parseCpuTree_range h hd hon
    have hmask := cpusIntersects_cpumaskOfCpu (n := d.number.toNat) (by omega) (setupBannedCpus fs)
    rw [Bool.true_and, Bool.true_and, CpuDir.mask, hmask]

/-! ### The tree -/

variable {G : List Added}

/-- The cpu of a directory that was added. -/
theorem TreeOf.cpuOf (h : TreeOf G s) {fs : CpuSysfs} {opts : Options}
    (hkey : s.cacheKey = fs.cacheMask opts) {g : Added} (hg : g ∈ G) :
    CpuOf fs opts s g.dir g.cpu := by
  obtain ⟨hnumber, hmask⟩ := h.cpu_data g hg
  obtain ⟨hmem, hcache⟩ := h.cache_mem g hg
  have hk : g.cpu ∈ s.cpus := h.cpus_eq ▸ List.mem_map_of_mem hg
  obtain ⟨p, hp, -, hkp, hnodup, huniq⟩ := h.cpus_forest g.cpu hk
  have hkc : g.cpu ∈ s.kids g.cache :=
    (h.inv.caches.mem_kids g.cache hmem g.cpu).2 ⟨g, hg, rfl, hcache⟩
  have hcp : g.cache = p := huniq g.cache hmem hkc
  subst hcp
  refine ⟨hnumber, hmask, g.cache, hmem, List.count_eq_one_of_mem hnodup hkc, ?_, huniq, ?_⟩
  · rw [hcache, hkey]
  · intro c' hc' hmask'
    exact h.inv.caches.key_inj c' hc' g.cache hmem (by rw [hmask', hcache, hkey])

theorem Reach.coreCount_zero {A : Env → Pc → State → Prop} {pc : Pc} (h : Reach A pc s)
    (hpc : pc.phase = .bare) : s.coreCount = 0 := by
  induction h with
  | init => rfl
  | @step env pc pc' s s' _ _ hexec _ =>
    cases exec_stmt hexec with
    | build _ hpc' => rcases hpc' with ⟨hpc', -⟩ | hpc' <;> rw [hpc'] at hpc <;> cases hpc
    | force _ hpc' => rw [hpc'] at hpc; cases hpc
    | quiet _ hpc' => rcases hpc' with hpc' | hpc' <;> rw [hpc'] at hpc <;> cases hpc
    | free => rfl
    | migrate | place | activate => cases hpc
  | @hup pc s _ _ ih =>
    unfold forceRescan
    split_ifs
    · exact ih hpc
    · exact ih hpc

/-- **`parse_cpu_tree` builds the topology of the machine.** -/
theorem topology_faithful {pc : Pc} (h : Reach anyStep pc s) (hpc : pc = .start ∨ pc = .buildTree)
    {dir : Option (List NodeDir)} {fs : CpuSysfs}
    (hp : parseCpuTree fs (buildNumaNodeList dir s) = some s') :
    TopologyFaithful fs s.opts s' := by
  have hphase : pc.phase = .bare := by rcases hpc with rfl | rfl <;> rfl
  have hbare : Bare s := by
    have hs := h.holds
    rwa [hphase] at hs
  obtain ⟨hopts, hbanned, hcount, G, hdirs, htree⟩ := hbare.treeless.parseCpuTree hp
  have htopo := htree.topoWf
  have hkey : s'.cacheKey = fs.cacheMask s.opts := by
    funext d
    rw [State.cacheKey, CpuSysfs.cacheMask, hopts, htopo.unbanned, hbanned]
  refine ⟨hbanned, htopo.unbanned, htopo.cpus_nodup, ?_, htree.inv.caches.key_inj,
    htree.inv.packages.key_inj, fun c hc => htree.cache_kid hc, fun p hp => htree.package_kid hp, ?_, ?_⟩
  · rw [← added_eq_usable hp, ← hdirs, htree.cpus_eq, List.forall₂_map_left_iff,
      List.forall₂_map_right_iff, List.forall₂_same]
    exact fun g hg => htree.cpuOf hkey hg
  · rintro o (ho | ho | ho)
    · exact (htopo.isCpu o ho).banned
    · exact (htopo.isCache o ho).banned
    · exact (htopo.isPackage o ho).banned
  · rw [hcount, h.coreCount_zero hphase, Nat.zero_add]

theorem topology_faithful_twoCpus : ∃ s',
    parseCpuTree twoCpus (buildNumaNodeList none (State.initial {} fun _ => 0)) = some s' ∧
    TopologyFaithful twoCpus {} s' := by
  have hsome : (parseCpuTree twoCpus (buildNumaNodeList none
      (State.initial {} fun _ => 0))).isSome = true := by decide +kernel
  obtain ⟨s', hp⟩ := Option.isSome_iff_exists.1 hsome
  exact ⟨s', hp, topology_faithful (.init {} (fun _ => 0) rfl) (Or.inl rfl) hp⟩

end IrqBalance

import IrqBalance.BannedCpus
import IrqBalance.ListGrammar
import IrqBalance.MaskGrammar

/-!
# Cpus that are kept free

The comment in front of `setup_banned_cpus` promises that no irq is placed on the cpus that the kernel keeps
isolated or `nohz_full`, unless `IRQBALANCE_BANNED_CPUS` says otherwise. The promise goes from the text of a
file to the masks that are written: `KeepsFree` says what the texts must be, and `kept_free` what comes of it
in every run in which the tree is built from such texts.
-/

namespace IrqBalance

open CString

variable {s s' : State} {n : ℕ} {pc pc' : Pc}

/-- The file has a line, and the line lists the cpu. -/
def FileLists (file : Option Text) (n : ℕ) : Prop :=
  ∃ text ∈ file, firstLine text ≠ [] ∧ (firstLine text).head? ≠ some '\n' ∧ Listed (firstLine text) n

/-- The cpu is to be kept free: the variable denotes a mask with its bit, or there is no variable and one of
the two files lists it. -/
def CpuSysfs.KeepsFree (fs : CpuSysfs) (n : ℕ) : Prop :=
  match fs.bannedCpus with
  | some text => ∃ v, Denotes (maskText (cstr text)) v ∧ v.testBit n = true
  | none => FileLists fs.isolated n ∨ FileLists fs.nohzFull n

/-- Whenever the tree is built, the cpu is to be kept free. -/
def keepsFree (n : ℕ) (env : Env) (pc : Pc) (_ : State) : Prop := pc.phase = .bare → env.cpuSysfs.KeepsFree n

/-! ### The masks of `setup_banned_cpus` -/

theorem getLsbD_cpulistFile {file : Option Text} (h : FileLists file n) :
    (cpulistFile file).getLsbD n = true := by
  obtain ⟨text, rfl, hne, hhead, hlisted⟩ := h
  unfold cpulistFile
  rw [Option.map_some]
  dsimp only
  rw [if_pos ⟨hne, hhead⟩]
  exact ((bitmapParselist_exact (firstLine text)).2 n).2 hlisted

theorem getLsbD_setupBannedCpus {fs : CpuSysfs} (h : fs.KeepsFree n) : (setupBannedCpus fs).getLsbD n = true := by
  unfold CpuSysfs.KeepsFree at h
  unfold setupBannedCpus
  cases hvar : fs.bannedCpus with
  | some text =>
    rw [hvar] at h
    obtain ⟨v, hv, hbit⟩ := h
    have hlt : n < nrCpus := by
      by_contra hge
      have hsmall := Nat.testBit_lt_two_pow (hv.2.2.trans_le (Nat.pow_le_pow_right (by decide) (not_lt.1 hge)))
      rw [hbit] at hsmall
      cases hsmall
    dsimp only
    rw [cpumaskParseUser, bitmapParse_of_denotes hv, BitVec.getLsbD_ofNat, hbit, Bool.and_true]
    exact decide_eq_true hlt
  | none =>
    rw [hvar] at h
    dsimp only at h ⊢
    rw [BitVec.getLsbD_or, Bool.or_eq_true]
    exact h.symm.imp getLsbD_cpulistFile getLsbD_cpulistFile

/-! ### Runs -/

theorem bannedCpus_of_static (e : s'.static = s.static) : s'.bannedCpus = s.bannedCpus :=
  show s'.static.bannedCpus = s.static.bannedCpus by rw [e]

/-- `build_object_tree` stores what `setup_banned_cpus` reads. -/
theorem Bare.build_bannedCpus (h : Bare s) {env : Env} (hb : buildObjectTree env s = some s') :
    s'.bannedCpus = setupBannedCpus env.cpuSysfs := by
  obtain ⟨t, ht, hb⟩ := Option.bind_eq_some_iff.1 hb
  obtain ⟨-, hbanned, -⟩ := h.treeless.parseCpuTree ht
  obtain ⟨-, -, -, hsans, -⟩ := rebuildIrqDb_place hb
  have hkeep : s'.bannedCpus = t.bannedCpus := show s'.sansIrqs.bannedCpus = t.bannedCpus by rw [hsans]; rfl
  rw [hkeep, hbanned]

/-- **The banned cpus are those of the last build**: what holds of the mask at every build holds until the tree
is freed. -/
theorem Reach.bannedCpus {A : Env → Pc → State → Prop} (P : Cpumask → Prop)
    (hA : ∀ env pc s, A env pc s → pc.phase = .bare → P (setupBannedCpus env.cpuSysfs))
    (h : Reach A pc s) (hpc : pc.phase ≠ .bare) : P s.bannedCpus := by
  induction h with
  | init => exact absurd rfl hpc
  | @step env pc pc' s s' hreach ha hexec ih =>
    have hs := hreach.holds
    have hkeep : pc.phase = .live → s'.static = s.static → P s'.bannedCpus := fun hlive e => by
      rw [bannedCpus_of_static e]
      exact ih (by rw [hlive]; decide)
    cases exec_stmt hexec with
    | build hbare _ hb =>
      rw [hbare] at hs
      rw [Bare.build_bannedCpus hs hb]
      exact hA env pc s ha hbare
    | force hbuilt _ hf =>
      have hkept := ih (by rw [hbuilt]; decide)
      rw [hbuilt] at hs
      rw [Built.force hs hf]
      exact hkept
    | quiet hlive _ e => exact hkeep hlive (static_of_quiet e)
    | free => exact absurd rfl hpc
    | migrate hm => exact hkeep rfl (updateMigrationStatus_rearrange (hreach.live rfl) hm).static_eq
    | place hp => exact hkeep rfl (calculatePlacement_rearrange (hreach.live rfl) hp).static_eq
    | activate ha => exact hkeep rfl (static_of_unactivated (activateMappings_unactivated ha))
  | @hup pc s _ _ ih =>
    have hsame : (forceRescan s).bannedCpus = s.bannedCpus :=
      bannedCpus_of_static (static_of_quiet (forceRescan_quiet s))
    rw [hsame]
    exact ih hpc

theorem getLsbD_of_and_eq_zero {m b : Cpumask} (h : m &&& b = 0) (hb : b.getLsbD n = true) : m.getLsbD n = false := by
  have hbit := congrArg (BitVec.getLsbD · n) h
  simpa [hb] using hbit

/-- **Listed cpus are kept free**: no object of the tree but the node has such a cpu, and a mask with it is
only written for an irq that is on the node, where no package can take it and no EXACT hint is used. -/
theorem kept_free (h : Reach (keepsFree n) pc s) (hpc : pc.phase = .live) :
    (∀ o ∈ s.topology, o ≠ unspecifiedNode → (s.masks o).getLsbD n = false) ∧
      ∀ env, ∀ w ∈ affinityWrites env s, w.2.getLsbD n = true → ∃ i ∈ s.interruptsDb, w.1 = s.number i ∧
        s.home i = some unspecifiedNode ∧ (s.irqs i).hasHint .exact = false ∧
        ∀ p ∈ s.packages, HintMisses s i p := by
  have hlive := h.live hpc
  have hbanned : s.bannedCpus.getLsbD n = true := h.bannedCpus (fun b => b.getLsbD n = true)
    (fun _ _ _ ha hbare => getLsbD_setupBannedCpus (ha hbare)) (by rw [hpc]; decide)
  refine ⟨fun o ho hne => getLsbD_of_and_eq_zero (hlive.topo.banned ho hne) hbanned, ?_⟩
  rintro env ⟨k, m⟩ hw hbit
  obtain ⟨i, hi, hk, hm⟩ := mem_affinityWrites hlive hw
  cases ho : (s.irqs i).assignedObj with
  | none => rw [writtenMask_unassigned ho] at hm; cases hm
  | some o =>
    obtain ⟨-, htarget, -⟩ := (writtenMask_eq_some_iff ho).1 hm
    have hi' : i ∈ s.live := by
      refine ⟨hi, fun hlevel => ?_⟩
      have hnone : s.home i = none := hlive.unplaced i hi hlevel
      rw [State.home, ho] at hnone
      cases hnone
    have hmem : o ∈ s.topology := by
      have hhome := hlive.bins.home_mem i hi'
      rw [show s.home i = some o from ho] at hhome
      exact some_mem_slots.1 hhome
    have hmeets : ¬m &&& s.bannedCpus = 0 := fun hzero => by
      rw [getLsbD_of_and_eq_zero hzero hbanned] at hbit
      cases hbit
    have hnode : o = unspecifiedNode := by
      by_contra hne
      exact hmeets (target_unbanned hlive.topo hmem hne htarget)
    subst hnode
    obtain ⟨hexact, -⟩ := (target_node hlive.topo htarget).resolve_left hmeets
    exact ⟨i, hi, hk, ho, hexact, (h.nodeLast hpc i hi' ho).2⟩

/-- The machine with two cpus, the second of them isolated. -/
def isolatedEnv : Env := { twoCpusEnv with cpuSysfs := { twoCpus with isolated := some "1\n".toList } }

theorem listed_one : Listed "1\n".toList 1 := by
  have hpieces : (listPieces "1\n".toList).takeWhile (pieceCode · = 0) = ["1".toList] := by decide +kernel
  exact ⟨"1".toList, by rw [hpieces]; exact List.mem_singleton_self _, (1, 1), by decide +kernel, by decide⟩

/-- Its first cycle. -/
theorem kept_free_isolated : ∃ s,
    execs (List.replicate 11 isolatedEnv) (.start, State.initial {} fun _ => 0) = some (.activation, s) ∧
    affinityWrites isolatedEnv.procIrq s = [(10, 1)] ∧
    ∀ o ∈ s.topology, o ≠ unspecifiedNode → (s.masks o).getLsbD 1 = false := by
  have hrun : (execs (List.replicate 11 isolatedEnv) (.start, State.initial {} fun _ => 0)).map
      (fun r => (r.1, affinityWrites isolatedEnv.procIrq r.2)) = some (.activation, [(10, 1)]) := by
    decide +kernel
  obtain ⟨⟨pc, s⟩, hr, e⟩ := Option.map_eq_some_iff.1 hrun
  obtain ⟨rfl, hwrites⟩ := Prod.mk.inj e
  have hreach : Reach (keepsFree 1) .activation s := by
    refine (Reach.init {} (fun _ => 0) rfl).execs .done (fun env henv pc s _ _ => ?_) (by decide +kernel) hr
    rw [List.eq_of_mem_replicate henv]
    exact Or.inl ⟨"1\n".toList, rfl, by decide +kernel, by decide +kernel, listed_one⟩
  exact ⟨s, hr, hwrites, (kept_free hreach rfl).1⟩

end IrqBalance

import IrqBalance.FreshStart
import IrqBalance.Rescan

/-!
# The times in `/proc/stat`

For each cpu `parse_proc_stat` stores the difference between the time it reads and `last_load`, the time that it
read before. It does not look which one is larger. `samples` are the times it reads, with what they are
compared with; in every run `last_load` is the time that was read last for the cpu since the tree was built
(`Sampled.inv`), so the differences wrap exactly when a time is smaller than the one before.
-/

namespace IrqBalance

open CString (Text loopBuffers strstr strtoul toInt)

variable {s s' t : State} {pc pc' : Pc} {n : ℤ}

/-! ### Samples -/

/-- A time that `parse_proc_stat` reads for a cpu, with the `last_load` that it finds, and whether it stores the
difference of the two. -/
structure Sample where
  number : ℤ
  time : UInt64
  lastLoad : UInt64
  counted : Bool
deriving DecidableEq

/-- The difference that is stored. -/
def Sample.difference (e : Sample) : UInt64 := e.time - e.lastLoad

/-- The difference is below zero, and wraps. -/
def Sample.Wraps (e : Sample) : Prop :=
  e.counted = true ∧ (e.difference.toNat : ℤ) ≠ e.time.toNat - e.lastLoad.toNat

theorem Sample.wraps_iff (e : Sample) : e.Wraps ↔ e.counted = true ∧ e.time < e.lastLoad := by
  unfold Sample.Wraps Sample.difference
  apply and_congr_right
  intro _
  have htime := e.time.toNat_lt
  have hlast := e.lastLoad.toNat_lt
  rw [UInt64.toNat_sub, UInt64.lt_iff_toNat_lt]
  omega

/-- What the loop of `parse_proc_stat` makes of a line. -/
inductive StatLine
  /-- leave the loop -/
  | stop
  /-- `cpu_isset` outside the mask -/
  | undefined
  /-- a banned cpu -/
  | skip
  /-- a time for a cpu -/
  | sample (cpu : ObjId) (number : ℤ) (time : UInt64)

/-- The tests of the loop body. -/
def statLine (s : State) (line : Text) : StatLine :=
  if !strstr line "cpu".toList then .stop
  else
    let cpunr := toInt (strtoul (line.drop 3)).1
    if cpunr < 0 ∨ nrCpus ≤ cpunr then .undefined
    else if s.bannedCpus.getLsbD cpunr.toNat then .skip
    else match scanStatLine line with
      | none => .stop
      | some (irqLoad, softirqLoad) =>
        match findCpuCore s cpunr with
        | none => .stop
        | some cpu => .sample cpu cpunr (irqLoad + softirqLoad)

/-- The sample that is taken when a time is read for a cpu. -/
def sampleAt (s : State) (cpu : ObjId) (number : ℤ) (time : UInt64) : Sample :=
  ⟨number, time, (s.objs cpu).lastLoad, s.cycleCount ≠ 0⟩

/-- The rest of the loop body: the difference of the sample is stored, if it is counted, and its time. -/
def storeSample (cpu : ObjId) (e : Sample) (s : State) : State :=
  s.modObj cpu fun o =>
    { o with
      load := if e.counted then ticksToNsec s.opts.hz e.difference else o.load
      lastLoad := e.time }

theorem store_sampleAt (cpu : ObjId) (number : ℤ) (time : UInt64) (s : State) :
    storeSample cpu (sampleAt s cpu number time) s = s.modObj cpu fun o =>
      { o with
        load := if s.cycleCount = 0 then o.load else ticksToNsec s.opts.hz (time - o.lastLoad)
        lastLoad := time } := by
  unfold storeSample State.modObj
  generalize ticksToNsec s.opts.hz = scale
  congr 1
  funext p
  by_cases hp : p = cpu
  · subst hp
    by_cases hcycle : s.cycleCount = 0 <;> simp [sampleAt, Sample.difference, hcycle]
  · rw [if_neg hp, if_neg hp]

/-- The loop of `parse_proc_stat`, by its tests. -/
theorem parseStatLoop_cons (line : Text) (ls : List Text) (count : ℕ) (s : State) :
    parseStatLoop (line :: ls) count s = match statLine s line with
      | .stop => some (count, s)
      | .undefined => none
      | .skip => parseStatLoop ls count s
      | .sample cpu number time =>
        parseStatLoop ls (count + 1) (storeSample cpu (sampleAt s cpu number time) s) := by
  rw [parseStatLoop, statLine]
  generalize toInt (strtoul (line.drop 3)).1 = cpunr
  generalize strstr line "cpu".toList = found
  dsimp only
  by_cases hcpu : (!found) = true
  · rw [if_pos hcpu, if_pos hcpu]
  rw [if_neg hcpu, if_neg hcpu]
  by_cases hrange : cpunr < 0 ∨ nrCpus ≤ cpunr
  · rw [if_pos hrange, if_pos hrange]
  rw [if_neg hrange, if_neg hrange]
  by_cases hbanned : s.bannedCpus.getLsbD cpunr.toNat = true
  · rw [if_pos hbanned, if_pos hbanned]
  rw [if_neg hbanned, if_neg hbanned]
  rcases scanStatLine line with _ | ⟨irqLoad, softirqLoad⟩
  · rfl
  cases findCpuCore s cpunr with
  | none => rfl
  | some cpu =>
    dsimp only
    rw [store_sampleAt]

/-- The samples that the loop takes. -/
def samplesLoop : List Text → State → List Sample
  | [], _ => []
  | line :: ls, s =>
    match statLine s line with
    | .skip => samplesLoop ls s
    | .sample cpu number time =>
      let e := sampleAt s cpu number time
      e :: samplesLoop ls (storeSample cpu e s)
    | _ => []

/-- The samples that `parse_proc_stat` takes. -/
def samples (file : Option Text) (s : State) : List Sample :=
  match file with
  | none => []
  | some text => samplesLoop (loopBuffers s.opts.getlineKeeps id text) s

/-! ### What leaves `last_load` alone -/

/-- The values of `last_load`. -/
def State.lastLoads (s : State) (o : ObjId) : UInt64 := (s.objs o).lastLoad

theorem modObj_lastLoads {f : TopoObj → TopoObj} (hf : ∀ o, (f o).lastLoad = o.lastLoad) (s : State) (p : ObjId) :
    (s.modObj p f).lastLoads = s.lastLoads := by
  funext q
  unfold State.lastLoads
  rw [State.modObj_objs]
  split_ifs
  · exact hf _
  · rfl

theorem lastLoads_of_objs (e : s'.objs = s.objs) : s'.lastLoads = s.lastLoads := by
  unfold State.lastLoads
  rw [e]

theorem computeIrqBranchLoadShare_lastLoads {d : ObjId} (h : computeIrqBranchLoadShare d s = some s') :
    s'.lastLoads = s.lastLoads := by
  unfold computeIrqBranchLoadShare at h
  split_ifs at h
  · cases h; rfl
  · obtain ⟨own, -, h⟩ := Option.bind_eq_some_iff.1 h
    obtain ⟨total, -, h⟩ := Option.bind_eq_some_iff.1 h
    refine forEachIrq_view State.lastLoads (fun i u u' hu => ?_) h
    cases hu
    rfl

theorem accumulateInterrupts_lastLoads (n : ℕ) (d : ObjId) (h : accumulateInterrupts n d s = some s') :
    s'.lastLoads = s.lastLoads := by
  induction n generalizing d s s' with
  | zero => cases h
  | succ n ih =>
    obtain ⟨t, ht, h⟩ := Option.bind_eq_some_iff.1 h
    cases h
    exact (modObj_lastLoads (by intro _; rfl) t d).trans
      (Loops.foldlM_view State.lastLoads (fun c _ u u' hu => ih c hu) ht)

theorem setLoad_lastLoads (n : ℕ) (d : ObjId) (h : setLoad n d s = some s') : s'.lastLoads = s.lastLoads := by
  induction n generalizing d s s' with
  | zero => cases h
  | succ n ih =>
    unfold setLoad at h
    split_ifs at h
    · cases h; rfl
    · obtain ⟨t, ht, h⟩ := Option.bind_eq_some_iff.1 h
      cases h
      exact (modObj_lastLoads (by intro _; rfl) t d).trans
        (Loops.foldlM_view State.lastLoads (fun c _ u u' hu => ih c hu) ht)

theorem aggregateStat_lastLoads (h : aggregateStat s = some s') : s'.lastLoads = s.lastLoads := by
  obtain ⟨s₁, h₁, h⟩ := Option.bind_eq_some_iff.1 h
  obtain ⟨s₂, h₂, h⟩ := Option.bind_eq_some_iff.1 h
  obtain ⟨s₃, h₃, h⟩ := Option.bind_eq_some_iff.1 h
  obtain ⟨s₄, h₄, h⟩ := Option.bind_eq_some_iff.1 h
  obtain ⟨s₅, h₅, h⟩ := Option.bind_eq_some_iff.1 h
  have hshare : ∀ {l : List ObjId} {u v : State},
      l.foldlM (fun s d => computeIrqBranchLoadShare d s) u = some v → v.lastLoads = u.lastLoads :=
    fun hv => Loops.foldlM_view State.lastLoads (fun d _ _ _ => computeIrqBranchLoadShare_lastLoads) hv
  rw [hshare h, hshare h₅, hshare h₄, hshare h₃]
  refine (Loops.foldlM_view State.lastLoads (fun d _ u _ hu => ?_) h₂).trans
    (Loops.foldlM_view State.lastLoads (fun d _ u _ hu => ?_) h₁)
  · exact accumulateInterrupts_lastLoads (depthBound u) d hu
  · exact setLoad_lastLoads (depthBound u) d hu

theorem lastLoads_of_unmoved (e : s'.unmoved = s.unmoved) : s'.lastLoads = s.lastLoads :=
  show s'.unmoved.lastLoads = s.unmoved.lastLoads by rw [e]

theorem Rearrange.lastLoads_eq {D : Set (Option ObjId)} (h : Rearrange D s s') : s'.lastLoads = s.lastLoads := by
  induction h with
  | refl => rfl
  | move _ _ _ _ hm ih => exact (lastLoads_of_unmoved hm.unmoved_eq).trans ih
  | sort _ _ ih => exact (lastLoads_of_unmoved (setSlot_unmoved _ _ _)).trans ih
  | sleep _ _ b ih => exact (modObj_lastLoads (by intro _; rfl) _ _).trans ih

/-- The other statements that do not build leave `last_load` alone. -/
theorem exec_lastLoads {env : Env} (hs : pc.phase.Holds s) (hpc : pc.phase ≠ .bare) (hstat : pc.readsStat = false)
    (h : exec env pc s = some (pc', s')) : s'.lastLoads = s.lastLoads := by
  cases pc with
  | start | buildTree => exact absurd rfl hpc
  | parseStat | loopStat | rescanStat | settleStat => cases hstat
  | done => cases h
  | forceRebalance | rescanForceRebalance =>
    rw [Built.force hs (map_goto h).2]
    rfl
  | loopClearStats | rescanClearStats | settleClearStats => exact lastLoads_of_objs (clearWorkStats_objs (map_goto h).2)
  | parseInterrupts | loopInterrupts | rescanInterrupts | settleInterrupts =>
    cases h
    exact lastLoads_of_objs (parseProcInterrupts_objs _ s)
  | loop | rescanTest | resetNeedRescan | resetCycleCount | countCycle | freeTree =>
    cases h
    rfl
  | migration =>
    unfold exec at h
    dsimp only at h
    split_ifs at h
    · cases h
      rfl
    · exact (updateMigrationStatus_rearrange hs (map_goto h).2).lastLoads_eq
  | placement =>
    exact (calculatePlacement_rearrange hs (map_goto h).2).lastLoads_eq
  | activation =>
    have e := activateMappings_unactivated (map_goto h).2
    exact show s'.unactivated.lastLoads = s.unactivated.lastLoads by rw [e]

/-! ### Runs -/

/-- A tree is built, or a time is read. -/
inductive Reading
  | build
  | read (e : Sample)
deriving DecidableEq

/-- The time that was read last for a cpu since the tree was built, and 0 if there is none. -/
def latest (hist : List Reading) (n : ℤ) : UInt64 :=
  hist.foldl (fun time reading => match reading with
    | .build => 0
    | .read e => if e.number = n then e.time else time) 0

theorem latest_build (hist : List Reading) (n : ℤ) : latest (hist ++ [.build]) n = 0 := by
  unfold latest
  rw [List.foldl_concat]

theorem latest_read (hist : List Reading) (e : Sample) (n : ℤ) :
    latest (hist ++ [.read e]) n = if e.number = n then e.time else latest hist n := by
  unfold latest
  rw [List.foldl_concat]

/-- What a statement reads. -/
def readings (env : Env) (pc : Pc) (s : State) : List Reading :=
  if pc.phase = .bare then [.build]
  else if pc.readsStat then (samples env.procStat s).map .read
  else []

/-- The states of the runs of `main`, with what has been read so far. -/
inductive Sampled : Pc → State → List Reading → Prop
  | init (opts : Options) (smpAffinity : ℤ → Cpumask) (h : opts.numaAvail = false) :
      Sampled .start (State.initial opts smpAffinity) []
  | step {env : Env} {pc pc' : Pc} {s s' : State} {hist : List Reading} :
      Sampled pc s hist → exec env pc s = some (pc', s') → Sampled pc' s' (hist ++ readings env pc s)
  | hup {pc : Pc} {s : State} {hist : List Reading} :
      Sampled pc s hist → pc ≠ .start → Sampled pc (forceRescan s) hist

variable {hist : List Reading}

theorem Sampled.reach (h : Sampled pc s hist) : Reach anyStep pc s := by
  induction h with
  | init opts smpAffinity h => exact .init opts smpAffinity h
  | step _ hexec ih => exact ih.exec_any hexec
  | hup _ hpc ih => exact ih.hup hpc

theorem Reach.sampled {A : Env → Pc → State → Prop} (h : Reach A pc s) : ∃ hist, Sampled pc s hist := by
  induction h with
  | init opts smpAffinity h => exact ⟨[], .init opts smpAffinity h⟩
  | step _ _ hexec ih =>
    obtain ⟨hist, hs⟩ := ih
    exact ⟨_, hs.step hexec⟩
  | hup _ hpc ih =>
    obtain ⟨hist, hs⟩ := ih
    exact ⟨hist, hs.hup hpc⟩

/-- `last_load` is the time that was read last. -/
def Current (hist : List Reading) (s : State) : Prop :=
  ∀ n cpu, findCpuCore s n = some cpu → s.lastLoads cpu = latest hist n

/-- Every time was compared with the time that was read last before it. -/
def Compared (hist : List Reading) : Prop :=
  ∀ pre e, pre ++ [.read e] <+: hist → e.lastLoad = latest pre e.number

theorem Compared.nil : Compared [] := by
  intro pre e h
  have hnil := List.prefix_nil.1 h
  simp at hnil

theorem Compared.build (h : Compared hist) : Compared (hist ++ [.build]) := by
  intro pre e hpre
  rcases List.prefix_concat_iff.1 hpre with heq | hpre
  · have hlast := (List.append_inj' heq rfl).2
    cases hlast
  · exact h pre e hpre

theorem Compared.read (h : Compared hist) {e : Sample} (he : e.lastLoad = latest hist e.number) :
    Compared (hist ++ [.read e]) := by
  intro pre e' hpre
  rcases List.prefix_concat_iff.1 hpre with heq | hpre
  · obtain ⟨rfl, hlast⟩ := List.append_inj' heq rfl
    cases hlast
    exact he
  · exact h pre e' hpre

theorem Current.congr (h : Current hist s) (hcore : findCpuCore s' = findCpuCore s)
    (hloads : s'.lastLoads = s.lastLoads) : Current hist s' := by
  intro n cpu hcpu
  rw [hcore] at hcpu
  rw [hloads]
  exact h n cpu hcpu

theorem findCpuCore_of_static (e : s'.static = s.static) : findCpuCore s' = findCpuCore s :=
  show findCpuCore s'.static = findCpuCore s.static by rw [e]

theorem findCpuCore_number {cpu : ObjId} (h : findCpuCore s n = some cpu) : (s.objs cpu).number = n := by
  have hfind := List.find?_some h
  simpa using hfind

theorem findCpuCore_mem_topology {cpu : ObjId} (h : findCpuCore s n = some cpu) : cpu ∈ s.topology :=
  List.mem_append_right _ (List.mem_of_find?_eq_some h)

theorem statLine_cpu {line : Text} {cpu : ObjId} {time : UInt64} (h : statLine s line = .sample cpu n time) :
    findCpuCore s n = some cpu := by
  unfold statLine at h
  generalize toInt (strtoul (line.drop 3)).1 = cpunr at h
  dsimp only at h
  split_ifs at h
  cases hscan : scanStatLine line with
  | none => rw [hscan] at h; cases h
  | some loads =>
    rw [hscan] at h
    dsimp only at h
    cases hcpu : findCpuCore s cpunr with
    | none => rw [hcpu] at h; cases h
    | some cpu' =>
      rw [hcpu] at h
      cases h
      exact hcpu

theorem findCpuCore_storeSample (cpu : ObjId) (e : Sample) (s : State) :
    findCpuCore (storeSample cpu e s) = findCpuCore s :=
  findCpuCore_of_static (static_modObj (by intro _; rfl) s cpu)

/-- Storing a sample. -/
theorem Current.store (h : Current hist s) {cpu : ObjId} {e : Sample} (hcpu : findCpuCore s e.number = some cpu) :
    Current (hist ++ [.read e]) (storeSample cpu e s) := by
  intro n cpu' hcpu'
  rw [findCpuCore_storeSample] at hcpu'
  rw [latest_read]
  split_ifs with hn
  · subst hn
    have hsame : cpu' = cpu := Option.some.inj (hcpu'.symm.trans hcpu)
    rw [hsame, State.lastLoads, storeSample, State.modObj_objs_self]
  · have hother : cpu' ≠ cpu := by
      rintro rfl
      exact hn ((findCpuCore_number hcpu).symm.trans (findCpuCore_number hcpu'))
    have hkeep : (storeSample cpu e s).lastLoads cpu' = s.lastLoads cpu' := by
      rw [State.lastLoads, storeSample, State.modObj_objs, if_neg hother, State.lastLoads]
    rw [hkeep]
    exact h n cpu' hcpu'

/-- The loop of `parse_proc_stat`. -/
theorem Current.parseStatLoop (ls : List Text) {count : ℕ} {r : ℕ × State} (hcurrent : Current hist s)
    (hcompared : Compared hist) (h : parseStatLoop ls count s = some r) :
    Current (hist ++ (samplesLoop ls s).map .read) r.2 ∧ Compared (hist ++ (samplesLoop ls s).map .read) := by
  induction ls generalizing hist s count with
  | nil =>
    cases h
    rw [samplesLoop, List.map_nil, List.append_nil]
    exact ⟨hcurrent, hcompared⟩
  | cons line ls ih =>
    rw [parseStatLoop_cons] at h
    rw [samplesLoop]
    cases hline : statLine s line with
    | stop =>
      rw [hline] at h
      cases h
      rw [List.map_nil, List.append_nil]
      exact ⟨hcurrent, hcompared⟩
    | undefined => rw [hline] at h; cases h
    | skip =>
      rw [hline] at h
      exact ih hcurrent hcompared h
    | sample cpu number time =>
      rw [hline] at h
      dsimp only at h ⊢
      have hcpu : findCpuCore s number = some cpu := statLine_cpu hline
      rw [List.map_cons, List.append_cons]
      refine ih ?_ ?_ h
      · exact hcurrent.store hcpu
      · exact hcompared.read (hcurrent number cpu hcpu)

/-- `parse_proc_stat`. -/
theorem Current.parseProcStat {file : Option Text} (hcurrent : Current hist s) (hcompared : Compared hist)
    (h : parseProcStat file s = some s') :
    Current (hist ++ (samples file s).map .read) s' ∧ Compared (hist ++ (samples file s).map .read) := by
  cases file with
  | none =>
    cases h
    rw [samples, List.map_nil, List.append_nil]
    exact ⟨hcurrent, hcompared⟩
  | some text =>
    obtain ⟨r, hr, h⟩ := Option.bind_eq_some_iff.1 h
    obtain ⟨hcur, hcomp⟩ := hcurrent.parseStatLoop _ hcompared hr
    refine ⟨?_, hcomp⟩
    split_ifs at h
    · cases h
      exact hcur
    · refine hcur.congr (findCpuCore_of_static ?_) (aggregateStat_lastLoads h)
      exact static_of_noStats (noStats_of_noLoads (aggregateStat_noLoads h))

theorem Bare.current (h : Bare s) (hist : List Reading) : Current hist s := by
  intro n cpu hcpu
  rw [findCpuCore, h.treeless.cpus] at hcpu
  cases hcpu

/-- **In every run `last_load` is the time that was read last, and every time was compared with the one that
was read last before it.** -/
theorem Sampled.inv (h : Sampled pc s hist) : Current hist s ∧ Compared hist := by
  induction h with
  | init opts smpAffinity h => exact ⟨(bare_initial h).current [], .nil⟩
  | @step env pc pc' s s' hist hsampled hexec ih =>
    obtain ⟨hcurrent, hcompared⟩ := ih
    have hs := hsampled.reach.holds
    unfold readings
    split_ifs with hbare hstat
    · refine ⟨fun n cpu hcpu => ?_, hcompared.build⟩
      rw [latest_build]
      have hunused := hsampled.reach.build_unused hbare (exec_buildObjectTree hbare hexec)
      exact (hunused.objs cpu (findCpuCore_mem_topology hcpu)).lastLoad
    · exact hcurrent.parseProcStat hcompared (exec_readsStat hstat hexec)
    · rw [List.append_nil]
      refine ⟨?_, hcompared⟩
      rcases (exec_stmt hexec).static_eq hs hbare with hbare' | e
      · have hs' := (hsampled.step hexec).reach.holds
        rw [hbare'] at hs'
        exact Bare.current hs' hist
      · exact hcurrent.congr (findCpuCore_of_static e) (exec_lastLoads hs hbare (by simpa using hstat) hexec)
  | hup _ _ ih =>
    refine ⟨ih.1.congr (findCpuCore_of_static (static_of_quiet (forceRescan_quiet _))) ?_, ih.2⟩
    unfold forceRescan
    split_ifs <;> rfl

/-- **No difference wraps, if and only if every time that is counted is at least the time that was read last
for the cpu since the tree was built.** -/
theorem differences_iff (h : Sampled pc s hist) :
    (∀ e, .read e ∈ hist → ¬e.Wraps) ↔
      ∀ pre e, pre ++ [.read e] <+: hist → e.counted = true → latest pre e.number ≤ e.time := by
  have hcompared : Compared hist := h.inv.2
  have hwraps : ∀ e : Sample, ¬e.Wraps ↔ (e.counted = true → e.lastLoad ≤ e.time) := by
    intro e
    rw [e.wraps_iff, not_and, UInt64.not_lt]
  constructor
  · intro hall pre e hpre hcounted
    have hmem : Reading.read e ∈ hist := hpre.subset (List.mem_append_right pre (List.mem_singleton_self _))
    rw [← hcompared pre e hpre]
    exact (hwraps e).1 (hall e hmem) hcounted
  · intro hall e hmem
    obtain ⟨pre, post, hsplit⟩ := List.append_of_mem hmem
    have hpre : pre ++ [.read e] <+: hist := ⟨post, by rw [hsplit, List.append_assoc, List.singleton_append]⟩
    rw [hwraps]
    intro hcounted
    rw [hcompared pre e hpre]
    exact hall pre e hpre hcounted

/-- Execute statements one after the other, with what they read. -/
def record (envs : List Env) (r : (Pc × State) × List Reading) : Option ((Pc × State) × List Reading) :=
  envs.foldlM (fun r env => (exec env r.1.1 r.1.2).map (·, r.2 ++ readings env r.1.1 r.1.2)) r

theorem Sampled.record {envs : List Env} {r r' : (Pc × State) × List Reading} (h : Sampled r.1.1 r.1.2 r.2)
    (hr : record envs r = some r') : Sampled r'.1.1 r'.1.2 r'.2 := by
  refine Loops.foldlM_inv (fun r : (Pc × State) × List Reading => Sampled r.1.1 r.1.2 r.2) ?_ h hr
  intro env _ r r' hsampled hstep
  obtain ⟨q, hexec, hq⟩ := Option.map_eq_some_iff.1 hstep
  subst hq
  exact hsampled.step hexec

theorem differences_iff_twoCpus : ∃ s hist, Sampled .rescanTest s hist ∧ hist.length = 7 ∧
    ((∀ e, .read e ∈ hist → ¬e.Wraps) ↔
      ∀ pre e, pre ++ [.read e] <+: hist → e.counted = true → latest pre e.number ≤ e.time) := by
  have hrun : (record (List.replicate 17 twoCpusEnv) ((.start, State.initial {} fun _ => 0), [])).map
      (fun r => (r.1.1, r.2.length)) = some (.rescanTest, 7) := by
    decide +kernel
  obtain ⟨⟨⟨pc, s⟩, hist⟩, hr, e⟩ := Option.map_eq_some_iff.1 hrun
  simp only [Prod.mk.injEq] at e
  obtain ⟨rfl, hlength⟩ := e
  have hsampled : Sampled .rescanTest s hist := Sampled.record (.init {} (fun _ => 0) rfl) hr
  exact ⟨s, hist, hsampled, hlength, differences_iff hsampled⟩

/-- The machine with times that are smaller. -/
def backwardsEnv : Env where
  procStat := some ("cpu  1 2 3 4 5 6 7 8\ncpu0 1 2 3 4 5 6 1 6\n".toList ++
    "cpu1 1 2 3 4 5 6 1 6\n".toList)

/-- After a time that is smaller than the one before, the difference has wrapped, and no rescan is asked for. -/
theorem difference_wraps : ¬∀ s hist e, Sampled .rescanTest s (hist ++ [.read e]) → s.needRescan = false →
    ¬e.Wraps := by
  intro hclaim
  have hrun : (record (List.replicate 16 twoCpusEnv ++ [backwardsEnv])
      ((.start, State.initial {} fun _ => 0), [])).map
      (fun r => (r.1.1, r.1.2.needRescan, r.2.drop 6)) = some (.rescanTest, false, [.read ⟨1, 7, 13, true⟩]) := by
    decide +kernel
  obtain ⟨⟨⟨pc, s⟩, hist⟩, hr, e⟩ := Option.map_eq_some_iff.1 hrun
  simp only [Prod.mk.injEq] at e
  obtain ⟨rfl, hrescan, hlast⟩ := e
  have hsampled : Sampled .rescanTest s hist := Sampled.record (.init {} (fun _ => 0) rfl) hr
  rw [← List.take_append_drop 6 hist, hlast] at hsampled
  apply hclaim s _ _ hsampled hrescan
  rw [Sample.wraps_iff]
  decide

end IrqBalance

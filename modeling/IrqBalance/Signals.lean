import IrqBalance.MainLoop

/-!
# Requests for a rescan

`force_rescan` may run between any two statements of `main`. A run is a list of events, each the
execution of the next statement or the delivery of a `SIGHUP`; `play` keeps the states in which a
`SIGHUP` arrived since the tree was built for the last time.

The handler ignores a signal while `cycle_count` is 0. A signal that it takes keeps `need_rescan` set
until the rescan block has cleared it, and then the tree is built anew before the next test.
-/

namespace IrqBalance

variable {s s' : State} {pc pc' : Pc}

/-- One step of a run. -/
inductive Event
  | stmt (env : Env)
  | hup

/-- The statements that call `build_object_tree`. -/
def Pc.builds : Pc → Bool
  | .start => true
  | .buildTree => true
  | _ => false

/-- One event. The list holds the states in which a `SIGHUP` arrived since the most recent call of
`build_object_tree` returned. The handler is installed behind the first one. -/
def react (r : List State × Pc × State) : Event → Option (List State × Pc × State)
  | .stmt env => (exec env r.2.1 r.2.2).map fun next => (if r.2.1.builds then [] else r.1, next)
  | .hup => if r.2.1 = .start then none else some (r.2.2 :: r.1, r.2.1, forceRescan r.2.2)

/-- A run of `main` from its start. -/
def play (opts : Options) (smpAffinity : ℤ → Cpumask) (events : List Event) :
    Option (List State × Pc × State) :=
  events.foldlM react ([], .start, State.initial opts smpAffinity)

/-! ### What clears `need_rescan` -/

theorem Rearrange.needRescan_eq {D : Set (Option ObjId)} (h : Rearrange D s s') :
    s'.needRescan = s.needRescan :=
  show s'.globals.needRescan = s.globals.needRescan by rw [h.globals_eq]

theorem parseInterruptsLoop_needRescan (ls : List CString.Text) (h : s.needRescan = true) :
    (parseInterruptsLoop ls s).needRescan = true := by
  induction ls generalizing s with
  | nil => exact h
  | cons line ls ih =>
    rw [parseInterruptsLoop]
    split
    · exact h
    · exact ih h
    · split
      · rfl
      · dsimp only
        split_ifs
        · rfl
        · rfl
        · apply ih
          exact h

/-- Reading `/proc/interrupts` may ask for a rescan, and takes no request back. -/
theorem parseProcInterrupts_needRescan (file : Option CString.Text) (h : s.needRescan = true) :
    (parseProcInterrupts file s).needRescan = true := by
  cases file with
  | none => exact h
  | some text => exact parseInterruptsLoop_needRescan _ h

/-- **Only the rescan block takes a request back.** -/
theorem exec_needRescan {env : Env} (hs : pc.phase.Holds s) (h : exec env pc s = some (pc', s'))
    (hbuilds : pc.builds = false) (hpc : pc ≠ .resetNeedRescan) (hn : s.needRescan = true) :
    s'.needRescan = true := by
  cases pc with
  | start | buildTree => cases hbuilds
  | resetNeedRescan => exact absurd rfl hpc
  | done => cases h
  | forceRebalance | rescanForceRebalance =>
    unfold exec at h
    obtain ⟨-, hu⟩ := map_goto h
    rw [Built.force hs hu]
    exact hn
  | loopClearStats | rescanClearStats | settleClearStats =>
    unfold exec at h
    obtain ⟨-, hu⟩ := map_goto h
    rw [needRescan_of_noLoads (clearWorkStats_noLoads hu)]
    exact hn
  | parseStat | loopStat | rescanStat | settleStat =>
    unfold exec at h
    obtain ⟨-, hu⟩ := map_goto h
    rw [needRescan_of_noLoads (parseProcStat_noLoads hu)]
    exact hn
  | parseInterrupts | loopInterrupts | rescanInterrupts | settleInterrupts =>
    cases h
    exact parseProcInterrupts_needRescan _ hn
  | loop | rescanTest | resetCycleCount | countCycle | freeTree =>
    cases h
    exact hn
  | migration =>
    unfold exec at h
    dsimp only at h
    split_ifs at h
    · cases h
      exact hn
    · obtain ⟨-, hu⟩ := map_goto h
      rw [(updateMigrationStatus_rearrange hs hu).needRescan_eq]
      exact hn
  | placement =>
    unfold exec at h
    obtain ⟨-, hu⟩ := map_goto h
    rw [(calculatePlacement_rearrange hs hu).needRescan_eq]
    exact hn
  | activation =>
    unfold exec at h
    obtain ⟨-, hu⟩ := map_goto h
    have e := activateMappings_unactivated hu
    exact show s'.unactivated.needRescan = true by rw [e]; exact hn

/-! ### Runs with signals -/

/-- The program points between the statement that clears `need_rescan` and the end of the rebuild. -/
def Pc.rebuilding : Pc → Bool
  | .resetCycleCount => true
  | .rescanClearStats => true
  | .freeTree => true
  | .buildTree => true
  | _ => false

/-- A signal that the handler took has `need_rescan` set, or the tree is being rebuilt. -/
def Heard (r : List State × Pc × State) : Prop :=
  (∃ t ∈ r.1, t.cycleCount ≠ 0) → r.2.2.needRescan = true ∨ r.2.1.rebuilding = true

/-- From one program point of the rebuild to the next. -/
theorem rebuilding_exec {env : Env} (hpc : pc.rebuilding = true) (hbuilds : pc.builds = false)
    (h : exec env pc s = some (pc', s')) : pc'.rebuilding = true := by
  cases pc with
  | resetCycleCount | freeTree => cases h; rfl
  | rescanClearStats =>
    unfold exec at h
    rw [(map_goto h).1]
    rfl
  | buildTree => cases hbuilds
  | _ => cases hpc

/-- One event keeps the requests. -/
theorem Heard.react {r r' : List State × Pc × State} {e : Event} (h : Heard r)
    (hr : Reach anyStep r.2.1 r.2.2) (hreact : react r e = some r') : Heard r' := by
  obtain ⟨hups, pc, s⟩ := r
  intro ht
  cases e with
  | stmt env =>
    obtain ⟨⟨pc', s'⟩, hexec, rfl⟩ := Option.map_eq_some_iff.1 hreact
    obtain ⟨t, ht, hcycle⟩ := ht
    dsimp only at ht hexec ⊢
    split_ifs at ht with hbuilds
    · cases ht
    have hbuilds' : pc.builds = false := Bool.eq_false_iff.2 hbuilds
    rcases h ⟨t, ht, hcycle⟩ with hn | hpc
    · by_cases hreset : pc = .resetNeedRescan
      · subst hreset
        cases hexec
        exact Or.inr rfl
      · exact Or.inl (exec_needRescan hr.holds hexec hbuilds' hreset hn)
    · exact Or.inr (rebuilding_exec hpc hbuilds' hexec)
  | hup =>
    simp only [IrqBalance.react] at hreact
    split_ifs at hreact with hpc
    cases hreact
    obtain ⟨t, ht, hcycle⟩ := ht
    dsimp only at ht ⊢
    unfold forceRescan
    split_ifs with hzero
    · -- an ignored signal is not one of those that count
      rcases List.mem_cons.1 ht with rfl | ht
      · exact absurd hzero hcycle
      · exact h ⟨t, ht, hcycle⟩
    · exact Or.inl rfl

theorem play_reach {opts : Options} {smpAffinity : ℤ → Cpumask} {events : List Event}
    {r : List State × Pc × State} (hopts : opts.numaAvail = false)
    (h : play opts smpAffinity events = some r) : Reach anyStep r.2.1 r.2.2 ∧ Heard r := by
  refine Loops.foldlM_inv (fun r : List State × Pc × State => Reach anyStep r.2.1 r.2.2 ∧ Heard r) ?_
    ⟨.init opts smpAffinity hopts, fun ⟨t, ht, _⟩ => absurd ht List.not_mem_nil⟩ h
  rintro e - r r' ⟨hr, hheard⟩ hreact
  refine ⟨?_, hheard.react hr hreact⟩
  obtain ⟨hups, pc, s⟩ := r
  cases e with
  | stmt env =>
    obtain ⟨next, hexec, rfl⟩ := Option.map_eq_some_iff.1 hreact
    exact hr.exec_any hexec
  | hup =>
    simp only [IrqBalance.react] at hreact
    split_ifs at hreact with hpc
    cases hreact
    exact hr.hup hpc

/-- **No request that arrives in a cycle with a nonzero `cycle_count` is lost**: at every test of
`need_rescan` it is set if such a signal has arrived since the tree was built. -/
theorem rescan_requested (opts : Options) (smpAffinity : ℤ → Cpumask) (events : List Event)
    (hups : List State) (s : State) (hopts : opts.numaAvail = false)
    (h : play opts smpAffinity events = some (hups, .rescanTest, s))
    (ht : ∃ t ∈ hups, t.cycleCount ≠ 0) : s.needRescan = true :=
  ((play_reach hopts h).2 ht).resolve_right fun hpc => by cases hpc

/-- Two cycles of the machine with two cpus; a signal arrives before the second. -/
def signalInSecondCycle : List Event :=
  List.replicate 13 (.stmt twoCpusEnv) ++ [.hup] ++ List.replicate 4 (.stmt twoCpusEnv)

theorem rescan_requested_second : ∃ hups s,
    play {} (fun _ => 0) signalInSecondCycle = some (hups, .rescanTest, s) ∧ s.needRescan = true := by
  have hsome : (play {} (fun _ => 0) signalInSecondCycle).map (fun r =>
      (r.1.map State.cycleCount, r.2.1)) = some ([1], .rescanTest) := by
    decide +kernel
  obtain ⟨⟨hups, pc, s⟩, hplay, e⟩ := Option.map_eq_some_iff.1 hsome
  simp only [Prod.mk.injEq] at e
  obtain ⟨hhups, rfl⟩ := e
  obtain ⟨t, ht, hcycle⟩ := List.mem_map.1 (hhups ▸ List.mem_cons_self : (1 : UInt64) ∈ _)
  exact ⟨hups, s, hplay, rescan_requested {} (fun _ => 0) signalInSecondCycle hups s rfl hplay
    ⟨t, ht, by rw [hcycle]; decide⟩⟩

/-- The first cycle; a signal arrives as soon as the handler is installed. -/
def signalInFirstCycle : List Event :=
  [.stmt twoCpusEnv, .hup] ++ List.replicate 7 (.stmt twoCpusEnv)

/-- A signal in the first cycle is ignored. -/
theorem rescan_ignored : ¬ ∀ (opts : Options) (smpAffinity : ℤ → Cpumask) (events : List Event)
    (hups : List State) (s : State), opts.numaAvail = false →
      play opts smpAffinity events = some (hups, .rescanTest, s) → hups ≠ [] →
        s.needRescan = true := by
  intro h
  have hsome : (play {} (fun _ => 0) signalInFirstCycle).map (fun r =>
      (r.1.length, r.2.1, r.2.2.needRescan)) = some (1, .rescanTest, false) := by
    decide +kernel
  obtain ⟨⟨hups, pc, s⟩, hplay, e⟩ := Option.map_eq_some_iff.1 hsome
  simp only [Prod.mk.injEq] at e
  obtain ⟨hlen, rfl, hn⟩ := e
  have hne : hups ≠ [] := fun hnil => by simp [hnil] at hlen
  rw [h {} (fun _ => 0) signalInFirstCycle hups s rfl hplay hne] at hn
  cases hn

end IrqBalance

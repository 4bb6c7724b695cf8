import IrqBalance.Rescan
import IrqBalance.UniqueNumbers
import IrqBalance.Counters

/-!
# The interrupts between two snapshots

`parse_proc_interrupts` stores a count for each line that it reads, and the count that was stored before next to
it (`parseProcInterrupts_counters`). An irq without a line keeps both. So the difference of the two is the number
of interrupts since the snapshot before if the irq has one line (`delta_iff`), but an irq that is no longer
listed keeps the difference that it had.
-/

namespace IrqBalance

open CString (Text loopBuffers)

variable {s s' t : State} {p : Pc × State} {pc pc' : Pc} {n : ℤ} {i : IrqId}

/-! ### The counts of a snapshot -/

/-- The counts that the lines have for the irq `n`. -/
def rows (n : ℤ) (ls : List (ℤ × Text)) : List UInt64 := (ls.filter fun l => l.1 = n).map lineCount

/-- The counts that `/proc/interrupts` has for the irq `n`, in front of the first special line. There is none if
it is not listed. -/
def fileRows (n : ℤ) (file : Option Text) (s : State) : List UInt64 :=
  match file with
  | none => []
  | some text => rows n (procIrqLines s text)

/-- Counts are stored one after the other. -/
def stored (c : UInt64 × UInt64) (l : List UInt64) : UInt64 × UInt64 := l.foldl (fun c row => (row, c.1)) c

theorem stored_concat (c : UInt64 × UInt64) (l : List UInt64) (row : UInt64) :
    stored c (l ++ [row]) = (row, (stored c l).1) := by
  unfold stored
  rw [List.foldl_concat]

theorem stored_fst (c : UInt64 × UInt64) (l : List UInt64) : (stored c l).1 = l.getLast?.getD c.1 := by
  rcases List.eq_nil_or_concat l with rfl | ⟨init, row, rfl⟩
  · rfl
  · rw [List.concat_eq_append, stored_concat, List.getLast?_concat]
    rfl

/-- The counts, the newest first. -/
def newest (c : UInt64 × UInt64) (l : List UInt64) : List UInt64 := l.reverse ++ [c.1, c.2]

/-- Storing leaves the two newest. -/
theorem newest_eq (c : UInt64 × UInt64) (l : List UInt64) :
    ∃ rest, newest c l = (stored c l).1 :: (stored c l).2 :: rest := by
  induction l using List.reverseRecOn with
  | nil => exact ⟨[], rfl⟩
  | append_singleton l row ih =>
    obtain ⟨rest, ih⟩ := ih
    refine ⟨(stored c l).2 :: rest, ?_⟩
    rw [stored_concat, ← ih, newest, newest, List.reverse_append]
    rfl

/-- **What `parse_proc_interrupts` does to the counters of an irq, when it does not ask for a rescan.** -/
theorem parseInterruptsLoop_counters (ls : List Text) (hi : getIrqInfo s n = some i)
    (hrescan : (parseInterruptsLoop ls s).needRescan = false) :
    (parseInterruptsLoop ls s).counters i = stored (s.counters i) (rows n (irqLines ls)) ∧
      ((s.irqs i).irqCount :: rows n (irqLines ls)).Pairwise (· ≤ ·) := by
  induction ls generalizing s with
  | nil => exact ⟨rfl, List.pairwise_singleton _ _⟩
  | cons line ls ih =>
    rw [parseInterruptsLoop] at hrescan ⊢
    rw [irqLines]
    cases hline : procLine line with
    | stop => exact ⟨rfl, List.pairwise_singleton _ _⟩
    | skip =>
      rw [hline] at hrescan
      exact ih hi hrescan
    | irq number rest =>
      rw [hline] at hrescan
      dsimp only at hrescan ⊢
      cases hj : getIrqInfo s number with
      | none => rw [hj] at hrescan; cases hrescan
      | some j =>
        rw [hj] at hrescan
        dsimp only at hrescan ⊢
        split_ifs at hrescan ⊢ with hcolumns hlt
        have hcount : (s.irqs j).irqCount ≤ lineCount (number, rest) := UInt64.not_lt.1 hlt
        set g : IrqInfo → IrqInfo := fun info =>
          { info with lastIrqCount := info.irqCount, irqCount := (sumColumns rest.length rest).1 }
        have hget : getIrqInfo (s.modIrq j g) n = some i := by
          rw [getIrqInfo_modIrq (by intro _; rfl)]
          exact hi
        obtain ⟨hcounters, hsorted⟩ := ih hget hrescan
        rw [hcounters]
        by_cases hn : number = n
        · -- a line of the irq
          subst hn
          have hji : j = i := Option.some.inj (hj.symm.trans hi)
          subst hji
          have hrows : rows number ((number, rest) :: irqLines ls) =
              lineCount (number, rest) :: rows number (irqLines ls) := by simp [rows]
          have hself : (s.modIrq j g).counters j = (lineCount (number, rest), (s.counters j).1) := by
            rw [State.counters, State.modIrq_irqs_self]
            rfl
          rw [State.modIrq_irqs_self] at hsorted
          rw [hrows, hself]
          refine ⟨rfl, List.pairwise_cons.2 ⟨fun row hrow => ?_, hsorted⟩⟩
          rcases List.mem_cons.1 hrow with rfl | hrow
          · exact hcount
          · exact UInt64.le_trans hcount ((List.pairwise_cons.1 hsorted).1 row hrow)
        · -- a line of another irq
          have hrows : rows n ((number, rest) :: irqLines ls) = rows n (irqLines ls) := by simp [rows, hn]
          have hji : i ≠ j := by
            rintro rfl
            exact hn ((getIrqInfo_eq_some hj).2.symm.trans (getIrqInfo_eq_some hi).2)
          have hother : (s.modIrq j g).counters i = s.counters i := by
            rw [State.counters, State.modIrq_irqs_of_ne hji, State.counters]
          rw [State.modIrq_irqs_of_ne hji] at hsorted
          rw [hrows, hother]
          exact ⟨rfl, hsorted⟩

theorem parseProcInterrupts_counters (file : Option Text) (hi : getIrqInfo s n = some i)
    (hrescan : (parseProcInterrupts file s).needRescan = false) :
    (parseProcInterrupts file s).counters i = stored (s.counters i) (fileRows n file s) ∧
      ((s.irqs i).irqCount :: fileRows n file s).Pairwise (· ≤ ·) := by
  cases file with
  | none => exact ⟨rfl, List.pairwise_singleton _ _⟩
  | some text => exact parseInterruptsLoop_counters _ hi hrescan

/-! ### From one call to the next -/

/-- Neither builds nor calls `parse_proc_interrupts`. -/
def Pc.Between (pc : Pc) : Prop := pc.phase ≠ .bare ∧ pc.readsInterrupts = false

theorem Along.onward (h : Along Pc.Between p pc s) : Onward p pc s := by
  induction h with
  | refl => exact .refl
  | step _ hpc hexec ih => exact ih.step hpc.1 hexec
  | hup _ hpc ih => exact ih.hup hpc

theorem Along.counters_eq (h : Along Pc.Between p pc s) (hp : Reach anyStep p.1 p.2) :
    s.counters = p.2.counters := by
  induction h with
  | refl => rfl
  | step hrun hpc hexec ih => exact (exec_counters (hrun.reach hp).holds hpc.1 hpc.2 hexec).trans ih
  | hup _ _ ih =>
    rw [← ih]
    unfold forceRescan
    split_ifs <;> rfl

/-! ### The difference -/

/-- `irq_count - last_irq_count`. -/
def State.delta (s : State) (i : IrqId) : UInt64 := (s.irqs i).irqCount - (s.irqs i).lastIrqCount

/-- The interrupts between two snapshots with the given counts of an irq, whose count was `count` before them: the
difference of the counts, and none when the irq is no longer listed. -/
def arrived (count : UInt64) (rows₁ rows₂ : List UInt64) : ℤ :=
  match rows₂.getLast? with
  | none => 0
  | some row => row.toNat - (rows₁.getLast?.getD count).toNat

/-- When the irq is no longer listed, the two newest counts that the program has are equal; when it is listed, no
count of the second snapshot but the last is new. -/
def NoneStale (c : UInt64 × UInt64) (rows₁ rows₂ : List UInt64) : Prop :=
  if rows₂ = [] then ∀ a b rest, newest c rows₁ = a :: b :: rest → a = b
  else ∀ row ∈ rows₂.dropLast, row = rows₁.getLast?.getD c.1

theorem getLast_eq_iff {a : UInt64} {l : List UInt64} (h : (a :: l).Pairwise (· ≤ ·)) :
    l.getLast?.getD a = a ↔ ∀ row ∈ l, row = a := by
  obtain ⟨hhead, htail⟩ := List.pairwise_cons.1 h
  rcases List.eq_nil_or_concat l with rfl | ⟨init, last, rfl⟩
  · simp
  · rw [List.concat_eq_append] at hhead htail ⊢
    rw [List.getLast?_concat, Option.getD_some]
    constructor
    · rintro rfl row hrow
      rcases List.mem_append.1 hrow with hinit | hlast
      · refine UInt64.le_antisymm ?_ (hhead row hrow)
        exact (List.pairwise_append.1 htail).2.2 row hinit last (List.mem_singleton_self last)
      · exact List.mem_singleton.1 hlast
    · exact fun hall => hall last (List.mem_append_right init (List.mem_singleton_self last))

/-- The difference after two calls. -/
theorem stored_delta_iff {c : UInt64 × UInt64} {rows₁ rows₂ : List UInt64}
    (hforward : (stored c rows₁).2 ≤ (stored c rows₁).1)
    (hsorted : ((stored c rows₁).1 :: rows₂).Pairwise (· ≤ ·)) :
    ((((stored (stored c rows₁) rows₂).1 - (stored (stored c rows₁) rows₂).2).toNat : ℤ) =
      arrived c.1 rows₁ rows₂ ↔ NoneStale c rows₁ rows₂) := by
  obtain ⟨rest, hnewest⟩ := newest_eq c rows₁
  rw [stored_fst] at hsorted
  rcases List.eq_nil_or_concat rows₂ with rfl | ⟨init, row, rfl⟩
  · -- not listed
    have hdelta : stored (stored c rows₁) [] = stored c rows₁ := rfl
    have harrived : arrived c.1 rows₁ [] = 0 := rfl
    rw [hdelta, harrived, NoneStale, if_pos rfl, hnewest, UInt64.toNat_sub_of_le _ _ hforward]
    rw [UInt64.le_iff_toNat_le] at hforward
    constructor
    · intro hzero a b rest' heq
      cases heq
      rw [← UInt64.toNat_inj]
      omega
    · intro hall
      have heq := hall _ _ _ rfl
      rw [heq]
      simp
  · -- listed
    rw [List.concat_eq_append] at hsorted ⊢
    rw [← List.cons_append] at hsorted
    obtain ⟨hinit, -, hrow⟩ := List.pairwise_append.1 hsorted
    have hprev : init.getLast?.getD (rows₁.getLast?.getD c.1) ≤ row := by
      refine hrow _ ?_ row (List.mem_singleton_self row)
      rcases List.eq_nil_or_concat init with rfl | ⟨init', last, rfl⟩
      · exact List.mem_cons_self
      · simp
    have harrived : arrived c.1 rows₁ (init ++ [row]) = row.toNat - (rows₁.getLast?.getD c.1).toNat := by
      rw [arrived, List.getLast?_concat]
    rw [stored_concat, stored_fst, stored_fst, harrived, NoneStale, if_neg (by simp), List.dropLast_concat,
      ← getLast_eq_iff hinit]
    dsimp only
    rw [UInt64.toNat_sub_of_le _ _ hprev, ← UInt64.toNat_inj]
    rw [UInt64.le_iff_toNat_le] at hprev
    omega

theorem parseProcInterrupts_static (file : Option Text) (s : State) :
    (parseProcInterrupts file s).static = s.static :=
  static_of_noStats (parseProcInterrupts_noStats file s)

theorem phase_of_readsInterrupts (hread : pc.readsInterrupts = true) : pc.phase = .live := by
  cases pc with
  | parseInterrupts | loopInterrupts | rescanInterrupts | settleInterrupts => rfl
  | _ => cases hread

/-- **After two calls of `parse_proc_interrupts` that do not ask for a rescan, the difference of the counters of an
irq is the number of interrupts between the snapshots, if and only if none of its counts is stale.** -/
theorem delta_iff {env₁ env₂ : Env} {pc₁ pc₂ q₁ q₂ : Pc} {s₁ s₂ t₁ t₂ : State} (h : Reach anyStep pc₁ s₁)
    (hread₁ : pc₁.readsInterrupts = true) (hexec₁ : exec env₁ pc₁ s₁ = some (q₁, t₁))
    (hrescan₁ : t₁.needRescan = false) (hrun : Along Pc.Between (q₁, t₁) pc₂ s₂)
    (hread₂ : pc₂.readsInterrupts = true) (hexec₂ : exec env₂ pc₂ s₂ = some (q₂, t₂))
    (hrescan₂ : t₂.needRescan = false) (hi : i ∈ t₂.interruptsDb) :
    ((t₂.delta i).toNat : ℤ) = arrived (s₁.irqs i).irqCount (fileRows (t₂.irqs i).irq env₁.procInterrupts s₁)
        (fileRows (t₂.irqs i).irq env₂.procInterrupts s₂) ↔
      NoneStale (s₁.counters i) (fileRows (t₂.irqs i).irq env₁.procInterrupts s₁)
        (fileRows (t₂.irqs i).irq env₂.procInterrupts s₂) := by
  have hreach₁ : Reach anyStep q₁ t₁ := h.exec_any hexec₁
  have hreach₂ : Reach anyStep pc₂ s₂ := hrun.reach hreach₁
  have hlive₂ := phase_of_readsInterrupts hread₂
  have ht₁ := exec_readsInterrupts hread₁ hexec₁
  have ht₂ := exec_readsInterrupts hread₂ hexec₂
  -- the irq is found under its number at both calls
  have estatic₁ : t₁.static = s₁.static := ht₁ ▸ parseProcInterrupts_static _ s₁
  have estatic₂ : t₂.static = s₂.static := ht₂ ▸ parseProcInterrupts_static _ s₂
  have emean : s₂.static = t₁.static := by
    refine (hrun.onward.static_eq hreach₁).resolve_left ?_
    rw [hlive₂]
    decide
  have hi₂ : i ∈ s₂.interruptsDb := by rwa [interruptsDb_of_static estatic₂] at hi
  have hnumber : s₂.number i = (t₂.irqs i).irq := congrFun (number_of_static estatic₂).symm i
  have hfound₂ : getIrqInfo s₂ (t₂.irqs i).irq = some i := by
    rw [← hnumber]
    exact (UniqueNumbers.of_nodup hreach₂.number_nodup).found i (List.mem_append_left _ hi₂)
  have hfound₁ : getIrqInfo s₁ (t₂.irqs i).irq = some i := by
    rw [← getIrqInfo_of_static (emean.trans estatic₁)]
    exact hfound₂
  -- the counters behind the two calls
  subst ht₁ ht₂
  obtain ⟨hcounters₁, -⟩ := parseProcInterrupts_counters _ hfound₁ hrescan₁
  obtain ⟨hcounters₂, hsorted₂⟩ := parseProcInterrupts_counters _ hfound₂ hrescan₂
  have hbetween : s₂.counters i =
      stored (s₁.counters i) (fileRows _ env₁.procInterrupts s₁) :=
    (congrFun (hrun.counters_eq hreach₁) i).trans hcounters₁
  rw [hbetween] at hcounters₂
  have hforward : (s₂.counters i).2 ≤ (s₂.counters i).1 := hreach₂.countsForward hlive₂ i hi₂
  have hsorted : ((s₂.counters i).1 :: fileRows _ env₂.procInterrupts s₂).Pairwise (· ≤ ·) := hsorted₂
  rw [hbetween] at hforward hsorted
  have hdelta : (parseProcInterrupts env₂.procInterrupts s₂).delta i =
      ((parseProcInterrupts env₂.procInterrupts s₂).counters i).1 -
        ((parseProcInterrupts env₂.procInterrupts s₂).counters i).2 := rfl
  rw [hdelta, hcounters₂]
  exact stored_delta_iff hforward hsorted

/-- The first cycle up to its `parse_proc_interrupts`. -/
theorem twoCpus_between : ∃ s₁ t₁ s₂, Reach anyStep .parseInterrupts s₁ ∧
    exec twoCpusEnv .parseInterrupts s₁ = some (.parseStat, t₁) ∧ t₁.needRescan = false ∧
    Along Pc.Between (.parseStat, t₁) .loopInterrupts s₂ ∧
    execs (List.replicate 6 twoCpusEnv) (.start, State.initial {} fun _ => 0) = some (.loopInterrupts, s₂) := by
  have hrun : ((execs (List.replicate 2 twoCpusEnv) (.start, State.initial {} fun _ => 0)).bind fun r₁ =>
      (exec twoCpusEnv r₁.1 r₁.2).bind fun r₂ => (exec twoCpusEnv r₂.1 r₂.2).bind fun r₃ =>
      (exec twoCpusEnv r₃.1 r₃.2).bind fun r₄ => (exec twoCpusEnv r₄.1 r₄.2).map fun r₅ =>
        (r₂.2.needRescan, [r₁.1, r₂.1, r₃.1, r₄.1, r₅.1])) =
      some (false, [.parseInterrupts, .parseStat, .loop, .loopClearStats, .loopInterrupts]) := by
    decide +kernel
  obtain ⟨⟨pc₁, s₁⟩, h₁, hrun⟩ := Option.bind_eq_some_iff.1 hrun
  obtain ⟨⟨pc₂, t₁⟩, h₂, hrun⟩ := Option.bind_eq_some_iff.1 hrun
  obtain ⟨⟨pc₃, u₁⟩, h₃, hrun⟩ := Option.bind_eq_some_iff.1 hrun
  obtain ⟨⟨pc₄, u₂⟩, h₄, hrun⟩ := Option.bind_eq_some_iff.1 hrun
  obtain ⟨⟨pc₅, s₂⟩, h₅, hrun⟩ := Option.map_eq_some_iff.1 hrun
  simp only [Prod.mk.injEq, List.cons.injEq, and_true] at hrun
  obtain ⟨hrescan, rfl, rfl, rfl, rfl, rfl⟩ := hrun
  refine ⟨s₁, t₁, s₂, (Reach.init {} (fun _ => 0) rfl).execs_any h₁, h₂, hrescan, ?_, ?_⟩
  · have hbetween : ∀ {q : Pc}, q.phase = .live → q.readsInterrupts = false → q.Between := by
      intro q hq hread
      refine ⟨?_, hread⟩
      rw [hq]
      decide
    have h₃' : Along Pc.Between (Pc.parseStat, t₁) .loop u₁ := Along.refl.step (hbetween rfl rfl) h₃
    exact (h₃'.step (hbetween rfl rfl) h₄).step (hbetween rfl rfl) h₅
  · have hsplit : List.replicate 6 twoCpusEnv =
        List.replicate 2 twoCpusEnv ++ [twoCpusEnv, twoCpusEnv, twoCpusEnv, twoCpusEnv] := rfl
    unfold execs at h₁ ⊢
    rw [hsplit, List.foldlM_append, h₁]
    simp [h₂, h₃, h₄, h₅]

/-- The machine after four more interrupts. -/
def fourMoreEnv : Env where
  procInterrupts := some "   CPU0 CPU1\n 10: 8 7 GIC eth0\n".toList

theorem delta_iff_fourMore : ∃ s₁ s₂ t₂, exec fourMoreEnv .loopInterrupts s₂ = some (.loopStat, t₂) ∧
    0 ∈ t₂.interruptsDb ∧ t₂.delta 0 = 4 ∧
    (((t₂.delta 0).toNat : ℤ) =
        arrived (s₁.irqs 0).irqCount (fileRows (t₂.irqs 0).irq twoCpusEnv.procInterrupts s₁)
          (fileRows (t₂.irqs 0).irq fourMoreEnv.procInterrupts s₂) ↔
      NoneStale (s₁.counters 0) (fileRows (t₂.irqs 0).irq twoCpusEnv.procInterrupts s₁)
        (fileRows (t₂.irqs 0).irq fourMoreEnv.procInterrupts s₂)) := by
  obtain ⟨s₁, t₁, s₂, h₁, hexec₁, hrescan₁, hbetween, hrun⟩ := twoCpus_between
  have hfacts : (execs (List.replicate 6 twoCpusEnv) (.start, State.initial {} fun _ => 0)).map (fun r =>
      let t₂ := parseProcInterrupts fourMoreEnv.procInterrupts r.2
      (t₂.needRescan, t₂.interruptsDb, t₂.delta 0)) = some (false, [0], 4) := by
    decide +kernel
  rw [hrun] at hfacts
  simp only [Option.map_some, Option.some.injEq, Prod.mk.injEq] at hfacts
  obtain ⟨hrescan₂, hdb, hdelta⟩ := hfacts
  have hi : 0 ∈ (parseProcInterrupts fourMoreEnv.procInterrupts s₂).interruptsDb := by
    rw [hdb]
    exact List.mem_singleton_self 0
  exact ⟨s₁, s₂, _, rfl, hi, hdelta, delta_iff h₁ rfl hexec₁ hrescan₁ hbetween rfl rfl hrescan₂ hi⟩

/-- The machine after the irq has been removed. -/
def removedEnv : Env where
  procInterrupts := some "   CPU0 CPU1\n".toList

/-- An irq that is no longer listed keeps its difference, and no rescan is asked for. -/
theorem delta_stays : ¬∀ s₁ t₁ s₂ t₂ i, Reach anyStep .parseInterrupts s₁ →
    exec twoCpusEnv .parseInterrupts s₁ = some (.parseStat, t₁) → t₁.needRescan = false →
    Along Pc.Between (.parseStat, t₁) .loopInterrupts s₂ → exec removedEnv .loopInterrupts s₂ = some (.loopStat, t₂) →
    t₂.needRescan = false → i ∈ t₂.interruptsDb →
    ((t₂.delta i).toNat : ℤ) = arrived (s₁.irqs i).irqCount
      (fileRows (t₂.irqs i).irq twoCpusEnv.procInterrupts s₁)
      (fileRows (t₂.irqs i).irq removedEnv.procInterrupts s₂) := by
  intro hclaim
  obtain ⟨s₁, t₁, s₂, h₁, hexec₁, hrescan₁, hbetween, hrun⟩ := twoCpus_between
  have hfacts : (execs (List.replicate 6 twoCpusEnv) (.start, State.initial {} fun _ => 0)).map (fun r =>
      let t₂ := parseProcInterrupts removedEnv.procInterrupts r.2
      (t₂.needRescan, t₂.interruptsDb, t₂.delta 0, fileRows (t₂.irqs 0).irq removedEnv.procInterrupts r.2)) =
      some (false, [0], 11, []) := by
    decide +kernel
  rw [hrun] at hfacts
  simp only [Option.map_some, Option.some.injEq, Prod.mk.injEq] at hfacts
  obtain ⟨hrescan₂, hdb, hdelta, hrows⟩ := hfacts
  have hi : 0 ∈ (parseProcInterrupts removedEnv.procInterrupts s₂).interruptsDb := by
    rw [hdb]
    exact List.mem_singleton_self 0
  have heq := hclaim s₁ t₁ s₂ _ 0 h₁ hexec₁ hrescan₁ hbetween rfl hrescan₂ hi
  rw [hdelta, hrows] at heq
  change ((11 : UInt64).toNat : ℤ) = 0 at heq
  exact absurd heq (by decide)

end IrqBalance

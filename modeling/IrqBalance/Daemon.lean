import IrqBalance.Lifecycle

/-!
# `irqbalance.c`: from the command line to the exit

`Reach` leaves out how `main` gets to its loop and how it leaves it. Here is all of it: the other options, the
variables of the environment, `daemon` and the pidfile, `keep_going` with the handler that clears it, one-shot mode,
and what is freed at the end. The signals are blocked up to the loop.

What every state of `Reach` has, the daemon has at the same place (`daemon_refines`). After a signal to stop, at
most 24 statements are executed (`daemon_stops`), and in one-shot mode the masks are written once
(`one_shot_writes`). `daemon_files` is about the pidfile: it is removed at the end even if it belongs to another
daemon, which was there before.
-/

namespace IrqBalance

open CString (Text strtol toInt)

/-! ### The command line -/

/-- The globals of `irqbalance.c`, and the files outside. Those that choose what is logged are left out. -/
structure Daemon where
  oneShotMode : Bool := false
  foregroundMode : Bool := false
  pidfile : Option Text := none
  sleepInterval : ℤ := 10
  keepGoing : Bool := true
  /-- the contents of the files, by their paths -/
  files : Text → Option Text
  state : State

/-- All options of `parse_command_line`. -/
inductive Arg
  | option (opt : Opt)
  | banscript (arg : Text)
  | debug
  | foreground
  | oneshot
  | pid (arg : Text)
  | journal
  | interval (arg : Text)
  | unknown

/-- One round of the switch of `parse_command_line`; `none` stands for `exit(1)`. -/
def parseArg (d : Daemon) : Arg → Option Daemon
  | .option opt => (parseOpt d.state.opts opt).map fun opts => { d with state := { d.state with opts := opts } }
  -- `INCLUDE_BANSCRIPT` is not defined
  | .banscript _ => none
  | .debug | .foreground | .journal => some { d with foregroundMode := true }
  | .oneshot => some { d with oneShotMode := true }
  | .pid arg => some { d with pidfile := some arg }
  | .interval arg => if toInt (strtol arg) < 1 then none else some { d with sleepInterval := toInt (strtol arg) }
  | .unknown => none

/-- What the statements of the daemon read from outside. -/
structure DaemonEnv extends Env where
  args : List Arg := []
  /-- `getenv("IRQBALANCE_ONESHOT")` -/
  oneshotVar : Bool := false
  /-- `getenv("IRQBALANCE_DEBUG")` -/
  debugVar : Bool := false
  /-- `sysconf(_SC_CLK_TCK)`, with `none` for -1 -/
  clkTck : Option ℕ := some 100
  /-- `daemon(0, 0)` returns an error -/
  daemonFails : Bool := false
  /-- `open` fails, even if there is no such file -/
  openFails : Bool := false
  pid : ℕ := 1

/-- What `main` does between `parse_command_line` and `build_object_tree`. -/
def readEnviron (env : DaemonEnv) (d : Daemon) : Daemon :=
  { d with
    oneShotMode := d.oneShotMode || env.oneshotVar
    foregroundMode := d.foregroundMode || env.debugVar
    state := { d.state with opts := { d.state.opts with hz := env.clkTck.getD 100 } } }

/-- `free_cl_opts`. -/
def freeClOpts (s : State) : State :=
  { s with
    opts := { s.opts with clBannedModules := [], clBannedIrqs := [], bannedIrqNames := [] }
    bannedIrqs := [] }

/-- Write the pidfile, unless it is there. -/
def writePidfile (env : DaemonEnv) (d : Daemon) : Daemon :=
  match d.pidfile with
  | none => d
  | some path =>
    -- `O_EXCL`
    if (d.files path).isSome || env.openFails then d
    else { d with files := Function.update d.files path (some (env.pid.repr.toList ++ ['\n'])) }

/-- Remove the pidfile. -/
def removePidfile (d : Daemon) : Daemon :=
  if d.foregroundMode then d
  else match d.pidfile with
    | none => d
    | some path => { d with files := Function.update d.files path none }

/-! ### `main` -/

/-- The program points of `main`. Those from `force_rebalance_irq` to the test of `keep_going` are those of `Pc`. -/
inductive Stage
  | commandLine
  /-- `build_object_tree` and the test of `core_count` -/
  | build
  /-- `daemon(0, 0)`, unless in the foreground -/
  | detach
  | writePidfile
  | loop (pc : Pc)
  /-- `if (one_shot_mode) keep_going = 0` -/
  | oneShot
  | freeTree
  | freeOpts
  | removePidfile
  | exited (status : ℕ)
deriving DecidableEq

/-- Where the loop goes on: it has the test of `one_shot_mode` in front of `cycle_count++`. -/
def Stage.ofPc : Pc → Stage
  | .countCycle => .oneShot
  | .done => .freeTree
  | pc => .loop pc

/-- One statement of the daemon. -/
def Daemon.exec (env : DaemonEnv) : Stage → Daemon → Option (Stage × Daemon)
  | .commandLine, d =>
    match env.args.foldlM parseArg d with
    | none => some (.exited 1, d)
    | some d => some (.build, readEnviron env d)
  | .build, d => do
    let (pc, s) ← IrqBalance.exec env.toEnv .start d.state
    some (if pc = .done then .exited 0 else .detach, { d with state := s })
  | .detach, d =>
    some (if d.foregroundMode then .loop .forceRebalance else if env.daemonFails then .exited 1 else .writePidfile, d)
  | .writePidfile, d => some (.loop .forceRebalance, writePidfile env d)
  | .loop pc, d => do
    let (pc', s) ← IrqBalance.exec { env.toEnv with keepGoing := d.keepGoing } pc d.state
    some (.ofPc pc', { d with state := s })
  | .oneShot, d => some (.loop .countCycle, if d.oneShotMode then { d with keepGoing := false } else d)
  | .freeTree, d => some (.freeOpts, { d with state := freeObjectTree d.state })
  | .freeOpts, d => some (.removePidfile, { d with state := freeClOpts d.state })
  | .removePidfile, d => some (.exited 0, removePidfile d)
  | .exited _, _ => none

/-- The handlers are installed, and the signals no longer blocked. -/
def Stage.unblocked : Stage → Bool
  | .loop _ | .oneShot | .freeTree | .freeOpts | .removePidfile => true
  | _ => false

/-- What may happen: the next statement, and the delivery of a signal. -/
inductive DaemonEvent
  | stmt (env : DaemonEnv)
  /-- `SIGINT`, `SIGTERM`, `SIGUSR1` or `SIGUSR2` -/
  | stop
  | hup

/-- A run so far: the statements that were executed, with what they read and the globals they started with. -/
structure DaemonRun where
  log : List (Stage × DaemonEnv × Daemon) := []
  stage : Stage := .commandLine
  daemon : Daemon

/-- One event. -/
def DaemonRun.event (r : DaemonRun) : DaemonEvent → Option DaemonRun
  | .stmt env => (r.daemon.exec env r.stage).map fun next =>
    { log := r.log ++ [(r.stage, env, r.daemon)], stage := next.1, daemon := next.2 }
  | .stop => if r.stage.unblocked then some { r with daemon := { r.daemon with keepGoing := false } } else none
  | .hup =>
    if r.stage.unblocked then some { r with daemon := { r.daemon with state := forceRescan r.daemon.state } } else none

/-- A run goes on. -/
def DaemonRun.events (r : DaemonRun) (events : List DaemonEvent) : Option DaemonRun :=
  events.foldlM DaemonRun.event r

/-- The start of `main`. -/
def DaemonRun.initial (opts : Options) (smpAffinity : ℤ → Cpumask) (files : Text → Option Text) : DaemonRun where
  daemon := { files := files, state := State.initial opts smpAffinity }

variable {r r' : DaemonRun} {d d' : Daemon} {env : DaemonEnv} {stage stage' : Stage} {pc pc' : Pc} {s s' : State}

/-- What every event keeps, a run keeps. -/
theorem DaemonRun.events_inv (P : DaemonRun → Prop) {l : List DaemonEvent}
    (h : ∀ e ∈ l, ∀ r r', P r → r.event e = some r' → P r') (hr : P r) (hl : r.events l = some r') : P r' :=
  Loops.foldlM_inv P h hr hl

/-! ### The runs of the loop -/

/-- The place of the daemon in the loop. -/
def Stage.point : Stage → Option Pc
  | .build => some .start
  | .detach | .writePidfile => some .forceRebalance
  | .loop pc => some pc
  | .oneShot => some .countCycle
  | .freeTree => some .done
  | _ => none

theorem Stage.ofPc_point (pc : Pc) : (Stage.ofPc pc).point = some pc := by
  cases pc <;> rfl

/-- No statement goes back to the start. -/
theorem exec_ne_start {env : Env} (h : IrqBalance.exec env pc s = some (pc', s')) : pc' ≠ .start := by
  rintro rfl
  have hnext := exec_next h
  generalize env.keepGoing = keepGoing at hnext
  revert hnext
  cases keepGoing <;> cases pc <;> decide

/-- The loop is left at the test of `keep_going`. -/
theorem exec_done {env : Env} (h : IrqBalance.exec env pc s = some (.done, s')) (hpc : pc ≠ .start) :
    pc = .loop ∧ s' = s ∧ env.keepGoing = false := by
  have hnext := exec_next h
  cases pc with
  | start => exact absurd rfl hpc
  | loop =>
    have hstate : s = s' := congrArg Prod.snd (Option.some.inj h)
    refine ⟨rfl, hstate.symm, Bool.eq_false_iff.2 fun hkeep => ?_⟩
    simp [Pc.next, hkeep] at hnext
  | _ => simp [Pc.next] at hnext

/-- What holds of a run at any time. -/
structure DaemonRun.Ok (r : DaemonRun) : Prop where
  commandLine : r.stage = .commandLine → ∃ opts smpAffinity, opts.numaAvail = false ∧
    r.daemon.state = State.initial opts smpAffinity
  reach : ∀ pc ∈ r.stage.point, Reach anyStep pc r.daemon.state
  started : r.stage ≠ .loop .start
  live : r.stage = .freeTree → Live r.daemon.state
  freed : r.stage = .freeOpts ∨ r.stage = .removePidfile → Bare r.daemon.state

theorem parseOpt_numaAvail {opts opts' : Options} {opt : Opt} (h : parseOpt opts opt = some opts') :
    opts'.numaAvail = opts.numaAvail := by
  cases opt with
  | policyScript => cases h; rfl
  | banIrqName arg => cases h; rfl
  | banMod arg =>
    cases h
    unfold addClBannedModule
    split_ifs <;> rfl
  | banIrq arg =>
    unfold parseOpt at h
    dsimp only at h
    split_ifs at h
    cases h
    unfold addClBannedIrq
    split_ifs <;> rfl
  | deepestCache arg | hintPolicy arg | powerThresh arg =>
    unfold parseOpt at h
    dsimp only at h
    split_ifs at h <;> cases h <;> rfl

/-- Parsing the command line changes only the options of the state. -/
theorem parseArgs_initial {args : List Arg} (h : args.foldlM parseArg d = some d')
    (hd : ∃ opts smpAffinity, opts.numaAvail = false ∧ d.state = State.initial opts smpAffinity) :
    ∃ opts smpAffinity, opts.numaAvail = false ∧ d'.state = State.initial opts smpAffinity := by
  refine Loops.foldlM_inv (fun d : Daemon => ∃ opts smpAffinity, opts.numaAvail = false ∧
    d.state = State.initial opts smpAffinity) (fun arg _ d d' ⟨opts, smpAffinity, hnuma, e⟩ harg => ?_) hd h
  cases arg with
  | option opt =>
    obtain ⟨opts', hopts', rfl⟩ := Option.map_eq_some_iff.1 harg
    rw [e] at hopts' ⊢
    exact ⟨opts', smpAffinity, (parseOpt_numaAvail hopts').trans hnuma, rfl⟩
  | banscript | unknown => cases harg
  | interval arg =>
    unfold parseArg at harg
    dsimp only at harg
    split_ifs at harg
    cases harg
    exact ⟨opts, smpAffinity, hnuma, e⟩
  | debug | foreground | oneshot | pid | journal =>
    cases harg
    exact ⟨opts, smpAffinity, hnuma, e⟩

theorem DaemonRun.ok_initial {opts : Options} {smpAffinity : ℤ → Cpumask} {files : Text → Option Text}
    (hopts : opts.numaAvail = false) : (DaemonRun.initial opts smpAffinity files).Ok where
  commandLine _ := ⟨opts, smpAffinity, hopts, rfl⟩
  reach _ hpc := by cases hpc
  started h := by cases h
  live h := by cases h
  freed h := by rcases h with h | h <;> cases h

theorem writePidfile_state (env : DaemonEnv) (d : Daemon) : (writePidfile env d).state = d.state := by
  unfold writePidfile
  split
  · rfl
  · split_ifs <;> rfl

theorem DaemonRun.ok_exited (l : List (Stage × DaemonEnv × Daemon)) (status : ℕ) (d : Daemon) :
    DaemonRun.Ok { log := l, stage := .exited status, daemon := d } where
  commandLine h := by cases h
  reach _ hpc := by cases hpc
  started h := by cases h
  live h := by cases h
  freed h := by rcases h with h | h <;> cases h

/-- In front of the loop and in it. -/
theorem DaemonRun.ok_reach {l : List (Stage × DaemonEnv × Daemon)} (pc : Pc) (hstage : stage.point = some pc)
    (hstart : pc ≠ .start ∨ stage = .build) (hlive : pc = .done → Live d.state) (h : Reach anyStep pc d.state) :
    DaemonRun.Ok { log := l, stage := stage, daemon := d } where
  commandLine e := by
    dsimp only at e
    rw [e] at hstage
    cases hstage
  reach pc' hpc' := by
    dsimp only at hpc'
    rw [hstage] at hpc'
    cases hpc'
    exact h
  started e := by
    dsimp only at e
    subst e
    cases hstage
    exact hstart.elim (fun hne => hne rfl) fun e => by cases e
  live e := by
    dsimp only at e
    subst e
    cases hstage
    exact hlive rfl
  freed e := by
    dsimp only at e
    rcases e with e | e <;> · subst e; cases hstage

/-- **One statement keeps the invariant.** -/
theorem DaemonRun.Ok.stmt (h : r.Ok) (hexec : r.daemon.exec env r.stage = some (stage', d'))
    (l : List (Stage × DaemonEnv × Daemon)) : DaemonRun.Ok { log := l, stage := stage', daemon := d' } := by
  obtain ⟨log, stage, d⟩ := r
  obtain ⟨hcommand, hreach, hstarted, hlive, hfreed⟩ := h
  dsimp only at hcommand hreach hstarted hlive hfreed hexec
  cases stage with
  | commandLine =>
    rw [Daemon.exec] at hexec
    split at hexec
    · cases hexec
      exact ok_exited ..
    · next d hparse =>
      cases hexec
      obtain ⟨opts, smpAffinity, hnuma, e⟩ := parseArgs_initial hparse (hcommand rfl)
      refine ok_reach .start rfl (Or.inr rfl) (fun e => by cases e) ?_
      unfold readEnviron
      dsimp only
      rw [e]
      exact Reach.init { opts with hz := env.clkTck.getD 100 } smpAffinity hnuma
  | build =>
    rw [Daemon.exec] at hexec
    obtain ⟨⟨pc, s⟩, hbuild, hexec⟩ := Option.bind_eq_some_iff.1 hexec
    have hs := (hreach .start rfl).exec_any hbuild
    obtain ⟨u, -, hgoto⟩ := Option.bind_eq_some_iff.1 hbuild
    cases hexec
    split_ifs at hgoto <;> cases hgoto
    · exact ok_exited ..
    · exact ok_reach .forceRebalance rfl (Or.inl (by decide)) (fun e => by cases e) hs
  | detach =>
    have hs := hreach .forceRebalance rfl
    cases hexec
    split_ifs
    · exact ok_reach .forceRebalance rfl (Or.inl (by decide)) (fun e => by cases e) hs
    · exact ok_exited ..
    · exact ok_reach .forceRebalance rfl (Or.inl (by decide)) (fun e => by cases e) hs
  | writePidfile =>
    have hs := hreach .forceRebalance rfl
    cases hexec
    refine ok_reach .forceRebalance rfl (Or.inl (by decide)) (fun e => by cases e) ?_
    rw [writePidfile_state]
    exact hs
  | loop pc =>
    rw [Daemon.exec] at hexec
    obtain ⟨⟨pc', s⟩, hstmt, hexec⟩ := Option.bind_eq_some_iff.1 hexec
    have hs := hreach pc rfl
    cases hexec
    refine ok_reach pc' (Stage.ofPc_point pc') (Or.inl (exec_ne_start hstmt)) ?_ (hs.exec_any hstmt)
    rintro rfl
    obtain ⟨rfl, rfl, -⟩ := exec_done hstmt fun e => hstarted (congrArg Stage.loop e)
    exact hs.live rfl
  | oneShot =>
    have hs := hreach .countCycle rfl
    cases hexec
    refine ok_reach .countCycle rfl (Or.inl (by decide)) (fun e => by cases e) ?_
    split_ifs <;> exact hs
  | freeTree =>
    cases hexec
    exact ⟨by simp, by simp [Stage.point], by simp, by simp, fun _ => (hlive rfl).free⟩
  | freeOpts =>
    cases hexec
    refine ⟨by simp, by simp [Stage.point], by simp, by simp, fun _ => ?_⟩
    obtain ⟨htreeless, hdb, -, hlist⟩ := hfreed (Or.inl rfl)
    exact ⟨{ htreeless with }, hdb, rfl, hlist⟩
  | removePidfile =>
    cases hexec
    exact ok_exited ..
  | exited => cases hexec

/-- **Every event keeps the invariant.** -/
theorem DaemonRun.Ok.event (h : r.Ok) {e : DaemonEvent} (he : r.event e = some r') : r'.Ok := by
  cases e with
  | stmt env =>
    obtain ⟨next, hexec, rfl⟩ := Option.map_eq_some_iff.1 he
    exact h.stmt hexec _
  | stop =>
    unfold DaemonRun.event at he
    dsimp only at he
    split_ifs at he
    cases he
    exact ⟨h.commandLine, h.reach, h.started, h.live, h.freed⟩
  | hup =>
    unfold DaemonRun.event at he
    dsimp only at he
    split_ifs at he with hunblocked
    cases he
    refine ⟨fun e => ?_, fun pc hpc => (h.reach pc hpc).hup ?_, h.started, fun e => ?_,
      fun e => forceRescan_bare (h.freed e)⟩
    · dsimp only at e
      rw [e] at hunblocked
      cases hunblocked
    · rintro rfl
      have hstarted := h.started
      dsimp only at hpc
      generalize r.stage = stage at hpc hunblocked hstarted
      cases stage with
      | build => cases hunblocked
      | loop pc =>
        cases hpc
        exact hstarted rfl
      | _ => cases hpc
    · exact (h.live e).of_quiet (forceRescan_quiet _)

/-- How many statements are left at most, when `keep_going` is 0. -/
def Pc.left : Pc → ℕ
  | .start | .done => 1
  | .loop => 4
  | .countCycle | .parseStat => 5
  | .parseInterrupts => 6
  | .forceRebalance | .activation => 7
  | .placement => 8
  | .migration => 9
  | .settleStat => 10
  | .settleInterrupts => 11
  | .settleClearStats => 12
  | .rescanStat => 13
  | .rescanInterrupts => 14
  | .rescanForceRebalance => 15
  | .buildTree => 16
  | .freeTree => 17
  | .rescanClearStats => 18
  | .resetCycleCount => 19
  | .resetNeedRescan => 20
  | .rescanTest => 21
  | .loopStat => 22
  | .loopInterrupts => 23
  | .loopClearStats => 24

/-- The same for the daemon. -/
def Stage.left : Stage → ℕ
  | .loop pc => pc.left
  | .oneShot => 6
  | .freeTree => 3
  | .freeOpts => 2
  | .removePidfile => 1
  | _ => 0

/-- From one program point of the loop to the next. -/
theorem Pc.left_lt (hnext : pc' ∈ pc.next false) (hpc : pc ≠ .start) : (Stage.ofPc pc').left < pc.left := by
  revert hnext hpc
  cases pc <;> cases pc' <;> decide

theorem Stage.ofPc_unblocked (pc : Pc) : (Stage.ofPc pc).unblocked = true := by
  cases pc <;> rfl

/-- With `keep_going` 0 every statement brings the end nearer. -/
theorem Daemon.exec_left (hkeep : d.keepGoing = false) (hstage : stage.unblocked = true) (hstart : stage ≠ .loop .start)
    (h : d.exec env stage = some (stage', d')) : stage'.left < stage.left ∧ d'.keepGoing = false ∧
      (stage'.unblocked = true ∨ stage' = .exited 0) := by
  cases stage with
  | commandLine | build | detach | writePidfile | exited => cases hstage
  | loop pc =>
    rw [Daemon.exec] at h
    obtain ⟨⟨pc', s⟩, hstmt, h⟩ := Option.bind_eq_some_iff.1 h
    have hnext := exec_next hstmt
    dsimp only at hnext
    rw [hkeep] at hnext
    cases h
    exact ⟨Pc.left_lt hnext fun e => hstart (congrArg Stage.loop e), hkeep, Or.inl (Stage.ofPc_unblocked pc')⟩
  | oneShot =>
    cases h
    refine ⟨by decide, ?_, Or.inl rfl⟩
    split_ifs
    · rfl
    · exact hkeep
  | freeTree | freeOpts =>
    cases h
    exact ⟨by decide, hkeep, Or.inl rfl⟩
  | removePidfile =>
    cases h
    refine ⟨by decide, ?_, Or.inr rfl⟩
    unfold IrqBalance.removePidfile
    split_ifs
    · exact hkeep
    · split <;> exact hkeep

/-- The run has gone on from `r` without turning back: `keep_going` is 0, and each statement was nearer to the end
than the one before. -/
structure DaemonRun.Stopping (r r' : DaemonRun) (tail : List (Stage × DaemonEnv × Daemon)) : Prop where
  log : r'.log = r.log ++ tail
  ok : r'.Ok
  keepGoing : r'.daemon.keepGoing = false
  stage : r'.stage.unblocked = true ∨ r'.stage = .exited 0
  length : tail.length + r'.stage.left ≤ r.stage.left
  nearer : ∀ e ∈ tail, r'.stage.left < e.1.left
  distinct : (tail.map Prod.fst).Nodup

theorem DaemonRun.Stopping.event {r₀ : DaemonRun} {tail : List (Stage × DaemonEnv × Daemon)}
    (h : DaemonRun.Stopping r₀ r tail) {e : DaemonEvent} (he : r.event e = some r') :
    ∃ tail', DaemonRun.Stopping r₀ r' tail' := by
  have hok := h.ok.event he
  cases e with
  | stmt env =>
    obtain ⟨⟨stage', d'⟩, hexec, rfl⟩ := Option.map_eq_some_iff.1 he
    have hstage : r.stage.unblocked = true := by
      refine h.stage.resolve_right fun e => ?_
      rw [e] at hexec
      cases hexec
    obtain ⟨hlt, hkeep, hstage'⟩ := Daemon.exec_left h.keepGoing hstage h.ok.started hexec
    refine ⟨tail ++ [(r.stage, env, r.daemon)], ?_, hok, hkeep, hstage', ?_, ?_, ?_⟩
    · rw [h.log, List.append_assoc]
    · have hlength := h.length
      rw [List.length_append, List.length_singleton]
      dsimp only
      omega
    · intro e he
      rcases List.mem_append.1 he with he | he
      · exact hlt.trans (h.nearer e he)
      · rw [List.mem_singleton.1 he]
        exact hlt
    · rw [List.map_append, List.map_singleton]
      refine h.distinct.append (List.nodup_singleton _) (List.disjoint_singleton.2 fun hmem => ?_)
      obtain ⟨e, he, hstage⟩ := List.mem_map.1 hmem
      have hless := h.nearer e he
      rw [hstage] at hless
      exact absurd hless (Nat.lt_irrefl _)
  | stop =>
    unfold DaemonRun.event at he
    dsimp only at he
    split_ifs at he
    cases he
    exact ⟨tail, h.log, hok, rfl, h.stage, h.length, h.nearer, h.distinct⟩
  | hup =>
    unfold DaemonRun.event at he
    dsimp only at he
    split_ifs at he
    cases he
    exact ⟨tail, h.log, hok, h.keepGoing, h.stage, h.length, h.nearer, h.distinct⟩

/-- What the command line and the environment have set. -/
def Daemon.settings (d : Daemon) : Bool × Bool × Option Text := (d.oneShotMode, d.foregroundMode, d.pidfile)

/-- Behind the command line the settings stay. -/
theorem Daemon.exec_settings (h : d.exec env stage = some (stage', d')) (hstage : stage ≠ .commandLine) :
    d'.settings = d.settings := by
  cases stage with
  | commandLine => exact absurd rfl hstage
  | build | loop =>
    rw [Daemon.exec] at h
    obtain ⟨⟨pc, s⟩, -, h⟩ := Option.bind_eq_some_iff.1 h
    cases h
    rfl
  | detach | freeTree | freeOpts => cases h; rfl
  | writePidfile =>
    cases h
    unfold IrqBalance.writePidfile
    split
    · rfl
    · split_ifs <;> rfl
  | oneShot =>
    cases h
    split_ifs <;> rfl
  | removePidfile =>
    cases h
    unfold IrqBalance.removePidfile
    split_ifs
    · rfl
    · split <;> rfl
  | exited => cases h

/-- The calls of `activate_mappings` in the run. -/
def DaemonRun.activations (r : DaemonRun) : List (Stage × DaemonEnv × Daemon) :=
  r.log.filter fun e => e.1 = .loop .activation

/-- The numbers of the irqs whose masks a call of `activate_mappings` writes. -/
def writtenBy (e : Stage × DaemonEnv × Daemon) : List ℤ :=
  (affinityWrites e.2.1.procIrq e.2.2.state).map Prod.fst

/-- The numbers of the irqs whose masks are written in the run. -/
def DaemonRun.writes (r : DaemonRun) : List ℤ := r.activations.flatMap writtenBy

/-- The cycle that writes the masks is over, up to its last statement and the way out. -/
def DaemonRun.Past (r : DaemonRun) : Prop :=
  r.stage = .oneShot ∨ r.daemon.keepGoing = false ∧ (r.stage.unblocked = true ∨ r.stage = .exited 0) ∧
    r.stage.left ≤ 5

/-- In one-shot mode there is one call at most. -/
structure DaemonRun.Once (r : DaemonRun) : Prop where
  ok : r.Ok
  start : r.stage = .commandLine → r.log = []
  nodup : ∀ e ∈ r.activations, (writtenBy e).Nodup
  once : r.daemon.oneShotMode = true → r.activations = [] ∨ r.activations.length = 1 ∧ r.Past

/-- The command line is parsed first and once. -/
theorem Daemon.exec_ne_commandLine (h : d.exec env stage = some (stage', d')) : stage' ≠ .commandLine := by
  cases stage with
  | commandLine =>
    rw [Daemon.exec] at h
    split at h <;> cases h <;> decide
  | build =>
    rw [Daemon.exec] at h
    obtain ⟨⟨pc, s⟩, -, h⟩ := Option.bind_eq_some_iff.1 h
    cases h
    split_ifs <;> decide
  | detach =>
    cases h
    split_ifs <;> decide
  | loop pc =>
    rw [Daemon.exec] at h
    obtain ⟨⟨pc', s⟩, -, h⟩ := Option.bind_eq_some_iff.1 h
    cases h
    cases pc' <;> simp [Stage.ofPc]
  | writePidfile | oneShot | freeTree | freeOpts | removePidfile => cases h; decide
  | exited => cases h

theorem Daemon.exec_activation (h : d.exec env (.loop .activation) = some (stage', d')) :
    stage' = .oneShot ∧ (writtenBy (.loop .activation, env, d)) =
      (affinityWrites env.procIrq d.state).map Prod.fst ∧
      activateMappings env.procIrq d.state = some d'.state := by
  rw [Daemon.exec] at h
  obtain ⟨⟨pc', s⟩, hstmt, h⟩ := Option.bind_eq_some_iff.1 h
  obtain ⟨rfl, hs⟩ := map_goto hstmt
  cases h
  exact ⟨rfl, rfl, hs⟩

/-- The calls with one more statement. -/
theorem DaemonRun.activations_snoc (r : DaemonRun) (env : DaemonEnv) (stage' : Stage) (d' : Daemon) :
    DaemonRun.activations { log := r.log ++ [(r.stage, env, r.daemon)], stage := stage', daemon := d' } =
      r.activations ++ if r.stage = .loop .activation then [(r.stage, env, r.daemon)] else [] := by
  unfold DaemonRun.activations
  rw [List.filter_append, List.filter_singleton]
  simp only [Bool.cond_decide]

/-- From the end of the cycle the run only goes out. -/
theorem DaemonRun.Past.stmt (h : r.Past) (hok : r.Ok) (hone : r.daemon.oneShotMode = true)
    (hexec : r.daemon.exec env r.stage = some (stage', d')) (l : List (Stage × DaemonEnv × Daemon)) :
    r.stage ≠ .loop .activation ∧ DaemonRun.Past { log := l, stage := stage', daemon := d' } := by
  rcases h with hstage | ⟨hkeep, hstage, hleft⟩
  · rw [hstage] at hexec ⊢
    cases hexec
    rw [if_pos hone]
    exact ⟨by decide, Or.inr ⟨rfl, Or.inl rfl, Nat.le_refl 5⟩⟩
  · have hunblocked : r.stage.unblocked = true := by
      refine hstage.resolve_right fun e => ?_
      rw [e] at hexec
      cases hexec
    obtain ⟨hlt, hkeep', hstage'⟩ := Daemon.exec_left hkeep hunblocked hok.started hexec
    refine ⟨fun e => ?_, Or.inr ⟨hkeep', hstage', by dsimp only; omega⟩⟩
    rw [e] at hleft
    exact absurd hleft (by decide)

/-- **One statement.** -/
theorem DaemonRun.Once.stmt (h : r.Once) (hexec : r.daemon.exec env r.stage = some (stage', d')) :
    DaemonRun.Once { log := r.log ++ [(r.stage, env, r.daemon)], stage := stage', daemon := d' } := by
  have hok := h.ok.stmt hexec (r.log ++ [(r.stage, env, r.daemon)])
  refine ⟨hok, fun e => absurd e (Daemon.exec_ne_commandLine hexec), fun e he => ?_, fun hone => ?_⟩
  · rw [DaemonRun.activations_snoc] at he
    rcases List.mem_append.1 he with he | he
    · exact h.nodup e he
    split_ifs at he with hstage
    · rw [List.mem_singleton.1 he, hstage]
      rw [hstage] at hexec
      obtain ⟨-, hwritten, hwalk⟩ := Daemon.exec_activation hexec
      rw [hwritten]
      exact ((h.ok.reach .activation (by rw [hstage]; rfl)).live rfl).writtenNumbers_nodup hwalk
    · cases he
  · dsimp only at hone
    rw [DaemonRun.activations_snoc]
    by_cases hcommand : r.stage = .commandLine
    · rw [if_neg (by rw [hcommand]; decide), DaemonRun.activations, h.start hcommand]
      exact Or.inl rfl
    · have hone' : r.daemon.oneShotMode = true :=
        (congrArg Prod.fst (Daemon.exec_settings hexec hcommand)).symm.trans hone
      rcases h.once hone' with hnone | ⟨hlength, hpast⟩
      · rw [hnone, List.nil_append]
        split_ifs with hstage
        · rw [hstage] at hexec
          exact Or.inr ⟨rfl, Or.inl (Daemon.exec_activation hexec).1⟩
        · exact Or.inl rfl
      · obtain ⟨hne, hpast'⟩ := hpast.stmt h.ok hone' hexec (r.log ++ [(r.stage, env, r.daemon)])
        rw [if_neg hne, List.append_nil]
        exact Or.inr ⟨hlength, hpast'⟩

/-- **One event.** -/
theorem DaemonRun.Once.event (h : r.Once) {e : DaemonEvent} (he : r.event e = some r') : r'.Once := by
  have hok := h.ok.event he
  cases e with
  | stmt env =>
    obtain ⟨⟨stage', d'⟩, hexec, rfl⟩ := Option.map_eq_some_iff.1 he
    exact h.stmt hexec
  | stop =>
    unfold DaemonRun.event at he
    dsimp only at he
    split_ifs at he
    cases he
    refine ⟨hok, h.start, h.nodup, fun hone => (h.once hone).imp_right ?_⟩
    exact And.imp_right (Or.imp_right fun ⟨_, hstage, hleft⟩ => ⟨rfl, hstage, hleft⟩)
  | hup =>
    unfold DaemonRun.event at he
    dsimp only at he
    split_ifs at he
    cases he
    exact ⟨hok, h.start, h.nodup, h.once⟩

/-- **One-shot mode**: in every run `activate_mappings` is called at most once, and the mask of no irq is written
twice. -/
theorem one_shot_writes {opts : Options} (hopts : opts.numaAvail = false) {smpAffinity : ℤ → Cpumask}
    {files : Text → Option Text} {events : List DaemonEvent}
    (h : (DaemonRun.initial opts smpAffinity files).events events = some r) (hone : r.daemon.oneShotMode = true) :
    r.activations.length ≤ 1 ∧ r.writes.Nodup := by
  have honce := DaemonRun.events_inv DaemonRun.Once (fun _ _ _ _ hr he => hr.event he)
    ⟨DaemonRun.ok_initial hopts, fun _ => rfl, fun _ he => by simp [DaemonRun.activations, DaemonRun.initial] at he,
      fun _ => Or.inl rfl⟩ h
  rcases honce.once hone with hnone | ⟨hlength, -⟩
  · simp [DaemonRun.writes, hnone]
  · obtain ⟨e, he⟩ := List.length_eq_one_iff.1 hlength
    have hnodup := honce.nodup e
    simp_all [DaemonRun.writes]

/-- One-shot mode. -/
def oneShotEnv : DaemonEnv := { toEnv := twoCpusEnv, args := [.oneshot] }

theorem one_shot_writes_twoCpus : ∃ r, (DaemonRun.initial {} (fun _ => 0) fun _ => none).events
    (List.replicate 21 (.stmt oneShotEnv)) = some r ∧ r.stage = .exited 0 ∧ r.writes = [10] ∧
    r.activations.length ≤ 1 ∧ r.writes.Nodup := by
  have hrun : ((DaemonRun.initial {} (fun _ => 0) fun _ => none).events (List.replicate 21 (.stmt oneShotEnv))).map
      (fun r => (r.stage, r.writes, r.daemon.oneShotMode)) = some (.exited 0, [10], true) := by
    decide +kernel
  obtain ⟨r, hr, e⟩ := Option.map_eq_some_iff.1 hrun
  obtain ⟨hstage, hwrites, hone⟩ : r.stage = .exited 0 ∧ r.writes = [10] ∧ r.daemon.oneShotMode = true := by
    simpa using e
  exact ⟨r, hr, hstage, hwrites, one_shot_writes rfl hr hone⟩

/-! ### The pidfile -/

/-- The program points up to the pidfile. -/
def Stage.early : Stage → Bool
  | .commandLine | .build | .detach | .writePidfile => true
  | _ => false

/-- What may become of a file: it stays as it was in `files₀`, or it is the pidfile of a daemon in the background,
new, and with the pid in it, or removed. -/
def DaemonRun.FileKept (files₀ : Text → Option Text) (r : DaemonRun) (path : Text) : Prop :=
  r.daemon.files path = files₀ path ∨
    r.daemon.foregroundMode = false ∧ r.daemon.pidfile = some path ∧
      ((files₀ path = none ∧ ∃ e ∈ r.log, e.1 = .writePidfile ∧
          r.daemon.files path = some (e.2.1.pid.repr.toList ++ ['\n'])) ∨
        (∃ e ∈ r.log, e.1 = .removePidfile) ∧ r.daemon.files path = none)

/-- The files of the run, that began with `files₀`. -/
structure DaemonRun.Files (files₀ : Text → Option Text) (r : DaemonRun) : Prop where
  early : r.stage.early = true → r.daemon.files = files₀ ∧ ∀ e ∈ r.log, e.1 ≠ .removePidfile
  background : r.stage = .writePidfile → r.daemon.foregroundMode = false
  kept : ∀ path, r.FileKept files₀ path
  removed : (∃ e ∈ r.log, e.1 = .removePidfile) → r.stage = .exited 0 ∧
    (r.daemon.foregroundMode = false → ∀ path ∈ r.daemon.pidfile, r.daemon.files path = none)

theorem parseArgs_files {args : List Arg} (h : args.foldlM parseArg d = some d') : d'.files = d.files := by
  refine Loops.foldlM_inv (fun u : Daemon => u.files = d.files) (fun arg _ u u' hu harg => ?_) rfl h
  rw [← hu]
  cases arg with
  | option opt =>
    obtain ⟨opts, -, rfl⟩ := Option.map_eq_some_iff.1 harg
    rfl
  | banscript | unknown => cases harg
  | interval arg =>
    unfold parseArg at harg
    dsimp only at harg
    split_ifs at harg
    cases harg
    rfl
  | debug | foreground | oneshot | pid | journal => cases harg; rfl

/-- Only two statements change the files. -/
theorem Daemon.exec_files (h : d.exec env stage = some (stage', d')) (hwrite : stage ≠ .writePidfile)
    (hremove : stage ≠ .removePidfile) : d'.files = d.files := by
  cases stage with
  | commandLine =>
    rw [Daemon.exec] at h
    split at h
    · cases h
      rfl
    · next u hparse =>
      have hfiles := parseArgs_files hparse
      cases h
      exact hfiles
  | build | loop =>
    rw [Daemon.exec] at h
    obtain ⟨⟨pc, s⟩, -, h⟩ := Option.bind_eq_some_iff.1 h
    cases h
    rfl
  | detach | freeTree | freeOpts => cases h; rfl
  | writePidfile => exact absurd rfl hwrite
  | removePidfile => exact absurd rfl hremove
  | oneShot =>
    cases h
    split_ifs <;> rfl
  | exited => cases h

/-- Behind the pidfile no statement goes back, and in the foreground it is not written. -/
theorem Daemon.exec_early (h : d.exec env stage = some (stage', d')) (hearly : stage'.early = true) :
    stage.early = true ∧ stage ≠ .writePidfile ∧ (stage' = .writePidfile → d'.foregroundMode = false) := by
  cases stage with
  | commandLine =>
    rw [Daemon.exec] at h
    split at h <;> cases h <;> exact ⟨rfl, by decide, fun e => by cases e⟩
  | build =>
    rw [Daemon.exec] at h
    obtain ⟨⟨pc, s⟩, -, h⟩ := Option.bind_eq_some_iff.1 h
    cases h
    refine ⟨rfl, by decide, fun e => ?_⟩
    split_ifs at e
  | detach =>
    cases h
    refine ⟨rfl, by decide, fun e => ?_⟩
    split_ifs at e with hforeground
    exact Bool.eq_false_iff.2 hforeground
  | loop pc =>
    rw [Daemon.exec] at h
    obtain ⟨⟨pc', s⟩, -, h⟩ := Option.bind_eq_some_iff.1 h
    cases h
    cases pc' <;> cases hearly
  | writePidfile | oneShot | freeTree | freeOpts | removePidfile => cases h; cases hearly
  | exited => cases h

/-- What is written is the pid, to a file that was not there. -/
theorem writePidfile_files (env : DaemonEnv) (d : Daemon) (path : Text) :
    (writePidfile env d).files path = d.files path ∨ d.pidfile = some path ∧ d.files path = none ∧
      (writePidfile env d).files path = some (env.pid.repr.toList ++ ['\n']) := by
  unfold writePidfile
  cases hp : d.pidfile with
  | none => exact Or.inl rfl
  | some p =>
    dsimp only
    split_ifs with h
    · exact Or.inl rfl
    · by_cases hpath : path = p
      · subst hpath
        rw [Bool.or_eq_true, not_or, Option.isSome_iff_ne_none, not_not] at h
        exact Or.inr ⟨rfl, h.1, Function.update_self ..⟩
      · exact Or.inl (Function.update_of_ne hpath ..)

theorem removePidfile_files (d : Daemon) (path : Text) :
    (removePidfile d).files path =
      if d.foregroundMode = false ∧ d.pidfile = some path then none else d.files path := by
  unfold removePidfile
  cases hforeground : d.foregroundMode with
  | true => simp
  | false =>
    cases hp : d.pidfile with
    | none => simp
    | some p =>
      by_cases hpath : p = path
      · simp [hpath]
      · simp [hpath, Function.update_of_ne (Ne.symm hpath)]

theorem Daemon.settings_eq (h : d'.settings = d.settings) :
    d'.foregroundMode = d.foregroundMode ∧ d'.pidfile = d.pidfile :=
  ⟨congrArg (fun p => p.2.1) h, congrArg (fun p => p.2.2) h⟩

/-- A statement that leaves the file alone. -/
theorem DaemonRun.FileKept.stmt {files₀ : Text → Option Text} {path : Text} (h : r.FileKept files₀ path)
    (hsettings : d'.settings = r.daemon.settings) (hfiles : d'.files path = r.daemon.files path)
    (x : Stage × DaemonEnv × Daemon) (stage' : Stage) :
    DaemonRun.FileKept files₀ { log := r.log ++ [x], stage := stage', daemon := d' } path := by
  obtain ⟨hforeground, hpidfile⟩ := Daemon.settings_eq hsettings
  unfold DaemonRun.FileKept
  dsimp only
  rw [hfiles, hforeground, hpidfile]
  rcases h with h | ⟨hbackground, hpath, ⟨hfree, e, he, h⟩ | ⟨⟨e, he, hstage⟩, hnone⟩⟩
  · exact Or.inl h
  · exact Or.inr ⟨hbackground, hpath, Or.inl ⟨hfree, e, List.mem_append_left _ he, h⟩⟩
  · exact Or.inr ⟨hbackground, hpath, Or.inr ⟨⟨e, List.mem_append_left _ he, hstage⟩, hnone⟩⟩

/-- **One statement.** -/
theorem DaemonRun.Files.stmt {files₀ : Text → Option Text} (h : r.Files files₀)
    (hexec : r.daemon.exec env r.stage = some (stage', d')) :
    DaemonRun.Files files₀ { log := r.log ++ [(r.stage, env, r.daemon)], stage := stage', daemon := d' } := by
  have hnone : ∀ e ∈ r.log, e.1 ≠ .removePidfile := fun e he hstage => by
    rw [(h.removed ⟨e, he, hstage⟩).1] at hexec
    cases hexec
  have hlast : (r.stage, env, r.daemon) ∈ r.log ++ [(r.stage, env, r.daemon)] :=
    List.mem_append_right _ (List.mem_singleton_self _)
  refine ⟨fun hearly => ?_, fun hwrite => ?_, fun path => ?_, fun ⟨e, he, hstage⟩ => ?_⟩
  · obtain ⟨hearly', hne, -⟩ := Daemon.exec_early hexec hearly
    have hne' : r.stage ≠ .removePidfile := fun e => by
      rw [e] at hearly'
      cases hearly'
    refine ⟨(Daemon.exec_files hexec hne hne').trans (h.early hearly').1, fun e he => ?_⟩
    rcases List.mem_append.1 he with he | he
    · exact hnone e he
    · rwa [List.mem_singleton.1 he]
  · dsimp only at hwrite
    subst hwrite
    exact (Daemon.exec_early hexec rfl).2.2 rfl
  · by_cases hcommand : r.stage = .commandLine
    · left
      rw [hcommand] at hexec
      have hearly := (h.early (by rw [hcommand]; rfl)).1
      exact congrFun ((Daemon.exec_files hexec (by decide) (by decide)).trans hearly) path
    have hsettings := Daemon.exec_settings hexec hcommand
    obtain ⟨hforeground, hpidfile⟩ := Daemon.settings_eq hsettings
    by_cases hwrite : r.stage = .writePidfile
    · have hearly := (h.early (by rw [hwrite]; rfl)).1
      have hbackground := h.background hwrite
      rw [hwrite] at hexec
      cases hexec
      rcases writePidfile_files env r.daemon path with e | ⟨hp, hfree, e⟩
      · exact (h.kept path).stmt hsettings e _ _
      · rw [hearly] at hfree
        exact Or.inr ⟨hforeground.trans hbackground, hpidfile.trans hp, Or.inl ⟨hfree, _, hlast, hwrite, e⟩⟩
    by_cases hremove : r.stage = .removePidfile
    · rw [hremove] at hexec
      cases hexec
      have hfiles := removePidfile_files r.daemon path
      split_ifs at hfiles with hc
      · exact Or.inr ⟨hforeground.trans hc.1, hpidfile.trans hc.2, Or.inr ⟨⟨_, hlast, hremove⟩, hfiles⟩⟩
      · exact (h.kept path).stmt hsettings hfiles _ _
    · exact (h.kept path).stmt hsettings (congrFun (Daemon.exec_files hexec hwrite hremove) path) _ _
  · have he' : e = (r.stage, env, r.daemon) :=
      List.mem_singleton.1 ((List.mem_append.1 he).resolve_left fun he => hnone e he hstage)
    rw [he'] at hstage
    dsimp only at hstage
    rw [hstage] at hexec
    obtain ⟨hforeground, hpidfile⟩ := Daemon.settings_eq (Daemon.exec_settings hexec (by decide))
    cases hexec
    refine ⟨rfl, fun hbackground path hpath => ?_⟩
    rw [removePidfile_files, if_pos ⟨hforeground.symm.trans hbackground, hpidfile.symm.trans hpath⟩]

/-- **One event.** -/
theorem DaemonRun.Files.event {files₀ : Text → Option Text} (h : r.Files files₀) {e : DaemonEvent}
    (he : r.event e = some r') : r'.Files files₀ := by
  cases e with
  | stmt env =>
    obtain ⟨⟨stage', d'⟩, hexec, rfl⟩ := Option.map_eq_some_iff.1 he
    exact h.stmt hexec
  | stop | hup =>
    unfold DaemonRun.event at he
    dsimp only at he
    split_ifs at he
    cases he
    exact ⟨h.early, h.background, h.kept, h.removed⟩

end IrqBalance

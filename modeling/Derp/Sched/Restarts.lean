import Derp.Sched.Tidy

/-!
# Who is started again

The launcher asks whether a dead process gets another life before it reports
the death, and the scheduler registers the life when the process is crashed or
its death is reported.  The two agree, because what is decided at a crash is
never decided another way afterwards.
-/

namespace Derp

/-- What is decided about a crashed process by its record stays decided. -/
def ProcRec.Steady (p p' : ProcRec) : Prop :=
  p'.killed = true →
    p.killed = true ∧ (p'.replacedBy = none → p.replacedBy = none) ∧
      p'.faults.restart = p.faults.restart ∧
      p'.faults.restartsLeft = p.faults.restartsLeft ∧ p'.spec = p.spec

theorem ProcRec.Steady.refl (p : ProcRec) : p.Steady p :=
  fun killed => ⟨killed, fun first => first, rfl, rfl, rfl⟩

theorem ProcRec.Steady.of_eq
    {p p' : ProcRec}
    (killed : p'.killed = p.killed)
    (replacedBy : p'.replacedBy = p.replacedBy)
    (restart : p'.faults.restart = p.faults.restart)
    (restartsLeft : p'.faults.restartsLeft = p.faults.restartsLeft)
    (spec : p'.spec = p.spec) : p.Steady p' :=
  fun isKilled => ⟨killed ▸ isKilled, fun first => replacedBy ▸ first, restart,
    restartsLeft, spec⟩

theorem ProcRec.Noise.steady
    {p p' : ProcRec}
    (noise : p.Noise p') : p.Steady p' := by
  obtain ⟨_, _, _, _, rfl⟩ := noise
  exact .of_eq rfl rfl rfl rfl rfl

namespace State

variable
  {s middle later : State}
  {pid : Pid}
  {fuel : Nat}

/-- A crashed process that was not restarted, though a crash now would restart
it. -/
structure Missed (s : State) (pid : Pid) : Prop where
  killed : (s.procs pid).killed = true
  first : (s.procs pid).replacedBy = none
  due : s.restartDue pid killedStatus = true
  room : s.hasRoom = true

/-- The run goes on, and crashes nobody. -/
structure Steady (s later : State) : Prop where
  nprocs : s.nprocs ≤ later.nprocs
  nthreads : s.nthreads ≤ later.nthreads
  stopped : s.stopped = true → later.stopped = true
  proc : ∀ pid, (s.procs pid).Steady (later.procs pid)

theorem Steady.refl (s : State) : Steady s s :=
  ⟨le_rfl, le_rfl, fun isOver => isOver, fun _ => .refl _⟩

/-- A restart is due by what the record says, and while the run goes on. -/
theorem restartDue_killed :
    s.restartDue pid killedStatus = true ↔
      (s.procs pid).faults.restart ≠ .never ∧ s.stopped = false ∧
        (s.procs pid).spec.isSome = true ∧
          0 < (s.procs pid).faults.restartsLeft := by
  unfold restartDue
  dsimp only
  cases policy : (s.procs pid).faults.restart <;>
    simp [killedStatus, and_assoc]

/-- A death that is due a restart would be due one as a crash. -/
theorem restartDue_mono
    {status : Int}
    (due : s.restartDue pid status = true) :
    s.restartDue pid killedStatus = true := by
  rw [restartDue_killed]
  unfold restartDue at due
  cases policy : (s.procs pid).faults.restart <;> simp_all

/-- No restart comes to be missed while nobody is crashed. -/
theorem Missed.before
    (missed : Missed later pid)
    (steady : Steady s later) : Missed s pid := by
  obtain ⟨killed, first, restart, left, spec⟩ := steady.proc pid missed.killed
  have due := restartDue_killed.1 missed.due
  have room := missed.room
  refine ⟨killed, first missed.first, restartDue_killed.2 ?_, ?_⟩
  · rw [restart, left, spec] at due
    refine ⟨due.1, ?_, due.2.2⟩
    by_contra isOver
    rw [Bool.not_eq_false] at isOver
    rw [steady.stopped isOver] at due
    exact Bool.noConfusion due.2.1
  · have := steady.nprocs
    have := steady.nthreads
    unfold hasRoom at room ⊢
    rw [Bool.and_eq_true, decide_eq_true_eq, decide_eq_true_eq] at room ⊢
    omega

theorem steady_modifyProc
    {change : ProcRec → ProcRec}
    (steady : (s.procs pid).Steady (change (s.procs pid))) :
    Steady s (s.modifyProc pid change) := by
  refine ⟨le_rfl, le_rfl, fun isOver => isOver, fun other => ?_⟩
  unfold modifyProc
  dsimp only
  by_cases same : other = pid
  · subst same
    rw [Function.update_self]
    exact steady
  · rw [Function.update_of_ne same]
    exact .refl _

theorem steady_of_procs
    (nprocs : later.nprocs = s.nprocs)
    (nthreads : later.nthreads = s.nthreads)
    (stopped : later.stopped = s.stopped)
    (procs : later.procs = s.procs) : Steady s later := by
  refine ⟨nprocs.ge, nthreads.ge, fun isOver => stopped ▸ isOver, fun pid => ?_⟩
  rw [procs]
  exact .refl _

theorem Steady.trans
    (first : Steady s middle)
    (second : Steady middle later) : Steady s later := by
  refine ⟨first.nprocs.trans second.nprocs, first.nthreads.trans second.nthreads,
    fun isOver => second.stopped (first.stopped isOver), fun pid killed => ?_⟩
  obtain ⟨killed, replaced, restart, left, spec⟩ := second.proc pid killed
  obtain ⟨killed, replaced', restart', left', spec'⟩ := first.proc pid killed
  exact ⟨killed, fun none => replaced' (replaced none), restart.trans restart',
    left.trans left', spec.trans spec'⟩

theorem fireAlarm_procs
    {due : Nat}
    (pending : (s.procs pid).pendingAlarm = some due)
    (reached : due ≤ s.clockNs) :
    ∃ again, (s.fireAlarm pid).procs =
        Function.update s.procs pid
          (((s.procs pid).setAlarmAt again).addSignal sigalrm) ∧
      (s.fireAlarm pid).stopped = s.stopped := by
  obtain ⟨isOver, again, same, -⟩ := s.rearm_eq pid
  have woken (s : State) :
      (s.wakeFirst pid).procs = s.procs ∧
        (s.wakeFirst pid).stopped = s.stopped := by
    unfold wakeFirst
    split <;> exact ⟨rfl, rfl⟩
  refine ⟨again, ?_⟩
  rw [fireAlarm_due pending reached, (woken _).1, (woken _).2, same]
  unfold modifyProc
  dsimp only
  rw [Function.update_self, Function.update_idem]
  exact ⟨rfl, rfl⟩

theorem Change.steady (change : Change s later) : Steady s later := by
  cases change with
  | count => exact steady_of_procs rfl rfl rfl rfl
  | wake => exact steady_of_procs rfl rfl rfl rfl
  | net => exact steady_of_procs rfl rfl rfl rfl
  | noise noise =>
      exact ⟨le_rfl, le_rfl, fun isOver => isOver, fun pid => (noise pid).steady⟩
  | signal pid sig =>
      have signalled : Steady s (s.modifyProc pid (.addSignal sig)) :=
        steady_modifyProc (.of_eq rfl rfl rfl rfl rfl)
      exact signalled.trans (steady_of_procs rfl rfl rfl rfl)
  | alarm pid _ pending reached =>
      obtain ⟨again, procs, stopped⟩ := fireAlarm_procs pending reached
      have tables := (Change.alarm pid ‹_› pending reached).tables
      have rearmed : Steady s (s.modifyProc pid fun p =>
          (p.setAlarmAt again).addSignal sigalrm) :=
        steady_modifyProc (.of_eq rfl rfl rfl rfl rfl)
      exact rearmed.trans
        (steady_of_procs tables.1 tables.2 stopped procs)
  | stop =>
      refine ⟨le_rfl, le_rfl, fun _ => rfl, fun pid => ?_⟩
      obtain same | same := s.stopRun_proc pid <;> rw [same]
      · exact .refl _
      · exact .of_eq rfl rfl rfl rfl rfl
  | grace pid =>
      have used : Steady s (s.modifyProc pid .useUpShutdown) := by
        apply steady_modifyProc
        unfold ProcRec.useUpShutdown
        split
        · exact .refl _
        · exact .of_eq rfl rfl rfl rfl rfl
      exact used.trans (steady_modifyProc (.of_eq rfl rfl rfl rfl rfl))

theorem Changes.steady (changes : Changes s later) : Steady s later :=
  Changes.keep (P := Steady s) (fun change steady => steady.trans change.steady)
    changes (.refl s)

theorem Steady.newLife
    (tidy : s.Tidy)
    (registered : pid < s.nprocs) : Steady s (s.newLife pid) := by
  have tables := newLife_tables registered
  obtain ⟨_, _, _, _, _, _, _, same, -⟩ := newLife_eq registered
  refine ⟨tables.1 ▸ Nat.le_succ _, tables.2 ▸ Nat.le_succ _, ?_,
    fun other => ?_⟩
  · rw [same]
    exact fun isOver => isOver
  · rw [same, born_procs]
    split
    · intro killed
      have spare := tidy.spareProcs s.nprocs le_rfl
      obtain ⟨_, _, _, _, isSpare⟩ := spare
      unfold newborn at killed
      rw [isSpare] at killed
      cases killed
    split
    · next victim =>
        subst victim
        exact fun killed => ⟨killed, (nomatch ·), rfl, rfl, rfl⟩
    · exact .refl _

/-! ## Nothing is missed -/

theorem newLife_replacedBy (registered : pid < s.nprocs) :
    ((s.newLife pid).procs pid).replacedBy = some s.nprocs := by
  obtain ⟨_, _, _, _, _, _, _, same, -⟩ := newLife_eq registered
  rw [same, born_procs, if_neg registered.ne, if_pos rfl]
  rfl

/-- A crash decides about its victim. -/
theorem Missed.before_crash
    {victim : Pid}
    (missed : Missed (s.crash victim) pid)
    (tidy : s.Tidy)
    (registered : victim < s.nprocs) : Missed s pid := by
  have dead : (s.killed victim).Dead victim := dead_killed registered
  have after : ((s.killed victim).grieved victim).Tidy :=
    Changes.tidy (changes_grieved _ _) (tidy.killed registered)
  rw [crash_eq] at missed
  obtain ⟨other, missed⟩ : pid ≠ victim ∧
      Missed ((s.killed victim).grieved victim) pid := by
    obtain ⟨restarts, same⟩ | ⟨undecided, same⟩ :=
      registerRestart_cases dead.grieved.1 dead.grieved.2 killedStatus
    · rw [same] at missed
      refine ⟨?_, missed.before (.newLife after restarts.registered)⟩
      rintro rfl
      have first := missed.first
      rw [newLife_replacedBy restarts.registered] at first
      cases first
    · rw [same] at missed
      refine ⟨?_, missed⟩
      rintro rfl
      exact undecided ⟨dead.grieved.1, dead.grieved.2, missed.first, missed.due,
        missed.room⟩
  have struck := missed.before (Changes.steady (changes_grieved _ _))
  have same : (s.killed victim).procs pid = s.procs pid :=
    Function.update_of_ne other _ _
  have due : (s.killed victim).restartDue pid killedStatus =
      s.restartDue pid killedStatus := by
    unfold restartDue
    rw [same]
    rfl
  exact ⟨same ▸ struck.killed, same ▸ struck.first, due ▸ struck.due,
    struck.room⟩

theorem Missed.before_deeds
    (missed : Missed later pid)
    (deeds : Deeds s later)
    (tidy : s.Tidy) : Missed s pid := by
  induction deeds with
  | refl => exact missed
  | tail first deed inductionHypothesis =>
      have between := Deeds.tidy first tidy
      apply inductionHypothesis
      cases deed with
      | change change => exact missed.before change.steady
      | crash victim alive => exact missed.before_crash between alive.1
      | strike victim registered pending reached =>
          have used := missed.before_crash (between.useUpCrash registered)
            registered
          refine used.before (steady_modifyProc ?_)
          unfold ProcRec.useUpCrash
          split
          · exact .refl _
          · exact .of_eq rfl rfl rfl rfl rfl

theorem Missed.before_passages
    (missed : Missed later pid)
    (passages : Passages s later)
    (tidy : s.Tidy) : Missed s pid := by
  induction passages with
  | refl => exact missed
  | tail first passage inductionHypothesis =>
      apply inductionHypothesis
      cases passage with
      | deed deed =>
          exact missed.before_deeds (.single deed) (Passages.tidy first tidy)
      | jump => exact missed.before (steady_of_procs rfl rfl rfl rfl)
      | reseed => exact missed.before (steady_of_procs rfl rfl rfl rfl)

theorem Choice.steady (choice : Choice s later) : Steady s later := by
  cases choice
  exact steady_of_procs rfl rfl rfl rfl

theorem Missed.before_choose
    {me : Option ThreadId}
    {site : UInt64}
    {handoff : Handoff}
    (missed : Missed later pid)
    (tidy : s.Tidy)
    (chosen : s.choose fuel me site = some (later, handoff)) : Missed s pid := by
  refine choose_keep (P := fun later => Missed later pid → Missed s pid)
    (fun passages missed => missed.before_passages passages tidy)
    (fun choice before missed => before (missed.before choice.steady))
    (fun _ _ before missed => before ?_) chosen missed
  obtain ⟨_, _, _, _, _, _, same⟩ := giveBaton_eq _ me _ site
  rw [same] at missed
  exact missed.before (steady_of_procs rfl rfl rfl rfl)

/-! ## The launcher's question -/

theorem Steady.noteExit (s : State) (pid : Pid) (status : Int) :
    Steady s (s.noteExit pid status) :=
  steady_modifyProc (.of_eq rfl rfl rfl rfl rfl)

theorem Steady.closeDown (s : State) (pid : Pid) : Steady s (s.closeDown pid) :=
  Changes.steady (changes_closeDown s pid)

theorem Steady.clearFaultTimes (s : State) (pid : Pid) :
    Steady s (s.modifyProc pid .clearFaultTimes) :=
  steady_modifyProc (.of_eq rfl rfl rfl rfl rfl)

theorem Steady.mourn
    (tidy : s.Tidy)
    (dead : s.Dead pid)
    (status : Int) : Steady s (s.mourn pid status) := by
  have restarted : Steady s (s.registerRestart pid status) := by
    obtain ⟨restarts, same⟩ | ⟨-, same⟩ :=
      registerRestart_cases dead.1 dead.2 status
    · rw [same]
      exact .newLife tidy dead.1
    · rw [same]
      exact .refl s
  rw [mourn_eq]
  exact (restarted.trans (.clearFaultTimes _ _)).trans (.closeDown _ _)

theorem Steady.buried
    (tidy : s.Tidy)
    (registered : pid < s.nprocs)
    (status : Int) : Steady s (s.buried pid status) := by
  have noted := Steady.noteExit s pid status
  have mourned : Steady s (if ((s.noteExit pid status).procs pid).killed then
      s.noteExit pid status else (s.noteExit pid status).mourn pid status) := by
    split
    · exact noted
    · have tidyNoted : (s.noteExit pid status).Tidy :=
        tidy.modifyProc registered _ fun _ => rfl
      exact noted.trans
        (.mourn tidyNoted (dead_noteExit registered status) status)
  rw [buried_eq]
  exact mourned.trans (steady_of_procs rfl rfl rfl rfl)

theorem Steady.clock (s : State) (overflow : Bool) (clockNs : Nat) :
    Steady s { s with overflow := overflow, clockNs := clockNs } :=
  steady_of_procs rfl rfl rfl rfl

theorem Steady.recorded
    (s : State)
    (src : Option (ThreadId × ThreadState × Nat)) :
    Steady s (s.recorded src) := by
  cases src <;> exact steady_of_procs rfl rfl rfl rfl

theorem recorded_tables
    (s : State)
    (src : Option (ThreadId × ThreadState × Nat)) :
    (s.recorded src).procs = s.procs ∧ (s.recorded src).nprocs = s.nprocs := by
  cases src <;> exact ⟨rfl, rfl⟩

theorem condWakeLoop_steady
    (rounds : Nat)
    (s : State)
    (cond : Nat)
    (all : Bool) : Steady s (condWakeLoop rounds s pid cond all) := by
  induction rounds generalizing s with
  | zero => exact .refl s
  | succ rounds inductionHypothesis =>
      unfold condWakeLoop
      split
      · exact .refl s
      · next id _ =>
          have signalled : Steady s (s.condSignal id) :=
            steady_of_procs rfl rfl rfl rfl
          dsimp only
          split
          · exact signalled.trans (inductionHypothesis _)
          · exact signalled

theorem Steady.addProc
    (tidy : s.Tidy)
    (host : Nat)
    (parent : Option Pid) : Steady s (s.addProc host parent).1 := by
  refine ⟨Nat.le_succ _, le_rfl, fun isOver => isOver, fun other => ?_⟩
  unfold State.addProc modifyProc
  dsimp only
  by_cases new : other = s.nprocs
  · subst new
    rw [Function.update_self]
    intro killed
    obtain ⟨_, _, _, _, isSpare⟩ := tidy.spareProcs s.nprocs le_rfl
    rw [isSpare] at killed
    cases killed
  · rw [Function.update_of_ne new]
    exact .refl _

theorem Steady.addThread (s : State) (pid : Pid) :
    Steady s (s.addThread pid).1 := by
  obtain ⟨pctRng, priority, drawn, -⟩ :=
    { s with nthreads := s.nthreads + 1 }.drawPriority_eq
  unfold State.addThread
  dsimp only
  rw [drawn]
  exact ⟨le_rfl, Nat.le_succ _, fun isOver => isOver, fun _ => .refl _⟩

theorem Steady.drawCrash (s : State) (pid : Pid) (lifeStarts : Nat) :
    Steady s (s.drawCrash pid lifeStarts) := by
  obtain ⟨rng, isOver, crashAt, shutdownAt, same, -⟩ :=
    s.drawCrash_eq pid lifeStarts
  rw [same]
  have drawn : Steady s (s.drawn rng isOver) := steady_of_procs rfl rfl rfl rfl
  have crash : Steady (s.drawn rng isOver)
      ((s.drawn rng isOver).modifyProc pid (.setCrashAt crashAt)) :=
    steady_modifyProc (.of_eq rfl rfl rfl rfl rfl)
  exact (drawn.trans crash).trans
    (steady_modifyProc (.of_eq rfl rfl rfl rfl rfl))

theorem Steady.setFaults
    (alive : s.Alive pid)
    (faults : Faults)
    (spec : Nat) : Steady s (s.setFaults pid faults spec) := by
  have given : Steady s (s.modifyProc pid fun p =>
      { p with faults := faults, spec := some spec }) := by
    apply steady_modifyProc
    intro killed
    have isAlive := alive.2
    unfold ProcRec.alive at isAlive
    dsimp only at killed
    rw [killed] at isAlive
    simp at isAlive
  exact given.trans (.drawCrash _ pid _)

theorem Missed.before_handOff
    {src : Option (ThreadId × ThreadState × Nat)}
    {site : UInt64}
    {handoff : Handoff}
    (missed : Missed later pid)
    (tidy : s.Tidy)
    (registered : ∀ giver ∈ src, giver.1 < s.nthreads)
    (handed : s.handOff fuel src site = some (later, handoff)) :
    Missed s pid :=
  (missed.before_choose (tidy.recorded registered) handed).before (.recorded s src)

theorem Missed.before_processDied
    {victim : Pid}
    {status : Int}
    {handoff : Option Handoff}
    (missed : Missed later pid)
    (tidy : s.Tidy)
    (registered : victim < s.nprocs)
    (died : s.processDied fuel victim status = some (later, handoff)) :
    Missed s pid := by
  have steady := Steady.buried tidy registered status
  obtain ⟨-, rfl, -⟩ | ⟨id, passed, held, handed, -⟩ :=
    processDied_eq_some_iff.1 died
  · exact missed.before steady
  · refine (missed.before_handOff (tidy.buried registered status) ?_
      handed).before steady
    rintro _ ⟨⟩
    exact (heldBy_eq_some held).2.1

/-- No operation misses a restart. -/
theorem Missed.before_exec
    {op : Op}
    {answer : Answer}
    (missed : Missed later pid)
    (tidy : s.Tidy)
    (possible : s.Possible op)
    (done : s.exec fuel op = some (later, answer)) : Missed s pid := by
  by_cases calm : op.calm = true
  · exact missed.before (Changes.steady (changes_of_exec calm possible done))
  by_cases setting : op.setting = true
  · cases tuned_of_exec setting done
    exact missed.before (steady_of_procs rfl rfl rfl rfl)
  cases op with
  | addProc host parent =>
      obtain ⟨rfl, -⟩ := Prod.mk.inj (Option.some.inj done)
      exact missed.before (.addProc tidy host parent)
  | addThread pid =>
      obtain ⟨rfl, -⟩ := Prod.mk.inj (Option.some.inj done)
      exact missed.before (.addThread s pid)
  | setFaults pid faults spec =>
      obtain ⟨rfl, -⟩ := Prod.mk.inj (Option.some.inj done)
      exact missed.before (.setFaults possible.1 faults spec)
  | attach pid realPid =>
      obtain ⟨rfl, -⟩ := Prod.mk.inj (Option.some.inj done)
      exact missed.before (steady_modifyProc (.of_eq rfl rfl rfl rfl rfl))
  | unregister child =>
      obtain ⟨rfl, -⟩ := Prod.mk.inj (Option.some.inj done)
      have gone : Steady s (s.modifyProc child fun p =>
          { p with state := .exited, reaped := true }) :=
        steady_modifyProc (.of_eq rfl rfl rfl rfl rfl)
      exact missed.before (gone.trans (steady_of_procs rfl rfl rfl rfl))
  | setAlarm pid value interval =>
      obtain ⟨rfl, -⟩ := Prod.mk.inj (Option.some.inj done)
      unfold State.setAlarm at missed
      dsimp only at missed
      split at missed
      · exact missed.before (steady_modifyProc (.of_eq rfl rfl rfl rfl rfl))
      · have noted : Steady s (s.noteAdd s.clockNs value) :=
          steady_of_procs rfl rfl rfl rfl
        exact missed.before
          (noted.trans (steady_modifyProc (.of_eq rfl rfl rfl rfl rfl)))
  | reap pid =>
      obtain ⟨rfl, -⟩ := Prod.mk.inj (Option.some.inj done)
      exact missed.before (steady_modifyProc (.of_eq rfl rfl rfl rfl rfl))
  | setDeadline id deadline =>
      obtain ⟨rfl, -⟩ := Prod.mk.inj (Option.some.inj done)
      exact missed.before (steady_of_procs rfl rfl rfl rfl)
  | handOff src site =>
      obtain ⟨⟨middle, handoff⟩, handed, same⟩ := Option.map_eq_some_iff.1 done
      obtain rfl : middle = later := congrArg Prod.fst same
      exact missed.before_handOff tidy (registered_of_possible possible) handed
  | choose me site =>
      obtain ⟨⟨middle, handoff⟩, chosen, same⟩ := Option.map_eq_some_iff.1 done
      obtain rfl : middle = later := congrArg Prod.fst same
      exact missed.before_choose tidy chosen
  | crash victim =>
      obtain ⟨rfl, -⟩ := Prod.mk.inj (Option.some.inj done)
      exact missed.before_crash tidy possible.1.1
  | processDied pid status =>
      obtain ⟨⟨middle, handoff⟩, died, same⟩ := Option.map_eq_some_iff.1 done
      obtain rfl : middle = later := congrArg Prod.fst same
      exact missed.before_processDied tidy possible died
  | threadKill id sig =>
      obtain ⟨rfl, -⟩ := Prod.mk.inj (Option.some.inj done)
      exact missed.before (steady_of_procs rfl rfl rfl rfl)
  | takeSignals id unmasked =>
      obtain ⟨rfl, -⟩ := Prod.mk.inj (Option.some.inj done)
      have taken : Steady s (s.modifyProc (s.threads id).pid fun p =>
          { p with sigPending := p.sigPending.ldiff unmasked }) :=
        steady_modifyProc (.of_eq rfl rfl rfl rfl rfl)
      exact missed.before (taken.trans (steady_of_procs rfl rfl rfl rfl))
  | condEnqueue id cond =>
      obtain ⟨rfl, -⟩ := Prod.mk.inj (Option.some.inj done)
      exact missed.before (steady_of_procs rfl rfl rfl rfl)
  | condWake pid cond all =>
      obtain ⟨rfl, -⟩ := Prod.mk.inj (Option.some.inj done)
      exact missed.before (condWakeLoop_steady _ s cond all)
  | noteOutsideWake pid =>
      obtain ⟨rfl, -⟩ := Prod.mk.inj (Option.some.inj done)
      exact missed.before (steady_modifyProc (.of_eq rfl rfl rfl rfl rfl))
  | clockRead =>
      obtain ⟨rfl, -⟩ := Prod.mk.inj (Option.some.inj done)
      exact missed.before
        ((Steady.clock s _ _).trans (Changes.steady (changes_clockMoved _)))
  | _ => simp [Op.calm, Op.setting] at calm setting

/-- Every crash was decided about. -/
def Decided (s : State) : Prop :=
  ∀ pid, ¬Missed s pid

theorem decided_of_reachable (reachable : schedule.Reachable s) : s.Decided := by
  refine reachable.invariantOf (fun _ => tidy_of_reachable) ?_ ?_
  · rintro _ ⟨seed, quantumLo, quantumHi, names, latencyNs, rfl⟩ pid missed
    cases missed.killed
  · rintro state event later tidy decided ⟨possible, fuel, done⟩ pid missed
    exact decided pid (missed.before_exec tidy possible done)

/-! ## After a death -/

/-- A process is dead, and what takes its place is settled. -/
structure Replaced (s : State) (pid : Pid) (new : Option Pid) : Prop where
  dead : s.Dead pid
  replacedBy : (s.procs pid).replacedBy = new

theorem Replaced.of_eq
    {new : Option Pid}
    (replaced : Replaced s pid new)
    (nprocs : s.nprocs ≤ later.nprocs)
    (alive : (later.procs pid).alive = (s.procs pid).alive)
    (replacedBy : (later.procs pid).replacedBy = (s.procs pid).replacedBy) :
    Replaced later pid new :=
  ⟨⟨replaced.dead.1.trans_le nprocs, alive.trans replaced.dead.2⟩,
    replacedBy.trans replaced.replacedBy⟩

theorem Replaced.modifyProc
    {new : Option Pid}
    (replaced : Replaced s pid new)
    (other : Pid)
    (change : ProcRec → ProcRec)
    (alive : ∀ p, (change p).alive = p.alive)
    (replacedBy : ∀ p, (change p).replacedBy = p.replacedBy) :
    Replaced (s.modifyProc other change) pid new := by
  unfold State.modifyProc
  by_cases same : pid = other
  · subst same
    refine replaced.of_eq le_rfl ?_ ?_
    · dsimp only
      rw [Function.update_self, alive]
    · dsimp only
      rw [Function.update_self, replacedBy]
  · refine replaced.of_eq le_rfl ?_ ?_ <;> dsimp only <;>
      rw [Function.update_of_ne same]

theorem Change.replaced
    (change : Change s later)
    {new : Option Pid}
    (replaced : Replaced s pid new) : Replaced later pid new := by
  cases change with
  | count => exact replaced.of_eq le_rfl rfl rfl
  | wake => exact replaced.of_eq le_rfl rfl rfl
  | net => exact replaced.of_eq le_rfl rfl rfl
  | noise noise =>
      obtain ⟨_, _, _, _, same⟩ := noise pid
      refine replaced.of_eq le_rfl ?_ ?_ <;> dsimp only <;> rw [same]
      rfl
  | signal other sig =>
      have signalled := replaced.modifyProc other (.addSignal sig)
        (fun _ => rfl) fun _ => rfl
      exact signalled.of_eq le_rfl rfl rfl
  | alarm other registered pending reached =>
      obtain ⟨again, procs, stopped⟩ := fireAlarm_procs pending reached
      have tables := (Change.alarm other registered pending reached).tables
      have rearmed := replaced.modifyProc other
        (fun p => (p.setAlarmAt again).addSignal sigalrm)
        (fun _ => rfl) fun _ => rfl
      refine rearmed.of_eq tables.1.ge ?_ ?_ <;> rw [procs] <;> rfl
  | stop =>
      obtain same | same := s.stopRun_proc pid <;>
        refine replaced.of_eq le_rfl ?_ ?_ <;> rw [same]
      rfl
  | grace other =>
      have used := replaced.modifyProc other .useUpShutdown
        (fun p => by unfold ProcRec.useUpShutdown; split <;> rfl)
        fun p => by unfold ProcRec.useUpShutdown; split <;> rfl
      exact used.modifyProc other _ (fun _ => rfl) fun _ => rfl

theorem Changes.replaced
    (changes : Changes s later)
    {new : Option Pid}
    (replaced : Replaced s pid new) : Replaced later pid new :=
  Changes.keep (P := fun s => Replaced s pid new)
    (fun change => change.replaced) changes replaced

theorem Replaced.newLife
    {new : Option Pid}
    (replaced : Replaced s pid new)
    {victim : Pid}
    (registered : victim < s.nprocs)
    (other : pid ≠ victim) : Replaced (s.newLife victim) pid new := by
  have tables := (newLife_tables registered).1
  obtain ⟨_, _, _, _, _, _, _, same, -⟩ := newLife_eq registered
  refine replaced.of_eq (by omega) ?_ ?_ <;>
    rw [same, born_procs, if_neg replaced.dead.1.ne, if_neg other]

theorem Replaced.crash
    {new : Option Pid}
    (replaced : Replaced s pid new)
    {victim : Pid}
    (registered : victim < s.nprocs)
    (other : pid ≠ victim) : Replaced (s.crash victim) pid new := by
  have killed : Replaced (s.killed victim) pid new := by
    have same : (s.killed victim).procs pid = s.procs pid :=
      Function.update_of_ne other _ _
    refine replaced.of_eq le_rfl ?_ ?_ <;> rw [same]
  have grieved := Changes.replaced (changes_grieved _ victim) killed
  have dead := (dead_killed (s := s) registered).grieved
  rw [crash_eq]
  obtain ⟨restarts, same⟩ | ⟨-, same⟩ :=
    registerRestart_cases dead.1 dead.2 killedStatus
  · rw [same]
    exact grieved.newLife dead.1 other
  · rw [same]
    exact grieved

theorem Alive.ne_dead
    {victim : Pid}
    (alive : s.Alive victim)
    (dead : s.Dead pid) : pid ≠ victim := by
  rintro rfl
  have isAlive := alive.2
  rw [dead.2] at isAlive
  cases isAlive

theorem alive_of_pendingCrash
    {due : Nat}
    (registered : pid < s.nprocs)
    (pending : (s.procs pid).pendingCrash = some due) : s.Alive pid := by
  unfold ProcRec.pendingCrash at pending
  split at pending
  · next ahead => exact ⟨registered, ahead.2⟩
  · cases pending

theorem Deeds.replaced
    (deeds : Deeds s later)
    {new : Option Pid}
    (replaced : Replaced s pid new) : Replaced later pid new := by
  induction deeds with
  | refl => exact replaced
  | tail _ deed inductionHypothesis =>
      cases deed with
      | change change => exact change.replaced inductionHypothesis
      | crash victim alive =>
          exact inductionHypothesis.crash alive.1
            (alive.ne_dead inductionHypothesis.dead)
      | strike victim registered pending reached =>
          have other := (alive_of_pendingCrash registered pending).ne_dead
            inductionHypothesis.dead
          have used := inductionHypothesis.modifyProc victim .useUpCrash
            (fun p => by unfold ProcRec.useUpCrash; split <;> rfl)
            fun p => by unfold ProcRec.useUpCrash; split <;> rfl
          exact used.crash registered other

theorem Passages.replaced
    (passages : Passages s later)
    {new : Option Pid}
    (replaced : Replaced s pid new) : Replaced later pid new := by
  induction passages with
  | refl => exact replaced
  | tail _ passage inductionHypothesis =>
      cases passage with
      | deed deed => exact Deeds.replaced (.single deed) inductionHypothesis
      | jump => exact inductionHypothesis.of_eq le_rfl rfl rfl
      | reseed => exact inductionHypothesis.of_eq le_rfl rfl rfl

theorem Replaced.choose
    {new : Option Pid}
    (replaced : Replaced s pid new)
    {me : Option ThreadId}
    {site : UInt64}
    {handoff : Handoff}
    (chosen : s.choose fuel me site = some (later, handoff)) :
    Replaced later pid new := by
  refine choose_keep (P := fun s => Replaced s pid new)
    (fun passages => passages.replaced replaced)
    (fun choice replaced => ?_) (fun _ _ replaced => ?_) chosen
  · refine replaced.of_eq choice.nprocs.ge ?_ ?_ <;> rw [choice.procs]
  · obtain ⟨_, _, _, _, _, _, same⟩ := giveBaton_eq _ me _ site
    rw [same]
    exact replaced.of_eq le_rfl rfl rfl

theorem restartDue_noteExit (s : State) (pid : Pid) (status : Int) :
    (s.noteExit pid status).restartDue pid status = s.restartDue pid status := by
  unfold restartDue
  rw [noteExit_proc]
  rfl

theorem willRestart_of_first
    {status : Int}
    (first : (s.procs pid).replacedBy = none) :
    s.willRestart pid status = (s.restartDue pid status && s.hasRoom) := by
  unfold willRestart
  rw [first]
  rfl

/-- Where no restart would be registered now, the launcher expects the one there
is. -/
theorem willRestart_of_refused
    {status : Int}
    (refused : (s.procs pid).replacedBy = none →
      s.restartDue pid status = true → s.hasRoom = true → False) :
    s.willRestart pid status = true ↔
      (s.procs pid).replacedBy.isSome = true := by
  cases first : (s.procs pid).replacedBy with
  | some new => simp [willRestart, first]
  | none =>
      rw [willRestart_of_first first, Bool.and_eq_true]
      exact ⟨fun due => (refused first due.1 due.2).elim, nofun⟩

theorem dead_newLife (dead : s.Dead pid) : (s.newLife pid).Dead pid := by
  have tables := (newLife_tables dead.1).1
  obtain ⟨_, _, _, _, _, _, _, same, -⟩ := newLife_eq dead.1
  refine ⟨tables ▸ dead.1.trans (Nat.lt_succ_self _), ?_⟩
  rw [same, born_procs, if_neg dead.1.ne, if_pos rfl]
  exact dead.2

/-- The report of a death replaces the process as the launcher was told. -/
theorem replaced_buried
    (decided : s.Decided)
    (registered : pid < s.nprocs)
    (status : Int) :
    ∃ new, Replaced (s.buried pid status) pid new ∧
      (s.willRestart pid status = true ↔ new.isSome = true) := by
  have dead := dead_noteExit registered status
  have same := s.noteExit_proc pid status
  have old : ((s.noteExit pid status).procs pid).replacedBy =
      (s.procs pid).replacedBy := by rw [same]
  have exited : Replaced (s.noteExit pid status) pid
      (s.procs pid).replacedBy := ⟨dead, old⟩
  rw [buried_eq]
  split
  · next killed =>
      have wasKilled : (s.procs pid).killed = true := by rwa [same] at killed
      refine ⟨_, exited.of_eq le_rfl rfl rfl, willRestart_of_refused ?_⟩
      intro first due room
      exact decided pid ⟨wasKilled, first, restartDue_mono due, room⟩
  · have mourned {new : Option Pid}
        (registers : Replaced ((s.noteExit pid status).registerRestart pid status)
          pid new) :
        Replaced ((s.noteExit pid status).mourn pid status) pid new := by
      rw [mourn_eq]
      exact Changes.replaced (changes_closeDown _ pid)
        (registers.modifyProc pid _ (fun _ => rfl) fun _ => rfl)
    obtain ⟨restarts, again⟩ | ⟨refused, again⟩ :=
      registerRestart_cases dead.1 dead.2 status
    · refine ⟨some (s.noteExit pid status).nprocs,
        (mourned ⟨?_, ?_⟩).of_eq le_rfl rfl rfl, ?_⟩
      · rw [again]
        exact dead_newLife dead
      · rw [again]
        exact newLife_replacedBy dead.1
      · have first := restarts.first
        have due := restarts.due
        rw [old] at first
        rw [restartDue_noteExit] at due
        have room : s.hasRoom = true := restarts.room
        rw [willRestart_of_first first, due, room]
        rfl
    · rw [← again] at exited
      refine ⟨_, (mourned exited).of_eq le_rfl rfl rfl,
        willRestart_of_refused ?_⟩
      intro first due room
      exact refused ⟨dead.1, dead.2, old.trans first,
        (restartDue_noteExit s pid status).trans due, room⟩

/-- What the launcher asks is what the scheduler does. -/
theorem willRestart_iff
    (reachable : schedule.Reachable s)
    {pid : Pid}
    (registered : pid < s.nprocs)
    {status : Int}
    {handoff : Option Handoff}
    (died : s.processDied fuel pid status = some (later, handoff)) :
    s.willRestart pid status = true ↔
      ((later.procs pid).replacedBy).isSome = true := by
  obtain ⟨new, replaced, asked⟩ :=
    replaced_buried (decided_of_reachable reachable) registered status
  rw [asked]
  obtain ⟨-, rfl, -⟩ | ⟨id, passed, -, handed, -⟩ :=
    processDied_eq_some_iff.1 died
  · rw [replaced.replacedBy]
  · have written : Replaced ((s.buried pid status).recorded
        (some (id, .exited, 0))) pid new := by
      have tables := (s.buried pid status).recorded_tables (some (id, .exited, 0))
      refine replaced.of_eq tables.2.ge ?_ ?_ <;> rw [tables.1]
    rw [(written.choose handed).replacedBy]

/-- A process that is always started again was crashed. -/
def crashedOnce : List Op :=
  [.addProc 0 none, .addThread 0,
    .setFaults 0 { restart := .always, restartsLeft := 1 } 0, .attach 0 40,
    .crash 0]

theorem willRestart_crashedOnce :
    ∃ s later : State, ∃ handoff,
      s.processDied 0 0 0 = some (later, handoff) ∧
        s.willRestart 0 0 = true ∧
          ((later.procs 0).replacedBy).isSome = true := by
  obtain ⟨s, played, facts⟩ := Option.map_eq_some_iff.mp
    (by decide +kernel : (play 0 crashedOnce (initial 1 1 1 [] 0)).map
      (fun s => ((s.processDied 0 0 0).isSome, decide (0 < s.nprocs),
        s.willRestart 0 0)) = some (true, true, true))
  obtain ⟨died, registered, will⟩ : _ ∧ _ ∧ _ := by
    simpa only [Prod.mk.injEq, decide_eq_true_eq] using facts
  obtain ⟨⟨later, handoff⟩, died⟩ := Option.isSome_iff_exists.1 died
  have reachable := reachable_play (.start ⟨1, 1, 1, [], 0, rfl⟩) played
  exact ⟨s, later, handoff, died, will,
    (willRestart_iff reachable registered died).1 will⟩

end State
end Derp

import Derp.Net.Slots
import Derp.Sched.Restarts

/-!
# Deadlocks

A guest that finds the run idle reports a deadlock, unless a process has threads
that the scheduler does not run and that could still wake someone.  The launcher
reports one when a process dies with the baton and nobody can take it, without
that exception.
-/

namespace Derp
namespace State

variable
  {s middle later : State}
  {pid : Pid}
  {fuel : Nat}

/-- The launcher's report of a death, and whether it calls it a deadlock. -/
def coordinatorProcessDied
    (fuel : Nat)
    (s : State)
    (pid : Pid)
    (status : Int) : Option (State × Bool) :=
  (s.processDied fuel pid status).map fun (s, handoff) =>
    let (s, _) := s.takeKills
    (s, handoff = some .idle && s.anyAlive && !s.stopped)

/-- A guest that goes idle says first whether it has itself threads that the
scheduler does not run. -/
def noteOutside (s : State) (me : Pid) (outside : Bool) : State :=
  s.modifyProc me fun p =>
    { p with hasOutsideThreads := p.hasOutsideThreads || outside }

/-- A guest that goes idle here, with such threads or without, reports a deadlock
and aborts at once. -/
def abortsIdle (s : State) (me : Pid) (outside : Bool) : Bool :=
  s.runnable = 0 && s.nextEvent.isNone && s.anyAlive && !s.stopped &&
    !(s.noteOutside me outside).anyOutsideThreads

/-- A live process with threads that the scheduler does not run. -/
def Outsider (s : State) (pid : Pid) : Prop :=
  pid < s.nprocs ∧ (s.procs pid).state = .live ∧
    (s.procs pid).hasOutsideThreads = true

theorem anyOutsideThreads_iff :
    s.anyOutsideThreads = true ↔ ∃ pid, Outsider s pid := by
  unfold anyOutsideThreads Outsider pids
  simp

/-! ## Who has threads outside the schedule -/

theorem outsider_congr
    (nprocs : later.nprocs = s.nprocs)
    (state : (later.procs pid).state = (s.procs pid).state)
    (outside : (later.procs pid).hasOutsideThreads =
      (s.procs pid).hasOutsideThreads) :
    Outsider later pid ↔ Outsider s pid := by
  unfold Outsider
  rw [nprocs, state, outside]

theorem outsider_modifyProc
    (s : State)
    (other : Pid)
    (change : ProcRec → ProcRec)
    (state : ∀ p, (change p).state = p.state)
    (outside : ∀ p, (change p).hasOutsideThreads = p.hasOutsideThreads) :
    Outsider (s.modifyProc other change) pid ↔ Outsider s pid := by
  unfold modifyProc
  by_cases same : pid = other
  · subst same
    refine outsider_congr rfl ?_ ?_
    · dsimp only
      rw [Function.update_self, state]
    · dsimp only
      rw [Function.update_self, outside]
  · refine outsider_congr rfl ?_ ?_ <;> dsimp only <;>
      rw [Function.update_of_ne same]

/-- A guest that is live counts with its own. -/
theorem outsider_noteOutside
    (s : State)
    (me : Pid)
    (outside : Bool) :
    Outsider (s.noteOutside me outside) pid ↔
      Outsider s pid ∨ pid = me ∧ outside = true ∧ me < s.nprocs ∧
        (s.procs me).state = .live := by
  unfold noteOutside modifyProc Outsider
  by_cases same : pid = me
  · subst same
    simp only [Function.update_self, Bool.or_eq_true]
    tauto
  · simp only [Function.update_of_ne same, same, false_and, or_false]

/-- Changes leave them alone. -/
theorem Change.outsider (change : Change s later) :
    Outsider later pid ↔ Outsider s pid := by
  cases change with
  | count => exact outsider_congr rfl rfl rfl
  | wake => exact outsider_congr rfl rfl rfl
  | net => exact outsider_congr rfl rfl rfl
  | noise noise =>
      obtain ⟨_, _, _, _, same⟩ := noise pid
      refine outsider_congr rfl ?_ ?_ <;> dsimp only <;> rw [same]
  | signal other sig =>
      exact outsider_modifyProc s other (.addSignal sig) (fun _ => rfl)
        fun _ => rfl
  | alarm other registered pending reached =>
      obtain ⟨again, procs, -⟩ := fireAlarm_procs pending reached
      have tables := (Change.alarm other registered pending reached).tables
      have rearmed : Outsider (s.modifyProc other fun p =>
          (p.setAlarmAt again).addSignal sigalrm) pid ↔ Outsider s pid :=
        outsider_modifyProc s other _ (fun _ => rfl) fun _ => rfl
      rw [← rearmed]
      refine outsider_congr tables.1 ?_ ?_ <;> rw [procs] <;> rfl
  | stop =>
      obtain same | same := s.stopRun_proc pid <;>
        refine outsider_congr rfl ?_ ?_ <;> rw [same]
  | grace other =>
      have used : Outsider (s.modifyProc other .useUpShutdown) pid ↔
          Outsider s pid := by
        apply outsider_modifyProc <;> intro p <;>
          unfold ProcRec.useUpShutdown <;> split <;> rfl
      exact (outsider_modifyProc _ other (.beginGrace _) (fun _ => rfl)
        fun _ => rfl).trans used

theorem outsider_killed (s : State) (victim : Pid) :
    Outsider (s.killed victim) pid ↔ Outsider s pid :=
  outsider_modifyProc (s.retireThreads victim) victim _ (fun _ => rfl)
    fun _ => rfl

theorem outsider_newLife
    {victim : Pid}
    (registered : victim < s.nprocs) :
    Outsider (s.newLife victim) pid ↔ Outsider s pid := by
  obtain ⟨_, _, _, _, _, _, _, same, -⟩ := newLife_eq registered
  have tables := (newLife_tables registered).1
  unfold Outsider
  rw [tables, same, born_procs]
  split
  · next new =>
      subst new
      constructor
      · rintro ⟨-, live, -⟩
        cases live
      · rintro ⟨inside, -⟩
        exact absurd inside (lt_irrefl _)
  · next old =>
      have inside : pid < s.nprocs + 1 ↔ pid < s.nprocs :=
        ⟨fun inside => lt_of_le_of_ne (Nat.lt_succ_iff.1 inside) old,
          fun inside => inside.trans (Nat.lt_succ_self _)⟩
      rw [inside]
      split
      · next victim =>
          subst victim
          rfl
      · rfl

theorem Changes.outsider (changes : Changes s later) :
    Outsider later pid ↔ Outsider s pid :=
  Changes.keep (P := fun later => Outsider later pid ↔ Outsider s pid)
    (fun change same => change.outsider.trans same) changes .rfl

theorem Deeds.outsider (deeds : Deeds s later) :
    Outsider later pid ↔ Outsider s pid := by
  refine Deeds.keep (P := fun later => Outsider later pid ↔ Outsider s pid)
    (fun change same => change.outsider.trans same)
    (fun _ same => (outsider_killed _ _).trans same)
    (fun _ _ _ same => ?_)
    (fun restarts same => (outsider_newLife restarts.registered).trans same)
    deeds .rfl
  refine ((outsider_killed _ _).trans (outsider_modifyProc _ _ _ ?_ ?_)).trans
    same
  · intro p
    unfold ProcRec.useUpCrash
    split <;> rfl
  · intro p
    unfold ProcRec.useUpCrash
    split <;> rfl

theorem Passages.outsider (passages : Passages s later) :
    Outsider later pid ↔ Outsider s pid := by
  induction passages with
  | refl => rfl
  | tail _ passage inductionHypothesis =>
      cases passage with
      | deed deed => exact (Deeds.outsider (.single deed)).trans inductionHypothesis
      | jump => exact (outsider_congr rfl rfl rfl).trans inductionHypothesis
      | reseed => exact (outsider_congr rfl rfl rfl).trans inductionHypothesis

/-- The report of a death takes its process off them. -/
theorem outsider_buried
    (s : State)
    (registered : pid < s.nprocs)
    (status : Int)
    (other : Pid) :
    Outsider (s.buried pid status) other ↔ other ≠ pid ∧ Outsider s other := by
  have noted : Outsider (s.noteExit pid status) other ↔
      other ≠ pid ∧ Outsider s other := by
    unfold Outsider noteExit modifyProc
    dsimp only
    by_cases same : other = pid
    · subst same
      rw [Function.update_self]
      simp
    · rw [Function.update_of_ne same]
      simp [same]
  have dead := dead_noteExit registered status
  rw [buried_eq, ← noted]
  refine (outsider_congr rfl rfl rfl).trans ?_
  split
  · rfl
  · rw [mourn_eq]
    refine (Changes.outsider (changes_closeDown _ pid)).trans
      ((outsider_modifyProc _ pid .clearFaultTimes (fun _ => rfl)
        fun _ => rfl).trans ?_)
    obtain ⟨-, same⟩ | ⟨-, same⟩ := registerRestart_cases dead.1 dead.2 status
    · rw [same]
      exact outsider_newLife dead.1
    · rw [same]

/-! ## The verdicts -/

theorem nextEvent_congr
    (threads : later.threads = s.threads)
    (nthreads : later.nthreads = s.nthreads)
    (nprocs : later.nprocs = s.nprocs)
    (net : later.net = s.net)
    (stop : later.pendingStop = s.pendingStop)
    (crash : ∀ pid, (later.procs pid).pendingCrash = (s.procs pid).pendingCrash)
    (shutdown : ∀ pid,
      (later.procs pid).pendingShutdown = (s.procs pid).pendingShutdown)
    (alarm : ∀ pid,
      (later.procs pid).pendingAlarm = (s.procs pid).pendingAlarm) :
    later.nextEvent = s.nextEvent := by
  have deadline : later.earliestDeadline = s.earliestDeadline := by
    unfold earliestDeadline live
    rw [threads, nthreads]
  have crashes : later.nextCrash = s.nextCrash := by
    unfold nextCrash pids
    simp only [nprocs, crash, shutdown]
  have alarms : later.nextAlarm = s.nextAlarm := by
    unfold nextAlarm pids
    simp only [nprocs, alarm]
  unfold nextEvent
  rw [deadline, net, crashes, stop, alarms]

/-- To hand the kills out changes nothing that a verdict looks at. -/
theorem takeKills_frame (s : State) :
    s.takeKills.1.runnable = s.runnable ∧
      s.takeKills.1.anyAlive = s.anyAlive ∧
      s.takeKills.1.stopped = s.stopped ∧
      s.takeKills.1.nextEvent = s.nextEvent := by
  unfold takeKills
  split
  · exact ⟨rfl, rfl, rfl, rfl⟩
  · refine ⟨rfl, rfl, rfl, ?_⟩
    dsimp only
    apply nextEvent_congr <;> first
      | rfl
      | (intro pid; unfold mapProcs; dsimp only; split
         · split <;> rfl
         · rfl)

/-- Where a choice finds nothing to run and threads are left, no event is
pending. -/
theorem Chooses.idle
    {fuel : Nat}
    (chooses : Chooses fuel s middle false)
    (alive : middle.anyAlive = true) :
    middle.runnable = 0 ∧ middle.nextEvent = none := by
  have isOver := chooses.passages.2
  unfold pickOver at isOver
  split at isOver
  · cases isOver
  next none =>
  rw [not_not] at none
  split at isOver
  · next event => exact ⟨none, event⟩
  · cases isOver

theorem giveBaton_ne_idle
    (s : State)
    (me : Option ThreadId)
    (next : ThreadId)
    (site : UInt64) : (s.giveBaton me next site).2 ≠ .idle := by
  unfold giveBaton
  dsimp only
  split <;> nofun

/-- A death that ends in an idle run: no thread can run, and no event is
pending if threads are left. -/
theorem processDied_idle
    {status : Int}
    (died : s.processDied fuel pid status = some (later, some .idle)) :
    ∃ src, Chooses fuel ((s.buried pid status).recorded src) later false := by
  obtain ⟨-, -, none⟩ | ⟨id, passed, -, handed, some⟩ :=
    processDied_eq_some_iff.1 died
  · cases none
  · obtain rfl := Option.some.inj some
    obtain ⟨middle, ⟨-, given⟩ | ⟨chooses, rfl, -⟩⟩ :=
      choose_eq_some_iff.1 handed
    · exact absurd (congrArg Prod.snd given) (giveBaton_ne_idle _ _ _ _)
    · exact ⟨_, chooses⟩

theorem outsider_recorded
    (s : State)
    (src : Option (ThreadId × ThreadState × Nat)) :
    Outsider (s.recorded src) pid ↔ Outsider s pid := by
  obtain ⟨procs, nprocs⟩ := s.recorded_tables src
  refine outsider_congr nprocs ?_ ?_ <;> rw [procs]

/-- The launcher's deadlock is one to a guest exactly when no other live process
has threads outside the schedule, nor the guest itself. -/
theorem deadlock_iff
    (registered : pid < s.nprocs)
    {status : Int}
    (died : s.coordinatorProcessDied fuel pid status = some (later, true))
    (me : Pid)
    (outside : Bool) :
    later.abortsIdle me outside = true ↔ (¬∃ other ≠ pid, Outsider s other) ∧
      ¬(outside = true ∧ me < later.nprocs ∧ (later.procs me).state = .live) := by
  obtain ⟨⟨after, handoff⟩, died, answer⟩ := Option.map_eq_some_iff.1 died
  obtain rfl : after.takeKills.1 = later := congrArg Prod.fst answer
  have verdict : (decide (handoff = some .idle) && after.takeKills.1.anyAlive &&
      !after.takeKills.1.stopped) = true := congrArg Prod.snd answer
  obtain ⟨runnable, alive, stopped, event⟩ := after.takeKills_frame
  rw [Bool.and_eq_true, Bool.and_eq_true, decide_eq_true_eq, alive, stopped]
    at verdict
  obtain ⟨⟨rfl, isAlive⟩, running⟩ := verdict
  obtain ⟨src, chooses⟩ := processDied_idle died
  obtain ⟨none, calm⟩ := chooses.idle isAlive
  have outsiders (other : Pid) :
      Outsider after.takeKills.1 other ↔ other ≠ pid ∧ Outsider s other := by
    rw [Changes.outsider (changes_takeKills after),
      Passages.outsider chooses.passages.1, outsider_recorded,
      outsider_buried s registered status]
  have verdict : after.takeKills.1.abortsIdle me outside =
      !(after.takeKills.1.noteOutside me outside).anyOutsideThreads := by
    unfold abortsIdle
    rw [runnable, event, alive, stopped, none, calm, isAlive, running]
    rfl
  rw [verdict, Bool.not_eq_true', ← Bool.not_eq_true, anyOutsideThreads_iff, ← not_or]
  refine not_congr ?_
  simp only [outsider_noteOutside, outsiders, ne_eq]
  constructor
  · rintro ⟨other, found | ⟨rfl, isOwn⟩⟩
    · exact .inl ⟨other, found⟩
    · exact .inr isOwn
  · rintro (⟨other, found⟩ | isOwn)
    · exact ⟨other, .inl found⟩
    · exact ⟨me, .inr ⟨rfl, isOwn⟩⟩

/-- A report of a death in a network without descriptors. -/
theorem buried_of_empty
    (registered : pid < s.nprocs)
    (empty : ∀ at', (s.net.fdrefs at').count = 0)
    (killed : (s.procs pid).killed = false)
    (status : Int) :
    s.buried pid status =
      ((((s.noteExit pid status).registerRestart pid status).modifyProc pid
          .clearFaultTimes).wakeIo.tellParent pid).mapLive fun t =>
        if t.pid = pid ∧ t.state ≠ .exited then t.retire else t := by
  have dead := dead_noteExit registered status
  have kept : ((s.noteExit pid status).procs pid).killed = false := by
    rw [noteExit_proc]
    exact killed
  have net : ((s.noteExit pid status).registerRestart pid status).net =
      s.net := by
    obtain ⟨-, same⟩ | ⟨-, same⟩ := registerRestart_cases dead.1 dead.2 status
    · obtain ⟨_, _, _, _, _, _, _, born, -⟩ := newLife_eq dead.1
      rw [same, born]
      rfl
    · rw [same]
      rfl
  rw [buried_eq, kept, if_neg (by decide), mourn_eq]
  unfold closeDown
  have cleared : (((s.noteExit pid status).registerRestart pid status).modifyProc
      pid .clearFaultTimes).net = s.net := net
  rw [cleared, Net.processDied_of_empty empty, ← cleared]
  rfl

/-- A thread of the first process waits for a lock, and the second process has
the baton. -/
def waitsForOther : List Op :=
  [.addProc 0 none, .addThread 0, .attach 0 40, .handOff none 0,
    .addProc 0 none, .addThread 1, .handOff (some (0, .blocked, 64)) 0]

theorem deadlock_waitsForOther :
    ∃ later : State, schedule.Reachable (played 1 waitsForOther) ∧
      (played 1 waitsForOther).coordinatorProcessDied 1 1 9 = some (later, true) ∧
        later.abortsIdle 0 false = true := by
  have died : ((played 1 waitsForOther).coordinatorProcessDied 1 1 9).map
      Prod.snd = some true := by
    unfold coordinatorProcessDied processDied
    rw [buried_of_empty (by decide +kernel) (fun _ => rfl) (by decide +kernel)]
    decide +kernel
  obtain ⟨⟨later, verdict⟩, died, rfl⟩ := Option.map_eq_some_iff.1 died
  refine ⟨later, reachable_played (by decide +kernel), died,
    (deadlock_iff (by decide +kernel) died 0 false).2 ⟨?_, by simp⟩⟩
  rintro ⟨other, -, outsider⟩
  have inside : (played 1 waitsForOther).anyOutsideThreads = false := by
    decide +kernel
  rw [anyOutsideThreads_iff.2 ⟨other, outsider⟩] at inside
  cases inside

/-- The same with a thread outside the schedule in the first process: the
launcher reports a deadlock, and a guest would wait. -/
theorem deadlock_outsideThread :
    ∃ s later : State, schedule.Reachable s ∧
      s.coordinatorProcessDied 1 1 9 = some (later, true) ∧
        later.anyOutsideThreads = true ∧ later.abortsIdle 0 false = false := by
  have died : ((played 1 (waitsForOther ++ [.noteOutsideWake 0])
      ).coordinatorProcessDied 1 1 9).map (fun result =>
        (result.2, result.1.anyOutsideThreads, result.1.abortsIdle 0 false)) =
          some (true, true, false) := by
    unfold coordinatorProcessDied processDied
    rw [buried_of_empty (by decide +kernel) (fun _ => rfl) (by decide +kernel)]
    decide +kernel
  obtain ⟨⟨later, verdict⟩, died, same⟩ := Option.map_eq_some_iff.1 died
  obtain ⟨rfl, outside, goesOn⟩ : _ ∧ _ ∧ _ := by
    simpa only [Prod.mk.injEq] using same
  exact ⟨_, later, reachable_played (by decide +kernel), died, outside, goesOn⟩

end State
end Derp

import Derp.Sched.Baton
import Derp.Sched.Waiting

/-!
# What leaves parked threads parked

Only the thread that has the baton blocks, and only itself: whatever else
happens, a thread that is blocked afterwards was blocked before, on the same key.
What a thread has seen of the wakes from outside the schedule is its own, and
those wakes are only ever counted up.
-/

namespace Derp

/-- A thread does not block, or change what it is blocked on. -/
structure ThreadRec.StaysParked (t t' : ThreadRec) : Prop where
  pid : t'.pid = t.pid
  wakesSeen : t'.wakesSeen = t.wakesSeen
  blocked : t'.state = .blocked → t.state = .blocked ∧ t'.key = t.key
  exited : t.state = .exited → t'.state = .exited

namespace ThreadRec

variable {t t' t'' : ThreadRec}

theorem StaysParked.refl (t : ThreadRec) : t.StaysParked t :=
  ⟨rfl, rfl, fun blocked => ⟨blocked, rfl⟩, id⟩

theorem StaysParked.trans
    (first : t.StaysParked t')
    (second : t'.StaysParked t'') : t.StaysParked t'' where
  pid := second.pid.trans first.pid
  wakesSeen := second.wakesSeen.trans first.wakesSeen
  blocked := fun blocked => by
    obtain ⟨between, key⟩ := second.blocked blocked
    obtain ⟨before, key'⟩ := first.blocked between
    exact ⟨before, key.trans key'⟩
  exited := fun exited => second.exited (first.exited exited)

/-- Only what a parked thread is told by matters. -/
theorem staysParked_of_eq
    (pid : t'.pid = t.pid)
    (wakesSeen : t'.wakesSeen = t.wakesSeen)
    (state : t'.state = t.state)
    (key : t'.key = t.key) : t.StaysParked t' :=
  ⟨pid, wakesSeen, fun blocked => ⟨state ▸ blocked, key⟩,
    fun exited => state.trans exited⟩

theorem staysParked_setState
    {state : ThreadState}
    (awake : state ≠ .blocked)
    (staying : t.state ≠ .exited) : t.StaysParked (t.setState state) :=
  ⟨rfl, rfl, fun blocked => absurd blocked awake,
    fun exited => absurd exited staying⟩

theorem staysParked_wake (t : ThreadRec) : t.StaysParked t.wake := by
  unfold wake
  split
  · next blocked =>
      exact staysParked_setState (by decide) (by rw [blocked]; decide)
  · exact .refl t

theorem awake_wake (t : ThreadRec) : t.wake.state ≠ .blocked := by
  unfold wake
  split
  · exact nofun
  · next awake => exact awake

theorem staysParked_gone
    (pid : t'.pid = t.pid)
    (wakesSeen : t'.wakesSeen = t.wakesSeen)
    (exited : t'.state = .exited) : t.StaysParked t' where
  pid := pid
  wakesSeen := wakesSeen
  blocked := fun blocked => by
    rw [exited] at blocked
    cases blocked
  exited := fun _ => exited

theorem staysParked_retire (t : ThreadRec) : t.StaysParked t.retire :=
  staysParked_gone rfl rfl rfl

theorem staysParked_timeOut
    {now : Nat}
    (due : t.expired now = true) : t.StaysParked t.timeOut := by
  unfold expired at due
  simp only [Bool.and_eq_true, decide_eq_true_eq] at due
  refine ⟨rfl, rfl, nofun, fun exited => ?_⟩
  rw [due.1.1] at exited
  cases exited

theorem Aside.staysParked (aside : t.Aside t') : t.StaysParked t' := by
  obtain ⟨_, _, _, rfl⟩ := aside
  exact staysParked_of_eq rfl rfl rfl rfl

end ThreadRec

namespace State

variable
  {s middle later : State}
  {pid : Pid}
  {id : ThreadId}
  {fuel : Nat}

theorem Woken.staysParked
    {t t' : ThreadRec}
    (woken : s.Woken t t') : t.StaysParked t' := by
  cases woken with
  | same => exact .refl _
  | woken blocked =>
      exact ThreadRec.staysParked_setState (by decide) (by rw [blocked]; decide)
  | timedOut due => exact ThreadRec.staysParked_timeOut due

/-- No thread blocks, or changes what it is blocked on. -/
structure KeepsParked (s later : State) : Prop where
  nthreads : s.nthreads ≤ later.nthreads
  nprocs : s.nprocs ≤ later.nprocs
  thread : ∀ id < s.nthreads, (s.threads id).StaysParked (later.threads id)
  spare : ∀ id, s.nthreads ≤ id →
    (later.threads id).wakesSeen = (s.threads id).wakesSeen
  wakes : ∀ pid < s.nprocs,
    (s.procs pid).outsideWakes ≤ (later.procs pid).outsideWakes

theorem KeepsParked.refl (s : State) : KeepsParked s s :=
  ⟨le_rfl, le_rfl, fun _ _ => .refl _, fun _ _ => rfl, fun _ _ => le_rfl⟩

theorem KeepsParked.wakesSeen
    (keeps : KeepsParked s later)
    (id : ThreadId) : (later.threads id).wakesSeen = (s.threads id).wakesSeen := by
  by_cases inside : id < s.nthreads
  · exact (keeps.thread id inside).wakesSeen
  · exact keeps.spare id (not_lt.1 inside)

theorem KeepsParked.trans
    (first : KeepsParked s middle)
    (second : KeepsParked middle later) : KeepsParked s later where
  nthreads := first.nthreads.trans second.nthreads
  nprocs := first.nprocs.trans second.nprocs
  thread := fun id inside => (first.thread id inside).trans
    (second.thread id (inside.trans_le first.nthreads))
  spare := fun id _ => (second.wakesSeen id).trans (first.wakesSeen id)
  wakes := fun pid inside => (first.wakes pid inside).trans
    (second.wakes pid (inside.trans_le first.nprocs))

/-- Other records in tables of the same length. -/
theorem keepsParked_of_records
    (nthreads : later.nthreads = s.nthreads)
    (nprocs : later.nprocs = s.nprocs)
    (threads : ∀ id, (s.threads id).StaysParked (later.threads id))
    (wakes : ∀ pid,
      (s.procs pid).outsideWakes ≤ (later.procs pid).outsideWakes) :
    KeepsParked s later :=
  ⟨nthreads.ge, nprocs.ge, fun id _ => threads id,
    fun id _ => (threads id).wakesSeen, fun pid _ => wakes pid⟩

/-- What else is in the state does not matter. -/
theorem keepsParked_of_eq
    (nthreads : later.nthreads = s.nthreads)
    (nprocs : later.nprocs = s.nprocs)
    (threads : later.threads = s.threads)
    (procs : later.procs = s.procs) : KeepsParked s later :=
  keepsParked_of_records nthreads nprocs
    (fun id => by rw [threads]; exact .refl _) fun pid => by rw [procs]

theorem keepsParked_modifyThread
    (s : State)
    (id : ThreadId)
    {change : ThreadRec → ThreadRec}
    (stays : (s.threads id).StaysParked (change (s.threads id))) :
    KeepsParked s (s.modifyThread id change) := by
  refine keepsParked_of_records rfl rfl (fun other => ?_) fun _ => le_rfl
  unfold modifyThread
  dsimp only
  by_cases same : other = id
  · subst same
    rw [Function.update_self]
    exact stays
  · rw [Function.update_of_ne same]
    exact .refl _

theorem keepsParked_mapLive
    (s : State)
    {change : ThreadRec → ThreadRec}
    (stays : ∀ t : ThreadRec, t.StaysParked (change t)) :
    KeepsParked s (s.mapLive change) := by
  refine keepsParked_of_records rfl rfl (fun id => ?_) fun _ => le_rfl
  unfold mapLive
  dsimp only
  split
  · exact stays _
  · exact .refl _

theorem keepsParked_modifyProc
    (s : State)
    (pid : Pid)
    {change : ProcRec → ProcRec}
    (counts : (s.procs pid).outsideWakes ≤
      (change (s.procs pid)).outsideWakes) :
    KeepsParked s (s.modifyProc pid change) := by
  refine keepsParked_of_records rfl rfl (fun id => .refl _) fun other => ?_
  unfold modifyProc
  dsimp only
  by_cases same : other = pid
  · subst same
    rw [Function.update_self]
    exact counts
  · rw [Function.update_of_ne same]

theorem keepsParked_wakeAll (s : State) (pid : Pid) (key : Nat) :
    KeepsParked s (s.wakeAll pid key) :=
  keepsParked_mapLive s fun t => by
    split
    · exact ThreadRec.staysParked_wake t
    · exact .refl t

/-! ## Deeds -/

theorem keepsParked_fireAlarm
    {due : Nat}
    (pending : (s.procs pid).pendingAlarm = some due)
    (reached : due ≤ s.clockNs) : KeepsParked s (s.fireAlarm pid) := by
  obtain ⟨isOver, again, same, -, -⟩ := s.rearm_eq pid
  rw [fireAlarm_due pending reached, same]
  have noted : KeepsParked s { s with overflow := isOver } :=
    keepsParked_of_eq rfl rfl rfl rfl
  have signalled := (noted.trans (@keepsParked_modifyProc _ pid
    (.setAlarmAt again) le_rfl)).trans
      (@keepsParked_modifyProc _ pid (.addSignal sigalrm) le_rfl)
  unfold wakeFirst
  split
  · next first found =>
      refine signalled.trans (keepsParked_modifyThread _ _ ?_)
      have blocked := List.find?_some found
      rw [Bool.and_eq_true, decide_eq_true_eq, decide_eq_true_eq] at blocked
      exact ThreadRec.staysParked_setState (by decide)
        (by rw [blocked.2]; decide)
  · exact signalled

theorem useUpShutdown_outsideWakes (p : ProcRec) :
    p.useUpShutdown.outsideWakes = p.outsideWakes := by
  unfold ProcRec.useUpShutdown
  split <;> rfl

theorem useUpCrash_outsideWakes (p : ProcRec) :
    p.useUpCrash.outsideWakes = p.outsideWakes := by
  unfold ProcRec.useUpCrash
  split <;> rfl

theorem Change.keepsParked (change : Change s later) : KeepsParked s later := by
  cases change with
  | count => exact keepsParked_of_eq rfl rfl rfl rfl
  | wake woken =>
      exact keepsParked_of_records rfl rfl (fun id => (woken id).staysParked)
        fun _ => le_rfl
  | noise noise =>
      refine keepsParked_of_records rfl rfl (fun _ => .refl _) fun pid => ?_
      obtain ⟨_, _, _, _, same⟩ := noise pid
      exact (congrArg ProcRec.outsideWakes same).ge
  | net => exact keepsParked_of_eq rfl rfl rfl rfl
  | signal pid sig =>
      refine (@keepsParked_modifyProc s pid (.addSignal sig)
        le_rfl).trans (keepsParked_mapLive _ fun t => ?_)
      split
      · exact ThreadRec.staysParked_wake t
      · exact .refl t
  | alarm pid _ pending reached => exact keepsParked_fireAlarm pending reached
  | stop =>
      refine keepsParked_of_records rfl rfl (fun id => ?_) fun pid => ?_
      · obtain same | ⟨same, -, staying⟩ := s.stopRun_thread id
        · rw [same]
          exact .refl _
        · rw [same]
          exact ThreadRec.staysParked_setState (by decide) staying
      · obtain same | same := s.stopRun_proc pid <;> rw [same]
  | grace pid =>
      exact (keepsParked_modifyProc s pid
        (useUpShutdown_outsideWakes _).ge).trans
          (keepsParked_modifyProc _ pid le_rfl)

theorem keepsParked_killed (s : State) (pid : Pid) :
    KeepsParked s (s.killed pid) := by
  have retired : KeepsParked s (s.retireThreads pid) :=
    keepsParked_mapLive s fun t => by
      split
      · exact ThreadRec.staysParked_retire t
      · exact .refl t
  exact retired.trans (keepsParked_modifyProc _ pid le_rfl)

theorem keepsParked_newLife
    (registered : pid < s.nprocs) : KeepsParked s (s.newLife pid) := by
  obtain ⟨rng, isOver, starts, priority, crashAt, shutdownAt, pctRng, same, -⟩ :=
    newLife_eq registered
  rw [same]
  refine ⟨Nat.le_succ _, Nat.le_succ _, fun id inside => ?_, fun id outside => ?_,
    fun other inside => ?_⟩
  · rw [born_threads, if_neg inside.ne]
    exact .refl _
  · rw [born_threads]
    split
    · next new =>
        rw [new]
        rfl
    · rfl
  · rw [born_procs, if_neg inside.ne]
    split
    · next victim =>
        rw [victim]
        rfl
    · rfl

theorem Deeds.keepsParked (deeds : Deeds s later) : KeepsParked s later :=
  Deeds.keep (P := KeepsParked s)
    (fun change kept => kept.trans change.keepsParked)
    (fun _ kept => kept.trans (keepsParked_killed _ _))
    (fun _ _ _ kept => (kept.trans (keepsParked_modifyProc _ _
      (useUpCrash_outsideWakes _).ge)).trans (keepsParked_killed _ _))
    (fun restarts kept => kept.trans (keepsParked_newLife restarts.registered))
    deeds (.refl s)

theorem Passages.keepsParked (passages : Passages s later) :
    KeepsParked s later := by
  induction passages with
  | refl => exact .refl s
  | tail _ passage kept =>
      cases passage with
      | deed deed => exact kept.trans (Deeds.keepsParked (.single deed))
      | jump => exact kept.trans (keepsParked_of_eq rfl rfl rfl rfl)
      | reseed => exact kept.trans (keepsParked_of_eq rfl rfl rfl rfl)

theorem Choice.keepsParked (choice : Choice s later) : KeepsParked s later := by
  refine keepsParked_of_records choice.nthreads ?_
    (fun id => (choice.aside id).staysParked) fun pid => ?_
  · cases choice
    rfl
  · cases choice
    rfl

/-! ## Hand-offs -/

theorem keepsParked_giveBaton
    {next : ThreadId}
    (runnable : (s.threads next).state = .runnable)
    (me : Option ThreadId)
    (site : UInt64) : KeepsParked s (s.giveBaton me next site).1 := by
  obtain ⟨_, _, _, _, _, park, same⟩ := s.giveBaton_eq me next site
  rw [same]
  have given : KeepsParked s (s.modifyThread next fun t =>
      { t with state := .running, park := park }) := by
    refine keepsParked_modifyThread s next ⟨rfl, rfl, nofun, fun exited => ?_⟩
    rw [runnable] at exited
    cases exited
  exact given.trans (keepsParked_of_eq rfl rfl rfl rfl)

theorem keepsParked_choose
    {me : Option ThreadId}
    {site : UInt64}
    {handoff : Handoff}
    (chosen : s.choose fuel me site = some (later, handoff)) :
    KeepsParked s later :=
  choose_keep (P := KeepsParked s)
    (fun passages => passages.keepsParked)
    (fun choice kept => kept.trans choice.keepsParked)
    (fun _ runnable kept => kept.trans (keepsParked_giveBaton runnable _ _))
    chosen

/-- Whoever gives the baton up is recorded first. -/
theorem keepsParked_handOff
    {src : Option (ThreadId × ThreadState × Nat)}
    {site : UInt64}
    {handoff : Handoff}
    (handed : s.handOff fuel src site = some (later, handoff)) :
    KeepsParked (s.recorded src) later :=
  keepsParked_choose handed

theorem recorded_threads
    {src : Option (ThreadId × ThreadState × Nat)}
    (other : ∀ giver ∈ src, giver.1 ≠ id) :
    (s.recorded src).threads id = s.threads id := by
  cases src with
  | none => rfl
  | some giver => exact Function.update_of_ne (other giver rfl).symm _ _

/-- What a thread blocks on is its own word. -/
theorem blocked_handOff
    {key : Nat}
    {site : UInt64}
    {handoff : Handoff}
    (registered : id < s.nthreads)
    (handed : s.handOff fuel (some (id, .blocked, key)) site =
      some (later, handoff))
    (blocked : (later.threads id).state = .blocked) :
    (later.threads id).key = key := by
  have kept := (keepsParked_handOff handed).thread id registered
  refine (kept.blocked blocked).2.trans ?_
  exact congrArg ThreadRec.key (Function.update_self id _ s.threads)

theorem keepsParked_processDied
    (registered : pid < s.nprocs)
    {status : Int}
    {handoff : Option Handoff}
    (died : s.processDied fuel pid status = some (later, handoff)) :
    KeepsParked s later := by
  have buried : KeepsParked s (s.buried pid status) := by
    have noted : KeepsParked s (s.noteExit pid status) :=
      keepsParked_modifyProc s pid le_rfl
    have retired (s : State) : KeepsParked s (s.mapLive fun t =>
        if t.pid = pid ∧ t.state ≠ .exited then t.retire else t) :=
      keepsParked_mapLive s fun t => by
        split
        · exact ThreadRec.staysParked_retire t
        · exact .refl t
    have mourned {s : State} (dead : s.Dead pid) :
        KeepsParked s (s.mourn pid status) := by
      have restarted : KeepsParked s (s.registerRestart pid status) := by
        obtain ⟨restarts, same⟩ | ⟨-, same⟩ :=
          registerRestart_cases dead.1 dead.2 status
        · rw [same]
          exact keepsParked_newLife dead.1
        · rw [same]
          exact .refl s
      rw [mourn_eq]
      exact (restarted.trans (keepsParked_modifyProc _ pid le_rfl)).trans
        (Deeds.keepsParked (changes_closeDown _ pid).deeds)
    rw [buried_eq]
    split
    · exact noted.trans (retired _)
    · exact (noted.trans (mourned (dead_noteExit registered status))).trans
        (retired _)
  obtain ⟨-, rfl, -⟩ | ⟨id, passed, -, handed, -⟩ :=
    processDied_eq_some_iff.1 died
  · exact buried
  · have gone : KeepsParked (s.buried pid status)
        ((s.buried pid status).modifyThread id fun t =>
          { t with state := .exited, key := 0 }) :=
      keepsParked_modifyThread _ id (ThreadRec.staysParked_gone rfl rfl rfl)
    have recorded : KeepsParked ((s.buried pid status).modifyThread id fun t =>
          { t with state := .exited, key := 0 })
        ((s.buried pid status).recorded (some (id, .exited, 0))) :=
      keepsParked_of_eq rfl rfl rfl rfl
    exact (buried.trans (gone.trans recorded)).trans (keepsParked_handOff handed)

/-! ## Operations -/

theorem keepsParked_addThread (s : State) (pid : Pid) :
    KeepsParked s (s.addThread pid).1 := by
  obtain ⟨pctRng, priority, drawn, -⟩ :=
    { s with nthreads := s.nthreads + 1 }.drawPriority_eq
  unfold addThread
  dsimp only
  rw [drawn]
  unfold modifyThread
  dsimp only
  refine ⟨Nat.le_succ _, le_rfl, fun id inside => ?_, fun id outside => ?_,
    fun _ _ => le_rfl⟩
  · dsimp only
    rw [Function.update_of_ne inside.ne]
    exact .refl _
  · dsimp only
    by_cases new : id = s.nthreads
    · subst new
      rw [Function.update_self]
    · rw [Function.update_of_ne new]

theorem keepsParked_addProc
    (s : State)
    (host : Nat)
    (parent : Option Pid) : KeepsParked s (s.addProc host parent).1 := by
  unfold addProc
  refine ⟨le_rfl, Nat.le_succ _, fun _ _ => .refl _, fun _ _ => rfl,
    fun pid inside => ?_⟩
  unfold modifyProc
  dsimp only
  rw [Function.update_of_ne inside.ne]

theorem keepsParked_drawCrash
    (s : State)
    (pid : Pid)
    (lifeStarts : Nat) : KeepsParked s (s.drawCrash pid lifeStarts) := by
  obtain ⟨rng, isOver, crashAt, shutdownAt, same, -⟩ :=
    s.drawCrash_eq pid lifeStarts
  rw [same]
  have drawn : KeepsParked s (s.drawn rng isOver) :=
    keepsParked_of_eq rfl rfl rfl rfl
  exact drawn.trans ((keepsParked_modifyProc _ pid le_rfl).trans
    (keepsParked_modifyProc _ pid le_rfl))

theorem keepsParked_condWakeLoop
    (rounds : Nat)
    (s : State)
    (pid : Pid)
    (cond : Nat)
    (all : Bool) : KeepsParked s (condWakeLoop rounds s pid cond all) := by
  induction rounds generalizing s with
  | zero => exact .refl s
  | succ rounds inductionHypothesis =>
      unfold condWakeLoop
      split
      · exact .refl s
      · next first _ =>
          have marked : KeepsParked s (s.modifyThread first fun t =>
              { t with condKey := 0, signaled := true }) :=
            keepsParked_modifyThread s first
              (ThreadRec.staysParked_of_eq rfl rfl rfl rfl)
          have signalled : KeepsParked s (s.condSignal first) :=
            marked.trans (keepsParked_modifyThread _ first
              (ThreadRec.staysParked_wake _))
          dsimp only
          split
          · exact signalled.trans (inductionHypothesis _)
          · exact signalled

theorem keepsParked_setAlarm
    (s : State)
    (pid : Pid)
    (value interval : Nat) : KeepsParked s (s.setAlarm pid value interval) := by
  unfold setAlarm
  split
  · exact keepsParked_modifyProc s pid le_rfl
  · have noted : KeepsParked s (s.noteAdd s.clockNs value) :=
      keepsParked_of_eq rfl rfl rfl rfl
    exact noted.trans (keepsParked_modifyProc _ pid le_rfl)

/-- Who gives the baton up by an operation. -/
def Op.giver : Op → Option (ThreadId × ThreadState × Nat)
  | .handOff src _ => src
  | _ => none

/-- Apart from whoever gives the baton up, no operation blocks a thread. -/
theorem keepsParked_of_exec
    {op : Op}
    {answer : Answer}
    (possible : s.Possible op)
    (done : s.exec fuel op = some (later, answer)) :
    KeepsParked (s.recorded op.giver) later := by
  by_cases calm : op.calm = true
  · have changes := changes_of_exec calm possible done
    cases op with
    | handOff => cases calm
    | _ => exact Deeds.keepsParked changes.deeds
  by_cases setting : op.setting = true
  · have tuned := tuned_of_exec setting done
    cases op with
    | handOff => cases setting
    | _ =>
        cases tuned
        exact keepsParked_of_eq rfl rfl rfl rfl
  cases op with
  | addProc host parent =>
      obtain ⟨rfl, -⟩ := Prod.mk.inj (Option.some.inj done)
      exact keepsParked_addProc s host parent
  | addThread pid =>
      obtain ⟨rfl, -⟩ := Prod.mk.inj (Option.some.inj done)
      exact keepsParked_addThread s pid
  | setFaults pid faults spec =>
      obtain ⟨rfl, -⟩ := Prod.mk.inj (Option.some.inj done)
      exact (keepsParked_modifyProc s pid le_rfl).trans
        (keepsParked_drawCrash _ pid _)
  | attach pid realPid =>
      obtain ⟨rfl, -⟩ := Prod.mk.inj (Option.some.inj done)
      exact keepsParked_modifyProc s pid le_rfl
  | unregister child =>
      obtain ⟨rfl, -⟩ := Prod.mk.inj (Option.some.inj done)
      refine (keepsParked_modifyProc s child le_rfl).trans
        (keepsParked_mapLive _ fun t => ?_)
      split
      · exact ThreadRec.staysParked_gone rfl rfl rfl
      · exact .refl t
  | setAlarm pid value interval =>
      obtain ⟨rfl, -⟩ := Prod.mk.inj (Option.some.inj done)
      exact keepsParked_setAlarm s pid value interval
  | reap pid =>
      obtain ⟨rfl, -⟩ := Prod.mk.inj (Option.some.inj done)
      exact keepsParked_modifyProc s pid le_rfl
  | setDeadline id deadline =>
      obtain ⟨rfl, -⟩ := Prod.mk.inj (Option.some.inj done)
      exact keepsParked_modifyThread s id
        (ThreadRec.staysParked_of_eq rfl rfl rfl rfl)
  | handOff src site =>
      obtain ⟨⟨middle, handoff⟩, handed, same⟩ := Option.map_eq_some_iff.1 done
      obtain rfl : middle = later := congrArg Prod.fst same
      exact keepsParked_handOff handed
  | choose me site =>
      obtain ⟨⟨middle, handoff⟩, chosen, same⟩ := Option.map_eq_some_iff.1 done
      obtain rfl : middle = later := congrArg Prod.fst same
      exact keepsParked_choose chosen
  | crash victim =>
      obtain ⟨rfl, -⟩ := Prod.mk.inj (Option.some.inj done)
      exact Deeds.keepsParked (.single (.crash victim possible.1))
  | processDied pid status =>
      obtain ⟨⟨middle, handoff⟩, died, same⟩ := Option.map_eq_some_iff.1 done
      obtain rfl : middle = later := congrArg Prod.fst same
      exact keepsParked_processDied possible died
  | threadKill id sig =>
      obtain ⟨rfl, -⟩ := Prod.mk.inj (Option.some.inj done)
      exact keepsParked_modifyThread s id
        (ThreadRec.staysParked_of_eq rfl rfl rfl rfl)
  | takeSignals id unmasked =>
      obtain ⟨rfl, -⟩ := Prod.mk.inj (Option.some.inj done)
      exact (keepsParked_modifyProc s _ le_rfl).trans
        (keepsParked_modifyThread _ id
          (ThreadRec.staysParked_of_eq rfl rfl rfl rfl))
  | condEnqueue id cond =>
      obtain ⟨rfl, -⟩ := Prod.mk.inj (Option.some.inj done)
      have counted : KeepsParked s { s with nextCondSeq := s.nextCondSeq + 1 } :=
        keepsParked_of_eq rfl rfl rfl rfl
      refine counted.trans ?_
      unfold State.condEnqueue
      dsimp only
      exact keepsParked_modifyThread _ id
        (ThreadRec.staysParked_of_eq rfl rfl rfl rfl)
  | condWake pid cond all =>
      obtain ⟨rfl, -⟩ := Prod.mk.inj (Option.some.inj done)
      exact keepsParked_condWakeLoop _ s pid cond all
  | noteOutsideWake pid =>
      obtain ⟨rfl, -⟩ := Prod.mk.inj (Option.some.inj done)
      exact keepsParked_modifyProc s pid (Nat.le_succ _)
  | clockRead =>
      obtain ⟨rfl, -⟩ := Prod.mk.inj (Option.some.inj done)
      have read (clockNs : Nat) : KeepsParked s
          ((s.noteAdd s.clockNs perReadNs).setClock clockNs) :=
        keepsParked_of_eq rfl rfl rfl rfl
      exact (read _).trans (Deeds.keepsParked (changes_clockMoved _).deeds)
  | _ => simp [Op.calm, Op.setting] at calm setting

/-- Threads have seen no more wakes from outside than there were. -/
def Seen (s : State) : Prop :=
  ∀ id < s.nthreads,
    (s.threads id).wakesSeen ≤ (s.procs (s.threads id).pid).outsideWakes

theorem KeepsParked.seen
    (keeps : KeepsParked s later)
    (tidy : s.Tidy)
    (seen : s.Seen) : later.Seen := by
  intro id _
  rw [keeps.wakesSeen id]
  by_cases inside : id < s.nthreads
  · rw [(keeps.thread id inside).pid]
    exact (seen id inside).trans (keeps.wakes _ (tidy.owner id inside))
  · rw [tidy.spareThreads id (not_lt.1 inside)]
    exact Nat.zero_le _

/-- What a giver records is not about wakes. -/
theorem recorded_record
    (s : State)
    (src : Option (ThreadId × ThreadState × Nat))
    (id : ThreadId) :
    ((s.recorded src).threads id).pid = (s.threads id).pid ∧
      ((s.recorded src).threads id).wakesSeen = (s.threads id).wakesSeen := by
  cases src with
  | none => exact ⟨rfl, rfl⟩
  | some giver =>
      change (Function.update s.threads giver.1 _ id).pid = _ ∧
        (Function.update s.threads giver.1 _ id).wakesSeen = _
      by_cases same : id = giver.1
      · rw [same, Function.update_self]
        exact ⟨rfl, rfl⟩
      · rw [Function.update_of_ne same]
        exact ⟨rfl, rfl⟩

theorem recorded_sizes
    (s : State)
    (src : Option (ThreadId × ThreadState × Nat)) :
    (s.recorded src).nthreads = s.nthreads ∧
      (s.recorded src).nprocs = s.nprocs ∧
      (s.recorded src).procs = s.procs := by
  cases src <;> exact ⟨rfl, rfl, rfl⟩

/-- A giver stays a thread of its process. -/
theorem giver_handOff
    {state : ThreadState}
    {key : Nat}
    {site : UInt64}
    {handoff : Handoff}
    (registered : id < s.nthreads)
    (handed : s.handOff fuel (some (id, state, key)) site = some (later, handoff)) :
    id < later.nthreads ∧ (later.threads id).pid = (s.threads id).pid := by
  have keeps := keepsParked_handOff handed
  have inside := registered.trans_eq
    (s.recorded_sizes (some (id, state, key))).1.symm
  exact ⟨inside.trans_le keeps.nthreads, (keeps.thread id inside).pid.trans
    (s.recorded_record (some (id, state, key)) id).1⟩

theorem Seen.recorded
    (seen : s.Seen)
    (src : Option (ThreadId × ThreadState × Nat)) : (s.recorded src).Seen := by
  intro id inside
  obtain ⟨nthreads, -, procs⟩ := s.recorded_sizes src
  obtain ⟨pid, wakesSeen⟩ := s.recorded_record src id
  rw [pid, wakesSeen, procs]
  exact seen id (inside.trans_eq nthreads)

theorem giver_registered
    {op : Op}
    (possible : s.Possible op) : ∀ giver ∈ op.giver, giver.1 < s.nthreads := by
  intro giver gives
  cases op with
  | handOff src site =>
      obtain rfl : src = some giver := gives
      exact possible.1.2.1
  | _ => cases gives

theorem seen_of_exec
    {op : Op}
    {answer : Answer}
    (tidy : s.Tidy)
    (seen : s.Seen)
    (possible : s.Possible op)
    (done : s.exec fuel op = some (later, answer)) : later.Seen :=
  (keepsParked_of_exec possible done).seen
    (tidy.recorded (giver_registered possible)) (seen.recorded op.giver)

/-- A thread that does not give the baton up stays parked. -/
theorem staysParked_of_exec
    {op : Op}
    {answer : Answer}
    (possible : s.Possible op)
    (done : s.exec fuel op = some (later, answer))
    (inside : id < s.nthreads)
    (notGiver : ∀ giver ∈ op.giver, giver.1 ≠ id) :
    (s.threads id).StaysParked (later.threads id) := by
  have kept := (keepsParked_of_exec possible done).thread id
    (inside.trans_eq (s.recorded_sizes op.giver).1.symm)
  rwa [recorded_threads notGiver] at kept

/-- The tables grow, and wakes from outside are counted up. -/
theorem tables_of_exec
    {op : Op}
    {answer : Answer}
    (possible : s.Possible op)
    (done : s.exec fuel op = some (later, answer)) :
    s.nthreads ≤ later.nthreads ∧ s.nprocs ≤ later.nprocs ∧
      ∀ pid < s.nprocs,
        (s.procs pid).outsideWakes ≤ (later.procs pid).outsideWakes := by
  have keeps := keepsParked_of_exec possible done
  obtain ⟨nthreads, nprocs, procs⟩ := s.recorded_sizes op.giver
  refine ⟨nthreads.ge.trans keeps.nthreads, nprocs.ge.trans keeps.nprocs,
    fun pid inside => ?_⟩
  rw [← procs]
  exact keeps.wakes pid (inside.trans_eq nprocs.symm)

/-- A wake leaves nobody blocked on its key. -/
theorem awake_wakeAll
    {key : Nat}
    (inside : id < s.nthreads)
    (ofPid : (s.threads id).pid = pid)
    (onKey : (s.threads id).key = key) :
    ((s.wakeAll pid key).threads id).state ≠ .blocked := by
  have woken : (s.wakeAll pid key).threads id = (s.threads id).wake :=
    (if_pos inside).trans (if_pos ⟨ofPid, onKey⟩)
  rw [woken]
  exact (s.threads id).awake_wake

end State
end Derp

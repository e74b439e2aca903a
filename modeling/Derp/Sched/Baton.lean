import Derp.Sched.Alike

/-!
# There is one baton

A thread runs only while it is the one that was last given the baton, so no two
run at once.  Whoever a choice gives the baton to runs and has it, and a thread
that left the schedule is never chosen again.
-/

namespace Derp

/-- Who has the baton after a hand-off by a thread. -/
def Handoff.holder (giver : Option ThreadId) : Handoff → Option ThreadId
  | .stay => giver
  | .switch next _ => some next
  | .idle => none

/-- A thread does not begin to run, and does not come back once it is gone. -/
structure ThreadRec.Lulled (t t' : ThreadRec) : Prop where
  running : t'.state = .running → t.state = .running
  exited : t.state = .exited → t'.state = .exited

namespace ThreadRec

variable {t t' t'' : ThreadRec}

theorem lulled_of_eq (same : t'.state = t.state) : t.Lulled t' :=
  ⟨fun running => same ▸ running, fun exited => same ▸ exited⟩

theorem Lulled.refl (t : ThreadRec) : t.Lulled t :=
  lulled_of_eq rfl

theorem Lulled.trans
    (first : t.Lulled t')
    (second : t'.Lulled t'') : t.Lulled t'' :=
  ⟨fun running => first.running (second.running running),
    fun exited => second.exited (first.exited exited)⟩

theorem lulled_setState
    {state : ThreadState}
    (waits : state ≠ .running)
    (staying : t.state ≠ .exited) : t.Lulled (t.setState state) :=
  ⟨fun running => absurd running waits, fun exited => absurd exited staying⟩

theorem lulled_gone (exited : t'.state = .exited) : t.Lulled t' where
  running := fun running => by
    rw [exited] at running
    cases running
  exited := fun _ => exited

end ThreadRec

namespace State

variable
  {s middle later : State}
  {pid : Pid}
  {id : ThreadId}
  {fuel : Nat}
  {op : Op}
  {answer : Answer}

/-- No thread gets the baton, and none that is gone comes back. -/
structure Lulled (s later : State) : Prop where
  nthreads : s.nthreads ≤ later.nthreads
  current : later.current = s.current
  thread : ∀ id < s.nthreads, (s.threads id).Lulled (later.threads id)
  spare : ∀ id, s.nthreads ≤ id → (later.threads id).state = .running →
    (s.threads id).state = .running

theorem Lulled.refl (s : State) : Lulled s s :=
  ⟨le_rfl, rfl, fun _ _ => .refl _, fun _ _ running => running⟩

theorem Lulled.running
    (lulled : Lulled s later)
    (running : (later.threads id).state = .running) :
    (s.threads id).state = .running := by
  by_cases inside : id < s.nthreads
  · exact (lulled.thread id inside).running running
  · exact lulled.spare id (not_lt.1 inside) running

theorem Lulled.trans
    (first : Lulled s middle)
    (second : Lulled middle later) : Lulled s later where
  nthreads := first.nthreads.trans second.nthreads
  current := second.current.trans first.current
  thread := fun id inside => (first.thread id inside).trans
    (second.thread id (inside.trans_le first.nthreads))
  spare := fun _ _ running => first.running (second.running running)

/-- Other records of the same threads. -/
theorem lulled_of_threads
    (nthreads : later.nthreads = s.nthreads)
    (current : later.current = s.current)
    (threads : ∀ id, (s.threads id).Lulled (later.threads id)) :
    Lulled s later :=
  ⟨nthreads.ge, current, fun id _ => threads id,
    fun id _ running => (threads id).running running⟩

theorem lulled_of_eq
    (nthreads : later.nthreads = s.nthreads)
    (current : later.current = s.current)
    (threads : later.threads = s.threads) : Lulled s later :=
  lulled_of_threads nthreads current fun id => by
    rw [threads]
    exact .refl _

theorem lulled_modifyThread
    (s : State)
    (id : ThreadId)
    {change : ThreadRec → ThreadRec}
    (lulled : (s.threads id).Lulled (change (s.threads id))) :
    Lulled s (s.modifyThread id change) := by
  refine lulled_of_threads rfl rfl fun other => ?_
  unfold modifyThread
  dsimp only
  by_cases same : other = id
  · subst same
    rw [Function.update_self]
    exact lulled
  · rw [Function.update_of_ne same]
    exact .refl _

theorem lulled_mapLive
    (s : State)
    {change : ThreadRec → ThreadRec}
    (lulled : ∀ t : ThreadRec, t.Lulled (change t)) :
    Lulled s (s.mapLive change) := by
  refine lulled_of_threads rfl rfl fun id => ?_
  unfold mapLive
  dsimp only
  split
  · exact lulled _
  · exact .refl _

/-! ## Up to the choice -/

theorem lulled_wake (t : ThreadRec) : t.Lulled t.wake := by
  unfold ThreadRec.wake
  split
  · next blocked =>
      exact ThreadRec.lulled_setState (by decide) (by rw [blocked]; decide)
  · exact .refl t

theorem Woken.lulled
    {t t' : ThreadRec}
    (woken : s.Woken t t') : t.Lulled t' := by
  cases woken with
  | same => exact .refl t
  | woken blocked =>
      exact ThreadRec.lulled_setState (by decide) (by rw [blocked]; decide)
  | timedOut due =>
      unfold ThreadRec.expired at due
      simp only [Bool.and_eq_true, decide_eq_true_eq] at due
      refine ⟨nofun, fun exited => ?_⟩
      rw [due.1.1] at exited
      cases exited

theorem lulled_fireAlarm
    {due : Nat}
    (pending : (s.procs pid).pendingAlarm = some due)
    (reached : due ≤ s.clockNs) : Lulled s (s.fireAlarm pid) := by
  obtain ⟨isOver, again, same, -⟩ := s.rearm_eq pid
  have armed : Lulled s ((s.rearm pid).modifyProc pid (.addSignal sigalrm)) := by
    rw [same]
    exact lulled_of_eq rfl rfl rfl
  rw [fireAlarm_due pending reached]
  refine armed.trans ?_
  generalize (s.rearm pid).modifyProc pid (.addSignal sigalrm) = ringing
  unfold wakeFirst
  split
  · next id found =>
      have first := List.find?_some found
      rw [Bool.and_eq_true, decide_eq_true_eq, decide_eq_true_eq] at first
      exact lulled_modifyThread ringing id
        (ThreadRec.lulled_setState (by decide) (by rw [first.2]; decide))
  · exact .refl _

theorem Change.lulled (change : Change s later) : Lulled s later := by
  cases change with
  | count => exact lulled_of_eq rfl rfl rfl
  | wake woken => exact lulled_of_threads rfl rfl fun id => (woken id).lulled
  | noise => exact lulled_of_eq rfl rfl rfl
  | net => exact lulled_of_eq rfl rfl rfl
  | signal pid sig =>
      have noted : Lulled s (s.modifyProc pid (.addSignal sig)) :=
        lulled_of_eq rfl rfl rfl
      refine noted.trans (lulled_mapLive _ fun t => ?_)
      split
      · exact lulled_wake t
      · exact .refl t
  | alarm pid _ pending reached => exact lulled_fireAlarm pending reached
  | stop =>
      refine lulled_of_threads rfl rfl fun id => ?_
      obtain same | ⟨same, -, staying⟩ := stopRun_thread s id
      · rw [same]
        exact .refl _
      · rw [same]
        exact ThreadRec.lulled_setState (by decide) staying
  | grace => exact lulled_of_eq rfl rfl rfl

theorem lulled_retireThreads (s : State) (pid : Pid) :
    Lulled s (s.retireThreads pid) := by
  refine lulled_mapLive s fun t => ?_
  split
  · exact ThreadRec.lulled_gone rfl
  · exact .refl t

theorem lulled_killed (s : State) (pid : Pid) : Lulled s (s.killed pid) := by
  have condemned : Lulled (s.retireThreads pid) (s.killed pid) :=
    lulled_of_eq rfl rfl rfl
  exact (lulled_retireThreads s pid).trans condemned

/-- A thread that is registered starts runnable, or blocked. -/
theorem lulled_grown
    (nthreads : later.nthreads = s.nthreads + 1)
    (current : later.current = s.current)
    {t : ThreadRec}
    (waits : t.state ≠ .running)
    (threads : later.threads = Function.update s.threads s.nthreads t) :
    Lulled s later := by
  refine ⟨nthreads ▸ Nat.le_succ _, current, fun id inside => ?_,
    fun id _ running => ?_⟩
  · rw [threads, Function.update_of_ne inside.ne]
    exact .refl _
  · rw [threads] at running
    by_cases new : id = s.nthreads
    · subst new
      rw [Function.update_self] at running
      exact absurd running waits
    · rw [Function.update_of_ne new] at running
      exact running

theorem lulled_newLife (registered : pid < s.nprocs) :
    Lulled s (s.newLife pid) := by
  obtain ⟨rng, isOver, starts, priority, crashAt, shutdownAt, pctRng, same, -⟩ :=
    newLife_eq registered
  rw [same]
  exact lulled_grown (t := s.waiting s.nprocs starts priority) rfl rfl
    nofun rfl

theorem Deeds.lulled (deeds : Deeds s later) : Lulled s later := by
  refine Deeds.keep (P := Lulled s) (fun change first => ?_)
    (fun {_ pid} _ first => ?_) (fun {struck pid _} _ _ _ first => ?_)
    (fun restarts first => ?_) deeds (.refl s)
  · exact first.trans change.lulled
  · exact first.trans (lulled_killed _ pid)
  · have used : Lulled struck (struck.modifyProc pid .useUpCrash) :=
      lulled_of_eq rfl rfl rfl
    exact first.trans (used.trans (lulled_killed _ pid))
  · exact first.trans (lulled_newLife restarts.registered)

theorem Passages.lulled (passages : Passages s later) : Lulled s later := by
  induction passages with
  | refl => exact .refl s
  | tail _ passage inductionHypothesis =>
      cases passage with
      | deed deed => exact inductionHypothesis.trans (Deeds.lulled (.single deed))
      | jump => exact inductionHypothesis.trans (lulled_of_eq rfl rfl rfl)
      | reseed => exact inductionHypothesis.trans (lulled_of_eq rfl rfl rfl)

theorem Choice.lulled (choice : Choice s later) : Lulled s later :=
  lulled_of_threads choice.nthreads choice.current fun id =>
    ThreadRec.lulled_of_eq (choice.aside id).state

/-! ## The baton -/

/-- Nobody runs but the one that was last given the baton. -/
def OneBaton (s : State) : Prop :=
  ∀ id, (s.threads id).state = .running → s.current = some id

/-- Nobody runs. -/
def Parked (s : State) : Prop :=
  ∀ id, (s.threads id).state ≠ .running

theorem OneBaton.lulled
    (oneBaton : s.OneBaton)
    (lulled : Lulled s later) : later.OneBaton := fun id running => by
  rw [lulled.current]
  exact oneBaton id (lulled.running running)

theorem Parked.lulled
    (parked : s.Parked)
    (lulled : Lulled s later) : later.Parked :=
  fun id running => parked id (lulled.running running)

theorem Parked.oneBaton (parked : s.Parked) : s.OneBaton :=
  fun id running => absurd running (parked id)

/-- Whoever was given the baton runs, nobody else does, and those that are gone
stay so. -/
structure Entrusted
    (s later : State)
    (giver : Option ThreadId)
    (handoff : Handoff) : Prop where
  nthreads : s.nthreads ≤ later.nthreads
  exited : ∀ id < s.nthreads, (s.threads id).state = .exited →
    (later.threads id).state = .exited
  idle : handoff = .idle → Lulled s later
  given : handoff ≠ .idle → ∃ next, handoff.holder giver = some next ∧
    later.current = some next ∧
    ∀ id, (later.threads id).state = .running ↔ id = next

theorem Entrusted.oneBaton
    {giver : Option ThreadId}
    {handoff : Handoff}
    (handed : Entrusted s later giver handoff)
    (oneBaton : s.OneBaton) : later.OneBaton := by
  by_cases idle : handoff = .idle
  · exact oneBaton.lulled (handed.idle idle)
  · obtain ⟨next, -, current, running⟩ := handed.given idle
    intro id runs
    rw [current, (running id).1 runs]

/-- The answer to a choice tells who was chosen. -/
theorem holder_giveBaton
    (s : State)
    (giver : Option ThreadId)
    (next : ThreadId)
    (site : UInt64) :
    (s.giveBaton giver next site).2 ≠ .idle ∧
      (s.giveBaton giver next site).2.holder giver = some next := by
  unfold giveBaton
  dsimp only
  split
  · next same => exact ⟨nofun, same⟩
  · exact ⟨nofun, rfl⟩

/-- The chosen thread gets the baton from a giver that does not run. -/
theorem handed_giveBaton
    (parked : s.Parked)
    {giver : Option ThreadId}
    (last : ∀ id ∈ giver, s.current = some id)
    {next : ThreadId}
    (runnable : (s.threads next).state = .runnable)
    (site : UInt64) :
    Entrusted s (s.giveBaton giver next site).1 giver
      (s.giveBaton giver next site).2 := by
  obtain ⟨given, named⟩ := s.holder_giveBaton giver next site
  obtain ⟨rng, issued, quantum, switches, hash, park, same⟩ :=
    s.giveBaton_eq giver next site
  rw [same]
  refine ⟨le_rfl, fun id _ exited => ?_, fun idle => absurd idle given,
    fun _ => ⟨next, named, ?_, fun id => ?_⟩⟩
  · have other : id ≠ next := by
      rintro rfl
      rw [runnable] at exited
      cases exited
    dsimp only
    rw [Function.update_of_ne other]
    exact exited
  · dsimp only
    split
    · next kept => exact last next kept
    · rfl
  · dsimp only
    by_cases chosen : id = next
    · subst chosen
      rw [Function.update_self]
      exact ⟨fun _ => rfl, fun _ => rfl⟩
    · rw [Function.update_of_ne chosen]
      exact ⟨fun runs => absurd runs (parked id), fun is => absurd is chosen⟩

theorem Entrusted.after
    {giver : Option ThreadId}
    {handoff : Handoff}
    (handed : Entrusted middle later giver handoff)
    (lulled : Lulled s middle) : Entrusted s later giver handoff where
  nthreads := lulled.nthreads.trans handed.nthreads
  exited := fun id inside exited => handed.exited id
    (inside.trans_le lulled.nthreads) ((lulled.thread id inside).exited exited)
  idle := fun idle => lulled.trans (handed.idle idle)
  given := handed.given

theorem handed_choose
    (parked : s.Parked)
    {giver : Option ThreadId}
    (last : ∀ id ∈ giver, s.current = some id)
    {site : UInt64}
    {handoff : Handoff}
    (chosen : s.choose fuel giver site = some (later, handoff)) :
    Entrusted s later giver handoff := by
  obtain ⟨middle, ⟨chooses, given⟩ | ⟨chooses, rfl, rfl⟩⟩ :=
    choose_eq_some_iff.1 chosen
  · obtain ⟨choice, candidate⟩ := chooseThread_spec chooses.runnable
    have before := chooses.passages.1.lulled.trans choice.lulled
    rw [← choice.candidates, mem_candidates] at candidate
    have runnable := candidate_runnable candidate.2
    have handed := handed_giveBaton (parked.lulled before)
      (fun id giver => before.current.trans (last id giver)) runnable site
    rw [given] at handed
    exact handed.after before
  · have passed := chooses.passages.1.lulled
    exact ⟨passed.nthreads, fun id inside => (passed.thread id inside).exited,
      fun _ => passed, fun given => absurd rfl given⟩

/-- The giver stops running when its new state is recorded. -/
theorem parked_recorded
    (oneBaton : s.OneBaton)
    {state : ThreadState}
    (waits : state ≠ .running)
    (last : s.current = some id)
    (key : Nat) : (s.recorded (some (id, state, key))).Parked := by
  intro other running
  have records : (s.recorded (some (id, state, key))).threads =
      Function.update s.threads id
        { s.threads id with state := state, key := key } := rfl
  rw [records] at running
  by_cases same : other = id
  · subst same
    rw [Function.update_self] at running
    exact waits running
  · rw [Function.update_of_ne same] at running
    exact same (Option.some.inj ((oneBaton other running).symm.trans last))

theorem lulled_recorded
    {state : ThreadState}
    (waits : state ≠ .running)
    (gone : (s.threads id).state = .exited → state = .exited)
    (key : Nat) : Lulled s (s.recorded (some (id, state, key))) := by
  have recorded : Lulled s
      (s.modifyThread id fun t => { t with state := state, key := key }) :=
    lulled_modifyThread s id ⟨fun running => absurd running waits, gone⟩
  refine recorded.trans (lulled_of_eq rfl rfl rfl)

/-- A hand-off by the thread that was last given the baton. -/
theorem handed_giver
    (oneBaton : s.OneBaton)
    (last : s.current = some id)
    {state : ThreadState}
    (waits : state ≠ .running)
    {key : Nat}
    {site : UInt64}
    {handoff : Handoff}
    (handed : s.handOff fuel (some (id, state, key)) site =
      some (later, handoff)) :
    Entrusted (s.recorded (some (id, state, key))) later (some id) handoff := by
  refine handed_choose (parked_recorded oneBaton waits last key) ?_ handed
  rintro _ ⟨⟩
  exact last

theorem handed_handOff
    (oneBaton : s.OneBaton)
    {src : Option (ThreadId × ThreadState × Nat)}
    {site : UInt64}
    (possible : s.Possible (.handOff src site))
    {handoff : Handoff}
    (handed : s.handOff fuel src site = some (later, handoff)) :
    Entrusted s later (src.map Prod.fst) handoff := by
  cases src with
  | none =>
      have nobody : s.current = none := possible
      have parked : s.Parked := fun id running => by
        have last := oneBaton id running
        rw [nobody] at last
        cases last
      refine handed_choose parked ?_ handed
      rintro _ ⟨⟩
  | some giver =>
      obtain ⟨id, state, key⟩ := giver
      obtain ⟨⟨last, -, staying⟩, waits⟩ := possible
      have parks : state ≠ .running := by
        rintro rfl
        simp at waits
      exact (handed_giver oneBaton last parks handed).after
        (lulled_recorded parks (fun gone => absurd gone staying) key)

/-- A thread that is gone is not chosen when the baton is passed on for it. -/
theorem handed_gone
    (oneBaton : s.OneBaton)
    (last : s.current = some id)
    (inside : id < s.nthreads)
    {site : UInt64}
    {handoff : Handoff}
    (handed : s.handOff fuel (some (id, .exited, 0)) site =
      some (later, handoff)) :
    Entrusted s later (some id) handoff ∧ (later.threads id).state = .exited := by
  have waits : ThreadState.exited ≠ .running := nofun
  have given := handed_giver oneBaton last waits handed
  have recorded : (s.recorded (some (id, .exited, 0))).threads id =
      { s.threads id with state := .exited, key := 0 } :=
    Function.update_self _ _ _
  refine ⟨given.after (lulled_recorded waits (fun _ => rfl) 0),
    given.exited id inside ?_⟩
  rw [recorded]

theorem lulled_buried
    (registered : pid < s.nprocs)
    (status : Int) : Lulled s (s.buried pid status) := by
  refine buried_keep (P := Lulled s) (fun change first => ?_)
    (fun restarts first => ?_) (fun _ first => ?_) (fun first => ?_)
    registered status (.refl s)
  · exact first.trans change.lulled
  · exact first.trans (lulled_newLife restarts.registered)
  · exact first.trans (lulled_of_eq rfl rfl rfl)
  · refine first.trans (lulled_mapLive _ fun t => ?_)
    split
    · exact ThreadRec.lulled_gone rfl
    · exact .refl t

/-- The launcher's report of a death ends with a hand-off by the thread that
was last given the baton, if it is one of the process. -/
theorem handed_processDied
    (oneBaton : s.OneBaton)
    (registered : pid < s.nprocs)
    {status : Int}
    {handoff : Option Handoff}
    (died : s.processDied fuel pid status = some (later, handoff)) :
    (handoff = none ∧ Lulled s later) ∨
      ∃ id passed, handoff = some passed ∧
        Entrusted s later (some id) passed ∧ (later.threads id).state = .exited := by
  have buried := lulled_buried registered status
  obtain ⟨-, rfl, rfl⟩ | ⟨id, passed, held, handed, rfl⟩ :=
    processDied_eq_some_iff.1 died
  · exact .inl ⟨rfl, buried⟩
  · obtain ⟨last, inside, -⟩ := heldBy_eq_some held
    obtain ⟨given, gone⟩ :=
      handed_gone (oneBaton.lulled buried) last inside handed
    exact .inr ⟨id, passed, rfl, given.after buried, gone⟩

/-! ## Steps -/

theorem lulled_addThread (s : State) (pid : Pid) :
    Lulled s (s.addThread pid).1 := by
  obtain ⟨pctRng, priority, drawn, -⟩ :=
    { s with nthreads := s.nthreads + 1 }.drawPriority_eq
  unfold addThread
  dsimp only
  rw [drawn]
  have waits : ThreadState.runnable ≠ .running := nofun
  exact lulled_grown rfl rfl waits rfl

theorem lulled_drawCrash (s : State) (pid : Pid) (lifeStarts : Nat) :
    Lulled s (s.drawCrash pid lifeStarts) := by
  obtain ⟨rng, isOver, crashAt, shutdownAt, same, -⟩ :=
    s.drawCrash_eq pid lifeStarts
  rw [same]
  exact lulled_of_eq rfl rfl rfl

theorem lulled_condWakeLoop
    (rounds : Nat)
    (s : State)
    (pid : Pid)
    (cond : Nat)
    (all : Bool) : Lulled s (condWakeLoop rounds s pid cond all) := by
  induction rounds generalizing s with
  | zero => exact .refl s
  | succ rounds inductionHypothesis =>
      unfold condWakeLoop
      split
      · exact .refl s
      · next id _ =>
          have signalled : Lulled s (s.condSignal id) := by
            have marked : Lulled s (s.modifyThread id fun t =>
                { t with condKey := 0, signaled := true }) :=
              lulled_modifyThread s id (ThreadRec.lulled_of_eq rfl)
            exact marked.trans (lulled_modifyThread _ id (lulled_wake _))
          dsimp only
          split
          · exact signalled.trans (inductionHypothesis _)
          · exact signalled

/-- The other operations give the baton to nobody. -/
theorem lulled_of_still
    (still : op.still = true)
    (possible : s.Possible op)
    (done : s.exec fuel op = some (later, answer)) : Lulled s later := by
  by_cases calm : op.calm = true
  · exact Deeds.lulled (changes_of_exec calm possible done).deeds
  by_cases setting : op.setting = true
  · cases tuned_of_exec setting done
    exact lulled_of_eq rfl rfl rfl
  cases op with
  | addThread pid =>
      obtain ⟨rfl, -⟩ := Prod.mk.inj (Option.some.inj done)
      exact lulled_addThread s pid
  | setFaults pid faults spec =>
      obtain ⟨rfl, -⟩ := Prod.mk.inj (Option.some.inj done)
      have given : Lulled s (s.modifyProc pid fun p =>
          { p with faults := faults, spec := some spec }) :=
        lulled_of_eq rfl rfl rfl
      exact given.trans (lulled_drawCrash _ pid _)
  | unregister child =>
      obtain ⟨rfl, -⟩ := Prod.mk.inj (Option.some.inj done)
      have gone : Lulled s (s.modifyProc child fun p =>
          { p with state := .exited, reaped := true }) :=
        lulled_of_eq rfl rfl rfl
      refine gone.trans (lulled_mapLive _ fun t => ?_)
      split
      · exact ThreadRec.lulled_gone rfl
      · exact .refl t
  | setAlarm pid value interval =>
      obtain ⟨rfl, -⟩ := Prod.mk.inj (Option.some.inj done)
      unfold State.setAlarm
      split <;> exact lulled_of_eq rfl rfl rfl
  | setDeadline id deadline =>
      obtain ⟨rfl, -⟩ := Prod.mk.inj (Option.some.inj done)
      exact lulled_modifyThread s id (ThreadRec.lulled_of_eq rfl)
  | crash victim =>
      obtain ⟨rfl, -⟩ := Prod.mk.inj (Option.some.inj done)
      exact Deeds.lulled (.single (.crash victim possible.1))
  | threadKill id sig =>
      obtain ⟨rfl, -⟩ := Prod.mk.inj (Option.some.inj done)
      exact lulled_modifyThread s id (ThreadRec.lulled_of_eq rfl)
  | takeSignals id unmasked =>
      obtain ⟨rfl, -⟩ := Prod.mk.inj (Option.some.inj done)
      have taken : Lulled s (s.modifyProc (s.threads id).pid fun p =>
          { p with sigPending := p.sigPending.ldiff unmasked }) :=
        lulled_of_eq rfl rfl rfl
      exact taken.trans (lulled_modifyThread _ id (ThreadRec.lulled_of_eq rfl))
  | condEnqueue id cond =>
      obtain ⟨rfl, -⟩ := Prod.mk.inj (Option.some.inj done)
      have counted : Lulled s { s with nextCondSeq := s.nextCondSeq + 1 } :=
        lulled_of_eq rfl rfl rfl
      refine counted.trans ?_
      unfold State.condEnqueue
      dsimp only
      exact lulled_modifyThread _ id (ThreadRec.lulled_of_eq rfl)
  | condWake pid cond all =>
      obtain ⟨rfl, -⟩ := Prod.mk.inj (Option.some.inj done)
      exact lulled_condWakeLoop _ s pid cond all
  | clockRead =>
      obtain ⟨rfl, -⟩ := Prod.mk.inj (Option.some.inj done)
      have read (clockNs : Nat) : Lulled s
          ((s.noteAdd s.clockNs perReadNs).setClock clockNs) :=
        lulled_of_eq rfl rfl rfl
      exact (read _).trans (Deeds.lulled (changes_clockMoved _).deeds)
  | handOff => cases still
  | choose => cases still
  | processDied => cases still
  | _ =>
      first
        | exact absurd rfl calm
        | exact absurd rfl setting
        | obtain ⟨rfl, -⟩ := Prod.mk.inj (Option.some.inj done)
          exact lulled_of_eq rfl rfl rfl

/-- The baton goes nowhere: nobody gives it up or looks for a thread to run, and the process
whose death is reported does not have it. -/
def Op.Stays (s : State) : Op → Prop
  | .handOff _ _ | .choose _ _ => False
  | .processDied pid status => (s.buried pid status).heldBy pid = none
  | _ => True

instance (s : State) (op : Op) : Decidable (op.Stays s) := by
  apply Op.casesOn (motive := fun op => Decidable (op.Stays s)) op
  case handOff | choose => exact fun _ _ => inferInstanceAs (Decidable False)
  case processDied =>
    exact fun pid status =>
      inferInstanceAs (Decidable ((s.buried pid status).heldBy pid = none))
  all_goals
    intros
    exact inferInstanceAs (Decidable True)

/-- Where the baton goes nowhere, nobody is given it. -/
theorem lulled_of_stays
    (stays : op.Stays s)
    (possible : s.Possible op)
    (done : s.exec fuel op = some (later, answer)) : Lulled s later := by
  by_cases still : op.still = true
  · exact lulled_of_still still possible done
  cases op with
  | handOff | choose => cases stays
  | processDied pid status =>
      obtain ⟨⟨middle, handoff⟩, died, same⟩ := Option.map_eq_some_iff.1 done
      obtain rfl : middle = later := congrArg Prod.fst same
      obtain ⟨-, rfl, -⟩ | ⟨holder, passed, held, -⟩ := processDied_eq_some_iff.1 died
      · exact lulled_buried possible status
      · cases held.symm.trans (show (s.buried pid status).heldBy pid = none from stays)
  | _ => exact absurd rfl still

/-! ## Runs -/

/-- Who was given the baton in a critical section. -/
def chosen : Event → Option ThreadId
  | (.handOff src _, .handoff handoff) => handoff.holder (src.map Prod.fst)
  | (.choose giver _, .handoff handoff) => handoff.holder giver
  | (.processDied _ _, .died (some handoff)) => handoff.holder none
  | _ => none

/-- The hand-off that a critical section ended with. -/
def Answer.handedOff : Answer → Option Handoff
  | .handoff passed => some passed
  | .died passed => passed
  | _ => none

/-- What a critical section does to the baton and to those that are gone. -/
structure Passed (s : State) (event : Event) (later : State) : Prop where
  nthreads : s.nthreads ≤ later.nthreads
  oneBaton : later.OneBaton
  exited : ∀ id < s.nthreads, (s.threads id).state = .exited →
    (later.threads id).state = .exited
  given : ∀ handoff ∈ event.2.handedOff, handoff ≠ .idle →
    ∃ next, chosen event = some next ∧ later.current = some next ∧
      ∀ id, (later.threads id).state = .running ↔ id = next
  named : ∀ next ∈ chosen event, (later.threads next).state = .running

/-- A hand-off as a critical section. -/
theorem Entrusted.passed
    {giver : Option ThreadId}
    {handoff : Handoff}
    (handed : Entrusted s later giver handoff)
    (oneBaton : s.OneBaton)
    {event : Event}
    (ends : event.2.handedOff = some handoff)
    (names : handoff ≠ .idle → chosen event = handoff.holder giver)
    (idles : handoff = .idle → chosen event = none) :
    Passed s event later where
  nthreads := handed.nthreads
  oneBaton := handed.oneBaton oneBaton
  exited := handed.exited
  given := fun other isEnd given => by
    obtain rfl : handoff = other := Option.some.inj (ends.symm.trans isEnd)
    rw [names given]
    exact handed.given given
  named := fun next isChosen => by
    by_cases idle : handoff = .idle
    · rw [idles idle] at isChosen
      cases isChosen
    · obtain ⟨other, holder, -, running⟩ := handed.given idle
      rw [names idle, holder] at isChosen
      obtain rfl := Option.some.inj isChosen
      exact (running other).2 rfl

/-- A critical section in which nobody looks for a thread to run. -/
theorem Lulled.passed
    (lulled : Lulled s later)
    (oneBaton : s.OneBaton)
    {event : Event}
    (ends : event.2.handedOff = none)
    (nobody : chosen event = none) : Passed s event later where
  nthreads := lulled.nthreads
  oneBaton := oneBaton.lulled lulled
  exited := fun id inside => (lulled.thread id inside).exited
  given := fun _ isEnd => by
    rw [ends] at isEnd
    cases isEnd
  named := fun _ isChosen => by
    rw [nobody] at isChosen
    cases isChosen

/-- The other operations answer no hand-off. -/
theorem handedOff_of_still
    (still : op.still = true)
    (done : s.exec fuel op = some (later, answer)) :
    answer.handedOff = none := by
  cases op with
  | handOff => cases still
  | choose => cases still
  | processDied => cases still
  | net op =>
      obtain ⟨_, -, same⟩ := Option.map_eq_some_iff.1 done
      obtain ⟨-, rfl⟩ := Prod.mk.inj same
      rfl
  | _ =>
      obtain ⟨-, rfl⟩ := Prod.mk.inj (Option.some.inj done)
      rfl

theorem passed_of_exec
    (oneBaton : s.OneBaton)
    (possible : s.Possible op)
    (done : s.exec fuel op = some (later, answer)) :
    Passed s (op, answer) later := by
  cases op with
  | handOff src site =>
      obtain ⟨⟨middle, handoff⟩, handed, same⟩ := Option.map_eq_some_iff.1 done
      obtain ⟨rfl, rfl⟩ := Prod.mk.inj same
      exact (handed_handOff oneBaton possible handed).passed oneBaton rfl
        (fun _ => rfl) fun idle => by rw [idle]; rfl
  | choose giver site =>
      obtain ⟨⟨middle, handoff⟩, chosen, same⟩ := Option.map_eq_some_iff.1 done
      obtain ⟨rfl, rfl⟩ := Prod.mk.inj same
      cases giver with
      | none => exact possible.elim
      | some id =>
          have parked : s.Parked := fun other running => by
            have last := oneBaton other running
            rw [possible.1] at last
            obtain rfl := Option.some.inj last
            exact possible.2 running
          refine (handed_choose parked ?_ chosen).passed oneBaton rfl
            (fun _ => rfl) fun idle => by rw [idle]; rfl
          rintro _ ⟨⟩
          exact possible.1
  | processDied pid status =>
      obtain ⟨⟨middle, handoff⟩, died, same⟩ := Option.map_eq_some_iff.1 done
      obtain ⟨rfl, rfl⟩ := Prod.mk.inj same
      obtain ⟨rfl, lulled⟩ | ⟨id, passed, rfl, handed, gone⟩ :=
        handed_processDied oneBaton possible died
      · exact lulled.passed oneBaton rfl rfl
      · refine handed.passed oneBaton rfl (fun given => ?_) fun idle => by
          rw [idle]; rfl
        cases passed with
        | stay =>
            obtain ⟨next, same, -, running⟩ := handed.given given
            obtain rfl := Option.some.inj same
            have runs := (running id).2 rfl
            rw [gone] at runs
            cases runs
        | switch => rfl
        | idle => exact absurd rfl given
  | _ =>
      exact (lulled_of_still rfl possible done).passed oneBaton
        (handedOff_of_still rfl done) rfl

/-- In every run the baton is with one thread at most. -/
theorem oneBaton_of_reachable (reachable : schedule.Reachable s) :
    s.OneBaton := by
  refine reachable.invariant ?_ ?_
  · rintro _ ⟨seed, quantumLo, quantumHi, names, latencyNs, rfl⟩ id running
    cases running
  · rintro state event later oneBaton ⟨possible, fuel, done⟩
    exact (passed_of_exec oneBaton possible done).oneBaton

theorem passed_of_step
    (reachable : schedule.Reachable s)
    {event : Event}
    (step : schedule.step s event later) : Passed s event later := by
  obtain ⟨possible, fuel, done⟩ := step
  exact passed_of_exec (oneBaton_of_reachable reachable) possible done

/-- A thread that is gone stays so and is never chosen. -/
theorem gone_of_run
    (reachable : schedule.Reachable s)
    {events : List Event}
    (run : schedule.Run s events later)
    (inside : id < s.nthreads)
    (exited : (s.threads id).state = .exited) :
    id < later.nthreads ∧ (later.threads id).state = .exited ∧
      ∀ event ∈ events, chosen event ≠ some id := by
  induction run with
  | refl => exact ⟨inside, exited, fun _ none => nomatch none⟩
  | @tail middle later events event run step inductionHypothesis =>
      obtain ⟨registered, gone, others⟩ := inductionHypothesis
      have passed := passed_of_step (run.reachable reachable) step
      have stays := passed.exited id registered gone
      refine ⟨registered.trans_le passed.nthreads, stays, fun other present => ?_⟩
      obtain before | rfl := List.mem_append.1 present |>.imp_right
        List.mem_singleton.1
      · exact others other before
      · intro isChosen
        have runs := passed.named id isChosen
        rw [stays] at runs
        cases runs

/-- In every run at most one thread runs; a hand-off that does not leave the run
idle gives the baton to the chosen thread and to no other; and a thread that is
gone stays so and is never chosen. -/
theorem baton_unique (reachable : schedule.Reachable s) :
    (∀ id other, (s.threads id).state = .running →
      (s.threads other).state = .running → id = other) ∧
    (∀ event later, schedule.step s event later →
      ∀ handoff ∈ event.2.handedOff, handoff ≠ .idle →
        ∃ next, chosen event = some next ∧ later.current = some next ∧
          ∀ id, (later.threads id).state = .running ↔ id = next) ∧
    (∀ id < s.nthreads, (s.threads id).state = .exited →
      ∀ events later, schedule.Run s events later →
        (later.threads id).state = .exited ∧
          ∀ event ∈ events, chosen event ≠ some id) := by
  refine ⟨fun id other runs runsToo => ?_, fun event later step => ?_,
    fun id inside exited events later run => ?_⟩
  · have oneBaton := oneBaton_of_reachable reachable
    exact Option.some.inj ((oneBaton id runs).symm.trans (oneBaton other runsToo))
  · exact (passed_of_step reachable step).given
  · exact (gone_of_run reachable run inside exited).2

/-- Two threads; the one that was chosen first exits. -/
def firstExits : List Op :=
  [.addProc 0 none, .addThread 0, .addThread 0, .handOff none 0,
    .handOff (some (1, .exited, 0)) 0]

theorem baton_unique_firstExits :
    (∀ id, ((played 1 firstExits).threads id).state = .running → 0 = id) ∧
      ∀ events later, schedule.Run (played 1 firstExits) events later →
        (later.threads 1).state = .exited ∧
          ∀ event ∈ events, chosen event ≠ some 1 := by
  have reachable : schedule.Reachable (played 1 firstExits) :=
    reachable_played (by decide +kernel)
  obtain ⟨unique, -, gone⟩ := baton_unique reachable
  exact ⟨fun id => unique 0 id (by decide +kernel),
    gone 1 (by decide +kernel) (by decide +kernel)⟩

end State
end Derp

import Derp.Sched.Condvars

/-!
# What leaves waits alone

Nothing but the pieces of waits and the signals queues a thread on a condition,
takes it off the queue or marks it as signaled, unless the thread is gone for
good; and it is marked as timed out only when the clock has reached its
deadline.
-/

namespace Derp

/-- A thread's place in a queue and its mark are kept, as long as it is not gone;
a deadline may pass, or be dropped. -/
structure ThreadRec.StillWaits (now : Nat) (t t' : ThreadRec) : Prop where
  signaled : t'.signaled = t.signaled
  condSeq : t'.condSeq = t.condSeq
  condKey : t'.condKey = t.condKey ∨ t'.condKey = 0 ∧ t'.state = .exited
  exited : t.state = .exited → t'.state = .exited
  deadline : t'.deadline = t.deadline ∨ t'.deadline = 0
  timedOut : t'.timedOut = true →
    t.timedOut = true ∨ t.deadline ≠ 0 ∧ t.deadline ≤ now

namespace ThreadRec

variable
  {now : Nat}
  {t t' t'' : ThreadRec}

theorem StillWaits.refl (now : Nat) (t : ThreadRec) : t.StillWaits now t :=
  ⟨rfl, rfl, .inl rfl, id, .inl rfl, .inl⟩

theorem StillWaits.trans
    (first : t.StillWaits now t')
    (second : t'.StillWaits now t'') : t.StillWaits now t'' where
  signaled := second.signaled.trans first.signaled
  condSeq := second.condSeq.trans first.condSeq
  condKey := by
    obtain same | left := second.condKey
    · obtain before | ⟨before, exited⟩ := first.condKey
      · exact .inl (same.trans before)
      · exact .inr ⟨same.trans before, second.exited exited⟩
    · exact .inr left
  exited := fun exited => second.exited (first.exited exited)
  deadline := by
    obtain same | none := second.deadline
    · rw [same]
      exact first.deadline
    · exact .inr none
  timedOut := fun timedOut => by
    obtain before | ⟨some, passed⟩ := second.timedOut timedOut
    · exact first.timedOut before
    · obtain same | none := first.deadline
      · rw [same] at some passed
        exact .inr ⟨some, passed⟩
      · exact absurd none some

theorem StillWaits.mono
    {later : Nat}
    (stillWaits : t.StillWaits now t')
    (order : now ≤ later) : t.StillWaits later t' :=
  { stillWaits with
    timedOut := fun timedOut =>
      (stillWaits.timedOut timedOut).imp_right fun passed =>
        ⟨passed.1, passed.2.trans order⟩ }

/-- Only what a wait is made of matters. -/
theorem stillWaits_of_eq
    (signaled : t'.signaled = t.signaled)
    (condSeq : t'.condSeq = t.condSeq)
    (condKey : t'.condKey = t.condKey)
    (deadline : t'.deadline = t.deadline)
    (timedOut : t'.timedOut = t.timedOut)
    (exited : t.state = .exited → t'.state = .exited) :
    t.StillWaits now t' :=
  ⟨signaled, condSeq, .inl condKey, exited, .inl deadline,
    fun passed => .inl (timedOut ▸ passed)⟩

theorem stillWaits_setState
    (now : Nat)
    (state : ThreadState)
    (staying : t.state ≠ .exited) : t.StillWaits now (t.setState state) :=
  stillWaits_of_eq rfl rfl rfl rfl rfl fun exited => absurd exited staying

theorem stillWaits_wake (now : Nat) (t : ThreadRec) :
    t.StillWaits now t.wake := by
  unfold wake
  split
  · next blocked =>
      exact stillWaits_setState now .runnable (by rw [blocked]; decide)
  · exact .refl now t

theorem stillWaits_retire (now : Nat) (t : ThreadRec) :
    t.StillWaits now t.retire :=
  ⟨rfl, rfl, .inr ⟨rfl, rfl⟩, fun _ => rfl, .inr rfl, .inl⟩

theorem stillWaits_timeOut (due : t.expired now = true) :
    t.StillWaits now t.timeOut := by
  unfold expired at due
  simp only [Bool.and_eq_true, decide_eq_true_eq] at due
  obtain ⟨⟨blocked, some⟩, passed⟩ := due
  refine ⟨rfl, rfl, .inl rfl, fun exited => ?_, .inr rfl,
    fun _ => .inr ⟨some, passed⟩⟩
  rw [blocked] at exited
  cases exited

theorem Aside.stillWaits
    (aside : t.Aside t')
    (now : Nat) : t.StillWaits now t' := by
  obtain ⟨_, _, _, rfl⟩ := aside
  exact stillWaits_of_eq rfl rfl rfl rfl rfl id

end ThreadRec

namespace State

variable
  {s middle later : State}
  {now : Nat}
  {pid : Pid}
  {id : ThreadId}
  {fuel : Nat}

/-- The waits of all threads are left alone, up to a time. -/
structure KeepsWaits (now : Nat) (s later : State) : Prop where
  nthreads : s.nthreads ≤ later.nthreads
  nextCondSeq : later.nextCondSeq = s.nextCondSeq
  pid : ∀ id < s.nthreads, (later.threads id).pid = (s.threads id).pid
  thread : ∀ id < s.nthreads,
    (s.threads id).StillWaits now (later.threads id)
  spare : ∀ id, s.nthreads ≤ id → (s.threads id).condKey = 0 →
    (later.threads id).condKey = 0

theorem KeepsWaits.refl (now : Nat) (s : State) : KeepsWaits now s s :=
  ⟨le_rfl, rfl, fun _ _ => rfl, fun _ _ => .refl _ _, fun _ _ none => none⟩

theorem KeepsWaits.trans
    (first : KeepsWaits now s middle)
    (second : KeepsWaits now middle later) : KeepsWaits now s later where
  nthreads := first.nthreads.trans second.nthreads
  nextCondSeq := second.nextCondSeq.trans first.nextCondSeq
  pid := fun id inside =>
    (second.pid id (inside.trans_le first.nthreads)).trans (first.pid id inside)
  thread := fun id inside =>
    (first.thread id inside).trans
      (second.thread id (inside.trans_le first.nthreads))
  spare := fun id outside none => by
    have before := first.spare id outside none
    by_cases inside : id < middle.nthreads
    · obtain same | left := (second.thread id inside).condKey
      · exact same.trans before
      · exact left.1
    · exact second.spare id (not_lt.1 inside) before

theorem KeepsWaits.mono
    {then' : Nat}
    (keeps : KeepsWaits now s later)
    (order : now ≤ then') : KeepsWaits then' s later :=
  { keeps with thread := fun id inside => (keeps.thread id inside).mono order }

/-- Threads whose waits are left alone, in tables of the same length. -/
theorem keepsWaits_of_threads
    (nthreads : later.nthreads = s.nthreads)
    (nextCondSeq : later.nextCondSeq = s.nextCondSeq)
    (threads : ∀ id, (later.threads id).pid = (s.threads id).pid ∧
      (s.threads id).StillWaits now (later.threads id)) :
    KeepsWaits now s later where
  nthreads := nthreads.ge
  nextCondSeq := nextCondSeq
  pid := fun id _ => (threads id).1
  thread := fun id _ => (threads id).2
  spare := fun id _ none => by
    obtain same | left := (threads id).2.condKey
    · exact same.trans none
    · exact left.1

/-- What else is in the state does not matter. -/
theorem keepsWaits_of_eq
    (now : Nat)
    (nthreads : later.nthreads = s.nthreads)
    (nextCondSeq : later.nextCondSeq = s.nextCondSeq)
    (threads : later.threads = s.threads) : KeepsWaits now s later :=
  keepsWaits_of_threads nthreads nextCondSeq fun id => by
    rw [threads]
    exact ⟨rfl, .refl _ _⟩

theorem keepsWaits_modifyThread
    (s : State)
    (id : ThreadId)
    {change : ThreadRec → ThreadRec}
    (samePid : (change (s.threads id)).pid = (s.threads id).pid)
    (stillWaits : (s.threads id).StillWaits now (change (s.threads id))) :
    KeepsWaits now s (s.modifyThread id change) := by
  refine keepsWaits_of_threads rfl rfl fun other => ?_
  unfold modifyThread
  dsimp only
  by_cases same : other = id
  · subst same
    rw [Function.update_self]
    exact ⟨samePid, stillWaits⟩
  · rw [Function.update_of_ne same]
    exact ⟨rfl, .refl _ _⟩

theorem keepsWaits_mapLive
    (s : State)
    {change : ThreadRec → ThreadRec}
    (kept : ∀ t : ThreadRec, (change t).pid = t.pid ∧
      t.StillWaits now (change t)) : KeepsWaits now s (s.mapLive change) := by
  refine keepsWaits_of_threads rfl rfl fun id => ?_
  unfold mapLive
  dsimp only
  split
  · exact kept _
  · exact ⟨rfl, .refl _ _⟩

theorem keepsWaits_modifyProc
    (now : Nat)
    (s : State)
    (pid : Pid)
    (change : ProcRec → ProcRec) : KeepsWaits now s (s.modifyProc pid change) :=
  keepsWaits_of_eq now rfl rfl rfl

/-! ## Deeds -/

theorem Woken.stillWaits
    {t t' : ThreadRec}
    (woken : s.Woken t t') : t.StillWaits s.clockNs t' := by
  cases woken with
  | same => exact .refl _ _
  | woken blocked =>
      exact ThreadRec.stillWaits_setState _ .runnable
        (by rw [blocked]; decide)
  | timedOut due => exact ThreadRec.stillWaits_timeOut due

theorem keepsWaits_fireAlarm
    {due : Nat}
    (pending : (s.procs pid).pendingAlarm = some due)
    (reached : due ≤ s.clockNs) : KeepsWaits now s (s.fireAlarm pid) := by
  obtain ⟨isOver, again, same, -, -⟩ := s.rearm_eq pid
  rw [fireAlarm_due pending reached, same]
  have signalled : KeepsWaits now s
      (({ s with overflow := isOver }.modifyProc pid
        (.setAlarmAt again)).modifyProc pid (.addSignal sigalrm)) :=
    keepsWaits_of_eq now rfl rfl rfl
  unfold wakeFirst
  split
  · next first found =>
      refine signalled.trans (keepsWaits_modifyThread _ _ rfl ?_)
      have blocked := List.find?_some found
      rw [Bool.and_eq_true, decide_eq_true_eq, decide_eq_true_eq] at blocked
      exact ThreadRec.stillWaits_setState _ .runnable
        (by rw [blocked.2]; decide)
  · exact signalled

theorem Change.keepsWaits (change : Change s later) :
    KeepsWaits s.clockNs s later := by
  cases change with
  | count => exact keepsWaits_of_eq _ rfl rfl rfl
  | wake woken =>
      exact keepsWaits_of_threads rfl rfl fun id =>
        ⟨(woken id).samePid, (woken id).stillWaits⟩
  | noise => exact keepsWaits_of_eq _ rfl rfl rfl
  | net => exact keepsWaits_of_eq _ rfl rfl rfl
  | signal pid sig =>
      refine (keepsWaits_modifyProc _ s pid (.addSignal sig)).trans
        (keepsWaits_mapLive _ fun t => ?_)
      split
      · exact ⟨wake_pid t, ThreadRec.stillWaits_wake _ t⟩
      · exact ⟨rfl, .refl _ _⟩
  | alarm pid _ pending reached => exact keepsWaits_fireAlarm pending reached
  | stop =>
      refine keepsWaits_of_threads rfl rfl fun id => ?_
      obtain same | ⟨same, -, staying⟩ := s.stopRun_thread id
      · rw [same]
        exact ⟨rfl, .refl _ _⟩
      · rw [same]
        exact ⟨rfl, ThreadRec.stillWaits_setState _ .runnable staying⟩
  | grace pid => exact keepsWaits_of_eq _ rfl rfl rfl

theorem Change.clockNs (change : Change s later) :
    later.clockNs = s.clockNs := by
  cases change with
  | alarm pid _ pending reached =>
      obtain ⟨isOver, again, same, -, -⟩ := s.rearm_eq pid
      rw [fireAlarm_due pending reached, same]
      unfold wakeFirst
      split <;> rfl
  | _ => rfl

theorem keepsWaits_killed (now : Nat) (s : State) (pid : Pid) :
    KeepsWaits now s (s.killed pid) := by
  have retired : KeepsWaits now s (s.retireThreads pid) :=
    keepsWaits_mapLive s fun t => by
      split
      · exact ⟨rfl, ThreadRec.stillWaits_retire now t⟩
      · exact ⟨rfl, .refl now t⟩
  exact retired.trans (keepsWaits_modifyProc now _ pid _)

theorem keepsWaits_newLife
    (now : Nat)
    (registered : pid < s.nprocs) : KeepsWaits now s (s.newLife pid) := by
  obtain ⟨rng, isOver, starts, priority, crashAt, shutdownAt, pctRng, same, -⟩ :=
    newLife_eq registered
  rw [same]
  refine ⟨Nat.le_succ _, rfl, fun id inside => ?_, fun id inside => ?_,
    fun id outside none => ?_⟩
  · rw [born_threads, if_neg inside.ne]
  · rw [born_threads, if_neg inside.ne]
    exact .refl _ _
  · rw [born_threads]
    split
    · next new =>
        rw [new] at none
        exact none
    · exact none

theorem Deeds.keepsWaits (deeds : Deeds s later) :
    later.clockNs = s.clockNs ∧ KeepsWaits s.clockNs s later :=
  Deeds.keep (P := fun later =>
      later.clockNs = s.clockNs ∧ KeepsWaits s.clockNs s later)
    (fun change kept =>
      ⟨change.clockNs.trans kept.1, kept.2.trans (kept.1 ▸ change.keepsWaits)⟩)
    (fun _ kept => ⟨kept.1, kept.2.trans (keepsWaits_killed _ _ _)⟩)
    (fun _ _ _ kept =>
      ⟨kept.1, (kept.2.trans (keepsWaits_modifyProc _ _ _ .useUpCrash)).trans
        (keepsWaits_killed _ _ _)⟩)
    (fun restarts kept => by
      obtain ⟨rng, isOver, starts, priority, crashAt, shutdownAt, pctRng, same,
        -⟩ := newLife_eq restarts.registered
      refine ⟨?_, kept.2.trans (keepsWaits_newLife _ restarts.registered)⟩
      rw [same]
      exact kept.1)
    deeds ⟨rfl, .refl _ s⟩

theorem Passages.keepsWaits (passages : Passages s later) :
    s.clockNs ≤ later.clockNs ∧ KeepsWaits later.clockNs s later := by
  induction passages with
  | refl => exact ⟨le_rfl, .refl _ s⟩
  | tail _ passage inductionHypothesis =>
      obtain ⟨order, kept⟩ := inductionHypothesis
      cases passage with
      | deed deed =>
          obtain ⟨clock, last⟩ := Deeds.keepsWaits (.single deed)
          rw [clock]
          exact ⟨order, kept.trans last⟩
      | jump _ _ _ same =>
          have more := order.trans (same ▸ le_max_left _ _)
          exact ⟨more, (kept.mono (same ▸ le_max_left _ _)).trans
            (keepsWaits_of_eq _ rfl rfl rfl)⟩
      | reseed =>
          exact ⟨order, kept.trans (keepsWaits_of_eq _ rfl rfl rfl)⟩

theorem Choice.keepsWaits
    (choice : Choice s later)
    (now : Nat) : KeepsWaits now s later := by
  refine keepsWaits_of_threads choice.nthreads ?_ fun id =>
    ⟨(choice.aside id).samePid, (choice.aside id).stillWaits now⟩
  cases choice
  rfl

theorem Changes.keepsWaits (changes : Changes s later) :
    later.clockNs = s.clockNs ∧ KeepsWaits s.clockNs s later :=
  Deeds.keepsWaits changes.deeds

/-! ## Hand-offs -/

theorem keepsWaits_giveBaton
    (now : Nat)
    {next : ThreadId}
    (runnable : (s.threads next).state = .runnable)
    (me : Option ThreadId)
    (site : UInt64) :
    (s.giveBaton me next site).1.clockNs = s.clockNs ∧
      KeepsWaits now s (s.giveBaton me next site).1 := by
  obtain ⟨_, _, _, _, _, park, same⟩ := s.giveBaton_eq me next site
  rw [same]
  have given : KeepsWaits now s (s.modifyThread next fun t =>
      { t with state := .running, park := park }) :=
    keepsWaits_modifyThread s next rfl
      (ThreadRec.stillWaits_of_eq rfl rfl rfl rfl rfl fun exited => by
        rw [runnable] at exited
        cases exited)
  exact ⟨rfl, given.trans (keepsWaits_of_eq _ rfl rfl rfl)⟩

theorem keepsWaits_choose
    {me : Option ThreadId}
    {site : UInt64}
    {handoff : Handoff}
    (chosen : s.choose fuel me site = some (later, handoff)) :
    KeepsWaits later.clockNs s later := by
  refine choose_keep (P := fun later => KeepsWaits later.clockNs s later)
    (fun passages => passages.keepsWaits.2) (fun choice kept => ?_)
    (fun _ runnable kept => ?_) chosen
  · rw [choice.clockNs]
    exact kept.trans (choice.keepsWaits _)
  · obtain ⟨clock, given⟩ := keepsWaits_giveBaton _ runnable me site
    rw [clock]
    exact kept.trans given

/-- A thread that gives the baton up is not gone, unless it goes. -/
theorem keepsWaits_handOff
    {src : Option (ThreadId × ThreadState × Nat)}
    {site : UInt64}
    {handoff : Handoff}
    (staying : ∀ giver ∈ src, (s.threads giver.1).state = .exited →
      giver.2.1 = .exited)
    (handed : s.handOff fuel src site = some (later, handoff)) :
    KeepsWaits later.clockNs s later := by
  have recorded : KeepsWaits later.clockNs s (s.recorded src) := by
    cases src with
    | none => exact .refl _ s
    | some giver =>
        obtain ⟨id, state, key⟩ := giver
        have written : KeepsWaits later.clockNs s (s.modifyThread id fun t =>
            { t with state := state, key := key }) :=
          keepsWaits_modifyThread s id rfl
            (ThreadRec.stillWaits_of_eq rfl rfl rfl rfl rfl (staying _ rfl))
        exact written.trans (keepsWaits_of_eq _ rfl rfl rfl)
  exact recorded.trans (keepsWaits_choose handed)

theorem keepsWaits_wakeAll
    (now : Nat)
    (s : State)
    (pid : Pid)
    (key : Nat) : KeepsWaits now s (s.wakeAll pid key) :=
  keepsWaits_mapLive s fun t => by
    split
    · exact ⟨wake_pid t, ThreadRec.stillWaits_wake now t⟩
    · exact ⟨rfl, .refl now t⟩

theorem keepsWaits_wakeIo (now : Nat) (s : State) :
    KeepsWaits now s s.wakeIo :=
  keepsWaits_mapLive s fun t => by
    split
    · exact ⟨wake_pid t, ThreadRec.stillWaits_wake now t⟩
    · exact ⟨rfl, .refl now t⟩

theorem keepsWaits_setNet (now : Nat) (s : State) (net : Net) :
    KeepsWaits now s (s.setNet net) :=
  keepsWaits_of_eq now rfl rfl rfl

theorem keepsWaits_closeDown (now : Nat) (s : State) (pid : Pid) :
    KeepsWaits now s (s.closeDown pid) := by
  unfold closeDown
  generalize s.net.processDied pid = net
  have woken := (keepsWaits_setNet now s net).trans (keepsWaits_wakeIo now _)
  unfold tellParent
  split
  · exact woken.trans ((keepsWaits_modifyProc now _ _ (.noteChild pid)).trans
      (keepsWaits_wakeAll now _ _ waitKey))
  · exact woken

/-- The burial of a process times nobody out. -/
theorem keepsWaits_buried
    (now : Nat)
    (registered : pid < s.nprocs)
    (status : Int) : KeepsWaits now s (s.buried pid status) := by
  have noted : KeepsWaits now s (s.noteExit pid status) :=
    keepsWaits_modifyProc now s pid _
  have mourned {s : State} (dead : s.Dead pid) :
      KeepsWaits now s (s.mourn pid status) := by
    have restarted : KeepsWaits now s (s.registerRestart pid status) := by
      obtain ⟨restarts, same⟩ | ⟨-, same⟩ :=
        registerRestart_cases dead.1 dead.2 status
      · rw [same]
        exact keepsWaits_newLife now dead.1
      · rw [same]
        exact .refl now s
    rw [mourn_eq]
    exact restarted.trans
      ((keepsWaits_modifyProc now _ pid .clearFaultTimes).trans
        (keepsWaits_closeDown now _ pid))
  have retired (s : State) : KeepsWaits now s (s.mapLive fun t =>
      if t.pid = pid ∧ t.state ≠ .exited then t.retire else t) :=
    keepsWaits_mapLive s fun t => by
      split
      · exact ⟨rfl, ThreadRec.stillWaits_retire now t⟩
      · exact ⟨rfl, .refl now t⟩
  rw [buried_eq]
  split
  · exact noted.trans (retired _)
  · exact (noted.trans (mourned (dead_noteExit registered status))).trans
      (retired _)

theorem keepsWaits_processDied
    (registered : pid < s.nprocs)
    {status : Int}
    {handoff : Option Handoff}
    (died : s.processDied fuel pid status = some (later, handoff)) :
    KeepsWaits later.clockNs s later := by
  have buried := keepsWaits_buried later.clockNs registered status
  obtain ⟨-, same, -⟩ | ⟨id, passed, held, handed, -⟩ :=
    processDied_eq_some_iff.1 died
  · rw [← same] at buried
    exact buried
  · refine buried.trans (keepsWaits_handOff ?_ handed)
    rintro _ ⟨⟩ _
    rfl

/-! ## Operations -/

theorem keepsWaits_addThread
    (now : Nat)
    (s : State)
    (pid : Pid) : KeepsWaits now s (s.addThread pid).1 := by
  obtain ⟨pctRng, priority, drawn, -⟩ :=
    { s with nthreads := s.nthreads + 1 }.drawPriority_eq
  unfold addThread
  dsimp only
  rw [drawn]
  unfold modifyThread
  dsimp only
  refine ⟨Nat.le_succ _, rfl, fun id inside => ?_, fun id inside => ?_,
    fun id outside none => ?_⟩
  · dsimp only
    rw [Function.update_of_ne inside.ne]
  · dsimp only
    rw [Function.update_of_ne inside.ne]
    exact .refl _ _
  · dsimp only
    by_cases new : id = s.nthreads
    · subst new
      rw [Function.update_self]
      exact none
    · rw [Function.update_of_ne new]
      exact none

theorem keepsWaits_drawCrash
    (now : Nat)
    (s : State)
    (pid : Pid)
    (lifeStarts : Nat) : KeepsWaits now s (s.drawCrash pid lifeStarts) := by
  obtain ⟨rng, isOver, crashAt, shutdownAt, same, -⟩ :=
    s.drawCrash_eq pid lifeStarts
  rw [same]
  exact keepsWaits_of_eq now rfl rfl rfl

theorem keepsWaits_clock
    (now : Nat)
    (s : State)
    (overflow : Bool)
    (clockNs : Nat) :
    KeepsWaits now s { s with overflow := overflow, clockNs := clockNs } :=
  keepsWaits_of_eq now rfl rfl rfl

theorem keepsWaits_clockRead (s : State) :
    KeepsWaits s.clockRead.clockNs s s.clockRead := by
  have read (now : Nat) : KeepsWaits now s
      ((s.noteAdd s.clockNs perReadNs).setClock
        (wrappingAdd s.clockNs perReadNs)) :=
    keepsWaits_clock now s _ _
  unfold clockRead
  generalize (s.noteAdd s.clockNs perReadNs).setClock
    (wrappingAdd s.clockNs perReadNs) = ticked at read ⊢
  obtain ⟨clock, moved⟩ := Changes.keepsWaits (changes_clockMoved ticked)
  rw [clock]
  exact (read _).trans moved

theorem keepsWaits_unregister (now : Nat) (s : State) (child : Pid) :
    KeepsWaits now s (s.unregister child) := by
  refine (keepsWaits_modifyProc now s child fun p =>
    { p with state := .exited, reaped := true }).trans
      (keepsWaits_mapLive _ fun t => ?_)
  split
  · exact ⟨rfl, ThreadRec.stillWaits_of_eq rfl rfl rfl rfl rfl fun _ => rfl⟩
  · exact ⟨rfl, .refl now t⟩

theorem keepsWaits_setAlarm
    (now : Nat)
    (s : State)
    (pid : Pid)
    (value interval : Nat) :
    KeepsWaits now s (s.setAlarm pid value interval) := by
  unfold setAlarm
  dsimp only
  split <;> exact keepsWaits_of_eq now rfl rfl rfl

/-- The operations that are pieces of waits, or signals. -/
def Op.onConditions : Op → Bool
  | .condEnqueue _ _ => true
  | .condWake _ _ _ => true
  | .setDeadline _ _ => true
  | _ => false

/-- All other operations leave waits alone. -/
theorem keepsWaits_of_exec
    {op : Op}
    {answer : Answer}
    (apart : op.onConditions = false)
    (possible : s.Possible op)
    (done : s.exec fuel op = some (later, answer)) :
    KeepsWaits later.clockNs s later := by
  by_cases calm : op.calm = true
  · obtain ⟨clock, kept⟩ :=
      Changes.keepsWaits (changes_of_exec calm possible done)
    rw [clock]
    exact kept
  by_cases setting : op.setting = true
  · cases tuned_of_exec setting done
    exact keepsWaits_of_eq _ rfl rfl rfl
  cases op with
  | addProc host parent =>
      obtain ⟨rfl, -⟩ := Prod.mk.inj (Option.some.inj done)
      exact keepsWaits_of_eq _ rfl rfl rfl
  | addThread pid =>
      obtain ⟨rfl, -⟩ := Prod.mk.inj (Option.some.inj done)
      exact keepsWaits_addThread _ s pid
  | setFaults pid faults spec =>
      obtain ⟨rfl, -⟩ := Prod.mk.inj (Option.some.inj done)
      exact (keepsWaits_modifyProc _ s pid _).trans
        (keepsWaits_drawCrash _ _ pid _)
  | attach pid realPid =>
      obtain ⟨rfl, -⟩ := Prod.mk.inj (Option.some.inj done)
      exact keepsWaits_modifyProc _ s pid _
  | unregister child =>
      obtain ⟨rfl, -⟩ := Prod.mk.inj (Option.some.inj done)
      exact keepsWaits_unregister _ s child
  | setAlarm pid value interval =>
      obtain ⟨rfl, -⟩ := Prod.mk.inj (Option.some.inj done)
      exact keepsWaits_setAlarm _ s pid value interval
  | reap pid =>
      obtain ⟨rfl, -⟩ := Prod.mk.inj (Option.some.inj done)
      exact keepsWaits_modifyProc _ s pid _
  | handOff src site =>
      obtain ⟨⟨middle, handoff⟩, handed, same⟩ := Option.map_eq_some_iff.1 done
      obtain rfl : middle = later := congrArg Prod.fst same
      refine keepsWaits_handOff ?_ handed
      rintro ⟨id, state, key⟩ rfl exited
      exact absurd exited possible.1.2.2
  | choose me site =>
      obtain ⟨⟨middle, handoff⟩, chosen, same⟩ := Option.map_eq_some_iff.1 done
      obtain rfl : middle = later := congrArg Prod.fst same
      exact keepsWaits_choose chosen
  | crash victim =>
      obtain ⟨rfl, -⟩ := Prod.mk.inj (Option.some.inj done)
      obtain ⟨clock, kept⟩ :=
        Deeds.keepsWaits (.single (.crash victim possible.1))
      rw [clock]
      exact kept
  | processDied pid status =>
      obtain ⟨⟨middle, handoff⟩, died, same⟩ := Option.map_eq_some_iff.1 done
      obtain rfl : middle = later := congrArg Prod.fst same
      exact keepsWaits_processDied possible died
  | threadKill id sig =>
      obtain ⟨rfl, -⟩ := Prod.mk.inj (Option.some.inj done)
      exact keepsWaits_modifyThread s id rfl
        (ThreadRec.stillWaits_of_eq rfl rfl rfl rfl rfl fun exited => exited)
  | takeSignals id unmasked =>
      obtain ⟨rfl, -⟩ := Prod.mk.inj (Option.some.inj done)
      exact (keepsWaits_modifyProc _ s _ _).trans
        (keepsWaits_modifyThread _ id rfl
          (ThreadRec.stillWaits_of_eq rfl rfl rfl rfl rfl fun exited => exited))
  | noteOutsideWake pid =>
      obtain ⟨rfl, -⟩ := Prod.mk.inj (Option.some.inj done)
      exact keepsWaits_modifyProc _ s pid _
  | clockRead =>
      obtain ⟨rfl, -⟩ := Prod.mk.inj (Option.some.inj done)
      exact keepsWaits_clockRead s
  | _ => simp [Op.calm, Op.setting, Op.onConditions] at calm setting apart

end State
end Derp

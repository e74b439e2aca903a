import Derp.Sched.Kinds

/-!
# The tables are in order

Slots past the last one are zeroed, every thread belongs to a process, every
parent is one, and the baton is with a thread.  Every operation keeps this.
-/

namespace Derp

theorem ProcRec.Noise.trans
    {p p' p'' : ProcRec}
    (first : p.Noise p')
    (second : p'.Noise p'') : p.Noise p'' := by
  obtain ⟨_, _, _, _, rfl⟩ := first
  obtain ⟨_, _, _, _, rfl⟩ := second
  exact ⟨_, _, _, _, rfl⟩

namespace State

/-- The tables are in order. -/
structure Tidy (s : State) : Prop where
  spareThreads : ∀ id, s.nthreads ≤ id → s.threads id = {}
  spareProcs : ∀ pid, s.nprocs ≤ pid → ({} : ProcRec).Noise (s.procs pid)
  owner : ∀ id < s.nthreads, (s.threads id).pid < s.nprocs
  parent : ∀ pid, ∀ other ∈ (s.procs pid).parent, other < s.nprocs
  current : ∀ id ∈ s.current, id < s.nthreads

variable
  {s later : State}
  {pid : Pid}
  {id : ThreadId}
  {fuel : Nat}

/-! ## Changes of records -/

/-- The tables are as long as they were, threads are of the same processes and
processes have the same parents, and spare slots are left alone. -/
structure Orderly (s later : State) : Prop where
  nthreads : later.nthreads = s.nthreads
  nprocs : later.nprocs = s.nprocs
  pid : ∀ id, (later.threads id).pid = (s.threads id).pid
  spareThreads : ∀ id, s.nthreads ≤ id → later.threads id = s.threads id
  parent : ∀ pid, (later.procs pid).parent = (s.procs pid).parent
  spareProcs : ∀ pid, s.nprocs ≤ pid → (s.procs pid).Noise (later.procs pid)
  current : ∀ id ∈ later.current, id < s.nthreads

theorem Tidy.of_orderly
    (tidy : s.Tidy)
    (orderly : Orderly s later) : later.Tidy where
  spareThreads := fun id spare => by
    rw [orderly.nthreads] at spare
    rw [orderly.spareThreads id spare, tidy.spareThreads id spare]
  spareProcs := fun pid spare => by
    rw [orderly.nprocs] at spare
    exact (tidy.spareProcs pid spare).trans (orderly.spareProcs pid spare)
  owner := fun id inside => by
    rw [orderly.nthreads] at inside
    rw [orderly.pid, orderly.nprocs]
    exact tidy.owner id inside
  parent := fun pid other isParent => by
    rw [orderly.parent] at isParent
    rw [orderly.nprocs]
    exact tidy.parent pid other isParent
  current := fun id holds => by
    rw [orderly.nthreads]
    exact orderly.current id holds

theorem Tidy.orderly (tidy : s.Tidy) : Orderly s s :=
  ⟨rfl, rfl, fun _ => rfl, fun _ _ => rfl, fun _ => rfl, fun _ _ => .refl _,
    tidy.current⟩

/-- Other threads and processes of the same tables. -/
theorem Tidy.records
    (tidy : s.Tidy)
    {threads : ThreadId → ThreadRec}
    {procs : Pid → ProcRec}
    (pid : ∀ id, (threads id).pid = (s.threads id).pid)
    (spareThreads : ∀ id, s.nthreads ≤ id → threads id = s.threads id)
    (parent : ∀ pid, (procs pid).parent = (s.procs pid).parent)
    (spareProcs : ∀ pid, s.nprocs ≤ pid → (s.procs pid).Noise (procs pid)) :
    { s with threads := threads, procs := procs }.Tidy :=
  tidy.of_orderly
    ⟨rfl, rfl, pid, spareThreads, parent, spareProcs, tidy.current⟩

theorem Tidy.modifyThread
    (tidy : s.Tidy)
    (registered : id < s.nthreads)
    {change : ThreadRec → ThreadRec}
    (kept : ∀ t, (change t).pid = t.pid) : (s.modifyThread id change).Tidy := by
  refine tidy.records (fun other => ?_) (update_beyond registered _)
    (fun _ => rfl) fun _ _ => .refl _
  by_cases same : other = id
  · subst same
    rw [Function.update_self, kept]
  · rw [Function.update_of_ne same]

theorem Tidy.mapLive
    (tidy : s.Tidy)
    {change : ThreadRec → ThreadRec}
    (kept : ∀ t, (change t).pid = t.pid) : (s.mapLive change).Tidy := by
  refine tidy.records (fun id => ?_) (fun id spare => ?_) (fun _ => rfl)
    fun _ _ => .refl _
  · split
    · exact kept _
    · rfl
  · exact if_neg spare.not_gt

theorem Tidy.modifyProc
    (tidy : s.Tidy)
    (registered : pid < s.nprocs)
    (change : ProcRec → ProcRec)
    (kept : ∀ p, (change p).parent = p.parent) :
    (s.modifyProc pid change).Tidy := by
  refine tidy.records (fun _ => rfl) (fun _ _ => rfl) (fun other => ?_)
    fun other spare => ?_
  · by_cases same : other = pid
    · subst same
      rw [Function.update_self, kept]
    · rw [Function.update_of_ne same]
  · rw [Function.update_of_ne (registered.trans_le spare).ne']
    exact .refl _

theorem Tidy.mapProcs
    (tidy : s.Tidy)
    (change : ProcRec → ProcRec)
    (kept : ∀ p, (change p).parent = p.parent) : (s.mapProcs change).Tidy := by
  refine tidy.records (fun _ => rfl) (fun _ _ => rfl) (fun pid => ?_)
    fun pid spare => ?_
  · split
    · exact kept _
    · rfl
  · rw [if_neg spare.not_gt]
    exact .refl _

/-- What else is in the state does not matter. -/
theorem Tidy.of_tables
    (tidy : s.Tidy)
    (nthreads : later.nthreads = s.nthreads)
    (nprocs : later.nprocs = s.nprocs)
    (threads : later.threads = s.threads)
    (procs : later.procs = s.procs)
    (current : later.current = s.current) : later.Tidy := by
  refine tidy.of_orderly ⟨nthreads, nprocs, ?_, ?_, ?_, ?_, ?_⟩
  · rw [threads]
    exact fun _ => rfl
  · rw [threads]
    exact fun _ _ => rfl
  · rw [procs]
    exact fun _ => rfl
  · rw [procs]
    exact fun _ _ => .refl _
  · rw [current]
    exact tidy.current

theorem wake_pid (t : ThreadRec) : t.wake.pid = t.pid := by
  unfold ThreadRec.wake
  split <;> rfl

/-- The clock does not matter. -/
theorem Tidy.clock
    (tidy : s.Tidy)
    (overflow : Bool)
    (clockNs : Nat) :
    { s with overflow := overflow, clockNs := clockNs }.Tidy :=
  tidy.of_tables rfl rfl rfl rfl rfl

/-! ## Deeds -/

theorem Woken.samePid
    {t t' : ThreadRec}
    (woken : s.Woken t t') : t'.pid = t.pid := by
  cases woken <;> rfl

theorem Woken.unused
    {t : ThreadRec}
    (woken : s.Woken {} t) : t = {} := by
  cases woken with
  | same => rfl
  | woken blocked => cases blocked
  | timedOut expired => simp [ThreadRec.expired] at expired

theorem Tidy.postSignal
    (tidy : s.Tidy)
    (registered : pid < s.nprocs)
    (sig : Nat) : (s.postSignal pid sig).Tidy := by
  have signalled : (s.modifyProc pid (.addSignal sig)).Tidy :=
    tidy.modifyProc registered _ fun _ => rfl
  refine signalled.mapLive fun t => ?_
  split
  · exact wake_pid t
  · rfl

theorem Tidy.fireAlarm
    (tidy : s.Tidy)
    (registered : pid < s.nprocs)
    {due : Nat}
    (pending : (s.procs pid).pendingAlarm = some due)
    (reached : due ≤ s.clockNs) : (s.fireAlarm pid).Tidy := by
  rw [fireAlarm_due pending reached]
  obtain ⟨isOver, again, same, -⟩ := s.rearm_eq pid
  rw [same]
  have noted : { s with overflow := isOver }.Tidy :=
    tidy.of_tables rfl rfl rfl rfl rfl
  have rearmed := noted.modifyProc registered (.setAlarmAt again) fun _ => rfl
  have signalled := rearmed.modifyProc registered (.addSignal sigalrm)
    fun _ => rfl
  unfold wakeFirst
  split
  · next id found =>
      have present := List.mem_of_find?_eq_some found
      exact signalled.modifyThread (List.mem_range.1 present) fun _ => rfl
  · exact signalled

theorem Tidy.newLife
    (tidy : s.Tidy)
    (registered : pid < s.nprocs) : (s.newLife pid).Tidy := by
  obtain ⟨_, _, _, _, _, _, _, same, -⟩ := newLife_eq registered
  rw [same]
  have notNew : s.nprocs ≠ pid := registered.ne'
  refine ⟨fun id spare => ?_, fun other spare => ?_, fun id inside => ?_,
    fun other parent isParent => ?_, fun id holds => ?_⟩
  · have beyond : s.nthreads + 1 ≤ id := spare
    rw [born_threads, if_neg (Nat.lt_of_succ_le beyond).ne']
    exact tidy.spareThreads id (Nat.le_of_succ_le beyond)
  · have beyond : s.nprocs + 1 ≤ other := spare
    rw [born_procs, if_neg (Nat.lt_of_succ_le beyond).ne',
      if_neg (registered.trans beyond).ne']
    exact tidy.spareProcs other (Nat.le_of_succ_le beyond)
  · have before : id < s.nthreads + 1 := inside
    have grown : s.nprocs < s.nprocs + 1 := Nat.lt_succ_self _
    rw [born_threads]
    split
    · exact grown
    · next old =>
        have inside := lt_of_le_of_ne (Nat.lt_succ_iff.1 before) old
        exact (tidy.owner id inside).trans grown
  · have grown : s.nprocs < s.nprocs + 1 := Nat.lt_succ_self _
    rw [born_procs] at isParent
    split at isParent
    · cases isParent
    split at isParent
    · exact (tidy.parent pid parent isParent).trans grown
    · exact (tidy.parent other parent isParent).trans grown
  · exact (tidy.current id holds).trans (Nat.lt_succ_self _)

theorem Change.tidy
    (change : Change s later)
    (tidy : s.Tidy) : later.Tidy := by
  cases change with
  | count => exact tidy.of_tables rfl rfl rfl rfl rfl
  | wake woken =>
      refine tidy.records (fun id => (woken id).samePid) (fun id spare => ?_)
        (fun _ => rfl) fun _ _ => .refl _
      have isWoken := woken id
      rw [tidy.spareThreads id spare] at isWoken ⊢
      exact isWoken.unused
  | noise noise =>
      refine tidy.records (fun _ => rfl) (fun _ _ => rfl) (fun pid => ?_)
        fun pid _ => noise pid
      obtain ⟨_, _, _, _, same⟩ := noise pid
      rw [same]
  | net => exact tidy.of_tables rfl rfl rfl rfl rfl
  | signal pid sig registered => exact tidy.postSignal registered sig
  | alarm pid registered pending reached =>
      exact tidy.fireAlarm registered pending reached
  | stop =>
      have stopped : { s with stopped := true }.Tidy :=
        tidy.of_tables rfl rfl rfl rfl rfl
      have told := stopped.mapProcs
        (fun p => if p.alive then { p with stopped := true } else p)
        fun p => by split <;> rfl
      unfold stopRun
      dsimp only
      exact told.mapLive fun t => by split <;> rfl
  | grace pid alive =>
      have used := tidy.modifyProc alive.1 .useUpShutdown fun p => by
        unfold ProcRec.useUpShutdown
        split <;> rfl
      exact used.modifyProc alive.1 _ fun _ => rfl

theorem Tidy.killed
    (tidy : s.Tidy)
    (registered : pid < s.nprocs) : (s.killed pid).Tidy := by
  have retired : (s.retireThreads pid).Tidy := tidy.mapLive fun t => by
    split <;> rfl
  exact retired.modifyProc registered _ fun _ => rfl

theorem Tidy.useUpCrash
    (tidy : s.Tidy)
    (registered : pid < s.nprocs) : (s.modifyProc pid .useUpCrash).Tidy :=
  tidy.modifyProc registered _ fun p => by
    unfold ProcRec.useUpCrash
    split <;> rfl

theorem Deeds.tidy (deeds : Deeds s later) (tidy : s.Tidy) : later.Tidy :=
  Deeds.keep Change.tidy (fun alive tidy => tidy.killed alive.1)
    (fun registered _ _ tidy => (tidy.useUpCrash registered).killed registered)
    (fun restarts tidy => tidy.newLife restarts.registered) deeds tidy

theorem Passages.tidy
    (passages : Passages s later)
    (tidy : s.Tidy) : later.Tidy := by
  induction passages with
  | refl => exact tidy
  | tail _ passage inductionHypothesis =>
      cases passage with
      | deed deed => exact Deeds.tidy (.single deed) inductionHypothesis
      | jump => exact inductionHypothesis.of_tables rfl rfl rfl rfl rfl
      | reseed => exact inductionHypothesis.of_tables rfl rfl rfl rfl rfl

theorem Choice.tidy (choice : Choice s later) (tidy : s.Tidy) : later.Tidy := by
  refine tidy.of_orderly ⟨choice.nthreads, choice.nprocs, fun id => ?_,
    choice.spare, ?_, ?_, ?_⟩
  · exact (choice.aside id).samePid
  · rw [choice.procs]
    exact fun _ => rfl
  · rw [choice.procs]
    exact fun _ _ => .refl _
  · rw [choice.current]
    exact tidy.current

/-! ## Hand-offs -/

theorem Tidy.giveBaton
    (tidy : s.Tidy)
    {next : ThreadId}
    (registered : next < s.nthreads)
    (me : Option ThreadId)
    (site : UInt64) : (s.giveBaton me next site).1.Tidy := by
  obtain ⟨_, _, _, _, _, park, same⟩ := s.giveBaton_eq me next site
  rw [same]
  refine tidy.of_orderly ⟨rfl, rfl, fun id => ?_, update_beyond registered _,
    fun _ => rfl, fun _ _ => .refl _, fun id holds => ?_⟩
  · dsimp only
    by_cases isNext : id = next
    · subst isNext
      rw [Function.update_self]
    · rw [Function.update_of_ne isNext]
  · dsimp only at holds
    split at holds
    · exact tidy.current id holds
    · obtain rfl : next = id := Option.some.inj holds
      exact registered

theorem Tidy.choose
    (tidy : s.Tidy)
    {me : Option ThreadId}
    {site : UInt64}
    {handoff : Handoff}
    (chosen : s.choose fuel me site = some (later, handoff)) : later.Tidy := by
  exact choose_keep (P := Tidy) (fun passages => passages.tidy tidy)
    Choice.tidy (fun registered _ tidy => tidy.giveBaton registered me site)
    chosen

theorem Tidy.recorded
    (tidy : s.Tidy)
    {src : Option (ThreadId × ThreadState × Nat)}
    (registered : ∀ giver ∈ src, giver.1 < s.nthreads) :
    (s.recorded src).Tidy := by
  cases src with
  | none => exact tidy
  | some giver =>
      obtain ⟨id, state, key⟩ := giver
      have written : (s.modifyThread id fun t =>
          { t with state := state, key := key }).Tidy :=
        tidy.modifyThread (registered _ rfl) fun _ => rfl
      exact written.clock _ _

theorem Tidy.handOff
    (tidy : s.Tidy)
    {src : Option (ThreadId × ThreadState × Nat)}
    {site : UInt64}
    {handoff : Handoff}
    (registered : ∀ giver ∈ src, giver.1 < s.nthreads)
    (handed : s.handOff fuel src site = some (later, handoff)) : later.Tidy :=
  (tidy.recorded registered).choose handed

theorem Changes.tidy (changes : Changes s later) (tidy : s.Tidy) : later.Tidy :=
  Changes.keep Change.tidy changes tidy

/-- The first thing the launcher notes of a death. -/
def noteExit (s : State) (pid : Pid) (status : Int) : State :=
  s.modifyProc pid fun p =>
    { p with
      state := .exited
      exitStatus := status
      diedAt := if p.diedAt = 0 then max 1 s.clockNs else p.diedAt }

theorem noteExit_proc (s : State) (pid : Pid) (status : Int) :
    (s.noteExit pid status).procs pid =
      { s.procs pid with
        state := .exited
        exitStatus := status
        diedAt := if (s.procs pid).diedAt = 0 then max 1 s.clockNs
          else (s.procs pid).diedAt } :=
  Function.update_self _ _ _

theorem dead_noteExit
    (registered : pid < s.nprocs)
    (status : Int) : (s.noteExit pid status).Dead pid := by
  refine ⟨registered, ?_⟩
  rw [noteExit_proc]
  rfl

theorem mourn_eq (s : State) (pid : Pid) (status : Int) :
    s.mourn pid status =
      ((s.registerRestart pid status).modifyProc pid
        .clearFaultTimes).closeDown pid := rfl

theorem buried_eq (s : State) (pid : Pid) (status : Int) :
    s.buried pid status =
      (if ((s.noteExit pid status).procs pid).killed then s.noteExit pid status
        else (s.noteExit pid status).mourn pid status).mapLive fun t =>
          if t.pid = pid ∧ t.state ≠ .exited then t.retire else t := rfl

/-- What changes, new lives, other process records and the retirement of its
threads keep, the burial of a process keeps. -/
theorem buried_keep
    {P : State → Prop}
    (change : ∀ {s later}, Change s later → P s → P later)
    (newLife : ∀ {s pid status}, Restarts s pid status → P s →
      P (s.newLife pid))
    (records : ∀ {s : State} procs, P s → P { s with procs := procs })
    (retired : ∀ {s : State}, P s → P (s.mapLive fun t =>
      if t.pid = pid ∧ t.state ≠ .exited then t.retire else t))
    (registered : pid < s.nprocs)
    (status : Int)
    (before : P s) : P (s.buried pid status) := by
  have noted : P (s.noteExit pid status) := records _ before
  have dead := dead_noteExit registered status
  have restarted : P ((s.noteExit pid status).registerRestart pid status) := by
    obtain ⟨restarts, same⟩ | ⟨-, same⟩ :=
      registerRestart_cases dead.1 dead.2 status
    · rw [same]
      exact newLife restarts noted
    · rw [same]
      exact noted
  rw [buried_eq]
  refine retired ?_
  split
  · exact noted
  · rw [mourn_eq]
    exact Changes.keep change (changes_closeDown _ pid) (records _ restarted)

theorem Tidy.mourn
    (tidy : s.Tidy)
    (dead : s.Dead pid)
    (status : Int) : (s.mourn pid status).Tidy := by
  obtain ⟨registered, after⟩ : pid < (s.registerRestart pid status).nprocs ∧
      (s.registerRestart pid status).Tidy := by
    obtain ⟨restarts, same⟩ | ⟨-, same⟩ :=
      registerRestart_cases dead.1 dead.2 status
    · rw [same, (newLife_tables dead.1).1]
      exact ⟨dead.1.trans (Nat.lt_succ_self _), tidy.newLife dead.1⟩
    · rw [same]
      exact ⟨dead.1, tidy⟩
  have cleared := after.modifyProc registered .clearFaultTimes fun _ => rfl
  rw [mourn_eq]
  exact Changes.tidy (changes_closeDown _ pid) cleared

theorem Tidy.buried
    (tidy : s.Tidy)
    (registered : pid < s.nprocs)
    (status : Int) : (s.buried pid status).Tidy := by
  have noted : (s.noteExit pid status).Tidy :=
    tidy.modifyProc registered _ fun _ => rfl
  have mourned : (if ((s.noteExit pid status).procs pid).killed then
      s.noteExit pid status else (s.noteExit pid status).mourn pid status).Tidy := by
    split
    · exact noted
    · exact noted.mourn (dead_noteExit registered status) status
  rw [buried_eq]
  exact mourned.mapLive fun t => by split <;> rfl

theorem Tidy.processDied
    (tidy : s.Tidy)
    (registered : pid < s.nprocs)
    {status : Int}
    {handoff : Option Handoff}
    (died : s.processDied fuel pid status = some (later, handoff)) :
    later.Tidy := by
  have buried := tidy.buried registered status
  obtain ⟨-, rfl, -⟩ | ⟨id, passed, held, handed, -⟩ :=
    processDied_eq_some_iff.1 died
  · exact buried
  · refine buried.handOff ?_ handed
    rintro _ ⟨⟩
    exact (heldBy_eq_some held).2.1

theorem Tidy.condWakeLoop
    (tidy : s.Tidy)
    (rounds : Nat)
    (pid : Pid)
    (cond : Nat)
    (all : Bool) : (State.condWakeLoop rounds s pid cond all).Tidy := by
  induction rounds generalizing s with
  | zero => exact tidy
  | succ rounds inductionHypothesis =>
      unfold State.condWakeLoop
      split
      · exact tidy
      · next id first =>
          have present := List.mem_of_mem_filter (List.argmin_mem first)
          have registered : id < s.nthreads := List.mem_range.1 present
          have signalled : (s.condSignal id).Tidy := by
            have marked : (s.modifyThread id fun t =>
                { t with condKey := 0, signaled := true }).Tidy :=
              tidy.modifyThread registered fun _ => rfl
            exact marked.modifyThread registered wake_pid
          dsimp only
          split
          · exact inductionHypothesis signalled
          · exact signalled

theorem Tidy.addProc
    (tidy : s.Tidy)
    (host : Nat)
    {parent : Option Pid}
    (registered : ∀ pid ∈ parent, pid < s.nprocs) :
    (s.addProc host parent).1.Tidy := by
  have grown : s.nprocs < s.nprocs + 1 := Nat.lt_succ_self _
  refine ⟨tidy.spareThreads, fun pid spare => ?_, fun id inside => ?_,
    fun pid other isParent => ?_, tidy.current⟩
  · have beyond : s.nprocs + 1 ≤ pid := spare
    have same : (s.addProc host parent).1.procs pid = s.procs pid :=
      Function.update_of_ne (Nat.lt_of_succ_le beyond).ne' _ _
    rw [same]
    exact tidy.spareProcs pid (Nat.le_of_succ_le beyond)
  · exact (tidy.owner id inside).trans grown
  · by_cases new : pid = s.nprocs
    · subst new
      have same : (s.addProc host parent).1.procs s.nprocs =
          { s.procs s.nprocs with
            state := .starting
            host := host
            parent := parent
            replacedBy := none
            spec := none } := Function.update_self _ _ _
      rw [same] at isParent
      exact (registered other isParent).trans grown
    · have same : (s.addProc host parent).1.procs pid = s.procs pid :=
        Function.update_of_ne new _ _
      rw [same] at isParent
      exact (tidy.parent pid other isParent).trans grown

theorem Tidy.addThread
    (tidy : s.Tidy)
    (registered : pid < s.nprocs) : (s.addThread pid).1.Tidy := by
  obtain ⟨pctRng, priority, drawn, -⟩ :=
    { s with nthreads := s.nthreads + 1 }.drawPriority_eq
  unfold State.addThread
  dsimp only
  rw [drawn]
  refine ⟨fun id spare => ?_, tidy.spareProcs, fun id inside => ?_, tidy.parent,
    fun id holds => (tidy.current id holds).trans (Nat.lt_succ_self _)⟩
  · have beyond : s.nthreads + 1 ≤ id := spare
    refine (Function.update_of_ne (Nat.lt_of_succ_le beyond).ne' _ _).trans ?_
    exact tidy.spareThreads id (Nat.le_of_succ_le beyond)
  · have before : id < s.nthreads + 1 := inside
    unfold State.modifyThread
    dsimp only
    by_cases new : id = s.nthreads
    · subst new
      rw [Function.update_self]
      exact registered
    · rw [Function.update_of_ne new]
      exact tidy.owner id (lt_of_le_of_ne (Nat.lt_succ_iff.1 before) new)

theorem Tidy.drawCrash
    (tidy : s.Tidy)
    (registered : pid < s.nprocs)
    (lifeStarts : Nat) : (s.drawCrash pid lifeStarts).Tidy := by
  obtain ⟨rng, isOver, crashAt, shutdownAt, same, -⟩ :=
    s.drawCrash_eq pid lifeStarts
  rw [same]
  have drawn : (s.drawn rng isOver).Tidy := tidy.of_tables rfl rfl rfl rfl rfl
  have crash := drawn.modifyProc registered (.setCrashAt crashAt) fun _ => rfl
  exact crash.modifyProc registered (.setShutdownAt shutdownAt) fun _ => rfl

theorem Tidy.setFaults
    (tidy : s.Tidy)
    (registered : pid < s.nprocs)
    (faults : Faults)
    (spec : Nat) : (s.setFaults pid faults spec).Tidy := by
  have given : (s.modifyProc pid fun p =>
      { p with faults := faults, spec := some spec }).Tidy :=
    tidy.modifyProc registered _ fun _ => rfl
  exact given.drawCrash registered _

theorem registered_of_possible
    {src : Option (ThreadId × ThreadState × Nat)}
    {site : UInt64}
    (possible : s.Possible (.handOff src site)) :
    ∀ giver ∈ src, giver.1 < s.nthreads := by
  cases src with
  | none => exact fun _ none => nomatch none
  | some giver =>
      rintro _ ⟨⟩
      exact possible.1.2.1

/-- Every operation keeps the tables in order. -/
theorem tidy_of_exec
    (tidy : s.Tidy)
    {op : Op}
    {answer : Answer}
    (possible : s.Possible op)
    (done : s.exec fuel op = some (later, answer)) : later.Tidy := by
  by_cases calm : op.calm = true
  · exact Changes.tidy (changes_of_exec calm possible done) tidy
  by_cases setting : op.setting = true
  · cases tuned_of_exec setting done
    exact tidy.of_tables rfl rfl rfl rfl rfl
  cases op with
  | addProc host parent =>
      obtain ⟨rfl, -⟩ := Prod.mk.inj (Option.some.inj done)
      exact tidy.addProc host possible.2
  | addThread pid =>
      obtain ⟨rfl, -⟩ := Prod.mk.inj (Option.some.inj done)
      exact tidy.addThread possible.2.1
  | setFaults pid faults spec =>
      obtain ⟨rfl, -⟩ := Prod.mk.inj (Option.some.inj done)
      exact tidy.setFaults possible.1.1 faults spec
  | attach pid realPid =>
      obtain ⟨rfl, -⟩ := Prod.mk.inj (Option.some.inj done)
      exact tidy.modifyProc possible.1 _ fun _ => rfl
  | unregister child =>
      obtain ⟨rfl, -⟩ := Prod.mk.inj (Option.some.inj done)
      have gone := tidy.modifyProc possible.1.1
        (fun p => { p with state := .exited, reaped := true }) fun _ => rfl
      exact gone.mapLive fun t => by split <;> rfl
  | setAlarm pid value interval =>
      obtain ⟨rfl, -⟩ := Prod.mk.inj (Option.some.inj done)
      unfold State.setAlarm
      dsimp only
      split
      · exact tidy.modifyProc possible.1 _ fun _ => rfl
      · have noted : (s.noteAdd s.clockNs value).Tidy := tidy.clock _ _
        exact noted.modifyProc possible.1 _ fun _ => rfl
  | reap pid =>
      obtain ⟨rfl, -⟩ := Prod.mk.inj (Option.some.inj done)
      exact tidy.modifyProc possible _ fun _ => rfl
  | setDeadline id deadline =>
      obtain ⟨rfl, -⟩ := Prod.mk.inj (Option.some.inj done)
      exact tidy.modifyThread possible.2.1 fun _ => rfl
  | handOff src site =>
      obtain ⟨⟨middle, handoff⟩, handed, same⟩ := Option.map_eq_some_iff.1 done
      obtain rfl : middle = later := congrArg Prod.fst same
      exact tidy.handOff (registered_of_possible possible) handed
  | choose me site =>
      obtain ⟨⟨middle, handoff⟩, chosen, same⟩ := Option.map_eq_some_iff.1 done
      obtain rfl : middle = later := congrArg Prod.fst same
      exact tidy.choose chosen
  | crash victim =>
      obtain ⟨rfl, -⟩ := Prod.mk.inj (Option.some.inj done)
      exact Deeds.tidy (.single (.crash victim possible.1)) tidy
  | processDied pid status =>
      obtain ⟨⟨middle, handoff⟩, died, same⟩ := Option.map_eq_some_iff.1 done
      obtain rfl : middle = later := congrArg Prod.fst same
      exact tidy.processDied possible died
  | threadKill id sig =>
      obtain ⟨rfl, -⟩ := Prod.mk.inj (Option.some.inj done)
      exact tidy.modifyThread possible.1 fun _ => rfl
  | takeSignals id unmasked =>
      obtain ⟨rfl, -⟩ := Prod.mk.inj (Option.some.inj done)
      have taken := tidy.modifyProc (tidy.owner id possible.2.1)
        (fun p => { p with sigPending := p.sigPending.ldiff unmasked })
        fun _ => rfl
      exact taken.modifyThread possible.2.1 fun _ => rfl
  | condEnqueue id cond =>
      obtain ⟨rfl, -⟩ := Prod.mk.inj (Option.some.inj done)
      have counted : { s with nextCondSeq := s.nextCondSeq + 1 }.Tidy :=
        tidy.of_tables rfl rfl rfl rfl rfl
      unfold State.condEnqueue
      dsimp only
      exact counted.modifyThread possible.1.2.1 fun _ => rfl
  | condWake pid cond all =>
      obtain ⟨rfl, -⟩ := Prod.mk.inj (Option.some.inj done)
      exact tidy.condWakeLoop _ pid cond all
  | noteOutsideWake pid =>
      obtain ⟨rfl, -⟩ := Prod.mk.inj (Option.some.inj done)
      exact tidy.modifyProc possible _ fun _ => rfl
  | clockRead =>
      obtain ⟨rfl, -⟩ := Prod.mk.inj (Option.some.inj done)
      exact Changes.tidy (changes_clockMoved _) (tidy.clock _ _)
  | _ => simp [Op.calm, Op.setting] at calm setting

theorem tidy_initial
    (seed : UInt64)
    (quantumLo quantumHi : Nat)
    (names : List (List UInt8))
    (latencyNs : Nat) :
    (initial seed quantumLo quantumHi names latencyNs).Tidy where
  spareThreads := fun _ _ => rfl
  spareProcs := fun _ _ => .refl _
  owner := fun _ inside => absurd inside (Nat.not_lt_zero _)
  parent := fun _ _ isParent => nomatch isParent
  current := fun _ holds => nomatch holds

/-- The tables are in order in every run. -/
theorem tidy_of_reachable (reachable : schedule.Reachable s) : s.Tidy := by
  refine reachable.invariant ?_ ?_
  · rintro _ ⟨seed, quantumLo, quantumHi, names, latencyNs, rfl⟩
    exact tidy_initial seed quantumLo quantumHi names latencyNs
  · rintro state event later tidy ⟨possible, fuel, done⟩
    exact tidy_of_exec tidy possible done

/-- The states in which a choice may be begun: those of a run, and those in
which the giver of the baton has recorded its state or died. -/
inductive Picking : State → Prop
  | reachable {s : State} : schedule.Reachable s → Picking s
  | handOff {s : State}
      {src : Option (ThreadId × ThreadState × Nat)}
      {site : UInt64} :
      schedule.Reachable s → s.Possible (.handOff src site) →
      Picking (s.recorded src)
  | died {s : State} {pid : Pid} {status : Int} {id : ThreadId} :
      schedule.Reachable s → pid < s.nprocs →
      (s.buried pid status).heldBy pid = some id →
      Picking ((s.buried pid status).recorded (some (id, .exited, 0)))

theorem Picking.tidy (picking : Picking s) : s.Tidy := by
  cases picking with
  | reachable reachable => exact tidy_of_reachable reachable
  | handOff reachable possible =>
      exact (tidy_of_reachable reachable).recorded
        (registered_of_possible possible)
  | died reachable registered held =>
      refine ((tidy_of_reachable reachable).buried registered _).recorded ?_
      rintro _ ⟨⟩
      exact (heldBy_eq_some held).2.1

end State
end Derp

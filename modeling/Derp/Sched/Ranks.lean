import Derp.Sched.Tidy

/-!
# Priorities and waiting times

Under the PCT scheduler a thread has a priority that was drawn when it was
registered, or the number of the change point that demoted it, and the time from
which it was passed over.
-/

namespace Derp
namespace State

variable
  {s middle later : State}
  {pid : Pid}
  {id : ThreadId}
  {fuel : Nat}

/-- Priorities are drawn ones or numbers of change points that were passed, and
no thread was passed over later than now (or than 1, which stands for 0). -/
structure Ranked (s : State) : Prop where
  horizon : s.pctHorizonNs < 2 ^ 64
  points : s.pctChangeAt.length < maxPctDepth
  next : s.pctNext ≤ s.pctChangeAt.length
  priority : s.scheduler = .pct → ∀ id < s.nthreads,
    maxPctDepth < (s.threads id).priority ∨
      0 < (s.threads id).priority ∧ (s.threads id).priority ≤ s.pctNext
  waitingSince : s.overflow = false → ∀ id,
    (s.threads id).waitingSince ≤ max 1 s.clockNs

/-- Priorities and waiting times are left alone, and the clock goes on. -/
structure Unranked (s later : State) : Prop where
  scheduler : later.scheduler = s.scheduler
  horizon : later.pctHorizonNs = s.pctHorizonNs
  points : later.pctChangeAt = s.pctChangeAt
  next : later.pctNext = s.pctNext
  nthreads : later.nthreads = s.nthreads
  priority : ∀ id, (later.threads id).priority = (s.threads id).priority
  waitingSince : ∀ id,
    (later.threads id).waitingSince = (s.threads id).waitingSince
  overflow : s.overflow = true → later.overflow = true
  clock : later.overflow = false → s.clockNs ≤ later.clockNs

theorem Unranked.refl (s : State) : Unranked s s :=
  ⟨rfl, rfl, rfl, rfl, rfl, fun _ => rfl, fun _ => rfl, fun isOver => isOver,
    fun _ => le_rfl⟩

theorem Unranked.fits
    (unranked : Unranked s later)
    (fits : later.overflow = false) : s.overflow = false := by
  by_contra isOver
  rw [Bool.not_eq_false] at isOver
  rw [unranked.overflow isOver] at fits
  cases fits

theorem Unranked.trans
    (first : Unranked s middle)
    (second : Unranked middle later) : Unranked s later where
  scheduler := second.scheduler.trans first.scheduler
  horizon := second.horizon.trans first.horizon
  points := second.points.trans first.points
  next := second.next.trans first.next
  nthreads := second.nthreads.trans first.nthreads
  priority := fun id => (second.priority id).trans (first.priority id)
  waitingSince := fun id =>
    (second.waitingSince id).trans (first.waitingSince id)
  overflow := fun isOver => second.overflow (first.overflow isOver)
  clock := fun fits =>
    (first.clock (second.fits fits)).trans (second.clock fits)

theorem Ranked.of_unranked
    (ranked : s.Ranked)
    (unranked : Unranked s later) : later.Ranked where
  horizon := unranked.horizon ▸ ranked.horizon
  points := unranked.points ▸ ranked.points
  next := by
    rw [unranked.next, unranked.points]
    exact ranked.next
  priority := fun isPct id inside => by
    rw [unranked.scheduler] at isPct
    rw [unranked.nthreads] at inside
    rw [unranked.priority, unranked.next]
    exact ranked.priority isPct id inside
  waitingSince := fun fits id => by
    rw [unranked.waitingSince]
    have before := ranked.waitingSince (unranked.fits fits) id
    exact before.trans (max_le_max_left 1 (unranked.clock fits))

/-- What else is in the state does not matter. -/
theorem unranked_of_eq
    (scheduler : later.scheduler = s.scheduler)
    (horizon : later.pctHorizonNs = s.pctHorizonNs)
    (points : later.pctChangeAt = s.pctChangeAt)
    (next : later.pctNext = s.pctNext)
    (nthreads : later.nthreads = s.nthreads)
    (overflow : later.overflow = s.overflow)
    (clock : later.clockNs = s.clockNs)
    (threads : ∀ id, (later.threads id).priority = (s.threads id).priority ∧
      (later.threads id).waitingSince = (s.threads id).waitingSince) :
    Unranked s later :=
  ⟨scheduler, horizon, points, next, nthreads, fun id => (threads id).1,
    fun id => (threads id).2, fun isOver => overflow ▸ isOver, fun _ => clock.ge⟩

theorem unranked_modifyThread
    (s : State)
    (id : ThreadId)
    {change : ThreadRec → ThreadRec}
    (kept : ∀ t, (change t).priority = t.priority ∧
      (change t).waitingSince = t.waitingSince) :
    Unranked s (s.modifyThread id change) := by
  refine unranked_of_eq rfl rfl rfl rfl rfl rfl rfl fun other => ?_
  unfold modifyThread
  dsimp only
  by_cases same : other = id
  · subst same
    rw [Function.update_self]
    exact kept _
  · rw [Function.update_of_ne same]
    exact ⟨rfl, rfl⟩

theorem unranked_mapLive
    (s : State)
    {change : ThreadRec → ThreadRec}
    (kept : ∀ t, (change t).priority = t.priority ∧
      (change t).waitingSince = t.waitingSince) :
    Unranked s (s.mapLive change) := by
  refine unranked_of_eq rfl rfl rfl rfl rfl rfl rfl fun id => ?_
  unfold mapLive
  dsimp only
  split
  · exact kept _
  · exact ⟨rfl, rfl⟩

theorem unranked_procs
    (s : State)
    (procs : Pid → ProcRec) : Unranked s { s with procs := procs } :=
  unranked_of_eq rfl rfl rfl rfl rfl rfl rfl fun _ => ⟨rfl, rfl⟩

theorem unranked_modifyProc
    (s : State)
    (pid : Pid)
    (change : ProcRec → ProcRec) : Unranked s (s.modifyProc pid change) :=
  unranked_procs s _

/-! ## Deeds -/

theorem Woken.unranked
    {t t' : ThreadRec}
    (woken : s.Woken t t') :
    t'.priority = t.priority ∧ t'.waitingSince = t.waitingSince := by
  cases woken <;> exact ⟨rfl, rfl⟩

theorem wake_unranked (t : ThreadRec) :
    t.wake.priority = t.priority ∧ t.wake.waitingSince = t.waitingSince := by
  unfold ThreadRec.wake
  split <;> exact ⟨rfl, rfl⟩

theorem unranked_fireAlarm
    {due : Nat}
    (pending : (s.procs pid).pendingAlarm = some due)
    (reached : due ≤ s.clockNs) : Unranked s (s.fireAlarm pid) := by
  obtain ⟨isOver, again, same, grows, -⟩ := s.rearm_eq pid
  have noted : Unranked s { s with overflow := isOver } :=
    ⟨rfl, rfl, rfl, rfl, rfl, fun _ => rfl, fun _ => rfl, grows,
      fun _ => le_rfl⟩
  rw [fireAlarm_due pending reached, same]
  have rearmed := noted.trans (unranked_modifyProc _ pid (.setAlarmAt again))
  have signalled := rearmed.trans
    (unranked_modifyProc _ pid (.addSignal sigalrm))
  unfold wakeFirst
  split
  · exact signalled.trans (unranked_modifyThread _ _ fun _ => ⟨rfl, rfl⟩)
  · exact signalled

theorem Change.unranked (change : Change s later) : Unranked s later := by
  cases change with
  | count _ _ _ _ _ _ grows =>
      exact ⟨rfl, rfl, rfl, rfl, rfl, fun _ => rfl, fun _ => rfl, grows,
        fun _ => le_rfl⟩
  | wake woken =>
      exact unranked_of_eq rfl rfl rfl rfl rfl rfl rfl
        fun id => (woken id).unranked
  | noise => exact unranked_procs s _
  | net =>
      exact unranked_of_eq rfl rfl rfl rfl rfl rfl rfl fun _ => ⟨rfl, rfl⟩
  | signal pid sig =>
      refine (unranked_modifyProc s pid (.addSignal sig)).trans
        (unranked_mapLive _ fun t => ?_)
      split
      · exact wake_unranked t
      · exact ⟨rfl, rfl⟩
  | alarm pid _ pending reached => exact unranked_fireAlarm pending reached
  | stop =>
      refine unranked_of_eq rfl rfl rfl rfl rfl rfl rfl fun id => ?_
      obtain same | ⟨same, -⟩ := s.stopRun_thread id <;> rw [same] <;>
        exact ⟨rfl, rfl⟩
  | grace pid =>
      exact (unranked_modifyProc s pid .useUpShutdown).trans
        (unranked_modifyProc _ pid _)

theorem unranked_killed (s : State) (pid : Pid) :
    Unranked s (s.killed pid) := by
  have retired : Unranked s (s.retireThreads pid) :=
    unranked_mapLive s fun t => by split <;> exact ⟨rfl, rfl⟩
  exact retired.trans (unranked_modifyProc _ pid _)

/-- The main thread of a new life is ranked like any other. -/
theorem Ranked.newLife
    (ranked : s.Ranked)
    (tidy : s.Tidy)
    (registered : pid < s.nprocs) : (s.newLife pid).Ranked := by
  obtain ⟨rng, isOver, starts, priority, crashAt, shutdownAt, pctRng, same, grows,
    high, -⟩ := newLife_eq registered
  rw [same]
  refine ⟨ranked.horizon, ranked.points, ranked.next, fun isPct id inside => ?_,
    fun fits id => ?_⟩
  · have before : id < s.nthreads + 1 := inside
    rw [born_threads]
    split
    · exact .inl (high isPct)
    · next old =>
        exact ranked.priority isPct id
          (lt_of_le_of_ne (Nat.lt_succ_iff.1 before) old)
  · have fitted : s.overflow = false := by
      by_contra was
      rw [Bool.not_eq_false] at was
      have fitting : isOver = false := fits
      rw [grows was] at fitting
      cases fitting
    rw [born_threads]
    split
    · unfold waiting
      rw [tidy.spareThreads s.nthreads le_rfl]
      exact Nat.zero_le _
    · exact ranked.waitingSince fitted id

theorem Changes.unranked (changes : Changes s later) : Unranked s later :=
  Changes.keep (P := Unranked s)
    (fun change unranked => unranked.trans change.unranked) changes (.refl s)

theorem Deeds.ranked
    (deeds : Deeds s later)
    (tidy : s.Tidy)
    (ranked : s.Ranked) : later.Ranked := by
  have both := Deeds.keep (P := fun s => s.Tidy ∧ s.Ranked)
    (fun change both => ⟨change.tidy both.1, both.2.of_unranked change.unranked⟩)
    (fun alive both =>
      ⟨both.1.killed alive.1, both.2.of_unranked (unranked_killed _ _)⟩)
    (fun registered _ _ both =>
      ⟨(both.1.useUpCrash registered).killed registered,
        both.2.of_unranked
          ((unranked_modifyProc _ _ .useUpCrash).trans (unranked_killed _ _))⟩)
    (fun restarts both =>
      ⟨both.1.newLife restarts.registered,
        both.2.newLife both.1 restarts.registered⟩)
    deeds ⟨tidy, ranked⟩
  exact both.2

theorem Passages.ranked
    (passages : Passages s later)
    (tidy : s.Tidy)
    (ranked : s.Ranked) : later.Ranked := by
  induction passages with
  | refl => exact ranked
  | tail first passage inductionHypothesis =>
      cases passage with
      | deed deed =>
          exact Deeds.ranked (.single deed) (Passages.tidy first tidy)
            inductionHypothesis
      | jump _ _ _ same =>
          exact inductionHypothesis.of_unranked
            ⟨rfl, rfl, rfl, rfl, rfl, fun _ => rfl, fun _ => rfl,
              fun isOver => isOver, fun _ => same ▸ le_max_left _ _⟩
      | reseed =>
          exact inductionHypothesis.of_unranked (unranked_of_eq rfl rfl rfl rfl
            rfl rfl rfl fun _ => ⟨rfl, rfl⟩)

/-! ## Choices -/

/-- Streams, counters and pauses do not matter. -/
theorem unranked_drawPause (s : State) : Unranked s s.drawPause.1 := by
  unfold drawPause
  split
  · exact .refl s
  · exact unranked_of_eq rfl rfl rfl rfl rfl rfl rfl fun _ => ⟨rfl, rfl⟩

theorem unranked_pause (s : State) (chosen : ThreadId) :
    Unranked s (s.pause chosen) := by
  have drawn (pauseRng : Rng) (isOver : Bool) :
      Unranked s
        { s with pauseRng := pauseRng, overflow := s.overflow || isOver } :=
    ⟨rfl, rfl, rfl, rfl, rfl, fun _ => rfl, fun _ => rfl,
      fun was => by rw [was]; rfl, fun _ => le_rfl⟩
  have counted (s : State) (pauses : Nat) (traceHash : UInt64) :
      Unranked s { s with pauses := pauses, traceHash := traceHash } :=
    unranked_of_eq rfl rfl rfl rfl rfl rfl rfl fun _ => ⟨rfl, rfl⟩
  unfold pause
  dsimp only
  refine ((drawn _ _).trans (unranked_modifyThread _ chosen ?_)).trans
    (counted _ _ _)
  exact fun _ => ⟨rfl, rfl⟩

theorem Ranked.passPoint
    (ranked : s.Ranked)
    {due : Nat}
    (ahead : s.pctChangeAt[s.pctNext]? = some due) : s.passPoint.Ranked := by
  obtain ⟨inside, -⟩ := List.getElem?_eq_some_iff.1 ahead
  have passed : { s with pctNext := s.pctNext + 1 }.Ranked := by
    refine ⟨ranked.horizon, ranked.points, inside, fun isPct id registered => ?_,
      ranked.waitingSince⟩
    obtain drawn | ⟨positive, earlier⟩ := ranked.priority isPct id registered
    · exact .inl drawn
    · exact .inr ⟨positive, Nat.le_succ_of_le earlier⟩
  unfold State.passPoint
  dsimp only
  split
  · next holder _ =>
      split
      · refine ⟨passed.horizon, passed.points, passed.next,
          fun isPct id registered => ?_, fun fits id => ?_⟩
        · unfold modifyThread
          dsimp only
          by_cases same : id = holder
          · subst same
            rw [Function.update_self]
            exact .inr ⟨Nat.succ_pos _, le_rfl⟩
          · rw [Function.update_of_ne same]
            exact passed.priority isPct id registered
        · unfold modifyThread
          dsimp only
          by_cases same : id = holder
          · subst same
            rw [Function.update_self]
            exact passed.waitingSince fits _
          · rw [Function.update_of_ne same]
            exact passed.waitingSince fits id
      · exact passed
  · exact passed

theorem Ranked.pctChangePoints (ranked : s.Ranked) :
    s.pctChangePoints.Ranked := by
  have passes (points : Nat) {s : State} (ranked : s.Ranked) :
      (passPoints points s).Ranked := by
    induction points generalizing s with
    | zero => exact ranked
    | succ points inductionHypothesis =>
        unfold passPoints
        split
        · next due ahead =>
            split
            · exact inductionHypothesis (ranked.passPoint ahead)
            · exact ranked
        · exact ranked
  exact passes _ ranked

theorem Ranked.passOver
    (ranked : s.Ranked)
    (chosen : ThreadId) : (s.passOver chosen).Ranked := by
  have priority (id : ThreadId) : ((s.passOver chosen).threads id).priority =
      (s.threads id).priority := by
    unfold State.passOver
    dsimp only
    split
    · rfl
    split
    · rfl
    split <;> rfl
  refine ⟨ranked.horizon, ranked.points, ranked.next,
    fun isPct id registered => ?_, fun fits id => ?_⟩
  · rw [priority]
    exact ranked.priority isPct id registered
  · have before := ranked.waitingSince fits id
    unfold State.passOver
    dsimp only
    split
    · exact before
    split
    · exact Nat.zero_le _
    split
    · exact le_rfl
    · exact before

theorem Ranked.chooseCandidate
    (ranked : s.Ranked)
    (honourPauses : Bool)
    (count : Nat) : (s.chooseCandidate honourPauses count).1.Ranked := by
  unfold State.chooseCandidate
  split
  · exact ranked.of_unranked
      (unranked_of_eq rfl rfl rfl rfl rfl rfl rfl fun _ => ⟨rfl, rfl⟩)
  split
  · next chosen _ =>
      have starved : { s with pctStarved := s.pctStarved + 1 }.Ranked :=
        ranked.of_unranked
          (unranked_of_eq rfl rfl rfl rfl rfl rfl rfl fun _ => ⟨rfl, rfl⟩)
      exact starved.passOver chosen
  · exact ranked.passOver _

theorem Ranked.chooseThread (ranked : s.Ranked) : s.chooseThread.1.Ranked := by
  have points := ranked.pctChangePoints
  unfold State.chooseThread
  dsimp only
  split
  · exact points.chooseCandidate _ _
  have first := points.chooseCandidate true (s.candidates true).length
  generalize s.pctChangePoints.chooseCandidate true (s.candidates true).length
    = result at first ⊢
  obtain ⟨middle, chosen⟩ := result
  dsimp only at first ⊢
  split
  · exact first
  have drawn := first.of_unranked (unranked_drawPause middle)
  generalize middle.drawPause = result at drawn ⊢
  obtain ⟨later, paused⟩ := result
  cases paused with
  | false => exact drawn
  | true =>
      exact (drawn.of_unranked (unranked_pause later chosen)).chooseCandidate _ _

theorem unranked_giveBaton
    (s : State)
    (me : Option ThreadId)
    (next : ThreadId)
    (site : UInt64) : Unranked s (s.giveBaton me next site).1 := by
  obtain ⟨_, _, _, _, _, park, same⟩ := s.giveBaton_eq me next site
  rw [same]
  refine unranked_of_eq rfl rfl rfl rfl rfl rfl rfl fun id => ?_
  by_cases isNext : id = next
  · subst isNext
    dsimp only
    rw [Function.update_self]
    exact ⟨rfl, rfl⟩
  · dsimp only
    rw [Function.update_of_ne isNext]
    exact ⟨rfl, rfl⟩

theorem Ranked.choose
    (ranked : s.Ranked)
    (tidy : s.Tidy)
    {me : Option ThreadId}
    {site : UInt64}
    {handoff : Handoff}
    (chosen : s.choose fuel me site = some (later, handoff)) : later.Ranked := by
  obtain ⟨middle, ⟨chooses, given⟩ | ⟨chooses, rfl, -⟩⟩ :=
    choose_eq_some_iff.1 chosen
  · obtain rfl := congrArg Prod.fst given
    have picked := (chooses.passages.1.ranked tidy ranked).chooseThread
    exact picked.of_unranked (unranked_giveBaton _ me _ site)
  · exact chooses.passages.1.ranked tidy ranked

/-! ## Operations -/

/-- The clock moves by a sum that is noted. -/
theorem unranked_addClock (s : State) (ns : Nat) :
    Unranked s ((s.noteAdd s.clockNs ns).setClock (wrappingAdd s.clockNs ns)) := by
  refine ⟨rfl, rfl, rfl, rfl, rfl, fun _ => rfl, fun _ => rfl, ?_, ?_⟩
  · intro was
    unfold setClock noteAdd
    dsimp only
    rw [was]
    rfl
  · intro fits
    unfold setClock noteAdd at fits ⊢
    dsimp only at fits ⊢
    rw [Bool.or_eq_false_iff] at fits
    rw [addOverflows_false fits.2]
    exact Nat.le_add_right _ _

theorem unranked_noteAdd (s : State) (a b : Nat) : Unranked s (s.noteAdd a b) :=
  ⟨rfl, rfl, rfl, rfl, rfl, fun _ => rfl, fun _ => rfl,
    fun was => by unfold noteAdd; rw [was]; rfl, fun _ => le_rfl⟩

theorem unranked_recorded
    (s : State)
    (src : Option (ThreadId × ThreadState × Nat)) :
    Unranked s (s.recorded src) := by
  cases src with
  | none => exact .refl s
  | some giver =>
      obtain ⟨id, state, key⟩ := giver
      have written : Unranked s (s.modifyThread id fun t =>
          { t with state := state, key := key }) :=
        unranked_modifyThread s id fun _ => ⟨rfl, rfl⟩
      exact written.trans (unranked_addClock _ _)

theorem unranked_condWakeLoop
    (rounds : Nat)
    (s : State)
    (pid : Pid)
    (cond : Nat)
    (all : Bool) : Unranked s (condWakeLoop rounds s pid cond all) := by
  induction rounds generalizing s with
  | zero => exact .refl s
  | succ rounds inductionHypothesis =>
      unfold condWakeLoop
      split
      · exact .refl s
      · next id _ =>
          have marked : Unranked s (s.modifyThread id fun t =>
              { t with condKey := 0, signaled := true }) :=
            unranked_modifyThread s id fun _ => ⟨rfl, rfl⟩
          have signalled : Unranked s (s.condSignal id) :=
            marked.trans (unranked_modifyThread _ id wake_unranked)
          dsimp only
          split
          · exact signalled.trans (inductionHypothesis _)
          · exact signalled

theorem unranked_drawCrash (s : State) (pid : Pid) (lifeStarts : Nat) :
    Unranked s (s.drawCrash pid lifeStarts) := by
  obtain ⟨rng, isOver, crashAt, shutdownAt, same, grows, -⟩ :=
    s.drawCrash_eq pid lifeStarts
  rw [same]
  have drawn : Unranked s (s.drawn rng isOver) :=
    ⟨rfl, rfl, rfl, rfl, rfl, fun _ => rfl, fun _ => rfl, grows,
      fun _ => le_rfl⟩
  exact (drawn.trans (unranked_modifyProc _ pid (.setCrashAt crashAt))).trans
    (unranked_modifyProc _ pid (.setShutdownAt shutdownAt))

theorem Ranked.addThread
    (ranked : s.Ranked)
    (tidy : s.Tidy)
    (pid : Pid) : (s.addThread pid).1.Ranked := by
  obtain ⟨pctRng, priority, drawn, high⟩ :=
    { s with nthreads := s.nthreads + 1 }.drawPriority_eq
  unfold State.addThread
  dsimp only
  rw [drawn]
  refine ⟨ranked.horizon, ranked.points, ranked.next,
    fun isPct id inside => ?_, fun fits id => ?_⟩
  · have before : id < s.nthreads + 1 := inside
    unfold modifyThread
    dsimp only
    by_cases new : id = s.nthreads
    · subst new
      rw [Function.update_self]
      exact .inl (high isPct)
    · rw [Function.update_of_ne new]
      exact ranked.priority isPct id
        (lt_of_le_of_ne (Nat.lt_succ_iff.1 before) new)
  · unfold modifyThread
    dsimp only
    by_cases new : id = s.nthreads
    · subst new
      rw [Function.update_self, tidy.spareThreads s.nthreads le_rfl]
      exact Nat.zero_le _
    · rw [Function.update_of_ne new]
      exact ranked.waitingSince fits id

theorem Ranked.buried
    (ranked : s.Ranked)
    (tidy : s.Tidy)
    (registered : pid < s.nprocs)
    (status : Int) : (s.buried pid status).Ranked := by
  have noted : (s.noteExit pid status).Ranked :=
    ranked.of_unranked (unranked_modifyProc s pid _)
  have mourned : (if ((s.noteExit pid status).procs pid).killed then
      s.noteExit pid status else (s.noteExit pid status).mourn pid status).Ranked := by
    split
    · exact noted
    · rw [mourn_eq]
      have restarted :
          ((s.noteExit pid status).registerRestart pid status).Ranked := by
        have dead := dead_noteExit registered status
        obtain ⟨-, same⟩ | ⟨-, same⟩ :=
          registerRestart_cases dead.1 dead.2 status
        · rw [same]
          have noteTidy : (s.noteExit pid status).Tidy :=
            tidy.modifyProc registered _ fun _ => rfl
          exact noted.newLife noteTidy dead.1
        · rw [same]
          exact noted
      exact (restarted.of_unranked (unranked_modifyProc _ pid _)).of_unranked
        (Changes.unranked (changes_closeDown _ pid))
  rw [buried_eq]
  exact mourned.of_unranked
    (unranked_mapLive _ fun t => by split <;> exact ⟨rfl, rfl⟩)

theorem Ranked.processDied
    (ranked : s.Ranked)
    (tidy : s.Tidy)
    (registered : pid < s.nprocs)
    {status : Int}
    {handoff : Option Handoff}
    (died : s.processDied fuel pid status = some (later, handoff)) :
    later.Ranked := by
  have buried := ranked.buried tidy registered status
  obtain ⟨-, rfl, -⟩ | ⟨id, passed, held, handed, -⟩ :=
    processDied_eq_some_iff.1 died
  · exact buried
  · refine (buried.of_unranked (unranked_recorded _ _)).choose ?_ handed
    refine (tidy.buried registered status).recorded ?_
    rintro _ ⟨⟩
    exact (heldBy_eq_some held).2.1

theorem Ranked.setScheduler
    (ranked : s.Ranked)
    {sched : Scheduler}
    (none : s.nthreads = 0)
    (horizon : sched.pctHorizonNs < 2 ^ 64) : (s.setScheduler sched).Ranked := by
  have noThread (id : ThreadId) (inside : id < s.nthreads) : False := by
    rw [none] at inside
    exact Nat.not_lt_zero id inside
  unfold State.setScheduler
  dsimp only
  split
  · next isRandom =>
      refine ⟨ranked.horizon, ranked.points, ranked.next, fun isPct => ?_,
        ranked.waitingSince⟩
      have isPct : sched.kind = .pct := isPct
      rw [isRandom] at isPct
      cases isPct
  · have drawn (draw : List Nat × Rng → List Nat × Rng)
        (longer : ∀ state, (draw state).1.length = state.1.length + 1)
        (rounds : Nat)
        (rng : Rng) : (draw^[rounds] ([], rng)).1.length = rounds := by
      induction rounds with
      | zero => rfl
      | succ rounds inductionHypothesis =>
          rw [Function.iterate_succ_apply', longer, inductionHypothesis]
    refine ⟨?_, ?_, Nat.zero_le _, fun _ id inside => (noThread id inside).elim,
      ranked.waitingSince⟩
    · exact max_lt (by decide) horizon
    · dsimp only
      rw [List.length_mergeSort, drawn]
      · unfold maxPctDepth
        omega
      · intro state
        exact List.length_append

/-- No thread is born, chosen or passed over in the operation, and the scheduler
stays as it is. -/
def Op.unranked : Op → Bool
  | .setScheduler _ | .addThread _ | .handOff _ _ | .choose _ _ | .crash _ => false
  | .processDied _ _ => false
  | _ => true

theorem unranked_of_exec
    {op : Op}
    {answer : Answer}
    (plain : op.unranked = true)
    (possible : s.Possible op)
    (done : s.exec fuel op = some (later, answer)) : Unranked s later := by
  by_cases calm : op.calm = true
  · exact Changes.unranked (changes_of_exec calm possible done)
  cases op with
  | setScheduler | addThread | handOff | choose | crash | processDied => cases plain
  | setPauses | setSwitchCost | setStopAt | stopNow | setReseed | renewQuantum | addProc =>
      obtain ⟨rfl, -⟩ := Prod.mk.inj (Option.some.inj done)
      exact unranked_of_eq rfl rfl rfl rfl rfl rfl rfl fun _ => ⟨rfl, rfl⟩
  | setFaults pid faults spec =>
      obtain ⟨rfl, -⟩ := Prod.mk.inj (Option.some.inj done)
      exact (unranked_modifyProc s pid _).trans (unranked_drawCrash _ pid _)
  | attach pid realPid =>
      obtain ⟨rfl, -⟩ := Prod.mk.inj (Option.some.inj done)
      exact unranked_modifyProc s pid _
  | unregister child =>
      obtain ⟨rfl, -⟩ := Prod.mk.inj (Option.some.inj done)
      exact (unranked_modifyProc s child _).trans
        (unranked_mapLive _ fun t => by split <;> exact ⟨rfl, rfl⟩)
  | setAlarm pid value interval =>
      obtain ⟨rfl, -⟩ := Prod.mk.inj (Option.some.inj done)
      unfold State.setAlarm
      dsimp only
      split
      · exact unranked_modifyProc s pid _
      · exact (unranked_noteAdd s _ _).trans (unranked_modifyProc _ pid _)
  | reap pid =>
      obtain ⟨rfl, -⟩ := Prod.mk.inj (Option.some.inj done)
      exact unranked_modifyProc s pid _
  | setDeadline id deadline =>
      obtain ⟨rfl, -⟩ := Prod.mk.inj (Option.some.inj done)
      exact unranked_modifyThread s id fun _ => ⟨rfl, rfl⟩
  | threadKill id sig =>
      obtain ⟨rfl, -⟩ := Prod.mk.inj (Option.some.inj done)
      exact unranked_modifyThread s id fun _ => ⟨rfl, rfl⟩
  | takeSignals id unmasked =>
      obtain ⟨rfl, -⟩ := Prod.mk.inj (Option.some.inj done)
      exact (unranked_modifyProc s _ _).trans
        (unranked_modifyThread _ id fun _ => ⟨rfl, rfl⟩)
  | condEnqueue id cond =>
      obtain ⟨rfl, -⟩ := Prod.mk.inj (Option.some.inj done)
      have counted : Unranked s { s with nextCondSeq := s.nextCondSeq + 1 } :=
        unranked_of_eq rfl rfl rfl rfl rfl rfl rfl fun _ => ⟨rfl, rfl⟩
      refine counted.trans ?_
      unfold State.condEnqueue
      exact unranked_modifyThread _ id fun _ => ⟨rfl, rfl⟩
  | condWake pid cond all =>
      obtain ⟨rfl, -⟩ := Prod.mk.inj (Option.some.inj done)
      exact unranked_condWakeLoop _ s pid cond all
  | noteOutsideWake pid =>
      obtain ⟨rfl, -⟩ := Prod.mk.inj (Option.some.inj done)
      exact unranked_modifyProc s pid _
  | clockRead =>
      obtain ⟨rfl, -⟩ := Prod.mk.inj (Option.some.inj done)
      exact (unranked_addClock s perReadNs).trans
        (Changes.unranked (changes_clockMoved _))
  | _ => simp [Op.calm] at calm

/-- Every operation keeps the ranks. -/
theorem ranked_of_exec
    (tidy : s.Tidy)
    (ranked : s.Ranked)
    {op : Op}
    {answer : Answer}
    (possible : s.Possible op)
    (done : s.exec fuel op = some (later, answer)) : later.Ranked := by
  by_cases plain : op.unranked = true
  · exact ranked.of_unranked (unranked_of_exec plain possible done)
  cases op with
  | setScheduler sched =>
      obtain ⟨rfl, -⟩ := Prod.mk.inj (Option.some.inj done)
      exact ranked.setScheduler possible.1 possible.2
  | addThread pid =>
      obtain ⟨rfl, -⟩ := Prod.mk.inj (Option.some.inj done)
      exact ranked.addThread tidy pid
  | handOff src site =>
      obtain ⟨⟨middle, handoff⟩, handed, same⟩ := Option.map_eq_some_iff.1 done
      obtain rfl : middle = later := congrArg Prod.fst same
      exact (ranked.of_unranked (unranked_recorded s src)).choose
        (tidy.recorded (registered_of_possible possible)) handed
  | choose me site =>
      obtain ⟨⟨middle, handoff⟩, chosen, same⟩ := Option.map_eq_some_iff.1 done
      obtain rfl : middle = later := congrArg Prod.fst same
      exact ranked.choose tidy chosen
  | crash victim =>
      obtain ⟨rfl, -⟩ := Prod.mk.inj (Option.some.inj done)
      exact Deeds.ranked (.single (.crash victim possible.1)) tidy ranked
  | processDied pid status =>
      obtain ⟨⟨middle, handoff⟩, died, same⟩ := Option.map_eq_some_iff.1 done
      obtain rfl : middle = later := congrArg Prod.fst same
      exact ranked.processDied tidy possible died
  | _ => simp [Op.unranked] at plain

theorem ranked_initial
    (seed : UInt64)
    (quantumLo quantumHi : Nat)
    (names : List (List UInt8))
    (latencyNs : Nat) :
    (initial seed quantumLo quantumHi names latencyNs).Ranked where
  horizon := Nat.two_pow_pos 64
  points := Nat.zero_lt_succ _
  next := le_rfl
  priority := fun isPct => nomatch isPct
  waitingSince := fun _ _ => Nat.zero_le _

/-- The ranks are in order in every run. -/
theorem ranked_of_reachable (reachable : schedule.Reachable s) : s.Ranked := by
  refine reachable.invariantOf (fun _ => tidy_of_reachable) ?_ ?_
  · rintro _ ⟨seed, quantumLo, quantumHi, names, latencyNs, rfl⟩
    exact ranked_initial seed quantumLo quantumHi names latencyNs
  · rintro state event later tidy ranked ⟨possible, fuel, done⟩
    exact ranked_of_exec tidy ranked possible done

theorem Picking.ranked (picking : Picking s) : s.Ranked := by
  cases picking with
  | reachable reachable => exact ranked_of_reachable reachable
  | handOff reachable possible =>
      exact (ranked_of_reachable reachable).of_unranked (unranked_recorded _ _)
  | died reachable registered held =>
      exact ((ranked_of_reachable reachable).buried
        (tidy_of_reachable reachable) registered _).of_unranked
          (unranked_recorded _ _)

end State
end Derp

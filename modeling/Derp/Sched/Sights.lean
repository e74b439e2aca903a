import Derp.Sched.Alike
import Derp.Sched.Pct

/-!
# Choices in states that look the same

What is due at a point of the schedule, and the choice of the next holder of the
baton, are the same in states that differ in the faults that are ahead, or in
the pauses of a run that makes none: neither veil hides anything that a choice
looks at.
-/

namespace Derp
namespace State

variable
  {v : Veil}
  {s t s' t' : State}
  {pid : Pid}
  {id : ThreadId}
  {fuel fuel' : Nat}

/-! ## What is due -/

/-- Nothing of a thread is hidden by these veils. -/
theorem veil_thread
    (seen : v ≠ .seeds)
    (t : ThreadRec) : t.veil v = t := by
  unfold ThreadRec.veil
  simp only [seen, false_and, if_false]

theorem Same.threads
    (same : Same v s t)
    (seen : v ≠ .seeds) : s.threads = t.threads := by
  funext id
  rw [← veil_thread seen (s.threads id), same.thread, veil_thread seen]

theorem Same.pendingStop (same : Same v s t) :
    s.pendingStop = t.pendingStop :=
  same.seen State.pendingStop fun _ => rfl

/-- The threads of the processes that were told to stop are released. -/
theorem Same.release
    (same : Same v s t)
    (seen : v ≠ .seeds) :
    Same v
      (s.mapLive fun t =>
        if t.state ≠ .exited ∧ (s.procs t.pid).stopped then t.setState .runnable
        else t)
      (t.mapLive fun t' =>
        if t'.state ≠ .exited ∧ (t.procs t'.pid).stopped then
          t'.setState .runnable
        else t') := by
  have told : (fun pid => (s.procs pid).stopped) =
      fun pid => (t.procs pid).stopped :=
    funext fun pid => same.procSeen pid ProcRec.stopped fun _ => rfl
  have toldOf (pid : Pid) := congrFun told pid
  simp only [toldOf]
  refine same.mapLive fun t => ?_
  rw [veil_thread seen, veil_thread seen]

theorem Same.stopRun
    (same : Same v s t)
    (seen : v ≠ .seeds) : Same v s.stopRun t.stopRun := by
  have ended := same.change (fun s => { s with stopped := true }) fun _ => rfl
  unfold State.stopRun
  refine Same.release (ended.mapProcs fun p => ?_) seen
  have alive : (p.veil v).alive = p.alive := rfl
  rw [alive]
  split <;> rfl

theorem Same.stopIfDue
    (same : Same v s t)
    (seen : v ≠ .seeds) : Same v s.stopIfDue t.stopIfDue := by
  unfold State.stopIfDue
  rw [same.pendingStop, same.clockNs]
  split
  · split
    · exact same.stopRun seen
    · exact same
  · exact same

theorem Same.expireDeadlines
    (same : Same v s t)
    (seen : v ≠ .seeds) : Same v s.expireDeadlines t.expireDeadlines := by
  unfold State.expireDeadlines
  rw [same.clockNs]
  refine same.mapLive fun t => ?_
  rw [veil_thread seen, veil_thread seen]

theorem Same.rearm
    (same : Same v s t)
    (pid : Pid) : Same v (s.rearm pid) (t.rearm pid) := by
  have interval := same.procSeen pid ProcRec.alarmInterval fun _ => rfl
  unfold State.rearm
  dsimp only
  rw [interval, same.clockNs]
  split
  · exact same.changeProc pid (.setAlarmAt 0) fun _ => rfl
  · exact (same.noteAdd _ _).changeProc pid (.setAlarmAt _) fun _ => rfl

theorem Same.wakeFirst
    (same : Same v s t)
    (pid : Pid) : Same v (s.wakeFirst pid) (t.wakeFirst pid) := by
  have blocked : (fun id => decide ((s.threads id).pid = pid) &&
      decide ((s.threads id).state = .blocked)) =
        fun id => decide ((t.threads id).pid = pid) &&
          decide ((t.threads id).state = .blocked) :=
    funext fun id => same.threadSeen id (fun t => decide (t.pid = pid) &&
      decide (t.state = .blocked)) fun _ => rfl
  unfold State.wakeFirst
  rw [blocked, same.live]
  split
  · exact same.changeThread _ (.setState .runnable) fun _ => rfl
  · exact same

theorem Same.fireAlarm
    (same : Same v s t)
    (pid : Pid) : Same v (s.fireAlarm pid) (t.fireAlarm pid) := by
  have pending := same.procSeen pid ProcRec.pendingAlarm fun _ => rfl
  unfold State.fireAlarm
  rw [pending, same.clockNs]
  split
  · split
    · exact same
    · exact ((same.rearm pid).changeProc pid (.addSignal sigalrm)
        fun _ => rfl).wakeFirst pid
  · exact same

/-- What one process after the other goes through. -/
theorem Same.foldl
    {handle : State → Pid → State}
    (handled : ∀ {s t : State} pid, Same v s t →
      Same v (handle s pid) (handle t pid))
    (same : Same v s t)
    (pids : List Pid) : Same v (pids.foldl handle s) (pids.foldl handle t) := by
  induction pids generalizing s t with
  | nil => exact same
  | cons pid pids inductionHypothesis =>
      exact inductionHypothesis (handled pid same)

theorem Same.fireAlarms (same : Same v s t) :
    Same v s.fireAlarms t.fireAlarms := by
  unfold State.fireAlarms
  rw [same.pids]
  exact same.foldl (fun pid same => same.fireAlarm pid) t.pids

/-! ## Who can run -/

theorem Same.candidates
    (same : Same v s t)
    (honourPauses : Bool) :
    s.candidates honourPauses = t.candidates honourPauses := by
  have candidate : (fun id => (s.threads id).candidate honourPauses s.clockNs) =
      fun id => (t.threads id).candidate honourPauses t.clockNs := by
    funext id
    rw [same.clockNs]
    exact same.threadSeen id (·.candidate honourPauses t.clockNs) fun _ => rfl
  unfold State.candidates
  rw [candidate, same.live]

theorem Same.runnable (same : Same v s t) : s.runnable = t.runnable := by
  rw [runnable_eq, runnable_eq, same.candidates]

theorem Same.anyAlive (same : Same v s t) : s.anyAlive = t.anyAlive := by
  have alive : (fun id => decide ((s.threads id).state ≠ .exited)) =
      fun id => decide ((t.threads id).state ≠ .exited) :=
    funext fun id => same.threadSeen id (fun t => decide (t.state ≠ .exited))
      fun _ => rfl
  unfold State.anyAlive
  rw [alive, same.live]

theorem Same.earliestDeadline
    (same : Same v s t)
    (seen : v ≠ .seeds) : s.earliestDeadline = t.earliestDeadline := by
  unfold State.earliestDeadline
  rw [same.threads seen, same.live]

theorem Same.nextAlarm (same : Same v s t) : s.nextAlarm = t.nextAlarm := by
  have pending : (fun pid => (s.procs pid).pendingAlarm) =
      fun pid => (t.procs pid).pendingAlarm :=
    funext fun pid => same.procSeen pid ProcRec.pendingAlarm fun _ => rfl
  unfold State.nextAlarm
  rw [pending, same.pids]

/-! ## The choice -/

theorem Same.passPoint
    (same : Same v s t)
    (seen : v ≠ .seeds) : Same v s.passPoint t.passPoint := by
  refine same.change State.passPoint fun s => ?_
  unfold State.passPoint
  dsimp only
  have current : (s.veil v).current = s.current := rfl
  have nthreads : (s.veil v).nthreads = s.nthreads := rfl
  rw [current, nthreads]
  split
  · split
    · cases v with
      | seeds => exact absurd rfl seen
      | faults => rfl
      | pauses => rfl
    · rfl
  · rfl

theorem Same.passPoints
    (same : Same v s t)
    (seen : v ≠ .seeds)
    (points : Nat) :
    Same v (State.passPoints points s) (State.passPoints points t) := by
  induction points generalizing s t with
  | zero => exact same
  | succ points inductionHypothesis =>
      have changeAt : s.pctChangeAt = t.pctChangeAt :=
        same.seen State.pctChangeAt fun _ => if_neg seen
      have next : s.pctNext = t.pctNext := same.seen State.pctNext fun _ => rfl
      unfold State.passPoints
      rw [changeAt, next, same.clockNs]
      split
      · split
        · exact inductionHypothesis (same.passPoint seen)
        · exact same
      · exact same

theorem Same.pctChangePoints
    (same : Same v s t)
    (seen : v ≠ .seeds) : Same v s.pctChangePoints t.pctChangePoints := by
  have changeAt : s.pctChangeAt = t.pctChangeAt :=
    same.seen State.pctChangeAt fun _ => if_neg seen
  have next : s.pctNext = t.pctNext := same.seen State.pctNext fun _ => rfl
  unfold State.pctChangePoints
  rw [changeAt, next]
  exact same.passPoints seen _

/-- The stream of choices moves on. -/
theorem Same.setRng
    (same : Same v s t)
    (rng : Rng) : Same v { s with rng := rng } { t with rng := rng } := by
  change { s.veil v with rng := if v = Veil.seeds then {} else rng } =
    { t.veil v with rng := if v = Veil.seeds then {} else rng }
  rw [show s.veil v = t.veil v from same]

theorem Same.nthCandidate
    (same : Same v s t)
    (seen : v ≠ .seeds)
    (honourPauses : Bool)
    (count : Nat) :
    Same v (s.nthCandidate honourPauses count).1
        (t.nthCandidate honourPauses count).1 ∧
      (s.nthCandidate honourPauses count).2 =
        (t.nthCandidate honourPauses count).2 := by
  have drawn : s.rng.below count = t.rng.below count := by rw [same.rng seen]
  unfold State.nthCandidate
  dsimp only
  rw [drawn]
  refine ⟨same.setRng _, ?_⟩
  rw [same.candidates, same.nthreads]

theorem Same.starvedCandidate
    (same : Same v s t)
    (seen : v ≠ .seeds)
    (honourPauses : Bool) :
    s.starvedCandidate honourPauses = t.starvedCandidate honourPauses := by
  have bound : s.pctStarveNs = t.pctStarveNs :=
    same.seen State.pctStarveNs fun _ => rfl
  have starves : s.starves = t.starves := by
    funext t'
    unfold State.starves
    rw [bound, same.clockNs]
  unfold State.starvedCandidate
  rw [same.candidates, starves, same.threads seen]

theorem Same.highestCandidate
    (same : Same v s t)
    (seen : v ≠ .seeds)
    (honourPauses : Bool) :
    s.highestCandidate honourPauses = t.highestCandidate honourPauses := by
  unfold State.highestCandidate
  rw [same.candidates, same.threads seen]

theorem Same.passOver
    (same : Same v s t)
    (seen : v ≠ .seeds)
    (chosen : ThreadId) : Same v (s.passOver chosen) (t.passOver chosen) := by
  refine same.records (fun id => ?_) same.proc
  rw [same.nthreads, same.clockNs, same.threads seen]

theorem Same.chooseCandidate
    (same : Same v s t)
    (seen : v ≠ .seeds)
    (honourPauses : Bool)
    (count : Nat) :
    Same v (s.chooseCandidate honourPauses count).1
        (t.chooseCandidate honourPauses count).1 ∧
      (s.chooseCandidate honourPauses count).2 =
        (t.chooseCandidate honourPauses count).2 := by
  have uniform : (s.scheduler ≠ .pct ∨ s.pctHorizonNs ≤ s.clockNs) =
      (t.scheduler ≠ .pct ∨ t.pctHorizonNs ≤ t.clockNs) :=
    same.seen (fun s => s.scheduler ≠ .pct ∨ s.pctHorizonNs ≤ s.clockNs)
      fun _ => rfl
  have highest : (s.highestCandidate honourPauses).getD s.nthreads =
      (t.highestCandidate honourPauses).getD t.nthreads := by
    rw [same.highestCandidate seen, same.nthreads]
  have starved := same.change
    (fun s => { s with pctStarved := s.pctStarved + 1 }) fun _ => rfl
  unfold State.chooseCandidate
  dsimp only
  rw [highest, same.starvedCandidate seen]
  simp only [uniform]
  split
  · exact same.nthCandidate seen honourPauses count
  split
  · next chosen _ => exact ⟨starved.passOver seen chosen, rfl⟩
  · exact ⟨same.passOver seen _, rfl⟩

/-- The veil does not hide what a choice looks at: it is over the faults, or
over the pauses of a run that makes none. -/
def Clear (v : Veil) (s : State) : Prop :=
  v = .faults ∨ v = .pauses ∧ s.pauseNum = 0

theorem Clear.seen (clear : s.Clear v) : v ≠ .seeds := by
  obtain rfl | ⟨rfl, -⟩ := clear <;> nofun

theorem Same.setPauseRng
    (same : Same .faults s t)
    (rng : Rng) :
    Same .faults { s with pauseRng := rng } { t with pauseRng := rng } :=
  same.change (fun s => { s with pauseRng := rng }) fun _ => rfl

theorem Same.drawPause
    (same : Same v s t)
    (clear : s.Clear v) :
    Same v s.drawPause.1 t.drawPause.1 ∧ s.drawPause.2 = t.drawPause.2 ∧
      (s.drawPause.2 = true → v = .faults) := by
  have num : s.pauseNum = t.pauseNum := same.seen State.pauseNum fun _ => rfl
  unfold State.drawPause
  by_cases none : s.pauseNum = 0
  · rw [if_pos none, if_pos (num ▸ none)]
    exact ⟨same, rfl, nofun⟩
  · obtain rfl | ⟨-, off⟩ := clear
    · have drawn : s.pauseRng.below s.pauseDen =
          t.pauseRng.below t.pauseDen :=
        same.seen (fun s => s.pauseRng.below s.pauseDen) fun _ => rfl
      rw [if_neg none, if_neg (num ▸ none)]
      dsimp only
      rw [drawn]
      exact ⟨same.setPauseRng _, by rw [num], fun _ => rfl⟩
    · exact absurd off none

theorem Same.pause
    (same : Same .faults s t)
    (chosen : ThreadId) : Same .faults (s.pause chosen) (t.pause chosen) := by
  have drawn : s.pauseRng.logUniform s.pauseLoNs s.pauseHiNs =
      t.pauseRng.logUniform t.pauseLoNs t.pauseHiNs :=
    same.seen (fun s => s.pauseRng.logUniform s.pauseLoNs s.pauseHiNs)
      fun _ => rfl
  unfold State.pause
  dsimp only
  rw [drawn]
  generalize t.pauseRng.logUniform t.pauseLoNs t.pauseHiNs = result
  obtain ⟨length, rng⟩ := result
  have noted := (same.setPauseRng rng).noteAdd s.clockNs length
  have marked := noted.changeThread chosen
    (fun t => { t with pausedUntil := wrappingAdd s.clockNs length })
    fun _ => rfl
  have counted := marked.change (fun s =>
    { s with
      pauses := s.pauses + 1
      traceHash := fnv (fnv s.traceHash pauseMark) (UInt64.ofNat chosen) })
    fun _ => rfl
  dsimp only
  rw [← same.clockNs] at counted ⊢
  exact counted

theorem Clear.choice
    (clear : s.Clear v)
    (choice : Choice s s') : s'.Clear v := by
  obtain isFaults | ⟨isPauses, none⟩ := clear
  · exact .inl isFaults
  · refine .inr ⟨isPauses, ?_⟩
    cases choice
    exact none

theorem Same.firstChoice
    (same : Same v s t)
    (seen : v ≠ .seeds) :
    Same v s.firstChoice.1 t.firstChoice.1 ∧
      s.firstChoice.2 = t.firstChoice.2 := by
  unfold State.firstChoice State.honours
  rw [same.candidates, same.runnable]
  exact (same.pctChangePoints seen).chooseCandidate seen _ _

/-- The end of a choice of a thread, in states that look the same. -/
theorem Same.chooseThread
    (same : Same v s t)
    (clear : s.Clear v) :
    Same v s.chooseThread.1 t.chooseThread.1 ∧
      s.chooseThread.2 = t.chooseThread.2 := by
  obtain ⟨first, chosen⟩ := same.firstChoice clear.seen
  have choice : Choice s s.firstChoice.1 :=
    (choice_pctChangePoints s).trans (choice_chooseCandidate _ _ _)
  obtain ⟨drawn, paused, isFaults⟩ := first.drawPause (clear.choice choice)
  have count := same.candidates true
  have pauses : s.pausesFirst = t.pausesFirst := by
    unfold State.pausesFirst
    rw [count, paused]
  rw [s.chooseThread_eq, t.chooseThread_eq, ← pauses, count]
  split
  · next isPaused =>
      unfold State.pausesFirst at isPaused
      rw [Bool.and_eq_true] at isPaused
      obtain rfl := isFaults isPaused.2
      have after : Same .faults s.afterPause t.afterPause := by
        unfold State.afterPause
        rw [chosen]
        exact drawn.pause _
      exact after.chooseCandidate nofun true _
  · refine ⟨?_, chosen⟩
    dsimp only
    split
    · exact drawn
    · exact first

/-! ## The baton -/

theorem Same.traceSwitch
    (same : Same v s t)
    (seen : v ≠ .seeds)
    (me next : ThreadId)
    (site : UInt64) :
    Same v (s.traceSwitch me next site) (t.traceSwitch me next site) := by
  refine same.change (·.traceSwitch me next site) fun s => ?_
  unfold State.traceSwitch State.veil
  simp only [if_neg seen]

/-- The chosen thread gets the baton. -/
theorem Same.giveBaton
    (same : Same v s t)
    (seen : v ≠ .seeds)
    (me : Option ThreadId)
    (next : ThreadId)
    (site : UInt64) :
    Same v (s.giveBaton me next site).1 (t.giveBaton me next site).1 ∧
      (s.giveBaton me next site).2 = (t.giveBaton me next site).2 := by
  have running := same.renewQuantum.changeThread next (.setState .running)
    fun _ => rfl
  unfold State.giveBaton
  dsimp only
  split
  · exact ⟨running, rfl⟩
  · have given {s t : State} (same : Same v s t) :
        Same v
          ({ s with current := some next }.modifyThread next fun t =>
            { t with park := t.park + 1 })
          ({ t with current := some next }.modifyThread next fun t =>
            { t with park := t.park + 1 }) :=
      (same.change (fun s => { s with current := some next })
        fun _ => rfl).changeThread next (fun t => { t with park := t.park + 1 })
          fun _ => rfl
    cases me with
    | none => exact ⟨given running, rfl⟩
    | some me =>
        have after := given (running.traceSwitch seen me next site)
        refine ⟨after, ?_⟩
        have parked := after.threadSeen me ThreadRec.park fun _ => rfl
        exact congrArg (Handoff.switch next) parked

/-- A hand-off costs time. -/
theorem Same.pay (same : Same v s t) :
    Same v
      ((s.noteAdd s.clockNs s.switchNs).setClock
        (wrappingAdd s.clockNs s.switchNs))
      ((t.noteAdd t.clockNs t.switchNs).setClock
        (wrappingAdd t.clockNs t.switchNs)) := by
  have cost : s.switchNs = t.switchNs := same.seen State.switchNs fun _ => rfl
  rw [same.clockNs, cost]
  exact (same.noteAdd _ _).setClock _

theorem Same.recorded
    (same : Same v s t)
    (seen : v ≠ .seeds)
    (src : Option (ThreadId × ThreadState × Nat)) :
    Same v (s.recorded src) (t.recorded src) := by
  cases src with
  | none => exact same
  | some giver =>
      obtain ⟨id, state, key⟩ := giver
      have changed : Same v
          (s.modifyThread id fun t => { t with state := state, key := key })
          (t.modifyThread id fun t => { t with state := state, key := key }) :=
        same.modifyThread (by rw [same.threads seen])
      exact changed.pay

theorem Same.reseedIfDue
    (same : Same v s t)
    (seen : v ≠ .seeds) : Same v s.reseedIfDue t.reseedIfDue := by
  have due : s.reseedDue = t.reseedDue :=
    same.seen State.reseedDue fun _ => rfl
  have seed : s.reseedWith = t.reseedWith :=
    same.seen State.reseedWith fun _ => rfl
  have reseeded (s : State) : s.reseed.veil v =
      { s.veil v with
        reseeded := true
        rng := Rng.seedFromU64 s.reseedWith
        faultRng := if v = .pauses then
          Rng.seedFromU64 (s.reseedWith ^^^ faultStream) else {}
        pauseRng := if v = .faults then
          Rng.seedFromU64 (s.reseedWith ^^^ pauseStream) else {}
        pctRng := Rng.seedFromU64 (s.reseedWith ^^^ pctStream) } := by
    unfold State.reseed State.veil
    simp only [if_neg seen]
  unfold State.reseedIfDue
  rw [due]
  split
  · unfold Same
    rw [reseeded, reseeded, seed, show s.veil v = t.veil v from same]
  · exact same

end State
end Derp

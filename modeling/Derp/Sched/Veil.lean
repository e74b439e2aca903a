import Derp.Sched.Tidy

/-!
# States that are the same but for what is hidden

Two runs of a schedule are compared through a veil, which hides what they may
differ in: what was drawn from the run's seed before it began, the faults that
are ahead of it, or the pauses of a run that makes none.  What happens at points
of the schedule keeps states the same that a veil does not tell apart.
-/

namespace Derp

/-- What two runs may differ in. -/
inductive Veil
  /-- The streams, and what was drawn from them. -/
  | seeds
  /-- The ranges, budgets and times of crashes and shutdowns, and their stream. -/
  | faults
  /-- The range and the stream of the pauses. -/
  | pauses
  deriving DecidableEq

/-- The beginning of a restarted life was drawn, and so were priorities. -/
def ThreadRec.veil (v : Veil) (t : ThreadRec) : ThreadRec :=
  { t with
    priority := if v = .seeds then 0 else t.priority
    deadline := if v = .seeds ∧ t.key = restartKey then 0 else t.deadline }

def Faults.veil (v : Veil) (faults : Faults) : Faults :=
  { faults with
    crashLoNs := if v = .faults then 0 else faults.crashLoNs
    crashHiNs := if v = .faults then 0 else faults.crashHiNs
    crashesLeft := if v = .faults then 0 else faults.crashesLeft
    shutdownLoNs := if v = .faults then 0 else faults.shutdownLoNs
    shutdownHiNs := if v = .faults then 0 else faults.shutdownHiNs
    shutdownsLeft := if v = .faults then 0 else faults.shutdownsLeft }

def ProcRec.veil (v : Veil) (p : ProcRec) : ProcRec :=
  { p with
    faults := p.faults.veil v
    crashAt := if v = .pauses then p.crashAt else 0
    shutdownAt := if v = .pauses then p.shutdownAt else 0 }

namespace State

def veil (v : Veil) (s : State) : State :=
  { s with
    rng := if v = .seeds then {} else s.rng
    faultRng := if v = .pauses then s.faultRng else {}
    pauseRng := if v = .faults then s.pauseRng else {}
    pctRng := if v = .seeds then {} else s.pctRng
    issued := if v = .seeds then 0 else s.issued
    pendingQuantum := if v = .seeds then 0 else s.pendingQuantum
    pauseLoNs := if v = .pauses then 0 else s.pauseLoNs
    pauseHiNs := if v = .pauses then 0 else s.pauseHiNs
    pctChangeAt := if v = .seeds then [] else s.pctChangeAt
    overflow := if v = .pauses then s.overflow else false
    threads := fun id => (s.threads id).veil v
    procs := fun pid => (s.procs pid).veil v }

/-- The states are the same but for what the veil hides. -/
def Same (v : Veil) (s t : State) : Prop :=
  s.veil v = t.veil v

variable
  {v : Veil}
  {s t s' t' : State}
  {pid : Pid}
  {id : ThreadId}

/-! ## What is seen -/

theorem Same.thread
    (same : Same v s t)
    (id : ThreadId) : (s.threads id).veil v = (t.threads id).veil v :=
  congrFun (congrArg State.threads same) id

theorem Same.proc
    (same : Same v s t)
    (pid : Pid) : (s.procs pid).veil v = (t.procs pid).veil v :=
  congrFun (congrArg State.procs same) pid

/-- What is seen of the states is the same. -/
theorem Same.seen
    {α : Type}
    (same : Same v s t)
    (seen : State → α)
    (isOpen : ∀ s : State, seen (s.veil v) = seen s) : seen s = seen t := by
  rw [← isOpen, show s.veil v = t.veil v from same, isOpen]

theorem Same.nthreads (same : Same v s t) : s.nthreads = t.nthreads :=
  same.seen State.nthreads fun _ => rfl

theorem Same.nprocs (same : Same v s t) : s.nprocs = t.nprocs :=
  same.seen State.nprocs fun _ => rfl

theorem Same.clockNs (same : Same v s t) : s.clockNs = t.clockNs :=
  same.seen State.clockNs fun _ => rfl

theorem Same.net (same : Same v s t) : s.net = t.net :=
  same.seen State.net fun _ => rfl

theorem Same.live (same : Same v s t) : s.live = t.live :=
  congrArg List.range same.nthreads

theorem Same.pids (same : Same v s t) : s.pids = t.pids :=
  congrArg List.range same.nprocs

/-- What is seen of threads is the same. -/
theorem Same.threadSeen
    {α : Type}
    (same : Same v s t)
    (id : ThreadId)
    (seen : ThreadRec → α)
    (isOpen : ∀ t : ThreadRec, seen (t.veil v) = seen t) :
    seen (s.threads id) = seen (t.threads id) := by
  rw [← isOpen, same.thread, isOpen]

/-- What is seen of processes is the same. -/
theorem Same.procSeen
    {α : Type}
    (same : Same v s t)
    (pid : Pid)
    (seen : ProcRec → α)
    (isOpen : ∀ p : ProcRec, seen (p.veil v) = seen p) :
    seen (s.procs pid) = seen (t.procs pid) := by
  rw [← isOpen, same.proc, isOpen]

/-! ## Changes of records -/

/-- Records that look the same take the place of others. -/
theorem Same.records
    (same : Same v s t)
    {threads threads' : ThreadId → ThreadRec}
    {procs procs' : Pid → ProcRec}
    (thread : ∀ id, (threads id).veil v = (threads' id).veil v)
    (proc : ∀ pid, (procs pid).veil v = (procs' pid).veil v) :
    Same v { s with threads := threads, procs := procs }
      { t with threads := threads', procs := procs' } := by
  have threadsSame := funext thread
  have procsSame := funext proc
  change { s.veil v with
      threads := fun id => (threads id).veil v
      procs := fun pid => (procs pid).veil v } =
    { t.veil v with
      threads := fun id => (threads' id).veil v
      procs := fun pid => (procs' pid).veil v }
  rw [show s.veil v = t.veil v from same, threadsSame, procsSame]

theorem Same.modifyThread
    (same : Same v s t)
    {change change' : ThreadRec → ThreadRec}
    (changed : (change (s.threads id)).veil v =
      (change' (t.threads id)).veil v) :
    Same v (s.modifyThread id change) (t.modifyThread id change') := by
  refine same.records (fun other => ?_) same.proc
  by_cases isId : other = id
  · subst isId
    rw [Function.update_self, Function.update_self]
    exact changed
  · rw [Function.update_of_ne isId, Function.update_of_ne isId]
    exact same.thread other

theorem Same.modifyProc
    (same : Same v s t)
    {change change' : ProcRec → ProcRec}
    (changed : (change (s.procs pid)).veil v = (change' (t.procs pid)).veil v) :
    Same v (s.modifyProc pid change) (t.modifyProc pid change') := by
  refine same.records same.thread fun other => ?_
  by_cases isPid : other = pid
  · subst isPid
    rw [Function.update_self, Function.update_self]
    exact changed
  · rw [Function.update_of_ne isPid, Function.update_of_ne isPid]
    exact same.proc other

/-- A change of threads that does not look behind the veil. -/
theorem Same.mapLive
    (same : Same v s t)
    {change : ThreadRec → ThreadRec}
    (sees : ∀ t, (change t).veil v = change (t.veil v)) :
    Same v (s.mapLive change) (t.mapLive change) := by
  refine same.records (fun id => ?_) same.proc
  rw [same.nthreads]
  split
  · rw [sees, sees, same.thread]
  · exact same.thread id

theorem Same.mapProcs
    (same : Same v s t)
    {change : ProcRec → ProcRec}
    (sees : ∀ p, (change p).veil v = change (p.veil v)) :
    Same v (s.mapProcs change) (t.mapProcs change) := by
  refine same.records same.thread fun pid => ?_
  rw [same.nprocs]
  split
  · rw [sees, sees, same.proc]
  · exact same.proc pid

/-- A change of one record that does not look behind the veil. -/
theorem Same.changeThread
    (same : Same v s t)
    (id : ThreadId)
    (change : ThreadRec → ThreadRec)
    (sees : ∀ t, (change t).veil v = change (t.veil v)) :
    Same v (s.modifyThread id change) (t.modifyThread id change) := by
  apply same.modifyThread
  rw [sees, sees, same.thread]

theorem Same.changeProc
    (same : Same v s t)
    (pid : Pid)
    (change : ProcRec → ProcRec)
    (sees : ∀ p, (change p).veil v = change (p.veil v)) :
    Same v (s.modifyProc pid change) (t.modifyProc pid change) := by
  apply same.modifyProc
  rw [sees, sees, same.proc]

/-- A change of the state that does not look behind the veil. -/
theorem Same.change
    (same : Same v s t)
    (change : State → State)
    (sees : ∀ s, (change s).veil v = change (s.veil v)) :
    Same v (change s) (change t) := by
  unfold Same
  rw [sees, sees, show s.veil v = t.veil v from same]

theorem Same.setNet
    (same : Same v s t)
    (net : Net) : Same v (s.setNet net) (t.setNet net) :=
  congrArg (State.setNet · net) same

theorem Same.setClock
    (same : Same v s t)
    (clockNs : Nat) : Same v (s.setClock clockNs) (t.setClock clockNs) :=
  congrArg (State.setClock · clockNs) same

theorem Same.noteAdd
    (same : Same v s t)
    (a b : Nat) : Same v (s.noteAdd a b) (t.noteAdd a b) := by
  have isOver : (s.noteAdd a b).veil v =
      { s.veil v with
        overflow := if v = .pauses then (s.veil v).overflow || addOverflows a b
          else false } := by
    cases v <;> rfl
  have over' : (t.noteAdd a b).veil v =
      { t.veil v with
        overflow := if v = .pauses then (t.veil v).overflow || addOverflows a b
          else false } := by
    cases v <;> rfl
  unfold Same
  rw [isOver, over', show s.veil v = t.veil v from same]

/-! ## Wakes and signals -/

theorem wake_veil (t : ThreadRec) : t.wake.veil v = (t.veil v).wake := by
  unfold ThreadRec.wake
  change (if t.state = .blocked then t.setState .runnable else t).veil v =
    if t.state = .blocked then (t.veil v).setState .runnable else t.veil v
  split <;> rfl

theorem Same.wakeAll
    (same : Same v s t)
    (pid : Pid)
    (key : Nat) : Same v (s.wakeAll pid key) (t.wakeAll pid key) := by
  refine same.mapLive fun t => ?_
  change (if t.pid = pid ∧ t.key = key then t.wake else t).veil v =
    if t.pid = pid ∧ t.key = key then (t.veil v).wake else t.veil v
  split
  · exact wake_veil t
  · rfl

theorem Same.wakeIo (same : Same v s t) : Same v s.wakeIo t.wakeIo := by
  refine same.mapLive fun t => ?_
  change (if t.key = ioKey then t.wake else t).veil v =
    if t.key = ioKey then (t.veil v).wake else t.veil v
  split
  · exact wake_veil t
  · rfl

theorem Same.wakeThread
    (same : Same v s t)
    (id : ThreadId) : Same v (s.wakeThread id) (t.wakeThread id) :=
  same.changeThread id .wake wake_veil

theorem Same.postSignal
    (same : Same v s t)
    (pid : Pid)
    (sig : Nat) : Same v (s.postSignal pid sig) (t.postSignal pid sig) := by
  refine (same.changeProc pid (.addSignal sig) fun _ => rfl).mapLive fun t => ?_
  change (if t.pid = pid ∧ t.key ≠ restartKey then t.wake else t).veil v =
    if t.pid = pid ∧ t.key ≠ restartKey then (t.veil v).wake else t.veil v
  split
  · exact wake_veil t
  · rfl

theorem Same.condFirst
    (same : Same v s t)
    (pid : Pid)
    (cond : Nat) : s.condFirst pid cond = t.condFirst pid cond := by
  have queued : (fun id => decide ((s.threads id).pid = pid) &&
      decide ((s.threads id).condKey = cond) &&
      decide ((s.threads id).state ≠ .exited)) =
        fun id => decide ((t.threads id).pid = pid) &&
          decide ((t.threads id).condKey = cond) &&
          decide ((t.threads id).state ≠ .exited) :=
    funext fun id => same.threadSeen id (fun t => decide (t.pid = pid) &&
      decide (t.condKey = cond) && decide (t.state ≠ .exited)) fun _ => rfl
  have order : (fun id => (s.threads id).condSeq) =
      fun id => (t.threads id).condSeq :=
    funext fun id => same.threadSeen id ThreadRec.condSeq fun _ => rfl
  unfold State.condFirst
  rw [same.live, queued, order]

theorem Same.condWakeLoop
    (same : Same v s t)
    (rounds : Nat)
    (pid : Pid)
    (cond : Nat)
    (all : Bool) :
    Same v (State.condWakeLoop rounds s pid cond all)
      (State.condWakeLoop rounds t pid cond all) := by
  induction rounds generalizing s t with
  | zero => exact same
  | succ rounds inductionHypothesis =>
      unfold State.condWakeLoop
      rw [same.condFirst]
      split
      · exact same
      · next id _ =>
          have signalled : Same v (s.condSignal id) (t.condSignal id) :=
            (same.changeThread id
              (fun t => { t with condKey := 0, signaled := true })
              fun _ => rfl).wakeThread id
          dsimp only
          split
          · exact inductionHypothesis signalled
          · exact signalled

/-! ## Deaths -/

theorem Same.restartDue
    (same : Same v s t)
    (pid : Pid)
    (status : Int) : s.restartDue pid status = t.restartDue pid status := by
  have stopped : s.stopped = t.stopped := same.seen State.stopped fun _ => rfl
  have due := same.procSeen pid
    (fun p => { t with procs := fun _ => p }.restartDue pid status) fun _ => rfl
  unfold State.restartDue at due ⊢
  rw [stopped]
  exact due

theorem Same.hasRoom (same : Same v s t) : s.hasRoom = t.hasRoom := by
  unfold State.hasRoom
  rw [same.nprocs, same.nthreads]

theorem Same.tellParent
    (same : Same v s t)
    (child : Pid) : Same v (s.tellParent child) (t.tellParent child) := by
  have parent : (s.procs child).parent = (t.procs child).parent :=
    same.procSeen child ProcRec.parent fun _ => rfl
  unfold State.tellParent
  rw [parent]
  split
  · exact (same.changeProc _ (.noteChild child) fun _ => rfl).wakeAll _ _
  · exact same

theorem Same.closeDown
    (same : Same v s t)
    (pid : Pid) : Same v (s.closeDown pid) (t.closeDown pid) := by
  have closed := same.setNet (s.net.processDied pid)
  unfold State.closeDown
  rw [← same.net]
  exact closed.wakeIo.tellParent pid

theorem retire_veil (t : ThreadRec) : t.retire.veil v = (t.veil v).retire := by
  unfold ThreadRec.retire ThreadRec.veil
  simp

theorem condemn_veil (now : Nat) (p : ProcRec) :
    (p.condemn now).veil v = (p.veil v).condemn now := by
  unfold ProcRec.condemn ProcRec.clearFaultTimes ProcRec.veil
  simp

theorem Same.killed
    (same : Same v s t)
    (victim : Pid) : Same v (s.killed victim) (t.killed victim) := by
  have retired : Same v (s.retireThreads victim) (t.retireThreads victim) := by
    refine same.mapLive fun t => ?_
    change (if t.pid = victim then t.retire else t).veil v =
      if t.pid = victim then (t.veil v).retire else t.veil v
    split
    · exact retire_veil t
    · rfl
  unfold State.killed
  rw [same.clockNs]
  exact retired.changeProc victim _ (condemn_veil _)

theorem Same.noteUnsettled
    (same : Same v s t)
    (victim : Pid) : Same v (s.noteUnsettled victim) (t.noteUnsettled victim) := by
  have state : (s.procs victim).state = (t.procs victim).state :=
    same.procSeen victim ProcRec.state fun _ => rfl
  have unsettled : s.unsettled = t.unsettled :=
    same.seen State.unsettled fun _ => rfl
  unfold State.noteUnsettled
  rw [state, unsettled]
  split
  · have noted := same.changeProc victim
      (fun p => { p with unsettled := true }) fun _ => rfl
    exact congrArg
      (fun s : State => { s with unsettled := t.unsettled + 1 }) noted
  · exact same

theorem Same.grieved
    (same : Same v s t)
    (victim : Pid) : Same v (s.grieved victim) (t.grieved victim) := by
  have unsignalled : s.unsignalled = t.unsignalled :=
    same.seen State.unsignalled fun _ => rfl
  have counted : Same v { s with unsignalled := s.unsignalled + 1 }
      { t with unsignalled := t.unsignalled + 1 } := by
    rw [unsignalled]
    exact congrArg
      (fun s : State => { s with unsignalled := t.unsignalled + 1 }) same
  exact (counted.noteUnsettled victim).closeDown victim

/-! ## What is drawn -/

/-- The fault stream is seen through the veil over pauses only. -/
theorem Same.setFaultRng
    (same : Same v s t)
    {rng rng' : Rng}
    (seen : v = .pauses → rng = rng') :
    Same v (s.setFaultRng rng) (t.setFaultRng rng') := by
  have stream : (if v = Veil.pauses then rng else {}) =
      if v = Veil.pauses then rng' else {} := by
    split
    · next isPauses => exact seen isPauses
    · rfl
  change { s.veil v with faultRng := if v = Veil.pauses then rng else {} } =
    { t.veil v with faultRng := if v = Veil.pauses then rng' else {} }
  rw [show s.veil v = t.veil v from same, stream]

/-- The other veils hide the fault stream. -/
theorem Same.drawn
    (same : Same v s t)
    (hidden : v ≠ .pauses)
    (rng rng' : Rng)
    (isOver over' : Bool) : Same v (s.drawn rng isOver) (t.drawn rng' over') := by
  have hides (s : State) (rng : Rng) (isOver : Bool) :
      (s.drawn rng isOver).veil v =
        { s.veil v with faultRng := {}, overflow := false } := by
    unfold State.drawn State.veil
    simp only [if_neg hidden]
  unfold Same
  rw [hides, hides, show s.veil v = t.veil v from same]

theorem Same.faultRng
    (same : Same v s t)
    (isPauses : v = .pauses) : s.faultRng = t.faultRng := by
  subst isPauses
  exact same.seen State.faultRng fun _ => rfl

/-- The ranges of faults are seen through all veils but one. -/
theorem Same.faults
    (same : Same v s t)
    (seen : v ≠ .faults)
    (pid : Pid) : (s.procs pid).faults = (t.procs pid).faults := by
  have isOpen (faults : Faults) : faults.veil v = faults := by
    unfold Faults.veil
    simp only [if_neg seen]
  exact same.procSeen pid ProcRec.faults fun p => isOpen p.faults

theorem Same.drawTime
    (same : Same .pauses s t)
    (lifeStarts lo hi left : Nat) :
    Same .pauses (s.drawTime lifeStarts lo hi left).1
        (t.drawTime lifeStarts lo hi left).1 ∧
      (s.drawTime lifeStarts lo hi left).2 =
        (t.drawTime lifeStarts lo hi left).2 := by
  unfold State.drawTime
  rw [same.faultRng rfl]
  split
  · exact ⟨same, rfl⟩
  · exact ⟨((same.setFaultRng fun _ => rfl).noteAdd _ _).noteAdd _ _, rfl⟩

theorem setCrashAt_veil
    (hidden : v ≠ .pauses)
    {at' : Nat}
    (p : ProcRec) : (p.setCrashAt at').veil v = p.veil v := by
  unfold ProcRec.setCrashAt ProcRec.veil
  simp only [if_neg hidden]

theorem setShutdownAt_veil
    (hidden : v ≠ .pauses)
    {at' : Nat}
    (p : ProcRec) : (p.setShutdownAt at').veil v = p.veil v := by
  unfold ProcRec.setShutdownAt ProcRec.veil
  simp only [if_neg hidden]

theorem Same.drawCrash
    (same : Same v s t)
    (pid : Pid)
    {lifeStarts lifeStarts' : Nat}
    (starts : v = .pauses → lifeStarts = lifeStarts') :
    Same v (s.drawCrash pid lifeStarts) (t.drawCrash pid lifeStarts') := by
  by_cases isPauses : v = .pauses
  · subst isPauses
    obtain rfl := starts rfl
    have faults := same.faults (nofun) pid
    unfold State.drawCrash
    rw [faults]
    obtain ⟨crash, crashAt⟩ := same.drawTime lifeStarts
      (t.procs pid).faults.crashLoNs (t.procs pid).faults.crashHiNs
      (t.procs pid).faults.crashesLeft
    dsimp only
    rw [crashAt]
    obtain ⟨shutdown, shutdownAt⟩ := (crash.changeProc pid (.setCrashAt _)
      fun _ => rfl).drawTime lifeStarts
      (t.procs pid).faults.shutdownLoNs (t.procs pid).faults.shutdownHiNs
      (t.procs pid).faults.shutdownsLeft
    rw [shutdownAt]
    exact shutdown.changeProc pid (.setShutdownAt _) fun _ => rfl
  · obtain ⟨_, _, crashAt, shutdownAt, drawn, -⟩ := s.drawCrash_eq pid lifeStarts
    obtain ⟨_, _, crashAt', shutdownAt', drawn', -⟩ :=
      t.drawCrash_eq pid lifeStarts'
    rw [drawn, drawn']
    refine ((same.drawn isPauses _ _ _ _).modifyProc ?_).modifyProc ?_
    · rw [setCrashAt_veil isPauses, setCrashAt_veil isPauses]
      exact same.proc pid
    · rw [setShutdownAt_veil isPauses, setShutdownAt_veil isPauses]
      unfold State.modifyProc
      dsimp only
      rw [Function.update_self, Function.update_self, setCrashAt_veil isPauses,
        setCrashAt_veil isPauses]
      exact same.proc pid

theorem Same.addProc
    (same : Same v s t)
    (host : Nat)
    (parent : Option Pid) :
    Same v (s.addProc host parent).1 (t.addProc host parent).1 := by
  have more : Same v { s with nprocs := s.nprocs + 1 }
      { t with nprocs := t.nprocs + 1 } := by
    rw [same.nprocs]
    exact congrArg (fun s : State => { s with nprocs := t.nprocs + 1 }) same
  unfold State.addProc
  dsimp only
  rw [same.nprocs]
  rw [same.nprocs] at more
  exact more.changeProc t.nprocs
    (fun p => { p with
      state := .starting
      host := host
      parent := parent
      replacedBy := none
      spec := none }) fun _ => rfl

/-- The streams that priorities and change points are drawn from are hidden by
one veil. -/
theorem Same.setPctRng
    (same : Same v s t)
    {rng rng' : Rng}
    (seen : v ≠ .seeds → rng = rng') :
    Same v { s with pctRng := rng } { t with pctRng := rng' } := by
  have stream : (if v = Veil.seeds then {} else rng) =
      if v = Veil.seeds then {} else rng' := by
    split
    · rfl
    · next notSeeds => exact seen notSeeds
  change { s.veil v with pctRng := if v = Veil.seeds then {} else rng } =
    { t.veil v with pctRng := if v = Veil.seeds then {} else rng' }
  rw [show s.veil v = t.veil v from same, stream]

theorem Same.pctRng
    (same : Same v s t)
    (seen : v ≠ .seeds) : s.pctRng = t.pctRng :=
  same.seen State.pctRng fun _ => if_neg seen

theorem drawPriority_pct
    (isPct : s.scheduler = .pct) :
    s.drawPriority = ({ s with pctRng := s.pctRng.nextU64.2 },
      maxPctDepth + 1 + s.pctRng.nextU64.1.toNat / 2) := by
  unfold State.drawPriority
  split
  · rfl
  · next isRandom =>
      rw [isPct] at isRandom
      cases isRandom

theorem drawPriority_random
    (isRandom : s.scheduler = .random) : s.drawPriority = (s, 0) := by
  unfold State.drawPriority
  split
  · next isPct =>
      rw [isRandom] at isPct
      cases isPct
  · rfl

/-- Priorities are seen through all veils but one. -/
theorem Same.drawPriority (same : Same v s t) :
    Same v s.drawPriority.1 t.drawPriority.1 ∧
      (v ≠ .seeds → s.drawPriority.2 = t.drawPriority.2) := by
  have scheduler : s.scheduler = t.scheduler :=
    same.seen State.scheduler fun _ => rfl
  cases kind : t.scheduler with
  | pct =>
      rw [drawPriority_pct (scheduler.trans kind), drawPriority_pct kind]
      refine ⟨same.setPctRng fun seen => ?_, fun seen => ?_⟩
      · rw [same.pctRng seen]
      · dsimp only
        rw [same.pctRng seen]
  | random =>
      rw [drawPriority_random (scheduler.trans kind), drawPriority_random kind]
      exact ⟨same, fun _ => rfl⟩

/-- Priorities and the deadlines of lives that have not begun are hidden by one
veil. -/
theorem veil_of_seen
    {t t' : ThreadRec}
    (same : t.veil v = t'.veil v)
    {state : ThreadState}
    {pid : Pid}
    {priority priority' : Nat}
    (seen : v ≠ .seeds → priority = priority') :
    ({ t with state := state, pid := pid, priority := priority } :
        ThreadRec).veil v =
      ({ t' with state := state, pid := pid, priority := priority' } :
        ThreadRec).veil v := by
  have drawn : (if v = Veil.seeds then 0 else priority) =
      if v = Veil.seeds then 0 else priority' := by
    split
    · rfl
    · next notSeeds => exact seen notSeeds
  change { t.veil v with
      state := state
      pid := pid
      priority := if v = Veil.seeds then 0 else priority } =
    { t'.veil v with
      state := state
      pid := pid
      priority := if v = Veil.seeds then 0 else priority' }
  rw [same, drawn]

theorem Same.addThread
    (same : Same v s t)
    (pid : Pid) :
    Same v (s.addThread pid).1 (t.addThread pid).1 ∧
      (s.addThread pid).2 = (t.addThread pid).2 := by
  have more : Same v { s with nthreads := s.nthreads + 1 }
      { t with nthreads := t.nthreads + 1 } := by
    rw [same.nthreads]
    exact congrArg (fun s : State => { s with nthreads := t.nthreads + 1 }) same
  obtain ⟨drawn, priority⟩ := more.drawPriority
  refine ⟨?_, same.nthreads⟩
  unfold State.addThread
  dsimp only
  rw [same.nthreads] at drawn priority ⊢
  exact drawn.modifyThread (veil_of_seen (drawn.thread _) priority)

/-! ## Restarts -/

theorem Same.drawStart
    (same : Same v s t)
    (faults : Faults) :
    Same v (s.drawStart faults).1 (t.drawStart faults).1 ∧
      (v = .pauses → (s.drawStart faults).2 = (t.drawStart faults).2) := by
  by_cases isPauses : v = .pauses
  · subst isPauses
    unfold State.drawStart
    rw [same.faultRng rfl]
    dsimp only
    generalize t.faultRng.below (wrappingAdd (wrappingSub
      faults.restartDelayHiNs faults.restartDelayLoNs) 1) = result
    obtain ⟨draw, rng⟩ := result
    have moved : Same .pauses (s.setFaultRng rng) (t.setFaultRng rng) :=
      same.setFaultRng fun _ => rfl
    have noted := moved.noteAdd faults.restartDelayLoNs draw
    dsimp only
    rw [noted.clockNs]
    exact ⟨noted.noteAdd _ _, fun _ => rfl⟩
  · obtain ⟨_, _, starts, drawn, -⟩ := s.drawStart_eq faults
    obtain ⟨_, _, starts', drawn', -⟩ := t.drawStart_eq faults
    rw [drawn, drawn']
    exact ⟨same.drawn isPauses _ _ _ _, fun pauses => absurd pauses isPauses⟩

theorem inherit_veil
    {p p' : ProcRec}
    (same : p.veil v = p'.veil v)
    (faults : Faults)
    (spec : Option Nat) :
    (p.inherit faults spec).veil v = (p'.inherit faults spec).veil v := by
  change { p.veil v with faults := faults.veil v, spec := spec } =
    { p'.veil v with faults := faults.veil v, spec := spec }
  rw [same]

theorem Same.succeed
    (same : Same v s t)
    (victim new : Pid)
    (faults : Faults)
    (spec : Option Nat) :
    Same v (s.succeed victim new faults spec)
      (t.succeed victim new faults spec) := by
  have inherited : Same v (s.modifyProc new (.inherit faults spec))
      (t.modifyProc new (.inherit faults spec)) :=
    same.modifyProc (inherit_veil (same.proc new) faults spec)
  exact inherited.changeProc victim (.setReplacedBy new) fun _ => rfl

theorem awaitStart_veil
    {t t' : ThreadRec}
    (same : t.veil v = t'.veil v)
    {starts starts' : Nat}
    (seen : v ≠ .seeds → starts = starts') :
    (t.awaitStart starts).veil v = (t'.awaitStart starts').veil v := by
  have drawn : (if v = Veil.seeds ∧ restartKey = restartKey then 0 else starts) =
      if v = Veil.seeds ∧ restartKey = restartKey then 0 else starts' := by
    split
    · rfl
    · next notSeeds =>
        exact seen fun isSeeds => notSeeds ⟨isSeeds, rfl⟩
  change { t.veil v with
      state := .blocked
      key := restartKey
      deadline := if v = Veil.seeds ∧ restartKey = restartKey then 0
        else starts } =
    { t'.veil v with
      state := .blocked
      key := restartKey
      deadline := if v = Veil.seeds ∧ restartKey = restartKey then 0
        else starts' }
  rw [same, drawn]

theorem Same.addMain
    (same : Same v s t)
    (pid : Pid)
    {starts starts' : Nat}
    (seen : v ≠ .seeds → starts = starts') :
    Same v (s.addMain pid starts) (t.addMain pid starts') := by
  obtain ⟨added, main⟩ := same.addThread pid
  unfold State.addMain
  dsimp only
  rw [main]
  exact added.modifyThread (awaitStart_veil (added.thread _) seen)

theorem Same.countRestart (same : Same v s t) :
    Same v { s with restarts := s.restarts + 1 }
      { t with restarts := t.restarts + 1 } := by
  have restarts : s.restarts = t.restarts := same.seen State.restarts fun _ => rfl
  rw [restarts]
  exact congrArg (fun s : State => { s with restarts := t.restarts + 1 }) same

/-- A next life begins when it was drawn to, which the veil over the seeds
hides, and is crashed when it was drawn to, which the veil over faults hides as
well. -/
theorem Same.newLife
    (same : Same v s t)
    (seen : v ≠ .faults)
    (victim : Pid) : Same v (s.newLife victim) (t.newLife victim) := by
  have host : (s.procs victim).host = (t.procs victim).host :=
    same.procSeen victim ProcRec.host fun _ => rfl
  have spec : (s.procs victim).spec = (t.procs victim).spec :=
    same.procSeen victim ProcRec.spec fun _ => rfl
  have faults := same.faults seen victim
  have added := same.addProc (t.procs victim).host none
  obtain ⟨drawn, starts⟩ := added.drawStart (t.procs victim).faults.useUpRestart
  have notSeeds (other : v ≠ .seeds) : v = .pauses := by
    cases v with
    | seeds => exact absurd rfl other
    | faults => exact absurd rfl seen
    | pauses => rfl
  have new : (s.addProc (t.procs victim).host none).2 =
      (t.addProc (t.procs victim).host none).2 := same.nprocs
  have succeeded := drawn.succeed victim
    (t.addProc (t.procs victim).host none).2
    (t.procs victim).faults.useUpRestart (t.procs victim).spec
  have main := succeeded.addMain (t.addProc (t.procs victim).host none).2
    fun other => starts (notSeeds other)
  have crash := main.drawCrash (t.addProc (t.procs victim).host none).2 starts
  unfold State.newLife
  dsimp only
  rw [host, spec, faults, new]
  exact crash.countRestart

/-- Where the veil is over faults, no restart may be registered. -/
theorem Same.registerRestart
    (same : Same v s t)
    (registered : pid < s.nprocs)
    (status : Int)
    (calm : v = .faults →
      (s.registerRestart pid status).restarts = s.restarts) :
    Same v (s.registerRestart pid status) (t.registerRestart pid status) := by
  have first : (s.procs pid).replacedBy = (t.procs pid).replacedBy :=
    same.procSeen pid ProcRec.replacedBy fun _ => rfl
  have due := same.restartDue pid status
  have room := same.hasRoom
  unfold State.registerRestart at calm ⊢
  rw [← first, ← due, ← room]
  split
  · exact same
  split
  · exact same
  · next wanted hasRoom =>
      rw [if_neg wanted, if_neg hasRoom, newLife_restarts registered] at calm
      exact same.newLife (fun isFaults => by have := calm isFaults; omega) pid

theorem Same.crash
    (same : Same v s t)
    (registered : pid < s.nprocs)
    (calm : v = .faults → (s.crash pid).restarts = s.restarts) :
    Same v (s.crash pid) (t.crash pid) := by
  have grieved := (same.killed pid).grieved pid
  have dead := (dead_killed registered).grieved
  rw [crash_eq] at calm
  rw [crash_eq, crash_eq]
  refine grieved.registerRestart dead.1 killedStatus fun isFaults => ?_
  rw [calm isFaults]
  exact (Changes.restarts (changes_grieved (s.killed pid) pid)).symm

theorem clearFaultTimes_veil (p : ProcRec) :
    p.clearFaultTimes.veil v = (p.veil v).clearFaultTimes := by
  unfold ProcRec.clearFaultTimes ProcRec.veil
  simp

theorem Same.mourn
    (same : Same v s t)
    (registered : pid < s.nprocs)
    (status : Int)
    (calm : v = .faults → (s.mourn pid status).restarts = s.restarts) :
    Same v (s.mourn pid status) (t.mourn pid status) := by
  rw [mourn_eq] at calm
  rw [mourn_eq, mourn_eq]
  have closed := Changes.restarts (changes_closeDown
    ((s.registerRestart pid status).modifyProc pid .clearFaultTimes) pid)
  have restarted := same.registerRestart registered status fun isFaults =>
    closed.symm.trans (calm isFaults)
  exact (restarted.changeProc pid .clearFaultTimes
    clearFaultTimes_veil).closeDown pid

theorem Same.noteExit
    (same : Same v s t)
    (pid : Pid)
    (status : Int) : Same v (s.noteExit pid status) (t.noteExit pid status) := by
  unfold State.noteExit
  rw [same.clockNs]
  exact same.changeProc pid
    (fun p => { p with
      state := .exited
      exitStatus := status
      diedAt := if p.diedAt = 0 then max 1 t.clockNs else p.diedAt })
    fun _ => rfl

theorem Same.buried
    (same : Same v s t)
    (registered : pid < s.nprocs)
    (status : Int)
    (calm : v = .faults → (s.buried pid status).restarts = s.restarts) :
    Same v (s.buried pid status) (t.buried pid status) := by
  have noted := same.noteExit pid status
  have killed : ((s.noteExit pid status).procs pid).killed =
      ((t.noteExit pid status).procs pid).killed :=
    noted.procSeen pid ProcRec.killed fun _ => rfl
  rw [buried_eq] at calm
  rw [buried_eq, buried_eq, ← killed]
  have mourned : Same v
      (if ((s.noteExit pid status).procs pid).killed then s.noteExit pid status
        else (s.noteExit pid status).mourn pid status)
      (if ((s.noteExit pid status).procs pid).killed then t.noteExit pid status
        else (t.noteExit pid status).mourn pid status) := by
    split
    · exact noted
    · next live =>
        rw [if_neg live] at calm
        exact noted.mourn registered status calm
  refine mourned.mapLive fun t => ?_
  change (if t.pid = pid ∧ t.state ≠ .exited then t.retire else t).veil v =
    if t.pid = pid ∧ t.state ≠ .exited then (t.veil v).retire else t.veil v
  split
  · exact retire_veil t
  · rfl

end State
end Derp

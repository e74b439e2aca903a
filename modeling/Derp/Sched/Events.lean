import Derp.Sched.Defs
import Mathlib.Data.List.MinMax

/-!
# What happens at points of the schedule

Wakes, signals, deaths and restarts, and the handlers of the events that the
clock has reached: the stop of the run, payloads in flight, crashes, shutdowns,
deadlines and timers.
-/

namespace Derp
namespace State

/-- A new process; it has not attached yet.  There is no outcome where the
source panics because the table is full. -/
def addProc (s : State) (host : Nat) (parent : Option Pid) : State × Pid :=
  let pid := s.nprocs
  let s := { s with nprocs := s.nprocs + 1 }
  (s.modifyProc pid fun p =>
    { p with
      state := .starting
      host := host
      parent := parent
      replacedBy := none
      spec := none }, pid)

/-- The priority of a new thread. -/
def drawPriority (s : State) : State × Nat :=
  match s.scheduler with
  | .pct =>
      let (x, pctRng) := s.pctRng.nextU64
      ({ s with pctRng := pctRng }, maxPctDepth + 1 + x.toNat / 2)
  | .random => (s, 0)

/-- Register a thread of `pid`; it starts runnable. -/
def addThread (s : State) (pid : Pid) : State × ThreadId :=
  let id := s.nthreads
  let s := { s with nthreads := s.nthreads + 1 }
  let (s, priority) := s.drawPriority
  (s.modifyThread id fun t =>
    { t with state := .runnable, pid := pid, priority := priority }, id)

/-- A time in a life, drawn from a range (no time when the range is empty or
the budget is used up). -/
def drawTime
    (s : State)
    (lifeStarts lo hi left : Nat) : State × Nat :=
  if hi = 0 ∨ left = 0 then (s, 0)
  else
    let span := wrappingAdd (wrappingSub hi lo) 1
    let (draw, faultRng) := s.faultRng.below span
    let s := s.setFaultRng faultRng
    let s := s.noteAdd lifeStarts lo
    let s := s.noteAdd (wrappingAdd lifeStarts lo) draw
    (s, max 1 (wrappingAdd (wrappingAdd lifeStarts lo) draw))

/-- When this life of `pid` is crashed and shut down, if it is. -/
def drawCrash (s : State) (pid : Pid) (lifeStarts : Nat) : State :=
  let f := (s.procs pid).faults
  let (s, crashAt) :=
    s.drawTime lifeStarts f.crashLoNs f.crashHiNs f.crashesLeft
  let s := s.modifyProc pid (.setCrashAt crashAt)
  let (s, shutdownAt) :=
    s.drawTime lifeStarts f.shutdownLoNs f.shutdownHiNs f.shutdownsLeft
  s.modifyProc pid (.setShutdownAt shutdownAt)

/-- Fault settings of a process that the launcher starts. -/
def setFaults
    (s : State)
    (pid : Pid)
    (faults : Faults)
    (spec : Nat) : State :=
  let s := s.modifyProc pid fun p =>
    { p with faults := faults, spec := some spec }
  s.drawCrash pid s.clockNs

/-- Make every thread of `pid` blocked on `key` runnable. -/
def wakeAll (s : State) (pid : Pid) (key : Nat) : State :=
  s.mapLive fun t => if t.pid = pid ∧ t.key = key then t.wake else t

/-- Let every thread parked for readiness look again. -/
def wakeIo (s : State) : State :=
  s.mapLive fun t => if t.key = ioKey then t.wake else t

def wakeThread (s : State) (id : ThreadId) : State :=
  s.modifyThread id .wake

/-- A signal is pending against `pid`, and its blocked threads look.  A life
still down before its restart is left alone. -/
def postSignal (s : State) (pid : Pid) (sig : Nat) : State :=
  (s.modifyProc pid (.addSignal sig)).mapLive fun t =>
    if t.pid = pid ∧ t.key ≠ restartKey then t.wake else t

def condEnqueue (s : State) (id : ThreadId) (cond : Nat) : State :=
  let seq := s.nextCondSeq
  { s with nextCondSeq := s.nextCondSeq + 1 }.modifyThread id fun t =>
    { t with signaled := false, condKey := cond, condSeq := seq }

/-- The longest-waiting thread of `pid` queued on `cond`. -/
def condFirst (s : State) (pid : Pid) (cond : Nat) : Option ThreadId :=
  (s.live.filter fun id =>
    let t := s.threads id
    t.pid = pid && t.condKey = cond && t.state ≠ .exited).argmin
      fun id => (s.threads id).condSeq

/-- Signal one thread that is queued on a condition. -/
def condSignal (s : State) (id : ThreadId) : State :=
  (s.modifyThread id fun t =>
    { t with condKey := 0, signaled := true }).wakeThread id

/-- The loop of `condWake`: a round takes one thread off the queue. -/
def condWakeLoop : Nat → State → Pid → Nat → Bool → State
  | 0, s, _, _, _ => s
  | fuel + 1, s, pid, cond, all =>
      match s.condFirst pid cond with
      | none => s
      | some id =>
          let s := s.condSignal id
          if all then condWakeLoop fuel s pid cond all else s

/-- Signal the longest-waiting thread of `pid` queued on `cond`, or all. -/
def condWake (s : State) (pid : Pid) (cond : Nat) (all : Bool) : State :=
  condWakeLoop s.nthreads s pid cond all

/-- What a policy says about a death. -/
def restartDue (s : State) (pid : Pid) (status : Int) : Bool :=
  let p := s.procs pid
  let wanted :=
    match p.faults.restart with
    | .always => true
    | .onFailure => status ≠ 0 || p.shutDown
    | .never => false
  wanted && !s.stopped && p.spec.isSome && 0 < p.faults.restartsLeft

def hasRoom (s : State) : Bool :=
  s.nprocs < maxProcs && s.nthreads < maxThreads

/-- Whether the launcher will be asked to start `pid` again after it died. -/
def willRestart (s : State) (pid : Pid) (status : Int) : Bool :=
  (s.procs pid).replacedBy.isSome || (s.restartDue pid status && s.hasRoom)

/-- When the next life begins: the clock and how long the process stays down. -/
def drawStart (s : State) (faults : Faults) : State × Nat :=
  let span := wrappingAdd
    (wrappingSub faults.restartDelayHiNs faults.restartDelayLoNs) 1
  let (draw, faultRng) := s.faultRng.below span
  let s := s.setFaultRng faultRng
  let s := s.noteAdd faults.restartDelayLoNs draw
  let downFor := max 1 (wrappingAdd faults.restartDelayLoNs draw)
  (s.noteAdd s.clockNs downFor, wrappingAdd s.clockNs downFor)

/-- A new process takes the place of a dead one. -/
def succeed
    (s : State)
    (victim new : Pid)
    (faults : Faults)
    (spec : Option Nat) : State :=
  (s.modifyProc new (.inherit faults spec)).modifyProc victim (.setReplacedBy new)

/-- The main thread of a life that has not begun. -/
def addMain (s : State) (pid : Pid) (starts : Nat) : State :=
  let (s, main) := s.addThread pid
  s.modifyThread main (.awaitStart starts)

/-- The next life of `victim`: a new process on the same host whose main thread
is blocked until the restart delay is over. -/
def newLife (s : State) (victim : Pid) : State :=
  let old := s.procs victim
  let (s, new) := s.addProc old.host none
  let faults := old.faults.useUpRestart
  let (s, starts) := s.drawStart faults
  let s := s.succeed victim new faults old.spec
  let s := s.addMain new starts
  let s := s.drawCrash new starts
  { s with restarts := s.restarts + 1 }

/-- Register the restart that a death is due. -/
def registerRestart (s : State) (victim : Pid) (status : Int) : State :=
  if (s.procs victim).replacedBy.isSome ∨ ¬s.restartDue victim status then s
  else if ¬s.hasRoom then s
  else s.newLife victim

/-- Retire the threads of a process. -/
def retireThreads (s : State) (pid : Pid) : State :=
  s.mapLive fun t => if t.pid = pid then t.retire else t

/-- The parent of a dead process, if the run has it, learns of the death. -/
def tellParent (s : State) (child : Pid) : State :=
  match (s.procs child).parent with
  | some parent =>
      (s.modifyProc parent (.noteChild child)).wakeAll parent waitKey
  | none => s

/-- A crashed process that had attached holds things the run waits for. -/
def noteUnsettled (s : State) (victim : Pid) : State :=
  if (s.procs victim).state = .live then
    { s.modifyProc victim fun p => { p with unsettled := true } with
      unsettled := s.unsettled + 1 }
  else s

/-- Everything a violent death means to the run: threads leave the schedule,
virtual sockets close, the parent's `waitpid` wakes, the restart is
registered. -/
def crash (s : State) (victim : Pid) : State :=
  let s := s.retireThreads victim
  let s := s.modifyProc victim (.condemn s.clockNs)
  let s := { s with unsignalled := s.unsignalled + 1 }
  let s := s.noteUnsettled victim
  let s := s.setNet (s.net.processDied victim)
  let s := s.wakeIo
  let s := s.tellParent victim
  s.registerRestart victim killedStatus

/-- Hand out the newly condemned real pids. -/
def takeKills (s : State) : State × List Int :=
  if s.unsignalled = 0 then (s, [])
  else
    let due (p : ProcRec) : Bool := p.killed && !p.signalled && 0 < p.realPid
    let kills := (s.pids.filter fun pid => due (s.procs pid)).map
      fun pid => (s.procs pid).realPid
    ({ s with unsignalled := 0 }.mapProcs fun p =>
      if due p then { p with signalled := true } else p, kills)

/-- Stop waiting for crashed processes to really die. -/
def forgetUnsettled (s : State) : State :=
  { s.mapProcs fun p => { p with unsettled := false } with
    unsettled := 0 }.wakeIo

/-- The answer is false while a crashed process is still really alive. -/
def settleDeaths (s : State) : State × Bool :=
  if s.unsettled = 0 then (s, true)
  else if s.pids.any fun pid =>
      (s.procs pid).unsettled && (s.procs pid).state ≠ .exited then (s, false)
  else (s.forgetUnsettled, true)

/-- Crash `pid` if its time has come. -/
def injectDueCrash (s : State) (pid : Pid) : State :=
  match (s.procs pid).pendingCrash with
  | some due =>
      if s.clockNs < due then s
      else
        let s := s.modifyProc pid .useUpCrash
        let s := s.crash pid
        { s with crashesInjected := s.crashesInjected + 1 }
  | none => s

def injectDueCrashes (s : State) : State :=
  s.pids.foldl injectDueCrash s

/-- Send `pid` its shutdown signal if the time has come, and crash it if its
grace period is over. -/
def injectDueShutdown (s : State) (pid : Pid) : State :=
  let p := s.procs pid
  if ¬p.alive then s
  else if p.killAt ≠ 0 ∧ p.killAt ≤ s.clockNs then
    let s := s.crash pid
    { s with shutdownsForced := s.shutdownsForced + 1 }
  else if p.shutdownAt = 0 ∨ s.clockNs < p.shutdownAt then s
  else
    let grace := max 1 p.faults.graceNs
    let s := s.noteAdd s.clockNs grace
    let s := s.modifyProc pid .useUpShutdown
    let s := s.modifyProc pid (.beginGrace (wrappingAdd s.clockNs grace))
    let s := s.postSignal pid p.faults.shutdownSignal
    let s := s.wakeIo
    { s with shutdownsInjected := s.shutdownsInjected + 1 }

def injectDueShutdowns (s : State) : State :=
  s.pids.foldl injectDueShutdown s

/-- The stop that is still ahead, if the run has one. -/
def pendingStop (s : State) : Option Nat :=
  if s.stopAtNs ≠ 0 ∧ ¬s.stopped then some s.stopAtNs else none

/-- The run is over: every process alive is marked as stopped and its threads
are made runnable, to report and end. -/
def stopRun (s : State) : State :=
  let s := { s with stopped := true }
  let s := s.mapProcs fun p => if p.alive then { p with stopped := true } else p
  s.mapLive fun t =>
    if t.state ≠ .exited ∧ (s.procs t.pid).stopped then t.setState .runnable
    else t

/-- Stop the run if its time has come. -/
def stopIfDue (s : State) : State :=
  match s.pendingStop with
  | some due => if due ≤ s.clockNs then s.stopRun else s
  | none => s

/-- Network traffic that has become due arrives. -/
def clockMoved (s : State) : State :=
  let (net, any) := s.net.advance s.clockNs
  let s := s.setNet net
  if any then s.wakeIo else s

/-- Set the next time of a timer that fires. -/
def rearm (s : State) (pid : Pid) : State :=
  let interval := (s.procs pid).alarmInterval
  if interval = 0 then s.modifyProc pid (.setAlarmAt 0)
  else
    (s.noteAdd s.clockNs interval).modifyProc pid
      (.setAlarmAt (wrappingAdd s.clockNs interval))

/-- Wake the first blocked thread of `pid`, if it has one. -/
def wakeFirst (s : State) (pid : Pid) : State :=
  match s.live.find? fun id =>
      (s.threads id).pid = pid && (s.threads id).state = .blocked with
  | some id => s.modifyThread id (.setState .runnable)
  | none => s

/-- Fire the timer of `pid` if it is due: its signal is pending, and one blocked
thread of the process is woken to take it. -/
def fireAlarm (s : State) (pid : Pid) : State :=
  match (s.procs pid).pendingAlarm with
  | some due =>
      if s.clockNs < due then s
      else ((s.rearm pid).modifyProc pid (.addSignal sigalrm)).wakeFirst pid
  | none => s

def fireAlarms (s : State) : State :=
  s.pids.foldl fireAlarm s

/-- Release every blocked thread whose deadline has passed. -/
def expireDeadlines (s : State) : State :=
  s.mapLive fun t => if t.expired s.clockNs then t.timeOut else t

/-- Everything that is due at the clock happens. -/
def handleDue (s : State) : State :=
  s.stopIfDue.clockMoved.injectDueCrashes.injectDueShutdowns.expireDeadlines
    |>.fireAlarms

def earliestDeadline (s : State) : Option Nat :=
  ((s.live.filter fun id =>
    (s.threads id).state = .blocked && (s.threads id).deadline ≠ 0).map
      fun id => (s.threads id).deadline).min?

def nextCrash (s : State) : Option Nat :=
  (s.pids.filterMap (fun pid => (s.procs pid).pendingCrash) ++
    s.pids.filterMap fun pid => (s.procs pid).pendingShutdown).min?

def nextAlarm (s : State) : Option Nat :=
  (s.pids.filterMap fun pid => (s.procs pid).pendingAlarm).min?

/-- The time of the first event that is pending. -/
def nextEvent (s : State) : Option Nat :=
  ([s.earliestDeadline, s.net.nextDue, s.nextCrash, s.pendingStop,
    s.nextAlarm].filterMap id).min?

/-- How many threads are runnable. -/
def runnable (s : State) : Nat :=
  s.live.countP fun id => (s.threads id).state = .runnable

/-- Some thread has not exited. -/
def anyAlive (s : State) : Bool :=
  s.live.any fun id => (s.threads id).state ≠ .exited

/-- The clock jumps to the time of an event, unless it is past it. -/
def jump (s : State) (next : Nat) : State :=
  s.setClock (max s.clockNs next)

end State
end Derp

import Derp.Net.Step
import Derp.Rng

/-!
# The scheduler's records

Every process of a run shares one state: a table of threads, a table of
processes, the virtual clock, the random streams and the virtual network.
Slots of the tables are never reused, and those past the last one are zeroed.
This module has the records and the changes of one record.
-/

namespace Derp

/-- What the seed of each secondary stream is the run's seed xored with. -/
def faultStream : UInt64 := 0xFA17FA17FA17FA17
def pauseStream : UInt64 := 0x9A05E9A05E9A05E9
def pctStream : UInt64 := 0x0C700C700C700C70
/-- Mixed into the trace hash when a thread is paused. -/
def pauseMark : UInt64 := 0x9A05E000
/-- Mixed into the trace hash when a change point demotes a thread. -/
def pctMark : UInt64 := 0x0C700000
def maxThreads : Nat := 16384
def maxProcs : Nat := 1024
/-- Site of the switch that the launcher makes for a dead process. -/
def siteProcessDied : UInt64 := 0xFFFFFFFFFFFFFFFF
/-- Key of threads in `waitpid`. -/
def waitKey : Nat := 0x7FFFFFFF0000
/-- Key of threads that wait for a descriptor, whatever their process. -/
def ioKey : Nat := 0x7FFFFFFF0001
/-- Key of sleeping threads. -/
def sleepKey : Nat := 0x7FFFFFFF0002
/-- Key of the main thread of a life that has not begun. -/
def restartKey : Nat := 0x7FFFFFFF0003
/-- A budget that is never used up. -/
def noLimit : Nat := 2 ^ 32 - 1
/-- Raw wait status of a process that died of `SIGKILL`. -/
def killedStatus : Int := 9
def sigalrm : Nat := 14
/-- What a read of the clock adds to it. -/
def perReadNs : Nat := 1000
def defaultSwitchNs : Nat := 10000
def maxPctDepth : Nat := 16

abbrev Pid := Nat
abbrev ThreadId := Nat

/-- Difference of two 64-bit words, as a release build computes it. -/
def wrappingSub (a b : Nat) : Nat :=
  (a + (2 ^ 64 - b % 2 ^ 64)) % 2 ^ 64

inductive ThreadState
  /-- A slot that was never given out. -/
  | unused
  | runnable
  | running
  | blocked
  | exited
  deriving DecidableEq, Repr, Inhabited

inductive ProcState
  /-- A slot that was never given out. -/
  | unused
  /-- Registered by its creator; the process has not attached yet. -/
  | starting
  | live
  | exited
  deriving DecidableEq, Repr, Inhabited

inductive RestartPolicy
  | never
  /-- After a signal or a non-zero exit. -/
  | onFailure
  | always
  deriving DecidableEq, Repr, Inhabited

inductive SchedulerKind
  | random
  | pct
  deriving DecidableEq, Repr, Inhabited

/-- What the run file says about a process's crashes and restarts. -/
structure Faults where
  restart : RestartPolicy := .never
  /-- How long the process stays down before its next life. -/
  restartDelayLoNs : Nat := 0
  restartDelayHiNs : Nat := 0
  restartsLeft : Nat := 0
  /-- How far into a life it is crashed. -/
  crashLoNs : Nat := 0
  crashHiNs : Nat := 0
  crashesLeft : Nat := 0
  /-- How far into a life it is sent its shutdown signal. -/
  shutdownLoNs : Nat := 0
  shutdownHiNs : Nat := 0
  shutdownsLeft : Nat := 0
  shutdownSignal : Nat := 0
  /-- How long after the signal it is crashed. -/
  graceNs : Nat := 0
  deriving DecidableEq, Inhabited

def Faults.useUpRestart (faults : Faults) : Faults :=
  if faults.restartsLeft = noLimit then faults
  else { faults with restartsLeft := faults.restartsLeft - 1 }

/-- How often the scheduler pauses the thread it chose, and for how long. -/
structure Pauses where
  num : Nat := 0
  den : Nat := 1
  loNs : Nat := 10000
  hiNs : Nat := 100000000

structure Scheduler where
  kind : SchedulerKind := .random
  pctDepth : Nat := 3
  pctHorizonNs : Nat := 0
  pctStarveNs : Nat := 50000000

structure ThreadRec where
  state : ThreadState := .unused
  pid : Pid := 0
  /-- What a blocked thread waits for. -/
  key : Nat := 0
  pthread : Nat := 0
  /-- The condition variable it is queued on (0: none). -/
  condKey : Nat := 0
  condSeq : Nat := 0
  signaled : Bool := false
  /-- A bit for each signal sent to this thread and not delivered. -/
  sigPending : Nat := 0
  timedOut : Bool := false
  /-- The process's `outsideWakes` when this thread last looked. -/
  wakesSeen : Nat := 0
  /-- When a blocked thread gives up waiting (0: never). -/
  deadline : Nat := 0
  /-- How often it was handed the baton. -/
  park : Nat := 0
  pausedUntil : Nat := 0
  handlersRun : Nat := 0
  priority : Nat := 0
  /-- Since when it is passed over (0: it is not). -/
  waitingSince : Nat := 0
  deriving Inhabited

structure ProcRec where
  state : ProcState := .unused
  realPid : Int := 0
  host : Nat := 0
  parent : Option Pid := none
  exitStatus : Int := 0
  /-- When its interval timer is due (0: never). -/
  alarmAt : Nat := 0
  /-- What re-arms the timer (0: nothing does). -/
  alarmInterval : Nat := 0
  /-- A bit for each signal sent to it and not delivered. -/
  sigPending : Nat := 0
  sigCounts : Nat → Nat := fun _ => 0
  diedAt : Nat := 0
  /-- The parent has collected the exit. -/
  reaped : Bool := false
  /-- It is as good as dead, though the launcher has not seen the exit. -/
  killed : Bool := false
  childDeaths : Nat := 0
  lastDeadChild : Pid := 0
  /-- Bumped by wakes from threads that the scheduler does not run. -/
  outsideWakes : Nat := 0
  hasOutsideThreads : Bool := false
  faults : Faults := {}
  /-- When this life is crashed (0: not). -/
  crashAt : Nat := 0
  /-- When this life is sent its shutdown signal (0: not). -/
  shutdownAt : Nat := 0
  /-- The end of the grace period of a shutdown under way (0: none). -/
  killAt : Nat := 0
  shutDown : Bool := false
  replacedBy : Option Pid := none
  signalled : Bool := false
  unsettled : Bool := false
  stopped : Bool := false
  spec : Option Nat := none
  deriving Inhabited

/-- The state the processes of a run share.  The last field is not in the
source: it records that a sum of times did not fit its 64 bits. -/
structure State where
  rng : Rng := {}
  quantumLo : Nat := 0
  quantumHi : Nat := 0
  /-- What each hand-off adds to the clock. -/
  switchNs : Nat := 0
  issued : Nat := 0
  switches : Nat := 0
  traceHash : UInt64 := 0
  pendingQuantum : Nat := 0
  clockNs : Nat := 0
  /-- Whoever was last given the baton. -/
  current : Option ThreadId := none
  nthreads : Nat := 0
  nprocs : Nat := 0
  nextCondSeq : Nat := 0
  faultRng : Rng := {}
  pauseRng : Rng := {}
  pauseNum : Nat := 0
  pauseDen : Nat := 0
  pauseLoNs : Nat := 0
  pauseHiNs : Nat := 0
  pauses : Nat := 0
  scheduler : SchedulerKind := .random
  pctRng : Rng := {}
  pctStarveNs : Nat := 0
  pctHorizonNs : Nat := 0
  /-- The change points, ascending. -/
  pctChangeAt : List Nat := []
  /-- How many of them were passed. -/
  pctNext : Nat := 0
  pctChanges : Nat := 0
  pctStarved : Nat := 0
  /-- One more than the time of the reseed (0: never). -/
  reseedAt : Nat := 0
  reseedWith : UInt64 := 0
  reseeded : Bool := false
  crashesInjected : Nat := 0
  shutdownsInjected : Nat := 0
  shutdownsForced : Nat := 0
  restarts : Nat := 0
  /-- When the run is over (0: when its processes are). -/
  stopAtNs : Nat := 0
  stopped : Bool := false
  /-- Kills not handed out yet. -/
  unsignalled : Nat := 0
  /-- Crashed processes whose real death was not waited out. -/
  unsettled : Nat := 0
  threads : ThreadId → ThreadRec := fun _ => {}
  procs : Pid → ProcRec := fun _ => {}
  net : Net := {}
  overflow : Bool := false

namespace ProcRec

/-- Neither dead nor as good as dead. -/
def alive (p : ProcRec) : Bool :=
  p.state ≠ .exited && !p.killed

/-- When this life is due to be crashed, if it still is. -/
def pendingCrash (p : ProcRec) : Option Nat :=
  if p.crashAt ≠ 0 ∧ p.alive then some p.crashAt else none

/-- When this life is due to be sent its shutdown signal, or crashed at the end
of its grace period, if it still is. -/
def pendingShutdown (p : ProcRec) : Option Nat :=
  match ([p.shutdownAt, p.killAt].filter (· ≠ 0)).min? with
  | some due => if p.alive then some due else none
  | none => none

/-- When its timer is due, if it is armed. -/
def pendingAlarm (p : ProcRec) : Option Nat :=
  if p.state ≠ .exited ∧ p.alarmAt ≠ 0 then some p.alarmAt else none

/-- A signal is pending against the process. -/
def addSignal (sig : Nat) (p : ProcRec) : ProcRec :=
  { p with
    sigPending := p.sigPending ||| 2 ^ sig
    sigCounts := Function.update p.sigCounts sig (p.sigCounts sig + 1) }

def setAlarmAt (alarmAt : Nat) (p : ProcRec) : ProcRec :=
  { p with alarmAt := alarmAt }

/-- A child died. -/
def noteChild (child : Pid) (p : ProcRec) : ProcRec :=
  { p with childDeaths := p.childDeaths + 1, lastDeadChild := child }

def setCrashAt (crashAt : Nat) (p : ProcRec) : ProcRec :=
  { p with crashAt := crashAt }

def setShutdownAt (shutdownAt : Nat) (p : ProcRec) : ProcRec :=
  { p with shutdownAt := shutdownAt }

def setReplacedBy (new : Pid) (p : ProcRec) : ProcRec :=
  { p with replacedBy := some new }

/-- A new life has the settings of the one before. -/
def inherit
    (faults : Faults)
    (spec : Option Nat)
    (p : ProcRec) : ProcRec :=
  { p with faults := faults, spec := spec }

/-- No crash and no shutdown is ahead any more. -/
def clearFaultTimes (p : ProcRec) : ProcRec :=
  { p with crashAt := 0, shutdownAt := 0, killAt := 0 }

/-- A violent death at a time. -/
def condemn (now : Nat) (p : ProcRec) : ProcRec :=
  { p.clearFaultTimes with killed := true, diedAt := now }

def useUpCrash (p : ProcRec) : ProcRec :=
  if p.faults.crashesLeft = noLimit then p
  else
    { p with
      faults := { p.faults with crashesLeft := p.faults.crashesLeft - 1 } }

def useUpShutdown (p : ProcRec) : ProcRec :=
  if p.faults.shutdownsLeft = noLimit then p
  else
    { p with
      faults :=
        { p.faults with shutdownsLeft := p.faults.shutdownsLeft - 1 } }

/-- The shutdown is under way until the end of its grace period. -/
def beginGrace (killAt : Nat) (p : ProcRec) : ProcRec :=
  { p with shutdownAt := 0, killAt := killAt, shutDown := true }

end ProcRec

namespace ThreadRec

def setState (state : ThreadState) (t : ThreadRec) : ThreadRec :=
  { t with state := state }

/-- A blocked thread is made runnable. -/
def wake (t : ThreadRec) : ThreadRec :=
  if t.state = .blocked then t.setState .runnable else t

/-- The thread leaves the schedule for good. -/
def retire (t : ThreadRec) : ThreadRec :=
  { t with state := .exited, condKey := 0, deadline := 0 }

/-- Blocked, with a deadline that has passed. -/
def expired (now : Nat) (t : ThreadRec) : Bool :=
  t.state = .blocked && t.deadline ≠ 0 && t.deadline ≤ now

/-- The wait ends because its deadline passed. -/
def timeOut (t : ThreadRec) : ThreadRec :=
  { t with deadline := 0, timedOut := true, state := .runnable }

/-- The main thread of a new life waits for its beginning. -/
def awaitStart (starts : Nat) (t : ThreadRec) : ThreadRec :=
  { t with state := .blocked, key := restartKey, deadline := starts }

/-- Runnable, and not held back by a pause. -/
def candidate (honourPauses : Bool) (now : Nat) (t : ThreadRec) : Bool :=
  t.state = .runnable && (!honourPauses || t.pausedUntil ≤ now)

end ThreadRec

namespace State

def modifyThread
    (s : State)
    (id : ThreadId)
    (change : ThreadRec → ThreadRec) : State :=
  { s with threads := Function.update s.threads id (change (s.threads id)) }

def modifyProc
    (s : State)
    (pid : Pid)
    (change : ProcRec → ProcRec) : State :=
  { s with procs := Function.update s.procs pid (change (s.procs pid)) }

/-- Change the records of all threads that were registered. -/
def mapLive (s : State) (change : ThreadRec → ThreadRec) : State :=
  { s with
    threads := fun id =>
      if id < s.nthreads then change (s.threads id) else s.threads id }

/-- Change the records of all processes that were registered. -/
def mapProcs (s : State) (change : ProcRec → ProcRec) : State :=
  { s with
    procs := fun pid =>
      if pid < s.nprocs then change (s.procs pid) else s.procs pid }

/-- The registered threads, by id. -/
def live (s : State) : List ThreadId :=
  List.range s.nthreads

/-- The registered processes, by index. -/
def pids (s : State) : List Pid :=
  List.range s.nprocs

/-- Note a sum of two times. -/
def noteAdd (s : State) (a b : Nat) : State :=
  { s with overflow := s.overflow || addOverflows a b }

def setNet (s : State) (net : Net) : State :=
  { s with net := net }

def setFaultRng (s : State) (faultRng : Rng) : State :=
  { s with faultRng := faultRng }

def setClock (s : State) (clockNs : Nat) : State :=
  { s with clockNs := clockNs }

end State

end Derp

import Derp.Sched.Pick
import Mathlib.Data.Nat.Bitwise

/-!
# Steps of the schedule

A step is one critical section under the lock of the shared state: the launcher
sets a run up and reports deaths, and the threads of the run register others,
give the baton up, wake each other, send signals, read the clock and use the
network.  What the callers check before they call is a condition of a step.
-/

namespace Derp
namespace State

/-- The critical sections of a run. -/
inductive Op
  | setScheduler (sched : Scheduler)
  | setPauses (pauses : Pauses)
  | setSwitchCost (ns : Nat)
  | setStopAt (ns : Nat)
  | stopNow
  | setReseed (at' : Nat) (seed : UInt64)
  | addProc (host : Nat) (parent : Option Pid)
  | addThread (pid : Pid)
  | setFaults (pid : Pid) (faults : Faults) (spec : Nat)
  | attach (pid : Pid) (realPid : Int)
  /-- A child that never came to be. -/
  | unregister (child : Pid)
  | setAlarm (pid : Pid) (value interval : Nat)
  | reap (pid : Pid)
  | setDeadline (id : ThreadId) (deadline : Nat)
  | handOff (src : Option (ThreadId × ThreadState × Nat)) (site : UInt64)
  | choose (me : Option ThreadId) (site : UInt64)
  | crash (victim : Pid)
  | processDied (pid : Pid) (status : Int)
  | wakeAll (pid : Pid) (key : Nat)
  | wakeIo
  | wakeThread (id : ThreadId)
  | postSignal (pid : Pid) (sig : Nat)
  /-- `pthread_kill` to another thread. -/
  | threadKill (id : ThreadId) (sig : Nat)
  /-- A thread takes the pending signals up that it does not mask. -/
  | takeSignals (id : ThreadId) (unmasked : Nat)
  | condEnqueue (id : ThreadId) (cond : Nat)
  | condWake (pid : Pid) (cond : Nat) (all : Bool)
  /-- A thread that the scheduler does not run woke someone. -/
  | noteOutsideWake (pid : Pid)
  | clockRead
  | renewQuantum
  | takeKills
  | settleDeaths
  | forgetUnsettled
  | net (op : Net.Op)

/-- What a critical section answers. -/
inductive Answer
  | done
  | proc (pid : Pid)
  | thread (id : ThreadId)
  | handoff (handoff : Handoff)
  | died (handoff : Option Handoff)
  | clock (now : Nat)
  | kills (real : List Int)
  | settled (all : Bool)
  | net (answer : Except NetError Net.Answer)

def setSwitchCost (s : State) (ns : Nat) : State :=
  { s with switchNs := ns }

def setStopAt (s : State) (ns : Nat) : State :=
  { s with stopAtNs := ns }

/-- The times are 64-bit words, and one more than the last is the last. -/
def setReseed (s : State) (at' : Nat) (seed : UInt64) : State :=
  { s with reseedAt := min (at' + 1) (2 ^ 64 - 1), reseedWith := seed }

def attach (s : State) (pid : Pid) (realPid : Int) : State :=
  s.modifyProc pid fun p => { p with state := .live, realPid := realPid }

/-- The child never came to be: nobody will run or reap it. -/
def unregister (s : State) (child : Pid) : State :=
  (s.modifyProc child fun p =>
    { p with state := .exited, reaped := true }).mapLive fun t =>
      if t.pid = child then t.setState .exited else t

/-- Set the interval timer of `pid` (a value of 0 disarms it). -/
def setAlarm (s : State) (pid : Pid) (value interval : Nat) : State :=
  if value = 0 then
    s.modifyProc pid fun p => { p with alarmAt := 0, alarmInterval := 0 }
  else
    let s := s.noteAdd s.clockNs value
    s.modifyProc pid fun p =>
      { p with
        alarmAt := wrappingAdd s.clockNs value
        alarmInterval := interval }

def reap (s : State) (pid : Pid) : State :=
  s.modifyProc pid fun p => { p with reaped := true }

/-- The deadline that a thread records before it gives the baton up (0: none);
it starts to wait. -/
def setDeadline (s : State) (id : ThreadId) (deadline : Nat) : State :=
  s.modifyThread id fun t =>
    { t with deadline := deadline, timedOut := false }

/-- A signal is pending against one thread. -/
def threadKill (s : State) (id : ThreadId) (sig : Nat) : State :=
  s.modifyThread id fun t => { t with sigPending := t.sigPending ||| 2 ^ sig }

/-- The thread takes the signals that are pending against its process or itself
and that it does not mask. -/
def takeSignals (s : State) (id : ThreadId) (unmasked : Nat) : State :=
  (s.modifyProc (s.threads id).pid fun p =>
    { p with sigPending := p.sigPending.ldiff unmasked }).modifyThread id
      fun t => { t with sigPending := t.sigPending.ldiff unmasked }

def noteOutsideWake (s : State) (pid : Pid) : State :=
  s.modifyProc pid fun p =>
    { p with outsideWakes := p.outsideWakes + 1, hasOutsideThreads := true }

/-- Carry a critical section out.  There is no outcome when a choice needs more
fuel. -/
def exec (fuel : Nat) (s : State) : Op → Option (State × Answer)
  | .setScheduler sched => some (s.setScheduler sched, .done)
  | .setPauses pauses => some (s.setPauses pauses, .done)
  | .setSwitchCost ns => some (s.setSwitchCost ns, .done)
  | .setStopAt ns => some (s.setStopAt ns, .done)
  | .stopNow => some (s.setStopAt (max 1 s.clockNs), .done)
  | .setReseed at' seed => some (s.setReseed at' seed, .done)
  | .addProc host parent =>
      let (s, pid) := s.addProc host parent
      some (s, .proc pid)
  | .addThread pid =>
      let (s, id) := s.addThread pid
      some (s, .thread id)
  | .setFaults pid faults spec => some (s.setFaults pid faults spec, .done)
  | .attach pid realPid => some (s.attach pid realPid, .done)
  | .unregister child => some (s.unregister child, .done)
  | .setAlarm pid value interval => some (s.setAlarm pid value interval, .done)
  | .reap pid => some (s.reap pid, .done)
  | .setDeadline id deadline => some (s.setDeadline id deadline, .done)
  | .handOff src site =>
      (s.handOff fuel src site).map fun (s, handoff) => (s, .handoff handoff)
  | .choose me site =>
      (s.choose fuel me site).map fun (s, handoff) => (s, .handoff handoff)
  | .crash victim => some (s.crash victim, .done)
  | .processDied pid status =>
      (s.processDied fuel pid status).map fun (s, handoff) =>
        (s, .died handoff)
  | .wakeAll pid key => some (s.wakeAll pid key, .done)
  | .wakeIo => some (s.wakeIo, .done)
  | .wakeThread id => some (s.wakeThread id, .done)
  | .postSignal pid sig => some (s.postSignal pid sig, .done)
  | .threadKill id sig => some (s.threadKill id sig, .done)
  | .takeSignals id unmasked => some (s.takeSignals id unmasked, .done)
  | .condEnqueue id cond => some (s.condEnqueue id cond, .done)
  | .condWake pid cond all => some (s.condWake pid cond all, .done)
  | .noteOutsideWake pid => some (s.noteOutsideWake pid, .done)
  | .clockRead => some (s.clockRead, .clock s.clockRead.clockNs)
  | .renewQuantum => some (s.renewQuantum, .done)
  | .takeKills =>
      let (s, real) := s.takeKills
      some (s, .kills real)
  | .settleDeaths =>
      let (s, all) := s.settleDeaths
      some (s, .settled all)
  | .forgetUnsettled => some (s.forgetUnsettled, .done)
  | .net op =>
      (s.net.exec op).map fun (net, answer) => (s.setNet net, .net answer)

/-- A process of the run that is neither dead nor as good as dead. -/
def Alive (s : State) (pid : Pid) : Prop :=
  pid < s.nprocs ∧ (s.procs pid).alive = true

/-- The thread has the baton, and has not exited. -/
def Holds (s : State) (id : ThreadId) : Prop :=
  s.current = some id ∧ id < s.nthreads ∧ (s.threads id).state ≠ .exited

/-- What the callers check before they call.  The scheduler is set before there
are threads, with a horizon of 64 bits; a process and its threads are registered
by a process of the run
or before it begins, while the tables have room; its faults are set once; the
baton is given up by the thread that has it, and looked for again by the one
that found the run idle; a process that is crashed by another has not got the
baton; a life that has not begun is woken by nobody; and the scheduler itself
moves the network's clock and buries its processes. -/
def Possible (s : State) : Op → Prop
  | .setScheduler sched => s.nthreads = 0 ∧ sched.pctHorizonNs < 2 ^ 64
  | .addProc _ parent => s.nprocs < maxProcs ∧ ∀ pid ∈ parent, pid < s.nprocs
  | .addThread pid => s.nthreads < maxThreads ∧ s.Alive pid
  | .setFaults pid _ _ => s.Alive pid ∧ (s.procs pid).spec = none
  | .attach pid _ => pid < s.nprocs ∧ (s.procs pid).state ≠ .exited
  | .unregister child => s.Alive child ∧ (s.procs child).spec = none ∧
      ∀ id ∈ s.current, (s.threads id).pid ≠ child
  | .setAlarm pid _ _ => s.Alive pid
  | .reap pid => pid < s.nprocs
  | .setDeadline id _ => s.Holds id
  | .handOff none _ => s.current = none
  | .handOff (some (id, state, _)) _ => s.Holds id ∧
      (state = .runnable ∨ state = .blocked ∨ state = .exited)
  | .choose none _ => False
  | .choose (some id) _ =>
      s.current = some id ∧ (s.threads id).state ≠ .running
  | .crash victim => s.Alive victim ∧
      ∀ id ∈ s.current, (s.threads id).pid ≠ victim
  | .processDied pid _ => pid < s.nprocs
  | .wakeAll _ key => key ≠ restartKey
  | .wakeThread id => id < s.nthreads ∧ (s.threads id).key ≠ restartKey
  | .postSignal pid sig => pid < s.nprocs ∧ 0 < sig ∧ sig < 32
  | .threadKill id sig => id < s.nthreads ∧ 0 < sig ∧ sig < 32 ∧
      (s.threads id).state ≠ .exited
  | .takeSignals id _ => s.Holds id
  | .condEnqueue id cond => s.Holds id ∧ cond ≠ 0
  | .condWake _ cond _ => cond ≠ 0
  | .noteOutsideWake pid => pid < s.nprocs
  | .net (.died _) => False
  | .net (.advance _) => False
  | .net op => s.net.Admissible op
  | _ => True

instance (s : State) (pid : Pid) : Decidable (s.Alive pid) :=
  inferInstanceAs (Decidable (_ ∧ _))

instance (s : State) (id : ThreadId) : Decidable (s.Holds id) :=
  inferInstanceAs (Decidable (_ ∧ _ ∧ _))

instance (s : State) (op : Op) : Decidable (s.Possible op) := by
  unfold Possible
  split <;> infer_instance

/-- A critical section with its answer. -/
abbrev Event := Op × Answer

/-- The runs of the schedule from a run that has not begun. -/
def schedule : Transition State Event where
  init := fun s => ∃ seed quantumLo quantumHi names latencyNs,
    s = initial seed quantumLo quantumHi names latencyNs
  step := fun s event later =>
    s.Possible event.1 ∧ ∃ fuel, s.exec fuel event.1 = some (later, event.2)

/-- Carry out critical sections one after the other, as long as they are
possible. -/
def play (fuel : Nat) : List Op → State → Option State
  | [], s => some s
  | op :: ops, s =>
      if s.Possible op then
        (s.exec fuel op).bind fun result => play fuel ops result.1
      else none

theorem run_play
    {fuel : Nat}
    {ops : List Op}
    {s later : State}
    (played : play fuel ops s = some later) :
    ∃ events, events.map Prod.fst = ops ∧ schedule.Run s events later := by
  induction ops generalizing s with
  | nil =>
      obtain rfl := Option.some.inj played
      exact ⟨[], rfl, .refl s⟩
  | cons op ops inductionHypothesis =>
      unfold play at played
      split at played
      · next possible =>
          rw [Option.bind_eq_some_iff] at played
          obtain ⟨⟨middle, answer⟩, done, rest⟩ := played
          obtain ⟨events, rfl, run⟩ := inductionHypothesis rest
          have step : schedule.step s (op, answer) middle :=
            ⟨possible, fuel, done⟩
          exact ⟨(op, answer) :: events, rfl, run.cons step⟩
      · cases played

theorem reachable_play
    {fuel : Nat}
    {ops : List Op}
    {s later : State}
    (reachable : schedule.Reachable s)
    (played : play fuel ops s = some later) : schedule.Reachable later := by
  obtain ⟨events, -, run⟩ := run_play played
  exact run.reachable reachable

/-- The state that critical sections lead to from a run that has not begun, if
they can be carried out. -/
def played (fuel : Nat) (ops : List Op) : State :=
  (play fuel ops (initial 1 1 1 [] 0)).getD (initial 1 1 1 [] 0)

theorem reachable_played
    {fuel : Nat}
    {ops : List Op}
    (possible : (play fuel ops (initial 1 1 1 [] 0)).isSome = true) :
    schedule.Reachable (played fuel ops) := by
  obtain ⟨s, done⟩ := Option.isSome_iff_exists.1 possible
  have same : played fuel ops = s := by
    unfold played
    rw [done]
    rfl
  rw [same]
  exact reachable_play (.start ⟨1, 1, 1, [], 0, rfl⟩) done

end State
end Derp

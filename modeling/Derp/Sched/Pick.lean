import Derp.Library.Loop
import Derp.Sched.Events

/-!
# Choosing who runs

The scheduler lets everything happen that is due, jumps the clock from event to
event while no thread can run, and chooses among those that can.  The baton is
handed over when its holder gives it up, and when the launcher finds that the
holder's process died.
-/

namespace Derp

/-- Mix a word into a hash, byte by byte. -/
def fnv (hash value : UInt64) : UInt64 :=
  (toLittleEndian 8 value.toNat).foldl
    (fun hash byte => (hash ^^^ byte.toUInt64) * 0x100000001B3) hash

/-- What the scheduler tells a thread that gives the baton up. -/
inductive Handoff
  /-- The thread keeps the baton. -/
  | stay
  /-- Another thread has the baton. -/
  | switch (next : ThreadId) (seen : Nat)
  /-- Nothing can run. -/
  | idle
  deriving DecidableEq, Repr

namespace State

/-! ## Events -/

/-- Every random stream starts over from the seed of the reseed. -/
def reseed (s : State) : State :=
  { s with
    reseeded := true
    rng := Rng.seedFromU64 s.reseedWith
    faultRng := Rng.seedFromU64 (s.reseedWith ^^^ faultStream)
    pauseRng := Rng.seedFromU64 (s.reseedWith ^^^ pauseStream)
    pctRng := Rng.seedFromU64 (s.reseedWith ^^^ pctStream) }

def reseedDue (s : State) : Bool :=
  s.reseedAt ≠ 0 && !s.reseeded && s.reseedAt ≤ wrappingAdd s.clockNs 1

def reseedIfDue (s : State) : State :=
  if s.reseedDue then s.reseed else s

/-- What a choice does first. -/
def entered (s : State) : State :=
  s.reseedIfDue.handleDue

/-- The loop of `pick` is over when a thread can run, or when none ever will:
none is left, or no event is pending. -/
def pickOver (s : State) : Option Bool :=
  if s.runnable ≠ 0 then some true
  else if ¬s.anyAlive then some false
  else
    match s.nextEvent with
    | none => some false
    | some _ => none

/-- A round of the loop of `pick`: the clock jumps to the next event. -/
def pickRound (s : State) : State :=
  match s.nextEvent with
  | none => s
  | some next => (s.jump next).handleDue

/-! ## Choices -/

/-- The runnable threads, by id; paused ones are passed over when
`honourPauses`. -/
def candidates (s : State) (honourPauses : Bool) : List ThreadId :=
  s.live.filter fun id => (s.threads id).candidate honourPauses s.clockNs

/-- A change point: the thread that last held the baton drops to its number. -/
def passPoint (s : State) : State :=
  let s := { s with pctNext := s.pctNext + 1 }
  match s.current with
  | some holder =>
      if holder < s.nthreads then
        let s := s.modifyThread holder fun t =>
          { t with priority := s.pctNext }
        { s with
          pctChanges := s.pctChanges + 1
          traceHash := fnv (fnv s.traceHash pctMark) (UInt64.ofNat holder) }
      else s
  | none => s

/-- The loop of `pctChangePoints`, one change point a round. -/
def passPoints : Nat → State → State
  | 0, s => s
  | points + 1, s =>
      match s.pctChangeAt[s.pctNext]? with
      | some due =>
          if due ≤ s.clockNs then passPoints points s.passPoint else s
      | none => s

/-- Pass the change points that the clock has reached. -/
def pctChangePoints (s : State) : State :=
  passPoints (s.pctChangeAt.length - s.pctNext) s

/-- One of the `count` candidates, drawn uniformly. -/
def nthCandidate
    (s : State)
    (honourPauses : Bool)
    (count : Nat) : State × ThreadId :=
  let (n, rng) := s.rng.below count
  ({ s with rng := rng }, (s.candidates honourPauses)[n]?.getD s.nthreads)

/-- Whether a thread has been passed over for too long. -/
def starves (s : State) (t : ThreadRec) : Bool :=
  t.waitingSince ≠ 0 &&
    s.pctStarveNs ≤ wrappingSub s.clockNs t.waitingSince

/-- The candidate that was passed over longest, if one was for too long. -/
def starvedCandidate (s : State) (honourPauses : Bool) : Option ThreadId :=
  ((s.candidates honourPauses).filter fun id => s.starves (s.threads id)).argmin
    fun id => (s.threads id).waitingSince

/-- The candidate of the highest priority. -/
def highestCandidate (s : State) (honourPauses : Bool) : Option ThreadId :=
  (s.candidates honourPauses).argmax fun id => (s.threads id).priority

/-- The chosen thread waits no longer, and the other runnable ones are passed
over from now on, if they were not yet. -/
def passOver (s : State) (chosen : ThreadId) : State :=
  { s with
    threads := fun id =>
      let t := s.threads id
      if s.nthreads ≤ id then t
      else if id = chosen then { t with waitingSince := 0 }
      else if t.state = .runnable ∧ t.waitingSince = 0 then
        { t with waitingSince := max 1 s.clockNs }
      else t }

/-- The next holder among the `count` candidates. -/
def chooseCandidate
    (s : State)
    (honourPauses : Bool)
    (count : Nat) : State × ThreadId :=
  if s.scheduler ≠ .pct ∨ s.pctHorizonNs ≤ s.clockNs then
    s.nthCandidate honourPauses count
  else
    match s.starvedCandidate honourPauses with
    | some chosen =>
        ({ s with pctStarved := s.pctStarved + 1 }.passOver chosen, chosen)
    | none =>
        let chosen := (s.highestCandidate honourPauses).getD s.nthreads
        (s.passOver chosen, chosen)

/-- Whether this choice pauses the chosen thread. -/
def drawPause (s : State) : State × Bool :=
  if s.pauseNum = 0 then (s, false)
  else
    let (draw, pauseRng) := s.pauseRng.below s.pauseDen
    ({ s with pauseRng := pauseRng }, draw < s.pauseNum)

/-- Pause the chosen thread for a time that is drawn. -/
def pause (s : State) (chosen : ThreadId) : State :=
  let (length, pauseRng) := s.pauseRng.logUniform s.pauseLoNs s.pauseHiNs
  let s := { s with pauseRng := pauseRng }.noteAdd s.clockNs length
  let s := s.modifyThread chosen fun t =>
    { t with pausedUntil := wrappingAdd s.clockNs length }
  { s with
    pauses := s.pauses + 1
    traceHash := fnv (fnv s.traceHash pauseMark) (UInt64.ofNat chosen) }

/-- The end of `pick`, with a thread that can run.  A pause holds a thread back
only while another can run. -/
def chooseThread (s : State) : State × ThreadId :=
  let runnable := s.runnable
  let unpaused := (s.candidates true).length
  let s := s.pctChangePoints
  if unpaused = 0 then s.chooseCandidate false runnable
  else
    let (s, chosen) := s.chooseCandidate true unpaused
    if unpaused = 1 then (s, chosen)
    else
      match s.drawPause with
      | (s, false) => (s, chosen)
      | (s, true) => (s.pause chosen).chooseCandidate true (unpaused - 1)

/-- Choose the next baton holder.  There is no outcome when the fuel is used up
before the loop is over. -/
def pick (fuel : Nat) (s : State) : Option (State × Option ThreadId) :=
  (Loop.run pickOver pickRound fuel s.entered).map fun (s, found) =>
    if found then
      let (s, chosen) := s.chooseThread
      (s, some chosen)
    else (s, none)

/-! ## The baton -/

def nextQuantum (s : State) : State × Nat :=
  let (quantum, rng) := s.rng.rangeInclusive s.quantumLo s.quantumHi
  ({ s with rng := rng, issued := s.issued + quantum }, quantum)

/-- Draw a fresh quantum for a thread that keeps running. -/
def renewQuantum (s : State) : State :=
  let (s, quantum) := s.nextQuantum
  { s with pendingQuantum := quantum }

/-- A switch from one thread to another is mixed into the trace. -/
def traceSwitch
    (s : State)
    (me next : ThreadId)
    (site : UInt64) : State :=
  let hash := fnv (fnv s.traceHash (UInt64.ofNat me)) (UInt64.ofNat next)
  { s with
    switches := s.switches + 1
    traceHash := fnv (fnv hash (UInt64.ofNat s.issued)) site }

/-- The chosen thread gets the baton. -/
def giveBaton
    (s : State)
    (me : Option ThreadId)
    (next : ThreadId)
    (site : UInt64) : State × Handoff :=
  let s := s.renewQuantum.modifyThread next (.setState .running)
  if me = some next then (s, .stay)
  else
    let s := me.elim s fun me => s.traceSwitch me next site
    let s := { s with current := some next }.modifyThread next fun t =>
      { t with park := t.park + 1 }
    (s, .switch next (me.elim 0 fun me => (s.threads me).park))

/-- The choosing half of `handOff`, for a caller whose state is recorded. -/
def choose
    (fuel : Nat)
    (s : State)
    (me : Option ThreadId)
    (site : UInt64) : Option (State × Handoff) :=
  (s.pick fuel).map fun (s, next) =>
    match next with
    | none => (s, .idle)
    | some next => s.giveBaton me next site

/-- Record the caller's new state; every hand-off by a thread costs time. -/
def recorded
    (s : State)
    (src : Option (ThreadId × ThreadState × Nat)) : State :=
  match src with
  | none => s
  | some (id, state, key) =>
      let s := s.modifyThread id fun t => { t with state := state, key := key }
      (s.noteAdd s.clockNs s.switchNs).setClock
        (wrappingAdd s.clockNs s.switchNs)

/-- Record the caller's new state and pass the baton. -/
def handOff
    (fuel : Nat)
    (s : State)
    (src : Option (ThreadId × ThreadState × Nat))
    (site : UInt64) : Option (State × Handoff) :=
  (s.recorded src).choose fuel (src.map Prod.fst) site

/-- The thread of `pid` that was last given the baton, if it is one of its. -/
def heldBy (s : State) (pid : Pid) : Option ThreadId :=
  s.current.filter fun id => id < s.nthreads && (s.threads id).pid = pid

/-- What the death of a process that was not crashed means to the run. -/
def mourn (s : State) (pid : Pid) (status : Int) : State :=
  let s := s.registerRestart pid status
  let s := s.modifyProc pid .clearFaultTimes
  let s := s.setNet (s.net.processDied pid)
  let s := s.wakeIo
  s.tellParent pid

/-- The launcher's report of a death, up to the hand-off it may end with. -/
def buried (s : State) (pid : Pid) (status : Int) : State :=
  let s := s.modifyProc pid fun p =>
    { p with
      state := .exited
      exitStatus := status
      diedAt := if p.diedAt = 0 then max 1 s.clockNs else p.diedAt }
  -- A crashed process died to the run when it was crashed.
  let s := if (s.procs pid).killed then s else s.mourn pid status
  s.mapLive fun t => if t.pid = pid ∧ t.state ≠ .exited then t.retire else t

/-- A process is gone: its threads are retired, and if one of them held the
baton it is passed on. -/
def processDied
    (fuel : Nat)
    (s : State)
    (pid : Pid)
    (status : Int) : Option (State × Option Handoff) :=
  let s := s.buried pid status
  match s.heldBy pid with
  | none => some (s, none)
  | some id =>
      (s.handOff fuel (some (id, .exited, 0)) siteProcessDied).map
        fun (s, handoff) => (s, some handoff)

/-! ## Settings and small operations -/

def setScheduler (s : State) (sched : Scheduler) : State :=
  let s := { s with scheduler := sched.kind }
  match sched.kind with
  | .random => s
  | .pct =>
      let horizon := max 1 sched.pctHorizonNs
      let draw (state : List Nat × Rng) : List Nat × Rng :=
        let (at', rng) := state.2.below horizon
        (state.1 ++ [at'], rng)
      let (points, pctRng) :=
        draw^[max 1 (min sched.pctDepth maxPctDepth) - 1] ([], s.pctRng)
      { s with
        pctStarveNs := sched.pctStarveNs
        pctHorizonNs := horizon
        pctRng := pctRng
        pctChangeAt := points.mergeSort
        pctNext := 0 }

def setPauses (s : State) (pauses : Pauses) : State :=
  { s with
    pauseNum := pauses.num
    pauseDen := pauses.den
    pauseLoNs := pauses.loNs
    pauseHiNs := pauses.hiNs }

/-- A read of the clock: every read moves it a little. -/
def clockRead (s : State) : State :=
  ((s.noteAdd s.clockNs perReadNs).setClock
    (wrappingAdd s.clockNs perReadNs)).clockMoved

/-- Whether a live process has threads outside the scheduler, which could still
wake someone when the run looks idle. -/
def anyOutsideThreads (s : State) : Bool :=
  s.pids.any fun pid =>
    (s.procs pid).state = .live && (s.procs pid).hasOutsideThreads

/-- The state of a run that has not begun, with the seed and the quanta of the
run, its hosts and its latency. -/
def initial
    (seed : UInt64)
    (quantumLo quantumHi : Nat)
    (names : List (List UInt8))
    (latencyNs : Nat) : State where
  rng := Rng.seedFromU64 seed
  faultRng := Rng.seedFromU64 (seed ^^^ faultStream)
  pauseRng := Rng.seedFromU64 (seed ^^^ pauseStream)
  pctRng := Rng.seedFromU64 (seed ^^^ pctStream)
  quantumLo := quantumLo
  quantumHi := quantumHi
  switchNs := defaultSwitchNs
  traceHash := 0xCBF29CE484222325
  nextCondSeq := 1
  net := Net.zeroed names latencyNs

end State
end Derp

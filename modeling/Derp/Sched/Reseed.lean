import Derp.Sched.Alike

/-!
# Runs that are reseeded before they begin

The reseed that is due before the first hand-off starts every stream over.  What
was drawn before it stays: two runs with other seeds go on alike if the same was
drawn in both.
-/

namespace Derp
namespace State

variable
  {s t later later' : State}
  {id : ThreadId}
  {fuel fuel' : Nat}
  {op : Op}
  {answer answer' : Answer}

/-! ## One run goes one way -/

theorem pick_unique
    {result result' : State × Option ThreadId}
    (picked : s.pick fuel = some result)
    (again : s.pick fuel' = some result') : result = result' := by
  unfold pick at picked again
  obtain ⟨end', run, rfl⟩ := Option.map_eq_some_iff.1 picked
  obtain ⟨end'', run', rfl⟩ := Option.map_eq_some_iff.1 again
  rw [Loop.run_unique run run']

theorem choose_unique
    {me : Option ThreadId}
    {site : UInt64}
    {result result' : State × Handoff}
    (chosen : s.choose fuel me site = some result)
    (again : s.choose fuel' me site = some result') : result = result' := by
  unfold choose at chosen again
  obtain ⟨picked, run, rfl⟩ := Option.map_eq_some_iff.1 chosen
  obtain ⟨picked', run', rfl⟩ := Option.map_eq_some_iff.1 again
  rw [pick_unique run run']

theorem processDied_unique
    {pid : Pid}
    {status : Int}
    {result result' : State × Option Handoff}
    (died : s.processDied fuel pid status = some result)
    (again : s.processDied fuel' pid status = some result') :
    result = result' := by
  unfold processDied at died again
  dsimp only at died again
  split at died
  · next held =>
      rw [held] at again
      exact Option.some.inj (died.symm.trans again)
  · next id held =>
      rw [held] at again
      obtain ⟨handed, run, rfl⟩ := Option.map_eq_some_iff.1 died
      obtain ⟨handed', run', rfl⟩ := Option.map_eq_some_iff.1 again
      rw [choose_unique run run']

/-- What an operation does is a function of the state. -/
theorem exec_unique
    {result result' : State × Answer}
    (done : s.exec fuel op = some result)
    (again : s.exec fuel' op = some result') : result = result' := by
  cases op with
  | handOff src site =>
      obtain ⟨handed, run, rfl⟩ := Option.map_eq_some_iff.1 done
      obtain ⟨handed', run', rfl⟩ := Option.map_eq_some_iff.1 again
      rw [choose_unique run run']
  | choose me site =>
      obtain ⟨chosen, run, rfl⟩ := Option.map_eq_some_iff.1 done
      obtain ⟨chosen', run', rfl⟩ := Option.map_eq_some_iff.1 again
      rw [choose_unique run run']
  | processDied pid status =>
      obtain ⟨died, run, rfl⟩ := Option.map_eq_some_iff.1 done
      obtain ⟨died', run', rfl⟩ := Option.map_eq_some_iff.1 again
      rw [processDied_unique run run']
  | _ => exact Option.some.inj (done.symm.trans again)

/-! ## Before the first hand-off -/

/-- An event in which nobody looked for a thread to run. -/
def early : Event → Bool
  | (.processDied _ _, .died none) => true
  | (op, _) => op.still

/-- The reseed is as it was, and so is the clock. -/
def Ahead (s later : State) : Prop :=
  later.reseeded = s.reseeded ∧ later.clockNs = s.clockNs

theorem Ahead.trans
    {middle : State}
    (first : Ahead s middle)
    (second : Ahead middle later) : Ahead s later :=
  ⟨second.1.trans first.1, second.2.trans first.2⟩

theorem ahead_modifyProc
    (s : State)
    (pid : Pid)
    (change : ProcRec → ProcRec) : Ahead s (s.modifyProc pid change) :=
  ⟨rfl, rfl⟩

theorem ahead_wakeFirst (s : State) (pid : Pid) : Ahead s (s.wakeFirst pid) := by
  unfold wakeFirst
  split <;> exact ⟨rfl, rfl⟩

theorem Change.ahead (change : Change s later) : Ahead s later := by
  cases change with
  | alarm pid _ pending reached =>
      obtain ⟨isOver, again, same, -⟩ := s.rearm_eq pid
      have noted : Ahead s { s with overflow := isOver } := ⟨rfl, rfl⟩
      rw [fireAlarm_due pending reached, same]
      exact ((noted.trans (ahead_modifyProc _ pid (.setAlarmAt again))).trans
        (ahead_modifyProc _ pid (.addSignal sigalrm))).trans
          (ahead_wakeFirst _ pid)
  | _ => exact ⟨rfl, rfl⟩

theorem Changes.ahead (changes : Changes s later) : Ahead s later :=
  Changes.keep (P := Ahead s) (fun change first => first.trans change.ahead)
    changes ⟨rfl, rfl⟩

theorem ahead_newLife
    {pid : Pid}
    (registered : pid < s.nprocs) : Ahead s (s.newLife pid) := by
  obtain ⟨_, _, _, _, _, _, _, same, -⟩ := newLife_eq registered
  rw [same]
  exact ⟨rfl, rfl⟩

theorem ahead_registerRestart
    {pid : Pid}
    (dead : s.Dead pid)
    (status : Int) : Ahead s (s.registerRestart pid status) := by
  obtain ⟨-, same⟩ | ⟨-, same⟩ := registerRestart_cases dead.1 dead.2 status
  · rw [same]
    exact ahead_newLife dead.1
  · rw [same]
    exact ⟨rfl, rfl⟩

theorem ahead_crash
    {pid : Pid}
    (registered : pid < s.nprocs) : Ahead s (s.crash pid) := by
  have killed : Ahead s (s.killed pid) := ⟨rfl, rfl⟩
  rw [crash_eq]
  exact (killed.trans (Changes.ahead (changes_grieved _ pid))).trans
    (ahead_registerRestart (dead_killed registered).grieved killedStatus)

theorem ahead_buried
    {pid : Pid}
    (registered : pid < s.nprocs)
    (status : Int) : Ahead s (s.buried pid status) := by
  refine buried_keep (P := Ahead s) (fun change first => ?_)
    (fun restarts first => ?_) (fun _ first => first) (fun first => first)
    registered status ⟨rfl, rfl⟩
  · exact first.trans change.ahead
  · exact first.trans (ahead_newLife restarts.registered)

theorem ahead_modifyThread
    (s : State)
    (id : ThreadId)
    (change : ThreadRec → ThreadRec) : Ahead s (s.modifyThread id change) :=
  ⟨rfl, rfl⟩

theorem ahead_drawCrash
    (s : State)
    (pid : Pid)
    (lifeStarts : Nat) : Ahead s (s.drawCrash pid lifeStarts) := by
  obtain ⟨rng, isOver, crashAt, shutdownAt, same, -⟩ :=
    s.drawCrash_eq pid lifeStarts
  have drawn : Ahead s (s.drawn rng isOver) := ⟨rfl, rfl⟩
  rw [same]
  exact (drawn.trans (ahead_modifyProc _ pid (.setCrashAt crashAt))).trans
    (ahead_modifyProc _ pid (.setShutdownAt shutdownAt))

theorem ahead_addThread
    (s : State)
    (pid : Pid) : Ahead s (s.addThread pid).1 := by
  have more : Ahead s { s with nthreads := s.nthreads + 1 } := ⟨rfl, rfl⟩
  obtain ⟨rng, priority, drawn, -⟩ :=
    { s with nthreads := s.nthreads + 1 }.drawPriority_eq
  have moved (s : State) : Ahead s { s with pctRng := rng } := ⟨rfl, rfl⟩
  unfold addThread
  dsimp only
  rw [drawn]
  exact (more.trans (moved _)).trans (ahead_modifyThread _ _ _)

theorem ahead_condWakeLoop
    (rounds : Nat)
    (s : State)
    (pid : Pid)
    (cond : Nat)
    (all : Bool) : Ahead s (condWakeLoop rounds s pid cond all) := by
  induction rounds generalizing s with
  | zero => exact ⟨rfl, rfl⟩
  | succ rounds inductionHypothesis =>
      unfold condWakeLoop
      split
      · exact ⟨rfl, rfl⟩
      · next id _ =>
          have signalled : Ahead s (s.condSignal id) := ⟨rfl, rfl⟩
          dsimp only
          split
          · exact signalled.trans (inductionHypothesis _)
          · exact signalled

/-- Before the first hand-off the reseed is still to come, and the clock moves
by reads. -/
structure Fresh (s : State) : Prop where
  reseeded : s.reseeded = false
  clock : 8 ∣ s.clockNs

theorem Fresh.of_ahead
    (fresh : s.Fresh)
    (ahead : Ahead s later) : later.Fresh :=
  ⟨ahead.1.trans fresh.reseeded, ahead.2 ▸ fresh.clock⟩

theorem Fresh.setClock
    (fresh : s.Fresh)
    (overflow : Bool)
    {clockNs : Nat}
    (words : 8 ∣ clockNs) :
    { s with overflow := overflow, clockNs := clockNs }.Fresh :=
  ⟨fresh.reseeded, words⟩

theorem Fresh.clockRead (fresh : s.Fresh) : s.clockRead.Fresh := by
  have words : 8 ∣ wrappingAdd s.clockNs perReadNs := by
    have read : 8 ∣ s.clockNs + perReadNs :=
      Nat.dvd_add fresh.clock (by decide)
    unfold wrappingAdd
    omega
  exact (fresh.setClock _ words).of_ahead (Changes.ahead (changes_clockMoved _))

/-- Where nobody looks for a thread to run, the clock moves by reads only. -/
theorem ahead_of_still
    (still : op.still = true)
    (unread : op ≠ .clockRead)
    (possible : s.Possible op)
    (done : s.exec fuel op = some (later, answer)) : Ahead s later := by
  by_cases calm : op.calm = true
  · exact Changes.ahead (changes_of_exec calm possible done)
  by_cases setting : op.setting = true
  · cases tuned_of_exec setting done
    exact ⟨rfl, rfl⟩
  cases op with
  | setFaults pid faults spec =>
      obtain ⟨rfl, -⟩ := Prod.mk.inj (Option.some.inj done)
      exact (ahead_modifyProc s pid _).trans (ahead_drawCrash _ pid _)
  | addThread pid =>
      obtain ⟨rfl, -⟩ := Prod.mk.inj (Option.some.inj done)
      exact ahead_addThread s pid
  | setAlarm pid value interval =>
      obtain ⟨rfl, -⟩ := Prod.mk.inj (Option.some.inj done)
      unfold State.setAlarm
      split
      · exact ahead_modifyProc s pid _
      · have noted : Ahead s (s.noteAdd s.clockNs value) := ⟨rfl, rfl⟩
        exact noted.trans (ahead_modifyProc _ pid _)
  | crash victim =>
      obtain ⟨rfl, -⟩ := Prod.mk.inj (Option.some.inj done)
      exact ahead_crash possible.1.1
  | condWake pid cond all =>
      obtain ⟨rfl, -⟩ := Prod.mk.inj (Option.some.inj done)
      exact ahead_condWakeLoop _ s pid cond all
  | clockRead => exact absurd rfl unread
  | handOff => cases still
  | choose => cases still
  | processDied => cases still
  | _ =>
      first
        | exact absurd rfl calm
        | exact absurd rfl setting
        | obtain ⟨rfl, -⟩ := Prod.mk.inj (Option.some.inj done)
          exact ⟨rfl, rfl⟩

theorem Fresh.still
    (fresh : s.Fresh)
    (still : op.still = true)
    (possible : s.Possible op)
    (done : s.exec fuel op = some (later, answer)) : later.Fresh := by
  by_cases read : op = .clockRead
  · subst read
    obtain ⟨rfl, -⟩ := Prod.mk.inj (Option.some.inj done)
    exact fresh.clockRead
  · exact fresh.of_ahead (ahead_of_still still read possible done)

/-- What was drawn from the streams before the first hand-off is the same in two
runs: quanta, change points, priorities, the beginnings of restarted lives, and
when processes are crashed and shut down. -/
structure Drawn (s t : State) : Prop where
  issued : s.issued = t.issued
  quantum : s.pendingQuantum = t.pendingQuantum
  points : s.pctChangeAt = t.pctChangeAt
  priority : ∀ id, (s.threads id).priority = (t.threads id).priority
  starts : ∀ id, (s.threads id).deadline = (t.threads id).deadline
  crash : ∀ pid, (s.procs pid).crashAt = (t.procs pid).crashAt
  shutdown : ∀ pid, (s.procs pid).shutdownAt = (t.procs pid).shutdownAt
  overflow : s.overflow = t.overflow

theorem Drawn.thread
    (drawn : Drawn s t)
    (same : Same .seeds s t)
    (id : ThreadId) : s.threads id = t.threads id := by
  have whole (t : ThreadRec) :
      { t.veil .seeds with priority := t.priority, deadline := t.deadline } =
        t := rfl
  rw [← whole (s.threads id), ← whole (t.threads id), same.thread,
    drawn.priority, drawn.starts]

theorem Drawn.proc
    (drawn : Drawn s t)
    (same : Same .seeds s t)
    (pid : Pid) : s.procs pid = t.procs pid := by
  have whole (p : ProcRec) :
      { p.veil .seeds with crashAt := p.crashAt, shutdownAt := p.shutdownAt } =
        p := rfl
  rw [← whole (s.procs pid), ← whole (t.procs pid), same.proc, drawn.crash,
    drawn.shutdown]

/-- A state with other streams. -/
def reeled (s : State) (rng faultRng pauseRng pctRng : Rng) : State :=
  { s with
    rng := rng
    faultRng := faultRng
    pauseRng := pauseRng
    pctRng := pctRng }

/-- States that are the same but for what was drawn, where the same was drawn,
differ in their streams only. -/
theorem Drawn.streams
    (drawn : Drawn s t)
    (same : Same .seeds s t) :
    t = s.reeled t.rng t.faultRng t.pauseRng t.pctRng := by
  have whole (s : State) (rng faultRng pauseRng pctRng : Rng) :
      s.reeled rng faultRng pauseRng pctRng =
        { (s.veil .seeds).reeled rng faultRng pauseRng pctRng with
          issued := s.issued
          pendingQuantum := s.pendingQuantum
          pctChangeAt := s.pctChangeAt
          overflow := s.overflow
          threads := s.threads
          procs := s.procs } := rfl
  have threads : s.threads = t.threads := funext fun id => drawn.thread same id
  have procs : s.procs = t.procs := funext fun pid => drawn.proc same pid
  have own : t = t.reeled t.rng t.faultRng t.pauseRng t.pctRng := rfl
  conv_lhs => rw [own]
  rw [whole s, whole t, show s.veil .seeds = t.veil .seeds from same,
    drawn.issued, drawn.quantum, drawn.points, drawn.overflow, threads, procs]

/-- The reseed makes states that differ in their streams only the same. -/
theorem reseed_reeled
    (s : State)
    (rng faultRng pauseRng pctRng : Rng) :
    (s.reeled rng faultRng pauseRng pctRng).reseed = s.reseed := rfl

theorem pick_reeled
    (due : s.reseedDue = true)
    (rng faultRng pauseRng pctRng : Rng) :
    (s.reeled rng faultRng pauseRng pctRng).pick fuel = s.pick fuel := by
  have dueToo : (s.reeled rng faultRng pauseRng pctRng).reseedDue = true := due
  have entered : (s.reeled rng faultRng pauseRng pctRng).entered = s.entered := by
    unfold entered reseedIfDue
    rw [if_pos due, if_pos dueToo, reseed_reeled]
  unfold pick
  rw [entered]

theorem handOff_reeled
    (due : s.reseedDue = true)
    (rng faultRng pauseRng pctRng : Rng)
    (site : UInt64) :
    (s.reeled rng faultRng pauseRng pctRng).exec fuel (.handOff none site) =
      s.exec fuel (.handOff none site) := by
  have chosen : (s.reeled rng faultRng pauseRng pctRng).choose fuel none site =
      s.choose fuel none site := by
    unfold choose
    rw [pick_reeled due]
  exact congrArg (Option.map fun result => (result.1, Answer.handoff result.2))
    chosen

/-! ## The first hand-off -/

theorem early_handoff
    {event : Event}
    (isEarly : early event = true)
    (done : s.exec fuel event.1 = some (later, event.2)) :
    event.1.still = true ∨ ∃ pid status, event.1 = .processDied pid status ∧
      event.2 = .died none ∧ later = s.buried pid status := by
  obtain ⟨op, answer⟩ := event
  cases op with
  | processDied pid status =>
      obtain ⟨⟨middle, handoff⟩, death, same⟩ := Option.map_eq_some_iff.1 done
      obtain ⟨rfl, rfl⟩ := Prod.mk.inj same
      cases handoff with
      | none =>
          obtain ⟨-, buried, -⟩ | ⟨_, _, _, _, some⟩ :=
            processDied_eq_some_iff.1 death
          · exact .inr ⟨pid, status, rfl, rfl, buried⟩
          · cases some
      | some _ => cases isEarly
  | _ => exact .inl isEarly

/-- Early events keep states the same but for what is drawn. -/
theorem Same.early
    (same : Same .seeds s t)
    {event event' : Event}
    (isEarly : State.early event = true)
    (isEarly' : State.early event' = true)
    (ops : event.1 = event'.1)
    (step : schedule.step s event later)
    (step' : schedule.step t event' later') :
    Same .seeds later later' ∧ event = event' := by
  obtain ⟨possible, fuel, done⟩ := step
  obtain ⟨-, fuel', done'⟩ := step'
  obtain still | ⟨pid, status, isDeath, none, rfl⟩ := early_handoff isEarly done
  · rw [← ops] at done'
    obtain ⟨after, answers⟩ :=
      same.exec_still still rfl possible done done' nofun
    exact ⟨after, Prod.ext ops answers⟩
  · obtain still | ⟨pid', status', isDeath', none', rfl⟩ :=
      early_handoff isEarly' done'
    · rw [← ops, isDeath] at still
      cases still
    · rw [isDeath, isDeath'] at ops
      obtain ⟨rfl, rfl⟩ := Op.processDied.inj ops
      rw [isDeath] at possible
      refine ⟨same.buried possible status nofun, Prod.ext ?_ ?_⟩
      · rw [isDeath, isDeath']
      · rw [none, none']

/-- Events that show the same come in pairs. -/
theorem pairs_of_map
    {α : Type}
    {shown : Event → α}
    {events events' : List Event}
    (same : events.map shown = events'.map shown) :
    List.Forall₂ (fun event event' =>
      event ∈ events ∧ event' ∈ events' ∧ shown event = shown event')
      events events' := by
  rw [← List.forall₂_eq_eq_eq, List.forall₂_map_left_iff,
    List.forall₂_map_right_iff] at same
  rw [List.forall₂_iff_get] at same ⊢
  exact ⟨same.1, fun i inside inside' =>
    ⟨List.get_mem _ _, List.get_mem _ _, same.2 i inside inside'⟩⟩

theorem same_initial
    (seed seed' : UInt64)
    (quantumLo quantumHi : Nat)
    (names : List (List UInt8))
    (latencyNs : Nat) :
    Same .seeds (initial seed quantumLo quantumHi names latencyNs)
      (initial seed' quantumLo quantumHi names latencyNs) := by
  unfold Same State.veil initial
  simp only [if_true, reduceCtorEq, if_false]

/-- Runs of the same operations before the first hand-off differ in what was
drawn. -/
theorem same_of_early
    {seed seed' : UInt64}
    {quantumLo quantumHi : Nat}
    {names : List (List UInt8)}
    {latencyNs : Nat}
    {before before' : List Event}
    (run : schedule.Run (initial seed quantumLo quantumHi names latencyNs)
      before s)
    (run' : schedule.Run (initial seed' quantumLo quantumHi names latencyNs)
      before' t)
    (isEarly : ∀ event ∈ before, early event = true)
    (isEarly' : ∀ event ∈ before', early event = true)
    (ops : before.map Prod.fst = before'.map Prod.fst) :
    Same .seeds s t ∧ before = before' := by
  have pairs := Transition.Run.lockstep (Same .seeds) Eq
    (fun same alike step step' => same.early (isEarly _ alike.1)
      (isEarly' _ alike.2.1) alike.2.2 step step')
    run run' (same_initial _ _ _ _ _ _) (pairs_of_map ops)
  rw [List.forall₂_eq_eq_eq] at pairs
  exact pairs

theorem fresh_of_early
    {before : List Event}
    (run : schedule.Run s before later)
    (isEarly : ∀ event ∈ before, early event = true)
    (fresh : s.Fresh) : later.Fresh := by
  induction run with
  | refl => exact fresh
  | @tail middle later events event _ step inductionHypothesis =>
      have between := inductionHypothesis
        fun event isMember => isEarly event (List.mem_append_left _ isMember)
      obtain ⟨possible, fuel, done⟩ := step
      obtain still | ⟨pid, status, isDeath, -, rfl⟩ :=
        early_handoff (isEarly event (by simp)) done
      · exact between.still still possible done
      · rw [isDeath] at possible
        exact between.of_ahead (ahead_buried possible status)

/-- The same operations on one state do the same. -/
theorem run_unique
    {events events' : List Event}
    (run : schedule.Run s events later)
    (run' : schedule.Run s events' later')
    (ops : events.map Prod.fst = events'.map Prod.fst) :
    later = later' ∧ events = events' := by
  have pairs := Transition.Run.lockstep Eq Eq
    (fun same alike step step' => by
      obtain rfl := same
      obtain ⟨-, fuel, done⟩ := step
      obtain ⟨-, fuel', done'⟩ := step'
      rw [← alike.2.2] at done'
      obtain ⟨states, answers⟩ := Prod.mk.inj (exec_unique done done')
      exact ⟨states, Prod.ext alike.2.2 answers⟩)
    run run' rfl (pairs_of_map ops)
  rw [List.forall₂_eq_eq_eq] at pairs
  exact pairs

/-- Two runs of the same operations from two seeds are reseeded at their first
hand-off.  If the same was drawn in both before it, they make the same choices
from then on, and lead to the same state. -/
theorem reseed_of_drawn
    {seed seed' : UInt64}
    {quantumLo quantumHi : Nat}
    {names : List (List UInt8)}
    {latencyNs : Nat}
    {before before' : List Event}
    (run : schedule.Run (initial seed quantumLo quantumHi names latencyNs)
      before s)
    (run' : schedule.Run (initial seed' quantumLo quantumHi names latencyNs)
      before' t)
    (isEarly : ∀ event ∈ before, early event = true)
    (isEarly' : ∀ event ∈ before', early event = true)
    (ops : before.map Prod.fst = before'.map Prod.fst)
    (reseedAt : s.reseedAt = 1)
    (drawn : Drawn s t)
    {site : UInt64}
    {after after' : List Event}
    (goes : schedule.Run s ((.handOff none site, answer) :: after) later)
    (goes' : schedule.Run t ((.handOff none site, answer') :: after') later')
    (ops' : after.map Prod.fst = after'.map Prod.fst) :
    before = before' ∧ answer = answer' ∧ after = after' ∧ later = later' := by
  obtain ⟨same, earlier⟩ := same_of_early run run' isEarly isEarly' ops
  have fresh : s.Fresh := fresh_of_early run isEarly ⟨rfl, Nat.dvd_zero 8⟩
  have due : s.reseedDue = true := by
    have words := fresh.clock
    unfold reseedDue wrappingAdd
    rw [fresh.reseeded, reseedAt]
    simp
    omega
  obtain ⟨middle, ⟨-, fuel, done⟩, rest⟩ := goes.uncons
  obtain ⟨middle', ⟨-, fuel', done'⟩, rest'⟩ := goes'.uncons
  have again : s.exec fuel' (.handOff none site) = some (middle', answer') := by
    rw [drawn.streams same, handOff_reeled due] at done'
    exact done'
  obtain ⟨rfl, rfl⟩ := Prod.mk.inj (exec_unique done again)
  obtain ⟨states, events⟩ := run_unique rest rest' ops'
  exact ⟨earlier, rfl, events, states⟩

/-- A process without faults, in a run that is to be reseeded. -/
def seeded (seed : UInt64) : State :=
  ((((initial seed 1 1 [] 0).setReseed 0 7).addProc 0 none).1.addThread 0).1

def seededBy : List Event :=
  [(.setReseed 0 7, .done), (.addProc 0 none, .proc 0), (.addThread 0, .thread 0)]

theorem run_seeded (seed : UInt64) :
    schedule.Run (initial seed 1 1 [] 0) seededBy (seeded seed) := by
  have first : schedule.step (initial seed 1 1 [] 0) (.setReseed 0 7, .done)
      ((initial seed 1 1 [] 0).setReseed 0 7) := ⟨trivial, 0, rfl⟩
  have second : schedule.step ((initial seed 1 1 [] 0).setReseed 0 7)
      (.addProc 0 none, .proc 0)
      (((initial seed 1 1 [] 0).setReseed 0 7).addProc 0 none).1 :=
    ⟨⟨Nat.zero_lt_succ _, nofun⟩, 0, rfl⟩
  have third : schedule.step
      (((initial seed 1 1 [] 0).setReseed 0 7).addProc 0 none).1
      (.addThread 0, .thread 0) (seeded seed) :=
    ⟨⟨Nat.zero_lt_succ _, Nat.zero_lt_one, rfl⟩, 0, rfl⟩
  exact .cons first (.cons second (.cons third (.refl _)))

/-- Two runs from two seeds in which nothing was drawn before. -/
theorem reseed_seeded :
    ∃ answer answer' later later',
      schedule.Run (seeded 1) [(.handOff none 0, answer)] later ∧
      schedule.Run (seeded 2) [(.handOff none 0, answer')] later' ∧
      answer = answer' ∧ later = later' := by
  have goes : (play 1 [.handOff none 0] (seeded 1)).isSome = true := by
    decide +kernel
  have goes' : (play 1 [.handOff none 0] (seeded 2)).isSome = true := by
    decide +kernel
  obtain ⟨later, done⟩ := Option.isSome_iff_exists.1 goes
  obtain ⟨later', done'⟩ := Option.isSome_iff_exists.1 goes'
  obtain ⟨events, ops, run⟩ := run_play done
  obtain ⟨events', ops', run'⟩ := run_play done'
  obtain ⟨⟨op, answer⟩, rfl, rfl⟩ := List.map_eq_singleton_iff.1 ops
  obtain ⟨⟨op', answer'⟩, rfl, sameOp⟩ := List.map_eq_singleton_iff.1 ops'
  obtain rfl : op' = .handOff none 0 := sameOp
  have drawn : Drawn (seeded 1) (seeded 2) :=
    ⟨rfl, rfl, rfl, fun _ => rfl, fun _ => rfl, fun _ => rfl, fun _ => rfl, rfl⟩
  have isEarly : ∀ event ∈ seededBy, early event = true := by
    simp [seededBy, early, Op.still]
  obtain ⟨-, answers, -, states⟩ := reseed_of_drawn (run_seeded 1)
    (run_seeded 2) isEarly isEarly rfl rfl drawn run run' rfl
  exact ⟨answer, answer', later, later', run, run', answers, states⟩

/-- A process that is sent its shutdown signal at a time that is drawn: its
thread has the baton from the first hand-off on, and sleeps. -/
def shutdownAhead : List Op :=
  [.setReseed 0 7, .addProc 0 none,
    .setFaults 0
      { shutdownHiNs := 1000000
        shutdownsLeft := 1
        shutdownSignal := 15
        graceNs := 1000000 } 0,
    .addThread 0, .handOff none 0, .handOff (some (0, .blocked, sleepKey)) 0]

/-- Two runs that are reseeded at their first hand-off with the same seed: the
clock jumps to the time that was drawn from the seeds before. -/
theorem reseed_shutdownAhead :
    ((play 3 shutdownAhead (initial 1 1 1 [] 0)).all fun s =>
      s.reseedAt = 1 ∧ s.reseedWith = 7) = true ∧
    ((play 3 shutdownAhead (initial 2 1 1 [] 0)).all fun s =>
      s.reseedAt = 1 ∧ s.reseedWith = 7) = true ∧
    (play 3 shutdownAhead (initial 1 1 1 [] 0)).map clockNs = some 528624 ∧
    (play 3 shutdownAhead (initial 2 1 1 [] 0)).map clockNs = some 74218 := by
  decide +kernel

end State
end Derp

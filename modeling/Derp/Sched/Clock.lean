import Derp.Sched.Reseed
import Derp.Sched.Waiting

/-!
# The virtual clock

Hand-offs and reads add to the clock, and it jumps to the next event while no
thread can run.  It never goes back as long as the sums fit its 64 bits.  A
thread that sleeps for as long as can be told takes the clock to where no sum
fits any more.
-/

namespace Derp
namespace State

variable
  {s later : State}
  {id : ThreadId}
  {fuel : Nat}
  {op : Op}
  {answer : Answer}

/-- What the operation adds to the clock fits. -/
def ClockFits (s : State) : Op → Prop
  | .handOff (some _) _ => s.clockNs + s.switchNs < 2 ^ 64
  | .clockRead => s.clockNs + perReadNs < 2 ^ 64
  -- The baton is passed on for a dead holder, which costs as much.
  | .processDied pid _ =>
      (s.heldBy pid).isSome → s.clockNs + s.switchNs < 2 ^ 64
  | _ => True

/-! ## What leaves the clock alone -/

/-- The clock is as it was, and so are what a hand-off costs, how often threads
are paused, and who was last given the baton. -/
structure Timeless (s later : State) : Prop where
  clock : later.clockNs = s.clockNs
  cost : later.switchNs = s.switchNs
  pauses : later.pauseNum = s.pauseNum
  current : later.current = s.current

theorem Timeless.trans
    {middle : State}
    (first : Timeless s middle)
    (second : Timeless middle later) : Timeless s later :=
  ⟨second.clock.trans first.clock, second.cost.trans first.cost,
    second.pauses.trans first.pauses, second.current.trans first.current⟩

theorem Change.timeless (change : Change s later) : Timeless s later := by
  cases change with
  | alarm pid _ pending reached =>
      obtain ⟨_, _, same, -⟩ := s.rearm_eq pid
      rw [fireAlarm_due pending reached, same]
      unfold wakeFirst modifyThread modifyProc
      split <;> exact ⟨rfl, rfl, rfl, rfl⟩
  | _ => exact ⟨rfl, rfl, rfl, rfl⟩

theorem timeless_newLife
    {pid : Pid}
    (registered : pid < s.nprocs) : Timeless s (s.newLife pid) := by
  obtain ⟨_, _, _, _, _, _, _, same, -⟩ := newLife_eq registered
  rw [same]
  exact ⟨rfl, rfl, rfl, rfl⟩

theorem timeless_addThread (s : State) (pid : Pid) :
    Timeless s (s.addThread pid).1 := by
  obtain ⟨pctRng, priority, drawn, -⟩ :=
    { s with nthreads := s.nthreads + 1 }.drawPriority_eq
  unfold addThread
  dsimp only
  rw [drawn]
  exact ⟨rfl, rfl, rfl, rfl⟩

theorem timeless_drawCrash (s : State) (pid : Pid) (lifeStarts : Nat) :
    Timeless s (s.drawCrash pid lifeStarts) := by
  obtain ⟨_, _, _, _, same, -⟩ := s.drawCrash_eq pid lifeStarts
  rw [same]
  exact ⟨rfl, rfl, rfl, rfl⟩

theorem Deeds.timeless (deeds : Deeds s later) : Timeless s later := by
  refine Deeds.keep (P := Timeless s) (fun change first => ?_)
    (fun _ first => ?_) (fun _ _ _ first => ?_) (fun restarts first => ?_)
    deeds ⟨rfl, rfl, rfl, rfl⟩
  · exact first.trans change.timeless
  · exact ⟨first.clock, first.cost, first.pauses, first.current⟩
  · exact ⟨first.clock, first.cost, first.pauses, first.current⟩
  · exact first.trans (timeless_newLife restarts.registered)

theorem timeless_buried
    {pid : Pid}
    (registered : pid < s.nprocs)
    (status : Int) : Timeless s (s.buried pid status) := by
  refine buried_keep (P := Timeless s) (fun change first => ?_)
    (fun restarts first => ?_) (fun _ first => ?_) (fun first => ?_)
    registered status ⟨rfl, rfl, rfl, rfl⟩
  · exact first.trans change.timeless
  · exact first.trans (timeless_newLife restarts.registered)
  · exact ⟨first.clock, first.cost, first.pauses, first.current⟩
  · exact ⟨first.clock, first.cost, first.pauses, first.current⟩

/-- Nobody else is found to have held the baton once a process is buried. -/
theorem heldBy_of_buried
    (tidy : s.Tidy)
    {pid : Pid}
    (registered : pid < s.nprocs)
    {status : Int}
    (held : (s.buried pid status).heldBy pid = some id) :
    s.heldBy pid = some id := by
  obtain ⟨current, -, owner⟩ := heldBy_eq_some held
  rw [(timeless_buried registered status).current] at current
  have inside := tidy.current id current
  rw [(keepsWaits_buried 0 registered status).pid id inside] at owner
  exact Option.filter_eq_some_iff.2 ⟨current, by simp [inside, owner]⟩

/-! ## Steps and runs -/

theorem Passages.clock_le (passages : Passages s later) :
    s.clockNs ≤ later.clockNs := by
  induction passages with
  | refl => exact le_rfl
  | tail _ passage inductionHypothesis =>
      cases passage with
      | deed deed =>
          rw [(Deeds.timeless (.single deed)).clock]
          exact inductionHypothesis
      | jump _ _ _ same =>
          exact inductionHypothesis.trans (same ▸ le_max_left _ _)
      | reseed => exact inductionHypothesis

theorem clock_le_choose
    {me : Option ThreadId}
    {site : UInt64}
    {handoff : Handoff}
    (chosen : s.choose fuel me site = some (later, handoff)) :
    s.clockNs ≤ later.clockNs := by
  refine choose_keep (P := fun later => s.clockNs ≤ later.clockNs)
    Passages.clock_le (fun choice before => ?_)
    (fun {given next} _ _ before => ?_) chosen
  · rw [choice.clockNs]
    exact before
  · obtain ⟨_, _, _, _, _, _, same⟩ := given.giveBaton_eq me next site
    rw [same]
    exact before

theorem clock_le_handOff
    {src : Option (ThreadId × ThreadState × Nat)}
    {site : UInt64}
    {handoff : Handoff}
    (fits : ∀ _ ∈ src, s.clockNs + s.switchNs < 2 ^ 64)
    (handed : s.handOff fuel src site = some (later, handoff)) :
    s.clockNs ≤ later.clockNs := by
  have paid : s.clockNs ≤ (s.recorded src).clockNs := by
    cases src with
    | none => exact le_rfl
    | some giver =>
        have sum : (s.recorded (some giver)).clockNs =
            s.clockNs + s.switchNs := Nat.mod_eq_of_lt (fits giver rfl)
        rw [sum]
        exact Nat.le_add_right _ _
  exact paid.trans (clock_le_choose handed)

/-- A critical section whose sum fits does not set the clock back. -/
theorem clock_le_of_exec
    (tidy : s.Tidy)
    (fits : s.ClockFits op)
    (possible : s.Possible op)
    (done : s.exec fuel op = some (later, answer)) :
    s.clockNs ≤ later.clockNs := by
  by_cases read : op = .clockRead
  · subst read
    obtain ⟨rfl, -⟩ := Prod.mk.inj (Option.some.inj done)
    have sum : s.clockRead.clockNs = wrappingAdd s.clockNs perReadNs :=
      (Changes.ahead (changes_clockMoved _)).2
    have fit : wrappingAdd s.clockNs perReadNs = s.clockNs + perReadNs :=
      Nat.mod_eq_of_lt fits
    rw [sum, fit]
    exact Nat.le_add_right _ _
  by_cases still : op.still = true
  · exact (ahead_of_still still read possible done).2.ge
  cases op with
  | handOff src site =>
      obtain ⟨⟨middle, handoff⟩, handed, same⟩ := Option.map_eq_some_iff.1 done
      obtain rfl : middle = later := congrArg Prod.fst same
      refine clock_le_handOff ?_ handed
      rintro giver ⟨⟩
      exact fits
  | choose me site =>
      obtain ⟨⟨middle, handoff⟩, chosen, same⟩ := Option.map_eq_some_iff.1 done
      obtain rfl : middle = later := congrArg Prod.fst same
      exact clock_le_choose chosen
  | processDied pid status =>
      obtain ⟨⟨middle, handoff⟩, died, same⟩ := Option.map_eq_some_iff.1 done
      obtain rfl : middle = later := congrArg Prod.fst same
      have buried := timeless_buried (s := s) possible status
      obtain ⟨-, rfl, -⟩ | ⟨id, passed, held, handed, -⟩ :=
        processDied_eq_some_iff.1 died
      · exact buried.clock.ge
      · rw [← buried.clock]
        refine clock_le_handOff (fun _ _ => ?_) handed
        rw [buried.clock, buried.cost]
        exact fits (by rw [heldBy_of_buried tidy possible held]; rfl)
  | _ => exact absurd rfl still

/-- The clock never goes back in a run in which what is added to it fits. -/
theorem clock_le_of_run
    {events : List Event}
    (reachable : schedule.Reachable s)
    (run : (schedule.restrict fun s event => s.ClockFits event.1).Run s events
      later) : s.clockNs ≤ later.clockNs := by
  have both : schedule.Reachable later ∧ s.clockNs ≤ later.clockNs := by
    induction run with
    | refl => exact ⟨reachable, le_rfl⟩
    | tail _ step inductionHypothesis =>
        obtain ⟨before, order⟩ := inductionHypothesis
        obtain ⟨fits, possible, fuel, done⟩ := step
        exact ⟨.next before ⟨possible, fuel, done⟩, order.trans
          (clock_le_of_exec (tidy_of_reachable before) fits possible done)⟩
  exact both.2

/-- One thread, with the baton. -/
def oneThread : List Op :=
  [.addProc 0 none, .addThread 0, .handOff none 0]

theorem clock_le_of_run_oneThread :
    ∃ later, (schedule.restrict fun s event => s.ClockFits event.1).Run
        (played 2 oneThread) [(.handOff (some (0, .runnable, 0)) 0,
          .handoff .stay)] later ∧
      (played 2 oneThread).clockNs ≤ later.clockNs ∧
      later.clockNs = 10000 := by
  have handed : ((played 2 oneThread).handOff 2 (some (0, .runnable, 0)) 0).map
      (fun result => (result.1.clockNs, result.2)) = some (10000, .stay) := by
    decide +kernel
  obtain ⟨⟨later, handoff⟩, handed, same⟩ := Option.map_eq_some_iff.1 handed
  obtain ⟨clock, rfl⟩ := Prod.mk.inj same
  have done : (played 2 oneThread).exec 2 (.handOff (some (0, .runnable, 0)) 0) =
      some (later, .handoff .stay) := by
    rw [exec, handed]
    rfl
  have fits : (played 2 oneThread).clockNs + (played 2 oneThread).switchNs <
      2 ^ 64 := by decide +kernel
  have run : (schedule.restrict fun s event => s.ClockFits event.1).Run
      (played 2 oneThread) [(.handOff (some (0, .runnable, 0)) 0,
        .handoff .stay)] later :=
    .cons ⟨fits, by decide +kernel, 2, done⟩ (.refl later)
  exact ⟨later, run,
    clock_le_of_run (reachable_played (by decide +kernel)) run, clock⟩

/-! ## Sums that do not fit -/

/-- A hand-off whose sum does not fit sets the clock back before anybody is
chosen. -/
theorem recorded_lt
    (word : s.switchNs < 2 ^ 64)
    (wraps : 2 ^ 64 ≤ s.clockNs + s.switchNs)
    (small : s.clockNs < 2 ^ 64)
    (giver : ThreadId × ThreadState × Nat) :
    (s.recorded (some giver)).clockNs < s.clockNs := by
  have sum : (s.recorded (some giver)).clockNs =
      (s.clockNs + s.switchNs) % 2 ^ 64 := rfl
  rw [sum]
  omega

/-- The thread sleeps for as long as can be told. -/
def longSleep : List Op :=
  oneThread ++
    [.setDeadline 0 (2 ^ 64 - 1), .handOff (some (0, .blocked, sleepKey)) 0]

/-- The clock is set back when the sleeper gives the baton up again. -/
theorem clock_goes_back :
    ∃ s event later, schedule.Reachable s ∧ schedule.step s event later ∧
      later.clockNs < s.clockNs := by
  have handed : ((played 2 longSleep).exec 2
      (.handOff (some (0, .runnable, 0)) 0)).map (fun result =>
        result.1.clockNs) = some 9999 := by
    decide +kernel
  obtain ⟨⟨later, answer⟩, done, clock⟩ := Option.map_eq_some_iff.1 handed
  have before : (played 2 longSleep).clockNs = 2 ^ 64 - 1 := by decide +kernel
  have possible : (played 2 longSleep).Possible
      (.handOff (some (0, .runnable, 0)) 0) := by decide +kernel
  refine ⟨played 2 longSleep, (.handOff (some (0, .runnable, 0)) 0, answer),
    later, reachable_played (by decide +kernel), ⟨possible, 2, done⟩, ?_⟩
  rw [before]
  exact clock.trans_lt (by decide)

end State
end Derp

import Derp.Sched.Tidy

/-!
# The network of a run

Whatever the schedule does, the network is one that its calls have led to: the operations
call it as the callers may, the clock moves it, and a death closes what a process had.
-/

namespace Derp
namespace State

variable
  {s later : State}
  {pid : Pid}
  {fuel : Nat}

theorem fireAlarm_net (s : State) (pid : Pid) : (s.fireAlarm pid).net = s.net := by
  have woken (s : State) : (s.wakeFirst pid).net = s.net := by
    unfold wakeFirst
    split <;> rfl
  have rearmed : (s.rearm pid).net = s.net := by
    unfold rearm
    dsimp only
    split <;> rfl
  unfold fireAlarm
  split
  · split
    · rfl
    · exact (woken _).trans rearmed
  · rfl

/-- The network is one that calls have led to. -/
def Networked (s : State) : Prop := Net.system.Reachable s.net

theorem Networked.of_net (networked : s.Networked) (same : later.net = s.net) :
    later.Networked := by
  unfold Networked
  rw [same]
  exact networked

theorem Change.networked (change : Change s later) (networked : s.Networked) :
    later.Networked := by
  cases change with
  | @net op net answer admissible called =>
      have step : Net.system.step s.net (op, answer) net := ⟨admissible, called⟩
      exact networked.next step
  | alarm pid => exact networked.of_net (s.fireAlarm_net pid)
  | _ => exact networked.of_net rfl

theorem newLife_net (registered : pid < s.nprocs) : (s.newLife pid).net = s.net := by
  obtain ⟨_, _, _, _, _, _, _, same, -⟩ := newLife_eq registered
  rw [same]
  rfl

theorem Networked.clock
    (networked : s.Networked)
    (overflow : Bool)
    (clockNs : Nat) : { s with overflow := overflow, clockNs := clockNs }.Networked :=
  networked

theorem Networked.newLife (networked : s.Networked) (registered : pid < s.nprocs) :
    (s.newLife pid).Networked :=
  networked.of_net (newLife_net registered)

theorem Networked.killed (networked : s.Networked) (pid : Pid) : (s.killed pid).Networked :=
  networked.of_net rfl

theorem Networked.modifyProc
    (networked : s.Networked)
    (pid : Pid)
    (change : ProcRec → ProcRec) : (s.modifyProc pid change).Networked :=
  networked.of_net rfl

theorem Deeds.networked (deeds : Deeds s later) (networked : s.Networked) :
    later.Networked :=
  Deeds.keep Change.networked (fun _ networked => networked.killed _)
    (fun _ _ _ networked => (networked.modifyProc _ _).killed _)
    (fun restarts networked => networked.newLife restarts.registered) deeds networked

theorem Passages.networked (passages : Passages s later) (networked : s.Networked) :
    later.Networked := by
  induction passages with
  | refl => exact networked
  | tail _ passage inductionHypothesis =>
      cases passage with
      | deed deed => exact Deeds.networked (.single deed) inductionHypothesis
      | jump => exact inductionHypothesis
      | reseed => exact inductionHypothesis

theorem Choice.net (choice : Choice s later) : later.net = s.net := by
  cases choice
  rfl

theorem Networked.choose
    (networked : s.Networked)
    {me : Option ThreadId}
    {site : UInt64}
    {handoff : Handoff}
    (chosen : s.choose fuel me site = some (later, handoff)) : later.Networked :=
  choose_keep (P := Networked) (fun passages => passages.networked networked)
    (fun choice networked => networked.of_net choice.net)
    (fun {s next} _ _ networked => by
      obtain ⟨_, _, _, _, _, _, same⟩ := s.giveBaton_eq me next site
      rw [same]
      exact networked)
    chosen

theorem Networked.recorded
    (networked : s.Networked)
    (src : Option (ThreadId × ThreadState × Nat)) : (s.recorded src).Networked := by
  cases src with
  | none => exact networked
  | some => exact networked

theorem Networked.buried
    (networked : s.Networked)
    (registered : pid < s.nprocs)
    (status : Int) : (s.buried pid status).Networked :=
  buried_keep Change.networked (fun restarts networked => networked.newLife restarts.registered)
    (fun _ networked => networked) (fun networked => networked) registered status networked

theorem addThread_net (s : State) (pid : Pid) : (s.addThread pid).1.net = s.net := by
  obtain ⟨_, _, drawn, -⟩ := { s with nthreads := s.nthreads + 1 }.drawPriority_eq
  unfold addThread
  dsimp only
  rw [drawn]
  rfl

theorem drawCrash_net
    (s : State)
    (pid : Pid)
    (lifeStarts : Nat) : (s.drawCrash pid lifeStarts).net = s.net := by
  obtain ⟨_, _, _, _, same, -⟩ := s.drawCrash_eq pid lifeStarts
  rw [same]
  rfl

theorem setAlarm_net
    (s : State)
    (pid : Pid)
    (value interval : Nat) : (s.setAlarm pid value interval).net = s.net := by
  unfold setAlarm
  dsimp only
  split <;> rfl

theorem condWakeLoop_net
    (rounds : Nat)
    (s : State)
    (pid : Pid)
    (cond : Nat)
    (all : Bool) : (condWakeLoop rounds s pid cond all).net = s.net := by
  induction rounds generalizing s with
  | zero => rfl
  | succ rounds inductionHypothesis =>
      unfold condWakeLoop
      split
      · rfl
      · dsimp only
        split
        · exact inductionHypothesis _
        · rfl

/-- The scheduler calls the network as its callers may. -/
theorem networked_of_exec
    (networked : s.Networked)
    {op : Op}
    {answer : Answer}
    (possible : s.Possible op)
    (done : s.exec fuel op = some (later, answer)) : later.Networked := by
  by_cases calm : op.calm = true
  · exact (changes_of_exec calm possible done).deeds.networked networked
  by_cases setting : op.setting = true
  · cases tuned_of_exec setting done
    exact networked
  cases op with
  | addThread pid =>
      obtain ⟨rfl, -⟩ := Prod.mk.inj (Option.some.inj done)
      exact networked.of_net (s.addThread_net pid)
  | setFaults pid faults spec =>
      obtain ⟨rfl, -⟩ := Prod.mk.inj (Option.some.inj done)
      exact networked.of_net (drawCrash_net _ pid s.clockNs)
  | setAlarm pid value interval =>
      obtain ⟨rfl, -⟩ := Prod.mk.inj (Option.some.inj done)
      exact networked.of_net (s.setAlarm_net pid value interval)
  | handOff src site =>
      obtain ⟨⟨middle, handoff⟩, handed, same⟩ := Option.map_eq_some_iff.1 done
      obtain rfl : middle = later := congrArg Prod.fst same
      exact (networked.recorded src).choose handed
  | choose me site =>
      obtain ⟨⟨middle, handoff⟩, chosen, same⟩ := Option.map_eq_some_iff.1 done
      obtain rfl : middle = later := congrArg Prod.fst same
      exact networked.choose chosen
  | crash victim =>
      obtain ⟨rfl, -⟩ := Prod.mk.inj (Option.some.inj done)
      exact Deeds.networked (.single (.crash victim possible.1)) networked
  | processDied pid status =>
      obtain ⟨⟨middle, handoff⟩, died, same⟩ := Option.map_eq_some_iff.1 done
      obtain rfl : middle = later := congrArg Prod.fst same
      have buried := networked.buried possible status
      obtain ⟨-, rfl, -⟩ | ⟨id, passed, -, handed, -⟩ := processDied_eq_some_iff.1 died
      · exact buried
      · exact (buried.recorded _).choose handed
  | condWake pid cond all =>
      obtain ⟨rfl, -⟩ := Prod.mk.inj (Option.some.inj done)
      exact networked.of_net (condWakeLoop_net _ s pid cond all)
  | clockRead =>
      obtain ⟨rfl, -⟩ := Prod.mk.inj (Option.some.inj done)
      exact (changes_clockMoved _).deeds.networked (networked.clock _ _)
  | addProc | attach | unregister | reap | setDeadline | threadKill | takeSignals |
    condEnqueue | noteOutsideWake =>
      obtain ⟨rfl, -⟩ := Prod.mk.inj (Option.some.inj done)
      exact networked
  | _ => simp [Op.calm, Op.setting] at calm setting

theorem networked_of_reachable (reachable : schedule.Reachable s) : s.Networked := by
  refine reachable.invariant ?_ ?_
  · rintro _ ⟨seed, quantumLo, quantumHi, names, latencyNs, rfl⟩
    have started : Net.system.Reachable (Net.zeroed names latencyNs) :=
      .start ⟨names, latencyNs, rfl⟩
    exact started
  · rintro state event later networked ⟨possible, fuel, done⟩
    exact networked_of_exec networked possible done

theorem Picking.networked (picking : Picking s) : s.Networked := by
  cases picking with
  | reachable reachable => exact networked_of_reachable reachable
  | handOff reachable possible => exact (networked_of_reachable reachable).recorded _
  | died reachable registered held =>
      exact ((networked_of_reachable reachable).buried registered _).recorded _

end State
end Derp

import Derp.Sched.Choosing

/-!
# Operations of a kind

Some operations of the schedule are chains of changes, and some touch settings
and streams only.
-/

namespace Derp
namespace State

variable
  {s later : State}
  {id : ThreadId}
  {fuel : Nat}
  {op : Op}
  {answer : Answer}

/-- Wakes, signals to processes, calls of the network, and what is done about
the kills. -/
def Op.calm : Op → Bool
  | .wakeAll _ _ => true
  | .wakeIo => true
  | .wakeThread _ => true
  | .postSignal _ _ => true
  | .takeKills => true
  | .settleDeaths => true
  | .forgetUnsettled => true
  | .net _ => true
  | _ => false

/-- Settings of the run, and a draw of a quantum. -/
def Op.setting : Op → Bool
  | .setScheduler _ => true
  | .setPauses _ => true
  | .setSwitchCost _ => true
  | .setStopAt _ => true
  | .stopNow => true
  | .setReseed _ _ => true
  | .renewQuantum => true
  | _ => false

/-- What settings touch. -/
inductive Tuned : State → State → Prop
  | mk {s : State}
      (rng pctRng : Rng)
      (issued quantum switchNs pauseNum pauseDen pauseLoNs pauseHiNs : Nat)
      (starveNs horizonNs pctNext reseedAt stopAtNs : Nat)
      (scheduler : SchedulerKind)
      (pctChangeAt : List Nat)
      (reseedWith : UInt64) :
      Tuned s
        { s with
          rng := rng
          pctRng := pctRng
          issued := issued
          pendingQuantum := quantum
          switchNs := switchNs
          pauseNum := pauseNum
          pauseDen := pauseDen
          pauseLoNs := pauseLoNs
          pauseHiNs := pauseHiNs
          pctStarveNs := starveNs
          pctHorizonNs := horizonNs
          pctNext := pctNext
          reseedAt := reseedAt
          stopAtNs := stopAtNs
          scheduler := scheduler
          pctChangeAt := pctChangeAt
          reseedWith := reseedWith }

theorem changes_takeKills (s : State) : Changes s s.takeKills.1 := by
  have counted : Changes s { s with unsignalled := 0 } :=
    .single (.count _ _ _ _ _ _ id)
  unfold takeKills
  split
  · exact .refl
  · refine counted.trans ?_
    dsimp only
    apply changes_mapProcs
    intro p
    split
    · exact ⟨_, _, _, _, rfl⟩
    · exact .refl _

theorem changes_forgetUnsettled (s : State) :
    Changes s s.forgetUnsettled := by
  have forgotten : Changes s
      (s.mapProcs fun p => { p with unsettled := false }) :=
    changes_mapProcs fun _ => ⟨_, _, _, _, rfl⟩
  exact (forgotten.tail (.count _ 0 _ _ _ _ id)).trans (changes_wakeIo _)

theorem changes_settleDeaths (s : State) : Changes s s.settleDeaths.1 := by
  unfold settleDeaths
  split
  · exact .refl
  split
  · exact .refl
  · exact changes_forgetUnsettled s

theorem changes_wakeThread
    (begun : (s.threads id).key ≠ restartKey) :
    Changes s (s.wakeThread id) := by
  apply changes_wake
  intro other
  by_cases same : other = id
  · subst same
    rw [Function.update_self]
    exact woken_wake s begun
  · rw [Function.update_of_ne same]
    exact .same _

theorem admissible_of_possible
    {op : Net.Op}
    (possible : s.Possible (.net op)) : s.net.Admissible op := by
  cases op <;> first | exact possible | exact possible.elim

/-- A calm operation is a chain of changes. -/
theorem changes_of_exec
    (calm : op.calm = true)
    (possible : s.Possible op)
    (done : s.exec fuel op = some (later, answer)) : Changes s later := by
  cases op with
  | wakeAll pid key =>
      obtain ⟨rfl, -⟩ := Prod.mk.inj (Option.some.inj done)
      exact changes_wakeAll pid possible
  | wakeIo =>
      obtain ⟨rfl, -⟩ := Prod.mk.inj (Option.some.inj done)
      exact changes_wakeIo s
  | wakeThread id =>
      obtain ⟨rfl, -⟩ := Prod.mk.inj (Option.some.inj done)
      exact changes_wakeThread possible.2
  | postSignal pid sig =>
      obtain ⟨rfl, -⟩ := Prod.mk.inj (Option.some.inj done)
      exact .single (.signal pid sig possible.1)
  | takeKills =>
      obtain rfl : s.takeKills.1 = later :=
        congrArg Prod.fst (Option.some.inj done)
      exact changes_takeKills s
  | settleDeaths =>
      obtain rfl : s.settleDeaths.1 = later :=
        congrArg Prod.fst (Option.some.inj done)
      exact changes_settleDeaths s
  | forgetUnsettled =>
      obtain ⟨rfl, -⟩ := Prod.mk.inj (Option.some.inj done)
      exact changes_forgetUnsettled s
  | net op =>
      obtain ⟨⟨net, answered⟩, executed, same⟩ := Option.map_eq_some_iff.1 done
      obtain rfl : s.setNet net = later := congrArg Prod.fst same
      exact .single (.net op (admissible_of_possible possible) executed)
  | _ => cases calm

/-- A setting touches no table. -/
theorem tuned_of_exec
    (setting : op.setting = true)
    (done : s.exec fuel op = some (later, answer)) : Tuned s later := by
  cases op with
  | setScheduler sched =>
      obtain ⟨rfl, -⟩ := Prod.mk.inj (Option.some.inj done)
      unfold setScheduler
      dsimp only
      split <;> exact .mk _ _ _ _ _ _ _ _ _ _ _ _ _ _ _ _ _
  | setPauses =>
      obtain ⟨rfl, -⟩ := Prod.mk.inj (Option.some.inj done)
      exact .mk _ _ _ _ _ _ _ _ _ _ _ _ _ _ _ _ _
  | setSwitchCost =>
      obtain ⟨rfl, -⟩ := Prod.mk.inj (Option.some.inj done)
      exact .mk _ _ _ _ _ _ _ _ _ _ _ _ _ _ _ _ _
  | setStopAt =>
      obtain ⟨rfl, -⟩ := Prod.mk.inj (Option.some.inj done)
      exact .mk _ _ _ _ _ _ _ _ _ _ _ _ _ _ _ _ _
  | stopNow =>
      obtain ⟨rfl, -⟩ := Prod.mk.inj (Option.some.inj done)
      exact .mk _ _ _ _ _ _ _ _ _ _ _ _ _ _ _ _ _
  | setReseed =>
      obtain ⟨rfl, -⟩ := Prod.mk.inj (Option.some.inj done)
      exact .mk _ _ _ _ _ _ _ _ _ _ _ _ _ _ _ _ _
  | renewQuantum =>
      obtain ⟨rfl, -⟩ := Prod.mk.inj (Option.some.inj done)
      exact .mk _ _ _ _ _ _ _ _ _ _ _ _ _ _ _ _ _
  | _ => cases setting

end State
end Derp

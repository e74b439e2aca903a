import Derp.Sched.Veil

/-!
# Operations on states that look the same

An operation that is carried out on states which a veil does not tell apart
leads to such states, and answers the same.  Here are the operations that make
no choice.
-/

namespace Derp
namespace State

variable
  {v : Veil}
  {s t s' t' : State}
  {pid : Pid}
  {id : ThreadId}
  {fuel fuel' : Nat}

/-- Pauses that a run does not make may have any range. -/
def Pauses.veil (v : Veil) (pauses : Pauses) : Pauses :=
  { pauses with
    loNs := if v = .pauses then 0 else pauses.loNs
    hiNs := if v = .pauses then 0 else pauses.hiNs }

/-- An operation without what the veil hides of it. -/
def Op.veil (v : Veil) : Op → Op
  | .setFaults pid faults spec => .setFaults pid (faults.veil v) spec
  | .setPauses pauses => .setPauses (Pauses.veil v pauses)
  | op => op

/-! ## Settings -/

theorem Same.setPauses
    (same : Same v s t)
    {pauses pauses' : Pauses}
    (alike : Pauses.veil v pauses = Pauses.veil v pauses') :
    Same v (s.setPauses pauses) (t.setPauses pauses') := by
  have set (s : State) (pauses : Pauses) : (s.setPauses pauses).veil v =
      { s.veil v with
        pauseNum := (Pauses.veil v pauses).num
        pauseDen := (Pauses.veil v pauses).den
        pauseLoNs := (Pauses.veil v pauses).loNs
        pauseHiNs := (Pauses.veil v pauses).hiNs } := by
    cases v <;> rfl
  unfold Same
  rw [set, set, alike, show s.veil v = t.veil v from same]

/-- Change points are drawn, which the veil over the seeds hides. -/
theorem Same.setScheduler
    (same : Same v s t)
    (sched : Scheduler) : Same v (s.setScheduler sched) (t.setScheduler sched) := by
  unfold State.setScheduler
  dsimp only
  split
  · exact same.change (fun s => { s with scheduler := sched.kind }) fun _ => rfl
  · by_cases isSeeds : v = .seeds
    · subst isSeeds
      exact same.change (fun s =>
        { s with
          scheduler := sched.kind
          pctStarveNs := sched.pctStarveNs
          pctHorizonNs := max 1 sched.pctHorizonNs
          pctNext := 0 }) fun _ => rfl
    · rw [same.pctRng isSeeds]
      generalize (fun state : List Nat × Rng =>
        (state.1 ++ [(state.2.below (max 1 sched.pctHorizonNs)).1],
          (state.2.below (max 1 sched.pctHorizonNs)).2))^[max 1
            (min sched.pctDepth maxPctDepth) - 1] ([], t.pctRng) = drawn
      refine same.change (fun s =>
        { s with
          scheduler := sched.kind
          pctStarveNs := sched.pctStarveNs
          pctHorizonNs := max 1 sched.pctHorizonNs
          pctRng := drawn.2
          pctChangeAt := drawn.1.mergeSort
          pctNext := 0 }) fun s => ?_
      unfold State.veil
      simp only [if_neg isSeeds]

theorem Same.setReseed
    (same : Same v s t)
    (at' : Nat)
    (seed : UInt64) : Same v (s.setReseed at' seed) (t.setReseed at' seed) :=
  same.change (·.setReseed at' seed) fun _ => rfl

theorem Same.setStopAt
    (same : Same v s t)
    (ns : Nat) : Same v (s.setStopAt ns) (t.setStopAt ns) :=
  same.change (·.setStopAt ns) fun _ => rfl

theorem Same.setSwitchCost
    (same : Same v s t)
    (ns : Nat) : Same v (s.setSwitchCost ns) (t.setSwitchCost ns) :=
  same.change (·.setSwitchCost ns) fun _ => rfl

/-- A quantum is issued. -/
def issue (drawn : Nat × Rng) (s : State) : State :=
  { s with
    rng := drawn.2
    issued := s.issued + drawn.1
    pendingQuantum := drawn.1 }

theorem renewQuantum_eq (s : State) :
    s.renewQuantum =
      s.issue (s.rng.rangeInclusive s.quantumLo s.quantumHi) := rfl

theorem Same.rng
    (same : Same v s t)
    (seen : v ≠ .seeds) : s.rng = t.rng :=
  same.seen State.rng fun _ => if_neg seen

/-- A quantum is drawn, which the veil over the seeds hides. -/
theorem Same.renewQuantum (same : Same v s t) :
    Same v s.renewQuantum t.renewQuantum := by
  by_cases isSeeds : v = .seeds
  · subst isSeeds
    exact same
  · have lo : s.quantumLo = t.quantumLo := same.seen State.quantumLo fun _ => rfl
    have hi : s.quantumHi = t.quantumHi := same.seen State.quantumHi fun _ => rfl
    have drawn : s.rng.rangeInclusive s.quantumLo s.quantumHi =
        t.rng.rangeInclusive t.quantumLo t.quantumHi := by
      rw [same.rng isSeeds, lo, hi]
    rw [renewQuantum_eq, renewQuantum_eq, drawn]
    refine same.change (issue _) fun s => ?_
    unfold issue State.veil
    simp only [if_neg isSeeds]

/-! ## Operations that make no choice -/

/-- Operations that neither give the baton up nor look for a thread to run. -/
def Op.still : Op → Bool
  | .handOff _ _ => false
  | .choose _ _ => false
  | .processDied _ _ => false
  | _ => true

theorem Same.clockMoved (same : Same v s t) :
    Same v s.clockMoved t.clockMoved := by
  unfold State.clockMoved
  rw [same.net, same.clockNs]
  generalize t.net.advance t.clockNs = moved
  obtain ⟨net, any⟩ := moved
  dsimp only
  split
  · exact (same.setNet net).wakeIo
  · exact same.setNet net

theorem Same.setFaults
    (same : Same v s t)
    (pid : Pid)
    {faults faults' : Faults}
    (alike : faults.veil v = faults'.veil v)
    (spec : Nat) :
    Same v (s.setFaults pid faults spec) (t.setFaults pid faults' spec) := by
  have set : Same v
      (s.modifyProc pid fun p => { p with faults := faults, spec := some spec })
      (t.modifyProc pid fun p =>
        { p with faults := faults', spec := some spec }) := by
    apply same.modifyProc
    change { (s.procs pid).veil v with
        faults := faults.veil v
        spec := some spec } =
      { (t.procs pid).veil v with
        faults := faults'.veil v
        spec := some spec }
    rw [alike, same.proc]
  exact set.drawCrash pid fun _ => set.clockNs

theorem Same.takeKills (same : Same v s t) :
    Same v s.takeKills.1 t.takeKills.1 ∧ s.takeKills.2 = t.takeKills.2 := by
  have unsignalled : s.unsignalled = t.unsignalled :=
    same.seen State.unsignalled fun _ => rfl
  have due : (fun pid => (s.procs pid).killed && !(s.procs pid).signalled &&
      decide (0 < (s.procs pid).realPid)) =
        fun pid => (t.procs pid).killed && !(t.procs pid).signalled &&
          decide (0 < (t.procs pid).realPid) :=
    funext fun pid => same.procSeen pid (fun p => p.killed && !p.signalled &&
      decide (0 < p.realPid)) fun _ => rfl
  have real : (fun pid => (s.procs pid).realPid) =
      fun pid => (t.procs pid).realPid :=
    funext fun pid => same.procSeen pid ProcRec.realPid fun _ => rfl
  unfold State.takeKills
  dsimp only
  by_cases none : s.unsignalled = 0
  · rw [if_pos none, if_pos (unsignalled ▸ none)]
    exact ⟨same, rfl⟩
  · rw [if_neg none, if_neg (unsignalled ▸ none)]
    refine ⟨?_, ?_⟩
    · have forgotten := same.change (fun s => { s with unsignalled := 0 })
        fun _ => rfl
      refine forgotten.mapProcs fun p => ?_
      change (if (p.killed && !p.signalled && decide (0 < p.realPid)) = true then
          { p with signalled := true } else p : ProcRec).veil v =
        if (p.killed && !p.signalled && decide (0 < p.realPid)) = true then
          { p.veil v with signalled := true } else p.veil v
      split <;> rfl
    · dsimp only
      rw [due, real, same.pids]

theorem Same.forgetUnsettled (same : Same v s t) :
    Same v s.forgetUnsettled t.forgetUnsettled := by
  have forgotten : Same v (s.mapProcs fun p => { p with unsettled := false })
      (t.mapProcs fun p => { p with unsettled := false }) :=
    same.mapProcs fun _ => rfl
  exact (forgotten.change (fun s => { s with unsettled := 0 })
    fun _ => rfl).wakeIo

theorem Same.settleDeaths (same : Same v s t) :
    Same v s.settleDeaths.1 t.settleDeaths.1 ∧
      s.settleDeaths.2 = t.settleDeaths.2 := by
  have unsettled : s.unsettled = t.unsettled :=
    same.seen State.unsettled fun _ => rfl
  have ahead : (fun pid => (s.procs pid).unsettled &&
      decide ((s.procs pid).state ≠ .exited)) =
        fun pid => (t.procs pid).unsettled &&
          decide ((t.procs pid).state ≠ .exited) :=
    funext fun pid => same.procSeen pid (fun p => p.unsettled &&
      decide (p.state ≠ .exited)) fun _ => rfl
  unfold State.settleDeaths
  rw [unsettled, ahead, same.pids]
  split
  · exact ⟨same, rfl⟩
  split
  · exact ⟨same, rfl⟩
  · exact ⟨same.forgetUnsettled, rfl⟩

theorem Same.unregister
    (same : Same v s t)
    (child : Pid) : Same v (s.unregister child) (t.unregister child) := by
  refine (same.changeProc child
    (fun p => { p with state := .exited, reaped := true })
    fun _ => rfl).mapLive fun t => ?_
  change (if t.pid = child then t.setState .exited else t).veil v =
    if t.pid = child then (t.veil v).setState .exited else t.veil v
  split <;> rfl

theorem Same.setAlarm
    (same : Same v s t)
    (pid : Pid)
    (value interval : Nat) :
    Same v (s.setAlarm pid value interval) (t.setAlarm pid value interval) := by
  unfold State.setAlarm
  split
  · exact same.changeProc pid
      (fun p => { p with alarmAt := 0, alarmInterval := 0 }) fun _ => rfl
  · have noted := same.noteAdd s.clockNs value
    dsimp only
    rw [← same.clockNs, noted.clockNs]
    exact noted.changeProc pid _ fun _ => rfl

theorem Same.setDeadline
    (same : Same v s t)
    (id : ThreadId)
    (deadline : Nat) :
    Same v (s.setDeadline id deadline) (t.setDeadline id deadline) := by
  apply same.modifyThread
  have thread := same.thread id
  have key : (s.threads id).key = (t.threads id).key :=
    same.threadSeen id ThreadRec.key fun _ => rfl
  change { (s.threads id).veil v with
      deadline := if v = Veil.seeds ∧ (s.threads id).key = restartKey then 0
        else deadline
      timedOut := false } =
    { (t.threads id).veil v with
      deadline := if v = Veil.seeds ∧ (t.threads id).key = restartKey then 0
        else deadline
      timedOut := false }
  rw [thread, key]

theorem Same.takeSignals
    (same : Same v s t)
    (id : ThreadId)
    (unmasked : Nat) :
    Same v (s.takeSignals id unmasked) (t.takeSignals id unmasked) := by
  have owner : (s.threads id).pid = (t.threads id).pid :=
    same.threadSeen id ThreadRec.pid fun _ => rfl
  unfold State.takeSignals
  rw [owner]
  exact (same.changeProc _
    (fun p => { p with sigPending := p.sigPending.ldiff unmasked })
    fun _ => rfl).changeThread id
      (fun t => { t with sigPending := t.sigPending.ldiff unmasked })
      fun _ => rfl

theorem Same.condEnqueue
    (same : Same v s t)
    (id : ThreadId)
    (cond : Nat) : Same v (s.condEnqueue id cond) (t.condEnqueue id cond) := by
  have seq : s.nextCondSeq = t.nextCondSeq :=
    same.seen State.nextCondSeq fun _ => rfl
  have counted := same.change
    (fun s => { s with nextCondSeq := s.nextCondSeq + 1 }) fun _ => rfl
  unfold State.condEnqueue
  dsimp only
  refine counted.modifyThread ?_
  have thread := same.thread id
  change { (s.threads id).veil v with
      signaled := false
      condKey := cond
      condSeq := s.nextCondSeq } =
    { (t.threads id).veil v with
      signaled := false
      condKey := cond
      condSeq := t.nextCondSeq }
  rw [thread, seq]

theorem Same.clockRead (same : Same v s t) :
    Same v s.clockRead t.clockRead := by
  unfold State.clockRead
  rw [← same.clockNs]
  exact ((same.noteAdd _ _).setClock _).clockMoved

/-- Nothing of the operation is hidden by any veil. -/
def Op.bare : Op → Bool
  | .setFaults _ _ _ => false
  | .setPauses _ => false
  | _ => true

theorem Op.veil_bare {op : Op} (bare : op.bare = true) : op.veil v = op := by
  cases op with
  | setFaults => cases bare
  | setPauses => cases bare
  | _ => rfl

theorem Op.bare_veil (op : Op) : (op.veil v).bare = op.bare := by
  cases op <;> rfl

/-- Operations that look the same are the same, or set ranges that are hidden. -/
theorem Op.alike_cases
    {op op' : Op}
    (alike : op.veil v = op'.veil v) :
    op' = op ∨
      (∃ pid faults faults' spec, op = .setFaults pid faults spec ∧
        op' = .setFaults pid faults' spec ∧ faults.veil v = faults'.veil v) ∨
      ∃ pauses pauses', op = .setPauses pauses ∧ op' = .setPauses pauses' ∧
        Pauses.veil v pauses = Pauses.veil v pauses' := by
  have both : op.bare = op'.bare := by
    rw [← op.bare_veil, alike, op'.bare_veil]
  cases bare : op.bare with
  | true =>
      rw [veil_bare bare, veil_bare (both ▸ bare)] at alike
      exact .inl alike.symm
  | false =>
      have bare' := both ▸ bare
      cases op with
      | setFaults pid faults spec =>
          cases op' with
          | setFaults pid' faults' spec' =>
              obtain ⟨rfl, hidden, rfl⟩ := Op.setFaults.inj alike
              exact .inr (.inl ⟨pid, faults, faults', spec, rfl, rfl, hidden⟩)
          | setPauses => cases alike
          | _ => cases bare'
      | setPauses pauses =>
          cases op' with
          | setPauses pauses' =>
              exact .inr (.inr ⟨pauses, pauses', rfl, rfl,
                Op.setPauses.inj alike⟩)
          | setFaults => cases alike
          | _ => cases bare'
      | _ => cases bare

/-- An operation that makes no choice, on states that look the same. -/
theorem Same.exec_bare
    (same : Same v s t)
    {op : Op}
    {later later' : State}
    {answer answer' : Answer}
    (still : op.still = true)
    (bare : op.bare = true)
    (possible : s.Possible op)
    (done : s.exec fuel op = some (later, answer))
    (done' : t.exec fuel' op = some (later', answer'))
    (calm : v = .faults → later.restarts = s.restarts) :
    Same v later later' ∧ answer = answer' := by
  cases op with
  | setScheduler sched =>
      obtain ⟨rfl, rfl⟩ := Prod.mk.inj (Option.some.inj done)
      obtain ⟨rfl, rfl⟩ := Prod.mk.inj (Option.some.inj done')
      exact ⟨same.setScheduler sched, rfl⟩
  | setSwitchCost ns =>
      obtain ⟨rfl, rfl⟩ := Prod.mk.inj (Option.some.inj done)
      obtain ⟨rfl, rfl⟩ := Prod.mk.inj (Option.some.inj done')
      exact ⟨same.setSwitchCost ns, rfl⟩
  | setStopAt ns =>
      obtain ⟨rfl, rfl⟩ := Prod.mk.inj (Option.some.inj done)
      obtain ⟨rfl, rfl⟩ := Prod.mk.inj (Option.some.inj done')
      exact ⟨same.setStopAt ns, rfl⟩
  | stopNow =>
      obtain ⟨rfl, rfl⟩ := Prod.mk.inj (Option.some.inj done)
      obtain ⟨rfl, rfl⟩ := Prod.mk.inj (Option.some.inj done')
      rw [same.clockNs]
      exact ⟨same.setStopAt _, rfl⟩
  | setReseed at' seed =>
      obtain ⟨rfl, rfl⟩ := Prod.mk.inj (Option.some.inj done)
      obtain ⟨rfl, rfl⟩ := Prod.mk.inj (Option.some.inj done')
      exact ⟨same.setReseed at' seed, rfl⟩
  | renewQuantum =>
      obtain ⟨rfl, rfl⟩ := Prod.mk.inj (Option.some.inj done)
      obtain ⟨rfl, rfl⟩ := Prod.mk.inj (Option.some.inj done')
      exact ⟨same.renewQuantum, rfl⟩
  | addProc host parent =>
      obtain ⟨rfl, rfl⟩ := Prod.mk.inj (Option.some.inj done)
      obtain ⟨rfl, rfl⟩ := Prod.mk.inj (Option.some.inj done')
      exact ⟨same.addProc host parent, congrArg Answer.proc same.nprocs⟩
  | addThread pid =>
      obtain ⟨rfl, rfl⟩ := Prod.mk.inj (Option.some.inj done)
      obtain ⟨rfl, rfl⟩ := Prod.mk.inj (Option.some.inj done')
      obtain ⟨added, main⟩ := same.addThread pid
      exact ⟨added, congrArg Answer.thread main⟩
  | attach pid realPid =>
      obtain ⟨rfl, rfl⟩ := Prod.mk.inj (Option.some.inj done)
      obtain ⟨rfl, rfl⟩ := Prod.mk.inj (Option.some.inj done')
      exact ⟨same.changeProc pid
        (fun p => { p with state := .live, realPid := realPid })
        fun _ => rfl, rfl⟩
  | unregister child =>
      obtain ⟨rfl, rfl⟩ := Prod.mk.inj (Option.some.inj done)
      obtain ⟨rfl, rfl⟩ := Prod.mk.inj (Option.some.inj done')
      exact ⟨same.unregister child, rfl⟩
  | setAlarm pid value interval =>
      obtain ⟨rfl, rfl⟩ := Prod.mk.inj (Option.some.inj done)
      obtain ⟨rfl, rfl⟩ := Prod.mk.inj (Option.some.inj done')
      exact ⟨same.setAlarm pid value interval, rfl⟩
  | reap pid =>
      obtain ⟨rfl, rfl⟩ := Prod.mk.inj (Option.some.inj done)
      obtain ⟨rfl, rfl⟩ := Prod.mk.inj (Option.some.inj done')
      exact ⟨same.changeProc pid (fun p => { p with reaped := true })
        fun _ => rfl, rfl⟩
  | setDeadline id deadline =>
      obtain ⟨rfl, rfl⟩ := Prod.mk.inj (Option.some.inj done)
      obtain ⟨rfl, rfl⟩ := Prod.mk.inj (Option.some.inj done')
      exact ⟨same.setDeadline id deadline, rfl⟩
  | crash victim =>
      obtain ⟨rfl, rfl⟩ := Prod.mk.inj (Option.some.inj done)
      obtain ⟨rfl, rfl⟩ := Prod.mk.inj (Option.some.inj done')
      exact ⟨same.crash possible.1.1 calm, rfl⟩
  | wakeAll pid key =>
      obtain ⟨rfl, rfl⟩ := Prod.mk.inj (Option.some.inj done)
      obtain ⟨rfl, rfl⟩ := Prod.mk.inj (Option.some.inj done')
      exact ⟨same.wakeAll pid key, rfl⟩
  | wakeIo =>
      obtain ⟨rfl, rfl⟩ := Prod.mk.inj (Option.some.inj done)
      obtain ⟨rfl, rfl⟩ := Prod.mk.inj (Option.some.inj done')
      exact ⟨same.wakeIo, rfl⟩
  | wakeThread id =>
      obtain ⟨rfl, rfl⟩ := Prod.mk.inj (Option.some.inj done)
      obtain ⟨rfl, rfl⟩ := Prod.mk.inj (Option.some.inj done')
      exact ⟨same.wakeThread id, rfl⟩
  | postSignal pid sig =>
      obtain ⟨rfl, rfl⟩ := Prod.mk.inj (Option.some.inj done)
      obtain ⟨rfl, rfl⟩ := Prod.mk.inj (Option.some.inj done')
      exact ⟨same.postSignal pid sig, rfl⟩
  | threadKill id sig =>
      obtain ⟨rfl, rfl⟩ := Prod.mk.inj (Option.some.inj done)
      obtain ⟨rfl, rfl⟩ := Prod.mk.inj (Option.some.inj done')
      exact ⟨same.changeThread id
        (fun t => { t with sigPending := t.sigPending ||| 2 ^ sig })
        fun _ => rfl, rfl⟩
  | takeSignals id unmasked =>
      obtain ⟨rfl, rfl⟩ := Prod.mk.inj (Option.some.inj done)
      obtain ⟨rfl, rfl⟩ := Prod.mk.inj (Option.some.inj done')
      exact ⟨same.takeSignals id unmasked, rfl⟩
  | condEnqueue id cond =>
      obtain ⟨rfl, rfl⟩ := Prod.mk.inj (Option.some.inj done)
      obtain ⟨rfl, rfl⟩ := Prod.mk.inj (Option.some.inj done')
      exact ⟨same.condEnqueue id cond, rfl⟩
  | condWake pid cond all =>
      obtain ⟨rfl, rfl⟩ := Prod.mk.inj (Option.some.inj done)
      obtain ⟨rfl, rfl⟩ := Prod.mk.inj (Option.some.inj done')
      unfold State.condWake
      rw [same.nthreads]
      exact ⟨same.condWakeLoop _ pid cond all, rfl⟩
  | noteOutsideWake pid =>
      obtain ⟨rfl, rfl⟩ := Prod.mk.inj (Option.some.inj done)
      obtain ⟨rfl, rfl⟩ := Prod.mk.inj (Option.some.inj done')
      exact ⟨same.changeProc pid
        (fun p =>
          { p with
            outsideWakes := p.outsideWakes + 1
            hasOutsideThreads := true })
        fun _ => rfl, rfl⟩
  | clockRead =>
      obtain ⟨rfl, rfl⟩ := Prod.mk.inj (Option.some.inj done)
      obtain ⟨rfl, rfl⟩ := Prod.mk.inj (Option.some.inj done')
      exact ⟨same.clockRead, congrArg Answer.clock same.clockRead.clockNs⟩
  | takeKills =>
      obtain rfl : s.takeKills.1 = later :=
        congrArg Prod.fst (Option.some.inj done)
      obtain rfl : t.takeKills.1 = later' :=
        congrArg Prod.fst (Option.some.inj done')
      obtain rfl : Answer.kills s.takeKills.2 = answer :=
        congrArg Prod.snd (Option.some.inj done)
      obtain rfl : Answer.kills t.takeKills.2 = answer' :=
        congrArg Prod.snd (Option.some.inj done')
      obtain ⟨taken, real⟩ := same.takeKills
      exact ⟨taken, congrArg Answer.kills real⟩
  | settleDeaths =>
      obtain rfl : s.settleDeaths.1 = later :=
        congrArg Prod.fst (Option.some.inj done)
      obtain rfl : t.settleDeaths.1 = later' :=
        congrArg Prod.fst (Option.some.inj done')
      obtain rfl : Answer.settled s.settleDeaths.2 = answer :=
        congrArg Prod.snd (Option.some.inj done)
      obtain rfl : Answer.settled t.settleDeaths.2 = answer' :=
        congrArg Prod.snd (Option.some.inj done')
      obtain ⟨settled, all⟩ := same.settleDeaths
      exact ⟨settled, congrArg Answer.settled all⟩
  | forgetUnsettled =>
      obtain ⟨rfl, rfl⟩ := Prod.mk.inj (Option.some.inj done)
      obtain ⟨rfl, rfl⟩ := Prod.mk.inj (Option.some.inj done')
      exact ⟨same.forgetUnsettled, rfl⟩
  | net op =>
      obtain ⟨⟨net, answered⟩, executed, same'⟩ := Option.map_eq_some_iff.1 done
      obtain ⟨⟨net', answered'⟩, executed', same''⟩ :=
        Option.map_eq_some_iff.1 done'
      rw [← same.net, executed] at executed'
      obtain ⟨rfl, rfl⟩ := Prod.mk.inj (Option.some.inj executed')
      obtain rfl : s.setNet net = later := congrArg Prod.fst same'
      obtain rfl : t.setNet net = later' := congrArg Prod.fst same''
      obtain rfl : Answer.net answered = answer := congrArg Prod.snd same'
      obtain rfl : Answer.net answered = answer' := congrArg Prod.snd same''
      exact ⟨same.setNet net, rfl⟩
  | setFaults => cases bare
  | setPauses => cases bare
  | _ => cases still

/-- Operations that make no choice and look the same, on states that do. -/
theorem Same.exec_still
    (same : Same v s t)
    {op op' : Op}
    {later later' : State}
    {answer answer' : Answer}
    (still : op.still = true)
    (alike : op.veil v = op'.veil v)
    (possible : s.Possible op)
    (done : s.exec fuel op = some (later, answer))
    (done' : t.exec fuel' op' = some (later', answer'))
    (calm : v = .faults → later.restarts = s.restarts) :
    Same v later later' ∧ answer = answer' := by
  obtain rfl | ⟨pid, faults, faults', spec, rfl, rfl, hidden⟩ |
    ⟨pauses, pauses', rfl, rfl, hidden⟩ := Op.alike_cases alike
  · cases bare : op'.bare with
    | true => exact same.exec_bare still bare possible done done' calm
    | false =>
        cases op' with
        | setFaults pid faults spec =>
            obtain ⟨rfl, rfl⟩ := Prod.mk.inj (Option.some.inj done)
            obtain ⟨rfl, rfl⟩ := Prod.mk.inj (Option.some.inj done')
            exact ⟨same.setFaults pid rfl spec, rfl⟩
        | setPauses pauses =>
            obtain ⟨rfl, rfl⟩ := Prod.mk.inj (Option.some.inj done)
            obtain ⟨rfl, rfl⟩ := Prod.mk.inj (Option.some.inj done')
            exact ⟨same.setPauses rfl, rfl⟩
        | _ => cases bare
  · obtain ⟨rfl, rfl⟩ := Prod.mk.inj (Option.some.inj done)
    obtain ⟨rfl, rfl⟩ := Prod.mk.inj (Option.some.inj done')
    exact ⟨same.setFaults pid hidden spec, rfl⟩
  · obtain ⟨rfl, rfl⟩ := Prod.mk.inj (Option.some.inj done)
    obtain ⟨rfl, rfl⟩ := Prod.mk.inj (Option.some.inj done')
    exact ⟨same.setPauses hidden, rfl⟩

end State
end Derp

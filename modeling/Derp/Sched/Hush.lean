import Derp.Sched.Parked

/-!
# Where no signal is sent

Apart from the operations and events that send signals, nothing that happens to the
schedule adds to the signals that are pending, blocks anybody but whoever gives the baton
up, or takes a thread that is ready out of the schedule, unless its process dies.
-/

namespace Derp

/-- A thread stays ready if it was, and parked where it was if it still is. -/
structure ThreadRec.Hushed (t t' : ThreadRec) : Prop where
  stays : t.StaysParked t'
  ready : t.state = .runnable → t'.state = .runnable

/-- A process that lives on has the pending signals that it had. -/
structure ProcRec.Hushed (p p' : ProcRec) : Prop where
  wakes : p.outsideWakes ≤ p'.outsideWakes
  alive : p'.alive = true → p.alive = true ∧ p'.sigPending = p.sigPending

namespace ThreadRec

theorem Hushed.refl (t : ThreadRec) : t.Hushed t := ⟨.refl t, id⟩

theorem hushed_of_eq
    {t t' : ThreadRec}
    (pid : t'.pid = t.pid)
    (wakesSeen : t'.wakesSeen = t.wakesSeen)
    (state : t'.state = t.state)
    (key : t'.key = t.key) : t.Hushed t' :=
  ⟨staysParked_of_eq pid wakesSeen state key, state.trans⟩

theorem hushed_wake (t : ThreadRec) : t.Hushed t.wake := by
  refine ⟨staysParked_wake t, fun ready => ?_⟩
  unfold wake
  rw [if_neg (by rw [ready]; decide)]
  exact ready

theorem hushed_runnable
    {t : ThreadRec}
    (staying : t.state ≠ .exited) : t.Hushed (t.setState .runnable) :=
  ⟨staysParked_setState (by decide) staying, fun _ => rfl⟩

end ThreadRec

theorem ProcRec.Hushed.refl (p : ProcRec) : p.Hushed p := ⟨le_rfl, fun alive => ⟨alive, rfl⟩⟩

theorem ProcRec.hushed_of_eq
    {p p' : ProcRec}
    (wakes : p.outsideWakes ≤ p'.outsideWakes)
    (state : p'.state = p.state)
    (killed : p'.killed = p.killed)
    (pending : p'.sigPending = p.sigPending) : p.Hushed p' := by
  refine ⟨wakes, fun alive => ⟨?_, pending⟩⟩
  unfold ProcRec.alive at alive ⊢
  rwa [state, killed] at alive

namespace State

variable
  {s middle later : State}
  {pid : Pid}
  {id : ThreadId}
  {fuel : Nat}

/-- No signal is sent and nobody blocks; whoever is ready is left ready, or dies with its
process, and a new thread is ready or waits for its life to begin. -/
structure Hushed (s later : State) : Prop where
  keeps : KeepsParked s later
  alive : ∀ pid < s.nprocs, (later.procs pid).alive = true →
    (s.procs pid).alive = true ∧ (later.procs pid).sigPending = (s.procs pid).sigPending
  ready : ∀ id < s.nthreads, (s.threads id).pid < s.nprocs →
    (s.threads id).state = .runnable → (later.procs (s.threads id).pid).alive = true →
      (later.threads id).state = .runnable
  begun : ∀ id, s.nthreads ≤ id → id < later.nthreads →
    (later.threads id).state = .blocked → (later.threads id).key = restartKey

theorem Hushed.trans
    (first : Hushed s middle)
    (second : Hushed middle later) : Hushed s later where
  keeps := first.keeps.trans second.keeps
  alive := fun pid inside alive => by
    obtain ⟨between, same⟩ := second.alive pid (inside.trans_le first.keeps.nprocs) alive
    obtain ⟨before, same'⟩ := first.alive pid inside between
    exact ⟨before, same.trans same'⟩
  ready := fun id inside owner ready alive => by
    have ofPid := (first.keeps.thread id inside).pid
    have owned := owner.trans_le first.keeps.nprocs
    have between := (second.alive _ owned alive).1
    refine second.ready id (inside.trans_le first.keeps.nthreads) (ofPid ▸ owned)
      (first.ready id inside owner ready between) ?_
    rw [ofPid]
    exact alive
  begun := fun id outside inside blocked => by
    by_cases between : id < middle.nthreads
    · obtain ⟨before, same⟩ := (second.keeps.thread id between).blocked blocked
      exact same.trans (first.begun id outside between before)
    · exact second.begun id (not_lt.1 between) inside blocked

/-- Nobody comes back to life. -/
theorem Hushed.dead
    (hushed : Hushed s later)
    (dead : s.Dead pid) : later.Dead pid := by
  refine ⟨dead.1.trans_le hushed.keeps.nprocs, Bool.eq_false_iff.2 fun alive => ?_⟩
  cases dead.2.symm.trans (hushed.alive pid dead.1 alive).1

/-- Other records in tables of the same length. -/
theorem hushed_of_records
    (nthreads : later.nthreads = s.nthreads)
    (nprocs : later.nprocs = s.nprocs)
    (threads : ∀ id, (s.threads id).Hushed (later.threads id))
    (procs : ∀ pid, (s.procs pid).Hushed (later.procs pid)) : Hushed s later where
  keeps := keepsParked_of_records nthreads nprocs (fun id => (threads id).stays)
    fun pid => (procs pid).wakes
  alive := fun pid _ => (procs pid).alive
  ready := fun id _ _ ready _ => (threads id).ready ready
  begun := fun _ outside inside => absurd (inside.trans_eq nthreads) (not_lt.2 outside)

theorem hushed_of_eq
    (nthreads : later.nthreads = s.nthreads)
    (nprocs : later.nprocs = s.nprocs)
    (threads : later.threads = s.threads)
    (procs : later.procs = s.procs) : Hushed s later :=
  hushed_of_records nthreads nprocs (fun id => by rw [threads]; exact .refl _)
    fun pid => by rw [procs]; exact .refl _

theorem Hushed.refl (s : State) : Hushed s s := hushed_of_eq rfl rfl rfl rfl

theorem hushed_modifyThread
    (s : State)
    (id : ThreadId)
    {change : ThreadRec → ThreadRec}
    (hushed : (s.threads id).Hushed (change (s.threads id))) :
    Hushed s (s.modifyThread id change) := by
  refine hushed_of_records rfl rfl (fun other => ?_) fun pid => .refl _
  unfold modifyThread
  dsimp only
  by_cases same : other = id
  · subst same
    rw [Function.update_self]
    exact hushed
  · rw [Function.update_of_ne same]
    exact .refl _

theorem hushed_mapLive
    (s : State)
    {change : ThreadRec → ThreadRec}
    (hushed : ∀ t : ThreadRec, t.Hushed (change t)) : Hushed s (s.mapLive change) := by
  refine hushed_of_records rfl rfl (fun id => ?_) fun pid => .refl _
  unfold mapLive
  dsimp only
  split
  · exact hushed _
  · exact .refl _

theorem hushed_modifyProc
    (s : State)
    (pid : Pid)
    {change : ProcRec → ProcRec}
    (hushed : (s.procs pid).Hushed (change (s.procs pid))) :
    Hushed s (s.modifyProc pid change) := by
  refine hushed_of_records rfl rfl (fun id => .refl _) fun other => ?_
  unfold modifyProc
  dsimp only
  by_cases same : other = pid
  · subst same
    rw [Function.update_self]
    exact hushed
  · rw [Function.update_of_ne same]
    exact .refl _

/-- The threads of a dead process leave the schedule. -/
theorem hushed_retire
    (dead : s.Dead pid)
    {change : ThreadRec → ThreadRec}
    (stays : ∀ t : ThreadRec, t.StaysParked (change t))
    (others : ∀ t : ThreadRec, t.pid ≠ pid → change t = t) : Hushed s (s.mapLive change) := by
  refine ⟨keepsParked_mapLive s stays, fun pid _ alive => ⟨alive, rfl⟩,
    fun id inside _ ready alive => ?_, fun _ outside inside => absurd inside (not_lt.2 outside)⟩
  have apart : (s.threads id).pid ≠ pid := by
    rintro rfl
    cases dead.2.symm.trans alive
  unfold mapLive
  dsimp only
  rw [if_pos inside, others _ apart]
  exact ready

/-! ## Changes -/

theorem hushed_wakeAll (s : State) (pid : Pid) (key : Nat) : Hushed s (s.wakeAll pid key) :=
  hushed_mapLive s fun t => by
    split
    · exact ThreadRec.hushed_wake t
    · exact .refl t

theorem hushed_wakeIo (s : State) : Hushed s s.wakeIo :=
  hushed_mapLive s fun t => by
    split
    · exact ThreadRec.hushed_wake t
    · exact .refl t

theorem hushed_setNet (s : State) (net : Net) : Hushed s (s.setNet net) :=
  hushed_of_eq rfl rfl rfl rfl

theorem hushed_clockMoved (s : State) : Hushed s s.clockMoved := by
  unfold clockMoved
  dsimp only
  have moved : Hushed s (s.setNet (s.net.advance s.clockNs).1) := hushed_setNet s _
  split
  · exact moved.trans (hushed_wakeIo _)
  · exact moved

theorem hushed_tellParent (s : State) (child : Pid) : Hushed s (s.tellParent child) := by
  unfold tellParent
  split
  · next parent _ =>
      exact (@hushed_modifyProc s parent (.noteChild child)
        (ProcRec.hushed_of_eq le_rfl rfl rfl rfl)).trans (hushed_wakeAll _ _ _)
  · exact .refl s

theorem hushed_closeDown (s : State) (pid : Pid) : Hushed s (s.closeDown pid) :=
  ((hushed_setNet s _).trans (hushed_wakeIo _)).trans (hushed_tellParent _ pid)

theorem Woken.hushed
    {t t' : ThreadRec}
    (woken : s.Woken t t') : t.Hushed t' := by
  refine ⟨woken.staysParked, fun ready => ?_⟩
  cases woken with
  | same => exact ready
  | woken => rfl
  | timedOut => rfl

/-- A change sends a signal to a process, fires a timer, or sends no signal. -/
theorem Change.hushed (change : Change s later) :
    Hushed s later ∨ (∃ pid sig, pid < s.nprocs ∧ later = s.postSignal pid sig) ∨
      ∃ pid due, pid < s.nprocs ∧ (s.procs pid).pendingAlarm = some due ∧
        due ≤ s.clockNs ∧ later = s.fireAlarm pid := by
  cases change with
  | count => exact .inl (hushed_of_eq rfl rfl rfl rfl)
  | wake woken =>
      exact .inl (hushed_of_records rfl rfl (fun id => (woken id).hushed) fun pid => .refl _)
  | @noise procs noise =>
      refine .inl (hushed_of_records rfl rfl (fun _ => .refl _) fun pid => ?_)
      change (s.procs pid).Hushed (procs pid)
      obtain ⟨_, _, _, _, same⟩ := noise pid
      rw [same]
      exact ProcRec.hushed_of_eq le_rfl rfl rfl rfl
  | net => exact .inl (hushed_of_eq rfl rfl rfl rfl)
  | signal pid sig registered => exact .inr (.inl ⟨pid, sig, registered, rfl⟩)
  | alarm pid registered pending reached =>
      exact .inr (.inr ⟨pid, _, registered, pending, reached, rfl⟩)
  | stop =>
      refine .inl (hushed_of_records rfl rfl (fun id => ?_) fun pid => ?_)
      · obtain same | ⟨same, -, staying⟩ := s.stopRun_thread id
        · rw [same]
          exact .refl _
        · rw [same]
          exact ThreadRec.hushed_runnable staying
      · obtain same | same := s.stopRun_proc pid
        · rw [same]
          exact .refl _
        · rw [same]
          exact ProcRec.hushed_of_eq le_rfl rfl rfl rfl
  | grace pid =>
      refine .inl ((hushed_modifyProc s pid ?_).trans
        (hushed_modifyProc _ pid (ProcRec.hushed_of_eq le_rfl rfl rfl rfl)))
      unfold ProcRec.useUpShutdown
      split <;> exact ProcRec.hushed_of_eq le_rfl rfl rfl rfl

/-! ## Deaths -/

theorem hushed_newLife (registered : pid < s.nprocs) : Hushed s (s.newLife pid) := by
  have keeps := keepsParked_newLife registered
  obtain ⟨rng, isOver, starts, priority, crashAt, shutdownAt, pctRng, same, -⟩ :=
    newLife_eq registered
  rw [same] at keeps ⊢
  refine ⟨keeps, fun other inside alive => ?_, fun id inside _ ready _ => ?_,
    fun id outside inside _ => ?_⟩
  · rw [born_procs, if_neg inside.ne] at alive ⊢
    split
    · next victim =>
        rw [if_pos victim] at alive
        rw [victim]
        exact ⟨alive, rfl⟩
    · next other =>
        rw [if_neg other] at alive
        exact ⟨alive, rfl⟩
  · rw [born_threads, if_neg inside.ne]
    exact ready
  · have new : id = s.nthreads := Nat.le_antisymm (Nat.le_of_lt_succ inside) outside
    rw [born_threads, if_pos new]
    rfl

theorem hushed_registerRestart
    (dead : s.Dead pid)
    (status : Int) : Hushed s (s.registerRestart pid status) := by
  obtain ⟨-, same⟩ | ⟨-, same⟩ := registerRestart_cases dead.1 dead.2 status
  · rw [same]
    exact hushed_newLife dead.1
  · rw [same]
    exact .refl s

theorem hushed_killed (registered : pid < s.nprocs) : Hushed s (s.killed pid) := by
  have condemned : Hushed s (s.modifyProc pid (.condemn s.clockNs)) :=
    hushed_modifyProc s pid ⟨le_rfl, fun alive => by simp [ProcRec.condemn, ProcRec.alive] at alive⟩
  have dead : (s.modifyProc pid (.condemn s.clockNs)).Dead pid :=
    dead_killed (s := s) registered
  refine condemned.trans (hushed_retire dead (fun t => ?_) fun t apart => if_neg apart)
  split
  · exact ThreadRec.staysParked_retire t
  · exact .refl t

theorem hushed_crash (registered : pid < s.nprocs) : Hushed s (s.crash pid) := by
  have dead := dead_killed registered
  have counted : Hushed (s.killed pid)
      { s.killed pid with unsignalled := (s.killed pid).unsignalled + 1 } :=
    hushed_of_eq rfl rfl rfl rfl
  have noted (s : State) : Hushed s (s.noteUnsettled pid) := by
    unfold noteUnsettled
    split
    · have marked : Hushed s (s.modifyProc pid fun p => { p with unsettled := true }) :=
        hushed_modifyProc s pid (ProcRec.hushed_of_eq le_rfl rfl rfl rfl)
      exact marked.trans (hushed_of_eq rfl rfl rfl rfl)
    · exact .refl s
  rw [crash_eq]
  exact ((hushed_killed registered).trans ((counted.trans (noted _)).trans
    (hushed_closeDown _ pid))).trans (hushed_registerRestart dead.grieved killedStatus)

/-- What follows the report of a death. -/
theorem hushed_noteExit
    (registered : pid < s.nprocs)
    (status : Int) : Hushed (s.noteExit pid status) (s.buried pid status) := by
  have dead := dead_noteExit registered status
  have retired {s : State} (dead : s.Dead pid) : Hushed s (s.mapLive fun t =>
      if t.pid = pid ∧ t.state ≠ .exited then t.retire else t) := by
    refine hushed_retire dead (fun t => ?_) fun t apart => if_neg fun is => apart is.1
    split
    · exact ThreadRec.staysParked_retire t
    · exact .refl t
  have mourned : Hushed (s.noteExit pid status) ((s.noteExit pid status).mourn pid status) := by
    rw [mourn_eq]
    refine ((hushed_registerRestart dead status).trans ?_).trans (hushed_closeDown _ pid)
    exact @hushed_modifyProc _ pid .clearFaultTimes (ProcRec.hushed_of_eq le_rfl rfl rfl rfl)
  rw [buried_eq]
  split
  · exact retired dead
  · exact mourned.trans (retired (mourned.dead dead))

theorem dead_buried
    (registered : pid < s.nprocs)
    (status : Int) : (s.buried pid status).Dead pid :=
  (hushed_noteExit registered status).dead (dead_noteExit registered status)

theorem hushed_buried
    (registered : pid < s.nprocs)
    (status : Int) : Hushed s (s.buried pid status) := by
  have gone := (dead_noteExit registered status).2
  rw [noteExit_proc] at gone
  have exited : Hushed s (s.noteExit pid status) :=
    hushed_modifyProc s pid ⟨le_rfl, fun alive => nomatch gone.symm.trans alive⟩
  exact exited.trans (hushed_noteExit registered status)

/-! ## Up to a choice -/

/-- A passage sends a signal to a process, fires a timer, or sends no signal. -/
theorem Passage.hushed (passage : Passage s later) :
    Hushed s later ∨ (∃ pid sig, pid < s.nprocs ∧ later = s.postSignal pid sig) ∨
      ∃ pid due, pid < s.nprocs ∧ (s.procs pid).pendingAlarm = some due ∧
        due ≤ s.clockNs ∧ later = s.fireAlarm pid := by
  cases passage with
  | deed deed =>
      cases deed with
      | change change => exact change.hushed
      | crash pid alive => exact .inl (hushed_crash alive.1)
      | strike pid registered =>
          refine .inl ((hushed_modifyProc s pid ?_).trans (hushed_crash registered))
          unfold ProcRec.useUpCrash
          split <;> exact ProcRec.hushed_of_eq le_rfl rfl rfl rfl
  | jump => exact .inl (hushed_of_eq rfl rfl rfl rfl)
  | reseed => exact .inl (hushed_of_eq rfl rfl rfl rfl)

theorem Choice.hushed (choice : Choice s later) : Hushed s later := by
  have aside := choice.aside
  have nthreads := choice.nthreads
  cases choice with
  | mk =>
      refine hushed_of_records nthreads rfl (fun id => ?_) fun pid => .refl _
      exact ⟨(aside id).staysParked, fun ready => (aside id).state.trans ready⟩

/-! ## Operations -/

/-- Operations that send a signal to a process, or take those that are pending. -/
def Op.signals : Op → Bool
  | .postSignal _ _ | .takeSignals _ _ => true
  | _ => false

theorem hushed_drawCrash
    (s : State)
    (pid : Pid)
    (lifeStarts : Nat) : Hushed s (s.drawCrash pid lifeStarts) := by
  obtain ⟨rng, isOver, crashAt, shutdownAt, same, -⟩ := s.drawCrash_eq pid lifeStarts
  rw [same]
  have drawn : Hushed s (s.drawn rng isOver) := hushed_of_eq rfl rfl rfl rfl
  exact drawn.trans
    ((hushed_modifyProc _ pid (ProcRec.hushed_of_eq le_rfl rfl rfl rfl)).trans
      (hushed_modifyProc _ pid (ProcRec.hushed_of_eq le_rfl rfl rfl rfl)))

theorem hushed_addProc
    (s : State)
    (host : Nat)
    (parent : Option Pid) : Hushed s (s.addProc host parent).1 := by
  refine ⟨keepsParked_addProc s host parent, fun pid inside alive => ?_,
    fun _ _ _ ready _ => ready, fun _ outside inside => absurd inside (not_lt.2 outside)⟩
  have same : (s.addProc host parent).1.procs pid = s.procs pid :=
    Function.update_of_ne inside.ne ..
  rw [same] at alive ⊢
  exact ⟨alive, rfl⟩

theorem hushed_addThread (s : State) (pid : Pid) : Hushed s (s.addThread pid).1 := by
  have keeps := keepsParked_addThread s pid
  obtain ⟨pctRng, priority, drawn, -⟩ :=
    { s with nthreads := s.nthreads + 1 }.drawPriority_eq
  unfold addThread at keeps ⊢
  dsimp only at keeps ⊢
  rw [drawn] at keeps ⊢
  unfold modifyThread at keeps ⊢
  dsimp only at keeps ⊢
  refine ⟨keeps, fun _ _ alive => ⟨alive, rfl⟩, fun id inside _ ready _ => ?_,
    fun id outside inside blocked => ?_⟩
  · dsimp only
    rwa [Function.update_of_ne inside.ne]
  · have new : id = s.nthreads := Nat.le_antisymm (Nat.le_of_lt_succ inside) outside
    dsimp only at blocked
    rw [new, Function.update_self] at blocked
    cases blocked

theorem hushed_condWakeLoop
    (rounds : Nat)
    (s : State)
    (pid : Pid)
    (cond : Nat)
    (all : Bool) : Hushed s (condWakeLoop rounds s pid cond all) := by
  induction rounds generalizing s with
  | zero => exact .refl s
  | succ rounds inductionHypothesis =>
      unfold condWakeLoop
      split
      · exact .refl s
      · next first _ =>
          have marked : Hushed s (s.modifyThread first fun t =>
              { t with condKey := 0, signaled := true }) :=
            hushed_modifyThread s first (ThreadRec.hushed_of_eq rfl rfl rfl rfl)
          have signalled : Hushed s (s.condSignal first) :=
            marked.trans (hushed_modifyThread _ first (ThreadRec.hushed_wake _))
          dsimp only
          split
          · exact signalled.trans (inductionHypothesis _)
          · exact signalled

theorem hushed_mapProcs
    (s : State)
    {change : ProcRec → ProcRec}
    (hushed : ∀ p : ProcRec, p.Hushed (change p)) : Hushed s (s.mapProcs change) := by
  refine hushed_of_records rfl rfl (fun id => .refl _) fun pid => ?_
  unfold mapProcs
  dsimp only
  split
  · exact hushed _
  · exact .refl _

theorem hushed_takeKills (s : State) : Hushed s s.takeKills.1 := by
  unfold takeKills
  split
  · exact .refl s
  · have counted : Hushed s { s with unsignalled := 0 } := hushed_of_eq rfl rfl rfl rfl
    refine counted.trans (@hushed_mapProcs { s with unsignalled := 0 } (fun p =>
      if (p.killed && !p.signalled && 0 < p.realPid) = true then { p with signalled := true }
      else p) fun p => ?_)
    split
    · exact ProcRec.hushed_of_eq le_rfl rfl rfl rfl
    · exact .refl p

theorem hushed_forgetUnsettled (s : State) : Hushed s s.forgetUnsettled := by
  have settled : Hushed s (s.mapProcs fun p => { p with unsettled := false }) :=
    hushed_mapProcs s fun p => ProcRec.hushed_of_eq le_rfl rfl rfl rfl
  have counted : Hushed s
      { s.mapProcs fun p => { p with unsettled := false } with unsettled := 0 } :=
    settled.trans (hushed_of_eq rfl rfl rfl rfl)
  exact counted.trans (hushed_wakeIo _)

theorem hushed_settleDeaths (s : State) : Hushed s s.settleDeaths.1 := by
  unfold settleDeaths
  split
  · exact .refl s
  · split
    · exact .refl s
    · exact hushed_forgetUnsettled s

theorem hushed_setAlarm
    (s : State)
    (pid : Pid)
    (value interval : Nat) : Hushed s (s.setAlarm pid value interval) := by
  unfold setAlarm
  split
  · exact hushed_modifyProc s pid (ProcRec.hushed_of_eq le_rfl rfl rfl rfl)
  · have noted : Hushed s (s.noteAdd s.clockNs value) := hushed_of_eq rfl rfl rfl rfl
    exact noted.trans (hushed_modifyProc _ pid (ProcRec.hushed_of_eq le_rfl rfl rfl rfl))

theorem hushed_unregister (registered : pid < s.nprocs) : Hushed s (s.unregister pid) := by
  have gone : Hushed s (s.modifyProc pid fun p => { p with state := .exited, reaped := true }) :=
    hushed_modifyProc s pid ⟨le_rfl, fun alive => by simp [ProcRec.alive] at alive⟩
  have dead : (s.modifyProc pid fun p =>
      { p with state := .exited, reaped := true }).Dead pid := by
    refine ⟨registered, ?_⟩
    change (Function.update s.procs pid _ pid).alive = false
    rw [Function.update_self]
    rfl
  refine gone.trans (hushed_retire dead (fun t => ?_) fun t apart => if_neg apart)
  split
  · exact ThreadRec.staysParked_gone rfl rfl rfl
  · exact .refl t

/-- Where the baton stays, the other operations send no signal to a process. -/
theorem hushed_of_exec
    {op : Op}
    {answer : Answer}
    (stays : op.Stays s)
    (quiet : op.signals = false)
    (possible : s.Possible op)
    (done : s.exec fuel op = some (later, answer)) : Hushed s later := by
  by_cases setting : op.setting = true
  · cases tuned_of_exec setting done
    exact hushed_of_eq rfl rfl rfl rfl
  cases op with
  | addProc host parent =>
      obtain ⟨rfl, -⟩ := Prod.mk.inj (Option.some.inj done)
      exact hushed_addProc s host parent
  | addThread pid =>
      obtain ⟨rfl, -⟩ := Prod.mk.inj (Option.some.inj done)
      exact hushed_addThread s pid
  | setFaults pid faults spec =>
      obtain ⟨rfl, -⟩ := Prod.mk.inj (Option.some.inj done)
      exact (hushed_modifyProc s pid (ProcRec.hushed_of_eq le_rfl rfl rfl rfl)).trans
        (hushed_drawCrash _ pid _)
  | attach pid realPid =>
      obtain ⟨rfl, -⟩ := Prod.mk.inj (Option.some.inj done)
      refine hushed_modifyProc s pid ⟨le_rfl, fun alive => ⟨?_, rfl⟩⟩
      unfold ProcRec.alive at alive ⊢
      simpa [possible.2] using alive
  | unregister child =>
      obtain ⟨rfl, -⟩ := Prod.mk.inj (Option.some.inj done)
      exact hushed_unregister possible.1.1
  | setAlarm pid value interval =>
      obtain ⟨rfl, -⟩ := Prod.mk.inj (Option.some.inj done)
      exact hushed_setAlarm s pid value interval
  | reap pid =>
      obtain ⟨rfl, -⟩ := Prod.mk.inj (Option.some.inj done)
      exact hushed_modifyProc s pid (ProcRec.hushed_of_eq le_rfl rfl rfl rfl)
  | setDeadline id deadline =>
      obtain ⟨rfl, -⟩ := Prod.mk.inj (Option.some.inj done)
      exact hushed_modifyThread s id (ThreadRec.hushed_of_eq rfl rfl rfl rfl)
  | handOff | choose => cases stays
  | crash victim =>
      obtain ⟨rfl, -⟩ := Prod.mk.inj (Option.some.inj done)
      exact hushed_crash possible.1.1
  | processDied pid status =>
      obtain ⟨⟨middle, handoff⟩, died, same⟩ := Option.map_eq_some_iff.1 done
      obtain rfl : middle = later := congrArg Prod.fst same
      obtain ⟨-, rfl, -⟩ | ⟨id, passed, held, -⟩ := processDied_eq_some_iff.1 died
      · exact hushed_buried possible status
      · cases held.symm.trans (show (s.buried pid status).heldBy pid = none from stays)
  | wakeAll pid key =>
      obtain ⟨rfl, -⟩ := Prod.mk.inj (Option.some.inj done)
      exact hushed_wakeAll s pid key
  | wakeIo =>
      obtain ⟨rfl, -⟩ := Prod.mk.inj (Option.some.inj done)
      exact hushed_wakeIo s
  | wakeThread id =>
      obtain ⟨rfl, -⟩ := Prod.mk.inj (Option.some.inj done)
      exact hushed_modifyThread s id (ThreadRec.hushed_wake _)
  | postSignal | takeSignals => cases quiet
  | threadKill id sig =>
      obtain ⟨rfl, -⟩ := Prod.mk.inj (Option.some.inj done)
      exact hushed_modifyThread s id (ThreadRec.hushed_of_eq rfl rfl rfl rfl)
  | condEnqueue id cond =>
      obtain ⟨rfl, -⟩ := Prod.mk.inj (Option.some.inj done)
      have counted : Hushed s { s with nextCondSeq := s.nextCondSeq + 1 } :=
        hushed_of_eq rfl rfl rfl rfl
      exact counted.trans (@hushed_modifyThread _ id (fun t =>
        { t with signaled := false, condKey := cond, condSeq := s.nextCondSeq })
          (ThreadRec.hushed_of_eq rfl rfl rfl rfl))
  | condWake pid cond all =>
      obtain ⟨rfl, -⟩ := Prod.mk.inj (Option.some.inj done)
      exact hushed_condWakeLoop _ s pid cond all
  | noteOutsideWake pid =>
      obtain ⟨rfl, -⟩ := Prod.mk.inj (Option.some.inj done)
      exact hushed_modifyProc s pid (ProcRec.hushed_of_eq (Nat.le_succ _) rfl rfl rfl)
  | clockRead =>
      obtain ⟨rfl, -⟩ := Prod.mk.inj (Option.some.inj done)
      have read (clockNs : Nat) : Hushed s
          ((s.noteAdd s.clockNs perReadNs).setClock clockNs) := hushed_of_eq rfl rfl rfl rfl
      exact (read _).trans (hushed_clockMoved _)
  | takeKills =>
      obtain ⟨rfl, -⟩ := Prod.mk.inj (Option.some.inj done)
      exact hushed_takeKills s
  | settleDeaths =>
      obtain ⟨rfl, -⟩ := Prod.mk.inj (Option.some.inj done)
      exact hushed_settleDeaths s
  | forgetUnsettled =>
      obtain ⟨rfl, -⟩ := Prod.mk.inj (Option.some.inj done)
      exact hushed_forgetUnsettled s
  | net op =>
      obtain ⟨⟨net, reply⟩, carried, same⟩ := Option.map_eq_some_iff.1 done
      obtain rfl : s.setNet net = later := congrArg Prod.fst same
      exact hushed_setNet s net
  | _ => exact absurd rfl setting

end State
end Derp

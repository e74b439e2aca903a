import Derp.Sched.Parked

/-!
# What tells a parent of a death

A parent waits for its children blocked on a key of its own.  Whatever happens to the
schedule, a child that is gone afterwards was gone before, or no thread of its parent is
blocked on that key any more.  While one thread keeps the baton, only a crash and the
launcher's report of a death take a process away, and what the others are recorded to be
blocked on stays.
-/

namespace Derp

/-- A child that its parent has not collected is gone, or as good as gone. -/
def ProcRec.Gone (p : ProcRec) (parent : Pid) : Prop :=
  p.parent = some parent ∧ (p.state = .exited ∨ p.killed = true) ∧ p.reaped = false

namespace State

variable
  {s middle later : State}
  {pid child parent : Pid}
  {id : ThreadId}
  {fuel : Nat}

/-! ## Who is gone -/

/-- Nobody is gone who was not. -/
def KeepsLives (s later : State) : Prop :=
  ∀ child parent, (later.procs child).Gone parent → (s.procs child).Gone parent

theorem KeepsLives.refl (s : State) : KeepsLives s s := fun _ _ gone => gone

theorem KeepsLives.trans
    (first : KeepsLives s middle)
    (second : KeepsLives middle later) : KeepsLives s later :=
  fun child parent gone => first child parent (second child parent gone)

theorem keepsLives_of_eq (procs : later.procs = s.procs) : KeepsLives s later :=
  fun child parent gone => by rwa [procs] at gone

theorem keepsLives_modifyProc
    (s : State)
    (pid : Pid)
    {change : ProcRec → ProcRec}
    (lives : ∀ parent, (change (s.procs pid)).Gone parent → (s.procs pid).Gone parent) :
    KeepsLives s (s.modifyProc pid change) := by
  intro child parent gone
  unfold modifyProc at gone
  dsimp only at gone
  by_cases same : child = pid
  · subst same
    rw [Function.update_self] at gone
    exact lives parent gone
  · rwa [Function.update_of_ne same] at gone

theorem useUpShutdown_gone (p : ProcRec) (parent : Pid) :
    p.useUpShutdown.Gone parent ↔ p.Gone parent := by
  unfold ProcRec.useUpShutdown
  split <;> exact .rfl

theorem useUpCrash_gone (p : ProcRec) (parent : Pid) :
    p.useUpCrash.Gone parent ↔ p.Gone parent := by
  unfold ProcRec.useUpCrash
  split <;> exact .rfl

theorem Change.keepsLives (change : Change s later) : KeepsLives s later := by
  cases change with
  | count => exact .refl s
  | wake => exact .refl s
  | @noise procs noise =>
      intro child parent gone
      change (procs child).Gone parent at gone
      obtain ⟨_, _, _, _, same⟩ := noise child
      rw [same] at gone
      exact gone
  | net => exact .refl s
  | signal pid sig =>
      exact keepsLives_modifyProc s pid fun _ gone => gone
  | alarm pid _ pending reached =>
      obtain ⟨isOver, again, same, -, -⟩ := s.rearm_eq pid
      rw [fireAlarm_due pending reached, same]
      have noted : KeepsLives s { s with overflow := isOver } := .refl s
      have signalled := (noted.trans (@keepsLives_modifyProc _ pid
        (.setAlarmAt again) fun _ gone => gone)).trans
          (@keepsLives_modifyProc _ pid (.addSignal sigalrm) fun _ gone => gone)
      unfold wakeFirst
      split
      · exact signalled
      · exact signalled
  | stop =>
      intro child parent gone
      obtain same | same := s.stopRun_proc child <;> rw [same] at gone <;> exact gone
  | grace pid =>
      exact (keepsLives_modifyProc s pid fun parent =>
        (useUpShutdown_gone _ parent).1).trans
          (keepsLives_modifyProc _ pid fun _ gone => gone)

theorem Changes.keepsLives (changes : Changes s later) : KeepsLives s later :=
  Changes.keep (P := KeepsLives s) (fun change kept => kept.trans change.keepsLives)
    changes (.refl s)

theorem keepsLives_newLife (registered : pid < s.nprocs) :
    KeepsLives s (s.newLife pid) := by
  obtain ⟨rng, isOver, starts, priority, crashAt, shutdownAt, pctRng, same, -⟩ :=
    newLife_eq registered
  rw [same]
  intro child parent gone
  rw [born_procs] at gone
  split at gone
  · cases gone.1
  · split at gone
    · next victim =>
        rw [victim]
        exact gone
    · exact gone

theorem keepsLives_registerRestart
    (dead : s.Dead pid)
    (status : Int) : KeepsLives s (s.registerRestart pid status) := by
  obtain ⟨restarts, same⟩ | ⟨-, same⟩ := registerRestart_cases dead.1 dead.2 status
  · rw [same]
    exact keepsLives_newLife dead.1
  · rw [same]
    exact .refl s

/-! ## Who is told -/

/-- Nobody blocks, and a parent that stays blocked for its children has no child gone that
was not. -/
structure Hears (s later : State) : Prop where
  keeps : KeepsParked s later
  heard : ∀ id < s.nthreads, (later.threads id).state = .blocked →
    (later.threads id).key = waitKey → ∀ child,
      (later.procs child).Gone (s.threads id).pid → (s.procs child).Gone (s.threads id).pid

theorem Hears.refl (s : State) : Hears s s :=
  ⟨.refl s, fun _ _ _ _ _ gone => gone⟩

theorem Hears.trans
    (first : Hears s middle)
    (second : Hears middle later) : Hears s later where
  keeps := first.keeps.trans second.keeps
  heard := fun id inside blocked onKey child gone => by
    have between := inside.trans_le first.keeps.nthreads
    obtain ⟨before, same⟩ := (second.keeps.thread id between).blocked blocked
    have ofPid := (first.keeps.thread id inside).pid
    refine first.heard id inside before (same.symm.trans onKey) child ?_
    rw [← ofPid]
    rw [← ofPid] at gone
    exact second.heard id between blocked onKey child gone

theorem KeepsParked.hears
    (keeps : KeepsParked s later)
    (lives : KeepsLives s later) : Hears s later :=
  ⟨keeps, fun _ _ _ _ child gone => lives child _ gone⟩

/-- What else is in the state does not matter. -/
theorem hears_of_eq
    (nthreads : later.nthreads = s.nthreads)
    (nprocs : later.nprocs = s.nprocs)
    (threads : later.threads = s.threads)
    (procs : later.procs = s.procs) : Hears s later :=
  (keepsParked_of_eq nthreads nprocs threads procs).hears (keepsLives_of_eq procs)

theorem hears_modifyProc
    (s : State)
    (pid : Pid)
    {change : ProcRec → ProcRec}
    (counts : (s.procs pid).outsideWakes ≤ (change (s.procs pid)).outsideWakes)
    (lives : ∀ parent, (change (s.procs pid)).Gone parent → (s.procs pid).Gone parent) :
    Hears s (s.modifyProc pid change) :=
  (keepsParked_modifyProc s pid counts).hears (keepsLives_modifyProc s pid lives)

/-- A parent is told: none of its threads stays blocked for its children. -/
theorem awake_tellParent
    (inside : id < s.nthreads)
    (isParent : (s.procs child).parent = some (s.threads id).pid)
    (onKey : ((s.tellParent child).threads id).key = waitKey) :
    ((s.tellParent child).threads id).state ≠ .blocked := by
  obtain ⟨noted, isNoted⟩ : ∃ noted, noted =
    s.modifyProc (s.threads id).pid (.noteChild child) := ⟨_, rfl⟩
  have told : s.tellParent child = noted.wakeAll (s.threads id).pid waitKey := by
    unfold tellParent
    rw [isParent, isNoted]
  have same : noted.threads = s.threads := by rw [isNoted]; rfl
  have registered : id < noted.nthreads := by rw [isNoted]; exact inside
  rw [told] at onKey ⊢
  intro blocked
  have keeps := (keepsParked_wakeAll noted (s.threads id).pid waitKey).thread id registered
  exact awake_wakeAll registered (by rw [same])
    ((keeps.blocked blocked).2.symm.trans onKey) blocked

theorem awake_closeDown
    (inside : id < s.nthreads)
    (isParent : (s.procs child).parent = some (s.threads id).pid)
    (onKey : ((s.closeDown child).threads id).key = waitKey) :
    ((s.closeDown child).threads id).state ≠ .blocked := by
  have woken : KeepsParked s (s.setNet (s.net.processDied child)).wakeIo :=
    Deeds.keepsParked (Changes.deeds ((changes_processDied s child).trans (changes_wakeIo _)))
  refine awake_tellParent (inside.trans_le woken.nthreads) ?_ onKey
  rw [(woken.thread id inside).pid]
  exact isParent

/-! ## Deaths -/

theorem noteUnsettled_parent (s : State) (victim child : Pid) :
    ((s.noteUnsettled victim).procs child).parent = (s.procs child).parent := by
  unfold noteUnsettled
  split
  · change (Function.update s.procs victim _ child).parent = _
    by_cases same : child = victim
    · rw [same, Function.update_self]
    · rw [Function.update_of_ne same]
  · rfl

theorem keepsParked_registerRestart
    (dead : s.Dead pid)
    (status : Int) : KeepsParked s (s.registerRestart pid status) := by
  obtain ⟨-, same⟩ | ⟨-, same⟩ := registerRestart_cases dead.1 dead.2 status
  · rw [same]
    exact keepsParked_newLife dead.1
  · rw [same]
    exact .refl s

/-- The threads of a crashed process' parent hear of it. -/
theorem hears_crash (registered : pid < s.nprocs) : Hears s (s.crash pid) := by
  have dead := dead_killed registered
  have condemned := keepsParked_killed s pid
  have noted : KeepsParked (s.killed pid)
      ({ s.killed pid with
        unsignalled := (s.killed pid).unsignalled + 1 }.noteUnsettled pid) :=
    (keepsParked_of_eq rfl rfl rfl rfl : KeepsParked (s.killed pid)
      { s.killed pid with unsignalled := (s.killed pid).unsignalled + 1 }).trans
        (Deeds.keepsParked (changes_noteUnsettled _ pid).deeds)
  have grieved := Deeds.keepsParked (changes_grieved (s.killed pid) pid).deeds
  have restarted := keepsParked_registerRestart dead.grieved killedStatus
  have lives := (changes_grieved (s.killed pid) pid).keepsLives.trans
    (keepsLives_registerRestart dead.grieved killedStatus)
  rw [crash_eq]
  refine ⟨(condemned.trans grieved).trans restarted,
    fun id inside blocked onKey child gone => ?_⟩
  have goneThen := lives child _ gone
  by_cases victim : child = pid
  · subst victim
    have inside' := inside.trans_le condemned.nthreads
    obtain ⟨between, same⟩ := (restarted.thread id
      (inside'.trans_le grieved.nthreads)).blocked blocked
    refine absurd between (awake_closeDown (inside'.trans_le noted.nthreads) ?_
      (same.symm.trans onKey))
    rw [noteUnsettled_parent, (noted.thread id inside').pid, (condemned.thread id inside).pid]
    exact goneThen.1
  · rwa [show (s.killed pid).procs child = s.procs child from
      Function.update_of_ne victim _ _] at goneThen

theorem Deeds.hears (deeds : Deeds s later) : Hears s later := by
  induction deeds with
  | refl => exact .refl s
  | tail _ deed heard =>
      cases deed with
      | change change => exact heard.trans (change.keepsParked.hears change.keepsLives)
      | crash pid alive => exact heard.trans (hears_crash alive.1)
      | strike pid registered =>
          exact (heard.trans (hears_modifyProc _ pid (useUpCrash_outsideWakes _).ge
            fun parent => (useUpCrash_gone _ parent).1)).trans (hears_crash registered)

theorem Passages.hears (passages : Passages s later) : Hears s later := by
  induction passages with
  | refl => exact .refl s
  | tail _ passage heard =>
      cases passage with
      | deed deed => exact heard.trans (Deeds.hears (.single deed))
      | jump => exact heard.trans (hears_of_eq rfl rfl rfl rfl)
      | reseed => exact heard.trans (hears_of_eq rfl rfl rfl rfl)

theorem Choice.hears (choice : Choice s later) : Hears s later := by
  refine choice.keepsParked.hears ?_
  cases choice
  exact .refl s

theorem hears_giveBaton
    {next : ThreadId}
    (runnable : (s.threads next).state = .runnable)
    (me : Option ThreadId)
    (site : UInt64) : Hears s (s.giveBaton me next site).1 := by
  refine (keepsParked_giveBaton runnable me site).hears ?_
  obtain ⟨_, _, _, _, _, park, same⟩ := s.giveBaton_eq me next site
  rw [same]
  exact .refl s

theorem hears_choose
    {me : Option ThreadId}
    {site : UInt64}
    {handoff : Handoff}
    (chosen : s.choose fuel me site = some (later, handoff)) : Hears s later :=
  choose_keep (P := Hears s)
    (fun passages => passages.hears)
    (fun choice heard => heard.trans choice.hears)
    (fun _ runnable heard => heard.trans (hears_giveBaton runnable _ _))
    chosen

/-- Whoever gives the baton up is recorded first. -/
theorem hears_handOff
    {src : Option (ThreadId × ThreadState × Nat)}
    {site : UInt64}
    {handoff : Handoff}
    (handed : s.handOff fuel src site = some (later, handoff)) :
    Hears (s.recorded src) later :=
  hears_choose handed

theorem keepsLives_mourn
    (dead : s.Dead pid)
    (status : Int) : KeepsLives s (s.mourn pid status) := by
  have restarted := keepsLives_registerRestart dead status
  have cleared : KeepsLives (s.registerRestart pid status)
      ((s.registerRestart pid status).modifyProc pid .clearFaultTimes) :=
    keepsLives_modifyProc _ pid fun _ gone => gone
  rw [mourn_eq]
  exact (restarted.trans cleared).trans (changes_closeDown _ pid).keepsLives

/-- A burial takes nobody away but the one whose exit is noted. -/
theorem keepsLives_buried
    (registered : pid < s.nprocs)
    (status : Int) : KeepsLives (s.noteExit pid status) (s.buried pid status) := by
  intro child parent gone
  rw [buried_eq] at gone
  change ((if ((s.noteExit pid status).procs pid).killed then s.noteExit pid status
    else (s.noteExit pid status).mourn pid status).procs child).Gone parent at gone
  split at gone
  · exact gone
  · exact keepsLives_mourn (dead_noteExit registered status) status child parent gone

/-- A death is mourned: the threads of the parent hear of it. -/
theorem hears_mourn
    (registered : pid < s.nprocs)
    (status : Int) : Hears s ((s.noteExit pid status).mourn pid status) := by
  have dead := dead_noteExit registered status
  have exited : KeepsParked s (s.noteExit pid status) := keepsParked_modifyProc s pid le_rfl
  have restarted := keepsParked_registerRestart dead status
  have cleared : KeepsParked ((s.noteExit pid status).registerRestart pid status)
      (((s.noteExit pid status).registerRestart pid status).modifyProc pid
        .clearFaultTimes) := keepsParked_modifyProc _ pid le_rfl
  have closed := changes_closeDown (((s.noteExit pid status).registerRestart pid
    status).modifyProc pid .clearFaultTimes) pid
  have upTo := (exited.trans restarted).trans cleared
  have lives := keepsLives_mourn dead status
  rw [mourn_eq] at lives ⊢
  refine ⟨upTo.trans (Deeds.keepsParked closed.deeds),
    fun id inside blocked onKey child gone => ?_⟩
  by_cases victim : child = pid
  · subst victim
    refine absurd blocked (awake_closeDown (inside.trans_le upTo.nthreads) ?_ onKey)
    rw [(upTo.thread id inside).pid]
    exact (closed.keepsLives child _ gone).1
  · have before := lives child _ gone
    rwa [show (s.noteExit pid status).procs child = s.procs child from
      Function.update_of_ne victim _ _] at before

/-- The launcher's report of a death reaches the threads of the parent. -/
theorem hears_buried
    (registered : pid < s.nprocs)
    (status : Int) : Hears s (s.buried pid status) := by
  have retired (s : State) : Hears s (s.mapLive fun t =>
      if t.pid = pid ∧ t.state ≠ .exited then t.retire else t) :=
    (keepsParked_mapLive s fun t => by
      split
      · exact ThreadRec.staysParked_retire t
      · exact .refl t).hears (.refl s)
  rw [buried_eq]
  refine Hears.trans ?_ (retired _)
  split
  · next killed =>
      refine hears_modifyProc s pid le_rfl fun parent gone => ?_
      rw [noteExit_proc] at killed
      exact ⟨gone.1, .inr killed, gone.2.2⟩
  · exact hears_mourn registered status

theorem hears_processDied
    (registered : pid < s.nprocs)
    {status : Int}
    {handoff : Option Handoff}
    (died : s.processDied fuel pid status = some (later, handoff)) : Hears s later := by
  obtain ⟨-, rfl, -⟩ | ⟨id, passed, -, handed, -⟩ := processDied_eq_some_iff.1 died
  · exact hears_buried registered status
  · have gone : Hears (s.buried pid status)
        ((s.buried pid status).modifyThread id fun t =>
          { t with state := .exited, key := 0 }) :=
      (keepsParked_modifyThread _ id
        (ThreadRec.staysParked_gone rfl rfl rfl)).hears (.refl _)
    have recorded : Hears ((s.buried pid status).modifyThread id fun t =>
          { t with state := .exited, key := 0 })
        ((s.buried pid status).recorded (some (id, .exited, 0))) :=
      hears_of_eq rfl rfl rfl rfl
    exact ((hears_buried registered status).trans (gone.trans recorded)).trans
      (hears_handOff handed)

/-! ## Operations -/

/-- An operation that can be the death of a process. -/
def Op.deadly : Op → Bool
  | .handOff _ _ | .choose _ _ | .crash _ | .processDied _ _ => true
  | _ => false

theorem keepsLives_drawCrash
    (s : State)
    (pid : Pid)
    (lifeStarts : Nat) : KeepsLives s (s.drawCrash pid lifeStarts) := by
  obtain ⟨rng, isOver, crashAt, shutdownAt, same, -⟩ := s.drawCrash_eq pid lifeStarts
  rw [same]
  have drawn : KeepsLives s (s.drawn rng isOver) := .refl s
  exact drawn.trans ((keepsLives_modifyProc _ pid fun _ gone => gone).trans
    (keepsLives_modifyProc _ pid fun _ gone => gone))

theorem keepsLives_setAlarm
    (s : State)
    (pid : Pid)
    (value interval : Nat) : KeepsLives s (s.setAlarm pid value interval) := by
  unfold setAlarm
  split
  · exact keepsLives_modifyProc s pid fun _ gone => gone
  · have noted : KeepsLives s (s.noteAdd s.clockNs value) := .refl s
    exact noted.trans (keepsLives_modifyProc _ pid fun _ gone => gone)

theorem keepsLives_condWakeLoop
    (rounds : Nat)
    (s : State)
    (pid : Pid)
    (cond : Nat)
    (all : Bool) : KeepsLives s (condWakeLoop rounds s pid cond all) := by
  induction rounds generalizing s with
  | zero => exact .refl s
  | succ rounds inductionHypothesis =>
      unfold condWakeLoop
      split
      · exact .refl s
      · next first _ =>
          have signalled : KeepsLives s (s.condSignal first) := .refl s
          dsimp only
          split
          · exact signalled.trans (inductionHypothesis _)
          · exact signalled

theorem keepsLives_addThread (s : State) (pid : Pid) :
    KeepsLives s (s.addThread pid).1 := by
  obtain ⟨pctRng, priority, drawn, -⟩ :=
    { s with nthreads := s.nthreads + 1 }.drawPriority_eq
  unfold addThread
  dsimp only
  rw [drawn]
  exact .refl s

theorem keepsLives_addProc
    (tidy : s.Tidy)
    (host : Nat)
    (parent : Option Pid) : KeepsLives s (s.addProc host parent).1 := by
  intro child other gone
  unfold addProc modifyProc at gone
  dsimp only at gone
  by_cases new : child = s.nprocs
  · subst new
    obtain ⟨_, _, _, _, spare⟩ := tidy.spareProcs s.nprocs le_rfl
    rw [Function.update_self] at gone
    obtain ⟨-, starting | killed, -⟩ := gone
    · cases starting
    · rw [show (s.procs s.nprocs).killed = false from by rw [spare]] at killed
      cases killed
  · rwa [Function.update_of_ne new] at gone

/-- Other operations take nobody away. -/
theorem keepsLives_of_exec
    {op : Op}
    {answer : Answer}
    (tidy : s.Tidy)
    (harmless : op.deadly = false)
    (possible : s.Possible op)
    (done : s.exec fuel op = some (later, answer)) : KeepsLives s later := by
  by_cases calm : op.calm = true
  · exact (changes_of_exec calm possible done).keepsLives
  by_cases setting : op.setting = true
  · cases tuned_of_exec setting done
    exact .refl s
  cases op with
  | addProc host parent =>
      obtain ⟨rfl, -⟩ := Prod.mk.inj (Option.some.inj done)
      exact keepsLives_addProc tidy host parent
  | addThread pid =>
      obtain ⟨rfl, -⟩ := Prod.mk.inj (Option.some.inj done)
      exact keepsLives_addThread s pid
  | setFaults pid faults spec =>
      obtain ⟨rfl, -⟩ := Prod.mk.inj (Option.some.inj done)
      exact (keepsLives_modifyProc s pid fun _ gone => gone).trans
        (keepsLives_drawCrash _ pid _)
  | attach pid realPid =>
      obtain ⟨rfl, -⟩ := Prod.mk.inj (Option.some.inj done)
      refine keepsLives_modifyProc s pid fun parent gone => ?_
      obtain ⟨isParent, live | killed, left⟩ := gone
      · cases live
      · exact ⟨isParent, .inr killed, left⟩
  | unregister child =>
      obtain ⟨rfl, -⟩ := Prod.mk.inj (Option.some.inj done)
      exact @keepsLives_modifyProc s child
        (fun p => { p with state := .exited, reaped := true }) fun _ gone => nomatch gone.2.2
  | setAlarm pid value interval =>
      obtain ⟨rfl, -⟩ := Prod.mk.inj (Option.some.inj done)
      exact keepsLives_setAlarm s pid value interval
  | reap pid =>
      obtain ⟨rfl, -⟩ := Prod.mk.inj (Option.some.inj done)
      exact keepsLives_modifyProc s pid fun parent gone => nomatch gone.2.2
  | takeSignals id unmasked =>
      obtain ⟨rfl, -⟩ := Prod.mk.inj (Option.some.inj done)
      exact @keepsLives_modifyProc s (s.threads id).pid
        (fun p => { p with sigPending := p.sigPending.ldiff unmasked }) fun _ gone => gone
  | condWake pid cond all =>
      obtain ⟨rfl, -⟩ := Prod.mk.inj (Option.some.inj done)
      exact keepsLives_condWakeLoop _ s pid cond all
  | noteOutsideWake pid =>
      obtain ⟨rfl, -⟩ := Prod.mk.inj (Option.some.inj done)
      exact keepsLives_modifyProc s pid fun _ gone => gone
  | clockRead =>
      obtain ⟨rfl, -⟩ := Prod.mk.inj (Option.some.inj done)
      have read (clockNs : Nat) : KeepsLives s
          ((s.noteAdd s.clockNs perReadNs).setClock clockNs) := .refl s
      exact (read _).trans (changes_clockMoved _).keepsLives
  | setDeadline id deadline =>
      obtain ⟨rfl, -⟩ := Prod.mk.inj (Option.some.inj done)
      exact .refl s
  | threadKill id sig =>
      obtain ⟨rfl, -⟩ := Prod.mk.inj (Option.some.inj done)
      exact .refl s
  | condEnqueue id cond =>
      obtain ⟨rfl, -⟩ := Prod.mk.inj (Option.some.inj done)
      exact .refl s
  | handOff | choose | crash | processDied => cases harmless
  | _ => simp [Op.calm, Op.setting] at calm setting

/-- Apart from whoever gives the baton up, no operation leaves a parent blocked whose child
has gone. -/
theorem hears_of_exec
    {op : Op}
    {answer : Answer}
    (tidy : s.Tidy)
    (possible : s.Possible op)
    (done : s.exec fuel op = some (later, answer)) : Hears (s.recorded op.giver) later := by
  by_cases deadly : op.deadly = true
  · cases op with
    | handOff src site =>
        obtain ⟨⟨middle, handoff⟩, handed, same⟩ := Option.map_eq_some_iff.1 done
        obtain rfl : middle = later := congrArg Prod.fst same
        exact hears_handOff handed
    | choose me site =>
        obtain ⟨⟨middle, handoff⟩, chosen, same⟩ := Option.map_eq_some_iff.1 done
        obtain rfl : middle = later := congrArg Prod.fst same
        exact hears_choose chosen
    | crash victim =>
        obtain ⟨rfl, -⟩ := Prod.mk.inj (Option.some.inj done)
        exact hears_crash possible.1.1
    | processDied pid status =>
        obtain ⟨⟨middle, handoff⟩, died, same⟩ := Option.map_eq_some_iff.1 done
        obtain rfl : middle = later := congrArg Prod.fst same
        exact hears_processDied possible died
    | _ => cases deadly
  · have harmless : op.deadly = false := Bool.eq_false_iff.2 deadly
    refine (keepsParked_of_exec possible done).hears ?_
    rw [show s.recorded op.giver = s by cases op <;> first | rfl | cases harmless]
    exact keepsLives_of_exec tidy harmless possible done

/-! ## What threads are recorded to be blocked on -/

/-- Threads are recorded with the keys that they had. -/
structure KeepsKeys (s later : State) : Prop where
  nthreads : s.nthreads ≤ later.nthreads
  key : ∀ id < s.nthreads, (later.threads id).key = (s.threads id).key

theorem KeepsKeys.refl (s : State) : KeepsKeys s s := ⟨le_rfl, fun _ _ => rfl⟩

theorem KeepsKeys.trans
    (first : KeepsKeys s middle)
    (second : KeepsKeys middle later) : KeepsKeys s later where
  nthreads := first.nthreads.trans second.nthreads
  key := fun id inside =>
    (second.key id (inside.trans_le first.nthreads)).trans (first.key id inside)

theorem keepsKeys_of_eq
    (nthreads : later.nthreads = s.nthreads)
    (threads : later.threads = s.threads) : KeepsKeys s later :=
  ⟨nthreads.ge, fun _ _ => by rw [threads]⟩

theorem keepsKeys_modifyThread
    (s : State)
    (id : ThreadId)
    {change : ThreadRec → ThreadRec}
    (same : (change (s.threads id)).key = (s.threads id).key) :
    KeepsKeys s (s.modifyThread id change) := by
  refine ⟨le_rfl, fun other _ => ?_⟩
  unfold modifyThread
  dsimp only
  by_cases itself : other = id
  · subst itself
    rw [Function.update_self]
    exact same
  · rw [Function.update_of_ne itself]

theorem keepsKeys_mapLive
    (s : State)
    {change : ThreadRec → ThreadRec}
    (same : ∀ t : ThreadRec, (change t).key = t.key) : KeepsKeys s (s.mapLive change) := by
  refine ⟨le_rfl, fun id inside => ?_⟩
  unfold mapLive
  dsimp only
  rw [if_pos inside]
  exact same _

theorem Woken.key
    {t t' : ThreadRec}
    (woken : s.Woken t t') : t'.key = t.key := by
  cases woken <;> rfl

theorem wake_key (t : ThreadRec) : t.wake.key = t.key := by
  unfold ThreadRec.wake
  split <;> rfl

theorem keepsKeys_wakeFirst (s : State) (pid : Pid) : KeepsKeys s (s.wakeFirst pid) := by
  unfold wakeFirst
  split
  · exact keepsKeys_modifyThread s _ rfl
  · exact .refl s

theorem Change.keepsKeys (change : Change s later) : KeepsKeys s later := by
  cases change with
  | count => exact keepsKeys_of_eq rfl rfl
  | wake woken => exact ⟨le_rfl, fun id _ => (woken id).key⟩
  | noise => exact keepsKeys_of_eq rfl rfl
  | net => exact keepsKeys_of_eq rfl rfl
  | signal pid sig =>
      refine KeepsKeys.trans (keepsKeys_of_eq rfl rfl : KeepsKeys s
        (s.modifyProc pid (.addSignal sig))) (keepsKeys_mapLive _ fun t => ?_)
      split
      · exact wake_key t
      · rfl
  | alarm pid _ pending reached =>
      obtain ⟨isOver, again, same, -, -⟩ := s.rearm_eq pid
      rw [fireAlarm_due pending reached, same]
      refine KeepsKeys.trans (keepsKeys_of_eq ?_ ?_) (keepsKeys_wakeFirst _ pid) <;> rfl
  | stop =>
      refine ⟨le_rfl, fun id _ => ?_⟩
      obtain same | ⟨same, -⟩ := s.stopRun_thread id <;> rw [same]
      rfl
  | grace pid => exact keepsKeys_of_eq rfl rfl

theorem Changes.keepsKeys (changes : Changes s later) : KeepsKeys s later :=
  Changes.keep (P := KeepsKeys s) (fun change kept => kept.trans change.keepsKeys)
    changes (.refl s)

theorem keepsKeys_newLife (registered : pid < s.nprocs) : KeepsKeys s (s.newLife pid) := by
  obtain ⟨rng, isOver, starts, priority, crashAt, shutdownAt, pctRng, same, -⟩ :=
    newLife_eq registered
  rw [same]
  refine ⟨Nat.le_succ _, fun id inside => ?_⟩
  rw [born_threads, if_neg inside.ne]

theorem keepsKeys_killed (s : State) (pid : Pid) : KeepsKeys s (s.killed pid) := by
  have retired : KeepsKeys s (s.retireThreads pid) :=
    keepsKeys_mapLive s fun t => by split <;> rfl
  exact retired.trans (keepsKeys_of_eq rfl rfl)

theorem keepsKeys_crash (registered : pid < s.nprocs) : KeepsKeys s (s.crash pid) := by
  have dead := (dead_killed registered).grieved
  have grieved := (keepsKeys_killed s pid).trans (changes_grieved _ pid).keepsKeys
  rw [crash_eq]
  obtain ⟨-, same⟩ | ⟨-, same⟩ := registerRestart_cases dead.1 dead.2 killedStatus
  · rw [same]
    exact grieved.trans (keepsKeys_newLife dead.1)
  · rw [same]
    exact grieved

theorem keepsKeys_buried
    (registered : pid < s.nprocs)
    (status : Int) : KeepsKeys s (s.buried pid status) := by
  refine buried_keep (P := KeepsKeys s) (fun change kept => ?_)
    (fun restarts kept => ?_) (fun _ kept => ?_) (fun kept => ?_) registered status (.refl s)
  · exact kept.trans change.keepsKeys
  · exact kept.trans (keepsKeys_newLife restarts.registered)
  · exact kept.trans (keepsKeys_of_eq rfl rfl)
  · refine kept.trans (keepsKeys_mapLive _ fun t => ?_)
    split <;> rfl

theorem keepsKeys_condWakeLoop
    (rounds : Nat)
    (s : State)
    (pid : Pid)
    (cond : Nat)
    (all : Bool) : KeepsKeys s (condWakeLoop rounds s pid cond all) := by
  induction rounds generalizing s with
  | zero => exact .refl s
  | succ rounds inductionHypothesis =>
      unfold condWakeLoop
      split
      · exact .refl s
      · next first _ =>
          have marked : KeepsKeys s (s.modifyThread first fun t =>
              { t with condKey := 0, signaled := true }) := keepsKeys_modifyThread s first rfl
          have signalled : KeepsKeys s (s.condSignal first) :=
            marked.trans (keepsKeys_modifyThread _ first (wake_key _))
          dsimp only
          split
          · exact signalled.trans (inductionHypothesis _)
          · exact signalled

theorem keepsKeys_drawCrash
    (s : State)
    (pid : Pid)
    (lifeStarts : Nat) : KeepsKeys s (s.drawCrash pid lifeStarts) := by
  obtain ⟨_, _, _, _, same, -⟩ := s.drawCrash_eq pid lifeStarts
  rw [same]
  exact keepsKeys_of_eq rfl rfl

theorem keepsKeys_addThread (s : State) (pid : Pid) : KeepsKeys s (s.addThread pid).1 := by
  obtain ⟨pctRng, priority, drawn, -⟩ :=
    { s with nthreads := s.nthreads + 1 }.drawPriority_eq
  unfold addThread
  dsimp only
  rw [drawn]
  refine ⟨Nat.le_succ _, fun id inside => ?_⟩
  unfold modifyThread
  dsimp only
  rw [Function.update_of_ne inside.ne]

/-! ## While one thread keeps the baton -/

/-- Whose death an operation is. -/
def Op.victim : Op → Option Pid
  | .crash victim | .processDied victim _ => some victim
  | _ => none

theorem keepsKeys_of_exec
    {op : Op}
    {answer : Answer}
    (stays : op.Stays s)
    (possible : s.Possible op)
    (done : s.exec fuel op = some (later, answer)) : KeepsKeys s later := by
  by_cases calm : op.calm = true
  · exact (changes_of_exec calm possible done).keepsKeys
  by_cases setting : op.setting = true
  · cases tuned_of_exec setting done
    exact keepsKeys_of_eq rfl rfl
  cases op with
  | addProc | attach | reap | noteOutsideWake =>
      obtain ⟨rfl, -⟩ := Prod.mk.inj (Option.some.inj done)
      exact keepsKeys_of_eq rfl rfl
  | setFaults pid faults spec =>
      obtain ⟨rfl, -⟩ := Prod.mk.inj (Option.some.inj done)
      have noted : KeepsKeys s (s.modifyProc pid fun p =>
          { p with faults := faults, spec := some spec }) := keepsKeys_of_eq rfl rfl
      exact noted.trans (keepsKeys_drawCrash _ pid _)
  | setAlarm pid value interval =>
      obtain ⟨rfl, -⟩ := Prod.mk.inj (Option.some.inj done)
      unfold setAlarm
      split <;> exact keepsKeys_of_eq rfl rfl
  | addThread pid =>
      obtain ⟨rfl, -⟩ := Prod.mk.inj (Option.some.inj done)
      exact keepsKeys_addThread s pid
  | unregister child =>
      obtain ⟨rfl, -⟩ := Prod.mk.inj (Option.some.inj done)
      have noted : KeepsKeys s (s.modifyProc child fun p =>
          { p with state := .exited, reaped := true }) := keepsKeys_of_eq rfl rfl
      refine noted.trans (keepsKeys_mapLive _ fun t => ?_)
      split <;> rfl
  | crash victim =>
      obtain ⟨rfl, -⟩ := Prod.mk.inj (Option.some.inj done)
      exact keepsKeys_crash possible.1.1
  | processDied pid status =>
      obtain ⟨⟨middle, handoff⟩, died, same⟩ := Option.map_eq_some_iff.1 done
      obtain rfl : middle = later := congrArg Prod.fst same
      obtain ⟨-, rfl, -⟩ | ⟨id, passed, held, -⟩ := processDied_eq_some_iff.1 died
      · exact keepsKeys_buried possible status
      · rw [show (s.buried pid status).heldBy pid = none from stays] at held
        cases held
  | condWake pid cond all =>
      obtain ⟨rfl, -⟩ := Prod.mk.inj (Option.some.inj done)
      exact keepsKeys_condWakeLoop _ s pid cond all
  | clockRead =>
      obtain ⟨rfl, -⟩ := Prod.mk.inj (Option.some.inj done)
      have read (clockNs : Nat) : KeepsKeys s
          ((s.noteAdd s.clockNs perReadNs).setClock clockNs) := keepsKeys_of_eq rfl rfl
      exact (read _).trans (changes_clockMoved _).keepsKeys
  | takeSignals id unmasked =>
      obtain ⟨rfl, -⟩ := Prod.mk.inj (Option.some.inj done)
      have taken : KeepsKeys s (s.modifyProc (s.threads id).pid fun p =>
          { p with sigPending := p.sigPending.ldiff unmasked }) := keepsKeys_of_eq rfl rfl
      exact taken.trans (@keepsKeys_modifyThread _ id
        (fun t => { t with sigPending := t.sigPending.ldiff unmasked }) rfl)
  | setDeadline id deadline =>
      obtain ⟨rfl, -⟩ := Prod.mk.inj (Option.some.inj done)
      exact @keepsKeys_modifyThread s id
        (fun t => { t with deadline := deadline, timedOut := false }) rfl
  | threadKill id sig =>
      obtain ⟨rfl, -⟩ := Prod.mk.inj (Option.some.inj done)
      exact @keepsKeys_modifyThread s id
        (fun t => { t with sigPending := t.sigPending ||| 2 ^ sig }) rfl
  | condEnqueue id cond =>
      obtain ⟨rfl, -⟩ := Prod.mk.inj (Option.some.inj done)
      have counted : KeepsKeys s { s with nextCondSeq := s.nextCondSeq + 1 } :=
        keepsKeys_of_eq rfl rfl
      exact counted.trans (@keepsKeys_modifyThread _ id (fun t =>
        { t with signaled := false, condKey := cond, condSeq := s.nextCondSeq }) rfl)
  | handOff | choose => cases stays
  | _ => simp [Op.calm, Op.setting] at calm setting

/-- Whoever is not collected is alive, or gone already. -/
theorem gone_or_alive
    {p : ProcRec}
    (isParent : p.parent = some parent)
    (left : p.reaped = false) :
    p.Gone parent ∨ p.parent = some parent ∧ p.alive = true := by
  by_cases alive : p.alive = true
  · exact .inr ⟨isParent, alive⟩
  · refine .inl ⟨isParent, ?_, left⟩
    unfold ProcRec.alive at alive
    simpa [imp_iff_not_or] using alive

/-- The victim was alive, or nobody is gone who was not. -/
theorem gone_of_exec
    {op : Op}
    {answer : Answer}
    (tidy : s.Tidy)
    (stays : op.Stays s)
    (possible : s.Possible op)
    (done : s.exec fuel op = some (later, answer))
    (gone : (later.procs child).Gone parent) :
    (s.procs child).Gone parent ∨
      op.victim = some child ∧ (s.procs child).parent = some parent ∧
        (s.procs child).alive = true := by
  by_cases deadly : op.deadly = true
  · cases op with
    | crash victim =>
        obtain ⟨rfl, -⟩ := Prod.mk.inj (Option.some.inj done)
        have dead := dead_killed possible.1.1
        have killed := ((changes_grieved (s.killed victim) victim).keepsLives.trans
          (keepsLives_registerRestart dead.grieved killedStatus)) child parent gone
        by_cases same : child = victim
        · subst same
          rw [show (s.killed child).procs child = (s.procs child).condemn s.clockNs from
            Function.update_self ..] at killed
          exact (gone_or_alive (p := s.procs child) killed.1 killed.2.2).imp_right
            fun rest => ⟨rfl, rest⟩
        · rw [show (s.killed victim).procs child = s.procs child from
            Function.update_of_ne same ..] at killed
          exact .inl killed
    | processDied pid status =>
        obtain ⟨⟨middle, handoff⟩, died, same⟩ := Option.map_eq_some_iff.1 done
        obtain rfl : middle = later := congrArg Prod.fst same
        obtain ⟨-, rfl, -⟩ | ⟨id, passed, held, -⟩ := processDied_eq_some_iff.1 died
        · have exited : ((s.noteExit pid status).procs child).Gone parent := by
            refine keepsLives_buried possible status child parent gone
          by_cases same : child = pid
          · subst same
            rw [noteExit_proc] at exited
            exact (gone_or_alive (p := s.procs child) exited.1 exited.2.2).imp_right
              fun rest => ⟨rfl, rest⟩
          · rw [show (s.noteExit pid status).procs child = s.procs child from
              Function.update_of_ne same ..] at exited
            exact .inl exited
        · rw [show (s.buried pid status).heldBy pid = none from stays] at held
          cases held
    | handOff | choose => cases stays
    | _ => cases deadly
  · exact .inl (keepsLives_of_exec tidy (Bool.eq_false_iff.2 deadly) possible done
      child parent gone)

end State
end Derp

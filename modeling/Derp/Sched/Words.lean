import Derp.Sched.Parked

/-!
# Park words

The park word of a thread counts how often it was handed the baton, and nothing
else touches it.  A hand-off adds one to the word of the thread it switches to
and tells the giver its own word.  The threads of a process that was crashed are
out of the schedule and stay so, and whoever has the baton is put out of the
schedule by nobody else.
-/

namespace Derp

/-- Whom a hand-off switches to. -/
def Handoff.target : Handoff → Option ThreadId
  | .switch next _ => some next
  | _ => none

/-- A thread that is out of the schedule stays so, a safe one does not leave it,
and its word stays as it is. -/
structure ThreadRec.Spared (safe : Prop) (t t' : ThreadRec) : Prop where
  pid : t'.pid = t.pid
  park : t'.park = t.park
  exited : t.state = .exited → t'.state = .exited
  staying : safe → t'.state = .exited → t.state = .exited

namespace ThreadRec

variable {safe : Prop} {t t' : ThreadRec}

theorem spared_of_eq
    (pid : t'.pid = t.pid)
    (park : t'.park = t.park)
    (state : t'.state = t.state) : t.Spared safe t' :=
  ⟨pid, park, fun exited => state.trans exited, fun _ exited =>
    state.symm.trans exited⟩

theorem Spared.refl (t : ThreadRec) : t.Spared safe t :=
  spared_of_eq rfl rfl rfl

theorem spared_setState
    {state : ThreadState}
    (inside : state ≠ .exited)
    (staying : t.state ≠ .exited) : t.Spared safe (t.setState state) :=
  ⟨rfl, rfl, fun exited => absurd exited staying, fun _ exited =>
    absurd exited inside⟩

theorem spared_wake (t : ThreadRec) : t.Spared safe t.wake := by
  unfold wake
  split
  · next blocked => exact spared_setState (by decide) (by rw [blocked]; decide)
  · exact .refl t

theorem spared_gone
    (hurt : ¬safe)
    (pid : t'.pid = t.pid)
    (park : t'.park = t.park)
    (exited : t'.state = .exited) : t.Spared safe t' :=
  ⟨pid, park, fun _ => exited, fun isSafe => absurd isSafe hurt⟩

theorem Aside.spared (aside : t.Aside t') : t.Spared safe t' := by
  obtain ⟨_, _, _, rfl⟩ := aside
  exact spared_of_eq rfl rfl rfl

end ThreadRec

namespace State

variable
  {s middle later : State}
  {pid : Pid}
  {id : ThreadId}
  {fuel : Nat}
  {safe : ThreadId → Prop}

theorem Woken.spared
    {isSafe : Prop}
    {t t' : ThreadRec}
    (woken : s.Woken t t') : t.Spared isSafe t' := by
  cases woken with
  | same => exact .refl _
  | woken blocked =>
      exact ThreadRec.spared_setState (by decide) (by rw [blocked]; decide)
  | timedOut due =>
      unfold ThreadRec.expired at due
      simp only [Bool.and_eq_true, decide_eq_true_eq] at due
      refine ⟨rfl, rfl, fun exited => ?_, nofun⟩
      rw [due.1.1] at exited
      cases exited

/-- The threads of a process that was crashed are out of the schedule. -/
structure Condemned (s : State) : Prop where
  registered : ∀ pid, (s.procs pid).killed = true → pid < s.nprocs
  gone : ∀ pid, (s.procs pid).killed = true → ∀ id < s.nthreads,
    (s.threads id).pid = pid → (s.threads id).state = .exited

/-- The words stay as they are, and a safe thread stays in the schedule. -/
structure KeepsWords
    (safe : ThreadId → Prop)
    (s later : State) : Prop where
  nthreads : s.nthreads ≤ later.nthreads
  pid : ∀ id < s.nthreads, (later.threads id).pid = (s.threads id).pid
  park : ∀ id, (later.threads id).park = (s.threads id).park
  staying : ∀ id < s.nthreads, safe id →
    (later.threads id).state = .exited → (s.threads id).state = .exited
  condemned : s.Condemned → later.Condemned

theorem KeepsWords.refl (safe : ThreadId → Prop) (s : State) :
    KeepsWords safe s s :=
  ⟨le_rfl, fun _ _ => rfl, fun _ => rfl, fun _ _ _ => id, id⟩

theorem KeepsWords.trans
    (first : KeepsWords safe s middle)
    (second : KeepsWords safe middle later) : KeepsWords safe s later where
  nthreads := first.nthreads.trans second.nthreads
  pid := fun id inside =>
    (second.pid id (inside.trans_le first.nthreads)).trans (first.pid id inside)
  park := fun id => (second.park id).trans (first.park id)
  staying := fun id inside isSafe exited => first.staying id inside isSafe
    (second.staying id (inside.trans_le first.nthreads) isSafe exited)
  condemned := fun before => second.condemned (first.condemned before)

/-- Tables of the same length in which nobody is condemned. -/
theorem keepsWords_of_records
    (nthreads : later.nthreads = s.nthreads)
    (nprocs : later.nprocs = s.nprocs)
    (threads : ∀ id, (s.threads id).Spared (safe id) (later.threads id))
    (killed : ∀ pid, (later.procs pid).killed = (s.procs pid).killed) :
    KeepsWords safe s later where
  nthreads := nthreads.ge
  pid := fun id _ => (threads id).pid
  park := fun id => (threads id).park
  staying := fun id _ => (threads id).staying
  condemned := fun before =>
    { registered := fun pid isKilled => by
        rw [killed] at isKilled
        rw [nprocs]
        exact before.registered pid isKilled
      gone := fun pid isKilled id inside own => by
        rw [killed] at isKilled
        rw [nthreads] at inside
        have same := threads id
        exact same.exited (before.gone pid isKilled id inside (same.pid ▸ own)) }

/-- What else is in the state does not matter. -/
theorem keepsWords_of_eq
    (nthreads : later.nthreads = s.nthreads)
    (nprocs : later.nprocs = s.nprocs)
    (threads : later.threads = s.threads)
    (procs : later.procs = s.procs) : KeepsWords safe s later :=
  keepsWords_of_records nthreads nprocs
    (fun id => by rw [threads]; exact .refl _) fun pid => by rw [procs]

theorem keepsWords_modifyThread
    (s : State)
    (id : ThreadId)
    {change : ThreadRec → ThreadRec}
    (spared : (s.threads id).Spared (safe id) (change (s.threads id))) :
    KeepsWords safe s (s.modifyThread id change) := by
  refine keepsWords_of_records rfl rfl (fun other => ?_) fun _ => rfl
  unfold modifyThread
  dsimp only
  by_cases same : other = id
  · subst same
    rw [Function.update_self]
    exact spared
  · rw [Function.update_of_ne same]
    exact .refl _

theorem keepsWords_mapLive
    (s : State)
    {change : ThreadRec → ThreadRec}
    (spared : ∀ id < s.nthreads,
      (s.threads id).Spared (safe id) (change (s.threads id))) :
    KeepsWords safe s (s.mapLive change) := by
  refine keepsWords_of_records rfl rfl (fun id => ?_) fun _ => rfl
  unfold mapLive
  dsimp only
  split
  · next inside => exact spared id inside
  · exact .refl _

theorem keepsWords_modifyProc
    (s : State)
    (pid : Pid)
    {change : ProcRec → ProcRec}
    (killed : (change (s.procs pid)).killed = (s.procs pid).killed) :
    KeepsWords safe s (s.modifyProc pid change) := by
  refine keepsWords_of_records rfl rfl (fun id => .refl _) fun other => ?_
  unfold modifyProc
  dsimp only
  by_cases same : other = pid
  · subst same
    rw [Function.update_self]
    exact killed
  · rw [Function.update_of_ne same]

/-! ## Deeds -/

theorem keepsWords_fireAlarm
    {due : Nat}
    (pending : (s.procs pid).pendingAlarm = some due)
    (reached : due ≤ s.clockNs) : KeepsWords safe s (s.fireAlarm pid) := by
  obtain ⟨isOver, again, same, -, -⟩ := s.rearm_eq pid
  rw [fireAlarm_due pending reached, same]
  have noted : KeepsWords safe s { s with overflow := isOver } :=
    keepsWords_of_eq rfl rfl rfl rfl
  have signalled := (noted.trans (@keepsWords_modifyProc safe _ pid
    (.setAlarmAt again) rfl)).trans
      (@keepsWords_modifyProc safe _ pid (.addSignal sigalrm) rfl)
  unfold wakeFirst
  split
  · next first found =>
      refine signalled.trans (keepsWords_modifyThread _ _ ?_)
      have blocked := List.find?_some found
      rw [Bool.and_eq_true, decide_eq_true_eq, decide_eq_true_eq] at blocked
      exact ThreadRec.spared_setState (by decide) (by rw [blocked.2]; decide)
  · exact signalled

theorem useUpShutdown_killed (p : ProcRec) : p.useUpShutdown.killed = p.killed := by
  unfold ProcRec.useUpShutdown
  split <;> rfl

theorem useUpCrash_killed (p : ProcRec) : p.useUpCrash.killed = p.killed := by
  unfold ProcRec.useUpCrash
  split <;> rfl

theorem Change.keepsWords (change : Change s later) : KeepsWords safe s later := by
  cases change with
  | count => exact keepsWords_of_eq rfl rfl rfl rfl
  | wake woken =>
      exact keepsWords_of_records rfl rfl (fun id => (woken id).spared)
        fun _ => rfl
  | noise noise =>
      refine keepsWords_of_records rfl rfl (fun _ => .refl _) fun pid => ?_
      obtain ⟨_, _, _, _, same⟩ := noise pid
      dsimp only
      rw [same]
  | net => exact keepsWords_of_eq rfl rfl rfl rfl
  | signal pid sig =>
      refine (@keepsWords_modifyProc safe s pid (.addSignal sig) rfl).trans
        (keepsWords_mapLive _ fun id _ => ?_)
      split
      · exact ThreadRec.spared_wake _
      · exact .refl _
  | alarm pid _ pending reached => exact keepsWords_fireAlarm pending reached
  | stop =>
      refine keepsWords_of_records rfl rfl (fun id => ?_) fun pid => ?_
      · obtain same | ⟨same, -, staying⟩ := s.stopRun_thread id
        · rw [same]
          exact .refl _
        · rw [same]
          exact ThreadRec.spared_setState (by decide) staying
      · obtain same | same := s.stopRun_proc pid <;> rw [same]
  | grace pid =>
      exact (keepsWords_modifyProc s pid (useUpShutdown_killed _)).trans
        (keepsWords_modifyProc _ pid rfl)

theorem Changes.keepsWords (changes : Changes s later) : KeepsWords safe s later :=
  Changes.keep (P := KeepsWords safe s)
    (fun change kept => kept.trans change.keepsWords) changes (.refl safe s)

/-- A violent death puts the threads of one process out of the schedule. -/
theorem keepsWords_killed
    (registered : pid < s.nprocs)
    (others : ∀ id, safe id → (s.threads id).pid ≠ pid) :
    KeepsWords safe s (s.killed pid) := by
  have threads (id : ThreadId) (inside : id < s.nthreads) :
      (s.killed pid).threads id =
        if (s.threads id).pid = pid then (s.threads id).retire
        else s.threads id := by
    unfold killed retireThreads modifyProc mapLive
    dsimp only
    rw [if_pos inside]
  refine ⟨le_rfl, fun id inside => ?_, fun id => ?_, fun id inside isSafe => ?_,
    fun before => ?_⟩
  · rw [threads id inside]
    split <;> rfl
  · unfold killed retireThreads modifyProc mapLive
    dsimp only
    split
    · split <;> rfl
    · rfl
  · rw [threads id inside, if_neg (others id isSafe)]
    exact fun exited => exited
  · have procs (other : Pid) :
        (s.killed pid).procs other = if other = pid then
          (s.procs pid).condemn s.clockNs else s.procs other := by
      unfold killed modifyProc
      dsimp only
      by_cases same : other = pid
      · subst same
        rw [Function.update_self, if_pos rfl]
        rfl
      · rw [Function.update_of_ne same, if_neg same]
        rfl
    refine ⟨fun other isKilled => ?_, fun other isKilled id inside own => ?_⟩
    · rw [procs] at isKilled
      split at isKilled
      · next same =>
          rw [same]
          exact registered
      · exact before.registered other isKilled
    · rw [threads id inside] at own ⊢
      split
      · rfl
      · next apart =>
          rw [if_neg apart] at own
          rw [procs, if_neg (own ▸ apart)] at isKilled
          exact before.gone other isKilled id inside own

theorem keepsWords_newLife
    (registered : pid < s.nprocs) : KeepsWords safe s (s.newLife pid) := by
  obtain ⟨rng, isOver, starts, priority, crashAt, shutdownAt, pctRng, same, -⟩ :=
    newLife_eq registered
  rw [same]
  have old (id : ThreadId) (inside : id < s.nthreads) :
      ((s.drawn rng isOver).born pid starts priority crashAt shutdownAt
        pctRng).threads id = s.threads id := by
    rw [born_threads, if_neg inside.ne]
  have killed (other : Pid)
      (isKilled : (((s.drawn rng isOver).born pid starts priority crashAt
        shutdownAt pctRng).procs other).killed = true) :
      (s.procs other).killed = true := by
    rw [born_procs] at isKilled
    split at isKilled
    · next new => exact new ▸ isKilled
    split at isKilled
    · next victim => exact victim ▸ isKilled
    · exact isKilled
  refine ⟨Nat.le_succ _, fun id inside => ?_, fun id => ?_, fun id inside _ => ?_,
    fun before =>
      ⟨fun other isKilled => ?_, fun other isKilled id inside own => ?_⟩⟩
  · rw [old id inside]
  · rw [born_threads]
    split
    · next new =>
        rw [new]
        rfl
    · rfl
  · rw [old id inside]
    exact fun exited => exited
  · exact (before.registered other (killed other isKilled)).trans (Nat.lt_succ_self _)
  · have wasKilled := killed other isKilled
    obtain earlier | new := Nat.lt_succ_iff_lt_or_eq.1 inside
    · rw [old id earlier] at own ⊢
      exact before.gone other wasKilled id earlier own
    · rw [born_threads, if_pos (show id = s.nthreads from new)] at own
      have spare : other = s.nprocs := own.symm
      exact absurd (before.registered other wasKilled) (spare ▸ lt_irrefl _)

theorem Deeds.keepsWords (deeds : Deeds s later) :
    KeepsWords (fun _ => False) s later :=
  Deeds.keep (P := KeepsWords (fun _ => False) s)
    (fun change kept => kept.trans change.keepsWords)
    (fun alive kept => kept.trans (keepsWords_killed alive.1 nofun))
    (fun registered _ _ kept =>
      (kept.trans (keepsWords_modifyProc _ _ (useUpCrash_killed _))).trans
        (keepsWords_killed registered nofun))
    (fun restarts kept => kept.trans (keepsWords_newLife restarts.registered))
    deeds (.refl _ s)

theorem Passages.keepsWords (passages : Passages s later) :
    KeepsWords (fun _ => False) s later := by
  induction passages with
  | refl => exact .refl _ s
  | tail _ passage kept =>
      cases passage with
      | deed deed => exact kept.trans (Deeds.keepsWords (.single deed))
      | jump => exact kept.trans (keepsWords_of_eq rfl rfl rfl rfl)
      | reseed => exact kept.trans (keepsWords_of_eq rfl rfl rfl rfl)

theorem Choice.keepsWords (choice : Choice s later) : KeepsWords safe s later :=
  keepsWords_of_records choice.nthreads choice.nprocs
    (fun id => (choice.aside id).spared) fun pid => by rw [choice.procs]

/-- A crash hurts nobody but the threads of its victim. -/
theorem keepsWords_crash
    (alive : s.Alive pid)
    (others : ∀ id, safe id → (s.threads id).pid ≠ pid) :
    KeepsWords safe s (s.crash pid) := by
  have dead := (dead_killed alive.1).grieved
  have grieved : KeepsWords safe s ((s.killed pid).grieved pid) :=
    (keepsWords_killed alive.1 others).trans (changes_grieved _ pid).keepsWords
  rw [crash_eq]
  obtain ⟨restarts, same⟩ | ⟨-, same⟩ :=
    registerRestart_cases dead.1 dead.2 killedStatus
  · rw [same]
    exact grieved.trans (keepsWords_newLife restarts.registered)
  · rw [same]
    exact grieved

/-! ## Hand-offs -/

/-- A hand-off adds one to the word of the thread it switches to, and tells the
giver what its own word is. -/
structure Bumped
    (s : State)
    (giver : Option ThreadId)
    (handoff : Handoff)
    (later : State) : Prop where
  nthreads : s.nthreads ≤ later.nthreads
  pid : ∀ id < s.nthreads, (later.threads id).pid = (s.threads id).pid
  park : ∀ id, (later.threads id).park =
    (s.threads id).park + if handoff.target = some id then 1 else 0
  told : ∀ {next seen}, handoff = .switch next seen →
    giver ≠ some next ∧ ∀ id ∈ giver, (s.threads id).park = seen
  condemned : s.Condemned → later.Condemned

theorem KeepsWords.bumped
    {giver : Option ThreadId}
    {handoff : Handoff}
    (kept : KeepsWords safe s middle)
    (handed : Bumped middle giver handoff later) :
    Bumped s giver handoff later where
  nthreads := kept.nthreads.trans handed.nthreads
  pid := fun id inside =>
    (handed.pid id (inside.trans_le kept.nthreads)).trans (kept.pid id inside)
  park := fun id => by
    rw [handed.park id, kept.park id]
  told := fun switches => by
    obtain ⟨apart, word⟩ := handed.told switches
    refine ⟨apart, fun id isGiver => ?_⟩
    rw [← kept.park id]
    exact word id isGiver
  condemned := fun before => handed.condemned (kept.condemned before)

/-- Nobody is chosen. -/
theorem KeepsWords.idles
    (kept : KeepsWords safe s later)
    (giver : Option ThreadId) : Bumped s giver .idle later where
  nthreads := kept.nthreads
  pid := kept.pid
  park := kept.park
  told := nofun
  condemned := kept.condemned

/-- The record of the chosen thread, and no other, is a new one. -/
theorem bumped_of_given
    {giver : Option ThreadId}
    {handoff : Handoff}
    {next : ThreadId}
    {t : ThreadRec}
    (staying : (s.threads next).state ≠ .exited)
    (own : t.pid = (s.threads next).pid)
    (word : t.park =
      (s.threads next).park + if handoff.target = some next then 1 else 0)
    (only : ∀ id, id ≠ next → handoff.target ≠ some id)
    (nthreads : later.nthreads = s.nthreads)
    (nprocs : later.nprocs = s.nprocs)
    (threads : later.threads = Function.update s.threads next t)
    (procs : later.procs = s.procs)
    (told : ∀ {next seen}, handoff = .switch next seen → giver ≠ some next ∧
      ∀ id ∈ giver, (s.threads id).park = seen) :
    Bumped s giver handoff later where
  nthreads := nthreads.ge
  pid := fun id _ => by
    rw [threads]
    by_cases same : id = next
    · subst same
      rw [Function.update_self, own]
    · rw [Function.update_of_ne same]
  park := fun id => by
    rw [threads]
    by_cases same : id = next
    · subst same
      rw [Function.update_self, word]
    · rw [Function.update_of_ne same, if_neg (only id same), Nat.add_zero]
  told := told
  condemned := fun before =>
    { registered := by
        rw [procs, nprocs]
        exact before.registered
      gone := by
        rw [procs, nthreads, threads]
        intro pid isKilled id inside isOwn
        by_cases same : id = next
        · subst same
          rw [Function.update_self, own] at isOwn
          exact absurd (before.gone pid isKilled id inside isOwn) staying
        · rw [Function.update_of_ne same] at isOwn ⊢
          exact before.gone pid isKilled id inside isOwn }

/-- Another thread than the giver is chosen. -/
theorem giveBaton_switch
    {giver : Option ThreadId}
    {next : ThreadId}
    (apart : giver ≠ some next)
    (site : UInt64) :
    ∃ after seen, s.giveBaton giver next site = (after, .switch next seen) ∧
      after.nthreads = s.nthreads ∧ after.nprocs = s.nprocs ∧
      after.procs = s.procs ∧
      after.threads = Function.update s.threads next
        { s.threads next with
          state := .running
          park := (s.threads next).park + 1 } ∧
      ∀ id ∈ giver, (s.threads id).park = seen := by
  unfold giveBaton
  dsimp only
  rw [if_neg apart]
  cases giver with
  | none =>
      refine ⟨_, _, rfl, rfl, rfl, rfl, ?_, nofun⟩
      unfold modifyThread
      dsimp only [Option.elim]
      rw [Function.update_idem, Function.update_self]
      rfl
  | some me =>
      refine ⟨_, _, rfl, rfl, rfl, rfl, ?_, ?_⟩
      · unfold modifyThread traceSwitch
        dsimp only [Option.elim]
        rw [Function.update_idem, Function.update_self]
        rfl
      · rintro id ⟨⟩
        have other : me ≠ next := fun same => apart (congrArg some same)
        unfold modifyThread traceSwitch
        dsimp only [Option.elim]
        rw [Function.update_of_ne other, Function.update_of_ne other]
        rfl

theorem bumped_giveBaton
    {next : ThreadId}
    (runnable : (s.threads next).state = .runnable)
    (giver : Option ThreadId)
    (site : UInt64) :
    Bumped s giver (s.giveBaton giver next site).2
      (s.giveBaton giver next site).1 := by
  have staying : (s.threads next).state ≠ .exited := by
    rw [runnable]
    decide
  by_cases kept : giver = some next
  · have same : s.giveBaton giver next site =
        (s.renewQuantum.modifyThread next (.setState .running), .stay) :=
      if_pos kept
    rw [same]
    exact bumped_of_given (t := (s.threads next).setState .running)
      staying rfl rfl nofun rfl rfl rfl rfl nofun
  · obtain ⟨after, seen, same, nthreads, nprocs, procs, threads, told⟩ :=
      s.giveBaton_switch kept site
    rw [same]
    refine bumped_of_given staying ?_ ?_ ?_ nthreads nprocs threads procs ?_
    · rfl
    · simp [Handoff.target]
    · exact fun id other same => other (Option.some.inj same).symm
    · rintro _ _ ⟨⟩
      exact ⟨kept, told⟩

theorem bumped_choose
    {giver : Option ThreadId}
    {site : UInt64}
    {handoff : Handoff}
    (chosen : s.choose fuel giver site = some (later, handoff)) :
    Bumped s giver handoff later := by
  obtain ⟨middle, ⟨chooses, given⟩ | ⟨chooses, rfl, rfl⟩⟩ :=
    choose_eq_some_iff.1 chosen
  · obtain ⟨choice, candidate⟩ := chooseThread_spec chooses.runnable
    rw [← choice.candidates, mem_candidates] at candidate
    have handed := bumped_giveBaton (candidate_runnable candidate.2) giver site
    rw [given] at handed
    exact (chooses.passages.1.keepsWords.trans choice.keepsWords).bumped handed
  · exact chooses.passages.1.keepsWords.idles giver

/-- A thread of the schedule that gives the baton up. -/
theorem keepsWords_recorded
    {state : ThreadState}
    (staying : (s.threads id).state ≠ .exited ∨ state = .exited)
    (key : Nat) :
    KeepsWords (fun _ => False) s (s.recorded (some (id, state, key))) := by
  have given : KeepsWords (fun _ => False) s (s.modifyThread id fun t =>
      { t with state := state, key := key }) :=
    keepsWords_modifyThread s id ⟨rfl, rfl, fun exited =>
      staying.resolve_left (not_not.2 exited), False.elim⟩
  exact given.trans (keepsWords_of_eq rfl rfl rfl rfl)

theorem bumped_handOff
    {giver : ThreadId}
    {state : ThreadState}
    {key : Nat}
    {site : UInt64}
    {handoff : Handoff}
    (staying : (s.threads giver).state ≠ .exited ∨ state = .exited)
    (handed : s.handOff fuel (some (giver, state, key)) site =
      some (later, handoff)) :
    Bumped s (some giver) handoff later :=
  (keepsWords_recorded staying key).bumped (bumped_choose handed)

/-- The death of a process hurts nobody but its threads. -/
theorem keepsWords_buried
    (registered : pid < s.nprocs)
    (others : ∀ id, safe id → id < s.nthreads ∧ (s.threads id).pid ≠ pid)
    (status : Int) : KeepsWords safe s (s.buried pid status) := by
  have noted : KeepsWords safe s (s.noteExit pid status) :=
    keepsWords_modifyProc s pid rfl
  have retired {middle : State} (kept : KeepsWords safe s middle) :
      KeepsWords safe middle (middle.mapLive fun t =>
        if t.pid = pid ∧ t.state ≠ .exited then t.retire else t) :=
    keepsWords_mapLive middle fun id _ => by
      split
      · next own =>
          refine ThreadRec.spared_gone (fun isSafe => ?_) rfl rfl rfl
          obtain ⟨inside, apart⟩ := others id isSafe
          exact apart (kept.pid id inside ▸ own.1)
      · exact .refl _
  have mourned {s : State} (dead : s.Dead pid) :
      KeepsWords safe s (s.mourn pid status) := by
    have restarted : KeepsWords safe s (s.registerRestart pid status) := by
      obtain ⟨restarts, same⟩ | ⟨-, same⟩ :=
        registerRestart_cases dead.1 dead.2 status
      · rw [same]
        exact keepsWords_newLife restarts.registered
      · rw [same]
        exact .refl _ s
    rw [mourn_eq]
    exact (restarted.trans (keepsWords_modifyProc _ pid rfl)).trans
      (changes_closeDown _ pid).keepsWords
  rw [buried_eq]
  split
  · exact noted.trans (retired noted)
  · have both := noted.trans (mourned (dead_noteExit registered status))
    exact both.trans (retired both)

theorem bumped_processDied
    (registered : pid < s.nprocs)
    {status : Int}
    {handoff : Option Handoff}
    (died : s.processDied fuel pid status = some (later, handoff)) :
    ∃ giver, Bumped s giver (handoff.getD .idle) later := by
  have buried := @keepsWords_buried s pid (fun _ => False) registered
    (fun _ => False.elim) status
  obtain ⟨-, rfl, rfl⟩ | ⟨id, passed, -, handed, rfl⟩ :=
    processDied_eq_some_iff.1 died
  · exact ⟨none, buried.idles none⟩
  · exact ⟨some id, buried.bumped (bumped_handOff (.inr rfl) handed)⟩

/-! ## Other operations -/

theorem keepsWords_addThread (alive : s.Alive pid) :
    KeepsWords safe s (s.addThread pid).1 := by
  obtain ⟨pctRng, priority, drawn, -⟩ :=
    { s with nthreads := s.nthreads + 1 }.drawPriority_eq
  unfold addThread
  dsimp only
  rw [drawn]
  unfold modifyThread
  dsimp only
  refine ⟨Nat.le_succ _, fun id inside => ?_, fun id => ?_, fun id inside _ => ?_,
    fun before => ⟨before.registered, fun other isKilled id inside own => ?_⟩⟩
  · dsimp only
    rw [Function.update_of_ne inside.ne]
  · dsimp only
    by_cases new : id = s.nthreads
    · subst new
      rw [Function.update_self]
    · rw [Function.update_of_ne new]
  · dsimp only
    rw [Function.update_of_ne inside.ne]
    exact fun exited => exited
  · dsimp only at own isKilled ⊢
    obtain earlier | new := Nat.lt_succ_iff_lt_or_eq.1 inside
    · rw [Function.update_of_ne earlier.ne] at own ⊢
      exact before.gone other isKilled id earlier own
    · rw [new, Function.update_self] at own
      have lives := alive.2
      rw [show pid = other from own] at lives
      simp [ProcRec.alive, isKilled] at lives

theorem keepsWords_addProc
    (s : State)
    (host : Nat)
    (parent : Option Pid) : KeepsWords safe s (s.addProc host parent).1 := by
  have killed (pid : Pid) :
      ((s.addProc host parent).1.procs pid).killed = (s.procs pid).killed := by
    unfold addProc modifyProc
    dsimp only
    by_cases new : pid = s.nprocs
    · subst new
      rw [Function.update_self]
    · rw [Function.update_of_ne new]
  refine ⟨le_rfl, fun _ _ => rfl, fun _ => rfl, fun _ _ _ exited => exited, fun before =>
    ⟨fun pid isKilled => ?_, fun pid isKilled => ?_⟩⟩
  · rw [killed] at isKilled
    exact (before.registered pid isKilled).trans (Nat.lt_succ_self _)
  · rw [killed] at isKilled
    exact before.gone pid isKilled

theorem keepsWords_drawCrash
    (s : State)
    (pid : Pid)
    (lifeStarts : Nat) : KeepsWords safe s (s.drawCrash pid lifeStarts) := by
  obtain ⟨rng, isOver, crashAt, shutdownAt, same, -⟩ :=
    s.drawCrash_eq pid lifeStarts
  rw [same]
  have drawn : KeepsWords safe s (s.drawn rng isOver) :=
    keepsWords_of_eq rfl rfl rfl rfl
  exact drawn.trans ((keepsWords_modifyProc _ pid rfl).trans
    (keepsWords_modifyProc _ pid rfl))

theorem keepsWords_condWakeLoop
    (rounds : Nat)
    (s : State)
    (pid : Pid)
    (cond : Nat)
    (all : Bool) : KeepsWords safe s (condWakeLoop rounds s pid cond all) := by
  induction rounds generalizing s with
  | zero => exact .refl safe s
  | succ rounds inductionHypothesis =>
      unfold condWakeLoop
      split
      · exact .refl safe s
      · next first _ =>
          have marked : KeepsWords safe s (s.modifyThread first fun t =>
              { t with condKey := 0, signaled := true }) :=
            keepsWords_modifyThread s first (ThreadRec.spared_of_eq rfl rfl rfl)
          have signalled : KeepsWords safe s (s.condSignal first) :=
            marked.trans (keepsWords_modifyThread _ first
              (ThreadRec.spared_wake _))
          dsimp only
          split
          · exact signalled.trans (inductionHypothesis _)
          · exact signalled

/-- Nobody but the one that has the baton puts it out of the schedule. -/
theorem keepsWords_of_still
    {op : Op}
    {answer : Answer}
    (still : op.still = true)
    (possible : s.Possible op)
    (done : s.exec fuel op = some (later, answer)) :
    KeepsWords (fun id => s.current = some id) s later := by
  by_cases calm : op.calm = true
  · exact (changes_of_exec calm possible done).keepsWords
  by_cases setting : op.setting = true
  · cases tuned_of_exec setting done
    exact keepsWords_of_eq rfl rfl rfl rfl
  cases op with
  | addProc host parent =>
      obtain ⟨rfl, -⟩ := Prod.mk.inj (Option.some.inj done)
      exact keepsWords_addProc s host parent
  | addThread pid =>
      obtain ⟨rfl, -⟩ := Prod.mk.inj (Option.some.inj done)
      exact keepsWords_addThread possible.2
  | setFaults pid faults spec =>
      obtain ⟨rfl, -⟩ := Prod.mk.inj (Option.some.inj done)
      exact (keepsWords_modifyProc s pid rfl).trans (keepsWords_drawCrash _ pid _)
  | attach pid realPid =>
      obtain ⟨rfl, -⟩ := Prod.mk.inj (Option.some.inj done)
      exact keepsWords_modifyProc s pid rfl
  | unregister child =>
      obtain ⟨rfl, -⟩ := Prod.mk.inj (Option.some.inj done)
      refine (keepsWords_modifyProc s child rfl).trans
        (keepsWords_mapLive _ fun id _ => ?_)
      split
      · next own =>
          exact ThreadRec.spared_gone (fun last => possible.2.2 id last own)
            rfl rfl rfl
      · exact .refl _
  | setAlarm pid value interval =>
      obtain ⟨rfl, -⟩ := Prod.mk.inj (Option.some.inj done)
      unfold State.setAlarm
      split
      · exact keepsWords_modifyProc s pid rfl
      · have noted : KeepsWords (fun id => s.current = some id) s
            (s.noteAdd s.clockNs value) := keepsWords_of_eq rfl rfl rfl rfl
        exact noted.trans (keepsWords_modifyProc _ pid rfl)
  | reap pid =>
      obtain ⟨rfl, -⟩ := Prod.mk.inj (Option.some.inj done)
      exact keepsWords_modifyProc s pid rfl
  | setDeadline id deadline =>
      obtain ⟨rfl, -⟩ := Prod.mk.inj (Option.some.inj done)
      exact keepsWords_modifyThread s id (ThreadRec.spared_of_eq rfl rfl rfl)
  | crash victim =>
      obtain ⟨rfl, -⟩ := Prod.mk.inj (Option.some.inj done)
      exact keepsWords_crash possible.1 possible.2
  | threadKill id sig =>
      obtain ⟨rfl, -⟩ := Prod.mk.inj (Option.some.inj done)
      exact keepsWords_modifyThread s id (ThreadRec.spared_of_eq rfl rfl rfl)
  | takeSignals id unmasked =>
      obtain ⟨rfl, -⟩ := Prod.mk.inj (Option.some.inj done)
      exact (keepsWords_modifyProc s _ rfl).trans
        (keepsWords_modifyThread _ id (ThreadRec.spared_of_eq rfl rfl rfl))
  | condEnqueue id cond =>
      obtain ⟨rfl, -⟩ := Prod.mk.inj (Option.some.inj done)
      have counted : KeepsWords (fun id => s.current = some id) s
          { s with nextCondSeq := s.nextCondSeq + 1 } :=
        keepsWords_of_eq rfl rfl rfl rfl
      refine counted.trans ?_
      unfold State.condEnqueue
      dsimp only
      exact keepsWords_modifyThread _ id (ThreadRec.spared_of_eq rfl rfl rfl)
  | condWake pid cond all =>
      obtain ⟨rfl, -⟩ := Prod.mk.inj (Option.some.inj done)
      exact keepsWords_condWakeLoop _ s pid cond all
  | noteOutsideWake pid =>
      obtain ⟨rfl, -⟩ := Prod.mk.inj (Option.some.inj done)
      exact keepsWords_modifyProc s pid rfl
  | clockRead =>
      obtain ⟨rfl, -⟩ := Prod.mk.inj (Option.some.inj done)
      have read (clockNs : Nat) : KeepsWords (fun id => s.current = some id) s
          ((s.noteAdd s.clockNs perReadNs).setClock clockNs) :=
        keepsWords_of_eq rfl rfl rfl rfl
      exact (read _).trans (changes_clockMoved _).keepsWords
  | handOff => cases still
  | choose => cases still
  | processDied => cases still
  | _ => simp [Op.calm, Op.setting] at calm setting

theorem bumped_of_handOff
    {src : Option (ThreadId × ThreadState × Nat)}
    {site : UInt64}
    {handoff : Handoff}
    (possible : s.Possible (.handOff src site))
    (handed : s.handOff fuel src site = some (later, handoff)) :
    Bumped s (src.map Prod.fst) handoff later := by
  cases src with
  | none => exact bumped_choose handed
  | some giver => exact bumped_handOff (.inl possible.1.2.2) handed

/-- In every run the threads of a crashed process are out of the schedule. -/
theorem condemned_of_reachable (reachable : schedule.Reachable s) :
    s.Condemned := by
  refine reachable.invariant ?_ ?_
  · rintro _ ⟨seed, quantumLo, quantumHi, names, latencyNs, rfl⟩
    exact ⟨fun _ isKilled => Bool.noConfusion isKilled, fun _ isKilled =>
      Bool.noConfusion isKilled⟩
  · rintro state ⟨op, answer⟩ later before ⟨possible, fuel, done⟩
    by_cases still : op.still = true
    · exact (keepsWords_of_still still possible done).condemned before
    cases op with
    | handOff src site =>
        obtain ⟨⟨middle, handoff⟩, handed, same⟩ := Option.map_eq_some_iff.1 done
        obtain rfl : middle = later := congrArg Prod.fst same
        exact (bumped_of_handOff possible handed).condemned before
    | choose me site =>
        obtain ⟨⟨middle, handoff⟩, chosen, same⟩ := Option.map_eq_some_iff.1 done
        obtain rfl : middle = later := congrArg Prod.fst same
        exact (bumped_choose chosen).condemned before
    | processDied pid status =>
        obtain ⟨⟨middle, handoff⟩, died, same⟩ := Option.map_eq_some_iff.1 done
        obtain rfl : middle = later := congrArg Prod.fst same
        obtain ⟨giver, handed⟩ := bumped_processDied possible died
        exact handed.condemned before
    | _ => exact absurd rfl still

end State
end Derp

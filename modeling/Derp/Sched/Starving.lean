import Derp.Sched.Pct

/-!
# Threads that are passed over

A history beside the run notes for each thread from which time on it was passed
over since it last was chosen.  The scheduler keeps such times too, as the
waiting times of its threads, with 0 for a thread that does not wait.  Its picks
are fair by the history as long as its own times agree with it: that is so if
no thread is passed over at the start of time, and no pause falls on a thread
that waits.
-/

namespace Derp
namespace State

variable
  {s m middle later : State}
  {pid : Pid}
  {id : ThreadId}
  {fuel : Nat}

/-! ## The history -/

/-- The time from which a thread was passed over, for each thread that was since
it last was chosen. -/
abbrev Neglect := ThreadId → Option Nat

/-- All runnable threads but one are passed over. -/
def passedBy (m : State) (spared : ThreadId) (since : Neglect) : Neglect :=
  fun id =>
    if id ≠ spared ∧ id < m.nthreads ∧ (m.threads id).state = .runnable then
      (since id).or (some m.clockNs)
    else since id

/-- A thread is chosen, and the other runnable threads are passed over. -/
def chosenFrom (m : State) (chosen : ThreadId) (since : Neglect) : Neglect :=
  Function.update (m.passedBy chosen since) chosen none

/-- The state in which an operation begins to choose, if it does. -/
def choosing (s : State) : Op → Option State
  | .handOff src _ => some (s.recorded src)
  | .choose _ _ => some s
  | .processDied pid status =>
      let s := s.buried pid status
      (s.heldBy pid).map fun id => s.recorded (some (id, .exited, 0))
  | _ => none

/-- The state in which an operation chooses a thread, if it finds one that can
run. -/
def picked (fuel : Nat) (s : State) (op : Op) : Option State :=
  (s.choosing op).bind fun start =>
    (Loop.run pickOver pickRound fuel start.entered).bind fun (m, found) =>
      if found then some m else none

/-- What an operation notes in the history. -/
def noted (fuel : Nat) (s : State) (op : Op) (since : Neglect) : Neglect :=
  match s.picked fuel op with
  | some m => m.chosenFrom m.chooseThread.2 since
  | none => since

/-- The runs of the schedule with the history beside them. -/
def neglects : Transition (State × Neglect) Event :=
  schedule.withHistory (fun _ => none) fun s event since later =>
    ∃ fuel, (s.exec fuel event.1).isSome ∧ later = s.noted fuel event.1 since

/-! ## Fairness -/

/-- The thread was passed over for at least the bound since it last was
chosen. -/
def Overlooked (s : State) (since : Neglect) (id : ThreadId) : Prop :=
  ∃ time, since id = some time ∧ time + s.pctStarveNs ≤ s.clockNs

/-- Whom PCT is to choose: the candidate that was passed over longest if one is
overlooked, and the candidate of the highest priority if none is; the lowest id
among equals. -/
structure FairRule
    (s : State)
    (since : Neglect)
    (honourPauses : Bool)
    (chosen : ThreadId) : Prop where
  candidate : chosen ∈ s.candidates honourPauses
  longest : ∀ id ∈ s.candidates honourPauses, s.Overlooked since id →
    s.Overlooked since chosen ∧ ∀ first ∈ since chosen, ∀ time ∈ since id,
      first < time ∨ first = time ∧ chosen ≤ id
  highest : (∀ id ∈ s.candidates honourPauses, ¬s.Overlooked since id) →
    ∀ id ∈ s.candidates honourPauses,
      (s.threads id).priority < (s.threads chosen).priority ∨
        (s.threads id).priority = (s.threads chosen).priority ∧ chosen ≤ id

/-- A pick is fair by the history: the thread it chooses, at the second choice
too when it pauses the thread it chose first, the waiting times before, between
and after the choices, and where it puts a thread that it demotes. -/
structure FairPick (m : State) (since : Neglect) : Prop where
  eligible : m.chooseThread.2 ∈ m.candidates m.honours
  first : FairRule m.pctChangePoints since m.honours m.firstChoice.2
  second : if m.pausesFirst then
      FairRule m.afterPause (m.passedBy m.firstChoice.2 since) true
        m.chooseThread.2
    else m.chooseThread.2 = m.firstChoice.2
  timely : m.Timely ∧ m.chooseThread.1.Timely ∧
    (m.pausesFirst = true → m.afterPause.Timely)
  demoted : ∀ id < m.nthreads,
    (m.chooseThread.1.threads id).priority ≠ (m.threads id).priority →
    ∀ other < m.nthreads, other ≠ id →
      maxPctDepth < (m.chooseThread.1.threads other).priority ∧
          (m.chooseThread.1.threads id).priority ≤ maxPctDepth ∨
        (m.chooseThread.1.threads other).priority ≤ m.pctNext ∧
          m.pctNext < (m.chooseThread.1.threads id).priority

/-- PCT chooses by priority. -/
def ByPriority (m : State) : Prop :=
  m.scheduler = .pct ∧ m.clockNs < m.pctHorizonNs

/-- Nobody is passed over at the start of time, and the thread that is paused
does not wait. -/
def Spares (m : State) : Prop :=
  m.ByPriority → m.overflow = false ∧ (0 < m.clockNs ∨ m.runnable = 1) ∧
    (m.pausesFirst = true → (m.threads m.firstChoice.2).waitingSince = 0)

/-- The picks of an operation spare the threads that wait. -/
def Spared (w : State × Neglect) (event : Event) : Prop :=
  ∀ fuel, ∀ m ∈ w.1.picked fuel event.1, m.Spares

/-! ## Waiting times between picks -/

/-- Waiting times and the scheduler are left alone, threads may be born, and the
clock goes on. -/
structure Waited (s later : State) : Prop where
  scheduler : later.scheduler = s.scheduler
  horizon : later.pctHorizonNs = s.pctHorizonNs
  nthreads : s.nthreads ≤ later.nthreads
  waitingSince : ∀ id,
    (later.threads id).waitingSince = (s.threads id).waitingSince
  overflow : s.overflow = true → later.overflow = true
  clock : later.overflow = false → s.clockNs ≤ later.clockNs

theorem Waited.refl (s : State) : Waited s s :=
  ⟨rfl, rfl, le_rfl, fun _ => rfl, fun isOver => isOver, fun _ => le_rfl⟩

theorem Waited.fits
    (waited : Waited s later)
    (fits : later.overflow = false) : s.overflow = false := by
  by_contra isOver
  rw [Bool.not_eq_false] at isOver
  rw [waited.overflow isOver] at fits
  cases fits

theorem Waited.trans
    (first : Waited s middle)
    (second : Waited middle later) : Waited s later where
  scheduler := second.scheduler.trans first.scheduler
  horizon := second.horizon.trans first.horizon
  nthreads := first.nthreads.trans second.nthreads
  waitingSince := fun id =>
    (second.waitingSince id).trans (first.waitingSince id)
  overflow := fun isOver => second.overflow (first.overflow isOver)
  clock := fun fits =>
    (first.clock (second.fits fits)).trans (second.clock fits)

theorem Unranked.waited (unranked : Unranked s later) : Waited s later :=
  ⟨unranked.scheduler, unranked.horizon, unranked.nthreads.ge,
    unranked.waitingSince, unranked.overflow, unranked.clock⟩

theorem waited_newLife (registered : pid < s.nprocs) :
    Waited s (s.newLife pid) := by
  obtain ⟨rng, isOver, starts, priority, crashAt, shutdownAt, pctRng, same, grows,
    -⟩ := newLife_eq registered
  rw [same]
  refine ⟨rfl, rfl, Nat.le_succ _, fun id => ?_, grows, fun _ => le_rfl⟩
  rw [born_threads]
  split
  · next new =>
      subst new
      unfold waiting
      rfl
  · rfl

theorem Deeds.waited (deeds : Deeds s later) : Waited s later :=
  Deeds.keep (P := Waited s)
    (fun change waited => waited.trans change.unranked.waited)
    (fun _ waited => waited.trans (unranked_killed _ _).waited)
    (fun _ _ _ waited => waited.trans
      ((unranked_modifyProc _ _ .useUpCrash).trans (unranked_killed _ _)).waited)
    (fun restarts waited => waited.trans (waited_newLife restarts.registered))
    deeds (.refl s)

theorem Passages.waited (passages : Passages s later) : Waited s later := by
  induction passages with
  | refl => exact .refl s
  | tail _ passage inductionHypothesis =>
      refine inductionHypothesis.trans ?_
      cases passage with
      | deed deed => exact Deeds.waited (.single deed)
      | jump _ _ _ same =>
          exact ⟨rfl, rfl, le_rfl, fun _ => rfl, fun isOver => isOver,
            fun _ => same ▸ le_max_left _ _⟩
      | reseed =>
          exact ⟨rfl, rfl, le_rfl, fun _ => rfl, fun isOver => isOver,
            fun _ => le_rfl⟩

theorem waited_buried
    (registered : pid < s.nprocs)
    (status : Int) : Waited s (s.buried pid status) := by
  have noted : Waited s (s.noteExit pid status) :=
    (unranked_modifyProc s pid _).waited
  have mourned : Waited s (if ((s.noteExit pid status).procs pid).killed then
      s.noteExit pid status else (s.noteExit pid status).mourn pid status) := by
    split
    · exact noted
    · rw [mourn_eq]
      have restarted :
          Waited s ((s.noteExit pid status).registerRestart pid status) := by
        have dead := dead_noteExit registered status
        obtain ⟨-, same⟩ | ⟨-, same⟩ :=
          registerRestart_cases dead.1 dead.2 status
        · rw [same]
          exact noted.trans (waited_newLife dead.1)
        · rw [same]
          exact noted
      exact restarted.trans ((unranked_modifyProc _ pid _).trans
        (Changes.unranked (changes_closeDown _ pid))).waited
  rw [buried_eq]
  exact mourned.trans
    (unranked_mapLive _ fun t => by split <;> exact ⟨rfl, rfl⟩).waited

theorem waited_addThread (s : State) (pid : Pid) :
    Waited s (s.addThread pid).1 := by
  obtain ⟨pctRng, priority, drawn, -⟩ :=
    { s with nthreads := s.nthreads + 1 }.drawPriority_eq
  unfold State.addThread
  dsimp only
  rw [drawn]
  refine ⟨rfl, rfl, Nat.le_succ _, fun id => ?_, fun isOver => isOver,
    fun _ => le_rfl⟩
  unfold modifyThread
  dsimp only
  by_cases new : id = s.nthreads
  · subst new
    rw [Function.update_self]
  · rw [Function.update_of_ne new]

/-! ## What an operation chooses -/

/-- The operation begins to choose in a state of the run, and nobody has been
chosen since. -/
theorem picking_of_choosing
    {op : Op}
    (reachable : schedule.Reachable s)
    (possible : s.Possible op)
    (begins : s.choosing op = some middle) : Picking middle ∧ Waited s middle := by
  cases op with
  | handOff src site =>
      obtain rfl := Option.some.inj begins
      exact ⟨.handOff reachable possible, (unranked_recorded s src).waited⟩
  | choose me site =>
      obtain rfl := Option.some.inj begins
      exact ⟨.reachable reachable, .refl s⟩
  | processDied pid status =>
      obtain ⟨id, held, rfl⟩ := Option.map_eq_some_iff.1 begins
      exact ⟨.died reachable possible held,
        (waited_buried possible status).trans (unranked_recorded _ _).waited⟩
  | _ => cases begins

theorem picked_eq_some_iff {op : Op} :
    s.picked fuel op = some m ↔
      ∃ start, s.choosing op = some start ∧ Chooses fuel start m true := by
  unfold picked Chooses
  rw [Option.bind_eq_some_iff]
  refine exists_congr fun start => and_congr_right fun _ => ?_
  rw [Option.bind_eq_some_iff]
  constructor
  · rintro ⟨⟨middle, found⟩, done, isFound⟩
    dsimp only at isFound
    split at isFound
    · next yes =>
        obtain rfl := Option.some.inj isFound
        rw [done, yes]
    · cases isFound
  · intro done
    exact ⟨_, done, rfl⟩

/-- The choosing half of an operation: it chooses in the state that is picked,
or finds nobody. -/
theorem choose_picks
    {op : Op}
    {start : State}
    {me : Option ThreadId}
    {site : UInt64}
    {handoff : Handoff}
    (begins : s.choosing op = some start)
    (chosen : start.choose fuel me site = some (later, handoff)) :
    ((∀ fuel, s.picked fuel op = none) ∧ Waited start later) ∨
      ∃ m, s.picked fuel op = some m ∧ Unranked m.chooseThread.1 later := by
  obtain ⟨m, ⟨chooses, given⟩ | ⟨chooses, rfl, -⟩⟩ :=
    choose_eq_some_iff.1 chosen
  · refine .inr ⟨m, picked_eq_some_iff.2 ⟨start, begins, chooses⟩, ?_⟩
    obtain rfl := congrArg Prod.fst given
    exact unranked_giveBaton _ me _ site
  · refine .inl ⟨fun other => ?_, chooses.passages.1.waited⟩
    rw [Option.eq_none_iff_forall_ne_some]
    intro m found
    obtain ⟨start', begins', chooses'⟩ := picked_eq_some_iff.1 found
    rw [begins] at begins'
    obtain rfl := Option.some.inj begins'
    cases congrArg Prod.snd (Loop.run_unique chooses chooses')

/-- An operation that chooses nobody leaves the waiting times alone, and the
others choose in the state that is picked. -/
theorem picks_of_exec
    {op : Op}
    {answer : Answer}
    (possible : s.Possible op)
    (done : s.exec fuel op = some (later, answer)) :
    ((∀ fuel, s.picked fuel op = none) ∧
        ((∃ sched, op = .setScheduler sched) ∨ Waited s later)) ∨
      ∃ m, s.picked fuel op = some m ∧ Unranked m.chooseThread.1 later := by
  by_cases plain : op.unranked = true
  · refine .inl ⟨fun _ => ?_, .inr (unranked_of_exec plain possible done).waited⟩
    cases op <;> first | rfl | cases plain
  cases op with
  | setScheduler sched => exact .inl ⟨fun _ => rfl, .inl ⟨sched, rfl⟩⟩
  | addThread pid =>
      obtain ⟨rfl, -⟩ := Prod.mk.inj (Option.some.inj done)
      exact .inl ⟨fun _ => rfl, .inr (waited_addThread s pid)⟩
  | crash victim =>
      obtain ⟨rfl, -⟩ := Prod.mk.inj (Option.some.inj done)
      exact .inl ⟨fun _ => rfl,
        .inr (Deeds.waited (.single (.crash victim possible.1)))⟩
  | handOff src site =>
      obtain ⟨⟨middle, handoff⟩, handed, same⟩ := Option.map_eq_some_iff.1 done
      obtain rfl : middle = later := congrArg Prod.fst same
      have begins : s.choosing (.handOff src site) = some (s.recorded src) := rfl
      obtain ⟨none, waited⟩ | picks := choose_picks begins handed
      · exact .inl ⟨none, .inr ((unranked_recorded s src).waited.trans waited)⟩
      · exact .inr picks
  | choose me site =>
      obtain ⟨⟨middle, handoff⟩, chosen, same⟩ := Option.map_eq_some_iff.1 done
      obtain rfl : middle = later := congrArg Prod.fst same
      have begins : s.choosing (.choose me site) = some s := rfl
      obtain ⟨none, waited⟩ | picks := choose_picks begins chosen
      · exact .inl ⟨none, .inr waited⟩
      · exact .inr picks
  | processDied pid status =>
      obtain ⟨⟨middle, handoff⟩, died, same⟩ := Option.map_eq_some_iff.1 done
      obtain rfl : middle = later := congrArg Prod.fst same
      have buried := waited_buried possible status
      obtain ⟨held, rfl, -⟩ | ⟨id, passed, held, handed, -⟩ :=
        processDied_eq_some_iff.1 died
      · refine .inl ⟨fun _ => ?_, .inr buried⟩
        unfold picked choosing
        dsimp only
        rw [held]
        rfl
      · have begins : s.choosing (.processDied pid status) =
            some ((s.buried pid status).recorded (some (id, .exited, 0))) := by
          unfold choosing
          dsimp only
          rw [held]
          rfl
        obtain ⟨none, waited⟩ | picks := choose_picks begins handed
        · exact .inl ⟨none, .inr ((buried.trans (unranked_recorded _ _).waited).trans
            waited)⟩
        · exact .inr picks
  | _ => simp [Op.unranked] at plain

/-! ## The history and the waiting times -/

/-- A waiting time as the time from which a thread was passed over. -/
def mark (waitingSince : Nat) : Option Nat :=
  if waitingSince = 0 then none else some waitingSince

theorem mark_zero : mark 0 = none := rfl

theorem mark_of_ne {waitingSince : Nat} (some : waitingSince ≠ 0) :
    mark waitingSince = Option.some waitingSince :=
  if_neg some

theorem mark_max {clockNs : Nat} (positive : 0 < clockNs) :
    mark (max 1 clockNs) = some clockNs := by
  rw [max_eq_right positive]
  exact mark_of_ne positive.ne'

/-- The waiting times are those of the history, and none is ahead. -/
structure Agrees (s : State) (since : Neglect) : Prop where
  marked : ∀ id, since id = mark (s.threads id).waitingSince
  past : ∀ id, (s.threads id).waitingSince ≤ s.clockNs

theorem Agrees.waited
    {since : Neglect}
    (agrees : Agrees s since)
    (waited : Waited s later)
    (fits : later.overflow = false) : Agrees later since where
  marked := fun id => by
    rw [waited.waitingSince]
    exact agrees.marked id
  past := fun id => by
    rw [waited.waitingSince]
    exact (agrees.past id).trans (waited.clock fits)

theorem Agrees.timely
    {since : Neglect}
    (agrees : Agrees s since) : s.Timely :=
  fun id _ => agrees.past id

/-- A thread is overdue by its waiting time if it was overlooked. -/
theorem overlooked_iff
    {since : Neglect}
    (marked : since id = mark (s.threads id).waitingSince) :
    s.Overlooked since id ↔ s.Overdue id := by
  unfold Overlooked Overdue
  rw [marked]
  unfold mark
  split
  · next none =>
      rw [none]
      simp
  · next some =>
      constructor
      · rintro ⟨time, same, late⟩
        obtain rfl := Option.some.inj same
        exact ⟨some, late⟩
      · rintro ⟨-, late⟩
        exact ⟨_, rfl, late⟩

/-- A choice by the waiting times is fair where they are the history's. -/
theorem PctRule.fair
    {since : Neglect}
    {honourPauses : Bool}
    {chosen : ThreadId}
    (rule : PctRule s honourPauses chosen)
    (marked : ∀ id < s.nthreads, since id = mark (s.threads id).waitingSince) :
    FairRule s since honourPauses chosen := by
  have same {id : ThreadId} (candidate : id ∈ s.candidates honourPauses) :
      s.Overlooked since id ↔ s.Overdue id :=
    overlooked_iff (marked id (mem_candidates.1 candidate).1)
  refine ⟨rule.candidate, fun id candidate late => ?_, fun none => ?_⟩
  · obtain ⟨isLate, earlier⟩ := rule.longest id candidate ((same candidate).1 late)
    refine ⟨(same rule.candidate).2 isLate, fun first isFirst time isTime => ?_⟩
    rw [marked _ rule.registered] at isFirst
    rw [marked _ (mem_candidates.1 candidate).1] at isTime
    unfold mark at isFirst isTime
    split at isFirst
    · cases isFirst
    split at isTime
    · cases isTime
    obtain rfl := Option.some.inj isFirst
    obtain rfl := Option.some.inj isTime
    exact earlier
  · exact rule.highest fun id candidate late =>
      none id candidate ((same candidate).2 late)

theorem agrees_pctChangePoints
    {since : Neglect}
    (agrees : Agrees m since)
    (id : ThreadId) :
    since id = mark (m.pctChangePoints.threads id).waitingSince := by
  rw [(demotes_pctChangePoints m).waitingSince]
  exact agrees.marked id

/-- Where a thread that does not wait is paused, the waiting times between the
two choices are the history's. -/
theorem agrees_afterPause
    {since : Neglect}
    (agrees : Agrees m since)
    (first : Passes m.pctChangePoints m.firstChoice.2 m.firstChoice.1)
    (positive : 0 < m.clockNs)
    (spared : (m.threads m.firstChoice.2).waitingSince = 0)
    (registered : id < m.nthreads) :
    m.passedBy m.firstChoice.2 since id =
      mark (m.afterPause.threads id).waitingSince := by
  have since := agrees.marked id
  rw [waitingSince_afterPause, waitingSince_firstChoice first registered]
  unfold passedBy
  rw [since]
  by_cases isFirst : id = m.firstChoice.2
  · rw [if_pos isFirst, if_neg fun others => others.1 isFirst, isFirst, spared]
  rw [if_neg isFirst]
  by_cases canRun : (m.threads id).state = .runnable
  · rw [if_pos ⟨isFirst, registered, canRun⟩]
    by_cases none : (m.threads id).waitingSince = 0
    · rw [if_pos ⟨canRun, none⟩, none, mark_zero, mark_max positive]
      rfl
    · rw [if_neg fun both => none both.2, mark_of_ne none]
      rfl
  · rw [if_neg fun others => canRun others.2.2, if_neg fun both => canRun both.1]

/-- A pick that spares the threads that wait is fair. -/
theorem PctPick.fair
    {since : Neglect}
    (pick : m.PctPick)
    (agrees : Agrees m since)
    (passes : Passes m.pctChangePoints m.firstChoice.2 m.firstChoice.1)
    (positive : m.pausesFirst = true → 0 < m.clockNs)
    (spared : m.pausesFirst = true →
      (m.threads m.firstChoice.2).waitingSince = 0) : m.FairPick since where
  eligible := pick.eligible
  first := pick.first.fair fun id _ => agrees_pctChangePoints agrees id
  second := by
    have second := pick.second
    split at second
    · next pauses =>
        rw [if_pos pauses]
        have registered : m.firstChoice.2 < m.nthreads :=
          pick.first.registered.trans_eq (choice_pctChangePoints m).nthreads
        refine second.fair fun id inside => ?_
        rw [(choice_afterPause registered).nthreads] at inside
        exact agrees_afterPause agrees passes (positive pauses) (spared pauses)
          inside
    · next stays =>
        rw [if_neg stays]
        exact second
  timely := pick.timely
  demoted := pick.demoted

/-- After a pick that spares the threads that wait the waiting times are the
history's. -/
theorem Agrees.chooseThread
    {since : Neglect}
    (agrees : Agrees m since)
    (pick : m.PctPick)
    (some : m.runnable ≠ 0)
    (moved : 0 < m.clockNs ∨ m.runnable = 1)
    (spared : m.pausesFirst = true →
      (m.threads m.firstChoice.2).waitingSince = 0) :
    Agrees m.chooseThread.1 (m.chosenFrom m.chooseThread.2 since) := by
  obtain ⟨choice, isChosen⟩ := chooseThread_spec some
  have chosenInside := (mem_candidates.1 isChosen).1
  have beyond {id : ThreadId} (outside : m.nthreads ≤ id) :
      m.chooseThread.1.threads id = m.threads id := choice.spare id outside
  refine ⟨fun id => ?_, fun id => ?_⟩
  · have marked := agrees.marked id
    unfold chosenFrom passedBy
    by_cases registered : id < m.nthreads
    swap
    · have others : id ≠ m.chooseThread.2 := fun same =>
        registered (same ▸ chosenInside)
      rw [Function.update_of_ne others, if_neg fun inside => registered inside.2.1,
        beyond (Nat.le_of_not_lt registered), marked]
    rw [pick.waits id registered]
    by_cases chosen : id = m.chooseThread.2
    · rw [if_pos chosen, chosen, Function.update_self]
      rfl
    rw [if_neg chosen, Function.update_of_ne chosen]
    by_cases canRun : (m.threads id).state = .runnable
    · have positive : 0 < m.clockNs := by
        obtain positive | one := moved
        · exact positive
        · exact absurd (only_runnable one isChosen registered canRun) chosen
      rw [if_pos ⟨chosen, registered, canRun⟩, marked]
      by_cases none : (m.threads id).waitingSince = 0
      · rw [if_pos ⟨canRun, .inl none⟩, none, mark_zero, mark_max positive]
        rfl
      · rw [if_neg]
        · rw [mark_of_ne none]
          rfl
        · rintro ⟨-, waits | isFirst⟩
          · exact none waits
          · have second := pick.second
            split at second
            · next pauses =>
                rw [isFirst] at none
                exact none (spared pauses)
            · exact chosen (isFirst.trans second.symm)
    · rw [if_neg fun others => canRun others.2.2, if_neg fun both => canRun both.1,
        marked]
  · by_cases registered : id < m.nthreads
    · exact pick.timely.2.1 id (registered.trans_eq choice.nthreads.symm)
    · rw [beyond (Nat.le_of_not_lt registered), choice.clockNs]
      exact agrees.past id

/-! ## Runs -/

/-- No thread that is not born yet was passed over, and while PCT chooses by
priority the waiting times are the history's. -/
structure Tracked (w : State × Neglect) : Prop where
  spare : ∀ id, w.1.nthreads ≤ id → w.2 id = none
  agrees : w.1.overflow = false → w.1.ByPriority → Agrees w.1 w.2

theorem Waited.byPriority
    (waited : Waited s later)
    (fits : later.overflow = false)
    (byPriority : later.ByPriority) : s.ByPriority := by
  obtain ⟨isPct, below⟩ := byPriority
  rw [waited.scheduler] at isPct
  rw [waited.horizon] at below
  exact ⟨isPct, (waited.clock fits).trans_lt below⟩

theorem Tracked.waited
    {since : Neglect}
    (tracked : Tracked (s, since))
    (waited : Waited s later) : Tracked (later, since) where
  spare := fun id outside => tracked.spare id (waited.nthreads.trans outside)
  agrees := fun fits byPriority =>
    (tracked.agrees (waited.fits fits) (waited.byPriority fits byPriority)).waited
      waited fits

/-- The state of a pick agrees with the history, and the pick is fair. -/
theorem Tracked.pick
    {since : Neglect}
    (tracked : Tracked (m, since))
    (ranked : m.Ranked)
    (some : m.runnable ≠ 0)
    (spares : m.Spares)
    (byPriority : m.ByPriority) :
    m.FairPick since ∧
      Agrees m.chooseThread.1 (m.chosenFrom m.chooseThread.2 since) := by
  obtain ⟨fits, moved, spared⟩ := spares byPriority
  have agrees := tracked.agrees fits byPriority
  obtain ⟨isPct, below⟩ := byPriority
  have pick := pctPick_of_timely ranked isPct below some agrees.timely moved
  have passes := (firstChoice_rule isPct below (below.trans ranked.horizon)
    agrees.timely some).2
  refine ⟨pick.fair agrees passes (fun pauses => ?_) spared,
    agrees.chooseThread pick some moved spared⟩
  obtain positive | one := moved
  · exact positive
  · exact absurd one (runnable_of_pausesFirst pauses).ne'

theorem picked_unique
    {op : Op}
    {other : Nat}
    {m' : State}
    (found : s.picked fuel op = some m)
    (again : s.picked other op = some m') : m' = m := by
  obtain ⟨start, begins, chooses⟩ := picked_eq_some_iff.1 found
  obtain ⟨start', begins', chooses'⟩ := picked_eq_some_iff.1 again
  rw [begins] at begins'
  obtain rfl := Option.some.inj begins'
  exact congrArg Prod.fst (Loop.run_unique chooses' chooses)

/-- What is known of the state of a pick of a run. -/
theorem Tracked.picked
    {since : Neglect}
    {op : Op}
    (tracked : Tracked (s, since))
    (reachable : schedule.Reachable s)
    (possible : s.Possible op)
    (found : s.picked fuel op = some m) :
    Tracked (m, since) ∧ m.Ranked ∧ m.runnable ≠ 0 := by
  obtain ⟨start, begins, chooses⟩ := picked_eq_some_iff.1 found
  obtain ⟨picking, waited⟩ := picking_of_choosing reachable possible begins
  have passages := chooses.passages.1
  exact ⟨tracked.waited (waited.trans passages.waited),
    passages.ranked picking.tidy picking.ranked, chooses.runnable⟩

/-- The scheduler is set before the first thread is born. -/
theorem Tracked.setScheduler
    {since : Neglect}
    (tracked : Tracked (s, since))
    (tidy : s.Tidy)
    (none : s.nthreads = 0)
    (sched : Scheduler) : Tracked (s.setScheduler sched, since) := by
  have same : (s.setScheduler sched).nthreads = s.nthreads ∧
      (s.setScheduler sched).threads = s.threads := by
    unfold State.setScheduler
    dsimp only
    split <;> exact ⟨rfl, rfl⟩
  have spare (id : ThreadId) : since id = Option.none ∧
      ((s.setScheduler sched).threads id).waitingSince = 0 := by
    have outside : s.nthreads ≤ id := none.trans_le (Nat.zero_le id)
    rw [same.2, tidy.spareThreads id outside]
    exact ⟨tracked.spare id outside, rfl⟩
  exact ⟨fun id _ => (spare id).1, fun _ _ =>
    ⟨fun id => (spare id).1.trans (congrArg mark (spare id).2).symm,
      fun id => (spare id).2.trans_le (Nat.zero_le _)⟩⟩

/-- A choice of a thread that can run leaves nothing noted of threads that are
not born yet. -/
theorem chosenFrom_spare
    {since : Neglect}
    (some : m.runnable ≠ 0)
    (outside : m.nthreads ≤ id) :
    m.chosenFrom m.chooseThread.2 since id = since id := by
  have inside := (mem_candidates.1 (chooseThread_spec some).2).1
  unfold chosenFrom passedBy
  rw [Function.update_of_ne (inside.trans_le outside).ne',
    if_neg fun all => outside.not_gt all.2.1]

/-- A step that spares the threads that wait keeps the waiting times in step
with the history. -/
theorem Tracked.step
    {w later : State × Neglect}
    {event : Event}
    (tracked : Tracked w)
    (reachable : schedule.Reachable w.1)
    (step : (neglects.restrict Spared).step w event later) : Tracked later := by
  obtain ⟨s, since⟩ := w
  obtain ⟨later, after⟩ := later
  obtain ⟨op, answer⟩ := event
  obtain ⟨spared, ⟨possible, fuel, done⟩, other, ran, writes⟩ := step
  obtain ⟨⟨_, _⟩, again⟩ := Option.isSome_iff_exists.1 ran
  dsimp only at spared possible done writes again
  subst writes
  unfold noted
  obtain ⟨nobody, quiet⟩ | ⟨m, found, unranked⟩ := picks_of_exec possible done
  · rw [nobody]
    obtain ⟨sched, rfl⟩ | waited := quiet
    · obtain ⟨rfl, -⟩ := Prod.mk.inj (Option.some.inj done)
      exact tracked.setScheduler (tidy_of_reachable reachable) possible.1 sched
    · exact tracked.waited waited
  · obtain ⟨nobody, -⟩ | ⟨m', found', -⟩ := picks_of_exec possible again
    · rw [nobody] at found
      cases found
    obtain rfl := picked_unique found found'
    rw [found']
    obtain ⟨tracked, ranked, runs⟩ := tracked.picked reachable possible found
    have choice := (chooseThread_spec runs).1
    have chosen : Tracked (m'.chooseThread.1,
        m'.chosenFrom m'.chooseThread.2 since) := by
      refine ⟨fun id outside => ?_, fun _ byPriority => ?_⟩
      · have outside : m'.nthreads ≤ id := choice.nthreads.symm.trans_le outside
        exact (chosenFrom_spare runs outside).trans (tracked.spare id outside)
      · have before : m'.ByPriority := by
          obtain ⟨isPct, below⟩ := byPriority
          rw [choice.scheduler.1] at isPct
          rw [choice.clockNs, choice.scheduler.2] at below
          exact ⟨isPct, below⟩
        exact (tracked.pick ranked runs (spared fuel m' found) before).2
    exact chosen.waited unranked.waited

theorem tracked_of_reachable
    {w : State × Neglect}
    (reachable : (neglects.restrict Spared).Reachable w) : Tracked w := by
  refine reachable.invariantOf
    (fun _ reachable => reachable.of_restrict.of_withHistory) ?_ ?_
  · rintro ⟨s, since⟩ ⟨⟨seed, quantumLo, quantumHi, names, latencyNs, same⟩, blank⟩
    obtain rfl : s = initial seed quantumLo quantumHi names latencyNs := same
    obtain rfl : since = fun _ => none := blank
    exact ⟨fun _ _ => rfl, fun _ _ => ⟨fun _ => rfl, fun _ => Nat.zero_le _⟩⟩
  · exact fun _ _ _ reachable tracked step => tracked.step reachable step

/-- In every run in which nobody is passed over at the start of time and no
pause falls on a thread that waits, all picks by priority are fair: by the
history, which says since when each thread was passed over.  No waiting time is
ahead in any state. -/
theorem fairPick_of_run
    {w : State × Neglect}
    (reachable : (neglects.restrict Spared).Reachable w) :
    (w.1.overflow = false → w.1.ByPriority → w.1.Timely) ∧
      ∀ event, w.1.Possible event.1 → Spared w event →
        ∀ fuel, ∀ m ∈ w.1.picked fuel event.1, m.ByPriority → m.FairPick w.2 := by
  have tracked := tracked_of_reachable reachable
  refine ⟨fun fits byPriority => (tracked.agrees fits byPriority).timely,
    fun event possible spared fuel m found byPriority => ?_⟩
  obtain ⟨tracked, ranked, runs⟩ :=
    tracked.picked reachable.of_restrict.of_withHistory possible found
  exact (tracked.pick ranked runs (spared fuel m found) byPriority).1

/-! ## Two runs -/

/-- Carry out critical sections and write the history, as long as they are
possible and meet a condition. -/
def follow
    (condition : State → Op → Bool)
    (fuel : Nat) : List Op → State × Neglect → Option (State × Neglect)
  | [], w => some w
  | op :: ops, w =>
      if w.1.Possible op ∧ condition w.1 op = true then
        (w.1.exec fuel op).bind fun result =>
          follow condition fuel ops (result.1, w.1.noted fuel op w.2)
      else none

theorem reachable_follow
    {check : State → Op → Bool}
    {condition : State × Neglect → Event → Prop}
    (meets : ∀ w event, check w.1 event.1 = true → condition w event)
    {ops : List Op}
    {w later : State × Neglect}
    (reachable : (neglects.restrict condition).Reachable w)
    (followed : follow check fuel ops w = some later) :
    (neglects.restrict condition).Reachable later := by
  induction ops generalizing w with
  | nil => exact Option.some.inj followed ▸ reachable
  | cons op ops inductionHypothesis =>
      unfold follow at followed
      split at followed
      · next may =>
          obtain ⟨⟨middle, answer⟩, done, rest⟩ :=
            Option.bind_eq_some_iff.1 followed
          have step : (neglects.restrict condition).step w (op, answer)
              (middle, w.1.noted fuel op w.2) :=
            ⟨meets w (op, answer) may.2, ⟨may.1, fuel, done⟩, fuel,
              Option.isSome_of_eq_some done, rfl⟩
          exact inductionHypothesis (.next reachable step) rest
      · cases followed

instance (m : State) : Decidable m.ByPriority :=
  inferInstanceAs (Decidable (_ ∧ _))

instance (m : State) : Decidable m.Spares :=
  inferInstanceAs (Decidable (_ → _ ∧ _ ∧ (_ → _)))

/-- Whether an operation chooses nobody, or in a state that spares the threads
that wait. -/
def spares (fuel : Nat) (s : State) (op : Op) : Bool :=
  (s.choosing op).isNone || (s.picked fuel op).any fun m => decide m.Spares

theorem spared_of_spares
    {w : State × Neglect}
    {event : Event}
    (may : spares fuel w.1 event.1 = true) : Spared w event := by
  intro other m found
  unfold spares at may
  rw [Bool.or_eq_true, Option.isNone_iff_eq_none, Option.any_eq_true] at may
  obtain nobody | ⟨m', found', isSpared⟩ := may
  · obtain ⟨start, begins, -⟩ := picked_eq_some_iff.1 found
    rw [nobody] at begins
    cases begins
  · obtain rfl := picked_unique found found'
    exact of_decide_eq_true isSpared

/-- Where critical sections lead to from a run that has not begun, if they can be
carried out. -/
def followed (check : State → Op → Bool) (ops : List Op) : State × Neglect :=
  (follow check 1 ops (initial 1 1 1 [] 0, fun _ => none)).getD
    (initial 1 1 1 [] 0, fun _ => none)

theorem reachable_followed
    {check : State → Op → Bool}
    {condition : State × Neglect → Event → Prop}
    (meets : ∀ w event, check w.1 event.1 = true → condition w event)
    {ops : List Op}
    (possible :
      (follow check 1 ops (initial 1 1 1 [] 0, fun _ => none)).isSome = true) :
    (neglects.restrict condition).Reachable (followed check ops) := by
  obtain ⟨w, done⟩ := Option.isSome_iff_exists.1 possible
  have same : followed check ops = w := by
    unfold followed
    rw [done]
    rfl
  rw [same]
  have begins : (neglects.restrict condition).Reachable
      (initial 1 1 1 [] 0, fun _ => none) :=
    .start ⟨⟨1, 1, 1, [], 0, rfl⟩, rfl⟩
  exact reachable_follow meets begins done

/-- A process with one thread under the PCT scheduler, without change points;
one choice in so many pauses the thread for 500 ns, and a hand-off costs
1000 ns. -/
def starving (pauseDen pctStarveNs : Nat) : List Op :=
  [.setScheduler
      { kind := .pct
        pctDepth := 1
        pctHorizonNs := 1000000
        pctStarveNs := pctStarveNs },
    .setSwitchCost 1000,
    .setPauses { num := 1, den := pauseDen, loNs := 500, hiNs := 500 },
    .addProc 0 none, .addThread 0]

def yielding (id : ThreadId) : Op := .handOff (some (id, .runnable, 0)) 0

/-- Two threads, and three hand-offs, of which the first pauses a thread. -/
def twoThreads : List Op :=
  starving 3 2000 ++
    [.handOff none 0, .addThread 0, yielding 0, yielding 0, yielding 1]

/-- A thread that was passed over for 2000 ns is chosen. -/
theorem fairPick_overlooked :
    let w := followed (spares 1) twoThreads
    ∃ m, w.1.picked 1 (yielding 1) = some m ∧ m.FairPick w.2 ∧
      w.2 0 = some 2000 ∧ m.clockNs = 4000 ∧ m.chooseThread.2 = 0 ∧
      w.1.pauses = 1 := by
  have reachable : (neglects.restrict Spared).Reachable
      (followed (spares 1) twoThreads) :=
    reachable_followed (fun _ _ => spared_of_spares) (by decide +kernel)
  have isPicked : ((followed (spares 1) twoThreads).1.picked 1
      (yielding 1)).isSome = true := by decide +kernel
  obtain ⟨m, found⟩ := Option.isSome_iff_exists.1 isPicked
  have spared : Spared (followed (spares 1) twoThreads) (yielding 1, .done) :=
    @spared_of_spares 1 _ _ (by decide +kernel)
  have fair := (fairPick_of_run reachable).2 (yielding 1, .done)
    (by decide +kernel) spared 1 m found
  have facts : ((followed (spares 1) twoThreads).1.picked 1 (yielding 1)).map
      (fun m => (m.clockNs, m.chooseThread.2)) = some (4000, 0) := by
    decide +kernel
  have byPriority : ((followed (spares 1) twoThreads).1.picked 1
      (yielding 1)).all (fun m => decide m.ByPriority) = true := by
    decide +kernel
  rw [found] at facts byPriority
  obtain ⟨clock, chosen⟩ := Prod.mk.inj (Option.some.inj facts)
  exact ⟨m, found, fair (of_decide_eq_true byPriority), by decide +kernel, clock,
    chosen, by decide +kernel⟩

/-- Three threads, and four hand-offs; the last of them pauses the first thread,
which waits since 1000 ns. -/
def pausedThread : List Op :=
  starving 2 3000 ++ [.handOff none 0, .addThread 0, .addThread 0, yielding 0,
    yielding 1, yielding 1, yielding 1]

/-- An operation of a run picks a thread by priority, and is not fair. -/
def Unfair (w : State × Neglect) (op : Op) : Prop :=
  neglects.Reachable w ∧ w.1.Possible op ∧ ∃ m ∈ w.1.picked 1 op,
    m.overflow = false ∧ m.ByPriority ∧ ¬m.FairPick w.2

/-- Where two threads can run at the start of time the one that is not chosen
waits since a time that is ahead.  A thread that waits and is paused waits only
since the pause: another one is chosen once it was passed over for 4000 ns, with
a bound of 3000 ns. -/
theorem not_fairPick :
    Unfair (followed (fun _ _ => true) (starving 3 2000 ++ [.addThread 0]))
        (.handOff none 0) ∧
      Unfair (followed (fun _ _ => true) pausedThread) (yielding 2) := by
  have reachable {ops : List Op} (possible : (follow (fun _ _ => true) 1 ops
      (initial 1 1 1 [] 0, fun _ => none)).isSome = true) :
      neglects.Reachable (followed (fun _ _ => true) ops) :=
    (@reachable_followed _ (fun _ _ => True) (fun _ _ _ => trivial) _
      possible).of_restrict
  constructor
  · refine ⟨reachable (by decide +kernel), by decide +kernel, ?_⟩
    have ahead : ((followed (fun _ _ => true)
        (starving 3 2000 ++ [.addThread 0])).1.picked 1 (.handOff none 0)).any
          (fun m => !m.overflow && decide m.ByPriority &&
            decide (1 < m.chooseThread.1.nthreads ∧ m.chooseThread.1.clockNs <
              (m.chooseThread.1.threads 1).waitingSince)) = true := by
      decide +kernel
    obtain ⟨m, found, facts⟩ := (Option.any_eq_true _ _).1 ahead
    simp only [Bool.and_eq_true, Bool.not_eq_true', decide_eq_true_eq] at facts
    obtain ⟨⟨fits, byPriority⟩, registered, ahead⟩ := facts
    exact ⟨m, found, fits, byPriority, fun fair =>
      absurd (fair.timely.2.1 1 registered) ahead.not_ge⟩
  · refine ⟨reachable (by decide +kernel), by decide +kernel, ?_⟩
    have late : (followed (fun _ _ => true) pausedThread).2 0 = some 1000 ∧
        (followed (fun _ _ => true) pausedThread).2 2 = none := by
      decide +kernel
    have unfair : ((followed (fun _ _ => true) pausedThread).1.picked 1
        (yielding 2)).any (fun m => !m.overflow && decide m.ByPriority &&
          decide (0 ∈ m.pctChangePoints.candidates m.honours ∧
            1000 + m.pctChangePoints.pctStarveNs ≤ m.pctChangePoints.clockNs ∧
            m.firstChoice.2 = 2)) = true := by
      decide +kernel
    obtain ⟨m, found, facts⟩ := (Option.any_eq_true _ _).1 unfair
    simp only [Bool.and_eq_true, Bool.not_eq_true', decide_eq_true_eq] at facts
    obtain ⟨⟨fits, byPriority⟩, candidate, bound, chosen⟩ := facts
    refine ⟨m, found, fits, byPriority, fun fair => ?_⟩
    obtain ⟨⟨time, isTime, -⟩, -⟩ :=
      fair.first.longest 0 candidate ⟨1000, late.1, bound⟩
    rw [chosen, late.2] at isTime
    cases isTime

end State
end Derp

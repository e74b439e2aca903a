import Derp.Sched.Clock
import Derp.Sched.Sights

/-!
# Faults and pauses that do not show

Two runs of the same operations that differ in the faults that are ahead go on
alike until a fault strikes in one of them: a fault that is not due yet moves
nothing but the stream it was drawn from, and the clock jumps to its time only
to let it strike.  A run that makes no pauses does not look at their range.
-/

namespace Derp
namespace State

variable
  {v : Veil}
  {s t later later' : State}
  {pid : Pid}
  {fuel fuel' : Nat}

/-- How many faults struck. -/
def strikes (s : State) : Nat :=
  s.crashesInjected + s.shutdownsInjected + s.shutdownsForced

/-! ## What does not strike -/

theorem strikes_tellParent (s : State) (child : Pid) :
    (s.tellParent child).strikes = s.strikes := by
  unfold tellParent
  split <;> rfl

theorem strikes_closeDown (s : State) (pid : Pid) :
    (s.closeDown pid).strikes = s.strikes := by
  have closed (net : Net) : (s.setNet net).wakeIo.strikes = s.strikes := rfl
  unfold closeDown
  rw [strikes_tellParent, closed]

theorem strikes_newLife
    (registered : pid < s.nprocs) : (s.newLife pid).strikes = s.strikes := by
  obtain ⟨_, _, _, _, _, _, _, same, -⟩ := newLife_eq registered
  rw [same]
  rfl

theorem strikes_registerRestart
    (registered : pid < s.nprocs)
    (status : Int) :
    (s.registerRestart pid status).strikes = s.strikes := by
  unfold registerRestart
  split
  · rfl
  split
  · rfl
  · exact strikes_newLife registered

theorem strikes_crash
    (registered : pid < s.nprocs) : (s.crash pid).strikes = s.strikes := by
  have dead := (dead_killed registered).grieved
  have noted (s : State) : (s.noteUnsettled pid).strikes = s.strikes := by
    unfold noteUnsettled
    split <;> rfl
  rw [crash_eq, strikes_registerRestart dead.1]
  unfold grieved
  rw [strikes_closeDown, noted]
  rfl

theorem strikes_buried
    (registered : pid < s.nprocs)
    (status : Int) : (s.buried pid status).strikes = s.strikes := by
  have dead := dead_noteExit registered status
  have mourned : ((s.noteExit pid status).mourn pid status).strikes =
      s.strikes := by
    rw [mourn_eq, strikes_closeDown]
    exact strikes_registerRestart dead.1 status
  rw [buried_eq]
  split
  · rfl
  · exact mourned

theorem strikes_stopIfDue (s : State) : s.stopIfDue.strikes = s.strikes := by
  unfold stopIfDue
  split
  · split <;> rfl
  · rfl

theorem strikes_clockMoved (s : State) : s.clockMoved.strikes = s.strikes := by
  unfold clockMoved
  dsimp only
  split <;> rfl

theorem strikes_fireAlarm (s : State) (pid : Pid) :
    (s.fireAlarm pid).strikes = s.strikes := by
  have rearmed : (s.rearm pid).strikes = s.strikes := by
    unfold rearm
    dsimp only
    split <;> rfl
  have woken (s : State) : (s.wakeFirst pid).strikes = s.strikes := by
    unfold wakeFirst
    split <;> rfl
  unfold fireAlarm
  split
  · split
    · rfl
    · rw [woken]
      exact rearmed
  · rfl

theorem strikes_fireAlarms (s : State) : s.fireAlarms.strikes = s.strikes := by
  unfold fireAlarms
  generalize s.pids = pids
  induction pids generalizing s with
  | nil => rfl
  | cons pid pids inductionHypothesis =>
      exact (inductionHypothesis _).trans (strikes_fireAlarm s pid)

/-! ## What strikes -/

/-- No fault of the process is due. -/
structure Unhurt (s : State) (pid : Pid) : Prop where
  crash : ∀ due ∈ (s.procs pid).pendingCrash, s.clockNs < due
  shutdown : ∀ due ∈ (s.procs pid).pendingShutdown, s.clockNs < due

theorem injectDueCrash_cases (registered : pid < s.nprocs) :
    s.injectDueCrash pid = s ∧
        (∀ due ∈ (s.procs pid).pendingCrash, s.clockNs < due) ∨
      s.strikes < (s.injectDueCrash pid).strikes := by
  unfold injectDueCrash
  split
  · next due pending =>
      split
      · next ahead =>
          refine .inl ⟨rfl, fun other isDue => ?_⟩
          rw [pending] at isDue
          obtain rfl := Option.some.inj isDue
          exact ahead
      · have crashed := strikes_crash
          (s := s.modifyProc pid .useUpCrash) registered
        have used : (s.modifyProc pid .useUpCrash).strikes = s.strikes := rfl
        refine .inr ?_
        unfold strikes at crashed used ⊢
        dsimp only at crashed used ⊢
        omega
  · next none =>
      refine .inl ⟨rfl, fun due isDue => ?_⟩
      rw [none] at isDue
      cases isDue

theorem pendingShutdown_gt
    {p : ProcRec}
    {now : Nat}
    (kill : p.killAt ≠ 0 → now < p.killAt)
    (signal : p.shutdownAt ≠ 0 → now < p.shutdownAt) :
    ∀ due ∈ p.pendingShutdown, now < due := by
  intro due isDue
  unfold ProcRec.pendingShutdown at isDue
  split at isDue
  · next first isMin =>
      split at isDue
      · obtain rfl := Option.some.inj isDue
        have present := List.min?_mem isMin
        simp only [List.mem_filter, List.mem_cons, List.not_mem_nil, or_false,
          decide_eq_true_eq] at present
        obtain ⟨rfl | rfl, some⟩ := present
        · exact signal some
        · exact kill some
      · cases isDue
  · cases isDue

theorem injectDueShutdown_cases (registered : pid < s.nprocs) :
    s.injectDueShutdown pid = s ∧
        (∀ due ∈ (s.procs pid).pendingShutdown, s.clockNs < due) ∨
      s.strikes < (s.injectDueShutdown pid).strikes := by
  unfold injectDueShutdown
  dsimp only
  split
  · next dead =>
      refine .inl ⟨rfl, fun due isDue => ?_⟩
      unfold ProcRec.pendingShutdown at isDue
      split at isDue
      · rw [if_neg dead] at isDue
        cases isDue
      · cases isDue
  split
  · have crashed := strikes_crash registered
    refine .inr ?_
    unfold strikes at crashed ⊢
    dsimp only
    omega
  next alive =>
  split
  · next ahead =>
      refine .inl ⟨rfl, pendingShutdown_gt (fun some => ?_) fun some => ?_⟩
      · by_contra reached
        exact alive ⟨some, not_lt.1 reached⟩
      · exact ahead.resolve_left some
  · refine .inr ?_
    unfold strikes
    dsimp only [State.wakeIo, State.postSignal, State.mapLive, State.modifyProc,
      State.noteAdd]
    omega

/-- One process after the other is left alone, or a fault strikes. -/
theorem foldl_cases
    {handle : State → Pid → State}
    {alone : State → Pid → Prop}
    (handled : ∀ s pid, pid < s.nprocs →
      handle s pid = s ∧ alone s pid ∨ s.strikes < (handle s pid).strikes)
    (grows : ∀ s pid, pid < s.nprocs → s.nprocs ≤ (handle s pid).nprocs)
    (pids : List Pid)
    (registered : ∀ pid ∈ pids, pid < s.nprocs) :
    pids.foldl handle s = s ∧ (∀ pid ∈ pids, alone s pid) ∨
      s.strikes < (pids.foldl handle s).strikes := by
  induction pids generalizing s with
  | nil => exact .inl ⟨rfl, fun _ none => nomatch none⟩
  | cons pid pids inductionHypothesis =>
      have inside := registered pid List.mem_cons_self
      have others : ∀ other ∈ pids, other < (handle s pid).nprocs :=
        fun other present =>
          (registered other (List.mem_cons_of_mem pid present)).trans_le
            (grows s pid inside)
      rw [List.foldl_cons]
      obtain ⟨same, first⟩ | struck := handled s pid inside
      · rw [same] at others ⊢
        obtain ⟨rest, alone⟩ | struck := inductionHypothesis others
        · exact .inl ⟨rest, List.forall_mem_cons.2 ⟨first, alone⟩⟩
        · exact .inr struck
      · refine .inr (struck.trans_le ?_)
        obtain ⟨rest, -⟩ | more := inductionHypothesis others
        · rw [rest]
        · exact more.le

/-- What happens at a point of the schedule at which no fault is due. -/
def handleCalm (s : State) : State :=
  s.stopIfDue.clockMoved.expireDeadlines.fireAlarms

theorem procs_clockMoved (s : State) : s.clockMoved.procs = s.procs := by
  unfold clockMoved
  dsimp only
  split <;> rfl

/-- The stop of the run and what arrives leave all faults where they are. -/
theorem pending_due (s : State) (pid : Pid) :
    (s.stopIfDue.clockMoved.procs pid).pendingCrash =
        (s.procs pid).pendingCrash ∧
      (s.stopIfDue.clockMoved.procs pid).pendingShutdown =
        (s.procs pid).pendingShutdown := by
  rw [procs_clockMoved]
  unfold stopIfDue
  split
  · split
    · obtain same | same := stopRun_proc s pid
      · rw [same]
        exact ⟨rfl, rfl⟩
      · rw [same]
        exact ⟨rfl, rfl⟩
    · exact ⟨rfl, rfl⟩
  · exact ⟨rfl, rfl⟩

/-- The time of a fault that is ahead is that of one of the processes. -/
theorem mem_nextCrash
    {due : Nat}
    (next : s.nextCrash = some due) :
    ∃ pid < s.nprocs, (s.procs pid).pendingCrash = some due ∨
      (s.procs pid).pendingShutdown = some due := by
  have present := List.min?_mem next
  rw [List.mem_append, List.mem_filterMap, List.mem_filterMap] at present
  obtain ⟨pid, listed, isDue⟩ | ⟨pid, listed, isDue⟩ := present
  · exact ⟨pid, List.mem_range.1 listed, .inl isDue⟩
  · exact ⟨pid, List.mem_range.1 listed, .inr isDue⟩

/-- Either no fault is due, or one strikes. -/
theorem handleDue_cases (s : State) :
    s.handleDue = s.handleCalm ∧
        (∀ due ∈ s.nextCrash, s.clockNs < due) ∨
      s.strikes < s.handleDue.strikes := by
  have changes : Changes s s.stopIfDue.clockMoved :=
    (changes_stopIfDue s).trans (changes_clockMoved _)
  have strikes : s.stopIfDue.clockMoved.strikes = s.strikes := by
    rw [strikes_clockMoved, strikes_stopIfDue]
  have pending := s.pending_due
  have tables := Changes.tables changes
  have clock := (Deeds.timeless (Changes.deeds changes)).clock
  unfold handleDue handleCalm
  generalize s.stopIfDue.clockMoved = d at strikes pending tables clock
  have ends (s : State) : s.expireDeadlines.fireAlarms.strikes = s.strikes :=
    strikes_fireAlarms _
  have crashes := foldl_cases (s := d)
    (fun _ _ => injectDueCrash_cases)
    (fun _ _ registered => (Deeds.tables (deeds_injectDueCrash registered)).1)
    d.pids fun _ listed => List.mem_range.1 listed
  have shutdowns (s : State) := foldl_cases (s := s)
    (fun _ _ => injectDueShutdown_cases)
    (fun _ _ registered => (Deeds.tables (deeds_injectDueShutdown registered)).1)
    s.pids fun _ listed => List.mem_range.1 listed
  rw [← strikes, ends]
  obtain ⟨uncrashed, crash⟩ | struck := crashes
  · have unchanged : d.injectDueCrashes = d := uncrashed
    rw [unchanged]
    obtain ⟨unsignalled, shutdown⟩ | struck := shutdowns d
    · have unmoved : d.injectDueShutdowns = d := unsignalled
      rw [unmoved]
      refine .inl ⟨rfl, fun due isNext => ?_⟩
      obtain ⟨pid, registered, isDue⟩ := mem_nextCrash isNext
      rw [← clock]
      have listed : pid ∈ d.pids := List.mem_range.2 (tables.1 ▸ registered)
      rw [← (pending pid).1, ← (pending pid).2] at isDue
      exact isDue.elim (crash pid listed due) (shutdown pid listed due)
    · exact .inr struck
  · refine .inr (struck.trans_le ?_)
    obtain ⟨unsignalled, -⟩ | more := shutdowns d.injectDueCrashes
    · exact (congrArg State.strikes unsignalled).ge
    · exact more.le

/-- The time of the first event that is pending, faults apart. -/
def calmEvent (s : State) : Option Nat :=
  ([s.earliestDeadline, s.net.nextDue, s.pendingStop, s.nextAlarm].filterMap
    id).min?

/-- A fault comes first, or the other events are what the clock jumps to. -/
theorem calmEvent_of_ahead
    {next : Nat}
    (event : s.nextEvent = some next)
    (ahead : ∀ due ∈ s.nextCrash, next < due) :
    s.calmEvent = some next := by
  unfold nextEvent at event
  unfold calmEvent
  rw [List.min?_eq_some_iff] at event ⊢
  obtain ⟨present, least⟩ := event
  simp only [List.mem_filterMap, List.mem_cons, List.not_mem_nil, or_false,
    id_eq, exists_eq_right] at present least ⊢
  refine ⟨?_, fun b listed => least b ?_⟩
  · obtain deadline | due | fault | stop | alarm := present
    · exact .inl deadline
    · exact .inr (.inl due)
    · exact absurd (ahead next fault.symm) (lt_irrefl next)
    · exact .inr (.inr (.inl stop))
    · exact .inr (.inr (.inr alarm))
  · obtain deadline | due | stop | alarm := listed
    · exact .inl deadline
    · exact .inr (.inl due)
    · exact .inr (.inr (.inr (.inl stop)))
    · exact .inr (.inr (.inr (.inr alarm)))

theorem nextEvent_of_calmEvent
    {next : Nat}
    (calm : s.calmEvent = some next) : s.nextEvent ≠ none := by
  intro none
  unfold nextEvent at none
  rw [List.min?_eq_none_iff, List.filterMap_eq_nil_iff] at none
  have present := List.min?_mem calm
  rw [List.mem_filterMap] at present
  obtain ⟨event, listed, isNext⟩ := present
  have gone : event = .none := none event (by
    simp only [List.mem_cons, List.not_mem_nil, or_false] at listed ⊢
    tauto)
  rw [gone] at isNext
  cases isNext

theorem Same.calmEvent
    (same : Same v s t)
    (seen : v ≠ .seeds) : s.calmEvent = t.calmEvent := by
  unfold State.calmEvent
  rw [same.earliestDeadline seen, same.net, same.pendingStop, same.nextAlarm]

/-! ## The loop of a pick -/

theorem strikes_handleDue_le (s : State) :
    s.strikes ≤ s.handleDue.strikes := by
  obtain ⟨calm, -⟩ | struck := s.handleDue_cases
  · have same : s.handleCalm.strikes = s.strikes := by
      have expired (s : State) : s.expireDeadlines.strikes = s.strikes := rfl
      unfold handleCalm
      rw [strikes_fireAlarms, expired, strikes_clockMoved, strikes_stopIfDue]
    rw [calm, same]
  · exact struck.le

theorem strikes_pickRound_le (s : State) :
    s.strikes ≤ s.pickRound.strikes := by
  unfold pickRound
  split
  · exact le_rfl
  · next next _ =>
      have jumped : (s.jump next).strikes = s.strikes := rfl
      rw [← jumped]
      exact strikes_handleDue_le _

theorem strikes_run_le
    {found : Bool}
    (run : Loop.run pickOver pickRound fuel s = some (later, found)) :
    s.strikes ≤ later.strikes :=
  (Loop.run_invariant (fun later => s.strikes ≤ later.strikes)
    (fun later before _ => before.trans (strikes_pickRound_le later)) le_rfl
    run).1

theorem Same.handleCalm
    (same : Same v s t)
    (seen : v ≠ .seeds) : Same v s.handleCalm t.handleCalm :=
  ((same.stopIfDue seen).clockMoved.expireDeadlines seen).fireAlarms

/-- The records of processes are seen through the veil over pauses. -/
theorem Same.procs (same : Same .pauses s t) : s.procs = t.procs := by
  have isOpen (p : ProcRec) : p.veil .pauses = p := rfl
  funext pid
  rw [← isOpen (s.procs pid), same.proc, isOpen]

theorem Same.injectDueCrash
    (same : Same .pauses s t)
    (registered : pid < s.nprocs) :
    Same .pauses (s.injectDueCrash pid) (t.injectDueCrash pid) := by
  have used : Same .pauses (s.modifyProc pid .useUpCrash)
      (t.modifyProc pid .useUpCrash) := same.modifyProc (by rw [same.procs])
  have crashed := used.crash registered nofun
  have counted := crashed.change
    (fun s => { s with crashesInjected := s.crashesInjected + 1 }) fun _ => rfl
  unfold State.injectDueCrash
  rw [same.procs, same.clockNs]
  split
  · split
    · exact same
    · exact counted
  · exact same

theorem Same.injectDueShutdown
    (same : Same .pauses s t)
    (registered : pid < s.nprocs) :
    Same .pauses (s.injectDueShutdown pid) (t.injectDueShutdown pid) := by
  have crashed := (same.crash registered nofun).change
    (fun s => { s with shutdownsForced := s.shutdownsForced + 1 }) fun _ => rfl
  have used (grace : Nat) : Same .pauses
      ((s.noteAdd t.clockNs grace).modifyProc pid .useUpShutdown)
      ((t.noteAdd t.clockNs grace).modifyProc pid .useUpShutdown) :=
    (same.noteAdd _ _).changeProc pid _ fun _ => rfl
  have signalled (grace killAt sig : Nat) :=
    (((used grace).changeProc pid (.beginGrace killAt) fun _ => rfl).postSignal
      pid sig).wakeIo
  unfold State.injectDueShutdown
  dsimp only
  rw [same.procs, same.clockNs]
  split
  · exact same
  split
  · exact crashed
  split
  · exact same
  · rw [(used _).clockNs]
    exact (signalled _ _ _).change
      (fun s => { s with shutdownsInjected := s.shutdownsInjected + 1 })
      fun _ => rfl

/-- What one registered process after the other goes through. -/
theorem Same.foldlRegistered
    {handle : State → Pid → State}
    (handled : ∀ {s t : State} {pid}, Same v s t → pid < s.nprocs →
      Same v (handle s pid) (handle t pid))
    (grows : ∀ s pid, pid < s.nprocs → s.nprocs ≤ (handle s pid).nprocs)
    (same : Same v s t)
    (pids : List Pid)
    (registered : ∀ pid ∈ pids, pid < s.nprocs) :
    Same v (pids.foldl handle s) (pids.foldl handle t) := by
  induction pids generalizing s t with
  | nil => exact same
  | cons pid pids inductionHypothesis =>
      have inside := registered pid List.mem_cons_self
      refine inductionHypothesis (handled same inside) fun other present => ?_
      exact (registered other (List.mem_cons_of_mem pid present)).trans_le
        (grows s pid inside)

theorem Same.injectDueCrashes (same : Same .pauses s t) :
    Same .pauses s.injectDueCrashes t.injectDueCrashes := by
  unfold State.injectDueCrashes
  rw [← same.pids]
  exact same.foldlRegistered (fun same => same.injectDueCrash)
    (fun _ _ registered => (Deeds.tables (deeds_injectDueCrash registered)).1)
    s.pids fun _ listed => List.mem_range.1 listed

theorem Same.injectDueShutdowns (same : Same .pauses s t) :
    Same .pauses s.injectDueShutdowns t.injectDueShutdowns := by
  unfold State.injectDueShutdowns
  rw [← same.pids]
  exact same.foldlRegistered (fun same => same.injectDueShutdown)
    (fun _ _ registered =>
      (Deeds.tables (deeds_injectDueShutdown registered)).1)
    s.pids fun _ listed => List.mem_range.1 listed

/-- What is due happens alike, if no hidden fault strikes. -/
theorem Same.handleDue
    (same : Same v s t)
    (clear : s.Clear v)
    (calm : v = .faults → s.handleDue.strikes = s.strikes)
    (calm' : v = .faults → t.handleDue.strikes = t.strikes) :
    Same v s.handleDue t.handleDue := by
  obtain rfl | ⟨rfl, -⟩ := clear
  · obtain ⟨handled, -⟩ | struck := s.handleDue_cases
    · obtain ⟨handled', -⟩ | struck' := t.handleDue_cases
      · rw [handled, handled']
        exact same.handleCalm nofun
      · exact absurd (calm' rfl) struck'.ne'
    · exact absurd (calm rfl) struck.ne'
  · have moved := (same.stopIfDue nofun).clockMoved
    exact (moved.injectDueCrashes.injectDueShutdowns.expireDeadlines
      nofun).fireAlarms

theorem Same.nextEvent (same : Same .pauses s t) : s.nextEvent = t.nextEvent := by
  have nextCrash : s.nextCrash = t.nextCrash := by
    unfold State.nextCrash
    rw [same.procs, same.pids]
  unfold State.nextEvent
  rw [same.earliestDeadline nofun, same.net, nextCrash, same.pendingStop,
    same.nextAlarm]

/-- In a round in which no fault strikes the clock jumps to another event. -/
theorem calmEvent_of_round
    {next : Nat}
    (event : s.nextEvent = some next)
    (calm : s.pickRound.strikes = s.strikes) : s.calmEvent = some next := by
  have round : s.pickRound = (s.jump next).handleDue := by
    unfold pickRound
    rw [event]
  obtain ⟨-, ahead⟩ | struck := (s.jump next).handleDue_cases
  · refine calmEvent_of_ahead event fun due isNext => ?_
    exact (le_max_right s.clockNs next).trans_lt (ahead due isNext)
  · rw [← round, calm] at struck
    exact absurd struck (lt_irrefl _)

/-- Where no hidden fault strikes in the next round, the clock jumps alike. -/
theorem Same.eventOf
    (same : Same v s t)
    (clear : s.Clear v)
    {next : Nat}
    (event : s.nextEvent = some next)
    (calm : v = .faults → s.pickRound.strikes = s.strikes) :
    t.nextEvent ≠ none := by
  obtain rfl | ⟨rfl, -⟩ := clear
  · have first := calmEvent_of_round event (calm rfl)
    rw [same.calmEvent nofun] at first
    exact nextEvent_of_calmEvent first
  · rw [← same.nextEvent, event]
    nofun

theorem Same.eventsOf
    (same : Same v s t)
    (clear : s.Clear v)
    {next next' : Nat}
    (event : s.nextEvent = some next)
    (event' : t.nextEvent = some next')
    (calm : v = .faults → s.pickRound.strikes = s.strikes)
    (calm' : v = .faults → t.pickRound.strikes = t.strikes) : next = next' := by
  obtain rfl | ⟨rfl, -⟩ := clear
  · have first := calmEvent_of_round event (calm rfl)
    have first' := calmEvent_of_round event' (calm' rfl)
    rw [same.calmEvent nofun, first'] at first
    exact (Option.some.inj first).symm
  · rw [same.nextEvent, event'] at event
    exact (Option.some.inj event).symm

theorem Clear.congr
    (clear : s.Clear v)
    (pauses : later.pauseNum = s.pauseNum) : later.Clear v :=
  clear.imp_right fun none => ⟨none.1, pauses.trans none.2⟩

theorem pauseNum_handleDue (s : State) : s.handleDue.pauseNum = s.pauseNum :=
  (Deeds.timeless (deeds_handleDue s)).pauses

theorem Same.symm (same : Same v s t) : Same v t s :=
  Eq.symm same

theorem Same.clear
    (same : Same v s t)
    (clear : s.Clear v) : t.Clear v :=
  clear.congr (same.seen State.pauseNum fun _ => rfl).symm

theorem runnable_of_over
    {found : Bool}
    (isOver : s.pickOver = some found) : found = true ↔ s.runnable ≠ 0 := by
  unfold pickOver at isOver
  split at isOver
  · next some =>
      obtain rfl := Option.some.inj isOver
      exact iff_of_true rfl some
  next none =>
  have stuck : found = false := by
    split at isOver
    · exact (Option.some.inj isOver).symm
    split at isOver
    · exact (Option.some.inj isOver).symm
    · cases isOver
  rw [stuck]
  exact iff_of_false Bool.false_ne_true none

/-- Where one loop goes on so does the other. -/
theorem Same.goesOn
    (same : Same v s t)
    (clear : s.Clear v)
    (going : s.pickOver = none)
    (calm : v = .faults → s.pickRound.strikes = s.strikes) :
    t.pickOver = none := by
  obtain ⟨none, alive, next, event⟩ := pickOver_eq_none.1 going
  rw [same.runnable] at none
  rw [same.anyAlive] at alive
  exact pickOver_eq_none.2 ⟨none, alive,
    Option.ne_none_iff_exists'.1 (same.eventOf clear event calm)⟩

/-- A round of the loop goes alike, if no hidden fault strikes. -/
theorem Same.pickRound
    (same : Same v s t)
    (clear : s.Clear v)
    (going : s.pickOver = none)
    (calm : v = .faults → s.pickRound.strikes = s.strikes)
    (calm' : v = .faults → t.pickRound.strikes = t.strikes) :
    Same v s.pickRound t.pickRound := by
  obtain ⟨-, -, next, event⟩ := pickOver_eq_none.1 going
  obtain ⟨next', event'⟩ :=
    Option.ne_none_iff_exists'.1 (same.eventOf clear event calm)
  obtain rfl := same.eventsOf clear event event' calm calm'
  have round : s.pickRound = (s.jump next).handleDue := by
    unfold State.pickRound
    rw [event]
  have round' : t.pickRound = (t.jump next).handleDue := by
    unfold State.pickRound
    rw [event']
  rw [round] at calm
  rw [round'] at calm'
  rw [round, round']
  have jumped : Same v (s.jump next) (t.jump next) := by
    unfold State.jump
    rw [same.clockNs]
    exact same.setClock _
  exact jumped.handleDue (clear.congr rfl) calm calm'

theorem pauseNum_pickRound (s : State) : s.pickRound.pauseNum = s.pauseNum := by
  unfold pickRound
  split
  · rfl
  · exact pauseNum_handleDue _

/-- The loops of two picks run alike, if no hidden fault strikes. -/
theorem Same.loop
    (same : Same v s t)
    (clear : s.Clear v)
    {found found' : Bool}
    (run : Loop.run pickOver State.pickRound fuel s = some (later, found))
    (run' : Loop.run pickOver State.pickRound fuel' t = some (later', found'))
    (calm : v = .faults → later.strikes = s.strikes)
    (calm' : v = .faults → later'.strikes = t.strikes) :
    Same v later later' ∧ found = found' := by
  induction fuel generalizing s t fuel' with
  | zero => cases run
  | succ fuel inductionHypothesis =>
      cases fuel' with
      | zero => cases run'
      | succ fuel' =>
          unfold Loop.run at run run'
          split at run
          · next isOver =>
              split at run'
              · next isOver' =>
                  obtain ⟨rfl, rfl⟩ := Prod.mk.inj (Option.some.inj run)
                  obtain ⟨rfl, rfl⟩ := Prod.mk.inj (Option.some.inj run')
                  refine ⟨same, ?_⟩
                  rw [Bool.eq_iff_iff, runnable_of_over isOver,
                    runnable_of_over isOver', same.runnable]
              · next going =>
                  have still (isFaults : v = .faults) :
                      t.pickRound.strikes = t.strikes :=
                    (strikes_run_le run').trans_eq (calm' isFaults) |>.antisymm
                      t.strikes_pickRound_le
                  have goes := same.symm.goesOn (same.clear clear) going still
                  rw [isOver] at goes
                  cases goes
          · next going =>
              have still (isFaults : v = .faults) :
                  s.pickRound.strikes = s.strikes :=
                (strikes_run_le run).trans_eq (calm isFaults) |>.antisymm
                  s.strikes_pickRound_le
              rw [same.goesOn clear going still] at run'
              have still' (isFaults : v = .faults) :
                  t.pickRound.strikes = t.strikes :=
                (strikes_run_le run').trans_eq (calm' isFaults) |>.antisymm
                  t.strikes_pickRound_le
              exact inductionHypothesis
                (same.pickRound clear going still still')
                (clear.congr s.pauseNum_pickRound) run run'
                (fun isFaults => (calm isFaults).trans (still isFaults).symm)
                fun isFaults => (calm' isFaults).trans (still' isFaults).symm

/-! ## Hand-offs -/

/-- The reseed moves the streams only. -/
theorem reseedIfDue_eq (s : State) :
    ∃ reseeded rng faultRng pauseRng pctRng, s.reseedIfDue =
      { s with
        reseeded := reseeded
        rng := rng
        faultRng := faultRng
        pauseRng := pauseRng
        pctRng := pctRng } := by
  unfold reseedIfDue
  split
  · exact ⟨_, _, _, _, _, rfl⟩
  · exact ⟨_, _, _, _, _, rfl⟩

theorem strikes_reseedIfDue (s : State) :
    s.reseedIfDue.strikes = s.strikes := by
  obtain ⟨_, _, _, _, _, same⟩ := s.reseedIfDue_eq
  rw [same]
  rfl

theorem pauseNum_reseedIfDue (s : State) :
    s.reseedIfDue.pauseNum = s.pauseNum := by
  obtain ⟨_, _, _, _, _, same⟩ := s.reseedIfDue_eq
  rw [same]

theorem strikes_entered_le (s : State) : s.strikes ≤ s.entered.strikes := by
  rw [← strikes_reseedIfDue]
  exact strikes_handleDue_le _

theorem strikes_choice (choice : Choice s later) :
    later.strikes = s.strikes := by
  cases choice
  rfl

theorem strikes_giveBaton
    (s : State)
    (me : Option ThreadId)
    (next : ThreadId)
    (site : UInt64) : (s.giveBaton me next site).1.strikes = s.strikes := by
  obtain ⟨_, _, _, _, _, _, same⟩ := s.giveBaton_eq me next site
  simp only [same, strikes]

/-- What happens before the loop of a pick goes alike. -/
theorem Same.entered
    (same : Same v s t)
    (clear : s.Clear v)
    (calm : v = .faults → s.entered.strikes = s.strikes)
    (calm' : v = .faults → t.entered.strikes = t.strikes) :
    Same v s.entered t.entered := by
  have reseeded := same.reseedIfDue clear.seen
  refine reseeded.handleDue (clear.congr s.pauseNum_reseedIfDue)
    (fun isFaults => ?_) fun isFaults => ?_
  · rw [strikes_reseedIfDue]
    exact calm isFaults
  · rw [strikes_reseedIfDue]
    exact calm' isFaults

theorem pauseNum_entered (s : State) : s.entered.pauseNum = s.pauseNum :=
  (pauseNum_handleDue _).trans s.pauseNum_reseedIfDue

theorem Passages.pauseNum (passages : Passages s later) :
    later.pauseNum = s.pauseNum := by
  induction passages with
  | refl => rfl
  | tail _ passage inductionHypothesis =>
      cases passage with
      | deed deed =>
          rw [(Deeds.timeless (.single deed)).pauses]
          exact inductionHypothesis
      | jump => exact inductionHypothesis
      | reseed => exact inductionHypothesis

/-- The loop of a choice, and what its end makes of it. -/
theorem choose_cases
    {me : Option ThreadId}
    {site : UInt64}
    {handoff : Handoff}
    (chosen : s.choose fuel me site = some (later, handoff)) :
    ∃ middle found, Chooses fuel s middle found ∧
      (later, handoff) = (if found then
        middle.chooseThread.1.giveBaton me middle.chooseThread.2 site
        else (middle, .idle)) ∧ later.strikes = middle.strikes := by
  obtain ⟨middle, ⟨chooses, given⟩ | ⟨chooses, rfl, rfl⟩⟩ :=
    choose_eq_some_iff.1 chosen
  · refine ⟨middle, true, chooses, given.symm, ?_⟩
    have choice := (chooseThread_spec chooses.runnable).1
    have same := strikes_giveBaton middle.chooseThread.1 me
      middle.chooseThread.2 site
    rw [given] at same
    exact same.trans (strikes_choice choice)
  · exact ⟨later, false, chooses, rfl, rfl⟩

theorem strikes_choose_le
    {me : Option ThreadId}
    {site : UInt64}
    {handoff : Handoff}
    (chosen : s.choose fuel me site = some (later, handoff)) :
    s.strikes ≤ later.strikes := by
  obtain ⟨middle, found, chooses, -, ends⟩ := choose_cases chosen
  rw [ends]
  exact (strikes_entered_le s).trans (strikes_run_le chooses)

/-- A choice goes alike, if no hidden fault strikes. -/
theorem Same.choose
    (same : Same v s t)
    (clear : s.Clear v)
    {me : Option ThreadId}
    {site : UInt64}
    {handoff handoff' : Handoff}
    (chosen : s.choose fuel me site = some (later, handoff))
    (chosen' : t.choose fuel' me site = some (later', handoff'))
    (calm : v = .faults → later.strikes = s.strikes)
    (calm' : v = .faults → later'.strikes = t.strikes) :
    Same v later later' ∧ handoff = handoff' := by
  obtain ⟨middle, found, chooses, given, ends⟩ := choose_cases chosen
  obtain ⟨middle', found', chooses', given', ends'⟩ := choose_cases chosen'
  have first (isFaults : v = .faults) : s.entered.strikes = s.strikes := by
    have after := strikes_run_le chooses
    rw [← ends, calm isFaults] at after
    exact after.antisymm s.strikes_entered_le
  have first' (isFaults : v = .faults) : t.entered.strikes = t.strikes := by
    have after := strikes_run_le chooses'
    rw [← ends', calm' isFaults] at after
    exact after.antisymm t.strikes_entered_le
  have entered := same.entered clear first first'
  obtain ⟨between, rfl⟩ := entered.loop (clear.congr s.pauseNum_entered) chooses
    chooses' (fun isFaults => by rw [← ends, calm isFaults, first isFaults])
    fun isFaults => by rw [← ends', calm' isFaults, first' isFaults]
  have clearly : middle.Clear v :=
    clear.congr (Passages.pauseNum chooses.passages.1)
  cases found with
  | false =>
      obtain ⟨rfl, rfl⟩ := Prod.mk.inj given
      obtain ⟨rfl, rfl⟩ := Prod.mk.inj given'
      exact ⟨between, rfl⟩
  | true =>
      obtain ⟨after, next⟩ := between.chooseThread clearly
      obtain ⟨handed, answers⟩ :=
        after.giveBaton clear.seen me middle.chooseThread.2 site
      have later_eq : later = _ := congrArg Prod.fst given
      have handoff_eq : handoff = _ := congrArg Prod.snd given
      have later_eq' : later' = _ := congrArg Prod.fst given'
      have handoff_eq' : handoff' = _ := congrArg Prod.snd given'
      rw [later_eq, handoff_eq, later_eq', handoff_eq', if_pos rfl, if_pos rfl,
        ← next]
      exact ⟨handed, answers⟩

theorem restarts_choose_le
    {me : Option ThreadId}
    {site : UInt64}
    {handoff : Handoff}
    (chosen : s.choose fuel me site = some (later, handoff)) :
    s.restarts ≤ later.restarts := by
  have passed {middle : State} (passages : Passages s middle) :
      s.restarts ≤ middle.restarts := by
    induction passages with
    | refl => exact le_rfl
    | tail _ passage inductionHypothesis =>
        cases passage with
        | deed deed =>
            exact inductionHypothesis.trans (Deeds.restarts_le (.single deed))
        | jump => exact inductionHypothesis
        | reseed => exact inductionHypothesis
  refine choose_keep (P := fun later => s.restarts ≤ later.restarts) passed
    (fun choice before => ?_) (fun {given next} _ _ before => ?_) chosen
  · cases choice
    exact before
  · obtain ⟨_, _, _, _, _, _, same⟩ := given.giveBaton_eq me next site
    rw [same]
    exact before

theorem restarts_handOff_le
    {src : Option (ThreadId × ThreadState × Nat)}
    {site : UInt64}
    {handoff : Handoff}
    (handed : s.handOff fuel src site = some (later, handoff)) :
    s.restarts ≤ later.restarts := by
  have recorded : (s.recorded src).restarts = s.restarts := by
    cases src <;> rfl
  rw [← recorded]
  exact restarts_choose_le handed

theorem restarts_buried_le
    (registered : pid < s.nprocs)
    (status : Int) : s.restarts ≤ (s.buried pid status).restarts := by
  refine buried_keep (P := fun later => s.restarts ≤ later.restarts)
    (fun change before => ?_) (fun restarts before => ?_)
    (fun _ before => before) (fun before => before) registered status le_rfl
  · rw [change.restarts]
    exact before
  · rw [newLife_restarts restarts.registered]
    exact Nat.le_succ_of_le before

theorem Same.handOff
    (same : Same v s t)
    (clear : s.Clear v)
    {src : Option (ThreadId × ThreadState × Nat)}
    {site : UInt64}
    {handoff handoff' : Handoff}
    (handed : s.handOff fuel src site = some (later, handoff))
    (handed' : t.handOff fuel' src site = some (later', handoff'))
    (calm : v = .faults → later.strikes = s.strikes)
    (calm' : v = .faults → later'.strikes = t.strikes) :
    Same v later later' ∧ handoff = handoff' := by
  have recorded : (s.recorded src).pauseNum = s.pauseNum ∧
      (s.recorded src).strikes = s.strikes := by
    cases src <;> exact ⟨rfl, rfl⟩
  have recorded' : (t.recorded src).strikes = t.strikes := by
    cases src <;> rfl
  refine (same.recorded clear.seen src).choose (clear.congr recorded.1) handed
    handed' (fun isFaults => ?_) fun isFaults => ?_
  · rw [recorded.2]
    exact calm isFaults
  · rw [recorded']
    exact calm' isFaults

theorem Same.heldBy
    (same : Same v s t)
    (pid : Pid) : s.heldBy pid = t.heldBy pid := by
  have current : s.current = t.current := same.seen State.current fun _ => rfl
  have owner : (fun id => decide (id < s.nthreads) &&
      decide ((s.threads id).pid = pid)) =
        fun id => decide (id < t.nthreads) &&
          decide ((t.threads id).pid = pid) := by
    funext id
    rw [same.nthreads]
    exact same.threadSeen id (fun t' => decide (id < t.nthreads) &&
      decide (t'.pid = pid)) fun _ => rfl
  unfold State.heldBy
  rw [current, owner]

/-- Where the veil is over faults, none strikes and no life begins. -/
structure Still (v : Veil) (s later : State) : Prop where
  strikes : v = .faults → later.strikes = s.strikes
  restarts : v = .faults → later.restarts = s.restarts

theorem Same.processDied
    (same : Same v s t)
    (clear : s.Clear v)
    (registered : pid < s.nprocs)
    {status : Int}
    {handoff handoff' : Option Handoff}
    (died : s.processDied fuel pid status = some (later, handoff))
    (died' : t.processDied fuel' pid status = some (later', handoff'))
    (calm : Still v s later)
    (calm' : Still v t later') :
    Same v later later' ∧ handoff = handoff' := by
  have registered' : pid < t.nprocs := same.nprocs ▸ registered
  have quiet (isFaults : v = .faults) :
      (s.buried pid status).restarts = s.restarts := by
    refine le_antisymm ?_ (restarts_buried_le registered status)
    rw [← calm.restarts isFaults]
    obtain ⟨-, rfl, -⟩ | ⟨_, _, -, handed, -⟩ := processDied_eq_some_iff.1 died
    · exact le_rfl
    · exact restarts_handOff_le handed
  have buried := same.buried registered status quiet
  have clearly : (s.buried pid status).Clear v :=
    clear.congr (timeless_buried registered status).pauses
  have held := buried.heldBy pid
  obtain ⟨none, rfl, rfl⟩ | ⟨id, passed, last, handed, rfl⟩ :=
    processDied_eq_some_iff.1 died
  · obtain ⟨-, rfl, rfl⟩ | ⟨_, _, last', -, -⟩ :=
      processDied_eq_some_iff.1 died'
    · exact ⟨buried, rfl⟩
    · rw [← held, none] at last'
      cases last'
  · obtain ⟨none', -, -⟩ | ⟨id', passed', last', handed', rfl⟩ :=
      processDied_eq_some_iff.1 died'
    · rw [← held, last] at none'
      cases none'
    · obtain rfl : id = id' :=
        Option.some.inj (last.symm.trans (held.trans last'))
      obtain ⟨after, answers⟩ := buried.handOff clearly handed handed'
        (fun isFaults => by
          rw [calm.strikes isFaults, strikes_buried registered])
        fun isFaults => by
          rw [calm'.strikes isFaults, strikes_buried registered']
      exact ⟨after, congrArg some answers⟩

/-! ## Steps and runs -/

/-- Operations that look the same do the same, if no hidden fault strikes. -/
theorem Same.exec
    (same : Same v s t)
    (clear : s.Clear v)
    {op op' : Op}
    {answer answer' : Answer}
    (alike : op.veil v = op'.veil v)
    (possible : s.Possible op)
    (done : s.exec fuel op = some (later, answer))
    (done' : t.exec fuel' op' = some (later', answer'))
    (calm : Still v s later)
    (calm' : Still v t later') :
    Same v later later' ∧ answer = answer' := by
  by_cases still : op.still = true
  · exact same.exec_still still alike possible done done' calm.restarts
  obtain rfl | ⟨_, _, _, _, rfl, -⟩ | ⟨_, _, rfl, -⟩ := Op.alike_cases alike
  · cases op' with
    | handOff src site =>
        obtain ⟨⟨_, _⟩, handed, ends⟩ := Option.map_eq_some_iff.1 done
        obtain ⟨⟨_, _⟩, handed', ends'⟩ := Option.map_eq_some_iff.1 done'
        obtain ⟨rfl, rfl⟩ := Prod.mk.inj ends
        obtain ⟨rfl, rfl⟩ := Prod.mk.inj ends'
        obtain ⟨after, answers⟩ :=
          same.handOff clear handed handed' calm.strikes calm'.strikes
        exact ⟨after, congrArg Answer.handoff answers⟩
    | choose me site =>
        obtain ⟨⟨_, _⟩, chosen, ends⟩ := Option.map_eq_some_iff.1 done
        obtain ⟨⟨_, _⟩, chosen', ends'⟩ := Option.map_eq_some_iff.1 done'
        obtain ⟨rfl, rfl⟩ := Prod.mk.inj ends
        obtain ⟨rfl, rfl⟩ := Prod.mk.inj ends'
        obtain ⟨after, answers⟩ :=
          same.choose clear chosen chosen' calm.strikes calm'.strikes
        exact ⟨after, congrArg Answer.handoff answers⟩
    | processDied pid status =>
        obtain ⟨⟨_, _⟩, died, ends⟩ := Option.map_eq_some_iff.1 done
        obtain ⟨⟨_, _⟩, died', ends'⟩ := Option.map_eq_some_iff.1 done'
        obtain ⟨rfl, rfl⟩ := Prod.mk.inj ends
        obtain ⟨rfl, rfl⟩ := Prod.mk.inj ends'
        obtain ⟨after, answers⟩ :=
          same.processDied clear possible died died' calm calm'
        exact ⟨after, congrArg Answer.died answers⟩
    | _ => exact absurd rfl still
  · exact absurd rfl still
  · exact absurd rfl still

/-- What the schedules of two runs are made of is the same: who has the baton,
the quanta, the pauses, the demotions, the clock and the trace. -/
structure Agree (s t : State) : Prop where
  current : s.current = t.current
  threads : s.threads = t.threads
  clockNs : s.clockNs = t.clockNs
  switches : s.switches = t.switches
  traceHash : s.traceHash = t.traceHash
  issued : s.issued = t.issued
  pendingQuantum : s.pendingQuantum = t.pendingQuantum
  pauses : s.pauses = t.pauses
  pctNext : s.pctNext = t.pctNext
  pctChanges : s.pctChanges = t.pctChanges
  pctStarved : s.pctStarved = t.pctStarved
  rng : s.rng = t.rng
  pctRng : s.pctRng = t.pctRng

theorem Same.agree
    (same : Same v s t)
    (seen : v ≠ .seeds) : Agree s t where
  current := same.seen State.current fun _ => rfl
  threads := same.threads seen
  clockNs := same.clockNs
  switches := same.seen State.switches fun _ => rfl
  traceHash := same.seen State.traceHash fun _ => rfl
  issued := same.seen State.issued fun _ => if_neg seen
  pendingQuantum := same.seen State.pendingQuantum fun _ => if_neg seen
  pauses := same.seen State.pauses fun _ => rfl
  pctNext := same.seen State.pctNext fun _ => rfl
  pctChanges := same.seen State.pctChanges fun _ => rfl
  pctStarved := same.seen State.pctStarved fun _ => rfl
  rng := same.rng seen
  pctRng := same.pctRng seen

/-- The runs in which no fault strikes and no life begins. -/
def quiet : Transition State Event where
  init := schedule.init
  step := fun s event later => schedule.step s event later ∧
    later.strikes = s.strikes ∧ later.restarts = s.restarts

/-- Runs of pairs of events that answer the same answer the same. -/
theorem answers_of_pairs
    {events events' : List Event}
    (told : List.Forall₂ (fun event event' => event.2 = event'.2)
      events events') : events.map Prod.snd = events'.map Prod.snd := by
  rw [← List.forall₂_eq_eq_eq, List.forall₂_map_left_iff,
    List.forall₂_map_right_iff]
  exact told

theorem Same.quietly
    (same : Same .faults s t)
    {events events' : List Event}
    (run : quiet.Run s events later)
    (run' : quiet.Run t events' later')
    (alike : events.map (fun event => event.1.veil .faults) =
      events'.map fun event => event.1.veil .faults) :
    events.map Prod.snd = events'.map Prod.snd ∧ Same .faults later later' := by
  obtain ⟨ends, told⟩ := Transition.Run.lockstep (Same .faults)
    (fun event event' => event.2 = event'.2)
    (fun same alike step step' => by
      obtain ⟨⟨possible, fuel, done⟩, strikes, restarts⟩ := step
      obtain ⟨⟨-, fuel', done'⟩, strikes', restarts'⟩ := step'
      exact same.exec (.inl rfl) alike.2.2 possible done done'
        ⟨fun _ => strikes, fun _ => restarts⟩
        ⟨fun _ => strikes', fun _ => restarts'⟩)
    run run' same (pairs_of_map alike)
  exact ⟨answers_of_pairs told, ends⟩

theorem pauseNum_choose
    {me : Option ThreadId}
    {site : UInt64}
    {handoff : Handoff}
    (chosen : s.choose fuel me site = some (later, handoff)) :
    later.pauseNum = s.pauseNum := by
  refine choose_keep (P := fun later => later.pauseNum = s.pauseNum)
    Passages.pauseNum (fun choice before => ?_)
    (fun {given next} _ _ before => ?_) chosen
  · cases choice
    exact before
  · obtain ⟨_, _, _, _, _, _, same⟩ := given.giveBaton_eq me next site
    rw [same]
    exact before

theorem pauseNum_handOff
    {src : Option (ThreadId × ThreadState × Nat)}
    {site : UInt64}
    {handoff : Handoff}
    (handed : s.handOff fuel src site = some (later, handoff)) :
    later.pauseNum = s.pauseNum := by
  have recorded : (s.recorded src).pauseNum = s.pauseNum := by
    cases src <;> rfl
  rw [← recorded]
  exact pauseNum_choose handed

theorem pauseNum_processDied
    (registered : pid < s.nprocs)
    {status : Int}
    {handoff : Option Handoff}
    (died : s.processDied fuel pid status = some (later, handoff)) :
    later.pauseNum = s.pauseNum := by
  have buried := (timeless_buried registered status).pauses
  obtain ⟨-, rfl, -⟩ | ⟨_, _, -, handed, -⟩ := processDied_eq_some_iff.1 died
  · exact buried
  · rw [← buried]
    exact pauseNum_handOff handed

theorem pauseNum_condWakeLoop
    (rounds : Nat)
    (s : State)
    (pid : Pid)
    (cond : Nat)
    (all : Bool) :
    (condWakeLoop rounds s pid cond all).pauseNum = s.pauseNum := by
  induction rounds generalizing s with
  | zero => rfl
  | succ rounds inductionHypothesis =>
      unfold condWakeLoop
      split
      · rfl
      · dsimp only
        split
        · exact inductionHypothesis _
        · rfl

/-- Pauses stay off unless they are set. -/
theorem pauseNum_of_exec
    {op : Op}
    {answer : Answer}
    (off : ∀ pauses, op = .setPauses pauses → pauses.num = 0)
    (none : s.pauseNum = 0)
    (possible : s.Possible op)
    (done : s.exec fuel op = some (later, answer)) : later.pauseNum = 0 := by
  by_cases calm : op.calm = true
  · rw [(Deeds.timeless (changes_of_exec calm possible done).deeds).pauses]
    exact none
  cases op with
  | setPauses pauses =>
      obtain ⟨rfl, -⟩ := Prod.mk.inj (Option.some.inj done)
      exact off pauses rfl
  | setScheduler sched =>
      obtain ⟨rfl, -⟩ := Prod.mk.inj (Option.some.inj done)
      unfold State.setScheduler
      dsimp only
      split <;> exact none
  | addThread pid =>
      obtain ⟨rfl, -⟩ := Prod.mk.inj (Option.some.inj done)
      exact (timeless_addThread s pid).pauses.trans none
  | setFaults pid faults spec =>
      obtain ⟨rfl, -⟩ := Prod.mk.inj (Option.some.inj done)
      exact (timeless_drawCrash _ pid s.clockNs).pauses.trans none
  | setAlarm pid value interval =>
      obtain ⟨rfl, -⟩ := Prod.mk.inj (Option.some.inj done)
      unfold State.setAlarm
      split <;> exact none
  | handOff src site =>
      obtain ⟨⟨_, _⟩, handed, ends⟩ := Option.map_eq_some_iff.1 done
      obtain ⟨rfl, rfl⟩ := Prod.mk.inj ends
      exact (pauseNum_handOff handed).trans none
  | choose me site =>
      obtain ⟨⟨_, _⟩, chosen, ends⟩ := Option.map_eq_some_iff.1 done
      obtain ⟨rfl, rfl⟩ := Prod.mk.inj ends
      exact (pauseNum_choose chosen).trans none
  | processDied pid status =>
      obtain ⟨⟨_, _⟩, died, ends⟩ := Option.map_eq_some_iff.1 done
      obtain ⟨rfl, rfl⟩ := Prod.mk.inj ends
      exact (pauseNum_processDied possible died).trans none
  | crash victim =>
      obtain ⟨rfl, -⟩ := Prod.mk.inj (Option.some.inj done)
      rw [(Deeds.timeless (.single (.crash victim possible.1))).pauses]
      exact none
  | condWake pid cond all =>
      obtain ⟨rfl, -⟩ := Prod.mk.inj (Option.some.inj done)
      exact (pauseNum_condWakeLoop _ s pid cond all).trans none
  | clockRead =>
      obtain ⟨rfl, -⟩ := Prod.mk.inj (Option.some.inj done)
      have read (clockNs : Nat) :
          ((s.noteAdd s.clockNs perReadNs).setClock clockNs).pauseNum =
            s.pauseNum := rfl
      unfold State.clockRead
      rw [(Deeds.timeless (changes_clockMoved _).deeds).pauses, read, none]
  | _ =>
      first
        | exact absurd rfl calm
        | obtain ⟨rfl, -⟩ := Prod.mk.inj (Option.some.inj done)
          exact none

theorem Same.unpaused
    (same : Same .pauses s t)
    (none : s.pauseNum = 0)
    {events events' : List Event}
    (run : schedule.Run s events later)
    (run' : schedule.Run t events' later')
    (off : ∀ event ∈ events, ∀ pauses,
      event.1 = .setPauses pauses → pauses.num = 0)
    (alike : events.map (fun event => event.1.veil .pauses) =
      events'.map fun event => event.1.veil .pauses) :
    events.map Prod.snd = events'.map Prod.snd ∧ Same .pauses later later' := by
  obtain ⟨⟨ends, -⟩, told⟩ := Transition.Run.lockstep
    (fun s t => Same .pauses s t ∧ s.pauseNum = 0)
    (fun event event' => event.2 = event'.2)
    (fun related alike step step' => by
      obtain ⟨same, none⟩ := related
      obtain ⟨possible, fuel, done⟩ := step
      obtain ⟨-, fuel', done'⟩ := step'
      obtain ⟨after, answers⟩ := same.exec (.inr ⟨rfl, none⟩) alike.2.2 possible
        done done' ⟨nofun, nofun⟩ ⟨nofun, nofun⟩
      exact ⟨⟨after, pauseNum_of_exec (off _ alike.1) none possible done⟩,
        answers⟩)
    run run' ⟨same, none⟩ (pairs_of_map alike)
  exact ⟨answers_of_pairs told, ends⟩

/-- The stream of pauses is hidden. -/
theorem same_pauses (s : State) (pauseRng : Rng) :
    Same .pauses s { s with pauseRng := pauseRng } := rfl

/-- Two runs of the same operations from one seed that differ in the ranges and
budgets of crashes and shutdowns make the same schedule as long as no fault
strikes in either and no restart is registered; and a run without pauses makes
the same schedule whatever their range and stream. -/
theorem faults_unseen
    (seed : UInt64)
    (quantumLo quantumHi : Nat)
    (names : List (List UInt8))
    (latencyNs : Nat)
    (events events' : List Event)
    (s t : State) :
    (quiet.Run (initial seed quantumLo quantumHi names latencyNs) events s →
      quiet.Run (initial seed quantumLo quantumHi names latencyNs) events' t →
      events.map (fun event => event.1.veil .faults) =
        events'.map (fun event => event.1.veil .faults) →
      events.map Prod.snd = events'.map Prod.snd ∧ Agree s t) ∧
    (∀ pauseRng : Rng,
      schedule.Run (initial seed quantumLo quantumHi names latencyNs) events s →
      schedule.Run
        { initial seed quantumLo quantumHi names latencyNs with
          pauseRng := pauseRng } events' t →
      (∀ event ∈ events, ∀ pauses,
        event.1 = .setPauses pauses → pauses.num = 0) →
      events.map (fun event => event.1.veil .pauses) =
        events'.map (fun event => event.1.veil .pauses) →
      events.map Prod.snd = events'.map Prod.snd ∧ Agree s t) := by
  refine ⟨fun run run' alike => ?_, fun pauseRng run run' off alike => ?_⟩
  · obtain ⟨answers, ends⟩ := Same.quietly rfl run run' alike
    exact ⟨answers, ends.agree nofun⟩
  · obtain ⟨answers, ends⟩ :=
      (same_pauses _ pauseRng).unpaused rfl run run' off alike
    exact ⟨answers, ends.agree nofun⟩

/-- A process with some faults; it gets a thread, which is given the baton. -/
def armed (faults : Faults) : State :=
  ((initial 1 1 1 [] 0).addProc 0 none).1.setFaults 0 faults 0

def armedBy (faults : Faults) (answer : Answer) : List Event :=
  [(.addProc 0 none, .proc 0), (.setFaults 0 faults 0, .done),
    (.addThread 0, .thread 0), (.handOff none 0, answer)]

theorem quiet_armed
    (faults : Faults)
    (start : (armed faults).Possible (.addThread 0) ∧
      (armed faults).nthreads = 0 ∧ (armed faults).strikes = 0 ∧
        (armed faults).restarts = 0)
    (ready : ((armed faults).addThread 0).1.current = none ∧
      ((armed faults).addThread 0).1.strikes = 0 ∧
        ((armed faults).addThread 0).1.restarts = 0)
    (begun : (((armed faults).addThread 0).1.handOff 1 none 0).map (fun result =>
      (result.2, result.1.strikes, result.1.restarts)) =
        some (.switch 0 0, 0, 0)) :
    ∃ later, quiet.Run (initial 1 1 1 [] 0)
      (armedBy faults (.handoff (.switch 0 0))) later := by
  obtain ⟨possible, number, strikes, restarts⟩ := start
  obtain ⟨idle, strikesToo, restartsToo⟩ := ready
  obtain ⟨⟨later, handoff⟩, handed, same⟩ := Option.map_eq_some_iff.1 begun
  simp only [Prod.mk.injEq] at same
  obtain ⟨rfl, struck, restarted⟩ := same
  have added : (armed faults).exec 0 (.addThread 0) =
      some (((armed faults).addThread 0).1, .thread (armed faults).nthreads) :=
    rfl
  rw [number] at added
  have passed : ((armed faults).addThread 0).1.exec 1 (.handOff none 0) =
      some (later, .handoff (.switch 0 0)) := by
    rw [exec, handed]
    rfl
  have first : quiet.step (initial 1 1 1 [] 0) (.addProc 0 none, .proc 0)
      ((initial 1 1 1 [] 0).addProc 0 none).1 :=
    ⟨⟨⟨Nat.zero_lt_succ _, fun parent named =>
      absurd named (Option.not_mem_none parent)⟩, 0, rfl⟩, rfl, rfl⟩
  have second : quiet.step ((initial 1 1 1 [] 0).addProc 0 none).1
      (.setFaults 0 faults 0, .done) (armed faults) :=
    ⟨⟨⟨⟨Nat.zero_lt_one, rfl⟩, rfl⟩, 0, rfl⟩, strikes, restarts⟩
  have third : quiet.step (armed faults) (.addThread 0, .thread 0)
      ((armed faults).addThread 0).1 :=
    ⟨⟨possible, 0, added⟩, strikesToo.trans strikes.symm,
      restartsToo.trans restarts.symm⟩
  have fourth : quiet.step ((armed faults).addThread 0).1
      (.handOff none 0, .handoff (.switch 0 0)) later :=
    ⟨⟨idle, 1, passed⟩, struck.trans strikesToo.symm,
      restarted.trans restartsToo.symm⟩
  exact ⟨later, .cons first (.cons second (.cons third (.cons fourth (.refl _))))⟩

/-- A crash that is ahead. -/
def crashAhead : Faults :=
  { crashLoNs := 1000000, crashHiNs := 2000000, crashesLeft := 1 }

/-- Two runs, in one of which a crash is ahead. -/
theorem faults_unseen_armed :
    (armed crashAhead).nextCrash ≠ (armed {}).nextCrash ∧
      ∃ later later',
        quiet.Run (initial 1 1 1 [] 0)
          (armedBy {} (.handoff (.switch 0 0))) later ∧
        quiet.Run (initial 1 1 1 [] 0)
          (armedBy crashAhead (.handoff (.switch 0 0))) later' ∧
        Agree later later' := by
  obtain ⟨later, run⟩ := quiet_armed {} (by decide +kernel) (by decide +kernel)
    (by decide +kernel)
  obtain ⟨later', run'⟩ := quiet_armed crashAhead (by decide +kernel)
    (by decide +kernel) (by decide +kernel)
  obtain ⟨-, agree⟩ :=
    (faults_unseen 1 1 1 [] 0 _ _ later later').1 run run' rfl
  exact ⟨by decide +kernel, later, later', run, run', agree⟩

end State
end Derp

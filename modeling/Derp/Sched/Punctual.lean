import Derp.Sched.Ahead
import Derp.Sched.Networks
import Derp.Sched.Restarts

/-!
# Nothing overdue is skipped

Every handler lets what is due happen, and what it schedules is ahead.  So nothing is due
when a thread is chosen, and the clock jumps no further than to the first event that is
pending.
-/

namespace Derp
namespace State

variable
  {s middle later : State}
  {pid : Pid}
  {id : ThreadId}
  {fault : Fault}
  {fuel : Nat}

/-! ## What is due happens -/

/-- The stop stays set as it is, and a run that was stopped stays stopped. -/
structure KeepsStop (s later : State) : Prop where
  time : later.stopAtNs = s.stopAtNs
  stopped : s.stopped = true → later.stopped = true

theorem keepsStop_of_eq
    (time : later.stopAtNs = s.stopAtNs)
    (stopped : later.stopped = s.stopped) : KeepsStop s later :=
  ⟨time, fun was => stopped.trans was⟩

theorem KeepsStop.trans
    (first : KeepsStop s middle)
    (second : KeepsStop middle later) : KeepsStop s later :=
  ⟨second.time.trans first.time, fun was => second.stopped (first.stopped was)⟩

theorem keepsStop_fireAlarm (s : State) (pid : Pid) : KeepsStop s (s.fireAlarm pid) := by
  have woken (s : State) : KeepsStop s (s.wakeFirst pid) := by
    unfold wakeFirst
    split
    · exact keepsStop_of_eq rfl rfl
    · exact keepsStop_of_eq rfl rfl
  have signalled (s : State) : KeepsStop s (s.modifyProc pid (.addSignal sigalrm)) :=
    keepsStop_of_eq rfl rfl
  have rearmed : KeepsStop s (s.rearm pid) := by
    unfold rearm
    dsimp only
    split
    · exact keepsStop_of_eq rfl rfl
    · exact keepsStop_of_eq rfl rfl
  unfold fireAlarm
  split
  · split
    · exact keepsStop_of_eq rfl rfl
    · exact (rearmed.trans (signalled _)).trans (woken _)
  · exact keepsStop_of_eq rfl rfl

theorem Change.keepsStop (change : Change s later) : KeepsStop s later := by
  cases change with
  | alarm pid => exact keepsStop_fireAlarm s pid
  | stop => exact ⟨rfl, fun _ => rfl⟩
  | _ => exact keepsStop_of_eq rfl rfl

theorem Deeds.keepsStop (deeds : Deeds s later) : KeepsStop s later := by
  have killed (s : State) (pid : Pid) : KeepsStop s (s.killed pid) := keepsStop_of_eq rfl rfl
  have used (s : State) (pid : Pid) : KeepsStop s (s.modifyProc pid .useUpCrash) :=
    keepsStop_of_eq rfl rfl
  refine Deeds.keep (P := KeepsStop s) (fun change kept => kept.trans change.keepsStop)
    (fun _ kept => kept.trans (killed _ _))
    (fun _ _ _ kept => kept.trans ((used _ _).trans (killed _ _)))
    (fun restarts kept => kept.trans ?_) deeds (keepsStop_of_eq rfl rfl)
  obtain ⟨_, _, _, _, _, _, _, same, -⟩ := newLife_eq restarts.registered
  rw [same]
  exact keepsStop_of_eq rfl rfl

theorem pendingStop_eq_some_iff {due : Nat} :
    s.pendingStop = some due ↔ (s.stopAtNs ≠ 0 ∧ ¬s.stopped = true) ∧ s.stopAtNs = due := by
  unfold pendingStop
  split
  · next set => simp [set]
  · next unset => exact ⟨(nomatch ·), fun set => absurd set.1 unset⟩

/-- The stop that is ahead is the one that was set. -/
theorem KeepsStop.pendingStop
    (kept : KeepsStop s later)
    {due : Nat}
    (pending : later.pendingStop = some due) : s.pendingStop = some due := by
  rw [pendingStop_eq_some_iff] at pending ⊢
  rw [← kept.time]
  exact ⟨⟨pending.1.1, fun was => pending.1.2 (kept.stopped was)⟩, pending.2⟩

theorem pendingStop_stopRun (s : State) : s.stopRun.pendingStop = none :=
  if_neg fun set => set.2 rfl

theorem pendingStop_stopIfDue
    {due : Nat}
    (pending : s.stopIfDue.pendingStop = some due) : s.clockNs < due := by
  unfold stopIfDue at pending
  split at pending
  · next first ahead =>
      split at pending
      · rw [pendingStop_stopRun] at pending
        cases pending
      · next early =>
          obtain rfl : first = due := Option.some.inj (ahead.symm.trans pending)
          exact not_le.1 early
  · next none =>
      rw [none] at pending
      cases pending

/-! ### Payloads -/

theorem registerRestart_net
    (registered : pid < s.nprocs)
    (status : Int) : (s.registerRestart pid status).net = s.net := by
  unfold registerRestart
  split
  · rfl
  split
  · rfl
  · exact newLife_net registered

theorem tellParent_net (s : State) (child : Pid) : (s.tellParent child).net = s.net := by
  unfold tellParent
  split <;> rfl

theorem noteUnsettled_net (s : State) (victim : Pid) :
    (s.noteUnsettled victim).net = s.net := by
  unfold noteUnsettled
  split <;> rfl

theorem closeDown_net (s : State) (pid : Pid) :
    (s.closeDown pid).net = s.net.processDied pid := by
  have woken (s : State) : s.wakeIo.net = s.net := rfl
  have given (s : State) (net : Net) : (s.setNet net).net = net := rfl
  unfold closeDown
  rw [tellParent_net, woken, given]

theorem grieved_net (s : State) (pid : Pid) :
    (s.grieved pid).net = s.net.processDied pid :=
  (closeDown_net _ pid).trans
    (congrArg (fun net : Net => net.processDied pid) (noteUnsettled_net _ pid))

theorem crash_net (registered : pid < s.nprocs) :
    (s.crash pid).net = s.net.processDied pid := by
  rw [crash_eq, registerRestart_net (dead_killed registered).grieved.1, grieved_net]
  rfl

/-- What a process leaves behind as it dies is not due yet. -/
theorem Networked.onTime_crash
    (networked : s.Networked)
    (registered : pid < s.nprocs) :
    Net.Accounts.OnTime s.net.accounts (s.crash pid).net.accounts := by
  rw [crash_net registered]
  exact Net.onTime_processDied (Net.reachable_accounted networked)
    (Net.reachable_wired networked) pid

theorem Networked.onTime_injectDueCrash
    (networked : s.Networked)
    (registered : pid < s.nprocs) :
    Net.Accounts.OnTime s.net.accounts (s.injectDueCrash pid).net.accounts := by
  unfold injectDueCrash
  split
  · split
    · exact .refl _
    · have used : (s.modifyProc pid .useUpCrash).Networked := networked
      dsimp only
      exact used.onTime_crash registered
  · exact .refl _

theorem Networked.onTime_injectDueShutdown
    (networked : s.Networked)
    (registered : pid < s.nprocs) :
    Net.Accounts.OnTime s.net.accounts (s.injectDueShutdown pid).net.accounts := by
  unfold injectDueShutdown
  dsimp only
  split
  · exact .refl _
  split
  · dsimp only
    exact networked.onTime_crash registered
  split
  · exact .refl _
  · dsimp only [State.wakeIo, State.postSignal, State.mapLive, State.modifyProc, State.noteAdd]
    exact .refl _

/-- One process after the other dies, or does not. -/
theorem Networked.onTime_foldl
    (networked : s.Networked)
    {handle : State → Pid → State}
    (handled : ∀ s pid, pid < s.nprocs → Deeds s (handle s pid))
    (onTime : ∀ {s : State} {pid}, s.Networked → pid < s.nprocs →
      Net.Accounts.OnTime s.net.accounts (handle s pid).net.accounts) :
    Net.Accounts.OnTime s.net.accounts (s.pids.foldl handle s).net.accounts := by
  refine (List.foldl_invariant (fun t => Deeds s t ∧
      Net.Accounts.OnTime s.net.accounts t.net.accounts) ⟨.refl, .refl _⟩
    fun t pid present before => ?_).2
  have registered := (List.mem_range.1 present).trans_le (Deeds.tables before.1).1
  exact ⟨before.1.trans (handled t pid registered),
    before.2.trans (onTime (before.1.networked networked) registered)⟩

/-! ### Faults -/

theorem dead_crash (registered : pid < s.nprocs) : (s.crash pid).Dead pid := by
  have dead := (dead_killed registered).grieved
  rw [crash_eq]
  obtain ⟨-, same⟩ | ⟨-, same⟩ := registerRestart_cases dead.1 dead.2 killedStatus
  · rw [same]
    exact dead_newLife dead
  · rw [same]
    exact dead

theorem spared_injectDueCrash (registered : pid < s.nprocs) :
    ((s.injectDueCrash pid).procs pid).Spared s.clockNs .crash := by
  unfold injectDueCrash
  split
  · next due pending =>
      split
      · next early =>
          unfold ProcRec.pendingCrash at pending
          split at pending
          · obtain rfl := Option.some.inj pending
            exact fun _ => .inr early
          · cases pending
      · exact ProcRec.spared_of_dead
          (dead_crash (s := s.modifyProc pid .useUpCrash) registered).2
  · next none =>
      unfold ProcRec.pendingCrash at none
      split at none
      · cases none
      · next unset => exact fun lives => .inl (by_contra fun set => unset ⟨set, lives⟩)

theorem spared_injectDueShutdown
    (registered : pid < s.nprocs)
    (isShutdown : fault ≠ .crash)
    (fits : (s.injectDueShutdown pid).overflow = false) :
    ((s.injectDueShutdown pid).procs pid).Spared s.clockNs fault := by
  unfold injectDueShutdown at fits ⊢
  dsimp only at fits ⊢
  split
  · next dead => exact ProcRec.spared_of_dead (Bool.not_eq_true _ ▸ dead)
  next lives =>
  rw [if_neg lives] at fits
  split
  · exact ProcRec.spared_of_dead (dead_crash registered).2
  next spared =>
  rw [if_neg spared] at fits
  split
  · next early =>
      intro _
      cases fault with
      | crash => exact absurd rfl isShutdown
      | shutdown => exact early
      | grace =>
          change (s.procs pid).killAt = 0 ∨ s.clockNs < (s.procs pid).killAt
          omega
  · next reached =>
      rw [if_neg reached] at fits
      have noted : addOverflows s.clockNs (max 1 (s.procs pid).faults.graceNs) = false :=
        (Bool.or_eq_false_iff.1 fits).2
      dsimp only [State.wakeIo, State.postSignal, State.mapLive, State.modifyProc,
        State.noteAdd]
      rw [Function.update_self, Function.update_self]
      intro _
      cases fault with
      | crash => exact absurd rfl isShutdown
      | shutdown => exact .inl rfl
      | grace =>
          refine .inr ?_
          change s.clockNs < wrappingAdd s.clockNs _
          rw [addOverflows_false noted]
          omega

/-- What each process is spared by its own turn it is spared after the round, and what is born
meanwhile is spared anyhow. -/
theorem spared_foldl
    {handle : State → Pid → State}
    (handled : ∀ s pid, pid < s.nprocs → Deeds s (handle s pid))
    (serves : ∀ {s : State} {pid}, pid < s.nprocs → (handle s pid).overflow = false →
      ((handle s pid).procs pid).Spared s.clockNs fault)
    (blank : s.Blank)
    (fits : (s.pids.foldl handle s).overflow = false) :
    ∀ pid < (s.pids.foldl handle s).nprocs,
      ((s.pids.foldl handle s).procs pid).Spared s.clockNs fault := by
  intro pid inside
  by_cases old : pid < s.nprocs
  · have registered {t : State} {pid : Pid} (present : pid ∈ s.pids) (deeds : Deeds s t) :
        pid < t.nprocs := (List.mem_range.1 present).trans_le (Deeds.tables deeds).1
    refine List.foldl_establishes (Deeds s)
      (fun t pid => t.overflow = false → (t.procs pid).Spared s.clockNs fault) .refl
      (fun t pid present deeds => deeds.trans (handled t pid (registered present deeds)))
      (fun t pid present deeds fits => ?_)
      (fun t pid present other otherPresent deeds served fits => ?_)
      pid (List.mem_range.2 old) fits
    · rw [← deeds.postpones.clock]
      exact serves (registered present deeds) fits
    · have next := (handled t pid (registered present deeds)).postpones
      have spared := next.spared fits fault other (registered otherPresent deeds)
      rw [deeds.postpones.clock] at spared
      exact spared (served (next.fits fits))
  · exact (deeds_pids handled s).postpones.born fits blank fault pid (not_lt.1 old) inside

/-! ### Timers and deadlines -/

/-- Its timer is not due, if it is armed. -/
def Timed (now : Nat) (p : ProcRec) : Prop :=
  ∀ due, p.pendingAlarm = some due → now < due

theorem pendingAlarm_eq_some_iff
    {p : ProcRec}
    {due : Nat} :
    p.pendingAlarm = some due ↔ (p.state ≠ .exited ∧ p.alarmAt ≠ 0) ∧ p.alarmAt = due := by
  unfold ProcRec.pendingAlarm
  split
  · next set => simp [set]
  · next unset => exact ⟨(nomatch ·), fun set => absurd set.1 unset⟩

theorem timed_rearm (fits : (s.rearm pid).overflow = false) :
    Timed s.clockNs ((s.rearm pid).procs pid) := by
  unfold rearm at fits ⊢
  dsimp only at fits ⊢
  split
  · intro due pending
    unfold modifyProc at pending
    dsimp only at pending
    rw [Function.update_self, pendingAlarm_eq_some_iff] at pending
    exact absurd rfl pending.1.2
  · next again =>
      rw [if_neg again] at fits
      intro due pending
      unfold modifyProc at pending
      dsimp only at pending
      rw [Function.update_self, pendingAlarm_eq_some_iff] at pending
      obtain ⟨-, rfl⟩ := pending
      change s.clockNs < wrappingAdd s.clockNs _
      rw [addOverflows_false (Bool.or_eq_false_iff.1 fits).2]
      omega

theorem timed_fireAlarm (fits : (s.fireAlarm pid).overflow = false) :
    Timed s.clockNs ((s.fireAlarm pid).procs pid) := by
  have woken (s : State) :
      (s.wakeFirst pid).procs = s.procs ∧ (s.wakeFirst pid).overflow = s.overflow := by
    unfold wakeFirst
    split <;> exact ⟨rfl, rfl⟩
  by_cases reached : ∃ due, (s.procs pid).pendingAlarm = some due ∧ due ≤ s.clockNs
  · obtain ⟨due, pending, reached⟩ := reached
    rw [fireAlarm_due pending reached] at fits ⊢
    rw [(woken _).2] at fits
    rw [(woken _).1]
    unfold modifyProc
    dsimp only
    rw [Function.update_self]
    exact timed_rearm fits
  · have early : ∀ due, (s.procs pid).pendingAlarm = some due → s.clockNs < due :=
      fun due pending => not_le.1 fun isDue => reached ⟨due, pending, isDue⟩
    have same : s.fireAlarm pid = s := by
      unfold fireAlarm
      split
      · next due pending => exact if_pos (early due pending)
      · rfl
    rw [same]
    exact early

theorem fireAlarm_procs_of_ne
    {other : Pid}
    (apart : other ≠ pid) : (s.fireAlarm pid).procs other = s.procs other := by
  by_cases reached : ∃ due, (s.procs pid).pendingAlarm = some due ∧ due ≤ s.clockNs
  · obtain ⟨due, pending, reached⟩ := reached
    obtain ⟨again, procs, -⟩ := fireAlarm_procs pending reached
    rw [procs, Function.update_of_ne apart]
  · unfold fireAlarm
    split
    · next due pending =>
        rw [if_pos (not_le.1 fun isDue => reached ⟨due, pending, isDue⟩)]
    · rfl

theorem changes_fireAlarms (s : State) : Changes s s.fireAlarms :=
  List.foldl_invariant (Changes s) .refl fun _ _ present changes =>
    changes.trans (changes_fireAlarm
      ((List.mem_range.1 present).trans_eq (Changes.tables changes).1.symm))

theorem timed_fireAlarms
    (fits : s.fireAlarms.overflow = false)
    (registered : pid < s.nprocs) : Timed s.clockNs (s.fireAlarms.procs pid) := by
  refine List.foldl_establishes (Changes s)
    (fun t pid => t.overflow = false → Timed s.clockNs (t.procs pid)) .refl
    (fun t pid present changes => changes.trans (changes_fireAlarm
      ((List.mem_range.1 present).trans_eq (Changes.tables changes).1.symm)))
    (fun t pid present changes fits => ?_)
    (fun t pid present other otherPresent changes served fits => ?_)
    pid (List.mem_range.2 registered) fits
  · rw [← changes.deeds.postpones.clock]
    exact timed_fireAlarm fits
  · by_cases same : other = pid
    · subst same
      rw [← changes.deeds.postpones.clock]
      exact timed_fireAlarm fits
    · rw [fireAlarm_procs_of_ne same]
      have grows := (changes_fireAlarm ((List.mem_range.1 present).trans_eq
        (Changes.tables changes).1.symm)).deeds.postpones
      exact served (grows.fits fits)

theorem expired_expireDeadlines
    (registered : id < s.nthreads) :
    (s.expireDeadlines.threads id).expired s.clockNs = false := by
  unfold expireDeadlines mapLive
  dsimp only
  rw [if_pos registered]
  split
  · rfl
  · next early => exact Bool.not_eq_true _ ▸ early

/-- A thread that does not block has no deadline that it had not. -/
theorem expired_of_changes
    (changes : Changes s later)
    (registered : id < s.nthreads)
    (early : (s.threads id).expired s.clockNs = false) :
    (later.threads id).expired s.clockNs = false := by
  have parked := (Deeds.keepsParked changes.deeds).thread id registered
  have waits := (Deeds.keepsWaits changes.deeds).2.thread id registered
  unfold ThreadRec.expired at early ⊢
  rw [Bool.eq_false_iff, Ne, Bool.and_eq_true, Bool.and_eq_true, decide_eq_true_eq,
    decide_eq_true_eq, decide_eq_true_eq] at early ⊢
  rintro ⟨⟨blocked, some⟩, due⟩
  obtain same | none := waits.deadline
  · rw [same] at some due
    exact early ⟨⟨(parked.blocked blocked).1, some⟩, due⟩
  · exact some none

/-! ## All that is due has happened -/

/-- Nothing is due. -/
structure Served (s : State) : Prop where
  deadlines : ∀ id < s.nthreads, (s.threads id).expired s.clockNs = false
  clock : s.net.now = s.clockNs
  payloads : s.net.accounts.Ahead
  faults : ∀ fault, ∀ pid < s.nprocs, (s.procs pid).Spared s.clockNs fault
  timers : ∀ pid < s.nprocs, Timed s.clockNs (s.procs pid)
  stop : ∀ due, s.pendingStop = some due → s.clockNs < due

/-- Every sum of times fitted. -/
def Fits (s : State) : Prop := s.overflow = false ∧ s.net.overflow = false

theorem stopIfDue_net (s : State) : s.stopIfDue.net = s.net := by
  unfold stopIfDue
  split
  · split <;> rfl
  · rfl

theorem clockMoved_net (s : State) : s.clockMoved.net = (s.net.advance s.clockNs).1 := by
  unfold clockMoved
  dsimp only
  split <;> rfl

theorem fireAlarms_net (s : State) : s.fireAlarms.net = s.net :=
  List.foldl_invariant (fun t => t.net = s.net) rfl fun t pid _ same =>
    (fireAlarm_net t pid).trans same

/-- Before anything else the run stops, if it is time, and payloads arrive. -/
def arrived (s : State) : State := s.stopIfDue.clockMoved

/-- Then faults strike. -/
def faulted (s : State) : State := s.arrived.injectDueCrashes.injectDueShutdowns

theorem handleDue_eq (s : State) : s.handleDue = s.faulted.expireDeadlines.fireAlarms := rfl

theorem deeds_arrived (s : State) : Deeds s s.arrived :=
  (changes_stopIfDue s).deeds.trans (changes_clockMoved _).deeds

theorem deeds_faulted (s : State) : Deeds s.arrived s.faulted :=
  (deeds_injectDueCrashes _).trans (deeds_injectDueShutdowns _)

theorem arrived_net (s : State) : s.arrived.net = (s.net.advance s.clockNs).1 := by
  unfold arrived
  rw [clockMoved_net, stopIfDue_net, (changes_stopIfDue s).deeds.postpones.clock]

theorem handleDue_net (s : State) : s.handleDue.net = s.faulted.net := by
  rw [handleDue_eq, fireAlarms_net]
  rfl

/-- What is due at the clock arrives first, and what comes after is not due yet. -/
theorem Networked.onTime_handleDue (networked : s.Networked) :
    Net.Accounts.OnTime (s.net.advance s.clockNs).1.accounts s.handleDue.net.accounts := by
  have before := (deeds_arrived s).networked networked
  have crashed := before.onTime_foldl (fun _ _ => deeds_injectDueCrash)
    fun networked registered => networked.onTime_injectDueCrash registered
  have between := (deeds_injectDueCrashes _).networked before
  have shutDown := between.onTime_foldl (fun _ _ => deeds_injectDueShutdown)
    fun networked registered => networked.onTime_injectDueShutdown registered
  rw [arrived_net] at crashed
  rw [handleDue_net]
  exact crashed.trans shutDown

theorem Postpones.spared_all
    (postpones : Postpones s later)
    (fits : later.overflow = false)
    (blank : s.Blank)
    (before : ∀ pid < s.nprocs, (s.procs pid).Spared s.clockNs fault) :
    ∀ pid < later.nprocs, (later.procs pid).Spared later.clockNs fault := by
  intro pid inside
  rw [postpones.clock]
  by_cases old : pid < s.nprocs
  · exact postpones.spared fits fault pid old (before pid old)
  · exact postpones.born fits blank fault pid (not_lt.1 old) inside

/-- Crashes come first and shutdowns after them, and neither brings a fault that is due. -/
theorem spared_faulted
    (blank : s.arrived.Blank)
    (fits : s.faulted.overflow = false) :
    ∀ pid < s.faulted.nprocs, (s.faulted.procs pid).Spared s.faulted.clockNs fault := by
  have crashed := (deeds_injectDueCrashes s.arrived).postpones
  have shutDown := (deeds_injectDueShutdowns s.arrived.injectDueCrashes).postpones
  have crashes := spared_foldl (fun _ _ => deeds_injectDueCrash)
    (fun registered _ => spared_injectDueCrash registered) blank (shutDown.fits fits)
  by_cases isCrash : fault = .crash
  · subst isCrash
    refine shutDown.spared_all fits (crashed.blank blank) ?_
    rw [crashed.clock]
    exact crashes
  · have signals := spared_foldl (fun _ _ => deeds_injectDueShutdown)
      (fun registered fits => spared_injectDueShutdown registered isCrash fits)
      (crashed.blank blank) fits
    intro pid inside
    rw [faulted, shutDown.clock]
    exact signals pid inside

theorem served_handleDue
    (networked : s.Networked)
    (blank : s.Blank)
    (fits : s.handleDue.Fits) : s.handleDue.Served := by
  obtain ⟨now, -, ahead⟩ := Net.ahead_advance (Net.reachable_accounted networked) s.clockNs
  have onTime := networked.onTime_handleDue
  have clock := (deeds_handleDue s).postpones.clock
  have faulted : Deeds s s.faulted := (deeds_arrived s).trans (deeds_faulted s)
  have expired := (changes_expireDeadlines s.faulted).deeds.postpones
  have rang := changes_fireAlarms s.faulted.expireDeadlines
  have after : Postpones s.faulted s.handleDue := expired.trans rang.deeds.postpones
  have sameClock := rang.deeds.postpones.clock
  refine ⟨fun id registered => ?_, ?_, onTime.ahead fits.2 ahead, fun fault => ?_,
    fun pid registered => ?_, fun due pending => ?_⟩
  · have inside := registered.trans_eq rang.tables.2
    rw [handleDue_eq, sameClock]
    refine expired_of_changes rang inside ?_
    rw [expired.clock]
    exact expired_expireDeadlines inside
  · rw [clock]
    exact onTime.now.trans now
  · exact after.spared_all fits.1 (faulted.postpones.blank blank)
      (spared_faulted ((deeds_arrived s).postpones.blank blank) (after.fits fits.1))
  · rw [handleDue_eq, sameClock]
    exact timed_fireAlarms fits.1 (registered.trans_eq rang.tables.1)
  · have moved : Deeds s.stopIfDue s.arrived := (changes_clockMoved _).deeds
    have before : Deeds s.stopIfDue s.faulted := moved.trans (deeds_faulted s)
    have struck : Deeds s.stopIfDue s.handleDue :=
      (before.trans (changes_expireDeadlines _).deeds).trans rang.deeds
    rw [clock]
    exact pendingStop_stopIfDue (struck.keepsStop.pendingStop pending)

/-! ## From event to event -/

/-- The times of the events that are pending. -/
inductive Pending (s : State) : Nat → Prop
  /-- A blocked thread waits until its deadline. -/
  | deadline {id : ThreadId} : id < s.nthreads → (s.threads id).state = .blocked →
      (s.threads id).deadline ≠ 0 → Pending s (s.threads id).deadline
  /-- A record is at the head of a flight ring. -/
  | payload {sock : SockId} {due : Nat} : s.net.headDue sock = some due → Pending s due
  /-- A process is crashed, sent its shutdown signal, or at the end of its grace period. -/
  | fault {pid : Pid} {fault : Fault} : s.Alive pid → (s.procs pid).timeOf fault ≠ 0 →
      Pending s ((s.procs pid).timeOf fault)
  | timer {pid : Pid} : pid < s.nprocs → (s.procs pid).state ≠ .exited →
      (s.procs pid).alarmAt ≠ 0 → Pending s (s.procs pid).alarmAt
  | stop : s.stopAtNs ≠ 0 → s.stopped = false → Pending s s.stopAtNs

/-- Every pending event is ahead. -/
def Punctual (s : State) : Prop := ∀ due, s.Pending due → s.clockNs < due

theorem Served.punctual
    (served : s.Served)
    (networked : s.Networked) : s.Punctual := by
  intro due pending
  cases pending with
  | @deadline id registered blocked set =>
      have early := served.deadlines id registered
      unfold ThreadRec.expired at early
      rw [Bool.eq_false_iff, Ne, Bool.and_eq_true, Bool.and_eq_true, decide_eq_true_eq,
        decide_eq_true_eq, decide_eq_true_eq] at early
      exact not_le.1 fun isDue => early ⟨⟨blocked, set⟩, isDue⟩
  | payload head =>
      rw [← served.clock]
      exact Net.lt_of_headDue (Net.reachable_accounted networked).counted served.payloads head
  | @fault pid fault alive set =>
      exact (served.faults fault pid alive.1 alive.2).resolve_left set
  | @timer pid registered unexited armed =>
      exact served.timers pid registered _ (pendingAlarm_eq_some_iff.2 ⟨⟨unexited, armed⟩, rfl⟩)
  | stop set running =>
      exact served.stop _ (pendingStop_eq_some_iff.2 ⟨⟨set, Bool.eq_false_iff.1 running⟩, rfl⟩)

theorem min?_le_of_mem
    {times : List Nat}
    {time : Nat}
    (present : time ∈ times) : ∃ first, times.min? = some first ∧ first ≤ time := by
  cases isMin : times.min? with
  | none => exact absurd (List.min?_eq_none_iff.1 isMin) (List.ne_nil_of_mem present)
  | some first => exact ⟨first, rfl, (List.min?_eq_some_iff.1 isMin).2 time present⟩

theorem pendingShutdown_le
    {p : ProcRec}
    (alive : p.alive = true)
    (isShutdown : fault ≠ .crash)
    (set : p.timeOf fault ≠ 0) :
    ∃ first, p.pendingShutdown = some first ∧ first ≤ p.timeOf fault := by
  have present : p.timeOf fault ∈ [p.shutdownAt, p.killAt].filter (· ≠ 0) := by
    rw [List.mem_filter, decide_eq_true_eq]
    refine ⟨?_, set⟩
    cases fault with
    | crash => exact absurd rfl isShutdown
    | shutdown => exact List.mem_cons_self
    | grace => exact List.mem_cons_of_mem _ List.mem_cons_self
  obtain ⟨first, isFirst, least⟩ := min?_le_of_mem present
  refine ⟨first, ?_, least⟩
  unfold ProcRec.pendingShutdown
  rw [isFirst]
  exact if_pos alive

theorem nextCrash_le
    (alive : s.Alive pid)
    (set : (s.procs pid).timeOf fault ≠ 0) :
    ∃ first, s.nextCrash = some first ∧ first ≤ (s.procs pid).timeOf fault := by
  have registered : pid ∈ s.pids := List.mem_range.2 alive.1
  unfold nextCrash
  by_cases isCrash : fault = .crash
  · subst isCrash
    refine min?_le_of_mem (List.mem_append_left _ (List.mem_filterMap.2 ⟨pid, registered, ?_⟩))
    exact if_pos ⟨set, alive.2⟩
  · obtain ⟨first, isFirst, least⟩ := pendingShutdown_le alive.2 isCrash set
    have present : first ∈ s.pids.filterMap fun pid => (s.procs pid).pendingShutdown :=
      List.mem_filterMap.2 ⟨pid, registered, isFirst⟩
    obtain ⟨next, isNext, before⟩ := min?_le_of_mem (List.mem_append_right
      (s.pids.filterMap fun pid => (s.procs pid).pendingCrash) present)
    exact ⟨next, isNext, before.trans least⟩

/-- The next event is the first of all that are pending. -/
theorem nextEvent_le
    (networked : s.Networked)
    {due next : Nat}
    (pending : s.Pending due)
    (event : s.nextEvent = some next) : next ≤ due := by
  unfold nextEvent at event
  have least {first : Nat} (listed : some first ∈
      [s.earliestDeadline, s.net.nextDue, s.nextCrash, s.pendingStop, s.nextAlarm]) :
      next ≤ first :=
    (List.min?_eq_some_iff.1 event).2 first (List.mem_filterMap.2 ⟨_, listed, rfl⟩)
  cases pending with
  | @deadline id registered blocked set =>
      have present : (s.threads id).deadline ∈ (s.live.filter fun id =>
          (s.threads id).state = .blocked && (s.threads id).deadline ≠ 0).map
            fun id => (s.threads id).deadline :=
        List.mem_map.2 ⟨id, List.mem_filter.2 ⟨List.mem_range.2 registered,
          by rw [blocked]; exact decide_eq_true set⟩, rfl⟩
      obtain ⟨first, isFirst, before⟩ := min?_le_of_mem present
      have isFirst : s.earliestDeadline = some first := isFirst
      exact (least (by simp [isFirst])).trans before
  | payload head =>
      obtain ⟨first, isFirst, before⟩ :=
        Net.nextDue_le_headDue (Net.reachable_accounted networked) head
      exact (least (by simp [isFirst])).trans before
  | fault alive set =>
      obtain ⟨first, isFirst, before⟩ := nextCrash_le alive set
      exact (least (by simp [isFirst])).trans before
  | @timer pid registered unexited armed =>
      have present : (s.procs pid).alarmAt ∈
          s.pids.filterMap fun pid => (s.procs pid).pendingAlarm :=
        List.mem_filterMap.2 ⟨pid, List.mem_range.2 registered, if_pos ⟨unexited, armed⟩⟩
      obtain ⟨first, isFirst, before⟩ := min?_le_of_mem present
      have isFirst : s.nextAlarm = some first := isFirst
      exact (least (by simp [isFirst])).trans before
  | stop set running =>
      have isFirst : s.pendingStop = some s.stopAtNs :=
        pendingStop_eq_some_iff.2 ⟨⟨set, Bool.eq_false_iff.1 running⟩, rfl⟩
      exact least (by simp [isFirst])

theorem Networked.jump (networked : s.Networked) (next : Nat) : (s.jump next).Networked :=
  networked

theorem Blank.jump (blank : s.Blank) (next : Nat) : (s.jump next).Blank := blank

theorem jump_net (s : State) (next : Nat) : (s.jump next).net = s.net := rfl

theorem fits_of_handleDue
    (networked : s.Networked)
    (fits : s.handleDue.Fits) : s.Fits := by
  refine ⟨(deeds_handleDue s).postpones.fits fits.1, Bool.eq_false_iff.2 fun isOver => ?_⟩
  obtain ⟨-, same, -⟩ := Net.ahead_advance (Net.reachable_accounted networked) s.clockNs
  have still : s.handleDue.net.overflow = true :=
    networked.onTime_handleDue.overflow (same.trans isOver)
  exact nomatch fits.2.symm.trans still

/-- The streams of the run do not matter. -/
theorem sound_streams
    (networked : s.Networked)
    (blank : s.Blank)
    (rng faultRng pauseRng pctRng : Rng) :
    let later :=
      { s with
        reseeded := true
        rng := rng
        faultRng := faultRng
        pauseRng := pauseRng
        pctRng := pctRng }
    later.Networked ∧ later.Blank ∧ later.clockNs = s.clockNs :=
  ⟨networked, blank, rfl⟩

theorem sound_reseedIfDue
    (networked : s.Networked)
    (blank : s.Blank) :
    s.reseedIfDue.Networked ∧ s.reseedIfDue.Blank ∧ s.reseedIfDue.clockNs = s.clockNs := by
  unfold reseedIfDue
  split
  · exact sound_streams networked blank _ _ _ _
  · exact ⟨networked, blank, rfl⟩

theorem sound_handleDue
    (networked : s.Networked)
    (blank : s.Blank) : s.handleDue.Networked ∧ s.handleDue.Blank :=
  ⟨(deeds_handleDue s).networked networked, (deeds_handleDue s).postpones.blank blank⟩

/-! ### A round -/

theorem sound_pickRound
    (networked : s.Networked)
    (blank : s.Blank) : s.pickRound.Networked ∧ s.pickRound.Blank := by
  unfold pickRound
  split
  · exact ⟨networked, blank⟩
  · exact sound_handleDue (networked.jump _) (blank.jump _)

theorem fits_of_pickRound
    (networked : s.Networked)
    (fits : s.pickRound.Fits) : s.Fits := by
  unfold pickRound at fits
  split at fits
  · exact fits
  · have fitted := fits_of_handleDue (networked.jump _) fits
    exact fitted

theorem served_pickRound
    (networked : s.Networked)
    (blank : s.Blank)
    (served : s.Served)
    (fits : s.pickRound.Fits) : s.pickRound.Served := by
  unfold pickRound at fits ⊢
  split
  · exact served
  · next next event =>
      rw [event] at fits
      exact served_handleDue (networked.jump _) (blank.jump _) fits

/-- The clock jumps no further than to an event that is pending. -/
theorem clockNs_pickRound_le
    (networked : s.Networked)
    (going : s.pickOver = none)
    {due : Nat}
    (pending : s.Pending due)
    (punctual : s.Punctual) : s.pickRound.clockNs ≤ due := by
  obtain ⟨-, -, next, event⟩ := pickOver_eq_none.1 going
  have least := nextEvent_le networked pending event
  unfold pickRound
  rw [event]
  dsimp only
  rw [(deeds_handleDue _).postpones.clock]
  exact max_le (punctual due pending).le least

/-! ### The rounds of a choice -/

/-- The state of a choice after a number of jumps of the clock. -/
def between (s : State) (rounds : Nat) : State := pickRound^[rounds] s.entered

theorem between_succ (s : State) (rounds : Nat) :
    s.between (rounds + 1) = (s.between rounds).pickRound :=
  Function.iterate_succ_apply' ..

theorem sound_between
    (networked : s.Networked)
    (blank : s.Blank)
    (rounds : Nat) : (s.between rounds).Networked ∧ (s.between rounds).Blank := by
  induction rounds with
  | zero =>
      obtain ⟨networked, blank, -⟩ := sound_reseedIfDue networked blank
      exact sound_handleDue networked blank
  | succ rounds inductionHypothesis =>
      rw [between_succ]
      exact sound_pickRound inductionHypothesis.1 inductionHypothesis.2

theorem fits_between
    (networked : s.Networked)
    (blank : s.Blank)
    {first last : Nat}
    (order : first ≤ last)
    (fits : (s.between last).Fits) : (s.between first).Fits := by
  induction order with
  | refl => exact fits
  | @step last _ inductionHypothesis =>
      rw [between_succ] at fits
      exact inductionHypothesis (fits_of_pickRound (sound_between networked blank last).1 fits)

theorem served_between
    (networked : s.Networked)
    (blank : s.Blank)
    {rounds : Nat}
    (fits : (s.between rounds).Fits) : (s.between rounds).Served := by
  induction rounds with
  | zero =>
      obtain ⟨networked, blank, -⟩ := sound_reseedIfDue networked blank
      exact served_handleDue networked blank fits
  | succ rounds inductionHypothesis =>
      have before := sound_between networked blank rounds
      have served := inductionHypothesis
        (fits_between networked blank (Nat.le_succ rounds) fits)
      rw [between_succ] at fits ⊢
      exact served_pickRound before.1 before.2 served fits

theorem Choice.pending
    (choice : Choice s later)
    {due : Nat}
    (pending : later.Pending due) : s.Pending due := by
  obtain ⟨_, _, _, _, _, _, _, _, _, _, aside, _⟩ := choice
  cases pending with
  | @deadline id registered blocked set =>
      obtain ⟨_, _, _, same⟩ := aside id
      dsimp only at blocked set ⊢
      rw [same] at blocked set ⊢
      exact .deadline registered blocked set
  | payload head => exact .payload head
  | fault alive set => exact .fault alive set
  | timer registered unexited armed => exact .timer registered unexited armed
  | stop set running => exact .stop set running

theorem Choice.fits (choice : Choice s later) (fits : later.Fits) : s.Fits := by
  obtain ⟨_, _, _, _, _, _, _, _, _, grows, _, _⟩ := choice
  exact ⟨Bool.eq_false_iff.2 fun isOver => (nomatch fits.1.symm.trans (grows isOver)), fits.2⟩

theorem Picking.blank (picking : Picking s) : s.Blank := by
  intro pid outside
  obtain ⟨_, _, _, _, same⟩ := picking.tidy.spareProcs pid outside
  rw [same]

/-- When a thread is chosen nothing is due, and on the way there the clock did not move while
a thread could run, and jumped no further than to the first event that was pending. -/
theorem punctual_of_pick
    (picking : Picking s)
    {chosen : ThreadId}
    (picked : s.pick fuel = some (later, some chosen))
    (fits : later.Fits) :
    later.Punctual ∧
      (s.entered.runnable ≠ 0 → later.clockNs = s.clockNs) ∧
      ∃ rounds, (s.between 0).clockNs = s.clockNs ∧
        later.clockNs = (s.between rounds).clockNs ∧
        ∀ round < rounds, (s.between round).Punctual ∧
          ∀ due, (s.between round).Pending due → (s.between (round + 1)).clockNs ≤ due := by
  have networked := picking.networked
  have blank := picking.blank
  obtain ⟨middle, ⟨chooses, rfl, -⟩ | ⟨-, -, none⟩⟩ := pick_eq_some_iff.1 picked
  · obtain ⟨rounds, -, going, reached, ended⟩ := Loop.run_eq_some_iff.1 chooses
    have reached : s.between rounds = middle := reached
    subst reached
    obtain ⟨choice, -⟩ := chooseThread_spec chooses.runnable
    have fitted := choice.fits fits
    have punctual {round : Nat} (before : round ≤ rounds) : (s.between round).Punctual :=
      (served_between networked blank (fits_between networked blank before fitted)).punctual
        (sound_between networked blank round).1
    have entered : s.entered.clockNs = s.clockNs := by
      unfold State.entered
      rw [(deeds_handleDue _).postpones.clock, (sound_reseedIfDue networked blank).2.2]
    refine ⟨fun due pending => ?_, fun some => ?_, rounds, entered, choice.clockNs,
      fun round before => ⟨punctual before.le, fun due pending => ?_⟩⟩
    · rw [choice.clockNs]
      exact punctual le_rfl due (choice.pending pending)
    · have atOnce : rounds = 0 := by
        by_contra later
        exact some (pickOver_eq_none.1 (going 0 (Nat.pos_of_ne_zero later))).1
      rw [choice.clockNs, atOnce]
      exact entered
    · rw [between_succ]
      exact clockNs_pickRound_le (sound_between networked blank round).1 (going round before)
        pending (punctual before.le)
  · cases none

/-- Two threads wait until 800 and 900, and the timer of their process fires at 500. -/
def waitsForTimer : List Op :=
  [.addProc 0 none, .addThread 0, .addThread 0, .setSwitchCost 10, .handOff none 0,
    .setDeadline 1 800, .handOff (some (1, .blocked, 64)) 0, .setDeadline 0 900,
    .setAlarm 0 490 0]

theorem picking_waitsForTimer :
    Picking ((played 1 waitsForTimer).recorded (some (0, .blocked, 64))) := by
  have possible : (played 1 waitsForTimer).Possible (.handOff (some (0, .blocked, 64)) 0) := by
    decide +kernel
  exact .handOff (reachable_played (by decide +kernel)) possible

theorem punctual_of_pick_timer :
    ∃ later, ((played 1 waitsForTimer).recorded (some (0, .blocked, 64))).pick 2 =
        some (later, some 0) ∧ later.clockNs = 500 ∧ later.Punctual := by
  obtain ⟨⟨later, answer⟩, picks, facts⟩ := Option.map_eq_some_iff.mp
    (by decide +kernel :
      (((played 1 waitsForTimer).recorded (some (0, .blocked, 64))).pick 2).map (fun result =>
        decide (result.2 = some 0 ∧ result.1.clockNs = 500 ∧ result.1.overflow = false ∧
          result.1.net.overflow = false)) = some true)
  obtain ⟨rfl, clock, fits⟩ := of_decide_eq_true facts
  exact ⟨later, picks, clock, (punctual_of_pick picking_waitsForTimer picks fits).1⟩

/-- A run with no stop goes on past the time 0, which says that there is none. -/
theorem unstopped_without_stop :
    ∃ s later : State, Picking s ∧ s.pick 2 = some (later, some 0) ∧ later.Fits ∧
      later.stopAtNs ≤ later.clockNs ∧ later.stopped = false := by
  obtain ⟨⟨later, answer⟩, picks, facts⟩ := Option.map_eq_some_iff.mp
    (by decide +kernel :
      (((played 1 waitsForTimer).recorded (some (0, .blocked, 64))).pick 2).map (fun result =>
        decide (result.2 = some 0 ∧ (result.1.overflow = false ∧
          result.1.net.overflow = false) ∧ result.1.stopAtNs ≤ result.1.clockNs ∧
            result.1.stopped = false)) = some true)
  obtain ⟨rfl, fits, passed, running⟩ := of_decide_eq_true facts
  exact ⟨_, later, picking_waitsForTimer, picks, fits, passed, running⟩

end State
end Derp

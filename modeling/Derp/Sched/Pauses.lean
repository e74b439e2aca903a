import Derp.Sched.Pct

/-!
# Pauses

A pick holds back at most one thread, the one it would have chosen, and chooses
another.  It counts the threads it chooses among before it chooses, and counts
one less after a pause.
-/

namespace Derp
namespace State

variable
  {s m middle later : State}
  {pid : Pid}
  {id chosen : ThreadId}
  {fuel : Nat}

/-- A choice is made among as many threads as were counted: there is one, and
one of them is chosen. -/
structure Counted (s : State) (honourPauses : Bool) (count : Nat) : Prop where
  positive : 0 < count
  counted : (s.candidates honourPauses).length = count
  chosen : (s.chooseCandidate honourPauses count).2 ∈ s.candidates honourPauses

/-- The pauses of two states, and the bounds of pauses to come, are the same. -/
structure SamePauses (s later : State) : Prop where
  lo : later.pauseLoNs = s.pauseLoNs
  hi : later.pauseHiNs = s.pauseHiNs
  pauses : later.pauses = s.pauses
  pausedUntil : ∀ id,
    (later.threads id).pausedUntil = (s.threads id).pausedUntil

/-- One thread was paused, for a time between the bounds, and nobody else. -/
structure HeldBack (m later : State) (id : ThreadId) : Prop where
  registered : id < m.nthreads
  runnable : (m.threads id).state = .runnable
  unpaused : (m.threads id).pausedUntil ≤ m.clockNs
  within : m.clockNs + m.pauseLoNs ≤ (later.threads id).pausedUntil ∧
    (later.threads id).pausedUntil ≤ m.clockNs + m.pauseHiNs
  pauses : later.pauses = m.pauses + 1
  others : ∀ other ≠ id,
    (later.threads other).pausedUntil = (m.threads other).pausedUntil

/-- What a pick means to pauses, from the state in which it chooses. -/
structure PausePick (m later : State) (chosen : ThreadId) : Prop where
  registered : chosen < m.nthreads
  runnable : (m.threads chosen).state = .runnable
  unpaused : (∃ id < m.nthreads, (m.threads id).state = .runnable ∧
      (m.threads id).pausedUntil ≤ m.clockNs) →
    (m.threads chosen).pausedUntil ≤ m.clockNs ∧
      (later.threads chosen).pausedUntil ≤ later.clockNs
  lone : (m.candidates true).length = 1 → SamePauses m later
  pauses : SamePauses m later ∨ ∃ id, id ≠ chosen ∧ HeldBack m later id
  first : m.pctChangePoints.Counted m.honours
    (if (m.candidates true).length = 0 then m.runnable
      else (m.candidates true).length)
  second : m.pausesFirst = true →
    m.afterPause.Counted true ((m.candidates true).length - 1)

/-! ## Before the choice -/

theorem SamePauses.refl (s : State) : SamePauses s s :=
  ⟨rfl, rfl, rfl, fun _ => rfl⟩

theorem SamePauses.trans
    (first : SamePauses s middle)
    (second : SamePauses middle later) : SamePauses s later where
  lo := second.lo.trans first.lo
  hi := second.hi.trans first.hi
  pauses := second.pauses.trans first.pauses
  pausedUntil := fun id =>
    (second.pausedUntil id).trans (first.pausedUntil id)

theorem samePauses_threads
    {threads : ThreadId → ThreadRec}
    (kept : ∀ id, (threads id).pausedUntil = (s.threads id).pausedUntil) :
    SamePauses s { s with threads := threads } :=
  ⟨rfl, rfl, rfl, kept⟩

theorem samePauses_mapLive
    (s : State)
    {change : ThreadRec → ThreadRec}
    (kept : ∀ t, (change t).pausedUntil = t.pausedUntil) :
    SamePauses s (s.mapLive change) := by
  refine samePauses_threads fun id => ?_
  split
  · exact kept _
  · rfl

theorem samePauses_modifyThread
    (s : State)
    (id : ThreadId)
    {change : ThreadRec → ThreadRec}
    (kept : (change (s.threads id)).pausedUntil =
      (s.threads id).pausedUntil) :
    SamePauses s (s.modifyThread id change) := by
  refine samePauses_threads fun other => ?_
  by_cases same : other = id
  · subst same
    rw [Function.update_self]
    exact kept
  · rw [Function.update_of_ne same]

theorem samePauses_modifyProc
    (s : State)
    (pid : Pid)
    (change : ProcRec → ProcRec) : SamePauses s (s.modifyProc pid change) :=
  ⟨rfl, rfl, rfl, fun _ => rfl⟩

theorem Woken.pausedUntil
    {t t' : ThreadRec}
    (woken : s.Woken t t') : t'.pausedUntil = t.pausedUntil := by
  cases woken <;> rfl

theorem wake_pausedUntil (t : ThreadRec) :
    t.wake.pausedUntil = t.pausedUntil := by
  unfold ThreadRec.wake
  split <;> rfl

theorem samePauses_fireAlarm
    {due : Nat}
    (pending : (s.procs pid).pendingAlarm = some due)
    (reached : due ≤ s.clockNs) : SamePauses s (s.fireAlarm pid) := by
  obtain ⟨isOver, again, same, -, -⟩ := s.rearm_eq pid
  rw [fireAlarm_due pending reached, same]
  have signalled : SamePauses s
      (({ s with overflow := isOver }.modifyProc pid
        (.setAlarmAt again)).modifyProc pid (.addSignal sigalrm)) :=
    ⟨rfl, rfl, rfl, fun _ => rfl⟩
  unfold wakeFirst
  split
  · exact signalled.trans (samePauses_modifyThread _ _ rfl)
  · exact signalled

theorem Change.samePauses (change : Change s later) : SamePauses s later := by
  cases change with
  | count => exact ⟨rfl, rfl, rfl, fun _ => rfl⟩
  | wake woken => exact samePauses_threads fun id => (woken id).pausedUntil
  | noise => exact ⟨rfl, rfl, rfl, fun _ => rfl⟩
  | net => exact ⟨rfl, rfl, rfl, fun _ => rfl⟩
  | signal pid sig =>
      refine (samePauses_modifyProc s pid (.addSignal sig)).trans
        (samePauses_mapLive _ fun t => ?_)
      split
      · exact wake_pausedUntil t
      · rfl
  | alarm pid _ pending reached => exact samePauses_fireAlarm pending reached
  | stop =>
      refine ⟨rfl, rfl, rfl, fun id => ?_⟩
      obtain same | ⟨same, -⟩ := s.stopRun_thread id
      · rw [same]
      · rw [same]
        rfl
  | grace pid =>
      exact (samePauses_modifyProc s pid .useUpShutdown).trans
        (samePauses_modifyProc _ pid _)

theorem samePauses_killed (s : State) (pid : Pid) :
    SamePauses s (s.killed pid) := by
  have retired : SamePauses s (s.retireThreads pid) :=
    samePauses_mapLive s fun t => by split <;> rfl
  exact retired.trans (samePauses_modifyProc _ pid _)

theorem samePauses_newLife (registered : pid < s.nprocs) :
    SamePauses s (s.newLife pid) := by
  obtain ⟨rng, isOver, starts, priority, crashAt, shutdownAt, pctRng, same, -⟩ :=
    newLife_eq registered
  rw [same]
  refine ⟨rfl, rfl, rfl, fun id => ?_⟩
  rw [born_threads]
  split
  · next new =>
      rw [new]
      rfl
  · rfl

theorem Deeds.samePauses (deeds : Deeds s later) : SamePauses s later :=
  Deeds.keep (P := SamePauses s)
    (fun change same => same.trans change.samePauses)
    (fun _ same => same.trans (samePauses_killed _ _))
    (fun _ _ _ same =>
      (same.trans (samePauses_modifyProc _ _ .useUpCrash)).trans
        (samePauses_killed _ _))
    (fun restarts same => same.trans (samePauses_newLife restarts.registered))
    deeds (.refl s)

/-- Nobody is paused before the choice. -/
theorem Passages.samePauses (passages : Passages s later) :
    SamePauses s later := by
  induction passages with
  | refl => exact .refl s
  | tail _ passage inductionHypothesis =>
      cases passage with
      | deed deed =>
          exact inductionHypothesis.trans (Deeds.samePauses (.single deed))
      | jump =>
          exact inductionHypothesis.trans ⟨rfl, rfl, rfl, fun _ => rfl⟩
      | reseed =>
          exact inductionHypothesis.trans ⟨rfl, rfl, rfl, fun _ => rfl⟩

/-! ## The choices -/

theorem samePauses_passPoint (s : State) : SamePauses s s.passPoint := by
  unfold passPoint
  dsimp only
  split
  · next holder _ =>
      split
      · have demoted : SamePauses s (s.modifyThread holder fun t =>
            { t with priority := s.pctNext + 1 }) :=
          samePauses_modifyThread s holder rfl
        exact ⟨rfl, rfl, rfl, demoted.pausedUntil⟩
      · exact ⟨rfl, rfl, rfl, fun _ => rfl⟩
  · exact ⟨rfl, rfl, rfl, fun _ => rfl⟩

theorem samePauses_pctChangePoints (s : State) :
    SamePauses s s.pctChangePoints := by
  have passed (points : Nat) (s : State) :
      SamePauses s (passPoints points s) := by
    induction points generalizing s with
    | zero => exact .refl s
    | succ points inductionHypothesis =>
        unfold passPoints
        split
        · split
          · exact (samePauses_passPoint s).trans (inductionHypothesis _)
          · exact .refl s
        · exact .refl s
  exact passed _ s

theorem samePauses_passOver (s : State) (chosen : ThreadId) :
    SamePauses s (s.passOver chosen) := by
  refine samePauses_threads fun id => ?_
  dsimp only
  split
  · rfl
  split
  · rfl
  split <;> rfl

/-- A choice pauses nobody. -/
theorem samePauses_chooseCandidate
    (s : State)
    (honourPauses : Bool)
    (count : Nat) :
    SamePauses s (s.chooseCandidate honourPauses count).1 := by
  unfold chooseCandidate
  split
  · exact ⟨rfl, rfl, rfl, fun _ => rfl⟩
  split
  · exact ⟨rfl, rfl, rfl, (samePauses_passOver _ _).pausedUntil⟩
  · exact samePauses_passOver s _

theorem samePauses_drawPause (s : State) : SamePauses s s.drawPause.1 := by
  unfold drawPause
  split
  · exact .refl s
  · exact ⟨rfl, rfl, rfl, fun _ => rfl⟩

theorem samePauses_firstChoice (m : State) :
    SamePauses m m.firstChoice.1.drawPause.1 :=
  ((samePauses_pctChangePoints m).trans
    (samePauses_chooseCandidate _ _ _)).trans (samePauses_drawPause _)

/-- The pause that is drawn is between the bounds. -/
theorem pause_pausedUntil
    (positive : 0 < s.pauseLoNs)
    (ordered : s.pauseLoNs ≤ s.pauseHiNs)
    (small : s.pauseHiNs < 2 ^ 62)
    (clock : s.clockNs < 2 ^ 62)
    (chosen : ThreadId) :
    s.clockNs + s.pauseLoNs ≤ ((s.pause chosen).threads chosen).pausedUntil ∧
      ((s.pause chosen).threads chosen).pausedUntil ≤
        s.clockNs + s.pauseHiNs := by
  have drawn := s.pauseRng.logUniform_mem positive ordered small
  have same : ((s.pause chosen).threads chosen).pausedUntil =
      wrappingAdd s.clockNs
        (s.pauseRng.logUniform s.pauseLoNs s.pauseHiNs).1 := by
    unfold pause modifyThread
    dsimp only
    rw [Function.update_self]
    rfl
  rw [same]
  unfold wrappingAdd
  rw [Nat.mod_eq_of_lt (by omega)]
  omega

/-- Who is paused is no candidate any more, and nobody else stops being one. -/
theorem candidates_pause
    (registered : chosen < s.nthreads)
    (ahead : s.clockNs < ((s.pause chosen).threads chosen).pausedUntil) :
    (s.pause chosen).candidates true = (s.candidates true).erase chosen := by
  have choice := choice_pause registered
  have distinct : (s.candidates true).Nodup := List.nodup_range.filter _
  rw [distinct.erase_eq_filter]
  unfold State.candidates State.live
  rw [List.filter_filter, choice.nthreads, choice.clockNs]
  apply List.filter_congr
  intro id _
  by_cases same : id = chosen
  · subst same
    simp [ThreadRec.candidate, ahead]
  · rw [pause_threads_of_ne same]
    simp [same]

theorem counted_of_length
    {honourPauses : Bool}
    {count : Nat}
    (positive : 0 < count)
    (counted : (s.candidates honourPauses).length = count) :
    s.Counted honourPauses count :=
  ⟨positive, counted, chooseCandidate_mem positive counted.ge⟩

/-- The first choice is among all that were counted. -/
theorem counted_firstChoice (some : m.runnable ≠ 0) :
    m.pctChangePoints.Counted m.honours
      (if (m.candidates true).length = 0 then m.runnable
        else (m.candidates true).length) := by
  unfold honours
  split
  · next none =>
      apply counted_of_length (Nat.pos_of_ne_zero some)
      rw [candidates_pctChangePoints, runnable_eq, none]
      rfl
  · next unpaused =>
      apply counted_of_length (Nat.pos_of_ne_zero unpaused)
      rw [candidates_pctChangePoints, decide_eq_true unpaused]

theorem firstChoice_mem (some : m.runnable ≠ 0) :
    m.firstChoice.2 ∈ m.candidates m.honours := by
  have chosen := (counted_firstChoice some).chosen
  rw [candidates_pctChangePoints] at chosen
  exact chosen

/-- A pick that keeps its first choice pauses nobody. -/
theorem samePauses_of_stay (stays : m.pausesFirst = false) :
    SamePauses m m.chooseThread.1 := by
  have same := m.chooseThread_eq
  rw [stays, if_neg Bool.false_ne_true] at same
  rw [same]
  dsimp only
  split
  · exact samePauses_firstChoice m
  · exact (samePauses_pctChangePoints m).trans
      (samePauses_chooseCandidate _ _ _)

/-- What a pick does that pauses the thread of its first choice. -/
theorem heldBack_of_pause
    (some : m.runnable ≠ 0)
    (positive : 0 < m.pauseLoNs)
    (ordered : m.pauseLoNs ≤ m.pauseHiNs)
    (small : m.pauseHiNs < 2 ^ 62)
    (clock : m.clockNs < 2 ^ 62)
    (pauses : m.pausesFirst = true) :
    m.afterPause.Counted true ((m.candidates true).length - 1) ∧
      m.chooseThread.2 ∈ (m.candidates true).erase m.firstChoice.2 ∧
      HeldBack m m.chooseThread.1 m.firstChoice.2 := by
  have several : 1 < (m.candidates true).length := by
    unfold pausesFirst at pauses
    rw [Bool.and_eq_true, decide_eq_true_eq] at pauses
    exact pauses.1
  have first := firstChoice_mem some
  have honours : m.honours = true := decide_eq_true (by omega)
  rw [honours] at first
  obtain ⟨registered, candidate⟩ := mem_candidates.1 first
  have drawn := (choice_firstChoice m).trans (choice_drawPause _)
  have same := samePauses_firstChoice m
  have within := pause_pausedUntil (s := m.firstChoice.1.drawPause.1)
    (same.lo.symm ▸ positive) (by rw [same.lo, same.hi]; exact ordered)
    (same.hi.symm ▸ small) (drawn.clockNs.symm ▸ clock) m.firstChoice.2
  have left : m.afterPause.candidates true =
      (m.candidates true).erase m.firstChoice.2 := by
    rw [← m.candidates_drawn]
    apply candidates_pause (registered.trans_eq drawn.nthreads.symm)
    have := same.lo
    omega
  rw [drawn.clockNs, same.lo, same.hi] at within
  have counted : m.afterPause.Counted true
      ((m.candidates true).length - 1) := by
    apply counted_of_length (by omega)
    rw [left, List.length_erase_of_mem first]
  have chosen := m.chooseThread_eq
  rw [if_pos pauses] at chosen
  have again := samePauses_chooseCandidate m.afterPause true
    ((m.candidates true).length - 1)
  rw [← chosen] at again
  refine ⟨counted, ?_, registered, candidate_runnable candidate, ?_, ?_, ?_,
    fun other others => ?_⟩
  · rw [← left, chosen]
    exact counted.chosen
  · unfold ThreadRec.candidate at candidate
    simp only [Bool.and_eq_true, decide_eq_true_eq, Bool.not_true,
      Bool.false_or] at candidate
    exact candidate.2
  · rw [again.pausedUntil]
    exact within
  · rw [again.pauses, ← same.pauses]
    rfl
  · rw [again.pausedUntil, ← same.pausedUntil]
    unfold afterPause
    rw [pause_threads_of_ne others]

theorem unpaused_iff :
    (∃ id < m.nthreads, (m.threads id).state = .runnable ∧
      (m.threads id).pausedUntil ≤ m.clockNs) ↔
      (m.candidates true).length ≠ 0 := by
  rw [← Nat.pos_iff_ne_zero, List.length_pos_iff_exists_mem]
  simp only [mem_candidates, ThreadRec.candidate, Bool.and_eq_true,
    decide_eq_true_eq, Bool.not_true, Bool.false_or]

theorem unpaused_of_candidate (candidate : id ∈ m.candidates true) :
    (m.threads id).pausedUntil ≤ m.clockNs := by
  have both := (mem_candidates.1 candidate).2
  unfold ThreadRec.candidate at both
  simp only [Bool.and_eq_true, decide_eq_true_eq, Bool.not_true,
    Bool.false_or] at both
  exact both.2

/-- The end of a pick, with a thread that can run. -/
theorem pausePick_chooseThread
    (some : m.runnable ≠ 0)
    (positive : 0 < m.pauseLoNs)
    (ordered : m.pauseLoNs ≤ m.pauseHiNs)
    (small : m.pauseHiNs < 2 ^ 62)
    (clock : m.clockNs < 2 ^ 62) :
    PausePick m m.chooseThread.1 m.chooseThread.2 := by
  obtain ⟨choice, isChosen⟩ := chooseThread_spec some
  obtain ⟨registered, runnable⟩ := mem_candidates.1 isChosen
  have counted := counted_firstChoice some
  cases pauses : m.pausesFirst with
  | false =>
      have same := samePauses_of_stay pauses
      refine ⟨registered, candidate_runnable runnable, fun unpaused => ?_,
        fun _ => same, .inl same, counted, fun pauses' => ?_⟩
      · rw [unpaused_iff] at unpaused
        have first := firstChoice_mem some
        have honours : m.honours = true := decide_eq_true unpaused
        have stays := m.chooseThread_eq
        rw [pauses, if_neg Bool.false_ne_true] at stays
        have kept : m.chooseThread.2 = m.firstChoice.2 := by rw [stays]
        rw [honours, ← kept] at first
        rw [same.pausedUntil, choice.clockNs, and_self]
        exact unpaused_of_candidate first
      · rw [pauses] at pauses'
        cases pauses'
  | true =>
      obtain ⟨again, left, heldBack⟩ := heldBack_of_pause some positive ordered
        small clock pauses
      have distinct : (m.candidates true).Nodup := List.nodup_range.filter _
      obtain ⟨others, candidate⟩ := distinct.mem_erase_iff.1 left
      refine ⟨registered, candidate_runnable runnable, fun _ => ?_,
        fun lone => ?_, .inr ⟨_, others.symm, heldBack⟩, counted, fun _ => again⟩
      · rw [heldBack.others _ others, choice.clockNs, and_self]
        exact unpaused_of_candidate candidate
      · unfold pausesFirst at pauses
        rw [lone] at pauses
        cases pauses

/-- Before it chooses a pick pauses nobody.  The thread it chooses can run, and
is not paused if one is not; at most one thread is paused, not the one that is
chosen and not the only one, for a time between the bounds; and it chooses
among as many threads as it counted. -/
theorem pick_pauses
    (positive : 0 < s.pauseLoNs)
    (ordered : s.pauseLoNs ≤ s.pauseHiNs)
    (small : s.pauseHiNs < 2 ^ 62)
    (clock : later.clockNs < 2 ^ 62)
    (picks : s.pick fuel = some (later, some chosen)) :
    ∃ m, Chooses fuel s m true ∧ later = m.chooseThread.1 ∧
      chosen = m.chooseThread.2 ∧ SamePauses s m ∧
      PausePick m later chosen := by
  obtain ⟨m, ⟨chooses, rfl, same⟩ | ⟨-, -, none⟩⟩ := pick_eq_some_iff.1 picks
  · obtain rfl := Option.some.inj same
    have same := chooses.passages.1.samePauses
    have some := chooses.runnable
    have choice := (chooseThread_spec some).1
    rw [choice.clockNs] at clock
    rw [← same.lo] at positive ordered
    rw [← same.hi] at ordered small
    exact ⟨m, chooses, rfl, rfl, same,
      pausePick_chooseThread some positive ordered small clock⟩
  · cases none

/-- A process with two threads, in a run that pauses whomever it chooses. -/
def pausingStart : List Op :=
  [.setPauses { num := 1, den := 1, loNs := 5, hiNs := 9 },
    .addProc 0 none, .addThread 0, .addThread 0]

/-- One of the threads is paused. -/
theorem pick_pauses_twoThreads :
    ∃ later chosen m,
      (played 1 pausingStart).pick 1 = some (later, some chosen) ∧
        SamePauses (played 1 pausingStart) m ∧ PausePick m later chosen ∧
        later.pauses = 1 := by
  obtain ⟨⟨later, answer⟩, picks, facts⟩ := Option.map_eq_some_iff.mp
    (by decide +kernel : ((played 1 pausingStart).pick 1).map (fun result =>
      decide (result.1.clockNs < 2 ^ 62 ∧ result.1.pauses = 1 ∧
        result.2.isSome = true)) = some true)
  obtain ⟨clock, pauses, some⟩ := of_decide_eq_true facts
  obtain ⟨chosen, rfl⟩ := Option.isSome_iff_exists.1 some
  obtain ⟨m, -, -, -, same, pausePick⟩ := pick_pauses (by decide +kernel)
    (by decide +kernel) (by decide +kernel) clock picks
  exact ⟨later, chosen, m, picks, same, pausePick, pauses⟩

end State
end Derp

import Derp.Library.Tables
import Derp.Sched.Ranks

/-!
# The choice by priority

Below the horizon, the PCT scheduler chooses the runnable thread of the highest
priority, unless one was passed over for too long.  It chooses twice when it
pauses the thread it chose first, and every choice moves the waiting times.
-/

namespace Derp
namespace State

variable
  {s m middle later : State}
  {id : ThreadId}
  {fuel : Nat}

/-- Runnable threads that pauses do not hold back are the candidates, unless
every runnable thread is paused. -/
def honours (m : State) : Bool :=
  (m.candidates true).length ≠ 0

/-- The choice that comes before the draw of a pause. -/
def firstChoice (m : State) : State × ThreadId :=
  m.pctChangePoints.chooseCandidate m.honours
    (if (m.candidates true).length = 0 then m.runnable
      else (m.candidates true).length)

/-- Whether the thread that is chosen first is paused. -/
def pausesFirst (m : State) : Bool :=
  1 < (m.candidates true).length && m.firstChoice.1.drawPause.2

/-- The state of the second choice. -/
def afterPause (m : State) : State :=
  m.firstChoice.1.drawPause.1.pause m.firstChoice.2

/-- The thread was passed over for at least the bound since it was chosen. -/
def Overdue (s : State) (id : ThreadId) : Prop :=
  (s.threads id).waitingSince ≠ 0 ∧
    (s.threads id).waitingSince + s.pctStarveNs ≤ s.clockNs

/-- No thread is passed over since a time that is ahead. -/
def Timely (s : State) : Prop :=
  ∀ id < s.nthreads, (s.threads id).waitingSince ≤ s.clockNs

/-- Whom PCT chooses: the candidate that was passed over longest if one is
overdue, and the candidate of the highest priority if none is; the lowest id
among equals. -/
structure PctRule
    (s : State)
    (honourPauses : Bool)
    (chosen : ThreadId) : Prop where
  candidate : chosen ∈ s.candidates honourPauses
  longest : ∀ id ∈ s.candidates honourPauses, s.Overdue id →
    s.Overdue chosen ∧
      ((s.threads chosen).waitingSince < (s.threads id).waitingSince ∨
        (s.threads chosen).waitingSince = (s.threads id).waitingSince ∧
          chosen ≤ id)
  highest : (∀ id ∈ s.candidates honourPauses, ¬s.Overdue id) →
    ∀ id ∈ s.candidates honourPauses,
      (s.threads id).priority < (s.threads chosen).priority ∨
        (s.threads id).priority = (s.threads chosen).priority ∧ chosen ≤ id

/-- The end of a pick follows PCT's rule: the thread it chooses, how it moves
the waiting times, and where it puts a thread that it demotes. -/
structure PctPick (m : State) : Prop where
  eligible : m.chooseThread.2 ∈ m.candidates m.honours
  first : PctRule m.pctChangePoints m.honours m.firstChoice.2
  second : if m.pausesFirst then PctRule m.afterPause true m.chooseThread.2
    else m.chooseThread.2 = m.firstChoice.2
  timely : m.Timely ∧ m.chooseThread.1.Timely ∧
    (m.pausesFirst = true → m.afterPause.Timely)
  waits : ∀ id < m.nthreads, (m.chooseThread.1.threads id).waitingSince =
    if id = m.chooseThread.2 then 0
    else if (m.threads id).state = .runnable ∧
        ((m.threads id).waitingSince = 0 ∨ id = m.firstChoice.2) then
      max 1 m.clockNs
    else (m.threads id).waitingSince
  demoted : ∀ id < m.nthreads,
    (m.chooseThread.1.threads id).priority ≠ (m.threads id).priority →
    ∀ other < m.nthreads, other ≠ id →
      maxPctDepth < (m.chooseThread.1.threads other).priority ∧
          (m.chooseThread.1.threads id).priority ≤ maxPctDepth ∨
        (m.chooseThread.1.threads other).priority ≤ m.pctNext ∧
          m.pctNext < (m.chooseThread.1.threads id).priority

/-! ## Change points -/

/-- Change points give numbers to the thread that had the baton. -/
structure Demotes (s later : State) : Prop where
  rest : ∃ next changes hash threads, later =
    { s with
      pctNext := next
      pctChanges := changes
      traceHash := hash
      threads := threads }
  next : s.pctNext ≤ later.pctNext
  threads : ∀ id, later.threads id = s.threads id ∨
    s.current = some id ∧ ∃ number, s.pctNext < number ∧
      number ≤ later.pctNext ∧
      later.threads id = { s.threads id with priority := number }

theorem Demotes.refl (s : State) : Demotes s s :=
  ⟨⟨s.pctNext, s.pctChanges, s.traceHash, s.threads, rfl⟩, le_rfl,
    fun _ => .inl rfl⟩

theorem Demotes.trans
    (first : Demotes s middle)
    (second : Demotes middle later) : Demotes s later := by
  obtain ⟨⟨next, changes, hash, threads, rfl⟩, more, demoted⟩ := first
  obtain ⟨⟨next', changes', hash', threads', rfl⟩, more', demoted'⟩ := second
  refine ⟨⟨next', changes', hash', threads', rfl⟩, more.trans more',
    fun id => ?_⟩
  obtain same' | ⟨holder, number, above, below, same'⟩ := demoted' id
  · obtain same | ⟨holder, number, above, below, same⟩ := demoted id
    · exact .inl (same'.trans same)
    · exact .inr ⟨holder, number, above, below.trans more', same'.trans same⟩
  · refine .inr ⟨holder, number, lt_of_le_of_lt more above, below, ?_⟩
    rw [same']
    obtain same | ⟨-, other, -, -, same⟩ := demoted id <;> rw [same]

theorem demotes_passPoint (s : State) : Demotes s s.passPoint := by
  have passed : Demotes s { s with pctNext := s.pctNext + 1 } :=
    ⟨⟨s.pctNext + 1, s.pctChanges, s.traceHash, s.threads, rfl⟩,
      Nat.le_succ _, fun _ => .inl rfl⟩
  unfold passPoint
  dsimp only
  split
  · next holder holds =>
      split
      · refine ⟨⟨s.pctNext + 1, s.pctChanges + 1,
          fnv (fnv s.traceHash pctMark) (UInt64.ofNat holder),
          Function.update s.threads holder
            { s.threads holder with priority := s.pctNext + 1 }, rfl⟩,
          Nat.le_succ _, fun id => ?_⟩
        unfold modifyThread
        dsimp only
        by_cases same : id = holder
        · subst same
          rw [Function.update_self]
          exact .inr ⟨holds, s.pctNext + 1, Nat.lt_succ_self _, le_rfl, rfl⟩
        · rw [Function.update_of_ne same]
          exact .inl rfl
      · exact passed
  · exact passed

theorem demotes_pctChangePoints (s : State) : Demotes s s.pctChangePoints := by
  have passes (points : Nat) (s : State) : Demotes s (passPoints points s) := by
    induction points generalizing s with
    | zero => exact .refl s
    | succ points inductionHypothesis =>
        unfold passPoints
        split
        · split
          · exact (demotes_passPoint s).trans (inductionHypothesis _)
          · exact .refl s
        · exact .refl s
  exact passes _ s

theorem Demotes.waitingSince
    (demotes : Demotes s later)
    (id : ThreadId) :
    (later.threads id).waitingSince = (s.threads id).waitingSince := by
  obtain same | ⟨-, _, -, -, same⟩ := demotes.threads id <;> rw [same]

theorem Demotes.state
    (demotes : Demotes s later)
    (id : ThreadId) : (later.threads id).state = (s.threads id).state := by
  obtain same | ⟨-, _, -, -, same⟩ := demotes.threads id <;> rw [same]

/-- A thread that change points demote comes below every drawn priority, and
above the numbers of the change points before. -/
theorem Demotes.demoted
    (demotes : Demotes s later)
    (ranked : s.Ranked)
    (after : later.Ranked)
    (isPct : s.scheduler = .pct)
    (changed : (later.threads id).priority ≠ (s.threads id).priority)
    {other : ThreadId}
    (registered : other < s.nthreads)
    (others : other ≠ id) :
    maxPctDepth < (later.threads other).priority ∧
        (later.threads id).priority ≤ maxPctDepth ∨
      (later.threads other).priority ≤ s.pctNext ∧
        s.pctNext < (later.threads id).priority := by
  obtain same | ⟨holder, number, above, below, same⟩ := demotes.threads id
  · rw [same] at changed
    exact absurd rfl changed
  have small : number ≤ maxPctDepth :=
    below.trans (after.next.trans after.points.le)
  have unchanged : later.threads other = s.threads other := by
    obtain same | ⟨also, -⟩ := demotes.threads other
    · exact same
    · rw [holder] at also
      exact absurd (Option.some.inj also).symm others
  rw [same, unchanged]
  obtain drawn | ⟨-, earlier⟩ := ranked.priority isPct other registered
  · exact .inl ⟨drawn, small⟩
  · exact .inr ⟨earlier, above⟩

/-! ## One choice -/

theorem candidates_ascending (s : State) (honourPauses : Bool) :
    (s.candidates honourPauses).Pairwise (· < ·) :=
  List.pairwise_lt_range.filter _

theorem starves_iff
    (small : s.clockNs < 2 ^ 64)
    (timely : (s.threads id).waitingSince ≤ s.clockNs) :
    s.starves (s.threads id) = true ↔ s.Overdue id := by
  have same : wrappingSub s.clockNs (s.threads id).waitingSince =
      s.clockNs - (s.threads id).waitingSince := by
    unfold wrappingSub
    omega
  unfold starves Overdue
  rw [Bool.and_eq_true, decide_eq_true_eq, decide_eq_true_eq, same]
  omega

/-- A choice moves the waiting times, and leaves priorities alone. -/
structure Passes (s : State) (chosen : ThreadId) (later : State) : Prop where
  priority : ∀ id, (later.threads id).priority = (s.threads id).priority
  waitingSince : ∀ id < s.nthreads, (later.threads id).waitingSince =
    if id = chosen then 0
    else if (s.threads id).state = .runnable ∧
        (s.threads id).waitingSince = 0 then max 1 s.clockNs
    else (s.threads id).waitingSince

theorem passes_passOver (s : State) (chosen : ThreadId) :
    Passes s chosen (s.passOver chosen) := by
  refine ⟨fun id => ?_, fun id registered => ?_⟩
  · unfold passOver
    dsimp only
    split
    · rfl
    split
    · rfl
    split <;> rfl
  · unfold passOver
    dsimp only
    rw [if_neg registered.not_ge]
    split
    · rfl
    split <;> rfl

/-- Below the horizon, and while no waiting time is ahead, a choice follows the
rule. -/
theorem chooseCandidate_rule
    (isPct : s.scheduler = .pct)
    (below : s.clockNs < s.pctHorizonNs)
    (small : s.clockNs < 2 ^ 64)
    (timely : s.Timely)
    {honourPauses : Bool}
    (some : s.candidates honourPauses ≠ [])
    (count : Nat) :
    PctRule s honourPauses (s.chooseCandidate honourPauses count).2 ∧
      Passes s (s.chooseCandidate honourPauses count).2
        (s.chooseCandidate honourPauses count).1 := by
  have overdue (id : ThreadId) (candidate : id ∈ s.candidates honourPauses) :
      s.starves (s.threads id) = true ↔ s.Overdue id :=
    starves_iff small (timely id (mem_candidates.1 candidate).1)
  unfold chooseCandidate
  rw [if_neg (by simp [isPct, below])]
  cases starved : s.starvedCandidate honourPauses with
  | some chosen =>
      dsimp only
      have passes := passes_passOver
        { s with pctStarved := s.pctStarved + 1 } chosen
      refine ⟨?_, passes.priority, passes.waitingSince⟩
      have ascending :
          ((s.candidates honourPauses).filter fun id =>
            s.starves (s.threads id)).Pairwise (· < ·) :=
        (s.candidates_ascending honourPauses).filter _
      obtain ⟨member, starves⟩ :=
        List.mem_filter.1 (List.argmin_mem starved)
      refine ⟨member, fun id candidate late => ?_, fun none => ?_⟩
      · refine ⟨(overdue chosen member).1 starves, ?_⟩
        exact List.least_of_mem_argmin ascending starved
          (List.mem_filter.2 ⟨candidate, (overdue id candidate).2 late⟩)
      · exact absurd ((overdue chosen member).1 starves) (none chosen member)
  | none =>
      dsimp only
      refine ⟨?_, passes_passOver s _⟩
      have empty := List.argmin_eq_none.1 starved
      have noneLate (id : ThreadId)
          (candidate : id ∈ s.candidates honourPauses) : ¬s.Overdue id := by
        intro late
        have present : id ∈ (s.candidates honourPauses).filter fun id =>
            s.starves (s.threads id) :=
          List.mem_filter.2 ⟨candidate, (overdue id candidate).2 late⟩
        rw [empty] at present
        cases present
      cases highest : s.highestCandidate honourPauses with
      | none => exact absurd (List.argmax_eq_none.1 highest) some
      | some chosen =>
          refine ⟨List.argmax_mem highest,
            fun id candidate late => absurd late (noneLate id candidate),
            fun _ id candidate => ?_⟩
          exact List.least_of_mem_argmax (s.candidates_ascending honourPauses)
            highest candidate

/-! ## A pick -/

theorem chooseThread_eq (m : State) :
    m.chooseThread =
      if m.pausesFirst then
        m.afterPause.chooseCandidate true ((m.candidates true).length - 1)
      else
        (if 1 < (m.candidates true).length then m.firstChoice.1.drawPause.1
          else m.firstChoice.1, m.firstChoice.2) := by
  unfold chooseThread pausesFirst afterPause firstChoice honours
  dsimp only
  by_cases none : (m.candidates true).length = 0
  · simp [none]
  by_cases one : (m.candidates true).length = 1
  · simp [one]
  have several : 1 < (m.candidates true).length := by omega
  simp only [none, one, several, if_false, ne_eq, not_false_eq_true, decide_true,
    if_true, Bool.true_and]
  generalize (m.pctChangePoints.chooseCandidate true
    (m.candidates true).length) = first
  obtain ⟨middle, chosen⟩ := first
  dsimp only
  generalize middle.drawPause = drawn
  obtain ⟨later, paused⟩ := drawn
  cases paused <;> rfl

theorem Choice.scheduler (choice : Choice s later) :
    later.scheduler = s.scheduler ∧ later.pctHorizonNs = s.pctHorizonNs := by
  cases choice
  exact ⟨rfl, rfl⟩

theorem timely_pctChangePoints (timely : m.Timely) :
    m.pctChangePoints.Timely := by
  have choice := choice_pctChangePoints m
  intro id inside
  rw [choice.nthreads] at inside
  rw [choice.clockNs, (demotes_pctChangePoints m).waitingSince]
  exact timely id inside

theorem candidates_honours (some : m.runnable ≠ 0) :
    m.candidates m.honours ≠ [] := by
  unfold honours
  by_cases none : (m.candidates true).length = 0
  · rw [none]
    rw [runnable_eq] at some
    exact List.ne_nil_of_length_pos (Nat.pos_of_ne_zero some)
  · rw [decide_eq_true none]
    exact List.ne_nil_of_length_pos (Nat.pos_of_ne_zero none)

/-- The first choice of a pick. -/
theorem firstChoice_rule
    (isPct : m.scheduler = .pct)
    (below : m.clockNs < m.pctHorizonNs)
    (small : m.clockNs < 2 ^ 64)
    (timely : m.Timely)
    (some : m.runnable ≠ 0) :
    PctRule m.pctChangePoints m.honours m.firstChoice.2 ∧
      Passes m.pctChangePoints m.firstChoice.2 m.firstChoice.1 := by
  have choice := choice_pctChangePoints m
  apply chooseCandidate_rule
  · rw [choice.scheduler.1, isPct]
  · rw [choice.clockNs, choice.scheduler.2]
    exact below
  · rw [choice.clockNs]
    exact small
  · exact timely_pctChangePoints timely
  · rw [candidates_pctChangePoints]
    exact candidates_honours some

theorem choice_firstChoice (m : State) : Choice m m.firstChoice.1 :=
  (choice_pctChangePoints m).trans (choice_chooseCandidate _ _ _)

theorem drawPause_threads (s : State) : s.drawPause.1.threads = s.threads := by
  unfold drawPause
  split <;> rfl

/-- What the first choice does to the waiting times. -/
theorem waitingSince_firstChoice
    (first : Passes m.pctChangePoints m.firstChoice.2 m.firstChoice.1)
    (registered : id < m.nthreads) :
    (m.firstChoice.1.threads id).waitingSince =
      if id = m.firstChoice.2 then 0
      else if (m.threads id).state = .runnable ∧
          (m.threads id).waitingSince = 0 then max 1 m.clockNs
      else (m.threads id).waitingSince := by
  have choice := choice_pctChangePoints m
  have demotes := demotes_pctChangePoints m
  rw [first.waitingSince id (registered.trans_eq choice.nthreads.symm),
    demotes.waitingSince, demotes.state, choice.clockNs]

theorem waitingSince_afterPause (m : State) (id : ThreadId) :
    (m.afterPause.threads id).waitingSince =
      (m.firstChoice.1.threads id).waitingSince := by
  unfold afterPause
  rw [(unranked_pause _ _).waitingSince, drawPause_threads]

theorem choice_afterPause
    (registered : m.firstChoice.2 < m.nthreads) : Choice m m.afterPause := by
  have drawn := (choice_firstChoice m).trans (choice_drawPause _)
  exact drawn.trans (choice_pause (registered.trans_eq drawn.nthreads.symm))

/-- A choice among all runnable threads leaves none of the others with the mark
of a thread that does not wait. -/
theorem waits_timely
    {waitingSince clockNs : Nat}
    (positive : 0 < clockNs)
    (timely : waitingSince ≤ clockNs)
    {chosen again : Prop}
    [Decidable chosen]
    [Decidable again] :
    (if chosen then 0 else if again then max 1 clockNs else waitingSince) ≤
      clockNs := by
  split
  · exact Nat.zero_le _
  split
  · omega
  · exact timely

theorem afterPause_timely
    (first : Passes m.pctChangePoints m.firstChoice.2 m.firstChoice.1)
    (registered : m.firstChoice.2 < m.nthreads)
    (positive : 0 < m.clockNs)
    (timely : m.Timely) : m.afterPause.Timely := by
  have choice := choice_afterPause registered
  intro id inside
  rw [choice.nthreads] at inside
  rw [choice.clockNs, waitingSince_afterPause,
    waitingSince_firstChoice first inside]
  exact waits_timely positive (timely id inside)

theorem candidates_drawn (m : State) :
    m.firstChoice.1.drawPause.1.candidates true = m.candidates true := by
  unfold firstChoice
  rw [candidates_drawPause, candidates_chooseCandidate,
    candidates_pctChangePoints]

theorem candidate_pause
    {chosen : ThreadId}
    (registered : chosen < s.nthreads)
    (other : id ≠ chosen) :
    id ∈ (s.pause chosen).candidates true ↔ id ∈ s.candidates true := by
  have choice := choice_pause registered
  rw [mem_candidates, mem_candidates, pause_threads_of_ne other,
    choice.nthreads, choice.clockNs]

/-- The second choice of a pick that pauses its first. -/
theorem secondChoice_rule
    (isPct : m.scheduler = .pct)
    (below : m.clockNs < m.pctHorizonNs)
    (small : m.clockNs < 2 ^ 64)
    (registered : m.firstChoice.2 < m.nthreads)
    (timely : m.afterPause.Timely)
    (several : 1 < (m.candidates true).length)
    (count : Nat) :
    PctRule m.afterPause true (m.afterPause.chooseCandidate true count).2 ∧
      Passes m.afterPause (m.afterPause.chooseCandidate true count).2
        (m.afterPause.chooseCandidate true count).1 := by
  have choice := choice_afterPause registered
  have drawn := (choice_firstChoice m).trans (choice_drawPause _)
  have pause := choice_pause (s := m.firstChoice.1.drawPause.1)
    (registered.trans_eq drawn.nthreads.symm)
  have left : (m.firstChoice.1.drawPause.1.candidates true).length - 1 ≤
      (m.afterPause.candidates true).length :=
    candidates_but_one pause.nthreads pause.clockNs
      fun _ => pause_threads_of_ne
  rw [candidates_drawn] at left
  apply chooseCandidate_rule
  · rw [choice.scheduler.1, isPct]
  · rw [choice.clockNs, choice.scheduler.2]
    exact below
  · rw [choice.clockNs]
    exact small
  · exact timely
  · apply List.ne_nil_of_length_pos
    omega

/-- A thread that is held back by no pause now was held back by none before the
pause. -/
theorem candidate_of_afterPause
    (first : m.firstChoice.2 ∈ m.candidates true)
    (candidate : id ∈ m.afterPause.candidates true) : id ∈ m.candidates true := by
  by_cases same : id = m.firstChoice.2
  · subst same
    exact first
  · have chosen := first
    rw [← m.candidates_drawn] at chosen ⊢
    exact (candidate_pause (mem_candidates.1 chosen).1 same).1 candidate

theorem PctRule.registered
    {honourPauses : Bool}
    (rule : PctRule s honourPauses id) : id < s.nthreads :=
  (mem_candidates.1 rule.candidate).1

/-- How a pick moves the waiting times. -/
def Waits (m later : State) (first chosen : ThreadId) : Prop :=
  ∀ id < m.nthreads, (later.threads id).waitingSince =
    if id = chosen then 0
    else if (m.threads id).state = .runnable ∧
        ((m.threads id).waitingSince = 0 ∨ id = first) then max 1 m.clockNs
    else (m.threads id).waitingSince

/-- Where only one thread can run, nobody is passed over. -/
theorem only_runnable
    (one : m.runnable = 1)
    {chosen : ThreadId}
    (isChosen : chosen ∈ m.candidates false)
    (registered : id < m.nthreads)
    (canRun : (m.threads id).state = .runnable) : id = chosen := by
  rw [runnable_eq, List.length_eq_one_iff] at one
  obtain ⟨only, same⟩ := one
  have isMember : id ∈ m.candidates false :=
    mem_candidates.2 ⟨registered, by simp [ThreadRec.candidate, canRun]⟩
  rw [same, List.mem_singleton] at isChosen isMember
  rw [isChosen, isMember]

/-- Waiting times stay in the past where the clock has moved, and where only
one thread can run. -/
theorem Waits.timely
    {first chosen : ThreadId}
    (waits : Waits m later first chosen)
    (choice : Choice m later)
    (isChosen : chosen ∈ m.candidates false)
    (timely : m.Timely)
    (moved : 0 < m.clockNs ∨ m.runnable = 1) : later.Timely := by
  intro id inside
  rw [choice.nthreads] at inside
  rw [choice.clockNs, waits id inside]
  obtain positive | one := moved
  · exact waits_timely positive (timely id inside)
  · by_cases same : id = chosen
    · rw [if_pos same]
      exact Nat.zero_le _
    · rw [if_neg same, if_neg]
      · exact timely id inside
      · rintro ⟨canRun, -⟩
        exact same (only_runnable one isChosen inside canRun)

/-- The end of a pick that keeps its first choice. -/
theorem waits_of_stay
    (passes : Passes m.pctChangePoints m.firstChoice.2 m.firstChoice.1)
    (stays : m.pausesFirst = false) :
    m.chooseThread.2 = m.firstChoice.2 ∧
      Waits m m.chooseThread.1 m.firstChoice.2 m.chooseThread.2 ∧
      ∀ id, (m.chooseThread.1.threads id).priority =
        (m.pctChangePoints.threads id).priority := by
  have same := m.chooseThread_eq
  rw [stays, if_neg Bool.false_ne_true] at same
  have threads : m.chooseThread.1.threads = m.firstChoice.1.threads := by
    rw [same]
    dsimp only
    split
    · exact drawPause_threads _
    · rfl
  have chosen : m.chooseThread.2 = m.firstChoice.2 := by
    rw [same]
  refine ⟨chosen, fun id inside => ?_, fun id => ?_⟩
  · rw [threads, chosen, waitingSince_firstChoice passes inside]
    by_cases isFirst : id = m.firstChoice.2
    · rw [if_pos isFirst, if_pos isFirst]
    · rw [if_neg isFirst, if_neg isFirst]
      simp only [isFirst, or_false]
  · rw [threads, passes.priority]

/-- The end of a pick that pauses its first choice. -/
theorem waits_of_pause
    (registered : m.firstChoice.2 < m.nthreads)
    (canRun : (m.threads m.firstChoice.2).state = .runnable)
    (passes : Passes m.pctChangePoints m.firstChoice.2 m.firstChoice.1)
    (again : Passes m.afterPause m.chooseThread.2 m.chooseThread.1) :
    Waits m m.chooseThread.1 m.firstChoice.2 m.chooseThread.2 ∧
      ∀ id, (m.chooseThread.1.threads id).priority =
        (m.pctChangePoints.threads id).priority := by
  have choice := choice_afterPause registered
  refine ⟨fun id inside => ?_, fun id => ?_⟩
  · rw [again.waitingSince id (inside.trans_eq choice.nthreads.symm),
      waitingSince_afterPause, waitingSince_firstChoice passes inside,
      choice.clockNs, (choice.aside id).state]
    by_cases chosen : id = m.chooseThread.2
    · rw [if_pos chosen, if_pos chosen]
    rw [if_neg chosen, if_neg chosen]
    by_cases isFirst : id = m.firstChoice.2
    · simp [isFirst, canRun]
    · by_cases waiting : (m.threads id).state = .runnable ∧
          (m.threads id).waitingSince = 0
      · simp [isFirst, waiting]
      · simp only [isFirst, waiting, if_false, or_false]
  · rw [again.priority]
    unfold afterPause
    rw [(unranked_pause _ _).priority, drawPause_threads, passes.priority]

/-- A thread is paused only while another can run. -/
theorem unpaused_of_pausesFirst (pauses : m.pausesFirst = true) :
    1 < (m.candidates true).length := by
  unfold pausesFirst at pauses
  rw [Bool.and_eq_true, decide_eq_true_eq] at pauses
  exact pauses.1

theorem runnable_of_pausesFirst (pauses : m.pausesFirst = true) :
    1 < m.runnable := by
  have fewer : (m.candidates true).length ≤ m.runnable := by
    rw [runnable_eq]
    refine (List.monotone_filter_right m.live fun id unpaused => ?_)
      |>.length_le
    simp [ThreadRec.candidate, candidate_runnable unpaused]
  exact (unpaused_of_pausesFirst pauses).trans_le fewer

/-- Where the clock has moved, or only one thread can run, and no waiting time
is ahead, a pick follows PCT's rule. -/
theorem pctPick_of_timely
    (ranked : m.Ranked)
    (isPct : m.scheduler = .pct)
    (below : m.clockNs < m.pctHorizonNs)
    (some : m.runnable ≠ 0)
    (timely : m.Timely)
    (moved : 0 < m.clockNs ∨ m.runnable = 1) : m.PctPick := by
  have small := below.trans ranked.horizon
  obtain ⟨rule, passes⟩ := firstChoice_rule isPct below small timely some
  have registered : m.firstChoice.2 < m.nthreads :=
    rule.registered.trans_eq (choice_pctChangePoints m).nthreads
  have candidate := rule.candidate
  rw [candidates_pctChangePoints] at candidate
  obtain ⟨choice, isChosen⟩ := chooseThread_spec some
  have demoted
      (priority : ∀ id, (m.chooseThread.1.threads id).priority =
        (m.pctChangePoints.threads id).priority)
      (id : ThreadId)
      (changed : (m.chooseThread.1.threads id).priority ≠
        (m.threads id).priority)
      (other : ThreadId)
      (inside : other < m.nthreads)
      (others : other ≠ id) :
      maxPctDepth < (m.chooseThread.1.threads other).priority ∧
          (m.chooseThread.1.threads id).priority ≤ maxPctDepth ∨
        (m.chooseThread.1.threads other).priority ≤ m.pctNext ∧
          m.pctNext < (m.chooseThread.1.threads id).priority := by
    rw [priority] at changed
    rw [priority, priority]
    exact (demotes_pctChangePoints m).demoted ranked ranked.pctChangePoints isPct
      changed inside others
  cases pauses : m.pausesFirst with
  | false =>
      obtain ⟨chosen, waits, priority⟩ := waits_of_stay passes pauses
      refine ⟨?_, rule, ?_, ⟨timely, ?_, fun pauses' => ?_⟩, waits,
        fun id _ => demoted priority id⟩
      · rw [chosen]
        exact candidate
      · rw [pauses, if_neg Bool.false_ne_true]
        exact chosen
      · exact waits.timely choice isChosen timely moved
      · rw [pauses] at pauses'
        cases pauses'
  | true =>
      have several := unpaused_of_pausesFirst pauses
      have honours : m.honours = true := decide_eq_true (by omega)
      have positive : 0 < m.clockNs := by
        obtain positive | one := moved
        · exact positive
        · exact absurd one (runnable_of_pausesFirst pauses).ne'
      have between := afterPause_timely passes registered positive timely
      have second := secondChoice_rule isPct below small registered between
        several ((m.candidates true).length - 1)
      have same := m.chooseThread_eq
      rw [if_pos pauses] at same
      rw [← same] at second
      obtain ⟨ruleAgain, again⟩ := second
      obtain ⟨waits, priority⟩ := waits_of_pause registered
        (candidate_runnable (mem_candidates.1 candidate).2) passes again
      refine ⟨?_, rule, ?_, ⟨timely, ?_, fun _ => between⟩, waits,
        fun id _ => demoted priority id⟩
      · rw [honours] at candidate ⊢
        exact candidate_of_afterPause candidate ruleAgain.candidate
      · rw [if_pos pauses]
        exact ruleAgain
      · exact waits.timely choice isChosen timely moved

end State
end Derp

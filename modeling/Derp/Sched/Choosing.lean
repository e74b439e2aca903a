import Derp.Sched.Changes

/-!
# What a choice does

Before it chooses, the scheduler lets what is due happen and jumps the clock
from event to event.  The choice itself moves streams and counters, and the
priorities, pauses and waiting times of threads.
-/

namespace Derp

/-- A thread record with another priority, pause and waiting time. -/
def ThreadRec.Aside (t t' : ThreadRec) : Prop :=
  ∃ priority waitingSince pausedUntil, t' =
    { t with
      priority := priority
      waitingSince := waitingSince
      pausedUntil := pausedUntil }

theorem ThreadRec.Aside.refl (t : ThreadRec) : t.Aside t :=
  ⟨_, _, _, rfl⟩

theorem ThreadRec.Aside.trans
    {t t' t'' : ThreadRec}
    (first : t.Aside t')
    (second : t'.Aside t'') : t.Aside t'' := by
  obtain ⟨_, _, _, rfl⟩ := first
  obtain ⟨_, _, _, rfl⟩ := second
  exact ⟨_, _, _, rfl⟩

theorem ThreadRec.Aside.state
    {t t' : ThreadRec}
    (aside : t.Aside t') : t'.state = t.state := by
  obtain ⟨_, _, _, rfl⟩ := aside
  rfl

theorem ThreadRec.Aside.samePid
    {t t' : ThreadRec}
    (aside : t.Aside t') : t'.pid = t.pid := by
  obtain ⟨_, _, _, rfl⟩ := aside
  rfl

namespace State

variable
  {s middle later : State}
  {id : ThreadId}
  {fuel : Nat}

/-! ## Up to the choice -/

/-- What happens before a choice: deeds, jumps of the clock while no thread can
run, and the reseed. -/
inductive Passage : State → State → Prop
  | deed {s later : State} : Deed s later → Passage s later
  | jump {s : State} {next clockNs : Nat} : s.runnable = 0 →
      s.anyAlive = true → s.nextEvent = some next →
      clockNs = max s.clockNs next → Passage s (s.setClock clockNs)
  | reseed {s : State} (rng faultRng pauseRng pctRng : Rng) :
      s.reseedDue = true →
      Passage s
        { s with
          reseeded := true
          rng := rng
          faultRng := faultRng
          pauseRng := pauseRng
          pctRng := pctRng }

abbrev Passages : State → State → Prop :=
  Relation.ReflTransGen Passage

theorem Deeds.passages (deeds : Deeds s later) : Passages s later :=
  Relation.ReflTransGen.mono (fun _ _ => .deed) _ _ deeds

theorem passages_entered (s : State) : Passages s s.entered := by
  have reseeded : Passages s s.reseedIfDue := by
    unfold reseedIfDue
    split
    · next due => exact .single (.reseed _ _ _ _ due)
    · exact .refl
  exact reseeded.trans (Deeds.passages (deeds_handleDue _))

/-- A round is made while no thread can run and an event is pending. -/
theorem pickOver_eq_none :
    s.pickOver = none ↔
      s.runnable = 0 ∧ s.anyAlive = true ∧ ∃ next, s.nextEvent = some next := by
  unfold pickOver
  split
  · next some =>
      exact ⟨(nomatch ·), fun none => absurd none.1 some⟩
  next none =>
  rw [not_not] at none
  split
  · next dead =>
      exact ⟨(nomatch ·), fun alive => absurd alive.2.1 dead⟩
  next alive =>
  rw [not_not] at alive
  cases event : s.nextEvent with
  | none => simp
  | some next => simp [none, alive]

theorem passages_pickRound (going : s.pickOver = none) :
    Passages s s.pickRound := by
  obtain ⟨none, alive, next, event⟩ := pickOver_eq_none.1 going
  unfold pickRound
  rw [event]
  have jumped : Passages s (s.jump next) :=
    .single (.jump none alive event rfl)
  exact jumped.trans (Deeds.passages (deeds_handleDue _))

/-- The state in which the loop of `pick` is over, and its answer. -/
def Chooses (fuel : Nat) (s middle : State) (found : Bool) : Prop :=
  Loop.run pickOver pickRound fuel s.entered = some (middle, found)

theorem Chooses.passages
    {found : Bool}
    (chooses : Chooses fuel s middle found) :
    Passages s middle ∧ middle.pickOver = some found :=
  Loop.run_invariant (Passages s)
    (fun _ passed going => passed.trans (passages_pickRound going))
    (passages_entered s) chooses

theorem pick_eq_some_iff {answer : Option ThreadId} :
    s.pick fuel = some (later, answer) ↔ ∃ middle,
      (Chooses fuel s middle true ∧
        later = middle.chooseThread.1 ∧ answer = some middle.chooseThread.2) ∨
      (Chooses fuel s middle false ∧ later = middle ∧ answer = none) := by
  unfold pick Chooses
  cases run : Loop.run pickOver pickRound fuel s.entered with
  | none => simp
  | some result =>
      obtain ⟨middle, found⟩ := result
      cases found with
      | true =>
          simp only [Option.map_some, if_true, Option.some.injEq,
            Prod.mk.injEq, and_true, and_false, false_and, or_false,
            Bool.true_eq_false]
          constructor
          · rintro ⟨rfl, rfl⟩
            exact ⟨middle, rfl, rfl, rfl⟩
          · rintro ⟨_, rfl, rfl, rfl⟩
            exact ⟨rfl, rfl⟩
      | false =>
          simp only [Option.map_some, Bool.false_eq_true, if_false,
            Option.some.injEq, Prod.mk.injEq, and_true, and_false, false_and,
            false_or]
          constructor
          · rintro ⟨rfl, rfl⟩
            exact ⟨middle, rfl, rfl, rfl⟩
          · rintro ⟨_, rfl, rfl, rfl⟩
            exact ⟨rfl, rfl⟩

/-! ## The choice -/

/-- What a choice touches. -/
inductive Choice : State → State → Prop
  | mk {s : State}
      (rng pauseRng : Rng)
      (pauses pctNext pctChanges pctStarved : Nat)
      (traceHash : UInt64)
      (overflow : Bool)
      (threads : ThreadId → ThreadRec) :
      (s.overflow = true → overflow = true) →
      (∀ id, (s.threads id).Aside (threads id)) →
      (∀ id, s.nthreads ≤ id → threads id = s.threads id) →
      Choice s
        { s with
          rng := rng
          pauseRng := pauseRng
          pauses := pauses
          pctNext := pctNext
          pctChanges := pctChanges
          pctStarved := pctStarved
          traceHash := traceHash
          overflow := overflow
          threads := threads }

theorem Choice.refl (s : State) : Choice s s :=
  .mk s.rng s.pauseRng s.pauses s.pctNext s.pctChanges s.pctStarved s.traceHash
    s.overflow s.threads (fun isOver => isOver) (fun _ => .refl _) fun _ _ => rfl

theorem Choice.trans
    (first : Choice s middle)
    (second : Choice middle later) : Choice s later := by
  obtain ⟨_, _, _, _, _, _, _, _, _, grows, aside, beyond⟩ := first
  obtain ⟨rng, pauseRng, pauses, pctNext, changes, starved, hash, isOver, threads,
    grows', aside', beyond'⟩ := second
  exact .mk rng pauseRng pauses pctNext changes starved hash isOver threads
    (fun was => grows' (grows was)) (fun id => (aside id).trans (aside' id))
    fun id outside => (beyond' id outside).trans (beyond id outside)

theorem Choice.nthreads (choice : Choice s later) :
    later.nthreads = s.nthreads := by
  cases choice
  rfl

theorem Choice.nprocs (choice : Choice s later) : later.nprocs = s.nprocs := by
  cases choice
  rfl

theorem Choice.procs (choice : Choice s later) : later.procs = s.procs := by
  cases choice
  rfl

theorem Choice.clockNs (choice : Choice s later) :
    later.clockNs = s.clockNs := by
  cases choice
  rfl

theorem Choice.current (choice : Choice s later) :
    later.current = s.current := by
  cases choice
  rfl

theorem Choice.aside
    (choice : Choice s later)
    (id : ThreadId) : (s.threads id).Aside (later.threads id) := by
  obtain ⟨_, _, _, _, _, _, _, _, _, _, aside, _⟩ := choice
  exact aside id

theorem Choice.spare
    (choice : Choice s later)
    (id : ThreadId)
    (beyond : s.nthreads ≤ id) : later.threads id = s.threads id := by
  obtain ⟨_, _, _, _, _, _, _, _, _, _, _, spare⟩ := choice
  exact spare id beyond

theorem choice_threads
    {threads : ThreadId → ThreadRec}
    (aside : ∀ id, (s.threads id).Aside (threads id))
    (beyond : ∀ id, s.nthreads ≤ id → threads id = s.threads id) :
    Choice s { s with threads := threads } :=
  .mk s.rng s.pauseRng s.pauses s.pctNext s.pctChanges s.pctStarved s.traceHash
    s.overflow threads (fun isOver => isOver) aside beyond

theorem aside_update
    {t : ThreadRec}
    (aside : (s.threads id).Aside t)
    (other : ThreadId) :
    (s.threads other).Aside (Function.update s.threads id t other) := by
  by_cases same : other = id
  · subst same
    rw [Function.update_self]
    exact aside
  · rw [Function.update_of_ne same]
    exact .refl _

theorem update_beyond
    (registered : id < s.nthreads)
    (t : ThreadRec)
    (other : ThreadId)
    (beyond : s.nthreads ≤ other) :
    Function.update s.threads id t other = s.threads other := by
  rw [Function.update_of_ne]
  exact (registered.trans_le beyond).ne'

theorem choice_passPoint (s : State) : Choice s s.passPoint := by
  have passed : Choice s { s with pctNext := s.pctNext + 1 } :=
    .mk s.rng s.pauseRng s.pauses (s.pctNext + 1) s.pctChanges s.pctStarved
      s.traceHash s.overflow s.threads id (fun _ => .refl _) fun _ _ => rfl
  unfold passPoint
  dsimp only
  split
  · next holder _ =>
      split
      · next registered =>
          exact .mk s.rng s.pauseRng s.pauses (s.pctNext + 1) (s.pctChanges + 1)
            s.pctStarved
            (fnv (fnv s.traceHash pctMark) (UInt64.ofNat holder)) s.overflow
            (Function.update s.threads holder
              { s.threads holder with priority := s.pctNext + 1 })
            (fun isOver => isOver) (aside_update ⟨_, _, _, rfl⟩)
            (update_beyond registered _)
      · exact passed
  · exact passed

theorem choice_passPoints (points : Nat) (s : State) :
    Choice s (passPoints points s) := by
  induction points generalizing s with
  | zero => exact .refl s
  | succ points inductionHypothesis =>
      unfold passPoints
      split
      · split
        · exact (choice_passPoint s).trans (inductionHypothesis _)
        · exact .refl s
      · exact .refl s

theorem choice_pctChangePoints (s : State) : Choice s s.pctChangePoints :=
  choice_passPoints _ s

theorem choice_passOver (s : State) (chosen : ThreadId) :
    Choice s (s.passOver chosen) := by
  refine choice_threads (fun id => ?_) fun id beyond => if_pos beyond
  dsimp only
  split
  · exact .refl _
  split
  · exact ⟨_, _, _, rfl⟩
  split
  · exact ⟨_, _, _, rfl⟩
  · exact .refl _

theorem choice_chooseCandidate
    (s : State)
    (honourPauses : Bool)
    (count : Nat) : Choice s (s.chooseCandidate honourPauses count).1 := by
  unfold chooseCandidate
  split
  · exact .mk _ _ _ _ _ _ _ _ _ (fun isOver => isOver) (fun _ => .refl _)
      fun _ _ => rfl
  split
  · next chosen _ =>
      have starved : Choice s { s with pctStarved := s.pctStarved + 1 } :=
        .mk s.rng s.pauseRng s.pauses s.pctNext s.pctChanges (s.pctStarved + 1)
          s.traceHash s.overflow s.threads id (fun _ => .refl _) fun _ _ => rfl
      exact starved.trans (choice_passOver _ chosen)
  · exact choice_passOver s _

theorem choice_drawPause (s : State) : Choice s s.drawPause.1 := by
  unfold drawPause
  split
  · exact .refl s
  · exact .mk s.rng _ s.pauses s.pctNext s.pctChanges s.pctStarved s.traceHash
      s.overflow s.threads (fun isOver => isOver) (fun _ => .refl _) fun _ _ => rfl

theorem choice_pause
    (registered : id < s.nthreads) : Choice s (s.pause id) :=
  .mk s.rng (s.pauseRng.logUniform s.pauseLoNs s.pauseHiNs).2 (s.pauses + 1)
    s.pctNext s.pctChanges s.pctStarved
    (fnv (fnv s.traceHash pauseMark) (UInt64.ofNat id))
    (s.overflow || addOverflows s.clockNs
      (s.pauseRng.logUniform s.pauseLoNs s.pauseHiNs).1)
    (Function.update s.threads id
      { s.threads id with
        pausedUntil := wrappingAdd s.clockNs
          (s.pauseRng.logUniform s.pauseLoNs s.pauseHiNs).1 })
    (fun isOver => by rw [isOver]; rfl) (aside_update ⟨_, _, _, rfl⟩)
    (update_beyond registered _)

/-! ## Who is chosen -/

theorem mem_candidates {honourPauses : Bool} :
    id ∈ s.candidates honourPauses ↔
      id < s.nthreads ∧
        (s.threads id).candidate honourPauses s.clockNs = true := by
  unfold candidates live
  rw [List.mem_filter, List.mem_range]

theorem candidate_runnable
    {t : ThreadRec}
    {honourPauses : Bool}
    {now : Nat}
    (candidate : t.candidate honourPauses now = true) : t.state = .runnable := by
  unfold ThreadRec.candidate at candidate
  rw [Bool.and_eq_true, decide_eq_true_eq] at candidate
  exact candidate.1

theorem runnable_eq (s : State) : s.runnable = (s.candidates false).length := by
  unfold runnable candidates
  rw [List.countP_eq_length_filter]
  congr 1
  apply List.filter_congr
  intro id _
  simp [ThreadRec.candidate]

theorem runnable_ne_zero :
    s.runnable ≠ 0 ↔
      ∃ id < s.nthreads, (s.threads id).state = .runnable := by
  unfold runnable live
  rw [← Nat.pos_iff_ne_zero, List.countP_pos_iff]
  simp

theorem Choice.candidates
    (choice : Choice s later) : later.candidates false = s.candidates false := by
  unfold State.candidates State.live
  obtain ⟨_, _, _, _, _, _, _, _, _, _, aside, _⟩ := choice
  apply List.filter_congr
  intro id _
  unfold ThreadRec.candidate
  rw [(aside id).state]
  rfl

/-- A choice among as many candidates as there are chooses one of them. -/
theorem chooseCandidate_mem
    {honourPauses : Bool}
    {count : Nat}
    (some : 0 < count)
    (enough : count ≤ (s.candidates honourPauses).length) :
    (s.chooseCandidate honourPauses count).2 ∈ s.candidates honourPauses := by
  unfold chooseCandidate
  split
  · have small := s.rng.below_lt some
    unfold nthCandidate
    dsimp only
    rw [List.getElem?_eq_getElem (by omega), Option.getD_some]
    exact List.getElem_mem _
  split
  · next chosen starved =>
      exact (List.mem_filter.1 (List.argmin_mem starved)).1
  · have nonempty : s.candidates honourPauses ≠ [] := by
      intro empty
      rw [empty] at enough
      simp at enough
      omega
    unfold highestCandidate
    cases highest : (s.candidates honourPauses).argmax fun id =>
        (s.threads id).priority with
    | none => exact absurd (List.argmax_eq_none.1 highest) nonempty
    | some chosen => exact List.argmax_mem highest

theorem candidates_congr
    {honourPauses : Bool}
    (count : later.nthreads = s.nthreads)
    (clock : later.clockNs = s.clockNs)
    (same : ∀ id, (later.threads id).candidate honourPauses s.clockNs =
      (s.threads id).candidate honourPauses s.clockNs) :
    later.candidates honourPauses = s.candidates honourPauses := by
  unfold State.candidates State.live
  rw [count, clock]
  exact List.filter_congr fun id _ => same id

theorem candidates_passPoint (s : State) (honourPauses : Bool) :
    s.passPoint.candidates honourPauses = s.candidates honourPauses := by
  unfold passPoint
  dsimp only
  split
  · next holder _ =>
      split
      · refine candidates_congr rfl rfl fun id => ?_
        unfold State.modifyThread
        dsimp only
        by_cases same : id = holder
        · subst same
          rw [Function.update_self]
          rfl
        · rw [Function.update_of_ne same]
      · rfl
  · rfl

theorem candidates_pctChangePoints (s : State) (honourPauses : Bool) :
    s.pctChangePoints.candidates honourPauses = s.candidates honourPauses := by
  have passed (points : Nat) (s : State) :
      (passPoints points s).candidates honourPauses =
        s.candidates honourPauses := by
    induction points generalizing s with
    | zero => rfl
    | succ points inductionHypothesis =>
        unfold passPoints
        split
        · split
          · rw [inductionHypothesis, candidates_passPoint]
          · rfl
        · rfl
  exact passed _ s

theorem candidates_chooseCandidate
    (s : State)
    (honourPauses which : Bool)
    (count : Nat) :
    (s.chooseCandidate which count).1.candidates honourPauses =
      s.candidates honourPauses := by
  have isOver (s : State) (chosen : ThreadId) :
      (s.passOver chosen).candidates honourPauses =
        s.candidates honourPauses := by
    refine candidates_congr rfl rfl fun id => ?_
    unfold passOver
    dsimp only
    split
    · rfl
    split
    · rfl
    split <;> rfl
  unfold chooseCandidate
  split
  · rfl
  split
  · exact isOver _ _
  · exact isOver s _

theorem candidates_drawPause (s : State) (honourPauses : Bool) :
    s.drawPause.1.candidates honourPauses = s.candidates honourPauses := by
  unfold drawPause
  split <;> rfl

/-- A pause touches one thread. -/
theorem pause_threads_of_ne
    {chosen : ThreadId}
    (other : id ≠ chosen) : (s.pause chosen).threads id = s.threads id := by
  unfold pause modifyThread
  dsimp only
  rw [Function.update_of_ne other]
  rfl

/-- Where one thread is touched, all other candidates are left. -/
theorem candidates_but_one
    {chosen : ThreadId}
    (count : later.nthreads = s.nthreads)
    (clock : later.clockNs = s.clockNs)
    (others : ∀ id ≠ chosen, later.threads id = s.threads id) :
    (s.candidates true).length - 1 ≤ (later.candidates true).length := by
  have distinct : (s.candidates true).Nodup := List.nodup_range.filter _
  have kept : ((s.candidates true).erase chosen).Sublist
      (later.candidates true) := by
    rw [distinct.erase_eq_filter]
    unfold State.candidates State.live
    rw [List.filter_filter, count, clock]
    apply List.monotone_filter_right
    intro id kept
    rw [Bool.and_eq_true, bne_iff_ne] at kept
    rw [others id kept.1]
    exact kept.2
  exact List.le_length_erase.trans kept.length_le

/-- The thread that is chosen can run, and a choice touches nothing but streams,
counters, priorities, pauses and waiting times. -/
theorem chooseThread_spec (some : s.runnable ≠ 0) :
    Choice s s.chooseThread.1 ∧ s.chooseThread.2 ∈ s.candidates false := by
  have weaker : ∀ id ∈ s.candidates true, id ∈ s.candidates false := by
    intro id candidate
    rw [mem_candidates] at candidate ⊢
    refine ⟨candidate.1, ?_⟩
    simp [ThreadRec.candidate, candidate_runnable candidate.2]
  have points := choice_pctChangePoints s
  have sameTrue := candidates_pctChangePoints s true
  unfold chooseThread
  dsimp only
  split
  · refine ⟨points.trans (choice_chooseCandidate _ _ _), ?_⟩
    rw [← candidates_pctChangePoints s false]
    apply chooseCandidate_mem
    · exact Nat.pos_of_ne_zero some
    · rw [candidates_pctChangePoints, runnable_eq]
  next unpaused =>
  have first := points.trans (choice_chooseCandidate s.pctChangePoints true
    (s.candidates true).length)
  have firstMem : (s.pctChangePoints.chooseCandidate true
      (s.candidates true).length).2 ∈ s.candidates true := by
    rw [← sameTrue]
    apply chooseCandidate_mem
    · rw [sameTrue]
      exact Nat.pos_of_ne_zero unpaused
    · exact le_rfl
  have sameFirst := candidates_chooseCandidate s.pctChangePoints true true
    (s.candidates true).length
  generalize s.pctChangePoints.chooseCandidate true (s.candidates true).length
    = result at first firstMem sameFirst ⊢
  obtain ⟨middle, chosen⟩ := result
  dsimp only at first firstMem sameFirst ⊢
  rw [sameTrue] at sameFirst
  split
  · exact ⟨first, weaker chosen firstMem⟩
  next several =>
  have drawn := choice_drawPause middle
  have sameDrawn := candidates_drawPause middle true
  generalize middle.drawPause = result at drawn sameDrawn ⊢
  obtain ⟨later, paused⟩ := result
  dsimp only at drawn sameDrawn ⊢
  cases paused with
  | false => exact ⟨first.trans drawn, weaker chosen firstMem⟩
  | true =>
      have registered : chosen < later.nthreads := by
        have isMember := firstMem
        rw [← sameFirst, ← sameDrawn, mem_candidates] at isMember
        exact isMember.1
      have pause := choice_pause registered
      have chooses := (first.trans drawn).trans pause
      have left := candidates_but_one (s := later) pause.nthreads
        pause.clockNs fun _ => pause_threads_of_ne
      rw [sameDrawn, sameFirst] at left
      refine ⟨chooses.trans (choice_chooseCandidate _ _ _), ?_⟩
      have second : ((later.pause chosen).chooseCandidate true
          ((s.candidates true).length - 1)).2 ∈
            (later.pause chosen).candidates true := by
        apply chooseCandidate_mem
        · omega
        · exact left
      rw [← chooses.candidates]
      rw [mem_candidates] at second ⊢
      refine ⟨second.1, ?_⟩
      simp [ThreadRec.candidate, candidate_runnable second.2]

/-! ## The baton -/

/-- The chosen thread runs, and is the one the baton was last given to, unless
it kept it. -/
theorem giveBaton_eq
    (s : State)
    (me : Option ThreadId)
    (next : ThreadId)
    (site : UInt64) :
    ∃ rng issued quantum switches traceHash park,
      (s.giveBaton me next site).1 =
        { s with
          rng := rng
          issued := issued
          pendingQuantum := quantum
          switches := switches
          traceHash := traceHash
          current := if me = some next then s.current else some next
          threads := Function.update s.threads next
            { s.threads next with state := .running, park := park } } := by
  unfold giveBaton
  dsimp only
  split
  · exact ⟨_, _, _, _, _, (s.threads next).park, rfl⟩
  · cases me with
    | none =>
        refine ⟨s.renewQuantum.rng, s.renewQuantum.issued,
          s.renewQuantum.pendingQuantum, s.switches, s.traceHash,
          (s.threads next).park + 1, ?_⟩
        unfold modifyThread
        dsimp only [Option.elim]
        rw [Function.update_idem, Function.update_self]
        rfl
    | some me =>
        refine ⟨s.renewQuantum.rng, s.renewQuantum.issued,
          s.renewQuantum.pendingQuantum, s.switches + 1,
          (s.renewQuantum.traceSwitch me next site).traceHash,
          (s.threads next).park + 1, ?_⟩
        unfold modifyThread traceSwitch
        dsimp only [Option.elim]
        rw [Function.update_idem, Function.update_self]
        rfl

theorem choose_eq_some_iff
    {me : Option ThreadId}
    {site : UInt64}
    {handoff : Handoff} :
    s.choose fuel me site = some (later, handoff) ↔ ∃ middle,
      (Chooses fuel s middle true ∧
        middle.chooseThread.1.giveBaton me middle.chooseThread.2 site =
          (later, handoff)) ∨
      (Chooses fuel s middle false ∧ later = middle ∧ handoff = .idle) := by
  unfold choose
  rw [Option.map_eq_some_iff]
  constructor
  · rintro ⟨⟨after, answer⟩, picked, given⟩
    obtain ⟨middle, ⟨chooses, rfl, rfl⟩ | ⟨chooses, rfl, rfl⟩⟩ :=
      pick_eq_some_iff.1 picked
    · exact ⟨middle, .inl ⟨chooses, given⟩⟩
    · obtain ⟨rfl, rfl⟩ := Prod.mk.inj given
      exact ⟨after, .inr ⟨chooses, rfl, rfl⟩⟩
  · rintro ⟨middle, ⟨chooses, given⟩ | ⟨chooses, rfl, rfl⟩⟩
    · exact ⟨_, pick_eq_some_iff.2 ⟨middle, .inl ⟨chooses, rfl, rfl⟩⟩, given⟩
    · exact ⟨_, pick_eq_some_iff.2 ⟨later, .inr ⟨chooses, rfl, rfl⟩⟩, rfl⟩

/-- A loop that ends with a thread to choose has one. -/
theorem Chooses.runnable
    (chooses : Chooses fuel s middle true) : middle.runnable ≠ 0 := by
  intro none
  have isOver := chooses.passages.2
  unfold pickOver at isOver
  rw [if_neg (not_not.2 none)] at isOver
  split at isOver
  · cases isOver
  split at isOver <;> cases isOver

/-- What passages, the choice and the baton keep, a choice of the next holder
keeps. -/
theorem choose_keep
    {P : State → Prop}
    {me : Option ThreadId}
    {site : UInt64}
    {handoff : Handoff}
    (passages : ∀ {middle}, Passages s middle → P middle)
    (choice : ∀ {s later}, Choice s later → P s → P later)
    (baton : ∀ {s : State} {next}, next < s.nthreads →
      (s.threads next).state = .runnable → P s →
      P (s.giveBaton me next site).1)
    (chosen : s.choose fuel me site = some (later, handoff)) : P later := by
  obtain ⟨middle, ⟨chooses, given⟩ | ⟨chooses, rfl, -⟩⟩ :=
    choose_eq_some_iff.1 chosen
  · obtain rfl := congrArg Prod.fst given
    obtain ⟨choose, mem⟩ := chooseThread_spec chooses.runnable
    rw [← choose.candidates, mem_candidates] at mem
    exact baton mem.1 (candidate_runnable mem.2)
      (choice choose (passages chooses.passages.1))
  · exact passages chooses.passages.1

/-- The launcher's report of a death passes the baton on if the process had
it. -/
theorem processDied_eq_some_iff
    {pid : Pid}
    {status : Int}
    {handoff : Option Handoff} :
    s.processDied fuel pid status = some (later, handoff) ↔
      ((s.buried pid status).heldBy pid = none ∧
        later = s.buried pid status ∧ handoff = none) ∨
      ∃ id passed, (s.buried pid status).heldBy pid = some id ∧
        (s.buried pid status).handOff fuel (some (id, .exited, 0))
          siteProcessDied = some (later, passed) ∧ handoff = some passed := by
  unfold processDied
  dsimp only
  cases held : (s.buried pid status).heldBy pid with
  | none =>
      simp only [Option.some.injEq, Prod.mk.injEq, true_and, reduceCtorEq,
        false_and, exists_false, or_false, eq_comm]
  | some id =>
      simp only [Option.map_eq_some_iff, reduceCtorEq, false_and, false_or]
      constructor
      · rintro ⟨⟨middle, passed⟩, handed, same⟩
        obtain ⟨rfl, rfl⟩ := Prod.mk.inj same
        exact ⟨id, passed, rfl, handed, rfl⟩
      · rintro ⟨other, passed, same, handed, rfl⟩
        cases same
        exact ⟨(later, passed), handed, rfl⟩

theorem heldBy_eq_some
    {pid : Pid}
    (held : s.heldBy pid = some id) :
    s.current = some id ∧ id < s.nthreads ∧ (s.threads id).pid = pid := by
  obtain ⟨current, is⟩ := Option.filter_eq_some_iff.1 held
  rw [Bool.and_eq_true, decide_eq_true_eq, decide_eq_true_eq] at is
  exact ⟨current, is⟩

end State
end Derp

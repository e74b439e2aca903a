import Mathlib.Data.List.Forall2
import Mathlib.Logic.Relation

/-!
# Transition systems and their runs

A transition system has initial states and labelled steps.  A property holds
in every reachable state when it holds initially and every step keeps it.  A
system can be restricted to the steps that meet a condition: what holds in its
reachable states holds in every run whose steps all meet the condition.
-/

universe u v w

/-- A labelled transition system. -/
structure Transition (σ : Type u) (ℓ : Type v) where
  /-- The states a run may start in. -/
  init : σ → Prop
  /-- The steps of a run. -/
  step : σ → ℓ → σ → Prop

namespace Transition

variable {σ : Type u} {ℓ : Type v}

/-- The states that a run reaches. -/
inductive Reachable (system : Transition σ ℓ) : σ → Prop
  | start {state : σ} : system.init state → Reachable system state
  | next {state later : σ} {label : ℓ} :
      Reachable system state → system.step state label later →
      Reachable system later

/-- The runs from a state, with their labels in order. -/
inductive Run (system : Transition σ ℓ) : σ → List ℓ → σ → Prop
  | refl (state : σ) : Run system state [] state
  | tail {start state later : σ} {labels : List ℓ} {label : ℓ} :
      Run system start labels state → system.step state label later →
      Run system start (labels ++ [label]) later

/-- The system cut down to the steps that meet a condition. -/
def restrict
    (system : Transition σ ℓ)
    (condition : σ → ℓ → Prop) : Transition σ ℓ where
  init := system.init
  step := fun state label later =>
    condition state label ∧ system.step state label later

/-- The system with a history beside its state, which the steps write. -/
def withHistory
    {η : Type w}
    (system : Transition σ ℓ)
    (blank : η)
    (writes : σ → ℓ → η → η → Prop) : Transition (σ × η) ℓ where
  init := fun state => system.init state.1 ∧ state.2 = blank
  step := fun state label later =>
    system.step state.1 label later.1 ∧ writes state.1 label state.2 later.2

variable {system : Transition σ ℓ}

/-- The invariant rule. -/
theorem Reachable.invariant
    {property : σ → Prop}
    (initial : ∀ state, system.init state → property state)
    (preserved : ∀ state label later,
      property state → system.step state label later → property later)
    {state : σ}
    (reachable : system.Reachable state) : property state := by
  induction reachable with
  | start isInit => exact initial _ isInit
  | next _ step inductionHypothesis =>
      exact preserved _ _ _ inductionHypothesis step

/-- The invariant rule, with what is known of reachable states at hand. -/
theorem Reachable.invariantOf
    {known property : σ → Prop}
    (background : ∀ state, system.Reachable state → known state)
    (initial : ∀ state, system.init state → property state)
    (preserved : ∀ state label later, known state →
      property state → system.step state label later → property later)
    {state : σ}
    (reachable : system.Reachable state) : property state := by
  induction reachable with
  | start isInit => exact initial _ isInit
  | next before step inductionHypothesis =>
      exact preserved _ _ _ (background _ before) inductionHypothesis step

/-- A run starts and ends in reachable states, if it starts in one. -/
theorem Run.reachable
    {start state : σ}
    {labels : List ℓ}
    (run : system.Run start labels state)
    (reachable : system.Reachable start) : system.Reachable state := by
  induction run with
  | refl => exact reachable
  | tail _ step inductionHypothesis => exact .next inductionHypothesis step

/-- A step before a run. -/
theorem Run.cons
    {start middle state : σ}
    {label : ℓ}
    {labels : List ℓ}
    (step : system.step start label middle)
    (run : system.Run middle labels state) :
    system.Run start (label :: labels) state := by
  induction run with
  | refl => exact .tail (.refl start) step
  | tail _ last inductionHypothesis => exact .tail inductionHypothesis last

/-- Labels performed one after another are a run. -/
theorem Run.foldlM
    {perform : σ → ℓ → Option σ}
    (performs : ∀ {state label later},
      perform state label = some later → system.step state label later)
    {labels : List ℓ}
    {state later : σ}
    (performed : labels.foldlM perform state = some later) :
    system.Run state labels later := by
  induction labels generalizing state with
  | nil => exact Option.some.inj performed ▸ .refl state
  | cons label labels inductionHypothesis =>
      rw [List.foldlM_cons] at performed
      obtain ⟨middle, first, rest⟩ := Option.bind_eq_some_iff.1 performed
      exact .cons (performs first) (inductionHypothesis rest)

/-- They lead to a reachable state from one. -/
theorem Reachable.foldlM
    {perform : σ → ℓ → Option σ}
    (performs : ∀ {state label later},
      perform state label = some later → system.step state label later)
    {labels : List ℓ}
    {state later : σ}
    (reachable : system.Reachable state)
    (performed : labels.foldlM perform state = some later) :
    system.Reachable later :=
  (Run.foldlM performs performed).reachable reachable

theorem Run.of_nil
    {start state : σ}
    (run : system.Run start [] state) : state = start := by
  generalize none : ([] : List ℓ) = labels at run
  cases run with
  | refl => rfl
  | tail => simp at none

/-- A run begins with its first step. -/
theorem Run.uncons
    {start state : σ}
    {label : ℓ}
    {labels : List ℓ}
    (run : system.Run start (label :: labels) state) :
    ∃ middle, system.step start label middle ∧
      system.Run middle labels state := by
  generalize all : label :: labels = steps at run
  induction run generalizing labels with
  | refl => cases all
  | @tail middle later before last run step inductionHypothesis =>
      cases before with
      | nil =>
          obtain ⟨rfl, rfl⟩ := List.cons.inj all
          rw [run.of_nil] at step
          exact ⟨_, step, .refl _⟩
      | cons first rest =>
          obtain ⟨rfl, rfl⟩ := List.cons.inj all
          obtain ⟨next, begins, rest⟩ := inductionHypothesis rfl
          exact ⟨next, begins, rest.tail step⟩

/-- A run ends with its last step. -/
theorem Run.unsnoc
    {start later : σ}
    {label : ℓ}
    {labels : List ℓ}
    (run : system.Run start (labels ++ [label]) later) :
    ∃ state, system.Run start labels state ∧
      system.step state label later := by
  generalize all : labels ++ [label] = steps at run
  cases run with
  | refl => simp at all
  | tail before step =>
      obtain ⟨rfl, same⟩ := List.append_inj' all rfl
      obtain rfl := List.singleton_inj.mp same
      exact ⟨_, before, step⟩

/-- The rule for two runs: what pairs of steps keep, pairs of runs keep, and the
labels of the runs tell the same where those of the steps do. -/
theorem Run.lockstep
    (related : σ → σ → Prop)
    {alike : ℓ → ℓ → Prop}
    (told : ℓ → ℓ → Prop)
    (kept : ∀ {s t s' t' : σ} {label label' : ℓ}, related s t →
      alike label label' → system.step s label s' → system.step t label' t' →
      related s' t' ∧ told label label')
    {start start' state state' : σ}
    {labels labels' : List ℓ}
    (run : system.Run start labels state)
    (run' : system.Run start' labels' state')
    (initial : related start start')
    (pairs : List.Forall₂ alike labels labels') :
    related state state' ∧ List.Forall₂ told labels labels' := by
  induction pairs generalizing start start' with
  | nil =>
      rw [run.of_nil, run'.of_nil]
      exact ⟨initial, .nil⟩
  | cons first rest inductionHypothesis =>
      obtain ⟨middle, step, run⟩ := run.uncons
      obtain ⟨middle', step', run'⟩ := run'.uncons
      obtain ⟨after, same⟩ := kept initial first step step'
      obtain ⟨ends, others⟩ := inductionHypothesis run run' after
      exact ⟨ends, .cons same others⟩

/-- A run after a run. -/
theorem Run.append
    {start middle state : σ}
    {labels more : List ℓ}
    (first : system.Run start labels middle)
    (second : system.Run middle more state) :
    system.Run start (labels ++ more) state := by
  induction second with
  | refl =>
      rw [List.append_nil]
      exact first
  | tail _ step inductionHypothesis =>
      rw [← List.append_assoc]
      exact inductionHypothesis.tail step

/-- The simulation rule: where every step is matched by a run of another system
that shows the same, every run is. -/
theorem Run.simulated
    {τ κ : Type*}
    {abstract : Transition τ κ}
    (related : σ → τ → Prop)
    (shown : ℓ → List κ)
    (matched : ∀ {state later : σ} {label : ℓ} {above : τ},
      related state above → system.step state label later →
      ∃ after, abstract.Run above (shown label) after ∧ related later after)
    {start state : σ}
    {labels : List ℓ}
    {above : τ}
    (run : system.Run start labels state)
    (initial : related start above) :
    ∃ after, abstract.Run above (labels.flatMap shown) after ∧
      related state after := by
  induction run with
  | refl => exact ⟨above, .refl above, initial⟩
  | tail _ step inductionHypothesis =>
      obtain ⟨between, before, same⟩ := inductionHypothesis
      obtain ⟨after, last, same⟩ := matched same step
      refine ⟨after, ?_, same⟩
      rw [List.flatMap_append, List.flatMap_singleton]
      exact before.append last

/-- The conservation rule: where every step takes off the front of a content
what it puts at the back of it, so does every run. -/
theorem Run.conserves
    {α : Type*}
    {content : σ → List α}
    {taken put : ℓ → List α}
    {known : σ → Prop}
    {allowed : ℓ → Prop}
    (preserved : ∀ state label later, known state → allowed label →
      system.step state label later →
      known later ∧
        taken label ++ content later = content state ++ put label)
    {start state : σ}
    {labels : List ℓ}
    (run : system.Run start labels state)
    (initial : known start)
    (all : ∀ label ∈ labels, allowed label) :
    known state ∧
      labels.flatMap taken ++ content state =
        content start ++ labels.flatMap put := by
  induction run with
  | refl => exact ⟨initial, by simp⟩
  | @tail middle later labels label _ step inductionHypothesis =>
      obtain ⟨between, conserved⟩ := inductionHypothesis fun other present =>
        all other (List.mem_append_left _ present)
      obtain ⟨after, moved⟩ :=
        preserved _ _ _ between (all label (by simp)) step
      refine ⟨after, ?_⟩
      rw [List.flatMap_append, List.flatMap_append, List.flatMap_singleton,
        List.flatMap_singleton, List.append_assoc, moved, ← List.append_assoc,
        conserved, List.append_assoc]

/-- Restricting a system loses runs and gains none. -/
theorem Reachable.of_restrict
    {condition : σ → ℓ → Prop}
    {state : σ}
    (reachable : (system.restrict condition).Reachable state) :
    system.Reachable state := by
  induction reachable with
  | start isInit => exact .start isInit
  | next _ step inductionHypothesis =>
      exact .next inductionHypothesis step.2

/-- A history gains no runs. -/
theorem Reachable.of_withHistory
    {η : Type w}
    {blank : η}
    {writes : σ → ℓ → η → η → Prop}
    {state : σ × η}
    (reachable : (system.withHistory blank writes).Reachable state) :
    system.Reachable state.1 := by
  induction reachable with
  | start isInit => exact .start isInit.1
  | next _ step inductionHypothesis =>
      exact .next inductionHypothesis step.1

end Transition

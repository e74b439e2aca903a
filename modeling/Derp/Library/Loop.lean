import Mathlib.Logic.Function.Iterate
import Mathlib.Order.Basic
import Mathlib.Data.Nat.Find

/-!
# Loops that may not end

A loop looks at its state before each round: it is over with an answer, or it
goes on.  A run of the loop is given fuel, one unit for each look.  What a loop
does is told by the states between its rounds, which are the iterates of the
round.
-/

universe u v

/-- Run a loop; there is no result when the fuel is used up first. -/
def Loop.run
    {σ : Type u}
    {α : Type v}
    (ended : σ → Option α)
    (round : σ → σ) : Nat → σ → Option (σ × α)
  | 0, _ => none
  | fuel + 1, state =>
      match ended state with
      | some answer => some (state, answer)
      | none => Loop.run ended round fuel (round state)

namespace Loop

variable {σ : Type u} {α : Type v} {ended : σ → Option α} {round : σ → σ}

/-- A loop ends after some rounds, when it is over for the first time. -/
theorem run_eq_some_iff
    {fuel : Nat}
    {state later : σ}
    {answer : α} :
    run ended round fuel state = some (later, answer) ↔
      ∃ rounds < fuel, (∀ before < rounds, ended (round^[before] state) = none) ∧
        round^[rounds] state = later ∧ ended later = some answer := by
  induction fuel generalizing state with
  | zero => simp [run]
  | succ fuel inductionHypothesis =>
      unfold run
      cases now : ended state with
      | some first =>
          constructor
          · intro done
            obtain ⟨rfl, rfl⟩ := Prod.mk.inj (Option.some.inj done)
            exact ⟨0, by omega, by simp, rfl, now⟩
          · rintro ⟨rounds, -, going, reached, ends⟩
            cases rounds with
            | zero =>
                obtain rfl : state = later := reached
                rw [now] at ends
                rw [Option.some.inj ends]
            | succ rounds =>
                have := going 0 (by omega)
                simp [now] at this
      | none =>
          simp only
          rw [inductionHypothesis]
          constructor
          · rintro ⟨rounds, inside, going, reached, ends⟩
            refine ⟨rounds + 1, by omega, ?_, reached, ends⟩
            intro before earlier
            cases before with
            | zero => exact now
            | succ before => exact going before (by omega)
          · rintro ⟨rounds, inside, going, reached, ends⟩
            cases rounds with
            | zero =>
                obtain rfl : state = later := reached
                simp [now] at ends
            | succ rounds =>
                exact ⟨rounds, by omega,
                  fun before earlier => going (before + 1) (by omega),
                  reached, ends⟩

/-- The rule of partial correctness: what holds at first and is kept by every
round that is run holds at the end. -/
theorem run_invariant
    (property : σ → Prop)
    (kept : ∀ state, property state → ended state = none →
      property (round state))
    {fuel : Nat}
    {state later : σ}
    {answer : α}
    (initial : property state)
    (done : run ended round fuel state = some (later, answer)) :
    property later ∧ ended later = some answer := by
  obtain ⟨rounds, -, going, rfl, ends⟩ := run_eq_some_iff.mp done
  refine ⟨?_, ends⟩
  have upTo : ∀ count ≤ rounds, property (round^[count] state) := by
    intro count
    induction count with
    | zero => exact fun _ => initial
    | succ count inductionHypothesis =>
        intro inside
        rw [Function.iterate_succ_apply']
        exact kept _ (inductionHypothesis (by omega)) (going count (by omega))
  exact upTo rounds le_rfl

/-- A loop that is over at some point ends. -/
theorem exists_run
    {state : σ}
    {rounds : Nat}
    {answer : α}
    (ends : ended (round^[rounds] state) = some answer) :
    ∃ fuel result, run ended round fuel state = some result := by
  classical
  have exits : ∃ count, (ended (round^[count] state)).isSome :=
    ⟨rounds, by simp [ends]⟩
  obtain ⟨first, found⟩ := Option.isSome_iff_exists.mp (Nat.find_spec exits)
  refine ⟨Nat.find exits + 1, (_, first), run_eq_some_iff.mpr
    ⟨Nat.find exits, by omega, ?_, rfl, found⟩⟩
  intro before earlier
  have := Nat.find_min exits earlier
  simpa using this

/-- The rule of termination: a loop ends if every round lowers a measure. -/
theorem exists_over
    {β : Type*}
    {lower : β → β → Prop}
    (wellFounded : WellFounded lower)
    (measure : σ → β)
    (property : σ → Prop)
    (kept : ∀ state, property state → ended state = none →
      property (round state) ∧ lower (measure (round state)) (measure state))
    {state : σ}
    (initial : property state) :
    ∃ rounds answer, ended (round^[rounds] state) = some answer := by
  induction state using (InvImage.wf measure wellFounded).induction with
  | _ state inductionHypothesis =>
      cases now : ended state with
      | some answer => exact ⟨0, answer, now⟩
      | none =>
          obtain ⟨still, lowered⟩ := kept state initial now
          obtain ⟨rounds, answer, ends⟩ :=
            inductionHypothesis (round state) lowered still
          exact ⟨rounds + 1, answer, ends⟩

/-- More fuel gives the same result. -/
theorem run_unique
    {fuel other : Nat}
    {state : σ}
    {result second : σ × α}
    (done : run ended round fuel state = some result)
    (again : run ended round other state = some second) : result = second := by
  obtain ⟨rounds, -, going, reached, ends⟩ := run_eq_some_iff.mp done
  obtain ⟨others, -, goingToo, reachedToo, endsToo⟩ := run_eq_some_iff.mp again
  have same : rounds = others := by
    rcases Nat.lt_trichotomy rounds others with less | same | more
    · have := goingToo rounds less
      rw [reached, ends] at this
      cases this
    · exact same
    · have := going others more
      rw [reachedToo, endsToo] at this
      cases this
  subst same
  have states : result.1 = second.1 := reached.symm.trans reachedToo
  rw [← states, ends] at endsToo
  exact Prod.ext states (Option.some.inj endsToo)

end Loop

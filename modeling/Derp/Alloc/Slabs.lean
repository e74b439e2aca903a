import Derp.Alloc.Defs
import Mathlib.Data.List.GetD

/-!
# Taking slabs

A run of slabs is taken where all of them are free, on the side of the window
it was asked for.
-/

namespace Derp

namespace Alloc

variable
  {rng : Rng}
  {first last n start spot : Nat}

theorem length_draws {count : Nat} :
    (draws rng first n count).1.length = count := by
  induction count generalizing rng with
  | zero => rfl
  | succ count inductionHypothesis =>
      unfold draws
      simp only [List.length_cons, inductionHypothesis]

/-- Draws lie in their range. -/
theorem mem_draws
    {count x : Nat}
    (positive : 0 < n)
    (drawn : x ∈ (draws rng first n count).1) :
    first ≤ x ∧ x < first + n := by
  induction count generalizing rng with
  | zero => cases drawn
  | succ count inductionHypothesis =>
      unfold draws at drawn
      have := rng.below_lt positive
      rcases List.mem_cons.mp drawn with rfl | later
      · omega
      · exact inductionHypothesis later

namespace Slabs

variable {s s' : Slabs}

theorem free_iff :
    s.free n spot = true ↔
      ∀ i, spot ≤ i → i < spot + n → s.taken i = false := by
  unfold free
  rw [List.all_eq_true]
  constructor
  · intro all i lower upper
    simpa using all i (List.mem_range'_1.mpr ⟨lower, upper⟩)
  · intro all i inside
    obtain ⟨lower, upper⟩ := List.mem_range'_1.mp inside
    simp [all i lower upper]

/-- A fit is free, and in the range looked at. -/
theorem firstFitFrom_eq_some
    {fuel : Nat}
    (found : s.firstFitFrom last n fuel start = some spot) :
    start ≤ spot ∧ spot ≤ last ∧ s.free n spot = true := by
  induction fuel generalizing start with
  | zero => cases found
  | succ fuel inductionHypothesis =>
      unfold firstFitFrom at found
      split_ifs at found with inside
      cases blocked : (List.range' start n).reverse.find? s.taken with
      | none =>
          rw [blocked] at found
          obtain rfl := Option.some.inj found
          refine ⟨le_rfl, inside, free_iff.mpr fun i lower upper => ?_⟩
          have := List.find?_eq_none.mp blocked i
            (List.mem_reverse.mpr (List.mem_range'_1.mpr ⟨lower, upper⟩))
          simpa using this
      | some i =>
          rw [blocked] at found
          have present := List.mem_reverse.mp (List.mem_of_find?_eq_some blocked)
          have := (List.mem_range'_1.mp present).1
          obtain ⟨lower, rest⟩ := inductionHypothesis found
          exact ⟨by omega, rest⟩

/-- Where nothing is found nothing fits: the look never stops short. -/
theorem firstFit_eq_none
    (none : s.firstFit start last n = none)
    (lower : start ≤ spot)
    (upper : spot ≤ last) : s.free n spot = false := by
  unfold firstFit at none
  generalize enough : last + 1 - start = fuel at none
  replace enough : last + 1 - start ≤ fuel := enough.le
  induction fuel generalizing start with
  | zero => omega
  | succ fuel inductionHypothesis =>
      unfold firstFitFrom at none
      rw [if_pos (by omega)] at none
      cases blocked : (List.range' start n).reverse.find? s.taken with
      | none => rw [blocked] at none; cases none
      | some i =>
          rw [blocked] at none
          have present := List.mem_reverse.mp (List.mem_of_find?_eq_some blocked)
          obtain ⟨after, before⟩ := List.mem_range'_1.mp present
          by_cases past : i < spot
          · exact inductionHypothesis past none (by omega)
          · -- The taken slab is in the way of this place too.
            rw [Bool.eq_false_iff]
            intro fits
            have := free_iff.mp fits i (by omega) (by omega)
            rw [List.find?_some blocked] at this
            cases this

/-- A place that was found is free, and in the range drawn from. -/
theorem place_eq_some
    {tries : List Nat}
    (drawn : ∀ x ∈ tries, first ≤ x ∧ x ≤ first + last)
    (all : tries.length = 17)
    (found : s.place first last n tries = some spot) :
    first ≤ spot ∧ spot ≤ first + last ∧ s.free n spot = true := by
  unfold place at found
  cases hit : (tries.take 16).find? (s.free n) with
  | some x =>
      rw [hit] at found
      obtain rfl := Option.some.inj found
      have := drawn x (List.mem_of_mem_take (List.mem_of_find?_eq_some hit))
      exact ⟨this.1, this.2, List.find?_some hit⟩
  | none =>
      rw [hit] at found
      have start := drawn (tries.getD 16 0) (by
        rw [List.getD_eq_getElem _ _ (by omega)]
        exact List.getElem_mem _)
      rcases Option.or_eq_some_iff.mp found with onward | ⟨-, before⟩
      · obtain ⟨lower, rest⟩ := firstFitFrom_eq_some onward
        exact ⟨by omega, rest⟩
      · obtain ⟨lower, upper, fits⟩ := firstFitFrom_eq_some before
        exact ⟨lower, by omega, fits⟩

/-- Slabs are taken where they were free, on the side asked for, or not at all;
either way the stream moves on. -/
theorem takeSlabs_cases
    {pooled : Bool}
    {found : Option Nat}
    (seeded : s.rng.isSome)
    (taken : s.takeSlabs n pooled = (found, s')) :
    ∃ rng', s'.rng = rng' ∧ rng'.isSome ∧
      (found = none ∧ s' = { s with rng := rng' } ∨
        ∃ spot, found = some spot ∧ 0 < n ∧ (s.side pooled).1 ≤ spot ∧
          spot + n ≤ (s.side pooled).1 + (s.side pooled).2 ∧
          (∀ i, spot ≤ i → i < spot + n → s.taken i = false) ∧
          s' = { s.markSlabs spot n true with rng := rng' }) := by
  obtain ⟨rng, isRng⟩ := Option.isSome_iff_exists.mp seeded
  unfold takeSlabs at taken
  generalize s.side pooled = side at taken ⊢
  obtain ⟨first, len⟩ := side
  dsimp only at taken ⊢
  split_ifs at taken with refused
  · obtain ⟨rfl, rfl⟩ := Prod.mk.inj taken
    exact ⟨s.rng, rfl, seeded, .inl ⟨rfl, rfl⟩⟩
  · obtain ⟨wide, positive⟩ := not_or.mp refused
    rw [isRng] at taken
    dsimp only at taken
    have bounded : ∀ x ∈ (draws rng first (len - max n 1 + 1) 17).1,
        first ≤ x ∧ x ≤ first + (len - max n 1) := by
      intro x drawn
      have := mem_draws (by omega) drawn
      omega
    have all : (draws rng first (len - max n 1 + 1) 17).1.length = 17 :=
      length_draws
    generalize draws rng first (len - max n 1 + 1) 17 = tries
      at taken bounded all
    obtain ⟨tries, after⟩ := tries
    dsimp only at taken bounded all
    cases fit : place { s with rng := some after } first (len - max n 1) n
        tries with
    | none =>
        rw [fit] at taken
        obtain ⟨rfl, rfl⟩ := Prod.mk.inj taken
        exact ⟨some after, rfl, rfl, .inl ⟨rfl, rfl⟩⟩
    | some spot =>
        rw [fit] at taken
        obtain ⟨rfl, rfl⟩ := Prod.mk.inj taken
        obtain ⟨lower, upper, fits⟩ := place_eq_some bounded all fit
        exact ⟨some after, rfl, rfl, .inr
          ⟨spot, rfl, by omega, lower, by omega, free_iff.mp fits, rfl⟩⟩

end Slabs

end Alloc

end Derp

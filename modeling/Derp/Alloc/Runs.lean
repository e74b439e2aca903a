import Derp.Alloc.Heap
import Derp.Alloc.Slabs

/-!
# Runs of slabs

The pooled classes are served from the window and runs from the rest of the region.  A
run is refused only where there is none: the draws may miss one, but the look that
follows them goes over every place.
-/

namespace Derp

namespace Alloc

variable {n start last spot : Nat} {pooled : Bool}

namespace Slabs

variable {s : Slabs}

/-- The window is one that a region of the size can have. -/
def WindowChosen (s : Slabs) : Prop :=
  ∃ low : Bool, s.window =
    (if low then 0 else s.size / slab - min (windowMax / slab) (s.size / slab / 4),
      min (windowMax / slab) (s.size / slab / 4))

/-- The slabs of the window serve the pooled classes, and the rest of the region runs. -/
def Serves (s : Slabs) (pooled : Bool) (i : Nat) : Prop :=
  i < s.size / slab ∧
    (pooled = true ↔ s.window.1 ≤ i ∧ i < s.window.1 + s.window.2)

/-- Free slabs in a row that serve what is asked for. -/
def Room (s : Slabs) (pooled : Bool) (n spot : Nat) : Prop :=
  ∀ i, spot ≤ i → i < spot + n → s.Serves pooled i ∧ s.taken i = false

theorem windowChosen_openWindow (seeded : s.rng.isSome) : s.openWindow.WindowChosen := by
  obtain ⟨rng, isRng⟩ := Option.isSome_iff_exists.mp seeded
  unfold openWindow
  rw [isRng]
  by_cases low : (rng.below 2).1 = 0
  · refine ⟨true, ?_⟩
    dsimp only
    rw [if_pos low, if_pos rfl]
  · refine ⟨false, ?_⟩
    dsimp only
    rw [if_neg low, if_neg Bool.false_ne_true]

theorem side_eq (s : Slabs) (pooled : Bool) :
    s.side pooled =
      if pooled = true then s.window
      else if s.window.1 = 0 then (s.window.2, s.size / slab - s.window.2)
      else (0, s.window.1) := by
  unfold side
  split
  · rfl
  · rename_i isZero
    rw [if_neg Bool.false_ne_true, if_pos isZero]
  · rename_i notZero
    rw [if_neg Bool.false_ne_true, if_neg notZero]

/-- The part of the region to place in is the part that serves. -/
theorem serves_iff_side (chosen : s.WindowChosen) {i : Nat} :
    s.Serves pooled i ↔ (s.side pooled).1 ≤ i ∧ i < (s.side pooled).1 + (s.side pooled).2 := by
  obtain ⟨low, isWindow⟩ := chosen
  have quarter : min (windowMax / slab) (s.size / slab / 4) ≤ s.size / slab / 4 :=
    Nat.min_le_right _ _
  rw [side_eq]
  unfold Serves
  rw [isWindow]
  generalize min (windowMax / slab) (s.size / slab / 4) = len at quarter
  generalize s.size / slab = slabs at quarter
  cases pooled with
  | true =>
      rw [if_pos rfl, eq_self, true_iff]
      cases low with
      | true => rw [if_pos rfl]; omega
      | false => rw [if_neg Bool.false_ne_true]; omega
  | false =>
      rw [if_neg Bool.false_ne_true, iff_false_left Bool.false_ne_true]
      dsimp only
      cases low with
      | true => rw [if_pos rfl, if_pos rfl]; omega
      | false =>
          rw [if_neg Bool.false_ne_true]
          split
          · omega
          · omega

/-! ## The look over every place -/

/-- No place that fits is passed by. -/
theorem firstFitFrom_skips {fuel : Nat} (found : s.firstFitFrom last n fuel start = some spot)
    {earlier : Nat} (lower : start ≤ earlier) (before : earlier < spot) :
    s.free n earlier = false := by
  induction fuel generalizing start with
  | zero => cases found
  | succ fuel ih =>
      unfold firstFitFrom at found
      split at found
      · cases blocked : (List.range' start n).reverse.find? s.taken with
        | none =>
            rw [blocked] at found
            obtain rfl := Option.some.inj found
            omega
        | some i =>
            rw [blocked] at found
            by_cases past : i < earlier
            · exact ih found past
            · -- The taken slab is in the way of the earlier place too
              have present := List.mem_reverse.mp (List.mem_of_find?_eq_some blocked)
              obtain ⟨-, within⟩ := List.mem_range'_1.mp present
              rw [Bool.eq_false_iff]
              intro fits
              have isFree := free_iff.mp fits i (by omega) (by omega)
              rw [List.find?_some blocked] at isFree
              cases isFree
      · cases found

/-- The look ends by itself: more rounds find nothing else. -/
theorem firstFitFrom_enough {fuel : Nat} (enough : last + 1 - start ≤ fuel) :
    s.firstFitFrom last n fuel start = s.firstFit start last n := by
  unfold firstFit
  generalize bound : last + 1 - start = rounds at enough
  replace bound : last + 1 - start ≤ rounds := bound.le
  induction rounds generalizing start fuel with
  | zero =>
      cases fuel with
      | zero => rfl
      | succ fuel =>
          unfold firstFitFrom
          exact if_neg (by omega)
  | succ rounds ih =>
      cases fuel with
      | zero => omega
      | succ fuel =>
          unfold firstFitFrom
          split
          · cases blocked : (List.range' start n).reverse.find? s.taken with
            | none => rfl
            | some i =>
                have present := List.mem_reverse.mp (List.mem_of_find?_eq_some blocked)
                have := (List.mem_range'_1.mp present).1
                exact ih (by omega) (by omega)
          · rfl

/-- The first fit is the first place that fits. -/
theorem firstFit_eq_some_iff :
    s.firstFit start last n = some spot ↔
      start ≤ spot ∧ spot ≤ last ∧ s.free n spot = true ∧
        ∀ earlier, start ≤ earlier → earlier < spot → s.free n earlier = false := by
  constructor
  · intro found
    obtain ⟨lower, upper, fits⟩ := firstFitFrom_eq_some found
    exact ⟨lower, upper, fits, fun _ after before => firstFitFrom_skips found after before⟩
  · rintro ⟨lower, upper, fits, first⟩
    cases found : s.firstFit start last n with
    | none =>
        rw [firstFit_eq_none found lower upper] at fits
        cases fits
    | some other =>
        obtain ⟨lower', upper', fits'⟩ := firstFitFrom_eq_some found
        rcases lt_trichotomy other spot with before | same | after
        · rw [first other lower' before] at fits'
          cases fits'
        · rw [same]
        · rw [firstFitFrom_skips found lower after] at fits
          cases fits

/-- Where no place was found no place fits. -/
theorem place_eq_none {first : Nat} {tries : List Nat}
    (missed : s.place first last n tries = none) (lower : first ≤ spot)
    (upper : spot ≤ first + last) : s.free n spot = false := by
  unfold place at missed
  split at missed
  · cases missed
  · obtain ⟨onward, before⟩ := Option.or_eq_none_iff.mp missed
    by_cases after : tries.getD 16 0 ≤ spot
    · exact firstFit_eq_none onward after upper
    · exact firstFit_eq_none before lower (by omega)

/-! ## Taking -/

/-- Room for at least one slab lies within the part of the region to place in. -/
theorem Room.bounds (chosen : s.WindowChosen) (positive : 0 < n) (room : s.Room pooled n spot) :
    (s.side pooled).1 ≤ spot ∧ spot + n ≤ (s.side pooled).1 + (s.side pooled).2 := by
  have first := (serves_iff_side chosen).mp (room spot le_rfl (by omega)).1
  have final := (serves_iff_side chosen).mp (room (spot + n - 1) (by omega) (by omega)).1
  omega

theorem room_iff (chosen : s.WindowChosen) (lower : (s.side pooled).1 ≤ spot)
    (upper : spot + n ≤ (s.side pooled).1 + (s.side pooled).2) :
    s.Room pooled n spot ↔ s.free n spot = true := by
  rw [free_iff]
  constructor
  · exact fun room i after before => (room i after before).2
  · exact fun isFree i after before =>
      ⟨(serves_iff_side chosen).mpr ⟨by omega, by omega⟩, isFree i after before⟩

/-- Slabs are refused only where there is no room. -/
theorem not_room_of_none (chosen : s.WindowChosen) (seeded : s.rng.isSome) (positive : 0 < n)
    (refused : (s.takeSlabs n pooled).1 = none) : ¬ s.Room pooled n spot := by
  intro room
  obtain ⟨lower, upper⟩ := room.bounds chosen positive
  have isFree := (room_iff chosen lower upper).mp room
  obtain ⟨rng, isRng⟩ := Option.isSome_iff_exists.mp seeded
  have wide : ¬ ((s.side pooled).2 < max n 1 ∨ n = 0) := by omega
  unfold takeSlabs at refused
  dsimp only at refused
  rw [if_neg wide, isRng] at refused
  dsimp only at refused
  split at refused
  · rename_i missed
    have unfit := place_eq_none missed lower (by omega)
    have same : ({ s with
        rng := some (draws rng (s.side pooled).1 ((s.side pooled).2 - max n 1 + 1) 17).2 } :
          Slabs).free n spot = s.free n spot := rfl
    rw [same, isFree] at unfit
    cases unfit
  · cases refused

/-- How many values are drawn. -/
def drawn (n len : Nat) : Nat := if len < max n 1 ∨ n = 0 then 0 else 17

theorem rng_takeSlabs (s : Slabs) (n : Nat) (pooled : Bool) :
    (s.takeSlabs n pooled).2.rng = s.rng.map fun rng =>
      (draws rng (s.side pooled).1 ((s.side pooled).2 - max n 1 + 1)
        (drawn n (s.side pooled).2)).2 := by
  unfold takeSlabs drawn
  dsimp only
  split
  · exact (Option.map_id' (x := s.rng)).symm
  · cases isRng : s.rng with
    | none => exact isRng
    | some rng =>
        dsimp only
        split
        · rfl
        · rfl

end Slabs

/-- What taking slabs comes to. -/
structure TakesSlabs (h : Heap) (n : Nat) (pooled : Bool) : Prop where
  /-- Nothing is taken exactly where there is nothing to take -/
  refused : (h.takeSlabs n pooled).1 = none ↔ n = 0 ∨ ∀ spot, ¬ h.Room pooled n spot
  /-- What is taken was free and in range, and is marked -/
  taken : ∀ p, (h.takeSlabs n pooled).1 = some p →
    ∃ spot, p = h.base + spot * slab ∧ h.Room pooled n spot ∧
      ∀ i, (h.takeSlabs n pooled).2.taken i = (h.taken i || decide (spot ≤ i ∧ i < spot + n))
  untouched : (h.takeSlabs n pooled).1 = none → (h.takeSlabs n pooled).2.taken = h.taken
  /-- The first fit ends, and is the first -/
  ends : ∀ start last fuel, last + 1 - start ≤ fuel →
    h.firstFitFrom last n fuel start = h.firstFit start last n
  fits : ∀ start last spot, h.firstFit start last n = some spot ↔
    start ≤ spot ∧ spot ≤ last ∧ h.toSlabs.free n spot = true ∧
      ∀ earlier, start ≤ earlier → earlier < spot → h.toSlabs.free n earlier = false
  /-- As many values are drawn whatever is taken -/
  draws : (h.takeSlabs n pooled).2.rng = h.rng.map fun rng =>
    (Alloc.draws rng (h.side pooled).1 ((h.side pooled).2 - max n 1 + 1)
      (Slabs.drawn n (h.side pooled).2)).2
  alike : ∀ other : Nat → Bool,
    (({ h with taken := other } : Heap).takeSlabs n pooled).2.rng =
      (h.takeSlabs n pooled).2.rng

open Slabs in
/-- A seeded heap whose window is chosen takes slabs wherever there are any. -/
theorem takeSlabs_complete (h : Heap) (chosen : h.WindowChosen) (seeded : h.rng.isSome)
    (n : Nat) (pooled : Bool) : TakesSlabs h n pooled := by
  have parts : h.toSlabs.takeSlabs n pooled =
      ((h.toSlabs.takeSlabs n pooled).1, (h.toSlabs.takeSlabs n pooled).2) := rfl
  obtain ⟨rng', -, -, either⟩ := takeSlabs_cases seeded parts
  have spots : (h.takeSlabs n pooled).1 =
      (h.toSlabs.takeSlabs n pooled).1.map fun spot => h.base + spot * slab := rfl
  have marks : (h.takeSlabs n pooled).2.taken = (h.toSlabs.takeSlabs n pooled).2.taken := rfl
  have found : ∀ spot, (h.toSlabs.takeSlabs n pooled).1 = some spot →
      0 < n ∧ h.Room pooled n spot ∧ ∀ i, (h.takeSlabs n pooled).2.taken i =
        (h.taken i || decide (spot ≤ i ∧ i < spot + n)) := by
    intro spot isSpot
    obtain ⟨isNone, -⟩ | ⟨other, isOther, positive, lower, upper, isFree, marked⟩ := either
    · rw [isNone] at isSpot
      cases isSpot
    · obtain rfl : other = spot := Option.some.inj (isOther.symm.trans isSpot)
      refine ⟨positive, (room_iff chosen lower upper).mpr (free_iff.mpr isFree), fun i => ?_⟩
      rw [marks, marked]
      unfold markSlabs
      dsimp only
      split
      · rename_i inside
        rw [decide_eq_true inside, Bool.or_true]
      · rename_i outside
        rw [decide_eq_false outside, Bool.or_false]
  refine ⟨?_, ?_, ?_, ?_, ?_, ?_, ?_⟩
  · rw [spots, Option.map_eq_none_iff]
    constructor
    · intro refused
      obtain rfl | positive := Nat.eq_zero_or_pos n
      · exact Or.inl rfl
      · exact Or.inr fun spot => not_room_of_none chosen seeded positive refused
    · intro nothing
      cases isSpot : (h.toSlabs.takeSlabs n pooled).1 with
      | none => rfl
      | some spot =>
          obtain ⟨positive, room, -⟩ := found spot isSpot
          exact absurd room (nothing.resolve_left positive.ne' spot)
  · intro p isTaken
    rw [spots, Option.map_eq_some_iff] at isTaken
    obtain ⟨spot, isSpot, rfl⟩ := isTaken
    obtain ⟨-, room, marked⟩ := found spot isSpot
    exact ⟨spot, rfl, room, marked⟩
  · intro refused
    rw [spots, Option.map_eq_none_iff] at refused
    obtain ⟨-, same⟩ | ⟨spot, isSpot, -⟩ := either
    · rw [marks, same]
    · rw [refused] at isSpot
      cases isSpot
  · exact fun start last fuel enough => firstFitFrom_enough enough
  · exact fun start last spot => firstFit_eq_some_iff
  · exact rng_takeSlabs h.toSlabs n pooled
  · intro other
    exact (rng_takeSlabs { h.toSlabs with taken := other } n pooled).trans
      (rng_takeSlabs h.toSlabs n pooled).symm

/-- A region of eight slabs, with the window of two at its low end and two more taken. -/
def eightSlabs : Heap :=
  { size := 8 * slab
    rng := some (Rng.seedFromU64 0)
    window := (0, 2)
    taken := fun i => i = 3 ∨ i = 7 }

/-- The only run of three is found behind a taken slab. -/
theorem takeSlabs_complete_eight :
    TakesSlabs eightSlabs 3 false ∧ (eightSlabs.takeSlabs 3 false).1 = some (4 * slab) :=
  ⟨takeSlabs_complete _ ⟨true, by decide⟩ rfl 3 false, by decide +kernel⟩

end Alloc

end Derp

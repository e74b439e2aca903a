import Derp.Library.Loop
import Mathlib.Data.List.Basic
import Mathlib.Data.List.Flatten
import Mathlib.Data.List.Perm.Basic
import Mathlib.Data.Prod.Lex
import Mathlib.Order.WellFounded
import Mathlib.Tactic.Ring

/-!
# Reducing the sites a failure needs

A run that switches threads at fewer sites may still fail.  `ddmin` looks for
few sites: it cuts the list into parts, goes on with a part that fails or else
with what a part leaves, and cuts finer where neither does.  The test of a list
of sites is any predicate; it is asked of one list at a time and need not be
monotone.
-/

universe u

namespace Derp

namespace Suspects

variable {α : Type u}

/-- The parts of a list, `size` elements each but for the last. -/
def chunks (l : List α) (size : Nat) : List (List α) :=
  (List.range ((l.length + size - 1) / size)).map fun i =>
    (l.drop (i * size)).take size

/-- The list that is left, and into how many parts it is cut. -/
structure Ddmin (α : Type u) where
  current : List α
  n : Nat

namespace Ddmin

variable
  {test : List α → Bool}
  {all : List α}
  {s : Ddmin α}

def parts (s : Ddmin α) : List (List α) :=
  chunks s.current ((s.current.length + s.n - 1) / s.n)

/-- What each part leaves of the list. -/
def complements (s : Ddmin α) : List (List α) :=
  (List.range s.parts.length).map fun skip => (s.parts.eraseIdx skip).flatten

/-- The first part that fails. -/
def failingPart (test : List α → Bool) (s : Ddmin α) : Option (List α) :=
  s.parts.find? test

/-- The first complement that fails, where there are more than two. -/
def failingComplement (test : List α → Bool) (s : Ddmin α) :
    Option (List α) :=
  if 2 < s.parts.length then s.complements.find? test else none

/-- The lists that are tested in a round. -/
def tested (test : List α → Bool) (s : Ddmin α) : List (List α) :=
  s.parts ++
    if s.failingPart test = none ∧ 2 < s.parts.length then s.complements
    else []

/-- The list is small, or nothing that a single element was taken from
fails. -/
def ended (test : List α → Bool) (s : Ddmin α) : Option (List α) :=
  if s.current.length < 2 then some s.current
  else
    match s.failingPart test, s.failingComplement test with
    | none, none =>
        if s.current.length ≤ s.n then some s.current else none
    | _, _ => none

/-- Go on with a part that fails, with a complement that fails, or with a finer
cut. -/
def round (test : List α → Bool) (s : Ddmin α) : Ddmin α :=
  match s.failingPart test with
  | some part => { current := part, n := 2 }
  | none =>
      match s.failingComplement test with
      | some rest => { current := rest, n := max (s.n - 1) 2 }
      | none => { s with n := min (2 * s.n) s.current.length }

end Ddmin

/-- A list that still fails, given fuel for so many rounds. -/
def ddmin (test : List α → Bool) (all : List α) (fuel : Nat) :
    Option (List α) :=
  (Loop.run (Ddmin.ended test) (Ddmin.round test) fuel
    { current := all, n := 2 }).map Prod.snd

/-! ## Cutting a list -/

variable
  {l part : List α}
  {size : Nat}

theorem flatten_take_chunks (count : Nat) :
    ((List.range count).map fun i => (l.drop (i * size)).take size).flatten =
      l.take (count * size) := by
  induction count with
  | zero => simp
  | succ count inductionHypothesis =>
      rw [List.range_succ, List.map_append, List.flatten_append,
        inductionHypothesis, Nat.succ_mul, List.take_add]
      simp

/-- The parts make up the list. -/
theorem flatten_chunks (positive : 0 < size) : (chunks l size).flatten = l := by
  unfold chunks
  rw [flatten_take_chunks, List.take_of_length_le]
  have := Nat.div_add_mod (l.length + size - 1) size
  have := Nat.mod_lt (l.length + size - 1) positive
  rw [Nat.mul_comm]
  omega

/-- A part is a piece of the list, no longer than asked, and not empty. -/
theorem mem_chunks
    (positive : 0 < size)
    (present : part ∈ chunks l size) :
    part.Sublist l ∧ part.length ≤ size ∧ part ≠ [] := by
  obtain ⟨i, inside, rfl⟩ := List.mem_map.mp present
  have below : i * size < l.length := by
    have := (Nat.lt_div_iff_mul_lt positive).mp (List.mem_range.mp inside)
    omega
  refine ⟨(List.take_sublist ..).trans (List.drop_sublist ..),
    List.length_take_le .., ?_⟩
  intro empty
  have := congrArg List.length empty
  rw [List.length_take, List.length_drop, List.length_nil] at this
  omega

/-- Parts of one element each. -/
theorem chunks_one : chunks l 1 = l.map fun x => [x] := by
  unfold chunks
  apply List.ext_getElem
  · simp
  · intro i left right
    have inside : i < l.length := by simpa using right
    simp only [List.getElem_map, List.getElem_range, Nat.mul_one]
    rw [List.drop_eq_getElem_cons inside, List.take_succ_cons, List.take_zero]

namespace Ddmin

variable
  {test : List α → Bool}
  {s : Ddmin α}
  {found : List α}

/-- A list of two elements or more is cut into smaller parts. -/
theorem chunk_bounds
    (long : 2 ≤ s.current.length)
    (cut : 2 ≤ s.n) :
    0 < (s.current.length + s.n - 1) / s.n ∧
      (s.current.length + s.n - 1) / s.n < s.current.length := by
  constructor
  · exact Nat.div_pos (by omega) (by omega)
  · rw [Nat.div_lt_iff_lt_mul (by omega)]
    obtain ⟨a, length⟩ := Nat.exists_eq_add_of_le long
    obtain ⟨b, cuts⟩ := Nat.exists_eq_add_of_le cut
    rw [length, cuts]
    have : (2 + a) * (2 + b) = 4 + 2 * a + 2 * b + a * b := by ring
    omega

theorem mem_parts
    (long : 2 ≤ s.current.length)
    (cut : 2 ≤ s.n)
    (present : part ∈ s.parts) :
    part.Sublist s.current ∧ part.length < s.current.length ∧ part ≠ [] := by
  obtain ⟨positive, small⟩ := chunk_bounds long cut
  obtain ⟨sublist, short, filled⟩ := mem_chunks positive present
  exact ⟨sublist, by omega, filled⟩

theorem mem_complements
    (long : 2 ≤ s.current.length)
    (cut : 2 ≤ s.n)
    (many : 2 < s.parts.length)
    (present : found ∈ s.complements) :
    found.Sublist s.current ∧ found.length < s.current.length ∧
      found ≠ [] := by
  obtain ⟨skip, inside, rfl⟩ := List.mem_map.mp present
  have inside := List.mem_range.mp inside
  have whole : s.parts.flatten = s.current :=
    flatten_chunks (chunk_bounds long cut).1
  have fewer : (s.parts.eraseIdx skip).flatten.Sublist s.parts.flatten :=
    (List.eraseIdx_sublist ..).flatten
  have filled : ∀ part ∈ s.parts, part ≠ [] := fun part present =>
    (mem_parts long cut present).2.2
  refine ⟨whole ▸ fewer, ?_, ?_⟩
  · -- The part left out is not empty.
    have split := List.getElem_cons_eraseIdx_perm inside
    have lengths := split.flatten.length_eq
    rw [List.flatten_cons, List.length_append, whole] at lengths
    have := List.length_pos_iff.mpr (filled _ (List.getElem_mem inside))
    omega
  · intro empty
    have few := List.length_eraseIdx_of_lt inside
    obtain ⟨other, rest⟩ := List.exists_mem_of_length_pos
      (l := s.parts.eraseIdx skip) (by omega)
    exact filled other (List.mem_of_mem_eraseIdx rest)
      (List.flatten_eq_nil_iff.mp empty other rest)

/-- What is tested is a smaller list in the same order. -/
theorem mem_tested
    (long : 2 ≤ s.current.length)
    (cut : 2 ≤ s.n)
    (present : found ∈ s.tested test) :
    found.Sublist s.current ∧ found.length < s.current.length ∧
      found ≠ [] := by
  unfold tested at present
  rcases List.mem_append.mp present with isPart | rest
  · exact mem_parts long cut isPart
  · split_ifs at rest with asked
    · exact mem_complements long cut asked.2 rest
    · cases rest

/-- What a search for a failing list found was tested, and fails. -/
theorem failing_mem
    (fails : s.failingPart test = some found ∨
      s.failingPart test = none ∧ s.failingComplement test = some found) :
    found ∈ s.tested test ∧ test found = true := by
  unfold tested
  rcases fails with isPart | ⟨noPart, isRest⟩
  · exact ⟨List.mem_append_left _ (List.mem_of_find?_eq_some isPart),
      List.find?_some isPart⟩
  · unfold failingComplement at isRest
    split_ifs at isRest with many
    rw [if_pos ⟨noPart, many⟩]
    exact ⟨List.mem_append_right _ (List.mem_of_find?_eq_some isRest),
      List.find?_some isRest⟩

/-- When the search is over, and with what. -/
theorem ended_eq_some
    (finished : s.ended test = some found) :
    s.current = found ∧ (s.current.length < 2 ∨
      s.failingPart test = none ∧ s.failingComplement test = none ∧
        s.current.length ≤ s.n) := by
  unfold ended at finished
  by_cases short : s.current.length < 2
  · rw [if_pos short] at finished
    exact ⟨Option.some.inj finished, .inl short⟩
  · rw [if_neg short] at finished
    cases part : s.failingPart test with
    | some _ => rw [part] at finished; cases finished
    | none =>
        cases rest : s.failingComplement test with
        | some _ => rw [part, rest] at finished; cases finished
        | none =>
            rw [part, rest] at finished
            dsimp only at finished
            split_ifs at finished with finest
            exact ⟨Option.some.inj finished, .inr ⟨rfl, rfl, finest⟩⟩

/-- A round goes on with a smaller list that fails, or cuts the same one
finer. -/
theorem round_cases
    (going : s.ended test = none) :
    2 ≤ s.current.length ∧
      ((∃ found ∈ s.tested test, test found = true ∧
          ∃ n, 2 ≤ n ∧ s.round test = { current := found, n := n }) ∨
        s.n < s.current.length ∧
          s.round test = { s with n := min (2 * s.n) s.current.length }) := by
  unfold ended at going
  by_cases short : s.current.length < 2
  · rw [if_pos short] at going
    cases going
  rw [if_neg short] at going
  refine ⟨by omega, ?_⟩
  unfold round
  cases part : s.failingPart test with
  | some found =>
      obtain ⟨present, fails⟩ := failing_mem (.inl part)
      exact .inl ⟨found, present, fails, 2, le_rfl, rfl⟩
  | none =>
      cases rest : s.failingComplement test with
      | some found =>
          obtain ⟨present, fails⟩ := failing_mem (.inr ⟨part, rest⟩)
          exact .inl ⟨found, present, fails, _, Nat.le_max_right .., rfl⟩
      | none =>
          rw [part, rest] at going
          dsimp only at going
          split_ifs at going with finest
          exact .inr ⟨by omega, rfl⟩

/-- What every round keeps: a list in the order of the first that fails, cut
into two parts or more. -/
structure Reduces
    (test : List α → Bool)
    (all : List α)
    (s : Ddmin α) : Prop where
  sublist : s.current.Sublist all
  fails : test s.current = true
  filled : all ≠ [] → s.current ≠ []
  cut : 2 ≤ s.n

theorem Reduces.round
    {all : List α}
    (reduces : s.Reduces test all)
    (going : s.ended test = none) : (s.round test).Reduces test all := by
  obtain ⟨long, ⟨found, present, fails, n, cut, same⟩ | ⟨coarse, same⟩⟩ :=
    round_cases going
  · rw [same]
    obtain ⟨sublist, -, filled⟩ := mem_tested long reduces.cut present
    exact
      { sublist := sublist.trans reduces.sublist
        fails := fails
        filled := fun _ => filled
        cut := cut }
  · rw [same]
    exact { reduces with cut := by have := reduces.cut; dsimp only; omega }

/-- A round lowers the length of the list, or how much finer it can be cut. -/
theorem Reduces.measure_round
    {all : List α}
    (reduces : s.Reduces test all)
    (going : s.ended test = none) :
    Prod.Lex (· < ·) (· < ·)
      ((s.round test).current.length,
        (s.round test).current.length - (s.round test).n)
      (s.current.length, s.current.length - s.n) := by
  obtain ⟨long, ⟨found, present, -, n, -, same⟩ | ⟨coarse, same⟩⟩ :=
    round_cases going
  · rw [same]
    exact .left _ _ (mem_tested long reduces.cut present).2.1
  · rw [same]
    have := reduces.cut
    exact .right _ (by dsimp only; omega)

/-- Where the search ends with two elements or more, none of them can be taken
from the list. -/
theorem minimal
    (finished : s.ended test = some found)
    (long : 2 ≤ found.length)
    {i : Nat}
    (inside : i < found.length) : test (found.eraseIdx i) = false := by
  obtain ⟨rfl, short | ⟨part, rest, finest⟩⟩ := ended_eq_some finished
  · omega
  · -- Cut this fine, each part is one element.
    have single : s.parts = s.current.map fun x => [x] := by
      unfold parts
      rw [Nat.div_eq_of_lt_le (k := 1) (by omega) (by omega), chunks_one]
    have left : ∀ skip, (s.parts.eraseIdx skip).flatten =
        s.current.eraseIdx skip := by
      intro skip
      rw [single, List.eraseIdx_map, ← List.flatMap_def,
        List.flatMap_singleton']
    have count : s.parts.length = s.current.length := by
      rw [single, List.length_map]
    by_cases many : 2 < s.parts.length
    · unfold failingComplement at rest
      rw [if_pos many] at rest
      have passes := List.find?_eq_none.mp rest
        ((s.parts.eraseIdx i).flatten)
        (List.mem_map_of_mem (List.mem_range.mpr (by omega)))
      rw [left] at passes
      exact Bool.eq_false_iff.mpr passes
    · -- Of two elements, what one leaves is the other.
      have two : (s.current.eraseIdx i).length = 1 := by
        rw [List.length_eraseIdx_of_lt inside]
        omega
      obtain ⟨x, isLast⟩ := List.length_eq_one_iff.mp two
      have present : x ∈ s.current := List.mem_of_mem_eraseIdx
        (l := s.current) (i := i) (by rw [isLast]; simp)
      have passes := List.find?_eq_none.mp part [x] (by
        rw [single]
        exact List.mem_map_of_mem present)
      rw [isLast]
      exact Bool.eq_false_iff.mpr passes

end Ddmin

/-- A list and a cut that `ddmin` comes to. -/
def Visits (test : List α → Bool) (all : List α) (s : Ddmin α) : Prop :=
  ∃ rounds, (Ddmin.round test)^[rounds] { current := all, n := 2 } = s ∧
    ∀ before < rounds, Ddmin.ended test
      ((Ddmin.round test)^[before] { current := all, n := 2 }) = none

/-- The search ends with a list that fails, in the order of the first; from two
elements or more none can be taken so that the rest still fails.  It tests
smaller lists only, and never comes to an empty one. -/
theorem ddmin_minimal
    (test : List α → Bool)
    (all : List α)
    (fails : test all = true) :
    (∃ fuel result, ddmin test all fuel = some result) ∧
      (∀ fuel result, ddmin test all fuel = some result →
        result.Sublist all ∧ test result = true ∧
          (2 ≤ result.length → ∀ i < result.length,
            test (result.eraseIdx i) = false) ∧
          (all ≠ [] → result ≠ [])) ∧
      ∀ s, Visits test all s → 2 ≤ s.current.length →
        ∀ tested ∈ s.tested test, tested.Sublist s.current ∧
          tested.length < s.current.length := by
  have initial : Ddmin.Reduces test all { current := all, n := 2 } :=
    { sublist := .refl _
      fails := fails
      filled := id
      cut := le_rfl }
  refine ⟨?_, ?_, ?_⟩
  · obtain ⟨rounds, answer, ends⟩ := Loop.exists_over
      (Prod.lex Nat.lt_wfRel Nat.lt_wfRel).wf
      (fun s : Ddmin α => (s.current.length, s.current.length - s.n))
      (Ddmin.Reduces test all)
      (fun s reduces going => ⟨reduces.round going, reduces.measure_round going⟩)
      initial
    obtain ⟨fuel, result, done⟩ := Loop.exists_run ends
    exact ⟨fuel, result.2, by rw [ddmin, done]; rfl⟩
  · intro fuel result done
    obtain ⟨⟨later, answer⟩, ran, same⟩ := Option.map_eq_some_iff.mp done
    obtain rfl : answer = result := same
    obtain ⟨reduces, ends⟩ := Loop.run_invariant (Ddmin.Reduces test all)
      (fun s reduces going => reduces.round going) initial ran
    have isCurrent := (Ddmin.ended_eq_some ends).1
    refine ⟨isCurrent ▸ reduces.sublist, isCurrent ▸ reduces.fails, ?_,
      isCurrent ▸ reduces.filled⟩
    intro long i inside
    exact Ddmin.minimal ends long inside
  · rintro s ⟨rounds, rfl, going⟩ long tested present
    have upTo : ∀ count ≤ rounds, Ddmin.Reduces test all
        ((Ddmin.round test)^[count] { current := all, n := 2 }) := by
      intro count
      induction count with
      | zero => exact fun _ => initial
      | succ count inductionHypothesis =>
          intro inside
          rw [Function.iterate_succ_apply']
          exact (inductionHypothesis (by omega)).round (going count (by omega))
    have small := Ddmin.mem_tested long (upTo rounds le_rfl).cut present
    exact ⟨small.1, small.2.1⟩

/-- Of four sites where a run needs the second and the fourth to fail, those two
are left. -/
theorem ddmin_minimal_pair :
    ddmin (fun l => l.contains 2 && l.contains 4) [1, 2, 3, 4] 9 =
        some [2, 4] ∧
      ∃ fuel result, ddmin (fun l => l.contains 2 && l.contains 4)
        [1, 2, 3, 4] fuel = some result :=
  ⟨by decide,
    (ddmin_minimal (fun l => l.contains 2 && l.contains 4) [1, 2, 3, 4]
      (by decide)).1⟩

end Suspects

end Derp

import Mathlib.Algebra.Order.Ring.Nat
import Mathlib.Data.List.Basic

/-!
# Stretches of a list

The part of a list between two positions, and writing such a part.  What is
written is read back, and the rest of the list reads as before.
-/

universe u v

namespace Derp

namespace Slices

variable {α : Type u}

/-- The part between two positions, if the list goes that far. -/
def slice? (items : List α) (start stop : Nat) : Option (List α) :=
  if start ≤ stop ∧ stop ≤ items.length then some ((items.drop start).take (stop - start))
  else none

/-- Write a part at a position. -/
def overwrite (items : List α) (start : Nat) (part : List α) : List α :=
  items.take start ++ part ++ items.drop (start + part.length)

section Slice

variable {items items' part : List α} {start stop : Nat}

theorem slice?_of_le (ordered : start ≤ stop) (inside : stop ≤ items.length) :
    slice? items start stop = some ((items.drop start).take (stop - start)) :=
  if_pos ⟨ordered, inside⟩

theorem slice?_eq_some :
    slice? items start stop = some part ↔
      (start ≤ stop ∧ stop ≤ items.length) ∧ (items.drop start).take (stop - start) = part := by
  unfold slice?
  split <;> simp [*]

theorem slice?_eq_none :
    slice? items start stop = none ↔ ¬ (start ≤ stop ∧ stop ≤ items.length) := by
  unfold slice?
  split <;> simp [*]

theorem length_of_slice? (isPart : slice? items start stop = some part) :
    part.length = stop - start := by
  obtain ⟨inside, rfl⟩ := slice?_eq_some.mp isPart
  rw [List.length_take, List.length_drop]
  omega

theorem getElem?_of_slice? (isPart : slice? items start stop = some part) {i : Nat}
    (inside : i < stop - start) : part[i]? = items[start + i]? := by
  obtain ⟨-, rfl⟩ := slice?_eq_some.mp isPart
  rw [List.getElem?_take_of_lt inside, List.getElem?_drop]

/-- A part is told by its symbols. -/
theorem slice?_eq_some_of (ordered : start ≤ stop) (inside : stop ≤ items.length)
    (length : part.length = stop - start)
    (same : ∀ i, i < stop - start → items[start + i]? = part[i]?) :
    slice? items start stop = some part := by
  rw [slice?_of_le ordered inside]
  refine congrArg some (List.ext_getElem? fun i => ?_)
  by_cases early : i < stop - start
  · rw [List.getElem?_take_of_lt early, List.getElem?_drop, same i early]
  · rw [List.getElem?_eq_none (by rw [List.length_take]; omega),
      List.getElem?_eq_none (by omega)]

/-- Lists that agree between two positions have the same part there. -/
theorem slice?_congr (inside : stop ≤ items.length) (inside' : stop ≤ items'.length)
    (same : ∀ i, start ≤ i → i < stop → items[i]? = items'[i]?) :
    slice? items start stop = slice? items' start stop := by
  by_cases ordered : start ≤ stop
  · rw [slice?_of_le ordered inside']
    refine slice?_eq_some_of ordered inside ?_ ?_
    · rw [List.length_take, List.length_drop]
      omega
    · intro i early
      rw [List.getElem?_take_of_lt early, List.getElem?_drop]
      exact same _ (by omega) (by omega)
  · rw [slice?_eq_none.mpr (by omega), slice?_eq_none.mpr (by omega)]

theorem slice?_append_left (inside : stop ≤ items.length) :
    slice? (items ++ items') start stop = slice? items start stop :=
  slice?_congr (by rw [List.length_append]; omega) inside fun i _ early =>
    List.getElem?_append_left (by omega)

theorem slice?_append_right (late : items.length ≤ start) (ordered : start ≤ stop) :
    slice? (items ++ items') start stop =
      slice? items' (start - items.length) (stop - items.length) := by
  unfold slice?
  rw [List.length_append]
  by_cases inside : stop ≤ items.length + items'.length
  · rw [if_pos ⟨ordered, inside⟩, if_pos (by omega), List.drop_append,
      List.drop_eq_nil_of_le late, List.nil_append]
    congr 2
    omega
  · rw [if_neg (by omega), if_neg (by omega)]

/-- The first part of a list that is followed by more. -/
theorem slice?_zero_length (items later : List α) :
    slice? (items ++ later) 0 items.length = some items := by
  rw [slice?_append_left (Nat.le_refl _), slice?_of_le (Nat.zero_le _) (Nat.le_refl _),
    List.drop_zero,
    Nat.sub_zero, List.take_length]

/-- A part with something in front and behind. -/
theorem slice?_middle {start' stop' : Nat} (before part after : List α)
    (isStart : before.length = start') (isStop : start' + part.length = stop') :
    slice? (before ++ part ++ after) start' stop' = some part := by
  rw [List.append_assoc, slice?_append_right (by omega) (by omega), isStart, Nat.sub_self,
    ← isStop, Nat.add_sub_cancel_left, slice?_zero_length]

/-- One of several parts that stand one behind the other. -/
theorem slice?_flatten {parts : List (List α)} (k start' : Nat) {stop' : Nat} {part' : List α}
    (isPart : parts[k]? = some part')
    (isStart : ((parts.take k).map List.length).sum = start')
    (isStop : start' + part'.length = stop') : slice? parts.flatten start' stop' = some part' := by
  obtain ⟨inside, rfl⟩ := List.getElem?_eq_some_iff.mp isPart
  have split : parts.flatten =
      (parts.take k).flatten ++ parts[k] ++ (parts.drop (k + 1)).flatten := by
    conv_lhs => rw [← List.take_append_drop k parts, List.drop_eq_getElem_cons inside]
    rw [List.flatten_append, List.flatten_cons, List.append_assoc]
  rw [split]
  exact slice?_middle _ _ _ (by rw [List.length_flatten, isStart]) isStop

end Slice

section Overwrite

variable {items part : List α} {start : Nat}

@[simp] theorem length_overwrite (fits : start + part.length ≤ items.length) :
    (overwrite items start part).length = items.length := by
  unfold overwrite
  rw [List.length_append, List.length_append, List.length_take, List.length_drop]
  omega

theorem getElem?_overwrite (fits : start + part.length ≤ items.length) (i : Nat) :
    (overwrite items start part)[i]? =
      if start ≤ i ∧ i < start + part.length then part[i - start]? else items[i]? := by
  have taken : (items.take start).length = start := by
    rw [List.length_take]
    omega
  unfold overwrite
  rw [List.append_assoc]
  by_cases before : i < start
  · rw [if_neg (by omega), List.getElem?_append_left (by omega), List.getElem?_take_of_lt before]
  · rw [List.getElem?_append_right (by omega), taken]
    by_cases within : i < start + part.length
    · rw [if_pos ⟨by omega, within⟩, List.getElem?_append_left (by omega)]
    · rw [if_neg (by omega), List.getElem?_append_right (by omega), List.getElem?_drop]
      congr 1
      omega

/-- What was written is read. -/
theorem slice?_overwrite (fits : start + part.length ≤ items.length) :
    slice? (overwrite items start part) start (start + part.length) = some part := by
  refine slice?_eq_some_of (Nat.le_add_right _ _) ?_ (by omega) ?_
  · rwa [length_overwrite fits]
  · intro i early
    rw [getElem?_overwrite fits, if_pos (by omega)]
    congr 1
    omega

/-- What stands apart from the part written stays. -/
theorem getElem?_overwrite_of_apart (fits : start + part.length ≤ items.length) {i : Nat}
    (apart : i < start ∨ start + part.length ≤ i) :
    (overwrite items start part)[i]? = items[i]? := by
  rw [getElem?_overwrite fits, if_neg (by omega)]

theorem slice?_overwrite_of_apart (fits : start + part.length ≤ items.length) {from_ stop : Nat}
    (apart : stop ≤ start ∨ start + part.length ≤ from_) :
    slice? (overwrite items start part) from_ stop = slice? items from_ stop := by
  by_cases inside : stop ≤ items.length
  · refine slice?_congr (by rwa [length_overwrite fits]) inside fun i late early => ?_
    exact getElem?_overwrite_of_apart fits (by omega)
  · rw [slice?_eq_none.mpr (by rw [length_overwrite fits]; omega), slice?_eq_none.mpr (by omega)]

/-- Two parts written one behind the other are one part written. -/
theorem overwrite_overwrite {second : List α} (fits : start + part.length ≤ items.length) :
    overwrite (overwrite items start part) (start + part.length) second =
      overwrite items start (part ++ second) := by
  have taken : (items.take start ++ part).length = start + part.length := by
    rw [List.length_append, List.length_take]
    omega
  unfold overwrite
  rw [List.take_left' taken, List.length_append, ← List.append_assoc, ← Nat.add_assoc,
    List.drop_append, List.drop_eq_nil_of_le (by omega), List.nil_append, List.drop_drop, taken]
  congr 2
  omega

/-- Writing one of several parts that stand one behind the other. -/
theorem overwrite_flatten {parts : List (List α)} (k start' : Nat) {old new : List α}
    (isPart : parts[k]? = some old) (same : new.length = old.length)
    (isStart : ((parts.take k).map List.length).sum = start') :
    overwrite parts.flatten start' new = (parts.set k new).flatten := by
  obtain ⟨inside, rfl⟩ := List.getElem?_eq_some_iff.mp isPart
  have length : (parts.take k).flatten.length = start' := by rw [List.length_flatten, isStart]
  have split : parts.flatten =
      (parts.take k).flatten ++ (parts[k] ++ (parts.drop (k + 1)).flatten) := by
    conv_lhs => rw [← List.take_append_drop k parts, List.drop_eq_getElem_cons inside]
    rw [List.flatten_append, List.flatten_cons]
  unfold overwrite
  rw [split, List.take_left' length, List.drop_append, List.drop_eq_nil_of_le (by omega),
    List.nil_append, length, Nat.add_sub_cancel_left, same, List.drop_left,
    List.set_eq_take_append_cons_drop, if_pos inside, List.flatten_append, List.flatten_cons,
    List.append_assoc]

end Overwrite

section Without

/-- What is left when the items at the positions are taken out, the first item
being at position `n`. -/
def without (positions : List Nat) : Nat → List α → List α
  | _, [] => []
  | n, x :: items =>
      if n ∈ positions then without positions (n + 1) items
      else x :: without positions (n + 1) items

variable {positions positions' : List Nat} {items : List α} {n : Nat}

theorem without_eq_self (before : ∀ p ∈ positions, p < n) : without positions n items = items := by
  induction items generalizing n with
  | nil => rfl
  | cons x items inductionHypothesis =>
      rw [without, if_neg fun present => absurd (before n present) (Nat.lt_irrefl n),
        inductionHypothesis fun p present => Nat.lt_succ_of_lt (before p present)]

theorem without_congr (same : ∀ p, p ∈ positions ↔ p ∈ positions') :
    without positions n items = without positions' n items := by
  induction items generalizing n with
  | nil => rfl
  | cons x items inductionHypothesis =>
      rw [without, without, inductionHypothesis]
      exact if_congr (same n) rfl rfl

/-- Taking out one item, and then others in front of it, takes out all of them. -/
theorem without_eraseIdx {i : Nat} (before : ∀ p ∈ positions, p < n + i) :
    without positions n (items.eraseIdx i) = without ((n + i) :: positions) n items := by
  induction items generalizing n i with
  | nil => rfl
  | cons x items inductionHypothesis =>
      cases i with
      | zero =>
          rw [Nat.add_zero] at before ⊢
          rw [List.eraseIdx_cons_zero, without, if_pos List.mem_cons_self, without_eq_self before,
            without_eq_self]
          intro p present
          rcases List.mem_cons.mp present with rfl | present
          · exact Nat.lt_succ_self _
          · exact Nat.lt_succ_of_lt (before p present)
      | succ i =>
          have same : n ∈ (n + (i + 1)) :: positions ↔ n ∈ positions := by
            rw [List.mem_cons]
            exact or_iff_right (by omega)
          rw [List.eraseIdx_cons_succ, without, without,
            inductionHypothesis (by simpa only [Nat.add_assoc, Nat.add_comm 1] using before)]
          have place : n + 1 + i = n + (i + 1) := by omega
          rw [place]
          exact (if_congr same rfl rfl).symm

/-- Taking items out one by one, from the last position to the first. -/
theorem foldl_eraseIdx (descending : positions.Pairwise (· > ·)) :
    positions.foldl List.eraseIdx items = without positions 0 items := by
  induction positions generalizing items with
  | nil => exact (without_eq_self (by simp)).symm
  | cons i positions inductionHypothesis =>
      obtain ⟨first, rest⟩ := List.pairwise_cons.mp descending
      rw [List.foldl_cons, inductionHypothesis rest, without_eraseIdx fun p present => by
        rw [Nat.zero_add]
        exact first p present, Nat.zero_add]

theorem map_without {β : Type v} (f : α → β) :
    (without positions n items).map f = without positions n (items.map f) := by
  induction items generalizing n with
  | nil => rfl
  | cons x items inductionHypothesis =>
      rw [without, List.map_cons, without, ← inductionHypothesis]
      split <;> rfl

theorem without_sublist : (without positions n items).Sublist items := by
  induction items generalizing n with
  | nil => exact List.Sublist.refl _
  | cons x items inductionHypothesis =>
      rw [without]
      split
      · exact inductionHypothesis.cons x
      · exact inductionHypothesis.cons_cons x

/-- Taking out items that a partial function is not defined on leaves its values. -/
theorem filterMap_without {β : Type v} {f : α → Option β}
    (undefined : ∀ i x, items[i]? = some x → n + i ∈ positions → f x = none) :
    (without positions n items).filterMap f = items.filterMap f := by
  induction items generalizing n with
  | nil => rfl
  | cons x items inductionHypothesis =>
      have later := inductionHypothesis (n := n + 1) fun i y isItem isPosition =>
        undefined (i + 1) y isItem (by rwa [Nat.add_assoc, Nat.add_comm 1 i] at isPosition)
      rw [without]
      split
      next isPosition =>
        rw [later, List.filterMap_cons, undefined 0 x rfl isPosition]
      next => rw [List.filterMap_cons, List.filterMap_cons, later]

end Without

end Slices

end Derp

import Mathlib.Algebra.BigOperators.Group.Finset.Basic
import Mathlib.Data.Fintype.BigOperators
import Mathlib.Data.List.FinRange
import Mathlib.Data.List.MinMax

/-!
# Tables changed in one place, and loops over them

A table is a function of its slots.  Sums over a table move by what one slot
moves by, and a loop over slots keeps what each round keeps.
-/

universe u v

/-- Replacing one summand moves the sum by the difference. -/
theorem Finset.sum_replace
    {ι : Type u}
    {M : Type v}
    [DecidableEq ι]
    [AddCommMonoid M]
    {slots : Finset ι}
    {slot : ι}
    (member : slot ∈ slots)
    {before after : ι → M}
    (others : ∀ other ∈ slots, other ≠ slot → after other = before other) :
    ∑ i ∈ slots, after i + before slot =
      ∑ i ∈ slots, before i + after slot := by
  have rest : ∑ i ∈ slots.erase slot, after i =
      ∑ i ∈ slots.erase slot, before i := by
    apply Finset.sum_congr rfl
    intro other present
    rw [Finset.mem_erase] at present
    exact others other present.2 present.1
  rw [← Finset.add_sum_erase slots after member,
    ← Finset.add_sum_erase slots before member, rest]
  ac_rfl

/-- A property that every round keeps holds after the loop. -/
theorem List.foldl_invariant
    {α : Type u}
    {σ : Type v}
    (property : σ → Prop)
    {round : σ → α → σ}
    {slots : List α}
    {start : σ}
    (initial : property start)
    (kept : ∀ state, ∀ slot ∈ slots, property state →
      property (round state slot)) :
    property (slots.foldl round start) := by
  induction slots generalizing start with
  | nil => exact initial
  | cons slot slots inductionHypothesis =>
      apply inductionHypothesis
      · exact kept start slot (by simp) initial
      · intro state later present
        exact kept state later (by simp [present])

/-- What every round establishes for its slot and keeps for the others holds of all of them
after the loop. -/
theorem List.foldl_establishes
    {α : Type u}
    {σ : Type v}
    (property : σ → Prop)
    (served : σ → α → Prop)
    {round : σ → α → σ}
    {slots : List α}
    {start : σ}
    (initial : property start)
    (kept : ∀ state, ∀ slot ∈ slots, property state → property (round state slot))
    (serves : ∀ state, ∀ slot ∈ slots, property state → served (round state slot) slot)
    (stays : ∀ state, ∀ slot ∈ slots, ∀ other ∈ slots, property state →
      served state other → served (round state slot) other) :
    ∀ slot ∈ slots, served (slots.foldl round start) slot := by
  induction slots generalizing start with
  | nil => exact fun _ absent => nomatch absent
  | cons slot slots inductionHypothesis =>
      have first := kept start slot List.mem_cons_self initial
      intro other present
      obtain rfl | later := List.mem_cons.1 present
      · refine (List.foldl_invariant (fun state => property state ∧ served state other)
          ⟨first, serves start other List.mem_cons_self initial⟩ ?_).2
        exact fun state next among both =>
          ⟨kept state next (List.mem_cons_of_mem _ among) both.1,
            stays state next (List.mem_cons_of_mem _ among) other List.mem_cons_self
              both.1 both.2⟩
      · refine inductionHypothesis first ?_ ?_ ?_ other later
        · exact fun state next among =>
            kept state next (List.mem_cons_of_mem _ among)
        · exact fun state next among =>
            serves state next (List.mem_cons_of_mem _ among)
        · exact fun state next among another alsoAmong =>
            stays state next (List.mem_cons_of_mem _ among) another
              (List.mem_cons_of_mem _ alsoAmong)

/-- What a search finds satisfies what was searched for. -/
theorem List.find?_finRange_some
    {n : Nat}
    {test : Fin n → Bool}
    {slot : Fin n}
    (found : (List.finRange n).find? test = some slot) :
    test slot = true :=
  List.find?_some found

/-- A search finds nothing only where there is nothing. -/
theorem List.find?_finRange_none
    {n : Nat}
    {test : Fin n → Bool}
    (found : (List.finRange n).find? test = none)
    (slot : Fin n) : test slot = false := by
  have := List.find?_eq_none.mp found slot (List.mem_finRange slot)
  simpa using this

/-- In an ascending list the positions are in the order of the elements. -/
theorem List.le_of_idxOf_le
    {α : Type u}
    [LinearOrder α]
    {l : List α}
    (ascending : l.Pairwise (· < ·))
    {a b : α}
    (aMem : a ∈ l)
    (bMem : b ∈ l)
    (before : l.idxOf a ≤ l.idxOf b) : a ≤ b := by
  obtain earlier | same := before.lt_or_eq
  · have smaller := List.pairwise_iff_getElem.1 ascending _ _
      (List.idxOf_lt_length_of_mem aMem) (List.idxOf_lt_length_of_mem bMem)
      earlier
    rw [List.getElem_idxOf, List.getElem_idxOf] at smaller
    exact smaller.le
  · exact ((List.idxOf_inj aMem).1 same).le

/-- In an ascending list the first of the greatest is the least of them. -/
theorem List.least_of_mem_argmax
    {α : Type u}
    {β : Type v}
    [LinearOrder α]
    [LinearOrder β]
    {l : List α}
    (ascending : l.Pairwise (· < ·))
    {f : α → β}
    {a : α}
    (chosen : a ∈ l.argmax f)
    {b : α}
    (bMem : b ∈ l) : f b < f a ∨ f b = f a ∧ a ≤ b := by
  obtain ⟨aMem, greatest, first⟩ := List.mem_argmax_iff.1 chosen
  obtain less | same := (greatest b bMem).lt_or_eq
  · exact .inl less
  · exact .inr ⟨same, List.le_of_idxOf_le ascending aMem bMem
      (first b bMem same.ge)⟩

/-- In an ascending list the first of the smallest is the least of them. -/
theorem List.least_of_mem_argmin
    {α : Type u}
    {β : Type v}
    [LinearOrder α]
    [LinearOrder β]
    {l : List α}
    (ascending : l.Pairwise (· < ·))
    {f : α → β}
    {a : α}
    (chosen : a ∈ l.argmin f)
    {b : α}
    (bMem : b ∈ l) : f a < f b ∨ f a = f b ∧ a ≤ b := by
  obtain ⟨aMem, smallest, first⟩ := List.mem_argmin_iff.1 chosen
  obtain less | same := (smallest b bMem).lt_or_eq
  · exact .inl less
  · exact .inr ⟨same, List.le_of_idxOf_le ascending aMem bMem
      (first b bMem same.ge)⟩

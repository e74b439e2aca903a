import Derp.Library.Tables
import Mathlib.Algebra.Order.Group.Multiset

/-!
# Mailboxes that may lose letters

Letters join the end of a box and are taken from its front.  A letter may also
be lost, when it is posted or while it waits, and a box may be cleared.  The
moves of plain boxes can be followed with every posting numbered: each number
is then in one place only, and in no box out of its order.
-/

universe u v

/-- Boxes of letters, and how many letters were lost. -/
structure Mailboxes (ι : Type u) (α : Type v) where
  box : ι → List α
  lost : Nat

namespace Mailboxes

/-- What can happen to a letter, or to a box. -/
inductive Move (ι : Type u) (α : Type v)
  | posted (slot : ι) (letter : α)
  /-- A letter is lost as it is posted. -/
  | missed
  | taken (slot : ι) (letter : α)
  /-- A letter is lost while it waits. -/
  | dropped (slot : ι) (letter : α)
  | cleared (slot : ι)

variable
  {ι : Type u}
  {α : Type v}
  [DecidableEq ι]

/-- Put other letters into one box. -/
def put (m : Mailboxes ι α) (slot : ι) (letters : List α) : Mailboxes ι α :=
  { m with box := Function.update m.box slot letters }

/-- One more letter is lost. -/
def lose (m : Mailboxes ι α) : Mailboxes ι α :=
  { m with lost := m.lost + 1 }

/-- The moves of plain boxes. -/
inductive Step : Mailboxes ι α → Move ι α → Mailboxes ι α → Prop
  | posted {m : Mailboxes ι α} {slot : ι} {letter : α} :
      Step m (.posted slot letter) (m.put slot (m.box slot ++ [letter]))
  | missed {m : Mailboxes ι α} : Step m .missed m.lose
  | taken {m : Mailboxes ι α} {slot : ι} {letter : α} {rest : List α} :
      m.box slot = letter :: rest →
      Step m (.taken slot letter) (m.put slot rest)
  | dropped {m : Mailboxes ι α} {slot : ι} {letter : α}
      {before after : List α} :
      m.box slot = before ++ letter :: after →
      Step m (.dropped slot letter) (m.put slot (before ++ after)).lose
  | cleared {m : Mailboxes ι α} {slot : ι} :
      Step m (.cleared slot) (m.put slot [])

/-- A number of moves, in order. -/
inductive Steps : Mailboxes ι α → List (Move ι α) → Mailboxes ι α → Prop
  | refl (m : Mailboxes ι α) : Steps m [] m
  | cons {m middle later : Mailboxes ι α} {move : Move ι α}
      {moves : List (Move ι α)} :
      Step m move middle → Steps middle moves later →
      Steps m (move :: moves) later

variable
  {m middle later : Mailboxes ι α}
  {slot i : ι}
  {letter : α}
  {moves : List (Move ι α)}

theorem Step.steps
    {move : Move ι α}
    (step : Step m move later) : Steps m [move] later :=
  .cons step (.refl later)

theorem Steps.append
    {more : List (Move ι α)}
    (first : Steps m moves middle)
    (second : Steps middle more later) : Steps m (moves ++ more) later := by
  induction first with
  | refl => exact second
  | cons step _ inductionHypothesis =>
      exact .cons step (inductionHypothesis second)

/-- A letter was in its box before, or has just been posted. -/
theorem Step.mem_box
    {move : Move ι α}
    (step : Step m move later)
    (present : letter ∈ later.box i) :
    letter ∈ m.box i ∨ move = .posted i letter := by
  cases step with
  | @posted slot new =>
      by_cases same : i = slot
      · subst same
        simp only [put, Function.update_self, List.mem_append,
          List.mem_singleton] at present
        exact present.imp_right fun isNew => by rw [isNew]
      · simp only [put, Function.update_of_ne same] at present
        exact .inl present
  | missed => exact .inl present
  | @taken slot new rest front =>
      left
      by_cases same : i = slot
      · subst same
        simp only [put, Function.update_self] at present
        rw [front]
        exact List.mem_cons_of_mem _ present
      · simpa only [put, Function.update_of_ne same] using present
  | @dropped slot new before after inside =>
      left
      by_cases same : i = slot
      · subst same
        simp only [lose, put, Function.update_self, List.mem_append] at present
        rw [inside, List.mem_append]
        exact present.imp_right (List.mem_cons_of_mem _)
      · simpa only [lose, put, Function.update_of_ne same] using present
  | @cleared slot =>
      by_cases same : i = slot
      · subst same
        simp [put] at present
      · simp only [put, Function.update_of_ne same] at present
        exact .inl present

theorem Steps.mem_box
    (steps : Steps m moves later)
    (present : letter ∈ later.box i) :
    letter ∈ m.box i ∨ .posted i letter ∈ moves := by
  induction steps with
  | refl => exact .inl present
  | cons step _ inductionHypothesis =>
      rcases inductionHypothesis present with before | posted
      · rcases step.mem_box before with old | rfl
        · exact .inl old
        · exact .inr (List.mem_cons_self ..)
      · exact .inr (List.mem_cons_of_mem _ posted)

/-! ## Numbered postings -/

/-- Boxes whose letters carry the number of their posting, what was read from
each of them, and the numbers of the letters that were lost or that went with
a cleared box. -/
structure Record (ι : Type u) (α : Type v) where
  posted : Nat := 0
  box : ι → List (Nat × α) := fun _ => []
  read : ι → List (Nat × α) := fun _ => []
  lost : List Nat := []
  gone : List Nat := []

namespace Record

/-- The boxes without the numbers. -/
def plain (r : Record ι α) : Mailboxes ι α where
  box := fun slot => (r.box slot).map Prod.snd
  lost := r.lost.length

/-- The numbers that a box was given and has not lost, in its order. -/
def numbers (r : Record ι α) (slot : ι) : List Nat :=
  (r.read slot ++ r.box slot).map Prod.fst

def put (r : Record ι α) (slot : ι) (letters : List (Nat × α)) :
    Record ι α :=
  { r with box := Function.update r.box slot letters }

/-- The next posting, whatever becomes of it. -/
def count (r : Record ι α) : Record ι α :=
  { r with posted := r.posted + 1 }

def lose (r : Record ι α) (number : Nat) : Record ι α :=
  { r with lost := r.lost ++ [number] }

def forget (r : Record ι α) (slot : ι) : Record ι α :=
  { r with gone := r.gone ++ (r.box slot).map Prod.fst }

def keep (r : Record ι α) (slot : ι) (letter : Nat × α) : Record ι α :=
  { r with read := Function.update r.read slot (r.read slot ++ [letter]) }

/-- The moves of numbered boxes. -/
inductive Step : Record ι α → Move ι α → Record ι α → Prop
  | posted {r : Record ι α} {slot : ι} {letter : α} :
      Step r (.posted slot letter)
        (r.put slot (r.box slot ++ [(r.posted, letter)])).count
  | missed {r : Record ι α} : Step r .missed (r.lose r.posted).count
  | taken {r : Record ι α} {slot : ι} {number : Nat} {letter : α}
      {rest : List (Nat × α)} :
      r.box slot = (number, letter) :: rest →
      Step r (.taken slot letter) ((r.put slot rest).keep slot (number, letter))
  | dropped {r : Record ι α} {slot : ι} {number : Nat} {letter : α}
      {before after : List (Nat × α)} :
      r.box slot = before ++ (number, letter) :: after →
      Step r (.dropped slot letter)
        ((r.put slot (before ++ after)).lose number)
  | cleared {r : Record ι α} {slot : ι} :
      Step r (.cleared slot) ((r.forget slot).put slot [])

/-- A number of moves, in order. -/
inductive Steps : Record ι α → List (Move ι α) → Record ι α → Prop
  | refl (r : Record ι α) : Steps r [] r
  | cons {r middle later : Record ι α} {move : Move ι α}
      {moves : List (Move ι α)} :
      Step r move middle → Steps middle moves later →
      Steps r (move :: moves) later

variable {r after : Record ι α}

theorem plain_put (r : Record ι α) (slot : ι) (letters : List (Nat × α)) :
    (r.put slot letters).plain = r.plain.put slot (letters.map Prod.snd) := by
  unfold plain put Mailboxes.put
  congr 1
  funext other
  by_cases same : other = slot
  · subst same
    simp only [Function.update_self]
  · simp only [Function.update_of_ne same]

omit [DecidableEq ι] in
theorem plain_lose (r : Record ι α) (number : Nat) :
    (r.lose number).plain = r.plain.lose := by
  simp [plain, lose, Mailboxes.lose]

/-- Every move of plain boxes is one of numbered boxes. -/
theorem exists_step
    {move : Move ι α}
    (step : Mailboxes.Step r.plain move later) :
    ∃ after : Record ι α, r.Step move after ∧ after.plain = later := by
  generalize start : r.plain = m at step
  cases step with
  | @posted slot letter =>
      refine ⟨_, .posted, ?_⟩
      refine (plain_put r slot _).trans ?_
      rw [List.map_append, start]
      subst start
      rfl
  | missed => exact ⟨_, .missed, (plain_lose r r.posted).trans (by rw [start])⟩
  | @taken slot letter rest front =>
      subst start
      obtain ⟨⟨number, first⟩, others, inside, rfl, rfl⟩ :=
        List.map_eq_cons_iff.mp front
      exact ⟨_, .taken inside, plain_put r slot others⟩
  | @dropped slot letter before behind inside =>
      subst start
      obtain ⟨front, back, split, rfl, atBack⟩ :=
        List.map_eq_append_iff.mp inside
      obtain ⟨⟨number, first⟩, others, rfl, rfl, rfl⟩ :=
        List.map_eq_cons_iff.mp atBack
      refine ⟨_, .dropped split, ?_⟩
      rw [plain_lose, plain_put, List.map_append]
  | @cleared slot =>
      refine ⟨_, .cleared, ?_⟩
      rw [← start]
      exact plain_put (r.forget slot) slot []

theorem exists_steps
    (steps : Mailboxes.Steps r.plain moves later) :
    ∃ after : Record ι α, r.Steps moves after ∧ after.plain = later := by
  generalize start : r.plain = m at steps
  induction steps generalizing r with
  | refl => exact ⟨r, .refl r, start⟩
  | cons step _ inductionHypothesis =>
      rw [← start] at step
      obtain ⟨middle, first, between⟩ := exists_step step
      obtain ⟨after, rest, ends⟩ := inductionHypothesis between
      exact ⟨after, .cons first rest, ends⟩

theorem numbers_put (r : Record ι α) (slot : ι) (letters : List (Nat × α)) :
    (r.put slot letters).numbers slot =
        (r.read slot ++ letters).map Prod.fst ∧
      ∀ other ≠ slot, (r.put slot letters).numbers other =
        r.numbers other := by
  unfold numbers put
  refine ⟨by simp only [Function.update_self], ?_⟩
  intro other different
  simp only [Function.update_of_ne different]

/-- What is read stays among the numbers of its box. -/
theorem numbers_taken
    {number : Nat}
    {rest : List (Nat × α)}
    (front : r.box slot = (number, letter) :: rest) :
    ((r.put slot rest).keep slot (number, letter)).numbers = r.numbers := by
  funext other
  unfold numbers keep put
  by_cases same : other = slot
  · subst same
    simp [front]
  · simp only [Function.update_of_ne same]

variable [Fintype ι]

/-- Every posting is in one place, and every box is in the order of the
postings. -/
structure InOrder (r : Record ι α) : Prop where
  places : ∑ slot, (r.numbers slot : Multiset Nat) + (r.lost : Multiset Nat) +
    (r.gone : Multiset Nat) = Multiset.range r.posted
  sorted : ∀ slot, (r.numbers slot).Pairwise (· < ·)

omit [DecidableEq ι] in
theorem inOrder_empty : InOrder ({} : Record ι α) where
  places := by simp [numbers]
  sorted := by simp [numbers]

omit [DecidableEq ι] in
/-- The numbers in a box are those of earlier postings. -/
theorem InOrder.lt_posted
    (inOrder : r.InOrder)
    {number : Nat}
    (present : number ∈ r.numbers slot) : number < r.posted := by
  rw [← Multiset.mem_range, ← inOrder.places]
  simp only [Multiset.mem_add]
  exact .inl (.inl (Multiset.mem_sum.mpr ⟨slot, Finset.mem_univ slot, present⟩))

/-- The numbers of all boxes move with the box that changes. -/
theorem sum_numbers
    (others : ∀ other ≠ slot, after.numbers other = r.numbers other)
    (less more : Multiset Nat)
    (changed : (after.numbers slot : Multiset Nat) + less =
      (r.numbers slot : Multiset Nat) + more) :
    ∑ i, (after.numbers i : Multiset Nat) + less =
      ∑ i, (r.numbers i : Multiset Nat) + more := by
  have moved := Finset.sum_replace (Finset.mem_univ slot)
    (fun other _ different =>
      congrArg (fun numbers : List Nat => (numbers : Multiset Nat))
        (others other different))
  apply add_right_cancel (b := (r.numbers slot : Multiset Nat))
  rw [add_right_comm, moved, add_assoc, changed]
  ac_rfl

/-- A box that changes as a whole stays in order. -/
theorem InOrder.sorted_of
    (inOrder : r.InOrder)
    (others : ∀ other ≠ slot, after.numbers other = r.numbers other)
    (changed : (after.numbers slot).Pairwise (· < ·))
    (other : ι) : (after.numbers other).Pairwise (· < ·) := by
  by_cases same : other = slot
  · rw [same]
    exact changed
  · rw [others other same]
    exact inOrder.sorted other

theorem InOrder.posted
    (inOrder : r.InOrder)
    (slot : ι)
    (letter : α) :
    (r.put slot (r.box slot ++ [(r.posted, letter)])).count.InOrder := by
  obtain ⟨changed, others⟩ := r.numbers_put slot
    (r.box slot ++ [(r.posted, letter)])
  rw [← List.append_assoc, List.map_append] at changed
  have joined := sum_numbers others 0 {r.posted}
    (by rw [changed, ← Multiset.coe_add, add_zero]; rfl)
  rw [add_zero] at joined
  constructor
  case places =>
    change ∑ i, ((r.put slot
      (r.box slot ++ [(r.posted, letter)])).numbers i : Multiset Nat) +
      (r.lost : Multiset Nat) + (r.gone : Multiset Nat) =
      Multiset.range (r.posted + 1)
    rw [joined, Multiset.range_succ, ← inOrder.places, ← Multiset.singleton_add]
    ac_rfl
  case sorted =>
    apply inOrder.sorted_of others
    change ((r.put slot (r.box slot ++ [(r.posted, letter)])).numbers
      slot).Pairwise (· < ·)
    rw [changed, List.pairwise_append]
    refine ⟨inOrder.sorted slot, List.pairwise_singleton _ _, ?_⟩
    intro number present last isLast
    obtain rfl := List.mem_singleton.mp isLast
    exact inOrder.lt_posted present

omit [DecidableEq ι] in
theorem InOrder.missed (inOrder : r.InOrder) :
    (r.lose r.posted).count.InOrder := by
  refine ⟨?_, inOrder.sorted⟩
  change ∑ i, (r.numbers i : Multiset Nat) +
    ((r.lost ++ [r.posted] : List Nat) : Multiset Nat) +
    (r.gone : Multiset Nat) = Multiset.range (r.posted + 1)
  rw [Multiset.range_succ, ← inOrder.places, ← Multiset.coe_add,
    ← Multiset.singleton_add, Multiset.coe_singleton]
  ac_rfl

theorem InOrder.taken
    (inOrder : r.InOrder)
    {number : Nat}
    {rest : List (Nat × α)}
    (front : r.box slot = (number, letter) :: rest) :
    ((r.put slot rest).keep slot (number, letter)).InOrder := by
  have same := numbers_taken front
  refine ⟨?_, by rw [same]; exact inOrder.sorted⟩
  rw [same]
  exact inOrder.places

theorem InOrder.dropped
    (inOrder : r.InOrder)
    {number : Nat}
    {before behind : List (Nat × α)}
    (inside : r.box slot = before ++ (number, letter) :: behind) :
    ((r.put slot (before ++ behind)).lose number).InOrder := by
  obtain ⟨changed, others⟩ := r.numbers_put slot (before ++ behind)
  have numbers : r.numbers slot =
      (r.read slot ++ before).map Prod.fst ++
        number :: behind.map Prod.fst := by
    unfold Record.numbers
    rw [inside]
    simp
  rw [← List.append_assoc, List.map_append] at changed
  have left := sum_numbers others {number} 0
    (by
      rw [changed, numbers, ← Multiset.coe_add, ← Multiset.coe_add,
        ← Multiset.cons_coe, ← Multiset.singleton_add]
      ac_rfl)
  rw [add_zero] at left
  constructor
  case places =>
    change ∑ i, ((r.put slot (before ++ behind)).numbers i : Multiset Nat) +
      ((r.lost ++ [number] : List Nat) : Multiset Nat) +
      (r.gone : Multiset Nat) = Multiset.range r.posted
    rw [← inOrder.places, ← left, ← Multiset.coe_add, Multiset.coe_singleton]
    ac_rfl
  case sorted =>
    apply inOrder.sorted_of others
    have sorted := inOrder.sorted slot
    rw [numbers] at sorted
    change ((r.put slot (before ++ behind)).numbers slot).Pairwise (· < ·)
    rw [changed]
    exact sorted.sublist ((List.sublist_cons_self ..).append_left _)

theorem InOrder.cleared
    (inOrder : r.InOrder)
    (slot : ι) : ((r.forget slot).put slot []).InOrder := by
  obtain ⟨changed, others⟩ := (r.forget slot).numbers_put slot []
  rw [List.append_nil] at changed
  have numbers : r.numbers slot =
      (r.read slot).map Prod.fst ++ (r.box slot).map Prod.fst :=
    List.map_append
  have left := sum_numbers (r := r.forget slot) others
    ((r.box slot).map Prod.fst : List Nat) 0
    (by
      rw [changed, Multiset.coe_add, add_zero]
      exact congrArg _ numbers.symm)
  rw [add_zero] at left
  constructor
  case places =>
    change ∑ i, (((r.forget slot).put slot []).numbers i : Multiset Nat) +
      (r.lost : Multiset Nat) +
      ((r.gone ++ (r.box slot).map Prod.fst : List Nat) : Multiset Nat) =
      Multiset.range r.posted
    rw [← inOrder.places, ← Multiset.coe_add]
    change ∑ i, (((r.forget slot).put slot []).numbers i : Multiset Nat) +
      ((r.box slot).map Prod.fst : List Nat) =
      ∑ i, (r.numbers i : Multiset Nat) at left
    rw [← left]
    ac_rfl
  case sorted =>
    apply inOrder.sorted_of others
    have sorted := inOrder.sorted slot
    rw [numbers] at sorted
    rw [changed]
    exact sorted.sublist (List.sublist_append_left _ _)

/-- Every move keeps the order. -/
theorem InOrder.step
    (inOrder : r.InOrder)
    {move : Move ι α}
    (step : r.Step move after) : after.InOrder := by
  cases step with
  | posted => exact inOrder.posted _ _
  | missed => exact inOrder.missed
  | taken front => exact inOrder.taken front
  | dropped inside => exact inOrder.dropped inside
  | cleared => exact inOrder.cleared _

theorem InOrder.steps
    (inOrder : r.InOrder)
    (steps : r.Steps moves after) : after.InOrder := by
  induction steps with
  | refl => exact inOrder
  | cons step _ inductionHypothesis =>
      exact inductionHypothesis (inOrder.step step)

end Record
end Mailboxes

import Mathlib.Data.List.Basic
import Mathlib.Logic.Function.Basic
import Mathlib.Tactic.Ring

/-!
# Circular buffers

A circular buffer of capacity `cap` keeps its cells in an array, the position
of its oldest cell and the number of cells in use.  Writers append after the
last used cell and readers consume from the head, both wrapping at the
capacity.  The abstraction is the list of the cells in use, oldest first: an
append within the capacity appends to it, a skip drops from it, and a peek
reads a slice of it.
-/

universe u

/-- A circular buffer with `cap` cells.  Cells are a function of the position;
positions from the capacity on are never touched. -/
structure RingBuffer (α : Type u) (cap : Nat) where
  /-- The cells, in use or not. -/
  cells : Nat → α
  /-- Position of the oldest cell in use. -/
  head : Nat
  /-- Number of cells in use. -/
  len : Nat

namespace RingBuffer

variable {α : Type u} {cap : Nat}

/-- The empty buffer over cells that all hold the same value. -/
def empty (cap : Nat) (fill : α) : RingBuffer α cap where
  cells := fun _ => fill
  head := 0
  len := 0

/-- Write values into consecutive cells from a position on, wrapping. -/
def write (cap : Nat) : (Nat → α) → Nat → List α → Nat → α
  | cells, _, [] => cells
  | cells, position, value :: values =>
      write cap (Function.update cells position value)
        ((position + 1) % cap) values

/-- Read a number of consecutive cells from a position on, wrapping. -/
def read (cap : Nat) (cells : Nat → α) : Nat → Nat → List α
  | _, 0 => []
  | position, count + 1 =>
      cells position :: read cap cells ((position + 1) % cap) count

/-- Append values after the last cell in use. -/
def push
    (buffer : RingBuffer α cap)
    (values : List α) : RingBuffer α cap :=
  { buffer with
    cells := write cap buffer.cells
      ((buffer.head + buffer.len) % cap) values
    len := buffer.len + values.length }

/-- Copy cells from an offset into the contents on, without consuming. -/
def peek
    (buffer : RingBuffer α cap)
    (offset count : Nat) : List α :=
  read cap buffer.cells ((buffer.head + offset) % cap) count

/-- Consume the oldest cells. -/
def skip
    (buffer : RingBuffer α cap)
    (count : Nat) : RingBuffer α cap :=
  { buffer with
    head := (buffer.head + count) % cap
    len := buffer.len - count }

/-- The cells in use, oldest first. -/
def contents (buffer : RingBuffer α cap) : List α :=
  buffer.peek 0 buffer.len

@[simp] theorem len_empty (fill : α) : (empty cap fill).len = 0 := rfl

@[simp] theorem len_push
    (buffer : RingBuffer α cap)
    (values : List α) :
    (buffer.push values).len = buffer.len + values.length := rfl

@[simp] theorem len_skip
    (buffer : RingBuffer α cap)
    (count : Nat) :
    (buffer.skip count).len = buffer.len - count := rfl

@[simp] theorem head_push
    (buffer : RingBuffer α cap)
    (values : List α) :
    (buffer.push values).head = buffer.head := rfl

@[simp] theorem length_read
    (cells : Nat → α)
    (position count : Nat) :
    (read cap cells position count).length = count := by
  induction count generalizing position with
  | zero => rfl
  | succ count inductionHypothesis =>
      simp [read, inductionHypothesis]

@[simp] theorem length_peek
    (buffer : RingBuffer α cap)
    (offset count : Nat) :
    (buffer.peek offset count).length = count :=
  length_read _ _ _

@[simp] theorem length_contents (buffer : RingBuffer α cap) :
    buffer.contents.length = buffer.len :=
  length_peek _ _ _

/-- Reading a sum of counts reads the parts one after the other. -/
theorem read_add
    (cells : Nat → α)
    (position first second : Nat) :
    read cap cells (position % cap) (first + second) =
      read cap cells (position % cap) first ++
        read cap cells ((position + first) % cap) second := by
  induction first generalizing position with
  | zero => simp [read]
  | succ first inductionHypothesis =>
      have shift := inductionHypothesis (position + 1)
      have next : (position % cap + 1) % cap = (position + 1) % cap := by
        simp [Nat.add_mod]
      have last : position + 1 + first = position + (first + 1) := by omega
      rw [show first + 1 + second = (first + second) + 1 by omega]
      simp only [read, next, List.cons_append]
      rw [shift, last]

/-- Writing two sequences one after the other is writing their
concatenation. -/
theorem write_append
    (cells : Nat → α)
    (position : Nat)
    (first second : List α) :
    write cap cells (position % cap) (first ++ second) =
      write cap (write cap cells (position % cap) first)
        ((position + first.length) % cap) second := by
  induction first generalizing cells position with
  | nil => rfl
  | cons value values inductionHypothesis =>
      have next : (position % cap + 1) % cap = (position + 1) % cap := by
        simp [Nat.add_mod]
      have last : position + 1 + values.length =
          position + (values.length + 1) := by omega
      rw [List.cons_append, write, next, inductionHypothesis, write, next,
        List.length_cons, last]

/-- Appending twice is appending the concatenation. -/
theorem push_push
    (buffer : RingBuffer α cap)
    (first second : List α) :
    (buffer.push first).push second = buffer.push (first ++ second) := by
  simp only [push, List.length_append, ← Nat.add_assoc, write_append]

/-- A write changes no cell but the ones it names. -/
theorem write_other
    (cells : Nat → α)
    (position : Nat)
    (values : List α)
    (other : Nat)
    (outside : ∀ index < values.length, other ≠ (position + index) % cap) :
    write cap cells (position % cap) values other = cells other := by
  induction values generalizing cells position with
  | nil => rfl
  | cons value values inductionHypothesis =>
      have next : (position % cap + 1) % cap = (position + 1) % cap := by
        simp [Nat.add_mod]
      have tailOutside :
          ∀ index < values.length, other ≠ (position + 1 + index) % cap := by
        intro index within
        have := outside (index + 1) (by simpa using within)
        rwa [show position + 1 + index = position + (index + 1) by omega]
      have headOutside : other ≠ position % cap := by
        simpa using outside 0 (by simp)
      rw [write, next, inductionHypothesis _ _ tailOutside,
        Function.update_of_ne headOutside]

/-- Two positions less than a capacity apart are different cells. -/
theorem position_ne
    (position : Nat)
    {first second : Nat}
    (order : first < second)
    (near : second - first < cap) :
    (position + first) % cap ≠ (position + second) % cap := by
  intro equal
  have divides : cap ∣ (position + second) - (position + first) :=
    Nat.dvd_of_mod_eq_zero (Nat.sub_mod_eq_zero_of_mod_eq equal.symm)
  rw [show position + second - (position + first) = second - first by omega]
    at divides
  exact absurd (Nat.le_of_dvd (by omega) divides) (by omega)

/-- Reading cells that a write leaves alone reads what was there. -/
theorem read_write_before
    (cells : Nat → α)
    (position used : Nat)
    (values : List α)
    (fits : used + values.length ≤ cap) :
    ∀ start count, start + count ≤ used →
      read cap (write cap cells ((position + used) % cap) values)
          ((position + start) % cap) count =
        read cap cells ((position + start) % cap) count := by
  intro start count within
  induction count generalizing start with
  | zero => rfl
  | succ count inductionHypothesis =>
      have next : ((position + start) % cap + 1) % cap =
          (position + (start + 1)) % cap := by
        rw [← Nat.add_assoc]
        simp [Nat.add_mod]
      have here : write cap cells ((position + used) % cap) values
          ((position + start) % cap) = cells ((position + start) % cap) := by
        apply write_other
        intro index indexWithin
        rw [Nat.add_assoc]
        exact position_ne position (by omega) (by omega)
      simp only [read, next, here]
      rw [inductionHypothesis (start + 1) (by omega)]

/-- Reading the cells just written reads the values. -/
theorem read_write_same
    (cells : Nat → α)
    (position : Nat)
    (values : List α)
    (fits : values.length ≤ cap) :
    read cap (write cap cells (position % cap) values)
        (position % cap) values.length = values := by
  induction values generalizing cells position with
  | nil => rfl
  | cons value values inductionHypothesis =>
      have length : values.length + 1 ≤ cap := by simpa using fits
      have next : (position % cap + 1) % cap = (position + 1) % cap := by
        simp [Nat.add_mod]
      have kept : write cap (Function.update cells (position % cap) value)
          ((position + 1) % cap) values (position % cap) = value := by
        rw [write_other]
        · simp
        · intro index within
          have apart : (position + 0) % cap ≠ (position + (1 + index)) % cap :=
            position_ne position (by omega) (by omega)
          rwa [Nat.add_zero, ← Nat.add_assoc] at apart
      simp only [List.length_cons, read, write, next, kept]
      rw [inductionHypothesis _ _ (by omega)]

/-- A peek reads a slice of the contents. -/
theorem peek_eq
    (buffer : RingBuffer α cap)
    {offset count : Nat}
    (within : offset + count ≤ buffer.len) :
    buffer.peek offset count =
      (buffer.contents.drop offset).take count := by
  obtain ⟨rest, total⟩ := Nat.exists_eq_add_of_le within
  have first := @read_add α cap buffer.cells buffer.head offset
    (count + rest)
  have second := @read_add α cap buffer.cells
    (buffer.head + offset) count rest
  have split : buffer.contents =
      read cap buffer.cells (buffer.head % cap) offset ++
        (buffer.peek offset count ++
          read cap buffer.cells
            ((buffer.head + offset + count) % cap) rest) := by
    rw [contents, peek, total, Nat.add_zero, Nat.add_assoc, first, second]
    rfl
  rw [split, List.drop_left' (by simp), List.take_left' (by simp)]

/-- The whole contents are what a full peek reads. -/
theorem peek_zero_len (buffer : RingBuffer α cap) :
    buffer.peek 0 buffer.len = buffer.contents := rfl

/-- A prefix of the contents is what a peek from the head reads. -/
theorem peek_zero
    (buffer : RingBuffer α cap)
    {count : Nat}
    (within : count ≤ buffer.len) :
    buffer.peek 0 count = buffer.contents.take count := by
  rw [peek_eq buffer (by omega), List.drop_zero]

/-- Appending within the capacity appends to the contents. -/
theorem contents_push
    (buffer : RingBuffer α cap)
    (values : List α)
    (fits : buffer.len + values.length ≤ cap) :
    (buffer.push values).contents = buffer.contents ++ values := by
  have split := @read_add α cap
    (write cap buffer.cells ((buffer.head + buffer.len) % cap) values)
    buffer.head buffer.len values.length
  have before := read_write_before buffer.cells buffer.head buffer.len
    values fits 0 buffer.len (by omega)
  have written := @read_write_same α cap buffer.cells
    (buffer.head + buffer.len) values (by omega)
  simp only [Nat.add_zero] at before
  simp only [contents, peek, push, Nat.add_zero]
  rw [split, before, written]

/-- Consuming drops from the contents. -/
theorem contents_skip
    (buffer : RingBuffer α cap)
    {count : Nat}
    (within : count ≤ buffer.len) :
    (buffer.skip count).contents = buffer.contents.drop count := by
  obtain ⟨rest, total⟩ := Nat.exists_eq_add_of_le within
  have split := @read_add α cap buffer.cells buffer.head count rest
  have whole : buffer.contents =
      read cap buffer.cells (buffer.head % cap) count ++
        read cap buffer.cells ((buffer.head + count) % cap) rest := by
    rw [contents, peek, total, Nat.add_zero, split]
  rw [whole, List.drop_left' (by simp), contents, peek, len_skip, total]
  simp [skip]

theorem contents_eq_nil_iff (buffer : RingBuffer α cap) :
    buffer.contents = [] ↔ buffer.len = 0 := by
  rw [← List.length_eq_zero_iff, length_contents]

/-- Contents depend on the length only when it is zero. -/
theorem contents_of_len_eq_zero
    {buffer : RingBuffer α cap}
    (isEmpty : buffer.len = 0) :
    buffer.contents = [] :=
  (contents_eq_nil_iff buffer).mpr isEmpty

end RingBuffer

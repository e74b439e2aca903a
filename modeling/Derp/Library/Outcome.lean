import Mathlib.Algebra.Order.Ring.Nat
import Mathlib.Data.List.Basic

/-!
# Outcomes of checked computations

A computation whose arithmetic and indices are checked gives a value, gives an
error it reports itself, or panics.  It returns in the first two cases.  What a
sequence of computations comes to, and whether it returns, is told from its
parts.
-/

universe u v w

namespace Derp

inductive Outcome (ε : Type u) (α : Type v)
  | ok (value : α)
  | error (reason : ε)
  | panic
deriving DecidableEq, Repr

namespace Outcome

variable {ε : Type u} {α β γ : Type v}

protected def bind : Outcome ε α → (α → Outcome ε β) → Outcome ε β
  | .ok value, f => f value
  | .error reason, _ => .error reason
  | .panic, _ => .panic

instance : Monad (Outcome ε) where
  pure := .ok
  bind := Outcome.bind

@[simp] theorem pure_eq (value : α) : (pure value : Outcome ε α) = .ok value := rfl

@[simp] theorem ok_bind (value : α) (f : α → Outcome ε β) :
    (Outcome.ok value >>= f) = f value := rfl

@[simp] theorem error_bind (reason : ε) (f : α → Outcome ε β) :
    (Outcome.error reason >>= f) = .error reason := rfl

@[simp] theorem panic_bind (f : α → Outcome ε β) :
    ((Outcome.panic : Outcome ε α) >>= f) = .panic := rfl

instance : LawfulMonad (Outcome ε) :=
  .mk' _ (fun x => by cases x <;> rfl) (fun _ _ => rfl) (fun x _ _ => by cases x <;> rfl)

theorem bind_eq_ok {x : Outcome ε α} {f : α → Outcome ε β} {b : β} :
    (x >>= f) = .ok b ↔ ∃ a, x = .ok a ∧ f a = .ok b := by
  cases x <;> simp

@[simp] theorem map_eq_ok {x : Outcome ε α} {f : α → β} {b : β} :
    f <$> x = .ok b ↔ ∃ a, x = .ok a ∧ f a = b := by
  cases x <;> simp [Functor.map, Outcome.bind]

/-- A value or an error is given. -/
def Returns (x : Outcome ε α) : Prop := x ≠ .panic

instance (x : Outcome ε α) : Decidable x.Returns :=
  match x with
  | .ok _ => .isTrue fun same => by cases same
  | .error _ => .isTrue fun same => by cases same
  | .panic => .isFalse fun returns => returns rfl

@[simp] theorem returns_ok (value : α) : (.ok value : Outcome ε α).Returns := by
  rintro ⟨⟩

@[simp] theorem returns_error (reason : ε) : (.error reason : Outcome ε α).Returns := by
  rintro ⟨⟩

@[simp] theorem not_returns_panic : ¬ (.panic : Outcome ε α).Returns := fun returns => returns rfl

theorem returns_bind {x : Outcome ε α} {f : α → Outcome ε β} :
    (x >>= f).Returns ↔ x.Returns ∧ ∀ a, x = .ok a → (f a).Returns := by
  cases x <;> simp

@[simp] theorem returns_map {x : Outcome ε α} {f : α → β} : (f <$> x).Returns ↔ x.Returns := by
  cases x <;> simp [Functor.map, Outcome.bind]

/-- The value that is there, or an error. -/
def ofOption (reason : ε) : Option α → Outcome ε α
  | some value => .ok value
  | none => .error reason

@[simp] theorem ofOption_some (reason : ε) (value : α) : ofOption reason (some value) = .ok value :=
  rfl

@[simp] theorem ofOption_none (reason : ε) : (ofOption reason none : Outcome ε α) = .error reason :=
  rfl

@[simp] theorem ofOption_eq_ok {reason : ε} {x : Option α} {a : α} :
    ofOption reason x = .ok a ↔ x = some a := by
  cases x <;> simp

@[simp] theorem returns_ofOption (reason : ε) (x : Option α) : (ofOption reason x).Returns := by
  cases x <;> simp

/-- The value that has to be there. -/
def unwrap : Option α → Outcome ε α
  | some value => .ok value
  | none => .panic

@[simp] theorem unwrap_some (value : α) : (unwrap (some value) : Outcome ε α) = .ok value := rfl

@[simp] theorem unwrap_eq_ok {x : Option α} {a : α} :
    (unwrap x : Outcome ε α) = .ok a ↔ x = some a := by
  cases x <;> simp [unwrap]

@[simp] theorem returns_unwrap {x : Option α} :
    (unwrap x : Outcome ε α).Returns ↔ x.isSome := by
  cases x <;> simp [unwrap]

/-- Go on if the condition holds, which has to. -/
def assert (p : Prop) [Decidable p] (value : α) : Outcome ε α := if p then .ok value else .panic

@[simp] theorem assert_eq_ok {p : Prop} [Decidable p] {value a : α} :
    (assert p value : Outcome ε α) = .ok a ↔ p ∧ value = a := by
  unfold assert
  split <;> simp [*]

@[simp] theorem returns_assert {p : Prop} [Decidable p] {value : α} :
    (assert p value : Outcome ε α).Returns ↔ p := by
  unfold assert
  split <;> simp [*]

theorem assert_of {p : Prop} [Decidable p] (holds : p) (value : α) :
    (assert p value : Outcome ε α) = .ok value := if_pos holds

end Outcome

/-- What a program's build makes of a number that leaves its width: a panic, with checks,
and without them what its lower bits are. -/
class Build where
  checked : Bool

namespace Checked

scoped instance build : Build := ⟨true⟩

theorem eq_build (build : Build) (isChecked : build.checked) : build = Checked.build := by
  cases build with
  | mk checked =>
      obtain rfl : checked = true := isChecked
      rfl

end Checked

namespace Wrapping

scoped instance build : Build := ⟨false⟩

end Wrapping

namespace Outcome

variable {ε : Type u} {α β γ : Type v}

/-- The sum of unsigned numbers of the width. -/
def add [Build] (bits a b : Nat) : Outcome ε Nat :=
  if Build.checked then assert (a + b < 2 ^ bits) (a + b) else .ok ((a + b) % 2 ^ bits)

/-- The product of unsigned numbers of the width. -/
def mul [Build] (bits a b : Nat) : Outcome ε Nat :=
  if Build.checked then assert (a * b < 2 ^ bits) (a * b) else .ok (a * b % 2 ^ bits)

/-- The difference of unsigned numbers of the width. -/
def sub [Build] (bits a b : Nat) : Outcome ε Nat :=
  if Build.checked then assert (b ≤ a) (a - b) else .ok ((a + 2 ^ bits - b) % 2 ^ bits)

section Arithmetic

open Checked

variable {bits a b c : Nat}

@[simp] theorem add_eq_ok :
    (add bits a b : Outcome ε Nat) = .ok c ↔ a + b < 2 ^ bits ∧ a + b = c := assert_eq_ok

@[simp] theorem returns_add : (add bits a b : Outcome ε Nat).Returns ↔ a + b < 2 ^ bits :=
  returns_assert

theorem add_of_lt [Build] (fits : a + b < 2 ^ bits) :
    (add bits a b : Outcome ε Nat) = .ok (a + b) := by
  unfold add
  split
  · exact assert_of fits _
  · rw [Nat.mod_eq_of_lt fits]

theorem lt_of_add [Build] (isSum : (add bits a b : Outcome ε Nat) = .ok c) : c < 2 ^ bits := by
  unfold add at isSum
  split at isSum
  · obtain ⟨fits, rfl⟩ := assert_eq_ok.mp isSum
    exact fits
  · obtain rfl := ok.inj isSum
    exact Nat.mod_lt _ (Nat.two_pow_pos bits)

@[simp] theorem mul_eq_ok :
    (mul bits a b : Outcome ε Nat) = .ok c ↔ a * b < 2 ^ bits ∧ a * b = c := assert_eq_ok

theorem le_of_add [Build] (isSum : (add bits a b : Outcome ε Nat) = .ok c) : c ≤ a + b := by
  unfold add at isSum
  split at isSum
  · exact (assert_eq_ok.mp isSum).2.ge
  · exact (ok.inj isSum).ge.trans (Nat.mod_le _ _)

theorem mul_of_lt (fits : a * b < 2 ^ bits) : (mul bits a b : Outcome ε Nat) = .ok (a * b) :=
  assert_of fits _

@[simp] theorem sub_eq_ok :
    (sub bits a b : Outcome ε Nat) = .ok c ↔ b ≤ a ∧ a - b = c := assert_eq_ok

@[simp] theorem returns_sub : (sub bits a b : Outcome ε Nat).Returns ↔ b ≤ a := returns_assert

theorem sub_of_le (fits : b ≤ a) : (sub bits a b : Outcome ε Nat) = .ok (a - b) := assert_of fits _

end Arithmetic

section Builds

variable {x x' : Outcome ε α}

/-- The second is the first, unless the first is a panic. -/
def Agrees (x x' : Outcome ε α) : Prop := x.Returns → x' = x

theorem Agrees.refl (x : Outcome ε α) : Agrees x x := fun _ => rfl

theorem Agrees.bind {f f' : α → Outcome ε β} (agrees : Agrees x x')
    (each : ∀ a, x = .ok a → Agrees (f a) (f' a)) : Agrees (x >>= f) (x' >>= f') := by
  intro returns
  obtain ⟨first, rest⟩ := returns_bind.mp returns
  rw [agrees first]
  cases isOutcome : x with
  | ok a => exact each a isOutcome (rest a isOutcome)
  | error reason => rfl
  | panic => exact absurd isOutcome first

theorem Agrees.map (f : α → β) (agrees : Agrees x x') : Agrees (f <$> x) (f <$> x') := by
  intro returns
  rw [agrees (returns_map.mp returns)]

theorem Agrees.ite {p : Prop} [Decidable p] {y y' : Outcome ε α} (whenTrue : Agrees x x')
    (whenFalse : Agrees y y') : Agrees (if p then x else y) (if p then x' else y') := by
  split
  · exact whenTrue
  · exact whenFalse

theorem agrees_add [Build] (bits a b : Nat) :
    Agrees (@add ε Checked.build bits a b) (add bits a b) := by
  intro returns
  have fits := returns_add.mp returns
  exact (add_of_lt fits).trans (@add_of_lt ε bits a b Checked.build fits).symm

theorem agrees_sub [Build] {bits a : Nat} (b : Nat) (fits : a < 2 ^ bits) :
    Agrees (@sub ε Checked.build bits a b) (sub bits a b) := by
  intro returns
  have le := returns_sub.mp returns
  rw [sub_of_le le]
  unfold sub
  split
  · exact assert_of le _
  · rw [Nat.sub_add_comm le, Nat.add_mod_right, Nat.mod_eq_of_lt (by omega)]

variable {σ : Type v} {ι : Type w}

theorem Agrees.foldlM {f f' : σ → ι → Outcome ε σ} {items : List ι}
    (each : ∀ x ∈ items, ∀ s, Agrees (f s x) (f' s x)) (s : σ) :
    Agrees (items.foldlM f s) (items.foldlM f' s) := by
  induction items generalizing s with
  | nil => exact .refl _
  | cons x items inductionHypothesis =>
      rw [List.foldlM_cons, List.foldlM_cons]
      obtain ⟨first, rest⟩ := List.forall_mem_cons.mp each
      exact .bind (first s) fun next _ => inductionHypothesis rest next

theorem Agrees.mapM {f f' : ι → Outcome ε α} (each : ∀ x, Agrees (f x) (f' x))
    (items : List ι) : Agrees (items.mapM f) (items.mapM f') := by
  induction items with
  | nil => exact .refl _
  | cons x items inductionHypothesis =>
      rw [List.mapM_cons, List.mapM_cons]
      exact .bind (each x) fun _ _ => .bind inductionHypothesis fun _ _ => .refl _

end Builds

section Loops

variable {σ : Type v} {ι : Type w} {f : σ → ι → Outcome ε σ}

/-- A loop whose rounds keep an invariant of the state and of what is still to come
keeps it. -/
theorem foldlM_invariant (Inv : List ι → σ → Prop)
    (step : ∀ x items s s', Inv (x :: items) s → f s x = .ok s' → Inv items s')
    {items : List ι} {s s' : σ}
    (start : Inv items s)
    (ran : items.foldlM f s = .ok s') : Inv [] s' := by
  induction items generalizing s with
  | nil =>
      obtain rfl : s = s' := by simpa using ran
      exact start
  | cons x items inductionHypothesis =>
      rw [List.foldlM_cons, bind_eq_ok] at ran
      obtain ⟨next, first, rest⟩ := ran
      exact inductionHypothesis (step x items s next start first) rest

/-- A loop returns when each of its rounds does, up to the first that reports an
error. -/
theorem returns_foldlM_cons {x : ι} {items : List ι} {s : σ} :
    ((x :: items).foldlM f s).Returns ↔
      (f s x).Returns ∧ ∀ next, f s x = .ok next → (items.foldlM f next).Returns := by
  rw [List.foldlM_cons, returns_bind]

theorem returns_mapM {g : ι → Outcome ε α} {items : List ι}
    (all : ∀ x ∈ items, (g x).Returns) : (items.mapM g).Returns := by
  induction items with
  | nil => exact returns_ok _
  | cons x items inductionHypothesis =>
      rw [List.mapM_cons, returns_bind]
      refine ⟨all x (List.mem_cons_self), fun _ _ => returns_bind.mpr
        ⟨inductionHypothesis fun y later => all y (List.mem_cons_of_mem x later), fun _ _ => ?_⟩⟩
      exact returns_ok _

/-- Values that were computed one for one. -/
theorem of_mapM_eq_ok {g : ι → Outcome ε α} {items : List ι} {values : List α}
    (ran : items.mapM g = .ok values) :
    values.length = items.length ∧
      ∀ (i : Nat) x, items[i]? = some x → ∃ y, values[i]? = some y ∧ g x = .ok y := by
  induction items generalizing values with
  | nil =>
      obtain rfl : values = [] := by
        rw [List.mapM_nil] at ran
        cases ran
        rfl
      exact ⟨rfl, fun i x isItem => nomatch isItem⟩
  | cons x items inductionHypothesis =>
      rw [List.mapM_cons] at ran
      obtain ⟨y, first, ran⟩ := bind_eq_ok.mp ran
      obtain ⟨rest, isRest, ran⟩ := bind_eq_ok.mp ran
      cases ran
      obtain ⟨length, each⟩ := inductionHypothesis isRest
      refine ⟨by rw [List.length_cons, List.length_cons, length], fun i z isItem => ?_⟩
      cases i with
      | zero =>
          obtain rfl := Option.some.inj isItem
          exact ⟨y, rfl, first⟩
      | succ i => exact each i z isItem

end Loops

end Outcome

end Derp

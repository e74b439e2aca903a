import Mathlib.Data.List.Basic
import Mathlib.Data.List.Infix
import Mathlib.Data.List.DropRight

/-!
# Paths and the places they name

A path is written as its names, each behind a separator; the place it names is
the list of the names.  On the paths so written, the comparison of texts that
asks whether one is another or goes on from it at a separator is the comparison
of places: one list of names begins with the other.
-/

universe u

namespace Derp

namespace Paths

variable
  {α : Type u}
  {sep : α}
  {d w : List α}
  {ds ws : List (List α)}

/-- A name is not empty and has no separator in it. -/
structure Name (sep : α) (w : List α) : Prop where
  ne_nil : w ≠ []
  sep_notMem : sep ∉ w

/-- The names, each behind a separator. -/
def body (sep : α) (ws : List (List α)) : List α := ws.flatMap (sep :: ·)

/-- The path that names a place. -/
def render (sep : α) (ws : List (List α)) : List α :=
  if ws = [] then [sep] else body sep ws

/-- What is left of a path past a piece ends it or goes on at a separator. -/
def Boundary (sep : α) (rest : List α) : Prop := rest = [] ∨ rest.head? = some sep

@[simp] theorem body_nil : body sep [] = [] := rfl

@[simp] theorem body_cons : body sep (w :: ws) = sep :: w ++ body sep ws := rfl

theorem body_append (vs : List (List α)) : body sep (vs ++ ws) = body sep vs ++ body sep ws :=
  List.flatMap_append

@[simp] theorem render_nil : render sep ([] : List (List α)) = [sep] := rfl

@[simp] theorem render_cons : render sep (w :: ws) = sep :: w ++ body sep ws := rfl

theorem render_of_ne_nil (notRoot : ws ≠ []) : render sep ws = body sep ws := if_neg notRoot

theorem boundary_body : Boundary sep (body sep ws) := by
  cases ws with
  | nil => exact Or.inl rfl
  | cons w ws => exact Or.inr rfl

theorem notMem_of_mem_splitOn [DecidableEq α] {l piece : List α} (isPiece : piece ∈ l.splitOn sep) :
    sep ∉ piece := by
  induction l generalizing piece with
  | nil =>
      rw [List.splitOn_nil, List.mem_singleton] at isPiece
      simp [isPiece]
  | cons a l ih =>
      rw [List.splitOn_cons_eq_if_modifyHead] at isPiece
      split at isPiece
      · obtain rfl | isLater := List.mem_cons.mp isPiece
        · simp
        · exact ih isLater
      · rename_i notSep
        cases pieces : l.splitOn sep with
        | nil => exact absurd pieces (List.splitOn_ne_nil sep l)
        | cons first later =>
            rw [pieces, List.modifyHead_cons, List.mem_cons] at isPiece
            rw [pieces] at ih
            obtain rfl | isLater := isPiece
            · have notFirst : sep ∉ first := ih List.mem_cons_self
              simp only [List.mem_cons, not_or]
              exact ⟨fun same => notSep (by simp [same]), notFirst⟩
            · exact ih (List.mem_cons_of_mem _ isLater)

/-- Two names that each end at a separator or with the text are told apart by the text. -/
theorem append_inj_of_boundary {s t : List α}
    (dFree : sep ∉ d) (wFree : sep ∉ w)
    (sEnds : Boundary sep s) (tEnds : Boundary sep t)
    (same : d ++ s = w ++ t) :
    d = w ∧ s = t := by
  induction d generalizing w with
  | nil =>
      cases w with
      | nil => exact ⟨rfl, same⟩
      | cons b w =>
          obtain rfl | starts := sEnds
          · cases same
          · simp only [List.nil_append, List.cons_append] at same
            rw [same, List.head?_cons, Option.some_inj] at starts
            exact absurd (starts ▸ List.mem_cons_self) wFree
  | cons a d ih =>
      cases w with
      | nil =>
          obtain rfl | starts := tEnds
          · cases same
          · simp only [List.nil_append, List.cons_append] at same
            rw [← same, List.head?_cons, Option.some_inj] at starts
            exact absurd (starts ▸ List.mem_cons_self) dFree
      | cons b w =>
          simp only [List.cons_append, List.cons.injEq] at same
          obtain ⟨rfl, same⟩ := same
          obtain ⟨rfl, rest⟩ := ih (fun isIn => dFree (List.mem_cons_of_mem _ isIn))
            (fun isIn => wFree (List.mem_cons_of_mem _ isIn)) same
          exact ⟨rfl, rest⟩

/-- One text goes on from another at a separator just when its place is below. -/
theorem body_append_iff (dsNames : ∀ d ∈ ds, sep ∉ d) (wsNames : ∀ w ∈ ws, sep ∉ w) :
    (∃ rest, body sep ws = body sep ds ++ rest ∧ Boundary sep rest) ↔ ds <+: ws := by
  constructor
  · rintro ⟨rest, same, ends⟩
    induction ds generalizing ws with
    | nil => exact List.nil_prefix
    | cons d ds ih =>
        cases ws with
        | nil => simp at same
        | cons w ws =>
            simp only [body_cons, List.cons_append, List.append_assoc, List.cons.injEq,
              true_and] at same
            have tailEnds : Boundary sep (body sep ds ++ rest) := by
              cases ds with
              | nil => exact ends
              | cons d ds => exact Or.inr rfl
            obtain ⟨rfl, later⟩ := append_inj_of_boundary (wsNames w List.mem_cons_self)
              (dsNames d List.mem_cons_self) boundary_body tailEnds same
            rw [List.cons_prefix_cons]
            exact ⟨rfl, ih (fun v isIn => dsNames v (List.mem_cons_of_mem _ isIn))
              (fun v isIn => wsNames v (List.mem_cons_of_mem _ isIn)) later⟩
  · rintro ⟨below, rfl⟩
    exact ⟨body sep below, body_append ds, boundary_body⟩

/-- The path of a place goes on from another's, the root's apart, just when it is below. -/
theorem render_append_iff
    (notRoot : ds ≠ [])
    (dsNames : ∀ d ∈ ds, Name sep d)
    (wsNames : ∀ w ∈ ws, Name sep w) :
    (∃ rest, render sep ws = render sep ds ++ rest ∧ Boundary sep rest) ↔ ds <+: ws := by
  have dsFree : ∀ d ∈ ds, sep ∉ d := fun d isIn => (dsNames d isIn).sep_notMem
  have wsFree : ∀ w ∈ ws, sep ∉ w := fun w isIn => (wsNames w isIn).sep_notMem
  cases ws with
  | nil =>
      cases ds with
      | nil => exact absurd rfl notRoot
      | cons d ds =>
          have dFilled : d ≠ [] := (dsNames d List.mem_cons_self).ne_nil
          constructor
          · rintro ⟨rest, same, _⟩
            simp [dFilled] at same
          · intro below
            cases List.prefix_nil.mp below
  | cons w ws =>
      rw [render_of_ne_nil notRoot, render_of_ne_nil (List.cons_ne_nil w ws)]
      exact body_append_iff dsFree wsFree

/-- The last name of a place is how its path ends. -/
theorem suffix_render_iff (isName : Name sep d) (wsNames : ∀ w ∈ ws, sep ∉ w) :
    sep :: d <:+ render sep ws ↔ ws.getLast? = some d := by
  induction ws using List.reverseRecOn with
  | nil =>
      simp only [render_nil, List.getLast?_nil, reduceCtorEq, iff_false]
      intro ends
      have short := ends.length_le
      have : 0 < d.length := List.length_pos_of_ne_nil isName.ne_nil
      simp only [List.length_cons, List.length_nil] at short
      omega
  | append_singleton ws w _ =>
      rw [render_of_ne_nil (by simp), body_append, body_cons, body_nil, List.append_nil,
        List.getLast?_concat, Option.some_inj]
      constructor
      · rintro ⟨before, same⟩
        -- Read from the end, both texts are a name and then a separator.
        have turned := congrArg List.reverse same
        simp only [List.reverse_append, List.reverse_cons, List.append_assoc] at turned
        have nameEnds : ∀ rest : List α, Boundary sep ([sep] ++ rest) := fun _ => Or.inr rfl
        have names := append_inj_of_boundary
          (by simpa using isName.sep_notMem)
          (by simpa using wsNames w (by simp))
          (nameEnds _) (nameEnds _) turned
        exact (List.reverse_injective names.1).symm
      · rintro rfl
        exact List.suffix_append _ _

end Paths

end Derp

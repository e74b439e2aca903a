import Mathlib.Data.List.Basic
import Mathlib.Data.List.Nodup

/-!
# Maps as lists

A map is a list of keys and values in which every key stands once.  Inserting
replaces what is there for the key.
-/

universe u v

abbrev Assoc (κ : Type u) (α : Type v) := List (κ × α)

namespace Assoc

variable {κ : Type u} {α : Type v} [DecidableEq κ] {m : Assoc κ α} {key key' : κ} {value value' : α}

def get (key : κ) : Assoc κ α → Option α
  | [] => none
  | (k, value) :: m => if k = key then some value else get key m

def insert (key : κ) (value : α) (m : Assoc κ α) : Assoc κ α :=
  (key, value) :: m.filter (·.1 ≠ key)

/-- Every key stands once. -/
def Keyed (m : Assoc κ α) : Prop := (m.map (·.1)).Nodup

@[simp] theorem get_nil : get key ([] : Assoc κ α) = none := rfl

theorem get_cons (entry : κ × α) (m : Assoc κ α) :
    get key (entry :: m) = if entry.1 = key then some entry.2 else get key m := rfl

theorem get_filter_of_ne (other : key' ≠ key) :
    get key (m.filter (·.1 ≠ key')) = get key m := by
  induction m with
  | nil => rfl
  | cons entry m ih =>
      rw [List.filter_cons]
      split
      · rw [get_cons, get_cons, ih]
      · rename_i same
        have same : entry.1 = key' := by simpa using same
        rw [ih, get_cons, if_neg (same.trans_ne other)]

theorem get_insert :
    get key (insert key' value m) = if key' = key then some value else get key m := by
  unfold insert
  rw [get_cons]
  split
  · rfl
  · exact get_filter_of_ne ‹_›

@[simp] theorem get_insert_self : get key (insert key value m) = some value := by
  rw [get_insert, if_pos rfl]

theorem get_insert_of_ne (other : key' ≠ key) : get key (insert key' value m) = get key m := by
  rw [get_insert, if_neg other]

omit [DecidableEq κ] in
theorem keyed_nil : Keyed ([] : Assoc κ α) := List.nodup_nil

theorem Keyed.insert (keyed : Keyed m) (key : κ) (value : α) : Keyed (insert key value m) := by
  unfold Keyed Assoc.insert
  rw [List.map_cons, List.nodup_cons]
  constructor
  · rw [List.mem_map]
    rintro ⟨entry, present, same⟩
    have := (List.mem_filter.mp present).2
    simp [same] at this
  · exact keyed.sublist (List.Sublist.map _ List.filter_sublist)

/-- What stands in the map is what the map gives. -/
theorem mem_iff_get (keyed : Keyed m) : (key, value) ∈ m ↔ get key m = some value := by
  induction m with
  | nil => simp
  | cons entry m ih =>
      obtain ⟨k, v⟩ := entry
      have keys := List.nodup_cons.mp keyed
      rw [List.mem_cons, ih keys.2, get_cons, Prod.mk.injEq]
      by_cases same : k = key
      · subst same
        have absent : get k m ≠ some value := fun found =>
          keys.1 (List.mem_map_of_mem (f := (·.1)) ((ih keys.2).mpr found))
        rw [if_pos rfl, Option.some_inj, or_iff_left absent, and_iff_right rfl]
        exact eq_comm
      · rw [if_neg same, or_iff_right fun both => same both.1.symm]

end Assoc

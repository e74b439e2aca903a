import Mathlib.Data.List.Basic
import Mathlib.Data.List.Nodup

/-!
# Registries

A registry is a list of registrations, one for each key.  A registration is found,
changed, added and taken away by its key.  A collect goes over the registrations in
order: those that fire give an event each, as long as there is room, and may change
or go.  A loop that notes the indices of those that go, and removes them after, does
the same as one that removes them on the way.
-/

universe u v w

namespace Derp

namespace Registries

variable {κ : Type u} {ρ : Type v} {ε : Type w}

/-- What becomes of a registration that fires. -/
structure Shot (ρ : Type v) (ε : Type w) where
  event : ε
  left : ρ
  /-- It goes -/
  gone : Bool

/-- What is left of a registration that fired. -/
def Shot.rest (shot : Shot ρ ε) : Option ρ :=
  if shot.gone then none else some shot.left

/-! ## The loop -/

/-- What a loop leaves: the registrations, the indices of those that go, and the events. -/
structure Scan (ρ : Type v) (ε : Type w) where
  regs : List ρ
  gone : List Nat
  events : List ε

section Scan

variable (fire : ρ → Option (Shot ρ ε))

def scan : Nat → Nat → List ρ → Scan ρ ε
  | _, _, [] => ⟨[], [], []⟩
  | _, 0, r :: regs => ⟨r :: regs, [], []⟩
  | i, room + 1, r :: regs =>
      match fire r with
      | none =>
          let rest := scan (i + 1) (room + 1) regs
          ⟨r :: rest.regs, rest.gone, rest.events⟩
      | some shot =>
          let rest := scan (i + 1) room regs
          ⟨shot.left :: rest.regs, if shot.gone then i :: rest.gone else rest.gone,
            shot.event :: rest.events⟩

/-- Those that go are removed, from the last on. -/
def Scan.removed (s : Scan ρ ε) : List ρ :=
  s.gone.foldr (fun i regs => regs.eraseIdx i) s.regs

/-- The events, up to the room, and the registrations that are left. -/
def collect : Nat → List ρ → List ρ × List ε
  | _, [] => ([], [])
  | 0, r :: regs => (r :: regs, [])
  | room + 1, r :: regs =>
      match fire r with
      | none =>
          let rest := collect (room + 1) regs
          (r :: rest.1, rest.2)
      | some shot =>
          let rest := collect room regs
          (shot.rest.toList ++ rest.1, shot.event :: rest.2)

variable {fire}

theorem collect_zero (regs : List ρ) : collect fire 0 regs = (regs, []) := by
  cases regs
  · rfl
  · rfl

theorem collect_succ_of_none {room : Nat} {r : ρ} {regs : List ρ} (quiet : fire r = none) :
    collect fire (room + 1) (r :: regs) =
      (r :: (collect fire (room + 1) regs).1, (collect fire (room + 1) regs).2) := by
  rw [collect, quiet]

theorem collect_succ_of_some {room : Nat} {r : ρ} {regs : List ρ} {shot : Shot ρ ε}
    (fires : fire r = some shot) :
    collect fire (room + 1) (r :: regs) =
      (shot.rest.toList ++ (collect fire room regs).1,
        shot.event :: (collect fire room regs).2) := by
  rw [collect, fires]

/-- The indices are counted from where the loop begins. -/
theorem gone_scan_succ (i room : Nat) (regs : List ρ) :
    scan fire (i + 1) room regs =
      { scan fire i room regs with gone := (scan fire i room regs).gone.map (· + 1) } := by
  induction regs generalizing i room with
  | nil => rfl
  | cons r regs ih =>
      cases room with
      | zero => rfl
      | succ room =>
          unfold scan
          split
          · rw [ih]
          · rw [ih]
            dsimp only
            split
            · rw [List.map_cons]
            · rfl

/-- Removing behind the first registration. -/
theorem foldr_eraseIdx_cons (r : ρ) (regs : List ρ) (gone : List Nat) :
    (gone.map (· + 1)).foldr (fun i regs => regs.eraseIdx i) (r :: regs) =
      r :: gone.foldr (fun i regs => regs.eraseIdx i) regs := by
  induction gone with
  | nil => rfl
  | cons i gone ih => rw [List.map_cons, List.foldr_cons, ih, List.foldr_cons,
      List.eraseIdx_cons_succ]

/-- Removing the indices after the loop is removing on the way. -/
theorem removed_scan (room : Nat) (regs : List ρ) :
    ((scan fire 0 room regs).removed, (scan fire 0 room regs).events) =
      collect fire room regs := by
  induction regs generalizing room with
  | nil => rfl
  | cons r regs ih =>
      cases room with
      | zero => rfl
      | succ room =>
          unfold Scan.removed at ih ⊢
          cases fires : fire r with
          | none =>
              rw [collect_succ_of_none fires, ← ih, scan, fires]
              dsimp only
              rw [gone_scan_succ]
              dsimp only
              rw [foldr_eraseIdx_cons]
          | some shot =>
              rw [collect_succ_of_some fires, ← ih, scan, fires]
              dsimp only
              rw [gone_scan_succ]
              unfold Shot.rest
              dsimp only
              split
              · rw [List.foldr_cons, foldr_eraseIdx_cons]
                rfl
              · rw [foldr_eraseIdx_cons]
                rfl

end Scan

/-! ## Keys -/

/-- Every key is registered once. -/
def Keyed (key : ρ → κ) (regs : List ρ) : Prop := (regs.map key).Nodup

section Keys

variable [DecidableEq κ] {key : ρ → κ} {k k' : κ} {r : ρ} {regs : List ρ}

/-- The registration of a key. -/
def find (key : ρ → κ) (k : κ) : List ρ → Option ρ
  | [] => none
  | r :: regs => if key r = k then some r else find key k regs

/-- The registration of a key is replaced, taken away or added at the end. -/
def alter (key : ρ → κ) (k : κ) (f : Option ρ → Option ρ) : List ρ → List ρ
  | [] => (f none).toList
  | r :: regs => if key r = k then (f (some r)).toList ++ regs else r :: alter key k f regs

theorem find_cons : find key k (r :: regs) = if key r = k then some r else find key k regs := rfl

theorem find_eq_none : find key k regs = none ↔ k ∉ regs.map key := by
  induction regs with
  | nil => exact iff_of_true rfl List.not_mem_nil
  | cons first regs ih =>
      rw [find_cons, List.map_cons, List.mem_cons, not_or, ← ih]
      split
      · exact iff_of_false (Option.some_ne_none _) fun both => both.1 (Eq.symm ‹_›)
      · exact ⟨fun none => ⟨fun same => ‹¬ key first = k› same.symm, none⟩, And.right⟩

theorem mem_of_find (found : find key k regs = some r) : r ∈ regs ∧ key r = k := by
  induction regs with
  | nil => cases found
  | cons first regs ih =>
      rw [find_cons] at found
      split at found
      · obtain rfl := Option.some.inj found
        exact ⟨List.mem_cons_self, ‹_›⟩
      · exact (ih found).imp_left (List.mem_cons_of_mem first)

theorem find_toList_append {first : Option ρ} (own : ∀ r ∈ first, key r = k)
    (absent : find key k regs = none) (other : k' = k ∨ k' ≠ k) :
    find key k' (first.toList ++ regs) = if k' = k then first else find key k' regs := by
  cases first with
  | none =>
      rw [Option.toList_none, List.nil_append]
      split
      · rw [‹k' = k›, absent]
      · rfl
  | some r =>
      rw [Option.toList_some, List.singleton_append, find_cons, own r rfl]
      obtain rfl | other := other
      · rw [if_pos rfl]
      · rw [if_neg other.symm, if_neg other]

variable {f : Option ρ → Option ρ}

/-- A change keeps the key it is about. -/
def Kept (key : ρ → κ) (k : κ) (f : Option ρ → Option ρ) : Prop :=
  ∀ old, (∀ r ∈ old, key r = k) → ∀ r ∈ f old, key r = k

omit [DecidableEq κ] in
theorem Kept.none (own : Kept key k f) : ∀ r ∈ f none, key r = k :=
  own _ fun _ none => nomatch none

omit [DecidableEq κ] in
theorem Kept.some {old : ρ} (own : Kept key k f) (same : key old = k) :
    ∀ r ∈ f (some old), key r = k :=
  own _ fun _ isOld => Option.some.inj isOld ▸ same

theorem find_alter (keyed : Keyed key regs) (own : Kept key k f) :
    find key k' (alter key k f regs) =
      if k' = k then f (find key k regs) else find key k' regs := by
  induction regs with
  | nil =>
      have added := find_toList_append own.none (rfl : find key k [] = none) (eq_or_ne k' k)
      rwa [List.append_nil] at added
  | cons first regs ih =>
      have keys := List.nodup_cons.mp keyed
      unfold alter
      split
      · rename_i same
        have absent : find key k regs = none := find_eq_none.mpr (same ▸ keys.1)
        rw [find_toList_append (own.some same) absent (eq_or_ne k' k), find_cons, if_pos same,
          find_cons]
        split
        · rfl
        · rw [if_neg fun other => ‹¬ k' = k› (other.symm.trans same)]
      · rename_i other
        rw [find_cons, ih keys.2, find_cons, if_neg other, find_cons]
        split
        · rename_i same
          rw [if_neg fun both => other (same.trans both)]
        · rfl

theorem mem_keys_alter (own : Kept key k f) :
    ∀ k' ∈ (alter key k f regs).map key, k' = k ∨ k' ∈ regs.map key := by
  induction regs with
  | nil =>
      intro k' present
      obtain ⟨r, added, rfl⟩ := List.mem_map.mp present
      exact Or.inl (own.none r (Option.mem_toList.mp added))
  | cons first regs ih =>
      intro k' present
      unfold alter at present
      split at present
      · rename_i same
        rw [List.map_append, List.mem_append] at present
        obtain changed | rest := present
        · obtain ⟨r, isLeft, rfl⟩ := List.mem_map.mp changed
          exact Or.inl (own.some same r (Option.mem_toList.mp isLeft))
        · exact Or.inr (List.mem_cons_of_mem _ rest)
      · rw [List.map_cons, List.mem_cons] at present
        obtain rfl | rest := present
        · exact Or.inr List.mem_cons_self
        · exact (ih k' rest).imp_right (List.mem_cons_of_mem _)

theorem Keyed.alter (keyed : Keyed key regs) (own : Kept key k f) :
    Keyed key (alter key k f regs) := by
  induction regs with
  | nil =>
      unfold Keyed Registries.alter
      cases f none
      · exact List.nodup_nil
      · exact List.nodup_singleton _
  | cons first regs ih =>
      have keys := List.nodup_cons.mp keyed
      unfold Keyed Registries.alter
      split
      · rename_i same
        cases changed : f (some first) with
        | none => exact keys.2
        | some r =>
            have sameKey : key r = key first := (own.some same r changed).trans same.symm
            rw [Option.toList_some, List.singleton_append, List.map_cons, sameKey]
            exact keyed
      · rename_i other
        rw [List.map_cons, List.nodup_cons]
        refine ⟨fun present => ?_, ih keys.2⟩
        obtain same | old := mem_keys_alter own _ present
        · exact other same
        · exact keys.1 old

omit [DecidableEq κ] in
theorem Keyed.filter (keyed : Keyed key regs) (kept : κ → Bool) :
    Keyed key (regs.filter fun r => kept (key r)) :=
  keyed.sublist (List.filter_sublist.map key)

theorem find_filter (kept : κ → Bool) :
    find key k (regs.filter fun r => kept (key r)) =
      if kept k = true then find key k regs else none := by
  induction regs with
  | nil =>
      rw [List.filter_nil]
      exact (ite_self none).symm
  | cons r regs ih =>
      rw [List.filter_cons]
      by_cases stays : kept (key r) = true
      · rw [if_pos stays, find_cons, ih, find_cons]
        split
        · rename_i same
          rw [if_pos (same ▸ stays)]
        · rfl
      · rw [if_neg stays, ih, find_cons]
        split
        · rename_i own
          rw [if_neg fun same : key r = k => stays (same ▸ own)]
        · rfl

end Keys

/-! ## What a collect does to the registration of a key -/

section Collect

variable {key : ρ → κ} {keyOf : ε → κ} {fire : ρ → Option (Shot ρ ε)} {regs : List ρ}

/-- A registration that fires keeps its key, and its event has it. -/
def Marked (key : ρ → κ) (keyOf : ε → κ) (fire : ρ → Option (Shot ρ ε)) : Prop :=
  ∀ r shot, fire r = some shot → key shot.left = key r ∧ keyOf shot.event = key r

theorem Marked.rest {shot : Shot ρ ε} {r : ρ} (marked : Marked key keyOf fire)
    (fires : fire r = some shot) : ∀ left ∈ shot.rest, key left = key r := by
  intro left isLeft
  unfold Shot.rest at isLeft
  split at isLeft
  · cases isLeft
  · obtain rfl := Option.some.inj isLeft
    exact (marked r shot fires).1

theorem keys_collect_sublist (marked : Marked key keyOf fire) (room : Nat) (regs : List ρ) :
    ((collect fire room regs).1.map key).Sublist (regs.map key) ∧
      ((collect fire room regs).2.map keyOf).Sublist (regs.map key) := by
  induction regs generalizing room with
  | nil => exact ⟨List.Sublist.slnil, List.Sublist.slnil⟩
  | cons r regs ih =>
      cases room with
      | zero => exact ⟨List.Sublist.refl _, List.nil_sublist _⟩
      | succ room =>
          cases fires : fire r with
          | none =>
              rw [collect_succ_of_none fires]
              exact ⟨(ih _).1.cons_cons _, (ih _).2.cons _⟩
          | some shot =>
              obtain ⟨kept, given⟩ := ih room
              rw [collect_succ_of_some fires]
              dsimp only
              rw [List.map_cons, List.map_cons, (marked r shot fires).2]
              refine ⟨?_, given.cons_cons _⟩
              unfold Shot.rest
              split
              · exact kept.cons _
              · rw [Option.toList_some, List.singleton_append, List.map_cons,
                  (marked r shot fires).1]
                exact kept.cons_cons _

theorem Keyed.collect (keyed : Keyed key regs) (marked : Marked key keyOf fire) (room : Nat) :
    Keyed key (collect fire room regs).1 :=
  keyed.sublist (keys_collect_sublist marked room regs).1

theorem Keyed.events (keyed : Keyed key regs) (marked : Marked key keyOf fire) (room : Nat) :
    ((Registries.collect fire room regs).2.map keyOf).Nodup :=
  keyed.sublist (keys_collect_sublist marked room regs).2

theorem length_collect_le (room : Nat) (regs : List ρ) :
    (collect fire room regs).2.length ≤ room := by
  induction regs generalizing room with
  | nil => exact Nat.zero_le _
  | cons r regs ih =>
      cases room with
      | zero => exact Nat.le_refl 0
      | succ room =>
          cases fires : fire r with
          | none =>
              rw [collect_succ_of_none fires]
              exact ih _
          | some shot =>
              rw [collect_succ_of_some fires]
              exact Nat.succ_le_succ (ih _)

/-- The registration of a key, if there is one, fires and is reported, or stays as it is;
where it would fire but does not, the room is used up. -/
theorem collect_cases [DecidableEq κ] (marked : Marked key keyOf fire) (keyed : Keyed key regs)
    (k : κ)
    (room : Nat) :
    (∃ r shot, find key k regs = some r ∧ fire r = some shot ∧
        k ∈ (collect fire room regs).2.map keyOf ∧
          find key k (collect fire room regs).1 = shot.rest) ∨
      k ∉ (collect fire room regs).2.map keyOf ∧
        find key k (collect fire room regs).1 = find key k regs ∧
          ∀ r, find key k regs = some r →
            fire r = none ∨ (collect fire room regs).2.length = room := by
  induction regs generalizing room with
  | nil => exact Or.inr ⟨List.not_mem_nil, rfl, fun r found => nomatch found⟩
  | cons r regs ih =>
      have keys := List.nodup_cons.mp keyed
      cases room with
      | zero => exact Or.inr ⟨List.not_mem_nil, rfl, fun _ _ => Or.inr rfl⟩
      | succ room =>
          by_cases own : key r = k
          · -- The key stands nowhere behind, so the rest leaves it alone
            have absent : k ∉ regs.map key := own ▸ keys.1
            have unheard : ∀ room, k ∉ (collect fire room regs).2.map keyOf := fun room present =>
              absent ((keys_collect_sublist marked room regs).2.subset present)
            have still : ∀ room, find key k (collect fire room regs).1 = none := fun room =>
              find_eq_none.mpr fun present =>
                absent ((keys_collect_sublist marked room regs).1.subset present)
            cases fires : fire r with
            | none =>
                rw [collect_succ_of_none fires, find_cons, if_pos own, find_cons, if_pos own]
                exact Or.inr ⟨unheard _, rfl, fun r' same => Or.inl (Option.some.inj same ▸ fires)⟩
            | some shot =>
                rw [collect_succ_of_some fires, find_cons, if_pos own]
                refine Or.inl ⟨r, shot, rfl, fires, ?_, ?_⟩
                · exact List.mem_cons.mpr (Or.inl (own.symm.trans (marked r shot fires).2.symm))
                · rw [find_toList_append
                    (fun left isLeft => (marked.rest fires left isLeft).trans own) (still room)
                    (Or.inl rfl), if_pos rfl]
          · rw [find_cons, if_neg own]
            cases fires : fire r with
            | none =>
                rw [collect_succ_of_none fires, find_cons, if_neg own]
                exact ih keys.2 (room + 1)
            | some shot =>
                have other : k ≠ key r := fun same => own same.symm
                have first : keyOf shot.event ≠ k := fun same =>
                  own ((marked r shot fires).2.symm.trans same)
                have rest : find key k (shot.rest.toList ++ (collect fire room regs).1) =
                    find key k (collect fire room regs).1 := by
                  cases isLeft : shot.rest with
                  | none => rfl
                  | some left =>
                      rw [Option.toList_some, List.singleton_append, find_cons,
                        if_neg fun same => own ((marked.rest fires left isLeft).symm.trans same)]
                have heard : k ∈ keyOf shot.event :: (collect fire room regs).2.map keyOf ↔
                    k ∈ (collect fire room regs).2.map keyOf :=
                  List.mem_cons.trans (or_iff_right fun same => first same.symm)
                rw [collect_succ_of_some fires, rest, List.map_cons, heard, List.length_cons]
                obtain fired | ⟨silent, kept, full⟩ := ih keys.2 room
                · exact Or.inl fired
                · exact Or.inr ⟨silent, kept, fun r' found => (full r' found).imp_right
                    (congrArg (· + 1))⟩

end Collect

end Registries

end Derp

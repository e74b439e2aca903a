import Derp.Macho.Repacking
import Mathlib.Data.List.Sort

/-!
# Making the commands fit

Commands that may go are given up in the order of their ranks, until the rest has
room in the header.  What is given up is the shortest beginning of that order
with which the rest fits, or all of it.
-/

namespace Derp

namespace Macho

open Outcome Slices Checked

section Sizes

/-- What commands take in a file. -/
def lengths (commands : List Command) : Nat := (commands.map (·.bytes.length)).sum

/-- What the commands at the indices take. -/
def weights (commands : List Command) (dropped : List Nat) : Nat :=
  (dropped.map fun i => (commands[i]?.map (·.bytes.length)).getD 0).sum

variable {commands : List Command} {dropped : List Nat}

@[simp] theorem lengths_nil : lengths [] = 0 := rfl

@[simp] theorem lengths_cons (c : Command) (commands : List Command) :
    lengths (c :: commands) = c.bytes.length + lengths commands := List.sum_cons

@[simp] theorem lengths_append (first second : List Command) :
    lengths (first ++ second) = lengths first + lengths second := by
  unfold lengths
  rw [List.map_append, List.sum_append]

theorem foldlM_size {total : Nat} (fits : total + lengths commands < 2 ^ 64) :
    commands.foldlM (fun total c => add 64 total c.bytes.length) total =
      (ok (total + lengths commands) : Outcome Error Nat) := by
  induction commands generalizing total with
  | nil => rfl
  | cons c commands inductionHypothesis =>
      rw [lengths_cons] at fits ⊢
      rw [List.foldlM_cons, add_of_lt (by omega), ok_bind, inductionHypothesis (by omega),
        Nat.add_assoc]

theorem size_of_lt (fits : lengths commands < 2 ^ 64) : size commands = ok (lengths commands) := by
  unfold size
  rw [foldlM_size (by omega), Nat.zero_add]

theorem weights_cons (i : Nat) (dropped : List Nat) :
    weights commands (i :: dropped) =
      (commands[i]?.map (·.bytes.length)).getD 0 + weights commands dropped := List.sum_cons

theorem weights_append (first second : List Nat) :
    weights commands (first ++ second) = weights commands first + weights commands second := by
  unfold weights
  rw [List.map_append, List.sum_append]

theorem weights_perm {dropped' : List Nat} (same : dropped.Perm dropped') :
    weights commands dropped = weights commands dropped' :=
  (same.map _).sum_eq

theorem foldlM_sizeOfDropped {total : Nat} (inside : ∀ i ∈ dropped, i < commands.length)
    (fits : total + weights commands dropped < 2 ^ 64) :
    dropped.foldlM (fun total i => do
      let c ← unwrap commands[i]?
      add 64 total c.bytes.length) total =
      (ok (total + weights commands dropped) : Outcome Error Nat) := by
  induction dropped generalizing total with
  | nil => rfl
  | cons i dropped inductionHypothesis =>
      obtain ⟨here, later⟩ := List.forall_mem_cons.mp inside
      rw [weights_cons, List.getElem?_eq_getElem here, Option.map_some, Option.getD_some] at fits ⊢
      rw [List.foldlM_cons, List.getElem?_eq_getElem here, unwrap_some, ok_bind,
        add_of_lt (by omega), ok_bind, inductionHypothesis later (by omega), Nat.add_assoc]

theorem sizeOfDropped_of_lt (inside : ∀ i ∈ dropped, i < commands.length)
    (fits : weights commands dropped < 2 ^ 64) :
    sizeOfDropped commands dropped = ok (weights commands dropped) := by
  unfold sizeOfDropped
  rw [foldlM_sizeOfDropped inside (by omega), Nat.zero_add]

/-- Taking commands out from the last to the first takes what they take. -/
theorem lengths_foldl_eraseIdx (descending : dropped.Pairwise (· > ·))
    (inside : ∀ i ∈ dropped, i < commands.length) :
    lengths (dropped.foldl List.eraseIdx commands) + weights commands dropped =
      lengths commands := by
  induction dropped generalizing commands with
  | nil => rfl
  | cons i dropped inductionHypothesis =>
      obtain ⟨first, rest⟩ := List.pairwise_cons.mp descending
      obtain ⟨here, later⟩ := List.forall_mem_cons.mp inside
      have same : weights (commands.eraseIdx i) dropped = weights commands dropped := by
        unfold weights
        refine congrArg _ (List.map_congr_left fun j present => ?_)
        rw [List.getElem?_eraseIdx_of_lt (first j present)]
      have split : lengths (commands.eraseIdx i) + commands[i].bytes.length = lengths commands := by
        conv_rhs => rw [← List.take_append_drop i commands, List.drop_eq_getElem_cons here]
        rw [List.eraseIdx_eq_take_drop_succ, lengths_append, lengths_append, lengths_cons]
        omega
      have later : ∀ j ∈ dropped, j < (commands.eraseIdx i).length := fun j present => by
        rw [List.length_eraseIdx_of_lt here]
        have := first j present
        omega
      have := inductionHypothesis rest later
      rw [List.foldl_cons, weights_cons, List.getElem?_eq_getElem here, Option.map_some,
        Option.getD_some]
      rw [same] at this
      omega

theorem foldlM_eraseIdx (descending : dropped.Pairwise (· > ·))
    (inside : ∀ i ∈ dropped, i < commands.length) :
    dropped.foldlM (fun commands i => assert (i < commands.length) (commands.eraseIdx i))
      commands = (ok (dropped.foldl List.eraseIdx commands) : Outcome Error (List Command)) := by
  induction dropped generalizing commands with
  | nil => rfl
  | cons i dropped inductionHypothesis =>
      obtain ⟨first, rest⟩ := List.pairwise_cons.mp descending
      obtain ⟨here, later⟩ := List.forall_mem_cons.mp inside
      rw [List.foldlM_cons, assert_of here, ok_bind, List.foldl_cons]
      refine inductionHypothesis rest fun j present => ?_
      rw [List.length_eraseIdx_of_lt here]
      have := first j present
      omega

/-- Positions from the last to the first. -/
def descending (dropped : List Nat) : List Nat := (dropped.mergeSort (· ≤ ·)).reverse

theorem perm_descending : (descending dropped).Perm dropped :=
  (List.reverse_perm _).trans (List.mergeSort_perm _ _)

theorem pairwise_descending (distinct : dropped.Nodup) :
    (descending dropped).Pairwise (· > ·) := by
  have sorted : (dropped.mergeSort (· ≤ ·)).Pairwise (· ≤ ·) := by
    simpa using @List.pairwise_mergeSort Nat (fun a b => decide (a ≤ b))
      (by simpa using fun a b c : Nat => Nat.le_trans) (by simpa using Nat.le_total) dropped
  have strict : (dropped.mergeSort (· ≤ ·)).Pairwise (· ≠ ·) :=
    (List.mergeSort_perm _ _).nodup_iff.mpr distinct
  refine List.pairwise_reverse.mpr ((sorted.and strict).imp fun both => ?_)
  exact lt_of_le_of_ne both.1 both.2

theorem removeDropped_eq (distinct : dropped.Nodup) (inside : ∀ i ∈ dropped, i < commands.length) :
    removeDropped commands dropped = ok (without dropped 0 commands) := by
  have order := pairwise_descending distinct
  change (descending dropped).foldlM _ commands = _
  rw [foldlM_eraseIdx order fun i present => inside i (perm_descending.mem_iff.mp present),
    foldl_eraseIdx order, without_congr fun i => perm_descending.mem_iff]

theorem lengths_without (distinct : dropped.Nodup) (inside : ∀ i ∈ dropped, i < commands.length) :
    lengths (without dropped 0 commands) + weights commands dropped = lengths commands := by
  have order := pairwise_descending distinct
  rw [← without_congr fun i => perm_descending.mem_iff, ← foldl_eraseIdx order,
    ← weights_perm perm_descending]
  exact lengths_foldl_eraseIdx order fun i present => inside i (perm_descending.mem_iff.mp present)

end Sizes

section Dropping

/-- What is given up: the shortest beginning of the order with which the rest
fits, or all of it. -/
structure Dropped (commands : List Command) (room : Nat) (order : List (Nat × Nat))
    (dropped : List Nat) : Prop where
  isPrefix : ∃ count ≤ order.length, dropped = (order.take count).map (·.1)
  needed : ∀ fewer < dropped.length,
    room + weights commands (dropped.take fewer) < lengths commands + SIGNATURE_CMD_SIZE
  enough : dropped.length < order.length →
    lengths commands + SIGNATURE_CMD_SIZE ≤ room + weights commands dropped

variable {commands : List Command} {room : Nat} {order : List (Nat × Nat)} {dropped : List Nat}

/-- Indices of commands, each once. -/
structure Indices (commands : List Command) (dropped : List Nat) : Prop where
  distinct : dropped.Nodup
  inside : ∀ i ∈ dropped, i < commands.length

theorem Indices.of_prefix {later : List Nat} (indices : Indices commands (dropped ++ later)) :
    Indices commands dropped :=
  ⟨indices.distinct.of_append_left,
    fun i present => indices.inside i (List.mem_append_left _ present)⟩

theorem Indices.weights_le (indices : Indices commands dropped) :
    weights commands dropped ≤ lengths commands := by
  have := lengths_without indices.distinct indices.inside
  omega

/-- Giving up goes on until the rest has room. -/
theorem dropFrom_eq (small : lengths commands + SIGNATURE_CMD_SIZE < 2 ^ 64)
    (indices : Indices commands (dropped ++ order.map (·.1))) :
    ∃ count ≤ order.length,
      dropFrom commands room order dropped = ok (dropped ++ (order.take count).map (·.1)) ∧
        (∀ fewer < count, room + weights commands (dropped ++ (order.take fewer).map (·.1)) <
          lengths commands + SIGNATURE_CMD_SIZE) ∧
          (count < order.length → lengths commands + SIGNATURE_CMD_SIZE ≤
            room + weights commands (dropped ++ (order.take count).map (·.1))) := by
  induction order generalizing dropped with
  | nil => exact ⟨0, le_rfl, by simp [dropFrom], by simp, by simp⟩
  | cons candidate order inductionHypothesis =>
      obtain ⟨i, rank⟩ := candidate
      have few := indices.of_prefix.weights_le
      have step : dropFrom commands room ((i, rank) :: order) dropped =
          if lengths commands + SIGNATURE_CMD_SIZE - weights commands dropped ≤ room then ok dropped
          else dropFrom commands room order (dropped ++ [i]) := by
        rw [dropFrom, size_of_lt (by omega), ok_bind, add_of_lt small, ok_bind,
          sizeOfDropped_of_lt indices.of_prefix.inside (by omega), ok_bind,
          sub_of_le (by omega), ok_bind]
      rw [step]
      by_cases fits : lengths commands + SIGNATURE_CMD_SIZE - weights commands dropped ≤ room
      · rw [if_pos fits]
        refine ⟨0, Nat.zero_le _, by simp, by simp, fun _ => ?_⟩
        rw [List.take_zero, List.map_nil, List.append_nil]
        omega
      · rw [if_neg fits]
        obtain ⟨count, few', same, needed, enough⟩ := @inductionHypothesis (dropped ++ [i])
          (by simpa using indices)
        refine ⟨count + 1, Nat.succ_le_succ few', ?_, fun fewer isFewer => ?_, fun isLess => ?_⟩
        · rw [same]
          simp
        · cases fewer with
          | zero =>
              rw [List.take_zero, List.map_nil, List.append_nil]
              omega
          | succ fewer => simpa using needed fewer (by omega)
        · simpa using enough (by simpa using isLess)

theorem exists_dropped (small : lengths commands + SIGNATURE_CMD_SIZE < 2 ^ 64)
    (indices : Indices commands (order.map (·.1))) :
    ∃ dropped, dropFrom commands room order [] = ok dropped ∧
      Dropped commands room order dropped ∧ Indices commands dropped := by
  obtain ⟨count, few, same, needed, enough⟩ :=
    @dropFrom_eq commands room order [] small (by simpa using indices)
  have length : ((order.take count).map (·.1)).length = count := by
    rw [List.length_map, List.length_take]
    omega
  refine ⟨_, same, ⟨⟨count, few, rfl⟩, fun fewer isFewer => ?_, fun isLess => ?_⟩, ?_⟩
  · rw [List.nil_append, length] at isFewer
    have := needed fewer isFewer
    rwa [List.nil_append, ← List.map_take, List.take_take, Nat.min_eq_left (by omega)]
  · rw [List.nil_append, length] at isLess
    exact enough isLess
  · have split : order.map (·.1) =
        (order.take count).map (·.1) ++ (order.drop count).map (·.1) := by
      rw [← List.map_append, List.take_append_drop]
    rw [split] at indices
    exact indices.of_prefix

/-- No more than one beginning of the order is the one given up. -/
theorem Dropped.unique {dropped' : List Nat} (one : Dropped commands room order dropped)
    (other : Dropped commands room order dropped') : dropped = dropped' := by
  obtain ⟨count, few, isPrefix⟩ := one.isPrefix
  obtain ⟨count', few', isPrefix'⟩ := other.isPrefix
  have length : dropped.length = count := by
    rw [isPrefix, List.length_map, List.length_take]
    omega
  have length' : dropped'.length = count' := by
    rw [isPrefix', List.length_map, List.length_take]
    omega
  have cut : ∀ {a b : Nat}, a ≤ b → (((order.take b).map (·.1)).take a) =
      (order.take a).map (·.1) := by
    intro a b le
    rw [← List.map_take, List.take_take, Nat.min_eq_left le]
  rcases lt_trichotomy count count' with less | same | more
  · have needed := other.needed count (by omega)
    rw [isPrefix', cut (by omega), ← isPrefix] at needed
    have := one.enough (by omega)
    omega
  · rw [isPrefix, isPrefix', same]
  · have needed := one.needed count' (by omega)
    rw [isPrefix, cut (by omega), ← isPrefix'] at needed
    have := other.enough (by omega)
    omega

end Dropping

section Fitting

variable {m : MachO} {r : Repacked}

/-- In which order commands are given up. -/
def dropOrder (optional : List (Nat × Nat)) : List (Nat × Nat) :=
  optional.mergeSort fun a b => a.2 ≤ b.2

/-- The space commands may take in the header. -/
def headerSpace (m : MachO) : Nat :=
  (firstOffset m).getD (HEADER_SIZE + m.header.sizeofcmds) -
    (HEADER_SIZE + m.header.sizeofcmds) + m.header.sizeofcmds

theorem rankedFrom_indices (images : List Image) (n : Nat) :
    ((rankedFrom n images).map (·.1)).Pairwise (· < ·) ∧
      ∀ i ∈ (rankedFrom n images).map (·.1), n ≤ i ∧ i < n + images.length := by
  induction images generalizing n with
  | nil => simp [rankedFrom]
  | cons image images inductionHypothesis =>
      obtain ⟨increasing, inside⟩ := inductionHypothesis (n + 1)
      have step : rankedFrom n (image :: images) =
          (image.rank.map fun rank => (n, rank)).toList ++ rankedFrom (n + 1) images := by
        unfold rankedFrom
        rw [List.zipIdx_cons, List.filterMap_cons]
        cases image.rank <;> rfl
      rw [step, List.length_cons]
      have later : ∀ i ∈ (rankedFrom (n + 1) images).map (·.1),
          n ≤ i ∧ i < n + (images.length + 1) := by
        intro i present
        have := inside i present
        omega
      cases image.rank with
      | none => exact ⟨increasing, later⟩
      | some rank =>
          refine ⟨List.pairwise_cons.mpr ⟨fun i present => ?_, increasing⟩, ?_⟩
          · exact (inside i present).1
          · intro i present
            rcases List.mem_cons.mp present with rfl | present
            · exact ⟨le_rfl, by omega⟩
            · exact later i present

theorem indices_dropOrder (images : List Image) :
    Indices (images.map (·.command)) ((dropOrder (rankedFrom 0 images)).map (·.1)) := by
  obtain ⟨increasing, inside⟩ := rankedFrom_indices images 0
  have same : ((dropOrder (rankedFrom 0 images)).map (·.1)).Perm
      ((rankedFrom 0 images).map (·.1)) := (List.mergeSort_perm _ _).map _
  refine ⟨same.nodup_iff.mpr (increasing.imp Nat.ne_of_lt), fun i present => ?_⟩
  have := (inside i (same.mem_iff.mp present)).2
  rwa [List.length_map, ← Nat.zero_add images.length]

/-- Fitting gives up what has to go, and fails if that is not enough. -/
theorem fitCommands_eq (small : lengths r.commands + SIGNATURE_CMD_SIZE < 2 ^ 64)
    (header : m.header.sizeofcmds < 2 ^ 32)
    (offsets : ∀ s ∈ m.segments, ∀ section_ ∈ s.sections, section_.offset < 2 ^ 32)
    (indices : Indices r.commands ((dropOrder r.optional).map (·.1))) :
    ∃ dropped, Dropped r.commands (headerSpace m) (dropOrder r.optional) dropped ∧
      Indices r.commands dropped ∧
        m.fitCommands r =
          if headerSpace m < lengths (without dropped 0 r.commands) + SIGNATURE_CMD_SIZE then
            .error (.noHeaderRoom (lengths r.commands + SIGNATURE_CMD_SIZE) (headerSpace m))
          else ok (without dropped 0 r.commands) := by
  have first : (firstOffset m).getD (HEADER_SIZE + m.header.sizeofcmds) < 2 ^ 33 := by
    unfold HEADER_SIZE
    cases isFirst : firstOffset m with
    | none =>
        rw [Option.getD_none]
        omega
    | some offset =>
        have present := List.min?_mem isFirst
        obtain ⟨section_, inSection, isOffset⟩ := List.mem_filterMap.mp present
        obtain ⟨s, inSegment, inSections⟩ := List.mem_flatMap.mp inSection
        have := offsets s inSegment section_ inSections
        split_ifs at isOffset with isBacked
        obtain rfl := Option.some.inj isOffset
        rw [Option.getD_some]
        omega
  obtain ⟨dropped, isDropped, spec, indices⟩ := @exists_dropped _ (headerSpace m) _ small indices
  have kept := lengths_without indices.distinct indices.inside
  refine ⟨dropped, spec, indices, ?_⟩
  unfold MachO.fitCommands
  rw [headerRoom_eq header, ok_bind, add_of_lt (by omega), ok_bind, size_of_lt (by omega), ok_bind,
    add_of_lt small, ok_bind]
  change (do
    let dropped ← dropFrom r.commands (headerSpace m) (dropOrder r.optional) []
    _) = _
  rw [isDropped, ok_bind, removeDropped_eq indices.distinct indices.inside, ok_bind,
    size_of_lt (by omega), ok_bind, add_of_lt (by omega), ok_bind]
  rfl

end Fitting

end Macho

end Derp

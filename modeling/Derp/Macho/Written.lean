import Derp.Macho.Emitting

/-!
# The bytes of the image

Where the pieces of the image stand, and what they read: the header and the new
commands, the file's own bytes behind them, the last word patched at each
position, the new segment, and what is left of `__LINKEDIT`.
-/

namespace Derp

namespace Macho

open Outcome Slices Checked

section Head

variable {m : MachO} {p : Plan} {commands : List Command}
  (fits : HeadFits m p commands) (aligned : p.linkedit.fileoff % PAGE = 0)

include fits aligned

theorem page_le_fileoff : 0x4000 ≤ p.linkedit.fileoff := by
  have positive := fits.positive
  unfold PAGE at aligned
  omega

/-- Each part written to the head leaves its length. -/
theorem lengths_headed :
    let start := m.data.take p.linkedit.fileoff
    let first := overwrite start 16 (toLittleEndian 4 commands.length)
    let second := overwrite first 20 (toLittleEndian 4 (lengths commands))
    let third := overwrite second HEADER_SIZE (written commands)
    start.length = p.linkedit.fileoff ∧ first.length = p.linkedit.fileoff ∧
      second.length = p.linkedit.fileoff ∧ third.length = p.linkedit.fileoff := by
  have page := page_le_fileoff fits aligned
  have inside := fits.inside
  have newEnd := fits.newEnd
  intro start first second third
  have isStart : start.length = p.linkedit.fileoff := by
    rw [List.length_take]
    omega
  have isFirst : first.length = p.linkedit.fileoff :=
    (length_overwrite (by rw [length_toLittleEndian, isStart]; omega)).trans isStart
  have isSecond : second.length = p.linkedit.fileoff :=
    (length_overwrite (by rw [length_toLittleEndian, isFirst]; omega)).trans isFirst
  exact ⟨isStart, isFirst, isSecond,
    (length_overwrite (by rw [length_written, isSecond]; omega)).trans isSecond⟩

/-- In front of the commands only the counts are new. -/
theorem slice?_headed_of_lt {start stop : Nat} (before : stop ≤ 16) :
    slice? (headed m p commands) start stop = slice? m.data start stop := by
  have page := page_le_fileoff fits aligned
  obtain ⟨isStart, isFirst, isSecond, isThird⟩ := lengths_headed fits aligned
  have inside := fits.inside
  have newEnd := fits.newEnd
  have oldEnd := fits.oldEnd
  unfold HEADER_SIZE at newEnd oldEnd
  unfold headed
  rw [slice?_overwrite_of_apart (by rw [List.length_replicate, isThird]; unfold HEADER_SIZE; omega)
      (Or.inl (by unfold HEADER_SIZE; omega)),
    slice?_overwrite_of_apart (by rw [length_written, isSecond]; unfold HEADER_SIZE; omega)
      (Or.inl (by unfold HEADER_SIZE; omega)),
    slice?_overwrite_of_apart (by rw [length_toLittleEndian, isFirst]; omega) (Or.inl (by omega)),
    slice?_overwrite_of_apart (by rw [length_toLittleEndian, isStart]; omega) (Or.inl (by omega))]
  refine slice?_congr (by omega) (by omega) fun i _ early => ?_
  rw [List.getElem?_take_of_lt (by omega)]

theorem u32?_headed_ncmds (few : commands.length < 2 ^ 32) :
    u32? (headed m p commands) 16 = some commands.length := by
  have page := page_le_fileoff fits aligned
  obtain ⟨isStart, isFirst, isSecond, isThird⟩ := lengths_headed fits aligned
  have newEnd := fits.newEnd
  have oldEnd := fits.oldEnd
  unfold HEADER_SIZE at newEnd oldEnd
  rw [← @u32?_overwrite (m.data.take p.linkedit.fileoff) 16 _ (by omega) few]
  unfold u32? headed
  rw [slice?_overwrite_of_apart (by rw [List.length_replicate, isThird]; unfold HEADER_SIZE; omega)
      (Or.inl (by unfold HEADER_SIZE; omega)),
    slice?_overwrite_of_apart (by rw [length_written, isSecond]; unfold HEADER_SIZE; omega)
      (Or.inl (by unfold HEADER_SIZE; omega)),
    slice?_overwrite_of_apart (by rw [length_toLittleEndian, isFirst]; omega) (Or.inl (by omega))]

theorem u32?_headed_sizeofcmds (small : lengths commands < 2 ^ 32) :
    u32? (headed m p commands) 20 = some (lengths commands) := by
  have page := page_le_fileoff fits aligned
  obtain ⟨isStart, isFirst, isSecond, isThird⟩ := lengths_headed fits aligned
  have newEnd := fits.newEnd
  have oldEnd := fits.oldEnd
  unfold HEADER_SIZE at newEnd oldEnd
  rw [← @u32?_overwrite _ 20 _ (by rw [isFirst]; omega) small]
  unfold u32? headed
  rw [slice?_overwrite_of_apart (by rw [List.length_replicate, isThird]; unfold HEADER_SIZE; omega)
      (Or.inl (by unfold HEADER_SIZE; omega)),
    slice?_overwrite_of_apart (by rw [length_written, isSecond]; unfold HEADER_SIZE; omega)
      (Or.inl (by unfold HEADER_SIZE; omega))]

/-- The commands stand behind the header. -/
theorem slice?_headed_commands :
    slice? (headed m p commands) HEADER_SIZE (HEADER_SIZE + lengths commands) =
      some (written commands) := by
  obtain ⟨isStart, isFirst, isSecond, isThird⟩ := lengths_headed fits aligned
  have newEnd := fits.newEnd
  have oldEnd := fits.oldEnd
  unfold headed
  rw [slice?_overwrite_of_apart (by rw [List.length_replicate, isThird]; omega) (Or.inl le_rfl),
    ← length_written, slice?_overwrite (by rw [length_written, isSecond]; omega)]

/-- Behind the old and the new commands the head is the file. -/
theorem getElem?_headed_of_le {i : Nat} (behindNew : HEADER_SIZE + lengths commands ≤ i)
    (behindOld : HEADER_SIZE + m.header.sizeofcmds ≤ i) (inside : i < p.linkedit.fileoff) :
    (headed m p commands)[i]? = m.data[i]? := by
  have page := page_le_fileoff fits aligned
  obtain ⟨isStart, isFirst, isSecond, isThird⟩ := lengths_headed fits aligned
  have newEnd := fits.newEnd
  have oldEnd := fits.oldEnd
  have late : 32 ≤ i := by
    unfold HEADER_SIZE at behindNew
    omega
  unfold headed
  rw [getElem?_overwrite_of_apart (by rw [List.length_replicate, isThird]; omega)
      (Or.inr (by rw [List.length_replicate]; omega)),
    getElem?_overwrite_of_apart (by rw [length_written, isSecond]; omega)
      (Or.inr (by rw [length_written]; omega)),
    getElem?_overwrite_of_apart (by rw [length_toLittleEndian, isFirst]; omega)
      (Or.inr (by rw [length_toLittleEndian]; omega)),
    getElem?_overwrite_of_apart (by rw [length_toLittleEndian, isStart]; omega)
      (Or.inr (by rw [length_toLittleEndian]; omega)),
    List.getElem?_take_of_lt inside]

end Head

section Patching

variable {m : MachO} {p : Plan} {patches : List (Nat × Nat)} {out : List UInt8}

/-- Two patches are of one word or of words that do not overlap. -/
def SameOrApart (m : MachO) (one other : Nat × Nat) : Prop :=
  ∀ off off', spotIn m.segments one.1 = some off → spotIn m.segments other.1 = some off' →
    off = off' ∨ off + 4 ≤ off' ∨ off' + 4 ≤ off

theorem patched_of_spot {patch : Nat × Nat} {off : Nat}
    (isSpot : spotIn m.segments patch.1 = some off) :
    patched m out patch = overwrite out off (toLittleEndian 4 patch.2) := by
  unfold patched
  rw [isSpot]

theorem length_foldl_patched (length : out.length = p.linkedit.fileoff)
    (placed : ∀ patch ∈ patches, Placed m p patch) :
    (patches.foldl (patched m) out).length = p.linkedit.fileoff := by
  induction patches generalizing out with
  | nil => exact length
  | cons patch patches inductionHypothesis =>
      obtain ⟨here, later⟩ := List.forall_mem_cons.mp placed
      exact inductionHypothesis (length_patched length here) later

/-- What no patch covers stays. -/
theorem slice?_foldl_patched_of_apart (length : out.length = p.linkedit.fileoff)
    (placed : ∀ patch ∈ patches, Placed m p patch) {start stop : Nat}
    (apart : ∀ patch ∈ patches, ∀ off, spotIn m.segments patch.1 = some off →
      stop ≤ off ∨ off + 4 ≤ start) :
    slice? (patches.foldl (patched m) out) start stop = slice? out start stop := by
  induction patches generalizing out with
  | nil => rfl
  | cons patch patches inductionHypothesis =>
      obtain ⟨here, later⟩ := List.forall_mem_cons.mp placed
      obtain ⟨apartHere, apartLater⟩ := List.forall_mem_cons.mp apart
      obtain ⟨off, isSpot, inside⟩ := here
      rw [List.foldl_cons, inductionHypothesis (length_patched length ⟨off, isSpot, inside⟩) later
        apartLater, patched_of_spot isSpot,
        slice?_overwrite_of_apart (by rw [length_toLittleEndian]; omega)
          (by rw [length_toLittleEndian]; exact apartHere off isSpot)]

theorem getElem?_foldl_patched_of_apart (length : out.length = p.linkedit.fileoff)
    (placed : ∀ patch ∈ patches, Placed m p patch) {i : Nat}
    (apart : ∀ patch ∈ patches, ∀ off, spotIn m.segments patch.1 = some off →
      i < off ∨ off + 4 ≤ i) :
    (patches.foldl (patched m) out)[i]? = out[i]? := by
  induction patches generalizing out with
  | nil => rfl
  | cons patch patches inductionHypothesis =>
      obtain ⟨here, later⟩ := List.forall_mem_cons.mp placed
      obtain ⟨apartHere, apartLater⟩ := List.forall_mem_cons.mp apart
      obtain ⟨off, isSpot, inside⟩ := here
      rw [List.foldl_cons, inductionHypothesis (length_patched length ⟨off, isSpot, inside⟩) later
        apartLater, patched_of_spot isSpot,
        getElem?_overwrite_of_apart (by rw [length_toLittleEndian]; omega)
          (by rw [length_toLittleEndian]; exact apartHere off isSpot)]

/-- The last patch of a word is what the word reads. -/
theorem slice?_foldl_patched_last {before after : List (Nat × Nat)} {patch : Nat × Nat} {off : Nat}
    (length : out.length = p.linkedit.fileoff)
    (placed : ∀ other ∈ before ++ patch :: after, Placed m p other)
    (apart : ∀ later ∈ after, SameOrApart m patch later)
    (isSpot : spotIn m.segments patch.1 = some off)
    (isLast : ∀ later ∈ after, spotIn m.segments later.1 ≠ some off) :
    slice? ((before ++ patch :: after).foldl (patched m) out) off (off + 4) =
      some (toLittleEndian 4 patch.2) := by
  have placedBefore : ∀ patch ∈ before, Placed m p patch := fun patch present =>
    placed patch (List.mem_append_left _ present)
  have here : Placed m p patch := placed patch (by simp)
  have placedAfter : ∀ patch ∈ after, Placed m p patch := fun later present =>
    placed later (by simp [present])
  have length := length_foldl_patched length placedBefore
  obtain ⟨off', isSpot', inside⟩ := here
  obtain rfl := Option.some.inj (isSpot.symm.trans isSpot')
  rw [List.foldl_append, List.foldl_cons, slice?_foldl_patched_of_apart
    (length_patched length ⟨off, isSpot, inside⟩) placedAfter, patched_of_spot isSpot]
  · have := @slice?_overwrite _ (before.foldl (patched m) out)
      (toLittleEndian 4 patch.2) off (by rw [length_toLittleEndian]; omega)
    rwa [length_toLittleEndian] at this
  · intro later present off' isOther
    have := isLast later present
    rcases apart later present off off' isSpot isOther with rfl | before | after
    · exact absurd isOther this
    · exact Or.inl before
    · exact Or.inr after

end Patching

section Assembled

variable {m : MachO} {p : Plan} {stubText out : List UInt8}
  (length : out.length = p.linkedit.fileoff) (inserted : p.inserted = pageUp stubText.length)

include length inserted

theorem length_middle : (out ++ stubText ++
    List.replicate (p.inserted - stubText.length) (0 : UInt8)).length =
      p.linkedit.fileoff + p.inserted := by
  have := le_pageUp stubText.length
  rw [List.length_append, List.length_append, List.length_replicate]
  omega

theorem length_assembled (rest : RestFits m p) :
    (assembled m p stubText out).length =
      p.linkedit.fileoff + p.inserted + p.newLinkeditSize := by
  unfold RestFits at rest
  unfold assembled
  rw [List.length_append, length_middle length inserted, List.length_take, List.length_drop]
  omega

theorem slice?_assembled_front {start stop : Nat} (inside : stop ≤ p.linkedit.fileoff) :
    slice? (assembled m p stubText out) start stop = slice? out start stop := by
  have middle := length_middle length inserted
  unfold assembled
  rw [slice?_append_left (by omega), List.append_assoc, slice?_append_left (by omega)]

theorem getElem?_assembled_front {i : Nat} (inside : i < p.linkedit.fileoff) :
    (assembled m p stubText out)[i]? = out[i]? := by
  have middle := length_middle length inserted
  unfold assembled
  rw [List.getElem?_append_left (by omega), List.append_assoc,
    List.getElem?_append_left (by omega)]

/-- The new segment is the text, filled up with zeros. -/
theorem slice?_assembled_stub :
    slice? (assembled m p stubText out) p.linkedit.fileoff (p.linkedit.fileoff + p.inserted) =
      some (stubText ++ List.replicate (p.inserted - stubText.length) 0) := by
  have middle := length_middle length inserted
  have more := le_pageUp stubText.length
  unfold assembled
  rw [slice?_append_left (by omega), List.append_assoc,
    slice?_append_right (by omega) (by omega), length, Nat.sub_self, Nat.add_sub_cancel_left]
  have whole : (stubText ++ List.replicate (p.inserted - stubText.length) (0 : UInt8)).length =
      p.inserted := by
    rw [List.length_append, List.length_replicate]
    omega
  rw [slice?_of_le (Nat.zero_le _) (by omega), List.drop_zero, Nat.sub_zero,
    List.take_of_length_le (by omega)]

/-- Behind it stands what is left of `__LINKEDIT`. -/
theorem slice?_assembled_rest (rest : RestFits m p) {start stop : Nat} (ordered : start ≤ stop)
    (late : p.linkedit.fileoff ≤ start)
    (inside : stop ≤ p.linkedit.fileoff + p.newLinkeditSize) :
    slice? (assembled m p stubText out) (start + p.inserted) (stop + p.inserted) =
      slice? m.data start stop := by
  have middle := length_middle length inserted
  unfold RestFits at rest
  unfold assembled
  rw [slice?_append_right (by omega) (by omega), middle, slice?_of_le (by omega)
    (by rw [List.length_take, List.length_drop]; omega), slice?_of_le ordered (by omega)]
  congr 1
  rw [List.drop_take, List.take_take, List.drop_drop]
  congr 1
  · omega
  · congr 1
    omega

end Assembled

end Macho

end Derp

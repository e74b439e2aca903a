import Derp.Macho.Frame
import Derp.Rewrite.Placement

/-!
# Rooms for the shared body

What is written is well placed exactly when every room has space for the shared
body, which goes to each of them before anything is known to fit.
-/

namespace Derp

namespace Rewrite

open Outcome Slices Macho

variable
  {m : MachO}
  {opts : Options}
  {placed : List Placement}

/-- An attempt that does not come off leaves nothing behind. -/
def Undone (attempt : Emit Unit) : Prop :=
  ∀ b : Builder, b.at_ < b.areas.length →
    match attempt b with
    | .ok _ b' => b'.area.fitting = false → b'.truncate b.mark = b
    | .error _ b' => b'.truncate b.mark = b

theorem undone_of_attempts {attempt : Emit Unit} {plan : Area → Option Trampoline} {site : Nat}
    (attempts : ∀ b : Builder, b.at_ < b.areas.length →
      Attempts b site (attempt b) (plan b.area)) : Undone attempt := by
  intro b inside
  have result := attempts b inside
  cases planned : plan b.area with
  | none =>
      rw [planned] at result
      obtain ⟨e, code, patches, sites, failed⟩ := result
      rw [failed]
      exact Builder.truncate_wrote inside
  | some t =>
      rw [planned] at result
      have placed : attempt b = .ok () (b.place site t) := result
      rw [placed]
      exact fun _ => Builder.truncate_wrote inside

/-- What has been written is where it may be.  No two patches are of one address: a site's
is a word of a function that is listed and no data, a room's is inside a room.  Every
word of an area is of its shared body or of a trampoline, whose words are inside what
the area may hold and whose branches lead where they may; the shared body's lead into
itself.  And an attempt that does not come off leaves nothing behind. -/
structure WellPlaced [Build] (m : MachO) (h : Hooked) : Prop where
  distinct : (h.hooking.b.allPatches.map Prod.fst).Nodup
  sites : ∀ patch ∈ h.hooking.b.patches, ∃ f ∈ h.ranges.functions, InFunction h.dic f patch.1
  rooms : ∀ a ∈ h.hooking.b.areas.tail, ∀ patch ∈ a.patches, ∃ room ∈ h.ranges.rooms,
    room.1 ≤ patch.1 ∧ patch.1 + 4 ≤ room.2
  trampolines : ∃ segment textBase placed,
    Arranged m (Builder.new segment h.ranges.rooms textBase) h.hooking.b placed
  shared : ∀ (a : Area) k w, sharedBody[k]? = some w →
    (decode w (a.wordAddr k)).register = none ∧
      ∀ target, (decode w (a.wordAddr k)).leadsTo = some target →
        ∃ j < sharedBody.length, target = a.wordAddr j
  undone : (∀ site guard call tail, Undone (stubOrFar site guard call tail)) ∧
    ∀ site rt, Undone (counterBody site rt)

/-- The shared body branches within itself only. -/
theorem leads_sharedBody (a : Area) (k w : Nat) (isWord : sharedBody[k]? = some w) :
    (decode w (a.wordAddr k)).register = none ∧
      ∀ target, (decode w (a.wordAddr k)).leadsTo = some target →
        ∃ j < sharedBody.length, target = a.wordAddr j := by
  have inside : k < sharedBody.length := (List.getElem?_eq_some_iff.mp isWord).1
  have plain : ∀ {w pc : Nat}, (decode w 0).Plain → (decode w pc).register = none ∧
      ∀ target, (decode w pc).leadsTo = some target →
        ∃ j < sharedBody.length, target = a.wordAddr j := by
    intro w pc isPlain
    have isPlain := plain_decode isPlain pc
    refine ⟨isPlain.register, fun target isTarget => ?_⟩
    rw [isPlain.leadsTo] at isTarget
    cases isTarget
  -- A branch by so many words
  have branch : ∀ {i j w : Nat} {k : Int} {c : Class}, j < sharedBody.length → (j : Int) = i + k →
      decode w (a.wordAddr i) = c → c.register = none →
        c.leadsTo = some (((a.wordAddr i + k * 4 : Int) % 2 ^ 64).toNat) →
          (decode w (a.wordAddr i)).register = none ∧
            ∀ target, (decode w (a.wordAddr i)).leadsTo = some target →
              ∃ j < sharedBody.length, target = a.wordAddr j := by
    rintro i j w k c within apart rfl noRegister leads
    refine ⟨noRegister, fun target isTarget => ⟨j, within, ?_⟩⟩
    obtain rfl := Option.some.inj (leads.symm.trans isTarget)
    unfold Area.wordAddr
    omega
  match k, isWord, inside with
  | 0, isWord, _ => obtain rfl := Option.some.inj isWord; exact plain (by decide)
  | 1, isWord, _ => obtain rfl := Option.some.inj isWord; exact plain (by decide)
  | 2, isWord, _ => obtain rfl := Option.some.inj isWord; exact plain (by decide)
  | 3, isWord, _ => obtain rfl := Option.some.inj isWord; exact plain (by decide)
  | 4, isWord, _ => obtain rfl := Option.some.inj isWord; exact plain (by decide)
  | 5, isWord, _ =>
      obtain rfl := Option.some.inj isWord
      exact branch (j := 8) (k := 3) (by decide) (by decide) rfl rfl rfl
  | 6, isWord, _ => obtain rfl := Option.some.inj isWord; exact plain (by decide)
  | 7, isWord, _ => obtain rfl := Option.some.inj isWord; exact plain (by decide)
  | 8, isWord, _ => obtain rfl := Option.some.inj isWord; exact plain (by decide)
  | 9, isWord, _ => obtain rfl := Option.some.inj isWord; exact plain (by decide)
  | 10, isWord, _ =>
      obtain rfl := Option.some.inj isWord
      exact branch (j := 12) (k := 2) (by decide) (by decide) rfl rfl rfl
  | 11, isWord, _ => obtain rfl := Option.some.inj isWord; exact plain (by decide)
  | 12, isWord, _ => obtain rfl := Option.some.inj isWord; exact plain (by decide)
  | 13, isWord, _ =>
      obtain rfl := Option.some.inj isWord
      exact branch (j := 6) (k := -7) (by decide) (by decide) rfl rfl rfl

section Rooms

variable {rooms : List (Nat × Nat)} {segment textBase : Nat} {b : Builder}

/-- The areas behind the segment are the rooms. -/
theorem Arranged.room [Build] (arranged : Arranged m (Builder.new segment rooms textBase) b placed) :
    b.areas.tail.length = rooms.length ∧ ∀ (i : Nat) a, b.areas.tail[i]? = some a →
      ∃ room, rooms[i]? = some room ∧ a.base = room.1 ∧ a.capacity = some (room.2 - room.1) := by
  have frames := arranged.frames
  rw [Builder.new_eq] at frames
  have tails := congrArg List.tail frames
  rw [← List.map_tail] at tails
  simp only [List.map_cons, List.tail_cons, List.map_map] at tails
  refine ⟨by simpa using congrArg List.length tails, fun i a isArea => ?_⟩
  have same := congrArg (·[i]?) tails
  simp only [List.getElem?_map, isArea, Option.map_some] at same
  obtain ⟨room, isRoom, same⟩ := Option.map_eq_some_iff.mp same.symm
  have base := congrArg Area.base same
  have capacity := congrArg Area.capacity same
  exact ⟨room, isRoom, base.symm, capacity.symm⟩

/-- An area behind the segment starts with the shared body, and what else it holds fits. -/
theorem Arranged.length_le [Build] (arranged : Arranged m (Builder.new segment rooms textBase) b placed)
    {i cap : Nat} {a : Area} (isArea : b.areas[i]? = some a) (isCap : a.capacity = some cap) :
    sharedBody.length ≤ a.code.length ∧
      (a.code.length = sharedBody.length ∨ a.code.length * 4 ≤ cap) := by
  have shared := congrArg List.length (arranged.shared i a isArea)
  rw [List.length_take] at shared
  refine ⟨by omega, ?_⟩
  obtain alone | more := Nat.eq_or_lt_of_le (show sharedBody.length ≤ a.code.length by omega)
  · exact Or.inl alone.symm
  · -- The last word is of a trampoline, which fits
    obtain ⟨p, present, rfl, past, last⟩ :=
      arranged.covered i a (a.code.length - 1) isArea (by omega) (by omega)
    obtain ⟨a', isArea', stands⟩ := arranged.stands p present
    obtain rfl := Option.some.inj (isArea.symm.trans isArea')
    have := stands.fits cap isCap
    exact Or.inr (by omega)

theorem map_fst_patches (a : Area) :
    a.patches.map Prod.fst = (List.range a.code.length).map a.wordAddr := by
  refine List.ext_getElem? fun i => ?_
  unfold Area.patches
  rw [List.getElem?_map, List.getElem?_mapIdx, List.getElem?_map, Option.map_map]
  obtain inside | past := Nat.lt_or_ge i a.code.length
  · rw [List.getElem?_eq_getElem inside, List.getElem?_range inside]
    rfl
  · rw [List.getElem?_eq_none past, List.getElem?_eq_none (by simpa using past)]
    rfl

/-- With space for the shared body in it, a room holds all its words. -/
theorem wordAddr_of_room [Build] {stop : Nat} {ranges : Ranges} (sorted : ranges.Sorted stop [])
    (small : stop < 2 ^ 64)
    (arranged : Arranged m (Builder.new segment ranges.rooms textBase) b placed)
    {i k : Nat} {a : Area} {room : Nat × Nat} (isArea : b.areas.tail[i]? = some a)
    (isRoom : ranges.rooms[i]? = some room) (roomy : 56 ≤ room.2 - room.1)
    (inside : k < a.code.length) :
    a.wordAddr k = room.1 + k * 4 ∧ room.1 + k * 4 + 4 ≤ room.2 := by
  obtain ⟨room', isRoom', base, capacity⟩ := arranged.room.2 i a isArea
  obtain rfl := Option.some.inj (isRoom.symm.trans isRoom')
  rw [List.getElem?_tail] at isArea
  have fits := (arranged.length_le isArea capacity).2
  have within := sorted.each room (Or.inr (List.mem_of_getElem? isRoom))
  have width : sharedBody.length = 14 := rfl
  have past : room.1 + k * 4 + 4 ≤ room.2 := by omega
  refine ⟨?_, past⟩
  unfold Area.wordAddr
  rw [base, Nat.mod_eq_of_lt (by omega)]

/-- The patches of two rooms, or of a room and a function, are apart. -/
theorem nodup_allPatches [Build] {stop : Nat} {ranges : Ranges} (sorted : ranges.Sorted stop [])
    (small : stop < 2 ^ 64)
    (arranged : Arranged m (Builder.new segment ranges.rooms textBase) b placed)
    (sited : Sited dic ranges.functions [] placed)
    (roomy : ∀ room ∈ ranges.rooms, 56 ≤ room.2 - room.1) :
    (b.allPatches.map Prod.fst).Nodup := by
  have words := fun i k a room isArea isRoom => @wordAddr_of_room m placed segment textBase b _ stop
    ranges sorted small arranged i k a room isArea isRoom
      (roomy room (List.mem_of_getElem? isRoom))
  have ofRoom := arranged.room
  unfold Builder.allPatches
  rw [List.map_append, List.map_flatMap]
  refine List.Nodup.append ?_ (List.nodup_flatMap.mpr ⟨fun a isArea => ?_, ?_⟩) ?_
  · rw [arranged.patches, List.map_map]
    exact sited.ascending.imp Nat.ne_of_lt
  · obtain ⟨i, isArea⟩ := List.mem_iff_getElem?.mp isArea
    obtain ⟨room, isRoom, -, -⟩ := ofRoom.2 i a isArea
    rw [map_fst_patches]
    refine List.Nodup.map_on (fun k inside l inside' same => ?_) List.nodup_range
    have first := (words i k a room isArea isRoom (List.mem_range.mp inside)).1
    have second := (words i l a room isArea isRoom (List.mem_range.mp inside')).1
    omega
  · refine List.pairwise_iff_getElem.mpr fun i j hi hj before => ?_
    rw [Function.onFun, map_fst_patches, map_fst_patches]
    intro addr first second
    have isArea := List.getElem?_eq_getElem hi
    have isArea' := List.getElem?_eq_getElem hj
    obtain ⟨room, isRoom, -, -⟩ := ofRoom.2 i _ isArea
    obtain ⟨room', isRoom', -, -⟩ := ofRoom.2 j _ isArea'
    obtain ⟨k, inside, rfl⟩ := List.mem_map.mp first
    obtain ⟨l, inside', same⟩ := List.mem_map.mp second
    have isWord := words i k _ room isArea isRoom (List.mem_range.mp inside)
    have isWord' := words j l _ room' isArea' isRoom' (List.mem_range.mp inside')
    have ordered := List.pairwise_iff_getElem.mp sorted.rooms i j
      (List.getElem?_eq_some_iff.mp isRoom).1 (List.getElem?_eq_some_iff.mp isRoom').1 before
    rw [(List.getElem?_eq_some_iff.mp isRoom).2, (List.getElem?_eq_some_iff.mp isRoom').2]
      at ordered
    omega
  · intro addr site inRoom
    rw [arranged.patches, List.map_map] at site
    obtain ⟨p, present, rfl⟩ := List.mem_map.mp site
    obtain ⟨f, isFunction, isWord⟩ := sited.inside p present
    obtain ⟨a, isArea, inRoom⟩ := List.mem_flatMap.mp inRoom
    obtain ⟨i, isArea⟩ := List.mem_iff_getElem?.mp isArea
    obtain ⟨room, isRoom, -, -⟩ := ofRoom.2 i a isArea
    rw [map_fst_patches] at inRoom
    obtain ⟨k, inside, same⟩ := List.mem_map.mp inRoom
    have isWord' := words i k a room isArea isRoom (List.mem_range.mp inside)
    have apart := sorted.apart f isFunction room (List.mem_of_getElem? isRoom)
    have := isWord.above
    have := isWord.below
    simp only [Function.comp_apply] at same
    omega

/-- Where the shared body does not fit into a room, its words get out of the room, or
two rooms write one word. -/
theorem roomy_of_distinct [Build] {stop : Nat} {ranges : Ranges} (sorted : ranges.Sorted stop [])
    (small : stop < 2 ^ 64)
    (arranged : Arranged m (Builder.new segment ranges.rooms textBase) b placed)
    (distinct : (b.allPatches.map Prod.fst).Nodup)
    (inRooms : ∀ a ∈ b.areas.tail, ∀ patch ∈ a.patches, ∃ room ∈ ranges.rooms,
      room.1 ≤ patch.1 ∧ patch.1 + 4 ≤ room.2)
    {room : Nat × Nat} (isRoom : room ∈ ranges.rooms) : 56 ≤ room.2 - room.1 := by
  by_contra narrow
  obtain ⟨i, isRoom⟩ := List.mem_iff_getElem?.mp isRoom
  have within := sorted.each room (Or.inr (List.mem_of_getElem? isRoom))
  have count := arranged.room.1
  have width : sharedBody.length = 14 := rfl
  have areaOf : ∀ (i : Nat) (room : Nat × Nat), ranges.rooms[i]? = some room →
      ∃ a : Area, b.areas.tail[i]? = some a ∧ a.base = room.1 ∧ 14 ≤ a.code.length := by
    intro i room isRoom
    have inside := (List.getElem?_eq_some_iff.mp isRoom).1
    have isArea := List.getElem?_eq_getElem (show i < b.areas.tail.length by omega)
    obtain ⟨room', isRoom', base, capacity⟩ := arranged.room.2 i _ isArea
    obtain rfl := Option.some.inj (isRoom.symm.trans isRoom')
    refine ⟨_, isArea, base, ?_⟩
    rw [List.getElem?_tail] at isArea
    exact (arranged.length_le isArea capacity).1
  obtain ⟨a, isArea, base, filled⟩ := areaOf i room isRoom
  -- The word at the end of the room
  have patchOf : ∀ (a : Area) k, k < a.code.length → a.wordAddr k ∈ a.patches.map Prod.fst := by
    intro a k inside
    rw [map_fst_patches]
    exact List.mem_map.mpr ⟨k, List.mem_range.mpr inside, rfl⟩
  have last : (room.2 - room.1) / 4 < a.code.length := by omega
  have atEnd : a.wordAddr ((room.2 - room.1) / 4) = room.1 + (room.2 - room.1) / 4 * 4 := by
    unfold Area.wordAddr
    rw [base, Nat.mod_eq_of_lt (by omega)]
  obtain ⟨patch, isPatch, same⟩ := List.mem_map.mp (patchOf a _ last)
  obtain ⟨room', isRoom', above, below⟩ := inRooms a (List.mem_of_getElem? isArea) patch isPatch
  obtain ⟨j, isRoom'⟩ := List.mem_iff_getElem?.mp isRoom'
  have ordered := fun {i j : Nat} {f g : Nat × Nat} (isFirst : ranges.rooms[i]? = some f)
      (isSecond : ranges.rooms[j]? = some g) (before : i < j) => by
    have ordered := List.pairwise_iff_getElem.mp sorted.rooms i j
      (List.getElem?_eq_some_iff.mp isFirst).1 (List.getElem?_eq_some_iff.mp isSecond).1 before
    rwa [(List.getElem?_eq_some_iff.mp isFirst).2, (List.getElem?_eq_some_iff.mp isSecond).2]
      at ordered
  obtain before | rfl | behind := Nat.lt_trichotomy j i
  · have := ordered isRoom' isRoom before
    omega
  · obtain rfl := Option.some.inj (isRoom.symm.trans isRoom')
    omega
  · -- It is the first word of the room behind
    have next := ordered isRoom isRoom' behind
    obtain ⟨a', isArea', base', filled'⟩ := areaOf j room' isRoom'
    have within' := sorted.each room' (Or.inr (List.mem_of_getElem? isRoom'))
    have first : a'.wordAddr 0 = a.wordAddr ((room.2 - room.1) / 4) := by
      rw [atEnd]
      unfold Area.wordAddr
      rw [base', Nat.mod_eq_of_lt (by omega)]
      omega
    unfold Builder.allPatches at distinct
    rw [List.map_append, List.map_flatMap] at distinct
    have apart := (List.nodup_flatMap.mp distinct.of_append_right).2
    obtain ⟨hi, isFirst⟩ := List.getElem?_eq_some_iff.mp isArea
    obtain ⟨hj, isSecond⟩ := List.getElem?_eq_some_iff.mp isArea'
    have disjoint := List.pairwise_iff_getElem.mp apart i j hi hj behind
    rw [isFirst, isSecond] at disjoint
    exact disjoint (patchOf a _ last) (first ▸ patchOf a' 0 (by omega))

end Rooms

section Tables

open Checked

variable {data : List UInt8} (parsed : Parsed data m)

theorem marks_of_dataFits (fits : DataFits m) : ∀ range ∈ marks m, range.1 < 2 ^ 64 := by
  intro range present
  unfold marks at present
  split at present
  · cases present
  · rename_i off size isTable
    obtain ⟨k, early, rfl⟩ := List.mem_map.mp present
    have early := List.mem_range.mp early
    obtain ⟨rel, isRel⟩ := Option.isSome_iff_exists.mp
      (@isSome_u32? m.data (off + 8 * k) (by omega))
    unfold mark
    rw [isRel]
    exact fits off size k rel isTable (by omega) (by omega) isRel

include parsed in
/-- A build with checks gets no further where the tables' sums are no addresses. -/
theorem tablesFit_of_checked {h : Hooked} (hooked : hookAll m opts = ok h) : TablesFit m := by
  obtain ⟨textAddr, -, hooked⟩ := bind_eq_ok.mp hooked
  obtain ⟨ranges, isRanges, hooked⟩ := bind_eq_ok.mp hooked
  obtain ⟨text, -, hooked⟩ := bind_eq_ok.mp hooked
  obtain ⟨segment, -, hooked⟩ := bind_eq_ok.mp hooked
  obtain ⟨dic, isDic, -⟩ := bind_eq_ok.mp hooked
  obtain ⟨text', -, isRanges⟩ := bind_eq_ok.mp isRanges
  obtain ⟨stop, -, isRanges⟩ := bind_eq_ok.mp isRanges
  obtain ⟨starts, isStarts, -⟩ := bind_eq_ok.mp isRanges
  obtain ⟨entries, isEntries, isDic⟩ := bind_eq_ok.mp isDic
  have startsReturn : m.functionStarts.Returns := by
    rw [isStarts]
    exact returns_ok starts
  have dataReturns : m.dataInCode.Returns := by
    rw [isEntries]
    exact returns_ok entries
  refine ⟨(returns_functionStarts fun s present => vmaddr_lt parsed present).mp startsReturn, ?_⟩
  obtain ⟨entries', isEntries', same⟩ :=
    dataInCode_of_fits (marks_of_dataFits (returns_dataInCode.mp dataReturns))
  obtain rfl := ok.inj (isEntries.symm.trans isEntries')
  rw [← same, List.forall_mem_map]
  intro entry present
  obtain ⟨i, isEntry⟩ := List.mem_iff_getElem?.mp present
  obtain ⟨range, -, isRange⟩ := (of_mapM_eq_ok isDic).2 i entry isEntry
  obtain ⟨stop, isStop, -⟩ := bind_eq_ok.mp isRange
  exact (add_eq_ok.mp isStop).1

end Tables

section Rewritten

/-- Each build that has checks gets only to files whose tables' sums are addresses, and
where they are, everything is well placed exactly when every room has space for the
shared body. -/
theorem wellPlaced_iff_roomy [build : Build] {data : List UInt8} (short : data.length < 2 ^ 63)
    (isParsed : MachO.parse data = ok m) {rewritten : Rewritten}
    (aligned : ∀ starts, m.functionStarts = ok starts → ∀ s ∈ starts, s % 4 = 0)
    (isRewritten : rewrite m opts = ok rewritten) :
    ∃ h, hookAll m opts = ok h ∧ rewritten.sites = h.hooking.b.sites ∧
      m.emit h.hooking.b.allPatches (stubText opts h.hooking) = ok rewritten.image ∧
        (Build.checked → TablesFit m) ∧
          (TablesFit m → h.dic = marks m ∧
            (WellPlaced m h ↔ ∀ room ∈ h.ranges.rooms, 56 ≤ room.2 - room.1)) := by
  rw [parse_eq_checked short] at isParsed
  have parsed := (parse_eq_ok short).mp isParsed
  obtain ⟨h, hooked, isRewritten⟩ := bind_eq_ok.mp isRewritten
  obtain ⟨image, emitted, isRewritten⟩ := bind_eq_ok.mp isRewritten
  cases isRewritten
  refine ⟨h, hooked, rfl, emitted, fun isChecked => ?_, fun fits => ⟨dic_eq_marks fits hooked, ?_⟩⟩
  · obtain rfl := Checked.eq_build build isChecked
    exact tablesFit_of_checked parsed hooked
  obtain ⟨⟨stop, small, sorted⟩, segment, textBase, placed, arranged, sited⟩ :=
    placed_hookAll fits.starts aligned hooked
  constructor
  · exact fun wellPlaced room isRoom =>
      roomy_of_distinct sorted small arranged wellPlaced.distinct wellPlaced.rooms isRoom
  · intro roomy
    exact
      { distinct := nodup_allPatches sorted small arranged sited roomy
        sites := fun patch isPatch => by
          rw [arranged.patches] at isPatch
          obtain ⟨p, present, rfl⟩ := List.mem_map.mp isPatch
          exact sited.inside p present
        rooms := fun a isArea patch isPatch => by
          obtain ⟨i, isArea⟩ := List.mem_iff_getElem?.mp isArea
          obtain ⟨room, isRoom, -, -⟩ := arranged.room.2 i a isArea
          have isAddr := List.mem_map_of_mem (f := Prod.fst) isPatch
          rw [map_fst_patches] at isAddr
          obtain ⟨k, inside, same⟩ := List.mem_map.mp isAddr
          have isRoom' := List.mem_of_getElem? isRoom
          have isWord := wordAddr_of_room sorted small arranged isArea isRoom
            (roomy room isRoom') (List.mem_range.mp inside)
          exact ⟨room, isRoom', by omega, by omega⟩
        trampolines := ⟨segment, textBase, placed, arranged⟩
        shared := leads_sharedBody
        undone :=
          ⟨fun site guard call tail =>
              @undone_of_attempts _ (fun a => a.trampoline site guard call tail) site
                fun b inside => attempts_stubOrFar inside site guard call tail,
            fun site rt =>
              @undone_of_attempts _ (fun a => a.counterTrampoline site rt) site
                fun b inside => attempts_counterBody inside site rt⟩ }

end Rewritten

section Files

open Checked

/-- A symbol of the first section. -/
def symbolEntry (strx value : Nat) : List UInt8 :=
  toLittleEndian 4 strx ++ [0x0E, 1, 0, 0] ++ toLittleEndian 8 value

/-- Where the functions start, their symbols and the symbols' names. -/
def tables (n : Nat) : List UInt8 :=
  [0x80, 0x20, UInt8.ofNat n, 0, 0, 0, 0, 0] ++ symbolEntry 1 0x100001000 ++
    symbolEntry 17 (0x100001000 + n) ++
      (0 :: ascii "_rewrite_room_0" ++ 0 :: ascii "_f" ++ [0])

/-- A program with a room of so many bytes, and a function behind it that only branches
to itself. -/
def roomCommands (n : Nat) : List Command :=
  [{ textCommand with bytes := overwrite textCommand.bytes 112 (toLittleEndian 8 (n + 4)) },
    segmentCommand "__LINKEDIT" 0x100004000 0x4000 0x4000 1, symtabCommand, startsCommand]

def roomLater (n : Nat) : List UInt8 :=
  List.replicate (0xED8 + n) 0 ++ (toLittleEndian 4 0x14000000 ++
    (List.replicate (0x2FFC - n) 0 ++ (tables n ++ List.replicate 0x3FC4 0)))

def roomSegments (n : Nat) : List Segment :=
  [{ cmdIndex := 0
     name := ascii "__TEXT"
     vmaddr := 0x100000000
     vmsize := 0x4000
     fileoff := 0
     filesize := 0x4000
     sections :=
      [{ name := ascii "__text", addr := 0x100001000, size := n + 4, offset := 0x1000 }] },
    programLinkedit]

def roomFile (n : Nat) : MachO := saidBy (roomCommands n) (roomLater n) (roomSegments n)

variable {n : Nat} (few : n = 4 ∨ n = 56)

include few in
theorem evaluated_roomCommands :
    (∀ c ∈ roomCommands n, u32? c.bytes 0 = some c.cmd ∧ u32? c.bytes 4 = some c.bytes.length) ∧
      lengths (roomCommands n) = 264 ∧ segmentsOf 0 (roomCommands n) = ok (roomSegments n) ∧
        (tables n).length = 60 := by
  rcases few with rfl | rfl <;> decide +kernel

include few in
theorem length_roomFile : (fileOf (roomCommands n) (roomLater n)).length = 0x8000 := by
  obtain ⟨-, size, -, tables⟩ := evaluated_roomCommands few
  rw [length_fileOf, size, roomLater]
  simp only [List.length_append, List.length_replicate, length_toLittleEndian, tables]
  unfold HEADER_SIZE
  omega

include few in
theorem parse_roomFile :
    MachO.parse (fileOf (roomCommands n) (roomLater n)) = ok (roomFile n) := by
  obtain ⟨framed, size, segments, -⟩ := evaluated_roomCommands few
  refine (parse_eq_ok ?_).mpr (parsed_fileOf (fun c present => ?_) ?_ segments)
  · rw [length_roomFile few]
    decide
  · exact ⟨(framed c present).1, (framed c present).2⟩
  · rw [size]
    decide

include few in
/-- The tables are read where the commands say. -/
theorem slice?_tables {first last : Nat} (ordered : first ≤ last) (inside : last ≤ 60) :
    slice? (roomFile n).data (0x4000 + first) (0x4000 + last) = slice? (tables n) first last := by
  obtain ⟨-, size, -, length⟩ := evaluated_roomCommands few
  have data : (roomFile n).data = (headerBytes (roomCommands n).length (lengths (roomCommands n)) ++
      (written (roomCommands n) ++ (List.replicate (0xED8 + n) 0 ++
        (toLittleEndian 4 0x14000000 ++ List.replicate (0x2FFC - n) 0)))) ++
          (tables n ++ List.replicate 0x3FC4 0) := by
    simp only [roomFile, saidBy, fileOf, roomLater, List.append_assoc]
  have front : (headerBytes (roomCommands n).length (lengths (roomCommands n)) ++
      (written (roomCommands n) ++ (List.replicate (0xED8 + n) 0 ++
        (toLittleEndian 4 0x14000000 ++ List.replicate (0x2FFC - n) 0)))).length = 0x4000 := by
    simp only [List.length_append, List.length_replicate, length_toLittleEndian,
      length_headerBytes, length_written, size]
    unfold HEADER_SIZE
    omega
  rw [data, slice?_append_right (by omega) (by omega), front, Nat.add_sub_cancel_left,
    Nat.add_sub_cancel_left, slice?_append_left (by omega)]

include few in
theorem readWord_roomFile :
    (roomFile n).readWord (0x100001000 + n) = ok (some 0x14000000) := by
  obtain ⟨-, size, -, length⟩ := evaluated_roomCommands few
  have data : (roomFile n).data = (headerBytes (roomCommands n).length (lengths (roomCommands n)) ++
      (written (roomCommands n) ++ List.replicate (0xED8 + n) 0)) ++ toLittleEndian 4 0x14000000 ++
        (List.replicate (0x2FFC - n) 0 ++ (tables n ++ List.replicate 0x3FC4 0)) := by
    simp only [roomFile, saidBy, fileOf, roomLater, List.append_assoc]
  have front : (headerBytes (roomCommands n).length (lengths (roomCommands n)) ++
      (written (roomCommands n) ++ List.replicate (0xED8 + n) 0)).length = 0x1000 + n := by
    simp only [List.length_append, List.length_replicate, length_headerBytes, length_written, size]
    unfold HEADER_SIZE
    omega
  have isOffset : (roomFile n).addrToOffset (0x100001000 + n) = ok (some (0x1000 + n)) := by
    rcases few with rfl | rfl <;> decide
  unfold MachO.readWord
  rw [isOffset, ok_bind]
  dsimp only
  rw [u32At_eq (by omega)]
  unfold u32?
  rw [data, slice?_middle _ _ _ front (by rw [length_toLittleEndian])]
  rfl

include few in
theorem functionStarts_roomFile :
    (roomFile n).functionStarts = ok [0x100001000, 0x100001000 + n] := by
  have isTable : (roomFile n).linkeditData LC_FUNCTION_STARTS = some (0x4000, 8) := by
    rcases few with rfl | rfl <;> decide
  have isText : (roomFile n).segment "__TEXT" = (roomSegments n).head? := by
    rcases few with rfl | rfl <;> decide
  unfold MachO.functionStarts
  rw [isTable, ofOption_some, ok_bind]
  dsimp only
  rw [add_of_lt (by decide), ok_bind, show 0x4000 = 0x4000 + 0 from rfl,
    slice?_tables few (Nat.zero_le _) (by decide), isText]
  rcases few with rfl | rfl <;> decide

include few in
theorem symbols_roomFile :
    (roomFile n).symbols = ok [(0x100001000, ascii "_rewrite_room_0"),
      (0x100001000 + n, ascii "_f")] := by
  have isCommand : (roomFile n).command LC_SYMTAB = some symtabCommand := by
    rcases few with rfl | rfl <;> decide
  have isIndex : (roomFile n).textSectionIndex = ok (some 1) := by
    rcases few with rfl | rfl <;> decide
  have fields : (u32? symtabCommand.bytes 8).getD 0 = 0x4008 ∧
      (u32? symtabCommand.bytes 12).getD 0 = 2 ∧ (u32? symtabCommand.bytes 16).getD 0 = 0x4028 ∧
        (u32? symtabCommand.bytes 20).getD 0 = 20 := by decide
  have strings := slice?_tables few (show 40 ≤ 60 by decide) le_rfl
  simp only [Nat.reduceAdd] at strings
  have first : (roomFile n).symbolAt 1 0x4008 ((slice? (tables n) 40 60).getD []) 0 =
      ok (some (0x100001000, ascii "_rewrite_room_0")) := by
    have entry := slice?_tables few (show 8 ≤ 24 by decide) (by decide)
    simp only [Nat.reduceAdd] at entry
    unfold MachO.symbolAt
    rw [add_of_lt (by decide), ok_bind, add_of_lt (by decide), ok_bind]
    simp only [Nat.reduceAdd, Nat.reduceMul, entry]
    rcases few with rfl | rfl <;> decide
  have second : (roomFile n).symbolAt 1 0x4008 ((slice? (tables n) 40 60).getD []) 1 =
      ok (some (0x100001000 + n, ascii "_f")) := by
    have entry := slice?_tables few (show 24 ≤ 40 by decide) (by decide)
    simp only [Nat.reduceAdd] at entry
    unfold MachO.symbolAt
    rw [add_of_lt (by decide), ok_bind, add_of_lt (by decide), ok_bind]
    simp only [Nat.reduceAdd, Nat.reduceMul, entry]
    rcases few with rfl | rfl <;> decide
  unfold MachO.symbols
  rw [isCommand]
  dsimp only
  rw [isIndex, ok_bind, fields.1, fields.2.1, fields.2.2.1, fields.2.2.2]
  dsimp only
  rw [add_of_lt (by decide), ok_bind, show 0x4028 + 20 = 0x403C by decide, strings,
    show List.range 2 = [0, 1] from rfl,
    List.mapM_cons, first, ok_bind, List.mapM_cons, second, ok_bind, List.mapM_nil]
  refine congrArg ok ?_
  refine List.mergeSort_of_pairwise ?_
  rcases few with rfl | rfl <;> decide

include few in
theorem functionRanges_roomFile :
    functionRanges (roomFile n) = ok
      { functions := [(0x100001000 + n, 0x100001000 + n + 4)]
        rooms := [(0x100001000, 0x100001000 + n)] } := by
  have isText : (roomFile n).textSection =
      ok { name := ascii "__text", addr := 0x100001000, size := n + 4, offset := 0x1000 } := by
    rcases few with rfl | rfl <;> decide
  unfold functionRanges
  rw [isText, ok_bind, add_of_lt (by dsimp only; omega), ok_bind, functionStarts_roomFile few,
    ok_bind, symbols_roomFile few, ok_bind]
  rcases few with rfl | rfl <;> decide

/-- What is hooked in it. -/
def roomHooking (n : Nat) : Hooking :=
  ({ b := Builder.new 0x100004020 [(0x100001000, 0x100001000 + n)] 0x100001000
     stats := { rooms := 1 }
     rng := Rng.seedFromU64 0 } : Hooking).hookFunction {} [] (0x100001000 + n) [0x14000000]

include few in
theorem hookAll_roomFile :
    hookAll (roomFile n) {} = ok
      { ranges :=
          { functions := [(0x100001000 + n, 0x100001000 + n + 4)]
            rooms := [(0x100001000, 0x100001000 + n)] }
        dic := []
        hooking := roomHooking n } := by
  have isText : (roomFile n).textSection =
      ok { name := ascii "__text", addr := 0x100001000, size := n + 4, offset := 0x1000 } := by
    rcases few with rfl | rfl <;> decide
  have isLayout : (roomFile n).planLayout = ok 0x100004000 := by
    rcases few with rfl | rfl <;> decide
  have isDic : dicOf (roomFile n) = ok [] := by
    have none : (roomFile n).linkeditData LC_DATA_IN_CODE = none := by
      rcases few with rfl | rfl <;> decide
    unfold dicOf MachO.dataInCode
    rw [none]
    rfl
  have isWords : wordsOf (roomFile n) (0x100001000 + n) (0x100001000 + n + 4) =
      ok [0x14000000] := by
    unfold wordsOf
    rw [show (0x100001000 + n + 4 - (0x100001000 + n)) / 4 = 1 by omega,
      show List.range 1 = [0] from rfl, List.mapM_cons]
    simp only [Nat.zero_mul, Nat.add_zero, readWord_roomFile few, ok_bind]
    rfl
  unfold hookAll
  rw [isLayout, ok_bind, functionRanges_roomFile few, ok_bind, isText, ok_bind,
    add_of_lt (by decide), ok_bind]
  dsimp only
  rw [isDic, ok_bind, List.foldlM_cons]
  unfold hookRange
  rw [isWords, ok_bind, ok_bind, List.foldlM_nil]
  rfl

include few in
/-- The patches are of words in front of `__LINKEDIT`. -/
theorem evaluated_roomHooking :
    (roomHooking n).b.allPatches.all (fun patch => patch.1 < 2 ^ 64 ∧
      ((spotIn (roomSegments n) patch.1).map fun off => decide (off + 4 ≤ 0x4000)) = some true) =
        true ∧
      (stubText {} (roomHooking n)).length = 104 := by
  rcases few with rfl | rfl <;> decide

include few in
theorem fits_roomPatch {patch : Nat × Nat} (present : patch ∈ (roomHooking n).b.allPatches) :
    patch.1 < 2 ^ 64 ∧ PatchFits (roomFile n) patch ∧
      Placed (roomFile n) (programPlan 0x4000) patch := by
  have evaluated := List.all_eq_true.mp (evaluated_roomHooking few).1 patch present
  obtain ⟨isAddr, isSpot⟩ := of_decide_eq_true evaluated
  obtain ⟨off, isSpot, inside⟩ := Option.map_eq_some_iff.mp isSpot
  have inside := of_decide_eq_true inside
  refine ⟨isAddr, ⟨fun s isHolder => ?_, fun off' isSpot' => ?_⟩, off, isSpot, inside⟩
  · have present := List.mem_of_find?_eq_some isHolder
    have small : ∀ s ∈ roomSegments n, s.vmaddr + s.vmsize < 2 ^ 64 ∧ s.fileoff < 2 ^ 63 ∧
        s.filesize < 2 ^ 63 := by
      rcases few with rfl | rfl <;> decide
    have := small s present
    exact ⟨this.1, fun early => by omega⟩
  · obtain rfl := Option.some.inj (isSpot.symm.trans isSpot')
    omega

include few in
theorem planned_roomFile :
    Planned (roomFile n) (stubText {} (roomHooking n)) (programPlan 0x4000) where
  isLinkedit := by
    change (roomFile n).segment "__LINKEDIT" = some programLinkedit
    rcases few with rfl | rfl <;> decide
  laidOut := by
    refine ⟨(roomSegments n).head (List.cons_ne_nil _ _), ?_, ⟨by decide, by decide, ?_⟩, ?_, ?_⟩
    · rcases few with rfl | rfl <;> decide
    · rcases few with rfl | rfl <;> decide
    · rcases few with rfl | rfl <;> decide
    · unfold OutOfReach
      rcases few with rfl | rfl <;> decide
  textAddr := rfl
  inserted := by
    rw [(evaluated_roomHooking few).2]
    decide
  signature := by
    have none : (roomFile n).linkeditData LC_CODE_SIGNATURE = none := by
      rcases few with rfl | rfl <;> decide
    intro sigOff sigSize isTable
    rw [none] at isTable
    cases isTable
  unsigned := by
    have none : (roomFile n).linkeditData LC_CODE_SIGNATURE = none := by
      rcases few with rfl | rfl <;> decide
    unfold Unsigned
    rw [none]
    rfl

include few in
theorem emits_roomFile : Emits (roomFile n) (roomHooking n).b.allPatches
    (stubText {} (roomHooking n)) (programPlan 0x4000) [] := by
  have size : (roomFile n).header.sizeofcmds = 264 := (evaluated_roomCommands few).2.1
  have length : (roomFile n).data.length = 0x8000 := length_roomFile few
  have fileoff : (programPlan 0x4000).linkedit.fileoff = 0x4000 := rfl
  have space : headerSpace (roomFile n) = 0xFE0 := by
    have first : firstOffset (roomFile n) = some 0x1000 := by
      rcases few with rfl | rfl <;> decide
    unfold headerSpace HEADER_SIZE
    rw [size, first]
    rfl
  have commands : lengths (emitted (roomFile n) (programPlan 0x4000)) = 336 := by
    rcases few with rfl | rfl <;> decide +kernel
  refine emits_of_room (planned_roomFile few) ?_ (by rw [commands, space]; decide)
    (by rw [length, fileoff]; decide) (by rw [fileoff]; decide)
    (by rw [commands, fileoff]; decide) (by rw [size, fileoff]; decide)
    (fun patch present => (fits_roomPatch few present).2) ?_
  · intro x present isKept
    split_ifs with isLinkedit
    · refine ⟨?_, ?_, ?_⟩
      · decide
      · change 0x4000 + PAGE < 2 ^ 64
        decide
      · decide
    · have small : ∀ x ∈ (roomCommands n).zipIdx, ∀ off ∈ linkeditFields x.1.cmd,
          (u32? x.1.bytes off).getD 0 + 0x4000 < 2 ^ 32 := by
        rcases few with rfl | rfl <;> decide
      exact fun off isField _ => small x present off isField
  · have size : (programPlan 0x4000).newLinkeditSize = 0x4000 := rfl
    unfold RestFits
    omega

include few in
/-- The program is rewritten. -/
theorem rewrite_roomFile : ∃ rewritten, rewrite (roomFile n) {} = ok rewritten := by
  have emitted := (emit_eq_ok ((parse_eq_ok (by rw [length_roomFile few]; decide)).mp
      (parse_roomFile few)) (by rw [length_roomFile few]; decide)
      (fun patch present => (fits_roomPatch few present).1)
      (by rw [(evaluated_roomHooking few).2]; decide)).mpr
    ⟨programPlan 0x4000, [], emits_roomFile few, rfl⟩
  unfold rewrite
  rw [hookAll_roomFile few, ok_bind]
  dsimp only
  rw [emitted, ok_bind]
  exact ⟨_, rfl⟩

include few in
theorem aligned_roomFile (starts : List Nat) (read : (roomFile n).functionStarts = ok starts) :
    ∀ s ∈ starts, s % 4 = 0 := by
  rw [functionStarts_roomFile few] at read
  obtain rfl := ok.inj read
  rcases few with rfl | rfl <;> decide

theorem wellPlaced_iff_roomy_wide :
    MachO.parse (fileOf (roomCommands 56) (roomLater 56)) = ok (roomFile 56) ∧
      ∃ h, hookAll (roomFile 56) {} = ok h ∧ WellPlaced (roomFile 56) h := by
  obtain ⟨rewritten, isRewritten⟩ := rewrite_roomFile (Or.inr rfl)
  have isParsed := parse_roomFile (Or.inr rfl)
  have short : (fileOf (roomCommands 56) (roomLater 56)).length < 2 ^ 63 := by
    rw [length_roomFile (Or.inr rfl)]
    decide
  obtain ⟨h, hooked, -, -, fits, placed⟩ :=
    wellPlaced_iff_roomy short isParsed (aligned_roomFile (Or.inr rfl)) isRewritten
  obtain rfl := ok.inj ((hookAll_roomFile (Or.inr rfl)).symm.trans hooked)
  exact ⟨isParsed, _, hooked, (placed (fits rfl)).2.mpr (by decide)⟩

/-- In a room of one word the shared body is written over the function behind it. -/
theorem not_wellPlaced_narrow :
    MachO.parse (fileOf (roomCommands 4) (roomLater 4)) = ok (roomFile 4) ∧
      (∀ starts, (roomFile 4).functionStarts = ok starts → ∀ s ∈ starts, s % 4 = 0) ∧
        ∃ rewritten h, rewrite (roomFile 4) {} = ok rewritten ∧ hookAll (roomFile 4) {} = ok h ∧
          h.ranges.rooms = [(0x100001000, 0x100001004)] ∧
            h.ranges.functions = [(0x100001004, 0x100001008)] ∧ ¬ WellPlaced (roomFile 4) h := by
  obtain ⟨rewritten, isRewritten⟩ := rewrite_roomFile (Or.inl rfl)
  refine ⟨parse_roomFile (Or.inl rfl), aligned_roomFile (Or.inl rfl), rewritten, _, isRewritten,
    hookAll_roomFile (Or.inl rfl), rfl, rfl, fun wellPlaced => ?_⟩
  have twice : ¬ ((roomHooking 4).b.allPatches.map Prod.fst).Nodup := by decide +kernel
  exact twice wellPlaced.distinct

end Files

end Rewrite

end Derp

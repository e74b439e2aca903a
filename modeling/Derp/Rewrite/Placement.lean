import Derp.Rewrite.Aims
import Derp.Rewrite.Image

/-!
# Where everything is placed

The functions and the rooms of a sorted function table lie one behind the other.
So the sites are words of functions in ascending order, and what an area holds is
its shared body and one trampoline behind the other, each of one site.
-/

namespace Derp

namespace Rewrite

open Outcome Slices Macho

/-! ## The function table -/

section Table

variable {symbols : List (Nat × List UInt8)} {mostlyNamed : Bool} {textAddr stop s : Nat}
  {starts : List Nat} {out : Ranges}

/-- Where no sum of the deltas leaves the addresses, the entries are ascending. -/
theorem pairwise_functionStartsFrom [Build] {rounds addr : Nat} {bytes : List UInt8}
    (fits : addr + (deltas rounds bytes).sum < 2 ^ 64)
    (read : functionStartsFrom rounds bytes addr = ok starts) :
    starts.Pairwise (· < ·) ∧ ∀ s ∈ starts, addr < s := by
  induction rounds generalizing bytes addr starts with
  | zero =>
      cases read
      exact ⟨.nil, fun s present => nomatch present⟩
  | succ rounds ih =>
      unfold functionStartsFrom at read
      unfold deltas at fits
      split at read
      · cases read
        exact ⟨.nil, fun s present => nomatch present⟩
      · obtain ⟨⟨delta, n⟩, isNumber, read⟩ := bind_eq_ok.mp read
        rw [ofOption_eq_ok.mp isNumber] at fits
        dsimp only at read fits
        split at read
        · cases read
          exact ⟨.nil, fun s present => nomatch present⟩
        · rename_i more
          rw [if_neg more, List.sum_cons] at fits
          obtain ⟨next, isNext, read⟩ := bind_eq_ok.mp read
          obtain rfl := ok.inj ((add_of_lt (by omega)).symm.trans isNext)
          obtain ⟨rest, isRest, read⟩ := bind_eq_ok.mp read
          cases read
          obtain ⟨ascending, past⟩ := ih (by omega) isRest
          refine ⟨List.pairwise_cons.mpr ⟨past, ascending⟩, fun s present => ?_⟩
          obtain rfl | later := List.mem_cons.mp present
          · omega
          · have := past s later
            omega

theorem pairwise_functionStarts [Build] {m : MachO} (fits : StartsFit m)
    (read : m.functionStarts = ok starts) : starts.Pairwise (· < ·) := by
  obtain ⟨⟨off, size⟩, isTable, read⟩ := bind_eq_ok.mp read
  have isTable := ofOption_eq_ok.mp isTable
  have bounds := linkeditData_lt isTable
  obtain ⟨stop, isStop, read⟩ := bind_eq_ok.mp read
  obtain rfl := ok.inj ((add_of_lt (by omega)).symm.trans isStop)
  obtain ⟨bytes, isPart, read⟩ := bind_eq_ok.mp read
  obtain ⟨text, isText, read⟩ := bind_eq_ok.mp read
  exact (pairwise_functionStartsFrom (fits off size bytes text isTable (ofOption_eq_ok.mp isPart)
    (ofOption_eq_ok.mp isText)) read).1

/-- The ranges of the entries so far lie one behind the other, in front of the entries
to come. -/
structure Ranges.Sorted (stop : Nat) (starts : List Nat) (out : Ranges) : Prop where
  functions : out.functions.Pairwise fun f g => f.2 ≤ g.1
  rooms : out.rooms.Pairwise fun f g => f.2 ≤ g.1
  apart : ∀ f ∈ out.functions, ∀ room ∈ out.rooms, f.2 ≤ room.1 ∨ room.2 ≤ f.1
  each : ∀ range, range ∈ out.functions ∨ range ∈ out.rooms →
    range.1 < range.2 ∧ range.2 ≤ stop ∧ range.1 % 4 = 0 ∧ ∀ s ∈ starts, range.2 ≤ s

theorem Ranges.Sorted.forget (sorted : out.Sorted stop (s :: starts)) : out.Sorted stop starts :=
  { sorted with
    each := fun range present =>
      have ⟨filled, inside, aligned, ahead⟩ := sorted.each range present
      ⟨filled, inside, aligned, fun s later => ahead s (List.mem_cons_of_mem _ later)⟩ }

/-- A range from the next entry up to the one behind it. -/
theorem Ranges.Sorted.add (sorted : out.Sorted stop (s :: starts))
    (ascending : (s :: starts).Pairwise (· < ·)) (aligned : s % 4 = 0) :
    (out.add symbols mostlyNamed textAddr stop s starts.head?).Sorted stop starts := by
  unfold Ranges.add
  split
  · exact sorted.forget
  · split
    · exact { sorted.forget with }
    · dsimp only
      split
      · exact sorted.forget
      · rename_i filled
        have behind : ∀ range, range ∈ out.functions ∨ range ∈ out.rooms → range.2 ≤ s :=
          fun range present => (sorted.each range present).2.2.2 s List.mem_cons_self
        have isRange : s < min (starts.head?.getD stop) stop ∧
            min (starts.head?.getD stop) stop ≤ stop ∧ s % 4 = 0 ∧
              ∀ t ∈ starts, min (starts.head?.getD stop) stop ≤ t := by
          refine ⟨by omega, Nat.min_le_right _ _, aligned, fun t later => ?_⟩
          refine (Nat.min_le_left _ _).trans ?_
          cases starts with
          | nil => cases later
          | cons next starts =>
              obtain rfl | later := List.mem_cons.mp later
              · exact le_rfl
              · have ascending := (List.pairwise_cons.mp (List.pairwise_cons.mp ascending).2).1
                exact (ascending t later).le
        generalize min (starts.head?.getD stop) stop = e at isRange
        split
        · refine
            { functions := sorted.functions
              rooms := ?_
              apart := ?_
              each := ?_ }
          · refine List.pairwise_append.mpr ⟨sorted.rooms, List.pairwise_singleton _ _, ?_⟩
            rintro range present _ (_ | ⟨_, ⟨⟩⟩)
            exact behind range (Or.inr present)
          · intro f isFunction room present
            obtain old | new := List.mem_append.mp present
            · exact sorted.apart f isFunction room old
            · obtain rfl := List.mem_singleton.mp new
              exact Or.inl (behind f (Or.inl isFunction))
          · rintro range (isFunction | present)
            · exact sorted.forget.each range (Or.inl isFunction)
            · obtain old | new := List.mem_append.mp present
              · exact sorted.forget.each range (Or.inr old)
              · obtain rfl := List.mem_singleton.mp new
                exact isRange
        · refine
            { functions := ?_
              rooms := sorted.rooms
              apart := ?_
              each := ?_ }
          · refine List.pairwise_append.mpr ⟨sorted.functions, List.pairwise_singleton _ _, ?_⟩
            rintro range present _ (_ | ⟨_, ⟨⟩⟩)
            exact behind range (Or.inl present)
          · intro f present room isRoom
            obtain old | new := List.mem_append.mp present
            · exact sorted.apart f old room isRoom
            · obtain rfl := List.mem_singleton.mp new
              exact Or.inr (behind room (Or.inr isRoom))
          · rintro range (present | isRoom)
            · obtain old | new := List.mem_append.mp present
              · exact sorted.forget.each range (Or.inl old)
              · obtain rfl := List.mem_singleton.mp new
                exact isRange
            · exact sorted.forget.each range (Or.inr isRoom)

theorem Ranges.Sorted.addAll (sorted : out.Sorted stop starts)
    (ascending : starts.Pairwise (· < ·)) (aligned : ∀ s ∈ starts, s % 4 = 0) :
    (out.addAll symbols mostlyNamed textAddr stop starts).Sorted stop [] := by
  induction starts generalizing out with
  | nil => exact sorted
  | cons s starts ih =>
      exact ih (sorted.add ascending (aligned s List.mem_cons_self))
        (List.pairwise_cons.mp ascending).2
        fun t later => aligned t (List.mem_cons_of_mem _ later)

/-- Where all entries are words, the ranges are sorted, within the addresses. -/
theorem sorted_functionRanges [Build] {m : MachO} {ranges : Ranges} (fits : StartsFit m)
    (aligned : ∀ starts, m.functionStarts = ok starts → ∀ s ∈ starts, s % 4 = 0)
    (sortedOut : functionRanges m = ok ranges) : ∃ stop < 2 ^ 64, ranges.Sorted stop [] := by
  obtain ⟨text, -, sortedOut⟩ := bind_eq_ok.mp sortedOut
  obtain ⟨stop, isStop, sortedOut⟩ := bind_eq_ok.mp sortedOut
  obtain ⟨starts, isStarts, sortedOut⟩ := bind_eq_ok.mp sortedOut
  obtain ⟨symbols, -, sortedOut⟩ := bind_eq_ok.mp sortedOut
  cases sortedOut
  have empty : ({} : Ranges).Sorted stop starts :=
    { functions := .nil
      rooms := .nil
      apart := fun f present => nomatch present
      each := fun range present => present.elim (fun old => nomatch old) fun old => nomatch old }
  exact ⟨stop, lt_of_add isStop,
    empty.addAll (pairwise_functionStarts fits isStarts) (aligned starts isStarts)⟩

end Table

/-! ## Data in the code -/

/-- Where the data of the entry at a position starts and ends. -/
def mark (data : List UInt8) (base i : Nat) : Nat × Nat :=
  (base + (u32? data i).getD 0, base + (u32? data i).getD 0 + (u16? data (i + 4)).getD 0)

/-- The data in the code, as the file's table has it. -/
def marks (m : MachO) : List (Nat × Nat) :=
  match m.linkeditData LC_DATA_IN_CODE with
  | none => []
  | some (off, size) =>
      (List.range (min (size / 8) ((m.data.length - off) / 8))).map fun k =>
        mark m.data (((m.segment "__TEXT").map (·.vmaddr)).getD 0) (off + 8 * k)

/-- What the tables of a file say are addresses: the function starts, and where data in
the code ends. -/
structure TablesFit (m : MachO) : Prop where
  starts : StartsFit m
  data : ∀ range ∈ marks m, range.2 < 2 ^ 64

section Data

variable [Build] {data : List UInt8} {base limit rounds i : Nat} {m : MachO}

theorem dataInCodeFrom_of_fits (few : i + 8 * rounds ≤ limit) (bounded : limit < 2 ^ 64)
    (fits : ∀ k < min rounds ((data.length - i) / 8), (mark data base (i + 8 * k)).1 < 2 ^ 64) :
    ∃ entries, dataInCodeFrom data base limit rounds i = ok entries ∧
      entries.map (fun entry => (entry.1, entry.1 + entry.2.1)) =
        (List.range (min rounds ((data.length - i) / 8))).map fun k =>
          mark data base (i + 8 * k) := by
  induction rounds generalizing i with
  | zero => exact ⟨[], rfl, by simp⟩
  | succ rounds inductionHypothesis =>
      unfold dataInCodeFrom
      rw [add_of_lt (by omega), ok_bind]
      by_cases inside : i + 8 ≤ limit ∧ i + 8 ≤ data.length
      · have count : min (rounds + 1) ((data.length - i) / 8) =
            min rounds ((data.length - (i + 8)) / 8) + 1 := by omega
        rw [count] at fits ⊢
        obtain ⟨rel, isRel⟩ := Option.isSome_iff_exists.mp
          (@isSome_u32? data i (by omega))
        obtain ⟨len, isLen⟩ := Option.isSome_iff_exists.mp
          (@isSome_u16? data (i + 4) (by omega))
        obtain ⟨kind, isKind⟩ := Option.isSome_iff_exists.mp
          (@isSome_u16? data (i + 6) (by omega))
        have isMark : mark data base i = (base + rel, base + rel + len) := by
          unfold mark
          rw [isRel, isLen, Option.getD_some, Option.getD_some]
        have first := fits 0 (Nat.succ_pos _)
        rw [Nat.mul_zero, Nat.add_zero, isMark] at first
        have place : ∀ k, i + 8 + 8 * k = i + 8 * (k + 1) := fun k => by omega
        obtain ⟨entries, isRest, same⟩ := inductionHypothesis (i := i + 8) (by omega)
          fun k early => by
            rw [place]
            exact fits (k + 1) (Nat.succ_lt_succ early)
        rw [if_pos inside, isRel, unwrap_some, ok_bind, isLen, unwrap_some, ok_bind, isKind,
          unwrap_some, ok_bind, add_of_lt first, ok_bind, isRest, ok_bind]
        refine ⟨_, rfl, ?_⟩
        rw [List.map_cons, same, List.range_succ_eq_map, List.map_cons, List.map_map,
          show i + 8 * 0 = i from rfl, isMark]
        exact congrArg _ (List.map_congr_left fun k _ => by rw [place]; rfl)
      · rw [if_neg inside]
        have none : min (rounds + 1) ((data.length - i) / 8) = 0 := by omega
        rw [none]
        exact ⟨[], rfl, rfl⟩

theorem mapM_ends {entries : List (Nat × Nat × Nat)}
    (ends : ∀ range ∈ entries.map fun entry => (entry.1, entry.1 + entry.2.1), range.2 < 2 ^ 64) :
    (entries.mapM fun entry => do
      let stop ← Outcome.add 64 entry.1 entry.2.1
      ok (entry.1, stop)) =
      (ok (entries.map fun entry => (entry.1, entry.1 + entry.2.1)) :
        Outcome Error (List (Nat × Nat))) := by
  induction entries with
  | nil => rfl
  | cons entry entries inductionHypothesis =>
      rw [List.map_cons, List.forall_mem_cons] at ends
      rw [List.mapM_cons, add_of_lt ends.1, ok_bind, ok_bind, inductionHypothesis ends.2, ok_bind]
      rfl

theorem dataInCode_of_fits (starts : ∀ range ∈ marks m, range.1 < 2 ^ 64) :
    ∃ entries, m.dataInCode = ok entries ∧
      entries.map (fun entry => (entry.1, entry.1 + entry.2.1)) = marks m := by
  unfold marks at starts ⊢
  unfold MachO.dataInCode
  cases isTable : m.linkeditData LC_DATA_IN_CODE with
  | none => exact ⟨[], rfl, rfl⟩
  | some table =>
      obtain ⟨off, size⟩ := table
      have bounds := linkeditData_lt isTable
      rw [isTable] at starts
      dsimp only at starts ⊢
      rw [add_of_lt (by omega), ok_bind]
      exact dataInCodeFrom_of_fits (by omega) (by omega) fun k early =>
        starts _ (List.mem_map_of_mem (List.mem_range.mpr early))

omit [Build] in
theorem le_of_mem_marks {range : Nat × Nat} (present : range ∈ marks m) : range.1 ≤ range.2 := by
  unfold marks at present
  split at present
  · cases present
  · obtain ⟨k, -, rfl⟩ := List.mem_map.mp present
    exact Nat.le_add_right _ _

/-- Where they are addresses, each build reads the ends of the data in the code. -/
theorem dicOf_of_fits (fits : TablesFit m) : dicOf m = ok (marks m) := by
  obtain ⟨entries, isRead, same⟩ := @dataInCode_of_fits _ m fun range present =>
    (le_of_mem_marks present).trans_lt (fits.data range present)
  have ends := fits.data
  rw [← same] at ends ⊢
  unfold dicOf
  rw [isRead, ok_bind, mapM_ends ends]

/-- What is taken for data is what the file's table says. -/
theorem dic_eq_marks {opts : Options} {h : Hooked} (fits : TablesFit m)
    (hooked : hookAll m opts = ok h) : h.dic = marks m := by
  obtain ⟨textAddr, -, hooked⟩ := bind_eq_ok.mp hooked
  obtain ⟨ranges, -, hooked⟩ := bind_eq_ok.mp hooked
  obtain ⟨text, -, hooked⟩ := bind_eq_ok.mp hooked
  obtain ⟨segment, -, hooked⟩ := bind_eq_ok.mp hooked
  obtain ⟨dic, isDic, hooked⟩ := bind_eq_ok.mp hooked
  obtain ⟨hooking, -, hooked⟩ := bind_eq_ok.mp hooked
  cases hooked
  exact ok.inj (isDic.symm.trans (dicOf_of_fits fits))

end Data

/-! ## Trampolines in their areas -/

/-- Where a site's trampoline went. -/
structure Placement where
  area : Nat
  /-- Which word of the area is its first -/
  spot : Nat
  words : List Nat
  site : Nat
  siteWord : Nat
  /-- What the site's own word was -/
  cls : Class

/-- A trampoline stands in an area: behind the shared body and inside what the area may
hold.  Its branches lead where a branch of it may, and its site leads to its start. -/
structure Placement.Stands (p : Placement) (a : Area) : Prop where
  behind : sharedBody.length ≤ p.spot
  filled : p.words ≠ []
  words : (a.code.drop p.spot).take p.words.length = p.words
  fits : ∀ cap, a.capacity = some cap → (p.spot + p.words.length) * 4 ≤ cap
  right : Right a p.cls (a.Aim p.site p.cls p.spot p.words.length) p.spot p.words
  entry : (decode p.siteWord p.site).leadsTo = some (a.wordAddr p.spot)

/-- An area but for its words. -/
def Area.frame (a : Area) : Area := { a with code := [] }

/-- What has been written are the shared bodies and trampolines, each for one site's
patch.  Sites are words of the file. -/
structure Arranged [Build] (m : MachO) (start b : Builder) (placed : List Placement) : Prop where
  patches : b.patches = placed.map fun p => (p.site, p.siteWord)
  sites : b.sites.map Site.addr = placed.map Placement.site
  frames : b.areas.map Area.frame = start.areas.map Area.frame
  common : ∀ (i : Nat) (a : Area), b.areas[i]? = some a → a.common = a.wordAddr 0
  shared : ∀ (i : Nat) (a : Area), b.areas[i]? = some a → a.code.take sharedBody.length = sharedBody
  stands : ∀ p ∈ placed, ∃ a, b.areas[p.area]? = some a ∧ p.Stands a
  /-- Every word is of the shared body or of a trampoline -/
  covered : ∀ (i : Nat) (a : Area) k, b.areas[i]? = some a → sharedBody.length ≤ k →
    k < a.code.length → ∃ p ∈ placed, p.area = i ∧ p.spot ≤ k ∧ k < p.spot + p.words.length
  own : ∀ p ∈ placed, ∃ word, m.readWord p.site = ok word ∧ p.cls = decode (word.getD 0) p.site

section Arranged

variable {m : MachO} {start b b' : Builder} {placed : List Placement} {a : Area} {p : Placement}

theorem Placement.Stands.lt (stands : p.Stands a) :
    p.spot < a.code.length ∧ p.spot + p.words.length ≤ a.code.length := by
  have length := congrArg List.length stands.words
  have filled := List.length_pos_iff.mpr stands.filled
  rw [List.length_take, List.length_drop] at length
  omega

/-- A trampoline stays where it is when more is written. -/
theorem Placement.Stands.grow (stands : p.Stands a) (more : List Nat) :
    p.Stands { a with code := a.code ++ more } := by
  have inside := stands.lt
  refine
    { behind := stands.behind
      filled := stands.filled
      words := ?_
      fits := stands.fits
      right := { leads := stands.right.leads, registers := stands.right.registers }
      entry := stands.entry }
  rw [List.drop_append_of_le_length inside.1.le, List.take_append_of_le_length
    (by rw [List.length_drop]; omega)]
  exact stands.words

theorem getElem?_modify_eq_some {areas : List Area} {i j : Nat} {f : Area → Area} {a' : Area}
    (found : (areas.modify i f)[j]? = some a') :
    ∃ a, areas[j]? = some a ∧ (i ≠ j ∧ a' = a ∨ i = j ∧ a' = f a) := by
  rw [List.getElem?_modify] at found
  obtain ⟨a, isArea, rfl⟩ := Option.map_eq_some_iff.mp found
  refine ⟨a, isArea, ?_⟩
  by_cases same : i = j
  · exact Or.inr ⟨same, by rw [if_pos same]⟩
  · exact Or.inl ⟨same, by rw [if_neg same]⟩

theorem map_frame_modify (areas : List Area) (i : Nat) (words : List Nat) :
    (areas.modify i fun a => { a with code := a.code ++ words }).map Area.frame =
      areas.map Area.frame := by
  refine List.ext_getElem? fun j => ?_
  rw [List.getElem?_map, List.getElem?_map, List.getElem?_modify, Option.map_eq_map, Option.map_map]
  congr 1
  funext a
  by_cases same : i = j
  · simp only [Function.comp_apply, if_pos same]
    rfl
  · simp only [Function.comp_apply, if_neg same]

/-- At first there are the shared bodies. -/
theorem arranged_new [Build] (m : MachO) (segment : Nat) (rooms : List (Nat × Nat))
    (textBase : Nat) :
    Arranged m (Builder.new segment rooms textBase) (Builder.new segment rooms textBase) [] := by
  have opened : ∀ (i : Nat) (a : Area), (Builder.new segment rooms textBase).areas[i]? = some a →
      ∃ a₀ : Area, a = a₀.opened := by
    intro i a isArea
    rw [Builder.new_eq] at isArea
    obtain rfl | isRoom := List.mem_cons.mp (List.mem_of_getElem? isArea)
    · exact ⟨_, rfl⟩
    · obtain ⟨room, -, rfl⟩ := List.mem_map.mp isRoom
      exact ⟨_, rfl⟩
  refine
    { patches := by rw [Builder.new_eq]; rfl
      sites := by rw [Builder.new_eq]; rfl
      frames := rfl
      common := ?_
      shared := ?_
      stands := fun p present => nomatch present
      covered := ?_
      own := fun p present => nomatch present }
  · intro i a isArea
    obtain ⟨a₀, rfl⟩ := opened i a isArea
    rfl
  · intro i a isArea
    obtain ⟨a₀, rfl⟩ := opened i a isArea
    exact List.take_length
  · intro i a k isArea behind inside
    obtain ⟨a₀, rfl⟩ := opened i a isArea
    exact absurd inside (Nat.not_lt.mpr behind)

/-- A site that is hooked adds one trampoline at the end of an area. -/
theorem Arranged.hooked [Build] {plan : Option (Area → Option Trampoline)} {pc : Nat}
    (arranged : Arranged m start b placed) (cls : Class)
    (leads : ∀ p a t, plan = some p → a.common < 2 ^ 64 → p a = some t → t.Leads a pc cls)
    (own : plan.isSome = true → ∃ word, m.readWord pc = ok word ∧ cls = decode (word.getD 0) pc)
    (hooked : Builder.Hooked plan pc b b') :
    ∃ added, Arranged m start b' (placed ++ added) ∧
      (added = [] ∨ plan.isSome = true ∧ ∃ p, added = [p] ∧ p.site = pc) := by
  cases hooked with
  | untouched areas_eq patches_eq sites_eq =>
      refine ⟨[], ?_, Or.inl rfl⟩
      rw [List.append_nil]
      exact
        { patches := patches_eq.trans arranged.patches
          sites := sites_eq ▸ arranged.sites
          frames := areas_eq ▸ arranged.frames
          common := areas_eq ▸ arranged.common
          shared := areas_eq ▸ arranged.shared
          stands := areas_eq ▸ arranged.stands
          covered := areas_eq ▸ arranged.covered
          own := arranged.own }
  | placed i a t p isPlan isArea planned takes areas_eq patches_eq sites_eq =>
      have common := arranged.common i a isArea
      have shared := arranged.shared i a isArea
      have leads := leads p a t isPlan (by rw [common]; exact a.wordAddr_lt 0) planned
      have behind : sharedBody.length ≤ a.code.length := by
        have length := congrArg List.length shared
        rw [List.length_take] at length
        omega
      have grown : b'.areas[i]? = some { a with code := a.code ++ t.words } := by
        rw [areas_eq, List.getElem?_modify, isArea]
        simp
      -- Every area is as it was, or the one that took the trampoline
      have each : ∀ j a', b'.areas[j]? = some a' → ∃ a₀, b.areas[j]? = some a₀ ∧
          (a' = a₀ ∨ i = j ∧ a' = { a₀ with code := a₀.code ++ t.words }) := by
        intro j a' isArea'
        rw [areas_eq] at isArea'
        obtain ⟨a₀, isOld, ⟨-, same⟩ | ⟨same, new⟩⟩ := getElem?_modify_eq_some isArea'
        · exact ⟨a₀, isOld, Or.inl same⟩
        · exact ⟨a₀, isOld, Or.inr ⟨same, new⟩⟩
      refine ⟨[{ area := i, spot := a.code.length, words := t.words, site := pc,
                 siteWord := t.siteWord, cls }], ?_,
        Or.inr ⟨by rw [isPlan]; rfl, _, rfl, rfl⟩⟩
      refine
        { patches := ?_
          sites := ?_
          frames := ?_
          common := ?_
          shared := ?_
          stands := ?_
          covered := ?_
          own := ?_ }
      · rw [patches_eq, arranged.patches, List.map_append]
        rfl
      · rw [sites_eq, List.map_append, arranged.sites, List.map_append]
        simp [leads.addr]
      · rw [areas_eq, map_frame_modify, arranged.frames]
      · intro j a' isArea'
        obtain ⟨a₀, isOld, rfl | ⟨-, rfl⟩⟩ := each j a' isArea'
        · exact arranged.common j a' isOld
        · exact arranged.common j a₀ isOld
      · intro j a' isArea'
        obtain ⟨a₀, isOld, rfl | ⟨rfl, rfl⟩⟩ := each j a' isArea'
        · exact arranged.shared j a' isOld
        · obtain rfl := Option.some.inj (isArea.symm.trans isOld)
          rw [List.take_append_of_le_length behind]
          exact shared
      · intro q present
        obtain old | new := List.mem_append.mp present
        · obtain ⟨a₀, isOld, stands⟩ := arranged.stands q old
          by_cases here : i = q.area
          · rw [← here] at isOld ⊢
            obtain rfl := Option.some.inj (isArea.symm.trans isOld)
            exact ⟨_, grown, stands.grow t.words⟩
          · refine ⟨a₀, ?_, stands⟩
            rw [areas_eq, List.getElem?_modify, isOld]
            simp [here]
        · obtain rfl := List.mem_singleton.mp new
          refine ⟨_, grown, ?_⟩
          exact
            { behind
              filled := leads.filled
              words := by rw [List.drop_left, List.take_length]
              fits := fun cap isCap => by
                have isCap : a.capacity = some cap := isCap
                simpa [Area.takes, Area.fitting, isCap] using takes
              right := { leads := leads.right.leads, registers := leads.right.registers }
              entry := leads.entry }
      · intro j a' k isArea' past inside
        obtain ⟨a₀, isOld, rfl | ⟨rfl, rfl⟩⟩ := each j a' isArea'
        · obtain ⟨q, old, covers⟩ := arranged.covered j a' k isOld past inside
          exact ⟨q, List.mem_append_left _ old, covers⟩
        · obtain rfl := Option.some.inj (isArea.symm.trans isOld)
          rw [List.length_append] at inside
          obtain old | new := Nat.lt_or_ge k a.code.length
          · obtain ⟨q, old, covers⟩ := arranged.covered i a k isOld past old
            exact ⟨q, List.mem_append_left _ old, covers⟩
          · exact ⟨_, List.mem_append_right _ (List.mem_singleton.mpr rfl), rfl, new, inside⟩
      · intro q present
        obtain old | new := List.mem_append.mp present
        · exact arranged.own q old
        · obtain rfl := List.mem_singleton.mp new
          exact own (by rw [isPlan]; rfl)

end Arranged

/-! ## Sites -/

/-- A word of a function that is no data. -/
structure InFunction (dic : List (Nat × Nat)) (f : Nat × Nat) (addr : Nat) : Prop where
  above : f.1 ≤ addr
  below : addr + 4 ≤ f.2
  aligned : addr % 4 = 0
  notData : ∀ data ∈ dic, ¬ (data.1 ≤ addr ∧ addr < data.2)

/-- The sites so far: in ascending order, and in front of the functions to come. -/
structure Sited (dic functions later : List (Nat × Nat)) (placed : List Placement) : Prop where
  ascending : (placed.map Placement.site).Pairwise (· < ·)
  inside : ∀ p ∈ placed, ∃ f ∈ functions, InFunction dic f p.site
  ahead : ∀ p ∈ placed, ∀ f ∈ later, p.site + 4 ≤ f.1

variable
  {m : MachO}
  {opts : Options}
  {dic functions later : List (Nat × Nat)}
  {start : Builder}
  {s : Hooking}
  {placed : List Placement}
  {f : Nat × Nat}
  {words : List Nat}

theorem readWord_lt [Build] {addr w : Nat} (read : m.readWord addr = ok (some w)) : w < 2 ^ 32 := by
  obtain ⟨found, -, read⟩ := bind_eq_ok.mp read
  cases found with
  | none => cases read
  | some off =>
      obtain ⟨stop, isStop, read⟩ := bind_eq_ok.mp read
      obtain ⟨bytes, isPart, rfl⟩ := Option.map_eq_some_iff.mp (ok.inj read)
      have few : bytes.length ≤ 4 := by
        have := le_of_add isStop
        rw [length_of_slice? isPart]
        omega
      exact (ofLittleEndian_lt bytes).trans_le (Nat.pow_le_pow_right (Nat.succ_pos 255) few)

/-- The words of a range are read one behind the other. -/
theorem of_wordsOf [Build] {first stop : Nat} (read : wordsOf m first stop = ok words) :
    words.length = (stop - first) / 4 ∧ ∀ i < words.length,
      ∃ word, m.readWord (first + i * 4) = ok word ∧ words.getD i 0 = word.getD 0 := by
  obtain ⟨length, each⟩ := of_mapM_eq_ok read
  rw [List.length_range] at length
  refine ⟨length, fun i inside => ?_⟩
  obtain ⟨w, isWord, isRead⟩ := each i i (List.getElem?_range (by omega))
  obtain ⟨word, isRead, same⟩ := bind_eq_ok.mp isRead
  refine ⟨word, isRead, ?_⟩
  rw [List.getD_eq_getElem?_getD, isWord]
  exact (ok.inj same).symm

theorem getD_classesOf {first i : Nat} (inside : i < words.length) :
    (classesOf first words).getD i .other = decode (words.getD i 0) (first + i * 4) := by
  unfold classesOf
  rw [List.getD_eq_getElem?_getD, List.getElem?_mapIdx, List.getElem?_eq_getElem inside,
    List.getD_eq_getElem?_getD, List.getElem?_eq_getElem inside]
  rfl

/-- A word with a plan is no data, and the plan is its class's. -/
theorem of_planAt {first i : Nat} {p : Area → Option Trampoline} (inside : i < words.length)
    (isPlan : Hooking.planAt dic first words i = some p) :
    (∀ data ∈ dic, ¬ (data.1 ≤ first + i * 4 ∧ first + i * 4 < data.2)) ∧
      planOf (Hooking.tainted (classesOf first words)) (first + i * 4) (words.getD i 0)
        (decode (words.getD i 0) (first + i * 4)) = some p := by
  unfold Hooking.planAt Hooking.wordPlan at isPlan
  rw [getD_classesOf inside] at isPlan
  split at isPlan
  · cases isPlan
  · rename_i free
    refine ⟨fun data present covers => free (Or.inl ?_), isPlan⟩
    exact List.any_eq_true.mpr ⟨data, present, decide_eq_true covers⟩

/-- A function adds its sites behind those of the functions in front of it. -/
theorem placed_hookFunction [Build] (arranged : Arranged m start s.b placed)
    (sited : Sited dic functions (f :: later) placed) (isFunction : f ∈ functions)
    (aligned : f.1 % 4 = 0) (inFront : ∀ g ∈ later, f.2 ≤ g.1) (filled : f.1 < f.2)
    (read : wordsOf m f.1 f.2 = ok words) :
    ∃ placed, Arranged m start (s.hookFunction opts dic f.1 words).b placed ∧
      Sited dic functions later placed := by
  obtain ⟨length, each⟩ := of_wordsOf read
  have ran : ∃ placed, Arranged m start (s.hookFunction opts dic f.1 words).b placed ∧
      (placed.map Placement.site).Pairwise (· < ·) ∧
        (∀ p ∈ placed, ∃ f ∈ functions, InFunction dic f p.site) ∧
          ∀ p ∈ placed, p.site + 4 ≤ f.1 + words.length * 4 := by
    refine Hooking.hookFunction_rec (fun n t => ∃ placed, Arranged m start t.b placed ∧
      (placed.map Placement.site).Pairwise (· < ·) ∧
        (∀ p ∈ placed, ∃ f ∈ functions, InFunction dic f p.site) ∧
          ∀ p ∈ placed, p.site + 4 ≤ f.1 + n * 4)
      (fun _ => ⟨placed, arranged, sited.ascending, sited.inside, fun p present => ?_⟩) ?_
    · have := sited.ahead p present f List.mem_cons_self
      omega
    rintro i t within ⟨placed, arranged, ascending, inside, ahead⟩
    obtain ⟨word, isRead, isWord⟩ := each i within
    have small : words.getD i 0 < 2 ^ 32 := by
      rw [isWord]
      cases word with
      | none => exact Nat.two_pow_pos 32
      | some w => exact readWord_lt isRead
    obtain ⟨added, arranged', isAdded⟩ := arranged.hooked
      (decode (words.getD i 0) (f.1 + i * 4))
      (fun p a t isPlan isAddress planned =>
        leads_of_planOf small isAddress (of_planAt within isPlan).2 planned)
      (fun _ => ⟨word, isRead, by rw [isWord]⟩)
      (Hooking.hooked_hookWord : Builder.Hooked (Hooking.planAt dic f.1 words i) (f.1 + i * 4) t.b
        (t.hookAt opts dic f.1 words i).b)
    refine ⟨_, arranged', ?_⟩
    obtain rfl | ⟨isPlan, p, rfl, isSite⟩ := isAdded
    · rw [List.append_nil]
      refine ⟨ascending, inside, fun p present => ?_⟩
      have := ahead p present
      omega
    · obtain ⟨plan, isPlan⟩ := Option.isSome_iff_exists.mp isPlan
      refine ⟨?_, fun q present => ?_, fun q present => ?_⟩
      · rw [List.map_append]
        refine List.pairwise_append.mpr ⟨ascending, List.pairwise_singleton _ _, ?_⟩
        rintro _ old _ (_ | ⟨_, ⟨⟩⟩)
        obtain ⟨q, present, rfl⟩ := List.mem_map.mp old
        have := ahead q present
        omega
      · obtain old | new := List.mem_append.mp present
        · exact inside q old
        · obtain rfl := List.mem_singleton.mp new
          refine ⟨f, isFunction, ?_⟩
          rw [isSite]
          exact
            { above := by omega
              below := by omega
              aligned := by omega
              notData := (of_planAt within isPlan).1 }
      · obtain old | new := List.mem_append.mp present
        · have := ahead q old
          omega
        · obtain rfl := List.mem_singleton.mp new
          omega
  obtain ⟨placed, arranged, ascending, inside, ahead⟩ := ran
  refine ⟨placed, arranged, ascending, inside, fun p present g isLater => ?_⟩
  have := ahead p present
  have := inFront g isLater
  omega

/-- The ranges are sorted, every site is a word of a function that is listed, and the words
of the areas are the shared bodies and the sites' trampolines. -/
theorem placed_hookAll [Build] {h : Hooked} (fits : StartsFit m)
    (aligned : ∀ starts, m.functionStarts = ok starts → ∀ s ∈ starts, s % 4 = 0)
    (hooked : hookAll m opts = ok h) :
    (∃ stop < 2 ^ 64, h.ranges.Sorted stop []) ∧ ∃ segment textBase placed,
      Arranged m (Builder.new segment h.ranges.rooms textBase) h.hooking.b placed ∧
        Sited h.dic h.ranges.functions [] placed := by
  obtain ⟨textAddr, -, hooked⟩ := bind_eq_ok.mp hooked
  obtain ⟨ranges, isRanges, hooked⟩ := bind_eq_ok.mp hooked
  obtain ⟨text, -, hooked⟩ := bind_eq_ok.mp hooked
  obtain ⟨segment, -, hooked⟩ := bind_eq_ok.mp hooked
  obtain ⟨dic, -, hooked⟩ := bind_eq_ok.mp hooked
  obtain ⟨hooking, ran, hooked⟩ := bind_eq_ok.mp hooked
  cases hooked
  obtain ⟨stop, small, sorted⟩ := sorted_functionRanges fits aligned isRanges
  obtain ⟨placed, -, -, arranged, sited⟩ := foldlM_invariant
    (fun later s => ∃ placed, later.Pairwise (fun f g => f.2 ≤ g.1) ∧
      (∀ f ∈ later, f ∈ ranges.functions) ∧
        Arranged m (Builder.new segment ranges.rooms text.addr) s.b placed ∧
          Sited dic ranges.functions later placed)
    (fun f later s s' => by
      rintro ⟨placed, ordered, listed, arranged, sited⟩ ran
      obtain ⟨words, read, ran⟩ := bind_eq_ok.mp ran
      cases ran
      obtain ⟨inFront, ordered⟩ := List.pairwise_cons.mp ordered
      have isFunction := listed f List.mem_cons_self
      obtain ⟨filled, -, aligned, -⟩ := sorted.each f (Or.inl isFunction)
      obtain ⟨placed, arranged, sited⟩ :=
        placed_hookFunction arranged sited isFunction aligned inFront filled read
      exact ⟨placed, ordered, fun g isLater => listed g (List.mem_cons_of_mem _ isLater),
        arranged, sited⟩)
    ⟨[], sorted.functions, fun f isFunction => isFunction, arranged_new ..,
      { ascending := .nil
        inside := fun p present => nomatch present
        ahead := fun p present => nomatch present }⟩ ran
  exact ⟨⟨stop, small, sorted⟩, segment, text.addr, placed, arranged, sited⟩

end Rewrite

end Derp

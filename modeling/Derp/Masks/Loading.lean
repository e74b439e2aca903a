import Derp.Cache.Names
import Derp.Masks.Defs
import Derp.Rewrite.SiteTable
import Mathlib.Data.List.Nodup

/-!
# A mask on its way to the guests

`derp suspects` reads the site tables of the programs that a run ran, writes a mask that
names all sites but the allowed, one to a line, and runs again.  Each guest reads the lines
of its own program, which it knows by the name of its rewritten copy, and adds the slide
that it was loaded with.
-/

namespace Derp

open Cache (File Input sitesPath)
open Rewrite (Site SiteKind)

/-! ## Writing the mask -/

namespace Suspects

/-- A distinct program of the run. -/
structure Program where
  /-- What a mask line and the supervisor go by. -/
  name : Text
  original : File
  sites : List Site
deriving DecidableEq, Repr

/-- A hook site of a program: the program's index, and where the site returns to. -/
abbrev Key := Nat × Nat

inductive Refusal
  | twoPrograms (name : Text)
  | noTable (image : File)
  | noProgram
deriving DecidableEq, Repr

/-- One program that a process ran, and what it ran of it. -/
def addProgram (table : File → Option Text) (programs : List Program) (ran : File × File) :
    Except Refusal (List Program) :=
  let (original, image) := ran
  if programs.any (·.original = original) then .ok programs
  else if programs.any (·.name = original.name) then .error (.twoPrograms original.name)
  else
    match table (sitesPath image) with
    | none => .error (.noTable image)
    | some text =>
        .ok (programs ++
          [{ name := original.name, original, sites := Rewrite.sitesFromText text }])

/-- The programs that a run ran, each once. -/
def programsOf (table : File → Option Text) (ran : List (File × File)) :
    Except Refusal (List Program) := do
  let programs ← ran.foldlM (addProgram table) []
  if programs = [] then .error .noProgram else .ok programs

def isMemory (site : Site) : Bool := site.kind = .load ∨ site.kind = .store

def keyLe (key other : Key) : Bool := key.1 < other.1 ∨ key.1 = other.1 ∧ key.2 ≤ other.2

/-- The sites at loads and stores, or those that are not, in order and each once. -/
def ofKind (memory : Bool) (programs : List Program) : List Key :=
  (programs.zipIdx.flatMap fun program =>
    (program.1.sites.filter fun site => memory = isMemory site).map fun site =>
      (program.2, site.yieldPc)).dedup.mergeSort keyLe

/-- The sites being decided on: the loads and stores, then the others too. -/
def universeOf (others : Bool) (programs : List Program) : List Key :=
  if others then (ofKind true programs ∪ ofKind false programs).mergeSort keyLe
  else ofKind true programs

def maskLine (name : Text) (pc : Nat) : Text := name ++ ' ' :: Text.hexadecimal pc

/-- All of `all` is masked but the allowed; it is none where a program is missing. -/
def maskFor (programs : List Program) (all allowed : List Key) : Option Text :=
  ((all.filter (· ∉ allowed)).mapM fun key =>
    programs[key.1]?.map fun program => maskLine program.name key.2 ++ ['\n']).map List.flatten

end Suspects

/-! ## Reading the mask -/

namespace Masks

/-- The addresses that a mask names for a program. -/
def addresses (text program : Text) : List Nat :=
  (((Text.lines text).filterMap (Text.rsplitOnce ' ')).filter (·.1 = program)).filterMap
    fun line => Text.parseHexadecimal 64 line.2

/-- What a process that was started as `exe` keeps of the mask file, if it has one. -/
def loadMask (text exe : Option Text) (slide : UInt64) : Option (List UInt64) :=
  text.bind fun text => exe.map fun exe =>
    ((addresses text (Cache.programName exe)).map fun pc => UInt64.ofNat pc + slide).mergeSort
      (· ≤ ·)

end Masks

/-! ## The programs of a run -/

namespace Suspects

variable {table : File → Option Text} {ran : List (File × File)}
  {programs later : List Program} {program : Program} {key : Key}

/-- What is known of the programs that were read so far. -/
structure Known (table : File → Option Text) (ran : List (File × File))
    (programs : List Program) : Prop where
  names : (programs.map Program.name).Nodup
  read : ∀ program ∈ programs, program.name = program.original.name ∧
    ∃ image text, (program.original, image) ∈ ran ∧ table (sitesPath image) = some text ∧
      program.sites = Rewrite.sitesFromText text

theorem Known.add
    {one : File × File}
    (known : Known table ran programs)
    (isRan : one ∈ ran)
    (added : addProgram table programs one = .ok later) : Known table ran later := by
  obtain ⟨original, image⟩ := one
  unfold addProgram at added
  dsimp only at added
  split at added
  · obtain rfl := Except.ok.inj added
    exact known
  · split at added
    · cases added
    · next fresh =>
        split at added
        · cases added
        · next text found =>
            obtain rfl := Except.ok.inj added
            refine ⟨?_, fun program present => ?_⟩
            · rw [List.map_append]
              refine List.nodup_append.2 ⟨known.names, List.nodup_singleton _, ?_⟩
              rintro name old _ new rfl
              obtain ⟨program, present, same⟩ := List.mem_map.1 old
              obtain rfl := List.mem_singleton.1 new
              exact fresh (List.any_eq_true.2 ⟨program, present, decide_eq_true same⟩)
            · obtain old | new := List.mem_append.1 present
              · exact known.read program old
              · obtain rfl := List.mem_singleton.1 new
                exact ⟨rfl, image, text, isRan, found, rfl⟩

theorem known_of_foldlM {rest : List (File × File)} (known : Known table ran programs)
    (areRan : ∀ one ∈ rest, one ∈ ran)
    (folded : rest.foldlM (addProgram table) programs = .ok later) :
    Known table ran later := by
  induction rest generalizing programs with
  | nil =>
      obtain rfl := Except.ok.inj folded
      exact known
  | cons one rest ih =>
      rw [List.foldlM_cons] at folded
      cases added : addProgram table programs one with
      | error refusal =>
          rw [added] at folded
          cases folded
      | ok next =>
          rw [added] at folded
          exact ih (known.add (areRan one List.mem_cons_self) added)
            (fun other present => areRan other (List.mem_cons_of_mem one present)) folded

theorem known_of_programsOf (made : programsOf table ran = .ok programs) :
    Known table ran programs := by
  have empty : Known table ran [] := ⟨List.nodup_nil, by simp⟩
  unfold programsOf at made
  cases folded : ran.foldlM (addProgram table) [] with
  | error refusal =>
      rw [folded] at made
      cases made
  | ok found =>
      rw [folded] at made
      change (if found = [] then Except.error Refusal.noProgram else .ok found) = .ok programs
        at made
      split at made
      · cases made
      · obtain rfl := Except.ok.inj made
        exact known_of_foldlM empty (fun _ => id) folded

/-- A name belongs to one program. -/
theorem Known.index_eq
    {p q : Nat} {other : Program}
    (known : Known table ran programs)
    (isProgram : programs[p]? = some program)
    (isOther : programs[q]? = some other)
    (same : program.name = other.name) : p = q := by
  have inside : p < (programs.map Program.name).length := by
    rw [List.length_map]
    exact (List.getElem?_eq_some_iff.1 isProgram).1
  refine (List.getElem?_inj inside known.names).1 ?_
  rw [List.getElem?_map, List.getElem?_map, isProgram, isOther]
  exact congrArg some same

/-! ## The sites of a mask -/

theorem mem_ofKind {memory : Bool} :
    key ∈ ofKind memory programs ↔
      ∃ program, programs[key.1]? = some program ∧
        ∃ site ∈ program.sites, memory = isMemory site ∧ site.yieldPc = key.2 := by
  unfold ofKind
  rw [List.mem_mergeSort, List.mem_dedup, List.mem_flatMap]
  constructor
  · rintro ⟨⟨program, p⟩, present, isKey⟩
    obtain ⟨site, isSite, rfl⟩ := List.mem_map.1 isKey
    obtain ⟨inside, kind⟩ := List.mem_filter.1 isSite
    exact ⟨program, List.mem_zipIdx_iff_getElem?.1 present, site, inside,
      of_decide_eq_true kind, rfl⟩
  · rintro ⟨program, isProgram, site, inside, kind, isPc⟩
    refine ⟨(program, key.1), List.mem_zipIdx_iff_getElem?.2 isProgram,
      List.mem_map.2 ⟨site, List.mem_filter.2 ⟨inside, decide_eq_true kind⟩, ?_⟩⟩
    rw [isPc]

theorem mem_universeOf {others : Bool} :
    key ∈ universeOf others programs ↔
      ∃ program, programs[key.1]? = some program ∧
        ∃ site ∈ program.sites, (others = true ∨ isMemory site = true) ∧
          site.yieldPc = key.2 := by
  unfold universeOf
  cases others with
  | false =>
      rw [if_neg (by decide), mem_ofKind]
      simp only [Bool.false_eq_true, false_or, eq_comm (a := true)]
  | true =>
      rw [if_pos rfl, List.mem_mergeSort, List.mem_union_iff, mem_ofKind, mem_ofKind]
      constructor
      · rintro (⟨program, isProgram, site, inside, -, isPc⟩ |
          ⟨program, isProgram, site, inside, -, isPc⟩) <;>
        exact ⟨program, isProgram, site, inside, .inl rfl, isPc⟩
      · rintro ⟨program, isProgram, site, inside, -, isPc⟩
        cases kind : isMemory site with
        | true => exact .inl ⟨program, isProgram, site, inside, kind.symm, isPc⟩
        | false => exact .inr ⟨program, isProgram, site, inside, kind.symm, isPc⟩

theorem isLine_maskLine {name : Text} (oneLine : '\n' ∉ name) (pc : Nat) :
    Text.IsLine (maskLine name pc) := by
  have digits (c : Char) (other : Text.hexDigit c = none) : c ∉ Text.hexadecimal pc :=
    Text.notMem_hexadecimal pc other
  refine ⟨?_, fun last => ?_⟩
  · simp [maskLine, oneLine, digits '\n' (by decide)]
  · unfold maskLine at last
    rw [List.getLast?_append_cons, List.getLast?_cons,
      List.getLast?_eq_some_getLast (Text.hexadecimal_ne_nil pc)] at last
    obtain isLast := Option.some.inj last
    exact digits '\r' (by decide) (isLast ▸ List.getLast_mem (Text.hexadecimal_ne_nil pc))

/-- The mask that is written, line by line. -/
theorem maskFor_eq
    {all : List Key}
    (allowed : List Key)
    (present : ∀ key ∈ all, ∃ program, programs[key.1]? = some program) :
    ∃ masked : List (Program × Nat),
      maskFor programs all allowed = some
        ((masked.map fun line => maskLine line.1.name line.2).flatMap (· ++ ['\n'])) ∧
      ∀ program pc, (program, pc) ∈ masked ↔
        ∃ p, programs[p]? = some program ∧ (p, pc) ∈ all ∧ (p, pc) ∉ allowed := by
  have each : ∀ keys : List Key, (∀ key ∈ keys, ∃ program, programs[key.1]? = some program) →
      ∃ masked : List (Program × Nat),
        (keys.mapM fun key => programs[key.1]?.map fun program =>
          maskLine program.name key.2 ++ ['\n']) =
          some (masked.map fun line => maskLine line.1.name line.2 ++ ['\n']) ∧
        ∀ program pc, (program, pc) ∈ masked ↔
          ∃ p, programs[p]? = some program ∧ (p, pc) ∈ keys := by
    intro keys
    induction keys with
    | nil => exact fun _ => ⟨[], rfl, by simp⟩
    | cons key keys ih =>
        intro named
        obtain ⟨masked, written, members⟩ :=
          ih fun other inside => named other (List.mem_cons_of_mem key inside)
        obtain ⟨program, isProgram⟩ := named key List.mem_cons_self
        refine ⟨(program, key.2) :: masked, ?_, fun other pc => ?_⟩
        · rw [List.mapM_cons, written, isProgram]
          rfl
        · rw [List.mem_cons, members]
          constructor
          · rintro (same | ⟨p, isOther, inside⟩)
            · obtain ⟨rfl, rfl⟩ := Prod.mk.inj same
              exact ⟨key.1, isProgram, List.mem_cons_self⟩
            · exact ⟨p, isOther, List.mem_cons_of_mem key inside⟩
          · rintro ⟨p, isOther, inside⟩
            obtain rfl | inside := List.mem_cons.1 inside
            · obtain rfl := Option.some.inj (isProgram.symm.trans isOther)
              exact .inl rfl
            · exact .inr ⟨p, isOther, inside⟩
  obtain ⟨masked, written, members⟩ := each (all.filter (· ∉ allowed)) fun key inside =>
    present key (List.mem_of_mem_filter inside)
  refine ⟨masked, ?_, fun program pc => ?_⟩
  · unfold maskFor
    rw [written, List.flatMap_map]
    rfl
  · rw [members]
    simp only [List.mem_filter, decide_eq_true_eq]

end Suspects

/-! ## What a guest reads of it -/

namespace Masks

open Suspects (maskLine)

/-- A guest reads the addresses that were written for its program, and no others. -/
theorem addresses_unlines
    {written : List (Suspects.Program × Nat)}
    (oneLine : ∀ line ∈ written, '\n' ∉ line.1.name)
    (fit : ∀ line ∈ written, line.2 < 2 ^ 64)
    (name : Text) (pc : Nat) :
    pc ∈ addresses
        ((written.map fun line => maskLine line.1.name line.2).flatMap (· ++ ['\n'])) name ↔
      ∃ program, program.name = name ∧ (program, pc) ∈ written := by
  have areLines : ∀ line ∈ written.map fun line => maskLine line.1.name line.2,
      Text.IsLine line := by
    intro text present
    obtain ⟨line, inside, rfl⟩ := List.mem_map.1 present
    exact Suspects.isLine_maskLine (oneLine line inside) line.2
  have cut (line : Suspects.Program × Nat) : Text.rsplitOnce ' ' (maskLine line.1.name line.2) =
      some (line.1.name, Text.hexadecimal line.2) :=
    Text.rsplitOnce_append _ (Text.notMem_hexadecimal line.2 (by decide))
  unfold addresses
  rw [Text.lines_unlines areLines, List.mem_filterMap]
  constructor
  · rintro ⟨parts, isParts, parsed⟩
    obtain ⟨isParts, isName⟩ := List.mem_filter.1 isParts
    obtain ⟨text, isText, split⟩ := List.mem_filterMap.1 isParts
    obtain ⟨line, inside, rfl⟩ := List.mem_map.1 isText
    obtain rfl := Option.some.inj ((cut line).symm.trans split)
    have same : line.2 = pc := Option.some.inj
      ((Text.parseHexadecimal_hexadecimal (fit line inside)).symm.trans parsed)
    exact ⟨line.1, of_decide_eq_true isName, same ▸ inside⟩
  · rintro ⟨program, isName, inside⟩
    refine ⟨(program.name, Text.hexadecimal pc), List.mem_filter.2 ⟨?_, decide_eq_true isName⟩,
      Text.parseHexadecimal_hexadecimal (fit _ inside)⟩
    exact List.mem_filterMap.2 ⟨_, List.mem_map.2 ⟨_, inside, rfl⟩, cut (program, pc)⟩

theorem addresses_lt {text program : Text} {n : Nat} (read : n ∈ addresses text program) :
    n < 2 ^ 64 := by
  obtain ⟨line, -, parsed⟩ := List.mem_filterMap.1 read
  exact Text.parseHexadecimal_lt parsed

/-- The slide comes off again. -/
theorem mem_loadMask (text exe : Text) (slide pc : UInt64) :
    ∃ pcs, loadMask (some text) (some exe) slide = some pcs ∧
      (pc + slide ∈ pcs ↔ pc.toNat ∈ addresses text (Cache.programName exe)) := by
  refine ⟨_, rfl, ?_⟩
  rw [List.mem_mergeSort, List.mem_map]
  constructor
  · rintro ⟨n, present, same⟩
    have isPc : UInt64.ofNat n = pc := UInt64.add_left_inj slide |>.1 same
    rw [← isPc, UInt64.toNat_ofNat_of_lt' (addresses_lt present)]
    exact present
  · exact fun present => ⟨pc.toNat, present, by rw [UInt64.ofNat_toNat]⟩

/-- A quantum may not end at a hook that the mask names, and may at any other. -/
theorem masked_eq {mask : Mask} {h : Hooking} {pc : UInt64} (few : h.deferred < maxDeferred) :
    (masked mask h pc).1 = true ↔ ∃ sites, mask = some sites ∧ pc ∈ sites h.program := by
  unfold masked
  cases mask with
  | none => simp
  | some sites =>
      by_cases present : pc ∈ sites h.program
      · simp [present, few]
      · simp [present]

variable {table : File → Option Text} {ran : List (File × File)}
  {programs : List Suspects.Program}

/-- The mask reaches the guests as it was meant.  A rewritten copy of a program of the run
is started under whatever slide; where a quantum expires at one of its hooks, the hook is
passed by exactly if the program's table has it among the sites that are decided on and it
is not allowed. -/
theorem masked_iff
    (hooked : File → List Site)
    (tables : ∀ one ∈ ran, table (sitesPath one.2) = some (Rewrite.sitesToText (hooked one.2)))
    (fit : ∀ one ∈ ran, ∀ site ∈ hooked one.2, site.Fits)
    (oneLine : ∀ one ∈ ran, '\n' ∉ one.1.name)
    (made : Suspects.programsOf table ran = .ok programs)
    (others : Bool)
    (allowed : List Suspects.Key) :
    ∃ text, Suspects.maskFor programs (Suspects.universeOf others programs) allowed = some text ∧
      ∀ p program, programs[p]? = some program →
        ∃ image, (program.original, image) ∈ ran ∧
          ∀ (input : Input) (slide pc : UInt64) (h : Hooking),
            input.file = program.name → '/' ∉ input.file → h.deferred < maxDeferred →
            ((masked ((loadMask (some text) (some input.copy.path) slide).map fun pcs _ => pcs)
                h (pc + slide)).1 = true ↔
              (∃ site ∈ hooked image, site.yieldPc = pc.toNat ∧
                (others = true ∨ Suspects.isMemory site = true)) ∧
                (p, pc.toNat) ∉ allowed) := by
  have known := Suspects.known_of_programsOf made
  -- Every program has the sites of the table that was written with it.
  have sites {p : Nat} {program : Suspects.Program} (isProgram : programs[p]? = some program) :
      program.name = program.original.name ∧ ∃ image, (program.original, image) ∈ ran ∧
        program.sites = hooked image := by
    obtain ⟨name, image, text, isRan, found, read⟩ :=
      known.read program (List.mem_of_getElem? isProgram)
    obtain rfl := Option.some.inj ((tables _ isRan).symm.trans found)
    exact ⟨name, image, isRan, read.trans (Rewrite.sitesFromText_sitesToText (fit _ isRan))⟩
  have present : ∀ key ∈ Suspects.universeOf others programs,
      ∃ program, programs[key.1]? = some program := fun key inside =>
    (Suspects.mem_universeOf.1 inside).imp fun _ => And.left
  obtain ⟨written, isMask, members⟩ := Suspects.maskFor_eq allowed present
  have named : ∀ line ∈ written, '\n' ∉ line.1.name ∧ line.2 < 2 ^ 64 := by
    intro line inside
    obtain ⟨p, isProgram, isSite, -⟩ := (members line.1 line.2).1 inside
    obtain ⟨other, isOther, site, isOf, -, isPc⟩ := Suspects.mem_universeOf.1 isSite
    obtain rfl := Option.some.inj (isProgram.symm.trans isOther)
    obtain ⟨name, image, isRan, hooks⟩ := sites isProgram
    exact ⟨name ▸ oneLine _ isRan, isPc ▸ (fit _ isRan site (hooks ▸ isOf)).1⟩
  refine ⟨_, isMask, fun p program isProgram => ?_⟩
  obtain ⟨-, image, isRan, hooks⟩ := sites isProgram
  refine ⟨image, isRan, fun input slide pc h isFile isName few => ?_⟩
  obtain ⟨pcs, loaded, slid⟩ := mem_loadMask
    ((written.map fun line => maskLine line.1.name line.2).flatMap (· ++ ['\n']))
    input.copy.path slide pc
  rw [loaded, masked_eq few]
  have reads : pc.toNat ∈ addresses
      ((written.map fun line => maskLine line.1.name line.2).flatMap (· ++ ['\n'])) input.file ↔
      (p, pc.toNat) ∈ Suspects.universeOf others programs ∧ (p, pc.toNat) ∉ allowed := by
    rw [addresses_unlines (fun line inside => (named line inside).1)
      (fun line inside => (named line inside).2)]
    constructor
    · rintro ⟨other, same, inside⟩
      obtain ⟨q, isOther, isMasked⟩ := (members other pc.toNat).1 inside
      obtain rfl := known.index_eq isProgram isOther (isFile.symm.trans same.symm)
      exact isMasked
    · exact fun isMasked => ⟨program, isFile.symm, (members program pc.toNat).2
        ⟨p, isProgram, isMasked⟩⟩
  calc
    (∃ sites, (some pcs).map (fun pcs _ => pcs) = some sites ∧ pc + slide ∈ sites h.program) ↔
        pc + slide ∈ pcs := by simp
    _ ↔ (p, pc.toNat) ∈ Suspects.universeOf others programs ∧ (p, pc.toNat) ∉ allowed := by
      rw [slid, Cache.programName_copy input isName, reads]
    _ ↔ _ := by
      refine and_congr_left fun _ => ?_
      rw [Suspects.mem_universeOf]
      constructor
      · rintro ⟨other, isOther, site, inside, kind, isPc⟩
        obtain rfl := Option.some.inj (isProgram.symm.trans isOther)
        exact ⟨site, hooks ▸ inside, isPc, kind⟩
      · rintro ⟨site, inside, isPc, kind⟩
        exact ⟨program, isProgram, site, hooks ▸ inside, kind, isPc⟩

/-- A copy of a program whose name holds a space. -/
def spaced : Input where
  dir := "/w".toList
  file := "a b".toList
  opts := {}
  mtime := 5
  len := 7

/-- A load and a branch of it. -/
def spacedSites : List Site :=
  [{ yieldPc := 0x1010, addr := 0x400, kind := .load },
    { yieldPc := 0x1040, addr := 0x408, kind := .branch }]

def spacedRan : File × File := ({ dir := "/w".toList, name := "a b".toList }, spaced.copy)

def spacedProgram : Suspects.Program where
  name := "a b".toList
  original := spacedRan.1
  sites := spacedSites

theorem programsOf_spaced :
    Suspects.programsOf (fun _ => some (Rewrite.sitesToText spacedSites)) [spacedRan] =
      .ok [spacedProgram] := by
  decide

/-- The branch is allowed and the load is not. -/
theorem masked_spaced :
    ∃ text, Suspects.maskFor [spacedProgram] (Suspects.universeOf true [spacedProgram])
        [(0, 0x1040)] = some text ∧
      (masked ((loadMask (some text) (some spaced.copy.path) 0x4000).map fun pcs _ => pcs)
        {} (0x1010 + 0x4000)).1 = true ∧
      (masked ((loadMask (some text) (some spaced.copy.path) 0x4000).map fun pcs _ => pcs)
        {} (0x1040 + 0x4000)).1 ≠ true := by
  obtain ⟨text, written, reads⟩ := masked_iff (fun _ => spacedSites)
    (by simp) (by decide) (by decide) programsOf_spaced true [(0, 0x1040)]
  obtain ⟨image, -, passed⟩ := reads 0 spacedProgram rfl
  refine ⟨text, written, ?_, ?_⟩
  · exact (passed spaced 0x4000 0x1010 {} rfl (by decide) (by decide)).2
      ⟨⟨_, List.mem_cons_self, rfl, .inl rfl⟩, by decide⟩
  · exact fun isMasked =>
      ((passed spaced 0x4000 0x1040 {} rfl (by decide) (by decide)).1 isMasked).2 (by decide)

end Masks

end Derp

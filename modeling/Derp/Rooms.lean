import Derp.Rewrite.Encode
import Mathlib.Algebra.BigOperators.Group.List.Basic
import Mathlib.Data.List.Chain

/-!
# Room for trampolines inside a big text

Where a text runs past the reach of a branch, rooms for trampolines are put into the middle
of it.  A pass plans one stretch of sites after the other, each with a room: how long the
stretch may be depends on how big its room is, and that on the sites of the stretch.  The
rooms push the segment behind the text up, so the pass is made again.
-/

namespace Derp
namespace Rooms

/-- How far a branch reaches. -/
def reach : Nat := Rewrite.B_RANGE

/-- The longest trampoline. -/
def BYTES_PER_SITE : Nat := 24

/-- Sites this close to the boundary are taken as out of reach. -/
def MARGIN : Nat := 8 <<< 20

/-- A room lands somewhat past where it was asked for. -/
def SLACK : Nat := 4 <<< 20

def PAGE : Nat := 0x4000

/-- The sites between two offsets, from the counts for each megabyte. -/
def sitesIn (buckets : List Nat) (lo hi : Nat) : Nat :=
  let stop := min ((hi + (1 <<< 20) - 1) >>> 20) buckets.length
  ((buckets.take stop).drop (min (lo >>> 20) stop)).sum

/-- The room for so many sites. -/
def size (n : Nat) : Nat :=
  (n * BYTES_PER_SITE * 11 / 10 + 4096 + PAGE - 1) / PAGE * PAGE

/-- One more averaging of the length of a stretch. -/
def average (buckets : List Nat) (textSize start len : Nat) : Nat :=
  let stop := min (start + len) textSize
  let b := size (sitesIn buckets start stop)
  let z := 2 * b * (reach - SLACK) / (max (stop - start) 1 + 2 * b)
  let again := max (2 * (reach - SLACK - z)) (1 <<< 20)
  (len + again) / 2

/-- The length that eight averagings come to. -/
def settle (buckets : List Nat) (textSize start : Nat) : Nat :=
  (average buckets textSize start)^[8] (2 * reach)

structure Stretch where
  start : Nat
  stop : Nat
  /-- Where its room is. -/
  room : Nat
  /-- How big its room is. -/
  bytes : Nat
  deriving DecidableEq, Repr

/-- The stretch that is planned from an offset on. -/
def stretch (buckets : List Nat) (textSize start : Nat) : Stretch :=
  let stop := min (start + settle buckets textSize start) textSize
  let bytes := size (sitesIn buckets start stop)
  { start := start
    stop := stop
    room := min (max (start + (reach - (bytes + SLACK))) (start + 1)) textSize
    bytes := bytes }

/-- Plan stretches up to the far end; there is no outcome when the fuel is used up. -/
def pass (buckets : List Nat) (textSize farEnd : Nat) : Nat → Nat → Option (List Stretch)
  | 0, _ => none
  | fuel + 1, start =>
      if farEnd ≤ start then some []
      else
        let s := stretch buckets textSize start
        if textSize ≤ s.room then some [s]
        else (pass buckets textSize farEnd fuel (max s.stop (s.room + 1))).map (s :: ·)

/-- The size of the rooms. -/
def total (stretches : List Stretch) : Nat :=
  (stretches.map Stretch.bytes).sum

/-- The end of the sites that are out of reach, with a margin. -/
def farEndOf (textSize segment total : Nat) : Nat :=
  min (segment + total + MARGIN - reach) textSize

/-- So many passes more, after the rooms of the last one. -/
def passes (buckets : List Nat) (textSize segment fuel : Nat) :
    Nat → List Stretch → Option (Option (List Stretch))
  | 0, stretches => some (some stretches)
  | n + 1, stretches =>
      let farEnd := farEndOf textSize segment (total stretches)
      if farEnd = 0 then some none
      else (pass buckets textSize farEnd fuel 0).bind
        (passes buckets textSize segment fuel n)

/-- The plan for a text and the distance of its segment; none where all sites reach it. -/
def plan (buckets : List Nat) (textSize segment fuel : Nat) : Option (Option (List Stretch)) :=
  passes buckets textSize segment fuel 3 []

variable {buckets : List Nat} {textSize segment farEnd bound fuel start : Nat}
  {stretches : List Stretch} {s : Stretch}

/-! ## What is asked of a plan -/

/-- The room's last trampoline is in reach of the first site, and its first one of the last
site, which the room moves up. -/
def Stretch.Reaches (s : Stretch) : Prop :=
  s.room + s.bytes - s.start ≤ reach ∧ (s.room < s.stop → s.stop + s.bytes - s.room ≤ reach)

/-- The end of what the segment does not reach, once the rooms have pushed it up. -/
def boundOf (textSize segment : Nat) (stretches : List Stretch) : Nat :=
  min textSize (segment + total stretches - reach)

/-- The stretches cover the offsets below a bound, with what is between their ends and their
rooms. -/
def Covers (bound : Nat) (stretches : List Stretch) : Prop :=
  ∀ x < bound, ∃ s ∈ stretches, s.start ≤ x ∧ x < max s.stop s.room

structure Planned (textSize segment : Nat) (stretches : List Stretch) : Prop where
  increasing : (stretches.map Stretch.room).Pairwise (· < ·)
  inside : ∀ s ∈ stretches, s.room ≤ textSize
  reaches : ∀ s ∈ stretches, s.Reaches
  covers : Covers (boundOf textSize segment stretches) stretches
  /-- No length that is tried ends before the stretch starts. -/
  subtracts : ∀ s ∈ stretches, ∀ len, s.start ≤ min (s.start + len) textSize

/-- The passes end, and what they plan is as it should be. -/
def Sound (buckets : List Nat) (textSize segment : Nat) : Prop :=
  (∃ fuel answer, plan buckets textSize segment fuel = some answer) ∧
    ∀ fuel stretches, plan buckets textSize segment fuel = some (some stretches) →
      Planned textSize segment stretches

/-- Where a pass stops. -/
def endOf (start : Nat) (stretches : List Stretch) : Nat :=
  stretches.foldl (fun _ s => max s.stop (s.room + 1)) start

/-- The stretch and twice its room fit what a branch reaches to both sides, less the slack. -/
def Stretch.Fits (s : Stretch) : Prop :=
  s.bytes < reach ∧ s.stop - s.start + s.bytes ≤ reach + max (reach - (s.bytes + SLACK)) 1

/-- What holds of every plan, and what its stretches reach and cover. -/
structure Laid (textSize : Nat) (stretches : List Stretch) : Prop where
  increasing : (stretches.map Stretch.room).Pairwise (· < ·)
  /-- Every room is behind the start of its stretch, and in the text -/
  inside : ∀ s ∈ stretches, s.start < s.room ∧ s.room ≤ textSize ∧ s.stop ≤ textSize
  /-- No length that is tried ends before the stretch starts -/
  subtracts : ∀ s ∈ stretches, ∀ len, s.start ≤ min (s.start + len) textSize
  reaches : ∀ s ∈ stretches, (s.Reaches ↔ s.Fits)
  /-- Only the text between the end of a stretch and its room can be left out -/
  covers : ∀ bound ≤ textSize, (Covers bound stretches ↔
    (∀ s ∈ stretches, s.room < s.stop ∨ bound ≤ s.room) ∧ bound ≤ endOf 0 stretches)

/-! ## Stretches -/

theorem stretch_start : (stretch buckets textSize start).start = start := rfl

theorem stretch_stop (inside : start ≤ textSize) :
    start ≤ (stretch buckets textSize start).stop ∧
      (stretch buckets textSize start).stop ≤ textSize := by
  unfold stretch
  dsimp only
  omega

theorem stretch_room (inside : start < textSize) :
    start < (stretch buckets textSize start).room ∧
      (stretch buckets textSize start).room ≤ textSize := by
  unfold stretch
  dsimp only
  omega

/-- A stretch is in reach of its room exactly if both fit. -/
theorem stretch_reaches_iff (inside : start < textSize) :
    (stretch buckets textSize start).Reaches ↔ (stretch buckets textSize start).Fits := by
  unfold Stretch.Reaches Stretch.Fits stretch
  dsimp only
  generalize size (sitesIn buckets start (min (start + settle buckets textSize start) textSize)) =
    bytes
  generalize settle buckets textSize start = len
  generalize reach = far
  generalize SLACK = slack
  omega

/-! ## Passes -/

/-- What a pass from an offset plans. -/
inductive Passed (buckets : List Nat) (textSize farEnd : Nat) : Nat → List Stretch → Prop
  | done {start : Nat} : farEnd ≤ start → Passed buckets textSize farEnd start []
  | last {start : Nat} : start < farEnd → textSize ≤ (stretch buckets textSize start).room →
      Passed buckets textSize farEnd start [stretch buckets textSize start]
  | more {start : Nat} {rest : List Stretch} : start < farEnd →
      (stretch buckets textSize start).room < textSize →
      Passed buckets textSize farEnd (max (stretch buckets textSize start).stop
        ((stretch buckets textSize start).room + 1)) rest →
      Passed buckets textSize farEnd start (stretch buckets textSize start :: rest)

theorem passed_of_pass (planned : pass buckets textSize farEnd fuel start = some stretches) :
    Passed buckets textSize farEnd start stretches := by
  induction fuel generalizing start stretches with
  | zero => cases planned
  | succ fuel ih =>
      unfold pass at planned
      split at planned
      · rename_i done
        obtain rfl := Option.some.inj planned
        exact .done done
      · rename_i goesOn
        dsimp only at planned
        split at planned
        · rename_i last
          obtain rfl := Option.some.inj planned
          exact .last (Nat.lt_of_not_le goesOn) last
        · rename_i inside
          obtain ⟨rest, later, rfl⟩ := Option.map_eq_some_iff.1 planned
          exact .more (Nat.lt_of_not_le goesOn) (Nat.lt_of_not_le inside) (ih later)

/-- A pass ends: every room is behind the start of its stretch. -/
theorem exists_pass (far : farEnd ≤ textSize) (enough : farEnd - start < fuel) :
    ∃ stretches, pass buckets textSize farEnd fuel start = some stretches := by
  induction fuel generalizing start with
  | zero => exact absurd enough (Nat.not_lt_zero _)
  | succ fuel ih =>
      unfold pass
      split
      · exact ⟨_, rfl⟩
      · rename_i goesOn
        dsimp only
        split
        · exact ⟨_, rfl⟩
        · have behind : start < (stretch buckets textSize start).room ∧ _ :=
            stretch_room (by omega)
          obtain ⟨rest, later⟩ := @ih (max (stretch buckets textSize start).stop
            ((stretch buckets textSize start).room + 1)) (by omega)
          exact ⟨_, congrArg _ later⟩

theorem Passed.planned (passed : Passed buckets textSize farEnd start stretches)
    (far : farEnd ≤ textSize) (member : s ∈ stretches) :
    ∃ own, start ≤ own ∧ own < farEnd ∧ s = stretch buckets textSize own := by
  induction passed with
  | done => cases member
  | last before => exact ⟨_, le_rfl, before, List.mem_singleton.1 member⟩
  | more before _ _ ih =>
      obtain same | later := List.mem_cons.1 member
      · exact ⟨_, le_rfl, before, same⟩
      · obtain ⟨own, behind, rest⟩ := ih later
        have stops : _ ≤ (stretch buckets textSize _).stop :=
          (stretch_stop (before.le.trans far)).1
        exact ⟨own, (stops.trans (le_max_left _ _)).trans behind, rest⟩

/-- The rooms are one behind the other. -/
theorem Passed.increasing (passed : Passed buckets textSize farEnd start stretches)
    (far : farEnd ≤ textSize) : (stretches.map Stretch.room).Pairwise (· < ·) := by
  induction passed with
  | done => exact List.Pairwise.nil
  | last => exact List.pairwise_singleton _ _
  | more before inside passed ih =>
      rw [List.map_cons, List.pairwise_cons]
      refine ⟨fun room member => ?_, ih⟩
      obtain ⟨s, later, rfl⟩ := List.mem_map.1 member
      obtain ⟨own, behind, below, rfl⟩ := passed.planned far later
      have ahead : own < (stretch buckets textSize own).room ∧ _ :=
        stretch_room (below.trans_le far)
      exact ((Nat.lt_succ_self _).trans_le (le_max_right _ _)).trans_le (behind.trans ahead.1.le)

/-- The stretches cover what is between an offset and a bound. -/
def CoversFrom (start bound : Nat) (stretches : List Stretch) : Prop :=
  ∀ x, start ≤ x → x < bound → ∃ s ∈ stretches, s.start ≤ x ∧ x < max s.stop s.room

theorem coversFrom_nil : CoversFrom start bound [] ↔ bound ≤ start := by
  constructor
  · intro covers
    by_contra short
    obtain ⟨s, member, -⟩ := covers start le_rfl (Nat.lt_of_not_le short)
    exact absurd member List.not_mem_nil
  · intro reached x before after
    exact absurd (after.trans_le reached) (Nat.not_lt_of_le before)

/-- The stretch in front covers up to its room, and the others start behind that. -/
theorem coversFrom_cons {rest : List Stretch} (own : s.start = start) (room : start < s.room)
    (behind : ∀ s' ∈ rest, max s.stop (s.room + 1) ≤ s'.start) :
    CoversFrom start bound (s :: rest) ↔
      (s.room < s.stop ∨ bound ≤ s.room) ∧
        CoversFrom (max s.stop (s.room + 1)) bound rest := by
  constructor
  · intro covers
    refine ⟨?_, fun x later after => ?_⟩
    · by_contra gap
      obtain ⟨past, early⟩ := not_or.1 gap
      obtain ⟨s', member, starts, stops⟩ := covers s.room room.le (Nat.lt_of_not_le early)
      obtain rfl | others := List.mem_cons.1 member
      · omega
      · have := behind s' others
        omega
    · obtain ⟨s', member, starts, stops⟩ := covers x (by omega) after
      obtain rfl | others := List.mem_cons.1 member
      · omega
      · exact ⟨s', others, starts, stops⟩
  · rintro ⟨noGap, covers⟩ x starts after
    by_cases here : x < max s.stop s.room
    · exact ⟨s, List.mem_cons_self, own.trans_le starts, here⟩
    · obtain ⟨s', member, both⟩ := covers x (by omega) after
      exact ⟨s', List.mem_cons_of_mem _ member, both⟩

/-- A room at the end of the text ends what is to be covered. -/
theorem coversFrom_last (own : s.start = start) (reached : bound ≤ s.room) :
    CoversFrom start bound [s] ∧ bound ≤ endOf start [s] := by
  refine ⟨fun x before after => ⟨s, List.mem_singleton_self s, own.trans_le before,
    lt_max_of_lt_right (after.trans_le reached)⟩, ?_⟩
  exact reached.trans ((Nat.le_succ _).trans (le_max_right _ _))

/-- A pass covers what is before a bound exactly if no room leaves a gap before it, and the
pass goes on to it. -/
theorem Passed.covers_iff (passed : Passed buckets textSize farEnd start stretches)
    (far : farEnd ≤ textSize) (inside : bound ≤ textSize) :
    CoversFrom start bound stretches ↔
      (∀ s ∈ stretches, s.room < s.stop ∨ bound ≤ s.room) ∧ bound ≤ endOf start stretches := by
  induction passed with
  | done _ =>
      rw [coversFrom_nil]
      exact (and_iff_right fun s member => absurd member List.not_mem_nil).symm
  | last _ ends =>
      obtain ⟨covers, ended⟩ := coversFrom_last stretch_start (inside.trans ends)
      refine iff_of_true covers ⟨fun s member => ?_, ended⟩
      obtain rfl := List.mem_singleton.1 member
      exact Or.inr (inside.trans ends)
  | more before _ passed ih =>
      rw [coversFrom_cons stretch_start (stretch_room (before.trans_le far)).1, ih,
        List.forall_mem_cons, and_assoc]
      · rfl
      · intro s member
        obtain ⟨own, starts, -, rfl⟩ := passed.planned far member
        rw [stretch_start]
        exact starts

/-! ## Plans -/

theorem farEndOf_le (textSize segment total : Nat) : farEndOf textSize segment total ≤ textSize :=
  min_le_right _ _

/-- What is planned comes from the last pass. -/
theorem passed_of_passes {n : Nat} {last : List Stretch}
    (planned : passes buckets textSize segment fuel (n + 1) last = some (some stretches)) :
    ∃ farEnd ≤ textSize, Passed buckets textSize farEnd 0 stretches := by
  induction n generalizing last with
  | zero =>
      unfold passes at planned
      dsimp only at planned
      split at planned
      · cases planned
      · obtain ⟨found, passed, same⟩ := Option.bind_eq_some_iff.1 planned
        obtain rfl := Option.some.inj (Option.some.inj same)
        exact ⟨_, farEndOf_le _ _ _, passed_of_pass passed⟩
  | succ n ih =>
      unfold passes at planned
      dsimp only at planned
      split at planned
      · cases planned
      · obtain ⟨found, -, more⟩ := Option.bind_eq_some_iff.1 planned
        exact ih more

theorem exists_passes (enough : textSize < fuel) (n : Nat) (last : List Stretch) :
    ∃ answer, passes buckets textSize segment fuel n last = some answer := by
  induction n generalizing last with
  | zero => exact ⟨_, rfl⟩
  | succ n ih =>
      unfold passes
      dsimp only
      split
      · exact ⟨_, rfl⟩
      · have far := farEndOf_le textSize segment (total last)
        have enough : farEndOf textSize segment (total last) - 0 < fuel := by omega
        obtain ⟨found, passed⟩ : ∃ found, pass buckets textSize _ fuel 0 = some found :=
          exists_pass far enough
        rw [passed]
        exact ih found

theorem Passed.laid (passed : Passed buckets textSize farEnd 0 stretches)
    (far : farEnd ≤ textSize) : Laid textSize stretches := by
  refine ⟨passed.increasing far, fun s member => ?_, fun s member len => ?_, fun s member => ?_,
    fun bound inside => ?_⟩
  · obtain ⟨own, -, below, rfl⟩ := passed.planned far member
    have room : own < (stretch buckets textSize own).room ∧ _ :=
      stretch_room (below.trans_le far)
    rw [stretch_start]
    exact ⟨room.1, room.2, (stretch_stop (below.le.trans far)).2⟩
  · obtain ⟨own, -, below, rfl⟩ := passed.planned far member
    rw [stretch_start]
    exact le_min (Nat.le_add_right own len) (below.le.trans far)
  · obtain ⟨own, -, below, rfl⟩ := passed.planned far member
    exact stretch_reaches_iff (below.trans_le far)
  · have covers : Covers bound stretches ↔ CoversFrom 0 bound stretches :=
      ⟨fun covers x _ => covers x, fun covers x => covers x (Nat.zero_le x)⟩
    exact covers.trans (passed.covers_iff far inside)

/-- A text of 150 MB with every word of its last 15 MB hooked: the averagings end far from the
length they go round, and the room for all these sites is out of reach of the last of them. -/
theorem not_sound_denseEnd :
    ¬Sound (List.replicate 135 0 ++ List.replicate 15 262144) (150 <<< 20) (150 <<< 20) := by
  intro sound
  have planned :
      plan (List.replicate 135 0 ++ List.replicate 15 262144) (150 <<< 20) (150 <<< 20) 2 =
        some (some [⟨0, 150 <<< 20, 26198016, 103825408⟩]) := by decide +kernel
  have reaches := (sound.2 2 _ planned).reaches _ (List.mem_singleton_self _)
  exact absurd (reaches.2 (by decide)) (by decide)

end Rooms
end Derp

import Derp.Library.Paths

/-!
# The paths a guest may name

Every host has a directory of its own under the run's scratch directory.  A
call that names a path is held to the host's directory, to the system locations
every program reads, and to what the run file allows.  Paths are read lexically:
no symbolic link is followed but the three that lead into `/private`.
-/

namespace Derp

namespace Hostfs

open Paths

/-- A path, or a part of one, as the bytes before the terminator. -/
abbrev Path := List UInt8

/-- The bytes of a byte string literal. -/
def ascii (s : String) : Path := s.toList.map fun c => c.toNat.toUInt8

def slash : UInt8 := 47

/-- What libSystem, toolchains and package managers put where all programs
read it. -/
def SYSTEM : List Path :=
  ["/usr", "/System", "/Library", "/bin", "/sbin", "/dev", "/etc", "/var/db",
    "/var/run", "/var/folders", "/opt/homebrew", "/Applications/Xcode"].map ascii

def under (path dir : Path) : Bool :=
  dir == [slash] ||
    match path.dropPrefix? dir with
    | some rest => rest.isEmpty || rest.head? == some slash
    | none => false

/-- `/tmp`, `/var` and `/etc` are links into `/private`; one form is compared. -/
def unprivate (path : Path) : Path :=
  match path.dropPrefix? (ascii "/private") with
  | some rest =>
      if (["/tmp", "/var", "/etc"].map ascii).any fun p => under rest p then rest
      else path
  | none => path

/-- One part of a path: nothing for an empty one or `.`, back for `..`. -/
def takePart (parts : List Path) (part : Path) : List Path :=
  if part = [] ∨ part = ascii "." then parts
  else if part = ascii ".." then parts.dropLast
  else parts ++ [part]

/-- Absolute and without `.`, `..` or doubled slashes. -/
def normalize (path cwd : Path) : Path :=
  let bases := if path.head? = some slash then [[], path] else [cwd, path]
  let parts := bases.foldl (fun parts base =>
    (base.splitOn slash).foldl takePart parts) []
  let out := parts.flatMap (slash :: ·)
  if out = [] then [slash] else out

structure Policy where
  root : Path
  /-- The directory where every host's directory is. -/
  scratch : Path
  allow : List Path
deriving DecidableEq

/-- The process's policy, and whether a check is under way in the thread. -/
structure Guard where
  policy : Option Policy := none
  active : Bool := false
  checking : Bool := false
deriving DecidableEq

/-- Up to the last slash, or the root directory. -/
def parent (root : Path) : Path :=
  let cut := root.length - 1 - root.reverse.idxOf slash
  root.take (max cut 1)

/-- The entries of an allow list. -/
def entries (allow : Option Path) : List Path :=
  ((allow.getD []).splitOn 58).filter (· ≠ [])

/-- The policy of a host root and of an allow list, each from the environment. -/
def init (root allow : Option Path) : Guard :=
  match root with
  | none => {}
  | some root =>
      if root = [] then {}
      else
        let allow := (entries allow).map fun a => unprivate (normalize a [slash])
        let root := unprivate (normalize root [slash])
        { policy := some { root, scratch := parent root, allow }, active := true }

inductive Errno
  | EACCES
  | ENOENT
deriving DecidableEq

/-- Whether the call goes on to the system, or what it fails with. -/
inductive Verdict
  | permitted
  | refused (errno : Errno)
deriving DecidableEq

/-- The working directory, or the root where none is reported. -/
def cwd (getcwd : Option Path) : Path := getcwd.getD [slash]

/-- What a policy says of a path in its compared form. -/
def Policy.permits (policy : Policy) (seen : Path) (ancestors : Bool) : Bool :=
  let ambient := (ascii "/.CFUserTextEncoding").isSuffixOf seen ||
    (ancestors && seen == ascii "/private")
  let sibling := under seen policy.scratch && !under seen policy.root
  ambient || under seen policy.root ||
    (ancestors && (under policy.root seen ||
      SYSTEM.any (fun sys => under sys seen) ||
      policy.allow.any fun a => under a seen)) ||
    (!sibling && SYSTEM.any fun s => under seen s) ||
    policy.allow.any fun a => under seen a

/-- `permits` and `permits_metadata`, which also lets the directories above a
permitted path be asked about. -/
def Guard.check (guard : Guard) (getcwd path : Option Path) (ancestors : Bool) :
    Verdict :=
  match path with
  | none => .permitted
  | some given =>
      if !guard.active || guard.checking then .permitted
      else
        let here := if given.head? = some slash then [] else cwd getcwd
        match guard.policy with
        | none => .permitted
        | some policy =>
            let seen := unprivate (normalize given here)
            if policy.permits seen ancestors then .permitted
            else .refused (if ancestors then .ENOENT else .EACCES)

/-- `AT_FDCWD`, or a descriptor and the path the system reports for it, which
is absolute. -/
inductive Dirfd
  | cwd
  | fd (path : Option { path : Path // path.head? = some slash })

/-- A path relative to a descriptor is checked behind the descriptor's own. -/
def Guard.checkAt (guard : Guard) (getcwd : Option Path) (dirfd : Dirfd)
    (path : Option Path) (ancestors : Bool) : Verdict :=
  match dirfd, path with
  | .fd dir, some given =>
      if given.head? = some slash then guard.check getcwd path ancestors
      else
        match dir with
        | none => .permitted
        | some dir =>
            guard.check getcwd (some (dir.val ++ slash :: given)) ancestors
  | _, _ => guard.check getcwd path ancestors

/-! ## Places -/

/-- The names on the way from the root directory. -/
abbrev Place := List Path

/-- Where a path leads from a place. -/
def walk (place : Place) (path : Path) : Place :=
  (path.splitOn slash).foldl takePart place

/-- What the links into `/private` are called. -/
def links : List Path := [ascii "tmp", ascii "var", ascii "etc"]

/-- The place under the name the links give it. -/
def spell : Place → Place
  | first :: link :: below =>
      if first = ascii "private" ∧ link ∈ links then link :: below
      else first :: link :: below
  | place => place

/-- The place with its links followed. -/
def real : Place → Place
  | link :: below =>
      if link ∈ links then ascii "private" :: link :: below else link :: below
  | [] => []

/-- The place an absolute path names, its links followed. -/
def located (path : Path) : Place := real (walk [] path)

/-- Where a call's path is taken from, if the system tells. -/
def Dirfd.start (getcwd : Option Path) : Dirfd → Option Place
  | .cwd => some (walk [] (Hostfs.cwd getcwd))
  | .fd none => none
  | .fd (some dir) => some (walk [] dir.val)

/-- Where the path of a call leads, its links followed. -/
def Dirfd.leads (getcwd : Option Path) (dirfd : Dirfd) (path : Path) :
    Option Place :=
  if path.head? = some slash then some (located path)
  else (dirfd.start getcwd).map fun place => real (walk place path)

/-- Whether a place is a directory or below it. -/
def Within (place dir : Place) : Prop := dir <+: place

instance (place dir : Place) : Decidable (Within place dir) :=
  inferInstanceAs (Decidable (dir <+: place))

/-- Names that a path can spell. -/
def Proper (place : Place) : Prop := ∀ name ∈ place, Name slash name

/-- The place is spelled with its links. -/
def Spelled (place : Place) : Prop := spell place = place

variable
  {path given dir : Path}
  {place other : Place}

/-! ## Normal paths -/

theorem Proper.nil : Proper [] := fun _ isName => nomatch isName

theorem Proper.free (proper : Proper place) : ∀ name ∈ place, slash ∉ name :=
  fun name isName => (proper name isName).sep_notMem

theorem Proper.of_sublist (proper : Proper place) (fewer : other.Sublist place) :
    Proper other :=
  fun name isName => proper name (fewer.subset isName)

theorem Proper.takePart {part : Path} (proper : Proper place) (free : slash ∉ part) :
    Proper (takePart place part) := by
  unfold Hostfs.takePart
  split
  · exact proper
  · rename_i named
    split
    · exact proper.of_sublist (List.dropLast_sublist place)
    · intro name isName
      obtain old | isPart := List.mem_append.mp isName
      · exact proper name old
      · rw [List.mem_singleton.mp isPart]
        exact ⟨fun empty => named (Or.inl empty), free⟩

theorem Proper.walk (proper : Proper place) : Proper (walk place path) := by
  have pieces : ∀ part ∈ path.splitOn slash, slash ∉ part := fun _ isPiece =>
    notMem_of_mem_splitOn isPiece
  unfold Hostfs.walk
  generalize path.splitOn slash = parts at pieces
  induction parts generalizing place with
  | nil => exact proper
  | cons part parts ih =>
      exact ih (proper.takePart (pieces part List.mem_cons_self))
        (fun later isLater => pieces later (List.mem_cons_of_mem _ isLater))

/-- A path behind another leads on from where the other leads. -/
theorem walk_append : walk place (dir ++ slash :: path) = walk (walk place dir) path := by
  unfold walk
  rw [List.splitOn_append_cons_self, List.foldl_append]

theorem normalize_eq :
    normalize path dir =
      render slash (walk (if path.head? = some slash then [] else walk [] dir) path) := by
  have ends : ∀ parts : Place,
      (if (parts.flatMap (slash :: ·)) = [] then [slash]
        else parts.flatMap (slash :: ·)) = render slash parts := by
    intro parts
    cases parts with
    | nil => rfl
    | cons part parts => exact if_neg (List.cons_ne_nil _ _)
  unfold normalize
  by_cases absolute : path.head? = some slash
  · simp only [if_pos absolute]
    exact ends _
  · simp only [if_neg absolute]
    exact ends _

theorem dropPrefix?_eq_some {rest : Path} :
    path.dropPrefix? dir = some rest ↔ path = dir ++ rest := by
  rw [List.dropPrefix?_eq_some_iff]
  constructor
  · rintro ⟨dropped, same, isDropped⟩
    rw [same, eq_of_beq isDropped]
  · intro same
    exact ⟨dir, same, beq_self_eq_true dir⟩

/-- On paths of proper names the comparison of texts is that of places. -/
theorem under_render (isPlace : Proper place) (isOther : Proper other) :
    under (render slash place) (render slash other) = true ↔ Within place other := by
  unfold under Within
  cases other with
  | nil => simp
  | cons name other =>
      have named := isOther name List.mem_cons_self
      have notRoot : (render slash (name :: other) == [slash]) = false := by
        rw [beq_eq_false_iff_ne]
        intro same
        simp only [render_cons, List.cons_append, List.cons.injEq, List.append_eq_nil_iff,
          true_and] at same
        exact named.ne_nil same.1
      rw [notRoot, Bool.false_or,
        ← render_append_iff (List.cons_ne_nil name other) isOther isPlace]
      cases stripped : (render slash place).dropPrefix? (render slash (name :: other)) with
      | none =>
          simp only [Bool.false_eq_true, false_iff]
          rintro ⟨rest, same, _⟩
          rw [dropPrefix?_eq_some.mpr same] at stripped
          cases stripped
      | some rest =>
          rw [dropPrefix?_eq_some.mp stripped]
          simp [Boundary]

theorem ascii_private : ascii "/private" = render slash [ascii "private"] := by decide

theorem proper_private : Proper [ascii "private"] := by
  intro name isName
  rw [List.mem_singleton.mp isName]
  exact ⟨by decide, by decide⟩

theorem render_links :
    ["/tmp", "/var", "/etc"].map ascii = links.map fun link => render slash [link] := by
  decide

theorem proper_links : ∀ link ∈ links, Proper [link] := by
  intro link isLink name isName
  rw [List.mem_singleton.mp isName]
  simp only [links, List.mem_cons, List.not_mem_nil, or_false] at isLink
  obtain rfl | rfl | rfl := isLink <;> exact ⟨by decide, by decide⟩

/-- Whether what follows `/private` is one of the links or below one. -/
def linked (rest : Path) : Bool :=
  (["/tmp", "/var", "/etc"].map ascii).any fun p => under rest p

theorem linked_iff {rest : Path} :
    linked rest = true ↔ ∃ link ∈ links, under rest (render slash [link]) = true := by
  unfold linked
  rw [render_links, List.any_map, List.any_eq_true]
  rfl

theorem linked_render {first : Path} {below : Place} (proper : Proper (first :: below)) :
    linked (render slash (first :: below)) = true ↔ first ∈ links := by
  rw [linked_iff]
  constructor
  · rintro ⟨link, isLink, isUnder⟩
    have within := (under_render proper (proper_links link isLink)).mp isUnder
    rwa [← (List.cons_prefix_cons.mp within).1]
  · intro isLink
    exact ⟨first, isLink, (under_render proper (proper_links first isLink)).mpr
      (List.cons_prefix_cons.mpr ⟨rfl, List.nil_prefix⟩)⟩

/-- What is linked goes on at a slash. -/
theorem boundary_of_linked {rest : Path} (isLinked : linked rest = true) :
    Boundary slash rest := by
  obtain ⟨link, isLink, isUnder⟩ := linked_iff.mp isLinked
  have notRoot : (render slash [link] == [slash]) = false := by
    have named := proper_links link isLink link List.mem_cons_self
    simp [named.ne_nil]
  unfold under at isUnder
  rw [notRoot, Bool.false_or] at isUnder
  cases stripped : rest.dropPrefix? (render slash [link]) with
  | none =>
      rw [stripped] at isUnder
      cases isUnder
  | some after =>
      rw [dropPrefix?_eq_some.mp stripped]
      exact Or.inr rfl

/-- The compared form spells a place with its links. -/
theorem unprivate_render (proper : Proper place) :
    unprivate (render slash place) = render slash (spell place) := by
  have code : ∀ path : Path, unprivate path =
      match path.dropPrefix? (render slash [ascii "private"]) with
      | some rest => if linked rest then rest else path
      | none => path := by
    intro path
    rw [← ascii_private]
    rfl
  rw [code]
  cases place with
  | nil => decide
  | cons first below =>
      by_cases isPrivate : first = ascii "private"
      · subst isPrivate
        have rest : (render slash (ascii "private" :: below)).dropPrefix?
            (render slash [ascii "private"]) = some (body slash below) := by
          rw [dropPrefix?_eq_some]
          simp
        cases below with
        | nil => decide
        | cons link below =>
            have isBelow : Proper (link :: below) :=
              proper.of_sublist (List.sublist_cons_self ..)
            have rendered : body slash (link :: below) = render slash (link :: below) := rfl
            simp only [rest, rendered, spell, true_and]
            by_cases isLink : link ∈ links
            · rw [if_pos ((linked_render isBelow).mpr isLink), if_pos isLink]
            · rw [if_neg (fun isLinked => isLink ((linked_render isBelow).mp isLinked)),
                if_neg isLink]
      · have spelled : spell (first :: below) = first :: below := by
          cases below with
          | nil => rfl
          | cons link below => exact if_neg fun both => isPrivate both.1
        rw [spelled]
        cases stripped : (render slash (first :: below)).dropPrefix?
            (render slash [ascii "private"]) with
        | none => rfl
        | some rest =>
            refine if_neg fun isLinked => isPrivate ?_
            -- Only the directory itself has its name end there.
            have within := (render_append_iff (List.cons_ne_nil _ _) proper_private proper).mp
              ⟨rest, dropPrefix?_eq_some.mp stripped, boundary_of_linked isLinked⟩
            exact (List.cons_prefix_cons.mp within).1.symm

/-! ## Two spellings of a place -/

variable {first link : Path} {below : Place}

theorem spell_cons_cons :
    spell (first :: link :: below) =
      if first = ascii "private" ∧ link ∈ links then link :: below
      else first :: link :: below := rfl

theorem real_cons :
    real (link :: below) =
      if link ∈ links then ascii "private" :: link :: below else link :: below := rfl

theorem private_notMem_links : ascii "private" ∉ links := by decide

theorem Proper.spell (proper : Proper place) : Proper (spell place) := by
  match place, proper with
  | [], proper => exact proper
  | [_], proper => exact proper
  | first :: link :: below, proper =>
      rw [spell_cons_cons]
      by_cases aliased : first = ascii "private" ∧ link ∈ links
      · rw [if_pos aliased]
        exact proper.of_sublist (List.sublist_cons_self ..)
      · rw [if_neg aliased]
        exact proper

theorem spelled_spell : Spelled (spell place) := by
  match place with
  | [] => rfl
  | [_] => rfl
  | first :: link :: below =>
      unfold Spelled
      rw [spell_cons_cons]
      by_cases aliased : first = ascii "private" ∧ link ∈ links
      · rw [if_pos aliased]
        have notPrivate : link ≠ ascii "private" := fun same =>
          private_notMem_links (same ▸ aliased.2)
        cases below with
        | nil => rfl
        | cons next below =>
            rw [spell_cons_cons, if_neg fun both => notPrivate both.1]
      · rw [if_neg aliased, spell_cons_cons, if_neg aliased]

theorem Spelled.notMem_links (spelled : Spelled (ascii "private" :: link :: below)) :
    link ∉ links := by
  intro isLink
  unfold Spelled at spelled
  rw [spell_cons_cons, if_pos ⟨rfl, isLink⟩] at spelled
  have lengths := congrArg List.length spelled
  simp at lengths

/-- Following the links leads to the same place from either spelling. -/
theorem real_spell : real (spell place) = real place := by
  match place with
  | [] => rfl
  | [_] => rfl
  | first :: link :: below =>
      rw [spell_cons_cons]
      by_cases aliased : first = ascii "private" ∧ link ∈ links
      · rw [if_pos aliased, real_cons, if_pos aliased.2, real_cons, aliased.1,
          if_neg private_notMem_links]
      · rw [if_neg aliased]

theorem Within.real (within : Within place other) :
    Within (real place) (real other) := by
  match other, place, within with
  | [], _, _ => exact List.nil_prefix
  | name :: other, [], within => cases List.prefix_nil.mp within
  | name :: other, first :: place, within =>
      obtain ⟨rfl, _⟩ := List.cons_prefix_cons.mp within
      rw [real_cons, real_cons]
      by_cases isLink : name ∈ links
      · rw [if_pos isLink, if_pos isLink]
        exact List.cons_prefix_cons.mpr ⟨rfl, within⟩
      · rw [if_neg isLink, if_neg isLink]
        exact within

/-- What lies in a directory with the links followed lies in it as they are
spelled, unless the directory is the one the links lead into. -/
theorem Within.of_real
    (spelled : Spelled place)
    (otherSpelled : Spelled other)
    (notPrivate : other ≠ [ascii "private"])
    (within : Within (Hostfs.real place) (Hostfs.real other)) :
    Within place other := by
  match other, place, within with
  | [], _, _ => exact List.nil_prefix
  | name :: other, [], within =>
      rw [real_cons] at within
      split at within <;> cases List.prefix_nil.mp within
  | name :: other, first :: place, within =>
      unfold Within at within
      rw [real_cons, real_cons] at within
      by_cases nameLinks : name ∈ links <;> by_cases firstLinks : first ∈ links
      · rw [if_pos nameLinks, if_pos firstLinks] at within
        exact (List.cons_prefix_cons.mp within).2
      · rw [if_pos nameLinks, if_neg firstLinks] at within
        obtain ⟨rfl, more⟩ := List.cons_prefix_cons.mp within
        obtain ⟨rest, rfl⟩ := more
        exact absurd nameLinks spelled.notMem_links
      · rw [if_neg nameLinks, if_pos firstLinks] at within
        obtain ⟨rfl, more⟩ := List.cons_prefix_cons.mp within
        cases other with
        | nil => exact absurd rfl notPrivate
        | cons next other =>
            obtain ⟨rfl, _⟩ := List.cons_prefix_cons.mp more
            exact absurd firstLinks otherSpelled.notMem_links
      · rwa [if_neg nameLinks, if_neg firstLinks] at within

theorem Spelled.dropLast (spelled : Spelled place) : Spelled place.dropLast := by
  match place, spelled with
  | [], _ => rfl
  | [_], _ => rfl
  | [_, _], _ => rfl
  | first :: link :: next :: below, spelled =>
      have kept : ¬ (first = ascii "private" ∧ link ∈ links) := by
        rintro ⟨rfl, isLink⟩
        exact spelled.notMem_links isLink
      exact if_neg kept

/-- The directory above a place is above it along the links too. -/
theorem real_dropLast_prefix : real place.dropLast <+: (real place).dropLast := by
  match place with
  | [] => exact List.nil_prefix
  | [_] => exact List.nil_prefix
  | first :: next :: below =>
      rw [List.dropLast_cons_of_ne_nil (List.cons_ne_nil next below), real_cons, real_cons]
      by_cases isLink : first ∈ links
      · rw [if_pos isLink, if_pos isLink]
        exact List.prefix_rfl
      · rw [if_neg isLink, if_neg isLink]
        exact List.prefix_rfl

theorem real_getLast? : (real place).getLast? = place.getLast? := by
  match place with
  | [] => rfl
  | first :: below =>
      rw [real_cons]
      split
      · rfl
      · rfl

/-! ## The policy of a host -/

theorem parent_render (proper : Proper place) :
    parent (render slash place) = render slash place.dropLast := by
  induction place using List.reverseRecOn with
  | nil => decide
  | append_singleton place name _ =>
      have free : slash ∉ name.reverse := by
        simpa using proper.free name (by simp)
      have cut : (render slash (place ++ [name])).reverse.idxOf slash = name.length := by
        rw [render_of_ne_nil (by simp), body_append, List.reverse_append, body_cons,
          List.reverse_append, List.reverse_cons, body_nil]
        simp [List.idxOf_append_of_notMem free]
      have long : (render slash (place ++ [name])).length =
          (body slash place).length + 1 + name.length := by
        rw [render_of_ne_nil (by simp), body_append]
        simp
        omega
      unfold parent
      simp only [cut, long, List.dropLast_concat]
      rw [show (body slash place).length + 1 + name.length - 1 - name.length =
        (body slash place).length by omega]
      cases place with
      | nil => rfl
      | cons first place =>
          rw [render_of_ne_nil (by simp), body_append, render_of_ne_nil (by simp),
            Nat.max_eq_left (by simp), List.take_left]

/-- What a directory of the policy is compared by. -/
theorem compared_eq :
    unprivate (normalize path [slash]) = render slash (spell (walk [] path)) := by
  have root : walk [] [slash] = [] := by decide
  rw [normalize_eq, root, ite_self, unprivate_render Proper.nil.walk]

/-- A place that an entry of the allow list covers. -/
def Allowed (allow : Option Path) (place : Place) : Prop :=
  ∃ entry ∈ entries allow, Within place (located entry)

variable
  {root : Path}
  {allow getcwd : Option Path}
  {policy : Policy}
  {dirfd : Dirfd}

theorem init_eq (made : (init (some root) allow).policy = some policy) :
    init (some root) allow = { policy := some policy, active := true } ∧
      policy.root = render slash (spell (walk [] root)) ∧
      policy.scratch = render slash (spell (walk [] root)).dropLast ∧
      policy.allow = (entries allow).map fun a =>
        render slash (spell (walk [] a)) := by
  unfold init at made ⊢
  by_cases empty : root = []
  · simp only [if_pos empty] at made
    cases made
  · simp only [if_neg empty, Option.some_inj] at made ⊢
    subst made
    simp only [compared_eq, parent_render Proper.nil.walk.spell, and_self]

/-- A call is checked by the spelling of the place its path leads to. -/
theorem checkAt_eq
    (made : (init (some root) allow).policy = some policy)
    (leads : dirfd.leads getcwd path = some place) :
    ∃ seen, Proper seen ∧ Spelled seen ∧ real seen = place ∧
      ∀ ancestors, (init (some root) allow).checkAt getcwd dirfd (some path) ancestors =
        if policy.permits (render slash seen) ancestors then .permitted
        else .refused (if ancestors then .ENOENT else .EACCES) := by
  have guard := (init_eq made).1
  have checked : ∀ (given : Path) (ancestors : Bool),
      (init (some root) allow).check getcwd (some given) ancestors =
        if policy.permits (render slash (spell
          (walk (if given.head? = some slash then [] else walk [] (cwd getcwd)) given)))
          ancestors then .permitted
        else .refused (if ancestors then .ENOENT else .EACCES) := by
    intro given ancestors
    rw [guard]
    have here : (if given.head? = some slash then []
        else walk [] (if given.head? = some slash then [] else cwd getcwd)) =
        if given.head? = some slash then [] else walk [] (cwd getcwd) := by
      split <;> rfl
    have start : Proper (if given.head? = some slash then [] else walk [] (cwd getcwd)) := by
      split
      · exact Proper.nil
      · exact Proper.nil.walk
    simp only [Guard.check, normalize_eq, here, unprivate_render start.walk, Bool.not_true,
      Bool.or_false, Bool.false_eq_true, if_false]
  unfold Dirfd.leads at leads
  by_cases absolute : path.head? = some slash
  · rw [if_pos absolute, Option.some_inj] at leads
    refine ⟨spell (walk [] path), Proper.nil.walk.spell, spelled_spell, ?_, ?_⟩
    · rw [real_spell, ← leads]
      rfl
    · intro ancestors
      have direct : (init (some root) allow).checkAt getcwd dirfd (some path) ancestors =
          (init (some root) allow).check getcwd (some path) ancestors := by
        cases dirfd with
        | cwd => rfl
        | fd dir => exact if_pos absolute
      rw [direct, checked, if_pos absolute]
  · rw [if_neg absolute] at leads
    match dirfd with
    | .cwd =>
        obtain rfl := Option.some_inj.mp leads
        refine ⟨_, Proper.nil.walk.walk.spell, spelled_spell, real_spell, ?_⟩
        intro ancestors
        have direct : (init (some root) allow).checkAt getcwd .cwd (some path) ancestors =
            (init (some root) allow).check getcwd (some path) ancestors := rfl
        rw [direct, checked, if_neg absolute]
    | .fd none => cases leads
    | .fd (some dir) =>
        obtain rfl := Option.some_inj.mp leads
        refine ⟨_, Proper.nil.walk.walk.spell, spelled_spell, real_spell, ?_⟩
        intro ancestors
        have joined : (dir.val ++ slash :: path).head? = some slash := by
          rw [List.head?_append, dir.property]
          rfl
        have behind : (init (some root) allow).checkAt getcwd (.fd (some dir)) (some path)
            ancestors = (init (some root) allow).check getcwd
              (some (dir.val ++ slash :: path)) ancestors := if_neg absolute
        rw [behind, checked, if_pos joined, walk_append]

/-- Outside `/private` itself hosts are kept apart: in the scratch directory a
call that is not about metadata is let through to the host's own directory, to
what is allowed, and to the one file every program reads; and all of the host's
own directory is let through. -/
theorem checkAt_apart
    (made : (init (some root) allow).policy = some policy)
    (leads : dirfd.leads getcwd path = some place) :
    (policy.scratch ≠ ascii "/private" →
      (init (some root) allow).checkAt getcwd dirfd (some path) false = .permitted →
      Within place (located root).dropLast →
      ¬ Within place (located root) →
      Allowed allow place ∨ place.getLast? = some (ascii ".CFUserTextEncoding")) ∧
    (policy.root ≠ ascii "/private" →
      Within place (located root) →
      (init (some root) allow).checkAt getcwd dirfd (some path) false = .permitted) := by
  obtain ⟨-, rootEq, scratchEq, allowEq⟩ := init_eq made
  obtain ⟨seen, proper, spelled, rfl, checked⟩ := checkAt_eq made leads
  have home : Proper (spell (walk [] root)) := Proper.nil.walk.spell
  have homeReal : real (spell (walk [] root)) = located root := real_spell
  have underRoot : under (render slash seen) policy.root = true ↔
      Within seen (spell (walk [] root)) := by
    rw [rootEq]
    exact under_render proper home
  constructor
  · intro notPrivate permitted inScratch notOwn
    rw [checked] at permitted
    have permits : policy.permits (render slash seen) false = true := by
      by_contra refused
      rw [if_neg refused] at permitted
      cases permitted
    have foreign : under (render slash seen) policy.root = false := by
      rw [Bool.eq_false_iff]
      intro own
      exact notOwn (homeReal ▸ (underRoot.mp own).real)
    have sibling : under (render slash seen) policy.scratch = true := by
      rw [scratchEq] at notPrivate ⊢
      rw [under_render proper (home.of_sublist (List.dropLast_sublist _))]
      refine Within.of_real spelled spelled_spell.dropLast ?_ ?_
      · intro isPrivate
        exact notPrivate (by rw [isPrivate, ascii_private])
      · rw [← homeReal] at inScratch
        exact real_dropLast_prefix.trans inScratch
    simp only [Policy.permits, foreign, sibling, Bool.false_and, Bool.or_false,
      Bool.not_false, Bool.true_and, Bool.not_true, Bool.or_eq_true] at permits
    obtain ends | covered := permits
    · right
      rw [real_getLast?]
      have name : ascii "/.CFUserTextEncoding" = slash :: ascii ".CFUserTextEncoding" := by
        decide
      rw [name, List.isSuffixOf_iff_suffix] at ends
      exact (suffix_render_iff ⟨by decide, by decide⟩ proper.free).mp ends
    · left
      rw [allowEq, List.any_map, List.any_eq_true] at covered
      obtain ⟨entry, isEntry, isUnder⟩ := covered
      have within := (under_render proper Proper.nil.walk.spell).mp isUnder
      exact ⟨entry, isEntry, by
        have := within.real
        rwa [real_spell] at this⟩
  · intro notPrivate own
    rw [checked]
    refine if_pos ?_
    have isOwn : under (render slash seen) policy.root = true := by
      rw [rootEq] at notPrivate
      refine underRoot.mpr (Within.of_real spelled spelled_spell ?_ (homeReal ▸ own))
      intro isPrivate
      exact notPrivate (by rw [isPrivate, ascii_private])
    simp [Policy.permits, isOwn]

theorem not_allowed_none : ¬ Allowed none place := by
  rintro ⟨entry, isEntry, _⟩
  have empty : entries none = [] := by decide
  rw [empty] at isEntry
  cases isEntry

/-- Of two hosts below a system location, the one's working directory in the
other spelling: its neighbour's file is refused, its own is not. -/
theorem checkAt_apart_neighbour :
    (init (some (ascii "/var/folders/s/alpha")) none).checkAt
        (some (ascii "/private/var/folders/s/alpha")) .cwd
        (some (ascii "../beta//x")) false ≠ .permitted ∧
      (init (some (ascii "/var/folders/s/alpha")) none).checkAt
        (some (ascii "/private/var/folders/s/alpha")) .cwd
        (some (ascii ".././alpha/x")) false = .permitted := by
  have made : (init (some (ascii "/var/folders/s/alpha")) none).policy =
      some { root := ascii "/var/folders/s/alpha", scratch := ascii "/var/folders/s",
             allow := [] } := by decide +kernel
  constructor
  · intro permitted
    obtain allowed | ends := (checkAt_apart made (by rfl)).1 (by decide) permitted
      (by decide +kernel) (by decide +kernel)
    · exact not_allowed_none allowed
    · exact absurd ends (by decide +kernel)
  · exact (checkAt_apart made (by rfl)).2 (by decide) (by decide +kernel)

/-- With hosts directly in `/private`, a system location in it is let through;
with `/private` as a host's own, what the links lead to in it is refused. -/
theorem not_apart_private :
    (¬ ∀ root allow policy, (init (some root) allow).policy = some policy →
      ∀ getcwd dirfd path place, Dirfd.leads getcwd dirfd path = some place →
        (init (some root) allow).checkAt getcwd dirfd (some path) false = .permitted →
        Within place (located root).dropLast → ¬ Within place (located root) →
        Allowed allow place ∨ place.getLast? = some (ascii ".CFUserTextEncoding")) ∧
    ¬ ∀ root allow policy, (init (some root) allow).policy = some policy →
      ∀ getcwd dirfd path place, Dirfd.leads getcwd dirfd path = some place →
        Within place (located root) →
        (init (some root) allow).checkAt getcwd dirfd (some path) false = .permitted := by
  constructor
  · intro all
    obtain allowed | ends := all (ascii "/private/alpha") none _ (by rfl) none .cwd
      (ascii "/private/etc/x") _ (by rfl) (by decide +kernel) (by decide +kernel)
      (by decide +kernel)
    · exact not_allowed_none allowed
    · exact absurd ends (by decide +kernel)
  · intro all
    have permitted := all (ascii "/private") none _ (by rfl) none .cwd
      (ascii "/private/tmp/x") _ (by rfl) (by decide +kernel)
    exact absurd permitted (by decide +kernel)

end Hostfs

end Derp

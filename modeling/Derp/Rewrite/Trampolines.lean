import Derp.Rewrite.Builder
import Mathlib.Data.List.Basic

/-!
# The trampoline of a site

An attempt in an area either writes the whole trampoline, whose words are given
here at once, or leaves something that is taken back.  So trying the areas in
turn comes down to the first area that the trampoline of the site fits.
-/

universe u

namespace Derp

namespace Rewrite

/-- What one site puts into an area and into the two lists. -/
structure Trampoline where
  siteWord : Nat
  words : List Nat
  site : Site
deriving DecidableEq, Repr

/-- What the displaced instruction becomes, at a word of the area. -/
def Area.tailWords (a : Area) (site spot : Nat) : Tail → Option (List Nat)
  | .jump target island =>
      match Stub.b (a.wordAddr spot) target with
      | some w => some [w]
      | none =>
          if island then
            (Stub.adrp 16 (a.wordAddr spot) target).map fun page =>
              [page, Stub.addImm 16 16 (target &&& 0xFFF), Stub.br 16]
          else none
  | .indirect rn => some [Stub.br rn]
  | .replay word =>
      (Stub.b (a.wordAddr (spot + 1)) ((site + 4) % 2 ^ 64)).map fun back => [word, back]

/-- A jump that reaches its target takes one word. -/
theorem Area.tailWords_jump {a : Area} {site spot target w : Nat}
    (reached : Stub.b (a.wordAddr spot) target = some w) (island : Bool) :
    a.tailWords site spot (.jump target island) = some [w] := by
  unfold tailWords
  dsimp only
  rw [reached]

theorem Area.tailWords_replay (a : Area) (site spot word : Nat) :
    a.tailWords site spot (.replay word) =
      (Stub.b (a.wordAddr (spot + 1)) ((site + 4) % 2 ^ 64)).map fun back => [word, back] := rfl

/-- How many words a guard puts in front. -/
def Guard.width (guard : Guard) : Nat := if guard = .none then 0 else 1

/-- The words of a trampoline behind its guard. -/
def Area.bodyWords (a : Area) (site spot : Nat) (tail : Tail) : Option (List Nat) :=
  (Stub.bl (a.wordAddr (spot + 1)) a.common).bind fun toCommon =>
    (a.tailWords site (spot + 3) tail).map fun words =>
      STR_X30_PRE :: toCommon :: LDR_X30_POST :: words

/-- The trampoline of a site at the end of an area. -/
def Area.trampoline (a : Area) (site : Nat) (guard : Guard) (call : Bool) (tail : Tail) :
    Option Trampoline :=
  let start := a.wordAddr a.code.length
  let spot := a.code.length + guard.width
  let record : Site :=
    { yieldPc := a.wordAddr (spot + 2), addr := site, kind := siteKind call tail }
  (if call then Stub.bl site start else Stub.b site start).bind fun siteWord =>
    (a.bodyWords site spot tail).bind fun body =>
      if guard = .none then some { siteWord, words := body, site := record }
      else
        let fallthrough := a.wordAddr (spot + body.length)
        (Stub.b fallthrough ((site + 4) % 2 ^ 64)).map fun back =>
          { siteWord, words := guard.word start fallthrough :: body ++ [back], site := record }

/-- The trampoline of a counter read at the end of an area. -/
def Area.counterTrampoline (a : Area) (site rt : Nat) : Option Trampoline :=
  let spot := a.code.length
  (Stub.b site (a.wordAddr spot)).bind fun siteWord =>
    (Stub.b (a.wordAddr (spot + 7)) ((site + 4) % 2 ^ 64)).map fun back =>
      { siteWord,
        words := [STR_X30_PRE, STP_X0_X1_PRE, unwrap (Stub.movzX 0 STUB_BASE),
          Stub.ldrXImm 1 0 COUNTER_ENTRY_OFFSET, BLR_X1, rt, LDR_X30_POST, back],
        site := { yieldPc := a.wordAddr (spot + 5), addr := site, kind := .counter } }

/-! ## What was written -/

namespace Builder

/-- The builder with so much more in its current area and in its lists. -/
def wrote (b : Builder) (code : List Nat) (patches : List (Nat × Nat)) (sites : List Site) :
    Builder :=
  { b.modifyArea fun a => { a with code := a.code ++ code } with
    patches := b.patches ++ patches, sites := b.sites ++ sites }

def place (b : Builder) (site : Nat) (t : Trampoline) : Builder :=
  b.wrote t.words [(site, t.siteWord)] [t.site]

def mark (b : Builder) : Nat × Nat × Nat := (b.len, b.patches.length, b.sites.length)

variable
  {b : Builder}
  {code : List Nat}
  {patches : List (Nat × Nat)}
  {sites : List Site}

theorem wrote_nil (b : Builder) : b.wrote [] [] [] = b := by
  have same : (fun a : Area => { a with code := a.code ++ [] }) = id := by
    funext a
    rw [List.append_nil]
    rfl
  simp only [wrote, modifyArea, List.append_nil b.patches, List.append_nil b.sites]
  rw [same, List.modify_id]

theorem area_wrote (inside : b.at_ < b.areas.length) :
    (b.wrote code patches sites).area = { b.area with code := b.area.code ++ code } := by
  simp [wrote, modifyArea, area, List.getD_eq_getElem?_getD, inside]

theorem wrote_wrote (code' : List Nat) (patches' : List (Nat × Nat)) (sites' : List Site) :
    (b.wrote code patches sites).wrote code' patches' sites' =
      b.wrote (code ++ code') (patches ++ patches') (sites ++ sites') := by
  simp only [wrote, modifyArea, List.modify_modify_eq, List.append_assoc]
  congr 2
  funext a
  simp only [Function.comp_apply, List.append_assoc]

theorem push_eq (w : Nat) : b.push w = b.wrote [w] [] [] := by
  simp [push, wrote, modifyArea]

theorem wordAddr_wrote (inside : b.at_ < b.areas.length) (i : Nat) :
    (b.wrote code patches sites).area.wordAddr i = b.area.wordAddr i := by
  rw [area_wrote inside]
  rfl

theorem len_wrote (inside : b.at_ < b.areas.length) :
    (b.wrote code patches sites).len = b.len + code.length := by
  unfold len
  rw [area_wrote inside, List.length_append]

theorem pc_wrote (inside : b.at_ < b.areas.length) :
    (b.wrote code patches sites).pc = b.area.wordAddr (b.len + code.length) := by
  unfold pc
  rw [wordAddr_wrote inside, area_wrote inside, List.length_append]
  rfl

theorem set_wrote (inside : b.at_ < b.areas.length) (i w : Nat) :
    (b.wrote code patches sites).set (b.len + i) w = b.wrote (code.set i w) patches sites := by
  have shape : b.areas[b.at_] = b.area := by
    simp [area, List.getD_eq_getElem?_getD, inside]
  simp only [wrote, set, modifyArea, List.modify_modify_eq]
  congr 1
  refine List.ext_getElem? fun j => ?_
  simp only [List.getElem?_modify]
  by_cases here : b.at_ = j
  · subst here
    simp only [List.getElem?_eq_getElem inside, shape, len, if_true, Function.comp_apply,
      Option.map_eq_map, Option.map_some, List.set_append_right _ _ (Nat.le_add_right ..),
      Nat.add_sub_cancel_left]
  · simp only [here, if_false]

/-- What was written after the marks is taken back. -/
theorem truncate_wrote (inside : b.at_ < b.areas.length) :
    (b.wrote code patches sites).truncate b.mark = b := by
  have shape : b.areas[b.at_] = b.area := by
    simp [area, List.getD_eq_getElem?_getD, inside]
  simp only [wrote, truncate, mark, modifyArea, List.modify_modify_eq, List.take_left]
  have kept : b.areas.modify b.at_
      ((fun a => { a with code := a.code.take b.len }) ∘
        fun a => { a with code := a.code ++ code }) = b.areas := by
    refine List.ext_getElem? fun j => ?_
    rw [List.getElem?_modify]
    by_cases here : b.at_ = j
    · subst here
      simp [List.getElem?_eq_getElem inside, shape, len]
    · simp [here]
  rw [kept]

end Builder

/-! ## One attempt -/

section Emit

variable
  {α β : Type}
  {x : Emit α}
  {f : α → Emit β}
  {b b' : Builder}
  {a : α}
  {e : OutOfRange}

theorem bind_ok (done : x b = .ok a b') : (x >>= f) b = f a b' := by
  change EStateM.bind x f b = _
  unfold EStateM.bind
  rw [done]

theorem bind_error (failed : x b = .error e b') : (x >>= f) b = .error e b' := by
  change EStateM.bind x f b = _
  unfold EStateM.bind
  rw [failed]

theorem get_eq (b : Builder) : (get : Emit Builder) b = .ok b b := rfl

theorem modify_eq (g : Builder → Builder) (b : Builder) :
    (modify g : Emit Unit) b = .ok () (g b) := rfl

theorem pure_eq {α : Type} (a : α) (b : Builder) : (pure a : Emit α) b = .ok a b := rfl

theorem orFar_some (site target w : Nat) (b : Builder) :
    orFar site target (some w) b = .ok w b := rfl

theorem orFar_none (site target : Nat) (b : Builder) :
    orFar site target none b = .error { site, target } b := rfl

end Emit

/-- An attempt writes a whole trampoline, or something that is taken back. -/
def Attempts (b : Builder) (site : Nat) (result : EStateM.Result OutOfRange Builder Unit) :
    Option Trampoline → Prop
  | some t => result = .ok () (b.place site t)
  | none => ∃ e code patches sites, result = .error e (b.wrote code patches sites)

section Attempt

variable
  {b : Builder}
  {code : List Nat}
  {patches : List (Nat × Nat)}
  {sites : List Site}

theorem emit_wrote (w : Nat) :
    emit w (b.wrote code patches sites) = .ok () (b.wrote (code ++ [w]) patches sites) := by
  have pushed : (b.wrote code patches sites).push w = b.wrote (code ++ [w]) patches sites := by
    rw [Builder.push_eq, Builder.wrote_wrote, List.append_nil, List.append_nil]
  rw [← pushed]
  rfl

/-- The displaced instruction is written whole, or the attempt fails. -/
theorem emitTail_wrote (inside : b.at_ < b.areas.length) (site : Nat) (tail : Tail) :
    match b.area.tailWords site (b.len + code.length) tail with
    | some words =>
        emitTail site tail (b.wrote code patches sites) =
          .ok () (b.wrote (code ++ words) patches sites)
    | none =>
        ∃ e code', emitTail site tail (b.wrote code patches sites) =
          .error e (b.wrote code' patches sites) := by
  cases tail with
  | indirect rn => exact emit_wrote _
  | jump target island =>
      unfold emitTail Area.tailWords
      dsimp only
      rw [bind_ok (get_eq _), Builder.pc_wrote inside]
      cases Stub.b (b.area.wordAddr (b.len + code.length)) target with
      | some w => exact emit_wrote _
      | none =>
          cases island with
          | false => exact ⟨_, code, rfl⟩
          | true =>
              simp only [not_true_eq_false, if_false, if_true]
              cases Stub.adrp 16 (b.area.wordAddr (b.len + code.length)) target with
              | none =>
                  rw [bind_error (orFar_none ..)]
                  exact ⟨_, code, rfl⟩
              | some page =>
                  rw [bind_ok (orFar_some ..), bind_ok (emit_wrote _), bind_ok (emit_wrote _)]
                  simp only [Option.map_some, emit_wrote, List.append_assoc, List.cons_append,
                    List.nil_append]
  | replay word =>
      unfold emitTail Area.tailWords
      dsimp only
      rw [bind_ok (emit_wrote _), bind_ok (get_eq _), Builder.pc_wrote inside,
        List.length_append, List.length_singleton, ← Nat.add_assoc]
      cases Stub.b (b.area.wordAddr (b.len + code.length + 1)) ((site + 4) % 2 ^ 64) with
      | none =>
          rw [bind_error (orFar_none ..)]
          exact ⟨_, _, rfl⟩
      | some back =>
          rw [bind_ok (orFar_some ..), emit_wrote, List.append_assoc]
          rfl

theorem emitBody_wrote (inside : b.at_ < b.areas.length)
    (site : Nat) (call : Bool) (tail : Tail) :
    match b.area.bodyWords site (b.len + code.length) tail with
    | some words =>
        emitBody site call tail (b.wrote code patches sites) =
          .ok () (b.wrote (code ++ words) patches
            (sites ++ [{ yieldPc := b.area.wordAddr (b.len + code.length + 2), addr := site,
                         kind := siteKind call tail }]))
    | none =>
        ∃ e code', emitBody site call tail (b.wrote code patches sites) =
          .error e (b.wrote code' patches sites) := by
  have common : ∀ code, (b.wrote code patches sites).area.common = b.area.common := by
    intro code
    rw [Builder.area_wrote inside]
  have later : b.len + (code ++ [STR_X30_PRE]).length = b.len + code.length + 1 := by
    rw [List.length_append, List.length_singleton, Nat.add_assoc]
  simp only [emitBody, Area.bodyWords]
  rw [bind_ok (emit_wrote _), bind_ok (get_eq _), common, Builder.pc_wrote inside, later]
  cases Stub.bl (b.area.wordAddr (b.len + code.length + 1)) b.area.common with
  | none =>
      rw [bind_error (orFar_none ..)]
      exact ⟨_, _, rfl⟩
  | some toCommon =>
      have spot : b.len + (code ++ [STR_X30_PRE] ++ [toCommon]).length =
          b.len + code.length + 2 := by
        simp [Nat.add_assoc]
      have end_ : b.len + (code ++ [STR_X30_PRE] ++ [toCommon] ++ [LDR_X30_POST]).length =
          b.len + code.length + 3 := by
        simp [Nat.add_assoc]
      rw [bind_ok (orFar_some ..), bind_ok (emit_wrote _), bind_ok (get_eq _),
        bind_ok (emit_wrote _), Builder.pc_wrote inside, spot]
      have tailed := @emitTail_wrote b (code ++ [STR_X30_PRE] ++ [toCommon] ++ [LDR_X30_POST])
        patches sites inside site tail
      rw [end_] at tailed
      simp only [Option.bind_some]
      cases words : b.area.tailWords site (b.len + code.length + 3) tail with
      | none =>
          rw [words] at tailed
          obtain ⟨e, code', failed⟩ := tailed
          rw [bind_error failed]
          exact ⟨e, code', rfl⟩
      | some words' =>
          rw [words] at tailed
          rw [bind_ok tailed]
          simp only [Option.map_some, List.append_assoc, List.cons_append, List.nil_append]
          rw [modify_eq]
          simp only [Builder.wrote, List.append_assoc, Builder.modifyArea]

/-- The attempt for a branch or a memory access. -/
theorem attempts_stubOrFar (inside : b.at_ < b.areas.length)
    (site : Nat) (guard : Guard) (call : Bool) (tail : Tail) :
    Attempts b site (stubOrFar site guard call tail b)
      (b.area.trampoline site guard call tail) := by
  unfold stubOrFar Area.trampoline
  dsimp only
  have length : b.area.code.length = b.len := rfl
  have start : b.pc = b.area.wordAddr b.len := rfl
  rw [bind_ok (get_eq _), start, length]
  cases (if call then Stub.bl site (b.area.wordAddr b.len)
      else Stub.b site (b.area.wordAddr b.len)) with
  | none =>
      rw [bind_error (orFar_none ..)]
      exact ⟨_, [], [], [], by rw [Builder.wrote_nil]⟩
  | some siteWord =>
      rw [bind_ok (orFar_some ..), bind_ok (modify_eq ..)]
      have patched : ({ b with patches := b.patches ++ [(site, siteWord)] } : Builder) =
          b.wrote [] [(site, siteWord)] [] := by
        conv_lhs => rw [← Builder.wrote_nil b]
        simp only [Builder.wrote, List.append_nil]
      rw [patched]
      simp only [Option.bind_some]
      by_cases open_ : guard = .none
      · subst open_
        rw [if_pos rfl, bind_ok (pure_eq ..)]
        have body := @emitBody_wrote b [] [(site, siteWord)] [] inside site call tail
        have width : Guard.none.width = 0 := rfl
        rw [List.length_nil, Nat.add_zero] at body
        simp only [width, Nat.add_zero]
        cases words : b.area.bodyWords site b.len tail with
        | none =>
            rw [words] at body
            obtain ⟨e, code, failed⟩ := body
            rw [bind_error failed]
            exact ⟨e, _, _, _, rfl⟩
        | some words' =>
            rw [words] at body
            rw [bind_ok body]
            rfl
      · have width : guard.width = 1 := if_neg open_
        have spot : (b.wrote ([] ++ [0]) [(site, siteWord)] []).len - 1 = b.len := by
          rw [Builder.len_wrote inside]
          rfl
        rw [if_neg open_, bind_ok (emit_wrote _), bind_ok (get_eq _), spot, bind_ok (pure_eq ..),
          List.nil_append, width]
        have body := @emitBody_wrote b [0] [(site, siteWord)] [] inside site call tail
        rw [List.length_singleton] at body
        cases words : b.area.bodyWords site (b.len + 1) tail with
        | none =>
            rw [words] at body
            obtain ⟨e, code, failed⟩ := body
            rw [bind_error failed]
            exact ⟨e, _, _, _, rfl⟩
        | some words' =>
            rw [words] at body
            have end_ : b.len + ([0] ++ words').length = b.len + 1 + words'.length := by
              simp [Nat.add_assoc, Nat.add_comm]
            rw [bind_ok body]
            simp only [Option.bind_some, if_neg open_]
            rw [bind_ok (get_eq _), bind_ok (modify_eq ..), Builder.pc_wrote inside, end_,
              Builder.wordAddr_wrote inside]
            have atStart : ∀ sites w, (b.wrote ([0] ++ words') [(site, siteWord)] sites).set
                b.len w = b.wrote (w :: words') [(site, siteWord)] sites :=
              fun _ w => Builder.set_wrote inside 0 w
            rw [atStart]
            cases Stub.b (b.area.wordAddr (b.len + 1 + words'.length))
                ((site + 4) % 2 ^ 64) with
            | none =>
                rw [bind_error (orFar_none ..)]
                exact ⟨_, _, _, _, rfl⟩
            | some back' =>
                rw [bind_ok (orFar_some ..), emit_wrote]
                rfl

/-- The attempt for a counter read. -/
theorem attempts_counterBody (inside : b.at_ < b.areas.length) (site rt : Nat) :
    Attempts b site (counterBody site rt b) (b.area.counterTrampoline site rt) := by
  unfold counterBody Area.counterTrampoline
  dsimp only
  have length : b.area.code.length = b.len := rfl
  have start : b.pc = b.area.wordAddr b.len := rfl
  rw [bind_ok (get_eq _), start, length]
  cases Stub.b site (b.area.wordAddr b.len) with
  | none =>
      rw [bind_error (orFar_none ..)]
      exact ⟨_, [], [], [], by rw [Builder.wrote_nil]⟩
  | some siteWord =>
      have patched : ({ b with patches := b.patches ++ [(site, siteWord)] } : Builder) =
          b.wrote [] [(site, siteWord)] [] := by
        conv_lhs => rw [← Builder.wrote_nil b]
        simp only [Builder.wrote, List.append_nil]
      rw [bind_ok (orFar_some ..), bind_ok (modify_eq ..), patched, bind_ok (emit_wrote _),
        bind_ok (emit_wrote _), bind_ok (emit_wrote _), bind_ok (emit_wrote _),
        bind_ok (emit_wrote _), bind_ok (get_eq _), bind_ok (emit_wrote _),
        bind_ok (emit_wrote _), bind_ok (get_eq _), Builder.pc_wrote inside,
        Builder.pc_wrote inside]
      simp only [List.length_append, List.length_cons, List.length_nil, Nat.zero_add,
        Nat.reduceAdd, Option.bind_some]
      cases Stub.b (b.area.wordAddr (b.len + 7)) ((site + 4) % 2 ^ 64) with
      | none =>
          rw [bind_error (orFar_none ..)]
          exact ⟨_, _, _, _, rfl⟩
      | some back =>
          rw [bind_ok (orFar_some ..), bind_ok (emit_wrote _), modify_eq]
          simp only [Option.map_some, Attempts, Builder.place, Builder.wrote, Builder.modifyArea,
            List.append_assoc, List.cons_append, List.nil_append]

end Attempt

/-! ## The area that takes a trampoline -/

/-- Whether the area still fits what it may hold with the trampoline in it. -/
def Area.takes (a : Area) (t : Trampoline) : Bool :=
  ({ a with code := a.code ++ t.words } : Area).fitting

/-- A site whose plan an area can take goes to the first such area; without one
the site is only counted. -/
inductive Tried (plan : Area → Option Trampoline) (site : Nat) (areas : List Nat) (b : Builder) :
    Builder × Bool → Prop
  | placed (i : Nat) (t : Trampoline)
      (isArea : i ∈ areas)
      (planned : plan { b with at_ := i }.area = some t)
      (takes : { b with at_ := i }.area.takes t = true) :
      Tried plan site areas b ({ ({ b with at_ := i } : Builder).place site t with at_ := 0 }, true)
  | unreachable
      (refuses : ∀ i ∈ areas, ∀ t, plan { b with at_ := i }.area = some t →
        { b with at_ := i }.area.takes t = false) :
      Tried plan site areas b ({ b with at_ := 0, unreachable := b.unreachable + 1 }, false)

/-- An area that takes nothing only hands the site on. -/
theorem Tried.cons {plan : Area → Option Trampoline} {site area : Nat} {areas : List Nat}
    {b : Builder} {result : Builder × Bool}
    (refuses : ∀ t, plan { b with at_ := area }.area = some t →
      { b with at_ := area }.area.takes t = false)
    (tried : Tried plan site areas { b with at_ := area } result) :
    Tried plan site (area :: areas) b result := by
  cases tried with
  | placed i t isArea planned takes =>
      exact .placed i t (List.mem_cons_of_mem _ isArea) planned takes
  | unreachable later =>
      refine .unreachable fun i isArea t planned => ?_
      obtain rfl | isLater := List.mem_cons.mp isArea
      · exact refuses t planned
      · exact later i isLater t planned

namespace Builder

/-- The areas are tried in turn, each as if it was the first. -/
theorem tried_tryAreas {body : Emit Unit} {plan : Area → Option Trampoline} {site : Nat}
    (attempts : ∀ b : Builder, b.at_ < b.areas.length →
      Attempts b site (body b) (plan b.area))
    {areas : List Nat} {b : Builder} (inside : ∀ i ∈ areas, i < b.areas.length) :
    Tried plan site areas b (b.tryAreas body areas) := by
  induction areas generalizing b with
  | nil => exact .unreachable fun i isArea => nomatch isArea
  | cons area areas ih =>
      have here : ({ b with at_ := area } : Builder).at_ <
          ({ b with at_ := area } : Builder).areas.length := inside area List.mem_cons_self
      have later : ∀ i ∈ areas, i < ({ b with at_ := area } : Builder).areas.length :=
        fun i isArea => inside i (List.mem_cons_of_mem _ isArea)
      have attempt := attempts { b with at_ := area } here
      unfold tryAreas
      dsimp only
      cases planned : plan { b with at_ := area }.area with
      | none =>
          rw [planned] at attempt
          obtain ⟨e, code, patches, sites, failed⟩ := attempt
          have undone := @truncate_wrote { b with at_ := area } code patches sites here
          unfold mark at undone
          simp only [failed, undone]
          exact (ih later).cons fun t isPlan => by rw [planned] at isPlan; cases isPlan
      | some t =>
          rw [planned] at attempt
          have placed : body { b with at_ := area } =
              .ok () (place { b with at_ := area } site t) :=
            attempt
          have fit : (place { b with at_ := area } site t).area.fitting =
              { b with at_ := area }.area.takes t := by
            unfold place
            rw [area_wrote here]
            rfl
          have undone := @truncate_wrote { b with at_ := area } t.words [(site, t.siteWord)]
            [t.site] here
          unfold mark at undone
          simp only [placed, fit]
          cases takes : ({ b with at_ := area } : Builder).area.takes t with
          | true => exact .placed area t List.mem_cons_self planned takes
          | false =>
              simp only [place, undone, Bool.false_eq_true, if_false]
              exact (ih later).cons fun u isPlan => by
                rw [planned, Option.some_inj] at isPlan
                rw [← isPlan, takes]

/-- A branch or a memory access is tried in every area. -/
theorem tried_stub (b : Builder) (site : Nat) (guard : Guard) (call : Bool) (tail : Tail) :
    Tried (fun a => a.trampoline site guard call tail) site (List.range b.areas.length)
      (b.count site) (b.stub site guard call tail) :=
  tried_tryAreas (fun _ inside => attempts_stubOrFar inside site guard call tail)
    fun _ isArea => List.mem_range.mp isArea

/-- A counter read is tried in every area. -/
theorem tried_counterStub (b : Builder) (site rt : Nat) :
    Tried (fun a => a.counterTrampoline site rt) site (List.range b.areas.length) b
      (b.counterStub site rt) :=
  tried_tryAreas (fun _ inside => attempts_counterBody inside site rt)
    fun _ isArea => List.mem_range.mp isArea

end Builder

/-! ## The shared body -/

/-- Every area's first words. -/
def sharedBody : List Nat :=
  [STP_X0_X1_PRE, 0xD2C00F00, Stub.ldrXImm 1 0 COUNTER_OFFSET, SUB_X1_X1_1,
    Stub.strXImm 1 0 COUNTER_OFFSET, 0xB4000061, LDP_X0_X1_POST, RET, STR_X30_PRE,
    Stub.ldrXImm 0 0 SLOT_OFFSET, 0xB4000040, BLR_X0, LDR_X30_POST, 0x17FFFFF9]

/-- Words of one area are as far apart as their numbers say. -/
theorem Area.offset_wordAddr (a : Area) {i j : Nat} {k : Int} (apart : (j : Int) = i + k)
    (near : -2 ^ 60 ≤ k ∧ k < 2 ^ 60) :
    offset (a.wordAddr i) (a.wordAddr j) = 4 * k := by
  rw [offset_eq]
  unfold Area.wordAddr
  split <;> omega

theorem emitCommon_eq {b : Builder} (inside : b.at_ < b.areas.length) :
    emitCommon b = .ok () ((b.modifyArea fun a => { a with common := b.pc }).wrote
      sharedBody [] []) := by
  have started : (b.modifyArea fun a => { a with common := b.pc }).at_ <
      (b.modifyArea fun a => { a with common := b.pc }).areas.length := by
    simpa [Builder.modifyArea] using inside
  unfold emitCommon
  rw [bind_ok (modify_eq ..)]
  generalize (b.modifyArea fun a => { a with common := b.pc }) = c at started
  have movz : unwrap (Stub.movzX 0 STUB_BASE) = 0xD2C00F00 := by decide
  have expired : unwrap (Stub.cbz true 1 false (c.area.wordAddr (c.len + 5))
      (c.area.wordAddr (c.len + 8))) = 0xB4000061 := by
    unfold Stub.cbz
    rw [c.area.offset_wordAddr (k := 3) (by omega) (by omega)]
    decide
  have skip : unwrap (Stub.cbz true 0 false (c.area.wordAddr (c.len + 10))
      (c.area.wordAddr (c.len + 12))) = 0xB4000040 := by
    unfold Stub.cbz
    rw [c.area.offset_wordAddr (k := 2) (by omega) (by omega)]
    decide
  have resume : unwrap (Stub.b (c.area.wordAddr (c.len + 13)) (c.area.wordAddr (c.len + 6))) =
      0x17FFFFF9 := by
    unfold Stub.b
    rw [c.area.offset_wordAddr (k := -7) (by omega) (by omega)]
    decide
  conv_lhs => rw [← Builder.wrote_nil c]
  rw [bind_ok (emit_wrote _), bind_ok (emit_wrote _), bind_ok (emit_wrote _),
    bind_ok (emit_wrote _), bind_ok (emit_wrote _), bind_ok (get_eq _), bind_ok (emit_wrote _),
    bind_ok (get_eq _), bind_ok (emit_wrote _), bind_ok (emit_wrote _), bind_ok (get_eq _),
    bind_ok (modify_eq ..)]
  simp only [Builder.len_wrote started, Builder.pc_wrote started, Builder.wordAddr_wrote started,
    Builder.set_wrote started, List.length_cons, List.length_nil,
    Nat.zero_add, Nat.reduceAdd, List.nil_append, List.cons_append, List.set_cons_succ,
    List.set_cons_zero, expired]
  rw [bind_ok (emit_wrote _), bind_ok (emit_wrote _), bind_ok (get_eq _), bind_ok (emit_wrote _),
    bind_ok (emit_wrote _), bind_ok (get_eq _), bind_ok (modify_eq ..)]
  simp only [Builder.len_wrote started, Builder.pc_wrote started, Builder.wordAddr_wrote started,
    Builder.set_wrote started, List.length_cons, List.length_nil,
    Nat.zero_add, Nat.reduceAdd, List.nil_append, List.cons_append, List.set_cons_succ,
    List.set_cons_zero, skip]
  rw [bind_ok (emit_wrote _), bind_ok (get_eq _), emit_wrote]
  simp only [Builder.pc_wrote started, List.length_cons, List.length_nil,
    Nat.zero_add, Nat.reduceAdd, List.cons_append, List.nil_append, resume, movz]
  rfl

/-- The area with the shared body at its start. -/
def Area.opened (a : Area) : Area := { a with common := a.wordAddr 0, code := sharedBody }

theorem modify_middle {α : Type u} (before : List α) (a : α) (after : List α) (f : α → α) :
    (before ++ a :: after).modify before.length f = before ++ f a :: after := by
  induction before with
  | nil => rfl
  | cons first before ih => simpa using ih

/-- From one area on, every area gets its copy of the shared body. -/
theorem Builder.emitCommons_eq (textBase : Nat) (later : List Area)
    (fresh : ∀ a ∈ later, a.code = []) (done : List Area) (at_ : Nat) :
    ∃ last, ({ areas := done ++ later, at_, textBase } : Builder).emitCommons
        (List.range' done.length later.length) =
      { areas := done ++ later.map Area.opened, at_ := last, textBase } := by
  induction later generalizing done at_ with
  | nil => exact ⟨at_, rfl⟩
  | cons a later ih =>
      have inside : done.length < (done ++ a :: later).length := by simp
      have blank : a.code = [] := fresh a List.mem_cons_self
      have here : ({ areas := done ++ a :: later, at_ := done.length, textBase } : Builder).area =
          a := by
        simp [area, List.getD_eq_getElem?_getD]
      have wrote := @emitCommon_eq
        { areas := done ++ a :: later, at_ := done.length, textBase } inside
      simp only [Builder.modifyArea, Builder.wrote, Builder.pc, here, blank, modify_middle,
        List.length_nil, List.nil_append, List.append_nil] at wrote
      obtain ⟨last, rest⟩ := ih (fun b isLater => fresh b (List.mem_cons_of_mem _ isLater))
        (done ++ [a.opened]) done.length
      refine ⟨last, ?_⟩
      rw [List.length_append, List.length_singleton, List.append_assoc, List.append_assoc] at rest
      unfold emitCommons at rest ⊢
      rw [List.length_cons, List.range'_succ, List.foldl_cons]
      simp only [wrote]
      exact rest

/-- The segment and the rooms, each with nothing but the shared body. -/
theorem Builder.new_eq (segment : Nat) (rooms : List (Nat × Nat)) (textBase : Nat) :
    Builder.new segment rooms textBase =
      { areas := ({ base := segment } : Area).opened :: rooms.map fun room =>
          ({ base := room.1, capacity := some (room.2 - room.1) } : Area).opened,
        textBase } := by
  have fresh : ∀ a ∈ ({ base := segment } : Area) :: rooms.map fun room =>
      ({ base := room.1, capacity := some (room.2 - room.1) } : Area), a.code = [] := by
    intro a isArea
    obtain rfl | isRoom := List.mem_cons.mp isArea
    · rfl
    · obtain ⟨room, _, rfl⟩ := List.mem_map.mp isRoom
      rfl
  obtain ⟨last, opened⟩ := Builder.emitCommons_eq textBase _ fresh [] 0
  rw [List.nil_append, List.length_nil, ← List.range_eq_range'] at opened
  unfold Builder.new
  simp only [opened, List.nil_append, List.map_cons, List.map_map]
  rfl

end Rewrite

end Derp

import Derp.Rewrite.Hooks
import Derp.Rewrite.Targets

/-!
# Where every trampoline leads

A trampoline is written for what its site's word is: its branches lead to the
shared body of its area, to words of the trampoline, behind the site, or where
the site's word leads itself.
-/

namespace Derp

namespace Rewrite

variable
  {a : Area}
  {cls : Class}
  {good : Nat → Prop}
  {site spot : Nat}
  {tail : Tail}
  {guard : Guard}
  {words : List Nat}

/-- What a trampoline does is what a word of the class does. -/
def Tail.Does (cls : Class) : Tail → Prop
  | .jump target _ => cls.leadsTo = some target ∧ target < 2 ^ 64
  | .indirect rn => (cls = .br rn ∨ cls = .blr rn) ∧ rn < 2 ^ 5
  | .replay word => (decode word 0).Plain

/-- A guard's operands are a condition, registers and bits. -/
def Guard.Valid : Guard → Prop
  | .none => True
  | .cond c => c < 14
  | .cbz _ rt _ => rt < 2 ^ 5
  | .tbz rt bit _ => rt < 2 ^ 5 ∧ bit < 2 ^ 6

theorem Area.wordAddr_lt (a : Area) (i : Nat) : a.wordAddr i < 2 ^ 64 :=
  Nat.mod_lt _ (by decide)

theorem leadsTo_b {pc target w : Nat} (isAddress : target < 2 ^ 64)
    (encoded : Stub.b pc target = some w) : (decode w pc).leadsTo = some target := by
  rw [Stub.decode_b isAddress encoded]
  rfl

theorem leadsTo_bl {pc target w : Nat} (isAddress : target < 2 ^ 64)
    (encoded : Stub.bl pc target = some w) : (decode w pc).leadsTo = some target := by
  rw [Stub.decode_bl isAddress encoded]
  rfl

/-- A branch in one word, whose target is far, through the register of the island. -/
theorem right_island {target page : Nat} (does : cls.leadsTo = some target)
    (isAddress : target < 2 ^ 64)
    (isPage : Stub.adrp 16 (a.wordAddr spot) target = some page) :
    Right a cls good spot [page, Stub.addImm 16 16 (target &&& 0xFFF), Stub.br 16] := by
  have pagePlain := plain_adrp (by decide) isPage
  obtain ⟨isAddend, addPlain⟩ := addendOf_addImm (show 16 < 2 ^ 5 by decide) 16 (by decide) target
  have isBr : ∀ pc, decode (Stub.br 16) pc = .br 16 := fun _ => decode_brWord (by decide)
  refine ⟨fun k w isWord target' isTarget => ?_, fun k w rn isWord isRegister => ?_⟩
  · match k, isWord with
    | 0, isWord =>
        obtain rfl := Option.some.inj isWord
        rw [(pagePlain _).leadsTo] at isTarget
        cases isTarget
    | 1, isWord =>
        obtain rfl := Option.some.inj isWord
        rw [(addPlain _).leadsTo] at isTarget
        cases isTarget
    | 2, isWord =>
        obtain rfl := Option.some.inj isWord
        rw [isBr] at isTarget
        cases isTarget
  · match k, isWord with
    | 0, isWord =>
        obtain rfl := Option.some.inj isWord
        rw [(pagePlain _).register] at isRegister
        cases isRegister
    | 1, isWord =>
        obtain rfl := Option.some.inj isWord
        rw [(addPlain _).register] at isRegister
        cases isRegister
    | 2, isWord =>
        obtain rfl := Option.some.inj isWord
        rw [isBr] at isRegister
        obtain rfl := Option.some.inj isRegister
        refine Or.inr ⟨rfl, page, _, le_rfl, rfl, rfl, ?_⟩
        rw [does, isAddend, Nat.sub_self, Nat.add_zero, pageOf_adrp isAddress (by decide) isPage]
        exact congrArg some (by omega)

/-- The displaced instruction leads where it always led, or back behind its site. -/
theorem right_tailWords (does : tail.Does cls)
    (own : ∀ target, cls.leadsTo = some target → good target)
    (behind : good ((site + 4) % 2 ^ 64))
    (written : a.tailWords site spot tail = some words) :
    Right a cls good spot words ∧ words.length ≤ 3 := by
  cases tail with
  | jump target island =>
      obtain ⟨does, isAddress⟩ := does
      unfold Area.tailWords at written
      cases near : Stub.b (a.wordAddr spot) target with
      | some w =>
          simp only [near] at written
          obtain rfl := Option.some.inj written
          exact ⟨.cons_branch (leadsTo_b isAddress near) (own _ does) .nil,
            by rw [List.length_singleton]; decide⟩
      | none =>
          simp only [near] at written
          cases island with
          | false => cases written
          | true =>
              rw [if_pos rfl] at written
              obtain ⟨page, isPage, rfl⟩ := Option.map_eq_some_iff.mp written
              exact ⟨right_island does isAddress isPage, le_rfl⟩
  | indirect rn =>
      obtain ⟨does, isRegister⟩ := does
      obtain rfl := Option.some.inj written
      have isBr : ∀ pc, decode (Stub.br rn) pc = .br rn := fun _ => decode_brWord isRegister
      refine ⟨⟨fun k w isWord target' isTarget => ?_, fun k w rn' isWord isOther => ?_⟩,
        by rw [List.length_singleton]; decide⟩
      · match k, isWord with
        | 0, isWord =>
            obtain rfl := Option.some.inj isWord
            rw [isBr] at isTarget
            cases isTarget
      · match k, isWord with
        | 0, isWord =>
            obtain rfl := Option.some.inj isWord
            rw [isBr] at isOther
            obtain rfl := Option.some.inj isOther
            exact Or.inl does
  | replay word =>
      obtain ⟨back, isBack, rfl⟩ := Option.map_eq_some_iff.mp written
      refine ⟨.cons_plain does (.cons_branch (leadsTo_b ?_ isBack) behind .nil), by
        rw [List.length_cons, List.length_singleton]; decide⟩
      exact Nat.mod_lt _ (by decide)

/-- Behind its guard a trampoline calls the shared body of its area. -/
theorem right_bodyWords (does : tail.Does cls) (isAddress : a.common < 2 ^ 64)
    (common : good a.common)
    (own : ∀ target, cls.leadsTo = some target → good target)
    (behind : good ((site + 4) % 2 ^ 64))
    (written : a.bodyWords site spot tail = some words) :
    Right a cls good spot words ∧ words.length ≤ 6 := by
  unfold Area.bodyWords at written
  obtain ⟨toCommon, isCall, written⟩ := Option.bind_eq_some_iff.mp written
  obtain ⟨rest, isRest, rfl⟩ := Option.map_eq_some_iff.mp written
  obtain ⟨right, short⟩ := right_tailWords does own behind isRest
  refine ⟨.cons_plain (by decide) (.cons_branch (leadsTo_bl isAddress isCall) common
    (.cons_plain (by decide) right)), ?_⟩
  simp only [List.length_cons]
  omega

/-- A branch over a trampoline of so few words is always in reach. -/
theorem fits_wordAddr (a : Area) {i j bits : Nat} (behind : i ≤ j) (near : j ≤ i + 8)
    (wide : 14 ≤ bits) : fits (offset (a.wordAddr i) (a.wordAddr j)) bits = true := by
  rw [a.offset_wordAddr (k := (j : Int) - i) (by omega) (by omega)]
  have large : (2 : Int) ^ 15 ≤ 2 ^ (bits + 1) := by
    exact_mod_cast Nat.pow_le_pow_right (by decide) (by omega : 15 ≤ bits + 1)
  simp only [fits, decide_eq_true_eq]
  refine ⟨by omega, ?_, ?_⟩ <;> omega

/-- A guard leads behind the trampoline's body. -/
theorem leadsTo_guard {i j : Nat} (valid : guard.Valid) (isGuard : guard ≠ .none)
    (behind : i ≤ j) (near : j ≤ i + 8) :
    (decode (guard.word (a.wordAddr i) (a.wordAddr j)) (a.wordAddr i)).leadsTo =
      some (a.wordAddr j) := by
  have isAddress := a.wordAddr_lt j
  have fits_ := fun bits => @fits_wordAddr a i j bits behind near
  have encoded : ∀ {word : Option Nat}, word.isSome = true → word = some (unwrap word) := by
    intro word isSome
    obtain ⟨w, rfl⟩ := Option.isSome_iff_exists.mp isSome
    rfl
  cases guard with
  | none => exact absurd rfl isGuard
  | cond c =>
      have inverted : invertCond c < 14 := by
        have all : ∀ c < 14, invertCond c < 14 := by decide
        exact all c valid
      have written : (Stub.bCond (invertCond c) (a.wordAddr i) (a.wordAddr j)).isSome = true := by
        unfold Stub.bCond
        rw [if_pos (fits_ 19 (by decide))]
        rfl
      unfold Guard.word
      rw [Stub.decode_bCond isAddress inverted (encoded written)]
      rfl
  | cbz sf rt nonzero =>
      have written : (Stub.cbz sf rt (!nonzero) (a.wordAddr i) (a.wordAddr j)).isSome = true := by
        unfold Stub.cbz
        rw [if_pos (fits_ 19 (by decide))]
        rfl
      unfold Guard.word
      rw [Stub.decode_cbz isAddress valid (encoded written)]
      rfl
  | tbz rt bit nonzero =>
      have written :
          (Stub.tbz rt bit (!nonzero) (a.wordAddr i) (a.wordAddr j)).isSome = true := by
        unfold Stub.tbz
        rw [if_pos (fits_ 14 le_rfl)]
        rfl
      unfold Guard.word
      rw [Stub.decode_tbz isAddress valid.1 valid.2 (encoded written)]
      rfl

/-- Where a branch of a site's trampoline may lead, when so many words of the area from
one on are the trampoline. -/
def Area.Aim (a : Area) (site : Nat) (cls : Class) (spot count target : Nat) : Prop :=
  target = a.common ∨ (∃ k < count, target = a.wordAddr (spot + k)) ∨
    target = (site + 4) % 2 ^ 64 ∨ cls.leadsTo = some target

/-- What is true of every trampoline at the end of an area: its branches are right, and
its site leads to its start. -/
structure Trampoline.Leads (a : Area) (site : Nat) (cls : Class) (t : Trampoline) : Prop where
  right : Right a cls (a.Aim site cls a.code.length t.words.length) a.code.length t.words
  entry : (decode t.siteWord site).leadsTo = some (a.wordAddr a.code.length)
  filled : t.words ≠ []
  addr : t.site.addr = site

theorem leads_trampoline {call : Bool} {t : Trampoline}
    (planned : a.trampoline site guard call tail = some t) (isAddress : a.common < 2 ^ 64)
    (does : tail.Does cls) (valid : guard.Valid) : t.Leads a site cls := by
  unfold Area.trampoline at planned
  dsimp only at planned
  obtain ⟨siteWord, isSite, planned⟩ := Option.bind_eq_some_iff.mp planned
  obtain ⟨body, isBody, planned⟩ := Option.bind_eq_some_iff.mp planned
  have entry : (decode siteWord site).leadsTo = some (a.wordAddr a.code.length) := by
    cases call with
    | true => exact leadsTo_bl (a.wordAddr_lt _) isSite
    | false => exact leadsTo_b (a.wordAddr_lt _) isSite
  have bodyRight : ∀ count, Right a cls (a.Aim site cls a.code.length count)
      (a.code.length + guard.width) body ∧ body.length ≤ 6 :=
    fun count => right_bodyWords does isAddress (Or.inl rfl)
      (fun _ own => Or.inr (Or.inr (Or.inr own))) (Or.inr (Or.inr (Or.inl rfl))) isBody
  have bodyFilled : body ≠ [] := by
    obtain ⟨_, _, isRest⟩ := Option.bind_eq_some_iff.mp isBody
    obtain ⟨_, _, rfl⟩ := Option.map_eq_some_iff.mp isRest
    exact List.cons_ne_nil _ _
  by_cases isOpen : guard = .none
  · rw [if_pos isOpen] at planned
    obtain rfl := Option.some.inj planned
    subst isOpen
    exact { right := (bodyRight body.length).1, entry, filled := bodyFilled, addr := rfl }
  · rw [if_neg isOpen] at planned
    obtain ⟨back, isBack, rfl⟩ := Option.map_eq_some_iff.mp planned
    have width : guard.width = 1 := if_neg isOpen
    rw [width] at isBody bodyRight isBack
    have short := (bodyRight 0).2
    refine { right := ?_, entry, filled := List.cons_ne_nil _ _, addr := rfl }
    dsimp only
    rw [width]
    have aim : a.Aim site cls a.code.length (guard.word (a.wordAddr a.code.length)
        (a.wordAddr (a.code.length + 1 + body.length)) :: body ++ [back]).length
        (a.wordAddr (a.code.length + 1 + body.length)) := by
      refine Or.inr (Or.inl ⟨1 + body.length, ?_, by rw [Nat.add_assoc]⟩)
      simp only [List.length_append, List.length_cons, List.length_nil]
      omega
    have isBack := leadsTo_b (Nat.mod_lt _ (by decide)) isBack
    rw [show a.code.length + 1 + body.length = a.code.length + (body.length + 1) by omega]
      at isBack
    exact .append (.cons_branch (leadsTo_guard valid isOpen (by omega) (by omega)) aim
      (bodyRight _).1) isBack (Or.inr (Or.inr (Or.inl rfl)))

/-- The words of a counter's trampoline go nowhere but back. -/
theorem leads_counterTrampoline {rt : Nat} {t : Trampoline} (isRegister : rt < 29)
    (planned : a.counterTrampoline site rt = some t) : t.Leads a site cls := by
  unfold Area.counterTrampoline at planned
  dsimp only at planned
  obtain ⟨siteWord, isSite, planned⟩ := Option.bind_eq_some_iff.mp planned
  obtain ⟨back, isBack, rfl⟩ := Option.map_eq_some_iff.mp planned
  have number : (decode rt 0).Plain := by
    have all : ∀ rt < 29, (decode rt 0).Plain := by decide
    exact all rt isRegister
  refine
    { right := ?_
      entry := leadsTo_b (a.wordAddr_lt _) isSite
      filled := List.cons_ne_nil _ _
      addr := rfl }
  refine .cons_plain (by decide) (.cons_plain (by decide) (.cons_plain (by decide)
    (.cons_plain (by decide) (.cons_plain (by decide) (.cons_plain number
      (.cons_plain (by decide) (.cons_branch (leadsTo_b (Nat.mod_lt _ (by decide)) isBack)
        (Or.inr (Or.inr (Or.inl rfl))) .nil)))))))

/-! ## What the classes tell -/

/-- Registers, bits and conditions are numbers of their fields. -/
def Class.Valid : Class → Prop
  | .bCond cond _ => cond < 14
  | .cbz _ rt _ _ => rt < 2 ^ 5
  | .tbz rt bit _ _ => rt < 2 ^ 5 ∧ bit < 2 ^ 6
  | .br rn | .blr rn => rn < 2 ^ 5
  | _ => True

theorem Class.Valid.ite {p : Prop} [Decidable p] {c d : Class} (left : p → c.Valid)
    (right : ¬ p → d.Valid) : (if p then c else d).Valid := by
  split
  · exact left ‹_›
  · exact right ‹_›

theorem valid_decode {w : Nat} (isWord : w < 2 ^ 32) (pc : Nat) : (decode w pc).Valid := by
  have field : ∀ x : Nat, x &&& 0x1F < 2 ^ 5 := by
    intro x
    rw [and_1F]
    exact Nat.mod_lt _ (by decide)
  have any : ∀ {c : Class}, c = decodeMem w → c.Valid := by
    rintro _ rfl
    unfold decodeMem
    dsimp only
    repeat' split
    all_goals trivial
  unfold decode
  refine .ite (fun _ => trivial) fun _ => .ite (fun _ => trivial) fun _ =>
    .ite (fun _ => trivial) fun _ => .ite (fun _ => ?_) fun _ => .ite (fun _ => ?_) fun _ =>
    .ite (fun _ => ?_) fun _ => .ite (fun _ => field _) fun _ => .ite (fun _ => field _) fun _ =>
    .ite (fun _ => trivial) fun _ => .ite (fun _ => trivial) fun _ =>
    .ite (fun _ => any rfl) fun _ => .ite (fun _ => trivial) fun _ =>
    .ite (fun _ => trivial) fun _ => trivial
  · refine .ite (fun _ => trivial) fun low => ?_
    exact Nat.lt_of_not_le low
  · exact field _
  · refine ⟨field _, ?_⟩
    have top : w >>> 31 < 2 := by
      rw [Nat.shiftRight_eq_div_pow]
      omega
    rw [Nat.shiftLeft_eq, or_field 5 (field _)]
    have := field (w >>> 19)
    omega

variable {pc word : Nat} {t : Trampoline} {stackTainted : Bool} {p : Area → Option Trampoline}

/-- Whatever is planned for a word leads right. -/
theorem leads_of_planOf (isWord : word < 2 ^ 32) (isAddress : a.common < 2 ^ 64)
    (isPlan : planOf stackTainted pc word (decode word pc) = some p) (planned : p a = some t) :
    t.Leads a pc (decode word pc) := by
  have valid := valid_decode isWord pc
  have target := fun target => @leadsTo_lt word pc target
  cases isClass : decode word pc with
  | b to_ =>
      rw [isClass] at isPlan target
      simp only [planOf] at isPlan
      split at isPlan
      · cases isPlan
        exact leads_trampoline planned isAddress ⟨rfl, target _ rfl⟩ trivial
      · cases isPlan
  | bl to_ =>
      rw [isClass] at isPlan target
      cases isPlan
      exact leads_trampoline planned isAddress ⟨rfl, target _ rfl⟩ trivial
  | bCond cond to_ =>
      rw [isClass] at isPlan target valid
      simp only [planOf] at isPlan
      split at isPlan
      · cases isPlan
        exact leads_trampoline planned isAddress ⟨rfl, target _ rfl⟩ valid
      · cases isPlan
  | cbz sf rt nonzero to_ =>
      rw [isClass] at isPlan target valid
      simp only [planOf] at isPlan
      split at isPlan
      · cases isPlan
        exact leads_trampoline planned isAddress ⟨rfl, target _ rfl⟩ valid
      · cases isPlan
  | tbz rt bit nonzero to_ =>
      rw [isClass] at isPlan target valid
      simp only [planOf] at isPlan
      split at isPlan
      · cases isPlan
        exact leads_trampoline planned isAddress ⟨rfl, target _ rfl⟩ valid
      · cases isPlan
  | br rn =>
      rw [isClass] at isPlan valid
      cases isPlan
      exact leads_trampoline planned isAddress ⟨Or.inl rfl, valid⟩ trivial
  | blr rn =>
      rw [isClass] at isPlan valid
      simp only [planOf] at isPlan
      split at isPlan
      · cases isPlan
      · cases isPlan
        exact leads_trampoline planned isAddress ⟨Or.inr rfl, valid⟩ trivial
  | counter rt =>
      rw [isClass] at isPlan
      simp only [planOf] at isPlan
      split at isPlan
      · rename_i low
        cases isPlan
        exact leads_counterTrampoline low planned
      · cases isPlan
  | mem base =>
      have plain : (decode word pc).Plain := by
        rw [isClass]
        exact ⟨rfl, rfl⟩
      have plain : (decode word 0).Plain := plain_decode plain 0
      rw [isClass] at isPlan
      simp only [planOf] at isPlan
      split at isPlan
      · cases isPlan
      · cases isPlan
        exact leads_trampoline planned isAddress plain trivial
  | _ =>
      rw [isClass] at isPlan
      cases isPlan

end Rewrite

end Derp

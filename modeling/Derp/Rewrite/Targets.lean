import Derp.Rewrite.Trampolines

/-!
# Where trampolines lead

The words of a trampoline read back: a branch in it leads to the shared body of
its area, to a word of the trampoline, behind the site, or where the site's own
instruction leads.
-/

namespace Derp

namespace Rewrite

section Words

variable {w pc pc' : Nat}

/-- The register of a branch that is no call. -/
def Class.register : Class → Option Nat
  | .br rn => some rn
  | _ => none

/-- A class that is no branch but a call or a return through a register. -/
structure Class.Plain (c : Class) : Prop where
  leadsTo : c.leadsTo = none
  register : c.register = none

instance (c : Class) : Decidable c.Plain :=
  decidable_of_iff (c.leadsTo = none ∧ c.register = none)
    ⟨fun both => ⟨both.1, both.2⟩, fun plain => ⟨plain.leadsTo, plain.register⟩⟩

theorem Class.Plain.ite {p : Prop} [Decidable p] {c d : Class} (left : c.Plain) (right : d.Plain) :
    (if p then c else d).Plain := by
  split
  · exact left
  · exact right

theorem plain_decodeMem (w : Nat) : (decodeMem w).Plain := by
  unfold decodeMem
  dsimp only
  repeat' split
  all_goals exact ⟨rfl, rfl⟩

/-- A class that is the same wherever it stands and leads nowhere, or that always leads
as far as a field says. -/
def Leads (c : Nat → Class) : Prop :=
  (∃ d : Class, d.leadsTo = none ∧ ∀ pc, c pc = d) ∨
    ∃ imm bits, ∀ pc, (c pc).leadsTo = some (rel pc imm bits)

theorem Leads.ite {p : Prop} [Decidable p] {c d : Nat → Class} (left : Leads c) (right : Leads d) :
    Leads fun pc => if p then c pc else d pc := by
  by_cases holds : p
  · simpa only [if_pos holds] using left
  · simpa only [if_neg holds] using right

theorem leads_decode (w : Nat) : Leads (decode w) := by
  have none_ : ∀ {d : Class}, d.leadsTo = none → Leads fun _ => d :=
    fun plain => Or.inl ⟨_, plain, fun _ => rfl⟩
  have some_ : ∀ {c : Nat → Class} (imm bits : Nat),
      (∀ pc, (c pc).leadsTo = some (rel pc imm bits)) → Leads c :=
    fun imm bits leads => Or.inr ⟨imm, bits, leads⟩
  change Leads fun pc => decode w pc
  unfold decode
  refine Leads.ite (none_ rfl) (.ite (some_ _ 26 fun _ => rfl) (.ite (some_ _ 26 fun _ => rfl)
    (.ite (.ite (some_ _ 19 fun _ => rfl) (some_ _ 19 fun _ => rfl))
      (.ite (some_ _ 19 fun _ => rfl) (.ite (some_ _ 14 fun _ => rfl) (.ite (none_ rfl)
        (.ite (none_ rfl) (.ite (none_ rfl) (.ite (none_ rfl)
          (.ite (none_ (plain_decodeMem w).leadsTo)
          (.ite (none_ rfl) (.ite (none_ rfl) (none_ rfl)))))))))))))

/-- A word that leads nowhere is of one class wherever it stands. -/
theorem decode_eq_of_leadsTo (isPlain : (decode w pc).leadsTo = none) (pc' : Nat) :
    decode w pc' = decode w pc := by
  obtain ⟨d, -, same⟩ | ⟨imm, bits, leads⟩ := leads_decode w
  · rw [same, same]
  · rw [leads pc] at isPlain
    cases isPlain

theorem leadsTo_eq_none (isPlain : (decode w pc).leadsTo = none) (pc' : Nat) :
    (decode w pc').leadsTo = none := by
  rw [decode_eq_of_leadsTo isPlain]
  exact isPlain

theorem plain_decode (isPlain : (decode w pc).Plain) (pc' : Nat) : (decode w pc').Plain := by
  rw [decode_eq_of_leadsTo isPlain.leadsTo]
  exact isPlain

theorem leadsTo_lt {target : Nat} (isTarget : (decode w pc).leadsTo = some target) :
    target < 2 ^ 64 := by
  obtain ⟨d, plain, same⟩ | ⟨imm, bits, leads⟩ := leads_decode w
  · rw [same, plain] at isTarget
    cases isTarget
  · obtain rfl := Option.some.inj ((leads pc).symm.trans isTarget)
    unfold rel
    omega

/-- A word with a target is no branch to a register, wherever it stands. -/
theorem register_of_leadsTo {target : Nat} (isTarget : (decode w pc).leadsTo = some target)
    (pc' : Nat) : (decode w pc').register = none := by
  cases isClass : decode w pc' with
  | br rn =>
      have plain : (decode w pc').leadsTo = none := by rw [isClass]; rfl
      have := leadsTo_eq_none plain pc
      rw [isTarget] at this
      cases this
  | _ => rfl

end Words

section Far

variable {pc target rd w : Nat}

/-- The page an `adrp` leaves in its register. -/
def pageOf (w pc : Nat) : Nat :=
  (((pc >>> 12 : Nat) + sext ((w >>> 5 &&& 0x7FFFF) <<< 2 ||| (w >>> 29 &&& 3)) 21) * 2 ^ 12 %
    2 ^ 64).toNat

/-- What an `add` of a number adds. -/
def addendOf (w : Nat) : Nat := w >>> 10 &&& 0xFFF

theorem and_FFF (w : Nat) : w &&& 0xFFF = w % 2 ^ 12 := and_low w 12

theorem and_3 (w : Nat) : w &&& 3 = w % 2 ^ 2 := and_low w 2

/-- The fields of an `adrp`, one behind the other. -/
theorem adrp_eq (isRegister : rd < 2 ^ 5) (encoded : Stub.adrp rd pc target = some w) :
    ∃ low field : Nat, low < 4 ∧ field < 2 ^ 19 ∧
      sext (field * 2 ^ 2 + low) 21 = (target / 2 ^ 12 : Nat) - (pc / 2 ^ 12 : Nat) ∧
        w = (0x90 + low * 2 ^ 5) * 2 ^ 24 + field * 2 ^ 5 + rd := by
  unfold Stub.adrp at encoded
  simp only [Nat.shiftRight_eq_div_pow, and_3, and_7FFFF] at encoded
  split_ifs at encoded with near
  obtain ⟨near, far⟩ := near
  generalize ((target / 2 ^ 12 : Nat) : Int) - (pc / 2 ^ 12 : Nat) = pages at near far encoded ⊢
  refine ⟨asU32 pages % 2 ^ 2, asU32 pages / 2 ^ 2 % 2 ^ 19, Nat.mod_lt _ (by decide),
    Nat.mod_lt _ (by decide), ?_, ?_⟩
  · have imm : (asU32 pages : Int) = pages % 2 ^ 32 := by
      unfold asU32
      omega
    generalize asU32 pages = n at imm ⊢
    have back : n / 2 ^ 2 % 2 ^ 19 * 2 ^ 2 + n % 2 ^ 2 = n % 2 ^ 21 := by omega
    unfold sext
    rw [back, Nat.mod_mod]
    split <;> omega
  · rw [← Option.some.inj encoded]
    have small : asU32 pages % 2 ^ 2 < 2 ^ 2 := Nat.mod_lt _ (by decide)
    generalize asU32 pages % 2 ^ 2 = low at small
    have top : 0x90000000 ||| low <<< 29 = (0x90 + low * 2 ^ 5) * 2 ^ 24 := by
      obtain rfl | rfl | rfl | rfl : low = 0 ∨ low = 1 ∨ low = 2 ∨ low = 3 := by omega
      · rfl
      · rfl
      · rfl
      · rfl
    rw [top, word_19 _ (Nat.mod_lt _ (by decide)) isRegister]

theorem pageOf_adrp (isAddress : target < 2 ^ 64) (isRegister : rd < 2 ^ 5)
    (encoded : Stub.adrp rd pc target = some w) : pageOf w pc = target / 2 ^ 12 * 2 ^ 12 := by
  obtain ⟨low, field, isLow, isField, isPages, rfl⟩ := adrp_eq isRegister encoded
  unfold pageOf
  rw [Nat.shiftRight_eq_div_pow, Nat.shiftRight_eq_div_pow, Nat.shiftRight_eq_div_pow, and_7FFFF,
    and_3, show ((0x90 + low * 2 ^ 5) * 2 ^ 24 + field * 2 ^ 5 + rd) / 2 ^ 5 % 2 ^ 19 = field by
      omega,
    show ((0x90 + low * 2 ^ 5) * 2 ^ 24 + field * 2 ^ 5 + rd) / 2 ^ 29 % 2 ^ 2 = low by omega,
    Nat.shiftLeft_eq, or_field 2 isLow, isPages]
  omega

theorem plain_adrp (isRegister : rd < 2 ^ 5) (encoded : Stub.adrp rd pc target = some w)
    (pc' : Nat) : (decode w pc').Plain := by
  obtain ⟨low, field, isLow, isField, -, rfl⟩ := adrp_eq isRegister encoded
  generalize isWord : (0x90 + low * 2 ^ 5) * 2 ^ 24 + field * 2 ^ 5 + rd = w
  unfold decode
  rw [and_FFFFFFE0, and_FC000000, and_FF000000, and_7E000000, and_FFFFFC1F, if_neg (by omega),
    if_neg (by omega), if_neg (by omega), if_neg (by omega), if_neg (by omega),
    if_neg (by omega), if_neg (by omega), if_neg (by omega), if_neg (by omega)]
  exact .ite ⟨rfl, rfl⟩ (.ite (plain_decodeMem w) (.ite ⟨rfl, rfl⟩ (.ite ⟨rfl, rfl⟩ ⟨rfl, rfl⟩)))

theorem addImm_eq (isRegister : rd < 2 ^ 5) (rn : Nat) (isOther : rn < 2 ^ 5) (target : Nat) :
    Stub.addImm rd rn (target &&& 0xFFF) =
      0x91 * 2 ^ 24 + target % 2 ^ 12 * 2 ^ 10 + rn * 2 ^ 5 + rd := by
  have small : target % 2 ^ 12 < 2 ^ 12 := Nat.mod_lt _ (by decide)
  unfold Stub.addImm
  rw [and_FFF]
  generalize target % 2 ^ 12 = imm at small
  rw [Nat.shiftLeft_eq, Nat.shiftLeft_eq, show 0x91000000 = 0x91 * 2 ^ 24 from rfl,
    or_field 24 (by omega),
    show 0x91 * 2 ^ 24 + imm * 2 ^ 10 = (0x91 * 2 ^ 14 + imm) * 2 ^ 10 by omega,
    or_field 10 (by omega),
    show (0x91 * 2 ^ 14 + imm) * 2 ^ 10 + rn * 2 ^ 5 =
      ((0x91 * 2 ^ 14 + imm) * 2 ^ 5 + rn) * 2 ^ 5 by omega,
    or_field 5 isRegister]

/-- An `add` of the rest to the page gives the address. -/
theorem addendOf_addImm (isRegister : rd < 2 ^ 5) (rn : Nat) (isOther : rn < 2 ^ 5) (target : Nat) :
    addendOf (Stub.addImm rd rn (target &&& 0xFFF)) = target % 2 ^ 12 ∧
      ∀ pc, (decode (Stub.addImm rd rn (target &&& 0xFFF)) pc).Plain := by
  have small : target % 2 ^ 12 < 2 ^ 12 := Nat.mod_lt _ (by decide)
  rw [addImm_eq isRegister rn isOther]
  generalize target % 2 ^ 12 = imm at small
  constructor
  · unfold addendOf
    rw [Nat.shiftRight_eq_div_pow, and_FFF]
    omega
  · intro pc
    generalize isWord : 0x91 * 2 ^ 24 + imm * 2 ^ 10 + rn * 2 ^ 5 + rd = w
    unfold decode
    rw [and_FFFFFFE0, and_FC000000, and_FF000000, and_7E000000, and_FFFFFC1F, if_neg (by omega),
      if_neg (by omega), if_neg (by omega), if_neg (by omega), if_neg (by omega),
      if_neg (by omega), if_neg (by omega), if_neg (by omega), if_neg (by omega)]
    exact .ite ⟨rfl, rfl⟩ (.ite (plain_decodeMem w) (.ite ⟨rfl, rfl⟩ (.ite ⟨rfl, rfl⟩ ⟨rfl, rfl⟩)))

end Far

section Right

variable {a : Area} {cls : Class} {good : Nat → Prop} {i : Nat} {words : List Nat}

/-- Words that stand in an area from a number on: their targets are good, and a branch
to a register is the site's own, or goes to the address that the two words in front
of it leave in x16, which is where the site's instruction leads. -/
structure Right (a : Area) (cls : Class) (good : Nat → Prop) (i : Nat) (words : List Nat) :
    Prop where
  leads : ∀ k w, words[k]? = some w → ∀ target,
    (decode w (a.wordAddr (i + k))).leadsTo = some target → good target
  registers : ∀ k w rn, words[k]? = some w →
    (decode w (a.wordAddr (i + k))).register = some rn →
      (cls = .br rn ∨ cls = .blr rn) ∨
        rn = 16 ∧ ∃ page addend, 2 ≤ k ∧ words[k - 2]? = some page ∧
          words[k - 1]? = some addend ∧
            cls.leadsTo = some (pageOf page (a.wordAddr (i + (k - 2))) + addendOf addend)

theorem Right.nil : Right a cls good i [] where
  leads := fun _ _ isWord => by cases isWord
  registers := fun _ _ _ isWord => by cases isWord

theorem Right.cons {w : Nat}
    (leads : ∀ target, (decode w (a.wordAddr i)).leadsTo = some target → good target)
    (register : (decode w (a.wordAddr i)).register = none)
    (rest : Right a cls good (i + 1) words) : Right a cls good i (w :: words) := by
  refine ⟨fun k v isWord target isTarget => ?_, fun k v rn isWord isRegister => ?_⟩
  · cases k with
    | zero =>
        obtain rfl := Option.some.inj isWord
        exact leads target isTarget
    | succ k =>
        rw [show i + (k + 1) = i + 1 + k by omega] at isTarget
        exact rest.leads k v isWord target isTarget
  · cases k with
    | zero =>
        obtain rfl := Option.some.inj isWord
        rw [Nat.add_zero, register] at isRegister
        cases isRegister
    | succ k =>
        rw [show i + (k + 1) = i + 1 + k by omega] at isRegister
        obtain own | ⟨isFar, page, addend, two, isPage, isAddend, isTarget⟩ :=
          rest.registers k v rn isWord isRegister
        · exact Or.inl own
        · refine Or.inr ⟨isFar, page, addend, by omega, ?_, ?_, ?_⟩
          · rwa [show k + 1 - 2 = k - 2 + 1 by omega, List.getElem?_cons_succ]
          · rwa [show k + 1 - 1 = k - 1 + 1 by omega, List.getElem?_cons_succ]
          · rwa [show i + (k + 1 - 2) = i + 1 + (k - 2) by omega]

theorem Right.cons_plain {w : Nat} (plain : (decode w 0).Plain)
    (rest : Right a cls good (i + 1) words) : Right a cls good i (w :: words) := by
  have plain := plain_decode plain (a.wordAddr i)
  refine .cons (fun target isTarget => ?_) plain.register rest
  rw [plain.leadsTo] at isTarget
  cases isTarget

/-- A branch in front, or the only word. -/
theorem Right.cons_branch {w target : Nat}
    (isTarget : (decode w (a.wordAddr i)).leadsTo = some target) (isGood : good target)
    (rest : Right a cls good (i + 1) words) : Right a cls good i (w :: words) := by
  refine .cons (fun target' isTarget' => ?_) (register_of_leadsTo isTarget _) rest
  obtain rfl := Option.some.inj (isTarget.symm.trans isTarget')
  exact isGood

theorem Right.append {w target : Nat} (rest : Right a cls good i words)
    (isTarget : (decode w (a.wordAddr (i + words.length))).leadsTo = some target)
    (isGood : good target) : Right a cls good i (words ++ [w]) := by
  refine ⟨fun k v isWord target' isTarget' => ?_, fun k v rn isWord isRegister => ?_⟩
  · obtain inside | behind := Nat.lt_or_ge k words.length
    · rw [List.getElem?_append_left inside] at isWord
      exact rest.leads k v isWord target' isTarget'
    · obtain rfl : k = words.length := by
        have := (List.getElem?_eq_some_iff.mp isWord).1
        rw [List.length_append, List.length_singleton] at this
        omega
      rw [List.getElem?_concat_length] at isWord
      obtain rfl := Option.some.inj isWord
      obtain rfl := Option.some.inj (isTarget.symm.trans isTarget')
      exact isGood
  · obtain inside | behind := Nat.lt_or_ge k words.length
    · rw [List.getElem?_append_left inside] at isWord
      obtain own | ⟨isFar, page, addend, two, isPage, isAddend, isTarget'⟩ :=
        rest.registers k v rn isWord isRegister
      · exact Or.inl own
      · refine Or.inr ⟨isFar, page, addend, two, ?_, ?_, isTarget'⟩
        · rwa [List.getElem?_append_left (by omega)]
        · rwa [List.getElem?_append_left (by omega)]
    · obtain rfl : k = words.length := by
        have := (List.getElem?_eq_some_iff.mp isWord).1
        rw [List.length_append, List.length_singleton] at this
        omega
      rw [List.getElem?_concat_length] at isWord
      obtain rfl := Option.some.inj isWord
      rw [register_of_leadsTo isTarget] at isRegister
      cases isRegister

end Right

end Rewrite

end Derp

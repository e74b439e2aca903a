import Derp.Library.Text

/-!
# Fields of a line

Numbers are printed in hexadecimal and read back.  A line is cut at a separator, at
its last separator, or in front of the last place of a pattern, and a name is taken
apart from its end, number by number.
-/

namespace Text

/-! ## Hexadecimal numbers -/

/-- A number as it is printed in hexadecimal. -/
def hexadecimal (n : Nat) : Text := Nat.toDigits 16 n

/-- The value of a digit, of either case. -/
def hexDigit (c : Char) : Option Nat :=
  if '0' ≤ c ∧ c ≤ '9' then some (c.toNat - '0'.toNat)
  else if 'a' ≤ c ∧ c ≤ 'f' then some (c.toNat - 'a'.toNat + 10)
  else if 'A' ≤ c ∧ c ≤ 'F' then some (c.toNat - 'A'.toNat + 10)
  else none

/-- The value of digits behind those of `value`. -/
def hexDigits (value : Nat) : Text → Option Nat
  | [] => some value
  | c :: text => (hexDigit c).bind fun digit => hexDigits (16 * value + digit) text

/-- A hexadecimal number of so many bits that is read: digits, and a sign in front of
them at most. -/
def parseHexadecimal (bits : Nat) (text : Text) : Option Nat :=
  let digits := match text with
    | '+' :: rest => rest
    | _ => text
  if digits = [] then none
  else (hexDigits 0 digits).bind fun n => if n < 2 ^ bits then some n else none

theorem hexDigit_digitChar : ∀ digit < 16, hexDigit digit.digitChar = some digit := by
  decide

theorem hexDigits_append (value : Nat) (text rest : Text) :
    hexDigits value (text ++ rest) =
      (hexDigits value text).bind fun n => hexDigits n rest := by
  induction text generalizing value with
  | nil => rfl
  | cons c text ih =>
      change (hexDigit c).bind (fun digit => hexDigits (16 * value + digit) (text ++ rest)) =
        ((hexDigit c).bind fun digit => hexDigits (16 * value + digit) text).bind _
      cases hexDigit c with
      | none => rfl
      | some digit => exact ih _

theorem hexDigits_hexadecimal (n : Nat) : hexDigits 0 (hexadecimal n) = some n := by
  unfold hexadecimal
  induction n using Nat.strongRecOn with
  | ind n ih =>
      by_cases small : n < 16
      · rw [Nat.toDigits_of_lt_base small]
        unfold hexDigits
        rw [hexDigit_digitChar n small]
        exact congrArg some (Nat.zero_add n)
      · have shorter : n / 16 < n := by omega
        rw [Nat.toDigits_of_base_le (by decide) (by omega), hexDigits_append, ih _ shorter]
        change hexDigits (n / 16) [(n % 16).digitChar] = some n
        unfold hexDigits
        rw [hexDigit_digitChar _ (Nat.mod_lt n (by decide))]
        exact congrArg some (Nat.div_add_mod n 16)

/-- The characters of a hexadecimal number are digits. -/
theorem isDigit_of_mem_hexadecimal {n : Nat} {c : Char} (present : c ∈ hexadecimal n) :
    ∃ digit < 16, c = digit.digitChar := by
  unfold hexadecimal at present
  induction n using Nat.strongRecOn with
  | ind n ih =>
      by_cases small : n < 16
      · rw [Nat.toDigits_of_lt_base small] at present
        exact ⟨n, small, List.mem_singleton.1 present⟩
      · rw [Nat.toDigits_of_base_le (by decide) (by omega), List.mem_append] at present
        obtain early | late := present
        · exact ih _ (by omega) early
        · exact ⟨n % 16, Nat.mod_lt n (by decide), List.mem_singleton.1 late⟩

theorem notMem_hexadecimal {c : Char} (n : Nat) (other : hexDigit c = none) :
    c ∉ hexadecimal n := by
  intro present
  obtain ⟨digit, small, rfl⟩ := isDigit_of_mem_hexadecimal present
  rw [hexDigit_digitChar digit small] at other
  cases other

theorem hexadecimal_ne_nil (n : Nat) : hexadecimal n ≠ [] := Nat.toDigits_ne_nil

/-- What is printed is read back. -/
theorem parseHexadecimal_hexadecimal {bits n : Nat} (small : n < 2 ^ bits) :
    parseHexadecimal bits (hexadecimal n) = some n := by
  have unsigned : (match hexadecimal n with
      | '+' :: rest => rest
      | _ => hexadecimal n) = hexadecimal n := by
    split
    · rename_i rest same
      have present : '+' ∈ hexadecimal n := by
        rw [same]
        exact List.mem_cons_self
      exact absurd present (notMem_hexadecimal n (by decide))
    · rfl
  unfold parseHexadecimal
  dsimp only
  rw [unsigned, if_neg (hexadecimal_ne_nil n), hexDigits_hexadecimal]
  exact if_pos small

theorem parseHexadecimal_lt {bits n : Nat} {text : Text}
    (parsed : parseHexadecimal bits text = some n) : n < 2 ^ bits := by
  unfold parseHexadecimal at parsed
  dsimp only at parsed
  generalize (match text with
    | '+' :: rest => rest
    | _ => text) = digits at parsed
  split at parsed
  · cases parsed
  · obtain ⟨m, -, fits⟩ := Option.bind_eq_some_iff.1 parsed
    split at fits
    · next small => exact Option.some.inj fits ▸ small
    · cases fits

/-! ## The last separator -/

/-- The text in front of the last separator, and the text behind. -/
def rsplitOnce (separator : Char) : Text → Option (Text × Text)
  | [] => none
  | c :: text =>
      match rsplitOnce separator text with
      | some parts => some (c :: parts.1, parts.2)
      | none => if c = separator then some ([], text) else none

theorem rsplitOnce_eq_none {separator : Char} {text : Text} (absent : separator ∉ text) :
    rsplitOnce separator text = none := by
  induction text with
  | nil => rfl
  | cons c text ih =>
      have other : c ≠ separator := fun same => absent (same ▸ List.mem_cons_self)
      unfold rsplitOnce
      rw [ih fun present => absent (List.mem_cons_of_mem c present)]
      exact if_neg other

/-- A text is cut where a part begins in which the separator is missing. -/
theorem rsplitOnce_append {separator : Char} (front : Text) {rest : Text}
    (absent : separator ∉ rest) :
    rsplitOnce separator (front ++ separator :: rest) = some (front, rest) := by
  induction front with
  | nil =>
      change rsplitOnce separator (separator :: rest) = _
      unfold rsplitOnce
      rw [rsplitOnce_eq_none absent]
      exact if_pos rfl
  | cons c front ih =>
      rw [List.cons_append]
      unfold rsplitOnce
      rw [ih]

/-- The text in front of the pattern's last place. -/
def frontOfLast (pattern : Text) : Text → Option Text
  | [] => if pattern = [] then some [] else none
  | c :: text =>
      match frontOfLast pattern text with
      | some front => some (c :: front)
      | none => if pattern.isPrefixOf (c :: text) then some [] else none

theorem frontOfLast_eq_none {c : Char} (pattern : Text) {text : Text} (absent : c ∉ text) :
    frontOfLast (c :: pattern) text = none := by
  induction text with
  | nil => rfl
  | cons d text ih =>
      unfold frontOfLast
      rw [ih fun present => absent (List.mem_cons_of_mem d present)]
      refine if_neg fun isPrefix => absent ?_
      rw [(List.cons_prefix_cons.1 (List.isPrefixOf_iff_prefix.1 isPrefix)).1]
      exact List.mem_cons_self

/-- The pattern's last place is where its first character comes for the last time. -/
theorem frontOfLast_append {c : Char} {pattern : Text} (front : Text) {rest : Text}
    (absent : c ∉ pattern ++ rest) :
    frontOfLast (c :: pattern) (front ++ c :: pattern ++ rest) = some front := by
  induction front with
  | nil =>
      have isPrefix : (c :: pattern).isPrefixOf (c :: (pattern ++ rest)) = true :=
        List.isPrefixOf_iff_prefix.2 (List.prefix_append (c :: pattern) rest)
      change frontOfLast (c :: pattern) (c :: (pattern ++ rest)) = some []
      unfold frontOfLast
      rw [frontOfLast_eq_none pattern absent]
      exact if_pos isPrefix
  | cons d front ih =>
      rw [List.cons_append, List.cons_append]
      unfold frontOfLast
      rw [ih]

/-! ## The numbers at the end of a name -/

/-- What ends in a number ends in a digit. -/
theorem isDigit_of_getLast? {front : Text} {c d : Char} {n : Nat}
    (last : (front ++ c :: decimal n).getLast? = some d) : d.isDigit = true := by
  have nonempty : decimal n ≠ [] := Nat.toDigits_ne_nil
  rw [List.getLast?_append_cons, List.getLast?_cons, List.getLast?_eq_some_getLast nonempty]
    at last
  obtain rfl : (decimal n).getLast nonempty = d := Option.some.inj last
  exact isDigit_of_mem_decimal (List.getLast_mem nonempty)

/-- A name ends in a number of its own, and what is in front of it is its own too. -/
theorem append_decimal_inj {front front' : Text} {c c' : Char} {n n' : Nat}
    (mark : c.isDigit = false)
    (mark' : c'.isDigit = false)
    (same : front ++ c :: decimal n = front' ++ c' :: decimal n') :
    front = front' ∧ c = c' ∧ n = n' := by
  have digits (n : Nat) : ∀ d ∈ (decimal n).reverse, d.isDigit = true := fun d present =>
    isDigit_of_mem_decimal (List.mem_reverse.1 present)
  have backwards : (decimal n).reverse ++ c :: front.reverse =
      (decimal n').reverse ++ c' :: front'.reverse := by
    simpa [List.append_assoc] using congrArg List.reverse same
  have ends := congrArg (List.takeWhile Char.isDigit) backwards
  rw [List.takeWhile_append_of_pos (digits n), List.takeWhile_append_of_pos (digits n'),
    List.takeWhile_cons_of_neg (by simp [mark]), List.takeWhile_cons_of_neg (by simp [mark']),
    List.append_nil, List.append_nil, List.reverse_inj] at ends
  have fronts := congrArg (List.dropWhile Char.isDigit) backwards
  rw [List.dropWhile_append_of_pos (digits n), List.dropWhile_append_of_pos (digits n'),
    List.dropWhile_cons_of_neg (by simp [mark]), List.dropWhile_cons_of_neg (by simp [mark']),
    List.cons.injEq, List.reverse_inj] at fronts
  exact ⟨fronts.2, fronts.1, decimal_injective ends⟩

end Text

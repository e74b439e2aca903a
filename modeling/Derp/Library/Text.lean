import Mathlib.Algebra.Order.Ring.Nat
import Mathlib.Data.List.Basic
import Mathlib.Data.List.DropRight
import Mathlib.Data.List.Infix

/-!
# Text

Text is a list of characters.  Numbers are printed in decimal, names are compared
without regard to upper and lower case, and lines and words are cut out of a text.
-/

abbrev Text := List Char

namespace Text

/-! ## Numbers -/

/-- A number as it is printed. -/
def decimal (n : Nat) : Text := Nat.toDigits 10 n

theorem decimal_injective : Function.Injective decimal := by
  intro n m same
  calc
    n = Nat.ofDigitChars 10 (decimal n) 0 := Nat.ofDigitChars_ten_toDigits.symm
    _ = Nat.ofDigitChars 10 (decimal m) 0 := by rw [same]
    _ = m := Nat.ofDigitChars_ten_toDigits

theorem isDigit_of_mem_decimal {n : Nat} {c : Char} (present : c ∈ decimal n) : c.isDigit = true :=
  Nat.isDigit_of_mem_toDigits (by decide) (by decide) present

/-- A number of so many bits that is read: digits, and a sign in front of them at most. -/
def parseUnsigned (bits : Nat) (text : Text) : Option Nat :=
  let digits := match text with
    | '+' :: rest => rest
    | _ => text
  if digits ≠ [] ∧ digits.all Char.isDigit ∧ Nat.ofDigitChars 10 digits 0 < 2 ^ bits then
    some (Nat.ofDigitChars 10 digits 0)
  else none

/-- What is printed is read back. -/
theorem parseUnsigned_decimal {bits n : Nat} (small : n < 2 ^ bits) :
    parseUnsigned bits (decimal n) = some n := by
  have areDigits : (decimal n).all Char.isDigit = true :=
    List.all_eq_true.mpr fun _ => isDigit_of_mem_decimal
  have value : Nat.ofDigitChars 10 (decimal n) 0 = n := Nat.ofDigitChars_ten_toDigits
  have unsigned : (match decimal n with
      | '+' :: rest => rest
      | _ => decimal n) = decimal n := by
    split
    · rename_i rest same
      have present : '+' ∈ decimal n := by
        rw [same]
        exact List.mem_cons_self
      exact absurd (isDigit_of_mem_decimal present) (by decide)
    · rfl
  unfold parseUnsigned
  dsimp only
  rw [unsigned, value, if_pos ⟨Nat.toDigits_ne_nil, areDigits, small⟩]

theorem parseUnsigned_lt {bits n : Nat} {text : Text} (parsed : parseUnsigned bits text = some n) :
    n < 2 ^ bits := by
  unfold parseUnsigned at parsed
  dsimp only at parsed
  generalize (match text with
    | '+' :: rest => rest
    | _ => text) = digits at parsed
  split_ifs at parsed with fits
  obtain rfl := Option.some.inj parsed
  exact fits.2.2

/-! ## Upper and lower case -/

/-- The text in lower case. -/
def fold (text : Text) : Text := text.map Char.toLower

theorem fold_append (text text' : Text) : fold (text ++ text') = fold text ++ fold text' :=
  List.map_append

theorem length_fold (text : Text) : (fold text).length = text.length := List.length_map _

theorem toLower_of_isDigit {c : Char} (isDigit : c.isDigit = true) : c.toLower = c := by
  unfold Char.toLower
  rw [dif_neg]
  rintro ⟨low, -⟩
  unfold Char.isDigit at isDigit
  rw [Bool.and_eq_true, decide_eq_true_eq, decide_eq_true_eq] at isDigit
  have high := isDigit.2
  have := UInt32.le_iff_toNat_le.mp low
  have := UInt32.le_iff_toNat_le.mp high
  have upper : 'A'.val.toNat = 65 := rfl
  have nine : '9'.val.toNat = 57 := rfl
  omega

/-- A letter is no digit in lower case either. -/
theorem isDigit_of_toLower {c : Char} (isDigit : c.toLower.isDigit = true) : c.isDigit = true := by
  unfold Char.toLower at isDigit
  split at isDigit
  · rename_i upper
    exfalso
    unfold Char.isDigit at isDigit
    rw [Bool.and_eq_true, decide_eq_true_eq, decide_eq_true_eq] at isDigit
    have high := UInt32.le_iff_toNat_le.mp isDigit.2
    have low := UInt32.le_iff_toNat_le.mp upper.1
    have below := UInt32.le_iff_toNat_le.mp upper.2
    have nine : '9'.val.toNat = 57 := rfl
    have first : 'A'.val.toNat = 65 := rfl
    have last : 'Z'.val.toNat = 90 := rfl
    have shift : ('a'.val - 'A'.val).toNat = 32 := rfl
    rw [UInt32.toNat_add] at high
    omega
  · exact isDigit

/-- Digits are what they are in lower case. -/
theorem fold_eq_iff {text digits : Text} (areDigits : ∀ c ∈ digits, c.isDigit = true) :
    fold text = digits ↔ text = digits := by
  constructor
  · rintro rfl
    have same : ∀ c ∈ text, c.toLower = c := fun c present =>
      toLower_of_isDigit (isDigit_of_toLower (areDigits _ (List.mem_map_of_mem present)))
    exact ((List.map_congr_left same).trans (List.map_id _)).symm
  · rintro rfl
    exact (List.map_congr_left fun c present => toLower_of_isDigit (areDigits c present)).trans
      (List.map_id _)

theorem fold_decimal (n : Nat) : fold (decimal n) = decimal n :=
  (fold_eq_iff fun _ => isDigit_of_mem_decimal).mpr rfl

/-! ## Parts of a text -/

/-- The text in front of the pattern's first place, and the text behind. -/
def splitOnce (pattern : Text) : Text → Option (Text × Text)
  | [] => if pattern = [] then some ([], []) else none
  | c :: text =>
      if pattern.isPrefixOf (c :: text) then some ([], (c :: text).drop pattern.length)
      else (splitOnce pattern text).map fun parts => (c :: parts.1, parts.2)

def stripPrefix (start text : Text) : Option Text :=
  if start.isPrefixOf text then some (text.drop start.length) else none

def stripSuffix (ending text : Text) : Option Text :=
  if ending.isSuffixOf text then some (text.take (text.length - ending.length)) else none

theorem stripPrefix_append (start rest : Text) : stripPrefix start (start ++ rest) = some rest := by
  unfold stripPrefix
  rw [if_pos (List.isPrefixOf_iff_prefix.mpr (List.prefix_append start rest)), List.drop_left]

theorem stripSuffix_append (front ending : Text) :
    stripSuffix ending (front ++ ending) = some front := by
  unfold stripSuffix
  rw [if_pos (List.isSuffixOf_iff_suffix.mpr (List.suffix_append front ending)),
    List.length_append, Nat.add_sub_cancel, List.take_left]

theorem stripSuffix_eq_none {ending text : Text} (other : ¬ ending <:+ text) :
    stripSuffix ending text = none := by
  unfold stripSuffix
  rw [if_neg fun isSuffix => other (List.isSuffixOf_iff_suffix.mp isSuffix)]

/-- A text is split behind a part in which the pattern's first character is missing. -/
theorem splitOnce_append {c : Char} (pattern : Text) {front : Text} (absent : c ∉ front)
    (rest : Text) :
    splitOnce (c :: pattern) (front ++ c :: pattern ++ rest) = some (front, rest) := by
  induction front with
  | nil =>
      have isPrefix : (c :: pattern).isPrefixOf (c :: (pattern ++ rest)) = true :=
        List.isPrefixOf_iff_prefix.mpr (List.prefix_append (c :: pattern) rest)
      change splitOnce (c :: pattern) (c :: (pattern ++ rest)) = _
      unfold splitOnce
      rw [if_pos isPrefix, ← List.cons_append, List.drop_left]
  | cons d front ih =>
      have other : d ≠ c := fun same => absent (same ▸ List.mem_cons_self)
      unfold splitOnce
      rw [List.cons_append, List.cons_append]
      dsimp only
      rw [if_neg, ih fun present => absent (List.mem_cons_of_mem d present)]
      · rfl
      · intro isPrefix
        exact other (List.cons_prefix_cons.mp (List.isPrefixOf_iff_prefix.mp isPrefix)).1.symm

theorem splitOnce_eq_none {c : Char} (pattern : Text) {text : Text} (absent : c ∉ text) :
    splitOnce (c :: pattern) text = none := by
  induction text with
  | nil => rfl
  | cons d text ih =>
      have other : d ≠ c := fun same => absent (same ▸ List.mem_cons_self)
      unfold splitOnce
      rw [if_neg, ih fun present => absent (List.mem_cons_of_mem d present)]
      · rfl
      · intro isPrefix
        exact other (List.cons_prefix_cons.mp (List.isPrefixOf_iff_prefix.mp isPrefix)).1.symm

/-- A text is cut where a part ends whose characters are all of a kind. -/
theorem rdropWhile_append {p : Char → Bool} {front ending : Text}
    (other : ∀ c ∈ front, p c = false) (kind : ∀ c ∈ ending, p c = true) :
    List.rdropWhile p (front ++ ending) = front ∧
      List.rtakeWhile p (front ++ ending) = ending := by
  have isFirst : ∀ c ∈ ending.reverse, p c = true := fun c present =>
    kind c (List.mem_reverse.mp present)
  have stops : List.dropWhile p front.reverse = front.reverse ∧
      List.takeWhile p front.reverse = [] := by
    cases reversed : front.reverse with
    | nil => exact ⟨rfl, rfl⟩
    | cons c rest =>
        have last : p c = false := other c (List.mem_reverse.mp (reversed ▸ List.mem_cons_self))
        rw [List.dropWhile_cons, List.takeWhile_cons, last]
        exact ⟨rfl, rfl⟩
  unfold List.rdropWhile List.rtakeWhile
  rw [List.reverse_append, List.dropWhile_append_of_pos isFirst,
    List.takeWhile_append_of_pos isFirst, stops.1, stops.2, List.append_nil, List.reverse_reverse,
    List.reverse_reverse]
  exact ⟨rfl, rfl⟩

/-! ## Lines -/

/-- A line without the carriage return in front of its end. -/
def stripReturn (line : Text) : Text :=
  if line.getLast? = some '\r' then line.dropLast else line

/-- The lines of a text, `line` being read of the first. -/
def linesFrom (line : Text) : Text → List Text
  | [] => if line = [] then [] else [line]
  | c :: text =>
      if c = '\n' then stripReturn line :: linesFrom [] text else linesFrom (line ++ [c]) text

def lines (text : Text) : List Text := linesFrom [] text

/-- What stands in one line, and ends like one. -/
def IsLine (line : Text) : Prop := '\n' ∉ line ∧ line.getLast? ≠ some '\r'

/-- What is behind the end of a line is lines of its own. -/
theorem linesFrom_append (line text rest : Text) :
    linesFrom line (text ++ '\n' :: rest) = linesFrom line (text ++ ['\n']) ++ lines rest := by
  induction text generalizing line with
  | nil =>
      change linesFrom line ('\n' :: rest) = linesFrom line ['\n'] ++ lines rest
      unfold linesFrom
      rfl
  | cons c text ih =>
      rw [List.cons_append, List.cons_append]
      unfold linesFrom
      split
      · rw [ih, List.cons_append]
      · exact ih _

theorem lines_append (text rest : Text) :
    lines (text ++ '\n' :: rest) = lines (text ++ ['\n']) ++ lines rest :=
  linesFrom_append [] text rest

theorem linesFrom_of_notMem (line : Text) {text : Text} (oneLine : '\n' ∉ text) :
    linesFrom line (text ++ ['\n']) = [stripReturn (line ++ text)] := by
  induction text generalizing line with
  | nil =>
      change linesFrom line ['\n'] = _
      unfold linesFrom
      rw [if_pos rfl, List.append_nil]
      rfl
  | cons c text ih =>
      have other : c ≠ '\n' := fun same => oneLine (same ▸ List.mem_cons_self)
      rw [List.cons_append]
      unfold linesFrom
      rw [if_neg other, ih _ fun present => oneLine (List.mem_cons_of_mem c present),
        List.append_assoc, List.singleton_append]

theorem lines_of_isLine {line : Text} (isLine : IsLine line) : lines (line ++ ['\n']) = [line] := by
  unfold lines
  rw [linesFrom_of_notMem [] isLine.1, List.nil_append]
  unfold stripReturn
  rw [if_neg isLine.2]

/-- Lines that are printed are read back. -/
theorem lines_unlines {printed : List Text} (areLines : ∀ line ∈ printed, IsLine line) :
    lines (printed.flatMap (· ++ ['\n'])) = printed := by
  induction printed with
  | nil => rfl
  | cons line printed ih =>
      rw [List.flatMap_cons, List.append_assoc, List.singleton_append, lines_append,
        lines_of_isLine (areLines line List.mem_cons_self),
        ih fun other present => areLines other (List.mem_cons_of_mem line present)]
      rfl

end Text

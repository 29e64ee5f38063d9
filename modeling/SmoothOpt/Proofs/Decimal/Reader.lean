import Mathlib
import SmoothOpt.Decimal.Reader
import SmoothOpt.Scalar.Double
import SmoothOpt.Text.Blank

/-!
What the readers of numbers accept.

The text of an integer reads back as that integer. A text that reads as an integer also reads as a
real number, and as the same one unless it is minus zero. No text that reads as a real number has a
blank.
-/
namespace SmoothOpt.Decimal

open Text

section Digits

variable {cs : List Char}

theorem digitsValue?_of_all (digits : ∀ c ∈ cs, c.isDigit = true) :
    digitsValue? cs = some (Nat.ofDigitChars 10 cs 0) := by
  rw [digitsValue?, if_pos (List.all_eq_true.mpr digits)]
  rfl

theorem digitsValue?_toDigits (n : Nat) : digitsValue? (Nat.toDigits 10 n) = some n := by
  have digits : ∀ c ∈ Nat.toDigits 10 n, c.isDigit = true := fun c mem =>
    Nat.isDigit_of_mem_toDigits (by decide) (by decide) mem
  rw [digitsValue?_of_all digits, Nat.ofDigitChars_ten_toDigits]

theorem isDigit_of_digitsValue? {n : Nat} (value : digitsValue? cs = some n) :
    ∀ c ∈ cs, c.isDigit = true := by
  rw [digitsValue?] at value
  split at value
  · rename_i all
    exact List.all_eq_true.mp all
  · cases value

/-- A signed run of digits is a sign, or none, and the digits of its magnitude. -/
theorem signedDigits?_eq_some_iff {i : Int} :
    signedDigits? cs = some i ↔ (splitSign cs).2 ≠ [] ∧
      ∃ n : Nat, digitsValue? (splitSign cs).2 = some n ∧
        (if (splitSign cs).1 then -(n : Int) else n) = i := by
  unfold signedDigits?
  rcases splitSign cs with ⟨negative, _ | ⟨d, ds⟩⟩
  · simp
  · cases value : digitsValue? (d :: ds) with
    | none => simp [value]
    | some n => simp [value]

/-- A digit is no sign. -/
theorem splitSign_digits (digits : ∀ c ∈ cs, c.isDigit = true) : splitSign cs = (false, cs) := by
  unfold splitSign
  split
  · have dash := digits '-' List.mem_cons_self
    exact absurd dash (by decide)
  · have plus := digits '+' List.mem_cons_self
    exact absurd plus (by decide)
  · rfl

theorem signedDigits?_toString (i : Int) : signedDigits? (toString i).toList = some i := by
  rw [signedDigits?_eq_some_iff]
  have digits : ∀ n, ∀ c ∈ Nat.toDigits 10 n, c.isDigit = true := fun n c mem =>
    Nat.isDigit_of_mem_toDigits (by decide) (by decide) mem
  cases i with
  | ofNat n =>
    have written : (toString (Int.ofNat n)).toList = Nat.toDigits 10 n := Nat.toList_repr
    rw [written, splitSign_digits (digits n)]
    exact ⟨Nat.toDigits_ne_nil, n, digitsValue?_toDigits n, rfl⟩
  | negSucc n =>
    have written : (toString (Int.negSucc n)).toList = '-' :: Nat.toDigits 10 (n + 1) := by
      change ("-" ++ (n + 1).repr).toList = _
      rw [String.toList_append, Nat.toList_repr]
      rfl
    rw [written]
    exact ⟨Nat.toDigits_ne_nil, n + 1, digitsValue?_toDigits (n + 1), rfl⟩

/-- An integer of 64 bits is read back from its text. -/
theorem readInteger_toString {i : Int} (fits : fitsWord i = true) :
    readInteger (toString i) = some i := by
  rw [readInteger, signedDigits?_toString]
  exact if_pos fits

theorem readInteger_eq_some {s : String} {i : Int} (read : readInteger s = some i) :
    signedDigits? s.toList = some i ∧ fitsWord i = true := by
  rw [readInteger, Option.bind_eq_bind, Option.bind_eq_some_iff] at read
  obtain ⟨v, signed, checked⟩ := read
  split at checked
  · rename_i fits
    cases checked
    exact ⟨signed, fits⟩
  · cases checked

end Digits

section Blanks

variable {c : Char} {cs : List Char} {v : Float}

/-- The code points of the capital letters, the only ones that have another lower case. -/
theorem toLower_of_not_upper (code : ¬(65 ≤ c.toNat ∧ c.toNat ≤ 90)) : c.toLower = c := by
  apply dif_neg
  intro upper
  have between : 65 ≤ c.toNat ∧ c.toNat ≤ 90 := by
    simpa [UInt32.le_iff_toNat_le] using upper
  exact code between

theorem toNat_of_isDigit (digit : c.isDigit = true) : 48 ≤ c.toNat ∧ c.toNat ≤ 57 :=
  Char.isDigit_iff_toNat.mp digit

theorem isWhiteSpace_of_isDigit (digit : c.isDigit = true) : isWhiteSpace c = false := by
  have code := toNat_of_isDigit digit
  simp only [isWhiteSpace, Bool.or_eq_false_iff, Bool.and_eq_false_iff, decide_eq_false_iff_not,
    beq_eq_false_iff_ne]
  omega

theorem toLower_of_isDigit (digit : c.isDigit = true) : c.toLower = c := by
  have code := toNat_of_isDigit digit
  exact toLower_of_not_upper (by omega)

theorem toLower_of_isWhiteSpace (blank : isWhiteSpace c = true) : c.toLower = c := by
  simp only [isWhiteSpace, Bool.or_eq_true, Bool.and_eq_true, decide_eq_true_eq, beq_iff_eq]
    at blank
  exact toLower_of_not_upper (by omega)

def Solid (cs : List Char) : Prop := ∀ c ∈ cs, isWhiteSpace c = false

instance (cs : List Char) : Decidable (Solid cs) := List.decidableBAll _ _

theorem Solid.trimmed_eq (solid : Solid cs) : trimmed cs = cs := by
  have kept : ∀ l : List Char, (∀ c ∈ l, isWhiteSpace c = false) →
      l.dropWhile isWhiteSpace = l := by
    intro l first
    cases l with
    | nil => rfl
    | cons c l => rw [List.dropWhile_cons, first c List.mem_cons_self, if_neg Bool.false_ne_true]
  rw [trimmed, kept cs solid, kept cs.reverse fun c mem => solid c (List.mem_reverse.mp mem),
    List.reverse_reverse]

theorem Solid.append {cs' : List Char} (first : Solid cs) (second : Solid cs') :
    Solid (cs ++ cs') := by
  intro c mem
  obtain mem | mem := List.mem_append.mp mem
  · exact first c mem
  · exact second c mem

theorem Solid.cons (first : isWhiteSpace c = false) (rest : Solid cs) : Solid (c :: cs) :=
  List.forall_mem_cons.mpr ⟨first, rest⟩

theorem solid_of_isDigit (digits : ∀ c ∈ cs, c.isDigit = true) : Solid cs :=
  fun c mem => isWhiteSpace_of_isDigit (digits c mem)

theorem solid_takeWhile : Solid (cs.takeWhile Char.isDigit) :=
  solid_of_isDigit fun _ => List.mem_takeWhile_imp

/-- What is left of the digits of a text is solid only if the text is. -/
theorem solid_of_dropWhile (rest : Solid (cs.dropWhile Char.isDigit)) : Solid cs := by
  rw [← List.takeWhile_append_dropWhile (p := Char.isDigit) (l := cs)]
  exact solid_takeWhile.append rest

theorem solid_of_splitSign (rest : Solid (splitSign cs).2) : Solid cs := by
  unfold splitSign at rest
  split at rest
  · exact rest.cons (by decide)
  · exact rest.cons (by decide)
  · exact rest

theorem solid_of_signedDigits? {i : Int} (read : signedDigits? cs = some i) : Solid cs := by
  obtain ⟨-, n, value, -⟩ := signedDigits?_eq_some_iff.mp read
  exact solid_of_splitSign (solid_of_isDigit (isDigit_of_digitsValue? value))

/-- What follows the digits is nothing, or an exponent. -/
theorem solid_of_exponent {f : Int → Option Float} (read : (match cs with
    | [] => (some 0).bind f
    | c :: tail => if c = 'e' ∨ c = 'E' then (signedDigits? tail).bind f else none.bind f) =
      some v) : Solid cs := by
  split at read
  · exact fun _ mem => absurd mem List.not_mem_nil
  · rename_i c tail
    split at read
    · rename_i mark
      obtain ⟨i, signed, -⟩ := Option.bind_eq_some_iff.mp read
      refine (solid_of_signedDigits? signed).cons ?_
      obtain rfl | rfl := mark <;> decide
    · cases read

theorem solid_of_readUnsigned (read : readUnsigned cs = some v) : Solid cs := by
  apply solid_of_dropWhile
  simp only [readUnsigned, Option.pure_def, Option.bind_eq_bind] at read
  split at read
  · rename_i tail pointed
    split at read
    · cases read
    · obtain ⟨mantissa, -, read⟩ := Option.bind_eq_some_iff.mp read
      rw [pointed]
      exact (solid_of_dropWhile (solid_of_exponent read)).cons (by decide)
  · split at read
    · cases read
    · obtain ⟨mantissa, -, read⟩ := Option.bind_eq_some_iff.mp read
      exact solid_of_exponent read

/-- A blank is its own lower case, and no word has one. -/
theorem solid_of_word {word : String} (same : String.ofList (cs.map Char.toLower) = word)
    (solid : Solid word.toList) : Solid cs := by
  intro c mem
  rw [← same, String.toList_ofList] at solid
  have lowered := solid c.toLower (List.mem_map_of_mem mem)
  by_contra blank
  rw [Bool.not_eq_false] at blank
  rw [toLower_of_isWhiteSpace blank, blank] at lowered
  cases lowered

/-- A text that reads as a real number has no blank. -/
theorem solid_of_readReal {s : String} (read : readReal s = some v) : Solid s.toList := by
  apply solid_of_splitSign
  simp only [readReal, Option.pure_def, Option.bind_eq_bind] at read
  split at read
  · rename_i word
    obtain word | word := word <;> exact solid_of_word word (by decide)
  · split at read
    · rename_i word
      exact solid_of_word word (by decide)
    · obtain ⟨magnitude, read, -⟩ := Option.bind_eq_some_iff.mp read
      exact solid_of_readUnsigned read

end Blanks

section Agreement

/-- A text with digits only is none of the words. -/
theorem word_ne_of_digits {cs : List Char} (digits : ∀ c ∈ cs, c.isDigit = true) {word : String}
    (letter : Char) (mem : letter ∈ word.toList) (other : letter.isDigit = false) :
    String.ofList (cs.map Char.toLower) ≠ word := by
  rintro rfl
  rw [String.toList_ofList, List.mem_map] at mem
  obtain ⟨c, mem, rfl⟩ := mem
  rw [toLower_of_isDigit (digits c mem), digits c mem] at other
  cases other

/-- A magnitude of at most nineteen digits is converted as it stands. -/
theorem ofParts_zero {n : Nat} (small : n < 10 ^ 19) : ofParts n 0 = Float.ofNat n := by
  have size : (Nat.toDigits 10 n).length ≤ 19 :=
    (Nat.length_toDigits_le_iff (by decide) (by decide)).mpr small
  unfold ofParts
  split
  · rename_i zero
    rw [zero]
    decide
  · rw [if_neg (by omega), if_neg (by omega)]
    rfl

theorem readUnsigned_digits {cs : List Char} (some_digit : cs ≠ []) {n : Nat}
    (value : digitsValue? cs = some n) (small : n < 10 ^ 19) :
    readUnsigned cs = some (Float.ofNat n) := by
  have digits := isDigit_of_digitsValue? value
  rw [← ofParts_zero small]
  simp only [readUnsigned, List.takeWhile_eq_self_iff.mpr digits,
    List.dropWhile_eq_nil_iff.mpr digits]
  simp [value, some_digit]

/-- A text that reads as an integer reads as the same real number, or it is minus zero. -/
theorem readReal_of_readInteger {s : String} {i : Int} (read : readInteger s = some i) :
    readReal s = some (Float.ofInt i) ∨ i = 0 ∧ readReal s = some (-0.0) := by
  obtain ⟨signed, fits⟩ := readInteger_eq_some read
  obtain ⟨some_digit, n, value, signs⟩ := signedDigits?_eq_some_iff.mp signed
  have digits := isDigit_of_digitsValue? value
  have small : n < 10 ^ 19 := by
    rw [fitsWord, decide_eq_true_eq] at fits
    split at signs <;> omega
  have reads : readReal s = some (if (splitSign s.toList).1 then -Float.ofNat n else .ofNat n) := by
    simp only [readReal, word_ne_of_digits digits 'i' (by decide : 'i' ∈ "inf".toList) rfl,
      word_ne_of_digits digits 'i' (by decide : 'i' ∈ "infinity".toList) rfl,
      word_ne_of_digits digits 'n' (by decide : 'n' ∈ "nan".toList) rfl, or_self, if_false,
      readUnsigned_digits some_digit value small]
    rfl
  rw [reads, ← signs]
  cases (splitSign s.toList).1 with
  | false => exact .inl rfl
  | true =>
    cases n with
    | zero =>
      have zero : -Float.ofNat 0 = -0.0 := by
        decide
      exact .inr ⟨rfl, congrArg some zero⟩
    | succ n => exact .inl rfl

end Agreement

end SmoothOpt.Decimal

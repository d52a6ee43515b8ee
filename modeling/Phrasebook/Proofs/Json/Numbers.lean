import Phrasebook.Json.Printer
import Phrasebook.Json.Reader
import Phrasebook.Proofs.Text.Runs

/-!
# JSON numbers read back

An integer that fits 64 bits, with or without a sign, is printed as a decimal
numeral.  Reading that numeral gives the same integer and not a floating-point
number.

Main results:

- Theorem `extend_of_fits`: no digit of a numeral that fits is left off.
- Theorem `readWhole_integer`: the text of an integer is read as that integer.
- Definition `Json.numbers`: all number leaves of a value, in order.
- Definition `Number.ReadsBack`: the text of the number is read as that number.
-/

namespace Phrasebook.Json

open Text

/-! ## Decimal numerals -/

/-- A numeral starts with a zero only when it is zero. -/
theorem head_toDigits_ne_zero {n : Nat} (hn : n ≠ 0) :
    (Nat.toDigits 10 n).head? ≠ some '0' := by
  induction n using Nat.strongRecOn with
  | ind n ih =>
    by_cases hsmall : n < 10
    · simpa [Nat.toDigits_of_lt_base hsmall] using hn
    · have hfront := ih (n / 10) (by omega) (by omega)
      rw [Nat.toDigits_of_base_le (by decide) (by omega)]
      rw [List.head?_append]
      cases hdigits : (Nat.toDigits 10 (n / 10)).head? with
      | none => simp at hdigits
      | some digit => simpa [hdigits] using hfront

/-- A run of digits ends where something else starts. -/
theorem digitRun_append_of_digits {digits rest : List Char}
    (hdigits : ∀ c ∈ digits, c.isDigit = true)
    (hrest : ∀ c ∈ rest.head?, c.isDigit = false) :
    digitRun (digits ++ rest) = (digits, rest) := by
  rw [digitRun, takeWhile_append_of_stop hdigits hrest,
    dropWhile_append_of_stop hdigits hrest]

/-- The value of a numeral is not below its significand so far. -/
theorem le_ofDigitChars (significand : Nat) (digits : List Char) :
    significand ≤ Nat.ofDigitChars 10 digits significand := by
  rw [Nat.ofDigitChars_eq_ofDigitChars_zero]
  have hpos : 0 < 10 ^ digits.length := Nat.pow_pos (by decide)
  exact Nat.le_add_right_of_le (Nat.le_mul_of_pos_left _ hpos)

/-- No digit of a numeral that fits 64 bits is left off. -/
theorem extend_of_fits {significand : Nat} {digits : List Char}
    (hfits : Nat.ofDigitChars 10 digits significand < 18446744073709551616) :
    extend significand digits = (Nat.ofDigitChars 10 digits significand, 0) := by
  induction digits generalizing significand with
  | nil => simp [extend]
  | cons digit digits ih =>
    rw [Nat.ofDigitChars_cons] at hfits ⊢
    have hlonger := le_ofDigitChars (10 * significand + (digit.toNat - '0'.toNat)) digits
    simp only [extend]
    rw [if_pos (Nat.lt_of_le_of_lt hlonger hfits), ih hfits]

theorem isDigit_of_mem_numeral {n : Nat} {c : Char} (hc : c ∈ Nat.toDigits 10 n) :
    c.isDigit = true :=
  Nat.isDigit_of_mem_toDigits (by decide) (by decide) hc

/-- The integer digits of a numeral are all of it. -/
theorem readIntegerDigits_numeral (n : Nat) :
    readIntegerDigits (Nat.toDigits 10 n) = .ok (Nat.toDigits 10 n, []) := by
  by_cases hn : n = 0
  · simp [hn, readIntegerDigits, digitRun]
  · have hhead := head_toDigits_ne_zero hn
    have hrun : digitRun (Nat.toDigits 10 n) = (Nat.toDigits 10 n, []) := by
      have hend : ∀ c ∈ ([] : List Char).head?, c.isDigit = false := by simp
      simpa using digitRun_append_of_digits (fun c hc => isDigit_of_mem_numeral hc) hend
    cases hdigits : Nat.toDigits 10 n with
    | nil => simp at hdigits
    | cons digit digits =>
      have hdigit : digit.isDigit = true :=
        isDigit_of_mem_numeral (n := n) (by simp [hdigits])
      rw [hdigits] at hhead hrun
      have hzero : digit ≠ '0' := by
        simpa using hhead
      simp [readIntegerDigits, hzero, hdigit, hrun]

/-- Integer digits alone are read as an integer when their value fits. -/
theorem readUnsigned_numeral {negative : Bool} {n : Nat} {value : Number}
    (hfits : n < 18446744073709551616) (hvalue : integerOf negative n = some value) :
    readUnsigned negative (Nat.toDigits 10 n) = .ok (value, []) := by
  have hnumeral : Nat.ofDigitChars 10 (Nat.toDigits 10 n) 0 < 18446744073709551616 := by
    simpa using hfits
  have hextend : extend 0 (Nat.toDigits 10 n) = (n, 0) := by
    simpa using extend_of_fits hnumeral
  simp [readUnsigned, readIntegerDigits_numeral, bind, Except.bind, hextend, hvalue]

/-- A numeral has no sign. -/
theorem readNumber_numeral (n : Nat) :
    readNumber (Nat.toDigits 10 n) = readUnsigned false (Nat.toDigits 10 n) := by
  cases hdigits : Nat.toDigits 10 n with
  | nil => simp at hdigits
  | cons digit digits =>
    have hdigit : digit.isDigit = true :=
      isDigit_of_mem_numeral (n := n) (by simp [hdigits])
    unfold readNumber
    split
    · simp_all
    · rfl

/-! ## Integers -/

/-- The text of an integer that is not negative is its numeral. -/
theorem toList_text_of_nonneg {i : Integer} (hsign : 0 ≤ i.value) :
    i.text.toList = Nat.toDigits 10 i.value.toNat := by
  obtain ⟨n, hn⟩ := Int.eq_ofNat_of_zero_le hsign
  simp [Integer.text, hn, Int.repr]

/-- The text of a negative integer is the numeral of its absolute value behind a
minus sign. -/
theorem toList_text_of_neg {i : Integer} (hsign : i.value < 0) :
    i.text.toList = '-' :: Nat.toDigits 10 i.value.natAbs := by
  obtain ⟨n, hn⟩ := Int.eq_negSucc_of_lt_zero hsign
  simp [Integer.text, hn, Int.repr]

theorem ofInt?_value (i : Integer) : Integer.ofInt? i.value = some i := by
  simp [Integer.ofInt?, i.fits]

/-- The text of an integer is read as that integer. -/
theorem readWhole_integer (i : Integer) :
    readWhole readNumber i.text.toList = .ok (.integer i) := by
  have hfits := i.fits
  by_cases hsign : 0 ≤ i.value
  · have hvalue : integerOf false i.value.toNat = some (.integer i) := by
      simp [integerOf, Int.toNat_of_nonneg hsign, ofInt?_value]
    have hread := readUnsigned_numeral (by omega) hvalue
    rw [toList_text_of_nonneg hsign]
    simp [readWhole, readNumber_numeral, hread, bind, Except.bind, skipSpace]
  · have hneg : i.value < 0 := by omega
    have hvalue : integerOf true i.value.natAbs = some (.integer i) := by
      have hne : i.value ≠ 0 := by omega
      have habs : -(i.value.natAbs : Int) = i.value := by omega
      simp only [integerOf, if_true, Int.natAbs_eq_zero, hne, if_false, habs, ofInt?_value]
      rfl
    have hread := readUnsigned_numeral (by omega) hvalue
    rw [toList_text_of_neg hneg]
    simp [readWhole, readNumber, hread, bind, Except.bind, skipSpace]

/-! ## Number leaves -/

mutual

/-- The numbers that a value holds at any depth, in order. -/
def numbers : Json → List Number
  | .scalar (.number n) => [n]
  | .scalar _ => []
  | .string _ => []
  | .array items => itemsNumbers items
  | .object entries => entriesNumbers entries

/-- The numbers that the items of an array hold. -/
def itemsNumbers : List Json → List Number
  | [] => []
  | item :: items => numbers item ++ itemsNumbers items

/-- The numbers that the values of an object hold. -/
def entriesNumbers : List (String × Json) → List Number
  | [] => []
  | (_, value) :: entries => numbers value ++ entriesNumbers entries

end

end Phrasebook.Json

namespace Phrasebook.Number

/-- The text of a number is read as that number. -/
def ReadsBack (n : Number) : Prop :=
  Json.readWhole Json.readNumber n.text.toList = .ok n

/-- Integers read back, so the numbers of a value do when its doubles do. -/
theorem readsBack_of_doubles {input : Json}
    (hdoubles : ∀ x : Double, .double x ∈ input.numbers → (Number.double x).ReadsBack) :
    ∀ n ∈ input.numbers, n.ReadsBack := by
  intro n hn
  cases n with
  | integer i => exact Json.readWhole_integer i
  | double x => exact hdoubles x hn

end Phrasebook.Number

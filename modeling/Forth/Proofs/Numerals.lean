import Forth.Value

/-! A number is read back from its own numeral, so a value that is executed as a token is pushed again
and never looked up. -/

namespace Forth.Number

theorem magnitude?_toDigits (magnitude : Nat) : magnitude? (Nat.toDigits 10 magnitude) = some magnitude := by
  have someDigit : (Nat.toDigits 10 magnitude).isEmpty = false := by
    cases digits : Nat.toDigits 10 magnitude with
    | nil => exact absurd digits Nat.toDigits_ne_nil
    | cons digit rest => rfl
  have allDigits : (Nat.toDigits 10 magnitude).all Char.isDigit = true := by
    rw [List.all_eq_true]
    intro digit member
    exact Nat.isDigit_of_mem_toDigits (by decide) (by decide) member
  simp only [magnitude?, someDigit, allDigits, Bool.not_false, Bool.and_true, if_true,
    Nat.ofDigitChars_ten_toDigits]

theorem ofInt?_toInt (number : Number) : ofInt? number.toInt = some number := by
  have least := number.le_toInt
  have small := number.toInt_lt
  rw [ofInt?, if_pos ⟨least, small⟩, Int64.ofInt_toInt]

/-- A run of digits does not start with a sign. -/
theorem ofSignedDigits?_toDigits (magnitude : Nat) :
    ofSignedDigits? (Nat.toDigits 10 magnitude) = ofInt? magnitude := by
  have unsigned (sign : Char) (noDigit : sign.isDigit = false) (rest : List Char) :
      Nat.toDigits 10 magnitude ≠ sign :: rest := by
    intro same
    have member : sign ∈ Nat.toDigits 10 magnitude := same ▸ List.mem_cons_self ..
    have isDigit := Nat.isDigit_of_mem_toDigits (by decide) (by decide) member
    rw [noDigit] at isDigit
    cases isDigit
  rw [ofSignedDigits?.eq_3 _ (unsigned '-' (by decide)) (unsigned '+' (by decide)), magnitude?_toDigits,
    Option.bind_some]

theorem ofNumeral?_numeral (number : Number) : ofNumeral? number.numeral = some number := by
  by_cases negative : number.toInt < 0
  · have magnitude : -(number.toInt.natAbs : Int) = number.toInt := by omega
    simp only [numeral, if_pos negative, ofNumeral?, String.toList_append, String.toList_ofList]
    have signed : "-".toList ++ Nat.toDigits 10 number.toInt.natAbs =
        '-' :: Nat.toDigits 10 number.toInt.natAbs := rfl
    rw [signed, ofSignedDigits?, magnitude?_toDigits, Option.bind_some, magnitude, ofInt?_toInt]
  · have magnitude : (number.toInt.natAbs : Int) = number.toInt := by omega
    simp only [numeral, if_neg negative, ofNumeral?, String.toList_ofList]
    rw [ofSignedDigits?_toDigits, magnitude, ofInt?_toInt]

end Forth.Number

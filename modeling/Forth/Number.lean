/-! Numbers are signed 64-bit words. A numeral is an optional sign before decimal digits; it reads
as a number when the integer it denotes fits in a word. -/

namespace Forth

abbrev Number := Int64

namespace Number

/-- The word that holds an integer, if one does. -/
def ofInt? (integer : Int) : Option Number :=
  if -Int.pow 2 63 ≤ integer ∧ integer < Int.pow 2 63 then some (Int64.ofInt integer) else none

/-- What a run of decimal digits denotes. The empty run denotes nothing. -/
def magnitude? (digits : List Char) : Option Nat :=
  if !digits.isEmpty && digits.all Char.isDigit then some (Nat.ofDigitChars 10 digits 0) else none

def ofSignedDigits? : List Char → Option Number
  | '-' :: digits => (magnitude? digits).bind fun magnitude => ofInt? (-magnitude)
  | '+' :: digits => (magnitude? digits).bind fun magnitude => ofInt? magnitude
  | digits => (magnitude? digits).bind fun magnitude => ofInt? magnitude

def ofNumeral? (text : String) : Option Number := ofSignedDigits? text.toList

/-- The shortest numeral: no plus sign and no zeros in front. -/
def numeral (number : Number) : String :=
  let integer := number.toInt
  if integer < 0 then "-" ++ String.ofList (Nat.toDigits 10 integer.natAbs)
  else String.ofList (Nat.toDigits 10 integer.natAbs)

end Number

end Forth

import Forth.Proofs.Contracts
import Forth.Proofs.Numerals

/-! The grammar of numerals. A text reads as a number exactly if it is a run of decimal digits, with at most
one sign in front, and the integer that it denotes fits in a word; every other text is no numeral. The grammar
reads from the left, one digit after the other, and knows nothing of how a word is looked at or written out. -/

namespace Forth.Number

/-- The decimal digits, each at the place of what it stands for. -/
def digitCharacters : List Char := ['0', '1', '2', '3', '4', '5', '6', '7', '8', '9']

/-- What a run of digits denotes. One more digit makes the others count for ten times as much. -/
inductive Denotes : List Char → Nat → Prop where
  | one {character : Char} {digit : Nat} (stands : digitCharacters[digit]? = some character) :
      Denotes [character] digit
  | more {digits : List Char} {value : Nat} {character : Char} {digit : Nat} (front : Denotes digits value)
      (stands : digitCharacters[digit]? = some character) : Denotes (digits ++ [character]) (10 * value + digit)

/-- The integer that a numeral is written for: a run of digits with one sign in front, or with none. -/
inductive WrittenFor : String → Int → Prop where
  | unsigned {digits : List Char} {magnitude : Nat} (denotes : Denotes digits magnitude) :
      WrittenFor (String.ofList digits) magnitude
  | plus {digits : List Char} {magnitude : Nat} (denotes : Denotes digits magnitude) :
      WrittenFor (String.ofList ('+' :: digits)) magnitude
  | minus {digits : List Char} {magnitude : Nat} (denotes : Denotes digits magnitude) :
      WrittenFor (String.ofList ('-' :: digits)) (-magnitude)

theorem digitCharacters_eq (digit : Fin 10) :
    digitCharacters[digit.val]? = some (Char.ofNat ('0'.toNat + digit.val)) := by
  revert digit
  decide

theorem isDigit_ofNat (digit : Fin 10) :
    (Char.ofNat ('0'.toNat + digit.val)).isDigit = true ∧
      (Char.ofNat ('0'.toNat + digit.val)).toNat - '0'.toNat = digit.val := by
  revert digit
  decide

/-- The digits are the ten characters that count as such, and they stand in a row. -/
theorem stands_iff (character : Char) (digit : Nat) :
    digitCharacters[digit]? = some character ↔
      character.isDigit = true ∧ character.toNat - '0'.toNat = digit := by
  constructor
  · intro stands
    have small : digit < 10 := (List.getElem?_eq_some_iff.1 stands).1
    rw [digitCharacters_eq ⟨digit, small⟩, Option.some.injEq] at stands
    rw [← stands]
    exact isDigit_ofNat ⟨digit, small⟩
  · rintro ⟨isDigit, rfl⟩
    rw [Char.isDigit, Bool.and_eq_true, decide_eq_true_eq, decide_eq_true_eq] at isDigit
    have bounds : '0'.toNat ≤ character.toNat ∧ character.toNat ≤ '9'.toNat := isDigit
    have small : character.toNat - '0'.toNat < 10 := by
      have := bounds.2
      have nine : '9'.toNat = '0'.toNat + 9 := rfl
      omega
    have place : '0'.toNat + (character.toNat - '0'.toNat) = character.toNat := by omega
    rw [digitCharacters_eq ⟨_, small⟩, place, Char.ofNat_toNat]

theorem magnitude?_eq_some_iff_digits (digits : List Char) (value : Nat) :
    magnitude? digits = some value ↔
      digits ≠ [] ∧ (∀ character ∈ digits, character.isDigit = true) ∧ Nat.ofDigitChars 10 digits 0 = value := by
  simp only [magnitude?, Option.ite_none_right_eq_some, Bool.and_eq_true, Bool.not_eq_true', List.isEmpty_eq_false_iff,
    List.all_eq_true, Option.some.injEq, and_assoc]

/-- Reading on, digit by digit, from what the digits in front denote. -/
theorem Denotes.extend {front digits : List Char} {value : Nat} (denotes : Denotes front value)
    (allDigits : ∀ character ∈ digits, character.isDigit = true) :
    Denotes (front ++ digits) (Nat.ofDigitChars 10 digits value) := by
  induction digits generalizing front value with
  | nil =>
      rw [List.append_nil]
      exact denotes
  | cons character digits ih =>
      obtain ⟨isDigit, restDigits⟩ := List.forall_mem_cons.1 allDigits
      have longer := denotes.more ((stands_iff character _).2 ⟨isDigit, rfl⟩)
      have whole := ih longer restDigits
      rwa [List.append_assoc, List.singleton_append, ← Nat.ofDigitChars_cons] at whole

/-- Reading a run of digits gives what it denotes. -/
theorem magnitude?_eq_some_iff (digits : List Char) (value : Nat) :
    magnitude? digits = some value ↔ Denotes digits value := by
  rw [magnitude?_eq_some_iff_digits]
  constructor
  · rintro ⟨someDigit, allDigits, rfl⟩
    cases digits with
    | nil => exact absurd rfl someDigit
    | cons character digits =>
        obtain ⟨isDigit, restDigits⟩ := List.forall_mem_cons.1 allDigits
        have first := Denotes.one ((stands_iff character _).2 ⟨isDigit, rfl⟩)
        have whole := first.extend restDigits
        rwa [Nat.ofDigitChars_cons, Nat.mul_zero, Nat.zero_add]
  · intro denotes
    induction denotes with
    | one stands =>
        obtain ⟨isDigit, rfl⟩ := (stands_iff _ _).1 stands
        refine ⟨List.cons_ne_nil _ _, List.forall_mem_singleton.2 isDigit, ?_⟩
        rw [Nat.ofDigitChars_cons, Nat.mul_zero, Nat.zero_add]
        rfl
    | more _ stands ih =>
        obtain ⟨isDigit, rfl⟩ := (stands_iff _ _).1 stands
        obtain ⟨_, allDigits, rfl⟩ := ih
        refine ⟨List.append_ne_nil_of_right_ne_nil _ (List.cons_ne_nil _ _), ?_, ?_⟩
        · exact List.forall_mem_append.2 ⟨allDigits, List.forall_mem_singleton.2 isDigit⟩
        · rw [Nat.ofDigitChars_append, Nat.ofDigitChars_cons]
          rfl

/-- A run of digits does not start with a sign. -/
theorem Denotes.ne_sign {digits rest : List Char} {value : Nat} (denotes : Denotes digits value) {sign : Char}
    (noDigit : sign.isDigit = false) : digits ≠ sign :: rest := by
  rintro rfl
  have allDigits := ((magnitude?_eq_some_iff_digits _ _).1 ((magnitude?_eq_some_iff _ _).2 denotes)).2.1
  rw [allDigits sign (List.mem_cons_self ..)] at noDigit
  cases noDigit

theorem ofInt?_eq_some_iff (integer : Int) (number : Number) :
    ofInt? integer = some number ↔ number.toInt = integer := by
  constructor
  · intro held
    by_cases fits : Fits integer
    · obtain ⟨other, same, exact⟩ := ofInt?_of_fits fits
      rw [held, Option.some.injEq] at same
      rw [same, exact]
    · rw [ofInt?_of_not_fits fits] at held
      cases held
  · rintro rfl
    exact ofInt?_toInt number

theorem fits_toInt (number : Number) : Fits number.toInt :=
  ⟨number.le_toInt, Int.le_sub_one_of_lt number.toInt_lt⟩

/-- Reading digits with a sign gives a number exactly if that is the integer written. -/
theorem ofNumeral?_eq_some_iff (text : String) (number : Number) :
    ofNumeral? text = some number ↔ WrittenFor text number.toInt := by
  constructor
  · intro reads
    rw [← @String.ofList_toList text]
    rw [ofNumeral?] at reads
    generalize text.toList = characters at reads ⊢
    unfold ofSignedDigits? at reads
    split at reads
    all_goals
      obtain ⟨magnitude, read, held⟩ := Option.bind_eq_some_iff.1 reads
      rw [(ofInt?_eq_some_iff _ number).1 held]
      have denotes := (magnitude?_eq_some_iff _ _).1 read
    · exact .minus denotes
    · exact .plus denotes
    · exact .unsigned denotes
  · intro written
    generalize isInteger : number.toInt = integer at written
    have held := (ofInt?_eq_some_iff integer number).2 isInteger
    cases written with
    | unsigned denotes =>
        rw [ofNumeral?, String.toList_ofList, ofSignedDigits?.eq_3, (magnitude?_eq_some_iff _ _).2 denotes,
          Option.bind_some]
        · exact held
        · exact fun rest => denotes.ne_sign (by decide)
        · exact fun rest => denotes.ne_sign (by decide)
    | plus denotes =>
        rw [ofNumeral?, String.toList_ofList, ofSignedDigits?, (magnitude?_eq_some_iff _ _).2 denotes,
          Option.bind_some]
        exact held
    | minus denotes =>
        rw [ofNumeral?, String.toList_ofList, ofSignedDigits?, (magnitude?_eq_some_iff _ _).2 denotes,
          Option.bind_some]
        exact held

/-- The texts that read as numbers are those of the grammar whose integer fits, and they read as that integer;
all others do not read. What is written out for a number reads as the number. -/
theorem numerals_are_the_decimal_grammar :
    (∀ text integer, (ofNumeral? text).map Int64.toInt = some integer ↔ WrittenFor text integer ∧ Fits integer) ∧
    (∀ text, ofNumeral? text = none ↔ ¬∃ integer, WrittenFor text integer ∧ Fits integer) ∧
    ∀ number, ofNumeral? (Value.number number).text = some number := by
  have reads (text : String) (integer : Int) :
      (ofNumeral? text).map Int64.toInt = some integer ↔ WrittenFor text integer ∧ Fits integer := by
    rw [Option.map_eq_some_iff]
    constructor
    · rintro ⟨number, read, rfl⟩
      exact ⟨(ofNumeral?_eq_some_iff text number).1 read, fits_toInt number⟩
    · rintro ⟨written, fits⟩
      obtain ⟨number, _, rfl⟩ := ofInt?_of_fits fits
      exact ⟨number, (ofNumeral?_eq_some_iff text number).2 written, rfl⟩
  refine ⟨reads, ?_, ofNumeral?_numeral⟩
  intro text
  simp only [← reads, Option.map_eq_some_iff, not_exists, not_and]
  constructor
  · intro unread integer number read
    rw [unread] at read
    cases read
  · intro never
    cases read : ofNumeral? text with
    | none => rfl
    | some number => exact absurd rfl (never number.toInt number read)

/-- Signs alone, a second sign, blanks and other digits are not in the grammar; zeros in front are. -/
example : ["+", "-", "", "+-5", "5 ", "٣", "0x10", "9223372036854775808"].map ofNumeral? = List.replicate 8 none ∧
    ofNumeral? "-0009223372036854775808" = some (-9223372036854775808) := by
  decide

end Forth.Number

import Forth.Proofs.Labels

/-! What the marks look like. In lower case a mark is one of five texts, none of which starts like a
numeral or like the label of a conditional. -/

namespace Forth

/-- The mark in lower case. -/
def Mark.text : Mark → String
  | .colon => ":"
  | .semicolon => ";"
  | .ifMark => "if"
  | .elseMark => "else"
  | .thenMark => "then"

/-- A text whose first character is neither a digit nor a sign is no numeral. -/
theorem Number.ofNumeral?_of_head {text : String} {first : Char} {rest : List Char}
    (characters : text.toList = first :: rest) (noDigit : first.isDigit = false) (noMinus : first ≠ '-')
    (noPlus : first ≠ '+') : ofNumeral? text = none := by
  rw [ofNumeral?, characters, ofSignedDigits?.eq_3]
  · simp [magnitude?, noDigit]
  · intro digits same
    exact noMinus (List.cons.inj same).1
  · intro digits same
    exact noPlus (List.cons.inj same).1

namespace Token

variable {token : Token} {mark : Mark}

theorem lowerCase_of_mark (isMark : token.mark? = some mark) : token.lowerCase = mark.text := by
  unfold mark? at isMark
  split at isMark
  next colon =>
    cases isMark
    rw [colon]
    decide
  next =>
    split at isMark
    next semicolon =>
      cases isMark
      rw [semicolon]
      decide
    next => grind [Mark.text]

/-- Lower case changes neither digits nor signs. -/
theorem ofNumeral?_of_lowerCase {first : Char} {rest : List Char}
    (lower : token.lowerCase.toList = first :: rest) (noDigit : first.isDigit = false) (noMinus : first ≠ '-')
    (noPlus : first ≠ '+') : Number.ofNumeral? token = none := by
  rw [lowerCase, String.toList_ofList] at lower
  obtain ⟨original, others, characters, lowered, _⟩ := List.map_eq_cons_iff.mp lower
  have unchanged (same : original.toLower = original) : original = first := same.symm.trans lowered
  apply Number.ofNumeral?_of_head characters
  · rw [Bool.eq_false_iff]
    intro isDigit
    have same : original.toLower = original := by
      delta Char.toLower
      simp only [Char.isDigit] at isDigit
      grind
    rw [unchanged same, noDigit] at isDigit
    cases isDigit
  · rintro rfl
    exact noMinus (unchanged (by decide)).symm
  · rintro rfl
    exact noPlus (unchanged (by decide)).symm

/-- A mark is no numeral. -/
theorem ofNumeral?_of_mark (isMark : token.mark? = some mark) : Number.ofNumeral? token = none := by
  have lower := congrArg String.toList (lowerCase_of_mark isMark)
  cases mark <;> exact ofNumeral?_of_lowerCase lower (by decide) (by decide) (by decide)

theorem mark?_of_ofNumeral? {number : Number} (reads : Number.ofNumeral? token = some number) : token.mark? = none := by
  cases isMark : token.mark? with
  | none => rfl
  | some mark =>
      rw [ofNumeral?_of_mark isMark] at reads
      cases reads

end Token

/-- The label of a conditional is no mark. -/
theorem Labels.mark?_numberedConditional (number : Nat) : Token.mark? (numberedConditional number) = none := by
  cases isMark : Token.mark? (numberedConditional number) with
  | none => rfl
  | some mark =>
      have lower := congrArg String.toList (Token.lowerCase_of_mark isMark)
      rw [Token.lowerCase, String.toList_ofList, numberedConditional_toList, List.map_cons] at lower
      have first : Char.toLower '<' = '<' := by decide
      cases mark <;> simp [Mark.text, first] at lower

end Forth

import Forth.Number
import Forth.Text.Blank

/-! Tokens are the words of a line. Five of them are marks that shape definitions and branches,
some are numerals, and the others may name entries of the dictionary. -/

namespace Forth

abbrev Token := String

inductive Mark where
  | colon
  | semicolon
  | ifMark
  | elseMark
  | thenMark
deriving DecidableEq, Repr

namespace Token

def ofLine (line : String) : List Token := Text.words line

def lowerCase (token : Token) : Token := String.ofList (token.toList.map Char.toLower)

/-- The colon and semicolon stand for themselves; the branch marks ignore the case of ASCII
letters. -/
def mark? (token : Token) : Option Mark :=
  if token = ":" then some .colon
  else if token = ";" then some .semicolon
  else if lowerCase token = "if" then some .ifMark
  else if lowerCase token = "else" then some .elseMark
  else if lowerCase token = "then" then some .thenMark
  else none

/-- How every label of a conditional starts. -/
def conditionalStem : String := "<if-"

def hasConditionalStem (token : Token) : Bool :=
  conditionalStem.toList.isPrefixOf token.toList

/-- A numeral would be read as a number and a mark is never looked up, so neither can name a word;
the labels of conditionals are reserved. -/
def isName (token : Token) : Bool :=
  !token.isEmpty && (Number.ofNumeral? token).isNone && (mark? token).isNone &&
    !hasConditionalStem token

end Token

end Forth

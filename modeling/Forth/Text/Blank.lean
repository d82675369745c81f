/-! Blanks and what they delimit. A text is cut into words at its blanks and into lines at its
line feeds; both readers carry the characters of the unfinished piece, last one first. -/

namespace Forth.Text

/-- The white space of Unicode: the ASCII blanks with the vertical tab and form feed, the next-line
control, the no-break and typographic spaces, and the line and paragraph separators. -/
def isBlank (character : Char) : Bool :=
  let code := character.toNat
  (0x09 ≤ code && code ≤ 0x0d) || code == 0x20 || code == 0x85 || code == 0xa0 ||
    code == 0x1680 || (0x2000 ≤ code && code ≤ 0x200a) || code == 0x2028 || code == 0x2029 ||
    code == 0x202f || code == 0x205f || code == 0x3000

/-- Puts the word read so far, if there is one, in front of the words after it. -/
def closeWord (read : List Char) (rest : List String) : List String :=
  if read.isEmpty then rest else String.ofList read.reverse :: rest

def wordsFrom (read : List Char) : List Char → List String
  | [] => closeWord read []
  | character :: rest =>
      if isBlank character then closeWord read (wordsFrom [] rest)
      else wordsFrom (character :: read) rest

/-- The maximal runs of characters that are not blank, in order. -/
def words (text : String) : List String := wordsFrom [] text.toList

/-- A carriage return right before the line feed belongs to the line end. -/
def closeLine : List Char → String
  | '\r' :: read => String.ofList read.reverse
  | read => String.ofList read.reverse

def linesFrom (read : List Char) : List Char → List String
  | [] => if read.isEmpty then [] else [String.ofList read.reverse]
  | character :: rest =>
      if character = '\n' then closeLine read :: linesFrom [] rest
      else linesFrom (character :: read) rest

/-- The lines of a text. The last one needs no line feed, and then keeps a final carriage
return. -/
def lines (text : String) : List String := linesFrom [] text.toList

/-- The text without the blanks at its two ends. -/
def trim (text : String) : String :=
  String.ofList ((text.toList.dropWhile isBlank).reverse.dropWhile isBlank).reverse

end Forth.Text

import Forth.Text.Blank
import Forth.Text.GraphemeBase

/-! Texts written between double quotes, with escapes for everything that would not show. -/

namespace Forth.Text

/-- The Hangul fillers are letters without a shape. They hold the place of one that is missing from
its syllable. -/
def isFiller (character : Char) : Bool :=
  let code := character.toNat
  code == 0x115f || code == 0x1160 || code == 0x3164 || code == 0xffa0

/-- The halfwidth katakana voicing marks extend the letter before them, but each is written in a
cell of its own. -/
def isVoicingMark (character : Char) : Bool :=
  let code := character.toNat
  code == 0xff9e || code == 0xff9f

/-- A character stands for itself when it shows wherever it is written. Of the blanks only the plain
space counts as shown. -/
def standsForItself (character : Char) : Bool :=
  isVoicingMark character ||
    (isGraphemeBase character && !isFiller character && (!isBlank character || character == ' '))

def escaped (character : Char) : String :=
  match character with
  | '\x00' => "\\0"
  | '\t' => "\\t"
  | '\r' => "\\r"
  | '\n' => "\\n"
  | '\\' => "\\\\"
  | '"' => "\\\""
  | other =>
      if standsForItself other then other.toString
      else "\\u\x7b" ++ String.ofList (Nat.toDigits 16 other.toNat) ++ "\x7d"

def quoted (text : String) : String :=
  "\"" ++ String.join (text.toList.map escaped) ++ "\""

/-- A list of texts, each quoted, between brackets. -/
def quotedList (texts : List String) : String :=
  "[" ++ ", ".intercalate (texts.map quoted) ++ "]"

end Forth.Text

import Forth.Dictionary.Basic

/-! The table of visible words: a count, then one row a word in the order of names. -/

namespace Forth.Dictionary

/-- Blanks after the text up to a width counted in characters. -/
def padded (width : Nat) (text : String) : String :=
  text ++ String.ofList (List.replicate (width - text.length) ' ')

def visibleWords (dictionary : Dictionary) : List Word := dictionary.words.filter Word.visible

/-- The name column is as wide as the longest name in bytes, which is never less than its
characters. -/
def nameWidth (words : List Word) : Nat :=
  words.foldl (fun width word => max width word.name.utf8ByteSize) 0

def signatureWidth : Nat := 16

def kindText (word : Word) : String :=
  if word.action.isPrimitive then "native" else "script"

def row (width : Nat) (word : Word) : String :=
  padded width word.name ++ "  " ++ kindText word ++ "  " ++
    padded signatureWidth word.signature ++ "  --  " ++ word.description ++ "\n"

def listing (dictionary : Dictionary) : String :=
  let shown := dictionary.visibleWords
  toString shown.length ++ " words defined.\n\n" ++
    String.join (shown.map (row (nameWidth shown)))

end Forth.Dictionary

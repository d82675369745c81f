import Forth.Fault
import Forth.Text.Blank

/-! Bytes from outside, read as text. -/

namespace Forth.Console

def notText : Fault := .inputOutput "stream did not contain valid UTF-8"

def noSuchFile : Fault := .inputOutput "No such file or directory (os error 2)"

def decode (bytes : ByteArray) : Except Fault String :=
  match String.fromUTF8? bytes with
  | some text => .ok text
  | none => .error notText

/-- Cuts bytes after each line feed, which is left out. The unfinished line is held last byte
first. -/
def cutFrom (read : List UInt8) : List UInt8 → List (List UInt8)
  | [] => if read.isEmpty then [] else [read.reverse]
  | byte :: rest =>
      if byte = 10 then read.reverse :: cutFrom [] rest else cutFrom (byte :: read) rest

/-- The lines of an input. When the input is not text as a whole each line is decoded by itself, so
the lines before the first bad one can still be read. -/
def inputLines (bytes : ByteArray) : List (Except Fault String) :=
  match String.fromUTF8? bytes with
  | some text => (Text.lines text).map .ok
  | none => (cutFrom [] bytes.toList).map fun line => decode ⟨line.toArray⟩

end Forth.Console

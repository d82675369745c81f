import Forth.Console.Source
import Forth.Console.Transcript

/-! Running a script line by line, up to the first line that fails. -/

namespace Forth.Console

/-- A script file; one that is missing has no contents. -/
structure Script where
  path : String
  contents : Option ByteArray

namespace Script

def text (script : Script) : Except Fault String :=
  match script.contents with
  | none => .error noSuchFile
  | some bytes => decode bytes

def complaint (path : String) (number : Nat) (fault : Fault) : String :=
  path ++ ":" ++ toString number ++ ": " ++ fault.message ++ "\n"

/-- Runs lines of which the first has the given number. -/
def runLines (fuel : Nat) (path : String) (number : Nat) (interpreter : Interpreter) (lines : List String)
    (complete : Completion := Session.complete) : Option Transcript :=
  match lines with
  | [] => some {}
  | line :: rest =>
      match interpreter.executeLine fuel line complete with
      | none => none
      | some reply =>
          match reply.fault with
          | some fault => some ⟨reply.printed, complaint path number fault, some fault⟩
          | none =>
              (runLines fuel path (number + 1) reply.interpreter rest complete).map
                (Transcript.append ⟨reply.printed, "", none⟩)

def run (fuel : Nat) (interpreter : Interpreter) (script : Script)
    (complete : Completion := Session.complete) : Option Transcript :=
  match script.text with
  | .error fault => some { fault := some fault }
  | .ok text => runLines fuel script.path 1 interpreter (Text.lines text) complete

end Script

end Forth.Console

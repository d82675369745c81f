import Forth.Console.Prompt
import Forth.Console.Script

/-! The whole program: lines given for evaluation first, then a script, or the prompt if there is
neither. -/

namespace Forth.Console

structure Options where
  evaluations : List String := []
  script : Option String := none
  withPrelude : Bool := true
  quiet : Bool := false

namespace Options

def interpreter (options : Options) : Interpreter :=
  .ofWords .standard (Vocabulary.base ++ Vocabulary.printing ++
    if options.withPrelude then Vocabulary.prelude else [])

end Options

/-- Executes lines up to the first that fails. -/
def evaluate (fuel : Nat) (interpreter : Interpreter) (lines : List String)
    (complete : Completion := Session.complete) : Option Reply :=
  match lines with
  | [] => some { interpreter }
  | line :: rest =>
      match interpreter.executeLine fuel line complete with
      | none => none
      | some reply =>
          match reply.fault with
          | some _ => some reply
          | none => (evaluate fuel reply.interpreter rest complete).map (Reply.after reply.printed)

/-- What follows the evaluations. -/
def carryOn (fuel : Nat) (options : Options) (contents : Option ByteArray) (input : ByteArray)
    (interpreter : Interpreter) (complete : Completion := Session.complete) : Option Transcript :=
  match options.script, options.evaluations with
  | some path, _ => Script.run fuel interpreter ⟨path, contents⟩ complete
  | none, [] => prompt fuel options.quiet interpreter (inputLines input) complete
  | none, _ :: _ => some {}

/-- Runs the program on the contents of its script file, if there is one, and on its input. -/
def run (fuel : Nat) (options : Options) (contents : Option ByteArray) (input : ByteArray)
    (complete : Completion := Session.complete) : Option Transcript :=
  match evaluate fuel options.interpreter options.evaluations complete with
  | none => none
  | some reply =>
      match reply.fault with
      | some fault => some ⟨reply.printed, "", some fault⟩
      | none =>
          (carryOn fuel options contents input reply.interpreter complete).map
            (Transcript.append ⟨reply.printed, "", none⟩)

end Forth.Console

import Forth.Text.Quoted

/-! The ways a command can go wrong, and how they are told. -/

namespace Forth

inductive Fault where
  | underflow (needed available : Nat)
  | invalidArgument (word message : String)
  | unknownWord (name : String)
  | incompleteDefinition (reason : String)
  | inputOutput (cause : String)
deriving DecidableEq, Repr, Inhabited

namespace Fault

def message : Fault → String
  | .underflow needed available =>
      s!"Stack underflow, needed {needed} value(s) but only {available} available."
  | .invalidArgument word message => s!"Invalid argument to {word}: {message}"
  | .unknownWord name => s!"Word {name} is not defined."
  | .incompleteDefinition reason => s!"Definition incomplete: {reason}"
  | .inputOutput cause => s!"I/O error: {cause}"

/-- The fault as a term, with its texts quoted. -/
def inspect : Fault → String
  | .underflow needed available =>
      s!"Underflow \x7b needed: {needed}, available: {available} \x7d"
  | .invalidArgument word message =>
      "InvalidArgument \x7b word: " ++ Text.quoted word ++ ", message: " ++ Text.quoted message ++
        " \x7d"
  | .unknownWord name => "UnknownWord(" ++ Text.quoted name ++ ")"
  | .incompleteDefinition reason => "CompilationIncomplete(" ++ Text.quoted reason ++ ")"
  | .inputOutput cause => "Io(" ++ Text.quoted cause ++ ")"

def isIncompleteDefinition : Fault → Bool
  | .incompleteDefinition _ => true
  | _ => false

end Fault

end Forth

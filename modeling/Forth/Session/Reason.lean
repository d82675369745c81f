import Forth.Token

/-! Why a recording session can not become words. -/

namespace Forth

inductive Reason where
  | markInsideBody (token : Token)
  | notAName (token : Token)
  | strayMark (token : Token)
  | secondElse (label : String)
  | ifBeforeName
  | neverNamed
  | missingThen (label : String)
  | noOpenFragment (token : Token)
  | notAConditional (label : String)
  | noEnclosingDefinition (label : String)
  | parentGone (label : String)
deriving DecidableEq, Repr

def Reason.text : Reason → String
  | .markInsideBody token => s!"{token} can not appear inside a body"
  | .notAName token => s!"{token} can not be used as a word name"
  | .strayMark token => s!"{token} without a matching if"
  | .secondElse label => s!"second else inside {label}"
  | .ifBeforeName => "if used before the word was named"
  | .neverNamed => "definition was never given a name"
  | .missingThen label => s!"if {label} is missing its then"
  | .noOpenFragment token => s!"no open accumulator for {token}"
  | .notAConditional label => s!"{label} closed but is not a conditional"
  | .noEnclosingDefinition label => s!"{label} has no enclosing definition"
  | .parentGone label => s!"parent {label} of a conditional is gone"

end Forth

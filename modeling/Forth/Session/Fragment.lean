import Forth.Dictionary.Basic
import Forth.Session.Reason

/-! The pieces that a session collects tokens into: the definition itself, whose first token is its
name, and one conditional for every open `if`. -/

namespace Forth

inductive Branch where
  | ifBranch
  | elseBranch
deriving DecidableEq, Repr

structure Conditional where
  label : String
  ifBody : List Token := []
  elseBody : List Token := []
  branch : Branch := .ifBranch
  closed : Bool := false
deriving DecidableEq, Repr

namespace Conditional

/-- Adds a token to the branch that is being collected. -/
def append (conditional : Conditional) (token : Token) : Conditional :=
  match conditional.branch with
  | .ifBranch => { conditional with ifBody := conditional.ifBody ++ [token] }
  | .elseBranch => { conditional with elseBody := conditional.elseBody ++ [token] }

def action (conditional : Conditional) : Action :=
  .conditional conditional.ifBody conditional.elseBody

end Conditional

inductive Fragment where
  | definition (name : Option String) (body : List Token)
  | conditional (content : Conditional)
deriving DecidableEq, Repr

namespace Fragment

/-- What becomes of a fragment that is handed a token. Only a conditional is ever finished. -/
inductive Taken where
  | accepted (extended : Fragment)
  | finished (closed : Fragment)
  | rejected (reason : Reason)
deriving DecidableEq, Repr

def takeIntoDefinition (name : Option String) (body : List Token) (token : Token) : Taken :=
  match name with
  | none =>
      if token.isName then .accepted (.definition (some token) body)
      else .rejected (.notAName token)
  | some name =>
      match token.mark? with
      | some .elseMark | some .thenMark => .rejected (.strayMark token)
      | _ => .accepted (.definition (some name) (body ++ [token]))

def takeIntoConditional (content : Conditional) (token : Token) : Taken :=
  match token.mark?, content.branch with
  | some .thenMark, _ => .finished (.conditional { content with closed := true })
  | some .elseMark, .ifBranch => .accepted (.conditional { content with branch := .elseBranch })
  | some .elseMark, .elseBranch => .rejected (.secondElse content.label)
  | _, _ => .accepted (.conditional (content.append token))

def take (fragment : Fragment) (token : Token) : Taken :=
  match fragment with
  | .definition name body => takeIntoDefinition name body token
  | .conditional content => takeIntoConditional content token

/-- Calls a finished conditional at the current place. -/
def refer (fragment : Fragment) (label : String) : Except Reason Fragment :=
  match fragment with
  | .definition none _ => .error .ifBeforeName
  | .definition (some name) body => .ok (.definition (some name) (body ++ [label]))
  | .conditional content => .ok (.conditional (content.append label))

end Fragment

end Forth

import Forth.Labels
import Forth.Session.Fragment

/-! A session turns the tokens of one definition into words. Tokens go to the current fragment; an
`if` opens a fragment inside it, and the matching `then` closes that one into a word of its own,
which the enclosing fragment calls by its label. A token that can not belong where it stands spoils
the session, and the tokens after it are ignored. -/

namespace Forth

/-- The words of a finished session by name. -/
abbrev Definitions := Std.ExtTreeMap String Action compare

structure Session where
  labels : Labels
  base : String
  current : String
  /-- The fragments around the current one, innermost first. -/
  parents : List String := []
  fragments : Std.ExtTreeMap String Fragment compare
  completed : Definitions := ∅
  failure : Option Reason := none

namespace Session

/-- A session whose first token will be the name of the word. -/
def named (labels : Labels) : Session :=
  let base := labels.nextDefinition
  { labels := labels.afterDefinition
    base
    current := base
    fragments := Std.ExtTreeMap.insert ∅ base (.definition none []) }

/-- A session whose word is named by its own label. -/
def anonymous (labels : Labels) : Session :=
  let base := labels.nextDefinition
  { labels := labels.afterDefinition
    base
    current := base
    fragments := Std.ExtTreeMap.insert ∅ base (.definition (some base) []) }

def name? (session : Session) : Option String :=
  match session.fragments[session.base]? with
  | some (.definition name _) => name
  | _ => none

/-- The number of open conditionals. -/
def depth (session : Session) : Nat := session.parents.length

def hasFailed (session : Session) : Bool := session.failure.isSome

def fail (session : Session) (reason : Reason) : Session :=
  { session with failure := some reason }

/-- Replaces the current fragment. -/
def store (session : Session) (fragment : Fragment) : Session :=
  { session with fragments := session.fragments.insert session.current fragment }

def openConditional (session : Session) : Session :=
  let label := session.labels.nextConditional
  { session with
    labels := session.labels.afterConditional
    current := label
    parents := session.current :: session.parents
    fragments := session.fragments.insert label (.conditional { label }) }

/-- Calls a conditional that has just been closed from the fragment around it. -/
def refer (session : Session) (label : String) : Session :=
  match session.fragments[session.current]? with
  | none => session.fail (.parentGone session.current)
  | some fragment =>
      match fragment.refer label with
      | .error reason => session.fail reason
      | .ok extended => session.store extended

/-- Turns the current conditional into a word and goes on with the fragment around it. -/
def closeConditional (session : Session) : Session :=
  let removed := { session with fragments := session.fragments.erase session.current }
  match session.fragments[session.current]? with
  | some (.conditional conditional) =>
      match session.parents with
      | [] => removed.fail (.noEnclosingDefinition conditional.label)
      | parent :: parents =>
          let closed := { removed with
            current := parent
            parents
            completed := session.completed.insert conditional.label conditional.action }
          closed.refer conditional.label
  | _ => removed.fail (.notAConditional session.current)

/-- Hands a token that opens nothing to the current fragment. -/
def route (session : Session) (token : Token) : Session :=
  match session.fragments[session.current]? with
  | none => session.fail (.noOpenFragment token)
  | some fragment =>
      match fragment.take token with
      | .accepted extended => session.store extended
      | .finished closed => (session.store closed).closeConditional
      | .rejected reason => session.fail reason

def push (session : Session) (token : Token) : Session :=
  if session.hasFailed then session
  else
    match token.mark? with
    | some .ifMark => session.openConditional
    | some .colon | some .semicolon => session.fail (.markInsideBody token)
    | _ => session.route token

def pushAll (session : Session) (tokens : List Token) : Session := tokens.foldl push session

/-- Adds the words of the fragments that are left at the end. They must be the named definition and
conditionals that have been closed. -/
def gather (definitions : Definitions) : List (String × Fragment) → Except Reason Definitions
  | [] => .ok definitions
  | (_, .definition none _) :: _ => .error .neverNamed
  | (_, .definition (some name) body) :: rest =>
      gather (definitions.insert name (.compiled body)) rest
  | (label, .conditional conditional) :: rest =>
      if conditional.closed then
        gather (definitions.insert conditional.label conditional.action) rest
      else .error (.missingThen label)

/-- All words of the session, or the reason why there are none. -/
def complete (session : Session) : Except Reason Definitions :=
  match session.failure with
  | some reason => .error reason
  | none => gather session.completed session.fragments.toList

end Session

/-- How sessions become words. The interpreter does not care in which order a session goes through the fragments
that it has left. -/
abbrev Completion := Session → Except Reason Definitions

end Forth

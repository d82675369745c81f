import Forth.Interpreter

/-! What the interpreter reports while it works. The events of a command are read off the states it
goes through, so nothing else depends on them. -/

namespace Forth

inductive Level where
  | trace
  | debug
  | warning
deriving DecidableEq, Repr

namespace Level

def name : Level → String
  | .trace => "TRACE"
  | .debug => "DEBUG"
  | .warning => "WARN"

def rank : Level → Nat
  | .trace => 0
  | .debug => 1
  | .warning => 2

end Level

inductive Event where
  | abandoning (name : Option String)
  | discarding (name : Option String) (fault : Fault)
  | recording
  | defined (name : Option String) (count : Nat)
  | sessionFailed (reason : Reason)
  | unknownWord (name : Token) (dropped : Agenda)
  | adding (name : String)
  | executing (token : Token) (pending : Agenda)
  | ignoring (token : Token)
  | opening (label parent : String)
  | closing (label parent : String)
  | removed (count : Nat)
deriving DecidableEq, Repr

namespace Event

def level : Event → Level
  | .abandoning _ | .discarding _ _ => .warning
  | .recording | .defined _ _ | .sessionFailed _ | .unknownWord _ _ => .debug
  | .adding _ | .executing _ _ | .ignoring _ | .opening _ _ | .closing _ _ | .removed _ => .trace

def shownName (name : Option String) : String := name.getD "<unnamed>"

def text : Event → String
  | .abandoning name => "Abandoning definition of " ++ shownName name ++ " for a new one."
  | .discarding name fault =>
      "Discarding definition of " ++ shownName name ++ ": " ++ fault.message
  | .recording => "Recording a new definition."
  | .defined name count =>
      "Defined " ++ shownName name ++ " (" ++ toString count ++ " word(s) installed)."
  | .sessionFailed reason => "Compile session failed: " ++ reason.text
  | .unknownWord name dropped =>
      "Word " ++ name ++ " is not defined, dropping " ++ toString dropped.length ++
        " pending token(s)."
  | .adding name => "Adding word " ++ name ++ "."
  | .executing token pending =>
      "Executing " ++ token ++ " with " ++ toString pending.length ++ " token(s) pending."
  | .ignoring token => "Ignoring " ++ token ++ " after a compile error."
  | .opening label parent => "Opening conditional " ++ label ++ " inside " ++ parent ++ "."
  | .closing label parent => "Closing conditional " ++ label ++ " back into " ++ parent ++ "."
  | .removed count => "Removed " ++ toString count ++ " top level conditional word(s)."

end Event

namespace Session

def events (session : Session) (token : Token) : List Event :=
  if session.hasFailed then [.ignoring token]
  else
    let extended := session.push token
    let moves : List Event :=
      if session.depth < extended.depth then [.opening extended.current session.current]
      else if extended.depth < session.depth then [.closing session.current extended.current]
      else []
    moves ++ (extended.failure.map Event.sessionFailed).toList

end Session

namespace Machine

def stepEvents (dictionary : Dictionary) (machine : Machine) : List Event :=
  match machine.agenda with
  | [] => []
  | token :: agenda =>
      match machine.step dictionary with
      | .ended { fault := some (.unknownWord name), .. } =>
          [.executing token agenda, .unknownWord name agenda]
      | _ => [.executing token agenda]

/-- The events of a run after the given ones, which are last first. -/
def eventsAfter (dictionary : Dictionary) : Nat → Machine → List Event → List Event
  | 0, _, earlier => earlier.reverse
  | fuel + 1, machine, earlier =>
      let reached := (machine.stepEvents dictionary).reverse ++ earlier
      match machine.step dictionary with
      | .moved next => eventsAfter dictionary fuel next reached
      | _ => reached.reverse

def events (dictionary : Dictionary) (fuel : Nat) (machine : Machine) : List Event :=
  eventsAfter dictionary fuel machine []

end Machine

namespace Definitions

def events (definitions : Definitions) : List Event := definitions.keys.map Event.adding

end Definitions

namespace Interpreter

def runEvents (fuel : Nat) (interpreter : Interpreter) (tokens : List Token) : List Event :=
  Machine.events interpreter.dictionary fuel ⟨interpreter.stack, tokens, ""⟩

def endDefinitionEvents (session : Session) : List Event :=
  match session.complete with
  | .error reason => [.discarding session.name? (.incompleteDefinition reason.text)]
  | .ok definitions => .defined session.name? definitions.size :: definitions.events

def endConditionalEvents (fuel : Nat) (interpreter : Interpreter) (session : Session) :
    List Event :=
  match session.complete with
  | .error _ => []
  | .ok definitions =>
      let decision := session.decision definitions
      let installed := { interpreter with
        dictionary := interpreter.dictionary.install decision.helpers.toList }
      decision.helpers.events ++ installed.runEvents fuel decision.body ++
        [.removed decision.helpers.size]

def executeOutsideEvents (fuel : Nat) (interpreter : Interpreter) (labels : Labels) (token : Token) :
    List Event :=
  match token.mark? with
  | some .colon => [.recording]
  | some .ifMark => (Session.anonymous labels).events token
  | _ => interpreter.runEvents fuel [token]

def executeInDefinitionEvents (session : Session) (token : Token) : List Event :=
  match token.mark? with
  | some .semicolon => endDefinitionEvents session
  | some .colon => [.abandoning session.name?]
  | _ => session.events token

def executeInConditionalEvents (fuel : Nat) (interpreter : Interpreter) (session : Session)
    (token : Token) : List Event :=
  let extended := session.push token
  session.events token ++
    if extended.hasFailed || extended.depth = 0 then interpreter.endConditionalEvents fuel extended
    else []

def executeEvents (fuel : Nat) (interpreter : Interpreter) (token : Token) : List Event :=
  match interpreter.activity with
  | .executing labels => interpreter.executeOutsideEvents fuel labels token
  | .recording session => executeInDefinitionEvents session token
  | .conditional session => interpreter.executeInConditionalEvents fuel session token

def executeAllEvents (fuel : Nat) : Interpreter → List Token → List Event
  | _, [] => []
  | interpreter, token :: rest =>
      interpreter.executeEvents fuel token ++
        match interpreter.execute fuel token with
        | some { interpreter := next, fault := none, .. } => executeAllEvents fuel next rest
        | _ => []

def executeLineEvents (fuel : Nat) (interpreter : Interpreter) (line : String) : List Event :=
  interpreter.executeAllEvents fuel (Token.ofLine line)

end Interpreter

end Forth

import Forth.Machine
import Forth.Session.Basic
import Forth.Vocabulary

/-! The interpreter takes one token at a time. Between commands it is executing, recording a
definition or collecting a conditional typed outside of any definition. A definition adds its words
when it ends; a conditional runs as soon as its last `then` is there, and the words made for it are
gone afterwards. -/

namespace Forth

inductive Activity where
  | executing (labels : Labels)
  | recording (session : Session)
  | conditional (session : Session)

inductive Mode where
  | executing
  | recording
  | conditional
deriving DecidableEq, Repr

namespace Activity

def mode : Activity → Mode
  | .executing _ => .executing
  | .recording _ => .recording
  | .conditional _ => .conditional

/-- The labels still to be drawn. -/
def labels : Activity → Labels
  | .executing labels => labels
  | .recording session => session.labels
  | .conditional session => session.labels

end Activity

structure Interpreter where
  stack : Stack := []
  dictionary : Dictionary := .empty
  activity : Activity := .executing .standard

/-- What a command leaves behind: the interpreter, what was printed, and the fault if it failed. -/
structure Reply where
  interpreter : Interpreter
  printed : String := ""
  fault : Option Fault := none

/-- Prints before what the reply prints. -/
def Reply.after (earlier : String) (reply : Reply) : Reply :=
  { reply with printed := earlier ++ reply.printed }

/-- A conditional that is ready to run: its body, and the words that stand for its branches. -/
structure Decision where
  body : List Token
  helpers : Definitions

namespace Session

/-- The body of the finished session's own word, apart from its helpers. A session that has lost
its word has nothing to run. -/
def decision (session : Session) (definitions : Definitions) : Decision :=
  match session.name? with
  | none => ⟨[], definitions⟩
  | some name =>
      match definitions[name]? with
      | some (.compiled body) => ⟨body, definitions.erase name⟩
      | _ => ⟨[], definitions.erase name⟩

end Session

namespace Interpreter

/-- An interpreter that knows the given words. -/
def ofWords (labels : Labels) (words : List Word) : Interpreter :=
  { dictionary := Dictionary.empty.insertAll words, activity := .executing labels }

def standard : Interpreter :=
  ofWords .standard (Vocabulary.base ++ Vocabulary.printing ++ Vocabulary.prelude)

def mode (interpreter : Interpreter) : Mode := interpreter.activity.mode

def push (interpreter : Interpreter) (value : Value) : Interpreter :=
  { interpreter with stack := value :: interpreter.stack }

def pop (interpreter : Interpreter) : Except Fault (Value × Interpreter) :=
  match interpreter.stack.popValue with
  | .error fault => .error fault
  | .ok (value, rest) => .ok (value, { interpreter with stack := rest })

def addWord (interpreter : Interpreter) (word : Word) : Interpreter :=
  { interpreter with dictionary := interpreter.dictionary.insert word }

/-- Forgets the stack and whatever was being recorded, but no word. -/
def reset (interpreter : Interpreter) : Interpreter :=
  { interpreter with stack := [], activity := .executing interpreter.activity.labels }

def become (interpreter : Interpreter) (activity : Activity) : Reply :=
  { interpreter := { interpreter with activity } }

/-- Goes back to executing because a session can not become words. -/
def discard (interpreter : Interpreter) (session : Session) (reason : Reason) : Reply :=
  { interpreter := { interpreter with activity := .executing session.labels }
    fault := some (.incompleteDefinition reason.text) }

def runTokens (fuel : Nat) (interpreter : Interpreter) (tokens : List Token) : Option Reply :=
  (Machine.runTokens interpreter.dictionary fuel interpreter.stack tokens).map fun ending =>
    { interpreter := { interpreter with stack := ending.stack }
      printed := ending.printed
      fault := ending.fault }

/-- Adds the words of a definition, all or none. -/
def endDefinition (interpreter : Interpreter) (session : Session)
    (complete : Completion := Session.complete) : Reply :=
  match complete session with
  | .error reason => interpreter.discard session reason
  | .ok definitions =>
      { interpreter :=
          { interpreter with
            dictionary := interpreter.dictionary.install definitions.toList
            activity := .executing session.labels } }

/-- Runs the body while the helpers are installed, and erases them whether or not it fails. -/
def runDecision (fuel : Nat) (interpreter : Interpreter) (decision : Decision) : Option Reply :=
  let installed := { interpreter with
    dictionary := interpreter.dictionary.install decision.helpers.toList }
  (installed.runTokens fuel decision.body).map fun reply =>
    { reply with
      interpreter := { reply.interpreter with
        dictionary := reply.interpreter.dictionary.eraseAll decision.helpers.keys } }

/-- Ends a conditional typed outside of any definition. -/
def endConditional (fuel : Nat) (interpreter : Interpreter) (session : Session)
    (complete : Completion := Session.complete) : Option Reply :=
  match complete session with
  | .error reason => some (interpreter.discard session reason)
  | .ok definitions =>
      runDecision fuel { interpreter with activity := .executing session.labels }
        (session.decision definitions)

def executeOutside (fuel : Nat) (interpreter : Interpreter) (labels : Labels) (token : Token) :
    Option Reply :=
  match token.mark? with
  | some .colon => some (interpreter.become (.recording (.named labels)))
  | some .ifMark =>
      some (interpreter.become (.conditional ((Session.anonymous labels).push token)))
  | _ => interpreter.runTokens fuel [token]

/-- A colon abandons the definition for a new one. -/
def executeInDefinition (interpreter : Interpreter) (session : Session) (token : Token)
    (complete : Completion := Session.complete) : Reply :=
  match token.mark? with
  | some .semicolon => interpreter.endDefinition session complete
  | some .colon => interpreter.become (.recording (.named session.labels))
  | _ => interpreter.become (.recording (session.push token))

def executeInConditional (fuel : Nat) (interpreter : Interpreter) (session : Session)
    (token : Token) (complete : Completion := Session.complete) : Option Reply :=
  let extended := session.push token
  if extended.hasFailed || extended.depth = 0 then interpreter.endConditional fuel extended complete
  else some (interpreter.become (.conditional extended))

/-- Takes one token. There is no reply if running it needs more steps than the fuel allows. -/
def execute (fuel : Nat) (interpreter : Interpreter) (token : Token)
    (complete : Completion := Session.complete) : Option Reply :=
  match interpreter.activity with
  | .executing labels => interpreter.executeOutside fuel labels token
  | .recording session => some (interpreter.executeInDefinition session token complete)
  | .conditional session => interpreter.executeInConditional fuel session token complete

/-- Takes tokens in order up to the first that fails. -/
def executeAll (fuel : Nat) (interpreter : Interpreter) (tokens : List Token)
    (complete : Completion := Session.complete) : Option Reply :=
  match tokens with
  | [] => some { interpreter }
  | token :: rest =>
      match interpreter.execute fuel token complete with
      | none => none
      | some reply =>
          match reply.fault with
          | some _ => some reply
          | none => (executeAll fuel reply.interpreter rest complete).map (Reply.after reply.printed)

def executeLine (fuel : Nat) (interpreter : Interpreter) (line : String)
    (complete : Completion := Session.complete) : Option Reply :=
  interpreter.executeAll fuel (Token.ofLine line) complete

end Interpreter

/-- What a host may ask of an interpreter. -/
inductive Command where
  | execute (token : Token)
  | line (text : String)
  | push (value : Value)
  | pop
  | reset
deriving DecidableEq, Repr

namespace Interpreter

def perform (fuel : Nat) (interpreter : Interpreter) : Command → Option Reply
  | .execute token => interpreter.execute fuel token
  | .line text => interpreter.executeLine fuel text
  | .push value => some { interpreter := interpreter.push value }
  | .pop =>
      match interpreter.pop with
      | .error fault => some { interpreter, fault := some fault }
      | .ok (_, popped) => some { interpreter := popped }
  | .reset => some { interpreter := interpreter.reset }

end Interpreter

end Forth

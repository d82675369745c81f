import Forth.Dictionary.Basic

/-! The machine that executes tokens. It holds the data stack, the agenda and what has been printed.
A step takes the next token off the agenda: a numeral is pushed, a word of the dictionary acts, and
anything else is a fault, which ends the run with the stack as it stands. -/

namespace Forth

structure Machine where
  stack : Stack
  agenda : Agenda
  printed : String := ""
deriving DecidableEq, Repr

/-- What a run leaves behind. -/
structure Ending where
  stack : Stack
  printed : String := ""
  fault : Option Fault := none
deriving DecidableEq, Repr

inductive Step where
  | ended (ending : Ending)
  | moved (next : Machine)
deriving DecidableEq, Repr

namespace Machine

/-- Everything still pending is dropped, and the stack is left as the failing token found it. -/
def fail (machine : Machine) (fault : Fault) : Step :=
  .ended ⟨machine.stack, machine.printed, some fault⟩

def push (machine : Machine) (value : Value) (agenda : Agenda) : Machine :=
  { machine with stack := value :: machine.stack, agenda }

def applyPrimitive (machine : Machine) (primitive : Primitive) (agenda : Agenda) : Step :=
  match primitive.apply machine.stack with
  | .error fault => machine.fail fault
  | .ok effect =>
      .moved ⟨effect.stack, agenda.pushBody effect.scheduled, machine.printed ++ effect.printed⟩

/-- The selector is taken off the stack before the branch is scheduled. -/
def branch (machine : Machine) (ifBody elseBody : List Token) (agenda : Agenda) : Step :=
  match machine.stack.popValue with
  | .error fault => machine.fail fault
  | .ok (selector, rest) =>
      .moved { machine with
        stack := rest
        agenda := agenda.pushBody (if selector.picksIf then ifBody else elseBody) }

def act (machine : Machine) (action : Action) (agenda : Agenda) : Step :=
  match action with
  | .primitive primitive => machine.applyPrimitive primitive agenda
  | .compiled body => .moved { machine with agenda := agenda.pushBody body }
  | .conditional ifBody elseBody => machine.branch ifBody elseBody agenda

/-- Executes one token in front of the rest of the agenda. A numeral wins over a word. -/
def executeToken (dictionary : Dictionary) (machine : Machine) (token : Token) (agenda : Agenda) :
    Step :=
  match Number.ofNumeral? token with
  | some number => .moved (machine.push (.number number) agenda)
  | none =>
      match dictionary.find? token with
      | none => machine.fail (.unknownWord token)
      | some word => machine.act word.action agenda

def step (dictionary : Dictionary) (machine : Machine) : Step :=
  match machine.agenda with
  | [] => .ended ⟨machine.stack, machine.printed, none⟩
  | token :: agenda => machine.executeToken dictionary token agenda

/-- Runs until the agenda is empty or a fault occurs. There is no ending if the fuel, which bounds
the number of steps, gives out first. -/
def run (dictionary : Dictionary) : Nat → Machine → Option Ending
  | 0, _ => none
  | fuel + 1, machine =>
      match machine.step dictionary with
      | .ended ending => some ending
      | .moved next => run dictionary fuel next

/-- Runs the given tokens on a stack. -/
def runTokens (dictionary : Dictionary) (fuel : Nat) (stack : Stack) (tokens : List Token) :
    Option Ending :=
  run dictionary fuel ⟨stack, tokens, ""⟩

end Machine

end Forth

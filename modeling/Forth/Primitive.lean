import Forth.Agenda
import Forth.Stack

/-! The words that are not written in terms of other words. Applying one to a stack either fails
and changes nothing, or yields the new stack, tokens to execute next and text to print. -/

namespace Forth

inductive Operation where
  | add
  | subtract
  | multiply
deriving DecidableEq, Repr

namespace Operation

def symbol : Operation → String
  | .add => "+"
  | .subtract => "-"
  | .multiply => "*"

def result : Operation → Int → Int → Int
  | .add, left, right => left + right
  | .subtract, left, right => left - right
  | .multiply, left, right => left * right

end Operation

inductive Relation where
  | greater
  | greaterOrEqual
  | less
  | lessOrEqual
  | equal
  | different
deriving DecidableEq, Repr

namespace Relation

def symbol : Relation → String
  | .greater => ">"
  | .greaterOrEqual => ">="
  | .less => "<"
  | .lessOrEqual => "<="
  | .equal => "=="
  | .different => "!="

def holds : Relation → Int → Int → Bool
  | .greater, left, right => left > right
  | .greaterOrEqual, left, right => left ≥ right
  | .less, left, right => left < right
  | .lessOrEqual, left, right => left ≤ right
  | .equal, left, right => left = right
  | .different, left, right => left ≠ right

end Relation

inductive Primitive where
  | duplicate
  | discard
  | exchange
  | rotate
  | operation (kind : Operation)
  | relation (kind : Relation)
  | choose
  | printTop
  | printStack
  /-- Puts the given tokens on the agenda one by one, so the last one runs first. -/
  | schedule (tokens : List Token)
deriving DecidableEq, Repr

structure Effect where
  stack : Stack
  scheduled : List Token := []
  printed : String := ""
deriving DecidableEq, Repr

namespace Operation

/-- The top value is the left operand. -/
def apply (operation : Operation) (top below : Value) (rest : Stack) : Except Fault Effect :=
  match Number.ofInt? (operation.result top.reading.toInt below.reading.toInt) with
  | some number => .ok ⟨.number number :: rest, [], ""⟩
  | none =>
      .error (.invalidArgument operation.symbol
        (top.reading.numeral ++ " " ++ operation.symbol ++ " " ++ below.reading.numeral ++
          " overflows a 64-bit integer."))

end Operation

/-- Flag zero picks the deeper value and flag one the nearer. The choice is executed as a token. -/
def chooseBetween (flag nearer deeper : Value) (rest : Stack) : Except Fault Effect :=
  if flag.reading = 0 then .ok ⟨rest, [deeper.text], ""⟩
  else if flag.reading = 1 then .ok ⟨rest, [nearer.text], ""⟩
  else
    .error (.invalidArgument "choose"
      ("flag must be 0 or 1, found " ++ flag.reading.numeral ++ "."))

def stackLine (stack : Stack) : String := "H -> " ++ stack.text ++ " <- T\n"

namespace Primitive

/-- How many values the word needs on the stack. -/
def arity : Primitive → Nat
  | .duplicate | .discard => 1
  | .exchange | .operation _ | .relation _ => 2
  | .rotate | .choose => 3
  | .printTop | .printStack | .schedule _ => 0

def apply (primitive : Primitive) (stack : Stack) : Except Fault Effect :=
  match primitive, stack with
  | .duplicate, top :: rest => .ok ⟨top :: top :: rest, [], ""⟩
  | .discard, _ :: rest => .ok ⟨rest, [], ""⟩
  | .exchange, top :: below :: rest => .ok ⟨below :: top :: rest, [], ""⟩
  | .rotate, top :: middle :: bottom :: rest => .ok ⟨bottom :: top :: middle :: rest, [], ""⟩
  | .operation kind, top :: below :: rest => kind.apply top below rest
  | .relation kind, top :: below :: rest =>
      .ok ⟨.ofBool (kind.holds top.reading.toInt below.reading.toInt) :: top :: below :: rest,
        [], ""⟩
  | .choose, flag :: nearer :: deeper :: rest => chooseBetween flag nearer deeper rest
  | .printTop, stack => .ok ⟨stack, [], stack.top.text ++ "\n"⟩
  | .printStack, stack => .ok ⟨stack, [], stackLine stack⟩
  | .schedule tokens, stack => .ok ⟨stack, tokens.reverse, ""⟩
  | primitive, stack => .error (.underflow primitive.arity stack.length)

end Primitive

end Forth

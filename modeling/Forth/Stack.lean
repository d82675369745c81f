import Forth.Fault
import Forth.Value

/-! The data stack, top first. Taking values by number is all or nothing: when too few are there
the stack is left alone and the fault names both counts. -/

namespace Forth

abbrev Stack := List Value

namespace Stack

/-- The top value, or the empty value if there is none. -/
def top (stack : Stack) : Value := stack.headD .empty

/-- Takes the top value off, or hands out the empty value if there is none. -/
def pop (stack : Stack) : Value × Stack := (stack.top, stack.tail)

def require (stack : Stack) (count : Nat) : Except Fault Unit :=
  if stack.length < count then .error (.underflow count stack.length) else .ok ()

def popValue : Stack → Except Fault (Value × Stack)
  | [] => .error (.underflow 1 0)
  | value :: rest => .ok (value, rest)

/-- Takes the top values off, top first. -/
def popMany (stack : Stack) (count : Nat) : Except Fault (List Value × Stack) :=
  if stack.length < count then .error (.underflow count stack.length)
  else .ok (stack.take count, stack.drop count)

/-- The top values, top first. -/
def peekMany (stack : Stack) (count : Nat) : Except Fault (List Value) :=
  if stack.length < count then .error (.underflow count stack.length)
  else .ok (stack.take count)

def text (stack : Stack) : String :=
  String.join (stack.map fun value => "[" ++ value.text ++ "]")

/-- The readings of all values, bottom first. -/
def readings (stack : Stack) : List Number := (stack.map Value.reading).reverse

end Stack

end Forth

import Forth.Dictionary.Basic

/-! The words that come with the language, in three groups. -/

namespace Forth.Vocabulary

def ofPrimitive (name : String) (primitive : Primitive) (description signature : String) : Word :=
  { name, action := .primitive primitive, description, signature }

/-- A word whose body is written out as a line of tokens. -/
def ofLine (name line description signature : String) : Word :=
  { name, action := .compiled (Token.ofLine line), description, signature }

def ofOperation (operation : Operation) (description signature : String) : Word :=
  ofPrimitive operation.symbol (.operation operation) description signature

def ofRelation (relation : Relation) (question signature : String) : Word :=
  ofPrimitive relation.symbol (.relation relation) (question ++ "  0 for yes, 1 for no.") signature

def shuffling : List Word :=
  [ ofPrimitive "dup" .duplicate "Duplicate the top value on the data stack."
      "value -- value value",
    ofPrimitive "drop" .discard "Discard the top value on the data stack." "value -- ",
    ofPrimitive "flip" .exchange "Swap the top 2 values on the data stack." "a b -- b a",
    ofPrimitive "rotate" .rotate "Bring the third value on the data stack up to the top."
      "a b c -- b c a" ]

def arithmetic : List Word :=
  [ ofOperation .add "Add the top two values." "a b -- b+a",
    ofOperation .subtract "Subtract the value beneath the top from the top value." "a b -- b-a",
    ofOperation .multiply "Multiply the top two values." "a b -- b*a" ]

def comparison : List Word :=
  [ ofRelation .greater "Is the top value greater than the one beneath it?"
      "below top -- below top flag",
    ofRelation .greaterOrEqual "Is the top value greater than or equal to the one beneath it?"
      "below top -- below top flag",
    ofRelation .less "Is the top value less than the one beneath it?"
      "below top -- below top flag",
    ofRelation .lessOrEqual "Is the top value less than or equal to the one beneath it?"
      "below top -- below top flag",
    ofRelation .equal "Are the top two values equal?" "a b -- a b flag",
    ofRelation .different "Do the top two values differ?" "a b -- a b flag" ]

def control : List Word :=
  [ ofPrimitive "choose" .choose "Pick the first value on a 0 flag or the second on a 1 flag."
      "if-value else-value flag -- chosen" ]

/-- The words that only compute. -/
def base : List Word := shuffling ++ arithmetic ++ comparison ++ control

def printing : List Word :=
  [ ofPrimitive "." .printTop "Print the top value of the stack without removing it."
      "value -- value",
    ofPrimitive "print" .printStack "Print the whole data stack, top first." " -- " ]

/-- Words written in terms of the others. -/
def prelude : List Word :=
  [ ofLine "square" "dup *" "Square the top value." "n -- n*n",
    ofLine "fib" "dup flip rotate +" "Advance a pair of Fibonacci numbers by one step."
      "a b -- b a+b",
    ofLine "fib-10" "1 1 fib fib fib fib fib fib fib fib fib fib ."
      "Print the twelfth Fibonacci number." " -- a b" ]

end Forth.Vocabulary

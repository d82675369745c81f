import Forth.Number

/-! What the data stack holds: numbers, and the empty value that stands for an absent one. -/

namespace Forth

inductive Value where
  | empty
  | number (content : Number)
deriving DecidableEq, Repr, Inhabited

namespace Value

/-- The number that a word works with. The empty value counts as zero. -/
def reading : Value → Number
  | .empty => 0
  | .number content => content

def text : Value → String
  | .empty => "--empty--"
  | .number content => content.numeral

/-- The text with the kind of value spelled out. -/
def inspect : Value → String
  | .empty => "Empty"
  | .number content => "Number(" ++ content.numeral ++ ")"

/-- Zero means yes, for a comparison as well as for a branch. -/
def ofBool (condition : Bool) : Value := .number (if condition then 0 else 1)

def picksIf (selector : Value) : Bool := selector.reading == 0

def isNumber : Value → Bool
  | .empty => false
  | .number _ => true

theorem picksIf_iff (selector : Value) : selector.picksIf = true ↔ selector.reading = 0 := beq_iff_eq

theorem ofBool_picksIf (condition : Bool) : (ofBool condition).picksIf = condition := by
  cases condition <;> rfl

end Value

end Forth

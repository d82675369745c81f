import Forth.Primitive
import Std.Data.ExtTreeMap

/-! Words and the dictionary that finds them by name. Two dictionaries with the same words under
the same names are equal, whatever was inserted and erased on the way. -/

namespace Forth

inductive Action where
  | primitive (kind : Primitive)
  | compiled (body : List Token)
  | conditional (ifBody elseBody : List Token)
deriving DecidableEq, Repr

namespace Action

def isPrimitive : Action → Bool
  | .primitive _ => true
  | _ => false

def isConditional : Action → Bool
  | .conditional _ _ => true
  | _ => false

/-- The action as a term, with its tokens quoted. -/
def inspect : Action → String
  | .primitive _ => "Native(<fn>)"
  | .compiled body => "Compiled(" ++ Text.quotedList body ++ ")"
  | .conditional ifBody elseBody =>
      "Conditional(if: " ++ Text.quotedList ifBody ++ ", else: " ++ Text.quotedList elseBody ++ ")"

end Action

structure Word where
  name : String
  action : Action
  description : String := ""
  signature : String := ""
  visible : Bool := true
deriving DecidableEq, Repr

/-- The word that a definition leaves behind. Its conditionals are not for show. -/
def Word.defined (name : String) (action : Action) : Word :=
  { name, action, visible := !action.isConditional }

@[ext]
structure Dictionary where
  entries : Std.ExtTreeMap String Word compare

namespace Dictionary

def empty : Dictionary := ⟨∅⟩

def find? (dictionary : Dictionary) (name : String) : Option Word := dictionary.entries[name]?

def size (dictionary : Dictionary) : Nat := dictionary.entries.size

/-- A word of the same name gives way. -/
def insert (dictionary : Dictionary) (word : Word) : Dictionary :=
  ⟨dictionary.entries.insert word.name word⟩

def insertAll (dictionary : Dictionary) (words : List Word) : Dictionary :=
  words.foldl insert dictionary

def erase (dictionary : Dictionary) (name : String) : Dictionary :=
  ⟨dictionary.entries.erase name⟩

def eraseAll (dictionary : Dictionary) (names : List String) : Dictionary :=
  names.foldl erase dictionary

/-- Adds the words of a definition. -/
def install (dictionary : Dictionary) (definitions : List (String × Action)) : Dictionary :=
  definitions.foldl (fun extended (name, action) => extended.insert (.defined name action))
    dictionary

/-- All words in the order of their names. -/
def words (dictionary : Dictionary) : List Word := dictionary.entries.toList.map Prod.snd

theorem find?_empty (name : String) : empty.find? name = none := by
  simp [empty, find?]

theorem find?_insert (dictionary : Dictionary) (word : Word) (name : String) :
    (dictionary.insert word).find? name =
      if word.name = name then some word else dictionary.find? name := by
  simp [insert, find?, Std.ExtTreeMap.getElem?_insert]

theorem find?_erase (dictionary : Dictionary) (erased name : String) :
    (dictionary.erase erased).find? name =
      if erased = name then none else dictionary.find? name := by
  simp [erase, find?, Std.ExtTreeMap.getElem?_erase]

theorem ext_find? {first second : Dictionary}
    (same : ∀ name, first.find? name = second.find? name) : first = second :=
  Dictionary.ext (Std.ExtTreeMap.ext_getElem? fun {name} => same name)

end Dictionary

end Forth

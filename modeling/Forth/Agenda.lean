import Forth.Token

/-! The tokens still to be executed, next one first. New work always goes in front. -/

namespace Forth

abbrev Agenda := List Token

namespace Agenda

def push (agenda : Agenda) (token : Token) : Agenda := token :: agenda

/-- The tokens of a body run in order before everything that was pending. -/
def pushBody (agenda : Agenda) (body : List Token) : Agenda := body ++ agenda

def pop : Agenda → Option Token × Agenda
  | [] => (none, [])
  | token :: rest => (some token, rest)

def text (agenda : Agenda) : String :=
  String.join (agenda.map fun token => "[" ++ token ++ "]")

end Agenda

end Forth

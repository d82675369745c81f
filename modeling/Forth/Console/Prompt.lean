import Forth.Console.Source
import Forth.Console.Transcript
import Forth.Dictionary.Listing

/-! The interactive prompt. A line is a request of its own or a line of tokens; a fault is reported
and the prompt carries on. -/

namespace Forth.Console

inductive Request where
  | leave
  | help
  | listWords
  | showStack
  | execute (line : String)
deriving DecidableEq, Repr

def Request.ofLine (line : String) : Request :=
  match Text.trim line with
  | "bye" => .leave
  | "h" => .help
  | "words" => .listWords
  | ".s" => .showStack
  | tokens => .execute tokens

def banner : String :=
  "qforth, type h for help\n" ++
  "----------------\n"

def helpText : String :=
  "Type tokens separated by spaces.  Numbers are pushed, everything else is looked up.\n" ++
  "  : name body ;          define a word\n" ++
  "  if ... else ... then   branch on the top value, 0 picks the if branch\n" ++
  "  words                  list the visible words\n" ++
  "  .s                     show the data stack\n" ++
  "  bye                    leave\n"

/-- Shows whether a definition or conditional is still open. -/
def promptFor : Mode → String
  | .executing => "-> "
  | .recording | .conditional => ".. "

def report (fault : Fault) : String :=
  (if fault.isIncompleteDefinition then "Definition discarded: " else "Error: ") ++
    fault.message ++ "\n"

def acknowledgement (quiet : Bool) : String := if quiet then "" else "ok\n"

/-- One line and what was said to it. -/
structure Exchange where
  interpreter : Interpreter
  output : String := ""
  diagnostics : String := ""
  leaving : Bool := false

namespace Exchange

def ofReply (quiet : Bool) (reply : Reply) : Exchange :=
  match reply.fault with
  | none =>
      { interpreter := reply.interpreter
        output := reply.printed ++ acknowledgement quiet }
  | some fault =>
      { interpreter := reply.interpreter
        output := reply.printed
        diagnostics := report fault }

def answer (fuel : Nat) (quiet : Bool) (interpreter : Interpreter) (line : String)
    (complete : Completion := Session.complete) : Option Exchange :=
  match Request.ofLine line with
  | .leave => some { interpreter, output := "Bye for now!\n", leaving := true }
  | .help => some { interpreter, output := helpText }
  | .listWords => some { interpreter, output := interpreter.dictionary.listing }
  | .showStack => some { interpreter, output := stackLine interpreter.stack }
  | .execute tokens => (interpreter.executeLine fuel tokens complete).map (ofReply quiet)

end Exchange

/-- Prompts for each line in turn until the input ends, can not be read, or asks to leave. -/
def converse (fuel : Nat) (quiet : Bool) (interpreter : Interpreter) (lines : List (Except Fault String))
    (complete : Completion := Session.complete) : Option Transcript :=
  match lines with
  | [] => some { output := promptFor interpreter.mode }
  | .error fault :: _ => some { output := promptFor interpreter.mode, fault := some fault }
  | .ok line :: rest =>
      match Exchange.answer fuel quiet interpreter line complete with
      | none => none
      | some exchange =>
          let said : Transcript :=
            ⟨promptFor interpreter.mode ++ exchange.output, exchange.diagnostics, none⟩
          if exchange.leaving then some said
          else (converse fuel quiet exchange.interpreter rest complete).map said.append

def greeting (quiet : Bool) : String := if quiet then "" else banner

def prompt (fuel : Nat) (quiet : Bool) (interpreter : Interpreter) (lines : List (Except Fault String))
    (complete : Completion := Session.complete) : Option Transcript :=
  (converse fuel quiet interpreter lines complete).map (Transcript.append ⟨greeting quiet, "", none⟩)

end Forth.Console

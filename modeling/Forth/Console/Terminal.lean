import Forth.Console.Program

/-! The program as it is performed. It asks its terminal for one line after the other and hands over at once what
there is to show. A terminal can be anything that takes texts and gives lines. -/

namespace Forth.Console

/-- What the program asks of its surroundings. -/
structure Terminal (m : Type → Type) where
  print : String → m Unit
  complain : String → m Unit
  /-- The next line of the input, or nothing at its end. -/
  nextLine : m (Option (Except Fault String))
  /-- What is in a file, or nothing if there is no such file. -/
  contents : String → m (Option ByteArray)

/-- How a performance ends. It is given up if a command takes more steps than the fuel allows. -/
inductive Outcome where
  | ended (fault : Option Fault)
  | givenUp

namespace Outcome

def epitaph : Outcome → String
  | .ended fault => Transcript.epitaph fault
  | .givenUp => "Gave up.\n"

def exitCode : Outcome → Nat
  | .ended fault => if fault.isSome then 1 else 0
  | .givenUp => 3

end Outcome

namespace Terminal

variable {m : Type → Type} [Monad m] (terminal : Terminal m) (fuel : Nat)

/-- Shows a transcript as a whole. -/
def present : Option Transcript → m Outcome
  | none => return .givenUp
  | some transcript => do
      terminal.print transcript.output
      terminal.complain transcript.diagnostics
      return .ended transcript.fault

/-- Prompts for one line after the other, but for no more than the given number. -/
def converse (quiet : Bool) : Nat → Interpreter → m Outcome
  | 0, _ => return .givenUp
  | lines + 1, interpreter => do
      terminal.print (promptFor interpreter.mode)
      match ← terminal.nextLine with
      | none => return .ended none
      | some (.error fault) => return .ended (some fault)
      | some (.ok line) =>
          match Exchange.answer fuel quiet interpreter line with
          | none => return .givenUp
          | some exchange =>
              terminal.print exchange.output
              terminal.complain exchange.diagnostics
              if exchange.leaving then return .ended none
              else converse quiet lines exchange.interpreter

/-- What follows the evaluations. -/
def carryOn (lines : Nat) (options : Options) (interpreter : Interpreter) : m Outcome :=
  match options.script, options.evaluations with
  | some path, _ => do terminal.present (Script.run fuel interpreter ⟨path, ← terminal.contents path⟩)
  | none, [] => do
      terminal.print (greeting options.quiet)
      terminal.converse fuel options.quiet lines interpreter
  | none, _ :: _ => return .ended none

def act (lines : Nat) (options : Options) : m Outcome :=
  match evaluate fuel options.interpreter options.evaluations with
  | none => return .givenUp
  | some reply => do
      terminal.print reply.printed
      match reply.fault with
      | some fault => return .ended (some fault)
      | none => terminal.carryOn fuel lines options reply.interpreter

/-- Performs the program, which reads no more than the given number of lines, and comes to its exit code. -/
def perform (lines : Nat) (options : Options) : m Nat := do
  let outcome ← terminal.act fuel lines options
  terminal.complain outcome.epitaph
  return outcome.exitCode

end Terminal

end Forth.Console

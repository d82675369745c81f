import Forth.Interpreter

/-! What a program run shows: standard output, standard error, and the fault that ends it early. -/

namespace Forth.Console

structure Transcript where
  output : String := ""
  diagnostics : String := ""
  fault : Option Fault := none

namespace Transcript

/-- The later part of a run that went on. -/
def append (earlier later : Transcript) : Transcript :=
  ⟨earlier.output ++ later.output, earlier.diagnostics ++ later.diagnostics, later.fault⟩

def exitCode (transcript : Transcript) : Nat := if transcript.fault.isSome then 1 else 0

def epitaph : Option Fault → String
  | none => ""
  | some fault => "Error: " ++ fault.inspect ++ "\n"

/-- All of standard error. The fault that ends the run comes last. -/
def errorOutput (transcript : Transcript) : String :=
  transcript.diagnostics ++ epitaph transcript.fault

end Transcript

end Forth.Console

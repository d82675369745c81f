import Forth.Console.Terminal
import Forth.Proofs.Scripts

/-! The program performed on paper. A sheet of paper is a terminal whose lines are all there from the beginning
and that keeps what is written on it. Performed there, line by line, the program writes what it comes to when it
is run on its input as a whole. -/

namespace Forth.Console

/-- The lines that are still to be read, and what has been written. -/
structure Paper where
  input : List (Except Fault String)
  output : String := ""
  diagnostics : String := ""

namespace Paper

def print (text : String) (paper : Paper) : Paper := { paper with output := paper.output ++ text }

def complain (text : String) (paper : Paper) : Paper := { paper with diagnostics := paper.diagnostics ++ text }

/-- Takes the next line. -/
def next (paper : Paper) : Option (Except Fault String) × Paper :=
  (paper.input.head?, { paper with input := paper.input.tail })

end Paper

/-- Paper as a terminal, with the given files. -/
def Terminal.paper (files : String → Option ByteArray) : Terminal (StateM Paper) where
  print text := modify (Paper.print text)
  complain text := modify (Paper.complain text)
  nextLine := modifyGet Paper.next
  contents path := return files path

/-- How a performance that is begun on a sheet shows a transcript, or that there is none: it is given up, or it
ends with the fault of the transcript and has written what the transcript says. -/
inductive Presents (paper : Paper) : Option Transcript → Outcome × Paper → Prop where
  | givenUp (left : Paper) : Presents paper none (.givenUp, left)
  | ended (transcript : Transcript) (rest : List (Except Fault String)) :
      Presents paper (some transcript)
        (.ended transcript.fault,
          ⟨rest, paper.output ++ transcript.output, paper.diagnostics ++ transcript.diagnostics⟩)

namespace Presents

variable {paper : Paper} {shown : Option Transcript} {result : Outcome × Paper}

theorem printed (paper : Paper) (text : String) (fault : Option Fault) (rest : List (Except Fault String)) :
    Presents paper (some ⟨text, "", fault⟩) (.ended fault, ⟨rest, paper.output ++ text, paper.diagnostics⟩) := by
  have ended := @Presents.ended paper ⟨text, "", fault⟩ rest
  rwa [String.append_empty] at ended

/-- What is said first stands in front of the transcript. -/
theorem after {lines : List (Except Fault String)} {said : Transcript}
    (presents : Presents ⟨lines, paper.output ++ said.output, paper.diagnostics ++ said.diagnostics⟩ shown result) :
    Presents paper (shown.map said.append) result := by
  cases presents with
  | givenUp left => exact .givenUp left
  | ended transcript rest =>
      simp only [String.append_assoc]
      exact .ended (said.append transcript) rest

theorem after_print {text : String} (presents : Presents (paper.print text) shown result) :
    Presents paper (shown.map (Transcript.append ⟨text, "", none⟩)) result := by
  apply @after paper shown result paper.input
  rw [String.append_empty]
  exact presents

end Presents

namespace Terminal

variable (files : String → Option ByteArray)

section Actions

variable {α : Type} (paper : Paper)

theorem run_print (text : String) (later : Unit → StateM Paper α) :
    ((Terminal.paper files).print text >>= later).run paper = (later ()).run (paper.print text) := rfl

theorem run_complain (text : String) (later : Unit → StateM Paper α) :
    ((Terminal.paper files).complain text >>= later).run paper = (later ()).run (paper.complain text) := rfl

theorem run_nextLine (later : Option (Except Fault String) → StateM Paper α) :
    ((Terminal.paper files).nextLine >>= later).run paper =
      (later paper.input.head?).run { paper with input := paper.input.tail } := rfl

theorem run_contents (path : String) (later : Option ByteArray → StateM Paper α) :
    ((Terminal.paper files).contents path >>= later).run paper = (later (files path)).run paper := rfl

end Actions

theorem run_present (shown : Option Transcript) (paper : Paper) :
    Presents paper shown (((Terminal.paper files).present shown).run paper) := by
  cases shown with
  | none => exact .givenUp paper
  | some transcript =>
      rw [present, run_print, run_complain]
      exact .ended transcript paper.input

variable (fuel : Nat)

/-- Line by line: if it may ask for one line more than there are, then it comes to the end of the dialogue. -/
theorem run_converse (quiet : Bool) {lines : Nat} (paper : Paper) (enough : paper.input.length < lines)
    (interpreter : Interpreter) :
    Presents paper (Console.converse fuel quiet interpreter paper.input)
      (((Terminal.paper files).converse fuel quiet lines interpreter).run paper) := by
  induction lines generalizing paper interpreter with
  | zero => exact absurd enough (Nat.not_lt_zero _)
  | succ lines ih =>
      obtain ⟨input, output, diagnostics⟩ := paper
      rw [Terminal.converse, run_print, run_nextLine]
      cases input with
      | nil => exact .printed ⟨[], output, diagnostics⟩ (promptFor interpreter.mode) none []
      | cons first rest =>
          cases first with
          | error fault =>
              exact .printed ⟨.error fault :: rest, output, diagnostics⟩ (promptFor interpreter.mode) (some fault) rest
          | ok line =>
              simp only [Console.converse, Paper.print, List.head?_cons, List.tail_cons]
              cases Exchange.answer fuel quiet interpreter line with
              | none => exact .givenUp _
              | some exchange =>
                  simp only [run_print, run_complain, Paper.print, Paper.complain, String.append_assoc]
                  cases exchange.leaving with
                  | true =>
                      exact .ended ⟨promptFor interpreter.mode ++ exchange.output, exchange.diagnostics, none⟩ rest
                  | false =>
                      simp only [Bool.false_eq_true, if_false]
                      exact (ih _ (Nat.lt_of_succ_lt_succ enough) exchange.interpreter).after

section Program

variable {lines : Nat} (options : Options) {input : ByteArray} (paper : Paper)
variable (whole : paper.input = inputLines input) (enough : paper.input.length < lines)
include whole enough

theorem run_carryOn (interpreter : Interpreter) :
    Presents paper (Console.carryOn fuel options (options.script.bind files) input interpreter)
      (((Terminal.paper files).carryOn fuel lines options interpreter).run paper) := by
  unfold Terminal.carryOn Console.carryOn
  cases options.script with
  | some path =>
      simp only [run_contents]
      exact run_present files (Script.run fuel interpreter ⟨path, files path⟩) paper
  | none =>
      cases options.evaluations with
      | nil =>
          simp only [run_print, prompt, ← whole]
          apply Presents.after_print
          exact run_converse files fuel options.quiet (paper.print _) enough interpreter
      | cons line rest =>
          have ended := Presents.printed paper "" none paper.input
          rwa [String.append_empty] at ended

theorem run_act :
    Presents paper (Console.run fuel options (options.script.bind files) input)
      (((Terminal.paper files).act fuel lines options).run paper) := by
  unfold act Console.run
  cases evaluate fuel options.interpreter options.evaluations with
  | none => exact .givenUp paper
  | some reply =>
      simp only [run_print]
      cases reply.fault with
      | some fault => exact .printed paper reply.printed (some fault) paper.input
      | none =>
          apply Presents.after_print
          exact run_carryOn files fuel options (paper.print reply.printed) whole enough reply.interpreter

end Program

end Terminal

/-- Performed on paper, with leave to ask for one line more than there are, the program ends as it ends when it is
run on its input as a whole: it is given up where that has no transcript, and otherwise it comes to the same exit code
and has written the same. -/
theorem performance_shows_the_run (fuel : Nat) {lines : Nat} (options : Options) (files : String → Option ByteArray)
    (input : ByteArray) (enough : (inputLines input).length < lines) :
    let (code, paper) := ((Terminal.paper files).perform fuel lines options).run { input := inputLines input }
    match run fuel options (options.script.bind files) input with
    | none => code = 3
    | some transcript =>
        code = transcript.exitCode ∧ paper.output = transcript.output ∧ paper.diagnostics = transcript.errorOutput := by
  have presents := Terminal.run_act files fuel options { input := inputLines input } rfl enough
  have performs : ((Terminal.paper files).perform fuel lines options).run { input := inputLines input } =
      let acted := ((Terminal.paper files).act fuel lines options).run { input := inputLines input }
      (acted.1.exitCode, acted.2.complain acted.1.epitaph) := rfl
  rw [performs]
  generalize ((Terminal.paper files).act fuel lines options).run { input := inputLines input } = acted at presents ⊢
  generalize run fuel options (options.script.bind files) input = shown at presents ⊢
  cases presents with
  | givenUp left => rfl
  | ended transcript rest =>
      refine ⟨rfl, ?_, ?_⟩
      · exact String.empty_append
      · simp only [Paper.complain, String.empty_append, Outcome.epitaph, Transcript.errorOutput]

end Forth.Console

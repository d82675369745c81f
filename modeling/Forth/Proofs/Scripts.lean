import Forth.Console.Program
import Forth.Proofs.Commands
import Forth.Proofs.Lines

/-! A script is run line by line, but its lines do not matter: the tokens are executed as if the whole text
had been given at once, and only the complaint about a token that fails tells the line it is on. -/

namespace Forth

namespace Interpreter

/-- The earlier tokens are executed without a fault, and after them the token fails. -/
def FailsAt (fuel : Nat) (interpreter : Interpreter) (earlier : List Token) (token : Token) (fault : Fault) : Prop :=
  ∃ started failed, interpreter.executeAll fuel earlier = some started ∧ started.fault = none ∧
    started.interpreter.execute fuel token = some failed ∧ failed.fault = some fault

variable {fuel : Nat} {interpreter : Interpreter} {fault : Fault}

theorem executeAll_append_ok {front back : List Token} {first : Reply}
    (executed : interpreter.executeAll fuel front = some first) (succeeded : first.fault = none) :
    interpreter.executeAll fuel (front ++ back) =
      (first.interpreter.executeAll fuel back).map (Reply.after first.printed) := by
  rw [executeAll_append, executed, Option.bind_some, Reply.andThen_ok succeeded]

/-- Tokens that are executed before only put the failure off. -/
theorem FailsAt.after {front earlier : List Token} {token : Token} {first : Reply}
    (executed : interpreter.executeAll fuel front = some first) (succeeded : first.fault = none)
    (fails : first.interpreter.FailsAt fuel earlier token fault) :
    interpreter.FailsAt fuel (front ++ earlier) token fault := by
  obtain ⟨started, failed, isStarted, fine, isFailed, isFault⟩ := fails
  refine ⟨started.after first.printed, failed, ?_, fine, isFailed, isFault⟩
  rw [executeAll_append_ok executed succeeded, isStarted, Option.map_some]

/-- If tokens fail, then one of them does. -/
theorem exists_failsAt {tokens : List Token} {reply : Reply}
    (replied : interpreter.executeAll fuel tokens = some reply) (failed : reply.fault = some fault) :
    ∃ earlier token later, tokens = earlier ++ token :: later ∧ interpreter.FailsAt fuel earlier token fault := by
  induction tokens generalizing interpreter reply with
  | nil =>
      cases replied
      cases failed
  | cons token rest ih =>
      obtain ⟨first, executed, ⟨_, rfl⟩ | ⟨succeeded, second, executedRest, rfl⟩⟩ := executeAll_cons_cases replied
      · exact ⟨[], token, rest, rfl, { interpreter }, reply, rfl, rfl, executed, failed⟩
      · obtain ⟨earlier, last, later, rfl, fails⟩ := ih executedRest failed
        have alone : interpreter.executeAll fuel [token] = some first := by rw [executeAll_singleton, executed]
        exact ⟨token :: earlier, last, later, rfl, fails.after alone succeeded⟩

end Interpreter

namespace Console

/-- How the lines of a script show what its tokens come to. The complaint names the line of the token that
fails. -/
inductive Shows (fuel : Nat) (path : String) (number : Nat) (interpreter : Interpreter) (lines : List String) :
    Option Reply → Option Transcript → Prop where
  | unfinished : Shows fuel path number interpreter lines none none
  | fine (reply : Reply) (succeeded : reply.fault = none) :
      Shows fuel path number interpreter lines (some reply) (some ⟨reply.printed, "", none⟩)
  | failed (reply : Reply) {fault : Fault} (isFault : reply.fault = some fault) (before after : List String)
      (line : String) {earlier later : List Token} {token : Token} (cut : lines = before ++ line :: after)
      (inLine : Token.ofLine line = earlier ++ token :: later)
      (fails : interpreter.FailsAt fuel (before.flatMap Token.ofLine ++ earlier) token fault) :
      Shows fuel path number interpreter lines (some reply)
        (some ⟨reply.printed, Script.complaint path (number + before.length) fault, some fault⟩)

namespace Shows

variable {fuel : Nat} {path : String} {number : Nat} {interpreter : Interpreter}

/-- A line that succeeds is put in front. -/
theorem cons {line : String} {rest : List String} {first : Reply} {replied : Option Reply} {shown : Option Transcript}
    (executed : interpreter.executeLine fuel line = some first) (succeeded : first.fault = none)
    (shows : Shows fuel path (number + 1) first.interpreter rest replied shown) :
    Shows fuel path number interpreter (line :: rest) (replied.map (Reply.after first.printed))
      (shown.map (Transcript.append ⟨first.printed, "", none⟩)) := by
  cases shows with
  | unfinished => exact .unfinished
  | fine reply fine => exact .fine (reply.after first.printed) fine
  | failed reply isFault before after last cut inLine fails =>
      have later := fails.after executed succeeded
      rw [← List.append_assoc, ← List.flatMap_cons] at later
      have put : Shows fuel path number interpreter (line :: rest) (some (reply.after first.printed)) _ :=
        .failed (reply.after first.printed) isFault (line :: before) after last (congrArg (line :: ·) cut) inLine later
      rw [List.length_cons, ← Nat.add_assoc, Nat.add_right_comm] at put
      rw [Option.map_some, Option.map_some, Transcript.append, String.empty_append]
      exact put

end Shows

theorem shows_runLines (fuel : Nat) (path : String) (lines : List String) (number : Nat) (interpreter : Interpreter) :
    Shows fuel path number interpreter lines (interpreter.executeAll fuel (lines.flatMap Token.ofLine))
      (Script.runLines fuel path number interpreter lines) := by
  induction lines generalizing number interpreter with
  | nil => exact .fine { interpreter } rfl
  | cons line rest ih =>
      rw [List.flatMap_cons, Script.runLines, Interpreter.executeLine]
      cases executed : interpreter.executeAll fuel (Token.ofLine line) with
      | none =>
          rw [Interpreter.executeAll_append, executed]
          exact .unfinished
      | some first =>
          cases outcome : first.fault with
          | none =>
              rw [Interpreter.executeAll_append_ok executed outcome]
              simp only [outcome]
              exact (ih (number + 1) first.interpreter).cons executed outcome
          | some fault =>
              obtain ⟨earlier, token, later, inLine, fails⟩ := Interpreter.exists_failsAt executed outcome
              rw [Interpreter.executeAll_append, executed, Option.bind_some, Reply.andThen_fault outcome]
              simp only [outcome]
              -- No line was run before this one, so the complaint has the number that this one was given.
              exact .failed first outcome [] rest line rfl inLine fails

theorem fromUTF8?_toUTF8 (text : String) : String.fromUTF8? text.toUTF8 = some text := dif_pos text.isValidUTF8

theorem decode_toUTF8 (text : String) : decode text.toUTF8 = .ok text := by
  rw [decode, fromUTF8?_toUTF8]

theorem Transcript.append_nothing (transcript : Transcript) : append ⟨"", "", none⟩ transcript = transcript := by
  rw [append, String.empty_append, String.empty_append]

/-- Nothing but the lines of the script is run if no line is given for evaluation. -/
theorem run_script (fuel : Nat) (options : Options) (path text : String) (input : ByteArray) :
    run fuel { options with evaluations := [], script := some path } (some text.toUTF8) input =
      Script.runLines fuel path 1 options.interpreter (Text.lines text) := by
  have shown : Script.run fuel options.interpreter ⟨path, some text.toUTF8⟩ =
      Script.runLines fuel path 1 options.interpreter (Text.lines text) := by
    simp only [Script.run, Script.text, decode_toUTF8]
  rw [← shown]
  change (Script.run fuel options.interpreter ⟨path, some text.toUTF8⟩).map (Transcript.append ⟨"", "", none⟩) = _
  simp only [funext Transcript.append_nothing, Option.map_id']

/-- A single line given for evaluation is all that is run. -/
theorem run_evaluation (fuel : Nat) (options : Options) (text : String) (input : ByteArray) :
    run fuel { options with evaluations := [text], script := none } none input =
      (options.interpreter.executeAll fuel (Token.ofLine text)).map fun reply => ⟨reply.printed, "", reply.fault⟩ := by
  have same : Options.interpreter { options with evaluations := [text], script := none } = options.interpreter := rfl
  rw [run, same, evaluate, Interpreter.executeLine]
  cases options.interpreter.executeAll fuel (Token.ofLine text) with
  | none => rfl
  | some reply =>
      obtain ⟨interpreter, printed, fault⟩ := reply
      cases fault with
      | some fault => rfl
      | none => simp only [evaluate, Option.map_some, Reply.after, carryOn, Transcript.append, String.append_empty]

/-- For every text, running it as a script and giving it as one line for evaluation come to what its tokens
come to. They print the same and end with the same code. If a token fails, then the script first complains
about the line of that token, which is one more than there are line feeds before it, and both end with the
same account of the fault. -/
theorem lines_do_not_matter (fuel : Nat) (options : Options) (path text : String) (input : ByteArray) :
    let tokens := Token.ofLine text
    let script := run fuel { options with evaluations := [], script := some path } (some text.toUTF8) input
    let line := run fuel { options with evaluations := [text], script := none } none input
    match options.interpreter.executeAll fuel tokens with
    | none => script = none ∧ line = none
    | some reply =>
        ∃ asScript asLine, script = some asScript ∧ line = some asLine ∧
          asScript.output = reply.printed ∧ asLine.output = reply.printed ∧
          match reply.fault with
          | none =>
              asScript.exitCode = 0 ∧ asLine.exitCode = 0 ∧ asScript.errorOutput = "" ∧ asLine.errorOutput = ""
          | some fault =>
              asScript.exitCode = 1 ∧ asLine.exitCode = 1 ∧ asLine.errorOutput = "Error: " ++ fault.inspect ++ "\n" ∧
              ∃ front token back : String, text = front ++ token ++ back ∧
                tokens = Token.ofLine front ++ token :: Token.ofLine back ∧
                options.interpreter.FailsAt fuel (Token.ofLine front) token fault ∧
                asScript.errorOutput = path ++ ":" ++ toString (1 + front.toList.count '\n') ++ ": " ++
                  fault.message ++ "\n" ++ asLine.errorOutput := by
  intro tokens script line
  have isTokens : (Text.lines text).flatMap Token.ofLine = tokens := Text.flatMap_lines text
  have isLine : line = _ := run_evaluation fuel options text input
  have isScript : script = _ := run_script fuel options path text input
  have shows := shows_runLines fuel path (Text.lines text) 1 options.interpreter
  rw [isTokens, ← isScript] at shows
  -- From here on only the relation between the two results matters, not how they came about.
  generalize script = shown at shows
  generalize options.interpreter.executeAll fuel tokens = replied at shows isLine
  cases shows with
  | unfinished => exact ⟨rfl, isLine⟩
  | fine reply succeeded =>
      refine ⟨_, _, rfl, isLine, rfl, rfl, ?_⟩
      simp only [succeeded]
      exact ⟨rfl, rfl, String.append_empty, String.append_empty⟩
  | @failed reply fault isFault before after found earlier later token cut inLine fails =>
      obtain ⟨front, back, whole, split, feeds, isEarlier⟩ := Text.exists_place cut inLine
      have failsThere : options.interpreter.FailsAt fuel (Token.ofLine front) token fault := by
        rw [Token.ofLine, isEarlier]
        exact fails
      refine ⟨_, _, rfl, isLine, rfl, rfl, ?_⟩
      simp only [isFault]
      refine ⟨rfl, rfl, String.empty_append, front, token, back, whole, split, failsThere, ?_⟩
      simp only [Transcript.errorOutput, Script.complaint, feeds, String.empty_append]

end Console

end Forth

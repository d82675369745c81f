import Forth.Proofs.Enumeration
import Forth.Proofs.Scripts

/-! Talking to the prompt. A dialogue is what is said line by line, whoever listens: what each line prints, what it
complains of and what becomes of the interpreter. A prompt that is told to be quiet and one that is not hold the
same dialogue; the one adds nothing to it, the other a banner in front and an acknowledgement to each command that
succeeds. No fault of a command ends it. -/

namespace Forth.Console

/-- One line and the answer to it, apart from an acknowledgement. -/
structure Round where
  before : Interpreter
  output : String := ""
  complaint : String := ""
  /-- The line was a command and succeeded. -/
  succeeded : Bool := false
  leaving : Bool := false
  after : Interpreter

/-- How a line is answered. Commands are given all the steps that they need. -/
inductive Answered (complete : Completion) (interpreter : Interpreter) (line : String) : Round → Prop where
  | leave (asks : Request.ofLine line = .leave) :
      Answered complete interpreter line
        { before := interpreter, output := "Bye for now!\n", leaving := true, after := interpreter }
  | help (asks : Request.ofLine line = .help) :
      Answered complete interpreter line { before := interpreter, output := helpText, after := interpreter }
  | listWords (asks : Request.ofLine line = .listWords) :
      Answered complete interpreter line
        { before := interpreter, output := interpreter.dictionary.listing, after := interpreter }
  | showStack (asks : Request.ofLine line = .showStack) :
      Answered complete interpreter line
        { before := interpreter, output := stackLine interpreter.stack, after := interpreter }
  | success {command : String} {reply : Reply} (asks : Request.ofLine line = .execute command)
      (settles : Settles (fun fuel => interpreter.executeLine fuel command complete) reply)
      (fine : reply.fault = none) :
      Answered complete interpreter line
        { before := interpreter, output := reply.printed, succeeded := true, after := reply.interpreter }
  | failure {command : String} {reply : Reply} {fault : Fault} (asks : Request.ofLine line = .execute command)
      (settles : Settles (fun fuel => interpreter.executeLine fuel command complete) reply)
      (failed : reply.fault = some fault) :
      Answered complete interpreter line
        { before := interpreter, output := reply.printed, complaint := report fault, after := reply.interpreter }

/-- The rounds of a dialogue, up to the line that asks to leave or the end of the lines. -/
inductive Dialogue (complete : Completion) : Interpreter → List String → List Round → Prop where
  | ended (interpreter : Interpreter) : Dialogue complete interpreter [] []
  | left {interpreter : Interpreter} {line : String} {round : Round}
      (answered : Answered complete interpreter line round) (leaves : round.leaving = true) (rest : List String) :
      Dialogue complete interpreter (line :: rest) [round]
  | next {interpreter : Interpreter} {line : String} {rest : List String} {round : Round} {rounds : List Round}
      (answered : Answered complete interpreter line round) (stays : round.leaving = false)
      (dialogue : Dialogue complete round.after rest rounds) :
      Dialogue complete interpreter (line :: rest) (round :: rounds)

/-- The commands that are executed in the course of a dialogue, each with the interpreter it is given to. -/
inductive Executes (complete : Completion) : Interpreter → List String → Interpreter → String → Prop where
  | now {interpreter : Interpreter} {line command : String} (asks : Request.ofLine line = .execute command)
      (rest : List String) : Executes complete interpreter (line :: rest) interpreter command
  | later {interpreter current : Interpreter} {line command : String} {rest : List String} {round : Round}
      (answered : Answered complete interpreter line round) (stays : round.leaving = false)
      (executes : Executes complete round.after rest current command) :
      Executes complete interpreter (line :: rest) current command

/-- The answer to a line and, unless it is a farewell, the answers after it. -/
def Exchange.followedBy (exchange : Exchange) (others : Interpreter → Option (List Exchange)) :
    Option (List Exchange) :=
  if exchange.leaving then some [exchange] else (others exchange.interpreter).map (exchange :: ·)

/-- What the prompt answers to each line. -/
def exchanges (fuel : Nat) (quiet : Bool) (interpreter : Interpreter) (lines : List String)
    (complete : Completion) : Option (List Exchange) :=
  match lines with
  | [] => some []
  | line :: rest =>
      (Exchange.answer fuel quiet interpreter line complete).bind fun exchange =>
        exchange.followedBy fun next => exchanges fuel quiet next rest complete

namespace Exchange

variable {exchange : Exchange}

theorem followedBy_leaving (leaves : exchange.leaving = true) (others : Interpreter → Option (List Exchange)) :
    exchange.followedBy others = some [exchange] := if_pos leaves

theorem followedBy_staying (stays : exchange.leaving = false) (others : Interpreter → Option (List Exchange)) :
    exchange.followedBy others = (others exchange.interpreter).map (exchange :: ·) := by
  rw [followedBy, stays]
  rfl

theorem steady_followedBy (exchange : Exchange) {others : Interpreter → Nat → Option (List Exchange)}
    (steady : ∀ next, Steady (others next)) :
    Steady fun fuel => exchange.followedBy fun next => others next fuel := by
  cases leaves : exchange.leaving with
  | true =>
      simp only [followedBy_leaving leaves]
      exact steady_const _
  | false =>
      simp only [followedBy_staying leaves]
      exact (steady exchange.interpreter).map _

end Exchange

/-- The answers on paper. There is a prompt before each, and one more unless the last was a farewell. -/
def Transcript.ofExchanges : Interpreter → List Exchange → Transcript
  | interpreter, [] => { output := promptFor interpreter.mode }
  | interpreter, exchange :: rest =>
      let said : Transcript := ⟨promptFor interpreter.mode ++ exchange.output, exchange.diagnostics, none⟩
      if exchange.leaving then said else said.append (ofExchanges exchange.interpreter rest)

/-- What is shown on paper is read off the answers. -/
theorem converse_eq_exchanges (complete : Completion) (fuel : Nat) (quiet : Bool) (interpreter : Interpreter)
    (lines : List String) :
    converse fuel quiet interpreter (lines.map .ok) complete =
      (exchanges fuel quiet interpreter lines complete).map (Transcript.ofExchanges interpreter) := by
  induction lines generalizing interpreter with
  | nil => rfl
  | cons line rest ih =>
      rw [List.map_cons, converse, exchanges]
      cases Exchange.answer fuel quiet interpreter line complete with
      | none => rfl
      | some exchange =>
          simp only [Option.bind_some, ih]
          cases leaves : exchange.leaving with
          | true =>
              rw [Exchange.followedBy_leaving leaves, Option.map_some, Transcript.ofExchanges, leaves]
              rfl
          | false =>
              rw [Exchange.followedBy_staying leaves, Option.map_map, if_neg Bool.false_ne_true, Option.map_map]
              congr 1
              funext others
              simp only [Function.comp, Transcript.ofExchanges, leaves, Bool.false_eq_true, if_false]

theorem steady_answer (complete : Completion) (quiet : Bool) (interpreter : Interpreter) (line : String) :
    Steady fun fuel => Exchange.answer fuel quiet interpreter line complete := by
  unfold Exchange.answer
  cases Request.ofLine line with
  | execute command => exact (Interpreter.steady_executeAll interpreter (Token.ofLine command) complete).map _
  | leave => exact steady_const _
  | help => exact steady_const _
  | listWords => exact steady_const _
  | showStack => exact steady_const _

theorem steady_exchanges (complete : Completion) (quiet : Bool) (interpreter : Interpreter) (lines : List String) :
    Steady fun fuel => exchanges fuel quiet interpreter lines complete := by
  induction lines generalizing interpreter with
  | nil => exact steady_const _
  | cons line rest ih =>
      simp only [exchanges]
      exact (steady_answer complete quiet interpreter line).bind fun exchange => exchange.steady_followedBy ih

theorem settles_exchanges_cons (complete : Completion) (quiet : Bool) (interpreter : Interpreter) (line : String)
    (rest : List String) (all : List Exchange) :
    Settles (fun fuel => exchanges fuel quiet interpreter (line :: rest) complete) all ↔
      ∃ exchange, Settles (fun fuel => Exchange.answer fuel quiet interpreter line complete) exchange ∧
        Settles (fun fuel => exchange.followedBy fun next => exchanges fuel quiet next rest complete) all :=
  settles_bind (steady_answer complete quiet interpreter line)
    (fun exchange => exchange.steady_followedBy fun next => steady_exchanges complete quiet next rest) all

namespace Round

/-- What follows the output of a line. -/
def acknowledgement (quiet : Bool) (round : Round) : String :=
  if round.succeeded then Console.acknowledgement quiet else ""

def exchange (quiet : Bool) (round : Round) : Exchange where
  interpreter := round.after
  output := round.output ++ round.acknowledgement quiet
  diagnostics := round.complaint
  leaving := round.leaving

theorem exchange_unacknowledged {round : Round} (unacknowledged : round.succeeded = false) (quiet : Bool) :
    round.exchange quiet = ⟨round.after, round.output, round.complaint, round.leaving⟩ := by
  simp only [exchange, acknowledgement, unacknowledged, Bool.false_eq_true, if_false, String.append_empty]

end Round

section Lines

variable {complete : Completion} {interpreter : Interpreter} {line : String} {round : Round} {lines : List String}
variable {rounds : List Round}

/-- One line: whether or not it is quiet, the prompt gives the same answer apart from the acknowledgement. -/
theorem Answered.settles (answered : Answered complete interpreter line round) (quiet : Bool) :
    Settles (fun fuel => Exchange.answer fuel quiet interpreter line complete) (round.exchange quiet) := by
  cases answered with
  | leave asks => exact ⟨0, by simp only [Exchange.answer, asks, Round.exchange_unacknowledged]⟩
  | help asks => exact ⟨0, by simp only [Exchange.answer, asks, Round.exchange_unacknowledged]⟩
  | listWords asks => exact ⟨0, by simp only [Exchange.answer, asks, Round.exchange_unacknowledged]⟩
  | showStack asks => exact ⟨0, by simp only [Exchange.answer, asks, Round.exchange_unacknowledged]⟩
  | success asks settles fine =>
      simp only [Exchange.answer, asks, settles_map]
      refine ⟨_, settles, ?_⟩
      simp only [Exchange.ofReply, fine]
      rfl
  | failure asks settles failed =>
      simp only [Exchange.answer, asks, settles_map]
      refine ⟨_, settles, ?_⟩
      simp only [Exchange.ofReply, failed, Round.exchange_unacknowledged]

/-- Whole dialogues. -/
theorem Dialogue.settles (dialogue : Dialogue complete interpreter lines rounds) (quiet : Bool) :
    Settles (fun fuel => exchanges fuel quiet interpreter lines complete) (rounds.map (Round.exchange quiet)) := by
  induction dialogue with
  | ended interpreter => exact ⟨0, rfl⟩
  | @left interpreter line round answered leaves rest =>
      have farewell : (round.exchange quiet).leaving = true := leaves
      refine (settles_exchanges_cons ..).mpr ⟨_, answered.settles quiet, ?_⟩
      simp only [Exchange.followedBy_leaving farewell]
      exact ⟨0, rfl⟩
  | @next interpreter line rest round rounds answered stays _ ih =>
      have goesOn : (round.exchange quiet).leaving = false := stays
      refine (settles_exchanges_cons ..).mpr ⟨_, answered.settles quiet, ?_⟩
      simp only [Exchange.followedBy_staying goesOn, settles_map]
      exact ⟨_, ih, rfl⟩

theorem Answered.before_eq (answered : Answered complete interpreter line round) : round.before = interpreter := by
  cases answered <;> rfl

/-- The prompt that the last round leaves behind. There is none after a farewell. -/
def closing : Interpreter → List Round → String
  | interpreter, [] => promptFor interpreter.mode
  | _, round :: rounds => if round.leaving then "" else closing round.after rounds

/-- A dialogue on paper: before each output stands the prompt for the interpreter as it was, and behind it the
acknowledgement. -/
theorem Dialogue.paper (dialogue : Dialogue complete interpreter lines rounds) (quiet : Bool) :
    Transcript.ofExchanges interpreter (rounds.map (Round.exchange quiet)) =
      ⟨String.join (rounds.map fun round => promptFor round.before.mode ++ round.output ++
          round.acknowledgement quiet) ++ closing interpreter rounds,
        String.join (rounds.map Round.complaint), none⟩ := by
  induction dialogue with
  | ended interpreter => rfl
  | @left interpreter line round answered leaves rest =>
      simp only [List.map_cons, List.map_nil, Transcript.ofExchanges, Round.exchange, leaves, if_true, closing,
        answered.before_eq, String.join_cons, String.join_nil, String.append_empty, String.append_assoc]
  | @next interpreter line rest round rounds answered stays _ ih =>
      simp only [List.map_cons, Transcript.ofExchanges, Round.exchange, stays, Bool.false_eq_true, if_false, ih,
        Transcript.append, closing, answered.before_eq, String.join_cons, String.append_assoc]

/-- A line can be answered if the command on it, where it is one, comes to an end. -/
theorem exists_answered (halts : ∀ command, Request.ofLine line = .execute command →
      ∃ reply, Settles (fun fuel => interpreter.executeLine fuel command complete) reply) :
    ∃ round, Answered complete interpreter line round := by
  cases asks : Request.ofLine line with
  | leave => exact ⟨_, .leave asks⟩
  | help => exact ⟨_, .help asks⟩
  | listWords => exact ⟨_, .listWords asks⟩
  | showStack => exact ⟨_, .showStack asks⟩
  | execute command =>
      obtain ⟨reply, settles⟩ := halts command asks
      cases outcome : reply.fault with
      | none => exact ⟨_, .success asks settles outcome⟩
      | some fault => exact ⟨_, .failure asks settles outcome⟩

/-- There is a dialogue if all commands that are executed come to an end. -/
theorem exists_dialogue (halts : ∀ current command, Executes complete interpreter lines current command →
      ∃ reply, Settles (fun fuel => current.executeLine fuel command complete) reply) :
    ∃ rounds, Dialogue complete interpreter lines rounds := by
  induction lines generalizing interpreter with
  | nil => exact ⟨[], .ended interpreter⟩
  | cons line rest ih =>
      obtain ⟨round, answered⟩ := exists_answered fun command asks => halts interpreter command (.now asks rest)
      cases leaves : round.leaving with
      | true => exact ⟨[round], .left answered leaves rest⟩
      | false =>
          obtain ⟨rounds, dialogue⟩ := ih fun current command executes =>
            halts current command (.later answered leaves executes)
          exact ⟨round :: rounds, .next answered leaves dialogue⟩

/-- If the prompt comes to the end of its lines, then so do the commands that are executed on the way. -/
theorem Executes.halts {quiet : Bool} {current : Interpreter} {command : String}
    (executes : Executes complete interpreter lines current command) {all : List Exchange}
    (settles : Settles (fun fuel => exchanges fuel quiet interpreter lines complete) all) :
    ∃ reply, Settles (fun fuel => current.executeLine fuel command complete) reply := by
  induction executes generalizing all with
  | now asks rest =>
      obtain ⟨exchange, answer, _⟩ := (settles_exchanges_cons ..).mp settles
      simp only [Exchange.answer, asks, settles_map] at answer
      obtain ⟨reply, replied, _⟩ := answer
      exact ⟨reply, replied⟩
  | @later interpreter current line command rest round answered stays _ ih =>
      obtain ⟨exchange, answer, others⟩ := (settles_exchanges_cons ..).mp settles
      have same := (steady_answer complete quiet interpreter line).unique answer (answered.settles quiet)
      subst same
      have goesOn : (round.exchange quiet).leaving = false := stays
      simp only [Exchange.followedBy_staying goesOn, settles_map] at others
      obtain ⟨later, settlesLater, _⟩ := others
      exact ih settlesLater

end Lines

/-- Without lines to evaluate and without a script, the program is the prompt. -/
theorem run_prompt (complete : Completion) (fuel : Nat) (quiet : Bool) (options : Options)
    (contents : Option ByteArray) (text : String) :
    run fuel { options with evaluations := [], script := none, quiet } contents text.toUTF8 complete =
      (exchanges fuel quiet options.interpreter (Text.lines text) complete).map fun all =>
        Transcript.append ⟨greeting quiet, "", none⟩ (Transcript.ofExchanges options.interpreter all) := by
  have isText : inputLines text.toUTF8 = (Text.lines text).map .ok := by
    rw [inputLines, fromUTF8?_toUTF8]
  change (prompt fuel quiet options.interpreter (inputLines text.toUTF8) complete).map
    (Transcript.append ⟨"", "", none⟩) = _
  simp only [funext Transcript.append_nothing, prompt, isText, converse_eq_exchanges, Option.map_map]
  rfl

/-- Any text is typed to the prompt, and the commands in it that are executed come to an end. Quiet or not, the
program ends well, complains of the same and takes the interpreter through the same states line by line. What it
shows is, quiet, the prompts and what the lines print, and otherwise the banner and the same again with an `ok`
behind what each command printed that succeeded. All this is so in whatever order sessions go through what they have
left, if it is the same for both. -/
theorem quiet_leaves_out_only_acknowledgements (order : Session.Order) (options : Options)
    (contents : Option ByteArray) (text : String)
    (halts : ∀ current command, Executes order.complete options.interpreter (Text.lines text) current command →
      ∃ reply, Settles (fun fuel => current.executeLine fuel command order.complete) reply) :
    let prompting (quiet : Bool) (fuel : Nat) :=
      run fuel { options with evaluations := [], script := none, quiet } contents text.toUTF8 order.complete
    ∃ rounds silent talkative, Dialogue order.complete options.interpreter (Text.lines text) rounds ∧
      Settles (prompting true) silent ∧ Settles (prompting false) talkative ∧
      silent.exitCode = 0 ∧ talkative.exitCode = 0 ∧
      silent.errorOutput = String.join (rounds.map Round.complaint) ∧ talkative.errorOutput = silent.errorOutput ∧
      (∀ quiet, Settles (fun fuel => (exchanges fuel quiet options.interpreter (Text.lines text) order.complete).map
        (List.map Exchange.interpreter)) (rounds.map Round.after)) ∧
      silent.output = String.join (rounds.map fun round => promptFor round.before.mode ++ round.output) ++
        closing options.interpreter rounds ∧
      talkative.output = banner ++ (String.join (rounds.map fun round => promptFor round.before.mode ++ round.output ++
        if round.succeeded then "ok\n" else "") ++ closing options.interpreter rounds) := by
  intro prompting
  obtain ⟨rounds, dialogue⟩ := exists_dialogue halts
  have ends (quiet : Bool) : Settles (prompting quiet) ⟨greeting quiet ++ (String.join (rounds.map fun round =>
      promptFor round.before.mode ++ round.output ++ round.acknowledgement quiet) ++
        closing options.interpreter rounds), "" ++ String.join (rounds.map Round.complaint), none⟩ := by
    simp only [prompting, run_prompt, settles_map]
    exact ⟨_, dialogue.settles quiet, by rw [dialogue.paper]; rfl⟩
  refine ⟨rounds, _, _, dialogue, ends true, ends false, rfl, rfl, ?_, rfl, ?_, ?_, rfl⟩
  · simp only [Transcript.errorOutput, Transcript.epitaph, String.empty_append, String.append_empty]
  · intro quiet
    rw [settles_map]
    refine ⟨_, dialogue.settles quiet, ?_⟩
    rw [List.map_map]
    rfl
  · have nothing (round : Round) : round.acknowledgement true = "" := by
      simp only [Round.acknowledgement, acknowledgement, if_true, ite_self]
    simp only [nothing, String.append_empty, greeting, if_true, String.empty_append]

/-- A conditional over several lines with a request in between, which fails when it is closed; a definition with two
conditionals left open, of which the last is told of first; then a farewell, and a line that is not read any more. -/
theorem quiet_leaves_out_only_acknowledgements_failing :
    let text := "7 0\nif 1 nonsense\n.s\nthen\n: w if if ;\nbye\n: never"
    let complete := Session.Order.reversed.complete
    let prompting (quiet : Bool) (fuel : Nat) :=
      run fuel { evaluations := [], script := none, quiet } none text.toUTF8 complete
    (∀ current command, Executes complete (Options.interpreter {}) (Text.lines text) current command →
      ∃ reply, Settles (fun fuel => current.executeLine fuel command complete) reply) ∧
    ∃ silent talkative, Settles (prompting true) silent ∧ Settles (prompting false) talkative ∧
      silent.exitCode = 0 ∧ talkative.exitCode = 0 ∧ talkative.errorOutput = silent.errorOutput ∧
      silent.errorOutput = "Error: Word nonsense is not defined.\n" ++
        "Definition discarded: Definition incomplete: if <if-2> is missing its then\n" ∧
      silent.output = "-> -> .. H -> [0][7] <- T\n.. -> -> Bye for now!\n" ∧
      talkative.output = banner ++ "-> ok\n-> ok\n.. H -> [0][7] <- T\n.. -> -> Bye for now!\n" := by
  intro text complete prompting
  let said (quiet : Bool) : String × String :=
    (if quiet then "-> -> .. H -> [0][7] <- T\n.. -> -> Bye for now!\n"
      else "-> ok\n-> ok\n.. H -> [0][7] <- T\n.. -> -> Bye for now!\n",
      "Error: Word nonsense is not defined.\n" ++
        "Definition discarded: Definition incomplete: if <if-2> is missing its then\n")
  have answers (quiet : Bool) : (exchanges 9 quiet (Options.interpreter {}) (Text.lines text) complete).map (fun all =>
      let paper := Transcript.ofExchanges (Options.interpreter {}) all
      (paper.output, paper.errorOutput)) = some (said quiet) := by
    cases quiet <;> decide +kernel
  have halts : ∀ current command, Executes complete (Options.interpreter {}) (Text.lines text) current command →
      ∃ reply, Settles (fun fuel => current.executeLine fuel command complete) reply := by
    intro current command executes
    obtain ⟨all, reached, _⟩ := Option.map_eq_some_iff.mp (answers true)
    exact executes.halts ⟨9, reached⟩
  -- The transcripts are those of the run with nine steps for each command, since more steps change nothing.
  have shows (quiet : Bool) (transcript : Transcript) (settles : Settles (prompting quiet) transcript) :
      transcript.output = greeting quiet ++ (said quiet).1 ∧ transcript.errorOutput = (said quiet).2 := by
    obtain ⟨all, reached, isSaid⟩ := Option.map_eq_some_iff.mp (answers quiet)
    have same : ∀ fuel, prompting quiet fuel = _ := fun fuel => run_prompt complete fuel quiet {} none text
    rw [funext same, settles_map] at settles
    obtain ⟨others, settlesOthers, rfl⟩ := settles
    cases (steady_exchanges complete quiet _ _).unique settlesOthers ⟨9, reached⟩
    rw [← isSaid]
    refine ⟨rfl, ?_⟩
    simp only [Transcript.errorOutput, Transcript.append, String.empty_append]
  obtain ⟨rounds, silent, talkative, _, ends, endsAloud, code, codeAloud, _, sameErrors, _⟩ :=
    quiet_leaves_out_only_acknowledgements .reversed {} none text halts
  exact ⟨halts, silent, talkative, ends, endsAloud, code, codeAloud, sameErrors, (shows true silent ends).2,
    (shows true silent ends).1, (shows false talkative endsAloud).1⟩

end Forth.Console

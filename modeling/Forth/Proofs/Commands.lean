import Forth.Interpreter
import Forth.Proofs.FlatCode
import Forth.Proofs.Runs

/-! Sequences of commands: more fuel keeps a reply, one list of tokens can be given after another,
and what a definition or a conditional collects can be given to its session at once. -/

namespace Forth

namespace Reply

/-- Goes on with further commands unless the reply is a fault. -/
def andThen (reply : Reply) (next : Interpreter → Option Reply) : Option Reply :=
  match reply.fault with
  | some _ => some reply
  | none => (next reply.interpreter).map (Reply.after reply.printed)

theorem andThen_fault {reply : Reply} {fault : Fault} (failed : reply.fault = some fault)
    (next : Interpreter → Option Reply) : reply.andThen next = some reply := by
  simp only [andThen, failed]

theorem andThen_ok {reply : Reply} (succeeded : reply.fault = none) (next : Interpreter → Option Reply) :
    reply.andThen next = (next reply.interpreter).map (Reply.after reply.printed) := by
  simp only [andThen, succeeded]

theorem after_empty (reply : Reply) : reply.after "" = reply := by
  simp only [after, String.empty_append]

theorem after_after (first second : String) (reply : Reply) :
    (reply.after second).after first = reply.after (first ++ second) := by
  simp only [after, String.append_assoc]

theorem andThen_quiet (interpreter : Interpreter) (next : Interpreter → Option Reply) :
    Reply.andThen { interpreter } next = next interpreter := by
  rw [andThen_ok rfl]
  cases next interpreter with
  | none => rfl
  | some reply => rw [Option.map_some, after_empty]

end Reply

namespace Session

/-- What becomes of a session that is handed a token which does not end it. A colon abandons it for a new
one. -/
def record (session : Session) (token : Token) : Session :=
  if token.mark? = some .colon then .named session.labels else session.push token

def recordAll (session : Session) (tokens : List Token) : Session := tokens.foldl record session

theorem recordAll_eq_pushAll {tokens : List Token} (noColon : ∀ token ∈ tokens, token.mark? ≠ some .colon)
    (session : Session) : session.recordAll tokens = session.pushAll tokens := by
  induction tokens generalizing session with
  | nil => rfl
  | cons token tokens ih =>
      have first : session.record token = session.push token := if_neg (noColon token (List.mem_cons_self ..))
      simp only [recordAll, pushAll, List.foldl_cons, first] at ih ⊢
      exact ih (fun other member => noColon other (List.mem_cons_of_mem token member)) (session.push token)

/-- What comes before the last colon is only seen in the labels that are left. -/
theorem recordAll_append_colon {last : List Token} (noColon : ∀ token ∈ last, token.mark? ≠ some .colon)
    (session : Session) (abandoned : List Token) :
    session.recordAll (abandoned ++ ":" :: last) = (named (session.recordAll abandoned).labels).pushAll last := by
  rw [← recordAll_eq_pushAll noColon, recordAll, List.foldl_append, List.foldl_cons]
  rfl

end Session

namespace Interpreter

theorem executeAll_cons (fuel : Nat) (interpreter : Interpreter) (token : Token) (rest : List Token)
    {complete : Completion} :
    interpreter.executeAll fuel (token :: rest) complete =
      (interpreter.execute fuel token complete).bind fun reply =>
        reply.andThen fun next => next.executeAll fuel rest complete := by
  rw [executeAll]
  cases interpreter.execute fuel token complete with
  | none => rfl
  | some reply => rfl

/-- What tokens come to is what the first comes to, if that is a fault, and otherwise what the others do. -/
theorem executeAll_cons_cases {fuel : Nat} {interpreter : Interpreter} {token : Token} {rest : List Token}
    {reply : Reply} (replied : interpreter.executeAll fuel (token :: rest) = some reply) :
    ∃ first, interpreter.execute fuel token = some first ∧
      ((∃ fault, first.fault = some fault) ∧ reply = first ∨
        first.fault = none ∧ ∃ second, first.interpreter.executeAll fuel rest = some second ∧
          reply = second.after first.printed) := by
  rw [executeAll_cons] at replied
  obtain ⟨first, executed, continues⟩ := Option.bind_eq_some_iff.mp replied
  refine ⟨first, executed, ?_⟩
  cases outcome : first.fault with
  | some fault =>
      rw [Reply.andThen_fault outcome, Option.some.injEq] at continues
      exact .inl ⟨⟨fault, rfl⟩, continues.symm⟩
  | none =>
      rw [Reply.andThen_ok outcome] at continues
      obtain ⟨second, executedRest, same⟩ := Option.map_eq_some_iff.mp continues
      exact .inr ⟨rfl, second, executedRest, same.symm⟩

theorem executeAll_singleton (fuel : Nat) (interpreter : Interpreter) (token : Token) :
    interpreter.executeAll fuel [token] = interpreter.execute fuel token := by
  rw [executeAll_cons]
  cases interpreter.execute fuel token with
  | none => rfl
  | some reply =>
      cases outcome : reply.fault with
      | some fault => rw [Option.bind_some, Reply.andThen_fault outcome]
      | none =>
          rw [Option.bind_some, Reply.andThen_ok outcome, executeAll, Option.map_some, Reply.after,
            String.append_empty, ← outcome]

theorem executeAll_append (fuel : Nat) (interpreter : Interpreter) (front back : List Token) :
    interpreter.executeAll fuel (front ++ back) =
      (interpreter.executeAll fuel front).bind fun reply =>
        reply.andThen fun next => next.executeAll fuel back := by
  induction front generalizing interpreter with
  | nil => exact (Reply.andThen_quiet interpreter fun next => next.executeAll fuel back).symm
  | cons token front ih =>
      rw [List.cons_append, executeAll_cons, executeAll_cons, Option.bind_assoc]
      congr 1
      funext reply
      cases outcome : reply.fault with
      | some fault =>
          rw [Reply.andThen_fault outcome, Reply.andThen_fault outcome, Option.bind_some,
            Reply.andThen_fault outcome]
      | none =>
          rw [Reply.andThen_ok outcome, Reply.andThen_ok outcome, ih]
          cases reply.interpreter.executeAll fuel front with
          | none => rfl
          | some second =>
              simp only [Option.bind_some, Option.map_some]
              cases later : second.fault with
              | some fault =>
                  have stillFails : (second.after reply.printed).fault = some fault := later
                  rw [Reply.andThen_fault later, Reply.andThen_fault stillFails, Option.map_some]
              | none =>
                  have stillFine : (second.after reply.printed).fault = none := later
                  rw [Reply.andThen_ok later, Reply.andThen_ok stillFine, Option.map_map]
                  congr 1
                  funext third
                  exact Reply.after_after _ _ _

/-- The reply to code that was run: what its ending says, and what the interpreter does next. -/
def settle (interpreter : Interpreter) (activity : Activity) (ending : Ending) : Reply where
  interpreter := { interpreter with stack := ending.stack, activity }
  printed := ending.printed
  fault := ending.fault

theorem runTokens_eq_settle (fuel : Nat) (interpreter : Interpreter) (tokens : List Token) :
    interpreter.runTokens fuel tokens =
      (Machine.runTokens interpreter.dictionary fuel interpreter.stack tokens).map
        (interpreter.settle interpreter.activity) := rfl

theorem steady_runTokens (interpreter : Interpreter) (tokens : List Token) :
    Steady fun fuel => interpreter.runTokens fuel tokens :=
  (Machine.steady_runTokens interpreter.dictionary interpreter.stack tokens).map _

section Steadiness

variable (interpreter : Interpreter) (session : Session) (token : Token) (tokens : List Token)
variable (complete : Completion := Session.complete)

theorem steady_endConditional : Steady fun fuel => interpreter.endConditional fuel session complete := by
  unfold endConditional
  cases complete session with
  | error reason => exact steady_const _
  | ok definitions => exact (steady_runTokens _ _).map _

theorem steady_executeOutside (labels : Labels) :
    Steady fun fuel => interpreter.executeOutside fuel labels token := by
  unfold executeOutside
  split
  · exact steady_const _
  · exact steady_const _
  · exact steady_runTokens interpreter [token]

theorem steady_executeInConditional :
    Steady fun fuel => interpreter.executeInConditional fuel session token complete := by
  simp only [executeInConditional]
  split
  · exact steady_endConditional interpreter (session.push token) complete
  · exact steady_const _

theorem steady_execute : Steady fun fuel => interpreter.execute fuel token complete := by
  cases activity : interpreter.activity with
  | executing labels =>
      simp only [execute, activity]
      exact steady_executeOutside interpreter token labels
  | recording session =>
      simp only [execute, activity]
      exact steady_const _
  | conditional session =>
      simp only [execute, activity]
      exact steady_executeInConditional interpreter session token complete

/-- More fuel keeps a reply. -/
theorem steady_executeAll : Steady fun fuel => interpreter.executeAll fuel tokens complete := by
  induction tokens generalizing interpreter with
  | nil => exact steady_const _
  | cons token tokens ih =>
      simp only [executeAll_cons]
      apply (steady_execute interpreter token complete).bind
      intro reply
      cases outcome : reply.fault with
      | some fault =>
          simp only [Reply.andThen_fault outcome]
          exact steady_const _
      | none =>
          simp only [Reply.andThen_ok outcome]
          exact (ih reply.interpreter).map _

end Steadiness

/-- A definition in the making takes every token but the one that ends it. -/
theorem executeAll_recordAll (fuel : Nat) (interpreter : Interpreter) {tokens : List Token}
    (unended : ∀ token ∈ tokens, token.mark? ≠ some .semicolon) (session : Session) :
    executeAll fuel { interpreter with activity := .recording session } tokens =
      some { interpreter := { interpreter with activity := .recording (session.recordAll tokens) } } := by
  induction tokens generalizing session with
  | nil => rfl
  | cons token tokens ih =>
      have goesOn := unended token (List.mem_cons_self ..)
      have first : execute fuel { interpreter with activity := .recording session } token =
          some { interpreter := { interpreter with activity := .recording (session.record token) } } := by
        simp only [execute, executeInDefinition, Session.record]
        split
        next ends => exact absurd ends goesOn
        next colon => rw [if_pos colon]; rfl
        next noColon => rw [if_neg noColon]; rfl
      rw [executeAll_cons, first, Option.bind_some, Reply.andThen_quiet]
      exact ih (fun other member => unended other (List.mem_cons_of_mem token member)) (session.record token)

/-- A colon begins a definition, and abandons one that is being recorded. -/
theorem executeAll_colon {interpreter : Interpreter} {tokens : List Token} (outside : interpreter.mode ≠ .conditional)
    (unended : ∀ token ∈ tokens, token.mark? ≠ some .semicolon) (fuel : Nat) :
    interpreter.executeAll fuel (":" :: tokens) =
      some { interpreter := { interpreter with
        activity := .recording ((Session.named interpreter.activity.labels).recordAll tokens) } } := by
  have opens : interpreter.execute fuel ":" =
      some { interpreter := { interpreter with activity := .recording (.named interpreter.activity.labels) } } := by
    obtain ⟨stack, dictionary, labels | session | session⟩ := interpreter
    · rfl
    · rfl
    · exact absurd rfl outside
  rw [executeAll_cons, opens, Option.bind_some, Reply.andThen_quiet, executeAll_recordAll fuel interpreter unended]

/-- A definition that has been begun and not yet ended. -/
theorem executeAll_begun {interpreter : Interpreter} {labels : Labels} {tokens : List Token}
    (executing : interpreter.activity = .executing labels)
    (unended : ∀ token ∈ tokens, token.mark? ≠ some .semicolon) (fuel : Nat) :
    interpreter.executeAll fuel (":" :: tokens) =
      some { interpreter := { interpreter with
        activity := .recording ((Session.named labels).recordAll tokens) } } := by
  have outside : interpreter.mode ≠ .conditional := by simp [mode, executing, Activity.mode]
  rw [executeAll_colon outside unended, executing]
  rfl

theorem execute_semicolon (interpreter : Interpreter) (session : Session) (fuel : Nat) :
    execute fuel { interpreter with activity := .recording session } ";" =
      some (endDefinition { interpreter with activity := .recording session } session) := by
  have mark : Token.mark? ";" = some .semicolon := by decide
  simp only [execute, executeInDefinition, mark]

/-- A conditional in the making takes everything as long as it is neither spoilt nor closed. -/
theorem executeAll_collecting (fuel : Nat) (interpreter : Interpreter) {tokens : List Token} (session : Session)
    (stays : ∀ front, front <+: tokens →
      (session.pushAll front).hasFailed = false ∧ (session.pushAll front).depth ≠ 0) :
    executeAll fuel { interpreter with activity := .conditional session } tokens =
      some { interpreter := { interpreter with activity := .conditional (session.pushAll tokens) } } := by
  induction tokens generalizing session with
  | nil => rfl
  | cons token tokens ih =>
      have staysOpen : (session.push token).hasFailed = false ∧ (session.push token).depth ≠ 0 :=
        stays [token] (List.prefix_append [token] tokens)
      have first : execute fuel { interpreter with activity := .conditional session } token =
          some { interpreter := { interpreter with activity := .conditional (session.push token) } } := by
        simp only [execute, executeInConditional, staysOpen, decide_false, Bool.or_self, Bool.false_eq_true,
          if_false, become]
      rw [executeAll_cons, first, Option.bind_some, Reply.andThen_quiet]
      apply ih (session.push token)
      intro front before
      exact stays (token :: front) ((List.prefix_cons_inj token).mpr before)

end Interpreter

/-- The tokens that the command has the interpreter take. -/
def Command.tokens : Command → List Token
  | .execute token => [token]
  | .line text => Token.ofLine text
  | _ => []

/-- A command has tokens taken, or changes the stack alone, or resets the interpreter. -/
theorem Interpreter.perform_cases {fuel : Nat} {interpreter : Interpreter} {command : Command} {reply : Reply}
    (replied : interpreter.perform fuel command = some reply) :
    interpreter.executeAll fuel command.tokens = some reply ∨
      (∃ stack, reply.interpreter = { interpreter with stack }) ∨ reply.interpreter = interpreter.reset := by
  cases command with
  | execute token => exact .inl ((executeAll_singleton fuel interpreter token).trans replied)
  | line text => exact .inl replied
  | push value =>
      cases replied
      exact .inr (.inl ⟨_, rfl⟩)
  | pop =>
      obtain ⟨_ | ⟨value, rest⟩, dictionary, activity⟩ := interpreter
      · cases replied
        exact .inr (.inl ⟨_, rfl⟩)
      · cases replied
        exact .inr (.inl ⟨_, rfl⟩)
  | reset =>
      cases replied
      exact .inr (.inr rfl)

/-- The tokens of a body hold no mark of a definition. -/
theorem Body.Spelled.inside {body : Body} {tokens : List Token} (spelled : Spelled body tokens) :
    ∀ token ∈ tokens, token.mark? ≠ some .colon ∧ token.mark? ≠ some .semicolon := by
  induction spelled with
  | done => simp
  | token noMark _ ihRest => simpa [noMark] using ihRest
  | ifThen ifMark thenMark _ _ ihIf ihRest =>
      simp only [List.mem_cons, List.mem_append]
      intro token member
      rcases member with rfl | inIf | rfl | inRest
      · simp [ifMark]
      · exact ihIf token inIf
      · simp [thenMark]
      · exact ihRest token inRest
  | ifElse ifMark elseMark thenMark _ _ _ ihIf ihElse ihRest =>
      simp only [List.mem_cons, List.mem_append]
      intro token member
      rcases member with rfl | inIf | rfl | inElse | rfl | inRest
      · simp [ifMark]
      · exact ihIf token inIf
      · simp [elseMark]
      · exact ihElse token inElse
      · simp [thenMark]
      · exact ihRest token inRest

end Forth

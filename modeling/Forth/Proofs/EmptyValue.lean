import Forth.Proofs.Commands
import Forth.Proofs.Installation
import Forth.Proofs.Unfolding

/-! The empty value stays out. A pop or a look at the top of an empty stack hands out the empty value, which is
no number but reads as zero, and the words of the language move values about without asking what they are. If
only they are primitive and only numbers are put on the stack from outside, then the empty value is never on
the stack, at no step of any run; and so what a primitive word puts on the agenda is always a numeral. -/

namespace Forth

/-- One of the words that come with the language does this. -/
def Primitive.BuiltIn (primitive : Primitive) : Prop :=
  ∃ word ∈ Vocabulary.base ++ Vocabulary.printing, word.action = .primitive primitive

/-- If it is primitive, it comes with the language. -/
def Action.BuiltIn (action : Action) : Prop := ∀ primitive, action = .primitive primitive → primitive.BuiltIn

def Definitions.BuiltIn (definitions : Definitions) : Prop :=
  ∀ (name : String) (action : Action), definitions[name]? = some action → action.BuiltIn

def Dictionary.BuiltIn (dictionary : Dictionary) : Prop :=
  ∀ name word, dictionary.find? name = some word → word.action.BuiltIn

def Activity.BuiltIn : Activity → Prop
  | .executing _ => True
  | .recording session | .conditional session => Definitions.BuiltIn session.completed

/-- Of the words that the interpreter knows and of those that it has made for an open session, the primitive ones
come with the language. -/
structure Interpreter.BuiltIn (interpreter : Interpreter) : Prop where
  dictionary : interpreter.dictionary.BuiltIn
  activity : interpreter.activity.BuiltIn

/-- The words that come with the language have no tokens of their own to put on the agenda. -/
theorem Action.BuiltIn.tokens_primitive {primitive : Primitive} (builtIn : (Action.primitive primitive).BuiltIn) :
    (Action.primitive primitive).tokens = [] := by
  have silent : ∀ word ∈ Vocabulary.base ++ Vocabulary.printing, word.action.tokens = [] := by decide
  obtain ⟨word, listed, isPrimitive⟩ := builtIn primitive rfl
  rw [← isPrimitive]
  exact silent word listed

theorem Conditional.action_builtIn (conditional : Conditional) : conditional.action.BuiltIn := by
  intro primitive isPrimitive
  cases isPrimitive

theorem Action.compiled_builtIn (body : List Token) : (Action.compiled body).BuiltIn := by
  intro primitive isPrimitive
  cases isPrimitive

namespace Definitions.BuiltIn

variable {definitions : Definitions}

theorem empty : Definitions.BuiltIn ∅ := by
  intro name action found
  rw [Std.ExtTreeMap.getElem?_empty] at found
  cases found

theorem insert (builtIn : definitions.BuiltIn) (name : String) {action : Action} (added : action.BuiltIn) :
    Definitions.BuiltIn (definitions.insert name action) := by
  intro other found isFound
  rw [Std.ExtTreeMap.getElem?_insert] at isFound
  split at isFound
  · cases isFound
    exact added
  · exact builtIn other found isFound

theorem erase (builtIn : definitions.BuiltIn) (name : String) : Definitions.BuiltIn (definitions.erase name) := by
  intro other found isFound
  rw [Std.ExtTreeMap.getElem?_erase] at isFound
  split at isFound
  · cases isFound
  · exact builtIn other found isFound

end Definitions.BuiltIn

namespace Dictionary.BuiltIn

variable {dictionary : Dictionary}

theorem install (builtIn : dictionary.BuiltIn) {definitions : Definitions} (added : definitions.BuiltIn) :
    (dictionary.install definitions.toList).BuiltIn := by
  intro name word found
  rw [find?_install] at found
  cases inDefinitions : definitions[name]? with
  | none =>
      rw [inDefinitions] at found
      exact builtIn name word found
  | some action =>
      rw [inDefinitions] at found
      cases found
      exact added name action inDefinitions

theorem eraseAll (builtIn : dictionary.BuiltIn) (names : List String) : (dictionary.eraseAll names).BuiltIn := by
  intro name word found
  rw [find?_eraseAll] at found
  split at found
  · cases found
  · exact builtIn name word found

end Dictionary.BuiltIn

namespace Session

variable {session : Session}

theorem refer_completed (session : Session) (label : String) : (session.refer label).completed = session.completed := by
  unfold refer
  split
  · rfl
  · split <;> rfl

/-- All that a token can add to the words of a session is a conditional. -/
theorem push_completed (session : Session) (token : Token) :
    (session.push token).completed = session.completed ∨ ∃ conditional : Conditional,
      (session.push token).completed = session.completed.insert conditional.label conditional.action := by
  have closes (stored : Session) : stored.closeConditional.completed = stored.completed ∨
      ∃ conditional : Conditional,
        stored.closeConditional.completed = stored.completed.insert conditional.label conditional.action := by
    unfold closeConditional
    split
    next conditional _ =>
      split
      · exact .inl rfl
      · exact .inr ⟨conditional, refer_completed ..⟩
    next => exact .inl rfl
  unfold push
  split
  · exact .inl rfl
  · split
    · exact .inl rfl
    · exact .inl rfl
    · exact .inl rfl
    · unfold route
      split
      · exact .inl rfl
      · split
        · exact .inl rfl
        · exact closes _
        · exact .inl rfl

theorem push_builtIn (builtIn : Definitions.BuiltIn session.completed) (token : Token) :
    Definitions.BuiltIn (session.push token).completed := by
  rcases session.push_completed token with same | ⟨conditional, added⟩
  · rw [same]
    exact builtIn
  · rw [added]
    exact builtIn.insert conditional.label conditional.action_builtIn

theorem gather_builtIn {definitions gathered : Definitions} {fragments : List (String × Fragment)}
    (builtIn : definitions.BuiltIn) (gathers : gather definitions fragments = .ok gathered) : gathered.BuiltIn := by
  fun_induction gather definitions fragments with
  | case1 definitions =>
      cases gathers
      exact builtIn
  | case2 => cases gathers
  | case3 definitions _ name body rest ih => exact ih (builtIn.insert name (Action.compiled_builtIn body)) gathers
  | case4 definitions label conditional _ _ ih =>
      exact ih (builtIn.insert conditional.label conditional.action_builtIn) gathers
  | case5 => cases gathers

theorem complete_builtIn {definitions : Definitions} (builtIn : Definitions.BuiltIn session.completed)
    (completes : session.complete = .ok definitions) : definitions.BuiltIn := by
  unfold complete at completes
  split at completes
  · cases completes
  · exact gather_builtIn builtIn completes

theorem decision_builtIn (session : Session) {definitions : Definitions} (builtIn : definitions.BuiltIn) :
    Definitions.BuiltIn (session.decision definitions).helpers := by
  unfold decision
  split
  · exact builtIn
  · split <;> exact builtIn.erase _

end Session

namespace Interpreter

variable {interpreter : Interpreter} {fuel : Nat} {token : Token} {reply : Reply}

/-- The run that a token starts, if it starts one, and the dictionary in which it goes. -/
def started? (interpreter : Interpreter) (token : Token) : Option (Dictionary × Machine) :=
  match interpreter.activity with
  | .executing _ =>
      if token.mark? = some .colon ∨ token.mark? = some .ifMark then none
      else some (interpreter.dictionary, ⟨interpreter.stack, [token], ""⟩)
  | .recording _ => none
  | .conditional session =>
      let extended := session.push token
      if extended.hasFailed || extended.depth = 0 then
        match extended.complete with
        | .error _ => none
        | .ok definitions =>
            let decision := extended.decision definitions
            some (interpreter.dictionary.install decision.helpers.toList, ⟨interpreter.stack, decision.body, ""⟩)
      else none

/-- A token that starts no run is answered at once and leaves the stack alone. -/
theorem execute_unstarted (idle : interpreter.started? token = none) :
    ∃ reply : Reply, (∀ fuel, interpreter.execute fuel token = some reply) ∧ reply.printed = "" ∧
      reply.interpreter.stack = interpreter.stack := by
  unfold started? at idle
  cases activity : interpreter.activity with
  | executing labels =>
      simp only [activity] at idle
      split at idle
      next marks =>
        simp only [execute, activity, executeOutside]
        rcases marks with colon | ifMark
        · exact ⟨_, fun _ => by rw [colon], rfl, rfl⟩
        · exact ⟨_, fun _ => by rw [ifMark], rfl, rfl⟩
      next => cases idle
  | recording session =>
      simp only [execute, activity]
      refine ⟨_, fun _ => rfl, ?_⟩
      unfold executeInDefinition
      split
      · unfold endDefinition
        split <;> exact ⟨rfl, rfl⟩
      · exact ⟨rfl, rfl⟩
      · exact ⟨rfl, rfl⟩
  | conditional session =>
      simp only [activity] at idle
      split at idle
      next ends =>
        cases completes : (session.push token).complete with
        | error reason =>
            refine ⟨interpreter.discard (session.push token) reason, ?_, rfl, rfl⟩
            intro fuel
            simp only [execute, activity, executeInConditional, ends, if_true, endConditional, completes]
        | ok definitions => simp only [completes, reduceCtorEq] at idle
      next stays =>
        refine ⟨interpreter.become (.conditional (session.push token)), ?_, rfl, rfl⟩
        intro fuel
        simp only [execute, activity, executeInConditional, if_neg stays]

/-- A run is started by a token that is neither collected nor begins something to collect for, and by the one that
ends a conditional. -/
theorem started?_cases {dictionary : Dictionary} {machine : Machine}
    (starts : interpreter.started? token = some (dictionary, machine)) :
    (∃ labels, interpreter.activity = .executing labels ∧ token.mark? ≠ some .colon ∧ token.mark? ≠ some .ifMark ∧
      dictionary = interpreter.dictionary ∧ machine = ⟨interpreter.stack, [token], ""⟩) ∨
    ∃ session definitions, interpreter.activity = .conditional session ∧
      ((session.push token).hasFailed || (session.push token).depth = 0) = true ∧
      (session.push token).complete = .ok definitions ∧
      dictionary = interpreter.dictionary.install ((session.push token).decision definitions).helpers.toList ∧
      machine = ⟨interpreter.stack, ((session.push token).decision definitions).body, ""⟩ := by
  unfold started? at starts
  cases activity : interpreter.activity with
  | executing labels =>
      simp only [activity] at starts
      split at starts
      next => cases starts
      next plain =>
        cases starts
        exact .inl ⟨labels, rfl, fun colon => plain (.inl colon), fun ifMark => plain (.inr ifMark), rfl, rfl⟩
  | recording session => simp only [activity, reduceCtorEq] at starts
  | conditional session =>
      simp only [activity] at starts
      split at starts
      next ends =>
        split at starts
        next => cases starts
        next definitions completes =>
          cases starts
          exact .inr ⟨session, definitions, rfl, ends, completes, rfl, rfl⟩
      next => cases starts

/-- A token that starts a run is answered when that ends, with what it ends with. -/
theorem execute_started {dictionary : Dictionary} {machine : Machine}
    (starts : interpreter.started? token = some (dictionary, machine)) :
    machine.stack = interpreter.stack ∧ ∃ known activity, ∀ fuel, interpreter.execute fuel token =
      (machine.run dictionary fuel).map fun ending =>
        { interpreter := { stack := ending.stack, dictionary := known, activity }
          printed := ending.printed
          fault := ending.fault } := by
  rcases started?_cases starts with ⟨labels, executing, noColon, noIf, rfl, rfl⟩ |
    ⟨session, definitions, collecting, ends, completes, rfl, rfl⟩
  · refine ⟨rfl, interpreter.dictionary, .executing labels, ?_⟩
    intro fuel
    simp only [execute, executing, executeOutside]
    rw [runTokens_eq_settle, executing]
    rfl
  · let helpers := ((session.push token).decision definitions).helpers
    refine ⟨rfl, (interpreter.dictionary.install helpers.toList).eraseAll helpers.keys,
      .executing (session.push token).labels, ?_⟩
    intro fuel
    simp only [execute, collecting, executeInConditional, ends, if_true, endConditional, completes, runDecision,
      runTokens, Option.map_map]
    rfl

theorem runTokens_builtIn {tokens : List Token} (builtIn : interpreter.BuiltIn)
    (replied : interpreter.runTokens fuel tokens = some reply) : reply.interpreter.BuiltIn := by
  obtain ⟨ending, _, rfl⟩ := Option.map_eq_some_iff.mp replied
  exact ⟨builtIn.dictionary, builtIn.activity⟩

theorem endDefinition_builtIn (builtIn : interpreter.dictionary.BuiltIn) {session : Session}
    (made : Definitions.BuiltIn session.completed) : (interpreter.endDefinition session).interpreter.BuiltIn := by
  unfold endDefinition
  split
  next => exact ⟨builtIn, trivial⟩
  next completes => exact ⟨builtIn.install (Session.complete_builtIn made completes), trivial⟩

theorem endConditional_builtIn (builtIn : interpreter.dictionary.BuiltIn) {session : Session}
    (made : Definitions.BuiltIn session.completed) (replied : interpreter.endConditional fuel session = some reply) :
    reply.interpreter.BuiltIn := by
  unfold endConditional at replied
  split at replied
  next =>
    cases replied
    exact ⟨builtIn, trivial⟩
  next completes =>
    obtain ⟨ran, isRan, rfl⟩ := Option.map_eq_some_iff.mp replied
    have installed := builtIn.install (session.decision_builtIn (Session.complete_builtIn made completes))
    have kept : ran.interpreter.BuiltIn := by
      apply runTokens_builtIn _ isRan
      exact ⟨installed, trivial⟩
    exact ⟨kept.dictionary.eraseAll _, kept.activity⟩

theorem execute_builtIn (builtIn : interpreter.BuiltIn) (replied : interpreter.execute fuel token = some reply) :
    reply.interpreter.BuiltIn := by
  have made := builtIn.activity
  cases activity : interpreter.activity with
  | executing labels =>
      simp only [execute, activity, executeOutside] at replied
      split at replied
      · cases replied
        exact ⟨builtIn.dictionary, Definitions.BuiltIn.empty⟩
      · cases replied
        exact ⟨builtIn.dictionary, Session.push_builtIn Definitions.BuiltIn.empty token⟩
      · exact runTokens_builtIn builtIn replied
  | recording session =>
      rw [activity] at made
      simp only [execute, activity, Option.some.injEq] at replied
      subst replied
      unfold executeInDefinition
      split
      · exact endDefinition_builtIn builtIn.dictionary made
      · exact ⟨builtIn.dictionary, Definitions.BuiltIn.empty⟩
      · exact ⟨builtIn.dictionary, Session.push_builtIn made token⟩
  | conditional session =>
      rw [activity] at made
      have extended := Session.push_builtIn made token
      simp only [execute, activity, executeInConditional] at replied
      split at replied
      · exact endConditional_builtIn builtIn.dictionary extended replied
      · cases replied
        exact ⟨builtIn.dictionary, extended⟩

/-- The primitive words come with the language and the stack holds numbers. -/
structure Clean (interpreter : Interpreter) : Prop where
  builtIn : interpreter.BuiltIn
  numeric : interpreter.stack.Numeric

/-- One token. -/
theorem execute_clean (clean : interpreter.Clean) (replied : interpreter.execute fuel token = some reply) :
    reply.interpreter.Clean := by
  refine ⟨execute_builtIn clean.builtIn replied, ?_⟩
  cases starts : interpreter.started? token with
  | none =>
      obtain ⟨known, answers, _, sameStack⟩ := execute_unstarted starts
      rw [answers, Option.some.injEq] at replied
      rw [← replied, sameStack]
      exact clean.numeric
  | some run =>
      obtain ⟨begins, _, _, answers⟩ := execute_started starts
      rw [answers] at replied
      obtain ⟨ending, reached, rfl⟩ := Option.map_eq_some_iff.mp replied
      exact Machine.run_numeric (begins ▸ clean.numeric) reached

/-- Any number of tokens. -/
theorem executeAll_clean {tokens : List Token} (clean : interpreter.Clean)
    (replied : interpreter.executeAll fuel tokens = some reply) : reply.interpreter.Clean := by
  induction tokens generalizing interpreter reply with
  | nil =>
      cases replied
      exact clean
  | cons token tokens ih =>
      obtain ⟨first, executed, ⟨_, rfl⟩ | ⟨_, second, executedRest, rfl⟩⟩ := executeAll_cons_cases replied
      · exact execute_clean clean executed
      · have kept := ih (execute_clean clean executed) executedRest
        exact kept

end Interpreter

/-- What the command puts on the stack is a number. -/
def Command.Numeric : Command → Prop
  | .push value => value.isNumber = true
  | _ => True

namespace Interpreter

theorem perform_clean {interpreter : Interpreter} {fuel : Nat} {command : Command} {reply : Reply}
    (clean : interpreter.Clean) (numeric : command.Numeric) (replied : interpreter.perform fuel command = some reply) :
    reply.interpreter.Clean := by
  cases command with
  | execute token => exact execute_clean clean replied
  | line text => exact executeAll_clean clean replied
  | push value =>
      cases replied
      exact ⟨⟨clean.builtIn.dictionary, clean.builtIn.activity⟩, clean.numeric.cons numeric⟩
  | pop =>
      obtain ⟨_ | ⟨value, rest⟩, dictionary, activity⟩ := interpreter
      · cases replied
        exact clean
      · cases replied
        exact ⟨⟨clean.builtIn.dictionary, clean.builtIn.activity⟩, clean.numeric.tail⟩
  | reset =>
      cases replied
      exact ⟨⟨clean.builtIn.dictionary, trivial⟩, by rintro value ⟨⟩⟩

/-- The interpreters that a host comes to who puts nothing but numbers on the stack. -/
inductive Driven (start : Interpreter) : Interpreter → Prop where
  | start : Driven start start
  | step {interpreter : Interpreter} {fuel : Nat} {command : Command} {reply : Reply}
      (driven : Driven start interpreter) (numeric : command.Numeric)
      (replied : interpreter.perform fuel command = some reply) :
      Driven start reply.interpreter

theorem Driven.clean {start interpreter : Interpreter} (driven : Driven start interpreter) (clean : start.Clean) :
    interpreter.Clean := by
  induction driven with
  | start => exact clean
  | step _ numeric replied kept => exact perform_clean kept numeric replied

/-- Of a list of tokens that an interpreter is given, it comes to take one, and this is what has become of it then. -/
inductive Takes : Interpreter → List Token → Interpreter → Token → Prop where
  | now (interpreter : Interpreter) (token : Token) (rest : List Token) :
      Takes interpreter (token :: rest) interpreter token
  | later {interpreter current : Interpreter} {first token : Token} {rest : List Token} {fuel : Nat} {reply : Reply}
      (executed : interpreter.execute fuel first = some reply) (succeeded : reply.fault = none)
      (takes : Takes reply.interpreter rest current token) : Takes interpreter (first :: rest) current token

theorem Takes.clean {interpreter current : Interpreter} {tokens : List Token} {token : Token}
    (takes : Takes interpreter tokens current token) (clean : interpreter.Clean) : current.Clean := by
  induction takes with
  | now => exact clean
  | later executed _ _ ih => exact ih (execute_clean clean executed)

/-- The machines that the interpreter goes through when it is given a command, whether or not that ever ends: those
that are reached by the run of a token which it comes to take. -/
structure Undergoes (interpreter : Interpreter) (command : Command) (dictionary : Dictionary)
    (first machine : Machine) : Prop where
  taken : ∃ current token, interpreter.Takes command.tokens current token ∧
    current.started? token = some (dictionary, first)
  reaches : Machine.Reaches dictionary first machine

theorem started_builtIn {interpreter : Interpreter} {token : Token} {dictionary : Dictionary} {machine : Machine}
    (builtIn : interpreter.BuiltIn) (starts : interpreter.started? token = some (dictionary, machine)) :
    dictionary.BuiltIn := by
  rcases started?_cases starts with ⟨_, _, _, _, rfl, _⟩ | ⟨session, definitions, collecting, _, completes, rfl, _⟩
  · exact builtIn.dictionary
  · have made := builtIn.activity
    rw [collecting] at made
    have whole := Session.complete_builtIn (Session.push_builtIn made token) completes
    exact builtIn.dictionary.install ((session.push token).decision_builtIn whole)

end Interpreter

namespace Machine

variable {dictionary : Dictionary} {machine next : Machine}

/-- What a primitive word of the language puts on the agenda are numerals. -/
theorem step_schedules_numerals {token : Token} {agenda : Agenda} {word : Word} {primitive : Primitive}
    (builtIn : dictionary.BuiltIn) (numeric : machine.stack.Numeric) (pending : machine.agenda = token :: agenda)
    (noNumeral : Number.ofNumeral? token = none) (found : dictionary.find? token = some word)
    (isPrimitive : word.action = .primitive primitive) (moves : machine.step dictionary = .moved next) :
    ∃ scheduled, next.agenda = scheduled ++ agenda ∧ ∀ other ∈ scheduled, Number.ofNumeral? other ≠ none := by
  have silent := (isPrimitive ▸ builtIn token word found).tokens_primitive
  simp only [step, pending, executeToken, noNumeral, found, act, isPrimitive, applyPrimitive] at moves
  cases applied : primitive.apply machine.stack with
  | error fault => simp only [applied, fail, reduceCtorEq] at moves
  | ok effect =>
      simp only [applied, Step.moved.injEq] at moves
      subst moves
      refine ⟨effect.scheduled, rfl, ?_⟩
      intro other member noNumeral
      have own := (Primitive.apply_numeric numeric applied).2 other member noNumeral
      rw [silent] at own
      cases own

end Machine

/-- The token is one of those that a run begins with, or it stands in the body of a word that is written in others. -/
def Dictionary.Writes (dictionary : Dictionary) (tokens : List Token) (token : Token) : Prop :=
  token ∈ tokens ∨ ∃ name word, dictionary.find? name = some word ∧ word.action.isPrimitive = false ∧
    token ∈ word.action.tokens

/-- What is written leads only to what is written. -/
theorem Dictionary.BuiltIn.agree {dictionary : Dictionary} (builtIn : dictionary.BuiltIn) (tokens : List Token) :
    dictionary.Agree (dictionary.Writes tokens) dictionary where
  same _ _ := rfl
  closed := by
    intro name word _ found token member _
    cases action : word.action with
    | primitive primitive =>
        have silent := (action ▸ builtIn name word found).tokens_primitive
        rw [action, silent] at member
        cases member
    | compiled body => exact .inr ⟨name, word, found, by rw [action]; rfl, member⟩
    | conditional ifBody elseBody => exact .inr ⟨name, word, found, by rw [action]; rfl, member⟩

theorem Machine.Reaches.covers {dictionary : Dictionary} {relevant : Token → Prop} {first machine : Machine}
    (agree : dictionary.Agree relevant dictionary) (numeric : first.stack.Numeric)
    (covers : Covers relevant first.agenda) (reaches : Reaches dictionary first machine) :
    Covers relevant machine.agenda := by
  induction reaches with
  | start => exact covers
  | step earlier moves ih => exact (step_agree agree (earlier.numeric numeric) ih).2 _ moves

/-- An interpreter whose primitive words come with the language, and a host who begins with a stack of numbers and
puts nothing else on it. Between commands and at every step of every run, also one that fails or never ends, the
stack holds numbers; what a primitive word puts on the agenda are numerals; and all else that is ever looked up was
there when the run began or stands in the body of a word. -/
theorem the_empty_value_stays_out {start interpreter : Interpreter} (builtIn : start.BuiltIn)
    (numeric : start.stack.Numeric) (driven : start.Driven interpreter) :
    interpreter.stack.Numeric ∧
    ∀ command dictionary first machine, interpreter.Undergoes command dictionary first machine →
      machine.stack.Numeric ∧ (machine.step dictionary).stack.Numeric ∧
      (∀ token agenda word primitive next, machine.agenda = token :: agenda → Number.ofNumeral? token = none →
        dictionary.find? token = some word → word.action = .primitive primitive →
        machine.step dictionary = .moved next →
          ∃ scheduled, next.agenda = scheduled ++ agenda ∧ ∀ other ∈ scheduled, Number.ofNumeral? other ≠ none) ∧
      ∀ token ∈ machine.agenda, Number.ofNumeral? token = none → dictionary.Writes first.agenda token := by
  have clean := driven.clean ⟨builtIn, numeric⟩
  refine ⟨clean.numeric, ?_⟩
  intro command dictionary first machine undergoes
  obtain ⟨current, token, takes, starts⟩ := undergoes.taken
  have cleanThen := takes.clean clean
  have known := Interpreter.started_builtIn cleanThen.builtIn starts
  have begins : first.stack.Numeric := (Interpreter.execute_started starts).1 ▸ cleanThen.numeric
  have kept := undergoes.reaches.numeric begins
  refine ⟨kept, Machine.step_numeric dictionary kept, ?_, ?_⟩
  · intro token agenda word primitive next pending noNumeral found isPrimitive moves
    exact Machine.step_schedules_numerals known kept pending noNumeral found isPrimitive moves
  · exact undergoes.reaches.covers (known.agree first.agenda) begins fun token member _ => .inl member

theorem Interpreter.standard_builtIn : Interpreter.standard.BuiltIn where
  dictionary := by
    have written : ∀ word ∈ Vocabulary.prelude, word.action.isPrimitive = false := by decide
    intro name word found primitive isPrimitive
    obtain ⟨listed, _⟩ := Dictionary.mem_of_find?_insertAll found
    rcases List.mem_append.mp listed with builtIn | inPrelude
    · exact ⟨word, builtIn, isPrimitive⟩
    · have scripted := written word inPrelude
      rw [isPrimitive] at scripted
      cases scripted
  activity := trivial

theorem Interpreter.started?_executing {interpreter : Interpreter} {token : Token}
    (executing : interpreter.mode = .executing) (plain : token.mark? = none) :
    interpreter.started? token = some (interpreter.dictionary, ⟨interpreter.stack, [token], ""⟩) := by
  obtain ⟨stack, dictionary, labels | session | session⟩ := interpreter
  · simp only [started?, plain, reduceCtorEq, or_self, if_false]
  · cases executing
  · cases executing

/-- A word of the host's own that chooses between two numbers put there by the host. -/
theorem the_empty_value_stays_out_choosing :
    ∃ interpreter : Interpreter, Interpreter.standard.BuiltIn ∧ Interpreter.standard.stack.Numeric ∧
      Interpreter.standard.Driven interpreter ∧ interpreter.stack.Numeric ∧
      interpreter.Undergoes (.line "pick --empty--") interpreter.dictionary ⟨[.number 8, .number 7], ["pick"], ""⟩
        ⟨[.number 1, .number 8, .number 7], ["choose"], ""⟩ ∧
      Machine.step interpreter.dictionary ⟨[.number 1, .number 8, .number 7], ["choose"], ""⟩ =
        .moved ⟨[], ["8"], ""⟩ ∧
      Number.ofNumeral? "8" ≠ none := by
  have nothing : Interpreter.standard.stack.Numeric := by decide
  let given := (Interpreter.standard.push (.number 7)).push (.number 8)
  have typed : (given.perform 9 (.line ": pick 1 choose ;")).map (fun reply =>
      let dictionary := reply.interpreter.dictionary
      (reply.interpreter.mode, reply.interpreter.stack, (dictionary.find? "choose").map Word.action,
        Machine.step dictionary ⟨[.number 8, .number 7], ["pick"], ""⟩,
        Machine.step dictionary ⟨[.number 8, .number 7], ["1", "choose"], ""⟩,
        Machine.step dictionary ⟨[.number 1, .number 8, .number 7], ["choose"], ""⟩)) =
      some (.executing, [.number 8, .number 7], some (.primitive .choose),
        .moved ⟨[.number 8, .number 7], ["1", "choose"], ""⟩,
        .moved ⟨[.number 1, .number 8, .number 7], ["choose"], ""⟩, .moved ⟨[], ["8"], ""⟩) := by
    decide +kernel
  obtain ⟨reply, replied, same⟩ := Option.map_eq_some_iff.mp typed
  simp only [Prod.mk.injEq] at same
  obtain ⟨executing, sameStack, found, calls, pushes, chooses⟩ := same
  obtain ⟨word, isWord, isChoose⟩ := Option.map_eq_some_iff.mp found
  have driven : Interpreter.standard.Driven reply.interpreter := by
    have first : Interpreter.standard.Driven (Interpreter.standard.push (.number 7)) :=
      @Interpreter.Driven.step _ _ 0 (.push (.number 7)) _ .start rfl rfl
    have second : Interpreter.standard.Driven given :=
      @Interpreter.Driven.step _ _ 0 (.push (.number 8)) _ first rfl rfl
    refine .step second ?_ replied
    exact trivial
  have undergoes : reply.interpreter.Undergoes (.line "pick --empty--") reply.interpreter.dictionary
      ⟨[.number 8, .number 7], ["pick"], ""⟩ ⟨[.number 1, .number 8, .number 7], ["choose"], ""⟩ := by
    have tokens : Command.tokens (.line "pick --empty--") = ["pick", "--empty--"] := by decide
    refine ⟨⟨reply.interpreter, "pick", tokens ▸ .now .., ?_⟩, (Machine.Reaches.start.step calls).step pushes⟩
    rw [Interpreter.started?_executing executing (by decide), sameStack]
  obtain ⟨numeric, everywhere⟩ := the_empty_value_stays_out Interpreter.standard_builtIn nothing driven
  obtain ⟨_, _, numerals, _⟩ := everywhere _ _ _ _ undergoes
  obtain ⟨scheduled, isScheduled, areNumerals⟩ :=
    numerals "choose" [] word .choose _ rfl (by decide) isWord isChoose chooses
  rw [List.append_nil] at isScheduled
  subst isScheduled
  exact ⟨reply.interpreter, Interpreter.standard_builtIn, nothing, driven, numeric, undergoes, chooses,
    areNumerals "8" (List.mem_cons_self ..)⟩

end Forth

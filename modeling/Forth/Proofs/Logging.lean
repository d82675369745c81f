import Forth.Log
import Forth.Proofs.EmptyValue

/-! The log tells what happened. What is reported of a command is put together apart from its execution, from the
states that the interpreter goes through. So the two have to agree: the tokens that are reported as executed are
those of the run that the command starts, a word is reported as unknown if and only if the command fails for it,
and the words that are reported as added are the only ones in which the dictionary can differ afterwards. -/

namespace Forth

/-- Events of a session, as opposed to those of a run and those about words. -/
def Event.isOfSession : Event → Bool
  | .recording | .abandoning _ | .ignoring _ | .opening _ _ | .closing _ _ | .sessionFailed _ => true
  | _ => false

def Event.isOfRun : Event → Bool
  | .executing _ _ | .unknownWord _ _ => true
  | _ => false

def Event.isAdding : Event → Bool
  | .adding _ => true
  | _ => false

theorem Event.countP_isAdding_eq_zero {events : List Event} (absent : ∀ name, .adding name ∉ events) :
    events.countP isAdding = 0 := by
  rw [List.countP_eq_zero]
  intro event member isAdding
  cases event with
  | adding name => exact absent name member
  | _ => cases isAdding

namespace Machine

variable {dictionary : Dictionary} {fuel : Nat} {machine next : Machine} {ending : Ending}

theorem eventsAfter_eq (dictionary : Dictionary) (fuel : Nat) (machine : Machine) (earlier : List Event) :
    eventsAfter dictionary fuel machine earlier = earlier.reverse ++ events dictionary fuel machine := by
  induction fuel generalizing machine earlier with
  | zero => exact (List.append_nil _).symm
  | succ fuel ih =>
      simp only [events, eventsAfter]
      cases machine.step dictionary with
      | ended ending => simp only [List.append_nil, List.reverse_append, List.reverse_reverse]
      | moved next =>
          simp only [ih, List.append_nil, List.reverse_append, List.reverse_reverse, List.append_assoc]

theorem events_moved (moves : machine.step dictionary = .moved next) :
    events dictionary (fuel + 1) machine = machine.stepEvents dictionary ++ events dictionary fuel next := by
  rw [events, eventsAfter]
  simp only [moves, eventsAfter_eq, List.append_nil, List.reverse_reverse]

theorem events_ended (ends : machine.step dictionary = .ended ending) :
    events dictionary (fuel + 1) machine = machine.stepEvents dictionary := by
  rw [events, eventsAfter]
  simp only [ends, List.append_nil, List.reverse_reverse]

/-- A step is reported with the token that it takes. -/
theorem executing_mem_stepEvents (dictionary : Dictionary) (machine : Machine) (token : Token) (pending : Agenda) :
    Event.executing token pending ∈ machine.stepEvents dictionary ↔ machine.agenda = token :: pending := by
  cases agenda : machine.agenda with
  | nil => simp [stepEvents, agenda]
  | cons first rest =>
      simp only [stepEvents, agenda]
      split <;> simp [eq_comm]

/-- An unknown word is reported by the step that fails for it. -/
theorem unknownWord_mem_stepEvents (dictionary : Dictionary) (machine : Machine) (name : Token) :
    (∃ dropped, Event.unknownWord name dropped ∈ machine.stepEvents dictionary) ↔
      ∃ ending, machine.step dictionary = .ended ending ∧ ending.fault = some (.unknownWord name) := by
  cases agenda : machine.agenda with
  | nil => simp [stepEvents, step, agenda]
  | cons first rest =>
      simp only [stepEvents, agenda]
      split
      next ends => simp [ends, eq_comm]
      next others =>
        constructor
        · simp
        · rintro ⟨⟨stack, printed, fault⟩, ends, rfl⟩
          exact absurd ends (others _ _ _)

theorem stepEvents_isOfRun (dictionary : Dictionary) (machine : Machine) :
    ∀ event ∈ machine.stepEvents dictionary, event.isOfRun = true := by
  unfold stepEvents
  split
  · simp
  · split <;> simp [Event.isOfRun]

theorem events_isOfRun (dictionary : Dictionary) (fuel : Nat) (machine : Machine) :
    ∀ event ∈ events dictionary fuel machine, event.isOfRun = true := by
  induction fuel generalizing machine with
  | zero => simp [events, eventsAfter]
  | succ fuel ih =>
      have first := stepEvents_isOfRun dictionary machine
      cases steps : machine.step dictionary with
      | ended ending => rwa [events_ended steps]
      | moved next =>
          rw [events_moved steps]
          exact List.forall_mem_append.mpr ⟨first, ih next⟩

/-- The tokens that a run reports are those that come to the front of the agenda. -/
theorem executing_mem_events (runs : run dictionary fuel machine = some ending) (token : Token) (pending : Agenda) :
    Event.executing token pending ∈ events dictionary fuel machine ↔
      ∃ reached, Reaches dictionary machine reached ∧ reached.agenda = token :: pending := by
  induction fuel generalizing machine with
  | zero => cases runs
  | succ fuel ih =>
      simp only [run] at runs
      have first := executing_mem_stepEvents dictionary machine token pending
      cases steps : machine.step dictionary with
      | ended last =>
          rw [events_ended steps, first]
          constructor
          · intro isFirst
            exact ⟨machine, .start, isFirst⟩
          · rintro ⟨reached, reaches, isFirst⟩
            rcases reaches.cases_head with rfl | ⟨next, moves, _⟩
            · exact isFirst
            · rw [steps] at moves
              cases moves
      | moved next =>
          simp only [steps] at runs
          rw [events_moved steps, List.mem_append, first, ih runs]
          constructor
          · rintro (isFirst | ⟨reached, reaches, isLater⟩)
            · exact ⟨machine, .start, isFirst⟩
            · exact ⟨reached, reaches.after_step steps, isLater⟩
          · rintro ⟨reached, reaches, isReached⟩
            rcases reaches.cases_head with rfl | ⟨other, moves, reachesLater⟩
            · exact .inl isReached
            · rw [steps, Step.moved.injEq] at moves
              exact .inr ⟨reached, moves ▸ reachesLater, isReached⟩

/-- A run reports the unknown word that it ends with, and no other. -/
theorem unknownWord_mem_events (runs : run dictionary fuel machine = some ending) (name : Token) :
    (∃ dropped, Event.unknownWord name dropped ∈ events dictionary fuel machine) ↔
      ending.fault = some (.unknownWord name) := by
  induction fuel generalizing machine with
  | zero => cases runs
  | succ fuel ih =>
      simp only [run] at runs
      have first := unknownWord_mem_stepEvents dictionary machine name
      cases steps : machine.step dictionary with
      | ended last =>
          simp only [steps, Option.some.injEq] at runs
          subst runs
          rw [events_ended steps, first]
          simp only [steps, Step.ended.injEq, exists_eq_left']
      | moved next =>
          simp only [steps] at runs
          simp only [steps, reduceCtorEq, false_and, exists_false, iff_false] at first
          rw [events_moved steps, ← ih runs]
          simp only [List.mem_append, exists_or, first, false_or]

theorem not_mem_events {event : Event} (other : event.isOfRun = false) : event ∉ events dictionary fuel machine := by
  intro member
  rw [events_isOfRun dictionary fuel machine event member] at other
  cases other

end Machine

theorem Session.events_isOfSession (session : Session) (token : Token) :
    ∀ event ∈ session.events token, event.isOfSession = true := by
  intro event member
  unfold Session.events at member
  split at member
  · rw [List.mem_singleton.mp member, Event.isOfSession]
  · rcases List.mem_append.mp member with moves | failed
    · split at moves
      · rw [List.mem_singleton.mp moves, Event.isOfSession]
      · split at moves
        · rw [List.mem_singleton.mp moves, Event.isOfSession]
        · cases moves
    · obtain ⟨reason, _, rfl⟩ := Option.map_eq_some_iff.mp (Option.mem_toList.mp failed)
      rfl

namespace Definitions

@[simp]
theorem mem_events (definitions : Definitions) (event : Event) :
    event ∈ definitions.events ↔ ∃ name ∈ definitions, Event.adding name = event := by
  simp only [events, List.mem_map, Std.ExtTreeMap.mem_keys]

theorem countP_events (definitions : Definitions) : definitions.events.countP Event.isAdding = definitions.size := by
  have all : ∀ event ∈ definitions.events, event.isAdding = true := by
    intro event member
    obtain ⟨name, _, rfl⟩ := (mem_events definitions event).mp member
    rfl
  rw [List.countP_eq_length.mpr all, events, List.length_map, Std.ExtTreeMap.length_keys]

end Definitions

namespace Interpreter

variable {interpreter : Interpreter} {fuel : Nat} {token : Token} {reply : Reply}

/-- The events of a token are about what it does. The tokens that they name are those that its run takes, with
what is still pending; an unknown word is one that it fails for; and a word that they do not name is what it was.
Added words stay if a definition is reported and are gone if a removal is, and either report gives their number. -/
structure Told (interpreter : Interpreter) (token : Token) (reply : Reply) (events : List Event) : Prop where
  executes : ∀ executed pending, .executing executed pending ∈ events ↔
    ∃ run, interpreter.started? token = some run ∧
      ∃ reached, Machine.Reaches run.1 run.2 reached ∧ reached.agenda = executed :: pending
  fails : ∀ name, (∃ dropped, .unknownWord name dropped ∈ events) ↔ reply.fault = some (.unknownWord name)
  discards : ∀ name fault, .discarding name fault ∈ events → reply.fault = some fault
  keeps : ∀ name, .adding name ∉ events →
    reply.interpreter.dictionary.find? name = interpreter.dictionary.find? name
  adds : ∀ name, .adding name ∈ events →
    (∃ defined, .defined defined (events.countP Event.isAdding) ∈ events ∧
      ∃ action, reply.interpreter.dictionary.find? name = some (.defined name action)) ∨
    (.removed (events.countP Event.isAdding) ∈ events ∧ reply.interpreter.dictionary.find? name = none)

/-- What is reported of a session says nothing about runs and words. -/
theorem Told.after_session {earlier events : List Event} (told : interpreter.Told token reply events)
    (ofSession : ∀ event ∈ earlier, event.isOfSession = true) :
    interpreter.Told token reply (earlier ++ events) := by
  have absent : ∀ event, event.isOfSession = false → event ∉ earlier := by
    intro event other member
    rw [ofSession event member] at other
    cases other
  have mem_iff : ∀ event, event.isOfSession = false → (event ∈ earlier ++ events ↔ event ∈ events) := by
    intro event other
    simp only [List.mem_append, absent event other, false_or]
  have sameCount : (earlier ++ events).countP Event.isAdding = events.countP Event.isAdding := by
    rw [List.countP_append, Event.countP_isAdding_eq_zero fun name => absent (.adding name) rfl, Nat.zero_add]
  constructor
  · intro executed pending
    rw [mem_iff _ rfl]
    exact told.executes executed pending
  · intro name
    simp only [fun dropped => mem_iff (.unknownWord name dropped) rfl]
    exact told.fails name
  · intro name fault
    rw [mem_iff _ rfl]
    exact told.discards name fault
  · intro name
    rw [mem_iff _ rfl]
    exact told.keeps name
  · intro name
    simp only [sameCount, mem_iff (.adding name) rfl, mem_iff (.removed _) rfl,
      fun defined => mem_iff (.defined defined (events.countP Event.isAdding)) rfl]
    exact told.adds name

theorem told_collected {events : List Event} (idle : interpreter.started? token = none)
    (same : reply.interpreter.dictionary = interpreter.dictionary)
    (ordinary : ∀ name, reply.fault ≠ some (.unknownWord name))
    (ofSession : ∀ event ∈ events, event.isOfSession = true) : interpreter.Told token reply events := by
  have told : interpreter.Told token reply [] := by constructor <;> simp [idle, same, ordinary]
  simpa only [List.append_nil] using told.after_session ofSession

theorem told_discarded (session : Session) (reason : Reason) (idle : interpreter.started? token = none) :
    interpreter.Told token (interpreter.discard session reason)
      [.discarding session.name? (.incompleteDefinition reason.text)] := by
  constructor <;> simp [idle, discard]

theorem told_definition (session : Session) (definitions : Definitions) (idle : interpreter.started? token = none) :
    interpreter.Told token
      { interpreter := { interpreter with
          dictionary := interpreter.dictionary.install definitions.toList
          activity := .executing session.labels } }
      (.defined session.name? definitions.size :: definitions.events) := by
  have count : List.countP Event.isAdding (.defined session.name? definitions.size :: definitions.events) =
      definitions.size := by
    rw [List.countP_cons_of_neg (by simp [Event.isAdding]), definitions.countP_events]
  constructor
  · simp [idle]
  · simp
  · simp
  · intro name absent
    have notDefined : name ∉ definitions := by simpa using absent
    rw [Dictionary.find?_install, Std.ExtTreeMap.getElem?_eq_none notDefined]
  · intro name member
    have isDefined : name ∈ definitions := by simpa using member
    obtain ⟨action, found⟩ := Option.isSome_iff_exists.mp (Std.ExtTreeMap.mem_iff_isSome_getElem?.mp isDefined)
    refine .inl ⟨session.name?, ?_, action, ?_⟩
    · rw [count]
      exact List.mem_cons_self ..
    · rw [Dictionary.find?_install, found]

theorem told_run {first : Machine} {ending : Ending}
    (starts : interpreter.started? token = some (interpreter.dictionary, first))
    (ends : first.run interpreter.dictionary fuel = some ending) :
    interpreter.Told token (interpreter.settle interpreter.activity ending)
      (Machine.events interpreter.dictionary fuel first) := by
  constructor
  · intro executed pending
    simp only [starts, Option.some.injEq, exists_eq_left', Machine.executing_mem_events ends]
  · exact Machine.unknownWord_mem_events ends
  · intro name fault member
    exact absurd member (Machine.not_mem_events rfl)
  · intro name _
    rfl
  · intro name member
    exact absurd member (Machine.not_mem_events rfl)

/-- The helpers of a conditional are added before it is run and gone afterwards. -/
theorem told_decision (helpers : Definitions) {first : Machine} {ending : Ending} {activity : Activity}
    (starts : interpreter.started? token = some (interpreter.dictionary.install helpers.toList, first))
    (ends : first.run (interpreter.dictionary.install helpers.toList) fuel = some ending) :
    interpreter.Told token
      { interpreter :=
          { stack := ending.stack
            dictionary := (interpreter.dictionary.install helpers.toList).eraseAll helpers.keys
            activity }
        printed := ending.printed
        fault := ending.fault }
      (helpers.events ++ Machine.events (interpreter.dictionary.install helpers.toList) fuel first ++
        [.removed helpers.size]) := by
  have others (event : Event) (other : event.isOfRun = false) :
      event ∉ Machine.events (interpreter.dictionary.install helpers.toList) fuel first :=
    Machine.not_mem_events other
  constructor
  · intro executed pending
    simp [starts, Machine.executing_mem_events ends]
  · intro name
    simp [Machine.unknownWord_mem_events ends]
  · intro name fault member
    simp [others (.discarding name fault) rfl] at member
  · intro name absent
    have notHelper : name ∉ helpers := by simpa [others (.adding name) rfl] using absent
    simp [Dictionary.find?_eraseAll, Dictionary.find?_install, notHelper]
  · intro name member
    have helper : name ∈ helpers := by simpa [others (.adding name) rfl] using member
    refine .inr ⟨?_, ?_⟩
    · have counted := Event.countP_isAdding_eq_zero fun name => others (.adding name) rfl
      simp [List.countP_append, helpers.countP_events, counted, Event.isAdding]
    · simp [Dictionary.find?_eraseAll, helper]

theorem told_outside {labels : Labels} (executing : interpreter.activity = .executing labels)
    (replied : interpreter.executeOutside fuel labels token = some reply) :
    interpreter.Told token reply (interpreter.executeOutsideEvents fuel labels token) := by
  have starts : interpreter.started? token =
      if token.mark? = some .colon ∨ token.mark? = some .ifMark then none
      else some (interpreter.dictionary, ⟨interpreter.stack, [token], ""⟩) := by
    simp only [started?, executing]
  unfold executeOutside at replied
  split at replied
  next colon =>
    cases replied
    simp only [executeOutsideEvents, colon]
    exact told_collected (by simp only [starts, colon, true_or, if_true]) rfl (by simp [become])
      (by simp [Event.isOfSession])
  next ifMark =>
    cases replied
    simp only [executeOutsideEvents, ifMark]
    exact told_collected (by simp only [starts, ifMark, or_true, if_true]) rfl (by simp [become])
      ((Session.anonymous labels).events_isOfSession token)
  next noColon noIf =>
    rw [if_neg (not_or_intro noColon noIf)] at starts
    obtain ⟨ending, reaches, rfl⟩ := Option.map_eq_some_iff.mp replied
    unfold executeOutsideEvents
    split
    next colon => exact absurd colon noColon
    next ifMark => exact absurd ifMark noIf
    next => exact told_run starts reaches

theorem told_inDefinition {session : Session} (recording : interpreter.activity = .recording session)
    (replied : interpreter.executeInDefinition session token = reply) :
    interpreter.Told token reply (executeInDefinitionEvents session token) := by
  have idle : interpreter.started? token = none := by simp only [started?, recording]
  unfold executeInDefinition at replied
  split at replied
  next semicolon =>
    simp only [executeInDefinitionEvents, semicolon, endDefinitionEvents]
    unfold endDefinition at replied
    cases completes : session.complete with
    | error reason =>
        simp only [completes] at replied
        exact replied ▸ told_discarded session reason idle
    | ok definitions =>
        simp only [completes] at replied
        exact replied ▸ told_definition session definitions idle
  next colon =>
    subst replied
    simp only [executeInDefinitionEvents, colon]
    exact told_collected idle rfl (by simp [become]) (by simp [Event.isOfSession])
  next noSemicolon noColon =>
    subst replied
    unfold executeInDefinitionEvents
    split
    next semicolon => exact absurd semicolon noSemicolon
    next colon => exact absurd colon noColon
    next => exact told_collected idle rfl (by simp [become]) (session.events_isOfSession token)

theorem told_inConditional {session : Session} (collecting : interpreter.activity = .conditional session)
    (replied : interpreter.executeInConditional fuel session token = some reply) :
    interpreter.Told token reply (interpreter.executeInConditionalEvents fuel session token) := by
  have ofSession := session.events_isOfSession token
  simp only [executeInConditional] at replied
  simp only [executeInConditionalEvents]
  split at replied
  next ends =>
    rw [if_pos ends]
    unfold endConditional at replied
    unfold endConditionalEvents
    cases completes : (session.push token).complete with
    | error reason =>
        simp only [completes, Option.some.injEq] at replied
        subst replied
        rw [List.append_nil]
        refine told_collected ?_ rfl (by simp [discard]) ofSession
        simp only [started?, collecting, ends, if_true, completes]
    | ok definitions =>
        simp only [completes, runDecision, runTokens, Option.map_map] at replied
        obtain ⟨ending, reaches, rfl⟩ := Option.map_eq_some_iff.mp replied
        refine (told_decision ((session.push token).decision definitions).helpers ?_ reaches).after_session ofSession
        simp only [started?, collecting, ends, if_true, completes]
  next stays =>
    cases replied
    rw [if_neg stays, List.append_nil]
    refine told_collected ?_ rfl (by simp [become]) ofSession
    simp only [started?, collecting, if_neg stays]

theorem executeEvents_told (replied : interpreter.execute fuel token = some reply) :
    interpreter.Told token reply (interpreter.executeEvents fuel token) := by
  unfold execute at replied
  unfold executeEvents
  cases activity : interpreter.activity with
  | executing labels =>
      simp only [activity] at replied
      exact told_outside activity replied
  | recording session =>
      simp only [activity, Option.some.injEq] at replied
      exact told_inDefinition activity replied
  | conditional session =>
      simp only [activity] at replied
      exact told_inConditional activity replied

theorem executeAllEvents_cons {first : Reply} (executed : interpreter.execute fuel token = some first)
    (rest : List Token) :
    interpreter.executeAllEvents fuel (token :: rest) =
      interpreter.executeEvents fuel token ++
        if first.fault = none then first.interpreter.executeAllEvents fuel rest else [] := by
  obtain ⟨next, printed, _ | fault⟩ := first <;> simp [executeAllEvents, executed]

/-- Whether a later token is taken does not depend on how long the first one needed. -/
theorem takes_cons_iff {first : Reply} (executed : interpreter.execute fuel token = some first) {rest : List Token}
    {current : Interpreter} {taken : Token} :
    interpreter.Takes (token :: rest) current taken ↔
      current = interpreter ∧ taken = token ∨ first.fault = none ∧ first.interpreter.Takes rest current taken := by
  constructor
  · intro takes
    cases takes with
    | now => exact .inl ⟨rfl, rfl⟩
    | later otherwise succeeded takes =>
        have same := (steady_execute interpreter token).unique ⟨fuel, executed⟩ ⟨_, otherwise⟩
        subst same
        exact .inr ⟨succeeded, takes⟩
  · rintro (⟨rfl, rfl⟩ | ⟨succeeded, takes⟩)
    · exact .now current taken rest
    · exact .later executed succeeded takes

/-- Whatever is reported of a number of tokens is reported of one that is taken, and is about what this one does. -/
theorem log_tells_what_happens {tokens : List Token} (replied : interpreter.executeAll fuel tokens = some reply) :
    (∀ event, event ∈ interpreter.executeAllEvents fuel tokens ↔
      ∃ current token, interpreter.Takes tokens current token ∧ event ∈ current.executeEvents fuel token) ∧
    ∀ current token, interpreter.Takes tokens current token →
      ∃ answer, current.execute fuel token = some answer ∧
        current.Told token answer (current.executeEvents fuel token) := by
  induction tokens generalizing interpreter reply with
  | nil =>
      constructor
      · intro event
        constructor
        · rintro ⟨⟩
        · rintro ⟨_, _, ⟨⟩, _⟩
      · rintro _ _ ⟨⟩
  | cons token rest ih =>
      obtain ⟨first, executed, continues⟩ := executeAll_cons_cases replied
      have told := executeEvents_told executed
      rw [executeAllEvents_cons executed]
      simp only [takes_cons_iff executed]
      rcases continues with ⟨⟨fault, failed⟩, _⟩ | ⟨succeeded, second, followed, _⟩
      · simp [failed, and_assoc, executed, told]
      · obtain ⟨reported, toldRest⟩ := ih followed
        simp only [succeeded, if_true, true_and, List.mem_append, reported]
        constructor
        · intro event
          constructor
          · rintro (now | ⟨current, taken, takes, later⟩)
            · exact ⟨interpreter, token, .inl ⟨rfl, rfl⟩, now⟩
            · exact ⟨current, taken, .inr takes, later⟩
          · rintro ⟨current, taken, ⟨rfl, rfl⟩ | takes, about⟩
            · exact .inl about
            · exact .inr ⟨current, taken, takes, about⟩
        · rintro current taken (⟨rfl, rfl⟩ | takes)
          · exact ⟨first, executed, told⟩
          · exact toldRest current taken takes

end Interpreter

end Forth

import Forth.Proofs.Commands
import Forth.Proofs.Installation

/-! A definition is one transaction, whatever the labels are. Until it is closed it changes nothing but
itself; the token that closes it adds all of its words or, if they do not make up a definition, none.
Tokens that have been abandoned by a later colon have no part in it. -/

namespace Forth

/-- What the end of a session does to a dictionary. The words of a session that is complete are added,
each under its own name and for show unless it is a conditional, and no other entry changes; a session
that is not complete changes nothing and is told as a fault. -/
inductive Dictionary.Closes (dictionary : Dictionary) :
    Except Reason Definitions → Option Fault → Dictionary → Prop where
  | refused (reason : Reason) :
      Closes dictionary (.error reason) (some (.incompleteDefinition reason.text)) dictionary
  | installed {definitions : Definitions} {extended : Dictionary}
      (added : ∀ name action, definitions[name]? = some action → extended.find? name =
        some { name, action, description := "", signature := "", visible := !action.isConditional })
      (kept : ∀ name, definitions[name]? = none → extended.find? name = dictionary.find? name) :
      Closes dictionary (.ok definitions) none extended

theorem Dictionary.closes_install (dictionary : Dictionary) (definitions : Definitions) :
    dictionary.Closes (.ok definitions) none (dictionary.install definitions.toList) := by
  constructor
  · intro name action found
    rw [find?_install, found]
    rfl
  · intro name absent
    rw [find?_install, absent]

theorem Dictionary.Closes.of_ok {dictionary extended : Dictionary} {result : Except Reason Definitions}
    {definitions : Definitions} {fault : Option Fault} (closes : dictionary.Closes result fault extended)
    (completes : result = .ok definitions) :
    fault = none ∧ ∀ name, extended.find? name =
      ((definitions[name]?).map (Word.defined name)).or (dictionary.find? name) := by
  cases closes with
  | refused reason => cases completes
  | installed added kept =>
      cases completes
      refine ⟨rfl, ?_⟩
      intro name
      cases found : definitions[name]? with
      | none => exact kept name found
      | some action => exact added name action found

theorem Interpreter.endDefinition_closes (interpreter : Interpreter) (session : Session) :
    ∃ defined fault, interpreter.endDefinition session = { interpreter := defined, printed := "", fault } ∧
      defined.mode = .executing ∧ defined.stack = interpreter.stack ∧
      interpreter.dictionary.Closes session.complete fault defined.dictionary := by
  cases completes : session.complete with
  | error reason =>
      refine ⟨{ interpreter with activity := .executing session.labels }, _, ?_, rfl, rfl, .refused reason⟩
      simp only [endDefinition, completes, discard]
  | ok definitions =>
      refine ⟨{ interpreter with
        dictionary := interpreter.dictionary.install definitions.toList
        activity := .executing session.labels }, none, ?_, rfl, rfl, interpreter.dictionary.closes_install definitions⟩
      simp only [endDefinition, completes]

/-- A definition from its colon to its semicolon, with any labels and any tokens in between. Each token
before the semicolon is only recorded. The semicolon gives what a session gives that is opened at the
last colon and handed the tokens behind it: the words of the session are added all at once, or its fault
is returned and nothing has changed. -/
theorem definition_is_one_transaction (interpreter : Interpreter) {labels : Labels}
    (executing : interpreter.activity = .executing labels) {tokens : List Token} (unended : ";" ∉ tokens) :
    (∀ front, front ≠ [] → front <+: ":" :: tokens → ∃ session, ∀ fuel, interpreter.executeAll fuel front =
      some { interpreter := { interpreter with activity := .recording session }, printed := "", fault := none }) ∧
    ∀ abandoned last : List Token, ":" :: tokens = abandoned ++ ":" :: last → ":" ∉ last →
      ∃ before defined fault,
        (∀ fuel, interpreter.executeAll fuel abandoned = some { interpreter := before, printed := "", fault := none }) ∧
        (∀ fuel, interpreter.executeAll fuel (":" :: (tokens ++ [";"])) =
          some { interpreter := defined, printed := "", fault }) ∧
        defined.mode = .executing ∧ defined.stack = interpreter.stack ∧
        interpreter.dictionary.Closes ((Session.named before.activity.labels).pushAll last).complete fault
          defined.dictionary := by
  have goesOn : ∀ token ∈ tokens, token.mark? ≠ some .semicolon := by
    intro token member ends
    exact unended (Token.eq_semicolon ends ▸ member)
  refine ⟨?_, ?_⟩
  · intro front notEmpty before
    rcases List.prefix_cons_iff.mp before with nothing | ⟨recorded, rfl, early⟩
    · exact absurd nothing notEmpty
    · exact ⟨_, Interpreter.executeAll_begun executing fun token member => goesOn token (early.subset member)⟩
  · intro abandoned last splits noColon
    have noMark : ∀ token ∈ last, token.mark? ≠ some .colon := by
      intro token member colon
      exact noColon (Token.eq_colon colon ▸ member)
    -- The session that the semicolon ends is the one opened at the last colon, on the labels left then.
    obtain ⟨before, reached, sameSession⟩ : ∃ before : Interpreter,
        (∀ fuel, interpreter.executeAll fuel abandoned = some { interpreter := before }) ∧
        (Session.named labels).recordAll tokens = (Session.named before.activity.labels).pushAll last := by
      rcases List.cons_eq_append_iff.mp splits with ⟨rfl, same⟩ | ⟨earlier, rfl, rfl⟩
      · cases same
        refine ⟨interpreter, fun _ => rfl, ?_⟩
        rw [Session.recordAll_eq_pushAll noMark, executing]
        rfl
      · refine ⟨_, Interpreter.executeAll_begun executing fun token member => goesOn token (by simp [member]), ?_⟩
        exact Session.recordAll_append_colon noMark (.named labels) earlier
    have begun := Interpreter.executeAll_begun executing goesOn
    rw [sameSession] at begun
    obtain ⟨defined, fault, closed, inMode, sameStack, closes⟩ := Interpreter.endDefinition_closes
      { interpreter with activity := .recording ((Session.named before.activity.labels).pushAll last) }
      ((Session.named before.activity.labels).pushAll last)
    refine ⟨before, defined, fault, reached, ?_, inMode, sameStack, closes⟩
    intro fuel
    rw [← List.cons_append, Interpreter.executeAll_append, begun, Option.bind_some, Reply.andThen_quiet,
      Interpreter.executeAll_singleton, Interpreter.execute_semicolon, closed]

/-- With a label that comes back: a definition that is spoilt and abandoned, and one with a conditional
under the label that the first one had drawn. -/
theorem definition_is_one_transaction_abandoned :
    let interpreter : Interpreter := { stack := [.number 7], activity := .executing (.cycling ["d", "x"]) }
    let tokens := ["w", "then", ":", "pick", "if", "1", "else", "2", "then"]
    ";" ∉ tokens ∧ ∃ defined : Interpreter,
      (∀ fuel, interpreter.executeAll fuel (":" :: (tokens ++ [";"])) = some { interpreter := defined }) ∧
      defined.stack = [.number 7] ∧ defined.dictionary.find? "w" = none ∧
      defined.dictionary.find? "pick" = some { name := "pick", action := .compiled ["d"] } ∧
      defined.dictionary.find? "d" = some { name := "d", action := .conditional ["1"] ["2"], visible := false } := by
  intro interpreter tokens
  have unended : ";" ∉ tokens := by decide
  obtain ⟨before, defined, fault, reached, replies, _, sameStack, closes⟩ :=
    (definition_is_one_transaction interpreter rfl unended).2 [":", "w", "then"]
      ["pick", "if", "1", "else", "2", "then"] rfl (by decide)
  have supply : some { Labels.cycling ["d", "x"] with definitions := 1 } = some before.activity.labels :=
    congrArg (Option.map fun reply : Reply => reply.interpreter.activity.labels) (reached 0)
  rw [← Option.some.inj supply] at closes
  obtain ⟨rfl, finds⟩ := closes.of_ok rfl
  exact ⟨unended, defined, replies, sameStack, (finds "w").trans (by decide +kernel),
    (finds "pick").trans (by decide +kernel), (finds "d").trans (by decide +kernel)⟩

end Forth

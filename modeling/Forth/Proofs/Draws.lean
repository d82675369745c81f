import Forth.Proofs.Commands
import Forth.Proofs.Sessions

/-! Which labels a command draws. A session draws one when it is opened, and one more for every `if`
until it is spoilt; nothing else draws any. So the supply of an interpreter only ever moves on, and
what is drawn later comes from further on in it. -/

namespace Forth

namespace Labels

/-- The supply after some more definitions and conditionals. -/
def advance (labels : Labels) (definitions conditionals : Nat) : Labels :=
  { labels with
    definitions := labels.definitions + definitions
    conditionals := labels.conditionals + conditionals }

theorem advance_advance (labels : Labels) (definitions conditionals moreDefinitions moreConditionals : Nat) :
    (labels.advance definitions conditionals).advance moreDefinitions moreConditionals =
      labels.advance (definitions + moreDefinitions) (conditionals + moreConditionals) := by
  simp only [advance, Nat.add_assoc]

end Labels

/-- The label of the conditional that the token opens. -/
def Session.conditionalDrawn (session : Session) (token : Token) : Option String :=
  if session.hasFailed = false ∧ token.mark? = some .ifMark then some session.labels.nextConditional else none

theorem Session.conditionalDrawn_of_ne {token : Token} (other : token.mark? ≠ some .ifMark) (session : Session) :
    session.conditionalDrawn token = none :=
  if_neg fun both => other both.2

theorem Session.labels_push_eq (session : Session) (token : Token) :
    (session.push token).labels = session.labels.skip (session.conditionalDrawn token).toList.length := by
  unfold push conditionalDrawn
  split
  next failed => simp only [failed, Bool.true_eq_false, false_and, if_false]; rfl
  next sound =>
    rw [Bool.not_eq_true] at sound
    simp only [sound, true_and]
    split
    next mark => rw [if_pos mark]; rfl
    next mark => rw [if_neg (by simp [mark])]; rfl
    next mark => rw [if_neg (by simp [mark])]; rfl
    next other _ _ => rw [if_neg other, labels_route]; rfl

theorem Session.hasFailed_of_append {session : Session} {front back : List Token}
    (sound : (session.pushAll (front ++ back)).hasFailed = false) : (session.pushAll front).hasFailed = false := by
  rw [pushAll_append] at sound
  cases failure : (session.pushAll front).failure with
  | none => simp only [hasFailed, failure, Option.isSome_none]
  | some reason => rwa [pushAll_failed failure] at sound

theorem Session.hasFailed_of_complete {session : Session} {definitions : Definitions}
    (completes : session.complete = .ok definitions) : session.hasFailed = false := by
  cases failure : session.failure with
  | none => simp only [hasFailed, failure, Option.isSome_none]
  | some reason => simp only [complete, failure, reduceCtorEq] at completes

/-- A session that is not spoilt has drawn a label for every `if`. -/
theorem Session.labels_pushAll_eq {session : Session} {tokens : List Token}
    (sound : (session.pushAll tokens).hasFailed = false) :
    (session.pushAll tokens).labels = session.labels.skip (Nesting.occurrences .ifMark tokens) := by
  induction tokens generalizing session with
  | nil => rfl
  | cons token tokens ih =>
      have start : session.hasFailed = false := @hasFailed_of_append session [] (token :: tokens) sound
      have later := @ih (session.push token) sound
      rw [labels_push_eq, conditionalDrawn] at later
      simp only [start, true_and] at later
      rw [Nesting.occurrences_cons, Nat.add_comm]
      split at later
      next mark => rwa [if_pos mark, ← Labels.skip_skip]
      next mark => rwa [if_neg mark, Nat.zero_add]

namespace Interpreter

/-- The label of the session that the token opens. -/
def definitionDrawn (interpreter : Interpreter) (token : Token) : Option String :=
  match interpreter.activity with
  | .executing labels =>
      if token.mark? = some .colon ∨ token.mark? = some .ifMark then some labels.nextDefinition else none
  | .recording session => if token.mark? = some .colon then some session.labels.nextDefinition else none
  | .conditional _ => none

/-- The label of the conditional that the token opens. Outside of definitions it is drawn after that of
the session. -/
def conditionalDrawn (interpreter : Interpreter) (token : Token) : Option String :=
  match interpreter.activity with
  | .executing labels => if token.mark? = some .ifMark then some labels.afterDefinition.nextConditional else none
  | .recording session => session.conditionalDrawn token
  | .conditional session => session.conditionalDrawn token

/-- All labels that the token draws, in order. -/
def draws (interpreter : Interpreter) (token : Token) : List String :=
  (interpreter.definitionDrawn token).toList ++ (interpreter.conditionalDrawn token).toList

section Cases

variable {interpreter : Interpreter} {labels : Labels} {session : Session} {token : Token}

theorem draws_outside_colon (executing : interpreter.activity = .executing labels)
    (colon : token.mark? = some .colon) : interpreter.draws token = [labels.nextDefinition] := by
  simp [draws, definitionDrawn, conditionalDrawn, executing, colon]

theorem draws_outside_if (executing : interpreter.activity = .executing labels)
    (isIf : token.mark? = some .ifMark) :
    interpreter.draws token = [labels.nextDefinition, labels.afterDefinition.nextConditional] := by
  simp [draws, definitionDrawn, conditionalDrawn, executing, isIf]

theorem draws_outside_other (executing : interpreter.activity = .executing labels)
    (noColon : token.mark? ≠ some .colon) (noIf : token.mark? ≠ some .ifMark) : interpreter.draws token = [] := by
  simp [draws, definitionDrawn, conditionalDrawn, executing, noColon, noIf]

theorem draws_recording_colon (recording : interpreter.activity = .recording session)
    (colon : token.mark? = some .colon) : interpreter.draws token = [session.labels.nextDefinition] := by
  simp [draws, definitionDrawn, conditionalDrawn, recording, colon, Session.conditionalDrawn]

theorem draws_recording_other (recording : interpreter.activity = .recording session)
    (noColon : token.mark? ≠ some .colon) : interpreter.draws token = (session.conditionalDrawn token).toList := by
  simp [draws, definitionDrawn, conditionalDrawn, recording, noColon]

theorem draws_conditional (collecting : interpreter.activity = .conditional session) :
    interpreter.draws token = (session.conditionalDrawn token).toList := by
  simp [draws, definitionDrawn, conditionalDrawn, collecting]

end Cases

theorem labels_runTokens {interpreter : Interpreter} {fuel : Nat} {tokens : List Token} {reply : Reply}
    (replied : interpreter.runTokens fuel tokens = some reply) :
    reply.interpreter.activity = interpreter.activity := by
  obtain ⟨ending, _, rfl⟩ := Option.map_eq_some_iff.mp replied
  rfl

theorem labels_endDefinition (interpreter : Interpreter) (session : Session) :
    (interpreter.endDefinition session).interpreter.activity.labels = session.labels := by
  unfold endDefinition
  split <;> rfl

theorem labels_endConditional {interpreter : Interpreter} {session : Session} {fuel : Nat} {reply : Reply}
    (replied : interpreter.endConditional fuel session = some reply) :
    reply.interpreter.activity.labels = session.labels := by
  unfold endConditional at replied
  split at replied
  · cases replied
    rfl
  · obtain ⟨inner, ran, rfl⟩ := Option.map_eq_some_iff.mp replied
    exact congrArg Activity.labels (labels_runTokens ran)

/-- A command moves the supply on by what it draws. -/
theorem labels_execute {interpreter : Interpreter} {fuel : Nat} {token : Token} {reply : Reply}
    (replied : interpreter.execute fuel token = some reply) :
    reply.interpreter.activity.labels = interpreter.activity.labels.advance
      (interpreter.definitionDrawn token).toList.length (interpreter.conditionalDrawn token).toList.length := by
  cases activity : interpreter.activity with
  | executing labels =>
      simp only [execute, activity, executeOutside] at replied
      simp only [definitionDrawn, conditionalDrawn, activity]
      split at replied
      next mark =>
        cases replied
        simp only [mark]
        rfl
      next mark =>
        cases replied
        simp only [mark, become, Activity.labels, Session.labels_push_eq, Session.conditionalDrawn]
        rfl
      next noColon noIf =>
        rw [labels_runTokens replied, activity, if_neg noIf, if_neg (not_or.mpr ⟨noColon, noIf⟩)]
        rfl
  | recording session =>
      simp only [execute, activity, executeInDefinition, Option.some.injEq] at replied
      simp only [definitionDrawn, conditionalDrawn, activity]
      split at replied
      next mark =>
        rw [← replied, labels_endDefinition, Session.conditionalDrawn_of_ne (by simp [mark])]
        simp only [mark]
        rfl
      next mark =>
        rw [← replied, if_pos mark, Session.conditionalDrawn_of_ne (by simp [mark])]
        rfl
      next _ noColon =>
        rw [← replied, if_neg noColon]
        exact session.labels_push_eq token
  | conditional session =>
      simp only [execute, activity, executeInConditional] at replied
      simp only [definitionDrawn, conditionalDrawn, activity]
      split at replied
      next => rw [labels_endConditional replied, Session.labels_push_eq]; rfl
      next =>
        cases replied
        exact session.labels_push_eq token

end Interpreter

end Forth

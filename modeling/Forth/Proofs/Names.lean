import Forth.Proofs.Draws
import Forth.Proofs.Marks
import Forth.Proofs.Reachability

/-! The names in a dictionary that a host can come to. No mark is ever among them, so a mark that has
nothing to match is an unknown word; and no label that is drawn later is among them, because the supply
only moves on. -/

namespace Forth

/-- A dictionary of well named words has none under a mark. -/
theorem Dictionary.WellNamed.find?_mark {dictionary : Dictionary} {limit : Nat}
    (wellNamed : dictionary.WellNamed limit) {token : Token} {mark : Mark} (isMark : token.mark? = some mark) :
    dictionary.find? token = none := by
  cases found : dictionary.find? token with
  | none => rfl
  | some word =>
      obtain ⟨own, ⟨_, _, isName⟩ | ⟨_, _, number, _, label⟩⟩ := wellNamed token word found
      · rw [own] at isName
        rw [Token.mark?_of_isName isName] at isMark
        cases isMark
      · rw [← own, label, Labels.mark?_numberedConditional] at isMark
        cases isMark

namespace Interpreter

variable {interpreter : Interpreter} {fuel : Nat} {reply : Reply}

theorem labels_executeAll {tokens : List Token} (replied : interpreter.executeAll fuel tokens = some reply) :
    ∃ definitions conditionals,
      reply.interpreter.activity.labels = interpreter.activity.labels.advance definitions conditionals := by
  induction tokens generalizing interpreter reply with
  | nil =>
      cases replied
      exact ⟨0, 0, rfl⟩
  | cons token tokens ih =>
      obtain ⟨first, executed, ⟨_, rfl⟩ | ⟨_, second, executedRest, rfl⟩⟩ := executeAll_cons_cases replied
      · exact ⟨_, _, labels_execute executed⟩
      · obtain ⟨definitions, conditionals, later⟩ := ih executedRest
        rw [labels_execute executed, Labels.advance_advance] at later
        exact ⟨_, _, later⟩

theorem labels_perform {command : Command} (replied : interpreter.perform fuel command = some reply) :
    ∃ definitions conditionals,
      reply.interpreter.activity.labels = interpreter.activity.labels.advance definitions conditionals := by
  rcases perform_cases replied with taken | ⟨stack, same⟩ | same
  · exact labels_executeAll taken
  · exact ⟨0, 0, by rw [same]; rfl⟩
  · exact ⟨0, 0, by rw [same]; rfl⟩

/-- What a host can come to from an interpreter, by any commands and whether or not they fail. -/
inductive Reaches (start : Interpreter) : Interpreter → Prop where
  | start : Reaches start start
  | step {interpreter : Interpreter} {fuel : Nat} {command : Command} {reply : Reply}
      (reached : Reaches start interpreter) (replied : interpreter.perform fuel command = some reply) :
      Reaches start reply.interpreter

/-- The supply only moves on. -/
theorem Reaches.labels {start later : Interpreter} (reaches : start.Reaches later) :
    ∃ definitions conditionals,
      later.activity.labels = start.activity.labels.advance definitions conditionals := by
  induction reaches with
  | start => exact ⟨0, 0, rfl⟩
  | step _ replied moved =>
      obtain ⟨definitions, conditionals, earlier⟩ := moved
      obtain ⟨moreDefinitions, moreConditionals, later⟩ := labels_perform replied
      rw [earlier, Labels.advance_advance] at later
      exact ⟨_, _, later⟩

/-- Every conditional gets its label from the supply as it stands. -/
theorem ofConditional_of_conditionalDrawn {token : Token} {label : String}
    (drawn : interpreter.conditionalDrawn token = some label) :
    ∃ definitions, label =
      interpreter.activity.labels.ofConditional definitions interpreter.activity.labels.conditionals := by
  have inSession {session : Session} (drawn : session.conditionalDrawn token = some label) :
      label = session.labels.nextConditional := by
    unfold Session.conditionalDrawn at drawn
    split at drawn <;> cases drawn
    rfl
  cases activity : interpreter.activity with
  | executing labels =>
      simp only [conditionalDrawn, activity] at drawn
      split at drawn <;> cases drawn
      exact ⟨_, rfl⟩
  | recording session =>
      simp only [conditionalDrawn, activity] at drawn
      exact ⟨_, inSession drawn⟩
  | conditional session =>
      simp only [conditionalDrawn, activity] at drawn
      exact ⟨_, inSession drawn⟩

theorem ofDefinition_of_definitionDrawn {token : Token} {label : String}
    (drawn : interpreter.definitionDrawn token = some label) :
    ∃ definitions conditionals, label = interpreter.activity.labels.ofDefinition definitions conditionals := by
  cases activity : interpreter.activity with
  | executing labels =>
      simp only [definitionDrawn, activity] at drawn
      split at drawn <;> cases drawn
      exact ⟨_, _, rfl⟩
  | recording session =>
      simp only [definitionDrawn, activity] at drawn
      split at drawn <;> cases drawn
      exact ⟨_, _, rfl⟩
  | conditional session => simp only [definitionDrawn, activity, reduceCtorEq] at drawn

/-- Outside of definitions a mark that opens nothing is looked up like any other token. -/
theorem execute_stray {token : Token} {mark : Mark} (executing : interpreter.mode = .executing)
    (isMark : token.mark? = some mark) (opensNothing : mark ≠ .colon ∧ mark ≠ .ifMark)
    (unknown : interpreter.dictionary.find? token = none) :
    interpreter.execute (fuel + 1) token = some { interpreter, fault := some (.unknownWord token) } := by
  obtain ⟨stack, dictionary, labels | _ | _⟩ := interpreter
  · have runs : Machine.runTokens dictionary (fuel + 1) stack [token] =
        some ⟨stack, "", some (.unknownWord token)⟩ := by
      simp only [Machine.runTokens, Machine.run, Machine.step, Machine.executeToken,
        Token.ofNumeral?_of_mark isMark, unknown, Machine.fail]
    simp only [execute, executeOutside, isMark]
    split
    next colon => exact absurd (Option.some.inj colon) opensNothing.1
    next opens => exact absurd (Option.some.inj opens) opensNothing.2
    next => rw [runTokens_eq_settle, runs]; rfl
  · cases executing
  · cases executing

end Interpreter

/-- In an interpreter that a host has come to, every word stands under its own name, which is either a
proper name of a word for show or the label of a hidden conditional from before the next one. So what any
conditional draws later is new to the dictionary, what a session draws for itself is at least no hidden
word, and outside of definitions a semicolon, an `else` and a `then` are unknown words that change
nothing. -/
theorem reachable_dictionary_is_well_named {labels : Labels} {numbering : Nat → Nat}
    (reserved : labels.Reserved numbering) {interpreter : Interpreter} (reachable : interpreter.Reachable labels) :
    interpreter.dictionary.WellNamed (numbering interpreter.activity.labels.conditionals) ∧
    (∀ later token label, interpreter.Reaches later → later.conditionalDrawn token = some label →
      interpreter.dictionary.find? label = none) ∧
    (∀ later token label word, interpreter.Reaches later → later.definitionDrawn token = some label →
      interpreter.dictionary.find? label = some word → word.visible = true) ∧
    (interpreter.mode = .executing → ∀ token,
      token.mark? = some .semicolon ∨ token.mark? = some .elseMark ∨ token.mark? = some .thenMark →
        ∀ fuel, interpreter.execute (fuel + 1) token =
          some { interpreter, printed := "", fault := some (.unknownWord token) }) := by
  obtain ⟨supply, reservedSupply, begun, wellNamedBefore⟩ := reachable.ordered reserved
  have continues := begun.continues reservedSupply
  have wellNamed := wellNamedBefore.mono (reserved.monotone continues.notBefore)
  refine ⟨wellNamed, ?_, ?_, ?_⟩
  · intro later token label reaches drawn
    obtain ⟨definitions, conditionals, moved⟩ := reaches.labels
    obtain ⟨_, rfl⟩ := Interpreter.ofConditional_of_conditionalDrawn drawn
    rw [moved, Labels.advance, continues.reserved.ofConditional]
    exact wellNamed.find?_numberedConditional (reserved.monotone (Nat.le_add_right _ _))
  · intro later token label word reaches drawn found
    obtain ⟨definitions, conditionals, moved⟩ := reaches.labels
    obtain ⟨before, opened, rfl⟩ := Interpreter.ofDefinition_of_definitionDrawn drawn
    obtain ⟨own, ⟨visible, _⟩ | ⟨_, _, number, _, numbered⟩⟩ := wellNamed _ word found
    · exact visible
    · have noStem := continues.reserved.ofDefinition before opened
      rw [own, moved, Labels.advance] at numbered
      rw [numbered, Labels.hasConditionalStem_numberedConditional] at noStem
      cases noStem
  · intro executing token stray fuel
    rcases stray with isMark | isMark | isMark
    · exact Interpreter.execute_stray executing isMark (by decide) (wellNamed.find?_mark isMark)
    · exact Interpreter.execute_stray executing isMark (by decide) (wellNamed.find?_mark isMark)
    · exact Interpreter.execute_stray executing isMark (by decide) (wellNamed.find?_mark isMark)

/-- After a definition with a conditional: its label is taken, the next one is new, and a stray `ELSE` is
unknown. -/
theorem reachable_dictionary_is_well_named_branching :
    ∃ interpreter : Interpreter, interpreter.Reachable .standard ∧ interpreter.mode = .executing ∧
      interpreter.dictionary.find? "<if-0>" ≠ none ∧
      interpreter.dictionary.WellNamed interpreter.activity.labels.conditionals ∧
      interpreter.conditionalDrawn "if" = some "<if-1>" ∧ interpreter.dictionary.find? "<if-1>" = none ∧
      interpreter.execute 1 "ELSE" = some { interpreter, fault := some (.unknownWord "ELSE") } := by
  have runs : ((Interpreter.standard.perform 9 (.line ": pick if 1 else 2 then ;")).map fun reply =>
      (reply.interpreter.mode, (reply.interpreter.dictionary.find? "<if-0>").isSome,
        reply.interpreter.conditionalDrawn "if")) = some (.executing, true, some "<if-1>") := by
    decide +kernel
  obtain ⟨reply, typed, same⟩ := Option.map_eq_some_iff.mp runs
  simp only [Prod.mk.injEq] at same
  obtain ⟨executing, there, drawn⟩ := same
  have start : Interpreter.standard.Reachable .standard :=
    @Interpreter.Reachable.start .standard Vocabulary.groups fun _ member => member
  have reachable := start.step typed
  obtain ⟨wellNamed, fresh, _, stray⟩ := reachable_dictionary_is_well_named Labels.reserved_standard reachable
  exact ⟨reply.interpreter, reachable, executing, Option.isSome_iff_ne_none.mp there, wellNamed, drawn,
    fresh _ "if" _ .start drawn, stray executing "ELSE" (.inr (.inl (by decide))) 0⟩

end Forth

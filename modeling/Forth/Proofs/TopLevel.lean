import Forth.Proofs.Agreement
import Forth.Proofs.Compilation

/-! Code outside of definitions. Every conditional typed there gets a session of its own, whose words
are gone when it has run. Whether a body is typed token by token or defined and then called makes no
difference to the stack, to what is printed or to the fault, as long as the labels drawn on the way
are new. -/

namespace Forth

open Body (Spelled)

namespace Draft

/-- A session with nothing open is ready to run its body with its conditionals at hand. -/
theorem decision_session (draft : Draft) (distinct : draft.keys.Nodup) {name : String}
    (hasName : draft.name = some name) (apart : name ∉ draft.completed) :
    draft.session.decision (draft.completed.insert name (.compiled draft.body)) = ⟨draft.body, draft.completed⟩ := by
  simp only [Session.decision, name?_session distinct, hasName, Std.ExtTreeMap.getElem?_insert_self,
    erase_insert draft.completed apart]

end Draft

namespace Session

/-- Inside of a conditional its session is neither spoilt nor closed. -/
theorem anonymous_open {labels : Labels} {ifToken : Token} {inside front : List Token} {conditionals : Nat}
    (ifMark : ifToken.mark? = some .ifMark) (isInside : Nesting.Inside inside)
    (distinct : (labels.forSession conditionals).Nodup)
    (few : Nesting.occurrences .ifMark (ifToken :: inside) ≤ conditionals) (before : front <+: inside) :
    ((anonymous labels).pushAll (ifToken :: front)).hasFailed = false ∧
      ((anonymous labels).pushAll (ifToken :: front)).depth ≠ 0 := by
  obtain ⟨branch, opened, reads⟩ := isInside front before
  have readsAll : Nesting.readAll (Draft.anonymous labels).branches (ifToken :: front) = some (branch :: opened) := by
    rw [Nesting.readAll, Nesting.read_if ifMark, Option.bind_some]
    exact reads
  obtain ⟨next, pushed, branches, _⟩ := Draft.pushAll_of_readAll (Option.some_ne_none _) readsAll
  have fewer := Nat.le_trans (Nesting.occurrences_le .ifMark (before.sublist.cons_cons ifToken)) few
  have collected : (anonymous labels).pushAll (ifToken :: front) = next.session :=
    Opening.anonymous.pushAll_session distinct fewer pushed
  rw [collected, Draft.depth_session, branches]
  exact ⟨rfl, Nat.succ_ne_zero _⟩

theorem anonymous_spelled {labels : Labels} {body : Body} {spelling : List Token} (spelled : Spelled body spelling)
    (distinct : (labels.forSession body.branches).Nodup) :
    (anonymous labels).pushAll spelling = ((Draft.anonymous labels).absorb body).session :=
  Opening.anonymous.pushAll_session distinct (Nat.le_of_eq spelled.occurrences_if)
    (Draft.pushAll_spelled spelled (.inr (Option.some_ne_none _)))

end Session

namespace Interpreter

/-- Running a conditional leaves the dictionary as it was. -/
theorem runDecision_fresh (fuel : Nat) (interpreter : Interpreter) {decision : Decision}
    (fresh : ∀ name ∈ decision.helpers, interpreter.dictionary.find? name = none) :
    interpreter.runDecision fuel decision =
      (Machine.runTokens (interpreter.dictionary.install decision.helpers.toList) fuel interpreter.stack
        decision.body).map (interpreter.settle interpreter.activity) := by
  simp only [runDecision, runTokens, Option.map_map]
  congr 1
  funext ending
  simp only [Function.comp_apply, Dictionary.eraseAll_install fresh]
  rfl

/-- A conditional with all its tokens runs its code with the words made for it at hand. -/
theorem endConditional_eq_runDecision {labels : Labels} {block : Body}
    (distinct : (labels.forSession block.branches).Nodup) (fuel : Nat) (interpreter : Interpreter) :
    interpreter.endConditional fuel ((Draft.anonymous labels).absorb block).session =
      runDecision fuel { interpreter with activity := .executing (labels.afterSession block.branches) }
        ⟨block.flat labels.afterDefinition, block.conditionals labels.afterDefinition⟩ := by
  let absorbed := (Draft.anonymous labels).absorb block
  have complete : absorbed.session.complete =
      .ok (absorbed.completed.insert labels.nextDefinition (.compiled absorbed.body)) :=
    Draft.complete_named rfl rfl
  have apart : labels.nextDefinition ∉ absorbed.completed := fun member =>
    (List.nodup_cons.mp distinct).1 (Body.mem_conditionals member)
  have decides := Draft.decision_session absorbed (List.pairwise_singleton _ _) rfl apart
  simp only [endConditional, absorbed] at complete decides ⊢
  simp only [complete, decides]
  rfl

/-- What a conditional with all its tokens comes to. -/
theorem endConditional_absorbed {interpreter : Interpreter} {labels : Labels} {block : Body}
    (distinct : (labels.forSession block.branches).Nodup)
    (fresh : ∀ label ∈ labels.afterDefinition.upcoming block.branches,
      interpreter.dictionary.find? label = none) (fuel : Nat) :
    interpreter.endConditional fuel ((Draft.anonymous labels).absorb block).session =
      (Machine.runTokens
        (interpreter.dictionary.install (block.conditionals labels.afterDefinition).toList) fuel
        interpreter.stack (block.flat labels.afterDefinition)).map
          (interpreter.settle (.executing (labels.afterSession block.branches))) := by
  rw [endConditional_eq_runDecision distinct]
  exact runDecision_fresh fuel _ fun name member => fresh name (Body.mem_conditionals member)

section Blocks

variable {interpreter : Interpreter} {labels : Labels} {ifToken : Token} {inside : List Token} {conditionals : Nat}
variable (executing : interpreter.activity = .executing labels) (ifMark : ifToken.mark? = some .ifMark)
  (isInside : Nesting.Inside inside) (distinct : (labels.forSession conditionals).Nodup)
  (few : Nesting.occurrences .ifMark (ifToken :: inside) ≤ conditionals)
include executing ifMark isInside distinct few

/-- Outside of definitions the tokens of a conditional are collected until it is closed. -/
theorem executeAll_inside (fuel : Nat) :
    interpreter.executeAll fuel (ifToken :: inside) =
      some { interpreter := { interpreter with
        activity := .conditional ((Session.anonymous labels).pushAll (ifToken :: inside)) } } := by
  have opens : interpreter.execute fuel ifToken =
      some { interpreter := { interpreter with
        activity := .conditional ((Session.anonymous labels).push ifToken) } } := by
    simp only [execute, executing, executeOutside, ifMark, become]
  have collects := executeAll_collecting fuel interpreter ((Session.anonymous labels).push ifToken)
    fun _ => Session.anonymous_open ifMark isInside distinct few
  rw [executeAll_cons, opens, Option.bind_some, Reply.andThen_quiet, collects]
  rfl

/-- The token after them ends the conditional if it spoils or closes it. -/
theorem executeAll_inside_last (fuel : Nat) (last : Token) :
    interpreter.executeAll fuel (ifToken :: (inside ++ [last])) =
      let extended := (Session.anonymous labels).pushAll (ifToken :: (inside ++ [last]))
      if extended.hasFailed || extended.depth = 0 then interpreter.endConditional fuel extended
      else some { interpreter := { interpreter with activity := .conditional extended } } := by
  have extended : (Session.anonymous labels).pushAll (ifToken :: (inside ++ [last])) =
      ((Session.anonymous labels).pushAll (ifToken :: inside)).push last :=
    Session.pushAll_append (.anonymous labels) (ifToken :: inside) [last]
  rw [← List.cons_append, executeAll_append, executeAll_inside executing ifMark isInside distinct few,
    Option.bind_some, Reply.andThen_quiet, executeAll_singleton, List.cons_append, extended]
  rfl

end Blocks

/-- A conditional typed outside of any definition runs at its last token. -/
theorem executeAll_block {interpreter : Interpreter} {labels : Labels} {block : Body} {ifToken thenToken : Token}
    {inside : List Token} (executing : interpreter.activity = .executing labels)
    (ifMark : ifToken.mark? = some .ifMark) (isInside : Nesting.Inside inside)
    (spelled : Spelled block (ifToken :: (inside ++ [thenToken])))
    (distinct : (labels.forSession block.branches).Nodup) (fuel : Nat) :
    interpreter.executeAll fuel (ifToken :: (inside ++ [thenToken])) =
      interpreter.endConditional fuel ((Draft.anonymous labels).absorb block).session := by
  have few : Nesting.occurrences .ifMark (ifToken :: inside) ≤ block.branches := by
    rw [← spelled.occurrences_if]
    exact Nesting.occurrences_le .ifMark ((List.sublist_append_left inside [thenToken]).cons_cons ifToken)
  have closed : ((Draft.anonymous labels).absorb block).session.depth = 0 := rfl
  rw [executeAll_inside_last executing ifMark isInside distinct few]
  simp only [Session.anonymous_spelled spelled distinct, closed, decide_true, Bool.or_true, if_true]

end Interpreter

/-- What can be told from a reply about the code that was run. -/
def Reply.ending (reply : Reply) : Ending := ⟨reply.interpreter.stack, reply.printed, reply.fault⟩

namespace Interpreter

theorem ending_andThen (interpreter : Interpreter) (activity : Activity) (ending : Ending)
    (next : Interpreter → Option Reply) :
    ((interpreter.settle activity ending).andThen next).map Reply.ending =
      ending.andThen fun left => (next { interpreter with stack := left, activity }).map Reply.ending := by
  cases outcome : ending.fault with
  | some fault =>
      have fails : (interpreter.settle activity ending).fault = some fault := outcome
      rw [Reply.andThen_fault fails, Ending.andThen_fault outcome]
      rfl
  | none =>
      have succeeds : (interpreter.settle activity ending).fault = none := outcome
      rw [Reply.andThen_ok succeeds, Ending.andThen_ok outcome, Option.map_map, Option.map_map]
      rfl

/-- Tokens after code that was run. -/
theorem ending_executeAll (interpreter : Interpreter) (activity : Activity) (ran : Option Ending)
    (fuel : Nat) (rest : List Token) :
    (((ran.map (interpreter.settle activity)).bind fun reply =>
        reply.andThen fun next => next.executeAll fuel rest).map Reply.ending) =
      ran.bind fun ending => ending.andThen fun left =>
        (executeAll fuel { interpreter with stack := left, activity } rest).map Reply.ending := by
  cases ran with
  | none => rfl
  | some ending => exact ending_andThen interpreter activity ending fun next => next.executeAll fuel rest

theorem execute_plain {interpreter : Interpreter} {labels : Labels} {plain : Token}
    (executing : interpreter.activity = .executing labels) (noMark : plain.mark? = none) (fuel : Nat) :
    interpreter.execute fuel plain =
      (Machine.runTokens interpreter.dictionary fuel interpreter.stack [plain]).map
        (interpreter.settle interpreter.activity) := by
  simp only [execute, executing, executeOutside, noMark]
  rw [runTokens_eq_settle, executing]

end Interpreter

/-- Some word of the dictionary can put the token on the agenda. -/
def Dictionary.Calls (dictionary : Dictionary) (token : Token) : Prop :=
  ∃ name word, dictionary.find? name = some word ∧ token ∈ word.action.tokens

/-- Names that are in use neither in the dictionary nor in the code at hand. -/
structure Dictionary.Unused (dictionary : Dictionary) (code : List Token) (names : List String) : Prop where
  unknown : ∀ name ∈ names, dictionary.find? name = none
  unspelled : ∀ name ∈ names, name ∉ code
  uncalled : ∀ name ∈ names, ¬dictionary.Calls name

/-- Labels that can be drawn for the code at hand: they are distinct, no numerals, and not in use. -/
structure Dictionary.Admits (dictionary : Dictionary) (code : List Token) (labels : List String) : Prop
    extends dictionary.Unused code labels where
  distinct : labels.Nodup
  noNumerals : ∀ label ∈ labels, Number.ofNumeral? label = none

namespace Dictionary

variable {dictionary : Dictionary} {code part : List Token} {labels fewer : List String}

theorem Unused.mono (unused : dictionary.Unused code labels) (partOf : part ⊆ code) (fewerOf : fewer ⊆ labels) :
    dictionary.Unused part fewer where
  unknown name member := unused.unknown name (fewerOf member)
  unspelled name member inPart := unused.unspelled name (fewerOf member) (partOf inPart)
  uncalled name member := unused.uncalled name (fewerOf member)

theorem Admits.mono (admits : dictionary.Admits code labels) (partOf : part ⊆ code)
    (fewerOf : fewer.Sublist labels) :
    dictionary.Admits part fewer where
  toUnused := admits.toUnused.mono partOf fewerOf.subset
  distinct := fewerOf.nodup admits.distinct
  noNumerals label member := admits.noNumerals label (fewerOf.subset member)

theorem Unused.append {names : List String} (unused : dictionary.Unused code labels)
    (others : dictionary.Unused code names) : dictionary.Unused code (labels ++ names) where
  unknown name member := (List.mem_append.mp member).elim (unused.unknown name) (others.unknown name)
  unspelled name member := (List.mem_append.mp member).elim (unused.unspelled name) (others.unspelled name)
  uncalled name member := (List.mem_append.mp member).elim (unused.uncalled name) (others.uncalled name)

/-- Words that are not in use change nothing for the code at hand. -/
theorem Unused.eval_install {body : Body} {definitions : Definitions} (spelled : Spelled body code)
    (unused : dictionary.Unused code labels) (named : ∀ name ∈ definitions, name ∈ labels) (fuel : Nat)
    {stack : Stack} (numeric : stack.Numeric) :
    body.eval (dictionary.install definitions.toList) fuel stack = body.eval dictionary fuel stack := by
  have agree : dictionary.Agree (fun token => token ∉ definitions) (dictionary.install definitions.toList) := by
    constructor
    · intro token absent
      rw [find?_install, Std.ExtTreeMap.getElem?_eq_none absent]
    · intro token word _ found called member _ inDefinitions
      exact unused.uncalled called (named called inDefinitions) ⟨token, word, found, member⟩
  have covers : Covers (fun token => token ∉ definitions) code := by
    intro token member _ inDefinitions
    exact unused.unspelled token (named token inDefinitions) member
  exact (spelled.eval_agree agree covers fuel numeric).symm

end Dictionary

/-- A conditional that is run with its words installed means what it means without them. -/
theorem Body.sameOutcome_installed {dictionary : Dictionary} {block : Body} {labels : Labels} {spelling : List Token}
    (spelled : Spelled block spelling) (admits : dictionary.Admits spelling (labels.upcoming block.branches))
    {stack : Stack} (numeric : stack.Numeric) :
    SameOutcome
      (fun fuel => Machine.runTokens (dictionary.install (block.conditionals labels).toList) fuel stack
        (block.flat labels))
      fun fuel => block.eval dictionary fuel stack := by
  have holds : (dictionary.install (block.conditionals labels).toList).Holds (block.helpers labels) := by
    apply dictionary.holds_install
    · intro label member
      exact admits.noNumerals label ((block.helpers_labels labels).mem_iff.mp member)
    · intro label action member
      exact Body.getElem?_conditionals admits.distinct member
  have same := block.sameOutcome_flat holds stack
  simp only [admits.toUnused.eval_install spelled (fun _ => Body.mem_conditionals) _ numeric] at same
  exact same

namespace Body

/-- The labels drawn when the body is typed outside of definitions: every outermost conditional opens
a session. -/
def typedLabels : Body → Labels → List String
  | .done, _ => []
  | .token _ rest, labels => rest.typedLabels labels
  | .ifThen ifBody rest, labels =>
      labels.forSession (1 + ifBody.branches) ++ rest.typedLabels (labels.afterSession (1 + ifBody.branches))
  | .ifElse ifBody elseBody rest, labels =>
      labels.forSession (1 + ifBody.branches + elseBody.branches) ++
        rest.typedLabels (labels.afterSession (1 + ifBody.branches + elseBody.branches))

theorem eval_ifThen (dictionary : Dictionary) (fuel : Nat) (ifBody rest : Body) (stack : Stack) :
    (Body.ifThen ifBody rest).eval dictionary fuel stack =
      ((Body.ifThen ifBody .done).eval dictionary fuel stack).bind fun ending =>
        ending.andThen (rest.eval dictionary fuel) := by
  simp only [eval, Ending.andThen_done, Option.bind_fun_some]

theorem eval_ifElse (dictionary : Dictionary) (fuel : Nat) (ifBody elseBody rest : Body) (stack : Stack) :
    (Body.ifElse ifBody elseBody rest).eval dictionary fuel stack =
      ((Body.ifElse ifBody elseBody .done).eval dictionary fuel stack).bind fun ending =>
        ending.andThen (rest.eval dictionary fuel) := by
  simp only [eval, Ending.andThen_done, Option.bind_fun_some]

end Body

namespace Interpreter

variable {interpreter : Interpreter} {labels : Labels}

/-- A conditional typed before code whose meaning is known. -/
theorem sameOutcome_block {block rest : Body} {ifToken thenToken : Token} {inside restTokens : List Token}
    (executing : interpreter.activity = .executing labels) (numeric : interpreter.stack.Numeric)
    (ifMark : ifToken.mark? = some .ifMark) (isInside : Nesting.Inside inside)
    (spelled : Spelled block (ifToken :: (inside ++ [thenToken])))
    (admits : interpreter.dictionary.Admits (ifToken :: (inside ++ [thenToken])) (labels.forSession block.branches))
    (sameRest : ∀ left, left.Numeric → SameOutcome
      (fun fuel => (executeAll fuel { interpreter with
        stack := left, activity := .executing (labels.afterSession block.branches) } restTokens).map Reply.ending)
      fun fuel => rest.eval interpreter.dictionary fuel left) :
    SameOutcome
      (fun fuel => (interpreter.executeAll fuel (ifToken :: (inside ++ [thenToken]) ++ restTokens)).map Reply.ending)
      fun fuel => (block.eval interpreter.dictionary fuel interpreter.stack).bind fun ending =>
        ending.andThen (rest.eval interpreter.dictionary fuel) := by
  have conditionals := admits.mono (fun _ member => member) (List.sublist_cons_self ..)
  have blockRuns := executeAll_block executing ifMark isInside spelled admits.distinct
  have ends := endConditional_absorbed admits.distinct conditionals.unknown
  simp only [executeAll_append, blockRuns, ends, ending_executeAll]
  apply sameOutcome_andThen (Machine.steady_runTokens _ _ _) (block.steady_eval _ _)
    (fun left => (steady_executeAll _ restTokens).map Reply.ending) (rest.steady_eval _)
  · exact Body.sameOutcome_installed spelled conditionals numeric
  · intro middle settles
    obtain ⟨fuel, reached⟩ := settles
    exact sameRest middle.stack (block.eval_numeric numeric reached)

/-- Typing a body means what the body means. -/
theorem sameOutcome_typed {body : Body} {spelling : List Token} (spelled : Spelled body spelling)
    (executing : interpreter.activity = .executing labels) (numeric : interpreter.stack.Numeric)
    (admits : interpreter.dictionary.Admits spelling (body.typedLabels labels)) :
    SameOutcome (fun fuel => (interpreter.executeAll fuel spelling).map Reply.ending) fun fuel =>
      body.eval interpreter.dictionary fuel interpreter.stack := by
  -- The supply is generalized, since every outermost conditional opens a session on what is left of it.
  induction spelled generalizing interpreter labels with
  | done => exact .refl _
  | @token plain rest restTokens noMark _ ihRest =>
      have later := admits.mono (List.subset_cons_self plain restTokens) (List.Sublist.refl _)
      simp only [executeAll_cons, execute_plain executing noMark, ending_executeAll]
      apply sameOutcome_andThen (Machine.steady_runTokens _ _ _) (Machine.steady_runTokens _ _ _)
        (fun left => (steady_executeAll _ restTokens).map Reply.ending) (rest.steady_eval _) (.refl _)
      intro middle settles
      obtain ⟨fuel, reached⟩ := settles
      exact ihRest executing (Machine.run_numeric numeric reached) later
  | @ifThen ifBody rest ifTokens restTokens ifToken thenToken ifMark thenMark ifSpelled _ _ ihRest =>
      have splits : ifToken :: (ifTokens ++ thenToken :: restTokens) =
          ifToken :: (ifTokens ++ [thenToken]) ++ restTokens := by simp
      rw [splits] at admits ⊢
      simp only [Body.eval_ifThen _ _ ifBody rest]
      apply sameOutcome_block executing numeric ifMark (Nesting.inside_ifThen ifSpelled)
        (.ifThen ifMark thenMark ifSpelled .done)
        (admits.mono (List.subset_append_left ..) (List.sublist_append_left ..))
      intro left leftNumeric
      exact ihRest rfl leftNumeric (admits.mono (List.subset_append_right ..) (List.sublist_append_right ..))
  | @ifElse ifBody elseBody rest ifTokens elseTokens restTokens ifToken elseToken thenToken ifMark elseMark
      thenMark ifSpelled elseSpelled _ _ _ ihRest =>
      have splits : ifToken :: (ifTokens ++ elseToken :: (elseTokens ++ thenToken :: restTokens)) =
          ifToken :: (ifTokens ++ elseToken :: elseTokens ++ [thenToken]) ++ restTokens := by simp
      have spelled : Spelled (.ifElse ifBody elseBody .done)
          (ifToken :: (ifTokens ++ elseToken :: elseTokens ++ [thenToken])) := by
        simpa using Spelled.ifElse ifMark elseMark thenMark ifSpelled elseSpelled .done
      rw [splits] at admits ⊢
      simp only [Body.eval_ifElse _ _ ifBody elseBody rest]
      apply sameOutcome_block executing numeric ifMark (Nesting.inside_ifElse ifSpelled elseMark elseSpelled) spelled
        (admits.mono (List.subset_append_left ..) (List.sublist_append_left ..))
      intro left leftNumeric
      exact ihRest rfl leftNumeric (admits.mono (List.subset_append_right ..) (List.sublist_append_right ..))

/-- Defining a body and then calling it means what the body means. -/
theorem sameOutcome_defined {name : Token} {body : Body} {spelling : List Token}
    (spelled : Spelled body spelling) (executing : interpreter.activity = .executing labels)
    (numeric : interpreter.stack.Numeric) (isName : name.isName = true)
    (newName : interpreter.dictionary.Unused spelling [name])
    (admits : interpreter.dictionary.Admits spelling (labels.forSession body.branches))
    (apart : name ∉ labels.afterDefinition.upcoming body.branches) :
    SameOutcome
      (fun fuel => (interpreter.executeAll fuel (":" :: name :: (spelling ++ [";", name]))).map Reply.ending)
      fun fuel => body.eval interpreter.dictionary fuel interpreter.stack := by
  have conditionals := admits.mono (fun _ member => member) (List.sublist_cons_self ..)
  have suit : labels.Suit body.branches name :=
    ⟨admits.distinct, conditionals.noNumerals, fun label drawn same => apart (same ▸ drawn)⟩
  have called (fuel : Nat) :
      (interpreter.executeAll fuel (":" :: name :: (spelling ++ [";", name]))).map Reply.ending =
        Machine.runTokens (interpreter.defining labels name body).dictionary fuel interpreter.stack [name] := by
    have splits : ":" :: name :: (spelling ++ [";", name]) = ":" :: name :: (spelling ++ [";"]) ++ [name] := by
      simp
    have runs : (interpreter.defining labels name body).execute fuel name = _ :=
      execute_plain rfl (Token.mark?_of_isName isName) fuel
    rw [splits, executeAll_append, executeAll_definition executing isName spelled admits.distinct,
      Option.bind_some, Reply.andThen_quiet, executeAll_singleton, runs, Option.map_map]
    exact Option.map_id_apply
  -- All that the definition adds is new, so the body means the same with and without it.
  have same := interpreter.sameOutcome_defining isName suit interpreter.stack
  have means := (newName.append conditionals.toUnused).eval_install spelled fun _ => Body.mem_definitions
  simp only [called]
  refine same.trans ?_
  simp only [defining, means _ numeric]
  exact .refl _

end Interpreter

/-- Typing a body token by token and defining it under a new name and calling it come to the same
stack, printed text and fault, or both diverge. The labels drawn on either way have to be new to the
dictionary and the body, and those of the conditionals in the definition must not be its name. -/
theorem typing_agrees_with_defining (interpreter : Interpreter) {labels : Labels} {name : Token} {body : Body}
    {spelling : List Token} (executing : interpreter.activity = .executing labels)
    (numeric : interpreter.stack.Numeric) (isName : name.isName = true) (spelled : Spelled body spelling)
    (newName : interpreter.dictionary.Unused spelling [name])
    (typed : interpreter.dictionary.Admits spelling (body.typedLabels labels))
    (defined : interpreter.dictionary.Admits spelling (labels.forSession body.branches))
    (apart : name ∉ labels.afterDefinition.upcoming body.branches) :
    SameOutcome (fun fuel => (interpreter.executeAll fuel spelling).map Reply.ending) fun fuel =>
      (interpreter.executeAll fuel (":" :: name :: (spelling ++ [";", name]))).map Reply.ending :=
  (Interpreter.sameOutcome_typed spelled executing numeric typed).trans
    (Interpreter.sameOutcome_defined spelled executing numeric isName newName defined apart).symm

/-- Nested branches and two sessions, with the words that come with the language. -/
theorem typing_agrees_with_defining_nested :
    let interpreter := { Interpreter.standard with stack := [.number 0, .number 5] }
    let body : Body := .ifElse (.token "2" .done) (.ifThen (.token "3" .done) (.token "dup" .done))
      (.token "==" (.ifThen (.token "square" .done) (.token "." .done)))
    let spelling := ["if", "2", "else", "if", "3", "then", "dup", "then", "==", "if", "square", "then", "."]
    Spelled body spelling ∧ interpreter.dictionary.Admits spelling (body.typedLabels .standard) ∧
    interpreter.dictionary.Admits spelling (Labels.standard.forSession body.branches) ∧
    SameOutcome (fun fuel => (interpreter.executeAll fuel spelling).map Reply.ending) fun fuel =>
      (interpreter.executeAll fuel (":" :: "pick" :: (spelling ++ [";", "pick"]))).map Reply.ending := by
  intro interpreter body spelling
  have spelled : Spelled body spelling := body.spelled_tokens (by decide)
  have unused : interpreter.dictionary.Unused spelling
      ["definition-0", "<if-0>", "<if-1>", "definition-1", "<if-2>", "pick"] := by
    have uncalled : ∀ word ∈ Vocabulary.base ++ Vocabulary.printing ++ Vocabulary.prelude,
        ∀ name ∈ ["definition-0", "<if-0>", "<if-1>", "definition-1", "<if-2>", "pick"],
          name ∉ word.action.tokens := by decide +kernel
    refine ⟨by decide +kernel, by decide, ?_⟩
    intro name member calls
    obtain ⟨other, word, found, called⟩ := calls
    rcases Dictionary.find?_insertAll found with ⟨listed, _⟩ | earlier
    · exact uncalled word listed name member called
    · rw [Dictionary.find?_empty] at earlier
      cases earlier
  have typed : interpreter.dictionary.Admits spelling (body.typedLabels .standard) :=
    ⟨unused.mono (fun _ member => member) (by decide), by decide, by decide⟩
  have defined : interpreter.dictionary.Admits spelling (Labels.standard.forSession body.branches) :=
    ⟨unused.mono (fun _ member => member) (by decide), by decide, by decide⟩
  exact ⟨spelled, typed, defined, typing_agrees_with_defining interpreter rfl (by decide) (by decide) spelled
    (unused.mono (fun _ member => member) (by decide)) typed defined (by decide)⟩

/-- Why the labels of the conditionals must not be the name of the word: the word then hides its own
conditional. -/
theorem typing_differs_from_defining_own_label :
    let interpreter : Interpreter :=
      { stack := [.number 0, .number 0], activity := .executing (.cycling ["d", "x", "w"]) }
    let body : Body := .ifThen (.ifThen (.token "1" .done) .done) .done
    let spelling := ["if", "if", "1", "then", "then"]
    interpreter.stack.Numeric ∧ Token.isName "w" = true ∧ Spelled body spelling ∧
    interpreter.dictionary.Unused spelling ["w"] ∧
    interpreter.dictionary.Admits spelling (body.typedLabels (.cycling ["d", "x", "w"])) ∧
    interpreter.dictionary.Admits spelling ((Labels.cycling ["d", "x", "w"]).forSession body.branches) ∧
    ¬SameOutcome (fun fuel => (interpreter.executeAll fuel spelling).map Reply.ending) fun fuel =>
      (interpreter.executeAll fuel (":" :: "w" :: (spelling ++ [";", "w"]))).map Reply.ending := by
  intro interpreter body spelling
  have spelled : Spelled body spelling := body.spelled_tokens (by decide)
  have unused : interpreter.dictionary.Unused spelling ["d", "x", "w"] := by
    refine ⟨fun name _ => Dictionary.find?_empty name, by decide, ?_⟩
    intro name _ calls
    obtain ⟨other, word, found, _⟩ := calls
    rw [Dictionary.find?_empty] at found
    cases found
  have admits : interpreter.dictionary.Admits spelling ["d", "x", "w"] := ⟨unused, by decide, by decide⟩
  refine ⟨by decide, by decide, spelled, unused.mono (fun _ member => member) (by decide), admits, admits, ?_⟩
  intro same
  have typed : Settles (fun fuel => (interpreter.executeAll fuel spelling).map Reply.ending)
      ⟨[.number 1], "", none⟩ := ⟨9, by decide +kernel⟩
  have defined : Settles (fun fuel =>
      (interpreter.executeAll fuel (":" :: "w" :: (spelling ++ [";", "w"]))).map Reply.ending)
      ⟨[], "", some (.underflow 1 0)⟩ := ⟨9, by decide +kernel⟩
  have steady := (interpreter.steady_executeAll (":" :: "w" :: (spelling ++ [";", "w"]))).map Reply.ending
  have equal := steady.unique ((same.settles_iff _).mp typed) defined
  cases equal

end Forth

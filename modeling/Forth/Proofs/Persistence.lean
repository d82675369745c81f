import Forth.Proofs.Decompilation
import Forth.Proofs.Names

/-! A definition keeps its conditionals for as long as it lives. Whatever a host asks for later, an entry
of the dictionary changes only where its name is defined again; and nobody can define a label of a
conditional again, since a label is no name and the supply never comes back to it. -/

namespace Forth

open Body (Spelled)
open Nesting (occurrences)

/-- What the words do, by name. -/
def Dictionary.actions (dictionary : Dictionary) : Definitions :=
  dictionary.entries.map fun _ word => word.action

theorem Dictionary.getElem?_actions (dictionary : Dictionary) (name : String) :
    dictionary.actions[name]? = (dictionary.find? name).map Word.action :=
  Std.ExtTreeMap.getElem?_map

/-- Only hidden words are conditionals, and their labels are reserved. -/
theorem Dictionary.WellNamed.actions_ne_conditional {dictionary : Dictionary} {limit : Nat}
    (wellNamed : dictionary.WellNamed limit) {token : Token} (noStem : token.hasConditionalStem = false)
    (ifBody elseBody : List Token) : dictionary.actions[token]? ≠ some (.conditional ifBody elseBody) := by
  intro acts
  rw [getElem?_actions] at acts
  obtain ⟨word, found, isConditional⟩ := Option.map_eq_some_iff.mp acts
  obtain ⟨own, ⟨_, ordinary, _⟩ | ⟨_, _, number, _, label⟩⟩ := wellNamed token word found
  · rw [isConditional] at ordinary
    cases ordinary
  · rw [← own, label, Labels.hasConditionalStem_numberedConditional] at noStem
    cases noStem

/-- A named session that becomes words has taken a name and a body. -/
theorem Session.words_of_complete {labels : Labels} {numbering : Nat → Nat} (reserved : labels.Reserved numbering)
    {tokens : List Token} {definitions : Definitions}
    (completes : ((named labels).pushAll tokens).complete = .ok definitions) :
    ∃ name spelling body, tokens = name :: spelling ∧ Token.isName name = true ∧ Spelled body spelling ∧
      ((named labels).pushAll tokens).name? = some name ∧
      definitions = body.definitions labels.afterDefinition name := by
  have grammar := (Opening.named.complete_iff labels tokens (reserved.nodup_forSession _)).mp ⟨definitions, completes⟩
  obtain ⟨name, spelling, body, rfl, isName, spelled⟩ := grammar
  have collected := named_spelled isName spelled (reserved.nodup_forSession body.branches)
  rw [collected, Draft.complete_named rfl rfl] at completes
  refine ⟨name, spelling, body, rfl, isName, spelled, ?_, (Except.ok.inj completes).symm⟩
  rw [collected]
  exact Draft.name?_session (List.pairwise_singleton _ _)

/-- The words of a definition stand under its name and under the labels drawn for it. -/
theorem Body.name_or_drawn {body : Body} {labels : Labels} {name label : String} {action : Action}
    (added : (body.definitions labels name)[label]? = some action) :
    label = name ∨ label ∈ labels.upcoming body.branches :=
  List.mem_cons.mp (Body.mem_definitions
    (Std.ExtTreeMap.mem_iff_isSome_getElem?.mpr (Option.isSome_of_eq_some added)))

namespace Interpreter

/-- The name of the word that the token defines, if it ends a definition that succeeds. -/
def definedAt? (interpreter : Interpreter) (token : Token) : Option String :=
  match interpreter.activity with
  | .recording session => if token.mark? = some .semicolon ∧ session.complete.isOk = true then session.name? else none
  | _ => none

/-- The names of all words that are defined while the tokens are taken in order, up to the first that
fails. -/
def definedIn (fuel : Nat) : Interpreter → List Token → List String
  | _, [] => []
  | interpreter, token :: rest =>
      (interpreter.definedAt? token).toList ++
        match interpreter.execute fuel token with
        | none => []
        | some reply => if reply.fault = none then definedIn fuel reply.interpreter rest else []

/-- What a host can come to from an interpreter, by any commands and whether or not they fail, as long as
none of them defines the name. -/
inductive ReachesWithout (name : String) (start : Interpreter) : Interpreter → Prop where
  | start : ReachesWithout name start start
  | step {interpreter : Interpreter} {fuel : Nat} {command : Command} {reply : Reply}
      (reached : ReachesWithout name start interpreter) (replied : interpreter.perform fuel command = some reply)
      (others : name ∉ interpreter.definedIn fuel command.tokens) : ReachesWithout name start reply.interpreter

variable {interpreter : Interpreter} {fuel : Nat} {token : Token} {tokens : List Token} {reply : Reply}
variable {label : String} {word : Word} {numbering : Nat → Nat}

/-- Only names are ever defined. -/
theorem isName_of_definedAt? (ordered : interpreter.Ordered numbering)
    (defined : interpreter.definedAt? token = some label) : Token.isName label = true := by
  obtain ⟨labels, reserved, begun, _⟩ := ordered
  obtain ⟨stack, dictionary, activity⟩ := interpreter
  cases begun with
  | executing => cases defined
  | conditional tokens => cases defined
  | recording tokens =>
      simp only [definedAt?] at defined
      split at defined
      next ends =>
        cases completes : ((Session.named labels).pushAll tokens).complete with
        | error reason =>
            rw [completes] at ends
            cases ends.2
        | ok definitions =>
            obtain ⟨name, _, _, _, isName, _, named, _⟩ := Session.words_of_complete reserved completes
            rw [named, Option.some.injEq] at defined
            exact defined ▸ isName
      next => cases defined

/-- The words of a definition take the place of no others but that of its name. -/
theorem endDefinition_find? {labels : Labels} (reserved : labels.Reserved numbering)
    (wellNamed : interpreter.dictionary.WellNamed (numbering labels.conditionals))
    (found : interpreter.dictionary.find? label = some word)
    (other : ∀ definitions, ((Session.named labels).pushAll tokens).complete = .ok definitions →
      ((Session.named labels).pushAll tokens).name? ≠ some label) :
    (interpreter.endDefinition ((Session.named labels).pushAll tokens)).interpreter.dictionary.find? label =
      some word := by
  cases completes : ((Session.named labels).pushAll tokens).complete with
  | error reason =>
      simp only [endDefinition, completes]
      exact found
  | ok definitions =>
      obtain ⟨name, _, body, _, _, _, named, rfl⟩ := Session.words_of_complete reserved completes
      simp only [endDefinition, completes, Dictionary.find?_install]
      cases added : (body.definitions labels.afterDefinition name)[label]? with
      | none => exact found
      | some action =>
          rcases Body.name_or_drawn added with rfl | drawn
          · exact absurd named (other _ completes)
          · -- What the session draws is new, and this entry has been there before.
            obtain ⟨place, notBefore, _, rfl⟩ := (reserved.afterDefinition.mem_upcoming _ label).mp drawn
            rw [wellNamed.find?_numberedConditional (reserved.monotone notBefore)] at found
            cases found

/-- One token leaves an entry as it is unless it defines its name. -/
theorem execute_find? (ordered : interpreter.Ordered numbering) (replied : interpreter.execute fuel token = some reply)
    (found : interpreter.dictionary.find? label = some word) (other : interpreter.definedAt? token ≠ some label) :
    reply.interpreter.dictionary.find? label = some word := by
  obtain ⟨labels, reserved, begun, wellNamed⟩ := ordered
  by_cases ends : interpreter.mode = .recording ∧ token = ";"
  · obtain ⟨recording, rfl⟩ := ends
    obtain ⟨stack, dictionary, activity⟩ := interpreter
    cases begun with
    | executing => cases recording
    | conditional tokens => cases recording
    | recording tokens =>
        have mark : Token.mark? ";" = some .semicolon := by decide
        simp only [execute, executeInDefinition, mark, Option.some.injEq] at replied
        subst replied
        apply endDefinition_find? reserved wellNamed found
        intro definitions completes named
        apply other
        simp only [definedAt?, mark, completes, Except.isOk, Except.toBool, and_self, if_true, named]
  · cases execute_turn reserved begun wellNamed replied with
    | collected => exact found
    | ran => exact found
    | discarded => exact found
    | defined recording isEnd => exact absurd ⟨recording, isEnd⟩ ends

theorem isName_of_definedIn (ordered : interpreter.Ordered numbering)
    (member : label ∈ interpreter.definedIn fuel tokens) : Token.isName label = true := by
  induction tokens generalizing interpreter with
  | nil => cases member
  | cons token tokens ih =>
      rw [definedIn] at member
      rcases List.mem_append.mp member with atToken | later
      · exact isName_of_definedAt? ordered (Option.mem_toList.mp atToken)
      · cases executed : interpreter.execute fuel token with
        | none =>
            rw [executed] at later
            cases later
        | some first =>
            simp only [executed] at later
            split at later
            next => exact ih (execute_ordered ordered executed) later
            next => cases later

theorem executeAll_find? (ordered : interpreter.Ordered numbering)
    (replied : interpreter.executeAll fuel tokens = some reply)
    (found : interpreter.dictionary.find? label = some word) (others : label ∉ interpreter.definedIn fuel tokens) :
    reply.interpreter.dictionary.find? label = some word := by
  induction tokens generalizing interpreter reply with
  | nil =>
      cases replied
      exact found
  | cons token tokens ih =>
      obtain ⟨first, executed, outcome⟩ := executeAll_cons_cases replied
      simp only [definedIn, executed, List.mem_append, not_or] at others
      have kept := execute_find? ordered executed found fun defined => others.1 (Option.mem_toList.mpr defined)
      rcases outcome with ⟨_, rfl⟩ | ⟨succeeds, second, executedRest, rfl⟩
      · exact kept
      · rw [if_pos succeeds] at others
        have keptRest := ih (execute_ordered ordered executed) executedRest kept others.2
        exact keptRest

theorem perform_find? {command : Command} (ordered : interpreter.Ordered numbering)
    (replied : interpreter.perform fuel command = some reply)
    (found : interpreter.dictionary.find? label = some word)
    (others : label ∉ interpreter.definedIn fuel command.tokens) :
    reply.interpreter.dictionary.find? label = some word := by
  rcases perform_cases replied with taken | ⟨stack, same⟩ | same
  · exact executeAll_find? ordered taken found others
  · rw [same]
    exact found
  · rw [same]
    exact found

theorem ReachesWithout.ordered {name : String} {start later : Interpreter} (reaches : start.ReachesWithout name later)
    (ordered : start.Ordered numbering) : later.Ordered numbering := by
  induction reaches with
  | start => exact ordered
  | step _ replied _ kept => exact perform_ordered kept replied

/-- The entry under the name stays, and so does every entry under what is no name. -/
theorem ReachesWithout.find? {name : String} {start later : Interpreter} (reaches : start.ReachesWithout name later)
    (ordered : start.Ordered numbering) (found : start.dictionary.find? label = some word)
    (lasting : label = name ∨ Token.isName label = false) : later.dictionary.find? label = some word := by
  induction reaches with
  | start => exact found
  | step reached replied others kept =>
      apply perform_find? (reached.ordered ordered) replied kept
      intro defined
      rcases lasting with rfl | noName
      · exact others defined
      · rw [isName_of_definedIn (reached.ordered ordered) defined] at noName
        cases noName

/-- A word is unknown only if the dictionary does not have it. -/
theorem execute_unknownWord {name : String} (replied : interpreter.execute fuel token = some reply)
    (failed : reply.fault = some (.unknownWord name)) : interpreter.dictionary.find? name = none := by
  have ofRun {dictionary : Dictionary} {stack : Stack} {code : List Token} {ending : Ending}
      (reached : Machine.runTokens dictionary fuel stack code = some ending)
      (fails : ending.fault = some (.unknownWord name)) : dictionary.find? name = none := by
    cases Machine.run_running reached fails with
    | unknownWord unknown => exact unknown
  obtain ⟨stack, dictionary, labels | session | session⟩ := interpreter
  · simp only [execute, executeOutside] at replied
    split at replied
    · cases replied
      cases failed
    · cases replied
      cases failed
    · obtain ⟨ending, reached, rfl⟩ := Option.map_eq_some_iff.mp replied
      exact ofRun reached failed
  · simp only [execute, Option.some.injEq] at replied
    subst replied
    unfold executeInDefinition endDefinition at failed
    split at failed
    · split at failed <;> cases failed
    · cases failed
    · cases failed
  · simp only [execute, executeInConditional, endConditional] at replied
    split at replied
    · split at replied
      · cases replied
        cases failed
      · simp only [runDecision, runTokens, Option.map_map] at replied
        obtain ⟨ending, reached, rfl⟩ := Option.map_eq_some_iff.mp replied
        exact ((dictionary.find?_install_eq_none _ name).mp (ofRun reached failed)).2
    · cases replied
      cases failed

/-- No definition begins inside of a conditional. -/
theorem execute_colon_conditional (collecting : interpreter.mode = .conditional)
    (replied : interpreter.execute fuel ":" = some reply) : reply.fault ≠ none := by
  obtain ⟨stack, dictionary, labels | session | session⟩ := interpreter
  · cases collecting
  · cases collecting
  · have spoilt : ∃ reason, (session.push ":").failure = some reason := by
      cases failure : session.failure with
      | some reason =>
          have ignored := Session.pushAll_failed failure [":"]
          exact ⟨reason, (congrArg Session.failure ignored).trans failure⟩
      | none =>
          refine ⟨.markInsideBody ":", ?_⟩
          simp only [Session.push, Session.hasFailed, failure]
          rfl
    obtain ⟨reason, failed⟩ := spoilt
    simp only [execute, executeInConditional, Session.hasFailed, failed, Option.isSome_some, Bool.true_or, if_true,
      endConditional, Session.complete, Option.some.injEq] at replied
    rw [← replied]
    exact Option.some_ne_none _

/-- A definition that succeeds has added the words of its session. -/
theorem words_of_executeAll {name : Token} {body : Body} {spelling : List Token} (spelled : Spelled body spelling)
    (noColon : name ≠ ":") (replied : interpreter.executeAll fuel (":" :: name :: (spelling ++ [";"])) = some reply)
    (succeeds : reply.fault = none) :
    ∃ definitions, ((Session.named interpreter.activity.labels).pushAll (name :: spelling)).complete = .ok definitions ∧
      reply.interpreter.dictionary = interpreter.dictionary.install definitions.toList := by
  have outside : interpreter.mode ≠ .conditional := by
    intro collecting
    obtain ⟨first, executed, ⟨_, rfl⟩ | ⟨went, _⟩⟩ := executeAll_cons_cases replied
    · exact execute_colon_conditional collecting executed succeeds
    · exact execute_colon_conditional collecting executed went
  have nameGoesOn : name.mark? ≠ some .semicolon := by
    intro ends
    have begun := executeAll_colon outside (fun _ member => absurd member List.not_mem_nil) fuel
    have unnamed : (Session.named interpreter.activity.labels).complete = .error .neverNamed := by
      rw [Draft.session_named]
      exact Draft.complete_unnamed rfl rfl
    rw [Token.eq_semicolon ends, ← List.singleton_append, executeAll_append, begun, Option.bind_some,
      Reply.andThen_quiet] at replied
    obtain ⟨first, executed, outcome⟩ := executeAll_cons_cases replied
    simp only [Session.recordAll, List.foldl_nil, execute_semicolon, endDefinition, unnamed,
      Option.some.injEq] at executed
    subst executed
    rcases outcome with ⟨_, rfl⟩ | ⟨went, _⟩
    · cases succeeds
    · cases went
  have inside : ∀ token ∈ name :: spelling, token.mark? ≠ some .colon ∧ token.mark? ≠ some .semicolon := by
    intro token member
    rcases List.mem_cons.mp member with rfl | later
    · exact ⟨fun colon => noColon (Token.eq_colon colon), nameGoesOn⟩
    · exact spelled.inside token later
  have begun := executeAll_colon outside (fun token member => (inside token member).2) fuel
  rw [Session.recordAll_eq_pushAll fun token member => (inside token member).1] at begun
  rw [← List.cons_append, ← List.cons_append, executeAll_append, begun, Option.bind_some, Reply.andThen_quiet,
    executeAll_singleton, execute_semicolon, Option.some.injEq] at replied
  subst replied
  cases completes : ((Session.named interpreter.activity.labels).pushAll (name :: spelling)).complete with
  | error reason =>
      simp only [endDefinition, completes] at succeeds
      cases succeeds
  | ok definitions =>
      refine ⟨definitions, rfl, ?_⟩
      simp only [endDefinition, completes]

end Interpreter

/-- A definition keeps its conditionals for as long as it lives. Once a definition has succeeded, its word
and the conditionals under all labels drawn for it are in the dictionary as they were compiled, after any
commands that do not define the word again. So the word still expands to its body, and its labels are
never unknown to whatever is executed. -/
theorem definition_keeps_its_conditionals {labels : Labels} {numbering : Nat → Nat}
    (reserved : labels.Reserved numbering) {interpreter : Interpreter} (reachable : interpreter.Reachable labels)
    {name : Token} {body : Body} {spelling : List Token}
    (noColon : name ≠ ":") (spelled : Spelled body spelling)
    (noStem : ∀ token ∈ spelling, Token.hasConditionalStem token = false) {fuel : Nat} {reply : Reply}
    (replied : interpreter.executeAll fuel (":" :: name :: (spelling ++ [";"])) = some reply)
    (succeeds : reply.fault = none) :
    ∃ definitions code,
      ((Session.named interpreter.activity.labels).pushAll (name :: spelling)).complete = .ok definitions ∧
      definitions[name]? = some (.compiled code) ∧
      (∀ label ∈ interpreter.activity.labels.afterDefinition.upcoming (occurrences .ifMark spelling),
        ∃ ifBody elseBody, definitions[label]? = some (.conditional ifBody elseBody)) ∧
      ∀ later, reply.interpreter.ReachesWithout name later →
        (∀ label action, definitions[label]? = some action →
          later.dictionary.find? label = some (.defined label action)) ∧
        (∀ depth, occurrences .ifMark spelling < depth →
          later.dictionary.actions.expandAll depth code = some (tidy spelling)) ∧
        ∀ label ∈ interpreter.activity.labels.afterDefinition.upcoming (occurrences .ifMark spelling),
          ∀ more token answer, later.execute more token = some answer → answer.fault ≠ some (.unknownWord label) := by
  obtain ⟨definitions, completes, installed⟩ := Interpreter.words_of_executeAll spelled noColon replied succeeds
  have ordered := Interpreter.executeAll_ordered (reachable.ordered reserved) replied
  obtain ⟨supply, reservedSupply, begun, _⟩ := reachable.ordered reserved
  have current := (begun.continues reservedSupply).reserved
  obtain ⟨_, _, compiled, same, isName, spelledWords, _, rfl⟩ := Session.words_of_complete current completes
  cases same
  have distinct := current.afterDefinition.nodup_upcoming compiled.branches
  have apart : name ∉ interpreter.activity.labels.afterDefinition.upcoming compiled.branches := fun drawn =>
    current.afterDefinition.ne_name_of_upcoming drawn isName rfl
  have conditionals {label : String}
      (drawn : label ∈ interpreter.activity.labels.afterDefinition.upcoming compiled.branches) :=
    Body.definitions_of_upcoming distinct apart drawn
  rw [spelledWords.occurrences_if]
  refine ⟨_, _, completes, by rw [Body.getElem?_definitions, if_pos rfl], fun _ => conditionals, ?_⟩
  intro later reaches
  have lasts : ∀ label action,
      (compiled.definitions interpreter.activity.labels.afterDefinition name)[label]? = some action →
        later.dictionary.find? label = some (.defined label action) := by
    intro label action added
    apply reaches.find? ordered
    · rw [installed, Dictionary.find?_install, added]
    · refine (Body.name_or_drawn added).imp_right fun drawn => ?_
      have stem := current.afterDefinition.hasConditionalStem_upcoming drawn
      cases naming : Token.isName label with
      | false => rfl
      | true =>
          rw [Token.hasConditionalStem_of_isName naming] at stem
          cases stem
  refine ⟨lasts, ?_, ?_⟩
  · intro depth enough
    obtain ⟨_, _, _, wellNamed⟩ := reaches.ordered ordered
    rw [spelledWords.tidy_eq]
    apply compiled.expandAll_flat
    · intro label action member
      rw [Dictionary.getElem?_actions, lasts label action (Body.definitions_of_helpers distinct apart member)]
      rfl
    · intro plain inBody
      exact wellNamed.actions_ne_conditional (noStem plain (spelledWords.plains_subset inBody))
    · exact enough
  · intro label drawn more token answer executed failed
    obtain ⟨ifBody, elseBody, added⟩ := conditionals drawn
    have unknown := Interpreter.execute_unknownWord executed failed
    rw [lasts label _ added] at unknown
    cases unknown

/-- After a definition of the same name that fails, a conditional that fails while it runs, a definition
that draws more labels, and a reset. -/
theorem definition_keeps_its_conditionals_redefined :
    ∃ (reply : Reply) (later : Interpreter),
      Interpreter.standard.executeAll 9 [":", "pick", "if", "1", "else", "2", "then", ";"] = some reply ∧
      reply.fault = none ∧ reply.interpreter.ReachesWithout "pick" later ∧
      later.dictionary.find? "<if-3>" ≠ none ∧
      later.dictionary.find? "pick" = some (.defined "pick" (.compiled ["<if-0>"])) ∧
      later.dictionary.find? "<if-0>" = some (.defined "<if-0>" (.conditional ["1"] ["2"])) ∧
      later.dictionary.actions.expandAll 2 ["<if-0>"] = some ["if", "1", "else", "2", "then"] := by
  have runs : ((Interpreter.standard.executeAll 9 [":", "pick", "if", "1", "else", "2", "then", ";"]).bind fun first =>
      (first.interpreter.perform 9 (.line ": pick if ;")).bind fun second =>
        (second.interpreter.perform 9 (.line "0 if nonsense then")).bind fun third =>
          (third.interpreter.perform 9 (.line ": other if pick then ;")).map fun fourth =>
            (first.fault, first.interpreter.definedIn 9 (Command.line ": pick if ;").tokens,
              second.interpreter.definedIn 9 (Command.line "0 if nonsense then").tokens,
              third.interpreter.definedIn 9 (Command.line ": other if pick then ;").tokens,
              (fourth.interpreter.reset.dictionary.find? "<if-3>").isSome)) =
          some (none, [], [], ["other"], true) := by
    decide +kernel
  obtain ⟨first, defined, rest⟩ := Option.bind_eq_some_iff.mp runs
  obtain ⟨second, failed, rest⟩ := Option.bind_eq_some_iff.mp rest
  obtain ⟨third, ran, rest⟩ := Option.bind_eq_some_iff.mp rest
  obtain ⟨fourth, extended, same⟩ := Option.map_eq_some_iff.mp rest
  simp only [Prod.mk.injEq] at same
  obtain ⟨succeeds, noneFailed, noneRan, others, there⟩ := same
  have start : Interpreter.standard.Reachable .standard :=
    @Interpreter.Reachable.start .standard Vocabulary.groups fun _ member => member
  have resets : fourth.interpreter.perform 0 .reset = some { interpreter := fourth.interpreter.reset } := rfl
  have reaches : first.interpreter.ReachesWithout "pick" fourth.interpreter.reset := by
    refine .step (.step (.step (.step .start failed ?_) ran ?_) extended ?_) resets ?_
    · rw [noneFailed]
      exact List.not_mem_nil
    · rw [noneRan]
      exact List.not_mem_nil
    · rw [others]
      decide
    · exact List.not_mem_nil
  have spelled : Spelled (.ifElse (.token "1" .done) (.token "2" .done) .done) ["if", "1", "else", "2", "then"] :=
    Body.spelled_tokens (by decide)
  obtain ⟨definitions, code, completes, compiled, _, lasts⟩ := definition_keeps_its_conditionals
    Labels.reserved_standard start (by decide) spelled (by decide) defined succeeds
  obtain ⟨kept, expands, _⟩ := lasts _ reaches
  have entry (label : String) : definitions[label]? = ((Session.named .standard).pushAll
      ["pick", "if", "1", "else", "2", "then"]).complete.toOption.bind fun words => words[label]? := by
    have known : ((Session.named .standard).pushAll ["pick", "if", "1", "else", "2", "then"]).complete =
      .ok definitions := completes
    rw [known]
    rfl
  have word : definitions["pick"]? = some (.compiled ["<if-0>"]) := (entry "pick").trans (by decide +kernel)
  have branches : definitions["<if-0>"]? = some (.conditional ["1"] ["2"]) :=
    (entry "<if-0>").trans (by decide +kernel)
  have expanded := expands 2 (by decide)
  rw [word] at compiled
  cases compiled
  exact ⟨first, _, defined, succeeds, reaches, Option.isSome_iff_ne_none.mp there, kept _ _ word, kept _ _ branches,
    expanded⟩

end Forth

import Forth.Proofs.Acceptance
import Forth.Proofs.TopLevel

/-! The interpreters that a host can come to. Their dictionaries hold words under names of their own
and conditionals under labels that have been drawn, so a label drawn later is always new: what a
conditional installs to run is taken away again without a trace, and only a definition that succeeds
changes the dictionary. -/

namespace Forth

/-- Either a word for show under a name, or a conditional under a label whose number is below the
limit. -/
def Word.WellNamed (word : Word) (limit : Nat) : Prop :=
  word.visible = true ∧ word.action.isConditional = false ∧ Token.isName word.name = true ∨
    word.visible = false ∧ word.action.isConditional = true ∧
      ∃ number < limit, word.name = Labels.numberedConditional number

/-- Every word is found under its own name and is well named. -/
def Dictionary.WellNamed (dictionary : Dictionary) (limit : Nat) : Prop :=
  ∀ name word, dictionary.find? name = some word → word.name = name ∧ word.WellNamed limit

theorem Word.WellNamed.mono {word : Word} {limit higher : Nat} (wellNamed : word.WellNamed limit)
    (below : limit ≤ higher) : word.WellNamed higher := by
  rcases wellNamed with ordinary | ⟨hidden, isConditional, number, small, label⟩
  · exact .inl ordinary
  · exact .inr ⟨hidden, isConditional, number, Nat.lt_of_lt_of_le small below, label⟩

namespace Dictionary.WellNamed

variable {dictionary : Dictionary} {limit higher : Nat}

theorem mono (wellNamed : dictionary.WellNamed limit) (below : limit ≤ higher) :
    dictionary.WellNamed higher := by
  intro name word found
  obtain ⟨own, named⟩ := wellNamed name word found
  exact ⟨own, named.mono below⟩

/-- A label that has not been drawn yet is not in the dictionary. -/
theorem find?_numberedConditional (wellNamed : dictionary.WellNamed limit) {number : Nat}
    (later : limit ≤ number) : dictionary.find? (Labels.numberedConditional number) = none := by
  cases found : dictionary.find? (Labels.numberedConditional number) with
  | none => rfl
  | some word =>
      obtain ⟨own, ⟨_, _, isName⟩ | ⟨_, _, other, small, label⟩⟩ := wellNamed _ word found
      · have stem := Token.hasConditionalStem_of_isName isName
        rw [own, Labels.hasConditionalStem_numberedConditional] at stem
        cases stem
      · have same := Labels.numberedConditional_injective (own.symm.trans label)
        omega

theorem install (wellNamed : dictionary.WellNamed limit) {definitions : Definitions}
    (added : ∀ (name : String) (action : Action), definitions[name]? = some action →
      (Word.defined name action).WellNamed limit) :
    (dictionary.install definitions.toList).WellNamed limit := by
  intro name word found
  rw [find?_install] at found
  cases inDefinitions : definitions[name]? with
  | none =>
      simp only [inDefinitions] at found
      exact wellNamed name word found
  | some action =>
      simp only [inDefinitions, Option.some.injEq] at found
      subst found
      exact ⟨rfl, added name action inDefinitions⟩

end Dictionary.WellNamed

namespace Body

theorem isConditional_helpers {body : Body} {labels : Labels} {label : String} {action : Action}
    (member : (label, action) ∈ body.helpers labels) : action.isConditional = true := by
  induction body generalizing labels with
  | done => cases member
  | token _ _ ihRest => exact ihRest member
  | ifThen _ _ ihIf ihRest =>
      rcases List.mem_append.mp member with inIf | others
      · exact ihIf inIf
      · rcases List.mem_cons.mp others with same | inRest
        · cases same
          rfl
        · exact ihRest inRest
  | ifElse _ _ _ ihIf ihElse ihRest =>
      rcases List.mem_append.mp member with inIf | others
      · exact ihIf inIf
      · rcases List.mem_append.mp others with inElse | later
        · exact ihElse inElse
        · rcases List.mem_cons.mp later with same | inRest
          · cases same
            rfl
          · exact ihRest inRest

/-- The words of a definition are well named, given labels that are reserved. -/
theorem wellNamed_definitions {body : Body} {labels : Labels} {numbering : Nat → Nat}
    (reserved : labels.Reserved numbering) {name : String}
    (isName : Token.isName name = true) {other : String} {action : Action}
    (found : (body.definitions labels name)[other]? = some action) :
    (Word.defined other action).WellNamed (numbering (labels.conditionals + body.branches)) := by
  rw [getElem?_definitions] at found
  by_cases own : name = other
  · rw [if_pos own] at found
    cases found
    exact .inl ⟨rfl, rfl, own ▸ isName⟩
  · rw [if_neg own] at found
    have member := mem_helpers found
    have isConditional := isConditional_helpers member
    have drawn := (body.helpers_labels labels).mem_iff.mp (List.mem_map_of_mem member)
    obtain ⟨place, _, before, label⟩ := (reserved.mem_upcoming _ other).mp drawn
    refine .inr ⟨?_, isConditional, numbering place, reserved.increasing before, label⟩
    simp only [Word.defined, isConditional, Bool.not_true]

end Body

/-- A reserved supply that is at least as far as another. -/
structure Labels.Continues (labels : Labels) (numbering : Nat → Nat) (next : Labels) : Prop where
  reserved : next.Reserved numbering
  notBefore : labels.conditionals ≤ next.conditionals

theorem Labels.Reserved.continues_self {labels : Labels} {numbering : Nat → Nat}
    (reserved : labels.Reserved numbering) : labels.Continues numbering labels :=
  ⟨reserved, Nat.le_refl _⟩

/-- A session goes on from where its supply was when it was opened. -/
theorem Opening.continues (opening : Opening) {labels : Labels} {numbering : Nat → Nat}
    (reserved : labels.Reserved numbering) (tokens : List Token) :
    labels.Continues numbering ((opening.session labels).pushAll tokens).labels := by
  obtain ⟨count, _, drawn⟩ := Session.labels_pushAll (opening.session labels) tokens
  have started : (opening.session labels).labels = labels.afterDefinition := by cases opening <;> rfl
  rw [drawn, started]
  exact ⟨reserved.afterDefinition.skip count, Nat.le_add_right _ _⟩

namespace Activity

/-- What the interpreter is doing was begun on the given supply. -/
inductive Begun (labels : Labels) : Activity → Prop where
  | executing : Begun labels (.executing labels)
  | recording (tokens : List Token) : Begun labels (.recording ((Session.named labels).pushAll tokens))
  | conditional (tokens : List Token) : Begun labels (.conditional ((Session.anonymous labels).pushAll tokens))

theorem Begun.continues {labels : Labels} {numbering : Nat → Nat} {activity : Activity} (begun : activity.Begun labels)
    (reserved : labels.Reserved numbering) : labels.Continues numbering activity.labels := by
  cases begun with
  | executing => exact reserved.continues_self
  | recording tokens => exact Opening.named.continues reserved tokens
  | conditional tokens => exact Opening.anonymous.continues reserved tokens

end Activity

/-- All that one token can do to an interpreter whose activity was begun on the given supply. -/
inductive Interpreter.Turn (interpreter : Interpreter) (labels : Labels) (numbering : Nat → Nat) (token : Token) :
    Reply → Prop where
  /-- It is collected, or begins something to collect for. -/
  | collected {activity : Activity} {next : Labels} (continues : labels.Continues numbering next)
      (begun : activity.Begun next) :
      Turn interpreter labels numbering token { interpreter := { interpreter with activity } }
  /-- Code is run. -/
  | ran {ending : Ending} {next : Labels} (continues : labels.Continues numbering next)
      (ordinary : ∀ fault, ending.fault = some fault → fault.isIncompleteDefinition = false) :
      Turn interpreter labels numbering token (interpreter.settle (.executing next) ending)
  /-- A session that can not become words is given up. -/
  | discarded {session : Session} {reason : Reason} (continues : labels.Continues numbering session.labels) :
      Turn interpreter labels numbering token (interpreter.discard session reason)
  /-- A definition ends. -/
  | defined {name : Token} {body : Body} (recording : interpreter.mode = .recording) (ends : token = ";")
      (isName : name.isName = true) :
      Turn interpreter labels numbering token { interpreter := interpreter.defining labels name body }

namespace Interpreter

variable {interpreter : Interpreter} {labels : Labels} {numbering : Nat → Nat} {token : Token} {fuel : Nat}
  {reply : Reply}

theorem turn_of_runTokens (reserved : labels.Reserved numbering) (executing : interpreter.activity = .executing labels)
    {tokens : List Token} (replied : interpreter.runTokens fuel tokens = some reply) :
    interpreter.Turn labels numbering token reply := by
  rw [runTokens_eq_settle, executing] at replied
  obtain ⟨ending, reached, rfl⟩ := Option.map_eq_some_iff.mp replied
  exact .ran reserved.continues_self fun _ => Machine.run_fault reached

theorem turn_of_executeOutside (reserved : labels.Reserved numbering)
    (executing : interpreter.activity = .executing labels)
    (replied : interpreter.executeOutside fuel labels token = some reply) :
    interpreter.Turn labels numbering token reply := by
  unfold executeOutside at replied
  split at replied
  · cases replied
    exact .collected reserved.continues_self (.recording [])
  · cases replied
    exact .collected reserved.continues_self (.conditional [token])
  · exact turn_of_runTokens reserved executing replied

theorem turn_of_endDefinition (reserved : labels.Reserved numbering) (recording : interpreter.mode = .recording)
    (ends : token = ";") (tokens : List Token) :
    interpreter.Turn labels numbering token (interpreter.endDefinition ((Session.named labels).pushAll tokens)) := by
  cases completes : ((Session.named labels).pushAll tokens).complete with
  | error reason =>
      simp only [endDefinition, completes]
      exact .discarded (Opening.named.continues reserved tokens)
  | ok definitions =>
      have grammar := (Opening.named.complete_iff labels tokens (reserved.nodup_forSession _)).mp
        ⟨definitions, completes⟩
      obtain ⟨name, spelling, body, rfl, isName, spelled⟩ := grammar
      rw [endDefinition_spelled interpreter isName spelled (reserved.nodup_forSession _)]
      exact .defined recording ends isName

theorem turn_of_executeInDefinition (reserved : labels.Reserved numbering) {tokens : List Token}
    (recording : interpreter.activity = .recording ((Session.named labels).pushAll tokens)) :
    interpreter.Turn labels numbering token
      (interpreter.executeInDefinition ((Session.named labels).pushAll tokens) token) := by
  unfold executeInDefinition
  split
  next mark =>
    have inMode : interpreter.mode = .recording := by rw [mode, recording]; rfl
    exact turn_of_endDefinition reserved inMode (Token.eq_semicolon mark) tokens
  next => exact .collected (Opening.named.continues reserved tokens) (.recording [])
  next =>
    have extended : ((Session.named labels).pushAll tokens).push token =
        (Session.named labels).pushAll (tokens ++ [token]) :=
      (Session.pushAll_append (.named labels) tokens [token]).symm
    rw [extended]
    exact .collected reserved.continues_self (.recording (tokens ++ [token]))

/-- A conditional that ends leaves the dictionary alone, since its labels are new to it. -/
theorem turn_of_endConditional (reserved : labels.Reserved numbering)
    (wellNamed : interpreter.dictionary.WellNamed (numbering labels.conditionals)) {tokens : List Token}
    (replied : interpreter.endConditional fuel ((Session.anonymous labels).pushAll tokens) = some reply) :
    interpreter.Turn labels numbering token reply := by
  cases completes : ((Session.anonymous labels).pushAll tokens).complete with
  | error reason =>
      simp only [endConditional, completes, Option.some.injEq] at replied
      subst replied
      exact .discarded (Opening.anonymous.continues reserved tokens)
  | ok definitions =>
      have grammar := (Opening.anonymous.complete_iff labels tokens (reserved.nodup_forSession _)).mp
        ⟨definitions, completes⟩
      obtain ⟨body, spelled⟩ := grammar
      have distinct := reserved.nodup_forSession body.branches
      have fresh : ∀ label ∈ labels.afterDefinition.upcoming body.branches,
          interpreter.dictionary.find? label = none := by
        -- The numbers in the dictionary are below the supply, and these are not.
        intro label drawn
        obtain ⟨place, notBefore, _, rfl⟩ := (reserved.afterDefinition.mem_upcoming _ label).mp drawn
        exact wellNamed.find?_numberedConditional (reserved.monotone notBefore)
      rw [Session.anonymous_spelled spelled distinct, endConditional_absorbed distinct fresh] at replied
      obtain ⟨ending, reached, rfl⟩ := Option.map_eq_some_iff.mp replied
      refine .ran ?_ fun _ => Machine.run_fault reached
      exact ⟨reserved.afterDefinition.skip body.branches, Nat.le_add_right _ _⟩

theorem turn_of_executeInConditional (reserved : labels.Reserved numbering)
    (wellNamed : interpreter.dictionary.WellNamed (numbering labels.conditionals)) {tokens : List Token}
    (replied : interpreter.executeInConditional fuel ((Session.anonymous labels).pushAll tokens) token = some reply) :
    interpreter.Turn labels numbering token reply := by
  have extended : ((Session.anonymous labels).pushAll tokens).push token =
      (Session.anonymous labels).pushAll (tokens ++ [token]) :=
    (Session.pushAll_append (.anonymous labels) tokens [token]).symm
  simp only [executeInConditional, extended] at replied
  split at replied
  · exact turn_of_endConditional reserved wellNamed replied
  · cases replied
    exact .collected reserved.continues_self (.conditional (tokens ++ [token]))

/-- One token. -/
theorem execute_turn (reserved : labels.Reserved numbering) (begun : interpreter.activity.Begun labels)
    (wellNamed : interpreter.dictionary.WellNamed (numbering labels.conditionals))
    (replied : interpreter.execute fuel token = some reply) : interpreter.Turn labels numbering token reply := by
  cases activity : interpreter.activity with
  | executing supply =>
      simp only [execute, activity] at replied
      rw [activity] at begun
      cases begun
      exact turn_of_executeOutside reserved activity replied
  | recording session =>
      simp only [execute, activity, Option.some.injEq] at replied
      rw [activity] at begun
      cases begun
      exact replied ▸ turn_of_executeInDefinition reserved activity
  | conditional session =>
      simp only [execute, activity] at replied
      rw [activity] at begun
      cases begun
      exact turn_of_executeInConditional reserved wellNamed replied

/-- The dictionary is well named below the supply on which the activity was begun. -/
def Ordered (interpreter : Interpreter) (numbering : Nat → Nat) : Prop :=
  ∃ labels : Labels, labels.Reserved numbering ∧ interpreter.activity.Begun labels ∧
    interpreter.dictionary.WellNamed (numbering labels.conditionals)

theorem Turn.ordered (reserved : labels.Reserved numbering)
    (wellNamed : interpreter.dictionary.WellNamed (numbering labels.conditionals))
    (turn : interpreter.Turn labels numbering token reply) : reply.interpreter.Ordered numbering := by
  cases turn with
  | @collected activity next continues begun =>
      exact ⟨next, continues.reserved, begun, wellNamed.mono (reserved.monotone continues.notBefore)⟩
  | @ran ending next continues _ =>
      exact ⟨next, continues.reserved, .executing, wellNamed.mono (reserved.monotone continues.notBefore)⟩
  | @discarded session reason continues =>
      exact ⟨session.labels, continues.reserved, .executing, wellNamed.mono (reserved.monotone continues.notBefore)⟩
  | @defined name body _ _ isName =>
      have higher := reserved.monotone (Nat.le_add_right labels.conditionals body.branches)
      refine ⟨labels.afterSession body.branches, reserved.afterDefinition.skip _, .executing, ?_⟩
      exact (wellNamed.mono higher).install fun _ _ => Body.wellNamed_definitions reserved.afterDefinition isName

theorem execute_ordered (ordered : interpreter.Ordered numbering)
    (replied : interpreter.execute fuel token = some reply) : reply.interpreter.Ordered numbering := by
  obtain ⟨labels, reserved, begun, wellNamed⟩ := ordered
  exact (execute_turn reserved begun wellNamed replied).ordered reserved wellNamed

theorem executeAll_ordered {tokens : List Token} (ordered : interpreter.Ordered numbering)
    (replied : interpreter.executeAll fuel tokens = some reply) : reply.interpreter.Ordered numbering := by
  induction tokens generalizing interpreter reply with
  | nil =>
      cases replied
      exact ordered
  | cons token tokens ih =>
      obtain ⟨first, executed, ⟨_, rfl⟩ | ⟨_, second, executedRest, rfl⟩⟩ := executeAll_cons_cases replied
      · exact execute_ordered ordered executed
      · have kept := ih (execute_ordered ordered executed) executedRest
        exact kept

theorem reset_ordered (ordered : interpreter.Ordered numbering) : interpreter.reset.Ordered numbering := by
  obtain ⟨labels, reserved, begun, wellNamed⟩ := ordered
  have continues := begun.continues reserved
  exact ⟨interpreter.activity.labels, continues.reserved, .executing,
    wellNamed.mono (reserved.monotone continues.notBefore)⟩

theorem perform_ordered {command : Command} (ordered : interpreter.Ordered numbering)
    (replied : interpreter.perform fuel command = some reply) : reply.interpreter.Ordered numbering := by
  rcases perform_cases replied with taken | ⟨stack, same⟩ | same
  · exact executeAll_ordered ordered taken
  · rw [same]
    exact ordered
  · rw [same]
    exact reset_ordered ordered

end Interpreter

/-- The groups of words that come with the language. -/
def Vocabulary.groups : List (List Word) := [base, printing, prelude]

/-- The interpreters that a host can come to from one that knows some of the groups, by any commands
and whether or not they fail. -/
inductive Interpreter.Reachable (labels : Labels) : Interpreter → Prop where
  | start {groups : List (List Word)} (builtIn : ∀ group ∈ groups, group ∈ Vocabulary.groups) :
      Reachable labels (.ofWords labels groups.flatten)
  | step {interpreter : Interpreter} {fuel : Nat} {command : Command} {reply : Reply}
      (reached : Reachable labels interpreter) (replied : interpreter.perform fuel command = some reply) :
      Reachable labels reply.interpreter

theorem Vocabulary.wellNamed_groups :
    ∀ group ∈ groups, ∀ word ∈ group,
      word.visible = true ∧ word.action.isConditional = false ∧ Token.isName word.name = true := by
  decide +kernel

theorem Interpreter.Reachable.ordered {labels : Labels} {numbering : Nat → Nat} {interpreter : Interpreter}
    (reserved : labels.Reserved numbering) (reachable : Reachable labels interpreter) :
    interpreter.Ordered numbering := by
  induction reachable with
  | start builtIn =>
      refine ⟨labels, reserved, .executing, ?_⟩
      intro name word found
      rcases Dictionary.find?_insertAll found with ⟨listed, own⟩ | earlier
      · obtain ⟨group, isGroup, inGroup⟩ := List.mem_flatten.mp listed
        exact ⟨own, .inl (Vocabulary.wellNamed_groups group (builtIn group isGroup) word inGroup)⟩
      · rw [Dictionary.find?_empty] at earlier
        cases earlier
  | step _ replied kept => exact perform_ordered kept replied

/-- Whatever a token does to an interpreter that a host has come to: a fault leaves it executing, only
a definition that succeeds changes the dictionary, and a definition that is incomplete does not touch
the stack. -/
theorem execute_is_transactional {labels : Labels} {numbering : Nat → Nat} (reserved : labels.Reserved numbering)
    {interpreter : Interpreter} (reachable : interpreter.Reachable labels) {fuel : Nat} {token : Token} {reply : Reply}
    (replied : interpreter.execute fuel token = some reply) :
    (reply.fault ≠ none → reply.interpreter.mode = .executing) ∧
    (¬(interpreter.mode = .recording ∧ token = ";" ∧ reply.fault = none) →
      reply.interpreter.dictionary = interpreter.dictionary) ∧
    ∀ reason, reply.fault = some (.incompleteDefinition reason) →
      reply.interpreter.stack = interpreter.stack := by
  obtain ⟨supply, reservedSupply, begun, wellNamed⟩ := reachable.ordered reserved
  cases Interpreter.execute_turn reservedSupply begun wellNamed replied with
  | collected => exact ⟨fun failed => absurd rfl failed, fun _ => rfl, fun _ _ => rfl⟩
  | ran _ ordinary =>
      refine ⟨fun _ => rfl, fun _ => rfl, ?_⟩
      intro reason failed
      cases ordinary _ failed
  | discarded => exact ⟨fun _ => rfl, fun _ => rfl, fun _ _ => rfl⟩
  | defined recording ends _ =>
      exact ⟨fun failed => absurd rfl failed, fun other => absurd ⟨recording, ends, rfl⟩ other, fun _ _ => rfl⟩

/-- After a definition with conditionals, a conditional outside of definitions that fails while it
runs. -/
theorem execute_is_transactional_failing :
    ∃ (interpreter : Interpreter) (reply : Reply), interpreter.Reachable .standard ∧
      interpreter.execute 9 "then" = some reply ∧ reply.fault = some (.unknownWord "nonsense") ∧
      reply.interpreter.mode = .executing ∧ reply.interpreter.dictionary = interpreter.dictionary ∧
      interpreter.mode = .conditional ∧ interpreter.dictionary.find? "<if-0>" ≠ none := by
  have runs : ((Interpreter.standard.perform 9 (.line ": pick if 1 else 2 then ; 0 if nonsense")).bind
      fun first => (first.interpreter.execute 9 "then").map fun second =>
        (second.fault, first.interpreter.mode, (first.interpreter.dictionary.find? "<if-0>").isSome)) =
          some (some (.unknownWord "nonsense"), .conditional, true) := by
    decide +kernel
  obtain ⟨first, typed, executed⟩ := Option.bind_eq_some_iff.mp runs
  obtain ⟨second, replied, same⟩ := Option.map_eq_some_iff.mp executed
  simp only [Prod.mk.injEq] at same
  obtain ⟨fails, collecting, there⟩ := same
  have start : Interpreter.standard.Reachable .standard :=
    @Interpreter.Reachable.start .standard Vocabulary.groups fun _ member => member
  have reachable := start.step typed
  obtain ⟨recovers, restores, _⟩ := execute_is_transactional Labels.reserved_standard reachable replied
  refine ⟨first.interpreter, second, reachable, replied, fails, recovers ?_, restores ?_, collecting, ?_⟩
  · rw [fails]
    exact Option.some_ne_none _
  · intro succeeded
    rw [fails] at succeeded
    cases succeeded.2.2
  · exact Option.isSome_iff_ne_none.mp there

end Forth

import Forth.Proofs.Commands
import Forth.Proofs.Composition
import Forth.Proofs.Installation
import Forth.Proofs.Sessions

/-! Compilation keeps the meaning of a body. Running the flat code of a body, in a dictionary that
holds the words of its conditionals, has the same outcome as evaluating the body by its structure;
and a definition leaves a dictionary that holds them. -/

namespace Forth

open Body (Spelled)

section Branches

theorem steady_branchOn (stack : Stack) {ifBranch elseBranch : Stack → Nat → Option Ending}
    (steadyIf : ∀ left, Steady (ifBranch left)) (steadyElse : ∀ left, Steady (elseBranch left)) :
    Steady fun fuel => branchOn stack (fun left => ifBranch left fuel) fun left => elseBranch left fuel := by
  cases stack with
  | nil => exact steady_const _
  | cons selector rest =>
      simp only [branchOn_cons]
      split
      · exact steadyIf rest
      · exact steadyElse rest

theorem sameOutcome_branchOn (stack : Stack)
    {ifBranch elseBranch otherIf otherElse : Stack → Nat → Option Ending}
    (sameIf : ∀ left, SameOutcome (ifBranch left) (otherIf left))
    (sameElse : ∀ left, SameOutcome (elseBranch left) (otherElse left)) :
    SameOutcome (fun fuel => branchOn stack (fun left => ifBranch left fuel) fun left => elseBranch left fuel)
      fun fuel => branchOn stack (fun left => otherIf left fuel) fun left => otherElse left fuel := by
  cases stack with
  | nil => exact .refl _
  | cons selector rest =>
      simp only [branchOn_cons]
      split
      · exact sameIf rest
      · exact sameElse rest

end Branches

theorem Body.steady_eval (dictionary : Dictionary) (body : Body) (stack : Stack) :
    Steady fun fuel => body.eval dictionary fuel stack := by
  induction body generalizing stack with
  | done => exact steady_const _
  | token plain rest ihRest =>
      exact (Machine.steady_runTokens dictionary stack [plain]).bind fun ending =>
        ending.steady_andThen ihRest
  | ifThen ifBody rest ihIf ihRest =>
      exact (steady_branchOn stack ihIf fun _ => steady_const _).bind fun ending =>
        ending.steady_andThen ihRest
  | ifElse ifBody elseBody rest ihIf ihElse ihRest =>
      exact (steady_branchOn stack ihIf ihElse).bind fun ending => ending.steady_andThen ihRest

namespace Machine

variable {dictionary : Dictionary}

variable (dictionary) in
theorem sameOutcome_nil (stack : Stack) :
    SameOutcome (fun fuel => runTokens dictionary fuel stack []) fun _ => some ⟨stack, "", none⟩ := by
  apply SameOutcome.of_settles
  intro ending
  rw [settles_const]
  exact settles_run_of_ended rfl ending

/-- A conditional takes its selector off the stack and runs the branch that it picks. -/
theorem sameOutcome_conditional {label : Token} {word : Word} {ifBody elseBody : List Token}
    (noNumeral : Number.ofNumeral? label = none) (found : dictionary.find? label = some word)
    (isConditional : word.action = .conditional ifBody elseBody) (stack : Stack) :
    SameOutcome (fun fuel => runTokens dictionary fuel stack [label]) fun fuel =>
      branchOn stack (fun left => runTokens dictionary fuel left ifBody) fun left =>
        runTokens dictionary fuel left elseBody := by
  apply SameOutcome.of_settles
  intro ending
  have steps : step dictionary ⟨stack, [label], ""⟩ =
      Machine.branch ⟨stack, [label], ""⟩ ifBody elseBody [] := by
    simp only [step, executeToken, noNumeral, found, isConditional, act]
  cases stack with
  | nil =>
      simp only [branchOn_nil]
      exact (settles_run_of_ended steps ending).trans (settles_const _ ending).symm
  | cons selector rest =>
      simp only [branchOn_cons]
      simp only [Machine.branch, Stack.popValue, Value.picksIf_iff, Agenda.pushBody, List.append_nil] at steps
      split
      next picks =>
        rw [if_pos picks] at steps
        exact settles_run_of_moved steps ending
      next picks =>
        rw [if_neg picks] at steps
        exact settles_run_of_moved steps ending

end Machine

/-- The dictionary has these words, and no numeral hides them. -/
def Dictionary.Holds (dictionary : Dictionary) (entries : List (String × Action)) : Prop :=
  ∀ label action, (label, action) ∈ entries → Number.ofNumeral? label = none ∧
    ∃ word, dictionary.find? label = some word ∧ word.action = action

/-- A computation in two parts keeps its outcome when either part is replaced by one with the same
outcome. -/
theorem sameOutcome_andThen {first other : Nat → Option Ending} {next following : Stack → Nat → Option Ending}
    (steadyFirst : Steady first) (steadyOther : Steady other)
    (steadyNext : ∀ stack, Steady (next stack)) (steadyFollowing : ∀ stack, Steady (following stack))
    (sameFirst : SameOutcome first other)
    (sameNext : ∀ middle, Settles other middle → SameOutcome (next middle.stack) (following middle.stack)) :
    SameOutcome
      (fun fuel => (first fuel).bind fun ending => ending.andThen fun stack => next stack fuel)
      fun fuel => (other fuel).bind fun ending => ending.andThen fun stack => following stack fuel := by
  apply SameOutcome.of_settles
  intro result
  rw [settles_bind steadyFirst fun ending => ending.steady_andThen steadyNext,
    settles_bind steadyOther fun ending => ending.steady_andThen steadyFollowing]
  apply exists_congr
  intro middle
  rw [sameFirst.settles_iff middle]
  apply and_congr_right
  intro settles
  exact (middle.sameOutcome_andThen (sameNext middle settles)).settles_iff result

theorem Machine.sameOutcome_cons (dictionary : Dictionary) (stack : Stack) (token : Token)
    (later : List Token) :
    SameOutcome (fun fuel => runTokens dictionary fuel stack (token :: later)) fun fuel =>
      (runTokens dictionary fuel stack [token]).bind fun ending =>
        ending.andThen fun left => runTokens dictionary fuel left later :=
  sameOutcome_append dictionary stack [token] later

theorem Dictionary.Holds.left {dictionary : Dictionary} {front back : List (String × Action)}
    (holds : dictionary.Holds (front ++ back)) : dictionary.Holds front :=
  fun label action member => holds label action (List.mem_append_left back member)

theorem Dictionary.Holds.right {dictionary : Dictionary} {front back : List (String × Action)}
    (holds : dictionary.Holds (front ++ back)) : dictionary.Holds back :=
  fun label action member => holds label action (List.mem_append_right front member)

theorem Dictionary.Holds.tail {dictionary : Dictionary} {entry : String × Action}
    {entries : List (String × Action)} (holds : dictionary.Holds (entry :: entries)) :
    dictionary.Holds entries :=
  fun label action member => holds label action (List.mem_cons_of_mem entry member)

/-- Calling a conditional in front of other code, when the meaning of its branches and of that code
is known. -/
theorem Machine.sameOutcome_call {dictionary : Dictionary} {label : Token} {ifCode elseCode later : List Token}
    {entries : List (String × Action)}
    (holds : dictionary.Holds ((label, .conditional ifCode elseCode) :: entries))
    {ifMeaning elseMeaning laterMeaning : Stack → Nat → Option Ending}
    (steadyIf : ∀ left, Steady (ifMeaning left)) (steadyElse : ∀ left, Steady (elseMeaning left))
    (steadyLater : ∀ left, Steady (laterMeaning left))
    (sameIf : ∀ left, SameOutcome (fun fuel => runTokens dictionary fuel left ifCode) (ifMeaning left))
    (sameElse : ∀ left, SameOutcome (fun fuel => runTokens dictionary fuel left elseCode) (elseMeaning left))
    (sameLater : ∀ left, SameOutcome (fun fuel => runTokens dictionary fuel left later) (laterMeaning left))
    (stack : Stack) :
    SameOutcome (fun fuel => runTokens dictionary fuel stack (label :: later)) fun fuel =>
      (branchOn stack (fun left => ifMeaning left fuel) fun left => elseMeaning left fuel).bind fun ending =>
        ending.andThen fun left => laterMeaning left fuel := by
  obtain ⟨noNumeral, word, found, isConditional⟩ := holds label _ (List.mem_cons_self ..)
  refine (sameOutcome_cons dictionary stack label later).trans ?_
  apply sameOutcome_andThen (steady_runTokens dictionary stack [label])
    (steady_branchOn stack steadyIf steadyElse) (fun left => steady_runTokens dictionary left later) steadyLater
  · exact (sameOutcome_conditional noNumeral found isConditional stack).trans
      (sameOutcome_branchOn stack sameIf sameElse)
  · exact fun middle _ => sameLater middle.stack

/-- The flat code of a body means what the body means. -/
theorem Body.sameOutcome_flat {dictionary : Dictionary} (body : Body) {labels : Labels}
    (holds : dictionary.Holds (body.helpers labels)) (stack : Stack) :
    SameOutcome (fun fuel => Machine.runTokens dictionary fuel stack (body.flat labels)) fun fuel =>
      body.eval dictionary fuel stack := by
  induction body generalizing labels stack with
  | done => exact Machine.sameOutcome_nil dictionary stack
  | token plain rest ihRest =>
      refine (Machine.sameOutcome_cons dictionary stack plain (rest.flat labels)).trans ?_
      exact sameOutcome_andThen (Machine.steady_runTokens dictionary stack [plain])
        (Machine.steady_runTokens dictionary stack [plain])
        (fun left => Machine.steady_runTokens dictionary left _) (rest.steady_eval dictionary)
        (.refl _) fun middle _ => ihRest holds middle.stack
  | ifThen ifBody rest ihIf ihRest =>
      exact Machine.sameOutcome_call holds.right (ifBody.steady_eval dictionary) (fun _ => steady_const _)
        (rest.steady_eval dictionary) (ihIf holds.left) (Machine.sameOutcome_nil dictionary)
        (ihRest holds.right.tail) stack
  | ifElse ifBody elseBody rest ihIf ihElse ihRest =>
      exact Machine.sameOutcome_call holds.right.right (ifBody.steady_eval dictionary)
        (elseBody.steady_eval dictionary) (rest.steady_eval dictionary) (ihIf holds.left)
        (ihElse holds.right.left) (ihRest holds.right.right.tail) stack

namespace Session

/-- A named session that is fed a name and a body holds the code of the body under the name. -/
theorem named_spelled {labels : Labels} {name : Token} {body : Body} {spelling : List Token}
    (isName : name.isName = true) (spelled : Spelled body spelling)
    (distinct : (labels.forSession body.branches).Nodup) :
    (named labels).pushAll (name :: spelling) =
      (Draft.absorb { Draft.named labels with name := some name } body).session := by
  have plain := Token.mark?_of_isName isName
  have first : (Draft.named labels).push name = .ok { Draft.named labels with name := some name } := by
    simp only [Draft.push, plain, Draft.takePlain, Draft.named, isName, if_true]
  have pushed : (Draft.named labels).pushAll (name :: spelling) =
      .ok (Draft.absorb { Draft.named labels with name := some name } body) := by
    rw [Draft.pushAll, first]
    exact Draft.pushAll_spelled spelled (.inr (Option.some_ne_none name))
  have count : Nesting.occurrences .ifMark (name :: spelling) = body.branches := by
    rw [Nesting.occurrences_cons, plain, spelled.occurrences_if]
    rfl
  exact Opening.named.pushAll_session distinct (Nat.le_of_eq count) pushed

end Session

namespace Labels

/-- What a definition asks of the labels it draws: no two are the same, and those of conditionals are
neither numerals nor the name of the word. -/
structure Suit (labels : Labels) (conditionals : Nat) (name : String) : Prop where
  distinct : (labels.forSession conditionals).Nodup
  noNumerals : ∀ label ∈ labels.afterDefinition.upcoming conditionals, Number.ofNumeral? label = none
  apart : ∀ label ∈ labels.afterDefinition.upcoming conditionals, label ≠ name

theorem Reserved.suit {labels : Labels} {numbering : Nat → Nat} (reserved : labels.Reserved numbering)
    (conditionals : Nat) {name : String} (isName : Token.isName name = true) : labels.Suit conditionals name where
  distinct := reserved.nodup_forSession conditionals
  noNumerals _ drawn := reserved.afterDefinition.ofNumeral?_upcoming drawn
  apart _ drawn := reserved.afterDefinition.ne_name_of_upcoming drawn isName

end Labels

/-- The words of a definition: the conditionals of its body, and the body under its name. -/
def Body.definitions (body : Body) (labels : Labels) (name : String) : Definitions :=
  (body.conditionals labels).insert name (.compiled (body.flat labels))

theorem Body.getElem?_definitions {body : Body} {labels : Labels} {name : String} (label : String) :
    (body.definitions labels name)[label]? =
      if name = label then some (.compiled (body.flat labels))
      else (body.conditionals labels)[label]? := by
  simp only [definitions, Std.ExtTreeMap.getElem?_insert, Std.LawfulEqCmp.compare_eq_iff_eq]

theorem Body.mem_definitions {body : Body} {labels : Labels} {name label : String}
    (member : label ∈ body.definitions labels name) : label ∈ name :: labels.upcoming body.branches := by
  rcases Std.ExtTreeMap.mem_insert.mp member with same | inConditionals
  · rw [Std.LawfulEqCmp.compare_eq_iff_eq] at same
    exact same ▸ List.mem_cons_self ..
  · exact List.mem_cons_of_mem name (Body.mem_conditionals inConditionals)

theorem Dictionary.holds_install (dictionary : Dictionary) {definitions : Definitions}
    {entries : List (String × Action)}
    (noNumerals : ∀ label ∈ entries.map Prod.fst, Number.ofNumeral? label = none)
    (there : ∀ label action, (label, action) ∈ entries → definitions[label]? = some action) :
    (dictionary.install definitions.toList).Holds entries := by
  intro label action member
  refine ⟨noNumerals label (List.mem_map_of_mem member), .defined label action, ?_, rfl⟩
  rw [Dictionary.find?_install, there label action member]

/-- Once the words of a definition are installed the dictionary holds its conditionals. -/
theorem Labels.Suit.holds_install {labels : Labels} {body : Body} {name : String}
    (suit : labels.Suit body.branches name) (dictionary : Dictionary) :
    (dictionary.install (body.definitions labels.afterDefinition name).toList).Holds
      (body.helpers labels.afterDefinition) := by
  have same := body.helpers_labels labels.afterDefinition
  apply dictionary.holds_install
  · exact fun label member => suit.noNumerals label (same.mem_iff.mp member)
  · intro label action member
    have drawn := same.mem_iff.mp (List.mem_map_of_mem member)
    rw [Body.getElem?_definitions, if_neg (suit.apart label drawn).symm]
    exact Body.getElem?_conditionals (List.nodup_cons.mp suit.distinct).2 member

namespace Interpreter

/-- The interpreter after a definition. -/
def defining (interpreter : Interpreter) (labels : Labels) (name : String) (body : Body) : Interpreter :=
  { interpreter with
    dictionary := interpreter.dictionary.install (body.definitions labels.afterDefinition name).toList
    activity := .executing (labels.afterDefinition.skip body.branches) }

theorem endDefinition_spelled (interpreter : Interpreter) {labels : Labels} {name : Token} {body : Body}
    {spelling : List Token} (isName : name.isName = true) (spelled : Spelled body spelling)
    (distinct : (labels.forSession body.branches).Nodup) :
    interpreter.endDefinition ((Session.named labels).pushAll (name :: spelling)) =
      { interpreter := interpreter.defining labels name body } := by
  have complete : (Draft.absorb { Draft.named labels with name := some name } body).session.complete =
      .ok (body.definitions labels.afterDefinition name) := Draft.complete_named rfl rfl
  rw [Session.named_spelled isName spelled distinct, endDefinition, complete]
  rfl

theorem executeAll_definition {interpreter : Interpreter} {labels : Labels} {name : Token} {body : Body}
    {spelling : List Token} (executing : interpreter.activity = .executing labels)
    (isName : name.isName = true) (spelled : Spelled body spelling)
    (distinct : (labels.forSession body.branches).Nodup) (fuel : Nat) :
    interpreter.executeAll fuel (":" :: name :: (spelling ++ [";"])) =
      some { interpreter := interpreter.defining labels name body } := by
  have inside : ∀ token ∈ name :: spelling,
      token.mark? ≠ some .colon ∧ token.mark? ≠ some .semicolon := by
    intro token member
    rcases List.mem_cons.mp member with rfl | later
    · simp [Token.mark?_of_isName isName]
    · exact spelled.inside token later
  have begun := executeAll_begun executing (fun token member => (inside token member).2) fuel
  rw [Session.recordAll_eq_pushAll fun token member => (inside token member).1] at begun
  rw [← List.cons_append, ← List.cons_append, executeAll_append, begun, Option.bind_some, Reply.andThen_quiet,
    executeAll_singleton, execute_semicolon, endDefinition_spelled _ isName spelled distinct]
  rfl

end Interpreter

theorem Machine.sameOutcome_compiled {dictionary : Dictionary} {name : Token} {word : Word} {body : List Token}
    (noNumeral : Number.ofNumeral? name = none) (found : dictionary.find? name = some word)
    (isCompiled : word.action = .compiled body) (stack : Stack) :
    SameOutcome (fun fuel => Machine.runTokens dictionary fuel stack [name]) fun fuel =>
      Machine.runTokens dictionary fuel stack body := by
  have alone := sameOutcome_body dictionary noNumeral found isCompiled stack []
  rwa [List.append_nil] at alone

/-- Running the defined word means what its body means. -/
theorem Interpreter.sameOutcome_defining (interpreter : Interpreter) {labels : Labels} {name : Token}
    {body : Body} (isName : name.isName = true) (suit : labels.Suit body.branches name) (stack : Stack) :
    SameOutcome
      (fun fuel => Machine.runTokens (interpreter.defining labels name body).dictionary fuel stack [name])
      fun fuel => body.eval (interpreter.defining labels name body).dictionary fuel stack := by
  have noNumeral := Token.ofNumeral?_of_isName isName
  have found : (interpreter.defining labels name body).dictionary.find? name =
      some (.defined name (.compiled (body.flat labels.afterDefinition))) := by
    rw [Interpreter.defining, Dictionary.find?_install, Body.getElem?_definitions, if_pos rfl]
  exact (Machine.sameOutcome_compiled noNumeral found rfl stack).trans
    (body.sameOutcome_flat (suit.holds_install interpreter.dictionary) stack)

/-- Compilation keeps the meaning: a definition succeeds, and running its word has the same outcome as
evaluating its body by structure, in the dictionary that the definition leaves. All it asks is that
the labels it draws are distinct and that those of conditionals are neither numerals nor its name,
which is always so for reserved labels. -/
theorem definition_keeps_meaning (interpreter : Interpreter) {labels : Labels} (name : Token) {body : Body}
    {spelling : List Token} (executing : interpreter.activity = .executing labels)
    (isName : name.isName = true) (spelled : Spelled body spelling) :
    (labels.Suit body.branches name → ∃ defined,
      (∀ fuel, interpreter.executeAll fuel (":" :: name :: (spelling ++ [";"])) =
        some { interpreter := defined, printed := "", fault := none }) ∧
      defined.mode = .executing ∧ defined.stack = interpreter.stack ∧
      ∀ stack, SameOutcome (fun fuel => Machine.runTokens defined.dictionary fuel stack [name])
        fun fuel => body.eval defined.dictionary fuel stack) ∧
    ∀ numbering, labels.Reserved numbering → labels.Suit body.branches name := by
  refine ⟨?_, fun _ reserved => reserved.suit body.branches isName⟩
  intro suit
  refine ⟨interpreter.defining labels name body, ?_, rfl, rfl, ?_⟩
  · exact Interpreter.executeAll_definition executing isName spelled suit.distinct
  · exact interpreter.sameOutcome_defining isName suit

/-- A word that calls itself from inside a branch. -/
theorem definition_keeps_meaning_countdown :
    let body : Body := .token "0" (.token "==" (.ifElse (.token "drop" (.token "drop" .done))
      (.token "drop" (.token "1" (.token "flip" (.token "-" (.token "countdown" .done))))) .done))
    Spelled body ["0", "==", "IF", "drop", "drop", "Else", "drop", "1", "flip", "-", "countdown", "then"] ∧
    Labels.standard.Suit body.branches "countdown" ∧
    ∃ defined, (∀ fuel, Interpreter.standard.executeAll fuel [":", "countdown", "0", "==", "IF", "drop",
        "drop", "Else", "drop", "1", "flip", "-", "countdown", "then", ";"] = some { interpreter := defined }) ∧
      ∀ stack, SameOutcome (fun fuel => Machine.runTokens defined.dictionary fuel stack ["countdown"])
        fun fuel => body.eval defined.dictionary fuel stack := by
  intro body
  have ends : Spelled (.token "drop" (.token "drop" .done)) ["drop", "drop"] :=
    .token (by decide) (.token (by decide) .done)
  have goesOn : Spelled (.token "drop" (.token "1" (.token "flip" (.token "-" (.token "countdown" .done)))))
      ["drop", "1", "flip", "-", "countdown"] :=
    .token (by decide) (.token (by decide) (.token (by decide) (.token (by decide) (.token (by decide) .done))))
  have branches := Spelled.ifElse (by decide : Token.mark? "IF" = _) (by decide : Token.mark? "Else" = _)
    (by decide : Token.mark? "then" = _) ends goesOn .done
  have spelled : Spelled body _ := .token (by decide) (.token (by decide) branches)
  have means := definition_keeps_meaning .standard "countdown" rfl (by decide) spelled
  have suit := means.2 id Labels.reserved_standard
  obtain ⟨defined, succeeds, _, _, same⟩ := means.1 suit
  exact ⟨spelled, suit, defined, succeeds, same⟩

end Forth

import Forth.Proofs.Marks
import Forth.Proofs.TopLevel

/-! Two ways to pick one of two numbers by a flag. The word `choose` finds all three on the stack and has
the number that it picks executed as a token, so the number is written out and read again; a conditional
finds only the flag there and goes on with the numeral of one of its branches. They pick the same. -/

namespace Forth

/-- The number that a flag picks. -/
def pick (flag ifNumber elseNumber : Number) : Number := if flag = 0 then ifNumber else elseNumber

theorem pick_zero (ifNumber elseNumber : Number) : pick 0 ifNumber elseNumber = ifNumber := if_pos rfl

theorem pick_one (ifNumber elseNumber : Number) : pick 1 ifNumber elseNumber = elseNumber := if_neg (by decide)

theorem Token.mark?_numeral (number : Number) : Token.mark? number.numeral = none :=
  mark?_of_ofNumeral? (Number.ofNumeral?_numeral number)

namespace Machine

variable {dictionary : Dictionary} (stack : Stack) (agenda : Agenda) (printed : String)

/-- A number that is written out and executed is back on the stack. -/
theorem step_numeral (number : Number) :
    step dictionary ⟨stack, number.numeral :: agenda, printed⟩ =
      .moved ⟨.number number :: stack, agenda, printed⟩ := by
  simp only [step, executeToken, Number.ofNumeral?_numeral, push]

theorem step_choose {word : Word} (found : dictionary.find? "choose" = some word)
    (isChoose : word.action = .primitive .choose) {flag : Number} (isFlag : flag = 0 ∨ flag = 1)
    (ifNumber elseNumber : Number) :
    step dictionary ⟨.number flag :: .number elseNumber :: .number ifNumber :: stack, "choose" :: agenda, printed⟩ =
      .moved ⟨stack, (pick flag ifNumber elseNumber).numeral :: agenda, printed⟩ := by
  have noNumeral : Number.ofNumeral? "choose" = none := by decide
  simp only [step, executeToken, noNumeral, found, act, isChoose, applyPrimitive, Primitive.apply, chooseBetween]
  rcases isFlag with rfl | rfl
  · simp only [Value.reading, if_pos, String.append_empty, pick_zero]
    rfl
  · have notZero : (1 : Number) ≠ 0 := by decide
    simp only [Value.reading, if_neg notZero, if_pos, String.append_empty, pick_one]
    rfl

theorem step_numerals {label : Token} {ifNumber elseNumber : Number}
    (holds : dictionary.Holds [(label, .conditional [ifNumber.numeral] [elseNumber.numeral])]) (flag : Number) :
    step dictionary ⟨.number flag :: stack, label :: agenda, printed⟩ =
      .moved ⟨stack, (pick flag ifNumber elseNumber).numeral :: agenda, printed⟩ := by
  obtain ⟨noNumeral, word, found, acts⟩ := holds label _ (List.mem_singleton.2 rfl)
  simp only [step, executeToken, noNumeral, found, act, acts, branch, Stack.popValue, Value.picksIf,
    Value.reading, pick]
  by_cases zero : flag = 0
  · simp only [zero, beq_self_eq_true, if_true]
    rfl
  · simp only [beq_eq_false_iff_ne.2 zero, if_neg zero]
    rfl

theorem runTokens_numeral (fuel : Nat) (number : Number) :
    runTokens dictionary (fuel + 2) stack [number.numeral] = some ⟨.number number :: stack, "", none⟩ := by
  simp only [runTokens, run, step_numeral]
  rfl

theorem runTokens_numerals {label : Token} {ifNumber elseNumber : Number}
    (holds : dictionary.Holds [(label, .conditional [ifNumber.numeral] [elseNumber.numeral])]) (fuel : Nat)
    (flag : Number) :
    runTokens dictionary (fuel + 3) (.number flag :: stack) [label] =
      some ⟨.number (pick flag ifNumber elseNumber) :: stack, "", none⟩ := by
  simp only [runTokens, run, step_numerals _ _ _ holds, step_numeral]
  rfl

end Machine

/-- A conditional with one numeral in each branch. -/
def Body.numerals (ifNumber elseNumber : Number) : Body :=
  .ifElse (.token ifNumber.numeral .done) (.token elseNumber.numeral .done) .done

namespace Interpreter

open Body (Spelled)

theorem runDecision_of_ran {fuel : Nat} {interpreter : Interpreter} {decision : Decision} {ending : Ending}
    (ran : Machine.runTokens (interpreter.dictionary.install decision.helpers.toList) fuel interpreter.stack
      decision.body = some ending) :
    interpreter.runDecision fuel decision = some
      { interpreter := { interpreter with
          stack := ending.stack
          dictionary := (interpreter.dictionary.install decision.helpers.toList).eraseAll decision.helpers.keys }
        printed := ending.printed
        fault := ending.fault } := by
  simp only [runDecision, runTokens, ran, Option.map_some]

section Numerals

variable {interpreter : Interpreter} {labels : Labels} (executing : interpreter.activity = .executing labels)
  (distinct : (labels.forSession 1).Nodup)
  (noNumeral : Number.ofNumeral? labels.afterDefinition.nextConditional = none)
include executing distinct noNumeral

/-- A conditional between two numerals that is typed on top of a flag. -/
theorem executeAll_numerals (flag ifNumber elseNumber : Number) (fuel : Nat) :
    let helpers := (Body.numerals ifNumber elseNumber).conditionals labels.afterDefinition
    executeAll (fuel + 3) { interpreter with stack := .number flag :: interpreter.stack }
        ["if", ifNumber.numeral, "else", elseNumber.numeral, "then"] = some
      { interpreter := {
          stack := .number (pick flag ifNumber elseNumber) :: interpreter.stack
          dictionary := (interpreter.dictionary.install helpers.toList).eraseAll helpers.keys
          activity := .executing (labels.afterSession 1) } } := by
  intro helpers
  let flagged := { interpreter with stack := .number flag :: interpreter.stack }
  have numeralSpelled (number : Number) : Spelled (.token number.numeral .done) [number.numeral] :=
    .token (Token.mark?_numeral number) .done
  have spelled : Spelled (.numerals ifNumber elseNumber)
      ["if", ifNumber.numeral, "else", elseNumber.numeral, "then"] :=
    .ifElse Body.mark_if Body.mark_else Body.mark_then (numeralSpelled _) (numeralSpelled _) .done
  have isInside := Nesting.inside_ifElse (numeralSpelled ifNumber) Body.mark_else (numeralSpelled elseNumber)
  have holds : (interpreter.dictionary.install helpers.toList).Holds
      [(labels.afterDefinition.nextConditional, .conditional [ifNumber.numeral] [elseNumber.numeral])] := by
    apply interpreter.dictionary.holds_install
    · intro label member
      rw [List.mem_singleton.1 member]
      exact noNumeral
    · intro label action member
      exact Body.getElem?_conditionals (List.nodup_cons.mp distinct).2 member
  have collecting : flagged.activity = .executing labels := executing
  have ended := executeAll_block collecting Body.mark_if isInside spelled distinct (fuel + 3)
  have runs : flagged.executeAll (fuel + 3) ["if", ifNumber.numeral, "else", elseNumber.numeral, "then"] =
      runDecision (fuel + 3) { flagged with activity := .executing (labels.afterSession 1) }
        ⟨[labels.afterDefinition.nextConditional], helpers⟩ := by
    rw [endConditional_eq_runDecision distinct] at ended
    exact ended
  rw [runs, runDecision_of_ran (Machine.runTokens_numerals interpreter.stack holds fuel flag)]

/-- The same with the flag typed in front. -/
theorem executeAll_flagged (flag ifNumber elseNumber : Number) (fuel : Nat) :
    let helpers := (Body.numerals ifNumber elseNumber).conditionals labels.afterDefinition
    interpreter.executeAll (fuel + 3)
        [flag.numeral, "if", ifNumber.numeral, "else", elseNumber.numeral, "then"] = some
      { interpreter := {
          stack := .number (pick flag ifNumber elseNumber) :: interpreter.stack
          dictionary := (interpreter.dictionary.install helpers.toList).eraseAll helpers.keys
          activity := .executing (labels.afterSession 1) } } := by
  intro helpers
  have pushed : interpreter.execute (fuel + 3) flag.numeral =
      some { interpreter := { interpreter with stack := .number flag :: interpreter.stack } } := by
    rw [execute_plain executing (Token.mark?_numeral flag), Machine.runTokens_numeral]
    rfl
  rw [executeAll_cons, pushed, Option.bind_some, Reply.andThen_quiet]
  exact executeAll_numerals executing distinct noNumeral flag ifNumber elseNumber fuel

end Numerals

end Interpreter

/-- Whatever the words of the dictionary are, if `choose` is the primitive word, then it picks the number
that a conditional picks: it takes the flag and both numbers, and the next step puts the picked one on the
rest of the stack before anything else is executed; a conditional typed on the same rest leaves the same
stack, and the words made for it are gone again. -/
theorem choose_agrees_with_if (interpreter : Interpreter) {labels : Labels} {word : Word}
    (executing : interpreter.activity = .executing labels) (found : interpreter.dictionary.find? "choose" = some word)
    (isChoose : word.action = .primitive .choose) (distinct : (labels.forSession 1).Nodup)
    (noNumeral : Number.ofNumeral? labels.afterDefinition.nextConditional = none) (ifNumber elseNumber : Number)
    {flag : Number} (isFlag : flag = 0 ∨ flag = 1) (pending : Agenda) (printed : String) :
    let before : Machine :=
      ⟨.number flag :: .number elseNumber :: .number ifNumber :: interpreter.stack, "choose" :: pending, printed⟩
    let picked := if flag = 0 then ifNumber else elseNumber
    let after : Machine := ⟨.number picked :: interpreter.stack, pending, printed⟩
    (∃ between, before.step interpreter.dictionary = .moved between ∧ between.agenda = picked.numeral :: pending ∧
      between.step interpreter.dictionary = .moved after) ∧
    ∃ dictionary, Settles (fun fuel => interpreter.executeAll fuel
        [flag.numeral, "if", ifNumber.numeral, "else", elseNumber.numeral, "then"])
        { interpreter := ⟨after.stack, dictionary, .executing (labels.afterSession 1)⟩
          printed := "", fault := none } ∧
      (interpreter.dictionary.find? labels.afterDefinition.nextConditional = none →
        dictionary = interpreter.dictionary) := by
  intro before picked after
  refine ⟨⟨_, Machine.step_choose interpreter.stack pending printed found isChoose isFlag ifNumber elseNumber, rfl,
    Machine.step_numeral ..⟩, ?_⟩
  refine ⟨_, ⟨3, Interpreter.executeAll_flagged executing distinct noNumeral flag ifNumber elseNumber 0⟩, ?_⟩
  intro fresh
  apply Dictionary.eraseAll_install
  intro name member
  have isLabel : name ∈ labels.afterDefinition.upcoming 1 := Body.mem_conditionals member
  rw [List.mem_singleton.1 isLabel]
  exact fresh

/-- The least of all numbers is picked, in a dictionary with a word under its numeral. -/
theorem choose_agrees_with_if_least :
    let least : Number := -9223372036854775808
    let interpreter : Interpreter := { Interpreter.standard with
      stack := [.empty, .number 7]
      dictionary := Interpreter.standard.dictionary.insert (.defined "-9223372036854775808" (.compiled ["drop"])) }
    (∃ word, interpreter.dictionary.find? "choose" = some word ∧ word.action = .primitive .choose) ∧
    (Labels.standard.forSession 1).Nodup ∧
    Number.ofNumeral? Labels.standard.afterDefinition.nextConditional = none ∧
    (∃ between, Machine.step interpreter.dictionary
        ⟨[.number 1, .number least, .number 5, .empty, .number 7], ["choose", "dup"], ""⟩ = .moved between ∧
      between.agenda = ["-9223372036854775808", "dup"] ∧
      between.step interpreter.dictionary = .moved ⟨[.number least, .empty, .number 7], ["dup"], ""⟩) ∧
    Settles (fun fuel => interpreter.executeAll fuel ["1", "if", "5", "else", "-9223372036854775808", "then"])
      { interpreter := { interpreter with
          stack := [.number least, .empty, .number 7]
          activity := .executing (Labels.standard.afterSession 1) } } := by
  intro least interpreter
  have found : ∃ word, interpreter.dictionary.find? "choose" = some word ∧ word.action = .primitive .choose := by
    rw [Dictionary.find?_insert, if_neg (by decide)]
    decide +kernel
  have distinct : (Labels.standard.forSession 1).Nodup := Labels.reserved_standard.nodup_forSession 1
  have noNumeral : Number.ofNumeral? Labels.standard.afterDefinition.nextConditional = none := by decide
  have fresh : interpreter.dictionary.find? Labels.standard.afterDefinition.nextConditional = none := by
    rw [Dictionary.find?_insert, if_neg (by decide)]
    decide +kernel
  have isLeast : (if (1 : Number) = 0 then 5 else least) = least := if_neg (by decide)
  have written : Number.numeral 1 = "1" ∧ Number.numeral 5 = "5" ∧ least.numeral = "-9223372036854775808" := by decide
  obtain ⟨word, isWord, isChoose⟩ := found
  obtain ⟨chosen, dictionary, settles, unchanged⟩ := choose_agrees_with_if interpreter rfl isWord isChoose distinct
    noNumeral 5 least (.inr rfl) ["dup"] ""
  rw [unchanged fresh] at settles
  simp only [isLeast, written] at chosen settles
  exact ⟨⟨word, isWord, isChoose⟩, distinct, noNumeral, chosen, settles⟩

end Forth

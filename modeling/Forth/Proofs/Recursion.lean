import Forth.Console.Program
import Forth.Proofs.Marks
import Forth.Proofs.NumeralGrammar
import Forth.Proofs.TopLevel
import Forth.Proofs.Unfolding

/-! Words that call themselves, at every depth. Both of those below test whether they have come to zero and
otherwise go on with the number before. The one calls itself last, so that nothing is pending after the call
and the agenda stays short however often it is called. The other leaves an addition behind each call: these
pile up on the agenda, and the numbers to add on the stack, until zero is reached and they are done. -/

namespace Forth

namespace Machine

/-- The run comes from the one machine to the other, and before each of its steps at most the given number of
tokens are pending. -/
inductive Leads (dictionary : Dictionary) (bound : Nat) : Machine → Machine → Prop where
  | here (machine : Machine) : Leads dictionary bound machine machine
  | step {machine next last : Machine} (few : machine.agenda.length ≤ bound)
      (moves : machine.step dictionary = .moved next) (rest : Leads dictionary bound next last) :
      Leads dictionary bound machine last

variable {dictionary : Dictionary} {bound : Nat} {machine next last other : Machine}

namespace Leads

theorem trans (front : Leads dictionary bound machine next) (back : Leads dictionary bound next last) :
    Leads dictionary bound machine last := by
  induction front with
  | here => exact back
  | step few moves _ ih => exact .step few moves (ih back)

/-- A run comes to whatever it comes to from a machine on its way. -/
theorem settles_iff (leads : Leads dictionary bound machine last) (ending : Ending) :
    Settles (fun fuel => run dictionary fuel machine) ending ↔
      Settles (fun fuel => run dictionary fuel last) ending := by
  induction leads with
  | here => exact Iff.rfl
  | step _ moves _ ih => exact (settles_run_of_moved moves ending).trans ih

end Leads

/-- A machine is deterministic: what it reaches is on the known part of its way, or beyond. -/
theorem Leads.reaches (leads : Leads dictionary bound machine last) (reaches : Reaches dictionary machine other) :
    other.agenda.length ≤ bound ∨ Reaches dictionary last other := by
  induction leads with
  | here => exact .inr reaches
  | step few moves _ ih =>
      rcases reaches.cases_head with rfl | ⟨next, first, rest⟩
      · exact .inl few
      · rw [moves, Step.moved.injEq] at first
        exact ih (first ▸ rest)

/-- If the run is over at the end of its way, then it never has more tokens pending. -/
theorem Leads.within (leads : Leads dictionary bound machine last) (finished : last.agenda = [])
    (reaches : Reaches dictionary machine other) : other.agenda.length ≤ bound := by
  rcases leads.reaches reaches with few | beyond
  · exact few
  · rcases beyond.cases_head with rfl | ⟨next, moves, _⟩
    · rw [finished]
      exact Nat.zero_le bound
    · simp only [Machine.step, finished, reduceCtorEq] at moves

section Words

variable {entries : List (String × Action)} (holds : dictionary.Holds entries) {token : Token} {stack : Stack}
  {agenda : Agenda} {printed : String}
include holds

theorem step_held {action : Action} (member : (token, action) ∈ entries) :
    step dictionary ⟨stack, token :: agenda, printed⟩ = act ⟨stack, token :: agenda, printed⟩ action agenda := by
  obtain ⟨noNumeral, word, found, acts⟩ := holds token action member
  simp only [step, executeToken, noNumeral, found, acts]

/-- A primitive word that only changes the stack. -/
theorem Leads.primitive {primitive : Primitive} {changed : Stack} (member : (token, .primitive primitive) ∈ entries)
    (applied : primitive.apply stack = .ok ⟨changed, [], ""⟩) (few : agenda.length < bound)
    (rest : Leads dictionary bound ⟨changed, agenda, printed⟩ last) :
    Leads dictionary bound ⟨stack, token :: agenda, printed⟩ last := by
  refine .step few ?_ rest
  simp only [step_held holds member, act, applyPrimitive, applied, Agenda.pushBody, List.nil_append,
    String.append_empty]

theorem Leads.call {body : List Token} (member : (token, .compiled body) ∈ entries) (few : agenda.length < bound)
    (rest : Leads dictionary bound ⟨stack, body ++ agenda, printed⟩ last) :
    Leads dictionary bound ⟨stack, token :: agenda, printed⟩ last := by
  refine .step few ?_ rest
  simp only [step_held holds member, act, Agenda.pushBody]

theorem Leads.branch {ifBody elseBody : List Token} {condition : Bool}
    (member : (token, .conditional ifBody elseBody) ∈ entries) (few : agenda.length < bound)
    (rest : Leads dictionary bound ⟨stack, (if condition then ifBody else elseBody) ++ agenda, printed⟩ last) :
    Leads dictionary bound ⟨.ofBool condition :: stack, token :: agenda, printed⟩ last := by
  refine .step few ?_ rest
  simp only [step_held holds member, act, Machine.branch, Stack.popValue, Value.ofBool_picksIf, Agenda.pushBody]

end Words

theorem Leads.literal {token : Token} {number : Number} (reads : Number.ofNumeral? token = some number)
    {stack : Stack} {agenda : Agenda} {printed : String} (few : agenda.length < bound)
    (rest : Leads dictionary bound ⟨.number number :: stack, agenda, printed⟩ last) :
    Leads dictionary bound ⟨stack, token :: agenda, printed⟩ last := by
  refine .step few ?_ rest
  simp only [Machine.step, executeToken, reads, push]

end Machine

/-- Tokens one after the other. -/
def Body.ofTokens : List Token → Body
  | [] => .done
  | first :: rest => .token first (ofTokens rest)

section OfTokens

variable (tokens : List Token) (labels : Labels)

theorem Body.spelled_ofTokens (plain : ∀ token ∈ tokens, token.mark? = none) :
    Body.Spelled (.ofTokens tokens) tokens := by
  induction tokens with
  | nil => exact .done
  | cons token tokens ih =>
      obtain ⟨isPlain, arePlain⟩ := List.forall_mem_cons.1 plain
      exact .token isPlain (ih arePlain)

theorem Body.flat_ofTokens : (Body.ofTokens tokens).flat labels = tokens := by
  induction tokens with
  | nil => rfl
  | cons token tokens ih => rw [ofTokens, flat, ih]

theorem Body.helpers_ofTokens : (Body.ofTokens tokens).helpers labels = [] := by
  induction tokens with
  | nil => rfl
  | cons token tokens ih => rw [ofTokens, helpers, ih]

theorem Body.branches_ofTokens : (Body.ofTokens tokens).branches = 0 := by
  induction tokens with
  | nil => rfl
  | cons token tokens ih => rw [ofTokens, branches, ih]

end OfTokens

theorem Dictionary.Holds.install {dictionary : Dictionary} {entries : List (String × Action)}
    (holds : dictionary.Holds entries) {definitions : Definitions}
    (apart : ∀ entry ∈ entries, entry.1 ∉ definitions) : (dictionary.install definitions.toList).Holds entries := by
  intro label action member
  obtain ⟨noNumeral, word, found, acts⟩ := holds label action member
  refine ⟨noNumeral, word, ?_, acts⟩
  rw [find?_install, Std.ExtTreeMap.getElem?_eq_none (apart (label, action) member)]
  exact found

/-- A number and then a word, each typed for itself. -/
theorem Interpreter.settles_executeAll_pair {interpreter : Interpreter} {labels : Labels} {numeral name : Token}
    {number : Number} {ending : Ending} (executing : interpreter.activity = .executing labels)
    (reads : Number.ofNumeral? numeral = some number) (noMark : name.mark? = none)
    (settles : Settles
      (fun fuel => Machine.runTokens interpreter.dictionary fuel (.number number :: interpreter.stack) [name]) ending) :
    Settles (fun fuel => interpreter.executeAll fuel [numeral, name])
      { interpreter := { interpreter with stack := ending.stack }
        printed := ending.printed
        fault := ending.fault } := by
  obtain ⟨fuel, reached⟩ := settles
  -- The word may need less fuel than the numeral, which needs two: one to be read and one to be done.
  have enough := Machine.steady_runTokens _ _ _ (Nat.le_add_right fuel 2) reached
  have pushed : Machine.runTokens interpreter.dictionary (fuel + 2) interpreter.stack [numeral] =
      some ⟨.number number :: interpreter.stack, "", none⟩ := by
    simp only [Machine.runTokens, Machine.run, Machine.step, Machine.executeToken, reads, Machine.push]
  have first : interpreter.execute (fuel + 2) numeral =
      some { interpreter := { interpreter with stack := .number number :: interpreter.stack } } := by
    rw [execute_plain executing (Token.mark?_of_ofNumeral? reads), pushed]
    rfl
  refine ⟨fuel + 2, ?_⟩
  change interpreter.executeAll (fuel + 2) [numeral, name] = _
  rw [executeAll_cons, first, Option.bind_some, Reply.andThen_quiet, executeAll_singleton]
  have stillExecuting : ({ interpreter with stack := .number number :: interpreter.stack } : Interpreter).activity =
      .executing labels := executing
  exact (execute_plain stillExecuting noMark _).trans (congrArg (Option.map _) enough)

theorem Console.evaluate_cons_quiet {fuel : Nat} {interpreter next : Interpreter} {line : String}
    (quiet : interpreter.executeLine fuel line = some { interpreter := next }) (rest : List String) :
    evaluate fuel interpreter (line :: rest) = evaluate fuel next rest := by
  rw [evaluate, quiet]
  cases outcome : evaluate fuel next rest with
  | none => simp only [outcome, Option.map_none]
  | some reply => simp only [outcome, Option.map_some, Reply.after_empty]

/-- A word that does one thing when it finds zero and another when it finds any other number. -/
structure Recursion where
  name : Token
  atZero : List Token
  above : List Token

namespace Recursion

open Machine (Leads runTokens)

/-- What is called last leaves nothing to do. -/
def countdown : Recursion := ⟨"countdown", ["drop", "drop"], ["drop", "1", "flip", "-", "countdown"]⟩

/-- An addition has to wait for what is called before it. -/
def sumDown : Recursion :=
  ⟨"sum-down", ["drop", "drop", "0"], ["drop", "dup", "1", "flip", "-", "sum-down", "+"]⟩

/-- The words that both are written with. -/
def basis : List (String × Action) :=
  [("dup", .primitive .duplicate), ("drop", .primitive .discard), ("flip", .primitive .exchange),
    ("+", .primitive (.operation .add)), ("-", .primitive (.operation .subtract)),
    ("==", .primitive (.relation .equal))]

/-- The word and its conditional. -/
def entries (recursion : Recursion) (label : Token) : List (String × Action) :=
  [(recursion.name, .compiled ["0", "==", label]), (label, .conditional recursion.atZero recursion.above)]

section Rounds

variable {dictionary : Dictionary} (knows : dictionary.Holds basis) {bound : Nat} {stack : Stack} {agenda : Agenda}
  {last : Machine}
include knows

theorem leads_drop {top : Value} (few : agenda.length < bound)
    (rest : Leads dictionary bound ⟨stack, agenda, ""⟩ last) :
    Leads dictionary bound ⟨top :: stack, "drop" :: agenda, ""⟩ last :=
  .primitive knows (show ("drop", Action.primitive .discard) ∈ basis by decide) rfl few rest

/-- The test for zero leaves the zero that it compared with on the stack. -/
theorem leads_test {recursion : Recursion} {label : Token} (holds : dictionary.Holds (recursion.entries label))
    {number : Number} (few : agenda.length + 2 < bound)
    (rest : Leads dictionary bound ⟨.number 0 :: .number number :: stack,
      (if number.toInt = 0 then recursion.atZero else recursion.above) ++ agenda, ""⟩ last) :
    Leads dictionary bound ⟨.number number :: stack, recursion.name :: agenda, ""⟩ last := by
  have isZero : Relation.equal.holds (0 : Number).toInt number.toInt = decide (number.toInt = 0) := by
    simp only [Relation.holds, Int64.toInt_zero, eq_comm]
  have fewer := Nat.lt_of_succ_lt few
  have fewest := Nat.lt_of_succ_lt fewer
  refine .call holds (List.mem_cons_self ..) fewest ?_
  change Leads dictionary bound ⟨_, "0" :: "==" :: label :: agenda, ""⟩ last
  refine .literal (show Number.ofNumeral? "0" = some 0 by decide) few ?_
  refine .primitive knows (show ("==", Action.primitive (.relation .equal)) ∈ basis by decide) rfl fewer ?_
  refine .branch holds (List.mem_cons_of_mem _ (List.mem_cons_self ..)) fewest ?_
  simpa only [isZero, Value.reading, decide_eq_true_eq] using rest

/-- One less than a number above zero. -/
theorem leads_lower {number : Number} (above : 0 < number.toInt) (few : agenda.length + 2 < bound) :
    ∃ lower : Number, lower.toInt = number.toInt - 1 ∧
      Leads dictionary bound ⟨.number number :: stack, "1" :: "flip" :: "-" :: agenda, ""⟩
        ⟨.number lower :: stack, agenda, ""⟩ := by
  have fits : Number.Fits (number.toInt - 1) := by
    obtain ⟨least, most⟩ := Number.fits_toInt number
    exact ⟨by omega, by omega⟩
  obtain ⟨lower, held, isLower⟩ := Number.ofInt?_of_fits fits
  have subtracts : Primitive.apply (.operation .subtract) (.number number :: .number 1 :: stack) =
      .ok ⟨.number lower :: stack, [], ""⟩ := by
    simp only [Primitive.apply, Operation.apply, Value.reading, Operation.result, Int64.toInt_one, held]
  have fewer := Nat.lt_of_succ_lt few
  have fewest := Nat.lt_of_succ_lt fewer
  refine ⟨lower, isLower, ?_⟩
  refine .literal (show Number.ofNumeral? "1" = some 1 by decide) few ?_
  refine .primitive knows (show ("flip", Action.primitive .exchange) ∈ basis by decide) rfl fewer ?_
  exact .primitive knows (show ("-", Action.primitive (.operation .subtract)) ∈ basis by decide) subtracts fewest
    (.here _)

end Rounds

/-- The sum of the numbers up to one and the sum up to the next. -/
theorem triangle_succ (integer : Int) :
    (integer + 1) * (integer + 1 + 1) / 2 = integer * (integer + 1) / 2 + (integer + 1) := by
  have product : (integer + 1) * (integer + 1 + 1) = integer * (integer + 1) + (integer + 1) * 2 := by
    rw [Int.add_mul integer 1, Int.mul_add integer (integer + 1)]
    omega
  rw [product, Int.add_mul_ediv_right _ _ (by decide)]

theorem triangle_nonneg {integer : Int} (nonneg : 0 ≤ integer) : 0 ≤ integer * (integer + 1) / 2 :=
  Int.ediv_nonneg (Int.mul_nonneg nonneg (by omega)) (by decide)

section Depths

variable {dictionary : Dictionary} (knows : dictionary.Holds basis) {label : Token}
include knows

/-- Counting down takes the number off the stack and does nothing else. The number of calls is the number
itself, and the agenda is the same at each of them. -/
theorem leads_countdown (holds : dictionary.Holds (countdown.entries label)) {count : Nat} {number : Number}
    (counts : number.toInt = count) (stack : Stack) :
    Leads dictionary 5 ⟨.number number :: stack, ["countdown"], ""⟩ ⟨stack, [], ""⟩ := by
  induction count generalizing number with
  | zero =>
      have zero : number.toInt = 0 := counts
      refine leads_test knows holds (by decide) ?_
      rw [if_pos zero]
      exact leads_drop knows (by decide) (leads_drop knows (by decide) (.here _))
  | succ count ih =>
      obtain ⟨lower, isLower, lowers⟩ := leads_lower knows (by omega : 0 < number.toInt)
        (by decide : ["countdown"].length + 2 < 5)
      refine leads_test knows holds (by decide) ?_
      rw [if_neg (by omega)]
      exact leads_drop knows (by decide) (lowers.trans (ih (by omega)))

/-- What adding up comes to: the sum on top of the stack, or the fault of the addition that overflows. -/
inductive Sums (stack : Stack) (sum : Int) : Ending → Prop where
  | total (number : Number) (exact : number.toInt = sum) : Sums stack sum ⟨.number number :: stack, "", none⟩
  | overflow (outside : ¬Number.Fits sum) (left : Stack) (message : String) :
      Sums stack sum ⟨left, "", some (.invalidArgument "+" message)⟩

theorem sums_add (top below : Number) (stack : Stack) :
    ∃ ending, Settles (fun fuel => runTokens dictionary fuel (.number top :: .number below :: stack) ["+"]) ending ∧
      Sums stack (top.toInt + below.toInt) ending := by
  have member : ("+", Action.primitive (.operation .add)) ∈ basis := by decide
  by_cases fits : Number.Fits (top.toInt + below.toInt)
  · obtain ⟨number, held, exact⟩ := Number.ofInt?_of_fits fits
    have adds : Primitive.apply (.operation .add) (.number top :: .number below :: stack) =
        .ok ⟨.number number :: stack, [], ""⟩ := by
      simp only [Primitive.apply, Operation.apply, Value.reading, Operation.result, held]
    have leads : Leads dictionary 1 ⟨.number top :: .number below :: stack, ["+"], ""⟩
        ⟨.number number :: stack, [], ""⟩ :=
      .primitive knows member adds (by decide) (.here _)
    exact ⟨_, (leads.settles_iff _).2 ⟨1, rfl⟩, .total number exact⟩
  · have refuses : ∃ message, Primitive.apply (.operation .add) (.number top :: .number below :: stack) =
        .error (.invalidArgument "+" message) := by
      simp only [Primitive.apply, Operation.apply, Value.reading, Operation.result, Number.ofInt?_of_not_fits fits]
      exact ⟨_, rfl⟩
    obtain ⟨message, refused⟩ := refuses
    have ends : Machine.step dictionary ⟨.number top :: .number below :: stack, ["+"], ""⟩ =
        .ended ⟨.number top :: .number below :: stack, "", some (.invalidArgument "+" message)⟩ := by
      simp only [Machine.step_held knows member, Machine.act, Machine.applyPrimitive, refused, Machine.fail]
    exact ⟨_, (Machine.settles_run_of_ended ends _).2 rfl, .overflow fits _ message⟩

/-- Adding up to a number above zero is adding up to the one before and then adding the number. -/
theorem settles_sumDown (holds : dictionary.Holds (sumDown.entries label)) {number : Number}
    (above : 0 < number.toInt) (stack : Stack) :
    ∃ lower : Number, lower.toInt = number.toInt - 1 ∧ ∀ ending,
      Settles (fun fuel => runTokens dictionary fuel (.number number :: stack) ["sum-down"]) ending ↔
        ∃ first, Settles (fun fuel => runTokens dictionary fuel (.number lower :: .number number :: stack) ["sum-down"])
            first ∧
          Settles (fun fuel => first.andThen fun left => runTokens dictionary fuel left ["+"]) ending := by
  obtain ⟨lower, isLower, lowers⟩ := leads_lower knows above (by decide : ["sum-down", "+"].length + 2 < 7)
  refine ⟨lower, isLower, fun ending => ?_⟩
  have leads : Leads dictionary 7 ⟨.number number :: stack, ["sum-down"], ""⟩
      ⟨.number lower :: .number number :: stack, ["sum-down", "+"], ""⟩ := by
    refine leads_test knows holds (by decide) ?_
    rw [if_neg (by omega)]
    refine leads_drop knows (by decide) ?_
    exact .primitive knows (show ("dup", Action.primitive .duplicate) ∈ basis by decide) rfl (by decide) lowers
  exact (leads.settles_iff ending).trans (Machine.settles_runTokens_append _ ["sum-down"] ["+"] ending)

/-- The calls pile up additions, each with its number on the stack. They are done in turn on the way back, up
to the first that overflows. -/
theorem sums_sumDown (holds : dictionary.Holds (sumDown.entries label)) {count : Nat} {number : Number}
    (counts : number.toInt = count) (stack : Stack) :
    ∃ ending, Settles (fun fuel => runTokens dictionary fuel (.number number :: stack) ["sum-down"]) ending ∧
      Sums stack (number.toInt * (number.toInt + 1) / 2) ending := by
  induction count generalizing number stack with
  | zero =>
      have leads : Leads dictionary 9 ⟨.number number :: stack, ["sum-down"], ""⟩ ⟨.number 0 :: stack, [], ""⟩ := by
        have zero : number.toInt = 0 := counts
        refine leads_test knows holds (by decide) ?_
        rw [if_pos zero]
        exact leads_drop knows (by decide) (leads_drop knows (by decide) (.literal (by decide) (by decide) (.here _)))
      refine ⟨_, (leads.settles_iff _).2 ⟨1, rfl⟩, .total 0 ?_⟩
      rw [counts]
      rfl
  | succ count ih =>
      obtain ⟨lower, isLower, goesOn⟩ := settles_sumDown knows holds (by omega : 0 < number.toInt) stack
      have isNumber : number.toInt = lower.toInt + 1 := by omega
      have nonneg := triangle_nonneg (by omega : 0 ≤ lower.toInt)
      have next : number.toInt * (number.toInt + 1) / 2 = lower.toInt * (lower.toInt + 1) / 2 + number.toInt := by
        rw [isNumber, triangle_succ]
      obtain ⟨first, settlesFirst, sumsFirst⟩ := ih (by omega : lower.toInt = count) (.number number :: stack)
      rw [next]
      cases sumsFirst with
      | total sum exact =>
          obtain ⟨ending, ⟨fuel, reached⟩, sums⟩ := sums_add knows sum number stack
          rw [exact] at sums
          have continues := (Machine.run_eq_andThen fuel _ ["+"] "").symm.trans reached
          exact ⟨ending, (goesOn ending).2 ⟨_, settlesFirst, fuel, continues⟩, sums⟩
      | overflow outside left message =>
          -- The sums only grow on the way back, so what was too large before is too large in the end.
          refine ⟨_, (goesOn _).2 ⟨_, settlesFirst, 0, rfl⟩, .overflow ?_ left message⟩
          rintro ⟨least, most⟩
          exact outside ⟨by omega, by omega⟩

end Depths

def body (recursion : Recursion) : Body :=
  .token "0" (.token "==" (.ifElse (.ofTokens recursion.atZero) (.ofTokens recursion.above) .done))

/-- The tokens of the definition. -/
def tokens (recursion : Recursion) : List Token :=
  ":" :: recursion.name :: (("0" :: "==" :: "if" :: (recursion.atZero ++ "else" :: (recursion.above ++ ["then"]))) ++
    [";"])

/-- The name can be given to a word and is not needed for another, and there are no marks in the branches. -/
structure Definable (recursion : Recursion) : Prop where
  isName : recursion.name.isName = true
  other : recursion.name ∉ basis.map Prod.fst
  plain : ∀ token ∈ recursion.atZero ++ recursion.above, token.mark? = none

theorem definable_countdown : countdown.Definable := ⟨by decide, by decide, by decide⟩

theorem definable_sumDown : sumDown.Definable := ⟨by decide, by decide, by decide⟩

section Definitions

variable {recursion : Recursion}

theorem Definable.spelled (definable : recursion.Definable) :
    Body.Spelled recursion.body
      ("0" :: "==" :: "if" :: (recursion.atZero ++ "else" :: (recursion.above ++ ["then"]))) := by
  obtain ⟨plainAtZero, plainAbove⟩ := List.forall_mem_append.1 definable.plain
  exact .token (by decide) (.token (by decide) (.ifElse Body.mark_if Body.mark_else Body.mark_then
    (Body.spelled_ofTokens _ plainAtZero) (Body.spelled_ofTokens _ plainAbove) .done))

theorem branches_body : recursion.body.branches = 1 := by
  simp only [body, Body.branches, Body.branches_ofTokens]

theorem flat_body (labels : Labels) : recursion.body.flat labels = ["0", "==", labels.nextConditional] := rfl

theorem helpers_body (labels : Labels) :
    recursion.body.helpers labels = [(labels.nextConditional, .conditional recursion.atZero recursion.above)] := by
  simp only [body, Body.helpers, Body.helpers_ofTokens, Body.flat_ofTokens, List.nil_append]

variable {labels : Labels} {numbering : Nat → Nat} (reserved : labels.Reserved numbering) (interpreter : Interpreter)
include reserved

theorem nextConditional_eq :
    labels.afterDefinition.nextConditional = Labels.numberedConditional (numbering labels.conditionals) :=
  reserved.ofConditional _ _

/-- The definition adds the word and its conditional. -/
theorem holds_defined (definable : recursion.Definable) :
    (interpreter.defining labels recursion.name recursion.body).dictionary.Holds
      (recursion.entries (Labels.numberedConditional (numbering labels.conditionals))) := by
  rw [← nextConditional_eq reserved]
  intro name action member
  rcases List.mem_cons.1 member with same | inHelpers
  · cases same
    refine ⟨Token.ofNumeral?_of_isName definable.isName, .defined recursion.name _, ?_, rfl⟩
    rw [Interpreter.defining, Dictionary.find?_install, Body.getElem?_definitions, if_pos rfl, flat_body]
  · rw [← helpers_body] at inHelpers
    have suit := reserved.suit recursion.body.branches definable.isName
    exact suit.holds_install interpreter.dictionary name action inHelpers

/-- It leaves all other words alone. -/
theorem holds_kept {entries : List (String × Action)} (holds : interpreter.dictionary.Holds entries)
    (apart : ∀ entry ∈ entries,
      entry.1 ≠ recursion.name ∧ entry.1 ≠ Labels.numberedConditional (numbering labels.conditionals)) :
    (interpreter.defining labels recursion.name recursion.body).dictionary.Holds entries := by
  refine holds.install ?_
  intro entry member defined
  have drawn := Body.mem_definitions defined
  rw [branches_body, Labels.upcoming, nextConditional_eq reserved, Labels.upcoming] at drawn
  obtain ⟨notName, notLabel⟩ := apart entry member
  rcases List.mem_cons.1 drawn with isName | isLabel
  · exact notName isName
  · exact notLabel (List.mem_singleton.1 isLabel)

end Definitions

theorem ne_numberedConditional {name : Token} (noStem : name.hasConditionalStem = false) (number : Nat) :
    name ≠ Labels.numberedConditional number := by
  rintro rfl
  rw [Labels.hasConditionalStem_numberedConditional] at noStem
  cases noStem

/-- An interpreter outside of definitions that knows the words of the basis and the given ones. Their
conditionals have been numbered already. -/
structure Known (known : List Recursion) (interpreter : Interpreter) (labels : Labels) (numbering : Nat → Nat) :
    Prop where
  executing : interpreter.activity = .executing labels
  reserved : labels.Reserved numbering
  basis : interpreter.dictionary.Holds basis
  each : ∀ recursion ∈ known, recursion.Definable ∧ ∃ number < numbering labels.conditionals,
    interpreter.dictionary.Holds (recursion.entries (Labels.numberedConditional number))

/-- One more word. It takes no name from those that are known. -/
theorem Known.define {known : List Recursion} {interpreter : Interpreter} {labels : Labels} {numbering : Nat → Nat}
    (isKnown : Known known interpreter labels numbering) {recursion : Recursion} (definable : recursion.Definable)
    (another : ∀ other ∈ known, other.name ≠ recursion.name) :
    ∃ next later, (∀ fuel, interpreter.executeAll fuel recursion.tokens = some { interpreter := next }) ∧
      Known (recursion :: known) next later numbering := by
  obtain ⟨executing, reserved, basisHolds, each⟩ := isKnown
  have suit := reserved.suit recursion.body.branches definable.isName
  refine ⟨interpreter.defining labels recursion.name recursion.body,
    labels.afterDefinition.skip recursion.body.branches,
    Interpreter.executeAll_definition executing definable.isName definable.spelled suit.distinct,
    rfl, reserved.afterDefinition.skip _, ?_, ?_⟩
  · refine holds_kept reserved interpreter basisHolds fun entry member => ⟨?_, ne_numberedConditional ?_ _⟩
    · rintro same
      exact definable.other (same ▸ List.mem_map_of_mem member)
    · have noStem : ∀ entry ∈ Recursion.basis, Token.hasConditionalStem entry.1 = false := by decide
      exact noStem entry member
  · have later : (labels.afterDefinition.skip recursion.body.branches).conditionals = labels.conditionals + 1 := by
      rw [branches_body]
      rfl
    have higher := reserved.increasing (Nat.lt_succ_self labels.conditionals)
    rw [later]
    refine List.forall_mem_cons.2 ⟨⟨definable, numbering labels.conditionals, higher, ?_⟩, fun other member => ?_⟩
    · exact holds_defined reserved interpreter definable
    · -- An earlier conditional has a smaller number, so the new one does not replace it.
      obtain ⟨otherDefinable, number, earlier, holds⟩ := each other member
      refine ⟨otherDefinable, number, Nat.lt_trans earlier higher, holds_kept reserved interpreter holds ?_⟩
      refine List.forall_mem_cons.2 ⟨⟨another other member, ?_⟩, List.forall_mem_singleton.2 ⟨?_, ?_⟩⟩
      · exact ne_numberedConditional (Token.hasConditionalStem_of_isName otherDefinable.isName) _
      · exact (ne_numberedConditional (Token.hasConditionalStem_of_isName definable.isName) number).symm
      · intro same
        exact Nat.ne_of_lt earlier (Labels.numberedConditional_injective same)

/-- Lines that each define one word, under names of their own. -/
theorem Known.evaluate {known recursions : List Recursion} {interpreter : Interpreter} {labels : Labels}
    {numbering : Nat → Nat} (isKnown : Known known interpreter labels numbering)
    (definable : ∀ recursion ∈ recursions, recursion.Definable)
    (distinct : ((recursions.reverse ++ known).map Recursion.name).Nodup) {lines : List String}
    (spelled : lines.map Token.ofLine = recursions.map tokens) :
    ∃ next later, (∀ fuel, Console.evaluate fuel interpreter lines = some { interpreter := next }) ∧
      Known (recursions.reverse ++ known) next later numbering := by
  induction recursions generalizing known interpreter labels lines with
  | nil =>
      rw [List.map_eq_nil_iff.1 spelled]
      exact ⟨interpreter, labels, fun _ => rfl, isKnown⟩
  | cons recursion recursions ih =>
      obtain ⟨line, rest, rfl, spelledFirst, spelledRest⟩ := List.map_eq_cons_iff.1 spelled
      obtain ⟨definableFirst, definableRest⟩ := List.forall_mem_cons.1 definable
      rw [List.reverse_cons, List.append_assoc, List.singleton_append] at distinct ⊢
      have another : ∀ other ∈ known, other.name ≠ recursion.name := by
        rw [List.map_append, List.nodup_append, List.map_cons, List.nodup_cons] at distinct
        intro other member same
        exact distinct.2.1.1 (same ▸ List.mem_map_of_mem member)
      obtain ⟨next, later, defines, nextKnown⟩ := isKnown.define definableFirst another
      obtain ⟨last, latest, evaluates, lastKnown⟩ := ih nextKnown definableRest distinct spelledRest
      refine ⟨last, latest, fun fuel => ?_, lastKnown⟩
      have quiet : interpreter.executeLine fuel line = some { interpreter := next } := by
        rw [Interpreter.executeLine, spelledFirst]
        exact defines fuel
      rw [Console.evaluate_cons_quiet quiet]
      exact evaluates fuel

/-- The standard words, under any labels. -/
theorem known_standard {labels : Labels} {numbering : Nat → Nat} (reserved : labels.Reserved numbering) :
    Known [] (.ofWords labels (Vocabulary.base ++ Vocabulary.printing ++ Vocabulary.prelude)) labels numbering where
  executing := rfl
  reserved := reserved
  basis := by
    have found : ∀ entry ∈ basis, Number.ofNumeral? entry.1 = none ∧
        ((Dictionary.empty.insertAll (Vocabulary.base ++ Vocabulary.printing ++ Vocabulary.prelude)).find?
          entry.1).map Word.action = some entry.2 := by decide +kernel
    intro label action member
    obtain ⟨noNumeral, acts⟩ := found (label, action) member
    exact ⟨noNumeral, Option.map_eq_some_iff.1 acts⟩
  each := fun _ member => absurd member List.not_mem_nil

section Typed

variable {known : List Recursion} {ready : Interpreter} {labels : Labels} {numbering : Nat → Nat}
  (isKnown : Known known ready labels numbering) {number : Number} (nonneg : 0 ≤ number.toInt) (stack : Stack)
include isKnown nonneg

theorem Known.leads_countdown (member : countdown ∈ known) :
    Leads ready.dictionary 5 ⟨.number number :: stack, ["countdown"], ""⟩ ⟨stack, [], ""⟩ := by
  obtain ⟨_, _, _, holds⟩ := isKnown.each countdown member
  exact Recursion.leads_countdown isKnown.basis holds (Int.toNat_of_nonneg nonneg).symm stack

theorem Known.sums_sumDown (member : sumDown ∈ known) :
    ∃ ending, Settles (fun fuel => runTokens ready.dictionary fuel (.number number :: stack) ["sum-down"]) ending ∧
      Sums stack (number.toInt * (number.toInt + 1) / 2) ending := by
  obtain ⟨_, _, _, holds⟩ := isKnown.each sumDown member
  exact Recursion.sums_sumDown isKnown.basis holds (Int.toNat_of_nonneg nonneg).symm stack

end Typed

def countdownLine : String := ": countdown 0 == if drop drop else drop 1 flip - countdown then ;"

def sumDownLine : String := ": sum-down 0 == if drop drop 0 else drop dup 1 flip - sum-down + then ;"

/-- Whichever is defined first, both are there afterwards. -/
theorem known_both {labels : Labels} {numbering : Nat → Nat} (reserved : labels.Reserved numbering)
    {lines : List String}
    (executed : lines = [countdownLine, sumDownLine] ∨ lines = [sumDownLine, countdownLine]) :
    ∃ known ready later, (∀ fuel, Console.evaluate fuel
        (.ofWords labels (Vocabulary.base ++ Vocabulary.printing ++ Vocabulary.prelude)) lines =
          some { interpreter := ready }) ∧
      Known known ready later numbering ∧ countdown ∈ known ∧ sumDown ∈ known := by
  have spelledCountdown : Token.ofLine countdownLine = countdown.tokens := by decide +kernel
  have spelledSumDown : Token.ofLine sumDownLine = sumDown.tokens := by decide +kernel
  obtain ⟨recursions, both, spelled⟩ : ∃ recursions : List Recursion, recursions.Perm [countdown, sumDown] ∧
      lines.map Token.ofLine = recursions.map tokens := by
    rcases executed with rfl | rfl
    · exact ⟨_, .refl _, by simp only [List.map_cons, List.map_nil, spelledCountdown, spelledSumDown]⟩
    · exact ⟨_, .swap .., by simp only [List.map_cons, List.map_nil, spelledCountdown, spelledSumDown]⟩
  have definable : ∀ recursion ∈ [countdown, sumDown], recursion.Definable :=
    List.forall_mem_cons.2 ⟨definable_countdown, List.forall_mem_singleton.2 definable_sumDown⟩
  have all : (recursions.reverse ++ []).Perm [countdown, sumDown] := by
    rw [List.append_nil]
    exact recursions.reverse_perm.trans both
  obtain ⟨ready, later, evaluates, isKnown⟩ :=
    (known_standard reserved).evaluate (fun recursion member => definable recursion (both.mem_iff.1 member))
      ((all.map _).nodup_iff.2 (by decide)) spelled
  exact ⟨_, ready, later, evaluates, isKnown, all.mem_iff.2 (by simp), all.mem_iff.2 (by simp)⟩

end Recursion

/-- At every depth counting down takes its number off the stack with never more than five tokens pending, and
adding up comes to the sum, or to a fault if the sum is no number. -/
theorem recursion_is_exact_at_every_depth {labels : Labels} {numbering : Nat → Nat}
    (reserved : labels.Reserved numbering) {lines : List String}
    (executed : lines = [Recursion.countdownLine, Recursion.sumDownLine] ∨
      lines = [Recursion.sumDownLine, Recursion.countdownLine]) :
    ∃ ready, (∀ fuel, Console.evaluate fuel
        (.ofWords labels (Vocabulary.base ++ Vocabulary.printing ++ Vocabulary.prelude)) lines =
          some { interpreter := ready }) ∧ ready.mode = .executing ∧
      ∀ (stack : Stack) (number : Number) (numeral : Token), 0 ≤ number.toInt →
        Number.ofNumeral? numeral = some number →
        let loaded : Interpreter := { ready with stack }
        let sum := number.toInt * (number.toInt + 1) / 2
        (Settles (fun fuel => loaded.executeAll fuel [numeral, "countdown"]) { interpreter := loaded } ∧
          ∀ machine, Machine.Reaches ready.dictionary ⟨stack, [numeral], ""⟩ machine ∨
              Machine.Reaches ready.dictionary ⟨.number number :: stack, ["countdown"], ""⟩ machine →
            machine.agenda.length ≤ 5) ∧
        (Number.Fits sum → ∃ total : Number, total.toInt = sum ∧
          Settles (fun fuel => loaded.executeAll fuel [numeral, "sum-down"])
            { interpreter := { ready with stack := .number total :: stack } }) ∧
        (¬Number.Fits sum → ∃ left message,
          Settles (fun fuel => loaded.executeAll fuel [numeral, "sum-down"])
            { interpreter := { ready with stack := left }, fault := some (.invalidArgument "+" message) }) := by
  obtain ⟨known, ready, later, evaluates, isKnown, hasCountdown, hasSumDown⟩ := Recursion.known_both reserved executed
  refine ⟨ready, evaluates, by rw [Interpreter.mode, isKnown.executing]; rfl, ?_⟩
  intro stack number numeral nonneg reads loaded sum
  have executing : loaded.activity = .executing later := isKnown.executing
  have counts := isKnown.leads_countdown nonneg stack hasCountdown
  obtain ⟨ending, settles, sums⟩ := isKnown.sums_sumDown nonneg stack hasSumDown
  have typed := Interpreter.settles_executeAll_pair executing reads (by decide) settles
  refine ⟨⟨?_, ?_⟩, ?_, ?_⟩
  · exact Interpreter.settles_executeAll_pair executing reads (by decide) ((counts.settles_iff _).2 ⟨1, rfl⟩)
  · rintro machine (inNumeral | inCountdown)
    · have pushes : Machine.Leads ready.dictionary 5 ⟨stack, [numeral], ""⟩ ⟨.number number :: stack, [], ""⟩ :=
        .literal reads (by decide) (.here _)
      exact pushes.within rfl inNumeral
    · exact counts.within rfl inCountdown
  · intro fits
    cases sums with
    | total total exact => exact ⟨total, exact, typed⟩
    | overflow outside => exact absurd fits outside
  · intro outside
    cases sums with
    | total total exact =>
        have fits := Number.fits_toInt total
        rw [exact] at fits
        exact absurd fits outside
    | overflow _ left message => exact ⟨left, message, typed⟩

/-- Both on top of an empty value and a number: 3 is counted down and added up, and the largest number has
too large a sum. -/
theorem recursion_is_exact_at_every_depth_three :
    ∃ ready, (∀ fuel, Console.evaluate fuel .standard [Recursion.sumDownLine, Recursion.countdownLine] =
        some { interpreter := ready }) ∧
      let loaded : Interpreter := { ready with stack := [.empty, .number 7] }
      Settles (fun fuel => loaded.executeAll fuel ["+3", "countdown"]) { interpreter := loaded } ∧
      Settles (fun fuel => loaded.executeAll fuel ["0003", "sum-down"])
        { interpreter := { ready with stack := [.number 6, .empty, .number 7] } } ∧
      ∃ left message, Settles (fun fuel => loaded.executeAll fuel ["9223372036854775807", "sum-down"])
        { interpreter := { ready with stack := left }, fault := some (.invalidArgument "+" message) } := by
  obtain ⟨ready, evaluates, _, exact⟩ :=
    recursion_is_exact_at_every_depth Labels.reserved_standard (.inr rfl)
  obtain ⟨⟨counts, _⟩, _⟩ := exact [.empty, .number 7] 3 "+3" (by decide) (by decide)
  obtain ⟨_, adds, _⟩ := exact [.empty, .number 7] 3 "0003" (by decide) (by decide)
  obtain ⟨_, _, overflows⟩ := exact [.empty, .number 7] 9223372036854775807 "9223372036854775807" (by decide)
    (by decide)
  obtain ⟨total, isSix, settles⟩ := adds ⟨by decide, by decide⟩
  have six : total = 6 := Int64.toInt_inj.1 isSix
  exact ⟨ready, evaluates, counts, six ▸ settles, overflows fun fits => absurd fits.2 (by decide)⟩

end Forth

import Forth.Proofs.Numerals
import Forth.Proofs.Runs

/-! A run looks up only the words it can come to. On a stack of numbers the tokens it executes are its
own, those in the words it has come to, and numerals; so two dictionaries that give these words the
same actions run alike, whatever else they hold. -/

namespace Forth

/-- The tokens that acting can put on the agenda, apart from the numerals of chosen numbers. -/
def Action.tokens : Action → List Token
  | .primitive (.schedule tokens) => tokens
  | .primitive _ => []
  | .compiled body => body
  | .conditional ifBody elseBody => ifBody ++ elseBody

/-- No value on the stack is the empty one. -/
def Stack.Numeric (stack : Stack) : Prop := ∀ value ∈ stack, value.isNumber = true

instance (stack : Stack) : Decidable stack.Numeric :=
  inferInstanceAs (Decidable (∀ value ∈ stack, value.isNumber = true))

namespace Stack.Numeric

variable {stack : Stack} {value : Value}

theorem cons (isNumber : value.isNumber = true) (numeric : stack.Numeric) : Numeric (value :: stack) := by
  intro other member
  rcases List.mem_cons.mp member with rfl | later
  · exact isNumber
  · exact numeric other later

theorem head (numeric : Numeric (value :: stack)) : value.isNumber = true :=
  numeric value (List.mem_cons_self ..)

theorem tail (numeric : Numeric (value :: stack)) : stack.Numeric :=
  fun other member => numeric other (List.mem_cons_of_mem value member)

end Stack.Numeric

theorem Value.ofNumeral?_text {value : Value} (isNumber : value.isNumber = true) :
    Number.ofNumeral? value.text = some value.reading := by
  cases value with
  | empty => cases isNumber
  | number content => exact Number.ofNumeral?_numeral content

/-- The tokens that are no numerals are all relevant. -/
def Covers (relevant : Token → Prop) (tokens : List Token) : Prop :=
  ∀ token ∈ tokens, Number.ofNumeral? token = none → relevant token

theorem Covers.append {relevant : Token → Prop} {front back : List Token} (coversFront : Covers relevant front)
    (coversBack : Covers relevant back) : Covers relevant (front ++ back) := by
  intro token member
  rcases List.mem_append.mp member with inFront | inBack
  · exact coversFront token inFront
  · exact coversBack token inBack

theorem Covers.of_subset {relevant : Token → Prop} {tokens fewer : List Token} (covers : Covers relevant tokens)
    (subset : fewer ⊆ tokens) : Covers relevant fewer :=
  fun token member => covers token (subset member)

section Primitives

variable {primitive : Primitive} {stack : Stack} {effect : Effect}

theorem chooseBetween_numeric {flag nearer deeper : Value} {rest : Stack}
    (numeric : Stack.Numeric (flag :: nearer :: deeper :: rest))
    (chosen : chooseBetween flag nearer deeper rest = .ok effect) :
    effect.stack.Numeric ∧ ∀ token ∈ effect.scheduled, Number.ofNumeral? token ≠ none := by
  have reads (value : Value) (isNumber : value.isNumber = true) :
      ∀ token ∈ [value.text], Number.ofNumeral? token ≠ none := by
    intro token member
    rw [List.mem_singleton.mp member, Value.ofNumeral?_text isNumber]
    exact Option.some_ne_none _
  unfold chooseBetween at chosen
  split at chosen
  · cases chosen
    exact ⟨numeric.tail.tail.tail, reads deeper numeric.tail.tail.head⟩
  · split at chosen
    · cases chosen
      exact ⟨numeric.tail.tail.tail, reads nearer numeric.tail.head⟩
    · cases chosen

theorem Operation.apply_numeric {operation : Operation} {top below : Value} {rest : Stack}
    (numeric : rest.Numeric) (applied : operation.apply top below rest = .ok effect) :
    effect.stack.Numeric ∧ effect.scheduled = [] := by
  unfold Operation.apply at applied
  split at applied
  · cases applied
    exact ⟨numeric.cons rfl, rfl⟩
  · cases applied

/-- A word that is not written in terms of others keeps a stack of numbers one, and what it schedules
besides its own tokens are numerals. -/
theorem Primitive.apply_numeric (numeric : stack.Numeric) (applied : primitive.apply stack = .ok effect) :
    effect.stack.Numeric ∧ ∀ token ∈ effect.scheduled,
      Number.ofNumeral? token = none → token ∈ (Action.primitive primitive).tokens := by
  have silent : ∀ token ∈ ([] : List Token),
      Number.ofNumeral? token = none → token ∈ (Action.primitive primitive).tokens :=
    fun _ member => nomatch member
  unfold Primitive.apply at applied
  split at applied
  next => cases applied; exact ⟨numeric.cons numeric.head, silent⟩
  next => cases applied; exact ⟨numeric.tail, silent⟩
  next => cases applied; exact ⟨(numeric.tail.tail.cons numeric.head).cons numeric.tail.head, silent⟩
  next =>
    cases applied
    have kept := (numeric.tail.tail.tail.cons numeric.tail.head).cons numeric.head
    exact ⟨kept.cons numeric.tail.tail.head, silent⟩
  next =>
    obtain ⟨kept, nothing⟩ := Operation.apply_numeric numeric.tail.tail applied
    rw [nothing]
    exact ⟨kept, silent⟩
  next => cases applied; exact ⟨numeric.cons rfl, silent⟩
  next =>
    obtain ⟨kept, reads⟩ := chooseBetween_numeric numeric applied
    exact ⟨kept, fun token member noNumeral => absurd noNumeral (reads token member)⟩
  next => cases applied; exact ⟨numeric, silent⟩
  next => cases applied; exact ⟨numeric, silent⟩
  next => cases applied; exact ⟨numeric, fun _ member _ => List.mem_reverse.mp member⟩
  next => cases applied

end Primitives

/-- The stack that a step leaves. -/
def Step.stack : Step → Stack
  | .ended ending => ending.stack
  | .moved next => next.stack

namespace Machine

variable {machine : Machine} {dictionary : Dictionary}

theorem act_numeric (numeric : machine.stack.Numeric) (action : Action) (agenda : Agenda) :
    (machine.act action agenda).stack.Numeric := by
  cases action with
  | primitive primitive =>
      simp only [act, applyPrimitive]
      cases applied : primitive.apply machine.stack with
      | error fault => exact numeric
      | ok effect => exact (Primitive.apply_numeric numeric applied).1
  | compiled body => exact numeric
  | conditional ifBody elseBody =>
      obtain ⟨_ | ⟨selector, rest⟩, pending, printed⟩ := machine
      · exact numeric
      · exact numeric.tail

theorem step_numeric (dictionary : Dictionary) (numeric : machine.stack.Numeric) :
    (machine.step dictionary).stack.Numeric := by
  unfold step
  split
  · exact numeric
  · unfold executeToken
    split
    · exact numeric.cons rfl
    · split
      · exact numeric
      · exact act_numeric numeric _ _

theorem run_numeric {fuel : Nat} {ending : Ending} (numeric : machine.stack.Numeric)
    (reached : run dictionary fuel machine = some ending) : ending.stack.Numeric := by
  induction fuel generalizing machine with
  | zero => cases reached
  | succ fuel ih =>
      have kept := step_numeric dictionary numeric
      simp only [run] at reached
      cases moved : machine.step dictionary with
      | ended ended =>
          simp only [moved, Option.some.injEq] at reached kept
          exact reached ▸ kept
      | moved next =>
          simp only [moved] at reached kept
          exact ih kept reached

end Machine

/-- On the relevant tokens the dictionaries have the same actions, and these lead to relevant tokens
only. -/
structure Dictionary.Agree (relevant : Token → Prop) (first second : Dictionary) : Prop where
  same : ∀ token, relevant token → (first.find? token).map Word.action = (second.find? token).map Word.action
  closed : ∀ token word, relevant token → first.find? token = some word → Covers relevant word.action.tokens

namespace Machine

variable {relevant : Token → Prop} {first second : Dictionary} {machine next : Machine}

theorem act_covers {action : Action} {agenda : Agenda} (numeric : machine.stack.Numeric)
    (covered : Covers relevant action.tokens) (covers : Covers relevant agenda)
    (moves : machine.act action agenda = .moved next) : Covers relevant next.agenda := by
  cases action with
  | primitive primitive =>
      simp only [act, applyPrimitive] at moves
      cases applied : primitive.apply machine.stack with
      | error fault => simp only [applied, fail, reduceCtorEq] at moves
      | ok effect =>
          simp only [applied, Step.moved.injEq] at moves
          subst moves
          refine Covers.append ?_ covers
          intro token member noNumeral
          exact covered token ((Primitive.apply_numeric numeric applied).2 token member noNumeral) noNumeral
  | compiled body =>
      cases moves
      exact covered.append covers
  | conditional ifBody elseBody =>
      simp only [act, branch] at moves
      cases popped : machine.stack.popValue with
      | error fault => simp only [popped, fail, reduceCtorEq] at moves
      | ok top =>
          simp only [popped, Step.moved.injEq] at moves
          subst moves
          refine Covers.append ?_ covers
          intro token member
          apply covered token
          split at member
          · exact List.mem_append_left elseBody member
          · exact List.mem_append_right ifBody member

/-- One step: relevant tokens do the same in both dictionaries and lead to relevant tokens. -/
theorem step_agree (agree : first.Agree relevant second) (numeric : machine.stack.Numeric)
    (covers : Covers relevant machine.agenda) :
    machine.step first = machine.step second ∧
      ∀ next, machine.step first = .moved next → Covers relevant next.agenda := by
  obtain ⟨stack, agenda, printed⟩ := machine
  cases agenda with
  | nil =>
      refine ⟨rfl, ?_⟩
      intro next moves
      cases moves
  | cons token agenda =>
      have later : Covers relevant agenda := fun other member => covers other (List.mem_cons_of_mem token member)
      simp only [step, executeToken]
      cases numeral : Number.ofNumeral? token with
      | some number =>
          refine ⟨rfl, ?_⟩
          intro next moves
          cases moves
          exact later
      | none =>
          have isRelevant := covers token (List.mem_cons_self ..) numeral
          have same := agree.same token isRelevant
          cases found : first.find? token with
          | none =>
              rw [found, Option.map_none, eq_comm, Option.map_eq_none_iff] at same
              rw [same]
              refine ⟨rfl, ?_⟩
              intro next moves
              cases moves
          | some word =>
              rw [found, Option.map_some, eq_comm, Option.map_eq_some_iff] at same
              obtain ⟨other, foundOther, sameAction⟩ := same
              rw [foundOther]
              simp only [sameAction, true_and]
              intro next moves
              exact act_covers numeric (agree.closed token word isRelevant found) later moves

/-- Whole runs: the dictionaries need to agree only on what the run can come to. -/
theorem run_agree (agree : first.Agree relevant second) (fuel : Nat) (numeric : machine.stack.Numeric)
    (covers : Covers relevant machine.agenda) : run first fuel machine = run second fuel machine := by
  induction fuel generalizing machine with
  | zero => rfl
  | succ fuel ih =>
      obtain ⟨same, staysCovered⟩ := step_agree agree numeric covers
      have kept := step_numeric first numeric
      simp only [run]
      rw [← same]
      cases moved : machine.step first with
      | ended ending => rfl
      | moved next =>
          rw [moved] at kept
          exact ih kept (staysCovered next moved)

end Machine

section Bodies

variable {first second dictionary : Dictionary} {relevant : Token → Prop}

theorem Ending.andThen_numeric {start ending : Ending} {next : Stack → Option Ending}
    (numeric : start.stack.Numeric)
    (nextNumeric : ∀ result, next start.stack = some result → result.stack.Numeric)
    (reached : start.andThen next = some ending) : ending.stack.Numeric := by
  cases outcome : start.fault with
  | some fault =>
      rw [andThen_fault outcome] at reached
      exact Option.some.inj reached ▸ numeric
  | none =>
      rw [andThen_ok outcome] at reached
      obtain ⟨result, reachedResult, rfl⟩ := Option.map_eq_some_iff.mp reached
      exact nextNumeric result reachedResult

theorem branchOn_numeric {stack : Stack} {ending : Ending} {ifBranch elseBranch : Stack → Option Ending}
    (numeric : stack.Numeric)
    (ifNumeric : ∀ left result, left.Numeric → ifBranch left = some result → result.stack.Numeric)
    (elseNumeric : ∀ left result, left.Numeric → elseBranch left = some result → result.stack.Numeric)
    (reached : branchOn stack ifBranch elseBranch = some ending) : ending.stack.Numeric := by
  cases stack with
  | nil =>
      rw [branchOn_nil] at reached
      cases reached
      exact numeric
  | cons selector rest =>
      rw [branchOn_cons] at reached
      split at reached
      · exact ifNumeric rest ending numeric.tail reached
      · exact elseNumeric rest ending numeric.tail reached

theorem Body.eval_numeric (body : Body) {fuel : Nat} {stack : Stack} {ending : Ending} (numeric : stack.Numeric)
    (reached : body.eval dictionary fuel stack = some ending) : ending.stack.Numeric := by
  induction body generalizing stack ending with
  | done =>
      cases reached
      exact numeric
  | token plain rest ihRest =>
      obtain ⟨middle, reachedMiddle, continues⟩ := Option.bind_eq_some_iff.mp reached
      have kept : middle.stack.Numeric := Machine.run_numeric numeric reachedMiddle
      exact Ending.andThen_numeric kept (fun _ => ihRest kept) continues
  | ifThen ifBody rest ihIf ihRest =>
      obtain ⟨middle, reachedMiddle, continues⟩ := Option.bind_eq_some_iff.mp reached
      have kept : middle.stack.Numeric := by
        refine branchOn_numeric numeric (fun _ _ => ihIf) ?_ reachedMiddle
        intro left result leftNumeric ends
        cases ends
        exact leftNumeric
      exact Ending.andThen_numeric kept (fun _ => ihRest kept) continues
  | ifElse ifBody elseBody rest ihIf ihElse ihRest =>
      obtain ⟨middle, reachedMiddle, continues⟩ := Option.bind_eq_some_iff.mp reached
      have kept := branchOn_numeric numeric (fun _ _ => ihIf) (fun _ _ => ihElse) reachedMiddle
      exact Ending.andThen_numeric kept (fun _ => ihRest kept) continues

theorem bind_andThen_congr {front : Option Ending} {next other : Stack → Option Ending}
    (same : ∀ middle, front = some middle → next middle.stack = other middle.stack) :
    (front.bind fun ending => ending.andThen next) = front.bind fun ending => ending.andThen other := by
  apply Option.bind_congr
  intro middle reached
  simp only [Ending.andThen, same middle reached]

theorem branchOn_congr {stack : Stack} {ifBranch elseBranch otherIf otherElse : Stack → Option Ending}
    (numeric : stack.Numeric) (sameIf : ∀ left, Stack.Numeric left → ifBranch left = otherIf left)
    (sameElse : ∀ left, Stack.Numeric left → elseBranch left = otherElse left) :
    branchOn stack ifBranch elseBranch = branchOn stack otherIf otherElse := by
  cases stack with
  | nil => rfl
  | cons selector rest =>
      rw [branchOn_cons, branchOn_cons, sameIf rest numeric.tail, sameElse rest numeric.tail]

/-- Evaluation by structure, too, depends only on the words that the body can come to. -/
theorem Body.Spelled.eval_agree {body : Body} {spelling : List Token} (spelled : Spelled body spelling)
    (agree : first.Agree relevant second) (covers : Covers relevant spelling) (fuel : Nat) {stack : Stack}
    (numeric : stack.Numeric) : body.eval first fuel stack = body.eval second fuel stack := by
  -- What comes after a part of the body runs on the stack that the part leaves, which is again numeric.
  induction spelled generalizing stack with
  | done => rfl
  | @token plain rest restTokens _ _ ihRest =>
      have alone : Covers relevant [plain] := covers.of_subset (by simp)
      have later : Covers relevant restTokens := covers.of_subset fun _ member => by simp [member]
      have same : Machine.runTokens first fuel stack [plain] = Machine.runTokens second fuel stack [plain] :=
        Machine.run_agree agree fuel numeric alone
      simp only [eval, same]
      apply bind_andThen_congr
      intro middle reached
      exact ihRest later (Machine.run_numeric numeric reached)
  | @ifThen ifBody rest ifTokens restTokens _ _ _ _ _ _ ihIf ihRest =>
      have inIf : Covers relevant ifTokens := covers.of_subset fun _ member => by simp [member]
      have later : Covers relevant restTokens := covers.of_subset fun _ member => by simp [member]
      have same : branchOn stack (ifBody.eval first fuel) (fun left => some ⟨left, "", none⟩) =
          branchOn stack (ifBody.eval second fuel) fun left => some ⟨left, "", none⟩ :=
        branchOn_congr numeric (fun _ => ihIf inIf) fun _ _ => rfl
      simp only [eval, same]
      apply bind_andThen_congr
      intro middle reached
      refine ihRest later (branchOn_numeric numeric (fun _ _ => ifBody.eval_numeric) ?_ reached)
      intro left result leftNumeric ends
      cases ends
      exact leftNumeric
  | @ifElse ifBody elseBody rest ifTokens elseTokens restTokens _ _ _ _ _ _ _ _ _ ihIf ihElse ihRest =>
      have inIf : Covers relevant ifTokens := covers.of_subset fun _ member => by simp [member]
      have inElse : Covers relevant elseTokens := covers.of_subset fun _ member => by simp [member]
      have later : Covers relevant restTokens := covers.of_subset fun _ member => by simp [member]
      have same := branchOn_congr numeric (fun _ => ihIf inIf) fun _ => ihElse inElse
      simp only [eval, same]
      apply bind_andThen_congr
      intro middle reached
      exact ihRest later
        (branchOn_numeric numeric (fun _ _ => ifBody.eval_numeric) (fun _ _ => elseBody.eval_numeric) reached)

end Bodies

end Forth

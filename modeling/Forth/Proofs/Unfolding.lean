import Forth.Proofs.Agreement

/-! What becomes of the agenda. A step takes the first token off and leaves in its place nothing, the
numeral of a chosen number, or a body of the word that the token names. All that can be pending during a
run follows from this, step by step. -/

namespace Forth

/-- The lists of tokens that acting can put on the agenda, in the order in which they run, apart from the
numeral of a chosen number. Only a word that comes with the language has none. -/
def Action.bodies : Action → List (List Token)
  | .primitive (.schedule tokens) => [tokens.reverse]
  | .primitive _ => []
  | .compiled body => [body]
  | .conditional ifBody elseBody => [ifBody, elseBody]

/-- The tokens that a token can leave in its place when it is executed. -/
inductive Dictionary.Unfolds (dictionary : Dictionary) (token : Token) : List Token → Prop where
  | nothing : Unfolds dictionary token []
  | choice {chosen : Token} (noNumeral : Number.ofNumeral? token = none)
      (isNumeral : Number.ofNumeral? chosen ≠ none) : Unfolds dictionary token [chosen]
  | body {word : Word} {body : List Token} (noNumeral : Number.ofNumeral? token = none)
      (found : dictionary.find? token = some word) (member : body ∈ word.action.bodies) :
      Unfolds dictionary token body

theorem chooseBetween_scheduled {flag nearer deeper : Value} {rest : Stack} {effect : Effect}
    (chosen : chooseBetween flag nearer deeper rest = .ok effect) : ∃ token, effect.scheduled = [token] := by
  unfold chooseBetween at chosen
  split at chosen
  · cases chosen
    exact ⟨_, rfl⟩
  · split at chosen
    · cases chosen
      exact ⟨_, rfl⟩
    · cases chosen

section Words

variable {dictionary : Dictionary} {token : Token} {word : Word}
variable (noNumeral : Number.ofNumeral? token = none) (found : dictionary.find? token = some word)
include noNumeral found

theorem Primitive.apply_unfolds {primitive : Primitive} {stack : Stack} {effect : Effect}
    (isPrimitive : word.action = .primitive primitive) (numeric : stack.Numeric)
    (applied : primitive.apply stack = .ok effect) : dictionary.Unfolds token effect.scheduled := by
  unfold Primitive.apply at applied
  split at applied
  case h_5 =>
    rw [(Operation.apply_numeric numeric.tail.tail applied).2]
    exact .nothing
  case h_7 =>
    obtain ⟨chosen, scheduled⟩ := chooseBetween_scheduled applied
    have reads := (chooseBetween_numeric numeric applied).2
    rw [scheduled] at reads ⊢
    exact .choice noNumeral (reads chosen (List.mem_cons_self ..))
  case h_10 tokens =>
    cases applied
    exact .body noNumeral found (by simp only [isPrimitive, Action.bodies, List.mem_singleton])
  case h_11 => cases applied
  all_goals
    cases applied
    exact .nothing

theorem Machine.act_unfolds {machine next : Machine} {agenda : Agenda} (numeric : machine.stack.Numeric)
    (moves : machine.act word.action agenda = .moved next) :
    ∃ front, dictionary.Unfolds token front ∧ next.agenda = front ++ agenda := by
  cases action : word.action with
  | primitive primitive =>
      simp only [action, act, applyPrimitive] at moves
      cases applied : primitive.apply machine.stack with
      | error fault => simp only [applied, fail, reduceCtorEq] at moves
      | ok effect =>
          simp only [applied, Step.moved.injEq] at moves
          subst moves
          exact ⟨effect.scheduled, Primitive.apply_unfolds noNumeral found action numeric applied, rfl⟩
  | compiled body =>
      simp only [action, act, Step.moved.injEq] at moves
      subst moves
      exact ⟨body, .body noNumeral found (by simp [action, Action.bodies]), rfl⟩
  | conditional ifBody elseBody =>
      simp only [action, act, branch] at moves
      cases popped : machine.stack.popValue with
      | error fault => simp only [popped, fail, reduceCtorEq] at moves
      | ok top =>
          simp only [popped, Step.moved.injEq] at moves
          subst moves
          refine ⟨_, .body noNumeral found ?_, rfl⟩
          split <;> simp [action, Action.bodies]

end Words

namespace Machine

variable {dictionary : Dictionary} {machine next : Machine}

/-- One step of the agenda: the first token gives way to what it unfolds to. -/
theorem step_unfolds (numeric : machine.stack.Numeric) (moves : machine.step dictionary = .moved next) :
    ∃ token agenda front, machine.agenda = token :: agenda ∧ dictionary.Unfolds token front ∧
      next.agenda = front ++ agenda := by
  cases pending : machine.agenda with
  | nil => simp only [step, pending, reduceCtorEq] at moves
  | cons token agenda =>
      simp only [step, pending, executeToken] at moves
      cases numeral : Number.ofNumeral? token with
      | some number =>
          simp only [numeral, Step.moved.injEq] at moves
          subst moves
          exact ⟨token, agenda, [], rfl, .nothing, rfl⟩
      | none =>
          cases found : dictionary.find? token with
          | none => simp only [numeral, found, fail, reduceCtorEq] at moves
          | some word =>
              simp only [numeral, found] at moves
              obtain ⟨front, unfolds, reached⟩ := act_unfolds numeral found numeric moves
              exact ⟨token, agenda, front, rfl, unfolds, reached⟩

theorem moved_numeric (numeric : machine.stack.Numeric) (moves : machine.step dictionary = .moved next) :
    next.stack.Numeric := by
  have kept := step_numeric dictionary numeric
  rwa [moves] at kept

/-- The machines that a run comes to. -/
inductive Reaches (dictionary : Dictionary) (start : Machine) : Machine → Prop where
  | start : Reaches dictionary start start
  | step {machine next : Machine} (earlier : Reaches dictionary start machine)
      (moves : machine.step dictionary = .moved next) : Reaches dictionary start next

theorem Reaches.after_step {last : Machine} (moves : machine.step dictionary = .moved next)
    (reaches : Reaches dictionary next last) : Reaches dictionary machine last := by
  induction reaches with
  | start => exact .step .start moves
  | step _ movesOn ih => exact .step ih movesOn

/-- What is reached is the start or is reached from the machine after the first step. -/
theorem Reaches.cases_head {last : Machine} (reaches : Reaches dictionary machine last) :
    last = machine ∨ ∃ next, machine.step dictionary = .moved next ∧ Reaches dictionary next last := by
  induction reaches with
  | start => exact .inl rfl
  | step _ moves ih =>
      rcases ih with rfl | ⟨next, first, rest⟩
      · exact .inr ⟨_, moves, .start⟩
      · exact .inr ⟨next, first, rest.step moves⟩

theorem Reaches.numeric (reaches : Reaches dictionary machine next) (numeric : machine.stack.Numeric) :
    next.stack.Numeric := by
  induction reaches with
  | start => exact numeric
  | step _ moves ih => exact moved_numeric ih moves

/-- A run that settles comes to a machine whose step is the last one. Unless that ends in a fault, nothing
is pending then. -/
theorem reaches_last {ending : Ending} (settles : Settles (fun fuel => run dictionary fuel machine) ending) :
    ∃ last, Reaches dictionary machine last ∧ last.step dictionary = .ended ending ∧
      (last.agenda = [] ∨ ∃ fault, ending.fault = some fault) := by
  obtain ⟨fuel, reached⟩ := settles
  induction fuel generalizing machine with
  | zero => cases reached
  | succ fuel ih =>
      simp only [run] at reached
      cases moved : machine.step dictionary with
      | moved next =>
          simp only [moved] at reached
          obtain ⟨last, reaches, ends⟩ := ih reached
          exact ⟨last, reaches.after_step moved, ends⟩
      | ended ended =>
          simp only [moved, Option.some.injEq] at reached
          subst reached
          refine ⟨machine, .start, moved, ?_⟩
          by_cases nothing : machine.agenda = []
          · exact .inl nothing
          · obtain ⟨fault, failed, _⟩ := ended_pending nothing moved
            exact .inr ⟨fault, failed⟩

end Machine

end Forth

import Forth.Proofs.Runs
import Forth.Vocabulary

/-! What lies beneath the values that a run works on stays where it is. A word looks at no more values
than it needs, counted from the top, so a run that never finds too few goes the same way on a deeper
stack and leaves the deeper values alone. Only what is printed may differ, since a word for printing
shows values that it does not need. -/

namespace Forth

/-- The effect with more values beneath the stack. -/
def Effect.above (below : Stack) (effect : Effect) : Effect :=
  { effect with stack := effect.stack ++ below }

section Primitives

variable {primitive : Primitive} {stack : Stack} (below : Stack)

theorem Operation.apply_append (operation : Operation) (top next : Value) (rest : Stack) :
    operation.apply top next (rest ++ below) = (operation.apply top next rest).map (Effect.above below) := by
  unfold Operation.apply
  cases Number.ofInt? (operation.result top.reading.toInt next.reading.toInt) with
  | some number => rfl
  | none => rfl

theorem chooseBetween_append (flag nearer deeper : Value) (rest : Stack) :
    chooseBetween flag nearer deeper (rest ++ below) =
      (chooseBetween flag nearer deeper rest).map (Effect.above below) := by
  unfold chooseBetween
  split
  · rfl
  · split
    · rfl
    · rfl

/-- A word that finds what it needs does not notice what is beneath, except that it may print it. -/
theorem Primitive.apply_append {effect : Effect} (applied : primitive.apply stack = .ok effect) :
    ∃ printed, primitive.apply (stack ++ below) =
      .ok { stack := effect.stack ++ below, scheduled := effect.scheduled, printed } := by
  unfold Primitive.apply at applied
  split at applied
  case h_5 operation top next rest =>
    refine ⟨effect.printed, ?_⟩
    simp only [List.cons_append, Primitive.apply]
    rw [Operation.apply_append, applied]
    rfl
  case h_7 flag nearer deeper rest =>
    refine ⟨effect.printed, ?_⟩
    simp only [List.cons_append, Primitive.apply]
    rw [chooseBetween_append, applied]
    rfl
  case h_11 => cases applied
  all_goals
    cases applied
    exact ⟨_, rfl⟩

/-- A word that fails for another reason than too few values fails in the same way on a deeper stack. -/
theorem Primitive.apply_append_error {fault : Fault} (failed : primitive.apply stack = .error fault)
    (enough : ∀ needed available, fault ≠ .underflow needed available) :
    primitive.apply (stack ++ below) = .error fault := by
  unfold Primitive.apply at failed
  split at failed
  case h_5 operation top next rest =>
    simp only [List.cons_append, Primitive.apply]
    rw [Operation.apply_append, failed]
    rfl
  case h_7 flag nearer deeper rest =>
    simp only [List.cons_append, Primitive.apply]
    rw [chooseBetween_append, failed]
    rfl
  case h_11 => exact absurd (Except.error.inj failed).symm (enough _ _)
  all_goals cases failed

end Primitives

namespace Machine

/-- The same work is pending on a stack with more values beneath. -/
structure Above (below : Stack) (machine deeper : Machine) : Prop where
  stack : deeper.stack = machine.stack ++ below
  agenda : deeper.agenda = machine.agenda

end Machine

/-- The ending has the same fault and a stack with more values beneath. -/
structure Ending.Above (below : Stack) (ending deeper : Ending) : Prop where
  stack : deeper.stack = ending.stack ++ below
  fault : deeper.fault = ending.fault

/-- No word found too few values. -/
def Ending.Sufficed (ending : Ending) : Prop :=
  ∀ needed available, ending.fault ≠ some (.underflow needed available)

namespace Step

/-- Both steps move, or both end, with more values beneath in the second. -/
inductive Above (below : Stack) : Step → Step → Prop where
  | ended {ending deeper : Ending} (above : ending.Above below deeper) : Above below (.ended ending) (.ended deeper)
  | moved {next deeper : Machine} (above : next.Above below deeper) : Above below (.moved next) (.moved deeper)

/-- The step does not end because of too few values. -/
def Sufficed : Step → Prop
  | .ended ending => ending.Sufficed
  | .moved _ => True

end Step

namespace Machine

variable {below : Stack} {machine deeper : Machine}

theorem fail_above (above : machine.Above below deeper) (fault : Fault) :
    Step.Above below (machine.fail fault) (deeper.fail fault) :=
  .ended ⟨above.stack, rfl⟩

theorem applyPrimitive_above (above : machine.Above below deeper) {primitive : Primitive} {agenda : Agenda}
    (sufficed : (machine.applyPrimitive primitive agenda).Sufficed) :
    Step.Above below (machine.applyPrimitive primitive agenda) (deeper.applyPrimitive primitive agenda) := by
  unfold applyPrimitive at sufficed ⊢
  rw [above.stack]
  cases applied : primitive.apply machine.stack with
  | ok effect =>
      obtain ⟨printed, appliedDeeper⟩ := Primitive.apply_append below applied
      simp only [appliedDeeper]
      exact .moved ⟨rfl, rfl⟩
  | error fault =>
      rw [applied] at sufficed
      have enough : ∀ needed available, fault ≠ .underflow needed available := by
        intro needed available same
        exact sufficed needed available (congrArg some same)
      simp only [Primitive.apply_append_error below applied enough]
      exact fail_above above fault

/-- An empty stack has no selector, so a branch that does not fail has found it above what is beneath. -/
theorem branch_above (above : machine.Above below deeper) {ifBody elseBody : List Token} {agenda : Agenda}
    (sufficed : (machine.branch ifBody elseBody agenda).Sufficed) :
    Step.Above below (machine.branch ifBody elseBody agenda) (deeper.branch ifBody elseBody agenda) := by
  obtain ⟨_ | ⟨selector, rest⟩, pending, printed⟩ := machine
  · exact absurd rfl (sufficed 1 0)
  · have onTop : deeper.stack.popValue = .ok (selector, rest ++ below) := by
      rw [above.stack]
      rfl
    simp only [branch, onTop]
    exact .moved ⟨rfl, rfl⟩

theorem act_above (above : machine.Above below deeper) {action : Action} {agenda : Agenda}
    (sufficed : (machine.act action agenda).Sufficed) :
    Step.Above below (machine.act action agenda) (deeper.act action agenda) := by
  cases action with
  | primitive primitive => exact applyPrimitive_above above sufficed
  | compiled body => exact .moved ⟨above.stack, rfl⟩
  | conditional ifBody elseBody => exact branch_above above sufficed

/-- One step: unless a value is missing, it does the same above whatever is beneath. -/
theorem step_above (dictionary : Dictionary) (above : machine.Above below deeper)
    (sufficed : (machine.step dictionary).Sufficed) :
    Step.Above below (machine.step dictionary) (deeper.step dictionary) := by
  unfold step at sufficed ⊢
  rw [above.agenda]
  cases pending : machine.agenda with
  | nil => exact .ended ⟨above.stack, rfl⟩
  | cons token agenda =>
      simp only [pending, executeToken] at sufficed ⊢
      cases numeral : Number.ofNumeral? token with
      | some number =>
          refine .moved ⟨?_, rfl⟩
          simp only [push, above.stack, List.cons_append]
      | none =>
          simp only [numeral] at sufficed ⊢
          cases found : dictionary.find? token with
          | none => exact fail_above above (.unknownWord token)
          | some word =>
              simp only [found] at sufficed ⊢
              exact act_above above sufficed

/-- Whole runs: the same number of steps leads to the same end. -/
theorem run_above {dictionary : Dictionary} {fuel : Nat} {ending : Ending} (above : machine.Above below deeper)
    (reached : run dictionary fuel machine = some ending) (sufficed : ending.Sufficed) :
    ∃ other, run dictionary fuel deeper = some other ∧ ending.Above below other := by
  induction fuel generalizing machine deeper with
  | zero => cases reached
  | succ fuel ih =>
      simp only [run] at reached ⊢
      cases moved : machine.step dictionary with
      | ended ended =>
          simp only [moved, Option.some.injEq] at reached
          subst reached
          have steps := step_above dictionary above (moved ▸ sufficed)
          rw [moved] at steps
          generalize deeper.step dictionary = reachedDeeper at steps ⊢
          cases steps with
          | ended ends => exact ⟨_, rfl, ends⟩
      | moved next =>
          simp only [moved] at reached
          have steps := step_above dictionary above (moved ▸ trivial)
          rw [moved] at steps
          generalize deeper.step dictionary = reachedDeeper at steps ⊢
          cases steps with
          | moved nextAbove => exact ih nextAbove reached

end Machine

/-- A run that ends well, or with an unknown word or an argument that is not allowed, ends in the same way
when more values are beneath its stack, and these are still beneath what it leaves. -/
theorem runs_keep_what_is_beneath (dictionary : Dictionary) (stack below : Stack) (tokens : List Token)
    {ending : Ending} (settles : Settles (fun fuel => Machine.runTokens dictionary fuel stack tokens) ending)
    (sufficed : ∀ needed available, ending.fault ≠ some (.underflow needed available)) :
    ∃ printed, Settles (fun fuel => Machine.runTokens dictionary fuel (stack ++ below) tokens)
      { stack := ending.stack ++ below, printed, fault := ending.fault } := by
  obtain ⟨fuel, reached⟩ := settles
  have above : Machine.Above below ⟨stack, tokens, ""⟩ ⟨stack ++ below, tokens, ""⟩ := ⟨rfl, rfl⟩
  obtain ⟨⟨stackLeft, printed, fault⟩, reachedDeeper, sameStack, sameFault⟩ := Machine.run_above above reached sufficed
  subst sameStack sameFault
  exact ⟨printed, fuel, reachedDeeper⟩

/-- A word that calls itself from inside a branch, and then a flag that is neither zero nor one. -/
theorem runs_keep_what_is_beneath_countdown :
    let dictionary := (Dictionary.empty.insertAll Vocabulary.base).install
      [("countdown", .compiled ["0", "==", "<if-0>"]),
        ("<if-0>", .conditional ["drop", "drop"] ["drop", "1", "flip", "-", "countdown"])]
    let fault := Fault.invalidArgument "choose" "flag must be 0 or 1, found 9."
    Settles (fun fuel => Machine.runTokens dictionary fuel [.number 2, .number 5, .number 6]
        ["countdown", "9", "choose"])
      { stack := [.number 9, .number 5, .number 6], fault := some fault } ∧
    ∃ printed, Settles (fun fuel => Machine.runTokens dictionary fuel [.number 2, .number 5, .number 6, .number 7]
        ["countdown", "9", "choose"])
      { stack := [.number 9, .number 5, .number 6, .number 7], printed, fault := some fault } := by
  intro dictionary fault
  have settles : Settles (fun fuel => Machine.runTokens dictionary fuel [.number 2, .number 5, .number 6]
      ["countdown", "9", "choose"]) { stack := [.number 9, .number 5, .number 6], fault := some fault } :=
    ⟨40, by decide +kernel⟩
  exact ⟨settles, runs_keep_what_is_beneath dictionary _ [.number 7] _ settles fun _ _ => by simp [fault]⟩

end Forth

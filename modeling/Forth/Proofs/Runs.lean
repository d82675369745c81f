import Forth.Body

/-! Outcomes of runs. A computation that asks for fuel settles when some amount of it is enough, and
diverges when none is; two computations have the same outcome when they settle on the same results.
Runs of the machine are steady, so a run has at most one outcome, and they compose: tokens in front
of others run to their own end before the others start. -/

namespace Forth

section Computations

variable {α β : Type}

/-- With enough fuel the computation comes to the result. -/
def Settles (computation : Nat → Option α) (result : α) : Prop :=
  ∃ fuel, computation fuel = some result

/-- No amount of fuel is enough. -/
def Diverges (computation : Nat → Option α) : Prop := ∀ fuel, computation fuel = none

/-- More fuel keeps a result that has been reached. -/
def Steady (computation : Nat → Option α) : Prop :=
  ∀ ⦃fuel more : Nat⦄ ⦃result : α⦄, fuel ≤ more → computation fuel = some result →
    computation more = some result

structure SameOutcome (first second : Nat → Option α) : Prop where
  settles_iff : ∀ result, Settles first result ↔ Settles second result
  diverges_iff : Diverges first ↔ Diverges second

theorem diverges_iff_not_settles (computation : Nat → Option α) :
    Diverges computation ↔ ∀ result, ¬Settles computation result := by
  constructor
  · intro diverges result ⟨fuel, reached⟩
    rw [diverges fuel] at reached
    cases reached
  · intro never fuel
    cases reached : computation fuel with
    | none => rfl
    | some result => exact absurd ⟨fuel, reached⟩ (never result)

theorem SameOutcome.of_settles {first second : Nat → Option α}
    (same : ∀ result, Settles first result ↔ Settles second result) : SameOutcome first second where
  settles_iff := same
  diverges_iff := by
    rw [diverges_iff_not_settles, diverges_iff_not_settles]
    exact forall_congr' fun result => not_congr (same result)

theorem SameOutcome.refl (computation : Nat → Option α) : SameOutcome computation computation :=
  .of_settles fun _ => Iff.rfl

theorem SameOutcome.symm {first second : Nat → Option α} (same : SameOutcome first second) :
    SameOutcome second first :=
  .of_settles fun result => (same.settles_iff result).symm

theorem SameOutcome.trans {first second third : Nat → Option α} (front : SameOutcome first second)
    (back : SameOutcome second third) : SameOutcome first third :=
  .of_settles fun result => (front.settles_iff result).trans (back.settles_iff result)

theorem Steady.unique {computation : Nat → Option α} (steady : Steady computation) {first second : α}
    (settlesFirst : Settles computation first) (settlesSecond : Settles computation second) :
    first = second := by
  obtain ⟨fuel, reachedFirst⟩ := settlesFirst
  obtain ⟨other, reachedSecond⟩ := settlesSecond
  have atBoth := steady (Nat.le_max_left fuel other) reachedFirst
  rw [steady (Nat.le_max_right fuel other) reachedSecond] at atBoth
  exact (Option.some.inj atBoth).symm

theorem settles_const (result other : α) : Settles (fun _ => some result) other ↔ other = result := by
  constructor
  · intro ⟨_, reached⟩
    exact (Option.some.inj reached).symm
  · intro same
    exact ⟨0, same ▸ rfl⟩

theorem steady_const (result : Option α) : Steady fun _ => result := fun _ _ _ _ reached => reached

theorem Steady.map {computation : Nat → Option α} (steady : Steady computation) (change : α → β) :
    Steady fun fuel => (computation fuel).map change := by
  intro fuel more result enough reached
  obtain ⟨middle, reachedMiddle, rfl⟩ := Option.map_eq_some_iff.mp reached
  exact Option.map_eq_some_iff.mpr ⟨middle, steady enough reachedMiddle, rfl⟩

theorem settles_map (computation : Nat → Option α) (change : α → β) (result : β) :
    Settles (fun fuel => (computation fuel).map change) result ↔
      ∃ middle, Settles computation middle ∧ change middle = result := by
  constructor
  · intro ⟨fuel, reached⟩
    obtain ⟨middle, reachedMiddle, changed⟩ := Option.map_eq_some_iff.mp reached
    exact ⟨middle, ⟨fuel, reachedMiddle⟩, changed⟩
  · intro ⟨middle, ⟨fuel, reached⟩, changed⟩
    exact ⟨fuel, by simp only [reached, Option.map_some, changed]⟩

theorem SameOutcome.map {first second : Nat → Option α} (same : SameOutcome first second)
    (change : α → β) :
    SameOutcome (fun fuel => (first fuel).map change) fun fuel => (second fuel).map change := by
  apply SameOutcome.of_settles
  intro result
  rw [settles_map, settles_map]
  exact exists_congr fun middle => and_congr_left' (same.settles_iff middle)

theorem Steady.bind {computation : Nat → Option α} {next : α → Nat → Option β}
    (steady : Steady computation) (steadyNext : ∀ middle, Steady (next middle)) :
    Steady fun fuel => (computation fuel).bind fun middle => next middle fuel := by
  intro fuel more result enough reached
  obtain ⟨middle, reachedMiddle, reachedResult⟩ := Option.bind_eq_some_iff.mp reached
  exact Option.bind_eq_some_iff.mpr
    ⟨middle, steady enough reachedMiddle, steadyNext middle enough reachedResult⟩

/-- A computation in two parts settles when both parts do, each with fuel of its own. -/
theorem settles_bind {computation : Nat → Option α} {next : α → Nat → Option β}
    (steady : Steady computation) (steadyNext : ∀ middle, Steady (next middle)) (result : β) :
    Settles (fun fuel => (computation fuel).bind fun middle => next middle fuel) result ↔
      ∃ middle, Settles computation middle ∧ Settles (next middle) result := by
  constructor
  · intro ⟨fuel, reached⟩
    obtain ⟨middle, reachedMiddle, reachedResult⟩ := Option.bind_eq_some_iff.mp reached
    exact ⟨middle, ⟨fuel, reachedMiddle⟩, ⟨fuel, reachedResult⟩⟩
  · intro ⟨middle, ⟨fuel, reachedMiddle⟩, ⟨other, reachedResult⟩⟩
    refine ⟨max fuel other, Option.bind_eq_some_iff.mpr ⟨middle, ?_, ?_⟩⟩
    · exact steady (Nat.le_max_left fuel other) reachedMiddle
    · exact steadyNext middle (Nat.le_max_right fuel other) reachedResult

end Computations

namespace Ending

theorem andThen_fault {first : Ending} {fault : Fault} (failed : first.fault = some fault)
    (next : Stack → Option Ending) : first.andThen next = some first := by
  simp only [andThen, failed]

theorem andThen_ok {first : Ending} (succeeded : first.fault = none) (next : Stack → Option Ending) :
    first.andThen next =
      (next first.stack).map fun second =>
        { second with printed := first.printed ++ second.printed } := by
  simp only [andThen, succeeded]

theorem andThen_done (first : Ending) : (first.andThen fun stack => some ⟨stack, "", none⟩) = some first := by
  obtain ⟨stack, printed, _ | fault⟩ := first
  · rw [andThen_ok rfl, Option.map_some, String.append_empty]
  · exact andThen_fault rfl _

theorem steady_andThen (first : Ending) {next : Stack → Nat → Option Ending}
    (steadyNext : ∀ stack, Steady (next stack)) :
    Steady fun fuel => first.andThen fun stack => next stack fuel := by
  cases outcome : first.fault with
  | none =>
      simp only [andThen_ok outcome]
      exact (steadyNext first.stack).map _
  | some fault =>
      simp only [andThen_fault outcome]
      exact steady_const _

/-- What goes on after an ending may be replaced by anything with the same outcome. -/
theorem sameOutcome_andThen (first : Ending) {next other : Stack → Nat → Option Ending}
    (same : SameOutcome (next first.stack) (other first.stack)) :
    SameOutcome (fun fuel => first.andThen fun stack => next stack fuel)
      fun fuel => first.andThen fun stack => other stack fuel := by
  cases outcome : first.fault with
  | none =>
      simp only [andThen_ok outcome]
      exact same.map _
  | some fault =>
      simp only [andThen_fault outcome]
      exact .refl _

end Ending

/-- The faults that code can run into with a dictionary. -/
inductive Fault.Running (dictionary : Dictionary) : Fault → Prop where
  | underflow (needed available : Nat) : Running dictionary (.underflow needed available)
  | invalidArgument (word message : String) : Running dictionary (.invalidArgument word message)
  | unknownWord {name : String} (unknown : dictionary.find? name = none) : Running dictionary (.unknownWord name)

theorem Primitive.apply_fault {primitive : Primitive} {stack : Stack} {fault : Fault}
    (failed : primitive.apply stack = .error fault) (dictionary : Dictionary) : fault.Running dictionary := by
  unfold Primitive.apply at failed
  split at failed
  case h_5 =>
    unfold Operation.apply at failed
    split at failed <;> cases failed
    exact .invalidArgument _ _
  case h_7 =>
    unfold chooseBetween at failed
    split at failed
    · cases failed
    · split at failed <;> cases failed
      exact .invalidArgument _ _
  all_goals cases failed
  exact .underflow _ _

namespace Machine

/-- The machine with text printed before. -/
def after (earlier : String) (machine : Machine) : Machine :=
  { machine with printed := earlier ++ machine.printed }

/-- The machine with tokens waiting behind its agenda. -/
def ahead (later : List Token) (machine : Machine) : Machine :=
  { machine with agenda := machine.agenda ++ later }

end Machine

/-- The ending with text printed before. -/
def Ending.after (earlier : String) (ending : Ending) : Ending :=
  { ending with printed := earlier ++ ending.printed }

namespace Step

/-- What is printed earlier shows in whatever the step comes to. -/
def after (earlier : String) : Step → Step
  | .ended ending => .ended (ending.after earlier)
  | .moved next => .moved (next.after earlier)

/-- Waiting tokens stay behind a machine that moves, and are dropped when it ends. -/
def ahead (later : List Token) : Step → Step
  | .ended ending => .ended ending
  | .moved next => .moved (next.ahead later)

end Step

namespace Machine

variable (dictionary : Dictionary)

theorem act_after (earlier : String) (machine : Machine) (action : Action) (agenda : Agenda) :
    (machine.after earlier).act action agenda = (machine.act action agenda).after earlier := by
  cases action with
  | primitive primitive =>
      simp only [act, applyPrimitive, after]
      cases primitive.apply machine.stack with
      | error fault => rfl
      | ok effect => simp only [Step.after, after, String.append_assoc]
  | compiled body => rfl
  | conditional ifBody elseBody =>
      simp only [act, branch, after]
      cases machine.stack.popValue with
      | error fault => rfl
      | ok popped => rfl

theorem step_after (earlier : String) (machine : Machine) :
    (machine.after earlier).step dictionary = (machine.step dictionary).after earlier := by
  obtain ⟨stack, agenda, printed⟩ := machine
  cases agenda with
  | nil => rfl
  | cons token agenda =>
      simp only [step, after, executeToken]
      cases Number.ofNumeral? token with
      | some number => rfl
      | none =>
          cases dictionary.find? token with
          | none => rfl
          | some word => exact act_after earlier ⟨stack, token :: agenda, printed⟩ word.action agenda

theorem run_after (earlier : String) (fuel : Nat) (machine : Machine) :
    run dictionary fuel (machine.after earlier) =
      (run dictionary fuel machine).map (Ending.after earlier) := by
  induction fuel generalizing machine with
  | zero => rfl
  | succ fuel ih =>
      simp only [run, step_after]
      cases machine.step dictionary with
      | ended ending => rfl
      | moved next => exact ih next

theorem act_ahead (later : List Token) (machine : Machine) (action : Action) (agenda : Agenda) :
    (machine.ahead later).act action (agenda ++ later) = (machine.act action agenda).ahead later := by
  cases action with
  | primitive primitive =>
      simp only [act, applyPrimitive, ahead]
      cases primitive.apply machine.stack with
      | error fault => rfl
      | ok effect => simp only [Step.ahead, ahead, Agenda.pushBody, List.append_assoc]
  | compiled body => simp only [act, Step.ahead, ahead, Agenda.pushBody, List.append_assoc]
  | conditional ifBody elseBody =>
      simp only [act, branch, ahead]
      cases machine.stack.popValue with
      | error fault => rfl
      | ok popped => simp only [Step.ahead, ahead, Agenda.pushBody, List.append_assoc]

/-- The tokens that wait behind a token have no part in its step. -/
theorem step_ahead (later : List Token) (machine : Machine) (pending : machine.agenda ≠ []) :
    (machine.ahead later).step dictionary = (machine.step dictionary).ahead later := by
  obtain ⟨stack, agenda, printed⟩ := machine
  cases agenda with
  | nil => exact absurd rfl pending
  | cons token agenda =>
      simp only [step, ahead, List.cons_append, executeToken]
      cases Number.ofNumeral? token with
      | some number => rfl
      | none =>
          cases dictionary.find? token with
          | none => rfl
          | some word => exact act_ahead later ⟨stack, token :: agenda, printed⟩ word.action agenda

theorem steady_run (machine : Machine) : Steady fun fuel => run dictionary fuel machine := by
  intro fuel more ending enough reached
  induction fuel generalizing machine more with
  | zero => cases reached
  | succ fuel ih =>
      obtain ⟨rest, rfl⟩ := Nat.exists_eq_add_of_le' (Nat.lt_of_lt_of_le (Nat.succ_pos fuel) enough)
      simp only [run] at reached ⊢
      cases moved : machine.step dictionary with
      | ended ended => simpa only [moved] using reached
      | moved next =>
          simp only [moved] at reached ⊢
          exact ih next (by omega) reached

theorem steady_runTokens (stack : Stack) (tokens : List Token) :
    Steady fun fuel => runTokens dictionary fuel stack tokens :=
  steady_run dictionary ⟨stack, tokens, ""⟩

variable {dictionary}

theorem act_ended {machine : Machine} {action : Action} {agenda : Agenda} {ended : Ending}
    (ends : machine.act action agenda = .ended ended) :
    ∃ fault, ended.fault = some fault ∧ fault.Running dictionary := by
  cases action with
  | primitive primitive =>
      simp only [act, applyPrimitive] at ends
      cases applied : primitive.apply machine.stack with
      | error fault =>
          simp only [applied, fail, Step.ended.injEq] at ends
          exact ⟨fault, ends ▸ rfl, Primitive.apply_fault applied dictionary⟩
      | ok effect => simp only [applied, reduceCtorEq] at ends
  | compiled body => simp only [act, reduceCtorEq] at ends
  | conditional ifBody elseBody =>
      obtain ⟨_ | ⟨selector, rest⟩, pending, printed⟩ := machine
      · cases ends
        exact ⟨_, rfl, .underflow 1 0⟩
      · cases ends

/-- A machine that still has a token to execute ends only in a fault of running. -/
theorem ended_pending {machine : Machine} {ended : Ending} (pending : machine.agenda ≠ [])
    (ends : machine.step dictionary = .ended ended) :
    ∃ fault, ended.fault = some fault ∧ fault.Running dictionary := by
  obtain ⟨stack, agenda, printed⟩ := machine
  cases agenda with
  | nil => exact absurd rfl pending
  | cons token agenda =>
      simp only [step, executeToken] at ends
      cases numeral : Number.ofNumeral? token with
      | some number => simp only [numeral, reduceCtorEq] at ends
      | none =>
          cases found : dictionary.find? token with
          | none =>
              simp only [numeral, found, fail, Step.ended.injEq] at ends
              exact ⟨_, ends ▸ rfl, .unknownWord found⟩
          | some word =>
              simp only [numeral, found] at ends
              exact act_ended ends

theorem run_running {fuel : Nat} {machine : Machine} {ending : Ending} {fault : Fault}
    (reached : run dictionary fuel machine = some ending) (failed : ending.fault = some fault) :
    fault.Running dictionary := by
  induction fuel generalizing machine with
  | zero => cases reached
  | succ fuel ih =>
      simp only [run] at reached
      cases moved : machine.step dictionary with
      | moved next =>
          simp only [moved] at reached
          exact ih reached
      | ended ended =>
          simp only [moved, Option.some.injEq] at reached
          subst reached
          by_cases nothing : machine.agenda = []
          · simp only [step, nothing, Step.ended.injEq] at moved
            rw [← moved] at failed
            cases failed
          · obtain ⟨other, same, running⟩ := ended_pending nothing moved
            rw [failed] at same
            cases same
            exact running

/-- No run ends in the fault of an incomplete definition. -/
theorem run_fault {fuel : Nat} {machine : Machine} {ending : Ending} {fault : Fault}
    (reached : run dictionary fuel machine = some ending) (failed : ending.fault = some fault) :
    fault.isIncompleteDefinition = false := by
  cases run_running reached failed <;> rfl

theorem settles_run_of_ended {machine : Machine} {ended : Ending}
    (ends : machine.step dictionary = .ended ended) (ending : Ending) :
    Settles (fun fuel => run dictionary fuel machine) ending ↔ ending = ended := by
  constructor
  · intro settles
    obtain ⟨_ | fuel, reached⟩ := settles
    · cases reached
    · simpa only [run, ends, Option.some.injEq, eq_comm] using reached
  · intro same
    exact ⟨1, by simp only [run, ends, same]⟩

theorem settles_run_of_moved {machine next : Machine} (moves : machine.step dictionary = .moved next)
    (ending : Ending) :
    Settles (fun fuel => run dictionary fuel machine) ending ↔
      Settles (fun fuel => run dictionary fuel next) ending := by
  constructor
  · intro settles
    obtain ⟨_ | fuel, reached⟩ := settles
    · cases reached
    · exact ⟨fuel, by simpa only [run, moves] using reached⟩
  · intro ⟨fuel, reached⟩
    exact ⟨fuel + 1, by simpa only [run, moves] using reached⟩

theorem run_eq_andThen (fuel : Nat) (stack : Stack) (tokens : List Token) (printed : String) :
    run dictionary fuel ⟨stack, tokens, printed⟩ =
      Ending.andThen ⟨stack, printed, none⟩ fun left => runTokens dictionary fuel left tokens := by
  have printsAfter := run_after dictionary printed fuel ⟨stack, tokens, ""⟩
  simp only [after, String.append_empty] at printsAfter
  rw [printsAfter, Ending.andThen_ok rfl]
  rfl

/-- A machine with tokens waiting first runs as if they were not there, and then, unless that was a
fault, runs them on the stack it has come to. -/
theorem settles_run_ahead (later : List Token) (machine : Machine) (ending : Ending) :
    Settles (fun fuel => run dictionary fuel (machine.ahead later)) ending ↔
      ∃ first, Settles (fun fuel => run dictionary fuel machine) first ∧
        Settles (fun fuel => first.andThen fun stack => runTokens dictionary fuel stack later)
          ending := by
  have idle (machine : Machine) (nothing : machine.agenda = []) :
      machine.step dictionary = .ended ⟨machine.stack, machine.printed, none⟩ ∧
        ∀ fuel, run dictionary fuel (machine.ahead later) =
          Ending.andThen ⟨machine.stack, machine.printed, none⟩ fun stack =>
            runTokens dictionary fuel stack later := by
    obtain ⟨stack, agenda, printed⟩ := machine
    subst nothing
    exact ⟨rfl, fun fuel => run_eq_andThen fuel stack later printed⟩
  constructor
  · rintro ⟨fuel, reached⟩
    induction fuel generalizing machine with
    | zero => cases reached
    | succ fuel ih =>
        by_cases nothing : machine.agenda = []
        · obtain ⟨stops, resumes⟩ := idle machine nothing
          exact ⟨_, (settles_run_of_ended stops _).mpr rfl, fuel + 1,
            (resumes (fuel + 1)).symm.trans reached⟩
        · simp only [run, step_ahead dictionary later machine nothing] at reached
          cases moved : machine.step dictionary with
          | ended ended =>
              -- Only a fault ends a machine that has a token to execute.
              obtain ⟨fault, failed, _⟩ := ended_pending nothing moved
              simp only [moved, Step.ahead, Option.some.injEq] at reached
              subst reached
              refine ⟨ended, (settles_run_of_ended moved ended).mpr rfl, 0, ?_⟩
              exact Ending.andThen_fault failed _
          | moved next =>
              simp only [moved, Step.ahead] at reached
              obtain ⟨first, settlesFirst, continues⟩ := ih next reached
              exact ⟨first, (settles_run_of_moved moved first).mpr settlesFirst, continues⟩
  · rintro ⟨first, ⟨fuel, reached⟩, continues⟩
    induction fuel generalizing machine with
    | zero => cases reached
    | succ fuel ih =>
        by_cases nothing : machine.agenda = []
        · obtain ⟨stops, resumes⟩ := idle machine nothing
          simp only [run, stops, Option.some.injEq] at reached
          subst reached
          simpa only [resumes] using continues
        · have steps := step_ahead dictionary later machine nothing
          cases moved : machine.step dictionary with
          | ended ended =>
              obtain ⟨fault, failed, _⟩ := ended_pending nothing moved
              simp only [run, moved, Option.some.injEq] at reached
              subst reached
              simp only [Ending.andThen_fault failed, settles_const] at continues
              rw [moved] at steps
              exact (settles_run_of_ended steps ending).mpr continues
          | moved next =>
              simp only [run, moved] at reached
              rw [moved] at steps
              exact (settles_run_of_moved steps ending).mpr (ih next reached)

/-- Running one list of tokens after another. -/
theorem settles_runTokens_append (stack : Stack) (tokens later : List Token) (ending : Ending) :
    Settles (fun fuel => runTokens dictionary fuel stack (tokens ++ later)) ending ↔
      ∃ first, Settles (fun fuel => runTokens dictionary fuel stack tokens) first ∧
        Settles (fun fuel => first.andThen fun left => runTokens dictionary fuel left later) ending :=
  settles_run_ahead later ⟨stack, tokens, ""⟩ ending

end Machine

end Forth

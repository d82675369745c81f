import Forth.Proofs.Runs

/-! Runs compose. Tokens in front of others run to their own end first; the others then run on the stack
that is left, unless the end was a fault or never comes, in which case none of them is executed. -/

namespace Forth

namespace Machine

/-- The tokens taken off the agenda, in order, in at most the given number of steps. -/
def executed (dictionary : Dictionary) : Nat → Machine → List Token
  | 0, _ => []
  | fuel + 1, machine =>
      machine.agenda.take 1 ++
        match machine.step dictionary with
        | .ended _ => []
        | .moved next => executed dictionary fuel next

variable {dictionary : Dictionary}

/-- Tokens that wait behind a machine that never comes to an end without a fault are not executed. -/
theorem executed_ahead (later : List Token) {machine : Machine}
    (neverDone : ∀ ending, Settles (fun fuel => run dictionary fuel machine) ending → ending.fault ≠ none)
    (fuel : Nat) : executed dictionary fuel (machine.ahead later) = executed dictionary fuel machine := by
  induction fuel generalizing machine with
  | zero => rfl
  | succ fuel ih =>
      by_cases nothing : machine.agenda = []
      · have stops : machine.step dictionary = .ended ⟨machine.stack, machine.printed, none⟩ := by
          simp only [step, nothing]
        exact absurd rfl (neverDone _ ((settles_run_of_ended stops _).mpr rfl))
      · have first : (machine.ahead later).agenda.take 1 = machine.agenda.take 1 :=
          List.take_append_of_le_length (List.length_pos_iff.mpr nothing)
        simp only [executed, step_ahead dictionary later machine nothing, first]
        cases moved : machine.step dictionary with
        | ended ended => rfl
        | moved next =>
            have rest := ih fun ending settles => neverDone ending ((settles_run_of_moved moved ending).mpr settles)
            simp only [Step.ahead, rest]

variable (dictionary)

/-- Running one list of tokens in front of another is running the one and then, unless it fails, the
other. -/
theorem sameOutcome_append (stack : Stack) (front back : List Token) :
    SameOutcome (fun fuel => runTokens dictionary fuel stack (front ++ back)) fun fuel =>
      (runTokens dictionary fuel stack front).bind fun first =>
        first.andThen fun left => runTokens dictionary fuel left back := by
  apply SameOutcome.of_settles
  intro ending
  rw [settles_bind (steady_runTokens dictionary stack front) fun first =>
    first.steady_andThen fun left => steady_runTokens dictionary left back]
  exact settles_runTokens_append stack front back ending

/-- A word that is written in terms of others gives way to its body, in front of what is pending. -/
theorem sameOutcome_body {name : Token} {word : Word} {body : List Token}
    (noNumeral : Number.ofNumeral? name = none) (found : dictionary.find? name = some word)
    (isCompiled : word.action = .compiled body) (stack : Stack) (back : List Token) :
    SameOutcome (fun fuel => runTokens dictionary fuel stack (name :: back)) fun fuel =>
      runTokens dictionary fuel stack (body ++ back) := by
  have moves : step dictionary ⟨stack, name :: back, ""⟩ = .moved ⟨stack, body ++ back, ""⟩ := by
    simp only [step, executeToken, noNumeral, found, act, isCompiled, Agenda.pushBody]
  exact SameOutcome.of_settles (settles_run_of_moved moves)

end Machine

open Machine

/-- The tokens in front run as if nothing was behind them. If they end well those behind run on the stack
that is left, and what both print is put together; if they fail the run ends right there, and no token
behind them is executed; if they diverge so does the whole. In particular a word with a body runs it to
its end before what is pending goes on. -/
theorem runs_compose (dictionary : Dictionary) (stack : Stack) (front back : List Token) :
    SameOutcome (fun fuel => runTokens dictionary fuel stack (front ++ back)) (fun fuel =>
      (runTokens dictionary fuel stack front).bind fun first =>
        first.andThen fun left => runTokens dictionary fuel left back) ∧
    (∀ first fault, Settles (fun fuel => runTokens dictionary fuel stack front) first →
      first.fault = some fault →
        Settles (fun fuel => runTokens dictionary fuel stack (front ++ back)) first ∧
        ∀ fuel, executed dictionary fuel ⟨stack, front ++ back, ""⟩ = executed dictionary fuel ⟨stack, front, ""⟩) ∧
    (Diverges (fun fuel => runTokens dictionary fuel stack front) →
      Diverges fun fuel => runTokens dictionary fuel stack (front ++ back)) ∧
    ∀ name word body, Number.ofNumeral? name = none → dictionary.find? name = some word →
      word.action = .compiled body →
        SameOutcome (fun fuel => runTokens dictionary fuel stack (name :: back)) fun fuel =>
          (runTokens dictionary fuel stack body).bind fun first =>
            first.andThen fun left => runTokens dictionary fuel left back := by
  have composes := sameOutcome_append dictionary stack front back
  refine ⟨composes, ?_, ?_, ?_⟩
  · intro first fault settles failed
    have stays : Settles (fun fuel => (runTokens dictionary fuel stack front).bind fun first =>
        first.andThen fun left => runTokens dictionary fuel left back) first := by
      obtain ⟨fuel, reached⟩ := settles
      exact ⟨fuel, by simp only [reached, Option.bind_some, Ending.andThen_fault failed]⟩
    have neverDone : ∀ ending, Settles (fun fuel => run dictionary fuel ⟨stack, front, ""⟩) ending →
        ending.fault ≠ none := by
      intro ending settlesEnding succeeded
      rw [(steady_runTokens dictionary stack front).unique settlesEnding settles, failed] at succeeded
      cases succeeded
    exact ⟨(composes.settles_iff first).mpr stays, executed_ahead back neverDone⟩
  · intro diverges
    refine composes.diverges_iff.mpr ?_
    intro fuel
    have never : runTokens dictionary fuel stack front = none := diverges fuel
    simp only [never, Option.bind_none]
  · intro name word body noNumeral found isCompiled
    exact (sameOutcome_body dictionary noNumeral found isCompiled stack back).trans
      (sameOutcome_append dictionary stack body back)

/-- A word whose body fails in the middle: neither the rest of the body nor what is pending is executed. -/
theorem runs_compose_failing :
    let dictionary := Dictionary.empty.insert (.defined "stop" (.compiled ["1", "nonsense", "2"]))
    let ending : Ending := ⟨[.number 1], "", some (.unknownWord "nonsense")⟩
    Settles (fun fuel => runTokens dictionary fuel [] ["stop"]) ending ∧
    Settles (fun fuel => runTokens dictionary fuel [] ["stop", "3"]) ending ∧
    executed dictionary 9 ⟨[], ["stop", "3"], ""⟩ = ["stop", "1", "nonsense"] := by
  intro dictionary ending
  have settles : Settles (fun fuel => runTokens dictionary fuel [] ["stop"]) ending := ⟨9, by decide +kernel⟩
  have taken : executed dictionary 9 ⟨[], ["stop"], ""⟩ = ["stop", "1", "nonsense"] := by decide +kernel
  obtain ⟨stays, sameTokens⟩ := (runs_compose dictionary [] ["stop"] ["3"]).2.1 ending _ settles rfl
  exact ⟨settles, stays, (sameTokens 9).trans taken⟩

end Forth

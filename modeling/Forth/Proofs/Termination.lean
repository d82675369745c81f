import Forth.Interpreter
import Forth.Proofs.Installation
import Forth.Proofs.Unfolding

/-! Programs without recursion come to an end. If the words that are written in terms of others can be
ranked so that each calls only words of smaller rank among them, then every body runs to an end on every
stack of numbers: by induction on the rank, all its tokens do, one after the other. -/

namespace Forth

namespace Dictionary

/-- Whenever a body of a word calls another word with bodies, the other has a smaller rank. -/
def Descends (dictionary : Dictionary) (rank : Token → Nat) : Prop :=
  ∀ name word body token called, dictionary.find? name = some word → body ∈ word.action.bodies → token ∈ body →
    Number.ofNumeral? token = none → dictionary.find? token = some called → called.action.bodies ≠ [] →
      rank token < rank name

/-- On every stack of numbers the tokens run to an end. -/
def Ends (dictionary : Dictionary) (tokens : List Token) : Prop :=
  ∀ stack : Stack, stack.Numeric →
    ∃ ending, Settles (fun fuel => Machine.runTokens dictionary fuel stack tokens) ending

variable {dictionary : Dictionary} {token : Token} {tokens : List Token}

theorem Ends.nil : dictionary.Ends [] :=
  fun stack _ => ⟨⟨stack, "", none⟩, 1, rfl⟩

/-- Tokens that end also do so after something else, whether or not that was a fault. -/
theorem Ends.andThen (ends : dictionary.Ends tokens) (first : Ending) (numeric : first.stack.Numeric) :
    ∃ ending, Settles (fun fuel => first.andThen fun left => Machine.runTokens dictionary fuel left tokens)
      ending := by
  cases outcome : first.fault with
  | some fault =>
      simp only [Ending.andThen_fault outcome]
      exact ⟨first, 0, rfl⟩
  | none =>
      simp only [Ending.andThen_ok outcome]
      obtain ⟨ending, settles⟩ := ends first.stack numeric
      exact ⟨_, (settles_map _ _ _).mpr ⟨ending, settles, rfl⟩⟩

/-- After a token that ends the others start on a stack of numbers again. -/
theorem Ends.cons (first : dictionary.Ends [token]) (rest : dictionary.Ends tokens) :
    dictionary.Ends (token :: tokens) := by
  intro stack numeric
  obtain ⟨middle, settlesFirst⟩ := first stack numeric
  have kept : middle.stack.Numeric := by
    obtain ⟨_, reached⟩ := settlesFirst
    exact Machine.run_numeric numeric reached
  obtain ⟨ending, settlesRest⟩ := rest.andThen middle kept
  exact ⟨ending, (Machine.settles_runTokens_append stack [token] tokens ending).mpr
    ⟨middle, settlesFirst, settlesRest⟩⟩

theorem Ends.of_tokens (each : ∀ token ∈ tokens, dictionary.Ends [token]) : dictionary.Ends tokens := by
  induction tokens with
  | nil => exact .nil
  | cons token tokens ih =>
      have first := each token (List.mem_cons_self ..)
      exact first.cons (ih fun other member => each other (List.mem_cons_of_mem token member))

/-- A token ends if all that it unfolds to does. -/
theorem Ends.of_unfolds (unfoldings : ∀ front, dictionary.Unfolds token front → dictionary.Ends front) :
    dictionary.Ends [token] := by
  intro stack numeric
  cases moved : Machine.step dictionary ⟨stack, [token], ""⟩ with
  | ended ended => exact ⟨ended, (Machine.settles_run_of_ended moved ended).mpr rfl⟩
  | moved next =>
      obtain ⟨_, agenda, front, pending, unfolds, reached⟩ := Machine.step_unfolds numeric moved
      cases pending
      rw [List.append_nil] at reached
      obtain ⟨nextStack, nextAgenda, printed⟩ := next
      subst reached
      obtain ⟨ending, settles⟩ :=
        (unfoldings _ unfolds).andThen ⟨nextStack, printed, none⟩ (Machine.moved_numeric numeric moved)
      simp only [← Machine.run_eq_andThen] at settles
      exact ⟨ending, (Machine.settles_run_of_moved moved ending).mpr settles⟩

theorem Ends.of_numeral (isNumeral : Number.ofNumeral? token ≠ none) : dictionary.Ends [token] := by
  apply Ends.of_unfolds
  intro front unfolds
  cases unfolds with
  | nothing => exact .nil
  | choice noNumeral _ => exact absurd noNumeral isNumeral
  | body noNumeral _ _ => exact absurd noNumeral isNumeral

/-- Only the bodies of a word can keep it from ending. -/
theorem Ends.of_bodies (bodies : ∀ word body, Number.ofNumeral? token = none → dictionary.find? token = some word →
    body ∈ word.action.bodies → dictionary.Ends body) : dictionary.Ends [token] := by
  apply Ends.of_unfolds
  intro front unfolds
  cases unfolds with
  | nothing => exact .nil
  | choice _ isNumeral => exact .of_numeral isNumeral
  | body noNumeral found member => exact bodies _ front noNumeral found member

theorem Descends.ends_body {rank : Token → Nat} (descends : dictionary.Descends rank) {name : Token} {word : Word}
    {body : List Token} (found : dictionary.find? name = some word) (member : body ∈ word.action.bodies) :
    dictionary.Ends body := by
  -- Along a chain of calls the rank goes down, so the chain has an end.
  induction size : rank name using Nat.strongRecOn generalizing name word body with
  | ind _ ih =>
      apply Ends.of_tokens
      intro token inBody
      apply Ends.of_bodies
      intro called calledBody noNumeral foundCalled memberCalled
      have smaller := descends name word body token called found member inBody noNumeral foundCalled
        (List.ne_nil_of_mem memberCalled)
      exact ih (rank token) (size ▸ smaller) foundCalled memberCalled rfl

theorem Descends.ends {rank : Token → Nat} (descends : dictionary.Descends rank) (tokens : List Token) :
    dictionary.Ends tokens := by
  apply Ends.of_tokens
  intro token _
  apply Ends.of_bodies
  intro word body _ found member
  exact descends.ends_body found member

end Dictionary

/-- If the words of a dictionary can be ranked so that they only call words of smaller rank, every run on
a stack of numbers ends after finitely many steps: it comes to a machine with nothing pending, or to one
that fails. -/
theorem runs_without_recursion_end (dictionary : Dictionary) {rank : Token → Nat}
    (descends : dictionary.Descends rank) (stack : Stack) (numeric : stack.Numeric) (tokens : List Token) :
    ∃ ending last, Settles (fun fuel => Machine.runTokens dictionary fuel stack tokens) ending ∧
      Machine.Reaches dictionary ⟨stack, tokens, ""⟩ last ∧ last.step dictionary = .ended ending ∧
      (last.agenda = [] ∨ ∃ fault, ending.fault = some fault) := by
  obtain ⟨ending, settles⟩ := descends.ends tokens stack numeric
  obtain ⟨last, reaches, ends, drained⟩ := Machine.reaches_last settles
  exact ⟨ending, last, settles, reaches, ends, drained⟩

/-- With the words that come with the language only one word calls another that has a body. -/
theorem runs_without_recursion_end_standard :
    let dictionary := Interpreter.standard.dictionary
    let tokens := ["fib-10", "0", "choose", "square"]
    dictionary.Descends (fun token => if token = "fib-10" then 1 else 0) ∧
    Stack.Numeric [.number 7] ∧
    ∃ ending last, Settles (fun fuel => Machine.runTokens dictionary fuel [.number 7] tokens) ending ∧
      Machine.Reaches dictionary ⟨[.number 7], tokens, ""⟩ last ∧ last.step dictionary = .ended ending ∧
      (last.agenda = [] ∨ ∃ fault, ending.fault = some fault) := by
  intro dictionary tokens
  let words := Vocabulary.base ++ Vocabulary.printing ++ Vocabulary.prelude
  have listed : ∀ word ∈ words, ∀ body ∈ word.action.bodies, ∀ called ∈ words, called.name ∈ body →
      called.action.bodies ≠ [] →
        (if called.name = "fib-10" then 1 else 0) < if word.name = "fib-10" then 1 else 0 := by
    decide +kernel
  have descends : dictionary.Descends fun token => if token = "fib-10" then 1 else 0 := by
    intro name word body token called found member inBody _ foundCalled hasBodies
    obtain ⟨isWord, rfl⟩ := Dictionary.mem_of_find?_insertAll found
    obtain ⟨isCalled, rfl⟩ := Dictionary.mem_of_find?_insertAll foundCalled
    exact listed word isWord body member called isCalled inBody hasBodies
  have numeric : Stack.Numeric [.number 7] := by decide
  exact ⟨descends, numeric, runs_without_recursion_end dictionary descends [.number 7] numeric tokens⟩

end Forth

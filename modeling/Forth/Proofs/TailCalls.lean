import Forth.Interpreter
import Forth.Proofs.Installation
import Forth.Proofs.Unfolding

/-! Tail calls do not pile up. Where only the last token of a body may call a word as deep as the body's
own, and every other token calls shallower ones, the number of pending tokens stays below a bound that
depends on the rank of the first token and on the longest body, however long the run goes on. -/

namespace Forth

/-- Numerals are of rank zero. In a body the last token has at most the rank of its word and the others
have smaller ones, and no body is longer than the given length. -/
structure Dictionary.TailRanked (dictionary : Dictionary) (rank : Token → Nat) (longest : Nat) : Prop where
  numeral : ∀ token, Number.ofNumeral? token ≠ none → rank token = 0
  inner : ∀ name word body, dictionary.find? name = some word → body ∈ word.action.bodies →
    ∀ token ∈ body.dropLast, rank token < rank name
  last : ∀ name word body, dictionary.find? name = some word → body ∈ word.action.bodies →
    ∀ token ∈ body.getLast?, rank token ≤ rank name
  short : ∀ name word body, dictionary.find? name = some word → body ∈ word.action.bodies → body.length ≤ longest

/-- There is room for the agenda if there is for each of its tokens when its turn comes: a place for the
token, one for each token behind it and, for every rank it has, those of a longest body besides one. -/
def Agenda.Fits (rank : Token → Nat) (longest bound : Nat) : Agenda → Prop
  | [] => True
  | token :: agenda => 1 + rank token * (longest - 1) + agenda.length ≤ bound ∧ Fits rank longest bound agenda

namespace Agenda.Fits

variable {rank : Token → Nat} {longest bound : Nat} {agenda : Agenda}

theorem length_le (fits : Fits rank longest bound agenda) : agenda.length ≤ bound := by
  cases agenda with
  | nil => exact Nat.zero_le bound
  | cons token agenda =>
      have room := fits.1
      rw [List.length_cons]
      omega

/-- A body fits where its word did. The tokens before the last are of smaller rank, which makes up for
those of the body that wait behind them. -/
theorem body_append {body : List Token} {depth : Nat} (inner : ∀ token ∈ body.dropLast, rank token < depth)
    (last : ∀ token ∈ body.getLast?, rank token ≤ depth) (short : body.length ≤ longest)
    (room : 1 + depth * (longest - 1) + agenda.length ≤ bound) (fits : Fits rank longest bound agenda) :
    Fits rank longest bound (body ++ agenda) := by
  induction body with
  | nil => exact fits
  | cons token body ih =>
      cases body with
      | nil =>
          have atMost := Nat.mul_le_mul_right (longest - 1) (last token rfl)
          rw [List.singleton_append]
          exact ⟨by omega, fits⟩
      | cons second body =>
          -- One rank less frees as many places as the rest of the body can take.
          have smaller := Nat.mul_le_mul_right (longest - 1) (inner token (List.mem_cons_self ..))
          rw [Nat.succ_mul] at smaller
          rw [List.cons_append]
          refine ⟨?_, ih ?_ last ?_⟩
          · rw [List.length_append]
            rw [List.length_cons] at short
            omega
          · intro other member
            exact inner other (List.mem_cons_of_mem token member)
          · exact Nat.le_of_succ_le short

end Agenda.Fits

namespace Machine

variable {dictionary : Dictionary} {rank : Token → Nat} {longest bound : Nat} {machine next : Machine}

/-- One step: what the first token unfolds to fits in its place. -/
theorem step_fits (ranked : dictionary.TailRanked rank longest) (numeric : machine.stack.Numeric)
    (fits : machine.agenda.Fits rank longest bound) (moves : machine.step dictionary = .moved next) :
    next.agenda.Fits rank longest bound := by
  obtain ⟨token, agenda, front, pending, unfolds, reached⟩ := step_unfolds numeric moves
  rw [pending] at fits
  rw [reached]
  obtain ⟨room, fitsRest⟩ := fits
  cases unfolds with
  | nothing => exact fitsRest
  | choice noNumeral isNumeral =>
      rw [List.singleton_append]
      refine ⟨?_, fitsRest⟩
      rw [ranked.numeral _ isNumeral]
      omega
  | body noNumeral found member =>
      exact Agenda.Fits.body_append (ranked.inner token _ front found member) (ranked.last token _ front found member)
        (ranked.short token _ front found member) room fitsRest

/-- Whole runs: whatever is pending at any time fits. -/
theorem Reaches.fits (ranked : dictionary.TailRanked rank longest) (reaches : Reaches dictionary machine next)
    (numeric : machine.stack.Numeric) (fits : machine.agenda.Fits rank longest bound) :
    next.agenda.Fits rank longest bound := by
  induction reaches with
  | start => exact fits
  | step earlier moves ih => exact step_fits ranked (earlier.numeric numeric) ih moves

end Machine

/-- At every point of a run that starts with one token, however many steps it takes and even if it never
ends, the number of pending tokens is within the same bound. -/
theorem tail_calls_do_not_pile_up {dictionary : Dictionary} {rank : Token → Nat} {longest : Nat}
    (ranked : dictionary.TailRanked rank longest) {stack : Stack} (numeric : stack.Numeric) (token : Token)
    {machine : Machine} (reaches : Machine.Reaches dictionary ⟨stack, [token], ""⟩ machine) :
    machine.agenda.length ≤ 1 + rank token * (longest - 1) := by
  have alone : Agenda.Fits rank longest (1 + rank token * (longest - 1)) [token] := ⟨Nat.le_refl _, trivial⟩
  exact (reaches.fits ranked numeric alone).length_le

/-- A word that calls itself from inside a branch. When the branch has been picked, as many tokens are
pending as the bound allows. -/
theorem tail_calls_do_not_pile_up_countdown :
    let words := Vocabulary.base ++ [.defined "countdown" (.compiled ["0", "==", "<if-0>"]),
      .defined "<if-0>" (.conditional ["drop", "drop"] ["drop", "1", "flip", "-", "countdown"])]
    let dictionary := Dictionary.empty.insertAll words
    let rank : Token → Nat := fun token => if token = "countdown" ∨ token = "<if-0>" then 1 else 0
    let machine : Machine :=
      ⟨[.number 0, .number 3, .number 8], ["drop", "1", "flip", "-", "countdown"], ""⟩
    dictionary.TailRanked rank 5 ∧ Stack.Numeric [.number 3, .number 8] ∧
    Machine.Reaches dictionary ⟨[.number 3, .number 8], ["countdown"], ""⟩ machine ∧
    machine.agenda.length ≤ 1 + rank "countdown" * (5 - 1) ∧ 1 + rank "countdown" * (5 - 1) = 5 := by
  intro words dictionary rank machine
  have listed : ∀ word ∈ words, ∀ body ∈ word.action.bodies,
      (∀ token ∈ body.dropLast, rank token < rank word.name) ∧
      (∀ token ∈ body.getLast?, rank token ≤ rank word.name) ∧ body.length ≤ 5 := by
    decide +kernel
  have ranked : dictionary.TailRanked rank 5 := by
    refine ⟨?_, ?_, ?_, ?_⟩
    · intro token isNumeral
      refine if_neg ?_
      rintro (rfl | rfl) <;> exact isNumeral (by decide)
    all_goals
      intro name word body found member
      obtain ⟨isWord, rfl⟩ := Dictionary.mem_of_find?_insertAll found
    · exact (listed word isWord body member).1
    · exact (listed word isWord body member).2.1
    · exact (listed word isWord body member).2.2
  have numeric : Stack.Numeric [.number 3, .number 8] := by decide
  have reaches : Machine.Reaches dictionary ⟨[.number 3, .number 8], ["countdown"], ""⟩ machine := by
    have called : Machine.step dictionary ⟨[.number 3, .number 8], ["countdown"], ""⟩ =
        .moved ⟨[.number 3, .number 8], ["0", "==", "<if-0>"], ""⟩ := by decide +kernel
    have compared : Machine.step dictionary ⟨[.number 3, .number 8], ["0", "==", "<if-0>"], ""⟩ =
        .moved ⟨[.number 0, .number 3, .number 8], ["==", "<if-0>"], ""⟩ := by decide +kernel
    have differs : Machine.step dictionary ⟨[.number 0, .number 3, .number 8], ["==", "<if-0>"], ""⟩ =
        .moved ⟨[.number 1, .number 0, .number 3, .number 8], ["<if-0>"], ""⟩ := by decide +kernel
    have picked : Machine.step dictionary ⟨[.number 1, .number 0, .number 3, .number 8], ["<if-0>"], ""⟩ =
        .moved machine := by decide +kernel
    exact (((Machine.Reaches.start.step called).step compared).step differs).step picked
  exact ⟨ranked, numeric, reaches, tail_calls_do_not_pile_up ranked numeric "countdown" reaches, by decide⟩

end Forth

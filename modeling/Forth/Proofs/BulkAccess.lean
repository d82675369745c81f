import Forth.Proofs.Contracts

/-! Taking values off the stack in bulk. A column of values that is stored bottom first can be cut at the
right place, read backwards, or emptied value by value from its end. Each way begins with a look at the depth,
so the place of the cut is never before the bottom, and all three come to the same values in the same order. -/

namespace Forth

/-- The values in the order in which they were put there. -/
def Stack.column (stack : Stack) : List Value := stack.reverse

namespace Work

/-- Fails if there are fewer values than that. -/
def require (count : Nat) : Work Unit := takeFrom fun stack => (stack.require count).map fun _ => ((), stack)

/-- Takes the last value of the column off, or hands out the empty value if there is none. -/
def pop : Work Value := takeFrom fun stack => .ok stack.pop

/-- Cuts the column the given number of values before its end. What is cut off is turned over. -/
def cut (count : Nat) : Work (List Value) := do
  let column := (← get).stack.column
  let place := column.length - count
  modify fun machine => { machine with stack := (column.take place).reverse }
  return (column.drop place).reverse

/-- Reads the column backwards. -/
def look (count : Nat) : Work (List Value) := do
  let column := (← get).stack.column
  return column.reverse.take count

/-- Takes values off one at a time, top first. What has been taken when there are no more is lost. -/
def popEach : Nat → Work (List Value)
  | 0 => return []
  | count + 1 => do
      let value ← popValue
      let values ← popEach count
      return value :: values

section Outcomes

variable {α β : Type} {machine left : Machine} {count : Nat} {fault : Fault}

theorem run_bind_error {first : Work α} (failed : first.run machine = .error fault left) (next : α → Work β) :
    (first >>= next).run machine = .error fault left := by
  change EStateM.bind first next machine = _
  rw [EStateM.bind, show first machine = .error fault left from failed]

theorem run_takeFrom_ok {find : Stack → Except Fault (α × Stack)} {found : α} {rest : Stack}
    (finds : find machine.stack = .ok (found, rest)) :
    (takeFrom find).run machine = .ok found { machine with stack := rest } := by
  have looked : (get : Work Machine).run machine = .ok machine machine := rfl
  rw [takeFrom, run_bind_ok looked, finds]
  rfl

theorem run_takeFrom_error {find : Stack → Except Fault (α × Stack)} (fails : find machine.stack = .error fault) :
    (takeFrom find).run machine = .error fault machine := by
  have looked : (get : Work Machine).run machine = .ok machine machine := rfl
  rw [takeFrom, run_bind_ok looked, fails]
  rfl

theorem run_require_ok (enough : count ≤ machine.stack.length) : (require count).run machine = .ok () machine := by
  apply run_takeFrom_ok
  rw [Stack.require, if_neg (Nat.not_lt.mpr enough)]
  rfl

theorem run_require_error (few : machine.stack.length < count) :
    (require count).run machine = .error (.underflow count machine.stack.length) machine := by
  apply run_takeFrom_error
  rw [Stack.require, if_pos few]
  rfl

/-- Where the place is not before the bottom, the part behind it turned over is the top of the stack. -/
theorem run_cut (enough : count ≤ machine.stack.length) :
    (cut count).run machine =
      .ok (machine.stack.take count) { machine with stack := machine.stack.drop count } := by
  have behind : machine.stack.column.length - (machine.stack.column.length - count) = count := by
    rw [Stack.column, List.length_reverse]
    omega
  have beneath : (machine.stack.column.take (machine.stack.column.length - count)).reverse =
      machine.stack.drop count := by
    rw [List.reverse_take, behind, Stack.column, List.reverse_reverse]
  have taken : (machine.stack.column.drop (machine.stack.column.length - count)).reverse =
      machine.stack.take count := by
    rw [List.reverse_drop, behind, Stack.column, List.reverse_reverse]
  rw [← beneath, ← taken]
  rfl

theorem run_look (count : Nat) (machine : Machine) :
    (look count).run machine = .ok (machine.stack.take count) machine := by
  have seen : (look count).run machine = .ok (machine.stack.column.reverse.take count) machine := rfl
  rw [seen, Stack.column, List.reverse_reverse]

/-- Single pops, as long as there is a value for each. -/
theorem run_popEach (enough : count ≤ machine.stack.length) :
    (popEach count).run machine =
      .ok (machine.stack.take count) { machine with stack := machine.stack.drop count } := by
  induction count generalizing machine with
  | zero => rfl
  | succ count ih =>
      obtain ⟨_ | ⟨top, rest⟩, agenda, printed⟩ := machine
      · exact absurd enough (Nat.not_succ_le_zero count)
      · have popped : popValue.run ⟨top :: rest, agenda, printed⟩ = .ok top ⟨rest, agenda, printed⟩ := rfl
        have others := @ih ⟨rest, agenda, printed⟩ (Nat.le_of_succ_le_succ enough)
        rw [popEach, run_bind_ok popped, run_bind_ok others]
        rfl

theorem run_forM_push (values : List Value) (machine : Machine) :
    (values.forM push).run machine = .ok () { machine with stack := values.reverse ++ machine.stack } := by
  induction values generalizing machine with
  | nil => rfl
  | cons value values ih =>
      have first : (push value).run machine = .ok () { machine with stack := value :: machine.stack } := rfl
      rw [List.forM_eq_forM, List.forM_cons, run_bind_ok first, ← List.forM_eq_forM, ih]
      simp only [List.reverse_cons, List.append_assoc, List.cons_append, List.nil_append]

end Outcomes

section Steps

variable {α : Type} {machine : Machine} {count : Nat}

/-- Access after a look at the depth fails for want of values only, and before anything was touched. -/
theorem require_error_iff {access : Work α} {found : α} {left : Machine}
    (succeeds : count ≤ machine.stack.length → access.run machine = .ok found left) (fault : Fault)
    (last : Machine) :
    (do require count; access).run machine = .error fault last ↔
      machine.stack.length < count ∧ fault = .underflow count machine.stack.length ∧ last = machine := by
  by_cases few : machine.stack.length < count
  · rw [run_bind_error (run_require_error few)]
    simp only [EStateM.Result.error.injEq, few, true_and, eq_comm]
  · have enough := Nat.not_lt.mp few
    rw [run_bind_ok (run_require_ok enough), succeeds enough]
    simp only [few, false_and, reduceCtorEq]

theorem popValue_steps : popValue = (do require 1; pop) := by
  funext machine
  obtain ⟨_ | ⟨top, rest⟩, agenda, printed⟩ := machine <;> rfl

theorem popMany_steps (count : Nat) : popMany count = (do require count; cut count) := by
  funext machine
  change (popMany count).run machine = (do require count; cut count).run machine
  by_cases few : machine.stack.length < count
  · rw [run_bind_error (run_require_error few)]
    exact run_takeFrom_error (if_pos few)
  · rw [run_bind_ok (run_require_ok (Nat.not_lt.mp few)), run_cut (Nat.not_lt.mp few)]
    exact run_takeFrom_ok (if_neg few)

theorem peekMany_steps (count : Nat) : peekMany count = (do require count; look count) := by
  funext machine
  change (peekMany count).run machine = (do require count; look count).run machine
  by_cases few : machine.stack.length < count
  · rw [run_bind_error (run_require_error few)]
    apply run_takeFrom_error
    rw [Stack.peekMany, if_pos few]
    rfl
  · rw [run_bind_ok (run_require_ok (Nat.not_lt.mp few)), run_look]
    apply run_takeFrom_ok
    rw [Stack.peekMany, if_neg few]
    rfl

theorem run_popMany_ok (enough : count ≤ machine.stack.length) :
    (popMany count).run machine =
      .ok (machine.stack.take count) { machine with stack := machine.stack.drop count } := by
  rw [popMany_steps, run_bind_ok (run_require_ok enough), run_cut enough]

theorem popMany_error_iff (fault : Fault) (left : Machine) :
    (popMany count).run machine = .error fault left ↔
      machine.stack.length < count ∧ fault = .underflow count machine.stack.length ∧ left = machine := by
  rw [popMany_steps]
  exact require_error_iff run_cut fault left

theorem run_peekMany_ok (enough : count ≤ machine.stack.length) :
    (peekMany count).run machine = .ok (machine.stack.take count) machine := by
  rw [peekMany_steps, run_bind_ok (run_require_ok enough), run_look]

theorem peekMany_error_iff (fault : Fault) (left : Machine) :
    (peekMany count).run machine = .error fault left ↔
      machine.stack.length < count ∧ fault = .underflow count machine.stack.length ∧ left = machine := by
  rw [peekMany_steps]
  exact require_error_iff (fun _ => run_look count machine) fault left

/-- Values taken in two lots. -/
def popTwice (first second : Nat) : Work (List Value) := do
  let front ← popMany first
  let back ← popMany second
  return front ++ back

theorem run_popTwice_ok {first second : Nat} (enough : first + second ≤ machine.stack.length) :
    (popTwice first second).run machine = (popMany (first + second)).run machine := by
  have front := run_popMany_ok (Nat.le_trans (Nat.le_add_right first second) enough)
  have back : (popMany second).run { machine with stack := machine.stack.drop first } =
      .ok ((machine.stack.drop first).take second)
        { machine with stack := (machine.stack.drop first).drop second } := by
    apply run_popMany_ok
    rw [List.length_drop]
    omega
  rw [popTwice, run_bind_ok front, run_bind_ok back, run_popMany_ok enough, List.take_add, ← List.drop_drop]
  rfl

theorem run_popTwice_error {first second : Nat} (few : machine.stack.length < first + second) :
    ∃ fault left, (popTwice first second).run machine = .error fault left := by
  by_cases fewFirst : machine.stack.length < first
  · have failed := (popMany_error_iff _ _).mpr ⟨fewFirst, rfl, rfl⟩
    exact ⟨_, _, run_bind_error failed _⟩
  · have front := run_popMany_ok (Nat.not_lt.mp fewFirst)
    have fewSecond : (machine.stack.drop first).length < second := by
      rw [List.length_drop]
      omega
    have failed := (@popMany_error_iff { machine with stack := machine.stack.drop first } second _ _).mpr
      ⟨fewSecond, rfl, rfl⟩
    rw [popTwice, run_bind_ok front]
    exact ⟨_, _, run_bind_error failed _⟩

/-- Two lots make up one, and if there are too few values for the one, then also for one of the two. -/
theorem popTwice_ok_iff (first second : Nat) (values : List Value) (left : Machine) :
    (popMany (first + second)).run machine = .ok values left ↔
      (popTwice first second).run machine = .ok values left := by
  by_cases few : machine.stack.length < first + second
  · have failed := (popMany_error_iff _ _).mpr ⟨few, rfl, rfl⟩
    obtain ⟨fault, last, failedTwice⟩ := run_popTwice_error few
    simp only [failed, failedTwice, reduceCtorEq]
  · rw [run_popTwice_ok (Nat.not_lt.mp few)]

end Steps

end Work

open Work

/-- Access in bulk on any machine, for any count. Taking values and looking at them begin with the same look at
the depth and fail for want of values only, with both counts in the fault and with nothing changed. Otherwise both
hand over the values that single pops take off one after the other, taking leaves what the single pops leave, and
the values can be put back. Two lots taken one after the other are one. -/
theorem bulk_access_agrees_with_single_pops (machine : Machine) (count : Nat) :
    popValue = (do require 1; pop) ∧ popMany count = (do require count; cut count) ∧
    peekMany count = (do require count; look count) ∧
    (∀ fault left, (popMany count).run machine = .error fault left ↔
      machine.stack.length < count ∧ fault = .underflow count machine.stack.length ∧ left = machine) ∧
    (∀ fault left, (peekMany count).run machine = .error fault left ↔
      machine.stack.length < count ∧ fault = .underflow count machine.stack.length ∧ left = machine) ∧
    (count ≤ machine.stack.length → ∃ values left,
      (popMany count).run machine = .ok values left ∧ (peekMany count).run machine = .ok values machine ∧
      (popEach count).run machine = .ok values left ∧ values.length = count ∧
      left.stack.length + count = machine.stack.length ∧ (values.reverse.forM push).run left = .ok () machine) ∧
    ∀ more values left, (popMany (count + more)).run machine = .ok values left ↔
      (popTwice count more).run machine = .ok values left := by
  refine ⟨popValue_steps, popMany_steps count, peekMany_steps count, popMany_error_iff, peekMany_error_iff, ?_,
    popTwice_ok_iff count⟩
  intro enough
  refine ⟨_, _, run_popMany_ok enough, run_peekMany_ok enough, run_popEach enough,
    List.length_take_of_le enough, ?_, ?_⟩
  · rw [List.length_drop]
    omega
  · rw [run_forM_push, List.reverse_reverse, List.take_append_drop]

/-- Three values of four, one of them empty: at once, as two and one, and put back. The greatest count that a word
of memory can hold is refused. -/
theorem bulk_access_agrees_with_single_pops_three :
    let machine : Machine := ⟨[.number 4, .empty, .number 6, .number 7], ["dup"], ""⟩
    3 ≤ machine.stack.length ∧ ∃ left, (popMany 3).run machine = .ok [.number 4, .empty, .number 6] left ∧
      (popEach 3).run machine = .ok [.number 4, .empty, .number 6] left ∧
      (popTwice 2 1).run machine = .ok [.number 4, .empty, .number 6] left ∧
      (List.forM [.number 6, .empty, .number 4] push).run left = .ok () machine ∧
      (popMany 18446744073709551615).run machine = .error (.underflow 18446744073709551615 4) machine := by
  intro machine
  have enough : 3 ≤ machine.stack.length := by decide
  obtain ⟨_, _, _, _, _, succeeds, _⟩ := bulk_access_agrees_with_single_pops machine 3
  obtain ⟨_, _, _, _, _, _, inLots⟩ := bulk_access_agrees_with_single_pops machine 2
  obtain ⟨_, _, _, fails, _⟩ := bulk_access_agrees_with_single_pops machine 18446744073709551615
  obtain ⟨values, left, popped, looked, each, _, _, restored⟩ := succeeds enough
  have seen : (peekMany 3).run machine = .ok [.number 4, .empty, .number 6] machine := rfl
  rw [seen, EStateM.Result.ok.injEq] at looked
  obtain ⟨rfl, _⟩ := looked
  exact ⟨enough, left, popped, each, (inLots 1 _ left).mp popped, restored, (fails _ _).mpr ⟨by decide, rfl, rfl⟩⟩

end Forth

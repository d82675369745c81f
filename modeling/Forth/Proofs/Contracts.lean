import Forth.Proofs.Numerals
import Forth.Proofs.Runs
import Forth.Vocabulary

/-! What the words that come with the language are meant to do, and that they do it. A word is a procedure
on the machine: it reads values off the stack by number, changes the stack, puts a token on the agenda or
prints. What a procedure has changed stays changed when it fails later on, so a word is all or nothing only
because it makes its checks first. -/

namespace Forth

/-- A procedure on the machine. A failure does not take back what was changed before. -/
abbrev Work (α : Type) := EStateM Fault Machine α

namespace Work

/-- Hands over what is found on the stack and leaves the rest of it. -/
def takeFrom {α : Type} (find : Stack → Except Fault (α × Stack)) : Work α := do
  match find (← get).stack with
  | .error fault => throw fault
  | .ok (found, rest) =>
      modify fun machine => { machine with stack := rest }
      return found

def popValue : Work Value := takeFrom Stack.popValue

def popMany (count : Nat) : Work (List Value) := takeFrom fun stack => stack.popMany count

def peekMany (count : Nat) : Work (List Value) :=
  takeFrom fun stack => (stack.peekMany count).map fun values => (values, stack)

def push (value : Value) : Work Unit := modify fun machine => { machine with stack := value :: machine.stack }

def schedule (token : Token) : Work Unit :=
  modify fun machine => { machine with agenda := machine.agenda.push token }

def print (text : String) : Work Unit := modify fun machine => { machine with printed := machine.printed ++ text }

section Sequences

variable {α β : Type} {machine left : Machine}

theorem run_bind_ok {first : Work α} {value : α} (ran : first.run machine = .ok value left) (next : α → Work β) :
    (first >>= next).run machine = (next value).run left := by
  change EStateM.bind first next machine = next value left
  rw [EStateM.bind, show first machine = .ok value left from ran]

end Sequences

/-- Tokens that are scheduled one by one run in the reverse order. -/
theorem run_forM_schedule (tokens : List Token) (machine : Machine) :
    (tokens.forM schedule).run machine =
      .ok () { machine with agenda := machine.agenda.pushBody tokens.reverse } := by
  induction tokens generalizing machine with
  | nil => rfl
  | cons token tokens ih =>
      have first : (schedule token).run machine = .ok () { machine with agenda := token :: machine.agenda } := rfl
      rw [List.forM_eq_forM, List.forM_cons, run_bind_ok first, ← List.forM_eq_forM, ih]
      simp only [Agenda.pushBody, List.reverse_cons, List.append_assoc, List.cons_append, List.nil_append]

end Work

namespace Primitive

open Work

/-- The word step by step. Values that were read together are numbered from the top. -/
def procedure : Primitive → Work Unit
  | .duplicate => do
      let value ← popValue
      push value
      push value
  | .discard => do
      let _ ← popValue
  | .exchange => do
      let values ← popMany 2
      push (values.getD 0 .empty)
      push (values.getD 1 .empty)
  | .rotate => do
      let values ← popMany 3
      push (values.getD 1 .empty)
      push (values.getD 0 .empty)
      push (values.getD 2 .empty)
  | .operation kind => do
      let values ← peekMany 2
      let top := (values.getD 0 .empty).reading
      let below := (values.getD 1 .empty).reading
      match Number.ofInt? (kind.result top.toInt below.toInt) with
      | none =>
          throw (.invalidArgument kind.symbol
            (top.numeral ++ " " ++ kind.symbol ++ " " ++ below.numeral ++ " overflows a 64-bit integer."))
      | some number =>
          let _ ← popMany 2
          push (.number number)
  | .relation kind => do
      let values ← peekMany 2
      let top := (values.getD 0 .empty).reading
      let below := (values.getD 1 .empty).reading
      push (.ofBool (kind.holds top.toInt below.toInt))
  | .choose => do
      let values ← peekMany 3
      let flag := (values.getD 0 .empty).reading
      if flag = 0 then
        let _ ← popMany 3
        Work.schedule (values.getD 2 .empty).text
      else if flag = 1 then
        let _ ← popMany 3
        Work.schedule (values.getD 1 .empty).text
      else
        throw (.invalidArgument "choose" ("flag must be 0 or 1, found " ++ flag.numeral ++ "."))
  | .printTop => do print ((← get).stack.top.text ++ "\n")
  | .printStack => do print (stackLine (← get).stack)
  | .schedule tokens => tokens.forM Work.schedule

end Primitive

/-- What applying a word makes of the machine. -/
def Machine.applied (machine : Machine) : Except Fault Effect → EStateM.Result Fault Machine Unit
  | .error fault => .error fault machine
  | .ok effect => .ok () ⟨effect.stack, machine.agenda.pushBody effect.scheduled, machine.printed ++ effect.printed⟩

theorem Machine.applied_quiet (machine : Machine) (stack : Stack) (scheduled : List Token) :
    machine.applied (.ok ⟨stack, scheduled, ""⟩) =
      .ok () ⟨stack, machine.agenda.pushBody scheduled, machine.printed⟩ := by
  rw [applied, String.append_empty]

namespace Primitive

open Work

theorem procedure_operation (kind : Operation) (machine : Machine) :
    (procedure (.operation kind)).run machine = machine.applied (apply (.operation kind) machine.stack) := by
  obtain ⟨_ | ⟨top, _ | ⟨below, rest⟩⟩, agenda, printed⟩ := machine
  · rfl
  · rfl
  · have looked : (Work.peekMany 2).run ⟨top :: below :: rest, agenda, printed⟩ =
        .ok [top, below] ⟨top :: below :: rest, agenda, printed⟩ := rfl
    rw [procedure, run_bind_ok looked]
    simp only [apply, Operation.apply, List.getD_cons_zero, List.getD_cons_succ]
    cases Number.ofInt? (kind.result top.reading.toInt below.reading.toInt) with
    | none => rfl
    | some number =>
        simp only [Machine.applied_quiet]
        rfl

theorem procedure_choose (machine : Machine) :
    (procedure .choose).run machine = machine.applied (apply .choose machine.stack) := by
  obtain ⟨_ | ⟨flag, _ | ⟨nearer, _ | ⟨deeper, rest⟩⟩⟩, agenda, printed⟩ := machine
  · rfl
  · rfl
  · rfl
  · have looked : (Work.peekMany 3).run ⟨flag :: nearer :: deeper :: rest, agenda, printed⟩ =
        .ok [flag, nearer, deeper] ⟨flag :: nearer :: deeper :: rest, agenda, printed⟩ := rfl
    rw [procedure, run_bind_ok looked]
    simp only [apply, chooseBetween, List.getD_cons_zero, List.getD_cons_succ]
    by_cases zero : flag.reading = 0
    · simp only [if_pos zero, Machine.applied_quiet]
      rfl
    · by_cases one : flag.reading = 1
      · simp only [if_neg zero, if_pos one, Machine.applied_quiet]
        rfl
      · simp only [if_neg zero, if_neg one]
        rfl

/-- Going through the steps of a word comes to the same as applying it at once. So a word that fails has
changed nothing. -/
theorem procedure_eq_applied (primitive : Primitive) (machine : Machine) :
    primitive.procedure.run machine = machine.applied (primitive.apply machine.stack) := by
  cases primitive with
  | operation kind => exact procedure_operation kind machine
  | choose => exact procedure_choose machine
  | printTop => rfl
  | printStack => rfl
  | schedule tokens =>
      rw [procedure, run_forM_schedule]
      simp only [apply, Machine.applied_quiet]
  | duplicate =>
      obtain ⟨_ | ⟨top, rest⟩, agenda, printed⟩ := machine
      · rfl
      · simp only [apply, Machine.applied_quiet]
        rfl
  | discard =>
      obtain ⟨_ | ⟨top, rest⟩, agenda, printed⟩ := machine
      · rfl
      · simp only [apply, Machine.applied_quiet]
        rfl
  | exchange =>
      obtain ⟨_ | ⟨top, _ | ⟨below, rest⟩⟩, agenda, printed⟩ := machine
      · rfl
      · rfl
      · simp only [apply, Machine.applied_quiet]
        rfl
  | rotate =>
      obtain ⟨_ | ⟨top, _ | ⟨middle, _ | ⟨bottom, rest⟩⟩⟩, agenda, printed⟩ := machine
      · rfl
      · rfl
      · rfl
      · simp only [apply, Machine.applied_quiet]
        rfl
  | relation kind =>
      obtain ⟨_ | ⟨top, _ | ⟨below, rest⟩⟩, agenda, printed⟩ := machine
      · rfl
      · rfl
      · simp only [apply, Machine.applied_quiet]
        rfl

end Primitive

/-- The step that a word has made of the machine. A failure ends the run. -/
def Step.ofWork : EStateM.Result Fault Machine Unit → Step
  | .ok _ next => .moved next
  | .error fault left => left.fail fault

theorem Machine.step_primitive {dictionary : Dictionary} {word : Word} {primitive : Primitive}
    (noNumeral : Number.ofNumeral? word.name = none) (found : dictionary.find? word.name = some word)
    (isPrimitive : word.action = .primitive primitive) (machine : Machine) :
    step dictionary { machine with agenda := word.name :: machine.agenda } =
      .ofWork (primitive.procedure.run machine) := by
  simp only [step, executeToken, noNumeral, found, act, isPrimitive, applyPrimitive,
    Primitive.procedure_eq_applied]
  cases primitive.apply machine.stack with
  | error fault => rfl
  | ok effect => rfl

namespace Number

/-- The integers that a word of memory can hold. -/
def Fits (integer : Int) : Prop := -Int.pow 2 63 ≤ integer ∧ integer ≤ Int.pow 2 63 - 1

theorem ofInt?_of_fits {integer : Int} (fits : Fits integer) : ∃ number, ofInt? integer = some number ∧
    number.toInt = integer := by
  have range : -Int.pow 2 63 ≤ integer ∧ integer < Int.pow 2 63 := ⟨fits.1, by have := fits.2; omega⟩
  refine ⟨Int64.ofInt integer, if_pos range, ?_⟩
  exact Int64.toInt_ofInt_of_le range.1 range.2

theorem ofInt?_of_not_fits {integer : Int} (outside : ¬Fits integer) : ofInt? integer = none := by
  apply if_neg
  intro range
  exact outside ⟨range.1, by have := range.2; omega⟩

end Number

/-- The stack with values put on it one after the other, so the last one is on top. -/
def Stack.topped (rest : Stack) (values : List Value) : Stack := values.reverse ++ rest

namespace Contract

/-- How many values a word needs. -/
def needs : List (String × Nat) :=
  [("dup", 1), ("drop", 1), ("flip", 2), ("rotate", 3), ("+", 2), ("-", 2), ("*", 2), (">", 2), (">=", 2), ("<", 2),
    ("<=", 2), ("==", 2), ("!=", 2), ("choose", 3), (".", 0), ("print", 0)]

/-- What the symbols of arithmetic mean, with the top value as the left operand. -/
def calculations : List (String × (Int → Int → Int)) :=
  [("+", fun top below => top + below), ("-", fun top below => top - below), ("*", fun top below => top * below)]

/-- What the symbols of comparison mean, with the top value on the left. -/
def comparisons : List (String × (Int → Int → Prop)) :=
  [(">", fun top below => top > below), (">=", fun top below => top ≥ below), ("<", fun top below => top < below),
    ("<=", fun top below => top ≤ below), ("==", fun top below => top = below), ("!=", fun top below => top ≠ below)]

/-- What a word makes of the machine if it does not fail. -/
inductive Does : String → Machine → Machine → Prop where
  | dup (rest : Stack) (a : Value) (agenda : Agenda) (printed : String) :
      Does "dup" ⟨rest.topped [a], agenda, printed⟩ ⟨rest.topped [a, a], agenda, printed⟩
  | drop (rest : Stack) (a : Value) (agenda : Agenda) (printed : String) :
      Does "drop" ⟨rest.topped [a], agenda, printed⟩ ⟨rest, agenda, printed⟩
  | flip (rest : Stack) (a b : Value) (agenda : Agenda) (printed : String) :
      Does "flip" ⟨rest.topped [a, b], agenda, printed⟩ ⟨rest.topped [b, a], agenda, printed⟩
  | rotate (rest : Stack) (a b c : Value) (agenda : Agenda) (printed : String) :
      Does "rotate" ⟨rest.topped [a, b, c], agenda, printed⟩ ⟨rest.topped [b, c, a], agenda, printed⟩
  | calculate {symbol : String} {calculation : Int → Int → Int} {below top : Value} {number : Number}
      (means : (symbol, calculation) ∈ calculations)
      (exact : number.toInt = calculation top.reading.toInt below.reading.toInt)
      (rest : Stack) (agenda : Agenda) (printed : String) :
      Does symbol ⟨rest.topped [below, top], agenda, printed⟩ ⟨rest.topped [.number number], agenda, printed⟩
  | yes {symbol : String} {comparison : Int → Int → Prop} {below top : Value}
      (means : (symbol, comparison) ∈ comparisons) (holds : comparison top.reading.toInt below.reading.toInt)
      (rest : Stack) (agenda : Agenda) (printed : String) :
      Does symbol ⟨rest.topped [below, top], agenda, printed⟩ ⟨rest.topped [below, top, .number 0], agenda, printed⟩
  | no {symbol : String} {comparison : Int → Int → Prop} {below top : Value}
      (means : (symbol, comparison) ∈ comparisons) (fails : ¬comparison top.reading.toInt below.reading.toInt)
      (rest : Stack) (agenda : Agenda) (printed : String) :
      Does symbol ⟨rest.topped [below, top], agenda, printed⟩ ⟨rest.topped [below, top, .number 1], agenda, printed⟩
  | chooseFirst {flag : Value} (zero : flag.reading = 0) (rest : Stack) (first second : Value) (agenda : Agenda)
      (printed : String) :
      Does "choose" ⟨rest.topped [first, second, flag], agenda, printed⟩ ⟨rest, first.text :: agenda, printed⟩
  | chooseSecond {flag : Value} (one : flag.reading = 1) (rest : Stack) (first second : Value) (agenda : Agenda)
      (printed : String) :
      Does "choose" ⟨rest.topped [first, second, flag], agenda, printed⟩ ⟨rest, second.text :: agenda, printed⟩
  | printTop (stack : Stack) (agenda : Agenda) (printed : String) :
      Does "." ⟨stack, agenda, printed⟩ ⟨stack, agenda, printed ++ (stack.top.text ++ "\n")⟩
  | printStack (stack : Stack) (agenda : Agenda) (printed : String) :
      Does "print" ⟨stack, agenda, printed⟩ ⟨stack, agenda, printed ++ ("H -> " ++ stack.text ++ " <- T\n")⟩

/-- When a word refuses the values that it finds, and what it says then. -/
inductive Refuses : String → Stack → String → Prop where
  | overflow {symbol : String} {calculation : Int → Int → Int} {below top : Value}
      (means : (symbol, calculation) ∈ calculations)
      (outside : ¬Number.Fits (calculation top.reading.toInt below.reading.toInt)) (rest : Stack) :
      Refuses symbol (rest.topped [below, top])
        (top.reading.numeral ++ " " ++ symbol ++ " " ++ below.reading.numeral ++ " overflows a 64-bit integer.")
  | flag {flag : Value} (notZero : flag.reading ≠ 0) (notOne : flag.reading ≠ 1) (rest : Stack)
      (first second : Value) :
      Refuses "choose" (rest.topped [first, second, flag])
        ("flag must be 0 or 1, found " ++ flag.reading.numeral ++ ".")

section Refusals

variable {name message : String} {stack : Stack} {arity : Nat}

theorem Refuses.cases (refuses : Refuses name stack message) :
    (∃ calculation below top rest, (name, calculation) ∈ calculations ∧ stack = top :: below :: rest ∧
      ¬Number.Fits (calculation top.reading.toInt below.reading.toInt) ∧
      message = top.reading.numeral ++ " " ++ name ++ " " ++ below.reading.numeral ++ " overflows a 64-bit integer.") ∨
    ∃ flag second first rest, name = "choose" ∧ stack = flag :: second :: first :: rest ∧ flag.reading ≠ 0 ∧
      flag.reading ≠ 1 ∧ message = "flag must be 0 or 1, found " ++ flag.reading.numeral ++ "." := by
  cases refuses with
  | overflow means outside rest => exact .inl ⟨_, _, _, rest, means, rfl, outside, rfl⟩
  | flag notZero notOne rest first second => exact .inr ⟨_, second, first, rest, rfl, rfl, notZero, notOne, rfl⟩

theorem symbol_mem {calculation : Int → Int → Int} (means : (name, calculation) ∈ calculations) :
    name ∈ ["+", "-", "*"] :=
  List.mem_map_of_mem (f := Prod.fst) means

/-- Only arithmetic and `choose` refuse what they find. -/
theorem Refuses.name_mem (refuses : Refuses name stack message) : name ∈ ["choose", "+", "-", "*"] := by
  rcases refuses.cases with ⟨calculation, _, _, _, means, _⟩ | ⟨_, _, _, _, isChoose, _⟩
  · exact List.mem_cons_of_mem _ (symbol_mem means)
  · exact List.mem_cons.2 (.inl isChoose)

/-- A word that refuses what it finds has found as much as it needs. -/
theorem Refuses.enough (refuses : Refuses name stack message) (listed : (name, arity) ∈ needs) :
    arity ≤ stack.length := by
  rcases refuses.cases with ⟨calculation, below, top, rest, means, rfl, _⟩ | ⟨flag, second, first, rest, rfl, rfl, _⟩
  · have two : arity = 2 := by
      have known := symbol_mem means
      simp only [List.mem_cons, List.not_mem_nil, or_false] at known
      rcases known with rfl | rfl | rfl <;> simpa [needs] using listed
    simp only [two, List.length_cons]
    omega
  · have three : arity = 3 := by simpa [needs] using listed
    simp only [three, List.length_cons]
    omega

theorem refuses_choose_iff (flag second first : Value) (rest : Stack) :
    Refuses "choose" (flag :: second :: first :: rest) message ↔
      flag.reading ≠ 0 ∧ flag.reading ≠ 1 ∧
        message = "flag must be 0 or 1, found " ++ flag.reading.numeral ++ "." := by
  constructor
  · intro refuses
    rcases refuses.cases with ⟨_, _, _, _, means, _⟩ | ⟨_, _, _, _, _, same, notZero, notOne, isMessage⟩
    · exact absurd (symbol_mem means) (by decide)
    · cases same
      exact ⟨notZero, notOne, isMessage⟩
  · rintro ⟨notZero, notOne, rfl⟩
    exact .flag notZero notOne rest first second

end Refusals

/-- The ways in which a word may answer on a machine. -/
inductive Answers (name : String) (arity : Nat) (machine : Machine) : Except Fault Effect → Prop where
  | short (few : machine.stack.length < arity) :
      Answers name arity machine (.error (.underflow arity machine.stack.length))
  | refused (enough : arity ≤ machine.stack.length) (message : String)
      (only : ∀ other, Refuses name machine.stack other ↔ other = message) :
      Answers name arity machine (.error (.invalidArgument name message))
  | done (enough : arity ≤ machine.stack.length) (effect : Effect)
      (accepts : ∀ message, ¬Refuses name machine.stack message)
      (does : Does name machine
        ⟨effect.stack, machine.agenda.pushBody effect.scheduled, machine.printed ++ effect.printed⟩) :
      Answers name arity machine (.ok effect)

end Contract

open Contract

theorem Operation.means (kind : Operation) : (kind.symbol, kind.result) ∈ calculations := by
  cases kind with
  | add => exact .head _
  | subtract => exact .tail _ (.head _)
  | multiply => exact .tail _ (.tail _ (.head _))

theorem Operation.eq_result {kind : Operation} {calculation : Int → Int → Int}
    (means : (kind.symbol, calculation) ∈ calculations) : calculation = kind.result := by
  simp only [calculations, List.mem_cons, Prod.mk.injEq, List.not_mem_nil, or_false] at means
  cases kind <;> simp [symbol] at means <;> exact means

theorem Operation.refuses_iff (kind : Operation) (top below : Value) (rest : Stack) (message : String) :
    Refuses kind.symbol (top :: below :: rest) message ↔
      ¬Number.Fits (kind.result top.reading.toInt below.reading.toInt) ∧
        message = top.reading.numeral ++ " " ++ kind.symbol ++ " " ++ below.reading.numeral ++
          " overflows a 64-bit integer." := by
  constructor
  · intro refuses
    rcases refuses.cases with ⟨_, _, _, _, means, same, outside, isMessage⟩ | ⟨_, _, _, _, isChoose, _⟩
    · cases same
      rw [eq_result means] at outside
      exact ⟨outside, isMessage⟩
    · cases kind <;> simp [symbol] at isChoose
  · rintro ⟨outside, rfl⟩
    exact .overflow kind.means outside rest

theorem Relation.means (kind : Relation) :
    ∃ comparison, (kind.symbol, comparison) ∈ comparisons ∧
      ∀ top below, kind.holds top below = true ↔ comparison top below := by
  cases kind with
  | greater => exact ⟨_, .head _, fun _ _ => decide_eq_true_iff⟩
  | greaterOrEqual => exact ⟨_, .tail _ (.head _), fun _ _ => decide_eq_true_iff⟩
  | less => exact ⟨_, .tail _ (.tail _ (.head _)), fun _ _ => decide_eq_true_iff⟩
  | lessOrEqual => exact ⟨_, .tail _ (.tail _ (.tail _ (.head _))), fun _ _ => decide_eq_true_iff⟩
  | equal => exact ⟨_, .tail _ (.tail _ (.tail _ (.tail _ (.head _)))), fun _ _ => decide_eq_true_iff⟩
  | different => exact ⟨_, .tail _ (.tail _ (.tail _ (.tail _ (.tail _ (.head _))))), fun _ _ => decide_eq_true_iff⟩

namespace Primitive

/-- What is promised about a word that goes by a name and needs a number of values. -/
structure Honours (primitive : Primitive) (name : String) (arity : Nat) (machine : Machine) : Prop where
  underflow : ∀ needed available left,
    primitive.procedure.run machine = .error (.underflow needed available) left ↔
      machine.stack.length < arity ∧ needed = arity ∧ available = machine.stack.length ∧ left = machine
  refusal : ∀ culprit message left,
    primitive.procedure.run machine = .error (.invalidArgument culprit message) left ↔
      Refuses name machine.stack message ∧ culprit = name ∧ left = machine
  faults : ∀ fault left, primitive.procedure.run machine = .error fault left →
    (∃ needed available, fault = .underflow needed available) ∨
      ∃ culprit message, fault = .invalidArgument culprit message
  success : ∀ next, primitive.procedure.run machine = .ok () next → Does name machine next

section Promises

variable {primitive : Primitive} {name : String} {arity : Nat} {machine : Machine}

theorem Honours.of_answers (listed : (name, arity) ∈ needs)
    (answers : Answers name arity machine (primitive.apply machine.stack)) : primitive.Honours name arity machine := by
  have ran := primitive.procedure_eq_applied machine
  generalize primitive.apply machine.stack = answer at answers ran
  unfold Machine.applied at ran
  -- With the answer known, running the word is one equation, and the four promises are read off it.
  cases answers with
  | short few =>
      have accepts : ∀ message, ¬Refuses name machine.stack message := by
        intro message refuses
        have enough := refuses.enough listed
        omega
      constructor <;> grind
  | refused enough message only =>
      constructor <;> grind
  | done enough effect accepts does =>
      constructor <;> grind

end Promises

section Answers

/-- A word that neither prints nor refuses anything. -/
theorem answers_quietly {name : String} {arity : Nat} {machine : Machine} {after : Stack}
    (enough : arity ≤ machine.stack.length) (settled : name ∉ ["choose", "+", "-", "*"])
    (does : Does name machine { machine with stack := after }) :
    Answers name arity machine (.ok ⟨after, [], ""⟩) := by
  refine .done enough _ (fun message refuses => settled refuses.name_mem) ?_
  rw [String.append_empty]
  exact does

theorem answers_duplicate (machine : Machine) : Answers "dup" 1 machine (apply .duplicate machine.stack) := by
  obtain ⟨stack, agenda, printed⟩ := machine
  match stack with
  | [] => exact .short (by simp)
  | a :: rest => exact answers_quietly (Nat.le_add_left ..) (by decide) (.dup rest a agenda printed)

theorem answers_discard (machine : Machine) : Answers "drop" 1 machine (apply .discard machine.stack) := by
  obtain ⟨stack, agenda, printed⟩ := machine
  match stack with
  | [] => exact .short (by simp)
  | a :: rest => exact answers_quietly (Nat.le_add_left ..) (by decide) (.drop rest a agenda printed)

theorem answers_exchange (machine : Machine) : Answers "flip" 2 machine (apply .exchange machine.stack) := by
  obtain ⟨stack, agenda, printed⟩ := machine
  match stack with
  | [] | [_] => exact .short (by simp)
  | b :: a :: rest =>
      exact answers_quietly (Nat.le_add_left ..) (by decide) (.flip rest a b agenda printed)

theorem answers_rotate (machine : Machine) : Answers "rotate" 3 machine (apply .rotate machine.stack) := by
  obtain ⟨stack, agenda, printed⟩ := machine
  match stack with
  | [] | [_] | [_, _] => exact .short (by simp)
  | c :: b :: a :: rest =>
      exact answers_quietly (Nat.le_add_left ..) (by decide) (.rotate rest a b c agenda printed)

theorem answers_operation (kind : Operation) (machine : Machine) :
    Answers kind.symbol 2 machine (apply (.operation kind) machine.stack) := by
  obtain ⟨stack, agenda, printed⟩ := machine
  match stack with
  | [] | [_] => exact .short (by simp)
  | top :: below :: rest =>
      rw [apply, Operation.apply]
      by_cases fits : Number.Fits (kind.result top.reading.toInt below.reading.toInt)
      · obtain ⟨number, found, exact⟩ := Number.ofInt?_of_fits fits
        rw [found]
        refine .done (Nat.le_add_left ..) _ ?_ ?_
        · intro message refuses
          exact ((kind.refuses_iff top below rest message).1 refuses).1 fits
        · rw [String.append_empty]
          exact .calculate kind.means exact rest agenda printed
      · rw [Number.ofInt?_of_not_fits fits]
        refine .refused (Nat.le_add_left ..) _ fun other => ?_
        rw [kind.refuses_iff]
        exact and_iff_right fits

theorem answers_relation (kind : Relation) (machine : Machine) :
    Answers kind.symbol 2 machine (apply (.relation kind) machine.stack) := by
  obtain ⟨stack, agenda, printed⟩ := machine
  match stack with
  | [] | [_] => exact .short (by simp)
  | top :: below :: rest =>
      obtain ⟨comparison, means, agrees⟩ := kind.means
      refine answers_quietly (Nat.le_add_left ..) (by cases kind <;> decide) ?_
      by_cases holds : comparison top.reading.toInt below.reading.toInt
      · rw [(agrees _ _).2 holds]
        exact .yes means holds rest agenda printed
      · rw [Bool.eq_false_iff.2 (mt (agrees _ _).1 holds)]
        exact .no means holds rest agenda printed

theorem answers_choose (machine : Machine) : Answers "choose" 3 machine (apply .choose machine.stack) := by
  obtain ⟨stack, agenda, printed⟩ := machine
  match stack with
  | [] | [_] | [_, _] => exact .short (by simp)
  | flag :: second :: first :: rest =>
      rw [apply, chooseBetween]
      by_cases zero : flag.reading = 0
      · rw [if_pos zero]
        refine .done (Nat.le_add_left ..) _ (fun message refuses => ?_) ?_
        · exact ((refuses_choose_iff flag second first rest).1 refuses).1 zero
        · rw [String.append_empty]
          exact .chooseFirst zero rest first second agenda printed
      · rw [if_neg zero]
        by_cases one : flag.reading = 1
        · rw [if_pos one]
          refine .done (Nat.le_add_left ..) _ (fun message refuses => ?_) ?_
          · exact ((refuses_choose_iff flag second first rest).1 refuses).2.1 one
          · rw [String.append_empty]
            exact .chooseSecond one rest first second agenda printed
        · rw [if_neg one]
          refine .refused (Nat.le_add_left ..) _ fun other => ?_
          rw [refuses_choose_iff, and_iff_right zero, and_iff_right one]

theorem answers_printTop (machine : Machine) : Answers "." 0 machine (apply .printTop machine.stack) :=
  .done (Nat.zero_le _) _ (fun _ refuses => absurd refuses.name_mem (by decide)) (.printTop ..)

theorem answers_printStack (machine : Machine) : Answers "print" 0 machine (apply .printStack machine.stack) :=
  .done (Nat.zero_le _) _ (fun _ refuses => absurd refuses.name_mem (by decide)) (.printStack ..)

end Answers

end Primitive

namespace Vocabulary

/-- The word is a primitive one that needs as much as is listed and answers as it should. -/
def Kept (word : Word) : Prop :=
  ∃ primitive arity, word.action = .primitive primitive ∧ (word.name, arity) ∈ needs ∧
    ∀ machine : Machine, Answers word.name arity machine (primitive.apply machine.stack)

theorem kept_shuffling : ∀ word ∈ shuffling, Kept word := by
  simp only [shuffling, List.forall_mem_cons]
  refine ⟨?_, ?_, ?_, ?_, List.forall_mem_nil _⟩
  · exact ⟨_, 1, rfl, by decide, Primitive.answers_duplicate⟩
  · exact ⟨_, 1, rfl, by decide, Primitive.answers_discard⟩
  · exact ⟨_, 2, rfl, by decide, Primitive.answers_exchange⟩
  · exact ⟨_, 3, rfl, by decide, Primitive.answers_rotate⟩

theorem kept_operation (kind : Operation) (description signature : String) :
    Kept (ofOperation kind description signature) := by
  refine ⟨.operation kind, 2, rfl, ?_, Primitive.answers_operation kind⟩
  change (kind.symbol, 2) ∈ needs
  cases kind <;> decide

theorem kept_relation (kind : Relation) (question signature : String) :
    Kept (ofRelation kind question signature) := by
  refine ⟨.relation kind, 2, rfl, ?_, Primitive.answers_relation kind⟩
  change (kind.symbol, 2) ∈ needs
  cases kind <;> decide

theorem kept_base : ∀ word ∈ base, Kept word := by
  simp only [base, List.forall_mem_append, arithmetic, comparison, control, List.forall_mem_cons, kept_operation,
    kept_relation, true_and]
  refine ⟨⟨⟨kept_shuffling, List.forall_mem_nil _⟩, List.forall_mem_nil _⟩, ?_, List.forall_mem_nil _⟩
  exact ⟨.choose, 3, rfl, by decide, Primitive.answers_choose⟩

theorem kept_printing : ∀ word ∈ printing, Kept word := by
  simp only [printing, List.forall_mem_cons]
  refine ⟨?_, ?_, List.forall_mem_nil _⟩
  · exact ⟨_, 0, rfl, by decide, Primitive.answers_printTop⟩
  · exact ⟨_, 0, rfl, by decide, Primitive.answers_printStack⟩

theorem noNumeral : ∀ word ∈ base ++ printing, Number.ofNumeral? word.name = none := by decide

end Vocabulary

/-- Every word that is not written in other words does what is promised about it, and nothing at all if it fails. -/
theorem words_are_exact_and_atomic :
    needs.map Prod.fst = (Vocabulary.base ++ Vocabulary.printing).map Word.name ∧
    ∀ word ∈ Vocabulary.base ++ Vocabulary.printing,
      ∃ primitive arity, word.action = .primitive primitive ∧ (word.name, arity) ∈ needs ∧
        ∀ machine : Machine, primitive.Honours word.name arity machine ∧
          ∀ dictionary : Dictionary, dictionary.find? word.name = some word →
            Machine.step dictionary { machine with agenda := word.name :: machine.agenda } =
              .ofWork (primitive.procedure.run machine) := by
  refine ⟨rfl, fun word builtIn => ?_⟩
  have kept : Vocabulary.Kept word :=
    (List.mem_append.1 builtIn).elim (Vocabulary.kept_base word) (Vocabulary.kept_printing word)
  obtain ⟨primitive, arity, isPrimitive, listed, answers⟩ := kept
  refine ⟨primitive, arity, isPrimitive, listed, fun machine => ⟨.of_answers listed (answers machine), ?_⟩⟩
  intro dictionary found
  exact Machine.step_primitive (Vocabulary.noNumeral word builtIn) found isPrimitive machine

/-- A flag that is neither zero nor one ends the run with all three values still there. -/
theorem words_are_exact_and_atomic_flag :
    ∃ word ∈ Vocabulary.base ++ Vocabulary.printing, (Dictionary.empty.insert word).find? "choose" = some word ∧
      Machine.step (Dictionary.empty.insert word) ⟨[.number 5, .number 2, .empty], ["choose", "dup"], "7\n"⟩ =
        .ended ⟨[.number 5, .number 2, .empty], "7\n",
          some (.invalidArgument "choose" "flag must be 0 or 1, found 5.")⟩ := by
  obtain ⟨word, builtIn, isChoose⟩ : ∃ word ∈ Vocabulary.base ++ Vocabulary.printing, word.name = "choose" := by
    decide
  have found : (Dictionary.empty.insert word).find? word.name = some word := by
    rw [Dictionary.find?_insert, if_pos rfl]
  obtain ⟨primitive, arity, _, _, promised⟩ := words_are_exact_and_atomic.2 word builtIn
  obtain ⟨honours, steps⟩ := promised ⟨[.number 5, .number 2, .empty], ["dup"], "7\n"⟩
  have refuses : Refuses word.name [.number 5, .number 2, .empty] "flag must be 0 or 1, found 5." := by
    rw [isChoose, refuses_choose_iff]
    decide
  have failed := (honours.refusal word.name _ _).2 ⟨refuses, rfl, rfl⟩
  have stepped := steps _ found
  rw [failed, isChoose] at stepped
  rw [isChoose] at found
  exact ⟨word, builtIn, found, stepped⟩

end Forth

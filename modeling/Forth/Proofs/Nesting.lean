import Forth.Body
import Forth.Session.Fragment

/-! The branch marks of a body nest. Reading tokens one by one while keeping only the list of open
branches tells whether they spell a body: they do exactly when every mark fits and nothing is open
at the end. -/

namespace Forth.Nesting

open Body (Spelled)

/-- The open branches, innermost first, after one more token. Nothing follows a mark that can not
stand there. -/
def read (opened : List Branch) (token : Token) : Option (List Branch) :=
  match token.mark?, opened with
  | none, opened => some opened
  | some .ifMark, opened => some (.ifBranch :: opened)
  | some .elseMark, .ifBranch :: opened => some (.elseBranch :: opened)
  | some .thenMark, _ :: opened => some opened
  | _, _ => none

def readAll (opened : List Branch) : List Token → Option (List Branch)
  | [] => some opened
  | token :: rest => (read opened token).bind fun next => readAll next rest

/-- How many of the tokens are the given mark. -/
def occurrences (mark : Mark) (tokens : List Token) : Nat :=
  tokens.countP fun token => token.mark? = some mark

theorem occurrences_cons (mark : Mark) (token : Token) (tokens : List Token) :
    occurrences mark (token :: tokens) =
      occurrences mark tokens + if token.mark? = some mark then 1 else 0 := by
  simp only [occurrences, List.countP_cons, decide_eq_true_eq]

theorem occurrences_append (mark : Mark) (front back : List Token) :
    occurrences mark (front ++ back) = occurrences mark front + occurrences mark back :=
  List.countP_append

theorem occurrences_le (mark : Mark) {tokens more : List Token} (among : tokens.Sublist more) :
    occurrences mark tokens ≤ occurrences mark more :=
  among.countP_le

theorem readAll_append (opened : List Branch) (front back : List Token) :
    readAll opened (front ++ back) = (readAll opened front).bind fun next => readAll next back := by
  induction front generalizing opened with
  | nil => rfl
  | cons token front ih =>
      simp only [List.cons_append, readAll, Option.bind_assoc]
      exact congrArg _ (funext ih)

theorem readAll_prefix {opened next : List Branch} {front tokens : List Token} (before : front <+: tokens)
    (reads : readAll opened tokens = some next) : ∃ middle, readAll opened front = some middle := by
  obtain ⟨back, rfl⟩ := before
  rw [readAll_append] at reads
  obtain ⟨middle, readsFront, _⟩ := Option.bind_eq_some_iff.mp reads
  exact ⟨middle, readsFront⟩

section Marks

variable {token : Token}

theorem read_plain (noMark : token.mark? = none) (opened : List Branch) :
    read opened token = some opened := by
  simp only [read, noMark]

theorem read_if (mark : token.mark? = some .ifMark) (opened : List Branch) :
    read opened token = some (.ifBranch :: opened) := by
  simp only [read, mark]

theorem read_else (mark : token.mark? = some .elseMark) (opened : List Branch) :
    read (.ifBranch :: opened) token = some (.elseBranch :: opened) := by
  simp only [read, mark]

theorem read_then (mark : token.mark? = some .thenMark) (branch : Branch) (opened : List Branch) :
    read (branch :: opened) token = some opened := by
  simp only [read, mark]

/-- The four ways in which a token can be read. -/
theorem read_cases {opened next : List Branch} (reads : read opened token = some next) :
    token.mark? = none ∧ next = opened ∨
      token.mark? = some .ifMark ∧ next = .ifBranch :: opened ∨
      (∃ rest, token.mark? = some .elseMark ∧ opened = .ifBranch :: rest ∧
        next = .elseBranch :: rest) ∨
      ∃ branch, token.mark? = some .thenMark ∧ opened = branch :: next := by
  unfold read at reads
  split at reads
  next plain => exact .inl ⟨plain, (Option.some.inj reads).symm⟩
  next mark => exact .inr (.inl ⟨mark, (Option.some.inj reads).symm⟩)
  next rest mark => exact .inr (.inr (.inl ⟨rest, mark, rfl, (Option.some.inj reads).symm⟩))
  next branch rest mark =>
    exact .inr (.inr (.inr ⟨branch, mark, by rw [Option.some.inj reads]⟩))
  next => cases reads

end Marks

theorem readAll_below {opened next : List Branch} {tokens : List Token}
    (reads : readAll opened tokens = some next) (below : List Branch) :
    readAll (opened ++ below) tokens = some (next ++ below) := by
  induction tokens generalizing opened with
  | nil =>
      cases Option.some.inj reads
      rfl
  | cons token tokens ih =>
      obtain ⟨middle, readsToken, readsRest⟩ := Option.bind_eq_some_iff.mp reads
      have rest := ih readsRest
      rw [readAll]
      obtain ⟨plain, rfl⟩ | ⟨mark, rfl⟩ | ⟨outer, mark, rfl, rfl⟩ | ⟨branch, mark, rfl⟩ :=
        read_cases readsToken
      · rw [read_plain plain, Option.bind_some]
        exact rest
      · rw [read_if mark, Option.bind_some]
        exact rest
      · rw [List.cons_append, read_else mark, Option.bind_some]
        exact rest
      · rw [List.cons_append, read_then mark, Option.bind_some]
        exact rest

/-- A body leaves the open branches as they were. -/
theorem readAll_spelled {body : Body} {tokens : List Token} (spelled : Spelled body tokens)
    (opened : List Branch) : readAll opened tokens = some opened := by
  induction spelled generalizing opened with
  | done => rfl
  | token noMark _ ihRest =>
      simp only [readAll, read_plain noMark, Option.bind_some]
      exact ihRest opened
  | ifThen ifMark thenMark _ _ ihIf ihRest =>
      simp only [readAll, read_if ifMark, Option.bind_some, readAll_append, ihIf, read_then thenMark]
      exact ihRest opened
  | ifElse ifMark elseMark thenMark _ _ _ ihIf ihElse ihRest =>
      simp only [readAll, read_if ifMark, Option.bind_some, readAll_append, ihIf, read_else elseMark,
        ihElse, read_then thenMark]
      exact ihRest opened

/-- The tokens stand inside of a conditional: at none of them is it closed. -/
def Inside (tokens : List Token) : Prop :=
  ∀ front, front <+: tokens → ∃ branch opened, readAll [.ifBranch] front = some (branch :: opened)

theorem readAll_spelled_prefix {body : Body} {front tokens : List Token} (spelled : Spelled body tokens)
    (before : front <+: tokens) (branch : Branch) :
    ∃ inner opened, readAll [branch] front = some (inner :: opened) := by
  obtain ⟨middle, reads⟩ := readAll_prefix before (readAll_spelled spelled [])
  have above := readAll_below reads [branch]
  cases middle with
  | nil => exact ⟨branch, [], above⟩
  | cons inner opened => exact ⟨inner, opened ++ [branch], above⟩

theorem inside_ifThen {ifBody : Body} {ifTokens : List Token} (ifSpelled : Spelled ifBody ifTokens) :
    Inside ifTokens :=
  fun _ before => readAll_spelled_prefix ifSpelled before .ifBranch

theorem inside_ifElse {ifBody elseBody : Body} {ifTokens elseTokens : List Token} {elseToken : Token}
    (ifSpelled : Spelled ifBody ifTokens) (elseMark : elseToken.mark? = some .elseMark)
    (elseSpelled : Spelled elseBody elseTokens) : Inside (ifTokens ++ elseToken :: elseTokens) := by
  intro front before
  rcases List.prefix_or_prefix_of_prefix before (List.prefix_append ifTokens _) with short | long
  · exact readAll_spelled_prefix ifSpelled short .ifBranch
  · obtain ⟨rest, rfl⟩ := long
    rw [readAll_append, readAll_spelled ifSpelled, Option.bind_some]
    rcases List.prefix_cons_iff.mp ((List.prefix_append_right_inj ifTokens).mp before) with rfl | ⟨later, rfl, short⟩
    · exact ⟨.ifBranch, [], rfl⟩
    · rw [readAll, read_else elseMark, Option.bind_some]
      exact readAll_spelled_prefix elseSpelled short .elseBranch

/-- Tokens that finish the open branches one after the other, with a body before each mark. -/
inductive Closing : List Branch → List Token → Prop where
  | done {body : Body} {tokens : List Token} (spelled : Spelled body tokens) : Closing [] tokens
  | thenMark {body : Body} {branch : Branch} {opened : List Branch} {front back : List Token}
      {token : Token} (spelled : Spelled body front) (mark : token.mark? = some .thenMark)
      (rest : Closing opened back) : Closing (branch :: opened) (front ++ token :: back)
  | elseMark {body : Body} {opened : List Branch} {front back : List Token} {token : Token}
      (spelled : Spelled body front) (mark : token.mark? = some .elseMark)
      (rest : Closing (.elseBranch :: opened) back) : Closing (.ifBranch :: opened) (front ++ token :: back)

/-- Whatever can stand before a body can stand before tokens that start with one. -/
theorem Closing.extend {opened : List Branch} {tokens : List Token} (closing : Closing opened tokens)
    (lead : List Token)
    (lengthens : ∀ body front, Spelled body front → ∃ longer, Spelled longer (lead ++ front)) :
    Closing opened (lead ++ tokens) := by
  cases closing with
  | done spelled =>
      obtain ⟨longer, spelledLonger⟩ := lengthens _ _ spelled
      exact .done spelledLonger
  | thenMark spelled mark rest =>
      obtain ⟨longer, spelledLonger⟩ := lengthens _ _ spelled
      rw [← List.append_assoc]
      exact .thenMark spelledLonger mark rest
  | elseMark spelled mark rest =>
      obtain ⟨longer, spelledLonger⟩ := lengthens _ _ spelled
      rw [← List.append_assoc]
      exact .elseMark spelledLonger mark rest

/-- A conditional that is closed becomes part of the body around it. -/
theorem Closing.fold {opened : List Branch} {tokens : List Token} {token : Token}
    (mark : token.mark? = some .ifMark) (closing : Closing (.ifBranch :: opened) tokens) :
    Closing opened (token :: tokens) := by
  cases closing with
  | @thenMark ifBody _ _ front back thenToken spelled thenMark rest =>
      have whole := rest.extend (token :: (front ++ [thenToken])) fun body tail spelledTail =>
        ⟨.ifThen ifBody body, by simpa using Spelled.ifThen mark thenMark spelled spelledTail⟩
      simpa using whole
  | @elseMark ifBody _ front back elseToken spelled elseMark rest =>
      cases rest with
      | @thenMark elseBody _ _ middle back thenToken spelledElse thenMark rest =>
          have whole := rest.extend (token :: (front ++ elseToken :: (middle ++ [thenToken])))
            fun body tail spelledTail => ⟨.ifElse ifBody elseBody body, by
              simpa using Spelled.ifElse mark elseMark thenMark spelled spelledElse spelledTail⟩
          simpa using whole

theorem closing_of_readAll {opened : List Branch} {tokens : List Token}
    (reads : readAll opened tokens = some []) : Closing opened tokens := by
  induction tokens generalizing opened with
  | nil =>
      cases Option.some.inj reads
      exact .done .done
  | cons token tokens ih =>
      obtain ⟨next, readsToken, readsRest⟩ := Option.bind_eq_some_iff.mp reads
      have closing := ih readsRest
      obtain ⟨plain, rfl⟩ | ⟨mark, rfl⟩ | ⟨rest, mark, rfl, rfl⟩ | ⟨branch, mark, rfl⟩ :=
        read_cases readsToken
      · exact closing.extend [token] fun body front spelled => ⟨.token token body, .token plain spelled⟩
      · exact closing.fold mark
      · exact .elseMark .done mark closing
      · exact .thenMark .done mark closing

theorem spelled_iff_readAll (tokens : List Token) :
    (∃ body, Spelled body tokens) ↔ readAll [] tokens = some [] := by
  constructor
  · intro ⟨body, spelled⟩
    exact readAll_spelled spelled []
  · intro reads
    cases closing_of_readAll reads with
    | done spelled => exact ⟨_, spelled⟩

theorem length_readAll {opened next : List Branch} {tokens : List Token}
    (reads : readAll opened tokens = some next) :
    next.length + occurrences .thenMark tokens = opened.length + occurrences .ifMark tokens := by
  induction tokens generalizing opened with
  | nil =>
      cases Option.some.inj reads
      rfl
  | cons token tokens ih =>
      obtain ⟨middle, readsToken, readsRest⟩ := Option.bind_eq_some_iff.mp reads
      have counted := ih readsRest
      simp only [occurrences_cons]
      obtain ⟨plain, rfl⟩ | ⟨mark, rfl⟩ | ⟨rest, mark, rfl, rfl⟩ | ⟨branch, mark, rfl⟩ :=
        read_cases readsToken
      · simp only [plain, reduceCtorEq, if_false]
        exact counted
      · simp only [mark, List.length_cons, Option.some.injEq, reduceCtorEq, if_false, if_true] at counted ⊢
        omega
      · simp only [mark, List.length_cons, Option.some.injEq, reduceCtorEq, if_false] at counted ⊢
        omega
      · simp only [mark, List.length_cons, Option.some.injEq, reduceCtorEq, if_false, if_true] at counted ⊢
        omega

end Forth.Nesting

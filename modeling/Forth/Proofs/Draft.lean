import Forth.Proofs.Labels
import Forth.Proofs.Nesting
import Forth.Session.Basic

/-! A draft is a definition in the making as a plain list: the definition itself and the conditionals
that are open inside it, innermost first. It takes the same tokens as a session, without a table of
fragments to look labels up in. -/

namespace Forth

structure Draft where
  labels : Labels
  base : String
  name : Option String
  body : List Token := []
  /-- The open conditionals, innermost first. -/
  opened : List Conditional := []
  completed : Definitions := ∅

namespace Draft

def named (labels : Labels) : Draft :=
  { labels := labels.afterDefinition, base := labels.nextDefinition, name := none }

def anonymous (labels : Labels) : Draft :=
  { labels := labels.afterDefinition, base := labels.nextDefinition, name := some labels.nextDefinition }

/-- The labels of the fragments, innermost first. -/
def keys (draft : Draft) : List String := draft.opened.map Conditional.label ++ [draft.base]

def branches (draft : Draft) : List Branch := draft.opened.map Conditional.branch

/-- Whether tokens can be added to the innermost fragment. -/
def Collects (draft : Draft) : Prop := draft.opened ≠ [] ∨ draft.name ≠ none

/-- Adds a token to the innermost fragment. -/
def append (draft : Draft) (token : Token) : Draft :=
  match draft.opened with
  | [] => { draft with body := draft.body ++ [token] }
  | conditional :: opened => { draft with opened := conditional.append token :: opened }

/-- Opens a conditional under the next label. -/
def begin (draft : Draft) : Draft :=
  { draft with
    labels := draft.labels.afterConditional
    opened := { label := draft.labels.nextConditional } :: draft.opened }

/-- Takes a token that is no mark. -/
def takePlain (draft : Draft) (token : Token) : Except Reason Draft :=
  match draft.opened, draft.name with
  | [], none =>
      if token.isName then .ok { draft with name := some token } else .error (.notAName token)
  | _, _ => .ok (draft.append token)

/-- A definition takes no mark: as a name it is refused, and in the body it has nothing to match. -/
def refuse (draft : Draft) (token : Token) : Reason :=
  if draft.name.isSome then .strayMark token else .notAName token

def takeElse (draft : Draft) (token : Token) : Except Reason Draft :=
  match draft.opened with
  | [] => .error (draft.refuse token)
  | conditional :: opened =>
      match conditional.branch with
      | .ifBranch => .ok { draft with opened := { conditional with branch := .elseBranch } :: opened }
      | .elseBranch => .error (.secondElse conditional.label)

/-- Turns the innermost conditional into a word of its own. -/
def shut (draft : Draft) (conditional : Conditional) (opened : List Conditional) : Draft :=
  { draft with
    opened
    completed := draft.completed.insert conditional.label conditional.action }

def takeThen (draft : Draft) (token : Token) : Except Reason Draft :=
  match draft.opened with
  | [] => .error (draft.refuse token)
  | conditional :: opened =>
      if opened = [] ∧ draft.name = none then .error .ifBeforeName
      else .ok ((draft.shut conditional opened).append conditional.label)

def push (draft : Draft) (token : Token) : Except Reason Draft :=
  match token.mark? with
  | none => draft.takePlain token
  | some .ifMark => .ok draft.begin
  | some .elseMark => draft.takeElse token
  | some .thenMark => draft.takeThen token
  | some .colon | some .semicolon => .error (.markInsideBody token)

def pushAll (draft : Draft) : List Token → Except Reason Draft
  | [] => .ok draft
  | token :: rest =>
      match draft.push token with
      | .error reason => .error reason
      | .ok next => next.pushAll rest

theorem label_append (conditional : Conditional) (token : Token) :
    (conditional.append token).label = conditional.label := by
  cases branch : conditional.branch <;> simp only [Conditional.append, branch]

theorem branch_append (conditional : Conditional) (token : Token) :
    (conditional.append token).branch = conditional.branch := by
  cases branch : conditional.branch <;> simp only [Conditional.append, branch]

theorem closed_append (conditional : Conditional) (token : Token) :
    (conditional.append token).closed = conditional.closed := by
  cases branch : conditional.branch <;> simp only [Conditional.append, branch]

theorem keys_append (draft : Draft) (token : Token) : (draft.append token).keys = draft.keys := by
  cases opens : draft.opened <;> simp [append, opens, keys, label_append]

theorem branches_append (draft : Draft) (token : Token) :
    (draft.append token).branches = draft.branches := by
  cases opens : draft.opened <;> simp [append, opens, branches, branch_append]

theorem labels_append (draft : Draft) (token : Token) : (draft.append token).labels = draft.labels := by
  cases opens : draft.opened <;> simp only [append, opens]

theorem name_append (draft : Draft) (token : Token) : (draft.append token).name = draft.name := by
  cases opens : draft.opened <;> simp only [append, opens]

theorem opened_append_eq_nil (draft : Draft) (token : Token) :
    (draft.append token).opened = [] ↔ draft.opened = [] := by
  cases opens : draft.opened <;> simp [append, opens]

theorem Collects.append {draft : Draft} (collects : draft.Collects) (token : Token) :
    (draft.append token).Collects := by
  rw [Collects, ne_eq, opened_append_eq_nil, name_append]
  exact collects

/-- The five ways in which a draft can take a token. -/
theorem push_cases {draft next : Draft} {token : Token} (pushed : draft.push token = .ok next) :
    (token.mark? = none ∧ token.isName = true ∧ draft.opened = [] ∧ draft.name = none ∧
      next = { draft with name := some token }) ∨
    (token.mark? = none ∧ draft.Collects ∧ next = draft.append token) ∨
    (token.mark? = some .ifMark ∧ next = draft.begin) ∨
    (∃ conditional opened, token.mark? = some .elseMark ∧ draft.opened = conditional :: opened ∧
      conditional.branch = .ifBranch ∧
      next = { draft with opened := { conditional with branch := .elseBranch } :: opened }) ∨
    ∃ conditional opened, token.mark? = some .thenMark ∧ draft.opened = conditional :: opened ∧
      (draft.shut conditional opened).Collects ∧
      next = (draft.shut conditional opened).append conditional.label := by
  unfold push at pushed
  split at pushed
  next plain =>
    unfold takePlain at pushed
    split at pushed
    next nothingOpen noName =>
      split at pushed
      next naming => exact .inl ⟨plain, naming, nothingOpen, noName, (Except.ok.inj pushed).symm⟩
      next => cases pushed
    next collects =>
      refine .inr (.inl ⟨plain, ?_, (Except.ok.inj pushed).symm⟩)
      exact Classical.not_and_iff_not_or_not.mp fun both => collects both.1 both.2
  next mark => exact .inr (.inr (.inl ⟨mark, (Except.ok.inj pushed).symm⟩))
  next mark =>
    unfold takeElse at pushed
    split at pushed
    next => cases pushed
    next conditional opened opens =>
      split at pushed
      next branch =>
        exact .inr (.inr (.inr (.inl
          ⟨conditional, opened, mark, opens, branch, (Except.ok.inj pushed).symm⟩)))
      next => cases pushed
  next mark =>
    unfold takeThen at pushed
    split at pushed
    next => cases pushed
    next conditional opened opens =>
      split at pushed
      next => cases pushed
      next collects =>
        exact .inr (.inr (.inr (.inr ⟨conditional, opened, mark, opens,
          Classical.not_and_iff_not_or_not.mp collects, (Except.ok.inj pushed).symm⟩)))
  next => cases pushed
  next => cases pushed

/-- Taking a token draws at most one label, and only an `if` does. -/
theorem keys_push {draft next : Draft} {token : Token} (pushed : draft.push token = .ok next) :
    next.labels = draft.labels.afterConditional ∧
        next.keys = draft.labels.nextConditional :: draft.keys ∨
      next.labels = draft.labels ∧ next.keys <:+ draft.keys := by
  obtain ⟨_, _, _, _, rfl⟩ | ⟨_, _, rfl⟩ | ⟨_, rfl⟩ | ⟨conditional, opened, _, opens, _, rfl⟩ |
    ⟨conditional, opened, _, opens, _, rfl⟩ := push_cases pushed
  · exact .inr ⟨rfl, List.suffix_refl _⟩
  · rw [labels_append, keys_append]
    exact .inr ⟨rfl, List.suffix_refl _⟩
  · exact .inl ⟨rfl, rfl⟩
  · refine .inr ⟨rfl, ?_⟩
    simp [keys, opens]
  · rw [labels_append, keys_append]
    refine .inr ⟨rfl, [conditional.label], ?_⟩
    simp [keys, opens, shut]

/-- The branches of a draft are those that its tokens have left open. -/
theorem read_of_push {draft next : Draft} {token : Token} (pushed : draft.push token = .ok next) :
    Nesting.read draft.branches token = some next.branches := by
  obtain ⟨plain, _, _, _, rfl⟩ | ⟨plain, _, rfl⟩ | ⟨mark, rfl⟩ |
    ⟨conditional, opened, mark, opens, branch, rfl⟩ | ⟨conditional, opened, mark, opens, _, rfl⟩ :=
      push_cases pushed
  · exact Nesting.read_plain plain _
  · rw [branches_append]
    exact Nesting.read_plain plain _
  · exact Nesting.read_if mark _
  · simp only [branches, opens, List.map_cons, branch]
    exact Nesting.read_else mark _
  · rw [branches_append]
    simp only [branches, opens, List.map_cons, shut]
    exact Nesting.read_then mark _ _

/-- A draft that has its name takes whatever fits the open branches, and keeps the name. -/
theorem push_of_read {draft : Draft} {token : Token} {opened : List Branch}
    (hasName : draft.name ≠ none) (reads : Nesting.read draft.branches token = some opened) :
    ∃ next, draft.push token = .ok next ∧ next.branches = opened ∧ next.name = draft.name := by
  suffices pushes : ∃ next, draft.push token = .ok next ∧ next.name = draft.name by
    obtain ⟨next, pushed, sameName⟩ := pushes
    have same := reads.symm.trans (read_of_push pushed)
    exact ⟨next, pushed, (Option.some.inj same).symm, sameName⟩
  obtain ⟨plain, _⟩ | ⟨mark, _⟩ | ⟨rest, mark, branches, _⟩ | ⟨branch, mark, branches⟩ :=
    Nesting.read_cases reads
  · refine ⟨draft.append token, ?_, name_append draft token⟩
    simp only [push, plain, takePlain]
    split
    next noName => exact absurd noName hasName
    next => rfl
  · exact ⟨draft.begin, by simp only [push, mark], rfl⟩
  · obtain ⟨conditional, conditionals, opens, branch, _⟩ := List.map_eq_cons_iff.mp branches
    refine ⟨{ draft with opened := { conditional with branch := .elseBranch } :: conditionals }, ?_, rfl⟩
    simp only [push, mark, takeElse, opens, branch]
  · obtain ⟨conditional, conditionals, opens, _, _⟩ := List.map_eq_cons_iff.mp branches
    refine ⟨(draft.shut conditional conditionals).append conditional.label, ?_, name_append _ _⟩
    simp only [push, mark, takeThen, opens, hasName, and_false, if_false]

/-- An `if` before the name is never got rid of. -/
theorem push_unnamed {draft next : Draft} {token : Token} (noName : draft.name = none)
    (someOpen : draft.opened ≠ []) (pushed : draft.push token = .ok next) :
    next.name = none ∧ next.opened ≠ [] := by
  obtain ⟨_, _, nothingOpen, _, rfl⟩ | ⟨_, _, rfl⟩ | ⟨_, rfl⟩ | ⟨conditional, opened, _, opens, _, rfl⟩ |
      ⟨conditional, opened, _, opens, collects, rfl⟩ := push_cases pushed
  · exact absurd nothingOpen someOpen
  · rw [name_append, ne_eq, opened_append_eq_nil]
    exact ⟨noName, someOpen⟩
  · exact ⟨noName, List.cons_ne_nil _ _⟩
  · exact ⟨noName, List.cons_ne_nil _ _⟩
  · rw [name_append, ne_eq, opened_append_eq_nil]
    refine ⟨noName, ?_⟩
    rcases collects with more | named
    · exact more
    · exact absurd noName named

theorem unfinished_append {draft : Draft} (token : Token)
    (unfinished : ∀ conditional ∈ draft.opened, conditional.closed = false) :
    ∀ conditional ∈ (draft.append token).opened, conditional.closed = false := by
  cases opens : draft.opened with
  | nil => simp [append, opens]
  | cons conditional opened => simpa [append, opens, closed_append] using unfinished

theorem unfinished_push {draft next : Draft} {token : Token} (pushed : draft.push token = .ok next)
    (unfinished : ∀ conditional ∈ draft.opened, conditional.closed = false) :
    ∀ conditional ∈ next.opened, conditional.closed = false := by
  obtain ⟨_, _, _, _, rfl⟩ | ⟨_, _, rfl⟩ | ⟨_, rfl⟩ | ⟨conditional, opened, _, opens, _, rfl⟩ |
    ⟨conditional, opened, _, opens, _, rfl⟩ := push_cases pushed
  · exact unfinished
  · exact unfinished_append token unfinished
  · simpa [begin] using unfinished
  · simpa [opens] using unfinished
  · apply unfinished_append
    intro other member
    exact unfinished other (by rw [opens]; exact List.mem_cons_of_mem _ member)

theorem readAll_of_pushAll {draft next : Draft} {tokens : List Token}
    (pushed : draft.pushAll tokens = .ok next) :
    Nesting.readAll draft.branches tokens = some next.branches := by
  induction tokens generalizing draft with
  | nil =>
      cases pushed
      rfl
  | cons token tokens ih =>
      simp only [pushAll] at pushed
      cases first : draft.push token with
      | error reason => simp only [first, reduceCtorEq] at pushed
      | ok middle =>
          simp only [first] at pushed
          rw [Nesting.readAll, read_of_push first, Option.bind_some]
          exact ih pushed

theorem pushAll_of_readAll {draft : Draft} {tokens : List Token} {opened : List Branch}
    (hasName : draft.name ≠ none) (reads : Nesting.readAll draft.branches tokens = some opened) :
    ∃ next, draft.pushAll tokens = .ok next ∧ next.branches = opened ∧ next.name = draft.name := by
  induction tokens generalizing draft with
  | nil => exact ⟨draft, rfl, Option.some.inj reads, rfl⟩
  | cons token tokens ih =>
      obtain ⟨middle, readsToken, readsRest⟩ := Option.bind_eq_some_iff.mp reads
      obtain ⟨next, pushed, branches, sameName⟩ := push_of_read hasName readsToken
      rw [← branches] at readsRest
      obtain ⟨last, pushedRest, lastBranches, lastName⟩ := ih (sameName ▸ hasName) readsRest
      refine ⟨last, ?_, lastBranches, lastName.trans sameName⟩
      simp only [pushAll, pushed, pushedRest]

theorem pushAll_unnamed {draft next : Draft} {tokens : List Token} (noName : draft.name = none)
    (someOpen : draft.opened ≠ []) (pushed : draft.pushAll tokens = .ok next) :
    next.name = none ∧ next.opened ≠ [] := by
  induction tokens generalizing draft with
  | nil =>
      cases pushed
      exact ⟨noName, someOpen⟩
  | cons token tokens ih =>
      simp only [pushAll] at pushed
      cases first : draft.push token with
      | error reason => simp only [first, reduceCtorEq] at pushed
      | ok middle =>
          simp only [first] at pushed
          obtain ⟨stillUnnamed, stillOpen⟩ := push_unnamed noName someOpen first
          exact ih stillUnnamed stillOpen pushed

end Draft

end Forth

import Forth.Proofs.Draft

/-! The flat code of a body: each conditional becomes a word of its own under the label drawn at its
`if`, and is called by that label where it stood. A draft that takes any spelling of a body ends up
with this code, and with one finished conditional for every `if`. -/

namespace Forth

namespace Body

/-- The number of conditionals, at all depths. -/
def branches : Body → Nat
  | .done => 0
  | .token _ rest => rest.branches
  | .ifThen ifBody rest => 1 + ifBody.branches + rest.branches
  | .ifElse ifBody elseBody rest => 1 + ifBody.branches + elseBody.branches + rest.branches

instance decidablePlain : (body : Body) → Decidable body.Plain
  | .done => .isTrue trivial
  | .token plain rest =>
      have := decidablePlain rest
      inferInstanceAs (Decidable (plain.mark? = none ∧ rest.Plain))
  | .ifThen ifBody rest =>
      have := decidablePlain ifBody
      have := decidablePlain rest
      inferInstanceAs (Decidable (ifBody.Plain ∧ rest.Plain))
  | .ifElse ifBody elseBody rest =>
      have := decidablePlain ifBody
      have := decidablePlain elseBody
      have := decidablePlain rest
      inferInstanceAs (Decidable (ifBody.Plain ∧ elseBody.Plain ∧ rest.Plain))

/-- The tokens of the body itself. Labels are drawn in the order of the `if` marks. -/
def flat : Body → Labels → List Token
  | .done, _ => []
  | .token plain rest, labels => plain :: rest.flat labels
  | .ifThen ifBody rest, labels =>
      labels.nextConditional :: rest.flat (labels.skip (1 + ifBody.branches))
  | .ifElse ifBody elseBody rest, labels =>
      labels.nextConditional :: rest.flat (labels.skip (1 + ifBody.branches + elseBody.branches))

/-- The words of the conditionals in the order in which they are closed. -/
def helpers : Body → Labels → List (String × Action)
  | .done, _ => []
  | .token _ rest, labels => rest.helpers labels
  | .ifThen ifBody rest, labels =>
      ifBody.helpers (labels.skip 1) ++
        (labels.nextConditional, .conditional (ifBody.flat (labels.skip 1)) []) ::
          rest.helpers (labels.skip (1 + ifBody.branches))
  | .ifElse ifBody elseBody rest, labels =>
      ifBody.helpers (labels.skip 1) ++ (elseBody.helpers (labels.skip (1 + ifBody.branches)) ++
        (labels.nextConditional, .conditional (ifBody.flat (labels.skip 1))
          (elseBody.flat (labels.skip (1 + ifBody.branches)))) ::
            rest.helpers (labels.skip (1 + ifBody.branches + elseBody.branches)))

/-- Every conditional has the label drawn at its `if`. -/
theorem helpers_labels (body : Body) (labels : Labels) :
    ((body.helpers labels).map Prod.fst).Perm (labels.upcoming body.branches) := by
  induction body generalizing labels with
  | done => exact .refl _
  | token _ _ ih => exact ih labels
  | ifThen ifBody rest ihIf ihRest =>
      simp only [helpers, branches, List.map_append, List.map_cons, Labels.upcoming_add]
      refine List.perm_middle.trans (.cons _ ?_)
      exact (ihIf _).append (ihRest _)
  | ifElse ifBody elseBody rest ihIf ihElse ihRest =>
      simp only [helpers, branches, List.map_append, List.map_cons, Labels.upcoming_add]
      rw [← List.append_assoc]
      refine List.perm_middle.trans (.cons _ ?_)
      exact ((ihIf _).append (ihElse _)).append (ihRest _)

/-- A body has one conditional for every `if` of a spelling. -/
theorem Spelled.occurrences_if {body : Body} {tokens : List Token} (spelled : Spelled body tokens) :
    Nesting.occurrences .ifMark tokens = body.branches := by
  induction spelled with
  | done => rfl
  | token noMark _ ihRest =>
      simp only [Nesting.occurrences_cons, noMark, reduceCtorEq, if_false, ihRest, branches, Nat.add_zero]
  | ifThen ifMark thenMark _ _ ihIf ihRest =>
      simp only [Nesting.occurrences_cons, Nesting.occurrences_append, ifMark, thenMark, ihIf, ihRest,
        branches, Option.some.injEq, reduceCtorEq, if_false, if_true]
      omega
  | ifElse ifMark elseMark thenMark _ _ _ ihIf ihElse ihRest =>
      simp only [Nesting.occurrences_cons, Nesting.occurrences_append, ifMark, elseMark, thenMark, ihIf,
        ihElse, ihRest, branches, Option.some.injEq, reduceCtorEq, if_false, if_true]
      omega

end Body

/-- Adds words one after the other. -/
def Definitions.addAll (definitions : Definitions) (entries : List (String × Action)) : Definitions :=
  entries.foldl (fun extended entry => extended.insert entry.1 entry.2) definitions

theorem Definitions.addAll_append (definitions : Definitions) (first second : List (String × Action)) :
    definitions.addAll (first ++ second) = (definitions.addAll first).addAll second :=
  List.foldl_append

theorem Definitions.getElem?_addAll_of_not_mem {entries : List (String × Action)} {label : String}
    (absent : label ∉ entries.map Prod.fst) (definitions : Definitions) :
    (definitions.addAll entries)[label]? = definitions[label]? := by
  induction entries generalizing definitions with
  | nil => rfl
  | cons entry entries ih =>
      simp only [List.map_cons, List.mem_cons, not_or] at absent
      have rest := ih absent.2 (definitions.insert entry.1 entry.2)
      have apart : ¬compare entry.1 label = .eq := by
        rw [Std.LawfulEqCmp.compare_eq_iff_eq]
        exact fun same => absent.1 same.symm
      rw [Std.ExtTreeMap.getElem?_insert, if_neg apart] at rest
      exact rest

theorem Definitions.getElem?_addAll {entries : List (String × Action)}
    (distinct : (entries.map Prod.fst).Nodup) {label : String} {action : Action}
    (member : (label, action) ∈ entries) (definitions : Definitions) :
    (definitions.addAll entries)[label]? = some action := by
  induction entries generalizing definitions with
  | nil => cases member
  | cons entry entries ih =>
      obtain ⟨apart, distinctRest⟩ := List.nodup_cons.mp distinct
      rcases List.mem_cons.mp member with same | later
      · subst same
        have rest := getElem?_addAll_of_not_mem apart (definitions.insert label action)
        rw [Std.ExtTreeMap.getElem?_insert_self] at rest
        exact rest
      · exact ih distinctRest later _

/-- Whatever is found was there before or is one of the added words. -/
theorem Definitions.mem_of_getElem?_addAll {entries : List (String × Action)} {definitions : Definitions}
    {label : String} {action : Action} (found : (definitions.addAll entries)[label]? = some action) :
    (label, action) ∈ entries ∨ definitions[label]? = some action := by
  induction entries generalizing definitions with
  | nil => exact .inr found
  | cons entry entries ih =>
      rcases ih found with later | earlier
      · exact .inl (List.mem_cons_of_mem entry later)
      · simp only [Std.ExtTreeMap.getElem?_insert, Std.LawfulEqCmp.compare_eq_iff_eq] at earlier
        by_cases same : entry.1 = label
        · rw [if_pos same] at earlier
          cases earlier
          exact .inl (same ▸ List.mem_cons_self ..)
        · rw [if_neg same] at earlier
          exact .inr earlier

/-- The words of the conditionals of a body. -/
def Body.conditionals (body : Body) (labels : Labels) : Definitions :=
  Definitions.addAll ∅ (body.helpers labels)

theorem Body.mem_helpers {body : Body} {labels : Labels} {label : String} {action : Action}
    (found : (body.conditionals labels)[label]? = some action) : (label, action) ∈ body.helpers labels := by
  rcases Definitions.mem_of_getElem?_addAll found with added | earlier
  · exact added
  · simp at earlier

theorem Body.mem_conditionals {body : Body} {labels : Labels} {label : String}
    (member : label ∈ body.conditionals labels) : label ∈ labels.upcoming body.branches := by
  have found := Std.ExtTreeMap.getElem?_eq_some_getElem member
  exact (body.helpers_labels labels).mem_iff.mp (List.mem_map_of_mem (Body.mem_helpers found))

theorem Body.getElem?_conditionals {body : Body} {labels : Labels}
    (distinct : (labels.upcoming body.branches).Nodup) {label : String} {action : Action}
    (member : (label, action) ∈ body.helpers labels) : (body.conditionals labels)[label]? = some action :=
  Definitions.getElem?_addAll ((body.helpers_labels labels).nodup_iff.mpr distinct) member ∅

namespace Draft

theorem pushAll_append (draft : Draft) (front back : List Token) :
    draft.pushAll (front ++ back) =
      match draft.pushAll front with
      | .error reason => .error reason
      | .ok next => next.pushAll back := by
  induction front generalizing draft with
  | nil => rfl
  | cons token front ih =>
      simp only [List.cons_append, pushAll]
      cases draft.push token with
      | error reason => rfl
      | ok next => exact ih next

/-- Adds tokens to the branch that is being collected. -/
def appendTo (conditional : Conditional) (tokens : List Token) : Conditional :=
  match conditional.branch with
  | .ifBranch => { conditional with ifBody := conditional.ifBody ++ tokens }
  | .elseBranch => { conditional with elseBody := conditional.elseBody ++ tokens }

/-- Adds tokens to the innermost fragment. -/
def appendAll (draft : Draft) (tokens : List Token) : Draft :=
  match draft.opened with
  | [] => { draft with body := draft.body ++ tokens }
  | conditional :: opened => { draft with opened := appendTo conditional tokens :: opened }

/-- The draft after a body: its code has been added, and its conditionals are finished. -/
def absorb (draft : Draft) (body : Body) : Draft :=
  { draft.appendAll (body.flat draft.labels) with
    labels := draft.labels.skip body.branches
    completed := draft.completed.addAll (body.helpers draft.labels) }

theorem appendTo_append (conditional : Conditional) (token : Token) (tokens : List Token) :
    appendTo (conditional.append token) tokens = appendTo conditional (token :: tokens) := by
  cases branch : conditional.branch <;> simp [appendTo, Conditional.append, branch]

theorem absorb_append (draft : Draft) (plain : Token) (rest : Body) :
    (draft.append plain).absorb rest = draft.absorb (.token plain rest) := by
  obtain ⟨labels, base, name, body, _ | ⟨conditional, opened⟩, completed⟩ := draft
  · simp [absorb, appendAll, append, Body.flat, Body.branches, Body.helpers]
  · simp [absorb, appendAll, append, Body.flat, Body.branches, Body.helpers, appendTo_append]

theorem push_if (draft : Draft) {token : Token} (mark : token.mark? = some .ifMark) :
    draft.push token = .ok draft.begin := by
  simp only [push, mark]

theorem push_else (draft : Draft) {token : Token} {conditional : Conditional} {opened : List Conditional}
    (mark : token.mark? = some .elseMark) (opens : draft.opened = conditional :: opened)
    (branch : conditional.branch = .ifBranch) :
    draft.push token =
      .ok { draft with opened := { conditional with branch := .elseBranch } :: opened } := by
  simp only [push, mark, takeElse, opens, branch]

theorem push_then (draft : Draft) {token : Token} {conditional : Conditional} {opened : List Conditional}
    (mark : token.mark? = some .thenMark) (opens : draft.opened = conditional :: opened)
    (collects : (draft.shut conditional opened).Collects) :
    draft.push token = .ok ((draft.shut conditional opened).append conditional.label) := by
  simp only [push, mark, takeThen, opens]
  rw [if_neg]
  exact Classical.not_and_iff_not_or_not.mpr collects

/-- The draft after a conditional: its words are there, and the place where it stood calls it. -/
def called (draft : Draft) (count : Nat) (entries : List (String × Action)) (action : Action) : Draft :=
  append { draft with
    labels := draft.labels.skip count
    completed := Definitions.addAll (draft.completed.addAll entries)
      [(draft.labels.nextConditional, action)] } draft.labels.nextConditional

theorem Collects.called {draft : Draft} (collects : draft.Collects) (count : Nat)
    (entries : List (String × Action)) (action : Action) : (draft.called count entries action).Collects := by
  have collectsInside : Collects { draft with
      labels := draft.labels.skip count
      completed := Definitions.addAll (draft.completed.addAll entries)
        [(draft.labels.nextConditional, action)] } := collects
  exact collectsInside.append draft.labels.nextConditional

theorem absorb_called_ifThen (draft : Draft) (ifBody rest : Body) :
    (draft.called (1 + ifBody.branches) (ifBody.helpers (draft.labels.skip 1))
      (.conditional (ifBody.flat (draft.labels.skip 1)) [])).absorb rest =
        draft.absorb (.ifThen ifBody rest) := by
  obtain ⟨labels, base, name, body, _ | ⟨conditional, opened⟩, completed⟩ := draft
  · simp [absorb, called, append, appendAll, Body.flat, Body.branches, Body.helpers, Labels.skip_skip,
      Definitions.addAll]
  · simp [absorb, called, append, appendAll, Body.flat, Body.branches, Body.helpers, Labels.skip_skip,
      Definitions.addAll, appendTo_append]

theorem absorb_called_ifElse (draft : Draft) (ifBody elseBody rest : Body) :
    (draft.called (1 + ifBody.branches + elseBody.branches)
      (ifBody.helpers (draft.labels.skip 1) ++ elseBody.helpers (draft.labels.skip (1 + ifBody.branches)))
      (.conditional (ifBody.flat (draft.labels.skip 1))
        (elseBody.flat (draft.labels.skip (1 + ifBody.branches))))).absorb rest =
          draft.absorb (.ifElse ifBody elseBody rest) := by
  obtain ⟨labels, base, name, body, _ | ⟨conditional, opened⟩, completed⟩ := draft
  · simp [absorb, called, append, appendAll, Body.flat, Body.branches, Body.helpers, Labels.skip_skip,
      Definitions.addAll]
  · simp [absorb, called, append, appendAll, Body.flat, Body.branches, Body.helpers, Labels.skip_skip,
      Definitions.addAll, appendTo_append]

/-- A draft takes every spelling of a body. -/
theorem pushAll_spelled {body : Body} {tokens : List Token} (spelled : Body.Spelled body tokens)
    {draft : Draft} (collects : draft.Collects) : draft.pushAll tokens = .ok (draft.absorb body) := by
  induction spelled generalizing draft with
  | done =>
      obtain ⟨labels, base, name, body, _ | ⟨⟨label, ifBody, elseBody, _ | _, closed⟩, opened⟩, completed⟩ := draft
      · simp [pushAll, absorb, appendAll, Body.flat, Body.branches, Body.helpers, Definitions.addAll,
          Labels.skip_zero]
      · simp [pushAll, absorb, appendAll, Body.flat, Body.branches, Body.helpers, Definitions.addAll,
          Labels.skip_zero, appendTo]
      · simp [pushAll, absorb, appendAll, Body.flat, Body.branches, Body.helpers, Definitions.addAll,
          Labels.skip_zero, appendTo]
  | @token plain rest restTokens noMark _ ihRest =>
      have pushed : draft.push plain = .ok (draft.append plain) := by
        simp only [push, noMark, takePlain]
        split
        next nothingOpen noName => simp [Collects, nothingOpen, noName] at collects
        next => rfl
      simp only [pushAll, pushed, ihRest (collects.append plain), absorb_append]
  | @ifThen ifBody rest ifTokens restTokens ifToken thenToken ifMark thenMark _ _ ihIf ihRest =>
      have inside : draft.begin.Collects := .inl (List.cons_ne_nil _ _)
      have closes : (draft.begin.absorb ifBody).push thenToken =
          .ok (draft.called (1 + ifBody.branches) (ifBody.helpers (draft.labels.skip 1))
            (.conditional (ifBody.flat (draft.labels.skip 1)) [])) := by
        rw [push_then (draft.begin.absorb ifBody) thenMark rfl collects, called,
          ← Labels.afterConditional_skip]
        rfl
      simp only [pushAll, push_if draft ifMark, pushAll_append, ihIf inside, closes,
        ihRest (collects.called _ _ _), absorb_called_ifThen]
  | @ifElse ifBody elseBody rest ifTokens elseTokens restTokens ifToken elseToken thenToken ifMark elseMark
      thenMark _ _ _ ihIf ihElse ihRest =>
      have inside : draft.begin.Collects := .inl (List.cons_ne_nil _ _)
      let turned : Draft := { draft.begin.absorb ifBody with
        opened :=
          { label := draft.labels.nextConditional
            ifBody := ifBody.flat (draft.labels.skip 1)
            branch := .elseBranch } :: draft.opened }
      have turns : (draft.begin.absorb ifBody).push elseToken = .ok turned :=
        push_else (draft.begin.absorb ifBody) elseMark rfl rfl
      have stillInside : turned.Collects := .inl (List.cons_ne_nil _ _)
      have closes : (turned.absorb elseBody).push thenToken =
          .ok (draft.called (1 + ifBody.branches + elseBody.branches)
            (ifBody.helpers (draft.labels.skip 1) ++
              elseBody.helpers (draft.labels.skip (1 + ifBody.branches)))
            (.conditional (ifBody.flat (draft.labels.skip 1))
              (elseBody.flat (draft.labels.skip (1 + ifBody.branches))))) := by
        rw [push_then (turned.absorb elseBody) thenMark rfl collects, called, Definitions.addAll_append,
          ← Labels.skip_skip, ← Labels.afterConditional_skip]
        rfl
      simp only [pushAll, push_if draft ifMark, pushAll_append, ihIf inside, turns, ihElse stillInside, closes,
        ihRest (collects.called _ _ _), absorb_called_ifElse]

end Draft

end Forth

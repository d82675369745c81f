import Forth.Proofs.Acceptance
import Forth.Proofs.Draws
import Forth.Proofs.Marks
import Forth.Proofs.Reachability
import Mathlib.Data.List.Nodup

/-! The words of a session can be turned back into its tokens. Every conditional stands under the label
drawn at its `if` and is called at one place; replacing each label by the tokens of its conditional gives
the source again, up to the case of the marks and to an `else` that has nothing behind it. -/

namespace Forth

open Body (Spelled)
open Nesting (occurrences)

/-- A mark in lower case, and any other token as it is. -/
def Token.tidied (token : Token) : Token := if token.mark?.isSome then token.lowerCase else token

/-- The tokens without what a session forgets: the case of the marks, and an `else` that has nothing
behind it. -/
def tidy : List Token → List Token
  | [] => []
  | [token] => [token.tidied]
  | token :: next :: rest =>
      if token.mark? = some .elseMark ∧ next.mark? = some .thenMark then tidy (next :: rest)
      else token.tidied :: tidy (next :: rest)

namespace Definitions

/-- What a token stands for: the tokens of a conditional if it is the label of one, and itself
otherwise. Labels inside are replaced in turn; there is no answer if they are nested deeper than the
fuel. -/
def expand (definitions : Definitions) : Nat → Token → Option (List Token)
  | 0, _ => none
  | fuel + 1, token =>
      match definitions[token]? with
      | some (.conditional ifBody elseBody) =>
          (ifBody.mapM (expand definitions fuel)).bind fun ifPart =>
            (elseBody.mapM (expand definitions fuel)).map fun elsePart =>
              "if" :: (ifPart.flatten ++
                ((if elseBody = [] then [] else "else" :: elsePart.flatten) ++ ["then"]))
      | _ => some [token]

def expandAll (definitions : Definitions) (fuel : Nat) (tokens : List Token) : Option (List Token) :=
  (tokens.mapM (definitions.expand fuel)).map List.flatten

/-- All tokens in the bodies and branches of the words. -/
def references (definitions : Definitions) : List Token :=
  definitions.toList.flatMap fun entry => entry.2.tokens

variable {definitions : Definitions} {fuel : Nat} {token : Token} {tokens front back : List Token}

theorem expandAll_nil : definitions.expandAll fuel [] = some [] := rfl

theorem expandAll_cons (first : definitions.expand fuel token = some front)
    (rest : definitions.expandAll fuel tokens = some back) :
    definitions.expandAll fuel (token :: tokens) = some (front ++ back) := by
  obtain ⟨parts, expanded, rfl⟩ := Option.map_eq_some_iff.mp rest
  simp only [expandAll, List.mapM_cons, first, expanded]
  rfl

theorem expand_conditional {ifBody elseBody : List Token}
    (found : definitions[token]? = some (.conditional ifBody elseBody))
    (ifExpands : definitions.expandAll fuel ifBody = some front)
    (elseExpands : definitions.expandAll fuel elseBody = some back) :
    definitions.expand (fuel + 1) token =
      some ("if" :: (front ++ ((if elseBody = [] then [] else "else" :: back) ++ ["then"]))) := by
  obtain ⟨ifPart, expandedIf, rfl⟩ := Option.map_eq_some_iff.mp ifExpands
  obtain ⟨elsePart, expandedElse, rfl⟩ := Option.map_eq_some_iff.mp elseExpands
  simp only [expand, found, expandedIf, expandedElse, Option.bind_some, Option.map_some]

theorem expand_other (other : ∀ ifBody elseBody, definitions[token]? ≠ some (.conditional ifBody elseBody)) :
    definitions.expand (fuel + 1) token = some [token] := by
  rw [expand]
  split
  next found => exact absurd found (other _ _)
  next => rfl

end Definitions

theorem Action.tokens_conditional (ifBody elseBody : List Token) :
    (Action.conditional ifBody elseBody).tokens = ifBody ++ elseBody := rfl

section Tidying

variable {token next : Token} {tokens : List Token}

theorem Token.tidied_of_mark {mark : Mark} (isMark : token.mark? = some mark) : token.tidied = mark.text := by
  rw [tidied, isMark, Option.isSome_some, if_pos rfl, lowerCase_of_mark isMark]

theorem Token.tidied_of_plain (plain : token.mark? = none) : token.tidied = token := by
  rw [tidied, plain, Option.isSome_none, if_neg Bool.false_ne_true]

/-- Only an `else` is ever left out. -/
theorem tidy_cons (noElse : token.mark? ≠ some .elseMark) (tokens : List Token) :
    tidy (token :: tokens) = token.tidied :: tidy tokens := by
  cases tokens with
  | nil => rfl
  | cons next rest => rw [tidy, if_neg fun both => noElse both.1]

theorem tidy_else_then (elseMark : token.mark? = some .elseMark) (thenMark : next.mark? = some .thenMark)
    (tokens : List Token) : tidy (token :: next :: tokens) = tidy (next :: tokens) := by
  rw [tidy, if_pos ⟨elseMark, thenMark⟩]

theorem tidy_else_other (elseMark : token.mark? = some .elseMark) (noThen : next.mark? ≠ some .thenMark)
    (tokens : List Token) : tidy (token :: next :: tokens) = "else" :: tidy (next :: tokens) := by
  rw [tidy, if_neg fun both => noThen both.2, Token.tidied_of_mark elseMark, Mark.text]

end Tidying

namespace Body

/-- The usual spelling without an `else` that has nothing behind it. -/
def tidied : Body → List Token
  | .done => []
  | .token plain rest => plain :: rest.tidied
  | .ifThen ifBody rest => "if" :: (ifBody.tidied ++ "then" :: rest.tidied)
  | .ifElse ifBody elseBody rest =>
      "if" :: (ifBody.tidied ++
        ((if elseBody = .done then [] else "else" :: elseBody.tidied) ++ "then" :: rest.tidied))

/-- The tokens of a body outside its branch marks. -/
def plains : Body → List Token
  | .done => []
  | .token plain rest => plain :: rest.plains
  | .ifThen ifBody rest => ifBody.plains ++ rest.plains
  | .ifElse ifBody elseBody rest => ifBody.plains ++ (elseBody.plains ++ rest.plains)

theorem Spelled.plains_subset {body : Body} {tokens : List Token} (spelled : Spelled body tokens) :
    body.plains ⊆ tokens := by
  induction spelled with
  | done => exact List.Subset.refl _
  | token _ _ ihRest => exact List.cons_subset_cons _ ihRest
  | ifThen _ _ _ _ ihIf ihRest => simp only [plains]; grind
  | ifElse _ _ _ _ _ _ ihIf ihElse ihRest => simp only [plains]; grind

/-- A spelling that is not empty starts with a plain token or an `if`. -/
theorem Spelled.head {body : Body} {tokens : List Token} (spelled : Spelled body tokens) (notDone : body ≠ .done) :
    ∃ first rest, tokens = first :: rest ∧ first.mark? ≠ some .thenMark := by
  cases spelled with
  | done => exact absurd rfl notDone
  | token noMark _ => exact ⟨_, _, rfl, by simp [noMark]⟩
  | ifThen ifMark _ _ _ => exact ⟨_, _, rfl, by simp [ifMark]⟩
  | ifElse ifMark _ _ _ _ _ => exact ⟨_, _, rfl, by simp [ifMark]⟩

theorem Spelled.tidy_append {body : Body} {tokens : List Token} (spelled : Spelled body tokens)
    (later : List Token) : tidy (tokens ++ later) = body.tidied ++ tidy later := by
  induction spelled generalizing later with
  | done => rfl
  | token noMark _ ihRest =>
      rw [List.cons_append, tidy_cons (by simp [noMark]), Token.tidied_of_plain noMark, ihRest]
      rfl
  | ifThen ifMark thenMark _ _ ihIf ihRest =>
      rw [List.cons_append, tidy_cons (by simp [ifMark]), Token.tidied_of_mark ifMark, List.append_assoc, ihIf,
        List.cons_append, tidy_cons (by simp [thenMark]), Token.tidied_of_mark thenMark, ihRest]
      simp [tidied, Mark.text]
  | @ifElse ifBody elseBody rest ifTokens elseTokens restTokens ifToken elseToken thenToken ifMark elseMark
      thenMark _ elseSpelled _ ihIf ihElse ihRest =>
      have closes : tidy (thenToken :: (restTokens ++ later)) = "then" :: (rest.tidied ++ tidy later) := by
        rw [tidy_cons (by simp [thenMark]), Token.tidied_of_mark thenMark, ihRest]
        rfl
      rw [List.cons_append, tidy_cons (by simp [ifMark]), Token.tidied_of_mark ifMark, List.append_assoc, ihIf,
        List.cons_append, List.append_assoc, List.cons_append]
      by_cases nothing : elseBody = .done
      · subst nothing
        cases elseSpelled
        rw [List.nil_append, tidy_else_then elseMark thenMark, closes]
        simp [tidied, Mark.text]
      · obtain ⟨first, others, rfl, noThen⟩ := elseSpelled.head nothing
        have inside := ihElse (thenToken :: (restTokens ++ later))
        rw [List.cons_append] at inside ⊢
        rw [tidy_else_other elseMark noThen, inside, closes]
        simp [tidied, Mark.text, nothing]

theorem Spelled.tidy_eq {body : Body} {tokens : List Token} (spelled : Spelled body tokens) :
    tidy tokens = body.tidied := by
  have alone := spelled.tidy_append []
  rwa [List.append_nil, tidy, List.append_nil] at alone

theorem flat_eq_nil (body : Body) (labels : Labels) : body.flat labels = [] ↔ body = .done := by
  cases body <;> simp [flat]

/-- The flat code of a body stands for the body, wherever its conditionals are at hand and its own tokens
are no labels. -/
theorem expandAll_flat {definitions : Definitions} (body : Body) {labels : Labels} {fuel : Nat}
    (there : ∀ label action, (label, action) ∈ body.helpers labels → definitions[label]? = some action)
    (noLabels : ∀ plain ∈ body.plains, ∀ ifBody elseBody,
      definitions[plain]? ≠ some (.conditional ifBody elseBody))
    (enough : body.branches < fuel) : definitions.expandAll fuel (body.flat labels) = some body.tidied := by
  -- The fuel is generalized: a branch is expanded with one less than the body around it.
  induction body generalizing labels fuel with
  | done => rfl
  | token plain rest ihRest =>
      simp only [plains, List.forall_mem_cons] at noLabels
      obtain ⟨left, rfl⟩ := Nat.exists_eq_add_one_of_ne_zero (Nat.ne_zero_of_lt enough)
      exact Definitions.expandAll_cons (Definitions.expand_other noLabels.1) (ihRest there noLabels.2 enough)
  | ifThen ifBody rest ihIf ihRest =>
      simp only [plains, List.forall_mem_append] at noLabels
      simp only [helpers, List.mem_append, List.mem_cons] at there
      simp only [branches] at enough
      obtain ⟨left, rfl⟩ := Nat.exists_eq_add_one_of_ne_zero (Nat.ne_zero_of_lt enough)
      have found := there _ _ (.inr (.inl rfl))
      have inIf := ihIf (fun label action member => there label action (.inl member)) noLabels.1
        (by omega : ifBody.branches < left)
      have inRest := ihRest (fun label action member => there label action (.inr (.inr member))) noLabels.2
        (by omega : rest.branches < left + 1)
      rw [flat, Definitions.expandAll_cons (Definitions.expand_conditional found inIf Definitions.expandAll_nil) inRest]
      simp [tidied]
  | ifElse ifBody elseBody rest ihIf ihElse ihRest =>
      simp only [plains, List.forall_mem_append] at noLabels
      simp only [helpers, List.mem_append, List.mem_cons] at there
      simp only [branches] at enough
      obtain ⟨left, rfl⟩ := Nat.exists_eq_add_one_of_ne_zero (Nat.ne_zero_of_lt enough)
      have found := there _ _ (.inr (.inr (.inl rfl)))
      have inIf := ihIf (fun label action member => there label action (.inl member)) noLabels.1
        (by omega : ifBody.branches < left)
      have inElse := ihElse (fun label action member => there label action (.inr (.inl member))) noLabels.2.1
        (by omega : elseBody.branches < left)
      have inRest := ihRest (fun label action member => there label action (.inr (.inr (.inr member)))) noLabels.2.2
        (by omega : rest.branches < left + 1)
      rw [flat, Definitions.expandAll_cons (Definitions.expand_conditional found inIf inElse) inRest]
      simp [tidied, flat_eq_nil]

/-- The flat code and the branches of the conditionals hold the tokens of the body, and every label
once. -/
theorem count_flat (body : Body) (labels : Labels) (token : Token) :
    (body.flat labels).count token + ((body.helpers labels).flatMap fun entry => entry.2.tokens).count token =
      body.plains.count token + (labels.upcoming body.branches).count token := by
  induction body generalizing labels with
  | done => rfl
  | token plain rest ihRest =>
      have counted := ihRest labels
      simp only [flat, helpers, plains, branches, List.count_cons]
      omega
  | ifThen ifBody rest ihIf ihRest =>
      have inIf := ihIf (labels.skip 1)
      have inRest := ihRest (labels.skip (1 + ifBody.branches))
      simp only [flat, helpers, plains, branches, List.flatMap_append, List.flatMap_cons, Action.tokens_conditional,
        Labels.upcoming_add, Labels.upcoming, List.count_append, List.count_cons, List.count_nil]
      omega
  | ifElse ifBody elseBody rest ihIf ihElse ihRest =>
      have inIf := ihIf (labels.skip 1)
      have inElse := ihElse (labels.skip (1 + ifBody.branches))
      have inRest := ihRest (labels.skip (1 + ifBody.branches + elseBody.branches))
      simp only [flat, helpers, plains, branches, List.flatMap_append, List.flatMap_cons, Action.tokens_conditional,
        Labels.upcoming_add, Labels.upcoming, List.count_append, List.count_cons, List.count_nil]
      omega

/-- The conditional that an `if` opens: it goes up to the first `then` that closes it, and its words are
among those of the body, under the labels from the one that is next at that `if`. -/
def OpensAt (body : Body) (front : List Token) (token : Token) (back : List Token) : Prop :=
  ∃ block inside thenToken rest, back = inside ++ thenToken :: rest ∧ thenToken.mark? = some .thenMark ∧
    Nesting.Inside inside ∧ Spelled block (token :: (inside ++ [thenToken])) ∧
    (∀ labels, block.flat labels = [labels.nextConditional]) ∧
    ∀ labels, block.helpers (labels.skip (occurrences .ifMark front)) ⊆ body.helpers labels

/-- A conditional in a part of a body is one of the body. -/
theorem OpensAt.of_part {part body : Body} {front lead back : List Token} {token : Token} {count : Nat}
    (opens : part.OpensAt lead token back) (later : List Token)
    (partOf : ∀ labels, part.helpers (labels.skip count) ⊆ body.helpers labels)
    (counted : occurrences .ifMark front = count + occurrences .ifMark lead) :
    body.OpensAt front token (back ++ later) := by
  obtain ⟨block, inside, thenToken, rest, rfl, thenMark, isInside, spelled, single, among⟩ := opens
  refine ⟨block, inside, thenToken, rest ++ later, ?_, thenMark, isInside, spelled, single, ?_⟩
  · rw [List.append_assoc, List.cons_append]
  · intro labels
    rw [counted, ← Labels.skip_skip]
    exact List.Subset.trans (among (labels.skip count)) (partOf labels)

end Body

/-- A token of two lists in a row is in one of them. -/
theorem append_eq_split {α : Type} {first second front back : List α} {item : α}
    (splits : first ++ second = front ++ item :: back) :
    (∃ rest, first = front ++ item :: rest ∧ back = rest ++ second) ∨
      ∃ lead, front = first ++ lead ∧ second = lead ++ item :: back := by
  rcases List.append_eq_append_iff.mp splits with ⟨lead, rfl, rfl⟩ | ⟨tail, rfl, found⟩
  · exact .inr ⟨lead, rfl, rfl⟩
  · cases tail with
    | nil => exact .inr ⟨[], by simp, by simpa using found.symm⟩
    | cons other rest =>
        cases found
        exact .inl ⟨rest, rfl, rfl⟩

theorem cons_eq_split {α : Type} {first item : α} {second front back : List α} (apart : first ≠ item)
    (splits : first :: second = front ++ item :: back) :
    ∃ lead, front = first :: lead ∧ second = lead ++ item :: back := by
  cases front with
  | nil => exact absurd (List.cons.inj splits).1 apart
  | cons other lead =>
      obtain ⟨rfl, rest⟩ := List.cons.inj splits
      exact ⟨lead, rfl, rest⟩

/-- Every `if` of a spelling opens a conditional of the body. -/
theorem Body.Spelled.opensAt {body : Body} {tokens front back : List Token} {token : Token}
    (spelled : Spelled body tokens) (splits : tokens = front ++ token :: back)
    (isIf : token.mark? = some .ifMark) : body.OpensAt front token back := by
  have apart {other : Token} (otherMark : other.mark? ≠ some .ifMark) : other ≠ token := by
    rintro rfl
    exact otherMark isIf
  induction spelled generalizing front back with
  | done => simp at splits
  | @token plain rest restTokens noMark _ ihRest =>
      obtain ⟨lead, rfl, later⟩ := cons_eq_split (apart (by simp [noMark])) splits
      have counted : occurrences .ifMark (plain :: lead) = 0 + occurrences .ifMark lead := by
        simp [Nesting.occurrences_cons, noMark]
      have opens : OpensAt (.token plain rest) (plain :: lead) token (back ++ []) :=
        (ihRest later).of_part [] (fun _ => List.Subset.refl _) counted
      rwa [List.append_nil] at opens
  | @ifThen ifBody rest ifTokens restTokens ifToken thenToken ifMark thenMark ifSpelled _ ihIf ihRest =>
      cases front with
      | nil =>
          cases splits
          exact ⟨.ifThen ifBody .done, ifTokens, thenToken, restTokens, rfl, thenMark,
            Nesting.inside_ifThen ifSpelled, .ifThen ifMark thenMark ifSpelled .done, fun _ => rfl,
            fun _ => by simp [helpers, Nesting.occurrences, Labels.skip_zero]⟩
      | cons first lead =>
          obtain ⟨rfl, later⟩ := List.cons.inj splits
          rcases append_eq_split later with ⟨others, inIf, rfl⟩ | ⟨others, rfl, behind⟩
          · have counted : occurrences .ifMark (ifToken :: lead) = 1 + occurrences .ifMark lead := by
              simp [Nesting.occurrences_cons, ifMark, Nat.add_comm]
            exact (ihIf inIf).of_part _ (fun _ => List.subset_append_left _ _) counted
          · obtain ⟨others, rfl, inRest⟩ := cons_eq_split (apart (by simp [thenMark])) behind
            have counted : occurrences .ifMark (ifToken :: (ifTokens ++ thenToken :: others)) =
                1 + ifBody.branches + occurrences .ifMark others := by
              simp only [Nesting.occurrences_cons, Nesting.occurrences_append, ifSpelled.occurrences_if, ifMark,
                thenMark, Option.some.injEq, reduceCtorEq, if_false, if_true]
              omega
            have opens : OpensAt (.ifThen ifBody rest) _ token (back ++ []) :=
              (ihRest inRest).of_part []
                (fun _ => List.subset_append_of_subset_right _ (List.subset_cons_self _ _)) counted
            rwa [List.append_nil] at opens
  | @ifElse ifBody elseBody rest ifTokens elseTokens restTokens ifToken elseToken thenToken ifMark elseMark
      thenMark ifSpelled elseSpelled _ ihIf ihElse ihRest =>
      cases front with
      | nil =>
          cases splits
          refine ⟨.ifElse ifBody elseBody .done, ifTokens ++ elseToken :: elseTokens, thenToken, restTokens, by simp,
            thenMark, Nesting.inside_ifElse ifSpelled elseMark elseSpelled, ?_, fun _ => rfl, ?_⟩
          · simpa using Spelled.ifElse ifMark elseMark thenMark ifSpelled elseSpelled .done
          · intro labels
            simp [helpers, Nesting.occurrences, Labels.skip_zero]
      | cons first lead =>
          obtain ⟨rfl, later⟩ := List.cons.inj splits
          rcases append_eq_split later with ⟨others, inIf, rfl⟩ | ⟨others, rfl, behind⟩
          · have counted : occurrences .ifMark (ifToken :: lead) = 1 + occurrences .ifMark lead := by
              simp [Nesting.occurrences_cons, ifMark, Nat.add_comm]
            exact (ihIf inIf).of_part _ (fun _ => List.subset_append_left _ _) counted
          · obtain ⟨others, rfl, behindElse⟩ := cons_eq_split (apart (by simp [elseMark])) behind
            rcases append_eq_split behindElse with ⟨tail, inElse, rfl⟩ | ⟨tail, rfl, behindBoth⟩
            · have counted : occurrences .ifMark (ifToken :: (ifTokens ++ elseToken :: others)) =
                  1 + ifBody.branches + occurrences .ifMark others := by
                simp only [Nesting.occurrences_cons, Nesting.occurrences_append, ifSpelled.occurrences_if, ifMark,
                  elseMark, Option.some.injEq, reduceCtorEq, if_false, if_true]
                omega
              exact (ihElse inElse).of_part _
                (fun _ => List.subset_append_of_subset_right _ (List.subset_append_left _ _)) counted
            · obtain ⟨tail, rfl, inRest⟩ := cons_eq_split (apart (by simp [thenMark])) behindBoth
              have counted : occurrences .ifMark
                  (ifToken :: (ifTokens ++ elseToken :: (elseTokens ++ thenToken :: tail))) =
                    1 + ifBody.branches + elseBody.branches + occurrences .ifMark tail := by
                simp only [Nesting.occurrences_cons, Nesting.occurrences_append, ifSpelled.occurrences_if,
                  elseSpelled.occurrences_if, ifMark, elseMark, thenMark, Option.some.injEq, reduceCtorEq, if_false,
                  if_true]
                omega
              have opens : OpensAt (.ifElse ifBody elseBody rest) _ token (back ++ []) :=
                (ihRest inRest).of_part [] (fun _ => List.subset_append_of_subset_right _
                  (List.subset_append_of_subset_right _ (List.subset_cons_self _ _))) counted
              rwa [List.append_nil] at opens

namespace Body

variable {body : Body} {labels : Labels} {name : String}

section Words

variable (distinct : (labels.upcoming body.branches).Nodup) (apart : name ∉ labels.upcoming body.branches)
include distinct apart

/-- The words of a definition are those of its conditionals and the one under its name. -/
theorem toList_definitions :
    (body.definitions labels name).toList.Perm ((name, .compiled (body.flat labels)) :: body.helpers labels) := by
  have names := body.helpers_labels labels
  have distinctNames : (((name, Action.compiled (body.flat labels)) :: body.helpers labels).map Prod.fst).Nodup :=
    List.nodup_cons.mpr ⟨fun member => apart (names.mem_iff.mp member), names.nodup_iff.mpr distinct⟩
  refine (List.perm_ext_iff_of_nodup (.of_map Prod.fst ?_) (.of_map Prod.fst distinctNames)).mpr ?_
  · rw [Std.ExtTreeMap.map_fst_toList_eq_keys]
    exact Std.ExtTreeMap.nodup_keys
  · intro ⟨label, action⟩
    rw [Std.ExtTreeMap.mem_toList_iff_getElem?_eq_some, getElem?_definitions, List.mem_cons, Prod.mk.injEq]
    by_cases own : name = label
    · subst own
      have noHelper : (name, action) ∉ body.helpers labels := fun member =>
        apart (names.mem_iff.mp (List.mem_map_of_mem member))
      simp [noHelper, eq_comm]
    · simp only [own, if_false, (Ne.symm own : label ≠ name), false_and, false_or]
      exact ⟨mem_helpers, getElem?_conditionals distinct⟩

theorem keys_definitions :
    (body.definitions labels name).keys.Perm (name :: labels.upcoming body.branches) := by
  rw [← Std.ExtTreeMap.map_fst_toList_eq_keys]
  exact ((toList_definitions distinct apart).map Prod.fst).trans ((body.helpers_labels labels).cons name)

theorem size_definitions : (body.definitions labels name).size = 1 + body.branches := by
  rw [← Std.ExtTreeMap.length_keys, (keys_definitions distinct apart).length_eq, List.length_cons,
    Labels.length_upcoming, Nat.add_comm]

theorem count_references (token : Token) :
    (body.definitions labels name).references.count token =
      body.plains.count token + (labels.upcoming body.branches).count token := by
  rw [← count_flat, Definitions.references, ((toList_definitions distinct apart).flatMap_right _).count_eq,
    List.flatMap_cons, List.count_append]
  rfl

theorem conditional_of_definitions {label : String} {ifBody elseBody : List Token}
    (found : (body.definitions labels name)[label]? = some (.conditional ifBody elseBody)) :
    label ∈ labels.upcoming body.branches := by
  rw [← Std.ExtTreeMap.mem_toList_iff_getElem?_eq_some, (toList_definitions distinct apart).mem_iff] at found
  rcases List.mem_cons.mp found with own | helper
  · cases own
  · exact (body.helpers_labels labels).mem_iff.mp (List.mem_map_of_mem helper)

theorem definitions_of_helpers {label : String} {action : Action} (member : (label, action) ∈ body.helpers labels) :
    (body.definitions labels name)[label]? = some action := by
  rw [← Std.ExtTreeMap.mem_toList_iff_getElem?_eq_some, (toList_definitions distinct apart).mem_iff]
  exact List.mem_cons_of_mem _ member

/-- There is a conditional under every label that is drawn for the definition. -/
theorem definitions_of_upcoming {label : String} (drawn : label ∈ labels.upcoming body.branches) :
    ∃ ifBody elseBody, (body.definitions labels name)[label]? = some (.conditional ifBody elseBody) := by
  obtain ⟨⟨label, action⟩, helper, sameLabel⟩ := List.mem_map.mp ((body.helpers_labels labels).mem_iff.mpr drawn)
  cases sameLabel
  have found := definitions_of_helpers distinct apart helper
  cases action with
  | primitive _ => cases isConditional_helpers helper
  | compiled _ => cases isConditional_helpers helper
  | conditional ifBody elseBody => exact ⟨ifBody, elseBody, found⟩

/-- With the words of a definition every part of its body can be read off its flat code. -/
theorem expandAll_part {part : Body} {later : Labels} {fuel : Nat}
    (among : part.helpers later ⊆ body.helpers labels)
    (unspelled : ∀ label ∈ labels.upcoming body.branches, label ∉ part.plains) (few : part.branches ≤ body.branches)
    (enough : (body.definitions labels name).size ≤ fuel) :
    (body.definitions labels name).expandAll fuel (part.flat later) = some part.tidied := by
  rw [size_definitions distinct apart] at enough
  apply part.expandAll_flat
  · intro label action member
    exact definitions_of_helpers distinct apart (among member)
  · intro plain inPart ifBody elseBody found
    exact unspelled plain (conditional_of_definitions distinct apart found) inPart
  · omega

/-- Every `if` of the source has its conditional, which stands for the tokens up to the `then` that closes
it. -/
theorem conditional_at {front back : List Token} {token : Token} (spelled : Spelled body (front ++ token :: back))
    (isIf : token.mark? = some .ifMark)
    (unspelled : ∀ label ∈ labels.upcoming body.branches, label ∉ front ++ token :: back) :
    ∃ ifBody elseBody inside thenToken rest,
      (body.definitions labels name)[(labels.skip (occurrences .ifMark front)).nextConditional]? =
        some (.conditional ifBody elseBody) ∧
      back = inside ++ thenToken :: rest ∧ thenToken.mark? = some .thenMark ∧ Nesting.Inside inside ∧
      ∀ fuel, (body.definitions labels name).size ≤ fuel →
        (body.definitions labels name).expandAll fuel [(labels.skip (occurrences .ifMark front)).nextConditional] =
          some (tidy (token :: (inside ++ [thenToken]))) := by
  obtain ⟨block, inside, thenToken, rest, rfl, thenMark, isInside, blockSpelled, single, among⟩ :=
    spelled.opensAt rfl isIf
  have part : token :: (inside ++ [thenToken]) <:+: front ++ token :: (inside ++ thenToken :: rest) :=
    ⟨front, rest, by simp⟩
  have counted := spelled.occurrences_if
  have within : block.branches ≤ body.branches := by
    rw [← counted, ← blockSpelled.occurrences_if]
    exact part.sublist.countP_le
  have drawn : (labels.skip (occurrences .ifMark front)).nextConditional ∈ labels.upcoming body.branches := by
    refine (Labels.mem_upcoming _ _ _).mpr ⟨occurrences .ifMark front, ?_, rfl⟩
    rw [Nesting.occurrences_append, Nesting.occurrences_cons, if_pos isIf] at counted
    omega
  obtain ⟨ifBody, elseBody, found⟩ := definitions_of_upcoming distinct apart drawn
  refine ⟨ifBody, elseBody, inside, thenToken, rest, found, rfl, thenMark, isInside, fun fuel enough => ?_⟩
  rw [blockSpelled.tidy_eq, ← single]
  exact expandAll_part distinct apart (among labels)
    (fun label member inPlains => unspelled label member (part.subset (blockSpelled.plains_subset inPlains)))
    within enough

end Words

end Body

namespace Opening

/-- The name of the word. An anonymous session has its own label for a name. -/
def label (opening : Opening) (labels : Labels) (tokens : List Token) : String :=
  match opening with
  | .named => tokens.headD ""
  | .anonymous => labels.nextDefinition

/-- The tokens of the body. -/
def source (opening : Opening) (tokens : List Token) : List Token :=
  match opening with
  | .named => tokens.tail
  | .anonymous => tokens

theorem session_labels (opening : Opening) (labels : Labels) :
    (opening.session labels).labels = labels.afterDefinition := by
  cases opening <;> rfl

theorem drawn_eq (opening : Opening) {labels : Labels} {tokens : List Token}
    (sound : ((opening.session labels).pushAll tokens).hasFailed = false) :
    Session.drawn labels ((opening.session labels).pushAll tokens) =
      labels.forSession (occurrences .ifMark tokens) := by
  rw [Session.drawn, Session.labels_pushAll_eq sound, session_labels]
  simp only [Labels.skip, Labels.afterDefinition, Nat.add_sub_cancel_left]

/-- A session that becomes words has taken a body, and its words are those of the body. -/
theorem definitions_of_complete (opening : Opening) {labels : Labels} {tokens : List Token}
    {definitions : Definitions} (distinct : (labels.forSession (occurrences .ifMark tokens)).Nodup)
    (drawn : Session.drawn labels ((opening.session labels).pushAll tokens) =
      labels.forSession (occurrences .ifMark tokens))
    (completes : ((opening.session labels).pushAll tokens).complete = .ok definitions) :
    ∃ body, opening.Grammar tokens ∧ Spelled body (opening.source tokens) ∧
      occurrences .ifMark tokens = body.branches ∧
      definitions = body.definitions labels.afterDefinition (opening.label labels tokens) := by
  have grammar := (opening.complete_iff labels tokens (drawn ▸ distinct)).mp ⟨definitions, completes⟩
  cases opening with
  | named =>
      have ⟨name, spelling, body, isList, isName, spelled⟩ := grammar
      subst isList
      have counted : occurrences .ifMark (name :: spelling) = body.branches := by
        simp [Nesting.occurrences_cons, Token.mark?_of_isName isName, spelled.occurrences_if]
      rw [counted] at distinct
      have collected : (Opening.named.session labels).pushAll (name :: spelling) = _ :=
        Session.named_spelled isName spelled distinct
      rw [collected, Draft.complete_named rfl rfl] at completes
      exact ⟨body, grammar, spelled, counted, (Except.ok.inj completes).symm⟩
  | anonymous =>
      have ⟨body, spelled⟩ := grammar
      have counted := spelled.occurrences_if
      rw [counted] at distinct
      have collected : (Opening.anonymous.session labels).pushAll tokens = _ :=
        Session.anonymous_spelled spelled distinct
      rw [collected, Draft.complete_named rfl rfl] at completes
      exact ⟨body, grammar, spelled, counted, (Except.ok.inj completes).symm⟩

theorem source_subset (opening : Opening) (tokens : List Token) : opening.source tokens ⊆ tokens := by
  cases opening with
  | named => exact (List.tail_sublist tokens).subset
  | anonymous => exact List.Subset.refl tokens

/-- The name of the word is no label of a conditional. -/
theorem label_apart {opening : Opening} {labels : Labels} {tokens : List Token} {count : Nat}
    (grammar : opening.Grammar tokens) (distinct : (labels.forSession count).Nodup)
    (unspelled : ∀ label ∈ labels.forSession count, label ∉ tokens) :
    opening.label labels tokens ∉ labels.afterDefinition.upcoming count := by
  cases opening with
  | named =>
      obtain ⟨name, spelling, _, rfl, _, _⟩ := grammar
      exact fun drawn => unspelled name (List.mem_cons_of_mem _ drawn) (List.mem_cons_self ..)
  | anonymous => exact (List.nodup_cons.mp distinct).1

/-- Every `if` stands in the body, behind as many others as before. -/
theorem source_split {opening : Opening} {tokens front back : List Token} {token : Token}
    (grammar : opening.Grammar tokens) (splits : tokens = front ++ token :: back)
    (isIf : token.mark? = some .ifMark) :
    ∃ lead, opening.source tokens = lead ++ token :: back ∧ occurrences .ifMark front = occurrences .ifMark lead := by
  cases opening with
  | named =>
      obtain ⟨name, spelling, _, rfl, isName, _⟩ := grammar
      have noMark := Token.mark?_of_isName isName
      have apart : name ≠ token := by
        rintro rfl
        rw [noMark] at isIf
        cases isIf
      obtain ⟨lead, rfl, inSpelling⟩ := cons_eq_split apart splits
      exact ⟨lead, inSpelling, by simp [Nesting.occurrences_cons, noMark]⟩
  | anonymous => exact ⟨front, splits, rfl⟩

theorem conditionalDrawn_pushAll (opening : Opening) {labels : Labels} {front back : List Token} {token : Token}
    (sound : ((opening.session labels).pushAll (front ++ token :: back)).hasFailed = false)
    (isIf : token.mark? = some .ifMark) :
    ((opening.session labels).pushAll front).conditionalDrawn token =
      some (labels.afterDefinition.skip (occurrences .ifMark front)).nextConditional := by
  have before := Session.hasFailed_of_append sound
  rw [Session.conditionalDrawn, if_pos ⟨before, isIf⟩, Session.labels_pushAll_eq before, session_labels]

end Opening

/-- The words of a session decompile to its source. There is one under the name and one for every `if`,
under the label drawn there, which is called at one place; and putting the conditionals back where they
are called gives the tokens again. So does putting back one conditional: it gives the tokens from its
`if` to the `then` that closes it. -/
theorem words_decompile (opening : Opening) (labels : Labels) (tokens : List Token) {definitions : Definitions}
    (distinct : (Session.drawn labels ((opening.session labels).pushAll tokens)).Nodup)
    (unspelled : ∀ label ∈ Session.drawn labels ((opening.session labels).pushAll tokens), label ∉ tokens)
    (completes : ((opening.session labels).pushAll tokens).complete = .ok definitions) :
    definitions.size = 1 + occurrences .ifMark tokens ∧
    definitions.keys.Perm
      (opening.label labels tokens :: labels.afterDefinition.upcoming (occurrences .ifMark tokens)) ∧
    (∃ body, definitions[opening.label labels tokens]? = some (.compiled body) ∧
      ∀ fuel, definitions.size ≤ fuel → definitions.expandAll fuel body = some (tidy (opening.source tokens))) ∧
    (∀ label ifBody elseBody, definitions[label]? = some (.conditional ifBody elseBody) →
      definitions.references.count label = 1) ∧
    ∀ front token back, tokens = front ++ token :: back → token.mark? = some .ifMark →
      ∃ label ifBody elseBody inside thenToken rest,
        ((opening.session labels).pushAll front).conditionalDrawn token = some label ∧
        (∀ stem, labels = .numbered stem → label = stem ++ "_" ++ toString (occurrences .ifMark front + 1)) ∧
        definitions[label]? = some (.conditional ifBody elseBody) ∧
        back = inside ++ thenToken :: rest ∧ thenToken.mark? = some .thenMark ∧ Nesting.Inside inside ∧
        ∀ fuel, definitions.size ≤ fuel →
          definitions.expandAll fuel [label] = some (tidy (token :: (inside ++ [thenToken]))) := by
  have sound := Session.hasFailed_of_complete completes
  have drawn := opening.drawn_eq sound
  rw [drawn] at distinct unspelled
  obtain ⟨body, grammar, spelled, counted, rfl⟩ := opening.definitions_of_complete distinct drawn completes
  rw [counted] at distinct unspelled ⊢
  have apart := Opening.label_apart grammar distinct unspelled
  have distinctUpcoming := (List.nodup_cons.mp distinct).2
  have unspelledBody : ∀ label ∈ labels.afterDefinition.upcoming body.branches, label ∉ opening.source tokens :=
    fun label member inSource => unspelled label (List.mem_cons_of_mem _ member) (opening.source_subset tokens inSource)
  have noPlain : ∀ label ∈ labels.afterDefinition.upcoming body.branches, label ∉ body.plains :=
    fun label member inPlains => unspelledBody label member (spelled.plains_subset inPlains)
  refine ⟨Body.size_definitions distinctUpcoming apart, Body.keys_definitions distinctUpcoming apart, ?_, ?_, ?_⟩
  · refine ⟨_, by rw [Body.getElem?_definitions, if_pos rfl], fun fuel enough => ?_⟩
    rw [spelled.tidy_eq]
    exact Body.expandAll_part distinctUpcoming apart (List.Subset.refl _) noPlain (Nat.le_refl _) enough
  · intro label ifBody elseBody found
    have drawnLabel := Body.conditional_of_definitions distinctUpcoming apart found
    have notPlain : body.plains.count label = 0 := List.count_eq_zero.mpr (noPlain label drawnLabel)
    rw [Body.count_references distinctUpcoming apart, notPlain, Nat.zero_add]
    exact List.count_eq_one_of_mem distinctUpcoming drawnLabel
  · rintro front token back rfl isIf
    obtain ⟨lead, inSource, sameCount⟩ := Opening.source_split grammar rfl isIf
    rw [inSource] at spelled unspelledBody
    obtain ⟨ifBody, elseBody, inside, thenToken, rest, found, closes⟩ :=
      Body.conditional_at distinctUpcoming apart spelled isIf unspelledBody
    rw [← sameCount] at found closes
    refine ⟨_, ifBody, elseBody, inside, thenToken, rest, opening.conditionalDrawn_pushAll sound isIf, ?_, found,
      closes⟩
    rintro stem rfl
    simp [Labels.nextConditional, Labels.skip, Labels.afterDefinition, Labels.numbered, Nat.add_comm]

/-- Branches inside of an `else`, marks in mixed case and an `else` with nothing behind it. -/
theorem words_decompile_nested :
    let tokens := ["pick", "IF", "1", "Else", "if", "2", "then", "3", "THEN", "if", "4", "else", "then"]
    let session := (Opening.named.session (.numbered "id")).pushAll tokens
    (Session.drawn (.numbered "id") session).Nodup ∧
    (∀ label ∈ Session.drawn (.numbered "id") session, label ∉ tokens) ∧
    ∃ definitions, session.complete = .ok definitions ∧ definitions.size = 4 ∧
      definitions.keys.Perm ["pick", "id_1", "id_2", "id_3"] ∧
      ∃ body, definitions["pick"]? = some (.compiled body) ∧ definitions.expandAll 4 body =
        some ["if", "1", "else", "if", "2", "then", "3", "then", "if", "4", "then"] := by
  intro tokens session
  have distinct : (Session.drawn (.numbered "id") session).Nodup := by decide +kernel
  have unspelled : ∀ label ∈ Session.drawn (.numbered "id") session, label ∉ tokens := by decide +kernel
  obtain ⟨definitions, completes⟩ : ∃ definitions, session.complete = .ok definitions := ⟨_, rfl⟩
  obtain ⟨size, keys, ⟨body, compiled, expands⟩, _, _⟩ :=
    words_decompile .named (.numbered "id") tokens distinct unspelled completes
  exact ⟨distinct, unspelled, definitions, completes, size, keys, body, compiled, expands 4 (Nat.le_of_eq size)⟩

end Forth

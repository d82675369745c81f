import Forth.Dictionary.Listing
import Forth.Proofs.Decompilation
import Mathlib.Data.List.Nodup
import Mathlib.Logic.Equiv.Basic

/-! Relabeling the words of a dictionary. If the words that are relabeled are hidden and called by names
that are known, a run with the relabeled dictionary goes through the same stacks, prints the same and fails
with the same fault, and neither the size nor the table of words shows the difference. -/

namespace Forth

/-- A relabeling under which numerals stand for themselves. -/
structure Relabeling extends String ≃ String where
  keepsNumeral : ∀ token, Number.ofNumeral? token ≠ none → toFun token = token

instance : CoeFun Relabeling fun _ => String → String := ⟨fun relabeling => relabeling.toEquiv⟩

namespace Relabeling

variable (relabeling : Relabeling)

theorem apply_numeral {token : Token} (numeral : Number.ofNumeral? token ≠ none) : relabeling token = token :=
  relabeling.keepsNumeral token numeral

theorem apply_eq_iff {first second : String} : relabeling first = relabeling second ↔ first = second :=
  relabeling.toEquiv.apply_eq_iff_eq

theorem ofNumeral?_apply (token : Token) : Number.ofNumeral? (relabeling token) = Number.ofNumeral? token := by
  by_cases numeral : Number.ofNumeral? token = none
  · by_cases image : Number.ofNumeral? (relabeling token) = none
    · rw [image, numeral]
    · have fixed := relabeling.apply_eq_iff.mp (relabeling.apply_numeral image)
      rw [fixed]
  · rw [relabeling.apply_numeral numeral]

theorem map_eq_self {tokens : List Token} (fixed : ∀ token ∈ tokens, relabeling token = token) :
    tokens.map relabeling = tokens := by
  calc tokens.map relabeling = tokens.map id := List.map_congr_left fixed
    _ = tokens := List.map_id tokens

theorem nodup_map {names : List String} (distinct : names.Nodup) : (names.map relabeling).Nodup :=
  distinct.map relabeling.toEquiv.injective

end Relabeling

def Primitive.relabel (relabeling : Relabeling) : Primitive → Primitive
  | .schedule tokens => .schedule (tokens.map relabeling)
  | primitive => primitive

def Action.relabel (relabeling : Relabeling) : Action → Action
  | .primitive kind => .primitive (kind.relabel relabeling)
  | .compiled body => .compiled (body.map relabeling)
  | .conditional ifBody elseBody => .conditional (ifBody.map relabeling) (elseBody.map relabeling)

def Machine.relabel (relabeling : Relabeling) (machine : Machine) : Machine :=
  { machine with agenda := machine.agenda.map relabeling }

def Step.relabel (relabeling : Relabeling) : Step → Step
  | .ended ending => .ended ending
  | .moved next => .moved (next.relabel relabeling)

namespace Action

variable {relabeling : Relabeling} {action : Action}

theorem isPrimitive_relabel : (action.relabel relabeling).isPrimitive = action.isPrimitive := by
  cases action <;> rfl

theorem isConditional_relabel : (action.relabel relabeling).isConditional = action.isConditional := by
  cases action <;> rfl

theorem relabel_eq_self (fixed : ∀ token ∈ action.tokens, relabeling token = token) :
    action.relabel relabeling = action := by
  cases action with
  | primitive kind =>
      cases kind with
      | schedule tokens =>
          have kept : tokens.map relabeling = tokens := relabeling.map_eq_self fixed
          simp only [relabel, Primitive.relabel, kept]
      | _ => rfl
  | compiled body =>
      have kept : body.map relabeling = body := relabeling.map_eq_self fixed
      simp only [relabel, kept]
  | conditional ifBody elseBody =>
      have inIf := relabeling.map_eq_self fun token member => fixed token (List.mem_append_left elseBody member)
      have inElse := relabeling.map_eq_self fun token member => fixed token (List.mem_append_right ifBody member)
      simp only [relabel, inIf, inElse]

end Action

/-- What a primitive schedules is relabeled with it: its own tokens are, and the rest are numerals. -/
theorem Primitive.apply_relabel (relabeling : Relabeling) (primitive : Primitive) {stack : Stack}
    (numeric : stack.Numeric) :
    (primitive.relabel relabeling).apply stack =
      (primitive.apply stack).map fun effect => { effect with scheduled := effect.scheduled.map relabeling } := by
  have alone (same : primitive.relabel relabeling = primitive) (noTokens : (Action.primitive primitive).tokens = []) :
      (primitive.relabel relabeling).apply stack =
        (primitive.apply stack).map fun effect => { effect with scheduled := effect.scheduled.map relabeling } := by
    rw [same]
    cases applied : primitive.apply stack with
    | error fault => rfl
    | ok effect =>
        have numerals : effect.scheduled.map relabeling = effect.scheduled := by
          apply relabeling.map_eq_self
          intro token member
          apply relabeling.apply_numeral
          intro noNumeral
          have own := (Primitive.apply_numeric numeric applied).2 token member noNumeral
          rw [noTokens] at own
          cases own
        simp only [Except.map, numerals]
  cases primitive with
  | schedule tokens => simp only [relabel, apply, Except.map, List.map_reverse]
  | _ => exact alone rfl rfl

/-- The second word is the first one relabeled, as far as one can tell: of a hidden word only the action
counts. -/
structure Word.Relabeled (relabeling : Relabeling) (first second : Word) : Prop where
  action : second.action = first.action.relabel relabeling
  visible : second.visible = first.visible
  shown : first.visible = true →
    second.name = first.name ∧ second.description = first.description ∧ second.signature = first.signature

namespace Dictionary

/-- The name is either kept by the relabeling or the name of a word, so a look-up that fails shows no new
name. -/
def Resolves (relabeling : Relabeling) (dictionary : Dictionary) (token : Token) : Prop :=
  relabeling token = token ∨ dictionary.find? token ≠ none

/-- The second dictionary holds the words of the first one relabeled. Visible words keep their names, and
no word calls an unknown name that is not kept. -/
structure Relabeled (relabeling : Relabeling) (first second : Dictionary) : Prop where
  words : ∀ name, Option.Rel (Word.Relabeled relabeling) (first.find? name) (second.find? (relabeling name))
  shown : ∀ name word, first.find? name = some word → word.visible = true → relabeling name = name
  closed : ∀ name word, first.find? name = some word → Covers (first.Resolves relabeling) word.action.tokens

variable {relabeling : Relabeling} {first second : Dictionary}

theorem Relabeled.find?_eq_none_iff (relabeled : first.Relabeled relabeling second) {name : String} :
    second.find? (relabeling name) = none ↔ first.find? name = none := by
  have related := relabeled.words name
  cases found : first.find? name with
  | none =>
      rw [found] at related
      cases other : second.find? (relabeling name) with
      | none => simp only
      | some word =>
          rw [other] at related
          cases related
  | some word =>
      rw [found] at related
      cases other : second.find? (relabeling name) with
      | none =>
          rw [other] at related
          cases related
      | some word => simp only [reduceCtorEq]

end Dictionary

namespace Machine

variable {relabeling : Relabeling} {first second : Dictionary} {machine : Machine}

theorem act_relabel (numeric : machine.stack.Numeric) (action : Action) (agenda : Agenda) :
    (machine.relabel relabeling).act (action.relabel relabeling) (agenda.map relabeling) =
      (machine.act action agenda).relabel relabeling := by
  cases action with
  | primitive primitive =>
      have sameStack : (machine.relabel relabeling).stack = machine.stack := rfl
      simp only [Action.relabel, act, applyPrimitive, sameStack, primitive.apply_relabel relabeling numeric]
      cases primitive.apply machine.stack with
      | error fault => rfl
      | ok effect =>
          simp only [Except.map, Step.relabel, relabel, Agenda.pushBody, List.map_append]
  | compiled body => simp only [Action.relabel, act, Step.relabel, relabel, Agenda.pushBody, List.map_append]
  | conditional ifBody elseBody =>
      have sameStack : (machine.relabel relabeling).stack = machine.stack := rfl
      simp only [Action.relabel, act, branch, sameStack]
      cases machine.stack.popValue with
      | error fault => rfl
      | ok popped =>
          simp only [Step.relabel, relabel, Agenda.pushBody, List.map_append]
          split <;> rfl

/-- One step of the relabeled machine is the step relabeled, and what it puts on the agenda resolves. -/
theorem step_relabel (relabeled : first.Relabeled relabeling second) (numeric : machine.stack.Numeric)
    (resolved : Covers (first.Resolves relabeling) machine.agenda) :
    (machine.relabel relabeling).step second = (machine.step first).relabel relabeling ∧
      ∀ next, machine.step first = .moved next → Covers (first.Resolves relabeling) next.agenda := by
  obtain ⟨stack, agenda, printed⟩ := machine
  cases agenda with
  | nil =>
      refine ⟨rfl, ?_⟩
      intro next moves
      cases moves
  | cons token agenda =>
      have later : Covers (first.Resolves relabeling) agenda :=
        fun other member => resolved other (List.mem_cons_of_mem token member)
      simp only [relabel, step, List.map_cons, executeToken, relabeling.ofNumeral?_apply]
      cases numeral : Number.ofNumeral? token with
      | some number =>
          refine ⟨rfl, ?_⟩
          intro next moves
          cases moves
          exact later
      | none =>
          have related := relabeled.words token
          cases found : first.find? token with
          | none =>
              have kept : relabeling token = token :=
                (resolved token (List.mem_cons_self ..) numeral).resolve_right (absurd found)
              rw [relabeled.find?_eq_none_iff.mpr found, kept]
              refine ⟨rfl, ?_⟩
              intro next moves
              cases moves
          | some word =>
              rw [found] at related
              generalize second.find? (relabeling token) = image at related
              cases related with
              | some related =>
                  simp only [related.action]
                  refine ⟨act_relabel numeric word.action agenda, ?_⟩
                  intro next moves
                  exact act_covers numeric (relabeled.closed token word found) later moves

theorem run_relabel (relabeled : first.Relabeled relabeling second) (fuel : Nat) (numeric : machine.stack.Numeric)
    (resolved : Covers (first.Resolves relabeling) machine.agenda) :
    run second fuel (machine.relabel relabeling) = run first fuel machine := by
  induction fuel generalizing machine with
  | zero => rfl
  | succ fuel ih =>
      obtain ⟨same, staysResolved⟩ := step_relabel relabeled numeric resolved
      have kept := step_numeric first numeric
      simp only [run]
      rw [same]
      cases moved : machine.step first with
      | ended ending => rfl
      | moved next =>
          rw [moved] at kept
          exact ih kept (staysResolved next moved)

/-- A run with the relabeled dictionary can not be told from the run itself. -/
theorem runTokens_relabel (relabeled : first.Relabeled relabeling second) (fuel : Nat) {stack : Stack}
    (numeric : stack.Numeric) {tokens : List Token} (resolved : Covers (first.Resolves relabeling) tokens) :
    runTokens second fuel stack (tokens.map relabeling) = runTokens first fuel stack tokens :=
  @run_relabel relabeling first second ⟨stack, tokens, ""⟩ relabeled fuel numeric resolved

end Machine

namespace Dictionary

variable {relabeling : Relabeling} {first second : Dictionary}

/-- A dictionary in which nothing is renamed. -/
theorem relabeled_self {dictionary : Dictionary}
    (kept : ∀ name word, dictionary.find? name = some word →
      relabeling name = name ∧ ∀ token ∈ word.action.tokens, relabeling token = token) :
    dictionary.Relabeled relabeling dictionary where
  words name := by
    cases found : dictionary.find? name with
    | none =>
        cases image : dictionary.find? (relabeling name) with
        | none => exact .none
        | some word =>
            have same := relabeling.apply_eq_iff.mp (kept _ word image).1
            rw [same, found] at image
            cases image
    | some word =>
        rw [(kept name word found).1, found]
        exact .some ⟨(Action.relabel_eq_self (kept name word found).2).symm, rfl, fun _ => ⟨rfl, rfl, rfl⟩⟩
  shown name word found _ := (kept name word found).1
  closed name word found token member _ := .inl ((kept name word found).2 token member)

/-- There are as many words after the renaming as before. -/
theorem Relabeled.size_eq (relabeled : first.Relabeled relabeling second) : second.size = first.size := by
  have distinct : (first.entries.keys.map relabeling).Nodup := relabeling.nodup_map Std.ExtTreeMap.nodup_keys
  have images : second.entries.keys.Perm (first.entries.keys.map relabeling) := by
    refine (List.perm_ext_iff_of_nodup Std.ExtTreeMap.nodup_keys distinct).mpr fun image => ?_
    obtain ⟨name, rfl⟩ := relabeling.toEquiv.surjective image
    have known : second.find? (relabeling name) ≠ none ↔ first.find? name ≠ none :=
      not_congr relabeled.find?_eq_none_iff
    simp only [find?, ← Option.isSome_iff_ne_none, ← Std.ExtTreeMap.mem_iff_isSome_getElem?] at known
    simp only [Std.ExtTreeMap.mem_keys, List.mem_map]
    constructor
    · intro member
      exact ⟨name, known.mp member, rfl⟩
    · rintro ⟨other, member, same⟩
      rw [relabeling.apply_eq_iff] at same
      exact known.mpr (same ▸ member)
  rw [size, size, ← Std.ExtTreeMap.length_keys, images.length_eq, List.length_map, Std.ExtTreeMap.length_keys]

/-- A word as the table shows it: of its action only the kind is told. -/
def face (word : Word) : Word :=
  { word with action := if word.action.isPrimitive then .primitive .duplicate else .compiled [] }

theorem row_face (width : Nat) (word : Word) : row width (face word) = row width word := by
  simp only [row, kindText, face]
  split <;> rfl

/-- The visible words by name, as the table shows them. -/
def faces (dictionary : Dictionary) : List (String × Word) :=
  (dictionary.entries.toList.filter fun entry => entry.2.visible).map fun entry => (entry.1, face entry.2)

theorem mem_faces (dictionary : Dictionary) (name : String) (shown : Word) :
    (name, shown) ∈ dictionary.faces ↔
      ∃ word, dictionary.find? name = some word ∧ word.visible = true ∧ face word = shown := by
  simp only [faces, List.mem_map, List.mem_filter, Prod.exists, Std.ExtTreeMap.mem_toList_iff_getElem?_eq_some,
    Prod.mk.injEq, find?]
  constructor
  · rintro ⟨key, word, ⟨found, visible⟩, rfl, rfl⟩
    exact ⟨word, found, visible, rfl⟩
  · rintro ⟨word, found, visible, rfl⟩
    exact ⟨name, word, ⟨found, visible⟩, rfl, rfl⟩

theorem listing_eq (dictionary : Dictionary) :
    dictionary.listing =
      toString (dictionary.faces.map Prod.snd).length ++ " words defined.\n\n" ++
        String.join ((dictionary.faces.map Prod.snd).map (row (nameWidth (dictionary.faces.map Prod.snd)))) := by
  have faces : dictionary.faces.map Prod.snd = dictionary.visibleWords.map face := by
    simp only [faces, visibleWords, words, List.filter_map, List.map_map]
    rfl
  have width : nameWidth (dictionary.visibleWords.map face) = nameWidth dictionary.visibleWords := by
    simp only [nameWidth, List.foldl_map]
    rfl
  have rows : row (nameWidth dictionary.visibleWords) ∘ face = row (nameWidth dictionary.visibleWords) :=
    funext (row_face _)
  simp only [listing, faces, width, List.length_map, List.map_map, rows]

theorem faces_ordered (dictionary : Dictionary) :
    dictionary.faces.Pairwise fun earlier later => compare earlier.1 later.1 = .lt :=
  (Std.ExtTreeMap.ordered_keys_toList.filter _).map _ fun _ _ ordered => ordered

theorem Relabeled.mem_faces_iff (relabeled : first.Relabeled relabeling second) (entry : String × Word) :
    entry ∈ second.faces ↔ entry ∈ first.faces := by
  obtain ⟨name, shown⟩ := entry
  have sameFace {word other : Word} (related : word.Relabeled relabeling other) (visible : word.visible = true) :
      face other = face word := by
    obtain ⟨sameName, sameDescription, sameSignature⟩ := related.shown visible
    simp only [face, related.action, Action.isPrimitive_relabel, related.visible, sameName, sameDescription,
      sameSignature]
  rw [mem_faces, mem_faces]
  constructor
  · rintro ⟨other, foundOther, visible, rfl⟩
    obtain ⟨key, rfl⟩ := relabeling.toEquiv.surjective name
    have related := relabeled.words key
    rw [foundOther] at related
    generalize found : first.find? key = image at related
    cases related with
    | @some word _ related =>
        have visibleWord := related.visible.symm.trans visible
        rw [relabeled.shown key word found visibleWord]
        exact ⟨word, found, visibleWord, (sameFace related visibleWord).symm⟩
  · rintro ⟨word, found, visible, rfl⟩
    have related := relabeled.words name
    rw [found, relabeled.shown name word found visible] at related
    generalize foundOther : second.find? name = image at related
    cases related with
    | @some _ other related => exact ⟨other, rfl, related.visible.trans visible, sameFace related visible⟩

/-- Visible words are listed in the order of their names, which are kept. -/
theorem Relabeled.listing_eq (relabeled : first.Relabeled relabeling second) : second.listing = first.listing := by
  have noneTwice (dictionary : Dictionary) : dictionary.faces.Nodup := by
    refine dictionary.faces_ordered.imp fun ordered same => ?_
    rw [same] at ordered
    exact Std.OrientedCmp.not_lt_of_lt ordered ordered
  have sameFaces : second.faces = first.faces := by
    refine List.Perm.eq_of_pairwise ?_ second.faces_ordered first.faces_ordered
      ((List.perm_ext_iff_of_nodup (noneTwice second) (noneTwice first)).mpr relabeled.mem_faces_iff)
    intro earlier later _ _ ordered reversed
    exact absurd reversed (Std.OrientedCmp.not_lt_of_lt ordered)
  rw [Dictionary.listing_eq, Dictionary.listing_eq, sameFaces]

end Dictionary

namespace Definitions

variable {relabeling : Relabeling} {first second : Definitions}

/-- The second words are the first ones renamed. -/
def Relabeled (relabeling : Relabeling) (first second : Definitions) : Prop :=
  ∀ label, second[relabeling label]? = first[label]?.map (Action.relabel relabeling)

theorem relabeled_empty : Relabeled relabeling ∅ ∅ := by
  intro label
  simp

theorem Relabeled.insert (relabeled : first.Relabeled relabeling second) (label : String) (action : Action) :
    Relabeled relabeling (Std.ExtTreeMap.insert first label action)
      (Std.ExtTreeMap.insert second (relabeling label) (action.relabel relabeling)) := by
  intro other
  simp only [Std.ExtTreeMap.getElem?_insert, Std.LawfulEqCmp.compare_eq_iff_eq, relabeling.apply_eq_iff]
  split
  next => rfl
  next => exact relabeled other

theorem Relabeled.addAll (relabeled : first.Relabeled relabeling second) (entries : List (String × Action)) :
    (first.addAll entries).Relabeled relabeling
      (second.addAll (entries.map (Prod.map relabeling (Action.relabel relabeling)))) := by
  induction entries generalizing first second with
  | nil => exact relabeled
  | cons entry entries ih => exact ih (relabeled.insert entry.1 entry.2)

end Definitions

/-- Installing renamed words. What is shown keeps its name, and what is called is kept or among the
words. -/
theorem Dictionary.Relabeled.install {relabeling : Relabeling} {first second : Dictionary}
    {definitions images : Definitions} (relabeled : first.Relabeled relabeling second)
    (same : definitions.Relabeled relabeling images)
    (shown : ∀ (label : String) (action : Action), definitions[label]? = some action →
      action.isConditional = false → relabeling label = label)
    (closed : ∀ (label : String) (action : Action), definitions[label]? = some action →
      ∀ token ∈ action.tokens, relabeling token = token ∨ token ∈ definitions) :
    (first.install definitions.toList).Relabeled relabeling (second.install images.toList) := by
  have resolves {token : Token} (known : relabeling token = token ∨ token ∈ definitions ∨ first.find? token ≠ none) :
      (first.install definitions.toList).Resolves relabeling token := by
    refine known.imp_right fun found unknown => ?_
    obtain ⟨outside, before⟩ := (find?_install_eq_none first definitions token).mp unknown
    exact found.elim outside (absurd before)
  constructor
  · intro name
    rw [find?_install, find?_install, same name]
    cases found : definitions[name]? with
    | none => exact relabeled.words name
    | some action =>
        refine .some ⟨rfl, ?_, ?_⟩
        · simp only [Word.defined, Action.isConditional_relabel]
        · intro visible
          simp only [Word.defined, Bool.not_eq_true'] at visible
          exact ⟨shown name action found visible, rfl, rfl⟩
  · intro name word found visible
    rw [find?_install] at found
    cases inside : definitions[name]? with
    | none =>
        rw [inside] at found
        exact relabeled.shown name word found visible
    | some action =>
        rw [inside] at found
        cases found
        simp only [Word.defined, Bool.not_eq_true'] at visible
        exact shown name action inside visible
  · intro name word found token member noNumeral
    rw [find?_install] at found
    cases inside : definitions[name]? with
    | none =>
        rw [inside] at found
        exact resolves ((relabeled.closed name word found token member noNumeral).imp_right .inr)
    | some action =>
        rw [inside] at found
        cases found
        exact resolves ((closed name action inside token member).imp_right .inl)

namespace Body

variable {relabeling : Relabeling} {first second : Labels}

theorem map_upcoming_add (count more : Nat) :
    (first.upcoming (count + more)).map relabeling = second.upcoming (count + more) ↔
      (first.upcoming count).map relabeling = second.upcoming count ∧
        ((first.skip count).upcoming more).map relabeling = (second.skip count).upcoming more := by
  rw [Labels.upcoming_add, Labels.upcoming_add, List.map_append]
  constructor
  · intro same
    exact List.append_inj same (by rw [List.length_map, Labels.length_upcoming, Labels.length_upcoming])
  · intro ⟨front, back⟩
    rw [front, back]

/-- With renamed labels the flat code of a body is renamed. -/
theorem flat_relabel (body : Body) (kept : ∀ plain ∈ body.plains, relabeling plain = plain)
    (drawn : (first.upcoming body.branches).map relabeling = second.upcoming body.branches) :
    body.flat second = (body.flat first).map relabeling := by
  induction body generalizing first second with
  | done => rfl
  | token plain rest ihRest =>
      simp only [plains, List.forall_mem_cons] at kept
      simp only [flat, List.map_cons, kept.1, ihRest kept.2 drawn]
  | ifThen ifBody rest ihIf ihRest =>
      simp only [plains, List.forall_mem_append] at kept
      simp only [branches, map_upcoming_add] at drawn
      obtain ⟨⟨own, _⟩, inRest⟩ := drawn
      simp only [flat, List.map_cons, ihRest kept.2 inRest, (List.cons.inj own).1]
  | ifElse ifBody elseBody rest ihIf ihElse ihRest =>
      simp only [plains, List.forall_mem_append] at kept
      simp only [branches, map_upcoming_add] at drawn
      obtain ⟨⟨⟨own, _⟩, _⟩, inRest⟩ := drawn
      simp only [flat, List.map_cons, ihRest kept.2.2 inRest, (List.cons.inj own).1]

theorem helpers_relabel (body : Body) (kept : ∀ plain ∈ body.plains, relabeling plain = plain)
    (drawn : (first.upcoming body.branches).map relabeling = second.upcoming body.branches) :
    body.helpers second = (body.helpers first).map (Prod.map relabeling (Action.relabel relabeling)) := by
  induction body generalizing first second with
  | done => rfl
  | token plain rest ihRest =>
      simp only [plains, List.forall_mem_cons] at kept
      exact ihRest kept.2 drawn
  | ifThen ifBody rest ihIf ihRest =>
      simp only [plains, List.forall_mem_append] at kept
      simp only [branches, map_upcoming_add] at drawn
      obtain ⟨⟨own, inIf⟩, inRest⟩ := drawn
      simp only [helpers, List.map_append, List.map_cons, ihIf kept.1 inIf, ihRest kept.2 inRest,
        flat_relabel ifBody kept.1 inIf, Prod.map, Action.relabel, (List.cons.inj own).1, List.map_nil]
  | ifElse ifBody elseBody rest ihIf ihElse ihRest =>
      simp only [plains, List.forall_mem_append] at kept
      simp only [branches, map_upcoming_add] at drawn
      obtain ⟨⟨⟨own, inIf⟩, inElse⟩, inRest⟩ := drawn
      simp only [helpers, List.map_append, List.map_cons, ihIf kept.1 inIf, ihElse kept.2.1 inElse,
        ihRest kept.2.2 inRest, flat_relabel ifBody kept.1 inIf, flat_relabel elseBody kept.2.1 inElse, Prod.map,
        Action.relabel, (List.cons.inj own).1]

theorem conditionals_relabel (body : Body) (kept : ∀ plain ∈ body.plains, relabeling plain = plain)
    (drawn : (first.upcoming body.branches).map relabeling = second.upcoming body.branches) :
    (body.conditionals first).Relabeled relabeling (body.conditionals second) := by
  rw [conditionals, conditionals, helpers_relabel body kept drawn]
  exact Definitions.relabeled_empty.addAll (body.helpers first)

/-- The code of a body calls its own tokens and its conditionals. -/
theorem resolved_code {body : Body} {labels : Labels} (distinct : (labels.upcoming body.branches).Nodup)
    (kept : ∀ plain ∈ body.plains, relabeling plain = plain) {token : Token}
    (called : token ∈ body.flat labels ++ (body.helpers labels).flatMap fun entry => entry.2.tokens) :
    relabeling token = token ∨ token ∈ body.conditionals labels := by
  have counted := List.count_pos_iff.mpr called
  rw [List.count_append, count_flat] at counted
  rcases Nat.add_pos_iff_pos_or_pos.mp counted with plain | label
  · exact .inl (kept token (List.count_pos_iff.mp plain))
  · have drawn := (body.helpers_labels labels).mem_iff.mpr (List.count_pos_iff.mp label)
    obtain ⟨⟨_, action⟩, helper, rfl⟩ := List.mem_map.mp drawn
    exact .inr (Std.ExtTreeMap.mem_iff_isSome_getElem?.mpr (by rw [getElem?_conditionals distinct helper]; rfl))

theorem resolved_conditionals {body : Body} {labels : Labels} (distinct : (labels.upcoming body.branches).Nodup)
    (kept : ∀ plain ∈ body.plains, relabeling plain = plain) {label : String} {action : Action}
    (found : (body.conditionals labels)[label]? = some action) {token : Token} (called : token ∈ action.tokens) :
    relabeling token = token ∨ token ∈ body.conditionals labels :=
  resolved_code distinct kept
    (List.mem_append_right _ (List.mem_flatMap.mpr ⟨(label, action), mem_helpers found, called⟩))

end Body

namespace Dictionary.Relabeled

variable {relabeling : Relabeling} {first second : Dictionary} {body : Body} {firstLabels secondLabels : Labels}

/-- The conditionals of a body that is about to run. -/
theorem install_conditionals (relabeled : first.Relabeled relabeling second)
    (distinct : (firstLabels.upcoming body.branches).Nodup)
    (kept : ∀ plain ∈ body.plains, relabeling plain = plain)
    (drawn : (firstLabels.upcoming body.branches).map relabeling = secondLabels.upcoming body.branches) :
    (first.install (body.conditionals firstLabels).toList).Relabeled relabeling
      (second.install (body.conditionals secondLabels).toList) := by
  apply relabeled.install (body.conditionals_relabel kept drawn)
  · intro label action found noConditional
    rw [Body.isConditional_helpers (Body.mem_helpers found)] at noConditional
    cases noConditional
  · intro label action found token called
    exact Body.resolved_conditionals distinct kept found called

/-- A body that runs with its conditionals at hand can not be told from the renamed one. -/
theorem runTokens_flat (relabeled : first.Relabeled relabeling second)
    (distinct : (firstLabels.upcoming body.branches).Nodup)
    (kept : ∀ plain ∈ body.plains, relabeling plain = plain)
    (drawn : (firstLabels.upcoming body.branches).map relabeling = secondLabels.upcoming body.branches) (fuel : Nat)
    {stack : Stack} (numeric : stack.Numeric) :
    Machine.runTokens (second.install (body.conditionals secondLabels).toList) fuel stack (body.flat secondLabels) =
      Machine.runTokens (first.install (body.conditionals firstLabels).toList) fuel stack (body.flat firstLabels) := by
  have resolved : Covers ((first.install (body.conditionals firstLabels).toList).Resolves relabeling)
      (body.flat firstLabels) := by
    intro token member _
    refine (Body.resolved_code distinct kept (List.mem_append_left _ member)).imp_right ?_
    intro inside unknown
    exact ((find?_install_eq_none _ _ _).mp unknown).1 inside
  rw [body.flat_relabel kept drawn]
  exact Machine.runTokens_relabel (relabeled.install_conditionals distinct kept drawn) fuel numeric resolved

/-- The words of a definition, whose name is kept. -/
theorem install_definitions (relabeled : first.Relabeled relabeling second)
    (distinct : (firstLabels.upcoming body.branches).Nodup)
    (kept : ∀ plain ∈ body.plains, relabeling plain = plain)
    (drawn : (firstLabels.upcoming body.branches).map relabeling = secondLabels.upcoming body.branches)
    {name : String} (keptName : relabeling name = name) :
    (first.install (body.definitions firstLabels name).toList).Relabeled relabeling
      (second.install (body.definitions secondLabels name).toList) := by
  have among {token : Token} (known : relabeling token = token ∨ token ∈ body.conditionals firstLabels) :
      relabeling token = token ∨ token ∈ body.definitions firstLabels name :=
    known.imp_right fun inside => Std.ExtTreeMap.mem_insert.mpr (.inr inside)
  have same := (body.conditionals_relabel kept drawn).insert name (.compiled (body.flat firstLabels))
  rw [keptName, Action.relabel, ← body.flat_relabel kept drawn] at same
  apply relabeled.install same
  · intro label action found noConditional
    rw [← Body.definitions, Body.getElem?_definitions] at found
    split at found
    next own => rw [← own, keptName]
    next =>
      rw [Body.isConditional_helpers (Body.mem_helpers found)] at noConditional
      cases noConditional
  · intro label action found token called
    rw [← Body.definitions, Body.getElem?_definitions] at found
    split at found
    next =>
      cases found
      exact among (Body.resolved_code distinct kept (List.mem_append_left _ called))
    next => exact among (Body.resolved_conditionals distinct kept found called)

end Dictionary.Relabeled

end Forth

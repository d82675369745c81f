import Forth.Proofs.Relabeling
import Mathlib.Data.List.Forall2

/-! Labels can not be observed. Two interpreters that have the same words and the same stack but draw
different labels stay the same up to a renaming of the labels, so whatever they are fed they answer
alike. -/

namespace Forth

open Nesting (occurrences)

namespace Draft

/-- Drafts that take the same tokens. -/
def Alike (first second : Draft) : Prop :=
  (first.name = none ↔ second.name = none) ∧ first.branches = second.branches

variable {first second next : Draft}

theorem Alike.append (alike : first.Alike second) (token otherToken : Token) :
    (first.append token).Alike (second.append otherToken) := by
  simp only [Alike, name_append, branches_append]
  exact alike

theorem Alike.opened_eq_nil (alike : first.Alike second) : first.opened = [] ↔ second.opened = [] := by
  rw [← branches_eq_nil, ← branches_eq_nil, alike.2]

/-- If one of them takes a token so does the other. -/
theorem Alike.push {token : Token} (alike : first.Alike second) (pushed : first.push token = .ok next) :
    ∃ other, second.push token = .ok other ∧ next.Alike other := by
  have ⟨sameName, sameBranches⟩ := alike
  obtain ⟨plain, naming, nothingOpen, noName, rfl⟩ | ⟨plain, collects, rfl⟩ | ⟨mark, rfl⟩ |
    ⟨conditional, opened, mark, opens, branch, rfl⟩ | ⟨conditional, opened, mark, opens, collects, rfl⟩ :=
      push_cases pushed
  · rw [alike.opened_eq_nil] at nothingOpen
    rw [sameName] at noName
    refine ⟨{ second with name := some token }, ?_, ?_⟩
    · simp only [Draft.push, plain, takePlain, nothingOpen, noName, naming, if_true]
    · exact ⟨by simp, sameBranches⟩
  · rw [Collects, ne_eq, ne_eq, alike.opened_eq_nil, sameName] at collects
    refine ⟨second.append token, ?_, alike.append token token⟩
    simp only [Draft.push, plain, takePlain]
    split
    next nothingOpen noName => exact collects.elim (absurd nothingOpen) (absurd noName)
    next => rfl
  · refine ⟨second.begin, by simp only [Draft.push, mark], sameName, ?_⟩
    exact congrArg (Branch.ifBranch :: ·) sameBranches
  · rw [branches, opens, List.map_cons, branch] at sameBranches
    obtain ⟨otherConditional, others, otherOpens, otherBranch, rest⟩ := List.map_eq_cons_iff.mp sameBranches.symm
    refine ⟨{ second with opened := { otherConditional with branch := .elseBranch } :: others }, ?_, sameName, ?_⟩
    · simp only [Draft.push, mark, takeElse, otherOpens, otherBranch]
    · simp only [branches, List.map_cons, rest]
  · rw [branches, opens, List.map_cons] at sameBranches
    obtain ⟨otherConditional, others, otherOpens, otherBranch, rest⟩ := List.map_eq_cons_iff.mp sameBranches.symm
    have alikeShut : (first.shut conditional opened).Alike (second.shut otherConditional others) :=
      ⟨sameName, rest.symm⟩
    refine ⟨(second.shut otherConditional others).append otherConditional.label, ?_, alikeShut.append _ _⟩
    have otherCollects : ¬(others = [] ∧ second.name = none) := by
      rw [Collects, ne_eq, ne_eq, alikeShut.opened_eq_nil] at collects
      exact fun both => collects.elim (absurd both.1) (absurd (sameName.mpr both.2))
    simp only [Draft.push, mark, takeThen, otherOpens, if_neg otherCollects]

theorem Alike.pushAll {tokens : List Token} (alike : first.Alike second) (pushed : first.pushAll tokens = .ok next) :
    ∃ other, second.pushAll tokens = .ok other ∧ next.Alike other := by
  induction tokens generalizing first second with
  | nil =>
      cases pushed
      exact ⟨second, rfl, alike⟩
  | cons token tokens ih =>
      simp only [Draft.pushAll] at pushed
      cases taken : first.push token with
      | error reason => simp only [taken, reduceCtorEq] at pushed
      | ok middle =>
          simp only [taken] at pushed
          obtain ⟨other, otherTaken, alikeMiddle⟩ := alike.push taken
          obtain ⟨last, otherPushed, alikeLast⟩ := ih alikeMiddle pushed
          exact ⟨last, by simp only [Draft.pushAll, otherTaken, otherPushed], alikeLast⟩

end Draft

namespace Opening

variable {firstLabels secondLabels : Labels} {tokens : List Token}

theorem draft_alike (opening : Opening) (firstLabels secondLabels : Labels) :
    (opening.draft firstLabels).Alike (opening.draft secondLabels) := by
  cases opening with
  | named => exact ⟨Iff.rfl, rfl⟩
  | anonymous => exact ⟨by simp [draft, Draft.anonymous], rfl⟩

/-- What a session can take does not depend on its labels, as long as they are distinct. -/
theorem sound_alike (opening : Opening)
    (distinctFirst : (Session.drawn firstLabels ((opening.session firstLabels).pushAll tokens)).Nodup)
    (distinctSecond : (Session.drawn secondLabels ((opening.session secondLabels).pushAll tokens)).Nodup)
    (sound : ((opening.session firstLabels).pushAll tokens).hasFailed = false) :
    ((opening.session secondLabels).pushAll tokens).hasFailed = false ∧
      ((opening.session secondLabels).pushAll tokens).depth = ((opening.session firstLabels).pushAll tokens).depth := by
  obtain ⟨follows, _⟩ := opening.pushAll_follows firstLabels (List.prefix_refl tokens) distinctFirst
  obtain ⟨otherFollows, _⟩ := opening.pushAll_follows secondLabels (List.prefix_refl tokens) distinctSecond
  cases pushed : (opening.draft firstLabels).pushAll tokens with
  | error reason =>
      rw [pushed] at follows
      have failed : ((opening.session firstLabels).pushAll tokens).failure = some reason := follows
      simp [Session.hasFailed, failed] at sound
  | ok next =>
      rw [pushed] at follows
      obtain ⟨other, otherPushed, alike⟩ := (opening.draft_alike firstLabels secondLabels).pushAll pushed
      rw [otherPushed] at otherFollows
      have reached : (opening.session firstLabels).pushAll tokens = next.session := follows
      have otherReached : (opening.session secondLabels).pushAll tokens = other.session := otherFollows
      rw [reached, otherReached, Draft.depth_session, Draft.depth_session, alike.2]
      exact ⟨rfl, rfl⟩

theorem drawn_session (opening : Opening) (labels : Labels) :
    Session.drawn labels (opening.session labels) = [labels.nextDefinition] := by
  cases opening <;> simp [Session.drawn, session, Session.named, Session.anonymous, Labels.afterDefinition,
    Labels.forSession, Labels.upcoming]

/-- One more token adds the label that it draws. -/
theorem drawn_push (opening : Opening) (labels : Labels) (tokens : List Token) (token : Token) :
    Session.drawn labels (((opening.session labels).pushAll tokens).push token) =
      Session.drawn labels ((opening.session labels).pushAll tokens) ++
        (((opening.session labels).pushAll tokens).conditionalDrawn token).toList := by
  obtain ⟨count, _, reached⟩ := Session.labels_pushAll (opening.session labels) tokens
  rw [session_labels] at reached
  have soFar : ((opening.session labels).pushAll tokens).labels.conditionals - labels.conditionals = count := by
    rw [reached]
    exact Nat.add_sub_cancel_left labels.conditionals count
  rw [Session.drawn, Session.drawn, soFar, Session.labels_push_eq, Session.conditionalDrawn]
  split
  next =>
    have more : (((opening.session labels).pushAll tokens).labels.skip 1).conditionals - labels.conditionals =
        count + 1 := by
      simp only [reached, Labels.skip, Labels.afterDefinition]
      omega
    rw [Option.toList_some, List.length_singleton, more, Labels.forSession, Labels.upcoming_add, reached]
    rfl
  next =>
    rw [Option.toList_none, List.length_nil, Labels.skip_zero, soFar, List.append_nil]

end Opening

/-- Two sessions that have been opened in the same way and fed the same tokens. The labels that the first
has drawn are given, and the second has drawn the same renamed. -/
def Session.Twins (relabeling : Relabeling) (opening : Opening) (typed : List Token) (held : List String)
    (first second : Session) : Prop :=
  ∃ firstLabels secondLabels,
    first = (opening.session firstLabels).pushAll typed ∧ second = (opening.session secondLabels).pushAll typed ∧
    Session.drawn firstLabels first = held ∧ Session.drawn secondLabels second = held.map relabeling

namespace Session.Twins

variable {relabeling : Relabeling} {opening : Opening} {typed : List Token} {held : List String}
  {first second : Session} {token : Token}

theorem opened (opening : Opening) {firstLabels secondLabels : Labels}
    (drawn : secondLabels.nextDefinition = relabeling firstLabels.nextDefinition) :
    Twins relabeling opening [] [firstLabels.nextDefinition] (opening.session firstLabels)
      (opening.session secondLabels) :=
  ⟨firstLabels, secondLabels, rfl, rfl, opening.drawn_session firstLabels,
    (opening.drawn_session secondLabels).trans (congrArg ([·]) drawn)⟩

theorem push (twins : Twins relabeling opening typed held first second)
    (drawn : (second.conditionalDrawn token).toList = (first.conditionalDrawn token).toList.map relabeling) :
    Twins relabeling opening (typed ++ [token]) (held ++ (first.conditionalDrawn token).toList) (first.push token)
      (second.push token) := by
  obtain ⟨firstLabels, secondLabels, rfl, rfl, rfl, drawnSecond⟩ := twins
  refine ⟨firstLabels, secondLabels, ?_, ?_, opening.drawn_push firstLabels typed token, ?_⟩
  · exact (pushAll_append _ typed [token]).symm
  · exact (pushAll_append _ typed [token]).symm
  · rw [opening.drawn_push secondLabels typed token, drawnSecond, drawn, List.map_append]

/-- An `if` opens a session and a conditional in it. -/
theorem opened_if {firstLabels secondLabels : Labels} (isIf : token.mark? = some .ifMark)
    (definition : secondLabels.nextDefinition = relabeling firstLabels.nextDefinition)
    (conditional : secondLabels.afterDefinition.nextConditional =
      relabeling firstLabels.afterDefinition.nextConditional) :
    Twins relabeling .anonymous [token] [firstLabels.nextDefinition, firstLabels.afterDefinition.nextConditional]
      ((Session.anonymous firstLabels).push token) ((Session.anonymous secondLabels).push token) := by
  have draws (labels : Labels) :
      (Opening.anonymous.session labels).conditionalDrawn token = some labels.afterDefinition.nextConditional :=
    if_pos ⟨rfl, isIf⟩
  have same : ((Opening.anonymous.session secondLabels).conditionalDrawn token).toList =
      ((Opening.anonymous.session firstLabels).conditionalDrawn token).toList.map relabeling := by
    rw [draws, draws, conditional]
    rfl
  have twins := (opened .anonymous definition).push same
  rw [draws] at twins
  exact twins

theorem hasFailed_eq (twins : Twins relabeling opening typed held first second) (distinct : held.Nodup) :
    second.hasFailed = first.hasFailed ∧ (first.hasFailed = false → second.depth = first.depth) := by
  have distinctImages := relabeling.nodup_map distinct
  obtain ⟨firstLabels, secondLabels, rfl, rfl, rfl, drawnSecond⟩ := twins
  rw [← drawnSecond] at distinctImages
  refine ⟨?_, fun sound => (opening.sound_alike distinct distinctImages sound).2⟩
  rw [Bool.eq_iff_iff, ← not_iff_not, Bool.not_eq_true, Bool.not_eq_true]
  exact ⟨fun sound => (opening.sound_alike distinctImages distinct sound).1,
    fun sound => (opening.sound_alike distinct distinctImages sound).1⟩

/-- Either both sessions can not become words, or their tokens are in the grammar and each has drawn a label
for every `if`. -/
theorem complete_cases (twins : Twins relabeling opening typed held first second) (distinct : held.Nodup) :
    (∃ reason other, first.complete = .error reason ∧ second.complete = .error other) ∨
    opening.Grammar typed ∧ ∃ firstLabels secondLabels,
      first = (opening.session firstLabels).pushAll typed ∧ second = (opening.session secondLabels).pushAll typed ∧
      firstLabels.forSession (occurrences .ifMark typed) = held ∧
      secondLabels.forSession (occurrences .ifMark typed) = held.map relabeling := by
  have distinctImages := relabeling.nodup_map distinct
  obtain ⟨firstLabels, secondLabels, rfl, rfl, rfl, drawnSecond⟩ := twins
  rw [← drawnSecond] at distinctImages
  have accepts := opening.complete_iff firstLabels typed distinct
  have otherAccepts := opening.complete_iff secondLabels typed distinctImages
  by_cases grammar : opening.Grammar typed
  · obtain ⟨_, completes⟩ := accepts.mpr grammar
    obtain ⟨_, otherCompletes⟩ := otherAccepts.mpr grammar
    refine .inr ⟨grammar, firstLabels, secondLabels, rfl, rfl, ?_, ?_⟩
    · exact (opening.drawn_eq (hasFailed_of_complete completes)).symm
    · rw [← drawnSecond]
      exact (opening.drawn_eq (hasFailed_of_complete otherCompletes)).symm
  · have refused {session : Session} (never : ¬∃ definitions, session.complete = .ok definitions) :
        ∃ reason, session.complete = .error reason := by
      cases completes : session.complete with
      | ok definitions => exact absurd ⟨definitions, completes⟩ never
      | error reason => exact ⟨reason, rfl⟩
    obtain ⟨reason, fails⟩ := refused fun completes => grammar (accepts.mp completes)
    obtain ⟨other, otherFails⟩ := refused fun completes => grammar (otherAccepts.mp completes)
    exact .inl ⟨reason, other, fails, otherFails⟩

end Session.Twins

/-- Code and labels that are still to come: the code is not renamed, and the labels are distinct and in use
neither as names of words nor in the code. -/
structure Dictionary.Ahead (relabeling : Relabeling) (dictionary : Dictionary) (code : List Token)
    (labels : List String) : Prop where
  kept : ∀ token ∈ code, relabeling token = token
  distinct : labels.Nodup
  unknown : ∀ label ∈ labels, dictionary.find? label = none
  unspelled : ∀ label ∈ labels, label ∉ code

namespace Dictionary.Ahead

variable {relabeling : Relabeling} {dictionary : Dictionary} {code part typed : List Token}
  {labels fewer held : List String}

theorem mono (ahead : dictionary.Ahead relabeling code labels) (partOf : part ⊆ code)
    (fewerOf : fewer.Sublist labels) : dictionary.Ahead relabeling part fewer where
  kept token member := ahead.kept token (partOf member)
  distinct := fewerOf.nodup ahead.distinct
  unknown label member := ahead.unknown label (fewerOf.subset member)
  unspelled label member inPart := ahead.unspelled label (fewerOf.subset member) (partOf inPart)

theorem later (ahead : dictionary.Ahead relabeling (typed ++ code) (held ++ labels)) :
    dictionary.Ahead relabeling code labels :=
  ahead.mono (List.subset_append_right typed code) (List.sublist_append_right held labels)

/-- Words that are named by what has been typed and drawn are not in the way of what comes later. -/
theorem install (ahead : dictionary.Ahead relabeling (typed ++ code) (held ++ labels)) {definitions : Definitions}
    (named : ∀ name ∈ definitions, name ∈ typed ∨ name ∈ held) :
    (dictionary.install definitions.toList).Ahead relabeling code labels := by
  refine ⟨ahead.later.kept, ahead.later.distinct, ?_, ahead.later.unspelled⟩
  intro label member
  refine (find?_install_eq_none _ _ _).mpr ⟨?_, ahead.later.unknown label member⟩
  intro inside
  rcases named label inside with inTyped | inHeld
  · exact ahead.unspelled label (List.mem_append_right held member) (List.mem_append_left code inTyped)
  · exact (List.nodup_append.mp ahead.distinct).2.2 label inHeld label member rfl

end Dictionary.Ahead

/-- Two activities that have been fed the same tokens since they were last executing. -/
inductive Activity.Twins (relabeling : Relabeling) : List Token → List String → Activity → Activity → Prop
  | executing (firstLabels secondLabels : Labels) :
      Twins relabeling [] [] (.executing firstLabels) (.executing secondLabels)
  | recording {typed : List Token} {held : List String} {first second : Session}
      (twins : Session.Twins relabeling .named typed held first second) :
      Twins relabeling typed held (.recording first) (.recording second)
  | conditional {typed : List Token} {held : List String} {first second : Session}
      (twins : Session.Twins relabeling .anonymous typed held first second) :
      Twins relabeling typed held (.conditional first) (.conditional second)

theorem Activity.Twins.mode_eq {relabeling : Relabeling} {typed : List Token} {held : List String}
    {first second : Activity} (twins : Twins relabeling typed held first second) : second.mode = first.mode := by
  cases twins <;> rfl

/-- What can be observed after a command is the same, except for the text of an incomplete definition,
which may tell a label. -/
structure Reply.Alike (first second : Reply) : Prop where
  mode : second.interpreter.mode = first.interpreter.mode
  stack : second.interpreter.stack = first.interpreter.stack
  printed : second.printed = first.printed
  size : second.interpreter.dictionary.size = first.interpreter.dictionary.size
  listing : second.interpreter.dictionary.listing = first.interpreter.dictionary.listing
  fault : second.fault = first.fault ∨ ∃ reason other,
    first.fault = some (.incompleteDefinition reason) ∧ second.fault = some (.incompleteDefinition other)

/-- The same stack of numbers, and the same words up to the renaming. -/
structure Interpreter.Resembles (relabeling : Relabeling) (first second : Interpreter) : Prop where
  stack : second.stack = first.stack
  numeric : first.stack.Numeric
  dictionary : first.dictionary.Relabeled relabeling second.dictionary

/-- Two interpreters that differ in their labels only. The code and the labels are those still to come. -/
structure Interpreter.Twins (relabeling : Relabeling) (code : List Token) (labels : List String)
    (first second : Interpreter) : Prop extends first.Resembles relabeling second where
  activity : ∃ typed held, Activity.Twins relabeling typed held first.activity second.activity ∧
    first.dictionary.Ahead relabeling (typed ++ code) (held ++ labels)

/-- Replies that can not be told apart, now or later. -/
structure Reply.Twins (relabeling : Relabeling) (code : List Token) (labels : List String) (first second : Reply) :
    Prop where
  alike : first.Alike second
  twins : first.interpreter.Twins relabeling code labels second.interpreter

theorem Reply.Twins.of_interpreter {relabeling : Relabeling} {code : List Token} {labels : List String}
    {first second : Reply} (twins : first.interpreter.Twins relabeling code labels second.interpreter)
    (printed : second.printed = first.printed)
    (fault : second.fault = first.fault ∨ ∃ reason other,
      first.fault = some (.incompleteDefinition reason) ∧ second.fault = some (.incompleteDefinition other)) :
    first.Twins relabeling code labels second := by
  obtain ⟨typed, held, activity, _⟩ := twins.activity
  exact ⟨⟨activity.mode_eq, twins.stack, printed, twins.dictionary.size_eq, twins.dictionary.listing_eq, fault⟩, twins⟩

namespace Interpreter.Resembles

variable {relabeling : Relabeling} {first second : Interpreter} {code typed : List Token} {labels held : List String}

/-- Both go on with sessions that are twins. -/
theorem become {firstActivity secondActivity : Activity} (resembles : first.Resembles relabeling second)
    (activity : Activity.Twins relabeling typed held firstActivity secondActivity)
    (ahead : first.dictionary.Ahead relabeling (typed ++ code) (held ++ labels)) :
    (first.become firstActivity).Twins relabeling code labels (second.become secondActivity) :=
  .of_interpreter ⟨⟨resembles.stack, resembles.numeric, resembles.dictionary⟩, typed, held, activity, ahead⟩
    rfl (.inl rfl)

/-- Both give up. -/
theorem discard (resembles : first.Resembles relabeling second) (ahead : first.dictionary.Ahead relabeling code labels)
    (firstSession secondSession : Session) (reason other : Reason) :
    (first.discard firstSession reason).Twins relabeling code labels (second.discard secondSession other) :=
  .of_interpreter ⟨⟨resembles.stack, resembles.numeric, resembles.dictionary⟩, [], [], .executing _ _, ahead⟩
    rfl (.inr ⟨_, _, rfl, rfl⟩)

/-- Both have run the same. -/
theorem settle (resembles : first.Resembles relabeling second) (ahead : first.dictionary.Ahead relabeling code labels)
    {ran : Option Ending} (numeric : ∀ ending, ran = some ending → ending.stack.Numeric)
    (firstLabels secondLabels : Labels) :
    Option.Rel (Reply.Twins relabeling code labels) (ran.map (first.settle (.executing firstLabels)))
      (ran.map (second.settle (.executing secondLabels))) := by
  cases ran with
  | none => exact .none
  | some ending =>
      exact .some (.of_interpreter
        ⟨⟨rfl, numeric ending rfl, resembles.dictionary⟩, [], [], .executing _ _, ahead⟩ rfl (.inl rfl))

variable {firstSession secondSession : Session}

/-- Both definitions are added, or both are given up. -/
theorem endDefinition (resembles : first.Resembles relabeling second)
    (session : Session.Twins relabeling .named typed held firstSession secondSession)
    (ahead : first.dictionary.Ahead relabeling (typed ++ code) (held ++ labels)) :
    (first.endDefinition firstSession).Twins relabeling code labels (second.endDefinition secondSession) := by
  have distinct := (List.nodup_append.mp ahead.distinct).1
  rcases session.complete_cases distinct with ⟨reason, other, fails, otherFails⟩ |
    ⟨⟨name, spelling, body, rfl, isName, spelled⟩, firstLabels, secondLabels, rfl, rfl, drawn, otherDrawn⟩
  · simp only [Interpreter.endDefinition, fails, otherFails]
    exact resembles.discard ahead.later _ _ reason other
  · have counted : occurrences .ifMark (name :: spelling) = body.branches := by
      simp [Nesting.occurrences_cons, Token.mark?_of_isName isName, spelled.occurrences_if]
    rw [counted] at drawn otherDrawn
    subst drawn
    have otherDistinct : (secondLabels.forSession body.branches).Nodup := otherDrawn ▸ relabeling.nodup_map distinct
    have keptBody : ∀ plain ∈ body.plains, relabeling plain = plain := fun plain member =>
      ahead.kept plain (List.mem_append_left code (List.mem_cons_of_mem name (spelled.plains_subset member)))
    have words := resembles.dictionary.install_definitions (List.nodup_cons.mp distinct).2 keptBody
      (List.cons.inj otherDrawn).2.symm (ahead.kept name (List.mem_append_left code (List.mem_cons_self ..)))
    have named (labels : Labels) : Opening.named.session labels = Session.named labels := rfl
    rw [named, named, endDefinition_spelled first isName spelled distinct,
      endDefinition_spelled second isName spelled otherDistinct]
    refine .of_interpreter ⟨⟨resembles.stack, resembles.numeric, words⟩, [], [], .executing _ _, ahead.install ?_⟩
      rfl (.inl rfl)
    intro label inside
    rcases List.mem_cons.mp (Body.mem_definitions inside) with rfl | drawn
    · exact .inl (List.mem_cons_self ..)
    · exact .inr (List.mem_cons_of_mem _ drawn)

/-- Both conditionals run, or both are given up. What they install is gone afterwards. -/
theorem endConditional (resembles : first.Resembles relabeling second)
    (session : Session.Twins relabeling .anonymous typed held firstSession secondSession)
    (ahead : first.dictionary.Ahead relabeling (typed ++ code) (held ++ labels)) (fuel : Nat) :
    Option.Rel (Reply.Twins relabeling code labels) (first.endConditional fuel firstSession)
      (second.endConditional fuel secondSession) := by
  have distinct := (List.nodup_append.mp ahead.distinct).1
  rcases session.complete_cases distinct with ⟨reason, other, fails, otherFails⟩ |
    ⟨⟨body, spelled⟩, firstLabels, secondLabels, rfl, rfl, drawn, otherDrawn⟩
  · simp only [Interpreter.endConditional, fails, otherFails]
    exact .some (resembles.discard ahead.later _ _ reason other)
  · rw [spelled.occurrences_if] at drawn otherDrawn
    subst drawn
    have otherDistinct : (secondLabels.forSession body.branches).Nodup := otherDrawn ▸ relabeling.nodup_map distinct
    have renamed := (List.cons.inj otherDrawn).2
    have fresh : ∀ label ∈ firstLabels.afterDefinition.upcoming body.branches, first.dictionary.find? label = none :=
      fun label member => ahead.unknown label (List.mem_append_left labels (List.mem_cons_of_mem _ member))
    have otherFresh : ∀ label ∈ secondLabels.afterDefinition.upcoming body.branches,
        second.dictionary.find? label = none := by
      rw [renamed]
      intro label member
      obtain ⟨origin, inFirst, rfl⟩ := List.mem_map.mp member
      exact resembles.dictionary.find?_eq_none_iff.mpr (fresh origin inFirst)
    have sameRun := resembles.dictionary.runTokens_flat (List.nodup_cons.mp distinct).2
      (fun plain member => ahead.kept plain (List.mem_append_left code (spelled.plains_subset member)))
      renamed.symm fuel resembles.numeric
    have anonymous (labels : Labels) : Opening.anonymous.session labels = Session.anonymous labels := rfl
    rw [anonymous, anonymous, Session.anonymous_spelled spelled distinct,
      Session.anonymous_spelled spelled otherDistinct, endConditional_absorbed distinct fresh,
      endConditional_absorbed otherDistinct otherFresh, resembles.stack, sameRun]
    exact resembles.settle ahead.later (fun _ => Machine.run_numeric resembles.numeric) _ _

variable {token : Token} {firstLabels secondLabels : Labels}

theorem runToken (resembles : first.Resembles relabeling second)
    (ahead : first.dictionary.Ahead relabeling ([token] ++ code) labels) (fuel : Nat) :
    Option.Rel (Reply.Twins relabeling code labels)
      ((Machine.runTokens first.dictionary fuel first.stack [token]).map (first.settle (.executing firstLabels)))
      ((Machine.runTokens second.dictionary fuel second.stack [token]).map
        (second.settle (.executing secondLabels))) := by
  have kept : relabeling token = token := ahead.kept token (List.mem_cons_self ..)
  have resolved : Covers (first.dictionary.Resolves relabeling) [token] := by
    intro other member _
    rw [List.mem_singleton.mp member]
    exact .inl kept
  have same := Machine.runTokens_relabel resembles.dictionary fuel resembles.numeric resolved
  rw [List.map_singleton, kept, ← resembles.stack] at same
  rw [same, resembles.stack]
  have later := ahead.mono (List.subset_append_right [token] code) (List.Sublist.refl labels)
  exact resembles.settle later (fun _ => Machine.run_numeric resembles.numeric) _ _

theorem executeOutside (resembles : first.Resembles relabeling second)
    (executing : first.activity = .executing firstLabels) (otherExecuting : second.activity = .executing secondLabels)
    (drawn : second.draws token = (first.draws token).map relabeling)
    (ahead : first.dictionary.Ahead relabeling ([token] ++ code) (first.draws token ++ labels)) (fuel : Nat) :
    Option.Rel (Reply.Twins relabeling code labels) (first.execute fuel token) (second.execute fuel token) := by
  simp only [execute, executing, otherExecuting, Interpreter.executeOutside]
  by_cases colon : token.mark? = some .colon
  · rw [draws_outside_colon executing colon] at drawn ahead
    rw [draws_outside_colon otherExecuting colon] at drawn
    have session := Session.Twins.opened .named (List.cons.inj drawn).1
    simp only [colon]
    exact .some (resembles.become (.recording session)
      (ahead.mono (List.subset_append_right [token] code) (List.Sublist.refl _)))
  · by_cases isIf : token.mark? = some .ifMark
    · rw [draws_outside_if executing isIf] at drawn ahead
      rw [draws_outside_if otherExecuting isIf] at drawn
      simp only [List.map_cons, List.map_nil, List.cons.injEq, and_true] at drawn
      simp only [isIf]
      exact .some (resembles.become (.conditional (.opened_if isIf drawn.1 drawn.2)) ahead)
    · rw [draws_outside_other executing colon isIf] at ahead
      split
      next mark => exact absurd mark colon
      next mark => exact absurd mark isIf
      next =>
        rw [runTokens_eq_settle, runTokens_eq_settle, executing, otherExecuting]
        exact resembles.runToken ahead fuel

theorem executeRecording (resembles : first.Resembles relabeling second)
    (session : Session.Twins relabeling .named typed held firstSession secondSession)
    (recording : first.activity = .recording firstSession) (otherRecording : second.activity = .recording secondSession)
    (drawn : second.draws token = (first.draws token).map relabeling)
    (ahead : first.dictionary.Ahead relabeling (typed ++ [token] ++ code) (held ++ first.draws token ++ labels))
    (fuel : Nat) :
    Option.Rel (Reply.Twins relabeling code labels) (first.execute fuel token) (second.execute fuel token) := by
  simp only [execute, recording, otherRecording, executeInDefinition]
  by_cases colon : token.mark? = some .colon
  · rw [draws_recording_colon recording colon] at drawn ahead
    rw [draws_recording_colon otherRecording colon] at drawn
    have reopened := Session.Twins.opened .named (List.cons.inj drawn).1
    rw [List.append_assoc held] at ahead
    simp only [colon]
    exact .some (resembles.become (.recording reopened) ahead.later)
  · rw [draws_recording_other recording colon] at drawn ahead
    rw [draws_recording_other otherRecording colon] at drawn
    split
    next semicolon =>
      have nothing := firstSession.conditionalDrawn_of_ne (by rw [semicolon]; decide : token.mark? ≠ some .ifMark)
      rw [nothing, Option.toList_none, List.append_nil] at ahead
      have part : typed ++ code ⊆ typed ++ [token] ++ code :=
        ((List.sublist_append_left typed [token]).append (List.Sublist.refl code)).subset
      exact .some (resembles.endDefinition session (ahead.mono part (List.Sublist.refl _)))
    next mark => exact absurd mark colon
    next => exact .some (resembles.become (.recording (session.push drawn)) ahead)

theorem executeCollecting (resembles : first.Resembles relabeling second)
    (session : Session.Twins relabeling .anonymous typed held firstSession secondSession)
    (collecting : first.activity = .conditional firstSession)
    (otherCollecting : second.activity = .conditional secondSession)
    (drawn : second.draws token = (first.draws token).map relabeling)
    (ahead : first.dictionary.Ahead relabeling (typed ++ [token] ++ code) (held ++ first.draws token ++ labels))
    (fuel : Nat) :
    Option.Rel (Reply.Twins relabeling code labels) (first.execute fuel token) (second.execute fuel token) := by
  rw [draws_conditional collecting] at drawn ahead
  rw [draws_conditional otherCollecting] at drawn
  have extended := session.push drawn
  obtain ⟨sameFailure, sameDepth⟩ := extended.hasFailed_eq (List.nodup_append.mp ahead.distinct).1
  have sameEnd : ((secondSession.push token).hasFailed || (secondSession.push token).depth = 0) =
      ((firstSession.push token).hasFailed || (firstSession.push token).depth = 0) := by
    rw [sameFailure]
    cases failed : (firstSession.push token).hasFailed with
    | true => rfl
    | false => rw [sameDepth failed]
  simp only [execute, collecting, otherCollecting, executeInConditional, sameEnd]
  split
  · exact resembles.endConditional extended ahead fuel
  · exact .some (resembles.become (.conditional extended) ahead)

end Interpreter.Resembles

namespace Interpreter

/-- The replies to tokens fed one by one, faults or not. There are none if some token needs more steps
than the fuel allows. -/
def replies (fuel : Nat) : Interpreter → List Token → Option (List Reply)
  | _, [] => some []
  | interpreter, token :: rest =>
      (interpreter.execute fuel token).bind fun reply =>
        (replies fuel reply.interpreter rest).map (reply :: ·)

/-- All labels that are drawn on the way, in order. -/
def drawn (fuel : Nat) : Interpreter → List Token → List String
  | _, [] => []
  | interpreter, token :: rest =>
      interpreter.draws token ++
        (interpreter.execute fuel token).elim [] fun reply => drawn fuel reply.interpreter rest

end Interpreter

namespace Interpreter.Twins

variable {relabeling : Relabeling} {first second : Interpreter} {code : List Token} {labels : List String}
  {token : Token}

/-- The next token draws as many labels from both. -/
theorem length_draws (twins : first.Twins relabeling (token :: code) labels second) :
    (first.draws token).length = (second.draws token).length := by
  obtain ⟨typed, held, activity, ahead⟩ := twins.activity
  have drawsSame {firstSession secondSession : Session} (same : secondSession.hasFailed = firstSession.hasFailed) :
      (firstSession.conditionalDrawn token).toList.length = (secondSession.conditionalDrawn token).toList.length := by
    rw [Session.conditionalDrawn, Session.conditionalDrawn, same]
    split <;> rfl
  have distinct := (List.nodup_append.mp ahead.distinct).1
  generalize executing : first.activity = firstActivity at activity
  generalize otherExecuting : second.activity = secondActivity at activity
  cases activity with
  | executing firstLabels secondLabels =>
      by_cases colon : token.mark? = some .colon
      · rw [draws_outside_colon executing colon, draws_outside_colon otherExecuting colon]
        rfl
      · by_cases isIf : token.mark? = some .ifMark
        · rw [draws_outside_if executing isIf, draws_outside_if otherExecuting isIf]
          rfl
        · rw [draws_outside_other executing colon isIf, draws_outside_other otherExecuting colon isIf]
  | recording session =>
      by_cases colon : token.mark? = some .colon
      · rw [draws_recording_colon executing colon, draws_recording_colon otherExecuting colon]
        rfl
      · rw [draws_recording_other executing colon, draws_recording_other otherExecuting colon]
        exact drawsSame (session.hasFailed_eq distinct).1
  | conditional session =>
      rw [draws_conditional executing, draws_conditional otherExecuting]
      exact drawsSame (session.hasFailed_eq distinct).1

/-- One token: both answer alike and stay twins. -/
theorem execute (twins : first.Twins relabeling (token :: code) (first.draws token ++ labels) second)
    (drawn : second.draws token = (first.draws token).map relabeling) (fuel : Nat) :
    Option.Rel (Reply.Twins relabeling code labels) (first.execute fuel token) (second.execute fuel token) := by
  obtain ⟨typed, held, activity, ahead⟩ := twins.activity
  rw [← List.singleton_append, ← List.append_assoc, ← List.append_assoc] at ahead
  generalize executing : first.activity = firstActivity at activity
  generalize otherExecuting : second.activity = secondActivity at activity
  cases activity with
  | executing firstLabels secondLabels =>
      exact twins.toResembles.executeOutside executing otherExecuting drawn ahead fuel
  | recording session =>
      exact twins.toResembles.executeRecording session executing otherExecuting drawn ahead fuel
  | conditional session =>
      exact twins.toResembles.executeCollecting session executing otherExecuting drawn ahead fuel

/-- Any tokens: both answer alike all along. -/
theorem replies {fuel : Nat} {tokens : List Token}
    (twins : first.Twins relabeling tokens (first.drawn fuel tokens) second)
    (renamed : ∀ pair ∈ (first.drawn fuel tokens).zip (second.drawn fuel tokens), pair.2 = relabeling pair.1) :
    Option.Rel (List.Forall₂ Reply.Alike) (first.replies fuel tokens) (second.replies fuel tokens) := by
  induction tokens generalizing first second with
  | nil => exact .some .nil
  | cons token tokens ih =>
      have sameLength := twins.length_draws
      simp only [Interpreter.drawn] at twins renamed
      rw [List.zip_append sameLength, List.forall_mem_append] at renamed
      -- Both draw equally many labels at this token, so the pairs split into those drawn now and later.
      obtain ⟨now, later⟩ := renamed
      have drawnNow : second.draws token = (first.draws token).map relabeling := by
        calc second.draws token
          _ = ((first.draws token).zip (second.draws token)).map Prod.snd :=
              (List.map_snd_zip (Nat.le_of_eq sameLength.symm)).symm
          _ = ((first.draws token).zip (second.draws token)).map (relabeling ∘ Prod.fst) := List.map_congr_left now
          _ = (first.draws token).map relabeling := by
              rw [← List.map_map, List.map_fst_zip (Nat.le_of_eq sameLength)]
      have replied := twins.execute drawnNow fuel
      simp only [Interpreter.replies]
      generalize first.execute fuel token = reply at replied later
      generalize second.execute fuel token = other at replied later
      cases replied with
      | none => exact .none
      | some replied =>
          have rest := ih replied.twins later
          simp only [Option.bind_some]
          generalize Interpreter.replies fuel _ tokens = left at rest
          generalize Interpreter.replies fuel _ tokens = right at rest
          cases rest with
          | none => exact .none
          | some rest => exact .some (.cons replied.alike rest)

end Interpreter.Twins

/-- A permutation that takes the labels of one list to those of the other, one by one, and moves nothing
else. -/
theorem exists_permutation {first second : List String} (distinct : first.Nodup) (otherDistinct : second.Nodup) :
    ∃ permutation : String ≃ String, (∀ pair ∈ first.zip second, pair.2 = permutation pair.1) ∧
      ∀ name, name ∉ first → name ∉ second → permutation name = name := by
  induction first generalizing second with
  | nil => exact ⟨Equiv.refl String, by simp, fun _ _ _ => rfl⟩
  | cons label first ih =>
      cases second with
      | nil => exact ⟨Equiv.refl String, by simp, fun _ _ _ => rfl⟩
      | cons other second =>
          obtain ⟨apart, distinctRest⟩ := List.nodup_cons.mp distinct
          obtain ⟨otherApart, otherDistinctRest⟩ := List.nodup_cons.mp otherDistinct
          obtain ⟨permutation, pairs, others⟩ := ih distinctRest otherDistinctRest
          -- Swapping what the label went to with what it should go to leaves all later pairs alone.
          refine ⟨permutation.trans (Equiv.swap (permutation label) other), ?_, ?_⟩
          · intro pair member
            rcases List.mem_cons.mp member with rfl | inRest
            · exact (Equiv.swap_apply_left _ _).symm
            · obtain ⟨inFirst, inSecond⟩ := List.of_mem_zip inRest
              have image := pairs pair inRest
              have notLabel : permutation pair.1 ≠ permutation label := fun same =>
                apart (permutation.injective same ▸ inFirst)
              have notOther : permutation pair.1 ≠ other := fun same => otherApart (same ▸ image ▸ inSecond)
              rw [Equiv.trans_apply, Equiv.swap_apply_of_ne_of_ne notLabel notOther, image]
          · intro name notFirst notSecond
            rw [List.mem_cons, not_or] at notFirst notSecond
            have fixed := others name notFirst.2 notSecond.2
            have notLabel : permutation name ≠ permutation label := permutation.injective.ne notFirst.1
            have notOther : permutation name ≠ other := fixed.symm ▸ notSecond.1
            rw [Equiv.trans_apply, Equiv.swap_apply_of_ne_of_ne notLabel notOther, fixed]

/-- Two interpreters with the same words and the same stack of numbers, each of which draws labels that are
distinct, no numerals, and in use neither in the dictionary nor in the tokens, answer every token alike:
the mode, the stack, the printed text, the number and the table of words are the same, and so is the
fault, except that incomplete definitions may be told differently. If one runs out of fuel so does the
other. -/
theorem labels_are_unobservable {first second : Interpreter} {fuel : Nat} {tokens : List Token}
    (sameWords : second.dictionary = first.dictionary) (sameStack : second.stack = first.stack)
    (numeric : first.stack.Numeric) (executing : first.mode = .executing) (otherExecuting : second.mode = .executing)
    (admits : first.dictionary.Admits tokens (first.drawn fuel tokens))
    (otherAdmits : second.dictionary.Admits tokens (second.drawn fuel tokens)) :
    Option.Rel (List.Forall₂ Reply.Alike) (first.replies fuel tokens) (second.replies fuel tokens) := by
  -- One renaming for the whole run, made from all labels that are going to be drawn.
  obtain ⟨permutation, renamed, others⟩ := exists_permutation admits.distinct otherAdmits.distinct
  let relabeling : Relabeling :=
    { toEquiv := permutation
      keepsNumeral := fun token numeral => others token (fun drawn => numeral (admits.noNumerals token drawn))
        fun drawn => numeral (otherAdmits.noNumerals token drawn) }
  have kept : ∀ token ∈ tokens, relabeling token = token := fun token member =>
    others token (fun drawn => admits.unspelled token drawn member)
      fun drawn => otherAdmits.unspelled token drawn member
  rw [sameWords] at otherAdmits
  have words : first.dictionary.Relabeled relabeling first.dictionary := by
    apply Dictionary.relabeled_self
    intro name word found
    constructor
    · exact others name (fun drawn => by simp [admits.unknown name drawn] at found)
        fun drawn => by simp [otherAdmits.unknown name drawn] at found
    · intro token called
      have calls : first.dictionary.Calls token := ⟨name, word, found, called⟩
      exact others token (fun drawn => admits.uncalled token drawn calls)
        fun drawn => otherAdmits.uncalled token drawn calls
  have activity : Activity.Twins relabeling [] [] first.activity second.activity := by
    obtain ⟨_, _, firstLabels | _ | _⟩ := first
    · obtain ⟨_, _, secondLabels | _ | _⟩ := second
      · exact .executing firstLabels secondLabels
      · cases otherExecuting
      · cases otherExecuting
    · cases executing
    · cases executing
  exact Interpreter.Twins.replies
    ⟨⟨sameStack, numeric, sameWords ▸ words⟩, [], [], activity, kept, admits.distinct, admits.unknown,
      admits.unspelled⟩ renamed

/-- A word with a conditional, a call of it, a conditional typed outside of definitions that fails, and a
definition that is never completed. -/
theorem labels_are_unobservable_failing :
    let tokens := [":", "pick", "if", "1", "else", "2", "then", ";", "0", "pick", "0", "if", "nope", "then", ":",
      "open", "if", ";"]
    let first := { Interpreter.standard with stack := [.number 7] }
    let second := { first with activity := .executing (.numbered "id") }
    first.drawn 9 tokens = ["definition-0", "<if-0>", "definition-1", "<if-1>", "definition-2", "<if-2>"] ∧
    second.drawn 9 tokens = ["id_0", "id_1", "id_2", "id_3", "id_4", "id_5"] ∧
    first.dictionary.Admits tokens (first.drawn 9 tokens) ∧
    second.dictionary.Admits tokens (second.drawn 9 tokens) ∧ (first.replies 9 tokens).isSome = true ∧
    Option.Rel (List.Forall₂ Reply.Alike) (first.replies 9 tokens) (second.replies 9 tokens) := by
  intro tokens first second
  have drawn : first.drawn 9 tokens =
      ["definition-0", "<if-0>", "definition-1", "<if-1>", "definition-2", "<if-2>"] := by decide +kernel
  have otherDrawn : second.drawn 9 tokens = ["id_0", "id_1", "id_2", "id_3", "id_4", "id_5"] := by decide +kernel
  have uncalled : ∀ word ∈ Vocabulary.base ++ Vocabulary.printing ++ Vocabulary.prelude,
      ∀ name ∈ first.drawn 9 tokens ++ second.drawn 9 tokens, name ∉ word.action.tokens := by
    rw [drawn, otherDrawn]
    decide +kernel
  have calls {name : String} (member : name ∈ first.drawn 9 tokens ++ second.drawn 9 tokens) :
      ¬first.dictionary.Calls name := by
    rintro ⟨other, word, found, called⟩
    rcases Dictionary.find?_insertAll found with ⟨listed, _⟩ | earlier
    · exact uncalled word listed name member called
    · rw [Dictionary.find?_empty] at earlier
      cases earlier
  have admits : first.dictionary.Admits tokens (first.drawn 9 tokens) := by
    refine ⟨⟨?_, ?_, fun name member => calls (List.mem_append_left _ member)⟩, ?_, ?_⟩ <;> rw [drawn] <;>
      decide +kernel
  have otherAdmits : second.dictionary.Admits tokens (second.drawn 9 tokens) := by
    refine ⟨⟨?_, ?_, fun name member => calls (List.mem_append_right _ member)⟩, ?_, ?_⟩ <;> rw [otherDrawn] <;>
      decide +kernel
  exact ⟨drawn, otherDrawn, admits, otherAdmits, by decide +kernel,
    labels_are_unobservable rfl rfl (by decide) rfl rfl admits otherAdmits⟩

end Forth

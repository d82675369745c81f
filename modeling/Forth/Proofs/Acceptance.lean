import Forth.Interpreter
import Forth.Proofs.Sessions

/-! What a session accepts. A named session becomes words exactly when it is fed a name and then a
spelling of a body, an anonymous one exactly when it is fed a spelling of a body, and everything else
is told as an incomplete definition. On the way the depth counts the conditionals left open. -/

namespace Forth

open Body (Spelled)
open Nesting (occurrences)

namespace Opening

/-- What the session is meant to be fed. -/
def Grammar : Opening → List Token → Prop
  | .named, tokens => ∃ name spelling body,
      tokens = name :: spelling ∧ Token.isName name = true ∧ Spelled body spelling
  | .anonymous, tokens => ∃ body, Spelled body tokens

/-- How the interpreter ends such a session. -/
def finish (opening : Opening) (fuel : Nat) (interpreter : Interpreter) (session : Session) :
    Option Reply :=
  match opening with
  | .named => some (interpreter.endDefinition session)
  | .anonymous => interpreter.endConditional fuel session

end Opening

/-- The labels that a session has drawn if it was opened on the given supply: its own, and those of
its conditionals. -/
def Session.drawn (opening : Labels) (session : Session) : List String :=
  opening.forSession (session.labels.conditionals - opening.conditionals)

theorem Opening.pushAll_follows (opening : Opening) (labels : Labels) {front tokens : List Token}
    (before : front <+: tokens)
    (distinct : (Session.drawn labels ((opening.session labels).pushAll tokens)).Nodup) :
    Draft.Follows ((opening.session labels).pushAll front) ((opening.draft labels).pushAll front) ∧
      ∀ next, (opening.draft labels).pushAll front = .ok next → next.Sound := by
  rw [session_draft] at distinct ⊢
  obtain ⟨back, rfl⟩ := before
  obtain ⟨early, _, atFront⟩ := Session.labels_pushAll (opening.draft labels).session front
  obtain ⟨late, _, atEnd⟩ :=
    Session.labels_pushAll ((opening.draft labels).session.pushAll front) back
  have started : (opening.draft labels).session.labels = labels.afterDefinition := draft_labels opening labels
  have count : ((opening.draft labels).session.pushAll (front ++ back)).labels.conditionals =
      labels.conditionals + early + late := by
    rw [Session.pushAll_append, atEnd, atFront, started]
    rfl
  apply Draft.pushAll_follows front (early + late)
  · exact opening.draft_sound labels
  · rw [Session.drawn, count, Labels.forSession] at distinct
    rw [draft_keys, draft_labels]
    have drawn : labels.conditionals + early + late - labels.conditionals = early + late := by omega
    rwa [drawn] at distinct
  · rw [atFront, started, draft_labels]
    have more : early ≤ early + late := Nat.le_add_right early late
    exact Nat.add_le_add_left more labels.conditionals

namespace Draft

theorem branches_eq_nil (draft : Draft) : draft.branches = [] ↔ draft.opened = [] :=
  List.map_eq_nil_iff

/-- A draft that has its name takes exactly the spellings of bodies. -/
theorem pushAll_named_iff (draft : Draft) (hasName : draft.name ≠ none) (nothingOpen : draft.opened = [])
    (tokens : List Token) :
    (∃ next, draft.pushAll tokens = .ok next ∧ next.opened = [] ∧ next.name ≠ none) ↔
      ∃ body, Spelled body tokens := by
  have start : draft.branches = [] := (branches_eq_nil draft).mpr nothingOpen
  rw [Nesting.spelled_iff_readAll, ← start]
  constructor
  · intro ⟨next, pushed, closed, _⟩
    rw [readAll_of_pushAll pushed, start, (branches_eq_nil next).mpr closed]
  · intro reads
    obtain ⟨next, pushed, branches, sameName⟩ := pushAll_of_readAll hasName reads
    exact ⟨next, pushed, (branches_eq_nil next).mp (branches.trans start), sameName ▸ hasName⟩

/-- The first token of a named draft must be its name. -/
theorem pushAll_unnamed_iff (draft : Draft) (noName : draft.name = none) (nothingOpen : draft.opened = [])
    (tokens : List Token) :
    (∃ next, draft.pushAll tokens = .ok next ∧ next.opened = [] ∧ next.name ≠ none) ↔
      ∃ name spelling body,
        tokens = name :: spelling ∧ Token.isName name = true ∧ Spelled body spelling := by
  constructor
  · rintro ⟨next, pushed, closed, hasName⟩
    cases tokens with
    | nil =>
        cases pushed
        exact absurd noName hasName
    | cons token tokens =>
        simp only [pushAll] at pushed
        cases first : draft.push token with
        | error reason => simp only [first, reduceCtorEq] at pushed
        | ok middle =>
            simp only [first] at pushed
            obtain ⟨_, naming, _, _, rfl⟩ | ⟨_, collects, _⟩ | ⟨_, rfl⟩ | ⟨conditional, opened, _, opens, _⟩ |
              ⟨conditional, opened, _, opens, _⟩ := push_cases first
            · obtain ⟨body, spelled⟩ := (pushAll_named_iff { draft with name := some token }
                (Option.some_ne_none token) nothingOpen tokens).mp ⟨next, pushed, closed, hasName⟩
              exact ⟨token, tokens, body, rfl, naming, spelled⟩
            · rcases collects with someOpen | named
              · exact absurd nothingOpen someOpen
              · exact absurd noName named
            · have stillUnnamed : draft.begin.name = none := noName
              exact absurd closed (pushAll_unnamed stillUnnamed (List.cons_ne_nil _ _) pushed).2
            · rw [nothingOpen] at opens
              cases opens
            · rw [nothingOpen] at opens
              cases opens
  · rintro ⟨name, spelling, body, isList, naming, spelled⟩
    have plain := Token.mark?_of_isName naming
    have first : draft.push name = .ok { draft with name := some name } := by
      simp only [push, plain, takePlain, nothingOpen, noName, naming, if_true]
    obtain ⟨next, pushed, closed, hasName⟩ :=
      (pushAll_named_iff { draft with name := some name } (Option.some_ne_none name) nothingOpen
        spelling).mpr ⟨body, spelled⟩
    refine ⟨next, ?_, closed, hasName⟩
    rw [isList, pushAll, first]
    exact pushed

end Draft

namespace Opening

theorem draft_grammar (opening : Opening) (labels : Labels) (tokens : List Token) :
    (∃ next, (opening.draft labels).pushAll tokens = .ok next ∧ next.opened = [] ∧ next.name ≠ none) ↔
      opening.Grammar tokens := by
  cases opening with
  | named => exact Draft.pushAll_unnamed_iff (.named labels) rfl rfl tokens
  | anonymous =>
      exact Draft.pushAll_named_iff (.anonymous labels) (Option.some_ne_none _) rfl tokens

theorem complete_iff (opening : Opening) (labels : Labels) (tokens : List Token)
    (distinct : (Session.drawn labels ((opening.session labels).pushAll tokens)).Nodup) :
    (∃ definitions, ((opening.session labels).pushAll tokens).complete = .ok definitions) ↔
      opening.Grammar tokens := by
  obtain ⟨follows, sound⟩ := opening.pushAll_follows labels (List.prefix_refl tokens) distinct
  rw [← draft_grammar opening labels]
  cases pushed : (opening.draft labels).pushAll tokens with
  | error reason =>
      rw [pushed] at follows
      have failed : ((opening.session labels).pushAll tokens).failure = some reason := follows
      simp [Session.complete, failed]
  | ok next =>
      rw [pushed] at follows
      have reached : (opening.session labels).pushAll tokens = next.session := follows
      rw [reached, Draft.complete_ok_iff (sound next pushed)]
      simp only [Except.ok.injEq, exists_eq_left']

theorem finish_error (opening : Opening) (fuel : Nat) (interpreter : Interpreter) {session : Session}
    {reason : Reason} (fails : session.complete = .error reason) :
    opening.finish fuel interpreter session = some (interpreter.discard session reason) := by
  cases opening with
  | named => simp only [finish, Interpreter.endDefinition, fails]
  | anonymous => simp only [finish, Interpreter.endConditional, fails]

theorem depth_pushAll (opening : Opening) (labels : Labels) {front tokens : List Token}
    (before : front <+: tokens)
    (distinct : (Session.drawn labels ((opening.session labels).pushAll tokens)).Nodup)
    (sound : ((opening.session labels).pushAll front).hasFailed = false) :
    ((opening.session labels).pushAll front).depth + occurrences .thenMark front =
      occurrences .ifMark front := by
  obtain ⟨follows, _⟩ := opening.pushAll_follows labels before distinct
  cases pushed : (opening.draft labels).pushAll front with
  | error reason =>
      rw [pushed] at follows
      have failed : ((opening.session labels).pushAll front).failure = some reason := follows
      simp [Session.hasFailed, failed] at sound
  | ok next =>
      rw [pushed] at follows
      have reached : (opening.session labels).pushAll front = next.session := follows
      have counted := Nesting.length_readAll (Draft.readAll_of_pushAll pushed)
      rw [(Draft.branches_eq_nil _).mpr (draft_opened opening labels), List.length_nil] at counted
      rw [reached, Draft.depth_session]
      omega

end Opening

/-- A session whose labels are distinct becomes words exactly when its tokens are in its grammar; any
other tokens end in the fault of an incomplete definition. Before it fails its depth is the number of
`if` marks less the number of `then` marks. -/
theorem session_accepts_grammar (opening : Opening) (labels : Labels) (tokens : List Token)
    (distinct : (Session.drawn labels ((opening.session labels).pushAll tokens)).Nodup) :
    ((∃ definitions, ((opening.session labels).pushAll tokens).complete = .ok definitions) ↔
      opening.Grammar tokens) ∧
    (¬opening.Grammar tokens → ∃ reason,
      ((opening.session labels).pushAll tokens).complete = .error reason ∧
      ∀ fuel interpreter, ∃ reply,
        opening.finish fuel interpreter ((opening.session labels).pushAll tokens) = some reply ∧
        reply.fault = some (.incompleteDefinition reason.text)) ∧
    ∀ front, front <+: tokens → ((opening.session labels).pushAll front).hasFailed = false →
      (((opening.session labels).pushAll front).depth : Int) =
        occurrences .ifMark front - occurrences .thenMark front := by
  have accepts := opening.complete_iff labels tokens distinct
  refine ⟨accepts, ?_, ?_⟩
  · intro outside
    cases completes : ((opening.session labels).pushAll tokens).complete with
    | ok definitions => exact absurd (accepts.mp ⟨definitions, completes⟩) outside
    | error reason =>
        refine ⟨reason, rfl, ?_⟩
        intro fuel interpreter
        exact ⟨_, opening.finish_error fuel interpreter completes, rfl⟩
  · intro front before sound
    have counted := opening.depth_pushAll labels before distinct sound
    omega

/-- A name and nested branches with their marks in mixed case, and the same tokens without the
name. -/
theorem session_accepts_grammar_nested :
    (Session.drawn .standard ((Opening.named.session .standard).pushAll
      ["pick", "IF", "1", "Else", "if", "2", "then", "3", "THEN"])).Nodup ∧
    (∃ definitions, ((Opening.named.session .standard).pushAll
      ["pick", "IF", "1", "Else", "if", "2", "then", "3", "THEN"]).complete = .ok definitions) ∧
    ∃ reason, ((Opening.named.session .standard).pushAll
      ["IF", "1", "Else", "if", "2", "then", "3", "THEN"]).complete = .error reason := by
  have inner : Spelled (.ifThen (.token "2" .done) (.token "3" .done)) ["if", "2", "then", "3"] :=
    .ifThen (by decide) (by decide) (.token (by decide) .done) (.token (by decide) .done)
  have spelled : Spelled (.ifElse (.token "1" .done) (.ifThen (.token "2" .done) (.token "3" .done)) .done)
      ["IF", "1", "Else", "if", "2", "then", "3", "THEN"] :=
    .ifElse (by decide) (by decide) (by decide) (.token (by decide) .done) inner .done
  have distinct (tokens : List Token) :
      (Session.drawn .standard ((Opening.named.session .standard).pushAll tokens)).Nodup :=
    Labels.reserved_standard.nodup_forSession _
  have unnamed : ¬Opening.named.Grammar ["IF", "1", "Else", "if", "2", "then", "3", "THEN"] := by
    intro ⟨name, _, _, isList, naming, _⟩
    cases isList
    exact absurd naming (by decide)
  have refuses := (session_accepts_grammar .named .standard _ (distinct _)).2.1 unnamed
  obtain ⟨reason, fails, _⟩ := refuses
  exact ⟨distinct _, (session_accepts_grammar .named .standard _ (distinct _)).1.mpr
    ⟨"pick", _, _, rfl, by decide, spelled⟩, reason, fails⟩

end Forth

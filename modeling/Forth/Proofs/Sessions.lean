import Forth.Proofs.Draft

/-! A session finds its fragments by label in a table. As long as no label is drawn twice the table
only ever holds the definition and the conditionals that are open inside it, so the session follows
a draft token by token, and it becomes words exactly when the draft has its name and nothing is
open. -/

namespace Forth

section Tables

variable {β : Type}

theorem insert_insert (table : Std.ExtTreeMap String β compare) (key : String) (first second : β) :
    (table.insert key first).insert key second = table.insert key second := by
  apply Std.ExtTreeMap.ext_getElem?
  intro other
  simp only [Std.ExtTreeMap.getElem?_insert]
  split <;> rfl

theorem erase_insert (table : Std.ExtTreeMap String β compare) {key : String} (absent : key ∉ table)
    (value : β) : (table.insert key value).erase key = table := by
  apply Std.ExtTreeMap.ext_getElem?
  intro other
  simp only [Std.ExtTreeMap.getElem?_erase, Std.ExtTreeMap.getElem?_insert]
  split
  next same =>
    rw [Std.LawfulEqCmp.compare_eq_iff_eq] at same
    rw [← same, Std.ExtTreeMap.getElem?_eq_none absent]
  next => rfl

theorem toList_singleton (key : String) (value : β) :
    (Std.ExtTreeMap.insert (∅ : Std.ExtTreeMap String β compare) key value).toList = [(key, value)] := by
  have one := Std.ExtTreeMap.length_toList
    (t := Std.ExtTreeMap.insert (∅ : Std.ExtTreeMap String β compare) key value)
  rw [Std.ExtTreeMap.size_insert] at one
  simp only [Std.ExtTreeMap.size_empty] at one
  obtain ⟨entry, only⟩ := List.length_eq_one_iff.mp one
  have member : (key, value) ∈
      (Std.ExtTreeMap.insert (∅ : Std.ExtTreeMap String β compare) key value).toList := by
    rw [Std.ExtTreeMap.mem_toList_iff_getElem?_eq_some, Std.ExtTreeMap.getElem?_insert_self]
  rw [only, List.mem_singleton] at member
  rw [only, member]

end Tables

namespace Draft

/-- The fragments by label. -/
def table (base : String) (definition : Fragment) : List Conditional → Std.ExtTreeMap String Fragment compare
  | [] => Std.ExtTreeMap.insert ∅ base definition
  | conditional :: opened =>
      (table base definition opened).insert conditional.label (.conditional conditional)

/-- The session that the draft stands for. -/
def session (draft : Draft) : Session where
  labels := draft.labels
  base := draft.base
  current := draft.keys.headD draft.base
  parents := draft.keys.tail
  fragments := table draft.base (.definition draft.name draft.body) draft.opened
  completed := draft.completed

theorem session_named (labels : Labels) : Session.named labels = (named labels).session := rfl

theorem session_anonymous (labels : Labels) : Session.anonymous labels = (anonymous labels).session := rfl

/-- The innermost fragment. -/
def innermost (draft : Draft) : Fragment :=
  match draft.opened with
  | [] => .definition draft.name draft.body
  | conditional :: _ => .conditional conditional

theorem current_fragment (draft : Draft) :
    draft.session.fragments[draft.session.current]? = some draft.innermost := by
  obtain ⟨labels, base, name, body, _ | ⟨conditional, opened⟩, completed⟩ := draft
  · simp [session, keys, table, innermost]
  · simp [session, keys, table, innermost]

theorem mem_table (base : String) (definition : Fragment) (opened : List Conditional) (key : String) :
    key ∈ table base definition opened ↔ key ∈ opened.map Conditional.label ++ [base] := by
  induction opened with
  | nil =>
      simp only [table, Std.ExtTreeMap.mem_insert, Std.LawfulEqCmp.compare_eq_iff_eq,
        Std.ExtTreeMap.not_mem_empty, or_false, List.map_nil, List.nil_append, List.mem_singleton]
      exact eq_comm
  | cons conditional opened ih =>
      simp only [table, Std.ExtTreeMap.mem_insert, Std.LawfulEqCmp.compare_eq_iff_eq, ih,
        List.map_cons, List.cons_append, List.mem_cons]
      exact or_congr_left eq_comm

theorem table_base {base : String} {definition : Fragment} {opened : List Conditional}
    (distinct : (opened.map Conditional.label ++ [base]).Nodup) :
    (table base definition opened)[base]? = some definition := by
  induction opened with
  | nil => simp [table]
  | cons conditional opened ih =>
      simp only [List.map_cons, List.cons_append, List.nodup_cons] at distinct
      have apart : conditional.label ≠ base := by
        intro same
        exact distinct.1 (by simp [same])
      simpa [table, Std.ExtTreeMap.getElem?_insert, apart] using ih distinct.2

theorem name?_session {draft : Draft} (distinct : draft.keys.Nodup) : draft.session.name? = draft.name := by
  simp only [Session.name?, session, table_base distinct]

theorem depth_session (draft : Draft) : draft.session.depth = draft.branches.length := by
  simp [Session.depth, session, keys, branches]

theorem store_definition (draft : Draft) (nothingOpen : draft.opened = []) (name : Option String)
    (body : List Token) :
    draft.session.store (.definition name body) = session { draft with name, body } := by
  obtain ⟨labels, base, _, _, opened, completed⟩ := draft
  cases nothingOpen
  simp only [Session.store, session, keys, table]
  rw [List.map_nil, List.nil_append, List.headD_cons, insert_insert]

theorem store_conditional (draft : Draft) {conditional : Conditional} {opened : List Conditional}
    (opens : draft.opened = conditional :: opened) (changed : Conditional)
    (sameLabel : changed.label = conditional.label) :
    draft.session.store (.conditional changed) = session { draft with opened := changed :: opened } := by
  obtain ⟨labels, base, name, body, _, completed⟩ := draft
  cases opens
  simp only [Session.store, session, keys, table, List.map_cons, List.cons_append, List.headD_cons,
    List.tail_cons, sameLabel]
  rw [insert_insert]

theorem refer_session (draft : Draft) (collects : draft.Collects) (label : String) :
    draft.session.refer label = (draft.append label).session := by
  have found := current_fragment draft
  simp only [Session.refer, found]
  obtain ⟨labels, base, name, body, _ | ⟨conditional, opened⟩, completed⟩ := draft
  · cases name with
    | none => simp [Collects] at collects
    | some name => exact store_definition _ rfl (some name) (body ++ [label])
  · exact store_conditional _ rfl (conditional.append label) (label_append conditional label)

theorem refer_unnamed (draft : Draft) (nothingOpen : draft.opened = []) (noName : draft.name = none)
    (label : String) : draft.session.refer label = draft.session.fail .ifBeforeName := by
  have found := current_fragment draft
  simp only [innermost, nothingOpen, noName] at found
  simp only [Session.refer, found, Fragment.refer]

/-- Closing the innermost conditional leaves the session of the draft without it, which then calls
it. -/
theorem closeConditional_session (draft : Draft) {conditional : Conditional} {opened : List Conditional}
    (opens : draft.opened = conditional :: opened) (distinct : draft.keys.Nodup) :
    draft.session.closeConditional =
      (draft.shut conditional opened).session.refer conditional.label := by
  obtain ⟨labels, base, name, body, _, completed⟩ := draft
  cases opens
  simp only [keys, List.map_cons, List.cons_append, List.nodup_cons] at distinct
  have found := current_fragment
    { labels, base, name, body, completed, opened := conditional :: opened }
  have removed : (table base (.definition name body) (conditional :: opened)).erase conditional.label =
      table base (.definition name body) opened := by
    apply erase_insert
    rw [mem_table]
    exact distinct.1
  simp only [Session.closeConditional, found, innermost, shut]
  cases opened with
  | nil => simp only [session, keys, List.map_cons, List.map_nil, List.cons_append, List.nil_append,
      List.headD_cons, List.tail_cons, removed]
  | cons parent opened => simp only [session, keys, List.map_cons, List.cons_append, List.headD_cons,
      List.tail_cons, removed]

/-- A session agrees with what has become of a draft. -/
def Follows (session : Session) : Except Reason Draft → Prop
  | .ok next => session = next.session
  | .error reason => session.failure = some reason

theorem takeThen_follows {draft : Draft} {conditional : Conditional} {opened : List Conditional}
    (distinct : draft.keys.Nodup) (opens : draft.opened = conditional :: opened) (token : Token) :
    Follows (draft.session.store (.conditional { conditional with closed := true })).closeConditional
      (draft.takeThen token) := by
  have sameKeys : (keys { draft with opened := { conditional with closed := true } :: opened }).Nodup := by
    simpa [keys, opens] using distinct
  rw [store_conditional draft opens { conditional with closed := true } rfl,
    closeConditional_session _ rfl sameKeys]
  simp only [takeThen, opens]
  split
  next unnamed =>
    exact congrArg Session.failure
      (refer_unnamed (draft.shut conditional opened) unnamed.1 unnamed.2 conditional.label)
  next collects =>
    exact refer_session (draft.shut conditional opened)
      (Classical.not_and_iff_not_or_not.mp collects) conditional.label

theorem takePlain_follows (draft : Draft) {token : Token} (plain : token.mark? = none) :
    Follows (draft.session.route token) (draft.takePlain token) := by
  have found := current_fragment draft
  simp only [Session.route, found]
  obtain ⟨labels, base, name, body, _ | ⟨conditional, opened⟩, completed⟩ := draft
  · cases name with
    | none =>
        simp only [innermost, Fragment.take, Fragment.takeIntoDefinition, takePlain]
        cases naming : token.isName with
        | true => exact store_definition _ rfl (some token) body
        | false => rfl
    | some name =>
        simp only [innermost, Fragment.take, Fragment.takeIntoDefinition, plain, takePlain]
        exact store_definition _ rfl (some name) (body ++ [token])
  · simp only [innermost, Fragment.take, Fragment.takeIntoConditional, plain, takePlain]
    exact store_conditional _ rfl (conditional.append token) (label_append conditional token)

/-- A definition refuses the marks of a branch. -/
theorem route_refused (draft : Draft) {token : Token} (nothingOpen : draft.opened = [])
    (branchMark : token.mark? = some .elseMark ∨ token.mark? = some .thenMark) :
    draft.session.route token = draft.session.fail (draft.refuse token) := by
  have found := current_fragment draft
  simp only [Session.route, found, innermost, nothingOpen, Fragment.take, Fragment.takeIntoDefinition, refuse]
  cases draft.name with
  | none =>
      have noName : ¬token.isName = true := by
        intro isName
        simp [Token.mark?_of_isName isName] at branchMark
      simp [noName]
  | some name =>
      rcases branchMark with mark | mark
      · simp [mark]
      · simp [mark]

theorem takeElse_follows (draft : Draft) {token : Token} (mark : token.mark? = some .elseMark) :
    Follows (draft.session.route token) (draft.takeElse token) := by
  cases opens : draft.opened with
  | nil =>
      rw [route_refused draft opens (.inl mark)]
      simp only [takeElse, opens]
      rfl
  | cons conditional opened =>
      have found := current_fragment draft
      simp only [Session.route, found, innermost, opens, Fragment.take, Fragment.takeIntoConditional,
        mark, takeElse]
      cases branch : conditional.branch with
      | ifBranch => exact store_conditional draft opens { conditional with branch := .elseBranch } rfl
      | elseBranch => rfl

theorem push_follows {draft : Draft} (distinct : draft.keys.Nodup) (token : Token) :
    Follows (draft.session.push token) (draft.push token) := by
  have sound : draft.session.hasFailed = false := rfl
  simp only [Session.push, sound, Bool.false_eq_true, if_false, push]
  cases mark : token.mark? with
  | none => exact takePlain_follows draft mark
  | some kind =>
      cases kind with
      | colon => rfl
      | semicolon => rfl
      | ifMark =>
          cases opens : draft.opened <;>
            simp [Follows, Session.openConditional, session, begin, keys, table, opens]
      | elseMark => exact takeElse_follows draft mark
      | thenMark =>
          cases opens : draft.opened with
          | nil =>
              rw [route_refused draft opens (.inr mark)]
              simp only [takeThen, opens]
              rfl
          | cons conditional opened =>
              have found := current_fragment draft
              simp only [Session.route, found, innermost, opens, Fragment.take,
                Fragment.takeIntoConditional, mark]
              exact takeThen_follows distinct opens token

end Draft

namespace Session

theorem labels_refer (session : Session) (label : String) : (session.refer label).labels = session.labels := by
  unfold refer
  split
  · rfl
  · split <;> rfl

theorem labels_closeConditional (session : Session) : session.closeConditional.labels = session.labels := by
  unfold closeConditional
  dsimp only
  split
  · split
    · rfl
    · rw [labels_refer]
  · rfl

theorem labels_route (session : Session) (token : Token) : (session.route token).labels = session.labels := by
  unfold route
  split
  · rfl
  · split
    · rfl
    · rw [labels_closeConditional]
      rfl
    · rfl

theorem labels_push (session : Session) (token : Token) :
    (session.push token).labels = session.labels ∨
      token.mark? = some .ifMark ∧ (session.push token).labels = session.labels.afterConditional := by
  unfold push
  split
  · exact .inl rfl
  · split
    next mark => exact .inr ⟨mark, rfl⟩
    next => exact .inl rfl
    next => exact .inl rfl
    next => exact .inl (labels_route session token)

/-- A session draws labels of conditionals only, and at most one for every `if`. -/
theorem labels_pushAll (session : Session) (tokens : List Token) :
    ∃ count ≤ Nesting.occurrences .ifMark tokens,
      (session.pushAll tokens).labels = session.labels.skip count := by
  induction tokens generalizing session with
  | nil => exact ⟨0, Nat.zero_le _, rfl⟩
  | cons token tokens ih =>
      obtain ⟨count, few, later⟩ := ih (session.push token)
      rw [Nesting.occurrences_cons]
      rcases labels_push session token with same | ⟨mark, drawn⟩
      · exact ⟨count, Nat.le_add_right_of_le few, by rw [← same]; exact later⟩
      · refine ⟨1 + count, ?_, by rw [← Labels.afterConditional_skip, ← drawn]; exact later⟩
        rw [if_pos mark]
        omega

theorem pushAll_append (session : Session) (front back : List Token) :
    session.pushAll (front ++ back) = (session.pushAll front).pushAll back := List.foldl_append

theorem pushAll_failed {session : Session} {reason : Reason} (failed : session.failure = some reason)
    (tokens : List Token) : session.pushAll tokens = session := by
  have ignores (token : Token) : session.push token = session := by
    simp [push, hasFailed, failed]
  induction tokens with
  | nil => rfl
  | cons token tokens ih =>
      simp only [pushAll, List.foldl_cons, ignores token] at ih ⊢
      exact ih

end Session

namespace Draft

/-- No label stands for two fragments, and no conditional is kept after it has been closed. -/
structure Sound (draft : Draft) : Prop where
  distinct : draft.keys.Nodup
  unfinished : ∀ conditional ∈ draft.opened, conditional.closed = false

/-- The session follows its draft through any tokens, provided that the labels it draws on the way
are distinct from each other and from those in use. -/
theorem pushAll_follows {draft : Draft} (tokens : List Token) (count : Nat) (sound : draft.Sound)
    (distinct : (draft.keys ++ draft.labels.upcoming count).Nodup)
    (enough : (draft.session.pushAll tokens).labels.conditionals ≤ draft.labels.conditionals + count) :
    Follows (draft.session.pushAll tokens) (draft.pushAll tokens) ∧
      ∀ next, draft.pushAll tokens = .ok next → next.Sound := by
  induction tokens generalizing draft count with
  | nil =>
      refine ⟨rfl, ?_⟩
      intro next pushed
      cases pushed
      exact sound
  | cons token tokens ih =>
      have follows := push_follows sound.distinct token
      have splits : draft.session.pushAll (token :: tokens) =
        (draft.session.push token).pushAll tokens := rfl
      rw [splits] at enough ⊢
      simp only [pushAll]
      cases pushed : draft.push token with
      | error reason =>
          rw [pushed] at follows
          refine ⟨?_, by intro next failed; cases failed⟩
          simpa only [Session.pushAll_failed follows tokens] using follows
      | ok next =>
          rw [pushed] at follows
          have moved : draft.session.push token = next.session := follows
          rw [moved] at enough ⊢
          rcases keys_push pushed with ⟨labels, keys⟩ | ⟨labels, keys⟩
          · obtain ⟨more, _, final⟩ := Session.labels_pushAll next.session tokens
            have counted : (next.session.pushAll tokens).labels.conditionals =
                draft.labels.conditionals + 1 + more := by
              rw [final]
              simp only [session, labels]
              rfl
            obtain ⟨rest, rfl⟩ : ∃ rest, count = rest + 1 := ⟨count - 1, by omega⟩
            have nextDistinct : (next.keys ++ next.labels.upcoming rest).Nodup := by
              rw [keys, labels]
              exact List.perm_middle.nodup_iff.mp distinct
            refine ih rest ⟨(List.nodup_append.mp nextDistinct).1, unfinished_push pushed sound.unfinished⟩
              nextDistinct ?_
            rw [labels]
            simp only [Labels.afterConditional]
            omega
          · have nextDistinct : (next.keys ++ next.labels.upcoming count).Nodup := by
              rw [labels]
              exact (keys.sublist.append (List.Sublist.refl _)).nodup distinct
            refine ih count ⟨keys.sublist.nodup sound.distinct, unfinished_push pushed sound.unfinished⟩
              nextDistinct ?_
            rwa [labels]

theorem pushAll_session {draft next : Draft} {tokens : List Token} (sound : draft.Sound)
    (distinct : (draft.keys ++ draft.labels.upcoming (Nesting.occurrences .ifMark tokens)).Nodup)
    (pushed : draft.pushAll tokens = .ok next) :
    draft.session.pushAll tokens = next.session ∧ next.Sound := by
  obtain ⟨count, few, final⟩ := Session.labels_pushAll draft.session tokens
  have enough : (draft.session.pushAll tokens).labels.conditionals ≤
      draft.labels.conditionals + Nesting.occurrences .ifMark tokens := by
    rw [final]
    exact Nat.add_le_add_left few draft.labels.conditionals
  obtain ⟨follows, staysSound⟩ := pushAll_follows tokens _ sound distinct enough
  rw [pushed] at follows
  exact ⟨follows, staysSound next pushed⟩

end Draft

/-- The two ways to open a session. -/
inductive Opening where
  | named
  | anonymous
deriving DecidableEq, Repr

namespace Opening

def session : Opening → Labels → Session
  | .named => .named
  | .anonymous => .anonymous

def draft : Opening → Labels → Draft
  | .named => .named
  | .anonymous => .anonymous

theorem session_draft (opening : Opening) (labels : Labels) :
    opening.session labels = (opening.draft labels).session := by
  cases opening with
  | named => exact Draft.session_named labels
  | anonymous => exact Draft.session_anonymous labels

theorem draft_opened (opening : Opening) (labels : Labels) : (opening.draft labels).opened = [] := by
  cases opening <;> rfl

theorem draft_labels (opening : Opening) (labels : Labels) :
    (opening.draft labels).labels = labels.afterDefinition := by
  cases opening <;> rfl

theorem draft_keys (opening : Opening) (labels : Labels) :
    (opening.draft labels).keys = [labels.nextDefinition] := by
  cases opening <;> rfl

theorem draft_sound (opening : Opening) (labels : Labels) : (opening.draft labels).Sound := by
  constructor
  · rw [draft_keys]
    exact List.pairwise_singleton _ _
  · rw [draft_opened]
    intro conditional member
    cases member

/-- What a session has collected, if the labels it can draw on the way are distinct. -/
theorem pushAll_session (opening : Opening) {labels : Labels} {tokens : List Token} {next : Draft}
    {conditionals : Nat} (distinct : (labels.forSession conditionals).Nodup)
    (few : Nesting.occurrences .ifMark tokens ≤ conditionals)
    (pushed : (opening.draft labels).pushAll tokens = .ok next) :
    (opening.session labels).pushAll tokens = next.session := by
  have drawn := (labels.forSession_sublist few).nodup distinct
  rw [session_draft]
  refine (Draft.pushAll_session (opening.draft_sound labels) ?_ pushed).1
  rw [draft_keys, draft_labels]
  exact drawn

end Opening

/-- A fragment that keeps its session from becoming words. -/
def Fragment.Pending : Fragment → Prop
  | .definition name _ => name = none
  | .conditional content => content.closed = false

theorem Session.gather_pending {entries : List (String × Fragment)} {label : String} {fragment : Fragment}
    (member : (label, fragment) ∈ entries) (pending : fragment.Pending) (definitions : Definitions) :
    ∃ reason, gather definitions entries = .error reason := by
  induction entries generalizing definitions with
  | nil => cases member
  | cons entry entries ih =>
      obtain ⟨key, ⟨_ | name, body⟩ | content⟩ := entry
      · exact ⟨_, rfl⟩
      · rcases List.mem_cons.mp member with same | later
        · cases same
          cases pending
        · exact ih later _
      · rcases List.mem_cons.mp member with same | later
        · cases same
          have notClosed : content.closed = false := pending
          simp only [gather, notClosed]
          exact ⟨_, rfl⟩
        · simp only [gather]
          split
          · exact ih later _
          · exact ⟨_, rfl⟩

namespace Draft

theorem complete_named {draft : Draft} {name : String} (nothingOpen : draft.opened = [])
    (hasName : draft.name = some name) :
    draft.session.complete = .ok (draft.completed.insert name (.compiled draft.body)) := by
  simp only [Session.complete, session, nothingOpen, hasName, table, toList_singleton, Session.gather]

theorem complete_open {draft : Draft} (sound : draft.Sound) (someOpen : draft.opened ≠ []) :
    ∃ reason, draft.session.complete = .error reason := by
  obtain ⟨labels, base, name, body, _ | ⟨conditional, opened⟩, completed⟩ := draft
  · exact absurd rfl someOpen
  · have member : (conditional.label, Fragment.conditional conditional) ∈
        (table base (.definition name body) (conditional :: opened)).toList := by
      rw [Std.ExtTreeMap.mem_toList_iff_getElem?_eq_some, table, Std.ExtTreeMap.getElem?_insert_self]
    exact Session.gather_pending member (sound.unfinished conditional (List.mem_cons_self ..)) completed

theorem complete_unnamed {draft : Draft} (nothingOpen : draft.opened = []) (noName : draft.name = none) :
    draft.session.complete = .error .neverNamed := by
  simp only [Session.complete, session, nothingOpen, noName, table, toList_singleton, Session.gather]

/-- A session becomes words exactly when it has its name and nothing is open. -/
theorem complete_ok_iff {draft : Draft} (sound : draft.Sound) :
    (∃ definitions, draft.session.complete = .ok definitions) ↔ draft.opened = [] ∧ draft.name ≠ none := by
  by_cases nothingOpen : draft.opened = []
  · cases hasName : draft.name with
    | none => simp [complete_unnamed nothingOpen hasName]
    | some name => simp [complete_named nothingOpen hasName, nothingOpen]
  · obtain ⟨reason, fails⟩ := complete_open sound nothingOpen
    simp [fails, nothingOpen]

end Draft

end Forth

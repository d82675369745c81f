import Forth.Proofs.Acceptance
import Forth.Proofs.Draws
import Forth.Proofs.Enumeration

/-! What a session keeps in order. The fragments that are open are linked by the list of parents, found by
label in the table, and turned into words when they are closed; with labels that are drawn only once the three
agree after every token. So a session never misses a fragment that its own bookkeeping promises, and only
conditionals that are still open are left in the table. -/

namespace Forth

open Nesting (occurrences)

namespace Fragment

def isConditional : Fragment → Bool
  | .definition _ _ => false
  | .conditional _ => true

end Fragment

namespace Reason

/-- Whether the reason lies in the bookkeeping of the session and not in a token that it was handed. -/
def isInternal : Reason → Bool
  | .noOpenFragment _ | .notAConditional _ | .noEnclosingDefinition _ | .parentGone _ => true
  | _ => false

end Reason

namespace Session

/-- The labels of the open fragments, outermost first. -/
def chain (session : Session) : List String := session.parents.reverse ++ [session.current]

/-- The chain of open fragments, the table and the words made so far agree. -/
structure WellFormed (session : Session) : Prop where
  distinct : session.chain.Nodup
  outermost : session.chain.head? = some session.base
  keys : ∀ key, key ∈ session.fragments ↔ key ∈ session.chain
  definition : ∃ name body, session.fragments[session.base]? = some (.definition name body)
  conditionals : ∀ key fragment, key ≠ session.base → session.fragments[key]? = some fragment →
    ∃ content, fragment = .conditional content ∧ content.label = key ∧ content.closed = false
  apart : ∀ label ∈ session.completed, label ∉ session.fragments
  depth : session.depth = session.fragments.toList.countP fun entry => entry.2.isConditional

/-- Goes through fragments as if no conditional among them could be closed. -/
def gatherOpen (definitions : Definitions) : List (String × Fragment) → Except Reason Definitions
  | [] => .ok definitions
  | (_, .definition none _) :: _ => .error .neverNamed
  | (_, .definition (some name) body) :: rest => gatherOpen (definitions.insert name (.compiled body)) rest
  | (label, .conditional _) :: _ => .error (.missingThen label)

theorem gather_eq_gatherOpen {entries : List (String × Fragment)}
    (unfinished : ∀ key content, (key, Fragment.conditional content) ∈ entries → content.closed = false)
    (definitions : Definitions) : gather definitions entries = gatherOpen definitions entries := by
  induction entries generalizing definitions with
  | nil => rfl
  | cons entry entries ih =>
      have later := ih fun key content member => unfinished key content (List.mem_cons_of_mem entry member)
      obtain ⟨key, ⟨_ | name, body⟩ | content⟩ := entry
      · rfl
      · exact later _
      · have notClosed := unfinished key content (List.mem_cons_self ..)
        simp only [gather, notClosed, Bool.false_eq_true, if_false, gatherOpen]

/-- In a session that is well-formed there is no closed conditional to be gathered, in whatever order the
fragments are gone through. -/
theorem WellFormed.gather_eq {session : Session} (wellFormed : session.WellFormed) {order : List (String × Fragment)}
    (enumerates : order.Perm session.fragments.toList) :
    gather session.completed order = gatherOpen session.completed order := by
  apply gather_eq_gatherOpen
  intro key content member
  have found := (mem_order_iff enumerates).mp member
  by_cases atBase : key = session.base
  · obtain ⟨name, body, isDefinition⟩ := wellFormed.definition
    rw [atBase, isDefinition] at found
    cases found
  · obtain ⟨_, same, _, notClosed⟩ := wellFormed.conditionals key _ atBase found
    cases same
    exact notClosed

/-- What a session is told at its end is never about its bookkeeping, unless it was spoilt by that before. -/
theorem complete_internal {session : Session} {reason : Reason} (fails : session.complete = .error reason)
    (sound : ∀ earlier, session.failure = some earlier → earlier.isInternal = false) : reason.isInternal = false := by
  cases failure : session.failure with
  | some earlier =>
      simp only [complete, failure, Except.error.injEq] at fails
      exact fails ▸ sound earlier failure
  | none =>
      simp only [complete, failure] at fails
      obtain ⟨key, fragment, _, _, rfl⟩ := gather_error fails
      cases fragment <;> rfl

end Session

namespace Draft

variable {draft next : Draft} {token : Token} {tokens : List Token} {count : Nat}

/-- The labels in use differ from each other and from those still to be drawn, and none of all these stands
for a conditional that has been closed. -/
structure Fresh (draft : Draft) (count : Nat) : Prop where
  distinct : (draft.keys ++ draft.labels.upcoming count).Nodup
  apart : ∀ label ∈ draft.completed, label ∉ draft.keys ++ draft.labels.upcoming count

theorem completed_append (draft : Draft) (token : Token) : (draft.append token).completed = draft.completed := by
  cases opens : draft.opened <;> simp only [append, opens]

theorem Fresh.append (fresh : draft.Fresh count) (token : Token) : (draft.append token).Fresh count := by
  constructor
  · rw [keys_append, labels_append]
    exact fresh.distinct
  · rw [keys_append, labels_append, completed_append]
    exact fresh.apart

/-- The label of an opened conditional comes from those still to be drawn. -/
theorem Fresh.begin (fresh : draft.Fresh (count + 1)) : draft.begin.Fresh count := by
  have moved : (draft.begin.keys ++ draft.begin.labels.upcoming count).Perm
      (draft.keys ++ draft.labels.upcoming (count + 1)) := List.perm_middle.symm
  constructor
  · exact moved.nodup_iff.mpr fresh.distinct
  · intro label closed
    rw [moved.mem_iff]
    exact fresh.apart label closed

/-- The label of a closed conditional goes over to the words and is not in use any more. -/
theorem Fresh.shut {conditional : Conditional} {opened : List Conditional} (fresh : draft.Fresh count)
    (opens : draft.opened = conditional :: opened) : (draft.shut conditional opened).Fresh count := by
  have inUse : draft.keys = conditional.label :: (draft.shut conditional opened).keys := by
    simp only [keys, opens, List.map_cons, List.cons_append, Draft.shut]
  obtain ⟨distinct, apart⟩ := fresh
  rw [inUse, List.cons_append] at distinct apart
  obtain ⟨gone, distinctRest⟩ := List.nodup_cons.mp distinct
  refine ⟨distinctRest, ?_⟩
  intro label closed
  rw [Draft.shut, Std.ExtTreeMap.mem_insert, Std.compare_eq_iff_eq] at closed
  rcases closed with rfl | earlier
  · exact gone
  · exact fun member => apart label earlier (List.mem_cons_of_mem _ member)

theorem Fresh.push (pushed : draft.push token = .ok next)
    (fresh : draft.Fresh (count + if token.mark? = some .ifMark then 1 else 0)) : next.Fresh count := by
  obtain ⟨plain, _, _, _, rfl⟩ | ⟨plain, _, rfl⟩ | ⟨mark, rfl⟩ | ⟨conditional, opened, mark, opens, _, rfl⟩ |
    ⟨conditional, opened, mark, opens, _, rfl⟩ := push_cases pushed
  · rw [if_neg (by simp [plain])] at fresh
    exact ⟨fresh.distinct, fresh.apart⟩
  · rw [if_neg (by simp [plain])] at fresh
    exact fresh.append token
  · rw [if_pos mark] at fresh
    exact fresh.begin
  · rw [if_neg (by simp [mark])] at fresh
    obtain ⟨distinct, apart⟩ := fresh
    simp only [keys, opens, List.map_cons] at distinct apart
    exact ⟨distinct, apart⟩
  · rw [if_neg (by simp [mark])] at fresh
    exact (fresh.shut opens).append conditional.label

theorem Fresh.pushAll (pushed : draft.pushAll tokens = .ok next)
    (fresh : draft.Fresh (count + occurrences .ifMark tokens)) : next.Fresh count := by
  induction tokens generalizing draft with
  | nil =>
      cases pushed
      exact fresh
  | cons token tokens ih =>
      simp only [Draft.pushAll] at pushed
      cases first : draft.push token with
      | error reason => simp only [first, reduceCtorEq] at pushed
      | ok middle =>
          simp only [first] at pushed
          rw [Nesting.occurrences_cons, ← Nat.add_assoc] at fresh
          exact ih pushed (fresh.push first)

/-- A draft refuses a token for what it is and where it stands. -/
theorem push_error {reason : Reason} (refused : draft.push token = .error reason) : reason.isInternal = false := by
  unfold push takePlain takeElse takeThen refuse at refused
  grind [Reason.isInternal]

theorem pushAll_error {reason : Reason} (refused : draft.pushAll tokens = .error reason) :
    reason.isInternal = false := by
  induction tokens generalizing draft with
  | nil => cases refused
  | cons token tokens ih =>
      simp only [pushAll] at refused
      cases first : draft.push token with
      | error earlier =>
          simp only [first, Except.error.injEq] at refused
          exact refused ▸ push_error first
      | ok middle =>
          simp only [first] at refused
          exact ih refused

/-- The fragments with their labels, innermost first. -/
def entries (draft : Draft) : List (String × Fragment) :=
  draft.opened.map (fun conditional => (conditional.label, .conditional conditional)) ++
    [(draft.base, .definition draft.name draft.body)]

theorem keys_entries (draft : Draft) : draft.entries.map Prod.fst = draft.keys := by
  simp [entries, keys, Function.comp_def]

/-- The table finds just the fragments of the draft. -/
theorem found_iff (distinct : draft.keys.Nodup) (key : String) (fragment : Fragment) :
    draft.session.fragments[key]? = some fragment ↔ (key, fragment) ∈ draft.entries := by
  obtain ⟨labels, base, name, body, opened, completed⟩ := draft
  simp only [session, entries, keys] at distinct ⊢
  induction opened with
  | nil =>
      simp only [table, Std.ExtTreeMap.getElem?_insert, Std.compare_eq_iff_eq, Std.ExtTreeMap.getElem?_empty,
        List.map_nil, List.nil_append, List.mem_singleton, Prod.mk.injEq]
      grind
  | cons conditional opened ih =>
      simp only [List.map_cons, List.cons_append, List.nodup_cons] at distinct
      have later := ih distinct.2
      simp only [table, Std.ExtTreeMap.getElem?_insert, Std.compare_eq_iff_eq, List.map_cons, List.cons_append,
        List.mem_cons, Prod.mk.injEq]
      by_cases same : conditional.label = key
      · -- No other fragment has the label of this one.
        have noOther : (key, fragment) ∉ opened.map (fun conditional => (conditional.label,
            Fragment.conditional conditional)) ++ [(base, .definition name body)] := by
          intro member
          have listed := List.mem_map_of_mem (f := Prod.fst) member
          simp only [List.map_append, List.map_map, Function.comp_def, List.map_cons, List.map_nil] at listed
          exact distinct.1 (same ▸ listed)
        simp only [same, if_true, Option.some.injEq, true_and, noOther, or_false, eq_comm]
      · have other : key ≠ conditional.label := fun equal => same equal.symm
        simp only [same, if_false, other, false_and, false_or]
        exact later

theorem toList_perm_entries (distinct : draft.keys.Nodup) : draft.session.fragments.toList.Perm draft.entries := by
  have listsOnce : draft.session.fragments.toList.Nodup := by
    apply List.Nodup.of_map Prod.fst
    rw [Std.ExtTreeMap.map_fst_toList_eq_keys]
    exact Std.ExtTreeMap.nodup_keys
  have entersOnce : draft.entries.Nodup := by
    apply List.Nodup.of_map Prod.fst
    rw [keys_entries]
    exact distinct
  apply (List.perm_ext_iff_of_nodup listsOnce entersOnce).mpr
  rintro ⟨key, fragment⟩
  rw [Std.ExtTreeMap.mem_toList_iff_getElem?_eq_some, found_iff distinct]

theorem countP_entries (draft : Draft) :
    draft.entries.countP (fun entry => entry.2.isConditional) = draft.opened.length := by
  rw [entries, List.countP_append, List.countP_map]
  simp [Function.comp_def, Fragment.isConditional]

theorem chain_session (draft : Draft) : draft.session.chain = draft.keys.reverse := by
  obtain ⟨labels, base, name, body, _ | ⟨conditional, opened⟩, completed⟩ := draft <;>
    simp [Session.chain, session, keys]

theorem wellFormed_session (sound : draft.Sound) (apart : ∀ label ∈ draft.completed, label ∉ draft.keys) :
    draft.session.WellFormed where
  distinct := by
    rw [chain_session, List.nodup_reverse]
    exact sound.distinct
  outermost := by
    rw [chain_session, List.head?_reverse]
    simp [keys, session]
  keys key := by
    rw [chain_session, List.mem_reverse]
    exact mem_table draft.base _ draft.opened key
  definition := ⟨draft.name, draft.body, table_base sound.distinct⟩
  conditionals key fragment other found := by
    rw [found_iff sound.distinct, entries, List.mem_append] at found
    rcases found with isOpen | atBase
    · obtain ⟨conditional, member, same⟩ := List.mem_map.mp isOpen
      cases same
      exact ⟨conditional, rfl, rfl, sound.unfinished conditional member⟩
    · rw [List.mem_singleton, Prod.mk.injEq] at atBase
      exact absurd atBase.1 other
  apart label closed member := apart label closed ((mem_table draft.base _ draft.opened label).mp member)
  depth := by
    rw [depth_session, (toList_perm_entries sound.distinct).countP_eq, countP_entries, branches, List.length_map]

end Draft

namespace Opening

theorem draft_fresh (opening : Opening) {labels : Labels} {count : Nat} (distinct : (labels.forSession count).Nodup) :
    (opening.draft labels).Fresh count := by
  constructor
  · rw [draft_keys, draft_labels]
    exact distinct
  · intro label closed
    cases opening <;> exact absurd closed Std.ExtTreeMap.not_mem_empty

/-- Before it is spoilt a session has drawn no more labels than it will have drawn in the end. -/
theorem nodup_forSession_of_drawn (opening : Opening) {labels : Labels} {front tokens : List Token}
    (before : front <+: tokens) (sound : ((opening.session labels).pushAll front).hasFailed = false)
    (distinct : (Session.drawn labels ((opening.session labels).pushAll tokens)).Nodup) :
    (labels.forSession (occurrences .ifMark front)).Nodup := by
  obtain ⟨back, rfl⟩ := before
  obtain ⟨late, _, atEnd⟩ := Session.labels_pushAll ((opening.session labels).pushAll front) back
  have started : (opening.session labels).labels = labels.afterDefinition := by
    rw [session_draft]
    exact draft_labels opening labels
  have drawn : ((opening.session labels).pushAll (front ++ back)).labels.conditionals =
      labels.conditionals + occurrences .ifMark front + late := by
    rw [Session.pushAll_append, atEnd, Session.labels_pushAll_eq sound, started]
    rfl
  refine (labels.forSession_sublist ?_).nodup distinct
  omega

theorem pushAll_wellFormed (opening : Opening) {labels : Labels} {front tokens : List Token}
    (before : front <+: tokens) (sound : ((opening.session labels).pushAll front).hasFailed = false)
    (distinct : (Session.drawn labels ((opening.session labels).pushAll tokens)).Nodup) :
    ((opening.session labels).pushAll front).WellFormed := by
  obtain ⟨follows, staysSound⟩ := opening.pushAll_follows labels before distinct
  cases pushed : (opening.draft labels).pushAll front with
  | error reason =>
      rw [pushed] at follows
      have failed : ((opening.session labels).pushAll front).failure = some reason := follows
      simp only [Session.hasFailed, failed, Option.isSome_some, Bool.true_eq_false] at sound
  | ok next =>
      rw [pushed] at follows
      have reached : (opening.session labels).pushAll front = next.session := follows
      have fresh : (opening.draft labels).Fresh (0 + occurrences .ifMark front) := by
        rw [Nat.zero_add]
        exact opening.draft_fresh (opening.nodup_forSession_of_drawn before sound distinct)
      have apart := (fresh.pushAll pushed).apart
      rw [reached]
      apply Draft.wellFormed_session (staysSound next pushed)
      intro label closed member
      exact apart label closed (List.mem_append_left _ member)

/-- Whatever spoils the session, it is a token and not the bookkeeping. -/
theorem failure_internal (opening : Opening) {labels : Labels} {front tokens : List Token} {reason : Reason}
    (before : front <+: tokens) (failed : ((opening.session labels).pushAll front).failure = some reason)
    (distinct : (Session.drawn labels ((opening.session labels).pushAll tokens)).Nodup) :
    reason.isInternal = false := by
  obtain ⟨follows, _⟩ := opening.pushAll_follows labels before distinct
  cases pushed : (opening.draft labels).pushAll front with
  | error earlier =>
      rw [pushed] at follows
      have same : some earlier = some reason := follows.symm.trans failed
      exact Option.some.inj same ▸ Draft.pushAll_error pushed
  | ok next =>
      rw [pushed] at follows
      have reached : (opening.session labels).pushAll front = next.session := follows
      rw [reached] at failed
      cases failed

end Opening

/-- A session whose labels are distinct is well-formed after any tokens that have not spoilt it: the open
fragments form a chain of distinct labels from the definition to the current one, the table holds just these,
a definition under the session's own label and an unfinished conditional under every other, none of them has
become a word, and the depth counts the conditionals. So going through what is left never meets a closed
conditional, and neither a token nor the end of the session is ever refused because a fragment is missing or
is of the wrong kind. -/
theorem sessions_stay_well_formed (opening : Opening) (labels : Labels) (tokens : List Token)
    (distinct : (Session.drawn labels ((opening.session labels).pushAll tokens)).Nodup) :
    ∀ front, front <+: tokens →
      let session := (opening.session labels).pushAll front
      (session.hasFailed = false → session.WellFormed ∧
        ∀ order : List (String × Fragment), order.Perm session.fragments.toList →
          Session.gather session.completed order = Session.gatherOpen session.completed order) ∧
      (∀ reason, session.failure = some reason → reason.isInternal = false) ∧
      ∀ reason, session.complete = .error reason → reason.isInternal = false := by
  intro front before session
  have sound : ∀ reason, session.failure = some reason → reason.isInternal = false := by
    intro reason failed
    exact opening.failure_internal before failed distinct
  refine ⟨?_, sound, ?_⟩
  · intro unspoilt
    have wellFormed := opening.pushAll_wellFormed before unspoilt distinct
    exact ⟨wellFormed, fun _ enumerates => wellFormed.gather_eq enumerates⟩
  · intro reason fails
    exact Session.complete_internal fails sound

/-- A conditional has been closed into a word, another is open inside a third, and a second `else` then spoils
the session. -/
theorem sessions_stay_well_formed_nested :
    let session := (Opening.named.session .standard).pushAll ["w", "if", "1", "then", "if", "IF", "2", "else"]
    session.chain = ["definition-0", "<if-1>", "<if-2>"] ∧ session.completed.keys = ["<if-0>"] ∧
    session.WellFormed ∧
    (session.push "Else").failure = some (.secondElse "<if-2>") ∧ (Reason.secondElse "<if-2>").isInternal = false := by
  intro session
  have distinct (tokens : List Token) :
      (Session.drawn .standard ((Opening.named.session .standard).pushAll tokens)).Nodup :=
    Labels.reserved_standard.nodup_forSession _
  have wellFormed := (sessions_stay_well_formed .named .standard
    ["w", "if", "1", "then", "if", "IF", "2", "else", "Else"] (distinct _)
    ["w", "if", "1", "then", "if", "IF", "2", "else"] (by decide)).1 (by decide +kernel)
  have spoilt := (sessions_stay_well_formed .named .standard
    ["w", "if", "1", "then", "if", "IF", "2", "else", "Else"] (distinct _) _ (List.prefix_refl _)).2.1
  exact ⟨by decide +kernel, by decide +kernel, wellFormed.1, by decide +kernel, spoilt _ (by decide +kernel)⟩

/-- A label that comes back takes the place of the fragment around the one it is drawn for. -/
example : ((Session.named (.cycling ["d", "x", "x"])).pushAll ["w", "if", "if", "then"]).failure =
    some (.parentGone "x") := by
  decide +kernel

end Forth

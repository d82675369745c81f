import Forth.Interpreter
import Forth.Proofs.Installation
import Forth.Proofs.Sessions
import Mathlib.Data.List.Nodup

/-! Tables are gone through in any order. At its end a session goes through the fragments it has left, and
its words are then added to the dictionary one by one, and erased one by one after a conditional outside of
definitions. No result depends on the order, even if labels come back or clash with names: a conditional
leaves the table when it is closed and a definition stands only under the session's own label, so a session
that becomes words has at most one fragment left, and any other has one that stands in the way. -/

namespace Forth

namespace Fragment

/-- Where a fragment may stand: a definition under the session's own label, and a conditional that is not
closed under the label of an open one. -/
def Belongs (base : String) (opened : List String) (key : String) : Fragment → Prop
  | .definition _ _ => key = base
  | .conditional content => content.closed = false ∧ key ∈ opened

/-- Why a fragment that stands under the key keeps its session from becoming words. -/
def complaint (key : String) : Fragment → Reason
  | .definition _ _ => .neverNamed
  | .conditional _ => .missingThen key

namespace Belongs

variable {base key : String} {opened : List String} {fragment extended : Fragment}

theorem take (belongs : fragment.Belongs base opened key) {token : Token}
    (taken : fragment.take token = .accepted extended) : extended.Belongs base opened key := by
  cases fragment with
  | definition name body =>
      simp only [Fragment.take, takeIntoDefinition] at taken
      split at taken
      · split at taken <;> cases taken
        exact belongs
      · split at taken <;> cases taken
        exact belongs
  | conditional content =>
      simp only [Fragment.take, takeIntoConditional] at taken
      split at taken <;> cases taken
      · exact belongs
      · exact ⟨(Draft.closed_append content token).trans belongs.1, belongs.2⟩

theorem refer (belongs : fragment.Belongs base opened key) {label : String}
    (referred : fragment.refer label = .ok extended) : extended.Belongs base opened key := by
  unfold Fragment.refer at referred
  split at referred
  · cases referred
  · cases referred
    exact belongs
  next content =>
    cases referred
    exact ⟨(Draft.closed_append content label).trans belongs.1, belongs.2⟩

theorem mono (belongs : fragment.Belongs base opened key) {more : List String} (kept : key ∈ opened → key ∈ more) :
    fragment.Belongs base more key := by
  cases fragment with
  | definition name body => exact belongs
  | conditional content => exact ⟨belongs.1, kept belongs.2⟩

end Belongs

end Fragment

/-- Whatever is found in a table after an insertion is the inserted fragment or was there before. -/
theorem found_insert {table : Std.ExtTreeMap String Fragment compare} {key other : String}
    {fragment stored : Fragment} (found : (table.insert key fragment)[other]? = some stored) :
    other = key ∧ stored = fragment ∨ other ≠ key ∧ table[other]? = some stored := by
  rw [Std.ExtTreeMap.getElem?_insert] at found
  split at found
  next same =>
    rw [Std.compare_eq_iff_eq] at same
    exact .inl ⟨same.symm, (Option.some.inj found).symm⟩
  next apart =>
    rw [Std.compare_eq_iff_eq] at apart
    exact .inr ⟨fun same => apart same.symm, found⟩

namespace Session

variable {session : Session}

/-- The labels under which conditionals are open, innermost first. -/
def openKeys (session : Session) : List String := (session.current :: session.parents).dropLast

theorem length_openKeys (session : Session) : session.openKeys.length = session.depth := by
  rw [openKeys, List.length_dropLast, List.length_cons, Nat.add_sub_cancel, depth]

/-- Unless the session is spoilt, all its fragments stand where they may. -/
def Orderly (session : Session) : Prop :=
  session.failure = none → ∀ (key : String) (fragment : Fragment), session.fragments[key]? = some fragment →
    fragment.Belongs session.base session.openKeys key

theorem fail_orderly (session : Session) (reason : Reason) : (session.fail reason).Orderly := by
  intro sound
  cases sound

theorem openConditional_orderly (orderly : session.Orderly) : session.openConditional.Orderly := by
  intro sound key fragment found
  rcases found_insert found with ⟨rfl, rfl⟩ | ⟨_, earlier⟩
  · exact ⟨rfl, List.mem_cons_self ..⟩
  · exact (orderly sound key fragment earlier).mono fun member => List.mem_cons_of_mem _ member

section Sound

variable (sound : session.failure = none) (orderly : session.Orderly)
include sound orderly

theorem store_orderly {fragment : Fragment}
    (belongs : fragment.Belongs session.base session.openKeys session.current) : (session.store fragment).Orderly := by
  intro _ key stored found
  rcases found_insert found with ⟨rfl, rfl⟩ | ⟨_, earlier⟩
  · exact belongs
  · exact orderly sound key stored earlier

theorem refer_orderly (label : String) : (session.refer label).Orderly := by
  unfold refer
  split
  next => exact fail_orderly session _
  next fragment found =>
    split
    next => exact fail_orderly session _
    next extended referred => exact store_orderly sound orderly ((orderly sound _ fragment found).refer referred)

omit orderly in
/-- Closing takes the current fragment out of the table, so only the others have to stand where they may. -/
theorem closeConditional_orderly (others : ∀ (key : String) (fragment : Fragment), key ≠ session.current →
    session.fragments[key]? = some fragment → fragment.Belongs session.base session.openKeys key) :
    session.closeConditional.Orderly := by
  unfold closeConditional
  dsimp only
  split
  next content _ =>
    split
    next => exact fail_orderly _ _
    next parent parents around =>
      apply refer_orderly
      · exact sound
      · intro _ key fragment found
        simp only [Std.ExtTreeMap.getElem?_erase] at found
        split at found
        next => cases found
        next apart =>
          rw [Std.compare_eq_iff_eq] at apart
          -- Among the open labels only the innermost is gone, and that was the one left out of the table.
          refine (others key fragment (fun same => apart same.symm) found).mono fun member => ?_
          rw [openKeys, around, List.dropLast_cons_cons] at member
          exact (List.mem_cons.mp member).resolve_left fun same => apart same.symm
  next => exact fail_orderly _ _

theorem route_orderly (token : Token) : (session.route token).Orderly := by
  unfold route
  split
  next => exact fail_orderly session _
  next fragment found =>
    split
    next extended taken => exact store_orderly sound orderly ((orderly sound _ fragment found).take taken)
    next closed taken =>
      refine closeConditional_orderly sound ?_
      intro key other apart stays
      rcases found_insert stays with ⟨same, _⟩ | ⟨_, earlier⟩
      · exact absurd same apart
      · exact orderly sound key other earlier
    next => exact fail_orderly session _

end Sound

/-- One token keeps a session orderly or spoils it. -/
theorem push_orderly (orderly : session.Orderly) (token : Token) : (session.push token).Orderly := by
  unfold push
  split
  next => exact orderly
  next sound =>
    rw [hasFailed, Option.not_isSome_iff_eq_none] at sound
    split
    next => exact openConditional_orderly orderly
    next => exact fail_orderly session _
    next => exact fail_orderly session _
    next => exact route_orderly sound orderly token

theorem pushAll_orderly (orderly : session.Orderly) (tokens : List Token) : (session.pushAll tokens).Orderly := by
  induction tokens generalizing session with
  | nil => exact orderly
  | cons token tokens ih => exact ih (push_orderly orderly token)

/-- The labels under which a fragment can stand in the way of becoming words: those of the open
conditionals, and that of the definition if it has no name. -/
def blockedKeys (session : Session) : List String :=
  session.openKeys ++ if session.name? = none then [session.base] else []

theorem length_blockedKeys (session : Session) :
    session.blockedKeys.length = session.depth + if session.name? = none then 1 else 0 := by
  rw [blockedKeys, List.length_append, length_openKeys]
  split <;> rfl

section Left

variable (sound : session.failure = none) (orderly : session.Orderly)
include sound orderly

theorem mem_blockedKeys {key : String} {fragment : Fragment} (found : session.fragments[key]? = some fragment)
    (pending : fragment.Pending) : key ∈ session.blockedKeys := by
  have belongs := orderly sound key fragment found
  cases fragment with
  | definition name body =>
      obtain rfl : key = session.base := belongs
      obtain rfl : name = none := pending
      have unnamed : session.name? = none := by simp only [name?, found]
      rw [blockedKeys, if_pos unnamed]
      exact List.mem_append_right _ (List.mem_singleton_self _)
  | conditional content => exact List.mem_append_left _ belongs.2

/-- Fragments in the way that can only stand under one label are the same. -/
theorem pending_unique (few : session.blockedKeys.length ≤ 1) {key other : String}
    {fragment otherFragment : Fragment} (found : session.fragments[key]? = some fragment)
    (pending : fragment.Pending) (otherFound : session.fragments[other]? = some otherFragment)
    (otherPending : otherFragment.Pending) : key = other ∧ fragment = otherFragment := by
  have inWay := mem_blockedKeys sound orderly found pending
  have otherInWay := mem_blockedKeys sound orderly otherFound otherPending
  have sameKey : key = other := by
    generalize session.blockedKeys = keys at few inWay otherInWay
    rcases keys with _ | ⟨only, _ | ⟨second, rest⟩⟩
    · cases inWay
    · rw [List.mem_singleton.mp inWay, List.mem_singleton.mp otherInWay]
    · exact absurd few (by simp)
  subst sameKey
  rw [found, Option.some.injEq] at otherFound
  exact ⟨rfl, otherFound⟩

/-- If nothing stands in the way there is at most the definition. -/
theorem length_fragments_le_one (nothing : ∀ (key : String) (fragment : Fragment),
    session.fragments[key]? = some fragment → ¬fragment.Pending) : session.fragments.toList.length ≤ 1 := by
  -- An open conditional would be in the way, so all labels of the table are the session's own.
  have atBase : ∀ key ∈ session.fragments.keys, key = session.base := by
    intro key member
    rw [Std.ExtTreeMap.mem_keys, Std.ExtTreeMap.mem_iff_isSome_getElem?, Option.isSome_iff_exists] at member
    obtain ⟨fragment, found⟩ := member
    have belongs := orderly sound key fragment found
    cases fragment with
    | definition name body => exact belongs
    | conditional content => exact absurd belongs.1 (nothing key _ found)
  have distinct := Std.ExtTreeMap.nodup_keys (t := session.fragments)
  rw [List.eq_replicate_of_mem atBase, List.nodup_replicate] at distinct
  rwa [← Std.ExtTreeMap.map_fst_toList_eq_keys, List.length_map] at distinct

end Left

/-- A session that can not become words is told about a fragment that stands in the way. -/
theorem gather_error {entries : List (String × Fragment)} {definitions : Definitions} {reason : Reason}
    (fails : gather definitions entries = .error reason) :
    ∃ key fragment, (key, fragment) ∈ entries ∧ fragment.Pending ∧ fragment.complaint key = reason := by
  induction entries generalizing definitions with
  | nil => cases fails
  | cons entry entries ih =>
      obtain ⟨key, ⟨_ | name, body⟩ | content⟩ := entry
      · cases fails
        exact ⟨key, _, List.mem_cons_self .., rfl, rfl⟩
      · obtain ⟨other, fragment, member, complains⟩ := ih fails
        exact ⟨other, fragment, List.mem_cons_of_mem _ member, complains⟩
      · simp only [gather] at fails
        split at fails
        · obtain ⟨other, fragment, member, complains⟩ := ih fails
          exact ⟨other, fragment, List.mem_cons_of_mem _ member, complains⟩
        next unclosed =>
          cases fails
          exact ⟨key, _, List.mem_cons_self .., Bool.eq_false_iff.mpr unclosed, rfl⟩

/-- All words of the session, with its fragments gone through in the given order. -/
def completeIn (session : Session) (order : List (String × Fragment)) : Except Reason Definitions :=
  match session.failure with
  | some reason => .error reason
  | none => gather session.completed order

theorem completeIn_toList (session : Session) :
    session.completeIn session.fragments.toList = session.complete := rfl

/-- In which order each session goes through its fragments. -/
structure Order where
  enumerate : Session → List (String × Fragment)
  perm : ∀ session, (enumerate session).Perm session.fragments.toList

namespace Order

/-- How sessions become words in the order. -/
def complete (order : Order) : Completion := fun session => session.completeIn (order.enumerate session)

/-- As the table lists them. -/
def listed : Order := ⟨fun session => session.fragments.toList, fun _ => .refl _⟩

/-- From the last in the table to the first. -/
def reversed : Order := ⟨fun session => session.fragments.toList.reverse, fun _ => List.reverse_perm _⟩

example : listed.complete = Session.complete := rfl

end Order

/-- Fragments that have been gone through are those of the session. -/
theorem mem_order_iff {order : List (String × Fragment)} (enumerates : order.Perm session.fragments.toList)
    {key : String} {fragment : Fragment} :
    (key, fragment) ∈ order ↔ session.fragments[key]? = some fragment := by
  rw [enumerates.mem_iff, Std.ExtTreeMap.mem_toList_iff_getElem?_eq_some]

/-- Nothing in the way leaves only one order. -/
theorem completeIn_free (orderly : session.Orderly) (nothing : ∀ (key : String) (fragment : Fragment),
    session.fragments[key]? = some fragment → ¬fragment.Pending) {order : List (String × Fragment)}
    (enumerates : order.Perm session.fragments.toList) : session.completeIn order = session.complete := by
  cases failure : session.failure with
  | some reason => simp only [completeIn, complete, failure]
  | none =>
      have few := length_fragments_le_one failure orderly nothing
      rw [← completeIn_toList]
      congr 1
      generalize session.fragments.toList = entries at enumerates few
      rcases entries with _ | ⟨entry, _ | ⟨second, rest⟩⟩
      · exact enumerates.eq_nil
      · exact List.perm_singleton.mp enumerates
      · exact absurd few (by simp)

/-- A fragment in the way is noticed in any order. -/
theorem completeIn_blocked {key : String} {fragment : Fragment} (found : session.fragments[key]? = some fragment)
    (pending : fragment.Pending) {order : List (String × Fragment)}
    (enumerates : order.Perm session.fragments.toList) : ∃ reason, session.completeIn order = .error reason := by
  cases failure : session.failure with
  | some reason => exact ⟨reason, by simp only [completeIn, failure]⟩
  | none =>
      simp only [completeIn, failure]
      exact gather_pending ((mem_order_iff enumerates).mpr found) pending session.completed

/-- In all orders the session becomes the same words, or in all of them it does not become words. -/
theorem completeIn_cases (orderly : session.Orderly) :
    (∃ definitions, ∀ order : List (String × Fragment), order.Perm session.fragments.toList →
      session.completeIn order = .ok definitions) ∨
    ∀ order : List (String × Fragment), order.Perm session.fragments.toList →
      ∃ reason, session.completeIn order = .error reason := by
  by_cases blocked : ∃ (key : String) (fragment : Fragment),
      session.fragments[key]? = some fragment ∧ fragment.Pending
  · obtain ⟨key, fragment, found, pending⟩ := blocked
    exact .inr fun _ enumerates => completeIn_blocked found pending enumerates
  · have free := @completeIn_free session orderly fun key fragment found pending =>
      blocked ⟨key, fragment, found, pending⟩
    cases completes : session.complete with
    | ok definitions => exact .inl ⟨definitions, fun _ enumerates => (free enumerates).trans completes⟩
    | error reason => exact .inr fun _ enumerates => ⟨reason, (free enumerates).trans completes⟩

/-- Where only one fragment can be in the way, or the session was spoilt before, the reason is the same in
all orders. -/
theorem completeIn_eq_complete (orderly : session.Orderly)
    (determined : session.hasFailed = true ∨ session.blockedKeys.length ≤ 1) {order : List (String × Fragment)}
    (enumerates : order.Perm session.fragments.toList) : session.completeIn order = session.complete := by
  rcases completeIn_cases orderly with ⟨definitions, completes⟩ | fails
  · rw [completes order enumerates, ← completeIn_toList, completes _ (.refl _)]
  · cases failure : session.failure with
    | some reason => simp only [completeIn, complete, failure]
    | none =>
        have few : session.blockedKeys.length ≤ 1 := by
          rcases determined with failed | few
          · simp only [hasFailed, failure, Option.isSome_none, Bool.false_eq_true] at failed
          · exact few
        obtain ⟨reason, failsHere⟩ := fails order enumerates
        obtain ⟨other, failsThere⟩ := fails _ (.refl _)
        rw [failsHere, ← completeIn_toList, failsThere]
        simp only [completeIn, failure] at failsHere failsThere
        obtain ⟨key, fragment, member, pending, rfl⟩ := gather_error failsHere
        obtain ⟨otherKey, otherFragment, otherMember, otherPending, rfl⟩ := gather_error failsThere
        obtain ⟨rfl, rfl⟩ := pending_unique failure orderly few ((mem_order_iff enumerates).mp member) pending
          ((mem_order_iff (.refl _)).mp otherMember) otherPending
        rfl

end Session

theorem Opening.session_orderly (opening : Opening) (labels : Labels) : (opening.session labels).Orderly := by
  intro _ key fragment found
  cases opening with
  | named =>
      rcases found_insert found with ⟨same, rfl⟩ | ⟨_, earlier⟩
      · exact same
      · simp at earlier
  | anonymous =>
      rcases found_insert found with ⟨same, rfl⟩ | ⟨_, earlier⟩
      · exact same
      · simp at earlier

namespace Dictionary

/-- Entries with different names may be added in any order. -/
theorem install_perm {entries order : List (String × Action)} (distinct : (entries.map Prod.fst).Nodup)
    (enumerates : order.Perm entries) (dictionary : Dictionary) :
    dictionary.install order = dictionary.install entries := by
  have names := enumerates.map Prod.fst
  apply ext_find?
  intro name
  by_cases member : name ∈ entries.map Prod.fst
  · obtain ⟨⟨_, action⟩, listed, rfl⟩ := List.mem_map.mp member
    rw [find?_install_of_mem distinct listed,
      find?_install_of_mem (names.nodup_iff.mpr distinct) (enumerates.mem_iff.mpr listed)]
  · rw [find?_install_of_not_mem member, find?_install_of_not_mem fun listed => member (names.mem_iff.mp listed)]

theorem install_order (dictionary : Dictionary) {definitions : Definitions} {order : List (String × Action)}
    (enumerates : order.Perm definitions.toList) :
    dictionary.install order = dictionary.install definitions.toList := by
  refine install_perm ?_ enumerates dictionary
  rw [Std.ExtTreeMap.map_fst_toList_eq_keys]
  exact Std.ExtTreeMap.nodup_keys

/-- Words may be erased in any order. -/
theorem eraseAll_order (dictionary : Dictionary) {names order : List String} (enumerates : order.Perm names) :
    dictionary.eraseAll order = dictionary.eraseAll names := by
  apply ext_find?
  intro name
  simp only [find?_eraseAll, enumerates.mem_iff]

end Dictionary

/-- Runs the body of a conditional with its helpers added and erased in the given orders. -/
def Interpreter.runDecisionIn (fuel : Nat) (interpreter : Interpreter) (body : List Token)
    (added : List (String × Action)) (erased : List String) : Option Reply :=
  let installed := { interpreter with dictionary := interpreter.dictionary.install added }
  (installed.runTokens fuel body).map fun reply =>
    { reply with
      interpreter := { reply.interpreter with dictionary := reply.interpreter.dictionary.eraseAll erased } }

theorem Interpreter.runDecisionIn_order (fuel : Nat) (interpreter : Interpreter) (decision : Decision)
    {added : List (String × Action)} {erased : List String} (addsAll : added.Perm decision.helpers.toList)
    (erasesAll : erased.Perm decision.helpers.keys) :
    interpreter.runDecisionIn fuel decision.body added erased = interpreter.runDecision fuel decision := by
  simp only [runDecisionIn, runDecision, Dictionary.install_order _ addsAll, Dictionary.eraseAll_order _ erasesAll]

/-- Whatever the labels are and in whatever order the tables are gone through: a session becomes the same
words in all orders, or in all of them it is incomplete, and for the same reason if it was spoilt before or
if the conditionals left open and a missing name come to at most one. The words of a session make the same
dictionary when they are added, and a conditional outside of definitions has the same reply, dictionary
included, however its helpers are added and erased. -/
theorem order_is_unobservable (opening : Opening) (labels : Labels) (tokens : List Token) :
    let session := (opening.session labels).pushAll tokens
    ((∃ definitions, ∀ order, order.Perm session.fragments.toList → session.completeIn order = .ok definitions) ∨
      ∀ order, order.Perm session.fragments.toList → ∃ reason, session.completeIn order = .error reason) ∧
    (session.hasFailed = true ∨ session.depth + (if session.name? = none then 1 else 0) ≤ 1 →
      ∀ order, order.Perm session.fragments.toList → session.completeIn order = session.complete) ∧
    ∀ definitions, session.complete = .ok definitions →
      (∀ (dictionary : Dictionary) (added : List (String × Action)), added.Perm definitions.toList →
        dictionary.install added = dictionary.install definitions.toList) ∧
      ∀ (fuel : Nat) (interpreter : Interpreter) (added : List (String × Action)) (erased : List String),
        added.Perm (session.decision definitions).helpers.toList →
        erased.Perm (session.decision definitions).helpers.keys →
          interpreter.runDecisionIn fuel (session.decision definitions).body added erased =
            interpreter.runDecision fuel (session.decision definitions) := by
  intro session
  have orderly : session.Orderly := Session.pushAll_orderly (opening.session_orderly labels) tokens
  refine ⟨Session.completeIn_cases orderly, ?_, ?_⟩
  · intro determined order enumerates
    rw [← Session.length_blockedKeys] at determined
    exact Session.completeIn_eq_complete orderly determined enumerates
  · intro definitions _
    refine ⟨?_, ?_⟩
    · intro dictionary added addsAll
      exact dictionary.install_order addsAll
    · intro fuel interpreter added erased addsAll erasesAll
      exact interpreter.runDecisionIn_order fuel (session.decision definitions) addsAll erasesAll

/-- A label comes back, and the second conditional under it is left open. With the fragments gone through
from the last to the first the session is incomplete for the same reason. -/
theorem order_is_unobservable_reversed :
    let session := (Opening.named.session (.cycling ["d", "x", "x"])).pushAll ["w", "if", "1", "then", "if", "2"]
    session.depth + (if session.name? = none then 1 else 0) ≤ 1 ∧
    session.fragments.toList.reverse ≠ session.fragments.toList ∧
    session.completeIn session.fragments.toList.reverse = .error (.missingThen "x") := by
  intro session
  have few : session.depth + (if session.name? = none then 1 else 0) ≤ 1 := by decide +kernel
  have fails : session.complete = .error (.missingThen "x") := rfl
  have same := (order_is_unobservable .named (.cycling ["d", "x", "x"]) ["w", "if", "1", "then", "if", "2"]).2.1
    (.inr few) session.fragments.toList.reverse (List.reverse_perm _)
  exact ⟨few, by decide +kernel, same.trans fails⟩

end Forth

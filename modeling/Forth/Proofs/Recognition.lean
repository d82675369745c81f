import Forth.Proofs.Acceptance
import Forth.Proofs.TopLevel
import Mathlib.Data.List.Induction

/-! Conditionals typed outside of definitions are taken at the right token. The interpreter knows only
whether its session has failed and how deep it is; that is enough to go on exactly while the tokens can
still become a conditional, to run at exactly the token that completes one, and to give up at the first
token after which none can follow. -/

namespace Forth

open Body (Spelled)
open Nesting (occurrences)

/-- The body is a single conditional with these branches. -/
inductive Body.Single : Body → Body → Body → Prop where
  | ifThen (ifBody : Body) : Single (.ifThen ifBody .done) ifBody .done
  | ifElse (ifBody elseBody : Body) : Single (.ifElse ifBody elseBody .done) ifBody elseBody

/-- The tokens of one conditional, from its `if` to its `then`. -/
def IsBlock (tokens : List Token) : Prop :=
  ∃ block ifBody elseBody, Body.Single block ifBody elseBody ∧ Spelled block tokens

/-- The tokens can go on to be one conditional, and are not yet one. -/
def IsStarted (tokens : List Token) : Prop :=
  ∃ block, IsBlock block ∧ tokens <+: block ∧ tokens ≠ block

namespace Nesting

theorem Inside.of_prefix {front tokens : List Token} (isInside : Inside tokens) (before : front <+: tokens) :
    Inside front :=
  fun shorter short => isInside shorter (short.trans before)

theorem Inside.reads {tokens : List Token} (isInside : Inside tokens) :
    ∃ branch opened, readAll [.ifBranch] tokens = some (branch :: opened) :=
  isInside tokens (List.prefix_refl tokens)

theorem inside_nil : Inside [] := by
  intro front before
  rw [List.prefix_nil.mp before]
  exact ⟨.ifBranch, [], rfl⟩

theorem Inside.concat {tokens : List Token} {last : Token} {branch : Branch} {opened : List Branch}
    (isInside : Inside tokens) (reads : readAll [.ifBranch] (tokens ++ [last]) = some (branch :: opened)) :
    Inside (tokens ++ [last]) := by
  intro front before
  rcases List.prefix_concat_iff.mp before with rfl | short
  · exact ⟨branch, opened, reads⟩
  · exact isInside front short

/-- Whatever stands inside of a conditional can be closed. -/
theorem Inside.closes {tokens : List Token} (isInside : Inside tokens) :
    ∃ rest last, Inside (tokens ++ rest) ∧ readAll [.ifBranch] (tokens ++ rest ++ [last]) = some [] := by
  obtain ⟨branch, opened, reads⟩ := isInside.reads
  -- One `then` for each open branch.
  induction opened generalizing tokens branch with
  | nil =>
      refine ⟨[], "then", by rwa [List.append_nil], ?_⟩
      rw [List.append_nil, readAll_append, reads, Option.bind_some, readAll, read_then Body.mark_then]
      rfl
  | cons outer opened ih =>
      have readsThen : readAll [.ifBranch] (tokens ++ ["then"]) = some (outer :: opened) := by
        rw [readAll_append, reads, Option.bind_some, readAll, read_then Body.mark_then]
        rfl
      obtain ⟨rest, last, inRest, closed⟩ := ih (isInside.concat readsThen) outer readsThen
      rw [List.append_assoc tokens] at inRest closed
      exact ⟨["then"] ++ rest, last, inRest, closed⟩

/-- Nothing is left after tokens that close the conditional if it is open up to the last one. -/
theorem Inside.eq_nil_of_closed {inside front back : List Token} {last : Token} (isInside : Inside inside)
    (splits : inside ++ [last] = front ++ back) (closed : readAll [.ifBranch] front = some []) : back = [] := by
  have before : front <+: inside ++ [last] := ⟨back, splits.symm⟩
  rcases List.prefix_concat_iff.mp before with rfl | short
  · exact List.self_eq_append_right.mp splits
  · obtain ⟨branch, opened, reads⟩ := isInside front short
    rw [closed] at reads
    cases reads

end Nesting

open Nesting (Inside)

/-- A block is an `if`, tokens that stay inside of it, and the token that closes it. -/
theorem IsBlock.splits {tokens : List Token} (isBlock : IsBlock tokens) :
    ∃ ifToken inside last, tokens = ifToken :: (inside ++ [last]) ∧ Inside inside ∧
      Nesting.readAll [.ifBranch] (inside ++ [last]) = some [] := by
  obtain ⟨block, ifBody, elseBody, single, spelled⟩ := isBlock
  have closes := Nesting.readAll_spelled spelled []
  cases single with
  | ifThen =>
      cases spelled with
      | @ifThen _ _ ifTokens _ ifToken thenToken ifMark thenMark ifSpelled restSpelled =>
          cases restSpelled
          refine ⟨ifToken, ifTokens, thenToken, rfl, Nesting.inside_ifThen ifSpelled, ?_⟩
          rwa [Nesting.readAll, Nesting.read_if ifMark] at closes
  | ifElse =>
      cases spelled with
      | @ifElse _ _ _ ifTokens elseTokens _ ifToken elseToken thenToken ifMark elseMark thenMark ifSpelled
          elseSpelled restSpelled =>
          cases restSpelled
          refine ⟨ifToken, ifTokens ++ elseToken :: elseTokens, thenToken, by simp,
            Nesting.inside_ifElse ifSpelled elseMark elseSpelled, ?_⟩
          rw [Nesting.readAll, Nesting.read_if ifMark] at closes
          simpa using closes

section Starts

variable {ifToken : Token} {tokens : List Token}

theorem isBlock_of_closes {inside : List Token} {last : Token} (ifMark : ifToken.mark? = some .ifMark)
    (isInside : Inside inside) (closes : Nesting.readAll [.ifBranch] (inside ++ [last]) = some []) :
    IsBlock (ifToken :: (inside ++ [last])) := by
  have onlyThen {front back : List Token} := @isInside.eq_nil_of_closed inside front back last
  generalize inside ++ [last] = tokens at closes onlyThen ⊢
  cases Nesting.closing_of_readAll closes with
  | @thenMark ifBody _ _ front back thenToken ifSpelled thenMark rest =>
      have closed : Nesting.readAll [.ifBranch] (front ++ [thenToken]) = some [] := by
        rw [Nesting.readAll_append, Nesting.readAll_spelled ifSpelled, Option.bind_some, Nesting.readAll,
          Nesting.read_then thenMark]
        rfl
      have nothing : back = [] := onlyThen (by simp) closed
      subst nothing
      exact ⟨_, ifBody, _, .ifThen ifBody, .ifThen ifMark thenMark ifSpelled .done⟩
  | @elseMark ifBody _ front back elseToken ifSpelled elseMark rest =>
      cases rest with
      | @thenMark elseBody _ _ middle back thenToken elseSpelled thenMark rest =>
          have closed : Nesting.readAll [.ifBranch] (front ++ elseToken :: (middle ++ [thenToken])) = some [] := by
            rw [Nesting.readAll_append, Nesting.readAll_spelled ifSpelled, Option.bind_some, Nesting.readAll,
              Nesting.read_else elseMark, Option.bind_some, Nesting.readAll_append,
              Nesting.readAll_spelled elseSpelled, Option.bind_some, Nesting.readAll, Nesting.read_then thenMark]
            rfl
          have nothing : back = [] := onlyThen (by simp) closed
          subst nothing
          exact ⟨_, ifBody, elseBody, .ifElse ifBody elseBody,
            .ifElse ifMark elseMark thenMark ifSpelled elseSpelled .done⟩

theorem IsBlock.reads (isBlock : IsBlock (ifToken :: tokens)) : Nesting.readAll [.ifBranch] tokens = some [] := by
  obtain ⟨_, inside, last, same, _, closes⟩ := isBlock.splits
  rwa [(List.cons.inj same).2]

theorem IsBlock.not_inside (isBlock : IsBlock (ifToken :: tokens)) : ¬Inside tokens := by
  intro isInside
  obtain ⟨branch, opened, reads⟩ := isInside.reads
  rw [isBlock.reads] at reads
  cases reads

/-- What can not be read is neither a block nor the beginning of one. -/
theorem hopeless_of_unread (unread : Nesting.readAll [.ifBranch] tokens = none) :
    ¬Inside tokens ∧ ¬IsBlock (ifToken :: tokens) := by
  constructor
  · intro isInside
    obtain ⟨branch, opened, reads⟩ := isInside.reads
    rw [unread] at reads
    cases reads
  · intro isBlock
    rw [isBlock.reads] at unread
    cases unread

/-- The tokens can be completed exactly while they stay inside of the conditional. -/
theorem isStarted_iff (ifMark : ifToken.mark? = some .ifMark) : IsStarted (ifToken :: tokens) ↔ Inside tokens := by
  constructor
  · rintro ⟨block, isBlock, before, unlike⟩
    obtain ⟨_, inside, last, rfl, isInside, _⟩ := isBlock.splits
    obtain ⟨rfl, short⟩ := List.cons_prefix_cons.mp before
    rcases List.prefix_concat_iff.mp short with rfl | shorter
    · exact absurd rfl unlike
    · exact isInside.of_prefix shorter
  · intro isInside
    obtain ⟨rest, last, inRest, closes⟩ := isInside.closes
    refine ⟨_, isBlock_of_closes ifMark inRest closes, ?_, ?_⟩
    · rw [List.append_assoc]
      exact (List.prefix_cons_inj ifToken).mpr (List.prefix_append tokens _)
    · intro same
      have lengths := congrArg List.length same
      simp only [List.length_cons, List.length_append, List.length_nil] at lengths
      omega

theorem exists_block_iff (ifMark : ifToken.mark? = some .ifMark) :
    (∃ block, IsBlock block ∧ ifToken :: tokens <+: block) ↔ Inside tokens ∨ IsBlock (ifToken :: tokens) := by
  rw [← isStarted_iff ifMark]
  constructor
  · rintro ⟨block, isBlock, before⟩
    by_cases same : ifToken :: tokens = block
    · exact .inr (same ▸ isBlock)
    · exact .inl ⟨block, isBlock, before, same⟩
  · rintro (⟨block, isBlock, before, _⟩ | isBlock)
    · exact ⟨block, isBlock, before⟩
    · exact ⟨_, isBlock, List.prefix_refl _⟩

end Starts

/-- Tokens that can not be read spoil an anonymous session. -/
theorem Session.anonymous_spoilt {labels : Labels} {tokens : List Token} {conditionals : Nat}
    (distinct : (labels.forSession conditionals).Nodup) (few : occurrences .ifMark tokens ≤ conditionals)
    (unread : Nesting.readAll [] tokens = none) :
    ∃ reason, ((anonymous labels).pushAll tokens).failure = some reason := by
  have drawn : (Session.drawn labels ((anonymous labels).pushAll tokens)).Nodup := by
    obtain ⟨count, fewer, reached⟩ := Session.labels_pushAll (anonymous labels) tokens
    have counted : ((anonymous labels).pushAll tokens).labels.conditionals - labels.conditionals = count := by
      rw [reached]
      exact Nat.add_sub_cancel_left ..
    rw [Session.drawn, counted]
    exact (labels.forSession_sublist (Nat.le_trans fewer few)).nodup distinct
  obtain ⟨follows, _⟩ := Opening.anonymous.pushAll_follows labels (List.prefix_refl tokens) drawn
  cases pushed : (Opening.anonymous.draft labels).pushAll tokens with
  | error reason =>
      rw [pushed] at follows
      exact ⟨reason, follows⟩
  | ok next =>
      have reads : Nesting.readAll [] tokens = some next.branches := Draft.readAll_of_pushAll pushed
      rw [unread] at reads
      cases reads

namespace Interpreter

/-- The tokens are fed one by one, and none before the last fails or brings the interpreter back to
executing. -/
def Fed (interpreter : Interpreter) (tokens : List Token) : Prop :=
  ∀ front, front <+: tokens → front ≠ [] → front ≠ tokens →
    ∃ reply, Settles (fun fuel => interpreter.executeAll fuel front) reply ∧
      reply.fault = none ∧ reply.interpreter.mode ≠ .executing

/-- All tokens are taken into a conditional that is still open, and nothing else happens. -/
def Collects (interpreter : Interpreter) (tokens : List Token) : Prop :=
  ∃ session, Settles (fun fuel => interpreter.executeAll fuel tokens)
    { interpreter := { interpreter with activity := .conditional session }, printed := "", fault := none }

/-- The conditional is given up as an incomplete definition, and nothing else happens. -/
def Refuses (interpreter : Interpreter) (tokens : List Token) : Prop :=
  ∃ labels cause, Settles (fun fuel => interpreter.executeAll fuel tokens)
    { interpreter := { interpreter with activity := .executing labels }, printed := ""
      fault := some (.incompleteDefinition cause) }

/-- A conditional with these branches is run: without a selector there is an underflow, and otherwise the
selector is taken off the stack and the branch that it picks is evaluated. Afterwards the interpreter is
executing again, and no definition was found incomplete. -/
structure Decides (interpreter : Interpreter) (tokens : List Token) (dictionary : Dictionary)
    (ifBody elseBody : Body) : Prop where
  sameOutcome : SameOutcome (fun fuel => (interpreter.executeAll fuel tokens).map Reply.ending) fun fuel =>
    branchOn interpreter.stack (ifBody.eval dictionary fuel) (elseBody.eval dictionary fuel)
  executing : ∀ reply, Settles (fun fuel => interpreter.executeAll fuel tokens) reply →
    reply.interpreter.mode = .executing
  complete : ∀ reply cause, Settles (fun fuel => interpreter.executeAll fuel tokens) reply →
    reply.fault ≠ some (.incompleteDefinition cause)

variable {interpreter : Interpreter} {tokens : List Token}

theorem Fed.of_prefix (fed : interpreter.Fed tokens) {front : List Token} (before : front <+: tokens) :
    interpreter.Fed front := by
  intro shorter short nonempty unlike
  apply fed shorter (short.trans before) nonempty
  rintro rfl
  exact unlike (short.eq_of_length_le before.length_le)

theorem Collects.not_refuses (collects : interpreter.Collects tokens) : ¬interpreter.Refuses tokens := by
  rintro ⟨labels, cause, refused⟩
  obtain ⟨session, collected⟩ := collects
  have same := (interpreter.steady_executeAll tokens).unique collected refused
  cases congrArg Reply.fault same

theorem Decides.not_collects {dictionary : Dictionary} {ifBody elseBody : Body}
    (decides : interpreter.Decides tokens dictionary ifBody elseBody) : ¬interpreter.Collects tokens := by
  rintro ⟨session, collected⟩
  cases decides.executing _ collected

theorem Decides.not_refuses {dictionary : Dictionary} {ifBody elseBody : Body}
    (decides : interpreter.Decides tokens dictionary ifBody elseBody) : ¬interpreter.Refuses tokens := by
  rintro ⟨labels, cause, refused⟩
  exact decides.complete _ cause refused rfl

/-- What can be told from running a conditional about its code. -/
theorem ending_runDecision (fuel : Nat) (interpreter : Interpreter) (decision : Decision) :
    (interpreter.runDecision fuel decision).map Reply.ending =
      Machine.runTokens (interpreter.dictionary.install decision.helpers.toList) fuel interpreter.stack
        decision.body := by
  simp only [runDecision, runTokens, Option.map_map]
  exact Option.map_id_apply

theorem runDecision_spec {fuel : Nat} {decision : Decision} {reply : Reply}
    (replied : interpreter.runDecision fuel decision = some reply) :
    reply.interpreter.activity = interpreter.activity ∧
      ∀ cause, reply.fault ≠ some (.incompleteDefinition cause) := by
  simp only [runDecision, runTokens, Option.map_map] at replied
  obtain ⟨ending, reached, rfl⟩ := Option.map_eq_some_iff.mp replied
  refine ⟨rfl, ?_⟩
  intro cause failed
  cases Machine.run_fault reached failed

section Blocks

variable {labels : Labels} {ifToken : Token} {conditionals : Nat}
variable (executing : interpreter.activity = .executing labels) (ifMark : ifToken.mark? = some .ifMark)
  (distinct : (labels.forSession conditionals).Nodup)
  (noNumerals : ∀ label ∈ labels.afterDefinition.upcoming conditionals, Number.ofNumeral? label = none)
include executing ifMark distinct

theorem collects_of_inside (isInside : Inside tokens) (few : occurrences .ifMark (ifToken :: tokens) ≤ conditionals) :
    interpreter.Collects (ifToken :: tokens) :=
  ⟨_, 0, executeAll_inside executing ifMark isInside distinct few 0⟩

theorem fed_of_inside {inside : List Token} (isInside : Inside inside)
    (few : occurrences .ifMark (ifToken :: inside) ≤ conditionals) (last : Token) :
    interpreter.Fed (ifToken :: (inside ++ [last])) := by
  intro front before nonempty unlike
  rw [← List.cons_append] at before unlike
  rcases List.prefix_concat_iff.mp before with same | short
  · exact absurd same unlike
  · rcases List.prefix_cons_iff.mp short with rfl | ⟨shorter, rfl, inFront⟩
    · exact absurd rfl nonempty
    · have fewer := Nat.le_trans (Nesting.occurrences_le .ifMark short.sublist) few
      obtain ⟨session, collected⟩ := collects_of_inside executing ifMark distinct (isInside.of_prefix inFront) fewer
      exact ⟨_, collected, rfl, Mode.noConfusion⟩

theorem refuses_of_unread {inside : List Token} {last : Token} (isInside : Inside inside)
    (few : occurrences .ifMark (ifToken :: (inside ++ [last])) ≤ conditionals)
    (unread : Nesting.readAll [.ifBranch] (inside ++ [last]) = none) :
    interpreter.Refuses (ifToken :: (inside ++ [last])) := by
  have shorter : (ifToken :: inside).Sublist (ifToken :: (inside ++ [last])) :=
    (List.sublist_append_left inside [last]).cons_cons ifToken
  have fewer := Nat.le_trans (Nesting.occurrences_le .ifMark shorter) few
  have unreadAll : Nesting.readAll [] (ifToken :: (inside ++ [last])) = none := by
    rw [Nesting.readAll, Nesting.read_if ifMark]
    exact unread
  obtain ⟨reason, failed⟩ := Session.anonymous_spoilt distinct few unreadAll
  refine ⟨((Session.anonymous labels).pushAll (ifToken :: (inside ++ [last]))).labels, reason.text, 0, ?_⟩
  simp only [executeAll_inside_last executing ifMark isInside distinct fewer, Session.hasFailed, failed,
    Option.isSome_some, Bool.true_or, if_true, endConditional, Session.complete]
  rfl

include noNumerals

/-- A conditional that is complete is run with the words made for it at hand. -/
theorem decides_of_spelled {block ifBody elseBody : Body} (single : Body.Single block ifBody elseBody)
    (spelled : Spelled block (ifToken :: tokens)) (few : occurrences .ifMark (ifToken :: tokens) ≤ conditionals) :
    interpreter.Decides (ifToken :: tokens)
      (interpreter.dictionary.install (block.conditionals labels.afterDefinition).toList) ifBody elseBody := by
  obtain ⟨_, inside, last, same, isInside, _⟩ := IsBlock.splits ⟨block, _, _, single, spelled⟩
  obtain ⟨rfl, rfl⟩ := List.cons.inj same
  rw [spelled.occurrences_if] at few
  have distinctBlock := (labels.forSession_sublist few).nodup distinct
  have runs (fuel : Nat) : interpreter.executeAll fuel (ifToken :: (inside ++ [last])) =
      runDecision fuel { interpreter with activity := .executing (labels.afterSession block.branches) }
        ⟨block.flat labels.afterDefinition, block.conditionals labels.afterDefinition⟩ := by
    rw [executeAll_block executing ifMark isInside spelled distinctBlock, endConditional_eq_runDecision distinctBlock]
  have holds : (interpreter.dictionary.install (block.conditionals labels.afterDefinition).toList).Holds
      (block.helpers labels.afterDefinition) := by
    apply interpreter.dictionary.holds_install
    · intro label member
      have drawn := (block.helpers_labels labels.afterDefinition).mem_iff.mp member
      exact noNumerals label ((labels.afterDefinition.upcoming_prefix few).subset drawn)
    · intro label action member
      exact Body.getElem?_conditionals (List.nodup_cons.mp distinctBlock).2 member
  have spec (reply : Reply) (settles : Settles (fun fuel =>
      interpreter.executeAll fuel (ifToken :: (inside ++ [last]))) reply) :
      reply.interpreter.mode = .executing ∧ ∀ cause, reply.fault ≠ some (.incompleteDefinition cause) := by
    obtain ⟨fuel, replied⟩ := settles
    obtain ⟨activity, complete⟩ := runDecision_spec ((runs fuel).symm.trans replied)
    exact ⟨congrArg Activity.mode activity, complete⟩
  refine ⟨?_, fun reply settles => (spec reply settles).1, fun reply cause settles => (spec reply settles).2 cause⟩
  have means := block.sameOutcome_flat holds interpreter.stack
  simp only [runs, ending_runDecision]
  cases single with
  | ifThen => simpa only [Body.eval, Ending.andThen_done, Option.bind_fun_some] using means
  | ifElse => simpa only [Body.eval, Ending.andThen_done, Option.bind_fun_some] using means

/-- What the token after those inside of a conditional comes to. -/
theorem verdict_of_inside {inside : List Token} (isInside : Inside inside) (last : Token)
    (few : occurrences .ifMark (ifToken :: (inside ++ [last])) ≤ conditionals) :
    Inside (inside ++ [last]) ∧ interpreter.Collects (ifToken :: (inside ++ [last])) ∨
      (¬Inside (inside ++ [last]) ∧ ¬IsBlock (ifToken :: (inside ++ [last]))) ∧
        interpreter.Refuses (ifToken :: (inside ++ [last])) ∨
      IsBlock (ifToken :: (inside ++ [last])) ∧
        ∃ dictionary ifBody elseBody,
          interpreter.Decides (ifToken :: (inside ++ [last])) dictionary ifBody elseBody := by
  cases reads : Nesting.readAll [.ifBranch] (inside ++ [last]) with
  | none =>
      exact .inr (.inl ⟨hopeless_of_unread reads, refuses_of_unread executing ifMark distinct isInside few reads⟩)
  | some opened =>
      cases opened with
      | nil =>
          obtain ⟨block, ifBody, elseBody, single, spelled⟩ := isBlock_of_closes ifMark isInside reads
          exact .inr (.inr ⟨⟨block, _, _, single, spelled⟩, _, _, _,
            decides_of_spelled executing ifMark distinct noNumerals single spelled few⟩)
      | cons branch opened =>
          have further := isInside.concat reads
          exact .inl ⟨further, collects_of_inside executing ifMark distinct further few⟩

/-- What the last of the tokens that were fed comes to. -/
theorem verdict_of_fed (few : occurrences .ifMark (ifToken :: tokens) ≤ conditionals)
    (fed : interpreter.Fed (ifToken :: tokens)) :
    Inside tokens ∧ interpreter.Collects (ifToken :: tokens) ∨
      (¬Inside tokens ∧ ¬IsBlock (ifToken :: tokens) ∧ IsStarted (ifToken :: tokens).dropLast) ∧
        interpreter.Refuses (ifToken :: tokens) ∨
      IsBlock (ifToken :: tokens) ∧
        ∃ dictionary ifBody elseBody, interpreter.Decides (ifToken :: tokens) dictionary ifBody elseBody := by
  induction tokens using List.reverseRecOn with
  | nil => exact .inl ⟨Nesting.inside_nil, collects_of_inside executing ifMark distinct Nesting.inside_nil few⟩
  | append_singleton inside last ih =>
      have before : ifToken :: inside <+: ifToken :: (inside ++ [last]) :=
        (List.prefix_cons_inj ifToken).mpr (List.prefix_append inside [last])
      have unlike : ifToken :: inside ≠ ifToken :: (inside ++ [last]) := by simp
      have fewer := Nat.le_trans (Nesting.occurrences_le .ifMark before.sublist) few
      -- The tokens before the last are inside, since the interpreter has neither refused nor run them.
      have isInside : Inside inside := by
        obtain ⟨reply, settles, succeeds, collecting⟩ := fed _ before (List.cons_ne_nil ifToken inside) unlike
        rcases ih fewer (fed.of_prefix before) with ⟨isInside, _⟩ | ⟨_, _, cause, refused⟩ | ⟨_, _, _, _, decides⟩
        · exact isInside
        · have same := (interpreter.steady_executeAll _).unique settles refused
          rw [same] at succeeds
          cases succeeds
        · exact absurd (decides.executing reply settles) collecting
      have started : IsStarted (ifToken :: (inside ++ [last])).dropLast := by
        rw [← List.cons_append, List.dropLast_concat]
        exact (isStarted_iff ifMark).mpr isInside
      rcases verdict_of_inside executing ifMark distinct noNumerals isInside last few with
        collects | ⟨⟨outside, noBlock⟩, refuses⟩ | decides
      · exact .inl collects
      · exact .inr (.inl ⟨⟨outside, noBlock, started⟩, refuses⟩)
      · exact .inr (.inr decides)

end Blocks

end Interpreter

/-- Tokens that begin with an `if` are fed to an interpreter outside of definitions, up to the first
that fails or brings it back to executing. It is still collecting exactly if they are the beginning of
a block; it has refused the last one exactly if no block begins with them, while one begins with those
before; and it has run a conditional exactly if they are a block, namely the conditional they spell. -/
theorem blocks_are_recognized (interpreter : Interpreter) {labels : Labels} {ifToken : Token} {tokens : List Token}
    (executing : interpreter.activity = .executing labels) (ifMark : ifToken.mark? = some .ifMark)
    (distinct : (labels.forSession (occurrences .ifMark (ifToken :: tokens))).Nodup)
    (noNumerals : ∀ label ∈ labels.afterDefinition.upcoming (occurrences .ifMark (ifToken :: tokens)),
      Number.ofNumeral? label = none)
    (fed : interpreter.Fed (ifToken :: tokens)) :
    (interpreter.Collects (ifToken :: tokens) ↔ IsStarted (ifToken :: tokens)) ∧
    (interpreter.Refuses (ifToken :: tokens) ↔
      (¬∃ block, IsBlock block ∧ ifToken :: tokens <+: block) ∧ IsStarted (ifToken :: tokens).dropLast) ∧
    ((∃ dictionary ifBody elseBody, interpreter.Decides (ifToken :: tokens) dictionary ifBody elseBody) ↔
      IsBlock (ifToken :: tokens)) ∧
    ∀ block ifBody elseBody, Body.Single block ifBody elseBody → Spelled block (ifToken :: tokens) →
      interpreter.Decides (ifToken :: tokens)
        (interpreter.dictionary.install (block.conditionals labels.afterDefinition).toList) ifBody elseBody := by
  have few := Nat.le_refl (occurrences .ifMark (ifToken :: tokens))
  have decided {block ifBody elseBody : Body} (single : Body.Single block ifBody elseBody)
      (spelled : Spelled block (ifToken :: tokens)) :=
    Interpreter.decides_of_spelled executing ifMark distinct noNumerals single spelled few
  rw [exists_block_iff ifMark, isStarted_iff ifMark]
  -- The three outcomes exclude each other, and so do the three conditions on the tokens.
  rcases Interpreter.verdict_of_fed executing ifMark distinct noNumerals few fed with
    ⟨isInside, collects⟩ | ⟨⟨outside, noBlock, started⟩, refuses⟩ | ⟨isBlock, decides⟩
  · refine ⟨iff_of_true collects isInside, ?_, ?_, fun _ _ _ => decided⟩
    · exact iff_of_false collects.not_refuses fun refused => refused.1 (.inl isInside)
    · exact iff_of_false (fun ⟨_, _, _, decides⟩ => decides.not_collects collects) fun isBlock =>
        isBlock.not_inside isInside
  · refine ⟨?_, ?_, ?_, fun _ _ _ => decided⟩
    · exact iff_of_false (fun collects => collects.not_refuses refuses) outside
    · exact iff_of_true refuses ⟨fun possible => possible.elim outside noBlock, started⟩
    · exact iff_of_false (fun ⟨_, _, _, decides⟩ => decides.not_refuses refuses) noBlock
  · refine ⟨?_, ?_, iff_of_true decides isBlock, fun _ _ _ => decided⟩
    · obtain ⟨_, _, _, decides⟩ := decides
      exact iff_of_false decides.not_collects isBlock.not_inside
    · obtain ⟨_, _, _, decides⟩ := decides
      exact iff_of_false decides.not_refuses fun refused => refused.1 (.inr isBlock)

/-- Nested branches are run at the last of their tokens, and a second `else` is refused. -/
theorem blocks_are_recognized_nested :
    let interpreter := { Interpreter.standard with stack := [.number 5] }
    (interpreter.Fed ["IF", "1", "Else", "if", "2", "then", "THEN"] ∧
      ∃ dictionary, interpreter.Decides ["IF", "1", "Else", "if", "2", "then", "THEN"] dictionary
        (.token "1" .done) (.ifThen (.token "2" .done) .done)) ∧
    interpreter.Fed ["if", "1", "else", "2", "else"] ∧ interpreter.Refuses ["if", "1", "else", "2", "else"] := by
  intro interpreter
  have executing : interpreter.activity = .executing .standard := rfl
  have distinct (conditionals : Nat) : (Labels.standard.forSession conditionals).Nodup :=
    Labels.reserved_standard.nodup_forSession conditionals
  have one : Spelled (.token "1" .done) ["1"] := .token (by decide) .done
  have two : Spelled (.token "2" .done) ["2"] := .token (by decide) .done
  have inner : Spelled (.ifThen (.token "2" .done) .done) ["if", "2", "then"] :=
    .ifThen (by decide) (by decide) two .done
  have whole : Spelled (.ifElse (.token "1" .done) (.ifThen (.token "2" .done) .done) .done)
      ["IF", "1", "Else", "if", "2", "then", "THEN"] :=
    .ifElse (by decide) (by decide) (by decide) one inner .done
  have insideNested : Inside ["1", "Else", "if", "2", "then"] := Nesting.inside_ifElse one (by decide) inner
  have insideTwice : Inside ["1", "else", "2"] := Nesting.inside_ifElse one (by decide) two
  have nested : interpreter.Fed ["IF", "1", "Else", "if", "2", "then", "THEN"] :=
    Interpreter.fed_of_inside executing (by decide) (distinct _) insideNested (Nat.le_refl _) "THEN"
  have twice : interpreter.Fed ["if", "1", "else", "2", "else"] :=
    Interpreter.fed_of_inside executing (by decide) (distinct _) insideTwice (Nat.le_refl _) "else"
  have runs := (blocks_are_recognized interpreter executing (by decide) (distinct _) (by decide) nested).2.2.2
    _ _ _ (.ifElse _ _) whole
  have hopeless : ¬∃ block, IsBlock block ∧ ["if", "1", "else", "2", "else"] <+: block := by
    obtain ⟨outside, noBlock⟩ := @hopeless_of_unread "if" ["1", "else", "2", "else"] (by decide)
    rw [@exists_block_iff "if" _ (by decide)]
    exact fun possible => possible.elim outside noBlock
  have started : IsStarted ["if", "1", "else", "2"] :=
    (@isStarted_iff "if" _ (by decide)).mpr insideTwice
  have refuses := (blocks_are_recognized interpreter executing (by decide) (distinct _) (by decide) twice).2.1.mpr
    ⟨hopeless, started⟩
  exact ⟨⟨nested, _, runs⟩, twice, refuses⟩

end Forth

import Forth.Machine

/-! Structured bodies: sequences of plain tokens and branches, nested to any depth. A body can be
spelled as a flat list of tokens, and it can be evaluated branch by branch without a flat list. -/

namespace Forth

inductive Body where
  | done
  | token (plain : Token) (rest : Body)
  | ifThen (ifBody rest : Body)
  | ifElse (ifBody elseBody rest : Body)
deriving DecidableEq, Repr

namespace Body

/-- The usual spelling. -/
def tokens : Body → List Token
  | .done => []
  | .token plain rest => plain :: rest.tokens
  | .ifThen ifBody rest => "if" :: (ifBody.tokens ++ "then" :: rest.tokens)
  | .ifElse ifBody elseBody rest =>
      "if" :: (ifBody.tokens ++ "else" :: (elseBody.tokens ++ "then" :: rest.tokens))

/-- Every spelling of a body: plain tokens are no marks, and the marks may be written in any
case. -/
inductive Spelled : Body → List Token → Prop where
  | done : Spelled .done []
  | token {plain : Token} {rest : Body} {restTokens : List Token}
      (noMark : plain.mark? = none) (restSpelled : Spelled rest restTokens) :
      Spelled (.token plain rest) (plain :: restTokens)
  | ifThen {ifBody rest : Body} {ifTokens restTokens : List Token} {ifToken thenToken : Token}
      (ifMark : ifToken.mark? = some .ifMark) (thenMark : thenToken.mark? = some .thenMark)
      (ifSpelled : Spelled ifBody ifTokens) (restSpelled : Spelled rest restTokens) :
      Spelled (.ifThen ifBody rest) (ifToken :: (ifTokens ++ thenToken :: restTokens))
  | ifElse {ifBody elseBody rest : Body} {ifTokens elseTokens restTokens : List Token}
      {ifToken elseToken thenToken : Token}
      (ifMark : ifToken.mark? = some .ifMark) (elseMark : elseToken.mark? = some .elseMark)
      (thenMark : thenToken.mark? = some .thenMark)
      (ifSpelled : Spelled ifBody ifTokens) (elseSpelled : Spelled elseBody elseTokens)
      (restSpelled : Spelled rest restTokens) :
      Spelled (.ifElse ifBody elseBody rest)
        (ifToken :: (ifTokens ++ elseToken :: (elseTokens ++ thenToken :: restTokens)))

end Body

/-- Goes on from an ending unless it is a fault. -/
def Ending.andThen (first : Ending) (next : Stack → Option Ending) : Option Ending :=
  match first.fault with
  | some _ => some first
  | none =>
      (next first.stack).map fun second =>
        { second with printed := first.printed ++ second.printed }

/-- Takes the selector off the stack and hands the rest to the branch that it picks. -/
def branchOn (stack : Stack) (ifBranch elseBranch : Stack → Option Ending) : Option Ending :=
  match stack.popValue with
  | .error fault => some ⟨stack, "", some fault⟩
  | .ok (selector, rest) => if selector.picksIf then ifBranch rest else elseBranch rest

section Branches

variable (ifBranch elseBranch : Stack → Option Ending)

/-- Without a selector there is an underflow, and nothing is evaluated. -/
theorem branchOn_nil : branchOn [] ifBranch elseBranch = some ⟨[], "", some (.underflow 1 0)⟩ := rfl

/-- A selector that reads as zero picks the first branch and any other the second. -/
theorem branchOn_cons (selector : Value) (rest : Stack) :
    branchOn (selector :: rest) ifBranch elseBranch =
      if selector.reading = 0 then ifBranch rest else elseBranch rest := by
  simp only [branchOn, Stack.popValue, Value.picksIf_iff]

end Branches

namespace Body

/-- Evaluates a body by its structure. Each plain token is run on its own with the given fuel. -/
def eval (dictionary : Dictionary) (fuel : Nat) : Body → Stack → Option Ending
  | .done, stack => some ⟨stack, "", none⟩
  | .token plain rest, stack =>
      (Machine.runTokens dictionary fuel stack [plain]).bind fun ending =>
        ending.andThen (eval dictionary fuel rest)
  | .ifThen ifBody rest, stack =>
      (branchOn stack (eval dictionary fuel ifBody) (fun left => some ⟨left, "", none⟩)).bind
        fun ending => ending.andThen (eval dictionary fuel rest)
  | .ifElse ifBody elseBody rest, stack =>
      (branchOn stack (eval dictionary fuel ifBody) (eval dictionary fuel elseBody)).bind
        fun ending => ending.andThen (eval dictionary fuel rest)

theorem mark_if : Token.mark? "if" = some .ifMark := by decide

theorem mark_else : Token.mark? "else" = some .elseMark := by decide

theorem mark_then : Token.mark? "then" = some .thenMark := by decide

/-- All tokens of a body outside its branch marks are plain. -/
def Plain : Body → Prop
  | .done => True
  | .token plain rest => plain.mark? = none ∧ rest.Plain
  | .ifThen ifBody rest => ifBody.Plain ∧ rest.Plain
  | .ifElse ifBody elseBody rest => ifBody.Plain ∧ elseBody.Plain ∧ rest.Plain

theorem spelled_tokens {body : Body} (plain : body.Plain) : Spelled body body.tokens := by
  induction body with
  | done => exact .done
  | token _ _ restSpelled => exact .token plain.1 (restSpelled plain.2)
  | ifThen _ _ ifSpelled restSpelled =>
      exact .ifThen mark_if mark_then (ifSpelled plain.1) (restSpelled plain.2)
  | ifElse _ _ _ ifSpelled elseSpelled restSpelled =>
      exact .ifElse mark_if mark_else mark_then (ifSpelled plain.1) (elseSpelled plain.2.1)
        (restSpelled plain.2.2)

end Body

end Forth

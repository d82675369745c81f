import Forth.Interpreter
import Forth.Proofs.Agreement
import Forth.Proofs.Installation

/-! Words that matter. Names are looked up when their turn comes, so what a run does depends on the words
that can be looked up on the way: those named by its own tokens, those named in their bodies, and so on.
All other entries may be added, redefined or erased without a difference. -/

namespace Forth

namespace Dictionary

/-- The names that running the tokens can look up: the tokens themselves, and the tokens in any body of a
word that can be looked up, as far as they are no numerals. -/
inductive MayCall (dictionary : Dictionary) (tokens : List Token) : Token → Prop where
  | pending {token : Token} (member : token ∈ tokens) (noNumeral : Number.ofNumeral? token = none) :
      MayCall dictionary tokens token
  | inside {name token : Token} {word : Word} (called : MayCall dictionary tokens name)
      (found : dictionary.find? name = some word) (member : token ∈ word.action.tokens)
      (noNumeral : Number.ofNumeral? token = none) : MayCall dictionary tokens token

variable {dictionary other : Dictionary} {tokens : List Token}

/-- Every set of names that holds those of the tokens, and with a word those in its bodies, holds all that
can be looked up. -/
theorem MayCall.least (relevant : Token → Prop) (covers : Covers relevant tokens)
    (closed : ∀ name word, relevant name → dictionary.find? name = some word → Covers relevant word.action.tokens)
    {token : Token} (called : dictionary.MayCall tokens token) : relevant token := by
  induction called with
  | pending member noNumeral => exact covers _ member noNumeral
  | inside _ found member noNumeral isRelevant => exact closed _ _ isRelevant found _ member noNumeral

/-- Dictionaries with the same actions for all names that can be looked up agree on them, and nothing else
comes up. -/
theorem agree_of_same (same : ∀ name, dictionary.MayCall tokens name →
    (dictionary.find? name).map Word.action = (other.find? name).map Word.action) :
    dictionary.Agree (dictionary.MayCall tokens) other where
  same := same
  closed _ _ called found _ member noNumeral := called.inside found member noNumeral

end Dictionary

/-- A run on a stack of numbers goes the same way in every dictionary that has the same actions, or no
word, for the names that the run can look up. In particular a word with another name can be added, redefined
or erased. -/
theorem runs_depend_on_words_they_may_call (dictionary : Dictionary) (tokens : List Token) (stack : Stack)
    (numeric : stack.Numeric) :
    (∀ other : Dictionary, (∀ name, dictionary.MayCall tokens name →
        (dictionary.find? name).map Word.action = (other.find? name).map Word.action) →
      ∀ fuel, Machine.runTokens dictionary fuel stack tokens = Machine.runTokens other fuel stack tokens) ∧
    (∀ word : Word, ¬dictionary.MayCall tokens word.name → ∀ fuel, Machine.runTokens dictionary fuel stack tokens =
      Machine.runTokens (dictionary.insert word) fuel stack tokens) ∧
    ∀ name, ¬dictionary.MayCall tokens name → ∀ fuel, Machine.runTokens dictionary fuel stack tokens =
      Machine.runTokens (dictionary.erase name) fuel stack tokens := by
  have alike (other : Dictionary) (same : ∀ name, dictionary.MayCall tokens name →
        (dictionary.find? name).map Word.action = (other.find? name).map Word.action) (fuel : Nat) :
      Machine.runTokens dictionary fuel stack tokens = Machine.runTokens other fuel stack tokens :=
    Machine.run_agree (Dictionary.agree_of_same same) fuel numeric fun _ => .pending
  refine ⟨alike, ?_, ?_⟩
  · intro word uncalled
    apply alike
    intro name called
    have apart : word.name ≠ name := fun same => uncalled (same ▸ called)
    rw [Dictionary.find?_insert, if_neg apart]
  · intro erased uncalled
    apply alike
    intro name called
    have apart : erased ≠ name := fun same => uncalled (same ▸ called)
    rw [Dictionary.find?_erase, if_neg apart]

/-- A word that is redefined to call itself forever does no harm where it is not called. -/
theorem runs_depend_on_words_they_may_call_redefined :
    let dictionary := Interpreter.standard.dictionary
    let endless := Word.defined "fib" (.compiled ["fib"])
    Stack.Numeric [.number 4] ∧ ¬dictionary.MayCall ["square", "."] endless.name ∧ ∀ fuel,
      Machine.runTokens dictionary fuel [.number 4] ["square", "."] =
        Machine.runTokens (dictionary.insert endless) fuel [.number 4] ["square", "."] := by
  intro dictionary endless
  let words := Vocabulary.base ++ Vocabulary.printing ++ Vocabulary.prelude
  have numeric : Stack.Numeric [.number 4] := by decide
  have listed : ∀ word ∈ words, word.name ∈ ["square", ".", "dup", "*"] →
      ∀ token ∈ word.action.tokens, token ∈ ["square", ".", "dup", "*"] := by
    decide +kernel
  have uncalled : ¬dictionary.MayCall ["square", "."] endless.name := by
    intro called
    have member : endless.name ∈ ["square", ".", "dup", "*"] := by
      refine called.least (· ∈ ["square", ".", "dup", "*"]) ?_ ?_
      · intro token member _
        exact List.mem_append_left ["dup", "*"] member
      · intro name word relevant found token member _
        obtain ⟨isWord, rfl⟩ := Dictionary.mem_of_find?_insertAll found
        exact listed word isWord relevant token member
    revert member
    decide
  exact ⟨numeric, uncalled,
    (runs_depend_on_words_they_may_call dictionary ["square", "."] [.number 4] numeric).2.1 endless uncalled⟩

end Forth

import Forth.Token

/-! Where labels come from. Every definition and every conditional that is opened draws one; which
one depends on how many of each kind have been drawn before. -/

namespace Forth

structure Labels where
  /-- The label of the next definition, after the given numbers of definitions and
  conditionals. -/
  ofDefinition : Nat → Nat → String
  /-- The label of the next conditional, after the given numbers of definitions and
  conditionals. -/
  ofConditional : Nat → Nat → String
  definitions : Nat := 0
  conditionals : Nat := 0

namespace Labels

def nextDefinition (labels : Labels) : String :=
  labels.ofDefinition labels.definitions labels.conditionals

def afterDefinition (labels : Labels) : Labels :=
  { labels with definitions := labels.definitions + 1 }

def nextConditional (labels : Labels) : String :=
  labels.ofConditional labels.definitions labels.conditionals

def afterConditional (labels : Labels) : Labels :=
  { labels with conditionals := labels.conditionals + 1 }

/-- Each kind is counted on its own. The labels of conditionals can not name a word, and those of
definitions never look like them. -/
def standard : Labels where
  ofDefinition definitions _ := "definition-" ++ toString definitions
  ofConditional _ conditionals := Token.conditionalStem ++ toString conditionals ++ ">"

/-- Both kinds share one count. -/
def numbered (stem : String) : Labels where
  ofDefinition definitions conditionals := stem ++ "_" ++ toString (definitions + conditionals)
  ofConditional definitions conditionals := stem ++ "_" ++ toString (definitions + conditionals)

/-- Hands out a list over and over. -/
def cycling (names : List String) : Labels where
  ofDefinition definitions conditionals :=
    names.getD ((definitions + conditionals) % names.length) ""
  ofConditional definitions conditionals :=
    names.getD ((definitions + conditionals) % names.length) ""

end Labels

end Forth

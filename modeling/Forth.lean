import Forth.Agenda
import Forth.Body
import Forth.Console.Program
import Forth.Console.Prompt
import Forth.Console.Script
import Forth.Console.Source
import Forth.Console.Terminal
import Forth.Console.Transcript
import Forth.Dictionary.Basic
import Forth.Dictionary.Listing
import Forth.Fault
import Forth.Interpreter
import Forth.Labels
import Forth.Log
import Forth.Machine
import Forth.Main
import Forth.Number
import Forth.Primitive
import Forth.Session.Basic
import Forth.Session.Fragment
import Forth.Session.Reason
import Forth.Stack
import Forth.Text.Blank
import Forth.Text.GraphemeBase
import Forth.Text.Quoted
import Forth.Token
import Forth.Value
import Forth.Vocabulary
import Forth.Proofs.Draft
import Forth.Proofs.Draws
import Forth.Proofs.Marks
import Forth.Proofs.Runs
import Forth.Proofs.Sessions
import Forth.Proofs.Acceptance
import Forth.Proofs.FlatCode
import Forth.Proofs.Compilation
import Forth.Proofs.Composition
import Forth.Proofs.Installation
import Forth.Proofs.Numerals
import Forth.Proofs.Agreement
import Forth.Proofs.TopLevel
import Forth.Proofs.Reachability
import Forth.Proofs.Decompilation
import Forth.Proofs.Relabeling
import Forth.Proofs.LabelIndependence
import Forth.Proofs.Names
import Forth.Proofs.Frames
import Forth.Proofs.Transactions
import Forth.Proofs.Recognition
import Forth.Proofs.Persistence
import Forth.Proofs.Termination
import Forth.Proofs.TailCalls
import Forth.Proofs.Enumeration
import Forth.Proofs.Relevance
import Forth.Proofs.Unfolding
import Forth.Proofs.OpenFragments
import Forth.Proofs.Contracts
import Forth.Proofs.Choice
import Forth.Proofs.Lines
import Forth.Proofs.Scripts
import Forth.Proofs.NumeralGrammar
import Forth.Proofs.Tokenizing
import Forth.Proofs.Listings
import Forth.Proofs.Recursion
import Forth.Proofs.EmptyValue
import Forth.Proofs.Dialogues
import Forth.Proofs.BulkAccess
import Forth.Proofs.Performances
import Forth.Proofs.Logging

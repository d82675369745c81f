import Forth.Proofs.Commands
import Forth.Proofs.Lines

/-! Cutting a line into tokens and putting it together again. The tokens are all that the line holds besides
blanks, in order; a blank anywhere in a line parts it into two, of which the second is executed after the first;
and tokens that are set apart by blanks, whichever and however many, are the tokens of the line. -/

namespace Forth.Text

/-- The code points that Unicode gives the property White_Space. -/
def whiteSpace : List Nat :=
  [0x09, 0x0a, 0x0b, 0x0c, 0x0d, 0x20, 0x85, 0xa0, 0x1680, 0x2000, 0x2001, 0x2002, 0x2003, 0x2004, 0x2005, 0x2006,
    0x2007, 0x2008, 0x2009, 0x200a, 0x2028, 0x2029, 0x202f, 0x205f, 0x3000]

theorem isBlank_iff (character : Char) : isBlank character = true ↔ character.toNat ∈ whiteSpace := by
  simp only [isBlank, whiteSpace, Bool.or_eq_true, Bool.and_eq_true, decide_eq_true_eq, beq_iff_eq, List.mem_cons,
    List.not_mem_nil, or_false]
  omega

/-- A word is not empty and holds no blank. -/
structure IsWord (word : String) : Prop where
  nonempty : word ≠ ""
  solid : Solid word.toList

instance (characters : List Char) : Decidable (Solid characters) :=
  List.decidableBAll (fun character => isBlank character = false) characters

instance (word : String) : Decidable (IsWord word) :=
  decidable_of_iff (word ≠ "" ∧ Solid word.toList)
    ⟨fun both => ⟨both.1, both.2⟩, fun isWord => ⟨isWord.nonempty, isWord.solid⟩⟩

def Blank (text : String) : Prop := ∀ character ∈ text.toList, isBlank character = true

instance (text : String) : Decidable (Blank text) :=
  List.decidableBAll (fun character => isBlank character = true) text.toList

theorem closeWord_isWord {read : List Char} {rest : List String} (isSolid : Solid read)
    (restWords : ∀ word ∈ rest, IsWord word) : ∀ word ∈ closeWord read rest, IsWord word := by
  unfold closeWord
  split
  next => exact restWords
  next some =>
    refine List.forall_mem_cons.2 ⟨⟨?_, ?_⟩, restWords⟩
    · intro empty
      have nothing := String.toList_eq_nil_iff.2 empty
      rw [String.toList_ofList, List.reverse_eq_nil_iff] at nothing
      exact some (List.isEmpty_iff.2 nothing)
    · intro character member
      rw [String.toList_ofList, List.mem_reverse] at member
      exact isSolid character member

theorem wordsFrom_isWord {read : List Char} (isSolid : Solid read) (characters : List Char) :
    ∀ word ∈ wordsFrom read characters, IsWord word := by
  induction characters generalizing read with
  | nil => exact closeWord_isWord isSolid fun word member => absurd member List.not_mem_nil
  | cons character characters ih =>
      cases parts : isBlank character with
      | true =>
          rw [wordsFrom, if_pos parts]
          exact closeWord_isWord isSolid (ih solid_nil)
      | false =>
          rw [wordsFrom_solid parts]
          exact ih (solid_cons parts isSolid)

theorem flatMap_closeWord (read : List Char) (rest : List String) :
    (closeWord read rest).flatMap String.toList = read.reverse ++ rest.flatMap String.toList := by
  cases read with
  | nil => rfl
  | cons last read =>
      change (String.ofList (last :: read).reverse :: rest).flatMap String.toList = _
      rw [List.flatMap_cons, String.toList_ofList]

/-- The words hold what has been read and all that comes, apart from blanks. -/
theorem flatMap_wordsFrom (read characters : List Char) :
    (wordsFrom read characters).flatMap String.toList =
      read.reverse ++ characters.filter fun character => !isBlank character := by
  induction characters generalizing read with
  | nil => exact flatMap_closeWord read []
  | cons character characters ih =>
      cases parts : isBlank character with
      | true =>
          rw [wordsFrom, if_pos parts, flatMap_closeWord, ih, List.filter_cons_of_neg (by simp [parts])]
          rfl
      | false =>
          rw [wordsFrom_solid parts, ih, List.filter_cons_of_pos (by simp [parts]), List.reverse_cons,
            List.append_assoc]
          rfl

theorem words_append_blank {character : Char} (blank : isBlank character = true) (front back : String) :
    words (front ++ String.singleton character ++ back) = words front ++ words back := by
  rw [words, String.toList_append, String.toList_append, String.toList_singleton, List.append_assoc,
    List.singleton_append, wordsFrom_append_blank blank]
  rfl

/-- The line that holds words one after the other, each behind the gap that comes with it, and then the
ending. -/
def spread (pieces : List (String × String)) (ending : String) : String :=
  String.join (pieces.map fun piece => piece.1 ++ piece.2) ++ ending

/-- The gaps are blank, and there is one between any two words. -/
structure Parted (pieces : List (String × String)) (ending : String) : Prop where
  blank : ∀ piece ∈ pieces, Blank piece.1
  between : ∀ piece ∈ pieces.tail, piece.1 ≠ ""
  blankEnding : Blank ending

instance (pieces : List (String × String)) (ending : String) : Decidable (Parted pieces ending) :=
  decidable_of_iff ((∀ piece ∈ pieces, Blank piece.1) ∧ (∀ piece ∈ pieces.tail, piece.1 ≠ "") ∧ Blank ending)
    ⟨fun all => ⟨all.1, all.2.1, all.2.2⟩, fun parted => ⟨parted.blank, parted.between, parted.blankEnding⟩⟩

theorem spread_cons (piece : String × String) (pieces : List (String × String)) (ending : String) :
    (spread (piece :: pieces) ending).toList = piece.1.toList ++ (piece.2.toList ++ (spread pieces ending).toList) := by
  simp only [spread, List.map_cons, String.join_cons, String.toList_append, List.append_assoc]

/-- There is a blank or nothing after the first word. -/
theorem Parted.head_blank {piece : String × String} {pieces : List (String × String)} {ending : String}
    (parted : Parted (piece :: pieces) ending) :
    ∀ character ∈ (spread pieces ending).toList.head?, isBlank character = true := by
  intro character first
  cases pieces with
  | nil => exact parted.blankEnding character (List.mem_of_mem_head? first)
  | cons next pieces =>
      have isGap := parted.between next (List.mem_cons_self ..)
      have gapBlank := parted.blank next (List.mem_cons_of_mem piece (List.mem_cons_self ..))
      rw [spread_cons] at first
      cases gap : next.1.toList with
      | nil => exact absurd (String.toList_eq_nil_iff.1 gap) isGap
      | cons blank rest =>
          rw [gap, List.cons_append, List.head?_cons, Option.mem_some_iff] at first
          subst first
          exact gapBlank blank (gap ▸ List.mem_cons_self ..)

theorem wordsFrom_gap {gap : List Char} (blank : ∀ character ∈ gap, isBlank character = true) (rest : List Char) :
    wordsFrom [] (gap ++ rest) = wordsFrom [] rest := by
  induction gap with
  | nil => rfl
  | cons character gap ih =>
      obtain ⟨isFirst, areRest⟩ := List.forall_mem_cons.1 blank
      rw [List.cons_append, wordsFrom_blank isFirst, ih areRest]
      rfl

theorem words_word {word : String} (isWord : IsWord word) : words word = [word] := by
  have readOn := wordsFrom_append_solid isWord.solid [] []
  rw [List.append_nil, List.append_nil] at readOn
  have someRead : word.toList.reverse.isEmpty = false := by
    rw [List.isEmpty_eq_false_iff, ne_eq, List.reverse_eq_nil_iff, String.toList_eq_nil_iff]
    exact isWord.nonempty
  rw [words, readOn, wordsFrom, closeWord, someRead, List.reverse_reverse, String.ofList_toList]
  rfl

theorem wordsFrom_word {word : String} (isWord : IsWord word) {rest : List Char}
    (ends : ∀ character ∈ rest.head?, isBlank character = true) :
    wordsFrom [] (word.toList ++ rest) = word :: wordsFrom [] rest := by
  cases rest with
  | nil =>
      rw [List.append_nil]
      exact words_word isWord
  | cons character rest =>
      have blank := ends character rfl
      rw [wordsFrom_append_blank blank, wordsFrom_blank blank]
      change words word ++ _ = _
      rw [words_word isWord]
      rfl

/-- Words that are set apart are found again. -/
theorem words_spread {pieces : List (String × String)} {ending : String} (areWords : ∀ piece ∈ pieces, IsWord piece.2)
    (parted : Parted pieces ending) : words (spread pieces ending) = pieces.map Prod.snd := by
  induction pieces with
  | nil =>
      have nothing := wordsFrom_gap parted.blankEnding []
      rw [List.append_nil] at nothing
      rw [words, spread, List.map_nil, String.join_nil, String.empty_append, nothing]
      rfl
  | cons piece pieces ih =>
      obtain ⟨isFirst, areRest⟩ := List.forall_mem_cons.1 areWords
      obtain ⟨firstBlank, restBlank⟩ := List.forall_mem_cons.1 parted.blank
      have rest : words (spread pieces ending) = pieces.map Prod.snd := by
        refine ih areRest ⟨restBlank, fun other member => ?_, parted.blankEnding⟩
        exact parted.between other (List.mem_of_mem_tail member)
      rw [words, spread_cons, wordsFrom_gap firstBlank, wordsFrom_word isFirst parted.head_blank, List.map_cons, ← rest]
      rfl

end Forth.Text

namespace Forth

open Text

/-- Tokens are words, and together they are the line without its blanks. Every blank parts a line into two
whose tokens follow each other, and which can as well be executed one after the other. Words set apart by
blanks are the tokens of the line. -/
theorem tokens_are_set_apart_by_blanks :
    (∀ character, isBlank character = true ↔ character.toNat ∈ whiteSpace) ∧
    (∀ line, (∀ token ∈ Token.ofLine line, IsWord token) ∧
      String.join (Token.ofLine line) = String.ofList (line.toList.filter fun character => !isBlank character)) ∧
    (∀ front back character, isBlank character = true →
      Token.ofLine (front ++ String.singleton character ++ back) = Token.ofLine front ++ Token.ofLine back) ∧
    (∀ pieces ending, (∀ piece ∈ pieces, IsWord piece.2) → Parted pieces ending →
      Token.ofLine (spread pieces ending) = pieces.map Prod.snd) ∧
    ∀ (interpreter : Interpreter) (fuel : Nat) (front back : String) (character : Char), isBlank character = true →
      interpreter.executeLine fuel (front ++ String.singleton character ++ back) =
        (interpreter.executeLine fuel front).bind fun reply =>
          reply.andThen fun next => next.executeLine fuel back := by
  refine ⟨isBlank_iff, ?_, ?_, ?_, ?_⟩
  · intro line
    refine ⟨wordsFrom_isWord solid_nil line.toList, ?_⟩
    apply String.toList_injective
    rw [String.toList_join, String.toList_ofList]
    exact flatMap_wordsFrom [] line.toList
  · intro front back character blank
    exact words_append_blank blank front back
  · intro pieces ending areWords parted
    exact words_spread areWords parted
  · intro interpreter fuel front back character blank
    simp only [Interpreter.executeLine, Token.ofLine, words_append_blank blank]
    exact interpreter.executeAll_append fuel (words front) (words back)

/-- A definition over two lines, the second of which starts in the middle of its body. -/
theorem tokens_are_set_apart_by_blanks_unfinished :
    let pieces := [("\u3000", ":"), (" ", "twice"), ("\t\r", "dup"), ("\n", "+"), ("\u2028", ";")]
    (∀ piece ∈ pieces, IsWord piece.2) ∧ Parted pieces "" ∧
    Token.ofLine (spread pieces "") = [":", "twice", "dup", "+", ";"] ∧ isBlank '\n' = true ∧
    Token.ofLine (": twice dup" ++ String.singleton '\n' ++ "+ ;") =
      Token.ofLine ": twice dup" ++ Token.ofLine "+ ;" ∧
    Interpreter.standard.executeLine 9 (": twice dup" ++ String.singleton '\n' ++ "+ ;") =
      (Interpreter.standard.executeLine 9 ": twice dup").bind fun reply =>
        reply.andThen fun next => next.executeLine 9 "+ ;" := by
  intro pieces
  obtain ⟨_, _, parts, finds, executes⟩ := tokens_are_set_apart_by_blanks
  have areWords : ∀ piece ∈ pieces, IsWord piece.2 := by decide
  have parted : Parted pieces "" := by decide
  have blank : isBlank '\n' = true := by decide
  exact ⟨areWords, parted, finds pieces "" areWords parted, blank, parts _ _ _ blank, executes _ 9 _ _ _ blank⟩

end Forth

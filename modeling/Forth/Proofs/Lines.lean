import Forth.Token

/-! Words and lines of a text. Every line end is blank, so the words of the lines, one line after the other,
are the words of the text. A word of a line has its place in the text: as many line feeds are before it as
lines, and the words before and after it in the text are those that were before and after it in the lines. -/

namespace Forth.Text

/-- No character is blank. -/
def Solid (characters : List Char) : Prop := ∀ character ∈ characters, isBlank character = false

theorem solid_nil : Solid [] := fun _ member => absurd member List.not_mem_nil

theorem solid_cons {character : Char} {rest : List Char} (solid : isBlank character = false) (isSolid : Solid rest) :
    Solid (character :: rest) := List.forall_mem_cons.2 ⟨solid, isSolid⟩

theorem wordsFrom_blank {character : Char} (blank : isBlank character = true) (read rest : List Char) :
    wordsFrom read (character :: rest) = wordsFrom read [] ++ wordsFrom [] rest := by
  simp only [wordsFrom, if_pos blank, closeWord]
  by_cases empty : read.isEmpty = true
  · simp only [if_pos empty, List.nil_append]
  · simp only [if_neg empty, List.cons_append, List.nil_append]

theorem wordsFrom_solid {character : Char} (solid : isBlank character = false) (read rest : List Char) :
    wordsFrom read (character :: rest) = wordsFrom (character :: read) rest := by
  simp only [wordsFrom, solid, Bool.false_eq_true, if_false]

/-- A blank parts the words before it from those after it. -/
theorem wordsFrom_append_blank {character : Char} (blank : isBlank character = true) (read front back : List Char) :
    wordsFrom read (front ++ character :: back) = wordsFrom read front ++ wordsFrom [] back := by
  induction front generalizing read with
  | nil => exact wordsFrom_blank blank read back
  | cons first front ih =>
      rw [List.cons_append]
      cases parts : isBlank first with
      | true => rw [wordsFrom_blank parts, wordsFrom_blank parts, ih, List.append_assoc]
      | false => rw [wordsFrom_solid parts, wordsFrom_solid parts, ih]

/-- Characters that are not blank are read on. -/
theorem wordsFrom_append_solid {solid : List Char} (isSolid : Solid solid) (read rest : List Char) :
    wordsFrom read (solid ++ rest) = wordsFrom (solid.reverse ++ read) rest := by
  induction solid generalizing read with
  | nil => rfl
  | cons first solid ih =>
      obtain ⟨firstSolid, restSolid⟩ := List.forall_mem_cons.1 isSolid
      rw [List.cons_append, wordsFrom_solid firstSolid, ih restSolid, List.reverse_cons, List.append_assoc]
      rfl

/-- What has been read of a word might as well be read again. -/
theorem wordsFrom_reverse {read : List Char} (isSolid : Solid read) :
    wordsFrom [] read.reverse = wordsFrom read [] := by
  have forward : Solid read.reverse := fun other member => isSolid other (List.mem_reverse.1 member)
  have readOn := wordsFrom_append_solid forward [] []
  rwa [List.append_nil, List.append_nil, List.reverse_reverse] at readOn

/-- Where a word stands among the characters. What has been read is the beginning of a word. -/
theorem wordsFrom_split {word : String} {later : List String} {characters read : List Char} {earlier : List String}
    (isSolid : Solid read) (cut : wordsFrom read characters = earlier ++ word :: later) :
    ∃ front back, read.reverse ++ characters = front ++ (word.toList ++ back) ∧ wordsFrom [] front = earlier ∧
      wordsFrom [] back = later := by
  induction characters generalizing read earlier with
  | nil =>
      cases read with
      | nil => simp [wordsFrom, closeWord] at cut
      | cons last read =>
          rcases List.cons_eq_append_iff.1 cut with ⟨rfl, same⟩ | ⟨_, _, impossible⟩
          · cases same
            exact ⟨[], [], by rw [String.toList_ofList]; rfl, rfl, rfl⟩
          · simp at impossible
  | cons character rest ih =>
      cases parts : isBlank character with
      | false =>
          rw [wordsFrom_solid parts] at cut
          have place := ih (solid_cons parts isSolid) cut
          rwa [List.reverse_cons, List.append_assoc] at place
      | true =>
          rw [wordsFrom_blank parts] at cut
          cases read with
          | nil =>
              obtain ⟨front, back, whole, isEarlier, isLater⟩ := ih isSolid cut
              refine ⟨character :: front, back, congrArg (character :: ·) whole, ?_, isLater⟩
              rw [wordsFrom_blank parts, isEarlier]
              rfl
          | cons last read =>
              -- A word ends here. It is the one in question, or the first of those before it.
              rcases List.cons_eq_append_iff.1 cut with ⟨rfl, same⟩ | ⟨between, rfl, isRest⟩
              · cases same
                exact ⟨[], character :: rest, by rw [String.toList_ofList]; rfl, rfl, wordsFrom_blank parts [] rest⟩
              · obtain ⟨front, back, whole, isEarlier, isLater⟩ := ih solid_nil isRest
                refine ⟨(last :: read).reverse ++ character :: front, back, ?_, ?_, isLater⟩
                · rw [List.append_assoc, List.cons_append, ← whole]
                  rfl
                · rw [wordsFrom_append_blank parts, wordsFrom_reverse isSolid, isEarlier]
                  rfl

theorem blank_lineFeed : isBlank '\n' = true := by decide

theorem blank_return : isBlank '\r' = true := by decide

/-- A line is what was read of it without the line end, and a line end parts words. -/
theorem closeLine_split (read : List Char) :
    ∃ ending, (closeLine read).toList ++ ending = read.reverse ∧
      ∀ more rest, wordsFrom [] (more ++ (ending ++ '\n' :: rest)) = wordsFrom [] more ++ wordsFrom [] rest := by
  unfold closeLine
  split
  next read =>
    refine ⟨['\r'], by rw [String.toList_ofList, List.reverse_cons], fun more rest => ?_⟩
    rw [List.cons_append, List.nil_append, wordsFrom_append_blank blank_return, wordsFrom_blank blank_lineFeed]
    rfl
  next =>
    refine ⟨[], by rw [String.toList_ofList, List.append_nil], fun more rest => ?_⟩
    exact wordsFrom_append_blank blank_lineFeed [] more rest

theorem wordsFrom_line (read rest : List Char) :
    wordsFrom [] (read.reverse ++ '\n' :: rest) = words (closeLine read) ++ wordsFrom [] rest := by
  obtain ⟨ending, whole, parts⟩ := closeLine_split read
  rw [← whole, List.append_assoc, parts]
  rfl

theorem linesFrom_feed (read rest : List Char) :
    linesFrom read ('\n' :: rest) = closeLine read :: linesFrom [] rest := by
  rw [linesFrom, if_pos rfl]

theorem linesFrom_other {character : Char} (other : character ≠ '\n') (read rest : List Char) :
    linesFrom read (character :: rest) = linesFrom (character :: read) rest := by
  rw [linesFrom, if_neg other]

/-- The words of the lines are the words of the text. -/
theorem flatMap_linesFrom (read characters : List Char) :
    (linesFrom read characters).flatMap words = wordsFrom [] (read.reverse ++ characters) := by
  induction characters generalizing read with
  | nil =>
      cases read with
      | nil => rfl
      | cons last read =>
          change words (String.ofList (last :: read).reverse) ++ [] = _
          rw [List.append_nil, words, String.toList_ofList, List.append_nil]
  | cons character rest ih =>
      by_cases feed : character = '\n'
      · rw [feed, linesFrom_feed, List.flatMap_cons, ih, wordsFrom_line]
        rfl
      · rw [linesFrom_other feed, ih, List.reverse_cons, List.append_assoc]
        rfl

/-- Two stretches of a text hold the lines before and after another line, and no word runs into it. -/
structure Encloses (front back : List Char) (before after : List String) : Prop where
  feeds : front.count '\n' = before.length
  wordsBefore : ∀ more, wordsFrom [] (front ++ more) = before.flatMap words ++ wordsFrom [] more
  wordsAfter : ∀ more, wordsFrom [] (more ++ back) = wordsFrom [] more ++ after.flatMap words

/-- Where a line stands among the characters. What has been read is the beginning of a line. -/
theorem linesFrom_split {line : String} {after : List String} {characters read : List Char} {before : List String}
    (noFeed : '\n' ∉ read) (cut : linesFrom read characters = before ++ line :: after) :
    ∃ front back, read.reverse ++ characters = front ++ (line.toList ++ back) ∧ '\n' ∉ line.toList ∧
      Encloses front back before after := by
  induction characters generalizing read before with
  | nil =>
      cases read with
      | nil => simp [linesFrom] at cut
      | cons last read =>
          rcases List.cons_eq_append_iff.1 cut with ⟨rfl, same⟩ | ⟨_, _, impossible⟩
          · cases same
            refine ⟨[], [], by rw [String.toList_ofList]; rfl, ?_, rfl, fun more => rfl, fun more => ?_⟩
            · rw [String.toList_ofList, List.mem_reverse]
              exact noFeed
            · rw [List.append_nil]
              exact (List.append_nil _).symm
          · simp at impossible
  | cons character rest ih =>
      by_cases feed : character = '\n'
      · subst feed
        rw [linesFrom_feed] at cut
        -- A line ends here, and as with words it is the one in question or comes before it.
        rcases List.cons_eq_append_iff.1 cut with ⟨rfl, same⟩ | ⟨between, rfl, isRest⟩
        · cases same
          obtain ⟨ending, whole, parts⟩ := closeLine_split read
          refine ⟨[], ending ++ '\n' :: rest, ?_, ?_, rfl, fun more => rfl, fun more => ?_⟩
          · rw [List.nil_append, ← List.append_assoc, whole]
          · intro member
            exact noFeed (List.mem_reverse.1 (whole ▸ List.mem_append_left ending member))
          · rw [parts, flatMap_linesFrom]
            rfl
        · obtain ⟨front, back, whole, single, encloses⟩ := ih List.not_mem_nil isRest
          refine ⟨read.reverse ++ '\n' :: front, back, ?_, single, ?_, fun more => ?_, encloses.wordsAfter⟩
          · rw [List.append_assoc, List.cons_append, ← whole]
            rfl
          · have noneRead : read.reverse.count '\n' = 0 := by
              rw [List.count_reverse, List.count_eq_zero]
              exact noFeed
            rw [List.count_append, noneRead, List.count_cons_self, encloses.feeds, List.length_cons]
            omega
          · rw [List.append_assoc, List.cons_append, wordsFrom_line, encloses.wordsBefore, List.flatMap_cons,
              List.append_assoc]
      · rw [linesFrom_other feed] at cut
        have place := ih (List.not_mem_cons_of_ne_of_not_mem (Ne.symm feed) noFeed) cut
        rwa [List.reverse_cons, List.append_assoc] at place

theorem flatMap_lines (text : String) : (lines text).flatMap words = words text := flatMap_linesFrom [] text.toList

/-- Where a word of a line stands in the text. -/
theorem exists_place {text line word : String} {before after earlier later : List String}
    (cut : lines text = before ++ line :: after) (inLine : words line = earlier ++ word :: later) :
    ∃ front back : String, text = front ++ word ++ back ∧ words text = words front ++ word :: words back ∧
      front.toList.count '\n' = before.length ∧ words front = before.flatMap words ++ earlier := by
  obtain ⟨front, back, whole, single, encloses⟩ := linesFrom_split List.not_mem_nil cut
  obtain ⟨lineFront, lineBack, wholeLine, isEarlier, isLater⟩ := wordsFrom_split solid_nil inLine
  rw [List.reverse_nil, List.nil_append] at whole wholeLine
  have noFeed : lineFront.count '\n' = 0 := by
    apply List.count_eq_zero.2
    intro member
    exact single (wholeLine ▸ List.mem_append_left _ member)
  have wordsBefore : words (String.ofList (front ++ lineFront)) = before.flatMap words ++ earlier := by
    rw [words, String.toList_ofList, encloses.wordsBefore, isEarlier]
  have wordsAfter : words (String.ofList (lineBack ++ back)) = later ++ after.flatMap words := by
    rw [words, String.toList_ofList, encloses.wordsAfter, isLater]
  refine ⟨String.ofList (front ++ lineFront), String.ofList (lineBack ++ back), ?_, ?_, ?_, wordsBefore⟩
  · apply String.toList_injective
    simp only [String.toList_append, String.toList_ofList, whole, wholeLine, List.append_assoc]
  · calc
      words text = before.flatMap words ++ ((earlier ++ word :: later) ++ after.flatMap words) := by
        rw [← flatMap_lines, cut, List.flatMap_append, List.flatMap_cons, inLine]
      _ = (before.flatMap words ++ earlier) ++ word :: (later ++ after.flatMap words) := by
        simp only [List.append_assoc, List.cons_append]
      _ = words (String.ofList (front ++ lineFront)) ++ word :: words (String.ofList (lineBack ++ back)) := by
        rw [wordsBefore, wordsAfter]
  · rw [String.toList_ofList, List.count_append, noFeed, encloses.feeds, Nat.add_zero]

end Forth.Text

import Forth.Dictionary.Listing
import Forth.Proofs.Installation

/-! The table of words depends on nothing but the words that are there in the end. It has one row for every
visible word, in the order of the code points of the names, whatever was inserted and removed on the way and
in whatever order the words are come across. All names are filled up to one width, which no name exceeds: the
width is counted in bytes and filled up in characters, and a character takes at least one byte. -/

namespace Forth.Dictionary

/-- What a host may do to a dictionary. -/
inductive Change where
  | insert (word : Word)
  | remove (name : String)
deriving DecidableEq, Repr

namespace Change

/-- The name that is given a word or loses the one it has. -/
def name : Change → String
  | .insert word => word.name
  | .remove name => name

/-- The word that the name has afterwards. -/
def word? : Change → Option Word
  | .insert word => some word
  | .remove _ => none

def apply (dictionary : Dictionary) : Change → Dictionary
  | .insert word => dictionary.insert word
  | .remove name => dictionary.erase name

end Change

/-- The dictionary after a history of changes. -/
def ofChanges (changes : List Change) : Dictionary := changes.foldl Change.apply empty

/-- The word that a name has after a history: the last change of the name decides. -/
def wordAfter (changes : List Change) (name : String) : Option Word :=
  (changes.reverse.find? fun change => change.name = name).bind Change.word?

section Histories

theorem find?_apply (dictionary : Dictionary) (change : Change) (name : String) :
    (change.apply dictionary).find? name = if change.name = name then change.word? else dictionary.find? name := by
  cases change with
  | insert word => exact find?_insert dictionary word name
  | remove erased => exact find?_erase dictionary erased name

theorem find?_foldl_apply (changes : List Change) (dictionary : Dictionary) (name : String) :
    (changes.foldl Change.apply dictionary).find? name =
      match changes.reverse.find? fun change => change.name = name with
      | some change => change.word?
      | none => dictionary.find? name := by
  induction changes generalizing dictionary with
  | nil => rfl
  | cons change changes ih =>
      rw [List.foldl_cons, ih, List.reverse_cons, List.find?_append, find?_apply]
      cases changes.reverse.find? fun change => change.name = name with
      | some later => rfl
      | none =>
          by_cases same : change.name = name
          · simp [same]
          · simp [same]

theorem find?_ofChanges (changes : List Change) (name : String) :
    (ofChanges changes).find? name = wordAfter changes name := by
  rw [ofChanges, find?_foldl_apply, wordAfter]
  cases changes.reverse.find? fun change => change.name = name with
  | some change => rfl
  | none => exact find?_empty name

/-- A name has only a word that was inserted, and one of that name. -/
theorem mem_of_wordAfter {changes : List Change} {name : String} {word : Word}
    (after : wordAfter changes name = some word) : .insert word ∈ changes ∧ word.name = name := by
  obtain ⟨change, found, isWord⟩ := Option.bind_eq_some_iff.1 after
  have named : change.name = name := by simpa using List.find?_some found
  have member := List.mem_reverse.1 (List.mem_of_find?_eq_some found)
  cases change with
  | insert inserted =>
      cases isWord
      exact ⟨member, named⟩
  | remove erased => cases isWord

end Histories

/-- The code points of a text in order. -/
def codePoints (text : String) : List Nat := text.toList.map Char.toNat

theorem codePoints_lt {first second : String} (before : compare first second = .lt) :
    codePoints first < codePoints second := by
  have smaller : first < second := compareOfLessAndEq_eq_lt.1 before
  exact List.map_lt (fun _ _ less => less) smaller

section Words

variable {dictionary : Dictionary} (ownNames : ∀ name word, dictionary.find? name = some word → word.name = name)
include ownNames

theorem mem_words_iff (word : Word) : word ∈ dictionary.words ↔ dictionary.find? word.name = some word := by
  simp only [words, List.mem_map, Prod.exists, Std.ExtTreeMap.mem_toList_iff_getElem?_eq_some]
  constructor
  · rintro ⟨name, other, found, rfl⟩
    rw [ownNames name other found]
    exact found
  · intro found
    exact ⟨word.name, word, found, rfl⟩

theorem words_ordered :
    dictionary.words.Pairwise fun earlier later => compare earlier.name later.name = .lt := by
  have byKey : dictionary.entries.toList.Pairwise fun earlier later => compare earlier.1 later.1 = .lt :=
    Std.ExtTreeMap.ordered_keys_toList
  have named (entry : String × Word) (member : entry ∈ dictionary.entries.toList) : entry.2.name = entry.1 :=
    ownNames entry.1 entry.2 (Std.ExtTreeMap.mem_toList_iff_getElem?_eq_some.1 member)
  rw [words, List.pairwise_map]
  refine byKey.imp_of_mem fun earlierIn laterIn ordered => ?_
  rw [named _ earlierIn, named _ laterIn]
  exact ordered

end Words

section Widths

/-- Every character takes at least one byte. -/
theorem length_le_utf8ByteSize (text : String) : text.length ≤ text.utf8ByteSize := by
  induction text using String.push_induction with
  | empty => exact Nat.le_refl 0
  | push text character ih =>
      have some := character.utf8Size_pos
      rw [String.length_push, String.utf8ByteSize_push]
      omega

theorem foldl_max_eq (words : List Word) (least : Nat) :
    words.foldl (fun width word => max width word.name.utf8ByteSize) least = max least (nameWidth words) := by
  induction words generalizing least with
  | nil => exact (Nat.max_zero least).symm
  | cons first words ih =>
      rw [nameWidth, List.foldl_cons, List.foldl_cons, ih, ih]
      omega

theorem nameWidth_cons (first : Word) (words : List Word) :
    nameWidth (first :: words) = max first.name.utf8ByteSize (nameWidth words) := by
  rw [nameWidth, List.foldl_cons, foldl_max_eq, Nat.zero_max]

theorem utf8ByteSize_le_nameWidth {words : List Word} {word : Word} (member : word ∈ words) :
    word.name.utf8ByteSize ≤ nameWidth words := by
  induction words with
  | nil => exact absurd member List.not_mem_nil
  | cons first words ih =>
      rw [nameWidth_cons]
      rcases List.mem_cons.1 member with rfl | later
      · exact Nat.le_max_left ..
      · exact Nat.le_trans (ih later) (Nat.le_max_right ..)

/-- Some name is as wide as the column. -/
theorem exists_nameWidth {words : List Word} (someWord : words ≠ []) :
    ∃ word ∈ words, word.name.utf8ByteSize = nameWidth words := by
  induction words with
  | nil => exact absurd rfl someWord
  | cons first words ih =>
      rw [nameWidth_cons]
      by_cases narrower : nameWidth words ≤ first.name.utf8ByteSize
      · exact ⟨first, List.mem_cons_self .., (Nat.max_eq_left narrower).symm⟩
      · have more : words ≠ [] := by
          rintro rfl
          exact narrower (Nat.zero_le _)
        obtain ⟨word, member, widest⟩ := ih more
        exact ⟨word, List.mem_cons_of_mem first member, by omega⟩

end Widths

/-- A text with blanks behind it up to a width in code points. One that is wider is left whole. -/
structure Fills (width : Nat) (text field : String) : Prop where
  blanks : ∃ count, field = text ++ String.ofList (List.replicate count ' ')
  length : field.length = max width text.length

theorem padded_fills (width : Nat) (text : String) : Fills width text (padded width text) where
  blanks := ⟨_, rfl⟩
  length := by
    rw [padded, String.length_append, String.length_ofList, List.length_replicate]
    omega

/-- The row of a word. Its name takes up exactly the given width. -/
def IsRow (width : Nat) (word : Word) (line : String) : Prop :=
  ∃ name signature, Fills width word.name name ∧ name.length = width ∧ Fills 16 word.signature signature ∧
    line = name ++ "  " ++ (if word.action.isPrimitive then "native" else "script") ++ "  " ++ signature ++ "  --  " ++
      word.description ++ "\n"

theorem row_isRow {width : Nat} {word : Word} (fits : word.name.utf8ByteSize ≤ width) :
    IsRow width word (row width word) := by
  refine ⟨padded width word.name, padded 16 word.signature, padded_fills width word.name, ?_,
    padded_fills 16 word.signature, rfl⟩
  have characters := length_le_utf8ByteSize word.name
  rw [(padded_fills width word.name).length]
  omega

/-- The table of the given words, in the given order. -/
def table (shown : List Word) : String :=
  toString shown.length ++ " words defined.\n\n" ++ String.join (shown.map (row (nameWidth shown)))

/-- The table of words that are come across in some order: those that are visible are sorted by name. -/
def tabulate (order : List Word) : String :=
  table ((order.filter Word.visible).mergeSort fun first second => first.name ≤ second.name)

/-- Names tell words apart, so there is one order in which they can be sorted. -/
theorem mergeSort_visibleWords {dictionary : Dictionary}
    (ownNames : ∀ name word, dictionary.find? name = some word → word.name = name) {order : List Word}
    (once : order.Nodup) (enumerates : ∀ word, word ∈ order ↔ dictionary.find? word.name = some word) :
    (order.filter Word.visible).mergeSort (fun first second => first.name ≤ second.name) =
      dictionary.visibleWords := by
  have ordered := words_ordered ownNames
  have noneTwice : dictionary.words.Nodup := by
    refine ordered.imp fun before same => ?_
    rw [same] at before
    exact Std.OrientedCmp.not_lt_of_lt before before
  have samePermuted : order.Perm dictionary.words :=
    (List.perm_ext_iff_of_nodup once noneTwice).2 fun word => (enumerates word).trans (mem_words_iff ownNames word).symm
  have sorted : ((order.filter Word.visible).mergeSort fun first second => first.name ≤ second.name).Pairwise
      fun earlier later => decide (earlier.name ≤ later.name) = true := by
    refine List.pairwise_mergeSort ?_ ?_ _
    · intro first second third
      simp only [decide_eq_true_eq]
      exact String.le_trans
    · intro first second
      simp only [Bool.or_eq_true, decide_eq_true_eq]
      exact String.le_total first.name second.name
  have sortedWords : dictionary.visibleWords.Pairwise
      fun earlier later => decide (earlier.name ≤ later.name) = true := by
    refine (ordered.filter _).imp fun before => ?_
    have smaller := compareOfLessAndEq_eq_lt.1 before
    exact decide_eq_true (String.not_lt.1 (String.lt_asymm smaller))
  refine List.Perm.eq_of_pairwise ?_ sorted sortedWords ((List.mergeSort_perm _ _).trans (samePermuted.filter _))
  intro first second firstIn secondIn before after
  have sameName := String.le_antisymm (of_decide_eq_true before) (of_decide_eq_true after)
  have found := (enumerates first).1 (List.mem_filter.1 (List.mem_mergeSort.1 firstIn)).1
  have foundOther := (mem_words_iff ownNames second).1 (List.mem_filter.1 secondIn).1
  rw [sameName, foundOther] at found
  exact (Option.some.inj found).symm

/-- After any history the table counts and shows the visible words, each as the last change of its name left
it, in the order of the code points of their names. Their names take up the same width, that of the name with
the most bytes. A history that leaves the same words leaves the same table, and so does any order in which a
look through the dictionary may come across them. -/
theorem listing_is_canonical (changes : List Change) :
    (∃ shown width line, (∀ word, word ∈ shown ↔ wordAfter changes word.name = some word ∧ word.visible = true) ∧
      shown.Pairwise (fun earlier later => codePoints earlier.name < codePoints later.name) ∧
      (ofChanges changes).listing =
        toString shown.length ++ " words defined.\n\n" ++ String.join (shown.map line) ∧
      (∀ word ∈ shown, IsRow width word (line word)) ∧ (∀ word ∈ shown, word.name.utf8ByteSize ≤ width) ∧
      (shown ≠ [] → ∃ word ∈ shown, word.name.utf8ByteSize = width)) ∧
    (∀ others, (∀ name, wordAfter others name = wordAfter changes name) →
      (ofChanges others).listing = (ofChanges changes).listing) ∧
    ∀ order : List Word, order.Nodup → (∀ word, word ∈ order ↔ wordAfter changes word.name = some word) →
      tabulate order = (ofChanges changes).listing := by
  have ownNames (name : String) (word : Word) (found : (ofChanges changes).find? name = some word) :
      word.name = name := (mem_of_wordAfter ((find?_ofChanges changes name).symm.trans found)).2
  refine ⟨?_, ?_, ?_⟩
  · let shown := (ofChanges changes).visibleWords
    refine ⟨shown, nameWidth shown, row (nameWidth shown), ?_, ?_, rfl, ?_, ?_, exists_nameWidth⟩
    · intro word
      rw [← find?_ofChanges, ← mem_words_iff ownNames]
      exact List.mem_filter
    · exact ((words_ordered ownNames).filter _).imp codePoints_lt
    · intro word member
      exact row_isRow (utf8ByteSize_le_nameWidth member)
    · intro word member
      exact utf8ByteSize_le_nameWidth member
  · intro others same
    have sameWords : ofChanges others = ofChanges changes := by
      apply ext_find?
      intro name
      rw [find?_ofChanges, find?_ofChanges, same]
    rw [sameWords]
  · intro order once enumerates
    simp only [← find?_ofChanges] at enumerates
    rw [tabulate, mergeSort_visibleWords ownNames once enumerates]
    rfl

/-- A name of two characters and four bytes sets the width, and comes last. One word is replaced, one is
removed and one is hidden. -/
theorem listing_is_canonical_replaced :
    let plain : Word := { name := "z", action := .primitive .discard, description := "Drops.", signature := "a -- " }
    let wide : Word := { name := "éé", action := .compiled ["1"] }
    let hidden : Word := .defined "<if-0>" (.conditional ["1"] [])
    let changes : List Change := [.insert { wide with description := "Old." }, .insert hidden, .insert plain,
      .insert { plain with name := "gone" }, .insert wide, .remove "gone"]
    let others : List Change := [.insert plain, .remove "é", .insert wide, .insert hidden]
    (∀ name, wordAfter others name = wordAfter changes name) ∧
    (∀ word, word ∈ [hidden, wide, plain] ↔ wordAfter changes word.name = some word) ∧
    (ofChanges others).listing = (ofChanges changes).listing ∧
    tabulate [hidden, wide, plain] = (ofChanges changes).listing ∧
    (ofChanges changes).listing = "2 words defined.\n\nz     native  a --              --  Drops.\n" ++
      "éé    script                    --  \n" := by
  intro plain wide hidden changes others
  let names := ["éé", "<if-0>", "z", "gone", "é"]
  have same (name : String) : wordAfter others name = wordAfter changes name := by
    by_cases listed : name ∈ names
    · have each : ∀ name ∈ names, wordAfter others name = wordAfter changes name := by decide
      exact each name listed
    · have nothing {history : List Change} (all : ∀ change ∈ history, change.name ∈ names) :
          wordAfter history name = none := by
        cases after : wordAfter history name with
        | none => rfl
        | some word =>
            obtain ⟨inserted, named⟩ := mem_of_wordAfter after
            exact absurd (named ▸ all _ inserted) listed
      rw [nothing (by decide : ∀ change ∈ others, _), nothing (by decide : ∀ change ∈ changes, _)]
  have enumerates (word : Word) : word ∈ [hidden, wide, plain] ↔ wordAfter changes word.name = some word := by
    constructor
    · intro member
      have each : ∀ word ∈ [hidden, wide, plain], wordAfter changes word.name = some word := by decide
      exact each word member
    · intro after
      have each : ∀ change ∈ changes, ∀ word ∈ change.word?, wordAfter changes word.name = some word →
          word ∈ [hidden, wide, plain] := by decide
      exact each (.insert word) (mem_of_wordAfter after).1 word rfl after
  obtain ⟨_, unchanged, inAnyOrder⟩ := listing_is_canonical changes
  refine ⟨same, enumerates, unchanged others same, inAnyOrder _ (by decide) enumerates, by decide +kernel⟩

end Forth.Dictionary

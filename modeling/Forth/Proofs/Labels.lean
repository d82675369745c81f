import Forth.Labels

/-! Which labels a session draws, and that the reserved ones are never in the way: they are pairwise
distinct, no numerals and no names, however many have been drawn before. -/

namespace Forth

namespace Token

variable {token : Token}

theorem mark?_of_isName (isName : token.isName = true) : token.mark? = none := by
  simp only [Token.isName, Bool.and_eq_true, Option.isNone_iff_eq_none] at isName
  exact isName.1.2

theorem eq_colon (mark : token.mark? = some .colon) : token = ":" := by
  unfold mark? at mark
  grind

theorem eq_semicolon (mark : token.mark? = some .semicolon) : token = ";" := by
  unfold mark? at mark
  grind

theorem ofNumeral?_of_isName (isName : token.isName = true) : Number.ofNumeral? token = none := by
  simp only [Token.isName, Bool.and_eq_true, Option.isNone_iff_eq_none] at isName
  exact isName.1.1.2

theorem hasConditionalStem_of_isName (isName : token.isName = true) : token.hasConditionalStem = false := by
  simp only [Token.isName, Bool.and_eq_true, Bool.not_eq_true'] at isName
  exact isName.2

end Token

namespace Labels

/-- The supply after some more conditionals. -/
def skip (labels : Labels) (count : Nat) : Labels :=
  { labels with conditionals := labels.conditionals + count }

/-- The labels of the next conditionals, in the order in which they are drawn. -/
def upcoming (labels : Labels) : Nat → List String
  | 0 => []
  | count + 1 => labels.nextConditional :: labels.afterConditional.upcoming count

/-- The labels that a session draws: its own, and those of its conditionals. -/
def forSession (labels : Labels) (conditionals : Nat) : List String :=
  labels.nextDefinition :: labels.afterDefinition.upcoming conditionals

/-- The supply after a session. -/
def afterSession (labels : Labels) (conditionals : Nat) : Labels := labels.afterDefinition.skip conditionals

theorem skip_zero (labels : Labels) : labels.skip 0 = labels := rfl

theorem skip_skip (labels : Labels) (first second : Nat) :
    (labels.skip first).skip second = labels.skip (first + second) := by
  simp only [skip, Nat.add_assoc]

theorem afterConditional_skip (labels : Labels) (count : Nat) :
    labels.afterConditional.skip count = labels.skip (1 + count) := skip_skip labels 1 count

theorem length_upcoming (labels : Labels) (count : Nat) : (labels.upcoming count).length = count := by
  induction count generalizing labels with
  | zero => rfl
  | succ count ih => rw [upcoming, List.length_cons, ih]

theorem upcoming_add (labels : Labels) (first second : Nat) :
    labels.upcoming (first + second) = labels.upcoming first ++ (labels.skip first).upcoming second := by
  induction first generalizing labels with
  | zero => rw [Nat.zero_add, skip_zero]; rfl
  | succ first ih =>
      rw [Nat.add_right_comm]
      simp only [upcoming, List.cons_append, ih, afterConditional_skip, Nat.add_comm 1 first]

theorem upcoming_prefix (labels : Labels) {fewer count : Nat} (few : fewer ≤ count) :
    labels.upcoming fewer <+: labels.upcoming count := by
  obtain ⟨rest, rfl⟩ := Nat.exists_eq_add_of_le few
  exact ⟨_, (labels.upcoming_add fewer rest).symm⟩

theorem forSession_sublist (labels : Labels) {fewer count : Nat} (few : fewer ≤ count) :
    (labels.forSession fewer).Sublist (labels.forSession count) :=
  (labels.afterDefinition.upcoming_prefix few).sublist.cons_cons labels.nextDefinition

theorem mem_upcoming (labels : Labels) (count : Nat) (label : String) :
    label ∈ labels.upcoming count ↔
      ∃ index < count, label = labels.ofConditional labels.definitions (labels.conditionals + index) := by
  induction count generalizing labels with
  | zero => simp only [upcoming, List.not_mem_nil, Nat.not_lt_zero, false_and, exists_false]
  | succ count ih =>
      simp only [upcoming, List.mem_cons, ih, afterConditional]
      constructor
      · intro drawn
        rcases drawn with rfl | ⟨index, small, rfl⟩
        · exact ⟨0, Nat.succ_pos count, rfl⟩
        · exact ⟨index + 1, by omega, by rw [Nat.add_assoc, Nat.add_comm 1 index]⟩
      · intro drawn
        obtain ⟨_ | index, small, rfl⟩ := drawn
        · exact .inl rfl
        · exact .inr ⟨index, by omega, by rw [Nat.add_assoc, Nat.add_comm 1 index]⟩

/-- The label of a conditional by its number. -/
def numberedConditional (number : Nat) : String := Token.conditionalStem ++ toString number ++ ">"

theorem numberedConditional_toList (number : Nat) :
    (numberedConditional number).toList = '<' :: 'i' :: 'f' :: '-' :: (Nat.toDigits 10 number ++ ['>']) := by
  simp [numberedConditional, Token.conditionalStem, String.toList_append]

theorem numberedConditional_injective {first second : Nat}
    (same : numberedConditional first = numberedConditional second) : first = second := by
  have characters := congrArg String.toList same
  simp only [numberedConditional_toList, List.cons.injEq, true_and, List.append_cancel_right_eq] at characters
  have numbers := congrArg (fun digits => Nat.ofDigitChars 10 digits 0) characters
  simpa using numbers

theorem hasConditionalStem_numberedConditional (number : Nat) :
    Token.hasConditionalStem (numberedConditional number) = true := by
  rw [Token.hasConditionalStem, numberedConditional_toList]
  rfl

theorem ofNumeral?_numberedConditional (number : Nat) :
    Number.ofNumeral? (numberedConditional number) = none := by
  rw [Number.ofNumeral?, numberedConditional_toList, Number.ofSignedDigits?.eq_3]
  · rfl
  · intro digits same
    cases same
  · intro digits same
    cases same

/-- Conditionals are numbered upwards under their stem, with gaps where numbers have gone to others, and no
definition is labelled like a conditional. -/
structure Reserved (labels : Labels) (numbering : Nat → Nat) : Prop where
  ofConditional : ∀ definitions conditionals,
    labels.ofConditional definitions conditionals = numberedConditional (numbering conditionals)
  increasing : ∀ {earlier later : Nat}, earlier < later → numbering earlier < numbering later
  ofDefinition : ∀ definitions conditionals,
    Token.hasConditionalStem (labels.ofDefinition definitions conditionals) = false

/-- The supply of an interpreter that shares the count of conditionals with others. The numbering says which
numbers are its own. -/
def shared (numbering : Nat → Nat) : Labels where
  ofDefinition := standard.ofDefinition
  ofConditional _ conditionals := numberedConditional (numbering conditionals)

theorem reserved_shared {numbering : Nat → Nat}
    (increasing : ∀ {earlier later : Nat}, earlier < later → numbering earlier < numbering later) :
    (shared numbering).Reserved numbering where
  ofConditional _ _ := rfl
  increasing := increasing
  ofDefinition definitions _ := by
    simp only [shared, standard, Token.hasConditionalStem, String.toList_append]
    rfl

theorem reserved_standard : standard.Reserved id := reserved_shared id

namespace Reserved

variable {labels : Labels} {numbering : Nat → Nat}

theorem monotone (reserved : labels.Reserved numbering) {earlier later : Nat} (notAfter : earlier ≤ later) :
    numbering earlier ≤ numbering later := by
  rcases Nat.lt_or_eq_of_le notAfter with before | rfl
  · exact Nat.le_of_lt (reserved.increasing before)
  · exact Nat.le_refl _

theorem afterDefinition (reserved : labels.Reserved numbering) : labels.afterDefinition.Reserved numbering :=
  ⟨reserved.ofConditional, reserved.increasing, reserved.ofDefinition⟩

theorem skip (reserved : labels.Reserved numbering) (count : Nat) : (labels.skip count).Reserved numbering :=
  ⟨reserved.ofConditional, reserved.increasing, reserved.ofDefinition⟩

theorem mem_upcoming (reserved : labels.Reserved numbering) (count : Nat) (label : String) :
    label ∈ labels.upcoming count ↔
      ∃ place, labels.conditionals ≤ place ∧ place < labels.conditionals + count ∧
        label = numberedConditional (numbering place) := by
  simp only [Labels.mem_upcoming, reserved.ofConditional]
  constructor
  · intro ⟨index, small, label⟩
    exact ⟨labels.conditionals + index, by omega, by omega, label⟩
  · intro ⟨place, least, small, label⟩
    exact ⟨place - labels.conditionals, by omega, by rw [Nat.add_sub_cancel' least, label]⟩

theorem nodup_upcoming (reserved : labels.Reserved numbering) (count : Nat) : (labels.upcoming count).Nodup := by
  induction count generalizing labels with
  | zero => exact List.nodup_nil
  | succ count ih =>
      have later : labels.afterConditional.Reserved numbering := reserved.skip 1
      refine List.nodup_cons.mpr ⟨?_, ih later⟩
      rw [later.mem_upcoming]
      intro ⟨place, least, _, same⟩
      have numbers := numberedConditional_injective ((reserved.ofConditional _ _).symm.trans same)
      exact Nat.ne_of_lt (reserved.increasing least) numbers

theorem hasConditionalStem_upcoming (reserved : labels.Reserved numbering) {count : Nat} {label : String}
    (drawn : label ∈ labels.upcoming count) : Token.hasConditionalStem label = true := by
  obtain ⟨place, _, _, rfl⟩ := (reserved.mem_upcoming count label).mp drawn
  exact hasConditionalStem_numberedConditional (numbering place)

theorem nodup_forSession (reserved : labels.Reserved numbering) (count : Nat) : (labels.forSession count).Nodup := by
  refine List.nodup_cons.mpr ⟨fun drawn => ?_, reserved.afterDefinition.nodup_upcoming count⟩
  have stem := reserved.afterDefinition.hasConditionalStem_upcoming drawn
  rw [nextDefinition, reserved.ofDefinition] at stem
  cases stem

theorem ofNumeral?_upcoming (reserved : labels.Reserved numbering) {count : Nat} {label : String}
    (drawn : label ∈ labels.upcoming count) : Number.ofNumeral? label = none := by
  obtain ⟨place, _, _, rfl⟩ := (reserved.mem_upcoming count label).mp drawn
  exact ofNumeral?_numberedConditional (numbering place)

theorem ne_name_of_upcoming (reserved : labels.Reserved numbering) {count : Nat} {label name : String}
    (drawn : label ∈ labels.upcoming count) (isName : Token.isName name = true) : label ≠ name := by
  intro same
  have stem := reserved.hasConditionalStem_upcoming drawn
  rw [same, Token.hasConditionalStem_of_isName isName] at stem
  cases stem

end Reserved

end Labels

end Forth

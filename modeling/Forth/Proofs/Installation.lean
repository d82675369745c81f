import Forth.Session.Basic

/-! What installing the words of a session does to look-up, and that erasing them again restores the
dictionary if none of their names was taken. -/

namespace Forth.Dictionary

/-- Whatever is found was there before or is one of the added words, under its own name. -/
theorem find?_insertAll {words : List Word} {dictionary : Dictionary} {name : String} {word : Word}
    (found : (dictionary.insertAll words).find? name = some word) :
    word ∈ words ∧ word.name = name ∨ dictionary.find? name = some word := by
  induction words generalizing dictionary with
  | nil => exact .inr found
  | cons added words ih =>
      rcases ih found with ⟨later, named⟩ | earlier
      · exact .inl ⟨List.mem_cons_of_mem added later, named⟩
      · rw [find?_insert] at earlier
        by_cases same : added.name = name
        · rw [if_pos same] at earlier
          cases earlier
          exact .inl ⟨List.mem_cons_self .., same⟩
        · rw [if_neg same] at earlier
          exact .inr earlier

/-- Where there was nothing before, only the added words are found. -/
theorem mem_of_find?_insertAll {words : List Word} {name : String} {word : Word}
    (found : (empty.insertAll words).find? name = some word) : word ∈ words ∧ word.name = name := by
  rcases find?_insertAll found with member | earlier
  · exact member
  · rw [find?_empty] at earlier
    cases earlier

theorem find?_install_of_not_mem {entries : List (String × Action)} {name : String}
    (absent : name ∉ entries.map Prod.fst) (dictionary : Dictionary) :
    (dictionary.install entries).find? name = dictionary.find? name := by
  induction entries generalizing dictionary with
  | nil => rfl
  | cons entry entries ih =>
      simp only [List.map_cons, List.mem_cons, not_or] at absent
      have rest := ih absent.2 (dictionary.insert (.defined entry.1 entry.2))
      have apart : (Word.defined entry.1 entry.2).name ≠ name := fun same => absent.1 same.symm
      rw [find?_insert, if_neg apart] at rest
      exact rest

theorem find?_install_of_mem {entries : List (String × Action)} (distinct : (entries.map Prod.fst).Nodup)
    {name : String} {action : Action} (member : (name, action) ∈ entries) (dictionary : Dictionary) :
    (dictionary.install entries).find? name = some (.defined name action) := by
  induction entries generalizing dictionary with
  | nil => cases member
  | cons entry entries ih =>
      obtain ⟨apart, distinctRest⟩ := List.nodup_cons.mp distinct
      rcases List.mem_cons.mp member with same | later
      · subst same
        have rest := find?_install_of_not_mem apart (dictionary.insert (.defined name action))
        have self : (Word.defined name action).name = name := rfl
        rw [find?_insert, if_pos self] at rest
        exact rest
      · exact ih distinctRest later _

/-- A word of the session comes before a word of the same name. -/
theorem find?_install (dictionary : Dictionary) (definitions : Definitions) (name : String) :
    (dictionary.install definitions.toList).find? name =
      match definitions[name]? with
      | some action => some (.defined name action)
      | none => dictionary.find? name := by
  cases found : definitions[name]? with
  | some action =>
      refine find?_install_of_mem ?_ ?_ dictionary
      · rw [Std.ExtTreeMap.map_fst_toList_eq_keys]
        exact Std.ExtTreeMap.nodup_keys
      · rwa [Std.ExtTreeMap.mem_toList_iff_getElem?_eq_some]
  | none =>
      refine find?_install_of_not_mem ?_ dictionary
      rw [Std.ExtTreeMap.map_fst_toList_eq_keys, Std.ExtTreeMap.mem_keys,
        Std.ExtTreeMap.mem_iff_isSome_getElem?, found]
      exact Bool.false_ne_true

theorem find?_install_eq_none (dictionary : Dictionary) (definitions : Definitions) (name : String) :
    (dictionary.install definitions.toList).find? name = none ↔
      name ∉ definitions ∧ dictionary.find? name = none := by
  rw [find?_install, Std.ExtTreeMap.mem_iff_isSome_getElem?]
  cases definitions[name]? with
  | none => simp
  | some action => simp

theorem find?_eraseAll (dictionary : Dictionary) (names : List String) (name : String) :
    (dictionary.eraseAll names).find? name = if name ∈ names then none else dictionary.find? name := by
  induction names generalizing dictionary with
  | nil => simp [eraseAll]
  | cons erased names ih =>
      have rest := ih (dictionary.erase erased)
      rw [find?_erase] at rest
      simp only [eraseAll, List.foldl_cons] at rest ⊢
      rw [rest]
      by_cases later : name ∈ names
      · simp [later]
      · by_cases same : erased = name
        · simp [same]
        · have apart : name ≠ erased := fun equal => same equal.symm
          simp [later, same, apart]

theorem eraseAll_install {dictionary : Dictionary} {definitions : Definitions}
    (fresh : ∀ name ∈ definitions, dictionary.find? name = none) :
    (dictionary.install definitions.toList).eraseAll definitions.keys = dictionary := by
  apply ext_find?
  intro name
  rw [find?_eraseAll, find?_install]
  by_cases member : name ∈ definitions
  · rw [if_pos (Std.ExtTreeMap.mem_keys.mpr member), fresh name member]
  · rw [if_neg (fun listed => member (Std.ExtTreeMap.mem_keys.mp listed)),
      Std.ExtTreeMap.getElem?_eq_none member]

end Forth.Dictionary

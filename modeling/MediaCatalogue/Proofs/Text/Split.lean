import Mathlib.Data.List.TakeWhile
import MediaCatalogue.Query.Parameters

/-!
# Cutting what was joined

Texts that were joined with a separator are had back by cutting at it, if none of them has the separator in
it. What is cut once only may have it behind the first. White space is taken off the ends of a text, so a
text that has none there stays; such texts are the values that a list with commas can hold.
-/

set_option autoImplicit false

namespace MediaCatalogue.Text

variable {separator : Char}

/-- Characters are cut as lists are. -/
theorem splitChars_eq_splitOn (cs : List Char) : splitChars separator cs = cs.splitOn separator := by
  induction cs with
  | nil => rfl
  | cons c cs ih =>
    rw [splitChars, ih, List.splitOn_cons_eq_if_modifyHead]
    by_cases hc : c = separator
    · simp [hc]
    · cases hsplit : cs.splitOn separator with
      | nil => exact absurd hsplit (List.splitOn_ne_nil _ _)
      | cons part parts => simp [hc]

/-- Texts without the separator are had back from what they were joined to. -/
theorem split_intercalate {texts : List String} (hne : texts ≠ [])
    (h : ∀ t ∈ texts, separator ∉ t.toList) :
    split separator (String.intercalate (String.singleton separator) texts) = texts := by
  have hchars : ∀ cs ∈ texts.map String.toList, separator ∉ cs := List.forall_mem_map.2 h
  rw [split, splitChars_eq_splitOn, String.toList_intercalate, String.toList_singleton,
    List.splitOn_intercalate separator hchars (by simpa using hne), List.map_map]
  simp [Function.comp_def]

/-- What stands in front of a separator is had back if it has no separator in it, whatever stands behind. -/
theorem splitOnce?_append {front : String} (h : separator ∉ front.toList) (back : String) :
    splitOnce? separator (front ++ String.singleton separator ++ back) = some (front, back) := by
  have htake : (front.toList ++ separator :: back.toList).takeWhile (· != separator) = front.toList := by
    rw [List.takeWhile_append_of_pos, List.takeWhile_cons_of_neg (by simp), List.append_nil]
    intro c hc
    simpa using ne_of_mem_of_not_mem hc h
  have hchars : (front ++ String.singleton separator ++ back).toList =
      front.toList ++ separator :: back.toList := by
    simp
  rw [splitOnce?]
  rw [hchars, htake, List.drop_left]
  simp

/-- A text without the separator is not cut. -/
theorem splitOnce?_of_not_mem {s : String} (h : separator ∉ s.toList) : splitOnce? separator s = none := by
  have htake : s.toList.takeWhile (· != separator) = s.toList := by
    rw [List.takeWhile_eq_self_iff]
    intro c hc
    simpa using ne_of_mem_of_not_mem hc h
  rw [splitOnce?]
  rw [htake, List.drop_length]

/-- What is cut once is what stands before and behind the first separator. -/
theorem splitOnce?_eq_some_iff {s front back : String} :
    splitOnce? separator s = some (front, back) ↔
      separator ∉ front.toList ∧ s = front ++ String.singleton separator ++ back := by
  constructor
  · intro h
    by_cases hmem : separator ∈ s.toList
    · obtain ⟨as, bs, hs, hfirst⟩ := List.eq_append_cons_of_mem hmem
      have hjoined : s = String.ofList as ++ String.singleton separator ++ String.ofList bs := by
        rw [← String.toList_inj, hs]
        simp
      have hfront : separator ∉ (String.ofList as).toList := by simpa using hfirst
      rw [hjoined, splitOnce?_append hfront] at h
      cases h
      exact ⟨hfront, hjoined⟩
    · rw [splitOnce?_of_not_mem hmem] at h
      cases h
  · rintro ⟨hfront, rfl⟩
    exact splitOnce?_append hfront back

/-! ## Values between commas -/

/-- A text that can stand between commas: it is not empty and has neither commas in it nor white space at
its ends. -/
structure IsListed (s : String) : Prop where
  ne_empty : s ≠ ""
  no_comma : ',' ∉ s.toList
  trimmed : trimBlank s = s

/-- A text without any white space has none at its ends. -/
theorem trimBlank_eq_self {s : String} (h : ∀ c ∈ s.toList, isBlank c = false) : trimBlank s = s := by
  have hdrop : ∀ cs : List Char, (∀ c ∈ cs, isBlank c = false) → cs.dropWhile isBlank = cs := by
    intro cs hcs
    cases cs with
    | nil => rfl
    | cons c cs => rw [List.dropWhile_cons_of_neg (by simp [hcs])]
  rw [trimBlank, dropEndWhile, hdrop _ h, hdrop _ (by simpa using h), List.reverse_reverse,
    String.ofList_toList]

/-- A character that is neither a comma nor white space. -/
def IsPlain (c : Char) : Prop :=
  c ≠ ',' ∧ isBlank c = false

instance : DecidablePred IsPlain := fun c => inferInstanceAs (Decidable (c ≠ ',' ∧ isBlank c = false))

-- decided over the row: characters are finitely many, but too many to try them all
instance (cs : List Char) : Decidable (∀ c ∈ cs, IsPlain c) := List.decidableBAll IsPlain cs

/-- A text of plain characters can stand between commas. -/
theorem isListed_of_forall {s : String} (hne : s ≠ "") (h : ∀ c ∈ s.toList, IsPlain c) : IsListed s where
  ne_empty := hne
  no_comma := fun hcomma => (h ',' hcomma).1 rfl
  trimmed := trimBlank_eq_self fun c hc => (h c hc).2

/-- White space has no case. -/
theorem isBlank_toLower {c : Char} (h : isBlank c = true) : c.toLower = c := by
  unfold Char.toLower
  rw [dif_neg]
  rintro ⟨hlower, hupper⟩
  have hrange : 65 ≤ c.toNat ∧ c.toNat ≤ 90 := ⟨hlower, hupper⟩
  simp [isBlank, inRanges, blankRanges] at h
  omega

/-- What is neither a comma nor white space in lower case is neither of them as it is. -/
theorem isPlain_of_toLower {c : Char} (h : IsPlain c.toLower) : IsPlain c := by
  constructor
  · rintro rfl
    exact h.1 rfl
  · by_contra hblank
    rw [Bool.not_eq_false] at hblank
    rw [isBlank_toLower hblank] at h
    exact absurd h.2 (by simp [hblank])

/-- A text that is equal to a word of plain characters but for case can stand between commas. -/
theorem isListed_of_equalIgnoringAsciiCase {word text : String} (hne : word ≠ "")
    (hword : ∀ c ∈ word.toList.map Char.toLower, IsPlain c) (h : equalIgnoringAsciiCase word text = true) :
    IsListed text := by
  rw [equalIgnoringAsciiCase, beq_iff_eq] at h
  apply isListed_of_forall
  · rintro rfl
    exact hne (by simpa using h)
  · intro c hc
    exact isPlain_of_toLower (hword _ (h ▸ List.mem_map_of_mem hc))

/-- The values in a list with commas between them are had back. -/
theorem tokens_intercalate {texts : List String} (hne : texts ≠ []) (h : ∀ t ∈ texts, IsListed t) :
    Query.tokens (String.intercalate "," texts) = texts := by
  have hcomma : "," = String.singleton ',' := rfl
  have htrimmed : texts.map trimBlank = texts :=
    (List.map_congr_left fun t ht => (h t ht).trimmed).trans (List.map_id _)
  rw [Query.tokens, hcomma, split_intercalate hne fun t ht => (h t ht).no_comma, htrimmed,
    List.filter_eq_self]
  intro t ht
  simpa using (h t ht).ne_empty

end MediaCatalogue.Text

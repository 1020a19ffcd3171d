import MediaCatalogue.Proofs.Query.Bounds
import MediaCatalogue.Proofs.Store.Conditions

/-!
# Being equal to a value, and being one of some values

A filter asks for a value in three ways: the value stands at a path, or under `$eq`, or in the list of
`$in`. The first two are read as the same condition. The third tests more than equality: it also takes
what is worth the same. Away from numbers that makes no difference, since values of one kind that are
in no order to one another are equal. A number, however, is equal to numbers of its own width only, and
a candidate for numbers of all widths. So `$in` finds a number by its worth, as the comparisons do, and
the other two overlook it where it is stored in another width.
-/

set_option autoImplicit false

namespace MediaCatalogue

/-! ## Equality and order of two values -/

/-- Instants compare as equal only if they are. -/
theorem compare_instant_eq_iff {a b : Instant} : compare a b = .eq ↔ a = b := by
  have hcompare : compare a b = (compare a.seconds b.seconds).then (compare a.nanos b.nanos) := rfl
  rw [hcompare, Ordering.then_eq_eq, Int.compare_eq_eq, Nat.compare_eq_eq]
  obtain ⟨s, n, _⟩ := a
  obtain ⟨t, m, _⟩ := b
  simp

namespace Value

/-- The values, and the items of the arrays among them. -/
def leaves (values : List Value) : List Value :=
  values.flatMap fun v => v :: v.array?.getD []

/-- Two numbers are worth the same and differ, being of different widths. -/
structure IsOtherWidthOf (a b : Value) : Prop where
  isNumber : a.isNumber = true ∧ b.isNumber = true
  worth : a.compare? b = some .eq
  differs : a.equals b = false

/-- A value equal to a number is worth the same. -/
theorem compare?_of_equals {a b : Value} (hb : b.isNumber = true) (h : a.equals b = true) :
    a.compare? b = some .eq := by
  cases b with
  | int32 n => cases a <;> simp_all [equals, compare?, int?]
  | int64 n => cases a <;> simp_all [equals, compare?, int?]
  | float x => cases a <;> simp_all [equals, compare?, int?, double?, Double.equals]
  | _ => cases hb

/-- Only numbers can be worth the same without being equal. -/
theorem isOtherWidthOf_of_compare? {a b : Value} (h : a.compare? b = some .eq)
    (hne : a.equals b = false) : a.IsOtherWidthOf b := by
  refine ⟨?_, h, hne⟩
  cases b with
  | bool y =>
    cases a with
    | bool x => cases x <;> cases y <;> simp_all [equals, compare?]
    | _ => simp [compare?, int?, double?] at h
  | _ => cases a <;> simp_all [equals, compare?, int?, double?, isNumber, compare_instant_eq_iff]

end Value

namespace Filter

/-- A test of leaves holds when it holds of one of the values or of the items of the arrays among them.
-/
theorem anyLeaf_iff_leaves (test : Value → Bool) (values : List Value) :
    anyLeaf test values = true ↔ ∃ leaf ∈ Value.leaves values, test leaf = true := by
  rw [anyLeaf_iff]
  simp only [Value.leaves, List.mem_flatMap, List.mem_cons]
  constructor
  · rintro ⟨v, hv, hself | ⟨item, hitem, htest⟩⟩
    · exact ⟨v, ⟨v, hv, .inl rfl⟩, hself⟩
    · exact ⟨item, ⟨v, hv, .inr hitem⟩, htest⟩
  · rintro ⟨leaf, ⟨v, hv, rfl | hitem⟩, htest⟩
    · exact ⟨leaf, hv, .inl htest⟩
    · exact ⟨v, hv, .inr ⟨leaf, hitem, htest⟩⟩

/-- A candidate that is no pattern is met by what is equal to it or worth the same. -/
theorem isCandidate_of_ne_regex {v candidate : Value}
    (h : ∀ pattern ignoreCase, candidate ≠ .regex pattern ignoreCase) :
    v.isCandidate candidate = true ↔
      v.equals candidate = true ∨ v.compare? candidate = some .eq := by
  cases candidate with
  | regex pattern ignoreCase => exact absurd rfl (h pattern ignoreCase)
  | _ => cases v <;> simp [Value.isCandidate]

/-! ## The three filters -/

section

variable {path : String} {v : Value} (x : Fields Value)

/-- Equality with a value other than null asks for a leaf that is equal to it. -/
theorem isMatch_equal_iff (hnull : v ≠ .null) :
    (equal path v).isMatch x = true ↔
      ∃ leaf ∈ Value.leaves (Fields.resolve path x), leaf.equals v = true := by
  have hnot : v.isNull = false := by
    cases v with
    | null => exact absurd rfl hnull
    | _ => rfl
  rw [isMatch, isEqualAt, hnot, Bool.false_and, Bool.false_or, anyLeaf_iff_leaves]

/-- A single candidate that is no pattern asks for a leaf that is equal to it or worth the same. -/
theorem isMatch_oneOf_singleton_iff (hregex : ∀ pattern ignoreCase, v ≠ .regex pattern ignoreCase) :
    (oneOf path [v]).isMatch x = true ↔
      ∃ leaf ∈ Value.leaves (Fields.resolve path x),
        leaf.equals v = true ∨ leaf.compare? v = some .eq := by
  rw [isMatch, isOneOfAt, anyLeaf_iff_leaves]
  simp only [List.any_cons, List.any_nil, Bool.or_false, isCandidate_of_ne_regex hregex]

end

/-- **Equality and `$in`.** For a value that is neither null nor a pattern, a filter that asks to be
equal to it and one that asks for it in a list can both be read, and the plain filter, with the value at
the path itself, is read as the first unless the value is an object of operators. They match the same
fields, with one exception: a number that is worth the same in another width is found by the second
alone, which goes by worth, as the comparisons do. -/
theorem isMatch_equal_and_oneOf {path : String} (hpath : isOperator path = false) {v : Value}
    (hnull : v ≠ .null) (hregex : ∀ pattern ignoreCase, v ≠ .regex pattern ignoreCase) :
    ∃ f g : Filter,
      ofFields [(path, .object [("$eq", v)])] = .ok f ∧
      ofFields [(path, .object [("$in", .array [v])])] = .ok g ∧
      ((∀ operators, v = .object operators → areOperators operators = false) →
        ofFields [(path, v)] = .ok f) ∧
      ∀ x : Fields Value,
        (g.isMatch x = true ↔ f.isMatch x = true ∨
          ∃ leaf ∈ Value.leaves (Fields.resolve path x), leaf.IsOtherWidthOf v) ∧
        (v.isNumber = true → (g.isMatch x = true ↔
          ∃ leaf ∈ Value.leaves (Fields.resolve path x), leaf.compare? v = some .eq)) := by
  refine ⟨.equal path v, .oneOf path [v], ?_, ?_, fun hplain => ?_, fun x => ⟨?_, fun hnumber => ?_⟩⟩
  · rw [ofFields_singleton, ofEntry_equal hpath]
  · rw [ofFields_singleton, ofEntry_in hpath]
  · rw [ofFields_singleton]
    refine ofEntry_plain hpath ?_
    cases v with
    | object operators => simpa [isPlain] using hplain operators rfl
    | regex pattern ignoreCase => exact absurd rfl (hregex pattern ignoreCase)
    | _ => rfl
  · rw [isMatch_oneOf_singleton_iff x hregex, isMatch_equal_iff x hnull]
    constructor
    · rintro ⟨leaf, hleaf, htest⟩
      cases hequal : leaf.equals v with
      | true => exact .inl ⟨leaf, hleaf, hequal⟩
      | false =>
        have hworth := htest.resolve_left (by simp [hequal])
        exact .inr ⟨leaf, hleaf, Value.isOtherWidthOf_of_compare? hworth hequal⟩
    · rintro (⟨leaf, hleaf, hequal⟩ | ⟨leaf, hleaf, hother⟩)
      · exact ⟨leaf, hleaf, .inl hequal⟩
      · exact ⟨leaf, hleaf, .inr hother.worth⟩
  · rw [isMatch_oneOf_singleton_iff x hregex]
    refine exists_congr fun leaf => and_congr_right fun _ => or_iff_right_of_imp ?_
    exact Value.compare?_of_equals hnumber

/-- The fields of an episode that is the fifth; numbers are stored in the larger width. -/
def fifthEpisode : Fields Value :=
  [("episodeNumber", .int64 5), ("type", .string "Episode")]

/-- The number in the smaller width, as it is read from JSON, is worth what is stored. -/
theorem isMatch_equal_and_oneOf_fifthEpisode :
    ∃ f g : Filter,
      ofFields [("episodeNumber", .object [("$eq", .int32 5)])] = .ok f ∧
      ofFields [("episodeNumber", .object [("$in", .array [.int32 5])])] = .ok g ∧
      ofFields [("episodeNumber", .int32 5)] = .ok f ∧
      (g.isMatch fifthEpisode = true ↔ f.isMatch fifthEpisode = true ∨
        ∃ leaf ∈ [Value.int64 5], leaf.IsOtherWidthOf (.int32 5)) := by
  have hpath : isOperator "episodeNumber" = false := by decide
  obtain ⟨f, g, hf, hg, hplain, hmatch⟩ :=
    isMatch_equal_and_oneOf hpath (v := .int32 5) (by simp) (by simp)
  have hleaves : Value.leaves (Fields.resolve "episodeNumber" fifthEpisode) = [.int64 5] := rfl
  refine ⟨f, g, hf, hg, hplain (by simp), ?_⟩
  rw [← hleaves]
  exact (hmatch fifthEpisode).1

/-- The episode is found by its number in a list, and by the comparisons, but not by equality. -/
theorem isMatch_equal_ne_oneOf_fifthEpisode :
    ∃ f g h : Filter,
      ofFields [("episodeNumber", .int32 5)] = .ok f ∧
      ofFields [("episodeNumber", .object [("$in", .array [.int32 5])])] = .ok g ∧
      ofFields [("episodeNumber", .object [("$gte", .int32 5), ("$lte", .int32 5)])] = .ok h ∧
      f.isMatch fifthEpisode = false ∧ g.isMatch fifthEpisode = true ∧
      h.isMatch fifthEpisode = true :=
  ⟨_, _, _, rfl, rfl, rfl, rfl, rfl, rfl⟩

end Filter

end MediaCatalogue

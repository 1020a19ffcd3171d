import MediaCatalogue.Proofs.Document.Resolution
import MediaCatalogue.Proofs.Store.Conditions

/-!
# Element conditions and paths through arrays

That an array holds an object which passes a filter can be asked in two ways: by an element condition on
the path of the array, or by the filter itself with all of its paths led on from that path. The second
looks at all objects of the array together, so that each condition may be met by another one. It asks for
no more than the first, as long as the filter is positive, that is, as long as its conditions ask for
something to be there:

- the paths led on from the array lead to all that the paths in the filter lead to in the object;
- a positive condition that holds of what a path leads to holds when the path leads to more;
- so does a conjunction or disjunction of such conditions, by induction on the filter.
-/

set_option autoImplicit false

namespace MediaCatalogue

/-- The objects in some values are the items of the arrays among them that are objects. -/
theorem Value.mem_objectsIn {values : List Value} {o : Fields Value} :
    o ∈ objectsIn values ↔ ∃ items, .array items ∈ values ∧ .object o ∈ items := by
  rw [objectsIn, List.mem_flatMap]
  constructor
  · rintro ⟨v, hv, ho⟩
    obtain ⟨item, hitem, hobject⟩ := List.mem_filterMap.1 ho
    cases v with
    | array items =>
      cases item with
      | object fields =>
        cases hobject
        exact ⟨items, hv, hitem⟩
      | _ => cases hobject
    | _ => cases hitem
  · rintro ⟨items, hitems, ho⟩
    exact ⟨_, hitems, List.mem_filterMap.2 ⟨_, ho, rfl⟩⟩

namespace Filter

/-- The filter asks for something to be there wherever it has a condition. An element condition does so
whatever it asks of the element. -/
inductive IsPositive : Filter → Prop where
  | everything : IsPositive .everything
  | equal {path : String} {value : Value} : value ≠ .null → IsPositive (.equal path value)
  | compared (c : Comparison) (path : String) (value : Value) : IsPositive (.compared c path value)
  | oneOf (path : String) (values : List Value) : IsPositive (.oneOf path values)
  | present (path : String) : IsPositive (.present path true)
  | found (path : String) (pattern : Pattern) : IsPositive (.found path pattern)
  | element (path : String) (f : Filter) : IsPositive (.element path f)
  | all {fs : List Filter} : (∀ f ∈ fs, IsPositive f) → IsPositive (.all fs)
  | any {fs : List Filter} : (∀ f ∈ fs, IsPositive f) → IsPositive (.any fs)

mutual

/-- The filter with its paths led on from another path. The paths that an element must pass begin at the
element and stay as they are. -/
def beneath (path : String) : Filter → Filter
  | .everything => .everything
  | .equal q value => .equal (path ++ "." ++ q) value
  | .notEqual q value => .notEqual (path ++ "." ++ q) value
  | .compared c q value => .compared c (path ++ "." ++ q) value
  | .oneOf q values => .oneOf (path ++ "." ++ q) values
  | .noneOf q values => .noneOf (path ++ "." ++ q) values
  | .present q wanted => .present (path ++ "." ++ q) wanted
  | .found q pattern => .found (path ++ "." ++ q) pattern
  | .element q f => .element (path ++ "." ++ q) f
  | .all fs => .all (allBeneath path fs)
  | .any fs => .any (allBeneath path fs)

/-- Several filters with their paths led on from another path. -/
def allBeneath (path : String) : List Filter → List Filter
  | [] => []
  | f :: fs => f.beneath path :: allBeneath path fs

end

/-- Several filters are led on one by one. -/
theorem allBeneath_eq_map (path : String) (fs : List Filter) :
    allBeneath path fs = fs.map (beneath path) :=
  eq_map_of_cons rfl (fun _ _ => rfl) fs

/-- Fields pass any of some filters when they pass one. -/
theorem anyMatch_iff (fs : List Filter) (fields : Fields Value) :
    anyMatch fs fields = true ↔ ∃ f ∈ fs, f.isMatch fields = true := by
  induction fs with
  | nil => simp [anyMatch]
  | cons f fs ih => simp [anyMatch, ih]

/-! ## Conditions on more values -/

section

variable {values more : List Value} (h : values ⊆ more)

include h

/-- A test of leaves that some values pass, more values pass. -/
theorem anyLeaf_of_subset {test : Value → Bool} (htest : anyLeaf test values = true) :
    anyLeaf test more = true := by
  rw [anyLeaf_iff] at htest ⊢
  obtain ⟨v, hv, hleaf⟩ := htest
  exact ⟨v, h hv, hleaf⟩

/-- A test of elements that some values pass, more values pass. -/
theorem anyElement_of_subset {test : Fields Value → Bool} (htest : anyElement test values = true) :
    anyElement test more = true := by
  obtain ⟨v, hv, hitem⟩ := List.any_eq_true.1 htest
  exact List.any_eq_true.2 ⟨v, h hv, hitem⟩

/-- Where something is there, it is there among more. -/
theorem not_isEmpty_of_subset (hvalues : values.isEmpty = false) : more.isEmpty = false := by
  rw [List.isEmpty_eq_false_iff] at hvalues ⊢
  rintro rfl
  exact hvalues (List.subset_nil.1 h)

end

/-- Where the paths of a positive filter, led on from another path, lead to all that they lead to in some
fields, the filter is passed if these fields pass it. -/
theorem IsPositive.isMatch_beneath {f : Filter} (hf : f.IsPositive) {path : String} {o fields : Fields Value}
    (hpaths : ∀ q, Fields.resolve q o ⊆ Fields.resolve (path ++ "." ++ q) fields)
    (h : f.isMatch o = true) : (f.beneath path).isMatch fields = true := by
  induction hf with
  | everything => rfl
  | @equal q value hnull =>
    have hvalue : value.isNull = false := by
      cases value with
      | null => exact absurd rfl hnull
      | _ => rfl
    simp only [beneath, isMatch, isEqualAt, hvalue, Bool.false_and, Bool.false_or] at h ⊢
    exact anyLeaf_of_subset (hpaths q) h
  | compared c q value => exact anyLeaf_of_subset (hpaths q) h
  | oneOf q values => exact anyLeaf_of_subset (hpaths q) h
  | present q =>
    simp only [beneath, isMatch, beq_true, Bool.not_eq_true'] at h ⊢
    exact not_isEmpty_of_subset (hpaths q) h
  | found q pattern => exact anyLeaf_of_subset (hpaths q) h
  | element q f => exact anyElement_of_subset (hpaths q) h
  | all _ ih =>
    rw [isMatch, allMatch_iff] at h
    rw [beneath, isMatch, allMatch_iff, allBeneath_eq_map, List.forall_mem_map]
    exact fun f hf => ih f hf (h f hf)
  | any _ ih =>
    rw [isMatch, anyMatch_iff] at h
    rw [beneath, isMatch, anyMatch_iff, allBeneath_eq_map]
    obtain ⟨f, hf, hmatch⟩ := h
    exact ⟨f.beneath path, List.mem_map_of_mem hf, ih f hf hmatch⟩

/-- **An element condition is at least as strong as the paths through the array.** Fields that have, at a
path, an array with an object that passes a positive filter pass the filter with its paths led on from
there. -/
theorem isMatch_beneath_of_element {f : Filter} (hf : f.IsPositive) {path : String} {fields : Fields Value}
    (h : (element path f).isMatch fields = true) : (f.beneath path).isMatch fields = true := by
  rw [isMatch, anyElement_iff] at h
  obtain ⟨o, ho, hmatch⟩ := h
  obtain ⟨items, hitems, hitem⟩ := Value.mem_objectsIn.1 ho
  exact hf.isMatch_beneath (Fields.resolve_subset_of_item hitems hitem) hmatch

/-- Lasts longer than a minute and can be had somewhere. -/
def longAndAvailable : Filter :=
  .all [.compared .greater "duration" (.int64 60), .element "manifestedAs" (.equal "available" (.bool true))]

/-- A version of some duration with one encoding. -/
def versionFields (seconds : Int64) (available : Bool) : Value :=
  .object [("duration", .int64 seconds),
    ("manifestedAs", .array [.object [("available", .bool available)]])]

/-- A version that lasts longer than a minute and can be had is also found by the paths alone. -/
theorem isMatch_beneath_of_element_long :
    longAndAvailable.IsPositive ∧
      (element "versions" longAndAvailable).isMatch
        [("versions", .array [versionFields 10 false, versionFields 1800 true])] = true ∧
      (longAndAvailable.beneath "versions").isMatch
        [("versions", .array [versionFields 10 false, versionFields 1800 true])] = true := by
  have hpositive : longAndAvailable.IsPositive := by
    refine .all (List.forall_mem_cons.2 ⟨.compared _ _ _, List.forall_mem_singleton.2 ?_⟩)
    exact .element _ _
  have hmatch : (element "versions" longAndAvailable).isMatch
      [("versions", .array [versionFields 10 false, versionFields 1800 true])] = true := rfl
  exact ⟨hpositive, hmatch, isMatch_beneath_of_element hpositive hmatch⟩

-- it is not the other way round: here a long version and one that can be had are two
example :
    (longAndAvailable.beneath "versions").isMatch
        [("versions", .array [versionFields 10 true, versionFields 1800 false])] = true ∧
      (element "versions" longAndAvailable).isMatch
        [("versions", .array [versionFields 10 true, versionFields 1800 false])] = false :=
  ⟨rfl, rfl⟩

end Filter

end MediaCatalogue

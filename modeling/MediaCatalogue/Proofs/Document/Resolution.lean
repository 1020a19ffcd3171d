import MediaCatalogue.Document.Path

/-!
# What paths lead to

A path that is put together from two leads to where the second leads from all that the first leads to,
and from more values a path leads to more. At an array each step takes in what it leads to from the
objects among the items. So whatever a path leads to from such an object is also led to by the path
through the array.
-/

set_option autoImplicit false

namespace MediaCatalogue

/-! ## Paths put together -/

/-- A text is cut at a separator into what stands before it and what stands behind. -/
theorem Text.splitChars_append (separator : Char) (cs ds : List Char) :
    splitChars separator (cs ++ separator :: ds) = splitChars separator cs ++ splitChars separator ds := by
  induction cs with
  | nil => simp [splitChars]
  | cons c cs ih =>
    obtain ⟨part, parts, hcs⟩ := List.exists_cons_of_ne_nil (splitChars_ne_nil separator cs)
    by_cases hc : c = separator
    · simp [splitChars, hc, ih]
    · simp [splitChars, hc, ih, hcs]

/-- A dot between two paths separates the names of the one from those of the other. -/
theorem pathSegments_append (p q : String) :
    pathSegments (p ++ "." ++ q) = pathSegments p ++ pathSegments q := by
  have hchars : (p ++ "." ++ q).toList = p.toList ++ '.' :: q.toList := by
    simp
  rw [pathSegments, Text.split, hchars, Text.splitChars_append, List.map_append]
  rfl

/-- A path has at least one segment, which may be empty. -/
theorem pathSegments_ne_nil (path : String) : pathSegments path ≠ [] := by
  simpa [pathSegments, Text.split] using Text.splitChars_ne_nil '.' path.toList

namespace Value

/-- All values at a path are found by its first step, and from there by the rest. -/
theorem resolve_cons (values : List Value) (name : String) (names : List String) :
    resolve values (name :: names) = resolve (values.flatMap (·.children name)) names := rfl

/-- What lies at two paths in a row is found by the second from what the first leads to. -/
theorem resolve_append (values : List Value) (front rest : List String) :
    resolve values (front ++ rest) = resolve (resolve values front) rest :=
  List.foldl_append

/-- From more values names lead to more. -/
theorem resolve_subset {values more : List Value} (h : values ⊆ more) (names : List String) :
    resolve values names ⊆ resolve more names := by
  induction names generalizing values more with
  | nil => exact h
  | cons name names ih =>
    rw [resolve_cons, resolve_cons]
    refine ih fun v hv => ?_
    obtain ⟨u, hu, hchild⟩ := List.mem_flatMap.1 hv
    exact List.mem_flatMap.2 ⟨u, h hu, hchild⟩

/-- A step from an array takes in the fields of the objects in it. -/
theorem children_subset_array {items : List Value} {o : Fields Value} (ho : .object o ∈ items)
    (name : String) : children name (.object o) ⊆ children name (.array items) := by
  intro v hv
  have hget : Fields.get? name o = some v := Option.mem_toList.1 hv
  exact List.mem_append_right _ (List.mem_filterMap.2 ⟨_, ho, hget⟩)

end Value

namespace Fields

/-- What lies at a path with a dot in it is found by what is behind the dot from what is before it leads
to. -/
theorem resolve_append (p q : String) (fields : Fields Value) :
    resolve (p ++ "." ++ q) fields = Value.resolve (resolve p fields) (pathSegments q) := by
  rw [resolve, pathSegments_append, Value.resolve_append, ← resolve]

/-- What a path leads to from an object in an array is led to through the array. -/
theorem resolve_subset_of_item {path : String} {fields o : Fields Value} {items : List Value}
    (hitems : .array items ∈ resolve path fields) (ho : .object o ∈ items) (inner : String) :
    resolve inner o ⊆ resolve (path ++ "." ++ inner) fields := by
  obtain ⟨name, names, hinner⟩ := List.exists_cons_of_ne_nil (pathSegments_ne_nil inner)
  rw [resolve_append, resolve, hinner, Value.resolve_cons, Value.resolve_cons, List.flatMap_singleton]
  -- the first name is looked for in the object alone or in the array, and from there on all is the same
  refine Value.resolve_subset (fun v hv => ?_) names
  exact List.mem_flatMap.2 ⟨_, hitems, Value.children_subset_array ho name hv⟩

end Fields

end MediaCatalogue

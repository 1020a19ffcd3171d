import MediaCatalogue.Proofs.Document.Assignment
import MediaCatalogue.Proofs.Document.Resolution

/-!
# Following a path and resolving it

To follow a path leads to one value at most, since at an array there is no way on but by index. To
resolve it takes that way as well, and before any other: so where following comes to a value, this is
the first that resolving gives, whatever else the objects in the arrays on the way hold. Off arrays
there is no other way, and as long as none is passed both come to the same.

An array at the end is not passed. A path can lead to one, and that is the value.
-/

set_option autoImplicit false

namespace MediaCatalogue

namespace Value

section

variable {v w : Value} {name : String} {names : List String}

/-- A path is followed by its first step and then the rest. -/
theorem follow?_cons : v.follow? (name :: names) = (v.child? name).bind (follow? · names) := rfl

/-! ## The first way -/

/-- The step by name or index comes before the steps into the objects of an array. -/
theorem exists_children_eq_cons (h : v.child? name = some w) :
    ∃ others, v.children name = w :: others := by
  cases v with
  | object fields =>
    have hget : Fields.get? name fields = some w := h
    exact ⟨[], by rw [children, hget]; rfl⟩
  | array items =>
    have hitem : (arrayIndex? name).bind (items[·]?) = some w := h
    exact ⟨_, by rw [children, hitem]; rfl⟩
  | _ => cases h

/-- The value that is followed stays in front of all others, the ones that are there and the ones
that come up on the way. -/
theorem exists_resolve_eq_cons (h : v.follow? names = some w) (others : List Value) :
    ∃ more, resolve (v :: others) names = w :: more := by
  induction names generalizing v others with
  | nil =>
    cases h
    exact ⟨others, rfl⟩
  | cons name names ih =>
    obtain ⟨u, hu, hw⟩ := Option.bind_eq_some_iff.1 (follow?_cons.symm.trans h)
    obtain ⟨siblings, hchildren⟩ := exists_children_eq_cons hu
    rw [resolve_cons, List.flatMap_cons, hchildren, List.cons_append]
    exact ih hw _

/-! ## The only way -/

/-- No array is met on the way, but perhaps at its end. -/
def PassesNoArray (v : Value) (names : List String) : Prop :=
  ∀ front u, front <+: names → front ≠ names → v.follow? front = some u → u.array? = none

/-- A path passes no array if it does not begin at one and the rest passes none. -/
theorem passesNoArray_cons :
    v.PassesNoArray (name :: names) ↔
      v.array? = none ∧ ∀ u, v.child? name = some u → u.PassesNoArray names := by
  constructor
  · intro h
    refine ⟨h [] v List.nil_prefix (by simp) rfl, fun u hu front w hfront hproper hw => ?_⟩
    refine h (name :: front) w (List.cons_prefix_cons.2 ⟨rfl, hfront⟩) (by simpa using hproper) ?_
    rw [follow?_cons, hu]
    exact hw
  · rintro ⟨hv, hrest⟩ front w hfront hproper hw
    cases front with
    | nil =>
      cases hw
      exact hv
    | cons first front =>
      obtain ⟨rfl, hshorter⟩ := List.cons_prefix_cons.1 hfront
      obtain ⟨u, hu, hon⟩ := Option.bind_eq_some_iff.1 (follow?_cons.symm.trans hw)
      exact hrest u hu front w hshorter (fun heq => hproper (congrArg (first :: ·) heq)) hon

/-- The path without steps passes nothing. -/
theorem passesNoArray_nil : v.PassesNoArray [] := fun _ _ hfront hproper _ =>
  absurd (List.prefix_nil.1 hfront) hproper

/-- Off an array there is one step at most. -/
theorem children_eq_toList (h : v.array? = none) : v.children name = (v.child? name).toList := by
  cases v with
  | array items => cases h
  | _ => rfl

/-- Where no array is passed there is one way at most, so what is found is what is followed. -/
theorem resolve_eq_toList (h : v.PassesNoArray names) : resolve [v] names = (v.follow? names).toList := by
  induction names generalizing v with
  | nil => rfl
  | cons name names ih =>
    obtain ⟨hv, hrest⟩ := passesNoArray_cons.1 h
    rw [resolve_cons, List.flatMap_singleton, children_eq_toList hv, follow?_cons]
    cases hu : v.child? name with
    | none => exact Fields.resolve_nothing names
    | some u => exact ih (hrest u hu)

end

end Value

namespace Fields

/-- **Following a path is a case of resolving it.** The value that a path is followed to is the first of
those that it is resolved to; and if no array is met before the end, it is resolved to that value alone,
or to none if it cannot be followed. -/
theorem resolve_followed (path : String) (fields : Fields Value) :
    (∀ v, getPath? path fields = some v → ∃ others, resolve path fields = v :: others) ∧
      (Value.PassesNoArray (.object fields) (pathSegments path) →
        resolve path fields = (getPath? path fields).toList) :=
  ⟨fun _ h => Value.exists_resolve_eq_cons h [], Value.resolve_eq_toList⟩

/-- Two versions, the first of which has a field that is named like an index. -/
def numberedVersions : Fields Value :=
  [("policy", .object [("countries", .array [.string "uk"])]),
    ("versions", .array [.object [("0", .string "cut")], .object [("0", .string "uncut")]])]

/-- An index leads to its item before the name of that item's field does, and through objects alone
there is one way. -/
theorem resolve_followed_numberedVersions :
    getPath? "versions.0" numberedVersions = some (.object [("0", .string "cut")]) ∧
      (∃ others, resolve "versions.0" numberedVersions = .object [("0", .string "cut")] :: others) ∧
      Value.PassesNoArray (.object numberedVersions) (pathSegments "policy.countries") ∧
      resolve "policy.countries" numberedVersions = [.array [.string "uk"]] := by
  have hfirst : getPath? "versions.0" numberedVersions = some (.object [("0", .string "cut")]) := rfl
  have hpass : Value.PassesNoArray (.object numberedVersions) (pathSegments "policy.countries") := by
    have hsegments : pathSegments "policy.countries" = ["policy", "countries"] := by decide
    rw [hsegments]
    refine Value.passesNoArray_cons.2 ⟨rfl, fun u hu => ?_⟩
    cases hu
    exact Value.passesNoArray_cons.2 ⟨rfl, fun _ _ => Value.passesNoArray_nil⟩
  exact ⟨hfirst, (resolve_followed _ _).1 _ hfirst, hpass, (resolve_followed _ _).2 hpass⟩

-- past an array there is more than what is followed
example :
    resolve "versions.0" numberedVersions =
      [.object [("0", .string "cut")], .string "cut", .string "uncut"] := rfl

end Fields

end MediaCatalogue

import MediaCatalogue.Document.Basic
import MediaCatalogue.Proofs.Document.Assignment
import MediaCatalogue.Proofs.Document.ExtendedJson

/-!
# Setting a value in place

A path is refused when a name on it is empty, or when something that is no object lies on the way: one
comes upon it by names alone, and before the end. Arrays are such values too, for a path can be read
through an array but not set through it. The walk makes missing objects in passing, and yet a refusal
leaves nothing behind:

- below an object that was missing nothing can be in the way, so that whatever is made is kept;
- up to what is in the way only objects that were there have been passed, and they are put back as they
  were.

So a document is either as it was, or it has the value at the path, and at paths apart what it had.
-/

set_option autoImplicit false

namespace MediaCatalogue

namespace Value

/-- Where names lead through objects alone. -/
def inside? (v : Value) (names : List String) : Option Value :=
  names.foldlM (fun v name => v.object?.bind (Fields.get? name)) v

/-- From an object the first name leads to what is under it, and the others on from there. -/
theorem inside?_object_cons (fields : Fields Value) (name : String) (names : List String) :
    inside? (.object fields) (name :: names) = (Fields.get? name fields).bind (inside? · names) := rfl

end Value

namespace Fields

/-- Following a path is a way of going along it. -/
theorem isWalk_follow? : IsWalk fun v path => v.bind (Value.follow? · path) where
  object _ _ _ := rfl
  nothing _ := rfl

/-! ## What is in the way -/

/-- Names lead to what is no object before the path ends. -/
def IsBlocked (path : List String) (fields : Fields Value) : Prop :=
  ∃ front v, front ≠ [] ∧ front <+: path ∧ front ≠ path ∧
    Value.inside? (.object fields) front = some v ∧ v.object? = none

/-- Names lead on from the object at the first of them, and nowhere if that is new. -/
theorem inside?_of_objectAt? {name : String} {fields inner : Fields Value}
    (hinner : objectAt? name fields = some inner) {names : List String} (hnames : names ≠ []) :
    Value.inside? (.object fields) (name :: names) = Value.inside? (.object inner) names := by
  obtain ⟨first, names, rfl⟩ := List.exists_cons_of_ne_nil hnames
  rw [Value.inside?_object_cons]
  rcases get?_of_objectAt? hinner with hget | ⟨hget, rfl⟩ <;> rw [hget] <;> rfl

/-- Where there is no object under a name, and none can be made, something else is in the way. -/
theorem exists_get?_of_objectAt?_eq_none {name : String} {fields : Fields Value}
    (h : objectAt? name fields = none) : ∃ v, get? name fields = some v ∧ v.object? = none := by
  cases hget : get? name fields with
  | none => simp [objectAt?, hget, Value.object?] at h
  | some v => exact ⟨v, rfl, by rwa [objectAt?, hget] at h⟩

/-- After the first name something is in the way unless there is an object, which may be new, with nothing
in the way in it. -/
theorem isBlocked_cons {name : String} {path : List String} {fields : Fields Value} :
    IsBlocked (name :: path) fields ↔
      path ≠ [] ∧ ∀ inner, objectAt? name fields = some inner → IsBlocked path inner := by
  constructor
  · rintro ⟨front, v, hne, hfront, hproper, hv, hobject⟩
    obtain ⟨first, front, rfl⟩ := List.exists_cons_of_ne_nil hne
    obtain ⟨rfl, hrest⟩ := List.cons_prefix_cons.1 hfront
    have hshorter : front ≠ path := fun heq => hproper (congrArg (first :: ·) heq)
    have hpath : path ≠ [] := by
      rintro rfl
      exact hshorter (List.prefix_nil.1 hrest)
    refine ⟨hpath, fun inner hinner => ?_⟩
    have hdeeper : front ≠ [] := by
      rintro rfl
      rw [Value.inside?_object_cons] at hv
      rcases get?_of_objectAt? hinner with hget | ⟨hget, -⟩ <;> rw [hget] at hv <;> cases hv
      cases hobject
    rw [inside?_of_objectAt? hinner hdeeper] at hv
    exact ⟨front, v, hdeeper, hrest, hshorter, hv, hobject⟩
  · rintro ⟨hpath, hinside⟩
    cases hinner : objectAt? name fields with
    | none =>
      -- it is found under the first name itself
      obtain ⟨v, hget, hobject⟩ := exists_get?_of_objectAt?_eq_none hinner
      refine ⟨[name], v, by simp, List.cons_prefix_cons.2 ⟨rfl, List.nil_prefix⟩, by simpa using hpath.symm,
        ?_, hobject⟩
      rw [Value.inside?_object_cons, hget]
      rfl
    | some inner =>
      obtain ⟨front, v, hne, hfront, hproper, hv, hobject⟩ := hinside inner hinner
      refine ⟨name :: front, v, by simp, List.cons_prefix_cons.2 ⟨rfl, hfront⟩, by simpa using hproper, ?_,
        hobject⟩
      rw [inside?_of_objectAt? hinner hne, hv]

section

variable {path : List String} {fields : Fields Value}

/-- Where nothing is in the way a value can be set. -/
theorem exists_assigns_of_not_isBlocked (hpath : path ≠ []) (h : ¬ IsBlocked path fields)
    (value : Value) : ∃ after, Assigns value path fields after := by
  induction path generalizing fields with
  | nil => exact absurd rfl hpath
  | cons name path ih =>
    by_cases hrest : path = []
    · subst hrest
      exact ⟨_, .last name fields⟩
    · rw [isBlocked_cons, and_iff_right hrest] at h
      push Not at h
      obtain ⟨inner, hinner, hfree⟩ := h
      obtain ⟨inner', hset⟩ := ih hrest hfree
      exact ⟨_, .inner hinner hset⟩

/-- Nothing is in the way in what is new. -/
theorem not_isBlocked_nil : ¬ IsBlocked path [] := by
  rintro ⟨front, v, hne, -, -, hv, -⟩
  obtain ⟨first, front, rfl⟩ := List.exists_cons_of_ne_nil hne
  cases hv

/-- Where something is in the way the walk puts everything back. -/
theorem assign_of_isBlocked (hfields : (Value.object fields).WellFormed) (h : IsBlocked path fields)
    (value : Value) : assign value path fields = (fields, false) := by
  induction path generalizing fields with
  | nil =>
    obtain ⟨front, v, hne, hfront, -⟩ := h
    exact absurd (List.prefix_nil.1 hfront) hne
  | cons name path ih =>
    obtain ⟨hpath, hinside⟩ := isBlocked_cons.1 h
    rw [assign_cons hpath]
    cases hinner : objectAt? name fields with
    | none => rfl
    | some inner =>
      have hblocked := hinside inner hinner
      rcases get?_of_objectAt? hinner with hget | ⟨-, rfl⟩
      · rw [Value.WellFormed, Value.wellFormedFields_iff] at hfields
        simp only [ih (hfields.2 _ (mem_of_get? hget)) hblocked, hfields.1.insert_eq_self hget]
      · exact absurd hblocked not_isBlocked_nil

end

/-- No value can be set at the path: a name is empty, or something is in the way. -/
def IsRefused (path : String) (fields : Fields Value) : Prop :=
  "" ∈ pathSegments path ∨ IsBlocked (pathSegments path) fields

/-- A path that is refused is reported, and the fields stay as they were. -/
theorem assignPath_of_isRefused {path : String} {fields : Fields Value}
    (hfields : (Value.object fields).WellFormed) (h : IsRefused path fields) (value : Value) :
    assignPath path value fields = (fields, .error (.invalidPath path)) := by
  rw [assignPath]
  by_cases hempty : (pathSegments path).any (·.isEmpty) = true
  · simp only [hempty, if_true]
  · have hnone : "" ∉ pathSegments path := by
      intro hmem
      exact hempty (List.any_eq_true.2 ⟨"", hmem, rfl⟩)
    simp only [hempty, assign_of_isBlocked hfields (h.resolve_left hnone)]
    rfl

/-- At any other path the value is set. -/
theorem exists_assigns_of_not_isRefused {path : String} {fields : Fields Value}
    (h : ¬ IsRefused path fields) (value : Value) :
    ∃ after, assignPath path value fields = (after, .ok ()) ∧
      Assigns value (pathSegments path) fields after := by
  rw [IsRefused, not_or] at h
  have hempty : (pathSegments path).any (·.isEmpty) = false := by
    rw [List.any_eq_false]
    intro segment hsegment hnone
    exact h.1 (by simpa using String.isEmpty_iff.1 hnone ▸ hsegment)
  have hpath : pathSegments path ≠ [] := by
    simpa [pathSegments, Text.split] using Text.splitChars_ne_nil '.' path.toList
  obtain ⟨after, hset⟩ := exists_assigns_of_not_isBlocked hpath h.2 value
  refine ⟨after, ?_, hset⟩
  simp only [assignPath, hempty, assign_eq_true_iff.2 hset]
  rfl

end Fields

namespace Document

open Fields

/-- Setting a value at a path in place is refused exactly where a name is empty or something is in the way,
and then the document is as it was. Else the value is at the path, and a path apart leads to what it led
to. -/
theorem assignPath_refused_or_set (path : String) (value : Value) (d : Document)
    (hd : (Value.object d.fields).WellFormed) :
    (IsRefused path d.fields → d.assignPath path value = (d, .error (.invalidPath path))) ∧
      (¬ IsRefused path d.fields →
        ∃ after, d.assignPath path value = (after, .ok ()) ∧ after.id = d.id ∧
          getPath? path after.fields = some value ∧
          ∀ other, Apart (pathSegments path) (pathSegments other) →
            getPath? other after.fields = getPath? other d.fields) := by
  constructor
  · intro hrefused
    rw [assignPath, assignPath_of_isRefused hd hrefused]
  · intro hfree
    obtain ⟨after, hdone, hset⟩ := exists_assigns_of_not_isRefused hfree value
    refine ⟨{ d with fields := after }, ?_, rfl, ?_, fun other hother => ?_⟩
    · rw [assignPath, hdone]
    · exact hset.walk_self isWalk_follow?
    · exact hset.walk_of_apart isWalk_follow? hother

/-- An item of an array can be read at its index but not set, and nothing changes; below an object that is
missing a value can be set, and the countries stay. -/
theorem assignPath_through_array_and_past_missing :
    let d : Document :=
      { id := .generated 1
        fields := [("policy", .object [("countries", .array [.string "GB"]), ("revenue", .string "free")])] }
    (Value.object d.fields).WellFormed ∧
      getPath? "policy.countries.0" d.fields = some (.string "GB") ∧
      d.assignPath "policy.countries.0" .null = (d, .error (.invalidPath "policy.countries.0")) ∧
      ∃ after, d.assignPath "policy.platform.name" .null = (after, .ok ()) ∧ after.id = d.id ∧
        getPath? "policy.platform.name" after.fields = some .null ∧
        getPath? "policy.countries.0" after.fields = some (.string "GB") := by
  intro d
  have hd : (Value.object d.fields).WellFormed := by
    have hnames : "countries" < "revenue" := by decide
    simp only [d, Value.WellFormed, Value.WellFormedFields, Value.WellFormedItems, and_true]
    exact ⟨List.pairwise_singleton _ _, List.pairwise_pair.2 hnames⟩
  have hcountries : pathSegments "policy.countries.0" = ["policy", "countries", "0"] := by decide
  have hplatform : pathSegments "policy.platform.name" = ["policy", "platform", "name"] := by decide
  have hbefore : getPath? "policy.countries.0" d.fields = some (.string "GB") := by
    rw [getPath?, hcountries]
    rfl
  have hrefused : IsRefused "policy.countries.0" d.fields := by
    rw [IsRefused, hcountries]
    exact .inr ⟨["policy", "countries"], .array [.string "GB"], by decide, by decide, by decide, rfl, rfl⟩
  have hfree : ¬ IsRefused "policy.platform.name" d.fields := by
    have hset : (assign .null ["policy", "platform", "name"] d.fields).2 = true := rfl
    rw [IsRefused, hplatform, not_or]
    refine ⟨by decide, fun hblocked => ?_⟩
    rw [assign_of_isBlocked hd hblocked] at hset
    cases hset
  have hapart : Apart (pathSegments "policy.platform.name") (pathSegments "policy.countries.0") := by
    rw [hplatform, hcountries]
    exact ⟨by decide, by decide⟩
  obtain ⟨after, hdone, hid, hvalue, hother⟩ :=
    (assignPath_refused_or_set "policy.platform.name" .null d hd).2 hfree
  exact ⟨hd, hbefore, (assignPath_refused_or_set "policy.countries.0" .null d hd).1 hrefused, after, hdone,
    hid, hvalue, (hother _ hapart).trans hbefore⟩

end Document

end MediaCatalogue

import MediaCatalogue.Document.Basic
import MediaCatalogue.Proofs.Document.Assignment
import MediaCatalogue.Proofs.Document.ExtendedJson

/-!
# Values that are equal to themselves

Equality of values is that of their parts, and among these only a double that is no number is not equal
to itself. So where no such double is anywhere within, equality is reflexive, on values and on documents;
and setting a value at a path brings in no double but those of the value.
-/

set_option autoImplicit false

namespace MediaCatalogue

/-- A double that is a number equals itself. -/
theorem Double.equals_self {x : Double} (h : x.isNaN = false) : x.equals x = true := by
  simp [equals, compare?, h]

namespace Value

/-- Every double within the value is a number. -/
def HasNoNaN (v : Value) : Prop :=
  ∀ x, v.Contains (.float x) → x.isNaN = false

/-- A text holds no double. -/
theorem hasNoNaN_string (s : String) : (string s).HasNoNaN := by
  intro x hx
  cases hx

/-- The doubles of an array are those of its items. -/
theorem hasNoNaN_array {items : List Value} :
    (array items).HasNoNaN ↔ ∀ v ∈ items, v.HasNoNaN := by
  constructor
  · exact fun h v hv x hx => h x (.item hv hx)
  · intro h x hx
    cases hx with
    | item hv hx => exact h _ hv x hx

/-- The doubles of an object are those of its fields. -/
theorem hasNoNaN_object {fields : Fields Value} :
    (object fields).HasNoNaN ↔ ∀ f ∈ fields, f.2.HasNoNaN := by
  constructor
  · exact fun h f hf x hx => h x (.field hf hx)
  · intro h x hx
    cases hx with
    | field hf hx => exact h _ hf x hx

/-- Items that equal themselves make rows that are equal. -/
theorem equalItems_self {items : List Value} (h : ∀ v ∈ items, v.equals v = true) :
    equalItems items items = true := by
  induction items with
  | nil => rfl
  | cons v vs ih =>
    rw [List.forall_mem_cons] at h
    rw [equalItems, h.1, ih h.2, Bool.and_self]

/-- Fields whose values equal themselves make rows that are equal. -/
theorem equalFields_self {fields : Fields Value} (h : ∀ f ∈ fields, f.2.equals f.2 = true) :
    equalFields fields fields = true := by
  induction fields with
  | nil => rfl
  | cons f fs ih =>
    obtain ⟨name, v⟩ := f
    rw [List.forall_mem_cons] at h
    simp [equalFields, h.1, ih h.2]

/-- A value all doubles of which are numbers equals itself. -/
theorem equals_self {v : Value} (h : v.HasNoNaN) : v.equals v = true := by
  induction v using Value.induction with
  | float x => exact Double.equals_self (h x (.refl _))
  | array items ih =>
    rw [hasNoNaN_array] at h
    exact equalItems_self fun v hv => ih v hv (h v hv)
  | object fields ih =>
    rw [hasNoNaN_object] at h
    exact equalFields_self fun f hf => ih f hf (h f hf)
  | _ => simp [equals]

/-- Putting a field in brings in no double but those of its value. -/
theorem HasNoNaN.insert {fields : Fields Value} (hfields : (object fields).HasNoNaN) {v : Value}
    (hv : v.HasNoNaN) (name : String) : (object (Fields.insert name v fields)).HasNoNaN := by
  rw [hasNoNaN_object] at hfields ⊢
  intro f hf
  rcases Fields.mem_insert hf with rfl | hf
  · exact hv
  · exact hfields f hf

/-- Setting a value at a path brings in no double but those of the value. -/
theorem HasNoNaN.assigns {v : Value} {path : List String} {before after : Fields Value}
    (hbefore : (object before).HasNoNaN) (hv : v.HasNoNaN) (h : Fields.Assigns v path before after) :
    (object after).HasNoNaN := by
  induction h with
  | last name fields => exact hbefore.insert hv name
  | @inner name path fields inner inner' hinner _ ih =>
    refine hbefore.insert (ih ?_) name
    rcases Fields.get?_of_objectAt? hinner with hget | ⟨-, rfl⟩
    · exact hasNoNaN_object.1 hbefore _ (Fields.mem_of_get? hget)
    · exact hasNoNaN_object.2 (by simp)

end Value

namespace Document

/-- Every double within the fields is a number. -/
def HasNoNaN (d : Document) : Prop :=
  (Value.object d.fields).HasNoNaN

/-- A document all doubles of which are numbers equals itself. -/
theorem equals_self {d : Document} (h : d.HasNoNaN) : d.equals d = true := by
  have hfields : Value.equalFields d.fields d.fields = true := Value.equals_self h
  rw [equals, hfields, beq_self_eq_true, Bool.and_self]

end Document

end MediaCatalogue

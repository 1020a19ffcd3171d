import MediaCatalogue.Proofs.Record.Shape

/-!
# Records hold exact values

Equality of values is decided part by part, and only doubles can be equal without being the same:
the zeros are, and what is no number is not even equal to itself. No record holds a double. So two
records that compare as equal are the same record, which is what makes an update that changes
nothing and one that writes the same again the same update.
-/

set_option autoImplicit false

namespace MediaCatalogue

namespace Value

mutual

/-- No double is anywhere in the value. -/
def IsExact : Value → Prop
  | .null | .bool _ | .int32 _ | .int64 _ | .string _ | .dateTime _ | .regex _ _ => True
  | .float _ => False
  | .array items => AreExact items
  | .object fields => FieldsExact fields

/-- No double is in any of some items. -/
def AreExact : List Value → Prop
  | [] => True
  | v :: vs => v.IsExact ∧ AreExact vs

/-- No double is in any of some fields. -/
def FieldsExact : List (String × Value) → Prop
  | [] => True
  | f :: fs => f.2.IsExact ∧ FieldsExact fs

end

/-- Items are exact one by one. -/
theorem areExact_iff (vs : List Value) : AreExact vs ↔ ∀ v ∈ vs, v.IsExact :=
  iff_forall_of_cons trivial (fun _ _ => Iff.rfl) vs

/-- Fields are exact one by one. -/
theorem fieldsExact_iff (fs : Fields Value) : FieldsExact fs ↔ ∀ f ∈ fs, f.2.IsExact :=
  iff_forall_of_cons trivial (fun _ _ => Iff.rfl) fs

/-! ## Equality of exact values -/

mutual

/-- Where there are no doubles, values that are found equal are the same. -/
theorem eq_of_equals : ∀ {a b : Value}, a.IsExact → a.equals b = true → a = b
  | .array as, b, hexact, h => by
    cases b with
    | array bs =>
      rw [IsExact] at hexact
      rw [equals] at h
      rw [eq_of_equalItems hexact h]
    | _ => simp [equals] at h
  | .object as, b, hexact, h => by
    cases b with
    | object bs =>
      rw [IsExact] at hexact
      rw [equals] at h
      rw [eq_of_equalFields hexact h]
    | _ => simp [equals] at h
  | .float _, _, hexact, _ => by
    rw [IsExact] at hexact
    exact hexact.elim
  | .null, b, _, h | .bool _, b, _, h | .int32 _, b, _, h | .int64 _, b, _, h | .string _, b, _, h
  | .dateTime _, b, _, h | .regex _ _, b, _, h => by cases b <;> simp_all [equals]

/-- The same of rows of items. -/
theorem eq_of_equalItems : ∀ {as bs : List Value}, AreExact as → equalItems as bs = true → as = bs
  | [], bs, _, h => by
    cases bs with
    | nil => rfl
    | cons b bs => simp [equalItems] at h
  | a :: as, bs, hexact, h => by
    cases bs with
    | nil => simp [equalItems] at h
    | cons b bs =>
      rw [AreExact] at hexact
      rw [equalItems, Bool.and_eq_true] at h
      rw [eq_of_equals hexact.1 h.1, eq_of_equalItems hexact.2 h.2]

/-- The same of rows of fields. -/
theorem eq_of_equalFields : ∀ {as bs : List (String × Value)}, FieldsExact as →
    equalFields as bs = true → as = bs
  | [], bs, _, h => by
    cases bs with
    | nil => rfl
    | cons b bs => simp [equalFields] at h
  | (m, a) :: as, bs, hexact, h => by
    cases bs with
    | nil => simp [equalFields] at h
    | cons b bs =>
      obtain ⟨n, b⟩ := b
      rw [FieldsExact] at hexact
      rw [equalFields, Bool.and_eq_true, Bool.and_eq_true, beq_iff_eq] at h
      have hvalue : a = b := eq_of_equals hexact.1 h.1.2
      rw [h.1.1, hvalue, eq_of_equalFields hexact.2 h.2]

end

end Value

open Value

/-- A document with exact fields is the same as any that compares as equal to it. -/
theorem Document.eq_of_equals {a b : Document} (hexact : FieldsExact a.fields)
    (h : a.equals b = true) : a = b := by
  obtain ⟨id, fields⟩ := a
  obtain ⟨id', fields'⟩ := b
  rw [equals, Bool.and_eq_true, beq_iff_eq] at h
  have hfields : fields = fields' := eq_of_equalFields hexact h.2
  have hid : id = id' := h.1
  rw [hid, hfields]

/-! ## Records -/

/-- There are no doubles in a record. -/
theorem Value.IsPlain.isExact {D : Instant → Prop} {v : Value} (h : v.IsPlain D) : v.IsExact := by
  induction h with
  | array _ ih =>
    rw [IsExact, areExact_iff]
    exact ih
  | object _ _ _ ih =>
    rw [IsExact, fieldsExact_iff]
    exact ih
  | _ => trivial

/-- The document of a piece of content is exact. -/
theorem Content.fieldsExact_toDocument (c : Content) : FieldsExact c.toDocument.fields := by
  have hplain : (Value.object c.toDocument.fields).IsPlain fun _ => True :=
    c.isPlain_toDocument fun _ _ => trivial
  exact hplain.isExact

end MediaCatalogue

import MediaCatalogue.Proofs.Calendar.Rfc3339
import MediaCatalogue.Proofs.Query.Conditions

/-!
# Constraints written as parameters

A constraint is had back from the parameter that writes it. No name of an attribute or an operator has an
equals sign or a dash in it, so the parameter is cut where it was put together, whatever signs stand in the
values; the name of an attribute is not one of those that restrict the query, and no other attribute has
it. The values between the commas are had back one by one, each as its kind is written.
-/

set_option autoImplicit false

namespace MediaCatalogue

/-! ## Names -/

/-- The names of parameters that restrict a query by something else than a constraint. -/
def Query.reservedNames : List String :=
  ["publishers", "offset", "limit"]

/-- The name of an attribute has no sign at which a parameter is cut, is not reserved, and leads back to
the attribute. -/
theorem Attribute.name_spec :
    ∀ a ∈ all, '=' ∉ a.name.toList ∧ '-' ∉ a.name.toList ∧ a.name ∉ Query.reservedNames ∧
      ofName? a.name = some a := by
  decide +kernel

/-- The name of an operator has no equals sign and leads back to the operator. -/
theorem Operator.name_spec (o : Operator) : '=' ∉ o.name.toList ∧ ofName? o.name = some o := by
  cases o <;> decide

/-! ## Keywords -/

/-- A text is a key of a vocabulary when it is one of its keys but for the case of ASCII letters. -/
theorem Vocabulary.isSome_ofKey?_iff {α : Type} [Vocabulary α] {k : String} :
    (ofKey? (α := α) k).isSome = true ↔
      ∃ known ∈ (all (α := α)).map key, Text.equalIgnoringAsciiCase known k = true := by
  simp [ofKey?]

/-- A key of the attribute may be written in any case. -/
theorem Query.isKeyword_of_mem_keys {a : Attribute} {k : String}
    (h : ∃ key ∈ a.keys, Text.equalIgnoringAsciiCase key k = true) : isKeyword a k = true := by
  rw [isKeyword]
  split
  · next hfield =>
    rw [Attribute.keys, if_neg (by rw [hfield]; decide)] at h
    exact Vocabulary.isSome_ofKey?_iff.2 h
  split
  · next hfield =>
    rw [Attribute.keys, if_pos hfield] at h
    exact Vocabulary.isSome_ofKey?_iff.2 h
  · rfl

/-- The keys of an attribute are not empty, and in lower case they have neither commas nor white space.
-/
theorem Attribute.keys_spec (a : Attribute) :
    ∀ key ∈ a.keys, key ≠ "" ∧ ∀ c ∈ key.toList.map Char.toLower, Text.IsPlain c := by
  rw [keys]
  split <;> decide

/-! ## Values -/

/-- A text of an instant of the years 0 to 9999 in universal time. -/
def Rfc3339.IsTextOf (t : Instant) (text : String) : Prop :=
  (0 ≤ (dateOf t).year ∧ (dateOf t).year ≤ 9999) ∧
    ∃ zone ∈ zones, text = String.ofList (zoneless t ++ zone)

/-- The text that an instant of these years is written as is one of its texts. -/
theorem Rfc3339.isTextOf_toText {t : Instant} (hyear : 0 ≤ (dateOf t).year ∧ (dateOf t).year ≤ 9999) :
    IsTextOf t t.toText := by
  refine ⟨hyear, ['Z'], mem_zones.2 (.inl rfl), ?_⟩
  rw [Instant.toText, zoneless, render, List.dropLast_concat]

/-- The texts that write values of an attribute in order. Numbers are written in decimals and truth values
in words; strings stand for themselves if they can stand between commas, as keywords do in any case. -/
def Operands.IsWrittenAs (a : Attribute) : Operands → List String → Prop
  | .integers ns, texts => texts = ns.map toString
  | .strings ss, texts => texts = ss ∧ ∀ s ∈ ss, Text.IsListed s
  | .booleans bs, texts => texts = bs.map toString
  | .keywords ks, texts =>
    texts = ks ∧ ∀ k ∈ ks, ∃ key ∈ a.keys, Text.equalIgnoringAsciiCase key k = true
  | .dateTimes ts, texts => List.Forall₂ Rfc3339.IsTextOf ts texts

variable {a : Attribute} {v : Operands} {texts : List String}

namespace Operands.IsWrittenAs

/-- As many texts are written as there are values. -/
theorem length_eq (h : v.IsWrittenAs a texts) : texts.length = v.count := by
  cases v with
  | integers ns => exact h ▸ List.length_map ..
  | strings ss => exact h.1 ▸ rfl
  | booleans bs => exact h ▸ List.length_map ..
  | keywords ks => exact h.1 ▸ rfl
  | dateTimes ts => exact h.length_eq.symm

/-- What is written for values can stand between commas. -/
theorem isListed (h : v.IsWrittenAs a texts) : ∀ t ∈ texts, Text.IsListed t := by
  cases v with
  | integers ns =>
    subst h
    exact List.forall_mem_map.2 fun n _ => Text.isListed_toString n
  | strings ss =>
    obtain ⟨rfl, hlisted⟩ := h
    exact hlisted
  | booleans bs =>
    subst h
    refine List.forall_mem_map.2 fun b _ => Text.isListed_of_forall ?_ ?_ <;> cases b <;> decide
  | keywords ks =>
    obtain ⟨rfl, hknown⟩ := h
    intro k hk
    obtain ⟨key, hmem, heq⟩ := hknown k hk
    obtain ⟨hne, hword⟩ := a.keys_spec key hmem
    exact Text.isListed_of_equalIgnoringAsciiCase hne hword heq
  | dateTimes ts =>
    change List.Forall₂ Rfc3339.IsTextOf ts texts at h
    induction h with
    | nil => simp
    | @cons t text ts texts hhead htail ih =>
      obtain ⟨-, zone, hzone, rfl⟩ := hhead
      exact List.forall_mem_cons.2 ⟨Rfc3339.isListed_zoneless t hzone, ih⟩

end Operands.IsWrittenAs

namespace Query

/-- Texts are read one by one. -/
theorem readEach_eq_ok_iff {α : Type} {read : String → Except ValueTextError α} {vs : List α} :
    readEach a read texts = .ok vs ↔ List.Forall₂ (fun v t => read t = .ok v) vs texts := by
  constructor
  · intro h
    induction texts generalizing vs with
    | nil =>
      cases h
      exact .nil
    | cons t texts ih =>
      rw [readEach] at h
      split at h
      · cases h
      next v hv =>
      split at h
      · cases h
      next rest hrest =>
      cases h
      exact .cons hv (ih hrest)
  · intro h
    induction h with
    | nil => rfl
    | cons hhead htail ih => simp only [readEach, hhead, ih]

/-- Texts that are made from values by a function which the reader undoes. -/
theorem readEach_map {α : Type} {read : String → Except ValueTextError α} {write : α → String}
    (h : ∀ v, read (write v) = .ok v) (vs : List α) : readEach a read (vs.map write) = .ok vs :=
  readEach_eq_ok_iff.2 (List.forall₂_map_right_iff.2 (List.forall₂_same.2 fun v _ => h v))

/-- Values of the kind of the attribute are had back from what is written for them. -/
theorem readOperands_of_isWrittenAs (hkind : v.kind = a.valueKind) (h : v.IsWrittenAs a texts) :
    readOperands a texts = .ok v := by
  rw [readOperands, ← hkind]
  cases v with
  | integers ns =>
    subst h
    have hread : readEach a (fun t => (Text.readInt64 t).mapError .integer) (ns.map toString) = .ok ns :=
      readEach_map (fun n => by rw [Text.readInt64_toString, Except.mapError]) ns
    simp only [Operands.kind, hread, Except.map]
  | strings ss =>
    obtain ⟨rfl, -⟩ := h
    rfl
  | booleans bs =>
    subst h
    have hread : readEach a readBool (bs.map toString) = .ok bs :=
      readEach_map (fun b => by cases b <;> rfl) bs
    simp only [Operands.kind, hread, Except.map]
  | keywords ks =>
    obtain ⟨rfl, hknown⟩ := h
    have hread : readEach a (fun t => if isKeyword a t then .ok t else .error .keyword) texts = .ok texts :=
      readEach_eq_ok_iff.2 (List.forall₂_same.2 fun k hk => if_pos (isKeyword_of_mem_keys (hknown k hk)))
    simp only [Operands.kind, hread, Except.map]
  | dateTimes ts =>
    have hread : readEach a (fun t => (Rfc3339.parse t).mapError .dateTime) texts = .ok ts := by
      refine readEach_eq_ok_iff.2 (List.Forall₂.imp ?_ h)
      rintro t text ⟨hyear, zone, hzone, rfl⟩
      rw [Rfc3339.parse_zoneless hyear hzone, Except.mapError]
    simp only [Operands.kind, hread, Except.map]

/-! ## Parameters -/

/-- The name of an attribute with that of an operator after a dash is read as these two. -/
theorem readName_of_operator (ha : a ∈ Attribute.all) (o : Operator) :
    readName (a.name ++ "-" ++ o.name) = .ok (a.name, o) := by
  obtain ⟨-, hdash, -, -⟩ := Attribute.name_spec a ha
  have hsplit : Text.splitOnce? '-' (a.name ++ "-" ++ o.name) = some (a.name, o.name) :=
    Text.splitOnce?_append hdash o.name
  simp only [readName, hsplit, (Operator.name_spec o).2]

/-- The name of an attribute alone asks for equality. -/
theorem readName_of_attribute (ha : a ∈ Attribute.all) : readName a.name = .ok (a.name, .equals) := by
  obtain ⟨-, hdash, -, -⟩ := Attribute.name_spec a ha
  simp only [readName, Text.splitOnce?_of_not_mem hdash]

/-- A parameter whose name is read as an attribute and an operator holds their constraint. -/
theorem readConstraint_of_isWrittenAs (ha : a ∈ Attribute.all) {o : Operator} {name : String}
    (hname : readName name = .ok (a.name, o)) (hkind : v.kind = a.valueKind) (hcount : 0 < v.count)
    (h : v.IsWrittenAs a texts) :
    readConstraint name (String.intercalate "," texts) = Constraint.of a o v := by
  obtain ⟨-, -, -, hfind⟩ := Attribute.name_spec a ha
  have hne : texts ≠ [] := List.ne_nil_of_length_pos (h.length_eq ▸ hcount)
  have htokens : tokens (String.intercalate "," texts) = texts := Text.tokens_intercalate hne h.isListed
  simp only [readConstraint, hname, hfind, htokens, readOperands_of_isWrittenAs hkind h, bind, Except.bind,
    List.isEmpty_iff, hne, if_false]

/-- A single parameter is cut at the equals sign that follows its name. -/
theorem ofParameters_singleton {name : String} (hname : '=' ∉ name.toList)
    (hreserved : name ∉ reservedNames) (value : String) :
    ofParameters [name ++ "=" ++ value] = (readConstraint name value).map fun c => { constraints := [c] } := by
  have hsplit : Text.splitOnce? '=' (name ++ "=" ++ value) = some (name, value) :=
    Text.splitOnce?_append hname value
  simp only [reservedNames, List.mem_cons, List.not_mem_nil, or_false, not_or] at hreserved
  obtain ⟨hpublishers, hoffset, hlimit⟩ := hreserved
  simp only [ofParameters, List.mapM_cons, List.mapM_nil, splitParameter, hsplit, bind, Except.bind, pure,
    Except.pure, List.foldlM_cons, List.foldlM_nil, addParameter, hpublishers, hoffset, hlimit, if_false]
  cases readConstraint name value <;> rfl

/-- A constraint of any attribute, with any operator and at least one value of the kind of the attribute, is
had back from the parameter that writes it. The query has this constraint, which is a hard one, and is not
restricted otherwise. The operator need not be written if it is `equals`. -/
theorem ofParameters_written_constraint (ha : a ∈ Attribute.all) (o : Operator) (hkind : v.kind = a.valueKind)
    (hcount : 0 < v.count) (h : v.IsWrittenAs a texts) :
    ∃ c, Constraint.of a o v = .ok c ∧
      (c.subject = a ∧ c.operator = o ∧ c.operands = v ∧ c.soft = false) ∧
      ofParameters [a.name ++ "-" ++ o.name ++ "=" ++ String.intercalate "," texts] =
        .ok { constraints := [c], publishers := none, selection := {}, matchesNothing := false } ∧
      (o = .equals → ofParameters [a.name ++ "=" ++ String.intercalate "," texts] =
        .ok { constraints := [c], publishers := none, selection := {}, matchesNothing := false }) := by
  obtain ⟨hequals, hdash, hreserved, -⟩ := Attribute.name_spec a ha
  have hof := Constraint.of_eq_ok o hkind
  refine ⟨_, hof, ⟨rfl, rfl, rfl, rfl⟩, ?_, ?_⟩
  · have hname : '=' ∉ (a.name ++ "-" ++ o.name).toList := by
      simp [hequals, (Operator.name_spec o).1]
    -- the reserved names have no dash
    have hfree : a.name ++ "-" ++ o.name ∉ reservedNames := by
      have hplain : ∀ name ∈ reservedNames, '-' ∉ name.toList := by decide
      exact fun hmem => hplain _ hmem (by simp)
    rw [ofParameters_singleton hname hfree,
      readConstraint_of_isWrittenAs ha (readName_of_operator ha o) hkind hcount h, hof]
    rfl
  · rintro rfl
    rw [ofParameters_singleton hequals hreserved,
      readConstraint_of_isWrittenAs ha (readName_of_attribute ha) hkind hcount h, hof]
    rfl

/-- The signs at which a parameter is cut may stand in an address and in a date. -/
theorem ofParameters_uri_and_transmissionTime :
    (∃ c, Constraint.of ⟨"location.uri", "uri", .location, .string, false⟩ .equals
        (.strings ["http://a-z.tv/?id=b-1", "b=2"]) = .ok c ∧
      ofParameters ["location.uri=http://a-z.tv/?id=b-1,b=2"] = .ok { constraints := [c] }) ∧
    ∃ c, Constraint.of ⟨"broadcast.transmissionTime", "transmissionTime", .broadcast, .dateTime, false⟩ .after
        (.dateTimes [⟨1267473600, 0, by decide⟩]) = .ok c ∧
      ofParameters ["broadcast.transmissionTime-after=2010-03-01T20:00:00Z"] = .ok { constraints := [c] } := by
  constructor
  · have hwritten : Operands.IsWrittenAs ⟨"location.uri", "uri", .location, .string, false⟩
        (.strings ["http://a-z.tv/?id=b-1", "b=2"]) ["http://a-z.tv/?id=b-1", "b=2"] := by
      refine ⟨rfl, List.forall_mem_cons.2 ⟨⟨by decide, by decide, by decide⟩, ?_⟩⟩
      exact List.forall_mem_singleton.2 ⟨by decide, by decide, by decide⟩
    obtain ⟨c, hof, -, -, hplain⟩ :=
      ofParameters_written_constraint (by decide) .equals rfl (by decide) hwritten
    exact ⟨c, hof, hplain rfl⟩
  · have hwritten : Operands.IsWrittenAs
        ⟨"broadcast.transmissionTime", "transmissionTime", .broadcast, .dateTime, false⟩
        (.dateTimes [⟨1267473600, 0, by decide⟩]) ["2010-03-01T20:00:00Z"] := by
      have htext : Instant.toText ⟨1267473600, 0, by decide⟩ = "2010-03-01T20:00:00Z" := by decide +kernel
      exact htext ▸ .cons (Rfc3339.isTextOf_toText (by decide)) .nil
    obtain ⟨c, hof, -, hquery, -⟩ :=
      ofParameters_written_constraint (by decide) .after rfl (by decide) hwritten
    exact ⟨c, hof, hquery⟩

end Query
end MediaCatalogue

import MediaCatalogue.Proofs.Query.Bounds
import MediaCatalogue.Proofs.Query.StoredValues
import MediaCatalogue.Proofs.Text.Lowering

/-!
# Conditions and the constraints they come from

The condition of a constraint is a test of stored values; the constraint is a question to an entity.
For every kind of value and every operator this file compares the two on a single value, and from
that on an entity whose fields are stored: what satisfies a constraint passes its condition, and the
other way round what passes satisfies it, when the values of the constraint are of the kind of its
attribute and its names are read as keys in the same way.

Beginnings are left out: a pattern passes over the case of letters in another way.
-/

set_option autoImplicit false

namespace MediaCatalogue

/-- No field of an attribute is named like an operator. -/
theorem Attribute.isOperator_fieldName : ∀ a ∈ Attribute.all, Filter.isOperator a.fieldName = false := by
  decide

/-- The keys of an attribute are ASCII text in lower case. -/
theorem Attribute.isLowerAscii_of_mem_keys {a : Attribute} {key : String}
    (h : key ∈ a.keys) : Text.IsLowerAscii key := by
  have hmedia : ∀ key ∈ (Vocabulary.all : List MediaType).map Vocabulary.key, Text.IsLowerAscii key := by
    decide
  have htransport : ∀ key ∈ (Vocabulary.all : List TransportType).map Vocabulary.key,
      Text.IsLowerAscii key := by
    decide
  unfold Attribute.keys at h
  split at h
  · exact hmedia key h
  · exact htransport key h

namespace Constraint

/-! ## Conditions as tests -/

/-- The test that the condition of a constraint puts to a stored value. -/
def admits (c : Constraint) : Value → Bool :=
  match c.operands, c.operator with
  | .integers ns, .equals => fun v => (ns.map Value.int64).any v.isCandidate
  | .integers ns, .lessThan =>
    fun v => (greatest? ns).any fun n => (v.compare? (.int64 n)).any Comparison.less.accepts
  | .integers ns, .greaterThan =>
    fun v => (least? ns).any fun n => (v.compare? (.int64 n)).any Comparison.greater.accepts
  | .strings ss, .equals => fun v => (ss.map Value.string).any v.isCandidate
  | .strings ss, .beginning =>
    fun v => (ss.head?.bind fun s => Pattern.ofText? ("^" ++ Pattern.escape s) true).any fun p =>
      v.string?.any p.isFoundIn
  | .booleans bs, .equals => fun v => bs.head?.any fun b => v.equals (.bool b)
  | .keywords ks, .equals => fun v => (ks.map fun k => Value.string (Text.lower k)).any v.isCandidate
  | .dateTimes ts, .before =>
    fun v => (greatest? ts).any fun t => (v.compare? (.dateTime t)).any Comparison.less.accepts
  | .dateTimes ts, .after =>
    fun v => (least? ts).any fun t => (v.compare? (.dateTime t)).any Comparison.greater.accepts
  | _, _ => fun _ => false

/-- The forms that a condition can have, each with the constraints that have it and with the test
that it puts to a stored value. -/
theorem condition_cases {c : Constraint} {v : Value} (h : c.condition = .ok (some v)) :
    (∃ candidates, v = operatorValue "$in" (.array candidates) ∧ c.operator = .equals ∧
        (∀ w ∈ candidates, w.array? = none) ∧ c.admits = fun u => candidates.any u.isCandidate) ∨
      (∃ bound, v = operatorValue "$lt" bound ∧
        (c.operator = .lessThan ∧ c.operands.kind = .integer ∨
          c.operator = .before ∧ c.operands.kind = .dateTime) ∧
        c.admits = fun u => (u.compare? bound).any Comparison.less.accepts) ∨
      (∃ bound, v = operatorValue "$gt" bound ∧
        (c.operator = .greaterThan ∧ c.operands.kind = .integer ∨
          c.operator = .after ∧ c.operands.kind = .dateTime) ∧
        c.admits = fun u => (u.compare? bound).any Comparison.greater.accepts) ∨
      (∃ b, v = .bool b ∧ c.operator = .equals ∧ c.operands.kind = .boolean ∧
        c.admits = fun u => u.equals (.bool b)) ∨
      (∃ s, v = .regex ("^" ++ Pattern.escape s) true ∧ c.operator = .beginning ∧
        (∃ ss, c.operands = .strings (s :: ss)) ∧
        c.admits = fun u =>
          (Pattern.ofText? ("^" ++ Pattern.escape s) true).any fun p => u.string?.any p.isFoundIn) := by
  have hin : ∀ {values : List Value}, c.oneOfCondition values = .ok (some v) →
      v = operatorValue "$in" (.array values) := by
    intro values hv
    unfold oneOfCondition conditionOf at hv
    cases values <;> simp_all
  have hof : ∀ {α : Type} {make : α → Value} {a? : Option α}, c.conditionOf make a? = .ok (some v) →
      ∃ a, a? = some a ∧ v = make a := by
    intro α make a? hv
    unfold conditionOf at hv
    cases a? <;> simp_all
  unfold condition at h
  split at h
  case h_1 ns hns hop =>
    exact Or.inl ⟨_, hin h, hop, by simp [Value.array?], by simp [admits, hns, hop]⟩
  case h_2 ns hns hop =>
    obtain ⟨n, hn, hv⟩ := hof h
    have hkind : c.operands.kind = .integer := by rw [hns]; rfl
    exact Or.inr (Or.inl ⟨_, hv, Or.inl ⟨hop, hkind⟩, by simp [admits, hns, hop, hn]⟩)
  case h_3 ns hns hop =>
    obtain ⟨n, hn, hv⟩ := hof h
    have hkind : c.operands.kind = .integer := by rw [hns]; rfl
    exact Or.inr (Or.inr (Or.inl ⟨_, hv, Or.inl ⟨hop, hkind⟩, by simp [admits, hns, hop, hn]⟩))
  case h_4 ss hss hop =>
    exact Or.inl ⟨_, hin h, hop, by simp [Value.array?], by simp [admits, hss, hop]⟩
  case h_5 ss hss hop =>
    obtain ⟨s, hs, hv⟩ := hof h
    have hcons : ∃ rest, c.operands = .strings (s :: rest) := by
      obtain ⟨rest, hrest⟩ := List.head?_eq_some_iff.1 hs
      exact ⟨rest, by rw [hss, hrest]⟩
    exact Or.inr (Or.inr (Or.inr (Or.inr ⟨s, hv, hop, hcons, by simp [admits, hss, hop, hs]⟩)))
  case h_6 bs hbs hop =>
    split at h
    · simp at h
    · obtain ⟨b, hb, hv⟩ := hof h
      have hkind : c.operands.kind = .boolean := by rw [hbs]; rfl
      exact Or.inr (Or.inr (Or.inr (Or.inl ⟨b, hv, hop, hkind, by simp [admits, hbs, hop, hb]⟩)))
  case h_7 ks hks hop =>
    exact Or.inl ⟨_, hin h, hop, by simp [Value.array?], by simp [admits, hks, hop]⟩
  case h_8 ts hts hop =>
    obtain ⟨t, ht, hv⟩ := hof h
    have hkind : c.operands.kind = .dateTime := by rw [hts]; rfl
    exact Or.inr (Or.inl ⟨_, hv, Or.inr ⟨hop, hkind⟩, by simp [admits, hts, hop, ht]⟩)
  case h_9 ts hts hop =>
    obtain ⟨t, ht, hv⟩ := hof h
    have hkind : c.operands.kind = .dateTime := by rw [hts]; rfl
    exact Or.inr (Or.inr (Or.inl ⟨_, hv, Or.inr ⟨hop, hkind⟩, by simp [admits, hts, hop, ht]⟩))
  case h_10 => simp at h

/-- The text that a beginning asks for can be looked for: its pattern is not too large. -/
def HasPattern (c : Constraint) : Prop :=
  ∀ first rest, c.operator = .beginning → c.operands = .strings (first :: rest) →
    (Pattern.ofText? ("^" ++ Pattern.escape first) true).isSome = true

/-- Only beginnings have a pattern that may turn out too large. -/
theorem hasPattern_of_ne_beginning {c : Constraint} (h : c.operator ≠ .beginning) : c.HasPattern :=
  fun _ _ hop => absurd hop h

section

variable {c : Constraint} {condition : Value} (hc : c.condition = .ok (some condition))

include hc

/-- Fields pass the condition of a constraint at a path when what the path leads to passes its test.
-/
theorem entryAccepts_condition {name : String} (hname : Filter.isOperator name = false)
    (x : Fields Value) :
    Filter.EntryAccepts name condition x ↔ anyLeaf c.admits (Fields.resolve name x) = true := by
  rcases condition_cases hc with ⟨vs, rfl, -, -, h⟩ | ⟨b, rfl, -, h⟩ | ⟨b, rfl, -, h⟩ |
    ⟨b, rfl, -, -, h⟩ | ⟨s, rfl, -, -, h⟩
  · rw [operatorValue, Filter.entryAccepts_of_ofEntry (Filter.ofEntry_in hname vs), h]
    rfl
  · rw [operatorValue, Filter.entryAccepts_of_ofEntry (Filter.ofEntry_less hname b), h]
    rfl
  · rw [operatorValue, Filter.entryAccepts_of_ofEntry (Filter.ofEntry_greater hname b), h]
    rfl
  · rw [Filter.entryAccepts_bool hname, h]
  · rw [Filter.entryAccepts_regex hname, h]
    cases Pattern.ofText? ("^" ++ Pattern.escape s) true with
    | none =>
      have hnone : ¬ anyLeaf (fun _ => false) (Fields.resolve name x) = true := by
        simp [Filter.anyLeaf_iff]
      simpa using hnone
    | some p => simp

/-- Only the pattern of a beginning may turn out to be none. -/
theorem entryReadable_condition {name : String} (hname : Filter.isOperator name = false)
    (hpattern : c.HasPattern) : Filter.EntryReadable name condition := by
  rcases condition_cases hc with ⟨vs, rfl, -⟩ | ⟨b, rfl, -⟩ | ⟨b, rfl, -⟩ | ⟨b, rfl, -⟩ |
    ⟨s, rfl, hop, ⟨rest, hoperands⟩, -⟩
  · exact ⟨_, Filter.ofEntry_in hname vs⟩
  · exact ⟨_, Filter.ofEntry_less hname b⟩
  · exact ⟨_, Filter.ofEntry_greater hname b⟩
  · exact ⟨_, Filter.ofEntry_bool hname b⟩
  · exact (Filter.entryReadable_regex hname).2 (hpattern s rest hop hoperands)

/-- No condition of a constraint is passed by an array as a whole. -/
theorem admits_array (items : List Value) : c.admits (.array items) = false := by
  have hcompare : ∀ bound, (Value.array items).compare? bound = none := by
    intro bound
    cases bound <;> rfl
  rcases condition_cases hc with ⟨vs, -, -, hvs, h⟩ | ⟨b, -, -, h⟩ | ⟨b, -, -, h⟩ | ⟨b, -, -, -, h⟩ |
    ⟨s, -, -, -, h⟩
  · rw [h]
    refine List.any_eq_false.2 fun w hw => ?_
    have hw := hvs w hw
    cases w <;> simp_all [Value.isCandidate, Value.equals, Value.array?]
  · simp [h, hcompare]
  · simp [h, hcompare]
  · simp [h, Value.equals]
  · simp [h, Value.string?]

end

/-! ## Single values -/

/-- A whole number is one of the values asked for only if it is equal to one. -/
theorem isCandidate_int64 (m n : Int64) : (Value.int64 m).isCandidate (.int64 n) = (m == n) := by
  have hcandidate : (Value.int64 m).isCandidate (.int64 n) =
      (m == n || some (compare m.toInt n.toInt) == some .eq) := rfl
  rw [hcandidate, Bool.eq_iff_iff]
  simp [Int64.toInt_inj]

/-- A text is one of the values asked for only if it is equal to one. -/
theorem isCandidate_string (s t : String) : (Value.string s).isCandidate (.string t) = (s == t) := by
  have hcandidate : (Value.string s).isCandidate (.string t) =
      (s == t || some (compare s t) == some .eq) := rfl
  rw [hcandidate, Bool.eq_iff_iff]
  simp

/-- The comparison that `$lt` makes on whole numbers. -/
theorem less_int64 (m n : Int64) :
    ((Value.int64 m).compare? (.int64 n)).any Comparison.less.accepts = (compare m n == .lt) := rfl

/-- The comparison that `$gt` makes on whole numbers. -/
theorem greater_int64 (m n : Int64) :
    ((Value.int64 m).compare? (.int64 n)).any Comparison.greater.accepts = (compare m n == .gt) := rfl

/-- The comparison that `$lt` makes on instants. -/
theorem less_dateTime (s t : Instant) :
    ((Value.dateTime s).compare? (.dateTime t)).any Comparison.less.accepts = (compare s t == .lt) := rfl

/-- The comparison that `$gt` makes on instants. -/
theorem greater_dateTime (s t : Instant) :
    ((Value.dateTime s).compare? (.dateTime t)).any Comparison.greater.accepts =
      (compare s t == .gt) := rfl

/-- Truth values that do not hold of everything are all the same. -/
theorem contains_eq_of_not_alwaysTrue {bs : List Bool} {b : Bool} (hhead : bs.head? = some b)
    (h : ¬ (bs.contains true && bs.contains false) = true) (x : Bool) : bs.contains x = (x == b) := by
  have hb : bs.contains b = true := by simpa using List.mem_of_head? hhead
  cases b <;> cases x <;> simp_all

/-- On a value of the kind of a constraint without names, the checker and the condition agree. -/
theorem admits_toValue {c : Constraint} {condition : Value} (hc : c.condition = .ok (some condition))
    (hop : c.operator ≠ .beginning) (hkeyword : c.operands.kind ≠ .keyword) {s : Scalar}
    (hkind : s.kind = c.operands.kind) : c.admits s.toValue = c.accepts s := by
  unfold Constraint.condition at hc
  split at hc
  case h_1 ns hns ho =>
    cases s <;> simp only [hns, Scalar.kind, Operands.kind, reduceCtorEq] at hkind
    simp only [admits, accepts, hns, ho, Scalar.toValue, List.any_map, Function.comp_def,
      isCandidate_int64, List.contains_eq_any_beq]
  case h_2 ns hns ho =>
    cases s <;> simp only [hns, Scalar.kind, Operands.kind, reduceCtorEq] at hkind
    simp only [admits, accepts, hns, ho, Scalar.toValue, less_int64]
    rw [← any_lt_greatest?]
    simp only [compare_int64_beq_lt]
  case h_3 ns hns ho =>
    cases s <;> simp only [hns, Scalar.kind, Operands.kind, reduceCtorEq] at hkind
    simp only [admits, accepts, hns, ho, Scalar.toValue, greater_int64]
    rw [← any_gt_least?]
    simp only [compare_int64_beq_gt]
  case h_4 ss hss ho =>
    cases s <;> simp only [hss, Scalar.kind, Operands.kind, reduceCtorEq] at hkind
    simp only [admits, accepts, hss, ho, Scalar.toValue, List.any_map, Function.comp_def,
      isCandidate_string, List.contains_eq_any_beq]
  case h_5 ss hss ho => exact absurd ho hop
  case h_6 bs hbs ho =>
    split at hc
    · simp at hc
    · rename_i halways
      cases s <;> simp only [hbs, Scalar.kind, Operands.kind, reduceCtorEq] at hkind
      simp only [isAlwaysTrue, hbs, ho] at halways
      cases hhead : bs.head? with
      | none => simp [conditionOf, hhead] at hc
      | some b =>
        simp only [admits, accepts, hbs, ho, Scalar.toValue, hhead, Option.any_some, Value.equals,
          contains_eq_of_not_alwaysTrue hhead halways]
  case h_7 ks hks ho => exact absurd (by rw [hks]; rfl) hkeyword
  case h_8 ts hts ho =>
    cases s <;> simp only [hts, Scalar.kind, Operands.kind, reduceCtorEq] at hkind
    simp only [admits, accepts, hts, ho, Scalar.toValue, less_dateTime]
    rw [← any_lt_greatest?]
    simp only [compare_instant_beq_lt]
  case h_9 ts hts ho =>
    cases s <;> simp only [hts, Scalar.kind, Operands.kind, reduceCtorEq] at hkind
    simp only [admits, accepts, hts, ho, Scalar.toValue, greater_dateTime]
    rw [← any_gt_least?]
    simp only [compare_instant_beq_gt]
  case h_10 => simp at hc

/-- On a key the checker asks for a name that is equal to it but for the case of ASCII letters, the
condition for one that has it as its lower-case form. -/
theorem keyword_iff {c : Constraint} {ks : List String} (hks : c.operands = .keywords ks)
    {condition : Value} (hc : c.condition = .ok (some condition)) (key : String) :
    (c.accepts (.keyword key) = true ↔
        ∃ name ∈ ks, Text.equalIgnoringAsciiCase name key = true) ∧
      (c.admits (Scalar.keyword key).toValue = true ↔ ∃ name ∈ ks, Text.lower name = key) := by
  have hop : c.operator = .equals := by
    unfold Constraint.condition at hc
    cases ho : c.operator <;> simp_all
  constructor
  · simp [accepts, hks, hop]
  · simp only [admits, hks, hop, Scalar.toValue, List.any_map, List.any_eq_true, Function.comp_apply,
      isCandidate_string, beq_iff_eq]
    exact exists_congr fun name => and_congr_right fun _ => eq_comm

/-- The checker accepts only values of the kind that the constraint has values of. -/
theorem kind_of_accepts {c : Constraint} {condition : Value} (hc : c.condition = .ok (some condition))
    {s : Scalar} (h : c.accepts s = true) : s.kind = c.operands.kind := by
  have hop : c.operator ≠ .search := by
    intro ho
    unfold Constraint.condition at hc
    split at hc <;> simp_all
  unfold accepts at h
  split at h <;> simp_all [Scalar.kind, Operands.kind]

/-- A name that has a key as its lower-case form is that key but for the case of ASCII letters. -/
def ReadsNamesAsKeys (c : Constraint) : Prop :=
  ∀ ks, c.operands = .keywords ks →
    ∀ name ∈ ks, ∀ key ∈ c.subject.keys, Text.lower name = key → Text.IsAscii name

/-- The values of a constraint are of the kind of its attribute. -/
def IsTyped (c : Constraint) : Prop :=
  c.operands.kind = c.subject.valueKind

instance (c : Constraint) : Decidable c.IsTyped :=
  inferInstanceAs (Decidable (_ = _))

/-- Values of the kind of the attribute make a hard constraint as they are. -/
theorem of_eq_ok {a : Attribute} {v : Operands} (o : Operator) (h : v.kind = a.valueKind) :
    of a o v = .ok { subject := a, operator := o, operands := v } := by
  have hcoerce : v.coerce a.valueKind = v := by
    cases v with
    | strings ss => rw [Operands.coerce, if_neg (by rw [← h]; simp [Operands.kind])]
    | _ => rfl
  simp only [of, hcoerce, if_pos h]

/-- The typed constraints are those that the constructor makes, hard or softened afterwards. -/
theorem isTyped_iff (c : Constraint) :
    c.IsTyped ↔ ∃ v, Constraint.of c.subject c.operator v = .ok { c with soft := false } := by
  unfold IsTyped
  constructor
  · intro h
    exact ⟨c.operands, of_eq_ok c.operator h⟩
  · rintro ⟨v, hv⟩
    unfold Constraint.of at hv
    dsimp only at hv
    split at hv
    · rename_i hkind
      have hoperands := congrArg Constraint.operands (Except.ok.inj hv)
      rw [← hoperands]
      exact hkind
    · simp at hv

section

variable {c : Constraint} {condition : Value} (hc : c.condition = .ok (some condition))
  (hop : c.operator ≠ .beginning) {s : Scalar} (hs : c.subject.Fits s)

include hc hop hs

/-- What the checker accepts passes the condition. -/
theorem admits_of_accepts (h : c.accepts s = true) : c.admits s.toValue = true := by
  have hkind := kind_of_accepts hc h
  by_cases hkeyword : c.operands.kind = .keyword
  · rw [hkeyword] at hkind
    cases s <;> simp only [Scalar.kind, reduceCtorEq] at hkind
    rename_i key
    cases hks : c.operands <;> simp only [hks, Operands.kind, reduceCtorEq] at hkeyword
    rename_i ks
    obtain ⟨name, hname, heq⟩ := (keyword_iff hks hc key).1.1 h
    have hkey := Attribute.isLowerAscii_of_mem_keys (hs.2 key rfl)
    have hascii := Text.ascii_of_equalIgnoringAsciiCase hkey heq
    exact (keyword_iff hks hc key).2.2 ⟨name, hname, (Text.lower_eq_iff_of_ascii hascii hkey).2 heq⟩
  · rw [admits_toValue hc hop hkeyword hkind]
    exact h

/-- What passes the condition is accepted by the checker, if the constraint is typed and its names
are read as keys in the same way. -/
theorem accepts_of_admits (htyped : c.IsTyped) (hnames : c.ReadsNamesAsKeys)
    (h : c.admits s.toValue = true) : c.accepts s = true := by
  have hkind : s.kind = c.operands.kind := hs.1.trans htyped.symm
  by_cases hkeyword : c.operands.kind = .keyword
  · rw [hkeyword] at hkind
    cases s <;> simp only [Scalar.kind, reduceCtorEq] at hkind
    rename_i key
    cases hks : c.operands <;> simp only [hks, Operands.kind, reduceCtorEq] at hkeyword
    rename_i ks
    obtain ⟨name, hname, heq⟩ := (keyword_iff hks hc key).2.1 h
    have hmem := hs.2 key rfl
    have hascii := hnames ks hks name hname key hmem heq
    have hkey := Attribute.isLowerAscii_of_mem_keys hmem
    exact (keyword_iff hks hc key).1.2 ⟨name, hname, (Text.lower_eq_iff_of_ascii hascii hkey).1 heq⟩
  · rw [← admits_toValue hc hop hkeyword hkind]
    exact h

end

/-! ## Entities -/

/-- A constraint holds of an entity when it accepts one of the single values of its attribute. -/
theorem holdsOf_iff {α : Type} [Queryable α] (e : α) (c : Constraint) :
    c.holdsOf e = true ↔
      ∃ v ∈ Queryable.attribute? c.subject e, ∃ s ∈ v.scalars, c.accepts s = true := by
  unfold holdsOf
  cases Queryable.attribute? c.subject e <;> simp

/-- A test that holds of no array as a whole looks at the single values of what is stored. -/
theorem anyLeaf_stored_iff {test : Value → Bool} (harray : ∀ items, test (.array items) = false)
    (v : Option AttributeValue) :
    anyLeaf test (v.bind AttributeValue.stored?).toList = true ↔
      ∃ w ∈ v, ∃ s ∈ w.scalars, test s.toValue = true := by
  rw [Filter.anyLeaf_iff]
  rcases v with _ | ⟨s⟩ | ⟨_ | ⟨s, ss⟩⟩
  · simp
  · have hitems : s.toValue.array? = none := by cases s <;> rfl
    simp [AttributeValue.stored?, AttributeValue.scalars, hitems]
  · simp [AttributeValue.stored?, AttributeValue.scalars]
  · simp [AttributeValue.stored?, AttributeValue.scalars, harray, Value.array?]

section

variable {α : Type} [Queryable α] {path : EntityPath} {fields : Fields Value} {e : α}
  (hstores : Stores path fields e) (hkinds : AnswersInKind path e)
  {c : Constraint} (hknown : c.subject ∈ Attribute.all)
  (hpath : EntityPath.ofKind? c.subject.target = some path)
  {condition : Value} (hc : c.condition = .ok (some condition))

include hstores hknown hpath hc

/-- Where an entity is stored, it passes the condition of a constraint when one of the single values of
the attribute passes the test. -/
theorem passes_iff :
    Filter.EntryAccepts c.subject.fieldName condition fields ↔
      ∃ v ∈ Queryable.attribute? c.subject e, ∃ s ∈ v.scalars, c.admits s.toValue = true := by
  rw [entryAccepts_condition hc (Attribute.isOperator_fieldName _ hknown), hstores _ hknown hpath]
  exact anyLeaf_stored_iff (admits_array hc) _

include hkinds

/-- An entity that satisfies a constraint passes its condition where it is stored. The constraint need
not be typed for this. -/
theorem passes_of_holdsOf (hop : c.operator ≠ .beginning) (h : c.holdsOf e = true) :
    Filter.EntryAccepts c.subject.fieldName condition fields := by
  obtain ⟨v, hv, s, hs, haccepts⟩ := (holdsOf_iff e c).1 h
  have hfits := hkinds _ hknown hpath v hv s hs
  exact (passes_iff hstores hknown hpath hc).2 ⟨v, hv, s, hs, admits_of_accepts hc hop hfits haccepts⟩

/-- An entity that passes the condition of a constraint, where it is stored, satisfies the
constraint. -/
theorem holdsOf_of_passes (hop : c.operator ≠ .beginning) (htyped : c.IsTyped)
    (hnames : c.ReadsNamesAsKeys)
    (h : Filter.EntryAccepts c.subject.fieldName condition fields) : c.holdsOf e = true := by
  obtain ⟨v, hv, s, hs, hadmits⟩ := (passes_iff hstores hknown hpath hc).1 h
  have hfits := hkinds _ hknown hpath v hv s hs
  exact (holdsOf_iff e c).2 ⟨v, hv, s, hs, accepts_of_admits hc hop hfits htyped hnames hadmits⟩

end

end Constraint
end MediaCatalogue

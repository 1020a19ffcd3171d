import MediaCatalogue.Proofs.Store.Conjunction
import MediaCatalogue.Proofs.Document.Fields

/-!
# What single conditions mean

A condition on a path is a test of what the path leads to, and of the items of arrays among it. For
each form of condition that a compiled query or a restriction to publishers uses, this file says
which test that is, and when the condition can be read. An element condition asks for one object
among the items that passes a filter document as a whole, and `$and` for all of its clauses.
-/

set_option autoImplicit false

namespace MediaCatalogue

/-- The objects that are items of the arrays among some values. -/
def Value.objectsIn (values : List Value) : List (Fields Value) :=
  values.flatMap fun v => (v.array?.getD []).filterMap Value.object?

namespace Filter

/-- A test of leaves holds when it holds of one of the values or of an item of one that is an array. -/
theorem anyLeaf_iff (test : Value → Bool) (values : List Value) :
    anyLeaf test values = true ↔
      ∃ v ∈ values, test v = true ∨ ∃ item ∈ v.array?.getD [], test item = true := by
  simp only [anyLeaf, List.any_eq_true, Bool.or_eq_true]
  refine exists_congr fun v => and_congr_right fun _ => or_congr_right ?_
  cases v <;> simp [Value.array?]

/-- A test of elements holds when it holds of one of the objects within the arrays. -/
theorem anyElement_iff (test : Fields Value → Bool) (values : List Value) :
    anyElement test values = true ↔ ∃ o ∈ Value.objectsIn values, test o = true := by
  simp only [anyElement, Value.objectsIn, List.any_eq_true, List.mem_flatMap]
  constructor
  · rintro ⟨v, hv, htest⟩
    cases v with
    | array items =>
      obtain ⟨item, hitem, ht⟩ := List.any_eq_true.1 htest
      cases item with
      | object o => exact ⟨o, ⟨_, hv, List.mem_filterMap.2 ⟨_, hitem, rfl⟩⟩, ht⟩
      | _ => simp at ht
    | _ => simp at htest
  · rintro ⟨o, ⟨v, hv, ho⟩, ht⟩
    obtain ⟨item, hitem, hobject⟩ := List.mem_filterMap.1 ho
    cases v with
    | array items =>
      refine ⟨_, hv, List.any_eq_true.2 ⟨item, hitem, ?_⟩⟩
      cases item with
      | object fields =>
        cases hobject
        exact ht
      | _ => simp [Value.object?] at hobject
    | _ => simp [Value.array?] at hitem

/-! ## Plain values and patterns -/

/-- What is neither an object of operators nor a pattern is a value to equal. -/
def isPlain : Value → Bool
  | .object fields => !areOperators fields
  | .regex _ _ => false
  | _ => true

section

variable {name : String} (hname : isOperator name = false)

include hname

/-- A plain value on a field is read as equality with it. -/
theorem ofEntry_plain {value : Value} (h : isPlain value = true) :
    ofEntry name value = .ok (.equal name value) := by
  have hclauses := not_clauses hname
  rw [not_or] at hclauses
  cases value with
  | object fields =>
    have hfields : areOperators fields = false := by simpa [isPlain] using h
    simp [ofEntry, hclauses, hname, hfields]
  | regex => simp [isPlain] at h
  | _ => simp [ofEntry, hclauses, hname]

/-- A truth value on a field is read as equality with it. -/
theorem ofEntry_bool (b : Bool) : ofEntry name (.bool b) = .ok (.equal name (.bool b)) :=
  ofEntry_plain hname rfl

/-- A pattern on a field is read as a search for it. -/
theorem ofEntry_regex (pattern : String) (ignoreCase : Bool) :
    ofEntry name (.regex pattern ignoreCase) = ofPattern name pattern ignoreCase := by
  simp [ofEntry, not_clauses hname, hname]

/-- Fields pass a truth value on a field when a leaf there is equal to it. -/
theorem entryAccepts_bool (b : Bool) (x : Fields Value) :
    EntryAccepts name (.bool b) x ↔
      anyLeaf (·.equals (.bool b)) (Fields.resolve name x) = true := by
  rw [entryAccepts_of_ofEntry (ofEntry_bool hname b)]
  simp [isMatch, isEqualAt, Value.isNull]

/-- Fields pass a pattern on a field when it can be compiled and is found in a leaf there. -/
theorem entryAccepts_regex (pattern : String) (ignoreCase : Bool) (x : Fields Value) :
    EntryAccepts name (.regex pattern ignoreCase) x ↔
      ∃ p, Pattern.ofText? pattern ignoreCase = some p ∧
        anyLeaf (fun v => v.string?.any p.isFoundIn) (Fields.resolve name x) = true := by
  rw [EntryAccepts, ofEntry_regex hname, ofPattern]
  cases Pattern.ofText? pattern ignoreCase with
  | none => simp
  | some p => simp [isMatch]

/-- A pattern on a field can be read when it can be compiled. -/
theorem entryReadable_regex {pattern : String} {ignoreCase : Bool} :
    EntryReadable name (.regex pattern ignoreCase) ↔
      (Pattern.ofText? pattern ignoreCase).isSome = true := by
  rw [EntryReadable, ofEntry_regex hname, ofPattern]
  cases Pattern.ofText? pattern ignoreCase <;> simp

/-! ## Operators -/

/-- The operator `$eq` is read as equality, also with an object. -/
theorem ofEntry_equal (value : Value) :
    ofEntry name (.object [("$eq", value)]) = .ok (.equal name value) := by
  rw [ofEntry_single_eq hname (by decide)]
  simp [ofNamedOperator, ofOperator?]

/-- The operator `$in` is read as a choice of candidates. -/
theorem ofEntry_in (candidates : List Value) :
    ofEntry name (.object [("$in", .array candidates)]) = .ok (.oneOf name candidates) := by
  rw [ofEntry_single_eq hname (by decide)]
  simp [ofNamedOperator, ofOperator?]

/-- The operator `$lt` is read as a comparison with a bound above. -/
theorem ofEntry_less (bound : Value) :
    ofEntry name (.object [("$lt", bound)]) = .ok (.compared .less name bound) := by
  rw [ofEntry_single_eq hname (by decide)]
  simp [ofNamedOperator, ofOperator?]

/-- The operator `$gt` is read as a comparison with a bound below. -/
theorem ofEntry_greater (bound : Value) :
    ofEntry name (.object [("$gt", bound)]) = .ok (.compared .greater name bound) := by
  rw [ofEntry_single_eq hname (by decide)]
  simp [ofNamedOperator, ofOperator?]

/-- The operator `$elemMatch` is read as the filter of its document, put to elements. -/
theorem ofEntry_element_eq_ok_iff (document : Fields Value) (f : Filter) :
    ofEntry name (.object [("$elemMatch", .object document)]) = .ok f ↔
      ∃ g, ofFields document = .ok g ∧ .element name g = f := by
  rw [ofEntry_single_eq hname (by decide), ofNamedOperator, if_pos rfl, ofElement, ← ofFields]
  cases ofFields document <;> simp [Except.map]

/-- An element condition can be read when its document can. -/
theorem entryReadable_element (document : Fields Value) :
    EntryReadable name (.object [("$elemMatch", .object document)]) ↔ Readable document := by
  simp only [EntryReadable, ofEntry_element_eq_ok_iff hname]
  constructor
  · rintro ⟨_, g, hg, -⟩
    exact ⟨g, hg⟩
  · rintro ⟨g, hg⟩
    exact ⟨_, g, hg, rfl⟩

/-- An element condition asks for one object that passes a whole filter document. -/
theorem entryAccepts_element (document x : Fields Value) :
    EntryAccepts name (.object [("$elemMatch", .object document)]) x ↔
      ∃ o ∈ Value.objectsIn (Fields.resolve name x), Accepts document o := by
  simp only [EntryAccepts, ofEntry_element_eq_ok_iff hname]
  constructor
  · rintro ⟨_, ⟨g, hg, rfl⟩, hx⟩
    rw [isMatch, anyElement_iff] at hx
    obtain ⟨o, ho, hmatch⟩ := hx
    exact ⟨o, ho, g, hg, hmatch⟩
  · rintro ⟨o, ho, g, hg, hmatch⟩
    refine ⟨_, ⟨g, hg, rfl⟩, ?_⟩
    rw [isMatch, anyElement_iff]
    exact ⟨o, ho, hmatch⟩

end

/-! ## Clauses -/

/-- Clauses are read one after another. -/
theorem ofClauses_eq_ok_iff (operator : String) (clauses : List Value) (fs : List Filter) :
    ofClauses operator clauses = .ok fs ↔ EachReads (ofClause operator) clauses fs := by
  unfold EachReads
  induction clauses generalizing fs with
  | nil => cases fs <;> simp [ofClauses]
  | cons clause clauses ih =>
    rw [ofClauses]
    cases h : ofClause operator clause with
    | error e => cases fs <;> simp [h]
    | ok f =>
      cases hs : ofClauses operator clauses with
      | error e => cases fs <;> simp [← ih, hs]
      | ok rest => cases fs <;> simp [← ih, hs, h]

/-- The operator `$and` is read as the filters of all its clauses. -/
theorem ofEntry_and_eq_ok_iff (clauses : List Value) (f : Filter) :
    ofEntry "$and" (.array clauses) = .ok f ↔
      ∃ fs, EachReads (ofClause "$and") clauses fs ∧ .all fs = f := by
  rw [ofEntry, if_pos rfl]
  cases h : ofClauses "$and" clauses with
  | error e => simp [Except.map, ← ofClauses_eq_ok_iff, h]
  | ok fs => simp [Except.map, ← ofClauses_eq_ok_iff, h]

/-- A clause is a filter document and read as such. -/
theorem ofClause_eq_ok_iff (operator : String) (clause : Value) (f : Filter) :
    ofClause operator clause = .ok f ↔ ∃ document, clause = .object document ∧ ofFields document = .ok f := by
  cases clause <;> simp [ofClause, ofFields]

/-- A conjunction of clauses can be read when each clause is a document that can be read. -/
theorem entryReadable_and (clauses : List Value) :
    EntryReadable "$and" (.array clauses) ↔
      ∀ clause ∈ clauses, ∃ document, clause = .object document ∧ Readable document := by
  have heach : (∀ clause ∈ clauses, ∃ document, clause = .object document ∧ Readable document) ↔
      ∀ clause ∈ clauses, ∃ f, ofClause "$and" clause = .ok f := by
    refine forall₂_congr fun clause _ => ?_
    simp only [ofClause_eq_ok_iff, Readable]
    constructor
    · rintro ⟨document, hc, f, hf⟩
      exact ⟨f, document, hc, hf⟩
    · rintro ⟨f, document, hc, hf⟩
      exact ⟨document, hc, f, hf⟩
  rw [heach, EntryReadable]
  simp only [ofEntry_and_eq_ok_iff]
  exact EachReads.exists_combined_iff (ofClause "$and") .all clauses

/-- Fields pass a conjunction of clauses when they pass each of them. -/
theorem entryAccepts_and (clauses : List Value) (x : Fields Value) :
    EntryAccepts "$and" (.array clauses) x ↔
      ∀ clause ∈ clauses, ∃ document, clause = .object document ∧ Accepts document x := by
  have heach : (∀ clause ∈ clauses, ∃ document, clause = .object document ∧ Accepts document x) ↔
      ∀ clause ∈ clauses, ∃ f, ofClause "$and" clause = .ok f ∧ f.isMatch x = true := by
    refine forall₂_congr fun clause _ => ?_
    simp only [ofClause_eq_ok_iff, Accepts]
    constructor
    · rintro ⟨document, hc, f, hf, hx⟩
      exact ⟨f, ⟨document, hc, hf⟩, hx⟩
    · rintro ⟨f, ⟨document, hc, hf⟩, hx⟩
      exact ⟨document, hc, f, hf, hx⟩
  have hall : ∀ fs, (all fs).isMatch x = true ↔ ∀ f ∈ fs, f.isMatch x = true := by
    intro fs
    rw [isMatch, allMatch_iff]
  rw [heach, EntryAccepts]
  simp only [ofEntry_and_eq_ok_iff]
  exact EachReads.exists_combined_passes_iff (ofClause "$and") hall clauses

end Filter
end MediaCatalogue

import MediaCatalogue.Proofs.Query.Compilation

/-!
# Which constraints compile

There are two things for which the compiler can refuse a constraint that has values: an attribute of an
entity that no document holds, and an operator that values of the kind are not compared by. The constraints
are looked at in their order, and of each the attribute before the operator, so that the first that cannot
be asked for is reported.
-/

set_option autoImplicit false

namespace MediaCatalogue

/-! ## What is supported -/

/-- The operators that values of a kind are compared by in the store. -/
def ValueKind.operators : ValueKind → List Operator
  | .integer => [.equals, .lessThan, .greaterThan]
  | .string => [.equals, .beginning]
  | .boolean => [.equals]
  | .keyword => [.equals]
  | .dateTime => [.before, .after]

namespace Constraint

/-- The store can be asked for a constraint: documents have a place for its attribute, and its values can be
compared by its operator. -/
structure IsSupported (c : Constraint) : Prop where
  placed : (EntityPath.ofKind? c.subject.target).isSome = true
  compared : c.operator ∈ c.operands.kind.operators

/-- Why the store cannot be asked for a constraint. That documents have no place for its attribute is said
before anything is said of its operator. -/
inductive IsRefusedFor (c : Constraint) : QueryError → Prop
  | unplaced (hplaced : EntityPath.ofKind? c.subject.target = none) :
    c.IsRefusedFor (.unsupportedEntity c.subject)
  | uncompared (hplaced : (EntityPath.ofKind? c.subject.target).isSome = true)
      (hcompared : c.operator ∉ c.operands.kind.operators) :
    c.IsRefusedFor (.unsupportedOperator c.subject c.operator c.operands.kind)

/-- Each constraint is supported, or refused for some reason. -/
theorem isSupported_or_isRefusedFor (c : Constraint) : c.IsSupported ∨ ∃ e, c.IsRefusedFor e := by
  cases hplaced : EntityPath.ofKind? c.subject.target with
  | none => exact .inr ⟨_, .unplaced hplaced⟩
  | some path =>
    have hplaced : (EntityPath.ofKind? c.subject.target).isSome = true := Option.isSome_of_eq_some hplaced
    by_cases hcompared : c.operator ∈ c.operands.kind.operators
    · exact .inl ⟨hplaced, hcompared⟩
    · exact .inr ⟨_, .uncompared hplaced hcompared⟩

/-- A constraint that is refused is not supported. -/
theorem IsRefusedFor.not_isSupported {c : Constraint} {e : QueryError} (h : c.IsRefusedFor e) :
    ¬ c.IsSupported := by
  intro hsupported
  cases h with
  | unplaced hplaced => simpa [hplaced] using hsupported.placed
  | uncompared _ hcompared => exact hcompared hsupported.compared

/-! ## Conditions -/

section

variable {c : Constraint}

/-- A value that is there makes a condition. -/
theorem exists_conditionOf_eq_ok {α : Type} {make : α → Value} {a? : Option α} (h : a? ≠ none) :
    ∃ found, c.conditionOf make a? = .ok found := by
  obtain ⟨a, rfl⟩ := Option.ne_none_iff_exists'.1 h
  exact ⟨some (make a), rfl⟩

/-- Values that are there make a condition to be one of them. -/
theorem exists_oneOfCondition_eq_ok {vs : List Value} (h : vs ≠ []) :
    ∃ found, c.oneOfCondition vs = .ok found :=
  exists_conditionOf_eq_ok (by simpa using h)

/-- Values that are there have a condition with each operator that they are compared by. -/
theorem exists_condition_eq_ok (hcount : 0 < c.operands.count)
    (hop : c.operator ∈ c.operands.kind.operators) : ∃ found, c.condition = .ok found := by
  cases hv : c.operands with
  | integers ns =>
    rw [hv] at hcount hop
    have hne : ns ≠ [] := List.ne_nil_of_length_pos hcount
    rcases List.mem_cons.1 hop with hop | hop
    · simp only [condition, hv, hop]
      exact exists_oneOfCondition_eq_ok (by simpa using hne)
    · rcases List.mem_pair.1 hop with hop | hop
      · simp only [condition, hv, hop]
        exact exists_conditionOf_eq_ok (mt (greatest?_eq_none_iff ns).1 hne)
      · simp only [condition, hv, hop]
        exact exists_conditionOf_eq_ok (mt (least?_eq_none_iff ns).1 hne)
  | strings ss =>
    rw [hv] at hcount hop
    have hne : ss ≠ [] := List.ne_nil_of_length_pos hcount
    rcases List.mem_pair.1 hop with hop | hop
    · simp only [condition, hv, hop]
      exact exists_oneOfCondition_eq_ok (by simpa using hne)
    · simp only [condition, hv, hop]
      exact exists_conditionOf_eq_ok (mt List.head?_eq_none_iff.1 hne)
  | booleans bs =>
    rw [hv] at hcount hop
    have hne : bs ≠ [] := List.ne_nil_of_length_pos hcount
    simp only [condition, hv, List.mem_singleton.1 hop]
    -- both truth values together restrict nothing
    split
    · exact ⟨none, rfl⟩
    · exact exists_conditionOf_eq_ok (mt List.head?_eq_none_iff.1 hne)
  | keywords ks =>
    rw [hv] at hcount hop
    have hne : ks ≠ [] := List.ne_nil_of_length_pos hcount
    simp only [condition, hv, List.mem_singleton.1 hop]
    exact exists_oneOfCondition_eq_ok (by simpa using hne)
  | dateTimes ts =>
    rw [hv] at hcount hop
    have hne : ts ≠ [] := List.ne_nil_of_length_pos hcount
    rcases List.mem_pair.1 hop with hop | hop
    · simp only [condition, hv, hop]
      exact exists_conditionOf_eq_ok (mt (greatest?_eq_none_iff ts).1 hne)
    · simp only [condition, hv, hop]
      exact exists_conditionOf_eq_ok (mt (least?_eq_none_iff ts).1 hne)

/-- There is no other operator that values have a condition with. -/
theorem condition_eq_error (hop : c.operator ∉ c.operands.kind.operators) :
    c.condition = .error (.unsupportedOperator c.subject c.operator c.operands.kind) := by
  unfold condition
  split
  case h_10 => rfl
  all_goals simp_all [Operands.kind, ValueKind.operators]

/-- A supported constraint with values has a path and is compared. -/
theorem IsSupported.placed_and_compared (h : c.IsSupported) (hcount : 0 < c.operands.count) :
    ∃ path found, c.subject.path = .ok path ∧ c.condition = .ok found := by
  obtain ⟨path, hpath⟩ := Option.isSome_iff_exists.1 h.placed
  obtain ⟨found, hfound⟩ := exists_condition_eq_ok hcount h.compared
  exact ⟨path, found, (c.subject.path_eq_ok_iff path).2 hpath, hfound⟩

/-- A refused constraint fails where the reason says: at its path, or after that at its condition. -/
theorem IsRefusedFor.path_or_condition {e : QueryError} (h : c.IsRefusedFor e) :
    c.subject.path = .error e ∨ ∃ path, c.subject.path = .ok path ∧ c.condition = .error e := by
  cases h with
  | unplaced hplaced => exact .inl (by rw [Attribute.path, hplaced])
  | uncompared hplaced hcompared =>
    obtain ⟨path, hpath⟩ := Option.isSome_iff_exists.1 hplaced
    exact .inr ⟨path, (c.subject.path_eq_ok_iff path).2 hpath, condition_eq_error hcompared⟩

end

end Constraint

namespace Query

/-- Of constraints with values, all have their conditions, or the first that the store cannot be asked for
is reported. -/
theorem placedConditions_cases {cs : List Constraint} (hcount : ∀ c ∈ cs, 0 < c.operands.count) :
    ((∃ ds, placedConditions cs = .ok ds) ∧ ∀ c ∈ cs, c.IsSupported) ∨
      ∃ before c after e, cs = before ++ c :: after ∧ (∀ b ∈ before, b.IsSupported) ∧
        c.IsRefusedFor e ∧ placedConditions cs = .error e := by
  induction cs with
  | nil => exact .inl ⟨⟨[], rfl⟩, List.forall_mem_nil _⟩
  | cons c cs ih =>
    obtain ⟨hc, hrest⟩ := List.forall_mem_cons.1 hcount
    rcases c.isSupported_or_isRefusedFor with hsupported | ⟨e, hrefused⟩
    · obtain ⟨path, found, hpath, hfound⟩ := hsupported.placed_and_compared hc
      rcases ih hrest with ⟨⟨ds, hds⟩, hall⟩ | ⟨before, c', after, e, rfl, hbefore, hrefused, herror⟩
      · refine .inl ⟨?_, List.forall_mem_cons.2 ⟨hsupported, hall⟩⟩
        cases found with
        | none => exact ⟨ds, by simp only [placedConditions, hpath, hfound, hds]⟩
        | some condition => exact ⟨⟨path, c.subject.fieldName, condition⟩ :: ds, by
            simp only [placedConditions, hpath, hfound, hds]⟩
      · have hbefore := List.forall_mem_cons.2 ⟨hsupported, hbefore⟩
        refine .inr ⟨c :: before, c', after, e, rfl, hbefore, hrefused, ?_⟩
        simp only [placedConditions, hpath, hfound, herror]
    · -- the others are not looked at
      refine .inr ⟨[], c, cs, e, rfl, List.forall_mem_nil _, hrefused, ?_⟩
      rcases hrefused.path_or_condition with hpath | ⟨path, hpath, hcondition⟩
      · simp only [placedConditions, hpath]
      · simp only [placedConditions, hpath, hcondition]

/-- A query whose constraints all have values compiles, or it is refused for the first of them that the store
cannot be asked for. -/
theorem compile_cases {q : Query} (hnothing : q.matchesNothing = false)
    (hcount : ∀ c ∈ q.constraints, 0 < c.operands.count) :
    ((∃ document, q.compile = .ok document) ∧ ∀ c ∈ q.constraints, c.IsSupported) ∨
      ∃ before c after e, q.constraints = before ++ c :: after ∧ (∀ b ∈ before, b.IsSupported) ∧
        c.IsRefusedFor e ∧ q.compile = .error e := by
  rcases placedConditions_cases hcount with
    ⟨⟨ds, hds⟩, hall⟩ | ⟨before, c, after, e, hcs, hbefore, hc, herror⟩
  · exact .inl ⟨⟨_, compile_eq hnothing hds⟩, hall⟩
  · refine .inr ⟨before, c, after, e, hcs, hbefore, hc, ?_⟩
    simp only [compile, hnothing, herror, Bool.false_eq_true, if_false]

end Query
end MediaCatalogue

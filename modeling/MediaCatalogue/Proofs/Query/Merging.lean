import MediaCatalogue.Query.Compile
import MediaCatalogue.Proofs.Store.Conditions

/-!
# Conditions that meet on a field

When conditions are put on one field, operators join those that are there and any other condition
takes the place of what is there. Two things follow. What passes every condition that was put in
passes what came of them: nothing is added. And what passes what came of them passes each condition
that no later one has taken the place of: a condition stays as long as only conditions of other
operators follow on its field.

Both are proved for any property of conditions that holds of an object of operators when it holds of
each operator, so that they apply to being read as well as to being passed.
-/

set_option autoImplicit false

namespace MediaCatalogue

/-! ## Conditions and filter documents of the forms in use -/

/-- A condition is an object of operators that mean the same whatever stands beside them, or no
object. -/
def Value.IsPlainCondition (v : Value) : Prop :=
  ∀ operators, v = .object operators →
    operators ≠ [] ∧ ∀ o ∈ operators, Filter.IsPlainOperator o.1

/-- A filter document has plain conditions on fields. -/
structure IsPlainFilter (filter : Fields Value) : Prop where
  sorted : Fields.Sorted filter
  fields : ∀ e ∈ filter, Filter.isOperator e.1 = false
  conditions : ∀ e ∈ filter, e.2.IsPlainCondition

/-- A property of conditions on fields that an object of operators has when each operator has it. -/
def IsConjunctive (P : String → Value → Prop) : Prop :=
  ∀ field operators, Filter.isOperator field = false → (Value.object operators).IsPlainCondition →
    (P field (.object operators) ↔ ∀ o ∈ operators, P field (operatorValue o.1 o.2))

/-- An object of operators can be read when each operator can. -/
theorem isConjunctive_entryReadable : IsConjunctive Filter.EntryReadable :=
  fun _ operators hname hplain =>
    Filter.entryReadable_object_iff hname (hplain operators rfl).2 (hplain operators rfl).1

/-- Fields pass an object of operators when they pass each operator. -/
theorem isConjunctive_entryAccepts (x : Fields Value) :
    IsConjunctive fun name value => Filter.EntryAccepts name value x :=
  fun _ operators hname hplain =>
    Filter.entryAccepts_object_iff hname (hplain operators rfl).2 (hplain operators rfl).1 x

/-- The filter document without conditions is plain. -/
theorem isPlainFilter_nil : IsPlainFilter [] :=
  ⟨Fields.sorted_nil, by simp, by simp⟩

/-- A single plain operator is a plain condition. -/
theorem isPlainCondition_operatorValue {op : String} (h : Filter.IsPlainOperator op) (operand : Value) :
    (operatorValue op operand).IsPlainCondition := by
  rintro operators hop
  cases hop
  simpa using h

/-- What a plain filter document has on a field is a plain condition. -/
theorem IsPlainFilter.get? {filter : Fields Value} (h : IsPlainFilter filter) {field : String}
    {v : Value} (hv : Fields.get? field filter = some v) : v.IsPlainCondition :=
  h.conditions _ (Fields.mem_of_get? hv)

/-- A plain condition on a field takes the place of another and leaves the document plain. -/
theorem IsPlainFilter.insert {filter : Fields Value} (h : IsPlainFilter filter) {field : String}
    (hfield : Filter.isOperator field = false) {v : Value} (hv : v.IsPlainCondition) :
    IsPlainFilter (Fields.insert field v filter) where
  sorted := h.sorted.insert field v
  fields e he := by
    rcases Fields.mem_insert he with rfl | he
    · exact hfield
    · exact h.fields e he
  conditions e he := by
    rcases Fields.mem_insert he with rfl | he
    · exact hv
    · exact h.conditions e he

/-- Clauses are no conditions on a field, so a plain filter document has none. -/
theorem IsPlainFilter.get?_eq_none {filter : Fields Value} (h : IsPlainFilter filter) {name : String}
    (hname : Filter.isOperator name = true) : Fields.get? name filter = none := by
  cases hget : Fields.get? name filter with
  | none => rfl
  | some v =>
    have hfield : Filter.isOperator name = false := h.fields _ (Fields.mem_of_get? hget)
    rw [hname] at hfield
    cases hfield

/-! ## One step -/

/-- Putting fields in does not empty a record. -/
theorem insertAll_ne_nil {added fs : Fields Value} (h : fs ≠ []) : Fields.insertAll added fs ≠ [] := by
  induction added generalizing fs with
  | nil => exact h
  | cons a added ih =>
    rw [Fields.insertAll_cons]
    refine ih fun hnil => ?_
    have hget := Fields.get?_insert_self a.1 a.2 fs
    simp [hnil] at hget

/-- Operators put in with others are plain if all of them are. -/
theorem isPlainCondition_insertAll {added present : Fields Value}
    (hadded : (Value.object added).IsPlainCondition) (hpresent : (Value.object present).IsPlainCondition) :
    (Value.object (Fields.insertAll added present)).IsPlainCondition := by
  rintro operators hop
  cases hop
  refine ⟨insertAll_ne_nil (hpresent present rfl).1, fun o ho => ?_⟩
  rcases Fields.mem_insertAll ho with ho | ho
  · exact (hadded added rfl).2 o ho
  · exact (hpresent present rfl).2 o ho

/-- What putting a condition on a field does: operators join operators, or the condition is all
there is. -/
theorem mergeCondition_cases (field : String) (condition : Value) (filter : Fields Value) :
    (∃ present added, Fields.get? field filter = some (.object present) ∧ condition = .object added ∧
        mergeCondition field condition filter =
          Fields.insert field (.object (Fields.insertAll added present)) filter) ∨
      mergeCondition field condition filter = Fields.insert field condition filter ∧
        ∀ present added, Fields.get? field filter = some (.object present) → condition ≠ .object added := by
  unfold mergeCondition
  split
  · rename_i present added hget
    exact Or.inl ⟨present, added, hget, rfl, rfl⟩
  · rename_i hnot
    exact Or.inr ⟨rfl, fun present added hget hc => hnot present added hget hc⟩

/-- Putting a condition on a field keeps the entries of a filter document in order. -/
theorem sorted_mergeCondition {filter : Fields Value} (h : Fields.Sorted filter) (field : String)
    (condition : Value) : Fields.Sorted (mergeCondition field condition filter) := by
  rcases mergeCondition_cases field condition filter with ⟨_, _, -, -, hmerge⟩ | ⟨hmerge, -⟩
  · rw [hmerge]
    exact h.insert field _
  · rw [hmerge]
    exact h.insert field _

section

variable {filter : Fields Value} (hfilter : IsPlainFilter filter) {field : String}
  (hfield : Filter.isOperator field = false) {condition : Value}
  (hcondition : condition.IsPlainCondition)

include hfilter hfield hcondition

/-- Putting a plain condition on a field leaves a filter document plain. -/
theorem IsPlainFilter.merge : IsPlainFilter (mergeCondition field condition filter) := by
  rcases mergeCondition_cases field condition filter with ⟨present, added, hget, rfl, h⟩ | ⟨h, -⟩
  · rw [h]
    exact hfilter.insert hfield (isPlainCondition_insertAll hcondition (hfilter.get? hget))
  · rw [h]
    exact hfilter.insert hfield hcondition

/-- What all that is there and the condition that is put in have, what comes of them has. -/
theorem forall_mergeCondition {P : String → Value → Prop} (hP : IsConjunctive P)
    (hpresent : ∀ e ∈ filter, P e.1 e.2) (hadded : P field condition) :
    ∀ e ∈ mergeCondition field condition filter, P e.1 e.2 := by
  rcases mergeCondition_cases field condition filter with ⟨present, added, hget, rfl, h⟩ | ⟨h, -⟩
  · rw [h]
    intro e he
    rcases Fields.mem_insert he with rfl | he
    · have hplain := hfilter.get? hget
      -- each operator comes from one of the two conditions
      refine (hP field _ hfield (isPlainCondition_insertAll hcondition hplain)).2 fun o ho => ?_
      rcases Fields.mem_insertAll ho with ho | ho
      · exact (hP field added hfield hcondition).1 hadded o ho
      · exact (hP field present hfield hplain).1 (hpresent _ (Fields.mem_of_get? hget)) o ho
    · exact hpresent e he
  · rw [h]
    intro e he
    rcases Fields.mem_insert he with rfl | he
    · exact hadded
    · exact hpresent e he

end

/-! ## What stays -/

/-- Two conditions can stand side by side on one field: they are of different operators. -/
def Value.StandsBeside (v w : Value) : Prop :=
  ∃ m a n b, v = operatorValue m a ∧ w = operatorValue n b ∧ m ≠ n

/-- A filter document has a condition on a field: it is the condition there, or one of the operators
there. -/
def Carries (filter : Fields Value) (field : String) (condition : Value) : Prop :=
  Fields.get? field filter = some condition ∨
    ∃ operators op operand, Fields.get? field filter = some (.object operators) ∧
      condition = operatorValue op operand ∧ Fields.get? op operators = some operand

/-- What all conditions of a filter document have, a condition that it has on a field has. -/
theorem Carries.property {filter : Fields Value} (hfilter : IsPlainFilter filter) {field : String}
    {condition : Value} (h : Carries filter field condition) {P : String → Value → Prop}
    (hP : IsConjunctive P) (hall : ∀ e ∈ filter, P e.1 e.2) : P field condition := by
  rcases h with hget | ⟨operators, op, operand, hget, rfl, hop⟩
  · exact hall _ (Fields.mem_of_get? hget)
  · have hmem := Fields.mem_of_get? hget
    have hobject := (hP field operators (hfilter.fields _ hmem) (hfilter.get? hget)).1 (hall _ hmem)
    exact hobject _ (Fields.mem_of_get? hop)

/-- What is put in is there: a single operator, or a condition without operators. -/
theorem carries_merge (filter : Fields Value) (field : String) {condition : Value}
    (h : (∃ op operand, condition = operatorValue op operand) ∨ ∀ fs, condition ≠ .object fs) :
    Carries (mergeCondition field condition filter) field condition := by
  rcases mergeCondition_cases field condition filter with ⟨present, added, -, hc, hmerge⟩ | ⟨hmerge, -⟩
  · rcases h with ⟨op, operand, rfl⟩ | hnot
    · cases hc
      rw [hmerge]
      refine Or.inr ⟨_, op, operand, Fields.get?_insert_self _ _ _, rfl, ?_⟩
      rw [Fields.insertAll_cons]
      exact Fields.get?_insert_self op operand present
    · exact absurd hc (hnot added)
  · rw [hmerge]
    exact Or.inl (Fields.get?_insert_self field condition filter)

/-- What is there stays when a condition is put on another field, or one of another operator on its
own. -/
theorem Carries.merge {filter : Fields Value} {field other : String} {condition added : Value}
    (h : Carries filter field condition) (hbeside : other = field → condition.StandsBeside added) :
    Carries (mergeCondition other added filter) field condition := by
  by_cases ho : field = other
  · subst ho
    obtain ⟨m, a, n, b, rfl, rfl, hne⟩ := hbeside rfl
    have hcarried : ∃ operators, Fields.get? field filter = some (.object operators) ∧
        Fields.get? m operators = some a := by
      rcases h with hget | ⟨operators, op, operand, hget, hop, hfound⟩
      · exact ⟨_, hget, by simp [Fields.get?]⟩
      · cases hop
        exact ⟨operators, hget, hfound⟩
    obtain ⟨operators, hget, hfound⟩ := hcarried
    rcases mergeCondition_cases field (operatorValue n b) filter with
      ⟨present, added, hpresent, hadded, hmerge⟩ | ⟨-, hnot⟩
    · rw [hget] at hpresent
      cases hpresent
      cases hadded
      rw [hmerge]
      refine Or.inr ⟨_, m, a, Fields.get?_insert_self _ _ _, rfl, ?_⟩
      rw [Fields.insertAll_cons]
      exact (Fields.get?_insert_of_ne hne b operators).trans hfound
    · exact absurd rfl (hnot operators _ hget)
  · have hsame : Fields.get? field (mergeCondition other added filter) = Fields.get? field filter := by
      rcases mergeCondition_cases other added filter with ⟨_, _, -, -, hmerge⟩ | ⟨hmerge, -⟩ <;>
        rw [hmerge, Fields.get?_insert_of_ne ho]
    rw [Carries, hsame]
    exact h

end MediaCatalogue

import MediaCatalogue.Proofs.Query.Conditions
import MediaCatalogue.Proofs.Query.Merging

/-!
# Compiled queries

A compiled query gathers conditions by their place in the document and nests the places in one
another. Here the two halves are taken apart: what the filter document of one place says of the
constraints that it was made from, and how the filter documents of the places are put into one
another, which is written out as one expression over the four nested places.
-/

set_option autoImplicit false

namespace MediaCatalogue

/-! ## Conditions and the constraints they were made from -/

/-- A condition at a place is that of a constraint. -/
structure Constraint.PlacedAs (c : Constraint) (d : PlacedCondition) : Prop where
  path : EntityPath.ofKind? c.subject.target = some d.path
  field : d.field = c.subject.fieldName
  condition : c.condition = .ok (some d.condition)

/-- The constraints of a query that restrict anything. -/
def Query.contributing (q : Query) : List Constraint :=
  q.constraints.filter fun c => !c.isAlwaysTrue

namespace Constraint

/-- Only a constraint that holds of everything is left out of the filter document. -/
theorem isAlwaysTrue_of_condition_none {c : Constraint} (h : c.condition = .ok none) :
    c.isAlwaysTrue = true := by
  have hof : ∀ {α : Type} (make : α → Value) (a? : Option α), c.conditionOf make a? ≠ .ok none := by
    intro α make a?
    unfold conditionOf
    cases a? <;> simp
  unfold condition at h
  split at h
  case h_6 =>
    split at h
    · assumption
    · exact absurd h (hof _ _)
  case h_10 => simp at h
  all_goals exact absurd h (hof _ _)

/-- A constraint that has a condition does not hold of everything. -/
theorem isAlwaysTrue_of_condition_some {c : Constraint} {v : Value} (h : c.condition = .ok (some v)) :
    c.isAlwaysTrue = false := by
  unfold condition at h
  split at h
  case h_6 =>
    split at h
    · simp at h
    · simpa using ‹¬ c.isAlwaysTrue = true›
  all_goals simp_all [isAlwaysTrue]

end Constraint

namespace Query

/-- The conditions of a query that compiles are those of the constraints that restrict anything, in
order. -/
theorem placedConditions_spec {cs : List Constraint} {ds : List PlacedCondition}
    (h : placedConditions cs = .ok ds) :
    List.Forall₂ Constraint.PlacedAs (cs.filter fun c => !c.isAlwaysTrue) ds := by
  induction cs generalizing ds with
  | nil =>
    rw [placedConditions] at h
    cases h
    exact List.Forall₂.nil
  | cons c cs ih =>
    rw [placedConditions] at h
    split at h
    · simp at h
    · rename_i path hpath
      split at h
      · simp at h
      · rename_i found hfound
        split at h
        · simp at h
        · rename_i rest hrest
          cases found with
          | none =>
            cases h
            rw [List.filter_cons_of_neg (by simp [Constraint.isAlwaysTrue_of_condition_none hfound])]
            exact ih hrest
          | some condition =>
            cases h
            rw [List.filter_cons_of_pos (by simp [Constraint.isAlwaysTrue_of_condition_some hfound])]
            have hplace := (Attribute.path_eq_ok_iff c.subject path).1 hpath
            exact List.Forall₂.cons ⟨hplace, rfl, hfound⟩ (ih hrest)

end Query

/-- A condition at a place is one that constraints can have: on a field, and of one operator or
without operators. -/
structure PlacedCondition.IsOfConstraint (d : PlacedCondition) : Prop where
  field : Filter.isOperator d.field = false
  plain : d.condition.IsPlainCondition
  single : (∃ op operand, d.condition = operatorValue op operand) ∨ ∀ fs, d.condition ≠ .object fs

/-- A condition is a single operator with its operand, or no object. -/
theorem Constraint.condition_form {c : Constraint} {v : Value} (h : c.condition = .ok (some v)) :
    v.IsPlainCondition ∧ ((∃ op operand, v = operatorValue op operand) ∨ ∀ fs, v ≠ .object fs) := by
  rcases condition_cases h with ⟨vs, rfl, -⟩ | ⟨b, rfl, -⟩ | ⟨b, rfl, -⟩ | ⟨b, rfl, -⟩ | ⟨s, rfl, -⟩
  · exact ⟨isPlainCondition_operatorValue (by decide) _, .inl ⟨_, _, rfl⟩⟩
  · exact ⟨isPlainCondition_operatorValue (by decide) _, .inl ⟨_, _, rfl⟩⟩
  · exact ⟨isPlainCondition_operatorValue (by decide) _, .inl ⟨_, _, rfl⟩⟩
  · exact ⟨by simp [Value.IsPlainCondition], .inr (by simp)⟩
  · exact ⟨by simp [Value.IsPlainCondition], .inr (by simp)⟩

/-- The condition of a constraint on a known attribute is one that constraints can have. -/
theorem Constraint.PlacedAs.isOfConstraint {c : Constraint} {d : PlacedCondition} (h : c.PlacedAs d)
    (hknown : c.subject ∈ Attribute.all) : d.IsOfConstraint where
  field := by
    rw [h.field]
    exact Attribute.isOperator_fieldName _ hknown
  plain := (condition_form h.condition).1
  single := (condition_form h.condition).2

/-! ## The filter document of one place -/

/-- Put conditions into a filter document, one after the other. -/
def mergeAll (ds : List PlacedCondition) (filter : Fields Value) : Fields Value :=
  ds.foldl (fun filter d => mergeCondition d.field d.condition filter) filter

/-- The first of several conditions is put in first. -/
theorem mergeAll_cons (d : PlacedCondition) (ds : List PlacedCondition) (filter : Fields Value) :
    mergeAll (d :: ds) filter = mergeAll ds (mergeCondition d.field d.condition filter) := rfl

section

variable {ds : List PlacedCondition} (hds : ∀ d ∈ ds, d.IsOfConstraint) {filter : Fields Value}
  (hfilter : IsPlainFilter filter)

include hds hfilter

/-- Conditions of constraints put into a plain filter document leave it plain. -/
theorem isPlainFilter_mergeAll : IsPlainFilter (mergeAll ds filter) := by
  induction ds generalizing filter with
  | nil => exact hfilter
  | cons d ds ih =>
    obtain ⟨hd, hrest⟩ := List.forall_mem_cons.1 hds
    exact ih hrest (hfilter.merge hd.field hd.plain)

/-- What all conditions have that are put in, what comes of them has. -/
theorem forall_mergeAll {P : String → Value → Prop} (hP : IsConjunctive P)
    (hpresent : ∀ e ∈ filter, P e.1 e.2) (hadded : ∀ d ∈ ds, P d.field d.condition) :
    ∀ e ∈ mergeAll ds filter, P e.1 e.2 := by
  induction ds generalizing filter with
  | nil => exact hpresent
  | cons d ds ih =>
    obtain ⟨hd, hrest⟩ := List.forall_mem_cons.1 hds
    obtain ⟨haddedd, haddedrest⟩ := List.forall_mem_cons.1 hadded
    exact ih hrest (hfilter.merge hd.field hd.plain)
      (forall_mergeCondition hfilter hd.field hd.plain hP hpresent haddedd) haddedrest

end

/-- What is there stays when each condition that is put in can stand beside it, or goes to another
field. -/
theorem Carries.mergeAll {ds : List PlacedCondition} {filter : Fields Value} {field : String}
    {condition : Value} (h : Carries filter field condition)
    (hbeside : ∀ d ∈ ds, d.field = field → condition.StandsBeside d.condition) :
    Carries (mergeAll ds filter) field condition := by
  induction ds generalizing filter with
  | nil => exact h
  | cons d ds ih =>
    obtain ⟨hd, hrest⟩ := List.forall_mem_cons.1 hbeside
    exact ih (h.merge hd) hrest

/-- Conditions on other fields leave a field of a filter document as it is. -/
theorem get?_mergeAll_of_ne {ds : List PlacedCondition} {name : String}
    (h : ∀ d ∈ ds, name ≠ d.field) (filter : Fields Value) :
    Fields.get? name (mergeAll ds filter) = Fields.get? name filter := by
  induction ds generalizing filter with
  | nil => rfl
  | cons d ds ih =>
    obtain ⟨hd, hrest⟩ := List.forall_mem_cons.1 h
    rw [mergeAll_cons, ih hrest]
    rcases mergeCondition_cases d.field d.condition filter with ⟨_, _, -, -, hmerge⟩ | ⟨hmerge, -⟩ <;>
      rw [hmerge, Fields.get?_insert_of_ne hd]

namespace Query

/-- The filter document of a place is what comes of putting its conditions into an empty one. -/
theorem filterAt_eq_mergeAll (path : EntityPath) (ds : List PlacedCondition) :
    filterAt path ds = mergeAll (ds.filter fun d => d.path == path) [] := rfl

section

variable {path : EntityPath} {ds : List PlacedCondition} (hds : ∀ d ∈ ds, d.IsOfConstraint)

include hds

/-- The filter document of a place is plain. -/
theorem isPlainFilter_filterAt : IsPlainFilter (filterAt path ds) :=
  isPlainFilter_mergeAll (fun d hd => hds d (List.mem_of_mem_filter hd)) isPlainFilter_nil

/-- What all conditions at a place have, the filter document of the place has. -/
theorem forall_filterAt {P : String → Value → Prop} (hP : IsConjunctive P)
    (h : ∀ d ∈ ds, d.path = path → P d.field d.condition) : ∀ e ∈ filterAt path ds, P e.1 e.2 := by
  refine forall_mergeAll (fun d hd => hds d (List.mem_of_mem_filter hd)) isPlainFilter_nil hP (by simp) ?_
  intro d hd
  obtain ⟨hmem, hpath⟩ := List.mem_filter.1 hd
  exact h d hmem (by simpa using hpath)

end

/-- The filter document of a place has each condition at the place that all later ones on its field
can stand beside. -/
theorem carries_filterAt {before after : List PlacedCondition} {d : PlacedCondition}
    (hd : d.IsOfConstraint)
    (h : ∀ e ∈ after, e.path = d.path → e.field = d.field → d.condition.StandsBeside e.condition) :
    Carries (filterAt d.path (before ++ d :: after)) d.field d.condition := by
  rw [filterAt_eq_mergeAll, List.filter_append, List.filter_cons_of_pos (by simp), mergeAll,
    List.foldl_append, List.foldl_cons]
  refine Carries.mergeAll (carries_merge _ d.field hd.single) fun e he hfield => ?_
  obtain ⟨hmem, hpath⟩ := List.mem_filter.1 he
  exact h e hmem (by simpa using hpath) hfield

/-- A field without conditions does not appear in the filter document of a place. -/
theorem get?_filterAt_eq_none {path : EntityPath} {ds : List PlacedCondition} {name : String}
    (h : ∀ d ∈ ds, name ≠ d.field) : Fields.get? name (filterAt path ds) = none := by
  rw [filterAt_eq_mergeAll, get?_mergeAll_of_ne fun d hd => h d (List.mem_of_mem_filter hd)]
  rfl

/-! ## Places in one another -/

/-- The filter document of a place that has conditions. -/
def filterAt? (path : EntityPath) (ds : List PlacedCondition) : Option (Fields Value) :=
  if ds.any fun d => d.path == path then some (filterAt path ds) else none

/-- Put a filter document, if there is one, into another as a condition on elements. -/
def attach (key : String) (inner : Option (Fields Value)) (filter : Fields Value) : Fields Value :=
  match inner with
  | none => filter
  | some inner => mergeCondition key (operatorValue "$elemMatch" (.object inner)) filter

/-- Put the filter documents of encodings and locations into another under one of two names: that of
encodings with the locations in it, or that of locations if there are no encodings. -/
def attachEncodings (encodingKey locationKey : String) (encodings locations : Option (Fields Value))
    (filter : Fields Value) : Fields Value :=
  match encodings with
  | some e => attach encodingKey (some (attach "availableAt" locations e)) filter
  | none => attach locationKey locations filter

/-- The filter documents of the root and of the nested places put into one another, each into the
nearest place above that has conditions. -/
def assemble (root : Fields Value) (versions broadcasts encodings locations : Option (Fields Value)) :
    Fields Value :=
  match versions with
  | some v =>
    let v := attachEncodings "manifestedAs" "manifestedAs.availableAt" encodings locations v
    attach "versions" (some (attach "broadcasts" broadcasts v)) root
  | none =>
    attach "versions.broadcasts" broadcasts
      (attachEncodings "versions.manifestedAs" "versions.manifestedAs.availableAt" encodings locations root)

/-- The paths from each place to the places below it. -/
theorem relativePath_eq :
    relativePath .root .versions = "versions" ∧
      relativePath .root .broadcasts = "versions.broadcasts" ∧
      relativePath .root .encodings = "versions.manifestedAs" ∧
      relativePath .root .locations = "versions.manifestedAs.availableAt" ∧
      relativePath .versions .broadcasts = "broadcasts" ∧
      relativePath .versions .encodings = "manifestedAs" ∧
      relativePath .versions .locations = "manifestedAs.availableAt" ∧
      relativePath .encodings .locations = "availableAt" := by
  decide

/-- Embedding the nested places from the last to the first puts them into one another in this way.
-/
theorem embed_nestedFilters (root : Fields Value) (ds : List PlacedCondition) :
    embed root (nestedFilters ds).reverse =
      assemble root (filterAt? .versions ds) (filterAt? .broadcasts ds) (filterAt? .encodings ds)
        (filterAt? .locations ds) := by
  obtain ⟨h₁, h₂, h₃, h₄, h₅, h₆, h₇, h₈⟩ := relativePath_eq
  cases hv : ds.any fun d => d.path == .versions <;>
    cases hb : ds.any fun d => d.path == .broadcasts <;>
      cases he : ds.any fun d => d.path == .encodings <;>
        cases hl : ds.any fun d => d.path == .locations <;>
          simp [nestedFilters, filterAt?, EntityPath.nested, hv, hb, he, hl, embed, nearest?,
            EntityPath.ancestors, assemble, attachEncodings, attach, h₁, h₂, h₃, h₄, h₅, h₆, h₇, h₈]

/-- A query whose constraints can all be placed compiles to the filter documents of its places put into
one another. -/
theorem compile_eq {q : Query} {ds : List PlacedCondition} (hnothing : q.matchesNothing = false)
    (hds : placedConditions q.constraints = .ok ds) :
    q.compile = .ok (assemble (filterAt .root ds) (filterAt? .versions ds) (filterAt? .broadcasts ds)
      (filterAt? .encodings ds) (filterAt? .locations ds)) := by
  rw [compile, hnothing, hds, ← embed_nestedFilters]
  rfl

/-! ## The order of the entries -/

/-- The filter document of a place has its entries in order. -/
theorem sorted_filterAt (path : EntityPath) (ds : List PlacedCondition) :
    Fields.Sorted (filterAt path ds) := by
  have hmerged : ∀ (ds : List PlacedCondition) (filter : Fields Value), Fields.Sorted filter →
      Fields.Sorted (mergeAll ds filter) := by
    intro ds
    induction ds with
    | nil => exact fun _ h => h
    | cons d ds ih => exact fun _ h => ih _ (sorted_mergeCondition h d.field d.condition)
  rw [filterAt_eq_mergeAll]
  exact hmerged _ [] Fields.sorted_nil

section

variable {filter : Fields Value} (h : Fields.Sorted filter)

include h

/-- Putting a filter document into another keeps the entries of the outer one in order. -/
theorem sorted_attach (key : String) (inner : Option (Fields Value)) :
    Fields.Sorted (attach key inner filter) := by
  cases inner with
  | none => exact h
  | some inner => exact sorted_mergeCondition h key _

/-- Putting the filter documents of nested places into that of the root keeps its entries in order. -/
theorem sorted_assemble (versions broadcasts encodings locations : Option (Fields Value)) :
    Fields.Sorted (assemble filter versions broadcasts encodings locations) := by
  have hencodings : ∀ encodingKey locationKey,
      Fields.Sorted (attachEncodings encodingKey locationKey encodings locations filter) := by
    intro encodingKey locationKey
    cases encodings with
    | none => exact sorted_attach h locationKey locations
    | some e => exact sorted_attach h encodingKey (some (attach "availableAt" locations e))
  cases versions with
  | none => exact sorted_attach (hencodings _ _) _ broadcasts
  | some v =>
    unfold assemble
    exact sorted_attach h "versions" _

end

/-- A filter document has its entries in order, whatever attributes the query asks for. -/
theorem sorted_of_compile {q : Query} {document : Fields Value} (h : q.compile = .ok document) :
    Fields.Sorted document := by
  unfold compile at h
  split at h
  · cases h
  · split at h
    · cases h
    · rename_i ds _
      cases h
      rw [embed_nestedFilters]
      exact sorted_assemble (sorted_filterAt .root ds) _ _ _ _

end Query
end MediaCatalogue

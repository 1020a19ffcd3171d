import MediaCatalogue.Proofs.Query.Nesting
import MediaCatalogue.Proofs.Query.Trimming

/-!
# What a compiled query means

The filter document of a query and the checker are two ways of asking the same. A query describes
content when the content satisfies the constraints at the root and what the others ask for is found
in its versions; the filter document matches the stored document of exactly the content that the
query describes, as long as no two constraints meet on one field and all values are of the kinds of
their attributes. Without the latter it may match more: a filter document sees the key of a name as
the text that it is.

The general lemmas say what carries over when they do meet: satisfying all constraints at a place is
still enough to pass, and what passes satisfies each constraint that no later one has taken the
place of.
-/

set_option autoImplicit false

namespace MediaCatalogue

namespace Query

/-! ## What a query asks for -/

/-- The constraints of a query that restrict something at a place. -/
def constraintsAt (q : Query) (path : EntityPath) : List Constraint :=
  q.contributing.filter fun k => EntityPath.ofKind? k.subject.target == some path

/-- What the constraints at a place ask of an entity, if there are any. -/
def needAt (q : Query) (path : EntityPath) {α : Type} [Queryable α] : Option (α → Prop) :=
  if q.constraintsAt path = [] then none
  else some fun e => satisfies (q.constraintsAt path) e = true

/-- What a query asks of nested entities. -/
def needs (q : Query) : Needs where
  versions := q.needAt .versions
  broadcasts := q.needAt .broadcasts
  encodings := q.needAt .encodings
  locations := q.needAt .locations

/-- A query describes content that satisfies the constraints at the root and in whose versions the
nested entities are found that the others ask for. -/
def Describes (q : Query) (c : Content) : Prop :=
  satisfies (q.constraintsAt .root) c = true ∧ q.needs.FoundIn c.versions

/-- The conditions are those of the constraints of a query that restrict something, all of them on
attributes that can be asked for by name. -/
structure HasConditions (q : Query) (ds : List PlacedCondition) : Prop where
  known : ∀ k ∈ q.constraints, k.subject ∈ Attribute.all
  placed : List.Forall₂ Constraint.PlacedAs q.contributing ds

/-- The constraints at a place are those that restrict something and whose attribute is found there. -/
theorem mem_constraintsAt {q : Query} {path : EntityPath} {k : Constraint} :
    k ∈ q.constraintsAt path ↔
      k ∈ q.contributing ∧ EntityPath.ofKind? k.subject.target = some path := by
  simp [constraintsAt]

/-- A constraint that restricts something is one of the query. -/
theorem mem_constraints_of_contributing {q : Query} {k : Constraint} (h : k ∈ q.contributing) :
    k ∈ q.constraints :=
  List.mem_of_mem_filter h

/-- A query that compiles is not one that matches nothing whatever it asks for. -/
theorem matchesNothing_of_compile {q : Query} {document : Fields Value} (h : q.compile = .ok document) :
    q.matchesNothing = false := by
  unfold compile at h
  split at h
  · cases h
  · simp_all

/-- The filter document of a query is put together from those of the places. -/
theorem compile_spec {q : Query} {document : Fields Value} (h : q.compile = .ok document)
    (hknown : ∀ k ∈ q.constraints, k.subject ∈ Attribute.all) :
    ∃ ds, q.HasConditions ds ∧ document =
      assemble (filterAt .root ds) (filterAt? .versions ds) (filterAt? .broadcasts ds)
        (filterAt? .encodings ds) (filterAt? .locations ds) := by
  have hnothing := matchesNothing_of_compile h
  cases hds : placedConditions q.constraints with
  | error e => simp [compile, hnothing, hds] at h
  | ok ds =>
    rw [compile_eq hnothing hds] at h
    cases h
    exact ⟨ds, ⟨hknown, placedConditions_spec hds⟩, rfl⟩

/-! ## Who is asked -/

/-- Constraints that all address an entity are satisfied by it when each holds of it. -/
theorem satisfies_iff_holdsOf {α : Type} [Queryable α] {cs : List Constraint} {e : α}
    (h : ∀ k ∈ cs, k.addresses e = true) :
    satisfies cs e = true ↔ ∀ k ∈ cs, k.holdsOf e = true := by
  rw [TrimScope.satisfies_iff]
  exact forall₂_congr fun k hk => by simp [h k hk]

/-- The constraints at a place address an entity whose kind answers for all targets of the place. -/
theorem addresses_of_mem {α : Type} [Queryable α] {path : EntityPath} {e : α} (kind : EntityKind)
    (hkind : Queryable.kind e = kind)
    (h : ∀ target, EntityPath.ofKind? target = some path → kind.answersFor target = true) (q : Query) :
    ∀ k ∈ q.constraintsAt path, k.addresses e = true := by
  intro k hk
  rw [Constraint.addresses, hkind]
  exact h k.subject.target (mem_constraintsAt.1 hk).2

/-- A version is asked by all constraints on versions. -/
theorem addresses_version (q : Query) (v : Version) :
    ∀ k ∈ q.constraintsAt .versions, k.addresses v = true :=
  addresses_of_mem .version rfl (by intro target; cases target <;> decide) q

/-- A broadcast is asked by all constraints on broadcasts. -/
theorem addresses_broadcast (q : Query) (b : Broadcast) :
    ∀ k ∈ q.constraintsAt .broadcasts, k.addresses b = true :=
  addresses_of_mem .broadcast rfl (by intro target; cases target <;> decide) q

/-- An encoding is asked by all constraints on encodings. -/
theorem addresses_encoding (q : Query) (e : Encoding) :
    ∀ k ∈ q.constraintsAt .encodings, k.addresses e = true :=
  addresses_of_mem .encoding rfl (by intro target; cases target <;> decide) q

/-- A location answers for its policy as well. -/
theorem addresses_location (q : Query) (l : Location) :
    ∀ k ∈ q.constraintsAt .locations, k.addresses l = true :=
  addresses_of_mem .location rfl (by intro target; cases target <;> decide) q

end Query

namespace Query.HasConditions

variable {q : Query} {ds : List PlacedCondition} (h : q.HasConditions ds)

include h

/-- Each condition of a query is one that constraints can have. -/
theorem isOfConstraint : ∀ d ∈ ds, d.IsOfConstraint := by
  intro d hd
  obtain ⟨k, hk, hplaced⟩ := exists_left_of_forall₂ h.placed hd
  exact hplaced.isOfConstraint (h.known k (mem_constraints_of_contributing hk))

/-- The constraints at a place are on known attributes. -/
theorem known_of_mem {path : EntityPath} {k : Constraint} (hk : k ∈ q.constraintsAt path) :
    k.subject ∈ Attribute.all :=
  h.known k (mem_constraints_of_contributing (mem_constraintsAt.1 hk).1)

/-- There are conditions at a place exactly when there are constraints there. -/
theorem any_path_iff (path : EntityPath) :
    (ds.any fun d => d.path == path) = true ↔ q.constraintsAt path ≠ [] := by
  rw [List.any_eq_true]
  constructor
  · rintro ⟨d, hd, hpath⟩
    obtain ⟨k, hk, hplaced⟩ := exists_left_of_forall₂ h.placed hd
    have hmem : k ∈ q.constraintsAt path :=
      mem_constraintsAt.2 ⟨hk, by rw [hplaced.path, beq_iff_eq.1 hpath]⟩
    exact List.ne_nil_of_mem hmem
  · intro hne
    obtain ⟨k, hk⟩ := List.exists_mem_of_ne_nil _ hne
    obtain ⟨hk, hpath⟩ := mem_constraintsAt.1 hk
    obtain ⟨d, hd, hplaced⟩ := exists_right_of_forall₂ h.placed hk
    rw [hplaced.path] at hpath
    exact ⟨d, hd, by simpa using hpath⟩

/-- The conditions at a place are not on the fields under which nested places are put in. -/
theorem hasNoNested_filterAt (path : EntityPath) : HasNoNested (filterAt path ds) := by
  have hkeys : ∀ a ∈ Attribute.all, ∀ key ∈ nestedKeys, key ≠ a.fieldName := by decide
  refine fun key hkey => get?_filterAt_eq_none fun d hd => ?_
  obtain ⟨k, hk, hplaced⟩ := exists_left_of_forall₂ h.placed hd
  rw [hplaced.field]
  exact hkeys _ (h.known k (mem_constraints_of_contributing hk)) key hkey

/-- The same where a place may have no filter document. -/
theorem hasNoNested_filterAt? (path : EntityPath) : ∀ f ∈ filterAt? path ds, HasNoNested f := by
  intro f hf
  unfold filterAt? at hf
  split at hf
  · cases hf
    exact h.hasNoNested_filterAt path
  · cases hf

/-! ## Constraints at a place and the filter document of the place -/

section

variable (hpattern : ∀ k ∈ q.constraints, k.HasPattern)

include hpattern

/-- The filter document of a place can be read if the texts of the beginnings can be looked for. -/
theorem readable_filterAt (path : EntityPath) : Filter.Readable (filterAt path ds) := by
  rw [Filter.readable_iff]
  refine forall_filterAt h.isOfConstraint isConjunctive_entryReadable fun d hd _ => ?_
  obtain ⟨k, hk, hplaced⟩ := exists_left_of_forall₂ h.placed hd
  exact Constraint.entryReadable_condition hplaced.condition (h.isOfConstraint d hd).field
    (hpattern k (mem_constraints_of_contributing hk))

/-- The same where a place may have no filter document. -/
theorem readable_filterAt? (path : EntityPath) : ∀ f ∈ filterAt? path ds, Filter.Readable f := by
  intro f hf
  unfold filterAt? at hf
  split at hf
  · cases hf
    exact h.readable_filterAt hpattern path
  · cases hf

/-- The filter document of a query can be read if the texts of its beginnings can be looked for. -/
theorem readable_of_hasPattern : Filter.Readable (assemble (filterAt .root ds) (filterAt? .versions ds)
    (filterAt? .broadcasts ds) (filterAt? .encodings ds) (filterAt? .locations ds)) :=
  (Query.readable_assemble (h.hasNoNested_filterAt .root) (h.hasNoNested_filterAt? .versions)
    (h.hasNoNested_filterAt? .encodings)).2
      ⟨h.readable_filterAt hpattern .root, h.readable_filterAt? hpattern .versions,
        h.readable_filterAt? hpattern .broadcasts, h.readable_filterAt? hpattern .encodings,
        h.readable_filterAt? hpattern .locations⟩

end

section

variable (hbeginning : ∀ k ∈ q.constraints, k.operator ≠ .beginning)

include hbeginning

/-- What satisfies all constraints at a place passes the filter document of the place, also when
some of the constraints meet on a field. -/
theorem accepts_filterAt {α : Type} [Queryable α] {path : EntityPath} {fields : Fields Value} {e : α}
    (hstores : Stores path fields e) (hkinds : AnswersInKind path e)
    (hall : ∀ k ∈ q.constraintsAt path, k.holdsOf e = true) :
    Filter.Accepts (filterAt path ds) fields := by
  rw [Filter.accepts_iff]
  refine forall_filterAt h.isOfConstraint (isConjunctive_entryAccepts fields) fun d hd hpath => ?_
  obtain ⟨k, hk, hplaced⟩ := exists_left_of_forall₂ h.placed hd
  have hplace : EntityPath.ofKind? k.subject.target = some path := hpath ▸ hplaced.path
  have hconstraint := mem_constraintsAt.2 ⟨hk, hplace⟩
  have hop := hbeginning k (mem_constraints_of_contributing hk)
  rw [hplaced.field]
  exact Constraint.passes_of_holdsOf hstores hkinds (h.known_of_mem hconstraint) hplace
    hplaced.condition hop (hall k hconstraint)

/-- At each nested place the filter document asks for something when the constraints do, and for no
more. -/
theorem rel_needAt {α : Type} [Queryable α] {path : EntityPath} {record : α → Fields Value}
    (hstores : ∀ e, Stores path (record e) e) (hkinds : ∀ e : α, AnswersInKind path e)
    (haddressed : ∀ e : α, ∀ k ∈ q.constraintsAt path, k.addresses e = true) :
    Option.Rel (fun P Q => ∀ e, P e → Q e) (q.needAt path)
      ((filterAt? path ds).map fun f e => Filter.Accepts f (record e)) := by
  unfold filterAt? needAt
  by_cases hnil : q.constraintsAt path = []
  · have hany : ¬ (ds.any fun d => d.path == path) = true := fun hany => (h.any_path_iff path).1 hany hnil
    rw [if_pos hnil, if_neg hany]
    exact .none
  · rw [if_neg hnil, if_pos ((h.any_path_iff path).2 hnil)]
    refine .some fun e he => h.accepts_filterAt hbeginning (hstores e) (hkinds e) ?_
    exact (satisfies_iff_holdsOf (haddressed e)).1 he

/-- The filter document of a query without beginnings can always be read. -/
theorem readable_assemble : Filter.Readable (assemble (filterAt .root ds) (filterAt? .versions ds)
    (filterAt? .broadcasts ds) (filterAt? .encodings ds) (filterAt? .locations ds)) :=
  h.readable_of_hasPattern fun k hk => Constraint.hasPattern_of_ne_beginning (hbeginning k hk)

/-- The document of content that the query describes passes the filter document of the query, also
when some of the constraints meet on a field. -/
theorem accepts_of_describes {c : Content} (hc : q.Describes c)
    (haddressed : ∀ k ∈ q.constraintsAt .root, k.addresses c = true) :
    Filter.Accepts (assemble (filterAt .root ds) (filterAt? .versions ds) (filterAt? .broadcasts ds)
      (filterAt? .encodings ds) (filterAt? .locations ds)) c.toDocument.fields := by
  rw [accepts_assemble (h.hasNoNested_filterAt .root) (h.hasNoNested_filterAt? .versions)
    (h.hasNoNested_filterAt? .encodings)]
  refine ⟨h.accepts_filterAt hbeginning c.stores c.answersInKind
    ((satisfies_iff_holdsOf haddressed).1 hc.1), ?_⟩
  refine Needs.FoundIn.mono ⟨?_, ?_, ?_, ?_⟩ hc.2
  · exact h.rel_needAt hbeginning Version.stores Version.answersInKind q.addresses_version
  · exact h.rel_needAt hbeginning Broadcast.stores Broadcast.answersInKind q.addresses_broadcast
  · exact h.rel_needAt hbeginning Encoding.stores Encoding.answersInKind q.addresses_encoding
  · exact h.rel_needAt hbeginning Location.stores Location.answersInKind q.addresses_location

end

end Query.HasConditions

/-- The filter document of a query on known attributes is plain. -/
theorem Query.isPlainFilter_of_compile {q : Query} {document : Fields Value}
    (hcompile : q.compile = .ok document) (hknown : ∀ k ∈ q.constraints, k.subject ∈ Attribute.all) :
    IsPlainFilter document := by
  obtain ⟨ds, h, rfl⟩ := compile_spec hcompile hknown
  exact isPlainFilter_assemble (isPlainFilter_filterAt h.isOfConstraint) _ _ _ _

/-! ## Constraints that meet on a field -/

/-- Two constraints meet on a field: their attributes have one place and one name there. -/
def Constraint.Meets (k l : Constraint) : Prop :=
  EntityPath.ofKind? k.subject.target = EntityPath.ofKind? l.subject.target ∧
    k.subject.fieldName = l.subject.fieldName

instance (k l : Constraint) : Decidable (k.Meets l) :=
  inferInstanceAs (Decidable (_ ∧ _))

/-- Two constraints can stand side by side on one field: they are of different operators, and
neither asks for a beginning, which is no operator of filters. -/
def Constraint.StandsBeside (k l : Constraint) : Prop :=
  k.operator ≠ l.operator ∧ k.operator ≠ .beginning ∧ l.operator ≠ .beginning

instance (k l : Constraint) : Decidable (k.StandsBeside l) :=
  inferInstanceAs (Decidable (_ ∧ _ ∧ _))

/-- Attributes that meet on a field are of one kind. -/
theorem Attribute.valueKind_eq :
    ∀ a ∈ Attribute.all, ∀ b ∈ Attribute.all, EntityPath.ofKind? a.target = EntityPath.ofKind? b.target →
      a.fieldName = b.fieldName → a.valueKind = b.valueKind := by
  decide +kernel

/-- The operator of filters that a comparison becomes. -/
def Operator.filterName : Operator → String
  | .lessThan | .before => "$lt"
  | .greaterThan | .after => "$gt"
  | _ => "$in"

section

variable {k l : Constraint} {v w : Value} (hv : k.condition = .ok (some v))

include hv

/-- Beginnings apart, values are compared by equality, and numbers and instants by their order too.
-/
theorem Constraint.operator_cases (hk : k.operator ≠ .beginning) :
    k.operator = .equals ∨
      k.operands.kind = .integer ∧ (k.operator = .lessThan ∨ k.operator = .greaterThan) ∨
      k.operands.kind = .dateTime ∧ (k.operator = .before ∨ k.operator = .after) := by
  rcases condition_cases hv with ⟨_, -, ho, -⟩ | ⟨_, -, ho, -⟩ | ⟨_, -, ho, -⟩ | ⟨_, -, ho, -⟩ | ⟨_, -, ho, -⟩
  · exact .inl ho
  · exact .inr (ho.imp (fun h => ⟨h.2, .inl h.1⟩) fun h => ⟨h.2, .inl h.1⟩)
  · exact .inr (ho.imp (fun h => ⟨h.2, .inr h.1⟩) fun h => ⟨h.2, .inr h.1⟩)
  · exact .inl ho
  · exact absurd ho hk

/-- Truth values apart, the condition of a comparison is one operator. -/
theorem Constraint.exists_operand (hk : k.operator ≠ .beginning) (hkind : k.operands.kind ≠ .boolean) :
    ∃ operand, v = operatorValue k.operator.filterName operand := by
  rcases condition_cases hv with ⟨_, rfl, ho, -⟩ | ⟨_, rfl, ho, -⟩ | ⟨_, rfl, ho, -⟩ | ⟨_, -, -, ho, -⟩ |
    ⟨_, -, ho, -⟩
  · exact ⟨_, by rw [ho]; rfl⟩
  · rcases ho with ⟨ho, -⟩ | ⟨ho, -⟩ <;> exact ⟨_, by rw [ho]; rfl⟩
  · rcases ho with ⟨ho, -⟩ | ⟨ho, -⟩ <;> exact ⟨_, by rw [ho]; rfl⟩
  · exact absurd ho hkind
  · exact absurd ho hk

/-- The conditions of constraints that can stand side by side can do so. -/
theorem Constraint.StandsBeside.conditions (h : k.StandsBeside l) (hmeets : k.Meets l)
    (hk : k.subject ∈ Attribute.all ∧ k.IsTyped) (hl : l.subject ∈ Attribute.all ∧ l.IsTyped)
    (hw : l.condition = .ok (some w)) : v.StandsBeside w := by
  obtain ⟨hne, hbeginning, hbeginning'⟩ := h
  have hkind : k.operands.kind = l.operands.kind := by
    rw [hk.2, hl.2]
    exact Attribute.valueKind_eq _ hk.1 _ hl.1 hmeets.1 hmeets.2
  have hop := Constraint.operator_cases hv hbeginning
  have hop' := Constraint.operator_cases hw hbeginning'
  rw [← hkind] at hop'
  -- different operators leave only numbers and instants
  have hboolean : k.operands.kind ≠ .boolean := by
    intro hboolean
    simp only [hboolean, reduceCtorEq, false_and, or_false] at hop hop'
    exact hne (hop.trans hop'.symm)
  obtain ⟨operand, rfl⟩ := Constraint.exists_operand hv hbeginning hboolean
  obtain ⟨operand', rfl⟩ := Constraint.exists_operand hw hbeginning' (hkind ▸ hboolean)
  refine ⟨_, _, _, _, rfl, rfl, fun hname => ?_⟩
  rcases hop with ho | ⟨hi, ho | ho⟩ | ⟨hi, ho | ho⟩ <;>
    rcases hop' with ho' | ⟨hi', ho' | ho'⟩ | ⟨hi', ho' | ho'⟩ <;>
    first
    | exact hne (ho.trans ho'.symm)
    | exact absurd (hi.symm.trans hi') (by decide)
    | simp [ho, ho', Operator.filterName] at hname

end

/-- What passes the filter document of a place passes the condition of each constraint there that
all later ones on its field can stand beside. -/
theorem Query.HasConditions.passes_of_accepts {q : Query} {ds : List PlacedCondition}
    (h : q.HasConditions ds) {before after : List Constraint} {k : Constraint}
    (hq : q.contributing = before ++ k :: after) {path : EntityPath}
    (hpath : EntityPath.ofKind? k.subject.target = some path)
    (hlast : ∀ l ∈ after, k.Meets l → ∀ v w, k.condition = .ok (some v) → l.condition = .ok (some w) →
      v.StandsBeside w)
    {x : Fields Value} (hx : Filter.Accepts (filterAt path ds) x) :
    ∃ condition, k.condition = .ok (some condition) ∧
      Filter.EntryAccepts k.subject.fieldName condition x := by
  obtain ⟨before', d, after', rfl, hplaced, hafter⟩ := exists_append_of_forall₂ h.placed hq
  have hd : d ∈ before' ++ d :: after' := by simp
  have hplace : d.path = path := Option.some.inj (hplaced.path.symm.trans hpath)
  subst hplace
  have hcarries : Carries (filterAt d.path (before' ++ d :: after')) d.field d.condition := by
    refine carries_filterAt (h.isOfConstraint d hd) fun e he hepath hefield => ?_
    obtain ⟨l, hl, hlplaced⟩ := exists_left_of_forall₂ hafter he
    have hmeets : k.Meets l :=
      ⟨by rw [hplaced.path, hlplaced.path, hepath], by rw [← hplaced.field, ← hlplaced.field, hefield]⟩
    exact hlast l hl hmeets _ _ hplaced.condition hlplaced.condition
  have hentry := hcarries.property (isPlainFilter_filterAt h.isOfConstraint)
    (isConjunctive_entryAccepts x) ((Filter.accepts_iff _ x).1 hx)
  exact ⟨d.condition, hplaced.condition, hplaced.field ▸ hentry⟩

/-! ## Constraints that do not meet -/

namespace Query

/-- A query that asks in a plain way: by known attributes, for no beginnings, with names in ASCII, and
with no two constraints that restrict something on one field. -/
structure IsPlain (q : Query) : Prop where
  known : ∀ k ∈ q.constraints, k.subject ∈ Attribute.all
  noBeginning : ∀ k ∈ q.constraints, k.operator ≠ .beginning
  ascii : ∀ k ∈ q.constraints, ∀ ks, k.operands = .keywords ks → ∀ name ∈ ks, Text.IsAscii name
  apart : q.contributing.Pairwise fun k l => ¬ k.Meets l

section

variable {q : Query} (hq : q.IsPlain) (htyped : ∀ k ∈ q.contributing, k.IsTyped)
variable {ds : List PlacedCondition} (h : q.HasConditions ds)

include hq htyped h

/-- At each place the filter document asks for what the constraints ask for, if their values are of the
kinds of their attributes. -/
theorem accepts_filterAt_iff {α : Type} [Queryable α] {path : EntityPath} {fields : Fields Value} {e : α}
    (hstores : Stores path fields e) (hkinds : AnswersInKind path e)
    (haddressed : ∀ k ∈ q.constraintsAt path, k.addresses e = true) :
    Filter.Accepts (filterAt path ds) fields ↔ satisfies (q.constraintsAt path) e = true := by
  rw [satisfies_iff_holdsOf haddressed]
  constructor
  · intro haccepts k hk
    obtain ⟨hcontributing, hpath⟩ := mem_constraintsAt.1 hk
    have hmem := mem_constraints_of_contributing hcontributing
    obtain ⟨before, after, hsplit⟩ := List.append_of_mem hcontributing
    have hapart := hq.apart
    rw [hsplit, List.pairwise_append, List.pairwise_cons] at hapart
    have hlast : ∀ l ∈ after, k.Meets l → ∀ v w, k.condition = .ok (some v) →
        l.condition = .ok (some w) → v.StandsBeside w :=
      fun l hl hmeets => absurd hmeets (hapart.2.1.1 l hl)
    obtain ⟨condition, hcondition, hpasses⟩ := h.passes_of_accepts hsplit hpath hlast haccepts
    exact Constraint.holdsOf_of_passes hstores hkinds (hq.known k hmem) hpath hcondition
      (hq.noBeginning k hmem) (htyped k hcontributing)
      (fun ks hks name hname _ _ _ => hq.ascii k hmem ks hks name hname) hpasses
  · exact h.accepts_filterAt hq.noBeginning hstores hkinds

/-- At each nested place the filter document asks for something when the constraints do, and for the
same. -/
theorem map_filterAt? {α : Type} [Queryable α] {path : EntityPath} {record : α → Fields Value}
    (hstores : ∀ e, Stores path (record e) e) (hkinds : ∀ e : α, AnswersInKind path e)
    (haddressed : ∀ e : α, ∀ k ∈ q.constraintsAt path, k.addresses e = true) :
    (filterAt? path ds).map (fun f e => Filter.Accepts f (record e)) = q.needAt path := by
  unfold filterAt? needAt
  by_cases hnil : q.constraintsAt path = []
  · have hany : ¬ (ds.any fun d => d.path == path) = true := fun hany => (h.any_path_iff path).1 hany hnil
    simp [hnil, hany]
  · have hany := (h.any_path_iff path).2 hnil
    simp only [hnil, hany, if_true, if_false, Option.map_some, Option.some.injEq]
    exact funext fun e => propext (accepts_filterAt_iff hq htyped h (hstores e) (hkinds e) (haddressed e))

end

/-- **The filter document of a query matches exactly what the query describes**, when no two
constraints meet on a field and those that restrict something have values of the kinds of their
attributes. -/
theorem compile_isMatch_iff (q : Query) (c : Content) (document : Fields Value) (hq : q.IsPlain)
    (htyped : ∀ k ∈ q.contributing, k.IsTyped) (hcompile : q.compile = .ok document)
    (hasked : ∀ k ∈ q.constraintsAt .root, k.addresses c = true) :
    ∃ f, Filter.ofFields document = .ok f ∧
      (f.isMatch c.toDocument.fields = true ↔ q.Describes c) := by
  obtain ⟨ds, h, rfl⟩ := compile_spec hcompile hq.known
  have hroot := h.hasNoNested_filterAt .root
  have hversions := h.hasNoNested_filterAt? .versions
  have hencodings := h.hasNoNested_filterAt? .encodings
  obtain ⟨f, hf⟩ := h.readable_assemble hq.noBeginning
  have hneeds : Needs.ofFilters (filterAt? .versions ds) (filterAt? .broadcasts ds)
      (filterAt? .encodings ds) (filterAt? .locations ds) = q.needs := by
    simp only [Needs.ofFilters, needs, Needs.mk.injEq]
    exact ⟨map_filterAt? hq htyped h Version.stores Version.answersInKind q.addresses_version,
      map_filterAt? hq htyped h Broadcast.stores Broadcast.answersInKind q.addresses_broadcast,
      map_filterAt? hq htyped h Encoding.stores Encoding.answersInKind q.addresses_encoding,
      map_filterAt? hq htyped h Location.stores Location.answersInKind q.addresses_location⟩
  refine ⟨f, hf, ?_⟩
  rw [← Filter.accepts_iff_isMatch hf, accepts_assemble hroot hversions hencodings, hneeds,
    accepts_filterAt_iff hq htyped h c.stores c.answersInKind hasked]
  rfl

/-- A long version with a location where it is available is described by the query for such, and its
document matches. -/
theorem compile_isMatch_iff_longAvailable :
    ∃ document f, longAvailableQuery.compile = .ok document ∧ Filter.ofFields document = .ok f ∧
      f.isMatch (Content.item { versions := [versionLasting 1800 [{}]] }).toDocument.fields = true := by
  have hcompile : longAvailableQuery.compile = .ok
      [("versions", .object [("$elemMatch", .object
        [("duration", .object [("$gt", .int64 60)]),
          ("manifestedAs.availableAt",
            .object [("$elemMatch", .object [("available", .bool true)])])])])] := by
    rw [compile_eq rfl rfl]
    rfl
  have hplain : longAvailableQuery.IsPlain :=
    ⟨by decide, by decide, by simp [longAvailableQuery], by decide⟩
  obtain ⟨f, hf, hiff⟩ := compile_isMatch_iff longAvailableQuery
    (.item { versions := [versionLasting 1800 [{}]] }) _ hplain (by decide) hcompile (by decide)
  refine ⟨_, f, hcompile, hf, hiff.2 ⟨by decide, ?_⟩⟩
  have hbroadcasts : longAvailableQuery.needs.broadcasts = none := rfl
  have hencodings : longAvailableQuery.needs.encodings = none := rfl
  refine ⟨_, List.mem_singleton.2 rfl, by decide, by simp [Needs.BroadcastIn, hbroadcasts], fun _ => ?_⟩
  refine ⟨_, List.mem_singleton.2 rfl, by simp [hencodings], fun L hL => ?_⟩
  cases hL
  exact ⟨{}, by decide, by decide⟩

/-- Content of a media type that is asked for as a text, and not by its name. -/
def videoAsTextQuery : Query :=
  { constraints :=
      [{ subject := { name := "mediaType", field := "mediaType", target := .content, valueKind := .keyword }
         operator := .equals
         operands := .strings ["video"] }] }

/-- An item of videos. -/
def videoItem : Item :=
  { described := { mediaType := some .video } }

/-- Values of another kind than the attribute are compared by the filter document, which sees the key of
the media type only, but never by the checker. -/
theorem compile_isMatch_untyped :
    videoAsTextQuery.IsPlain ∧
      (∀ k ∈ videoAsTextQuery.constraintsAt .root, k.addresses (Content.item videoItem) = true) ∧
      ∃ document f, videoAsTextQuery.compile = .ok document ∧ Filter.ofFields document = .ok f ∧
        f.isMatch (Content.item videoItem).toDocument.fields = true ∧
        ¬ videoAsTextQuery.Describes (.item videoItem) := by
  have hplain : videoAsTextQuery.IsPlain :=
    ⟨by decide, by decide, by simp [videoAsTextQuery], by decide⟩
  have hcompile : videoAsTextQuery.compile =
      .ok [("mediaType", operatorValue "$in" (.array [.string "video"]))] := by
    rw [compile_eq rfl rfl]
    rfl
  have hunsatisfied : satisfies (videoAsTextQuery.constraintsAt .root) (Content.item videoItem) = false := by
    decide
  refine ⟨hplain, by decide, _, .oneOf "mediaType" [.string "video"], hcompile, ?_, ?_, fun h => ?_⟩
  · rw [operatorValue, Filter.ofFields_singleton, Filter.ofEntry_in (by decide)]
  · rfl
  · exact Bool.false_ne_true (hunsatisfied.symm.trans h.1)

end Query
end MediaCatalogue

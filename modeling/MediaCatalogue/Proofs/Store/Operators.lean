import MediaCatalogue.Proofs.Document.ExtendedJson
import MediaCatalogue.Proofs.Store.Conditions

/-!
# Operators beside one another

An object of operators on a path asks for all of them. As a filter document it does: it can be read if
each operator can be on its own, with the options beside a pattern, and what passes it is what passes
each. As JSON it does only if none of its operators makes the whole object an instant or a pattern. Where
`$date` stands, or `$regex` with a text, the object is read as that alone, and the other operators are
passed over, whether there are such operators or not. A pattern that stands beside others is read with
them if it is itself an object.
-/

set_option autoImplicit false

namespace MediaCatalogue.Filter

/-- What is kept of an object of operators for one of them: itself, and the options of a pattern. -/
def staysWith (operator name : String) : Bool :=
  name == operator || operator == "$regex" && name == "$options"

/-- One operator out of an object of operators. -/
def alone {α : Type} (operators : Fields α) (operator : String) : Fields α :=
  operators.filter fun o => staysWith operator o.1

section

variable {α : Type} (operators : Fields α)

/-- What is kept for an operator is there as it was. -/
theorem get?_alone {operator name : String} (h : staysWith operator name = true) :
    Fields.get? name (alone operators operator) = Fields.get? name operators := by
  rw [alone, Fields.get?_filter name (staysWith operator), if_pos h]

/-- What is there for one operator is what was there for all, or nothing. -/
theorem get?_alone_eq_or (operator name : String) :
    Fields.get? name (alone operators operator) = Fields.get? name operators ∨
      Fields.get? name (alone operators operator) = none := by
  rw [alone, Fields.get?_filter name (staysWith operator)]
  split
  · exact .inl rfl
  · exact .inr rfl

end

/-- One operator out of an object of operators leaves it in order. -/
theorem sorted_alone {α : Type} {operators : Fields α} (h : Fields.Sorted operators)
    (operator : String) : Fields.Sorted (alone operators operator) :=
  List.Pairwise.filter _ h

/-! ## Filter documents -/

section

variable {path : String} (hpath : isOperator path = false) {operators : Fields Value}

/-- An object of operators has fields, and all of them are operators. -/
theorem areOperators_iff :
    areOperators operators = true ↔
      Fields.names operators ≠ [] ∧ ∀ name ∈ Fields.names operators, isOperator name = true := by
  simp [areOperators, Fields.names]

/-- One operator out of an object of operators is an object of operators. -/
theorem areOperators_alone (h : areOperators operators = true) {operator : String}
    (hmem : operator ∈ Fields.names operators) : areOperators (alone operators operator) = true := by
  rw [areOperators_iff] at h ⊢
  obtain ⟨o, ho, rfl⟩ := List.mem_map.1 hmem
  have halone : o ∈ alone operators o.1 := List.mem_filter.2 ⟨ho, by simp [staysWith]⟩
  refine ⟨List.ne_nil_of_mem (List.mem_map.2 ⟨o, halone, rfl⟩), fun name hname => ?_⟩
  obtain ⟨o', ho', rfl⟩ := List.mem_map.1 hname
  exact h.2 _ (List.mem_map.2 ⟨o', List.mem_of_mem_filter ho', rfl⟩)

include hpath

/-- On its own an operator is read as it is among the others. -/
theorem ofEntry_alone_eq_ok_iff (hsorted : Fields.Sorted operators)
    (h : areOperators operators = true) {operator : String} {operand : Value}
    (hget : Fields.get? operator operators = some operand) (hoptions : operator ≠ "$options")
    (f : Filter) :
    ofEntry path (.object (alone operators operator)) = .ok f ↔
      ofOperatorAmong path operators operator operand = .ok f := by
  have hmem : operator ∈ Fields.names operators :=
    List.mem_map.2 ⟨_, Fields.mem_of_get? hget, rfl⟩
  have hsingle : (alone operators operator).filter (fun o => o.1 != "$options") =
      [(operator, operand)] := by
    rw [← hsorted.filter_name hget, alone, List.filter_filter]
    refine List.filter_congr fun o _ => ?_
    rw [Bool.eq_iff_iff]
    simp only [staysWith, Bool.and_eq_true, Bool.or_eq_true, bne_iff_ne, beq_iff_eq]
    constructor
    · rintro ⟨hne, hname | ⟨-, hoption⟩⟩
      · exact hname
      · exact absurd hoption hne
    · rintro rfl
      exact ⟨hoptions, .inl rfl⟩
  have hcongr : ofOperatorAmong path (alone operators operator) operator operand =
      ofOperatorAmong path operators operator operand :=
    ofOperatorAmong_congr path operator operand fun hregex =>
      get?_alone operators (by simp [staysWith, hregex])
  rw [ofEntry_operators_eq_ok_iff hpath (areOperators_alone h hmem), hsingle, ← hcongr]
  constructor
  · rintro ⟨fs, hfs, rfl⟩
    cases hfs with
    | cons hf hnil =>
      cases hnil
      exact hf
  · exact fun hf => ⟨[f], .cons hf .nil, rfl⟩

variable (hsorted : Fields.Sorted operators) (h : areOperators operators = true)

include hsorted h

/-- The operators can all be read among the others, with a property, when each can be read on its own
with the property. -/
theorem forall_among_iff_forall_alone (P : Filter → Prop) :
    (∀ o ∈ operators.filter fun o => o.1 != "$options",
        ∃ f, ofOperatorAmong path operators o.1 o.2 = .ok f ∧ P f) ↔
      ∀ operator ∈ Fields.names operators, operator ≠ "$options" →
        ∃ f, ofEntry path (.object (alone operators operator)) = .ok f ∧ P f := by
  constructor
  · intro hall operator hmem hoptions
    obtain ⟨operand, hget⟩ := Fields.exists_get?_of_mem_names hmem
    obtain ⟨f, hf, hP⟩ := hall (operator, operand)
      (List.mem_filter.2 ⟨Fields.mem_of_get? hget, by simpa using hoptions⟩)
    exact ⟨f, (ofEntry_alone_eq_ok_iff hpath hsorted h hget hoptions f).2 hf, hP⟩
  · rintro hall ⟨operator, operand⟩ ho
    obtain ⟨hmem, hoptions⟩ := List.mem_filter.1 ho
    have hne : operator ≠ "$options" := by simpa using hoptions
    obtain ⟨f, hf, hP⟩ := hall operator (List.mem_map.2 ⟨_, hmem, rfl⟩) hne
    exact ⟨f, (ofEntry_alone_eq_ok_iff hpath hsorted h (hsorted.get?_of_mem hmem) hne f).1 hf, hP⟩

/-- Operators can be read together if each can be read on its own. -/
theorem entryReadable_operators_iff :
    EntryReadable path (.object operators) ↔
      ∀ operator ∈ Fields.names operators, operator ≠ "$options" →
        EntryReadable path (.object (alone operators operator)) := by
  have halone := forall_among_iff_forall_alone hpath hsorted h fun _ => True
  simp only [and_true] at halone
  simp only [EntryReadable]
  rw [← halone]
  simp only [ofEntry_operators_eq_ok_iff hpath h]
  exact EachReads.exists_combined_iff (fun o : String × Value => ofOperatorAmong path operators o.1 o.2)
    conjunction _

/-- Fields pass operators together if they pass each on its own. -/
theorem entryAccepts_operators_iff (x : Fields Value) :
    EntryAccepts path (.object operators) x ↔
      ∀ operator ∈ Fields.names operators, operator ≠ "$options" →
        EntryAccepts path (.object (alone operators operator)) x := by
  simp only [EntryAccepts]
  rw [← forall_among_iff_forall_alone hpath hsorted h]
  simp only [ofEntry_operators_eq_ok_iff hpath h]
  exact EachReads.exists_combined_passes_iff
    (fun o : String × Value => ofOperatorAmong path operators o.1 o.2) (isMatch_conjunction · x) _

end

/-! ## JSON -/

/-- A filter as which a JSON value is read. -/
def ReadsFrom (json : Json) (f : Filter) : Prop :=
  ∃ document, Fields.ofJson json = .ok document ∧ ofFields document = .ok f

/-- The JSON value that asks for operators on a path. -/
def onPath (path : String) (operators : Fields Json) : Json :=
  .object [(path, .object operators)]

/-- An operator has a part in how the object that it stands in is read from JSON: beside `$date` no other
operator has, and beside a `$regex` with a text only the options. -/
def IsHeeded (operators : Fields Json) (operator : String) : Prop :=
  if (Fields.get? "$date" operators).isSome then operator = "$date"
  else if ((Fields.get? "$regex" operators).bind Json.string?).isSome then operator = "$regex"
  else operator ≠ "$options"

/-- Where an object of operators is read as fields, so is each operator on its own. -/
theorem ofJson_alone_of_fields {operators : Fields Json} (hsorted : Fields.Sorted operators)
    (hdate : Fields.get? "$date" operators = none)
    (hpattern : (Fields.get? "$regex" operators).bind Json.string? = none) {fields : Fields Value}
    (hfields : Value.fieldsOfJson [] operators = .ok fields) (operator : String) :
    Value.ofJson (.object (alone operators operator)) = .ok (.object (alone fields operator)) := by
  have hnodate : Fields.get? "$date" (alone operators operator) = none :=
    (get?_alone_eq_or operators operator "$date").elim (·.trans hdate) id
  have hnopattern : (Fields.get? "$regex" (alone operators operator)).bind Json.string? = none := by
    rcases get?_alone_eq_or operators operator "$regex" with hget | hget
    · rw [hget, hpattern]
    · rw [hget, Option.bind_none]
  have hread : Value.fieldsOfJson [] (alone operators operator) = .ok (alone fields operator) := by
    rw [Value.fieldsOfJson_ok_iff_of_sorted (sorted_alone hsorted operator)]
    exact Fields.filter_forall₂ (R := fun j v => Value.ofJson j = .ok v)
      ((Value.fieldsOfJson_ok_iff_of_sorted hsorted).1 hfields) (staysWith operator)
  rw [Value.ofJson, hnodate]
  dsimp only
  rw [hnopattern]
  dsimp only
  rw [hread]

section

variable {path : String} (hpath : isOperator path = false)

include hpath

/-- The path is no operator, so the whole is read as an entry. -/
theorem readsFrom_onPath_iff {operators : Fields Json} {f : Filter} :
    ReadsFrom (onPath path operators) f ↔
      ∃ v, Value.ofJson (.object operators) = .ok v ∧ ofEntry path v = .ok f := by
  have hdate : path ≠ "$date" := by
    rintro rfl
    exact absurd hpath (by decide)
  have hpattern : path ≠ "$regex" := by
    rintro rfl
    exact absurd hpath (by decide)
  rw [ReadsFrom, onPath, Fields.ofJson, Value.ofJson]
  simp only [Fields.get?, if_neg hdate, if_neg hpattern, Option.bind_none, Value.fieldsOfJson]
  cases Value.ofJson (.object operators) with
  | error e => simp
  | ok v => simp [Fields.insert, ofFields_singleton]

/-- If the object is an instant or a pattern, it is so for one operator, which is read alone. -/
theorem readsFrom_of_ofJson_alone {operators : Fields Json} {operator : String} {f : Filter}
    (hmem : operator ∈ Fields.names operators)
    (hheeded : ∀ name, IsHeeded operators name ↔ name = operator)
    (hsame : Value.ofJson (.object (alone operators operator)) = Value.ofJson (.object operators))
    (hf : ReadsFrom (onPath path operators) f) :
    (∀ name ∈ Fields.names operators, IsHeeded operators name →
        ∃ g, ReadsFrom (onPath path (alone operators name)) g) ∧
      ∀ x, f.isMatch x = true ↔ ∀ name ∈ Fields.names operators, IsHeeded operators name →
        ∃ g, ReadsFrom (onPath path (alone operators name)) g ∧ g.isMatch x = true := by
  have halone : ∀ g, ReadsFrom (onPath path (alone operators operator)) g ↔ g = f := by
    intro g
    rw [readsFrom_onPath_iff hpath] at hf ⊢
    obtain ⟨v, hv, hf⟩ := hf
    simp [hsame, hv, hf, eq_comm]
  simp only [hheeded]
  constructor
  · rintro name - rfl
    exact ⟨f, (halone f).2 rfl⟩
  · intro x
    constructor
    · rintro hx name - rfl
      exact ⟨f, (halone f).2 rfl, hx⟩
    · intro hall
      obtain ⟨g, hg, hx⟩ := hall operator hmem rfl
      rwa [(halone g).1 hg] at hx

/-- **What an object of operators in JSON asks for.** If it can be read as a filter on a path, each of its
operators that has a part in that can be read on its own, with the options beside a pattern, and what
passes the filter is what passes each of these. Unless the object is an instant or a pattern, all its
operators have a part. -/
theorem isMatch_of_readsFrom_onPath {operators : Fields Json} (hsorted : Fields.Sorted operators)
    (hne : Fields.names operators ≠ [])
    (hoperators : ∀ name ∈ Fields.names operators, isOperator name = true) {f : Filter}
    (hf : ReadsFrom (onPath path operators) f) :
    (∀ name ∈ Fields.names operators, IsHeeded operators name →
        ∃ g, ReadsFrom (onPath path (alone operators name)) g) ∧
      ∀ x, f.isMatch x = true ↔ ∀ name ∈ Fields.names operators, IsHeeded operators name →
        ∃ g, ReadsFrom (onPath path (alone operators name)) g ∧ g.isMatch x = true := by
  obtain ⟨v, hv, hentry⟩ := (readsFrom_onPath_iff hpath).1 hf
  rcases Value.ofJson_object_cases hv with ⟨date, t, hdate, hread, rfl⟩ | ⟨pattern, hdate, hpattern, rfl⟩ |
    ⟨fields, hdate, hpattern, hfields, rfl⟩
  · have hmem : "$date" ∈ Fields.names operators := List.mem_map.2 ⟨_, Fields.mem_of_get? hdate, rfl⟩
    refine readsFrom_of_ofJson_alone hpath hmem ?_ ?_ hf
    · intro name
      simp [IsHeeded, hdate]
    · rw [hv, Value.ofJson, get?_alone operators (by decide), hdate]
      simp only [hread]
      rfl
  · obtain ⟨j, hget, -⟩ := Option.bind_eq_some_iff.1 hpattern
    have hmem : "$regex" ∈ Fields.names operators := List.mem_map.2 ⟨_, Fields.mem_of_get? hget, rfl⟩
    refine readsFrom_of_ofJson_alone hpath hmem ?_ ?_ hf
    · intro name
      simp [IsHeeded, hdate, hpattern]
    · have hnodate : Fields.get? "$date" (alone operators "$regex") = none :=
        (get?_alone_eq_or operators "$regex" "$date").elim (·.trans hdate) id
      rw [hv, Value.ofJson, hnodate]
      simp only [get?_alone operators (show staysWith "$regex" "$regex" = true by decide),
        get?_alone operators (show staysWith "$regex" "$options" = true by decide), hpattern]
  · have hstep := (Value.fieldsOfJson_ok_iff_of_sorted hsorted).1 hfields
    have hnames : Fields.names fields = Fields.names operators :=
      Fields.names_forall₂ (R := fun j v => Value.ofJson j = .ok v) hstep
    have hfieldsSorted : Fields.Sorted fields := by
      rw [Fields.sorted_iff_names, hnames]
      exact Fields.sorted_iff_names.1 hsorted
    have hareOperators : areOperators fields = true := by
      rw [areOperators_iff, hnames]
      exact ⟨hne, hoperators⟩
    have hheeded : ∀ name, IsHeeded operators name ↔ name ≠ "$options" := by
      simp [IsHeeded, hdate, hpattern]
    have halone : ∀ name g, ReadsFrom (onPath path (alone operators name)) g ↔
        ofEntry path (.object (alone fields name)) = .ok g := by
      intro name g
      rw [readsFrom_onPath_iff hpath, ofJson_alone_of_fields hsorted hdate hpattern hfields name]
      simp
    simp only [hheeded, halone, ← hnames]
    exact ⟨(entryReadable_operators_iff hpath hfieldsSorted hareOperators).1 ⟨f, hentry⟩, fun x =>
      (entryAccepts_of_ofEntry hentry x).symm.trans
        (entryAccepts_operators_iff hpath hfieldsSorted hareOperators x)⟩

end

/-- What asks for the titles that start in one way, except one of them. -/
def exceptPilot : Fields Json :=
  [("$ne", .string "Pilot"), ("$regex", .string "^P")]

/-- Only the pattern has a part in it. -/
theorem isMatch_of_readsFrom_onPath_exceptPilot :
    ∃ f, ReadsFrom (onPath "title" exceptPilot) f ∧ ∀ x, f.isMatch x = true ↔
      ∃ g, ReadsFrom (onPath "title" [("$regex", .string "^P")]) g ∧ g.isMatch x = true := by
  have hread : ∃ f, ReadsFrom (onPath "title" exceptPilot) f := ⟨_, _, rfl, rfl⟩
  obtain ⟨f, hf⟩ := hread
  have hsorted : Fields.Sorted exceptPilot := by
    unfold Fields.Sorted
    decide
  have hheeded : ∀ name, IsHeeded exceptPilot name ↔ name = "$regex" := by
    simp [IsHeeded, exceptPilot, Fields.get?, Json.string?]
  have halone : alone exceptPilot "$regex" = [("$regex", .string "^P")] := rfl
  have hpath : isOperator "title" = false := by decide
  obtain ⟨-, hmatch⟩ := isMatch_of_readsFrom_onPath hpath hsorted (by decide) (by decide) hf
  refine ⟨f, hf, fun x => ?_⟩
  rw [hmatch x]
  constructor
  · intro hall
    rw [← halone]
    exact hall "$regex" (by decide) ((hheeded _).2 rfl)
  · rintro hpattern name - hname
    rwa [(hheeded name).1 hname, halone]

/-- The title that is excepted passes, though it does not pass the exception on its own. With the pattern
an operator can be read that there is not. -/
theorem readsFrom_onPath_exceptPilot_dropped :
    (∃ f g, ReadsFrom (onPath "title" exceptPilot) f ∧
      ReadsFrom (onPath "title" [("$ne", .string "Pilot")]) g ∧
      f.isMatch [("title", .string "Pilot")] = true ∧
      g.isMatch [("title", .string "Pilot")] = false) ∧
    (∃ f, ReadsFrom (onPath "title" [("$near", .null), ("$regex", .string "^P")]) f) ∧
      ¬ ∃ g, ReadsFrom (onPath "title" [("$near", .null)]) g := by
  obtain ⟨p, hp, hfound⟩ :
      ∃ p, Pattern.ofText? "^P" false = some p ∧ p.isFoundIn "Pilot" = true := by
    have hany : (Pattern.ofText? "^P" false).any (·.isFoundIn "Pilot") = true := by decide +kernel
    cases hp : Pattern.ofText? "^P" false with
    | none => simp [hp] at hany
    | some p => exact ⟨p, rfl, by simpa [hp] using hany⟩
  have hread : ofFields [("title", .regex "^P" false)] = .ok (.found "title" p) := by
    rw [ofFields_singleton, ofEntry_regex (by decide), ofPattern, hp]
  have hresolve : Fields.resolve "title" [("title", .string "Pilot")] = [.string "Pilot"] := rfl
  refine ⟨⟨_, _, ⟨_, rfl, hread⟩, ⟨_, rfl, rfl⟩, ?_, rfl⟩, ⟨_, _, rfl, hread⟩, ?_⟩
  · simp [isMatch, hresolve, anyLeaf, Value.string?, hfound]
  · rintro ⟨g, document, hdocument, hg⟩
    cases hdocument
    cases hg

end MediaCatalogue.Filter

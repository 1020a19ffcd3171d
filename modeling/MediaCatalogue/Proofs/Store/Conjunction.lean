import MediaCatalogue.Store.Matching
import MediaCatalogue.Proofs.Document.Fields

/-!
# Filter documents as conjunctions

A filter document is a conjunction in two ways: of its entries, and in an entry of operators, of
these. Read as a whole it can be read if and only if each part can be on its own, and fields pass it
if and only if they pass each part. With the meaning of single conditions that is all there is to
know about how a filter document is read; what follows about compiled queries never looks into the
reader again.

`$regex` and `$options` are left out of the second way, since they are read together.
-/

set_option autoImplicit false

namespace MediaCatalogue.Filter

/-! ## Reading and passing -/

/-- A filter document can be read. -/
def Readable (document : Fields Value) : Prop :=
  ∃ f, ofFields document = .ok f

/-- An entry of a filter document can be read. -/
def EntryReadable (name : String) (value : Value) : Prop :=
  ∃ f, ofEntry name value = .ok f

/-- A filter document can be read, and fields pass it. -/
def Accepts (document x : Fields Value) : Prop :=
  ∃ f, ofFields document = .ok f ∧ f.isMatch x = true

/-- An entry of a filter document can be read, and fields pass it. -/
def EntryAccepts (name : String) (value : Value) (x : Fields Value) : Prop :=
  ∃ f, ofEntry name value = .ok f ∧ f.isMatch x = true

/-- Fields pass a filter document when they match the filter that it is read as. -/
theorem accepts_iff_isMatch {document : Fields Value} {f : Filter} (h : ofFields document = .ok f)
    (x : Fields Value) : Accepts document x ↔ f.isMatch x = true := by
  constructor
  · rintro ⟨g, hg, hx⟩
    rw [h] at hg
    cases hg
    exact hx
  · exact fun hx => ⟨f, h, hx⟩

/-- Fields pass an entry when they match the filter that it is read as. -/
theorem entryAccepts_of_ofEntry {name : String} {value : Value} {f : Filter}
    (h : ofEntry name value = .ok f) (x : Fields Value) :
    EntryAccepts name value x ↔ f.isMatch x = true := by
  constructor
  · rintro ⟨g, hg, hx⟩
    rw [h] at hg
    cases hg
    exact hx
  · exact fun hx => ⟨f, h, hx⟩

/-! ## Conjunctions -/

/-- Fields pass all of some filters when they pass each. -/
theorem allMatch_iff (fs : List Filter) (x : Fields Value) :
    allMatch fs x = true ↔ ∀ f ∈ fs, f.isMatch x = true := by
  induction fs with
  | nil => simp [allMatch]
  | cons f fs ih => simp [allMatch, ih]

/-- Fields pass the conjunction of some filters when they pass each. -/
theorem isMatch_conjunction (fs : List Filter) (x : Fields Value) :
    (conjunction fs).isMatch x = true ↔ ∀ f ∈ fs, f.isMatch x = true := by
  match fs with
  | [] => simp [conjunction, isMatch]
  | [f] => simp [conjunction]
  | f :: g :: fs => rw [conjunction, isMatch, allMatch_iff] <;> simp

/-- Reading several things one after another, each by `read`. -/
def EachReads {α : Type} (read : α → Except FilterError Filter) (as : List α) (fs : List Filter) : Prop :=
  List.Forall₂ (fun a f => read a = .ok f) as fs

namespace EachReads

/-- Two readers that agree on what there is to read read it as the same filters. -/
theorem congr {α : Type} {read read' : α → Except FilterError Filter} {as : List α}
    (h : ∀ a ∈ as, read a = read' a) {fs : List Filter} : EachReads read as fs ↔ EachReads read' as fs := by
  unfold EachReads
  induction as generalizing fs with
  | nil => simp
  | cons a as ih =>
    rw [List.forall_mem_cons] at h
    simp [List.forall₂_cons_left_iff, h.1, ih h.2]

variable {α : Type} (read : α → Except FilterError Filter)

/-- Several things can be read one after another when each can. -/
theorem exists_iff (as : List α) : (∃ fs, EachReads read as fs) ↔ ∀ a ∈ as, ∃ f, read a = .ok f :=
  exists_forall₂_iff

/-- Fields pass all of several things when they pass each. -/
theorem exists_passes_iff (as : List α) (x : Fields Value) :
    (∃ fs, EachReads read as fs ∧ ∀ f ∈ fs, f.isMatch x = true) ↔
      ∀ a ∈ as, ∃ f, read a = .ok f ∧ f.isMatch x = true := by
  induction as with
  | nil => simpa using ⟨[], List.Forall₂.nil, by simp⟩
  | cons a as ih =>
    rw [List.forall_mem_cons, ← ih]
    constructor
    · rintro ⟨fs, h, hx⟩
      cases h with
      | cons ha has =>
        rw [List.forall_mem_cons] at hx
        exact ⟨⟨_, ha, hx.1⟩, ⟨_, has, hx.2⟩⟩
    · rintro ⟨⟨f, ha, hf⟩, ⟨fs, has, hfs⟩⟩
      exact ⟨f :: fs, List.Forall₂.cons ha has, List.forall_mem_cons.2 ⟨hf, hfs⟩⟩

/-- Several things are read as one filter when each can be read. -/
theorem exists_combined_iff (make : List Filter → Filter) (as : List α) :
    (∃ f fs, EachReads read as fs ∧ make fs = f) ↔ ∀ a ∈ as, ∃ f, read a = .ok f := by
  rw [← exists_iff]
  constructor
  · rintro ⟨_, fs, hfs, -⟩
    exact ⟨fs, hfs⟩
  · rintro ⟨fs, hfs⟩
    exact ⟨_, fs, hfs, rfl⟩

/-- Fields pass the one filter, if it asks for all of several, when they pass each. -/
theorem exists_combined_passes_iff {make : List Filter → Filter} {x : Fields Value}
    (hmake : ∀ fs, (make fs).isMatch x = true ↔ ∀ f ∈ fs, f.isMatch x = true) (as : List α) :
    (∃ f, (∃ fs, EachReads read as fs ∧ make fs = f) ∧ f.isMatch x = true) ↔
      ∀ a ∈ as, ∃ f, read a = .ok f ∧ f.isMatch x = true := by
  rw [← exists_passes_iff]
  constructor
  · rintro ⟨_, ⟨fs, hfs, rfl⟩, hx⟩
    exact ⟨fs, hfs, (hmake fs).1 hx⟩
  · rintro ⟨fs, hfs, hx⟩
    exact ⟨_, ⟨fs, hfs, rfl⟩, (hmake fs).2 hx⟩

end EachReads

/-! ## Entries -/

/-- The entries of a filter document are read one after another. -/
theorem ofEntries_eq_ok_iff (es : List (String × Value)) (fs : List Filter) :
    ofEntries es = .ok fs ↔ EachReads (fun e => ofEntry e.1 e.2) es fs := by
  unfold EachReads
  induction es generalizing fs with
  | nil => cases fs <;> simp [ofEntries]
  | cons e es ih =>
    obtain ⟨name, value⟩ := e
    rw [ofEntries]
    cases h : ofEntry name value with
    | error e => cases fs <;> simp [h]
    | ok f =>
      cases hs : ofEntries es with
      | error e => cases fs <;> simp [← ih, hs]
      | ok rest => cases fs <;> simp [← ih, hs, h]

/-- A filter document is read as the conjunction of its entries. -/
theorem ofFields_eq_ok_iff (document : Fields Value) (f : Filter) :
    ofFields document = .ok f ↔
      ∃ fs, EachReads (fun e => ofEntry e.1 e.2) document fs ∧ conjunction fs = f := by
  rw [ofFields]
  cases h : ofEntries document with
  | error e => simp [Except.map, ← ofEntries_eq_ok_iff, h]
  | ok fs => simp [Except.map, ← ofEntries_eq_ok_iff, h]

/-- A filter document of one entry is read as that entry. -/
theorem ofFields_singleton (name : String) (value : Value) :
    ofFields [(name, value)] = ofEntry name value := by
  rw [ofFields, ofEntries, ofEntries]
  cases ofEntry name value <;> rfl

/-- A filter document can be read when each entry can. -/
theorem readable_iff (document : Fields Value) :
    Readable document ↔ ∀ e ∈ document, EntryReadable e.1 e.2 := by
  simp only [Readable, ofFields_eq_ok_iff]
  exact EachReads.exists_combined_iff (fun e : String × Value => ofEntry e.1 e.2) conjunction document

/-- Fields pass a filter document when they pass each entry. -/
theorem accepts_iff (document x : Fields Value) :
    Accepts document x ↔ ∀ e ∈ document, EntryAccepts e.1 e.2 x := by
  simp only [Accepts, ofFields_eq_ok_iff]
  exact EachReads.exists_combined_passes_iff (fun e : String × Value => ofEntry e.1 e.2)
    (isMatch_conjunction · x) document

/-! ## Operators -/

/-- An operator that means the same whatever stands beside it. -/
def IsPlainOperator (name : String) : Prop :=
  isOperator name = true ∧ name ≠ "$regex" ∧ name ≠ "$options"

instance (name : String) : Decidable (IsPlainOperator name) :=
  inferInstanceAs (Decidable (_ ∧ _ ∧ _))

/-- The condition of one operator on a path, in the midst of others. -/
def ofOperatorAmong (path : String) (operators : Fields Value) (name : String) (operand : Value) :
    Except FilterError Filter :=
  if name = "$elemMatch" then (ofElement operand).map (.element path)
  else
    match ofOperator? path operators name operand with
    | some f => f
    | none => .error (.unsupportedOperator name)

/-- The condition of one operator on a path. -/
def ofNamedOperator (path name : String) (operand : Value) : Except FilterError Filter :=
  if name = "$elemMatch" then (ofElement operand).map (.element path)
  else
    match ofOperator? path [] name operand with
    | some f => f
    | none => .error (.unsupportedOperator name)

/-- Only a pattern asks what stands beside it, and only for its options. -/
theorem ofOperatorAmong_congr (path : String) {operators others : Fields Value} (name : String)
    (operand : Value)
    (h : name = "$regex" → Fields.get? "$options" operators = Fields.get? "$options" others) :
    ofOperatorAmong path operators name operand = ofOperatorAmong path others name operand := by
  have hoperator : ofOperator? path operators name operand = ofOperator? path others name operand := by
    simp only [ofOperator?]
    split
    case h_10 => simp only [optionsIgnoreCase, h rfl]
    all_goals rfl
  rw [ofOperatorAmong, hoperator, ofOperatorAmong]

/-- The first operator that is not `$options` is read before the others. -/
theorem ofOperators_cons (path : String) (operators : Fields Value) {name : String} (operand : Value)
    (hoptions : name ≠ "$options") (os : List (String × Value)) :
    ofOperators path operators ((name, operand) :: os) =
      (ofOperatorAmong path operators name operand).bind fun f =>
        (ofOperators path operators os).map fun fs => f :: fs := by
  rw [ofOperators, if_neg hoptions, ofOperatorAmong]
  by_cases hname : name = "$elemMatch"
  · simp only [if_pos hname]
    cases (ofElement operand).map (element path) with
    | error e => rfl
    | ok f => cases ofOperators path operators os <;> rfl
  · simp only [if_neg hname]
    cases ofOperator? path operators name operand with
    | none => rfl
    | some result =>
      cases result with
      | error e => rfl
      | ok f => cases ofOperators path operators os <;> rfl

/-- The operators are read one after another, the options of a pattern with the pattern. -/
theorem ofOperators_eq_ok_iff (path : String) (operators : Fields Value) (os : List (String × Value))
    (fs : List Filter) :
    ofOperators path operators os = .ok fs ↔
      EachReads (fun o => ofOperatorAmong path operators o.1 o.2)
        (os.filter fun o => o.1 != "$options") fs := by
  unfold EachReads
  induction os generalizing fs with
  | nil => cases fs <;> simp [ofOperators]
  | cons o os ih =>
    obtain ⟨name, operand⟩ := o
    by_cases hoptions : name = "$options"
    · rw [ofOperators, if_pos hoptions, ih]
      simp [hoptions]
    · rw [ofOperators_cons path operators operand hoptions os,
        List.filter_cons_of_pos (by simpa using hoptions)]
      cases hf : ofOperatorAmong path operators name operand with
      | error e => cases fs <;> simp [hf, Except.bind]
      | ok f =>
        cases hs : ofOperators path operators os with
        | error e => cases fs <;> simp [← ih, hs, Except.bind, Except.map]
        | ok rest => cases fs <;> simp [← ih, hs, hf, Except.bind, Except.map]

section

variable {name : String} {operators : Fields Value}

/-- A field is not the name of an operator on clauses. -/
theorem not_clauses (hname : isOperator name = false) : ¬ (name = "$and" ∨ name = "$or") := by
  rintro (rfl | rfl) <;> exact absurd hname (by decide)

/-- An object of operators on a field is read as the conjunction of its operators, options left out. -/
theorem ofEntry_operators_eq_ok_iff (hname : isOperator name = false)
    (h : areOperators operators = true) (f : Filter) :
    ofEntry name (.object operators) = .ok f ↔
      ∃ fs, EachReads (fun o => ofOperatorAmong name operators o.1 o.2)
        (operators.filter fun o => o.1 != "$options") fs ∧ conjunction fs = f := by
  simp only [ofEntry, if_neg (not_clauses hname), hname, h]
  cases hs : ofOperators name operators operators with
  | error e => simp [Except.map, ← ofOperators_eq_ok_iff name operators operators, hs]
  | ok fs => simp [Except.map, ← ofOperators_eq_ok_iff name operators operators, hs]

/-- An object of plain operators is an object of operators. -/
theorem isOperator_of_plain (h : ∀ o ∈ operators, IsPlainOperator o.1) (hne : operators ≠ []) :
    areOperators operators = true := by
  rw [areOperators, Bool.and_eq_true]
  exact ⟨by simpa using hne, List.all_eq_true.2 fun o ho => (h o ho).1⟩

/-- An object of plain operators on a field is read as the conjunction of these, each as it is on its
own. -/
theorem ofEntry_object_eq_ok_iff (hname : isOperator name = false)
    (h : ∀ o ∈ operators, IsPlainOperator o.1) (hne : operators ≠ []) (f : Filter) :
    ofEntry name (.object operators) = .ok f ↔
      ∃ fs, EachReads (fun o => ofNamedOperator name o.1 o.2) operators fs ∧ conjunction fs = f := by
  have hall : operators.filter (fun o => o.1 != "$options") = operators :=
    List.filter_eq_self.2 fun o ho => by simpa using (h o ho).2.2
  have halone : ∀ o ∈ operators, ofOperatorAmong name operators o.1 o.2 = ofNamedOperator name o.1 o.2 :=
    fun o ho => ofOperatorAmong_congr name o.1 o.2 fun hregex => absurd hregex (h o ho).2.1
  rw [ofEntry_operators_eq_ok_iff hname (isOperator_of_plain h hne), hall]
  refine exists_congr fun fs => and_congr_left' (EachReads.congr halone)

/-- An object of one plain operator is read as that operator. -/
theorem ofEntry_single_eq (hname : isOperator name = false) {op : String} (h : IsPlainOperator op)
    (operand : Value) (f : Filter) :
    ofEntry name (.object [(op, operand)]) = .ok f ↔ ofNamedOperator name op operand = .ok f := by
  rw [ofEntry_object_eq_ok_iff hname (by simpa using h) (by simp)]
  constructor
  · rintro ⟨fs, hfs, rfl⟩
    cases hfs with
    | cons hf hnil => cases hnil; exact hf
  · exact fun hf => ⟨[f], List.Forall₂.cons hf List.Forall₂.nil, rfl⟩

/-- An entry of operators can be read when each operator can be read on its own. -/
theorem entryReadable_object_iff (hname : isOperator name = false)
    (h : ∀ o ∈ operators, IsPlainOperator o.1) (hne : operators ≠ []) :
    EntryReadable name (.object operators) ↔
      ∀ o ∈ operators, EntryReadable name (.object [(o.1, o.2)]) := by
  have hsingle : (∀ o ∈ operators, EntryReadable name (.object [(o.1, o.2)])) ↔
      ∀ o ∈ operators, ∃ f, ofNamedOperator name o.1 o.2 = .ok f := by
    refine forall₂_congr fun o ho => exists_congr fun f => ofEntry_single_eq hname (h o ho) o.2 f
  rw [hsingle, EntryReadable]
  simp only [ofEntry_object_eq_ok_iff hname h hne]
  exact EachReads.exists_combined_iff (fun o : String × Value => ofNamedOperator name o.1 o.2)
    conjunction operators

/-- Fields pass an entry of operators when they pass each operator on its own. -/
theorem entryAccepts_object_iff (hname : isOperator name = false)
    (h : ∀ o ∈ operators, IsPlainOperator o.1) (hne : operators ≠ []) (x : Fields Value) :
    EntryAccepts name (.object operators) x ↔
      ∀ o ∈ operators, EntryAccepts name (.object [(o.1, o.2)]) x := by
  have hsingle : (∀ o ∈ operators, EntryAccepts name (.object [(o.1, o.2)]) x) ↔
      ∀ o ∈ operators, ∃ f, ofNamedOperator name o.1 o.2 = .ok f ∧ f.isMatch x = true := by
    refine forall₂_congr fun o ho => exists_congr fun f => and_congr_left' ?_
    exact ofEntry_single_eq hname (h o ho) o.2 f
  rw [hsingle, EntryAccepts]
  simp only [ofEntry_object_eq_ok_iff hname h hne]
  exact EachReads.exists_combined_passes_iff (fun o : String × Value => ofNamedOperator name o.1 o.2)
    (isMatch_conjunction · x) operators

end

end MediaCatalogue.Filter

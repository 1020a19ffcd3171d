import MediaCatalogue.Proofs.Query.Beginning
import Mathlib.Data.List.Permutation

/-!
# Searching for a beginning

The store looks for a beginning with a pattern, the checker compares texts in lower case. This file says of
both what they find, for every beginning and every text. The pattern is made of the letters of the beginning
whatever they mean in patterns, and can always be read, unless its automata are too large; it finds the
texts that begin with these letters in any case, one by one. The checker finds the texts whose lower case
begins with the lower case of the beginning.

So they agree on evenly cased texts. They do not agree on all: what is a beginning of a text need not be one
in lower case, for a capital sigma is brought to lower case as the end of a word in the beginning, and as
what it is in the text.
-/

set_option autoImplicit false

namespace MediaCatalogue

namespace Constraint

/-- The constraint that an attribute begins with a text. -/
def beginningWith (a : Attribute) (beginning : String) : Constraint :=
  { subject := a, operator := .beginning, operands := .strings [beginning] }

variable (a : Attribute) (beginning : String)

/-- On an attribute of texts the constructor makes this constraint. -/
theorem of_beginning (ha : a.valueKind = .string) :
    of a .beginning (.strings [beginning]) = .ok (beginningWith a beginning) :=
  of_eq_ok .beginning ha.symm

/-- The condition of a beginning is a search for the escaped text at the start, in any case. -/
theorem condition_beginningWith :
    (beginningWith a beginning).condition = .ok (some (.regex ("^" ++ Pattern.escape beginning) true)) := rfl

/-- The checker accepts what begins with the text in lower case. -/
theorem accepts_beginningWith_iff (text : String) :
    (beginningWith a beginning).accepts (.string text) = true ↔
      (Text.lower beginning).toList <+: (Text.lower text).toList := by
  simp [accepts, beginningWith, Text.beginsWith_iff]

end Constraint

namespace Filter

variable {name : String} (beginning : String)

/-- The condition of a beginning is read as a search, unless its pattern is too large. -/
theorem ofFields_beginning (hname : isOperator name = false) :
    ofFields [(name, .regex ("^" ++ Pattern.escape beginning) true)] =
      if (Pattern.beginningTree beginning).shape.fits then
        .ok (.found name
          { source := "(?i)" ++ ("^" ++ Pattern.escape beginning)
            expr := Expr.beginning beginning.toList })
      else .error (.invalidPattern ("^" ++ Pattern.escape beginning)) := by
  rw [ofFields_singleton, ofEntry_regex hname, ofPattern, Pattern.ofText?_beginning]
  by_cases hfits : (Pattern.beginningTree beginning).shape.fits = true <;> simp [hfits]

/-- A field with a text passes where the text begins so, letter by letter in any case. -/
theorem isMatch_beginning_iff (hname : isOperator name = false) (hpath : pathSegments name = [name])
    {f : Filter} (hf : ofFields [(name, .regex ("^" ++ Pattern.escape beginning) true)] = .ok f)
    {fields : Fields Value} {text : String} (htext : Fields.get? name fields = some (.string text)) :
    f.isMatch fields = true ↔ Text.BeginsInAnyCase beginning.toList text.toList := by
  have hresolve : Fields.resolve name fields = [.string text] := by
    rw [Record.resolve_name hpath, htext]
    rfl
  rw [ofFields_beginning beginning hname] at hf
  split at hf
  · cases hf
    rw [isMatch, hresolve, ← Expr.isFoundIn_beginning]
    simp [anyLeaf, Value.string?, Pattern.isFoundIn]
  · cases hf

end Filter

namespace Attribute

/-- Attributes with a single text are not those of policies. -/
theorem not_policy_of_single_string :
    ∀ a ∈ all, a.valueKind = .string → a.collection = false → a.target ≠ .policy := by
  decide

end Attribute

/-! ## Patterns that are not too large -/

/-- The ranges of a character in any case, if its case variants have one folded form. -/
theorem Tree.ranges_literalSet (c : Char) (n : Nat) (hn : c.toNat = n) {folded : Nat}
    {sources : List (Nat × Nat)} {variants : List Nat}
    (hsources : (Text.foldings.filter fun f =>
      Text.inRanges [(n, n)] f.1 || Text.inRanges [(n, n)] f.2) = sources)
    (hfolded : (sources.map Prod.snd).eraseDups = [folded])
    (hvariants : Text.caseVariants folded = variants) :
    (literalSet c true).ranges = Text.normalRanges ((n, n) :: variants.map fun m => (m, m)) := by
  subst hn
  have hset : (literalSet c true).ranges = Text.withCaseVariants [(c.toNat, c.toNat)] := rfl
  rw [hset, Text.withCaseVariants, hsources]
  simp only [hfolded, List.flatMap_cons, List.flatMap_nil, hvariants, List.append_nil,
    List.singleton_append]

/-- The pattern of a beginning `s` is not too large. -/
theorem Pattern.fits_beginningTree_s : (beginningTree "s").shape.fits = true := by
  have hs : (Tree.literalSet 's' true).ranges = [(83, 83), (115, 115), (383, 383)] := by
    have hfoldings : (Text.foldings.filter fun f =>
        Text.inRanges [(115, 115)] f.1 || Text.inRanges [(115, 115)] f.2) = [(83, 115), (383, 115)] := by
      decide +kernel
    have hvariants : Text.caseVariants 115 = [115, 83, 383] := by decide +kernel
    rw [Tree.ranges_literalSet 's' 115 rfl hfoldings (by decide) hvariants]
    simp [Text.normalRanges, List.mergeSort, List.MergeSort.Internal.splitInTwo, Text.addRange]
  have hshape : (beginningTree "s").shape =
      .row [.anchor .textStart, .chars [(83, 83), (115, 115), (383, 383)]] := by
    simp [beginningTree, Tree.shape, Tree.shapes, hs, Shape.ofRanges, Shape.ofRow, Shape.before]
  rw [hshape]
  cbv

/-- The pattern of a beginning of capital alpha and sigma is not too large. -/
theorem Pattern.fits_beginningTree_alphaSigma : (beginningTree "ΑΣ").shape.fits = true := by
  have halpha : (Tree.literalSet 'Α' true).ranges = [(913, 913), (945, 945)] := by
    have hfoldings : (Text.foldings.filter fun f =>
        Text.inRanges [(913, 913)] f.1 || Text.inRanges [(913, 913)] f.2) = [(913, 945)] := by
      decide +kernel
    have hvariants : Text.caseVariants 945 = [945, 913] := by decide +kernel
    rw [Tree.ranges_literalSet 'Α' 913 rfl hfoldings (by decide) hvariants]
    simp [Text.normalRanges, List.mergeSort, List.MergeSort.Internal.splitInTwo, Text.addRange]
  have hsigma : (Tree.literalSet 'Σ' true).ranges = [(931, 931), (962, 963)] := by
    have hfoldings : (Text.foldings.filter fun f =>
        Text.inRanges [(931, 931)] f.1 || Text.inRanges [(931, 931)] f.2) = [(931, 963)] := by
      decide +kernel
    have hvariants : Text.caseVariants 963 = [963, 931, 962] := by decide +kernel
    rw [Tree.ranges_literalSet 'Σ' 931 rfl hfoldings (by decide) hvariants]
    simp [Text.normalRanges, List.mergeSort, List.MergeSort.Internal.splitInTwo, Text.addRange]
  have hshape : (beginningTree "ΑΣ").shape =
      .row [.anchor .textStart, .chars [(913, 913), (945, 945)], .chars [(931, 931), (962, 963)]] := by
    simp [beginningTree, Tree.shape, Tree.shapes, halpha, hsigma, Shape.ofRanges, Shape.ofRow, Shape.before]
  rw [hshape]
  cbv

/-! ## What is found -/

/-- **Searching for a beginning.** The constraint has a condition on its field, which can be read unless
the pattern is too large. A field with a text passes it if and only if the text begins with the letters of
the beginning in any case, and the checker accepts the text if and only if it begins so in lower case. On
evenly cased texts the two say the same. -/
theorem beginning_in_store_and_checker {a : Attribute} (ha : a ∈ Attribute.all)
    (hkind : a.valueKind = .string) (hsingle : a.collection = false)
    (hstored : (EntityPath.ofKind? a.target).isSome = true) (beginning : String) :
    ∃ c condition, Constraint.of a .beginning (.strings [beginning]) = .ok c ∧
      (∃ path, c.subject.path = .ok path) ∧ c.condition = .ok (some condition) ∧
      ((∃ f, Filter.ofFields [(a.fieldName, condition)] = .ok f) ↔
        (Pattern.beginningTree beginning).shape.fits = true) ∧
      ∀ f, Filter.ofFields [(a.fieldName, condition)] = .ok f →
        ∀ (fields : Fields Value) (text : String), Fields.get? a.fieldName fields = some (.string text) →
          (f.isMatch fields = true ↔ Text.BeginsInAnyCase beginning.toList text.toList) ∧
          (c.accepts (.string text) = true ↔ (Text.lower beginning).toList <+: (Text.lower text).toList) ∧
          (Text.IsEvenlyCased beginning → Text.IsEvenlyCased text →
            f.isMatch fields = c.accepts (.string text)) := by
  have hname : Filter.isOperator a.fieldName = false := Attribute.isOperator_fieldName a ha
  have hpath : pathSegments a.fieldName = [a.fieldName] :=
    Attribute.pathSegments_fieldName a ha (Attribute.not_policy_of_single_string a ha hkind hsingle)
  obtain ⟨path, hplace⟩ := Option.isSome_iff_exists.1 hstored
  refine ⟨_, _, Constraint.of_beginning a beginning hkind, ⟨path, (a.path_eq_ok_iff path).2 hplace⟩,
    Constraint.condition_beginningWith a beginning, ?_, fun f hf fields text htext => ?_⟩
  · rw [Filter.ofFields_beginning beginning hname]
    split <;> simp_all
  · have hstore := Filter.isMatch_beginning_iff beginning hname hpath hf htext
    have hchecker := Constraint.accepts_beginningWith_iff a beginning text
    refine ⟨hstore, hchecker, fun hbeginning heven => ?_⟩
    rw [Bool.eq_iff_iff, hstore, hchecker]
    exact Text.beginsInAnyCase_iff_of_isEvenlyCased hbeginning heven

/-- A title with `S` in front begins with `s` in the store and in the checker, one with the long `ſ` in the
store only. -/
theorem beginning_in_store_and_checker_s :
    ∃ c condition f,
      Constraint.of ⟨"title", "title", .content, .string, false⟩ .beginning (.strings ["s"]) = .ok c ∧
      c.condition = .ok (some condition) ∧ Filter.ofFields [("title", condition)] = .ok f ∧
      f.isMatch [("title", .string "Star")] = true ∧ c.accepts (.string "Star") = true ∧
      f.isMatch [("title", .string "ſtar")] = true ∧ c.accepts (.string "ſtar") = false := by
  obtain ⟨c, condition, hc, -, hcondition, hreads, hfinds⟩ :=
    beginning_in_store_and_checker (a := ⟨"title", "title", .content, .string, false⟩) (by decide) rfl rfl rfl
      "s"
  obtain ⟨f, hf⟩ := hreads.2 Pattern.fits_beginningTree_s
  obtain ⟨hstore, -, hagree⟩ := hfinds f hf [("title", .string "Star")] "Star" rfl
  obtain ⟨hstore', hchecker', -⟩ := hfinds f hf [("title", .string "ſtar")] "ſtar" rfl
  have hbegins : f.isMatch [("title", .string "Star")] = true :=
    hstore.2 ⟨['S'], "tar".toList, rfl, .cons (by unfold Text.SameLetter; decide +kernel) .nil⟩
  have heven := hagree (Text.isEvenlyCased_of_isAscii (by decide)) (Text.isEvenlyCased_of_isAscii (by decide))
  refine ⟨c, condition, f, hc, hcondition, hf, hbegins, heven ▸ hbegins, ?_, ?_⟩
  · exact hstore'.2 ⟨['ſ'], "tar".toList, rfl, .cons (by unfold Text.SameLetter; decide +kernel) .nil⟩
  · rw [Bool.eq_false_iff, ne_eq, hchecker']
    decide +kernel

/-- A title does not begin with its own first letters in the checker when a capital sigma is the last of
them: in lower case it ends a word in the beginning, but not in the title. -/
theorem beginning_alphaSigma_not_in_checker :
    ∃ c condition f,
      Constraint.of ⟨"title", "title", .content, .string, false⟩ .beginning (.strings ["ΑΣ"]) = .ok c ∧
      c.condition = .ok (some condition) ∧ Filter.ofFields [("title", condition)] = .ok f ∧
      "ΑΣΑ".toList = "ΑΣ".toList ++ ['Α'] ∧ f.isMatch [("title", .string "ΑΣΑ")] = true ∧
      c.accepts (.string "ΑΣΑ") = false := by
  have hname : Filter.isOperator "title" = false := by decide
  have hf := Filter.ofFields_beginning "ΑΣ" hname
  rw [if_pos Pattern.fits_beginningTree_alphaSigma] at hf
  refine ⟨_, _, _, Constraint.of_beginning _ _ rfl, Constraint.condition_beginningWith _ _, hf, rfl, ?_, ?_⟩
  · refine (Filter.isMatch_beginning_iff "ΑΣ" hname (by decide) hf rfl).2 ⟨['Α', 'Σ'], ['Α'], rfl, ?_⟩
    exact .cons (by unfold Text.SameLetter; decide +kernel)
      (.cons (by unfold Text.SameLetter; decide +kernel) .nil)
  · rw [Bool.eq_false_iff, ne_eq, Constraint.accepts_beginningWith_iff]
    decide +kernel

end MediaCatalogue

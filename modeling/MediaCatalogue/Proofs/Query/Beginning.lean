import MediaCatalogue.Proofs.Pattern.Literal
import MediaCatalogue.Proofs.Query.Conditions
import MediaCatalogue.Proofs.Text.Folding

/-!
# Texts to begin with

The condition of a beginning is a pattern and passes over case by case variants of single
characters; the checker brings both texts to lower case. A text that passes the condition begins
with the first text of the constraint in any case. If both are ASCII texts, the checker says the
same; elsewhere it may not: the long `ſ` is a case variant of `s`, but in lower case it stays as it
is.
-/

set_option autoImplicit false

namespace MediaCatalogue

namespace Text

/-- The checker accepts what begins with a text in lower case. -/
theorem beginsWith_iff {text first : String} :
    Constraint.beginsWith text first = true ↔ (lower first).toList <+: (lower text).toList := by
  rw [Constraint.beginsWith, List.isPrefixOf_iff_prefix]

/-- An ASCII text that begins with another in any case does so in lower case. -/
theorem beginsWith_of_beginsInAnyCase {text first : String} (hfirst : IsAscii first) (htext : IsAscii text)
    (h : BeginsInAnyCase first.toList text.toList) : Constraint.beginsWith text first = true :=
  beginsWith_iff.2 <| (beginsInAnyCase_iff_of_isEvenlyCased (isEvenlyCased_of_isAscii hfirst)
    (isEvenlyCased_of_isAscii htext)).1 h

end Text

namespace Constraint

/-- A text is among what an entity has for the attribute of a constraint. -/
def HasText {α : Type} [Queryable α] (c : Constraint) (e : α) (text : String) : Prop :=
  ∃ v ∈ Queryable.attribute? c.subject e, .string text ∈ v.scalars

section

variable {α : Type} [Queryable α] {path : EntityPath} {fields : Fields Value} {e : α}
  (hstores : Stores path fields e) (hkinds : AnswersInKind path e)
  {c : Constraint} (hknown : c.subject ∈ Attribute.all)
  (hpath : EntityPath.ofKind? c.subject.target = some path)
  {condition : Value} (hc : c.condition = .ok (some condition))

include hstores hkinds hknown hpath hc

/-- An entity that passes the condition of a beginning, where it is stored, has a text that begins
with the first of the constraint in any case. -/
theorem exists_text_of_passes (hop : c.operator = .beginning) (htyped : c.IsTyped)
    (h : Filter.EntryAccepts c.subject.fieldName condition fields) :
    ∃ first rest text, c.operands = .strings (first :: rest) ∧ c.HasText e text ∧
      Text.BeginsInAnyCase first.toList text.toList := by
  obtain ⟨first, rest, hoperands, hadmits⟩ : ∃ first rest, c.operands = .strings (first :: rest) ∧
      c.admits = fun u => (Pattern.ofText? ("^" ++ Pattern.escape first) true).any fun p =>
        u.string?.any p.isFoundIn := by
    rcases condition_cases hc with ⟨_, -, ho, -⟩ | ⟨_, -, ho, -⟩ | ⟨_, -, ho, -⟩ | ⟨_, -, ho, -⟩ |
      ⟨s, -, -, ⟨ss, hss⟩, hadmits⟩
    · simp [hop] at ho
    · simp [hop] at ho
    · simp [hop] at ho
    · simp [hop] at ho
    · exact ⟨s, ss, hss, hadmits⟩
  obtain ⟨v, hv, s, hs, htest⟩ := (passes_iff hstores hknown hpath hc).1 h
  have hkind : s.kind = .string := by
    rw [(hkinds _ hknown hpath v hv s hs).1, ← htyped, hoperands]
    rfl
  cases s with
  | string text =>
    rw [hadmits, Option.any_eq_true] at htest
    obtain ⟨p, hp, hfound⟩ := htest
    exact ⟨first, rest, text, hoperands, ⟨v, hv, hs⟩,
      (Pattern.isFoundIn_of_ofText? hp text).1 (by simpa [Scalar.toValue, Value.string?] using hfound)⟩
  | _ => cases hkind

end

/-- If both texts are ASCII, the checker accepts what begins with the first text in any case. -/
theorem holdsOf_of_beginsInAnyCase {α : Type} [Queryable α] {c : Constraint} {e : α} {first text : String}
    {rest : List String} (hop : c.operator = .beginning) (hoperands : c.operands = .strings (first :: rest))
    (htext : c.HasText e text) (hfirst : Text.IsAscii first) (hascii : Text.IsAscii text)
    (h : Text.BeginsInAnyCase first.toList text.toList) : c.holdsOf e = true := by
  obtain ⟨v, hv, hs⟩ := htext
  refine (holdsOf_iff e c).2 ⟨v, hv, _, hs, ?_⟩
  simp [accepts, hop, hoperands, Text.beginsWith_of_beginsInAnyCase hfirst hascii h]

end Constraint
end MediaCatalogue

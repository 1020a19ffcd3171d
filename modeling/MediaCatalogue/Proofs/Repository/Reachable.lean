import MediaCatalogue.Proofs.Record.RoundTrip
import MediaCatalogue.Repository.Basic

/-!
# Repositories that come about by writing

A repository is reached by writing content, one piece after another, whatever comes of each write.
What can be said of a document in such a repository is said of the content that is read from it:
items and containers are in the one collection, groups in the other.
-/

set_option autoImplicit false

namespace MediaCatalogue

/-- Every document of the collection is that of some content of a sort. -/
def Collection.HoldsOnly (P : Content → Prop) (c : Collection) : Prop :=
  ∀ x ∈ c.documents, ∃ content, P content ∧ x.fields = content.toDocument.fields

namespace Content

/-- The content is a group. -/
def IsGroup : Content → Prop
  | .group _ _ => True
  | _ => False

/-- What is stored for an item or container are items and containers. -/
theorem not_isGroup_of_mem_stored {c x : Content} (hc : ¬ c.IsGroup) (hx : x ∈ c.stored) :
    ¬ x.IsGroup := by
  cases c with
  | item i =>
    rw [List.mem_singleton.1 hx]
    exact hc
  | group d ms => exact absurd trivial hc
  | container c ms =>
    rw [stored, List.mem_append, List.mem_filterMap, List.mem_singleton] at hx
    rcases hx with ⟨m, -, hm⟩ | rfl
    · cases m <;> simp [asMemberOf?] at hm
      subst hm
      simp [IsGroup]
    · exact hc

/-- A document with the fields of a piece of content is read as that content. -/
theorem ofDocument_eq {x : Document} {c : Content} (h : x.fields = c.toDocument.fields) :
    ofDocument x = .ok c := by
  rw [ofDocument, h]
  exact c.ofDocument_toDocument

end Content

namespace Repository

/-- The repositories that come about by writing content, one piece after another, from the empty
one. A write that fails has stored what came before the failure. -/
inductive Reachable : Repository → Prop where
  | empty : Reachable {}
  | write {r : Repository} (c : Content) : Reachable r → Reachable (r.write c).1

/-- Items and containers are in one collection, groups in the other. -/
structure IsSorted (r : Repository) : Prop where
  content : r.content.HoldsOnly fun c => ¬ c.IsGroup
  groups : r.groups.HoldsOnly Content.IsGroup

end Repository

end MediaCatalogue

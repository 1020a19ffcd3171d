import MediaCatalogue.Proofs.Query.Pruning

/-!
# Why results are rejected

Trimming empties nested lists for soft constraints and for hard ones, but it rejects a result only when
nothing is left of it and a hard constraint asks for something that could have been there. So to every
result of an allowed publisher that is missing there is a hard constraint, not one that holds of
everything, about a kind of entity that can be nested in the result. Constraints on titles and other fields
of content, on containers, on groups and on persons are not of these kinds: they take members out of
results, and never a result.
-/

set_option autoImplicit false

namespace MediaCatalogue

namespace Content

/-- The kinds of what can be nested in content, to any depth: versions and what is beneath them in an item,
and items besides in a container or group. -/
def nestedKinds : Content → List EntityKind
  | .item _ => [.version, .broadcast, .encoding, .location, .policy]
  | .container _ _ => [.item, .episode, .version, .broadcast, .encoding, .location, .policy]
  | .group _ _ => [.item, .episode, .version, .broadcast, .encoding, .location, .policy]

/-- Containers and groups can be nested too, but they are not asked for there. -/
theorem not_mem_of_mem_nestedKinds (c : Content) : ∀ kind ∈ c.nestedKinds,
    kind ∉ [EntityKind.content, .container, .brand, .series, .contentGroup, .person] := by
  cases c <;> rw [nestedKinds] <;> decide

end Content

namespace TrimScope

/-- A result has a value where no hard constraint is about what can be nested in it. -/
theorem keepsResult_of_not_isAbout {s : TrimScope} {c : Content} (habout : ¬ s.IsAbout c.nestedKinds) :
    s.KeepsResult c := by
  cases c with
  | item i => exact (s.keepsVersions_iff i.versions).2 (Or.inr habout)
  | container about ms => exact Or.inr habout
  | group d ms => exact Or.inr habout

/-- The scope of a query is about some kinds when a hard constraint of the query that restricts
something has one of them as its target. -/
theorem isAbout_ofQuery_iff {q : Query} {kinds : List EntityKind} :
    (ofQuery q).IsAbout kinds ↔
      ∃ k ∈ q.constraints, k.soft = false ∧ k.isAlwaysTrue = false ∧ k.subject.target ∈ kinds := by
  simp only [IsAbout, ofQuery, List.mem_filter, Bool.not_eq_true']
  constructor
  · rintro ⟨k, ⟨⟨hk, halways⟩, hhard⟩, htarget⟩
    exact ⟨k, hk, hhard, halways, htarget⟩
  · rintro ⟨k, hk, hhard, halways, htarget⟩
    exact ⟨k, ⟨⟨hk, halways⟩, hhard⟩, htarget⟩

end TrimScope

namespace Query

variable {q : Query} {c : Content}

/-- To a result that is rejected there is a hard constraint about something that can be nested in it. -/
theorem exists_hard_of_rejected (hnothing : q.matchesNothing = false) (hadmits : q.Admits c)
    (h : q.trim true [c] = []) :
    ∃ k ∈ q.constraints, k.soft = false ∧ k.isAlwaysTrue = false ∧ k.subject.target ∈ c.nestedKinds := by
  rw [← TrimScope.isAbout_ofQuery_iff]
  by_contra habout
  have hkeeps : ∀ d ∈ [c], q.Admits d → (TrimScope.ofQuery q).KeepsResult d :=
    List.forall_mem_singleton.2 fun _ => TrimScope.keepsResult_of_not_isAbout habout
  rw [q.trim_of_keepsResult true hnothing hkeeps, List.filter_cons_of_pos (by simpa using hadmits)] at h
  cases h

/-- **A result is rejected only by a hard constraint that concerns it.** Where the hard constraints, but
for those that hold of everything, are about content in general, containers, groups or persons, there is
one result for each piece of content with an allowed publisher, in order: the same content, with some of
what is nested in it taken out. -/
theorem trim_rejects_only_by_concern (q : Query) (cs : List Content) (hnothing : q.matchesNothing = false)
    (hhard : ∀ k ∈ q.constraints, k.soft = false → k.isAlwaysTrue = false →
      k.subject.target ∈ [.content, .container, .brand, .series, .contentGroup, .person]) :
    List.Forall₂ (fun left c => left.uri = c.uri ∧ left.IsPruningOf c) (q.trim true cs)
      (cs.filter fun c => q.allowsPublisher c.publisher) := by
  have habout : ∀ c : Content, ¬ (TrimScope.ofQuery q).IsAbout c.nestedKinds := by
    intro c
    rw [TrimScope.isAbout_ofQuery_iff]
    rintro ⟨k, hk, hsoft, halways, hnested⟩
    exact c.not_mem_of_mem_nestedKinds _ hnested (hhard k hk hsoft halways)
  have hkeeps : ∀ c ∈ cs, q.Admits c → (TrimScope.ofQuery q).KeepsResult c := fun c _ _ =>
    TrimScope.keepsResult_of_not_isAbout (habout c)
  have hallowed : (cs.filter fun c => q.allowsPublisher c.publisher) = cs.filter fun c => q.Admits c :=
    List.filter_congr fun c _ => by simp [← q.allowsPublisher_iff]
  rw [q.trim_of_keepsResult true hnothing hkeeps, hallowed, List.forall₂_map_left_iff, List.forall₂_same]
  intro c _
  have huri : ((TrimScope.ofQuery q).pruned c).uri = c.uri :=
    congrArg Described.canonicalUri ((TrimScope.ofQuery q).described_pruned c)
  exact ⟨huri, (TrimScope.ofQuery q).isPruningOf_pruned c⟩

/-- Content of some title, repeated or not, and what is available of it. -/
def titledAvailableQuery : Query :=
  { constraints :=
      [{ subject := { name := "title", field := "title", target := .content, valueKind := .string },
         operator := .beginning, operands := .strings ["East"] },
       { subject := { name := "broadcast.repeat", field := "repeat", target := .broadcast,
                      valueKind := .boolean },
         operator := .equals, operands := .booleans [true, false] },
       { subject := { name := "location.available", field := "available", target := .location,
                      valueKind := .boolean },
         operator := .equals, operands := .booleans [true], soft := true }] }

/-- A brand with an item of another title, which goes, and an item that can be had nowhere: both stay. What
has no publisher goes. -/
theorem trim_titledAvailableQuery :
    let brand : Content := brandWith [versionLasting 10 [{ available := false }]]
    let gone (locations : List Location) : Content :=
      .item { described := { canonicalUri := "/gone", publisher := some .bbc }
              versions := [versionLasting 10 locations] }
    titledAvailableQuery.trim true [brand, .item {}, gone [{ available := false }]] =
        [.container { described := { publisher := some .bbc }, kind := .brand } [], gone []] ∧
      List.Forall₂ (fun left c => left.uri = c.uri ∧ left.IsPruningOf c)
        (titledAvailableQuery.trim true [brand, .item {}, gone [{ available := false }]])
        [brand, gone [{ available := false }]] := by
  intro brand gone
  refine ⟨rfl, trim_rejects_only_by_concern titledAvailableQuery _ rfl ?_⟩
  decide

end Query

end MediaCatalogue

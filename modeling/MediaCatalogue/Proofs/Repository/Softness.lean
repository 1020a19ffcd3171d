import MediaCatalogue.Proofs.Query.Pruning
import MediaCatalogue.Proofs.Repository.Fetching

/-!
# Soft constraints

A soft constraint is meant to narrow what is nested in a result and never to reject the result. Of
the two steps in which a query is answered only trimming knows of strengths. Trimming keeps to what
is meant: where no hard constraint is about items or what is beneath them, it rejects results for
their publishers only. But the filter document holds the conditions of soft constraints as well, so
that content of which nothing passes them is not fetched in the first place. Results stay as they
were, but for what is nested in them, exactly when the same content is fetched.
-/

set_option autoImplicit false

namespace MediaCatalogue

open Content

namespace Query

/-- Constraints have conditions if they do with further ones behind them. -/
theorem exists_placedConditions_of_append {cs added : List Constraint} {ds : List PlacedCondition}
    (h : placedConditions (cs ++ added) = .ok ds) : ∃ before, placedConditions cs = .ok before := by
  induction cs generalizing ds with
  | nil => exact ⟨[], rfl⟩
  | cons c cs ih =>
    rw [List.cons_append, placedConditions] at h
    rw [placedConditions]
    cases hpath : c.subject.path with
    | error e => simp [hpath] at h
    | ok path =>
      cases hfound : c.condition with
      | error e => simp [hpath, hfound] at h
      | ok found =>
        cases hrest : placedConditions (cs ++ added) with
        | error e => simp [hpath, hfound, hrest] at h
        | ok rest =>
          obtain ⟨before, hbefore⟩ := ih hrest
          cases found <;> simp [hbefore]

variable {q : Query} {added : List Constraint}

/-- A query compiles if it does so with further constraints. -/
theorem exists_compile_of_withConstraints
    (h : ∃ document, (q.withConstraints added).compile = .ok document) :
    ∃ document, q.compile = .ok document := by
  obtain ⟨document, hcompile⟩ := h
  have hnothing : q.matchesNothing = false :=
    matchesNothing_of_compile (q := q.withConstraints added) hcompile
  cases hds : placedConditions (q.withConstraints added).constraints with
  | error e =>
    have hsame : (q.withConstraints added).matchesNothing = q.matchesNothing := rfl
    simp [compile, hsame, hnothing, hds] at hcompile
  | ok ds =>
    obtain ⟨before, hbefore⟩ := exists_placedConditions_of_append hds
    exact ⟨_, compile_eq hnothing hbefore⟩

/-- A query whose hard constraints concern no items trims in a scope that is not about items. -/
theorem not_isAboutItems_of_concerns (h : concerns q.hard EntityKind.itemOrBelow = false) :
    ¬ (TrimScope.ofQuery q).IsAboutItems := by
  have habout : concerns (TrimScope.ofQuery q).hard EntityKind.itemOrBelow = true ↔
      (TrimScope.ofQuery q).IsAboutItems :=
    (TrimScope.ofQuery q).concerns_iff _ _ (by intro t; cases t <;> decide)
  rw [← habout]
  intro hconcerns
  obtain ⟨k, hk, hkinds⟩ := List.any_eq_true.1 hconcerns
  have hhard : k ∈ q.hard := by
    simp only [TrimScope.ofQuery, List.mem_filter] at hk
    exact List.mem_filter.2 ⟨hk.1.1, hk.2⟩
  rw [concerns, List.any_eq_false] at h
  exact h k hhard hkinds

/-- Soft constraints change nothing of what hard constraints are about. -/
theorem hard_withConstraints (hsoft : ∀ k ∈ added, k.soft = true) :
    (q.withConstraints added).hard = q.hard := by
  have hnone : added.filter (fun k => !k.soft) = [] :=
    List.filter_eq_nil_iff.2 fun k hk => by simp [hsoft k hk]
  rw [hard, withConstraints, List.filter_append, hnone, List.append_nil]
  rfl

end Query

/-- Of some content that has each uri once, two choices with the same uris are the same. -/
theorem eq_of_map_uri_eq {content as bs : List Content} (hnodup : (content.map uri).Nodup)
    (has : as ⊆ content) (hbs : bs ⊆ content) (h : as.map uri = bs.map uri) : as = bs := by
  induction as generalizing bs with
  | nil => exact (List.map_eq_nil_iff.1 h.symm).symm
  | cons a as ih =>
    cases bs with
    | nil => cases h
    | cons b bs =>
      rw [List.map_cons, List.map_cons, List.cons.injEq] at h
      rw [List.cons_subset] at has hbs
      rw [List.inj_on_of_nodup_map hnodup has.1 hbs.1 h.1, ih has.2 hbs.2 h.2]

namespace Discovery

/-- The content that a query can be answered with, in order: what matches its filter document and is
of an allowed publisher. -/
def Eligible (d : Discovery) (q : Query) (r : Repository) (eligible : List Content) : Prop :=
  ∃ matched, d.Matched q r matched ∧ eligible = matched.filter fun c => (d.restrict q).Admits c

section

variable {d : Discovery} {q : Query} {r : Repository} {content groups : List Content}
  (hkeeps : r.Keeps content groups)

include hkeeps

/-- What a query can be answered with is some of the content that is kept. -/
theorem Eligible.subset {eligible : List Content} (h : d.Eligible q r eligible) :
    eligible ⊆ content := by
  obtain ⟨matched, hmatched, rfl⟩ := h
  intro c hc
  have hc : c ∈ matched := List.mem_of_mem_filter hc
  cases hnothing : q.matchesNothing with
  | true =>
    rw [Matched, if_pos hnothing] at hmatched
    rw [hmatched] at hc
    cases hc
  | false =>
    obtain ⟨f, g, -, -, rfl⟩ := (matched_iff hkeeps hnothing).1 hmatched
    exact List.mem_of_mem_filter hc

/-- Where no hard constraint is about items or what is beneath them, there is a result for all
content that the query can be answered with. -/
theorem exists_eligible_of_not_concerns (hhard : concerns q.hard EntityKind.itemOrBelow = false)
    (hselection : q.selection.restricts = false) {found : List Content}
    (h : (d.discover q r).2 = .ok found) :
    ∃ eligible, d.Eligible q r eligible ∧ found = eligible.map (TrimScope.ofQuery q).pruned := by
  cases hnothing : q.matchesNothing with
  | true =>
    rw [discover, if_pos hnothing] at h
    cases h
    exact ⟨[], ⟨[], by rw [Matched, if_pos hnothing], rfl⟩, rfl⟩
  | false =>
    obtain ⟨fetched, hfetched, -, rfl⟩ := (discover_ok_iff hkeeps hnothing).1 h
    refine ⟨_, ⟨fetched, (matched_iff hkeeps hnothing).2 hfetched, rfl⟩, ?_⟩
    have habout : ¬ (TrimScope.ofQuery (d.restrict q)).IsAboutItems := by
      rw [d.ofQuery_restrict]
      exact Query.not_isAboutItems_of_concerns hhard
    rw [Selection.apply_of_not_restricts hselection,
      Query.trim_of_not_isAboutItems _ _ habout ((d.matchesNothing_restrict q).trans hnothing),
      d.ofQuery_restrict]

end

/-- **What soft constraints do to an answer.** Where no hard constraint is about items or what is
beneath them, there is a result for all content of an allowed publisher that matches the filter
document, with the soft constraints and without. So the uris of the results are unchanged if and only
if the same content matches, and then the results differ in what is nested in them only. -/
theorem discover_withConstraints_soft (d : Discovery) (q : Query) (r : Repository)
    (added : List Constraint) (hr : r.Reachable) (hsoft : ∀ k ∈ added, k.soft = true)
    (hhard : concerns q.hard EntityKind.itemOrBelow = false)
    (hselection : q.selection.restricts = false) :
    ((∀ k ∈ (q.withConstraints added).constraints, k.subject ∈ Attribute.all ∧ k.HasPattern) →
        (∃ document, (q.withConstraints added).compile = .ok document) →
        d.IsWithinLimit q r → d.IsWithinLimit (q.withConstraints added) r →
        ∃ found narrowed, (d.discover q r).2 = .ok found ∧
          (d.discover (q.withConstraints added) r).2 = .ok narrowed) ∧
      ∀ found narrowed, (d.discover q r).2 = .ok found →
        (d.discover (q.withConstraints added) r).2 = .ok narrowed →
        ∃ eligible eligible', d.Eligible q r eligible ∧
          d.Eligible (q.withConstraints added) r eligible' ∧
          found.map uri = eligible.map uri ∧ narrowed.map uri = eligible'.map uri ∧
          (narrowed.map uri = found.map uri ↔ eligible' = eligible) ∧
          (narrowed.map uri = found.map uri → List.Forall₂ IsPruningOf narrowed found) := by
  obtain ⟨content, groups, hkeeps⟩ := hr.exists_keeps
  constructor
  · intro hconstraints hcompiles hlimit hlimit'
    have hmem : ∀ k ∈ q.constraints, k ∈ (q.withConstraints added).constraints := fun k hk =>
      List.mem_append_left added hk
    obtain ⟨found, hfound⟩ := exists_discover_ok hkeeps (fun k hk => (hconstraints k (hmem k hk)).1)
      (fun k hk => (hconstraints k (hmem k hk)).2) (Query.exists_compile_of_withConstraints hcompiles)
      hselection hlimit
    obtain ⟨narrowed, hnarrowed⟩ := exists_discover_ok hkeeps (fun k hk => (hconstraints k hk).1)
      (fun k hk => (hconstraints k hk).2) hcompiles hselection hlimit'
    exact ⟨found, narrowed, hfound, hnarrowed⟩
  · intro found narrowed hfound hnarrowed
    have hhard' : concerns (q.withConstraints added).hard EntityKind.itemOrBelow = false := by
      rw [Query.hard_withConstraints hsoft, hhard]
    obtain ⟨eligible, heligible, hresults⟩ :=
      exists_eligible_of_not_concerns hkeeps hhard hselection hfound
    obtain ⟨eligible', heligible', hresults'⟩ :=
      exists_eligible_of_not_concerns hkeeps hhard' hselection hnarrowed
    -- trimming leaves the uris as they are
    have huri : ∀ s : TrimScope, uri ∘ s.pruned = uri := fun s => funext fun c =>
      congrArg Described.canonicalUri (s.described_pruned c)
    have huris : found.map uri = eligible.map uri := by
      rw [hresults, List.map_map, huri]
    have huris' : narrowed.map uri = eligible'.map uri := by
      rw [hresults', List.map_map, huri]
    have hsame : narrowed.map uri = found.map uri → eligible' = eligible := by
      rw [huris, huris']
      exact eq_of_map_uri_eq hkeeps.content_nodup (Eligible.subset hkeeps heligible')
        (Eligible.subset hkeeps heligible)
    refine ⟨eligible, eligible', heligible, heligible', huris, huris', ⟨hsame, fun h => ?_⟩, fun h => ?_⟩
    · rw [huris, huris', h]
    · rw [hresults, hresults', hsame h, List.forall₂_map_left_iff, List.forall₂_map_right_iff,
        List.forall₂_same]
      exact fun c _ => (q.tightens_withConstraints added).isPruningOf_pruned c

open Repository

/-- What can be had somewhere, as a preference. -/
def preferAvailable : Constraint where
  subject := { name := "location.available", field := "available", target := .location,
               valueKind := .boolean }
  operator := .equals
  operands := .booleans [true]
  soft := true

/-- An item with one version, which has some locations. -/
def itemAtLocations (locations : List Location) : Content :=
  .item
    { described := { canonicalUri := "/item", publisher := some .bbc }
      versions := [versionLasting 1800 locations] }

/-- An item that can be had at one of two places. -/
def fadingItem : Content :=
  itemAtLocations [{ available := false }, {}]

/-- An item that can be had nowhere. -/
def goneItem : Content :=
  itemAtLocations [{ available := false }]

/-- The query without constraints compiles to the empty filter document. -/
theorem compile_everything : ({} : Query).compile = .ok [] := by
  rw [Query.compile_eq rfl rfl]
  rfl

/-- A preference has its condition in the filter document. -/
theorem compile_preferAvailable :
    (({} : Query).withConstraints [preferAvailable]).compile =
      .ok [("versions.manifestedAs.availableAt",
        operatorValue "$elemMatch" (.object [("available", .bool true)]))] := by
  rw [Query.compile_eq rfl rfl]
  rfl

/-- Preferring what can be had leaves the item with one location of two. -/
theorem discover_fadingItem :
    (({} : Discovery).discover {} (afterWriting [fadingItem])).2 = .ok [fadingItem] ∧
      (({} : Discovery).discover (({} : Query).withConstraints [preferAvailable])
        (afterWriting [fadingItem])).2 = .ok [itemAtLocations [{}]] := by
  constructor
  · rw [discover_eq compile_everything (filter_restrict_of_none compile_everything rfl) rfl]
    rfl
  · rw [discover_eq compile_preferAvailable (filter_restrict_of_none compile_preferAvailable rfl) rfl]
    rfl

/-- Of an item that can be had somewhere the other places go. -/
theorem discover_withConstraints_soft_fadingItem :
    (({} : Discovery).discover {} (afterWriting [fadingItem])).2 = .ok [fadingItem] ∧
      (({} : Discovery).discover (({} : Query).withConstraints [preferAvailable])
        (afterWriting [fadingItem])).2 = .ok [itemAtLocations [{}]] ∧
      ∃ eligible eligible', ({} : Discovery).Eligible {} (afterWriting [fadingItem]) eligible ∧
        ({} : Discovery).Eligible (({} : Query).withConstraints [preferAvailable])
          (afterWriting [fadingItem]) eligible' ∧
        eligible' = eligible ∧ List.Forall₂ IsPruningOf [itemAtLocations [{}]] [fadingItem] := by
  obtain ⟨hfound, hnarrowed⟩ := discover_fadingItem
  have hsoft : ∀ k ∈ [preferAvailable], k.soft = true := by decide
  obtain ⟨hanswered, hanswers⟩ := discover_withConstraints_soft {} {} (afterWriting [fadingItem])
    [preferAvailable] (reachable_afterWriting _) hsoft rfl rfl
  have hknown : ∀ k ∈ (({} : Query).withConstraints [preferAvailable]).constraints,
      k.subject ∈ Attribute.all ∧ k.HasPattern := by
    intro k hk
    rw [List.mem_singleton.1 hk]
    exact ⟨by decide, Constraint.hasPattern_of_ne_beginning (by decide)⟩
  have hlimit : (afterWriting [fadingItem]).content.documents.length ≤ ({} : Discovery).maxResults := by
    decide
  obtain ⟨found, narrowed, hfound', hnarrowed'⟩ := hanswered hknown ⟨_, compile_preferAvailable⟩
    (isWithinLimit_of_length hlimit _) (isWithinLimit_of_length hlimit _)
  cases hfound.symm.trans hfound'
  cases hnarrowed.symm.trans hnarrowed'
  obtain ⟨eligible, eligible', heligible, heligible', -, -, hiff, hprunings⟩ :=
    hanswers _ _ hfound' hnarrowed'
  exact ⟨hfound, hnarrowed, eligible, eligible', heligible, heligible', hiff.1 rfl, hprunings rfl⟩

/-- An item that can be had nowhere is not found, though only a preference speaks against it. -/
theorem discover_goneItem_rejected :
    (afterWriting [goneItem]).Reachable ∧ preferAvailable.soft = true ∧
      concerns ({} : Query).hard EntityKind.itemOrBelow = false ∧
      (({} : Discovery).discover {} (afterWriting [goneItem])).2 = .ok [goneItem] ∧
      (({} : Discovery).discover (({} : Query).withConstraints [preferAvailable])
        (afterWriting [goneItem])).2 = .ok [] ∧
      ([] : List Content).map uri ≠ [goneItem].map uri := by
  refine ⟨reachable_afterWriting _, rfl, rfl, ?_, ?_, by simp⟩
  · rw [discover_eq compile_everything (filter_restrict_of_none compile_everything rfl) rfl]
    rfl
  · rw [discover_eq compile_preferAvailable (filter_restrict_of_none compile_preferAvailable rfl) rfl]
    rfl

end Discovery

end MediaCatalogue

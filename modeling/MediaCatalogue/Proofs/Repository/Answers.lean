import Mathlib.Data.List.Permutation
import MediaCatalogue.Proofs.Query.PrefixSearch
import MediaCatalogue.Proofs.Repository.Discovery

/-!
# What an answer satisfies

Trimming does not look at the constraints on a result itself; only the filter document that the
store was asked with holds them. So a result satisfies the constraints whose conditions are still in
the filter document. When conditions meet on a field, a later one takes the place of an earlier one
of the same operator, and a beginning and a list of texts take each other's place.
-/

set_option autoImplicit false

namespace MediaCatalogue

/-- A trimmed result answers every constraint on itself as before. -/
theorem TrimScope.queryable_result {s : TrimScope} {remove : Bool} {c c' : Content}
    (h : s.result remove c = some c') :
    Queryable.kind c' = Queryable.kind c ∧
      ∀ a, Queryable.attribute? a c' = Queryable.attribute? a c := by
  rw [TrimScope.result_eq] at h
  split at h
  · cases h
    cases c <;> exact ⟨rfl, fun _ => rfl⟩
  · cases h

/-- What a window shows is one of the results. -/
theorem Selection.mem_of_mem_apply {α : Type} {s : Selection} {results : List α} {a : α}
    (h : a ∈ s.apply results) : a ∈ results := by
  unfold apply at h
  split at h
  · exact List.mem_of_mem_drop (List.mem_of_mem_take h)
  · exact List.mem_of_mem_drop h

namespace Discovery

/-- What an answer holds is what trimming leaves of stored content whose document passes the filter
document of the query. -/
theorem exists_of_mem_discover {d : Discovery} {q : Query} {r : Repository} (hr : r.Reachable)
    (hknown : ∀ k ∈ q.constraints, k.subject ∈ Attribute.all) {found : List Content}
    (hfound : (d.discover q r).2 = .ok found) {c : Content} (hc : c ∈ found) :
    ∃ document stored, q.compile = .ok document ∧
      Filter.Accepts document stored.toDocument.fields ∧
      (TrimScope.ofQuery q).result true stored = some c := by
  have hnothing : q.matchesNothing = false := by
    by_contra hnothing
    rw [discover, if_pos (by simpa using hnothing)] at hfound
    cases hfound
    cases hc
  obtain ⟨f, g, cs, hf, hg, hcs, rfl⟩ := exists_of_discover_ok hnothing hfound
  cases hcompile : q.compile with
  | error e =>
    rw [filter, d.compile_restrict, hcompile] at hf
    cases hf
  | ok document =>
    obtain ⟨f', hf', -, haccepts⟩ := filter_spec ((d.compile_restrict q).trans hcompile)
      (Query.isPlainFilter_of_compile hcompile hknown)
    cases hf.symm.trans hf'
    rw [Query.trim, d.matchesNothing_restrict, hnothing, d.ofQuery_restrict] at hc
    obtain ⟨stored, hstored, hresult⟩ := List.mem_filterMap.1 hc
    -- the document that it was read from matches
    obtain ⟨x, hx, hread⟩ := exists_left_of_forall₂ (Content.forall₂_of_ofDocumentsUpTo hcs)
      (List.mem_of_mem_filter hstored)
    obtain ⟨hx, hmatch⟩ := List.mem_filter.1 (Selection.mem_of_mem_apply hx)
    obtain ⟨content, -, hfields⟩ := hr.isSorted.content x hx
    rw [Content.ofDocument_eq hfields] at hread
    cases hread
    rw [← Filter.accepts_iff_isMatch hg, hfields, haccepts] at hmatch
    exact ⟨document, _, rfl, hmatch.1, hresult⟩

end Discovery

/-! ## Constraints on results themselves -/

/-- What a piece of content is asked for is looked for at the root. -/
theorem Attribute.path_of_addressed (c : Content) :
    ∀ a ∈ Attribute.all, (Queryable.kind c).answersFor a.target = true →
      EntityPath.ofKind? a.target = some .root := by
  have hkind : Queryable.kind c ∈
      [EntityKind.item, .episode, .brand, .series, .container, .contentGroup] := by
    cases c with
    | item i => cases hk : i.kind <;> simp [Queryable.kind, hk]
    | container c ms => cases hk : c.kind <;> simp [Queryable.kind, hk]
    | group d ms => simp [Queryable.kind]
  have hall : ∀ kind ∈ [EntityKind.item, .episode, .brand, .series, .container, .contentGroup],
      ∀ a ∈ Attribute.all, kind.answersFor a.target = true →
        EntityPath.ofKind? a.target = some .root := by
    decide
  exact hall _ hkind

/-- The keys at the root are written without the one letter that is the lower-case form of another
sign. -/
theorem Constraint.readsNamesAsKeys_of_root {k : Constraint} (hknown : k.subject ∈ Attribute.all)
    (hroot : EntityPath.ofKind? k.subject.target = some .root) (htyped : k.IsTyped) :
    k.ReadsNamesAsKeys := by
  have hall : ∀ a ∈ Attribute.all, EntityPath.ofKind? a.target = some .root → a.valueKind = .keyword →
      ∀ key ∈ a.keys, Text.IsLowerAscii key ∧ 'k' ∉ key.toList := by
    decide
  intro ks hks name _ key hkey hlower
  have hkeyword : k.subject.valueKind = .keyword := by
    rw [← htyped, hks]
    rfl
  obtain ⟨hascii, hk⟩ := hall _ hknown hroot hkeyword key hkey
  exact Text.ascii_of_lower_eq hascii hk hlower

/-- What asks for either truth value is asked of items, and each has one. -/
theorem Constraint.holdsOf_of_isAlwaysTrue {k : Constraint} (halways : k.isAlwaysTrue = true)
    (hknown : k.subject ∈ Attribute.all) (htyped : k.IsTyped) {c : Content}
    (haddressed : k.addresses c = true) : k.holdsOf c = true := by
  have hroot := Attribute.path_of_addressed c k.subject hknown haddressed
  obtain ⟨bs, hbs, hop, hboth⟩ : ∃ bs, k.operands = .booleans bs ∧ k.operator = .equals ∧
      ∀ b, bs.contains b = true := by
    unfold isAlwaysTrue at halways
    split at halways
    · rename_i bs hbs hop
      rw [Bool.and_eq_true] at halways
      exact ⟨bs, hbs, hop, fun b => by cases b <;> simp_all⟩
    · cases halways
  have hboolean : k.subject.valueKind = .boolean := by
    rw [← htyped, hbs]
    rfl
  have hfield : ∀ a ∈ Attribute.all, EntityPath.ofKind? a.target = some .root → a.valueKind = .boolean →
      a.field = "isLongForm" ∧ a.target = .item := by
    decide
  obtain ⟨hlong, htarget⟩ := hfield _ hknown hroot hboolean
  cases c with
  | item i =>
    have hattribute : Queryable.attribute? k.subject (Content.item i) =
        some (.one (.boolean i.isLongForm)) := by
      simp [Queryable.attribute?, hlong]
    rw [holdsOf, hattribute]
    simp [AttributeValue.scalars, accepts, hbs, hop, List.contains_iff_mem.1 (hboth i.isLongForm)]
  | container c ms =>
    rw [addresses, htarget] at haddressed
    cases hk : c.kind <;> simp [Queryable.kind, hk] at haddressed <;>
      exact absurd haddressed (by decide)
  | group d ms =>
    rw [addresses, htarget] at haddressed
    exact absurd haddressed (by simp only [Queryable.kind]; decide)

/-- A later constraint leaves the condition of an earlier one in its place: it restricts nothing, or
something on another field, or it can stand beside it. -/
def Constraint.IsKeptBy (k l : Constraint) : Prop :=
  l.isAlwaysTrue = false → k.Meets l → k.StandsBeside l

instance (k l : Constraint) : Decidable (k.IsKeptBy l) :=
  inferInstanceAs (Decidable (_ → _ → _))

/-- Content meets a constraint as the store asks for it. Beginnings apart this is what the checker asks
for. A beginning is found up to the case variants of single characters, which is what the checker asks
for as well if the texts are ASCII. -/
structure Constraint.IsMetBy (k : Constraint) (c : Content) : Prop where
  compared : k.operator ≠ .beginning → k.holdsOf c = true
  begun : k.operator = .beginning → ∃ first rest text, k.operands = .strings (first :: rest) ∧
    k.HasText c text ∧ Text.BeginsInAnyCase first.toList text.toList ∧
    (Text.IsAscii first → Text.IsAscii text → k.holdsOf c = true)

/-- A result meets what is asked of it, hard or soft, where no later constraint takes the place of the
condition. -/
theorem Discovery.isMetBy_of_mem_discover {d : Discovery} {q : Query} {r : Repository} (hr : r.Reachable)
    (hknown : ∀ k ∈ q.constraints, k.subject ∈ Attribute.all)
    (htyped : ∀ k ∈ q.constraints, k.IsTyped) {found : List Content}
    (hfound : (d.discover q r).2 = .ok found) {c : Content} (hc : c ∈ found)
    {before after : List Constraint} {k : Constraint} (hsplit : q.constraints = before ++ k :: after)
    (haddressed : k.addresses c = true) (hlast : ∀ l ∈ after, k.IsKeptBy l) : k.IsMetBy c := by
  have hk : k ∈ q.constraints := by simp [hsplit]
  have hroot := Attribute.path_of_addressed c k.subject (hknown k hk) haddressed
  by_cases halways : k.isAlwaysTrue = true
  · have hholds := Constraint.holdsOf_of_isAlwaysTrue halways (hknown k hk) (htyped k hk) haddressed
    refine ⟨fun _ => hholds, fun hop => ?_⟩
    simp [Constraint.isAlwaysTrue, hop] at halways
  obtain ⟨document, stored, hcompile, haccepts, hresult⟩ := exists_of_mem_discover hr hknown hfound hc
  obtain ⟨-, hattribute⟩ := TrimScope.queryable_result hresult
  -- the stored document passes the condition of the constraint
  obtain ⟨ds, h, rfl⟩ := Query.compile_spec hcompile hknown
  rw [Query.accepts_assemble (h.hasNoNested_filterAt .root) (h.hasNoNested_filterAt? .versions)
    (h.hasNoNested_filterAt? .encodings)] at haccepts
  have hcontributing : q.contributing = before.filter (fun l => !l.isAlwaysTrue) ++
      k :: after.filter fun l => !l.isAlwaysTrue := by
    rw [Query.contributing, hsplit, List.filter_append,
      List.filter_cons_of_pos (by simpa using halways)]
  have hbeside : ∀ l ∈ after.filter (fun l => !l.isAlwaysTrue), k.Meets l → ∀ v w,
      k.condition = .ok (some v) → l.condition = .ok (some w) → v.StandsBeside w := by
    intro l hl hmeets v w hv hw
    obtain ⟨hl, hnot⟩ := List.mem_filter.1 hl
    have hmem : l ∈ q.constraints := by simp [hsplit, hl]
    exact Constraint.StandsBeside.conditions hv (hlast l hl (by simpa using hnot) hmeets) hmeets
      ⟨hknown k hk, htyped k hk⟩ ⟨hknown l hmem, htyped l hmem⟩ hw
  obtain ⟨condition, hcondition, hpasses⟩ := h.passes_of_accepts hcontributing hroot hbeside haccepts.1
  -- so the stored content satisfies it, and what trimming leaves says the same of itself
  constructor
  · intro hop
    rw [Constraint.holdsOf, hattribute]
    exact Constraint.holdsOf_of_passes stored.stores stored.answersInKind (hknown k hk) hroot hcondition hop
      (htyped k hk) (Constraint.readsNamesAsKeys_of_root (hknown k hk) hroot (htyped k hk)) hpasses
  · intro hop
    obtain ⟨first, rest, text, hoperands, ⟨v, hv, htext⟩, hbegins⟩ := Constraint.exists_text_of_passes
      stored.stores stored.answersInKind (hknown k hk) hroot hcondition hop (htyped k hk) hpasses
    have hhas : k.HasText c text := ⟨v, (hattribute k.subject).trans hv, htext⟩
    exact ⟨first, rest, text, hoperands, hhas, hbegins, fun hfirst hascii =>
      Constraint.holdsOf_of_beginsInAnyCase hop hoperands hhas hfirst hascii hbegins⟩

/-- **What a result satisfies.** A hard constraint that is asked of a result is met by it, unless a later
constraint takes the place of its condition. If this happens to none of the hard constraints that are
asked of it, and none of them asks for a beginning, the result satisfies all that is hard in the query. -/
theorem Discovery.satisfies_hard_of_mem_discover (d : Discovery) (q : Query) (r : Repository)
    (hr : r.Reachable) (hknown : ∀ k ∈ q.constraints, k.subject ∈ Attribute.all)
    (htyped : ∀ k ∈ q.constraints, k.IsTyped) (found : List Content)
    (hfound : (d.discover q r).2 = .ok found) (c : Content) (hc : c ∈ found) :
    (∀ before k after, q.constraints = before ++ k :: after → k.soft = false → k.addresses c = true →
        (∀ l ∈ after, k.IsKeptBy l) → k.IsMetBy c) ∧
      (q.constraints.Pairwise (fun k l => k.soft = false → k.addresses c = true → k.IsKeptBy l) →
        (∀ k ∈ q.hard, k.addresses c = true → k.operator ≠ .beginning) → satisfies q.hard c = true) := by
  refine ⟨fun before k after hsplit _ haddressed hlast =>
    isMetBy_of_mem_discover hr hknown htyped hfound hc hsplit haddressed hlast, fun hapart hbeginning => ?_⟩
  rw [TrimScope.satisfies_iff]
  intro k hk haddressed
  obtain ⟨hmem, hhard⟩ := List.mem_filter.1 hk
  obtain ⟨before, after, hsplit⟩ := List.append_of_mem hmem
  rw [hsplit, List.pairwise_append, List.pairwise_cons] at hapart
  have hlast : ∀ l ∈ after, k.IsKeptBy l := fun l hl =>
    hapart.2.1.1 l hl (by simpa using hhard) haddressed
  exact (isMetBy_of_mem_discover hr hknown htyped hfound hc hsplit haddressed hlast).compared
    (hbeginning k hk haddressed)

/-- What is in a repository after one item has been written. -/
def repositoryOf (i : Item) : Repository :=
  (Repository.write (.item i) {}).1

/-- An episode of some number. -/
def episodeNumbered (n : Int64) : Item :=
  { described := { canonicalUri := "/episode", publisher := some .bbc }
    kind := .episode
    episodeNumber := some n }

/-- A comparison of the number of an episode with a bound. -/
def numberConstraint (o : Operator) (bound : Int64) : Constraint :=
  { subject := { name := "episode.episodeNumber", field := "episodeNumber", target := .episode,
                 valueKind := .integer }
    operator := o
    operands := .integers [bound] }

/-- Episodes of a number between two bounds. -/
def betweenQuery (lower upper : Int64) : Query :=
  { constraints := [numberConstraint .greaterThan lower, numberConstraint .lessThan upper] }

/-- An episode that is found between two bounds lies between them, since the upper one stands beside the
lower one. -/
theorem satisfies_hard_of_mem_discover_between :
    (({} : Discovery).discover (betweenQuery 1 9) (repositoryOf (episodeNumbered 5))).2 =
        .ok [.item (episodeNumbered 5)] ∧
      satisfies (betweenQuery 1 9).hard (Content.item (episodeNumbered 5)) = true := by
  have hcompile : (betweenQuery 1 9).compile =
      .ok [("episodeNumber", .object [("$gt", .int64 1), ("$lt", .int64 9)])] := by
    rw [Query.compile_eq rfl rfl]
    rfl
  have hdiscover : (({} : Discovery).discover (betweenQuery 1 9) (repositoryOf (episodeNumbered 5))).2 =
      .ok [.item (episodeNumbered 5)] := by
    rw [Discovery.discover_eq hcompile (Discovery.filter_restrict_of_none hcompile rfl) rfl]
    rfl
  have hanswer := Discovery.satisfies_hard_of_mem_discover {} (betweenQuery 1 9) _ (.write _ .empty)
    (by decide) (by decide) _ hdiscover _ (List.mem_singleton_self _)
  exact ⟨hdiscover, hanswer.2 (by decide) (by decide)⟩

/-- An item of some title. -/
def itemTitled (title : String) : Item :=
  { described := { canonicalUri := "/item", title := some title, publisher := some .bbc } }

/-- Content of which the title compares in some way with each of some texts. -/
def titleQuery (comparisons : List (Operator × String)) : Query :=
  { constraints := comparisons.map fun c =>
      { subject := { name := "title", field := "title", target := .content, valueKind := .string }
        operator := c.1
        operands := .strings [c.2] } }

/-- The pattern for a text that begins with `s` in any case is not too large. -/
theorem Pattern.exists_ofText?_s : ∃ p, Pattern.ofText? ("^" ++ Pattern.escape "s") true = some p :=
  ⟨_, (Pattern.ofText?_beginning "s").trans (if_pos Pattern.fits_beginningTree_s)⟩

/-- The later of two texts that a title is compared with decides. -/
theorem discover_title_equals_twice :
    (({} : Discovery).discover (titleQuery [(.equals, "EastEnders"), (.equals, "Neighbours")])
      (repositoryOf (itemTitled "Neighbours"))).2 = .ok [.item (itemTitled "Neighbours")] := by
  have hcompile : (titleQuery [(.equals, "EastEnders"), (.equals, "Neighbours")]).compile =
      .ok [("title", operatorValue "$in" (.array [.string "Neighbours"]))] := by
    rw [Query.compile_eq rfl rfl]
    rfl
  rw [Discovery.discover_eq hcompile (Discovery.filter_restrict_of_none hcompile rfl) rfl]
  rfl

/-- A title that begins with a long `ſ` is found by the beginning `s`. -/
theorem discover_title_beginning_s :
    (({} : Discovery).discover (titleQuery [(.beginning, "s")]) (repositoryOf (itemTitled "ſtar"))).2 =
      .ok [.item (itemTitled "ſtar")] := by
  have hcompile : (titleQuery [(.beginning, "s")]).compile =
      .ok [("title", .regex ("^" ++ Pattern.escape "s") true)] := by
    rw [Query.compile_eq rfl rfl]
    rfl
  obtain ⟨p, hp⟩ := Pattern.exists_ofText?_s
  obtain ⟨g, hg⟩ : Filter.Readable [("title", .regex ("^" ++ Pattern.escape "s") true)] := by
    rw [Filter.readable_iff]
    have htitle : Filter.isOperator "title" = false := by decide
    simpa using (Filter.entryReadable_regex htitle).2 (Option.isSome_of_mem hp)
  have hbegins : Text.BeginsInAnyCase "s".toList "ſtar".toList :=
    ⟨['ſ'], "tar".toList, rfl, .cons (by unfold Text.SameLetter; decide +kernel) .nil⟩
  have hmatch : g.isMatch (Content.item (itemTitled "ſtar")).toDocument.fields = true := by
    rw [← Filter.accepts_iff_isMatch hg, Filter.accepts_iff, List.forall_mem_singleton,
      Filter.entryAccepts_regex (by decide)]
    have hresolve : Fields.resolve "title" (Content.item (itemTitled "ſtar")).toDocument.fields =
        [.string "ſtar"] := rfl
    have hfound : p.isFoundIn "ſtar" = true := (Pattern.isFoundIn_of_ofText? hp _).2 hbegins
    exact ⟨p, hp, by simp [hresolve, anyLeaf, Value.string?, hfound]⟩
  have hdocuments : (repositoryOf (itemTitled "ſtar")).content.documents =
      [(Content.item (itemTitled "ſtar")).toDocument] := rfl
  rw [Discovery.discover_eq hcompile (Discovery.filter_restrict_of_none hcompile rfl) hg, hdocuments,
    List.filter_cons_of_pos (by exact hmatch)]
  rfl

/-- Both conditions are needed. A title cannot be equal to two texts, but the item of the second is found.
And a title with a long `ſ` does not begin with `s` in lower case, but is found as well. -/
theorem discover_not_satisfies :
    ((repositoryOf (itemTitled "Neighbours")).Reachable ∧
        (({} : Discovery).discover (titleQuery [(.equals, "EastEnders"), (.equals, "Neighbours")])
          (repositoryOf (itemTitled "Neighbours"))).2 = .ok [.item (itemTitled "Neighbours")] ∧
        satisfies (titleQuery [(.equals, "EastEnders"), (.equals, "Neighbours")]).hard
          (Content.item (itemTitled "Neighbours")) = false) ∧
      (repositoryOf (itemTitled "ſtar")).Reachable ∧
        (({} : Discovery).discover (titleQuery [(.beginning, "s")]) (repositoryOf (itemTitled "ſtar"))).2 =
          .ok [.item (itemTitled "ſtar")] ∧
        satisfies (titleQuery [(.beginning, "s")]).hard (Content.item (itemTitled "ſtar")) = false :=
  ⟨⟨.write _ .empty, discover_title_equals_twice, by decide⟩,
    .write _ .empty, discover_title_beginning_s, by decide +kernel⟩

end MediaCatalogue

import MediaCatalogue.Repository.Discovery
import MediaCatalogue.Proofs.Store.Candidates

/-!
# Restricting a filter document to publishers

A filter document is restricted by a condition on the publisher. When it has one already, both
become clauses under `$and`, beside the clauses that are there. In each of these forms the
restricted document says what the document said, and that the publisher is one of those named, both
of reading and of passing. So whatever the document asked for is still asked for, and the condition on
the publisher holds of fields in which the key of one of those named is found.
-/

set_option autoImplicit false

namespace MediaCatalogue

/-- The condition that the publisher is one of some publishers. -/
def publisherCondition (publishers : List Publisher) : Value :=
  operatorValue "$in" (.array (publishers.map fun p => .string (Vocabulary.key p)))

/-- A property of conditions on fields that clauses have together when each clause has it for its
own entries. -/
def IsClausewise (P : String → Value → Prop) : Prop :=
  ∀ clauses, P "$and" (.array clauses) ↔
    ∀ clause ∈ clauses, ∃ document, clause = .object document ∧ ∀ e ∈ document, P e.1 e.2

/-- The condition on the publisher can always be read. -/
theorem entryReadable_publisherCondition (publishers : List Publisher) :
    Filter.EntryReadable "publisher" (publisherCondition publishers) :=
  ⟨_, Filter.ofEntry_in (by decide) _⟩

/-- Clauses can be read when each entry of each of them can. -/
theorem isClausewise_entryReadable : IsClausewise Filter.EntryReadable := by
  intro clauses
  simp only [Filter.entryReadable_and, Filter.readable_iff]

/-- Fields pass clauses when they pass each entry of each of them. -/
theorem isClausewise_entryAccepts (x : Fields Value) :
    IsClausewise fun name value => Filter.EntryAccepts name value x := by
  intro clauses
  simp only [Filter.entryAccepts_and, Filter.accepts_iff]

section

variable {f : Fields Value} (hsorted : Fields.Sorted f) {P : String → Value → Prop}

include hsorted

/-- A property of all entries holds after one is put in when it holds of this one and of the others. -/
theorem forall_mem_insert_iff (name : String) (v : Value) :
    (∀ e ∈ Fields.insert name v f, P e.1 e.2) ↔
      P name v ∧ ∀ other w, other ≠ name → Fields.get? other f = some w → P other w := by
  rw [(hsorted.insert name v).forall_mem_iff P]
  simp only [Fields.get?_insert]
  constructor
  · intro h
    exact ⟨h name v (if_pos rfl), fun other w hne hw => h other w (by rw [if_neg hne, hw])⟩
  · rintro ⟨hname, hother⟩ other w hw
    split at hw
    · rename_i heq
      cases hw
      exact heq ▸ hname
    · rename_i hne
      exact hother other w hne hw

end

/-- The clauses that a filter document has under `$and`. -/
def andClauses (f : Fields Value) : List Value :=
  match Fields.get? "$and" f with
  | some (.array clauses) => clauses
  | _ => []

/-- The restricted document has a new condition on the publisher, or two clauses more. -/
theorem restrictToPublishers_eq (publishers : List Publisher) (f : Fields Value) :
    restrictToPublishers publishers f =
      match Fields.get? "publisher" f with
      | none => Fields.insert "publisher" (publisherCondition publishers) f
      | some condition =>
        Fields.insert "$and"
          (.array (andClauses (Fields.erase "publisher" f) ++ [operatorValue "publisher" condition,
            operatorValue "publisher" (publisherCondition publishers)]))
          (Fields.erase "publisher" f) := by
  unfold restrictToPublishers andClauses publisherCondition
  cases Fields.get? "publisher" f with
  | none => rfl
  | some condition =>
    dsimp only
    split <;> simp_all

section

variable {P : String → Value → Prop} (hP : IsClausewise P)

include hP

/-- Joined clauses have a clausewise property when both parts have it. -/
theorem property_and_append (clauses more : List Value) :
    P "$and" (.array (clauses ++ more)) ↔ P "$and" (.array clauses) ∧ P "$and" (.array more) := by
  simp only [hP _, List.forall_mem_append]

/-- The two clauses on the publisher have a clausewise property when both conditions have it. -/
theorem property_publisherClauses (condition : Value) (publishers : List Publisher) :
    P "$and" (.array [operatorValue "publisher" condition,
        operatorValue "publisher" (publisherCondition publishers)]) ↔
      P "publisher" condition ∧ P "publisher" (publisherCondition publishers) := by
  rw [hP]
  simp [operatorValue]

/-- The clauses of a filter document have a clausewise property when its `$and` has it, if there is one.
-/
theorem property_andClauses {f : Fields Value}
    (hand : ∀ v, Fields.get? "$and" f = some v → ∃ clauses, v = .array clauses) :
    P "$and" (.array (andClauses f)) ↔ ∀ v, Fields.get? "$and" f = some v → P "$and" v := by
  unfold andClauses
  cases hget : Fields.get? "$and" f with
  | none => simp [hP []]
  | some v =>
    obtain ⟨clauses, rfl⟩ := hand v hget
    simp

/-- A property of this kind holds of the restricted document when it holds of the document and of
the condition on the publisher. -/
theorem forall_restrictToPublishers {f : Fields Value} (hsorted : Fields.Sorted f)
    (hand : ∀ v, Fields.get? "$and" f = some v → ∃ clauses, v = .array clauses)
    (publishers : List Publisher) :
    (∀ e ∈ restrictToPublishers publishers f, P e.1 e.2) ↔
      (∀ e ∈ f, P e.1 e.2) ∧ P "publisher" (publisherCondition publishers) := by
  rw [restrictToPublishers_eq, hsorted.forall_mem_iff P]
  cases hpublisher : Fields.get? "publisher" f with
  | none =>
    dsimp only
    rw [forall_mem_insert_iff hsorted, and_comm]
    refine and_congr_left fun _ => ⟨fun h name v hv => ?_, fun h name v _ hv => h name v hv⟩
    by_cases hname : name = "publisher"
    · rw [hname, hpublisher] at hv
      cases hv
    · exact h name v hname hv
  | some condition =>
    have herased : ∀ name, name ≠ "publisher" →
        Fields.get? name (Fields.erase "publisher" f) = Fields.get? name f :=
      fun name hname => by rw [hsorted.get?_erase, if_neg hname]
    have hgone : Fields.get? "publisher" (Fields.erase "publisher" f) = none := by
      rw [hsorted.get?_erase, if_pos rfl]
    have hsame := herased "$and" (by decide)
    dsimp only
    rw [forall_mem_insert_iff (hsorted.erase "publisher"), property_and_append hP,
      property_publisherClauses hP, property_andClauses hP (by rw [hsame]; exact hand), hsame]
    constructor
    · rintro ⟨⟨hclauses, hcondition, hnew⟩, hother⟩
      refine ⟨fun name v hv => ?_, hnew⟩
      by_cases hname : name = "publisher"
      · rw [hname, hpublisher] at hv
        cases hv
        exact hname ▸ hcondition
      · by_cases hclause : name = "$and"
        · subst hclause
          exact hclauses v hv
        · exact hother name v hclause (by rw [herased name hname, hv])
    · rintro ⟨hall, hnew⟩
      refine ⟨⟨fun v hv => hall "$and" v hv, hall "publisher" condition hpublisher, hnew⟩, ?_⟩
      intro name v _ hv
      by_cases hname : name = "publisher"
      · rw [hname, hgone] at hv
        cases hv
      · exact hall name v (by rw [← herased name hname, hv])

/-- Whoever is named, the restricted document says the same beside the condition that it is one of
them. What stands under `$and` need not be clauses, for the restriction takes the place of anything
else. -/
theorem exists_forall_restrictToPublishers {f : Fields Value} (hsorted : Fields.Sorted f) :
    ∃ rest : Prop, ∀ publishers, (∀ e ∈ restrictToPublishers publishers f, P e.1 e.2) ↔
      rest ∧ P "publisher" (publisherCondition publishers) := by
  simp only [restrictToPublishers_eq]
  cases Fields.get? "publisher" f with
  | none =>
    refine ⟨∀ name v, name ≠ "publisher" → Fields.get? name f = some v → P name v, fun publishers => ?_⟩
    dsimp only
    rw [forall_mem_insert_iff hsorted, and_comm]
  | some condition =>
    refine ⟨(P "$and" (.array (andClauses (Fields.erase "publisher" f))) ∧ P "publisher" condition) ∧
      ∀ name v, name ≠ "$and" → Fields.get? name (Fields.erase "publisher" f) = some v → P name v,
      fun publishers => ?_⟩
    dsimp only
    rw [forall_mem_insert_iff (hsorted.erase "publisher"), property_and_append hP,
      property_publisherClauses hP]
    tauto

end

section

variable {f : Fields Value} (hsorted : Fields.Sorted f)

include hsorted

/-- Whether a restricted document can be read does not depend on who is named. -/
theorem readable_restrictToPublishers_iff (publishers others : List Publisher) :
    Filter.Readable (restrictToPublishers publishers f) ↔
      Filter.Readable (restrictToPublishers others f) := by
  obtain ⟨rest, hrest⟩ := exists_forall_restrictToPublishers isClausewise_entryReadable hsorted
  have hiff : ∀ publishers, Filter.Readable (restrictToPublishers publishers f) ↔ rest := by
    intro publishers
    rw [Filter.readable_iff, hrest]
    exact and_iff_left (entryReadable_publisherCondition publishers)
  rw [hiff, hiff]

/-- Fields pass a restricted document by a condition that no publisher has a part in, and by the one on
the publisher. -/
theorem exists_accepts_restrictToPublishers (x : Fields Value) :
    ∃ rest : Prop, ∀ publishers, Filter.Accepts (restrictToPublishers publishers f) x ↔
      rest ∧ Filter.EntryAccepts "publisher" (publisherCondition publishers) x := by
  simp only [Filter.accepts_iff]
  exact exists_forall_restrictToPublishers (isClausewise_entryAccepts x) hsorted

end

section

variable {f : Fields Value} (hsorted : Fields.Sorted f)
  (hand : ∀ v, Fields.get? "$and" f = some v → ∃ clauses, v = .array clauses)
  (publishers : List Publisher)

include hsorted hand

/-- A restricted document can be read when the document can. -/
theorem readable_restrictToPublishers :
    Filter.Readable (restrictToPublishers publishers f) ↔ Filter.Readable f := by
  rw [Filter.readable_iff, Filter.readable_iff,
    forall_restrictToPublishers isClausewise_entryReadable hsorted hand publishers]
  exact and_iff_left (entryReadable_publisherCondition publishers)

/-- Fields pass the restricted document when they pass the document and the condition on the
publisher. -/
theorem accepts_restrictToPublishers (x : Fields Value) :
    Filter.Accepts (restrictToPublishers publishers f) x ↔
      Filter.Accepts f x ∧
        Filter.EntryAccepts "publisher" (publisherCondition publishers) x := by
  rw [Filter.accepts_iff, Filter.accepts_iff]
  exact forall_restrictToPublishers (isClausewise_entryAccepts x) hsorted hand publishers

end

/-! ## What a restricted document matches -/

/-- Clauses that can be read are an array. -/
theorem exists_clauses_of_readable {f : Fields Value} (h : Filter.Readable f) {v : Value}
    (hv : Fields.get? "$and" f = some v) : ∃ clauses, v = .array clauses := by
  obtain ⟨g, hg⟩ := (Filter.readable_iff f).1 h _ (Fields.mem_of_get? hv)
  cases v with
  | array clauses => exact ⟨clauses, rfl⟩
  | _ => simp [Filter.ofEntry] at hg

/-- A text is met as a candidate by itself only. -/
theorem Value.isCandidate_string_iff {v : Value} {s : String} :
    v.isCandidate (.string s) = true ↔ v = .string s := by
  rw [Filter.isCandidate_of_ne_regex (by simp)]
  cases v <;> simp [equals, compare?, int?, double?]

/-- The condition on the publisher holds when the key of one of those named is found. -/
theorem entryAccepts_publisherCondition (publishers : List Publisher) (x : Fields Value) :
    Filter.EntryAccepts "publisher" (publisherCondition publishers) x ↔
      ∃ leaf ∈ Value.leaves (Fields.resolve "publisher" x), ∃ p ∈ publishers,
        leaf = .string (Vocabulary.key p) := by
  rw [publisherCondition, operatorValue,
    Filter.entryAccepts_of_ofEntry (Filter.ofEntry_in (by decide) _), Filter.isMatch, Filter.isOneOfAt,
    Filter.anyLeaf_iff_leaves]
  simp only [List.any_map, List.any_eq_true, Function.comp_apply, Value.isCandidate_string_iff]

/-- **The restriction joins what is asked for.** When a filter document can be read, so can the restricted
one, whatever stands under `publisher` and `$and`, and fields match it when they match the document and
the publisher's path leads to the key of one of those named, or to an array with such a key. -/
theorem isMatch_restrictToPublishers {f : Fields Value} (hsorted : Fields.Sorted f) {g : Filter}
    (hg : Filter.ofFields f = .ok g) (publishers : List Publisher) :
    ∃ g', Filter.ofFields (restrictToPublishers publishers f) = .ok g' ∧
      ∀ x, g'.isMatch x = true ↔ g.isMatch x = true ∧
        ∃ leaf ∈ Value.leaves (Fields.resolve "publisher" x), ∃ p ∈ publishers,
          leaf = .string (Vocabulary.key p) := by
  have hreadable : Filter.Readable f := ⟨g, hg⟩
  have hand : ∀ v, Fields.get? "$and" f = some v → ∃ clauses, v = .array clauses :=
    fun v hv => exists_clauses_of_readable hreadable hv
  obtain ⟨g', hg'⟩ := (readable_restrictToPublishers hsorted hand publishers).2 hreadable
  refine ⟨g', hg', fun x => ?_⟩
  rw [← Filter.accepts_iff_isMatch hg', accepts_restrictToPublishers hsorted hand,
    Filter.accepts_iff_isMatch hg, entryAccepts_publisherCondition]

/-- Pilots of two publishers, one of the conditions being a clause. -/
def pilotsOfTwo : Fields Value :=
  [("$and", .array [.object [("title", .string "Pilot")]]),
    ("publisher", .object [("$in", .array [.string "bbc.co.uk", .string "itv.com"])])]

/-- Restricted to other publishers, the pilots of two are those of the one that is named both times. -/
theorem isMatch_restrictToPublishers_pilotsOfTwo :
    Fields.Sorted pilotsOfTwo ∧ ∃ g g', Filter.ofFields pilotsOfTwo = .ok g ∧
      Filter.ofFields (restrictToPublishers [.itv, .five] pilotsOfTwo) = .ok g' ∧
      g'.isMatch [("publisher", .string "itv.com"), ("title", .string "Pilot")] = true ∧
      g'.isMatch [("publisher", .string "bbc.co.uk"), ("title", .string "Pilot")] = false := by
  have hsorted : Fields.Sorted pilotsOfTwo := by
    simp only [pilotsOfTwo, Fields.sorted_iff_names]
    decide
  have hread : ∃ g, Filter.ofFields pilotsOfTwo = .ok g ∧
      g.isMatch [("publisher", .string "itv.com"), ("title", .string "Pilot")] = true := ⟨_, rfl, rfl⟩
  obtain ⟨g, hg, hpilot⟩ := hread
  obtain ⟨g', hg', hmatch⟩ := isMatch_restrictToPublishers hsorted hg [.itv, .five]
  have hitv : g'.isMatch [("publisher", .string "itv.com"), ("title", .string "Pilot")] = true :=
    (hmatch _).2 ⟨hpilot, .string "itv.com", List.mem_singleton_self _, .itv, List.mem_cons_self, rfl⟩
  have hbbc : ¬ g'.isMatch [("publisher", .string "bbc.co.uk"), ("title", .string "Pilot")] = true := by
    intro h
    obtain ⟨-, leaf, hleaf, p, hp, rfl⟩ := (hmatch _).1 h
    have hkey : Value.string (Vocabulary.key p) = .string "bbc.co.uk" := List.mem_singleton.1 hleaf
    simp only [List.mem_cons, List.not_mem_nil, or_false] at hp
    rcases hp with rfl | rfl <;> simp [Vocabulary.key] at hkey
  exact ⟨hsorted, g, g', hg, hg', hitv, Bool.eq_false_of_not_eq_true hbbc⟩

end MediaCatalogue

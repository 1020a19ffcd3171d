import Mathlib.Data.List.Forall2
import MediaCatalogue.Proofs.Query.Retrimming

/-!
# Prunings

A pruning of content is what is left of it when versions, broadcasts, encodings, locations or members
are taken out, at any depth: every other field stays as it is, and so does the order. What trimming
leaves is a pruning of what it is given, so what it leaves for a query with further constraints,
which may be had by trimming once more, is a pruning of what it leaves for the query.
-/

set_option autoImplicit false

namespace MediaCatalogue

/-! ## Taking out -/

/-- An encoding with some of its locations. -/
def Encoding.IsPruningOf (left e : Encoding) : Prop :=
  ∃ ls : List Location, ls.Sublist e.availableAt ∧ left = { e with availableAt := ls }

/-- A version with some of its broadcasts, and prunings of some of its encodings. -/
def Version.IsPruningOf (left v : Version) : Prop :=
  ∃ (bs : List Broadcast) (es : List Encoding), bs.Sublist v.broadcasts ∧
    List.SublistForall₂ Encoding.IsPruningOf es v.manifestedAs ∧
      left = { v with broadcasts := bs, manifestedAs := es }

/-- An item with prunings of some of its versions, a container or group with prunings of some of its
members. -/
inductive Content.IsPruningOf : Content → Content → Prop where
  | item (i : Item) {vs : List Version} :
      List.SublistForall₂ Version.IsPruningOf vs i.versions →
        IsPruningOf (.item { i with versions := vs }) (.item i)
  | container (about : Container) {left ms : List Content} :
      List.SublistForall₂ IsPruningOf left ms →
        IsPruningOf (.container about left) (.container about ms)
  | group (d : Described) {left ms : List Content} :
      List.SublistForall₂ IsPruningOf left ms → IsPruningOf (.group d left) (.group d ms)

/-- Prunings of some pieces of content, in the order of these. -/
def Content.ArePruningsOf (left cs : List Content) : Prop :=
  List.SublistForall₂ IsPruningOf left cs

/-- What is made of those that are kept corresponds to some of what was there, in order. -/
theorem sublistForall₂_map_filter {α : Type} {R : α → α → Prop} {K : α → Prop} [DecidablePred K]
    {f : α → α} {as : List α} (h : ∀ a ∈ as, R (f a) a) :
    List.SublistForall₂ R ((as.filter fun a => K a).map f) as := by
  rw [List.sublistForall₂_iff]
  refine ⟨as.filter fun a => K a, ?_, List.filter_sublist⟩
  rw [List.forall₂_map_left_iff, List.forall₂_same]
  intro a ha
  exact h a (List.mem_of_mem_filter ha)

/-! ## What trimming leaves -/

namespace TrimScope

variable (s : TrimScope)

/-- Trimming an encoding prunes it. -/
theorem isPruningOf_prunedEncoding (e : Encoding) : (s.prunedEncoding e).IsPruningOf e :=
  ⟨_, List.filter_sublist, rfl⟩

/-- Trimming a version prunes it. -/
theorem isPruningOf_prunedVersion (v : Version) : (s.prunedVersion v).IsPruningOf v :=
  ⟨_, _, List.filter_sublist,
    sublistForall₂_map_filter fun e _ => s.isPruningOf_prunedEncoding e, rfl⟩

/-- Trimming content prunes it at every level. -/
theorem isPruningOf_pruned (c : Content) : (s.pruned c).IsPruningOf c := by
  induction c using Content.induction with
  | item i =>
    rw [pruned]
    exact .item i (sublistForall₂_map_filter fun v _ => s.isPruningOf_prunedVersion v)
  | container about ms ih =>
    rw [pruned, prunedMembers_eq]
    exact .container about (sublistForall₂_map_filter ih)
  | group d ms ih =>
    rw [pruned, prunedMembers_eq]
    exact .group d (sublistForall₂_map_filter ih)

/-- What more constraints leave of content is a pruning of what fewer leave. -/
theorem Tightens.isPruningOf_pruned {s t : TrimScope} (h : t.Tightens s) (c : Content) :
    (t.pruned c).IsPruningOf (s.pruned c) := by
  rw [← h.pruned_pruned]
  exact TrimScope.isPruningOf_pruned t (s.pruned c)

end TrimScope

namespace Query

/-- The trimmed results are prunings of some of the results, in order. -/
theorem arePruningsOf_trim (q : Query) (remove : Bool) (cs : List Content) :
    Content.ArePruningsOf (q.trim remove cs) cs := by
  rw [trim_eq_filterMap]
  induction cs with
  | nil => exact List.SublistForall₂.nil
  | cons c cs ih =>
    by_cases hleaves : q.Leaves remove c
    · rw [List.filterMap_cons_some ((q.trimmed?_eq remove c).trans (if_pos hleaves))]
      exact List.SublistForall₂.cons (TrimScope.isPruningOf_pruned _ c) ih
    · rw [List.filterMap_cons_none ((q.trimmed?_eq remove c).trans (if_neg hleaves))]
      exact List.SublistForall₂.cons_right ih

/-- **A further constraint only prunes**, whatever its strength and its attribute. What trimming
leaves then is a pruning of what it leaves without the constraint; and it is trimmed from that alone,
so nothing comes back that the query has taken out. -/
theorem trim_further_constraint (q : Query) (k : Constraint) (remove : Bool) (results : List Content) :
    Content.ArePruningsOf ((q.withConstraints [k]).trim remove results) (q.trim remove results) ∧
      (q.withConstraints [k]).trim remove results =
        (q.withConstraints [k]).trim remove (q.trim remove results) := by
  have hagain := q.trim_withConstraints_trim remove [k] results
  have hprunings := (q.withConstraints [k]).arePruningsOf_trim remove (q.trim remove results)
  rw [hagain] at hprunings
  exact ⟨hprunings, hagain.symm⟩

end Query

end MediaCatalogue

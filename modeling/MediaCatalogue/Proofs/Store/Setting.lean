import MediaCatalogue.Proofs.Document.Equality
import MediaCatalogue.Store.Collection
import Mathlib.Data.List.Induction

/-!
# Setting values at several paths

An update sets values at paths one after another, in the order of the paths as texts, and the fields that
a new document starts from are set in the same way. In that order a path comes before all that lead on
from it. So each of the values is found at the end, unless a later one has gone into it, and setting them
once more changes nothing: the values in front of the last are set again below it, where they are
forgotten when it is set, or apart from it, where the order makes no difference.
-/

set_option autoImplicit false

namespace MediaCatalogue

namespace Fields

/-! ## The relation -/

/-- Values are set at paths, one after another. -/
inductive AssignsAll : List (String × Value) → Fields Value → Fields Value → Prop where
  | nil (fields : Fields Value) : AssignsAll [] fields fields
  | cons {path : String} {value : Value} {entries : List (String × Value)} {x y z : Fields Value} :
    Assigns value (pathSegments path) x y → AssignsAll entries y z →
      AssignsAll ((path, value) :: entries) x z

/-- There is a name on each step of the paths. -/
def HaveNames (entries : List (String × Value)) : Prop :=
  ∀ e ∈ entries, ∀ segment ∈ pathSegments e.1, segment ≠ ""

/-- Setting a value at a path comes to one result only. -/
theorem Assigns.unique {value : Value} {path : List String} {x y z : Fields Value}
    (hy : Assigns value path x y) (hz : Assigns value path x z) : y = z :=
  congrArg Prod.fst ((assign_eq_true_iff.2 hy).symm.trans (assign_eq_true_iff.2 hz))

namespace AssignsAll

/-- Values are set in two parts when those of the first part are set first. -/
theorem append_iff {es es' : List (String × Value)} {x z : Fields Value} :
    AssignsAll (es ++ es') x z ↔ ∃ y, AssignsAll es x y ∧ AssignsAll es' y z := by
  induction es generalizing x with
  | nil =>
    constructor
    · exact fun h => ⟨x, .nil x, h⟩
    · rintro ⟨y, hnil, h⟩
      cases hnil
      exact h
  | cons e es ih =>
    constructor
    · intro h
      cases h with
      | cons hfirst hrest =>
        obtain ⟨y, hes, hes'⟩ := ih.1 hrest
        exact ⟨y, .cons hfirst hes, hes'⟩
    · rintro ⟨y, h, hes'⟩
      cases h with
      | cons hfirst hes => exact .cons hfirst (ih.2 ⟨y, hes, hes'⟩)

/-! ## What is found afterwards -/

section

variable {entries : List (String × Value)} {x y : Fields Value}

/-- A value that is no object stays where it is if nothing is set there or on the way there. -/
theorem resolve_eq_singleton (h : AssignsAll entries x y) {v : Value} (hv : v.object? = none)
    {path : List String} (hpath : ∀ e ∈ entries, ¬ pathSegments e.1 <+: path)
    (hx : Value.resolve [.object x] path = [v]) : Value.resolve [.object y] path = [v] := by
  induction h with
  | nil => exact hx
  | @cons p w entries x z y hfirst _ ih =>
    rw [List.forall_mem_cons] at hpath
    have hnot : ¬ path <+: pathSegments p := by
      intro hfront
      have hne : path ≠ pathSegments p := fun heq => hpath.1 (heq ▸ List.prefix_rfl)
      have hobject := hfirst.object_of_mem_resolve hfront hne v (by simp [hx])
      simp [hv] at hobject
    exact ih hpath.2 ((hfirst.resolve_of_apart ⟨hpath.1, hnot⟩).trans hx)

/-- Of paths in order, each leads to its value in the end, if that is no object. -/
theorem resolve_of_mem (h : AssignsAll entries x y) (hsorted : Sorted entries) {path : String}
    {v : Value} (hmem : (path, v) ∈ entries) (hv : v.object? = none) : resolve path y = [v] := by
  induction h with
  | nil => cases hmem
  | @cons p w entries x z y hfirst hrest ih =>
    obtain ⟨hlater, hsorted⟩ := List.pairwise_cons.1 hsorted
    rcases List.mem_cons.1 hmem with heq | hmem
    · cases heq
      refine hrest.resolve_eq_singleton hv (fun e he hfront => ?_) hfirst.resolve_self
      exact absurd (le_of_pathSegments hfront) (not_le.2 (hlater e he))
    · exact ih hsorted hmem

end

/-! ## Setting them once more -/

/-- Set again after a value at a later path, the values come below it and undo it, or apart from it. -/
theorem again_after {entries : List (String × Value)} {x y z : Fields Value} {path : String} {v : Value}
    (h : AssignsAll entries x y) (hbefore : ∀ e ∈ entries, e.1 < path)
    (hlast : Assigns v (pathSegments path) x z) :
    ∃ w, AssignsAll entries z w ∧ (w = y ∨ Assigns v (pathSegments path) y w) := by
  induction h generalizing z with
  | nil => exact ⟨z, .nil z, .inr hlast⟩
  | @cons q u entries x x' y hfirst hrest ih =>
    rw [List.forall_mem_cons] at hbefore
    by_cases hfront : pathSegments q <+: pathSegments path
    · exact ⟨y, .cons (hlast.overwrite hfirst hfront) hrest, .inl rfl⟩
    · have hbehind : ¬ pathSegments path <+: pathSegments q := fun hprefix =>
        absurd (le_of_pathSegments hprefix) (not_le.2 hbefore.1)
      obtain ⟨t, hzt, hxt⟩ := hlast.diamond hfirst ⟨hbehind, hfront⟩
      obtain ⟨w, hw, hend⟩ := ih hbefore.2 hxt
      exact ⟨w, .cons hzt hw, hend⟩

/-- Values that have been set in order can be set once more, and nothing changes. -/
theorem again {entries : List (String × Value)} {x y : Fields Value} (h : AssignsAll entries x y)
    (hsorted : Sorted entries) : AssignsAll entries y y := by
  induction entries using List.reverseRecOn generalizing y with
  | nil => exact .nil y
  | append_singleton entries e ih =>
    obtain ⟨path, v⟩ := e
    obtain ⟨hfront, -, hlater⟩ := List.pairwise_append.1 hsorted
    obtain ⟨z, hentries, hlast⟩ := append_iff.1 h
    cases hlast with
    | cons hlast hnil =>
      cases hnil
      have hbefore : ∀ e ∈ entries, e.1 < path := fun e he => hlater e he _ (List.mem_singleton_self _)
      obtain ⟨w, hw, rfl | hset⟩ := (ih hentries hfront).again_after hbefore hlast
      · exact append_iff.2 ⟨w, hw, .cons hlast (.nil _)⟩
      · obtain rfl := hset.unique hlast
        exact append_iff.2 ⟨w, hw, .cons (hlast.overwrite hlast List.prefix_rfl) (.nil _)⟩

end AssignsAll

end Fields

namespace Value

/-- Setting numbers in fields of numbers leaves fields of numbers. -/
theorem HasNoNaN.assignsAll {entries : List (String × Value)} {x y : Fields Value}
    (hx : (object x).HasNoNaN) (hentries : (object entries).HasNoNaN)
    (h : Fields.AssignsAll entries x y) : (object y).HasNoNaN := by
  rw [hasNoNaN_object] at hentries
  induction h with
  | nil => exact hx
  | cons hfirst _ ih =>
    rw [List.forall_mem_cons] at hentries
    exact ih (hx.assigns hentries.1 hfirst) hentries.2

end Value

/-! ## Documents -/

namespace Document

/-- Setting a value in a document is setting it in its fields. -/
theorem setPath_eq (path : String) (value : Value) (d : Document) :
    d.setPath path value =
      (Fields.setPath path value d.fields).map fun fields => { d with fields := fields } := by
  rw [setPath, assignPath, Fields.setPath]
  obtain ⟨fields, outcome⟩ := Fields.assignPath path value d.fields
  cases outcome <;> rfl

/-- A value can be set in a document at a path of names; the identifier stays. -/
theorem setPath_eq_ok_iff {path : String} {value : Value} {d d' : Document} :
    d.setPath path value = .ok d' ↔
      (∀ segment ∈ pathSegments path, segment ≠ "") ∧ d'.id = d.id ∧
        Fields.Assigns value (pathSegments path) d.fields d'.fields := by
  rw [← and_left_comm, ← Fields.setPath_eq_ok_iff, setPath_eq]
  obtain ⟨id', fields'⟩ := d'
  cases Fields.setPath path value d.fields with
  | error e => simp [Except.map]
  | ok fields => simp [Except.map, eq_comm]

/-- Setting several values keeps the identifier, and is the relation on the fields. -/
theorem setPaths_eq_ok_iff {entries : List (String × Value)} {d d' : Document} :
    setPaths entries d = .ok d' ↔
      Fields.HaveNames entries ∧ d'.id = d.id ∧ Fields.AssignsAll entries d.fields d'.fields := by
  induction entries generalizing d with
  | nil =>
    rw [setPaths]
    constructor
    · rintro ⟨⟩
      exact ⟨by simp [Fields.HaveNames], rfl, .nil _⟩
    · rintro ⟨-, hid, hfields⟩
      obtain ⟨id', fields'⟩ := d'
      cases hfields
      cases hid
      rfl
  | cons e entries ih =>
    obtain ⟨path, value⟩ := e
    have hstep : setPaths ((path, value) :: entries) d = .ok d' ↔
        ∃ x, d.setPath path value = .ok x ∧ setPaths entries x = .ok d' := by
      rw [setPaths]
      cases d.setPath path value <;> simp
    rw [hstep]
    simp only [ih, setPath_eq_ok_iff, Fields.HaveNames, List.forall_mem_cons]
    constructor
    · rintro ⟨x, ⟨hnames, hx, hfirst⟩, hall, hid, hrest⟩
      exact ⟨⟨hnames, hall⟩, hid.trans hx, .cons hfirst hrest⟩
    · rintro ⟨⟨hnames, hall⟩, hid, hset⟩
      cases hset with
      | @cons _ _ _ _ y _ hfirst hrest =>
        exact ⟨⟨d.id, y⟩, ⟨hnames, rfl, hfirst⟩, hall, hid, hrest⟩

/-- Setting numbers in a document of numbers leaves a document of numbers. -/
theorem HasNoNaN.setPaths {entries : List (String × Value)} {d d' : Document} (hd : d.HasNoNaN)
    (hentries : (Value.object entries).HasNoNaN) (h : Document.setPaths entries d = .ok d') :
    d'.HasNoNaN :=
  Value.HasNoNaN.assignsAll hd hentries (setPaths_eq_ok_iff.1 h).2.2

end Document

end MediaCatalogue

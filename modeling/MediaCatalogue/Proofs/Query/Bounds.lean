import MediaCatalogue.Query.Compile
import MediaCatalogue.Store.Matching
import Mathlib.Order.Basic

/-!
# The widest of several bounds

Of several bounds a value has to keep one, and a condition has room for one bound only. It takes the
widest: a value is below some bound if and only if it is below the greatest, and above some bound if
and only if it is above the least. Besides, this file says when a stored value is equal to a
candidate, below a bound, and above one.
-/

set_option autoImplicit false

namespace MediaCatalogue

/-! ## Greatest and least -/

/-- Going through values with one of two picked at each step, the one further on in an order, ends
at one of them that is as far on as each. -/
theorem foldl_pick {α : Type} {R : α → α → Prop} (hrefl : ∀ a, R a a)
    (htrans : ∀ a b c, R a b → R b c → R a c) {pick : α → α → α}
    (hpick : ∀ m b, (pick m b = m ∨ pick m b = b) ∧ R m (pick m b) ∧ R b (pick m b))
    (as : List α) (a : α) : as.foldl pick a ∈ a :: as ∧ ∀ b ∈ a :: as, R b (as.foldl pick a) := by
  induction as generalizing a with
  | nil => simpa using hrefl a
  | cons b as ih =>
    obtain ⟨hone, ha, hb⟩ := hpick a b
    obtain ⟨hmem, hfar⟩ := ih (pick a b)
    rw [List.forall_mem_cons] at hfar
    rw [List.foldl_cons]
    refine ⟨?_, List.forall_mem_cons.2 ⟨htrans _ _ _ ha hfar.1,
      List.forall_mem_cons.2 ⟨htrans _ _ _ hb hfar.1, hfar.2⟩⟩⟩
    rcases List.mem_cons.1 hmem with hmem | hmem
    · rw [hmem]
      rcases hone with h | h <;> simp [h]
    · exact List.mem_cons_of_mem _ (List.mem_cons_of_mem _ hmem)

/-- Only of no values there is no greatest. -/
theorem greatest?_eq_none_iff {α : Type} [Ord α] (as : List α) : greatest? as = none ↔ as = [] := by
  cases as <;> simp [greatest?]

/-- Only of no values there is no least. -/
theorem least?_eq_none_iff {α : Type} [Ord α] (as : List α) : least? as = none ↔ as = [] := by
  cases as <;> simp [least?]

section

variable {α : Type} [Ord α] [Std.TransOrd α]

/-- The greatest of some values is one of them, and none is above it. -/
theorem greatest?_spec {as : List α} {m : α} (h : greatest? as = some m) :
    m ∈ as ∧ ∀ b ∈ as, (compare b m).isLE = true := by
  cases as with
  | nil => simp [greatest?] at h
  | cons a as =>
    rw [greatest?, Option.some.injEq] at h
    subst h
    refine foldl_pick (R := fun b m => (compare b m).isLE = true) (fun _ => Std.ReflCmp.isLE_rfl)
      (fun _ _ _ => Std.TransCmp.isLE_trans) ?_ as a
    intro m b
    by_cases hle : (compare m b).isLE = true
    · simp [hle]
    · have hback : (compare b m).isLE = true := by
        rw [← Std.OrientedCmp.isGE_iff_isLE]
        cases h : compare m b <;> simp_all
      simp [hle, hback]

/-- The least of some values is one of them, and none is below it. -/
theorem least?_spec {as : List α} {m : α} (h : least? as = some m) :
    m ∈ as ∧ ∀ b ∈ as, (compare m b).isLE = true := by
  cases as with
  | nil => simp [least?] at h
  | cons a as =>
    rw [least?, Option.some.injEq] at h
    subst h
    refine foldl_pick (R := fun b m => (compare m b).isLE = true) (fun _ => Std.ReflCmp.isLE_rfl)
      (fun _ _ _ hab hbc => Std.TransCmp.isLE_trans hbc hab) ?_ as a
    intro m b
    by_cases hlt : (compare b m).isLT = true
    · have hle : (compare b m).isLE = true := by
        cases h : compare b m <;> simp_all
      simp [hlt, hle]
    · have hback : (compare m b).isLE = true := by
        rw [← Std.OrientedCmp.isGE_iff_isLE]
        cases h : compare b m <;> simp_all
      simp [hlt, hback]

/-- A value is below one of some values exactly when it is below the greatest of them. -/
theorem any_lt_greatest? (as : List α) (a : α) :
    (as.any fun b => compare a b == .lt) = (greatest? as).any fun b => compare a b == .lt := by
  cases h : greatest? as with
  | none => simp [(greatest?_eq_none_iff as).1 h]
  | some m =>
    obtain ⟨hmem, hle⟩ := greatest?_spec h
    rw [Bool.eq_iff_iff, List.any_eq_true, Option.any_some]
    simp only [beq_iff_eq]
    exact ⟨fun ⟨b, hb, hlt⟩ => Std.TransCmp.lt_of_lt_of_isLE hlt (hle b hb), fun hlt => ⟨m, hmem, hlt⟩⟩

/-- A value is above one of some values exactly when it is above the least of them. -/
theorem any_gt_least? (as : List α) (a : α) :
    (as.any fun b => compare a b == .gt) = (least? as).any fun b => compare a b == .gt := by
  cases h : least? as with
  | none => simp [(least?_eq_none_iff as).1 h]
  | some m =>
    obtain ⟨hmem, hle⟩ := least?_spec h
    rw [Bool.eq_iff_iff, List.any_eq_true, Option.any_some]
    simp only [beq_iff_eq, Std.OrientedCmp.gt_iff_lt]
    exact ⟨fun ⟨b, hb, hgt⟩ => Std.TransCmp.lt_of_isLE_of_lt (hle b hb) hgt, fun hgt => ⟨m, hmem, hgt⟩⟩

end

/-! ## Whole numbers and instants -/

/-- Whole numbers are compared as the integers they stand for. -/
instance instTransOrdInt64 : Std.TransOrd Int64 :=
  inferInstanceAs (Std.TransCmp (compareOn Int64.toInt))

/-- Instants are compared by their seconds, then by their nanoseconds. -/
instance instTransOrdInstant : Std.TransOrd Instant :=
  inferInstanceAs (Std.TransCmp (compareLex (compareOn Instant.seconds) (compareOn Instant.nanos)))

/-- Whole numbers compare as lower when one is below the other. -/
theorem compare_int64_beq_lt (a b : Int64) : (compare a b == .lt) = decide (a < b) := by
  rw [Bool.eq_iff_iff, beq_iff_eq, decide_eq_true_eq, Int64.lt_iff_toInt_lt]
  exact Int.compare_eq_lt

/-- Whole numbers compare as greater when the other is below the one. -/
theorem compare_int64_beq_gt (a b : Int64) : (compare a b == .gt) = decide (b < a) := by
  rw [← compare_int64_beq_lt, Bool.eq_iff_iff, beq_iff_eq, beq_iff_eq, Std.OrientedCmp.gt_iff_lt]

/-- Instants compare as lower when one is before the other. -/
theorem compare_instant_beq_lt (a b : Instant) : (compare a b == .lt) = a.lt b := by
  have hcompare : compare a b = (compare a.seconds b.seconds).then (compare a.nanos b.nanos) := rfl
  rw [Bool.eq_iff_iff, beq_iff_eq, hcompare, Ordering.then_eq_lt, Int.compare_eq_lt, Nat.compare_eq_lt,
    Int.compare_eq_eq]
  simp [Instant.lt]

/-- Instants compare as greater when the other is before the one. -/
theorem compare_instant_beq_gt (a b : Instant) : (compare a b == .gt) = b.lt a := by
  rw [← compare_instant_beq_lt, Bool.eq_iff_iff, beq_iff_eq, beq_iff_eq, Std.OrientedCmp.gt_iff_lt]

end MediaCatalogue

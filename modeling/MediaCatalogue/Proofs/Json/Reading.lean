import MediaCatalogue.Proofs.Document.ExtendedJson

/-!
# JSON values from texts

A number of a text becomes a whole number only if it fits a word, and else a double, which must be a real
number. So whatever text is read, the value in canonical form is one that can be in memory: the canonical
form takes care of the order of members.
-/

set_option autoImplicit false

namespace MediaCatalogue

namespace Json

/-! ## Canonical forms -/

/-- Items are brought to their canonical form one by one. -/
theorem canonicalItems_eq_map (js : List Json) : canonicalItems js = js.map canonical :=
  eq_map_of_cons rfl (fun _ _ => rfl) js

/-- Members in canonical form are put one after another among those in order. -/
theorem canonicalMembers_eq_insertAll (sorted : Fields Json) (ms : List (String × Json)) :
    canonicalMembers sorted ms = Fields.insertAll (ms.map fun m => (m.1, m.2.canonical)) sorted := by
  induction ms generalizing sorted with
  | nil => rfl
  | cons m ms ih => rw [canonicalMembers, ih, List.map_cons, Fields.insertAll_cons]

/-- The value can be in memory, once its members have been put in order. -/
def Storable (j : Json) : Prop :=
  j.canonical.WellFormed

/-- An array can be in memory if its items can. -/
theorem storable_array {items : List Json} (h : ∀ j ∈ items, j.Storable) : (array items).Storable := by
  rw [Storable, canonical, WellFormed, wellFormedItems_iff, canonicalItems_eq_map, List.forall_mem_map]
  exact h

/-- An object can be in memory if its members can; their order takes care of itself. -/
theorem storable_object {members : List (String × Json)} (h : ∀ m ∈ members, m.2.Storable) :
    (object members).Storable := by
  rw [Storable, canonical, WellFormed, wellFormedMembers_iff, canonicalMembers_eq_insertAll]
  refine ⟨Fields.sorted_nil.insertAll _, fun m hm => ?_⟩
  rcases Fields.mem_insertAll hm with hm | hm
  · obtain ⟨m, hmem, rfl⟩ := List.mem_map.1 hm
    exact h m hmem
  · simp at hm

/-! ## Readers -/

variable {cs rest : List Char} {j : Json}

/-- A number that is read is a word, or a double that is finite. -/
theorem storable_of_readNumber (h : readNumber cs = some (j, rest)) : j.Storable := by
  have hlast : ∀ (plain more : Bool) (n : Int) (x : Double) (after : List Char),
      (if (plain && fitsWord n && more) = true then some (int n, after)
        else if x.isFinite = true then some (float x, after) else none) = some (j, rest) →
      j.Storable := by
    intro plain more n x after h
    split at h
    · rename_i hfits
      simp only [Bool.and_eq_true] at hfits
      cases h
      exact hfits.1.2
    · split at h <;> cases h
      assumption
  simp only [readNumber, Option.bind_eq_bind, Option.pure_def] at h
  split at h <;>
  · split at h
    · cases h
    · obtain ⟨fraction, -, h⟩ := Option.bind_eq_some_iff.1 h
      obtain ⟨exponent, -, h⟩ := Option.bind_eq_some_iff.1 h
      exact hlast _ _ _ _ _ h

/-- A word stands for one value. -/
theorem eq_of_readWord {word : List Char} {value : Json} (h : readWord word value cs = some (j, rest)) :
    j = value := by
  rw [readWord] at h
  split at h <;> cases h
  rfl

/-- What the readers of values, items and members give with so much fuel can be in memory. -/
structure ReadsStorable (fuel : Nat) : Prop where
  value : ∀ depth cs j rest, readValue fuel depth cs = some (j, rest) → j.Storable
  items : ∀ depth done cs j rest, (∀ d ∈ done, d.Storable) →
    readItems fuel depth done cs = some (j, rest) → j.Storable
  members : ∀ depth done cs j rest, (∀ d ∈ done, d.2.Storable) →
    readMembers fuel depth done cs = some (j, rest) → j.Storable

namespace ReadsStorable

variable {fuel depth : Nat}

/-- A value is a text, a word or a number, or made of items or members that are read with less fuel. -/
theorem value_succ (hreads : ReadsStorable fuel) (h : readValue (fuel + 1) depth cs = some (j, rest)) :
    j.Storable := by
  rw [readValue] at h
  split at h
  · -- a text
    obtain ⟨⟨s, rest'⟩, -, hs⟩ := Option.map_eq_some_iff.1 h
    cases hs
    trivial
  · -- an array
    split at h
    · cases h
    · split at h
      · cases h
        exact storable_array (by simp)
      · exact hreads.items _ _ _ _ _ (by simp) h
  · -- an object
    split at h
    · cases h
    · split at h
      · cases h
        exact storable_object (by simp)
      · exact hreads.members _ _ _ _ _ (by simp) h
  · rw [eq_of_readWord h]
    trivial
  · rw [eq_of_readWord h]
    trivial
  · rw [eq_of_readWord h]
    trivial
  · exact storable_of_readNumber h

/-- Items stay storable with one more. -/
theorem items_succ (hreads : ReadsStorable fuel) {done : List Json} (hdone : ∀ d ∈ done, d.Storable)
    (h : readItems (fuel + 1) depth done cs = some (j, rest)) : j.Storable := by
  rw [readItems] at h
  split at h
  · cases h
  · rename_i item _ hitem
    have hall : ∀ d ∈ item :: done, d.Storable :=
      List.forall_mem_cons.2 ⟨hreads.value _ _ _ _ hitem, hdone⟩
    split at h
    · exact hreads.items _ _ _ _ _ hall h
    · cases h
      exact storable_array fun d hd => hall d (List.mem_reverse.1 hd)
    · cases h

/-- Members stay storable with one more. -/
theorem members_succ (hreads : ReadsStorable fuel) {done : Fields Json} (hdone : ∀ d ∈ done, d.2.Storable)
    (h : readMembers (fuel + 1) depth done cs = some (j, rest)) : j.Storable := by
  rw [readMembers] at h
  split at h
  · split at h
    · cases h
    · split at h
      · split at h
        · cases h
        · rename_i name _ _ _ _ _ _ item _ hitem
          have hall : ∀ d ∈ (name, item) :: done, d.2.Storable :=
            List.forall_mem_cons.2 ⟨hreads.value _ _ _ _ hitem, hdone⟩
          split at h
          · exact hreads.members _ _ _ _ _ hall h
          · cases h
            exact storable_object fun d hd => hall d (List.mem_reverse.1 hd)
          · cases h
      · cases h
  · cases h

end ReadsStorable

/-- Whatever the fuel, all that is read can be in memory. -/
theorem readsStorable (fuel : Nat) : ReadsStorable fuel := by
  induction fuel with
  | zero => constructor <;> simp [readValue, readItems, readMembers]
  | succ fuel ih =>
    exact ⟨fun _ _ _ _ h => ih.value_succ h, fun _ _ _ _ _ hdone h => ih.items_succ hdone h,
      fun _ _ _ _ _ hdone h => ih.members_succ hdone h⟩

/-- **What is read from a text can be in memory**, in its canonical form. -/
theorem storable_of_read {text : String} (h : read text = some j) : j.Storable := by
  simp only [read] at h
  split at h
  · rename_i j' rest hread
    split at h <;> cases h
    exact (readsStorable _).value _ _ _ _ hread
  · cases h

end Json

/-- The values that are read from texts are read back from their JSON forms, as far as their instants are
whole. -/
theorem Value.of_read {text : String} {j : Json} {v : Value} (h : Json.read text = some j)
    (hv : ofJson j.canonical = .ok v) : v.WellFormed ∧ ∀ u, v.Contains u → u.IsWide ∧ u.IsUnambiguous :=
  of_ofJson (Json.storable_of_read h) hv

end MediaCatalogue

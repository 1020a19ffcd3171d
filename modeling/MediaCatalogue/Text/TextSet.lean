/-!
# Sets of texts

A set of texts is the list of its members in ascending order, each once. Two sets with the same members
are the same list.
-/

set_option autoImplicit false

namespace MediaCatalogue

/-- Texts in ascending order, each once. -/
structure TextSet where
  toList : List String
  sorted : toList.Pairwise (· < ·) := by simp
deriving DecidableEq

namespace TextSet

/-- The set without members. -/
def empty : TextSet := ⟨[], .nil⟩

instance : Inhabited TextSet := ⟨empty⟩

/-- Put a text into an ascending list, unless it is there. -/
def insertInto (s : String) : List String → List String
  | [] => [s]
  | t :: rest => if s < t then s :: t :: rest else if s = t then t :: rest else t :: insertInto s rest

/-- Putting a text in adds that text and keeps every other. -/
theorem mem_insertInto {s t : String} {l : List String} :
    t ∈ insertInto s l ↔ t = s ∨ t ∈ l := by
  induction l with
  | nil => simp [insertInto]
  | cons u rest ih =>
    rw [insertInto]
    split
    · simp
    · split
      · rename_i h
        subst h
        simp
      · simp only [List.mem_cons, ih]
        constructor
        · rintro (h | h | h) <;> simp [h]
        · rintro (h | h | h) <;> simp [h]

/-- Putting a text into an ascending list leaves it ascending. -/
theorem pairwise_insertInto {s : String} {l : List String} (h : l.Pairwise (· < ·)) :
    (insertInto s l).Pairwise (· < ·) := by
  induction l with
  | nil => simp [insertInto]
  | cons t rest ih =>
    rw [insertInto]
    have hrest := List.pairwise_cons.1 h
    split
    · rename_i hst
      refine List.pairwise_cons.2 ⟨fun u hu => ?_, h⟩
      rcases List.mem_cons.1 hu with rfl | hu
      · exact hst
      · exact String.lt_trans hst (hrest.1 u hu)
    · split
      · exact h
      · rename_i hnot hne
        refine List.pairwise_cons.2 ⟨fun u hu => ?_, ih hrest.2⟩
        rcases mem_insertInto.1 hu with rfl | hu
        · rcases Decidable.em (t < u) with hlt | hge
          · exact hlt
          · exact absurd (String.le_antisymm (String.not_lt.1 hge) (String.not_lt.1 hnot)) hne
        · exact hrest.1 u hu

/-- The set with one more member. -/
def insert (s : String) (set : TextSet) : TextSet :=
  ⟨insertInto s set.toList, pairwise_insertInto set.sorted⟩

/-- The set of some texts, which may be repeated. -/
def ofList (l : List String) : TextSet :=
  l.foldl (fun set s => set.insert s) empty

/-- Whether there are no members. -/
def isEmpty (set : TextSet) : Bool :=
  set.toList.isEmpty

/-- Whether a text is a member. -/
def contains (s : String) (set : TextSet) : Bool :=
  set.toList.contains s

end TextSet
end MediaCatalogue

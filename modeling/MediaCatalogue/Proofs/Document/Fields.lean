import MediaCatalogue.Fields
import Mathlib.Data.List.Forall2
import Mathlib.Order.Defs.LinearOrder
import Mathlib.Data.String.Basic

/-!
# Laws of named fields

Putting a field in keeps the order of the names and is seen by looking up that name only; taking one
out, in fields in order, is seen in the same way. In fields in order, what is found under a name and
what is a member are the same thing, so that a property of all members is a property of all
look-ups. Two rows of fields that go in step, name by name, are looked up in step.
-/

set_option autoImplicit false

namespace MediaCatalogue

/-! ## Lists from head to tail -/

section

variable {α β : Type}

/-- A function that takes the elements of a list one by one is a map. -/
theorem eq_map_of_cons {f : α → β} {F : List α → List β} (hnil : F [] = [])
    (hcons : ∀ a as, F (a :: as) = f a :: F as) (as : List α) : F as = as.map f := by
  induction as with
  | nil => exact hnil
  | cons a as ih => rw [hcons, ih, List.map_cons]

/-- A predicate that asks the elements of a list one by one asks all of them. -/
theorem iff_forall_of_cons {P : α → Prop} {F : List α → Prop} (hnil : F [])
    (hcons : ∀ a as, F (a :: as) ↔ P a ∧ F as) (as : List α) : F as ↔ ∀ a ∈ as, P a := by
  induction as with
  | nil => simpa using hnil
  | cons a as ih => rw [hcons, ih, List.forall_mem_cons]

end

/-! ## Lists in step -/

/-- Where each element of a list has a partner, the list has one. -/
theorem exists_forall₂_iff {α β : Type} {R : α → β → Prop} {as : List α} :
    (∃ bs, List.Forall₂ R as bs) ↔ ∀ a ∈ as, ∃ b, R a b := by
  induction as with
  | nil => exact ⟨fun _ => List.forall_mem_nil _, fun _ => ⟨[], List.Forall₂.nil⟩⟩
  | cons a as ih =>
    rw [List.forall_mem_cons, ← ih]
    constructor
    · rintro ⟨bs, h⟩
      cases h with
      | cons hab hrest => exact ⟨⟨_, hab⟩, ⟨_, hrest⟩⟩
    · rintro ⟨⟨b, hab⟩, ⟨bs, hrest⟩⟩
      exact ⟨b :: bs, List.Forall₂.cons hab hrest⟩

section

variable {α β : Type} {R : α → β → Prop} {as : List α} {bs : List β} (h : List.Forall₂ R as bs)

include h

/-- In lists in step each element of the first has its partner in the second. -/
theorem exists_right_of_forall₂ {a : α} (ha : a ∈ as) : ∃ b ∈ bs, R a b := by
  induction h with
  | nil => simp at ha
  | cons hab _ ih =>
    rcases List.mem_cons.1 ha with rfl | ha
    · exact ⟨_, List.mem_cons_self, hab⟩
    · obtain ⟨b, hb, hR⟩ := ih ha
      exact ⟨b, List.mem_cons_of_mem _ hb, hR⟩

/-- In lists in step each element of the second has its partner in the first. -/
theorem exists_left_of_forall₂ {b : β} (hb : b ∈ bs) : ∃ a ∈ as, R a b :=
  exists_right_of_forall₂ h.flip hb

/-- Where one of two lists in step is cut at an element, the other can be cut at its partner. -/
theorem exists_append_of_forall₂ {before after : List α} {a : α} (has : as = before ++ a :: after) :
    ∃ before' b after', bs = before' ++ b :: after' ∧ R a b ∧ List.Forall₂ R after after' := by
  subst has
  induction before generalizing bs with
  | nil =>
    cases h with
    | cons hab hrest => exact ⟨[], _, _, rfl, hab, hrest⟩
  | cons a' before ih =>
    cases h with
    | cons _ hrest =>
      obtain ⟨before', b, after', rfl, hab, hafter⟩ := ih hrest
      exact ⟨_ :: before', b, after', rfl, hab, hafter⟩

end

namespace Fields

variable {α : Type}

/-! ## Looking up -/

/-- A value that is put under a name is found there, and other names lead to what they did. -/
theorem get?_insert (name other : String) (value : α) (fs : Fields α) :
    get? other (insert name value fs) = if other = name then some value else get? other fs := by
  split
  · rename_i h
    subst h
    exact get?_insert_self other value fs
  · rename_i h
    exact get?_insert_of_ne h value fs

/-- What is found under a name is one of the fields. -/
theorem mem_of_get? {name : String} {value : α} {fs : Fields α} (h : get? name fs = some value) :
    (name, value) ∈ fs := by
  induction fs with
  | nil => simp at h
  | cons f rest ih =>
    obtain ⟨n, v⟩ := f
    rw [get?] at h
    split at h
    · rename_i hn
      subst hn
      simp [Option.some.inj h]
    · exact List.mem_cons_of_mem _ (ih h)

/-- Where no name stands twice, every field is found under its name. -/
theorem get?_of_mem {name : String} {value : α} {fs : Fields α} (hnodup : (fs.map Prod.fst).Nodup)
    (h : (name, value) ∈ fs) : get? name fs = some value := by
  induction fs with
  | nil => simp at h
  | cons f rest ih =>
    obtain ⟨n, v⟩ := f
    rw [List.map_cons, List.nodup_cons] at hnodup
    rw [get?]
    rcases List.mem_cons.1 h with h | h
    · cases h
      simp
    · have hne : n ≠ name := fun heq => hnodup.1 (List.mem_map.2 ⟨_, h, heq.symm⟩)
      rw [if_neg hne, ih hnodup.2 h]

/-- In fields in order the first field of a name is the only one. -/
theorem Sorted.get?_of_mem {name : String} {value : α} {fs : Fields α} (hs : Sorted fs)
    (h : (name, value) ∈ fs) : get? name fs = some value :=
  Fields.get?_of_mem ((List.pairwise_map.2 hs).imp ne_of_lt) h

/-- In sorted fields a statement on all fields is one on all that is found under names. -/
theorem Sorted.forall_mem_iff {fs : Fields α} (hs : Sorted fs) (P : String → α → Prop) :
    (∀ f ∈ fs, P f.1 f.2) ↔ ∀ name value, get? name fs = some value → P name value := by
  constructor
  · intro h name value hget
    exact h (name, value) (mem_of_get? hget)
  · intro h f hf
    exact h f.1 f.2 (hs.get?_of_mem hf)

/-- A look-up in fields whose values have been changed in some way. -/
theorem get?_map {β : Type} (name : String) (g : α → β) (fs : Fields α) :
    get? name (fs.map fun f => (f.1, g f.2)) = (get? name fs).map g := by
  induction fs with
  | nil => rfl
  | cons f fs ih =>
    rw [List.map_cons, get?, get?, ih]
    split <;> rfl

/-- A look-up among the fields whose names pass a test. -/
theorem get?_filter (name : String) (test : String → Bool) (fs : Fields α) :
    get? name (fs.filter fun f => test f.1) = if test name then get? name fs else none := by
  induction fs with
  | nil => simp
  | cons f fs ih =>
    by_cases hname : f.1 = name
    · subst hname
      cases htest : test f.1 with
      | true => simp [htest, get?]
      | false => simpa [htest] using ih
    · cases htest : test f.1 with
      | true => simpa [htest, get?, hname] using ih
      | false => simpa [htest, get?, hname] using ih

/-- Under each of the names something is found. -/
theorem exists_get?_of_mem_names {name : String} {fs : Fields α} (h : name ∈ names fs) :
    ∃ value, get? name fs = some value := by
  induction fs with
  | nil => cases h
  | cons f fs ih =>
    rw [get?]
    by_cases hname : f.1 = name
    · exact ⟨f.2, if_pos hname⟩
    · rw [if_neg hname]
      exact ih ((List.mem_cons.1 h).resolve_left (Ne.symm hname))

/-- In fields in order at most one field has a name. -/
theorem Sorted.filter_name {name : String} {value : α} {fs : Fields α} (hs : Sorted fs)
    (h : get? name fs = some value) : fs.filter (fun f => f.1 == name) = [(name, value)] := by
  induction fs with
  | nil => cases h
  | cons f fs ih =>
    obtain ⟨hfirst, hrest⟩ := List.pairwise_cons.1 hs
    rw [get?] at h
    by_cases hname : f.1 = name
    · subst hname
      rw [if_pos rfl] at h
      cases h
      have hothers : fs.filter (fun g => g.1 == f.1) = [] :=
        List.filter_eq_nil_iff.2 fun g hg => by simpa using (hfirst g hg).ne'
      simp [hothers]
    · rw [if_neg hname] at h
      simpa [hname] using ih hrest h

section

variable {β : Type} {R : α → β → Prop} {as : Fields α} {bs : Fields β}
  (h : List.Forall₂ (fun a b => b.1 = a.1 ∧ R a.2 b.2) as bs)

include h

/-- In fields in step, a name is found in both or in neither. -/
theorem get?_forall₂ (name : String) :
    get? name as = none ∧ get? name bs = none ∨
      ∃ a b, get? name as = some a ∧ get? name bs = some b ∧ R a b := by
  induction h with
  | nil => exact Or.inl ⟨rfl, rfl⟩
  | @cons a b as bs hab _ ih =>
    rw [get?, get?, hab.1]
    by_cases hname : a.1 = name
    · exact Or.inr ⟨a.2, b.2, by simp [hname], by simp [hname], hab.2⟩
    · simpa [hname] using ih

/-- Fields in step have the same names. -/
theorem names_forall₂ : names bs = names as := by
  induction h with
  | nil => rfl
  | cons hab _ ih => rw [names, names, List.map_cons, List.map_cons, hab.1, ← names, ih, names]

/-- Fields in step stay so if those of some names only are kept. -/
theorem filter_forall₂ (test : String → Bool) :
    List.Forall₂ (fun a b => b.1 = a.1 ∧ R a.2 b.2) (as.filter fun f => test f.1)
      (bs.filter fun f => test f.1) :=
  List.rel_filter (fun _ _ hab => by simp [hab.1]) h

end

/-! ## Order -/

/-- Fields are sorted when their names ascend. -/
theorem sorted_iff_names {fs : Fields α} : Sorted fs ↔ (names fs).Pairwise (· < ·) :=
  List.pairwise_map.symm

/-- Changing the values leaves fields sorted. -/
theorem Sorted.map {β : Type} {fs : Fields α} (hs : Sorted fs) (g : α → β) :
    Sorted (fs.map fun f => (f.1, g f.2)) :=
  List.pairwise_map.2 hs

/-- No fields are sorted. -/
theorem sorted_nil : Sorted ([] : Fields α) := List.Pairwise.nil

/-- After an insertion there is the new field, and perhaps those before. -/
theorem mem_insert {name : String} {value : α} {fs : Fields α} {f : String × α}
    (h : f ∈ insert name value fs) : f = (name, value) ∨ f ∈ fs := by
  induction fs with
  | nil => exact Or.inl (List.mem_singleton.1 h)
  | cons g rest ih =>
    obtain ⟨n, v⟩ := g
    rw [insert] at h
    split at h
    · exact List.mem_cons.1 h
    · split at h
      · rcases List.mem_cons.1 h with h | h
        · exact Or.inl h
        · exact Or.inr (List.mem_cons_of_mem _ h)
      · rcases List.mem_cons.1 h with h | h
        · exact Or.inr (h ▸ List.mem_cons_self)
        · exact (ih h).imp_right (List.mem_cons_of_mem _)

/-- Fields with one more, under a name that is not there, are that one and those that are there. -/
theorem forall_mem_insert {name : String} {value : α} {fs : Fields α} (h : get? name fs = none)
    {P : String × α → Prop} :
    (∀ f ∈ Fields.insert name value fs, P f) ↔ P (name, value) ∧ ∀ f ∈ fs, P f := by
  induction fs with
  | nil => simp [insert]
  | cons f rest ih =>
    obtain ⟨n, v⟩ := f
    have hn : ¬ n = name := by
      rintro rfl
      simp [get?] at h
    rw [get?, if_neg hn] at h
    rw [insert]
    split
    · rw [List.forall_mem_cons]
    · rw [if_neg (Ne.symm hn), List.forall_mem_cons, ih h, List.forall_mem_cons]
      tauto

/-- Inserting leaves fields sorted. -/
theorem Sorted.insert {fs : Fields α} (hs : Sorted fs) (name : String) (value : α) :
    Sorted (Fields.insert name value fs) := by
  induction fs with
  | nil => exact List.pairwise_singleton _ _
  | cons f rest ih =>
    obtain ⟨n, v⟩ := f
    obtain ⟨hfirst, hrest⟩ := List.pairwise_cons.1 hs
    rw [Fields.insert]
    split
    · rename_i hlt
      refine List.pairwise_cons.2 ⟨fun g hg => ?_, hs⟩
      rcases List.mem_cons.1 hg with rfl | hg
      · exact hlt
      · exact hlt.trans (hfirst g hg)
    · rename_i hnot
      split
      · rename_i heq
        subst heq
        exact List.pairwise_cons.2 ⟨hfirst, hrest⟩
      · rename_i hne
        have hlt : n < name := lt_of_le_of_ne (not_lt.1 hnot) (Ne.symm hne)
        refine List.pairwise_cons.2 ⟨fun g hg => ?_, ih hrest⟩
        rcases mem_insert hg with rfl | hg
        · exact hlt
        · exact hfirst g hg

/-- Inserting one field after another leaves fields sorted. -/
theorem Sorted.insertAll {fs : Fields α} (hs : Sorted fs) (added : List (String × α)) :
    Sorted (Fields.insertAll added fs) := by
  unfold Fields.insertAll
  induction added generalizing fs with
  | nil => exact hs
  | cons f added ih => exact ih (hs.insert f.1 f.2)

/-! ## Putting in twice -/

/-- Of two values put under one name the later stays. -/
theorem insert_insert_self (name : String) (a b : α) (fs : Fields α) :
    insert name b (insert name a fs) = insert name b fs := by
  induction fs with
  | nil => simp [insert]
  | cons f rest ih =>
    obtain ⟨n, v⟩ := f
    rw [insert, insert]
    split
    · rw [insert, if_neg (lt_irrefl name), if_pos rfl]
    · split
      · rw [insert, if_neg (lt_irrefl name), if_pos rfl]
      · rename_i hless hother
        rw [insert, if_neg hless, if_neg hother, ih]

/-- In fields in order, to put in what is there already changes nothing. -/
theorem Sorted.insert_eq_self {name : String} {value : α} {fs : Fields α} (hs : Sorted fs)
    (h : get? name fs = some value) : Fields.insert name value fs = fs := by
  induction fs with
  | nil => cases h
  | cons f rest ih =>
    obtain ⟨n, v⟩ := f
    obtain ⟨hfirst, hrest⟩ := List.pairwise_cons.1 hs
    rw [get?] at h
    rw [Fields.insert]
    by_cases hname : n = name
    · subst hname
      rw [if_pos rfl] at h
      rw [if_neg (lt_irrefl n), if_pos rfl, Option.some.inj h]
    · rw [if_neg hname] at h
      have hless : n < name := hfirst _ (mem_of_get? h)
      rw [if_neg (not_lt_of_gt hless), if_neg (Ne.symm hname), ih hrest h]

/-- Values under different names can be put in either first. -/
theorem insert_comm {m n : String} (h : m ≠ n) (a b : α) (fs : Fields α) :
    insert m a (insert n b fs) = insert n b (insert m a fs) := by
  wlog hless : m < n generalizing m n a b
  · exact (this h.symm b a (lt_of_le_of_ne (not_lt.1 hless) h.symm)).symm
  have hnot : ¬ n < m := not_lt_of_gt hless
  induction fs with
  | nil => simp [insert, hless, hnot, h.symm]
  | cons f rest ih =>
    obtain ⟨k, v⟩ := f
    rcases lt_trichotomy m k with hfirst | rfl | hbehind
    · -- the smaller name comes first, and the other goes behind it
      have hfront : insert m a ((k, v) :: rest) = (m, a) :: (k, v) :: rest := by
        rw [insert, if_pos hfirst]
      have hbehind : insert n b ((m, a) :: (k, v) :: rest) = (m, a) :: insert n b ((k, v) :: rest) := by
        rw [insert, if_neg hnot, if_neg h.symm]
      rw [hfront, hbehind, insert]
      split
      · rw [insert, if_pos hless]
      · split
        · rw [insert, if_pos hless]
        · rw [insert, if_pos hfirst]
    · simp [insert, hnot, h.symm]
    · have hbehind' : k < n := hbehind.trans hless
      simp [insert, not_lt_of_gt hbehind, not_lt_of_gt hbehind', hbehind.ne', hbehind'.ne', ih]

/-! ## Putting several in -/

/-- The first of several fields is inserted before the others. -/
theorem insertAll_cons (f : String × α) (added : List (String × α)) (fs : Fields α) :
    insertAll (f :: added) fs = insertAll added (insert f.1 f.2 fs) := rfl

/-- Inserting several fields brings in none but those. -/
theorem mem_insertAll {added fs : Fields α} {f : String × α} (h : f ∈ insertAll added fs) :
    f ∈ added ∨ f ∈ fs := by
  induction added generalizing fs with
  | nil => exact Or.inr h
  | cons g added ih =>
    rw [insertAll_cons] at h
    rcases ih h with h | h
    · exact Or.inl (List.mem_cons_of_mem _ h)
    · rcases mem_insert h with rfl | h
      · exact Or.inl List.mem_cons_self
      · exact Or.inr h

/-- Of distinct names that are put into fields each leads to its new value, and other names to what they
did. -/
theorem get?_insertAll (name : String) {added : List (String × α)}
    (h : (added.map Prod.fst).Nodup) (fs : Fields α) :
    get? name (insertAll added fs) = (get? name added).or (get? name fs) := by
  induction added generalizing fs with
  | nil => rfl
  | cons f added ih =>
    obtain ⟨n, v⟩ := f
    rw [List.map_cons, List.nodup_cons] at h
    rw [insertAll_cons, ih h.2, get?_insert, get?]
    by_cases hn : n = name
    · subst hn
      have hnone : get? n added = none := by
        rw [← Option.not_isSome_iff_eq_none, Option.isSome_iff_exists]
        rintro ⟨w, hw⟩
        exact h.1 (List.mem_map.2 ⟨_, mem_of_get? hw, rfl⟩)
      simp [hnone]
    · rw [if_neg (Ne.symm hn), if_neg hn]

/-- A field that comes after all others is put at the end. -/
theorem insert_eq_append {name : String} {value : α} {fs : Fields α} (h : ∀ f ∈ fs, f.1 < name) :
    insert name value fs = fs ++ [(name, value)] := by
  induction fs with
  | nil => rfl
  | cons f fs ih =>
    rw [List.forall_mem_cons] at h
    rw [insert, if_neg (not_lt_of_gt h.1), if_neg h.1.ne', ih h.2, List.cons_append]

/-- Fields that all come behind the others are put behind them. -/
theorem insertAll_eq_append {added fs : Fields α} (h : Sorted (fs ++ added)) :
    insertAll added fs = fs ++ added := by
  induction added generalizing fs with
  | nil => rw [List.append_nil]; rfl
  | cons f added ih =>
    have hlast : ∀ g ∈ fs, g.1 < f.1 := fun g hg =>
      (List.pairwise_append.1 h).2.2 g hg f List.mem_cons_self
    have hmoved : fs ++ f :: added = fs ++ [f] ++ added := by simp
    rw [insertAll_cons, insert_eq_append hlast, ih (hmoved ▸ h), hmoved]

/-- Fields in order, put in one after another, are themselves. -/
theorem Sorted.insertAll_nil {fs : Fields α} (hs : Sorted fs) : Fields.insertAll fs [] = fs :=
  insertAll_eq_append hs

/-! ## Taking out -/

/-- A name that is taken out of sorted fields leads nowhere, and other names to what they did. -/
theorem Sorted.get?_erase {fs : Fields α} (hs : Sorted fs) (name other : String) :
    get? other (erase name fs) = if other = name then none else get? other fs := by
  induction fs with
  | nil => simp [erase]
  | cons f rest ih =>
    obtain ⟨n, v⟩ := f
    obtain ⟨hfirst, hrest⟩ := List.pairwise_cons.1 hs
    rw [erase]
    by_cases hn : n = name
    · subst hn
      rw [if_pos rfl]
      by_cases ho : other = n
      · subst ho
        rw [if_pos rfl, ← Option.not_isSome_iff_eq_none, Option.isSome_iff_exists]
        rintro ⟨w, hw⟩
        exact lt_irrefl other (hfirst _ (mem_of_get? hw))
      · rw [if_neg ho, get?, if_neg (Ne.symm ho)]
    · rw [if_neg hn, get?, ih hrest]
      by_cases ho : n = other
      · subst ho
        simp [get?, hn]
      · simp [get?, ho]

/-- What is left after a field is taken out was there before. -/
theorem mem_of_mem_erase {name : String} {fs : Fields α} {f : String × α} (h : f ∈ erase name fs) :
    f ∈ fs := by
  induction fs with
  | nil => simp [erase] at h
  | cons g rest ih =>
    obtain ⟨n, v⟩ := g
    rw [erase] at h
    split at h
    · exact List.mem_cons_of_mem _ h
    · rcases List.mem_cons.1 h with h | h
      · exact h ▸ List.mem_cons_self
      · exact List.mem_cons_of_mem _ (ih h)

/-- Taking a field out leaves fields sorted. -/
theorem Sorted.erase {fs : Fields α} (hs : Sorted fs) (name : String) :
    Sorted (Fields.erase name fs) := by
  induction fs with
  | nil => exact sorted_nil
  | cons f rest ih =>
    obtain ⟨n, v⟩ := f
    obtain ⟨hfirst, hrest⟩ := List.pairwise_cons.1 hs
    rw [Fields.erase]
    split
    · exact hrest
    · exact List.pairwise_cons.2 ⟨fun g hg => hfirst g (mem_of_mem_erase hg), ih hrest⟩

end Fields

end MediaCatalogue

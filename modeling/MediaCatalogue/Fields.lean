/-!
# Named fields

Fields are kept in ascending order of their names, by code points, with one field of each name. The
operations keep that order, which is the order in which fields are read, written and reported.
-/

set_option autoImplicit false

namespace MediaCatalogue

/-- Values under names, in ascending order of the names. -/
abbrev Fields (α : Type) := List (String × α)

namespace Fields

variable {α β : Type}

/-- Whether the names ascend. -/
def Sorted (fs : Fields α) : Prop :=
  fs.Pairwise fun a b => a.1 < b.1

/-- The value under a name. -/
def get? (name : String) : Fields α → Option α
  | [] => none
  | (n, v) :: rest => if n = name then some v else get? name rest

/-- Put a value under a name, in place of one that is there. -/
def insert (name : String) (value : α) : Fields α → Fields α
  | [] => [(name, value)]
  | (n, v) :: rest =>
    if name < n then (name, value) :: (n, v) :: rest
    else if name = n then (name, value) :: rest
    else (n, v) :: insert name value rest

/-- Take out the value under a name. -/
def erase (name : String) : Fields α → Fields α
  | [] => []
  | (n, v) :: rest => if n = name then rest else (n, v) :: erase name rest

/-- Whether there is a value under a name. -/
def contains (name : String) (fs : Fields α) : Bool :=
  (get? name fs).isSome

/-- The names in order. -/
def names (fs : Fields α) : List String :=
  fs.map (·.1)

/-- Put fields one after another into others; of two of one name the later stays. -/
def insertAll (added : List (String × α)) (fs : Fields α) : Fields α :=
  added.foldl (fun fs f => insert f.1 f.2 fs) fs

/-- Fields from a list in any order; of two of one name the later stays. -/
def ofList (entries : List (String × α)) : Fields α :=
  insertAll entries []

/-- Nothing is found where there are no fields. -/
@[simp] theorem get?_nil (name : String) : get? name ([] : Fields α) = none := rfl

/-- What was put under a name is found there. -/
theorem get?_insert_self (name : String) (value : α) (fs : Fields α) :
    get? name (insert name value fs) = some value := by
  induction fs with
  | nil => simp [insert, get?]
  | cons f rest ih =>
    obtain ⟨n, v⟩ := f
    rw [insert]
    split
    · simp [get?]
    · split
      · simp [get?]
      · rename_i h
        have h' : ¬ n = name := fun e => h e.symm
        simp [get?, h', ih]

/-- What is put under one name leaves the others as they are. -/
theorem get?_insert_of_ne {name other : String} (h : other ≠ name) (value : α) (fs : Fields α) :
    get? other (insert name value fs) = get? other fs := by
  induction fs with
  | nil => simp [insert, get?, Ne.symm h]
  | cons f rest ih =>
    obtain ⟨n, v⟩ := f
    rw [insert]
    split
    · simp [get?, Ne.symm h]
    · split
      · rename_i e
        subst e
        simp [get?, Ne.symm h]
      · simp [get?, ih]

end Fields
end MediaCatalogue

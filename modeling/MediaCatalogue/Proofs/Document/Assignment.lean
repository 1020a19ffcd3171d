import MediaCatalogue.Document.Path
import MediaCatalogue.Proofs.Document.Fields

/-!
# Setting a value at a path

To set a value at a path means to go down through objects, to make those that are missing, and to put
the value in at the end. As a relation between the fields before and after, this has one rule for the
end of a path and one for a step on the way, and what setting a value does follows by induction on it:

- the path leads to the value, and to nothing else;
- a path that is apart from it, neither of the two leading on from the other, leads to what it led to;
- values at paths that are apart can be set in either order;
- what was set at a path, or further on, is forgotten when a value is set there again.

A path that leads on from another one is a later text, so paths in order are set from the outside in.
-/

set_option autoImplicit false

namespace MediaCatalogue

/-! ## Paths as texts -/

/-- A text whose parts are the first parts of another is what that begins with. -/
theorem Text.isPrefix_of_splitChars {separator : Char} {cs ds : List Char}
    (h : splitChars separator cs <+: splitChars separator ds) : cs <+: ds := by
  induction cs generalizing ds with
  | nil => exact List.nil_prefix
  | cons c cs ih =>
    obtain ⟨part, parts, hcs⟩ := List.exists_cons_of_ne_nil (splitChars_ne_nil separator cs)
    cases ds with
    | nil =>
      by_cases hc : c = separator
      · simp [splitChars, hc, splitChars_ne_nil] at h
      · simp [splitChars, hc, hcs] at h
    | cons d ds =>
      obtain ⟨part', parts', hds⟩ := List.exists_cons_of_ne_nil (splitChars_ne_nil separator ds)
      by_cases hc : c = separator <;> by_cases hd : d = separator
      · simp only [splitChars, hc, hd, if_true, List.cons_prefix_cons, true_and] at h
        exact List.cons_prefix_cons.2 ⟨hc.trans hd.symm, ih h⟩
      · simp [splitChars, hc, hd, hds] at h
      · simp [splitChars, hc, hd, hcs] at h
      · simp only [splitChars, hc, hd, hcs, hds, if_false, List.cons_prefix_cons, List.cons.injEq] at h
        obtain ⟨⟨hhead, hpart⟩, hparts⟩ := h
        refine List.cons_prefix_cons.2 ⟨hhead, ih ?_⟩
        rw [hcs, hds, List.cons_prefix_cons]
        exact ⟨hpart, hparts⟩

/-- What a text begins with does not come after it. -/
theorem Text.le_of_isPrefix {cs ds : List Char} (h : cs <+: ds) : cs ≤ ds := by
  obtain ⟨rest, rfl⟩ := h
  induction cs with
  | nil => exact not_lt.1 (List.not_lt_nil _)
  | cons c cs ih => exact List.cons_le_cons c ih

/-- A path that leads on from another one does not come before it. -/
theorem le_of_pathSegments {p q : String} (h : pathSegments p <+: pathSegments q) : p ≤ q := by
  have hparts : Text.splitChars '.' p.toList <+: Text.splitChars '.' q.toList := by
    have htexts := h.map String.toList
    simpa [pathSegments, Text.split, Function.comp_def] using htexts
  exact String.le_iff_toList_le.2 (Text.le_of_isPrefix (Text.isPrefix_of_splitChars hparts))

/-- Neither of two paths leads on from the other. -/
def Apart (p q : List String) : Prop :=
  ¬ p <+: q ∧ ¬ q <+: p

/-- Paths that are apart part ways at their first names or later. -/
theorem apart_cons_iff {m n : String} {p q : List String} :
    Apart (m :: p) (n :: q) ↔ m ≠ n ∨ Apart p q := by
  by_cases h : m = n
  · simp [Apart, List.cons_prefix_cons, h]
  · simp [Apart, List.cons_prefix_cons, h, Ne.symm h]

namespace Fields

/-! ## The relation -/

/-- The object under a name, which is new if there is nothing; what is no object is in the way. -/
def objectAt? (name : String) (fields : Fields Value) : Option (Fields Value) :=
  ((get? name fields).getD (.object [])).object?

/-- An object that was put under a name is the one there. -/
theorem objectAt?_insert_self (name : String) (inner fields : Fields Value) :
    objectAt? name (insert name (.object inner) fields) = some inner := by
  rw [objectAt?, get?_insert_self]
  rfl

/-- Under another name the object is the one that was there. -/
theorem objectAt?_insert_of_ne {name other : String} (h : other ≠ name) (value : Value)
    (fields : Fields Value) : objectAt? other (insert name value fields) = objectAt? other fields := by
  rw [objectAt?, get?_insert_of_ne h, objectAt?]

/-- What is under a name is the object there, or nothing if that is new. -/
theorem get?_of_objectAt? {name : String} {fields inner : Fields Value}
    (h : objectAt? name fields = some inner) :
    get? name fields = some (.object inner) ∨ get? name fields = none ∧ inner = [] := by
  rw [objectAt?] at h
  cases hget : get? name fields with
  | none =>
    rw [hget] at h
    cases h
    exact .inr ⟨rfl, rfl⟩
  | some v =>
    rw [hget] at h
    cases v with
    | object fields =>
      cases h
      exact .inl rfl
    | _ => cases h

/-- A value is set at the end of a path, from the fields before to the fields after. -/
inductive Assigns (value : Value) : List String → Fields Value → Fields Value → Prop where
  | last (name : String) (fields : Fields Value) : Assigns value [name] fields (insert name value fields)
  | inner {name : String} {path : List String} {fields inner inner' : Fields Value} :
    objectAt? name fields = some inner → Assigns value path inner inner' →
      Assigns value (name :: path) fields (insert name (.object inner') fields)

/-- To set a value inside an object that was put in before is to put in another one. -/
theorem Assigns.inside {value : Value} {path : List String} {inner inner' : Fields Value}
    (h : Assigns value path inner inner') (name : String) (fields : Fields Value) :
    Assigns value (name :: path) (insert name (.object inner) fields)
      (insert name (.object inner') fields) := by
  rw [← insert_insert_self name (.object inner) (.object inner') fields]
  exact .inner (objectAt?_insert_self name inner fields) h

/-- A step on the way goes into the object under the name, or stops there. -/
theorem assign_cons {path : List String} (h : path ≠ []) (value : Value) (name : String)
    (fields : Fields Value) :
    assign value (name :: path) fields =
      match objectAt? name fields with
      | some inner =>
        (insert name (.object (assign value path inner).1) fields, (assign value path inner).2)
      | none => (fields, false) := by
  obtain ⟨next, path, rfl⟩ := List.exists_cons_of_ne_nil h
  rw [assign.eq_3 _ _ _ _ (by simp), objectAt?]
  cases (get? name fields).getD (.object []) <;> rfl

/-- Assigning puts the value in just where the relation holds, and gives the fields that it relates. -/
theorem assign_eq_true_iff {value : Value} {path : List String} {fields fields' : Fields Value} :
    assign value path fields = (fields', true) ↔ Assigns value path fields fields' := by
  constructor
  · intro h
    induction path generalizing fields fields' with
    | nil => cases h
    | cons name path ih =>
      by_cases hpath : path = []
      · subst hpath
        cases h
        exact .last name fields
      · rw [assign_cons hpath] at h
        cases hinner : objectAt? name fields with
        | none => simp [hinner] at h
        | some inner =>
          simp only [hinner, Prod.mk.injEq] at h
          obtain ⟨rfl, hdone⟩ := h
          exact .inner hinner (ih (Prod.ext rfl hdone))
  · intro h
    induction h with
    | last name fields => rfl
    | @inner name path fields inner inner' hinner hset ih =>
      have hpath : path ≠ [] := by
        rintro rfl
        cases hset
      simp [assign_cons hpath, hinner, ih]

/-- A path at which a value is set has a name on each step. -/
theorem setPath_eq_ok_iff {path : String} {value : Value} {fields fields' : Fields Value} :
    setPath path value fields = .ok fields' ↔
      (∀ segment ∈ pathSegments path, segment ≠ "") ∧
        Assigns value (pathSegments path) fields fields' := by
  rw [setPath, assignPath, ← assign_eq_true_iff]
  by_cases hempty : (pathSegments path).any (·.isEmpty) = true
  · have hnot : ¬ ∀ segment ∈ pathSegments path, segment ≠ "" := by simpa using hempty
    simp [hempty, hnot]
  · have hall : ∀ segment ∈ pathSegments path, segment ≠ "" := by
      intro segment hsegment heq
      exact hempty (List.any_eq_true.2 ⟨segment, hsegment, by simp [heq]⟩)
    rw [and_iff_right hall]
    obtain ⟨after, done⟩ := assign value (pathSegments path) fields
    cases done <;> simp [hempty]

/-! ## What paths lead to -/

/-- The first name of a path leads from an object to what is under it. -/
theorem resolve_object_cons (name : String) (path : List String) (fields : Fields Value) :
    Value.resolve [.object fields] (name :: path) = Value.resolve (get? name fields).toList path := by
  simp [Value.resolve, Value.children]

/-- From no value a path leads to none. -/
theorem resolve_nothing (path : List String) : Value.resolve [] path = [] := by
  induction path with
  | nil => rfl
  | cons name path ih => exact ih

/-- A way of going along paths: from an object a name leads to what is under it, and from where there is
nothing no name leads anywhere. -/
structure IsWalk {α : Type} (walk : Option Value → List String → α) : Prop where
  object (name : String) (path : List String) (fields : Fields Value) :
    walk (some (.object fields)) (name :: path) = walk (get? name fields) path
  nothing (path : List String) : walk none path = walk none []

/-- Finding all values at a path is a way of going along it. -/
theorem isWalk_resolve : IsWalk fun v path => Value.resolve v.toList path where
  object name path fields := resolve_object_cons name path fields
  nothing path := resolve_nothing path

section

variable {value : Value} {path : List String} {before after : Fields Value}
  (h : Assigns value path before after)

include h

/-- However one goes along paths, the end of the path is the value now. -/
theorem Assigns.walk_self {α : Type} {walk : Option Value → List String → α} (hwalk : IsWalk walk) :
    walk (some (.object after)) path = walk (some value) [] := by
  induction h with
  | last name fields => rw [hwalk.object, get?_insert_self]
  | inner _ _ ih => rw [hwalk.object, get?_insert_self, ih]

/-- However one goes along paths, a path that is apart ends where it ended before. -/
theorem Assigns.walk_of_apart {α : Type} {walk : Option Value → List String → α} (hwalk : IsWalk walk)
    {other : List String} (hother : Apart path other) :
    walk (some (.object after)) other = walk (some (.object before)) other := by
  induction h generalizing other with
  | last name fields =>
    cases other with
    | nil => exact absurd List.nil_prefix hother.2
    | cons first rest =>
      have hne : first ≠ name := by
        rintro rfl
        exact hother.1 (List.cons_prefix_cons.2 ⟨rfl, List.nil_prefix⟩)
      rw [hwalk.object, hwalk.object, get?_insert_of_ne hne]
  | @inner name path fields inner inner' hinner _ ih =>
    cases other with
    | nil => exact absurd List.nil_prefix hother.2
    | cons first rest =>
      rw [hwalk.object, hwalk.object]
      by_cases hfirst : first = name
      · subst hfirst
        have hrest : Apart path rest := (apart_cons_iff.1 hother).resolve_left (by simp)
        rw [get?_insert_self, ih hrest]
        rcases get?_of_objectAt? hinner with hget | ⟨hget, rfl⟩
        · rw [hget]
        · -- the object is new, and nothing is found in it
          cases rest with
          | nil => exact absurd List.nil_prefix hrest.2
          | cons next rest => rw [hget, hwalk.object, get?_nil, hwalk.nothing, hwalk.nothing (next :: rest)]
      · rw [get?_insert_of_ne hfirst]

/-- The value is all that is found at the path afterwards. -/
theorem Assigns.resolve_self : Value.resolve [.object after] path = [value] :=
  h.walk_self isWalk_resolve

/-- A path that is apart leads to what it led to before. -/
theorem Assigns.resolve_of_apart {other : List String} (hother : Apart path other) :
    Value.resolve [.object after] other = Value.resolve [.object before] other :=
  h.walk_of_apart isWalk_resolve hother

/-- On the way to the end of the path there are objects only. -/
theorem Assigns.object_of_mem_resolve {front : List String} (hfront : front <+: path)
    (hne : front ≠ path) : ∀ v ∈ Value.resolve [.object before] front, v.object?.isSome = true := by
  induction h generalizing front with
  | last name fields =>
    cases front with
    | nil => simp [Value.resolve, Value.object?]
    | cons first rest =>
      obtain ⟨rfl, hrest⟩ := List.cons_prefix_cons.1 hfront
      exact absurd (congrArg (first :: ·) (List.prefix_nil.1 hrest)) hne
  | @inner name path fields inner inner' hinner _ ih =>
    cases front with
    | nil => simp [Value.resolve, Value.object?]
    | cons first rest =>
      obtain ⟨rfl, hrest⟩ := List.cons_prefix_cons.1 hfront
      have hinside := ih hrest fun heq => hne (congrArg (first :: ·) heq)
      rw [resolve_object_cons]
      rcases get?_of_objectAt? hinner with hget | ⟨hget, rfl⟩
      · rw [hget, Option.toList_some]
        exact hinside
      · simp [hget, resolve_nothing]

end

/-! ## Two values set -/

/-- What was set at a path, or further on, makes no difference to what is set there afterwards. -/
theorem Assigns.overwrite {v w : Value} {p q : List String} {fields x y : Fields Value}
    (hx : Assigns v p fields x) (hy : Assigns w q fields y) (hq : q <+: p) : Assigns w q x y := by
  induction hy generalizing p x with
  | last name fields =>
    cases hx with
    | last name' fields =>
      obtain ⟨rfl, -⟩ := List.cons_prefix_cons.1 hq
      rw [← insert_insert_self name v w fields]
      exact .last name _
    | inner hinner _ =>
      obtain ⟨rfl, -⟩ := List.cons_prefix_cons.1 hq
      rw [← insert_insert_self name _ w fields]
      exact .last name _
  | @inner name path fields inner inner' hinner hset ih =>
    cases hx with
    | last name' fields =>
      obtain ⟨rfl, hnil⟩ := List.cons_prefix_cons.1 hq
      cases List.prefix_nil.1 hnil
      cases hset
    | @inner name' path' fields there there' hthere hset' =>
      obtain ⟨rfl, hrest⟩ := List.cons_prefix_cons.1 hq
      obtain rfl : inner = there := Option.some.inj (hinner.symm.trans hthere)
      exact (ih hset' hrest).inside name fields

/-- Only the field of the first name changes, and what it becomes does not hang on the others. -/
theorem Assigns.exists_insert {value : Value} {name : String} {path : List String}
    {fields fields' : Fields Value} (h : Assigns value (name :: path) fields fields') :
    ∃ v, fields' = insert name v fields ∧ ∀ other w, other ≠ name →
      Assigns value (name :: path) (insert other w fields) (insert name v (insert other w fields)) := by
  cases h with
  | last name fields => exact ⟨value, rfl, fun other w _ => .last name _⟩
  | @inner name path fields inner inner' hinner hset =>
    refine ⟨.object inner', rfl, fun other w hother => .inner ?_ hset⟩
    rw [objectAt?_insert_of_ne hother.symm, hinner]

/-- Values at paths that are apart can be set in either order. -/
theorem Assigns.diamond {v w : Value} {p q : List String} {fields x y : Fields Value}
    (hx : Assigns v p fields x) (hy : Assigns w q fields y) (hapart : Apart p q) :
    ∃ z, Assigns w q x z ∧ Assigns v p y z := by
  induction p generalizing q fields x y with
  | nil => cases hx
  | cons m p ih =>
    cases q with
    | nil => cases hy
    | cons n q =>
      by_cases hname : m = n
      · subst hname
        have hrest : Apart p q := (apart_cons_iff.1 hapart).resolve_left (by simp)
        cases hx with
        | last => exact absurd List.nil_prefix hrest.1
        | @inner _ _ _ here here' hhere hset =>
          cases hy with
          | last => exact absurd List.nil_prefix hrest.2
          | @inner _ _ _ there there' hthere hset' =>
            obtain rfl : here = there := Option.some.inj (hhere.symm.trans hthere)
            obtain ⟨inside, hq, hp⟩ := ih hset hset' hrest
            exact ⟨insert m (.object inside) fields, hq.inside m fields, hp.inside m fields⟩
      · obtain ⟨a, rfl, hfirst⟩ := hx.exists_insert
        obtain ⟨b, rfl, hsecond⟩ := hy.exists_insert
        refine ⟨_, hsecond m a hname, ?_⟩
        rw [insert_comm (Ne.symm hname)]
        exact hfirst n b (Ne.symm hname)

end Fields

end MediaCatalogue

import MediaCatalogue.Toml.Basic

/-!
# Building tables

A configuration file is a row of statements: a heading opens a table or adds one to an array of tables,
and an entry puts a value under a key, whose parts may lead through tables. A table may be opened by one
heading only, and not be extended in another way than it was made; a key may be given one value only.
-/

set_option autoImplicit false

namespace MediaCatalogue.Toml

/-- How a table came to be: on the way to another, by a heading, or by a key of several parts. -/
inductive Origin where
  | onTheWay
  | heading
  | dottedKey
deriving DecidableEq

/-- What a key leads to while a file is read. -/
inductive Node where
  | value (v : Toml)
  | table (origin : Origin) (entries : List (String × Node))
  | tables (done : List (List (String × Node))) (last : List (String × Node))
deriving Inhabited

/-- The entries of a table in the making. -/
abbrev Entries := List (String × Node)

/-- The node under a key. -/
def Entries.get? (key : String) (entries : Entries) : Option Node :=
  entries.lookup key

/-- Put a node under a key, in its place if there is one. -/
def Entries.put (key : String) (node : Node) (entries : Entries) : Entries :=
  if entries.any fun e => e.1 == key then
    entries.map fun e => if e.1 == key then (key, node) else e
  else entries ++ [(key, node)]

/-- Change the table that a row of keys leads to from the given one, making tables of an origin on the way;
`change` is told whether the table was made by a key of several parts. -/
def descend (origin : Origin) (change : Bool → Entries → Option Entries) :
    List String → Bool → Entries → Option Entries
  | [], dotted, entries => change dotted entries
  | key :: rest, _, entries =>
    match Entries.get? key entries with
    | none =>
      (descend origin change rest (origin == .dottedKey) []).map fun inner =>
        Entries.put key (.table origin inner) entries
    | some (.table o inner) =>
      if origin = .dottedKey ∧ o = .heading then none
      else
        (descend origin change rest (o == .dottedKey) inner).map fun inner =>
          Entries.put key (.table o inner) entries
    | some (.tables done last) =>
      (descend origin change rest false last).map fun last =>
        Entries.put key (.tables done last) entries
    | some (.value _) => none

/-- Begin the table of a heading, which may have been passed through but not begun before. -/
def openTable (path : List String) (root : Entries) : Option Entries :=
  let key := path.getLast?.getD ""
  descend .onTheWay (fun _ entries =>
    match Entries.get? key entries with
    | none => some (Entries.put key (.table .heading []) entries)
    | some (.table .onTheWay inner) => some (Entries.put key (.table .heading inner) entries)
    | some _ => none) path.dropLast false root

/-- Add a table to the array of a heading. -/
def addTable (path : List String) (root : Entries) : Option Entries :=
  let key := path.getLast?.getD ""
  descend .onTheWay (fun _ entries =>
    match Entries.get? key entries with
    | none => some (Entries.put key (.tables [] []) entries)
    | some (.tables done last) => some (Entries.put key (.tables (done ++ [last]) []) entries)
    | some _ => none) path.dropLast false root

/-- Put a value under a key into the table of entries. -/
def putValue (path : List String) (v : Toml) (entries : Entries) : Option Entries :=
  let key := path.getLast?.getD ""
  let parents := path.dropLast
  descend .dottedKey (fun dotted entries =>
    if dotted == parents.isEmpty then none
    else if (Entries.get? key entries).isSome then none
    else some (entries ++ [(key, .value v)])) parents false entries

/-- Put a value under a key into the table of a heading. -/
def putValueAt (heading path : List String) (v : Toml) (root : Entries) : Option Entries :=
  descend .onTheWay (fun _ entries => putValue path v entries) heading false root

mutual

/-- The value that a node stands for. -/
def Node.toToml : Node → Toml
  | .value v => v
  | .table _ entries => .table (entriesToToml entries)
  | .tables done last => .array (tablesToToml done ++ [.table (entriesToToml last)])

/-- The values that nodes stand for. -/
def entriesToToml : List (String × Node) → List (String × Toml)
  | [] => []
  | (key, n) :: es => (key, n.toToml) :: entriesToToml es

/-- The tables of an array. -/
def tablesToToml : List (List (String × Node)) → List Toml
  | [] => []
  | t :: ts => .table (entriesToToml t) :: tablesToToml ts

end

end MediaCatalogue.Toml

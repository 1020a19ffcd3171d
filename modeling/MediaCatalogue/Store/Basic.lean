import MediaCatalogue.Store.Collection

/-!
# Stores

A store holds collections by name. A collection that is asked for is made if it is not there, and stays.
-/

set_option autoImplicit false

namespace MediaCatalogue

/-- Collections by name. -/
structure Store where
  collections : Fields Collection := []

namespace Store

/-- The collection of a name; one that is not there is empty. -/
def collection (name : String) (s : Store) : Collection :=
  (Fields.get? name s.collections).getD {}

/-- Put a collection under a name, in place of the one that is there. -/
def setCollection (name : String) (c : Collection) (s : Store) : Store :=
  ⟨Fields.insert name c s.collections⟩

/-- Do an operation on the collection of a name, which is made if it is not there. -/
def within {α : Type} (name : String) (operation : Collection → Collection × α) (s : Store) :
    Store × α :=
  let (c, result) := operation (s.collection name)
  (s.setCollection name c, result)

/-- The names of the collections, in order. -/
def names (s : Store) : List String :=
  Fields.names s.collections

end Store
end MediaCatalogue

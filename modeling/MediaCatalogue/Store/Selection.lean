/-!
# Selections

A selection is a window on a list of results: how many to skip, and how many to take at most.
-/

set_option autoImplicit false

namespace MediaCatalogue

/-- A window on a list of results; without a limit it has no end. -/
structure Selection where
  offset : Nat := 0
  limit : Option Nat := none
deriving DecidableEq

namespace Selection

/-- Whether the window may leave something out. -/
def restricts (s : Selection) : Bool :=
  0 < s.offset || s.limit.isSome

/-- What is seen through the window. -/
def apply {α : Type} (s : Selection) (results : List α) : List α :=
  match s.limit with
  | some n => (results.drop s.offset).take n
  | none => results.drop s.offset

end Selection
end MediaCatalogue

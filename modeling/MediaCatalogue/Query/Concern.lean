import MediaCatalogue.Query.Constraint

/-!
# What constraints are about

Constraints concern a level of the hierarchy of entities when one of them belongs to it or beneath.
-/

set_option autoImplicit false

namespace MediaCatalogue

namespace EntityKind

/-- Versions and all that is beneath them. -/
def versionOrBelow : List EntityKind := [.version, .broadcast, .encoding, .location, .policy]

/-- Broadcasts, beneath which there is nothing. -/
def broadcastOnly : List EntityKind := [.broadcast]

/-- Encodings and all that is beneath them. -/
def encodingOrBelow : List EntityKind := [.encoding, .location, .policy]

/-- Locations and the policies beneath them. -/
def locationOrBelow : List EntityKind := [.location, .policy]

/-- Items and all that is beneath them. -/
def itemOrBelow : List EntityKind := .item :: versionOrBelow

end EntityKind

/-- Whether some constraint is about one of the kinds, or a kind beneath one. -/
def concerns (constraints : List Constraint) (kinds : List EntityKind) : Bool :=
  constraints.any fun c => kinds.any c.subject.target.isA

end MediaCatalogue

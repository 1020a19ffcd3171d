import MediaCatalogue.Content.Version

/-!
# Content

A piece of content is an item with its versions, a container (a brand or a series) with its members, or a
group that someone has put together. All kinds are described by the same fields and known by uris: the
canonical one, a short one, and aliases.
-/

set_option autoImplicit false

namespace MediaCatalogue

/-- What is said of every piece of content. -/
structure Described where
  canonicalUri : String := ""
  curie : Option String := none
  aliases : TextSet := .empty
  title : Option String := none
  description : Option String := none
  publisher : Option Publisher := none
  genres : TextSet := .empty
  tags : TextSet := .empty
  mediaType : Option MediaType := none
  lastUpdated : Option Instant := none
deriving DecidableEq

namespace Described

/-- The uris by which the content is known: canonical, short, aliases. -/
def uris (d : Described) : List String :=
  d.canonicalUri :: d.curie.toList ++ d.aliases.toList

/-- Whether a uri is one of those by which the content is known. -/
def isKnownAs (uri : String) (d : Described) : Bool :=
  d.uris.contains uri

end Described

/-- An item with its versions. -/
structure Item where
  described : Described := {}
  kind : ItemKind := .item
  isLongForm : Bool := false
  container : Option String := none
  episodeNumber : Option Int64 := none
  seriesNumber : Option Int64 := none
  versions : List Version := []
deriving DecidableEq

/-- A container without its members. -/
structure Container where
  described : Described := {}
  kind : ContainerKind := .container
  seriesNumber : Option Int64 := none
deriving DecidableEq

/-- A piece of content; containers and groups hold others, to any depth. -/
inductive Content where
  | item (i : Item)
  | container (c : Container) (members : List Content)
  | group (d : Described) (members : List Content)

namespace Content

/-- What is said of all content alike. -/
def described : Content → Described
  | .item i => i.described
  | .container c _ => c.described
  | .group d _ => d

/-- The content that is held by this one. -/
def members : Content → List Content
  | .item _ => []
  | .container _ ms => ms
  | .group _ ms => ms

/-- The canonical uri. -/
def uri (c : Content) : String :=
  c.described.canonicalUri

/-- Where the content comes from. -/
def publisher (c : Content) : Option Publisher :=
  c.described.publisher

mutual

/-- Whether two pieces of content are equal in every part. -/
def equals : Content → Content → Bool
  | .item a, .item b => a == b
  | .container a as, .container b bs => a == b && equalAll as bs
  | .group a as, .group b bs => a == b && equalAll as bs
  | _, _ => false

/-- Whether two lists of content are equal one by one. -/
def equalAll : List Content → List Content → Bool
  | [], [] => true
  | a :: as, b :: bs => a.equals b && equalAll as bs
  | _, _ => false

end

/-- The uris by which the content can be found: its own and those of its members, in order. -/
def lookupUris (c : Content) : TextSet :=
  .ofList (c.described.uris ++ c.members.flatMap fun m => m.described.uris)

end Content
end MediaCatalogue

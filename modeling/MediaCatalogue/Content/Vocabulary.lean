import MediaCatalogue.Text.Casing

/-!
# Vocabularies

Publishers, means of transport and kinds of media are named by keys in lower case. A stored key is looked
up without regard to the case of its letters, a key in JSON exactly.
-/

set_option autoImplicit false

namespace MediaCatalogue

/-- A list of values, each with a key of its own. -/
class Vocabulary (α : Type) where
  all : List α
  key : α → String

namespace Vocabulary

variable {α : Type} [Vocabulary α]

/-- The value of a key, whatever the case of its letters. -/
def ofKey? (k : String) : Option α :=
  all.find? fun a => Text.equalIgnoringAsciiCase (key a) k

/-- The value of a key that is written exactly so. -/
def ofExactKey? (k : String) : Option α :=
  all.find? fun a => key a == k

end Vocabulary

/-- Where a piece of content comes from. -/
inductive Publisher where
  | bbc
  | channel4
  | itv
  | five
  | youtube
  | pressAssociation
  | metabroadcast
deriving DecidableEq

instance : Vocabulary Publisher where
  all := [.bbc, .channel4, .itv, .five, .youtube, .pressAssociation, .metabroadcast]
  key
    | .bbc => "bbc.co.uk"
    | .channel4 => "channel4.com"
    | .itv => "itv.com"
    | .five => "five.tv"
    | .youtube => "youtube.com"
    | .pressAssociation => "pressassociation.com"
    | .metabroadcast => "metabroadcast.com"

/-- How a location delivers what it holds. -/
inductive TransportType where
  | link
  | embed
  | download
  | stream
  | bittorrent
  | application
deriving DecidableEq

instance : Vocabulary TransportType where
  all := [.link, .embed, .download, .stream, .bittorrent, .application]
  key
    | .link => "link"
    | .embed => "embed"
    | .download => "download"
    | .stream => "stream"
    | .bittorrent => "bittorrent"
    | .application => "application"

/-- Whether content is seen or only heard. -/
inductive MediaType where
  | video
  | audio
deriving DecidableEq

instance : Vocabulary MediaType where
  all := [.video, .audio]
  key
    | .video => "video"
    | .audio => "audio"

/-- The kinds of items. -/
inductive ItemKind where
  | item
  | episode
  | clip
  | film
deriving DecidableEq

instance : Vocabulary ItemKind where
  all := [.item, .episode, .clip, .film]
  key
    | .item => "item"
    | .episode => "episode"
    | .clip => "clip"
    | .film => "film"

/-- The kinds of containers. -/
inductive ContainerKind where
  | brand
  | series
  | container
deriving DecidableEq

instance : Vocabulary ContainerKind where
  all := [.brand, .series, .container]
  key
    | .brand => "brand"
    | .series => "series"
    | .container => "container"

end MediaCatalogue

import MediaCatalogue.Identifier.Sha1

/-!
# Document identifiers

A document is known by sixteen bytes, written as hexadecimal digits in groups. An identifier is either
derived from a key, as the name-based identifier of version five in the namespace of addresses, or made
up by a store for the n-th document that came without a key.
-/

set_option autoImplicit false

namespace MediaCatalogue

/-- The name of a document: derived from a key, or made up by the store that holds it. -/
inductive DocumentId where
  | ofKey (key : String)
  | generated (number : Nat)
deriving DecidableEq

namespace DocumentId

/-- The sixteen bytes of the namespace for addresses, in which all keys lie. -/
def addressNamespace : List UInt8 :=
  [0x6b, 0xa7, 0xb8, 0x11, 0x9d, 0xad, 0x11, 0xd1, 0x80, 0xb4, 0x00, 0xc0, 0x4f, 0xd4, 0x30, 0xc8]

/-- The sixteen bytes of the identifier derived from a key: the head of the digest of namespace and
key, with the version and the variant set. -/
def keyBytes (key : String) : List UInt8 :=
  let bytes := (Sha1.digest (addressNamespace ++ key.toUTF8.toList)).take 16
  bytes.zipIdx.map fun (b, i) =>
    if i = 6 then (b &&& 0x0f) ||| 0x50
    else if i = 8 then (b &&& 0x3f) ||| 0x80
    else b

/-- Two hexadecimal digits of a byte. -/
def hexByte (b : UInt8) : List Char :=
  let ds := Nat.toDigits 16 b.toNat
  List.replicate (2 - ds.length) '0' ++ ds

/-- The text of sixteen bytes, in groups of 4, 2, 2, 2 and 6. -/
def groupedText (bytes : List UInt8) : String :=
  let group (start count : Nat) : List Char := ((bytes.drop start).take count).flatMap hexByte
  String.ofList <| group 0 4 ++ '-' :: group 4 2 ++ '-' :: group 6 2 ++ '-' :: group 8 2 ++
    '-' :: group 10 6

/-- The text of the identifier derived from a key. -/
def keyText (key : String) : String :=
  groupedText (keyBytes key)

end DocumentId
end MediaCatalogue

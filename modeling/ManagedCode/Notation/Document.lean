/-!
# Documents

    What the readers of units, descriptions and settings ask of a document, whatever notation it is
    written in. A missing answer means that the document does not have the form asked for.
-/

namespace ManagedCode

/-- A notation in which typed data is written. Records are asked for by the names of the fields
    that their type has; the other fields of a record are looked at by nobody, and only have to be
    well formed. -/
class Document (δ : Type) where
  /-- How deep a document nests. -/
  depth : δ → Nat
  /-- An integer without a sign. -/
  natural? : δ → Option Nat
  /-- An integer that may have a sign. -/
  integer? : δ → Option Int
  boolean? : δ → Option Bool
  text? : δ → Option String
  /-- The items of a list. -/
  items? : δ → Option (List δ)
  /-- The parts of a tuple. -/
  parts? : δ → Option (List δ)
  /-- A value that may be absent. -/
  optional? : δ → Option (Option δ)
  /-- The content of a value wrapped into the type of the given name. -/
  wrapped? : (type : String) → δ → Option δ
  /-- The known fields of a record of the given type name. -/
  fields? : (type : String) → (known : List String) → δ → Option (List (String × δ))
  /-- The name of an alternative. -/
  alternative? : δ → Option String
  /-- Whether an alternative has no content. -/
  isBare : δ → Bool
  /-- The one unnamed content of an alternative. -/
  content? : δ → Option δ
  /-- The known ones of the named contents of an alternative. -/
  contents? : (known : List String) → δ → Option (List (String × δ))

end ManagedCode

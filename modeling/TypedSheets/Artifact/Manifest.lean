import TypedSheets.Bytes.Codec
import TypedSheets.Naming
import TypedSheets.Timestamp

/-!
# Manifests

The manifest of a store says which sheets the last bake wrote, each with its keys in row order.

* `SheetArtifact`, `Manifest`
* `Manifest.encode`, `Manifest.decode?` — the kept form
-/

namespace TypedSheets

/-- What is kept of a sheet apart from its rows. -/
structure SheetArtifact where
  name : String
  fileName : String
  record : String
  /-- The keys in row order. -/
  keys : List String
  deriving DecidableEq

/-- What is kept of a container apart from its rows. -/
structure Manifest where
  naming : Naming
  bakedAt : Timestamp
  sheets : List SheetArtifact

open Bytes

/-- The number of a naming. -/
def Naming.index : Naming → Nat
  | .pascal => 0
  | .camel => 1
  | .snake => 2
  | .kebab => 3

/-- Reads the number of a naming. -/
def decodeNaming : Decoder Naming := fun bytes =>
  match decodeNat 4 bytes with
  | none => none
  | some (n, rest) => (Naming.all[n]?).map fun naming => (naming, rest)

namespace SheetArtifact

/-- The kept form of a sheet. -/
def encode (s : SheetArtifact) : List UInt8 :=
  encodePair encodeString (encodePair encodeString (encodePair encodeString
    (encodeList encodeString))) (s.name, s.fileName, s.record, s.keys)

/-- Reads the kept form of a sheet. -/
def decode : Decoder SheetArtifact := fun bytes =>
  (decodePair decodeString (decodePair decodeString (decodePair decodeString
    (decodeList decodeString))) bytes).map
    fun ((name, fileName, record, keys), rest) => (⟨name, fileName, record, keys⟩, rest)

end SheetArtifact

namespace Manifest

/-- The kept form. -/
def encode (m : Manifest) : List UInt8 :=
  encodePair encodeNat (encodePair encodeString (encodeList SheetArtifact.encode))
    (m.naming.index, m.bakedAt.text, m.sheets)

/-- The manifest that bytes hold; bytes behind it are ignored. -/
def decode? (bytes : List UInt8) : Option Manifest :=
  match decodePair decodeNaming (decodePair decodeString (decodeList SheetArtifact.decode))
      bytes with
  | none => none
  | some ((naming, bakedAt, sheets), _) =>
    (Timestamp.ofText? bakedAt).map fun bakedAt => ⟨naming, bakedAt, sheets⟩

end Manifest

end TypedSheets

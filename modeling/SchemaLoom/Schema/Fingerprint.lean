/-
  Fingerprints of schemas: the digest of the canonical form with its entities
  sorted by name.  Where a schema is generated does not count, the order of
  columns and of enum values does.
-/
import SchemaLoom.Digest.Sha256
import SchemaLoom.Schema.Json

namespace SchemaLoom.Schema

/-- Entities in the order of their names; those of one name keep theirs. -/
def sortByName {α : Type} (name : α → String) (xs : List α) : List α :=
  xs.mergeSort fun a b => !decide (name b < name a)

/-- The part of a schema that its fingerprint depends on. -/
def fingerprinted (s : Schema) : Schema :=
  let c := s.canonical
  { outputDir := ""
    enums := sortByName EnumDef.name c.enums
    helpers := sortByName HelperDef.name c.helpers
    tables := sortByName TableDef.name c.tables }

/-- The fingerprint of a schema, in hexadecimal. -/
def fingerprint (s : Schema) : String :=
  Digest.hexText (Digest.sha256 s.fingerprinted.toJson.compact.toUTF8.toList)

end SchemaLoom.Schema

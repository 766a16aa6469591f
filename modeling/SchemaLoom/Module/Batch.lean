/-
  The generated entities of a whole schema.

  Entities are written in the order enums, helpers, tables.  One that cannot be
  written is reported, and the others go on.
-/
import SchemaLoom.Module.Entity

namespace SchemaLoom

/-- An entity that cannot be written. -/
structure EntityError where
  kind : EntityKind
  name : String
  fault : GenerationError
  deriving DecidableEq

/-- The entities that could be written and those that could not. -/
structure Batch where
  entities : List GeneratedEntity
  errors : List EntityError
  deriving DecidableEq

/-- What became of each entity of a schema. -/
def Schema.attempts (s : Schema) : List (Except EntityError GeneratedEntity) :=
  s.enums.map (fun e => e.generate.mapError (EntityError.mk .enum e.name)) ++
  s.helpers.map (fun h => h.generate.mapError (EntityError.mk .helper h.name)) ++
  s.tables.map (fun t => t.generate.mapError (EntityError.mk .table t.name))

/-- Writes every entity of a schema. -/
def Schema.generateBatch (s : Schema) : Batch where
  entities := s.attempts.filterMap fun
    | .ok e => some e
    | .error _ => none
  errors := s.attempts.filterMap fun
    | .ok _ => none
    | .error e => some e

namespace Batch

/-- Whether every entity could be written. -/
def isSuccess (b : Batch) : Bool := b.errors.isEmpty

/-- The entities of a kind. -/
def ofKind (b : Batch) (kind : EntityKind) : List GeneratedEntity :=
  b.entities.filter fun e => e.kind = kind

end Batch

/-- What all entities need in scope. -/
def consolidatedImports (es : List GeneratedEntity) : ImportSet :=
  es.foldl (fun s e => s.union e.imports) .empty

/-- The declarations of all entities, with blank lines between them. -/
def declarationsText (es : List GeneratedEntity) : String :=
  "\n\n".intercalate (es.map GeneratedEntity.declaration)

/-- The import that a generated entity satisfies. -/
def GeneratedEntity.provides (e : GeneratedEntity) : Import :=
  match e.kind with
  | .enum => .enum e.name
  | .helper => .helper e.name
  | .table => .table (tableVariable e.name)

/-- One module that declares all entities. -/
def singleModule (es : List GeneratedEntity) : String :=
  let imports := es.foldl (fun s e => s.erase e.provides) (consolidatedImports es)
  let lines := imports.render .singleModule
  if lines.isEmpty then declarationsText es ++ "\n"
  else lines ++ "\n\n" ++ declarationsText es ++ "\n"

end SchemaLoom

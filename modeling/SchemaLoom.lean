import SchemaLoom.Text.Casing
import SchemaLoom.Text.Identifier
import SchemaLoom.Text.Timestamp
import SchemaLoom.Schema.Fingerprint
import SchemaLoom.Schema.Json
import SchemaLoom.Source.Entity
import SchemaLoom.Module.Batch
import SchemaLoom.Change.Footprint
import SchemaLoom.Change.Json
import SchemaLoom.Change.Merge
import SchemaLoom.Drift
import SchemaLoom.Validation
import SchemaLoom.Files.Tree
import SchemaLoom.Project.Tasks
import SchemaLoom.CommandLine.Run
import SchemaLoom.Main
import SchemaLoom.Proofs.Change.Canonical
import SchemaLoom.Proofs.Change.Consistency
import SchemaLoom.Proofs.Change.Json
import SchemaLoom.Proofs.Change.Merge
import SchemaLoom.Proofs.Change.Mirror
import SchemaLoom.Proofs.Drift
import SchemaLoom.Proofs.Module.Acceptance
import SchemaLoom.Proofs.Module.Canonical
import SchemaLoom.Proofs.Module.Closed
import SchemaLoom.Proofs.Module.Codec
import SchemaLoom.Proofs.Module.Regeneration
import SchemaLoom.Proofs.Module.RoundTrip
import SchemaLoom.Proofs.Project.Definition
import SchemaLoom.Proofs.Project.Gate
import SchemaLoom.Proofs.Project.Isolation
import SchemaLoom.Proofs.Project.Materialized
import SchemaLoom.Proofs.Project.Plan
import SchemaLoom.Proofs.Project.Sources
import SchemaLoom.Proofs.Source.Grammar
import SchemaLoom.Proofs.Source.Lexemes
import SchemaLoom.Proofs.Text.Rereading
import SchemaLoom.Proofs.Validation.Generation

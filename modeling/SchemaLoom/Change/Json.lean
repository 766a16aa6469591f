/-
  The JSON form of changes, comparisons and policies.
-/
import SchemaLoom.Change.Gate
import SchemaLoom.Change.Report
import SchemaLoom.Schema.Json

namespace SchemaLoom

open Json (Value Decoder Field Reader Buffered)

/-- The values by their names. -/
def byName {α : Type} (name : α → String) (all : List α) : List (String × α) :=
  all.map fun a => (name a, a)

/-! ## Writing -/

/-- The JSON form of a target. -/
def ChangeTarget.toJson (t : ChangeTarget) : Value :=
  .object (("kind", .string t.kind.name) :: ("entity", .string t.entity) ::
    optionalMember "member" (t.member.map .string))

/-- The members of the JSON form of details, without their kind. -/
def ChangeDetails.members : ChangeDetails → List (String × Value)
  | enum definition => [("definition", definition.toJson)]
  | enumValue value position => [("value", .string value), ("position", .nat position)]
  | helper definition => [("definition", definition.toJson)]
  | table definition => [("definition", definition.toJson)]
  | column definition position =>
    [("definition", definition.toJson), ("position", .nat position)]
  | helperReference spread position => [("helper", .string spread), ("position", .nat position)]
  | compositePrimaryKey old new => [("from", .strings old), ("to", .strings new)]
  | dbName old new => [("from", .string old), ("to", .string new)]
  | columnChange old new => [("from", old.toJson), ("to", new.toJson)]

/-- The name of the kind of details. -/
def ChangeDetails.kindName : ChangeDetails → String
  | enum _ => "enum"
  | enumValue .. => "enum_value"
  | helper _ => "helper"
  | table _ => "table"
  | column .. => "column"
  | helperReference .. => "helper_reference"
  | compositePrimaryKey .. => "composite_primary_key"
  | dbName .. => "db_name"
  | columnChange .. => "column_change"

/-- The JSON form of details. -/
def ChangeDetails.toJson (d : ChangeDetails) : Value :=
  .object (("kind", .string d.kindName) :: d.members)

/-- The JSON form of a change. -/
def Change.toJson (c : Change) : Value :=
  .object [
    ("type", .string c.type.name), ("category", .string c.category.name),
    ("impact", .string c.impact.name), ("target", c.target.toJson),
    ("description", .string c.description), ("details", c.details.toJson)]

/-- The JSON form of a list of changes. -/
def changesJson (changes : List Change) : Value := .array (changes.map Change.toJson)

/-- The JSON form of counts by name. -/
def countsJson {κ : Type} (name : κ → String) (counts : List (κ × Nat)) : Value :=
  .object (counts.map fun p => (name p.1, .nat p.2))

/-- The JSON form of a summary. -/
def ChangeSummary.toJson (s : ChangeSummary) : Value :=
  .object [
    ("total", .nat s.total), ("by_category", countsJson ChangeCategory.name s.byCategory),
    ("by_impact", countsJson Impact.name s.byImpact),
    ("by_type", countsJson ChangeType.name s.byType)]

/-- The JSON form of the impacts that occur. -/
def CanApply.toJson (c : CanApply) : Value :=
  .object [("safe", .bool c.safe), ("warning", .bool c.warning), ("breaking", .bool c.breaking)]

/-- The JSON form of a comparison. -/
def Comparison.toJson (c : Comparison) : Value :=
  .object [
    ("changes", changesJson c.changes), ("summary", c.summary.toJson),
    ("recommendations", .strings c.recommendations), ("can_apply", c.canApply.toJson)]

/-- The JSON form of what became of some changes, made at the time `time`. -/
def ApplyResult.toJson (r : ApplyResult) (time : String) : Value :=
  let files (f : MaterializeReport → List Path) : Value :=
    .strings (((r.materialized.map f).getD []).map Path.shown)
  .object [
    ("success", .bool r.success), ("applied", changesJson r.applied),
    ("rejected", changesJson r.rejected),
    ("metadata", .object [
      ("projectPath", .string r.projectPath.shown), ("dryRun", .bool r.dryRun),
      ("appliedAt", .string time), ("materialized", .bool r.materialized.isSome),
      ("filesWritten", files MaterializeReport.filesWritten),
      ("filesRemoved", files MaterializeReport.filesRemoved),
      ("error", (r.error.map .string).getD .null)])]

/-! ## Reading -/

/-- Reads a target. -/
def ChangeTarget.decode : Reader ChangeTarget :=
  Decoder.record "struct ChangeTarget"
    [⟨"kind", .required, fun t =>
        return { t with kind := ← Reader.variant (byName EntityKind.name EntityKind.all) }⟩,
      ⟨"entity", .required, fun t => return { t with entity := ← Decoder.string }⟩,
      ⟨"member", .defaulted, fun t =>
        return { t with member := ← Decoder.optional Decoder.string }⟩]
    { kind := .enum, entity := "" }

/-- Reads details that are one definition. -/
def decodeDefinition {α : Type} (wanted : String) (definition : Buffered α) (start : α) :
    Buffered α :=
  Decoder.record wanted [⟨"definition", .required, fun _ => definition⟩] start

/-- Reads details that are two values. -/
def decodePair {α β : Type} (wanted first second : String) (a : Buffered α) (b : Buffered β)
    (start : α × β) : Buffered (α × β) :=
  Decoder.record wanted
    [⟨first, .required, fun p => return (← a, p.2)⟩,
      ⟨second, .required, fun p => return (p.1, ← b)⟩]
    start

/-- How the details of each kind are read. -/
def ChangeDetails.decoders : List (String × Buffered ChangeDetails) := [
  ("enum", return .enum (← decodeDefinition "struct variant ChangeDetails::Enum"
    EnumDef.decode ⟨"", []⟩)),
  ("enum_value", do
    let (value, position) ← decodePair "struct variant ChangeDetails::EnumValue"
      "value" "position" Decoder.string Json.position ("", 0)
    return .enumValue value position),
  ("helper", return .helper (← decodeDefinition "struct variant ChangeDetails::Helper"
    HelperDef.decode ⟨"", []⟩)),
  ("table", return .table (← decodeDefinition "struct variant ChangeDetails::Table"
    TableDef.decode { name := "" })),
  ("column", do
    let (definition, position) ← decodePair "struct variant ChangeDetails::Column"
      "definition" "position" Column.decode Json.position ({ name := "" }, 0)
    return .column definition position),
  ("helper_reference", do
    let (spread, position) ← decodePair "struct variant ChangeDetails::HelperReference"
      "helper" "position" Decoder.string Json.position ("", 0)
    return .helperReference spread position),
  ("composite_primary_key", do
    let (old, new) ← decodePair "struct variant ChangeDetails::CompositePrimaryKey"
      "from" "to" (Decoder.list Decoder.string) (Decoder.list Decoder.string) ([], [])
    return .compositePrimaryKey old new),
  ("db_name", do
    let (old, new) ← decodePair "struct variant ChangeDetails::DbName"
      "from" "to" Decoder.string Decoder.string ("", "")
    return .dbName old new),
  ("column_change", do
    let (old, new) ← decodePair "struct variant ChangeDetails::ColumnChange"
      "from" "to" Column.decode Column.decode ({ name := "" }, { name := "" })
    return .columnChange old new)]

/-- Reads details.  Their kind may stand behind the other members, so these are
    read when all are there. -/
def ChangeDetails.decode : Reader ChangeDetails := do
  let (decoder, content) ←
    Reader.tagged "internally tagged enum ChangeDetails" "kind" ChangeDetails.decoders
  Buffered.within decoder content

/-- Reads the type of a change. -/
def ChangeType.decode : Reader ChangeType := Reader.variant (byName ChangeType.name ChangeType.all)

/-- Reads a change. -/
def Change.decode : Reader Change :=
  Decoder.record "struct Change"
    [⟨"type", .required, fun c => return { c with type := ← ChangeType.decode }⟩,
      ⟨"category", .required, fun c =>
        return { c with
          category := ← Reader.variant (byName ChangeCategory.name ChangeCategory.all) }⟩,
      ⟨"impact", .required, fun c =>
        return { c with impact := ← Reader.variant (byName Impact.name Impact.all) }⟩,
      ⟨"target", .required, fun c => return { c with target := ← ChangeTarget.decode }⟩,
      ⟨"description", .required, fun c => return { c with description := ← Decoder.string }⟩,
      ⟨"details", .required, fun c => return { c with details := ← ChangeDetails.decode }⟩]
    (.ofType .enumAdded ⟨.enum, "", none⟩ "" (.enumValue "" 0))

/-- Reads counts by name, in the order of `all`.  Of a repeated name the last
    counts. -/
def decodeCounts {κ : Type} (name : κ → String) (all : List κ) : Reader (List (κ × Nat)) := do
  let counts ← Reader.mapping (Reader.variant (byName name all)) Json.position
  pure (all.filterMap fun k =>
    (counts.reverse.find? fun p => name p.1 == name k).map fun p => (k, p.2))

/-- Reads a summary. -/
def ChangeSummary.decode : Reader ChangeSummary :=
  Decoder.record "struct ChangeSummary"
    [⟨"total", .required, fun s => return { s with total := ← Json.position }⟩,
      ⟨"by_category", .required, fun s =>
        return { s with byCategory := ← decodeCounts ChangeCategory.name ChangeCategory.all }⟩,
      ⟨"by_impact", .required, fun s =>
        return { s with byImpact := ← decodeCounts Impact.name Impact.all }⟩,
      ⟨"by_type", .required, fun s =>
        return { s with byType := ← decodeCounts ChangeType.name ChangeType.all }⟩]
    ⟨0, [], [], []⟩

/-- Reads the impacts that occur. -/
def CanApply.decode : Reader CanApply :=
  Decoder.record "struct CanApply"
    [⟨"safe", .required, fun c => return { c with safe := ← Decoder.boolean }⟩,
      ⟨"warning", .required, fun c => return { c with warning := ← Decoder.boolean }⟩,
      ⟨"breaking", .required, fun c => return { c with breaking := ← Decoder.boolean }⟩]
    ⟨false, false, false⟩

/-- Reads a comparison. -/
def Comparison.decode : Reader Comparison :=
  Decoder.record "struct Comparison"
    [⟨"changes", .required, fun c =>
        return { c with changes := ← Decoder.list Change.decode }⟩,
      ⟨"summary", .required, fun c => return { c with summary := ← ChangeSummary.decode }⟩,
      ⟨"recommendations", .required, fun c =>
        return { c with recommendations := ← Decoder.list Decoder.string }⟩,
      ⟨"can_apply", .required, fun c => return { c with canApply := ← CanApply.decode }⟩]
    (.ofChanges [])

/-- The JSON form of a policy. -/
def Policy.toJson (p : Policy) : Value :=
  .object [
    ("allowBreaking", .bool p.allowBreaking), ("allowWarning", .bool p.allowWarning),
    ("dryRun", .bool p.dryRun)]

/-- Reads a policy. -/
def Policy.decode : Reader Policy :=
  Decoder.record "struct ApplyPolicy"
    [⟨"allowBreaking", .defaulted, fun p =>
        return { p with allowBreaking := ← Decoder.boolean }⟩,
      ⟨"allowWarning", .defaulted, fun p =>
        return { p with allowWarning := ← Decoder.boolean }⟩,
      ⟨"dryRun", .defaulted, fun p => return { p with dryRun := ← Decoder.boolean }⟩]
    {}

end SchemaLoom

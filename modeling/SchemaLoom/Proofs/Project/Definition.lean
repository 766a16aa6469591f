/-
  Schemas that are read from a definition.

  * `Schema.callsFunctions_of_ofJson`: their defaults that are calls name
    functions.
-/
import SchemaLoom.Proofs.Project.Reading
import SchemaLoom.Proofs.Schema.Reading

namespace SchemaLoom

theorem Column.Told.callsFunction {c : Column} (h : c.Told) : c.CallsFunction :=
  fun f hf => DefaultValue.Told.isFunctionName (h (.call f) hf)

namespace Schema

theorem callsFunctions_iff {s : Schema} : s.CallsFunctions ↔
    (∀ h ∈ s.helpers, ∀ c ∈ h.columns, c.CallsFunction) ∧
      ∀ t ∈ s.tables, ∀ c ∈ t.columns, c.CallsFunction := by
  simp only [CallsFunctions, columns, List.forall_mem_append, List.forall_mem_flatMap]

/-- **The defaults of a schema that is read from a definition call functions.** -/
theorem callsFunctions_of_ofJson {text : String} {s : Schema} (h : ofJson text = .ok s) :
    s.CallsFunctions :=
  callsFunctions_iff.2 ⟨fun k hk c hc => ((told_of_ofJson h).helpers k hk c hc).callsFunction,
    fun t ht c hc => ((told_of_ofJson h).tables t ht c hc).callsFunction⟩

end Schema

end SchemaLoom

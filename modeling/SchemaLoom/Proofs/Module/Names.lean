/-
  What generated declarations use.

  * `Column.uses`, `EnumDef.uses`, `HelperDef.uses`, `TableDef.uses`: read off
    the expressions that are written, each name with what it stands for;
  * `Column.uses_eq`: a column uses what it asks to be imported;
  * `EnumDef.mentions_tokens`, `HelperDef.mentions_tokens`,
    `TableDef.mentions_tokens`: the tokens of a declaration bind one name, and
    use no others.
-/
import SchemaLoom.Proofs.Module.Generation
import SchemaLoom.Proofs.Module.RoundTrip
import SchemaLoom.Proofs.Source.Names

namespace SchemaLoom

open Source

/-- What an import is mentioned as where it is used. -/
def Import.used (i : Import) : Mention := .use i.name

/-- The names that are bound where one is bound and others are used. -/
theorem bound?_declaration (name : String) (is : List Import) :
    (Mention.binding name :: is.map Import.used).filterMap Mention.bound? = [name] := by
  refine congrArg (List.cons name) (List.filterMap_eq_nil_iff.2 fun m hm => ?_)
  obtain ⟨i, -, rfl⟩ := List.mem_map.1 hm
  rfl

/-- The names that are used where one is bound and others are used. -/
theorem used?_declaration (name : String) (is : List Import) :
    (Mention.binding name :: is.map Import.used).filterMap Mention.used? = is.map Import.name := by
  change (is.map Import.used).filterMap Mention.used? = is.map Import.name
  rw [List.filterMap_map, ← List.filterMap_eq_map]
  rfl

/-! ## Expressions -/

namespace Source

/-- What an argument uses. -/
def Argument.uses : Argument → List Import
  | .object entries => entries.flatMap fun e => e.2.uses
  | .sql _ => [.sql]
  | .columnRef table _ => [.table table]
  | .string _ | .integer _ | .bool _ => []
decreasing_by exact sizeOf_entry ‹_›

/-- What the arguments of a call use. -/
def Call.uses (c : Call) : List Import := c.arguments.flatMap Argument.uses

theorem Argument.mentions_tokens (a : Argument) :
    MentionsParted a.tokens (a.uses.map Import.used) := by
  induction a using uses.induct with
  | case1 entries ih =>
    have hentries : ∀ e ∈ entries, MentionsParted (.identifier e.1 :: .colon :: e.2.tokens)
        (e.2.uses.map Import.used) := fun e he us hus => ih e he us hus
    intro us _
    rw [tokens, uses, List.map_flatMap, List.cons_append, List.append_assoc]
    exact MentionsParted.intercalate hentries _ fun _ => rfl
  | case2 body =>
    rw [tokens, uses]
    exact fun _ _ => rfl
  | case3 table column =>
    rw [tokens, uses]
    exact fun _ _ => rfl
  | case4 s =>
    rw [tokens, uses]
    exact fun _ _ => rfl
  | case5 i =>
    rw [tokens, uses]
    exact fun _ _ => rfl
  | case6 b =>
    intro us hus
    rw [tokens, uses, List.singleton_append, mentions, hus]
    rfl

theorem Call.mentions_arguments (c : Call) :
    Mentions (.leftParen :: ([Token.comma].intercalate (c.arguments.map Argument.tokens) ++
      [Token.rightParen])) (c.uses.map Import.used) := by
  intro us
  rw [uses, List.map_flatMap, List.cons_append, List.append_assoc]
  exact MentionsParted.intercalate (fun a _ => a.mentions_tokens) _ fun _ => rfl

/-- A call uses its function and what its arguments use. -/
theorem Call.mentions_tokens (c : Call) :
    Mentions c.tokens (.use c.name :: c.uses.map Import.used) :=
  fun us => congrArg (List.cons (Mention.use c.name)) (c.mentions_arguments us)

/-- The function of a call behind a dot is a member of what is before the dot. -/
theorem Call.mentions_member (c : Call) :
    Mentions (.dot :: c.tokens) (c.uses.map Import.used) := c.mentions_arguments

/-- A chain uses the function of its first call, and what all arguments use. -/
theorem Chain.mentions_tokens (c : Chain) : Mentions c.tokens
    (.use c.head.name :: (c.head.uses ++ c.rest.flatMap Call.uses).map Import.used) := by
  rw [tokens, List.map_append, List.map_flatMap]
  exact c.head.mentions_tokens.append (.flatMap fun d _ => d.mentions_member)

end Source

/-! ## Columns -/

namespace Column

/-- What the calls of a column of some kind use. -/
def callUses (c : Column) (kind : ColumnKind) : List Import :=
  (c.chain kind).head.uses ++ (c.chain kind).rest.flatMap Call.uses

/-- What a column uses. -/
def uses (c : Column) : List Import :=
  match c.kind with
  | .ok kind => kind.neededImport :: c.callUses kind
  | .error _ => []

theorem uses_constructorCall (name : String) (kind : ColumnKind) :
    (constructorCall name kind).uses = [] := by
  have hconfig : ∀ type length, (configArgument? type length).toList.flatMap Argument.uses = [] := by
    intro type length
    rw [configArgument?.eq_def]
    split <;> simp [Argument.uses]
  cases kind with
  | enumeration e => simp [constructorCall, Call.uses, Argument.uses]
  | scalar type length => simp [constructorCall, Call.uses, Argument.uses, hconfig]

theorem uses_qualifierCalls (o : ColumnOptions) :
    (qualifierCalls o).flatMap Call.uses = o.imports := by
  have hflag : ∀ (b : Bool) (name : String),
      (if b then [(⟨name, [], 0⟩ : Call)] else []).flatMap Call.uses = [] := by
    intro b name
    cases b <;> rfl
  rw [qualifierCalls, ColumnOptions.imports, List.flatMap_append, List.flatMap_append,
    List.flatMap_append, hflag, hflag]
  congr 1
  · cases o.default with
    | none => rfl
    | some d => cases d <;> simp [Call.uses, defaultArgument, Argument.uses]
  · cases o.references with
    | none => rfl
    | some r => simp [Call.uses, Argument.uses]

/-- **A column uses what it asks to be imported.** -/
theorem uses_eq {c : Column} {kind : ColumnKind} (hk : c.kind = .ok kind) :
    c.uses = kind.neededImport :: c.options.imports := by
  simp only [uses, hk, callUses, chain, uses_constructorCall, uses_qualifierCalls, List.nil_append]

theorem mentions_tokens (c : Column) : Mentions c.tokens (c.uses.map Import.used) := by
  cases hk : c.kind with
  | error e =>
    simp only [tokens, uses, hk]
    exact .nil
  | ok kind =>
    have hname : (c.chain kind).head.name = kind.neededImport.name := by cases kind <;> rfl
    have h := (c.chain kind).mentions_tokens
    simp only [tokens, uses, hk, hname] at h ⊢
    exact h

end Column

/-! ## Bodies -/

namespace Source.Parse

/-- What a member of a body uses. -/
def Member.uses : Member → List Import
  | .spread helper => [.helper helper]
  | .column c => c.uses

theorem Member.mentions_tokens (m : Member) :
    Mentions (m.tokens ++ [Token.comma]) (m.uses.map Import.used) := by
  cases m with
  | spread helper => exact fun _ => rfl
  | column c =>
    have hcomma : Mentions [Token.comma] [] := fun _ => rfl
    have h := c.mentions_tokens.append hcomma
    rwa [List.append_nil] at h

theorem mentions_bodyTokens (members : List Member) :
    Mentions (bodyTokens members) ((members.flatMap Member.uses).map Import.used) := by
  intro us
  have h := Mentions.flatMap fun m (_ : m ∈ members) => m.mentions_tokens
  rw [bodyTokens, List.cons_append, List.append_assoc, List.map_flatMap]
  exact h _

end Source.Parse

/-- A declaration binds its name. -/
theorem mentions_headTokens {ts : List Token} {ms : List Mention} (name : String)
    (h : Mentions ts ms) : Mentions (headTokens name ++ ts) (.binding name :: ms) := by
  have hhead : Mentions (headTokens name) [.binding name] := fun _ => rfl
  exact hhead.append h

/-! ## Entities -/

namespace EnumDef

/-- What the declaration of an enum uses. -/
def uses (_ : EnumDef) : List Import := [.pgCore "pgEnum"]

/-- The tokens of the declaration. -/
def declarationTokens (e : EnumDef) : List Token :=
  headTokens e.name ++ (Parse.enumTokens e ++ [Token.semicolon])

theorem mentions_tokens (e : EnumDef) :
    Mentions e.declarationTokens (.binding e.name :: e.uses.map Import.used) := by
  refine mentions_headTokens e.name fun us => ?_
  have hvalue : ∀ v ∈ e.values, MentionsParted [.string (Text.pascalCase v)] [] :=
    fun _ _ _ _ => rfl
  have hvalues := MentionsParted.intercalate hvalue
  rw [List.flatMap_eq_nil_iff.2 fun _ _ => rfl] at hvalues
  simp only [Parse.enumTokens, List.append_assoc, List.cons_append]
  exact congrArg (List.cons (Mention.use "pgEnum")) (hvalues _ fun _ => rfl)

end EnumDef

namespace HelperDef

/-- What the declaration of a helper uses. -/
def uses (h : HelperDef) : List Import := h.columns.flatMap Column.uses

/-- The tokens of the declaration. -/
def declarationTokens (h : HelperDef) : List Token :=
  headTokens h.name ++ (Parse.bodyTokens (h.columns.map .column) ++ [Token.semicolon])

theorem mentions_tokens (h : HelperDef) :
    Mentions h.declarationTokens (.binding h.name :: h.uses.map Import.used) := by
  have hbody := Parse.mentions_bodyTokens (h.columns.map .column)
  have hend : Mentions [Token.semicolon] [] := fun _ => rfl
  have h := mentions_headTokens h.name (hbody.append hend)
  rwa [List.append_nil, List.flatMap_map] at h

end HelperDef

theorem mentions_keyTokens (binding : String) (columns : List String) :
    Mentions (.comma :: keyTokens binding columns)
      ((.pgCore "primaryKey" :: columns.map fun _ => Import.table binding).map Import.used) := by
  intro us
  have hcolumn : ∀ c ∈ columns, MentionsParted [.identifier binding, .dot, .identifier c]
      [Mention.use binding] := fun _ _ _ _ => rfl
  have hcolumns := MentionsParted.intercalate hcolumn
  simp only [keyTokens, List.append_assoc, List.cons_append, List.nil_append, List.map_cons,
    List.map_map]
  have huses : columns.map (Import.used ∘ fun _ => Import.table binding) =
      columns.flatMap fun _ => [Mention.use binding] := by
    rw [← List.map_eq_flatMap]
    rfl
  rw [huses]
  exact congrArg (List.cons (Mention.use "primaryKey")) (hcolumns _ fun _ => rfl)

namespace TableDef

/-- What the constraint of a composite key uses. -/
def keyUses (t : TableDef) : List Import :=
  match t.compositeKey with
  | some columns => .pgCore "primaryKey" :: columns.map fun _ => .table t.variableName
  | none => []

/-- What the declaration of a table uses. -/
def uses (t : TableDef) : List Import :=
  .pgCore "pgTable" :: (t.members.flatMap Parse.Member.uses ++ t.keyUses)

/-- The tokens of the declaration. -/
def declarationTokens (t : TableDef) : List Token := headTokens t.variableName ++ t.tokens

theorem mentions_tokens (t : TableDef) :
    Mentions t.declarationTokens (.binding t.variableName :: t.uses.map Import.used) := by
  refine mentions_headTokens t.variableName fun us => ?_
  have hkey : Mentions t.constraintsTokens (t.keyUses.map Import.used) := by
    rw [constraintsTokens, keyUses]
    cases t.compositeKey with
    | some columns => exact mentions_keyTokens t.variableName columns
    | none => exact .nil
  have hend : Mentions [Token.rightParen, .semicolon] [] := fun _ => rfl
  have h := (Parse.mentions_bodyTokens t.members).append (hkey.append hend)
  rw [List.append_nil, ← List.map_append] at h
  exact congrArg (List.cons (Mention.use "pgTable")) (h us)

end TableDef

end SchemaLoom

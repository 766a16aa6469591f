/-
  Generated modules are read back in canonical form.

  * `EnumDef.read_render`, `HelperDef.read_render`, `TableDef.read_render`: the
    module of an entity, in whatever scope, is read as its canonical form;
  * `HelperDef.read_refused`, `TableDef.read_refused`: it is not read at all if
    one of the columns has an enum that is named `pgEnum`.
-/
import SchemaLoom.Proofs.Module.Column

namespace SchemaLoom

open Source

variable {ts rest : List Token}

/-! ## Modules -/

/-- The tokens in front of what a name is declared as. -/
def headTokens (name : String) : List Token :=
  [.identifier "export", .identifier "const", .identifier name, .equals]

/-- Import lines, if there are any, and a body spell their tokens. -/
theorem spells_joined {imports body : String} {is : List Token} (hi : Closed imports is)
    (hb : Closed body ts) : Spells (if imports.isEmpty then body ++ "\n"
      else imports ++ "\n\n" ++ body ++ "\n").toList (is ++ ts) := by
  have hend : Spells (body ++ "\n").toList ts := by
    have := hb (.blank (by decide : Text.isBlank '\n' = true) .done)
    rwa [List.append_nil, ← String.toList_ofList (l := ['\n']), ← String.toList_append] at this
  split
  next he =>
    have := hi hend
    rwa [String.isEmpty_iff.1 he, String.toList_empty, List.nil_append] at this
  · have hblank : Spells ("\n\n".toList ++ (body ++ "\n").toList) ([] ++ ts) :=
      .fixed [] rfl hend
    simpa using hi hblank

/-- A module spells its import statements and its declaration. -/
theorem spells_module {g : GeneratedEntity} (hi : g.imports.Named) (hd : Closed g.declaration ts)
    (scope : ImportScope) : Spells (g.render scope).toList
      (importTokens ((g.imports.statements scope).map ImportStatement.tokens) ++ ts) :=
  spells_joined (ImportSet.closed_render hi scope) hd

/-- A module spells import statements and its declaration. -/
theorem spells_render {g : GeneratedEntity} (hi : g.imports.Named) (hd : Closed g.declaration ts)
    (scope : ImportScope) : ∃ statements, (∀ mid ∈ statements, Token.semicolon ∉ mid) ∧
      Spells (g.render scope).toList (importTokens statements ++ ts) :=
  ⟨_, List.forall_mem_map.2 fun i _ => i.semicolon_notMem_tokens, spells_module hi hd scope⟩

namespace Source.Parse

theorem length_le_importTokens (statements : List (List Token)) :
    statements.length ≤ (importTokens statements).length := by
  rw [importTokens]
  induction statements with
  | nil => simp
  | cons mid statements ih =>
    simp only [List.flatMap_cons, List.length_append, List.length_cons]
    omega

theorem header_reads {statements : List (List Token)} {name : String}
    (hs : ∀ mid ∈ statements, Token.semicolon ∉ mid) :
    Reads header (importTokens statements ++ (headTokens name ++ rest)) rest (· = name) := by
  refine Reads.get fun s hk => (skipImports_reads hs ?_ (by simp [headTokens])).next fun _ => ?_
  · have h1 : s.tokens.length = s.kinds.length := by simp [Stream.kinds]
    have h2 := length_le_importTokens statements
    rw [h1, hk, List.length_append]
    omega
  · refine keyword_reads.next fun _ => keyword_reads.next fun _ => identifier_reads.seq ?_
    exact expect_reads.next fun _ => .pure rfl

theorem finish_reads : Reads finish [.semicolon] [] fun _ => True :=
  .next eat_reads fun _ => endOfInput_reads

/-- A text is read if its tokens are. -/
theorem run_eq_ok {α : Type} {p : Parse α} {cs : List Char} {a : α} (hs : Spells cs ts)
    (hp : Reads p ts [] (· = a)) : p.run cs = .ok a := by
  obtain ⟨s, ht, hk⟩ := hs.hasTokens 1
  obtain ⟨b, s', hb, -, rfl⟩ := hp s hk
  rw [run, bind_eq_ok]
  exact ⟨s, ht, bind_eq_ok.2 ⟨(b, s'), hb, rfl⟩⟩

/-- A text is not read if its tokens are not. -/
theorem run_eq_error {α : Type} {p : Parse α} {cs : List Char} (hs : Spells cs ts)
    (hp : Refuses p ts) : ∃ e, p.run cs = .error e := by
  obtain ⟨s, ht, hk⟩ := hs.hasTokens 1
  obtain ⟨e, he⟩ := hp s hk
  refine ⟨e, ?_⟩
  rw [run, tokens, ht]
  simp only [Bind.bind, Except.bind, he]

/-- The values of a written enum. -/
def enumTokens (e : EnumDef) : List Token :=
  .identifier "pgEnum" :: .leftParen :: .string e.databaseName :: .comma :: .leftBracket ::
    ([Token.comma].intercalate (e.values.map fun v => [.string (Text.pascalCase v)]) ++
      [.rightBracket, .identifier "as", .identifier "const", .rightParen])

theorem enumCall_reads (e : EnumDef) :
    Reads enumCall (enumTokens e ++ rest) rest (· = e.values.map Text.pascalCase) := by
  have hlist : Reads (listUntil .rightBracket string)
      ([Token.comma].intercalate (e.values.map fun v => [.string (Text.pascalCase v)]) ++
        .rightBracket :: .identifier "as" :: .identifier "const" :: .rightParen :: rest)
      (.identifier "as" :: .identifier "const" :: .rightParen :: rest)
      (· = e.values.map Text.pascalCase) :=
    listUntil_separated Text.pascalCase (by decide) (fun _ _ _ _ _ => string_reads)
      fun _ _ => ⟨_, _, rfl, by simp⟩
  have hts : enumTokens e ++ rest = .identifier "pgEnum" :: .leftParen ::
      .string e.databaseName :: .comma :: .leftBracket ::
      ([Token.comma].intercalate (e.values.map fun v => [.string (Text.pascalCase v)]) ++
        .rightBracket :: .identifier "as" :: .identifier "const" :: .rightParen :: rest) := by
    simp [enumTokens]
  rw [hts]
  refine keyword_reads.next fun _ => expect_reads.next fun _ => string_reads.next fun _ => ?_
  refine expect_reads.next fun _ => expect_reads.next fun _ => hlist.seq ?_
  exact keyword_reads.next fun _ => keyword_reads.next fun _ => expect_reads.next fun _ => .pure rfl

end Source.Parse

/-! ## Enums -/

namespace EnumDef

theorem closed_declaration {e : EnumDef} (hn : Text.isIdentifier e.name = true) :
    Closed ("export const " ++ e.name ++ " = pgEnum(" ++ Text.quote e.databaseName ++ ", [" ++
        ", ".intercalate (e.values.map fun v => Text.quote (Text.pascalCase v)) ++ "] as const);")
      (headTokens e.name ++ (Parse.enumTokens e ++ [Token.semicolon])) := by
  intro cs us hcs
  have hend : Spells ("] as const);".toList ++ cs)
      ([Token.rightBracket, .identifier "as", .identifier "const", .rightParen, .semicolon] ++
        us) :=
    .fixed _ rfl hcs
  have hliteral : ∀ v ∈ e.values,
      Spelled (Text.quote (Text.pascalCase v)) [.string (Text.pascalCase v)] := fun _ _ => .literal
  have hvalues := Spelled.intercalate hliteral (.fixed (by decide)) hend
  simp only [String.toList_append, List.append_assoc, headTokens, Parse.enumTokens,
    List.cons_append]
  refine .fixed [.identifier "export", .identifier "const"] rfl (.word hn (.fixed (by decide)) ?_)
  refine .fixed [.equals, .identifier "pgEnum", .leftParen] rfl (.literal ?_)
  exact .fixed [.comma, .leftBracket] rfl hvalues

/-- What an enum that was written has. -/
theorem generate_eq_ok {e : EnumDef} {g : GeneratedEntity} (h : e.generate = .ok g) :
    e.values ≠ [] ∧ g.imports.Named ∧
      Closed g.declaration (headTokens e.name ++ (Parse.enumTokens e ++ [Token.semicolon])) := by
  obtain ⟨hd, rfl⟩ := generate_eq_ok_iff.1 h
  have hn := isIdentifier_of_isBindingName hd.binding
  exact ⟨hd.inhabited, ImportSet.named_ofList (by decide), closed_declaration hn⟩

/-- **The module of an enum is read as its canonical form.** -/
theorem read_render {e : EnumDef} {g : GeneratedEntity} (h : e.generate = .ok g)
    (scope : ImportScope) : readEnum (g.render scope) = .ok e.canonical := by
  obtain ⟨hv, hi, hd⟩ := generate_eq_ok h
  obtain ⟨statements, hs, ht⟩ := spells_render hi hd scope
  rw [readEnum]
  refine Parse.run_eq_ok ht ((Parse.header_reads hs).seq ?_)
  refine (Parse.enumCall_reads e).seq (Parse.finish_reads.next fun _ => ?_)
  rw [if_neg (by simpa using hv)]
  refine .pure ?_
  simp only [canonical, List.map_map, Function.comp_def, snakeCase_pascalCase]

end EnumDef

/-! ## Bodies -/

namespace Source

/-- The text of a member, on a line of its own. -/
def Parse.Member.text : Parse.Member → String
  | .spread helper => "  ..." ++ helper ++ ","
  | .column c => "  " ++ c.text ++ ","

/-- The tokens of a member. -/
def Parse.Member.tokens : Parse.Member → List Token
  | .spread helper => [.spread, .identifier helper]
  | .column c => c.tokens

/-- The form in which a member is read back. -/
def Parse.Member.reread : Parse.Member → Parse.Member
  | .spread helper => .spread helper
  | .column c => .column c.reread

/-- A helper that is named by an identifier, or a column that can be written. -/
def Parse.Member.Proper : Parse.Member → Prop
  | .spread helper => Text.isIdentifier helper = true
  | .column c => (∃ e, c.encode = .ok e) ∧ c.CallsFunction

/-- A helper, or a column that can be read. -/
def Parse.Member.Legible : Parse.Member → Prop
  | .spread _ => True
  | .column c => c.Legible

end Source

theorem closed_member {m : Parse.Member} (h : m.Proper) :
    Closed m.text (m.tokens ++ [Token.comma]) := by
  intro cs us hcs
  have hend : Spells (",".toList ++ cs) ([Token.comma] ++ us) := .fixed _ rfl hcs
  cases m with
  | spread helper =>
    simp only [Parse.Member.text, Parse.Member.tokens, String.toList_append, List.append_assoc]
    exact .blank (by decide) (.blank (by decide) (.spread (.word h (.fixed (by decide)) hend)))
  | column c =>
    obtain ⟨⟨e, he⟩, hf⟩ := h
    simp only [Parse.Member.text, Parse.Member.tokens, String.toList_append, List.append_assoc]
    exact .fixed [] rfl (Column.closed_text he hf hend)

namespace Source.Parse

theorem member_reads {m : Member} (h : m.Proper) (hl : m.Legible) {rest : List Token}
    (hd : rest.head? ≠ some .dot) : Reads member (m.tokens ++ rest) rest (· = m.reread) := by
  cases m with
  | spread helper => exact .seq eat_reads (identifier_reads.seq (.pure rfl))
  | column c =>
    obtain ⟨⟨e, he⟩, hf⟩ := h
    have hs := (Column.beginsOther_tokens he (t := .spread) (by simp)).head? rest
    exact (eat_passes hs).seq ((Column.tokens_read he hf hl hd).seq (.pure rfl))

theorem member_refuses {m : Member} (h : m.Proper) (hl : ¬ m.Legible) {rest : List Token}
    (hd : rest.head? ≠ some .dot) : Refuses member (m.tokens ++ rest) := by
  cases m with
  | spread helper => exact absurd trivial hl
  | column c =>
    obtain ⟨⟨e, he⟩, -⟩ := h
    have hs := (Column.beginsOther_tokens he (t := .spread) (by simp)).head? rest
    exact (eat_passes hs).seq_refuses (Column.tokens_refused he hl hd).bind

theorem beginsOther_member {m : Member} (h : m.Proper) : BeginsOther .rightBrace m.tokens := by
  cases m with
  | spread helper => exact ⟨_, _, rfl, by simp⟩
  | column c =>
    obtain ⟨⟨e, he⟩, -⟩ := h
    exact Column.beginsOther_tokens he (by simp)

/-- The tokens of a body. -/
def bodyTokens (members : List Member) : List Token :=
  .leftBrace :: (members.flatMap (fun m => m.tokens ++ [Token.comma]) ++ [Token.rightBrace])

theorem body_reads {members : List Member} (h : ∀ m ∈ members, m.Proper)
    (hl : ∀ m ∈ members, m.Legible) :
    Reads body (bodyTokens members ++ rest) rest (· = members.map Member.reread) := by
  rw [bodyTokens, List.cons_append, List.append_assoc]
  refine expect_reads.next fun _ => listUntil_terminated _ (fun m hm rest => ?_) fun m hm => ?_
  · exact member_reads (h m hm) (hl m hm) (by simp)
  · exact beginsOther_member (h m hm)

theorem body_refuses {members : List Member} (h : ∀ m ∈ members, m.Proper)
    (hl : ¬ ∀ m ∈ members, m.Legible) : Refuses body (bodyTokens members ++ rest) := by
  rw [bodyTokens, List.cons_append, List.append_assoc]
  refine expect_reads.refuses fun _ _ =>
    listUntil_refuses (fun m hm hg rest => ?_) (fun m hm hg rest => ?_) (fun m hm => ?_) hl
  · exact (member_reads (h m hm) hg (by simp)).mono fun _ _ => trivial
  · exact member_refuses (h m hm) hg (by simp)
  · exact beginsOther_member (h m hm)

end Source.Parse

/-- Members between the lines that open and close a declaration. -/
theorem closed_block {opening closing : String} {os cs : List Token} {members : List Parse.Member}
    (ho : Closed opening os) (hc : Closed closing cs) (hm : ∀ m ∈ members, m.Proper) :
    Closed ("\n".intercalate (opening :: (members.map Parse.Member.text ++ [closing])))
      (os ++ (members.flatMap (fun m => m.tokens ++ [Token.comma]) ++ cs)) := by
  have hall : ∀ line ∈ (opening, os) ::
      (members.map (fun m => (m.text, m.tokens ++ [Token.comma])) ++ [(closing, cs)]),
      Closed line.1 line.2 := by
    simp only [List.forall_mem_cons, List.forall_mem_append, List.forall_mem_map]
    exact ⟨ho, fun m h => closed_member (hm m h), hc, nofun⟩
  simpa [List.map_map, List.flatMap_map, Function.comp_def] using Closed.intercalate rfl hall

/-- The columns that are read back from a body. -/
theorem columnsOf_reread (columns : List Column) (helpers : List String) :
    Parse.columnsOf ((columns.map Parse.Member.column ++ helpers.map Parse.Member.spread).map
      Parse.Member.reread) = columns.map Column.reread := by
  simp [Parse.columnsOf, List.filterMap_append, List.filterMap_map, Function.comp_def,
    Parse.Member.reread]

/-- The helpers that are read back from a body. -/
theorem helpersOf_reread (columns : List Column) (helpers : List String) :
    Parse.helpersOf ((columns.map Parse.Member.column ++ helpers.map Parse.Member.spread).map
      Parse.Member.reread) = helpers := by
  simp [Parse.helpersOf, List.filterMap_append, List.filterMap_map, Function.comp_def,
    Parse.Member.reread]

/-- The members of a body are legible if its columns are. -/
theorem legible_members {columns : List Column} {helpers : List String} :
    (∀ m ∈ columns.map Parse.Member.column ++ helpers.map Parse.Member.spread, m.Legible) ↔
      ∀ c ∈ columns, c.Legible := by
  simp only [List.forall_mem_append, List.forall_mem_map, Parse.Member.Legible, implies_true,
    and_true]

/-- What columns that were written have. -/
theorem encodeColumns_eq_ok {columns : List Column} {body : EncodedBody}
    (h : encodeColumns columns = .ok body) :
    (∀ c ∈ columns, ∃ e, c.encode = .ok e) ∧ body.imports.Named ∧
      body.lines = (columns.map Parse.Member.column).map Parse.Member.text := by
  rw [encodeColumns, bind_eq_ok] at h
  obtain ⟨encoded, hm, h⟩ := h
  rw [← Except.ok.inj h]
  refine ⟨fun c hc => ?_, ?_, ?_⟩
  · obtain ⟨e, -, he⟩ := exists_of_mapM_eq_ok hm hc
    exact ⟨e, mapError_eq_ok.1 he⟩
  · have hn : ∀ e ∈ encoded, e.imports.Named := by
      intro e he
      obtain ⟨c, -, hc⟩ := exists_of_mem_mapM_eq_ok hm he
      exact Column.named_imports (mapError_eq_ok.1 hc)
    exact ImportSet.named_empty.foldl_union hn
  · rw [List.map_map]
    refine map_eq_of_mapM_eq_ok hm fun c e he => ?_
    rw [Function.comp_apply, Parse.Member.text, Column.text, mapError_eq_ok.1 he]

/-! ## Helpers -/

namespace HelperDef

/-- What a helper that was written has. -/
theorem generate_eq_ok {h : HelperDef} {g : GeneratedEntity} (hg : h.generate = .ok g)
    (hf : ∀ c ∈ h.columns, c.CallsFunction) :
    g.imports.Named ∧ (∀ m ∈ h.columns.map Parse.Member.column, m.Proper) ∧
      Closed g.declaration (headTokens h.name ++
        (Parse.bodyTokens (h.columns.map Parse.Member.column) ++ [Token.semicolon])) := by
  obtain ⟨hd, body, hc, rfl⟩ := generate_eq_ok_iff.1 hg
  obtain ⟨he, hi, hl⟩ := encodeColumns_eq_ok hc
  have hn := isIdentifier_of_isBindingName hd.binding
  have hm : ∀ m ∈ h.columns.map Parse.Member.column, m.Proper :=
    List.forall_mem_map.2 fun c hc => ⟨he c hc, hf c hc⟩
  refine ⟨hi, hm, ?_⟩
  have hopen : Closed ("export const " ++ h.name ++ " = \x7b")
      (headTokens h.name ++ [Token.leftBrace]) := by
    intro cs us hcs
    simp only [String.toList_append, List.append_assoc, headTokens]
    refine .fixed [.identifier "export", .identifier "const"] rfl (.word hn (.fixed (by decide)) ?_)
    exact .fixed [.equals, .leftBrace] rfl hcs
  have hclose : Closed "\x7d;" [.rightBrace, .semicolon] := fun cs us hcs => .fixed _ rfl hcs
  have := closed_block hopen hclose hm
  rw [generated, hl]
  simpa [Parse.bodyTokens] using this

/-- The form in which a helper is read back. -/
def reread (h : HelperDef) : HelperDef := { h with columns := h.columns.map Column.reread }

theorem read_render_reread {h : HelperDef} {g : GeneratedEntity} (hg : h.generate = .ok g)
    (hf : ∀ c ∈ h.columns, c.CallsFunction) (hl : ∀ c ∈ h.columns, c.Legible)
    (scope : ImportScope) : readHelper (g.render scope) = .ok h.reread := by
  obtain ⟨hi, hm, hd⟩ := generate_eq_ok hg hf
  obtain ⟨statements, hs, ht⟩ := spells_render hi hd scope
  have hl : ∀ m ∈ h.columns.map Parse.Member.column, m.Legible := List.forall_mem_map.2 hl
  rw [readHelper]
  refine Parse.run_eq_ok ht ((Parse.header_reads hs).seq ((Parse.body_reads hm hl).seq ?_))
  have hh := helpersOf_reread h.columns []
  have hc := columnsOf_reread h.columns []
  rw [List.map_nil, List.append_nil] at hh hc
  rw [hh]
  refine Parse.finish_reads.next fun _ => .pure ?_
  rw [hc, reread]

/-- **The module of a helper is read as its canonical form.** -/
theorem read_render {h : HelperDef} {g : GeneratedEntity} (hg : h.generate = .ok g)
    (hr : ∀ c ∈ h.columns, c.Readable) (scope : ImportScope) :
    readHelper (g.render scope) = .ok h.canonical := by
  rw [read_render_reread hg (fun c hc => (hr c hc).function) (fun c hc => (hr c hc).legible),
    reread, canonical, List.map_congr_left fun c hc => (hr c hc).reread_eq]

/-- **The module of a helper with a column that is not legible is not read.** -/
theorem read_refused {h : HelperDef} {g : GeneratedEntity} (hg : h.generate = .ok g)
    (hf : ∀ c ∈ h.columns, c.CallsFunction) (hl : ¬ ∀ c ∈ h.columns, c.Legible)
    (scope : ImportScope) : ∃ e, readHelper (g.render scope) = .error e := by
  obtain ⟨hi, hm, hd⟩ := generate_eq_ok hg hf
  obtain ⟨statements, hs, ht⟩ := spells_render hi hd scope
  have hl : ¬ ∀ m ∈ h.columns.map Parse.Member.column, m.Legible := fun hall =>
    hl fun c hc => hall _ (List.mem_map_of_mem hc)
  rw [readHelper]
  refine Parse.run_eq_error ht ((Parse.header_reads hs).refuses fun name _ => ?_)
  exact (Parse.body_refuses hm hl).bind

end HelperDef

/-! ## Composite keys -/

/-- The tokens of the constraint of a composite key. -/
def keyTokens (binding : String) (columns : List String) : List Token :=
  [Token.leftParen, .identifier binding, .rightParen, .arrow, .leftParen, .leftBrace,
    .identifier "compositePK", .colon, .identifier "primaryKey", .leftParen, .leftBrace,
    .identifier "columns", .colon, .leftBracket] ++
  ([Token.comma].intercalate (columns.map fun c => [.identifier binding, .dot, .identifier c]) ++
    [.rightBracket, .rightBrace, .rightParen, .rightBrace, .rightParen])

theorem closed_keyText {binding : String} {columns : List String}
    (hb : Text.isIdentifier binding = true) (hc : ∀ c ∈ columns, Text.isIdentifier c = true) :
    Closed (keyText binding columns) (.comma :: keyTokens binding columns) := by
  intro cs us hcs
  have hend : Spells ("] \x7d) \x7d)".toList ++ cs)
      ([Token.rightBracket, .rightBrace, .rightParen, .rightBrace, .rightParen] ++ us) :=
    .fixed _ rfl hcs
  have hcolumns := Spelled.intercalate (fun c h => Spelled.member hb (hc c h)) (.fixed (by decide))
    hend
  simp only [keyText, keyTokens, String.toList_append, List.append_assoc, List.cons_append]
  refine .fixed [.comma, .leftParen] rfl (.word hb (.fixed (by decide)) ?_)
  exact .fixed [.rightParen, .arrow, .leftParen, .leftBrace, .identifier "compositePK", .colon,
    .identifier "primaryKey", .leftParen, .leftBrace, .identifier "columns", .colon,
    .leftBracket] rfl hcolumns

namespace Source.Parse

theorem keyColumn_reads {owner c : String} :
    Reads (keyColumn owner) ([Token.identifier owner, .dot, .identifier c] ++ rest) rest
      (· = c) := by
  refine identifier_reads.seq ?_
  rw [if_pos rfl]
  exact expect_reads.next fun _ => identifier_reads

theorem compositeKey_reads (binding : String) (columns : List String) :
    Reads compositeKey (keyTokens binding columns ++ rest) rest (· = columns) := by
  have hlist : Reads (listUntil .rightBracket (keyColumn binding))
      ([Token.comma].intercalate
        (columns.map fun c => [.identifier binding, .dot, .identifier c]) ++
        .rightBracket :: .rightBrace :: .rightParen :: .rightBrace :: .rightParen :: rest)
      (.rightBrace :: .rightParen :: .rightBrace :: .rightParen :: rest) (· = columns.map id) :=
    listUntil_separated id (by decide) (fun _ _ _ _ _ => keyColumn_reads)
      fun _ _ => ⟨_, _, rfl, by simp⟩
  rw [List.map_id] at hlist
  simp only [keyTokens, List.append_assoc, List.cons_append, List.nil_append]
  refine expect_reads.next fun _ => identifier_reads.seq (expect_reads.next fun _ => ?_)
  refine expect_reads.next fun _ => expect_reads.next fun _ => expect_reads.next fun _ => ?_
  refine keyword_reads.next fun _ => expect_reads.next fun _ => keyword_reads.next fun _ => ?_
  refine expect_reads.next fun _ => expect_reads.next fun _ => keyword_reads.next fun _ => ?_
  refine expect_reads.next fun _ => expect_reads.next fun _ => hlist.seq ?_
  refine expect_reads.next fun _ => expect_reads.next fun _ => expect_reads.next fun _ => ?_
  exact expect_reads.next fun _ => .pure rfl

end Source.Parse

/-! ## Tables -/

namespace TableDef

/-- The columns can be read back, and a composite key lists identifiers. -/
structure Readable (t : TableDef) : Prop where
  columns : ∀ c ∈ t.columns, c.Readable
  key : ∀ columns, t.compositeKey = some columns → ∀ c ∈ columns, Text.isIdentifier c = true

/-- The text of the table spells its tokens. -/
structure Spellable (t : TableDef) : Prop where
  columns : ∀ c ∈ t.columns, c.CallsFunction
  key : ∀ columns, t.compositeKey = some columns → ∀ c ∈ columns, Text.isIdentifier c = true

theorem Readable.spellable {t : TableDef} (hr : t.Readable) : t.Spellable :=
  ⟨fun c hc => (hr.columns c hc).function, hr.key⟩

/-- The members of the body of a table. -/
def members (t : TableDef) : List Parse.Member :=
  t.columns.map .column ++ t.helperReferences.map .spread

/-- The tokens of the constraints behind the body. -/
def constraintsTokens (t : TableDef) : List Token :=
  match t.compositeKey with
  | some columns => .comma :: keyTokens t.variableName columns
  | none => []

/-- The tokens of the declaration of a table, behind the equals sign. -/
def tokens (t : TableDef) : List Token :=
  .identifier "pgTable" :: .leftParen :: .string t.databaseName :: .comma ::
    (Parse.bodyTokens t.members ++ (t.constraintsTokens ++ [Token.rightParen, .semicolon]))

theorem closed_constraintsText {t : TableDef} (hb : Text.isIdentifier t.variableName = true)
    (hf : t.Spellable) : Closed t.constraintsText t.constraintsTokens := by
  rw [constraintsText, constraintsTokens]
  cases hk : t.compositeKey with
  | some columns => exact closed_keyText hb (hf.key columns hk)
  | none => exact fun cs us hcs => hcs

/-- The imports that a table has besides those of its columns. -/
theorem named_ownImports {t : TableDef}
    (hh : ∀ h ∈ t.helperReferences, Text.isIdentifier h = true) :
    (ImportSet.ofList t.ownImports).Named := by
  refine ImportSet.named_ofList fun i hi => ?_
  simp only [ownImports, List.mem_cons, List.mem_append, List.mem_map, List.mem_ite_nil_right,
    List.not_mem_nil, or_false] at hi
  rcases hi with rfl | ⟨h, hm, rfl⟩ | ⟨-, rfl⟩
  · decide
  · exact hh h hm
  · decide

/-- What a table that was written has. -/
theorem generate_eq_ok {t : TableDef} {g : GeneratedEntity} (hg : t.generate = .ok g)
    (hf : t.Spellable) :
    g.imports.Named ∧ (∀ m ∈ t.members, m.Proper) ∧
      Closed g.declaration (headTokens t.variableName ++ t.tokens) := by
  obtain ⟨hd, body, hc, rfl⟩ := generate_eq_ok_iff.1 hg
  obtain ⟨he, hi, hl⟩ := encodeColumns_eq_ok hc
  have hn := isIdentifier_of_isBindingName hd.bound
  have hh : ∀ h ∈ t.helperReferences, Text.isIdentifier h = true := fun h hm =>
    isIdentifier_of_isBindingName (hd.helpers h hm)
  have hm : ∀ m ∈ t.members, m.Proper := by
    intro m hm
    rcases List.mem_append.1 hm with hm | hm
    · obtain ⟨c, hc, rfl⟩ := List.mem_map.1 hm
      exact ⟨he c hc, hf.columns c hc⟩
    · obtain ⟨h, hmem, rfl⟩ := List.mem_map.1 hm
      exact hh h hmem
  refine ⟨(hi.union (named_ownImports hh)).erase _, hm, ?_⟩
  have hopen : Closed ("export const " ++ t.variableName ++ " = pgTable(" ++
      Text.quote t.databaseName ++ ", \x7b") (headTokens t.variableName ++
        [Token.identifier "pgTable", .leftParen, .string t.databaseName, .comma, .leftBrace]) := by
    intro cs us hcs
    simp only [String.toList_append, List.append_assoc, headTokens]
    refine .fixed [.identifier "export", .identifier "const"] rfl (.word hn (.fixed (by decide)) ?_)
    refine .fixed [.equals, .identifier "pgTable", .leftParen] rfl (.literal ?_)
    exact .fixed [.comma, .leftBrace] rfl hcs
  have hclose : Closed ("\x7d" ++ t.constraintsText ++ ");")
      (.rightBrace :: (t.constraintsTokens ++ [Token.rightParen, .semicolon])) := by
    intro cs us hcs
    have hend : Spells (");".toList ++ cs) ([Token.rightParen, .semicolon] ++ us) :=
      .fixed _ rfl hcs
    have := closed_constraintsText hn hf hend
    simp only [String.toList_append, List.append_assoc, List.cons_append]
    exact .fixed [.rightBrace] rfl this
  have := closed_block hopen hclose hm
  have hs : t.helperReferences.map (fun h => "  ..." ++ h ++ ",") =
      (t.helperReferences.map Parse.Member.spread).map Parse.Member.text := by
    rw [List.map_map]
    rfl
  have hts : headTokens t.variableName ++ t.tokens = headTokens t.variableName ++
      [Token.identifier "pgTable", .leftParen, .string t.databaseName, .comma, .leftBrace] ++
      (t.members.flatMap (fun m => m.tokens ++ [Token.comma]) ++
        Token.rightBrace :: (t.constraintsTokens ++ [Token.rightParen, .semicolon])) := by
    simp only [tokens, Parse.bodyTokens, List.append_assoc, List.cons_append, List.nil_append]
  rw [generated, hl, hs, ← List.map_append, hts]
  exact this

/-- The form in which a table is read back. -/
def reread (t : TableDef) : TableDef :=
  { t.canonical with columns := t.columns.map Column.reread }

theorem read_render_reread {t : TableDef} {g : GeneratedEntity} (hg : t.generate = .ok g)
    (hf : t.Spellable) (hl : ∀ c ∈ t.columns, c.Legible) (scope : ImportScope) :
    readTable t.name (g.render scope) = .ok t.reread := by
  obtain ⟨hi, hm, hd⟩ := generate_eq_ok hg hf
  obtain ⟨statements, hs, ht⟩ := spells_render hi hd scope
  have hl : ∀ m ∈ t.members, m.Legible := legible_members.2 hl
  have hdb : (if t.databaseName = Text.snakeCase t.name then none else some t.databaseName) =
      t.dbName.filter fun db => db != Text.snakeCase t.name := by
    rw [databaseName]
    cases t.dbName with
    | none => simp
    | some db => by_cases hdb : db = Text.snakeCase t.name <;> simp [hdb, Option.filter]
  have hcolumns := columnsOf_reread t.columns t.helperReferences
  have hhelpers := helpersOf_reread t.columns t.helperReferences
  have hend : Parse.Reads (do
      Parse.expect .rightParen
      Parse.finish
      pure {
        name := t.name
        dbName := if t.databaseName = Text.snakeCase t.name then none else some t.databaseName
        columns := Parse.columnsOf (t.members.map Parse.Member.reread)
        helperReferences := Parse.helpersOf (t.members.map Parse.Member.reread)
        compositePrimaryKey := t.compositeKey.getD [] })
      [.rightParen, .semicolon] [] (· = t.reread) := by
    refine Parse.expect_reads.next fun _ => Parse.finish_reads.next fun _ => .pure ?_
    rw [hdb, members, hcolumns, hhelpers, reread, canonical]
  rw [readTable]
  refine Parse.run_eq_ok ht ((Parse.header_reads hs).next fun _ => ?_)
  refine Parse.keyword_reads.next fun _ => Parse.expect_reads.next fun _ => ?_
  refine Parse.string_reads.seq (Parse.expect_reads.next fun _ => (Parse.body_reads hm hl).seq ?_)
  rw [constraintsTokens]
  cases hk : t.compositeKey with
  | some columns =>
    rw [hk] at hend
    exact .seq Parse.eat_reads ((Parse.compositeKey_reads t.variableName columns).seq hend)
  | none =>
    rw [hk] at hend
    exact (Parse.eat_passes (by simp)).seq hend

/-- **The module of a table is read as its canonical form.** -/
theorem read_render {t : TableDef} {g : GeneratedEntity} (hg : t.generate = .ok g)
    (hr : t.Readable) (scope : ImportScope) :
    readTable t.name (g.render scope) = .ok t.canonical := by
  rw [read_render_reread hg hr.spellable (fun c hc => (hr.columns c hc).legible), reread,
    List.map_congr_left fun c hc => (hr.columns c hc).reread_eq]
  rfl

/-- **The module of a table with a column that is not legible is not read.** -/
theorem read_refused {t : TableDef} {g : GeneratedEntity} (hg : t.generate = .ok g)
    (hf : t.Spellable) (hl : ¬ ∀ c ∈ t.columns, c.Legible) (name : String)
    (scope : ImportScope) : ∃ e, readTable name (g.render scope) = .error e := by
  obtain ⟨hi, hm, hd⟩ := generate_eq_ok hg hf
  obtain ⟨statements, hs, ht⟩ := spells_render hi hd scope
  have hl : ¬ ∀ m ∈ t.members, m.Legible := mt legible_members.1 hl
  rw [readTable]
  refine Parse.run_eq_error ht ((Parse.header_reads hs).refuses fun _ _ => ?_)
  refine Parse.keyword_reads.refuses fun _ _ => Parse.expect_reads.refuses fun _ _ => ?_
  refine Parse.string_reads.refuses fun _ _ => Parse.expect_reads.refuses fun _ _ => ?_
  exact (Parse.body_refuses hm hl).bind

end TableDef

/-! ## All kinds -/

/-- **Every generated module is read as the canonical form of its entity**,
    wherever the module lies and whatever tables are known. -/
theorem modules_read_canonical (scope : ImportScope) :
    (∀ (e : EnumDef) (g : GeneratedEntity), e.generate = .ok g →
      readEnum (g.render scope) = .ok e.canonical) ∧
    (∀ (h : HelperDef) (g : GeneratedEntity), h.generate = .ok g → (∀ c ∈ h.columns, c.Readable) →
      readHelper (g.render scope) = .ok h.canonical) ∧
    (∀ (t : TableDef) (g : GeneratedEntity), t.generate = .ok g → t.Readable →
      readTable t.name (g.render scope) = .ok t.canonical) :=
  ⟨fun _ _ h => EnumDef.read_render h scope, fun _ _ hg hr => HelperDef.read_render hg hr scope,
    fun _ _ hg hr => TableDef.read_render hg hr scope⟩

/-- A table with an enum column, a default of the database, a reference to
    itself and a composite key. -/
def membersTable : TableDef where
  name := "Members"
  dbName := some "team_members"
  columns := [
    { name := "id", typeName := some "serial", options := { primaryKey := true } },
    { name := "role", options := { enumName := some "Role", default := some (.text "team_lead") } },
    { name := "email", typeName := some "string", options := { length := some 255 } },
    { name := "joined", typeName := some "date", options := { default := some (.call "now") } },
    { name := "boss", typeName := some "number",
      options := { references := some ⟨"Members", "id"⟩ } }]
  helperReferences := ["Timestamps"]
  compositePrimaryKey := ["id", "email"]

theorem modules_read_canonical_members : ∃ e h t,
    EnumDef.generate ⟨"Role", ["admin", "team_lead"]⟩ = .ok e ∧
    HelperDef.generate ⟨"Timestamps", [.ofType "created" .date]⟩ = .ok h ∧
    membersTable.generate = .ok t ∧
    readEnum (e.render .singleModule) = .ok (EnumDef.canonical ⟨"Role", ["admin", "team_lead"]⟩) ∧
    readHelper (h.render .singleModule) =
      .ok (HelperDef.canonical ⟨"Timestamps", [.ofType "created" .date]⟩) ∧
    readTable "Members" (t.render .singleModule) = .ok membersTable.canonical := by
  have hr : membersTable.Readable := by
    refine ⟨fun c hc => ?_, fun columns hk => ?_⟩
    · simp only [membersTable, List.mem_cons, List.not_mem_nil, or_false] at hc
      rcases hc with rfl | rfl | rfl | rfl | rfl <;> constructor <;> intro s hs <;> cases hs <;>
        decide
    · cases hk
      decide
  have hc : ∀ c ∈ [Column.ofType "created" .date], c.Readable := by
    rw [List.forall_mem_singleton]
    constructor <;> intro s hs <;> cases hs
  obtain ⟨he, hh, ht⟩ := modules_read_canonical .singleModule
  exact ⟨_, _, _, rfl, rfl, rfl, he _ _ rfl, hh _ _ rfl hc, ht membersTable _ rfl hr⟩

end SchemaLoom

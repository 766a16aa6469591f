/-
  Import lines are skipped when a module is read.

  * `ImportSet.Named`: every import has an identifier for a name, which sets
    keep under their operations;
  * `ImportSet.closed_render`: the import lines of such a set spell its
    statements, which end at their only semicolon;
  * `skipImports_reads`: the reader skips such statements.
-/
import SchemaLoom.Module.ImportLines
import SchemaLoom.Proofs.Source.Fragment
import SchemaLoom.Proofs.Source.Steps

namespace SchemaLoom

open Source (Token Spells Spelled Closed)

variable {cs : List Char} {ts rest : List Token}

/-! ## Names of imports -/

namespace ImportSet

theorem mem_insert {s : ImportSet} {i x : Import} : x ∈ (s.insert i).items ↔ x = i ∨ x ∈ s.items :=
  mem_insertItem

theorem mem_foldl_insert {is : List Import} {s : ImportSet} {x : Import} :
    x ∈ (is.foldl insert s).items ↔ x ∈ is ∨ x ∈ s.items := by
  induction is generalizing s with
  | nil => simp
  | cons i is ih =>
    rw [List.foldl_cons, ih, mem_insert, List.mem_cons]
    exact or_left_comm.trans or_assoc.symm

theorem mem_ofList {is : List Import} {x : Import} : x ∈ (ofList is).items ↔ x ∈ is := by
  rw [ofList, mem_foldl_insert, empty]
  simp

theorem mem_union {s t : ImportSet} {x : Import} :
    x ∈ (s.union t).items ↔ x ∈ t.items ∨ x ∈ s.items :=
  mem_foldl_insert

/-- Every import has an identifier for a name. -/
def Named (s : ImportSet) : Prop := ∀ i ∈ s.items, Text.isIdentifier i.name = true

theorem named_empty : empty.Named := nofun

theorem named_ofList {is : List Import} (h : ∀ i ∈ is, Text.isIdentifier i.name = true) :
    (ofList is).Named :=
  fun i hi => h i (mem_ofList.1 hi)

theorem Named.union {s t : ImportSet} (hs : s.Named) (ht : t.Named) : (s.union t).Named :=
  fun i hi => (mem_union.1 hi).elim (ht i) (hs i)

theorem Named.foldl_union {β : Type} {xs : List β} {f : β → ImportSet} {s : ImportSet}
    (hs : s.Named) (h : ∀ x ∈ xs, (f x).Named) :
    (xs.foldl (fun s x => s.union (f x)) s).Named := by
  induction xs generalizing s with
  | nil => exact hs
  | cons x xs ih =>
    obtain ⟨hx, hxs⟩ := List.forall_mem_cons.1 h
    exact ih (hs.union hx) hxs

theorem Named.erase {s : ImportSet} (h : s.Named) (i : Import) : (s.erase i).Named :=
  fun j hj => h j (List.mem_filter.1 hj).1

end ImportSet

/-! ## Paths -/

/-- The text stands in quotes as it is. -/
def IsPlain (text : String) : Prop := ∀ c ∈ text.toList, c ∉ ['\\', '\'', '\n']

instance : DecidablePred IsPlain := fun _ =>
  decidable_of_iff (List.all _ fun c => c ∉ ['\\', '\'', '\n']) List.all_iff_forall_prop

theorem IsPlain.quote {text : String} (h : IsPlain text) :
    Text.quote text = "'" ++ text ++ "'" := by
  refine String.toList_injective ?_
  rw [Text.quote, String.toList_ofList, Text.quoteChars, Source.flatMap_quoteChar h]
  simp

theorem isPlain_append {a b : String} (ha : IsPlain a) (hb : IsPlain b) : IsPlain (a ++ b) := by
  intro c hc
  rw [String.toList_append] at hc
  exact (List.mem_append.1 hc).elim (ha c) (hb c)

/-- The characters of an identifier are parts of identifiers. -/
theorem isIdentifierPart_of_mem {name : String} (h : Text.isIdentifier name = true) :
    ∀ c ∈ name.toList, Text.isIdentifierPart c = true := by
  rw [Text.isIdentifier] at h
  cases hn : name.toList with
  | nil => simp
  | cons c rest =>
    simp only [hn, Text.isIdentifierChars, Bool.and_eq_true, List.all_eq_true] at h
    refine List.forall_mem_cons.2 ⟨?_, h.2⟩
    have hc := h.1
    simp only [Text.isIdentifierStart, Bool.or_eq_true] at hc
    rcases hc with (hc | hc) | hc <;> simp [Text.isIdentifierPart, hc]

theorem isPlain_of_isIdentifier {name : String} (h : Text.isIdentifier name = true) :
    IsPlain name := by
  intro c hc hm
  have hall : ∀ c ∈ ['\\', '\'', '\n'], Text.isIdentifierPart c = false :=
    List.all_iff_forall_prop.1 (by decide)
  have hpart := isIdentifierPart_of_mem h c hc
  simp [hall c hm] at hpart

/-- A character that is its own lower-case form stays when a text is lowered. -/
theorem mem_lowerAfter {c : Char} {before cs : List Char} (hs : c ≠ 'Σ')
    (hl : Text.lowerCase c = [c]) (hc : c ∈ cs) : c ∈ Text.lowerAfter before cs := by
  induction cs generalizing before with
  | nil => cases hc
  | cons d cs ih =>
    rw [Text.lowerAfter, List.mem_append]
    rcases List.mem_cons.1 hc with rfl | hc
    · rw [if_neg hs, hl]
      exact .inl (by simp)
    · exact .inr (ih hc)

/-- A table that is bound to an identifier has a plain name. -/
theorem isPlain_of_tableVariable {name : String}
    (h : Text.isIdentifier (tableVariable name) = true) : IsPlain name := by
  intro c hc hm
  have hlow : ∀ c ∈ ['\\', '\'', '\n'], c ≠ 'Σ' ∧ Text.lowerCase c = [c] :=
    List.all_iff_forall_prop.1 (by decide)
  have hmem : c ∈ (tableVariable name).toList := by
    rw [tableVariable, Text.lowerText, String.toList_ofList]
    exact mem_lowerAfter (hlow c hm).1 (hlow c hm).2 hc
  exact isPlain_of_isIdentifier h c hmem hm

theorem isPlain_tableModule {scope : ImportScope} {binding : String}
    (h : Text.isIdentifier binding = true) : IsPlain (scope.tableModule binding) := by
  rw [ImportScope.tableModule]
  cases hf : scope.tableNames.reverse.find? fun name => tableVariable name == binding with
  | none => exact isPlain_of_isIdentifier h
  | some name =>
    have hb : tableVariable name = binding := by simpa using List.find?_some hf
    rw [← hb] at h
    exact isPlain_of_tableVariable h

theorem isPlain_siblingPath {location kind : EntityKind} {stem : String} (h : IsPlain stem) :
    IsPlain (siblingPath location kind stem) := by
  have hfixed : ∀ s ∈ ["./", ".js", "../", "enums", "helpers", "tables", "/"], IsPlain s := by
    decide
  rw [siblingPath]
  split
  · exact isPlain_append (isPlain_append (hfixed _ (by simp)) h) (hfixed _ (by simp))
  · refine isPlain_append (isPlain_append (isPlain_append (isPlain_append (hfixed _ (by simp)) ?_)
      (hfixed _ (by simp))) h) (hfixed _ (by simp))
    exact hfixed _ (by cases kind <;> simp [EntityKind.directory])

/-! ## Import statements -/

/-- Names that are imported from a path. -/
structure ImportStatement where
  names : List String
  path : String
  deriving DecidableEq

namespace ImportStatement

/-- The line of a statement. -/
def line (i : ImportStatement) : String := importLine (", ".intercalate i.names) i.path

/-- The tokens of a statement, between `import` and the semicolon. -/
def tokens (i : ImportStatement) : List Token :=
  .leftBrace :: ([Token.comma].intercalate (i.names.map fun name => [.identifier name]) ++
    [.rightBrace, .identifier "from", .string i.path])

/-- The names are identifiers, and the path stands in quotes as it is. -/
structure Proper (i : ImportStatement) : Prop where
  names : ∀ name ∈ i.names, Text.isIdentifier name = true
  path : IsPlain i.path

end ImportStatement

/-- Some import statements, by the tokens between `import` and the semicolon. -/
def importTokens (statements : List (List Token)) : List Token :=
  statements.flatMap fun mid => .identifier "import" :: (mid ++ [Token.semicolon])

namespace ImportStatement

theorem closed_line {i : ImportStatement} (h : i.Proper) :
    Closed i.line (importTokens [i.tokens]) := by
  intro cs us hcs
  have hend : Spells (";".toList ++ cs) ([Token.semicolon] ++ us) := .fixed _ rfl hcs
  have hfrom : Spells (" \x7d from ".toList ++ ((Text.quote i.path).toList ++ (";".toList ++ cs)))
      ([Token.rightBrace, .identifier "from"] ++ (.string i.path :: ([Token.semicolon] ++ us))) :=
    .fixed _ rfl (.literal hend)
  have hnames : ∀ name ∈ i.names, Spelled (id name) [.identifier name] := fun name hn =>
    .word (h.names name hn)
  have hlist := Spelled.intercalate hnames (.fixed (by decide)) hfrom
  have htext : i.line = "import \x7b " ++ ", ".intercalate (i.names.map id) ++ " \x7d from " ++
      Text.quote i.path ++ ";" := by
    rw [h.path.quote, line, importLine, List.map_id]
    exact String.toList_injective (by simp)
  rw [htext, importTokens, tokens]
  simp only [String.toList_append, List.append_assoc, List.flatMap_cons, List.flatMap_nil,
    List.cons_append, List.nil_append]
  exact .fixed [.identifier "import", .leftBrace] rfl hlist

/-- Statements on lines of their own. -/
theorem closed_lines {is : List ImportStatement} (h : ∀ i ∈ is, i.Proper) :
    Closed ("\n".intercalate (is.map line)) (importTokens (is.map tokens)) := by
  have htokens : importTokens (is.map tokens) = is.flatMap fun i => importTokens [i.tokens] := by
    simp [importTokens, List.flatMap_map]
  rw [htokens]
  exact .intercalate rfl fun i hi => closed_line (h i hi)

end ImportStatement

/-- What is neither the separator nor in any of the lists. -/
theorem notMem_intercalate {t u : Token} {tss : List (List Token)} (hu : t ≠ u)
    (h : ∀ ts ∈ tss, t ∉ ts) : t ∉ [u].intercalate tss := by
  induction tss with
  | nil => simp
  | cons ts tss ih =>
    obtain ⟨ht, hts⟩ := List.forall_mem_cons.1 h
    cases tss with
    | nil => simpa using ht
    | cons us tss =>
      rw [List.intercalate_cons_cons]
      simp [hu, ht, ih hts]

theorem ImportStatement.semicolon_notMem_tokens (i : ImportStatement) :
    Token.semicolon ∉ i.tokens := by
  have hlist : Token.semicolon ∉
      [Token.comma].intercalate (i.names.map fun name => [.identifier name]) :=
    notMem_intercalate (by simp) (by simp)
  simpa [tokens] using hlist

namespace ImportSet

/-- The statements that import from libraries. -/
def libraryStatements (s : ImportSet) : List ImportStatement :=
  (if s.pgCoreNames.isEmpty then [] else [⟨s.pgCoreNames, pgCoreModule⟩]) ++
  if s.contains .sql then [⟨["sql"], sqlModule⟩] else []

/-- The statement that imports an entity into a module in the directory of
    `location`. -/
def entityStatement? (scope : ImportScope) (location : EntityKind) :
    Import → Option ImportStatement
  | .enum name => some ⟨[name], siblingPath location .enum name⟩
  | .helper name => some ⟨[name], siblingPath location .helper name⟩
  | .table binding => some ⟨[binding], siblingPath location .table (scope.tableModule binding)⟩
  | .pgCore _ | .sql => none

/-- The import statements of a set. -/
def statements (s : ImportSet) (scope : ImportScope) : List ImportStatement :=
  s.libraryStatements ++
    match scope.location with
    | none => []
    | some location => s.items.filterMap (entityStatement? scope location)

theorem lines_eq (s : ImportSet) (scope : ImportScope) :
    s.lines scope = (s.statements scope).map ImportStatement.line := by
  have hsingle : ∀ name path,
      (⟨[name], path⟩ : ImportStatement).line = importLine name path := fun name path => by
    simp [ImportStatement.line]
  have hlibrary : s.libraryLines = s.libraryStatements.map ImportStatement.line := by
    rw [libraryLines, libraryStatements, List.map_append]
    congr 1
    · split <;> rfl
    · split <;> simp [hsingle]
  rw [lines, statements, List.map_append, hlibrary]
  cases scope.location with
  | none => rfl
  | some location =>
    change _ ++ s.entityLines scope location =
      _ ++ (s.items.filterMap (entityStatement? scope location)).map ImportStatement.line
    rw [entityLines, List.map_filterMap]
    refine congrArg _ (congrArg (List.filterMap · s.items) (funext fun i => ?_))
    cases i <;> simp [entityStatement?, hsingle]

/-- The statements of named imports are proper. -/
theorem proper_statements {s : ImportSet} (h : s.Named) (scope : ImportScope) :
    ∀ i ∈ s.statements scope, i.Proper := by
  intro i hi
  rw [statements, List.mem_append, libraryStatements, List.mem_append, List.mem_ite_nil_left,
    List.mem_ite_nil_right, List.mem_singleton, List.mem_singleton] at hi
  rcases hi with (⟨-, rfl⟩ | ⟨-, rfl⟩) | hi
  · refine ⟨fun name hn => ?_, (by decide : IsPlain pgCoreModule)⟩
    obtain ⟨j, hj, he⟩ := List.mem_filterMap.1 hn
    split at he <;> cases he
    exact h _ hj
  · exact ⟨by decide, by decide⟩
  · split at hi
    · cases hi
    obtain ⟨j, hj, he⟩ := List.mem_filterMap.1 hi
    have hn := h j hj
    rw [entityStatement?.eq_def] at he
    split at he <;> cases he <;>
      refine ⟨List.forall_mem_singleton.2 hn, isPlain_siblingPath ?_⟩
    · exact isPlain_of_isIdentifier hn
    · exact isPlain_of_isIdentifier hn
    · exact isPlain_tableModule hn

/-- **The import lines of named imports spell the import statements.** -/
theorem closed_render {s : ImportSet} (h : s.Named) (scope : ImportScope) :
    Closed (s.render scope) (importTokens ((s.statements scope).map ImportStatement.tokens)) := by
  rw [render, lines_eq]
  exact ImportStatement.closed_lines (proper_statements h scope)

end ImportSet

/-! ## Skipping imports -/

namespace Source.Parse

theorem kinds_skipThrough {t : Token} {mid : List Token} {xs : List Located} (ht : t ∉ mid)
    (h : xs.map Located.token = mid ++ t :: ts) :
    (skipThrough t xs).map Located.token = ts := by
  induction xs generalizing mid with
  | nil => cases mid <;> cases h
  | cons x xs ih =>
    rw [skipThrough]
    cases mid with
    | nil =>
      obtain ⟨hx, hxs⟩ := List.cons.inj h
      rw [if_pos hx, hxs]
    | cons u mid =>
      obtain ⟨hx, hxs⟩ := List.cons.inj h
      rw [if_neg (by rw [hx]; exact fun he => ht (by simp [he])),
        ih (fun hm => ht (by simp [hm])) hxs]

/-- The reader skips import statements. -/
theorem skipImports_reads {statements : List (List Token)} {room : List Located}
    (hs : ∀ mid ∈ statements, Token.semicolon ∉ mid) (hroom : statements.length ≤ room.length)
    (hr : rest.head? ≠ some (.identifier "import")) :
    Reads (skipImports room) (importTokens statements ++ rest) rest fun _ => True := by
  induction statements generalizing room with
  | nil =>
    obtain _ | ⟨r, room⟩ := room
    · exact .pure trivial
    · refine current_reads.seq ?_
      rw [if_neg (by exact hr)]
      exact .pure trivial
  | cons mid statements ih =>
    obtain _ | ⟨r, room⟩ := room
    · simp at hroom
    obtain ⟨hm, hms⟩ := List.forall_mem_cons.1 hs
    have hskip : Reads (modify fun s => { s with tokens := skipThrough .semicolon s.tokens })
        (importTokens (mid :: statements) ++ rest) (importTokens statements ++ rest)
        fun _ => True := by
      intro s hk
      refine ⟨(), _, rfl, ?_, trivial⟩
      have hm : Token.semicolon ∉ .identifier "import" :: mid := by simpa using hm
      refine kinds_skipThrough hm ?_
      rw [← Stream.kinds, hk, importTokens, List.flatMap_cons]
      simp [importTokens]
    refine current_reads.seq ?_
    rw [if_pos (by rfl)]
    exact hskip.next fun _ => ih hms (by simpa using hroom)

end Source.Parse

end SchemaLoom

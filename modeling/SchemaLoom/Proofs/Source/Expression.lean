/-
  Expressions as they are written, and that they are read back.

  An expression has a text and tokens.  If its names are identifiers, the text
  spells the tokens (`Argument.spelled`, `Call.closed`, `Chain.closed`), and
  the tokens are read as the expression (`argument_reads`, `call_reads`,
  `chain_reads`).  Lines are not compared, since the text is free to have any.
-/
import SchemaLoom.Proofs.Source.Fragment
import SchemaLoom.Proofs.Source.Steps

namespace SchemaLoom.Source

variable {cs : List Char} {ts rest : List Token}

/-! ## Texts and tokens -/

namespace Argument

/-- The value of an entry is smaller than the object. -/
theorem sizeOf_entry {entries : List (String × Argument)} {e : String × Argument}
    (h : e ∈ entries) : sizeOf e.2 < sizeOf (object entries) := by
  have h1 := List.sizeOf_lt_of_mem h
  have h2 : sizeOf e = 1 + sizeOf e.1 + sizeOf e.2 := rfl
  rw [object.sizeOf_spec]
  omega

/-- The text of an argument. -/
def text : Argument → String
  | .string s => Text.quote s
  | .integer i => Json.integerText i.toInt
  | .bool b => if b then "true" else "false"
  | .object entries =>
    "\x7b " ++ ", ".intercalate (entries.map fun e => e.1 ++ ": " ++ e.2.text) ++ " \x7d"
  | .sql body => "sql`" ++ body ++ "`"
  | .columnRef table column => "() => " ++ table ++ "." ++ column
decreasing_by exact sizeOf_entry ‹_›

/-- The tokens of an argument. -/
def tokens : Argument → List Token
  | .string s => [.string s]
  | .integer i => [.number (Json.integerText i.toInt)]
  | .bool b => [.identifier (if b then "true" else "false")]
  | .object entries =>
    .leftBrace :: ([Token.comma].intercalate
      (entries.map fun e => .identifier e.1 :: .colon :: e.2.tokens) ++ [Token.rightBrace])
  | .sql body => [.identifier "sql", .template body]
  | .columnRef table column =>
    [.leftParen, .rightParen, .arrow, .identifier table, .dot, .identifier column]
decreasing_by exact sizeOf_entry ‹_›

theorem length_tokens_pos (a : Argument) : 0 < a.tokens.length := by
  cases a <;> simp [tokens]

/-- Keys, tables and columns are identifiers, and templates hold no backtick. -/
def Proper : Argument → Prop
  | .object entries => ∀ e ∈ entries, Text.isIdentifier e.1 = true ∧ e.2.Proper
  | .sql body => '\x60' ∉ body.toList
  | .columnRef table column => Text.isIdentifier table = true ∧ Text.isIdentifier column = true
  | .string _ | .integer _ | .bool _ => True
decreasing_by exact sizeOf_entry ‹_›

end Argument

namespace Call

/-- The text of a call. -/
def text (c : Call) : String :=
  c.name ++ "(" ++ ", ".intercalate (c.arguments.map Argument.text) ++ ")"

/-- The tokens of a call. -/
def tokens (c : Call) : List Token :=
  .identifier c.name :: .leftParen ::
    ([Token.comma].intercalate (c.arguments.map Argument.tokens) ++ [Token.rightParen])

/-- The function is named by an identifier, and the arguments are proper. -/
structure Proper (c : Call) : Prop where
  name : Text.isIdentifier c.name = true
  arguments : ∀ a ∈ c.arguments, a.Proper

/-- The call without its line. -/
def unlined (c : Call) : Call := { c with line := 0 }

end Call

namespace Chain

/-- The text of a chain. -/
def text (c : Chain) : String := c.head.text ++ String.join (c.rest.map fun d => "." ++ d.text)

/-- The tokens of a chain. -/
def tokens (c : Chain) : List Token := c.head.tokens ++ c.rest.flatMap fun d => .dot :: d.tokens

/-- Every call is proper. -/
structure Proper (c : Chain) : Prop where
  head : c.head.Proper
  rest : ∀ d ∈ c.rest, d.Proper

/-- The chain without the lines of its calls. -/
def unlined (c : Chain) : Chain := ⟨c.head.unlined, c.rest.map Call.unlined⟩

end Chain

/-! ## The texts spell the tokens -/

/-- An identifier does not begin with a dot. -/
theorem stops_identifier {name : String} (h : Text.isIdentifier name = true) :
    Stops (· == '.') (name.toList ++ cs) := by
  rw [Text.isIdentifier] at h
  cases hcs : name.toList with
  | nil => simp [hcs, Text.isIdentifierChars] at h
  | cons c rest =>
    refine .cons (beq_eq_false_iff_ne.2 ?_)
    rintro rfl
    simp [hcs, Text.isIdentifierChars, show Text.isIdentifierStart '.' = false by decide] at h

/-- A member of an object that is named. -/
theorem Spelled.member {owner name : String} (ho : Text.isIdentifier owner = true)
    (hn : Text.isIdentifier name = true) :
    Spelled (owner ++ "." ++ name) [.identifier owner, .dot, .identifier name] := by
  intro cs us he hcs
  rw [String.toList_append, String.toList_append, List.append_assoc, List.append_assoc]
  refine .word ho (.cons (by decide)) ?_
  exact .dot (stops_identifier hn) (.word hn he.stops_part hcs)

namespace Argument

/-- The text of an argument spells its tokens. -/
theorem spelled {a : Argument} (h : a.Proper) : Spelled a.text a.tokens := by
  induction a using Proper.induct with
  | case1 entries ih =>
    rw [Proper] at h
    have hes : ∀ e ∈ entries, Spelled (e.1 ++ ": " ++ e.2.text)
        (.identifier e.1 :: .colon :: e.2.tokens) := by
      intro e hm cs us he hcs
      obtain ⟨hk, hv⟩ := h e hm
      simp only [String.toList_append, List.append_assoc]
      exact .word hk (.cons (by decide)) (.fixed [.colon] rfl (ih e hm hv he hcs))
    intro cs us _ hcs
    have hclose : Spells (" \x7d".toList ++ cs) ([Token.rightBrace] ++ us) := .fixed _ rfl hcs
    have hall := Spelled.intercalate hes (.fixed (by decide)) hclose
    simp only [text, tokens, String.toList_append, List.append_assoc, List.cons_append]
    exact .fixed [.leftBrace] rfl hall
  | case2 body =>
    rw [Proper] at h
    rw [text, tokens]
    intro cs us _ hcs
    simp only [String.toList_append, List.append_assoc]
    have hsql : Text.isIdentifier "sql" = true := by decide
    exact .word hsql (.cons (by decide)) (.template h hcs)
  | case3 table column =>
    rw [Proper] at h
    rw [text, tokens]
    intro cs us he hcs
    have := Spelled.member h.1 h.2 he hcs
    simp only [String.toList_append, List.append_assoc] at this ⊢
    exact .fixed [.leftParen, .rightParen, .arrow] rfl this
  | case4 s =>
    rw [text, tokens]
    exact .literal
  | case5 i =>
    rw [text, tokens]
    exact .number (isNumeral_integerText _)
  | case6 b =>
    rw [text, tokens]
    exact .word (by cases b <;> decide)

end Argument

/-- The text of a call spells its tokens. -/
theorem Call.closed {c : Call} (h : c.Proper) : Closed c.text c.tokens := by
  intro cs ts hcs
  have hclose : Spells (")".toList ++ cs) ([Token.rightParen] ++ ts) := .fixed _ rfl hcs
  have hall := Spelled.intercalate (fun a ha => Argument.spelled (h.arguments a ha))
    (.fixed (by decide)) hclose
  simp only [text, tokens, String.toList_append, List.append_assoc, List.cons_append]
  exact .word h.name (.cons (by decide)) (.fixed [.leftParen] rfl hall)

/-- The text of a chain spells its tokens. -/
theorem Chain.closed {c : Chain} (h : c.Proper) : Closed c.text c.tokens := by
  intro cs ts hcs
  obtain ⟨head, rest⟩ := c
  have hrest := h.rest
  rw [text, tokens, String.toList_append, List.append_assoc, List.append_assoc]
  refine Call.closed h.head ?_
  clear h
  induction rest with
  | nil => exact hcs
  | cons d rest ih =>
    obtain ⟨hd, hds⟩ := List.forall_mem_cons.1 hrest
    have := Call.closed hd (ih hds)
    simp only [List.map_cons, String.join_cons, String.toList_append, List.append_assoc,
      List.flatMap_cons, List.cons_append] at this ⊢
    refine .dot ?_ this
    simp only [Call.text, String.toList_append, List.append_assoc]
    exact stops_identifier hd.name

/-! ## The tokens are read -/

namespace Parse

/-- The tokens of an argument begin with one that closes no list. -/
theorem beginsOther_argument (a : Argument) : BeginsOther .rightParen a.tokens := by
  cases a <;> exact ⟨_, _, by rw [Argument.tokens], by simp⟩

theorem length_le_intercalate_of_mem {tss : List (List Token)} {t : Token} (h : ts ∈ tss) :
    ts.length ≤ ([t].intercalate tss).length := by
  induction tss with
  | nil => cases h
  | cons us tss ih =>
    cases tss with
    | nil => simp_all
    | cons vs tss =>
      rw [List.intercalate_cons_cons]
      simp only [List.length_append]
      rcases List.mem_cons.1 h with rfl | h
      · omega
      · have := ih h
        omega

/-- An argument is read where objects may nest as deep as it has tokens. -/
theorem argumentWithin_reads {a : Argument} {room : List Located}
    (hroom : a.tokens.length ≤ room.length) :
    Reads (argumentWithin room) (a.tokens ++ rest) rest (· = a) := by
  obtain ⟨r, room, rfl⟩ := List.exists_cons_of_length_pos (a.length_tokens_pos.trans_le hroom)
  induction a using Argument.Proper.induct generalizing r room rest with
  | case1 entries ih =>
    rw [Argument.tokens] at hroom ⊢
    have hitem : ∀ e ∈ entries, ∀ t ∈ [Token.comma, .rightBrace], ∀ rest,
        Reads (entry (argumentWithin room))
          ((.identifier e.1 :: .colon :: e.2.tokens) ++ t :: rest) (t :: rest) (· = id e) := by
      intro e he t _ rest
      have hl := length_le_intercalate_of_mem (t := .comma) (List.mem_map_of_mem
        (f := fun e : String × Argument => Token.identifier e.1 :: .colon :: e.2.tokens) he)
      have hle : e.2.tokens.length ≤ room.length := by
        simp only [List.length_cons, List.length_append] at hl hroom
        omega
      -- The room that is left is for the value, and is not empty since the value has a token.
      obtain ⟨q, room, rfl⟩ :=
        List.exists_cons_of_length_pos (e.2.length_tokens_pos.trans_le hle)
      refine identifier_reads.seq (expect_reads.next fun _ => ?_)
      exact (ih e he q room hle).seq (.pure rfl)
    have hlist : Reads (listUntil .rightBrace (entry (argumentWithin room)))
        ([Token.comma].intercalate (entries.map fun e => .identifier e.1 :: .colon :: e.2.tokens) ++
          Token.rightBrace :: rest) rest (· = entries.map id) :=
      listUntil_separated id (by decide) hitem fun e _ => ⟨_, _, rfl, by simp⟩
    rw [List.map_id] at hlist
    rw [argumentWithin, List.cons_append, List.append_assoc]
    exact .seq current_reads (.next advance_reads fun _ => hlist.seq (.pure rfl))
  | case2 body =>
    rw [argumentWithin, Argument.tokens]
    refine .seq current_reads (.next advance_reads fun _ => ?_)
    exact .seq current_reads (.next advance_reads fun _ => .pure rfl)
  | case3 table column =>
    rw [argumentWithin, Argument.tokens]
    refine .seq current_reads (.next advance_reads fun _ => ?_)
    refine expect_reads.next fun _ => expect_reads.next fun _ => identifier_reads.seq ?_
    exact expect_reads.next fun _ => identifier_reads.seq (.pure rfl)
  | case4 s =>
    rw [argumentWithin, Argument.tokens]
    exact .seq current_reads (.next advance_reads fun _ => .pure rfl)
  | case5 i =>
    rw [argumentWithin, Argument.tokens]
    refine .seq current_reads ?_
    simp only [List.cons_append, List.head?_cons, integerLiteral?_integerText]
    exact .next advance_reads fun _ => .pure rfl
  | case6 b =>
    rw [argumentWithin, Argument.tokens]
    cases b <;> exact .seq current_reads (.next advance_reads fun _ => .pure rfl)

/-- An argument is read. -/
theorem argument_reads (a : Argument) : Reads argument (a.tokens ++ rest) rest (· = a) := by
  refine Reads.get fun s hs => argumentWithin_reads ?_
  have h := congrArg List.length hs
  rw [Stream.kinds, List.length_map, List.length_append] at h
  omega

/-- A step that answers with the line, and what follows it. -/
theorem line_reads : Reads line ts ts fun _ => True :=
  fun s hs => ⟨_, s, rfl, hs, trivial⟩

/-- A call is read. -/
theorem call_reads (c : Call) :
    Reads call (c.tokens ++ rest) rest fun d => d.unlined = c.unlined := by
  have hlist : Reads (listUntil .rightParen argument)
      ([Token.comma].intercalate (c.arguments.map Argument.tokens) ++ Token.rightParen :: rest) rest
      (· = c.arguments.map id) :=
    listUntil_separated id (by decide) (fun a _ _ _ _ => argument_reads a)
      fun a _ => beginsOther_argument a
  rw [List.map_id] at hlist
  rw [Call.tokens, List.cons_append, List.cons_append, List.append_assoc]
  refine line_reads.next fun n => identifier_reads.seq (expect_reads.next fun _ => ?_)
  exact hlist.seq (.pure rfl)

/-- The calls that follow are read where no dot follows them. -/
theorem moreCalls_reads {calls : List Call} {room : List Located}
    (hroom : calls.length ≤ room.length) (hr : rest.head? ≠ some .dot) :
    Reads (moreCalls room) (calls.flatMap (fun d => .dot :: d.tokens) ++ rest) rest
      fun ds => ds.map Call.unlined = calls.map Call.unlined := by
  induction calls generalizing room with
  | nil =>
    obtain _ | ⟨r, room⟩ := room
    · exact .pure rfl
    · exact (eat_passes hr).seq (.pure rfl)
  | cons c calls ih =>
    obtain _ | ⟨r, room⟩ := room
    · simp at hroom
    rw [List.flatMap_cons, List.append_assoc, List.cons_append]
    refine .seq eat_reads ((call_reads c).bind fun d hd => ?_)
    refine (ih (by simpa using hroom)).bind fun ds hds => .pure ?_
    rw [List.map_cons, List.map_cons, hd, hds]

/-- A chain is read where no dot follows. -/
theorem chain_reads (c : Chain) (hr : rest.head? ≠ some .dot) :
    Reads chain (c.tokens ++ rest) rest fun d => d.unlined = c.unlined := by
  rw [Chain.tokens, List.append_assoc]
  refine (call_reads c.head).bind fun d hd => Reads.get fun s hs => ?_
  refine (moreCalls_reads ?_ hr).bind fun ds hds => .pure ?_
  · have h1 : s.tokens.length = s.kinds.length := by simp [Stream.kinds]
    have h2 : c.rest.length ≤ (c.rest.flatMap fun d => Token.dot :: d.tokens).length := by
      induction c.rest with
      | nil => simp
      | cons d ds ih =>
        simp only [List.flatMap_cons, List.length_append, List.length_cons]
        omega
    rw [h1, hs, List.length_append]
    omega
  · rw [Chain.unlined, Chain.unlined, hd, hds]

end Parse

end SchemaLoom.Source

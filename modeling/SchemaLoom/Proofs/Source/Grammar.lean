/-
  The grammar of expressions and bodies, and that it is what the parser accepts.

      chain    := call ( '.' call )*
      call     := IDENT '(' arguments ')'
      argument := STRING | NUMBER | 'true' | 'false' | 'sql' TEMPLATE
                | '{' ( IDENT ':' argument ),* '}'
                | '(' ')' '=>' IDENT '.' IDENT
      body     := '{' ( IDENT ':' chain | '...' IDENT ),* '}'

  A list may end with a comma, and a number has at most 64 bits.

  * `takes_argument`, `takes_chain`, `takes_body`: each step takes what its
    production derives;
  * `accepted_iff_derives`: the parser accepts exactly the grammar.
-/
import SchemaLoom.Proofs.Source.Taking
import SchemaLoom.Source.Entity

namespace SchemaLoom.Source

/-! ## The grammar -/

mutual

/-- The tokens derive the argument. -/
inductive DerivesArgument : List Located → Argument → Prop
  | string {x : Located} {text : String} : x.token = .string text →
      DerivesArgument [x] (.string text)
  | number {x : Located} {digits : String} {value : Int64} : x.token = .number digits →
      value.toInt = literalValue digits → DerivesArgument [x] (.integer value)
  | true {x : Located} : x.token = .identifier "true" → DerivesArgument [x] (.bool true)
  | false {x : Located} : x.token = .identifier "false" → DerivesArgument [x] (.bool false)
  | sql {x y : Located} {body : String} : x.token = .identifier "sql" →
      y.token = .template body → DerivesArgument [x, y] (.sql body)
  | object {x y : Located} {us : List Located} {entries : List (String × Argument)} :
      x.token = .leftBrace → CommaSeparated DerivesEntry us entries → y.token = .rightBrace →
      DerivesArgument (x :: (us ++ [y])) (.object entries)
  | columnRef {left right arrow x dot y : Located} {table column : String} :
      left.token = .leftParen → right.token = .rightParen → arrow.token = .arrow →
      x.token = .identifier table → dot.token = .dot → y.token = .identifier column →
      DerivesArgument [left, right, arrow, x, dot, y] (.columnRef table column)

/-- The tokens derive the entry of an object. -/
inductive DerivesEntry : List Located → String × Argument → Prop
  | entry {x colon : Located} {us : List Located} {key : String} {value : Argument} :
      x.token = .identifier key → colon.token = .colon → DerivesArgument us value →
      DerivesEntry (x :: colon :: us) (key, value)

end

/-- The tokens derive the call, which is on the line of its name. -/
inductive DerivesCall : Phrase Call
  | call {x left right : Located} {us : List Located} {name : String}
      {arguments : List Argument} : x.token = .identifier name → left.token = .leftParen →
      CommaSeparated DerivesArgument us arguments → right.token = .rightParen →
      DerivesCall (x :: left :: (us ++ [right])) ⟨name, arguments, x.line⟩

/-- The tokens derive the calls, each behind a dot. -/
inductive DerivesCalls : Phrase (List Call)
  | nil : DerivesCalls [] []
  | cons {dot : Located} {ts us : List Located} {c : Call} {cs : List Call} : dot.token = .dot →
      DerivesCall ts c → DerivesCalls us cs → DerivesCalls (dot :: (ts ++ us)) (c :: cs)

/-- The tokens derive the chain. -/
inductive DerivesChain : Phrase Chain
  | chain {ts us : List Located} {c : Call} {cs : List Call} : DerivesCall ts c →
      DerivesCalls us cs → DerivesChain (ts ++ us) ⟨c, cs⟩

/-- An entry of a body: a helper that is spread, or the chain of a column. -/
inductive BodyEntry where
  | spread (helper : String)
  | column (name : String) (chain : Chain)

/-- The tokens derive the entry of a body. -/
inductive DerivesBodyEntry : Phrase BodyEntry
  | spread {x y : Located} {helper : String} : x.token = .spread → y.token = .identifier helper →
      DerivesBodyEntry [x, y] (.spread helper)
  | column {x colon : Located} {us : List Located} {name : String} {chain : Chain} :
      x.token = .identifier name → colon.token = .colon → DerivesChain us chain →
      DerivesBodyEntry (x :: colon :: us) (.column name chain)

/-- The tokens derive the entries of a body. -/
inductive DerivesBody : Phrase (List BodyEntry)
  | body {x y : Located} {us : List Located} {entries : List BodyEntry} : x.token = .leftBrace →
      CommaSeparated DerivesBodyEntry us entries → y.token = .rightBrace →
      DerivesBody (x :: (us ++ [y])) entries

/-! ## Arguments -/

theorem integerLiteral?_eq_some {digits : String} {value : Int64} :
    integerLiteral? digits = some value ↔ value.toInt = literalValue digits := by
  have h1 := value.le_toInt
  have h2 := value.toInt_lt
  rw [integerLiteral?, Json.int64?]
  constructor
  · intro h
    split at h
    next hrange =>
      obtain rfl := Option.some.inj h
      exact Int64.toInt_ofInt_of_le hrange.1 (Int.lt_of_le_of_lt hrange.2 (by decide))
    next => cases h
  · intro h
    rw [← h, if_pos ⟨h1, by omega⟩, Int64.ofInt_toInt]

namespace Parse

variable {n : Nat} {S : Option Token → Prop}

theorem takes_entry {argument : Parse Argument} (h : Takes n argument DerivesArgument Anything) :
    Takes n (entry argument) DerivesEntry Anything := by
  refine (takes_identifier.step fun key => (takes_expect .colon).step fun _ =>
    h.map fun value => (key, value)).congr fun ts e => ?_
  constructor
  · rintro ⟨x, _, key, rfl, hx, colon, us, _, rfl, hc, value, hv, rfl⟩
    exact .entry hx hc hv
  · rintro ⟨hx, hc, hv⟩
    exact ⟨_, _, _, rfl, hx, _, _, (), rfl, hc, _, hv, rfl⟩

/-- What an argument goes on with behind `sql`. -/
theorem takes_template : Takes n (do
      let body ← current
      advance
      match body with
      | some (.template text) => pure (.sql text)
      | _ => expected .sqlTemplate : Parse Argument)
    (One fun t a => ∃ body, t = .template body ∧ a = .sql body) S := by
  refine takes_one nofun fun x xs e r => ?_
  obtain ⟨t, l⟩ := x
  obtain ⟨a, s'⟩ := r
  constructor
  · intro h
    cases t <;> cases h
    exact ⟨⟨_, rfl, rfl⟩, rfl⟩
  · rintro ⟨⟨body, rfl, rfl⟩, rfl⟩
    rfl

/-- What an argument goes on with behind an opening parenthesis. -/
theorem takes_columnRef {line : Nat} :
    Takes n (do
        expect .rightParen
        expect .arrow
        let table ← identifier
        expect .dot
        let column ← identifier
        pure (.columnRef table column) : Parse Argument)
      (fun ts a => DerivesArgument (⟨.leftParen, line⟩ :: ts) a) S := by
  refine ((takes_expect .rightParen).step fun _ => (takes_expect .arrow).step fun _ =>
    takes_identifier.step fun table => (takes_expect .dot).step fun _ =>
    takes_identifier.map (Argument.columnRef table)).congr fun ts a => ?_
  constructor
  · rintro ⟨right, _, _, rfl, hr, arrow, _, _, rfl, ha, x, _, table, rfl, hx, dot, _, _, rfl, hd,
      column, ⟨y, rfl, hy⟩, rfl⟩
    exact .columnRef rfl hr ha hx hd hy
  · intro h
    cases h with
    | columnRef _ hr ha hx hd hy =>
      exact ⟨_, _, (), rfl, hr, _, _, (), rfl, ha, _, _, _, rfl, hx, _, _, (), rfl, hd, _,
        ⟨_, rfl, hy⟩, rfl⟩
    | string h | number h | object h | sql h | true h | false h => cases h

/-- What an argument goes on with behind an opening brace. -/
theorem takes_object {argument : Parse Argument} {line : Nat}
    (h : Takes n argument DerivesArgument Anything) :
    Takes n (listUntil .rightBrace (entry argument) >>= fun entries => pure (.object entries))
      (fun ts a => DerivesArgument (⟨.leftBrace, line⟩ :: ts) a) Anything := by
  have hhead : ∀ ts e, DerivesEntry ts e → ∃ x us, ts = x :: us ∧ x.token ≠ .rightBrace := by
    rintro _ _ ⟨hx, -, -⟩
    exact ⟨_, _, rfl, by rw [hx]; nofun⟩
  have hlist : Takes n (listUntil .rightBrace (entry argument)) (UpTo .rightBrace DerivesEntry)
      Anything :=
    takes_listUntil nofun (takes_entry h) trivial trivial hhead
  refine (hlist.map Argument.object).congr fun ts a => ?_
  constructor
  · rintro ⟨entries, ⟨us, y, rfl, hy, hus⟩, rfl⟩
    exact .object rfl hus hy
  · intro h
    cases h with
    | object _ hus hy => exact ⟨_, ⟨_, _, rfl, hy, hus⟩, rfl⟩
    | string h | number h | columnRef h | sql h | true h | false h => cases h

/-- A token that is an argument by itself begins no other. -/
theorem derivesArgument_iff_of_single {x : Located} {b : Argument} (hx : DerivesArgument [x] b)
    (ts : List Located) (a : Argument) : DerivesArgument (x :: ts) a ↔ ts = [] ∧ a = b := by
  constructor
  · intro h
    generalize he : [x] = us at hx
    cases hx <;> simp at he <;> subst he <;> cases h <;> grind [Int64.toInt_inj]
  · rintro ⟨rfl, rfl⟩
    exact hx

section
variable {r x : Located} {room : List Located}

/-- Behind the token `x`, an argument goes on with what makes one with it. -/
def Continues (r : Located) (room : List Located) (x : Located) : Prop :=
  ∃ q : Parse Argument, Takes room.length q (fun ts a => DerivesArgument (x :: ts) a) Anything ∧
    ∀ xs e res, argumentWithin (r :: room) ⟨x :: xs, e⟩ = .ok res ↔ q ⟨xs, e⟩ = .ok res

theorem continues_single {b : Argument} (hx : DerivesArgument [x] b)
    (hrun : ∀ xs e, argumentWithin (r :: room) ⟨x :: xs, e⟩ = .ok (b, ⟨xs, e⟩)) :
    Continues r room x := by
  refine ⟨pure b, (takes_pure b).congr fun ts a => ?_, fun xs e res => ?_⟩
  · exact (derivesArgument_iff_of_single hx ts a).symm
  · rw [hrun]
    rfl

theorem continues_none (hx : ∀ ts a, ¬ DerivesArgument (x :: ts) a)
    (hrun : ∀ xs e res, argumentWithin (r :: room) ⟨x :: xs, e⟩ ≠ .ok res) :
    Continues r room x := by
  refine ⟨expected .argument, takes_expected hx, fun xs e res => iff_of_false (hrun xs e res) ?_⟩
  intro h
  cases h

/-- A number is an argument if it has at most 64 bits. -/
theorem continues_number (digits : String) (line : Nat) :
    Continues r room ⟨.number digits, line⟩ := by
  cases hv : integerLiteral? digits with
  | some value =>
    refine continues_single (.number rfl (integerLiteral?_eq_some.1 hv)) fun xs e => ?_
    rw [argumentWithin, current_bind]
    dsimp only [Stream.current, List.head?_cons, Option.map_some]
    rw [hv]
    rfl
  | none =>
    refine continues_none (fun ts a h => ?_) fun xs e res h => ?_
    · cases h with
      | number h hvalue =>
        cases h
        rw [integerLiteral?_eq_some.2 hvalue] at hv
        cases hv
      | string h | object h | columnRef h | sql h | true h | false h => cases h
    · rw [argumentWithin, current_bind] at h
      dsimp only [Stream.current, List.head?_cons, Option.map_some] at h
      rw [hv] at h
      cases h

/-- Of all words, an argument begins with the keywords only. -/
theorem continues_word (name : String) (line : Nat) :
    Continues r room ⟨.identifier name, line⟩ := by
  by_cases htrue : name = "true"
  · subst htrue
    exact continues_single (.true rfl) fun _ _ => rfl
  by_cases hfalse : name = "false"
  · subst hfalse
    exact continues_single (.false rfl) fun _ _ => rfl
  by_cases hsql : name = "sql"
  · subst hsql
    refine ⟨_, takes_template.congr fun ts a => ?_, fun _ _ _ => Iff.rfl⟩
    constructor
    · rintro ⟨y, rfl, body, hy, rfl⟩
      exact .sql rfl hy
    · intro h
      cases h with
      | sql _ hy => exact ⟨_, rfl, _, hy, rfl⟩
      | string h | number h | object h | columnRef h => cases h
      | true h => exact absurd (Token.identifier.inj h) htrue
      | false h => exact absurd (Token.identifier.inj h) hfalse
  refine continues_none (fun ts a h => ?_) fun xs e res h => ?_
  · cases h with
    | true h => exact htrue (Token.identifier.inj h)
    | false h => exact hfalse (Token.identifier.inj h)
    | sql h => exact hsql (Token.identifier.inj h)
    | string h | number h | object h | columnRef h => cases h
  · rw [argumentWithin] at h
    obtain ⟨t, s, ht, h⟩ := run_bind_eq_ok.1 h
    have hword : t = some (.identifier name) := by
      cases ht
      rfl
    split at h <;> cases hword
    · exact htrue rfl
    · exact hfalse rfl
    · exact hsql rfl
    · cases h

/-- The first token of an argument tells the production. -/
theorem continues (hroom : Takes room.length (argumentWithin room) DerivesArgument Anything)
    (x : Located) : Continues r room x := by
  obtain ⟨t, line⟩ := x
  cases t with
  | string text => exact continues_single (.string rfl) fun _ _ => rfl
  | number digits => exact continues_number digits line
  | identifier name => exact continues_word name line
  | leftBrace => exact ⟨_, takes_object hroom, fun _ _ _ => Iff.rfl⟩
  | leftParen => exact ⟨_, takes_columnRef, fun _ _ _ => Iff.rfl⟩
  | _ =>
    refine continues_none (fun ts a h => ?_) fun xs e res h => ?_
    · cases h with
      | string h | number h | object h | columnRef h | sql h | true h | false h => cases h
    · cases h

end

/-- An argument takes what its production derives, where objects may nest as deep as
    there are tokens. -/
theorem takes_argumentWithin (room : List Located) :
    Takes room.length (argumentWithin room) DerivesArgument Anything := by
  have hnone : ∀ a, ¬ DerivesArgument [] a := by
    intro a h
    cases h
  induction room with
  | nil =>
    constructor
    · intro s a s' _ h
      cases h
    · intro ts a s' hs h _
      cases ts with
      | nil => exact absurd h (hnone a)
      | cons x ts => simp [Stream.length_after] at hs
  | cons r room ih =>
    refine .head (fun e res h => ?_) hnone fun x => continues ih x
    cases h

/-- **An argument takes what its production derives.** -/
theorem takes_argument : Takes n argument DerivesArgument Anything :=
  .get fun s => takes_argumentWithin s.tokens

/-! ## Calls -/

/-- A call takes what its production derives. -/
theorem takes_call : Takes n call DerivesCall Anything := by
  have hnone : ∀ c, ¬ DerivesCall [] c := nofun
  refine Takes.mono (.head nofun hnone fun x => ?_) (Nat.le_succ n)
  obtain ⟨t, line⟩ := x
  cases t with
  | identifier name =>
    have hhead : ∀ ts a, DerivesArgument ts a → ∃ x us, ts = x :: us ∧ x.token ≠ .rightParen := by
      intro ts a h
      cases h <;> exact ⟨_, _, rfl, by simp [*]⟩
    have hlist : Takes n (listUntil .rightParen argument) (UpTo .rightParen DerivesArgument)
        Anything :=
      takes_listUntil nofun takes_argument trivial trivial hhead
    refine ⟨_, ((takes_expect .leftParen).step fun _ => hlist.map fun arguments =>
      (⟨name, arguments, line⟩ : Call)).congr fun ts c => ?_, fun xs e r => Iff.rfl⟩
    constructor
    · rintro ⟨left, _, _, rfl, hl, arguments, ⟨us, right, rfl, hr, hus⟩, rfl⟩
      exact .call rfl hl hus hr
    · intro h
      cases h with
      | call hx hl hus hr =>
        cases hx
        exact ⟨_, _, (), rfl, hl, _, ⟨_, _, rfl, hr, hus⟩, rfl⟩
  | _ =>
    refine ⟨expected .identifier, takes_expected fun ts c h => ?_, fun xs e r => ⟨nofun, nofun⟩⟩
    cases h with
    | call hx => cases hx

/-- The next token is no dot. -/
def NoDot : Option Token → Prop := fun t => t ≠ some .dot

/-- The calls that follow take what is derived of them, up to a token that is no
    dot. -/
theorem takes_moreCalls (room : List Located) :
    Takes room.length (moreCalls room) DerivesCalls NoDot := by
  induction room with
  | nil =>
    constructor
    · intro s cs s' hs h
      cases h
      exact ⟨[], rfl, .nil⟩
    · intro ts cs s' hs h hS
      cases h with
      | nil => rfl
      | cons => simp [Stream.length_after] at hs
  | cons r room ih =>
    have hnext : Takes room.length (do
        let c ← call
        let cs ← moreCalls room
        pure (c :: cs))
        (fun ts b => ∃ us vs c, ts = us ++ vs ∧ DerivesCall us c ∧
          ∃ cs, DerivesCalls vs cs ∧ c :: cs = b) NoDot :=
      takes_call.bind fun c => ih.map (c :: ·)
    constructor
    · intro s cs s' hs h
      rw [moreCalls, eat_bind_eq_ok] at h
      rcases h with ⟨dot, s₁, hd, rfl, h⟩ | ⟨-, h⟩
      · obtain ⟨_, rfl, us, vs, c, rfl, hc, cs, hcs, rfl⟩ :=
          hnext.sound (Nat.le_of_succ_le_succ hs) h
        exact ⟨dot :: (us ++ vs), rfl, .cons hd hc hcs⟩
      · cases h
        exact ⟨[], rfl, .nil⟩
    · intro ts cs s' hs h hS
      rw [moreCalls, eat_bind_eq_ok]
      cases h with
      | nil => exact .inr ⟨hS, rfl⟩
      | cons hd hc hcs =>
        exact .inl ⟨_, _, hd, rfl, hnext.complete (Nat.le_of_succ_le_succ hs)
          ⟨_, _, _, rfl, hc, _, hcs, rfl⟩ hS⟩

/-- **A chain takes what its production derives**, up to a token that is no dot. -/
theorem takes_chain : Takes n chain DerivesChain NoDot := by
  refine (takes_call.bind fun head => Takes.get fun s =>
    (takes_moreCalls s.tokens).map (Chain.mk head)).congr fun ts c => ?_
  constructor
  · rintro ⟨us, vs, c, rfl, hc, cs, hcs, rfl⟩
    exact .chain hc hcs
  · rintro ⟨hc, hcs⟩
    exact ⟨_, _, _, rfl, hc, _, hcs, rfl⟩

/-! ## Bodies -/

end Parse

/-- The member that an entry declares. -/
def BodyEntry.interpret : BodyEntry → Except Error Parse.Member
  | spread helper => .ok (.spread helper)
  | column name chain => (Source.interpret name chain).map .column

/-- The columns among the entries of a body, as they are written. -/
def columnEntries (entries : List BodyEntry) : List (String × Chain) :=
  entries.filterMap fun
    | .column name chain => some (name, chain)
    | .spread _ => none

/-- The helpers among the entries of a body. -/
def spreadEntries (entries : List BodyEntry) : List String :=
  entries.filterMap fun
    | .spread helper => some helper
    | .column _ _ => none

/-- Entries declare members if their columns can be interpreted, and these are the
    columns and helpers of the members. -/
theorem exists_members_iff {entries : List BodyEntry} {columns : List Column}
    {helpers : List String} :
    (∃ members, entries.mapM BodyEntry.interpret = .ok members ∧
      Parse.columnsOf members = columns ∧ Parse.helpersOf members = helpers) ↔
    (columnEntries entries).mapM (fun e => interpret e.1 e.2) = .ok columns ∧
      spreadEntries entries = helpers := by
  simp only [mapM_eq_ok]
  induction entries generalizing columns helpers with
  | nil =>
    constructor
    · rintro ⟨members, h, rfl, rfl⟩
      obtain rfl := List.map_eq_nil_iff.1 h.symm
      exact ⟨rfl, rfl⟩
    · rintro ⟨h, rfl⟩
      obtain rfl := List.map_eq_nil_iff.1 h.symm
      exact ⟨[], rfl, rfl, rfl⟩
  | cons entry entries ih =>
    cases entry with
    | spread helper =>
      constructor
      · rintro ⟨members, h, rfl, rfl⟩
        obtain ⟨m, ms, rfl, hm, hms⟩ := List.map_eq_cons_iff.1 h.symm
        obtain ⟨hcolumns, hhelpers⟩ := ih.1 ⟨ms, hms.symm, rfl, rfl⟩
        cases hm
        exact ⟨hcolumns, congrArg (helper :: ·) hhelpers⟩
      · rintro ⟨h, rfl⟩
        obtain ⟨ms, hms, hcolumns, hhelpers⟩ := ih.2 ⟨h, rfl⟩
        exact ⟨.spread helper :: ms, congrArg _ hms, hcolumns, congrArg (helper :: ·) hhelpers⟩
    | column name chain =>
      constructor
      · rintro ⟨members, h, rfl, rfl⟩
        obtain ⟨m, ms, rfl, hm, hms⟩ := List.map_eq_cons_iff.1 h.symm
        obtain ⟨hcolumns, hhelpers⟩ := ih.1 ⟨ms, hms.symm, rfl, rfl⟩
        obtain ⟨c, hc, rfl⟩ := map_eq_ok_iff.1 hm.symm
        exact ⟨congr (congrArg List.cons hc) hcolumns, hhelpers⟩
      · rintro ⟨h, rfl⟩
        obtain ⟨c, cs, rfl, hc, hcs⟩ := List.map_eq_cons_iff.1 h.symm
        obtain ⟨ms, hms, hcolumns, hhelpers⟩ := ih.2 ⟨hcs.symm, rfl⟩
        exact ⟨.column c :: ms, congr (congrArg List.cons (map_eq_ok hc.symm)) hms,
          congrArg (c :: ·) hcolumns, hhelpers⟩

namespace Parse

/-- A column takes an entry of its chain that can be interpreted. -/
theorem takes_column : Takes n column (fun ts c => ∃ name chain,
    DerivesBodyEntry ts (.column name chain) ∧ Source.interpret name chain = .ok c) NoDot := by
  refine (takes_identifier.step fun name => (takes_expect .colon).step fun _ =>
    takes_chain.answer (g := Source.interpret name) fun chain s => ?_).congr fun ts c => ?_
  · cases Source.interpret name chain <;> rfl
  · constructor
    · rintro ⟨x, _, name, rfl, hx, colon, us, _, rfl, hc, chain, hus, hok⟩
      exact ⟨name, chain, .column hx hc hus, hok⟩
    · rintro ⟨name, chain, hentry, hok⟩
      cases hentry with
      | column hx hc hus => exact ⟨_, _, _, rfl, hx, _, _, (), rfl, hc, _, hus, hok⟩

/-- A member of a body takes an entry that can be interpreted. -/
theorem takes_member : Takes n member
    (fun ts m => ∃ entry, DerivesBodyEntry ts entry ∧ entry.interpret = .ok m) NoDot := by
  have hspread : ∀ n, Takes n (identifier >>= fun helper => pure (Member.spread helper))
      (fun ts m => ∃ helper, One (fun t name => t = .identifier name) ts helper ∧
        Member.spread helper = m) Anything :=
    fun _ => takes_identifier.map Member.spread
  have hcolumn := (takes_column (n := n)).map Member.column
  constructor
  · intro s m s' hs h
    rw [member, eat_bind_eq_ok] at h
    rcases h with ⟨x, s₁, hx, rfl, h⟩ | ⟨-, h⟩
    · obtain ⟨_, rfl, helper, ⟨y, rfl, hy⟩, rfl⟩ := (hspread _).sound (Nat.le_refl _) h
      exact ⟨[x, y], rfl, .spread helper, .spread hx hy, rfl⟩
    · obtain ⟨ts, rfl, c, ⟨name, chain, hentry, hok⟩, rfl⟩ := hcolumn.sound hs h
      exact ⟨ts, rfl, .column name chain, hentry, map_eq_ok hok⟩
  · rintro ts m s' hs ⟨entry, hentry, hok⟩ hS
    rw [member, eat_bind_eq_ok]
    cases hentry with
    | spread hx hy =>
      cases hok
      exact .inl ⟨_, _, hx, rfl,
        (hspread _).complete (Nat.le_refl _) ⟨_, ⟨_, rfl, hy⟩, rfl⟩ trivial⟩
    | column hx hc hus =>
      obtain ⟨c, hinterpret, rfl⟩ := map_eq_ok_iff.1 hok
      have hmember := hcolumn.complete hs ⟨c, ⟨_, _, .column hx hc hus, hinterpret⟩, rfl⟩ hS
      refine .inr ⟨fun h => ?_, hmember⟩
      cases hx.symm.trans (Option.some.inj h)

/-- Items that are looked at further, one by one. -/
theorem commaSeparated_mapM {α β : Type} {Item : Phrase α} {g : α → Except Error β}
    {ts : List Located} {bs : List β} :
    CommaSeparated (fun ts b => ∃ a, Item ts a ∧ g a = .ok b) ts bs ↔
      ∃ as, CommaSeparated Item ts as ∧ as.mapM g = .ok bs := by
  simp only [mapM_eq_ok]
  constructor
  · intro h
    induction h with
    | nil => exact ⟨[], .nil, rfl⟩
    | single h =>
      obtain ⟨a, ha, hok⟩ := h
      exact ⟨[a], .single ha, congrArg (· :: []) hok⟩
    | cons h hc _ ih =>
      obtain ⟨a, ha, hok⟩ := h
      obtain ⟨as, has, hoks⟩ := ih
      exact ⟨a :: as, .cons ha hc has, congr (congrArg List.cons hok) hoks⟩
  · rintro ⟨as, h, hok⟩
    induction h generalizing bs with
    | nil =>
      obtain rfl := List.map_eq_nil_iff.1 hok.symm
      exact .nil
    | single h =>
      obtain ⟨b, _, rfl, hb, hbs⟩ := List.map_eq_cons_iff.1 hok.symm
      obtain rfl := List.map_eq_nil_iff.1 hbs
      exact .single ⟨_, h, hb.symm⟩
    | cons h hc _ ih =>
      obtain ⟨b, bs, rfl, hb, hbs⟩ := List.map_eq_cons_iff.1 hok.symm
      exact .cons ⟨_, h, hb.symm⟩ hc (ih hbs.symm)

/-- **A body takes the entries of its production**, if they can be interpreted. -/
theorem takes_body : Takes n body
    (fun ts members => ∃ entries, DerivesBody ts entries ∧
      entries.mapM BodyEntry.interpret = .ok members) Anything := by
  have hhead : ∀ ts m, (∃ entry, DerivesBodyEntry ts entry ∧ entry.interpret = .ok m) →
      ∃ x us, ts = x :: us ∧ x.token ≠ .rightBrace := by
    rintro _ m ⟨_, ⟨hx, -⟩ | ⟨hx, -, -⟩, -⟩ <;> exact ⟨_, _, rfl, by rw [hx]; nofun⟩
  have hlist : Takes n (listUntil .rightBrace member) _ Anything :=
    takes_listUntil nofun takes_member nofun nofun hhead
  refine ((takes_expect .leftBrace).step fun _ => hlist).congr fun ts members => ?_
  constructor
  · rintro ⟨x, _, _, rfl, hx, us, y, rfl, hy, hus⟩
    obtain ⟨entries, hus, hok⟩ := commaSeparated_mapM.1 hus
    exact ⟨entries, .body hx hus hy, hok⟩
  · rintro ⟨entries, ⟨hx, hus, hy⟩, hok⟩
    exact ⟨_, _, (), rfl, hx, _, _, rfl, hy, commaSeparated_mapM.2 ⟨entries, hus, hok⟩⟩

end Parse

/-! ## The parser -/

/-- The tokens of a chain derive no other. -/
theorem DerivesChain.unique {ts : List Located} {c d : Chain} (hc : DerivesChain ts c)
    (hd : DerivesChain ts d) : c = d := by
  have hrun : ∀ {c}, DerivesChain ts c → Parse.chain (Stream.after ⟨[], 0⟩ ts) = .ok (c, ⟨[], 0⟩) :=
    fun h => Parse.takes_chain.complete (Nat.le_refl _) h nofun
  exact (Prod.mk.inj (Except.ok.inj ((hrun hc).symm.trans (hrun hd)))).1

/-- **The parser accepts exactly the grammar.**  A chain and the end of the input
    are what the tokens derive, and a body is a derivation of which all columns can
    be interpreted; its columns and helpers are those of the entries, in order. -/
theorem accepted_iff_derives (s : Stream) :
    (∀ c s', (do
        let c ← Parse.chain
        Parse.endOfInput
        pure c : Parse Chain) s = .ok (c, s') ↔
      DerivesChain s.tokens c ∧ s' = ⟨[], s.endLine⟩) ∧
    ∀ columns helpers s', (∃ members, Parse.body s = .ok (members, s') ∧
        Parse.columnsOf members = columns ∧ Parse.helpersOf members = helpers) ↔
      ∃ ts entries, s = s'.after ts ∧ DerivesBody ts entries ∧
        (columnEntries entries).mapM (fun e => interpret e.1 e.2) = .ok columns ∧
        spreadEntries entries = helpers := by
  constructor
  · intro c s'
    constructor
    · intro h
      obtain ⟨d, s₁, hd, h⟩ := Parse.run_bind_eq_ok.1 h
      obtain ⟨_, s₂, hend, h⟩ := Parse.run_bind_eq_ok.1 h
      cases h
      obtain ⟨hnone, rfl⟩ := Parse.endOfInput_eq_ok.1 hend
      obtain ⟨ts, rfl, hts⟩ := Parse.takes_chain.sound (Nat.le_refl _) hd
      obtain ⟨tokens, e⟩ := s'
      obtain rfl : tokens = [] := hnone
      exact ⟨by simpa [Stream.after] using hts, rfl⟩
    · rintro ⟨h, rfl⟩
      have hafter : s = Stream.after ⟨[], s.endLine⟩ s.tokens :=
        congrArg (Stream.mk · s.endLine) (List.append_nil s.tokens).symm
      have hd : Parse.chain (Stream.after ⟨[], s.endLine⟩ s.tokens) = .ok (c, ⟨[], s.endLine⟩) :=
        Parse.takes_chain.complete (Nat.le_refl _) h nofun
      rw [← hafter] at hd
      exact Parse.run_bind_eq_ok.2 ⟨c, _, hd, rfl⟩
  · intro columns helpers s'
    constructor
    · rintro ⟨members, h, hmembers⟩
      obtain ⟨ts, rfl, entries, hentries, hok⟩ := Parse.takes_body.sound (Nat.le_refl _) h
      exact ⟨ts, entries, rfl, hentries, exists_members_iff.1 ⟨members, hok, hmembers⟩⟩
    · rintro ⟨ts, entries, rfl, hentries, hread⟩
      obtain ⟨members, hok, hmembers⟩ := exists_members_iff.2 hread
      exact ⟨members, Parse.takes_body.complete (Nat.le_refl _) ⟨entries, hentries, hok⟩ trivial,
        hmembers⟩

end SchemaLoom.Source

/-
  The names that tokens bind, and those that they use.

  An import statement binds the names between its braces, and the export of a
  constant binds its name.  A name is used where it is called, tags a template,
  is asked for a member, or is spread; behind a dot it is the name of a member.

  * `mentions`: the names of both sorts, in their order;
  * `Mentions.append`, `MentionsParted.intercalate`: what tokens mention in parts.
-/
import SchemaLoom.Proofs.Source.Fragment

namespace SchemaLoom.Source

/-- A name that is bound or used. -/
inductive Mention where
  | binding (name : String)
  | use (name : String)
  deriving DecidableEq

/-- The names in front of the next closing brace. -/
def listedNames (ts : List Token) : List String :=
  (ts.takeWhile (· ≠ .rightBrace)).filterMap fun
    | .identifier name => some name
    | _ => none

/-- What a name mentions in front of some tokens. -/
def mentionsAt (name : String) : List Token → List Mention
  | .leftParen :: _ | .dot :: _ | .template _ :: _ => [.use name]
  | .leftBrace :: ts => if name = "import" then (listedNames ts).map .binding else []
  | .identifier word :: .identifier bound :: .equals :: _ =>
    if name = "export" ∧ word = "const" then [.binding bound] else []
  | _ => []

/-- The names that tokens bind and use. -/
def mentions : List Token → List Mention
  | [] => []
  | .dot :: .identifier _ :: ts => mentions ts
  | .spread :: .identifier name :: ts => .use name :: mentions ts
  | .identifier name :: ts => mentionsAt name ts ++ mentions ts
  | _ :: ts => mentions ts

/-- The name, if it is bound. -/
def Mention.bound? : Mention → Option String
  | binding name => some name
  | use _ => none

/-- The name, if it is used. -/
def Mention.used? : Mention → Option String
  | binding _ => none
  | use name => some name

/-- The names that tokens bind. -/
def boundNames (ts : List Token) : List String := (mentions ts).filterMap Mention.bound?

/-- The names that tokens use. -/
def usedNames (ts : List Token) : List String := (mentions ts).filterMap Mention.used?

theorem bound?_bindings (names : List String) :
    (names.map Mention.binding).filterMap Mention.bound? = names := by
  rw [List.filterMap_map]
  exact List.filterMap_some

theorem used?_bindings (names : List String) :
    (names.map Mention.binding).filterMap Mention.used? = [] := by
  rw [List.filterMap_map]
  exact List.filterMap_none _

variable {ts us : List Token} {ms ns : List Mention}

/-! ## Parts -/

/-- The tokens mention these names, whatever follows. -/
def Mentions (ts : List Token) (ms : List Mention) : Prop :=
  ∀ us, mentions (ts ++ us) = ms ++ mentions us

/-- A name in front of these tokens is not mentioned. -/
def Parted (us : List Token) : Prop := ∀ name, mentionsAt name us = []

/-- The tokens mention these names if what follows is parted from them. -/
def MentionsParted (ts : List Token) (ms : List Mention) : Prop :=
  ∀ us, Parted us → mentions (ts ++ us) = ms ++ mentions us

theorem Mentions.nil : Mentions [] [] := fun _ => rfl

theorem Mentions.append (hs : Mentions ts ms) (hu : Mentions us ns) :
    Mentions (ts ++ us) (ms ++ ns) := fun vs => by
  rw [List.append_assoc, hs, hu, List.append_assoc]

theorem Mentions.flatMap {β : Type} {xs : List β} {ts : β → List Token} {ms : β → List Mention}
    (h : ∀ x ∈ xs, Mentions (ts x) (ms x)) : Mentions (xs.flatMap ts) (xs.flatMap ms) := by
  induction xs with
  | nil => exact .nil
  | cons x xs ih =>
    obtain ⟨hx, hxs⟩ := List.forall_mem_cons.1 h
    exact hx.append (ih hxs)

/-- Tokens that are parted from each other by commas. -/
theorem MentionsParted.intercalate {β : Type} {xs : List β} {ts : β → List Token}
    {ms : β → List Mention} (h : ∀ x ∈ xs, MentionsParted (ts x) (ms x)) :
    MentionsParted ([Token.comma].intercalate (xs.map ts)) (xs.flatMap ms) := by
  intro us hus
  induction xs with
  | nil => rfl
  | cons x xs ih =>
    obtain ⟨hx, hxs⟩ := List.forall_mem_cons.1 h
    cases xs with
    | nil => simpa using hx us hus
    | cons y ys =>
      rw [List.map_cons, List.map_cons, List.intercalate_cons_cons, ← List.map_cons,
        List.append_assoc, List.append_assoc, hx _ fun _ => rfl]
      exact congrArg (ms x ++ ·) (ih hxs) |>.trans (List.append_assoc ..).symm

/-- What all tokens mention. -/
theorem Mentions.eq (h : Mentions ts ms) : mentions ts = ms := by
  simpa [mentions] using h []

end SchemaLoom.Source

/-
  What a generated declaration needs in scope.

  An `ImportSet` is kept in one order, that of the import lines: the exports of
  the column library, the `sql` tag, then enums, helpers and tables, each by
  name.
-/
import SchemaLoom.Schema.Project

namespace SchemaLoom

/-- A name that a declaration uses. -/
inductive Import where
  /-- An export of the column library, such as `pgTable` or `varchar`. -/
  | pgCore (name : String)
  /-- The tag of templates that the database evaluates. -/
  | sql
  | enum (name : String)
  | helper (name : String)
  /-- A table, by the variable that it is bound to. -/
  | table (binding : String)
  deriving DecidableEq

namespace Import

/-- The place of a kind of import among the others. -/
def rank : Import → Nat
  | pgCore _ => 0
  | sql => 1
  | enum _ => 2
  | helper _ => 3
  | table _ => 4

/-- The name that is imported. -/
def name : Import → String
  | pgCore name | enum name | helper name | table name => name
  | sql => "sql"

/-- The order of imports: by kind, then by name. -/
def Before (a b : Import) : Prop := a.rank < b.rank ∨ a.rank = b.rank ∧ a.name < b.name

instance (a b : Import) : Decidable (Before a b) :=
  inferInstanceAs (Decidable (_ ∨ _))

theorem Before.trans {a b c : Import} (hab : a.Before b) (hbc : b.Before c) : a.Before c := by
  rcases hab with hab | ⟨hab, nab⟩ <;> rcases hbc with hbc | ⟨hbc, nbc⟩
  · exact .inl (Nat.lt_trans hab hbc)
  · exact .inl (hbc ▸ hab)
  · exact .inl (hab ▸ hbc)
  · exact .inr ⟨hab.trans hbc, String.lt_trans nab nbc⟩

/-- The kind and the name tell an import. -/
theorem eq_of_rank_name {a b : Import} (hr : a.rank = b.rank) (hn : a.name = b.name) : a = b := by
  cases a <;> cases b <;> simp_all [rank, name]

theorem before_of_not_before {a b : Import} (hne : a ≠ b) (h : ¬ a.Before b) : b.Before a := by
  unfold Before at *
  have hr : ¬ a.rank < b.rank := fun hlt => h (.inl hlt)
  rcases Nat.lt_or_eq_of_le (Nat.le_of_not_lt hr) with hlt | heq
  · exact .inl hlt
  · refine .inr ⟨heq, ?_⟩
    have hle : b.name ≤ a.name := String.not_lt.1 fun hlt => h (.inr ⟨heq.symm, hlt⟩)
    refine String.not_le.1 fun hge => hne (eq_of_rank_name heq.symm (String.le_antisymm hge hle))

end Import

/-- A set of imports, in order and without repetition. -/
structure ImportSet where
  items : List Import
  ordered : items.Pairwise Import.Before

namespace ImportSet

theorem ext {s t : ImportSet} (h : s.items = t.items) : s = t := by
  cases s; cases t; cases h; rfl

instance : DecidableEq ImportSet := fun s t =>
  decidable_of_iff (s.items = t.items) ⟨ext, fun h => h ▸ rfl⟩

/-- The empty set. -/
def empty : ImportSet := ⟨[], .nil⟩

/-- The items with `i` at its place. -/
def insertItem (i : Import) : List Import → List Import
  | [] => [i]
  | j :: rest =>
    if i = j then j :: rest
    else if i.Before j then i :: j :: rest
    else j :: insertItem i rest

theorem mem_insertItem {i x : Import} {l : List Import} :
    x ∈ insertItem i l ↔ x = i ∨ x ∈ l := by
  fun_induction insertItem i l with
  | case1 => simp
  | case2 rest => simp
  | case3 j rest => simp
  | case4 j rest _ _ ih => simp only [List.mem_cons, ih]; exact or_left_comm

theorem insertItem_ordered {i : Import} {l : List Import} (h : l.Pairwise Import.Before) :
    (insertItem i l).Pairwise Import.Before := by
  fun_induction insertItem i l with
  | case1 => simp
  | case2 => exact h
  | case3 j rest _ hb =>
    refine .cons (fun x hx => ?_) h
    rcases List.mem_cons.1 hx with rfl | hx
    · exact hb
    · exact hb.trans (List.rel_of_pairwise_cons h hx)
  | case4 j rest hne hb ih =>
    refine .cons (fun x hx => ?_) (ih h.of_cons)
    rcases mem_insertItem.1 hx with rfl | hx
    · exact Import.before_of_not_before hne hb
    · exact List.rel_of_pairwise_cons h hx

/-- Adds an import. -/
def insert (s : ImportSet) (i : Import) : ImportSet :=
  ⟨insertItem i s.items, insertItem_ordered s.ordered⟩

/-- The set of some imports. -/
def ofList (is : List Import) : ImportSet := is.foldl insert empty

/-- Adds all imports of another set. -/
def union (s t : ImportSet) : ImportSet := t.items.foldl insert s

/-- Removes an import. -/
def erase (s : ImportSet) (i : Import) : ImportSet :=
  ⟨s.items.filter (· != i), s.ordered.filter _⟩

/-- Whether an import is in the set. -/
def contains (s : ImportSet) (i : Import) : Bool := s.items.contains i

end ImportSet

end SchemaLoom

/-
  When the gate leaves a project alone.

  Nothing is done to the files of a project before it is read, the permitted
  changes are merged, and every entity that they affect is generated.  What is
  `Withheld` fails at one of these, or is not attempted at all.

  * `Plan.exists_ofChanges_iff`: when changes can be planned;
  * `materialize_of_planned`, `materialize_of_unplanned`: making changes carries
    out their plan, and without one the tree stays as it is;
  * `applyChanges_gated`: what becomes of changes, and of the tree.
-/
import SchemaLoom.Proofs.Project.Materialized

namespace SchemaLoom

variable {root : Path} {p : Policy} {changes : List Change} {t u : Tree} {r : ApplyResult}

/-- What makes changes in a tree. -/
abbrev Materializing := StateM Tree (Except MaterializeError MaterializeReport)

/-! ## Plans -/

/-- Changes can be planned exactly if they can be merged and all that they affect
    can be generated. -/
theorem Plan.exists_ofChanges_iff {s : Schema} : (∃ plan, Plan.ofChanges s changes = .ok plan) ↔
    ∃ merged, s.merge changes = .ok merged ∧
      ∀ ref ∈ (Footprint.ofChanges changes).affected, ∃ g, merged.regenerate ref = .ok g := by
  have horder := inEntityOrder_perm (Footprint.ofChanges changes).affected
  constructor
  · rintro ⟨plan, h⟩
    obtain ⟨merged, hm, -, hg, -⟩ := Plan.ofChanges_eq_ok h
    refine ⟨merged, hm, fun ref href => ?_⟩
    obtain ⟨g, -, hg⟩ := exists_of_mapM_eq_ok hg (horder.mem_iff.2 href)
    exact ⟨g, hg⟩
  · rintro ⟨merged, hm, hall⟩
    cases hg : (inEntityOrder (Footprint.ofChanges changes).affected).mapM merged.regenerate with
    | error e =>
      obtain ⟨ref, href, he⟩ := exists_of_mapM_eq_error hg
      obtain ⟨g, hok⟩ := hall ref (horder.mem_iff.1 href)
      rw [hok] at he
      cases he
    | ok entities =>
      refine ⟨_, bind_eq_ok.2 ⟨merged, mapError_eq_ok.2 hm, bind_eq_ok.2 ⟨entities, hg, rfl⟩⟩⟩

/-- The project can be read without an error, and the changes can be planned. -/
def Planned (root : Path) (changes : List Change) (t : Tree) (plan : Plan) : Prop :=
  ((readProject root : StateM Tree ReadResult) t).1.success = true ∧
    Plan.ofChanges ((readProject root : StateM Tree ReadResult) t).1.schema changes = .ok plan

/-- The changes are made as they are planned. -/
theorem materialize_of_planned {plan : Plan} (h : Planned root changes t plan) :
    (materialize root changes : Materializing) t = (plan.carryOut root : Materializing) t := by
  obtain ⟨hs, hp⟩ := h
  rw [Tree.looks_readProject] at hs hp
  rw [materialize, Tree.run_bind, Tree.looks_readProject]
  dsimp only at hs hp ⊢
  rw [if_pos hs, hp]

/-- Without a plan no changes are made, and the tree stays as it is. -/
theorem materialize_of_unplanned (h : ∀ plan, ¬ Planned root changes t plan) :
    ∃ e, (materialize root changes : Materializing) t = (.error e, t) := by
  have hread := Tree.looks_readProject root t
  rw [materialize, Tree.run_bind, Tree.looks_readProject]
  dsimp only
  by_cases hs : (t.readProject root).success = true
  · rw [if_pos hs]
    cases hp : Plan.ofChanges (t.readProject root).schema changes with
    | error e => exact ⟨e, rfl⟩
    | ok plan => exact absurd ⟨hread ▸ hs, hread ▸ hp⟩ (h plan)
  · rw [if_neg hs]
    exact ⟨_, rfl⟩

/-! ## The gate -/

/-- The changes that a policy permits. -/
def Policy.permitted (p : Policy) (changes : List Change) : List Change :=
  changes.filter fun c => p.permits c.impact

/-- Why no file is touched: nothing is to be done, or something fails that is
    needed first. -/
inductive Withheld (root : Path) (p : Policy) (changes : List Change) (t : Tree) : Prop
  | dryRun : p.dryRun = true → Withheld root p changes t
  | nothing : p.permitted changes = [] → Withheld root p changes t
  | unreadable : ((readProject root : StateM Tree ReadResult) t).1.success = false →
      Withheld root p changes t
  | unmerged {e : MergeError} :
      ((readProject root : StateM Tree ReadResult) t).1.schema.merge (p.permitted changes) =
        .error e → Withheld root p changes t
  | ungenerated {merged : Schema} {ref : EntityRef} {e : MaterializeError} :
      ((readProject root : StateM Tree ReadResult) t).1.schema.merge (p.permitted changes) =
        .ok merged →
      ref ∈ (Footprint.ofChanges (p.permitted changes)).affected →
      merged.regenerate ref = .error e → Withheld root p changes t

/-- What is attempted is withheld exactly if there is no plan for it. -/
theorem withheld_iff (hd : p.dryRun = false) (hn : p.permitted changes ≠ []) :
    Withheld root p changes t ↔ ∀ plan, ¬ Planned root (p.permitted changes) t plan := by
  constructor
  · intro h plan hp
    obtain ⟨merged, hm, hall⟩ := Plan.exists_ofChanges_iff.1 ⟨plan, hp.2⟩
    cases h with
    | dryRun h => rw [h] at hd; cases hd
    | nothing h => exact hn h
    | unreadable h => rw [hp.1] at h; cases h
    | unmerged h => rw [hm] at h; cases h
    | ungenerated h href he =>
      obtain rfl := Except.ok.inj (hm.symm.trans h)
      obtain ⟨g, hg⟩ := hall _ href
      rw [hg] at he
      cases he
  · intro h
    by_cases hs : ((readProject root : StateM Tree ReadResult) t).1.success = true
    · cases hm : ((readProject root : StateM Tree ReadResult) t).1.schema.merge
          (p.permitted changes) with
      | error e => exact .unmerged hm
      | ok merged =>
        by_contra hw
        obtain ⟨plan, hp⟩ := Plan.exists_ofChanges_iff.2 ⟨merged, hm, fun ref href => by
          cases hg : merged.regenerate ref with
          | ok g => exact ⟨g, rfl⟩
          | error e => exact absurd (.ungenerated hm href hg) hw⟩
        exact h plan ⟨hs, hp⟩
    · exact .unreadable (Bool.eq_false_iff.2 hs)

/-- The gate makes no changes where there is nothing to do. -/
theorem applyChanges_idle (h : p.dryRun = true ∨ p.permitted changes = []) :
    (applyChanges root p changes : StateM Tree ApplyResult) t = ({
      applied := p.permitted changes
      rejected := changes.filter fun c => !p.permits c.impact
      projectPath := root, dryRun := p.dryRun, materialized := none, error := none }, t) := by
  have hidle : (p.dryRun || (p.permitted changes).isEmpty) = true := by
    rw [Bool.or_eq_true, List.isEmpty_iff]
    exact h
  rw [Policy.permitted] at hidle ⊢
  rw [applyChanges, Policy.gate, Policy.partition, List.partition_eq_filter_filter]
  dsimp only
  rw [if_pos hidle]
  rfl

/-- What the gate attempts is to make the permitted changes. -/
theorem applyChanges_attempted (hd : p.dryRun = false) (hn : p.permitted changes ≠ []) :
    (applyChanges root p changes : StateM Tree ApplyResult) t =
      let made := (materialize root (p.permitted changes) : Materializing) t
      ({ applied := p.permitted changes
         rejected := changes.filter fun c => !p.permits c.impact
         projectPath := root, dryRun := false, materialized := made.1.toOption
         error := match made.1 with
          | .ok _ => none
          | .error e => some e.message }, made.2) := by
  have hbusy : (p.dryRun || (p.permitted changes).isEmpty) = false := by
    rw [Bool.or_eq_false_iff, List.isEmpty_eq_false_iff]
    exact ⟨hd, hn⟩
  rw [Policy.permitted] at hbusy ⊢
  rw [applyChanges, Policy.gate, Policy.partition, List.partition_eq_filter_filter]
  dsimp only
  rw [if_neg (by rw [hbusy]; decide), Tree.run_bind, hd, Tree.run_bind]
  cases ((materialize root (changes.filter fun c => p.permits c.impact) : Materializing) t).1 <;> rfl

/-- **The gate touches files only when everything that is needed succeeds.**  The
    changes are split by what the policy permits, in their order.  What is withheld
    leaves the tree as it is, with no files reported, and all else is made as it is
    planned.  A failure is that of an attempt, and its error is then reported. -/
theorem applyChanges_gated (h : (applyChanges root p changes : StateM Tree ApplyResult) t = (r, u)) :
    r.applied = changes.filter (fun c => p.permits c.impact) ∧
    r.rejected = changes.filter (fun c => !p.permits c.impact) ∧
    (Withheld root p changes t → u = t ∧ r.materialized = none) ∧
    (¬ Withheld root p changes t → ∃ plan, Planned root r.applied t plan ∧
      u = ((plan.carryOut root : Materializing) t).2 ∧
      r.materialized = ((plan.carryOut root : Materializing) t).1.toOption) ∧
    (r.success = false ↔ p.dryRun = false ∧ r.applied ≠ [] ∧
      ∃ e, ((materialize root r.applied : Materializing) t).1 = .error e ∧
        r.error = some e.message) := by
  by_cases hidle : p.dryRun = true ∨ p.permitted changes = []
  · rw [applyChanges_idle hidle] at h
    obtain ⟨rfl, rfl⟩ := Prod.mk.inj h
    refine ⟨rfl, rfl, fun _ => ⟨rfl, rfl⟩, fun hw => ?_, ?_⟩
    · exact absurd (hidle.elim .dryRun .nothing) hw
    · constructor
      · exact nofun
      · rintro ⟨hd, hn, -⟩
        rcases hidle with h | h
        · rw [h] at hd
          cases hd
        · exact absurd h hn
  · obtain ⟨hd, hn⟩ := not_or.1 hidle
    rw [Bool.not_eq_true] at hd
    rw [applyChanges_attempted hd hn] at h
    obtain ⟨rfl, rfl⟩ := Prod.mk.inj h
    refine ⟨rfl, rfl, fun hw => ?_, fun hw => ?_, ?_⟩
    · obtain ⟨e, he⟩ := materialize_of_unplanned ((withheld_iff hd hn).1 hw)
      rw [he]
      exact ⟨rfl, rfl⟩
    · rw [withheld_iff hd hn, not_forall] at hw
      obtain ⟨plan, hp⟩ := hw
      have hp := not_not.1 hp
      rw [materialize_of_planned hp]
      exact ⟨plan, hp, rfl, rfl⟩
    · cases hmade : ((materialize root (p.permitted changes) : Materializing) t).1 with
      | ok report =>
        constructor
        · exact nofun
        · rintro ⟨-, -, e, he, -⟩
          cases he
      | error e =>
        constructor
        · exact fun _ => ⟨hd, hn, e, rfl, rfl⟩
        · exact fun _ => rfl

/-- A table is removed, a helper too, and the only value of an enum. -/
def emptyingChanges : List Change := [
  .ofType .tableRemoved ⟨.table, "Logs", none⟩ "Table 'Logs' removed" (.table { name := "Logs" }),
  .ofType .helperRemoved ⟨.helper, "Dated", none⟩ "Helper 'Dated' removed"
    (.helper { name := "Dated", columns := [] }),
  .ofType .enumValueRemoved ⟨.enum, "Role", some "admin"⟩
    "Value 'admin' removed from enum 'Role'" (.enumValue "admin" 0)]

/-- An enum without values is not generated, so the module of the table stays. -/
theorem applyChanges_gated_emptying :
    let p : Policy := { allowBreaking := true, allowWarning := false }
    ∃ r, (applyChanges (Path.ofString "db") p emptyingChanges : StateM Tree ApplyResult)
        datedTree = (r, datedTree) ∧
      Withheld (Path.ofString "db") p emptyingChanges datedTree ∧
      r.applied.length = 2 ∧ r.rejected.length = 1 ∧ r.materialized = none ∧
      r.success = false ∧
      ∃ e, ((materialize (Path.ofString "db") r.applied : Materializing) datedTree).1 = .error e ∧
        r.error = some e.message := by
  intro p
  cases h : (applyChanges (Path.ofString "db") p emptyingChanges : StateM Tree ApplyResult)
      datedTree with
  | mk r u =>
  obtain ⟨happlied, hrejected, hwithheld, -, hfailed⟩ := applyChanges_gated h
  have hw : Withheld (Path.ofString "db") p emptyingChanges datedTree := by
    have hm : ((readProject (Path.ofString "db") : StateM Tree ReadResult)
        datedTree).1.schema.merge (p.permitted emptyingChanges) = .ok {
          outputDir := "db"
          enums := [⟨"Role", []⟩]
          helpers := [⟨"Dated", [.ofEnum "day" "date"]⟩] } := by
      decide +kernel
    have href : ⟨.enum, "Role"⟩ ∈ (Footprint.ofChanges (p.permitted emptyingChanges)).affected := by
      decide
    exact .ungenerated hm href rfl
  have hfails : r.success = false := by
    have hsuccess : ((applyChanges (Path.ofString "db") p emptyingChanges :
        StateM Tree ApplyResult) datedTree).1.success = false := by decide +kernel
    rw [h] at hsuccess
    exact hsuccess
  obtain ⟨rfl, hnone⟩ := hwithheld hw
  obtain ⟨-, -, e, he⟩ := hfailed.1 hfails
  refine ⟨r, rfl, hw, ?_, ?_, hnone, hfails, ⟨e, he⟩⟩
  · rw [happlied]
    decide
  · rw [hrejected]
    decide

end SchemaLoom

import ReportQuery.Proofs.Query.Aliases

set_option autoImplicit false
set_option relaxedAutoImplicit false

/-!
Joining does not depend on the order of the relations. Two runs over the same relations join the same
tables, and where all relations are applied each of them is applied from the same side in both runs, so
that the runs differ in the order of the joins and in the numbers of the aliases only.
-/

namespace ReportQuery.Query

open Schema (Snapshot Table Relation)
open Text (lower mem_addNew prefix_addNew)

namespace Joining

variable {snapshot : Snapshot} {state next last : Joining} {relation : Relation}
  {relations applied unused : List Relation} {joined : List String}
  {sides others : List (Relation × Bool)}

/-- The tables that are joined when relations are applied, each from the side that was joined before:
that of its first table, or the other one. -/
def newTables (sides : List (Relation × Bool)) : List String :=
  sides.map fun side => newTable side.1 side.2

theorem mem_newTables {side : Relation × Bool} (member : side ∈ sides) :
    newTable side.1 side.2 ∈ newTables sides :=
  List.mem_map_of_mem (f := fun side : Relation × Bool => newTable side.1 side.2) member

/-- Relations applied from these sides lead from the joined tables to others, one at a time. -/
inductive Grows : List String → List (Relation × Bool) → Prop
  | nil (joined : List String) : Grows joined []
  | cons {joined : List String} {relation : Relation} {fromJoined : Bool}
      {rest : List (Relation × Bool)} (old : newTable relation (!fromJoined) ∈ joined)
      (new : newTable relation fromJoined ∉ joined)
      (others : Grows (joined ++ [newTable relation fromJoined]) rest) :
      Grows joined ((relation, fromJoined) :: rest)

/-- The join for a relation that is applied from a side, where tables have these numbers. -/
def joinOf (snapshot : Snapshot) (number : String → Nat) (side : Relation × Bool) : Option Join :=
  (snapshot.table? (if side.2 then side.1.toTable else side.1.fromTable)).map fun new =>
    ⟨side.1.join, ⟨new.schema, new.name, number (newTable side.1 side.2)⟩,
      side.1.columns.map (equalityOf side.2 (number (newTable side.1 (!side.2)))
        (number (newTable side.1 side.2)))⟩

section Sides

/-- Both tables of a relation that is applied have an alias then, and those given before are kept. -/
theorem aliased_apply {fromJoined : Bool}
    (step : state.apply snapshot relation fromJoined = .ok next) :
    state.aliased <+: next.aliased ∧ newTable relation fromJoined ∈ next.aliased ∧
      newTable relation (!fromJoined) ∈ next.aliased := by
  obtain ⟨old, new, isOld, isNew, -, aliased, -⟩ := apply_eq_ok step
  rw [aliased, newTable_eq_of_new isNew, newTable_eq_of_old isOld]
  cases fromJoined with
  | true =>
    exact ⟨(prefix_addNew _ _).trans (prefix_addNew _ _), mem_addNew.mpr (.inr rfl),
      mem_addNew.mpr (.inl (mem_addNew.mpr (.inr rfl)))⟩
  | false =>
    exact ⟨(prefix_addNew _ _).trans (prefix_addNew _ _),
      mem_addNew.mpr (.inl (mem_addNew.mpr (.inr rfl))), mem_addNew.mpr (.inr rfl)⟩

/-- Only the numbers of its two tables matter for a join. -/
theorem joinOf_congr {side : Relation × Bool} {number other : String → Nat}
    (new : number (newTable side.1 side.2) = other (newTable side.1 side.2))
    (old : number (newTable side.1 (!side.2)) = other (newTable side.1 (!side.2))) :
    joinOf snapshot number side = joinOf snapshot other side := by
  rw [joinOf, joinOf, new, old]

theorem exists_joinOf_apply {fromJoined : Bool}
    (step : state.apply snapshot relation fromJoined = .ok next) :
    ∃ join, joinOf snapshot next.aliasOf (relation, fromJoined) = some join ∧
      next.joins = state.joins ++ [join] := by
  obtain ⟨old, new, isOld, isNew, -, -, joins⟩ := apply_eq_ok step
  refine ⟨_, ?_, joins⟩
  rw [joinOf, isNew, newTable_eq_of_new isNew, newTable_eq_of_old isOld]
  rfl

theorem Applies.prefix_aliased (steps : Applies snapshot state applied last) :
    state.aliased <+: last.aliased := by
  induction steps with
  | nil => exact List.prefix_rfl
  | cons _ step _ ih => exact (aliased_apply step).1.trans ih

/-- Applying relations makes a join of each, from one side of it. -/
theorem Applies.exists_sides (steps : Applies snapshot state applied last) :
    ∃ sides, sides.map Prod.fst = applied ∧ Grows state.joined sides ∧
      last.joins = state.joins ++ sides.filterMap (joinOf snapshot last.aliasOf) := by
  induction steps with
  | nil state => exact ⟨[], rfl, .nil _, by simp⟩
  | @cons state next last relation rest half step others ih =>
    obtain ⟨sides, rfl, grows, joins⟩ := ih
    obtain ⟨old, new⟩ := newTable_of_half half
    refine ⟨(relation, state.hasJoined relation.fromTable) :: sides, rfl, ?_, ?_⟩
    · exact .cons old new (joined_apply step ▸ grows)
    · obtain ⟨-, hasNew, hasOld⟩ := aliased_apply step
      obtain ⟨join, made, nextJoins⟩ := exists_joinOf_apply step
      -- later relations leave the aliases of both tables as they are
      have kept {key : String} (given : key ∈ next.aliased) : last.aliasOf key = next.aliasOf key :=
        (others.prefix_aliased.idxOf_eq_of_mem given).symm
      have here : joinOf snapshot last.aliasOf (relation, state.hasJoined relation.fromTable) =
          some join := by
        rw [← made]
        exact joinOf_congr (kept hasNew) (kept hasOld)
      rw [List.filterMap_cons_some here, joins, nextJoins, List.append_assoc, List.singleton_append]

end Sides

section Forced

/-- The tables that are joined are none that were joined before, and no two are the same. -/
theorem Grows.nodup_newTables (grows : Grows joined sides) :
    (newTables sides).Nodup ∧ ∀ key ∈ newTables sides, key ∉ joined := by
  induction grows with
  | nil => exact ⟨List.nodup_nil, by simp [newTables]⟩
  | @cons joined relation fromJoined rest old new _ ih =>
    obtain ⟨apart, fresh⟩ := ih
    refine ⟨List.nodup_cons.mpr ⟨fun again => fresh _ again (by simp), apart⟩, ?_⟩
    refine List.forall_mem_cons.mpr ⟨new, fun key member joined => ?_⟩
    exact fresh key member (List.mem_append_left _ joined)

/-- From which side a relation is applied is forced: the side that is joined first is joined by a relation
that was applied before, and in the other run by the same relation. -/
theorem Grows.subset {root : String} (grows : Grows joined sides) (reference : Grows [root] others)
    (origin : ∀ key ∈ joined, key = root ∨
      ∃ side ∈ others, newTable side.1 side.2 = key ∧ side.1 ∉ sides.map Prod.fst)
    (once : (sides.map Prod.fst).Nodup)
    (same : ∀ relation ∈ sides.map Prod.fst, relation ∈ others.map Prod.fst) : sides ⊆ others := by
  obtain ⟨apart, fresh⟩ := reference.nodup_newTables
  -- along the first run; `origin` is what it keeps: all that it has joined was joined alike in the other
  induction grows with
  | nil => simp
  | @cons joined relation fromJoined rest old new _ ih =>
    obtain ⟨otherFrom, member⟩ : ∃ otherFrom, (relation, otherFrom) ∈ others := by
      simpa using same relation List.mem_cons_self
    have agree : otherFrom = fromJoined := by
      by_contra differ
      have turned : otherFrom = !fromJoined := Bool.eq_not_of_ne differ
      rw [← turned] at old
      have joinedThere : newTable relation otherFrom ∈ newTables others :=
        @mem_newTables others (relation, otherFrom) member
      obtain root | ⟨side, among, sameTable, earlier⟩ := origin _ old
      · exact fresh _ joinedThere (List.mem_singleton.mpr root)
      · have samePlace : side = (relation, otherFrom) :=
          List.inj_on_of_nodup_map apart among member sameTable
        exact earlier (samePlace ▸ List.mem_cons_self)
    subst agree
    refine List.cons_subset.mpr ⟨member, ih ?_ (List.nodup_cons.mp once).2 ?_⟩
    · intro key early
      rcases List.mem_append.mp early with early | here
      · refine (origin key early).imp_right ?_
        rintro ⟨side, among, rfl, earlier⟩
        exact ⟨side, among, rfl, fun later => earlier (List.mem_cons_of_mem _ later)⟩
      · rw [List.mem_singleton.mp here]
        exact .inr ⟨_, member, rfl, (List.nodup_cons.mp once).1⟩
    · exact fun other among => same other (List.mem_cons_of_mem _ among)

/-- Two runs that apply the same relations apply them from the same sides. -/
theorem Grows.perm {root : String} (grows : Grows [root] sides) (reference : Grows [root] others)
    (once : (sides.map Prod.fst).Nodup) (same : (sides.map Prod.fst).Perm (others.map Prod.fst)) :
    sides.Perm others := by
  have within : sides ⊆ others :=
    grows.subset reference (fun key member => .inl (List.mem_singleton.mp member)) once
      fun relation member => same.mem_iff.mp member
  refine ((List.Nodup.of_map _ once).subperm within).perm_of_length_le ?_
  simpa using same.length_eq.ge

end Forced

section Failures

variable {pending : List Relation} {error : CompileError}

theorem eq_unknownEndpoint_of_apply {fromJoined : Bool}
    (failed : state.apply snapshot relation fromJoined = .error error) :
    ∃ id key, error = .unknownEndpoint id key := by
  have endpoint {key : String} (failed : resolveEndpoint snapshot relation key = .error error) :
      ∃ id key, error = .unknownEndpoint id key := by
    unfold resolveEndpoint at failed
    split at failed
    · cases failed
    · exact ⟨_, _, (Except.error.inj failed).symm⟩
  obtain failed | ⟨fromTable, -, failed⟩ := bind_eq_error.mp failed
  · exact endpoint failed
  · obtain failed | ⟨toTable, -, failed⟩ := bind_eq_error.mp failed
    · exact endpoint failed
    · cases failed

theorem eq_unknownEndpoint_of_pass (failed : state.pass snapshot pending = .error error) :
    ∃ id key, error = .unknownEndpoint id key := by
  induction pending generalizing state with
  | nil => cases failed
  | cons relation rest ih =>
    dsimp only [Joining.pass] at failed
    split at failed
    · obtain failed | ⟨passed, -, failed⟩ := bind_eq_error.mp failed
      · exact ih failed
      · cases failed
    · obtain failed | ⟨next, -, failed⟩ := bind_eq_error.mp failed
      · exact eq_unknownEndpoint_of_apply failed
      · exact ih failed

/-- A run can fail at a relation with a table that the snapshot does not have, and only there. -/
theorem eq_unknownEndpoint_of_run (failed : state.run snapshot pending = .error error) :
    ∃ id key, error = .unknownEndpoint id key := by
  induction length : pending.length using Nat.strongRecOn generalizing state pending with
  | ind n ih =>
    rw [Joining.run] at failed
    split at failed
    · rename_i other passed
      exact eq_unknownEndpoint_of_pass (passed.trans failed)
    · split at failed
      · rename_i fewer
        exact ih _ (length ▸ fewer) failed rfl
      · cases failed

end Failures

section Runs

variable {anchor : Table} {selected chosen : List Table} {last' : Joining}
  {relations' unused' : List Relation}

/-- Where joining has come to rest, every relation keeps to the joined tables. -/
theorem keepsTo_joined (found : ∀ table ∈ anchor :: selected, IsFound snapshot table)
    (steps : Applies snapshot (start anchor (anchor :: selected)) applied last)
    (parted : relations.Perm (applied ++ unused)) (stuck : ∀ relation ∈ unused, last.IsStuck relation) :
    ∀ relation ∈ relations, KeepsTo snapshot (· ∈ last.joined) relation := by
  have spans := (spans_start anchor (anchor :: selected)).applies steps
  obtain ⟨more, numbers, -⟩ := (numbers_start found).applies found steps
  have known {key : String} (joined : lower key ∈ last.joined) :
      ∃ table, snapshot.table? key = some table := by
    rw [numbers.joined, List.mem_map] at joined
    obtain ⟨table, member, same⟩ := joined
    exact ⟨table, table?_congr same ▸ numbers.found table member⟩
  intro relation member touched
  have both : lower relation.fromTable ∈ last.joined ∧ lower relation.toTable ∈ last.joined := by
    rcases List.mem_append.mp (parted.mem_iff.mp member) with done | left
    · exact ⟨spans.closed relation done _ (Sym2.mem_mk_left _ _),
        spans.closed relation done _ (Sym2.mem_mk_right _ _)⟩
    · have same : lower relation.fromTable ∈ last.joined ↔ lower relation.toTable ∈ last.joined := by
        rw [← hasJoined_iff, ← hasJoined_iff, stuck relation left]
      rcases touched with here | there
      · exact ⟨here, same.mp here⟩
      · exact ⟨same.mpr there, there⟩
  exact ⟨both.1, both.2, known both.1, known both.2⟩

/-- A run over the same relations in another order, from the same anchor, joins the same tables and
applies all relations as well. -/
theorem run_perm (chosen : List Table)
    (found : ∀ table ∈ anchor :: selected, IsFound snapshot table) (perm : relations.Perm relations')
    (ran : (start anchor (anchor :: selected)).run snapshot relations = .ok (last, unused)) :
    ∃ last' unused', (start anchor (anchor :: chosen)).run snapshot relations' = .ok (last', unused') ∧
      (∀ key, key ∈ last'.joined ↔ key ∈ last.joined) ∧ (unused = [] → unused' = []) := by
  obtain ⟨applied, steps, parted, stuck⟩ := applies_of_run ran
  have spans := (spans_start anchor (anchor :: selected)).applies steps
  have kept := keepsTo_joined found steps parted stuck
  have inside : ∀ key ∈ (start anchor (anchor :: chosen)).joined, key ∈ last.joined := by
    intro key member
    rw [List.mem_singleton.mp member]
    exact spans.anchor_mem
  obtain ⟨last', unused', ran'⟩ :=
    exists_run _ inside fun relation member => kept relation (perm.mem_iff.mpr member)
  obtain ⟨applied', steps', parted', stuck'⟩ := applies_of_run ran'
  have spans' := (spans_start anchor (anchor :: chosen)).applies steps'
  refine ⟨last', unused', ran', fun key => ?_, fun none => ?_⟩
  · rw [spans'.mem_joined_iff (perm.trans parted') stuck', spans.mem_joined_iff parted stuck]
  · subst none
    rw [List.append_nil] at parted
    exact spans'.unused_eq_nil parted' stuck' ((spans.isJoinTree.of_perm parted.symm).of_perm perm)

/-- Two runs that apply the same relations make the same joins, with the numbers that each gives. -/
theorem joins_perm (perm : relations.Perm relations')
    (ran : (start anchor selected).run snapshot relations = .ok (last, []))
    (ran' : (start anchor chosen).run snapshot relations' = .ok (last', [])) :
    ∃ sides : List (Relation × Bool), last.joins = sides.filterMap (joinOf snapshot last.aliasOf) ∧
      last'.joins.Perm (sides.filterMap (joinOf snapshot last'.aliasOf)) := by
  obtain ⟨applied, steps, parted, -⟩ := applies_of_run ran
  obtain ⟨applied', steps', parted', -⟩ := applies_of_run ran'
  rw [List.append_nil] at parted parted'
  have once : applied.Nodup :=
    List.Nodup.of_map _ ((spans_start anchor selected).applies steps).distinct
  obtain ⟨sides, rfl, grows, joins⟩ := steps.exists_sides
  obtain ⟨others, rfl, grows', joins'⟩ := steps'.exists_sides
  have same := grows.perm grows' once ((parted.symm.trans perm).trans parted')
  exact ⟨sides, joins, joins' ▸ (same.symm.filterMap _)⟩

end Runs

end Joining

end ReportQuery.Query

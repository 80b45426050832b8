import Mathlib.Data.List.Perm.Basic
import Mathlib.Tactic.Common
import ReportQuery.Proofs.Query.Resolution

set_option autoImplicit false
set_option relaxedAutoImplicit false

/-!
What joining does to a list of relations. A run applies some of them, one after the other and each
with exactly one joined table at its time, and leaves over the others, of which none could be
applied any more. `applies_of_run` says so of every run, `run_spec` that a run over relations with known
endpoints has a result, `passes_eq_run` that the passes of a run come to rest.
-/

namespace ReportQuery.Query

open Schema (Snapshot Table Relation RelationFault ColumnPair)
open Text (lower trim isBlankText addNew)

/-- Both tables of a relation are in the snapshot. -/
def HasEndpoints (snapshot : Snapshot) (relation : Relation) : Prop :=
  (∃ table, snapshot.table? relation.fromTable = some table) ∧
    ∃ table, snapshot.table? relation.toTable = some table

private theorem exists_table?_of_contains {snapshot : Snapshot} {key : String}
    (known : (snapshot.tables.map fun table => lower table.key).contains (lower key) = true) :
    ∃ table, snapshot.table? key = some table := by
  rw [List.contains_iff_mem, List.mem_map] at known
  obtain ⟨table, member, same⟩ := known
  have found : (snapshot.table? key).isSome := by
    rw [Snapshot.table?, List.find?_isSome]
    exact ⟨table, List.mem_reverse.mpr member, by simpa using same⟩
  exact Option.isSome_iff_exists.mp found

/-- In a valid snapshot both tables of every relation are known. -/
theorem hasEndpoints_of_valid {snapshot : Snapshot} (valid : snapshot.IsValid)
    {relation : Relation} (member : relation ∈ snapshot.relations) :
    HasEndpoints snapshot relation := by
  have faultless := List.findSome?_eq_none_iff.mp valid relation member
  unfold Relation.fault? at faultless
  split at faultless
  · cases faultless
  · rw [Option.map_eq_none_iff, List.find?_eq_none] at faultless
    refine ⟨exists_table?_of_contains ?_, exists_table?_of_contains ?_⟩
    · simpa using faultless relation.fromTable (by simp)
    · simpa using faultless relation.toTable (by simp)

namespace Joining

variable {snapshot : Snapshot} {state next last : Joining} {relation : Relation}
  {pending deferred unused applied : List Relation}

/-- The table of a relation that is joined when the relation is applied. -/
def newTable (relation : Relation) (fromJoined : Bool) : String :=
  lower (if fromJoined then relation.toTable else relation.fromTable)

/-- Applying a relation with known endpoints joins the one that was not joined. -/
theorem exists_apply (state : Joining) (known : HasEndpoints snapshot relation)
    (fromJoined : Bool) :
    ∃ next, state.apply snapshot relation fromJoined = .ok next := by
  obtain ⟨⟨fromTable, hfrom⟩, ⟨toTable, hto⟩⟩ := known
  simp only [Joining.apply, resolveEndpoint, hfrom, hto]
  exact ⟨_, rfl⟩

private theorem table?_of_resolveEndpoint {key : String} {table : Table}
    (found : resolveEndpoint snapshot relation key = .ok table) : snapshot.table? key = some table := by
  unfold resolveEndpoint at found
  split at found
  · rename_i other found?
    rw [found?, Except.ok.inj found]
  · cases found

/-- The comparison that a pair of columns asks for. The table that was joined before is on the left. -/
def equalityOf (fromJoined : Bool) (old new : Nat) (pair : ColumnPair) : Equality :=
  if fromJoined then ⟨⟨old, pair.fromColumn⟩, ⟨new, pair.toColumn⟩⟩
  else ⟨⟨old, pair.toColumn⟩, ⟨new, pair.fromColumn⟩⟩

@[simp] theorem left_equalityOf (fromJoined : Bool) (old new : Nat) (pair : ColumnPair) :
    (equalityOf fromJoined old new pair).left.number = old := by
  cases fromJoined <;> rfl

@[simp] theorem right_equalityOf (fromJoined : Bool) (old new : Nat) (pair : ColumnPair) :
    (equalityOf fromJoined old new pair).right.number = new := by
  cases fromJoined <;> rfl

/-- What applying a relation does: `old` is its table that was joined before, `new` the other. -/
theorem apply_eq_ok {fromJoined : Bool}
    (step : state.apply snapshot relation fromJoined = .ok next) :
    ∃ old new, snapshot.table? (if fromJoined then relation.fromTable else relation.toTable) =
        some old ∧
      snapshot.table? (if fromJoined then relation.toTable else relation.fromTable) = some new ∧
      next.joined = state.joined ++ [lower new.key] ∧
      next.aliased = (if fromJoined then
          addNew (addNew state.aliased (lower old.key)) (lower new.key)
        else addNew (addNew state.aliased (lower new.key)) (lower old.key)) ∧
      next.joins = state.joins ++
        [⟨relation.join, ⟨new.schema, new.name, next.aliasOf (lower new.key)⟩, relation.columns.map
          (equalityOf fromJoined (next.aliasOf (lower old.key)) (next.aliasOf (lower new.key)))⟩] := by
  obtain ⟨fromTable, hfrom, step⟩ := bind_eq_ok.mp step
  obtain ⟨toTable, hto, step⟩ := bind_eq_ok.mp step
  have hfrom := table?_of_resolveEndpoint hfrom
  have hto := table?_of_resolveEndpoint hto
  obtain rfl := Except.ok.inj step
  cases fromJoined with
  | true =>
    refine ⟨fromTable, toTable, hfrom, hto, ?_, rfl, rfl⟩
    rw [lower_key_of_table? hto]
    rfl
  | false =>
    refine ⟨toTable, fromTable, hto, hfrom, ?_, rfl, rfl⟩
    rw [lower_key_of_table? hfrom]
    rfl

theorem joined_apply {fromJoined : Bool}
    (step : state.apply snapshot relation fromJoined = .ok next) :
    next.joined = state.joined ++ [newTable relation fromJoined] := by
  obtain ⟨-, new, -, isNew, joined, -⟩ := apply_eq_ok step
  rw [joined, newTable, lower_key_of_table? isNew]

/-- The new table of a relation by its key, and the old one as the new one from the other side. -/
theorem newTable_eq_of_new {fromJoined : Bool} {new : Table}
    (isNew : snapshot.table? (if fromJoined then relation.toTable else relation.fromTable) = some new) :
    newTable relation fromJoined = lower new.key :=
  (lower_key_of_table? isNew).symm

theorem newTable_eq_of_old {fromJoined : Bool} {old : Table}
    (isOld : snapshot.table? (if fromJoined then relation.fromTable else relation.toTable) = some old) :
    newTable relation (!fromJoined) = lower old.key := by
  rw [lower_key_of_table? isOld]
  cases fromJoined <;> rfl

/-- Relations applied one after the other, each with exactly one joined table at its time. -/
inductive Applies (snapshot : Snapshot) : Joining → List Relation → Joining → Prop
  | nil (state : Joining) : Applies snapshot state [] state
  | cons {state next last : Joining} {relation : Relation} {rest : List Relation}
      (half : state.hasJoined relation.fromTable ≠ state.hasJoined relation.toTable)
      (step : state.apply snapshot relation (state.hasJoined relation.fromTable) = .ok next)
      (others : Applies snapshot next rest last) : Applies snapshot state (relation :: rest) last

theorem Applies.append {others : List Relation} (first : Applies snapshot state applied next)
    (second : Applies snapshot next others last) :
    Applies snapshot state (applied ++ others) last := by
  induction first with
  | nil => exact second
  | cons half step _ ih => exact .cons half step (ih second)

/-- A join for a relation: it compares the columns of the relation and joins a table of the snapshot. -/
def IsJoinOf (snapshot : Snapshot) (relation : Relation) (join : Join) : Prop :=
  ∃ fromJoined old new, ∃ table ∈ snapshot.tables, join =
    ⟨relation.join, ⟨table.schema, table.name, new⟩,
      relation.columns.map (equalityOf fromJoined old new)⟩

/-- Every join comes from a relation that was applied. -/
theorem Applies.exists_isJoinOf {join : Join} (steps : Applies snapshot state applied last)
    (member : join ∈ last.joins) :
    join ∈ state.joins ∨ ∃ relation ∈ applied, IsJoinOf snapshot relation join := by
  induction steps with
  | nil => exact .inl member
  | cons _ step _ ih =>
    rcases ih member with early | ⟨other, among, comes⟩
    · obtain ⟨old, new, -, isNew, -, -, joins⟩ := apply_eq_ok step
      rw [joins] at early
      rcases List.mem_append.mp early with earlier | here
      · exact .inl earlier
      · exact .inr ⟨_, List.mem_cons_self, _, _, _, new, mem_tables_of_table? isNew,
          List.mem_singleton.mp here⟩
    · exact .inr ⟨other, List.mem_cons_of_mem _ among, comes⟩

/-- A relation that cannot be applied: both of its tables are joined or none is. -/
def IsStuck (state : Joining) (relation : Relation) : Prop :=
  state.hasJoined relation.fromTable = state.hasJoined relation.toTable

/-- A pass applies some of the relations and defers the others. -/
theorem applies_of_pass (done : state.pass snapshot pending = .ok (next, deferred)) :
    ∃ applied, Applies snapshot state applied next ∧ pending.Perm (applied ++ deferred) ∧
      (applied = [] → deferred = pending ∧ ∀ relation ∈ pending, state.IsStuck relation) := by
  induction pending generalizing state deferred with
  | nil =>
    obtain ⟨rfl, rfl⟩ := Prod.mk.inj (Except.ok.inj done)
    exact ⟨[], .nil state, .nil, by simp⟩
  | cons relation rest ih =>
    dsimp only [Joining.pass] at done
    split at done
    · rename_i half
      obtain ⟨⟨last, others⟩, passed, done⟩ := bind_eq_ok.mp done
      obtain ⟨rfl, rfl⟩ := Prod.mk.inj (Except.ok.inj done)
      obtain ⟨applied, steps, split, stuck⟩ := ih passed
      refine ⟨applied, steps, (split.cons relation).trans List.perm_middle.symm, fun none => ?_⟩
      exact ⟨by rw [(stuck none).1], List.forall_mem_cons.mpr ⟨beq_iff_eq.mp half, (stuck none).2⟩⟩
    · rename_i half
      obtain ⟨mid, step, passed⟩ := bind_eq_ok.mp done
      obtain ⟨applied, steps, split, -⟩ := ih passed
      exact ⟨relation :: applied, .cons (by simpa using half) step steps, split.cons relation, by simp⟩

/-- A relation with one table among the keys has both there, and both are in the snapshot. -/
def KeepsTo (snapshot : Snapshot) (keys : String → Prop) (relation : Relation) : Prop :=
  keys (lower relation.fromTable) ∨ keys (lower relation.toTable) →
    keys (lower relation.fromTable) ∧ keys (lower relation.toTable) ∧ HasEndpoints snapshot relation

private theorem keepsTo_all (known : ∀ relation ∈ pending, HasEndpoints snapshot relation) :
    ∀ relation ∈ pending, KeepsTo snapshot (fun _ => True) relation :=
  fun relation member _ => ⟨trivial, trivial, known relation member⟩

variable {keys : String → Prop}

/-- A relation that can be applied has a table that is joined, so that it keeps to these keys. -/
private theorem keeps_of_half (inside : ∀ key ∈ state.joined, keys key)
    (kept : KeepsTo snapshot keys relation)
    (half : state.hasJoined relation.fromTable ≠ state.hasJoined relation.toTable) :
    keys (lower relation.fromTable) ∧ keys (lower relation.toTable) ∧
      HasEndpoints snapshot relation := by
  refine kept ?_
  cases fromJoined : state.hasJoined relation.fromTable with
  | true => exact .inl (inside _ (List.contains_iff_mem.mp fromJoined))
  | false =>
    refine .inr (inside _ (List.contains_iff_mem.mp ?_))
    rw [fromJoined] at half
    exact Bool.ne_false_iff.mp half.symm

/-- Relations that keep to some keys do not fail, and no table but of these keys is joined. -/
theorem exists_pass (state : Joining) (inside : ∀ key ∈ state.joined, keys key)
    (kept : ∀ relation ∈ pending, KeepsTo snapshot keys relation) :
    ∃ next deferred, state.pass snapshot pending = .ok (next, deferred) ∧
      ∀ key ∈ next.joined, keys key := by
  induction pending generalizing state with
  | nil => exact ⟨state, [], rfl, inside⟩
  | cons relation rest ih =>
    obtain ⟨here, there⟩ := List.forall_mem_cons.mp kept
    unfold Joining.pass
    by_cases half : state.hasJoined relation.fromTable = state.hasJoined relation.toTable
    · obtain ⟨next, deferred, done, within⟩ := ih state inside there
      exact ⟨next, relation :: deferred,
        by simp [half, done, bind, Except.bind, pure, Except.pure], within⟩
    · obtain ⟨fromInside, toInside, known⟩ := keeps_of_half inside here half
      obtain ⟨mid, step⟩ := exists_apply state known (state.hasJoined relation.fromTable)
      have insideMid : ∀ key ∈ mid.joined, keys key := by
        intro key member
        rw [joined_apply step] at member
        rcases List.mem_append.mp member with early | new
        · exact inside key early
        · rw [List.mem_singleton.mp new, newTable]
          split
          · exact toInside
          · exact fromInside
      obtain ⟨next, deferred, done, within⟩ := ih mid insideMid there
      exact ⟨next, deferred, by simp [half, step, done, bind, Except.bind], within⟩

/-- A run applies some of the relations, and none of those left over can be applied. -/
theorem applies_of_run (done : state.run snapshot pending = .ok (last, unused)) :
    ∃ applied, Applies snapshot state applied last ∧ pending.Perm (applied ++ unused) ∧
      ∀ relation ∈ unused, last.IsStuck relation := by
  induction length : pending.length using Nat.strongRecOn generalizing state pending with
  | ind n ih =>
    rw [Joining.run] at done
    split at done
    · cases done
    · rename_i next deferred passed
      obtain ⟨applied, steps, parted, stuck⟩ := applies_of_pass passed
      split at done
      · rename_i fewer
        obtain ⟨more, moreSteps, moreParted, rest⟩ := ih _ (length ▸ fewer) done rfl
        refine ⟨applied ++ more, steps.append moreSteps, ?_, rest⟩
        rw [List.append_assoc]
        exact parted.trans (moreParted.append_left applied)
      · rename_i progress
        obtain ⟨rfl, rfl⟩ := Prod.mk.inj (Except.ok.inj done)
        have sizes := parted.length_eq
        rw [List.length_append] at sizes
        obtain rfl : applied = [] := List.eq_nil_of_length_eq_zero (by omega)
        obtain ⟨rfl, halves⟩ := stuck rfl
        cases steps
        exact ⟨[], .nil state, parted, halves⟩

theorem exists_run (state : Joining) (inside : ∀ key ∈ state.joined, keys key)
    (kept : ∀ relation ∈ pending, KeepsTo snapshot keys relation) :
    ∃ last unused, state.run snapshot pending = .ok (last, unused) := by
  induction length : pending.length using Nat.strongRecOn generalizing state pending with
  | ind n ih =>
    obtain ⟨next, deferred, done, within⟩ := exists_pass state inside kept
    obtain ⟨applied, -, parted, -⟩ := applies_of_pass done
    unfold Joining.run
    rw [done]
    by_cases progress : deferred.length < pending.length
    · obtain ⟨last, unused, ran⟩ := ih deferred.length (length ▸ progress) next within
        (fun r member => kept r (parted.mem_iff.mpr (List.mem_append_right applied member))) rfl
      exact ⟨last, unused, by simp [progress, ran]⟩
    · exact ⟨next, deferred, by simp [progress]⟩

/-- With known endpoints a run comes to an end. -/
theorem run_spec (state : Joining)
    (known : ∀ relation ∈ pending, HasEndpoints snapshot relation) :
    ∃ last unused applied, state.run snapshot pending = .ok (last, unused) ∧
      Applies snapshot state applied last ∧ pending.Perm (applied ++ unused) ∧
      ∀ relation ∈ unused, last.IsStuck relation := by
  obtain ⟨last, unused, ran⟩ := exists_run state (fun _ _ => trivial) (keepsTo_all known)
  obtain ⟨applied, steps, parted, stuck⟩ := applies_of_run ran
  exact ⟨last, unused, applied, ran, steps, parted, stuck⟩

/-- The state and the relations left over after a number of passes. -/
def passes (snapshot : Snapshot) :
    Nat → Joining → List Relation → Except CompileError (Joining × List Relation)
  | 0, state, pending => .ok (state, pending)
  | n + 1, state, pending => do
    let (next, deferred) ← state.pass snapshot pending
    passes snapshot n next deferred

private theorem pass_of_stuck (stuck : ∀ relation ∈ pending, state.IsStuck relation) :
    state.pass snapshot pending = .ok (state, pending) := by
  induction pending with
  | nil => rfl
  | cons relation rest ih =>
    have half := stuck relation List.mem_cons_self
    have others := ih fun r member => stuck r (List.mem_cons_of_mem relation member)
    simp only [IsStuck] at half
    simp [Joining.pass, half, others, bind, Except.bind, pure, Except.pure]

private theorem passes_of_stuck (stuck : ∀ relation ∈ pending, state.IsStuck relation) (n : Nat) :
    passes snapshot n state pending = .ok (state, pending) := by
  induction n with
  | zero => rfl
  | succ n ih => simp [passes, pass_of_stuck stuck, ih, bind, Except.bind]

/-- After as many passes as there are relations nothing changes any more. -/
theorem passes_eq_run (known : ∀ relation ∈ pending, HasEndpoints snapshot relation) {n : Nat}
    (enough : pending.length ≤ n) :
    passes snapshot n state pending = state.run snapshot pending := by
  induction n generalizing state pending with
  | zero =>
    obtain rfl : pending = [] := List.eq_nil_of_length_eq_zero (by omega)
    unfold Joining.run
    rfl
  | succ n ih =>
    obtain ⟨next, deferred, done, -⟩ :=
      exists_pass state (fun _ _ => trivial) (keepsTo_all known)
    obtain ⟨applied, steps, split, stuck⟩ := applies_of_pass done
    have sizes := split.length_eq
    rw [List.length_append] at sizes
    unfold Joining.run
    simp only [passes, done, bind, Except.bind]
    split
    · rename_i progress
      exact ih (fun r member =>
        known r (split.mem_iff.mpr (List.mem_append_right applied member))) (by omega)
    · have none : applied = [] := List.eq_nil_of_length_eq_zero (by omega)
      obtain ⟨rfl, halves⟩ := stuck none
      subst none
      cases steps
      exact passes_of_stuck halves n

end Joining

section Compiled

variable {snapshot : Snapshot} {anchor : Table} {selected : List Table} {ids : List String}
  {joins : List Join}

/-- The joins of a description: all requested relations are applied, and all selected tables joined. -/
theorem compileJoins_eq_ok_iff :
    compileJoins snapshot anchor selected ids = .ok joins ↔ ∃ relations last,
      resolveRelations snapshot ids = .ok relations ∧
      (Joining.start anchor selected).run snapshot relations = .ok (last, []) ∧
      (∀ table ∈ selected, last.hasJoined table.key) ∧ last.joins = joins := by
  constructor
  · intro done
    obtain ⟨relations, resolved, done⟩ := bind_eq_ok.mp done
    obtain ⟨⟨last, unused⟩, ran, done⟩ := bind_eq_ok.mp done
    dsimp only at done
    split at done
    · cases done
    · rename_i reached
      split at done
      · cases done
      · refine ⟨relations, last, resolved, ran, ?_, Except.ok.inj done⟩
        simpa using reached
  · rintro ⟨relations, last, resolved, ran, reached, rfl⟩
    have found : (selected.find? fun table => !last.hasJoined table.key) = none := by
      simpa using reached
    simp only [compileJoins, resolved, ran, bind, Except.bind, found]
    rfl

/-- Joining has succeeded when all requested relations are applied and reach the selected tables. -/
theorem applied_of_compileJoins (done : compileJoins snapshot anchor selected ids = .ok joins) :
    ∃ applied last, applied.Perm (requestedRelations snapshot ids) ∧
      Joining.Applies snapshot (.start anchor selected) applied last ∧ last.joins = joins ∧
      ∀ table ∈ selected, last.hasJoined table.key := by
  obtain ⟨relations, last, resolved, ran, reached, joins⟩ := compileJoins_eq_ok_iff.mp done
  obtain ⟨applied, steps, parted, -⟩ := Joining.applies_of_run ran
  rw [List.append_nil, eq_requestedRelations resolved] at parted
  exact ⟨applied, last, parted.symm, steps, joins, reached⟩

/-- Every compiled join comes from a requested relation. -/
theorem isJoinOf_of_compileJoins (done : compileJoins snapshot anchor selected ids = .ok joins)
    {join : Join} (member : join ∈ joins) :
    ∃ relation ∈ snapshot.relations, Joining.IsJoinOf snapshot relation join := by
  obtain ⟨applied, last, requested, steps, rfl, -⟩ := applied_of_compileJoins done
  rcases steps.exists_isJoinOf member with start | ⟨relation, among, comes⟩
  · cases start
  · exact ⟨relation, mem_relations_of_mem_requestedRelations (requested.mem_iff.mp among), comes⟩

end Compiled

end ReportQuery.Query

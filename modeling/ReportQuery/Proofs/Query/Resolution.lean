import Mathlib.Data.List.Forall2
import ReportQuery.Proofs.Text.Order
import ReportQuery.Query.Compile

set_option autoImplicit false
set_option relaxedAutoImplicit false

/-!
How the parts of a description resolve against a snapshot.
-/

namespace ReportQuery.Query

open Schema (Snapshot Table Relation)
open Text (lower trim isBlankText distinctBy mem_of_mem_distinctBy exists_of_mem_forall₂)

theorem bind_eq_ok {α β ε : Type} {x : Except ε α} {f : α → Except ε β} {b : β} :
    x >>= f = .ok b ↔ ∃ a, x = .ok a ∧ f a = .ok b := by
  cases x <;> simp [bind, Except.bind]

theorem bind_eq_error {α β ε : Type} {x : Except ε α} {f : α → Except ε β} {error : ε} :
    x >>= f = .error error ↔ x = .error error ∨ ∃ a, x = .ok a ∧ f a = .error error := by
  cases x <;> simp [bind, Except.bind]

theorem eq_ok_of_toOption {α ε : Type} {x : Except ε α} {a : α} (found : x.toOption = some a) :
    x = .ok a := by
  cases x with
  | error e => cases found
  | ok b => rw [Option.some.inj found]

/-- Reading every element of a list succeeds when each reads as the element beside it. -/
theorem mapM_eq_ok_iff {α β ε : Type} {f : α → Except ε β} {as : List α} {bs : List β} :
    as.mapM f = .ok bs ↔ List.Forall₂ (fun a b => f a = .ok b) as bs := by
  induction as generalizing bs with
  | nil => simp [pure, Except.pure, eq_comm]
  | cons a as ih =>
    simp only [List.mapM_cons, List.forall₂_cons_left_iff, ← ih]
    rcases f a with _ | b
    · simp [bind, Except.bind]
    · rcases as.mapM f with _ | rest <;> simp [bind, Except.bind, pure, Except.pure, eq_comm]

theorem exists_of_mem_mapM {α β ε : Type} {f : α → Except ε β} {as : List α} {bs : List β} {b : β}
    (read : as.mapM f = .ok bs) (member : b ∈ bs) : ∃ a ∈ as, f a = .ok b := by
  have back : List.Forall₂ (fun b a => f a = .ok b) bs as := (mapM_eq_ok_iff.mp read).flip
  exact exists_of_mem_forall₂ back member

theorem exists_mem_of_mapM {α β ε : Type} {f : α → Except ε β} {as : List α} {bs : List β} {a : α}
    (read : as.mapM f = .ok bs) (member : a ∈ as) : ∃ b ∈ bs, f a = .ok b :=
  exists_of_mem_forall₂ (mapM_eq_ok_iff.mp read) member

/-- A list can be read exactly if each of its elements can. -/
theorem exists_mapM_eq_ok_iff {α β ε : Type} {f : α → Except ε β} {as : List α} :
    (∃ bs, as.mapM f = .ok bs) ↔ ∀ a ∈ as, ∃ b, f a = .ok b := by
  simp only [mapM_eq_ok_iff]
  induction as with
  | nil => simp
  | cons a as ih =>
    rw [List.forall_mem_cons, ← ih]
    constructor
    · rintro ⟨bs, all⟩
      obtain ⟨b, rest, here, there, rfl⟩ := List.forall₂_cons_left_iff.mp all
      exact ⟨⟨b, here⟩, rest, there⟩
    · rintro ⟨⟨b, here⟩, rest, there⟩
      exact ⟨b :: rest, .cons here there⟩

/-- Where a list cannot be read, the error is that of one of its elements. -/
theorem exists_of_mapM_eq_error {α β ε : Type} {f : α → Except ε β} {as : List α} {error : ε}
    (failed : as.mapM f = .error error) : ∃ a ∈ as, f a = .error error := by
  induction as with
  | nil => cases failed
  | cons a rest ih =>
    rw [List.mapM_cons] at failed
    obtain here | ⟨b, -, failed⟩ := bind_eq_error.mp failed
    · exact ⟨a, List.mem_cons_self, here⟩
    · obtain there | ⟨bs, -, failed⟩ := bind_eq_error.mp failed
      · obtain ⟨c, among, found⟩ := ih there
        exact ⟨c, List.mem_cons_of_mem a among, found⟩
      · cases failed

theorem mem_relations_of_relation? {snapshot : Snapshot} {id : String} {relation : Relation}
    (found : snapshot.relation? id = some relation) : relation ∈ snapshot.relations :=
  List.mem_reverse.mp (List.mem_of_find?_eq_some found)

/-- The relations that the ids ask for. Blank ids ask for none, and of ids that differ only in case
the first counts. -/
def requestedRelations (snapshot : Snapshot) (ids : List String) : List Relation :=
  distinctBy (fun relation => lower relation.id)
    ((ids.filter fun id => !isBlankText id).filterMap fun id => snapshot.relation? (trim id))

variable {snapshot : Snapshot} {ids : List String}

theorem mem_tables_of_table? {key : String} {table : Table}
    (found : snapshot.table? key = some table) : table ∈ snapshot.tables :=
  List.mem_reverse.mp (List.mem_of_find?_eq_some found)

theorem lower_key_of_table? {key : String} {table : Table}
    (found : snapshot.table? key = some table) : lower table.key = lower key := by
  simpa using List.find?_some found

/-- Only relations of the snapshot are requested. -/
theorem mem_relations_of_mem_requestedRelations {relation : Relation}
    (h : relation ∈ requestedRelations snapshot ids) : relation ∈ snapshot.relations := by
  obtain ⟨id, _, found⟩ := List.mem_filterMap.mp (mem_of_mem_distinctBy h)
  exact mem_relations_of_relation? found

theorem resolveRelations_eq
    (known : ∀ id ∈ ids, ¬ isBlankText id → (snapshot.relation? (trim id)).isSome) :
    resolveRelations snapshot ids = .ok (requestedRelations snapshot ids) := by
  have wanted : ∀ id ∈ ids.filter fun id => !isBlankText id,
      ∃ relation, snapshot.relation? (trim id) = some relation := by
    intro id member
    obtain ⟨member, nonblank⟩ := List.mem_filter.mp member
    exact Option.isSome_iff_exists.mp (known id member (by simpa using nonblank))
  unfold resolveRelations requestedRelations
  generalize ids.filter (fun id => !isBlankText id) = texts at wanted ⊢
  have all : List.Forall₂ (fun id relation => snapshot.relation? (trim id) = some relation) texts
      (texts.filterMap fun id => snapshot.relation? (trim id)) := by
    induction texts with
    | nil => exact .nil
    | cons id rest ih =>
      obtain ⟨relation, found⟩ := wanted id List.mem_cons_self
      simp only [List.filterMap_cons, found]
      exact .cons found (ih fun i member => wanted i (List.mem_cons_of_mem id member))
  rw [mapM_eq_ok_iff.mpr (all.imp fun id relation found => by rw [found])]
  rfl

/-- Reading by an optional look-up keeps what the look-up finds. -/
private theorem filterMap_of_mapM {α β ε : Type} {f : α → Except ε β} {g : α → Option β}
    {as : List α} {bs : List β} (finds : ∀ a b, f a = .ok b → g a = some b)
    (read : as.mapM f = .ok bs) : as.filterMap g = bs := by
  have all := mapM_eq_ok_iff.mp read
  clear read
  induction all with
  | nil => rfl
  | @cons a b as bs here _ ih => rw [List.filterMap_cons_some (finds a b here), ih]

/-- The tables that the keys select. Of keys that differ only in case the first counts. -/
def selectedTables (snapshot : Snapshot) (keys : List String) : List Table :=
  distinctBy (fun table => lower table.key) (keys.filterMap fun key => snapshot.table? (trim key))

theorem eq_selectedTables {keys : List String} {tables : List Table}
    (resolved : resolveTables snapshot keys = .ok tables) : tables = selectedTables snapshot keys := by
  obtain ⟨all, read, done⟩ := bind_eq_ok.mp resolved
  obtain rfl := Except.ok.inj done
  rw [selectedTables, filterMap_of_mapM ?_ read]
  intro key table found
  dsimp only at found
  split at found
  · cases found
  · split at found
    · rename_i table' found?
      rw [found?, Except.ok.inj found]
    · cases found

theorem eq_requestedRelations {relations : List Relation}
    (resolved : resolveRelations snapshot ids = .ok relations) :
    relations = requestedRelations snapshot ids := by
  obtain ⟨all, read, done⟩ := bind_eq_ok.mp resolved
  obtain rfl := Except.ok.inj done
  rw [requestedRelations, filterMap_of_mapM ?_ read]
  intro id relation found
  split at found
  · rename_i relation' found?
    rw [found?, Except.ok.inj found]
  · cases found

/-- Without fields all columns are selected. -/
theorem compileSelection_cases {tables : List Table} {fields : List Field} {selection : Selection}
    (done : compileSelection tables fields = .ok selection) :
    fields = [] ∧ selection = .everything 0 ∨
      fields ≠ [] ∧ ∃ entries, fields.mapM (compileField tables) = .ok entries ∧
        selection = .items entries := by
  unfold compileSelection at done
  split at done
  · rename_i none
    exact .inl ⟨List.isEmpty_iff.mp none, (Except.ok.inj done).symm⟩
  · rename_i some_
    cases read : fields.mapM (compileField tables) with
    | error error =>
      rw [read] at done
      cases done
    | ok entries =>
      rw [read] at done
      exact .inr ⟨fun none => some_ (List.isEmpty_iff.mpr none), entries, rfl,
        (Except.ok.inj done).symm⟩

/-- The parts of a compiled statement are those of the description, compiled one by one. -/
structure CompiledFrom (snapshot : Snapshot) (description : Description) (anchor : Table)
    (others : List Table) (compiled : Compiled) : Prop where
  tables : resolveTables snapshot description.tables = .ok (anchor :: others)
  selection : compileSelection (anchor :: others) description.fields =
    .ok compiled.statement.selection
  conditions : description.filters.mapM (compileFilter (anchor :: others)) =
    .ok compiled.statement.conditions
  order : description.sorts.mapM (compileSort (anchor :: others)) = .ok compiled.statement.order
  joins : compileJoins snapshot anchor (anchor :: others) description.relations =
    .ok compiled.statement.joins
  anchor : compiled.statement.anchor = ⟨anchor.schema, anchor.name, 0⟩
  grouping : compiled.statement.grouping = compiled.statement.selection.grouping
  parameterNames : compiled.parameterNames = parameterNames compiled.statement.conditions

theorem compiledFrom_of_compile {description : Description} {compiled : Compiled}
    (done : compile snapshot description = .ok compiled) :
    ∃ anchor others, CompiledFrom snapshot description anchor others compiled := by
  obtain ⟨tables, resolved, done⟩ := bind_eq_ok.mp done
  cases tables with
  | nil => cases done
  | cons anchor others =>
    obtain ⟨selection, fields, done⟩ := bind_eq_ok.mp done
    obtain ⟨conditions, filters, done⟩ := bind_eq_ok.mp done
    obtain ⟨order, sorts, done⟩ := bind_eq_ok.mp done
    obtain ⟨joins, joined, done⟩ := bind_eq_ok.mp done
    obtain rfl := Except.ok.inj done
    exact ⟨anchor, others, resolved, fields, filters, sorts, joined, rfl, rfl, rfl⟩

end ReportQuery.Query

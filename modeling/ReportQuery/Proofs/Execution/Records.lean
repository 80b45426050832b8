import ReportQuery.Proofs.Execution.Batches
import ReportQuery.Proofs.Query.ColumnNames
import ReportQuery.Proofs.Text.Order

set_option autoImplicit false
set_option relaxedAutoImplicit false

/-!
What the records of a result tell about the rows that were fetched. A record has one value for a name, that
of the last column of the name; so it holds every value of a row exactly if the columns of one name agree in
it, and the records determine the rows exactly if no name is used twice. A compiled statement names its
columns by the labels of the fields and else by the columns' own names, which may be the same.
-/

namespace ReportQuery.Mapping

open Text (distinct addNew nodup_distinct)

variable {α β : Type} [BEq α] [LawfulBEq α] {entries others front back : List (α × β)} {key : α}

theorem lookup_put (entries : List (α × β)) (key k : α) (value : β) :
    (put entries key value).lookup k = if k == key then some value else entries.lookup k := by
  induction entries with
  | nil => cases same : k == key <;> simp [put, List.lookup_cons, same]
  | cons entry rest ih =>
    rw [put]
    by_cases here : entry.1 == key
    · obtain rfl := eq_of_beq here
      rw [if_pos here, List.lookup_cons, List.lookup_cons]
      cases k == entry.1 <;> rfl
    · rw [if_neg here, List.lookup_cons, List.lookup_cons, ih]
      cases same : k == entry.1 with
      | false => rfl
      | true =>
        rw [eq_of_beq same, if_neg here, if_neg here]

/-- Of the entries of a key the last one counts. -/
theorem lookup_ofEntries (entries : List (α × β)) (key : α) :
    (ofEntries entries).lookup key = entries.reverse.lookup key := by
  have general : ∀ seen : List (α × β),
      (entries.foldl (fun read entry => put read entry.1 entry.2) seen).lookup key =
        (entries.reverse.lookup key).or (seen.lookup key) := by
    induction entries with
    | nil => exact fun seen => rfl
    | cons entry rest ih =>
      intro seen
      rw [List.foldl_cons, ih, lookup_put, List.reverse_cons, List.lookup_append, Option.or_assoc,
        List.lookup_cons, List.lookup_nil]
      cases key == entry.1 <;> simp
  refine (general []).trans ?_
  simp

theorem map_fst_put (entries : List (α × β)) (key : α) (value : β) :
    (put entries key value).map Prod.fst = addNew (entries.map Prod.fst) key := by
  induction entries with
  | nil => rfl
  | cons entry rest ih =>
    rw [put]
    by_cases here : entry.1 == key
    · obtain rfl := eq_of_beq here
      simp [addNew]
    · have other : (key == entry.1) = false := beq_eq_false_iff_ne.mpr fun same => here (by simp [same])
      rw [if_neg here, List.map_cons, ih, List.map_cons, addNew, addNew, List.contains_cons, other,
        Bool.false_or]
      split <;> rfl

/-- The keys stand in the order of their first appearance. -/
theorem map_fst_ofEntries (entries : List (α × β)) :
    (ofEntries entries).map Prod.fst = distinct (entries.map Prod.fst) := by
  have general : ∀ seen : List (α × β),
      (entries.foldl (fun read entry => put read entry.1 entry.2) seen).map Prod.fst =
        (entries.map Prod.fst).foldl addNew (seen.map Prod.fst) := by
    induction entries with
    | nil => exact fun seen => rfl
    | cons entry rest ih =>
      intro seen
      rw [List.foldl_cons, ih, map_fst_put, List.map_cons, List.foldl_cons]
  exact general []

theorem lookup_eq_none (fresh : key ∉ entries.map Prod.fst) : entries.lookup key = none := by
  refine List.lookup_eq_none_iff.mpr fun entry member => bne_iff_ne.mpr ?_
  rintro rfl
  exact fresh (List.mem_map_of_mem member)

/-- Mappings with the same keys in the same order are told apart by their look-ups. -/
theorem eq_of_lookup (sameKeys : entries.map Prod.fst = others.map Prod.fst)
    (apart : (entries.map Prod.fst).Nodup) (same : ∀ key, entries.lookup key = others.lookup key) :
    entries = others := by
  induction entries generalizing others with
  | nil => exact (List.map_eq_nil_iff.mp sameKeys.symm).symm
  | cons entry rest ih =>
    obtain ⟨key, value⟩ := entry
    cases others with
    | nil => cases sameKeys
    | cons other others =>
      obtain ⟨key', value'⟩ := other
      obtain ⟨rfl, tail⟩ := List.cons.inj sameKeys
      obtain ⟨fresh, later⟩ := List.nodup_cons.mp apart
      have here := same key
      rw [List.lookup_cons_self, List.lookup_cons_self] at here
      obtain rfl := Option.some.inj here
      refine congrArg _ (ih tail later fun k => ?_)
      by_cases first : k = key
      · rw [first, lookup_eq_none fresh, lookup_eq_none (tail ▸ fresh)]
      · have there := same k
        have other : (k == key) = false := beq_eq_false_iff_ne.mpr first
        rwa [List.lookup_cons, List.lookup_cons, other] at there

/-- An entry behind which its key is set again leaves no trace. -/
theorem ofEntries_overwritten (again : key ∈ back.map Prod.fst) (value other : β) :
    ofEntries (front ++ (key, value) :: back) = ofEntries (front ++ (key, other) :: back) := by
  have keys : (front ++ (key, value) :: back).map Prod.fst =
      (front ++ (key, other) :: back).map Prod.fst := by simp
  have passed (value : β) (k : α) : (front ++ (key, value) :: back).reverse.lookup k =
      (back.reverse.lookup k).or (front.reverse.lookup k) := by
    rw [List.reverse_append, List.reverse_cons, List.append_assoc, List.singleton_append,
      List.lookup_append]
    by_cases here : k = key
    · obtain ⟨entry, member, rfl⟩ := List.mem_map.mp again
      have found : (back.reverse.lookup k).isSome := by
        rw [← Option.ne_none_iff_isSome]
        intro none
        have differ := List.lookup_eq_none_iff.mp none entry (List.mem_reverse.mpr member)
        simp [here] at differ
      obtain ⟨last, found⟩ := Option.isSome_iff_exists.mp found
      rw [found, Option.some_or, Option.some_or]
    · have other : (k == key) = false := beq_eq_false_iff_ne.mpr here
      rw [List.lookup_cons, other]
  refine eq_of_lookup ?_ ?_ fun k => ?_
  · rw [map_fst_ofEntries, map_fst_ofEntries, keys]
  · rw [map_fst_ofEntries]
    exact nodup_distinct _
  · rw [lookup_ofEntries, lookup_ofEntries, passed, passed]

end ReportQuery.Mapping

namespace ReportQuery.Execution

open Query (Description Compiled NamedBy compile fieldName? columns_of_compile nodup_of_forall₂)

/-- The record has the value at every place of the row under the name of the column at that place. -/
def KeepsAll (columns : List String) (row : Row) (record : Record) : Prop :=
  ∀ (i : Nat) (name : String), columns[i]? = some name → record.lookup name = row[i]?

/-- Columns of one name have the same value in the row. -/
def AgreesOnNames (columns : List String) (row : Row) : Prop :=
  ∀ (i j : Nat) (name : String), columns[i]? = some name → columns[j]? = some name → row[i]? = row[j]?

/-- The rows of the result are the records of these rows. -/
structure Result.Holds (result : Result) (fetched : List Row) : Prop where
  wide : ∀ row ∈ fetched, row.length = result.columns.length
  rows : result.rows = fetched.map (recordOf result.columns)

variable {columns : List String} {row other : Row} {name : String} {result : Result}

section Values

/-- A name in a list has a last place. -/
theorem exists_last_of_mem (member : name ∈ columns) :
    ∃ front back, columns = front ++ name :: back ∧ name ∉ back := by
  obtain ⟨back, front, whole, fresh⟩ := List.eq_append_cons_of_mem (List.mem_reverse.mpr member)
  refine ⟨front.reverse, back.reverse, ?_, by simpa using fresh⟩
  rw [← List.reverse_reverse columns, whole]
  simp

/-- A row is cut where the columns are cut. -/
theorem exists_cut_row {front back : List String}
    (wide : row.length = (front ++ name :: back).length) :
    ∃ before value behind, row = before ++ value :: behind ∧ front.length = before.length ∧
      back.length = behind.length := by
  have inside : front.length < row.length := by
    rw [wide, List.length_append, List.length_cons]
    omega
  refine ⟨row.take front.length, row[front.length], row.drop (front.length + 1), ?_, ?_, ?_⟩
  · rw [← List.drop_eq_getElem_cons inside, List.take_append_drop]
  · rw [List.length_take]
    omega
  · rw [List.length_drop, wide, List.length_append, List.length_cons]
    omega

/-- Of the values under a name the record has the last. -/
theorem lookup_recordOf {front back : List String} (fresh : name ∉ back)
    (wide : row.length = (front ++ name :: back).length) :
    (recordOf (front ++ name :: back) row).lookup name = row[front.length]? := by
  obtain ⟨before, value, behind, rfl, size, rest⟩ := exists_cut_row wide
  have later : (back.zip behind).reverse.lookup name = none := by
    refine Mapping.lookup_eq_none fun member => fresh ?_
    obtain ⟨⟨_, _⟩, among, rfl⟩ := List.mem_map.mp member
    exact (List.of_mem_zip (List.mem_reverse.mp among)).1
  rw [recordOf, Mapping.lookup_ofEntries, List.zip_append size, List.zip_cons_cons,
    List.reverse_append, List.reverse_cons, List.append_assoc, List.lookup_append, later,
    Option.none_or, List.singleton_append, List.lookup_cons_self, size]
  simp

theorem keepsAll_iff (wide : row.length = columns.length) :
    KeepsAll columns row (recordOf columns row) ↔ AgreesOnNames columns row := by
  constructor
  · intro keeps i j name here there
    rw [← keeps i name here, keeps j name there]
  · intro agrees i name here
    obtain ⟨front, back, rfl, fresh⟩ := exists_last_of_mem (List.mem_of_getElem? here)
    rw [lookup_recordOf fresh wide]
    exact agrees front.length i name (by simp) here

/-- Under names that are all different every row agrees. -/
theorem agreesOnNames_of_nodup (apart : columns.Nodup) (row : Row) : AgreesOnNames columns row := by
  intro i j name here there
  obtain ⟨inside, -⟩ := List.getElem?_eq_some_iff.mp here
  rw [(List.getElem?_inj inside apart).mp (here.trans there.symm)]

theorem eq_of_recordOf_eq (apart : columns.Nodup) (wide : row.length = columns.length)
    (wide' : other.length = columns.length) (same : recordOf columns row = recordOf columns other) :
    row = other := by
  have keeps := (keepsAll_iff wide).mpr (agreesOnNames_of_nodup apart row)
  have keeps' := (keepsAll_iff wide').mpr (agreesOnNames_of_nodup apart other)
  refine List.ext_getElem? fun i => ?_
  rcases Nat.lt_or_ge i columns.length with inside | outside
  · have here : columns[i]? = some columns[i] := List.getElem?_eq_getElem inside
    rw [← keeps i _ here, ← keeps' i _ here, same]
  · rw [List.getElem?_eq_none (by omega), List.getElem?_eq_none (by omega)]

/-- Under a name that is used twice the value of the first column is lost: another row has the same
record. -/
theorem exists_same_record (twice : ¬ columns.Nodup) (wide : row.length = columns.length) :
    ∃ other : Row, other ≠ row ∧ other.length = columns.length ∧
      recordOf columns other = recordOf columns row := by
  obtain ⟨front, name, back, rfl, again⟩ : ∃ front name back, columns = front ++ name :: back ∧
      name ∈ back := by
    clear wide
    induction columns with
    | nil => exact absurd List.nodup_nil twice
    | cons name rest ih =>
      by_cases again : name ∈ rest
      · exact ⟨[], name, rest, rfl, again⟩
      · obtain ⟨front, other, back, rfl, later⟩ := ih fun apart => twice (apart.cons again)
        exact ⟨name :: front, other, back, rfl, later⟩
  obtain ⟨before, value, behind, rfl, size, rest⟩ := exists_cut_row wide
  obtain ⟨different, differ⟩ : ∃ different : Json, different ≠ value := by
    cases value with
    | null => exact ⟨.bool true, by simp⟩
    | _ => exact ⟨.null, by simp⟩
  refine ⟨before ++ different :: behind, by simpa using differ, by simp [size, rest], ?_⟩
  have keys : name ∈ (back.zip behind).map Prod.fst := by
    rw [List.map_fst_zip rest.le]
    exact again
  rw [recordOf, recordOf, List.zip_append size, List.zip_append size, List.zip_cons_cons,
    List.zip_cons_cons]
  exact Mapping.ofEntries_overwritten keys different value

end Values

section Results

variable {options : Options} {script : Script} {request : Request} {size : RowCount}
  {signal? : Option Signal} {sent : Sent}

/-- What is read of some rows are the records of the first of them. -/
theorem exists_records (columns : List String) (rows : List Row) :
    ∃ fetched, fetched <+: rows ∧ (∀ row ∈ fetched, row.length = columns.length) ∧
      (records columns rows).1 = fetched.map (recordOf columns) := by
  induction rows with
  | nil => exact ⟨[], List.nil_prefix, List.forall_mem_nil _, rfl⟩
  | cons row rows ih =>
    rw [records]
    cases first : record? columns row with
    | error fault => exact ⟨[], List.nil_prefix, List.forall_mem_nil _, rfl⟩
    | ok record =>
      obtain ⟨fetched, before, wide, read⟩ := ih
      unfold record? at first
      split at first
      · cases first
      · split at first
        · cases first
        · obtain rfl := Except.ok.inj first
          have here : row.length = columns.length := by omega
          refine ⟨row :: fetched, (List.prefix_cons_inj row).mpr before,
            List.forall_mem_cons.mpr ⟨here, wide⟩, ?_⟩
          rw [List.map_cons, ← read]
          rfl

/-- Wherever the loop of fetches ends, it has handed out the records of the first rows. -/
theorem exists_fetched (batches : Nat) (pending : List Row) :
    ∃ fetched, fetched <+: pending ∧ (∀ row ∈ fetched, row.length = script.columns.length) ∧
      (fetchRows script size batches signal? pending).rows = fetched.map (recordOf script.columns) := by
  fun_induction fetchRows script size batches signal? pending with
  | case1 | case2 | case3 => exact ⟨[], List.nil_prefix, List.forall_mem_nil _, rfl⟩
  | case4 batches signal? pending next check works batch event nonempty rows fault broken =>
    obtain ⟨fetched, before, wide, read⟩ := exists_records script.columns batch
    rw [broken] at read
    exact ⟨fetched, before.trans (List.take_prefix _ _), wide, read⟩
  | case5 batches signal? pending next check works batch event nonempty rows read rest ih =>
    obtain ⟨fetched, ⟨left, whole⟩, wide, handed⟩ := ih
    have here : ∀ row ∈ batch, row.length = script.columns.length := wide_of_records read
    rw [records_of_wide here] at read
    obtain ⟨rfl, -⟩ := Prod.mk.inj read
    refine ⟨batch ++ fetched, ⟨left, ?_⟩, fun row member => ?_, ?_⟩
    · rw [List.append_assoc, whole]
      exact List.take_append_drop _ _
    · exact (List.mem_append.mp member).elim (here row) (wide row)
    · change _ ++ rest.rows = _
      rw [handed, List.map_append]

/-- What a phase of a statement has read belongs to the columns that are known then. -/
theorem exists_fetched_executePhase :
    ∃ fetched, fetched <+: script.rows ∧
      (∀ row ∈ fetched, row.length = (executePhase script size sent signal?).1.length) ∧
      (executePhase script size sent signal?).2.rows =
        fetched.map (recordOf (executePhase script size sent signal?).1) := by
  unfold executePhase
  split
  · exact ⟨[], List.nil_prefix, List.forall_mem_nil _, rfl⟩
  · dsimp only
    split
    · exact ⟨[], List.nil_prefix, List.forall_mem_nil _, rfl⟩
    · exact exists_fetched 0 script.rows

theorem eq_of_finish {phase : Phase} {rollback : List Event}
    (returned : (finish columns phase rollback).2 = .ok result) :
    result.columns = columns ∧ result.rows = phase.rows := by
  unfold finish at returned
  split at returned
  · obtain rfl := Except.ok.inj returned
    exact ⟨rfl, rfl⟩
  · cases returned
  · dsimp only at returned
    split at returned
    · cases returned
    · obtain rfl := Except.ok.inj returned
      exact ⟨rfl, rfl⟩

/-- A result holds the records of rows that were handed out from the first on, whether it has an error
or not. -/
theorem exists_holds (returned : (run options script request).outcome = .ok result) :
    ∃ fetched, fetched <+: script.rows ∧ result.Holds fetched := by
  unfold run at returned
  split at returned
  · cases returned
  · rename_i sent prepared
    unfold runSent at returned
    split at returned
    · cases returned
    · dsimp only at returned
      split at returned
      · obtain ⟨columns, rows⟩ := eq_of_finish returned
        exact ⟨[], List.nil_prefix, List.forall_mem_nil _, rows⟩
      · obtain ⟨columns, rows⟩ := eq_of_finish returned
        obtain ⟨fetched, before, wide, read⟩ := exists_fetched_executePhase
        exact ⟨fetched, before, columns ▸ wide, by rw [rows, columns, read]⟩

/-- Columns and rows of a result with rows determine what was fetched exactly if no name is used twice. -/
theorem Result.Holds.determined_iff {fetched : List Row} (holds : result.Holds fetched)
    (nonempty : fetched ≠ []) :
    (∀ others, result.Holds others → others = fetched) ↔ result.columns.Nodup := by
  constructor
  · intro only
    by_contra twice
    obtain ⟨row, rest, rfl⟩ := List.exists_cons_of_ne_nil nonempty
    obtain ⟨here, later⟩ := List.forall_mem_cons.mp holds.wide
    obtain ⟨other, differs, wide, same⟩ := exists_same_record twice here
    have also : result.Holds (other :: rest) := by
      refine ⟨List.forall_mem_cons.mpr ⟨wide, later⟩, ?_⟩
      rw [holds.rows, List.map_cons, List.map_cons, same]
    exact differs (List.cons.inj (only _ also)).1
  · intro apart others also
    have same := also.rows.symm.trans holds.rows
    have wide := also.wide
    have wide' := holds.wide
    clear also holds nonempty
    induction others generalizing fetched with
    | nil => exact (List.map_eq_nil_iff.mp same.symm).symm
    | cons other others ih =>
      cases fetched with
      | nil => cases same
      | cons row fetched =>
        obtain ⟨head, tail⟩ := List.cons.inj same
        obtain ⟨first, others⟩ := List.forall_mem_cons.mp wide
        obtain ⟨first', others'⟩ := List.forall_mem_cons.mp wide'
        rw [eq_of_recordOf_eq apart first first' head, ih tail others others']

end Results

/-- A result holds the records of the rows that were fetched, which are all rows if it has no error. A record
has under every name the value of the last column of the name; it has all values of its row exactly if
columns of one name have the same value there. So columns and rows of a result with rows determine what was
fetched exactly if no two columns have one name. Where the cursor names its columns as the select list of a
compiled statement does, this needs that the fields of the description ask for different names, since the
compiler gives no names of its own; where every field asks for a name, that is enough. -/
theorem records_keep_last_values (options : Options) (script : Script) (request : Request)
    (result : Result) (returned : (run options script request).outcome = .ok result) :
    ∃ fetched, fetched <+: script.rows ∧ result.Holds fetched ∧
      (result.error? = none → fetched = script.rows ∧ result.columns = script.columns) ∧
      (∀ row ∈ fetched,
        (∀ front name back, result.columns = front ++ name :: back → name ∉ back →
          (recordOf result.columns row).lookup name = row[front.length]?) ∧
        (KeepsAll result.columns row (recordOf result.columns row) ↔
          AgreesOnNames result.columns row)) ∧
      (fetched ≠ [] → ((∀ others, result.Holds others → others = fetched) ↔ result.columns.Nodup)) ∧
      ∀ snapshot description compiled entries, compile snapshot description = .ok compiled →
        request.sql = compiled.sql → compiled.statement.selection = .items entries →
        NamedBy entries result.columns →
        (result.columns.Nodup → (description.fields.filterMap (fieldName? snapshot)).Nodup) ∧
          ((∀ field ∈ description.fields, (fieldName? snapshot field).isSome) →
            (description.fields.filterMap (fieldName? snapshot)).Nodup → result.columns.Nodup) := by
  obtain ⟨fetched, before, holds, complete⟩ : ∃ fetched,
      fetched <+: script.rows ∧ result.Holds fetched ∧
        (result.error? = none → fetched = script.rows ∧ result.columns = script.columns) := by
    cases failed : result.error? with
    | some message =>
      obtain ⟨fetched, before, holds⟩ := exists_holds returned
      exact ⟨fetched, before, holds, fun none => (by cases none)⟩
    | none =>
      obtain ⟨wide, rfl⟩ := eq_of_succeeded returned failed
      exact ⟨script.rows, List.prefix_rfl, ⟨wide, rfl⟩, fun _ => ⟨rfl, rfl⟩⟩
  refine ⟨fetched, before, holds, complete, fun row member => ⟨?_, ?_⟩, holds.determined_iff, ?_⟩
  · intro front name back whole fresh
    have wide := holds.wide row member
    rw [whole] at wide ⊢
    exact lookup_recordOf fresh wide
  · exact keepsAll_iff (holds.wide row member)
  · intro snapshot description compiled entries done _ selects named
    obtain ⟨needs, enough⟩ := nodup_of_forall₂ (columns_of_compile done selects named)
    refine ⟨needs, fun all apart => ?_⟩
    rw [enough all]
    exact apart

/-- Orders and their lines, with a key of the same name. -/
def keysSnapshot : Schema.Snapshot where
  tables := [⟨"shop.Line", "shop", "Line", "", [⟨"Id", "", false⟩]⟩,
    ⟨"shop.Order", "shop", "Order", "", [⟨"Id", "", false⟩]⟩]
  relations := [⟨"line->order", "shop.Line", "shop.Order", .inner, [⟨"OrderId", "Id"⟩]⟩]

/-- The keys of the orders and of their lines, the second under this alias. -/
def keysDescription (alias? : Option String) : Description where
  tables := ["shop.Order", "shop.Line"]
  fields := [⟨"shop.Order", "Id", none, none⟩, ⟨"shop.Line", "Id", alias?, none⟩]
  relations := ["line->order"]

/-- The select list of these keys. -/
def keysItems (label? : Option String) : List Query.SelectItem :=
  [⟨⟨0, "Id"⟩, none, none⟩, ⟨⟨1, "Id"⟩, none, label?⟩]

/-- The statement for these keys. -/
def keysCompiled (label? : Option String) : Compiled where
  statement := ⟨false, .items (keysItems label?), ⟨"shop", "Order", 0⟩,
    [⟨.inner, ⟨"shop", "Line", 1⟩, [⟨⟨0, "Id"⟩, ⟨1, "OrderId"⟩⟩]⟩], [], [], []⟩
  parameterNames := []

/-- One order with one line, the key of the line in a column of this name. -/
def keysScript (second : String) : Script where
  columns := ["Id", second]
  rows := [[.integer 1, .integer 2]]

def keysRequest (label? : Option String) : Request where
  sql := (keysCompiled label?).sql

/-- The description of the keys compiles, with the alias and without. -/
theorem compile_keys : ∀ label? ∈ [none, some "LineId"],
    compile keysSnapshot (keysDescription label?) = .ok (keysCompiled label?) := by
  decide +kernel

/-- The statement for the keys has no binds, with the alias and without. -/
theorem exists_sent_keys : ∀ label? ∈ [none, some "LineId"],
    ∃ text, (keysRequest label?).sent .standard = .ok ⟨text, []⟩ := by
  have unbound (label? : Option String) (unread : Sql.bindNames (Sql.prepare (Sql.applyRowLimit .standard
      .full (Query.textOf (keysCompiled label?).statement.tokens))).text = []) :
      ∃ text, (keysRequest label?).sent .standard = .ok ⟨text, []⟩ :=
    exists_sent_of_unbound rfl (by rwa [keysRequest, Compiled.sql, Query.Statement.toList_render])
  simp only [List.forall_mem_cons]
  set_option maxRecDepth 1000 in
  exact ⟨unbound none (by cbv), unbound (some "LineId") (by cbv), List.forall_mem_nil _⟩

/-- Under different names both keys are kept, and the result determines them. -/
theorem labelled_keys_determined :
    compile keysSnapshot (keysDescription (some "LineId")) = .ok (keysCompiled (some "LineId")) ∧
    ∃ result, (run .standard (keysScript "LineId") (keysRequest (some "LineId"))).outcome = .ok result ∧
      result.rows = [[("Id", .integer 1), ("LineId", .integer 2)]] ∧ result.columns.Nodup ∧
      ∀ others, result.Holds others → others = [[.integer 1, .integer 2]] := by
  have done := compile_keys (some "LineId") (by decide)
  obtain ⟨text, sent⟩ := exists_sent_keys (some "LineId") (by decide)
  have through : RunsThrough .standard (keysScript "LineId") (keysRequest (some "LineId")) ⟨text, []⟩ :=
    runsThrough_of_calm sent (by decide) rfl rfl rfl rfl rfl
  have returned := through.returns.1
  refine ⟨done, _, returned, rfl, by decide, ?_⟩
  obtain ⟨fetched, -, -, complete, -, determined, named⟩ :=
    records_keep_last_values .standard (keysScript "LineId") (keysRequest (some "LineId")) _ returned
  obtain ⟨rfl, -⟩ := complete rfl
  have names : NamedBy (keysItems (some "LineId")) ["Id", "LineId"] :=
    .cons (by decide) (.cons (by decide) .nil)
  exact (determined (by decide)).mpr ((named _ _ _ _ done rfl rfl names).2 (by decide) (by decide))

/-- Two keys without an alias both come as `Id`, and the record has the second of them alone. -/
theorem equal_keys_displaced :
    compile keysSnapshot (keysDescription none) = .ok (keysCompiled none) ∧
    NamedBy (keysItems none) ["Id", "Id"] ∧
    (run .standard (keysScript "Id") (keysRequest none)).outcome =
      .ok ⟨["Id", "Id"], [[("Id", .integer 2)]], 1, none⟩ ∧
    ¬ KeepsAll ["Id", "Id"] [.integer 1, .integer 2] [("Id", .integer 2)] := by
  obtain ⟨text, sent⟩ := exists_sent_keys none (by decide)
  have through : RunsThrough .standard (keysScript "Id") (keysRequest none) ⟨text, []⟩ :=
    runsThrough_of_calm sent (by decide) rfl rfl rfl rfl rfl
  refine ⟨compile_keys none (by decide), .cons (by decide) (.cons (by decide) .nil), through.returns.1,
    fun keeps => ?_⟩
  cases keeps 0 "Id" rfl

end ReportQuery.Execution

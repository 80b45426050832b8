set_option autoImplicit false
set_option relaxedAutoImplicit false

/-!
Mappings as lists of entries, in the order in which their keys first appeared.
-/

namespace ReportQuery.Mapping

variable {α β : Type} [BEq α]

/-- Sets an entry: a new key goes to the end, a known key keeps its place and takes the value. -/
def put (entries : List (α × β)) (key : α) (value : β) : List (α × β) :=
  match entries with
  | [] => [(key, value)]
  | (k, v) :: rest => if k == key then (key, value) :: rest else (k, v) :: put rest key value

/-- A new key goes to the end. -/
theorem put_of_not_mem [LawfulBEq α] {entries : List (α × β)} {key : α} (value : β)
    (fresh : key ∉ entries.map Prod.fst) : put entries key value = entries ++ [(key, value)] := by
  induction entries with
  | nil => rfl
  | cons entry rest ih =>
    obtain ⟨different, fresh⟩ := not_or.mp (fresh ∘ List.mem_cons.mpr)
    rw [put, if_neg fun same => different (eq_of_beq same).symm, ih fresh, List.cons_append]

/-- The mapping that lets every entry set its key in turn. -/
def ofEntries (entries : List (α × β)) : List (α × β) :=
  entries.foldl (fun read (key, value) => put read key value) []

/-- Entries of different keys are kept as they are. -/
theorem ofEntries_eq_self [LawfulBEq α] {entries : List (α × β)}
    (different : (entries.map Prod.fst).Nodup) : ofEntries entries = entries := by
  suffices general : ∀ read : List (α × β), ((read ++ entries).map Prod.fst).Nodup →
      entries.foldl (fun read entry => put read entry.1 entry.2) read = read ++ entries from
    general [] different
  clear different
  induction entries with
  | nil => simp
  | cons entry entries ih =>
    intro read different
    have fresh : entry.1 ∉ read.map Prod.fst := by
      rw [List.map_append, List.map_cons] at different
      intro known
      exact (List.nodup_append.mp different).2.2 _ known _ List.mem_cons_self rfl
    rw [List.append_cons] at different ⊢
    rw [List.foldl_cons, put_of_not_mem entry.2 fresh, ih _ different]

end ReportQuery.Mapping

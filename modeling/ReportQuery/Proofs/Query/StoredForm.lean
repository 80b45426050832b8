import ReportQuery.Proofs.Query.NormalForm
import ReportQuery.Proofs.Shape.Written
import ReportQuery.Query.Stored

set_option autoImplicit false
set_option relaxedAutoImplicit false

/-!
Stored descriptions. The text of a description reads as the description, so that storing it brings
it into normal form and does nothing else.
-/

namespace ReportQuery.Query

open Json (Storable storable_record storable_texts storable_array_map storable_ofText?)
open Shape (list_map list_texts map_eq_valid seq_eq_valid optional_of_written)
open Text (isBlankText)

section Records

theorem Field.ofJson_toJson (field : Field) : ofJson field.toJson = .valid field := by
  obtain ⟨tableKey, columnName, alias?, aggregate?⟩ := field
  cases alias? <;> cases aggregate? <;> rfl

theorem Filter.ofJson_toJson (filter : Filter) : ofJson filter.toJson = .valid filter := rfl

theorem SortKey.ofJson_toJson (sort : SortKey) : ofJson sort.toJson = .valid sort := rfl

/-- A written description passes its check, which finds the description again. -/
theorem Description.ofJson_toJson (description : Description) :
    ofJson description.toJson = .valid description := by
  obtain ⟨tables, fields, relations, filters, sorts, useDistinct⟩ := description
  refine seq_eq_valid (seq_eq_valid (seq_eq_valid (seq_eq_valid (seq_eq_valid
    (map_eq_valid ?tables) ?fields) ?relations) ?filters) ?sorts) ?useDistinct
  case tables => exact optional_of_written rfl (list_texts tables)
  case fields => exact optional_of_written rfl (list_map Field.ofJson_toJson fields)
  case relations => exact optional_of_written rfl (list_texts relations)
  case filters => exact optional_of_written rfl (list_map Filter.ofJson_toJson filters)
  case sorts => exact optional_of_written rfl (list_map SortKey.ofJson_toJson sorts)
  case useDistinct => exact optional_of_written rfl rfl

theorem Field.storable_toJson (field : Field) : Storable 1 field.toJson :=
  storable_record (by simp) ⟨.text _, .text _, storable_ofText? _, storable_ofText? _⟩

theorem Filter.storable_toJson (filter : Filter) : Storable 1 filter.toJson :=
  storable_record (by simp) ⟨.text _, .text _, .text _, .text _⟩

theorem SortKey.storable_toJson (sort : SortKey) : Storable 1 sort.toJson :=
  storable_record (by simp) ⟨.text _, .text _, .text _⟩

theorem Description.storable_toJson (description : Description) :
    Storable 3 description.toJson :=
  storable_record (by simp) ⟨storable_texts _, storable_array_map Field.storable_toJson _,
    storable_texts _, storable_array_map Filter.storable_toJson _,
    storable_array_map SortKey.storable_toJson _, .bool _⟩

end Records

section Texts

theorem read_serialize (description : Description) :
    Json.read .strict description.serialize.toList = .ok description.toJson := by
  have allows : Json.Rules.strict.AllowsDepth 3 := by
    rintro limit (limited | limited)
    · obtain rfl := Option.some.inj limited
      decide
    · cases limited
  rw [Description.serialize, Json.write, String.toList_ofList]
  exact Json.read_compact description.storable_toJson allows

/-- The text of a description begins with a brace. -/
theorem isBlankText_serialize (description : Description) :
    isBlankText description.serialize = false := by
  have brace : '\x7b' ∈ description.serialize.toList := by
    rw [Description.serialize, Json.write, String.toList_ofList, Description.toJson, Json.compact]
    exact List.mem_cons_self
  refine Bool.eq_false_iff.mpr fun blank => ?_
  exact absurd (List.all_eq_true.mp blank _ brace) (by decide)

/-- A stored description comes back in normal form. -/
theorem deserialize_serialize (description : Description) :
    Description.deserialize (some description.serialize) = .ok description.normalize := by
  rw [Description.deserialize, isBlankText_serialize, if_neg Bool.false_ne_true, read_serialize]
  dsimp only
  rw [Description.ofJson_toJson]

/-- What is read from a stored text is in normal form. -/
theorem exists_normalize_of_deserialize {stored? : Option String} {description : Description}
    (read : Description.deserialize stored? = .ok description) :
    ∃ written : Description, written.normalize = description := by
  unfold Description.deserialize at read
  split at read
  · exact ⟨{}, Except.ok.inj read⟩
  · split at read
    · exact ⟨{}, Except.ok.inj read⟩
    · split at read
      · cases read
      · split at read
        · rename_i written _
          exact ⟨written, Except.ok.inj read⟩
        · cases read

/-- A description of any texts is read from its stored text as it is: the text is that of its JSON
value, and this passes the check. Only then it is brought into normal form. -/
theorem serialize_readsBack (description : Description) :
    Json.read .strict description.serialize.toList = .ok description.toJson ∧
      Description.ofJson description.toJson = .valid description ∧
      Description.deserialize (some description.serialize) = .ok description.normalize :=
  ⟨read_serialize description, description.ofJson_toJson, deserialize_serialize description⟩

end Texts

section Compiling

/-- A description that compiles does so in normal form and after it was stored, to the same
statement with the same parameter names. -/
theorem compile_stored {snapshot : Schema.Snapshot} {description : Description}
    {compiled : Compiled} (done : compile snapshot description = .ok compiled) :
    compile snapshot description.normalize = .ok compiled ∧
      ∃ stored, Description.deserialize (some description.serialize) = .ok stored ∧
        compile snapshot stored = .ok compiled :=
  ⟨compile_normalize done, description.normalize, deserialize_serialize description,
    compile_normalize done⟩

/-- Orders with a note, and their lines. -/
def notedSnapshot : Schema.Snapshot where
  tables := [⟨"shop.Order", "shop", "Order", "",
      [⟨"Id", "integer", false⟩, ⟨"a \"note\"", "text", true⟩]⟩,
    ⟨"shop.Line", "shop", "Line", "", [⟨"OrderId", "integer", false⟩]⟩]
  relations := [⟨"line->order", "shop.Line", "shop.Order", .inner, [⟨"OrderId", "Id"⟩]⟩]

/-- Lines by their order's note, with every text out of normal form. -/
def notedDescription : Description where
  tables := [" shop.ORDER", "shop.Line\t"]
  fields := [⟨"shop.order ", " a \"note\" ", some "the note", none⟩,
    ⟨"shop.line", "orderid", some " lines ", some " count\n"⟩]
  relations := ["", " LINE->order ", "  "]
  filters := [⟨" shop.order", "A \"NOTE\"", "not \u2003 ilike", " @note "⟩,
    ⟨"shop.line", "OrderId", "  ", "id"⟩]
  sorts := [⟨"shop.order", "id ", ""⟩, ⟨"shop.line ", "OrderId", " desc"⟩]

theorem noted_stored :
    ∃ compiled stored, compile notedSnapshot notedDescription = .ok compiled ∧
      Description.deserialize (some notedDescription.serialize) = .ok stored ∧
      stored ≠ notedDescription ∧ compile notedSnapshot stored = .ok compiled := by
  have compiles : (compile notedSnapshot notedDescription).toOption.isSome := by decide +kernel
  obtain ⟨compiled, found⟩ := Option.isSome_iff_exists.mp compiles
  have done := eq_ok_of_toOption found
  obtain ⟨-, stored, read, again⟩ := compile_stored done
  have normal : notedDescription.normalize = stored :=
    Except.ok.inj ((deserialize_serialize notedDescription).symm.trans read)
  have fewer : notedDescription.normalize.relations.length = 1 := by decide
  have changed : notedDescription.normalize ≠ notedDescription := by
    intro same
    rw [same] at fewer
    exact absurd fewer (by decide)
  exact ⟨compiled, stored, done, read, normal ▸ changed, again⟩

end Compiling

section Rereading

/-- What is read from a stored text and stored again comes back the same but for parameter names and
empty directions, and so does every description that is brought into normal form once more. Where
no direction is empty it comes back the same exactly if no parameter name begins with an at sign or
a blank. -/
theorem reread_settlesTo :
    (∀ stored? description, Description.deserialize stored? = .ok description →
      ∃ again, Description.deserialize (some description.serialize) = .ok again ∧
        description.SettlesTo again ∧
        ((∀ sort ∈ description.sorts, sort.direction ≠ "") →
          (again = description ↔
            ∀ filter ∈ description.filters, IsSettledName filter.parameterName))) ∧
      ∀ description : Description,
        description.normalize.SettlesTo description.normalize.normalize := by
  refine ⟨fun stored? description read => ?_, Description.settlesTo_normalize⟩
  obtain ⟨written, rfl⟩ := exists_normalize_of_deserialize read
  have settles := written.settlesTo_normalize
  exact ⟨_, deserialize_serialize _, settles, settles.eq_iff⟩

/-- A stored filter whose parameter is marked by two at signs. -/
def twiceMarkedText : String :=
  "\x7b\"tables\": [\" t \"], \"filters\": [\x7b\"tableKey\": \"t\", \"columnName\": \"c\", " ++
    "\"operator\": \"not  like\", \"parameterName\": \"@@x\"\x7d], " ++
    "\"sorts\": [\x7b\"tableKey\": \"t\", \"columnName\": \" c\", \"direction\": \"desc\"\x7d]\x7d"

/-- What is read from the text: one at sign is left. -/
def onceMarked : Description where
  tables := ["t"]
  filters := [⟨"t", "c", "NOT LIKE", "@x"⟩]
  sorts := [⟨"t", "c", "DESC"⟩]

private theorem deserialize_twiceMarkedText :
    Description.deserialize (some twiceMarkedText) = .ok onceMarked :=
  eq_ok_of_toOption (by decide +kernel)

theorem twiceMarked_settlesTo :
    ∃ description again, Description.deserialize (some twiceMarkedText) = .ok description ∧
      Description.deserialize (some description.serialize) = .ok again ∧
      description.SettlesTo again ∧ again ≠ description := by
  obtain ⟨again, read, settles, same⟩ :=
    reread_settlesTo.1 (some twiceMarkedText) onceMarked deserialize_twiceMarkedText
  have directed : ∀ sort ∈ onceMarked.sorts, sort.direction ≠ "" := by decide
  refine ⟨onceMarked, again, deserialize_twiceMarkedText, read, settles, fun stays => ?_⟩
  have settled := (same directed).mp stays ⟨"t", "c", "NOT LIKE", "@x"⟩ List.mem_cons_self
  exact (settled '@' rfl).1 rfl

/-- A stored sort whose direction is a blank. -/
def blankDirectionText : String :=
  "\x7b\"sorts\": [\x7b\"tableKey\": \"t\", \"columnName\": \"c\", \"direction\": \" \"\x7d]\x7d"

/-- What is read from the texts is not the same when it is stored and read again: the second at sign
is lost, and the direction that was left empty becomes ascending. -/
theorem reread_not_stable :
    (∃ description again, Description.deserialize (some twiceMarkedText) = .ok description ∧
      Description.deserialize (some description.serialize) = .ok again ∧
      description.filters.map Filter.parameterName = ["@x"] ∧
      again.filters.map Filter.parameterName = ["x"]) ∧
    ∃ description again, Description.deserialize (some blankDirectionText) = .ok description ∧
      Description.deserialize (some description.serialize) = .ok again ∧
      description.sorts.map SortKey.direction = [""] ∧
      again.sorts.map SortKey.direction = ["ASC"] := by
  have blank : Description.deserialize (some blankDirectionText) =
      .ok { sorts := [⟨"t", "c", ""⟩] } :=
    eq_ok_of_toOption (by decide +kernel)
  exact ⟨⟨_, _, deserialize_twiceMarkedText, deserialize_serialize _, by decide, by decide⟩,
    ⟨_, _, blank, deserialize_serialize _, by decide, by decide⟩⟩

end Rereading

end ReportQuery.Query

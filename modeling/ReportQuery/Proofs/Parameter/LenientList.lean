import ReportQuery.Proofs.Json.Limits
import ReportQuery.Proofs.Parameter.StoredList

set_option autoImplicit false
set_option relaxedAutoImplicit false

/-!
Stored parameter lists are read leniently. A text of any kind gives a list, unless the reader of values
meets a limit in it; and a list is read entry by entry, so that an entry which is no definition does not
affect the others.
-/

namespace ReportQuery.Parameter

open Json (IsArrayText IsItem MeetsLimit StartsLongInteger read_arrayText_iff singleArray)
open Text (isBlank isBlankText)

variable {room : Nat} {text : String} {items : List (List Char)} {values : List Json}

section Limits

theorem isBlank_of_startsLongInteger {digits cs : List Char} {c : Char}
    (starts : StartsLongInteger digits (c :: cs)) : isBlank c = false := by
  obtain ⟨sign, rest, signed, split, long⟩ := starts
  simp only [List.mem_cons, List.not_mem_nil, or_false] at signed
  rcases signed with rfl | rfl
  · have first := long.long
    obtain _ | ⟨d, digits⟩ := digits
    · cases first
    · obtain ⟨rfl, rfl⟩ := List.cons.inj split
      have none : ∀ n ∈ Text.blankCodes, Text.isAsciiDigit (Char.ofNat n) = false := by decide
      refine Bool.eq_false_iff.mpr fun blank => ?_
      have apart := none _ (Text.toNat_mem_blankCodes blank)
      rw [Char.ofNat_toNat, long.digital c List.mem_cons_self] at apart
      cases apart
  · obtain ⟨rfl, rfl⟩ := List.cons.inj split
    rfl

/-- No limit is met in a blank text. -/
theorem not_meetsLimit_of_isBlankText (blank : isBlankText text) : ¬ MeetsLimit room text.toList := by
  rintro ⟨front, lexeme, rest, left, split, -, begins⟩
  obtain ⟨suffix, c, cs, start, -⟩ := Json.suffix_of_lexemes split
  have here : isBlank c := by
    refine List.all_eq_true.mp blank c (suffix.subset ?_)
    rw [start]
    exact List.mem_cons_self
  rw [start] at begins
  rcases begins with ⟨digits, starts⟩ | ⟨-, cs, same | same⟩
  · rw [isBlank_of_startsLongInteger starts] at here
    cases here
  · rw [(List.cons.inj same).1] at here
    exact absurd here (by decide)
  · rw [(List.cons.inj same).1] at here
    exact absurd here (by decide)

/-- A list is read from every text in which no limit is met. -/
theorem deserializeWithin_eq_ok_iff :
    (∃ definitions, deserializeWithin room (some text) = .ok definitions) ↔
      ¬ MeetsLimit room text.toList := by
  cases blank : isBlankText text with
  | true =>
    rw [deserializeWithin, if_pos blank]
    exact iff_of_true ⟨[], rfl⟩ (not_meetsLimit_of_isBlankText blank)
  | false =>
    rw [← Json.read_limit_iff_meetsLimit, deserializeWithin, blank, if_neg Bool.false_ne_true]
    cases read : Json.read (.lenientWithin room) text.toList with
    | ok value => cases value <;> simp
    | error failure => cases limit : failure.fault.isLimit <;> simp [limit]

end Limits

section Entries

/-- The definitions of a list are those of its entries. -/
theorem deserializeWithin_array (array : IsArrayText items text.toList)
    (read : Json.read (.lenientWithin room) text.toList = .ok (.array values)) :
    deserializeWithin room (some text) = .ok (values.filterMap Definition.ofStored?) := by
  obtain ⟨before, body, after, split, -⟩ := array
  have bracket : '[' ∈ text.toList := by simp [split]
  rw [deserializeWithin, isBlankText_of_bracket bracket, if_neg Bool.false_ne_true, read]

theorem deserializeWithin_singleArray {item : List Char} {value : Json} (isItem : IsItem room item value) :
    deserializeWithin room (some (String.ofList (singleArray item))) =
      .ok (Definition.ofStored? value).toList := by
  have one : [value].filterMap Definition.ofStored? = (Definition.ofStored? value).toList := by
    rw [List.filterMap_eq_flatMap_toList, List.flatMap_singleton]
  have array : IsArrayText [item] (String.ofList (singleArray item)).toList := by
    rw [String.toList_ofList]
    exact Json.isArrayText_singleArray item
  rw [← one]
  refine deserializeWithin_array array ?_
  rw [String.toList_ofList]
  exact isItem

/-- The entries in lists of their own. -/
theorem mapM_deserializeWithin (isItems : List.Forall₂ (IsItem room) items values) :
    (items.mapM fun item => deserializeWithin room (some (String.ofList (singleArray item)))) =
      .ok (values.map fun value => (Definition.ofStored? value).toList) := by
  induction isItems with
  | nil => rfl
  | cons here _ ih =>
    rw [List.mapM_cons, deserializeWithin_singleArray here, ih]
    rfl

/-- The text is that of an array with the given texts for items, each of which is read as one value. -/
def IsArrayOf (room : Nat) (items : List (List Char)) (text : String) : Prop :=
  IsArrayText items text.toList ∧ ∀ item ∈ items, ∃ value, IsItem room item value

theorem exists_values_iff :
    (∃ values, List.Forall₂ (IsItem room) items values) ↔ ∀ item ∈ items, ∃ value, IsItem room item value := by
  constructor
  · rintro ⟨values, isItems⟩
    induction isItems with
    | nil => exact List.forall_mem_nil _
    | cons here _ ih => exact List.forall_mem_cons.mpr ⟨⟨_, here⟩, ih⟩
  · intro each
    induction items with
    | nil => exact ⟨[], .nil⟩
    | cons item items ih =>
      obtain ⟨⟨value, here⟩, there⟩ := List.forall_mem_cons.mp each
      obtain ⟨values, isItems⟩ := ih there
      exact ⟨value :: values, .cons here isItems⟩

/-- Stored lists are read leniently: every text gives a list unless the reader meets a limit in it, an
array of any texts that are values is read as one, and its definitions are those of the lists with only
one of its items each, one after the other. -/
theorem deserializeWithin_lenient (room : Nat) (text : String) :
    ((∃ definitions, deserializeWithin (room + 1) (some text) = .ok definitions) ↔
        ¬ MeetsLimit (room + 1) text.toList) ∧
      ((∃ values, Json.read (.lenientWithin (room + 1)) text.toList = .ok (.array values)) ↔
        ∃ items, IsArrayOf (room + 1) items text) ∧
      ∀ items, IsArrayOf (room + 1) items text →
        deserializeWithin (room + 1) (some text) =
          (items.mapM fun item =>
            deserializeWithin (room + 1) (some (String.ofList (singleArray item)))).map List.flatten := by
  refine ⟨deserializeWithin_eq_ok_iff, ?_, ?_⟩
  · constructor
    · rintro ⟨values, read⟩
      obtain ⟨items, array, isItems⟩ := read_arrayText_iff.mp read
      exact ⟨items, array, exists_values_iff.mp ⟨values, isItems⟩⟩
    · rintro ⟨items, array, each⟩
      obtain ⟨values, isItems⟩ := exists_values_iff.mpr each
      exact ⟨values, read_arrayText_iff.mpr ⟨items, array, isItems⟩⟩
  · rintro items ⟨array, each⟩
    obtain ⟨values, isItems⟩ := exists_values_iff.mpr each
    rw [mapM_deserializeWithin isItems,
      deserializeWithin_array array (read_arrayText_iff.mpr ⟨items, array, isItems⟩)]
    show _ = Except.ok _
    rw [List.filterMap_eq_flatMap_toList, List.flatMap_def]

/-- Entries of which only the last is a definition. -/
def mixedEntries : List Json :=
  [.object [("type", .text "int")], .text "status", .object [("name", .text "   ")],
    .object [("name", .text "ok")]]

theorem mixedEntries_lenient :
    IsArrayOf usualRoom (mixedEntries.map (Json.compact .unicode))
        (Json.write .unicode (.array mixedEntries)) ∧
      deserializeWithin usualRoom (some (Json.write .unicode (.array mixedEntries))) =
        .ok [⟨"ok", "string", none⟩] := by
  have storable : ∀ entry ∈ mixedEntries, Json.Storable 1 entry := by
    simp only [mixedEntries, List.forall_mem_cons]
    have field (key value : String) : Json.Storable 1 (.object [(key, .text value)]) :=
      .object (List.nodup_singleton _) (by simpa using .text value)
    exact ⟨field _ _, .text _, field _ _, field _ _, List.forall_mem_nil _⟩
  have isItems := Json.forall₂_isItem_compact storable (show 2 ≤ usualRoom by decide)
  have array : IsArrayOf usualRoom (mixedEntries.map (Json.compact .unicode))
      (Json.write .unicode (.array mixedEntries)) := by
    refine ⟨?_, exists_values_iff.mp ⟨_, isItems⟩⟩
    rw [Json.write, String.toList_ofList]
    exact Json.isArrayText_compact mixedEntries
  obtain ⟨-, -, each⟩ := deserializeWithin_lenient 989 (Json.write .unicode (.array mixedEntries))
  refine ⟨array, (each _ array).trans ?_⟩
  have listed := mapM_deserializeWithin isItems
  have single : (989 + 1 : Nat) = usualRoom := rfl
  rw [single, listed]
  rfl

theorem startsLongInteger_ones {n : Nat} (long : Json.maxIntegerDigits < n) :
    StartsLongInteger (List.replicate n '1') (List.replicate n '1' ++ [']']) := by
  refine ⟨[], [']'], by simp, rfl, ?_⟩
  exact {
    long := by rwa [List.length_replicate]
    digital := fun d among => List.eq_of_mem_replicate among ▸ rfl
    leading := by cases n <;> simp [List.replicate_succ]
    ends := rfl
    fraction := rfl
    exponent := rfl }

/-- A list of an entry with a name and a number of so many digits. -/
def namedAndOnes (digits : Nat) : String :=
  String.ofList ('[' :: (Json.compact .unicode (.object [("name", .text "a")]) ++
    ',' :: (List.replicate digits '1' ++ [']'])))

/-- The tokens of the list end with the fault of the number. -/
theorem exists_tokensOf_namedAndOnes {n : Nat} (long : Json.maxIntegerDigits < n) (room : Nat) :
    ∃ place inText, Json.tokensOf room (namedAndOnes n).toList =
      [.openArray, .openObject, .text (some "name"), .colon, .text (some "a"), .closeObject, .comma,
        .fault (.tooManyDigits n) place inText] := by
  have entry (cs : List Char) : Json.compact .unicode (.object [("name", .text "a")]) ++ cs =
      '\x7b' :: (Json.writeText .unicode "name" ++
        ':' :: (Json.writeText .unicode "a" ++ '\x7d' :: cs)) := by
    simp [Json.compact, Json.compactField, Json.compactFields]
  have ones : ∃ place inText, Json.tokensOf room (List.replicate n '1' ++ [']']) =
      [.fault (.tooManyDigits n) place inText] := by
    have starts := startsLongInteger_ones long
    have length : (List.replicate n '1').length = n := List.length_replicate
    obtain _ | n := n
    · cases long
    rw [List.replicate_succ] at starts length ⊢
    have limit : (Json.readToken (.lenientWithin room) '1' (List.replicate n '1' ++ [']'])).1.limit? =
        some (.tooManyDigits (n + 1)) := Json.limit?_readToken_iff.mpr ⟨_, starts, by rw [length]⟩
    obtain ⟨-, place, inText, faulty⟩ := Json.limit?_eq_some_iff.mp limit
    have none := Json.sound?_eq_none_iff.mpr ⟨_, place, inText, faulty⟩
    rw [List.cons_append, Json.tokensOf, Json.lexemes_faulty rfl none, List.map_singleton, faulty]
    exact ⟨place, inText, rfl⟩
  obtain ⟨place, inText, ones⟩ := ones
  refine ⟨place, inText, ?_⟩
  rw [namedAndOnes, String.toList_ofList, Json.tokensOf_mark '[' rfl, entry, Json.tokensOf_mark '\x7b' rfl,
    Json.tokensOf_text, Json.tokensOf_mark ':' rfl, Json.tokensOf_text, Json.tokensOf_mark '\x7d' rfl,
    Json.tokensOf_mark ',' rfl, ones]

/-- A number with too many digits is reported, whatever other entries there are. -/
theorem deserialize_namedAndOnes {n : Nat} (long : Json.maxIntegerDigits < n) :
    deserialize (some (namedAndOnes n)) = .error (Json.Fault.tooManyDigits n).message := by
  obtain ⟨place, inText, tokens⟩ := exists_tokensOf_namedAndOnes long usualRoom
  have bracket : '[' ∈ (namedAndOnes n).toList := by simp [namedAndOnes]
  have stopped := Json.mapError_read usualRoom (namedAndOnes n).toList
  rw [tokens] at stopped
  have fault : (Json.read (.lenientWithin usualRoom) (namedAndOnes n).toList).mapError Json.Failure.fault =
      .error (.tooManyDigits n) := stopped
  rw [deserialize, deserializeWithin, isBlankText_of_bracket bracket, if_neg Bool.false_ne_true]
  cases read : Json.read (.lenientWithin usualRoom) (namedAndOnes n).toList with
  | ok value => simp [read, Except.mapError] at fault
  | error failure =>
    rw [read] at fault
    have same : failure.fault = .tooManyDigits n := Except.error.inj fault
    simp [same, Json.Fault.isLimit, Except.mapError]

/-- One digit more than is converted. -/
theorem longNumber_raises :
    deserialize (some (namedAndOnes 4301)) = .error (Json.Fault.tooManyDigits 4301).message :=
  deserialize_namedAndOnes (by decide)

end Entries

end ReportQuery.Parameter

import ReportQuery.Proofs.Json.RoundTrip
import ReportQuery.Proofs.Text.Scan

set_option autoImplicit false
set_option relaxedAutoImplicit false

/-!
The grammar of the tokens that are read leniently with limited room. What the grammar derives is read
as a value, and the reader fails at a limit of its own exactly where the tokens before leave a place for
a value and a value begins there that is beyond the limit.
-/

namespace ReportQuery.Json

open Text (intercalate_cons_flatMap)

/-- The tokens of a field: its key, if that is a string, and the tokens of its value. -/
def fieldTokens (field : Option String × List Token) : List Token :=
  .text field.1 :: .colon :: field.2

/-- Tokens with commas between them. -/
def withCommas (parts : List (List Token)) : List Token :=
  [Token.comma].intercalate parts

theorem withCommas_singleton (part : List Token) : withCommas [part] = part :=
  List.intercalate_singleton

/-- The tokens of a value in which no more containers are nested than there is room for. -/
inductive IsValue : Nat → List Token → Prop
  | scalar {room : Nat} (value : Json) : IsValue room [.scalar value]
  | text {room : Nat} (s : Option String) : IsValue room [.text s]
  | array {room : Nat} {parts : List (List Token)} : (∀ part ∈ parts, IsValue room part) →
    IsValue (room + 1) (.openArray :: (withCommas parts ++ [.closeArray]))
  | object {room : Nat} {fields : List (Option String × List Token)} :
    (∀ field ∈ fields, IsValue room field.2) →
    IsValue (room + 1) (.openObject :: (withCommas (fields.map fieldTokens) ++ [.closeObject]))

/-- The tokens in front of a place for a value, with the room that there is before them and at the
place: containers are open, and before the place stand whole values. -/
inductive Opens : Nat → Nat → List Token → Prop
  | here (room : Nat) : Opens room room []
  | array {room left : Nat} {parts : List (List Token)} {front : List Token} :
    (∀ part ∈ parts, IsValue room part) → Opens room left front →
    Opens (room + 1) left (.openArray :: withCommas (parts ++ [front]))
  | object {room left : Nat} {fields : List (Option String × List Token)} {key? : Option String}
    {front : List Token} : (∀ field ∈ fields, IsValue room field.2) → Opens room left front →
    Opens (room + 1) left (.openObject :: withCommas ((fields ++ [(key?, front)]).map fieldTokens))

/-- The token of a value for which there is no room, or that is beyond another limit. -/
def IsBeyond (left : Nat) (token : Token) : Prop :=
  left = 0 ∧ (token = .openArray ∨ token = .openObject) ∨
    ∃ fault place inText, token = .fault fault place inText ∧ fault.isLimit

/-- Reads tokens leniently, without regard to the places of faults. -/
def readTokens (room : Nat) (expects : Expectation) (stack : List Frame) :
    List Token → Except Fault Json
  | [] => .error (endFault expects stack)
  | token :: rest =>
    match advance (.lenientWithin room) stack token expects with
    | .go expects stack => readTokens room expects stack rest
    | .done value => if rest.isEmpty then .ok value else .error .trailingCharacters
    | .stop fault _ => .error fault

variable {room left : Nat} {expects : Expectation} {stack : List Frame} {token : Token}
  {front part rest : List Token} {parts : List (List Token)}
  {fields : List (Option String × List Token)}

section Tokens

theorem mapError_readLexemes (room : Nat) (expects : Expectation) (stack : List Frame)
    (these : List Lexeme) :
    (readLexemes (.lenientWithin room) expects stack these).mapError Failure.fault =
      readTokens room expects stack (these.map Lexeme.token) := by
  induction these generalizing expects stack with
  | nil => rfl
  | cons lexeme these ih =>
    rw [readLexemes, List.map_cons, readTokens]
    cases advance (.lenientWithin room) stack lexeme.token expects with
    | go expects stack => exact ih expects stack
    | done value => cases these <;> rfl
    | stop fault place? => rfl

theorem readTokens_go {next : Expectation} {inside : List Frame}
    (goes : advance (.lenientWithin room) stack token expects = .go next inside) :
    readTokens room expects stack (token :: rest) = readTokens room next inside rest := by
  rw [readTokens, goes]

/-- A token that ends a value is read like one that holds the value. -/
theorem readTokens_closing {outer : List Frame} {value : Json}
    (closes : advance (.lenientWithin room) stack token expects = deliver value outer) :
    readTokens room expects stack (token :: rest) =
      readTokens room .item outer (.scalar value :: rest) := by
  have whole : advance (.lenientWithin room) outer (.scalar value) .item = deliver value outer := rfl
  rw [readTokens, readTokens, closes, whole]

/-- Where any value may begin it is read in the same way. -/
theorem readTokens_begin (begins : expects ∈ [.value, .item, .itemOrEnd])
    (opens : token ≠ .closeArray) :
    readTokens room expects stack (token :: rest) =
      readTokens room .item stack (token :: rest) := by
  rw [readTokens, readTokens, advance_begin begins rfl opens, advance_begin (by simp) rfl opens]

theorem readTokens_openArray (spare : stack.length < room) :
    readTokens room .item stack (.openArray :: rest) =
      readTokens room .itemOrEnd (.array [] :: stack) rest :=
  readTokens_go (beginValue_openArray (decide_eq_false (Nat.not_le.mpr spare)))

theorem readTokens_openObject (spare : stack.length < room) :
    readTokens room .item stack (.openObject :: rest) =
      readTokens room .keyOrEnd (.object [] none :: stack) rest :=
  readTokens_go (beginValue_openObject (decide_eq_false (Nat.not_le.mpr spare)))

end Tokens

section Whole

/-- The value that the tokens are read as. -/
def valueOf (room : Nat) (part : List Token) : Json :=
  (readTokens room .item [] part).toOption.getD .null

/-- The tokens are read like one token that holds their value, where more containers may be nested by
the given number. -/
structure IsWhole (room left : Nat) (part : List Token) : Prop where
  opens : ∃ token rest, part = token :: rest ∧ token ≠ .closeArray
  read : ∀ stack rest, stack.length + left ≤ room →
    readTokens room .item stack (part ++ rest) =
      readTokens room .item stack (.scalar (valueOf room part) :: rest)

/-- Tokens that are read alike on every stack are read as their value. -/
theorem isWhole_of_read (value : Json) (fits : left ≤ room)
    (opens : ∃ token rest, part = token :: rest ∧ token ≠ .closeArray)
    (read : ∀ stack rest, stack.length + left ≤ room →
      readTokens room .item stack (part ++ rest) = readTokens room .item stack (.scalar value :: rest)) :
    IsWhole room left part ∧ valueOf room part = value := by
  have alone : readTokens room .item [] (part ++ []) = .ok value :=
    read [] [] (by rwa [List.length_nil, Nat.zero_add])
  have same : valueOf room part = value := by
    rw [valueOf, ← List.append_nil part, alone]
    rfl
  exact ⟨⟨opens, by rwa [same]⟩, same⟩

theorem IsWhole.begins (whole : IsWhole room left part) (begins : expects ∈ [.value, .item, .itemOrEnd])
    (fits : stack.length + left ≤ room) :
    readTokens room expects stack (part ++ rest) =
      readTokens room .item stack (.scalar (valueOf room part) :: rest) := by
  rw [← whole.read stack rest fits]
  obtain ⟨token, others, rfl, opens⟩ := whole.opens
  exact readTokens_begin begins opens

/-- Items with a comma before each are read behind those that were read. -/
theorem readTokens_items (each : ∀ part ∈ parts, IsWhole room left part)
    (fits : stack.length + 1 + left ≤ room) (read : List Json) :
    readTokens room .commaOrEnd (.array read :: stack)
        ((parts.flatMap fun part => [Token.comma] ++ part) ++ rest) =
      readTokens room .commaOrEnd (.array ((parts.map (valueOf room)).reverse ++ read) :: stack)
        rest := by
  induction parts generalizing read with
  | nil => rfl
  | cons part parts ih =>
    obtain ⟨here, there⟩ := List.forall_mem_cons.mp each
    have comma (rest : List Token) : readTokens room .commaOrEnd (.array read :: stack) (.comma :: rest) =
        readTokens room .item (.array read :: stack) rest := rfl
    have placed (value : Json) (rest : List Token) :
        readTokens room .item (.array read :: stack) (.scalar value :: rest) =
          readTokens room .commaOrEnd (.array (value :: read) :: stack) rest := rfl
    rw [List.flatMap_cons, List.append_assoc, List.append_assoc, List.singleton_append, comma,
      here.read (.array read :: stack) _ fits, placed, ih there]
    simp

/-- The items of an array that is open are read. -/
theorem readTokens_array (nonempty : parts ≠ []) (each : ∀ part ∈ parts, IsWhole room left part)
    (fits : stack.length + 1 + left ≤ room) :
    readTokens room .itemOrEnd (.array [] :: stack) (withCommas parts ++ rest) =
      readTokens room .commaOrEnd (.array (parts.map (valueOf room)).reverse :: stack) rest := by
  obtain ⟨first, parts, rfl⟩ := List.exists_cons_of_ne_nil nonempty
  obtain ⟨here, there⟩ := List.forall_mem_cons.mp each
  have placed (value : Json) (rest : List Token) :
      readTokens room .item (.array [] :: stack) (.scalar value :: rest) =
        readTokens room .commaOrEnd (.array [value] :: stack) rest := rfl
  rw [withCommas, intercalate_cons_flatMap, List.append_assoc,
    here.begins (by simp) (show (Frame.array [] :: stack).length + left ≤ room from fits), placed,
    readTokens_items there fits]
  simp

/-- A field of an object that is open is read. -/
theorem readTokens_field {field : Option String × List Token} (begins : expects ∈ [.keyOrEnd, .key])
    (whole : IsWhole room left field.2) (read : List (String × Json)) :
    ∃ after, ∀ key? stack rest, stack.length + 1 + left ≤ room →
      readTokens room expects (.object read key? :: stack) (fieldTokens field ++ rest) =
        readTokens room .commaOrEnd (.object after none :: stack) rest := by
  obtain ⟨key?, part⟩ := field
  have keyed (before? : Option String) (stack : List Frame) (rest : List Token) :
      readTokens room expects (.object read before? :: stack) (fieldTokens (key?, part) ++ rest) =
        readTokens room .value (.object read key? :: stack) (part ++ rest) := by
    simp only [List.mem_cons, List.not_mem_nil, or_false] at begins
    rcases begins with rfl | rfl <;> rfl
  have placed : ∃ after, ∀ stack rest,
      readTokens room .item (.object read key? :: stack) (.scalar (valueOf room part) :: rest) =
        readTokens room .commaOrEnd (.object after none :: stack) rest := by
    cases key? with
    | none => exact ⟨read, fun _ _ => rfl⟩
    | some key => exact ⟨Mapping.put read key (valueOf room part), fun _ _ => rfl⟩
  obtain ⟨after, placed⟩ := placed
  refine ⟨after, fun before? stack rest fits => ?_⟩
  rw [keyed, whole.begins (by simp) (show (Frame.object read key? :: stack).length + left ≤ room from fits),
    placed]

/-- Fields with a comma before each are read behind those that were read. -/
theorem readTokens_fields (each : ∀ field ∈ fields, IsWhole room left field.2)
    (read : List (String × Json)) :
    ∃ after, ∀ stack rest, stack.length + 1 + left ≤ room →
      readTokens room .commaOrEnd (.object read none :: stack)
          (((fields.map fieldTokens).flatMap fun part => [Token.comma] ++ part) ++ rest) =
        readTokens room .commaOrEnd (.object after none :: stack) rest := by
  induction fields generalizing read with
  | nil => exact ⟨read, fun _ _ _ => rfl⟩
  | cons field fields ih =>
    obtain ⟨here, there⟩ := List.forall_mem_cons.mp each
    have begins : Expectation.key ∈ [.keyOrEnd, .key] := by simp
    obtain ⟨next, first⟩ := readTokens_field begins here read
    obtain ⟨after, others⟩ := ih there next
    refine ⟨after, fun stack rest fits => ?_⟩
    have comma (rest : List Token) :
        readTokens room .commaOrEnd (.object read none :: stack) (.comma :: rest) =
          readTokens room .key (.object read none :: stack) rest := rfl
    rw [List.map_cons, List.flatMap_cons, List.append_assoc, List.append_assoc, List.singleton_append,
      comma, first none stack _ fits, others stack rest fits]

/-- The fields of an object that is open are read. -/
theorem readTokens_object (nonempty : fields ≠ []) (each : ∀ field ∈ fields, IsWhole room left field.2) :
    ∃ after, ∀ stack rest, stack.length + 1 + left ≤ room →
      readTokens room .keyOrEnd (.object [] none :: stack)
          (withCommas (fields.map fieldTokens) ++ rest) =
        readTokens room .commaOrEnd (.object after none :: stack) rest := by
  obtain ⟨first, fields, rfl⟩ := List.exists_cons_of_ne_nil nonempty
  obtain ⟨here, there⟩ := List.forall_mem_cons.mp each
  have begins : Expectation.keyOrEnd ∈ [.keyOrEnd, .key] := by simp
  obtain ⟨next, one⟩ := readTokens_field begins here []
  obtain ⟨after, others⟩ := readTokens_fields there next
  refine ⟨after, fun stack rest fits => ?_⟩
  rw [withCommas, List.map_cons, intercalate_cons_flatMap, List.append_assoc, one none stack _ fits,
    others stack rest fits]

/-- What the grammar derives as an array is read as the array of its items. -/
theorem isWhole_array (fits : left + 1 ≤ room) (each : ∀ part ∈ parts, IsWhole room left part) :
    IsWhole room (left + 1) (.openArray :: (withCommas parts ++ [.closeArray])) ∧
      valueOf room (.openArray :: (withCommas parts ++ [.closeArray])) =
        .array (parts.map (valueOf room)) := by
  refine isWhole_of_read _ fits ⟨_, _, rfl, by simp⟩ fun stack rest fits => ?_
  rw [List.cons_append, List.append_assoc, readTokens_openArray (by omega)]
  by_cases empty : parts = []
  · subst empty
    exact readTokens_closing rfl
  · rw [readTokens_array empty each (by omega), List.singleton_append]
    refine (readTokens_closing rfl).trans ?_
    rw [List.reverse_reverse]

/-- What the grammar derives as an object is read as an object. -/
theorem isWhole_object (fits : left + 1 ≤ room) (each : ∀ field ∈ fields, IsWhole room left field.2) :
    IsWhole room (left + 1) (.openObject :: (withCommas (fields.map fieldTokens) ++ [.closeObject])) ∧
      ∃ read, valueOf room (.openObject :: (withCommas (fields.map fieldTokens) ++ [.closeObject])) =
        .object read := by
  by_cases empty : fields = []
  · subst empty
    have whole := isWhole_of_read (.object []) fits
      ⟨.openObject, withCommas (([] : List (Option String × List Token)).map fieldTokens) ++ [.closeObject],
        rfl, by simp⟩ fun stack rest fits => by
          rw [List.cons_append, readTokens_openObject (by omega)]
          exact readTokens_closing rfl
    exact ⟨whole.1, [], whole.2⟩
  · obtain ⟨after, read⟩ := readTokens_object empty each
    have whole := isWhole_of_read (.object after) fits
      ⟨.openObject, withCommas (fields.map fieldTokens) ++ [.closeObject], rfl, by simp⟩
      fun stack rest fits => by
        rw [List.cons_append, List.append_assoc, readTokens_openObject (by omega),
          read stack _ (by omega)]
        exact readTokens_closing rfl
    exact ⟨whole.1, after, whole.2⟩

/-- What the grammar derives is read as one value. -/
theorem IsValue.isWhole (isValue : IsValue left part) (fits : left ≤ room) : IsWhole room left part := by
  induction isValue with
  | scalar value => exact (isWhole_of_read _ fits ⟨_, _, rfl, by simp⟩ fun _ _ _ => rfl).1
  | text s =>
    refine (isWhole_of_read (s.elim .brokenText .text) fits ⟨_, _, rfl, by simp⟩
      fun stack rest _ => ?_).1
    cases s <;> exact readTokens_closing rfl
  | array _ ih => exact (isWhole_array fits fun part member => ih part member (by omega)).1
  | object _ ih => exact (isWhole_object fits fun field member => ih field member (by omega)).1

/-- What is read as an array is the array of the values of its items. -/
theorem IsValue.exists_array {values : List Json} (isValue : IsValue room part)
    (atoms : ∀ value, .scalar value ∈ part → value.isArray = false)
    (read : valueOf room part = .array values) :
    ∃ left parts, room = left + 1 ∧ part = .openArray :: (withCommas parts ++ [.closeArray]) ∧
      (∀ part ∈ parts, IsValue left part) ∧ parts.map (valueOf room) = values := by
  cases isValue with
  | scalar value =>
    have same : value = .array values := read
    exact absurd (atoms value List.mem_cons_self) (by simp [same, isArray])
  | text s => cases s <;> cases read
  | @array left parts each =>
    refine ⟨left, parts, rfl, rfl, each, Json.array.inj ?_⟩
    rw [← read]
    exact (isWhole_array (Nat.le_refl _) fun part member => (each part member).isWhole (by omega)).2.symm
  | @object left fields each =>
    obtain ⟨-, fields, same⟩ :=
      isWhole_object (Nat.le_refl _) fun field member => (each field member).isWhole (Nat.le_succ left)
    rw [same] at read
    cases read

end Whole

section Limits

theorem withCommas_concat (nonempty : parts ≠ []) (front : List Token) :
    withCommas (parts ++ [front]) = withCommas parts ++ .comma :: front := by
  obtain ⟨first, parts, rfl⟩ := List.exists_cons_of_ne_nil nonempty
  rw [withCommas, withCommas, List.cons_append, intercalate_cons_flatMap, intercalate_cons_flatMap]
  simp

theorem IsBeyond.ne_closeArray (beyond : IsBeyond left token) : token ≠ .closeArray := by
  rcases beyond with ⟨-, rfl | rfl⟩ | ⟨fault, place, inText, rfl, -⟩ <;> simp

/-- Behind open containers the tokens are read in the same way wherever any value may begin. -/
theorem Opens.begins {space : Nat} (opens : Opens space left front) (beyond : IsBeyond left token)
    (begins : expects ∈ [.value, .item, .itemOrEnd]) :
    readTokens room expects stack (front ++ token :: rest) =
      readTokens room .item stack (front ++ token :: rest) := by
  cases opens with
  | here => exact readTokens_begin begins beyond.ne_closeArray
  | array => exact readTokens_begin begins (by simp)
  | object => exact readTokens_begin begins (by simp)

/-- The reader gives up where a value begins that is beyond the limit. -/
theorem Opens.readTokens_eq {space : Nat} (opens : Opens space left front) (beyond : IsBeyond left token)
    (fits : stack.length + space = room) :
    ∃ fault, fault.isLimit ∧ readTokens room .item stack (front ++ token :: rest) = .error fault := by
  induction opens generalizing stack with
  | here space =>
    rcases beyond with ⟨rfl, rfl | rfl⟩ | ⟨fault, place, inText, rfl, limit⟩
    · have full : beginValue (.lenientWithin room) stack .openArray = .stop .noRoomForArray none :=
        if_pos (decide_eq_true (Nat.le_of_eq fits.symm))
      have stops : advance (.lenientWithin room) stack .openArray .item = _ := full
      exact ⟨.noRoomForArray, rfl, by rw [List.nil_append, readTokens, stops]⟩
    · have full : beginValue (.lenientWithin room) stack .openObject = .stop .noRoomForObject none :=
        if_pos (decide_eq_true (Nat.le_of_eq fits.symm))
      have stops : advance (.lenientWithin room) stack .openObject .item = _ := full
      exact ⟨.noRoomForObject, rfl, by rw [List.nil_append, readTokens, stops]⟩
    · exact ⟨fault, limit, rfl⟩
  | @array space left parts front values inside ih =>
    rw [List.cons_append, readTokens_openArray (by omega)]
    by_cases empty : parts = []
    · subst empty
      rw [List.nil_append, withCommas_singleton, inside.begins beyond (by simp)]
      refine ih beyond ?_
      rw [List.length_cons]
      omega
    · have whole : ∀ part ∈ parts, IsWhole room space part :=
        fun part member => (values part member).isWhole (by omega)
      have comma (read : List Json) (rest : List Token) :
          readTokens room .commaOrEnd (.array read :: stack) (.comma :: rest) =
            readTokens room .item (.array read :: stack) rest := rfl
      rw [withCommas_concat empty, List.append_assoc, readTokens_array empty whole (by omega),
        List.cons_append, comma]
      refine ih beyond ?_
      rw [List.length_cons]
      omega
  | @object space left fields key? front values inside ih =>
    rw [List.cons_append, readTokens_openObject (by omega), List.map_append, List.map_singleton]
    have keyed {expects : Expectation} (begins : expects ∈ [.keyOrEnd, .key])
        (read : List (String × Json)) (before? : Option String) :
        readTokens room expects (.object read before? :: stack)
            (fieldTokens (key?, front) ++ token :: rest) =
          readTokens room .value (.object read key? :: stack) (front ++ token :: rest) := by
      simp only [List.mem_cons, List.not_mem_nil, or_false] at begins
      rcases begins with rfl | rfl <;> rfl
    by_cases empty : fields = []
    · subst empty
      rw [List.map_nil, List.nil_append, withCommas_singleton, keyed (by simp), inside.begins beyond (by simp)]
      refine ih beyond ?_
      rw [List.length_cons]
      omega
    · have whole : ∀ field ∈ fields, IsWhole room space field.2 :=
        fun field member => (values field member).isWhole (by omega)
      obtain ⟨after, read⟩ := readTokens_object empty whole
      have comma (read : List (String × Json)) (rest : List Token) :
          readTokens room .commaOrEnd (.object read none :: stack) (.comma :: rest) =
            readTokens room .key (.object read none :: stack) rest := rfl
      rw [withCommas_concat (by simpa using empty), List.append_assoc, read stack _ (by omega),
        List.cons_append, comma, keyed (by simp), inside.begins beyond (by simp)]
      refine ih beyond ?_
      rw [List.length_cons]
      omega

end Limits

end ReportQuery.Json

import ReportQuery.Proofs.Json.Grammar

set_option autoImplicit false
set_option relaxedAutoImplicit false

/-!
The grammar is complete for the lenient reader: what is read is derived by the grammar, and the reader
gives up at a limit only behind tokens that leave a place for a value.
-/

namespace ReportQuery.Json

open Text (intercalate_cons_flatMap)

/-- The reader finds a fault of the text. -/
def Stops (room : Nat) (expects : Expectation) (stack : List Frame) (tokens : List Token) : Prop :=
  ∃ fault, fault.isLimit = false ∧ readTokens room expects stack tokens = .error fault

/-- The tokens are in front of a token that is beyond the limit. -/
def IsBegun (room : Nat) (front : List Token) (token : Token) : Prop :=
  ∃ left, Opens room left front ∧ IsBeyond left token

variable {room left : Nat} {expects : Expectation} {stack : List Frame} {token : Token}
  {front part rest tokens : List Token} {parts : List (List Token)}
  {fields : List (Option String × List Token)} {frame : Frame} {next : Expectation} {closer : Token}
  {Inside : Frame → Prop} {Element : List Token → Prop} {Begun : List Token → Token → Prop}

theorem stops_of_advance {fault : Fault} {place? : Option (List Char)}
    (stops : advance (.lenientWithin room) stack token expects = .stop fault place?)
    (own : fault.isLimit = false) : Stops room expects stack (token :: rest) :=
  ⟨fault, own, by rw [readTokens, stops]⟩

theorem Stops.congr {other : Expectation} {others : List Frame} {more : List Token}
    (stops : Stops room expects stack tokens)
    (same : readTokens room other others more = readTokens room expects stack tokens) :
    Stops room other others more := by
  obtain ⟨fault, own, stopped⟩ := stops
  exact ⟨fault, own, same.trans stopped⟩

/-- Behind an element of a container comes a comma or the mark that closes it. -/
structure Continues (room : Nat) (stack : List Frame) (next : Expectation) (closer : Token)
    (Inside : Frame → Prop) : Prop where
  comma : ∀ frame, Inside frame →
    advance (.lenientWithin room) (frame :: stack) .comma .commaOrEnd = .go next (frame :: stack)
  other : ∀ frame token rest, Inside frame → token ≠ .comma → token ≠ closer →
    Stops room .commaOrEnd (frame :: stack) (token :: rest)

/-- An array is open. -/
def InArray (frame : Frame) : Prop :=
  ∃ items, frame = .array items

/-- An object is open. -/
def InObject (frame : Frame) : Prop :=
  ∃ fields key?, frame = .object fields key?

theorem continues_array : Continues room stack .item .closeArray InArray where
  comma := by
    rintro _ ⟨items, rfl⟩
    rfl
  other := by
    rintro _ token rest ⟨items, rfl⟩ separates closes
    have stopped : advance (.lenientWithin room) (.array items :: stack) token .commaOrEnd =
        .stop .expectedListCommaOrEnd none := by
      cases token <;> first | rfl | contradiction
    exact stops_of_advance stopped rfl

theorem continues_object : Continues room stack .key .closeObject InObject where
  comma := by
    rintro _ ⟨fields, key?, rfl⟩
    rfl
  other := by
    rintro _ token rest ⟨fields, key?, rfl⟩ separates closes
    have stopped : advance (.lenientWithin room) (.object fields key? :: stack) token .commaOrEnd =
        .stop .expectedObjectCommaOrEnd none := by
      cases token <;> first | rfl | contradiction
    exact stops_of_advance stopped rfl

/-- How the elements of an open container are read from the tokens: as a whole element, up to a limit,
or with a fault. -/
def ElementCases (room : Nat) (expects : Expectation) (stack : List Frame) (Inside : Frame → Prop)
    (Element : List Token → Prop) (Begun : List Token → Token → Prop) (frame : Frame)
    (tokens : List Token) : Prop :=
  (∃ part rest after, tokens = part ++ rest ∧ Element part ∧ Inside after ∧
      readTokens room expects (frame :: stack) tokens =
        readTokens room .commaOrEnd (after :: stack) rest) ∨
    (∃ front token rest, tokens = front ++ token :: rest ∧ Begun front token) ∨
    Stops room expects (frame :: stack) tokens

/-- Behind an element come more of them with commas before, up to the end of the container, up to a
limit or up to a fault. -/
private theorem elements_cases
    (continues : Continues room stack next closer Inside)
    (element : ∀ others frame, others <:+ tokens → others.length < tokens.length → Inside frame →
      ElementCases room next stack Inside Element Begun frame others)
    (inside : Inside frame) :
    (∃ (parts : List (List Token)) (rest : List Token), (∀ part ∈ parts, Element part) ∧
        tokens = (parts.flatMap fun part => [Token.comma] ++ part) ++ closer :: rest) ∨
      (∃ (parts : List (List Token)) (front : List Token) (token : Token) (rest : List Token),
        (∀ part ∈ parts, Element part) ∧ Begun front token ∧
        tokens = ((parts ++ [front]).flatMap fun part => [Token.comma] ++ part) ++ token :: rest) ∨
      Stops room .commaOrEnd (frame :: stack) tokens := by
  induction size : tokens.length using Nat.strongRecOn generalizing tokens frame with
  | ind n ih =>
    cases tokens with
    | nil =>
      refine .inr (.inr ⟨endFault .commaOrEnd (frame :: stack), ?_, rfl⟩)
      cases frame <;> rfl
    | cons token tokens =>
      by_cases separates : token = .comma
      · subst separates
        have goes : readTokens room .commaOrEnd (frame :: stack) (.comma :: tokens) =
            readTokens room next (frame :: stack) tokens := readTokens_go (continues.comma frame inside)
        rcases element tokens frame (List.suffix_cons _ _) (Nat.lt_succ_self _) inside with
          ⟨part, rest, after, rfl, isElement, within, read⟩ | ⟨front, beyond, rest, rfl, begun⟩ | stops
        · have shorter : rest.length < n := by
            rw [← size, List.length_cons, List.length_append]
            omega
          have suffix : rest <:+ .comma :: (part ++ rest) := ⟨.comma :: part, rfl⟩
          have inRest : ∀ others frame, others <:+ rest → others.length < rest.length → Inside frame →
              ElementCases room next stack Inside Element Begun frame others := by
            intro others frame among less within
            refine element others frame (among.trans suffix) ?_ within
            rw [List.length_cons, List.length_append]
            omega
          have later := ih rest.length shorter inRest within rfl
          rcases later with ⟨parts, behind, each, rfl⟩ | ⟨parts, front, beyond, behind, each, begun, rfl⟩ |
            stops
          · exact .inl ⟨part :: parts, behind, List.forall_mem_cons.mpr ⟨isElement, each⟩, by simp⟩
          · exact .inr (.inl ⟨part :: parts, front, beyond, behind,
              List.forall_mem_cons.mpr ⟨isElement, each⟩, begun, by simp⟩)
          · exact .inr (.inr (stops.congr (goes.trans read)))
        · exact .inr (.inl ⟨[], front, beyond, rest, by simp, begun, by simp⟩)
        · exact .inr (.inr (stops.congr goes))
      · by_cases ends : token = closer
        · exact .inl ⟨[], tokens, by simp, by simp [ends]⟩
        · exact .inr (.inr (continues.other frame token tokens inside separates ends))

/-- The elements of a container that was opened: all of them up to its end, or up to a limit or to a
fault. -/
private theorem container_cases
    (continues : Continues room stack next closer Inside)
    (element : ∀ others frame, others <:+ tokens → others.length < tokens.length → Inside frame →
      ElementCases room next stack Inside Element Begun frame others)
    (first : ElementCases room expects stack Inside Element Begun frame tokens)
    (solid : ∀ part, Element part → part ≠ []) :
    (∃ (parts : List (List Token)) (rest : List Token), (∀ part ∈ parts, Element part) ∧
        tokens = withCommas parts ++ closer :: rest) ∨
      (∃ (parts : List (List Token)) (front : List Token) (token : Token) (rest : List Token),
        (∀ part ∈ parts, Element part) ∧ Begun front token ∧
        tokens = withCommas (parts ++ [front]) ++ token :: rest) ∨
      Stops room expects (frame :: stack) tokens := by
  rcases first with ⟨part, rest, after, rfl, isElement, within, read⟩ | ⟨front, beyond, rest, rfl, begun⟩ |
    stops
  · have shorter : rest.length < (part ++ rest).length := by
      have := List.length_pos_of_ne_nil (solid part isElement)
      rw [List.length_append]
      omega
    have inRest : ∀ others frame, others <:+ rest → others.length < rest.length → Inside frame →
        ElementCases room next stack Inside Element Begun frame others :=
      fun others frame among less =>
        element others frame (among.trans (List.suffix_append part rest)) (Nat.lt_trans less shorter)
    rcases elements_cases continues inRest within with ⟨parts, behind, each, rfl⟩ |
      ⟨parts, front, beyond, behind, each, begun, rfl⟩ | stops
    · refine .inl ⟨part :: parts, behind, List.forall_mem_cons.mpr ⟨isElement, each⟩, ?_⟩
      rw [withCommas, intercalate_cons_flatMap, List.append_assoc]
    · refine .inr (.inl ⟨part :: parts, front, beyond, behind,
        List.forall_mem_cons.mpr ⟨isElement, each⟩, begun, ?_⟩)
      rw [withCommas, List.cons_append, intercalate_cons_flatMap, List.append_assoc]
    · exact .inr (.inr (stops.congr read))
  · refine .inr (.inl ⟨[], front, beyond, rest, by simp, begun, ?_⟩)
    rw [List.nil_append, withCommas_singleton]
  · exact .inr (.inr stops)

/-- Faults inside texts are faults of the text and no limits. -/
def TextsAreLimitless (tokens : List Token) : Prop :=
  ∀ fault place, .fault fault place true ∈ tokens → fault.isLimit = false

/-- From the place for a value on the tokens of a value are read, or the tokens up to a limit, or up to
a fault. -/
def ValueCases (room left : Nat) (stack : List Frame) (tokens : List Token) : Prop :=
  (∃ part rest, tokens = part ++ rest ∧ IsValue left part) ∨
    (∃ front token rest, tokens = front ++ token :: rest ∧ IsBegun left front token) ∨
    Stops room .item stack tokens

theorem ValueCases.item {items : List Json} (cases : ValueCases room left (.array items :: stack) tokens)
    (fits : stack.length + 1 + left = room) :
    ElementCases room .item stack InArray (IsValue left) (IsBegun left) (.array items) tokens := by
  rcases cases with ⟨part, rest, rfl, value⟩ | begun | stops
  · refine .inl ⟨part, rest, _, rfl, value, ⟨valueOf room part :: items, rfl⟩, ?_⟩
    exact (value.isWhole (by omega)).read (.array items :: stack) rest (Nat.le_of_eq fits)
  · exact .inr (.inl begun)
  · exact .inr (.inr stops)

theorem Stops.value (stops : Stops room .item stack tokens) : Stops room .value stack tokens := by
  cases tokens with
  | nil => exact ⟨.endInValue, rfl, rfl⟩
  | cons token rest =>
    by_cases ends : token = .closeArray
    · subst ends
      have stopped : advance (.lenientWithin room) stack .closeArray .value =
          .stop .expectedValue none := by
        rcases stack with _ | ⟨_ | ⟨_ | _, _⟩, _⟩ <;> rfl
      exact stops_of_advance stopped rfl
    · exact stops.congr (readTokens_begin (by simp) ends)

/-- A field is a key, a colon and a value. -/
theorem ElementCases.field {fields : List (String × Json)} {before? : Option String}
    (begins : expects ∈ [.keyOrEnd, .key]) (limitless : TextsAreLimitless tokens)
    (other : ∀ rest, tokens ≠ .closeObject :: rest)
    (value : ∀ fields key? others, others <:+ tokens → others.length < tokens.length →
      ValueCases room left (.object fields key? :: stack) others)
    (fits : stack.length + 1 + left = room) :
    ElementCases room expects stack InObject
      (fun part => ∃ field, part = fieldTokens field ∧ IsValue left field.2)
      (fun front token => ∃ key? inner, front = fieldTokens (key?, inner) ∧ IsBegun left inner token)
      (.object fields before?) tokens := by
  have keys (token : Token) (rest : List Token) (same : tokens = token :: rest) :
      advance (.lenientWithin room) (.object fields before? :: stack) token expects =
        readKey (.object fields before? :: stack) token := by
    simp only [List.mem_cons, List.not_mem_nil, or_false] at begins
    rcases begins with rfl | rfl <;> cases token <;> first | rfl | exact absurd same (other rest)
  cases tokens with
  | nil =>
    refine .inr (.inr ⟨endFault expects (.object fields before? :: stack), ?_, rfl⟩)
    simp only [List.mem_cons, List.not_mem_nil, or_false] at begins
    rcases begins with rfl | rfl <;> rfl
  | cons token rest =>
    have advances := keys token rest rfl
    cases token with
    | text key? =>
      have goes : readTokens room expects (.object fields before? :: stack) (.text key? :: rest) =
          readTokens room .colon (.object fields key? :: stack) rest := readTokens_go advances
      cases rest with
      | nil => exact .inr (.inr ⟨.endInObject, rfl, goes⟩)
      | cons token rest =>
        cases token with
        | colon =>
          have keyed : readTokens room expects (.object fields before? :: stack)
              (.text key? :: .colon :: rest) =
                readTokens room .value (.object fields key? :: stack) rest := goes
          have suffix : rest <:+ .text key? :: .colon :: rest := ⟨[.text key?, .colon], rfl⟩
          rcases value fields key? rest suffix (by simp +arith) with ⟨part, rest, rfl, isValue⟩ |
            ⟨inner, token, rest, rfl, begun⟩ | stops
          · have whole : IsWhole room left (key?, part).2 := isValue.isWhole (by omega)
            obtain ⟨after, read⟩ := readTokens_field begins whole fields
            exact .inl ⟨fieldTokens (key?, part), rest, _, rfl, ⟨_, rfl, isValue⟩, ⟨after, none, rfl⟩,
              read before? stack rest (Nat.le_of_eq fits)⟩
          · exact .inr (.inl ⟨fieldTokens (key?, inner), token, rest, rfl, key?, inner, rfl, begun⟩)
          · exact .inr (.inr (stops.value.congr keyed))
        | _ => exact .inr (.inr ⟨.expectedColon, rfl, goes⟩)
    | fault fault place inText =>
      cases inText with
      | true => exact .inr (.inr (stops_of_advance advances (limitless fault place (by simp))))
      | false => exact .inr (.inr (stops_of_advance advances rfl))
    | _ => exact .inr (.inr (stops_of_advance advances rfl))

theorem ElementCases.congr {other : Expectation}
    (cases : ElementCases room expects stack Inside Element Begun frame tokens)
    (same : readTokens room other (frame :: stack) tokens =
      readTokens room expects (frame :: stack) tokens) :
    ElementCases room other stack Inside Element Begun frame tokens := by
  rcases cases with ⟨part, rest, after, split, isElement, within, read⟩ | begun | stops
  · exact .inl ⟨part, rest, after, split, isElement, within, same.trans read⟩
  · exact .inr (.inl begun)
  · exact .inr (.inr (stops.congr same))

theorem IsValue.ne_nil (isValue : IsValue left part) : part ≠ [] := by
  cases isValue <;> exact List.cons_ne_nil _ _

theorem array_cases (fits : stack.length + (left + 1) = room)
    (value : ∀ items others, others <:+ tokens → ValueCases room left (.array items :: stack) others) :
    ValueCases room (left + 1) stack (.openArray :: tokens) := by
  have opened : readTokens room .item stack (.openArray :: tokens) =
      readTokens room .itemOrEnd (.array [] :: stack) tokens := readTokens_openArray (by omega)
  cases tokens with
  | nil => exact .inr (.inr ⟨.endInList, rfl, opened⟩)
  | cons token rest =>
    by_cases ends : token = .closeArray
    · subst ends
      have none : ∀ part ∈ ([] : List (List Token)), IsValue left part := by simp
      exact .inl ⟨[.openArray, .closeArray], rest, rfl, IsValue.array none⟩
    · have starts : Expectation.itemOrEnd ∈ [.value, .item, .itemOrEnd] := by simp
      have first := ((value [] _ List.suffix_rfl).item (by omega)).congr (readTokens_begin starts ends)
      rcases container_cases continues_array
          (fun others frame among less ⟨items, same⟩ => same ▸ (value items others among).item (by omega))
          first (fun part isValue => isValue.ne_nil) with
        ⟨parts, rest, each, split⟩ | ⟨parts, front, token, rest, each, ⟨space, opens, beyond⟩, split⟩ | stops
      · exact .inl ⟨_, rest, by rw [split]; simp, .array each⟩
      · exact .inr (.inl ⟨_, token, rest, by rw [split]; simp, space, .array each opens, beyond⟩)
      · exact .inr (.inr (stops.congr opened))

theorem exists_fields
    (each : ∀ part ∈ parts, ∃ field, part = fieldTokens field ∧ IsValue left field.2) :
    ∃ fields : List (Option String × List Token), parts = fields.map fieldTokens ∧ ∀ field ∈ fields, IsValue left field.2 := by
  induction parts with
  | nil => exact ⟨[], rfl, by simp⟩
  | cons part parts ih =>
    obtain ⟨⟨field, rfl, isValue⟩, others⟩ := List.forall_mem_cons.mp each
    obtain ⟨fields, rfl, values⟩ := ih others
    exact ⟨field :: fields, rfl, List.forall_mem_cons.mpr ⟨isValue, values⟩⟩

theorem object_cases (fits : stack.length + (left + 1) = room) (limitless : TextsAreLimitless tokens)
    (value : ∀ fields key? others, others <:+ tokens → others.length < tokens.length →
      ValueCases room left (.object fields key? :: stack) others) :
    ValueCases room (left + 1) stack (.openObject :: tokens) := by
  have opened : readTokens room .item stack (.openObject :: tokens) =
      readTokens room .keyOrEnd (.object [] none :: stack) tokens := readTokens_openObject (by omega)
  have next : ∀ others frame, others <:+ tokens → others.length < tokens.length → InObject frame →
      ElementCases room .key stack InObject
        (fun part => ∃ field, part = fieldTokens field ∧ IsValue left field.2)
        (fun front token => ∃ key? inner, front = fieldTokens (key?, inner) ∧ IsBegun left inner token)
        frame others := by
    rintro others _ among less ⟨fields, key?, rfl⟩
    by_cases ends : ∃ rest, others = .closeObject :: rest
    · obtain ⟨rest, rfl⟩ := ends
      exact .inr (.inr (stops_of_advance rfl rfl))
    · exact .field (by simp) (fun fault place member => limitless fault place (among.subset member))
        (not_exists.mp ends)
        (fun fields key? _ inside shorter =>
          value fields key? _ (inside.trans among) (Nat.lt_trans shorter less)) (by omega)
  by_cases ends : ∃ rest, tokens = .closeObject :: rest
  · obtain ⟨rest, rfl⟩ := ends
    have none : ∀ field ∈ ([] : List (Option String × List Token)), IsValue left field.2 := by simp
    exact .inl ⟨[.openObject, .closeObject], rest, rfl, IsValue.object none⟩
  · have begins : Expectation.keyOrEnd ∈ [.keyOrEnd, .key] := by simp
    have first : ElementCases room .keyOrEnd stack InObject _ _ (.object [] none) tokens :=
      .field begins limitless (not_exists.mp ends) value (by omega)
    have solid : ∀ part, (∃ field, part = fieldTokens field ∧ IsValue left field.2) → part ≠ [] := by
      rintro _ ⟨field, rfl, -⟩
      exact List.cons_ne_nil _ _
    rcases container_cases continues_object next first solid with
      ⟨parts, rest, each, split⟩ |
      ⟨parts, _, token, rest, each, ⟨key?, inner, rfl, space, opens, beyond⟩, split⟩ | stops
    · obtain ⟨fields, rfl, values⟩ := exists_fields each
      exact .inl ⟨_, rest, by rw [split]; simp, .object values⟩
    · obtain ⟨fields, rfl, values⟩ := exists_fields each
      have front : Opens (left + 1) space
          (.openObject :: withCommas ((fields ++ [(key?, inner)]).map fieldTokens)) := .object values opens
      refine .inr (.inl ⟨_, token, rest, ?_, space, front, beyond⟩)
      rw [split, List.map_append, List.map_singleton, List.cons_append]
    · exact .inr (.inr (stops.congr opened))

/-- What the reader does from a place for a value on. -/
theorem value_cases (limitless : TextsAreLimitless tokens) (fits : stack.length + left = room) :
    ValueCases room left stack tokens := by
  induction size : tokens.length using Nat.strongRecOn generalizing tokens left stack with
  | ind n ih =>
    have inside {others : List Token} (among : others <:+ tokens) (less : others.length < tokens.length)
        {left : Nat} {stack : List Frame} (fits : stack.length + left = room) :
        ValueCases room left stack others :=
      ih others.length (size ▸ less)
        (fun fault place member => limitless fault place (among.subset member)) fits rfl
    cases tokens with
    | nil => exact .inr (.inr ⟨.endInValue, rfl, rfl⟩)
    | cons token rest =>
      cases token with
      | scalar value => exact .inl ⟨[.scalar value], rest, rfl, .scalar value⟩
      | text s => exact .inl ⟨[.text s], rest, rfl, .text s⟩
      | fault fault place inText =>
        cases limit : fault.isLimit with
        | true => exact .inr (.inl ⟨[], _, rest, rfl, left, .here left, .inr ⟨_, _, _, rfl, limit⟩⟩)
        | false => exact .inr (.inr (stops_of_advance rfl limit))
      | openArray =>
        cases left with
        | zero => exact .inr (.inl ⟨[], _, rest, rfl, 0, .here 0, .inl ⟨rfl, .inl rfl⟩⟩)
        | succ left =>
          exact array_cases fits fun items others among =>
            inside (among.trans (List.suffix_cons _ _)) (Nat.lt_succ_of_le among.length_le)
              (by rw [List.length_cons]; omega)
      | openObject =>
        cases left with
        | zero => exact .inr (.inl ⟨[], _, rest, rfl, 0, .here 0, .inl ⟨rfl, .inr rfl⟩⟩)
        | succ left =>
          exact object_cases fits
            (fun fault place member => limitless fault place (List.mem_cons_of_mem _ member))
            fun fields key? others among _ =>
              inside (among.trans (List.suffix_cons _ _)) (Nat.lt_succ_of_le among.length_le)
                (by rw [List.length_cons]; omega)
      | _ => exact .inr (.inr (stops_of_advance rfl rfl))

/-- What becomes of the tokens of a text. -/
private theorem read_cases (room : Nat) (limitless : TextsAreLimitless tokens) :
    IsValue room tokens ∨ (∃ front token rest, tokens = front ++ token :: rest ∧ IsBegun room front token) ∨
      Stops room .value [] tokens := by
  have fits : ([] : List Frame).length + room = room := Nat.zero_add room
  rcases value_cases limitless fits with ⟨part, rest, rfl, value⟩ | begun | stops
  · cases rest with
    | nil =>
      rw [List.append_nil]
      exact .inl value
    | cons token rest =>
      refine .inr (.inr ⟨.trailingCharacters, rfl, ?_⟩)
      exact (value.isWhole (Nat.le_refl room)).begins (by simp) (Nat.le_of_eq fits)
  · exact .inr (.inl begun)
  · exact .inr (.inr stops.value)

theorem IsValue.read (value : IsValue room tokens) :
    readTokens room .value [] tokens = .ok (valueOf room tokens) := by
  rw [← List.append_nil tokens, (value.isWhole (Nat.le_refl room)).begins (by simp) (by simp),
    List.append_nil]
  rfl

theorem IsBegun.read (begun : IsBegun room front token) :
    ∃ fault, fault.isLimit ∧ readTokens room .value [] (front ++ token :: rest) = .error fault := by
  obtain ⟨left, opens, beyond⟩ := begun
  rw [opens.begins beyond (by simp)]
  exact opens.readTokens_eq beyond (Nat.zero_add room)

/-- The tokens of a text are read exactly if the grammar derives them. -/
theorem readTokens_eq_ok_iff (limitless : TextsAreLimitless tokens) (value : Json) :
    readTokens room .value [] tokens = .ok value ↔
      IsValue room tokens ∧ valueOf room tokens = value := by
  constructor
  · intro reads
    rcases read_cases room limitless with isValue | ⟨front, token, rest, rfl, begun⟩ | stops
    · refine ⟨isValue, ?_⟩
      exact Except.ok.inj (isValue.read.symm.trans reads)
    · obtain ⟨fault, -, stopped⟩ := begun.read
      exact absurd (stopped.symm.trans reads) (by simp)
    · obtain ⟨fault, -, stopped⟩ := stops
      exact absurd (stopped.symm.trans reads) (by simp)
  · rintro ⟨isValue, rfl⟩
    exact isValue.read

/-- The tokens of a text are read up to a limit exactly if a value begins there beyond the limit. -/
theorem readTokens_limit_iff (limitless : TextsAreLimitless tokens) :
    (∃ fault, fault.isLimit ∧ readTokens room .value [] tokens = .error fault) ↔
      ∃ front token rest, tokens = front ++ token :: rest ∧ IsBegun room front token := by
  constructor
  · rintro ⟨fault, limit, stopped⟩
    rcases read_cases room limitless with isValue | begun | ⟨other, own, stops⟩
    · exact absurd (stopped.symm.trans isValue.read) (by simp)
    · exact begun
    · obtain rfl := Except.error.inj (stopped.symm.trans stops)
      exact absurd limit (by simp [own])
  · rintro ⟨front, token, rest, rfl, begun⟩
    exact begun.read

end ReportQuery.Json

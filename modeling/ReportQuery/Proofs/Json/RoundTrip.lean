import ReportQuery.Json.Reader
import ReportQuery.Proofs.Json.TokenKinds
import ReportQuery.Proofs.Json.WrittenText

set_option autoImplicit false
set_option relaxedAutoImplicit false

/-!
Written values read back. Among other tokens the text of a value is read like one token that holds
the value, so that a value alone reads as itself.
-/

namespace ReportQuery.Json

/-- A value without numbers whose objects name every field once. Its containers are nested at most
as deep as the given number. -/
inductive Storable : Nat → Json → Prop
  | null {depth : Nat} : Storable depth .null
  | bool {depth : Nat} (b : Bool) : Storable depth (.bool b)
  | text {depth : Nat} (s : String) : Storable depth (.text s)
  | array {depth : Nat} {items : List Json} :
    (∀ item ∈ items, Storable depth item) → Storable (depth + 1) (.array items)
  | object {depth : Nat} {fields : List (String × Json)} : (fields.map Prod.fst).Nodup →
    (∀ field ∈ fields, Storable depth field.2) → Storable (depth + 1) (.object fields)

/-- Containers may be nested as deep as the given number, and there is room for them. -/
def Rules.AllowsDepth (rules : Rules) (depth : Nat) : Prop :=
  ∀ limit, rules.depthLimit? = some limit ∨ rules.room? = some limit → depth ≤ limit

theorem allowsDepth_lenientWithin {room depth : Nat} (fits : depth ≤ room) :
    (Rules.lenientWithin room).AllowsDepth depth := by
  rintro limit (limited | limited)
  · cases limited
  · rwa [← Option.some.inj limited]

variable {rules : Rules} {stack : List Frame} {rest : List Lexeme}

section Tokens

theorem lexemes_null (cs : List Char) :
    lexemes rules ("null".toList ++ cs) =
      ⟨"null".toList ++ cs, .scalar .null⟩ :: lexemes rules cs :=
  lexemes_cons 4 rfl rfl (by simp)

theorem lexemes_bool (b : Bool) (cs : List Char) :
    lexemes rules (writeWord b ++ cs) =
      ⟨writeWord b ++ cs, .scalar (.bool b)⟩ :: lexemes rules cs := by
  cases b with
  | true => exact lexemes_cons 4 rfl rfl (by simp)
  | false => exact lexemes_cons 5 rfl rfl (by simp)

theorem lexemes_text (s : String) (cs : List Char) :
    lexemes rules (writeText .unicode s ++ cs) =
      ⟨writeText .unicode s ++ cs, .text (some s)⟩ :: lexemes rules cs := by
  let inside := s.toList.flatMap (writeChar .unicode)
  have read : readToken rules '"' (inside ++ ['"'] ++ cs) =
      (.text (some s), (inside ++ ['"']).length + 1) := by
    rw [List.append_assoc, readToken, if_pos rfl, List.singleton_append, readText_written]
    simp [inside]
  have whole : writeText .unicode s ++ cs = '"' :: (inside ++ ['"'] ++ cs) := rfl
  rw [whole, lexemes_cons _ rfl read (by simp), Nat.add_sub_cancel, List.drop_left]

end Tokens

section Values

/-- A whole value as one token. -/
def Lexeme.ofValue (value : Json) : Lexeme :=
  ⟨[], .scalar value⟩

theorem readLexemes_alone (value : Json) :
    readLexemes rules .item [] [.ofValue value] = .ok value := rfl

theorem readLexemes_item (value : Json) (items : List Json) :
    readLexemes rules .item (.array items :: stack) (.ofValue value :: rest) =
      readLexemes rules .commaOrEnd (.array (value :: items) :: stack) rest := rfl

theorem readLexemes_field (value : Json) (fields : List (String × Json)) (key : String) :
    readLexemes rules .item (.object fields (some key) :: stack) (.ofValue value :: rest) =
      readLexemes rules .commaOrEnd (.object (Mapping.put fields key value) none :: stack) rest :=
  rfl

/-- Where any value may begin it begins in the same way. -/
theorem advance_begin {expects : Expectation} {token : Token}
    (begins : expects ∈ [.value, .item, .itemOrEnd]) (shallow : isTooDeep rules stack = false)
    (opens : token ≠ .closeArray) :
    advance rules stack token expects = beginValue rules stack token := by
  have first : beginFirst rules stack token = beginValue rules stack token := by
    rw [beginFirst, shallow, if_neg Bool.false_ne_true]
  simp only [List.mem_cons, List.not_mem_nil, or_false] at begins
  rcases begins with rfl | rfl | rfl
  · rcases stack with _ | ⟨_ | ⟨_ | _, _⟩, _⟩
    · rfl
    · rfl
    · exact first
    · rfl
  · cases token with
    | closeArray => exact absurd rfl opens
    | _ => rfl
  · cases token with
    | closeArray => exact absurd rfl opens
    | _ => exact first

theorem readLexemes_begin {expects : Expectation} {lexeme : Lexeme}
    (begins : expects ∈ [.value, .item, .itemOrEnd]) (shallow : isTooDeep rules stack = false)
    (opens : lexeme.token ≠ .closeArray) :
    readLexemes rules expects stack (lexeme :: rest) =
      readLexemes rules .item stack (lexeme :: rest) := by
  rw [readLexemes, readLexemes, advance_begin begins shallow opens,
    advance_begin (by simp) shallow opens]

/-- A token that ends a value is read like one that holds the value. -/
theorem readLexemes_closing {expects : Expectation} {outer : List Frame} {token : Token} {value : Json}
    (closes : advance rules stack token expects = deliver value outer) (start : List Char) :
    readLexemes rules expects stack (⟨start, token⟩ :: rest) =
      readLexemes rules .item outer (.ofValue value :: rest) := by
  have whole : advance rules outer (Lexeme.ofValue value).token .item = deliver value outer := rfl
  rw [readLexemes, readLexemes, closes, whole]
  rcases outer with _ | ⟨_ | ⟨_, _ | _⟩, _⟩ <;> rfl

theorem readLexemes_text (start : List Char) (s : String) :
    readLexemes rules .item stack (⟨start, .text (some s)⟩ :: rest) =
      readLexemes rules .item stack (.ofValue (.text s) :: rest) :=
  readLexemes_closing rfl start

theorem beginValue_openArray (spare : isFull rules stack = false) :
    beginValue rules stack .openArray = .go .itemOrEnd (.array [] :: stack) := by
  rw [beginValue, spare, if_neg Bool.false_ne_true]

theorem beginValue_openObject (spare : isFull rules stack = false) :
    beginValue rules stack .openObject = .go .keyOrEnd (.object [] none :: stack) := by
  rw [beginValue, spare, if_neg Bool.false_ne_true]

theorem readLexemes_openArray (start : List Char) (spare : isFull rules stack = false) :
    readLexemes rules .item stack (⟨start, .openArray⟩ :: rest) =
      readLexemes rules .itemOrEnd (.array [] :: stack) rest := by
  have opened : advance rules stack .openArray .item = _ := beginValue_openArray spare
  rw [readLexemes, opened]

theorem readLexemes_openObject (start : List Char) (spare : isFull rules stack = false) :
    readLexemes rules .item stack (⟨start, .openObject⟩ :: rest) =
      readLexemes rules .keyOrEnd (.object [] none :: stack) rest := by
  have opened : advance rules stack .openObject .item = _ := beginValue_openObject spare
  rw [readLexemes, opened]

end Values

private theorem isTooDeep_eq_false {depth : Nat} (allows : rules.AllowsDepth depth)
    (within : stack.length ≤ depth) : isTooDeep rules stack = false := by
  unfold isTooDeep
  split
  · rename_i limit limited
    have := allows limit (.inl limited)
    simp
    omega
  · rfl

private theorem isFull_eq_false {depth : Nat} (allows : rules.AllowsDepth depth)
    (within : stack.length < depth) : isFull rules stack = false := by
  unfold isFull
  split
  · rename_i room limited
    have := allows room (.inr limited)
    simp
    omega
  · rfl

/-- The text of the value is read like one token that holds it, where containers may be nested
deeper by the given number. -/
structure ReadsAsToken (rules : Rules) (depth : Nat) (value : Json) : Prop where
  opens (cs : List Char) : ∃ lexeme rest,
    lexemes rules (compact .unicode value ++ cs) = lexeme :: rest ∧ lexeme.token ≠ .closeArray
  read (stack : List Frame) (cs : List Char) : rules.AllowsDepth (stack.length + depth) →
    readLexemes rules .item stack (lexemes rules (compact .unicode value ++ cs)) =
      readLexemes rules .item stack (.ofValue value :: lexemes rules cs)

section Containers

variable {depth : Nat} {cs : List Char}

theorem ReadsAsToken.begins {value : Json} {expects : Expectation}
    (reads : ReadsAsToken rules depth value) (begins : expects ∈ [.value, .item, .itemOrEnd])
    (stack : List Frame) (allows : rules.AllowsDepth (stack.length + depth)) :
    readLexemes rules expects stack (lexemes rules (compact .unicode value ++ cs)) =
      readLexemes rules .item stack (.ofValue value :: lexemes rules cs) := by
  rw [← reads.read stack cs allows]
  obtain ⟨lexeme, rest, first, opens⟩ := reads.opens cs
  rw [first, readLexemes_begin begins (isTooDeep_eq_false allows (by omega)) opens]

/-- The items after the first are read behind those that were read. -/
private theorem readLexemes_items {items : List Json}
    (each : ∀ item ∈ items, ReadsAsToken rules depth item) (read : List Json)
    (allows : rules.AllowsDepth (stack.length + 1 + depth)) :
    readLexemes rules .commaOrEnd (.array read :: stack)
        (lexemes rules (compactItems .unicode items ++ cs)) =
      readLexemes rules .item stack
        (.ofValue (.array (read.reverse ++ items)) :: lexemes rules cs) := by
  induction items generalizing read with
  | nil =>
    rw [compactItems, List.singleton_append, lexemes_mark ']' rfl, List.append_nil]
    exact readLexemes_closing rfl _
  | cons item items ih =>
    obtain ⟨here, later⟩ := List.forall_mem_cons.mp each
    rw [compactItems, List.append_assoc, List.cons_append, lexemes_mark ',' rfl]
    have comma (start : List Char) (rest : List Lexeme) :
        readLexemes rules .commaOrEnd (.array read :: stack) (⟨start, .comma⟩ :: rest) =
          readLexemes rules .item (.array read :: stack) rest := rfl
    rw [comma, here.read (.array read :: stack) _ allows, readLexemes_item, ih later,
      List.reverse_cons, List.append_assoc, List.singleton_append]

/-- A field is read behind those that were read. -/
private theorem readLexemes_writtenField {field : String × Json} {fields : List (String × Json)}
    {key? : Option String} {expects : Expectation} (begins : expects ∈ [.keyOrEnd, .key])
    (reads : ReadsAsToken rules depth field.2) (fresh : field.1 ∉ fields.map Prod.fst)
    (allows : rules.AllowsDepth (stack.length + 1 + depth)) :
    readLexemes rules expects (.object fields key? :: stack)
        (lexemes rules (compactField .unicode field ++ cs)) =
      readLexemes rules .commaOrEnd (.object (fields ++ [field]) none :: stack)
        (lexemes rules cs) := by
  obtain ⟨key, value⟩ := field
  have keyed (start : List Char) (rest : List Lexeme) :
      readLexemes rules expects (.object fields key? :: stack) (⟨start, .text (some key)⟩ :: rest) =
        readLexemes rules .colon (.object fields (some key) :: stack) rest := by
    simp only [List.mem_cons, List.not_mem_nil, or_false] at begins
    rcases begins with rfl | rfl <;> rfl
  have colon (start : List Char) (rest : List Lexeme) :
      readLexemes rules .colon (.object fields (some key) :: stack) (⟨start, .colon⟩ :: rest) =
        readLexemes rules .value (.object fields (some key) :: stack) rest := rfl
  rw [compactField, List.append_assoc, lexemes_text, keyed, List.cons_append,
    lexemes_mark ':' rfl, colon,
    reads.begins (by simp) (.object fields (some key) :: stack) allows, readLexemes_field,
    Mapping.put_of_not_mem value fresh]

/-- The fields after the first are read behind those that were read. -/
private theorem readLexemes_fields {fields : List (String × Json)}
    (each : ∀ field ∈ fields, ReadsAsToken rules depth field.2) (read : List (String × Json))
    (distinct : ((read ++ fields).map Prod.fst).Nodup)
    (allows : rules.AllowsDepth (stack.length + 1 + depth)) :
    readLexemes rules .commaOrEnd (.object read none :: stack)
        (lexemes rules (compactFields .unicode fields ++ cs)) =
      readLexemes rules .item stack (.ofValue (.object (read ++ fields)) :: lexemes rules cs) := by
  induction fields generalizing read with
  | nil =>
    rw [compactFields, List.singleton_append, lexemes_mark '\x7d' rfl, List.append_nil]
    exact readLexemes_closing rfl _
  | cons field fields ih =>
    obtain ⟨here, later⟩ := List.forall_mem_cons.mp each
    have fresh : field.1 ∉ read.map Prod.fst := by
      rw [List.map_append, List.map_cons] at distinct
      intro known
      exact (List.nodup_append.mp distinct).2.2 _ known _ List.mem_cons_self rfl
    rw [List.append_cons] at distinct ⊢
    rw [compactFields, List.append_assoc, List.cons_append, lexemes_mark ',' rfl]
    have comma (start : List Char) (rest : List Lexeme) :
        readLexemes rules .commaOrEnd (.object read none :: stack) (⟨start, .comma⟩ :: rest) =
          readLexemes rules .key (.object read none :: stack) rest := rfl
    rw [comma, readLexemes_writtenField (by simp) here fresh allows, ih later _ distinct]

theorem readsAsToken_array {items : List Json}
    (each : ∀ item ∈ items, ReadsAsToken rules depth item) :
    ReadsAsToken rules (depth + 1) (.array items) := by
  cases items with
  | nil =>
    have written (cs : List Char) : compact .unicode (.array []) ++ cs = '[' :: ']' :: cs := rfl
    constructor
    · intro cs
      rw [written, lexemes_mark '[' rfl]
      exact ⟨_, _, rfl, by simp⟩
    · intro stack cs allows
      rw [written, lexemes_mark '[' rfl, lexemes_mark ']' rfl,
        readLexemes_openArray _ (isFull_eq_false allows (by omega))]
      exact readLexemes_closing rfl _
  | cons item items =>
    obtain ⟨here, later⟩ := List.forall_mem_cons.mp each
    have written (cs : List Char) : compact .unicode (.array (item :: items)) ++ cs =
        '[' :: (compact .unicode item ++ (compactItems .unicode items ++ cs)) := by
      rw [compact, List.cons_append, List.cons_append, List.append_assoc]
    constructor
    · intro cs
      rw [written, lexemes_mark '[' rfl]
      exact ⟨_, _, rfl, by simp⟩
    · intro stack cs allows
      have inside : rules.AllowsDepth (stack.length + 1 + depth) := by
        rwa [Nat.add_right_comm, Nat.add_assoc]
      rw [written, lexemes_mark '[' rfl,
        readLexemes_openArray _ (isFull_eq_false allows (by omega)),
        here.begins (by simp) (.array [] :: stack) inside, readLexemes_item,
        readLexemes_items later _ inside]
      rfl

theorem readsAsToken_object {fields : List (String × Json)}
    (distinct : (fields.map Prod.fst).Nodup)
    (each : ∀ field ∈ fields, ReadsAsToken rules depth field.2) :
    ReadsAsToken rules (depth + 1) (.object fields) := by
  cases fields with
  | nil =>
    have written (cs : List Char) :
        compact .unicode (.object []) ++ cs = '\x7b' :: '\x7d' :: cs := rfl
    constructor
    · intro cs
      rw [written, lexemes_mark '\x7b' rfl]
      exact ⟨_, _, rfl, by simp⟩
    · intro stack cs allows
      rw [written, lexemes_mark '\x7b' rfl, lexemes_mark '\x7d' rfl,
        readLexemes_openObject _ (isFull_eq_false allows (by omega))]
      exact readLexemes_closing rfl _
  | cons field fields =>
    obtain ⟨here, later⟩ := List.forall_mem_cons.mp each
    have written (cs : List Char) : compact .unicode (.object (field :: fields)) ++ cs =
        '\x7b' :: (compactField .unicode field ++ (compactFields .unicode fields ++ cs)) := by
      rw [compact, List.cons_append, List.cons_append, List.append_assoc]
    constructor
    · intro cs
      rw [written, lexemes_mark '\x7b' rfl]
      exact ⟨_, _, rfl, by simp⟩
    · intro stack cs allows
      have inside : rules.AllowsDepth (stack.length + 1 + depth) := by
        rwa [Nat.add_right_comm, Nat.add_assoc]
      rw [written, lexemes_mark '\x7b' rfl,
        readLexemes_openObject _ (isFull_eq_false allows (by omega)),
        readLexemes_writtenField (by simp) here List.not_mem_nil inside,
        readLexemes_fields later _ distinct inside]
      rfl

end Containers

theorem Storable.readsAsToken {depth : Nat} {value : Json} (storable : Storable depth value) :
    ReadsAsToken rules depth value := by
  induction storable with
  | null =>
    constructor
    · exact fun cs => ⟨_, _, lexemes_null cs, by simp⟩
    · intro stack cs _
      rw [compact, lexemes_null]
      exact readLexemes_closing rfl _
  | bool b =>
    constructor
    · exact fun cs => ⟨_, _, lexemes_bool b cs, by simp⟩
    · intro stack cs _
      rw [compact, lexemes_bool]
      exact readLexemes_closing rfl _
  | text s =>
    constructor
    · exact fun cs => ⟨_, _, lexemes_text s cs, by simp⟩
    · intro stack cs _
      rw [compact, lexemes_text, readLexemes_text]
  | array _ each => exact readsAsToken_array each
  | object distinct _ each => exact readsAsToken_object distinct each

/-- The text of a value reads as the value. -/
theorem read_compact {depth : Nat} {value : Json} (storable : Storable depth value)
    (allows : rules.AllowsDepth depth) : read rules (compact .unicode value) = .ok value := by
  have whole : rules.AllowsDepth (([] : List Frame).length + depth) := by
    rwa [List.length_nil, Nat.zero_add]
  have alone : readLexemes rules .value [] (lexemes rules (compact .unicode value ++ [])) =
      readLexemes rules .item [] (.ofValue value :: lexemes rules []) :=
    storable.readsAsToken.begins (by simp) [] whole
  rw [List.append_nil, lexemes] at alone
  rw [read, alone, readLexemes_alone]

end ReportQuery.Json

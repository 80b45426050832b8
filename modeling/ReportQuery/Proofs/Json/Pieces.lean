import Mathlib.Data.List.Forall2
import ReportQuery.Proofs.Json.Complete
import ReportQuery.Proofs.Json.TokenEnd

set_option autoImplicit false
set_option relaxedAutoImplicit false

/-!
Texts cut where items end. The piece in front of a comma, or of the end of an array, has tokens of its
own, which it keeps in front of every other such mark: so arrays can be put together from the texts of
their items and taken apart into them.
-/

namespace ReportQuery.Json

open Text (intercalate_cons_flatMap)

variable {room : Nat} {rules : Rules} {c : Char} {cs text back item : List Char}
  {tokens part rest : List Token}

/-- Characters between tokens. -/
def IsBlanks (cs : List Char) : Prop :=
  ∀ c ∈ cs, isTokenBlank c

section Lexemes

theorem lexemes_blanks {blanks : List Char} (blank : IsBlanks blanks) (cs : List Char) :
    lexemes rules (blanks ++ cs) = lexemes rules cs := by
  induction blanks with
  | nil => rfl
  | cons c blanks ih =>
    obtain ⟨here, there⟩ := List.forall_mem_cons.mp blank
    rw [List.cons_append, lexemes, if_pos here, ih there]

/-- The first token of a text: blanks stand before it, and behind it, if it is no fault, the tokens of
what it left. -/
structure Leads (rules : Rules) (blanks : List Char) (c : Char) (cs : List Char) (first : Lexeme)
    (others : List Lexeme) : Prop where
  blank : IsBlanks blanks
  solid : isTokenBlank c = false
  start : first.start = c :: cs
  read : (readToken rules c cs).1 = first.token
  next : others ≠ [] → ∃ length, sound? (readToken rules c cs) = some (first.token, length) ∧
    others = lexemes rules (cs.drop (length - 1))

theorem exists_leads {first : Lexeme} {others : List Lexeme}
    (split : lexemes rules text = first :: others) :
    ∃ blanks c cs, text = blanks ++ c :: cs ∧ Leads rules blanks c cs first others := by
  induction text with
  | nil =>
    rw [lexemes] at split
    cases split
  | cons c cs ih =>
    cases blank : isTokenBlank c with
    | true =>
      rw [lexemes, if_pos blank] at split
      obtain ⟨blanks, d, ds, rfl, leads⟩ := ih split
      exact ⟨c :: blanks, d, ds, rfl,
        { leads with blank := List.forall_mem_cons.mpr ⟨blank, leads.blank⟩ }⟩
    | false =>
      have none : IsBlanks [] := List.forall_mem_nil _
      cases read : sound? (readToken rules c cs) with
      | none =>
        rw [lexemes_faulty blank read] at split
        obtain ⟨rfl, rfl⟩ := List.cons.inj split
        exact ⟨[], c, cs, rfl, none, blank, rfl, rfl, fun other => absurd rfl other⟩
      | some sound =>
        rw [lexemes_sound blank read] at split
        obtain ⟨rfl, rfl⟩ := List.cons.inj split
        exact ⟨[], c, cs, rfl, none, blank, rfl, (sound?_eq_some read).1 ▸ rfl, fun _ => ⟨_, read, rfl⟩⟩

/-- A text without tokens is blank. -/
theorem isBlanks_of_lexemes (none : lexemes rules cs = []) : IsBlanks cs := by
  induction cs with
  | nil => exact List.forall_mem_nil _
  | cons c cs ih =>
    cases blank : isTokenBlank c with
    | true =>
      rw [lexemes, if_pos blank] at none
      exact List.forall_mem_cons.mpr ⟨blank, ih none⟩
    | false =>
      cases read : sound? (readToken rules c cs) with
      | none => simp [lexemes_faulty blank read] at none
      | some sound => simp [lexemes_sound blank read] at none

/-- Every token stands at its place in the text, where the tokens begin with it. -/
theorem suffix_of_lexemes {front others : List Lexeme} {lexeme : Lexeme}
    (split : lexemes rules text = front ++ lexeme :: others) :
    lexeme.start <:+ text ∧ ∃ c cs, lexeme.start = c :: cs ∧ (readToken rules c cs).1 = lexeme.token := by
  induction front generalizing text with
  | nil =>
    obtain ⟨blanks, c, cs, rfl, leads⟩ := exists_leads split
    rw [leads.start]
    exact ⟨List.suffix_append _ _, c, cs, rfl, leads.read⟩
  | cons first front ih =>
    obtain ⟨blanks, c, cs, rfl, leads⟩ := exists_leads split
    obtain ⟨length, -, next⟩ := leads.next (by simp)
    obtain ⟨suffix, own⟩ := ih next.symm
    refine ⟨?_, own⟩
    exact (suffix.trans (List.drop_suffix _ _)).trans
      ((List.suffix_cons _ _).trans (List.suffix_append _ _))

end Lexemes

section Spans

/-- The tokens of a text that is read leniently. -/
def tokensOf (room : Nat) (text : List Char) : List Token :=
  (lexemes (.lenientWithin room) text).map Lexeme.token

/-- The text has the tokens wherever an item ends behind it. -/
def Spans (room : Nat) (cs : List Char) (tokens : List Token) : Prop :=
  ∀ back, EndsItem back → tokensOf room (cs ++ back) = tokens ++ tokensOf room back

theorem tokensOf_mark (c : Char) {token : Token} (mark : markTokens.lookup c = some token)
    (cs : List Char) : tokensOf room (c :: cs) = token :: tokensOf room cs := by
  rw [tokensOf, lexemes_mark c mark]
  rfl

theorem tokensOf_text (s : String) (cs : List Char) :
    tokensOf room (writeText .unicode s ++ cs) = .text (some s) :: tokensOf room cs := by
  rw [tokensOf, lexemes_text]
  rfl

/-- In front of the end of an item a text is cut between tokens. -/
theorem exists_spans {front others : List Lexeme} {lexeme : Lexeme}
    (split : lexemes (.lenientWithin room) text = front ++ lexeme :: others)
    (ends : EndsItem lexeme.start) :
    ∃ cs, text = cs ++ lexeme.start ∧ Spans room cs (front.map Lexeme.token) := by
  induction front generalizing text with
  | nil =>
    obtain ⟨blanks, c, cs, rfl, leads⟩ := exists_leads split
    refine ⟨blanks, by rw [leads.start], fun back _ => ?_⟩
    rw [tokensOf, lexemes_blanks leads.blank]
    rfl
  | cons first front ih =>
    obtain ⟨blanks, c, cs, rfl, leads⟩ := exists_leads split
    obtain ⟨length, read, next⟩ := leads.next (by simp)
    obtain ⟨later, cut, spans⟩ := ih next.symm
    let own := cs.take (length - 1)
    have whole : cs = own ++ later ++ lexeme.start := by
      rw [List.append_assoc, ← cut, List.take_append_drop]
    have ownLength : own.length = length - 1 := by
      have nonempty : (cs.drop (length - 1)).length ≠ 0 := by
        obtain ⟨mark, behind, same, -⟩ := ends
        rw [cut, same]
        simp
      rw [List.length_drop] at nonempty
      simp only [own, List.length_take]
      omega
    have alone : sound? (readToken (.lenientWithin room) c (own ++ later)) = some (first.token, length) := by
      rw [whole] at read
      refine readToken_of_append ends read ?_
      rw [List.length_append]
      omega
    refine ⟨blanks ++ c :: (own ++ later), ?_, fun back backEnds => ?_⟩
    · rw [List.append_assoc, List.cons_append, ← whole]
    · have next : (own ++ later ++ back).drop (length - 1) = later ++ back := by
        rw [List.append_assoc, ← ownLength, List.drop_left]
      rw [List.append_assoc, List.cons_append, tokensOf, lexemes_blanks leads.blank,
        lexemes_sound leads.solid (readToken_append backEnds alone), next, List.map_cons, List.map_cons,
        List.cons_append, ← spans back backEnds]
      rfl

/-- Items with commas between them have the tokens of the items. -/
theorem spans_items {items : List (List Char)} {parts : List (List Token)} {item : List Char}
    {part : List Token} (first : Spans room item part) (others : List.Forall₂ (Spans room) items parts) :
    Spans room ([','].intercalate (item :: items)) (withCommas (part :: parts)) := by
  intro back ends
  have behind : EndsItem ((items.flatMap fun item => [','] ++ item) ++ back) ∧
      tokensOf room ((items.flatMap fun item => [','] ++ item) ++ back) =
        (parts.flatMap fun part => [Token.comma] ++ part) ++ tokensOf room back := by
    induction others with
    | nil => exact ⟨ends, rfl⟩
    | cons here _ ih =>
      obtain ⟨inner, tokens⟩ := ih
      constructor
      · exact ⟨',', _, rfl, by simp⟩
      · rw [List.flatMap_cons, List.flatMap_cons, List.append_assoc, List.append_assoc,
          List.singleton_append, tokensOf_mark ',' rfl, here _ inner, tokens]
        simp
  rw [withCommas, intercalate_cons_flatMap, intercalate_cons_flatMap, List.append_assoc,
    first _ behind.1, behind.2, List.append_assoc]

/-- A mark stands where its token does. -/
theorem start_of_mark {front others : List Lexeme} {lexeme : Lexeme}
    (split : lexemes rules text = front ++ lexeme :: others) (mark : (c, lexeme.token) ∈ markTokens) :
    ∃ cs, lexeme.start = c :: cs := by
  obtain ⟨-, d, cs, start, read⟩ := suffix_of_lexemes split
  have among : lexeme.token ∈ markTokens.map Prod.snd := List.mem_map_of_mem mark
  have own := mem_of_lookup_mark (lookup_of_readToken_mark read among)
  suffices same : d = c from ⟨cs, same ▸ start⟩
  simp only [markTokens, List.mem_cons, Prod.mk.injEq, List.not_mem_nil, or_false] at mark own
  rcases mark with ⟨rfl, token⟩ | ⟨rfl, token⟩ | ⟨rfl, token⟩ | ⟨rfl, token⟩ | ⟨rfl, token⟩ | ⟨rfl, token⟩ <;>
    simpa [token] using own

/-- A text is cut where its tokens are cut in front of a mark that ends an item. -/
theorem exists_cut (c : Char) {before : List Token} {token : Token} (mark : markTokens.lookup c = some token)
    (ends : c ∈ [',', ']']) (tokens : tokensOf room text = before ++ token :: rest) :
    ∃ item behind, text = item ++ c :: behind ∧ Spans room item before ∧ tokensOf room behind = rest := by
  obtain ⟨front, others, split, rfl, same⟩ := List.map_eq_append_iff.mp tokens
  obtain ⟨lexeme, others, rfl, rfl, rfl⟩ := List.map_eq_cons_iff.mp same
  obtain ⟨behind, start⟩ := start_of_mark split (mem_of_lookup_mark mark)
  obtain ⟨item, cut, spans⟩ := exists_spans split ⟨c, behind, start, ends⟩
  rw [start] at cut
  subst cut
  have whole := spans (c :: behind) ⟨c, behind, rfl, ends⟩
  rw [tokens, tokensOf_mark c mark] at whole
  exact ⟨item, behind, rfl, spans, (List.cons.inj (List.append_cancel_left whole)).2.symm⟩

/-- A text whose tokens are those of items up to the end of an array is made of the texts of items. -/
theorem exists_items {first : List Token} {parts : List (List Token)}
    (tokens : tokensOf room text = withCommas (first :: parts) ++ .closeArray :: rest) :
    ∃ item items behind, text = [','].intercalate (item :: items) ++ ']' :: behind ∧
      Spans room item first ∧ List.Forall₂ (Spans room) items parts ∧ tokensOf room behind = rest := by
  induction parts generalizing text first with
  | nil =>
    rw [withCommas_singleton] at tokens
    obtain ⟨item, behind, rfl, spans, others⟩ := exists_cut ']' rfl (by simp) tokens
    exact ⟨item, [], behind, by rw [List.intercalate_singleton], spans, .nil, others⟩
  | cons next parts ih =>
    have split : withCommas (first :: next :: parts) ++ .closeArray :: rest =
        first ++ .comma :: (withCommas (next :: parts) ++ .closeArray :: rest) := by
      rw [withCommas, List.intercalate_cons_cons]
      simp [withCommas]
    rw [split] at tokens
    obtain ⟨item, behind, rfl, spans, others⟩ := exists_cut ',' rfl (by simp) tokens
    obtain ⟨second, items, behind, rfl, secondSpans, spread, last⟩ := ih others
    refine ⟨item, second :: items, behind, ?_, spans, .cons secondSpans spread, last⟩
    rw [List.intercalate_cons_cons]
    simp

end Spans

section Arrays

/-- What stands between the brackets of an array: the texts of its items with commas between them, or
only blanks. -/
def IsBody : List (List Char) → List Char → Prop
  | [], body => IsBlanks body
  | item :: items, body => body = [','].intercalate (item :: items)

/-- The text, up to blanks around it, is that of an array with the given texts for items. -/
def IsArrayText (items : List (List Char)) (text : List Char) : Prop :=
  ∃ before body after, text = before ++ '[' :: (body ++ ']' :: after) ∧ IsBlanks before ∧
    IsBlanks after ∧ IsBody items body

/-- The text of an array with one item. -/
def singleArray (item : List Char) : List Char :=
  '[' :: (item ++ [']'])

theorem isArrayText_singleArray (item : List Char) : IsArrayText [item] (singleArray item) :=
  ⟨[], item, [], rfl, List.forall_mem_nil _, List.forall_mem_nil _, List.intercalate_singleton.symm⟩

theorem tokensOf_blanks {blanks : List Char} (blank : IsBlanks blanks) (cs : List Char) :
    tokensOf room (blanks ++ cs) = tokensOf room cs := by
  rw [tokensOf, lexemes_blanks blank, tokensOf]

theorem tokensOf_nil : tokensOf room [] = [] := by
  rw [tokensOf, lexemes]
  rfl

theorem tokensOf_eq_nil (blank : IsBlanks cs) : tokensOf room cs = [] := by
  rw [← List.append_nil cs, tokensOf_blanks blank, tokensOf_nil]

theorem IsBlanks.of_tokensOf (none : tokensOf room cs = []) : IsBlanks cs :=
  isBlanks_of_lexemes (List.map_eq_nil_iff.mp none)

/-- An array of items has the tokens of the items. -/
theorem tokensOf_arrayText {items : List (List Char)} {parts : List (List Token)}
    (array : IsArrayText items text) (spans : List.Forall₂ (Spans room) items parts) :
    tokensOf room text = .openArray :: (withCommas parts ++ [.closeArray]) := by
  obtain ⟨before, body, after, rfl, blankBefore, blankAfter, inside⟩ := array
  have closed : tokensOf room (']' :: after) = [.closeArray] := by
    rw [tokensOf_mark ']' rfl, tokensOf_eq_nil blankAfter]
  rw [tokensOf_blanks blankBefore, tokensOf_mark '[' rfl]
  cases spans with
  | nil => rw [tokensOf_blanks inside, closed]; rfl
  | cons first others =>
    have body : body = _ := inside
    rw [body, spans_items first others _ ⟨']', after, rfl, by simp⟩, closed]

/-- The text between the brackets of an array has the tokens between them. -/
theorem spans_of_singleArray (tokens : tokensOf room (singleArray item) = .openArray :: (part ++ [.closeArray])) :
    Spans room item part := by
  rw [singleArray, tokensOf_mark '[' rfl] at tokens
  obtain ⟨own, behind, split, spans, none⟩ := exists_cut ']' rfl (by simp) (List.cons.inj tokens).2
  have blank := IsBlanks.of_tokensOf none
  obtain rfl | ⟨init, last, rfl⟩ := List.eq_nil_or_concat behind
  · rwa [List.append_cancel_right split]
  · have whole : item ++ [']'] = own ++ ']' :: init ++ [last] := by
      rw [split, List.concat_eq_append, List.append_assoc, List.cons_append]
    have ends := blank last (by simp)
    rw [← List.singleton_inj.mp (List.append_inj_right' whole rfl)] at ends
    exact absurd ends (by decide)

/-- A text whose tokens begin with a mark begins with it, up to blanks. -/
theorem exists_leading (c : Char) {token : Token} (mark : markTokens.lookup c = some token)
    (tokens : tokensOf room text = token :: rest) :
    ∃ blanks cs, text = blanks ++ c :: cs ∧ IsBlanks blanks ∧ tokensOf room cs = rest := by
  obtain ⟨lexeme, others, split, rfl, -⟩ := List.map_eq_cons_iff.mp tokens
  have leading : lexemes (.lenientWithin room) text = [] ++ lexeme :: others := split
  obtain ⟨cs, start⟩ := start_of_mark leading (mem_of_lookup_mark mark)
  obtain ⟨blanks, d, ds, rfl, leads⟩ := exists_leads split
  obtain ⟨rfl, rfl⟩ := List.cons.inj (leads.start.symm.trans start)
  rw [tokensOf_blanks leads.blank, tokensOf_mark d mark] at tokens
  exact ⟨blanks, ds, rfl, leads.blank, (List.cons.inj tokens).2⟩

/-- Every text with the tokens of an array is the text of an array of items. -/
theorem exists_arrayText {parts : List (List Token)}
    (tokens : tokensOf room text = .openArray :: (withCommas parts ++ [.closeArray])) :
    ∃ items, IsArrayText items text ∧ List.Forall₂ (Spans room) items parts := by
  obtain ⟨before, inner, rfl, blankBefore, opened⟩ := exists_leading '[' rfl tokens
  cases parts with
  | nil =>
    obtain ⟨body, after, rfl, blank, none⟩ := exists_leading ']' rfl opened
    exact ⟨[], ⟨before, body, after, rfl, blankBefore, .of_tokensOf none, blank⟩, .nil⟩
  | cons first parts =>
    obtain ⟨item, items, after, rfl, spans, spread, none⟩ := exists_items opened
    exact ⟨item :: items, ⟨before, _, after, rfl, blankBefore, .of_tokensOf none, rfl⟩, .cons spans spread⟩

end Arrays

section Reading

theorem exists_of_mem_tokensOf {token : Token} (among : token ∈ tokensOf room text) :
    ∃ c cs, (readToken (.lenientWithin room) c cs).1 = token := by
  obtain ⟨lexeme, member, rfl⟩ := List.mem_map.mp among
  obtain ⟨front, others, split⟩ := List.append_of_mem member
  obtain ⟨-, c, cs, -, read⟩ := suffix_of_lexemes split
  exact ⟨c, cs, read⟩

theorem textsAreLimitless_tokensOf : TextsAreLimitless (tokensOf room text) := by
  intro fault place among
  obtain ⟨c, cs, read⟩ := exists_of_mem_tokensOf among
  exact isLimit_of_readToken read

theorem isArray_of_mem_tokensOf {value : Json} (among : .scalar value ∈ tokensOf room text) :
    value.isArray = false := by
  obtain ⟨c, cs, read⟩ := exists_of_mem_tokensOf among
  rcases readToken_cases (.lenientWithin room) c cs with mark | text | plain
  · have among := mem_of_lookup_mark mark
    simp [read, markTokens] at among
  · rcases text with ⟨s, same⟩ | ⟨own, rest, same, -⟩ <;> simp [same] at read
  · rcases plain with ⟨own, same, atom⟩ | ⟨own, rest, same⟩
    · rw [same] at read
      cases read
      exact atom
    · simp [same] at read

theorem mapError_read (room : Nat) (text : List Char) :
    (read (.lenientWithin room) text).mapError Failure.fault =
      readTokens room .value [] (tokensOf room text) :=
  mapError_readLexemes room .value [] _

/-- A text is read exactly if the grammar derives its tokens. -/
theorem read_eq_ok_iff {value : Json} :
    read (.lenientWithin room) text = .ok value ↔
      IsValue room (tokensOf room text) ∧ valueOf room (tokensOf room text) = value := by
  rw [← readTokens_eq_ok_iff textsAreLimitless_tokensOf, ← mapError_read]
  cases read (.lenientWithin room) text <;> simp [Except.mapError]

/-- A text is read up to a limit exactly if a value begins there beyond the limit. -/
theorem read_limit_iff :
    (∃ failure, read (.lenientWithin room) text = .error failure ∧ failure.fault.isLimit) ↔
      ∃ front token rest, tokensOf room text = front ++ token :: rest ∧ IsBegun room front token := by
  rw [← readTokens_limit_iff textsAreLimitless_tokensOf, ← mapError_read]
  cases read (.lenientWithin room) text <;> simp [Except.mapError]

/-- A text is read as an array exactly if its tokens are those of the items. -/
theorem read_array_iff {values : List Json} :
    read (.lenientWithin room) text = .ok (.array values) ↔
      ∃ left parts, room = left + 1 ∧ tokensOf room text = .openArray :: (withCommas parts ++ [.closeArray]) ∧
        (∀ part ∈ parts, IsValue left part) ∧ parts.map (valueOf room) = values := by
  rw [read_eq_ok_iff]
  constructor
  · rintro ⟨isValue, same⟩
    exact isValue.exists_array (fun value => isArray_of_mem_tokensOf) same
  · rintro ⟨left, parts, rfl, tokens, each, rfl⟩
    rw [tokens]
    refine ⟨.array each, ?_⟩
    exact (isWhole_array (Nat.le_refl _) fun part member => (each part member).isWhole (by omega)).2

/-- In an array of its own the text is read as the value. -/
def IsItem (room : Nat) (item : List Char) (value : Json) : Prop :=
  read (.lenientWithin room) (singleArray item) = .ok (.array [value])

/-- A text is an item exactly if its tokens are those of a value. -/
theorem isItem_iff {left : Nat} {value : Json} : IsItem (left + 1) item value ↔
    ∃ part, Spans (left + 1) item part ∧ IsValue left part ∧ valueOf (left + 1) part = value := by
  rw [IsItem, read_array_iff]
  constructor
  · rintro ⟨own, parts, same, tokens, each, values⟩
    obtain ⟨part, rfl, rfl⟩ := List.map_eq_singleton_iff.mp values
    obtain rfl := Nat.succ.inj same
    rw [withCommas_singleton] at tokens
    exact ⟨part, spans_of_singleArray tokens, each part List.mem_cons_self, rfl⟩
  · rintro ⟨part, spans, isValue, rfl⟩
    refine ⟨left, [part], rfl, ?_, by simpa using isValue, rfl⟩
    exact tokensOf_arrayText (isArrayText_singleArray item) (.cons spans .nil)

/-- The values of items are read from the tokens that the items have. -/
theorem forall₂_isItem_iff {left : Nat} {items : List (List Char)} {values : List Json} :
    List.Forall₂ (IsItem (left + 1)) items values ↔
      ∃ parts, List.Forall₂ (Spans (left + 1)) items parts ∧ (∀ part ∈ parts, IsValue left part) ∧
        parts.map (valueOf (left + 1)) = values := by
  constructor
  · intro isItems
    induction isItems with
    | nil => exact ⟨[], .nil, List.forall_mem_nil _, rfl⟩
    | cons here _ ih =>
      obtain ⟨part, spans, isValue, rfl⟩ := isItem_iff.mp here
      obtain ⟨parts, spread, each, rfl⟩ := ih
      exact ⟨part :: parts, .cons spans spread, List.forall_mem_cons.mpr ⟨isValue, each⟩, rfl⟩
  · rintro ⟨parts, spread, each, rfl⟩
    induction spread with
    | nil => exact .nil
    | cons spans _ ih =>
      obtain ⟨isValue, others⟩ := List.forall_mem_cons.mp each
      exact .cons (isItem_iff.mpr ⟨_, spans, isValue, rfl⟩) (ih others)

/-- Arrays are read item by item. -/
theorem read_arrayText_iff {left : Nat} {values : List Json} :
    read (.lenientWithin (left + 1)) text = .ok (.array values) ↔
      ∃ items, IsArrayText items text ∧ List.Forall₂ (IsItem (left + 1)) items values := by
  rw [read_array_iff]
  constructor
  · rintro ⟨own, parts, same, tokens, each, values⟩
    obtain rfl := Nat.succ.inj same
    obtain ⟨items, array, spread⟩ := exists_arrayText tokens
    exact ⟨items, array, forall₂_isItem_iff.mpr ⟨parts, spread, each, values⟩⟩
  · rintro ⟨items, array, isItems⟩
    obtain ⟨parts, spread, each, values⟩ := forall₂_isItem_iff.mp isItems
    exact ⟨left, parts, rfl, tokensOf_arrayText array spread, each, values⟩

theorem compactItems_eq (items : List Json) : compactItems .unicode items =
    ((items.map (compact .unicode)).flatMap fun item => [','] ++ item) ++ [']'] := by
  induction items with
  | nil => rfl
  | cons item items ih =>
    rw [compactItems, ih]
    simp

/-- The text of an array is that of the texts of its items. -/
theorem isArrayText_compact (items : List Json) :
    IsArrayText (items.map (compact .unicode)) (compact .unicode (.array items)) := by
  cases items with
  | nil =>
    exact ⟨[], [], [], rfl, List.forall_mem_nil _, List.forall_mem_nil _, List.forall_mem_nil _⟩
  | cons item items =>
    refine ⟨[], _, [], ?_, List.forall_mem_nil _, List.forall_mem_nil _, rfl⟩
    rw [compact, compactItems_eq, intercalate_cons_flatMap]
    simp

/-- The texts of values are items, where there is room for an array around them. -/
theorem forall₂_isItem_compact {depth : Nat} {values : List Json}
    (each : ∀ value ∈ values, Storable depth value) (roomy : depth + 1 ≤ room) :
    List.Forall₂ (IsItem room) (values.map (compact .unicode)) values := by
  rw [List.forall₂_map_left_iff, List.forall₂_same]
  intro value member
  have single : singleArray (compact .unicode value) = compact .unicode (.array [value]) := by
    rw [singleArray, compact, compactItems, List.cons_append]
  have storable : Storable (depth + 1) (.array [value]) :=
    .array fun item among => List.mem_singleton.mp among ▸ each value member
  rw [IsItem, single]
  exact read_compact storable (allowsDepth_lenientWithin roomy)

end Reading

end ReportQuery.Json

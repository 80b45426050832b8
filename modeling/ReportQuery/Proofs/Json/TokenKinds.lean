import Mathlib.Data.List.Basic
import ReportQuery.Json.Reader

set_option autoImplicit false
set_option relaxedAutoImplicit false

/-!
What a token can be, told by its first character.
-/

namespace ReportQuery.Json

open Text (isAsciiDigit)

variable {rules : Rules} {c : Char} {cs : List Char}

/-- A token that is no fault, with how many characters it took. -/
def sound? : Token × Nat → Option (Token × Nat)
  | (.fault _ _ _, _) => none
  | read => some read

theorem sound?_eq_some {read : Token × Nat} {token : Token} {length : Nat}
    (sound : sound? read = some (token, length)) :
    read = (token, length) ∧ ∀ fault place inText, token ≠ .fault fault place inText := by
  obtain ⟨own, taken⟩ := read
  cases own with
  | fault => cases sound
  | _ =>
    obtain ⟨rfl, rfl⟩ := Prod.mk.inj (Option.some.inj sound)
    exact ⟨rfl, by simp⟩

theorem sound?_eq_none_iff {read : Token × Nat} :
    sound? read = none ↔ ∃ fault place inText, read.1 = .fault fault place inText := by
  obtain ⟨own, taken⟩ := read
  cases own <;> simp [sound?]

theorem lexemes_cons {token : Token} (length : Nat) (solid : isTokenBlank c = false)
    (read : readToken rules c cs = (token, length))
    (sound : ∀ fault place inText, token ≠ .fault fault place inText) :
    lexemes rules (c :: cs) = ⟨c :: cs, token⟩ :: lexemes rules (cs.drop (length - 1)) := by
  rw [lexemes, solid, if_neg Bool.false_ne_true, read]
  cases token with
  | fault fault place inText => exact absurd rfl (sound fault place inText)
  | _ => rfl

theorem lexemes_sound {token : Token} {length : Nat} (solid : isTokenBlank c = false)
    (read : sound? (readToken rules c cs) = some (token, length)) :
    lexemes rules (c :: cs) = ⟨c :: cs, token⟩ :: lexemes rules (cs.drop (length - 1)) := by
  obtain ⟨same, sound⟩ := sound?_eq_some read
  exact lexemes_cons length solid same sound

theorem lexemes_faulty (solid : isTokenBlank c = false) (faulty : sound? (readToken rules c cs) = none) :
    lexemes rules (c :: cs) = [⟨c :: cs, (readToken rules c cs).1⟩] := by
  obtain ⟨fault, place, inText, same⟩ := sound?_eq_none_iff.mp faulty
  rw [lexemes, solid, if_neg Bool.false_ne_true]
  simp only [same]

/-- The marks between values, each a token of one character. -/
def markTokens : List (Char × Token) :=
  [('[', .openArray), (']', .closeArray), ('\x7b', .openObject), ('\x7d', .closeObject),
    (',', .comma), (':', .colon)]

theorem mem_of_lookup_mark {token : Token} (mark : markTokens.lookup c = some token) :
    (c, token) ∈ markTokens := by
  obtain ⟨before, behind, whole, -⟩ := List.lookup_eq_some_iff.mp mark
  rw [whole]
  exact List.mem_append_right before List.mem_cons_self

theorem lexemes_mark (c : Char) {token : Token} (mark : markTokens.lookup c = some token)
    (cs : List Char) : lexemes rules (c :: cs) = ⟨c :: cs, token⟩ :: lexemes rules cs := by
  have among := mem_of_lookup_mark mark
  simp only [markTokens, List.mem_cons, Prod.mk.injEq, List.not_mem_nil, or_false] at among
  rcases among with ⟨rfl, rfl⟩ | ⟨rfl, rfl⟩ | ⟨rfl, rfl⟩ | ⟨rfl, rfl⟩ | ⟨rfl, rfl⟩ | ⟨rfl, rfl⟩ <;>
    exact lexemes_cons 1 rfl rfl (by simp)

/-- Whether the value is an array. -/
def isArray : Json → Bool
  | array _ => true
  | _ => false

/-- What a token is read as, told by its first character. -/
inductive TokenKind (rules : Rules) (c : Char) : Prop where
  | text : c = '"' → TokenKind rules c
  | mark (token : Token) : markTokens.lookup c = some token →
    (∀ cs, readToken rules c cs = (token, 1)) → TokenKind rules c
  | word (value : Json) (word : List Char) : value.isArray = false → (∀ mark ∈ [',', ']'], mark ∉ word) →
    (∀ cs, readToken rules c cs = readWord value 1 word cs) → TokenKind rules c
  | negative : c = '-' → (∀ cs, readToken rules c cs = readSigned rules true (c :: cs) cs) →
    TokenKind rules c
  | number : (∀ cs, readToken rules c cs = readSigned rules false (c :: cs) (c :: cs)) → TokenKind rules c
  | unknown : (∀ cs, readToken rules c cs = (.fault .expectedValue (c :: cs) false, 0)) →
    TokenKind rules c

theorem tokenKind (rules : Rules) (c : Char) : TokenKind rules c := by
  by_cases quote : c = '"'
  · exact .text quote
  by_cases mark : c = '[' ∨ c = ']' ∨ c = '\x7b' ∨ c = '\x7d' ∨ c = ',' ∨ c = ':'
  · rcases mark with rfl | rfl | rfl | rfl | rfl | rfl <;>
      exact .mark _ rfl fun _ => rfl
  by_cases word : c = 't' ∨ c = 'f' ∨ c = 'n' ∨ c = 'N'
  · rcases word with rfl | rfl | rfl | rfl
    · exact .word (.bool true) "rue".toList rfl (by simp) fun _ => rfl
    · exact .word (.bool false) "alse".toList rfl (by simp) fun _ => rfl
    · exact .word .null "ull".toList rfl (by simp) fun _ => rfl
    · exact .word (.number .notANumber) "aN".toList rfl (by simp) fun _ => rfl
  by_cases minus : c = '-'
  · subst minus
    exact .negative rfl fun _ => rfl
  rw [not_or, not_or, not_or, not_or, not_or] at mark
  rw [not_or, not_or, not_or] at word
  by_cases number : isAsciiDigit c || c = 'I'
  · exact .number fun cs => by simp only [readToken, quote, mark, word, minus, number, if_false, if_true]
  · exact .unknown fun cs => by
      simp only [readToken, quote, mark, word, minus, number, if_false, Bool.false_eq_true]

/-- The faults of a step are faults of the text. -/
def TextStep.IsLimitless (step : TextStep) : Prop :=
  ∀ fault rest, step = .fault fault rest → fault.isLimit = false

theorem isLimit_of_hexDigits {value n : Nat} {wrong : Fault × List Char}
    (read : hexDigits value n cs = .error wrong) : wrong.1.isLimit = false := by
  fun_induction hexDigits value n cs with
  | case1 => cases read
  | case2 =>
    cases read
    rfl
  | case3 value n c cs d digit ih => exact ih read
  | case4 =>
    cases read
    rfl

theorem isLimit_of_hexEscape {wrong : Fault × List Char} (read : hexEscape cs = .error wrong) :
    wrong.1.isLimit = false := by
  unfold hexEscape at read
  split at read
  · cases read
    rfl
  · exact isLimit_of_hexDigits read

theorem isLimitless_secondHalf (leading : Nat) (cs : List Char) :
    (secondHalf rules leading cs).IsLimitless := by
  intro fault place same
  unfold secondHalf at same
  split at same
  · split at same
    · rename_i read
      split at same
      · cases same
      · cases same
        exact isLimit_of_hexEscape read
    · split_ifs at same
      cases same
      rfl
  · split_ifs at same
    split at same <;> cases same <;> rfl

theorem isLimitless_escapeStep (cs : List Char) : (escapeStep rules cs).IsLimitless := by
  intro fault place same
  unfold escapeStep at same
  split at same
  · cases same
    rfl
  iterate 8 cases same
  · split at same
    · rename_i read
      cases same
      exact isLimit_of_hexEscape read
    · split_ifs at same
      · exact isLimitless_secondHalf _ _ fault place same
      · cases same
        rfl
  · cases same
    rfl

theorem isLimitless_textStep (c : Char) (cs : List Char) : (textStep rules c cs).IsLimitless := by
  intro fault place same
  unfold textStep at same
  split_ifs at same
  · exact isLimitless_escapeStep cs fault place same
  · cases same
    rfl

/-- A token that is a text, or its fault. -/
def Token.IsText (token : Token) : Prop :=
  (∃ s, token = .text s) ∨ ∃ fault place, token = .fault fault place true ∧ fault.isLimit = false

/-- A token that is a number or a word, or its fault. -/
def Token.IsPlain (token : Token) : Prop :=
  (∃ value, token = .scalar value ∧ value.isArray = false) ∨
    ∃ fault place, token = .fault fault place false

theorem isText_readText (read : Option (List Char)) (length : Nat) (cs : List Char) :
    (readText rules read length cs).1.IsText := by
  fun_induction readText rules read length cs with
  | case1 => exact .inr ⟨_, _, rfl, rfl⟩
  | case2 => exact .inl ⟨_, rfl⟩
  | case3 read length c cs d n step ih => exact ih
  | case4 read length c cs n step ih => exact ih
  | case5 read length c cs fault rest step =>
    exact .inr ⟨_, _, rfl, isLimitless_textStep c cs fault rest step⟩

theorem isPlain_readWord {value : Json} (atom : value.isArray = false) (length : Nat)
    (word cs : List Char) : (readWord value length word cs).1.IsPlain := by
  fun_induction readWord value length word cs with
  | case1 => exact .inl ⟨_, rfl, atom⟩
  | case2 => exact .inr ⟨_, _, rfl⟩
  | case3 length word c cs ih => exact ih
  | case4 => exact .inr ⟨_, _, rfl⟩

theorem isPlain_readNumber (negative : Bool) (start whole : List Char) :
    (readNumber rules negative start whole).1.IsPlain := by
  have integer (long : Bool) (fault : Fault) (place : List Char) (n : Int) (length : Nat) :
      (if long then (Token.fault fault place false, 0) else (Token.scalar (.integer n), length)).1.IsPlain := by
    cases long
    · exact .inl ⟨_, rfl, rfl⟩
    · exact .inr ⟨_, _, rfl⟩
  unfold readNumber
  generalize (if negative then 1 else 0) = signLength
  dsimp only
  generalize (if negative then _ else _ : Int) = n
  split
  · exact .inr ⟨_, _, rfl⟩
  · split
    · split
      · exact integer _ _ _ _ _
      · exact .inr ⟨_, _, rfl⟩
    · exact integer _ _ _ _ _
    · exact .inl ⟨_, rfl, rfl⟩

theorem isPlain_readSigned (negative : Bool) (start cs : List Char) :
    (readSigned rules negative start cs).1.IsPlain := by
  unfold readSigned
  split
  · exact .inr ⟨_, _, rfl⟩
  · exact isPlain_readWord rfl _ _ _
  · split
    · exact .inr ⟨_, _, rfl⟩
    · exact isPlain_readNumber _ _ _
  · split
    · exact .inr ⟨_, _, rfl⟩
    · exact isPlain_readNumber _ _ _

/-- Every token is a mark, a text or a plain one. -/
theorem readToken_cases (rules : Rules) (c : Char) (cs : List Char) :
    markTokens.lookup c = some (readToken rules c cs).1 ∨ (readToken rules c cs).1.IsText ∨
      (readToken rules c cs).1.IsPlain := by
  cases tokenKind rules c with
  | text quote =>
    subst quote
    exact .inr (.inl (isText_readText (some []) 0 cs))
  | mark token mark read =>
    rw [read, mark]
    exact .inl rfl
  | word value word atom _ read =>
    rw [read]
    exact .inr (.inr (isPlain_readWord atom _ _ _))
  | negative _ read =>
    rw [read]
    exact .inr (.inr (isPlain_readSigned _ _ _))
  | number read =>
    rw [read]
    exact .inr (.inr (isPlain_readSigned _ _ _))
  | unknown read =>
    rw [read]
    exact .inr (.inr (.inr ⟨_, _, rfl⟩))

/-- A mark is read from its own character. -/
theorem lookup_of_readToken_mark {token : Token} (read : (readToken rules c cs).1 = token)
    (mark : token ∈ markTokens.map Prod.snd) : markTokens.lookup c = some token := by
  subst read
  rcases readToken_cases rules c cs with own | text | plain
  · exact own
  · rcases text with ⟨s, same⟩ | ⟨fault, place, same, -⟩ <;>
      simp [same, markTokens] at mark
  · rcases plain with ⟨value, same, -⟩ | ⟨fault, place, same⟩ <;>
      simp [same, markTokens] at mark

/-- Faults inside texts are faults of the text and no limits. -/
theorem isLimit_of_readToken {fault : Fault} {place : List Char}
    (read : (readToken rules c cs).1 = .fault fault place true) : fault.isLimit = false := by
  rcases readToken_cases rules c cs with mark | text | plain
  · have among := mem_of_lookup_mark mark
    simp [read, markTokens] at among
  · rcases text with ⟨s, same⟩ | ⟨own, rest, same, limitless⟩
    · simp [same] at read
    · rw [same] at read
      cases read
      exact limitless
  · rcases plain with ⟨value, same, -⟩ | ⟨own, rest, same⟩ <;> simp [same] at read

end ReportQuery.Json

import Mathlib.Data.List.TakeWhile
import ReportQuery.Proofs.Json.TokenEnd

set_option autoImplicit false
set_option relaxedAutoImplicit false

/-!
The integers that the lenient reader refuses although they are well-formed: those with more digits than
it converts. A fraction or an exponent behind the digits makes them a number that it reads.
-/

namespace ReportQuery.Json

open Text (isAsciiDigit)

variable {room : Nat} {c : Char} {cs digits rest : List Char}

/-- Whether an exponent with at least one digit stands at the front of a text. -/
def startsExponent : List Char → Bool
  | [] => false
  | c :: cs => (c == 'e' || c == 'E') && startsDigit (withoutSign cs)

/-- The digits are those of an integer, with the given text behind it, and they are too many. -/
structure IsLongInteger (digits rest : List Char) : Prop where
  long : maxIntegerDigits < digits.length
  digital : ∀ d ∈ digits, isAsciiDigit d
  leading : digits.head? ≠ some '0'
  ends : startsDigit rest = false
  fraction : startsFraction rest = false
  exponent : startsExponent rest = false

/-- The text begins with an integer, maybe negative, of these digits, which are too many. -/
def StartsLongInteger (digits cs : List Char) : Prop :=
  ∃ sign rest, sign ∈ [[], ['-']] ∧ cs = sign ++ (digits ++ rest) ∧ IsLongInteger digits rest

/-- The limit that a token reports. -/
def Token.limit? : Token → Option Fault
  | .fault own _ _ => if own.isLimit then some own else none
  | _ => none

theorem limit?_eq_some_iff {token : Token} {fault : Fault} : token.limit? = some fault ↔
    fault.isLimit ∧ ∃ place inText, token = .fault fault place inText := by
  cases token with
  | fault own place inText =>
    rw [Token.limit?]
    constructor
    · intro limit
      split at limit
      · cases limit
        exact ⟨‹_›, place, inText, rfl⟩
      · cases limit
    · rintro ⟨limit, place, inText, same⟩
      cases same
      exact if_pos limit
  | _ => simp [Token.limit?]

section Scales

/-- At least one digit is read exactly where one stands. -/
theorem readDigits_cases (cs : List Char) :
    startsDigit cs = true ∧ (∃ digits, readDigits cs = .ok digits) ∨
      startsDigit cs = false ∧ ∃ wrong, readDigits cs = .error wrong ∧ wrong.1.isLimit = false := by
  cases cs with
  | nil => exact .inr ⟨rfl, _, rfl, rfl⟩
  | cons c cs =>
    cases digit : isAsciiDigit c with
    | true => exact .inl ⟨digit, c :: cs.takeWhile isAsciiDigit, by simp [readDigits, digit]⟩
    | false => exact .inr ⟨digit, (.invalidNumber, c :: cs), by simp [readDigits, digit], rfl⟩

theorem readExponent_cases (cs : List Char) :
    (startsExponent cs = false ∧ (readExponent cs = .ok (none, 0) ∨
        ∃ wrong, readExponent cs = .error wrong ∧ wrong.1.isLimit = false)) ∨
      startsExponent cs = true ∧ ∃ exponent length, readExponent cs = .ok (exponent, length + 1) := by
  cases cs with
  | nil => exact .inl ⟨rfl, .inl rfl⟩
  | cons c cs =>
    by_cases mark : c = 'e' ∨ c = 'E'
    · obtain ⟨f, positive, read⟩ := exists_readExponent mark cs
      have alone := read [] (.inl rfl)
      rw [List.append_nil, List.append_nil] at alone
      have starts : startsExponent (c :: cs) = startsDigit (withoutSign cs) := by
        simp [startsExponent, mark]
      rw [starts, alone]
      rcases readDigits_cases (withoutSign cs) with ⟨digit, digits, found⟩ | ⟨none, wrong, failed, own⟩
      · obtain ⟨length, same⟩ := Nat.exists_eq_add_one.mpr (positive digits)
        exact .inr ⟨digit, (f digits).1, length, by rw [found, ← same]; rfl⟩
      · exact .inl ⟨none, .inr ⟨wrong, by rw [failed]; rfl, own⟩⟩
    · exact .inl ⟨by simpa [startsExponent] using fun other => absurd other mark,
        .inl (readExponent_other mark cs)⟩

/-- What may follow the whole part of a number is taken exactly if a fraction or an exponent stands
there; what is wrong with it is no limit. -/
theorem readScale_cases (cs : List Char) :
    (∃ wrong, readScale cs = .error wrong ∧ wrong.1.isLimit = false ∧
        (startsFraction cs = false → startsExponent cs = false)) ∨
      ∃ digits exponent length, readScale cs = .ok (digits, exponent, length) ∧
        (length = 0 ↔ startsFraction cs = false ∧ startsExponent cs = false) := by
  have read (digits : List Char) (length : Nat) (fraction : readFraction cs = .ok (digits, length)) :
      readScale cs = (readExponent (cs.drop length)).map fun exponent =>
        (digits, exponent.1, length + exponent.2) := by
    unfold readScale
    rw [fraction]
    show bind (readExponent (cs.drop length)) _ = _
    cases readExponent (cs.drop length) <;> rfl
  cases cs with
  | nil => exact .inr ⟨[], none, 0, rfl, by simp [startsFraction, startsExponent]⟩
  | cons c cs =>
    by_cases point : c = '.'
    · subst point
      have fraction : readFraction ('.' :: cs) =
          (readDigits cs).map fun digits => (digits, digits.length + 1) := rfl
      rw [startsFraction_point]
      rcases readDigits_cases cs with ⟨digit, digits, found⟩ | ⟨digit, wrong, failed, own⟩
      · have whole := read digits (digits.length + 1) (by rw [fraction, found]; rfl)
        rw [digit]
        rcases readExponent_cases (('.' :: cs).drop (digits.length + 1)) with
          ⟨-, taken | ⟨wrong, failed, own⟩⟩ | ⟨-, exponent, length, taken⟩
        · exact .inr ⟨_, _, _, by rw [whole, taken]; rfl, by simp⟩
        · exact .inl ⟨wrong, by rw [whole, failed]; rfl, own, by simp⟩
        · exact .inr ⟨_, _, _, by rw [whole, taken]; rfl, by simp⟩
      · refine .inl ⟨wrong, ?_, own, fun _ => rfl⟩
        unfold readScale
        rw [fraction, failed]
        rfl
    · have whole := read [] 0 (readFraction_other point cs)
      rw [List.drop_zero] at whole
      rw [startsFraction_other point]
      rcases readExponent_cases (c :: cs) with
        ⟨bare, taken | ⟨wrong, failed, own⟩⟩ | ⟨starts, exponent, length, taken⟩
      · exact .inr ⟨_, _, _, by rw [whole, taken]; rfl, by simp [bare]⟩
      · exact .inl ⟨wrong, by rw [whole, failed]; rfl, own, fun _ => bare⟩
      · exact .inr ⟨_, _, _, by rw [whole, taken]; rfl, by simp [starts]⟩

/-- The limit that a number reports. -/
theorem limit?_readNumber (negative : Bool) (start whole : List Char) :
    (readNumber (.lenientWithin room) negative start whole).1.limit? =
      if maxIntegerDigits < whole.length ∧
          startsFraction (start.drop (whole.length + if negative then 1 else 0)) = false ∧
          startsExponent (start.drop (whole.length + if negative then 1 else 0)) = false then
        some (.tooManyDigits whole.length)
      else none := by
  have lenient : (Rules.lenientWithin room).refusesLongIntegers = false := rfl
  unfold readNumber
  simp only [lenient, Bool.false_and, Bool.false_eq_true, if_false]
  generalize start.drop (whole.length + if negative then 1 else 0) = rest
  rcases readScale_cases rest with ⟨wrong, failed, own, bare⟩ | ⟨digits, exponent, length, read, zero⟩
  · rw [failed]
    by_cases long : maxIntegerDigits < whole.length
    · cases fraction : startsFraction rest with
      | true => simp [long, Token.limit?, own]
      | false => simp [long, Token.limit?, bare fraction, Fault.isLimit]
    · simp [long, Token.limit?, own]
  · rw [read]
    cases length with
    | zero =>
      obtain ⟨fraction, bare⟩ := zero.mp rfl
      by_cases long : maxIntegerDigits < whole.length <;>
        simp [long, Token.limit?, fraction, bare, Fault.isLimit]
    | succ length =>
      have taken : ¬ (maxIntegerDigits < whole.length ∧ startsFraction rest = false ∧
          startsExponent rest = false) := fun bare => absurd (zero.mpr bare.2) (Nat.succ_ne_zero length)
      rw [if_neg taken]
      rfl

end Scales

section Tokens

theorem limit?_readWord (value : Json) (length : Nat) (word cs : List Char) :
    (readWord value length word cs).1.limit? = none := by
  fun_induction readWord value length word cs with
  | case1 => rfl
  | case2 => rfl
  | case3 length word c cs ih => exact ih
  | case4 => rfl

theorem takeWhile_of_isLongInteger (long : IsLongInteger digits rest) :
    (digits ++ rest).takeWhile isAsciiDigit = digits := by
  rw [List.takeWhile_append_of_pos long.digital]
  have ends := long.ends
  cases rest with
  | nil => simp
  | cons c rest =>
    have stop : isAsciiDigit c = false := ends
    simp [stop]

/-- The limit that an integer reports; `start` is the text from its sign on. -/
theorem limit?_readSigned_iff {negative : Bool} {start : List Char} {fault : Fault}
    (sign : start.drop (if negative then 1 else 0) = cs) :
    (readSigned (.lenientWithin room) negative start cs).1.limit? = some fault ↔
      ∃ digits rest, cs = digits ++ rest ∧ IsLongInteger digits rest ∧
        fault = .tooManyDigits digits.length := by
  have behind (whole : List Char) :
      start.drop (whole.length + if negative then 1 else 0) = cs.drop whole.length := by
    rw [← sign, List.drop_drop, Nat.add_comm]
  constructor
  · intro limit
    cases cs with
    | nil => cases limit
    | cons c cs =>
      by_cases infinite : c = 'I'
      · subst infinite
        have none := limit?_readWord (.number (.infinite negative)) (if negative then 2 else 1)
          "nfinity".toList cs
        exact absurd (none.symm.trans limit) (by simp)
      by_cases zero : c = '0'
      · subst zero
        rw [readSigned] at limit
        split at limit
        · cases limit
        · have short : ¬ maxIntegerDigits < ['0'].length := by decide
          rw [limit?_readNumber, if_neg (fun long => short long.1)] at limit
          cases limit
      rw [readSigned_digits infinite zero] at limit
      split at limit
      · cases limit
      · rw [limit?_readNumber, behind] at limit
        split_ifs at limit with long
        obtain ⟨long, fraction, exponent⟩ := long
        rw [Text.drop_length_takeWhile] at fraction exponent
        refine ⟨(c :: cs).takeWhile isAsciiDigit, (c :: cs).dropWhile isAsciiDigit,
          List.takeWhile_append_dropWhile.symm, ?_, (Option.some.inj limit).symm⟩
        exact {
          long, fraction, exponent
          digital := fun d among => List.mem_takeWhile_imp among
          leading := by
            rw [List.takeWhile_cons]
            split <;> simp [zero]
          ends := by
            have stops := List.head?_dropWhile_not isAsciiDigit (c :: cs)
            rw [startsDigit]
            cases behind : ((c :: cs).dropWhile isAsciiDigit).head? with
            | none => rfl
            | some d => simpa [behind] using stops }
  · rintro ⟨digits, rest, rfl, long, rfl⟩
    have first := long.long
    obtain _ | ⟨c, digits⟩ := digits
    · cases first
    have digit : isAsciiDigit c := long.digital c List.mem_cons_self
    have infinite : c ≠ 'I' := by
      rintro rfl
      exact absurd digit (by decide)
    have zero : c ≠ '0' := fun same => long.leading (same ▸ rfl)
    have taken := takeWhile_of_isLongInteger long
    rw [List.cons_append] at taken ⊢
    rw [readSigned_digits infinite zero, taken, if_neg (by simp), limit?_readNumber, behind,
      List.drop_left, if_pos ⟨long.long, long.fraction, long.exponent⟩]

theorem limit?_of_isText {token : Token} (text : token.IsText) : token.limit? = none := by
  rcases text with ⟨s, rfl⟩ | ⟨fault, place, rfl, limitless⟩
  · rfl
  · simp [Token.limit?, limitless]

theorem limit?_of_mark {token : Token} (mark : markTokens.lookup c = some token) :
    token.limit? = none := by
  have among := mem_of_lookup_mark mark
  simp only [markTokens, List.mem_cons, Prod.mk.injEq, List.not_mem_nil, or_false] at among
  rcases among with ⟨-, rfl⟩ | ⟨-, rfl⟩ | ⟨-, rfl⟩ | ⟨-, rfl⟩ | ⟨-, rfl⟩ | ⟨-, rfl⟩ <;> rfl

theorem readToken_digit {rules : Rules} (digit : isAsciiDigit c) (cs : List Char) :
    readToken rules c cs = readSigned rules false (c :: cs) (c :: cs) := by
  have other : ∀ d ∈ ['"', '[', ']', '\x7b', '\x7d', ',', ':', 't', 'f', 'n', 'N', '-'], c ≠ d := by
    rintro d among rfl
    have none : ∀ d ∈ ['"', '[', ']', '\x7b', '\x7d', ',', ':', 't', 'f', 'n', 'N', '-'],
        isAsciiDigit d = false := by simp [isAsciiDigit]
    rw [none c among] at digit
    cases digit
  simp only [List.forall_mem_cons] at other
  simp only [readToken, other, digit, if_false, Bool.true_or, if_true]

/-- The limit that a token reports is that of the integer with which its text begins. -/
theorem limit?_readToken_iff {fault : Fault} :
    (readToken (.lenientWithin room) c cs).1.limit? = some fault ↔
      ∃ digits, StartsLongInteger digits (c :: cs) ∧ fault = .tooManyDigits digits.length := by
  have negative : (readSigned (.lenientWithin room) true (c :: cs) cs).1.limit? = some fault ↔ _ :=
    limit?_readSigned_iff rfl
  have unsigned : (readSigned (.lenientWithin room) false (c :: cs) (c :: cs)).1.limit? = some fault ↔ _ :=
    limit?_readSigned_iff rfl
  constructor
  · intro limit
    cases tokenKind (.lenientWithin room) c with
    | text quote =>
      subst quote
      exact absurd ((limit?_of_isText (isText_readText (some []) 0 cs)).symm.trans limit) (by simp)
    | mark token mark read =>
      rw [read, limit?_of_mark mark] at limit
      cases limit
    | word value word _ plain read =>
      rw [read, limit?_readWord] at limit
      cases limit
    | negative minus read =>
      rw [read] at limit
      obtain ⟨digits, rest, rfl, long, rfl⟩ := negative.mp limit
      exact ⟨digits, ⟨['-'], rest, by simp, by rw [minus]; rfl, long⟩, rfl⟩
    | number read =>
      rw [read] at limit
      obtain ⟨digits, rest, split, long, rfl⟩ := unsigned.mp limit
      exact ⟨digits, ⟨[], rest, by simp, split, long⟩, rfl⟩
    | unknown read =>
      rw [read] at limit
      cases limit
  · rintro ⟨digits, ⟨sign, rest, signed, split, long⟩, rfl⟩
    simp only [List.mem_cons, List.not_mem_nil, or_false] at signed
    rcases signed with rfl | rfl
    · have digit : isAsciiDigit c := by
        have first := long.long
        obtain _ | ⟨d, digits⟩ := digits
        · cases first
        · obtain ⟨rfl, rfl⟩ := List.cons.inj split
          exact long.digital c List.mem_cons_self
      rw [readToken_digit digit]
      exact unsigned.mpr ⟨digits, rest, split, long, rfl⟩
    · obtain ⟨rfl, rfl⟩ := List.cons.inj split
      exact negative.mpr ⟨digits, rest, rfl, long, rfl⟩

end Tokens

end ReportQuery.Json

import ReportQuery.Proofs.Json.TokenKinds
import ReportQuery.Proofs.Text.Scan

set_option autoImplicit false
set_option relaxedAutoImplicit false

/-!
Tokens end on their own: what a sound token is does not depend on the text behind it, where that begins
with a comma or with the end of an array.
-/

namespace ReportQuery.Json

open Text (isAsciiDigit)

variable {room : Nat} {c : Char} {cs back : List Char}

/-- A text that begins with a comma or with the end of an array. -/
def EndsItem (back : List Char) : Prop :=
  ∃ c rest, back = c :: rest ∧ c ∈ [',', ']']

theorem EndsItem.cases (ends : EndsItem back) :
    (∃ rest, back = ',' :: rest) ∨ ∃ rest, back = ']' :: rest := by
  obtain ⟨c, rest, rfl, mark⟩ := ends
  simp only [List.mem_cons, List.not_mem_nil, or_false] at mark
  rcases mark with rfl | rfl
  · exact .inl ⟨rest, rfl⟩
  · exact .inr ⟨rest, rfl⟩

section Texts

theorem toOption_hexDigits_append (ends : EndsItem back) (value n : Nat) (cs : List Char) :
    (hexDigits value n (cs ++ back)).toOption = (hexDigits value n cs).toOption := by
  induction n generalizing value cs with
  | zero => rfl
  | succ n ih =>
    cases cs with
    | nil => rcases ends.cases with ⟨rest, rfl⟩ | ⟨rest, rfl⟩ <;> rfl
    | cons c cs =>
      rw [List.cons_append, hexDigits, hexDigits]
      cases hexDigit? c with
      | none => rfl
      | some d => exact ih _ cs

theorem le_length_of_hexDigits {value n result : Nat} (read : hexDigits value n cs = .ok result) :
    n ≤ cs.length := by
  induction n generalizing value cs with
  | zero => exact Nat.zero_le _
  | succ n ih =>
    cases cs with
    | nil => cases read
    | cons c cs =>
      rw [hexDigits] at read
      cases digit : hexDigit? c with
      | none => simp [digit] at read
      | some d =>
        rw [digit] at read
        exact Nat.succ_le_succ (ih read)

theorem length_le_utf8ByteSize (cs : List Char) : cs.length ≤ (String.ofList cs).utf8ByteSize := by
  induction cs with
  | nil => simp
  | cons c cs ih =>
    have := c.utf8Size_pos
    rw [List.length_cons, String.ofList_cons, String.utf8ByteSize_append]
    simp
    omega

/-- An escape is read from its four digits. -/
theorem toOption_hexEscape (cs : List Char) :
    (hexEscape cs).toOption = (hexDigits 0 4 cs).toOption := by
  rw [hexEscape]
  split
  · rename_i short
    cases read : hexDigits 0 4 cs with
    | error _ => rfl
    | ok n =>
      have := length_le_utf8ByteSize (cs.take 4)
      have := le_length_of_hexDigits read
      rw [List.length_take] at *
      omega
  · rfl

theorem toOption_hexEscape_append (ends : EndsItem back) (cs : List Char) :
    (hexEscape (cs ++ back)).toOption = (hexEscape cs).toOption := by
  rw [toOption_hexEscape, toOption_hexEscape, toOption_hexDigits_append ends]

theorem le_length_of_hexEscape {n : Nat} (read : hexEscape cs = .ok n) : 4 ≤ cs.length := by
  have digits := toOption_hexEscape cs
  rw [read] at digits
  cases same : hexDigits 0 4 cs with
  | error _ => simp [same, Except.toOption] at digits
  | ok _ => exact le_length_of_hexDigits same

/-- A step that is no fault. -/
def TextStep.sound? : TextStep → Option TextStep
  | .fault _ _ => none
  | step => some step

theorem secondHalf_other (leading : Nat) (other : ∀ rest, cs ≠ '\\' :: 'u' :: rest) :
    secondHalf (.lenientWithin room) leading cs = .lone 5 := by
  unfold secondHalf
  split
  · exact absurd rfl (other _)
  · rfl

/-- The second half of a surrogate pair ends before an item does. -/
theorem secondHalf_append (ends : EndsItem back) (leading : Nat) (cs : List Char) :
    secondHalf (.lenientWithin room) leading (cs ++ back) =
      secondHalf (.lenientWithin room) leading cs := by
  by_cases escaped : ∃ rest, cs = '\\' :: 'u' :: rest
  · obtain ⟨rest, rfl⟩ := escaped
    have same := toOption_hexEscape_append ends rest
    rw [List.cons_append, List.cons_append, secondHalf, secondHalf]
    cases whole : hexEscape (rest ++ back) <;> cases own : hexEscape rest <;>
      simp only [whole, own, Except.toOption, Option.some.injEq, reduceCtorEq] at same
    · rfl
    · subst same
      rfl
  · have other : ∀ rest, cs ++ back ≠ '\\' :: 'u' :: rest := by
      intro rest same
      match cs with
      | [] => rcases ends.cases with ⟨_, rfl⟩ | ⟨_, rfl⟩ <;> simp at same
      | [_] => rcases ends.cases with ⟨_, rfl⟩ | ⟨_, rfl⟩ <;> simp at same
      | a :: b :: more =>
        simp only [List.cons_append, List.cons.injEq] at same
        obtain ⟨rfl, rfl, -⟩ := same
        exact escaped ⟨more, rfl⟩
    rw [secondHalf_other leading other, secondHalf_other leading (not_exists.mp escaped)]

/-- An escape of one letter is read from the letter. -/
theorem sound?_escapeStep_letter {rules : Rules} (other : c ≠ 'u') (cs ds : List Char) :
    (escapeStep rules (c :: cs)).sound? = (escapeStep rules (c :: ds)).sound? := by
  by_cases known : c ∈ ['"', '\\', '/', 'b', 'f', 'n', 'r', 't']
  · simp only [List.mem_cons, List.not_mem_nil, or_false] at known
    rcases known with rfl | rfl | rfl | rfl | rfl | rfl | rfl | rfl <;> rfl
  · have unknown (cs : List Char) : escapeStep rules (c :: cs) = .fault .invalidEscape (c :: cs) := by
      unfold escapeStep
      split <;> first | rfl | simp_all
    rw [unknown, unknown]
    rfl

/-- An escape ends before an item does. -/
theorem sound?_escapeStep_append (ends : EndsItem back) (cs : List Char) :
    (escapeStep (.lenientWithin room) (cs ++ back)).sound? =
      (escapeStep (.lenientWithin room) cs).sound? := by
  cases cs with
  | nil => rcases ends.cases with ⟨rest, rfl⟩ | ⟨rest, rfl⟩ <;> rfl
  | cons c cs =>
    by_cases unit : c = 'u'
    · subst unit
      have same := toOption_hexEscape_append ends cs
      rw [List.cons_append, escapeStep, escapeStep]
      cases whole : hexEscape (cs ++ back) <;> cases own : hexEscape cs <;>
        simp only [whole, own, Except.toOption, Option.some.injEq, reduceCtorEq] at same
      · rfl
      · subst same
        have long := le_length_of_hexEscape own
        simp only [List.drop_append_of_le_length long, secondHalf_append ends]
        rfl
    · exact sound?_escapeStep_letter unit _ _

theorem sound?_textStep_append (room : Nat) (ends : EndsItem back) (c : Char) (cs : List Char) :
    (textStep (.lenientWithin room) c (cs ++ back)).sound? =
      (textStep (.lenientWithin room) c cs).sound? := by
  unfold textStep
  by_cases quote : c = '"'
  · rw [if_pos quote, if_pos quote]
  · rw [if_neg quote, if_neg quote]
    by_cases backslash : c = '\\'
    · rw [if_pos backslash, if_pos backslash, sound?_escapeStep_append ends]
    · rw [if_neg backslash, if_neg backslash]
      split <;> rfl

/-- How many further characters a step takes. -/
def TextStep.more : TextStep → Nat
  | .char _ more | .lone more => more
  | _ => 0

theorem more_secondHalf_le (room leading : Nat) (cs : List Char) :
    (secondHalf (.lenientWithin room) leading cs).more ≤ cs.length + 5 := by
  by_cases escaped : ∃ rest, cs = '\\' :: 'u' :: rest
  · obtain ⟨rest, rfl⟩ := escaped
    rw [secondHalf]
    split
    · exact Nat.le_add_left 5 _
    · rename_i trailing read
      have := le_length_of_hexEscape read
      split
      · simp only [TextStep.more, List.length_cons]
        omega
      · exact Nat.le_add_left 5 _
  · rw [secondHalf_other leading (not_exists.mp escaped)]
    exact Nat.le_add_left 5 _

theorem more_escapeStep_le (cs : List Char) :
    (escapeStep (.lenientWithin room) cs).more ≤ cs.length := by
  cases cs with
  | nil => exact Nat.le_refl 0
  | cons c cs =>
    by_cases unit : c = 'u'
    · subst unit
      rw [escapeStep]
      split
      · exact Nat.zero_le _
      · rename_i n read
        have := le_length_of_hexEscape read
        have := more_secondHalf_le room n (cs.drop 4)
        rw [List.length_drop] at this
        rw [List.length_cons]
        split_ifs
        · omega
        all_goals
          simp only [TextStep.more]
          omega
    · unfold escapeStep
      split <;> simp_all [TextStep.more]

theorem more_textStep_le (room : Nat) (c : Char) (cs : List Char) :
    (textStep (.lenientWithin room) c cs).more ≤ cs.length := by
  unfold textStep
  split_ifs
  · exact Nat.zero_le _
  · exact more_escapeStep_le cs
  · exact Nat.zero_le _
  · exact Nat.zero_le _

theorem TextStep.eq_of_sound? {step sound : TextStep} (same : step.sound? = some sound) :
    step = sound := by
  cases step <;> simp_all [TextStep.sound?]

theorem TextStep.exists_of_sound?_eq_none {step : TextStep} (same : step.sound? = none) :
    ∃ fault rest, step = .fault fault rest := by
  cases step <;> simp_all [TextStep.sound?]

theorem lt_of_sound?_readText {rules : Rules} {read : Option (List Char)} {length : Nat}
    {result : Token × Nat} (sound : sound? (readText rules read length cs) = some result) :
    length < result.2 := by
  fun_induction readText rules read length cs with
  | case1 => cases sound
  | case2 =>
    obtain rfl := Option.some.inj sound
    exact Nat.lt_succ_self _
  | case3 read length c cs d n step ih =>
    have := ih sound
    omega
  | case4 read length c cs n step ih =>
    have := ih sound
    omega
  | case5 => cases sound

/-- A text in front of the end of an item is what is read there, if that ends inside. -/
theorem sound?_readText_append (ends : EndsItem back) (read : Option (List Char)) (length : Nat)
    (cs : List Char) :
    sound? (readText (.lenientWithin room) read length cs) =
      (sound? (readText (.lenientWithin room) read length (cs ++ back))).filter
        fun result => result.2 ≤ length + cs.length := by
  have further (read : Option (List Char)) (length n : Nat) (c : Char) (cs : List Char)
      (inside : n ≤ cs.length)
      (ih : sound? (readText (.lenientWithin room) read (length + n + 1) (cs.drop n)) =
        (sound? (readText (.lenientWithin room) read (length + n + 1) (cs.drop n ++ back))).filter
          fun result => result.2 ≤ length + n + 1 + (cs.drop n).length) :
      sound? (readText (.lenientWithin room) read (length + n + 1) (cs.drop n)) =
        (sound? (readText (.lenientWithin room) read (length + n + 1) ((cs ++ back).drop n))).filter
          fun result => result.2 ≤ length + (c :: cs).length := by
    have bound : length + n + 1 + (cs.length - n) = length + (cs.length + 1) := by omega
    rw [ih, List.drop_append_of_le_length inside, List.length_drop, List.length_cons, bound]
  fun_induction readText (.lenientWithin room) read length cs with
  | case1 read length =>
    symm
    show Option.filter _ _ = none
    rw [Option.filter_eq_none_iff]
    intro result sound inside
    have := lt_of_sound?_readText sound
    simp at inside
    omega
  | case2 read length c cs step =>
    have same := sound?_textStep_append room ends c cs
    rw [step] at same
    rw [List.cons_append, readText, TextStep.eq_of_sound? same]
    simp [sound?, Option.filter]
  | case3 read length c cs d n step ih =>
    have inside := more_textStep_le room c cs
    have same := sound?_textStep_append room ends c cs
    rw [step] at same inside
    rw [List.cons_append, readText, TextStep.eq_of_sound? same]
    exact further _ length n c cs inside ih
  | case4 read length c cs n step ih =>
    have inside := more_textStep_le room c cs
    have same := sound?_textStep_append room ends c cs
    rw [step] at same inside
    rw [List.cons_append, readText, TextStep.eq_of_sound? same]
    exact further _ length n c cs inside ih
  | case5 read length c cs fault rest step =>
    have same := sound?_textStep_append room ends c cs
    rw [step] at same
    obtain ⟨fault, rest, faulty⟩ := TextStep.exists_of_sound?_eq_none same
    rw [List.cons_append, readText, faulty]
    rfl

end Texts

section Numbers

theorem takeWhile_isAsciiDigit_append (ends : EndsItem back) (cs : List Char) :
    (cs ++ back).takeWhile isAsciiDigit = cs.takeWhile isAsciiDigit := by
  rcases ends.cases with ⟨rest, rfl⟩ | ⟨rest, rfl⟩ <;>
    exact (Text.takeWhile_append_cons (by decide) cs rest).1

theorem toOption_map {ε α β : Type} (f : α → β) (result : Except ε α) :
    (result.map f).toOption = result.toOption.map f := by
  cases result <;> rfl

theorem toOption_readDigits (cs : List Char) : (readDigits cs).toOption =
    if (cs.takeWhile isAsciiDigit).isEmpty then none else some (cs.takeWhile isAsciiDigit) := by
  unfold readDigits
  cases cs.takeWhile isAsciiDigit <;> cases cs <;> rfl

theorem length_le_of_readDigits {digits : List Char} (read : readDigits cs = .ok digits) :
    digits.length ≤ cs.length := by
  have taken := toOption_readDigits cs
  rw [read] at taken
  split at taken
  · cases taken
  · rw [Option.some.inj taken]
    exact (List.takeWhile_prefix _).length_le

theorem toOption_readDigits_append (ends : EndsItem back) (cs : List Char) :
    (readDigits (cs ++ back)).toOption = (readDigits cs).toOption := by
  rw [toOption_readDigits, toOption_readDigits, takeWhile_isAsciiDigit_append ends]

theorem readFraction_other (other : c ≠ '.') (cs : List Char) :
    readFraction (c :: cs) = .ok ([], 0) := by
  unfold readFraction
  split
  · rename_i same
    exact absurd (List.cons.inj same).1 other
  · rfl

theorem toOption_readFraction_append (ends : EndsItem back) (cs : List Char) :
    (readFraction (cs ++ back)).toOption = (readFraction cs).toOption := by
  cases cs with
  | nil => rcases ends.cases with ⟨rest, rfl⟩ | ⟨rest, rfl⟩ <;> rfl
  | cons c cs =>
    by_cases point : c = '.'
    · subst point
      rw [List.cons_append, readFraction, readFraction, toOption_map, toOption_map,
        toOption_readDigits_append ends]
    · rw [List.cons_append, readFraction_other point, readFraction_other point]

theorem le_length_of_readFraction {digits : List Char} {length : Nat}
    (read : readFraction cs = .ok (digits, length)) : length ≤ cs.length := by
  unfold readFraction at read
  split at read
  · rename_i rest
    cases found : readDigits rest with
    | error => simp [found, Except.map] at read
    | ok taken =>
      have short := length_le_of_readDigits found
      simp only [found, Except.map, Except.ok.injEq, Prod.mk.injEq] at read
      rw [List.length_cons, ← read.2]
      exact Nat.succ_le_succ short
  · cases read
    exact Nat.zero_le _

/-- A text without the sign at its front. -/
def withoutSign : List Char → List Char
  | '-' :: cs => cs
  | '+' :: cs => cs
  | cs => cs

theorem withoutSign_of_ne (cs : List Char) (minus : c ≠ '-') (plus : c ≠ '+') :
    withoutSign (c :: cs) = c :: cs := by
  unfold withoutSign
  split <;> simp_all

/-- An exponent is read from the digits behind its sign. -/
theorem exists_readExponent (mark : c = 'e' ∨ c = 'E') (cs : List Char) :
    ∃ f : List Char → Option Int × Nat, (∀ digits, 0 < (f digits).2) ∧
      ∀ back, back = [] ∨ EndsItem back →
        readExponent (c :: (cs ++ back)) = (readDigits (withoutSign cs ++ back)).map f := by
  have signed (negative : Bool) (signLength : Nat) : ∀ digits : List Char,
      0 < (some (if negative then -(Text.digitsValue digits : Int) else Text.digitsValue digits),
        digits.length + signLength + 1).2 := fun digits => Nat.succ_pos _
  unfold readExponent
  cases cs with
  | nil =>
    refine ⟨_, signed false 0, fun back ends => (if_pos mark).trans ?_⟩
    rcases ends with rfl | ends
    · rfl
    · rcases ends.cases with ⟨rest, rfl⟩ | ⟨rest, rfl⟩ <;> rfl
  | cons d cs =>
    by_cases minus : d = '-'
    · subst minus
      exact ⟨_, signed true 1, fun back _ => if_pos mark⟩
    by_cases plus : d = '+'
    · subst plus
      exact ⟨_, signed false 1, fun back _ => if_pos mark⟩
    refine ⟨_, signed false 0, fun back _ => (if_pos mark).trans ?_⟩
    rw [withoutSign_of_ne cs minus plus]
    split
    · rename_i same
      exact absurd (List.cons.inj same).1 minus
    · rename_i same
      exact absurd (List.cons.inj same).1 plus
    · rfl

theorem readExponent_other (other : ¬ (c = 'e' ∨ c = 'E')) (cs : List Char) :
    readExponent (c :: cs) = .ok (none, 0) := by
  unfold readExponent
  exact if_neg other

theorem toOption_readExponent_append (ends : EndsItem back) (cs : List Char) :
    (readExponent (cs ++ back)).toOption = (readExponent cs).toOption := by
  match cs with
  | [] => rcases ends.cases with ⟨rest, rfl⟩ | ⟨rest, rfl⟩ <;> rfl
  | c :: cs =>
    by_cases marks : c = 'e' ∨ c = 'E'
    · obtain ⟨f, -, read⟩ := exists_readExponent marks cs
      have alone := read [] (.inl rfl)
      rw [List.append_nil, List.append_nil] at alone
      rw [List.cons_append, read back (.inr ends), alone, toOption_map, toOption_map,
        toOption_readDigits_append ends]
    · rw [List.cons_append, readExponent_other marks, readExponent_other marks]

/-- Whether a digit stands at the front of a text. -/
def startsDigit (cs : List Char) : Bool :=
  (cs.head?.map isAsciiDigit).getD false

theorem startsDigit_append (ends : EndsItem back) (cs : List Char) :
    startsDigit (cs ++ back) = startsDigit cs := by
  cases cs with
  | nil => rcases ends.cases with ⟨rest, rfl⟩ | ⟨rest, rfl⟩ <;> rfl
  | cons c cs => rfl

theorem startsFraction_point (cs : List Char) : startsFraction ('.' :: cs) = startsDigit cs := by
  cases cs <;> rfl

theorem startsFraction_other (other : c ≠ '.') (cs : List Char) : startsFraction (c :: cs) = false := by
  unfold startsFraction
  split
  · rename_i same
    exact absurd (List.cons.inj same).1 other
  · rfl

theorem startsFraction_append (ends : EndsItem back) (cs : List Char) :
    startsFraction (cs ++ back) = startsFraction cs := by
  cases cs with
  | nil => rcases ends.cases with ⟨rest, rfl⟩ | ⟨rest, rfl⟩ <;> rfl
  | cons c cs =>
    by_cases point : c = '.'
    · subst point
      rw [List.cons_append, startsFraction_point, startsFraction_point, startsDigit_append ends]
    · rw [List.cons_append, startsFraction_other point, startsFraction_other point]

theorem toOption_readScale (cs : List Char) : (readScale cs).toOption =
    (readFraction cs).toOption.bind fun fraction =>
      (readExponent (cs.drop fraction.2)).toOption.map fun exponent =>
        (fraction.1, exponent.1, fraction.2 + exponent.2) := by
  unfold readScale
  cases readFraction cs with
  | error => rfl
  | ok fraction =>
    show (bind (readExponent (cs.drop fraction.2)) _).toOption = _
    cases exponent : readExponent (cs.drop fraction.2) with
    | error => simp [exponent, Except.toOption, bind, Except.bind]
    | ok read =>
      simp [exponent, Except.toOption, bind, Except.bind]
      rfl

theorem toOption_readScale_append (ends : EndsItem back) (cs : List Char) :
    (readScale (cs ++ back)).toOption = (readScale cs).toOption := by
  rw [toOption_readScale, toOption_readScale, toOption_readFraction_append ends]
  cases fraction : readFraction cs with
  | error => rfl
  | ok fraction =>
    have inside := le_length_of_readFraction fraction
    show Option.map _ _ = Option.map _ _
    rw [List.drop_append_of_le_length inside, toOption_readExponent_append ends]

/-- A number whose whole part is known ends before an item does. -/
theorem sound?_readNumber_append (ends : EndsItem back) (negative : Bool) (start whole : List Char)
    (inside : whole.length + (if negative then 1 else 0) ≤ start.length) :
    sound? (readNumber (.lenientWithin room) negative (start ++ back) whole) =
      sound? (readNumber (.lenientWithin room) negative start whole) := by
  have scale := toOption_readScale_append ends
    (start.drop (whole.length + if negative then 1 else 0))
  have fraction := startsFraction_append ends (start.drop (whole.length + if negative then 1 else 0))
  rw [← List.drop_append_of_le_length inside] at scale fraction
  have lenient : (Rules.lenientWithin room).refusesLongIntegers = false := rfl
  unfold readNumber
  simp only [lenient, Bool.false_and, Bool.false_eq_true, if_false, fraction]
  cases own : readScale (start.drop (whole.length + if negative then 1 else 0)) with
  | error wrong =>
    cases other : readScale ((start ++ back).drop (whole.length + if negative then 1 else 0)) with
    | error =>
      by_cases long : maxIntegerDigits < whole.length
      · cases startsFraction (start.drop (whole.length + if negative then 1 else 0)) <;>
          simp [long, sound?]
      · simp [long, sound?]
    | ok => simp [own, other, Except.toOption] at scale
  | ok read =>
    cases other : readScale ((start ++ back).drop (whole.length + if negative then 1 else 0)) with
    | error => simp [own, other, Except.toOption] at scale
    | ok same =>
      simp only [own, other, Except.toOption, Option.some.injEq] at scale
      subst scale
      obtain ⟨digits, exponent, _ | length⟩ := same
      · by_cases long : maxIntegerDigits < whole.length <;> simp [long, sound?]
      · rfl

/-- What the reader takes for a sign, digits or a word, where no text begins. -/
theorem sound?_readWord_append (ends : EndsItem back) (value : Json) (length : Nat)
    {word : List Char} (plain : ∀ c ∈ [',', ']'], c ∉ word) (cs : List Char) :
    sound? (readWord value length word (cs ++ back)) = sound? (readWord value length word cs) := by
  induction word generalizing length cs with
  | nil => rfl
  | cons w word ih =>
    have later : ∀ c ∈ [',', ']'], c ∉ word :=
      fun c mark among => plain c mark (List.mem_cons_of_mem w among)
    cases cs with
    | nil =>
      obtain ⟨c, rest, rfl, mark⟩ := ends
      have other : w ≠ c := fun same => plain c mark (same ▸ List.mem_cons_self)
      show sound? (if w = c then _ else _) = none
      rw [if_neg other]
      rfl
    | cons c cs =>
      rw [List.cons_append, readWord, readWord]
      split
      · exact ih (length + 1) later cs
      · rfl

theorem readSigned_digits {rules : Rules} {negative : Bool} {start : List Char} (infinite : c ≠ 'I')
    (zero : c ≠ '0') (cs : List Char) : readSigned rules negative start (c :: cs) =
      if ((c :: cs).takeWhile isAsciiDigit).isEmpty then (.fault .invalidNumber (c :: cs) false, 0)
      else readNumber rules negative start ((c :: cs).takeWhile isAsciiDigit) := by
  unfold readSigned
  split
  · rename_i same
    cases same
  · rename_i same
    exact absurd (List.cons.inj same).1 infinite
  · rename_i same
    exact absurd (List.cons.inj same).1 zero
  · cases (c :: cs).takeWhile isAsciiDigit <;> rfl

/-- A number ends before an item does; `start` holds its sign too. -/
theorem sound?_readSigned_append (ends : EndsItem back) (negative : Bool) (start cs : List Char)
    (inside : start.length = cs.length + if negative then 1 else 0) :
    sound? (readSigned (.lenientWithin room) negative (start ++ back) (cs ++ back)) =
      sound? (readSigned (.lenientWithin room) negative start cs) := by
  cases cs with
  | nil => rcases ends.cases with ⟨rest, rfl⟩ | ⟨rest, rfl⟩ <;> rfl
  | cons c cs =>
    by_cases infinite : c = 'I'
    · subst infinite
      exact sound?_readWord_append ends _ _ (by simp) cs
    by_cases zero : c = '0'
    · subst zero
      have digit : (((cs ++ back).head?.map isAsciiDigit).getD false) = (cs.head?.map isAsciiDigit).getD false :=
        startsDigit_append ends cs
      rw [List.cons_append, readSigned, readSigned, digit]
      split
      · rfl
      · exact sound?_readNumber_append ends negative start ['0'] (by simp [inside])
    · have taken := takeWhile_isAsciiDigit_append ends (c :: cs)
      have short : ((c :: cs).takeWhile isAsciiDigit).length ≤ (c :: cs).length :=
        (List.takeWhile_prefix _).length_le
      rw [List.cons_append] at taken ⊢
      rw [readSigned_digits infinite zero, readSigned_digits infinite zero, taken]
      split
      · rfl
      · exact sound?_readNumber_append ends negative start _ (by omega)

end Numbers

section Tokens

/-- A token that is no text ends before an item does. -/
theorem sound?_readToken_append (ends : EndsItem back) (other : c ≠ '"') (cs : List Char) :
    sound? (readToken (.lenientWithin room) c (cs ++ back)) =
      sound? (readToken (.lenientWithin room) c cs) := by
  cases tokenKind (.lenientWithin room) c with
  | text quote => exact absurd quote other
  | mark token among read => rw [read, read]
  | word value word _ plain read => rw [read, read, sound?_readWord_append ends value 1 plain]
  | negative _ read =>
    rw [read, read]
    exact sound?_readSigned_append ends true (c :: cs) cs rfl
  | number read =>
    rw [read, read]
    exact sound?_readSigned_append ends false (c :: cs) (c :: cs) rfl
  | unknown read =>
    rw [read, read]
    rfl

theorem sound?_readToken_quote {rules : Rules} (cs : List Char) : sound? (readToken rules '"' cs) =
    (sound? (readText rules (some []) 0 cs)).map fun read => (read.1, read.2 + 1) := by
  show sound? ((readText rules (some []) 0 cs).1, (readText rules (some []) 0 cs).2 + 1) = _
  obtain ⟨token, length⟩ := readText rules (some []) 0 cs
  cases token <;> rfl

/-- A sound token that ends inside a text is read alike from that text alone. -/
theorem readToken_of_append (ends : EndsItem back) {token : Token} {length : Nat}
    (read : sound? (readToken (.lenientWithin room) c (cs ++ back)) = some (token, length))
    (inside : length ≤ cs.length + 1) :
    sound? (readToken (.lenientWithin room) c cs) = some (token, length) := by
  by_cases quote : c = '"'
  · subst quote
    rw [sound?_readToken_quote] at read ⊢
    obtain ⟨whole, found, same⟩ := Option.map_eq_some_iff.mp read
    have within : whole.2 ≤ 0 + cs.length := by
      rw [Prod.mk.injEq] at same
      omega
    rw [sound?_readText_append ends, found, Option.filter, if_pos (decide_eq_true within),
      Option.map_some, same]
  · rw [← sound?_readToken_append ends quote, read]

/-- A sound token of a text alone is read alike in front of the end of an item. -/
theorem readToken_append (ends : EndsItem back) {token : Token} {length : Nat}
    (read : sound? (readToken (.lenientWithin room) c cs) = some (token, length)) :
    sound? (readToken (.lenientWithin room) c (cs ++ back)) = some (token, length) := by
  by_cases quote : c = '"'
  · subst quote
    rw [sound?_readToken_quote] at read ⊢
    rw [sound?_readText_append ends] at read
    obtain ⟨own, found, same⟩ := Option.map_eq_some_iff.mp read
    rw [(Option.filter_eq_some_iff.mp found).1, Option.map_some, same]
  · rw [sound?_readToken_append ends quote, read]

end Tokens

end ReportQuery.Json

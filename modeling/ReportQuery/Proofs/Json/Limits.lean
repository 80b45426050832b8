import ReportQuery.Proofs.Json.LongInteger
import ReportQuery.Proofs.Json.Pieces

set_option autoImplicit false
set_option relaxedAutoImplicit false

/-!
The limits of the lenient reader, told from the text: an integer with too many digits, or a container for
which there is no room, where a value may begin.
-/

namespace ReportQuery.Json

variable {room : Nat} {text : List Char}

/-- A container begins the text. -/
def StartsContainer (cs : List Char) : Prop :=
  ∃ rest, cs = '[' :: rest ∨ cs = '\x7b' :: rest

/-- The text is well-formed up to a place where a value may begin, and there an integer with too many
digits begins, or a container though as many are open as there is room for. -/
def MeetsLimit (room : Nat) (text : List Char) : Prop :=
  ∃ front lexeme rest left, lexemes (.lenientWithin room) text = front ++ lexeme :: rest ∧
    Opens room left (front.map Lexeme.token) ∧
    ((∃ digits, StartsLongInteger digits lexeme.start) ∨ left = 0 ∧ StartsContainer lexeme.start)

/-- What is beyond a limit is told from the characters with which a token begins. -/
theorem isBeyond_iff {front rest : List Lexeme} {lexeme : Lexeme} {left : Nat}
    (split : lexemes (.lenientWithin room) text = front ++ lexeme :: rest) :
    IsBeyond left lexeme.token ↔
      (∃ digits, StartsLongInteger digits lexeme.start) ∨ left = 0 ∧ StartsContainer lexeme.start := by
  obtain ⟨-, c, cs, start, read⟩ := suffix_of_lexemes split
  have limits : (∃ fault place inText, lexeme.token = .fault fault place inText ∧ fault.isLimit) ↔
      ∃ digits, StartsLongInteger digits lexeme.start := by
    rw [← read, start]
    constructor
    · rintro ⟨fault, place, inText, same, limit⟩
      obtain ⟨digits, starts, -⟩ :=
        limit?_readToken_iff.mp (limit?_eq_some_iff.mpr ⟨limit, place, inText, same⟩)
      exact ⟨digits, starts⟩
    · rintro ⟨digits, starts⟩
      obtain ⟨limit, place, inText, same⟩ :=
        limit?_eq_some_iff.mp (limit?_readToken_iff.mpr ⟨digits, starts, rfl⟩)
      exact ⟨_, place, inText, same, limit⟩
  have containers : (lexeme.token = .openArray ∨ lexeme.token = .openObject) ↔
      StartsContainer lexeme.start := by
    constructor
    · rintro (token | token)
      · obtain ⟨rest, same⟩ := start_of_mark (c := '[') split (by simp [token, markTokens])
        exact ⟨rest, .inl same⟩
      · obtain ⟨rest, same⟩ := start_of_mark (c := '\x7b') split (by simp [token, markTokens])
        exact ⟨rest, .inr same⟩
    · rintro ⟨rest, same | same⟩ <;> rw [start] at same <;> obtain ⟨rfl, rfl⟩ := List.cons.inj same
      · exact .inl read.symm
      · exact .inr read.symm
  rw [IsBeyond, limits, containers, or_comm]

/-- The reader gives up at a limit exactly if the text meets one. -/
theorem read_limit_iff_meetsLimit :
    (∃ failure, read (.lenientWithin room) text = .error failure ∧ failure.fault.isLimit) ↔
      MeetsLimit room text := by
  rw [read_limit_iff]
  constructor
  · rintro ⟨front, token, rest, split, left, opens, beyond⟩
    obtain ⟨before, others, whole, rfl, same⟩ := List.map_eq_append_iff.mp split
    obtain ⟨lexeme, others, rfl, rfl, rfl⟩ := List.map_eq_cons_iff.mp same
    exact ⟨before, lexeme, others, left, whole, opens, (isBeyond_iff whole).mp beyond⟩
  · rintro ⟨front, lexeme, rest, left, split, opens, beyond⟩
    refine ⟨front.map Lexeme.token, lexeme.token, rest.map Lexeme.token, ?_, left, opens,
      (isBeyond_iff split).mpr beyond⟩
    rw [tokensOf, split, List.map_append, List.map_cons]

end ReportQuery.Json

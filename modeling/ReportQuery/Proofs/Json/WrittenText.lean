import ReportQuery.Json.Printer
import ReportQuery.Json.Token

set_option autoImplicit false
set_option relaxedAutoImplicit false

/-!
Texts that were written between quotes read back, whatever characters they hold and whatever
follows.
-/

namespace ReportQuery.Json

open Text (hexDigit lastHexDigits)

section Hexadecimal

private theorem hexDigit?_hexDigit {d : Nat} (small : d < 16) :
    hexDigit? (hexDigit d) = some d := by
  have all : ∀ d < 16, hexDigit? (hexDigit d) = some d := by decide
  exact all d small

private theorem length_lastHexDigits (n count : Nat) : (lastHexDigits n count).length = count := by
  induction count generalizing n with
  | zero => rfl
  | succ count ih => rw [lastHexDigits, List.length_append, ih, List.length_singleton]

/-- One digit more behind digits that are read whatever follows them. -/
private theorem hexDigits_concat {value d result : Nat} {digits : List Char} (rest : List Char)
    (small : d < 16) (read : ∀ rest, hexDigits value digits.length (digits ++ rest) = .ok result) :
    hexDigits value (digits.length + 1) (digits ++ hexDigit d :: rest) = .ok (16 * result + d) := by
  induction digits generalizing value with
  | nil =>
    obtain rfl : value = result := Except.ok.inj (read [])
    rw [List.nil_append, List.length_nil, hexDigits, hexDigit?_hexDigit small]
    rfl
  | cons c cs ih =>
    rw [List.cons_append, List.length_cons, hexDigits]
    cases known : hexDigit? c with
    | none =>
      have failed := read []
      rw [List.cons_append, List.length_cons, hexDigits, known] at failed
      cases failed
    | some e =>
      refine ih fun rest => ?_
      have here := read rest
      rwa [List.cons_append, List.length_cons, hexDigits, known] at here

/-- How many numbers can be written with so many hexadecimal digits. -/
def hexRange : Nat → Nat
  | 0 => 1
  | count + 1 => 16 * hexRange count

theorem hexDigits_lastHexDigits (n count : Nat) (rest : List Char) :
    hexDigits 0 count (lastHexDigits n count ++ rest) = .ok (n % hexRange count) := by
  induction count generalizing n rest with
  | zero => simp [hexDigits, hexRange, Nat.mod_one]
  | succ count ih =>
    have read : ∀ rest, hexDigits 0 (lastHexDigits (n / 16) count).length
        (lastHexDigits (n / 16) count ++ rest) = .ok (n / 16 % hexRange count) := by
      rw [length_lastHexDigits]
      exact ih (n / 16)
    have front := hexDigits_concat rest (Nat.mod_lt n (by decide)) read
    rw [length_lastHexDigits] at front
    rw [lastHexDigits, List.append_assoc, List.singleton_append, front, hexRange, Nat.mod_mul]
    congr 1
    omega

end Hexadecimal

private theorem textStep_backslash (rules : Rules) (cs : List Char) :
    textStep rules '\\' cs = escapeStep rules cs := rfl

/-- A character that was written is one step through the text, whatever follows. -/
theorem textStep_writeChar (rules : Rules) (c : Char) (rest : List Char) :
    ∃ first more, writeChar .unicode c = first :: more ∧
      textStep rules first (more ++ rest) = .char c more.length := by
  by_cases quote : c = '"'
  · subst quote
    exact ⟨'\\', ['"'], rfl, rfl⟩
  by_cases backslash : c = '\\'
  · subst backslash
    exact ⟨'\\', ['\\'], rfl, rfl⟩
  by_cases lineFeed : c = '\n'
  · subst lineFeed
    exact ⟨'\\', ['n'], rfl, rfl⟩
  by_cases carriageReturn : c = '\r'
  · subst carriageReturn
    exact ⟨'\\', ['r'], rfl, rfl⟩
  by_cases tab : c = '\t'
  · subst tab
    exact ⟨'\\', ['t'], rfl, rfl⟩
  by_cases backspace : c = '\x08'
  · subst backspace
    exact ⟨'\\', ['b'], rfl, rfl⟩
  by_cases formFeed : c = '\x0c'
  · subst formFeed
    exact ⟨'\\', ['f'], rfl, rfl⟩
  rw [writeChar, if_neg quote, if_neg backslash, if_neg lineFeed, if_neg carriageReturn, if_neg tab,
    if_neg backspace, if_neg formFeed]
  by_cases control : c.toNat < 0x20
  · rw [if_pos control]
    refine ⟨'\\', 'u' :: lastHexDigits c.toNat 4, rfl, ?_⟩
    have read := hexDigits_lastHexDigits c.toNat 4 rest
    have four : hexRange 4 = 0x10000 := rfl
    rw [four, Nat.mod_eq_of_lt (by omega)] at read
    have small : c.toNat < 0xD800 := by omega
    rw [textStep_backslash, List.cons_append, escapeStep_unit small (length_lastHexDigits _ 4) read,
      Char.ofNat_toNat, List.length_cons, length_lastHexDigits]
  · rw [if_neg control]
    refine ⟨c, [], rfl, ?_⟩
    rw [textStep, if_neg quote, if_neg backslash, if_neg control, List.length_nil]

/-- Reading goes over the characters of a text and stops behind its closing quote. -/
theorem readText_written (rules : Rules) (read text : List Char) (length : Nat) (rest : List Char) :
    readText rules (some read) length (text.flatMap (writeChar .unicode) ++ '"' :: rest) =
      (.text (some (String.ofList (read.reverse ++ text))),
        length + (text.flatMap (writeChar .unicode)).length + 1) := by
  induction text generalizing read length with
  | nil => simp [readText, textStep]
  | cons c cs ih =>
    obtain ⟨first, more, written, step⟩ := textStep_writeChar rules c
      (cs.flatMap (writeChar .unicode) ++ '"' :: rest)
    rw [List.flatMap_cons, written, List.append_assoc, List.cons_append, readText, step]
    dsimp only
    rw [List.drop_left, Option.map_some, ih]
    simp
    omega

end ReportQuery.Json

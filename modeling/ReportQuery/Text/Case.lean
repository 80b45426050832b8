import ReportQuery.Text.CaseTable
import ReportQuery.Text.Character

set_option autoImplicit false
set_option relaxedAutoImplicit false

/-!
Lower and upper case of whole texts, by Unicode's full mappings: one character may become several,
and a capital sigma at the end of a word becomes the final form.
-/

namespace ReportQuery.Text

open CaseTable (CaseRun)

/-- Whether the code point lies on the run. -/
def CaseTable.CaseRun.holds (run : CaseRun) (n : Nat) : Bool :=
  run.first ≤ n && n ≤ run.last && (n - run.first) % run.step == 0

/-- The mapping of one character beyond ASCII: an expansion, a shift, or itself. -/
private def mapBeyondAscii (expansions : List (Nat × List Nat)) (runs : List CaseRun) (c : Char) :
    List Char :=
  match expansions.lookup c.toNat with
  | some codes => codes.map Char.ofNat
  | none =>
    match runs.find? (·.holds c.toNat) with
    | some run => [Char.ofNat (c.toNat + run.shift).toNat]
    | none => [c]

/-- The lower case of one character, looked at alone. -/
def lowerChar (c : Char) : List Char :=
  if c.toNat < 0x80 then [if 'A' ≤ c && c ≤ 'Z' then Char.ofNat (c.toNat + 0x20) else c]
  else mapBeyondAscii CaseTable.lowerExpansions CaseTable.lowerRuns c

/-- The upper case of one character. -/
def upperChar (c : Char) : List Char :=
  if c.toNat < 0x80 then [if 'a' ≤ c && c ≤ 'z' then Char.ofNat (c.toNat - 0x20) else c]
  else mapBeyondAscii CaseTable.upperExpansions CaseTable.upperRuns c

/-- The lower-case letters of ASCII, whose upper case does not stand in the tables. -/
def asciiLetterRun : CaseRun := ⟨0x61, 0x7A, 1, -0x20⟩

private theorem mapBeyondAscii_cases (expansions : List (Nat × List Nat)) (runs : List CaseRun)
    (c : Char) :
    (∃ codes, (c.toNat, codes) ∈ expansions ∧
      mapBeyondAscii expansions runs c = codes.map Char.ofNat) ∨
    (∃ run ∈ runs, run.holds c.toNat ∧
      mapBeyondAscii expansions runs c = [Char.ofNat (c.toNat + run.shift).toNat]) ∨
    mapBeyondAscii expansions runs c = [c] := by
  unfold mapBeyondAscii
  split
  · rename_i codes found
    obtain ⟨before, behind, whole, -⟩ := List.lookup_eq_some_iff.mp found
    exact .inl ⟨codes, by rw [whole]; exact List.mem_append_right before List.mem_cons_self, rfl⟩
  · split
    · rename_i run found
      have holds : run.holds c.toNat := by simpa using List.find?_some found
      exact .inr (.inl ⟨run, List.mem_of_find?_eq_some found, holds, rfl⟩)
    · exact .inr (.inr rfl)

/-- The upper case of a character is an expansion of the table, lies on a run moved by its shift, or
is the character itself. -/
theorem upperChar_cases (c : Char) :
    (∃ codes, (c.toNat, codes) ∈ CaseTable.upperExpansions ∧ upperChar c = codes.map Char.ofNat) ∨
    (∃ run ∈ asciiLetterRun :: CaseTable.upperRuns, run.holds c.toNat ∧
      upperChar c = [Char.ofNat (c.toNat + run.shift).toNat]) ∨
    upperChar c = [c] := by
  unfold upperChar
  split
  · split
    · rename_i letter
      obtain ⟨first, last⟩ : 0x61 ≤ c.toNat ∧ c.toNat ≤ 0x7A := by
        simpa [Char.le_def, UInt32.le_iff_toNat_le] using letter
      refine .inr (.inl ⟨asciiLetterRun, List.mem_cons_self, ?_, ?_⟩)
      · simp [CaseTable.CaseRun.holds, asciiLetterRun, first, last, Nat.mod_one]
      · have shifted : (c.toNat + asciiLetterRun.shift : Int).toNat = c.toNat - 0x20 := by
          simp only [asciiLetterRun]
          omega
        rw [shifted]
    · exact .inr (.inr rfl)
  · rcases mapBeyondAscii_cases CaseTable.upperExpansions CaseTable.upperRuns c with
      expansion | ⟨run, member, moved⟩ | same
    · exact .inl expansion
    · exact .inr (.inl ⟨run, List.mem_cons_of_mem _ member, moved⟩)
    · exact .inr (.inr same)

/-- Characters that do not count as neighbours of a capital sigma. -/
def isSkippedBesideSigma (c : Char) : Bool :=
  c == '\'' || c == '.' || c == ':' || c == '^' || c.toNat == 0x60 ||
    CaseTable.skippedRanges.any fun (first, last) => first ≤ c.toNat && c.toNat ≤ last

/-- Characters that have case, the skipped ones aside. -/
def isCased (c : Char) : Bool :=
  isAsciiLetter c ||
    CaseTable.casedRanges.any fun (first, last) => first ≤ c.toNat && c.toNat ≤ last

/-- Whether the nearest neighbour that is not skipped has case. -/
def hasCasedNeighbour (neighbours : List Char) : Bool :=
  match neighbours.dropWhile isSkippedBesideSigma with
  | [] => false
  | c :: _ => isCased c

/-- The lower case of a text; `before` holds the characters already passed, nearest first. -/
private def lowerAfter (before : List Char) : List Char → List Char
  | [] => []
  | c :: cs =>
    (if c == 'Σ' then
      [if hasCasedNeighbour before && !hasCasedNeighbour cs then 'ς' else 'σ']
    else lowerChar c) ++ lowerAfter (c :: before) cs

/-- The lower case of a text. -/
def lowerChars (cs : List Char) : List Char :=
  lowerAfter [] cs

/-- The upper case of a text. -/
def upperChars (cs : List Char) : List Char :=
  cs.flatMap upperChar

/-- A statement about ASCII characters is checked code by code. -/
theorem forall_ascii {P : Char → Prop} (codes : ∀ n < 0x80, P (Char.ofNat n)) :
    ∀ c : Char, c.toNat < 0x80 → P c := by
  intro c small
  have here := codes c.toNat small
  rwa [Char.ofNat_toNat] at here

/-- In ASCII every character has its lower case by itself. -/
theorem lowerChars_of_ascii {cs : List Char} (ascii : ∀ c ∈ cs, c.toNat < 0x80) :
    lowerChars cs = cs.map Char.toLower := by
  have one : ∀ c : Char, c.toNat < 0x80 → lowerChar c = [c.toLower] :=
    forall_ascii (by decide +kernel)
  have general : ∀ before, lowerAfter before cs = cs.map Char.toLower := by
    induction cs with
    | nil => exact fun before => rfl
    | cons c cs ih =>
      intro before
      obtain ⟨small, others⟩ := List.forall_mem_cons.mp ascii
      have plain : ¬ (c == 'Σ') = true := by
        intro sigma
        rw [eq_of_beq sigma] at small
        exact absurd small (by decide)
      rw [lowerAfter, if_neg plain, one c small, ih others, List.map_cons, List.singleton_append]
  exact general []

/-- No character vanishes in lower case. -/
theorem lowerChar_ne_nil (c : Char) : lowerChar c ≠ [] := by
  unfold lowerChar
  split
  · simp
  · rcases mapBeyondAscii_cases CaseTable.lowerExpansions CaseTable.lowerRuns c with
      ⟨codes, member, expanded⟩ | ⟨run, -, -, moved⟩ | same
    · rw [expanded, (Prod.mk.inj (List.mem_singleton.mp member)).2]
      simp
    · simp [moved]
    · simp [same]

/-- The lower case of a text is as long as those of its characters together: every form of a sigma is
one character. -/
theorem length_lowerChars (cs : List Char) :
    (lowerChars cs).length = (cs.flatMap lowerChar).length := by
  have general : ∀ before, (lowerAfter before cs).length = (cs.flatMap lowerChar).length := by
    induction cs with
    | nil => exact fun before => rfl
    | cons c cs ih =>
      intro before
      rw [lowerAfter, List.length_append, ih, List.flatMap_cons, List.length_append]
      split
      · rename_i sigma
        rw [eq_of_beq sigma]
        rfl
      · rfl
  exact general []

/-- In ASCII every character has its upper case by itself. -/
theorem upperChars_of_ascii {cs : List Char} (ascii : ∀ c ∈ cs, c.toNat < 0x80) :
    upperChars cs = cs.map Char.toUpper := by
  have one : ∀ c : Char, c.toNat < 0x80 → upperChar c = [c.toUpper] :=
    forall_ascii (by decide +kernel)
  induction cs with
  | nil => rfl
  | cons c cs ih =>
    obtain ⟨small, others⟩ := List.forall_mem_cons.mp ascii
    rw [upperChars, List.flatMap_cons, one c small, ← upperChars, ih others, List.map_cons,
      List.singleton_append]

/-- The lower case of a string. Names are compared by it wherever case is ignored. -/
def lower (s : String) : String :=
  String.ofList (lowerChars s.toList)

/-- The upper case of a string. -/
def upper (s : String) : String :=
  String.ofList (upperChars s.toList)

private def onRun (n : Nat) : Nat × Nat × Nat → Bool
  | (first, last, step) => first ≤ n && n ≤ last && (n - first) % step == 0

/-- A lower-case character. -/
def isLowercase (c : Char) : Bool :=
  ('a' ≤ c && c ≤ 'z') || CaseTable.lowercaseRuns.any (onRun c.toNat)

/-- An upper-case or title-case character. -/
def isCapital (c : Char) : Bool :=
  ('A' ≤ c && c ≤ 'Z') || CaseTable.capitalRuns.any (onRun c.toNat)

/-- A text all in lower case: it has a lower-case character and no capital. -/
def isLowercaseText (cs : List Char) : Bool :=
  cs.any isLowercase && !cs.any isCapital

end ReportQuery.Text

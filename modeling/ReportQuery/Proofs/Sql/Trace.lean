import Mathlib.Data.List.Infix
import Mathlib.Data.List.Nodup
import Mathlib.Tactic.Common
import ReportQuery.Proofs.Text.Scan
import ReportQuery.Proofs.Text.Quoted
import ReportQuery.Sql.Code

set_option autoImplicit false
set_option relaxedAutoImplicit false

/-!
Where the characters of a stripped text come from. Each pass of stripping is followed on characters
that know their place in the text at the start. A pass never adds a place, and what a match covers
is gone for good.
-/

namespace ReportQuery.Sql

open Text (Piece Matcher pieces replaceAll flatMap_source_pieces exists_of_found_mem
  Quoted.segment?_eq_some)

/-- A character on its way through the passes: one of the text, or the blank for a match. -/
inductive Traced where
  | kept (c : Char) (place : Nat)
  | blank (place : Nat)
deriving Repr, DecidableEq

namespace Traced

def char : Traced → Char
  | kept c _ => c
  | blank _ => ' '

/-- The place of the character, or the first place of the match that the blank stands for. -/
def place : Traced → Nat
  | kept _ i => i
  | blank i => i

end Traced

/-- The characters of a text with their places, the first one being `start`. -/
def trace (start : Nat) : List Char → List Traced
  | [] => []
  | c :: cs => .kept c start :: trace (start + 1) cs

/-- What becomes of the characters that a piece covers. -/
def regroupPiece (merge : List Traced → List Traced) : Piece Unit → List Traced → List Traced
  | .plain _, ts => ts
  | .found _ _, ts => merge ts

/-- Pieces of a text laid out on its traced characters, each match put through `merge`. -/
def regroup (merge : List Traced → List Traced) : List (Piece Unit) → List Traced → List Traced
  | [], _ => []
  | piece :: ps, ts =>
    regroupPiece merge piece (ts.take piece.source.length) ++
      regroup merge ps (ts.drop piece.source.length)

/-- One pass over a traced text. -/
def pass (matcher : Matcher Unit) (merge : List Traced → List Traced) (ts : List Traced) :
    List Traced :=
  regroup merge (pieces matcher none (ts.map Traced.char)) ts

/-- A match becomes one blank. -/
def toBlank : List Traced → List Traced
  | [] => []
  | t :: _ => [.blank t.place]

/-- Of a match only the first and the last character stay. -/
def toEnds : List Traced → List Traced
  | t :: u :: rest => [t, (u :: rest).getLast (by simp)]
  | ts => ts

@[simp] theorem toEnds_cons_concat (first : Traced) (mid : List Traced) (last : Traced) :
    toEnds (first :: (mid ++ [last])) = [first, last] := by
  cases mid with
  | nil => rfl
  | cons t ts => simp [toEnds]

/-- Stripping, followed character by character: block comments, line comments, then literals. -/
def tracedStrip (text : List Char) : List Traced :=
  pass (quotedSegment '\'') toEnds (pass lineComment toBlank (pass blockComment toBlank
    (trace 0 text)))

variable {matcher : Matcher Unit} {merge : List Traced → List Traced} {ps qs : List (Piece Unit)}
  {ts us : List Traced} {start i : Nat}

@[simp] theorem map_char_trace (start : Nat) (cs : List Char) :
    (trace start cs).map Traced.char = cs := by
  induction cs generalizing start with
  | nil => rfl
  | cons c cs ih => simp [trace, ih, Traced.char]

@[simp] theorem length_trace (start : Nat) (cs : List Char) : (trace start cs).length = cs.length := by
  rw [← List.length_map Traced.char, map_char_trace]

theorem trace_append (start : Nat) (front back : List Char) :
    trace start (front ++ back) = trace start front ++ trace (start + front.length) back := by
  induction front generalizing start with
  | nil => rfl
  | cons c cs ih =>
    rw [List.cons_append, trace, trace, ih, List.cons_append, List.length_cons]
    congr 3
    omega

section Shown

/-- The characters that a regrouped text shows. -/
theorem map_char_regroup {f : List Char → Unit → List Char}
    (shows : ∀ source, .found source () ∈ ps → ∀ part : List Traced, part.map Traced.char = source →
      (merge part).map Traced.char = f source ())
    (whole : ts.map Traced.char = ps.flatMap Piece.source) :
    (regroup merge ps ts).map Traced.char = ps.flatMap (·.replaced f) := by
  induction ps generalizing ts with
  | nil => rfl
  | cons piece ps ih =>
    have later := fun source member => shows source (List.mem_cons_of_mem piece member)
    rw [List.flatMap_cons] at whole
    have front : (ts.take piece.source.length).map Traced.char = piece.source := by
      rw [List.map_take, whole, List.take_left]
    have back : (ts.drop piece.source.length).map Traced.char = ps.flatMap Piece.source := by
      rw [List.map_drop, whole, List.drop_left]
    cases piece with
    | plain c =>
      rw [regroup, List.map_append, ih later back, List.flatMap_cons]
      exact congrArg (· ++ _) front
    | found source value =>
      rw [regroup, List.map_append, ih later back, List.flatMap_cons]
      exact congrArg (· ++ _) (shows source List.mem_cons_self _ front)

private theorem map_char_pass {f : List Char → Unit → List Char}
    (shows : ∀ source, .found source () ∈ pieces matcher none (ts.map Traced.char) →
      ∀ part : List Traced, part.map Traced.char = source →
        (merge part).map Traced.char = f source ()) :
    (pass matcher merge ts).map Traced.char = replaceAll matcher f (ts.map Traced.char) :=
  map_char_regroup shows (flatMap_source_pieces _ _ _).symm

/-- A match is nonempty, so that a blank can stand for it. -/
theorem map_char_toBlank {source : List Char} {cs : List Char}
    (member : .found source () ∈ pieces matcher none cs) {part : List Traced}
    (shows : part.map Traced.char = source) : (toBlank part).map Traced.char = [' '] := by
  obtain ⟨-, c, rest, n, -, rfl⟩ := exists_of_found_mem member
  cases part with
  | nil => simp at shows
  | cons t part => rfl

theorem map_char_pass_toBlank (ts : List Traced) :
    (pass matcher toBlank ts).map Traced.char =
      replaceAll matcher (fun _ _ => [' ']) (ts.map Traced.char) :=
  map_char_pass fun _ member _ shows => map_char_toBlank member shows

theorem map_char_pass_toEnds (ts : List Traced) :
    (pass (quotedSegment '\'') toEnds ts).map Traced.char =
      replaceAll (quotedSegment '\'') (fun _ _ => ['\'', '\'']) (ts.map Traced.char) := by
  refine map_char_pass fun source member part shows => ?_
  obtain ⟨left, c, rest, n, read, rfl⟩ := exists_of_found_mem member
  obtain ⟨m, segment, same⟩ := Option.map_eq_some_iff.mp read
  obtain ⟨inside, after, whole, rfl⟩ := Quoted.segment?_eq_some segment
  obtain rfl : inside.length + 1 = n := by simpa using (Prod.mk.inj same).1
  rw [whole] at shows
  cases part with
  | nil => simp at shows
  | cons t part =>
    obtain ⟨first, others⟩ : t.char = '\'' ∧ part.map Traced.char = inside ++ ['\''] := by
      simpa [List.take_append, List.take_of_length_le] using shows
    cases part with
    | nil => simp at others
    | cons u part =>
      have last : ((u :: part).getLast (by simp)).char = '\'' := by
        rw [← List.getLast_map (f := Traced.char) (by simp)]
        simp [others]
      simp [toEnds, first, last]

/-- The traced passes show the stripped text. -/
theorem map_char_tracedStrip (text : List Char) :
    (tracedStrip text).map Traced.char = stripLiterals text := by
  rw [tracedStrip, map_char_pass_toEnds, map_char_pass_toBlank, map_char_pass_toBlank,
    map_char_trace]
  rfl

end Shown

section Regroup

theorem regroup_append (whole : (ps.flatMap Piece.source).length = ts.length) :
    regroup merge (ps ++ qs) (ts ++ us) = regroup merge ps ts ++ regroup merge qs us := by
  induction ps generalizing ts with
  | nil =>
    obtain rfl : ts = [] := by simpa [eq_comm] using whole
    rfl
  | cons piece ps ih =>
    rw [List.flatMap_cons, List.length_append] at whole
    have fits : piece.source.length ≤ ts.length := by omega
    have back : (ps.flatMap Piece.source).length = (ts.drop piece.source.length).length := by
      rw [List.length_drop]
      omega
    rw [List.cons_append, regroup, regroup, List.take_append_of_le_length fits,
      List.drop_append_of_le_length fits, ih back, List.append_assoc]

/-- A pass over two parts, when the first part falls into pieces of its own. -/
theorem pass_append_of_pieces (whole : (ps.flatMap Piece.source).length = ts.length)
    (cut : pieces matcher none ((ts ++ us).map Traced.char) =
      ps ++ pieces matcher none (us.map Traced.char)) :
    pass matcher merge (ts ++ us) = regroup merge ps ts ++ pass matcher merge us := by
  rw [pass, cut]
  exact regroup_append whole

/-- A pass over two parts, when no match reaches from one into the other. -/
theorem pass_append
    (apart : pieces matcher none ((ts ++ us).map Traced.char) =
      pieces matcher none (ts.map Traced.char) ++ pieces matcher none (us.map Traced.char)) :
    pass matcher merge (ts ++ us) = pass matcher merge ts ++ pass matcher merge us :=
  pass_append_of_pieces (by rw [flatMap_source_pieces, List.length_map]) apart

/-- Regrouping by pieces without a match changes nothing. -/
theorem regroup_plain (cs : List Char) (same : cs.length = ts.length) :
    regroup merge (cs.map .plain) ts = ts := by
  induction cs generalizing ts with
  | nil =>
    obtain rfl : ts = [] := by simpa [eq_comm] using same
    rfl
  | cons c cs ih =>
    cases ts with
    | nil => simp at same
    | cons t ts =>
      rw [List.map_cons, regroup]
      simp [regroupPiece, Piece.source, ih (by simpa using same)]

end Regroup

section Covers

/-- A match of the pieces reaches over the place. -/
def Covers (ps : List (Piece Unit)) (i : Nat) : Prop :=
  ∃ front source back, ps = front ++ .found source () :: back ∧
    (front.flatMap Piece.source).length ≤ i ∧
    i < (front.flatMap Piece.source).length + source.length

theorem Covers.cons (covered : Covers ps i) (piece : Piece Unit) :
    Covers (piece :: ps) (piece.source.length + i) := by
  obtain ⟨first, source, last, rfl, low, high⟩ := covered
  refine ⟨piece :: first, source, last, rfl, ?_⟩
  rw [List.flatMap_cons, List.length_append]
  omega

theorem Covers.append (covered : Covers ps i) (qs : List (Piece Unit)) : Covers (ps ++ qs) i := by
  obtain ⟨first, source, last, rfl, low, high⟩ := covered
  exact ⟨first, source, last ++ qs, by simp, low, high⟩

theorem covers_found {source : List Char} (inside : i < source.length) :
    Covers (.found source () :: ps) i :=
  ⟨[], source, ps, rfl, by simp, by simpa using inside⟩

/-- A pass works apart on two parts of a text, or the parts are joined and a match covers the last
character of the first part and `reach` characters of the second. -/
def Splits (matcher : Matcher Unit) (reach : Nat) (joined : List Char → Prop)
    (front back : List Char) : Prop :=
  (¬ joined front ∧
    pieces matcher none (front ++ back) = pieces matcher none front ++ pieces matcher none back) ∨
  (joined front ∧ ∀ i, front.length ≤ i + 1 → i < front.length + reach →
    Covers (pieces matcher none (front ++ back)) i)

/-- A stretch at the front that is cut off alike, in the first part alone and in both together. -/
theorem Splits.of_piece {reach : Nat} {joined : List Char → Prop} {stretch front back : List Char}
    (piece : Piece Unit) (covers : piece.source = stretch)
    (alone : pieces matcher none (stretch ++ front) = piece :: pieces matcher none front)
    (together : pieces matcher none (stretch ++ (front ++ back)) =
      piece :: pieces matcher none (front ++ back))
    (nonempty : ¬ joined []) (same : joined (stretch ++ front) ↔ joined front)
    (split : Splits matcher reach joined front back) :
    Splits matcher reach joined (stretch ++ front) back := by
  unfold Splits
  rw [same, List.append_assoc, together, alone]
  rcases split with ⟨apart, cut⟩ | ⟨parts_joined, reached⟩
  · exact .inl ⟨apart, by rw [cut, List.cons_append]⟩
  · have positive : 0 < front.length := by
      refine List.length_pos_iff.mpr ?_
      rintro rfl
      exact nonempty parts_joined
    refine .inr ⟨parts_joined, fun i low high => ?_⟩
    rw [List.length_append] at low high
    have there := (reached (i - stretch.length) (by omega) (by omega)).cons piece
    rwa [covers, Nat.add_sub_cancel' (by omega)] at there

end Covers

section Lost

/-- What a merge makes of a match: kept characters and places of the match only, in order. -/
structure Shrinks (merge : List Traced → List Traced) : Prop where
  kept_mem : ∀ {c i ts}, .kept c i ∈ merge ts → .kept c i ∈ ts
  places : ∀ ts, ((merge ts).map Traced.place).Sublist (ts.map Traced.place)

private theorem kept_not_mem_toBlank {c : Char} : .kept c i ∉ toBlank ts := by
  cases ts <;> simp [toBlank]

theorem shrinks_toBlank : Shrinks toBlank where
  kept_mem member := absurd member kept_not_mem_toBlank
  places := by
    intro ts
    cases ts <;> simp [toBlank, Traced.place]

theorem shrinks_toEnds : Shrinks toEnds where
  kept_mem := by
    intro c i ts member
    unfold toEnds at member
    split at member
    · rename_i t u rest
      rcases List.mem_cons.mp member with here | last
      · simp [here]
      · rw [List.mem_singleton.mp last]
        exact List.mem_cons_of_mem t (List.getLast_mem _)
    · exact member
  places := by
    intro ts
    unfold toEnds
    split
    · rename_i t u rest
      have last : [(u :: rest).getLast (by simp)].Sublist (u :: rest) :=
        List.singleton_sublist.mpr (List.getLast_mem _)
      exact (last.cons_cons t).map Traced.place
    · exact List.Sublist.refl _

theorem kept_mem_of_mem_regroup (shrinks : Shrinks merge) {c : Char}
    (member : .kept c i ∈ regroup merge ps ts) : .kept c i ∈ ts := by
  induction ps generalizing ts with
  | nil => cases member
  | cons piece ps ih =>
    rw [regroup] at member
    rcases List.mem_append.mp member with here | later
    · cases piece with
      | plain d => exact List.mem_of_mem_take here
      | found source value => exact List.mem_of_mem_take (shrinks.kept_mem here)
    · exact List.mem_of_mem_drop (ih later)

theorem places_regroup_sublist (shrinks : Shrinks merge) (ps : List (Piece Unit))
    (ts : List Traced) :
    ((regroup merge ps ts).map Traced.place).Sublist (ts.map Traced.place) := by
  induction ps generalizing ts with
  | nil => exact List.nil_sublist _
  | cons piece ps ih =>
    have front : ((regroupPiece merge piece (ts.take piece.source.length)).map
        Traced.place).Sublist ((ts.take piece.source.length).map Traced.place) := by
      cases piece with
      | plain d => exact List.Sublist.refl _
      | found source value => exact shrinks.places _
    have both := front.append (ih (ts.drop piece.source.length))
    rw [← List.map_append, ← List.map_append, List.take_append_drop] at both
    exact both

theorem nodup_pass (shrinks : Shrinks merge) (distinct : (ts.map Traced.place).Nodup) :
    ((pass matcher merge ts).map Traced.place).Nodup :=
  distinct.sublist (places_regroup_sublist shrinks _ ts)

theorem le_place_of_mem_trace {start : Nat} {cs : List Char} {t : Traced}
    (member : t ∈ trace start cs) : start ≤ t.place ∧ t.place < start + cs.length := by
  induction cs generalizing start with
  | nil => cases member
  | cons c cs ih =>
    rw [List.length_cons]
    rcases List.mem_cons.mp member with rfl | later
    · simp [Traced.place]
    · have bounds := ih later
      omega

theorem nodup_trace (start : Nat) (cs : List Char) :
    ((trace start cs).map Traced.place).Nodup := by
  induction cs generalizing start with
  | nil => exact .nil
  | cons c cs ih =>
    rw [trace, List.map_cons, List.nodup_cons]
    refine ⟨fun again => ?_, ih (start + 1)⟩
    obtain ⟨t, member, same⟩ := List.mem_map.mp again
    have later := (le_place_of_mem_trace member).1
    have first : t.place = start := same
    omega

/-- The place stands inside a match of the pieces and at neither of its ends. -/
def CoversInside (ps : List (Piece Unit)) (i : Nat) : Prop :=
  ∃ front source back, ps = front ++ .found source () :: back ∧
    (front.flatMap Piece.source).length < i ∧
    i + 1 < (front.flatMap Piece.source).length + source.length

private theorem mem_of_mem_regroup_found (shrinks : Shrinks merge) {front back : List (Piece Unit)}
    {source : List Char} {d : Char} {p : Nat}
    (member : .kept d p ∈ regroup merge (front ++ .found source () :: back) ts)
    (fits : (front.flatMap Piece.source).length + source.length ≤ ts.length) :
    .kept d p ∈ ts.take (front.flatMap Piece.source).length ∨
      .kept d p ∈ merge ((ts.drop (front.flatMap Piece.source).length).take source.length) ∨
      .kept d p ∈ ts.drop ((front.flatMap Piece.source).length + source.length) := by
  have cut : ts = ts.take (front.flatMap Piece.source).length ++
      ts.drop (front.flatMap Piece.source).length := (List.take_append_drop _ _).symm
  have whole : (front.flatMap Piece.source).length =
      (ts.take (front.flatMap Piece.source).length).length := by
    rw [List.length_take]
    omega
  rw [cut, regroup_append whole, List.mem_append] at member
  rcases member with early | later
  · exact .inl (kept_mem_of_mem_regroup shrinks early)
  · rw [regroup, List.mem_append] at later
    rcases later with here | after
    · exact .inr (.inl here)
    · have back := kept_mem_of_mem_regroup shrinks after
      rw [List.drop_drop] at back
      exact .inr (.inr back)

private theorem length_found_le {front back : List (Piece Unit)} {source : List Char}
    (split : pieces matcher none (ts.map Traced.char) = front ++ .found source () :: back) :
    (front.flatMap Piece.source).length + source.length ≤ ts.length := by
  have whole := congrArg List.length (flatMap_source_pieces matcher none (ts.map Traced.char))
  rw [split, List.flatMap_append, List.flatMap_cons, List.length_append, List.length_append,
    List.length_map] at whole
  simp only [Piece.source] at whole
  omega

variable {t : Traced} {c : Char} {p : Nat}

private theorem exists_getElem?_of_mem_take {n : Nat} (member : t ∈ ts.take n) :
    ∃ j < n, ts[j]? = some t := by
  obtain ⟨j, bound, found⟩ := List.mem_iff_getElem.mp member
  rw [List.length_take] at bound
  refine ⟨j, by omega, ?_⟩
  rw [← found, List.getElem_take, List.getElem?_eq_getElem]

private theorem exists_getElem?_of_mem_drop {n : Nat} (member : t ∈ ts.drop n) :
    ∃ j, n ≤ j ∧ ts[j]? = some t := by
  obtain ⟨j, found⟩ := List.mem_iff_getElem?.mp member
  exact ⟨n + j, by omega, by rwa [List.getElem?_drop] at found⟩

private theorem index_unique {j : Nat} (distinct : (ts.map Traced.place).Nodup)
    (first : ts[i]? = some t) (second : ts[j]? = some t) : i = j :=
  (List.getElem?_inj (List.getElem?_eq_some_iff.mp first).1 (List.Nodup.of_map _ distinct)).mp
    (first.trans second.symm)

/-- A character that a blanked match covers is gone. -/
theorem kept_not_mem_pass_toBlank (distinct : (ts.map Traced.place).Nodup)
    (covered : Covers (pieces matcher none (ts.map Traced.char)) i)
    (there : ts[i]? = some (.kept c p)) : .kept c p ∉ pass matcher toBlank ts := by
  intro member
  obtain ⟨front, source, back, split, low, high⟩ := covered
  rw [pass, split] at member
  rcases mem_of_mem_regroup_found shrinks_toBlank member (length_found_le split) with
    early | here | late
  · obtain ⟨j, before, found⟩ := exists_getElem?_of_mem_take early
    have same := index_unique distinct there found
    omega
  · exact kept_not_mem_toBlank here
  · obtain ⟨j, after, found⟩ := exists_getElem?_of_mem_drop late
    have same := index_unique distinct there found
    omega

private theorem getElem?_of_mem_toEnds (member : t ∈ toEnds us) :
    us[0]? = some t ∨ us[us.length - 1]? = some t := by
  unfold toEnds at member
  split at member
  · rename_i u v rest
    rcases List.mem_cons.mp member with rfl | last
    · exact .inl rfl
    · refine .inr ?_
      rw [List.mem_singleton.mp last, ← List.getLast?_eq_getElem?, List.getLast?_cons_cons,
        List.getLast?_eq_some_getLast]
  · rename_i short
    cases us with
    | nil => cases member
    | cons u us =>
      cases us with
      | nil => exact .inl (by simpa [eq_comm] using member)
      | cons v rest => exact absurd rfl (short u v rest)

/-- A character between the ends of a match that keeps only its ends is gone. -/
theorem kept_not_mem_pass_toEnds (distinct : (ts.map Traced.place).Nodup)
    (covered : CoversInside (pieces matcher none (ts.map Traced.char)) i)
    (there : ts[i]? = some (.kept c p)) : .kept c p ∉ pass matcher toEnds ts := by
  intro member
  obtain ⟨front, source, back, split, low, high⟩ := covered
  have fits := length_found_le split
  rw [pass, split] at member
  rcases mem_of_mem_regroup_found shrinks_toEnds member fits with early | here | late
  · obtain ⟨j, before, found⟩ := exists_getElem?_of_mem_take early
    have same := index_unique distinct there found
    omega
  · have size : ((ts.drop (front.flatMap Piece.source).length).take source.length).length =
        source.length := by
      rw [List.length_take, List.length_drop]
      omega
    rcases getElem?_of_mem_toEnds here with first | last
    · rw [List.getElem?_take_of_lt (by omega), List.getElem?_drop] at first
      have same := index_unique distinct there first
      omega
    · rw [size, List.getElem?_take_of_lt (by omega), List.getElem?_drop] at last
      have same := index_unique distinct there last
      omega
  · obtain ⟨j, after, found⟩ := exists_getElem?_of_mem_drop late
    have same := index_unique distinct there found
    omega

end Lost

end ReportQuery.Sql

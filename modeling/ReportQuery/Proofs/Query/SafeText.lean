import ReportQuery.Proofs.Query.CodeText

set_option autoImplicit false
set_option relaxedAutoImplicit false

/-!
The text of a compiled statement, cut at its double-quoted segments: every segment reads as a name
of the snapshot or a plain label, and what stands between them is a fixed vocabulary with aliases
and placeholders. Nothing else that a caller wrote gets into the text.
-/

namespace ReportQuery.Query

open Schema (Snapshot)
open Sql (Segment segmentsOf quotedSegment)
open Text (Piece pieces flatMap_source_pieces isPlainName isNameChar Quoted.inside
  Quoted.inside_enclose)

/-- The characters of a segment. -/
def segmentText : Segment → List Char
  | .code cs => cs
  | .quoted cs => cs

variable {snapshot : Snapshot} {tokens run : List Token}

section Words

end Words

section Segments

private theorem flatMap_segmentsOf (code : List Char) (ps : List (Piece Unit)) :
    (segmentsOf code ps).flatMap segmentText = code.reverse ++ ps.flatMap Piece.source := by
  induction ps generalizing code with
  | nil => simp [segmentsOf, segmentText]
  | cons piece rest ih =>
    cases piece with
    | plain c => simp [segmentsOf, ih, Piece.source]
    | found source value => simp [segmentsOf, ih, segmentText, Piece.source]

end Segments

end ReportQuery.Query

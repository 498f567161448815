import MapHighlight.Json
import MapHighlight.Token
import Mathlib.Data.List.SplitBy

/-!
# Texts in pieces

Escaped texts are written in pieces so that a run of characters that stand for themselves is written
at once. Put together, the pieces are the text with each of its characters escaped.
-/

namespace MapHighlight

/-- The pieces of an escaped text make up the text with its characters escaped. -/
@[simp] theorem Text.flatten_escapedPieces (escape : Char → Text) (text : Text) :
    (text.escapedPieces escape).flatten = text.flatMap escape := by
  rw [escapedPieces]
  conv_rhs => rw [← List.flatten_splitBy (fun c d => escape c == [c] && escape d == [d]) text]
  rw [List.flatMap_def, List.map_flatten, List.flatten_flatten, List.map_map]
  rfl

@[simp] theorem Quoted.flatten_quotePieces (delimiter : Char) (text : Text) :
    (quotePieces delimiter text).flatten = quote delimiter text := by
  simp [quotePieces, quote]

@[simp] theorem Json.flatten_quotePieces (text : Text) :
    (quotePieces text).flatten = quote text := by
  simp [quotePieces, quote]

/-- The pieces of the line of a token make up the line. -/
@[simp] theorem Token.flatten_linePieces (token : Token) :
    token.linePieces.flatten = token.line := by
  simp [linePieces, line, Location.display, Text.quoted]

/-- The pieces of lines make up the lines. -/
theorem Token.flatten_flatMap_linePieces (tokens : List Token) :
    (tokens.flatMap linePieces).flatten = tokens.flatMap line := by
  induction tokens with
  | nil => rfl
  | cons token tokens ih => simp [ih]

end MapHighlight

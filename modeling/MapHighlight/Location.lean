import MapHighlight.Text

/-!
# Locations

A location says where in a source a text begins. Line and column are what an editor shows, counted
from one in characters; the offset is the number of bytes before it.
-/

namespace MapHighlight

/-- A place in a source. -/
structure Location where
  /-- The line, counted from one. -/
  line : Nat
  /-- The column, counted from one in characters. -/
  column : Nat
  /-- The number of bytes before the place. -/
  offset : Nat
deriving DecidableEq, Repr, Inhabited

namespace Location

/-- The place of the first character of a source. -/
def start : Location :=
  ⟨1, 1, 0⟩

/-- The place after one character: a line feed opens the next line, and every other character
moves one column on. -/
def after (location : Location) (c : Char) : Location :=
  if c = '\n' then ⟨location.line + 1, 1, location.offset + c.utf8Size⟩
  else ⟨location.line, location.column + 1, location.offset + c.utf8Size⟩

/-- The place just past a text that begins at the location. -/
def advance (location : Location) (text : Text) : Location :=
  text.foldl after location

/-- A location is shown as its line and its column. -/
def display (location : Location) : Text :=
  Text.ofNat location.line ++ ':' :: Text.ofNat location.column

@[simp] theorem advance_nil (location : Location) : location.advance [] = location := rfl

@[simp] theorem advance_cons (location : Location) (c : Char) (text : Text) :
    location.advance (c :: text) = (location.after c).advance text := rfl

theorem advance_append (location : Location) (left right : Text) :
    location.advance (left ++ right) = (location.advance left).advance right :=
  List.foldl_append

end Location

end MapHighlight

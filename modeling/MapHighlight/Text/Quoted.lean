import MapHighlight.Text
import MapHighlight.Unicode.GraphemeExtender
import MapHighlight.Unicode.Printable

/-!
# Quoted texts

A text is shown between delimiters with every character that would be invisible or ambiguous
written as an escape. Line ends, tabs and NUL have escapes of one letter; the delimiter and the
backslash follow a backslash; other characters without a visible form of their own are written as
hexadecimal code points in braces.
-/

namespace MapHighlight.Quoted

/-- A character written as its hexadecimal code point. -/
def codePoint (c : Char) : Text :=
  ['\\', 'u', '{'] ++ Nat.toDigits 16 c.toNat ++ ['}']

/-- A character as it stands between delimiters, if the hidden characters are written as code
points. -/
def escapeWhere (hidden : Char → Bool) (delimiter : Char) (c : Char) : Text :=
  if c = '\x00' then ['\\', '0']
  else if c = '\t' then ['\\', 't']
  else if c = '\r' then ['\\', 'r']
  else if c = '\n' then ['\\', 'n']
  else if c = '\\' ∨ c = delimiter then ['\\', c]
  else if hidden c then codePoint c
  else [c]

/-- Whether a character has no visible form of its own: it is unprintable, or it only changes the
form of the character before it. -/
def isHidden (c : Char) : Bool :=
  Unicode.isGraphemeExtender c || !Unicode.isPrintable c

/-- A character as it stands between delimiters. -/
def escape (delimiter : Char) (c : Char) : Text :=
  escapeWhere isHidden delimiter c

/-- A text between delimiters. -/
def quote (delimiter : Char) (text : Text) : Text :=
  delimiter :: text.flatMap (escape delimiter) ++ [delimiter]

/-- The pieces in which a text is written between delimiters. -/
def quotePieces (delimiter : Char) (text : Text) : List Text :=
  [delimiter] :: text.escapedPieces (escape delimiter) ++ [[delimiter]]

end MapHighlight.Quoted

namespace MapHighlight

/-- A text between double quotes. -/
def Text.quoted (text : Text) : Text :=
  Quoted.quote '"' text

/-- A character between single quotes. -/
def Text.quotedChar (c : Char) : Text :=
  Quoted.quote '\'' [c]

end MapHighlight

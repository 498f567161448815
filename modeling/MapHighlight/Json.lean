import MapHighlight.Text

/-!
# JSON

The data that is exchanged with other programs: natural numbers, strings, arrays and objects whose
fields keep their order. Documents are written with one member a line, each level indented by two
blanks; only what the notation demands is escaped in strings.
-/

namespace MapHighlight

/-- A JSON value of the kinds that are exchanged. -/
inductive Json where
  /-- A number. -/
  | number (n : Nat)
  /-- A string. -/
  | string (text : Text)
  /-- An array. -/
  | array (items : List Json)
  /-- An object with its fields in order. -/
  | object (fields : List (Text × Json))
deriving Repr

namespace Json

/-- The four hexadecimal digits of a number below 65536. -/
def fourHexDigits (n : Nat) : Text :=
  [4096, 256, 16, 1].map fun place => Nat.digitChar (n / place % 16)

/-- A character as it stands in a string: the double quote, the backslash and the control
characters are escaped, the others stand for themselves. -/
def escape (c : Char) : Text :=
  if c = '"' then ['\\', '"']
  else if c = '\\' then ['\\', '\\']
  else if c = '\x08' then ['\\', 'b']
  else if c = '\x0c' then ['\\', 'f']
  else if c = '\n' then ['\\', 'n']
  else if c = '\r' then ['\\', 'r']
  else if c = '\t' then ['\\', 't']
  else if c.toNat < 32 then '\\' :: 'u' :: fourHexDigits c.toNat
  else [c]

/-- A text as a JSON string. -/
def quote (text : Text) : Text :=
  '"' :: text.flatMap escape ++ ['"']

/-- The pieces in which a text is written as a JSON string. -/
def quotePieces (text : Text) : List Text :=
  ['"'] :: text.escapedPieces escape ++ [['"']]

/-- The pieces in which the indentation at a depth is written. -/
def indentation (depth : Nat) : List Text :=
  List.replicate depth [' ', ' ']

mutual

/-- The pieces in which a value at a depth of indentation is written. -/
def pieces (depth : Nat) : Json → List Text
  | number n => [Text.ofNat n]
  | string text => quotePieces text
  | array [] => [['['], [']']]
  | array (item :: items) =>
    [['['], ['\n']] ++ indentation (depth + 1) ++ pieces (depth + 1) item ++ itemPieces depth items
  | object [] => [['{'], ['}']]
  | object ((name, value) :: fields) =>
    [['{'], ['\n']] ++ indentation (depth + 1) ++ quotePieces name ++
      [':', ' '] :: pieces (depth + 1) value ++ fieldPieces depth fields

/-- The pieces of the items after the first, and of the end of their array. -/
def itemPieces (depth : Nat) : List Json → List Text
  | [] => ['\n'] :: indentation depth ++ [[']']]
  | item :: items =>
    [',', '\n'] :: indentation (depth + 1) ++ pieces (depth + 1) item ++ itemPieces depth items

/-- The pieces of the fields after the first, and of the end of their object. -/
def fieldPieces (depth : Nat) : List (Text × Json) → List Text
  | [] => ['\n'] :: indentation depth ++ [['}']]
  | (name, value) :: fields =>
    [',', '\n'] :: indentation (depth + 1) ++ quotePieces name ++
      [':', ' '] :: pieces (depth + 1) value ++ fieldPieces depth fields

end

/-- The pieces in which a value is written as a document. -/
def documentPieces (value : Json) : List Text :=
  pieces 0 value ++ [['\n']]

end Json

end MapHighlight

import MapHighlight.Category
import MapHighlight.Pattern.WordList

/-!
# The rule table

Eighteen rules classify the text at a cursor. They are tried in order, and the first rule whose
pattern matches wins, whether or not a later rule would match more. Three rules apply only at the
start of a line: the header assignment and the two kinds of opening words.
-/

namespace MapHighlight

/-- A rule of the table. The order of the constructors is the order in which rules are tried. -/
inductive Rule where
  /-- A line feed. -/
  | newline
  /-- A run of blanks. -/
  | blank
  /-- A number sign and the rest of its line. -/
  | comment
  /-- A semicolon. -/
  | terminator
  /-- A backslash at the end of a line. -/
  | continuation
  /-- Any other backslash. -/
  | backslash
  /-- An equals sign. -/
  | assign
  /-- A closed text in double quotes. -/
  | string
  /-- The start of a line up to its first equals sign. -/
  | header
  /-- The word that opens a room. -/
  | structureWord
  /-- The words that open the other special statements. -/
  | specialWord
  /-- The reserved words. -/
  | keyword
  /-- The names that the language defines. -/
  | builtin
  /-- The directions of the compass. -/
  | direction
  /-- The words of obsolete forms. -/
  | obsolete
  /-- Numbers with a fraction or an exponent. -/
  | float
  /-- Runs of digits. -/
  | integer
  /-- Other words. -/
  | identifier
deriving DecidableEq, Repr

namespace Rule

/-- The rules in the order in which they are tried. -/
def all : List Rule :=
  [newline, blank, comment, terminator, continuation, backslash, assign, string, header,
    structureWord, specialWord, keyword, builtin, direction, obsolete, float, integer, identifier]

/-- The name of a rule. -/
def name : Rule → Text
  | newline => "newline"
  | blank => "blank"
  | comment => "comment"
  | terminator => "terminator"
  | continuation => "continuation"
  | backslash => "backslash"
  | assign => "assign"
  | string => "string"
  | header => "header"
  | structureWord => "structure"
  | specialWord => "special"
  | keyword => "keyword"
  | builtin => "builtin"
  | direction => "direction"
  | obsolete => "obsolete"
  | float => "float"
  | integer => "integer"
  | identifier => "identifier"

/-- The category of the tokens that a rule makes. -/
def category : Rule → Category
  | newline | blank | continuation | backslash => .whitespace
  | comment => .comment
  | terminator => .punctuation
  | assign => .operator
  | string => .stringLiteral
  | header => .headerAssignment
  | structureWord => .className
  | specialWord => .entityName
  | keyword => .reservedKeyword
  | builtin => .builtinName
  | direction => .directionName
  | obsolete => .obsoleteWarning
  | float => .floatNumber
  | integer => .integerNumber
  | identifier => .identifier

/-- Whether a rule applies only at the start of a line. -/
def isAnchored : Rule → Bool
  | header | structureWord | specialWord => true
  | _ => false

/-- The exponent of a number: its mark, an optional sign and ASCII digits. -/
def exponent : Pattern :=
  .seq (.one .exponentMark) (.seq (.opt (.one .sign)) (.plus .asciiDigit))

/-- A number with a full stop, on one side of which the digits may be missing. -/
def fraction : Pattern :=
  .alt (.seq (.plus .digit) (.seq (.escaped '.') (.star .digit)))
    (.seq (.star .digit) (.seq (.escaped '.') (.plus .digit)))

/-- The pattern of a rule. -/
def pattern : Rule → Pattern
  | newline => .lineFeed
  | blank => .plus .blank
  | comment => .seq (.char '#') (.star .withinLine)
  | terminator => .char ';'
  | continuation => .seq (.escaped '\\') .lineFeed
  | backslash => .escaped '\\'
  | assign => .char '='
  | string => .seq (.char '"') (.seq (.star .unquoted) (.char '"'))
  | header => .seq (.lazyPlus .withinLine) (.char '=')
  | structureWord => Vocabulary.structures.pattern
  | specialWord => Vocabulary.specials.pattern
  | keyword => Vocabulary.keywords.pattern
  | builtin => Vocabulary.builtins.pattern
  | direction => Vocabulary.directions.pattern
  | obsolete => Vocabulary.obsolete.pattern
  | float =>
    .alt (.seq (.group fraction) (.opt (.group exponent))) (.seq (.plus .digit) exponent)
  | integer => .plus .digit
  | identifier => .seq (.one .nameStart) (.star .namePart)

/-- The number of characters that a rule matches at the start of a text, if it matches. The start
of a line plays no part here. -/
def matchLength (rule : Rule) (text : Text) : Option Nat :=
  rule.pattern.matchLength text

/-- The first rule that matches at the start of a text, with the number of characters it matches.
Anchored rules count only at the start of a line, and a match of the empty text does not count. -/
def first? (text : Text) (atLineStart : Bool) : Option (Rule × Nat) :=
  all.findSome? fun rule =>
    if rule.isAnchored && !atLineStart then none
    else match rule.matchLength text with
      | some (n + 1) => some (rule, n + 1)
      | _ => none

/-- The rule that wins takes at least one character. -/
theorem pos_of_first? {text : Text} {atLineStart : Bool} {rule : Rule} {n : Nat}
    (h : first? text atLineStart = some (rule, n)) : 0 < n := by
  obtain ⟨candidate, _, hmatch⟩ := List.exists_of_findSome?_eq_some h
  split at hmatch
  · contradiction
  · split at hmatch
    · cases hmatch
      exact Nat.succ_pos _
    · contradiction

end Rule

end MapHighlight

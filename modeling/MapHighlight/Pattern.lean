import MapHighlight.Text
import MapHighlight.Unicode.DecimalDigit
import MapHighlight.Unicode.WhiteSpace
import MapHighlight.Unicode.WordCharacter

/-!
# Patterns

A pattern describes how a text may begin. Its notation is that of regular expressions, and its
meaning is an ordered list of the places where a match may end: the first place is the match.
Choices prefer their left side, repetitions the longest run unless they are marked as lazy, so
the order is the one in which a backtracking search would try the places.
-/

namespace MapHighlight

/-- A set of characters that patterns name. -/
inductive CharSet where
  /-- Every character but the line feed. -/
  | withinLine
  /-- White space other than the line feed. -/
  | blank
  /-- Every character but the double quote. -/
  | unquoted
  /-- The decimal digits of all scripts. -/
  | digit
  /-- The decimal digits of ASCII. -/
  | asciiDigit
  /-- The letters that open an exponent. -/
  | exponentMark
  /-- The signs of an exponent. -/
  | sign
  /-- The ASCII letters and the underscore. -/
  | nameStart
  /-- The ASCII letters and digits, the underscore and the full stop. -/
  | namePart
deriving DecidableEq, Repr

namespace CharSet

/-- Whether a character belongs to the set. -/
def contains : CharSet → Char → Bool
  | withinLine, c => c != '\n'
  | blank, c => c != '\n' && Unicode.isWhiteSpace c
  | unquoted, c => c != '"'
  | digit, c => Unicode.isDecimalDigit c
  | asciiDigit, c => c.isDigit
  | exponentMark, c => c == 'e' || c == 'E'
  | sign, c => c == '+' || c == '-'
  | nameStart, c => c.isAlpha || c == '_'
  | namePart, c => c.isAlphanum || c == '_' || c == '.'

/-- How the set is written in a pattern. -/
def notated : CharSet → Text
  | withinLine => "."
  | blank => "[^\\S\\n]"
  | unquoted => "[^\"]"
  | digit => "\\d"
  | asciiDigit => "[0-9]"
  | exponentMark => "[eE]"
  | sign => "[+-]"
  | nameStart => "[a-zA-Z_]"
  | namePart => "[a-zA-Z0-9_.]"

end CharSet

/-- A pattern for the start of a text. -/
inductive Pattern where
  /-- Matches the empty text. -/
  | empty
  /-- Matches one character, which is written as it is. -/
  | char (c : Char)
  /-- Matches one character, which is written behind a backslash. -/
  | escaped (c : Char)
  /-- Matches a line feed. -/
  | lineFeed
  /-- Matches one character of a set. -/
  | one (set : CharSet)
  /-- Matches a run of characters of a set, the longest first. -/
  | star (set : CharSet)
  /-- Matches a run of at least one character of a set, the longest first. -/
  | plus (set : CharSet)
  /-- Matches a run of at least one character of a set, the shortest first. -/
  | lazyPlus (set : CharSet)
  /-- Matches what the pattern matches, or else the empty text. -/
  | opt (pattern : Pattern)
  /-- Matches the first pattern and from there the second. -/
  | seq (first second : Pattern)
  /-- Matches what the first pattern matches, or else what the second does. -/
  | alt (first second : Pattern)
  /-- Matches what the pattern matches; the parentheses only hold it together. -/
  | group (pattern : Pattern)
  /-- Matches what the pattern matches; the parentheses also mark it as a part of interest. -/
  | capture (pattern : Pattern)
  /-- Matches the empty text where a word begins or ends. -/
  | wordBoundary
deriving DecidableEq, Repr

/-- A place that a match has reached. -/
structure Place where
  /-- The character before the place, if the match has passed one. -/
  before : Option Char
  /-- The number of characters passed. -/
  passed : Nat
  /-- The text after the place. -/
  rest : Text
deriving DecidableEq, Repr

namespace Place

/-- The place at the start of a text. -/
def atStart (text : Text) : Place :=
  ⟨none, 0, text⟩

/-- The places one character on, if that character is as asked. -/
def next (accepts : Char → Bool) (place : Place) : List Place :=
  match place.rest with
  | [] => []
  | c :: rest => if accepts c then [⟨some c, place.passed + 1, rest⟩] else []

/-- The places at the end of a run of characters as asked, the longest run first, in front of
places for shorter runs. -/
def runsOnto (accepts : Char → Bool) (shorter : List Place) (before : Option Char)
    (passed : Nat) : Text → List Place
  | [] => ⟨before, passed, []⟩ :: shorter
  | c :: rest =>
    if accepts c then
      runsOnto accepts (⟨before, passed, c :: rest⟩ :: shorter) (some c) (passed + 1) rest
    else ⟨before, passed, c :: rest⟩ :: shorter

/-- The places that a run of characters as asked leads to, the longest run first and the empty
run last. -/
def runs (accepts : Char → Bool) (place : Place) : List Place :=
  runsOnto accepts [] place.before place.passed place.rest

/-- Whether exactly one of the neighbours of the place is a word character. -/
def isWordBoundary (place : Place) : Bool :=
  place.before.any Unicode.isWordCharacter != place.rest.head?.any Unicode.isWordCharacter

end Place

namespace Pattern

/-- The places where a match that begins at a place may end, the preferred ones first. -/
def ends : Pattern → Place → List Place
  | empty, place => [place]
  | char c, place => place.next (· == c)
  | escaped c, place => place.next (· == c)
  | lineFeed, place => place.next (· == '\n')
  | one set, place => place.next set.contains
  | star set, place => place.runs set.contains
  | plus set, place => (place.next set.contains).flatMap (Place.runs set.contains)
  | lazyPlus set, place =>
    (place.next set.contains).flatMap fun reached => (reached.runs set.contains).reverse
  | opt pattern, place => pattern.ends place ++ [place]
  | seq first second, place => (first.ends place).flatMap second.ends
  | alt first second, place => first.ends place ++ second.ends place
  | group pattern, place => pattern.ends place
  | capture pattern, place => pattern.ends place
  | wordBoundary, place => if place.isWordBoundary then [place] else []

/-- The number of characters of a text that the pattern matches at its start, if it matches. -/
def matchLength (pattern : Pattern) (text : Text) : Option Nat :=
  (pattern.ends (.atStart text)).head?.map (·.passed)

/-- How the pattern is written. -/
def notated : Pattern → Text
  | empty => []
  | char c => [c]
  | escaped c => ['\\', c]
  | lineFeed => "\\n"
  | one set => set.notated
  | star set => set.notated ++ ['*']
  | plus set => set.notated ++ ['+']
  | lazyPlus set => set.notated ++ ['+', '?']
  | opt pattern => pattern.notated ++ ['?']
  | seq first second => first.notated ++ second.notated
  | alt first second => first.notated ++ '|' :: second.notated
  | group pattern => ['(', '?', ':'] ++ pattern.notated ++ [')']
  | capture pattern => '(' :: pattern.notated ++ [')']
  | wordBoundary => "\\b"

/-- How the pattern is written where it may only match at the start of a text. -/
def notatedAtStart (pattern : Pattern) : Text :=
  ['\\', 'A'] ++ (group pattern).notated

end Pattern

end MapHighlight

import MapHighlight.Pattern
import MapHighlight.Vocabulary

/-!
# Patterns for word lists

A word list becomes a choice among its words in their order, followed by a word boundary, so that
only whole words match. Characters with a meaning of their own in patterns are escaped.
-/

namespace MapHighlight

/-- Whether a character has a meaning of its own in the notation of patterns. -/
def Pattern.isMeta (c : Char) : Bool :=
  ['\\', '.', '+', '*', '?', '(', ')', '|', '[', ']', '{', '}', '^', '$', '#', '&', '-',
    '~'].contains c

/-- The pattern that matches exactly one character. -/
def Pattern.exactly (c : Char) : Pattern :=
  if isMeta c then escaped c else char c

/-- The pattern that matches exactly one word. -/
def Pattern.word (word : Text) : Pattern :=
  word.foldr (fun c rest => seq (exactly c) rest) empty

/-- The choice among patterns, the earliest first. -/
def Pattern.oneOf (first : Pattern) : List Pattern → Pattern
  | [] => first
  | second :: others => alt first (oneOf second others)

/-- The pattern that matches any one of the words as a whole word. -/
def WordList.pattern (words : WordList) : Pattern :=
  .seq (.capture (.oneOf (.word words.first) (words.others.map .word))) .wordBoundary

end MapHighlight

import MapHighlight.Text

/-!
# Word lists

A word list has at least one word, because a choice among no words would match nothing. The lists
below hold the words of the map language. A word may stand in several lists; the order of the
rules decides which of them names its category.
-/

namespace MapHighlight

/-- A list of words with at least one member. -/
structure WordList where
  /-- The first word. -/
  first : Text
  /-- The words after the first. -/
  others : List Text
deriving DecidableEq, Repr

/-- Why words do not make a word list. -/
inductive WordListError where
  /-- There is no word. -/
  | noWords
deriving DecidableEq, Repr

/-- What is reported of words that do not make a word list. -/
def WordListError.message : WordListError → Text
  | noWords => "word list must not be empty"

namespace WordList

/-- The words, first to last. -/
def toList (words : WordList) : List Text :=
  words.first :: words.others

/-- The word list with the given words. -/
def ofList : List Text → Except WordListError WordList
  | [] => .error .noWords
  | first :: others => .ok ⟨first, others⟩

/-- The word list whose words are given as strings. -/
def ofStrings (first : String) (others : List String) : WordList :=
  ⟨first, others.map String.toList⟩

@[simp] theorem ofList_toList (words : WordList) : ofList words.toList = .ok words := rfl

end WordList

namespace Vocabulary

/-- The word that opens a room. -/
def structures : WordList :=
  .ofStrings "room" []

/-- The words that open the other special statements. -/
def specials : WordList :=
  .ofStrings "title" ["map", "require", "style", "endstyle"]

/-- The names that the language defines. -/
def builtins : WordList :=
  .ofStrings "it" ["them", "last", "true", "false", "undef"]

/-- The reserved words. -/
def keywords : WordList :=
  .ofStrings "all" ["after", "any", "before", "cmd", "d", "do", "down", "dir", "drop", "endstyle",
    "except", "exit", "finish", "follow", "from", "get", "give", "go", "goto", "hidden",
    "ignore", "in", "item", "join", "keep", "leave", "length", "link", "lose", "lost", "map",
    "need", "none", "nodrop", "nolink", "nopath", "note", "oneway", "out", "require", "room",
    "safe", "score", "start", "style", "tag", "task", "title", "to", "u", "up", "until",
    "with"]

/-- The directions of the compass and their abbreviations. -/
def directions : WordList :=
  .ofStrings "n" ["north", "ne", "northeast", "e", "east", "se", "southeast", "s", "south", "sw",
    "southwest", "w", "west", "nw", "northwest"]

/-- The words of obsolete forms. -/
def obsolete : WordList :=
  .ofStrings "given" ["times"]

end Vocabulary

end MapHighlight

import MapHighlight.Category
import MapHighlight.Location
import MapHighlight.Text.Quoted

/-!
# Tokens

A token is a stretch of a source together with its category and its place. The lexeme is the exact
source text, so the tokens of a source can be put together to the source again.
-/

namespace MapHighlight

/-- A classified stretch of a source. -/
structure Token where
  /-- What kind of text it is. -/
  category : Category
  /-- The exact source text. -/
  lexeme : Text
  /-- The place of its first character. -/
  location : Location
deriving DecidableEq, Repr, Inhabited

namespace Token

/-- The place just past the token. -/
def finish (token : Token) : Location :=
  token.location.advance token.lexeme

/-- The category and the text, which is all that a highlighting host needs. -/
def pair (token : Token) : Category × Text :=
  (token.category, token.lexeme)

/-- Whether the token begins with a double quote that nothing closes. -/
def isOpenQuote (token : Token) : Bool :=
  token.lexeme.head? == some '"' && token.category != .stringLiteral

/-- A token is shown as its category, its place and its quoted text. -/
def display (token : Token) : Text :=
  token.category.display ++ '@' :: token.location.display ++ ' ' :: token.lexeme.quoted

/-- A token on a line of its own: place, standard name and quoted text between tabs. -/
def line (token : Token) : Text :=
  token.location.display ++ '\t' :: token.category.standardName ++ '\t' :: token.lexeme.quoted
    ++ ['\n']

/-- The pieces in which the line of a token is written. -/
def linePieces (token : Token) : List Text :=
  [Text.ofNat token.location.line, [':'], Text.ofNat token.location.column, ['\t'],
    token.category.standardName, ['\t']] ++ Quoted.quotePieces '"' token.lexeme ++ [['\n']]

end Token

end MapHighlight
